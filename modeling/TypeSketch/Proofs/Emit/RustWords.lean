import TypeSketch.Proofs.Emit.RustData
import TypeSketch.Proofs.Emit.RustStructs

/-!
# Data types in Rust — the structs that a type names

The type of a field is spelled in words: code, and the names of structs that are declared on their
own (`Word`).  `typeWords` finds the words as `typeOf` finds the type (`typeOf_eq_words`).  A struct
is named by its own type and by those of tuples, vectors and maps around it, so that it is one of
the structs in the shape of the field (`mem_structsIn_of_typeWords`).

`Spelling` divides the handlers of types by what of a shape they read: its name for a struct, the
types of its parts for a tuple, a vector and a map, and neither for all others (`presentType_eq`).
That is all that is needed of them.
-/

namespace TypeSketch.Rust

/-- A part of the spelling of a type. -/
inductive Word
  | code (text : String)
  /-- The name of a struct. -/
  | struct (s : Shape)

/-- The text of a word. -/
def Word.text : Word → String
  | code text => text
  | struct s => Text.pascalCase s.name

/-- The text of words. -/
def spelled (words : List Word) : String := String.join (words.map Word.text)

theorem spelled_append (words words' : List Word) :
    spelled (words ++ words') = spelled words ++ spelled words' := by
  simp [spelled, String.join_append]

theorem spelled_cons (word : Word) (words : List Word) :
    spelled (word :: words) = word.text ++ spelled words := by
  simp [spelled, String.join_cons]

theorem spelled_singleton (word : Word) : spelled [word] = word.text := by
  simp [spelled]

/-- Words with words between two. -/
def between (sep : Word) : List (List Word) → List Word
  | [] => []
  | [words] => words
  | words :: rest => words ++ sep :: between sep rest

/-- Words with a separator between them are spelled as their spellings joined. -/
theorem spelled_between (sep : Word) : ∀ parts : List (List Word),
    spelled (between sep parts) = Text.joinWith sep.text (parts.map spelled)
  | [] => rfl
  | [_] => rfl
  | words :: next :: rest => by
    rw [between, spelled_append, spelled_cons, spelled_between sep (next :: rest),
      ← String.append_assoc]
    · rfl
    · nofun

/-- A word that is no separator is one of the words of a part. -/
theorem mem_between {sep word : Word} (hsep : word ≠ sep) : ∀ {parts : List (List Word)},
    word ∈ between sep parts → ∃ words ∈ parts, word ∈ words
  | [], h => nomatch h
  | [words], h => ⟨words, List.mem_singleton_self _, h⟩
  | words :: next :: rest, h => by
    rw [between, List.mem_append, List.mem_cons] at h
    · rcases h with h | h | h
      · exact ⟨words, List.mem_cons_self, h⟩
      · exact absurd h hsep
      · obtain ⟨part, hpart, hword⟩ := mem_between hsep h
        exact ⟨part, List.mem_cons_of_mem _ hpart, hword⟩
    · nofun

/-! ### The words of a type -/

/-- How the type of a shape is spelled: with the types of the shapes it is made of, with its own
name, or with neither. -/
inductive Spelling
  | plain
  | struct
  | tuple
  | vector
  | map

/-- How the type of a shape is spelled. -/
def spelling (s : Shape) : Spelling :=
  if s.flag Trait.null || s.has Trait.tsUnit then .plain
  else if s.flag Trait.struct then if (s.str? Trait.typeRef).isSome then .plain else .struct
  else if s.flag Trait.enum then .plain
  else if s.flag Trait.tuple then .tuple
  else if s.flag Trait.vector then .vector
  else if s.flag Trait.bool || s.flag Trait.allValue || s.flag Trait.integer ||
      s.flag Trait.floating then .plain
  else if s.flag Trait.map then .map
  else .plain

variable {s t : Shape}

/-- The type or the words of a part, if there is one, else of any data. -/
def part {α : Type} (any : α) (generics : List (Except Error α)) (i : Nat) : Except Error α :=
  (generics[i]?).getD (.ok any)

/-- The type of the data of a shape, as its spelling says. -/
theorem presentType_eq (s : Shape) (generics : List (Except Error String)) :
    presentType s generics =
      match spelling s with
      | .plain => presentType s []
      | .struct => .ok (Text.pascalCase s.name)
      | .tuple => do return "(" ++ Text.joinWith ", " (← generics.mapM id) ++ ")"
      | .vector => do return "Vec<" ++ (← part anyType generics 0) ++ ">"
      | .map => do
        return "HashMap<" ++ (← part anyType generics 0) ++ ", " ++
          (← part anyType generics 1) ++ ">" := by
  unfold presentType spelling part
  cases s.flag Trait.null
  cases s.has Trait.tsUnit
  cases s.flag Trait.struct
  cases s.flag Trait.enum
  cases s.flag Trait.tuple
  cases s.flag Trait.vector
  cases s.flag Trait.bool
  cases s.flag Trait.allValue
  cases s.flag Trait.integer
  cases s.flag Trait.floating
  cases s.flag Trait.map
  all_goals try rfl
  -- a struct has the name of its own or that of its reference
  cases s.str? Trait.typeRef <;> rfl

/-- The words of the data of a shape, given those of the shapes it is made of. -/
def presentWords (s : Shape) (generics : List (Except Error (List Word))) :
    Except Error (List Word) :=
  match spelling s with
  | .plain => do return [.code (← presentType s [])]
  | .struct => .ok [.struct s]
  | .tuple => do return .code "(" :: between (.code ", ") (← generics.mapM id) ++ [.code ")"]
  | .vector => do return .code "Vec<" :: (← part [.code anyType] generics 0) ++ [.code ">"]
  | .map => do
    return .code "HashMap<" :: (← part [.code anyType] generics 0) ++ .code ", " ::
      (← part [.code anyType] generics 1) ++ [.code ">"]

/-- The words of the type of a shape. -/
def typeWords (s : Shape) : Except Error (List Word) := do
  let present ← presentWords s (s.generics.attach.map fun ⟨t, _⟩ => typeWords t)
  return if s.flag Trait.nullable then .code "Option<" :: present ++ [.code ">"] else present
termination_by s.depth
decreasing_by exact Shape.depth_lt_of_mem_generics ‹_›

theorem typeWords_eq (s : Shape) : typeWords s =
    (presentWords s (s.generics.map typeWords) >>= fun present =>
      pure (if s.flag Trait.nullable then .code "Option<" :: present ++ [.code ">"]
        else present)) := by
  rw [typeWords, ← List.attach_map_val (l := s.generics)]

/-! ### Words and types -/

theorem part_map {α β : Type} (f : α → β) (any : α) (generics : List (Except Error α)) (i : Nat) :
    part (f any) (generics.map (Except.map f)) i = (part any generics i).map f := by
  rw [part, part, List.getElem?_map]
  cases generics[i]? <;> rfl

/-- Parts that are all there may be mapped before or after. -/
theorem mapM_map {α β : Type} (f : α → β) (generics : List (Except Error α)) :
    (generics.map (Except.map f)).mapM id = (generics.mapM id).map (List.map f) := by
  induction generics with
  | nil => rfl
  | cons x rest ih =>
    rw [List.map_cons, List.mapM_cons, List.mapM_cons, ih]
    cases x with
    | error e => rfl
    | ok a => cases rest.mapM id <;> rfl

/-- The words of the data of a shape are the spelling of its type. -/
theorem presentType_eq_words (s : Shape) (generics : List (Except Error (List Word))) :
    presentType s (generics.map (Except.map spelled)) = (presentWords s generics).map spelled := by
  have hpart : ∀ i, part anyType (generics.map (Except.map spelled)) i =
      (part [.code anyType] generics i).map spelled := fun i => by
    rw [← part_map, spelled_singleton]
    rfl
  rw [presentType_eq, presentWords]
  cases spelling s with
  | plain =>
    cases presentType s [] with
    | error e => rfl
    | ok type => exact congrArg Except.ok (spelled_singleton (.code type)).symm
  | struct => exact congrArg Except.ok (spelled_singleton (.struct s)).symm
  | tuple =>
    dsimp only
    rw [mapM_map]
    cases generics.mapM id with
    | error e => rfl
    | ok parts =>
      refine congrArg Except.ok ?_
      rw [spelled_append, spelled_cons, spelled_between, spelled_singleton]
      rfl
  | vector =>
    dsimp only
    rw [hpart]
    cases part [.code anyType] generics 0 with
    | error e => rfl
    | ok words =>
      refine congrArg Except.ok ?_
      rw [spelled_append, spelled_cons, spelled_singleton]
      rfl
  | map =>
    dsimp only
    rw [hpart, hpart]
    cases part [.code anyType] generics 0 with
    | error e => rfl
    | ok key =>
      cases part [.code anyType] generics 1 with
      | error e => rfl
      | ok value =>
        refine congrArg Except.ok ?_
        simp only [spelled_append, spelled_cons, String.append_assoc]
        rfl

/-- The words of a type are found where the type is, and are its spelling. -/
theorem typeOf_eq_words (s : Shape) : typeOf s = (typeWords s).map spelled := by
  have hgenerics : s.generics.map typeOf = (s.generics.map typeWords).map (Except.map spelled) := by
    rw [List.map_map]
    exact List.map_congr_left fun t ht => typeOf_eq_words t
  rw [typeOf_eq, typeWords_eq, hgenerics, presentType_eq_words]
  cases presentWords s (s.generics.map typeWords) with
  | error e => rfl
  | ok words =>
    refine congrArg Except.ok ?_
    split
    · rw [spelled_append, spelled_cons, spelled_singleton]
      rfl
    · rfl
termination_by s.depth
decreasing_by exact Shape.depth_lt_of_mem_generics ht

/-! ### Where the names come from -/

/-- A struct that a part names comes from one of the parts. -/
theorem mem_part {generics : List (Except Error (List Word))} {i : Nat} {words : List Word}
    (h : part [.code anyType] generics i = .ok words) (ht : Word.struct t ∈ words) :
    .ok words ∈ generics := by
  rw [part] at h
  cases hi : generics[i]? with
  | none =>
    rw [hi] at h
    cases h
    simp at ht
  | some x =>
    rw [hi] at h
    exact h ▸ List.mem_of_getElem? hi

/-- A struct that a type names is its own, or named by one of those it is made of. -/
theorem eq_or_mem_of_presentWords {generics : List (Except Error (List Word))} {words : List Word}
    (h : presentWords s generics = .ok words) (ht : Word.struct t ∈ words) :
    t = s ∨ ∃ words', .ok words' ∈ generics ∧ Word.struct t ∈ words' := by
  rw [presentWords] at h
  cases hs : spelling s with
  | plain =>
    rw [hs] at h
    obtain ⟨type, -, h⟩ := Except.bind_eq_ok.mp h
    cases h
    simp at ht
  | struct =>
    rw [hs] at h
    cases h
    exact .inl (by simpa using ht)
  | tuple =>
    rw [hs] at h
    obtain ⟨parts, hparts, h⟩ := Except.bind_eq_ok.mp h
    cases h
    have hbetween : Word.struct t ∈ between (.code ", ") parts := by simpa using ht
    obtain ⟨words', hwords', ht'⟩ :=
      mem_between (show Word.struct t ≠ .code ", " from nofun) hbetween
    obtain ⟨x, hx, rfl⟩ := (Except.mapM_eq_ok hparts).1 words' hwords'
    exact .inr ⟨words', hx, ht'⟩
  | vector =>
    rw [hs] at h
    obtain ⟨words', hpart, h⟩ := Except.bind_eq_ok.mp h
    cases h
    have ht' : Word.struct t ∈ words' := by simpa using ht
    exact .inr ⟨words', mem_part hpart ht', ht'⟩
  | map =>
    rw [hs] at h
    obtain ⟨key, hkey, h⟩ := Except.bind_eq_ok.mp h
    obtain ⟨value, hvalue, h⟩ := Except.bind_eq_ok.mp h
    cases h
    have ht' : Word.struct t ∈ key ∨ Word.struct t ∈ value := by simpa using ht
    rcases ht' with ht' | ht'
    · exact .inr ⟨key, mem_part hkey ht', ht'⟩
    · exact .inr ⟨value, mem_part hvalue ht', ht'⟩

/-- A struct that a type names is declared elsewhere, or it is one of the structs in the shape. -/
theorem mem_structsIn_of_typeWords {s : Shape} {words : List Word} (h : typeWords s = .ok words)
    (ht : Word.struct t ∈ words) (hstruct : t.flag Trait.struct = true)
    (href : t.has Trait.typeRef = false) : t ∈ structsIn s := by
  rw [typeWords_eq] at h
  obtain ⟨present, hpresent, h⟩ := Except.bind_eq_ok.mp h
  have ht : Word.struct t ∈ present := by
    cases h
    split at ht
    · simpa using ht
    · exact ht
  rw [structsIn_eq]
  rcases eq_or_mem_of_presentWords hpresent ht with rfl | ⟨words', hwords', ht'⟩
  · rw [hstruct, href]
    exact List.mem_cons_self
  · obtain ⟨e, he, hwords'⟩ := List.mem_map.mp hwords'
    exact List.mem_append_right _
      (List.mem_flatMap.mpr ⟨e, he, mem_structsIn_of_typeWords hwords' ht' hstruct href⟩)
termination_by s.depth
decreasing_by exact Shape.depth_lt_of_mem_generics he

end TypeSketch.Rust
