import Mathlib.Data.List.Chain
import TypeSketch.Proofs.Json.Scanning
import TypeSketch.Proofs.Shape.Sampled

/-!
# Reading JSON — the names of a text

The names of a text are the texts that a colon follows (`namesFrom`).  A strict reader keeps what it
has read so far on its stack, and so the names that it has read (`Reader.names`): a token adds a
name only if it is a colon (`Reader.Steps`).  What is read in the end, the outline of the text, has
the names of the text in their order (`names_of_outline?`).

Right behind a text stands a colon or what may follow a value (`follows_of_outline?`).

The first part is about atoms: their values hold no names (`walkedKeys_of_isAtomic`), which is
followed through every state of the scan (`Scan.leaves_step`).
-/

namespace TypeSketch.Json

/-! ### Values of atoms -/

/-- The value is written as one atom: it is neither a text nor an array nor an object. -/
def isAtomic : Json → Bool
  | .null | .bool _ | .int _ | .float _ => true
  | _ => false

/-- Atoms bring no names. -/
theorem walkedKeys_of_isAtomic {v : Json} (h : v.isAtomic = true) : v.walkedKeys = [] := by
  cases v <;> first | rfl | cases h

/-- If a token is an atom with a value, the value is one that atoms have. -/
def Token.IsLeaf (t : Token) : Prop := ∀ v apart, t = .atom (some v) apart → v.isAtomic = true

/-- A number that has a value has that of an atom. -/
theorem isAtomic_value? {l : Literal} {v : Json} (h : l.value? = some v) : v.isAtomic = true := by
  have hsign : ∀ {x : Option Binary64} {sign : Binary64 → Binary64},
      (x.map fun y => Json.float (sign y)) = some v → v.isAtomic = true := by
    intro x sign h
    obtain ⟨y, -, rfl⟩ := Option.map_eq_some_iff.mp h
    rfl
  unfold Literal.value? at h
  simp only at h
  repeat' split at h
  all_goals first
    | exact hsign h
    | cases h <;> rfl

namespace Scan

variable {scan : Scan} {c : Char}

/-- The word that is read, if it is one, stands for the value of an atom. -/
def IsLeaf (scan : Scan) : Prop := ∀ left v, scan = .word left v → v.isAtomic = true

/-- What is read of a character has atoms with values of atoms only. -/
def Leaves (r : Scan × List Token) : Prop := r.1.IsLeaf ∧ ∀ t ∈ r.2, t.IsLeaf

/-- The first character of a token completes no atom. -/
theorem leaves_start (c : Char) : Leaves (start c) := by
  unfold start
  repeat' refine iteInduction (motive := Leaves) (fun _ => ?_) fun _ => ?_
  all_goals
    refine ⟨?_, by simp [Token.IsLeaf]⟩
    rintro left v h
    cases h <;> rfl

/-- The end of an atom gives the atom, and what the next character starts. -/
theorem leaves_endAtom {value : Option Json} (h : ∀ v, value = some v → v.isAtomic = true)
    (c : Char) : Leaves (endAtom value c) := by
  refine ⟨(leaves_start c).1, List.forall_mem_cons.mpr ⟨?_, (leaves_start c).2⟩⟩
  intro v apart hv
  cases hv
  exact h v rfl

theorem leaves_stepText (done : Option (List Char)) (c : Char) : Leaves (stepText done c) := by
  unfold stepText
  repeat' refine iteInduction (motive := Leaves) (fun _ => ?_) fun _ => ?_
  all_goals exact ⟨nofun, by simp [Token.IsLeaf]⟩

/-- A character behind a backslash completes no atom. -/
theorem leaves_stepEscape (done : Option (List Char)) (c : Char) : Leaves (stepEscape done c) := by
  unfold stepEscape
  refine iteInduction (motive := Leaves) (fun _ => ⟨nofun, nofun⟩) fun _ => ?_
  split
  · exact ⟨nofun, nofun⟩
  · exact ⟨nofun, by simp [Token.IsLeaf]⟩

/-- The end of a code completes no atom. -/
theorem leaves_endCode (done : Option (List Char)) (high : Option Nat) (digits : Bool) (n : Nat) :
    Leaves (endCode done high digits n) := by
  unfold endCode
  simp only
  repeat' split
  all_goals exact ⟨nofun, by simp [Token.IsLeaf]⟩

theorem leaves_lapsed {r : Scan × List Token} (h : Leaves r) : Leaves (lapsed r) :=
  ⟨h.1, List.forall_mem_cons.mpr ⟨nofun, h.2⟩⟩

/-- The scan goes on without a token. -/
theorem leaves_silent (h : scan.IsLeaf) : Leaves (scan, []) := ⟨h, by simp⟩

theorem leaves_flawed : Leaves (.stopped, [.flawed .malformed]) :=
  ⟨by simp [IsLeaf], by simp [Token.IsLeaf]⟩

/-- A character leaves atoms with values of atoms only. -/
theorem leaves_step (h : scan.IsLeaf) (c : Char) : Leaves (scan.step c) := by
  cases scan with
  | between => exact leaves_start c
  | word left value =>
    cases left with
    | nil =>
      refine leaves_endAtom (fun v hv => ?_) c
      cases hv
      exact h [] _ rfl
    | cons e left =>
      rw [step]
      split
      · refine leaves_silent ?_
        rintro left' v' hv
        cases hv
        exact h _ _ rfl
      · exact leaves_flawed
  | number part literal =>
    rw [step]
    split
    · exact leaves_silent (by simp [IsLeaf])
    · split
      · exact leaves_endAtom (fun v hv => isAtomic_value? hv) c
      · exact leaves_flawed
  | text done => exact leaves_stepText done c
  | escape done => exact leaves_stepEscape done c
  | code done high bytes digits value =>
    simp only [step]
    split
    · exact leaves_endCode _ _ _ _
    · exact leaves_silent (by simp [IsLeaf])
  | pairSlash done high =>
    rw [step]
    split
    · exact leaves_silent (by simp [IsLeaf])
    · exact leaves_lapsed (leaves_stepText none c)
  | pairMark done high =>
    rw [step]
    split
    · exact leaves_silent (by simp [IsLeaf])
    · exact leaves_lapsed (leaves_stepEscape none c)
  | stopped => exact leaves_silent h

/-- The end of the text leaves an atom with the value of one, if any. -/
theorem isLeaf_of_mem_finish (h : scan.IsLeaf) : ∀ t ∈ scan.finish, t.IsLeaf := by
  cases scan with
  | word left value =>
    cases left with
    | nil =>
      refine List.forall_mem_singleton.mpr fun v apart hv => ?_
      cases hv
      exact h [] _ rfl
    | cons e left => exact List.forall_mem_singleton.mpr nofun
  | number part literal =>
    rw [finish]
    split
    · refine List.forall_mem_singleton.mpr fun v apart hv => ?_
      have hvalue : literal.value? = some v := (Token.atom.inj hv).1
      exact isAtomic_value? hvalue
    · exact List.forall_mem_singleton.mpr nofun
  | between | stopped => nofun
  | _ => exact List.forall_mem_singleton.mpr nofun

/-- The atoms among the tokens of a text have values of atoms, wherever the scan stands. -/
theorem isLeaf_of_mem_tokensFrom {cs : List Char} (h : scan.IsLeaf) :
    ∀ t ∈ tokensFrom scan cs, t.IsLeaf := by
  induction cs generalizing scan with
  | nil => exact isLeaf_of_mem_finish h
  | cons c cs ih =>
    obtain ⟨hnext, htokens⟩ := leaves_step h c
    exact List.forall_mem_append.mpr ⟨htokens, ih hnext⟩

end Scan

theorem isLeaf_of_mem_tokens {text : String} : ∀ t ∈ tokens text, t.IsLeaf :=
  Scan.isLeaf_of_mem_tokensFrom nofun

/-! ### Names of outlines -/

mutual

/-- The names in an outline, in the order of the text. -/
def Outline.names : Outline → List String
  | .scalar v => v.walkedKeys
  | .arr items _ => namesOfItems items
  | .obj members _ => namesOfMembers members
  | _ => []

/-- The names in items. -/
def Outline.namesOfItems : List Outline → List String
  | [] => []
  | o :: rest => o.names ++ namesOfItems rest

/-- The names of members, and those in their values. -/
def Outline.namesOfMembers : List (Option String × Outline) → List String
  | [] => []
  | (name, o) :: rest => name.toList ++ o.names ++ namesOfMembers rest

end

theorem Outline.namesOfItems_append (items items' : List Outline) :
    namesOfItems (items ++ items') = namesOfItems items ++ namesOfItems items' := by
  induction items with
  | nil => rfl
  | cons o rest ih => rw [List.cons_append, namesOfItems, namesOfItems, ih, List.append_assoc]

/-- The names in members are those of the first, and then those of the others. -/
theorem Outline.namesOfMembers_append (members members' : List (Option String × Outline)) :
    namesOfMembers (members ++ members') = namesOfMembers members ++ namesOfMembers members' := by
  induction members with
  | nil => rfl
  | cons m rest ih =>
    obtain ⟨name, o⟩ := m
    rw [List.cons_append, namesOfMembers, namesOfMembers, ih, List.append_assoc, List.append_assoc,
      List.append_assoc]

/-- The token is a colon. -/
def Token.isColon : Token → Bool
  | .colon => true
  | _ => false

/-- The names among tokens. `last` is the text that stands before them, if there is one. -/
def namesFrom (last : List String) : List Token → List String
  | [] => []
  | .colon :: rest => last ++ namesFrom [] rest
  | .text s :: rest => namesFrom s.toList rest
  | _ :: rest => namesFrom [] rest

/-! ### Names that have been read -/

/-- The names in an open array or object. The name that stands last belongs to it only if its value
has begun. -/
def Frame.names (begun : Bool) : Frame → List String
  | .arr items => Outline.namesOfItems items.reverse
  | .obj members name =>
    Outline.namesOfMembers members.reverse ++ if begun then name.toList else []

/-- The names on a stack, the outermost first. -/
def stackNames (begun : Bool) : List Frame → List String
  | [] => []
  | frame :: rest => stackNames true rest ++ frame.names begun

namespace Reader

/-- The names that have been read. -/
def names (reader : Reader) : List String :=
  match reader.place with
  | .done o => o.names
  | .value | .firstItem => stackNames true reader.stack
  | _ => stackNames false reader.stack

/-- The name that stands last in the innermost object. -/
def lastName (reader : Reader) : List String :=
  match reader.stack with
  | .obj _ name :: _ => name.toList
  | _ => []

/-- A value that is completed adds its names. -/
theorem names_complete (stack : List Frame) (o : Outline) :
    (complete stack o).names = stackNames true stack ++ o.names := by
  rcases stack with _ | ⟨⟨items⟩ | ⟨members, name⟩, rest⟩
  · rfl
  · simp [complete, names, stackNames, Frame.names, Outline.namesOfItems_append,
      Outline.namesOfItems]
  · simp [complete, names, stackNames, Frame.names, Outline.namesOfMembers_append,
      Outline.namesOfMembers]

/-- Behind a value that is completed the next token is due, or all has been read. -/
theorem place_complete (stack : List Frame) (o : Outline) :
    (complete stack o).place = .next ∨ ∃ o', (complete stack o).place = .done o' := by
  rcases stack with _ | ⟨⟨items⟩ | ⟨members, name⟩, rest⟩
  · exact .inr ⟨o, rfl⟩
  · exact .inl rfl
  · exact .inl rfl

theorem length_complete (stack : List Frame) (o : Outline) :
    (complete stack o).stack.length = stack.length := by
  rcases stack with _ | ⟨⟨items⟩ | ⟨members, name⟩, rest⟩ <;> rfl

/-- What a token does to the names that have been read: a colon adds the name before it, and only a
text is followed by a place for a colon. -/
structure Steps (reader : Reader) (t : Token) (next : Reader) : Prop where
  deep : next.stack.length ≤ maxDepth
  names : next.names = reader.names ++ if t.isColon then reader.lastName else []
  colon : t = .colon → reader.place = .colon
  text : next.place = .colon → ∃ s, t = .text s ∧ next.lastName = s.toList

variable {stack rest : List Frame} {t : Token} {reader next : Reader} {o : Outline}

/-- A token that completes a value adds no name, unless the value does. -/
theorem steps_complete (hdeep : stack.length ≤ maxDepth)
    (hreader : reader.names = stackNames true stack ++ o.names)
    (ht : t.isColon = false) : Steps reader t (complete stack o) where
  deep := length_complete stack o ▸ hdeep
  names := by rw [names_complete, hreader, ht]; exact (List.append_nil _).symm
  colon := by rintro rfl; cases ht
  text := by
    intro hplace
    rcases place_complete stack o with h | ⟨_, h⟩ <;> rw [h] at hplace <;> cases hplace

theorem steps_close (hdeep : rest.length < maxDepth)
    (hreader : reader.names = stackNames true rest ++ o.names)
    (ht : t.isColon = false) : Steps reader t (close rest o) := by
  rw [close, if_pos hdeep]
  exact steps_complete (Nat.le_of_lt hdeep) hreader ht

/-- A token that starts a value adds no name. -/
theorem steps_startValue (hdeep : stack.length ≤ maxDepth) (hleaf : t.IsLeaf)
    (hreader : reader.names = stackNames true stack) (h : startValue true stack t = .ok next) :
    Steps reader t next := by
  have hscalar : ∀ v : Json, v.walkedKeys = [] →
      reader.names = stackNames true stack ++ (Outline.scalar v).names := by
    intro v hv
    rw [Outline.names, hv, hreader, List.append_nil]
  -- What is opened holds no names yet.
  have hopen : ∀ {frame place}, enter true stack frame place = .ok next →
      (place = .firstItem ∧ frame = .arr [] ∨ place = .firstName ∧ frame = .obj [] none) →
      t.isColon = false → Steps reader t next := by
    intro frame place h hframe ht
    rw [enter] at h
    split at h
    · cases h
    · next hfree =>
      cases h
      have hfree : stack.length < maxDepth := by simpa using hfree
      refine ⟨hfree, ?_, fun hcolon => (by rw [hcolon] at ht; cases ht), ?_⟩
      · rw [hreader, ht]
        rcases hframe with ⟨rfl, rfl⟩ | ⟨rfl, rfl⟩ <;>
          simp [names, stackNames, Frame.names, Outline.namesOfItems, Outline.namesOfMembers]
      · rcases hframe with ⟨rfl, rfl⟩ | ⟨rfl, rfl⟩ <;> nofun
  cases t with
  | atom v apart =>
    cases v with
    | none => cases h
    | some v =>
      cases h
      exact steps_complete hdeep (hscalar v (walkedKeys_of_isAtomic (hleaf v _ rfl))) rfl
  | text s =>
    cases s with
    | none => cases h
    | some s => cases h; exact steps_complete hdeep (hscalar (.str s) rfl) rfl
  | beginArr => exact hopen h (.inl ⟨rfl, rfl⟩) rfl
  | beginObj => exact hopen h (.inr ⟨rfl, rfl⟩) rfl
  | _ => cases h

/-- A name is added by its colon only. -/
theorem steps_readName (hdeep : stack.length ≤ maxDepth)
    (hreader : reader.names = stackNames false stack) (h : readName true stack t = .ok next) :
    Steps reader t next := by
  cases t with
  | text s =>
    rcases stack with _ | ⟨⟨items⟩ | ⟨members, name⟩, rest⟩
    · cases h
    · cases h
    · rw [readName] at h
      split at h
      · cases h
      · cases h
        refine ⟨hdeep, ?_, fun hcolon => (by cases hcolon), fun _ => ⟨s, rfl, rfl⟩⟩
        rw [hreader]
        exact (List.append_nil _).symm
  | _ => cases h

/-- Every token does to the names what `Steps` says. -/
theorem steps_of_step (hdeep : reader.stack.length ≤ maxDepth) (hleaf : t.IsLeaf)
    (h : reader.step true t = .ok next) : Steps reader t next := by
  rw [step.eq_def] at h
  split at h
  · cases h
  · exact steps_startValue hdeep hleaf rfl h
  · cases h
    exact steps_close hdeep rfl rfl
  · exact steps_startValue hdeep hleaf rfl h
  · cases h
    exact steps_close hdeep (by simp [names, stackNames, Frame.names, Outline.names]) rfl
  · exact steps_readName hdeep rfl h
  · exact steps_readName hdeep rfl h
  · next stack =>
    cases h
    refine ⟨hdeep, ?_, fun _ => rfl, nofun⟩
    rcases stack with _ | ⟨⟨items⟩ | ⟨members, name⟩, rest⟩ <;>
      simp [names, stackNames, Frame.names, lastName, Token.isColon]
  · cases h
    exact ⟨hdeep, (List.append_nil _).symm, nofun, nofun⟩
  · cases h
    exact steps_close hdeep rfl rfl
  · cases h
    exact ⟨hdeep, (List.append_nil _).symm, nofun, nofun⟩
  · cases h
    exact steps_close hdeep (by simp [names, stackNames, Frame.names, Outline.names]) rfl
  · cases h

/-- What tokens add to the names that have been read. -/
theorem names_of_foldlM {ts : List Token} {last : List String}
    (hdeep : reader.stack.length ≤ maxDepth)
    (hlast : reader.place = .colon → last = reader.lastName)
    (hleaf : ∀ t ∈ ts, t.IsLeaf) (h : ts.foldlM (step true) reader = .ok next) :
    next.names = reader.names ++ namesFrom last ts := by
  induction ts generalizing reader last with
  | nil =>
    cases h
    exact (List.append_nil _).symm
  | cons t ts ih =>
    rw [List.foldlM_cons] at h
    obtain ⟨reader', hstep, hrest⟩ := Except.bind_eq_ok.mp h
    obtain ⟨ht, hts⟩ := List.forall_mem_cons.mp hleaf
    have hsteps := steps_of_step hdeep ht hstep
    -- Only behind a text a colon may come, and then the text is the last name of the reader.
    have hrest' : ∀ last', (reader'.place = .colon → last' = reader'.lastName) →
        next.names = reader.names ++ ((if t.isColon then reader.lastName else []) ++
          namesFrom last' ts) := by
      intro last' hlast'
      rw [ih hsteps.deep hlast' hts hrest, hsteps.names, List.append_assoc]
    have hnone : (∀ s, t ≠ .text s) → next.names = reader.names ++
        ((if t.isColon then reader.lastName else []) ++ namesFrom [] ts) := by
      intro ht
      refine hrest' [] fun hplace => ?_
      obtain ⟨s, hs, -⟩ := hsteps.text hplace
      exact absurd hs (ht s)
    cases t with
    | colon =>
      rw [hnone nofun, ← hlast (hsteps.colon rfl)]
      rfl
    | text s =>
      refine hrest' s.toList fun hplace => ?_
      obtain ⟨s', hs, hlast'⟩ := hsteps.text hplace
      cases hs
      exact hlast'.symm
    | _ => exact hnone nofun

/-! ### What may follow a text -/

/-- A text leaves the reader behind a name or behind a value. -/
theorem place_of_text {s : Option String} (h : reader.step true (.text s) = .ok next) :
    next.place = .colon ∨ next.place = .next ∨ ∃ o, next.place = .done o := by
  have hvalue : ∀ {stack}, startValue true stack (.text s) = .ok next →
      next.place = .next ∨ ∃ o, next.place = .done o := by
    intro stack h
    cases s with
    | none => cases h
    | some s =>
      cases h
      exact place_complete _ _
  have hname : ∀ {stack}, readName true stack (.text s) = .ok next → next.place = .colon := by
    intro stack h
    rcases stack with _ | ⟨⟨items⟩ | ⟨members, name⟩, rest⟩
    · cases h
    · cases h
    · rw [readName] at h
      split at h
      · cases h
      · cases h
        rfl
  obtain ⟨stack, place⟩ := reader
  cases place with
  | value => exact .inr (hvalue h)
  | firstItem => rcases stack with _ | ⟨⟨items⟩ | ⟨members, name⟩, rest⟩ <;> exact .inr (hvalue h)
  | firstName =>
    rcases stack with _ | ⟨⟨items⟩ | ⟨members, name⟩, rest⟩ <;>
      exact .inl (hname (by simpa only [step] using h))
  | name => exact .inl (hname h)
  | colon | next | done => rcases stack with _ | ⟨⟨items⟩ | ⟨members, name⟩, rest⟩ <;> cases h

end Reader

/-- The token may stand behind a name or a value. -/
def Token.endsValue : Token → Bool
  | .colon | .comma | .endArr | .endObj => true
  | _ => false

/-- The second token may stand right behind the first. -/
def Token.Follows (t t' : Token) : Prop := ∀ s, t = .text s → t'.endsValue = true

namespace Reader

variable {t : Token} {reader next : Reader}

/-- A token that is taken behind a name or a value is one that may stand there. -/
theorem endsValue_of_step
    (hplace : reader.place = .colon ∨ reader.place = .next ∨ ∃ o, reader.place = .done o)
    (h : reader.step true t = .ok next) : t.endsValue = true := by
  obtain ⟨stack, place⟩ := reader
  rcases hplace with rfl | rfl | ⟨o, rfl⟩ <;>
    rcases stack with _ | ⟨⟨items⟩ | ⟨members, name⟩, rest⟩ <;> cases t <;> first | rfl | cases h

/-- Tokens that a strict reader takes may stand one behind the other. -/
theorem follows_of_foldlM {ts : List Token} (h : ts.foldlM (step true) reader = .ok next) :
    ts.IsChain Token.Follows := by
  induction ts generalizing reader with
  | nil => exact .nil
  | cons t ts ih =>
    rw [List.foldlM_cons] at h
    obtain ⟨reader', hstep, hrest⟩ := Except.bind_eq_ok.mp h
    cases ts with
    | nil => exact .singleton t
    | cons t' ts =>
      refine .cons_cons ?_ (ih hrest)
      rintro s rfl
      rw [List.foldlM_cons] at hrest
      obtain ⟨_, hstep', -⟩ := Except.bind_eq_ok.mp hrest
      exact endsValue_of_step (place_of_text hstep) hstep'

end Reader

/-! ### The outline of a text -/

/-- What a strict reader reads in a text. -/
def outline? (text : String) : Option Outline :=
  match (tokens text).foldlM (Reader.step true) {} with
  | .ok ⟨_, .done o⟩ => some o
  | _ => none

variable {text : String} {o : Outline} {v : Json}

/-- What is read in a text is what its tokens leave the reader with. -/
theorem exists_foldlM_of_outline? (h : outline? text = some o) :
    ∃ stack, (tokens text).foldlM (Reader.step true) {} = .ok ⟨stack, .done o⟩ := by
  rw [outline?] at h
  split at h
  · next stack o' hread =>
    cases h
    exact ⟨stack, hread⟩
  · cases h

/-- What is read in a text has the names of the text. -/
theorem names_of_outline? (h : outline? text = some o) : o.names = namesFrom [] (tokens text) := by
  obtain ⟨stack, hread⟩ := exists_foldlM_of_outline? h
  exact Reader.names_of_foldlM (Nat.zero_le _) (fun h : Place.value = .colon => nomatch h)
    isLeaf_of_mem_tokens hread

theorem follows_of_outline? (h : outline? text = some o) :
    (tokens text).IsChain Token.Follows := by
  obtain ⟨stack, hread⟩ := exists_foldlM_of_outline? h
  exact Reader.follows_of_foldlM hread

/-- A text that holds a value has an outline, which settles to the value. -/
theorem exists_outline?_of_parse (h : parse text = .ok v) :
    ∃ o, outline? text = some o ∧ o.settle? = some v := by
  obtain ⟨⟨stack, place⟩, hread, h⟩ := Except.bind_eq_ok.mp h
  cases place with
  | done o =>
    refine ⟨o, by rw [outline?, hread], ?_⟩
    change settled o = .ok v at h
    rw [settled] at h
    cases hv : o.settle? with
    | none => rw [hv] at h; cases h
    | some v' => rw [hv] at h; cases h; rfl
  | _ => cases h

end TypeSketch.Json
