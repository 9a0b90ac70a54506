import TypeSketch.Proofs.Inference.InPlace
import TypeSketch.Proofs.Inference.Stating

/-!
# Inference — equal literals

What is known of two literals of one value, made at different times.  The sample is dropped from a
known shape, but a struct without a name is numbered as it is made, and its number is not.  A struct
below a member loses its number to the path of names, so what the first elements of a value lead to
decides (`Json.objectDepth?`): if it is an object, then the shapes are the same only if as many
structs had been numbered before both, and otherwise they always are (`literals_agree_iff`).

A literal is read by a draft, which takes a number from a supply for each object it meets. Two
readings of one value are compared by running the draft from two supplies side by side
(`Draft.Twice`): they take as many numbers, and come out as twins (`Shape.Twins`), which are equal
but for the number that an object at the end of the first elements keeps.
-/

namespace TypeSketch

/-! ### Two runs of one draft -/

/-- The supply after some more numbers of shapes were taken. -/
def Supply.skip (supply : Supply) (n : Nat) : Supply :=
  { supply with shapes := supply.shapes + n }

@[simp] theorem Supply.skip_zero (supply : Supply) : supply.skip 0 = supply := rfl

@[simp] theorem Supply.skip_shapes (supply : Supply) (n : Nat) :
    (supply.skip n).shapes = supply.shapes + n := rfl

theorem Supply.skip_skip (supply : Supply) (m n : Nat) :
    (supply.skip m).skip n = supply.skip (m + n) := by
  simp [skip, Nat.add_assoc]

namespace Draft

variable {α β : Type}

/-- Two drafts, from a supply each, fail for one reason, or come out as results that stand in a
relation after they have numbered as many shapes. -/
inductive Twice (R : α → α → Prop) (d₁ d₂ : Draft α) (S₁ S₂ : Supply) : Prop
  | fails (e : Error) (S₁' S₂' : Supply) (h₁ : d₁.outcome S₁ = (.error e, S₁'))
      (h₂ : d₂.outcome S₂ = (.error e, S₂'))
  | makes (a₁ a₂ : α) (n : Nat) (h₁ : d₁.outcome S₁ = (.ok a₁, S₁.skip n))
      (h₂ : d₂.outcome S₂ = (.ok a₂, S₂.skip n)) (hR : R a₁ a₂)

variable {S₁ S₂ : Supply} {R : α → α → Prop} {Q : β → β → Prop}

theorem twice_pure {a₁ a₂ : α} (h : R a₁ a₂) : Twice R (pure a₁) (pure a₂) S₁ S₂ :=
  .makes a₁ a₂ 0 rfl rfl h

theorem twice_ofExcept {x : Except Error α} (h : ∀ a, x = .ok a → R a a) :
    Twice R (ofExcept x) (ofExcept x) S₁ S₂ := by
  cases x with
  | error e => exact .fails e S₁ S₂ rfl rfl
  | ok a => exact .makes a a 0 rfl rfl (h a rfl)

/-- Two runs of one draft after another go on side by side. -/
theorem Twice.bind {d₁ d₂ : Draft α} {f₁ f₂ : α → Draft β} (h : Twice R d₁ d₂ S₁ S₂)
    (hf : ∀ a₁ a₂ n, R a₁ a₂ → Twice Q (f₁ a₁) (f₂ a₂) (S₁.skip n) (S₂.skip n)) :
    Twice Q (d₁ >>= f₁) (d₂ >>= f₂) S₁ S₂ := by
  cases h with
  | fails e S₁' S₂' h₁ h₂ => exact .fails e S₁' S₂' (outcome_bind_error h₁) (outcome_bind_error h₂)
  | makes a₁ a₂ n h₁ h₂ hR =>
    have hb₁ := outcome_bind_ok (f := f₁) h₁
    have hb₂ := outcome_bind_ok (f := f₂) h₂
    cases hf a₁ a₂ n hR with
    | fails e S₁' S₂' h₁' h₂' => exact .fails e S₁' S₂' (hb₁.trans h₁') (hb₂.trans h₂')
    | makes b₁ b₂ m h₁' h₂' hQ =>
      rw [Supply.skip_skip] at h₁' h₂'
      exact .makes b₁ b₂ (n + m) (hb₁.trans h₁') (hb₂.trans h₂') hQ

end Draft

/-! ### What the first elements lead to -/

/-- How many arrays are around the object that the first elements of a value lead to. -/
def Json.objectDepth? : Json → Option Nat
  | .obj _ => some 0
  | .arr (x :: _) => x.objectDepth?.map (· + 1)
  | _ => none

namespace Shape

/-- A struct below some vectors carries the number that it was made with. -/
inductive Numbered (n : Nat) : Nat → Shape → Prop
  | struct {s : Shape} (h : s.get? Trait.name.key = some (.str ("struct_" ++ toString n))) :
      Numbered n 0 s
  | vector {d : Nat} {s e : Shape} (h : s.get? Trait.generics.key = some (listOf [e]))
      (he : Numbered n d e) : Numbered n (d + 1) s

/-- The number is read off the name of the shape or its element. -/
theorem Numbered.of_reads {n d : Nat} {s t : Shape} (h : Numbered n d s)
    (hname : t.get? Trait.name.key = s.get? Trait.name.key)
    (hgenerics : t.get? Trait.generics.key = s.get? Trait.generics.key) : Numbered n d t := by
  cases h with
  | struct h => exact .struct (hname.trans h)
  | vector h he => exact .vector (hgenerics.trans h) he

theorem generics_of_listOf {s e : Shape} (h : s.get? Trait.generics.key = some (listOf [e])) :
    s.generics = [e] := by
  simp [generics, Record.shapes, Record.items, Record.field?, h, listOf, Value.asList?, toValue,
    Value.asShape?]

/-- Shapes that are the same carry the same number. -/
theorem Numbered.eq_of_same {n m d : Nat} {s t : Shape} (hs : Numbered n d s) (ht : Numbered m d t)
    (hsp : s.Proper) (htp : t.Proper) (h : s.same t = true) : n = m := by
  induction hs generalizing t with
  | struct hs =>
    cases ht with
    | struct ht =>
      have hrel := field?_rel_of_same hsp htp h (f := Trait.name) nofun
      simp only [Record.field?, hs, ht, Option.some_or, Option.rel_some_some, Value.same,
        beq_iff_eq] at hrel
      exact Nat.repr_injective (String.append_right_inj _ |>.mp hrel)
  | vector hs _ ih =>
    cases ht with
    | vector ht ht' =>
      have hgenerics := forall₂_generics_of_same hsp htp h
      rw [generics_of_listOf hs, generics_of_listOf ht] at hgenerics
      obtain ⟨hsame, -⟩ := List.forall₂_cons.mp hgenerics
      refine ih ht' (hsp.generics ?_) (htp.generics ?_) hsame
      · rw [generics_of_listOf hs]
        exact List.mem_singleton_self _
      · rw [generics_of_listOf ht]
        exact List.mem_singleton_self _

theorem get?_name_struct (name : String) (fields : List Shape) :
    (struct name fields).get? Trait.name.key = some (.str name) := by
  rfl

theorem get?_generics_vector (e : Shape) :
    (vector e).get? Trait.generics.key = some (listOf [e]) := by
  rfl

/-! ### Two shapes of one value -/

/-- How the shapes of one value, from two supplies of numbers, compare. -/
structure Twins (v : Json) (S₁ S₂ : Supply) (s₁ s₂ : Shape) : Prop where
  eq : S₁.shapes = S₂.shapes ∨ v.objectDepth? = none → s₁ = s₂
  numbered : ∀ d, v.objectDepth? = some d →
    ∃ n, Numbered (S₁.shapes + n) d s₁ ∧ Numbered (S₂.shapes + n) d s₂

theorem Twins.of_eq {v : Json} {S₁ S₂ : Supply} (s : Shape) (h : v.objectDepth? = none) :
    Twins v S₁ S₂ s s :=
  ⟨fun _ => rfl, fun d hd => by rw [h] at hd; cases hd⟩

/-- Vectors of twins are twins, one array further from the object. -/
theorem Twins.vector {x : Json} {xs : List Json} {S₁ S₂ : Supply} {e₁ e₂ : Shape}
    (h : Twins x S₁ S₂ e₁ e₂) : Twins (.arr (x :: xs)) S₁ S₂ (vector e₁) (vector e₂) := by
  refine ⟨fun heq => congrArg Shape.vector (h.eq (heq.imp_right fun hnone => ?_)), fun d hd => ?_⟩
  · simpa [Json.objectDepth?] using hnone
  · obtain ⟨d, hx, rfl⟩ := Option.map_eq_some_iff.mp hd
    obtain ⟨n, h₁, h₂⟩ := h.numbered d hx
    exact ⟨n, .vector (get?_generics_vector e₁) h₁, .vector (get?_generics_vector e₂) h₂⟩

mutual

/-- A value implies twins, from any two supplies. -/
theorem twice_ofJson (path : String) :
    ∀ (v : Json) (S₁ S₂ : Supply),
      Draft.Twice (Twins v S₁ S₂) (ofJson path v) (ofJson path v) S₁ S₂
  | .null, _, _ | .bool _, _, _ | .str _, _, _ | .float _, _, _ | .arr [], _, _ => by
      rw [ofJson]
      exact Draft.twice_pure (.of_eq _ rfl)
  | .int n, _, _ => by
      rw [ofJson]
      exact Draft.twice_ofExcept fun s _ => .of_eq s rfl
  | .arr (x :: xs), S₁, S₂ => by
      rw [ofJson]
      exact (twice_ofJson path x S₁ S₂).bind fun e₁ e₂ n h => Draft.twice_pure h.vector
  | .obj ms, S₁, S₂ => by
      rw [ofJson]
      refine (twice_ofMembers path ms S₁ S₂).bind fun fields₁ fields₂ n h => ?_
      -- the struct takes its number after those of its members
      refine .makes (struct ("struct_" ++ toString (S₁.shapes + n)) fields₁)
        (struct ("struct_" ++ toString (S₂.shapes + n)) fields₂) 1 rfl rfl ⟨fun heq => ?_, ?_⟩
      · rcases heq with heq | hnone
        · rw [heq, h heq]
        · cases hnone
      · rintro d ⟨⟩
        exact ⟨n, .struct (get?_name_struct _ _), .struct (get?_name_struct _ _)⟩

/-- Members imply the same fields, if as many structs had been numbered before. -/
theorem twice_ofMembers (path : String) :
    ∀ (ms : List (String × Json)) (S₁ S₂ : Supply),
      Draft.Twice (fun fields₁ fields₂ => S₁.shapes = S₂.shapes → fields₁ = fields₂)
        (ofMembers path ms) (ofMembers path ms) S₁ S₂
  | [], _, _ => by
      rw [ofMembers]
      exact Draft.twice_pure fun _ => rfl
  | (name, v) :: rest, S₁, S₂ => by
      rw [ofMembers]
      refine (twice_ofJson _ v S₁ S₂).bind fun s₁ s₂ n h => ?_
      refine (twice_ofMembers path rest (S₁.skip n) (S₂.skip n)).bind fun others₁ others₂ m hrest =>
        Draft.twice_pure fun heq => ?_
      rw [h.eq (.inl heq), hrest (by simp [heq])]

end

/-! ### What is known of a sample -/

theorem Formed.adding {s : Shape} (hs : s.Formed) (e : Entry) : (s.adding e).Formed := by
  rw [Formed, Shape.adding, Record.set]
  split
  · next h => rw [Assoc.map_fst_put, if_pos (Assoc.lookup_isSome_iff.mp h)]; exact hs
  · exact hs

/-- A value implies a shape in order. -/
theorem formed_of_makes_ofJson {path : String} {v : Json} {s : Shape}
    (h : (ofJson path v).Makes s) : s.Formed := by
  cases v with
  | null | bool | float => rw [ofJson] at h; exact Draft.makes_pure h ▸ rfl
  | str text =>
    rw [ofJson] at h
    rw [Draft.makes_pure h, ofText]
    split
    · rfl
    · split <;> rfl
  | int n =>
    rw [ofJson] at h
    have h := Draft.makes_ofExcept h
    rw [ofInt] at h
    split at h
    · cases h; rfl
    · split at h
      · cases h; rfl
      · obtain ⟨unit, -, h⟩ := Except.bind_eq_ok.mp h
        cases h
        exact ((Formed.adding (s := i64.copy) rfl _).adding _).adding _
  | arr xs =>
    cases xs with
    | nil => rw [ofJson] at h; exact Draft.makes_pure h ▸ rfl
    | cons x xs =>
      rw [ofJson] at h
      obtain ⟨e, -, h⟩ := Draft.makes_bind h
      exact Draft.makes_pure h ▸ rfl
  | obj ms =>
    rw [ofJson] at h
    obtain ⟨fields, -, h⟩ := Draft.makes_bind h
    obtain ⟨n, -, h⟩ := Draft.makes_bind h
    exact Draft.makes_pure h ▸ rfl

/-- The shape that a sample implies, with the sample. -/
def sampled (sample : Json) (s : Shape) : Shape :=
  (s.copy.adding Trait.fromJson.present).adding (Trait.rawValue.entry (.json sample))

/-- Dropping the sample leaves all other fields. -/
theorem get?_withoutSample {sample : Json} {s k : Shape}
    (h : Facts.withoutSample (s.sampled sample) = .ok k) {key : String}
    (hraw : key ≠ Trait.rawValue.key) (hjson : key ≠ Trait.fromJson.key) :
    k.get? key = s.get? key := by
  obtain ⟨s₁, hs₁, hk⟩ := Except.bind_eq_ok.mp h
  obtain ⟨r₁, h₁, he₁⟩ := Except.bind_eq_ok.mp hs₁
  obtain ⟨r₂, h₂, he₂⟩ := Except.bind_eq_ok.mp hk
  cases he₁
  cases he₂
  calc r₂.get? key = r₁.get? key := Record.get?_remove h₂ hjson
    _ = (s.sampled sample).copy.get? key := Record.get?_remove h₁ hraw
    _ = (s.copy.adding Trait.fromJson.present).get? key := Record.get?_set_of_ne hraw _ _
    _ = s.copy.get? key := Record.get?_set_of_ne hjson _ _

end Shape

/-! ### Equal literals -/

/-- A literal of a value is made from a supply of numbers, and its rule says that it has a shape. -/
structure Known.Literal (text : String) (v : Json) (supply : Supply) (n : Node) (k : Shape) :
    Prop where
  made : ((Node.literal text v).outcome supply).1 = .ok n
  facts : ∀ env scope, Rule.literal.facts env scope n =
    .ok { known := [((env.site n scope).path, k)] }

theorem Rule.literal_says {n : Node} {s k : Shape} (hs : n.shape? Attr.inferredType = some s)
    (hk : Facts.withoutSample s = .ok k) (env : Scopes) (scope : Scope) :
    Rule.literal.facts env scope n = .ok { known := [((env.site n scope).path, k.freeze)] } := by
  simp only [Rule.literal, hs, Facts.know, hk]
  rfl

/-- A value that implies a shape has a literal, of which the rule speaks. -/
theorem Known.exists_literal {v : Json} {supply supply' : Supply} {s : Shape}
    (h : (Shape.ofJson "" v).outcome supply = (.ok s, supply')) (text : String) :
    ∃ n k, Known.Literal text v supply n k.freeze ∧ Facts.withoutSample (s.sampled v) = .ok k := by
  have hformed : s.Formed := Shape.formed_of_makes_ofJson ⟨supply, congrArg Prod.fst h⟩
  obtain ⟨k, hk⟩ := Rule.withoutSample_of_formed (s := s.sampled v)
    ((Shape.Formed.adding (s := s.copy) hformed _).adding _)
  have hsample : (Shape.ofSample v "").outcome supply = (.ok (s.sampled v), supply') :=
    Draft.outcome_bind_ok h
  have hmade : ((Node.literal text v).outcome supply).1 =
      .ok ((NodeForm.literal text v (s.sampled v)).node supply'.nodes) :=
    congrArg Prod.fst (Draft.outcome_bind_ok hsample)
  exact ⟨_, k, ⟨hmade, Rule.literal_says rfl hk⟩, hk⟩

namespace Shape

theorem makes_sampled {v : Json} {s : Shape} (h : (ofJson "" v).Makes s) :
    (ofSample v "").Makes (s.sampled v) := by
  obtain ⟨supply, h⟩ := h
  exact ⟨supply, congrArg Prod.fst (Draft.outcome_bind_ok (Prod.ext h rfl))⟩

/-- What is known of twins is the same exactly if they carry no number or the same one. -/
theorem Twins.same_iff {v : Json} {S₁ S₂ : Supply} {s₁ s₂ k₁ k₂ : Shape}
    (h : Twins v S₁ S₂ s₁ s₂) (h₁ : (ofJson "" v).Makes s₁) (h₂ : (ofJson "" v).Makes s₂)
    (hk₁ : Facts.withoutSample (s₁.sampled v) = .ok k₁)
    (hk₂ : Facts.withoutSample (s₂.sampled v) = .ok k₂) :
    k₁.same k₂ = true ↔ S₁.shapes = S₂.shapes ∨ v.objectDepth? = none := by
  have hp₁ := Inference.proper_withoutSample (makes_sampled h₁) hk₁
  have hp₂ := Inference.proper_withoutSample (makes_sampled h₂) hk₂
  refine ⟨fun hsame => ?_, fun heq => ?_⟩
  · cases hd : v.objectDepth? with
    | none => exact .inr rfl
    | some d =>
      obtain ⟨n, hn₁, hn₂⟩ := h.numbered d hd
      have reads : ∀ {s k : Shape}, Facts.withoutSample (s.sampled v) = .ok k → ∀ m,
          Numbered m d s → Numbered m d k := fun hk m hm =>
        hm.of_reads (get?_withoutSample hk (by decide) (by decide))
          (get?_withoutSample hk (by decide) (by decide))
      have := (reads hk₁ _ hn₁).eq_of_same (reads hk₂ _ hn₂) hp₁ hp₂ hsame
      exact .inl (by omega)
  · obtain rfl := h.eq heq
    obtain rfl := Except.ok.inj (hk₁.symm.trans hk₂)
    exact same_refl hp₁

end Shape

/-- How the shapes that are known of two literals of a value compare. -/
structure Known.Literals (v : Json) (S₁ S₂ : Supply) (k₁ k₂ : Shape) : Prop where
  /-- They are the same exactly if as many structs had been numbered before both literals, or the
  first elements of the value lead to no object. -/
  same_iff : k₁.same k₂ = true ↔ S₁.shapes = S₂.shapes ∨ v.objectDepth? = none
  /-- Paths that must have one shape and have these two agree or conflict accordingly. -/
  unifyEqual : ∀ (left right : String) (known : Known), known.lookup left = some k₁ →
    known.lookup right = some k₂ → Relation.unifyEqual left right known =
      if S₁.shapes = S₂.shapes ∨ v.objectDepth? = none then .ok (true, known)
      else .error (.conflict left k₁.text right k₂.text)

/-- Literals of a value that a shape can be found for are made from any two supplies of numbers, and
what is known of them is the same exactly if neither carries a number of its own. -/
theorem literals_agree_iff {v : Json} {t : Shape} (h : (Shape.ofSample v "").Makes t)
    (text₁ text₂ : String) (S₁ S₂ : Supply) :
    ∃ n₁ n₂ k₁ k₂, Known.Literal text₁ v S₁ n₁ k₁ ∧ Known.Literal text₂ v S₂ n₂ k₂ ∧
      Known.Literals v S₁ S₂ k₁ k₂ := by
  obtain ⟨s, ⟨S, hs⟩, -⟩ := Draft.makes_bind h
  -- a shape that is found from one supply is found from any
  have hok : ∃ s₁ S₁', (Shape.ofJson "" v).outcome S₁ = (.ok s₁, S₁') := by
    cases Shape.twice_ofJson "" v S S₁ with
    | fails e _ _ he => rw [he] at hs; cases hs
    | makes _ s₁ n _ h₁ => exact ⟨s₁, _, h₁⟩
  obtain ⟨s₁, S₁', hs₁⟩ := hok
  cases Shape.twice_ofJson "" v S₁ S₂ with
  | fails e _ _ he => rw [he] at hs₁; cases hs₁
  | makes s₁ s₂ n h₁ h₂ htwins =>
    obtain ⟨n₁, k₁, hn₁, hk₁⟩ := Known.exists_literal h₁ text₁
    obtain ⟨n₂, k₂, hn₂, hk₂⟩ := Known.exists_literal h₂ text₂
    have hsame := htwins.same_iff ⟨S₁, congrArg Prod.fst h₁⟩ ⟨S₂, congrArg Prod.fst h₂⟩ hk₁ hk₂
    have hsame' : k₁.freeze.same k₂.freeze = true ↔
        S₁.shapes = S₂.shapes ∨ v.objectDepth? = none := by
      rw [Shape.freeze_same, Shape.same_freeze, hsame]
    refine ⟨n₁, n₂, _, _, hn₁, hn₂, hsame', fun left right known hl hr => ?_⟩
    simp only [Relation.unifyEqual, hl, hr, hsame']

deriving instance DecidableEq for Error, Report

/-- A variable starts with a value and is assigned the same value. -/
def assignTwice (text : String) (v : Json) : Draft Node := do
  let first ← Node.literal text v
  let declared ← Node.declaration "a" (some first)
  let declarations ← Node.declarations [declared]
  let target ← Node.identifier "a"
  let second ← Node.literal text v
  let assigned ← Node.assign target second
  let statement ← Node.statement assigned
  Node.program [declarations, statement]

/-- What inference says of a program that is made from fresh numbers. -/
def reportOf (program : Draft Node) : Except Error Report := do
  let root ← (program.outcome {}).1
  (Inference.infer Rule.standard root).2

/-- Two literals of an empty object conflict, and so does a program that has them. -/
theorem literals_of_empty_object_conflict :
    (∃ n₁ n₂ k₁ k₂, Known.Literal "\x7b\x7d" (.obj []) ⟨0, 0⟩ n₁ k₁ ∧
      Known.Literal "\x7b\x7d" (.obj []) ⟨1, 0⟩ n₂ k₂ ∧ k₁.same k₂ = false) ∧
    reportOf (assignTwice "\x7b\x7d" (.obj [])) =
      .error (.conflict "a" "struct_0" "literal@4" "struct_1") := by
  obtain ⟨n₁, k₁, h₁, hk₁⟩ := Known.exists_literal
    (show (Shape.ofJson "" (.obj [])).outcome ⟨0, 0⟩ = _ from rfl) "\x7b\x7d"
  obtain ⟨n₂, k₂, h₂, hk₂⟩ := Known.exists_literal
    (show (Shape.ofJson "" (.obj [])).outcome ⟨1, 0⟩ = _ from rfl) "\x7b\x7d"
  refine ⟨⟨n₁, n₂, _, _, h₁, h₂, ?_⟩, by decide +kernel⟩
  cases hk₁
  cases hk₂
  decide +kernel

/-- Only the first item of an array counts: with an object there, two literals differ, and with a
number there they are the same. -/
theorem literals_of_arrays :
    (∃ n₁ n₂ k₁ k₂, Known.Literal "[\x7b\x7d, 1]" (.arr [.obj [], .int 1]) ⟨0, 0⟩ n₁ k₁ ∧
      Known.Literal "[\x7b\x7d, 1]" (.arr [.obj [], .int 1]) ⟨1, 0⟩ n₂ k₂ ∧ k₁.same k₂ = false) ∧
    ∃ n₁ n₂ k₁ k₂, Known.Literal "[1, \x7b\x7d]" (.arr [.int 1, .obj []]) ⟨0, 0⟩ n₁ k₁ ∧
      Known.Literal "[1, \x7b\x7d]" (.arr [.int 1, .obj []]) ⟨1, 0⟩ n₂ k₂ ∧ k₁.same k₂ = true := by
  constructor
  · obtain ⟨n₁, n₂, k₁, k₂, h₁, h₂, h⟩ := literals_agree_iff (v := .arr [.obj [], .int 1])
      ⟨{}, rfl⟩ "[\x7b\x7d, 1]" "[\x7b\x7d, 1]" ⟨0, 0⟩ ⟨1, 0⟩
    refine ⟨n₁, n₂, k₁, k₂, h₁, h₂, ?_⟩
    rw [← Bool.not_eq_true, h.same_iff]
    decide
  · obtain ⟨n₁, n₂, k₁, k₂, h₁, h₂, h⟩ := literals_agree_iff (v := .arr [.int 1, .obj []])
      ⟨{}, rfl⟩ "[1, \x7b\x7d]" "[1, \x7b\x7d]" ⟨0, 0⟩ ⟨1, 0⟩
    exact ⟨n₁, n₂, k₁, k₂, h₁, h₂, h.same_iff.mpr (.inr rfl)⟩

end TypeSketch
