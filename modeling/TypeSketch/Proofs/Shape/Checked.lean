import TypeSketch.Proofs.Record.Writing
import TypeSketch.Proofs.Shape.Sampled
import TypeSketch.Shape.Checked

/-!
# Shapes of samples — changes that come off

No change on the way to the shape of a sample fails: the shapes that are changed are open copies or
were made open, the values are of the kinds of their keys, and what is appended to is absent.  So
the checked changes make what the unchecked ones write (`Checked.ofSample_eq`).
-/

namespace TypeSketch.Shape

variable {s : Shape} {e : Entry}

/-! ### Single changes -/

theorem append_of_absent (hopen : s.frozen = false) (hadmits : e.kind.admits e.value = true)
    (habsent : s.get? e.key = none) : s.append e = .ok (s.adding e) := by
  rw [append, Record.append_of_absent hopen hadmits habsent]
  rfl

theorem replace_of_open (hopen : s.frozen = false) (hadmits : e.kind.admits e.value = true) :
    s.replace e = .ok (s.adding e) := by
  rw [replace, Record.replace_of_open hopen hadmits]
  rfl

theorem put_of_open (hopen : s.frozen = false) (hadmits : e.kind.admits e.value = true) :
    s.put e = .ok (s.adding e) := by
  rw [put, Record.put_of_open hopen hadmits]
  rfl

namespace Checked

variable {v : Json} {notes : List (List String)}

/-! ### Names -/

/-- To rename a struct is to write its name into an open copy. -/
theorem rename_eq (name : String) : rename name = fun g =>
    pure (if g.flag Trait.struct then g.copy.adding (Trait.name.entry (.str name)) else g) := by
  funext g
  rw [rename]
  split
  · exact put_of_open rfl rfl
  · rfl

theorem nameElements_eq (hopen : s.frozen = false) (path : String) :
    nameElements path s = .ok (Shape.nameElements path s) := by
  simp only [nameElements, rename_eq, List.mapM_pure]
  exact replace_of_open hopen rfl

/-- An open struct is named by a change that comes off. -/
theorem nameStruct_eq (hopen : s.flag Trait.struct = true → s.frozen = false) (path : String) :
    nameStruct path s =
      .ok (if s.flag Trait.struct then s.adding (Trait.name.entry (.str path)) else s) := by
  rw [nameStruct]
  split
  · next hstruct => exact replace_of_open (hopen hstruct) rfl
  · rfl

/-- The shape of a sample is named after its path by changes that come off. -/
theorem nameAfter_eq (h : Sampled v notes s) (path : String) :
    nameAfter path s = .ok (Shape.nameAfter path s) := by
  rw [nameAfter, nameStruct_eq fun hstruct => h.open_of_flag (.inl hstruct), Shape.nameAfter]
  generalize hnamed : (if s.flag Trait.struct then _ else s) = named
  have hsampled : Sampled v notes named := by
    rw [← hnamed]
    split
    · next hstruct => exact h.named hstruct path
    · exact h
  change (if named.flag Trait.vector then nameElements path named else .ok named) = _
  split
  · next hvector => exact nameElements_eq (hsampled.open_of_flag (.inr hvector)) path
  · rfl

/-! ### Values -/

theorem ofInt_eq (n : Int) (path : String) : ofInt n path = Shape.ofInt n path := by
  unfold ofInt Shape.ofInt
  rfl

mutual

theorem ofJson_eq (path : String) : ∀ v : Json, ofJson path v = Shape.ofJson path v
  | .null | .bool _ | .str _ | .float _ | .arr [] => by rw [ofJson, Shape.ofJson]
  | .int n => by rw [ofJson, Shape.ofJson, ofInt_eq]
  | .arr (x :: _) => by rw [ofJson, Shape.ofJson, ofJson_eq path x]
  | .obj members => by rw [ofJson, Shape.ofJson, ofMembers_eq path members]

/-- The changes on the way to the field entries of members come off. -/
theorem ofMembers_eq (path : String) :
    ∀ members : List (String × Json), ofMembers path members = Shape.ofMembers path members
  | [] => by rw [ofMembers, Shape.ofMembers]
  | (name, v) :: rest => by
    rw [ofMembers, Shape.ofMembers, ofMembers_eq path rest, ofJson_eq _ v]
    refine Draft.bind_congr fun s hs => ?_
    rw [nameAfter_eq (sampled_of_makes_ofJson hs)]
    rfl

end

/-- What a whole number implies says nothing of where it came from. -/
theorem absent_fromJson_ofInt {n : Int} {path : String} (h : Shape.ofInt n path = .ok s) :
    s.get? Trait.fromJson.key = none := by
  rw [Shape.ofInt] at h
  split at h
  · cases h
    rfl
  · split at h
    · cases h
      rfl
    · obtain ⟨unit, -, h⟩ := Except.bind_eq_ok.mp h
      cases h
      rfl

theorem absent_fromJson_ofText (text : String) :
    (ofText text).get? Trait.fromJson.key = none := by
  have hatom := atom_ofText text
  generalize ofText text = t at hatom
  cases hatom <;> rfl

/-- What a value implies says nothing of where it came from. -/
theorem absent_fromJson {path : String} (h : (Shape.ofJson path v).Makes s) :
    s.get? Trait.fromJson.key = none := by
  cases v with
  | obj members =>
    rw [Shape.ofJson] at h
    obtain ⟨fields, -, h⟩ := Draft.makes_bind h
    obtain ⟨n, -, h⟩ := Draft.makes_bind h
    rw [Draft.makes_pure h]
    rfl
  | arr items =>
    cases items with
    | nil =>
      rw [Shape.ofJson] at h
      rw [Draft.makes_pure h]
      rfl
    | cons x xs =>
      rw [Shape.ofJson] at h
      obtain ⟨e, -, h⟩ := Draft.makes_bind h
      rw [Draft.makes_pure h]
      rfl
  | int n =>
    rw [Shape.ofJson] at h
    exact absent_fromJson_ofInt (Draft.makes_ofExcept h)
  | str text =>
    rw [Shape.ofJson] at h
    rw [Draft.makes_pure h]
    exact absent_fromJson_ofText text
  | _ =>
    rw [Shape.ofJson] at h
    rw [Draft.makes_pure h]
    rfl

/-- The changes on the way to the shape of a sample come off. -/
theorem ofSample_eq (sample : Json) (path : String) :
    ofSample sample path = Shape.ofSample sample path := by
  rw [ofSample, Shape.ofSample, ofJson_eq]
  refine Draft.bind_congr fun s hs => ?_
  rw [append_of_absent rfl rfl (absent_fromJson hs)]
  change Draft.ofExcept (replace _ _) = _
  rw [replace_of_open (by rw [frozen_adding]; rfl) rfl]
  rfl

end Checked

end TypeSketch.Shape
