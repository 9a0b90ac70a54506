import TypeSketch.Record.Edit
import TypeSketch.Shape.Trait

/-!
# Shapes

A shape describes data. It is a record with two declared fields, a name and a kind; everything else
about it is a trait. Shapes nest through their traits, and a nested shape is less deep than the one
around it.
-/

namespace TypeSketch

/-- A description of data. -/
structure Shape extends Record Value
deriving Inhabited

/-- The shape as a value. -/
def Shape.toValue (s : Shape) : Value := .shape s.toRecord

/-- The shape that a value is. -/
def Value.asShape? : Value → Option Shape
  | .shape r => some ⟨r⟩
  | _ => none

namespace Record

/-- The shape under a field. -/
def shape? (r : Record Value) (f : Field) : Option Shape := (r.field? f).bind Value.asShape?

/-- The shapes among the items of a list field. -/
def shapes (r : Record Value) (f : Field) : List Shape := (r.items f).filterMap Value.asShape?

end Record

namespace Shape

/-- How deep records are nested in a shape. -/
def depth (s : Shape) : Nat := Value.recordDepth s.toRecord

/-- Two shapes are the same. -/
def same (s t : Shape) : Bool := Value.sameRecord s.toRecord t.toRecord

/-- A shape with a name and a kind only. -/
def ofNameKind (name kind : String) : Shape :=
  ⟨{ declared := [(Trait.name.key, .str name), (Trait.kind.key, .str kind)] }⟩

/-- A shape of no kind. -/
def named (name : String) : Shape := ofNameKind name ""

/-- The shape with an entry of a field that takes its value. -/
def adding (s : Shape) (e : Entry) : Shape := ⟨s.toRecord.set e.key e.stored⟩

/-- The shape with an entry put into it. -/
def put (s : Shape) (e : Entry) : Except Error Shape := return ⟨← s.toRecord.put e⟩

/-- A name and one defining entry, whose key becomes the kind. -/
def ofEntry (name : String) (e : Entry) : Except Error Shape := (ofNameKind name e.key).put e

/-- A name and one defining mark, whose key becomes the kind. -/
def ofMark (name : String) (f : Field) : Shape := (ofNameKind name f.key).adding f.present

/-- A frozen shape like `s`. -/
def freeze (s : Shape) : Shape := ⟨s.toRecord.freeze⟩

/-- A shape like `s` that is not frozen. -/
def copy (s : Shape) : Shape := ⟨s.toRecord.copy⟩

def append (s : Shape) (e : Entry) : Except Error Shape := return ⟨← s.toRecord.append e⟩

def replace (s : Shape) (e : Entry) : Except Error Shape := return ⟨← s.toRecord.replace e⟩

def remove (s : Shape) (f : Field) : Except Error Shape := return ⟨← s.toRecord.remove f⟩

/-- The name of a shape. -/
def name (s : Shape) : String := (s.str? Trait.name).getD ""

/-- The kind of a shape. -/
def kind (s : Shape) : String := (s.str? Trait.kind).getD ""

/-- The name of the field that a field entry is for. -/
def fieldName? (s : Shape) : Option String := s.str? Trait.fieldName

/-- The shape of the field that a field entry is for. -/
def fieldType? (s : Shape) : Option Shape := s.shape? Trait.fieldType

/-- The field entries of a struct. -/
def fields (s : Shape) : List Shape := s.shapes Trait.fields

/-- The variants of an enum. -/
def variants (s : Shape) : List Shape := s.shapes Trait.variants

/-- The shapes a composite shape is made of. -/
def generics (s : Shape) : List Shape := s.shapes Trait.generics

/-- The name that data goes by under a field entry. -/
def label (s : Shape) : String := s.fieldName?.getD s.name

/-- The shape of the data under a field entry; a shape that is no field entry stands for itself. -/
def content (s : Shape) : Shape := s.fieldType?.getD s

/-! ### Nested shapes are less deep -/

/-- A shape in the list of a field is less deep. -/
theorem depth_lt_of_mem_shapes {s t : Shape} {f : Field} (hf : f.absent? = some (.list []))
    (h : t ∈ s.toRecord.shapes f) : t.depth < s.depth := by
  unfold Record.shapes Record.items Record.field? at h
  rw [List.mem_filterMap] at h
  obtain ⟨v, hv, ht⟩ := h
  cases hg : s.get? f.key with
  | none => simp [hg, hf, Value.asList?] at hv
  | some w =>
    rw [hg] at hv
    cases w <;> simp [Value.asList?] at hv
    next xs =>
      have h1 := Value.depth_le_recordDepth hg
      have h2 := Value.depth_le_itemsDepth hv
      cases v <;> simp [Value.asShape?] at ht
      next r =>
        subst ht
        simp only [Value.depth] at h1 h2
        exact Nat.lt_of_lt_of_le (Nat.lt_succ_self _) (Nat.le_trans h2 h1)

/-- A shape under a field is less deep. -/
theorem depth_lt_of_shape? {s t : Shape} {f : Field} (hf : f.absent? = none)
    (h : s.toRecord.shape? f = some t) : t.depth < s.depth := by
  unfold Record.shape? Record.field? at h
  cases hg : s.get? f.key with
  | none => simp [hg, hf] at h
  | some w =>
    rw [hg] at h
    have h1 := Value.depth_le_recordDepth hg
    cases w <;> simp [Value.asShape?] at h
    next r =>
      subst h
      simp only [Value.depth] at h1
      exact Nat.lt_of_lt_of_le (Nat.lt_succ_self _) h1

theorem depth_lt_of_mem_fields {s t : Shape} (h : t ∈ s.fields) : t.depth < s.depth :=
  depth_lt_of_mem_shapes rfl h

theorem depth_lt_of_mem_generics {s t : Shape} (h : t ∈ s.generics) : t.depth < s.depth :=
  depth_lt_of_mem_shapes rfl h

theorem depth_lt_of_fieldType? {s t : Shape} (h : s.fieldType? = some t) : t.depth < s.depth :=
  depth_lt_of_shape? rfl h

theorem depth_content_le (s : Shape) : s.content.depth ≤ s.depth := by
  unfold content
  cases h : s.fieldType? with
  | none => exact Nat.le_refl _
  | some t => exact Nat.le_of_lt (depth_lt_of_fieldType? h)

end Shape

end TypeSketch
