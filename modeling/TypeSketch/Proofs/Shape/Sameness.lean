import TypeSketch.Proofs.Record.Sameness
import TypeSketch.Shape.Basic

/-!
# Shapes — sameness

`Shape.same` is an equivalence on proper shapes, and does not look at whether a shape is frozen.
Shapes that are the same read the same: `flag_eq_of_same`, `forall₂_generics_of_same`.

The laws are those of values (`same_iff_toValue`). What is used of sameness later is what it says of
the reading of a shape: its marks and texts are equal, and the shapes in it are the same one by one
(`field?_rel_of_same`, `items_forall₂_of_same`). The last part goes down into a proper shape:
everything that it holds is proper as well (`Proper.generics`, `Proper.fields`, `Proper.content`).
-/

namespace TypeSketch.Shape

/-- No record in a shape holds two values under one key. -/
def Proper (s : Shape) : Prop := s.toRecord.Proper

theorem Proper.toValue {s : Shape} (hs : s.Proper) : s.toValue.Proper :=
  Value.proper_shape_iff.mpr hs

@[simp] theorem proper_freeze {s : Shape} : s.freeze.Proper ↔ s.Proper := ⟨fun h => ⟨h.1, h.2⟩,
  fun h => ⟨h.1, h.2⟩⟩

@[simp] theorem proper_copy {s : Shape} : s.copy.Proper ↔ s.Proper := ⟨fun h => ⟨h.1, h.2⟩,
  fun h => ⟨h.1, h.2⟩⟩

theorem same_iff_toValue {s t : Shape} : s.same t = true ↔ s.toValue.same t.toValue = true := by
  rw [toValue, toValue, Value.same, same]

theorem same_refl {s : Shape} (hs : s.Proper) : s.same s = true :=
  same_iff_toValue.mpr (Value.same_refl hs.toValue)

theorem same_symm {s t : Shape} (hs : s.Proper) (ht : t.Proper) (h : s.same t = true) :
    t.same s = true :=
  same_iff_toValue.mpr (Value.same_symm hs.toValue ht.toValue (same_iff_toValue.mp h))

theorem same_trans {s t u : Shape} (hs : s.Proper) (ht : t.Proper) (hu : u.Proper)
    (h : s.same t = true) (h' : t.same u = true) : s.same u = true :=
  same_iff_toValue.mpr (Value.same_trans hs.toValue ht.toValue hu.toValue
    (same_iff_toValue.mp h) (same_iff_toValue.mp h'))

theorem same_of_common {s t u : Shape} (hs : s.Proper) (ht : t.Proper) (hu : u.Proper)
    (h : s.same u = true) (h' : t.same u = true) : s.same t = true :=
  same_trans hs hu ht h (same_symm ht hu h')

@[simp] theorem freeze_same (s t : Shape) : s.freeze.same t = s.same t := by
  obtain ⟨⟨declared, extra, frozen⟩⟩ := s
  simp only [same, freeze, Record.freeze, Value.sameRecord]

@[simp] theorem same_freeze (s t : Shape) : s.same t.freeze = s.same t := by
  have hentries : ∀ es : List (String × Value),
      Value.sameEntries es t.freeze.toRecord = Value.sameEntries es t.toRecord := fun es => by
    rw [Bool.eq_iff_iff, Value.sameEntries_iff, Value.sameEntries_iff]
    rfl
  obtain ⟨⟨declared, extra, frozen⟩⟩ := s
  simp only [same, Value.sameRecord, hentries]
  rfl

/-! ### Reading shapes that are the same -/

/-- Two shapes that are the same hold values under a field that are the same. -/
theorem field?_rel_of_same {s t : Shape} (hs : s.Proper) (ht : t.Proper) (h : s.same t = true)
    {f : Field} (hf : ∀ v, f.absent? = some v → v.Proper) :
    Option.Rel (fun v w => Value.same v w = true) (s.field? f) (t.field? f) :=
  Record.field?_rel_of_same hs.keys_nodup ht.keys_nodup h hf

/-- Two shapes that are the same carry the same marks. -/
theorem flag_eq_of_same {s t : Shape} (hs : s.Proper) (ht : t.Proper) (h : s.same t = true)
    (key : String) : s.flag (.flag key) = t.flag (.flag key) := by
  have hf : ∀ v, (Field.flag key).absent? = some v → v.Proper := fun v hv => by
    cases hv
    exact .bool false
  have hb : Option.Rel (· = ·) ((s.field? (.flag key)).bind Value.asBool?)
      ((t.field? (.flag key)).bind Value.asBool?) := by
    refine Assoc.rel_bind (field?_rel_of_same hs ht h hf) fun v w hvw => ?_
    cases v <;> cases w <;> simp_all [Value.same, Value.asBool?]
  rw [Record.flag, Record.flag, Assoc.rel_eq_iff.mp hb]

/-- The items of a list under a field are the same one by one. -/
theorem items_forall₂_of_same {s t : Shape} (hs : s.Proper) (ht : t.Proper) (h : s.same t = true)
    {f : Field} (hf : ∀ v, f.absent? = some v → v.Proper) :
    List.Forall₂ (fun v w => Value.same v w = true) (s.items f) (t.items f) := by
  have hb : Option.Rel (List.Forall₂ fun v w => Value.same v w = true)
      ((s.field? f).bind Value.asList?) ((t.field? f).bind Value.asList?) := by
    refine Assoc.rel_bind (field?_rel_of_same hs ht h hf) fun v w hvw => ?_
    cases v <;> cases w <;> simp_all [Value.same, Value.asList?, Value.sameItems_iff]
  unfold Record.items
  cases hl : (s.field? f).bind Value.asList? <;> cases hl' : (t.field? f).bind Value.asList? <;>
    rw [hl, hl'] at hb
  · exact .nil
  · cases hb
  · cases hb
  · cases hb with
    | some hxs => exact hxs

theorem asShape?_rel_of_same {v w : Value} (h : v.same w = true) :
    Option.Rel (fun s t : Shape => s.same t = true) v.asShape? w.asShape? := by
  cases v <;> cases w <;> simp_all [Value.same, Value.asShape?, same]

/-- Shapes that are the same are made of shapes that are the same. -/
theorem forall₂_generics_of_same {s t : Shape} (hs : s.Proper) (ht : t.Proper)
    (h : s.same t = true) :
    List.Forall₂ (fun a b : Shape => a.same b = true) s.generics t.generics := by
  have hitems := items_forall₂_of_same hs ht h (f := Trait.generics) fun v hv => by
    cases hv
    exact .list (by simp)
  exact List.rel_filterMap (fun v w hvw => asShape?_rel_of_same hvw) hitems

/-! ### Parts of proper shapes -/

/-- What a proper shape holds under a field is proper, if it is so where the field is absent. -/
theorem Proper.field? {s : Shape} (hs : s.Proper) {f : Field}
    (hf : ∀ v, f.absent? = some v → v.Proper) {v : Value} (h : s.field? f = some v) : v.Proper := by
  rw [Record.field?, Option.or_eq_some_iff] at h
  rcases h with h | ⟨-, h⟩
  · exact Record.Proper.get? hs h
  · exact hf v h

theorem proper_of_asShape? {v : Value} {t : Shape} (hv : v.Proper) (h : v.asShape? = some t) :
    t.Proper := by
  cases hv with
  | shape hk hvalues => cases h; exact ⟨hk, hvalues⟩
  | _ => cases h

/-- The shapes in a list are proper. -/
theorem Proper.of_mem_shapes {s t : Shape} (hs : s.Proper) {f : Field}
    (hf : ∀ v, f.absent? = some v → v.Proper) (h : t ∈ s.shapes f) : t.Proper := by
  obtain ⟨v, hv, ht⟩ := List.mem_filterMap.mp h
  rw [Record.items] at hv
  cases hfield : s.field? f with
  | none =>
    rw [hfield] at hv
    cases hv
  | some w =>
    rw [hfield] at hv
    cases hs.field? hf hfield with
    | list hxs => exact proper_of_asShape? (hxs v hv) ht
    | _ => cases hv

/-- The fields that hold lists of shapes hold none if they are absent. -/
theorem proper_absent_list : ∀ f ∈ [Trait.fields, Trait.generics], ∀ v, f.absent? = some v →
    v.Proper := by
  simp only [List.forall_mem_cons, List.not_mem_nil, false_imp_iff, implies_true, and_true]
  constructor
  all_goals
    rintro v ⟨⟩
    exact .list nofun

/-- A shape is made of proper shapes if it is proper. -/
theorem Proper.generics {s e : Shape} (hs : s.Proper) (h : e ∈ s.generics) : e.Proper :=
  hs.of_mem_shapes (proper_absent_list _ (by simp)) h

theorem Proper.fields {s f : Shape} (hs : s.Proper) (h : f ∈ s.fields) : f.Proper :=
  hs.of_mem_shapes (proper_absent_list _ (by simp)) h

theorem Proper.fieldType? {f s : Shape} (hf : f.Proper) (h : f.fieldType? = some s) : s.Proper := by
  obtain ⟨v, hv, hs⟩ := Option.bind_eq_some_iff.mp h
  have habsent : Trait.fieldType.absent? = none := rfl
  exact proper_of_asShape? (hf.field? (by simp [habsent]) hv) hs

theorem Proper.content {f : Shape} (hf : f.Proper) : f.content.Proper := by
  rw [Shape.content]
  cases h : f.fieldType? with
  | none => exact hf
  | some s => exact hf.fieldType? h

end TypeSketch.Shape
