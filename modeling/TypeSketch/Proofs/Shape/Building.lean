import TypeSketch.Proofs.Draft
import TypeSketch.Proofs.Record.Writing
import TypeSketch.Proofs.Shape.Sameness
import TypeSketch.Shape.Sample

/-!
# Shapes — building proper ones

Writing a value under a key keeps a record proper (`Record.Proper.set`), so every shape that is
built by writing entries is proper: the canonical shapes, and the shapes that samples imply
(`proper_of_makes_ofJson`).  A sample itself may be no proper JSON value; it is dropped together
with the mark of where a shape came from.

The lemmas follow the order in which a shape is built: one entry, the canonical shapes, the
composite ones, and at last a sample, where a value and the members of an object go by one induction
(`proper_of_makes_ofJson`, `proper_of_makes_ofMembers`).
-/

namespace TypeSketch

namespace Shape

theorem Proper.adding {s : Shape} (hs : s.Proper) {e : Entry} (he : e.value.Proper) :
    (s.adding e).Proper :=
  Record.Proper.set hs (Entry.proper_stored he)

theorem proper_ofNameKind (name kind : String) : (ofNameKind name kind).Proper := by
  refine ⟨by simp [ofNameKind, Record.keys, Record.entries, Trait.name, Trait.kind, Field.str], ?_⟩
  intro e he
  simp only [ofNameKind, Record.entries, List.append_nil, List.mem_cons, List.not_mem_nil,
    or_false] at he
  rcases he with rfl | rfl
  · exact .str name
  · exact .str kind

theorem proper_ofMark (name key : String) : (ofMark name (.flag key)).Proper :=
  (proper_ofNameKind name _).adding (.bool true)

theorem proper_integer (name : String) (bits : Int) (signed : Bool) :
    (integer name bits signed).Proper :=
  (((proper_ofMark name _).adding (.bool true)).adding (.int bits)).adding (.bool signed)

theorem proper_floating (name : String) (bits : Int) : (floating name bits).Proper :=
  (((proper_ofMark name _).adding (.bool true)).adding (.int bits)).adding (.bool true)

theorem proper_bool : bool.Proper := proper_freeze.mpr (proper_ofMark _ _)
theorem proper_i64 : i64.Proper := proper_freeze.mpr (proper_integer _ _ _)
theorem proper_u64 : u64.Proper := proper_freeze.mpr (proper_integer _ _ _)
theorem proper_f64 : f64.Proper := proper_freeze.mpr (proper_floating _ _)
theorem proper_string : string.Proper := proper_freeze.mpr (proper_ofMark _ _)
theorem proper_allValue : allValue.Proper := proper_freeze.mpr (proper_ofMark _ _)
theorem proper_nothing : nothing.Proper :=
  proper_freeze.mpr ((proper_ofMark _ _).adding (.bool true))

theorem proper_listOf {shapes : List Shape} (h : ∀ s ∈ shapes, s.Proper) :
    (listOf shapes).Proper := by
  refine .list fun x hx => ?_
  obtain ⟨s, hs, rfl⟩ := List.mem_map.mp hx
  exact (h s hs).toValue

theorem proper_object : object.Proper :=
  proper_freeze.mpr (((proper_ofMark _ _).adding (.bool true)).adding
    (@proper_listOf [string, allValue]
      (by simp [proper_string, proper_allValue])))

theorem proper_vector {e : Shape} (he : e.Proper) : (vector e).Proper :=
  (proper_ofMark _ _).adding (proper_listOf (by simpa using he))

theorem proper_field (name : String) {s : Shape} (hs : s.Proper) : (field name s).Proper :=
  ((proper_ofNameKind name _).adding (.str name)).adding hs.toValue

theorem proper_struct (name : String) {fields : List Shape} (h : ∀ f ∈ fields, f.Proper) :
    (struct name fields).Proper :=
  ((proper_ofMark name _).adding (proper_listOf h)).adding (.bool true)

/-- A struct is open, and its keys are distinct. -/
theorem isOpen_struct (name : String) (fields : List Shape) :
    (struct name fields).frozen = false ∧ (struct name fields).keys.Nodup :=
  ⟨(Record.frozen_set ..).trans ((Record.frozen_set ..).trans (Record.frozen_set ..)),
    Record.nodup_keys_set (Record.nodup_keys_set (proper_ofMark name _).keys_nodup ..) ..⟩

/-! ### Samples -/

theorem proper_stringWrapped {s : Shape} (hs : s.Proper) : s.stringWrapped.Proper :=
  (proper_copy.mpr hs).adding (.bool true)

theorem proper_ofText (text : String) : (ofText text).Proper := by
  rw [ofText]
  split
  · exact proper_stringWrapped proper_f64
  · split
    · exact proper_stringWrapped proper_i64
    · exact proper_string

/-- A whole number implies a proper shape. -/
theorem proper_of_ofInt {n : Int} {path : String} {s : Shape} (h : ofInt n path = .ok s) :
    s.Proper := by
  rw [ofInt] at h
  split at h
  · cases h; exact proper_u64
  · split at h
    · cases h; exact proper_i64
    · obtain ⟨unit, -, h⟩ := Except.bind_eq_ok.mp h
      cases h
      exact (((proper_copy.mpr proper_i64).adding (.str unit)).adding (.str _)).adding
        (.json (.int n))

theorem proper_nameElements {path : String} {s : Shape} (hs : s.Proper) :
    (nameElements path s).Proper := by
  refine hs.adding (proper_listOf fun t ht => ?_)
  obtain ⟨g, hg, rfl⟩ := List.mem_map.mp ht
  split
  · exact (proper_copy.mpr (hs.generics hg)).adding (.str _)
  · exact hs.generics hg

/-- Naming a shape after its path keeps it proper. -/
theorem proper_nameAfter {path : String} {s : Shape} (hs : s.Proper) :
    (nameAfter path s).Proper := by
  have helem : ∀ t : Shape, t.Proper →
      (if t.flag Trait.vector then nameElements path t else t).Proper := fun t ht => by
    split
    · exact proper_nameElements ht
    · exact ht
  unfold nameAfter
  split
  · exact helem _ (hs.adding (.str path))
  · exact helem _ hs

mutual

/-- A value implies a proper shape. -/
theorem proper_of_makes_ofJson {path : String} :
    ∀ {j : Json} {s : Shape}, (ofJson path j).Makes s → s.Proper
  | .null, s, h => by rw [ofJson] at h; exact Draft.makes_pure h ▸ proper_nothing
  | .bool _, s, h => by rw [ofJson] at h; exact Draft.makes_pure h ▸ proper_bool
  | .str t, s, h => by rw [ofJson] at h; exact Draft.makes_pure h ▸ proper_ofText t
  | .int n, s, h => by rw [ofJson] at h; exact proper_of_ofInt (Draft.makes_ofExcept h)
  | .float _, s, h => by rw [ofJson] at h; exact Draft.makes_pure h ▸ proper_f64
  | .arr [], s, h => by
      rw [ofJson] at h
      exact Draft.makes_pure h ▸ proper_vector proper_allValue
  | .arr (x :: xs), s, h => by
      rw [ofJson] at h
      obtain ⟨e, he, h⟩ := Draft.makes_bind h
      exact Draft.makes_pure h ▸ proper_vector (proper_of_makes_ofJson he)
  | .obj ms, s, h => by
      rw [ofJson] at h
      obtain ⟨fields, hf, h⟩ := Draft.makes_bind h
      obtain ⟨n, -, h⟩ := Draft.makes_bind h
      exact Draft.makes_pure h ▸ proper_struct _ (proper_of_makes_ofMembers hf)

/-- Members imply proper field entries. -/
theorem proper_of_makes_ofMembers {path : String} :
    ∀ {ms : List (String × Json)} {fields : List Shape}, (ofMembers path ms).Makes fields →
      ∀ f ∈ fields, f.Proper
  | [], fields, h => by
      rw [ofMembers] at h
      exact Draft.makes_pure h ▸ by simp
  | (name, v) :: rest, fields, h => by
      rw [ofMembers] at h
      obtain ⟨s, hs, h⟩ := Draft.makes_bind h
      obtain ⟨others, ho, h⟩ := Draft.makes_bind h
      rw [Draft.makes_pure h]
      intro f hf
      rcases List.mem_cons.mp hf with rfl | hf
      · exact proper_field name (proper_nameAfter (proper_of_makes_ofJson hs))
      · exact proper_of_makes_ofMembers ho f hf

end

end Shape

end TypeSketch
