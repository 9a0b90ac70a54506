import TypeSketch.Proofs.Draft
import TypeSketch.Shape.Sample
import TypeSketch.Shape.Walk

/-!
# Shapes of samples — what they look like

`Sampled v notes s` says that `s` is a shape of the sample `v`, whatever its structs are called:
every part of `s` reads like the canonical or composite shape that the part of `v` stands for.
Where a shape came from and the comments on it do not count (`Shape.Reads`), but for the comments on
field entries, which are `notes`, in the order of a walk.

Every shape that a sample implies is one (`sampled_of_makes_ofSample`), and it stays one when it is
renamed, copied or marked (`Sampled.of_reads`).  A walk over it visits a field entry for every
member, in the order of the sample (`entries_of_sampled`).
-/

namespace TypeSketch

/-- The names of the members that a shape of the value has entries for, in the order of a walk. Of
an array the first element counts only. -/
def Json.walkedKeys : Json → List String
  | .obj members => ofMembers members
  | .arr (x :: _) => x.walkedKeys
  | _ => []
where
  /-- The names of members and of those below them. -/
  ofMembers : List (String × Json) → List String
    | [] => []
    | (name, v) :: rest => name :: (v.walkedKeys ++ ofMembers rest)

namespace Shape

/-! ### Reading alike -/

/-- The keys that say where a shape came from, and its comments. -/
def remarks : List String :=
  [Trait.rawValue.key, Trait.fromJson.key, Trait.beforeLineComment.key]

/-- Under every key that is no remark, `s` holds what `t` does. -/
def Reads (s t : Shape) : Prop := ∀ key, key ∉ remarks → s.get? key = t.get? key

variable {s t u : Shape}

theorem Reads.refl (s : Shape) : Reads s s := fun _ _ => rfl

theorem Reads.trans (h : Reads s t) (h' : Reads t u) : Reads s u :=
  fun key hk => (h key hk).trans (h' key hk)

theorem Reads.field? (h : Reads s t) {f : Field} (hf : f.key ∉ remarks) :
    s.field? f = t.field? f := by
  rw [Record.field?, Record.field?, h f.key hf]

theorem Reads.flag (h : Reads s t) {f : Field} (hf : f.key ∉ remarks) : s.flag f = t.flag f := by
  rw [Record.flag, Record.flag, h.field? hf]

theorem Reads.has (h : Reads s t) {f : Field} (hf : f.key ∉ remarks) : s.has f = t.has f := by
  rw [Record.has, Record.has, h f.key hf]

theorem Reads.str? (h : Reads s t) {f : Field} (hf : f.key ∉ remarks) : s.str? f = t.str? f := by
  rw [Record.str?, Record.str?, h.field? hf]

theorem Reads.int? (h : Reads s t) {f : Field} (hf : f.key ∉ remarks) : s.int? f = t.int? f := by
  rw [Record.int?, Record.int?, h.field? hf]

theorem Reads.shapes (h : Reads s t) {f : Field} (hf : f.key ∉ remarks) :
    s.shapes f = t.shapes f := by
  rw [Record.shapes, Record.shapes, Record.items, Record.items, h.field? hf]

theorem Reads.name (h : Reads s t) : s.name = t.name := by
  rw [Shape.name, Shape.name, h.str? (by decide)]

theorem Reads.kind (h : Reads s t) : s.kind = t.kind := by
  rw [Shape.kind, Shape.kind, h.str? (by decide)]

theorem Reads.fields (h : Reads s t) : s.fields = t.fields := h.shapes (by decide)

theorem Reads.generics (h : Reads s t) : s.generics = t.generics := h.shapes (by decide)

theorem Reads.fieldName? (h : Reads s t) : s.fieldName? = t.fieldName? := h.str? (by decide)

theorem Reads.fieldType? (h : Reads s t) : s.fieldType? = t.fieldType? := by
  rw [Shape.fieldType?, Shape.fieldType?, Record.shape?, Record.shape?, h.field? (by decide)]

theorem Reads.label (h : Reads s t) : s.label = t.label := by
  rw [Shape.label, Shape.label, h.fieldName?, h.name]

/-- Writing one entry into both. -/
theorem Reads.adding (h : Reads s t) (e : Entry) : Reads (s.adding e) (t.adding e) := by
  intro key hk
  rw [Shape.adding, Shape.adding]
  by_cases heq : key = e.key
  · rw [heq, Record.get?_set_self, Record.get?_set_self]
  · rw [Record.get?_set_of_ne heq, Record.get?_set_of_ne heq, h key hk]

/-- A remark does not count. -/
theorem reads_adding_remark (s : Shape) {e : Entry} (he : e.key ∈ remarks) : Reads (s.adding e) s :=
  fun key hk => Record.get?_set_of_ne (fun heq : key = e.key => hk (heq ▸ he)) _ _

theorem reads_copy (s : Shape) : Reads s.copy s := fun _ _ => rfl

/-! ### What composite shapes hold -/

theorem shapes_listOf {f : Field} {shapes : List Shape} (h : s.get? f.key = some (listOf shapes)) :
    s.shapes f = shapes := by
  simp only [Record.shapes, Record.items, Record.field?, h, listOf, Option.some_or,
    Option.bind_some, Value.asList?, Option.getD_some, List.filterMap_map]
  exact List.filterMap_some

@[simp] theorem fields_struct (name : String) (fields : List Shape) :
    (struct name fields).fields = fields := shapes_listOf rfl

@[simp] theorem generics_vector (e : Shape) : (vector e).generics = [e] :=
  shapes_listOf rfl

@[simp] theorem fieldName?_field (name : String) (s : Shape) :
    (field name s).fieldName? = some name := rfl

@[simp] theorem fieldType?_field (name : String) (s : Shape) :
    (field name s).fieldType? = some s := rfl

@[simp] theorem label_field (name : String) (s : Shape) : (field name s).label = name := rfl

/-- What a field entry is for. -/
theorem content_of_reads {f : Shape} {name : String} (h : Reads f (field name s)) :
    f.content = s := by
  rw [content, h.fieldType?, fieldType?_field, Option.getD_some]

/-- Naming a struct anew. -/
theorem reads_struct_named (name name' : String) (fields : List Shape) :
    Reads ((struct name fields).adding (Trait.name.entry (.str name'))) (struct name' fields) :=
  fun _ _ => rfl

/-- The element of a vector may be exchanged. -/
theorem reads_vector_of {e : Shape} (hs : Reads s (vector e)) (e' : Shape) :
    Reads (s.adding (Trait.generics.entry (listOf [e']))) (vector e') :=
  (hs.adding _).trans fun _ _ => rfl

/-- The field entries of a struct may be exchanged. -/
theorem reads_struct_of {name : String} {fields : List Shape} (hs : Reads s (struct name fields))
    (fields' : List Shape) :
    Reads (s.adding (Trait.fields.entry (listOf fields'))) (struct name fields') :=
  (hs.adding _).trans fun _ _ => rfl

/-- What a field entry is for may be exchanged. -/
theorem reads_field_of {name : String} {c : Shape} (hs : Reads s (field name c)) (c' : Shape) :
    Reads (s.adding (Trait.fieldType.entry c'.toValue)) (field name c') :=
  (hs.adding _).trans fun _ _ => rfl

/-! ### Shapes of samples -/

/-- The shape of a whole number that is a point in time. -/
def timestamp (unit : String) : Shape :=
  (i64.copy.adding (Trait.tsUnit.entry (.str unit))).adding (Trait.name.entry (.str "timestamp"))

/-- What a value that is neither an array nor an object stands for. -/
inductive Atom : Json → Shape → Prop
  | null : Atom .null nothing
  | bool (b : Bool) : Atom (.bool b) Shape.bool
  | text (s : String) : Atom (.str s) string
  | decimalText (s : String) : Atom (.str s) f64.stringWrapped
  | wholeText (s : String) : Atom (.str s) i64.stringWrapped
  | whole (n : Int) : Atom (.int n) i64
  | large (n : Int) : Atom (.int n) u64
  | timestamp (n : Int) (unit : String) : Atom (.int n) (timestamp unit)
  | float (x : Binary64) : Atom (.float x) f64

/-- Such a shape is a leaf of a walk. -/
theorem Atom.leaf {v : Json} (h : Atom v t) : t.flag Trait.struct = false ∧
    t.flag Trait.vector = false ∧ t.fieldName? = none ∧ t.fieldType? = none ∧ t.generics = [] := by
  cases h <;> exact ⟨rfl, rfl, rfl, rfl, rfl⟩

/-- The comments on a field entry are the texts `note`. -/
def Noted (note : List String) (f : Shape) : Prop :=
  f.get? Trait.beforeLineComment.key = some (.list (note.map .str)) ∨
    f.get? Trait.beforeLineComment.key = none ∧ note = []

mutual

/-- A shape of a sample, and the comments on its field entries. -/
inductive Sampled : Json → List (List String) → Shape → Prop
  | atom {v : Json} {s t : Shape} (hv : Atom v t) (hs : Reads s t) : Sampled v [] s
  | empty {s : Shape} (hs : Reads s (vector allValue)) (hopen : s.frozen = false) :
      Sampled (.arr []) [] s
  | vector {x : Json} {xs : List Json} {notes : List (List String)} {s e : Shape}
      (he : Sampled x notes e) (hs : Reads s (Shape.vector e)) (hopen : s.frozen = false) :
      Sampled (.arr (x :: xs)) notes s
  | struct {members : List (String × Json)} {notes : List (List String)} {s : Shape} {name : String}
      {fields : List Shape} (hf : SampledMembers members notes fields)
      (hs : Reads s (Shape.struct name fields)) (hopen : s.frozen = false) :
      Sampled (.obj members) notes s

/-- The field entries of members, and the comments on them and on those below. -/
inductive SampledMembers : List (String × Json) → List (List String) → List Shape → Prop
  | nil : SampledMembers [] [] []
  | cons {name : String} {v : Json} {members : List (String × Json)} {note : List String}
      {notes notes' : List (List String)} {f s : Shape} {fields : List Shape}
      (hs : Sampled v notes s) (hf : Reads f (field name s)) (hopen : f.frozen = false)
      (hnote : Noted note f) (hfields : SampledMembers members notes' fields) :
      SampledMembers ((name, v) :: members) (note :: (notes ++ notes')) (f :: fields)

end

variable {v : Json} {notes : List (List String)}

/-- A shape that reads like one of a sample is one. -/
theorem Sampled.of_reads (h : Sampled v notes s) (ht : Reads t s) (hopen : t.frozen = false) :
    Sampled v notes t := by
  cases h with
  | atom hv hs => exact .atom hv (ht.trans hs)
  | empty hs => exact .empty (ht.trans hs) hopen
  | vector he hs => exact .vector he (ht.trans hs) hopen
  | struct hf hs => exact .struct hf (ht.trans hs) hopen

/-- A frozen shape of a sample has no field entries below it. -/
theorem Sampled.atom_of_frozen (h : Sampled v notes s) (hfrozen : s.frozen = true) :
    v.walkedKeys = [] ∧ notes = [] := by
  cases h with
  | atom hv hs => cases hv <;> exact ⟨rfl, rfl⟩
  | empty _ hopen | vector _ _ hopen | struct _ _ hopen =>
    rw [hopen] at hfrozen
    cases hfrozen

/-- The structs and vectors of a sample are open. -/
theorem Sampled.open_of_flag (h : Sampled v notes s)
    (hflag : s.flag Trait.struct = true ∨ s.flag Trait.vector = true) : s.frozen = false := by
  cases h with
  | atom hv hs =>
    obtain ⟨hstruct, hvector, -⟩ := hv.leaf
    rw [hs.flag (by decide), hs.flag (by decide), hstruct, hvector] at hflag
    simp at hflag
  | empty _ hopen | vector _ _ hopen | struct _ _ hopen => exact hopen

mutual

/-- There are comments for every name that a walk meets. -/
theorem Sampled.length_notes : ∀ {v : Json} {notes : List (List String)} {s : Shape},
    Sampled v notes s → notes.length = v.walkedKeys.length
  | .null, _, _, h | .bool _, _, _, h | .str _, _, _, h | .int _, _, _, h | .float _, _, _, h => by
      cases h
      rfl
  | .arr [], _, _, h => by
      cases h <;> rfl
  | .arr (x :: xs), _, _, h => by
      cases h with
      | atom hv => cases hv
      | vector he => exact he.length_notes
  | .obj members, _, _, h => by
      cases h with
      | atom hv => cases hv
      | struct hf => exact hf.length_notes

/-- There are comments for every name that a walk over the entries of members meets. -/
theorem SampledMembers.length_notes :
    ∀ {members : List (String × Json)} {notes : List (List String)} {fields : List Shape},
      SampledMembers members notes fields →
        notes.length = (Json.walkedKeys.ofMembers members).length
  | [], _, _, h => by
      cases h
      rfl
  | (name, v) :: rest, _, _, h => by
      cases h with
      | cons hs _ _ _ hfields =>
        rw [Json.walkedKeys.ofMembers, List.length_cons, List.length_cons, List.length_append,
          List.length_append, hs.length_notes, hfields.length_notes]

end

theorem frozen_adding (s : Shape) (e : Entry) : (s.adding e).frozen = s.frozen := by
  rw [adding, Record.set]
  split <;> rfl

/-- A struct takes any name. -/
theorem Sampled.named (h : Sampled v notes s) (hstruct : s.flag Trait.struct = true)
    (name : String) : Sampled v notes (s.adding (Trait.name.entry (.str name))) := by
  cases h with
  | atom hv hs =>
    rw [hs.flag (by decide)] at hstruct
    cases hv <;> cases hstruct
  | empty hs =>
    rw [hs.flag (by decide)] at hstruct
    cases hstruct
  | vector he hs =>
    rw [hs.flag (by decide)] at hstruct
    cases hstruct
  | struct hf hs hopen =>
    exact .struct hf ((hs.adding _).trans (reads_struct_named _ name _))
      ((frozen_adding _ _).trans hopen)

/-- A text stands for the shape that it implies. -/
theorem atom_ofText (text : String) : Atom (.str text) (ofText text) := by
  rw [ofText]
  split
  · exact .decimalText text
  · split
    · exact .wholeText text
    · exact .text text

/-- The shape that a whole number implies is one of it. -/
theorem sampled_of_ofInt {n : Int} {path : String} (h : ofInt n path = .ok s) :
    Sampled (.int n) [] s := by
  rw [ofInt] at h
  split at h
  · cases h
    exact .atom (.large n) (.refl _)
  · split at h
    · cases h
      exact .atom (.whole n) (.refl _)
    · obtain ⟨unit, -, h⟩ := Except.bind_eq_ok.mp h
      cases h
      exact .atom (.timestamp n unit) (reads_adding_remark _ List.mem_cons_self)

/-- Naming the elements of a vector keeps a shape of a sample one. -/
theorem Sampled.nameElements (h : Sampled v notes s) (hvector : s.flag Trait.vector = true)
    (path : String) : Sampled v notes (nameElements path s) := by
  cases h with
  | atom hv hs =>
    rw [hs.flag (by decide)] at hvector
    cases hv <;> cases hvector
  | empty hs hopen =>
    rw [Shape.nameElements, hs.generics, generics_vector]
    exact .empty (reads_vector_of hs allValue) ((frozen_adding _ _).trans hopen)
  | @vector x xs _ _ e he hs hopen =>
    have hrenamed : ∀ name : String, Sampled x notes
        (if e.flag Trait.struct then e.copy.adding (Trait.name.entry (.str name)) else e) := by
      intro name
      split
      · next hstruct => exact (he.of_reads (reads_copy e) rfl).named hstruct name
      · exact he
    rw [Shape.nameElements, hs.generics, generics_vector]
    exact .vector (hrenamed _) (reads_vector_of hs _) ((frozen_adding _ _).trans hopen)
  | struct hf hs =>
    rw [hs.flag (by decide)] at hvector
    cases hvector

/-- Naming a shape of a sample after its path keeps it one. -/
theorem Sampled.nameAfter (h : Sampled v notes s) (path : String) :
    Sampled v notes (nameAfter path s) := by
  have helements : ∀ {t : Shape}, Sampled v notes t →
      Sampled v notes (if t.flag Trait.vector then Shape.nameElements path t else t) := by
    intro t ht
    split
    · next hvector => exact ht.nameElements hvector path
    · exact ht
  unfold Shape.nameAfter
  split
  · next hstruct => exact helements (h.named hstruct path)
  · exact helements h

theorem noted_field (name : String) (s : Shape) : Noted [] (field name s) := .inr ⟨rfl, rfl⟩

mutual

/-- What a value implies is a shape of it, without comments. -/
theorem sampled_of_makes_ofJson {path : String} :
    ∀ {v : Json} {s : Shape}, (ofJson path v).Makes s → Sampled v (v.walkedKeys.map fun _ => []) s
  | .null, s, h => by
      rw [ofJson] at h
      exact Draft.makes_pure h ▸ .atom .null (.refl _)
  | .bool b, s, h => by
      rw [ofJson] at h
      exact Draft.makes_pure h ▸ .atom (.bool b) (.refl _)
  | .str text, s, h => by
      rw [ofJson] at h
      exact Draft.makes_pure h ▸ .atom (atom_ofText text) (.refl _)
  | .int n, s, h => by
      rw [ofJson] at h
      exact sampled_of_ofInt (Draft.makes_ofExcept h)
  | .float x, s, h => by
      rw [ofJson] at h
      exact Draft.makes_pure h ▸ .atom (.float x) (.refl _)
  | .arr [], s, h => by
      rw [ofJson] at h
      exact Draft.makes_pure h ▸ .empty (.refl _) rfl
  | .arr (x :: xs), s, h => by
      rw [ofJson] at h
      obtain ⟨e, he, h⟩ := Draft.makes_bind h
      exact Draft.makes_pure h ▸ .vector (sampled_of_makes_ofJson he) (.refl _) rfl
  | .obj members, s, h => by
      rw [ofJson] at h
      obtain ⟨fields, hf, h⟩ := Draft.makes_bind h
      obtain ⟨n, -, h⟩ := Draft.makes_bind h
      exact Draft.makes_pure h ▸ .struct (sampledMembers_of_makes_ofMembers hf) (.refl _) rfl

/-- The entries that members imply are for them, without comments. -/
theorem sampledMembers_of_makes_ofMembers {path : String} :
    ∀ {members : List (String × Json)} {fields : List Shape},
      (ofMembers path members).Makes fields →
        SampledMembers members ((Json.walkedKeys.ofMembers members).map fun _ => []) fields
  | [], fields, h => by
      rw [ofMembers] at h
      exact Draft.makes_pure h ▸ .nil
  | (name, v) :: rest, fields, h => by
      rw [ofMembers] at h
      obtain ⟨s, hs, h⟩ := Draft.makes_bind h
      obtain ⟨others, ho, h⟩ := Draft.makes_bind h
      rw [Draft.makes_pure h, Json.walkedKeys.ofMembers, List.map_cons, List.map_append]
      exact .cons ((sampled_of_makes_ofJson hs).nameAfter _) (.refl _) rfl (noted_field name _)
        (sampledMembers_of_makes_ofMembers ho)

end

/-- The shape made for a sample is a shape of it, without comments. -/
theorem sampled_of_makes_ofSample {path : String} (h : (ofSample v path).Makes s) :
    Sampled v (v.walkedKeys.map fun _ => []) s := by
  obtain ⟨t, ht, h⟩ := Draft.makes_bind h
  rw [Draft.makes_pure h]
  have hmarked := (reads_adding_remark (t.copy.adding Trait.fromJson.present)
    (e := Trait.rawValue.entry (.json v)) List.mem_cons_self).trans
      (reads_adding_remark t.copy (by decide))
  refine (sampled_of_makes_ofJson ht).of_reads (hmarked.trans (reads_copy t)) ?_
  rw [frozen_adding, frozen_adding]
  rfl

/-! ### Entries and their comments -/

/-- The names of the field entries among what a walk visits, and their comments. -/
def entriesOf (visited : List (Nat × Shape)) : List (String × List String) :=
  visited.filterMap fun (_, t) =>
    t.fieldName?.map fun name => (name, t.strs Trait.beforeLineComment)

/-- The names of the field entries that a walk over `s` visits, and their comments. -/
def entries (s : Shape) : List (String × List String) := entriesOf (s.visits 0)

variable {f : Shape} {name : String}

/-- Of a leaf a walk visits the shape itself only. -/
theorem visits_leaf (hstruct : s.flag Trait.struct = false) (hvector : s.flag Trait.vector = false)
    (htype : s.fieldType? = none) (level : Nat) : s.visits level = [(level, s)] := by
  rw [visits, hstruct, hvector]
  simp only [Bool.false_eq_true, if_false]
  split
  · next t ht =>
    rw [htype] at ht
    cases ht
  · rfl

/-- A field entry is visited, and then the shape that it is for, at the same level. -/
theorem visits_field (hf : Reads f (field name s)) (level : Nat) :
    f.visits level = (level, f) :: s.visits level := by
  rw [visits, hf.flag (by decide), hf.flag (by decide), if_neg nofun, if_neg nofun]
  split
  · next t ht =>
    rw [hf.fieldType?, fieldType?_field] at ht
    cases ht
    rfl
  · next ht =>
    rw [hf.fieldType?, fieldType?_field] at ht
    cases ht

/-- A struct is not visited, but its field entries one level down. -/
theorem visits_struct {fields : List Shape} (hs : Reads s (struct name fields)) (level : Nat) :
    s.visits level = fields.flatMap (visits (level + 1)) := by
  have hstruct : s.flag Trait.struct = true := hs.flag (by decide)
  have hfields : s.fields = fields := hs.fields.trans (fields_struct name fields)
  rw [visits, if_pos hstruct]
  simp only [List.flatMap_subtype, List.unattach_attach, hfields]

/-- A vector is not visited, but its element one level down. -/
theorem visits_vector (hs : Reads s (vector t)) (level : Nat) :
    s.visits level = t.visits (level + 1) := by
  have hgenerics : s.generics = [t] := hs.generics.trans (generics_vector t)
  have hstruct : ¬ s.flag Trait.struct = true := Bool.eq_false_iff.mp (hs.flag (by decide))
  have hvector : s.flag Trait.vector = true := hs.flag (by decide)
  rw [visits, if_neg hstruct, if_pos hvector]
  simp only [List.flatMap_subtype, List.unattach_attach, hgenerics, List.flatMap_singleton]

/-- The comments of a field entry are those that it is noted with. -/
theorem strs_of_noted {note : List String} (h : Noted note f) :
    f.strs Trait.beforeLineComment = note := by
  rcases h with h | ⟨h, rfl⟩
  · rw [Record.strs, Record.items, Record.field?, h]
    exact (List.filterMap_map ..).trans List.filterMap_some
  · rw [Record.strs, Record.items, Record.field?, h]
    rfl

mutual

/-- The field entries of a shape of a sample are for the names that a walk meets. -/
theorem entries_of_sampled : ∀ {v : Json} {notes : List (List String)} {s : Shape},
    Sampled v notes s → ∀ level, entriesOf (s.visits level) = v.walkedKeys.zip notes
  | .null, _, _, h, level | .bool _, _, _, h, level | .str _, _, _, h, level
  | .int _, _, _, h, level | .float _, _, _, h, level => by
    obtain @⟨_, s, t, hv, hs⟩ := h
    obtain ⟨hstruct, hvector, hname, htype, -⟩ := hv.leaf
    rw [visits_leaf ((hs.flag (by decide)).trans hstruct) ((hs.flag (by decide)).trans hvector)
      (hs.fieldType?.trans htype)]
    simp [entriesOf, hs.fieldName?.trans hname]
  | .arr [], _, s, h, level => by
    cases h with
    | atom hv => cases hv
    | empty hs =>
      rw [visits_vector hs, visits_leaf rfl rfl rfl]
      rfl
  | .arr (x :: xs), _, s, h, level => by
    cases h with
    | atom hv => cases hv
    | vector he hs =>
      rw [visits_vector hs]
      exact entries_of_sampled he (level + 1)
  | .obj members, _, s, h, level => by
    cases h with
    | atom hv => cases hv
    | struct hf hs =>
      rw [visits_struct hs]
      exact entries_of_sampledMembers hf (level + 1)

/-- The field entries of members are for the names that a walk meets below them. -/
theorem entries_of_sampledMembers :
    ∀ {members : List (String × Json)} {notes : List (List String)} {fields : List Shape},
      SampledMembers members notes fields → ∀ level, entriesOf (fields.flatMap (visits level)) =
        (Json.walkedKeys.ofMembers members).zip notes
  | [], _, _, h, level => by
    cases h
    rfl
  | (name, v) :: rest, _, _, h, level => by
    cases h with
    | @cons _ _ _ note notes notes' f s fields hs hf hopen hnote hfields =>
      have hrest := entries_of_sampledMembers hfields level
      have hbelow := entries_of_sampled hs level
      have hname : f.fieldName? = some name := hf.fieldName?
      rw [entriesOf] at hrest hbelow
      rw [List.flatMap_cons, visits_field hf, entriesOf, List.filterMap_append, hrest,
        List.filterMap_cons_some (b := (name, note)) (by simp [hname, strs_of_noted hnote]), hbelow,
        Json.walkedKeys.ofMembers, List.zip_cons_cons, List.zip_append hs.length_notes.symm]
      rfl

end

end Shape

end TypeSketch
