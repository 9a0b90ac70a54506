import TypeSketch.Emit.JsonSchema
import TypeSketch.Proofs.Json.Sameness
import TypeSketch.Proofs.Shape.Sampled
import TypeSketch.Proofs.Table

/-!
# Schemas — what they accept

`Schema.accepts schema v` reads the keywords that constrain a value: its type, the schemas of
members and items, the members that must be there, and alternatives of which exactly one holds.
Any other keyword is an annotation.  The schema of a shape of a sample accepts the sample, every
array of which is cut to the element that the shape was taken from (`exists_ofShape`).

A schema is read keyword by keyword (`meets_cons`), so descriptions can be put in front of it
(`accepts_described`). The proof for samples goes by the sample: what stands for neither an array
nor an object is decided (`accepts_of_atom`), a vector passes on what its element accepts, and for a
struct the members and the properties are lists side by side (`accepts_struct`).
-/

namespace TypeSketch

/-- The number is finite and has no fraction. -/
def Binary64.isWhole : Binary64 → Bool
  | .finite s m e => units s m e % Nat.pow 2 1074 == 0
  | _ => false

namespace Json

mutual

/-- The value with every array in it cut to its first element. -/
def firstItems : Json → Json
  | .arr [] => .arr []
  | .arr (x :: _) => .arr [x.firstItems]
  | .obj members => .obj (firstItemsOfMembers members)
  | v => v

/-- Members with every array in them cut to its first element. -/
def firstItemsOfMembers : List (String × Json) → List (String × Json)
  | [] => []
  | (name, v) :: rest => (name, v.firstItems) :: firstItemsOfMembers rest

end

theorem firstItemsOfMembers_eq_map (members : List (String × Json)) :
    firstItemsOfMembers members = members.map fun m => (m.1, m.2.firstItems) := by
  induction members with
  | nil => rfl
  | cons m rest ih => rw [firstItemsOfMembers, ih, List.map_cons]

end Json

namespace Schema

/-! ### Validation -/

/-- A value is of a type. -/
def isOfType (v : Json) (type : String) : Bool :=
  match v with
  | .null => type == "null"
  | .bool _ => type == "boolean"
  | .int _ => type == "number" || type == "integer"
  | .float x => type == "number" || type == "integer" && x.isWhole
  | .str _ => type == "string"
  | .arr _ => type == "array"
  | .obj _ => type == "object"

/-- A value is of the type, or of one of the types, that the argument of a keyword names. -/
def isOfTypes (v : Json) : Json → Bool
  | .str type => isOfType v type
  | .arr types => types.any fun type => (type.asStr?.map (isOfType v)).getD false
  | _ => false

/-- A value has the members that the argument of a keyword names, if it is an object. -/
def hasNames (v : Json) : Json → Bool
  | .arr names =>
    v.asObj?.isNone || names.all fun name => (name.asStr?.bind fun n => v.get? n).isSome
  | _ => false

mutual

/-- A schema accepts a value. What is neither a truth value nor an object is no schema. -/
def accepts : Json → Json → Bool
  | .bool b, _ => b
  | .obj keywords, v => meets keywords v
  | _, _ => false
termination_by structural schema => schema

/-- A value meets every keyword. -/
def meets : List (String × Json) → Json → Bool
  | [], _ => true
  | (keyword, arg) :: rest, v =>
    (if keyword == "type" then isOfTypes v arg
      else if keyword == "required" then hasNames v arg
      else if keyword == "items" then (v.asArr?.getD []).all fun x => accepts arg x
      else if keyword == "properties" then acceptsMembers arg v
      else if keyword == "oneOf" then acceptances arg v == 1
      else true) && meets rest v
termination_by structural keywords => keywords

/-- The members of a value fit the properties that the argument of a keyword describes. -/
def acceptsMembers : Json → Json → Bool
  | .obj properties, v => fitsProperties properties v
  | _, _ => false
termination_by structural arg => arg

/-- Where a value has a member that is described, the description accepts it. -/
def fitsProperties : List (String × Json) → Json → Bool
  | [], _ => true
  | (name, schema) :: rest, v =>
    ((v.get? name).all fun x => accepts schema x) && fitsProperties rest v
termination_by structural properties => properties

/-- How many of the schemas that the argument of a keyword lists accept a value. -/
def acceptances : Json → Json → Nat
  | .arr schemas, v => countAccepting schemas v
  | _, _ => 0
termination_by structural arg => arg

/-- How many schemas accept a value. -/
def countAccepting : List Json → Json → Nat
  | [], _ => 0
  | schema :: rest, v => (if accepts schema v then 1 else 0) + countAccepting rest v
termination_by structural schemas => schemas

end

/-- Keywords are met one by one. -/
theorem meets_cons (keyword : String) (arg : Json) (rest : List (String × Json)) (v : Json) :
    meets ((keyword, arg) :: rest) v = (meets [(keyword, arg)] v && meets rest v) :=
  (congrArg (· && meets rest v) (Bool.and_true _)).symm

/-- A value fits properties if each member that is described is accepted by its description. -/
theorem fitsProperties_iff {properties : List (String × Json)} {v : Json} :
    fitsProperties properties v = true ↔
      ∀ p ∈ properties, ∀ x, v.get? p.1 = some x → accepts p.2 x = true := by
  induction properties with
  | nil => simp [fitsProperties]
  | cons p rest ih =>
    obtain ⟨name, schema⟩ := p
    rw [fitsProperties, Bool.and_eq_true, ih, List.forall_mem_cons]
    cases v.get? name <;> simp

/-- A description says nothing about what is accepted. -/
theorem accepts_described (schema : Json) (comments : List String) (v : Json) :
    accepts (described schema comments) v = accepts schema v := by
  rw [described]
  split
  · rfl
  · cases schema with
    | obj keywords =>
      rw [Json.set, accepts, accepts]
      induction keywords with
      | nil => rfl
      | cons e rest ih =>
        obtain ⟨keyword, arg⟩ := e
        rw [Assoc.put]
        split
        · next h =>
          rw [eq_of_beq h]
          rfl
        · rw [meets_cons, ih, ← meets_cons]
    | _ => rfl

/-! ### The schema of a shape -/

/-- The schema of a shape is made of the schemas of its parts, and wrapped and described. -/
theorem ofShape_eq (s : Shape) : ofShape s =
    (present s (s.fields.map fun f => (f, ofShape f.content)) (s.generics.map ofShape) >>=
      fun schema =>
        let schema :=
          if s.flag Trait.stringWrapped then
            Json.obj [("type", .str "string"), ("contentSchema", schema)]
          else schema
        pure (if s.flag Trait.nullable then orNull schema else schema)) := by
  rw [ofShape, ← List.attach_map_val (l := s.fields), ← List.attach_map_val (l := s.generics)]

/-- The remarks on a shape do not show in how its data is presented. -/
theorem present_congr {s t : Shape} (h : Shape.Reads s t)
    (fields : List (Shape × Except Error Json)) (generics : List (Except Error Json)) :
    present s fields generics = present t fields generics := by
  unfold present
  rw [h.flag (f := Trait.null) (by decide), h.flag (f := Trait.struct) (by decide),
    h.flag (f := Trait.enum) (by decide), h.flag (f := Trait.tuple) (by decide),
    h.flag (f := Trait.vector) (by decide), h.flag (f := Trait.map) (by decide),
    h.flag (f := Trait.bool) (by decide), h.flag (f := Trait.integer) (by decide),
    h.flag (f := Trait.floating) (by decide), h.flag (f := Trait.string) (by decide),
    h.flag (f := Trait.allValue) (by decide), h.str? (f := Trait.typeRef) (by decide),
    h.str? (f := Trait.tsUnit) (by decide), h.name, Shape.variants, Shape.variants,
    h.shapes (f := Trait.variants) (by decide)]

/-- The remarks on a shape do not show in its schema. -/
theorem ofShape_congr {s t : Shape} (h : Shape.Reads s t) : ofShape s = ofShape t := by
  rw [ofShape_eq, ofShape_eq, present_congr h, h.fields, h.generics,
    h.flag (f := Trait.stringWrapped) (by decide), h.flag (f := Trait.nullable) (by decide)]

variable {v : Json} {notes : List (List String)} {s t : Shape}

/-- The schema of what a value stands for that is neither an array nor an object. -/
theorem accepts_of_atom (h : Shape.Atom v t) :
    ∃ schema, ofShape t = .ok schema ∧ accepts schema v.firstItems = true := by
  rw [ofShape_eq]
  cases h with
  | null => exact ⟨ofType "null", rfl, rfl⟩
  | bool b => exact ⟨ofType "boolean", rfl, rfl⟩
  | text text => exact ⟨ofType "string", rfl, rfl⟩
  | decimalText text =>
    exact ⟨.obj [("type", .str "string"), ("contentSchema", number "number" "f64")], rfl, rfl⟩
  | wholeText text =>
    exact ⟨.obj [("type", .str "string"), ("contentSchema", number "integer" "i64")], rfl, rfl⟩
  | whole n => exact ⟨number "integer" "i64", rfl, rfl⟩
  | large n => exact ⟨number "integer" "u64", rfl, rfl⟩
  | timestamp n unit => exact ⟨number "integer" ("timestamp/" ++ unit), rfl, rfl⟩
  | float x => exact ⟨number "number" "f64", rfl, rfl⟩

theorem ofShape_vector {e : Shape} {schema : Json} (h : ofShape e = .ok schema) :
    ofShape (.vector e) = .ok (.obj [("type", .str "array"), ("items", schema)]) := by
  rw [ofShape_eq, Shape.generics_vector, List.map_singleton, h]
  rfl

/-- What a field entry becomes in the schema of its struct. -/
def property (f : Shape) : Except Error (String × Json) :=
  return (f.label, described (← ofShape f.content) (commentsOf f))

/-- The field entries whose data must be there. -/
def required (fields : List Shape) : List Shape :=
  fields.filter fun f => !f.flag Trait.nullable && !f.content.flag Trait.nullable

/-- The keywords of the schema of a struct. -/
def structKeywords (name : String) (fields : List Shape) (properties : List (String × Json)) :
    List (String × Json) :=
  [("type", .str "object"), ("properties", .obj (Assoc.ofList properties))] ++
    (if (required fields).isEmpty then []
      else [("required", .arr ((required fields).map fun f => .str f.label))]) ++
    [("title", .str name)]

/-- A struct becomes an object with a property for each field entry. -/
theorem ofShape_struct {name : String} {fields : List Shape} {properties : List (String × Json)}
    (h : fields.mapM property = .ok properties) :
    ofShape (.struct name fields) = .ok (.obj (structKeywords name fields properties)) := by
  rw [ofShape_eq, Shape.fields_struct]
  have hfirst : (fields.map fun f => (f, ofShape f.content)).map (·.1) = fields := by
    rw [List.map_map]
    exact List.map_id fields
  have hfields : ofFields name (fields.map fun f => (f, ofShape f.content)) =
      .ok (.obj (structKeywords name fields properties)) := by
    rw [ofFields, List.mapM_map, hfirst]
    exact Except.bind_eq_ok.mpr ⟨properties, h, rfl⟩
  exact Except.bind_eq_ok.mpr ⟨_, hfields, rfl⟩

/-- The schema of a struct accepts an object with just its members, each of which fits. -/
theorem accepts_struct {name : String} {fields : List Shape} {members : List (String × Json)}
    {properties : List (String × Json)} (hk : (members.map Prod.fst).Nodup)
    (hlabels : fields.map Shape.label = members.map Prod.fst)
    (h : List.Forall₂ (fun m p => p.1 = m.1 ∧ accepts p.2 m.2 = true) members properties) :
    accepts (.obj (structKeywords name fields properties)) (.obj members) = true := by
  have hproperties : fitsProperties properties (.obj members) = true := by
    refine fitsProperties_iff.mpr fun p hp x hx => ?_
    obtain ⟨m, hm, hname, haccepts⟩ := exists_of_forall₂ h p hp
    have hx' : members.lookup m.1 = some m.2 :=
      (Assoc.lookup_eq_some_iff_mem hk).mpr hm
    rw [hname] at hx
    exact Option.some.inj (hx'.symm.trans hx) ▸ haccepts
  have hrequired : hasNames (.obj members)
      (.arr ((required fields).map fun f => .str f.label)) = true := by
    rw [hasNames, List.all_eq_true.mpr fun name hname => ?_, Bool.or_true]
    obtain ⟨f, hf, rfl⟩ := List.mem_map.mp hname
    refine Assoc.lookup_isSome_iff.mpr ?_
    rw [← hlabels]
    exact List.mem_map_of_mem (List.mem_of_mem_filter hf)
  have hnames : members.map Prod.fst = properties.map Prod.fst := by
    rw [← List.forall₂_eq_eq_eq, List.forall₂_map_left_iff, List.forall₂_map_right_iff]
    exact h.imp fun _ _ hm => hm.1.symm
  rw [accepts, structKeywords, Assoc.ofList_of_nodup (hnames ▸ hk)]
  split
  · simp [meets, isOfTypes, isOfType, acceptsMembers, hproperties]
  · simp [meets, isOfTypes, isOfType, acceptsMembers, hproperties, hrequired]

/-! ### Samples -/

/-- A field entry goes by the name of its member. -/
theorem labels_of_sampledMembers {members : List (String × Json)} {fields : List Shape}
    (h : Shape.SampledMembers members notes fields) :
    fields.map Shape.label = members.map Prod.fst := by
  induction members generalizing notes fields with
  | nil => cases h; rfl
  | cons m rest ih =>
    cases h with
    | cons _ hf _ _ hfields =>
      rw [List.map_cons, List.map_cons, ih hfields, hf.label, Shape.label_field]

mutual

/-- A shape of a sample has a schema, and that accepts the sample. -/
theorem exists_ofShape : ∀ {v : Json} {notes : List (List String)} {s : Shape},
    Shape.Sampled v notes s →
      ∃ schema, ofShape s = .ok schema ∧ (v.Proper → accepts schema v.firstItems = true)
  | .null, _, _, h | .bool _, _, _, h | .str _, _, _, h | .int _, _, _, h | .float _, _, _, h => by
      cases h with
      | atom hv hs =>
        obtain ⟨schema, hschema, haccepts⟩ := accepts_of_atom hv
        exact ⟨schema, (ofShape_congr hs).trans hschema, fun _ => haccepts⟩
  | .arr [], _, _, h => by
      cases h with
      | atom hv => cases hv
      | empty hs =>
        -- The element is any value, whose schema has no keyword.
        have hall : ofShape Shape.allValue = .ok (.obj []) := by
          rw [ofShape_eq]
          rfl
        rw [ofShape_congr hs]
        exact ⟨_, ofShape_vector hall, fun _ => rfl⟩
  | .arr (x :: xs), _, _, h => by
      cases h with
      | atom hv => cases hv
      | vector he hs =>
        obtain ⟨schema, hschema, haccepts⟩ := exists_ofShape he
        rw [ofShape_congr hs]
        refine ⟨_, ofShape_vector hschema, fun hproper => ?_⟩
        cases hproper with
        | arr hitems =>
          simp [accepts, meets, isOfTypes, isOfType, Json.firstItems, Json.asArr?,
            haccepts (hitems x List.mem_cons_self)]
  | .obj members, _, _, h => by
      cases h with
      | atom hv => cases hv
      | struct hf hs =>
        obtain ⟨properties, hproperties, hfits⟩ := exists_properties hf
        rw [ofShape_congr hs, Json.firstItems]
        refine ⟨_, ofShape_struct hproperties, fun hproper => ?_⟩
        have hnames : (Json.firstItemsOfMembers members).map Prod.fst = members.map Prod.fst := by
          rw [Json.firstItemsOfMembers_eq_map, List.map_map]
          rfl
        cases hproper with
        | obj hk hmembers =>
          refine accepts_struct (hnames ▸ hk) ?_ (hfits hmembers)
          rw [labels_of_sampledMembers hf, hnames]

/-- Each field entry of a sample becomes a property, which fits its member. -/
theorem exists_properties :
    ∀ {members : List (String × Json)} {notes : List (List String)} {fields : List Shape},
      Shape.SampledMembers members notes fields →
        ∃ properties, fields.mapM property = .ok properties ∧ ((∀ m ∈ members, m.2.Proper) →
          List.Forall₂ (fun m p => p.1 = m.1 ∧ accepts p.2 m.2 = true)
            (Json.firstItemsOfMembers members) properties)
  | [], _, _, h => by
      cases h
      exact ⟨[], rfl, fun _ => .nil⟩
  | (name, v) :: rest, _, _, h => by
      cases h with
      | @cons _ _ _ _ _ _ f s fields hs hf _ _ hfields =>
        obtain ⟨schema, hschema, haccepts⟩ := exists_ofShape hs
        obtain ⟨properties, hproperties, hfits⟩ := exists_properties hfields
        refine ⟨(name, described schema (commentsOf f)) :: properties, ?_, fun hproper => ?_⟩
        · rw [List.mapM_cons, property, Shape.content_of_reads hf, hschema, hproperties, hf.label]
          rfl
        · obtain ⟨hv, hrest⟩ := List.forall_mem_cons.mp hproper
          exact .cons ⟨rfl, (accepts_described _ _ _).trans (haccepts hv)⟩ (hfits hrest)

end

/-- A sample whose shape is inferred has a schema, which accepts it when every array in it is cut to
its first element. -/
theorem accepts_of_sample {v : Json} {path : String} {s : Shape} (hproper : v.Proper)
    (h : (Shape.ofSample v path).Makes s) :
    ∃ schema, ofShape s = .ok schema ∧ accepts schema v.firstItems = true := by
  obtain ⟨schema, hschema, haccepts⟩ := exists_ofShape (Shape.sampled_of_makes_ofSample h)
  exact ⟨schema, hschema, haccepts hproper⟩

/-- Every sort of value below every other, with the corners: a sample that is nothing, one that is
empty, and numbers that are texts, points in time or large. -/
def mixedSample : Json :=
  .obj [("none", .null),
    ("items", .arr [.obj [("empty", .arr []), ("nones", .arr [.null])], .null]),
    ("wrapped", .obj [("n", .str "12"), ("x", .str "1.5"), ("s", .str "")]),
    ("made_at", .int 1700000000000), ("large", .int 18446744073709551615), ("flag", .bool true)]

/-- No object in the sample repeats a name. -/
theorem proper_mixedSample : mixedSample.Proper := by
  refine .obj (by decide) ?_
  simp only [List.forall_mem_cons, List.not_mem_nil, false_imp_iff, implies_true, and_true]
  refine ⟨.null, .arr ?_, .obj (by decide) ?_, .int _, .int _, .bool _⟩
  · simp only [List.forall_mem_cons, List.not_mem_nil, false_imp_iff, implies_true, and_true]
    refine ⟨.obj (by decide) ?_, .null⟩
    simp only [List.forall_mem_cons, List.not_mem_nil, false_imp_iff, implies_true, and_true]
    exact ⟨.arr nofun, .arr (by simpa using .null)⟩
  · simp only [List.forall_mem_cons, List.not_mem_nil, false_imp_iff, implies_true, and_true]
    exact ⟨.str _, .str _, .str _⟩

/-- The sample has a schema, which accepts it. -/
theorem accepts_of_mixed_sample : ∃ s schema, (Shape.ofSample mixedSample "order").Makes s ∧
    ofShape s = .ok schema ∧ accepts schema mixedSample.firstItems = true := by
  have hmakes : ((Shape.ofSample mixedSample "order").outcome {}).1.toBool = true := by
    decide +kernel
  cases hs : ((Shape.ofSample mixedSample "order").outcome {}).1 with
  | error e => rw [hs] at hmakes; cases hmakes
  | ok s =>
    obtain ⟨schema, hschema, haccepts⟩ := accepts_of_sample proper_mixedSample ⟨{}, hs⟩
    exact ⟨s, schema, ⟨{}, hs⟩, hschema, haccepts⟩

end Schema

end TypeSketch
