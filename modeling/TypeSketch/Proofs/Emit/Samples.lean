import TypeSketch.Emit.Emitter
import TypeSketch.Input.Standard
import TypeSketch.Proofs.Emit.JsonSchema
import TypeSketch.Proofs.Emit.RustData
import TypeSketch.Proofs.Input.Annotating

/-!
# Emitting samples

A JSON sample that implies a shape can be written for every target, if it is an object.  Any other
sample can be written as a schema, or as nothing; as data types and tables it cannot, and the error
says so.  The model is read first, whatever numbers are taken (`exists_outcome_parse`), and each
emitter is shown what it does with a shape of a sample (`exists_writeModel`).

There is one statement for each emitter about a shape of a sample: a table has a column for every
member (`Sql.exists_createTable`), data types can be written of an object
(`Rust.succeeds_writeModel`) and of nothing else (`Rust.fails_writeModel`), and a schema can always
be (`exists_document`). They are put together by target in `emit_sample`.
-/

namespace TypeSketch

/-! ### Columns -/

namespace Sql

variable {v : Json} {notes : List (List String)} {s : Shape}

/-- The remarks on a shape do not show in its column. -/
theorem columnType_congr {t : Shape} (h : Shape.Reads s t) : columnType s = columnType t := by
  unfold columnType floatingType integerType unsupported
  rw [h.flag (f := Trait.floating) (by decide), h.int? (f := Trait.bitSize) (by decide), h.name,
    h.has (f := Trait.tsUnit) (by decide), h.flag (f := Trait.integer) (by decide),
    h.flag (f := Trait.string) (by decide), h.flag (f := Trait.null) (by decide),
    h.flag (f := Trait.bool) (by decide), h.flag (f := Trait.enum) (by decide),
    h.flag (f := Trait.simpleEnum) (by decide), h.flag (f := Trait.struct) (by decide),
    h.flag (f := Trait.vector) (by decide), h.flag (f := Trait.tuple) (by decide),
    h.flag (f := Trait.map) (by decide)]

/-- Every shape of a sample has a column type. -/
theorem exists_columnType (h : Shape.Sampled v notes s) : ∃ type, columnType s = .ok type := by
  cases h with
  | atom hv hs =>
    rw [columnType_congr hs]
    cases hv <;> exact ⟨_, rfl⟩
  | empty hs | vector _ hs | struct _ hs =>
    rw [columnType_congr hs]
    exact ⟨_, rfl⟩

/-- The field entries of members have columns. -/
theorem exists_columns {members : List (String × Json)} {fields : List Shape}
    (h : Shape.SampledMembers members notes fields) :
    ∃ columns, fields.mapM column = .ok columns := by
  induction members generalizing notes fields with
  | nil => cases h; exact ⟨[], rfl⟩
  | cons m rest ih =>
    cases h with
    | cons hs hf _ _ hfields =>
      obtain ⟨type, htype⟩ := exists_columnType hs
      obtain ⟨columns, hcolumns⟩ := ih hfields
      rw [List.mapM_cons, column, Shape.content_of_reads hf, htype, hcolumns]
      exact ⟨_, rfl⟩

/-- An object is a table. -/
theorem exists_createTable (h : Shape.Sampled v notes s) (hstruct : s.flag Trait.struct = true) :
    ∃ table, createTable s = .ok table := by
  cases h with
  | atom hv hs =>
    rw [hs.flag (by decide), hv.leaf.1] at hstruct
    cases hstruct
  | empty hs | vector _ hs =>
    rw [hs.flag (by decide)] at hstruct
    cases hstruct
  | struct hf hs =>
    obtain ⟨columns, hcolumns⟩ := exists_columns hf
    rw [createTable, columnsOf, if_pos hstruct, hs.fields, Shape.fields_struct, hcolumns]
    exact ⟨_, rfl⟩

/-- A shape of a sample is no enum. -/
theorem flag_enum_of_sampled (h : Shape.Sampled v notes s) : s.flag Trait.enum = false := by
  cases h with
  | atom hv hs =>
    rw [hs.flag (by decide)]
    cases hv <;> rfl
  | empty hs | vector _ hs | struct _ hs => exact hs.flag (by decide)

end Sql

/-! ### Reading the definition -/

namespace Definition

variable {name format text : String} {v : Json} {s : Shape}

/-- The definition by a sample has no traits laid over it. -/
theorem ofSample_eq (name format text : String) :
    ∃ raw, ofSample name format text = { name, raw, sample? := some ⟨format, text⟩ } := by
  rw [ofSample, fillRaw]
  split
  · next sample h =>
    cases h
    split <;> exact ⟨_, rfl⟩
  · next h => cases h

/-- A JSON sample is read by the reader of JSON samples. -/
theorem choose?_ofSample (name text : String)
    (hformat : Text.eqIgnoreAsciiCase format "json" = true) :
    choose? InputReader.standard (ofSample name format text) =
      some (CommentedJson.reader, .sample ⟨format, text⟩) := by
  obtain ⟨raw, hd⟩ := ofSample_eq name format text
  have haccepts : CommentedJson.reader.accepts (.sample ⟨format, text⟩) = true := hformat
  rw [hd]
  simp [choose?, inputs, InputReader.find?, InputReader.standard, haccepts]

/-- A JSON sample is read by itself: no traits are laid over it. -/
theorem parse_ofSample (registry : Registry)
    (hformat : Text.eqIgnoreAsciiCase format "json" = true) :
    (ofSample name format text).parse InputReader.standard registry =
      CommentedJson.read name ⟨format, text⟩ >>= fun parsed =>
        Draft.ofExcept (inferred parsed) := by
  have hchoose := choose?_ofSample name text hformat
  obtain ⟨raw, hd⟩ := ofSample_eq name format text
  rw [hd] at hchoose ⊢
  have hinputs : (inputs { name, raw, sample? := some ⟨format, text⟩ }).isEmpty = false := rfl
  have hoverlays : overlays { name, raw, sample? := some ⟨format, text⟩ } registry = [] := rfl
  have hreader : CommentedJson.reader.read name (.sample ⟨format, text⟩) registry =
      CommentedJson.read name ⟨format, text⟩ := by simp only [CommentedJson.reader]
  rw [parse, hchoose, hinputs, hoverlays]
  simp only [Bool.false_eq_true, if_false, List.foldlM_nil, pure_bind]
  rw [hreader]

/-- A model by a JSON sample that implies a shape is read, whatever numbers are taken. -/
theorem exists_outcome_parse (hformat : Text.eqIgnoreAsciiCase format "json" = true)
    (hparse : Json.parse (CommentedJson.strip text) = .ok v)
    (hshape : (Shape.ofSample v name).Makes s) (registry : Registry) (supply : Supply) :
    ∃ s' supply' notes,
      ((ofSample name format text).parse InputReader.standard registry).outcome supply =
        (.ok (.shape s'), supply') ∧ Shape.Sampled v notes s' := by
  obtain ⟨t, supply', hmade⟩ := Shape.exists_outcome_ofSample hshape supply
  obtain ⟨s', hread, hs'⟩ : ∃ s', (CommentedJson.read name ⟨format, text⟩).outcome supply =
      (.ok (.shape s'), supply') ∧ _ := CommentedJson.exists_outcome_read hparse hmade
  refine ⟨s', supply', _, ?_, hs'⟩
  rw [parse_ofSample registry hformat, Draft.outcome_bind_ok hread]
  rfl

/-- A JSON sample makes the shape that it is read as. -/
theorem makes_read_of_parse {registry : Registry} {supply : Supply} {s : Shape} {supply' : Supply}
    (hformat : Text.eqIgnoreAsciiCase format "json" = true)
    (h : ((ofSample name format text).parse InputReader.standard registry).outcome supply =
      (.ok (.shape s), supply')) :
    (CommentedJson.read name ⟨format, text⟩).Makes (.shape s) := by
  have hmakes : ((ofSample name format text).parse InputReader.standard registry).Makes
      (.shape s) := ⟨supply, by rw [h]⟩
  rw [parse_ofSample registry hformat] at hmakes
  obtain ⟨parsed, hread, hinferred⟩ := Draft.makes_bind hmakes
  have hinferred := Draft.makes_ofExcept hinferred
  cases parsed with
  | shape t =>
    cases hinferred
    exact hread
  | node n =>
    -- inference leaves a program a program
    rw [inferred] at hinferred
    split at hinferred
    · obtain ⟨_, -, hnode⟩ := Except.bind_eq_ok.mp hinferred
      cases hnode
    · cases hinferred

end Definition

/-! ### Emitters -/

namespace Emitter

variable {v : Json} {notes : List (List String)} {s : Shape}

theorem exists_document (h : Shape.Sampled v notes s) : ∃ out, Schema.document s = .ok out := by
  obtain ⟨schema, hschema, -⟩ := Schema.exists_ofShape h
  rw [Schema.document, hschema]
  exact ⟨_, rfl⟩

/-- An object can be written by every emitter. -/
theorem exists_writeModel_of_struct (h : Shape.Sampled v notes s)
    (hstruct : s.flag Trait.struct = true) {emitter : Emitter} (hemitter : emitter ∈ standard)
    (target : String) (d : Definition) :
    ∃ out, emitter.writeModel target d (.shape s) = .ok out := by
  simp only [standard, List.mem_cons, List.not_mem_nil, or_false] at hemitter
  rcases hemitter with rfl | rfl | rfl | rfl
  · exact Writing.exists_text (Rust.succeeds_writeModel h hstruct d)
  · obtain ⟨table, htable⟩ := Sql.exists_createTable h hstruct
    refine ⟨table, ?_⟩
    simp only [sql, Sql.flag_enum_of_sampled h]
    exact htable
  · exact exists_document h
  · exact ⟨"", rfl⟩

/-- Any other sample has a schema, and no declarations and no table. -/
theorem writeModel_of_other (h : Shape.Sampled v notes s) (hstruct : s.flag Trait.struct = false)
    (target : String) (d : Definition) :
    (∀ emitter ∈ [jsonSchema, empty], ∃ out, emitter.writeModel target d (.shape s) = .ok out) ∧
    ∀ emitter ∈ [rustData, sql], ∃ what reason,
      emitter.writeModel target d (.shape s) = .error (.emit what reason) := by
  constructor
  · refine List.forall_mem_cons.mpr ⟨exists_document h, List.forall_mem_singleton.mpr ⟨"", rfl⟩⟩
  · refine List.forall_mem_cons.mpr ⟨?_, List.forall_mem_singleton.mpr ?_⟩
    · obtain ⟨e, he, what, reason, rfl⟩ :=
        Writing.exists_text_error (Rust.fails_writeModel h hstruct d)
      exact ⟨what, reason, he⟩
    · simp only [sql, Sql.flag_enum_of_sampled h, Sql.createTable, Sql.columnsOf, hstruct]
      exact ⟨_, _, rfl⟩

/-- To emit a model that is read is to write what was read. -/
theorem outcome_emit {emitter : Emitter} {target : String} {d : Definition}
    {readers : List InputReader} {registry : Registry} {supply supply' : Supply} {parsed : Parsed}
    (h : (d.parse readers registry).outcome supply = (.ok parsed, supply')) :
    ((emitter.emit readers registry target d).outcome supply).1 =
      emitter.writeModel target d parsed := by
  rw [emit, Draft.outcome_bind_ok h]
  rfl

/-- A JSON sample that implies a shape is written by every emitter that a target has, if it is an
object, and else by those that need no struct; the others say that it cannot be written. -/
theorem emit_sample {name format text target : String} {emitter : Emitter}
    (hformat : Text.eqIgnoreAsciiCase format "json" = true)
    (hparse : Json.parse (CommentedJson.strip text) = .ok v)
    (hshape : (Shape.ofSample v name).Makes s)
    (hfind : find? standard target = some emitter) (supply : Supply) :
    let result := ((emitter.emit InputReader.standard Registry.standard target
      (Definition.ofSample name format text)).outcome supply).1
    ((∃ members, v = .obj members) → ∃ out, result = .ok out) ∧
    ((¬ ∃ members, v = .obj members) →
      (emitter.name ∈ ["json_schema", "empty"] → ∃ out, result = .ok out) ∧
      (emitter.name ∈ ["rust_data", "sql"] →
        ∃ what reason, result = .error (.emit what reason))) := by
  intro result
  have hmem : emitter ∈ standard := List.mem_of_find?_eq_some hfind
  obtain ⟨s', supply', notes, hparsed, hs'⟩ :=
    Definition.exists_outcome_parse hformat hparse hshape Registry.standard supply
  have hresult : result = emitter.writeModel target (Definition.ofSample name format text)
      (.shape s') := outcome_emit hparsed
  have hobj : (∃ members, v = .obj members) ↔ v.asObj?.isSome = true := by
    cases v <;> simp [Json.asObj?]
  rw [hresult, hobj, ← CommentedJson.flag_struct_of_sampled hs', Bool.not_eq_true]
  refine ⟨fun hstruct => exists_writeModel_of_struct hs' hstruct hmem _ _, fun hstruct => ?_⟩
  obtain ⟨hwrites, hfails⟩ := writeModel_of_other hs' hstruct target
    (Definition.ofSample name format text)
  simp only [standard, List.mem_cons, List.not_mem_nil, or_false] at hmem
  rcases hmem with rfl | rfl | rfl | rfl
  · exact ⟨fun h => absurd h (by decide), fun _ => hfails _ List.mem_cons_self⟩
  · exact ⟨fun h => absurd h (by decide), fun _ => hfails _ (by simp)⟩
  · exact ⟨fun _ => hwrites _ List.mem_cons_self, fun h => absurd h (by decide)⟩
  · exact ⟨fun _ => hwrites _ (by simp), fun h => absurd h (by decide)⟩

/-- A commented object, with a point in time, an array and a number that is a text. -/
def orderText : String :=
  "\x7b // an order\n\"made_at\": 1700000000, \"legs\": [\x7b\"px\": \"1.5\"\x7d]\x7d"

/-- An object for every target, and a list of numbers, which is no table. -/
theorem emit_sample_orders :
    (∀ target ∈ ["rust", "sql", "schema", "no_target"], ∃ emitter out,
      find? standard target = some emitter ∧
        ((emitter.emit InputReader.standard Registry.standard target
          (Definition.ofSample "order" "JSON" orderText)).outcome {}).1 = .ok out) ∧
    ∃ emitter what reason, find? standard "sql" = some emitter ∧
      ((emitter.emit InputReader.standard Registry.standard "sql"
        (Definition.ofSample "order" "json" "[1, 2] // no order")).outcome {}).1 =
          .error (.emit what reason) := by
  have hformat : Text.eqIgnoreAsciiCase "JSON" "json" = true := by decide
  have hformat' : Text.eqIgnoreAsciiCase "json" "json" = true := by decide
  obtain ⟨v, s, hparse, hshape, hobj⟩ :
      ∃ v s, Json.parse (CommentedJson.strip orderText) = .ok v ∧
        (Shape.ofSample v "order").Makes s ∧ v.asObj?.isSome = true :=
    CommentedJson.exists_sample (·.asObj?.isSome) (by decide +kernel)
  obtain ⟨v', s', hparse', hshape', hobj'⟩ :
      ∃ v s, Json.parse (CommentedJson.strip "[1, 2] // no order") = .ok v ∧
        (Shape.ofSample v "order").Makes s ∧ v.asObj?.isSome = false :=
    CommentedJson.exists_sample (·.asObj?.isSome) (by decide +kernel)
  have hmembers : ∃ members, v = .obj members := by
    cases v with
    | obj members => exact ⟨members, rfl⟩
    | _ => cases hobj
  have hmembers' : ¬ ∃ members, v' = .obj members := by
    rintro ⟨members, rfl⟩
    cases hobj'
  constructor
  · have hwritten : ∀ (target : String) (emitter : Emitter),
        find? standard target = some emitter → ∃ emitter out, find? standard target = some emitter ∧
          ((emitter.emit InputReader.standard Registry.standard target
            (Definition.ofSample "order" "JSON" orderText)).outcome {}).1 = .ok out := by
      intro target emitter hfind
      obtain ⟨out, hout⟩ := (emit_sample hformat hparse hshape hfind {}).1 hmembers
      exact ⟨emitter, out, hfind, hout⟩
    simp only [List.forall_mem_cons]
    exact ⟨hwritten _ rustData rfl, hwritten _ sql rfl, hwritten _ jsonSchema rfl,
      hwritten _ empty rfl, nofun⟩
  · have hfind : find? standard "sql" = some sql := rfl
    obtain ⟨-, hfails⟩ := (emit_sample hformat' hparse' hshape' hfind {}).2 hmembers'
    obtain ⟨what, reason, herror⟩ := hfails (by decide)
    exact ⟨sql, what, reason, hfind, herror⟩

end Emitter

end TypeSketch
