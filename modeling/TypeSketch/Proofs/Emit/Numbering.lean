import TypeSketch.Proofs.Emit.Samples
import TypeSketch.Proofs.Input.Numbering

/-!
# Emitting — an object that is read with other numbers

The columns of a table say of a field what sort of data it holds, and nothing of the names inside,
so that an object is one table whatever numbers it takes (`Sql.createTable_of_readings`).  The other
texts tell all names: they are the same if all structs below the root are named
(`Emitter.writeModel_of_readings`).

The two jobs of one model run side by side (`ObjectSample.lockstep_job`): they take a number at the
same places, and what they come to are readings of one object (`CommentedJson.Readings`). For tables
that is enough, and for the others the readings are equal where every struct is named.
-/

namespace TypeSketch

open CommentedJson (Readings SameColumn)

namespace Sql

variable {s t f g : Shape}

/-- A column is told by the sort of its data. -/
theorem columnType_of_sameSort (h : Shape.SameSort s t) {type : String}
    (hs : columnType s = .ok type) : columnType t = .ok type := by
  unfold columnType floatingType integerType unsupported at *
  rw [h.flag (f := Trait.floating) (by decide), h.int? (f := Trait.bitSize) (by decide),
    h.has (f := Trait.tsUnit) (by decide), h.flag (f := Trait.integer) (by decide),
    h.flag (f := Trait.string) (by decide), h.flag (f := Trait.null) (by decide),
    h.flag (f := Trait.bool) (by decide), h.flag (f := Trait.enum) (by decide),
    h.flag (f := Trait.simpleEnum) (by decide), h.flag (f := Trait.struct) (by decide),
    h.flag (f := Trait.vector) (by decide), h.flag (f := Trait.tuple) (by decide),
    h.flag (f := Trait.map) (by decide)] at hs
  -- only a shape without a column is told by its name
  grind

/-- Field entries for data of one sort under one name are one column. -/
theorem column_of_sameColumn (h : SameColumn f g) {c : String} (hf : column f = .ok c) :
    column g = .ok c := by
  obtain ⟨type, htype, hc⟩ := Except.bind_eq_ok.mp hf
  have heither : ∀ mark : Field, mark.key ∉ Shape.details →
      (f.flag mark || f.content.flag mark) = (g.flag mark || g.content.flag mark) := by
    intro mark hmark
    rw [h.sort.flag hmark, h.content.flag hmark]
  rw [column, columnType_of_sameSort h.content htype, ← hc]
  simp only [heither Trait.primary (by decide), heither Trait.nullable (by decide), h.label]
  rfl

/-- Field entries for data of one sort under the same names are the same columns. -/
theorem mapM_column_of_sameColumn {fields fields' : List Shape}
    (h : List.Forall₂ SameColumn fields fields') {columns : List String}
    (hcolumns : fields.mapM column = .ok columns) : fields'.mapM column = .ok columns := by
  induction h generalizing columns with
  | nil => exact hcolumns
  | cons hfg _ ih =>
    rw [List.mapM_cons] at hcolumns ⊢
    obtain ⟨c, hc, hrest⟩ := Except.bind_eq_ok.mp hcolumns
    obtain ⟨cs, hcs, heq⟩ := Except.bind_eq_ok.mp hrest
    rw [column_of_sameColumn hfg hc, ih hcs, ← heq]
    rfl

/-- An object is one table, whatever numbers it took. -/
theorem createTable_of_readings {model : String} {members : List (String × Json)}
    (h : Readings model members s t) : createTable s = createTable t := by
  obtain ⟨notes, hs, ht⟩ := h.sampled
  have hstruct : s.flag Trait.struct = true := CommentedJson.flag_struct_of_sampled hs
  have hstruct' : t.flag Trait.struct = true := CommentedJson.flag_struct_of_sampled ht
  obtain ⟨columns, hcolumns⟩ : ∃ columns, s.fields.mapM column = .ok columns := by
    cases hs with
    | atom hv => cases hv
    | struct hf hreads =>
      rw [hreads.fields, Shape.fields_struct]
      exact exists_columns hf
  rw [createTable, createTable, columnsOf, columnsOf, if_pos hstruct, if_pos hstruct', hcolumns,
    mapM_column_of_sameColumn h.columns hcolumns, h.name.1, h.name.2]

end Sql

namespace Emitter

/-- Readings of an object are written alike if every struct in it is named, and by some emitters in
any case. -/
theorem writeModel_of_readings {model : String} {members : List (String × Json)} {s t : Shape}
    (h : Readings model members s t) {emitter : Emitter} (hmem : emitter ∈ standard)
    (hnames : emitter.name ∈ ["sql", "empty"] ∨ Json.namesStructs.ofMembers members = true)
    (target : String) (d : Definition) :
    emitter.writeModel target d (.shape s) = emitter.writeModel target d (.shape t) := by
  rcases hnames with hname | hnames
  · obtain ⟨notes, hs, ht⟩ := h.sampled
    simp only [standard, List.mem_cons, List.not_mem_nil, or_false] at hmem
    rcases hmem with rfl | rfl | rfl | rfl
    · exact absurd hname (by decide)
    · simp only [sql, Sql.flag_enum_of_sampled hs, Sql.flag_enum_of_sampled ht]
      exact Sql.createTable_of_readings h
    · exact absurd hname (by decide)
    · rfl
  · rw [h.eq hnames]

end Emitter

namespace Definition

/-- Reading a sample is reading its text: no traits are laid over it. -/
theorem job_ofSample {name format text : String} (registry : Registry)
    (hformat : Text.eqIgnoreAsciiCase format "json" = true) :
    (ofSample name format text).job registry = CommentedJson.job name ⟨format, text⟩ >>= fun parsed =>
      Job.done (inferred parsed) := by
  have hchoose := choose?_ofSample name text hformat
  obtain ⟨raw, hd⟩ := ofSample_eq name format text
  rw [hd] at hchoose ⊢
  have hinputs : (inputs { name, raw, sample? := some ⟨format, text⟩ }).isEmpty = false := rfl
  have hoverlays : overlays { name, raw, sample? := some ⟨format, text⟩ } registry = [] := rfl
  rw [job, hchoose, hinputs, hoverlays]
  simp only [Bool.false_eq_true, if_false, List.foldlM_nil, pure_bind]
  rfl

end Definition

/-- A model of a JSON object. -/
structure ObjectSample where
  name : String
  format : String
  text : String
  members : List (String × Json)
  named : name ≠ ""
  isJson : Text.eqIgnoreAsciiCase format "json" = true
  holds : Json.parse (CommentedJson.strip text) = .ok (.obj members)

namespace ObjectSample

/-- The definition of the model. -/
def definition (sample : ObjectSample) : Definition :=
  .ofSample sample.name sample.format sample.text

/-- A text that holds an object is a sample for a model of any name. -/
theorem exists_of_text {α : Type} (name text : String) (f : List (String × Json) → α) {a : α}
    (hname : name ≠ "")
    (h : ((Json.parse (CommentedJson.strip text)).toOption.bind Json.asObj?).map f = some a) :
    ∃ sample : ObjectSample, sample.definition = .ofSample name "json" text ∧
      f sample.members = a := by
  cases hparse : Json.parse (CommentedJson.strip text) with
  | error flaw =>
    rw [hparse] at h
    cases h
  | ok v =>
    rw [hparse] at h
    cases v with
    | obj members =>
      exact ⟨⟨name, "json", text, members, hname, by decide, hparse⟩, rfl, Option.some.inj h⟩
    | _ => cases h

/-- A model of an object is written alike by two jobs with numbers of their own. -/
theorem lockstep_job (sample : ObjectSample) {emitter : Emitter} (hmem : emitter ∈ Emitter.standard)
    (hnames : emitter.name ∈ ["sql", "empty"] ∨ (Json.obj sample.members).namesStructs = true)
    (registry : Registry) (target : String) :
    Job.Lockstep (· = ·) (emitter.job registry target sample.definition)
      (emitter.job registry target sample.definition) := by
  rw [Emitter.job, definition, Definition.job_ofSample registry sample.isJson]
  have hread : Job.Lockstep _ (CommentedJson.job sample.name ⟨sample.format, sample.text⟩) _ :=
    CommentedJson.lockstep_job sample.named sample.holds
  have hparsed : Job.Lockstep (fun p q => ∃ s t, p = .shape s ∧ q = .shape t ∧
      Readings sample.name sample.members s t)
      (CommentedJson.job sample.name ⟨sample.format, sample.text⟩ >>= fun parsed =>
        Job.done (Definition.inferred parsed))
      (CommentedJson.job sample.name ⟨sample.format, sample.text⟩ >>= fun parsed =>
        Job.done (Definition.inferred parsed)) := by
    refine hread.bind ?_
    rintro _ _ ⟨s, t, rfl, rfl, h⟩
    exact .makes ⟨s, t, rfl, rfl, h⟩
  refine hparsed.bind ?_
  rintro _ _ ⟨s, t, rfl, rfl, h⟩
  rw [Emitter.writeModel_of_readings h hmem hnames]
  exact Job.lockstep_done fun _ _ => rfl

end ObjectSample

end TypeSketch
