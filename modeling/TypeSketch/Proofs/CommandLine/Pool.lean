import TypeSketch.Proofs.Emit.Numbering
import TypeSketch.Proofs.Model.Overlays

/-!
# Emit commands — models at the same time

The job of a model, on its own, is what emitting the model is (`Emitter.alone_job`).  The models of
an emit command take the numbers of their structs from one counter, in any order; if they settle,
the command joins one text, that of one model after the other (`joined_of_settle`).

A model of an object settles for tables, and if nothing is written; it does so for every target if
all structs below the root are named (`emit_regardless`).  A struct in arrays in an array shows its
number in data types and schemas (`emit_grid_counted`).
-/

namespace TypeSketch

/-! ### Jobs and drafts -/

namespace Shape

mutual

/-- The job of a value, on its own, is the draft of its shape. -/
theorem alone_jsonJob (path : String) : ∀ v : Json, (jsonJob path v).alone = ofJson path v
  | .null | .bool _ | .str _ | .float _ | .arr [] => by rw [jsonJob, ofJson]; rfl
  | .int n => by rw [jsonJob, ofJson]; rfl
  | .arr (x :: _) => by
      rw [jsonJob, ofJson, Job.alone_bind, alone_jsonJob path x]
      rfl
  | .obj members => by
      rw [jsonJob, ofJson, Job.alone_bind, alone_membersJob path members]
      simp only [Job.alone_bind, Job.alone_number, Job.alone_pure]

/-- The job of members, on its own, is the draft of their entries. -/
theorem alone_membersJob (path : String) :
    ∀ members : List (String × Json), (membersJob path members).alone = ofMembers path members
  | [] => by rw [membersJob, ofMembers]; rfl
  | (name, v) :: rest => by
      rw [membersJob, ofMembers, Job.alone_bind, alone_jsonJob _ v]
      simp only [Job.alone_bind, alone_membersJob path rest, Job.alone_pure]

end

theorem alone_sampleJob (sample : Json) (path : String) :
    (sampleJob sample path).alone = ofSample sample path := by
  rw [sampleJob, ofSample, Job.alone_bind, alone_jsonJob]
  rfl

end Shape

/-- The job of a commented sample, on its own, is reading it. -/
theorem CommentedJson.alone_job (model : String) (sample : Sample) :
    (job model sample).alone = read model sample := by
  rw [job, read]
  cases Json.parse (strip sample.text) with
  | error flaw => rfl
  | ok value =>
    simp only [Job.alone_bind, Shape.alone_sampleJob]
    refine bind_congr fun s => ?_
    split
    · simp only [Job.alone_bind, Job.alone_done, Job.alone_pure]
    · rfl

/-- An input is read by the reader that accepts it. -/
theorem Input.alone_job {reader : InputReader} (hreader : reader ∈ InputReader.standard)
    {input : Input} (haccepts : reader.accepts input = true) (model : String)
    (registry : Registry) : (input.job model registry).alone = reader.read model input registry := by
  simp only [InputReader.standard, List.mem_cons, List.not_mem_nil, or_false] at hreader
  rcases hreader with rfl | rfl | rfl
  · cases input with
    | sample s =>
      simp only [CommentedJson.reader]
      exact CommentedJson.alone_job model s
    | _ => cases haccepts
  · cases input with
    | fields entries => rfl
    | _ => cases haccepts
  · cases input with
    | variants entries => rfl
    | _ => cases haccepts

/-- A reader at hand accepts the input that a model is read from. -/
theorem Definition.accepts_of_choose? {d : Definition} {readers : List InputReader}
    {reader : InputReader} {input : Input} (h : d.choose? readers = some (reader, input)) :
    reader.accepts input = true := by
  obtain ⟨found, -, hfound⟩ := List.exists_of_findSome?_eq_some h
  obtain ⟨reader', hreader, heq⟩ := Option.map_eq_some_iff.mp hfound
  cases heq
  have haccepts := List.find?_some hreader
  exact haccepts

/-- The job of a model, on its own, is reading the model. -/
theorem Definition.alone_job (registry : Registry) (d : Definition) :
    (d.job registry).alone = d.parse InputReader.standard registry := by
  rw [job, parse]
  split
  · rfl
  · cases hchoose : d.choose? InputReader.standard with
    | none => rfl
    | some chosen =>
      obtain ⟨reader, input⟩ := chosen
      have hread := Input.alone_job (mem_of_choose? hchoose).1 (accepts_of_choose? hchoose) d.name
        registry
      simp only [Job.alone_bind, Job.alone_done, hread]

/-- A model's job is what emitting it takes. -/
theorem Emitter.alone_job (emitter : Emitter) (registry : Registry) (target : String)
    (d : Definition) : (emitter.job registry target d).alone =
      emitter.emit InputReader.standard registry target d := by
  rw [job, emit, Job.alone_bind, Definition.alone_job]
  rfl

namespace CommandLine

/-! ### One model after the other -/

/-- Results that do not depend on the state are those of a plain traversal. -/
theorem run_mapM_fst {ε σ α β : Type} {f : α → ExceptT ε (StateM σ) β} {g : α → Except ε β}
    {xs : List α} (h : ∀ x ∈ xs, ∀ state, ((f x).run.run state).1 = g x) (state : σ) :
    ((xs.mapM f).run.run state).1 = xs.mapM g := by
  induction xs generalizing state with
  | nil => rfl
  | cons x xs ih =>
    obtain ⟨hx, hxs⟩ := List.forall_mem_cons.mp h
    rw [List.mapM_cons, List.mapM_cons, run_bind_fst, hx state]
    refine bind_congr fun y => ?_
    rw [run_bind_fst, ih hxs]
    rfl

/-- A traversal comes off with what its items come off with. -/
theorem toOption_mapM {ε α β : Type} {f : α → Except ε β} {g : α → Option β} {xs : List α}
    (h : ∀ x ∈ xs, (f x).toOption = g x) : (xs.mapM f).toOption = xs.mapM g := by
  induction xs with
  | nil => rfl
  | cons x xs ih =>
    obtain ⟨hx, hxs⟩ := List.forall_mem_cons.mp h
    rw [List.mapM_cons, List.mapM_cons, ← hx, ← ih hxs]
    cases f x with
    | error e => rfl
    | ok y => cases xs.mapM f <;> rfl

variable {target : String} {emitter : Emitter} {models : List Definition}

/-- What emitting a model comes to, from the first numbers on. -/
def written (emitter : Emitter) (target : String) (d : Definition) : Except Error String :=
  ((emitter.emit InputReader.standard .standard target d).outcome {}).1

/-- Models whose texts do not depend on numbers are emitted as what each comes to. -/
theorem toOption_emitAll (hfind : Emitter.find? Emitter.standard target = some emitter)
    (h : ∀ d ∈ models, ∀ supply,
      ((emitter.emit InputReader.standard .standard target d).outcome supply).1 =
        written emitter target d) :
    (emitAll target models).toOption =
      (models.mapM fun d => (written emitter target d).toOption).map fun texts =>
        Text.joinWith "\n" (texts.filter (!·.isEmpty)) := by
  have hmodels : forModels (emitter.emit InputReader.standard .standard target) models =
      models.mapM fun d =>
        doing ("model `" ++ d.name ++ "`") (orError (written emitter target d)) := by
    unfold forModels
    refine run_mapM_fst (fun d hd supply => ?_) _
    rw [← h d hd supply]
    rfl
  have hoption : ∀ (text : String) (result : Except Error String),
      (doing text (orError result)).toOption = result.toOption := by
    intro text result
    cases result <;> rfl
  have htexts : (models.mapM fun d =>
      doing ("model `" ++ d.name ++ "`") (orError (written emitter target d))).toOption =
        models.mapM fun d => (written emitter target d).toOption :=
    toOption_mapM fun d _ => hoption _ _
  rw [← htexts, emitAll, hfind, orFail]
  change (forModels (emitter.emit InputReader.standard .standard target) models >>= _).toOption = _
  rw [hmodels]
  cases models.mapM fun d => doing ("model `" ++ d.name ++ "`") (orError (written emitter target d))
    <;> rfl

/-! ### Models at the same time -/

/-- A model that settles is written alike whatever numbers it takes. -/
theorem outcome_of_settles {result : Except Error String} {d : Definition}
    (h : Job.Settles result (emitter.job .standard target d)) (supply : Supply) :
    ((emitter.emit InputReader.standard .standard target d).outcome supply).1 = result := by
  rw [← Emitter.alone_job]
  exact h.outcome supply

/-- Models that settle are joined to the text of the command, in whatever order they took their
numbers. -/
theorem joined_of_settle (hfind : Emitter.find? Emitter.standard target = some emitter)
    (h : ∀ d ∈ models, Job.Settles (written emitter target d) (emitter.job .standard target d))
    {counter : Nat} {pool : Pool String}
    (hsteps : (Pool.ofModels counter emitter target models).Steps pool)
    (hfinished : pool.Finished) : pool.joined? = (emitAll target models).toOption := by
  have hstart : Pool.Settle (models.map (written emitter target))
      (Pool.ofModels counter emitter target models) := by
    rw [Pool.Settle, Pool.ofModels, List.forall₂_map_left_iff, List.forall₂_map_right_iff,
      List.forall₂_same]
    exact h
  have hjobs := Pool.jobs_of_finished (Pool.settle_of_steps hsteps hstart) hfinished
  have hresults : Job.result? ∘ Job.done ∘ written emitter target =
      fun d => (written emitter target d).toOption := by
    funext d
    simp only [Function.comp_apply]
    cases written emitter target d <;> rfl
  rw [toOption_emitAll hfind fun d hd supply => outcome_of_settles (h d hd) supply, Pool.joined?,
    hjobs, List.map_map, List.mapM_map, hresults]

/-- What does not depend on the numbers that the models of an emit command take. -/
structure Regardless (target : String) (emitter : Emitter) (models : List Definition) : Prop where
  /-- A model by itself is written alike from any two supplies of numbers. -/
  alone : ∀ d ∈ models, ∀ S₁ S₂ : Supply,
    ((emitter.emit InputReader.standard .standard target d).outcome S₁).1 =
      ((emitter.emit InputReader.standard .standard target d).outcome S₂).1
  /-- However the models have taken numbers from the counter, they can all be finished. -/
  finishes : ∀ counter pool, (Pool.ofModels counter emitter target models).Steps pool →
    ∃ pool', pool.Steps pool' ∧ pool'.Finished
  /-- When they are, their texts are joined to that of one model after the other. -/
  joined : ∀ counter pool, (Pool.ofModels counter emitter target models).Steps pool →
    pool.Finished → pool.joined? = (emitAll target models).toOption

/-- Models of objects are emitted alike, whatever numbers they take and in whatever order, by the
emitters that do not tell the names inside of a model; and by every emitter if no member in them is
an array of arrays whose first elements lead to an object. -/
theorem emit_regardless (hfind : Emitter.find? Emitter.standard target = some emitter)
    (samples : List ObjectSample) (hnames : ∀ sample ∈ samples,
      emitter.name ∈ ["sql", "empty"] ∨ (Json.obj sample.members).namesStructs = true) :
    Regardless target emitter (samples.map (·.definition)) := by
  have hmem : emitter ∈ Emitter.standard := List.mem_of_find?_eq_some hfind
  have hsettles : ∀ d ∈ samples.map (·.definition),
      Job.Settles (written emitter target d) (emitter.job .standard target d) := by
    rw [List.forall_mem_map]
    intro sample hsample
    have hlockstep := sample.lockstep_job hmem (hnames sample hsample) .standard target
    obtain ⟨result, hsettles, -⟩ := hlockstep.exists_settles
    rw [written, outcome_of_settles hsettles]
    exact hsettles
  exact {
    alone := fun d hd S₁ S₂ => by
      rw [outcome_of_settles (hsettles d hd), outcome_of_settles (hsettles d hd)]
    finishes := fun _ pool _ => pool.exists_finished
    joined := fun _ _ hsteps hfinished => joined_of_settle hfind hsettles hsteps hfinished }

/-- A text that holds an object is a sample whose structs are all named, or not. -/
theorem exists_objectSample (name text : String) (names : Bool) (hname : name ≠ "")
    (h : ((Json.parse (CommentedJson.strip text)).toOption.bind Json.asObj?).map
      Json.namesStructs.ofMembers = some names) :
    ∃ sample : ObjectSample, sample.definition = .ofSample name "json" text ∧
      (Json.obj sample.members).namesStructs = names :=
  ObjectSample.exists_of_text name text Json.namesStructs.ofMembers hname h

/-- An object in arrays in an array. -/
def gridText : String := "\x7b\"cells\": [[\x7b\"x\": 1\x7d]]\x7d"

/-- A model by such an object. -/
def gridModel (name : String) : Definition := .ofSample name "json" gridText

/-- Data types of an order and its parts, whose structs are all named, and a table of a grid. -/
theorem emit_regardless_orders :
    Regardless "rust" Emitter.rustData [.ofSample "order" "json" Emitter.orderText,
      .ofSample "part" "json" "\x7b\"sizes\": [1, 2]\x7d"] ∧
    Regardless "sql" Emitter.sql [gridModel "grid"] := by
  obtain ⟨order, horder, hnames⟩ :=
    exists_objectSample "order" Emitter.orderText true (by decide) (by decide +kernel)
  obtain ⟨part, hpart, hnames'⟩ :=
    exists_objectSample "part" "\x7b\"sizes\": [1, 2]\x7d" true (by decide) (by decide +kernel)
  obtain ⟨grid, hgrid, -⟩ :=
    exists_objectSample "grid" gridText false (by decide) (by decide +kernel)
  rw [← horder, ← hpart, gridModel, ← hgrid]
  constructor
  · refine emit_regardless rfl [order, part] (List.forall_mem_cons.mpr ⟨.inr hnames, ?_⟩)
    exact List.forall_mem_singleton.mpr (.inr hnames')
  · exact emit_regardless rfl [grid] (List.forall_mem_singleton.mpr (.inl (by decide)))

/-- The struct in a grid shows its number in data types and schemas, so that the data types of two
grids depend on which of them took its numbers first. -/
theorem emit_grid_counted :
    (∃ sample : ObjectSample, sample.definition = gridModel "grid") ∧
    (∀ emitter ∈ [Emitter.rustData, Emitter.jsonSchema], ∀ target ∈ emitter.targets,
      ((emitter.emit InputReader.standard .standard target (gridModel "grid")).outcome
          ⟨0, 0⟩).1.toOption ≠
        ((emitter.emit InputReader.standard .standard target (gridModel "grid")).outcome
          ⟨1, 0⟩).1.toOption) ∧
    ∃ pool pool', pool.Finished ∧ pool'.Finished ∧ pool.joined? ≠ pool'.joined? ∧
      let start := Pool.ofModels 0 Emitter.rustData "rust" [gridModel "grid", gridModel "board"]
      start.Steps pool ∧ start.Steps pool' := by
  refine ⟨?_, by decide +kernel, ?_⟩
  · obtain ⟨grid, hgrid, -⟩ :=
      exists_objectSample "grid" gridText false (by decide) (by decide +kernel)
    exact ⟨grid, hgrid⟩
  · have hsteps := Pool.steps_two
      (Emitter.rustData.job .standard "rust" (gridModel "grid"))
      (Emitter.rustData.job .standard "rust" (gridModel "board")) ⟨0, 0⟩
    simp only [Emitter.alone_job] at hsteps
    exact ⟨_, _, by simp [Pool.Finished], by simp [Pool.Finished], by decide +kernel, hsteps⟩

end CommandLine

end TypeSketch
