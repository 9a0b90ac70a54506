import TypeSketch.Proofs.Record.Changes
import TypeSketch.Proofs.Shape.Naming

/-!
# JSON samples — an object that is read with other numbers

The name of the model replaces the number of the root, so that an object whose structs below the
root are all named is read as one shape, whatever numbers it takes.  In any case the two shapes that
come of it have one name, and their fields are alike up to what is deeper inside
(`CommentedJson.Readings`): a walk that puts comments onto a shape leaves its sort
(`CommentedJson.sameSort_walk`).

The walk is taken apart into its visits (`sameSort_visit`), what it does below them
(`sameSort_walkBelow`), and the lists that it goes through (`sameSort_editListAt`). Nothing but the
sort of a shape can be kept, since comments are put onto field entries deep inside.
-/

namespace TypeSketch.CommentedJson

variable {comments : Comments} {s t : Shape}

/-! ### What a walk leaves -/

/-- A visit writes comments only. -/
theorem get?_visit (comments : Comments) (level : Nat) (s : Shape) (tally : Tally) {key : String}
    (hkey : key ≠ Trait.beforeLineComment.key) :
    ((Tour.visit (visit comments level) s).run tally).1.get? key = s.get? key := by
  obtain ⟨state, stopped⟩ := tally
  cases stopped with
  | some e => rfl
  | none =>
    change (visit comments level s state).1.get? key = s.get? key
    rw [visit]
    cases s.fieldName? with
    | none => rfl
    | some name =>
      simp only [lay]
      cases comments.lookup ((state.1.lookup name).getD 0 + 1, name) with
      | none => rfl
      | some lines =>
        cases happend : s.append (Trait.beforeLineComment.entry (.list (lines.map .str))) with
        | error e => simp only [happend]
        | ok s' =>
          simp only [happend]
          obtain ⟨r, hr, hs'⟩ := Except.bind_eq_ok.mp happend
          cases hs'
          have hmakes := Change.makes_of_apply (c := .append _) hr
          exact hmakes.get?_eq fun heq => hkey (Option.some.inj heq).symm

theorem sameSort_visit (comments : Comments) (level : Nat) (s : Shape) (tally : Tally) :
    Shape.SameSort ((Tour.visit (visit comments level) s).run tally).1 s :=
  fun _ hk => get?_visit comments level s tally fun heq => hk (heq ▸ by decide)

/-- Changing the shapes in a list leaves everything else. -/
theorem sameSort_editListAt {f : Field} (hf : f.key ∈ Shape.details)
    (g : Shape → StateM Tally Shape) (s : Shape) (tally : Tally) :
    Shape.SameSort ((s.editListAt f.key g).run tally).1 s := by
  intro key hk
  have hkey : key ≠ f.key := fun heq => hk (heq ▸ hf)
  unfold Shape.editListAt Record.modifyAt
  cases s.get? f.key with
  | none => rfl
  | some v => exact Record.get?_set_of_ne hkey _ _

/-- What a walk does behind a visit: it goes on in the shape that a field entry is for. -/
def walkBelow (comments : Comments) (fuel level : Nat) (f : Shape) : StateM Tally Shape :=
  match f.fieldType? with
  | some t =>
    if t.frozen || f.frozen then return f
    else do
      let t ← walk comments fuel level t
      return ⟨f.set Trait.fieldType.key t.toValue⟩
  | none => return f

/-- What a walk does behind a visit leaves the sort of a field entry. -/
theorem sameSort_walkBelow (fuel level : Nat) (f : Shape) (tally : Tally) :
    Shape.SameSort ((walkBelow comments fuel level f).run tally).1 f := by
  rw [walkBelow]
  cases f.fieldType? with
  | none => exact .refl f
  | some t =>
    by_cases hfrozen : (t.frozen || f.frozen) = true
    · simp only [hfrozen, if_true]
      exact .refl f
    · simp only [hfrozen]
      exact Shape.sameSort_adding f (f := Trait.fieldType) (by decide) _

/-- A walk leaves the sort of a shape. -/
theorem sameSort_walk (comments : Comments) (fuel level : Nat) (s : Shape) (tally : Tally) :
    Shape.SameSort ((walk comments fuel level s).run tally).1 s := by
  cases fuel with
  | zero => exact .refl s
  | succ fuel =>
    rw [walk, Shape.editWithin]
    split
    · exact .refl s
    · split
      · exact sameSort_editListAt (by decide) _ s tally
      · split
        · exact sameSort_editListAt (by decide) _ s tally
        · exact (sameSort_walkBelow fuel level _ _).trans (sameSort_visit comments level s tally)

theorem content_of_get? {f : Shape} (h : f.get? Trait.fieldType.key = some s.toValue) :
    f.fieldType? = some s ∧ f.content = s := by
  have htype : f.fieldType? = some s := by
    rw [Shape.fieldType?, Record.shape?, Record.field?, h]
    rfl
  exact ⟨htype, by rw [Shape.content, htype, Option.getD_some]⟩

/-- A walk leaves the sort of the shape that a field entry is for. -/
theorem sameSort_content_walk (fuel level : Nat) (name : String) (s : Shape) (tally : Tally) :
    Shape.SameSort ((walk comments fuel level (.field name s)).run tally).1.content s := by
  cases fuel with
  | zero => exact .refl s
  | succ fuel =>
    have hwalk : walk comments (fuel + 1) level (.field name s) =
        Tour.visit (visit comments level) (.field name s) >>= walkBelow comments fuel level := rfl
    rw [hwalk, StateT.run_bind]
    have hvisit : ((Tour.visit (visit comments level) (.field name s)).run tally).1.get?
        Trait.fieldType.key = some s.toValue := get?_visit comments level _ tally (by decide)
    generalize (Tour.visit (visit comments level) (.field name s)).run tally = visited at hvisit ⊢
    obtain ⟨f, tally'⟩ := visited
    obtain ⟨htype, hcontent⟩ := content_of_get? hvisit
    change Shape.SameSort ((walkBelow comments fuel level f).run tally').1.content s
    simp only [walkBelow, htype]
    by_cases hfrozen : (s.frozen || f.frozen) = true
    · simp only [hfrozen, if_true]
      exact hcontent ▸ .refl f.content
    · simp only [hfrozen]
      obtain ⟨-, hbelow⟩ := content_of_get? (f := f.adding (Trait.fieldType.entry
        ((walk comments fuel level s).run tally').1.toValue)) (Record.get?_set_self _ _ _)
      exact hbelow ▸ sameSort_walk comments fuel level s tally'

/-! ### What is read of an object -/

/-- A walk makes one shape of another. -/
def Walked (comments : Comments) (s t : Shape) : Prop :=
  ∃ fuel level tally, t = ((walk comments fuel level s).run tally).1

/-- A traversal makes of each item what one step makes of it, with some tally. -/
theorem forall₂_run_mapM {σ α : Type} (g : α → StateM σ α) (xs : List α) (state : σ) :
    List.Forall₂ (fun x y => ∃ state', y = ((g x).run state').1) xs ((xs.mapM g).run state).1 := by
  induction xs generalizing state with
  | nil => exact .nil
  | cons x xs ih =>
    rw [List.mapM_cons]
    exact .cons ⟨state, rfl⟩ (ih ((g x).run state).2)

/-- The shape with its comments is what a walk without counts makes of it. -/
theorem eq_of_annotate (h : annotate comments s = .ok t) :
    t = ((walk comments (s.depth + 1) 0 s).run ⟨([], ()), none⟩).1 := by
  simp only [annotate] at h
  split at h
  · next t' _ hedit =>
    cases h
    have hnumbered : s.editNumbered (lay comments) () = (t, (), none) := hedit
    exact (congrArg Prod.fst hnumbered).symm
  · cases h

/-- The shape of an object that is a model, before it has comments. -/
def modelShape (model : String) (v : Json) (fields : List Shape) : Shape :=
  ((Shape.struct model fields).copy.adding Trait.fromJson.present).adding
    (Trait.rawValue.entry (.json v))

theorem reads_modelShape (model : String) (v : Json) (fields : List Shape) :
    Shape.Reads (modelShape model v fields) (.struct model fields) :=
  (Shape.reads_adding_remark _ (show Trait.rawValue.key ∈ Shape.remarks by decide)).trans
    ((Shape.reads_adding_remark _ (show Trait.fromJson.key ∈ Shape.remarks by decide)).trans
      (Shape.reads_copy _))

/-- Comments change the field entries of a model only. -/
theorem forall₂_of_annotate {model : String} {v : Json} {fields : List Shape}
    (h : annotate comments (modelShape model v fields) = .ok t) :
    t.name = model ∧ List.Forall₂ (Walked comments) fields t.fields := by
  obtain rfl := eq_of_annotate h
  have hreads := reads_modelShape model v fields
  rw [walk_struct hreads rfl, StateT.run_bind]
  have hwalks := forall₂_run_mapM (walk comments (modelShape model v fields).depth 1) fields
    ⟨([], ()), none⟩
  generalize (fields.mapM (walk comments (modelShape model v fields).depth 1)).run
    ⟨([], ()), none⟩ = walked at hwalks ⊢
  obtain ⟨fields', tally⟩ := walked
  have hstruct := Shape.reads_struct_of hreads fields'
  refine ⟨hstruct.name.trans rfl, ?_⟩
  have hfields : ((modelShape model v fields).adding
      (Trait.fields.entry (Shape.listOf fields'))).fields = fields' :=
    hstruct.fields.trans (Shape.fields_struct model fields')
  exact hfields.symm ▸ hwalks.imp fun f g ⟨tally, hg⟩ => ⟨_, _, tally, hg⟩

/-- Two field entries have one name and are of the same sort, and so are the shapes that they are
for. -/
structure SameColumn (f g : Shape) : Prop where
  label : f.label = g.label
  sort : Shape.SameSort f g
  content : Shape.SameSort f.content g.content

/-- Two shapes of an object that is a model, read with numbers of their own. -/
structure Readings (model : String) (members : List (String × Json)) (s t : Shape) : Prop where
  /-- They are the same if every struct in the members is named. -/
  eq : Json.namesStructs.ofMembers members = true → s = t
  name : s.name = model ∧ t.name = model
  columns : List.Forall₂ SameColumn s.fields t.fields
  sampled : ∃ notes, Shape.Sampled (.obj members) notes s ∧ Shape.Sampled (.obj members) notes t

/-- Comments leave two field entries as alike as they were. -/
theorem sameColumn_walk {f g f' g' : Shape} (h : Shape.SameField f g)
    (hf : Walked comments f f') (hg : Walked comments g g') : SameColumn f' g' := by
  obtain ⟨name, c, d, rfl, rfl, hsort⟩ := h
  obtain ⟨fuel, level, tally, rfl⟩ := hf
  obtain ⟨fuel', level', tally', rfl⟩ := hg
  have hf := sameSort_walk comments fuel level (.field name c) tally
  have hg := sameSort_walk comments fuel' level' (.field name d) tally'
  have hfield : Shape.SameSort (.field name c) (.field name d) :=
    (Shape.sameSort_adding (.field name d) (f := Trait.fieldType) (by decide) c.toValue)
  have hname : ∀ {e f : Shape}, Shape.SameSort f (.field name e) → f.label = name := by
    intro e f h
    rw [Shape.label, Shape.fieldName?, h.str? (by decide)]
    rfl
  exact ⟨(hname hf).trans (hname hg).symm, hf.trans (hfield.trans hg.symm),
    (sameSort_content_walk fuel level name c tally).trans
      (hsort.trans (sameSort_content_walk fuel' level' name d tally').symm)⟩

/-- Comments leave two lists of field entries as alike as they were. -/
theorem forall₂_sameColumn {fields fields' walked walked' : List Shape}
    (h : List.Forall₂ Shape.SameField fields fields')
    (hwalked : List.Forall₂ (Walked comments) fields walked)
    (hwalked' : List.Forall₂ (Walked comments) fields' walked') :
    List.Forall₂ SameColumn walked walked' := by
  induction h generalizing walked walked' with
  | nil =>
    cases hwalked
    cases hwalked'
    exact .nil
  | cons hfg _ ih =>
    cases hwalked with
    | cons hf hrest =>
      cases hwalked' with
      | cons hg hrest' => exact .cons (sameColumn_walk hfg hf hg) (ih hrest hrest')

/-- Comments make readings of two shapes that differ in their numbers only. -/
theorem readings_of_annotate (model : String) {members : List (String × Json)}
    {fields fields' : List Shape} (h : Shape.CountedMembers members fields fields')
    (comments : Comments) :
    ∃ s t, annotate comments (modelShape model (.obj members) fields) = .ok s ∧
      annotate comments (modelShape model (.obj members) fields') = .ok t ∧
      Readings model members s t := by
  have hleft := Shape.Sampled.struct h.left (reads_modelShape model (.obj members) fields) rfl
  have hright := Shape.Sampled.struct h.right (reads_modelShape model (.obj members) fields') rfl
  obtain ⟨s, hs, hsampled⟩ := exists_annotate hleft comments
  obtain ⟨t, ht, hsampled'⟩ := exists_annotate hright comments
  obtain ⟨hname, hfields⟩ := forall₂_of_annotate hs
  obtain ⟨hname', hfields'⟩ := forall₂_of_annotate ht
  refine ⟨s, t, hs, ht, ⟨fun hnames => ?_, ⟨hname, hname'⟩,
    forall₂_sameColumn h.sameFields hfields hfields', ⟨_, hsampled, hsampled'⟩⟩⟩
  obtain rfl := h.eq hnames
  exact Except.ok.inj (hs.symm.trans ht)

/-- A shape is the struct of some fields, and takes the name of a model in place of its own. -/
structure Rooted (v : Json) (fields : List Shape) (s : Shape) : Prop where
  struct : s.flag Trait.struct = true
  named : ∀ model,
    s.replace (Trait.name.entry (.str model)) = .ok (modelShape model v fields)

/-- The struct of some fields takes any name. -/
theorem rooted_struct (name : String) (v : Json) (fields : List Shape) :
    Rooted v fields (((Shape.struct name fields).copy.adding Trait.fromJson.present).adding
      (Trait.rawValue.entry (.json v))) where
  struct := rfl
  named := by
    intro model
    rw [Shape.replace, Record.replace_of_open rfl rfl]
    rfl

/-- The root of an object is numbered last. -/
theorem lockstep_sampleJob (members : List (String × Json)) (path : String) :
    Job.Lockstep (fun s t => ∃ fields fields', Rooted (.obj members) fields s ∧
        Rooted (.obj members) fields' t ∧ Shape.CountedMembers members fields fields')
      (Shape.sampleJob (.obj members) path) (Shape.sampleJob (.obj members) path) := by
  have hstruct : Job.Lockstep (fun s t => ∃ name name' fields fields',
      s = Shape.struct name fields ∧ t = Shape.struct name' fields' ∧
        Shape.CountedMembers members fields fields')
      (Shape.jsonJob path (.obj members)) (Shape.jsonJob path (.obj members)) := by
    rw [Shape.jsonJob]
    exact (Shape.lockstep_membersJob path members).bind fun fields fields' h =>
      Job.lockstep_number.bind fun _ _ _ => .makes ⟨_, _, fields, fields', rfl, rfl, h⟩
  refine hstruct.bind ?_
  rintro _ _ ⟨name, name', fields, fields', rfl, rfl, h⟩
  exact .makes ⟨fields, fields', rooted_struct .., rooted_struct .., h⟩

/-- An object that is a model is read alike by two jobs with numbers of their own. -/
theorem lockstep_job {model : String} {sample : Sample} {members : List (String × Json)}
    (hmodel : model ≠ "") (hparse : Json.parse (strip sample.text) = .ok (.obj members)) :
    Job.Lockstep (fun p q => ∃ s t, p = .shape s ∧ q = .shape t ∧ Readings model members s t)
      (job model sample) (job model sample) := by
  have hnamed : (!model.isEmpty) = true := by simpa using hmodel
  rw [job, hparse]
  refine (lockstep_sampleJob members model).bind fun s t hroots => ?_
  obtain ⟨fields, fields', hs, ht, h⟩ := hroots
  obtain ⟨s', t', hs', ht', hreadings⟩ :=
    readings_of_annotate model h (comments sample.text)
  rw [hs.struct, ht.struct, hnamed, hs.named, ht.named]
  simp only [Bool.and_self, if_true, Job.done_ok_bind, hs', ht']
  exact .makes ⟨s', t', rfl, rfl, hreadings⟩

end TypeSketch.CommentedJson
