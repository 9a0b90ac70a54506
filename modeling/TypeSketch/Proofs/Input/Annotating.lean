import TypeSketch.Input.CommentedJson
import TypeSketch.Proofs.Inference.Literals
import TypeSketch.Proofs.Shape.Editing
import TypeSketch.Proofs.Table

/-!
# JSON samples — putting comments onto field entries

A walk over the shape of a sample meets the names of its members in the order of the sample, and
counts how often each has come (`ranks`).  Every field entry is open and takes the comments that are
known for its name and count, so that annotating never fails (`exists_annotate`): what comes out is
a shape of the sample again, with those comments on it.

A tour is described by the names that it meets (`Meets`): one after the other it meets both
(`meets_bind`), and a visit to a field entry meets its name (`meets_visit_field`). `meets_walk` is
proved by induction on the shape of a sample, and at the end the tables of counts are gone: what is
left is `behind`, the comments by name and count.
-/

namespace TypeSketch

/-- Whether a sample implies a shape does not depend on the numbers that are taken. -/
theorem Shape.exists_outcome_ofSample {v : Json} {path : String} {s : Shape}
    (h : (ofSample v path).Makes s) (supply : Supply) :
    ∃ s' supply', (ofSample v path).outcome supply = (.ok s', supply') := by
  obtain ⟨t, ⟨supply₀, ht⟩, -⟩ := Draft.makes_bind h
  cases twice_ofJson path v supply₀ supply with
  | fails e _ _ h₁ =>
    rw [h₁] at ht
    cases ht
  | makes _ t' n _ h₂ => exact ⟨_, _, Draft.outcome_bind_ok h₂⟩

namespace CommentedJson

section Walking

/-! ### Counting names -/

/-- Names, each with how often it has come, after those that have been `seen`. -/
def ranks (seen : List String) : List String → List (Nat × String)
  | [] => []
  | name :: rest => (seen.count name + 1, name) :: ranks (seen ++ [name]) rest

theorem ranks_append (seen names names' : List String) :
    ranks seen (names ++ names') = ranks seen names ++ ranks (seen ++ names) names' := by
  induction names generalizing seen with
  | nil => simp [ranks]
  | cons name rest ih => simp [ranks, ih]

theorem length_ranks (seen names : List String) : (ranks seen names).length = names.length := by
  induction names generalizing seen with
  | nil => rfl
  | cons name rest ih => simp [ranks, ih]

/-- The comments known for names and their counts. -/
def known (comments : Comments) (names : List (Nat × String)) : List (List String) :=
  names.map fun name => (comments.lookup name).getD []

/-- A table holds how often each name has been seen. -/
def Tallies (counts : List (String × Nat)) (seen : List String) : Prop :=
  ∀ name, (counts.lookup name).getD 0 = seen.count name

theorem tallies_nil : Tallies [] [] := fun _ => rfl

/-- A name that is seen is counted once more. -/
theorem Tallies.put {counts : List (String × Nat)} {seen : List String} (h : Tallies counts seen)
    (name : String) :
    Tallies (Assoc.put name ((counts.lookup name).getD 0 + 1) counts) (seen ++ [name]) := by
  intro name'
  rw [Assoc.lookup_put, List.count_append, ← h name']
  by_cases heq : name' = name
  · subst heq
    simp
  · rw [if_neg heq, List.count_eq_zero_of_not_mem (by simpa using heq), Nat.add_zero]

/-! ### Tours that count -/

/-- What a walk that numbers carries. -/
abbrev Tally := Tour (List (String × Nat) × Unit)

/-- Once some names have been `seen`, and unless it was stopped before, the tour meets `names`, is
not stopped, and comes out as something that meets `Q`. -/
def Meets {α : Type} (x : StateM Tally α) (seen names : List String) (Q : α → Prop) : Prop :=
  ∀ counts, Tallies counts seen → ∃ a counts',
    x.run ⟨(counts, ()), none⟩ = (a, ⟨(counts', ()), none⟩) ∧ Tallies counts' (seen ++ names) ∧ Q a

variable {α β : Type} {seen names names' : List String}

theorem meets_pure {Q : α → Prop} {a : α} (h : Q a) : Meets (pure a) seen [] Q :=
  fun counts hc => ⟨a, counts, rfl, by rwa [List.append_nil], h⟩

/-- One tour after the other meets the names of the first, and then those of the second. -/
theorem meets_bind {x : StateM Tally α} {f : α → StateM Tally β} {P : α → Prop} {Q : β → Prop}
    (hx : Meets x seen names P) (hf : ∀ a, P a → Meets (f a) (seen ++ names) names' Q) :
    Meets (x >>= f) seen (names ++ names') Q := by
  intro counts hc
  obtain ⟨a, counts', hrun, hc', ha⟩ := hx counts hc
  obtain ⟨b, counts'', hrun', hc'', hb⟩ := hf a ha counts' hc'
  refine ⟨b, counts'', ?_, by rwa [← List.append_assoc], hb⟩
  rw [StateT.run_bind, hrun]
  exact hrun'

/-- A tour, and then a last step that meets nothing. -/
theorem meets_map {x : StateM Tally α} {f : α → β} {P : α → Prop} {Q : β → Prop}
    (hx : Meets x seen names P) (hf : ∀ a, P a → Q (f a)) :
    Meets (x >>= fun a => pure (f a)) seen names Q := by
  have hbind : Meets (x >>= fun a => pure (f a)) seen (names ++ []) Q :=
    meets_bind hx fun a ha => meets_pure (hf a ha)
  rwa [List.append_nil] at hbind

/-! ### What a visit does -/

/-- Put the comments that are known for a name and its count onto a shape. -/
def lay (comments : Comments) (_level nth : Nat) (name : String) (s : Shape) (_ : Unit) :
    Shape × Unit × Option Error :=
  match comments.lookup (nth, name) with
  | none => (s, (), none)
  | some lines =>
    match s.append (Trait.beforeLineComment.entry (.list (lines.map .str))) with
    | .ok s => (s, (), none)
    | .error e => (s, (), some e)

/-- Count a field entry, and put comments onto it. -/
def visit (comments : Comments) (level : Nat) (s : Shape) (state : List (String × Nat) × Unit) :
    Shape × (List (String × Nat) × Unit) × Option Error :=
  match s.fieldName? with
  | none => (s, state, none)
  | some name =>
    let nth := (state.1.lookup name).getD 0 + 1
    let (s, rest, stopped) := lay comments level nth name s state.2
    (s, (Assoc.put name nth state.1, rest), stopped)

/-- A walk that is not stopped puts the comments onto a shape. -/
theorem annotate_of_run {comments : Comments} {s s' : Shape} {state : List (String × Nat) × Unit}
    (h : (s.edit fun level => Tour.visit (visit comments level)).run ⟨([], ()), none⟩ =
      (s', ⟨state, none⟩)) : annotate comments s = .ok s' := by
  have hnumbered : Shape.editNumbered (lay comments) s () = (s', (), none) :=
    congrArg (fun r : Shape × Tally => (r.1, r.2.state.2, r.2.stopped)) h
  simp only [annotate]
  split
  · next s₁ _ hedit =>
    cases hedit.symm.trans hnumbered
    rfl
  · next e hedit => cases hedit.symm.trans hnumbered

variable {comments : Comments} {f s : Shape} {note : List String} {name : String}

/-- An open field entry takes comments behind those that it has. -/
theorem append_comments (hopen : f.frozen = false) (hnote : Shape.Noted note f)
    (lines : List String) :
    ∃ f', f.append (Trait.beforeLineComment.entry (.list (lines.map .str))) = .ok f' ∧
      Shape.Reads f' f ∧ f'.frozen = false ∧ Shape.Noted (note ++ lines) f' := by
  refine ⟨f.adding (Trait.beforeLineComment.entry (.list ((note ++ lines).map .str))), ?_,
    Shape.reads_adding_remark f (show Trait.beforeLineComment.key ∈ Shape.remarks by decide),
    (Shape.frozen_adding f _).trans hopen,
    .inl (Record.get?_set_self _ _ _)⟩
  rcases hnote with hnote | ⟨hnote, rfl⟩
  · rw [Shape.append, Record.append_of_list hopen rfl hnote, List.map_append]
    rfl
  · rw [Shape.append, Record.append_of_absent hopen rfl hnote]
    rfl

/-- A field entry takes the comments that are known for its name and count. -/
theorem visit_field (comments : Comments) (hname : f.fieldName? = some name)
    (hopen : f.frozen = false) (hnote : Shape.Noted note f) (level : Nat)
    (counts : List (String × Nat)) :
    ∃ f', visit comments level f (counts, ()) =
        (f', (Assoc.put name ((counts.lookup name).getD 0 + 1) counts, ()), none) ∧
      Shape.Reads f' f ∧ f'.frozen = false ∧ Shape.Noted
        (note ++ (comments.lookup ((counts.lookup name).getD 0 + 1, name)).getD []) f' := by
  rw [visit, hname]
  simp only [lay]
  cases hlines : comments.lookup ((counts.lookup name).getD 0 + 1, name) with
  | none =>
    refine ⟨f, rfl, .refl f, hopen, ?_⟩
    rwa [Option.getD_none, List.append_nil]
  | some lines =>
    obtain ⟨f', happend, h⟩ := append_comments hopen hnote lines
    exact ⟨f', by simp only [happend], h⟩

/-- A visit to a field entry meets its name, and puts the comments behind those that are there. -/
theorem meets_visit_field (hname : f.fieldName? = some name) (hopen : f.frozen = false)
    (hnote : Shape.Noted note f) (level : Nat) :
    Meets (Tour.visit (visit comments level) f) seen [name] fun f' => Shape.Reads f' f ∧
      f'.frozen = false ∧
        Shape.Noted (note ++ (comments.lookup (seen.count name + 1, name)).getD []) f' := by
  intro counts hc
  obtain ⟨f', hvisit, h⟩ := visit_field comments hname hopen hnote level counts
  rw [hc name] at hvisit h
  exact ⟨f', _, congrArg (fun r : Shape × (List (String × Nat) × Unit) × Option Error =>
    (r.1, Tour.mk r.2.1 r.2.2)) hvisit, hc name ▸ hc.put name, h⟩

/-- A visit to a shape that is no field entry meets no name, and leaves it. -/
theorem meets_visit_other (hname : s.fieldName? = none) (level : Nat) :
    Meets (Tour.visit (visit comments level) s) seen [] (· = s) := by
  have hvisit : ∀ state, visit comments level s state = (s, state, none) := by
    intro state
    rw [visit, hname]
  intro counts hc
  exact ⟨s, counts, congrArg (fun r : Shape × (List (String × Nat) × Unit) × Option Error =>
    (r.1, Tour.mk r.2.1 r.2.2)) (hvisit (counts, ())), by rwa [List.append_nil], rfl⟩

/-! ### What a walk does -/

/-- The walk that puts comments onto the field entries of a shape. -/
abbrev walk (comments : Comments) : Nat → Nat → Shape → StateM Tally Shape :=
  Shape.editWithin fun level => Tour.visit (visit comments level)

/-- Comments behind those that are there. -/
abbrev behind (notes : List (List String)) (comments : Comments) (names : List (Nat × String)) :
    List (List String) :=
  notes.zipWith (· ++ ·) (known comments names)

/-- Comments are put onto two parts one after the other. -/
theorem behind_append {notes notes' : List (List String)} (h : notes.length = names.length) :
    behind (notes ++ notes') comments (ranks seen (names ++ names')) =
      behind notes comments (ranks seen names) ++
        behind notes' comments (ranks (seen ++ names) names') := by
  have hlength : notes.length = (known comments (ranks seen names)).length := by
    rw [known, List.length_map, length_ranks, h]
  rw [behind, known, ranks_append, List.map_append]
  exact List.zipWith_append hlength

variable {fuel level : Nat} {v : Json} {notes : List (List String)} {t : Shape}

theorem walk_of_frozen (h : s.frozen = true) : walk comments fuel level s = pure s :=
  Shape.editWithin_of_frozen h

/-- A walk over a leaf meets no name. -/
theorem meets_walk_atom (hv : Shape.Atom v t) (hs : Shape.Reads s t) :
    Meets (walk comments fuel level s) seen [] (Shape.Sampled v []) := by
  cases fuel with
  | zero => exact meets_pure (.atom hv hs)
  | succ fuel =>
    obtain ⟨hstruct, hvector, hname, hcontent, -⟩ := hv.leaf
    rw [walk, Shape.editWithin, hs.flag (by decide), hs.flag (by decide), hstruct, hvector]
    split
    · exact meets_pure (.atom hv hs)
    · change Meets _ seen ([] ++ []) _
      refine meets_bind (meets_visit_other (hs.fieldName?.trans hname) level) ?_
      rintro _ rfl
      rw [hs.fieldType?.trans hcontent]
      exact meets_pure (.atom hv hs)

theorem walk_vector {e : Shape} (hs : Shape.Reads s (.vector e)) (hopen : s.frozen = false) :
    walk comments (fuel + 1) level s = walk comments fuel (level + 1) e >>= fun e' =>
      pure (s.adding (Trait.generics.entry (Shape.listOf [e']))) :=
  Shape.editWithin_vector hs hopen

/-- A walk over a struct goes on in its field entries. -/
theorem walk_struct {fields : List Shape} (hs : Shape.Reads s (.struct name fields))
    (hopen : s.frozen = false) :
    walk comments (fuel + 1) level s =
      fields.mapM (walk comments fuel (level + 1)) >>= fun fields' =>
        pure (s.adding (Trait.fields.entry (Shape.listOf fields'))) :=
  Shape.editWithin_struct hs hopen

/-- A walk puts comments onto a field entry, and goes on below it. -/
theorem meets_walk_field (hs : Shape.Sampled v notes s) (hf : Shape.Reads f (.field name s))
    (hopen : f.frozen = false) (hnote : Shape.Noted note f)
    (hwalk : ∀ {seen}, Meets (walk comments fuel level s) seen v.walkedKeys
      (Shape.Sampled v (behind notes comments (ranks seen v.walkedKeys)))) :
    Meets (walk comments (fuel + 1) level f) seen (name :: v.walkedKeys) fun f' =>
      ∃ s', Shape.Sampled v (behind notes comments (ranks (seen ++ [name]) v.walkedKeys)) s' ∧
        Shape.Reads f' (.field name s') ∧ f'.frozen = false ∧
        Shape.Noted (note ++ (comments.lookup (seen.count name + 1, name)).getD []) f' := by
  rw [walk, Shape.editWithin, hopen, hf.flag (by decide), hf.flag (by decide)]
  change Meets _ seen ([name] ++ v.walkedKeys) _
  refine meets_bind
    (meets_visit_field (hf.fieldName?.trans (Shape.fieldName?_field name s)) hopen hnote level) ?_
  rintro f' ⟨hreads, hopen', hnote'⟩
  have hf' := hreads.trans hf
  simp only [hf'.fieldType?, Shape.fieldType?_field, hopen', Bool.or_false]
  split
  · next hfrozen =>
    obtain ⟨hkeys, rfl⟩ := hs.atom_of_frozen hfrozen
    rw [hkeys]
    exact meets_pure ⟨s, hs, hf', hopen', hnote'⟩
  · refine meets_map hwalk fun s' hs' => ⟨s', hs', Shape.reads_field_of hf' s', ?_, ?_⟩
    · exact (Shape.frozen_adding f' (Trait.fieldType.entry s'.toValue)).trans hopen'
    · rw [Shape.Noted, Record.get?_set_of_ne (by decide)]
      exact hnote'

mutual

/-- A walk meets the names of a sample and puts their comments behind those that are there. -/
theorem meets_walk : ∀ {v : Json} {notes : List (List String)} {s : Shape} {fuel level : Nat}
    {seen : List String}, Shape.Sampled v notes s → s.depth < fuel →
      Meets (walk comments fuel level s) seen v.walkedKeys
        (Shape.Sampled v (behind notes comments (ranks seen v.walkedKeys)))
  | .null, _, _, _, _, _, h, _ | .bool _, _, _, _, _, _, h, _ | .str _, _, _, _, _, _, h, _
  | .int _, _, _, _, _, _, h, _ | .float _, _, _, _, _, _, h, _ => by
      cases h with
      | atom hv hs => exact meets_walk_atom hv hs
  | .arr [], _, s, fuel + 1, level, seen, h, _ => by
      cases h with
      | atom hv => cases hv
      | empty hs hopen =>
        rw [walk_vector hs hopen, walk_of_frozen rfl]
        exact meets_pure
          (.empty (Shape.reads_vector_of hs _) ((Shape.frozen_adding _ _).trans hopen))
  | .arr (x :: xs), notes, s, fuel + 1, level, seen, h, hfuel => by
      cases h with
      | atom hv => cases hv
      | @vector _ _ _ _ e he hs hopen =>
        have hdepth : e.depth < s.depth := Shape.depth_lt_of_mem_generics (by
          rw [hs.generics, Shape.generics_vector]
          exact List.mem_singleton_self e)
        have hwalk : Meets (walk comments fuel (level + 1) e) seen x.walkedKeys
            (Shape.Sampled x (behind notes comments (ranks seen x.walkedKeys))) :=
          meets_walk he (by omega)
        rw [walk_vector hs hopen]
        exact meets_map hwalk fun e' he' =>
          .vector he' (Shape.reads_vector_of hs e') ((Shape.frozen_adding _ _).trans hopen)
  | .obj members, _, s, fuel + 1, level, seen, h, hfuel => by
      cases h with
      | atom hv => cases hv
      | @struct _ _ _ _ fields hf hs hopen =>
        -- Field entries are less deep, so the fuel lasts.
        have hdepth : ∀ f ∈ fields, f.depth < fuel := fun f hmem => by
          have hlt : f.depth < s.depth := Shape.depth_lt_of_mem_fields (by
            rwa [hs.fields, Shape.fields_struct])
          omega
        rw [walk_struct hs hopen]
        exact meets_map (meets_walk_members hf hdepth) fun fields' hf' =>
          .struct hf' (Shape.reads_struct_of hs fields') ((Shape.frozen_adding _ _).trans hopen)

/-- A walk over the entries of members meets the names in them, and puts their comments behind those
that are there. -/
theorem meets_walk_members : ∀ {members : List (String × Json)} {notes : List (List String)}
    {fields : List Shape} {fuel level : Nat} {seen : List String},
      Shape.SampledMembers members notes fields → (∀ f ∈ fields, f.depth < fuel) →
        Meets (fields.mapM (walk comments fuel level)) seen (Json.walkedKeys.ofMembers members)
          (Shape.SampledMembers members
            (behind notes comments (ranks seen (Json.walkedKeys.ofMembers members))))
  | [], _, _, _, _, _, h, _ => by
      cases h
      exact meets_pure .nil
  | (name, v) :: rest, _, _, fuel, level, seen, h, hfuel => by
      cases h with
      | @cons _ _ _ note notes notes' f s fields hs hf hopen hnote hfields =>
        obtain ⟨hdepth, hrest⟩ := List.forall_mem_cons.mp hfuel
        have hlt : s.depth < f.depth := Shape.depth_lt_of_fieldType?
          (hf.fieldType?.trans (Shape.fieldType?_field name s))
        obtain ⟨fuel, rfl⟩ : ∃ k, fuel = k + 1 := ⟨fuel - 1, by omega⟩
        have hfield : Meets (walk comments (fuel + 1) level f) seen (name :: v.walkedKeys) _ :=
          meets_walk_field hs hf hopen hnote (meets_walk hs (by omega))
        rw [List.mapM_cons]
        change Meets _ seen ((name :: v.walkedKeys) ++ Json.walkedKeys.ofMembers rest) _
        refine meets_bind hfield ?_
        rintro f' ⟨s', hs', hf', hopen', hnote'⟩
        refine meets_map (meets_walk_members hfields hrest) fun fields' hfields' => ?_
        have hcons := Shape.SampledMembers.cons hs' hf' hopen' hnote' hfields'
        have happend : behind (notes ++ notes') comments (ranks (seen ++ [name])
            (v.walkedKeys ++ Json.walkedKeys.ofMembers rest)) = _ := behind_append hs.length_notes
        rw [List.append_assoc, List.singleton_append] at happend
        rw [← happend] at hcons
        exact hcons

end


/-- A shape of a sample takes comments, which come behind those that are there. -/
theorem exists_annotate (h : Shape.Sampled v notes s) (comments : Comments) :
    ∃ s', annotate comments s = .ok s' ∧
      Shape.Sampled v (behind notes comments (ranks [] v.walkedKeys)) s' := by
  have hwalk : Meets (walk comments (s.depth + 1) 0 s) [] v.walkedKeys _ :=
    meets_walk h (Nat.lt_succ_self _)
  obtain ⟨s', counts, hrun, -, hs'⟩ := hwalk [] tallies_nil
  exact ⟨s', annotate_of_run hrun, hs'⟩

/-! ### Reading a sample -/

/-- Where there are no comments, those that are known are put. -/
theorem behind_nil (comments : Comments) (names : List String) :
    behind (names.map fun _ => []) comments (ranks [] names) = known comments (ranks [] names) := by
  have hnil : ∀ (names : List String) (ls : List (List String)), ls.length = names.length →
      (names.map fun _ => []).zipWith (· ++ ·) ls = ls := by
    intro names
    induction names with
    | nil => exact fun ls hls => (List.length_eq_zero_iff.mp hls).symm
    | cons name rest ih =>
      intro ls hls
      cases ls with
      | nil => cases hls
      | cons l ls => exact congrArg (l :: ·) (ih ls (Nat.succ.inj hls))
  exact hnil _ _ (by rw [known, List.length_map, length_ranks])

/-- A struct takes the name of the model, and then its comments. -/
theorem exists_named_annotate (h : Shape.Sampled v notes s) (hstruct : s.flag Trait.struct = true)
    (model : String) (comments : Comments) :
    ∃ s₁ s₂, s.replace (Trait.name.entry (.str model)) = .ok s₁ ∧ annotate comments s₁ = .ok s₂ ∧
      Shape.Sampled v (behind notes comments (ranks [] v.walkedKeys)) s₂ := by
  have hopen : s.frozen = false := h.open_of_flag (.inl hstruct)
  obtain ⟨s₂, hs₂, h₂⟩ := exists_annotate (h.named hstruct model) comments
  refine ⟨_, s₂, ?_, hs₂, h₂⟩
  rw [Shape.replace, Record.replace_of_open hopen rfl]
  rfl

/-- A shape of a sample is a struct just if the sample is an object. -/
theorem flag_struct_of_sampled (h : Shape.Sampled v notes s) :
    s.flag Trait.struct = v.asObj?.isSome := by
  cases h with
  | atom hv hs =>
    rw [hs.flag (by decide), hv.leaf.1]
    cases hv <;> rfl
  | empty hs | vector _ hs | struct _ hs => exact hs.flag (by decide)

end Walking

variable {model : String} {sample : Sample} {v : Json} {s : Shape} {supply supply' : Supply}

/-- The comments on the field entries of a sample that has been read. -/
def readNotes (model : String) (sample : Sample) (v : Json) : List (List String) :=
  if v.asObj?.isSome && !model.isEmpty then known (comments sample.text) (ranks [] v.walkedKeys)
  else v.walkedKeys.map fun _ => []

/-- What is left to do once the shape of a sample is there: a struct takes the name of the model,
and its comments. -/
def finish (model : String) (sample : Sample) (s : Shape) : Draft Parsed := do
  if s.flag Trait.struct && !model.isEmpty then
    let s ← Draft.ofExcept (s.replace (Trait.name.entry (.str model)))
    return .shape (← Draft.ofExcept (annotate (comments sample.text) s))
  else return .shape s

/-- A sample that holds a value is read as a shape of the value, if it implies one. -/
theorem exists_outcome_read (hparse : Json.parse (strip sample.text) = .ok v)
    (hshape : (Shape.ofSample v model).outcome supply = (.ok s, supply')) :
    ∃ s', (read model sample).outcome supply = (.ok (.shape s'), supply') ∧
      Shape.Sampled v (readNotes model sample v) s' := by
  have hs := Shape.sampled_of_makes_ofSample ⟨supply, congrArg Prod.fst hshape⟩
  have hread : (read model sample).outcome supply = (finish model sample s).outcome supply' := by
    rw [read, hparse]
    exact Draft.outcome_bind_ok hshape
  rw [hread, finish, readNotes, ← flag_struct_of_sampled hs]
  by_cases hnamed : (s.flag Trait.struct && !model.isEmpty) = true
  · rw [if_pos hnamed, if_pos hnamed]
    obtain ⟨s₁, s₂, h₁, h₂, hs₂⟩ := exists_named_annotate hs (Bool.and_eq_true_iff.mp hnamed).1
      model (comments sample.text)
    rw [h₁]
    refine ⟨s₂, ?_, behind_nil (comments sample.text) v.walkedKeys ▸ hs₂⟩
    change (Draft.outcome (Draft.ofExcept (annotate (comments sample.text) s₁) >>= _) supply') = _
    rw [h₂]
    rfl
  · rw [if_neg hnamed, if_neg hnamed]
    exact ⟨s, rfl, hs⟩

/-- What a sample is read as is a shape of the value that it holds. -/
theorem sampled_of_makes_read (hparse : Json.parse (strip sample.text) = .ok v)
    (h : (read model sample).Makes (.shape s)) :
    Shape.Sampled v (readNotes model sample v) s := by
  obtain ⟨supply, h⟩ := h
  cases hshape : (Shape.ofSample v model).outcome supply with
  | mk result supply' =>
    cases result with
    | error e =>
      have hread : (read model sample).outcome supply = (.error e, supply') := by
        rw [read, hparse]
        exact Draft.outcome_bind_error hshape
      rw [hread] at h
      cases h
    | ok s₀ =>
      obtain ⟨s', hread, hs'⟩ := exists_outcome_read hparse hshape
      rw [hread] at h
      cases h
      exact hs'

/-- A text that holds a value which implies a shape, and something about the value. -/
theorem exists_sample {α : Type} {text path : String} (f : Json → α) {a : α}
    (h : ((Json.parse (strip text)).toOption.bind fun v =>
      if ((Shape.ofSample v path).outcome {}).1.toBool then some (f v) else none) = some a) :
    ∃ v s, Json.parse (strip text) = .ok v ∧ (Shape.ofSample v path).Makes s ∧ f v = a := by
  cases hparse : Json.parse (strip text) with
  | error flaw =>
    rw [hparse] at h
    cases h
  | ok v =>
    rw [hparse] at h
    cases hs : ((Shape.ofSample v path).outcome {}).1 with
    | error e => simp [Except.toOption, Except.toBool, hs] at h
    | ok s => exact ⟨v, s, rfl, ⟨{}, hs⟩, by simpa [Except.toOption, Except.toBool, hs] using h⟩

end CommentedJson

end TypeSketch
