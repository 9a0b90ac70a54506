import TypeSketch.Proofs.Input.Annotating

/-!
# Shapes of samples — numbering along a walk

A walk that puts comments onto the shape of a sample calls once for every key of the sample, in the
order of the document, with how deep the key lies and how often its name has come
(`calls_of_sample`).  The calls are told by a visit that keeps a record of them (`recorded`), which
changes nothing else (`editNumbered_recorded`).

No call is left out, because what is frozen in the shape of a sample holds no keys
(`Sampled.atom_of_frozen`), and none goes astray, because comments are not read by the walk.

* `forgets_bind`, `forgets_mapM`, `forgets_tour`: recording goes through everything that a tour
  does;
* `calls_bind`, `calls_visit_field`, `calls_tour`: the calls of a tour, by the shape of a sample.
-/

namespace TypeSketch

/-- The keys of a value that stands at a level, each with the number of objects and arrays around
it, in the order of the document. Of an array the first element counts only. -/
def Json.placedKeys (level : Nat) : Json → List (Nat × String)
  | .obj members => ofMembers (level + 1) members
  | .arr (x :: _) => x.placedKeys (level + 1)
  | _ => []
where
  /-- The keys of members and those below them. -/
  ofMembers (level : Nat) : List (String × Json) → List (Nat × String)
    | [] => []
    | (name, v) :: rest => (level, name) :: (v.placedKeys level ++ ofMembers level rest)

namespace Shape

mutual

/-- The keys are the names that a walk over the shape of the value meets. -/
theorem map_snd_placedKeys :
    ∀ (v : Json) (level : Nat), (v.placedKeys level).map Prod.snd = v.walkedKeys
  | .null, _ | .bool _, _ | .str _, _ | .int _, _ | .float _, _ | .arr [], _ => rfl
  | .arr (x :: _), level => map_snd_placedKeys x (level + 1)
  | .obj members, level => map_snd_placedKeys_ofMembers members (level + 1)

/-- The keys of members are the names that a walk over their entries meets. -/
theorem map_snd_placedKeys_ofMembers : ∀ (members : List (String × Json)) (level : Nat),
    (Json.placedKeys.ofMembers level members).map Prod.snd = Json.walkedKeys.ofMembers members
  | [], _ => rfl
  | (name, v) :: rest, level => by
    rw [Json.placedKeys.ofMembers, Json.walkedKeys.ofMembers, List.map_cons, List.map_append,
      map_snd_placedKeys v level, map_snd_placedKeys_ofMembers rest level]

end

/-! ### Calls -/

/-- A visit of a walk that numbers. -/
abbrev Visit (σ : Type) :=
  (level nth : Nat) → (name : String) → Shape → σ → Shape × σ × Option Error

/-- What a visit is called with. -/
structure Call where
  level : Nat
  nth : Nat
  name : String

/-- Where a call stands in the document. -/
def Call.place (c : Call) : Nat × String := (c.level, c.name)

variable {σ : Type}

/-- A visit that keeps a record of its calls. -/
def recorded (visit : Visit σ) : Visit (List Call × σ) := fun level nth name s (calls, state) =>
  let (s, state, stopped) := visit level nth name s state
  (s, (calls ++ [⟨level, nth, name⟩], state), stopped)

/-- Append comments one after the other. -/
def remark (values : List Value) (s : Shape) : Except Error Shape :=
  values.foldlM (fun s v => s.append (Trait.beforeLineComment.entry v)) s

/-- The visit appends comments, goes on if all of them are taken, and changes nothing else. -/
def Remarking (visit : Visit σ) : Prop :=
  ∀ level nth name s state, ∃ values, ∀ s', remark values s = .ok s' →
    ∃ state', visit level nth name s state = (s', state', none)

/-- Each call has the number of its name: one more than there were calls for it before. -/
def Ranked (calls : List Call) : Prop :=
  ∀ before c after, calls = before ++ c :: after →
    c.nth = 1 + (before.map Call.name).count c.name

/-- One more call that has the number of its name keeps calls ranked. -/
theorem Ranked.concat {calls : List Call} (h : Ranked calls) {c : Call}
    (hc : c.nth = 1 + (calls.map Call.name).count c.name) : Ranked (calls ++ [c]) := by
  intro before d after hsplit
  rcases List.eq_nil_or_concat' after with rfl | ⟨after, e, rfl⟩
  · obtain ⟨rfl, hd⟩ := List.append_inj' hsplit rfl
    cases hd
    exact hc
  · rw [← List.cons_append, ← List.append_assoc] at hsplit
    exact h before d after (List.append_inj' hsplit rfl).1

/-- Count a field entry, and call the visit for it. -/
def counted (visit : Visit σ) (level : Nat) (s : Shape) (state : List (String × Nat) × σ) :
    Shape × (List (String × Nat) × σ) × Option Error :=
  match s.fieldName? with
  | none => (s, state, none)
  | some name =>
    let nth := (state.1.lookup name).getD 0 + 1
    let (s, rest, stopped) := visit level nth name s state.2
    (s, (Assoc.put name nth state.1, rest), stopped)

/-- A tour that counts names. -/
abbrev Counting (σ : Type) := StateM (Tour (List (String × Nat) × σ))

/-- The walk that counts the names of field entries and calls the visit for them. -/
abbrev tour (visit : Visit σ) : Nat → Nat → Shape → Counting σ Shape :=
  editWithin fun level => Tour.visit (counted visit level)

/-- What comes of a tour: the shape, the state, and the error that stopped it. -/
def tourResult (r : Shape × Tour (List (String × Nat) × σ)) : Shape × σ × Option Error :=
  (r.1, r.2.state.2, r.2.stopped)

theorem editNumbered_eq (visit : Visit σ) (s : Shape) (state : σ) : s.editNumbered visit state =
    tourResult ((tour visit (s.depth + 1) 0 s).run ⟨([], state), none⟩) := rfl

/-! ### Recording changes nothing -/

/-- A tour without its record. -/
def forget (t : Tour (List (String × Nat) × List Call × σ)) : Tour (List (String × Nat) × σ) :=
  ⟨(t.state.1, t.state.2.2), t.stopped⟩

variable {α β : Type}

/-- But for the record, both do the same. -/
def Forgets (x : Counting (List Call × σ) α) (y : Counting σ α) : Prop :=
  ∀ t, y.run (forget t) = ((x.run t).1, forget (x.run t).2)

theorem forgets_pure (a : α) : Forgets (σ := σ) (pure a) (pure a) := fun _ => rfl

/-- One step after the other may be recorded step by step. -/
theorem forgets_bind {x : Counting (List Call × σ) α} {y : Counting σ α}
    {f : α → Counting (List Call × σ) β} {g : α → Counting σ β} (hx : Forgets x y)
    (hf : ∀ a, Forgets (f a) (g a)) : Forgets (x >>= f) (y >>= g) := by
  intro t
  rw [StateT.run_bind, StateT.run_bind, hx t]
  exact hf _ _

/-- A step at each item may be recorded item by item. -/
theorem forgets_mapM {f : α → Counting (List Call × σ) β} {g : α → Counting σ β}
    (h : ∀ a, Forgets (f a) (g a)) : ∀ xs : List α, Forgets (xs.mapM f) (xs.mapM g)
  | [] => by
    rw [List.mapM_nil, List.mapM_nil]
    exact forgets_pure []
  | x :: xs => by
    rw [List.mapM_cons, List.mapM_cons]
    exact forgets_bind (h x) fun _ => forgets_bind (forgets_mapM h xs) fun _ => forgets_pure _

/-- A change of the shapes under a key may be recorded shape by shape. -/
theorem forgets_editListAt {f : Shape → Counting (List Call × σ) Shape}
    {g : Shape → Counting σ Shape} (h : ∀ s, Forgets (f s) (g s)) (key : String) (s : Shape) :
    Forgets (s.editListAt key f) (s.editListAt key g) := by
  rw [editListAt, editListAt, Record.modifyAt, Record.modifyAt]
  refine forgets_bind ?_ fun _ => forgets_pure _
  split
  · refine forgets_bind ?_ fun _ => forgets_pure _
    split
    · refine forgets_bind (forgets_mapM (fun v => ?_) _) fun _ => forgets_pure _
      cases v with
      | shape r => exact forgets_bind (h _) fun _ => forgets_pure _
      | _ => exact forgets_pure _
    · exact forgets_pure _
  · exact forgets_pure _

/-- To count with a record is to count, and to note the call where there is one. -/
theorem counted_recorded (visit : Visit σ) (level : Nat) (s : Shape) (counts : List (String × Nat))
    (calls : List Call) (state : σ) : counted visit level s (counts, state) =
      let r := counted (recorded visit) level s (counts, calls, state)
      (r.1, (r.2.1.1, r.2.1.2.2), r.2.2) := by
  rw [counted, counted]
  cases s.fieldName? <;> rfl

theorem run_visit {τ : Type} (f : α → τ → α × τ × Option Error) (a : α) (state : τ) :
    (Tour.visit f a).run ⟨state, none⟩ =
      ((f a state).1, ⟨(f a state).2.1, (f a state).2.2⟩) := rfl

/-- A visit may be recorded. -/
theorem forgets_visit (visit : Visit σ) (level : Nat) (s : Shape) :
    Forgets (Tour.visit (counted (recorded visit) level) s) (Tour.visit (counted visit level) s) := by
  rintro ⟨⟨counts, calls, state⟩, stopped⟩
  cases stopped with
  | some e => rfl
  | none =>
    rw [forget, run_visit, run_visit, counted_recorded visit level s counts calls state]
    rfl

/-- A tour may be recorded. -/
theorem forgets_tour (visit : Visit σ) (fuel level : Nat) (s : Shape) :
    Forgets (tour (recorded visit) fuel level s) (tour visit fuel level s) := by
  induction fuel generalizing level s with
  | zero => exact forgets_pure s
  | succ fuel ih =>
    rw [tour, tour, editWithin, editWithin]
    split
    · exact forgets_pure s
    split
    · exact forgets_editListAt (ih _) _ s
    split
    · exact forgets_editListAt (ih _) _ s
    refine forgets_bind (forgets_visit visit level s) fun s' => ?_
    split
    · split
      · exact forgets_pure s'
      · exact forgets_bind (ih _ _) fun _ => forgets_pure _
    · exact forgets_pure s'

/-- A record of the calls changes nothing else. -/
theorem editNumbered_recorded {visit : Visit σ} {s s' : Shape} {state state' : σ}
    {calls : List Call} {stopped : Option Error}
    (h : s.editNumbered (recorded visit) ([], state) = (s', (calls, state'), stopped)) :
    s.editNumbered visit state = (s', state', stopped) := by
  rw [editNumbered_eq] at h ⊢
  have hforget := forgets_tour visit (s.depth + 1) 0 s ⟨([], [], state), none⟩
  rw [forget] at hforget
  rw [hforget]
  generalize (tour (recorded visit) (s.depth + 1) 0 s).run _ = r at h
  obtain ⟨s₁, ⟨counts, log, state₁⟩, stopped₁⟩ := r
  cases h
  rfl

/-! ### Which calls there are -/

/-- The tour goes on after these calls, and knows how often each name has come. -/
structure Logged (t : Tour (List (String × Nat) × List Call × σ)) (calls : List Call) : Prop where
  going : t.stopped = none
  log : t.state.2.1 = calls
  tallies : CommentedJson.Tallies t.state.1 (calls.map Call.name)
  ranked : Ranked calls

/-- A tour that has not been stopped calls at `places`, is not stopped, and comes out as something
that meets `Q`. -/
def Calls (x : Counting (List Call × σ) α) (places : List (Nat × String)) (Q : α → Prop) : Prop :=
  ∀ t calls, Logged t calls → ∃ calls',
    Logged (x.run t).2 (calls ++ calls') ∧ calls'.map Call.place = places ∧ Q (x.run t).1

theorem calls_pure {Q : α → Prop} {a : α} (h : Q a) : Calls (σ := σ) (pure a) [] Q :=
  fun _ calls ht => ⟨[], (List.append_nil calls).symm ▸ ht, rfl, h⟩

/-- One tour after the other makes the calls of the first, and then those of the second. -/
theorem calls_bind {x : Counting (List Call × σ) α} {f : α → Counting (List Call × σ) β}
    {places places' : List (Nat × String)} {P : α → Prop} {Q : β → Prop} (hx : Calls x places P)
    (hf : ∀ a, P a → Calls (f a) places' Q) : Calls (x >>= f) (places ++ places') Q := by
  intro t calls ht
  obtain ⟨calls₁, ht₁, hplaces₁, ha⟩ := hx t calls ht
  obtain ⟨calls₂, ht₂, hplaces₂, hb⟩ := hf _ ha _ _ ht₁
  rw [StateT.run_bind]
  exact ⟨calls₁ ++ calls₂, List.append_assoc .. ▸ ht₂,
    by rw [List.map_append, hplaces₁, hplaces₂], hb⟩

/-- A tour, and then a last step without calls. -/
theorem calls_map {x : Counting (List Call × σ) α} {f : α → β} {places : List (Nat × String)}
    {P : α → Prop} {Q : β → Prop} (hx : Calls x places P) (hf : ∀ a, P a → Q (f a)) :
    Calls (x >>= fun a => pure (f a)) places Q := by
  have hbind : Calls (x >>= fun a => pure (f a)) (places ++ []) Q :=
    calls_bind hx fun a ha => calls_pure (hf a ha)
  rwa [List.append_nil] at hbind

variable {v : Json} {notes : List (List String)} {f s t : Shape} {name : String} {note : List String}
  {visit : Visit σ} {fuel level : Nat}

/-- An open shape with a list of comments or none takes one more. -/
theorem exists_append_comment (hopen : f.frozen = false)
    (hlist : ∀ v, f.get? Trait.beforeLineComment.key = some v → ∃ items, v = .list items)
    (comment : Value) : ∃ items, f.append (Trait.beforeLineComment.entry comment) =
      .ok (f.adding (Trait.beforeLineComment.entry (.list items))) := by
  cases hget : f.get? Trait.beforeLineComment.key with
  | none =>
    refine ⟨comment.elements, ?_⟩
    rw [append, Record.append_of_absent hopen rfl hget]
    rfl
  | some v =>
    obtain ⟨items, rfl⟩ := hlist v hget
    refine ⟨items ++ comment.elements, ?_⟩
    rw [append, Record.append_of_list hopen rfl hget]
    rfl

/-- It takes any number of them, and reads as before. -/
theorem exists_remark (comments : List Value) (hopen : f.frozen = false)
    (hlist : ∀ v, f.get? Trait.beforeLineComment.key = some v → ∃ items, v = .list items) :
    ∃ f', remark comments f = .ok f' ∧ Reads f' f ∧ f'.frozen = false := by
  induction comments generalizing f with
  | nil => exact ⟨f, rfl, .refl f, hopen⟩
  | cons comment rest ih =>
    obtain ⟨items, happend⟩ := exists_append_comment hopen hlist comment
    obtain ⟨f', hrest, hreads, hopen'⟩ := ih
      ((frozen_adding f (Trait.beforeLineComment.entry (.list items))).trans hopen) fun v hv => by
        have hself := Record.get?_set_self f.toRecord Trait.beforeLineComment.key (.list items)
        exact ⟨items, Option.some.inj (hv.symm.trans hself)⟩
    have hremark : Trait.beforeLineComment.key ∈ remarks := by decide
    refine ⟨f', ?_, hreads.trans (reads_adding_remark f hremark), hopen'⟩
    rw [remark, List.foldlM_cons, happend]
    exact hrest

/-- A field entry gets a call, and reads as before. -/
theorem calls_visit_field (hvisit : Remarking visit) (hname : f.fieldName? = some name)
    (hopen : f.frozen = false) (hnote : Noted note f) (level : Nat) :
    Calls (Tour.visit (counted (recorded visit) level) f) [(level, name)] fun f' =>
      Reads f' f ∧ f'.frozen = false := by
  rintro ⟨⟨counts, log, state⟩, stopped⟩ calls ⟨rfl, rfl, htallies, hranked⟩
  have hlist : ∀ v, f.get? Trait.beforeLineComment.key = some v → ∃ items, v = .list items := by
    rcases hnote with hnote | ⟨hnote, -⟩ <;> rw [hnote]
    · exact fun v hv => ⟨_, (Option.some.inj hv).symm⟩
    · exact nofun
  obtain ⟨comments, hcomments⟩ := hvisit level ((counts.lookup name).getD 0 + 1) name f state
  obtain ⟨f', hremark, hreads, hopen'⟩ := exists_remark comments hopen hlist
  obtain ⟨state', hcall⟩ := hcomments f' hremark
  have hcounted : counted (recorded visit) level f (counts, log, state) =
      (f', (Assoc.put name ((counts.lookup name).getD 0 + 1) counts,
        log ++ [⟨level, (counts.lookup name).getD 0 + 1, name⟩], state'), none) := by
    rw [counted, hname]
    simp only [recorded, hcall]
  rw [run_visit, hcounted]
  refine ⟨[⟨level, (counts.lookup name).getD 0 + 1, name⟩], ⟨rfl, rfl, ?_, ?_⟩, rfl, hreads, hopen'⟩
  · rw [List.map_append]
    exact htallies.put name
  · refine hranked.concat ?_
    rw [htallies name, Nat.add_comm]

/-- A shape that is no field entry gets no call, and stays. -/
theorem calls_visit_other (hname : s.fieldName? = none) (level : Nat) :
    Calls (Tour.visit (counted (recorded visit) level) s) [] (· = s) := by
  have hcounted : ∀ state, counted (recorded visit) level s state = (s, state, none) := by
    intro state
    rw [counted, hname]
  rintro ⟨state, stopped⟩ calls hlogged
  obtain rfl : stopped = none := hlogged.going
  rw [run_visit, hcounted]
  exact ⟨[], (List.append_nil calls).symm ▸ hlogged, rfl, rfl⟩

/-- A tour over a leaf makes no call. -/
theorem calls_tour_atom (hv : Atom v t) (hs : Reads s t) :
    Calls (tour (recorded visit) fuel level s) [] fun _ => True := by
  cases fuel with
  | zero => exact calls_pure trivial
  | succ fuel =>
    obtain ⟨hstruct, hvector, hname, hcontent, -⟩ := hv.leaf
    rw [tour, editWithin, hs.flag (by decide), hs.flag (by decide), hstruct, hvector]
    split
    · exact calls_pure trivial
    · change Calls _ ([] ++ []) _
      refine calls_bind (calls_visit_other (hs.fieldName?.trans hname) level) ?_
      rintro _ rfl
      rw [hs.fieldType?.trans hcontent]
      exact calls_pure trivial

/-- A tour calls for a field entry, and goes on below it. -/
theorem calls_tour_field (hvisit : Remarking visit) (hs : Sampled v notes s)
    (hf : Reads f (field name s)) (hopen : f.frozen = false) (hnote : Noted note f)
    (htour : Calls (tour (recorded visit) fuel level s) (v.placedKeys level) fun _ => True) :
    Calls (tour (recorded visit) (fuel + 1) level f) ((level, name) :: v.placedKeys level)
      fun _ => True := by
  rw [tour, editWithin, hopen, hf.flag (by decide), hf.flag (by decide)]
  change Calls _ ([(level, name)] ++ v.placedKeys level) _
  refine calls_bind
    (calls_visit_field hvisit (hf.fieldName?.trans (fieldName?_field name s)) hopen hnote level) ?_
  rintro f' ⟨hreads, hopen'⟩
  have hf' := hreads.trans hf
  simp only [hf'.fieldType?, fieldType?_field, hopen', Bool.or_false]
  split
  · next hfrozen =>
    have hnone : v.placedKeys level = [] :=
      List.map_eq_nil_iff.mp ((map_snd_placedKeys v level).trans (hs.atom_of_frozen hfrozen).1)
    rw [hnone]
    exact calls_pure trivial
  · exact calls_map htour fun _ _ => trivial

mutual

/-- A tour over the shape of a sample calls at the keys of the sample. -/
theorem calls_tour (hvisit : Remarking visit) : ∀ {v : Json} {notes : List (List String)}
    {s : Shape} {fuel level : Nat}, Sampled v notes s → s.depth < fuel →
      Calls (tour (recorded visit) fuel level s) (v.placedKeys level) fun _ => True
  | .null, _, _, _, _, h, _ | .bool _, _, _, _, _, h, _ | .str _, _, _, _, _, h, _
  | .int _, _, _, _, _, h, _ | .float _, _, _, _, _, h, _ => by
      cases h with
      | atom hv hs => exact calls_tour_atom hv hs
  | .arr [], _, s, fuel + 1, level, h, _ => by
      cases h with
      | atom hv => cases hv
      | empty hs hopen =>
        rw [tour, editWithin_vector hs hopen, editWithin_of_frozen rfl]
        exact calls_pure trivial
  | .arr (x :: xs), notes, s, fuel + 1, level, h, hfuel => by
      cases h with
      | atom hv => cases hv
      | @vector _ _ _ _ e he hs hopen =>
        have hdepth : e.depth < s.depth := depth_lt_of_mem_generics (by
          rw [hs.generics, generics_vector]
          exact List.mem_singleton_self e)
        rw [tour, editWithin_vector hs hopen]
        exact calls_map (calls_tour hvisit he (by omega)) fun _ _ => trivial
  | .obj members, _, s, fuel + 1, level, h, hfuel => by
      cases h with
      | atom hv => cases hv
      | @struct _ _ _ _ fields hf hs hopen =>
        have hdepth : ∀ f ∈ fields, f.depth < fuel := fun f hmem => by
          have hlt : f.depth < s.depth := depth_lt_of_mem_fields (by
            rwa [hs.fields, fields_struct])
          omega
        rw [tour, editWithin_struct hs hopen]
        exact calls_map (calls_tour_members hvisit hf hdepth) fun _ _ => trivial

/-- A tour over the entries of members calls at the keys of the members. -/
theorem calls_tour_members (hvisit : Remarking visit) : ∀ {members : List (String × Json)}
    {notes : List (List String)} {fields : List Shape} {fuel level : Nat},
      SampledMembers members notes fields → (∀ f ∈ fields, f.depth < fuel) →
        Calls (fields.mapM (tour (recorded visit) fuel level))
          (Json.placedKeys.ofMembers level members) fun _ => True
  | [], _, _, _, _, h, _ => by
      cases h
      exact calls_pure trivial
  | (name, v) :: rest, _, _, fuel, level, h, hfuel => by
      cases h with
      | @cons _ _ _ note notes notes' f s fields hs hf hopen hnote hfields =>
        obtain ⟨hdepth, hrest⟩ := List.forall_mem_cons.mp hfuel
        have hlt : s.depth < f.depth := depth_lt_of_fieldType?
          (hf.fieldType?.trans (fieldType?_field name s))
        obtain ⟨fuel, rfl⟩ : ∃ k, fuel = k + 1 := ⟨fuel - 1, by omega⟩
        rw [List.mapM_cons]
        change Calls _ (((level, name) :: v.placedKeys level) ++
          Json.placedKeys.ofMembers level rest) _
        refine calls_bind
          (calls_tour_field hvisit hs hf hopen hnote (calls_tour hvisit hs (by omega))) fun _ _ => ?_
        exact calls_map (calls_tour_members hvisit hfields hrest) fun _ _ => trivial

end

/-- A walk that puts comments onto the shape of a sample calls once for every key of the sample, in
the order of the document, with its level and with one more than the calls for its name before. -/
theorem calls_of_sample {path : String} (h : (ofSample v path).Makes s) (hvisit : Remarking visit)
    (state : σ) : ∃ s' calls state',
      s.editNumbered (recorded visit) ([], state) = (s', (calls, state'), none) ∧
        s.editNumbered visit state = (s', state', none) ∧
        calls.map (fun c => (c.level, c.name)) = v.placedKeys 0 ∧
        ∀ before c after, calls = before ++ c :: after →
          c.nth = 1 + (before.map Call.name).count c.name := by
  have hstart : Logged (σ := σ) ⟨([], [], state), none⟩ [] :=
    ⟨rfl, rfl, CommentedJson.tallies_nil, fun before c after hsplit => by simp at hsplit⟩
  have htour : Calls (tour (recorded visit) (s.depth + 1) 0 s) (v.placedKeys 0) fun _ => True :=
    calls_tour hvisit (sampled_of_makes_ofSample h) (Nat.lt_succ_self _)
  obtain ⟨calls, hlogged, hplaces, -⟩ := htour _ [] hstart
  have hrun := editNumbered_eq (recorded visit) s ([], state)
  generalize (tour (recorded visit) (s.depth + 1) 0 s).run _ = r at hlogged hrun
  obtain ⟨s', ⟨counts, log, state'⟩, stopped⟩ := r
  obtain ⟨rfl, rfl, -, hranked⟩ := hlogged
  exact ⟨s', log, state', hrun, editNumbered_recorded hrun, hplaces, hranked⟩

/-- A visit that puts the name and the number of the call onto a field entry, and counts calls. -/
def tagging : Visit Nat := fun _ nth name s n =>
  match s.append (Trait.beforeLineComment.entry (.str (name ++ "#" ++ toString nth))) with
  | .ok s => (s, n + 1, none)
  | .error e => (s, n, some e)

theorem remarking_tagging : Remarking tagging := by
  intro level nth name s n
  refine ⟨[.str (name ++ "#" ++ toString nth)], fun s' hs' => ⟨n + 1, ?_⟩⟩
  rw [remark, List.foldlM_cons] at hs'
  obtain ⟨s₁, happend, hs₁⟩ := Except.bind_eq_ok.mp hs'
  cases hs₁
  rw [tagging, happend]

/-- A sample whose names come more than once, at several levels. -/
def nestedSample : Json :=
  .obj [("id", .int 1), ("child", .obj [("id", .int 2), ("id_s", .arr [.arr [], .int 3])]),
    ("rows", .arr [.arr [.obj [("id", .str "3"), ("child", .null)]], .obj [("skipped", .null)]])]

theorem calls_of_nestedSample : ∃ s, (ofSample nestedSample "").Makes s ∧ Remarking tagging ∧
    ∃ s' calls n, s.editNumbered (recorded tagging) ([], 0) = (s', (calls, n), none) ∧
      s.editNumbered tagging 0 = (s', n, none) ∧
      calls.map (fun c => (c.level, c.name)) = [(1, "id"), (1, "child"), (2, "id"), (2, "id_s"),
        (1, "rows"), (4, "id"), (4, "child")] ∧
      ∀ before c after, calls = before ++ c :: after →
        c.nth = 1 + (before.map Call.name).count c.name := by
  have hok : ((ofSample nestedSample "").outcome {}).1.isOk = true := by decide
  obtain ⟨s, hs⟩ := Except.exists_of_isOk hok
  exact ⟨s, ⟨{}, hs⟩, remarking_tagging, calls_of_sample ⟨{}, hs⟩ remarking_tagging 0⟩

end Shape

end TypeSketch
