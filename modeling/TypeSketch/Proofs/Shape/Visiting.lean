import TypeSketch.Proofs.Record.Writing
import TypeSketch.Proofs.Shape.Sampled
import TypeSketch.Proofs.Tour

/-!
# Shapes — what walks visit

A walk visits a shape that is no composite one, and goes on to the shapes below (`Shape.below`).  A
walk that changes shapes passes by what is frozen: it meets what the other visits, but for frozen
shapes, which it leaves, where the other goes on (`visits_eq_flatMap_met`).  If its visits are mild
(`Shape.Mild`) it visits the open ones of those that it meets, in their order, and the frozen ones
stay as they are (`carries_edit`).  These are the visits to the shape that has lost everything
frozen (`visits_pruned`).

The inductions go by `induction_on_below`, and each statement about a walk is proved for a composite
shape and for a leaf, with one lemma for the list of a field (`carries_list`) and one for what a
field entry is for (`carries_content`).
-/

namespace TypeSketch

namespace Shape

variable {s t : Shape} {level : Nat}

/-! ### One step of a walk -/

/-- A walk goes into the shape, and does not visit it. -/
def isComposite (s : Shape) : Bool := s.flag Trait.struct || s.flag Trait.vector

/-- The visit of a shape itself. -/
def own (level : Nat) (s : Shape) : List (Nat × Shape) :=
  if s.isComposite then [] else [(level, s)]

/-- The shapes that a walk goes on to, each with its level. -/
def below (level : Nat) (s : Shape) : List (Nat × Shape) :=
  if s.flag Trait.struct then s.fields.map fun t => (level + 1, t)
  else if s.flag Trait.vector then s.generics.map fun t => (level + 1, t)
  else s.fieldType?.toList.map fun t => (level, t)

/-- What a walk goes on to is less deep. -/
theorem depth_lt_of_mem_below {c : Nat × Shape} (h : c ∈ s.below level) : c.2.depth < s.depth := by
  rw [below] at h
  split at h
  · obtain ⟨t, ht, rfl⟩ := List.mem_map.mp h
    exact depth_lt_of_mem_fields ht
  split at h
  · obtain ⟨t, ht, rfl⟩ := List.mem_map.mp h
    exact depth_lt_of_mem_generics ht
  · obtain ⟨t, ht, rfl⟩ := List.mem_map.mp h
    exact depth_lt_of_fieldType? (Option.mem_toList.mp ht)

/-- A walk visits a shape or not, and then what is below. -/
theorem visits_eq (level : Nat) (s : Shape) :
    s.visits level = s.own level ++ (s.below level).flatMap fun c => c.2.visits c.1 := by
  rw [visits, own, below, isComposite]
  cases s.flag Trait.struct with
  | true => simp [List.flatMap_map]
  | false =>
    cases s.flag Trait.vector with
    | true => simp [List.flatMap_map]
    | false =>
      simp only [Bool.false_eq_true, if_false, Bool.or_self]
      split
      · next t ht => simp [ht]
      · next ht => simp [ht]

/-- What a walk that changes shapes meets: what a walk visits, and the frozen shapes that it does
not go into. -/
def met (level : Nat) (s : Shape) : List (Nat × Shape) :=
  if s.frozen then [(level, s)]
  else s.own level ++ (s.below level).attach.flatMap fun ⟨c, _⟩ => met c.1 c.2
termination_by s.depth
decreasing_by exact depth_lt_of_mem_below ‹_›

theorem met_of_frozen (h : s.frozen = true) (level : Nat) : s.met level = [(level, s)] := by
  rw [met, if_pos h]

theorem met_of_open (h : s.frozen = false) (level : Nat) :
    s.met level = s.own level ++ (s.below level).flatMap fun c => c.2.met c.1 := by
  rw [met, h, if_neg Bool.false_ne_true]
  simp only [List.flatMap_subtype, List.unattach_attach]

/-- What holds of a shape if it holds of those below holds of every shape. -/
theorem induction_on_below {P : Nat → Shape → Prop}
    (step : ∀ level s, (∀ c ∈ s.below level, P c.1 c.2) → P level s) (level : Nat) (s : Shape) :
    P level s :=
  step level s fun c hc =>
    have := depth_lt_of_mem_below hc
    induction_on_below step c.1 c.2
termination_by s.depth

/-- A walk visits what the walk that changes shapes meets, and goes on below what is frozen. -/
theorem visits_eq_flatMap_met (level : Nat) (s : Shape) :
    s.visits level =
      (s.met level).flatMap fun c => if c.2.frozen then c.2.visits c.1 else [c] := by
  induction level, s using induction_on_below with
  | step level s ih =>
    cases hf : s.frozen with
    | true => rw [met_of_frozen hf, List.flatMap_singleton, hf, if_pos rfl]
    | false =>
      have hown : (s.own level).flatMap (fun c => if c.2.frozen then c.2.visits c.1 else [c]) =
          s.own level := by
        rw [own]
        split
        · rfl
        · rw [List.flatMap_singleton, hf, if_neg Bool.false_ne_true]
      rw [met_of_open hf, List.flatMap_append, hown, List.flatMap_assoc, visits_eq]
      exact congrArg _ (List.flatMap_congr ih)

/-- The visits of a walk that changes shapes: the shapes that it meets, but for the frozen ones. -/
def reached (level : Nat) (s : Shape) : List (Nat × Shape) := (s.met level).filter (!·.2.frozen)

theorem reached_of_frozen (h : s.frozen = true) (level : Nat) : s.reached level = [] := by
  rw [reached, met_of_frozen h, List.filter_cons_of_neg (by simp [h]), List.filter_nil]

/-- A walk that changes shapes visits an open one, unless it is composite, and then what is below.
-/
theorem reached_of_open (h : s.frozen = false) (level : Nat) :
    s.reached level = s.own level ++ (s.below level).flatMap fun c => c.2.reached c.1 := by
  have hown : (s.own level).filter (!·.2.frozen) = s.own level := by
    rw [own]
    split
    · rfl
    · rw [List.filter_cons_of_pos (by simp [h]), List.filter_nil]
  rw [reached, met_of_open h, List.filter_append, hown, List.filter_flatMap]
  rfl

/-! ### Walks that change shapes -/

section

variable {σ γ : Type} {act : σ → γ → σ} {f : Field} {P : Shape → Shape → Prop}
  {g : Shape → StateM (Tour σ) Shape} {callsOf : Shape → List γ}

/-- An item of a list whose shapes are changed. -/
inductive EditedItem (P : Shape → Shape → Prop) : Value → Value → Prop
  | shape {s t : Shape} (h : P s t) : EditedItem P s.toValue t.toValue
  | other {v : Value} (h : v.asShape? = none) : EditedItem P v v

theorem EditedItem.rel {v w : Value} (h : EditedItem P v w) :
    Option.Rel P v.asShape? w.asShape? := by
  cases h with
  | shape h => exact .some h
  | other h => rw [h]; exact .none

theorem shapes_of_list {items : List Value} (h : s.get? f.key = some (.list items)) :
    s.shapes f = items.filterMap Value.asShape? := by
  rw [Record.shapes, Record.items, Record.field?, h]
  rfl

/-- A field that holds no list lists no shapes. -/
theorem shapes_of_other (hf : f.absent? = some (.list []))
    (h : ∀ items, s.get? f.key ≠ some (.list items)) : s.shapes f = [] := by
  rw [Record.shapes, Record.items, Record.field?, hf]
  cases hget : s.get? f.key with
  | none => rfl
  | some v =>
    cases v with
    | list items => exact absurd hget (h items)
    | _ => rfl

/-- A shape after the shapes in the list of a field have been changed. -/
structure Relisted (f : Field) (P : Shape → Shape → Prop) (s s' : Shape) : Prop where
  frozen : s'.frozen = s.frozen
  others : ∀ key, key ≠ f.key → s'.get? key = s.get? key
  shapes : List.Forall₂ P (s.shapes f) (s'.shapes f)

/-- Writing one list in place of another changes the shapes in it only. -/
theorem relisted_set {w : Value}
    (h : List.Forall₂ P (s.shapes f) (Record.shapes (s.toRecord.set f.key w) f)) :
    Relisted f P s ⟨s.toRecord.set f.key w⟩ where
  frozen := Record.frozen_set ..
  others _ hkey := Record.get?_set_of_ne hkey ..
  shapes := h

/-- Changing the shapes in the list under a key goes through them, and keeps everything else. -/
theorem carries_editListAt (hf : f.absent? = some (.list []))
    (h : ∀ t ∈ s.shapes f, Tour.Carries act (g t) (P t) (callsOf t)) :
    Tour.Carries act (s.editListAt f.key g) (Relisted f P s) ((s.shapes f).flatMap callsOf) := by
  rw [editListAt, Record.modifyAt]
  cases hget : s.get? f.key with
  | none =>
    have hnone : s.shapes f = [] := shapes_of_other hf (by simp [hget])
    rw [hnone]
    refine Tour.carries_map (P := fun r => r = s.toRecord) (Tour.carries_pure rfl) ?_
    rintro _ rfl
    exact ⟨rfl, fun _ _ => rfl, by rw [hnone]; exact .nil⟩
  | some v =>
    refine Tour.carries_map (P := fun r => Relisted f P s ⟨r⟩) ?_ fun r hr => hr
    have hself : ∀ w, (⟨s.toRecord.set f.key w⟩ : Shape).get? f.key = some w := fun w =>
      Record.get?_set_self ..
    cases v with
    | list items =>
      have hshapes : s.shapes f = items.filterMap Value.asShape? := shapes_of_list hget
      have hitems : ∀ {items'}, List.Forall₂ (EditedItem P) items items' →
          Relisted f P s ⟨s.toRecord.set f.key (.list items')⟩ := fun {items'} h => by
        refine relisted_set ?_
        rw [hshapes, shapes_of_list (hself _)]
        exact List.rel_filterMap (fun _ _ hitem => hitem.rel) h
      refine Tour.carries_map (P := fun w => Relisted f P s ⟨s.toRecord.set f.key w⟩) ?_
        fun w hw => hw
      rw [hshapes]
      refine Tour.carries_map (P := List.Forall₂ (EditedItem P) items)
        (Tour.carries_mapM_parts fun v hv => ?_) fun items' h => hitems h
      -- an item is a shape that is replaced, or stays
      cases v with
      | shape r =>
        have hmem : (⟨r⟩ : Shape) ∈ s.shapes f :=
          hshapes ▸ List.mem_filterMap.mpr ⟨_, hv, rfl⟩
        exact (Tour.carries_map (h _ hmem) fun t ht => .shape ht).of_eq (by simp [Value.asShape?])
      | _ => exact Tour.carries_pure (.other rfl)
    | _ =>
      have hnone : s.shapes f = [] := shapes_of_other hf (by simp [hget])
      rw [hnone]
      refine Tour.carries_map (P := fun w => s.get? f.key = some w) (Tour.carries_pure hget) ?_
      intro w hw
      refine relisted_set ?_
      rw [hnone, shapes_of_other hf fun items hitems => ?_]
      · exact .nil
      · cases hw.symm.trans hget
        cases (hself _).symm.trans hitems

end

/-! ### What is frozen -/

/-- What a walk meets in two shapes stands at the same levels, and what is frozen is the same. -/
def KeepsFrozen (level : Nat) (s s' : Shape) : Prop :=
  List.Forall₂ (fun c c' => c'.1 = c.1 ∧ c'.2.frozen = c.2.frozen ∧ (c.2.frozen = true → c' = c))
    (s.met level) (s'.met level)

theorem keepsFrozen_refl (level : Nat) (s : Shape) : KeepsFrozen level s s :=
  List.forall₂_same.mpr fun _ _ => ⟨rfl, rfl, fun _ => rfl⟩

/-- What is frozen stays if it stays below an open shape. -/
theorem keepsFrozen_of_below {s' : Shape} (hopen : s.frozen = false) (hopen' : s'.frozen = false)
    (hcomposite : s'.isComposite = s.isComposite)
    (hbelow : List.Forall₂ (fun c c' => c'.1 = c.1 ∧ KeepsFrozen c.1 c.2 c'.2) (s.below level)
      (s'.below level)) : KeepsFrozen level s s' := by
  rw [KeepsFrozen, met_of_open hopen, met_of_open hopen']
  refine List.rel_append ?_ (List.rel_flatMap hbelow fun c c' ⟨hlevel, hc⟩ => ?_)
  · rw [own, own, hcomposite]
    split
    · exact .nil
    · exact .cons ⟨rfl, hopen'.trans hopen.symm, fun hf => by rw [hopen] at hf; cases hf⟩ .nil
  · rw [hlevel]
    exact hc

/-! ### Mild visits -/

section

variable {σ : Type} {visit : Nat → Shape → σ → Shape × σ × Option Error}

/-- The keys that a walk goes by. -/
def route : List String :=
  [Trait.struct.key, Trait.vector.key, Trait.fields.key, Trait.generics.key, Trait.fieldType.key]

/-- A visit that is never stopped, leaves a shape open, and keeps what a walk goes by. -/
structure Mild (visit : Nat → Shape → σ → Shape × σ × Option Error) : Prop where
  goesOn : ∀ level s state, s.frozen = false → (visit level s state).2.2 = none
  staysOpen : ∀ level s state, s.frozen = false → (visit level s state).1.frozen = false
  keepsRoute : ∀ level s state, s.frozen = false →
    ∀ key ∈ route, (visit level s state).1.get? key = s.get? key

/-- What a visit makes of the state. -/
def after (visit : Nat → Shape → σ → Shape × σ × Option Error) (state : σ) (c : Nat × Shape) : σ :=
  (visit c.1 c.2 state).2.1

/-- To note what a visit is called with does not make it less mild. -/
theorem Mild.noting (h : Mild visit) :
    Mild fun level => Tour.noting (fun s => (level, s)) (visit level) where
  goesOn level s state hopen := h.goesOn level s state.2 hopen
  staysOpen level s state hopen := h.staysOpen level s state.2 hopen
  keepsRoute level s state hopen := h.keepsRoute level s state.2 hopen

/-- A mild visit goes on, and leaves the shape open and what a walk goes by. -/
theorem Mild.carries_visit (hvisit : Mild visit) (hopen : s.frozen = false) (level : Nat) :
    Tour.Carries (after visit) (Tour.visit (visit level) s)
      (fun s' => s'.frozen = false ∧ ∀ key ∈ route, s'.get? key = s.get? key) [(level, s)] :=
  Tour.carries_visit fun state => ⟨⟨hvisit.staysOpen level s state hopen,
    hvisit.keepsRoute level s state hopen⟩,
      Prod.ext rfl (hvisit.goesOn level s state hopen)⟩

theorem field?_congr {s' : Shape} {f : Field} (h : s'.get? f.key = s.get? f.key) :
    s'.field? f = s.field? f := by
  rw [Record.field?, Record.field?, h]

theorem flag_congr {s' : Shape} {f : Field} (h : s'.get? f.key = s.get? f.key) :
    s'.flag f = s.flag f := by
  rw [Record.flag, Record.flag, field?_congr h]

theorem isComposite_congr {s' : Shape}
    (hstruct : s'.get? Trait.struct.key = s.get? Trait.struct.key)
    (hvector : s'.get? Trait.vector.key = s.get? Trait.vector.key) :
    s'.isComposite = s.isComposite := by
  rw [isComposite, isComposite, flag_congr hstruct, flag_congr hvector]

theorem fieldType?_congr {s' : Shape}
    (h : s'.get? Trait.fieldType.key = s.get? Trait.fieldType.key) :
    s'.fieldType? = s.fieldType? := by
  rw [fieldType?, fieldType?, Record.shape?, Record.shape?, field?_congr h]

theorem below_of_struct (h : s.flag Trait.struct = true) :
    s.below level = s.fields.map fun t => (level + 1, t) := by
  rw [below, if_pos h]

theorem below_of_vector (hstruct : s.flag Trait.struct = false) (h : s.flag Trait.vector = true) :
    s.below level = s.generics.map fun t => (level + 1, t) := by
  rw [below, hstruct, if_neg Bool.false_ne_true, if_pos h]

theorem below_of_leaf (h : s.isComposite = false) :
    s.below level = s.fieldType?.toList.map fun t => (level, t) := by
  obtain ⟨hstruct, hvector⟩ := Bool.or_eq_false_iff.mp h
  rw [below, hstruct, hvector, if_neg Bool.false_ne_true, if_neg Bool.false_ne_true]

/-- A walk into the list of a field. -/
theorem carries_list {f : Field} {act : σ → Nat × Shape → σ} {g : Shape → StateM (Tour σ) Shape}
    (hf : f.absent? = some (.list [])) (hopen : s.frozen = false)
    (hcomposite : s.isComposite = true)
    (hroute : Trait.struct.key ≠ f.key ∧ Trait.vector.key ≠ f.key)
    (hbelow : ∀ s' : Shape, s'.flag Trait.struct = s.flag Trait.struct →
      s'.flag Trait.vector = s.flag Trait.vector →
        s'.below level = (s'.shapes f).map fun t => (level + 1, t))
    (h : ∀ t ∈ s.shapes f,
      Tour.Carries act (g t) (KeepsFrozen (level + 1) t) (t.reached (level + 1))) :
    Tour.Carries act (s.editListAt f.key g) (KeepsFrozen level s) (s.reached level) := by
  have hcalls : (s.shapes f).flatMap (reached (level + 1)) = s.reached level := by
    rw [reached_of_open hopen, own, hcomposite, if_pos rfl, List.nil_append, hbelow s rfl rfl,
      List.flatMap_map]
  refine ((carries_editListAt hf h).imp fun s' hs' => ?_).of_eq hcalls
  have hstruct := hs'.others _ hroute.1
  have hvector := hs'.others _ hroute.2
  refine keepsFrozen_of_below hopen (hs'.frozen.trans hopen) (isComposite_congr hstruct hvector) ?_
  rw [hbelow s rfl rfl, hbelow s' (flag_congr hstruct) (flag_congr hvector),
    List.forall₂_map_left_iff, List.forall₂_map_right_iff]
  exact hs'.shapes.imp fun _ _ ht => ⟨rfl, ht⟩

/-- What comes of a visit, and of the walk below it. -/
theorem keepsFrozen_of_leaf {s' : Shape} (hopen : s.frozen = false) (hopen' : s'.frozen = false)
    (hleaf : s.isComposite = false) (hleaf' : s'.isComposite = false)
    (htype : Option.Rel (KeepsFrozen level) s.fieldType? s'.fieldType?) :
    KeepsFrozen level s s' := by
  refine keepsFrozen_of_below hopen hopen' (hleaf'.trans hleaf.symm) ?_
  rw [below_of_leaf hleaf, below_of_leaf hleaf', List.forall₂_map_left_iff,
    List.forall₂_map_right_iff]
  generalize s.fieldType? = content at htype ⊢
  generalize s'.fieldType? = content' at htype ⊢
  cases htype with
  | none => exact .nil
  | some h => exact .cons ⟨rfl, h⟩ .nil

/-- The walk goes on behind a visit, to the shape of a field. -/
theorem carries_content {s' : Shape} {act : σ → Nat × Shape → σ}
    {g : Shape → StateM (Tour σ) Shape} (hopen : s.frozen = false) (hopen' : s'.frozen = false)
    (hleaf : s.isComposite = false) (hroute : ∀ key ∈ route, s'.get? key = s.get? key)
    (h : ∀ t, s.fieldType? = some t →
      Tour.Carries act (g t) (KeepsFrozen level t) (t.reached level)) :
    Tour.Carries act
      (match s'.fieldType? with
        | some t =>
          if t.frozen || s'.frozen then pure s'
          else do return ⟨s'.set Trait.fieldType.key (← g t).toValue⟩
        | none => pure s')
      (KeepsFrozen level s) (s.fieldType?.toList.flatMap (reached level)) := by
  have hleaf' : s'.isComposite = false :=
    (isComposite_congr (hroute _ (by decide)) (hroute _ (by decide))).trans hleaf
  rw [fieldType?_congr (hroute _ (by decide))]
  cases htype : s.fieldType? with
  | none =>
    refine Tour.carries_pure (keepsFrozen_of_leaf hopen hopen' hleaf hleaf' ?_)
    rw [fieldType?_congr (hroute _ (by decide)), htype]
    exact .none
  | some t =>
    dsimp only
    rw [hopen', Bool.or_false, Option.toList_some, List.flatMap_singleton]
    -- A frozen shape is left where it is; any other is walked, and only its key is written.
    cases hfrozen : t.frozen with
    | true =>
      rw [reached_of_frozen hfrozen]
      refine Tour.carries_pure (keepsFrozen_of_leaf hopen hopen' hleaf hleaf' ?_)
      rw [fieldType?_congr (hroute _ (by decide)), htype]
      exact .some (keepsFrozen_refl level t)
    | false =>
      refine Tour.carries_map (h t htype) fun t' ht' => ?_
      have hother : ∀ key, key ≠ Trait.fieldType.key →
          (⟨s'.toRecord.set Trait.fieldType.key t'.toValue⟩ : Shape).get? key = s'.get? key :=
        fun key hkey => Record.get?_set_of_ne hkey ..
      refine keepsFrozen_of_leaf hopen ((Record.frozen_set ..).trans hopen') hleaf
        ((isComposite_congr (hother _ (by decide)) (hother _ (by decide))).trans hleaf') ?_
      rw [htype, fieldType?, Record.shape?, Record.field?, Record.get?_set_self]
      exact .some ht'

/-- A walk whose visits are mild visits what it reaches, and what is frozen stays. -/
theorem carries_editWithin (hvisit : Mild visit) : ∀ (fuel level : Nat) (s : Shape),
    s.depth < fuel →
      Tour.Carries (after visit) (editWithin (fun level => Tour.visit (visit level)) fuel level s)
        (KeepsFrozen level s) (s.reached level)
  | fuel + 1, level, s, hdepth => by
    have hwalk : ∀ {level t}, t.depth < s.depth → Tour.Carries (after visit)
        (editWithin (fun level => Tour.visit (visit level)) fuel level t) (KeepsFrozen level t)
          (t.reached level) := fun hlt => carries_editWithin hvisit fuel _ _ (by omega)
    rw [editWithin]
    cases hopen : s.frozen with
    | true =>
      rw [reached_of_frozen hopen]
      exact Tour.carries_pure (keepsFrozen_refl level s)
    | false =>
    cases hstruct : s.flag Trait.struct with
    | true =>
      refine carries_list rfl hopen (by rw [isComposite, hstruct, Bool.true_or]) (by decide) ?_
        fun t ht => hwalk (depth_lt_of_mem_fields ht)
      exact fun s' hs' _ => below_of_struct (hs'.trans hstruct)
    | false =>
    cases hvector : s.flag Trait.vector with
    | true =>
      refine carries_list rfl hopen (by rw [isComposite, hvector, Bool.or_true]) (by decide) ?_
        fun t ht => hwalk (depth_lt_of_mem_generics ht)
      exact fun s' hs' hv' => below_of_vector (hs'.trans hstruct) (hv'.trans hvector)
    | false =>
      have hleaf : s.isComposite = false := by rw [isComposite, hstruct, hvector, Bool.or_false]
      have hcalls : s.reached level =
          [(level, s)] ++ s.fieldType?.toList.flatMap (reached level) := by
        rw [reached_of_open hopen, own, hleaf, below_of_leaf hleaf, List.flatMap_map]
        rfl
      rw [if_neg Bool.false_ne_true, if_neg Bool.false_ne_true, if_neg Bool.false_ne_true, hcalls]
      -- The visit comes first; the walk goes on in what it has left on the route.
      refine Tour.carries_bind (hvisit.carries_visit hopen level) fun s' ⟨hopen', hroute⟩ => ?_
      exact carries_content hopen hopen' hleaf hroute fun t ht =>
        hwalk (depth_lt_of_fieldType? ht)

/-- A walk from the top. -/
theorem carries_edit (hvisit : Mild visit) (s : Shape) :
    Tour.Carries (after visit) (s.edit fun level => Tour.visit (visit level)) (KeepsFrozen 0 s)
      (s.reached 0) :=
  carries_editWithin hvisit _ 0 s (Nat.lt_succ_self _)

end

/-! ### A shape without what is frozen -/

/-- The shape without anything under a key. -/
def clearing (s : Shape) (key : String) : Shape :=
  ⟨{ s.toRecord with
    declared := Assoc.erase key s.declared
    extra := Assoc.erase key s.extra }⟩

/-- The shape without the frozen shapes that a walk meets below it. -/
def pruned (s : Shape) : Shape :=
  if s.flag Trait.struct then
    s.adding (Trait.fields.entry (listOf
      ((s.fields.filter (!·.frozen)).attach.map fun ⟨t, _⟩ => pruned t)))
  else if s.flag Trait.vector then
    s.adding (Trait.generics.entry (listOf
      ((s.generics.filter (!·.frozen)).attach.map fun ⟨t, _⟩ => pruned t)))
  else
    match _h : s.fieldType? with
    | some t =>
      if t.frozen then s.clearing Trait.fieldType.key
      else s.adding (Trait.fieldType.entry (pruned t).toValue)
    | none => s
termination_by s.depth
decreasing_by
  · exact depth_lt_of_mem_fields (List.mem_of_mem_filter ‹_›)
  · exact depth_lt_of_mem_generics (List.mem_of_mem_filter ‹_›)
  · exact depth_lt_of_fieldType? ‹_›

/-- A key that is cleared holds nothing. -/
theorem get?_clearing_self (s : Shape) (key : String) : (s.clearing key).get? key = none := by
  have hnone : ∀ table : List (String × Value), (Assoc.erase key table).lookup key = none :=
    fun table => Assoc.lookup_eq_none_iff.mpr fun hmem => by
      obtain ⟨e, he, rfl⟩ := List.mem_map.mp hmem
      simpa using (List.mem_filter.mp he).2
  rw [clearing, Record.get?, hnone, hnone]

theorem get?_clearing_of_ne {key key' : String} (h : key' ≠ key) (s : Shape) :
    (s.clearing key).get? key' = s.get? key' := by
  rw [clearing, Record.get?, Record.get?, Assoc.lookup_erase_of_ne h, Assoc.lookup_erase_of_ne h]

/-! #### Writing the list or the shape of a field -/

theorem get?_entry_of_ne {key : String} {f : Field} (h : key ≠ f.key) (s : Shape) (v : Value) :
    (s.adding (f.entry v)).get? key = s.get? key :=
  Record.get?_set_of_ne h ..

theorem isComposite_entry {f : Field} (hstruct : Trait.struct.key ≠ f.key)
    (hvector : Trait.vector.key ≠ f.key) (s : Shape) (v : Value) :
    (s.adding (f.entry v)).isComposite = s.isComposite :=
  isComposite_congr (get?_entry_of_ne hstruct s v) (get?_entry_of_ne hvector s v)

theorem shapes_entry {f : Field} (hf : f.kind = .list) (s : Shape) (ts : List Shape) :
    (s.adding (f.entry (listOf ts))).shapes f = ts := by
  refine shapes_listOf ((Record.get?_set_self ..).trans ?_)
  rw [Entry.stored, Field.entry, hf]
  rfl

theorem below_fields_entry (h : s.flag Trait.struct = true) (level : Nat) (ts : List Shape) :
    (s.adding (Trait.fields.entry (listOf ts))).below level = ts.map fun t => (level + 1, t) := by
  have hflag : (s.adding (Trait.fields.entry (listOf ts))).flag Trait.struct = true :=
    (flag_congr (get?_entry_of_ne (by decide) s _)).trans h
  rw [below_of_struct hflag, fields, shapes_entry rfl]

/-- Below a vector are the shapes that are written into it. -/
theorem below_generics_entry (hstruct : s.flag Trait.struct = false)
    (h : s.flag Trait.vector = true) (level : Nat) (ts : List Shape) :
    (s.adding (Trait.generics.entry (listOf ts))).below level = ts.map fun t => (level + 1, t) := by
  have hflag : (s.adding (Trait.generics.entry (listOf ts))).flag Trait.vector = true :=
    (flag_congr (get?_entry_of_ne (by decide) s _)).trans h
  have hnone : (s.adding (Trait.generics.entry (listOf ts))).flag Trait.struct = false :=
    (flag_congr (get?_entry_of_ne (by decide) s _)).trans hstruct
  rw [below_of_vector hnone hflag, generics, shapes_entry rfl]

/-- Below a field entry is the shape that is written into it. -/
theorem below_fieldType_entry (h : s.isComposite = false) (level : Nat) (t : Shape) :
    (s.adding (Trait.fieldType.entry t.toValue)).below level = [(level, t)] := by
  have hleaf : (s.adding (Trait.fieldType.entry t.toValue)).isComposite = false :=
    (isComposite_entry (by decide) (by decide) s _).trans h
  have hget : (s.adding (Trait.fieldType.entry t.toValue)).get? Trait.fieldType.key =
      some t.toValue := Record.get?_set_self ..
  rw [below_of_leaf hleaf, fieldType?, Record.shape?, Record.field?, hget]
  rfl

theorem isComposite_clearing (s : Shape) :
    (s.clearing Trait.fieldType.key).isComposite = s.isComposite :=
  isComposite_congr (get?_clearing_of_ne (by decide) s) (get?_clearing_of_ne (by decide) s)

theorem below_clearing (h : s.isComposite = false) (level : Nat) :
    (s.clearing Trait.fieldType.key).below level = [] := by
  rw [below_of_leaf ((isComposite_clearing s).trans h), fieldType?, Record.shape?, Record.field?,
    get?_clearing_self]
  rfl

/-! #### Walking it -/

theorem pruned_of_struct (h : s.flag Trait.struct = true) :
    s.pruned = s.adding (Trait.fields.entry (listOf
      ((s.fields.filter (!·.frozen)).map pruned))) := by
  rw [pruned, if_pos h]
  simp only [List.map_subtype, List.unattach_attach]

/-- A vector loses a frozen element, and any other is pruned. -/
theorem pruned_of_vector (hstruct : s.flag Trait.struct = false)
    (h : s.flag Trait.vector = true) :
    s.pruned = s.adding (Trait.generics.entry (listOf
      ((s.generics.filter (!·.frozen)).map pruned))) := by
  rw [pruned, hstruct, if_neg Bool.false_ne_true, if_pos h]
  simp only [List.map_subtype, List.unattach_attach]

/-- A field entry loses a frozen shape, and any other is pruned. -/
theorem pruned_of_leaf (h : s.isComposite = false) :
    s.pruned = match s.fieldType? with
      | some t =>
        if t.frozen then s.clearing Trait.fieldType.key
        else s.adding (Trait.fieldType.entry t.pruned.toValue)
      | none => s := by
  obtain ⟨hstruct, hvector⟩ := Bool.or_eq_false_iff.mp h
  rw [pruned, hstruct, hvector, if_neg Bool.false_ne_true, if_neg Bool.false_ne_true]
  split
  · next t ht => rw [ht]
  · next ht => rw [ht]

/-- A shape without what is frozen is walked like the shape, as far as that is open. -/
theorem below_pruned (s : Shape) : s.pruned.isComposite = s.isComposite ∧ ∀ level,
    s.pruned.below level =
      ((s.below level).filter (!·.2.frozen)).map fun c => (c.1, c.2.pruned) := by
  have hlist : ∀ (ts : List Shape) (level : Nat),
      ((ts.filter (!·.frozen)).map pruned).map (fun t => (level, t)) =
        ((ts.map fun t => (level, t)).filter (!·.2.frozen)).map fun c => (c.1, c.2.pruned) := by
    intro ts level
    rw [List.filter_map, List.map_map, List.map_map]
    rfl
  cases hstruct : s.flag Trait.struct with
  | true =>
    rw [pruned_of_struct hstruct]
    refine ⟨isComposite_entry (by decide) (by decide) s _, fun level => ?_⟩
    rw [below_fields_entry hstruct, below_of_struct hstruct, hlist]
  | false =>
  cases hvector : s.flag Trait.vector with
  | true =>
    rw [pruned_of_vector hstruct hvector]
    refine ⟨isComposite_entry (by decide) (by decide) s _, fun level => ?_⟩
    rw [below_generics_entry hstruct hvector, below_of_vector hstruct hvector, hlist]
  | false =>
    have hleaf : s.isComposite = false := by rw [isComposite, hstruct, hvector, Bool.or_false]
    rw [pruned_of_leaf hleaf]
    cases htype : s.fieldType? with
    | none => exact ⟨rfl, fun level => by rw [below_of_leaf hleaf, htype]; rfl⟩
    | some t =>
      dsimp only
      cases hfrozen : t.frozen with
      | true =>
        rw [if_pos rfl]
        refine ⟨isComposite_clearing s, fun level => ?_⟩
        simp [below_clearing hleaf, below_of_leaf hleaf, htype, hfrozen]
      | false =>
        rw [if_neg Bool.false_ne_true]
        refine ⟨isComposite_entry (by decide) (by decide) s _, fun level => ?_⟩
        simp [below_fieldType_entry hleaf, below_of_leaf hleaf, htype, hfrozen]

/-- Items that come to nothing may be left out. -/
theorem flatMap_filter_of_nil {α β : Type} {p : α → Bool} {f g : α → List β} {l : List α}
    (hnil : ∀ a ∈ l, ¬ p a = true → g a = []) (heq : ∀ a ∈ l, p a = true → f a = g a) :
    (l.filter p).flatMap f = l.flatMap g := by
  induction l with
  | nil => rfl
  | cons a l ih =>
    obtain ⟨hnila, hnil⟩ := List.forall_mem_cons.mp hnil
    obtain ⟨heqa, heq⟩ := List.forall_mem_cons.mp heq
    rw [List.filter_cons, List.flatMap_cons, ← ih hnil heq]
    split
    · next h => rw [List.flatMap_cons, heqa h]
    · next h => rw [hnila h, List.nil_append]

/-- The visits to an open shape without what is frozen are those of the walk that passes by what is
frozen. -/
theorem visits_pruned (level : Nat) (s : Shape) (hopen : s.frozen = false) :
    s.pruned.visits level = (s.reached level).map fun c => (c.1, c.2.pruned) := by
  induction level, s using induction_on_below with
  | step level s ih =>
    obtain ⟨hcomposite, hbelow⟩ := below_pruned s
    have hown : s.pruned.own level = (s.own level).map fun c => (c.1, c.2.pruned) := by
      rw [own, own, hcomposite]
      cases s.isComposite <;> rfl
    have hrest : (((s.below level).filter (!·.2.frozen)).flatMap fun c => c.2.pruned.visits c.1) =
        (s.below level).flatMap fun c => (c.2.reached c.1).map fun c => (c.1, c.2.pruned) := by
      refine flatMap_filter_of_nil (fun c hc hfrozen => ?_) fun c hc hopen => ?_
      · rw [reached_of_frozen (by simpa using hfrozen), List.map_nil]
      · exact ih c hc (by simpa using hopen)
    rw [visits_eq, reached_of_open hopen, hown, hbelow, List.map_append, List.flatMap_map,
      List.map_flatMap, hrest]

end Shape

end TypeSketch
