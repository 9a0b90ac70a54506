import TypeSketch.Proofs.Table
import TypeSketch.Shape.Registering

/-!
# Registries — what has been registered stays

A registration looks before it writes, so that one that fails leaves the registry as it was
(`Registration.outcome_update`), and it fails only where something else stands or a shape is open
(`Registration.Refused`).  What it adds goes behind what is there (`Registration.Makes`).  So the
tables only grow (`within_after`), and what stands in them after a course of registrations can be
told from the course: under each name the first frozen shape, under each key the first trait
(`lookup_shapes_after`, `lookup_traits_after`).  Courses that register the same in another order,
where nothing conflicts, leave registries that answer alike (`intact_after`).
-/

namespace TypeSketch

namespace Registry

variable {registry registry' : Registry}

/-! ### Registrations in place -/

namespace Update

/-- How steps come out that change the registry as a whole, or fail and leave it. -/
def settled (registry : Registry) : Except Error Registry → Except Error Unit × Registry
  | .ok registry' => (.ok (), registry')
  | .error err => (.error err, registry)

theorem outcome_ensure (holds : Bool) (err : Error) (registry : Registry) :
    (ensure holds err).outcome registry = (if holds then .ok () else .error err, registry) := by
  cases holds <;> rfl

theorem outcome_ensured {β : Type} (err : Error) (f : Unit → Update β) (registry : Registry) :
    (ensure true err >>= f).outcome registry = (f ()).outcome registry := rfl

theorem outcome_read {β : Type} (f : Registry → Update β) (registry : Registry) :
    (get >>= f).outcome registry = (f registry).outcome registry := rfl

/-- A shape is inserted as a whole, or nothing is changed. -/
theorem outcome_insertShape (s : Shape) (registry : Registry) :
    (insertShape s).outcome registry = settled registry (registry.insertShape s) := by
  unfold insertShape Registry.insertShape
  cases s.frozen with
  | false => rfl
  | true =>
    refine (outcome_ensured ..).trans ((outcome_read ..).trans ?_)
    cases registry.shapes.lookup s.name with
    | none => rfl
    | some t =>
      refine (outcome_ensure ..).trans ?_
      dsimp only
      cases t.same s <;> rfl

/-- A trait is inserted as a whole, or nothing is changed. -/
theorem outcome_insertTrait (f : Field) (registry : Registry) :
    (insertTrait f).outcome registry = settled registry (registry.insertTrait f) := by
  unfold insertTrait Registry.insertTrait
  refine (outcome_read ..).trans ?_
  cases registry.traits.lookup f.key with
  | none => rfl
  | some g =>
    refine (outcome_ensure ..).trans ?_
    dsimp only
    cases g.same f <;> rfl

end Update

namespace Registration

/-- A registration in place makes what the registration makes, and leaves the registry if it
fails. -/
theorem outcome_update (call : Registration) (registry : Registry) :
    call.update.outcome registry = Update.settled registry (call.apply registry) := by
  cases call with
  | shape s => exact Update.outcome_insertShape s registry
  | trait f => exact Update.outcome_insertTrait f registry
  | detector detect => rfl

/-! ### What a registration does -/

/-- What a registration that comes off makes of a registry. -/
inductive Makes (registry : Registry) : Registration → Registry → Prop
  | addShape {s : Shape} (hfrozen : s.frozen = true)
      (hnew : registry.shapes.lookup s.name = none) :
      Makes registry (.shape s) { registry with shapes := registry.shapes ++ [(s.name, s)] }
  | keepShape {s t : Shape} (hfrozen : s.frozen = true)
      (ht : registry.shapes.lookup s.name = some t) (hsame : t.same s = true) :
      Makes registry (.shape s) registry
  | addTrait {f : Field} (hnew : registry.traits.lookup f.key = none) :
      Makes registry (.trait f) { registry with traits := registry.traits ++ [(f.key, f)] }
  | keepTrait {f g : Field} (hg : registry.traits.lookup f.key = some g)
      (hsame : g.same f = true) : Makes registry (.trait f) registry
  | addDetector {detect : String → Option Shape} :
      Makes registry (.detector detect)
        { registry with detectors := registry.detectors ++ [detect] }

/-- A registry has no place for something: the shape is open, or what stands there is another. -/
inductive Refused (registry : Registry) : Registration → Prop
  | openShape {s : Shape} (hopen : s.frozen = false) : Refused registry (.shape s)
  | otherShape {s t : Shape} (ht : registry.shapes.lookup s.name = some t)
      (hother : t.same s = false) : Refused registry (.shape s)
  | otherTrait {f g : Field} (hg : registry.traits.lookup f.key = some g)
      (hother : g.same f = false) : Refused registry (.trait f)

variable {call : Registration}

/-- What comes off was not refused. -/
theorem Makes.not_refused (h : call.Makes registry registry') : ¬ call.Refused registry := by
  intro hrefused
  cases hrefused with
  | openShape hopen =>
    cases h with
    | addShape hfrozen | keepShape hfrozen => rw [hopen] at hfrozen; cases hfrozen
  | otherShape ht hother =>
    cases h with
    | addShape _ hnew => rw [ht] at hnew; cases hnew
    | keepShape _ ht' hsame =>
      rw [ht] at ht'
      cases ht'
      rw [hother] at hsame
      cases hsame
  | otherTrait hg hother =>
    cases h with
    | addTrait hnew => rw [hg] at hnew; cases hnew
    | keepTrait hg' hsame =>
      rw [hg] at hg'
      cases hg'
      rw [hother] at hsame
      cases hsame

/-- In place, something is registered, or it is refused and the registry stays. -/
theorem outcome_cases (call : Registration) (registry : Registry) :
    (∃ registry', call.Makes registry registry' ∧
        call.update.outcome registry = (.ok (), registry')) ∨
      call.Refused registry ∧ ∃ err, call.update.outcome registry = (.error err, registry) := by
  rw [outcome_update]
  cases call with
  | shape s =>
    rw [apply, insertShape]
    cases hfrozen : s.frozen with
    | false => exact .inr ⟨.openShape hfrozen, _, rfl⟩
    | true =>
      cases ht : registry.shapes.lookup s.name with
      | none => exact .inl ⟨_, .addShape hfrozen ht, rfl⟩
      | some t =>
        dsimp only
        cases hsame : t.same s with
        | false => exact .inr ⟨.otherShape ht hsame, _, rfl⟩
        | true => exact .inl ⟨_, .keepShape hfrozen ht hsame, rfl⟩
  | trait f =>
    rw [apply, insertTrait]
    cases hg : registry.traits.lookup f.key with
    | none => exact .inl ⟨_, .addTrait hg, rfl⟩
    | some g =>
      dsimp only
      cases hsame : g.same f with
      | false => exact .inr ⟨.otherTrait hg hsame, _, rfl⟩
      | true => exact .inl ⟨_, .keepTrait hg hsame, rfl⟩
  | detector detect => exact .inl ⟨_, .addDetector, rfl⟩

/-- A registration fails just where it is refused. -/
theorem fails_iff_refused :
    (∃ err, (call.update.outcome registry).1 = .error err) ↔ call.Refused registry := by
  rcases call.outcome_cases registry with ⟨registry', hmakes, hout⟩ | ⟨hrefused, err, hout⟩
  · rw [hout]
    exact ⟨nofun, fun h => absurd h hmakes.not_refused⟩
  · rw [hout]
    exact ⟨fun _ => hrefused, fun _ => ⟨err, rfl⟩⟩

/-! ### What it brings -/

/-- The shape that a registration brings, under its name. -/
def shapes : Registration → List (String × Shape)
  | shape s => if s.frozen then [(s.name, s)] else []
  | trait _ | detector _ => []

/-- The trait that a registration brings, under its key. -/
def traits : Registration → List (String × Field)
  | trait f => [(f.key, f)]
  | shape _ | detector _ => []

/-- The detector that a registration brings. -/
def detectors : Registration → List (String → Option Shape)
  | detector detect => [detect]
  | shape _ | trait _ => []

/-- Two registrations that bring something else under one name. -/
inductive Conflicts : Registration → Registration → Prop
  | shape {s t : Shape} (hname : s.name = t.name) (hne : s ≠ t) (hother : s.same t = false) :
      Conflicts (.shape s) (.shape t)
  | trait {f g : Field} (hkey : f.key = g.key) (hne : f ≠ g) (hother : f.same g = false) :
      Conflicts (.trait f) (.trait g)

/-- The shape that is brought is the one registered, under its name. -/
theorem mem_shapes {k : String} {s : Shape} (h : (k, s) ∈ call.shapes) :
    k = s.name ∧ call = .shape s := by
  cases call with
  | shape t =>
    rw [shapes] at h
    split at h
    · cases List.mem_singleton.mp h
      exact ⟨rfl, rfl⟩
    · cases h
  | trait | detector => cases h

/-- The trait that is brought is the one registered, under its key. -/
theorem mem_traits {k : String} {f : Field} (h : (k, f) ∈ call.traits) :
    k = f.key ∧ call = .trait f := by
  cases call with
  | trait g =>
    cases List.mem_singleton.mp h
    exact ⟨rfl, rfl⟩
  | shape | detector => cases h

end Registration

/-! ### What stays -/

/-- A registry holds frozen shapes under their names and traits under their keys, one each. -/
structure Sound (registry : Registry) : Prop where
  /-- The shapes are frozen. -/
  frozen : ∀ e ∈ registry.shapes, e.2.frozen = true
  /-- Each stands under its own name. -/
  names : ∀ e ∈ registry.shapes, e.1 = e.2.name
  /-- Each trait stands under its own key. -/
  keys : ∀ e ∈ registry.traits, e.1 = e.2.key
  /-- No name stands twice. -/
  names_nodup : (registry.shapes.map Prod.fst).Nodup
  /-- No key stands twice. -/
  keys_nodup : (registry.traits.map Prod.fst).Nodup

theorem Sound.key_of_trait? (h : registry.Sound) {key : String} {f : Field}
    (hf : registry.trait? key = some f) : f.key = key :=
  (h.keys _ (Assoc.mem_of_lookup hf)).symm

/-- A registry begins as another: its entries stand where they stood, as they were. -/
structure Within (registry registry' : Registry) : Prop where
  /-- The shapes come first. -/
  shapes : registry.shapes <+: registry'.shapes
  /-- The traits come first. -/
  traits : registry.traits <+: registry'.traits
  /-- The detectors come first. -/
  detectors : registry.detectors <+: registry'.detectors

theorem Within.refl (registry : Registry) : registry.Within registry :=
  ⟨List.prefix_refl _, List.prefix_refl _, List.prefix_refl _⟩

theorem Within.trans {registry'' : Registry} (h : registry.Within registry')
    (h' : registry'.Within registry'') : registry.Within registry'' :=
  ⟨h.shapes.trans h'.shapes, h.traits.trans h'.traits, h.detectors.trans h'.detectors⟩

theorem sound_empty : ({} : Registry).Sound := ⟨nofun, nofun, nofun, .nil, .nil⟩

namespace Registration.Makes

variable {call : Registration}

/-- A registration keeps the entries where they stand. -/
theorem within (h : call.Makes registry registry') : registry.Within registry' := by
  cases h with
  | addShape => exact ⟨List.prefix_append .., List.prefix_refl _, List.prefix_refl _⟩
  | addTrait => exact ⟨List.prefix_refl _, List.prefix_append .., List.prefix_refl _⟩
  | addDetector => exact ⟨List.prefix_refl _, List.prefix_refl _, List.prefix_append ..⟩
  | keepShape | keepTrait => exact .refl registry

/-- A registration keeps frozen shapes under their names and traits under their keys. -/
theorem sound (h : call.Makes registry registry') (hsound : registry.Sound) :
    registry'.Sound := by
  cases h with
  | @addShape s hfrozen hnew =>
    refine { hsound with frozen := ?_, names := ?_, names_nodup := ?_ }
    · intro e he
      rcases List.mem_append.mp he with he | he
      · exact hsound.frozen e he
      · cases List.mem_singleton.mp he
        exact hfrozen
    · intro e he
      rcases List.mem_append.mp he with he | he
      · exact hsound.names e he
      · cases List.mem_singleton.mp he
        rfl
    · exact Assoc.nodup_concat hsound.names_nodup hnew s
  | @addTrait f hnew =>
    refine { hsound with keys := ?_, keys_nodup := ?_ }
    · intro e he
      rcases List.mem_append.mp he with he | he
      · exact hsound.keys e he
      · cases List.mem_singleton.mp he
        rfl
    · exact Assoc.nodup_concat hsound.keys_nodup hnew f
  | addDetector => exact ⟨hsound.1, hsound.2, hsound.3, hsound.4, hsound.5⟩
  | keepShape | keepTrait => exact hsound

/-- Under a name stands what stood there, or else the shape that is brought. -/
theorem lookup_shapes (h : call.Makes registry registry') (name : String) :
    registry'.shapes.lookup name =
      (registry.shapes.lookup name).or (call.shapes.lookup name) := by
  cases h with
  | addShape hfrozen => rw [shapes, if_pos hfrozen, List.lookup_append]
  | keepShape hfrozen ht => rw [shapes, if_pos hfrozen, Assoc.lookup_or_of_lookup ht]
  | addTrait | keepTrait | addDetector => exact Option.or_none.symm

/-- Under a key stands what stood there, or else the trait that is brought. -/
theorem lookup_traits (h : call.Makes registry registry') (key : String) :
    registry'.traits.lookup key =
      (registry.traits.lookup key).or (call.traits.lookup key) := by
  cases h with
  | addTrait => rw [traits, List.lookup_append]
  | keepTrait hg => rw [traits, Assoc.lookup_or_of_lookup hg]
  | addShape | keepShape | addDetector => exact Option.or_none.symm

theorem detectors_eq (h : call.Makes registry registry') :
    registry'.detectors = registry.detectors ++ call.detectors := by
  cases h with
  | addDetector => rfl
  | addShape | keepShape | addTrait | keepTrait => exact (List.append_nil _).symm

end Registration.Makes

/-! ### Registration after registration -/

namespace Registration

variable (call : Registration) (registry : Registry)

/-- A registry that something is registered in, or that refuses it, begins as it was. -/
theorem within_outcome : registry.Within (call.update.outcome registry).2 := by
  rcases call.outcome_cases registry with ⟨registry', hmakes, hout⟩ | ⟨-, err, hout⟩
  · rw [hout]
    exact hmakes.within
  · rw [hout]
    exact .refl registry

variable {registry} in
theorem sound_outcome (hsound : registry.Sound) : (call.update.outcome registry).2.Sound := by
  rcases call.outcome_cases registry with ⟨registry', hmakes, hout⟩ | ⟨-, err, hout⟩
  · rw [hout]
    exact hmakes.sound hsound
  · rw [hout]
    exact hsound

/-- After a registration in place, a name holds what it held, or else the shape that is brought. -/
theorem lookup_shapes_outcome (name : String) :
    (call.update.outcome registry).2.shapes.lookup name =
      (registry.shapes.lookup name).or (call.shapes.lookup name) := by
  rcases call.outcome_cases registry with ⟨registry', hmakes, hout⟩ | ⟨hrefused, err, hout⟩
  · rw [hout]
    exact hmakes.lookup_shapes name
  · rw [hout]
    cases hrefused with
    | openShape hopen => rw [shapes, if_neg (by simp [hopen])]; exact Option.or_none.symm
    | otherShape ht =>
      rw [shapes]
      split
      · exact (Assoc.lookup_or_of_lookup ht ..).symm
      · exact Option.or_none.symm
    | otherTrait => exact Option.or_none.symm

/-- After a registration in place, a key holds what it held, or else the trait that is brought. -/
theorem lookup_traits_outcome (key : String) :
    (call.update.outcome registry).2.traits.lookup key =
      (registry.traits.lookup key).or (call.traits.lookup key) := by
  rcases call.outcome_cases registry with ⟨registry', hmakes, hout⟩ | ⟨hrefused, err, hout⟩
  · rw [hout]
    exact hmakes.lookup_traits key
  · rw [hout]
    cases hrefused with
    | otherTrait hg => exact (Assoc.lookup_or_of_lookup hg ..).symm
    | openShape | otherShape => exact Option.or_none.symm

/-- After a registration in place, the detectors are those before and the one that is brought. -/
theorem detectors_outcome :
    (call.update.outcome registry).2.detectors = registry.detectors ++ call.detectors := by
  rcases call.outcome_cases registry with ⟨registry', hmakes, hout⟩ | ⟨hrefused, err, hout⟩
  · rw [hout]
    exact hmakes.detectors_eq
  · rw [hout]
    cases hrefused with
    | openShape | otherShape | otherTrait => exact (List.append_nil _).symm

end Registration

variable (registry : Registry) (calls : List Registration)

theorem after_append (later : List Registration) :
    registry.after (calls ++ later) = (registry.after calls).after later :=
  List.foldl_append

/-- What has been registered stays where it is. -/
theorem within_after : registry.Within (registry.after calls) := by
  induction calls generalizing registry with
  | nil => exact .refl registry
  | cons call calls ih => exact (call.within_outcome registry).trans (ih _)

variable {registry} in
theorem sound_after (hsound : registry.Sound) : (registry.after calls).Sound := by
  induction calls generalizing registry with
  | nil => exact hsound
  | cons call calls ih => exact ih (call.sound_outcome hsound)

/-- Under a name stands what stood there, or else the first frozen shape that came. -/
theorem lookup_shapes_after (name : String) :
    (registry.after calls).shapes.lookup name =
      (registry.shapes.lookup name).or ((calls.flatMap Registration.shapes).lookup name) := by
  induction calls generalizing registry with
  | nil => exact Option.or_none.symm
  | cons call calls ih =>
    rw [List.flatMap_cons, List.lookup_append, ← Option.or_assoc,
      ← call.lookup_shapes_outcome registry]
    exact ih _

/-- Under a key stands what stood there, or else the first trait that came. -/
theorem lookup_traits_after (key : String) :
    (registry.after calls).traits.lookup key =
      (registry.traits.lookup key).or ((calls.flatMap Registration.traits).lookup key) := by
  induction calls generalizing registry with
  | nil => exact Option.or_none.symm
  | cons call calls ih =>
    rw [List.flatMap_cons, List.lookup_append, ← Option.or_assoc,
      ← call.lookup_traits_outcome registry]
    exact ih _

/-- The detectors are those that were there, and then those that came, in their order. -/
theorem detectors_after :
    (registry.after calls).detectors =
      registry.detectors ++ calls.flatMap Registration.detectors := by
  induction calls generalizing registry with
  | nil => exact (List.append_nil _).symm
  | cons call calls ih =>
    rw [List.flatMap_cons, ← List.append_assoc, ← call.detectors_outcome registry]
    exact ih _

/-! ### The standard registry -/

/-- Frozen shapes under new names go behind the others. -/
theorem after_shapes {shapes : List Shape} (hfrozen : ∀ s ∈ shapes, s.frozen = true)
    (hnew : (registry.shapes.map Prod.fst ++ shapes.map Shape.name).Nodup) :
    registry.after (shapes.map .shape) =
      { registry with shapes := registry.shapes ++ shapes.map fun s => (s.name, s) } := by
  induction shapes generalizing registry with
  | nil => rw [List.map_nil, List.map_nil, List.append_nil]; rfl
  | cons s shapes ih =>
    rw [List.forall_mem_cons] at hfrozen
    have hadd : (Update.insertShape s).outcome registry =
        (.ok (), { registry with shapes := registry.shapes ++ [(s.name, s)] }) := by
      rw [Update.outcome_insertShape, insertShape, hfrozen.1, Assoc.lookup_eq_none_of_nodup hnew]
      rfl
    rw [List.map_cons, List.append_cons] at hnew
    have hrest := ih { registry with shapes := registry.shapes ++ [(s.name, s)] } hfrozen.2
      (by rwa [List.map_append])
    rw [List.map_cons, List.map_cons, List.append_cons, ← hrest, after, List.foldl_cons,
      Registration.update, hadd]
    rfl

/-- Traits under new keys go behind the others. -/
theorem after_traits {traits : List Field}
    (hnew : (registry.traits.map Prod.fst ++ traits.map Field.key).Nodup) :
    registry.after (traits.map .trait) =
      { registry with traits := registry.traits ++ traits.map fun f => (f.key, f) } := by
  induction traits generalizing registry with
  | nil => rw [List.map_nil, List.map_nil, List.append_nil]; rfl
  | cons f traits ih =>
    have hadd : (Update.insertTrait f).outcome registry =
        (.ok (), { registry with traits := registry.traits ++ [(f.key, f)] }) := by
      rw [Update.outcome_insertTrait, insertTrait, Assoc.lookup_eq_none_of_nodup hnew]
      rfl
    rw [List.map_cons, List.append_cons] at hnew
    have hrest := ih { registry with traits := registry.traits ++ [(f.key, f)] }
      (by rwa [List.map_append])
    rw [List.map_cons, List.map_cons, List.append_cons, ← hrest, after, List.foldl_cons,
      Registration.update, hadd]
    rfl

/-- What the standard registry registers: every trait, the canonical shapes, and references. -/
def standardCalls : List Registration :=
  Trait.all.map .trait ++ Shape.canonical.map .shape ++ [.detector Shape.ofReference?]

theorem frozen_canonical : ∀ s ∈ Shape.canonical, s.frozen = true := by decide +kernel

theorem nodup_canonical : (Shape.canonical.map Shape.name).Nodup := by decide +kernel

/-- The standard registry is registered like any other. -/
theorem after_standardCalls : ({} : Registry).after standardCalls = .standard := by
  have htraits : ({} : Registry).after (Trait.all.map .trait) =
      { traits := Trait.all.map fun f => (f.key, f) } :=
    after_traits {} Trait.all_keys_nodup
  have hshapes : Registry.after { traits := Trait.all.map fun f => (f.key, f) }
      (Shape.canonical.map .shape) =
        { shapes := Shape.canonical.map fun s => (s.name, s),
          traits := Trait.all.map fun f => (f.key, f) } :=
    after_shapes _ frozen_canonical nodup_canonical
  rw [standardCalls, after_append, after_append, htraits, hshapes]
  rfl

theorem sound_standard : Registry.standard.Sound :=
  after_standardCalls ▸ sound_after standardCalls sound_empty

/-! ### Asking -/

/-- What is asked for by name: what stood under it, or the first shape that came, or what the
first detector that knows the name makes of it. -/
theorem shape?_after (name : String) :
    (registry.after calls).shape? name =
      ((registry.shapes.lookup name).or ((calls.flatMap Registration.shapes).lookup name)).or
        ((registry.detectors ++ calls.flatMap Registration.detectors).findSome? (· name)) := by
  rw [shape?, lookup_shapes_after, detectors_after]
  split
  · next h => rw [h, Option.some_or]
  · next h => rw [h, Option.none_or]

/-- What is asked for by key: what stood under it, or the first trait that came. -/
theorem trait?_after (key : String) :
    (registry.after calls).trait? key =
      (registry.traits.lookup key).or ((calls.flatMap Registration.traits).lookup key) :=
  lookup_traits_after registry calls key

/-- What stands in a sound registry is found, whatever detectors there are. -/
theorem Sound.shape?_of_mem {registry : Registry} (hsound : registry.Sound) {name : String}
    {s : Shape} (h : (name, s) ∈ registry.shapes) : registry.shape? name = some s := by
  rw [shape?, (Assoc.lookup_eq_some_iff_mem hsound.names_nodup).mpr h]

variable {calls calls' : List Registration}

/-- The same shapes in another order, where nothing conflicts, are found alike. -/
theorem rel_shapes_of_perm (hperm : calls.Perm calls')
    (hpeace : ∀ a ∈ calls, ∀ b ∈ calls, ¬ a.Conflicts b) (name : String) :
    Option.Rel (fun s t : Shape => s = t ∨ s.same t = true)
      ((calls.flatMap Registration.shapes).lookup name)
      ((calls'.flatMap Registration.shapes).lookup name) := by
  refine Assoc.rel_lookup_of_perm (hperm.flatMap_right _) ?_ name
  intro k s t hs ht
  obtain ⟨a, ha, hs⟩ := List.mem_flatMap.mp hs
  obtain ⟨b, hb, ht⟩ := List.mem_flatMap.mp ht
  obtain ⟨rfl, rfl⟩ := Registration.mem_shapes hs
  obtain ⟨hname, rfl⟩ := Registration.mem_shapes ht
  by_contra hother
  rw [not_or, Bool.not_eq_true] at hother
  exact hpeace _ ha _ hb (.shape hname hother.1 hother.2)

/-- The same traits in another order, where nothing conflicts, are found alike. -/
theorem rel_traits_of_perm (hperm : calls.Perm calls')
    (hpeace : ∀ a ∈ calls, ∀ b ∈ calls, ¬ a.Conflicts b) (key : String) :
    Option.Rel (fun f g : Field => f = g ∨ f.same g = true)
      ((calls.flatMap Registration.traits).lookup key)
      ((calls'.flatMap Registration.traits).lookup key) := by
  refine Assoc.rel_lookup_of_perm (hperm.flatMap_right _) ?_ key
  intro k f g hf hg
  obtain ⟨a, ha, hf⟩ := List.mem_flatMap.mp hf
  obtain ⟨b, hb, hg⟩ := List.mem_flatMap.mp hg
  obtain ⟨rfl, rfl⟩ := Registration.mem_traits hf
  obtain ⟨hkey, rfl⟩ := Registration.mem_traits hg
  by_contra hother
  rw [not_or, Bool.not_eq_true] at hother
  exact hpeace _ ha _ hb (.trait hkey hother.1 hother.2)

/-- What holds of a registry after some registrations. -/
structure Intact (start : Registry) (calls : List Registration) : Prop where
  /-- Frozen shapes stand under their names and traits under their keys. -/
  sound : (start.after calls).Sound
  /-- What stood at some time stands where it stood. -/
  kept : ∀ before later, calls = before ++ later →
    (start.after before).Within (start.after calls)
  /-- One more registration that fails changes nothing. -/
  failed : ∀ (call : Registration) (err : Error),
    (call.update.outcome (start.after calls)).1 = .error err →
      (call.update.outcome (start.after calls)).2 = start.after calls
  /-- It fails if the shape is open or the place is taken by another, and only then. -/
  fails_iff : ∀ call : Registration,
    (∃ err, (call.update.outcome (start.after calls)).1 = .error err) ↔
      call.Refused (start.after calls)
  /-- A name that has been registered is answered by what stands under it. -/
  stored : ∀ name s, (name, s) ∈ (start.after calls).shapes →
    (start.after calls).shape? name = some s
  /-- A key that has been registered is answered by what stands under it. -/
  stored_traits : ∀ key f, (key, f) ∈ (start.after calls).traits →
    (start.after calls).trait? key = some f
  /-- What stands under a name is the first frozen shape that came under it; a name that no shape
  came under is answered by the first detector that knows it. -/
  shape?_eq : ∀ name, (start.after calls).shape? name =
    ((start.shapes.lookup name).or ((calls.flatMap Registration.shapes).lookup name)).or
      ((start.detectors ++ calls.flatMap Registration.detectors).findSome? (· name))
  /-- What stands under a key is the first trait that came under it. -/
  trait?_eq : ∀ key, (start.after calls).trait? key =
    (start.traits.lookup key).or ((calls.flatMap Registration.traits).lookup key)
  /-- The same registrations in another order, none in conflict with another and the detectors as
  they were, answer alike. -/
  orders : ∀ calls' : List Registration, calls.Perm calls' →
    calls'.flatMap Registration.detectors = calls.flatMap Registration.detectors →
    (∀ a ∈ calls, ∀ b ∈ calls, ¬ a.Conflicts b) →
    (∀ name, Option.Rel (fun s t : Shape => s = t ∨ s.same t = true)
      ((start.after calls).shape? name) ((start.after calls').shape? name)) ∧
    ∀ key, Option.Rel (fun f g : Field => f = g ∨ f.same g = true)
      ((start.after calls).trait? key) ((start.after calls').trait? key)

/-- A sound registry keeps what has been registered, through any registrations. -/
theorem Sound.intact {start : Registry} (hstart : start.Sound) (calls : List Registration) :
    Intact start calls where
  sound := sound_after calls hstart
  kept before later h := by
    rw [h, after_append]
    exact within_after ..
  failed call err h := by
    rcases call.outcome_cases (start.after calls) with ⟨registry', -, hout⟩ | ⟨-, err', hout⟩
    · rw [hout] at h
      cases h
    · rw [hout]
  fails_iff call := Registration.fails_iff_refused
  stored name s := (sound_after calls hstart).shape?_of_mem
  stored_traits key f h :=
    (Assoc.lookup_eq_some_iff_mem (sound_after calls hstart).keys_nodup).mpr h
  shape?_eq name := shape?_after start calls name
  trait?_eq key := trait?_after start calls key
  orders calls' hperm hdetectors hpeace := by
    refine ⟨fun name => ?_, fun key => ?_⟩
    · rw [shape?_after, shape?_after, hdetectors]
      exact Assoc.rel_or (Assoc.rel_or (Assoc.rel_refl (fun _ => .inl rfl) _)
        (rel_shapes_of_perm hperm hpeace name)) (Assoc.rel_refl (fun _ => .inl rfl) _)
    · rw [trait?_after, trait?_after]
      exact Assoc.rel_or (Assoc.rel_refl (fun _ => .inl rfl) _)
        (rel_traits_of_perm hperm hpeace key)

/-- A registry keeps what has been registered, and registers nothing that does not fit, whether it
was empty or the standard one. -/
theorem intact_after (calls : List Registration) :
    Intact {} calls ∧ Intact .standard calls :=
  ⟨sound_empty.intact calls, sound_standard.intact calls⟩

/-- An integer under its name again is let pass, another shape under it is not, nor an open one. -/
example : (Registry.standard.insertShape .i64).toOption.isSome = true ∧
    (Registry.standard.insertShape (Shape.named "i64").freeze).toOption.isNone = true ∧
    (Registry.standard.insertShape (.named "thing")).toOption.isNone = true := by
  decide +kernel

end Registry

end TypeSketch
