import Mathlib.Logic.Relation
import TypeSketch.Proofs.Inference.Outcome

/-!
# Inference — components

A board whose relations all say that two paths have one shape is a graph on paths, and inference
answers by its components (`answer_of_equalities`): it comes off exactly if the known shapes within
each component are the same, and then the paths with a shape are those of the components where one
was known.  The order of the relations plays no part in it, since components do not depend on it.
A relation that is unified is not looked at again; that no conflict is missed for it is `agree` of
`Board.Outcome`, carried along chains of relations by `agree_of_connected`.

**The answer** (`answer_of_equalities`). One direction is that shapes do not leave their component
(`Spread`), which every try keeps (`Spread.put`). The other is that at the end nothing is left to
suggest, so that a shape has been passed along every chain of relations (`agree_of_connected`).
-/

namespace TypeSketch.Board

/-- A relation says that the paths have one shape. -/
def Linked (b : Board) (p q : String) : Prop := ∃ r ∈ b.relations, r.Equates p q

/-- The paths are in one component: relations lead from one to the other, in any direction. -/
def Connected (b : Board) : String → String → Prop := Relation.EqvGen b.Linked

/-- The component of a path has a path whose shape is known. -/
def Reached (b : Board) (p : String) : Prop := ∃ q, b.Connected p q ∧ (b.shape? q).isSome

/-- The known shapes within each component are the same. -/
def Coherent (b : Board) : Prop :=
  ∀ p q s t, b.Connected p q → b.shape? p = some s → b.shape? q = some t → s.same t = true

/-- Every relation says of two paths that they have one shape, and none is unified yet.  The known
shapes are records, so none holds two values under one key. -/
structure OfEqualities (b : Board) : Prop where
  equates : ∀ r ∈ b.relations, ∃ l m, r.Equates l m
  pending : ∀ r ∈ b.relations, r.unified = false
  proper : b.known.Proper

/-- A shape that is known of a path was known in its component. -/
structure Spread (b : Board) (k : Known) : Prop where
  proper : k.Proper
  source : ∀ p s, k.lookup p = some s →
    ∃ q t, b.shape? q = some t ∧ b.Connected q p ∧ t.same s = true

variable {b : Board}

/-- Relations between paths of one shape state bonds. -/
theorem OfEqualities.stated (hb : b.OfEqualities) : b.Stated where
  bond r hr := by
    obtain ⟨l, m, he⟩ := hb.equates r hr
    exact ⟨.equal l m, .equal he⟩
  pending := hb.pending
  proper := hb.proper

/-- Learning from a path of the same component keeps shapes within components. -/
theorem Spread.put {k : Known} (h : b.Spread k) {p q : String} {s : Shape}
    (hs : k.lookup q = some s) (hqp : b.Connected q p) : b.Spread (Assoc.put p s.freeze k) := by
  refine ⟨proper_put h.proper (h.proper q s hs), fun p' s' hp' => ?_⟩
  rw [Assoc.lookup_put] at hp'
  split at hp'
  · next heq =>
    cases hp'
    obtain ⟨o, t, ho, hoq, hts⟩ := h.source q s hs
    exact ⟨o, t, ho, heq ▸ .trans _ _ _ hoq hqp, by simpa using hts⟩
  · exact h.source p' s' hp'

/-- Tries pass shapes on within components only. -/
theorem OfEqualities.spread (hb : b.OfEqualities) {k : Known} (h : b.Tried k) : b.Spread k := by
  refine h.learning (P := b.Spread) hb.stated ?_ fun {r c k p s} hr hc _ hk _ hs => ?_
  · exact ⟨hb.proper, fun p s hp => ⟨p, s, hp, .refl p, Shape.same_refl (hb.proper p s hp)⟩⟩
  · cases hc with
    | @equal _ l m he =>
      have hlm : b.Connected l m := .rel _ _ ⟨r, hr, he⟩
      cases hs with
      | right hs => exact hk.put hs hlm
      | left hs => exact hk.put hs (.symm _ _ hlm)
    | length =>
      obtain ⟨l, m, he⟩ := hb.equates _ hr
      exact absurd he Relation.not_equates_lengthRelation
    | member =>
      obtain ⟨l, m, he⟩ := hb.equates _ hr
      exact absurd he Relation.not_equates_memberRelation

/-- Paths of one component end with one shape or none, on any board of bonds. -/
theorem agree_of_connected (hb : b.Stated) (hn : b.Succeeds) {p q : String}
    (h : b.Connected p q) : b.infer.1.known.Agree p q := by
  have hk := (outcome hb).proper hb
  -- along the relations that lead from one path to the other
  induction h with
  | rel p q hpq =>
    obtain ⟨r, hr, he⟩ := hpq
    exact (outcome hb).agree hn r hr p q he
  | refl p => exact hk.agree_self p
  | symm p q _ ih => exact ih.symm hk
  | trans p q r _ _ ih ih' => exact ih.trans hk ih'

/-- The known shapes of one component are the same if inference comes off: they stay known. -/
theorem coherent_of_succeeds (hb : b.Stated) (hn : b.Succeeds) : b.Coherent := by
  have hext := (outcome hb).extends hb
  intro p q s t hpq hs ht
  exact (agree_of_connected hb hn hpq).same (hext p s hs) (hext q t ht)

/-- The sources of two shapes that conflict are in one component. -/
theorem not_coherent_of_conflict (hb : b.OfEqualities) {k : Known} (hk : b.Spread k)
    {l m : String} {s t : Shape} (hlm : b.Linked l m) (hs : k.lookup l = some s)
    (ht : k.lookup m = some t) (hst : s.same t = false) : ¬ b.Coherent := by
  intro hcoh
  obtain ⟨p, u, hp, hpl, hus⟩ := hk.source l s hs
  obtain ⟨q, v, hq, hqm, hvt⟩ := hk.source m t ht
  have hu := hb.proper p u hp
  have hv := hb.proper q v hq
  have hs' := hk.proper l s hs
  have ht' := hk.proper m t ht
  have hpq : b.Connected p q :=
    .trans _ _ _ hpl (.trans _ _ _ (.rel _ _ hlm) (.symm _ _ hqm))
  have huv : u.same v = true := hcoh p q u v hpq hp hq
  have : s.same t = true := Shape.same_trans hs' hu ht' (Shape.same_symm hu hs' hus)
    (Shape.same_trans hu hv ht' huv hvt)
  rw [hst] at this
  cases this

/-- Inference comes off exactly if the known shapes within each component are the same. -/
theorem succeeds_iff_coherent (hb : b.OfEqualities) : b.Succeeds ↔ b.Coherent := by
  refine ⟨coherent_of_succeeds hb.stated, fun hcoh => ?_⟩
  cases hn : b.infer.2 with
  | ok n => exact ⟨n, hn⟩
  | error e =>
    obtain ⟨r, hr, l, m, k, s, t, he, hk, hs, ht, hst, -⟩ := (outcome hb.stated).conflict hn
    exact absurd hcoh (not_coherent_of_conflict hb (hb.spread hk) ⟨r, hr, he⟩ hs ht hst)

/-- A path ends with a shape exactly if one was known in its component. -/
theorem resolved_iff_reached (hb : b.OfEqualities) (hn : b.Succeeds) (p : String) :
    (b.infer.1.shape? p).isSome ↔ b.Reached p := by
  have hout := outcome hb.stated
  constructor
  · intro hp
    obtain ⟨s, hs⟩ := Option.isSome_iff_exists.mp hp
    obtain ⟨q, t, hq, hqp, -⟩ := (hb.spread hout.tried).source p s hs
    exact ⟨q, .symm _ _ hqp, Option.isSome_iff_exists.mpr ⟨t, hq⟩⟩
  · rintro ⟨q, hpq, hq⟩
    have hagree := agree_of_connected hb.stated hn hpq
    exact hagree.isSome_iff.mpr ((hout.extends hb.stated).isSome hq)

/-- Where a path and a known one are in one component, the path ends with the known shape. -/
theorem same_of_connected (hb : b.OfEqualities) (hn : b.Succeeds) {p q : String} {s t : Shape}
    (hpq : b.Connected p q) (hs : b.infer.1.shape? p = some s) (ht : b.shape? q = some t) :
    s.same t = true :=
  (agree_of_connected hb.stated hn hpq).same hs ((outcome hb.stated).extends hb.stated q t ht)

/-- A relation ends unified exactly if a shape was known in the component of its paths. -/
theorem unified_iff_reached (hb : b.OfEqualities) (hn : b.Succeeds) {r : Relation}
    (hr : r ∈ b.infer.1.relations) {l m : String} (he : r.Equates l m) :
    r.unified = true ↔ b.Reached l := by
  have hout := outcome hb.stated
  rw [← resolved_iff_reached hb hn]
  constructor
  · intro hu
    obtain ⟨s, t, hs, -, -⟩ := hout.unified r hr hu (.equal l m) (.equal he)
    exact Option.isSome_iff_exists.mpr ⟨s, hs⟩
  · intro hl
    by_contra hu
    have hnone := hout.pending hn r hr (by simpa using hu) l m he
    rw [shape?, hnone] at hl
    cases hl

/-! ### The order of the relations -/

/-- `b'` is `b` with its relations in another order. -/
structure Reorders (b b' : Board) : Prop where
  relations : b'.relations.Perm b.relations
  known : b'.known = b.known

namespace Reorders

variable {b' : Board} (h : b.Reorders b')
include h

theorem symm : b'.Reorders b := ⟨h.relations.symm, h.known.symm⟩

theorem shape?_eq : b'.shape? = b.shape? := funext fun p => congrArg (List.lookup p) h.known

theorem connected_eq : b'.Connected = b.Connected := by
  have : b'.Linked = b.Linked := funext₂ fun p q => by simp only [Linked, h.relations.mem_iff]
  rw [Connected, Connected, this]

theorem coherent_iff : b'.Coherent ↔ b.Coherent := by
  rw [Coherent, h.connected_eq, h.shape?_eq, Coherent]

theorem ofEqualities (hb : b.OfEqualities) : b'.OfEqualities where
  equates r hr := hb.equates r (h.relations.mem_iff.mp hr)
  pending r hr := hb.pending r (h.relations.mem_iff.mp hr)
  proper := h.known ▸ hb.proper

end Reorders

/-- `b'` ends like `b`: it fails too, or the same paths have the same shapes. -/
structure EndsLike (b b' : Board) : Prop where
  succeeds_iff : b'.Succeeds ↔ b.Succeeds
  same : b.Succeeds → ∀ p,
    Option.Rel (fun s t : Shape => s.same t = true) (b'.infer.1.shape? p) (b.infer.1.shape? p)

/-- Inference of paths of one shape ends alike in every order. -/
theorem OfEqualities.endsLike {b' : Board} (hb : b.OfEqualities) (h : b.Reorders b') :
    b.EndsLike b' := by
  have hb' := h.ofEqualities hb
  have hcon := h.connected_eq
  have hreach : ∀ p, b'.Reached p ↔ b.Reached p := fun p => by
    rw [Reached, hcon, h.shape?_eq, Reached]
  have hsucc : b'.Succeeds ↔ b.Succeeds := by
    rw [succeeds_iff_coherent hb', succeeds_iff_coherent hb, h.coherent_iff]
  refine ⟨hsucc, fun hn p => ?_⟩
  have hn' := hsucc.mpr hn
  cases hp' : b'.infer.1.shape? p with
  | none =>
    cases hp : b.infer.1.shape? p with
    | none => exact .none
    | some t =>
      have := (resolved_iff_reached hb' hn' p).mpr
        ((hreach p).mpr ((resolved_iff_reached hb hn p).mp (by simp [hp])))
      rw [hp'] at this
      cases this
  | some s =>
    -- both shapes are that of a path known in the component
    have hs := (resolved_iff_reached hb' hn' p).mp (by simp [hp'])
    obtain ⟨q, hpq, hq⟩ := (hreach p).mp hs
    obtain ⟨u, hu⟩ := Option.isSome_iff_exists.mp hq
    obtain ⟨t, hp⟩ := Option.isSome_iff_exists.mp
      ((resolved_iff_reached hb hn p).mpr ⟨q, hpq, hq⟩)
    have hsu := same_of_connected hb' hn' (hcon ▸ hpq) hp' (h.shape?_eq ▸ hu)
    have htu := same_of_connected hb hn hpq hp hu
    have hprop := (outcome hb.stated).proper hb.stated p t hp
    have hprop' := (outcome hb'.stated).proper hb'.stated p s hp'
    have hpropu := hb.proper q u hu
    rw [hp]
    exact .some (Shape.same_of_common hprop' hprop hpropu hsu htu)

/-! ### The answer -/

/-- What inference answers on a graph of paths. -/
structure Answer (b : Board) : Prop where
  /-- It comes off exactly if the known shapes of each component are the same. -/
  succeeds_iff : b.Succeeds ↔ b.Coherent
  /-- The paths with a shape are the known ones and those of a component with a known one. -/
  resolved_iff : b.Succeeds → ∀ p, (b.infer.1.shape? p).isSome ↔ (b.shape? p).isSome ∨ b.Reached p
  /-- The shape is that of any path known in the component. -/
  same : b.Succeeds → ∀ p q s t, b.Connected p q → b.infer.1.shape? p = some s →
    b.shape? q = some t → s.same t = true
  /-- The relations stay what they are, and those unified are the ones of a component with a known
  path. -/
  relations : b.infer.1.relations.map Relation.fresh = b.relations
  unified_iff : b.Succeeds → ∀ r ∈ b.infer.1.relations, ∀ l m, r.Equates l m →
    (r.unified = true ↔ b.Reached l)
  /-- A failure is a conflict that names the two paths of a relation. -/
  conflict : ∀ e, b.infer.2 = .error e → ∃ r ∈ b.relations, ∃ (l m : String) (s t : Shape),
    r.Equates l m ∧ s.same t = false ∧ e = .conflict l s.text m t.text
  /-- The order of the relations does not matter. -/
  confluent : ∀ b', b.Reorders b' → b.EndsLike b'

/-- **The answer on a graph of paths.** A board whose relations all say that two paths have one
shape is answered component by component. -/
theorem answer_of_equalities (hb : b.OfEqualities) : b.Answer where
  succeeds_iff := succeeds_iff_coherent hb
  resolved_iff hn p := by
    rw [resolved_iff_reached hb hn]
    exact ⟨.inr, fun h => h.elim (fun hp => ⟨p, .refl p, hp⟩) id⟩
  same hn p q s t hpq hs ht := same_of_connected hb hn hpq hs ht
  relations := (outcome hb.stated).relations
  unified_iff hn r hr l m he := unified_iff_reached hb hn hr he
  conflict e he := by
    obtain ⟨r, hr, l, m, k, s, t, heq, -, -, -, hst, rfl⟩ := (outcome hb.stated).conflict he
    exact ⟨r, hr, l, m, s, t, heq, hst, rfl⟩
  confluent b' h := hb.endsLike h

/-- Along a chain of two relations a whole number is passed on from the far end. -/
theorem answer_of_chain :
    ∃ b : Board, b.relations = [.equal "a" "b", .equal "b" "c"] ∧ b.known = [("c", Shape.i64)] ∧
      b.OfEqualities ∧ b.Succeeds ∧ (b.infer.1.shape? "a").isSome := by
  obtain ⟨b, hrels, hknown⟩ : ∃ b : Board,
      b.relations = [.equal "a" "b", .equal "b" "c"] ∧ b.known = [("c", Shape.i64)] :=
    ⟨⟨[("c", Shape.i64)], [], [], [.equal "a" "b", .equal "b" "c"]⟩, rfl, rfl⟩
  have hi64 : ∀ {p s}, b.shape? p = some s → s = Shape.i64 := fun h => by
    rw [shape?, hknown] at h
    exact (Prod.mk.inj (List.mem_singleton.mp (Assoc.mem_of_lookup h))).2
  have hmem : ∀ r ∈ b.relations, r = .equal "a" "b" ∨ r = .equal "b" "c" := fun r hr => by
    rw [hrels] at hr
    exact List.mem_pair.mp hr
  have hof : b.OfEqualities := by
    refine ⟨fun r hr => ?_, fun r hr => ?_, fun p s hp => hi64 hp ▸ Shape.proper_i64⟩
    · rcases hmem r hr with rfl | rfl
      · exact ⟨"a", "b", rfl, rfl, rfl⟩
      · exact ⟨"b", "c", rfl, rfl, rfl⟩
    · rcases hmem r hr with rfl | rfl <;> rfl
  have hanswer := answer_of_equalities hof
  have hs : b.Succeeds := hanswer.succeeds_iff.mpr fun p q s t _ hp hq => by
    rw [hi64 hp, hi64 hq]
    exact Shape.same_refl Shape.proper_i64
  have hac : b.Connected "a" "c" := .trans _ "b" _
    (.rel _ _ ⟨.equal "a" "b", by simp [hrels], rfl, rfl, rfl⟩)
    (.rel _ _ ⟨.equal "b" "c", by simp [hrels], rfl, rfl, rfl⟩)
  exact ⟨b, hrels, hknown, hof, hs, (hanswer.resolved_iff hs "a").mpr
    (.inr ⟨"c", hac, by rw [shape?, hknown]; rfl⟩)⟩

end TypeSketch.Board
