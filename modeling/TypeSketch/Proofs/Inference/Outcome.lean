import TypeSketch.Proofs.Inference.Attempts

/-!
# Inference — the outcome of a board of bonds

`Board.outcome` sums up what inference makes of a board whose relations all state bonds.  What is
known at the end can be found by trying relations one at a time (`Board.Tried`), whether inference
fails or not.  If it does not fail, no bond has anything left to suggest and paths of one shape
agree; and if it fails, two paths of one shape had different ones after some tries.

Whatever learning a suggested shape keeps holds after any tries (`Tried.learning`).

A try is one attempt that learns one suggested shape, of any relation and at any time; the passes of
the solver are one way to make tries. So an invariant that a try keeps holds of whatever the solver
finds, in every order of its relations, and need not be carried through the loop again
(`Tried.learning`).
-/

namespace TypeSketch

/-- Two paths have the same shape or none. -/
def Known.Agree (k : Known) (p q : String) : Prop :=
  Option.Rel (fun s t : Shape => s.same t = true) (k.lookup p) (k.lookup q)

namespace Known

theorem Proper.agree_self {k : Known} (hk : k.Proper) (p : String) : k.Agree p p := by
  unfold Agree
  cases hp : k.lookup p with
  | none => exact .none
  | some s => exact .some (Shape.same_refl (hk p s hp))

theorem Agree.symm {k : Known} (hk : k.Proper) {p q : String} (h : k.Agree p q) : k.Agree q p :=
  Assoc.rel_symm_of_mem h fun _ _ hs ht hst => Shape.same_symm (hk _ _ hs) (hk _ _ ht) hst

theorem Agree.trans {k : Known} (hk : k.Proper) {p q r : String} (h : k.Agree p q)
    (h' : k.Agree q r) : k.Agree p r :=
  Assoc.rel_trans_of_mem h h' fun _ _ _ hs ht hu hst htu =>
    Shape.same_trans (hk _ _ hs) (hk _ _ ht) (hk _ _ hu) hst htu

/-- Paths that agree both have a shape or neither has. -/
theorem Agree.isSome_iff {k : Known} {p q : String} (h : k.Agree p q) :
    (k.lookup p).isSome ↔ (k.lookup q).isSome := by
  rw [Assoc.isSome_eq_of_rel h]

/-- The shapes of paths that agree are the same. -/
theorem Agree.same {k : Known} {p q : String} (h : k.Agree p q) {s t : Shape}
    (hs : k.lookup p = some s) (ht : k.lookup q = some t) : s.same t = true := by
  unfold Agree at h
  rw [hs, ht] at h
  cases h with
  | some hst => exact hst

end Known

namespace Board

/-- Every relation states a bond and none is unified yet.  The known shapes are records, so none
holds two values under one key. -/
structure Stated (b : Board) : Prop where
  bond : ∀ r ∈ b.relations, ∃ c, r.States c
  pending : ∀ r ∈ b.relations, r.unified = false
  proper : b.known.Proper

theorem Stated.map_fresh {b : Board} (hb : b.Stated) :
    b.relations.map Relation.fresh = b.relations := by
  rw [List.map_congr_left fun r hr => Relation.fresh_of_pending (hb.pending r hr), List.map_id']

/-! ### Tries -/

/-- What can be known after some tries, in any order and each as often as one likes. -/
inductive Tried (b : Board) : Known → Prop
  | start : Tried b b.known
  | step {r : Relation} {k k' : Known} {u : Bool} (hk : Tried b k) (hr : r ∈ b.relations)
      (hu : r.unify k = .ok (u, k')) : Tried b k'

/-- A bond suggests proper shapes. -/
theorem proper_of_suggests {c : Bond} {g : String → Option Shape} {p : String} {s : Shape}
    (hg : ∀ q t, g q = some t → t.Proper) (hs : c.Suggests g p s) : s.Proper := by
  cases hs with
  | right hs | left hs => exact hg _ _ hs
  | lengthObject | objectOfInteger => exact Shape.proper_vector Shape.proper_allValue
  | lengthMember | keyOfVector => exact Shape.proper_i64
  | objectOfString => exact Shape.proper_copy.mpr Shape.proper_object
  | keyOfObject => exact Shape.proper_string
  | element _ _ ho he => exact Relation.proper_of_elementOf? (hg _ _ ho) he

theorem proper_put {k : Known} {p : String} {s : Shape} (hk : k.Proper) (hs : s.Proper) :
    Known.Proper (Assoc.put p s.freeze k) := by
  intro q t hq
  rw [Assoc.lookup_put] at hq
  split at hq
  · cases hq; exact Shape.proper_freeze.mpr hs
  · exact hk q t hq

theorem proper_of_grows {c : Bond} {k k' : Known} (hk : k.Proper) (h : Known.Grows c k k') :
    k'.Proper := by
  induction h with
  | refl => exact hk
  | learn _ _ hs ih => exact proper_put ih (proper_of_suggests ih hs)

variable {b : Board}

/-- Tries keep what is known proper. -/
theorem Tried.proper (hb : b.Stated) {k : Known} (h : b.Tried k) : k.Proper := by
  induction h with
  | start => exact hb.proper
  | step _ hr hu ih =>
    obtain ⟨c, hc⟩ := hb.bond _ hr
    exact proper_of_grows ih (hc.attempt ih hu).grows

/-- Tries take nothing back. -/
theorem Tried.extends (hb : b.Stated) {k : Known} (h : b.Tried k) : b.known.Extends k := by
  induction h with
  | start => exact .refl b.known
  | step hk hr hu ih =>
    obtain ⟨c, hc⟩ := hb.bond _ hr
    exact ih.trans (hc.attempt (hk.proper hb) hu).grows.extends

/-- What holds of the board and is kept by learning a suggested shape holds after any tries. -/
theorem Tried.learning (hb : b.Stated) {P : Known → Prop} (start : P b.known)
    (learn : ∀ {r c k p s}, r ∈ b.relations → r.States c → k.Proper → P k → k.lookup p = none →
      c.Suggests (fun q => k.lookup q) p s → P (Assoc.put p s.freeze k))
    {k : Known} (h : b.Tried k) : P k := by
  induction h with
  | start => exact start
  | step hk hr hu ih =>
    obtain ⟨c, hc⟩ := hb.bond _ hr
    have hgrows := (hc.attempt (hk.proper hb) hu).grows
    clear hu
    induction hgrows with
    | refl => exact ih
    | learn hg hp hs ih =>
      exact learn hr hc (proper_of_grows (hk.proper hb) hg) ih hp hs

/-! ### The outcome -/

/-- Inference comes off. -/
def Succeeds (b : Board) : Prop := ∃ n, b.infer.2 = .ok n

instance (b : Board) : Decidable b.Succeeds :=
  decidable_of_iff (b.infer.2.toBool = true) <| by
    unfold Succeeds
    cases b.infer.2 <;> simp [Except.toBool]

/-- What inference makes of a board. -/
structure Outcome (b : Board) : Prop where
  tried : b.Tried b.infer.1.known
  relations : b.infer.1.relations.map Relation.fresh = b.relations
  closed : b.Succeeds → ∀ r ∈ b.relations, ∀ c, r.States c → c.ClosedIn b.infer.1.known
  agree : b.Succeeds → ∀ r ∈ b.relations, ∀ l m, r.Equates l m → b.infer.1.known.Agree l m
  unified : ∀ r ∈ b.infer.1.relations, r.unified = true → ∀ c, r.fresh.States c →
    c.Anchored b.infer.1.known
  pending : b.Succeeds → ∀ r ∈ b.infer.1.relations, r.unified = false →
    ∀ l m, r.Equates l m → b.infer.1.known.lookup l = none
  conflict : ∀ {e}, b.infer.2 = .error e → ∃ r ∈ b.relations, ∃ l m k s t, r.Equates l m ∧
    b.Tried k ∧ k.lookup l = some s ∧ k.lookup m = some t ∧ s.same t = false ∧
    e = .conflict l s.text m t.text

/-- The law of attempts at bonds. -/
theorem Stated.law (hb : b.Stated) :
    Law b.relations b.Tried (fun r k => ∃ c, r.States c ∧ c.Done k) where
  keeps hr hk hu := hk.step hr hu
  grows hr hk hu := by
    obtain ⟨c, hc⟩ := hb.bond _ hr
    exact (hc.attempt (hk.proper hb) hu).grows.extends
  settles hr hk hu := by
    obtain ⟨c, hc⟩ := hb.bond _ hr
    have h := hc.attempt (hk.proper hb) hu
    exact ⟨c, hc, h.closed, h.anchored rfl⟩
  idle hr hk hu := by
    obtain ⟨c, hc⟩ := hb.bond _ hr
    exact (hc.attempt (hk.proper hb) hu).idle rfl
  stays hext h := by
    obtain ⟨c, hc, hdone⟩ := h
    exact ⟨c, hc, hdone.stays hext⟩

/-- The outcome of inference on a board of bonds. -/
theorem outcome (hb : b.Stated) : b.Outcome := by
  have law : Law (b.relations.map Relation.fresh) b.Tried
      (fun r k => ∃ c, r.States c ∧ c.Done k) := by
    rw [hb.map_fresh]
    exact hb.law
  have hsettled : Settled (fun r k => ∃ c, r.States c ∧ c.Done k) b.relations b.known :=
    fun r hr hu => by rw [hb.pending r hr] at hu; cases hu
  obtain ⟨hk, -, hset⟩ := solve_keeps (n := 0) law .start hsettled
  have hrels : b.infer.1.relations.map Relation.fresh = b.relations :=
    (map_fresh_solve 0 b.relations b.known).trans hb.map_fresh
  have hproper := hk.proper hb
  -- each relation of the board is left unified and done, or pending and idle
  have hleft : b.Succeeds → ∀ r ∈ b.relations, ∀ c, r.States c →
      c.Done b.infer.1.known ∨
        r.unify b.infer.1.known = .ok (false, b.infer.1.known) := by
    rintro ⟨n, hn⟩ r hr c hc
    rw [← hrels] at hr
    obtain ⟨r', hr', rfl⟩ := List.mem_map.mp hr
    cases hu : r'.unified with
    | true =>
      obtain ⟨c', hc', hdone⟩ := hset r' hr' hu
      exact .inl (hc.unique hc' ▸ hdone)
    | false =>
      rw [Relation.fresh_of_pending hu]
      exact .inr (solve_rests law .start hsettled hn r' hr' hu)
  refine ⟨hk, hrels, fun hn r hr c hc => ?_, fun hn r hr l m he => ?_,
    fun r hr hu c hc => ?_, fun ⟨n, hn⟩ r hr hu l m he => ?_, fun he => ?_⟩
  · rcases hleft hn r hr c hc with hdone | hidle
    · exact hdone.closed
    · exact (hc.attempt hproper hidle).closed
  · rcases hleft hn r hr _ (.equal he) with hdone | hidle
    · obtain ⟨s, t, hs, ht, hst⟩ := hdone.anchored
      rw [Known.Agree, hs, ht]
      exact .some hst
    · rw [Relation.unify_of_equates he] at hidle
      obtain ⟨hl, hm⟩ := Relation.unifyEqual_idle hidle
      rw [Known.Agree, hl, hm]
      exact .none
  · obtain ⟨c', hc', hdone⟩ := hset r hr hu
    exact hc.unique hc' ▸ hdone.anchored
  · have hidle := solve_rests law .start hsettled hn r hr hu
    rw [Relation.unify_of_equates he] at hidle
    exact (Relation.unifyEqual_idle hidle).1
  -- of the attempts that fail, the first names two paths of one shape
  · obtain ⟨r, hr, k, hk, hu⟩ := solve_fails law.keeps .start he
    rw [hb.map_fresh] at hr
    obtain ⟨c, hc⟩ := hb.bond r hr
    obtain ⟨l, m, s, t, rfl, hs, ht, hst, rfl⟩ := hc.attempt_fails hu
    cases hc with
    | equal heq => exact ⟨r, hr, l, m, k, s, t, heq, hk, hs, ht, hst, rfl⟩

theorem Outcome.proper (hb : b.Stated) (h : b.Outcome) : b.infer.1.known.Proper :=
  h.tried.proper hb

theorem Outcome.extends (hb : b.Stated) (h : b.Outcome) : b.known.Extends b.infer.1.known :=
  h.tried.extends hb

end Board

end TypeSketch
