import TypeSketch.Proofs.Inference.Outcome

/-!
# Inference — what stays

Learning only ever fills paths that have no shape, so inference takes back nothing that is known,
whether it fails or not, and leaves every shape frozen (`Board.Mixed.law`).  A relation that is
unified is not looked at again; when inference comes off, what it asked for holds all the same, and
each relation left over is idle, so that inferring once more is one pass that changes nothing
(`stable_of_mixed`).

The relations of a mixed board are those of the rules.  One between paths of one shape may lack a
path, as only a board put together by hand has it; an attempt at it fails.
-/

namespace TypeSketch

/-- Every known shape is frozen. -/
def Known.Frozen (k : Known) : Prop := ∀ p s, k.lookup p = some s → s.frozen = true

/-- Suggested shapes are frozen as they are learnt. -/
theorem Known.Grows.frozen {c : Bond} {k k' : Known} (h : Known.Grows c k k') (hk : k.Frozen) :
    k'.Frozen := by
  induction h with
  | refl => exact hk
  | learn _ _ _ ih =>
    intro q t hq
    rw [Assoc.lookup_put] at hq
    split at hq
    · cases hq; rfl
    · exact ih q t hq

/-- A relation of the kinds that the rules state. -/
inductive Relation.Standard : Relation → Prop
  | equal {r : Relation} (h : r.name = equalsTo) : Standard r
  | length (object member : String) : Standard (Rule.lengthRelation object member)
  | member (object key member : String) : Standard (Rule.memberRelation object key member)

/-- A relation between paths of one shape that can be tried has both paths. -/
theorem Relation.equates_of_unify {r : Relation} (h : r.name = equalsTo) {k : Known}
    {x : Bool × Known} (hu : r.unify k = .ok x) : ∃ l m, r.Equates l m := by
  have hname : (r.name == equalsTo) = true := by simpa using h
  simp only [unify, hname, if_true] at hu
  split at hu
  · next l m hl hm => exact ⟨l, m, h, hl, hm⟩
  · cases hu

theorem Relation.States.equates {r : Relation} {l m : String} (h : r.States (.equal l m)) :
    r.Equates l m := by
  cases h with
  | equal h => exact h

/-- An attempt that comes off is one at a bond. -/
theorem Relation.Standard.states {r : Relation} (hr : r.Standard) {k : Known} {x : Bool × Known}
    (hu : r.unify k = .ok x) : ∃ c, r.States c := by
  cases hr with
  | equal h =>
    obtain ⟨l, m, he⟩ := equates_of_unify h hu
    exact ⟨.equal l m, .equal he⟩
  | length o m => exact ⟨.length o m, .length o m⟩
  | member o key m => exact ⟨.member o key m, .member o key m⟩

namespace Board

/-! ### Idle relations -/

variable {rels : List Relation} {k : Known}

/-- A pass of idle attempts changes nothing. -/
theorem pass_of_idle (h : ∀ r ∈ rels, r.unified = false → r.unify k = .ok (false, k)) :
    pass rels k = (rels, k, none) := by
  induction rels with
  | nil => rfl
  | cons r rest ih =>
    rw [List.forall_mem_cons] at h
    have hrest := ih h.2
    cases hu : r.unified with
    | true => rw [pass_unified hu, hrest]
    | false => rw [pass_ok hu (h.1 hu), hrest, ← hu]

/-- Where each relation left over is idle, one more pass changes nothing and is the last. -/
theorem solve_of_idle (n : Nat)
    (h : ∀ r ∈ rels, r.unified = false → r.unify k = .ok (false, k)) :
    solve n rels k = (rels, k, .ok (n + 1)) := by
  rw [solve, pass_of_idle h]
  simp

/-! ### Mixed boards -/

/-- The relations are of the kinds that the rules state, and none is unified yet.  The known shapes
are frozen, and records, so none holds two values under one key. -/
structure Mixed (b : Board) : Prop where
  standard : ∀ r ∈ b.relations, r.Standard
  pending : ∀ r ∈ b.relations, r.unified = false
  proper : b.known.Proper
  frozen : b.known.Frozen

/-- What inference keeps, and what it has brought about when it comes off. -/
structure Stable (b : Board) : Prop where
  known : ∀ p s, b.shape? p = some s → b.infer.1.shape? p = some s
  frozen : ∀ p s, b.infer.1.shape? p = some s → s.frozen = true
  equal : b.Succeeds → ∀ r ∈ b.relations, r.name = Relation.equalsTo →
    ∃ l m, r.Equates l m ∧ b.infer.1.known.Agree l m
  length : b.Succeeds → ∀ o m, Rule.lengthRelation o m ∈ b.relations →
    (b.infer.1.shape? o).isSome ∧ (b.infer.1.shape? m).isSome
  again : b.Succeeds → b.infer.1.infer = (b.infer.1, .ok 1)

variable {b : Board}

theorem Mixed.map_fresh (hb : b.Mixed) : b.relations.map Relation.fresh = b.relations := by
  rw [List.map_congr_left fun r hr => Relation.fresh_of_pending (hb.pending r hr), List.map_id']

/-- The law of attempts on a mixed board: those that come off learn from a bond. -/
theorem Mixed.law (hb : b.Mixed) :
    Law (b.relations.map Relation.fresh) (fun k => k.Proper ∧ k.Frozen)
      (fun r k => ∃ c, r.States c ∧ c.Done k) := by
  rw [hb.map_fresh]
  have attempt : ∀ {r k u k'}, r ∈ b.relations → k.Proper → r.unify k = .ok (u, k') →
      ∃ c, r.States c ∧ c.Attempt k u k' := by
    intro r k u k' hr hk hu
    obtain ⟨c, hc⟩ := (hb.standard r hr).states hu
    exact ⟨c, hc, hc.attempt hk hu⟩
  refine ⟨fun hr hk hu => ?_, fun hr hk hu => ?_, fun hr hk hu => ?_, fun hr hk hu => ?_,
    fun hext ⟨c, hc, hdone⟩ => ⟨c, hc, hdone.stays hext⟩⟩
  all_goals obtain ⟨c, hc, h⟩ := attempt hr hk.1 hu
  · exact ⟨proper_of_grows hk.1 h.grows, h.grows.frozen hk.2⟩
  · exact h.grows.extends
  · exact ⟨c, hc, h.closed, h.anchored rfl⟩
  · exact h.idle rfl

theorem Mixed.settled (hb : b.Mixed) :
    Settled (fun r k => ∃ c, r.States c ∧ c.Done k) b.relations b.known := by
  intro r hr hu
  rw [hb.pending r hr] at hu
  cases hu

theorem Mixed.kept (hb : b.Mixed) :
    (b.infer.1.known.Proper ∧ b.infer.1.known.Frozen) ∧ b.known.Extends b.infer.1.known ∧
      Settled (fun r k => ∃ c, r.States c ∧ c.Done k) b.infer.1.relations b.infer.1.known :=
  solve_keeps (n := 0) hb.law ⟨hb.proper, hb.frozen⟩ hb.settled

/-- The relations left over by inference that comes off are idle. -/
theorem Mixed.idle (hb : b.Mixed) (hn : b.Succeeds) : ∀ r ∈ b.infer.1.relations,
    r.unified = false → r.unify b.infer.1.known = .ok (false, b.infer.1.known) := by
  obtain ⟨n, hn⟩ := hn
  exact solve_rests hb.law ⟨hb.proper, hb.frozen⟩ hb.settled hn

/-- When inference has come off, each relation states a bond that has nothing left to suggest, and
paths of one shape agree. -/
theorem Mixed.closed (hb : b.Mixed) (hn : b.Succeeds) : ∀ r ∈ b.relations,
    ∃ c, r.States c ∧ c.ClosedIn b.infer.1.known ∧
      ∀ l m, c = .equal l m → b.infer.1.known.Agree l m := by
  obtain ⟨⟨hproper, -⟩, -, hset⟩ := hb.kept
  have hrels : b.infer.1.relations.map Relation.fresh = b.relations :=
    (map_fresh_solve 0 b.relations b.known).trans hb.map_fresh
  intro r hr
  -- the relation as inference leaves it
  rw [← hrels] at hr
  obtain ⟨r, hr', rfl⟩ := List.mem_map.mp hr
  cases hu : r.unified with
  | true =>
    obtain ⟨c, hc, hdone⟩ := hset r hr' hu
    refine ⟨c, hc, hdone.closed, ?_⟩
    rintro l m rfl
    obtain ⟨s, t, hs, ht, hst⟩ := hdone.anchored
    rw [Known.Agree, hs, ht]
    exact .some hst
  | false =>
    have hidle := hb.idle hn r hr' hu
    rw [← Relation.fresh_of_pending hu] at hidle
    obtain ⟨c, hc⟩ := (hb.standard _ (hrels ▸ hr)).states hidle
    refine ⟨c, hc, (hc.attempt hproper hidle).closed, ?_⟩
    rintro l m rfl
    rw [Relation.unify_of_equates hc.equates] at hidle
    obtain ⟨hl, hm⟩ := Relation.unifyEqual_idle hidle
    rw [Known.Agree, hl, hm]
    exact .none

/-- Inference on a mixed board keeps what is known and comes to rest. -/
theorem stable_of_mixed (hb : b.Mixed) : b.Stable := by
  obtain ⟨⟨-, hfrozen⟩, hext, -⟩ := hb.kept
  refine ⟨hext, hfrozen, fun hn r hr he => ?_, fun hn o m hr => ?_, fun hn => ?_⟩
  · obtain ⟨c, hc, -, hagree⟩ := hb.closed hn r hr
    cases hc with
    | @equal _ l m h => exact ⟨l, m, h, hagree l m rfl⟩
    | length o m => simp [Rule.lengthRelation, Relation.equalsTo] at he
    | member o key m => simp [Rule.memberRelation, Relation.equalsTo] at he
  · obtain ⟨c, hc, hclosed, -⟩ := hb.closed hn _ hr
    obtain rfl := (Relation.States.length o m).unique hc
    have ho := hclosed o _ (.lengthObject o m)
    by_cases hne : m = o
    · exact ⟨ho, hne ▸ ho⟩
    · exact ⟨ho, hclosed m _ (.lengthMember hne)⟩
  · rw [infer, solve_of_idle 0 (hb.idle hn)]

/-- A board with relations of each kind, one of them a length that is its own object. -/
def mixture : Board where
  known := [("key", Shape.string), ("flag", Shape.bool)]
  relations := [.equal "open" "ended", Rule.memberRelation "table" "key" "entry",
    Rule.lengthRelation "row" "row", .equal "copy" "table", Rule.lengthRelation "copy" "size",
    Rule.memberRelation "flag" "key" "part", .equal "flag" "flag"]

theorem mixed_mixture : mixture.Mixed := by
  refine ⟨fun r hr => ?_, fun r hr => ?_, fun p s hp => ?_, fun p s hp => ?_⟩
  · simp only [mixture, List.mem_cons, List.not_mem_nil, or_false] at hr
    rcases hr with rfl | rfl | rfl | rfl | rfl | rfl | rfl
    · exact .equal rfl
    · exact .member _ _ _
    · exact .length _ _
    · exact .equal rfl
    · exact .length _ _
    · exact .member _ _ _
    · exact .equal rfl
  · simp only [mixture, List.mem_cons, List.not_mem_nil, or_false] at hr
    rcases hr with rfl | rfl | rfl | rfl | rfl | rfl | rfl <;> rfl
  all_goals
    rcases List.mem_pair.mp (Assoc.mem_of_lookup hp) with he | he <;> cases he
  · exact Shape.proper_string
  · exact Shape.proper_bool
  · rfl
  · rfl

theorem stable_mixture : mixture.Mixed ∧ mixture.Succeeds ∧ mixture.Stable :=
  ⟨mixed_mixture, by decide +kernel, stable_of_mixed mixed_mixture⟩

end Board

end TypeSketch
