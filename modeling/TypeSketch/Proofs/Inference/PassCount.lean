import Mathlib.Combinatorics.SimpleGraph.Metric
import Mathlib.Order.CompletePartialOrder
import TypeSketch.Proofs.Inference.Components

/-!
# Inference — how many passes

The loop of passes ends for any attempts that come back, whatever they read and change: each pass
but the last unifies a relation for good (`halts_within`).

Where every relation says that two paths have one shape, a shape is passed on along one relation in
each pass at the latest, so the passes follow the graph of paths (`Board.graph`).  After `n` passes
the paths at most `n` relations away from a known one have a shape (`Front.near`), and the relations
at paths less than `n` away are unified (`Front.unified`).  With `D` the largest distance of a path
that has a shape at the end (`Board.spread`), pass `D + 1` leaves no relation for another one to
unify.
-/

namespace TypeSketch

namespace Board

/-! ### The loop of passes -/

section Loop
variable {σ : Type} (attempt : Relation → σ → Except Error Bool × σ)

/-- One pass of attempts that may read and change a state of any sort, also where they fail. -/
def round : List Relation → σ → List Relation × σ × Option Error
  | [], s => ([], s, none)
  | r :: rest, s =>
    if r.unified then
      let (rest, s, error) := round rest s
      (r :: rest, s, error)
    else
      match attempt r s with
      | (.error e, s) => (r :: rest, s, some e)
      | (.ok unified, s) =>
        let (rest, s, error) := round rest s
        ({ r with unified } :: rest, s, error)

/-- The loop of passes ends with its `n`-th, the first that fails or unifies nothing, and this is
what it leaves. -/
inductive Halts : Nat → List Relation → σ → List Relation × σ × Option Error → Prop
  | fails {rels : List Relation} {s : σ} {e : Error} (he : (round attempt rels s).2.2 = some e) :
      Halts 1 rels s (round attempt rels s)
  | rests {rels : List Relation} {s : σ} (he : (round attempt rels s).2.2 = none)
      (hle : ¬ pending (round attempt rels s).1 < pending rels) :
      Halts 1 rels s (round attempt rels s)
  | again {n : Nat} {rels : List Relation} {s : σ} {out : List Relation × σ × Option Error}
      (he : (round attempt rels s).2.2 = none)
      (hlt : pending (round attempt rels s).1 < pending rels)
      (next : Halts n (round attempt rels s).1 (round attempt rels s).2.1 out) :
      Halts (n + 1) rels s out

/-- The loop ends, whatever the attempts do, and each pass but the last has unified a relation. -/
theorem halts_within (rels : List Relation) (s : σ) :
    ∃ n out, Halts attempt n rels s out ∧ n ≤ pending rels + 1 := by
  induction hp : pending rels using Nat.strong_induction_on generalizing rels s with
  | _ p ih =>
    cases he : (round attempt rels s).2.2 with
    | some e => exact ⟨1, _, .fails he, by omega⟩
    | none =>
      by_cases hlt : pending (round attempt rels s).1 < pending rels
      · obtain ⟨n, out, hn, hle⟩ := ih _ (hp ▸ hlt) (round attempt rels s).1
          (round attempt rels s).2.1 rfl
        exact ⟨n + 1, out, .again he hlt hn, by omega⟩
      · exact ⟨1, _, .rests he hlt, by omega⟩

variable {attempt}

/-- The loop has one end. -/
theorem Halts.unique {n m : Nat} {rels : List Relation} {s : σ}
    {out out' : List Relation × σ × Option Error} (h : Halts attempt n rels s out)
    (h' : Halts attempt m rels s out') : n = m ∧ out = out' := by
  induction h generalizing m with
  | fails he =>
    cases h' with
    | fails | rests => exact ⟨rfl, rfl⟩
    | again he' => simp [he] at he'
  | rests he hle =>
    cases h' with
    | fails | rests => exact ⟨rfl, rfl⟩
    | again _ hlt => exact absurd hlt hle
  | again he hlt _ ih =>
    cases h' with
    | fails he' => simp [he] at he'
    | rests _ hle => exact absurd hlt hle
    | again _ _ next =>
      obtain ⟨rfl, rfl⟩ := ih next
      exact ⟨rfl, rfl⟩

end Loop

end Board

/-- Try a relation, where an attempt that fails leaves what is known. -/
def Relation.attempt (r : Relation) (known : Known) : Except Error Bool × Known :=
  match r.unify known with
  | .ok (unified, known) => (.ok unified, known)
  | .error e => (.error e, known)

namespace Board

/-- A pass of the solver is a round of attempts that leave what is known when they fail. -/
theorem round_attempt (rels : List Relation) (k : Known) :
    round Relation.attempt rels k = pass rels k := by
  induction rels generalizing k with
  | nil => rfl
  | cons r rest ih =>
    cases hu : r.unified with
    | true => rw [pass_unified hu, round, if_pos hu, ih]
    | false =>
      cases hr : r.unify k with
      | error e => rw [pass_error hu hr, round]; simp [hu, Relation.attempt, hr]
      | ok out => rw [pass_ok hu hr, round]; simp [hu, Relation.attempt, hr, ih]

/-- What the loop of attempts leaves is what solving gives. -/
theorem solve_of_halts {n : Nat} {rels : List Relation} {k : Known}
    {out : List Relation × Known × Option Error} (h : Halts Relation.attempt n rels k out)
    (m : Nat) :
    solve m rels k =
      (out.1, out.2.1, match out.2.2 with | some e => .error e | none => .ok (m + n)) := by
  induction h generalizing m with
  | fails he =>
    rw [round_attempt] at he ⊢
    simp only [solve_error he, he]
  | rests he hle =>
    rw [round_attempt] at he hle ⊢
    simp only [solve_rest he hle, he]
  | again he hlt _ ih =>
    rw [round_attempt] at he hlt ih
    rw [solve_again he hlt, ih, Nat.add_right_comm, Nat.add_assoc]

/-! ### Distances -/

variable {b : Board}

/-- The graph of paths, with an edge for each relation between two of them. -/
def graph (b : Board) : SimpleGraph String := SimpleGraph.fromRel b.Linked

/-- How many relations there are from a path to the nearest one whose shape is known, `⊤` if none
is reached. -/
noncomputable def distance (b : Board) (p : String) : ℕ∞ :=
  ⨅ q, ⨅ _ : (b.shape? q).isSome, b.graph.edist p q

/-- The largest distance of a path that has a shape at the end, `0` if none has. -/
noncomputable def spread (b : Board) : ℕ∞ :=
  ⨆ p, ⨆ _ : (b.infer.1.shape? p).isSome, b.distance p

theorem distance_le_iff {p : String} {n : Nat} :
    b.distance p ≤ n ↔ ∃ q, (b.shape? q).isSome ∧ b.graph.edist p q ≤ n := by
  rw [← ENat.lt_natCast_add_one_iff, distance]
  simp only [iInf_lt_iff, ENat.lt_natCast_add_one_iff, exists_prop]

theorem known_of_distance {p : String} (h : b.distance p ≤ (0 : Nat)) : (b.shape? p).isSome := by
  obtain ⟨q, hq, hpq⟩ := distance_le_iff.mp h
  rw [Nat.cast_zero, nonpos_iff_eq_zero, SimpleGraph.edist_eq_zero_iff] at hpq
  exact hpq ▸ hq

/-- A path that is not known but close to a known one is linked to one that is closer. -/
theorem closer_of_distance {p : String} {n : Nat} (h : b.distance p ≤ (n + 1 : Nat)) :
    (b.shape? p).isSome ∨ ∃ q, b.graph.Adj p q ∧ b.distance q ≤ n := by
  obtain ⟨o, ho, hpo⟩ := distance_le_iff.mp h
  have hreach := SimpleGraph.reachable_of_edist_ne_top
    (ne_top_of_le_ne_top (ENat.natCast_ne_top (n + 1)) hpo)
  obtain ⟨w, hw⟩ := hreach.exists_walk_length_eq_edist
  rw [← hw, Nat.cast_le] at hpo
  cases w with
  | nil => exact .inl ho
  | @cons _ q _ hadj w =>
    rw [SimpleGraph.Walk.length_cons, Nat.add_le_add_iff_right] at hpo
    exact .inr ⟨q, hadj, distance_le_iff.mpr
      ⟨o, ho, (SimpleGraph.edist_le w).trans (Nat.cast_le.mpr hpo)⟩⟩

theorem distance_ne_top_iff {p : String} :
    b.distance p ≠ ⊤ ↔ ∃ q, (b.shape? q).isSome ∧ b.graph.Reachable p q := by
  simp [distance, SimpleGraph.edist_ne_top_iff_reachable]

theorem reachable_of_equates {r : Relation} {l m : String} (hr : r ∈ b.relations)
    (he : r.Equates l m) : b.graph.Reachable l m := by
  by_cases hlm : l = m
  · exact hlm ▸ .refl l
  · exact SimpleGraph.Adj.reachable ((SimpleGraph.fromRel_adj ..).mpr ⟨hlm, .inl ⟨r, hr, he⟩⟩)

/-! ### Attempts at paths of one shape -/

/-- A path of the relation has a shape. -/
def Touched (r : Relation) (k : Known) : Prop :=
  ∃ l m, r.Equates l m ∧ ((k.lookup l).isSome ∨ (k.lookup m).isSome)

/-- Both paths of the relation have a shape. -/
def Covered (r : Relation) (k : Known) : Prop :=
  ∀ l m, r.Equates l m → (k.lookup l).isSome ∧ (k.lookup m).isSome

/-- What an attempt at two paths of one shape that comes off has done. -/
structure Passed (l m : String) (k : Known) (u : Bool) (k' : Known) : Prop where
  grows : k.Extends k'
  touched : (k.lookup l).isSome ∨ (k.lookup m).isSome → u = true
  covered : u = true → (k'.lookup l).isSome ∧ (k'.lookup m).isSome
  idle : u = false → k' = k
  from_end : ∀ p, (k'.lookup p).isSome → (k.lookup p).isSome ∨
    (p = l ∧ (k.lookup m).isSome) ∨ (p = m ∧ (k.lookup l).isSome)

/-- An attempt at two paths of one shape does as `Passed` says. -/
theorem passed_of_unifyEqual {l m : String} {k k' : Known} {u : Bool}
    (hu : Relation.unifyEqual l m k = .ok (u, k')) : Passed l m k u k' := by
  unfold Relation.unifyEqual at hu
  split at hu
  · next s hl hm =>
    cases hu
    refine ⟨Known.extends_put hm, fun _ => rfl, fun _ => ?_, by simp, fun p hp => ?_⟩
    · exact ⟨by rw [Known.extends_put hm _ _ hl]; rfl, by rw [Assoc.lookup_put_self]; rfl⟩
    · by_cases hpm : p = m
      · exact .inr (.inr ⟨hpm, by rw [hl]; rfl⟩)
      · exact .inl (by rwa [Assoc.lookup_put_of_ne hpm] at hp)
  · next s hl hm =>
    cases hu
    refine ⟨Known.extends_put hl, fun _ => rfl, fun _ => ?_, by simp, fun p hp => ?_⟩
    · exact ⟨by rw [Assoc.lookup_put_self]; rfl, by rw [Known.extends_put hl _ _ hm]; rfl⟩
    · by_cases hpl : p = l
      · exact .inr (.inl ⟨hpl, by rw [hm]; rfl⟩)
      · exact .inl (by rwa [Assoc.lookup_put_of_ne hpl] at hp)
  · next s t hl hm =>
    split at hu
    · cases hu
      exact ⟨.refl k, fun _ => rfl, fun _ => ⟨by rw [hl]; rfl, by rw [hm]; rfl⟩, by simp,
        fun p hp => .inl hp⟩
    · cases hu
  · next hl hm =>
    cases hu
    exact ⟨.refl k, by simp [hl, hm], by simp, fun _ => rfl, fun p hp => .inl hp⟩

/-- The relations say that two paths have one shape. -/
def Equalities (rels : List Relation) : Prop := ∀ r ∈ rels, ∃ l m, r.Equates l m

/-- An attempt at a relation between two paths of one shape does with these as `Passed` says. -/
theorem Equalities.passed {rels : List Relation} (h : Equalities rels) {r : Relation}
    {k k' : Known} {u : Bool} (hr : r ∈ rels) (hu : r.unify k = .ok (u, k')) :
    ∃ l m, r.Equates l m ∧ Passed l m k u k' := by
  obtain ⟨l, m, he⟩ := h r hr
  rw [Relation.unify_of_equates he] at hu
  exact ⟨l, m, he, passed_of_unifyEqual hu⟩

/-- The law of attempts at paths of one shape: a shape comes from a path in reach. -/
theorem Equalities.law (h : Equalities b.relations) :
    Law b.relations (fun k => ∀ p, (k.lookup p).isSome → b.distance p ≠ ⊤) Covered where
  keeps hr hk hu p hp := by
    obtain ⟨l, m, he, hpass⟩ := h.passed hr hu
    have hreach := reachable_of_equates hr he
    rcases hpass.from_end p hp with hp | ⟨rfl, hm⟩ | ⟨rfl, hl⟩
    · exact hk p hp
    · obtain ⟨q, hq, hmq⟩ := distance_ne_top_iff.mp (hk m hm)
      exact distance_ne_top_iff.mpr ⟨q, hq, hreach.trans hmq⟩
    · obtain ⟨q, hq, hlq⟩ := distance_ne_top_iff.mp (hk l hl)
      exact distance_ne_top_iff.mpr ⟨q, hq, hreach.symm.trans hlq⟩
  grows hr _ hu := by
    obtain ⟨l, m, -, hpass⟩ := h.passed hr hu
    exact hpass.grows
  settles hr _ hu l' m' he' := by
    obtain ⟨l, m, he, hpass⟩ := h.passed hr hu
    obtain rfl := Option.some.inj (he.2.1.symm.trans he'.2.1)
    obtain rfl := Option.some.inj (he.2.2.symm.trans he'.2.2)
    exact hpass.covered rfl
  idle hr _ hu := by
    obtain ⟨l, m, -, hpass⟩ := h.passed hr hu
    exact hpass.idle rfl
  stays hext hq l m he := ⟨hext.isSome (hq l m he).1, hext.isSome (hq l m he).2⟩

/-- A pass that ends well unifies each relation that a shape was known for. -/
theorem unified_of_pass {rels : List Relation} {k : Known}
    (h : Equalities (rels.map Relation.fresh)) (he : (pass rels k).2.2 = none) {r : Relation}
    (hr : r ∈ (pass rels k).1) (ht : Touched r k) : r.unified = true := by
  induction rels generalizing k with
  | nil => cases hr
  | cons r₀ rest ih =>
    have hrest : Equalities (rest.map Relation.fresh) :=
      fun r' hr' => h r' (List.mem_cons_of_mem _ hr')
    cases hu : r₀.unified with
    | true =>
      rw [pass_unified hu] at he hr
      rcases List.mem_cons.mp hr with rfl | hr
      · exact hu
      · exact ih hrest he hr ht
    | false =>
      cases hat : r₀.unify k with
      | error e => rw [pass_error hu hat] at he; cases he
      | ok out =>
        obtain ⟨u, k₁⟩ := out
        obtain ⟨l, m, heq, hpass⟩ := h.passed (mem_map_fresh rest hu) hat
        rw [pass_ok hu hat] at he hr
        obtain ⟨l', m', heq', hlm⟩ := ht
        rcases List.mem_cons.mp hr with rfl | hr
        · obtain rfl := Option.some.inj (heq.2.1.symm.trans heq'.2.1)
          obtain rfl := Option.some.inj (heq.2.2.symm.trans heq'.2.2)
          exact hpass.touched hlm
        · exact ih hrest he hr ⟨l', m', heq', hlm.imp hpass.grows.isSome hpass.grows.isSome⟩

/-- A pass that leaves fewer relations has unified one. -/
theorem exists_unified_of_lt {rels : List Relation} {k : Known}
    (hlt : pending (pass rels k).1 < pending rels) :
    ∃ r ∈ rels, r.unified = false ∧ { r with unified := true } ∈ (pass rels k).1 := by
  induction rels generalizing k with
  | nil => exact absurd hlt (lt_irrefl _)
  | cons r rest ih =>
    -- one of the others, if the head is not it
    have later : ∀ {k' : Known} {r' : Relation}, pending (pass rest k').1 < pending rest →
        ∃ r₁ ∈ r :: rest, r₁.unified = false ∧
          { r₁ with unified := true } ∈ r' :: (pass rest k').1 := by
      intro k' r' hlt
      obtain ⟨r₁, hr₁, hu, hmem⟩ := ih hlt
      exact ⟨r₁, List.mem_cons_of_mem _ hr₁, hu, List.mem_cons_of_mem _ hmem⟩
    cases hu : r.unified with
    | true =>
      rw [pass_unified hu] at hlt ⊢
      rw [pending_cons, pending_cons, Nat.add_lt_add_iff_left] at hlt
      exact later hlt
    | false =>
      cases hat : r.unify k with
      | error e => rw [pass_error hu hat] at hlt; exact absurd hlt (lt_irrefl _)
      | ok out =>
        obtain ⟨u, k₁⟩ := out
        rw [pass_ok hu hat] at hlt ⊢
        cases u with
        | true => exact ⟨r, List.mem_cons_self, hu, List.mem_cons_self⟩
        | false =>
          rw [pending_cons, pending_cons, hu] at hlt
          exact later (Nat.lt_of_add_lt_add_left hlt)

/-! ### The front -/

/-- What `n` passes have brought about. -/
structure Front (b : Board) (n : Nat) (rels : List Relation) (k : Known) : Prop where
  fresh : rels.map Relation.fresh = b.relations
  settled : Settled Covered rels k
  reached : ∀ p, (k.lookup p).isSome → b.distance p ≠ ⊤
  grows : b.known.Extends k
  near : ∀ p, b.distance p ≤ n → (k.lookup p).isSome
  unified : ∀ r ∈ rels, ∀ l m, r.Equates l m → b.distance l + 1 ≤ n → r.unified = true

/-- Before the first pass the front is at the known paths. -/
theorem Front.start (hpending : ∀ r ∈ b.relations, r.unified = false) :
    b.Front 0 b.relations b.known where
  fresh := by rw [List.map_congr_left fun r hr => Relation.fresh_of_pending (hpending r hr),
    List.map_id']
  settled r hr hu := by rw [hpending r hr] at hu; cases hu
  reached p hp := distance_ne_top_iff.mpr ⟨p, hp, .refl p⟩
  grows := .refl _
  near _ hp := known_of_distance hp
  unified _ _ l m _ hl := by simp at hl

theorem Front.law {n : Nat} {rels : List Relation} {k : Known} (hf : b.Front n rels k)
    (h : Equalities b.relations) : Law (rels.map Relation.fresh)
      (fun k => ∀ p, (k.lookup p).isSome → b.distance p ≠ ⊤) Covered := by
  rw [hf.fresh]
  exact h.law

/-- One pass moves the front on by a relation. -/
theorem Front.pass {n : Nat} {rels : List Relation} {k : Known} (h : Equalities b.relations)
    (hf : b.Front n rels k) (he : (Board.pass rels k).2.2 = none) :
    b.Front (n + 1) (Board.pass rels k).1 (Board.pass rels k).2.1 := by
  obtain ⟨hreached, hext, hsettled⟩ := pass_keeps (hf.law h) hf.reached hf.settled
  have hfresh := (map_fresh_pass rels k).trans hf.fresh
  have htouched : ∀ r ∈ (Board.pass rels k).1, Touched r k → r.unified = true :=
    fun r hr => unified_of_pass (by rwa [hf.fresh]) he hr
  refine ⟨hfresh, hsettled, hreached, hf.grows.trans hext, fun p hp => ?_,
    fun r hr l m heq hl => ?_⟩
  · rcases closer_of_distance hp with hp | ⟨q, hadj, hq⟩
    · exact (hf.grows.trans hext).isSome hp
    · -- the relation that leads closer was touched, and so it is unified now
      obtain ⟨-, hlink⟩ := (SimpleGraph.fromRel_adj ..).mp hadj
      have hq := hf.near q hq
      have hcovered : ∀ r ∈ b.relations, Touched r k → Covered r (Board.pass rels k).2.1 := by
        intro r hr ht
        rw [← hfresh] at hr
        obtain ⟨r', hr', rfl⟩ := List.mem_map.mp hr
        exact hsettled r' hr' (htouched r' hr' ht)
      rcases hlink with ⟨r, hr, heq⟩ | ⟨r, hr, heq⟩
      · exact (hcovered r hr ⟨p, q, heq, .inr hq⟩ p q heq).1
      · exact (hcovered r hr ⟨q, p, heq, .inl hq⟩ q p heq).2
  · refine htouched r hr ⟨l, m, heq, .inl (hf.near l ?_)⟩
    rw [Nat.cast_add, Nat.cast_one] at hl
    exact (ENat.add_le_add_iff_right ENat.one_ne_top).mp hl

/-- Once every path that ends with a shape was in reach a pass ago, there is nothing to unify. -/
theorem passes_le_of_front {n m D : Nat} {rels : List Relation} {k : Known}
    (h : Equalities b.relations) (hf : b.Front n rels k)
    (hD : ∀ p, ((solve n rels k).2.1.lookup p).isSome → b.distance p ≤ D)
    (hm : (solve n rels k).2.2 = .ok m) : m ≤ max (n + 1) (D + 2) := by
  fun_induction solve n rels k with
  | case1 n rels k next e he => cases hm
  | case2 n rels k next he hlt ih =>
    have hnext := hf.pass h he
    have hle := ih hnext hD hm
    have hn : n ≤ D := by
      by_contra hn
      obtain ⟨r, hr, hu, hmem⟩ := exists_unified_of_lt hlt
      obtain ⟨l, m, heq⟩ := h r.fresh (hf.fresh ▸ List.mem_map_of_mem hr)
      -- the relation that this pass unifies has its paths in reach
      have hl := (hnext.settled _ hmem rfl l m heq).1
      obtain ⟨-, hext, -⟩ := solve_keeps (n := n + 1) (hnext.law h) hnext.reached hnext.settled
      have hdist : b.distance l + 1 ≤ n :=
        (add_le_add_left (hD l (hext.isSome hl)) 1).trans (by exact_mod_cast not_le.mp hn)
      rw [hf.unified r hr l m heq hdist] at hu
      cases hu
    omega
  | case3 n rels k next he hlt =>
    cases hm
    exact le_max_left _ _

/-- The paths with a shape at the end are finitely many, and each in reach of a known one. -/
theorem spread_ne_top (h : Equalities b.relations)
    (hpending : ∀ r ∈ b.relations, r.unified = false) : b.spread ≠ ⊤ := by
  have hf := Front.start hpending
  obtain ⟨hreached, -, -⟩ := solve_keeps (n := 0) (hf.law h) hf.reached hf.settled
  have hle : b.spread ≤ (b.infer.1.known.map Prod.fst).toFinset.sup b.distance :=
    iSup₂_le fun p hp => Finset.le_sup (by
      obtain ⟨s, hs⟩ := Option.isSome_iff_exists.mp hp
      exact List.mem_toFinset.mpr (List.mem_map_of_mem (Assoc.mem_of_lookup hs)))
  refine ne_top_of_lt (hle.trans_lt ((Finset.sup_lt_iff ENat.top_pos).mpr fun p hp => ?_))
  obtain ⟨⟨_, s⟩, hs, rfl⟩ := List.mem_map.mp (List.mem_toFinset.mp hp)
  exact lt_top_iff_ne_top.mpr (hreached _ (Assoc.lookup_isSome_iff.mpr (List.mem_map_of_mem hs)))

/-! ### The bounds -/

/-- How many passes inference of a board takes. -/
structure Bounded (b : Board) : Prop where
  /-- The loop ends, and inference gives what it leaves and the number of passes. -/
  halts : ∃ n e, Halts Relation.attempt n b.relations b.known
    (b.infer.1.relations, b.infer.1.known, e) ∧
      b.infer.2 = (match e with | some e => .error e | none => .ok n)
  /-- Each pass but the last unifies a relation. -/
  passes_le : ∀ n, b.infer.2 = .ok n → n ≤ pending b.relations + 1
  /-- Shapes reach every path in as many passes as it is away from a known one, one more unifies the
  relations left between paths that have shapes, and one finds nothing to do. -/
  passes_le_spread : Equalities b.relations → (∀ r ∈ b.relations, r.unified = false) →
    ∀ n, b.infer.2 = .ok n → b.spread ≠ ⊤ ∧ (n : ℕ∞) ≤ b.spread + 2

/-- Inference of a board is a loop of passes that ends. -/
theorem exists_halts (b : Board) : ∃ n e, Halts Relation.attempt n b.relations b.known
    (b.infer.1.relations, b.infer.1.known, e) ∧ n ≤ pending b.relations + 1 ∧
      b.infer.2 = (match e with | some e => .error e | none => .ok n) := by
  obtain ⟨n, ⟨rels, k, e⟩, hn, hle⟩ := halts_within Relation.attempt b.relations b.known
  have hsolve := solve_of_halts hn 0
  rw [Nat.zero_add] at hsolve
  exact ⟨n, e, by simp only [infer, hsolve]; exact hn, hle, by simp only [infer, hsolve]⟩

/-- Inference ends on every board, the loop it runs ends for any attempts, and there are as few
passes as the relations allow. -/
theorem passes_bounded :
    (∀ {σ : Type} (attempt : Relation → σ → Except Error Bool × σ) (rels : List Relation) (s : σ),
      ∃ n out, Halts attempt n rels s out ∧ n ≤ pending rels + 1) ∧
    ∀ b : Board, b.Bounded := by
  refine ⟨fun attempt rels s => halts_within attempt rels s, fun b => ?_⟩
  obtain ⟨n, e, hn, hle, hpasses⟩ := b.exists_halts
  refine ⟨⟨n, e, hn, hpasses⟩, fun m hm => ?_, fun h hpending m hm => ?_⟩
  · rw [hm] at hpasses
    cases e with
    | some e => cases hpasses
    | none =>
      cases hpasses
      exact hle
  · have hfinite := spread_ne_top h hpending
    obtain ⟨D, hD⟩ := ENat.ne_top_iff_exists.mp hfinite
    refine ⟨hfinite, ?_⟩
    have hreach : ∀ p, (b.infer.1.shape? p).isSome → b.distance p ≤ D :=
      fun p hp => hD ▸ le_iSup₂ (f := fun p _ => b.distance p) p hp
    have hmax := passes_le_of_front h (.start hpending) hreach hm
    rw [← hD]
    exact_mod_cast (by omega : m ≤ D + 2)

/-- Two paths get their shape from a third, after the relation between them was tried. -/
def triangle : Board where
  known := [("root", Shape.i64)]
  relations := [.equal "left" "right", .equal "root" "left", .equal "root" "right"]

theorem equalities_triangle : Equalities triangle.relations := by
  intro r hr
  simp only [triangle, List.mem_cons, List.not_mem_nil, or_false] at hr
  rcases hr with rfl | rfl | rfl
  · exact ⟨"left", "right", rfl, rfl, rfl⟩
  · exact ⟨"root", "left", rfl, rfl, rfl⟩
  · exact ⟨"root", "right", rfl, rfl, rfl⟩

theorem spread_triangle_le : triangle.spread ≤ 1 := by
  have hkeys : triangle.infer.1.known.map Prod.fst = ["root", "left", "right"] := by
    decide +kernel
  have hroot : (triangle.shape? "root").isSome := rfl
  have hside : ∀ p, p ≠ "root" → .equal "root" p ∈ triangle.relations →
      triangle.distance p ≤ (1 : Nat) := fun p hp hr =>
    distance_le_iff.mpr ⟨"root", hroot, le_of_eq (SimpleGraph.edist_eq_one_iff_adj.mpr
      ((SimpleGraph.fromRel_adj ..).mpr ⟨hp, .inr ⟨_, hr, rfl, rfl, rfl⟩⟩))⟩
  refine iSup₂_le fun p hp => ?_
  rw [shape?, Assoc.lookup_isSome_iff, hkeys] at hp
  simp only [List.mem_cons, List.not_mem_nil, or_false] at hp
  rcases hp with rfl | rfl | rfl
  · exact (distance_le_iff (n := 1)).mpr ⟨"root", hroot, by simp⟩
  · exact hside _ (by decide) (by simp [triangle])
  · exact hside _ (by decide) (by simp [triangle])

/-- The relation that is tried too early takes a pass of its own, and the bound is met. -/
theorem passes_triangle : Equalities triangle.relations ∧ triangle.infer.2 = .ok 3 ∧
    pending triangle.relations = 3 ∧ triangle.spread = 1 := by
  have hpending : ∀ r ∈ triangle.relations, r.unified = false := by decide
  have hthree : triangle.infer.2 = .ok 3 := by
    have h : triangle.infer.2.toOption = some 3 := by decide +kernel
    cases hn : triangle.infer.2 <;> simp_all [Except.toOption]
  obtain ⟨-, hle⟩ := (passes_bounded.2 triangle).passes_le_spread equalities_triangle hpending 3
    hthree
  refine ⟨equalities_triangle, hthree, rfl, le_antisymm spread_triangle_le ?_⟩
  rw [show ((3 : ℕ) : ℕ∞) = 1 + 2 from rfl] at hle
  exact (ENat.add_le_add_iff_right (ENat.natCast_ne_top 2)).mp hle

end Board

end TypeSketch
