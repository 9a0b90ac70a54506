import TypeSketch.Inference.Solver

/-!
# Inference — passes

What repeated passes keep, for relations whose attempts obey a law (`Passes.Law`): an attempt keeps
an invariant of what is known and forgets nothing, a unified relation stays settled although it is
not looked at again, and an attempt that unifies nothing changes nothing.

* `solve_keeps`: the invariant holds at the end, failure or not, and every unified relation is
  settled there.
* `solve_rests`: passes that end well end where each attempt at a relation left over is idle.
* `solve_fails`: passes that fail do so at an attempt under an invariant of attempts, whatever else
  these obey.

A law is stated once for a sort of relations and used three times: for bonds (`Board.Stated.law`),
for boards put together by hand (`Board.Mixed.law`) and for counting passes
(`Board.Equalities.law`). The equations of a pass go by the outcome of its first attempt, and those
of the loop by the outcome of its first pass, so that each statement about many passes is an
induction with three cases.
-/

namespace TypeSketch

/-- All that `k` knows, `k'` knows alike. -/
def Known.Extends (k k' : Known) : Prop := ∀ p s, k.lookup p = some s → k'.lookup p = some s

theorem Known.Extends.refl (k : Known) : k.Extends k := fun _ _ h => h

theorem Known.Extends.trans {k k' k'' : Known} (h : k.Extends k') (h' : k'.Extends k'') :
    k.Extends k'' :=
  fun p s hs => h' p s (h p s hs)

/-- A relation as it is before it is unified. -/
def Relation.fresh (r : Relation) : Relation := { r with unified := false }

theorem Relation.fresh_of_pending {r : Relation} (h : r.unified = false) : r.fresh = r := by
  obtain ⟨name, members, unifier, unified⟩ := r
  cases h
  rfl

@[simp] theorem Relation.fresh_unified (r : Relation) (b : Bool) :
    ({ r with unified := b } : Relation).fresh = r.fresh := rfl

namespace Board

/-! ### One pass, by the outcome of its first attempt -/

theorem pass_unified {r : Relation} {rest : List Relation} {k : Known} (h : r.unified = true) :
    pass (r :: rest) k = (r :: (pass rest k).1, (pass rest k).2) := by
  simp [pass, h]

theorem pass_error {r : Relation} {rest : List Relation} {k : Known} {e : Error}
    (h : r.unified = false) (he : r.unify k = .error e) :
    pass (r :: rest) k = (r :: rest, k, some e) := by
  simp [pass, h, he]

theorem pass_ok {r : Relation} {rest : List Relation} {k k' : Known} {b : Bool}
    (h : r.unified = false) (hb : r.unify k = .ok (b, k')) :
    pass (r :: rest) k = ({ r with unified := b } :: (pass rest k').1, (pass rest k').2) := by
  simp [pass, h, hb]

/-- A pass changes nothing of a relation but whether it is unified. -/
theorem map_fresh_pass (rels : List Relation) (k : Known) :
    (pass rels k).1.map Relation.fresh = rels.map Relation.fresh := by
  induction rels generalizing k with
  | nil => rfl
  | cons r rest ih =>
    cases hu : r.unified with
    | true => rw [pass_unified hu, List.map_cons, List.map_cons, ih]
    | false =>
      cases hr : r.unify k with
      | error e => rw [pass_error hu hr]
      | ok out => rw [pass_ok hu hr, List.map_cons, List.map_cons, ih, Relation.fresh_unified]

theorem pending_cons (r : Relation) (rest : List Relation) :
    pending (r :: rest) = (if r.unified then 0 else 1) + pending rest := by
  cases hu : r.unified <;> simp [pending, hu, Nat.add_comm]

/-- A pass that ends well leaves no more relations pending. -/
theorem pending_pass_le {rels : List Relation} {k : Known} (h : (pass rels k).2.2 = none) :
    pending (pass rels k).1 ≤ pending rels := by
  induction rels generalizing k with
  | nil => exact Nat.le_refl _
  | cons r rest ih =>
    cases hu : r.unified with
    | true =>
      rw [pass_unified hu] at h ⊢
      rw [pending_cons, pending_cons]
      exact Nat.add_le_add_left (ih h) _
    | false =>
      cases hr : r.unify k with
      | error e => rw [pass_error hu hr] at h; cases h
      | ok out =>
        rw [pass_ok hu hr] at h ⊢
        rw [pending_cons, pending_cons, hu]
        have := ih h
        dsimp only
        split <;> simp only [Bool.false_eq_true, if_false] <;> omega

/-! ### The law of attempts -/

/-- What attempts at some relations keep, and what they settle. -/
structure Law (rels : List Relation) (P : Known → Prop) (Q : Relation → Known → Prop) : Prop where
  keeps : ∀ {r k b k'}, r ∈ rels → P k → r.unify k = .ok (b, k') → P k'
  grows : ∀ {r k b k'}, r ∈ rels → P k → r.unify k = .ok (b, k') → k.Extends k'
  settles : ∀ {r k k'}, r ∈ rels → P k → r.unify k = .ok (true, k') → Q r k'
  idle : ∀ {r k k'}, r ∈ rels → P k → r.unify k = .ok (false, k') → k' = k
  stays : ∀ {r k k'}, k.Extends k' → Q r k → Q r k'

variable {P : Known → Prop} {Q : Relation → Known → Prop}

/-- Every unified relation is settled. -/
def Settled (Q : Relation → Known → Prop) (rels : List Relation) (k : Known) : Prop :=
  ∀ r ∈ rels, r.unified = true → Q r.fresh k

theorem settled_cons {r : Relation} {rest : List Relation} {k : Known} :
    Settled Q (r :: rest) k ↔ (r.unified = true → Q r.fresh k) ∧ Settled Q rest k := by
  simp only [Settled, List.forall_mem_cons]

/-- The law for the first of some relations, which is not unified, and for the others. -/
theorem Law.cons {r : Relation} {rest : List Relation}
    (law : Law ((r :: rest).map Relation.fresh) P Q) : Law (rest.map Relation.fresh) P Q where
  keeps hr := law.keeps (List.mem_cons_of_mem _ hr)
  grows hr := law.grows (List.mem_cons_of_mem _ hr)
  settles hr := law.settles (List.mem_cons_of_mem _ hr)
  idle hr := law.idle (List.mem_cons_of_mem _ hr)
  stays := law.stays

theorem mem_map_fresh {r : Relation} (rest : List Relation) (h : r.unified = false) :
    r ∈ (r :: rest).map Relation.fresh :=
  List.mem_map.mpr ⟨r, List.mem_cons_self, Relation.fresh_of_pending h⟩

/-- A pass keeps the invariant and what is known, and unified relations stay settled. -/
theorem pass_keeps {rels : List Relation} {k : Known}
    (law : Law (rels.map Relation.fresh) P Q) (hP : P k) (hQ : Settled Q rels k) :
    P (pass rels k).2.1 ∧ k.Extends (pass rels k).2.1 ∧
      Settled Q (pass rels k).1 (pass rels k).2.1 := by
  induction rels generalizing k with
  | nil => exact ⟨hP, .refl k, hQ⟩
  | cons r rest ih =>
    obtain ⟨hr, hrest⟩ := settled_cons.mp hQ
    cases hu : r.unified with
    | true =>
      rw [pass_unified hu]
      obtain ⟨hP', hext, hset⟩ := ih law.cons hP hrest
      exact ⟨hP', hext, settled_cons.mpr ⟨fun h => law.stays hext (hr h), hset⟩⟩
    | false =>
      have hmem := mem_map_fresh rest hu
      cases hat : r.unify k with
      | error e => rw [pass_error hu hat]; exact ⟨hP, .refl k, hQ⟩
      | ok out =>
        obtain ⟨b, k₁⟩ := out
        rw [pass_ok hu hat]
        have hext₁ := law.grows hmem hP hat
        have hrest₁ : Settled Q rest k₁ := fun r' h h' => law.stays hext₁ (hrest r' h h')
        obtain ⟨hP', hext, hset⟩ := ih law.cons (law.keeps hmem hP hat) hrest₁
        refine ⟨hP', hext₁.trans hext, settled_cons.mpr ⟨?_, hset⟩⟩
        -- the head is unified now only if this attempt did it
        rintro rfl
        rw [Relation.fresh_unified, Relation.fresh_of_pending hu]
        exact law.stays hext (law.settles hmem hP hat)

/-- A pass that ends well and unifies nothing had only idle attempts. -/
theorem pass_rests {rels : List Relation} {k : Known}
    (law : Law (rels.map Relation.fresh) P Q) (hP : P k) (hok : (pass rels k).2.2 = none)
    (hstop : ¬ pending (pass rels k).1 < pending rels) :
    (pass rels k).2.1 = k ∧ (pass rels k).1 = rels ∧
      ∀ r ∈ rels, r.unified = false → r.unify k = .ok (false, k) := by
  induction rels generalizing k with
  | nil => exact ⟨rfl, rfl, by simp⟩
  | cons r rest ih =>
    cases hu : r.unified with
    | true =>
      rw [pass_unified hu] at hok hstop ⊢
      rw [pending_cons, pending_cons, Nat.add_lt_add_iff_left] at hstop
      obtain ⟨hk, hrels, hidle⟩ := ih law.cons hP hok hstop
      refine ⟨hk, congrArg (r :: ·) hrels, fun r' hr' h => ?_⟩
      rcases List.mem_cons.mp hr' with rfl | hr'
      · rw [hu] at h; cases h
      · exact hidle r' hr' h
    | false =>
      have hmem := mem_map_fresh rest hu
      cases hat : r.unify k with
      | error e => rw [pass_error hu hat] at hok; cases hok
      | ok out =>
        obtain ⟨b, k₁⟩ := out
        rw [pass_ok hu hat] at hok hstop ⊢
        rw [pending_cons, pending_cons, hu] at hstop
        have hle := pending_pass_le hok
        cases b with
        | true =>
          -- the head would be unified, and the others do not make up for it
          simp only [if_true, Bool.false_eq_true, if_false] at hstop
          omega
        | false =>
          obtain rfl := law.idle hmem hP hat
          simp only [Bool.false_eq_true, if_false, Nat.add_lt_add_iff_left] at hstop
          obtain ⟨hk, hrels, hidle⟩ := ih law.cons hP hok hstop
          refine ⟨hk, ?_, fun r' hr' h => ?_⟩
          · rw [hrels, ← hu]
          · rcases List.mem_cons.mp hr' with rfl | hr'
            · exact hat
            · exact hidle r' hr' h

/-- A pass keeps what attempts keep. -/
theorem pass_invariant {rels : List Relation} {k : Known}
    (keeps : ∀ {r k b k'}, r ∈ rels.map Relation.fresh → P k → r.unify k = .ok (b, k') → P k')
    (hP : P k) : P (pass rels k).2.1 := by
  induction rels generalizing k with
  | nil => exact hP
  | cons r rest ih =>
    have hkeeps : ∀ {r' k b k'}, r' ∈ rest.map Relation.fresh → P k → r'.unify k = .ok (b, k') →
        P k' := fun hr => keeps (List.mem_cons_of_mem _ hr)
    cases hu : r.unified with
    | true =>
      rw [pass_unified hu]
      exact ih hkeeps hP
    | false =>
      cases hat : r.unify k with
      | error e => rw [pass_error hu hat]; exact hP
      | ok out =>
        rw [pass_ok hu hat]
        exact ih hkeeps (keeps (mem_map_fresh rest hu) hP hat)

/-- A pass that fails does so at one of its relations, under the invariant of attempts. -/
theorem pass_fails {rels : List Relation} {k : Known} {e : Error}
    (keeps : ∀ {r k b k'}, r ∈ rels.map Relation.fresh → P k → r.unify k = .ok (b, k') → P k')
    (hP : P k) (he : (pass rels k).2.2 = some e) :
    ∃ r ∈ rels.map Relation.fresh, ∃ k', P k' ∧ r.unify k' = .error e := by
  induction rels generalizing k with
  | nil => cases he
  | cons r rest ih =>
    have hkeeps : ∀ {r' k b k'}, r' ∈ rest.map Relation.fresh → P k → r'.unify k = .ok (b, k') →
        P k' := fun hr => keeps (List.mem_cons_of_mem _ hr)
    have lift : (∃ r' ∈ rest.map Relation.fresh, ∃ k', P k' ∧ r'.unify k' = .error e) →
        ∃ r' ∈ (r :: rest).map Relation.fresh, ∃ k', P k' ∧ r'.unify k' = .error e := by
      rintro ⟨r', hr', hk'⟩
      exact ⟨r', List.mem_cons_of_mem _ hr', hk'⟩
    cases hu : r.unified with
    | true =>
      rw [pass_unified hu] at he
      exact lift (ih hkeeps hP he)
    | false =>
      have hmem := mem_map_fresh rest hu
      cases hat : r.unify k with
      | error e' =>
        rw [pass_error hu hat] at he
        cases he
        exact ⟨r, hmem, k, hP, hat⟩
      | ok out =>
        rw [pass_ok hu hat] at he
        exact lift (ih hkeeps (keeps hmem hP hat) he)

/-! ### Repeated passes -/

theorem solve_error {n : Nat} {rels : List Relation} {k : Known} {e : Error}
    (h : (pass rels k).2.2 = some e) :
    solve n rels k = ((pass rels k).1, (pass rels k).2.1, .error e) := by
  rw [solve]
  simp only [h]

theorem solve_again {n : Nat} {rels : List Relation} {k : Known} (h : (pass rels k).2.2 = none)
    (hlt : pending (pass rels k).1 < pending rels) :
    solve n rels k = solve (n + 1) (pass rels k).1 (pass rels k).2.1 := by
  rw [solve]
  simp only [h, hlt, if_true]

theorem solve_rest {n : Nat} {rels : List Relation} {k : Known} (h : (pass rels k).2.2 = none)
    (hle : ¬ pending (pass rels k).1 < pending rels) :
    solve n rels k = ((pass rels k).1, (pass rels k).2.1, .ok (n + 1)) := by
  rw [solve]
  simp only [h, hle, if_false]

/-- The loop changes nothing of a relation but whether it is unified. -/
theorem map_fresh_solve (n : Nat) (rels : List Relation) (k : Known) :
    (solve n rels k).1.map Relation.fresh = rels.map Relation.fresh := by
  fun_induction solve n rels k with
  | case1 n rels k next e he => exact map_fresh_pass rels k
  | case2 n rels k next he hlt ih => rw [ih]; exact map_fresh_pass rels k
  | case3 n rels k next he hlt => exact map_fresh_pass rels k

/-- The law of the relations a pass leaves is the law of those it was given. -/
theorem Law.pass {rels : List Relation} {k : Known} (law : Law (rels.map Relation.fresh) P Q) :
    Law ((Board.pass rels k).1.map Relation.fresh) P Q := by
  rw [map_fresh_pass]
  exact law

/-- The loop keeps the invariant and what is known, and unified relations stay settled. -/
theorem solve_keeps {n : Nat} {rels : List Relation} {k : Known}
    (law : Law (rels.map Relation.fresh) P Q) (hP : P k) (hQ : Settled Q rels k) :
    P (solve n rels k).2.1 ∧ k.Extends (solve n rels k).2.1 ∧
      Settled Q (solve n rels k).1 (solve n rels k).2.1 := by
  fun_induction solve n rels k with
  | case1 n rels k next e he => exact pass_keeps law hP hQ
  | case2 n rels k next he hlt ih =>
    obtain ⟨hP', hext, hQ'⟩ := pass_keeps law hP hQ
    obtain ⟨hP'', hext', hQ''⟩ := ih law.pass hP' hQ'
    exact ⟨hP'', hext.trans hext', hQ''⟩
  | case3 n rels k next he hlt => exact pass_keeps law hP hQ

/-- A loop that rests leaves pending only relations whose attempts are idle. -/
theorem solve_rests {n m : Nat} {rels : List Relation} {k : Known}
    (law : Law (rels.map Relation.fresh) P Q) (hP : P k) (hQ : Settled Q rels k)
    (hm : (solve n rels k).2.2 = .ok m) :
    ∀ r ∈ (solve n rels k).1, r.unified = false →
      r.unify (solve n rels k).2.1 = .ok (false, (solve n rels k).2.1) := by
  fun_induction solve n rels k with
  | case1 n rels k next e he => cases hm
  | case2 n rels k next he hlt ih =>
    obtain ⟨hP', -, hQ'⟩ := pass_keeps law hP hQ
    exact ih law.pass hP' hQ' hm
  | case3 n rels k next he hlt =>
    obtain ⟨hk, hrels, hidle⟩ := pass_rests law hP he hlt
    intro r hr hu
    rw [hk]
    exact hidle r (hrels ▸ hr) hu

/-- A loop that fails does so at one of its relations, under the invariant of attempts. -/
theorem solve_fails {n : Nat} {rels : List Relation} {k : Known} {e : Error}
    (keeps : ∀ {r k b k'}, r ∈ rels.map Relation.fresh → P k → r.unify k = .ok (b, k') → P k')
    (hP : P k) (he : (solve n rels k).2.2 = .error e) :
    ∃ r ∈ rels.map Relation.fresh, ∃ k', P k' ∧ r.unify k' = .error e := by
  fun_induction solve n rels k with
  | case1 n rels k next e' he' =>
    cases he
    exact pass_fails keeps hP he'
  | case2 n rels k next he' hlt ih =>
    have hfresh := map_fresh_pass rels k
    obtain ⟨r, hr, hk'⟩ := ih (fun hr => keeps (hfresh ▸ hr)) (pass_invariant keeps hP) he
    exact ⟨r, hfresh ▸ hr, hk'⟩
  | case3 n rels k next he' hlt => cases he

end Board

end TypeSketch
