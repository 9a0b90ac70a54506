import TypeSketch.Proofs.Table
import TypeSketch.Json.Basic

/-!
# JSON values — sameness

`Json.same` compares members by name, whatever their order.  On values whose objects give every
member one name (`Proper`) it is an equivalence: `same_refl`, `same_symm`, `same_trans`.  The crux
is `same_obj_iff`, where two objects are the same when looking up any name in both gives the same.

The laws follow the structure of a value: numbers have theirs of their own (`Binary64.same_trans`),
arrays go item by item (`sameItems_iff`), and the members of an object are reduced to look-ups
(`sameMembers_iff`). Without `Proper` the laws fail, since a name that comes twice is looked up
once.
-/

namespace TypeSketch

/-! ### Floating numbers -/

theorem Binary64.same_refl (x : Binary64) : x.same x = true := by
  cases x <;> simp [Binary64.same]

theorem Binary64.same_symm {x y : Binary64} (h : x.same y = true) : y.same x = true := by
  cases x <;> cases y <;> simp_all [Binary64.same]

theorem Binary64.same_trans {x y z : Binary64} (h : x.same y = true) (h' : y.same z = true) :
    x.same z = true := by
  cases x <;> cases y <;> cases z <;> simp_all [Binary64.same]

namespace Json

/-- No object in a value has two members of one name. -/
inductive Proper : Json → Prop
  | null : Proper null
  | bool (b : Bool) : Proper (bool b)
  | int (n : Int) : Proper (int n)
  | float (x : Binary64) : Proper (float x)
  | str (s : String) : Proper (str s)
  | arr {xs : List Json} (h : ∀ x ∈ xs, Proper x) : Proper (arr xs)
  | obj {ms : List (String × Json)} (hk : (ms.map Prod.fst).Nodup) (h : ∀ m ∈ ms, Proper m.2) :
      Proper (obj ms)

theorem sameItems_iff {xs ys : List Json} :
    sameItems xs ys = true ↔ List.Forall₂ (fun x y => same x y = true) xs ys := by
  induction xs generalizing ys with
  | nil => cases ys <;> simp [sameItems]
  | cons x xs ih => cases ys <;> simp [sameItems, ih]

/-- Members are those of an object if it has the same under every name of them. -/
theorem sameMembers_iff {ms ns : List (String × Json)} :
    sameMembers ms ns = true ↔ ∀ m ∈ ms, ∃ w, ns.lookup m.1 = some w ∧ same m.2 w = true := by
  induction ms with
  | nil => simp [sameMembers]
  | cons m ms ih =>
    obtain ⟨k, v⟩ := m
    rw [sameMembers, Bool.and_eq_true, ih, List.forall_mem_cons]
    cases ns.lookup k <;> simp

/-- Objects are the same when a look-up in both gives the same, for any name. -/
theorem same_obj_iff {ms ns : List (String × Json)} (hm : (ms.map Prod.fst).Nodup)
    (hn : (ns.map Prod.fst).Nodup) :
    same (obj ms) (obj ns) = true ↔
      ∀ k, Option.Rel (fun v w => same v w = true) (ms.lookup k) (ns.lookup k) := by
  rw [← Assoc.covers_iff hm hn, same, Bool.and_eq_true, beq_iff_eq, sameMembers_iff]

/-- A proper value is the same as itself. -/
theorem same_refl {j : Json} (hj : j.Proper) : same j j = true := by
  induction hj with
  | null => rfl
  | bool | int | str => simp [same]
  | float x => exact Binary64.same_refl x
  | arr _ ih => exact sameItems_iff.mpr (List.forall₂_same.mpr ih)
  | obj hk _ ih =>
    refine (same_obj_iff hk hk).mpr fun k => ?_
    cases hl : List.lookup k _ with
    | none => exact .none
    | some v => exact .some (ih _ (Assoc.mem_of_lookup hl))

/-- Sameness of proper values goes both ways. -/
theorem same_symm {i j : Json} (hi : i.Proper) (hj : j.Proper) (h : same i j = true) :
    same j i = true := by
  induction hi generalizing j with
  | null => cases j <;> simp_all [same]
  | bool | int | str => cases j <;> simp_all [same]
  | float x =>
    cases j with
    | float y => exact Binary64.same_symm h
    | _ => simp [same] at h
  | @arr xs _ ih =>
    cases hj with
    | @arr ys hys =>
      refine sameItems_iff.mpr (forall₂_symm_of_mem (sameItems_iff.mp h) fun x hx y hy => ?_)
      exact ih x hx (hys y hy)
    | _ => simp [same] at h
  | @obj ms hk _ ih =>
    cases hj with
    | @obj ns hk' hns =>
      rw [same_obj_iff hk hk'] at h
      refine (same_obj_iff hk' hk).mpr fun k => Assoc.rel_symm_of_mem (h k) fun v w hv hw => ?_
      exact ih _ (Assoc.mem_of_lookup hv) (hns _ (Assoc.mem_of_lookup hw))
    | _ => simp [same] at h

/-- Sameness of proper values goes on. -/
theorem same_trans {i j l : Json} (hi : i.Proper) (hj : j.Proper) (hl : l.Proper)
    (h : same i j = true) (h' : same j l = true) : same i l = true := by
  induction hi generalizing j l with
  | null | bool | int | str => cases j <;> cases l <;> simp_all [same]
  | float x =>
    cases j <;> cases l <;> simp [same] at h h' ⊢
    exact Binary64.same_trans h h'
  | @arr xs _ ih =>
    cases hj with
    | @arr ys hys =>
      cases hl with
      | @arr zs hzs =>
        refine sameItems_iff.mpr (forall₂_trans_of_mem (sameItems_iff.mp h) (sameItems_iff.mp h')
          fun x hx y hy z hz => ?_)
        exact ih x hx (hys y hy) (hzs z hz)
      | _ => simp [same] at h'
    | _ => simp [same] at h
  | @obj ms hk _ ih =>
    cases hj with
    | @obj ns hk' hns =>
      cases hl with
      | @obj os hk'' hos =>
        rw [same_obj_iff hk hk'] at h
        rw [same_obj_iff hk' hk''] at h'
        refine (same_obj_iff hk hk'').mpr fun k =>
          Assoc.rel_trans_of_mem (h k) (h' k) fun u v w hu hv hw => ?_
        exact ih _ (Assoc.mem_of_lookup hu) (hns _ (Assoc.mem_of_lookup hv))
          (hos _ (Assoc.mem_of_lookup hw))
      | _ => simp [same] at h'
    | _ => simp [same] at h

end Json

end TypeSketch
