import TypeSketch.Proofs.Json.Sameness
import TypeSketch.Record.Field

/-!
# Records — sameness

A value is *proper* when no record in it holds two values under one key (`Value.Proper`).  On proper
values `Value.same` is an equivalence: `same_refl`, `same_symm`, `same_trans`.  Two proper records
are the same when they read the same under every key (`sameRecord_iff`), which is also how the
sameness of two shapes is used: what is read off them agrees (`Record.Agree`).

Values and records hold each other, so the laws are proved by one induction on proper values. The
steps for records are stated by themselves, for whatever makes records of values
(`sameRecord_refl_of`, `sameRecord_symm_of`, `sameRecord_trans_of`); they need nothing but that no
key stands twice.
-/

namespace TypeSketch

namespace Value

/-- No record in a value holds two values under one key. -/
inductive Proper : Value → Prop
  | bool (b : Bool) : Proper (bool b)
  | int (n : Int) : Proper (int n)
  | float (x : Binary64) : Proper (float x)
  | str (s : String) : Proper (str s)
  | shape {r : Record Value} (hk : r.keys.Nodup) (h : ∀ e ∈ r.entries, Proper e.2) :
      Proper (shape r)
  | node {id : Nat} {r : Record Value} (hk : r.keys.Nodup) (h : ∀ e ∈ r.entries, Proper e.2) :
      Proper (node id r)
  | json {j : Json} (h : j.Proper) : Proper (json j)
  | list {xs : List Value} (h : ∀ x ∈ xs, Proper x) : Proper (list xs)

end Value

namespace Record

/-- No key stands twice, and the values are proper. -/
structure Proper (r : Record Value) : Prop where
  keys_nodup : r.keys.Nodup
  values : ∀ e ∈ r.entries, e.2.Proper

theorem get?_eq_lookup (r : Record Value) (k : String) : r.get? k = r.entries.lookup k := by
  rw [get?, entries, List.lookup_append]
  cases r.declared.lookup k <;> rfl

theorem mem_of_get? {r : Record Value} {k : String} {v : Value} (h : r.get? k = some v) :
    (k, v) ∈ r.entries :=
  Assoc.mem_of_lookup (get?_eq_lookup r k ▸ h)

theorem Proper.get? {r : Record Value} (hr : r.Proper) {k : String} {v : Value}
    (h : r.get? k = some v) : v.Proper :=
  hr.values _ (mem_of_get? h)

end Record

namespace Value

theorem proper_shape_iff {r : Record Value} : (shape r).Proper ↔ r.Proper :=
  ⟨fun h => by cases h with | shape hk h => exact ⟨hk, h⟩, fun h => .shape h.1 h.2⟩

theorem sameItems_iff {xs ys : List Value} :
    sameItems xs ys = true ↔ List.Forall₂ (fun x y => same x y = true) xs ys := by
  induction xs generalizing ys with
  | nil => cases ys <;> simp [sameItems]
  | cons x xs ih => cases ys <;> simp [sameItems, ih]

/-- Entries are those of a record if it holds the same under every key of them. -/
theorem sameEntries_iff {es : List (String × Value)} {s : Record Value} :
    sameEntries es s = true ↔ ∀ e ∈ es, ∃ w, s.get? e.1 = some w ∧ same e.2 w = true := by
  induction es with
  | nil => simp [sameEntries]
  | cons e es ih =>
    obtain ⟨k, v⟩ := e
    rw [sameEntries, Bool.and_eq_true, ih, List.forall_mem_cons]
    cases s.get? k <;> simp

/-- Two records agree when they read the same under every key. -/
theorem sameRecord_iff {r s : Record Value} (hr : r.keys.Nodup) (hs : s.keys.Nodup) :
    sameRecord r s = true ↔
      ∀ k, Option.Rel (fun v w => same v w = true) (r.get? k) (s.get? k) := by
  -- the two counts and the entries of the first are all that is compared
  simp only [Record.get?_eq_lookup]
  rw [← Assoc.covers_iff hr hs]
  obtain ⟨declared, extra, frozen⟩ := r
  simp only [sameRecord, Bool.and_eq_true, beq_iff_eq, sameEntries_iff, Record.get?_eq_lookup,
    Record.entries, Record.size, List.length_append, List.forall_mem_append]

/-- The reason why sameness of records is reflexive, whatever makes records of them. -/
theorem sameRecord_refl_of {r : Record Value} (hk : r.keys.Nodup)
    (h : ∀ e ∈ r.entries, same e.2 e.2 = true) : sameRecord r r = true := by
  refine (sameRecord_iff hk hk).mpr fun k => ?_
  cases hl : r.get? k with
  | none => exact .none
  | some v => exact .some (h _ (Record.mem_of_get? hl))

/-- The reason why sameness of records goes both ways, whatever makes records of them. -/
theorem sameRecord_symm_of {r s : Record Value} (hr : r.keys.Nodup) (hs : s.keys.Nodup)
    (h : sameRecord r s = true)
    (step : ∀ e ∈ r.entries, ∀ f ∈ s.entries, same e.2 f.2 = true → same f.2 e.2 = true) :
    sameRecord s r = true := by
  rw [sameRecord_iff hr hs] at h
  refine (sameRecord_iff hs hr).mpr fun k => Assoc.rel_symm_of_mem (h k) fun v w hv hw => ?_
  exact step _ (Record.mem_of_get? hv) _ (Record.mem_of_get? hw)

/-- The reason why sameness of records goes on, whatever makes records of them. -/
theorem sameRecord_trans_of {r s t : Record Value} (hr : r.keys.Nodup) (hs : s.keys.Nodup)
    (ht : t.keys.Nodup) (h : sameRecord r s = true) (h' : sameRecord s t = true)
    (step : ∀ e ∈ r.entries, ∀ f ∈ s.entries, ∀ g ∈ t.entries,
      same e.2 f.2 = true → same f.2 g.2 = true → same e.2 g.2 = true) :
    sameRecord r t = true := by
  rw [sameRecord_iff hr hs] at h
  rw [sameRecord_iff hs ht] at h'
  refine (sameRecord_iff hr ht).mpr fun k =>
    Assoc.rel_trans_of_mem (h k) (h' k) fun u v w hu hv hw => ?_
  exact step _ (Record.mem_of_get? hu) _ (Record.mem_of_get? hv) _ (Record.mem_of_get? hw)

/-- A proper value is the same as itself. -/
theorem same_refl {v : Value} (hv : v.Proper) : same v v = true := by
  induction hv with
  | bool | int | str => simp [same]
  | float x => rw [same, Binary64.same_refl]
  | json h => rw [same, Json.same_refl h]
  | shape hk _ ih | node hk _ ih => rw [same, sameRecord_refl_of hk ih]
  | list _ ih => rw [same, sameItems_iff.mpr (List.forall₂_same.mpr ih)]

/-- Sameness of proper values goes both ways. -/
theorem same_symm {v w : Value} (hv : v.Proper) (hw : w.Proper) (h : same v w = true) :
    same w v = true := by
  induction hv generalizing w with
  | bool | int | str => cases w <;> simp_all [same]
  | float x =>
    cases w with
    | float y => rw [same] at h ⊢; exact Binary64.same_symm h
    | _ => simp [same] at h
  | json hj =>
    cases hw with
    | json hj' => rw [same] at h ⊢; exact Json.same_symm hj hj' h
    | _ => simp [same] at h
  | shape hk _ ih =>
    cases hw with
    | shape hk' hs =>
      rw [same] at h ⊢
      exact sameRecord_symm_of hk hk' h fun e he f hf => ih e he (hs f hf)
    | _ => simp [same] at h
  | node hk _ ih =>
    cases hw with
    | node hk' hs =>
      rw [same] at h ⊢
      exact sameRecord_symm_of hk hk' h fun e he f hf => ih e he (hs f hf)
    | _ => simp [same] at h
  | list _ ih =>
    cases hw with
    | list hys =>
      rw [same] at h ⊢
      refine sameItems_iff.mpr (forall₂_symm_of_mem (sameItems_iff.mp h) fun x hx y hy => ?_)
      exact ih x hx (hys y hy)
    | _ => simp [same] at h

/-- Sameness of proper values goes on. -/
theorem same_trans {u v w : Value} (hu : u.Proper) (hv : v.Proper) (hw : w.Proper)
    (h : same u v = true) (h' : same v w = true) : same u w = true := by
  induction hu generalizing v w with
  | bool | int | str => cases v <;> cases w <;> simp_all [same]
  | float x =>
    cases v <;> cases w <;> simp [same] at h h' ⊢
    exact Binary64.same_trans h h'
  | json hj =>
    cases hv with
    | json hj' =>
      cases hw with
      | json hj'' => rw [same] at h h' ⊢; exact Json.same_trans hj hj' hj'' h h'
      | _ => simp [same] at h'
    | _ => simp [same] at h
  | shape hk _ ih =>
    cases hv with
    | shape hk' hs =>
      cases hw with
      | shape hk'' ht =>
        rw [same] at h h' ⊢
        exact sameRecord_trans_of hk hk' hk'' h h' fun e he f hf g hg =>
          ih e he (hs f hf) (ht g hg)
      | _ => simp [same] at h'
    | _ => simp [same] at h
  | node hk _ ih =>
    cases hv with
    | node hk' hs =>
      cases hw with
      | node hk'' ht =>
        rw [same] at h h' ⊢
        exact sameRecord_trans_of hk hk' hk'' h h' fun e he f hf g hg =>
          ih e he (hs f hf) (ht g hg)
      | _ => simp [same] at h'
    | _ => simp [same] at h
  | list _ ih =>
    cases hv with
    | list hys =>
      cases hw with
      | list hzs =>
        rw [same] at h h' ⊢
        refine sameItems_iff.mpr (forall₂_trans_of_mem (sameItems_iff.mp h)
          (sameItems_iff.mp h') fun x hx y hy z hz => ?_)
        exact ih x hx (hys y hy) (hzs z hz)
      | _ => simp [same] at h'
    | _ => simp [same] at h

/-! ### Records that are the same -/

variable {r s t : Record Value}

theorem sameRecord_refl (hr : r.Proper) : sameRecord r r = true :=
  sameRecord_refl_of hr.keys_nodup fun e he => same_refl (hr.values e he)

theorem sameRecord_symm (hr : r.Proper) (hs : s.Proper) (h : sameRecord r s = true) :
    sameRecord s r = true :=
  sameRecord_symm_of hr.keys_nodup hs.keys_nodup h fun e he f hf =>
    same_symm (hr.values e he) (hs.values f hf)

theorem sameRecord_trans (hr : r.Proper) (hs : s.Proper) (ht : t.Proper)
    (h : sameRecord r s = true) (h' : sameRecord s t = true) : sameRecord r t = true :=
  sameRecord_trans_of hr.keys_nodup hs.keys_nodup ht.keys_nodup h h' fun e he f hf g hg =>
    same_trans (hr.values e he) (hs.values f hf) (ht.values g hg)

end Value

/-- Two records that are the same hold values under a field that are the same. -/
theorem Record.field?_rel_of_same {r s : Record Value} (hr : r.keys.Nodup) (hs : s.keys.Nodup)
    (h : Value.sameRecord r s = true) {f : Field} (hf : ∀ v, f.absent? = some v → v.Proper) :
    Option.Rel (fun v w => Value.same v w = true) (r.field? f) (s.field? f) := by
  have hk := (Value.sameRecord_iff hr hs).mp h f.key
  unfold Record.field?
  cases hl : r.get? f.key <;> cases hl' : s.get? f.key <;> rw [hl, hl'] at hk
  · cases ha : f.absent? with
    | none => exact .none
    | some v => exact .some (Value.same_refl (hf v ha))
  · cases hk
  · cases hk
  · exact hk

end TypeSketch
