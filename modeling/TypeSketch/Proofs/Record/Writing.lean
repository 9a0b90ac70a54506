import TypeSketch.Proofs.Record.Sameness
import TypeSketch.Record.Edit

/-!
# Records — writing and clearing keys

Writing a key keeps the keys, or puts a new one last (`keys_set`), and what is then held was there
before or is what was written (`mem_entries_set`).  So writing proper values and clearing keys keep
a record proper (`Proper.set`, `Proper.remove`).  An open record takes every change whose value is
of its kind, unless it would add to something that is no list.

The last part is about changes that come off: `append_of_list`, `append_of_absent` and
`append_of_single` are the three things that an entry can meet under its key, and `replace_of_open`,
`put_of_open` and `remove_of_open` meet none. Later modules cite these, and do not look at how a
change is made.
-/

namespace TypeSketch

namespace Record

/-- Writing a key keeps the keys, or puts a new one last. -/
theorem keys_set (r : Record Value) (k : String) (v : Value) :
    (r.set k v).keys = if k ∈ r.keys then r.keys else r.keys ++ [k] := by
  have hkeys : ∀ s : Record Value, s.keys = s.declared.map Prod.fst ++ s.extra.map Prod.fst :=
    fun s => by simp [keys, entries]
  rw [set, Assoc.has]
  split
  · next h =>
    have hk : k ∈ r.declared.map Prod.fst := Assoc.lookup_isSome_iff.mp h
    simp [hkeys, Assoc.map_fst_put, hk]
  · next h =>
    have hk : k ∉ r.declared.map Prod.fst := fun hm => h (Assoc.lookup_isSome_iff.mpr hm)
    simp only [hkeys, Assoc.map_fst_put, List.mem_append, hk, false_or]
    split <;> simp

/-- What is held after a key is written was there before, or is what was written. -/
theorem mem_entries_set {r : Record Value} {k : String} {v : Value} {e : String × Value}
    (h : e ∈ (r.set k v).entries) : e = (k, v) ∨ e ∈ r.entries := by
  rw [set] at h
  split at h
  · rcases List.mem_append.mp h with h | h
    · exact (Assoc.mem_of_mem_put h).imp_right (List.mem_append_left _)
    · exact .inr (List.mem_append_right _ h)
  · rcases List.mem_append.mp h with h | h
    · exact .inr (List.mem_append_left _ h)
    · exact (Assoc.mem_of_mem_put h).imp_right (List.mem_append_right _)

/-- Writing a key keeps one value under a key. -/
theorem nodup_keys_set {r : Record Value} (hr : r.keys.Nodup) (k : String) (v : Value) :
    (r.set k v).keys.Nodup := by
  rw [keys_set]
  split
  · exact hr
  · next h =>
    exact List.nodup_append.mpr ⟨hr, by simp, fun a ha b hb e => h (by simp_all)⟩

/-- Writing a key keeps the declared keys. -/
theorem map_fst_declared_set (r : Record Value) (k : String) (v : Value) :
    (r.set k v).declared.map Prod.fst = r.declared.map Prod.fst := by
  rw [set]
  split
  · next h => rw [Assoc.map_fst_put, if_pos (Assoc.lookup_isSome_iff.mp h)]
  · rfl

/-- Writing a key keeps the order of the others. -/
theorem filter_keys_set (r : Record Value) (k : String) (v : Value) :
    (r.set k v).keys.filter (· != k) = r.keys.filter (· != k) := by
  rw [keys_set]
  split
  · rfl
  · rw [List.filter_append, List.filter_cons_of_neg (by simp), List.filter_nil, List.append_nil]

theorem filter_keys_erase (r : Record Value) (k : String) :
    ({ r with extra := Assoc.erase k r.extra } : Record Value).keys.filter (· != k) =
      r.keys.filter (· != k) := by
  simp only [keys, entries, List.map_append, List.filter_append, Assoc.erase, List.filter_map,
    List.filter_filter, Function.comp_def, Bool.and_self]

/-- Writing a proper value keeps a record proper. -/
theorem Proper.set {r : Record Value} (hr : r.Proper) {k : String} {v : Value} (hv : v.Proper) :
    (r.set k v).Proper := by
  refine ⟨nodup_keys_set hr.keys_nodup k v, fun e he => ?_⟩
  rcases mem_entries_set he with rfl | he
  · exact hv
  · exact hr.values e he

theorem frozen_set (r : Record Value) (k : String) (v : Value) :
    (r.set k v).frozen = r.frozen := by
  rw [set]
  split <;> rfl

/-- A key that is removed is gone, and nothing is new. -/
theorem remove_eq_ok {r r' : Record Value} {f : Field} (h : r.remove f = .ok r') :
    r'.entries.Sublist r.entries ∧ ∀ e ∈ r'.entries, e.1 ≠ f.key := by
  rw [remove] at h
  split at h
  · cases h
  · split at h
    · cases h
    · next hd =>
      cases h
      refine ⟨(List.Sublist.refl _).append List.filter_sublist, fun e he hk => ?_⟩
      rcases List.mem_append.mp he with he | he
      · exact hd (Assoc.lookup_isSome_iff.mpr (hk ▸ List.mem_map_of_mem (f := Prod.fst) he))
      · simpa [hk] using (List.mem_filter.mp he).2

/-- Removing a key leaves what the others hold. -/
theorem get?_remove {r r' : Record Value} {f : Field} (h : r.remove f = .ok r') {key : String}
    (hk : key ≠ f.key) : r'.get? key = r.get? key := by
  rw [remove] at h
  split at h
  · cases h
  · split at h
    · cases h
    · cases h
      simp only [get?, Assoc.lookup_erase_of_ne hk]

/-- A record stays proper without the key of its only value that is not. -/
theorem Proper.remove_set {r s r' : Record Value} {f : Field} {v : Value} (hr : r.Proper)
    (h : s.remove f = .ok r') (hs : s.entries = (r.set f.key v).entries) : r'.Proper := by
  obtain ⟨hsub, hne⟩ := remove_eq_ok h
  rw [hs] at hsub
  refine ⟨(nodup_keys_set hr.keys_nodup f.key v).sublist (hsub.map _), fun e he => ?_⟩
  rcases mem_entries_set (hsub.subset he) with rfl | hmem
  · exact absurd rfl (hne _ he)
  · exact hr.values e hmem

theorem Proper.remove {r r' : Record Value} {f : Field} (hr : r.Proper)
    (h : r.remove f = .ok r') : r'.Proper := by
  obtain ⟨hsub, -⟩ := remove_eq_ok h
  exact ⟨hr.keys_nodup.sublist (hsub.map _), fun e he => hr.values e (hsub.subset he)⟩

end Record

/-- The items of a proper value are proper. -/
theorem Value.Proper.elements {v : Value} (hv : v.Proper) : ∀ x ∈ v.elements, x.Proper := by
  cases v with
  | list xs => cases hv with | list h => exact h
  | _ =>
    intro x hx
    rw [List.mem_singleton.mp hx]
    exact hv

theorem Entry.proper_stored {e : Entry} (h : e.value.Proper) : e.stored.Proper := by
  unfold Entry.stored
  split
  · exact .list h.elements
  · exact h

namespace Record

/-! ### Changing an open record -/

variable {r : Record Value} {e : Entry}

theorem check_eq_ok_iff :
    r.check e = .ok () ↔ r.frozen = false ∧ e.kind.admits e.value = true := by
  rw [check]
  cases r.frozen <;> cases e.kind.admits e.value <;>
    simp [throw, throwThe, MonadExceptOf.throw, pure, Except.pure]

theorem append_of_list {items : List Value} (hopen : r.frozen = false)
    (hadmits : e.kind.admits e.value = true) (h : r.get? e.key = some (.list items)) :
    r.append e = .ok (r.set e.key (.list (items ++ e.value.elements))) := by
  rw [append, check_eq_ok_iff.mpr ⟨hopen, hadmits⟩, h]
  rfl

theorem append_of_absent (hopen : r.frozen = false) (hadmits : e.kind.admits e.value = true)
    (h : r.get? e.key = none) : r.append e = .ok (r.set e.key e.stored) := by
  rw [append, check_eq_ok_iff.mpr ⟨hopen, hadmits⟩, h]
  rfl

/-- A single value takes no items. -/
theorem append_of_single {v : Value} (hopen : r.frozen = false)
    (hadmits : e.kind.admits e.value = true) (h : r.get? e.key = some v)
    (hv : ∀ items, v ≠ .list items) : r.append e = .error (.notSequence e.key) := by
  rw [append, check_eq_ok_iff.mpr ⟨hopen, hadmits⟩, h]
  cases v with
  | list items => exact absurd rfl (hv items)
  | _ => rfl

theorem replace_of_open (hopen : r.frozen = false) (hadmits : e.kind.admits e.value = true) :
    r.replace e = .ok (r.set e.key e.stored) := by
  rw [replace, check_eq_ok_iff.mpr ⟨hopen, hadmits⟩]
  rfl

theorem put_of_open (hopen : r.frozen = false) (hadmits : e.kind.admits e.value = true) :
    r.put e = .ok (r.set e.key e.stored) := by
  rw [put, hopen, hadmits]
  rfl

/-- An open record gives up a key that is not declared. -/
theorem remove_of_open {f : Field} (hopen : r.frozen = false)
    (h : f.key ∉ r.declared.map Prod.fst) :
    r.remove f = .ok { r with extra := Assoc.erase f.key r.extra } := by
  have hd : ¬ Assoc.has f.key r.declared = true := fun hd => h (Assoc.lookup_isSome_iff.mp hd)
  rw [remove, if_neg (by simp [hopen]), if_neg hd]
  rfl

end Record

end TypeSketch
