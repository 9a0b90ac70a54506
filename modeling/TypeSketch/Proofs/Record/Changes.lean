import TypeSketch.Proofs.Draft
import TypeSketch.Proofs.Record.Writing
import TypeSketch.Record.InPlace

/-!
# Records — courses of changes

A change in place looks before it writes, so that one that fails leaves the record as it was
(`Change.outcome_edit`).  What one that comes off makes of a record is told by `Change.Makes`, and
what such steps keep is kept by a whole course of changes (`Record.after_induction`).  So a record
is a finite map whose declared keys stay (`Record.protected_of_changes`): no key stands twice, and a
change is about one key only (`Change.Lawful`).

There is one statement about each step in place (`outcome_append`, `outcome_replace`, `outcome_put`,
`outcome_remove`). Behind these the steps are not met again: `Makes` says all that a change can do,
and each law is proved of it case by case.
-/

namespace TypeSketch

/-! ### Changes in place -/

namespace Edit

/-- How steps come out that change the record as a whole, or fail and leave it. -/
def settled (r : Record Value) : Except Error (Record Value) → Except Error Unit × Record Value
  | .ok r' => (.ok (), r')
  | .error err => (.error err, r)

variable {α β : Type} {r : Record Value}

theorem outcome_read (f : Record Value → Edit β) (r : Record Value) :
    (get >>= f).outcome r = (f r).outcome r := rfl

/-- Steps after a test, which does not touch the record. -/
theorem outcome_of_test {x : Edit α} {t : Except Error α} (f : α → Edit β) :
    x.outcome r = (t, r) → (x >>= f).outcome r =
      match t with
      | .ok a => (f a).outcome r
      | .error err => (.error err, r) := by
  intro h
  change ExceptT.bindCont f (x.outcome r).1 (x.outcome r).2 = _
  rw [h]
  cases t <;> rfl

theorem outcome_ensure (holds : Bool) (err : Error) (r : Record Value) :
    (ensure holds err).outcome r = (if holds then .ok () else .error err, r) := by
  cases holds <;> rfl

theorem outcome_ensureOpen (key : String) (r : Record Value) :
    (ensureOpen key).outcome r = (if r.frozen then .error (.frozen key) else .ok (), r) := by
  rw [ensureOpen, outcome_read, outcome_ensure]
  cases r.frozen <;> rfl

/-- The check of an entry does not touch the record. -/
theorem outcome_check (e : Entry) (r : Record Value) : (check e).outcome r = (r.check e, r) := by
  rw [check, outcome_of_test _ (outcome_ensureOpen ..), Record.check]
  cases r.frozen with
  | true => rfl
  | false =>
    refine (outcome_ensure ..).trans ?_
    cases e.kind.admits e.value <;> rfl

/-- An entry is appended as a whole, or nothing is changed. -/
theorem outcome_append (e : Entry) (r : Record Value) :
    (append e).outcome r = settled r (r.append e) := by
  rw [append, outcome_of_test _ (outcome_check e r), Record.append]
  cases r.check e with
  | error err => rfl
  | ok =>
    refine (outcome_read _ r).trans ?_
    rcases r.get? e.key with _ | v
    · rfl
    · cases v <;> rfl

theorem outcome_replace (e : Entry) (r : Record Value) :
    (replace e).outcome r = settled r (r.replace e) := by
  rw [replace, outcome_of_test _ (outcome_check e r), Record.replace]
  cases r.check e <;> rfl

/-- An entry is put in as a whole, or nothing is changed. -/
theorem outcome_put (e : Entry) (r : Record Value) :
    (put e).outcome r = settled r (r.put e) := by
  rw [put, outcome_read, Record.put]
  refine (outcome_of_test _ (outcome_ensure ..)).trans ?_
  cases r.frozen with
  | true => rfl
  | false =>
    refine (outcome_of_test _ (outcome_ensure ..)).trans ?_
    cases e.kind.admits e.value <;> rfl

/-- A key is removed as a whole, or nothing is changed. -/
theorem outcome_remove (f : Field) (r : Record Value) :
    (remove f).outcome r = settled r (r.remove f) := by
  obtain ⟨declared, extra, frozen⟩ := r
  rw [remove, outcome_of_test _ (outcome_ensureOpen ..), Record.remove]
  cases frozen with
  | true => rfl
  | false =>
    refine (outcome_read _ _).trans ((outcome_of_test _ (outcome_ensure ..)).trans ?_)
    cases Assoc.has f.key declared with
    | true => rfl
    | false =>
      refine (outcome_read _ _).trans ?_
      cases h : Assoc.has f.key extra with
      | true => rfl
      | false =>
        -- the steps leave the record, and clearing an absent key gives it back
        rw [if_neg (by simp)]
        exact congrArg (fun t => (Except.ok (), Record.mk declared t false))
          (Assoc.erase_of_not_has h).symm

end Edit

namespace Change

/-- A change in place makes what the change makes, and leaves the record if it fails. -/
theorem outcome_edit (c : Change) (r : Record Value) :
    c.edit.outcome r = Edit.settled r (c.apply r) := by
  cases c with
  | append e => exact Edit.outcome_append e r
  | replace e => exact Edit.outcome_replace e r
  | put e => exact Edit.outcome_put e r
  | remove f => exact Edit.outcome_remove f r
  | freeze | copy => rfl

/-! ### What a change makes -/

/-- What a change that comes off makes of a record. -/
inductive Makes (r : Record Value) : Change → Record Value → Prop
  | append {e : Entry} {items : List Value} (hopen : r.frozen = false)
      (hadmits : e.kind.admits e.value = true) (h : r.get? e.key = some (.list items)) :
      Makes r (.append e) (r.set e.key (.list (items ++ e.value.elements)))
  | fill {e : Entry} (hopen : r.frozen = false) (hadmits : e.kind.admits e.value = true)
      (h : r.get? e.key = none) : Makes r (.append e) (r.set e.key e.stored)
  | replace {e : Entry} (hopen : r.frozen = false) (hadmits : e.kind.admits e.value = true) :
      Makes r (.replace e) (r.set e.key e.stored)
  | put {e : Entry} (hopen : r.frozen = false) (hadmits : e.kind.admits e.value = true) :
      Makes r (.put e) (r.set e.key e.stored)
  | remove {f : Field} (hopen : r.frozen = false) (h : f.key ∉ r.declared.map Prod.fst) :
      Makes r (.remove f) { r with extra := Assoc.erase f.key r.extra }
  | freeze : Makes r .freeze r.freeze
  | copy : Makes r .copy r.copy

variable {c : Change} {r r' : Record Value}

/-- A change comes off with what it makes. -/
theorem Makes.apply_eq (h : c.Makes r r') : c.apply r = .ok r' := by
  cases h with
  | append hopen hadmits h => exact Record.append_of_list hopen hadmits h
  | fill hopen hadmits h => exact Record.append_of_absent hopen hadmits h
  | replace hopen hadmits => exact Record.replace_of_open hopen hadmits
  | put hopen hadmits => exact Record.put_of_open hopen hadmits
  | remove hopen h => exact Record.remove_of_open hopen h
  | freeze | copy => rfl

/-- What a change comes off with is what it makes. -/
theorem makes_of_apply (h : c.apply r = .ok r') : c.Makes r r' := by
  cases c with
  | append e =>
    obtain ⟨_, hcheck, hrest⟩ := Except.bind_eq_ok.mp h
    obtain ⟨hopen, hadmits⟩ := Record.check_eq_ok_iff.mp hcheck
    cases hget : r.get? e.key with
    | none =>
      rw [hget] at hrest
      cases hrest
      exact .fill hopen hadmits hget
    | some v =>
      rw [hget] at hrest
      cases v with
      | list items =>
        cases hrest
        exact .append hopen hadmits hget
      | _ => cases hrest
  | replace e =>
    obtain ⟨_, hcheck, hrest⟩ := Except.bind_eq_ok.mp h
    obtain ⟨hopen, hadmits⟩ := Record.check_eq_ok_iff.mp hcheck
    cases hrest
    exact .replace hopen hadmits
  | put e =>
    rw [apply, Record.put] at h
    split at h
    · cases h
    · next hn =>
      cases h
      simp only [Bool.or_eq_true, Bool.not_eq_true', not_or, Bool.not_eq_true,
        Bool.not_eq_false] at hn
      exact .put hn.1 hn.2
  | remove f =>
    rw [apply, Record.remove] at h
    split at h
    · cases h
    · next hopen =>
      split at h
      · cases h
      · next hd =>
        cases h
        exact .remove (Bool.not_eq_true _ ▸ hopen) fun hm => hd (Assoc.lookup_isSome_iff.mpr hm)
  | freeze =>
    cases h
    exact .freeze
  | copy =>
    cases h
    exact .copy

/-- In place, a change makes what it makes, or fails and leaves the record. -/
theorem outcome_cases (c : Change) (r : Record Value) :
    (∃ r', c.Makes r r' ∧ c.edit.outcome r = (.ok (), r')) ∨
      (∀ r', ¬ c.Makes r r') ∧ ∃ err, c.edit.outcome r = (.error err, r) := by
  rw [outcome_edit]
  cases h : c.apply r with
  | ok r' => exact .inl ⟨r', makes_of_apply h, rfl⟩
  | error err =>
    refine .inr ⟨fun r' hm => ?_, err, rfl⟩
    rw [hm.apply_eq] at h
    cases h

/-! ### What every change keeps -/

namespace Makes

theorem map_fst_declared (h : c.Makes r r') :
    r'.declared.map Prod.fst = r.declared.map Prod.fst := by
  cases h with
  | append | fill | replace | put => exact Record.map_fst_declared_set ..
  | remove | freeze | copy => rfl

/-- A change keeps one value under a key. -/
theorem nodup_keys (h : c.Makes r r') (hr : r.keys.Nodup) : r'.keys.Nodup := by
  cases h with
  | append | fill | replace | put => exact Record.nodup_keys_set hr ..
  | remove hopen hf =>
    exact hr.sublist ((Record.remove_eq_ok (Record.remove_of_open hopen hf)).1.map Prod.fst)
  | freeze | copy => exact hr

/-- A change is about its key only. -/
theorem get?_eq (h : c.Makes r r') {k : String} (hk : c.key? ≠ some k) : r'.get? k = r.get? k := by
  cases h with
  | append | fill | replace | put =>
    exact Record.get?_set_of_ne (fun e => hk (congrArg some e.symm)) ..
  | remove hopen hf =>
    exact Record.get?_remove (Record.remove_of_open hopen hf) fun e => hk (congrArg some e.symm)
  | freeze | copy => rfl

/-- The other keys keep their order. -/
theorem filter_keys (h : c.Makes r r') {k : String} (hk : c.key? = some k) :
    r'.keys.filter (· != k) = r.keys.filter (· != k) := by
  cases h with
  | append | fill | replace | put =>
    cases hk
    exact Record.filter_keys_set ..
  | remove =>
    cases hk
    exact Record.filter_keys_erase ..
  | freeze | copy => cases hk

/-- A value that is there after a change was there before, or was brought. -/
theorem mem_entries (h : c.Makes r r') {e : String × Value} (he : e ∈ r'.entries) :
    e ∈ r.entries ∨ ∃ brought, c.entry? = some brought ∧ e.1 = brought.key ∧
      (e.2 = brought.stored ∨ ∃ items, r.get? brought.key = some (.list items) ∧
        e.2 = .list (items ++ brought.value.elements)) := by
  cases h with
  | append _ _ hget =>
    refine (Record.mem_entries_set he).symm.imp_right fun he => ?_
    exact ⟨_, rfl, congrArg Prod.fst he, .inr ⟨_, hget, congrArg Prod.snd he⟩⟩
  | fill | replace | put =>
    refine (Record.mem_entries_set he).symm.imp_right fun he => ?_
    exact ⟨_, rfl, congrArg Prod.fst he, .inl (congrArg Prod.snd he)⟩
  | remove hopen hf =>
    exact .inl ((Record.remove_eq_ok (Record.remove_of_open hopen hf)).1.subset he)
  | freeze | copy => exact .inl he

end Makes

end Change

namespace Record

/-! ### Courses of changes -/

/-- What every change of a course keeps is kept by the course. -/
theorem after_induction {P : Record Value → Prop} {changes : List Change}
    (step : ∀ c ∈ changes, ∀ r r', P r → c.Makes r r' → P r') {r : Record Value} (hr : P r) :
    P (r.after changes) := by
  induction changes generalizing r with
  | nil => exact hr
  | cons c changes ih =>
    rw [List.forall_mem_cons] at step
    refine ih step.2 (r := (c.edit.outcome r).2) ?_
    rcases c.outcome_cases r with ⟨r', hm, ho⟩ | ⟨-, err, ho⟩
    · rw [ho]
      exact step.1 r r' hr hm
    · rw [ho]
      exact hr

theorem map_fst_declared_after (r : Record Value) (changes : List Change) :
    (r.after changes).declared.map Prod.fst = r.declared.map Prod.fst :=
  after_induction (P := fun r' => r'.declared.map Prod.fst = r.declared.map Prod.fst)
    (fun _ _ _ _ h hm => hm.map_fst_declared.trans h) rfl

theorem nodup_keys_ofDeclared (declared : List Entry) : (ofDeclared declared).keys.Nodup := by
  rw [keys, entries, ofDeclared, List.append_nil]
  exact Assoc.nodup_ofList _

theorem nodup_keys_after {r : Record Value} (hr : r.keys.Nodup) (changes : List Change) :
    (r.after changes).keys.Nodup :=
  after_induction (fun _ _ _ _ h hm => hm.nodup_keys h) hr

end Record

/-- What comes of a change of a record `r` in place, when it comes out as `x` and leaves `r'`. -/
structure Change.Lawful (c : Change) (r : Record Value) (x : Except Error Unit)
    (r' : Record Value) : Prop where
  /-- Failure leaves the record as it was. -/
  kept : ∀ err, x = .error err → r' = r
  /-- A frozen record takes no change of a key. -/
  refused : r.frozen = true → c.key? ≠ none → ∃ err, x = .error err
  /-- An open record takes a value of the kind of its key, unless that is to be added to something
  that is no list, and every key may be cleared that is not declared. -/
  granted : r.frozen = false → (∀ e ∈ c.entry?, e.kind.admits e.value = true) →
    (∀ e v, c = .append e → r.get? e.key = some v → ∃ items, v = .list items) →
    (∀ f, c = .remove f → f.key ∉ r.declared.map Prod.fst) → x = .ok ()
  /-- No other key is touched. -/
  others : x = .ok () → ∀ k, c.key? ≠ some k → r'.get? k = r.get? k
  /-- The other keys stay in order. -/
  order : x = .ok () → ∀ k, c.key? = some k → r'.keys.filter (· != k) = r.keys.filter (· != k)
  /-- The value is there, in a list if the key is one for lists. -/
  written : x = .ok () → ∀ e, c = .replace e ∨ c = .put e → r'.get? e.key = some e.stored
  /-- The elements stand behind those that were there. -/
  appended : x = .ok () → ∀ e, c = .append e →
    (∃ items, r.get? e.key = some (.list items) ∧
      r'.get? e.key = some (.list (items ++ e.value.elements))) ∨
    r.get? e.key = none ∧ r'.get? e.key = some e.stored
  /-- Nothing is there. -/
  removed : x = .ok () → ∀ f, c = .remove f → r'.get? f.key = none
  /-- What is frozen holds what it held, and so does a copy, which is open. -/
  frozen : c = .freeze → x = .ok () ∧ r'.entries = r.entries ∧ r'.frozen = true
  copied : c = .copy → x = .ok () ∧ r'.entries = r.entries ∧ r'.frozen = false
  /-- A change of a key freezes nothing. -/
  stays : c.key? ≠ none → r'.frozen = r.frozen

namespace Change

variable {c : Change} {r r' : Record Value}

theorem Makes.frozen_eq (h : c.Makes r r') (hk : c.key? ≠ none) : r.frozen = false := by
  cases h with
  | append hopen | fill hopen | replace hopen | put hopen | remove hopen => exact hopen
  | freeze | copy => exact absurd rfl hk

/-- An open record takes every change that nothing speaks against. -/
theorem exists_makes (hopen : r.frozen = false)
    (hadmits : ∀ e ∈ c.entry?, e.kind.admits e.value = true)
    (hlist : ∀ e v, c = .append e → r.get? e.key = some v → ∃ items, v = .list items)
    (hextra : ∀ f, c = .remove f → f.key ∉ r.declared.map Prod.fst) : ∃ r', c.Makes r r' := by
  cases c with
  | append e =>
    cases hget : r.get? e.key with
    | none => exact ⟨_, .fill hopen (hadmits e rfl) hget⟩
    | some v =>
      obtain ⟨items, rfl⟩ := hlist e v rfl hget
      exact ⟨_, .append hopen (hadmits e rfl) hget⟩
  | replace e => exact ⟨_, .replace hopen (hadmits e rfl)⟩
  | put e => exact ⟨_, .put hopen (hadmits e rfl)⟩
  | remove f => exact ⟨_, .remove hopen (hextra f rfl)⟩
  | freeze => exact ⟨_, .freeze⟩
  | copy => exact ⟨_, .copy⟩

theorem Makes.get?_written (h : c.Makes r r') {e : Entry} (hc : c = .replace e ∨ c = .put e) :
    r'.get? e.key = some e.stored := by
  rcases hc with rfl | rfl <;> cases h <;> exact Record.get?_set_self ..

/-- After an entry is appended, its key holds a list that goes on, or the entry alone. -/
theorem Makes.get?_appended {e : Entry} (h : (Change.append e).Makes r r') :
    (∃ items, r.get? e.key = some (.list items) ∧
      r'.get? e.key = some (.list (items ++ e.value.elements))) ∨
    r.get? e.key = none ∧ r'.get? e.key = some e.stored := by
  cases h with
  | append _ _ hget => exact .inl ⟨_, hget, Record.get?_set_self ..⟩
  | fill _ _ hget => exact .inr ⟨hget, Record.get?_set_self ..⟩

/-- After a key is removed, it holds nothing. -/
theorem Makes.get?_removed {f : Field} (h : (Change.remove f).Makes r r') :
    r'.get? f.key = none := by
  cases h with
  | remove hopen hf =>
    have hne := (Record.remove_eq_ok (Record.remove_of_open hopen hf)).2
    rw [Record.get?_eq_lookup, Assoc.lookup_eq_none_iff]
    intro hm
    obtain ⟨e, he, hk⟩ := List.mem_map.mp hm
    exact hne e he hk

theorem Makes.frozen_stays (h : c.Makes r r') (hk : c.key? ≠ none) : r'.frozen = r.frozen := by
  cases h with
  | append | fill | replace | put => exact Record.frozen_set ..
  | remove => rfl
  | freeze | copy => exact absurd rfl hk

/-- Every change of every record in place comes out as `Lawful` says. -/
theorem lawful (c : Change) (r : Record Value) :
    c.Lawful r (c.edit.outcome r).1 (c.edit.outcome r).2 := by
  rcases c.outcome_cases r with ⟨r', h, ho⟩ | ⟨hnone, err, ho⟩
  · rw [ho]
    exact {
      kept := nofun
      refused := fun hfrozen hk => by
        rw [h.frozen_eq hk] at hfrozen
        cases hfrozen
      granted := fun _ _ _ _ => rfl
      others := fun _ k hk => h.get?_eq hk
      order := fun _ k hk => h.filter_keys hk
      written := fun _ e hc => h.get?_written hc
      appended := fun _ e hc => (hc ▸ h).get?_appended
      removed := fun _ f hc => (hc ▸ h).get?_removed
      frozen := fun hc => by
        subst hc
        cases h
        exact ⟨rfl, rfl, rfl⟩
      copied := fun hc => by
        subst hc
        cases h
        exact ⟨rfl, rfl, rfl⟩
      stays := fun hk => h.frozen_stays hk }
  -- A change that fails leaves everything, and fails only where nothing is granted.
  · rw [ho]
    exact {
      kept := fun _ _ => rfl
      refused := fun _ _ => ⟨err, rfl⟩
      granted := fun hopen hadmits hlist hextra => by
        obtain ⟨r', hm⟩ := exists_makes hopen hadmits hlist hextra
        exact absurd hm (hnone r')
      others := nofun
      order := nofun
      written := nofun
      appended := nofun
      removed := nofun
      frozen := fun hc => by
        subst hc
        exact absurd .freeze (hnone _)
      copied := fun hc => by
        subst hc
        exact absurd .copy (hnone _)
      stays := fun _ => rfl }

end Change

namespace Record

/-- A record that has been made with declared keys and then changed in place, in whatever course,
has them still, in their order, and holds one value under a key; the next change in place keeps to
its key, or to nothing if it fails. -/
theorem protected_of_changes (declared : List Entry) (changes : List Change) :
    ((ofDeclared declared).after changes).declared.map Prod.fst =
        (ofDeclared declared).declared.map Prod.fst ∧
      ((ofDeclared declared).after changes).keys.Nodup ∧
      (((ofDeclared declared).after changes).declared.map Prod.fst).Disjoint
        (((ofDeclared declared).after changes).extra.map Prod.fst) ∧
      ∀ c : Change, c.Lawful ((ofDeclared declared).after changes)
        (c.edit.outcome ((ofDeclared declared).after changes)).1
        (c.edit.outcome ((ofDeclared declared).after changes)).2 := by
  have hnodup := nodup_keys_after (nodup_keys_ofDeclared declared) changes
  refine ⟨map_fst_declared_after .., hnodup, ?_, fun c => c.lawful _⟩
  rw [keys, entries, List.map_append] at hnodup
  exact List.disjoint_of_nodup_append hnodup

end Record

end TypeSketch
