import Mathlib.Data.List.Induction
import TypeSketch.Proofs.Draft
import TypeSketch.Proofs.Record.Writing

/-!
# Records — entries laid over a record

Entries are appended to a record one after the other.  What a key holds then can be told from what
it held and from the entries under it alone (`laid?`), and whether the record takes the entries from
the record and the entries before each (`Takes`).  `append_all` puts this together: either every
entry fits, and the record has gained keys and items only (`Laid`), or the first that does not fit
is what fails (`Stuck`).

The proof goes by adding one entry at the end (`laid?_concat`, `Takes.concat`, `Stuck.concat`,
`Laid.concat`), since appending is a fold from the left. What an entry meets depends on the entries
under its own key only (`met?_under`), and so whether all are taken can be told key by key
(`takes_iff_under`).
-/

namespace TypeSketch

namespace Value

/-- A list goes on with more items; a single value stays. -/
def extended (more : List Value) : Value → Value
  | .list items => .list (items ++ more)
  | v => v

/-- A value that no items can be added to. -/
def Single (v : Value) : Prop := ∀ items, v ≠ .list items

@[simp] theorem extended_list (more items : List Value) :
    (Value.list items).extended more = .list (items ++ more) := rfl

theorem Single.extended {v : Value} (h : v.Single) (more : List Value) : v.extended more = v := by
  cases v with
  | list items => exact absurd rfl (h items)
  | _ => rfl

theorem list_or_single (v : Value) : (∃ items, v = .list items) ∨ v.Single := by
  cases v with
  | list items => exact .inl ⟨items, rfl⟩
  | _ => exact .inr nofun

theorem extended_nil (v : Value) : v.extended [] = v := by
  rcases v.list_or_single with ⟨items, rfl⟩ | h
  · rw [extended_list, List.append_nil]
  · exact h.extended []

theorem extended_extended (v : Value) (more more' : List Value) :
    (v.extended more).extended more' = v.extended (more ++ more') := by
  rcases v.list_or_single with ⟨items, rfl⟩ | h
  · rw [extended_list, extended_list, extended_list, List.append_assoc]
  · rw [h.extended more, h.extended more', h.extended (more ++ more')]

end Value

/-- The last of some items comes first only if it is new. -/
theorem eraseDups_concat (l : List String) (k : String) :
    (l ++ [k]).eraseDups = if k ∈ l then l.eraseDups else l.eraseDups ++ [k] := by
  rw [List.eraseDups_append]
  split
  · next h => simp [List.removeAll, h]
  · next h => simp [List.removeAll, h, List.eraseDups_cons]

namespace Record

/-! ### What a key holds -/

/-- The items that entries bring. -/
def brought (es : List Entry) : List Value := es.flatMap (·.value.elements)

/-- The entries under a key. -/
def under (key : String) (es : List Entry) : List Entry := es.filter (·.key == key)

/-- What a key that held something, or nothing, holds after some entries under it: what it held goes
on, or else the first of them does. -/
def laid? : Option Value → List Entry → Option Value
  | some v, es => some (v.extended (brought es))
  | none, [] => none
  | none, e :: es => some (e.stored.extended (brought es))

theorem laid?_nil (held? : Option Value) : laid? held? [] = held? := by
  cases held? with
  | none => rfl
  | some v => exact congrArg some v.extended_nil

/-- One more entry goes behind what is held, or is what is held. -/
theorem laid?_concat (held? : Option Value) (es : List Entry) (e : Entry) :
    laid? held? (es ++ [e]) =
      some (((laid? held? es).map (Value.extended e.value.elements)).getD e.stored) := by
  have hbrought : ∀ es, brought (es ++ [e]) = brought es ++ e.value.elements := fun es => by
    rw [brought, List.flatMap_append, List.flatMap_singleton]
    rfl
  cases held? with
  | some v =>
    rw [laid?, laid?, hbrought, ← Value.extended_extended]
    rfl
  | none =>
    cases es with
    | nil => exact congrArg some e.stored.extended_nil
    | cons e' es =>
      rw [List.cons_append, laid?, laid?, hbrought, ← Value.extended_extended]
      rfl

theorem under_concat_self (es : List Entry) (e : Entry) :
    under e.key (es ++ [e]) = under e.key es ++ [e] := by
  simp only [under, List.filter_append, List.filter_cons, beq_self_eq_true, if_true,
    List.filter_nil]

theorem under_concat_of_ne {key : String} {e : Entry} (h : key ≠ e.key) (es : List Entry) :
    under key (es ++ [e]) = under key es := by
  have hne : (e.key == key) = false := beq_false_of_ne h.symm
  simp only [under, List.filter_append, List.filter_cons, hne, Bool.false_eq_true, if_false,
    List.filter_nil, List.append_nil]

/-! ### Entries that are taken -/

/-- What an entry meets under its key, after others. -/
def met? (r : Record Value) (before : List Entry) (e : Entry) : Option Value :=
  laid? (r.get? e.key) (under e.key before)

/-- Each entry is of its kind, and meets a list or nothing under its key. -/
def Takes (r : Record Value) (es : List Entry) : Prop :=
  ∀ before e after, es = before ++ e :: after →
    e.kind.admits e.value = true ∧ ∀ v, met? r before e = some v → ¬ v.Single

/-- The first entry that does not fit, and what it fails with. -/
inductive Stuck (r : Record Value) : List Entry → Error → Prop
  | kind {before after : List Entry} {e : Entry} (htakes : Takes r before)
      (hkind : e.kind.admits e.value = false) :
      Stuck r (before ++ e :: after) (.kindMismatch e.key e.kind e.value.kind)
  | single {before after : List Entry} {e : Entry} {v : Value} (htakes : Takes r before)
      (hmet : met? r before e = some v) (hsingle : v.Single) :
      Stuck r (before ++ e :: after) (.notSequence e.key)

variable {r r' : Record Value} {es : List Entry} {e : Entry}

theorem takes_nil (r : Record Value) : Takes r [] := by
  intro before e after h
  cases before <;> cases h

/-- One more entry is taken if it is of its kind and meets no single value. -/
theorem Takes.concat (h : Takes r es) (hkind : e.kind.admits e.value = true)
    (hmet : ∀ v, met? r es e = some v → ¬ v.Single) : Takes r (es ++ [e]) := by
  intro before e' after heq
  -- the entry is one of those before, or the last
  rcases List.append_eq_append_iff.mp heq with ⟨more, rfl, hmore⟩ | ⟨more, rfl, hmore⟩
  · cases more with
    | nil =>
      rw [List.nil_append, List.cons.injEq] at hmore
      obtain ⟨rfl, -⟩ := hmore
      rw [List.append_nil]
      exact ⟨hkind, hmet⟩
    | cons => simp at hmore
  · cases more with
    | nil =>
      rw [List.nil_append, List.cons.injEq] at hmore
      obtain ⟨rfl, -⟩ := hmore
      rw [List.append_nil] at hmet
      exact ⟨hkind, hmet⟩
    | cons e'' more =>
      rw [List.cons_append, List.cons.injEq] at hmore
      obtain ⟨rfl, -⟩ := hmore
      exact h before e' more rfl

/-- What is stuck stays stuck, whatever comes behind it. -/
theorem Stuck.concat {err : Error} (h : Stuck r es err) (e : Entry) : Stuck r (es ++ [e]) err := by
  cases h with
  | kind htakes hkind =>
    rw [List.append_assoc, List.cons_append]
    exact .kind htakes hkind
  | single htakes hmet hsingle =>
    rw [List.append_assoc, List.cons_append]
    exact .single htakes hmet hsingle

/-- Entries that are stuck are not taken. -/
theorem Stuck.not_takes {err : Error} (h : Stuck r es err) : ¬ Takes r es := by
  intro htakes
  cases h with
  | kind _ hkind =>
    rw [(htakes _ _ _ rfl).1] at hkind
    cases hkind
  | single _ hmet hsingle => exact (htakes _ _ _ rfl).2 _ hmet hsingle

theorem under_under (key : String) (es : List Entry) : under key (under key es) = under key es := by
  simp only [under, List.filter_filter, Bool.and_self]

/-- An entry meets entries under its own key only. -/
theorem met?_under (r : Record Value) (before : List Entry) (e : Entry) :
    met? r (under e.key before) e = met? r before e := by
  rw [met?, met?, under_under]

/-- Whether entries are taken is told key by key. -/
theorem takes_iff_under : Takes r es ↔ ∀ key, Takes r (under key es) := by
  constructor
  · intro h key before e after heq
    obtain ⟨front, back, rfl, rfl, hback⟩ := List.filter_eq_append_iff.mp heq
    obtain ⟨skipped, rest, rfl, hskipped, hkey, -⟩ := List.filter_eq_cons_iff.mp hback
    obtain ⟨hkind, hmet⟩ := h (front ++ skipped) e rest (by rw [List.append_assoc])
    obtain rfl : e.key = key := by simpa using hkey
    refine ⟨hkind, fun v hv => hmet v ?_⟩
    have hnone : under e.key skipped = [] := List.filter_eq_nil_iff.mpr hskipped
    rwa [← met?_under, under, List.filter_append, ← under, ← under, hnone, List.append_nil]
  · rintro h before e after rfl
    have hunder : under e.key (before ++ e :: after) =
        under e.key before ++ e :: under e.key after := by
      rw [under, List.filter_append, List.filter_cons_of_pos (by simp)]
      rfl
    obtain ⟨hkind, hmet⟩ := h e.key _ e _ hunder
    exact ⟨hkind, fun v hv => hmet v ((met?_under ..).trans hv)⟩

/-! ### Laying entries over a record -/

/-- What has become of an open record when entries have been laid over it. -/
structure Laid (r : Record Value) (es : List Entry) (r' : Record Value) : Prop where
  /-- The record is open still. -/
  isOpen : r'.frozen = false
  /-- The keys stay in order, and new keys come behind them in the order of their first entries. -/
  keys : r'.keys = r.keys ++ ((es.map Entry.key).filter (· ∉ r.keys)).eraseDups
  /-- No key comes twice. -/
  once : r'.keys.Nodup
  /-- What a key holds comes from what it held and the entries under it. -/
  get? : ∀ key, r'.get? key = laid? (r.get? key) (under key es)

theorem get?_isSome_iff {key : String} : (r.get? key).isSome ↔ key ∈ r.keys := by
  rw [get?, keys, entries, List.map_append, List.mem_append, ← Assoc.lookup_isSome_iff,
    ← Assoc.lookup_isSome_iff]
  cases r.declared.lookup key <;> simp

theorem Laid.nil (hopen : r.frozen = false) (hkeys : r.keys.Nodup) : Laid r [] r where
  isOpen := hopen
  keys := (List.append_nil _).symm
  once := hkeys
  get? _ := (laid?_nil _).symm

/-- Writing the entry of a key brings its key, if it is new. -/
theorem Laid.keys_set (h : Laid r es r') (e : Entry) (v : Value) :
    (r'.set e.key v).keys =
      r.keys ++ (((es ++ [e]).map Entry.key).filter (· ∉ r.keys)).eraseDups := by
  rw [Record.keys_set, h.keys, List.map_append, List.filter_append, List.map_singleton]
  by_cases hold : e.key ∈ r.keys
  · rw [if_pos (List.mem_append_left _ hold), List.filter_cons_of_neg (by simpa using hold),
      List.filter_nil, List.append_nil]
  · rw [List.filter_cons_of_pos (by simpa using hold), List.filter_nil, eraseDups_concat]
    generalize (es.map Entry.key).filter (· ∉ r.keys) = fresh
    have hmem : e.key ∈ r.keys ++ fresh.eraseDups ↔ e.key ∈ fresh := by
      rw [List.mem_append, List.mem_eraseDups, or_iff_right hold]
    by_cases hnew : e.key ∈ fresh
    · rw [if_pos (hmem.mpr hnew), if_pos hnew]
    · rw [if_neg (mt hmem.mp hnew), if_neg hnew, List.append_assoc]

/-- One more entry that fits is laid over the others. -/
theorem Laid.concat {v : Value} (h : Laid r es r')
    (hv : laid? (r.get? e.key) (under e.key es ++ [e]) = some v) :
    Laid r (es ++ [e]) (r'.set e.key v) where
  isOpen := (frozen_set ..).trans h.isOpen
  keys := h.keys_set e v
  once := nodup_keys_set h.once e.key v
  get? key := by
    by_cases hkey : key = e.key
    · rw [hkey, get?_set_self, under_concat_self, hv]
    · rw [get?_set_of_ne hkey, under_concat_of_ne hkey, h.get?]

/-- Entries appended to an open record: all of them fit, and are laid over it, or the first that
does not fails. -/
theorem append_all (hopen : r.frozen = false) (hkeys : r.keys.Nodup) (es : List Entry) :
    (Takes r es ∧ ∃ r', es.foldlM append r = .ok r' ∧ Laid r es r') ∨
      ∃ err, Stuck r es err ∧ es.foldlM append r = .error err := by
  induction es using List.reverseRecOn with
  | nil => exact .inl ⟨takes_nil r, r, rfl, .nil hopen hkeys⟩
  | append_singleton es e ih =>
    rw [List.foldlM_append]
    rcases ih with ⟨htakes, r', hrun, hlaid⟩ | ⟨err, hstuck, hrun⟩
    · have hstep : es.foldlM append r >>= (fun r => [e].foldlM append r) = r'.append e := by
        rw [hrun]
        exact bind_pure (r'.append e)
      rw [hstep]
      -- What the entry meets now is told by the record at first and the entries before.
      have hmet : r'.get? e.key = met? r es e := hlaid.get? e.key
      have hnext : laid? (r.get? e.key) (under e.key es ++ [e]) = _ := laid?_concat ..
      cases hkind : e.kind.admits e.value with
      | false =>
        refine .inr ⟨_, .kind htakes hkind, ?_⟩
        rw [append, check, hlaid.isOpen, hkind]
        rfl
      | true =>
        cases hheld : met? r es e with
        | none =>
          refine .inl ⟨htakes.concat hkind (by simp [hheld]), _, append_of_absent hlaid.isOpen hkind
            (hmet.trans hheld), hlaid.concat ?_⟩
          rw [hnext, ← met?, hheld]
          rfl
        | some v =>
          rcases v.list_or_single with ⟨items, rfl⟩ | hsingle
          · refine .inl ⟨htakes.concat hkind ?_, _, append_of_list hlaid.isOpen hkind
              (hmet.trans hheld), hlaid.concat ?_⟩
            · rw [hheld]
              rintro _ ⟨⟩ hsingle
              exact hsingle items rfl
            · rw [hnext, ← met?, hheld]
              rfl
          · exact .inr ⟨_, .single htakes hheld hsingle,
              append_of_single hlaid.isOpen hkind (hmet.trans hheld) hsingle⟩
    · rw [hrun]
      exact .inr ⟨err, hstuck.concat e, rfl⟩

/-- Appending entries to an open record comes off just if it takes them. -/
theorem isOk_append_iff (hopen : r.frozen = false) (hkeys : r.keys.Nodup) :
    (∃ r', es.foldlM append r = .ok r') ↔ Takes r es := by
  rcases append_all hopen hkeys es with ⟨htakes, r', hrun, -⟩ | ⟨err, hstuck, hrun⟩
  · exact ⟨fun _ => htakes, fun _ => ⟨r', hrun⟩⟩
  · rw [hrun]
    exact ⟨nofun, fun htakes => absurd htakes hstuck.not_takes⟩

end Record

end TypeSketch
