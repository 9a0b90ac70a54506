import TypeSketch.Proofs.Record.Changes

/-!
# Records — values of the kinds of their keys

A change looks at the kind of what it brings, and then stores that in a list, or behind the items of
a list that is there.  When all that is brought under a key is of the kind that the key has, what is
stored is of that kind, and is a list if the kind is (`Record.Fits.after`).  So appending to a key
that is filled succeeds where the kind is that of lists, and fails where it is that of other values
(`Record.typed_of_changes`).

A key has one kind, and the changes in a course are made by fields of these kinds (`Change.Obeys`);
the kinds that are stored then are an invariant of single changes (`Fits.makes`). For a kind of any
values this cannot be told, since both a list and a single value may be stored under it.
-/

namespace TypeSketch

/-- A value is stored under a key of the kind: the kind takes it, and a list stays a list. -/
def Kind.Stores (k : Kind) (v : Value) : Prop :=
  k.admits v = true ∧ (k = .list → ∃ items, v = .list items)

/-- The record holds values under keys of their kinds. -/
def Record.Fits (kinds : String → Kind) (r : Record Value) : Prop :=
  ∀ e ∈ r.entries, (kinds e.1).Stores e.2

/-- What the change brings is for a key of its kind. -/
def Change.Obeys (kinds : String → Kind) (c : Change) : Prop :=
  ∀ e ∈ c.entry?, e.kind = kinds e.key

namespace Kind

instance (k : Kind) (v : Value) : Decidable (k.Stores v) :=
  decidable_of_iff (k.admits v = true ∧ (k = .list → v.asList?.isSome)) <|
    and_congr_right fun _ => imp_congr_right fun _ => by cases v <;> simp [Value.asList?]

/-- Whether a kind takes a list does not depend on the items. -/
theorem admits_list (k : Kind) (xs ys : List Value) :
    k.admits (.list xs) = k.admits (.list ys) := by
  cases k <;> rfl

/-- A list under a key of a kind of single values is out of place. -/
theorem eq_list_or_any_of_admits {k : Kind} {items : List Value}
    (h : k.admits (.list items) = true) : k = .list ∨ k = .any := by
  cases k <;> simp_all [admits, Value.kind]

end Kind

instance (kinds : String → Kind) (r : Record Value) : Decidable (r.Fits kinds) :=
  inferInstanceAs (Decidable (∀ e ∈ r.entries, (kinds e.1).Stores e.2))

instance (kinds : String → Kind) (c : Change) : Decidable (c.Obeys kinds) :=
  inferInstanceAs (Decidable (∀ e ∈ c.entry?, e.kind = kinds e.key))

/-- What is stored of a value that a kind takes is of that kind. -/
theorem Entry.stores_stored {e : Entry} (h : e.kind.admits e.value = true) :
    e.kind.Stores e.stored := by
  obtain ⟨key, kind, v⟩ := e
  cases kind with
  | list => exact ⟨rfl, fun _ => ⟨_, rfl⟩⟩
  | _ => exact ⟨h, nofun⟩

/-- A change that comes off brings a value of its kind. -/
theorem Change.Makes.admits {c : Change} {r r' : Record Value} (h : c.Makes r r') {e : Entry}
    (he : c.entry? = some e) : e.kind.admits e.value = true := by
  cases h with
  | append _ hadmits | fill _ hadmits | replace _ hadmits | put _ hadmits =>
    cases he
    exact hadmits
  | remove | freeze | copy => cases he

namespace Record

variable {kinds : String → Kind} {r r' : Record Value}

theorem Fits.get? (hr : r.Fits kinds) {k : String} {v : Value} (h : r.get? k = some v) :
    (kinds k).Stores v :=
  hr _ (mem_of_get? h)

/-- A change that brings a value for a key of its kind keeps values of their kinds. -/
theorem Fits.makes (hr : r.Fits kinds) {c : Change} (hc : c.Obeys kinds) (h : c.Makes r r') :
    r'.Fits kinds := by
  intro e he
  rcases h.mem_entries he with he | ⟨brought, hb, hk, hv⟩
  · exact hr e he
  · have hkind := hc brought hb
    rw [hk]
    rcases hv with hv | ⟨items, hget, hv⟩
    · rw [hv, ← hkind]
      exact Entry.stores_stored (h.admits hb)
    · -- the items that were there have shown that the kind takes lists
      rw [hv]
      have hitems := hr.get? hget
      exact ⟨Kind.admits_list _ items _ ▸ hitems.1, fun _ => ⟨_, rfl⟩⟩

/-- A course of changes that bring values for keys of their kinds leaves them so. -/
theorem Fits.after (hr : r.Fits kinds) {changes : List Change}
    (hchanges : ∀ c ∈ changes, c.Obeys kinds) : (r.after changes).Fits kinds :=
  after_induction (fun c hc _ _ h hm => h.makes (hchanges c hc) hm) hr

/-- A key of lists that is filled takes more items. -/
theorem Fits.append_list (hr : r.Fits kinds) (hopen : r.frozen = false) {e : Entry} {v : Value}
    (hkind : e.kind = kinds e.key) (h : r.get? e.key = some v) (hlist : e.kind = .list) :
    ∃ items, v = .list items ∧
      r.append e = .ok (r.set e.key (.list (items ++ e.value.elements))) := by
  obtain ⟨items, rfl⟩ := (hr.get? h).2 (hkind ▸ hlist)
  exact ⟨items, rfl, append_of_list hopen (by rw [hlist]; rfl) h⟩

/-- A key of single values that is filled takes no more. -/
theorem Fits.append_single (hr : r.Fits kinds) (hopen : r.frozen = false) {e : Entry} {v : Value}
    (hkind : e.kind = kinds e.key) (hadmits : e.kind.admits e.value = true)
    (h : r.get? e.key = some v) (hlist : e.kind ≠ .list) (hany : e.kind ≠ .any) :
    r.append e = .error (.notSequence e.key) := by
  refine append_of_single hopen hadmits h fun items hv => ?_
  have hv' := (hr.get? h).1
  rw [hv, ← hkind] at hv'
  rcases Kind.eq_list_or_any_of_admits hv' with h | h
  · exact hlist h
  · exact hany h

/-- Under keys that have a kind each, a record that has been made with declared values of these
kinds, and changed with values for keys of their kinds, in whatever course, holds values of these
kinds, and lists under the keys for lists.  So while it is open, what is of its kind can be added
under every key that is filled and is for lists, and under none that is for values of another
kind. -/
theorem typed_of_changes {declared : List Entry} {changes : List Change}
    (hdeclared : (ofDeclared declared).Fits kinds) (hchanges : ∀ c ∈ changes, c.Obeys kinds) :
    (∀ e ∈ ((ofDeclared declared).after changes).entries, (kinds e.1).admits e.2 = true ∧
        (kinds e.1 = .list → ∃ items, e.2 = .list items)) ∧
      (((ofDeclared declared).after changes).frozen = false → ∀ (e : Entry) (v : Value),
        e.kind = kinds e.key → e.kind.admits e.value = true →
        ((ofDeclared declared).after changes).get? e.key = some v →
        (e.kind = .list → ∃ items, v = .list items ∧
          ((ofDeclared declared).after changes).append e =
            .ok (((ofDeclared declared).after changes).set e.key
              (.list (items ++ e.value.elements)))) ∧
        (e.kind ≠ .list → e.kind ≠ .any →
          ((ofDeclared declared).after changes).append e = .error (.notSequence e.key))) := by
  have hfits := hdeclared.after hchanges
  refine ⟨hfits, fun hopen e v hkind hadmits hget => ⟨fun hlist => ?_, fun hlist hany => ?_⟩⟩
  · exact hfits.append_list hopen hkind hget hlist
  · exact hfits.append_single hopen hkind hadmits hget hlist hany

/-- Names and sizes are single, and all else is listed. -/
def labelKinds : String → Kind
  | "name" => .str
  | "size" => .float
  | _ => .list

/-- A course in which a size is a whole number, one change is refused, and a copy goes on. -/
def labelling : List Change :=
  [.append ⟨"tags", .list, .str "a"⟩, .replace ⟨"size", .float, .int 3⟩, .freeze,
    .append ⟨"tags", .list, .str "lost"⟩, .copy, .append ⟨"tags", .list, .list [.str "b"]⟩]

theorem typed_labelling :
    (ofDeclared [⟨"name", .str, .str "thing"⟩]).Fits labelKinds ∧
      (∀ c ∈ labelling, c.Obeys labelKinds) ∧
      ∃ r, (ofDeclared [⟨"name", .str, .str "thing"⟩]).after labelling = r ∧
        r.append ⟨"tags", .list, .str "c"⟩ =
          .ok (r.set "tags" (.list [.str "a", .str "b", .str "c"])) ∧
        r.append ⟨"size", .float, .int 4⟩ = .error (.notSequence "size") := by
  have hdeclared : (ofDeclared [⟨"name", .str, .str "thing"⟩]).Fits labelKinds := by decide
  have hchanges : ∀ c ∈ labelling, c.Obeys labelKinds := by decide
  have happend := (typed_of_changes hdeclared hchanges).2 rfl
  refine ⟨hdeclared, hchanges, _, rfl, ?_, ?_⟩
  · obtain ⟨items, hitems, h⟩ := (happend ⟨"tags", .list, .str "c"⟩
      (.list [.str "a", .str "b"]) rfl rfl rfl).1 rfl
    cases hitems
    exact h
  · exact (happend ⟨"size", .float, .int 4⟩ (.int 3) rfl rfl rfl).2 nofun nofun

end Record

end TypeSketch
