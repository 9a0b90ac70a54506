import TypeSketch.Input.FieldList
import TypeSketch.Proofs.Record.Laying
import TypeSketch.Proofs.Shape.Building
import TypeSketch.Proofs.Shape.Registry
import TypeSketch.Proofs.Shape.Sampled

/-!
# Field lists — what is read

An entry of a list is read just when it has a name and a reference, every other key of it is a
trait, and each trait fits the shape that the reference means (`FieldList.Reads`): the member is a
value of the kind of the trait, and a value that the shape has already is a list.  What comes of the
members is told by induction on them: keys of an entry are distinct, so a member that has been added
does not count for those behind it (`Record.admits_set`).  `read_fields` puts this together for a
list: it is read just when every entry is, as an open struct with one field for each entry, whose
shape has gained the traits of the entry and nothing else (`FieldList.Gains`).
-/

namespace TypeSketch

namespace Record

/-! ### An entry that fits -/

/-- An entry is of its kind, and meets a list or nothing under its key. -/
def Admits (r : Record Value) (e : Entry) : Prop :=
  e.kind.admits e.value = true ∧ ∀ v, r.get? e.key = some v → ¬ v.Single

variable {r r' : Record Value} {e : Entry} {key : String} {v : Value}

/-- What is written under another key does not count. -/
theorem admits_set (hkey : e.key ≠ key) : (r.set key v).Admits e ↔ r.Admits e := by
  rw [Admits, Admits, get?_set_of_ne hkey]

/-- An entry that fits is written: behind the items of a list, or as it is. -/
theorem Admits.append (h : r.Admits e) (hopen : r.frozen = false) :
    ∃ v, r.append e = .ok (r.set e.key v) ∧
      (∀ items, r.get? e.key = some (.list items) → v = .list (items ++ e.value.elements)) ∧
      (r.get? e.key = none → v = e.stored) := by
  cases hget : r.get? e.key with
  | none => exact ⟨_, append_of_absent hopen h.1 hget, nofun, fun _ => rfl⟩
  | some held =>
    rcases held.list_or_single with ⟨items, rfl⟩ | hsingle
    · refine ⟨_, append_of_list hopen h.1 hget, ?_, nofun⟩
      rintro _ ⟨⟩
      rfl
    · exact absurd hsingle (h.2 held hget)

/-- An entry that does not fit is refused. -/
theorem append_of_not_admits (h : ¬ r.Admits e) : ∃ err, r.append e = .error err := by
  cases hrun : r.append e with
  | error err => exact ⟨err, rfl⟩
  | ok r' =>
    obtain ⟨_, hcheck, -⟩ := Except.bind_eq_ok.mp hrun
    obtain ⟨hopen, hkind⟩ := check_eq_ok_iff.mp hcheck
    refine absurd ⟨hkind, fun v hget hsingle => ?_⟩ h
    rw [append_of_single hopen hkind hget hsingle] at hrun
    cases hrun

end Record

namespace FieldList

variable {registry : Registry} {name reference : String} {entry members : Members} {s t : Shape}

/-! ### The traits of an entry -/

/-- The members of an entry that are not its name or its reference. -/
def marks (entry : Members) : Members := entry.filter fun m => !(m.1 == "name" || m.1 == "type")

/-- A member is a trait, and fits a shape. -/
def Marks (registry : Registry) (s : Shape) (m : String × Json) : Prop :=
  ∃ f, registry.trait? m.1 = some f ∧ s.toRecord.Admits (f.ofJson m.2)

theorem marks_iff_admits {m : String × Json} {f : Field} (hf : registry.trait? m.1 = some f) :
    Marks registry s m ↔ s.toRecord.Admits (f.ofJson m.2) := by
  rw [Marks, hf]
  exact ⟨fun ⟨g, hg, h⟩ => Option.some.inj hg ▸ h, fun h => ⟨f, rfl, h⟩⟩

/-- What has been written under one key does not count for a member with another. -/
theorem marks_set (hkeys : ∀ {key f}, registry.trait? key = some f → f.key = key)
    {m : String × Json} {key : String} (hkey : m.1 ≠ key) (v : Value) :
    Marks registry ⟨s.toRecord.set key v⟩ m ↔ Marks registry s m :=
  exists_congr fun _ => and_congr_right fun hf => Record.admits_set ((hkeys hf).trans_ne hkey)

/-- What a shape has gained when traits have been added to it. -/
structure Gains (registry : Registry) (marks : Members) (s t : Shape) : Prop where
  /-- The shape is open still. -/
  isOpen : t.frozen = false
  /-- What the shape had stays in order, and the new traits come behind it in theirs. -/
  keys : t.keys = s.keys ++ (marks.map Prod.fst).filter (· ∉ s.keys)
  /-- A list goes on with the items of the member. -/
  list : ∀ {key v f items}, (key, v) ∈ marks → registry.trait? key = some f →
    s.get? key = some (.list items) →
      t.get? key = some (.list (items ++ (f.ofJson v).value.elements))
  /-- A trait that the shape did not have is that of the member. -/
  added : ∀ {key v f}, (key, v) ∈ marks → registry.trait? key = some f →
    s.get? key = none → t.get? key = some (f.ofJson v).stored
  /-- Nothing else changes. -/
  kept : ∀ {key}, key ∉ marks.map Prod.fst → t.get? key = s.get? key

/-- Without traits a shape gains nothing. -/
theorem Gains.nil (hopen : s.frozen = false) : Gains registry [] s s where
  isOpen := hopen
  keys := (List.append_nil _).symm
  list := nofun
  added := nofun
  kept _ := rfl

theorem marks_cons (m : String × Json) (members : Members) :
    marks (m :: members) = if m.1 == "name" || m.1 == "type" then marks members
      else m :: marks members := by
  rw [marks, List.filter_cons]
  cases m.1 == "name" || m.1 == "type" <;> rfl

/-- Traits are added one after the other. -/
theorem addTraits_cons (m : String × Json) (members : Members) (s : Shape) :
    addTraits registry name (m :: members) s =
      if m.1 == "name" || m.1 == "type" then addTraits registry name members s
      else match registry.trait? m.1 with
        | none => .error
          (.invalidArgument ("unknown trait `" ++ m.1 ++ "` on field `" ++ name ++ "`"))
        | some f => s.append (f.ofJson m.2) >>= addTraits registry name members := rfl

/-- A trait that fits is added first, and the others are added to what comes of it. -/
theorem Gains.cons {m : String × Json} {f : Field} {v : Value} (hkey : f.key = m.1)
    (hf : registry.trait? m.1 = some f) (hm : m.1 ∉ members.map Prod.fst)
    (hlist : ∀ items, s.get? f.key = some (.list items) →
      v = .list (items ++ (f.ofJson m.2).value.elements))
    (hadded : s.get? f.key = none → v = (f.ofJson m.2).stored)
    (h : Gains registry members ⟨s.toRecord.set f.key v⟩ t) :
    Gains registry (m :: members) s t := by
  rw [hkey] at h hlist hadded
  -- the trait holds what has been written, since no other member has its key
  have hself : t.get? m.1 = some v := (h.kept hm).trans (Record.get?_set_self ..)
  have hother : ∀ {key w}, (key, w) ∈ members →
      (s.toRecord.set m.1 v).get? key = s.get? key := by
    intro key w hmem
    refine Record.get?_set_of_ne ?_ ..
    rintro rfl
    exact hm (List.mem_map.mpr ⟨_, hmem, rfl⟩)
  refine ⟨h.isOpen, ?_, ?_, ?_, ?_⟩
  · rw [h.keys, Record.keys_set, List.map_cons]
    by_cases hold : m.1 ∈ s.keys
    · rw [if_pos hold, List.filter_cons_of_neg (by simpa using hold)]
    · have hrest : (members.map Prod.fst).filter (· ∉ s.keys ++ [m.1]) =
          (members.map Prod.fst).filter (· ∉ s.keys) := by
        refine List.filter_congr fun key hmem => ?_
        have hne : key ≠ m.1 := fun heq => hm (heq ▸ hmem)
        simp [hne]
      rw [if_neg hold, List.filter_cons_of_pos (by simpa using hold), List.append_assoc, hrest]
      rfl
  · intro key w g items hmem hg hget
    rcases List.mem_cons.mp hmem with rfl | hmem
    · obtain rfl : g = f := Option.some.inj (hg.symm.trans hf)
      rw [hself, hlist items hget]
    · exact h.list hmem hg ((hother hmem).trans hget)
  · intro key w g hmem hg hget
    rcases List.mem_cons.mp hmem with rfl | hmem
    · obtain rfl : g = f := Option.some.inj (hg.symm.trans hf)
      rw [hself, hadded hget]
    · exact h.added hmem hg ((hother hmem).trans hget)
  · intro key hkey
    rw [List.map_cons, List.mem_cons, not_or] at hkey
    exact (h.kept hkey.2).trans (Record.get?_set_of_ne hkey.1 ..)

/-- What comes of the traits of an entry: they are added if each of them fits the shape, and else
something fails. -/
theorem addTraits_cases (name : String)
    (hkeys : ∀ {key f}, registry.trait? key = some f → f.key = key)
    (hopen : s.frozen = false) (hdistinct : (members.map Prod.fst).Nodup) :
    ((∀ m ∈ marks members, Marks registry s m) ∧
        ∃ t, addTraits registry name members s = .ok t ∧ Gains registry (marks members) s t) ∨
      (¬ ∀ m ∈ marks members, Marks registry s m) ∧
        ∃ err, addTraits registry name members s = .error err := by
  induction members generalizing s with
  | nil => exact .inl ⟨nofun, s, rfl, .nil hopen⟩
  | cons m members ih =>
    obtain ⟨hm, hdistinct⟩ := List.nodup_cons.mp hdistinct
    rw [addTraits_cons, marks_cons]
    split
    · exact ih hopen hdistinct
    rw [List.forall_mem_cons]
    cases hf : registry.trait? m.1 with
    | none =>
      refine .inr ⟨fun h => ?_, _, rfl⟩
      obtain ⟨f, hf', -⟩ := h.1
      rw [hf] at hf'
      cases hf'
    | some f =>
      dsimp only
      rw [marks_iff_admits hf]
      by_cases hadmits : s.toRecord.Admits (f.ofJson m.2)
      · obtain ⟨v, hrun, hlist, hadded⟩ := hadmits.append hopen
        have hfresh : m.1 ∉ (marks members).map Prod.fst := fun hmem =>
          hm ((List.filter_sublist.map _).subset hmem)
        -- The other members are for other keys, so this one does not matter to them.
        have hrest : (∀ m' ∈ marks members, Marks registry ⟨s.toRecord.set f.key v⟩ m') ↔
            ∀ m' ∈ marks members, Marks registry s m' := by
          refine forall₂_congr fun m' hmem => marks_set hkeys (fun heq => hfresh ?_) v
          exact (heq.trans (hkeys hf)) ▸ List.mem_map_of_mem (f := Prod.fst) hmem
        rw [Shape.append, show s.toRecord.append (f.ofJson m.2) = _ from hrun, ← hrest]
        rcases ih (s := ⟨s.toRecord.set f.key v⟩) ((Record.frozen_set ..).trans hopen) hdistinct
          with ⟨hall, t, hrun, hgains⟩ | ⟨hnot, err, hrun⟩
        · exact .inl ⟨⟨hadmits, hall⟩, t, hrun, hgains.cons (hkeys hf) hf hfresh hlist hadded⟩
        · exact .inr ⟨fun h => hnot h.2, err, hrun⟩
      · obtain ⟨err, hrun⟩ := Record.append_of_not_admits hadmits
        rw [Shape.append, hrun]
        exact .inr ⟨fun h => hadmits h.1, err, rfl⟩

/-- The traits of an entry are added just if each of them fits the shape. -/
theorem addTraits_isOk_iff (hkeys : ∀ {key f}, registry.trait? key = some f → f.key = key)
    (hopen : s.frozen = false) (hdistinct : (members.map Prod.fst).Nodup) :
    (∃ t, addTraits registry name members s = .ok t) ↔ ∀ m ∈ marks members, Marks registry s m := by
  rcases addTraits_cases name hkeys hopen hdistinct with ⟨hall, t, hrun, -⟩ | ⟨hnot, err, hrun⟩
  · exact ⟨fun _ => hall, fun _ => ⟨t, hrun⟩⟩
  · rw [hrun]
    exact ⟨nofun, fun hall => absurd hall hnot⟩

/-- When the traits of an entry have been added, the shape has gained them. -/
theorem gains_of_addTraits (hkeys : ∀ {key f}, registry.trait? key = some f → f.key = key)
    (hopen : s.frozen = false) (hdistinct : (members.map Prod.fst).Nodup)
    (h : addTraits registry name members s = .ok t) : Gains registry (marks members) s t := by
  rcases addTraits_cases name hkeys hopen hdistinct with ⟨-, t', hrun, hgains⟩ | ⟨-, err, hrun⟩
  · obtain rfl : t' = t := Except.ok.inj (hrun.symm.trans h)
    exact hgains
  · rw [hrun] at h
    cases h

/-! ### Entries -/

/-- What an entry must have is a text under the key. -/
theorem required_eq_ok_iff {key text : String} :
    required entry key = .ok text ↔ entry.lookup key = some (.str text) := by
  rw [required]
  cases entry.lookup key with
  | none => exact ⟨nofun, nofun⟩
  | some v =>
    cases v with
    | str s => exact ⟨fun h => by cases h; rfl, fun h => by cases h; rfl⟩
    | _ => exact ⟨nofun, nofun⟩

/-- What a reference means is open. -/
theorem frozen_resolve (registry : Registry) (name reference : String) :
    (resolve registry name reference).frozen = false := by
  rw [resolve]
  split
  · rfl
  · exact Record.frozen_set ..

/-- An entry that can be read: it has a name and a reference, and each other member is a trait that
fits what the reference means. -/
structure Reads (registry : Registry) (entry : Members) (name reference : String) : Prop where
  /-- The name is a text. -/
  hasName : entry.lookup "name" = some (.str name)
  /-- So is the reference. -/
  hasReference : entry.lookup "type" = some (.str reference)
  /-- The other members are traits. -/
  hasMarks : ∀ m ∈ marks entry, Marks registry (resolve registry name reference) m

/-- The field of an entry: it has the name of the entry, and its shape is what the reference means,
with the traits added. -/
def Gives (registry : Registry) (entry : Members) (f : Shape) : Prop :=
  ∃ name reference t, entry.lookup "name" = some (.str name) ∧
    entry.lookup "type" = some (.str reference) ∧ f.fieldName? = some name ∧
    f.fieldType? = some t ∧ Gains registry (marks entry) (resolve registry name reference) t

/-- An entry is read if it has a name and a reference, and its traits can be added to what that
means. -/
theorem field_eq_ok_iff {f : Shape} :
    field registry entry = .ok f ↔ ∃ name reference t, entry.lookup "name" = some (.str name) ∧
      entry.lookup "type" = some (.str reference) ∧
      addTraits registry name entry (resolve registry name reference) = .ok t ∧
      Shape.field name t = f := by
  simp only [field, Except.bind_eq_ok, required_eq_ok_iff, pure, Except.pure, Except.ok.injEq]
  constructor
  · rintro ⟨name, hname, reference, href, t, ht, rfl⟩
    exact ⟨name, reference, t, hname, href, ht, rfl⟩
  · rintro ⟨name, reference, t, hname, href, ht, rfl⟩
    exact ⟨name, hname, reference, href, t, ht, rfl⟩

/-- An entry has a field just if it can be read. -/
theorem field_isOk_iff (hkeys : ∀ {key f}, registry.trait? key = some f → f.key = key)
    (hdistinct : (entry.map Prod.fst).Nodup) :
    (∃ f, field registry entry = .ok f) ↔
      ∃ name reference, Reads registry entry name reference := by
  simp only [field_eq_ok_iff]
  constructor
  · rintro ⟨_, name, reference, t, hname, href, ht, -⟩
    exact ⟨name, reference, hname, href,
      (addTraits_isOk_iff hkeys (frozen_resolve ..) hdistinct).mp ⟨t, ht⟩⟩
  · rintro ⟨name, reference, hreads⟩
    obtain ⟨t, ht⟩ := (addTraits_isOk_iff hkeys (frozen_resolve ..) hdistinct).mpr hreads.hasMarks
    exact ⟨_, name, reference, t, hreads.hasName, hreads.hasReference, ht, rfl⟩

/-- An entry that has a field gives what `Gives` says. -/
theorem gives_of_field (hkeys : ∀ {key f}, registry.trait? key = some f → f.key = key)
    (hdistinct : (entry.map Prod.fst).Nodup) {f : Shape} (h : field registry entry = .ok f) :
    Gives registry entry f := by
  obtain ⟨name, reference, t, hname, href, ht, rfl⟩ := field_eq_ok_iff.mp h
  exact ⟨name, reference, t, hname, href, Shape.fieldName?_field .., Shape.fieldType?_field ..,
    gains_of_addTraits hkeys (frozen_resolve ..) hdistinct ht⟩

/-! ### Lists -/

variable {entries : List Members}

/-- A list is read with any numbers as it is without. -/
theorem outcome_reader (model : String) (entries : List Members) (registry : Registry)
    (supply : Supply) :
    ((reader.read model (.fields entries) registry).outcome supply).1 =
      (read model registry entries).map .shape := by
  change (do return Parsed.shape (← read model registry entries)) = _
  cases read model registry entries <;> rfl

/-- A list is read just when each entry of it can be, as an open struct of the name of the model.
Its fields are those of the entries, in order. -/
theorem read_fields (model : String)
    (hkeys : ∀ {key f}, registry.trait? key = some f → f.key = key)
    (hdistinct : ∀ entry ∈ entries, (entry.map Prod.fst).Nodup) (supply : Supply) :
    ((∃ parsed, ((reader.read model (.fields entries) registry).outcome supply).1 = .ok parsed) ↔
      ∀ entry ∈ entries, ∃ name reference, Reads registry entry name reference) ∧
    ∀ parsed, ((reader.read model (.fields entries) registry).outcome supply).1 = .ok parsed →
      ∃ s, parsed = .shape s ∧ s.frozen = false ∧ s.name = model ∧ s.flag Trait.struct = true ∧
        List.Forall₂ (Gives registry) entries s.fields := by
  rw [outcome_reader]
  constructor
  · rw [← forall₂_congr fun entry hentry => field_isOk_iff hkeys (hdistinct entry hentry),
      ← Except.mapM_isOk_iff, read]
    cases entries.mapM (field registry) with
    | error err => exact ⟨nofun, nofun⟩
    | ok fields => exact ⟨fun _ => ⟨fields, rfl⟩, fun _ => ⟨_, rfl⟩⟩
  · intro parsed hparsed
    rw [read] at hparsed
    cases hfields : entries.mapM (field registry) with
    | error err =>
      rw [hfields] at hparsed
      cases hparsed
    | ok fields =>
      rw [hfields] at hparsed
      cases hparsed
      refine ⟨_, rfl, (Shape.isOpen_struct model fields).1, rfl, rfl, ?_⟩
      rw [Shape.fields_struct]
      refine forall₂_imp_of_mem (Except.mapM_eq_ok_iff.mp hfields) fun entry hentry f _ hf => ?_
      exact gives_of_field hkeys (hdistinct entry hentry) hf

/-- A price that may be absent, and marks for what is generated. -/
def price : Members :=
  [("name", .str "price"), ("nullable", .bool true), ("type", .str "f64"),
    ("derive", .arr [.str "Eq", .str "Ord"])]

/-- The list is read, and the shape of the field has gained the marks. -/
theorem read_fields_price :
    ∃ s f t, ((reader.read "order" (.fields [price]) .standard).outcome {}).1 = .ok (.shape s) ∧
      s.fields = [f] ∧ f.fieldName? = some "price" ∧ f.fieldType? = some t ∧
      t.get? "nullable" = some (.bool true) ∧
      t.get? "derive" = some (.list [.str "Eq", .str "Ord"]) := by
  have hdistinct : ∀ entry ∈ [price], (entry.map Prod.fst).Nodup := by decide
  have hadmits : ∀ {f : Field} {v : Json}, f.kind.admits (f.ofJson v).value = true →
      (resolve .standard "price" "f64").get? f.key = none →
      (resolve .standard "price" "f64").toRecord.Admits (f.ofJson v) := by
    intro f v hkind hget
    refine ⟨hkind, fun w hw => ?_⟩
    rw [show (resolve .standard "price" "f64").get? (f.ofJson v).key = none from hget] at hw
    cases hw
  have hreads : Reads .standard price "price" "f64" := by
    refine ⟨rfl, rfl, ?_⟩
    rintro m (_ | ⟨_, _ | ⟨_, hm⟩⟩)
    · exact ⟨Trait.nullable, rfl, hadmits rfl rfl⟩
    · exact ⟨Trait.derive, rfl, hadmits rfl rfl⟩
    · cases hm
  obtain ⟨hok, hread⟩ := read_fields "order" Registry.sound_standard.key_of_trait? hdistinct {}
  obtain ⟨parsed, hparsed⟩ := hok.mpr (List.forall_mem_singleton.mpr ⟨_, _, hreads⟩)
  obtain ⟨s, rfl, -, -, -, hfields⟩ := hread parsed hparsed
  obtain ⟨f, fs, ⟨name, reference, t, hname, href, hfield, htype, hgains⟩, hrest, heq⟩ :=
    List.forall₂_cons_left_iff.mp hfields
  cases hrest
  cases hname
  cases href
  refine ⟨s, f, t, hparsed, heq, hfield, htype, ?_, ?_⟩
  · exact hgains.added (f := Trait.nullable) (List.mem_cons_self) rfl rfl
  · exact hgains.added (f := Trait.derive) (List.mem_cons_of_mem _ List.mem_cons_self) rfl rfl

end FieldList

end TypeSketch
