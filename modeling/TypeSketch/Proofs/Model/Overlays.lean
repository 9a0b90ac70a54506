import TypeSketch.Input.Standard
import TypeSketch.Model.Parse
import TypeSketch.Proofs.Record.Laying
import TypeSketch.Proofs.Shape.Building

/-!
# Models — overlays

The readers at hand give open shapes whose keys are distinct (`InputReader.isOpen_of_makes_read`),
so that the overlays of a model are laid over what was read as entries over a record
(`Definition.outcome_parse`).  They only add: fields stay where they were, lists grow at their ends,
single values stay, and new fields come last (`Definition.overlays_add`).

Most of the module is about the readers: a struct, an enum and a shape of a sample are open, with
one value under a key, and the comments that are put onto a sample change the shapes inside it and
not its keys (`keys_edit`, `CommentedJson.keys_annotate`). The rest is `Record.append_all`, read for
shapes (`Overlaid.of_laid`).
-/

namespace TypeSketch

/-! ### What the readers give -/

namespace Record

/-- Changing the value under a key keeps the keys, and keeps the record open. -/
theorem keys_modifyAt {σ : Type} (key : String) (f : Value → StateM σ Value) (r : Record Value)
    (state : σ) :
    (((r.modifyAt key f).run state).1.keys = r.keys) ∧
      ((r.modifyAt key f).run state).1.frozen = r.frozen := by
  unfold modifyAt
  cases hget : r.get? key with
  | none => exact ⟨rfl, rfl⟩
  | some v =>
    have hkey : key ∈ r.keys := get?_isSome_iff.mp (by rw [hget]; rfl)
    have hset : ∀ w, (r.set key w).keys = r.keys := fun w => by rw [keys_set, if_pos hkey]
    exact ⟨hset _, frozen_set ..⟩

end Record

namespace Shape

/-- An enum is open, and its keys are distinct. -/
theorem isOpen_enum (name : String) (variants : List Shape) :
    (enum name variants).frozen = false ∧ (enum name variants).keys.Nodup :=
  ⟨(Record.frozen_set ..).trans (Record.frozen_set ..),
    Record.nodup_keys_set (proper_ofMark name _).keys_nodup ..⟩

/-- A walk that changes shapes keeps the keys of the struct that it starts from. -/
theorem keys_edit {σ : Type} (visit : Nat → Shape → StateM σ Shape) {s : Shape}
    (hstruct : s.flag Trait.struct = true) (state : σ) :
    ((s.edit visit).run state).1.keys = s.keys ∧
      ((s.edit visit).run state).1.frozen = s.frozen := by
  rw [edit, editWithin, if_pos hstruct]
  split
  · exact ⟨rfl, rfl⟩
  · exact Record.keys_modifyAt ..

/-- A numbered walk that changes shapes keeps the keys of the struct that it starts from. -/
theorem keys_editNumbered {σ : Type}
    (visit : (level nth : Nat) → (name : String) → Shape → σ → Shape × σ × Option Error)
    {s : Shape} (hstruct : s.flag Trait.struct = true) (state : σ) :
    (s.editNumbered visit state).1.keys = s.keys ∧
      (s.editNumbered visit state).1.frozen = s.frozen :=
  keys_edit _ hstruct _

end Shape

namespace CommentedJson

variable {s s' : Shape}

/-- Comments keep the keys of a struct. -/
theorem keys_annotate {comments : Comments} (hstruct : s.flag Trait.struct = true)
    (h : annotate comments s = .ok s') : s'.keys = s.keys ∧ s'.frozen = s.frozen := by
  simp only [annotate] at h
  split at h
  · next t _ heq =>
    cases h
    obtain ⟨visit, hvisit⟩ : ∃ visit, s.editNumbered visit () = (s', (), none) := ⟨_, heq⟩
    have hkeys := Shape.keys_editNumbered visit hstruct ()
    rw [hvisit] at hkeys
    exact hkeys
  · cases h

/-- The shape of a sample is open, and its keys are distinct. -/
theorem isOpen_of_makes_ofSample {v : Json} {path : String}
    (h : (Shape.ofSample v path).Makes s) : s.frozen = false ∧ s.keys.Nodup := by
  obtain ⟨t, ht, h⟩ := Draft.makes_bind h
  have hkeys : t.copy.keys.Nodup := (Shape.proper_of_makes_ofJson ht).keys_nodup
  rw [Draft.makes_pure h]
  exact ⟨(Record.frozen_set ..).trans (Record.frozen_set ..),
    Record.nodup_keys_set (Record.nodup_keys_set hkeys ..) ..⟩

/-- A sample is read as an open shape with distinct keys. -/
theorem isOpen_of_makes_read {model : String} {sample : Sample}
    (h : (read model sample).Makes (.shape s)) : s.frozen = false ∧ s.keys.Nodup := by
  cases hparse : Json.parse (strip sample.text) with
  | error flaw =>
    rw [read, hparse] at h
    obtain ⟨_, h⟩ := h
    cases h
  | ok v =>
    rw [read, hparse] at h
    obtain ⟨t, ht, h⟩ := Draft.makes_bind h
    obtain ⟨hopen, hkeys⟩ := isOpen_of_makes_ofSample ht
    split at h
    · next hnamed =>
      -- A struct takes the name of the model, which is one of its keys, and then comments.
      have hreplace : t.replace (Trait.name.entry (.str model)) =
          .ok (t.adding (Trait.name.entry (.str model))) := by
        rw [Shape.replace, Record.replace_of_open hopen rfl]
        rfl
      have hflag : (t.adding (Trait.name.entry (.str model))).flag Trait.struct = true := by
        have hget := Record.get?_set_of_ne (show Trait.struct.key ≠ Trait.name.key by decide)
          t.toRecord (Trait.name.entry (.str model)).stored
        rw [Record.flag, Record.field?, Shape.adding]
        exact hget ▸ (Bool.and_eq_true_iff.mp hnamed).1
      obtain ⟨named, hmade, h⟩ := Draft.makes_bind h
      obtain rfl : _ = named := Except.ok.inj (hreplace ▸ Draft.makes_ofExcept hmade)
      obtain ⟨noted, hnoted, h⟩ := Draft.makes_bind h
      obtain rfl : s = noted := Parsed.shape.inj (Draft.makes_pure h)
      obtain ⟨hkeys', hopen'⟩ := keys_annotate hflag (Draft.makes_ofExcept hnoted)
      rw [hkeys', hopen']
      exact ⟨(Record.frozen_set ..).trans hopen, Record.nodup_keys_set hkeys ..⟩
    · obtain rfl : s = t := Parsed.shape.inj (Draft.makes_pure h)
      exact ⟨hopen, hkeys⟩

end CommentedJson

/-- What a reader at hand gives is an open shape with distinct keys. -/
theorem InputReader.isOpen_of_makes_read {reader : InputReader} (hreader : reader ∈ standard)
    {model : String} {input : Input} {registry : Registry} {s : Shape}
    (h : (reader.read model input registry).Makes (.shape s)) :
    s.frozen = false ∧ s.keys.Nodup := by
  simp only [standard, List.mem_cons, List.not_mem_nil, or_false] at hreader
  rcases hreader with rfl | rfl | rfl
  · simp only [CommentedJson.reader] at h
    cases input with
    | sample sample => exact CommentedJson.isOpen_of_makes_read h
    | _ => obtain ⟨_, h⟩ := h; cases h
  · simp only [FieldList.reader] at h
    cases input with
    | fields entries =>
      obtain ⟨t, ht, hs⟩ := Except.bind_eq_ok.mp (Draft.makes_ofExcept h)
      obtain ⟨fields, -, ht⟩ := Except.bind_eq_ok.mp ht
      cases ht
      cases hs
      exact Shape.isOpen_struct ..
    | _ => obtain ⟨_, h⟩ := h; cases h
  · simp only [VariantList.reader] at h
    cases input with
    | variants entries =>
      obtain ⟨t, ht, hs⟩ := Except.bind_eq_ok.mp (Draft.makes_ofExcept h)
      obtain ⟨variants, -, ht⟩ := Except.bind_eq_ok.mp ht
      cases ht
      cases hs
      exact Shape.isOpen_enum ..
    | _ => obtain ⟨_, h⟩ := h; cases h

/-! ### Reading a model -/

namespace Definition

variable {d : Definition} {registry : Registry} {reader : InputReader} {input : Input} {s : Shape}
  {supply supply' : Supply}

/-- The reader that is chosen is one of those at hand, and there is an input. -/
theorem mem_of_choose? {readers : List InputReader}
    (h : d.choose? readers = some (reader, input)) : reader ∈ readers ∧ d.inputs.isEmpty = false := by
  obtain ⟨found, hmem, hfound⟩ := List.exists_of_findSome?_eq_some h
  obtain ⟨reader', hreader, heq⟩ := Option.map_eq_some_iff.mp hfound
  cases heq
  refine ⟨List.mem_of_find?_eq_some hreader, ?_⟩
  rw [List.isEmpty_eq_false_iff]
  exact List.ne_nil_of_mem hmem

/-- Adding entries to a shape that was read is adding them to the shape. -/
theorem foldlM_append_shape (es : List Entry) (s : Shape) :
    es.foldlM (fun parsed e => parsed.append e) (Parsed.shape s) =
      (es.foldlM Record.append s.toRecord).map fun r => .shape ⟨r⟩ := by
  induction es generalizing s with
  | nil => rfl
  | cons e es ih =>
    rw [List.foldlM_cons, List.foldlM_cons]
    have hstep : (Parsed.shape s).append e = (s.toRecord.append e).map fun r => .shape ⟨r⟩ := by
      rw [Parsed.append, Shape.append]
      cases s.toRecord.append e <;> rfl
    rw [hstep]
    cases s.toRecord.append e with
    | error err => rfl
    | ok r => exact ih ⟨r⟩

/-- A model whose input is read as a shape comes out as the shape with the overlays added. -/
theorem outcome_parse {readers : List InputReader} (hchoose : d.choose? readers = some (reader, input))
    (hread : (reader.read d.name input registry).outcome supply = (.ok (.shape s), supply')) :
    (d.parse readers registry).outcome supply =
      (((d.overlays registry).foldlM Record.append s.toRecord).map fun r => .shape ⟨r⟩, supply') := by
  have hinferred : ∀ r : Except Error (Record Value),
      (r.map fun r => Parsed.shape ⟨r⟩) >>= inferred = r.map fun r => .shape ⟨r⟩ := fun r => by
    cases r <;> rfl
  rw [parse, (mem_of_choose? hchoose).2, hchoose]
  simp only [Bool.false_eq_true, if_false]
  rw [Draft.outcome_bind_ok hread, foldlM_append_shape, hinferred]
  rfl

/-! ### Overlays -/

/-- What has become of a shape when overlays have been added. -/
structure Overlaid (s : Shape) (overlays : List Entry) (r : Shape) : Prop where
  /-- The fields stay in order, and each other key comes behind them, in the order of the first
  overlays. -/
  keys : r.keys = s.keys ++ ((overlays.map Entry.key).filter (· ∉ s.keys)).eraseDups
  /-- No key comes twice. -/
  once : r.keys.Nodup
  /-- A single value stays. -/
  single : ∀ {key v}, s.get? key = some v → v.Single → r.get? key = some v
  /-- A list is followed by the items of the overlays under its key. -/
  list : ∀ {key items}, s.get? key = some (.list items) →
    r.get? key = some (.list (items ++ Record.brought (Record.under key overlays)))
  /-- A new key holds its first overlay, followed by the items of the later ones if it is a list. -/
  added : ∀ {key e later}, s.get? key = none → Record.under key overlays = e :: later →
    r.get? key = some (e.stored.extended (Record.brought later))

/-- A record that entries are laid over is a shape with the overlays added. -/
theorem Overlaid.of_laid {overlays : List Entry} {r : Record Value}
    (h : s.toRecord.Laid overlays r) : Overlaid s overlays ⟨r⟩ where
  keys := h.keys
  once := h.once
  single hget hsingle := by
    rw [h.get?, hget, Record.laid?, hsingle.extended]
  list hget := by
    rw [h.get?, hget, Record.laid?, Value.extended_list]
  added hget hunder := by
    rw [h.get?, hget, hunder, Record.laid?]

/-- The overlays of a model whose input is read as a shape: if each is of its kind and meets a list
or nothing, they only add to the shape, and else the first that is not or does not is reported. -/
theorem overlays_add (hchoose : d.choose? InputReader.standard = some (reader, input))
    (hread : (reader.read d.name input registry).outcome supply = (.ok (.shape s), supply')) :
    ((∃ parsed, ((d.parse InputReader.standard registry).outcome supply).1 = .ok parsed) ↔
      s.toRecord.Takes (d.overlays registry)) ∧
    (∀ parsed, ((d.parse InputReader.standard registry).outcome supply).1 = .ok parsed →
      ∃ r, parsed = .shape r ∧ Overlaid s (d.overlays registry) r) ∧
    ∀ err, ((d.parse InputReader.standard registry).outcome supply).1 = .error err →
      s.toRecord.Stuck (d.overlays registry) err := by
  rw [outcome_parse hchoose hread]
  obtain ⟨hopen, hkeys⟩ := InputReader.isOpen_of_makes_read (mem_of_choose? hchoose).1
    ⟨supply, congrArg Prod.fst hread⟩
  rcases Record.append_all hopen hkeys (d.overlays registry) with ⟨htakes, r, hrun, hlaid⟩ |
    ⟨err, hstuck, hrun⟩
  · rw [hrun]
    refine ⟨⟨fun _ => htakes, fun _ => ⟨_, rfl⟩⟩, ?_, nofun⟩
    rintro _ ⟨⟩
    exact ⟨⟨r⟩, rfl, .of_laid hlaid⟩
  · rw [hrun]
    refine ⟨⟨nofun, fun htakes => absurd htakes hstuck.not_takes⟩, nofun, ?_⟩
    rintro _ ⟨⟩
    exact hstuck

/-- An order with a price, some marks for what is generated, and a vendor. -/
def priced : Definition where
  name := "order_fill"
  traits := [⟨"derive", .arr [.str "Eq"]⟩, ⟨"vendor", .str "acme"⟩, ⟨"derive", .str "Ord"⟩]
  fields? := some [[("name", .str "price"), ("type", .str "f64")]]

/-- The struct of its field, before the overlays. -/
def pricedFields : Shape := .struct "order_fill" [.field "price" Shape.f64.copy]

/-- The marks go into one list, and the vendor stands behind them. -/
theorem overlays_add_priced :
    ∃ r, ((priced.parse InputReader.standard .standard).outcome {}).1 = .ok (.shape r) ∧
      Overlaid pricedFields (priced.overlays .standard) r := by
  have hchoose : priced.choose? InputReader.standard = some (FieldList.reader,
      .fields [[("name", .str "price"), ("type", .str "f64")]]) := rfl
  have hread : (FieldList.reader.read priced.name (.fields [[("name", .str "price"),
      ("type", .str "f64")]]) .standard).outcome {} = (.ok (.shape pricedFields), {}) := rfl
  have hparses : ((priced.parse InputReader.standard .standard).outcome {}).1.toBool = true := by
    decide +kernel
  cases hparse : ((priced.parse InputReader.standard .standard).outcome {}).1 with
  | error err => simp [hparse, Except.toBool] at hparses
  | ok parsed =>
    obtain ⟨r, rfl, hr⟩ := (overlays_add hchoose hread).2.1 parsed hparse
    exact ⟨r, rfl, hr⟩

end Definition

end TypeSketch
