import TypeSketch.CommandLine.Run
import TypeSketch.Proofs.Input.Annotating
import TypeSketch.Proofs.Model.Overlays
import TypeSketch.Proofs.Record.Viewing
import TypeSketch.Proofs.Shape.Registry

/-!
# Commands — overlays in what is shown of models

The schema command shows the shape of each model as JSON.  An overlay whose name is no trait takes
any value, and nothing stands under its name in what the readers at hand give
(`InputReader.shape_of_makes_read`), so it is shown as the record that holds it shows it
(`schemaAll_shows`): unchanged but for large whole numbers (`Json.shown`).

The proof has three parts. The shapes that readers give have no keys but those of traits
(`keys_struct_subset`, `Sampled.get?_eq_none`). Overlays of one name of no trait are therefore laid
over nothing (`under_overlays`, `laid_of_makes_parse`), and are taken whatever their values are
(`takes_any`). And a record shows what it holds (`Record.get?_recordToJson`), an array of values
item by item.
-/

namespace TypeSketch

/-! ### Names of no trait -/

theorem Registry.trait?_standard_eq_none_iff {key : String} :
    Registry.standard.trait? key = none ↔ key ∉ Trait.all.map Field.key := by
  rw [trait?, Assoc.lookup_eq_none_iff, standard, List.map_map]
  rfl

namespace Shape

variable {s t : Shape} {key : String} {v : Json} {notes : List (List String)}

theorem get?_eq_none (hkey : Registry.standard.trait? key = none)
    (hkeys : s.keys ⊆ Trait.all.map Field.key) : s.get? key = none := by
  rw [← Option.not_isSome_iff_eq_none, Record.get?_isSome_iff]
  exact fun hmem => Registry.trait?_standard_eq_none_iff.mp hkey (hkeys hmem)

/-- A shape that reads as one whose keys are traits holds nothing under any other name. -/
theorem Reads.get?_eq_none (h : Reads s t) (hkey : Registry.standard.trait? key = none)
    (hkeys : t.keys ⊆ Trait.all.map Field.key) : s.get? key = none := by
  have hremarks : remarks ⊆ Trait.all.map Field.key := by decide
  have hremark : key ∉ remarks := fun hmem =>
    Registry.trait?_standard_eq_none_iff.mp hkey (hremarks hmem)
  rw [h key hremark, Shape.get?_eq_none hkey hkeys]

/-- The keys of a struct are traits. -/
theorem keys_struct_subset (name : String) (fields : List Shape) :
    (struct name fields).keys ⊆ Trait.all.map Field.key := by
  have hkeys : (struct name fields).keys = ["name", "kind", "struct", "fields", "data_type"] := rfl
  rw [hkeys]
  decide

theorem keys_enum_subset (name : String) (variants : List Shape) :
    (enum name variants).keys ⊆ Trait.all.map Field.key := by
  have hkeys : (enum name variants).keys = ["name", "kind", "enum", "variants"] := rfl
  rw [hkeys]
  decide

theorem keys_vector_subset (e : Shape) : (vector e).keys ⊆ Trait.all.map Field.key := by
  have hkeys : (vector e).keys = ["name", "kind", "vector", "generics"] := rfl
  rw [hkeys]
  decide

theorem keys_timestamp_subset (unit : String) :
    (timestamp unit).keys ⊆ Trait.all.map Field.key := by
  have hkeys : (timestamp unit).keys = i64.keys ++ ["ts_unit"] := rfl
  rw [hkeys]
  decide

/-- Nothing but traits is in a shape of a sample. -/
theorem Sampled.get?_eq_none (h : Sampled v notes s) (hkey : Registry.standard.trait? key = none) :
    s.get? key = none := by
  cases h with
  | atom hv hs =>
    cases hv with
    | timestamp => exact hs.get?_eq_none hkey (keys_timestamp_subset _)
    | _ => exact hs.get?_eq_none hkey (by decide)
  | empty hs | vector _ hs => exact hs.get?_eq_none hkey (keys_vector_subset _)
  | struct _ hs => exact hs.get?_eq_none hkey (keys_struct_subset ..)

end Shape

namespace InputReader

variable {model : String} {parsed : Parsed}

/-- A sample is read as a shape of the value that it holds. -/
theorem sampled_of_makes_read {sample : Sample}
    (h : (CommentedJson.read model sample).Makes parsed) :
    ∃ s v notes, parsed = .shape s ∧ Shape.Sampled v notes s := by
  cases hparse : Json.parse (CommentedJson.strip sample.text) with
  | error flaw =>
    rw [CommentedJson.read, hparse] at h
    obtain ⟨_, h⟩ := h
    cases h
  | ok v =>
    have hshape : ∃ s, parsed = .shape s := by
      rw [CommentedJson.read, hparse] at h
      obtain ⟨t, -, h⟩ := Draft.makes_bind h
      split at h
      · obtain ⟨named, -, h⟩ := Draft.makes_bind h
        obtain ⟨noted, -, h⟩ := Draft.makes_bind h
        exact ⟨noted, Draft.makes_pure h⟩
      · exact ⟨t, Draft.makes_pure h⟩
    obtain ⟨s, rfl⟩ := hshape
    exact ⟨s, v, _, rfl, CommentedJson.sampled_of_makes_read hparse h⟩

/-- What a reader at hand gives is a shape, and nothing but traits is in it. -/
theorem shape_of_makes_read {reader : InputReader} (hreader : reader ∈ standard) {input : Input}
    {registry : Registry} (h : (reader.read model input registry).Makes parsed) :
    ∃ s, parsed = .shape s ∧ ∀ key, Registry.standard.trait? key = none → s.get? key = none := by
  simp only [standard, List.mem_cons, List.not_mem_nil, or_false] at hreader
  rcases hreader with rfl | rfl | rfl
  · simp only [CommentedJson.reader] at h
    cases input with
    | sample sample =>
      obtain ⟨s, v, notes, rfl, hs⟩ := sampled_of_makes_read h
      exact ⟨s, rfl, fun key hkey => hs.get?_eq_none hkey⟩
    | _ => obtain ⟨_, h⟩ := h; cases h
  · simp only [FieldList.reader] at h
    cases input with
    | fields entries =>
      obtain ⟨t, ht, hs⟩ := Except.bind_eq_ok.mp (Draft.makes_ofExcept h)
      obtain ⟨fields, -, ht⟩ := Except.bind_eq_ok.mp ht
      cases ht
      cases hs
      exact ⟨_, rfl, fun key hkey => Shape.get?_eq_none hkey (Shape.keys_struct_subset ..)⟩
    | _ => obtain ⟨_, h⟩ := h; cases h
  · simp only [VariantList.reader] at h
    cases input with
    | variants entries =>
      obtain ⟨t, ht, hs⟩ := Except.bind_eq_ok.mp (Draft.makes_ofExcept h)
      obtain ⟨variants, -, ht⟩ := Except.bind_eq_ok.mp ht
      cases ht
      cases hs
      exact ⟨_, rfl, fun key hkey => Shape.get?_eq_none hkey (Shape.keys_enum_subset ..)⟩
    | _ => obtain ⟨_, h⟩ := h; cases h

end InputReader

/-! ### Overlays of no trait -/

namespace Definition

variable {d : Definition} {parsed : Parsed}

/-- The values of the overlays of a name. -/
def valuesOf (d : Definition) (name : String) : List Json :=
  (d.traits.filter (·.name == name)).map Overlay.value

/-- The overlays under a key are those of its name. -/
theorem under_overlays (d : Definition) (name : String) :
    Record.under name (d.overlays .standard) =
      ({ d with traits := d.traits.filter (·.name == name) } : Definition).overlays .standard := by
  have hkey : ∀ o : Overlay,
      ((Registry.standard.trait? o.name).getD (.any o.name)).key = o.name := fun o => by
    cases htrait : Registry.standard.trait? o.name with
    | none => rfl
    | some f => exact Registry.sound_standard.key_of_trait? htrait
  rw [Record.under, overlays, List.filter_map]
  refine congrArg (List.map _) (List.filter_congr fun o _ => ?_)
  exact congrArg (· == name) (hkey o)

/-- The overlays of a name of no trait are of any kind. -/
theorem under_overlays_of_none {name : String} (hname : Registry.standard.trait? name = none) :
    Record.under name (d.overlays .standard) = (d.valuesOf name).map (Field.any name).ofJson := by
  rw [under_overlays, overlays, valuesOf, List.map_map]
  refine List.map_congr_left fun o ho => ?_
  obtain rfl : o.name = name := by simpa using (List.mem_filter.mp ho).2
  rw [hname]
  rfl

/-- A model fails whatever is laid over it, or its input is read as an open shape without anything
but traits, and the overlays are appended to that. -/
theorem outcome_parse_cases (d : Definition) (supply : Supply) :
    (∀ traits, ∃ err, ((({ d with traits } : Definition).parse InputReader.standard
        .standard).outcome supply).1 = .error err) ∨
      ∃ s : Record Value, s.frozen = false ∧ s.keys.Nodup ∧
        (∀ key, Registry.standard.trait? key = none → s.get? key = none) ∧
        ∀ traits, ((({ d with traits } : Definition).parse InputReader.standard
          .standard).outcome supply).1 =
            ((({ d with traits } : Definition).overlays .standard).foldlM Record.append s).map
              fun r => .shape ⟨r⟩ := by
  -- The overlays matter neither to the choice of a reader nor to what it reads.
  cases hchoose : d.choose? InputReader.standard with
  | none =>
    refine .inl fun traits => ?_
    have hchoose' : ({ d with traits } : Definition).choose? InputReader.standard = none := hchoose
    rw [parse, hchoose']
    cases hinputs : ({ d with traits } : Definition).inputs.isEmpty <;> exact ⟨_, rfl⟩
  | some choice =>
  obtain ⟨reader, input⟩ := choice
  have hchoose' : ∀ traits, ({ d with traits } : Definition).choose? InputReader.standard =
      some (reader, input) := fun _ => hchoose
  have hreader : reader ∈ InputReader.standard := (mem_of_choose? hchoose).1
  cases hread : (reader.read d.name input .standard).outcome supply with
  | mk result supply' =>
  cases result with
  | error err =>
    refine .inl fun traits => ⟨err, ?_⟩
    rw [parse, (mem_of_choose? (hchoose' traits)).2, hchoose']
    simp only [Bool.false_eq_true, if_false]
    rw [Draft.outcome_bind_error hread]
  | ok read =>
    have hmakes : (reader.read d.name input .standard).Makes read :=
      ⟨supply, congrArg Prod.fst hread⟩
    obtain ⟨s, rfl, htraits⟩ := InputReader.shape_of_makes_read hreader hmakes
    obtain ⟨hopen, hkeys⟩ := InputReader.isOpen_of_makes_read hreader hmakes
    refine .inr ⟨s.toRecord, hopen, hkeys, htraits, fun traits => ?_⟩
    exact congrArg Prod.fst (outcome_parse (hchoose' traits) hread)

/-- A model that the readers at hand read is a shape with the overlays laid over it. -/
theorem laid_of_makes_parse (h : (d.parse InputReader.standard .standard).Makes parsed) :
    ∃ s r, parsed = .shape ⟨r⟩ ∧ Record.Laid s (d.overlays .standard) r ∧
      ∀ key, Registry.standard.trait? key = none → s.get? key = none := by
  obtain ⟨supply, h⟩ := h
  rcases outcome_parse_cases d supply with hfails | ⟨s, hopen, hkeys, htraits, houtcome⟩
  · obtain ⟨err, herr⟩ := hfails d.traits
    exact absurd (h.symm.trans herr) nofun
  · rw [houtcome d.traits] at h
    rcases Record.append_all hopen hkeys (d.overlays .standard) with ⟨-, r, hrun, hlaid⟩ |
      ⟨err, -, hrun⟩
    · rw [hrun] at h
      cases h
      exact ⟨s, r, rfl, hlaid, htraits⟩
    · rw [hrun] at h
      cases h

/-- The model without the overlays of a name. -/
def without (d : Definition) (name : String) : Definition :=
  { d with traits := d.traits.filter (·.name != name) }

/-- Without the overlays of a name, there are none under it, and the others stay. -/
theorem under_without (d : Definition) (name key : String) :
    Record.under key ((d.without name).overlays .standard) =
      if key = name then [] else Record.under key (d.overlays .standard) := by
  rw [under_overlays, under_overlays, overlays, overlays, without]
  simp only [List.filter_filter]
  split
  · next h =>
    subst h
    rw [List.map_eq_nil_iff, List.filter_eq_nil_iff]
    intro o _
    simp
  · next h =>
    refine congrArg (List.map _) (List.filter_congr fun o _ => ?_)
    by_cases hkey : o.name = key
    · simp [hkey, h]
    · simp [hkey]

/-- A value for a name of no trait is taken where nothing stands under the name. -/
theorem takes_any {s : Record Value} {name : String} (hget : s.get? name = none) (value : Json) :
    Record.Takes s [(Field.any name).ofJson value] := by
  refine (Record.takes_nil s).concat rfl fun v hv => ?_
  rw [Record.met?, show s.get? ((Field.any name).ofJson value).key = none from hget] at hv
  cases hv

/-- An overlay of no trait is never what a model fails for. -/
theorem isOk_parse_without {name : String} {value : Json}
    (hname : Registry.standard.trait? name = none) (hvalues : d.valuesOf name = [value])
    (supply : Supply) :
    (∃ parsed, ((d.parse InputReader.standard .standard).outcome supply).1 = .ok parsed) ↔
      ∃ parsed, (((d.without name).parse InputReader.standard .standard).outcome supply).1 =
        .ok parsed := by
  rcases outcome_parse_cases d supply with hfails | ⟨s, hopen, hkeys, htraits, houtcome⟩
  · obtain ⟨err, herr⟩ := hfails d.traits
    obtain ⟨err', herr'⟩ := hfails (d.traits.filter (·.name != name))
    rw [without, herr', show _ = Except.error err from herr]
    exact ⟨nofun, nofun⟩
  · have hisOk : ∀ traits, (∃ parsed, ((({ d with traits } : Definition).parse InputReader.standard
        .standard).outcome supply).1 = .ok parsed) ↔
          ∀ key,
            s.Takes (Record.under key (({ d with traits } : Definition).overlays .standard)) := by
      intro traits
      rw [houtcome, ← Record.takes_iff_under, ← Record.isOk_append_iff hopen hkeys]
      cases (({ d with traits } : Definition).overlays .standard).foldlM Record.append s with
      | error err => exact ⟨nofun, nofun⟩
      | ok r => exact ⟨fun _ => ⟨r, rfl⟩, fun _ => ⟨_, rfl⟩⟩
    refine (hisOk d.traits).trans (Iff.trans ?_ (hisOk (d.traits.filter (·.name != name))).symm)
    refine forall_congr' fun key => ?_
    rw [← without, under_without]
    split
    · next h =>
      -- the overlay of the name finds nothing there
      rw [h, under_overlays_of_none hname, hvalues]
      exact ⟨fun _ => Record.takes_nil s, fun _ => takes_any (htraits name hname) value⟩
    · exact Iff.rfl

/-- A view shows the overlays of a name of no trait: the first value, which goes on with the items
of the others if it is an array. -/
def Shows (d : Definition) (view : Json) : Prop :=
  ∀ name first later, Registry.standard.trait? name = none → d.valuesOf name = first :: later →
    view.get? name = some (first.extended (later.flatMap Json.elements)).shown

theorem brought_ofJson (name : String) (later : List Json) :
    Record.brought (later.map (Field.any name).ofJson) =
      (later.flatMap Json.elements).map Value.ofJson := by
  rw [Record.brought, List.flatMap_map, List.map_flatMap]
  exact List.flatMap_congr fun j _ => Value.elements_ofJson j

/-- A shape that the overlays are laid over shows those of a name of no trait. -/
theorem shows_of_laid {s r : Record Value} (hrange : ∀ o ∈ d.traits, o.value.InRange)
    (hlaid : s.Laid (d.overlays .standard) r)
    (htraits : ∀ key, Registry.standard.trait? key = none → s.get? key = none) :
    d.Shows (Parsed.shape ⟨r⟩).toJson := by
  intro name first later hname hvalues
  have hall : ∀ j ∈ first :: later, j.InRange := by
    rw [← hvalues]
    intro j hj
    obtain ⟨o, ho, rfl⟩ := List.mem_map.mp hj
    exact hrange o (List.mem_filter.mp ho).1
  obtain ⟨hfirst, hlater⟩ := List.forall_mem_cons.mp hall
  have hmore : ∀ j ∈ later.flatMap Json.elements, j.InRange := by
    intro j hj
    obtain ⟨v, hv, hj⟩ := List.mem_flatMap.mp hj
    exact (hlater v hv).elements j hj
  have hheld :
      r.get? name = some (Value.ofJson (first.extended (later.flatMap Json.elements))) := by
    rw [hlaid.get?, htraits name hname, under_overlays_of_none hname, hvalues, List.map_cons,
      Record.laid?, brought_ofJson, ← Value.extended_ofJson]
    rfl
  change (Value.recordToJson r).get? name = _
  rw [Value.get?_recordToJson, hheld, Option.map_some,
    Value.toJson_ofJson (hfirst.extended hmore)]

end Definition

namespace CommandLine

/-! ### The schema command -/

variable {models : List Definition} {text : String}

/-- The views of models as one value: that of a single one itself, else a list. -/
def display : List Json → Json
  | [view] => view
  | views => .arr views

/-- A step that comes off makes what the draft of a model does. -/
theorem orError_eq_ok {α : Type} {text : String} {x : Except Error α} {a : α}
    (h : doing text (orError x) = .ok a) : x = .ok a := by
  cases x with
  | error err => cases h
  | ok a' =>
    cases h
    rfl

/-- What comes of models in turn is what each of them makes. -/
theorem makes_of_forModels {α : Type} {f : Definition → Draft α} {xs : List α}
    (h : forModels f models = .ok xs) : List.Forall₂ (fun d x => (f d).Makes x) models xs := by
  unfold forModels at h
  dsimp only at h
  generalize ({} : Supply) = supply at h
  induction models generalizing xs supply with
  | nil =>
    cases h
    exact .nil
  | cons d models ih =>
    rw [List.mapM_cons] at h
    obtain ⟨x, hx, h⟩ := Except.bind_eq_ok.mp ((run_bind_fst ..).symm.trans h)
    obtain ⟨xs', hxs, h⟩ := Except.bind_eq_ok.mp ((run_bind_fst ..).symm.trans h)
    cases h
    exact .cons ⟨supply, orError_eq_ok hx⟩ (ih _ hxs)

/-- The schema command shows the overlays of no trait with every model. -/
theorem schemaAll_shows (hrange : ∀ d ∈ models, ∀ o ∈ d.traits, o.value.InRange)
    (h : schemaAll models = .ok text) :
    ∃ views, text = (display views).pretty ∧ List.Forall₂ Definition.Shows models views := by
  obtain ⟨parsed, hparsed, h⟩ := Except.bind_eq_ok.mp h
  have hmakes := makes_of_forModels hparsed
  refine ⟨parsed.map Parsed.toJson, ?_, ?_⟩
  · cases parsed with
    | nil => cases h; rfl
    | cons p ps =>
      cases ps with
      | nil => cases h; rfl
      | cons => cases h; rfl
  · rw [List.forall₂_map_right_iff]
    refine forall₂_imp_of_mem hmakes fun d hd p _ hp => ?_
    obtain ⟨s, r, rfl, hlaid, htraits⟩ := Definition.laid_of_makes_parse hp
    exact Definition.shows_of_laid (hrange d hd) hlaid htraits

/-- A JSON value in a record is shown as itself, but for whole numbers that are no signed ones and
stand in no object: those are shown as the floating numbers nearest to them.  The schema command
shows an overlay of no trait in this way, and such an overlay is never what it fails for. -/
theorem json_is_shown :
    (∀ j : Json, j.InRange → (Value.ofJson j).toJson = j.shown ∧
      ((Value.ofJson j).toJson = j ↔ ∀ n ∈ j.bareWholes, n ≤ Json.maxInt)) ∧
    (∀ models : List Definition, (∀ d ∈ models, ∀ o ∈ d.traits, o.value.InRange) →
      ∀ text, schemaAll models = .ok text →
        ∃ views, text = (display views).pretty ∧ List.Forall₂ Definition.Shows models views) ∧
    ∀ (d : Definition) (name : String) (value : Json) (supply : Supply),
      Registry.standard.trait? name = none → d.valuesOf name = [value] →
        ((∃ parsed, ((d.parse InputReader.standard .standard).outcome supply).1 = .ok parsed) ↔
          ∃ parsed, (((d.without name).parse InputReader.standard .standard).outcome supply).1 =
            .ok parsed) := by
  refine ⟨fun j hj => ?_, fun models hrange text h => schemaAll_shows hrange h,
    fun d name value supply hname hvalues => d.isOk_parse_without hname hvalues supply⟩
  rw [Value.toJson_ofJson hj]
  exact ⟨rfl, j.shown_eq_self_iff⟩

/-- An empty struct with a large number for its vendor. -/
def numbered : Definition where
  name := "order"
  traits := [⟨"vendor", .arr [.int Json.maxNat, .obj [("id", .int Json.maxNat)]]⟩]
  fields? := some []

/-- The number is shown as a floating one, and as itself in the object; a smaller one is shown as
itself. -/
theorem json_is_shown_numbered :
    (Value.ofJson (.arr [.int Json.maxInt])).toJson = .arr [.int Json.maxInt] ∧
    ∃ view : Json, schemaAll [numbered] = .ok view.pretty ∧
      view.get? "vendor" = some (.arr [.float (Binary64.ofInt Json.maxNat),
        .obj [("id", .int Json.maxNat)]]) := by
  have hsmall : (Json.arr [.int Json.maxInt]).InRange :=
    .arr (List.forall_mem_singleton.mpr (.int (by decide) (by decide)))
  refine ⟨(json_is_shown.1 _ hsmall).2.mpr (List.forall_mem_singleton.mpr (Int.le_refl _)), ?_⟩
  have hid : (Json.int Json.maxNat).InRange := .int (by decide) (by decide)
  have hrange : ∀ d ∈ [numbered], ∀ o ∈ d.traits, o.value.InRange := by
    refine List.forall_mem_singleton.mpr (List.forall_mem_singleton.mpr (.arr ?_))
    exact List.forall_mem_cons.mpr ⟨hid,
      List.forall_mem_singleton.mpr (.obj (List.forall_mem_singleton.mpr hid))⟩
  have hshows : (schemaAll [numbered]).toBool = true := by decide +kernel
  cases htext : schemaAll [numbered] with
  | error failure => simp [htext, Except.toBool] at hshows
  | ok text =>
    obtain ⟨views, rfl, hviews⟩ := json_is_shown.2.1 [numbered] hrange text htext
    obtain ⟨view, rest, hview, hrest, rfl⟩ := List.forall₂_cons_left_iff.mp hviews
    cases hrest
    exact ⟨view, rfl, hview "vendor" _ [] rfl rfl⟩

/-- The greatest whole number is not shown as itself. -/
theorem not_shown_unchanged :
    ¬ ∀ j : Json, j.InRange → (Value.ofJson j).toJson.same j = true := by
  intro h
  have hsame := h (.int Json.maxNat) (.int (by decide) (by decide))
  have hshown : (Value.ofJson (.int Json.maxNat)).toJson = .float (Binary64.ofInt Json.maxNat) := by
    rw [Value.toJson_ofJson (.int (by decide) (by decide)), Json.shown, if_neg (by decide)]
  rw [hshown] at hsame
  exact absurd hsame (by decide +kernel)

end CommandLine

end TypeSketch
