import TypeSketch.Emit.RustData
import TypeSketch.Proofs.Shape.Sampled

/-!
# Data types in Rust — what can be written

Writing that cannot fail does so on every page (`Writing.Succeeds`).  Every shape of a sample has a
type (`exists_typeOf`), so every struct below one can be declared (`Declarable`), and declarations
only come to structs of which that is known (`declarable_collect`).  A shape of any other sample is
nothing that can be declared (`resolve_otherKinds`).

Success is passed through binds, blocks and lists (`Writing.succeeds_bind`,
`Writing.succeeds_block`, `Writing.succeeds_forM`), and so from the types of fields to a struct, to
declarations, and to the whole model (`succeeds_writeModel`). A failure is passed on as well
(`Writing.fails_bind`), with what it says of the kind.
-/

namespace TypeSketch

namespace Writing

variable {ε α β : Type} {w : Writing ε α} {f : α → Writing ε β}

/-- The writing does not fail, whatever has been written before. -/
def Succeeds (w : Writing ε α) : Prop := ∀ page, ∃ a, (w page).1 = .ok a

/-- The writing fails for a reason that meets `P`, whatever has been written before. -/
def Fails (w : Writing ε α) (P : ε → Prop) : Prop := ∀ page, ∃ e, (w page).1 = .error e ∧ P e

theorem bind_of_ok {page : Page} {a : α} (h : (w page).1 = .ok a) :
    (w >>= f) page = f a (w page).2 := by
  change ExceptT.bindCont f (w page).1 (w page).2 = _
  rw [h]
  rfl

theorem succeeds_pure (a : α) : Succeeds (pure a : Writing ε α) := fun _ => ⟨a, rfl⟩

theorem succeeds_bind (hw : w.Succeeds) (hf : ∀ a, (f a).Succeeds) : (w >>= f).Succeeds := by
  intro page
  obtain ⟨a, ha⟩ := hw page
  rw [bind_of_ok ha]
  exact hf a _

/-- A failure behind a writing that succeeds is one of the whole. -/
theorem fails_bind {P : ε → Prop} (hw : w.Succeeds) (hf : ∀ a, (f a).Fails P) :
    (w >>= f).Fails P := by
  intro page
  obtain ⟨a, ha⟩ := hw page
  rw [bind_of_ok ha]
  exact hf a _

/-- What would follow a failure does not matter. -/
theorem Fails.bind {P : ε → Prop} (hw : w.Fails P) : (w >>= f).Fails P := by
  intro page
  obtain ⟨e, he, hP⟩ := hw page
  refine ⟨e, ?_, hP⟩
  change (ExceptT.bindCont f (w page).1 (w page).2).1 = _
  rw [he]
  rfl

theorem succeeds_line (text : String) : Succeeds (line text : Writing ε Unit) := fun _ => ⟨(), rfl⟩

theorem succeeds_block {body : Writing ε Unit} (head tail : String) (h : body.Succeeds) :
    (block head tail body).Succeeds := fun _ => h _

theorem succeeds_ofExcept {x : Except ε α} {a : α} (h : x = .ok a) : (ofExcept x).Succeeds :=
  fun _ => ⟨a, h⟩

/-- A list can be written if each item can. -/
theorem succeeds_forM {g : β → Writing ε Unit} {xs : List β} (h : ∀ x ∈ xs, (g x).Succeeds) :
    Succeeds (xs.forM g) := by
  induction xs with
  | nil => exact succeeds_pure ()
  | cons x xs ih =>
    exact succeeds_bind (h x List.mem_cons_self) fun _ =>
      ih fun y hy => h y (List.mem_cons_of_mem _ hy)

/-- A writing that succeeds has a text. -/
theorem exists_text {w : Writing ε Unit} (h : w.Succeeds) : ∃ text, w.text = .ok text := by
  obtain ⟨a, ha⟩ := h {}
  refine ⟨(w {}).2.text, ?_⟩
  rw [text, outcome]
  generalize w {} = result at ha
  obtain ⟨result, page⟩ := result
  cases ha
  rfl

/-- A writing that fails has a reason in place of a text. -/
theorem exists_text_error {w : Writing ε Unit} {P : ε → Prop} (h : w.Fails P) :
    ∃ e, w.text = .error e ∧ P e := by
  obtain ⟨e, he, hP⟩ := h {}
  refine ⟨e, ?_, hP⟩
  rw [text, outcome]
  generalize w {} = result at he
  obtain ⟨result, page⟩ := result
  cases he
  rfl

end Writing

namespace Rust

open Writing (Succeeds succeeds_bind succeeds_line succeeds_block)

/-! ### Types -/

theorem typeOf_eq (s : Shape) : typeOf s = (presentType s (s.generics.map typeOf) >>= fun present =>
    pure (if s.flag Trait.nullable then "Option<" ++ present ++ ">" else present)) := by
  rw [typeOf, ← List.attach_map_val (l := s.generics)]

/-- The remarks on a shape do not show in its type. -/
theorem typeOf_congr {s t : Shape} (h : Shape.Reads s t) : typeOf s = typeOf t := by
  have hpresent : ∀ generics, presentType s generics = presentType t generics := by
    intro generics
    unfold presentType sizedType textType unmappable
    rw [h.flag (f := Trait.null) (by decide), h.has (f := Trait.tsUnit) (by decide),
      h.flag (f := Trait.struct) (by decide), h.str? (f := Trait.typeRef) (by decide), h.name,
      h.flag (f := Trait.enum) (by decide), h.flag (f := Trait.tuple) (by decide),
      h.flag (f := Trait.vector) (by decide), h.flag (f := Trait.bool) (by decide),
      h.flag (f := Trait.allValue) (by decide), h.flag (f := Trait.integer) (by decide),
      h.flag (f := Trait.signed) (by decide), h.int? (f := Trait.bitSize) (by decide),
      h.flag (f := Trait.floating) (by decide), h.flag (f := Trait.map) (by decide),
      h.flag (f := Trait.string) (by decide), h.flag (f := Trait.reference) (by decide),
      h.str? (f := Trait.lifetime) (by decide), h.flag (f := Trait.unit) (by decide)]
  rw [typeOf_eq, typeOf_eq, hpresent, h.generics, h.flag (f := Trait.nullable) (by decide)]

variable {v : Json} {notes : List (List String)} {s : Shape}

/-- Every shape of a sample has a type. -/
theorem exists_typeOf : ∀ {v : Json} {notes : List (List String)} {s : Shape},
    Shape.Sampled v notes s → ∃ type, typeOf s = .ok type
  | .null, _, _, h | .bool _, _, _, h | .str _, _, _, h | .int _, _, _, h | .float _, _, _, h => by
      cases h with
      | atom hv hs =>
        rw [typeOf_congr hs, typeOf_eq]
        cases hv <;> exact ⟨_, rfl⟩
  | .obj members, _, _, h => by
      cases h with
      | atom hv => cases hv
      | struct hf hs =>
        rw [typeOf_congr hs, typeOf_eq]
        exact ⟨_, rfl⟩
  | .arr [], _, _, h => by
      cases h with
      | atom hv => cases hv
      | empty hs =>
        have hall : typeOf Shape.allValue = .ok anyType := by
          rw [typeOf_eq]
          rfl
        rw [typeOf_congr hs, typeOf_eq, Shape.generics_vector, List.map_singleton, hall]
        exact ⟨_, rfl⟩
  | .arr (x :: xs), _, _, h => by
      cases h with
      | atom hv => cases hv
      | vector he hs =>
        obtain ⟨type, htype⟩ := exists_typeOf he
        rw [typeOf_congr hs, typeOf_eq, Shape.generics_vector, List.map_singleton, htype]
        exact ⟨_, rfl⟩

/-! ### Declarations -/

/-- A struct whose fields all have types. -/
structure Declarable (s : Shape) : Prop where
  kind_eq : s.kind = "struct"
  types : ∀ f ∈ s.fields, ∃ type, typeOf f.content = .ok type

/-- The field entries of members have types. -/
theorem declarable_of_members {members : List (String × Json)} {fields : List Shape}
    (h : Shape.SampledMembers members notes fields) :
    ∀ f ∈ fields, ∃ type, typeOf f.content = .ok type := by
  induction members generalizing notes fields with
  | nil => cases h; nofun
  | cons m rest ih =>
    cases h with
    | cons hs hf _ _ hfields =>
      refine List.forall_mem_cons.mpr ⟨?_, ih hfields⟩
      rw [Shape.content_of_reads hf]
      exact exists_typeOf hs

/-- Collecting looks at a local struct, its fields, and what the shape is made of. -/
theorem collect_eq (s : Shape) (found : List Shape) : collect s found =
    let found :=
      if s.flag Trait.struct && !s.has Trait.typeRef then
        let found := if found.any (·.same s) then found else found ++ [s]
        s.fields.foldl (fun found f => collect f.content found) found
      else found
    s.generics.foldl (fun found t => collect t found) found := by
  rw [collect]
  simp only [List.foldl_subtype, List.unattach_attach]

theorem collect_of_leaf (hstruct : s.flag Trait.struct = false) (hgenerics : s.generics = [])
    (found : List Shape) : collect s found = found := by
  rw [collect_eq, hstruct, hgenerics]
  rfl

mutual

/-- Below a shape of a sample there are only structs that can be declared. -/
theorem declarable_collect : ∀ {v : Json} {notes : List (List String)} {s : Shape}
    {found : List Shape}, Shape.Sampled v notes s → (∀ t ∈ found, Declarable t) →
      ∀ t ∈ collect s found, Declarable t
  | .null, _, _, _, h, hfound | .bool _, _, _, _, h, hfound | .str _, _, _, _, h, hfound
  | .int _, _, _, _, h, hfound | .float _, _, _, _, h, hfound => by
      cases h with
      | atom hv hs =>
        obtain ⟨hstruct, -, -, -, hgenerics⟩ := hv.leaf
        rwa [collect_of_leaf ((hs.flag (by decide)).trans hstruct) (hs.generics.trans hgenerics)]
  | .arr [], _, _, found, h, hfound => by
      cases h with
      | atom hv => cases hv
      | empty hs =>
        rw [collect_eq, hs.flag (by decide), hs.generics, Shape.generics_vector]
        change ∀ t ∈ collect Shape.allValue found, Declarable t
        rwa [collect_of_leaf rfl rfl]
  | .arr (x :: xs), _, _, found, h, hfound => by
      cases h with
      | atom hv => cases hv
      | @vector _ _ _ _ e he hs =>
        rw [collect_eq, hs.flag (by decide), hs.generics, Shape.generics_vector]
        change ∀ t ∈ collect e found, Declarable t
        exact declarable_collect he hfound
  | .obj members, _, s, found, h, hfound => by
      cases h with
      | atom hv => cases hv
      | @struct _ _ _ name fields hf hs =>
        have hself : Declarable s := by
          refine ⟨hs.kind, ?_⟩
          rw [hs.fields, Shape.fields_struct]
          exact declarable_of_members hf
        -- The struct goes behind those found, unless one of them is the same.
        have hadded : ∀ t ∈ (if found.any (·.same s) then found else found ++ [s]),
            Declarable t := by
          split
          · exact hfound
          · exact List.forall_mem_append.mpr ⟨hfound, List.forall_mem_singleton.mpr hself⟩
        rw [collect_eq, hs.flag (by decide), hs.has (by decide), hs.fields, hs.generics,
          Shape.fields_struct]
        exact declarable_collect_members hf hadded

/-- Below the field entries of members there are only structs that can be declared. -/
theorem declarable_collect_members : ∀ {members : List (String × Json)}
    {notes : List (List String)} {fields found : List Shape},
      Shape.SampledMembers members notes fields → (∀ t ∈ found, Declarable t) →
        ∀ t ∈ fields.foldl (fun found f => collect f.content found) found, Declarable t
  | [], _, _, _, h, hfound => by
      cases h
      exact hfound
  | (name, v) :: rest, _, _, _, h, hfound => by
      cases h with
      | cons hs hf _ _ hfields =>
        rw [List.foldl_cons, Shape.content_of_reads hf]
        exact declarable_collect_members hfields (declarable_collect hs hfound)

end

theorem succeeds_writeLines (lines : List String) : (writeLines lines).Succeeds :=
  Writing.succeeds_forM fun l _ => succeeds_line l

theorem succeeds_writeField {f : Shape} (h : ∃ type, typeOf f.content = .ok type) :
    (writeField f).Succeeds := by
  obtain ⟨type, htype⟩ := h
  exact succeeds_bind (succeeds_writeLines _) fun _ =>
    succeeds_bind (Writing.succeeds_ofExcept htype) fun _ => succeeds_line _

/-- A struct can be written if its fields have types. -/
theorem succeeds_writeStruct (h : ∀ f ∈ s.fields, ∃ type, typeOf f.content = .ok type) :
    (writeStruct s).Succeeds := by
  have hrest : Succeeds (do
      Writing.line (deriveLine (structDerive ++ s.strs Trait.derive))
      Writing.block ("pub struct " ++ Text.pascalCase s.name) "" (s.fields.forM writeField) :
        Writing Error Unit) :=
    succeeds_bind (succeeds_line _) fun _ =>
      succeeds_block _ _ (Writing.succeeds_forM fun f hf => succeeds_writeField (h f hf))
  rw [writeStruct]
  split
  · exact succeeds_bind (succeeds_line _) fun _ => hrest
  · exact hrest

/-- A struct that can be declared can be written. -/
theorem succeeds_writeDeclaration (h : Declarable s) : (writeDeclaration s).Succeeds := by
  have hresolve : declarations.resolve s.kind = .ok writeStruct := by
    rw [h.kind_eq]
    rfl
  rw [writeDeclaration, hresolve]
  exact succeeds_writeStruct h.types

/-- Structs that can be declared can be written one after the other. -/
theorem succeeds_writeApart {shapes : List Shape} (h : ∀ s ∈ shapes, Declarable s) :
    (writeApart shapes).Succeeds := by
  induction shapes with
  | nil => exact Writing.succeeds_pure ()
  | cons s rest ih =>
    obtain ⟨hs, hrest⟩ := List.forall_mem_cons.mp h
    cases rest with
    | nil => exact succeeds_writeDeclaration hs
    | cons t rest =>
      exact succeeds_bind (succeeds_writeDeclaration hs) fun _ =>
        succeeds_bind (succeeds_line _) fun _ => ih hrest

/-! ### Models -/

theorem succeeds_writeTextFunction (name text : String) : (writeTextFunction name text).Succeeds :=
  succeeds_block _ _ (succeeds_line _)

/-- The functions of a struct can be written. -/
theorem succeeds_writeFunctions (s : Shape) (sample : String) :
    (writeFunctions s sample).Succeeds := by
  have hsample : ∀ w : Writing Error Unit, w.Succeeds → Succeeds
      (if !sample.isEmpty then do writeTextFunction "get_raw_data" sample; w else w) := by
    intro w hw
    split
    · exact succeeds_bind (succeeds_writeTextFunction _ _) fun _ => hw
    · exact hw
  rw [writeFunctions]
  split
  · exact Writing.succeeds_pure ()
  · refine succeeds_bind (succeeds_line _) fun _ => succeeds_block _ _ ?_
    split
    · exact hsample _ (succeeds_writeTextFunction _ _)
    · exact hsample _ (Writing.succeeds_pure ())

/-- A sample that is an object can be written. -/
theorem succeeds_writeModel (h : Shape.Sampled v notes s) (hstruct : s.flag Trait.struct = true)
    (d : Definition) : (writeModel d s).Succeeds := by
  have hdeclarations : (writeDeclarations s).Succeeds := by
    rw [writeDeclarations, if_pos hstruct]
    exact succeeds_writeApart (declarable_collect h nofun)
  rw [writeModel, if_pos hstruct]
  exact succeeds_bind (succeeds_writeLines _) fun _ => succeeds_bind hdeclarations fun _ =>
    succeeds_writeFunctions _ _

/-- The kinds of the shapes of samples that are no objects. -/
def otherKinds : List String := ["null", "bool", "string", "integer", "floating", "vector"]

theorem kind_mem_of_atom {t : Shape} (h : Shape.Atom v t) : t.kind ∈ otherKinds := by
  cases h with
  | timestamp => exact (by decide : "integer" ∈ otherKinds)
  | _ => decide

/-- There is no handler for these kinds. -/
theorem resolve_otherKinds :
    ∀ kind ∈ otherKinds, declarations.resolve kind = .ok notDeclarable := by
  simp only [otherKinds, List.forall_mem_cons, List.not_mem_nil, false_imp_iff, implies_true]
  exact ⟨rfl, rfl, rfl, rfl, rfl, rfl, trivial⟩

/-- A shape of a sample that is no struct is of one of these kinds. -/
theorem kind_mem_of_sampled (h : Shape.Sampled v notes s) (hstruct : s.flag Trait.struct = false) :
    s.kind ∈ otherKinds := by
  cases h with
  | atom hv hs => exact hs.kind ▸ kind_mem_of_atom hv
  | empty hs | vector _ hs => exact hs.kind ▸ (by decide : "vector" ∈ otherKinds)
  | struct _ hs =>
    rw [hs.flag (by decide)] at hstruct
    cases hstruct

/-- A sample that is no object cannot be declared. -/
theorem fails_writeModel (h : Shape.Sampled v notes s) (hstruct : s.flag Trait.struct = false)
    (d : Definition) : (writeModel d s).Fails fun e => ∃ what reason, e = .emit what reason := by
  have hdeclaration : (writeDeclaration s).Fails fun e => ∃ what reason, e = .emit what reason := by
    rw [writeDeclaration, resolve_otherKinds _ (kind_mem_of_sampled h hstruct)]
    exact fun _ => ⟨_, rfl, _, _, rfl⟩
  rw [writeModel, writeDeclarations, hstruct]
  exact Writing.fails_bind (succeeds_writeLines _) fun _ => hdeclaration.bind

end Rust

end TypeSketch
