import TypeSketch.Proofs.Emit.RustNames
import TypeSketch.Proofs.Emit.RustWords

/-!
# Data types in Rust — closed declarations

The declarations of a struct are those of the structs that it reaches through the fields of local
structs and through what any shape is made of (`Reaches`), in the order of a walk, and of those that
are the same only the first (`structsOf_eq_firsts`).  They are closed: a local struct that the type
of a declared field names is declared with them (`declarations_closed`).

The type of a field looks only into the shapes that it is made of, and collecting looks into more.
What a type names may have been collected as another shape that is the same, and so has its name.
-/

namespace TypeSketch.Rust

variable {s t : Shape} {shapes : List Shape}

/-! ### What a shape reaches -/

/-- A struct that is not defined elsewhere. -/
def isLocal (s : Shape) : Bool := s.flag Trait.struct && !s.has Trait.typeRef

/-- A shape is reached through the fields of local structs, and through what shapes are made of. -/
inductive Reaches (s : Shape) : Shape → Prop
  | self : Reaches s s
  | field {t f : Shape} (h : Reaches s t) (hlocal : isLocal t = true) (hf : f ∈ t.fields) :
      Reaches s f.content
  | generic {t e : Shape} (h : Reaches s t) (he : e ∈ t.generics) : Reaches s e

theorem Reaches.trans {u : Shape} (h : Reaches s t) (h' : Reaches t u) : Reaches s u := by
  induction h' with
  | self => exact h
  | field _ hlocal hf ih => exact ih.field hlocal hf
  | generic _ he ih => exact ih.generic he

theorem mem_structsIn_self (h : isLocal s = true) : s ∈ structsIn s := by
  rw [isLocal] at h
  rw [structsIn_eq, if_pos h]
  exact List.mem_cons_self

theorem structsIn_field {f : Shape} (h : isLocal s = true) (hf : f ∈ s.fields) :
    structsIn f.content ⊆ structsIn s := by
  rw [isLocal] at h
  rw [structsIn_eq s, if_pos h]
  exact fun t ht => List.mem_append_left _ (List.mem_cons_of_mem _ (List.mem_flatMap.mpr ⟨f, hf, ht⟩))

theorem structsIn_generic {e : Shape} (he : e ∈ s.generics) : structsIn e ⊆ structsIn s := by
  rw [structsIn_eq s]
  exact fun t ht => List.mem_append_right _ (List.mem_flatMap.mpr ⟨e, he, ht⟩)

theorem Reaches.subset (h : Reaches s t) : structsIn t ⊆ structsIn s := by
  induction h with
  | self => exact fun _ ht => ht
  | field _ hlocal hf ih => exact List.Subset.trans (structsIn_field hlocal hf) ih
  | generic _ he ih => exact List.Subset.trans (structsIn_generic he) ih

/-- A struct in a shape is local, and reached from it. -/
theorem reaches_of_mem_structsIn {s : Shape} (ht : t ∈ structsIn s) :
    Reaches s t ∧ isLocal t = true := by
  rw [structsIn_eq, List.mem_append] at ht
  rcases ht with ht | ht
  · split at ht
    · next hlocal =>
      rcases List.mem_cons.mp ht with rfl | ht
      · exact ⟨.self, hlocal⟩
      · obtain ⟨f, hf, ht⟩ := List.mem_flatMap.mp ht
        obtain ⟨hreach, ht⟩ := reaches_of_mem_structsIn ht
        exact ⟨(Reaches.self.field hlocal hf).trans hreach, ht⟩
    · cases ht
  · obtain ⟨e, he, ht⟩ := List.mem_flatMap.mp ht
    obtain ⟨hreach, ht⟩ := reaches_of_mem_structsIn ht
    exact ⟨(Reaches.self.generic he).trans hreach, ht⟩
termination_by s.depth
decreasing_by
  · exact Nat.lt_of_le_of_lt (Shape.depth_content_le _) (Shape.depth_lt_of_mem_fields hf)
  · exact Shape.depth_lt_of_mem_generics he

theorem mem_structsIn_iff : t ∈ structsIn s ↔ Reaches s t ∧ isLocal t = true :=
  ⟨reaches_of_mem_structsIn, fun ⟨hreach, hlocal⟩ => hreach.subset (mem_structsIn_self hlocal)⟩

/-! ### What is declared -/

/-- Every struct that is reached is the same as a declared one, which has its name. -/
theorem exists_declared (hs : s.Proper) (ht : t ∈ structsIn s) :
    ∃ r ∈ structsOf s, r.same t = true ∧ r.name = t.name := by
  have ht' := proper_of_mem_structsIn hs ht
  obtain ⟨r, hr, hsame⟩ := exists_mem_structsOf ht
  have hr' := proper_of_mem_structsIn hs ((structsOf_sublist s).subset hr)
  have hsame : r.same t = true := by
    rcases hsame with rfl | hsame
    · exact Shape.same_refl hr'
    · exact hsame
  exact ⟨r, hr, hsame, name_eq_of_same hr' ht' hsame⟩

/-- Of what is declared no two structs are the same. -/
theorem structsOf_pairwise_ne (hs : s.Proper) :
    (structsOf s).Pairwise fun t t' => t.same t' = false ∧ t'.same t = false := by
  have hproper : ∀ {t}, t ∈ structsOf s → t.Proper := fun ht =>
    proper_of_mem_structsIn hs ((structsOf_sublist s).subset ht)
  refine (structsOf_pairwise s).imp_of_mem fun {t t'} ht ht' hother => ⟨hother, ?_⟩
  refine Bool.eq_false_iff.mpr fun hsame => ?_
  rw [Shape.same_symm (hproper ht') (hproper ht) hsame] at hother
  cases hother

/-! ### Lines -/

variable {d f : Shape} {ls : List String}

/-- The line of a declared field. -/
def fieldLine (f : Shape) (type : String) : String :=
  Page.indented 1 ("pub " ++ fieldName f.label ++ ": " ++ type ++ ",")

/-- The lines declare a struct or an enum of the name. -/
def Declares (ls : List String) (name : String) : Prop :=
  "pub struct " ++ name ++ " \x7b" ∈ ls ∨ "pub enum " ++ name ++ " \x7b" ∈ ls

/-- What is in a list is in it with separators between. -/
theorem mem_intersperse_of_mem {α : Type} (sep : α) {x : α} :
    ∀ {xs : List α}, x ∈ xs → x ∈ xs.intersperse sep
  | [_], h => h
  | y :: z :: rest, h => by
    rw [List.intersperse_cons_cons]
    rcases List.mem_cons.mp h with rfl | h
    · exact List.mem_cons_self
    · exact List.mem_cons_of_mem _ (List.mem_cons_of_mem _ (mem_intersperse_of_mem sep h))

/-- Each declared shape has lines among those of all. -/
theorem DeclarationsLines.exists_mem (h : DeclarationsLines shapes ls) (hd : d ∈ shapes) :
    ∃ ls', DeclarationLines d ls' ∧ ls' ⊆ ls := by
  obtain ⟨lss, hlss, rfl⟩ := h
  obtain ⟨ls', hls', hlines⟩ := exists_of_forall₂ hlss.flip d hd
  exact ⟨ls', hlines, fun l hl =>
    List.mem_flatten.mpr ⟨ls', mem_intersperse_of_mem [""] hls', hl⟩⟩

/-- The lines of a declaration declare the name of the shape in Pascal case. -/
theorem DeclarationLines.declares (h : DeclarationLines d ls) :
    Declares ls (Text.pascalCase d.name) := by
  cases h with
  | struct _ h =>
    obtain ⟨fields, -, rfl⟩ := h
    exact .inl (List.mem_append_right _ List.mem_cons_self)
  | enum => exact .inr (List.mem_cons_of_mem _ List.mem_cons_self)

/-- The field of a struct has a type, and a line. -/
theorem DeclarationLines.exists_fieldLine (h : DeclarationLines d ls)
    (hkind : declaresStruct d = true) (hf : f ∈ d.fields) :
    ∃ type, typeOf f.content = .ok type ∧ fieldLine f type ∈ ls := by
  cases h with
  | enum hkind' =>
    rw [hkind'] at hkind
    cases hkind
  | struct _ h =>
    obtain ⟨fields, hfields, rfl⟩ := h
    obtain ⟨ls', hls', type, htype, rfl⟩ := exists_of_forall₂ hfields.flip f hf
    refine ⟨type, htype, List.mem_append_right _ (List.mem_cons_of_mem _ ?_)⟩
    refine List.mem_append_left _ (List.mem_map.mpr ⟨_, ?_, rfl⟩)
    exact List.mem_flatten.mpr ⟨_, hls', List.mem_append_right _ (List.mem_singleton_self _)⟩

/-- The declarations of a struct are those of the structs that it reaches, each once and where it
comes first, and a local struct that the type of a field names is declared with them. -/
theorem declarations_closed {out : String} (hs : s.Proper) (hstruct : s.flag Trait.struct = true)
    (hout : (writeDeclarations s).text = .ok out) :
    (∀ t, t ∈ structsIn s ↔ Reaches s t ∧ isLocal t = true) ∧
      structsOf s = firsts [] (structsIn s) ∧
      (structsOf s).Pairwise (fun t t' => t.same t' = false ∧ t'.same t = false) ∧
      (∀ t, Reaches s t → isLocal t = true → ∃ r ∈ structsOf s, r.same t = true) ∧
      ∃ ls, out = Text.unlines ls ∧ DeclarationsLines (structsOf s) ls ∧
        ∀ d ∈ structsOf s, declaresStruct d = true → ∀ f ∈ d.fields,
          ∃ words, typeWords f.content = .ok words ∧ typeOf f.content = .ok (spelled words) ∧
            fieldLine f (spelled words) ∈ ls ∧
            ∀ t, Word.struct t ∈ words → isLocal t = true →
              Declares ls (Text.pascalCase t.name) := by
  obtain ⟨ls, hls, rfl⟩ := (adds_writeDeclarations s).text_eq hout
  rw [declared, if_pos hstruct] at hls
  refine ⟨fun t => mem_structsIn_iff, structsOf_eq_firsts hs, structsOf_pairwise_ne hs,
    fun t hreach hlocal => ?_, ls, rfl, hls, fun d hd hkind f hf => ?_⟩
  · obtain ⟨r, hr, hsame, -⟩ := exists_declared hs (mem_structsIn_iff.mpr ⟨hreach, hlocal⟩)
    exact ⟨r, hr, hsame⟩
  · obtain ⟨dls, hdls, hsub⟩ := hls.exists_mem hd
    obtain ⟨type, htype, hline⟩ := hdls.exists_fieldLine hkind hf
    rw [typeOf_eq_words] at htype
    cases hwords : typeWords f.content with
    | error e =>
      rw [hwords] at htype
      cases htype
    | ok words =>
      rw [hwords] at htype
      cases htype
      refine ⟨words, rfl, by rw [typeOf_eq_words, hwords]; rfl, hsub hline, fun t ht hlocal => ?_⟩
      have hd' := mem_structsIn_iff.mp ((structsOf_sublist s).subset hd)
      -- The type names a struct below the field, which was collected, if not as this very shape.
      have hbelow : t ∈ structsIn f.content := mem_structsIn_of_typeWords hwords ht
        (Bool.and_eq_true_iff.mp hlocal).1 (by simpa using (Bool.and_eq_true_iff.mp hlocal).2)
      have htop : t ∈ structsIn s := (hd'.1.field hd'.2 hf).subset hbelow
      obtain ⟨r, hr, -, hname⟩ := exists_declared hs htop
      obtain ⟨rls, hrls, hsub'⟩ := hls.exists_mem hr
      rw [← hname]
      exact hrls.declares.imp (hsub' ·) (hsub' ·)

/-- A leg of the way of a parcel. -/
def leg : Shape := .struct "leg" [.field "id" .i64]

/-- A parcel with the same struct in several places, and one that is defined elsewhere. -/
def parcel : Shape := .struct "parcel" [.field "first" leg,
  .field "legs" ((Shape.vector leg).adding Trait.nullable.present),
  .field "stops" (.map .string (.tuple "stop" [leg.copy, .struct "far_stop" []])),
  .field "depot" ((Shape.struct "depot" [.field "to" leg]).adding
    (Trait.typeRef.entry (.str "crate::Depot")))]

/-- The parcel is proper. -/
theorem proper_parcel : parcel.Proper := by
  have hleg : leg.Proper := Shape.proper_struct _
    (List.forall_mem_singleton.mpr (Shape.proper_field _ Shape.proper_i64))
  have hlegs : ((Shape.vector leg).adding Trait.nullable.present).Proper :=
    (Shape.proper_vector hleg).adding (.bool true)
  have hpair : (Shape.tuple "stop" [leg.copy, .struct "far_stop" []]).Proper :=
    (Shape.proper_ofMark _ _).adding (Shape.proper_listOf (List.forall_mem_cons.mpr
      ⟨Shape.proper_copy.mpr hleg, List.forall_mem_singleton.mpr (Shape.proper_struct _ nofun)⟩))
  have hstops : (Shape.map .string (.tuple "stop" [leg.copy, .struct "far_stop" []])).Proper :=
    (Shape.proper_ofMark _ _).adding (Shape.proper_listOf (List.forall_mem_cons.mpr
      ⟨Shape.proper_string, List.forall_mem_singleton.mpr hpair⟩))
  have hdepot : ((Shape.struct "depot" [.field "to" leg]).adding
      (Trait.typeRef.entry (.str "crate::Depot"))).Proper :=
    (Shape.proper_struct _ (List.forall_mem_singleton.mpr (Shape.proper_field _ hleg))).adding
      (.str _)
  refine Shape.proper_struct _ ?_
  simp only [List.forall_mem_cons, List.not_mem_nil, false_imp_iff, implies_true, and_true]
  exact ⟨Shape.proper_field _ hleg, Shape.proper_field _ hlegs, Shape.proper_field _ hstops,
    Shape.proper_field _ hdepot⟩

/-- The declarations of a parcel are closed. -/
theorem declarations_closed_parcel : parcel.Proper ∧ parcel.flag Trait.struct = true ∧
    (structsOf parcel).map Shape.name = ["parcel", "leg", "far_stop"] ∧
    ∃ ls, (writeDeclarations parcel).text = .ok (Text.unlines ls) ∧
      ∀ d ∈ structsOf parcel, declaresStruct d = true → ∀ f ∈ d.fields,
        ∃ words, typeWords f.content = .ok words ∧ fieldLine f (spelled words) ∈ ls ∧
          ∀ t, Word.struct t ∈ words → isLocal t = true →
            Declares ls (Text.pascalCase t.name) := by
  obtain ⟨out, hout⟩ := Except.exists_of_isOk
    (show (writeDeclarations parcel).text.isOk = true by decide +kernel)
  obtain ⟨-, -, -, -, ls, rfl, -, hclosed⟩ := declarations_closed proper_parcel rfl hout
  refine ⟨proper_parcel, rfl, by decide +kernel, ls, hout, fun d hd hkind f hf => ?_⟩
  obtain ⟨words, hwords, -, hline, hnames⟩ := hclosed d hd hkind f hf
  exact ⟨words, hwords, hline, hnames⟩

end TypeSketch.Rust
