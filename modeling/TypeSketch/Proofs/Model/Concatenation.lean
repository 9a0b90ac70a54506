import TypeSketch.Model.Decode
import TypeSketch.Proofs.Json.Sequences

/-!
# Models — definitions one after the other

What a document is decoded as does not depend on its place among others (`readAll_eq_ok_iff`).  So
definitions can be read text by text, and it does not matter whether they stand by themselves or in
arrays (`readAll_concatenates`).

Concatenation of texts is led back to concatenation of documents, by what the reader of documents
does with a text that goes on in a new line, and the numbers that documents get on the way are shown
not to matter (`mapM_documents_eq_ok_iff`).
-/

namespace TypeSketch

namespace Definition

open Json (ObjectText Piece)

/-- The document is decoded as the definition, whose raw text has been filled in. -/
def Decodes (document : Json) (d : Definition) : Prop :=
  ∃ bare, form.read { name := "" } (.ofJson document) = .ok bare ∧ d = bare.fillRaw

/-- A document is decoded by its outline, whose raw text is then filled in. -/
theorem decodes_iff {start : String} {document : Json} {d : Definition} :
    (do return (← ofOutline start (.ofJson document)).fillRaw : Except Error Definition) = .ok d ↔
      Decodes document d := by
  rw [Decodes, ofOutline]
  cases form.read { name := "" } (.ofJson document) with
  | error misfit => simp [Except.mapError, bind, Except.bind]
  | ok bare => simp [Except.mapError, bind, Except.bind, pure, Except.pure, eq_comm]

/-- Documents are decoded one by one, whatever their numbers. -/
theorem mapM_documents_eq_ok_iff {documents : List Json} {n : Nat} {ms : List Definition} :
    (documents.zipIdx n).mapM (fun (j, i) =>
      (do return (← ofOutline ("#" ++ toString i ++ "/") (.ofJson j)).fillRaw :
        Except Error Definition)) = .ok ms ↔ List.Forall₂ Decodes documents ms := by
  induction documents generalizing n ms with
  | nil =>
    rw [List.zipIdx_nil, List.mapM_nil]
    constructor
    · rintro ⟨⟩
      exact .nil
    · rintro ⟨⟩
      rfl
  | cons j documents ih =>
    rw [List.zipIdx_cons, List.mapM_cons]
    constructor
    · intro h
      obtain ⟨d, hd, h⟩ := Except.bind_eq_ok.mp h
      obtain ⟨ds, hds, h⟩ := Except.bind_eq_ok.mp h
      cases h
      exact .cons (decodes_iff.mp hd) (ih.mp hds)
    · intro h
      cases h with
      | cons hd hds =>
        refine Except.bind_eq_ok.mpr ⟨_, decodes_iff.mpr hd, ?_⟩
        exact Except.bind_eq_ok.mpr ⟨_, ih.mpr hds, rfl⟩

/-- A text is read if it holds documents that can be decoded. -/
theorem readAll_eq_ok_iff {text : String} {ms : List Definition} :
    readAll text = .ok ms ↔
      ∃ values, Json.parseAll text = .ok values ∧ List.Forall₂ Decodes (documents values) ms := by
  rw [readAll]
  cases Json.parseAll text with
  | error flaw => exact ⟨nofun, fun ⟨_, h, _⟩ => nomatch h⟩
  | ok values =>
    refine mapM_documents_eq_ok_iff.trans ⟨fun h => ⟨values, rfl, h⟩, ?_⟩
    rintro ⟨_, ⟨⟩, h⟩
    exact h

/-- A text that goes on in a new line has the definitions of its parts. -/
theorem readAll_append {a b : String} {ms ns : List Definition} (ha : readAll a = .ok ms)
    (hb : readAll b = .ok ns) : readAll (a ++ "\n" ++ b) = .ok (ms ++ ns) := by
  obtain ⟨values, hvalues, hms⟩ := readAll_eq_ok_iff.mp ha
  obtain ⟨values', hvalues', hns⟩ := readAll_eq_ok_iff.mp hb
  refine readAll_eq_ok_iff.mpr ⟨_, Json.parseAll_append hvalues hvalues', ?_⟩
  rw [documents, List.flatMap_append]
  exact List.rel_append hms hns

/-- The documents in parts of a text are their objects. -/
theorem documents_values (pieces : List Piece) :
    documents (pieces.flatMap Piece.values) =
      (pieces.flatMap Piece.objects).map ObjectText.value := by
  induction pieces with
  | nil => rfl
  | cons piece pieces ih =>
    have hpiece : documents piece.values = piece.objects.map ObjectText.value := by
      cases piece with
      | blanks => rfl
      | alone object => rfl
      | array objects => exact List.append_nil _
    rw [documents] at hpiece ih ⊢
    rw [List.flatMap_cons, List.flatMap_append, hpiece, ih, List.flatMap_cons, List.map_append]

/-- Objects that can be read as one array are decoded one by one. -/
theorem decodes_of_readAll_arrayText {objects : List ObjectText} {ms : List Definition}
    (h : readAll (ObjectText.arrayText objects) = .ok ms) :
    (∀ object ∈ objects, object.Nests) ∧
      List.Forall₂ Decodes (objects.map ObjectText.value) ms := by
  obtain ⟨values, hvalues, hms⟩ := readAll_eq_ok_iff.mp h
  have hnests := Json.nests_of_parseAll hvalues
  rw [Json.parseAll_arrayText hnests] at hvalues
  cases hvalues
  have hdocuments : ∀ items, documents [.arr items] = items := List.append_nil
  rw [hdocuments] at hms
  exact ⟨hnests, hms⟩

/-- Objects that can be read as one array can be read in any parts. -/
theorem readAll_write {objects : List ObjectText} {ms : List Definition}
    (h : readAll (ObjectText.arrayText objects) = .ok ms) {pieces : List Piece}
    (hpieces : pieces.flatMap Piece.objects = objects) :
    readAll (Piece.write pieces) = .ok ms := by
  subst hpieces
  obtain ⟨hnests, hms⟩ := decodes_of_readAll_arrayText h
  refine readAll_eq_ok_iff.mpr ⟨_, Json.parseAll_write hnests, ?_⟩
  rwa [documents_values]

/-- **Reading part by part.**  A text is read as the definitions that its documents are decoded as,
one by one.  So a text that goes on in a new line has the definitions of its parts, and definitions
that can be read as one array are read alike as any objects and arrays of objects, with or without
blanks between them, in that order. -/
theorem readAll_concatenates :
    (∀ {text : String} {ms : List Definition}, readAll text = .ok ms ↔
      ∃ values, Json.parseAll text = .ok values ∧ List.Forall₂ Decodes (documents values) ms) ∧
    (∀ {a b : String} {ms ns : List Definition}, readAll a = .ok ms → readAll b = .ok ns →
      readAll (a ++ "\n" ++ b) = .ok (ms ++ ns)) ∧
    ∀ {objects : List ObjectText} {ms : List Definition},
      readAll (ObjectText.arrayText objects) = .ok ms →
        List.Forall₂ Decodes (objects.map ObjectText.value) ms ∧
        ∀ pieces : List Piece, pieces.flatMap Piece.objects = objects →
          readAll (Piece.write pieces) = .ok ms :=
  ⟨readAll_eq_ok_iff, readAll_append,
    fun h => ⟨(decodes_of_readAll_arrayText h).2, fun _ => readAll_write h⟩⟩

/-- An order and a fill in two lines, as one array, and the order with an array of the fill. -/
theorem readAll_order_fill :
    ∃ (order fill : ObjectText) (ms ns both : List Definition),
      readAll order.text = .ok ms ∧ readAll fill.text = .ok ns ∧
        readAll (order.text ++ "\n" ++ fill.text) = .ok (ms ++ ns) ∧
        readAll (ObjectText.arrayText [order, fill]) = .ok both ∧
        readAll (Piece.write [.alone order, .blanks ['\n', ' '] (by simp [Json.isGap]),
          .array [fill]]) = .ok both := by
  obtain ⟨order, horder⟩ : ∃ order : ObjectText, order.text = "\x7b\"name\": \"order\"\x7d" :=
    ObjectText.exists_objectText (by decide +kernel)
  obtain ⟨fill, hfill⟩ : ∃ fill : ObjectText, fill.text = "\x7b\"name\": \"fill\"\x7d" :=
    ObjectText.exists_objectText (by decide +kernel)
  have hread : ∀ {text : String}, (readAll text).toBool = true → ∃ ms, readAll text = .ok ms := by
    intro text h
    cases hread : readAll text with
    | error err => rw [hread] at h; cases h
    | ok ms => exact ⟨ms, rfl⟩
  have harray : ObjectText.arrayText [order, fill] =
      "[\x7b\"name\": \"order\"\x7d,\x7b\"name\": \"fill\"\x7d]" := by
    rw [ObjectText.arrayText, List.map_cons, List.map_singleton, horder, hfill]
    decide +kernel
  obtain ⟨ms, hms⟩ : ∃ ms, readAll order.text = .ok ms := hread (by rw [horder]; decide +kernel)
  obtain ⟨ns, hns⟩ : ∃ ns, readAll fill.text = .ok ns := hread (by rw [hfill]; decide +kernel)
  obtain ⟨both, hboth⟩ : ∃ both, readAll (ObjectText.arrayText [order, fill]) = .ok both :=
    hread (by rw [harray]; decide +kernel)
  exact ⟨order, fill, ms, ns, both, hms, hns, readAll_concatenates.2.1 hms hns, hboth,
    (readAll_concatenates.2.2 hboth).2 _ rfl⟩

end Definition

end TypeSketch
