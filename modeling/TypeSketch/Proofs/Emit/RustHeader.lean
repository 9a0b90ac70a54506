import TypeSketch.Input.Standard
import TypeSketch.Proofs.Emit.RustLines

/-!
# Data types in Rust — the comment on a model

What a model is stands in a comment before its declarations, one line for each text that is shown.
A line feed inside of a text ends the comment: the lines before the first declaration are all
comments exactly if behind every line feed of a shown text there are slashes again
(`header_commented`).  A note of two lines leaves the comment (`header_of_twoLines`).

A remark is shown if it says something, and then as one line of text (`remarkLine`), whose first
line always is a comment. The further lines are those of the text itself, so the condition is one on
each text alone (`StaysCommented`), and is true of a text without line feeds
(`staysCommented_of_notMem`).
-/

namespace TypeSketch

namespace Rust

variable {d : Definition}

/-- The texts on a model, each with what it is. -/
def remarks (d : Definition) : List (String × String) :=
  [("type", d.kind), ("url", d.url), ("ref", d.ref), ("note", d.note)]

/-- A text that is shown: it says something. -/
def Shown (text : String) : Prop := text ≠ "" ∧ text ≠ "untyped"

/-- What a line of a comment starts with. -/
def slashes : List Char := "///".toList

/-- Behind every line feed of the text there are slashes. -/
def StaysCommented (text : String) : Prop :=
  ∀ piece ∈ (Text.pieces '\n' text.toList).tail, slashes <+: piece

/-- Every line is one of a comment. -/
def Commented (text : String) : Prop := ∀ line ∈ Text.lines text.toList, slashes <+: line

instance (text : String) : Decidable (Commented text) :=
  inferInstanceAs (Decidable (∀ line ∈ Text.lines text.toList, slashes <+: line))

/-- The line of a remark. -/
def remarkLine (remark : String × String) : String := "/// " ++ remark.1 ++ ": " ++ remark.2

theorem modelHead_eq (d : Definition) : modelHead d =
    ((remarks d).filter fun remark => !remark.2.isEmpty && remark.2 != "untyped").map remarkLine :=
  rfl

/-- The first line of a remark is one of a comment, the others are those of its text. -/
theorem commented_remarkLine {key : String} (hkey : '\n' ∉ key.toList) (text : String) :
    (∀ line ∈ (Text.pieces '\n' (remarkLine (key, text)).toList).map Text.dropReturn,
      slashes <+: line) ↔ StaysCommented text := by
  have hfront : '\n' ∉ ("/// ".toList ++ key.toList ++ ": ".toList) := by
    simp only [List.mem_append, not_or]
    exact ⟨⟨by decide, hkey⟩, by decide⟩
  have hline : (remarkLine (key, text)).toList =
      ("/// ".toList ++ key.toList ++ ": ".toList) ++ text.toList := by
    simp only [remarkLine, String.toList_append]
  obtain ⟨piece, rest, htext, hpieces⟩ := Text.pieces_append_of_notMem hfront text.toList
  have hfirst : slashes <+: ("/// ".toList ++ key.toList ++ ": ".toList) ++ piece :=
    ⟨" ".toList ++ key.toList ++ ": ".toList ++ piece, by simp [slashes]⟩
  have hreturn : '\r' ∉ slashes := by decide
  rw [hline, hpieces, StaysCommented, htext]
  simp only [List.forall_mem_map, Text.prefix_dropReturn_iff hreturn, List.forall_mem_cons, hfirst,
    true_and, List.tail_cons]

/-- A text without line feeds stays in its comment. -/
theorem staysCommented_of_notMem {text : String} (h : '\n' ∉ text.toList) :
    StaysCommented text := by
  rw [StaysCommented, Text.pieces_of_notMem h]
  nofun

/-- The comment on a model keeps to itself exactly if every shown text does. -/
theorem commented_modelHead (d : Definition) : Commented (Text.unlines (modelHead d)) ↔
    ∀ remark ∈ remarks d, Shown remark.2 → StaysCommented remark.2 := by
  have hkeys : ∀ remark ∈ remarks d, '\n' ∉ remark.1.toList := by
    simp only [remarks, List.forall_mem_cons, List.not_mem_nil, false_imp_iff, implies_true,
      and_true]
    decide
  rw [Commented, Text.lines_unlines, modelHead_eq]
  rw [List.forall_mem_flatMap, List.forall_mem_map]
  simp only [List.mem_filter, Bool.and_eq_true, Bool.not_eq_true', String.isEmpty_eq_false_iff,
    bne_iff_ne, and_imp, Shown]
  exact forall₂_congr fun remark hremark => forall₂_congr fun _ _ =>
    commented_remarkLine (hkeys remark hremark) remark.2

end Rust

namespace Emitter

open Rust

/-- **The comment on a model.**  What is emitted starts with the comment; the first declaration, if
there is one, follows with its attribute; and the lines before it are all comments exactly if behind
every line feed of a shown text there are slashes. -/
theorem header_commented {readers : List InputReader} {registry : Registry} {target : String}
    {d : Definition} {supply : Supply} {out : String}
    (h : ((rustData.emit readers registry target d).outcome supply).1 = .ok out) :
    ∃ s supply' rest, (d.parse readers registry).outcome supply = (.ok (.shape s), supply') ∧
      out = Text.unlines (modelHead d) ++ rest ∧
      (declared s ≠ [] → "#[".toList <+: rest.toList) ∧
      (Commented (Text.unlines (modelHead d)) ↔
        ∀ remark ∈ remarks d, Shown remark.2 → StaysCommented remark.2) := by
  obtain ⟨s, supply', hparse, htext⟩ := writeModel_of_emit h
  obtain ⟨ls, ⟨declarations, hdeclarations, rfl⟩, rfl⟩ := (adds_writeModel d s).text_eq htext
  refine ⟨s, supply', _, hparse, Text.unlines_append _ _, fun hne => ?_, commented_modelHead d⟩
  obtain ⟨line, others, rfl, hattribute⟩ := hdeclarations.attribute hne
  rw [List.cons_append, Text.unlines_cons, String.toList_append, String.toList_append]
  exact (hattribute.trans (List.prefix_append _ _)).trans (List.prefix_append _ _)

/-- What is declared for what was read. -/
def declaredIn : Parsed → List Shape
  | .shape s => declared s
  | .node _ => []

/-- A model of one variant. -/
def switchModel (note : String) : Definition :=
  { kind := "enum", name := "switch", note, variants? := some [[("name", .str "On")]] }

/-- What is declared for it. -/
def switchText : String :=
  Text.unlines [Rust.deriveLine Rust.enumDerive, "pub enum Switch \x7b", "    On,", "\x7d"]

/-- A note of one line stays in the comment. -/
theorem header_commented_switch : ∃ rest,
    ((rustData.emit InputReader.standard .standard "rust" (switchModel "a / b")).outcome {}).1 =
      .ok (Text.unlines (modelHead (switchModel "a / b")) ++ rest) ∧
    "#[".toList <+: rest.toList ∧ Commented (Text.unlines (modelHead (switchModel "a / b"))) := by
  obtain ⟨out, hout⟩ : ∃ out, ((rustData.emit InputReader.standard .standard "rust"
      (switchModel "a / b")).outcome {}).1 = .ok out :=
    Except.exists_of_isOk (by decide +kernel)
  obtain ⟨s, supply', rest, hparse, rfl, hattribute, hcommented⟩ := header_commented hout
  have hdeclared : (((switchModel "a / b").parse InputReader.standard .standard).outcome
      {}).1.toOption.map (fun parsed => (declaredIn parsed).isEmpty) = some false := by
    decide +kernel
  have hnotes : ∀ remark ∈ remarks (switchModel "a / b"), '\n' ∉ remark.2.toList := by decide
  rw [hparse] at hdeclared
  refine ⟨rest, hout, hattribute fun hnone => ?_, hcommented.mpr fun remark hremark _ =>
    staysCommented_of_notMem (hnotes remark hremark)⟩
  simp [declaredIn, hnone, Except.toOption] at hdeclared

/-- The second line of a note is no comment. -/
theorem header_of_twoLines :
    ((rustData.emit InputReader.standard .standard "rust"
      (switchModel "a\nb")).outcome {}).1.toOption =
        some ("/// type: enum\n/// note: a\nb\n" ++ switchText) ∧
    ¬ Commented "/// type: enum\n/// note: a\nb\n" := by
  decide +kernel

end Emitter

end TypeSketch
