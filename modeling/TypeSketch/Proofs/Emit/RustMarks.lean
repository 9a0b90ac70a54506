import TypeSketch.Proofs.Emit.RustLines

/-!
# Data types in Rust — names in the code

Names of a model stand in the code at certain places: a name that data goes by between quotation
marks, the name of a struct behind `pub struct`, and the name of a field behind `pub` (`Mark`).  A
text bears marks if it is made of pieces that have these marks, and no others, in this order
(`Bears`).  The code of a model bears those of what is declared for it (`bears_writeModel`).

To bear marks goes through joining (`Bears.append`, `bears_joinWith`) and through lines
(`LinesBear.append`, `LinesBear.indented`, `LinesBear.block`). For each part of a model there is one
statement about its lines (`linesBear_field`, `linesBear_struct`, `linesBear_variant`,
`linesBear_enum`), which follow the definitions of these lines and say nothing of how they are
written.
-/

namespace TypeSketch.Rust

/-! ### Pieces of code -/

/-- A place in code where a name stands. -/
inductive Mark
  /-- Behind a key, between quotation marks. -/
  | argument (key name : String)
  /-- Where a struct is declared. -/
  | struct (name : String)
  /-- Where a field is declared. -/
  | field (name : String)
deriving DecidableEq

/-- The code of a mark. -/
def Mark.text : Mark → String
  | argument key name => key ++ " = \"" ++ name ++ "\""
  | struct name => "pub struct " ++ name ++ " \x7b"
  | field name => "pub " ++ name ++ ": "

/-- A piece of code. -/
inductive Piece
  | code (text : String)
  | mark (m : Mark)

/-- The text of a piece. -/
def Piece.text : Piece → String
  | code text => text
  | mark m => m.text

/-- The mark of a piece that is one. -/
def Piece.mark? : Piece → Option Mark
  | code _ => none
  | mark m => some m

/-- The text of pieces. -/
def textOf (pieces : List Piece) : String := String.join (pieces.map Piece.text)

/-- The marks among pieces. -/
def marksOf (pieces : List Piece) : List Mark := pieces.filterMap Piece.mark?

theorem textOf_append (pieces pieces' : List Piece) :
    textOf (pieces ++ pieces') = textOf pieces ++ textOf pieces' := by
  simp [textOf, String.join_append]

theorem textOf_cons (piece : Piece) (pieces : List Piece) :
    textOf (piece :: pieces) = piece.text ++ textOf pieces := by
  simp [textOf, String.join_cons]

/-- The text is made of pieces that have the marks. -/
def Bears (text : String) (marks : List Mark) : Prop :=
  ∃ pieces, text = textOf pieces ∧ marksOf pieces = marks

variable {text text' : String} {marks marks' : List Mark} {ls ls' : List String}

theorem bears_code (text : String) : Bears text [] :=
  ⟨[.code text], by simp [textOf, Piece.text], rfl⟩

theorem bears_mark (m : Mark) : Bears m.text [m] :=
  ⟨[.mark m], by simp [textOf, Piece.text], rfl⟩

theorem Bears.append (h : Bears text marks) (h' : Bears text' marks') :
    Bears (text ++ text') (marks ++ marks') := by
  obtain ⟨pieces, rfl, rfl⟩ := h
  obtain ⟨pieces', rfl, rfl⟩ := h'
  exact ⟨pieces ++ pieces', (textOf_append _ _).symm, List.filterMap_append⟩

/-- A mark between other code. -/
theorem bears_between (front : String) (m : Mark) (rest : String) :
    Bears (front ++ m.text ++ rest) [m] :=
  ((bears_code front).append (bears_mark m)).append (bears_code rest)

/-- Marks with code between them are borne. -/
theorem bears_joinWith (sep : String) (ms : List Mark) :
    Bears (Text.joinWith sep (ms.map Mark.text)) ms := by
  induction ms with
  | nil => exact bears_code ""
  | cons m ms ih =>
    cases ms with
    | nil => exact bears_mark m
    | cons m' ms => exact ((bears_mark m).append (bears_code sep)).append ih

/-! ### Lines of code -/

/-- The lines bear the marks. -/
inductive LinesBear : List String → List Mark → Prop
  | nil : LinesBear [] []
  | cons {l : String} {ls : List String} {marks marks' : List Mark} (h : Bears l marks)
      (hrest : LinesBear ls marks') : LinesBear (l :: ls) (marks ++ marks')

theorem linesBear_code : ∀ ls : List String, LinesBear ls []
  | [] => .nil
  | l :: ls => .cons (bears_code l) (linesBear_code ls)

theorem linesBear_single (h : Bears text marks) : LinesBear [text] marks :=
  marks.append_nil ▸ LinesBear.cons h .nil

theorem LinesBear.append (h : LinesBear ls marks) (h' : LinesBear ls' marks') :
    LinesBear (ls ++ ls') (marks ++ marks') := by
  induction h with
  | nil => exact h'
  | cons hl _ ih => exact List.append_assoc .. ▸ LinesBear.cons hl ih

/-- Lines bear their marks at any level. -/
theorem LinesBear.indented (h : LinesBear ls marks) (level : Nat) :
    LinesBear (ls.map (Page.indented level)) marks := by
  induction h with
  | nil => exact .nil
  | @cons l ls ms ms' hl _ ih =>
    refine .cons ?_ ih
    rw [Page.indented]
    split
    · next hempty => exact String.isEmpty_iff.mp hempty ▸ hl
    · exact (bears_code _).append hl

/-- Written out, lines bear their marks. -/
theorem LinesBear.unlines (h : LinesBear ls marks) : Bears (Text.unlines ls) marks := by
  induction h with
  | nil => exact bears_code ""
  | @cons l ls ms ms' hl _ ih =>
    rw [Text.unlines_cons]
    have hline := hl.append (bears_code "\n")
    rw [List.append_nil] at hline
    exact hline.append ih

/-- Groups of lines bear the marks of each, in order. -/
theorem linesBear_flatten {α : Type} {f : α → List Mark} {xs : List α} {lss : List (List String)}
    (h : List.Forall₂ (fun x ls => LinesBear ls (f x)) xs lss) :
    LinesBear lss.flatten (xs.flatMap f) := by
  induction h with
  | nil => exact .nil
  | cons hx _ ih => exact hx.append ih

/-- Empty lines between others bear nothing. -/
theorem linesBear_apart {α : Type} {f : α → List Mark} {xs : List α} {lss : List (List String)}
    (h : List.Forall₂ (fun x ls => LinesBear ls (f x)) xs lss) :
    LinesBear (lss.intersperse [""]).flatten (xs.flatMap f) := by
  induction h with
  | nil => exact .nil
  | @cons x ls xs lss hx hrest ih =>
    cases hrest with
    | nil => exact hx.append .nil
    | cons hy hrest => exact hx.append ((linesBear_code [""]).append ih)

/-- A block bears the marks of its head, and then those of what is in it. -/
theorem LinesBear.block {head : String} (hhead : Bears (head ++ " \x7b") marks)
    (h : LinesBear ls marks') (tail : String) :
    LinesBear (Writing.blockLines head tail ls) (marks ++ marks') := by
  have hend := (h.indented 1).append (linesBear_code ["\x7d" ++ tail])
  rw [List.append_nil] at hend
  exact .cons hhead hend

/-! ### The marks of a model -/

variable {s f : Shape}

/-- The marks of a field. -/
def fieldMarks (f : Shape) : List Mark :=
  (if fieldName f.label != f.label then [.argument "rename" f.label] else []) ++
    [.field (fieldName f.label)]

/-- The marks of a struct. -/
def structMarks (s : Shape) : List Mark :=
  .struct (Text.pascalCase s.name) :: s.fields.flatMap fieldMarks

/-- The marks of a variant. -/
def variantMarks (v : Shape) : List Mark :=
  let names := v.strs Trait.variantNames
  let primary := names.headD v.name
  let mapped := variantName primary
  (if names.length > 1 || mapped != primary then names.reverse.map (.argument "serialize")
    else []) ++
    if mapped != primary then [.argument "rename" primary] else []

/-- The marks of a declaration. -/
def declarationMarks (s : Shape) : List Mark :=
  if declaresStruct s then structMarks s else s.variants.flatMap variantMarks

/-- The line for another name bears the name as an argument. -/
theorem bears_renameLine (name : String) : Bears (renameLine name) [.argument "rename" name] := by
  have hfront : "#[serde(" ++ ("rename" ++ " = \"") = "#[serde(rename = \"" := by decide
  have hrest : "\"" ++ ")]" = "\")]" := by decide
  have hline : renameLine name = "#[serde(" ++ (Mark.argument "rename" name).text ++ ")]" :=
    calc renameLine name
      _ = "#[serde(rename = \"" ++ name ++ "\")]" := rfl
      _ = ("#[serde(" ++ ("rename" ++ " = \"")) ++ name ++ ("\"" ++ ")]") := by rw [hfront, hrest]
      _ = "#[serde(" ++ ("rename" ++ " = \"" ++ name ++ "\"") ++ ")]" := by
        simp only [String.append_assoc]
  rw [hline]
  exact bears_between _ _ _

/-- The lines of a field bear its marks. -/
theorem linesBear_field (h : FieldLines f ls) : LinesBear ls (fieldMarks f) := by
  obtain ⟨type, -, rfl⟩ := h
  have hrename : LinesBear
      (if fieldName f.label != f.label then [renameLine f.label] else [])
      (if fieldName f.label != f.label then [.argument "rename" f.label] else []) := by
    split
    · exact linesBear_single (bears_renameLine _)
    · exact .nil
  have hfield : Bears ("pub " ++ fieldName f.label ++ ": " ++ type ++ ",")
      [.field (fieldName f.label)] :=
    ((bears_mark (.field (fieldName f.label))).append (bears_code type)).append (bears_code ",")
  exact ((linesBear_code _).append hrename).append (linesBear_single hfield)

theorem linesBear_struct (h : StructLines s ls) : LinesBear ls (structMarks s) := by
  obtain ⟨fields, hfields, rfl⟩ := h
  have hinner := linesBear_flatten (hfields.imp fun _ _ => linesBear_field)
  exact (linesBear_code _).append
    (LinesBear.block (bears_mark (.struct (Text.pascalCase s.name))) hinner "")

/-- The lines of a variant bear its marks. -/
theorem linesBear_variant (v : Shape) : LinesBear (variantLines v) (variantMarks v) := by
  have hserialize : ∀ names : List String, Bears
      ("#[strum(" ++ Text.joinWith ", " (names.map fun n => "serialize = \"" ++ n ++ "\"") ++ ")]")
      (names.map (.argument "serialize")) := by
    intro names
    have hkey : "serialize = \"" = "serialize" ++ " = \"" := by decide
    have hnames : (names.map fun n => "serialize = \"" ++ n ++ "\"") =
        (names.map (Mark.argument "serialize")).map Mark.text := by
      rw [List.map_map, hkey]
      rfl
    have hjoined := ((bears_code "#[strum(").append (bears_joinWith ", "
      (names.map (Mark.argument "serialize")))).append (bears_code ")]")
    rw [hnames]
    rwa [List.nil_append, List.append_nil] at hjoined
  rw [variantLines, variantMarks, ← List.append_nil (_ ++ _ : List Mark)]
  refine (LinesBear.append ?_ ?_).append (linesBear_code _)
  · split
    · exact linesBear_single (hserialize _)
    · exact .nil
  · split
    · exact linesBear_single (bears_renameLine _)
    · exact .nil

/-- The lines of an enum bear the marks of its variants. -/
theorem linesBear_enum (s : Shape) : LinesBear (enumLines s) (s.variants.flatMap variantMarks) := by
  have hvariants : LinesBear (s.variants.flatMap variantLines)
      (s.variants.flatMap variantMarks) := by
    induction s.variants with
    | nil => exact .nil
    | cons v rest ih => exact (linesBear_variant v).append ih
  exact .cons (bears_code _) (LinesBear.block (bears_code _) hvariants "")

theorem linesBear_declaration (h : DeclarationLines s ls) : LinesBear ls (declarationMarks s) := by
  cases h with
  | struct hkind h => rw [declarationMarks, if_pos hkind]; exact linesBear_struct h
  | enum hkind => rw [declarationMarks, hkind]; exact linesBear_enum s

/-- The code of a shape bears the marks of what is declared for it. -/
theorem bears_writeDeclarations {out : String} (h : (writeDeclarations s).text = .ok out) :
    Bears out ((declared s).flatMap declarationMarks) := by
  obtain ⟨ls, ⟨lss, hlss, rfl⟩, rfl⟩ := (adds_writeDeclarations s).text_eq h
  exact (linesBear_apart (hlss.imp fun _ _ => linesBear_declaration)).unlines

/-- So does the code of a model. -/
theorem bears_writeModel {d : Definition} {out : String} (h : (writeModel d s).text = .ok out) :
    Bears out ((declared s).flatMap declarationMarks) := by
  obtain ⟨ls, ⟨declarations, ⟨lss, hlss, rfl⟩, rfl⟩, rfl⟩ := (adds_writeModel d s).text_eq h
  have hmarks := linesBear_apart (hlss.imp fun _ _ => linesBear_declaration)
  have hmodel := (linesBear_code (modelHead d)).append
    (hmarks.append (linesBear_code (if s.flag Trait.struct then functionLines s d.raw else [])))
  rw [List.nil_append, List.append_nil] at hmodel
  exact hmodel.unlines

end TypeSketch.Rust
