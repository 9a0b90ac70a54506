import TypeSketch.Emit.Sql
import TypeSketch.Shape.Build

/-!
# Enum types — labels

The labels of an enum type are read as text literals, in which a doubled quotation mark stands for
one (`readQuoted?`), with a comma and a blank between two of them and parentheses around all
(`readLabels?`).  A mark inside a name is doubled and the one that closes it stands alone, so no
name runs on into what follows, whatever it is made of (`readQuoted?_escaped`): what is read are the
primary names of the variants (`labels_read_back`).

The reader is written down here, since nothing else reads labels; it is the one that a database has
for text literals, as far as it is used. The induction is on the names of the variants, and leaves
what follows the list arbitrary.
-/

namespace TypeSketch.Sql

variable {cs rest : List Char}

/-! ### Reading -/

/-- The text of a literal behind its opening quotation mark, and what follows the closing one. -/
def readQuoted? : List Char → Option (List Char × List Char)
  | [] => none
  | '\'' :: '\'' :: cs => (readQuoted? cs).map fun (text, rest) => ('\'' :: text, rest)
  | '\'' :: cs => some ([], cs)
  | c :: cs => (readQuoted? cs).map fun (text, rest) => (c :: text, rest)

/-- What follows a literal is shorter than the literal with it. -/
theorem length_readQuoted? {text : List Char} (h : readQuoted? cs = some (text, rest)) :
    rest.length < cs.length := by
  induction cs using readQuoted?.induct generalizing text with
  | case1 => cases h
  | case2 cs ih =>
    obtain ⟨⟨text', rest'⟩, hread, heq⟩ := Option.map_eq_some_iff.mp h
    cases heq
    exact Nat.lt_succ_of_lt (Nat.lt_succ_of_lt (ih hread))
  | case3 cs hsingle =>
    rw [readQuoted?.eq_3 cs hsingle] at h
    cases h
    exact Nat.lt_succ_self _
  | case4 c cs hdouble hsingle ih =>
    rw [readQuoted?.eq_4 c cs hdouble hsingle] at h
    obtain ⟨⟨text', rest'⟩, hread, heq⟩ := Option.map_eq_some_iff.mp h
    cases heq
    exact Nat.lt_succ_of_lt (ih hread)

/-- The names of literals with a comma and a blank between two, and what follows the parenthesis
behind the last. -/
def readNames? : List Char → Option (List String × List Char)
  | '\'' :: cs =>
    match _ : readQuoted? cs with
    | some (name, ',' :: ' ' :: rest) =>
      (readNames? rest).map fun (names, rest) => (String.ofList name :: names, rest)
    | some (name, ')' :: rest) => some ([String.ofList name], rest)
    | _ => none
  | _ => none
termination_by cs => cs.length
decreasing_by
  have hlength := length_readQuoted? ‹_›
  simp only [List.length_cons] at hlength ⊢
  omega

/-- The names in a list of labels with its parentheses, and what follows the list. -/
def readLabels? : List Char → Option (List String × List Char)
  | '(' :: ')' :: rest => some ([], rest)
  | '(' :: cs => readNames? cs
  | _ => none

/-! ### Reading back -/

/-- A name with every quotation mark doubled. -/
def escaped (name : List Char) : List Char :=
  name.flatMap fun c => if c == '\'' then [c, c] else [c]

theorem toList_label (name : String) (rest : List Char) :
    (label name).toList ++ rest = '\'' :: (escaped name.toList ++ '\'' :: rest) := by
  simp [label, escaped]

/-- A name ends at the mark that closes it, if no mark follows. -/
theorem readQuoted?_escaped (hrest : rest.head? ≠ some '\'') (name : List Char) :
    readQuoted? (escaped name ++ '\'' :: rest) = some (name, rest) := by
  induction name with
  | nil =>
    refine readQuoted?.eq_3 rest fun cs hcs => hrest ?_
    rw [hcs]
    rfl
  | cons c name ih =>
    by_cases hquote : c = '\''
    · subst hquote
      have hdouble : escaped ('\'' :: name) ++ '\'' :: rest =
          '\'' :: '\'' :: (escaped name ++ '\'' :: rest) := rfl
      rw [hdouble, readQuoted?, ih, Option.map_some]
    · have hsingle : escaped (c :: name) ++ '\'' :: rest =
          c :: (escaped name ++ '\'' :: rest) := by
        simp [escaped, hquote]
      rw [hsingle, readQuoted?.eq_4 _ _ (fun _ h => absurd h hquote) hquote, ih, Option.map_some]

/-- The last name is read up to the parenthesis. -/
theorem readNames?_last (name : String) (rest : List Char) :
    readNames? ((label name).toList ++ ')' :: rest) = some ([name], rest) := by
  have hread : readQuoted? (escaped name.toList ++ '\'' :: ')' :: rest) =
      some (name.toList, ')' :: rest) := readQuoted?_escaped (by simp) name.toList
  rw [toList_label, readNames?]
  split
  · next heq => rw [hread] at heq; cases heq
  · next heq =>
    rw [hread] at heq
    cases heq
    rw [String.ofList_toList]
  · next hno => exact absurd hread (hno _ _)

/-- A name is read up to its comma, and then the others. -/
theorem readNames?_cons (name : String) (rest : List Char) :
    readNames? ((label name).toList ++ ',' :: ' ' :: rest) =
      (readNames? rest).map fun (names, rest) => (name :: names, rest) := by
  have hread : readQuoted? (escaped name.toList ++ '\'' :: ',' :: ' ' :: rest) =
      some (name.toList, ',' :: ' ' :: rest) := readQuoted?_escaped (by simp) name.toList
  rw [toList_label, readNames?]
  split
  · next heq =>
    rw [hread] at heq
    cases heq
    rw [String.ofList_toList]
  · next heq => rw [hread] at heq; cases heq
  · next hno _ => exact absurd hread (hno _ _)

/-- The names of labels are read behind the opening parenthesis. -/
theorem readNames?_labels (name : String) (names : List String) (rest : List Char) :
    readNames? ((labels (name :: names)).toList ++ ')' :: rest) = some (name :: names, rest) := by
  induction names generalizing name with
  | nil => exact readNames?_last name rest
  | cons next names ih =>
    have hlist : (labels (name :: next :: names)).toList ++ ')' :: rest =
        (label name).toList ++ ',' :: ' ' :: ((labels (next :: names)).toList ++ ')' :: rest) := by
      simp [labels, Text.joinWith]
    rw [hlist, readNames?_cons, ih, Option.map_some]

/-- The names of labels are read between the parentheses. -/
theorem readLabels?_labels (names : List String) (rest : List Char) :
    readLabels? ('(' :: ((labels names).toList ++ ')' :: rest)) = some (names, rest) := by
  cases names with
  | nil => rfl
  | cons name names =>
    rw [readLabels?.eq_2, readNames?_labels]
    -- a label starts with a quotation mark
    intro rest' heq
    cases names with
    | nil => simp [labels, Text.joinWith, label] at heq
    | cons next names => simp [labels, Text.joinWith, label] at heq

theorem name_variant (names : List String) : (Shape.variant names).name = names.headD "" := rfl

/-- **Labels.**  The type of an enum has a list of labels.  Whatever follows the list, the names of
the variants are read from it, in order, and it is read to its end.  The name of a variant is the
first of those it has been made of. -/
theorem labels_read_back {s : Shape} (henum : s.flag Trait.enum = true) : ∃ list,
    createType s =
      .ok ("CREATE TYPE " ++ Text.snakeCase s.name ++ " AS ENUM " ++ list ++ ";\n") ∧
    (∀ rest, readLabels? (list.toList ++ rest) = some (s.variants.map (·.name), rest)) ∧
    ∀ namesOf : List (List String), s.variants = namesOf.map Shape.variant →
      s.variants.map (·.name) = namesOf.map (·.headD "") := by
  refine ⟨"(" ++ labels (s.variants.map (·.name)) ++ ")", ?_, fun rest => ?_, ?_⟩
  · rw [createType, if_pos henum]
    simp only [String.append_assoc]
    rfl
  · have hlist : ("(" ++ labels (s.variants.map (·.name)) ++ ")").toList ++ rest =
        '(' :: ((labels (s.variants.map (·.name))).toList ++ ')' :: rest) := by
      simp
    rw [hlist, readLabels?_labels]
  · rintro namesOf hvariants
    rw [hvariants, List.map_map]
    exact List.map_congr_left fun names _ => name_variant names

/-- Names with quotation marks, commas, blanks and parentheses, and none at all. -/
theorem labels_of_marked : ∃ list,
    (Shape.enum "Side" ([["it's", "its"], ["', ')", "x"], []].map Shape.variant)).flag Trait.enum =
      true ∧
    createType (Shape.enum "Side" ([["it's", "its"], ["', ')", "x"], []].map Shape.variant)) =
      .ok ("CREATE TYPE side AS ENUM " ++ list ++ ";\n") ∧
    readLabels? list.toList = some (["it's", "', ')", ""], []) := by
  have henum : (Shape.enum "Side" ([["it's", "its"], ["', ')", "x"], []].map Shape.variant)).flag
      Trait.enum = true := rfl
  obtain ⟨list, htype, hread, hnames⟩ := labels_read_back henum
  have hread := hread []
  rw [hnames [["it's", "its"], ["', ')", "x"], []] rfl, List.append_nil] at hread
  exact ⟨list, henum, htype, hread⟩

end TypeSketch.Sql
