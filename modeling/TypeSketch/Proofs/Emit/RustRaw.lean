import Mathlib.Order.Bounds.Basic
import TypeSketch.Emit.RustName

/-!
# Data types in Rust — raw literals

A raw literal is read as it stands, up to the first quotation mark with as many hash marks behind it
as were written in front (`readRaw?`).  The number of marks that is tried one after another is the
least that the text leaves free (`isLeast_marksFrom`), so that the literal ends where the text does
(`rawLiteral_read_back`).  The crux is that no end of a literal lies across the end of the text: its
hash marks would stand where the closing quotation mark is (`not_prefix_append_quote`).
-/

namespace TypeSketch.Rust

variable {n : Nat} {c : Char} {text : List Char}

/-! ### Reading -/

/-- The text before the first quotation mark with `n` hash marks behind it, and what follows
these. -/
def untilClosed? (n : Nat) : List Char → Option (List Char × List Char)
  | [] => none
  | c :: cs =>
    if ('"' :: marks n).isPrefixOf (c :: cs) then some ([], cs.drop n)
    else (untilClosed? n cs).map fun (text, rest) => (c :: text, rest)

/-- The text of a raw literal, and what follows the literal. -/
def readRaw? : List Char → Option (List Char × List Char)
  | 'r' :: cs =>
    match cs.dropWhile (· == '#') with
    | '"' :: rest => untilClosed? (cs.takeWhile (· == '#')).length rest
    | _ => none
  | _ => none

/-! ### How many marks there are -/

/-- The marks that are settled on are the fewest, from some number on, that stand behind no
quotation mark of the text. -/
theorem isLeast_marksFrom (text : List Char) (n : Nat) :
    IsLeast {m | n ≤ m ∧ ¬ ('"' :: marks m) <:+: text} (marksFrom text n) := by
  -- along the numbers that are tried: one that is taken in the text is not the least
  induction n using marksFrom.induct text with
  | case1 n htaken ih =>
    rw [marksFrom, if_pos htaken]
    obtain ⟨⟨hle, hfree⟩, hleast⟩ := ih
    refine ⟨⟨Nat.le_of_succ_le hle, hfree⟩, ?_⟩
    rintro m ⟨hm, hfree⟩
    have hne : n ≠ m := by
      rintro rfl
      exact hfree (Text.occursIn_iff.mp htaken)
    exact hleast ⟨Nat.lt_of_le_of_ne hm hne, hfree⟩
  | case2 n hfree =>
    rw [marksFrom, if_neg hfree]
    exact ⟨⟨Nat.le_refl n, fun htaken => hfree (Text.occursIn_iff.mpr htaken)⟩, fun m hm => hm.1⟩

/-! ### Reading back -/

theorem quote_notMem_marks (n : Nat) : '"' ∉ marks n := fun h =>
  absurd (List.eq_of_mem_replicate h) (by decide)

/-- What would end the literal does not start inside the text, even if the text ends early: a hash
mark of it would be the quotation mark behind the text. -/
theorem not_prefix_append_quote (h : ¬ ('"' :: marks n) <:+: c :: text) (rest : List Char) :
    ¬ ('"' :: marks n) <+: c :: text ++ '"' :: rest := by
  intro hclosed
  rcases Nat.lt_or_ge (c :: text).length ('"' :: marks n).length with hlt | hge
  · have hquote : c :: text ++ ['"'] <+: c :: text ++ '"' :: rest :=
      (List.prefix_append_right_inj _).mpr ⟨rest, rfl⟩
    have hlength : (c :: text ++ ['"']).length ≤ ('"' :: marks n).length := by
      rw [List.length_append, List.length_singleton]
      exact hlt
    have hinside := List.prefix_of_prefix_length_le hquote hclosed hlength
    rw [List.cons_append, List.cons_prefix_cons] at hinside
    exact quote_notMem_marks n (hinside.2.subset (List.mem_append_right _ List.mem_cons_self))
  · exact h (List.prefix_of_prefix_length_le hclosed (List.prefix_append _ _) hge).isInfix

/-- A text that does not close the literal is read up to what closes it. -/
theorem untilClosed?_append (h : ¬ ('"' :: marks n) <:+: text) (rest : List Char) :
    untilClosed? n (text ++ '"' :: (marks n ++ rest)) = some (text, rest) := by
  induction text with
  | nil =>
    have hclosed : ('"' :: marks n).isPrefixOf ('"' :: (marks n ++ rest)) = true :=
      List.isPrefixOf_iff_prefix.mpr (List.prefix_append _ _)
    have hdrop : (marks n ++ rest).drop n = rest := by simp [marks]
    rw [List.nil_append, untilClosed?, if_pos hclosed, hdrop]
  | cons c text ih =>
    have hopen : ¬ ('"' :: marks n).isPrefixOf (c :: (text ++ '"' :: (marks n ++ rest))) = true :=
      fun hclosed => not_prefix_append_quote h _ (List.isPrefixOf_iff_prefix.mp hclosed)
    rw [List.cons_append, untilClosed?, if_neg hopen,
      ih fun htaken => h (htaken.trans (List.suffix_cons c text).isInfix), Option.map_some]

/-- The hash marks in front tell how many close the literal. -/
theorem readRaw?_marks (n : Nat) (cs : List Char) :
    readRaw? ('r' :: (marks n ++ '"' :: cs)) = untilClosed? n cs := by
  have hmarks : ∀ c ∈ marks n, (c == '#') = true := fun c hc =>
    beq_iff_eq.mpr (List.eq_of_mem_replicate hc)
  have htake : (marks n ++ '"' :: cs).takeWhile (· == '#') = marks n := by
    rw [List.takeWhile_append_of_pos hmarks]
    simp
  have hdrop : (marks n ++ '"' :: cs).dropWhile (· == '#') = '"' :: cs := by
    rw [List.dropWhile_append_of_pos hmarks]
    rfl
  have hlength : (marks n).length = n := List.length_replicate
  rw [readRaw?, hdrop, htake, hlength]
  rfl

/-- **Raw literals.**  A raw literal has as many hash marks on each side as no quotation mark in the
text has behind it, one at least and no more than it must.  Whatever follows the literal, it is read
as the text, and the literal is read to its end. -/
theorem rawLiteral_read_back (text : String) : ∃ n,
    IsLeast {m | 1 ≤ m ∧ ¬ ('"' :: marks m) <:+: text.toList} n ∧
    rawLiteral text =
      "r" ++ String.ofList (marks n) ++ "\"" ++ text ++ "\"" ++ String.ofList (marks n) ∧
    ∀ rest, readRaw? ((rawLiteral text).toList ++ rest) = some (text.toList, rest) := by
  have hleast := isLeast_marksFrom text.toList 1
  refine ⟨marksFrom text.toList 1, hleast, rfl, fun rest => ?_⟩
  have hlist : (rawLiteral text).toList ++ rest =
      'r' :: (marks (marksFrom text.toList 1) ++ '"' :: (text.toList ++
        '"' :: (marks (marksFrom text.toList 1) ++ rest))) := by
    simp [rawLiteral]
  rw [hlist, readRaw?_marks, untilClosed?_append hleast.1.2]

/-- A text that would end a literal with one mark, and one with two, has three. -/
example : rawLiteral "a\"#b\"##" = "r###\"a\"#b\"##\"###" := by decide +kernel

end TypeSketch.Rust
