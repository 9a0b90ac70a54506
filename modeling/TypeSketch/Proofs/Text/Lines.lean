import Mathlib.Data.List.Basic
import TypeSketch.Proofs.Text.Join

/-!
# Text — lines

A text that is written line by line has the lines of the texts that were written
(`lines_unlines`): a text with line feeds inside comes out as several.  Where a line starts cannot
be told by its line end (`prefix_dropReturn_iff`).

The lines of a text are its pieces between line feeds, without a carriage return at their end and
without the last piece if that is empty. So the text of a line that is written is one line only if
it holds no line feed, and what is proved later about lines that are written speaks of the pieces of
each text.
-/

namespace TypeSketch.Text

/-- The text of lines, each with its line feed. -/
def unlines (ls : List String) : String := String.join (ls.map (· ++ "\n"))

theorem unlines_cons (l : String) (ls : List String) :
    unlines (l :: ls) = l ++ "\n" ++ unlines ls := by
  simp [unlines, String.join_cons]

theorem unlines_append (front rest : List String) :
    unlines (front ++ rest) = unlines front ++ unlines rest := by
  simp [unlines, String.join_append]

/-- All pieces but the last are lines, without a carriage return at their end. -/
theorem linesOfPieces_append (front : List (List Char)) {rest : List (List Char)} (h : rest ≠ []) :
    linesOfPieces (front ++ rest) = front.map dropReturn ++ linesOfPieces rest := by
  induction front with
  | nil => rfl
  | cons line front ih =>
    have hne : front ++ rest ≠ [] := by simp [h]
    rw [List.cons_append, linesOfPieces.eq_3 _ _ hne, ih]
    rfl

/-- A line feed ends the lines before it. -/
theorem lines_append_cons (as bs : List Char) :
    lines (as ++ '\n' :: bs) = (pieces '\n' as).map dropReturn ++ lines bs := by
  have hne : pieces '\n' bs ≠ [] := splitWhere_ne_nil _ bs
  rw [lines, pieces_append_cons, linesOfPieces_append _ hne, lines]

/-- A text that is written line by line has the lines of each text that was written. -/
theorem lines_unlines (ls : List String) :
    lines (unlines ls).toList = ls.flatMap fun l => (pieces '\n' l.toList).map dropReturn := by
  induction ls with
  | nil => rfl
  | cons l ls ih =>
    have hlist : (unlines (l :: ls)).toList = l.toList ++ '\n' :: (unlines ls).toList := by
      simp [unlines_cons]
    rw [hlist, lines_append_cons, ih]
    rfl

/-- A carriage return at the end is no part of how a line starts. -/
theorem prefix_dropReturn_iff {start line : List Char} (h : '\r' ∉ start) :
    start <+: dropReturn line ↔ start <+: line := by
  rw [dropReturn]
  split
  · next hlast =>
    have hline : line.dropLast ++ ['\r'] = line :=
      List.dropLast_append_getLast? _ (by simpa using hlast)
    rw [← hline, List.prefix_concat_iff, hline]
    constructor
    · exact .inr
    · rintro (rfl | hstart)
      · exact absurd (hline ▸ List.mem_append_right _ (List.mem_singleton_self _)) h
      · exact hstart
  · rfl

end TypeSketch.Text
