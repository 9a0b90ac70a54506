import Mathlib.Data.List.Basic
import TypeSketch.Proofs.Text.Join

/-!
# Renumbering — texts

The path of a node without a name holds the number of the node, after a mark.  A text is read as
such a path in one way at most (`Numbered.unique`), so its number can be replaced (`renumber`).
Where numbers are replaced by others of their own, so are texts (`renumber_injective`): renumbering
neither makes paths equal nor tells them apart.

What follows a number starts with a dot, so the digits behind a mark end where the number does
(`takeWhile_digits`), and what stands before the number has no mark, so the first mark is the one
(`Numbered.takeWhile_eq`). A text of any other form stays as it is (`renumber_of_not_numbered`).
-/

namespace TypeSketch.Text

/-- A text without a mark. -/
def Plain (s : String) : Prop := '@' ∉ s.toList

instance (s : String) : Decidable (Plain s) := inferInstanceAs (Decidable ('@' ∉ s.toList))

/-- A number after a mark, between a text without a mark and names that follow on. -/
structure Numbered (s before : String) (number : Nat) (after : String) : Prop where
  eq : s = before ++ "@" ++ toString number ++ after
  plain : Plain before
  dotted : ∀ c ∈ after.toList.head?, c = '.'

theorem Plain.append {s t : String} (hs : Plain s) (ht : Plain t) : Plain (s ++ t) := by
  rw [Plain, String.toList_append, List.mem_append]
  exact fun h => h.elim hs ht

variable {s t before before' after after' name : String} {i j : Nat}

theorem Numbered.toList_eq (h : Numbered s before i after) :
    s.toList = before.toList ++ '@' :: ((toString i).toList ++ after.toList) := by
  rw [h.eq]
  simp

theorem Numbered.not_plain (h : Numbered s before i after) : ¬ Plain s := by
  rw [Plain, h.toList_eq]
  simp

/-- The digits of a number end where names follow on. -/
theorem takeWhile_digits (h : ∀ c ∈ after.toList.head?, c = '.') :
    ((toString i).toList ++ after.toList).takeWhile Char.isDigit = (toString i).toList := by
  rw [List.takeWhile_append_of_pos fun c hc => isDigit_of_mem_toString hc]
  cases hafter : after.toList with
  | nil => simp
  | cons c cs =>
    obtain rfl : c = '.' := h c (by rw [hafter]; rfl)
    simp

/-- The first mark of the text is the one before the number. -/
theorem Numbered.takeWhile_eq (h : Numbered s before i after) :
    s.toList.takeWhile (· != '@') = before.toList := by
  have hbefore : ∀ c ∈ before.toList, (c != '@') = true := fun c hc =>
    bne_iff_ne.mpr fun e => h.plain (e ▸ hc)
  rw [h.toList_eq, List.takeWhile_append_of_pos hbefore]
  simp

/-- A text holds one number. -/
theorem Numbered.unique (h : Numbered s before i after) (h' : Numbered s before' j after') :
    before = before' ∧ i = j ∧ after = after' := by
  obtain rfl : before = before' := String.ext (h.takeWhile_eq.symm.trans h'.takeWhile_eq)
  have heq := h.toList_eq.symm.trans h'.toList_eq
  have hrest := List.tail_eq_of_cons_eq (List.append_cancel_left heq)
  have hdigits : (toString i).toList = (toString j).toList := by
    rw [← takeWhile_digits (i := i) h.dotted, ← takeWhile_digits (i := j) h'.dotted, hrest]
  rw [hdigits, List.append_cancel_left_eq] at hrest
  exact ⟨rfl, Nat.repr_injective (String.ext hdigits), String.ext hrest⟩

open Classical in
/-- The text with its number replaced, if it holds one. -/
noncomputable def renumber (σ : Nat → Nat) (s : String) : String :=
  if h : ∃ p : String × Nat × String, Numbered s p.1 p.2.1 p.2.2 then
    h.choose.1 ++ "@" ++ toString (σ h.choose.2.1) ++ h.choose.2.2
  else s

variable {σ : Nat → Nat}

theorem renumber_of_numbered (σ : Nat → Nat) (h : Numbered s before i after) :
    renumber σ s = before ++ "@" ++ toString (σ i) ++ after := by
  have hex : ∃ p : String × Nat × String, Numbered s p.1 p.2.1 p.2.2 := ⟨(before, i, after), h⟩
  obtain ⟨hb, hi, ha⟩ := hex.choose_spec.unique h
  rw [renumber, dif_pos hex, hb, hi, ha]

theorem renumber_of_not_numbered (σ : Nat → Nat)
    (h : ¬ ∃ before number after, Numbered s before number after) : renumber σ s = s :=
  dif_neg fun ⟨_, hn⟩ => h ⟨_, _, _, hn⟩

theorem renumber_of_plain (σ : Nat → Nat) (h : Plain s) : renumber σ s = s :=
  renumber_of_not_numbered σ fun ⟨_, _, _, hn⟩ => hn.not_plain h

theorem Numbered.renumber (σ : Nat → Nat) (h : Numbered s before i after) :
    Numbered (renumber σ s) before (σ i) after :=
  ⟨renumber_of_numbered σ h, h.plain, h.dotted⟩

/-- Where no two numbers become one, no two texts do. -/
theorem renumber_injective (hσ : Function.Injective σ) : Function.Injective (renumber σ) := by
  intro s t heq
  by_cases hs : ∃ before number after, Numbered s before number after
  · obtain ⟨before, i, after, hs⟩ := hs
    have hs' := hs.renumber σ
    by_cases ht : ∃ before number after, Numbered t before number after
    · obtain ⟨before', j, after', ht⟩ := ht
      rw [heq] at hs'
      obtain ⟨rfl, hij, rfl⟩ := hs'.unique (ht.renumber σ)
      rw [hs.eq, ht.eq, hσ hij]
    · rw [heq, renumber_of_not_numbered σ ht] at hs'
      exact absurd ⟨_, _, _, hs'⟩ ht
  · rw [renumber_of_not_numbered σ hs] at heq
    by_cases ht : ∃ before number after, Numbered t before number after
    · obtain ⟨before', j, after', ht⟩ := ht
      exact absurd ⟨_, _, _, heq ▸ ht.renumber σ⟩ hs
    · rw [heq, renumber_of_not_numbered σ ht]

/-- A name that follows on is not part of a number. -/
theorem exists_numbered_of_append_name (hname : Plain name)
    (h : Numbered (s ++ "." ++ name) before i after) :
    ∃ rest, Numbered s before i rest ∧ after = rest ++ "." ++ name := by
  have heq : s.toList ++ '.' :: name.toList =
      (before.toList ++ '@' :: (toString i).toList) ++ after.toList := by
    simpa using h.toList_eq
  -- where the number ends, after the text or within it
  rcases List.append_eq_append_iff.mp heq with ⟨u, hu, hafter⟩ | ⟨u, hu, hafter⟩
  · cases u with
    | nil =>
      refine ⟨"", ⟨String.ext ?_, h.plain, by simp⟩, String.ext ?_⟩
      · simpa using hu.symm
      · simpa using hafter.symm
    | cons c u =>
      obtain ⟨rfl, hname'⟩ := List.cons.inj hafter
      exfalso
      rcases List.append_eq_append_iff.mp hu with ⟨w, -, hw⟩ | ⟨w, -, hw⟩
      · -- the dot would be a digit
        have hmem : '.' ∈ '@' :: (toString i).toList := by
          rw [hw]
          exact List.mem_append_right _ List.mem_cons_self
        rcases List.mem_cons.mp hmem with hc | hmem
        · exact absurd hc (by decide)
        · exact absurd (isDigit_of_mem_toString hmem) (by decide)
      · -- the mark would be in the name
        have hmem : '@' ∈ '.' :: u := by
          rw [hw]
          exact List.mem_append_right _ List.mem_cons_self
        rcases List.mem_cons.mp hmem with hc | hmem
        · exact absurd hc (by decide)
        · exact hname (hname' ▸ List.mem_append_left _ hmem)
  · refine ⟨String.ofList u, ⟨String.ext ?_, h.plain, fun c hc => h.dotted c ?_⟩, String.ext ?_⟩
    · simpa using hu
    · rw [hafter]
      cases u with
      | nil => simp at hc
      | cons d u => simpa using hc
    · simpa using hafter

/-- A name that follows on stays. -/
theorem renumber_append_name (σ : Nat → Nat) (s : String) (hname : Plain name) :
    renumber σ (s ++ "." ++ name) = renumber σ s ++ "." ++ name := by
  by_cases h : ∃ before number after, Numbered (s ++ "." ++ name) before number after
  · obtain ⟨before, i, after, h⟩ := h
    obtain ⟨rest, hs, rfl⟩ := exists_numbered_of_append_name hname h
    rw [renumber_of_numbered σ h, renumber_of_numbered σ hs]
    simp only [String.append_assoc]
  · have hs : ¬ ∃ before number after, Numbered s before number after := by
      rintro ⟨before, i, after, hs⟩
      refine h ⟨before, i, after ++ "." ++ name, ?_, hs.plain, fun c hc => ?_⟩
      · rw [hs.eq]
        simp only [String.append_assoc]
      · cases hafter : after.toList with
        | nil => simpa [hafter] using hc.symm
        | cons d ds =>
          refine hs.dotted c ?_
          simpa [hafter] using hc
    rw [renumber_of_not_numbered σ h, renumber_of_not_numbered σ hs]

/-- A number at the end, after a text without a mark. -/
theorem renumber_append_number (σ : Nat → Nat) (hs : Plain s) (i : Nat) :
    renumber σ (s ++ "@" ++ toString i) = s ++ "@" ++ toString (σ i) := by
  have h : Numbered (s ++ "@" ++ toString i) s i "" := ⟨by simp, hs, by simp⟩
  rw [renumber_of_numbered σ h]
  simp

end TypeSketch.Text
