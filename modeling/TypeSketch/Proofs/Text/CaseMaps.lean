import TypeSketch.Proofs.Text.Case

/-!
# Text — characters in the other case

What holds of every entry of the tables holds of what a character is written with in the other case
(`forall_mem_mapCase`).  A character is written with one at least, and with none that tells words
apart unless it is one itself (`not_isBreak_of_mem_toLower`, `not_isBreak_of_mem_toUpper`).

The tables are long, and a proof that computed with them for each character would be longer. They
are looked at once, entry by entry: a run of characters is described by its ends, and what can be
said of its ends is decided for each run of the table (`Unbroken`).
-/

namespace TypeSketch.Text

variable {c d : Char} {sequences : List (Nat × List Nat)} {runs : List (Nat × Nat × Nat × Int)}

/-- What holds of every character of a number, and of the one that stands for no character, holds of
the one that is made of the number. -/
theorem forall_ofNat {P : Char → Prop} {n : Nat} (h : ∀ c : Char, c.toNat = n → P c)
    (hnone : P (Char.ofNat 0)) : P (Char.ofNat n) := by
  by_cases hvalid : n.isValidChar
  · rw [Char.ofNat, dif_pos hvalid]
    exact h _ rfl
  · rw [Char.ofNat, dif_neg hvalid]
    exact hnone

/-- What holds of all characters that the tables come to, and of the character itself, holds of what
it is written with. -/
theorem forall_mem_mapCase {P : Char → Prop}
    (hsequences : ∀ e ∈ sequences, ∀ n ∈ e.2, P (Char.ofNat n))
    (hruns : ∀ run ∈ runs, ∀ n : Nat, run.1 ≤ n → n ≤ run.2.1 →
      P (Char.ofNat (n + run.2.2.2).toNat))
    (hself : P c) : ∀ d ∈ mapCase sequences runs c, P d := by
  intro d hd
  rw [mapCase] at hd
  cases hsequence : sequences.lookup c.toNat with
  | some ns =>
    rw [hsequence] at hd
    obtain ⟨n, hn, rfl⟩ := List.mem_map.mp hd
    obtain ⟨before, after, heq, -⟩ := List.lookup_eq_some_iff.mp hsequence
    exact hsequences (c.toNat, ns) (heq ▸ List.mem_append_right _ List.mem_cons_self) n hn
  | none =>
    rw [hsequence] at hd
    cases halong : alongRun? runs c.toNat with
    | some n =>
      rw [halong] at hd
      rw [List.mem_singleton.mp hd]
      obtain ⟨run, hfind, rfl⟩ := Option.map_eq_some_iff.mp halong
      have hrun := List.find?_some hfind
      simp only [Bool.and_eq_true, decide_eq_true_eq] at hrun
      exact hruns run (List.mem_of_find?_eq_some hfind) _ hrun.1.1 hrun.1.2
    | none =>
      rw [halong] at hd
      exact List.mem_singleton.mp hd ▸ hself

/-- A character is written with one at least, if every entry of the table has one. -/
theorem mapCase_ne_nil (h : ∀ e ∈ sequences, e.2 ≠ []) : mapCase sequences runs c ≠ [] := by
  rw [mapCase]
  split
  · next ns hsequence =>
    obtain ⟨before, after, heq, -⟩ := List.lookup_eq_some_iff.mp hsequence
    have hne := h (c.toNat, ns) (heq ▸ List.mem_append_right _ List.mem_cons_self)
    simpa using hne
  · split <;> exact List.cons_ne_nil _ _

theorem toLower_ne_nil (c : Char) : toLower c ≠ [] := by
  rw [toLower]
  split
  · split <;> exact List.cons_ne_nil _ _
  · exact mapCase_ne_nil (by decide)

theorem toUpper_ne_nil (c : Char) : toUpper c ≠ [] := by
  rw [toUpper]
  split
  · split <;> exact List.cons_ne_nil _ _
  · exact mapCase_ne_nil (by decide)

/-! ### Characters that tell words apart -/

/-- A character that stands between words: a hyphen, a blank or a bar. -/
def isBreak (c : Char) : Bool := c == '-' || c == ' ' || c == '_'

/-- A character behind the hyphen that is not the bar tells no words apart. -/
theorem not_isBreak_of_toNat (h : 95 < c.toNat ∨ 45 < c.toNat ∧ c.toNat < 95) :
    isBreak c = false := by
  have hne : ∀ d : Char, d.toNat = 45 ∨ d.toNat = 32 ∨ d.toNat = 95 → (c == d) = false := by
    rintro d hd
    rw [beq_eq_false_iff_ne]
    rintro rfl
    omega
  rw [isBreak, hne '-' (.inl rfl), hne ' ' (.inr (.inl rfl)), hne '_' (.inr (.inr rfl))]
  rfl

/-- The run comes to no character that tells words apart. -/
def Unbroken (run : Nat × Nat × Nat × Int) : Prop :=
  95 < (run.1 : Int) + run.2.2.2 ∨
    45 < (run.1 : Int) + run.2.2.2 ∧ (run.2.1 : Int) + run.2.2.2 < 95

instance : DecidablePred Unbroken := fun _ => inferInstanceAs (Decidable (_ ∨ _))

/-- No character in the other case tells words apart, if none in the tables does. -/
theorem not_isBreak_of_mem_mapCase
    (hsequences : ∀ e ∈ sequences, ∀ n ∈ e.2, isBreak (Char.ofNat n) = false)
    (hruns : ∀ run ∈ runs, Unbroken run) (hself : isBreak c = false)
    (hd : d ∈ mapCase sequences runs c) : isBreak d = false := by
  refine forall_mem_mapCase (P := fun d => isBreak d = false) hsequences ?_ hself d hd
  intro run hrun n hfirst hlast
  have hunbroken := hruns run hrun
  rw [Unbroken] at hunbroken
  refine forall_ofNat (P := fun d => isBreak d = false) (fun d hd => ?_) (by decide)
  exact not_isBreak_of_toNat (by omega)

/-- No character written small tells words apart, unless it did. -/
theorem not_isBreak_of_mem_toLower (h : isBreak c = false) (hd : d ∈ toLower c) :
    isBreak d = false := by
  rw [toLower] at hd
  split at hd
  · next hascii =>
    have hall := forall_ascii (P := fun c => isBreak c = false →
      (if isAsciiUpper c then [Char.ofNat (c.toNat + 32)] else [c]).all
        (fun d => !isBreak d) = true) (by decide) hascii h
    simpa using List.all_eq_true.mp hall d hd
  · exact not_isBreak_of_mem_mapCase (by decide) (by decide +kernel) h hd

/-- No capital tells words apart, unless its character did. -/
theorem not_isBreak_of_mem_toUpper (h : isBreak c = false) (hd : d ∈ toUpper c) :
    isBreak d = false := by
  rw [toUpper] at hd
  split at hd
  · next hascii =>
    have hall := forall_ascii (P := fun c => isBreak c = false →
      (if isAsciiLower c then [Char.ofNat (c.toNat - 32)] else [c]).all
        (fun d => !isBreak d) = true) (by decide) hascii h
    simpa using List.all_eq_true.mp hall d hd
  · exact not_isBreak_of_mem_mapCase (by decide +kernel) (by decide +kernel) h hd

end TypeSketch.Text
