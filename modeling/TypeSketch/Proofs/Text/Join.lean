import Std.Data.String.ToNat
import TypeSketch.Text.Lines

/-!
# Text — joining

Cutting undoes joining when no part holds the separator (`pieces_joinWith`), so that the parts of a
path can be told from it.  A number at the end of a text, after a mark, can be told from the text
whatever stands before (`number_of_append`).

Both directions of cutting are needed: a separator cuts (`pieces_append_cons`), and nothing else
does (`pieces_of_notMem`). For numbers the mark before them plays the part of the separator, since
digits hold none (`at_notMem_repr`).
-/

namespace TypeSketch.Text

/-! ### Cutting -/

/-- A text that is cut has one piece at least. -/
theorem splitWhere_ne_nil (p : Char → Bool) (cs : List Char) : splitWhere p cs ≠ [] := by
  cases cs with
  | nil => simp [splitWhere]
  | cons c cs =>
    rw [splitWhere]
    split
    · simp
    · split <;> simp

/-- A text without separators is one piece. -/
theorem splitWhere_of_forall {p : Char → Bool} {cs : List Char} (h : ∀ c ∈ cs, p c = false) :
    splitWhere p cs = [cs] := by
  induction cs with
  | nil => rfl
  | cons c cs ih =>
    rw [List.forall_mem_cons] at h
    simp [splitWhere, h.1, ih h.2]

/-- A separator cuts a text in two. -/
theorem splitWhere_append_cons {p : Char → Bool} {c : Char} (hc : p c = true) (as bs : List Char) :
    splitWhere p (as ++ c :: bs) = splitWhere p as ++ splitWhere p bs := by
  induction as with
  | nil => simp [splitWhere, hc]
  | cons a as ih =>
    rw [List.cons_append, splitWhere, splitWhere, ih]
    split
    · rfl
    · cases has : splitWhere p as with
      | nil => exact absurd has (splitWhere_ne_nil p as)
      | cons piece pieces => rfl

theorem pieces_of_notMem {sep : Char} {cs : List Char} (h : sep ∉ cs) : pieces sep cs = [cs] :=
  splitWhere_of_forall fun _ hc => beq_false_of_ne fun e => h (e ▸ hc)

theorem pieces_append_cons (sep : Char) (as bs : List Char) :
    pieces sep (as ++ sep :: bs) = pieces sep as ++ pieces sep bs :=
  splitWhere_append_cons (by simp) as bs

/-- What stands before the first separator belongs to the first piece. -/
theorem pieces_append_of_notMem {sep : Char} {as : List Char} (h : sep ∉ as) (bs : List Char) :
    ∃ piece rest, pieces sep bs = piece :: rest ∧
      pieces sep (as ++ bs) = (as ++ piece) :: rest := by
  induction as with
  | nil =>
    cases hbs : pieces sep bs with
    | nil => exact absurd hbs (splitWhere_ne_nil _ bs)
    | cons piece rest => exact ⟨piece, rest, rfl, hbs⟩
  | cons a as ih =>
    rw [List.mem_cons, not_or] at h
    obtain ⟨piece, rest, hbs, happend⟩ := ih h.2
    have ha : (a == sep) = false := beq_false_of_ne (Ne.symm h.1)
    refine ⟨piece, rest, hbs, ?_⟩
    rw [pieces] at happend ⊢
    rw [List.cons_append, splitWhere, happend, ha]
    rfl

/-! ### Joining -/

theorem joinWith_cons_cons (sep s t : String) (rest : List String) :
    joinWith sep (s :: t :: rest) = s ++ sep ++ joinWith sep (t :: rest) := rfl

/-- A joined text ends in its last part. -/
theorem joinWith_concat (sep : String) (parts : List String) (last : String) :
    joinWith sep (parts ++ [last]) = joinWith sep (parts ++ [""]) ++ last := by
  induction parts with
  | nil => simp [joinWith]
  | cons s rest ih =>
    cases rest with
    | nil => simp [joinWith]
    | cons t rest =>
      simp only [List.cons_append, joinWith_cons_cons] at ih ⊢
      rw [ih, ← String.append_assoc]

/-- A letter that is in no part and not in the separator is not in the joined text. -/
theorem notMem_joinWith {c : Char} {sep : String} (hsep : c ∉ sep.toList) {parts : List String}
    (h : ∀ s ∈ parts, c ∉ s.toList) : c ∉ (joinWith sep parts).toList := by
  induction parts with
  | nil => simp [joinWith]
  | cons s rest ih =>
    rw [List.forall_mem_cons] at h
    cases rest with
    | nil => exact h.1
    | cons t rest =>
      rw [joinWith_cons_cons]
      simp only [String.toList_append, List.mem_append, not_or]
      exact ⟨⟨h.1, hsep⟩, ih h.2⟩

/-- Cutting at dots undoes joining with dots, if no part has a dot. -/
theorem pieces_joinWith {parts : List String} (hne : parts ≠ [])
    (h : ∀ s ∈ parts, '.' ∉ s.toList) :
    pieces '.' (joinWith "." parts).toList = parts.map String.toList := by
  induction parts with
  | nil => exact absurd rfl hne
  | cons s rest ih =>
    rw [List.forall_mem_cons] at h
    cases rest with
    | nil => rw [joinWith, pieces_of_notMem h.1]; rfl
    | cons t rest =>
      have hsplit : (joinWith "." (s :: t :: rest)).toList =
          s.toList ++ '.' :: (joinWith "." (t :: rest)).toList := by
        rw [joinWith_cons_cons]
        simp
      rw [hsplit, pieces_append_cons, pieces_of_notMem h.1, ih (by simp) h.2]
      rfl

/-- Parts without dots are told by what they are joined to. -/
theorem joinWith_injective {parts parts' : List String} (hne : parts ≠ []) (hne' : parts' ≠ [])
    (h : ∀ s ∈ parts, '.' ∉ s.toList) (h' : ∀ s ∈ parts', '.' ∉ s.toList)
    (heq : joinWith "." parts = joinWith "." parts') : parts = parts' := by
  have hmap : parts.map String.toList = parts'.map String.toList := by
    rw [← pieces_joinWith hne h, ← pieces_joinWith hne' h', heq]
  exact (List.map_inj_right fun s t hst => String.ext hst).mp hmap

/-! ### Numbers at the end -/

theorem isDigit_of_mem_toString {n : Nat} {c : Char} (h : c ∈ (toString n).toList) :
    c.isDigit = true :=
  Nat.isDigit_of_mem_toDigits (b := 10) (n := n) (by decide) (by decide)
    (by simpa [Nat.repr] using h)

theorem at_notMem_repr (n : Nat) : '@' ∉ (toString n).toList := fun h =>
  absurd (isDigit_of_mem_toString h) (by decide)

/-- A number after a mark at the end of a text is told from the text. -/
theorem number_of_append {s t : String} {m n : Nat}
    (h : s ++ "@" ++ toString m = t ++ "@" ++ toString n) : m = n := by
  have hpieces : ∀ (u : String) (k : Nat), pieces '@' (u ++ "@" ++ toString k).toList =
      pieces '@' u.toList ++ [(toString k).toList] := by
    intro u k
    have hlist : (u ++ "@" ++ toString k).toList = u.toList ++ '@' :: (toString k).toList := by simp
    rw [hlist, pieces_append_cons, pieces_of_notMem (at_notMem_repr k)]
  -- the last piece after a mark is the number
  have hlast := congrArg (fun u => (pieces '@' (String.toList u)).getLast?) h
  simp only [hpieces, List.getLast?_append, List.getLast?_singleton, Option.some_or,
    Option.some.injEq] at hlast
  exact Nat.repr_injective (String.ext hlast)

end TypeSketch.Text
