import TypeSketch.Proofs.Text.Join
import TypeSketch.Text.Case

/-!
# Text — spellings of a name

A word of small letters and digits stays as it is in snake case, and below a path it becomes one
more capitalized word in Pascal case (`pascalChars_bar`).  Such words can be told apart behind each
other, since a capital starts each of them: `flatMap_capitalize_injective`.  All facts about single
characters are about ASCII and are decided there (`forall_ascii`).

Snake case goes through a name from left to right with two flags, whether a small letter or a digit
and whether a bar came last. The lemmas about it come in the order of what the next character is:
one that stays (`snakeFrom_of_settled`), a capital (`snakeFrom_capital`), and a bar, behind which
the flags are as at the start (`snakeFrom_append_bar`).
-/

namespace TypeSketch.Text

/-! ### Small letters and digits -/

/-- A small letter or a digit of ASCII. -/
def isSmall (c : Char) : Bool := isAsciiLower c || isAsciiDigit c

/-- A word: small letters and digits, a letter first. -/
def isPlainWord (cs : List Char) : Bool :=
  (cs.head?.map isAsciiLower).getD false && cs.all isSmall

/-- Words with `_` between them: small letters, digits and `_`, a letter first. -/
def isPlainName (cs : List Char) : Bool :=
  (cs.head?.map isAsciiLower).getD false && cs.all fun c => isSmall c || c == '_'

/-- What holds of the first 128 characters holds of all of ASCII. -/
theorem forall_ascii {P : Char → Prop} (h : ∀ n < 128, P (Char.ofNat n)) {c : Char}
    (hc : c.toNat < 128) : P c :=
  Char.ofNat_toNat c ▸ h c.toNat hc

theorem isSmall_of_isAsciiLower {c : Char} (h : isAsciiLower c = true) : isSmall c = true := by
  rw [isSmall, h, Bool.true_or]

/-- What is small is in ASCII. -/
theorem toNat_lt_of_isSmall {c : Char} (h : isSmall c = true) : c.toNat < 128 := by
  simp only [isSmall, isAsciiLower, isAsciiDigit, Bool.or_eq_true, Bool.and_eq_true,
    decide_eq_true_eq] at h
  rcases h with ⟨-, h⟩ | ⟨-, h⟩
  · exact Nat.lt_of_le_of_lt h (by decide)
  · exact Nat.lt_of_le_of_lt h (by decide)

theorem not_upper_of_isSmall {c : Char} (h : isSmall c = true) :
    isUppercase c = false ∧ c ≠ '-' ∧ c ≠ ' ' ∧ c ≠ '_' :=
  forall_ascii (P := fun c => isSmall c = true →
      isUppercase c = false ∧ c ≠ '-' ∧ c ≠ ' ' ∧ c ≠ '_')
    (by decide) (toNat_lt_of_isSmall h) h

theorem not_digit_of_isAsciiLower {c : Char} (h : isAsciiLower c = true) :
    isAsciiDigit c = false :=
  forall_ascii (P := fun c => isAsciiLower c = true → isAsciiDigit c = false) (by decide)
    (toNat_lt_of_isSmall (isSmall_of_isAsciiLower h)) h

/-- A small letter has one capital, which tells it. -/
theorem exists_toUpper {c : Char} (h : isAsciiLower c = true) :
    ∃ u, toUpper c = [u] ∧ isSmall u = false ∧ Char.ofNat (u.toNat + 32) = c := by
  refine ⟨Char.ofNat (c.toNat - 32), ?_⟩
  exact forall_ascii (P := fun c => isAsciiLower c = true →
    toUpper c = [Char.ofNat (c.toNat - 32)] ∧ isSmall (Char.ofNat (c.toNat - 32)) = false ∧
      Char.ofNat ((Char.ofNat (c.toNat - 32)).toNat + 32) = c)
    (by decide) (toNat_lt_of_isSmall (isSmall_of_isAsciiLower h)) h

theorem ne_bar_of_mem {cs : List Char} (h : cs.all isSmall = true) : '_' ∉ cs := fun hmem =>
  (not_upper_of_isSmall (List.all_eq_true.mp h _ hmem)).2.2.2 rfl

/-! ### Snake case -/

/-- Snake case leaves the character as it is. -/
def Settled (c : Char) : Prop := isUppercase c = false ∧ c ≠ '-' ∧ c ≠ ' '

instance : DecidablePred Settled := fun _ => inferInstanceAs (Decidable (_ ∧ _ ∧ _))

/-- A name without capitals, hyphens and blanks stays as it is. -/
theorem snakeFrom_of_settled {cs : List Char} (h : ∀ c ∈ cs, Settled c)
    (afterLower afterBar : Bool) : snakeFrom afterLower afterBar cs = cs := by
  induction cs generalizing afterLower afterBar with
  | nil => rfl
  | cons c cs ih =>
    obtain ⟨⟨hupper, hhyphen, hblank⟩, hcs⟩ := List.forall_mem_cons.mp h
    simp [snakeFrom, hupper, hhyphen, hblank, ih hcs]

/-- Small letters, digits and bars stay as they are in snake case. -/
theorem snakeFrom_of_plain {cs : List Char} (h : ∀ c ∈ cs, (isSmall c || c == '_') = true)
    (afterLower afterBar : Bool) : snakeFrom afterLower afterBar cs = cs := by
  refine snakeFrom_of_settled (fun c hc => ?_) _ _
  rcases Bool.or_eq_true_iff.mp (h c hc) with hc | hc
  · obtain ⟨hupper, hhyphen, hblank, -⟩ := not_upper_of_isSmall hc
    exact ⟨hupper, hhyphen, hblank⟩
  · rw [beq_iff_eq.mp hc]
    decide

/-- A capital is written small, behind a small letter or a digit with a bar before it. -/
theorem snakeFrom_capital {c : Char} (h : isUppercase c = true) (afterLower afterBar : Bool)
    (cs : List Char) : snakeFrom afterLower afterBar (c :: cs) =
      (if afterLower then ['_'] else []) ++ toLower c ++
        snakeFrom false ((toLower c).getLast? == some '_') cs := by
  have hhyphen : c ≠ '-' := by
    rintro rfl
    exact absurd h (by decide)
  have hblank : c ≠ ' ' := by
    rintro rfl
    exact absurd h (by decide)
  simp [snakeFrom, h, hhyphen, hblank]

/-- What snake case writes: a bar, a character of a capital written small, or a character of the
name that it leaves as it is. -/
theorem mem_snakeFrom {d : Char} {cs : List Char} {afterLower afterBar : Bool}
    (hd : d ∈ snakeFrom afterLower afterBar cs) :
    d = '_' ∨ (∃ c ∈ cs, isUppercase c = true ∧ d ∈ toLower c) ∨ d ∈ cs ∧ Settled d := by
  induction cs generalizing afterLower afterBar with
  | nil => cases hd
  | cons c cs ih =>
    have hrest : ∀ {afterLower afterBar}, d ∈ snakeFrom afterLower afterBar cs → d = '_' ∨
        (∃ e ∈ c :: cs, isUppercase e = true ∧ d ∈ toLower e) ∨ d ∈ c :: cs ∧ Settled d := by
      intro afterLower afterBar hd
      rcases ih hd with hbar | ⟨e, he, hlower⟩ | ⟨hmem, hsettled⟩
      · exact .inl hbar
      · exact .inr (.inl ⟨e, List.mem_cons_of_mem _ he, hlower⟩)
      · exact .inr (.inr ⟨List.mem_cons_of_mem _ hmem, hsettled⟩)
    cases hupper : isUppercase c with
    | true =>
      rw [snakeFrom_capital hupper] at hd
      rcases List.mem_append.mp hd with hd | hd
      · rcases List.mem_append.mp hd with hd | hd
        · cases afterLower with
          | true => exact .inl (List.mem_singleton.mp hd)
          | false => cases hd
        · exact .inr (.inl ⟨c, List.mem_cons_self, hupper, hd⟩)
      · exact hrest hd
    | false =>
      rw [snakeFrom, hupper] at hd
      split at hd
      · split at hd
        · exact hrest hd
        · rcases List.mem_cons.mp hd with rfl | hd
          · exact .inl rfl
          · exact hrest hd
      · next hseparator =>
        simp only [Bool.or_eq_true, beq_iff_eq, not_or] at hseparator
        rcases List.mem_cons.mp hd with rfl | hd
        · exact .inr (.inr ⟨List.mem_cons_self, hupper, hseparator⟩)
        · exact hrest hd

/-- Behind an underscore the case of a name starts anew. -/
theorem snakeFrom_append_bar (cs rest : List Char) (afterLower afterBar : Bool) :
    snakeFrom afterLower afterBar (cs ++ '_' :: rest) =
      snakeFrom afterLower afterBar cs ++ '_' :: snakeFrom false true rest := by
  have hbar : ∀ afterLower afterBar,
      snakeFrom afterLower afterBar ('_' :: rest) = '_' :: snakeFrom false true rest := by
    intro afterLower afterBar
    have hupper : isUppercase '_' = false := by decide
    have hlower : (isLowercase '_' || isAsciiDigit '_') = false := by decide
    simp [snakeFrom, hupper, hlower]
  induction cs generalizing afterLower afterBar with
  | nil => exact hbar _ _
  | cons c cs ih =>
    rw [List.cons_append, snakeFrom, snakeFrom]
    simp only [ih]
    split
    · split <;> rfl
    · split
      · simp only [List.append_assoc]
      · rfl

theorem snakeCase_of_isPlainName {name : String} (h : isPlainName name.toList = true) :
    snakeCase name = name := by
  have hall := List.all_eq_true.mp (Bool.and_eq_true_iff.mp h).2
  rw [snakeCase, snakeChars, snakeFrom_of_plain hall, String.ofList_toList]

/-! ### Pascal case -/

variable {w : List Char}

theorem isPlainWord_ne_nil (h : isPlainWord w = true) : w ≠ [] := by
  rintro rfl
  cases h

/-- A word is one piece of its snake case. -/
theorem pieces_snakeFrom_of_isPlainWord (h : isPlainWord w = true) (afterLower afterBar : Bool) :
    (pieces '_' (snakeFrom afterLower afterBar w)).filter (!·.isEmpty) = [w] := by
  have hall : w.all isSmall = true := (Bool.and_eq_true_iff.mp h).2
  have hplain : ∀ c ∈ w, (isSmall c || c == '_') = true := fun c hc => by
    rw [List.all_eq_true.mp hall c hc, Bool.true_or]
  have hne : w.isEmpty = false := by simpa using isPlainWord_ne_nil h
  rw [snakeFrom_of_plain hplain, pieces_of_notMem (ne_bar_of_mem hall)]
  simp [hne]

theorem pascalChars_of_isPlainWord (h : isPlainWord w = true) : pascalChars w = capitalize w := by
  rw [pascalChars, snakeChars, pieces_snakeFrom_of_isPlainWord h, List.flatMap_singleton]

/-- A word below a path is capitalized behind it. -/
theorem pascalChars_bar (h : isPlainWord w = true) (path : List Char) :
    pascalChars (path ++ '_' :: w) = pascalChars path ++ capitalize w := by
  rw [pascalChars, snakeChars, snakeFrom_append_bar, pieces_append_cons, List.filter_append,
    pieces_snakeFrom_of_isPlainWord h, List.flatMap_append, List.flatMap_singleton]
  rfl

/-- A capitalized word: a character that is not small, which tells the first letter, and small
ones. -/
theorem exists_capitalize (h : isPlainWord w = true) :
    ∃ u cs, capitalize w = u :: cs ∧ isSmall u = false ∧ (∀ c ∈ cs, isSmall c = true) ∧
      w = Char.ofNat (u.toNat + 32) :: cs := by
  cases w with
  | nil => cases h
  | cons c cs =>
    obtain ⟨hfirst, hall⟩ := Bool.and_eq_true_iff.mp h
    obtain ⟨u, hu, hsmall, htell⟩ := exists_toUpper (c := c) hfirst
    refine ⟨u, cs, ?_, hsmall,
      fun d hd => List.all_eq_true.mp hall d (List.mem_cons_of_mem _ hd), ?_⟩
    · rw [capitalize, hu]
      rfl
    · rw [htell]

/-- What follows small letters is told by its first character, which is not small. -/
theorem append_inj_of_small {cs cs' rest rest' : List Char} (h : ∀ c ∈ cs, isSmall c = true)
    (h' : ∀ c ∈ cs', isSmall c = true) (hrest : ∀ c ∈ rest.head?, isSmall c = false)
    (hrest' : ∀ c ∈ rest'.head?, isSmall c = false) (heq : cs ++ rest = cs' ++ rest') :
    cs = cs' ∧ rest = rest' := by
  have htake : ∀ {cs rest : List Char}, (∀ c ∈ cs, isSmall c = true) →
      (∀ c ∈ rest.head?, isSmall c = false) → (cs ++ rest).takeWhile isSmall = cs := by
    intro cs rest hcs hrest
    rw [List.takeWhile_append_of_pos hcs]
    cases rest with
    | nil => simp
    | cons c rest => simp [hrest c rfl]
  have hcs : cs = cs' := by rw [← htake h hrest, heq, htake h' hrest']
  exact ⟨hcs, List.append_cancel_left (hcs ▸ heq)⟩

/-- Capitalized words start with a character that is not small. -/
theorem head?_flatMap_capitalize {ws : List (List Char)} (h : ∀ w ∈ ws, isPlainWord w = true) :
    ∀ c ∈ (ws.flatMap capitalize).head?, isSmall c = false := by
  cases ws with
  | nil => nofun
  | cons w ws =>
    obtain ⟨u, cs, hw, hu, -⟩ := exists_capitalize (List.forall_mem_cons.mp h).1
    rw [List.flatMap_cons, hw]
    rintro c ⟨⟩
    exact hu

/-- Capitalized words behind each other can be told apart. -/
theorem flatMap_capitalize_injective {ws ws' : List (List Char)}
    (h : ∀ w ∈ ws, isPlainWord w = true) (h' : ∀ w ∈ ws', isPlainWord w = true)
    (heq : ws.flatMap capitalize = ws'.flatMap capitalize) : ws = ws' := by
  induction ws generalizing ws' with
  | nil =>
    cases ws' with
    | nil => rfl
    | cons w ws' =>
      obtain ⟨u, cs, hw, -⟩ := exists_capitalize (List.forall_mem_cons.mp h').1
      rw [List.flatMap_cons, hw] at heq
      cases heq
  | cons w ws ih =>
    obtain ⟨hw, hws⟩ := List.forall_mem_cons.mp h
    obtain ⟨u, cs, hcap, hu, hcs, htell⟩ := exists_capitalize hw
    cases ws' with
    | nil =>
      rw [List.flatMap_cons, hcap] at heq
      cases heq
    | cons w' ws' =>
      obtain ⟨hw', hws'⟩ := List.forall_mem_cons.mp h'
      obtain ⟨u', cs', hcap', hu', hcs', htell'⟩ := exists_capitalize hw'
      rw [List.flatMap_cons, List.flatMap_cons, hcap, hcap', List.cons_append, List.cons_append,
        List.cons.injEq] at heq
      obtain ⟨rfl, heq⟩ := heq
      obtain ⟨rfl, hrest⟩ := append_inj_of_small hcs hcs' (head?_flatMap_capitalize hws)
        (head?_flatMap_capitalize hws') heq
      rw [htell, htell', ih hws hws' hrest]

end TypeSketch.Text
