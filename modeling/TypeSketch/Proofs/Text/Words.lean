import Mathlib.Data.List.Induction
import TypeSketch.Proofs.Text.Case

/-!
# Text — words of a name

A name of ASCII has no capitals, hyphens and blanks in snake case, so it stays as it is when it is
written so once more (`settled_of_mem_snakeFrom`).  A name made of words comes to the same, that is
to the words with bars between them, however it tells its words apart: by bars, hyphens, blanks or
capitals (`Separates`).  The crux is that a word leaves its reader behind a small letter or a digit
(`snakeFrom_append_of_small`), where a capital starts the next one.  So a word needs two letters: of
one that is a capital alone the reader would be left behind a capital.
-/

namespace TypeSketch.Text

variable {c d sep : Char} {cs w : List Char} {ws : List (List Char)} {f : List Char → List Char}

/-! ### Names of ASCII -/

theorem settled_of_mem_toLower (hc : c.toNat < 128) (h : isUppercase c = true)
    (hd : d ∈ toLower c) : Settled d := by
  have hall := forall_ascii (P := fun c => isUppercase c = true →
    (toLower c).all (fun d => decide (Settled d)) = true) (by decide) hc h
  exact of_decide_eq_true (List.all_eq_true.mp hall d hd)

/-- Snake case leaves no character of ASCII that it would change. -/
theorem settled_of_mem_snakeFrom {afterLower afterBar : Bool} (h : ∀ c ∈ cs, c.toNat < 128)
    (hd : d ∈ snakeFrom afterLower afterBar cs) : Settled d := by
  rcases mem_snakeFrom hd with rfl | ⟨c, hc, hupper, hlower⟩ | ⟨-, hsettled⟩
  · decide
  · exact settled_of_mem_toLower (h c hc) hupper hlower
  · exact hsettled

/-! ### Words behind each other -/

/-- A word that can be told in every spelling: a small letter of ASCII, and behind it small letters
or digits, one at least. -/
def IsWord (w : List Char) : Prop := isPlainWord w = true ∧ 2 ≤ w.length

instance : DecidablePred IsWord := fun _ => inferInstanceAs (Decidable (_ ∧ _))

/-- A letter of a word leaves its reader behind a small letter or a digit, and behind no bar. -/
theorem flags_of_isSmall (h : isSmall c = true) :
    (isLowercase c || isAsciiDigit c) = true ∧ (c == '_') = false :=
  forall_ascii (P := fun c => isSmall c = true →
      (isLowercase c || isAsciiDigit c) = true ∧ (c == '_') = false)
    (by decide) (toNat_lt_of_isSmall h) h

/-- Small letters and digits stay before whatever follows. -/
theorem snakeFrom_append_of_small (hne : w ≠ []) (h : w.all isSmall = true)
    (afterLower afterBar : Bool) (rest : List Char) :
    snakeFrom afterLower afterBar (w ++ rest) = w ++ snakeFrom true false rest := by
  induction w generalizing afterLower afterBar with
  | nil => exact absurd rfl hne
  | cons c w ih =>
    rw [List.all_cons, Bool.and_eq_true_iff] at h
    obtain ⟨hc, hw⟩ := h
    obtain ⟨hupper, hhyphen, hblank, -⟩ := not_upper_of_isSmall hc
    obtain ⟨hlower, hbar⟩ := flags_of_isSmall hc
    have hstep : snakeFrom afterLower afterBar (c :: (w ++ rest)) =
        c :: snakeFrom true false (w ++ rest) := by
      rw [← hlower, ← hbar]
      simp [snakeFrom, hupper, hhyphen, hblank]
    rw [List.cons_append, hstep, List.cons_append]
    cases w with
    | nil => rfl
    | cons d w => rw [ih (List.cons_ne_nil d w) hw]

theorem IsWord.ne_nil (h : IsWord w) : w ≠ [] := isPlainWord_ne_nil h.1

theorem IsWord.all_isSmall (h : IsWord w) : w.all isSmall = true := (Bool.and_eq_true_iff.mp h.1).2

/-- The capital of a small letter comes to the letter again. -/
theorem exists_capital (h : isAsciiLower c = true) :
    ∃ u, toUpper c = [u] ∧ isUppercase u = true ∧ toLower u = [c] ∧ c ≠ '_' := by
  refine ⟨Char.ofNat (c.toNat - 32), ?_⟩
  exact forall_ascii (P := fun c => isAsciiLower c = true →
    toUpper c = [Char.ofNat (c.toNat - 32)] ∧ isUppercase (Char.ofNat (c.toNat - 32)) = true ∧
      toLower (Char.ofNat (c.toNat - 32)) = [c] ∧ c ≠ '_')
    (by decide) (toNat_lt_of_isSmall (isSmall_of_isAsciiLower h)) h

/-- A capitalized word is written small, behind a small letter or a digit with a bar before it. -/
theorem snakeFrom_append_capitalize (h : IsWord w) (afterLower afterBar : Bool)
    (rest : List Char) : snakeFrom afterLower afterBar (capitalize w ++ rest) =
      (if afterLower then ['_'] else []) ++ (w ++ snakeFrom true false rest) := by
  obtain ⟨hplain, hlength⟩ := h
  match w with
  | c :: d :: w =>
    obtain ⟨hfirst, hall⟩ := Bool.and_eq_true_iff.mp hplain
    rw [List.all_cons, Bool.and_eq_true_iff] at hall
    obtain ⟨u, hcapital, hupper, hlower, hbar⟩ := exists_capital (c := c) hfirst
    have hlast : ([c].getLast? == some '_') = false := by simpa using hbar
    have hrest := snakeFrom_append_of_small (List.cons_ne_nil d w) hall.2 false false rest
    rw [capitalize, hcapital, List.append_assoc, List.singleton_append, snakeFrom_capital hupper,
      hlower, hlast, hrest, List.append_assoc]
    rfl

/-- Words that are written so behind others are told apart in snake case. -/
def Separates (f : List Char → List Char) : Prop :=
  ∀ w, IsWord w → ∀ rest,
    snakeFrom true false (f w ++ rest) = '_' :: (w ++ snakeFrom true false rest)

/-- A bar, a hyphen and a blank tell words apart. -/
theorem separates_cons (h : sep = '_' ∨ sep = '-' ∨ sep = ' ') : Separates (sep :: ·) := by
  intro w hw rest
  have hbar : ∃ afterBar, snakeFrom true false (sep :: (w ++ rest)) =
      '_' :: snakeFrom false afterBar (w ++ rest) := by
    rcases h with rfl | rfl | rfl <;> exact ⟨_, rfl⟩
  obtain ⟨afterBar, hbar⟩ := hbar
  rw [List.cons_append, hbar, snakeFrom_append_of_small hw.ne_nil hw.all_isSmall]

theorem separates_capitalize : Separates capitalize := fun _ hw rest =>
  snakeFrom_append_capitalize hw true false rest

/-- Words that are told apart come to words with bars before each. -/
theorem Separates.flatMap (hf : Separates f) (h : ∀ w ∈ ws, IsWord w) :
    snakeFrom true false (ws.flatMap f) = ws.flatMap ('_' :: ·) := by
  induction ws with
  | nil => rfl
  | cons w ws ih =>
    obtain ⟨hw, hws⟩ := List.forall_mem_cons.mp h
    rw [List.flatMap_cons, hf w hw, ih hws]
    rfl

/-- In Pascal case, words with bars between them are capitalized. -/
theorem pascalChars_words (hw : isPlainWord w = true) (hws : ∀ w ∈ ws, isPlainWord w = true) :
    pascalChars (w ++ ws.flatMap ('_' :: ·)) = capitalize w ++ ws.flatMap capitalize := by
  induction ws using List.reverseRecOn with
  | nil => simp [pascalChars_of_isPlainWord hw]
  | append_singleton ws v ih =>
    obtain ⟨hws, hv⟩ := List.forall_mem_append.mp hws
    have hlast : w ++ (ws ++ [v]).flatMap ('_' :: ·) = w ++ ws.flatMap ('_' :: ·) ++ '_' :: v := by
      simp
    rw [hlast, pascalChars_bar (hv v List.mem_cons_self), ih hws, List.flatMap_append,
      List.flatMap_singleton, List.append_assoc]

/-! ### Spellings of words -/

/-- The words with capitals in front, behind each other. -/
def inPascalCase (words : List String) : String :=
  String.ofList ((words.map String.toList).flatMap capitalize)

/-- The same, with no capital in front of the first. -/
def inCamelCase : List String → String
  | [] => ""
  | w :: words => w ++ inPascalCase words

/-- Joined words are the first, and then each with the separator before it. -/
theorem toList_joinWith (sep w : String) (words : List String) :
    (joinWith sep (w :: words)).toList =
      w.toList ++ (words.map String.toList).flatMap (sep.toList ++ ·) := by
  induction words generalizing w with
  | nil => simp [joinWith]
  | cons v words ih =>
    rw [joinWith_cons_cons, String.toList_append, String.toList_append, ih, List.map_cons,
      List.flatMap_cons, List.append_assoc, List.append_assoc]

/-- Words of which those behind the first are told apart come to words with bars between them. -/
theorem Separates.snakeCase {name w : String} {words : List String} (hf : Separates f)
    (h : ∀ v ∈ w :: words, IsWord v.toList)
    (hname : name.toList = w.toList ++ (words.map String.toList).flatMap f ∨
      name.toList = capitalize w.toList ++ (words.map String.toList).flatMap f) :
    snakeCase name = joinWith "_" (w :: words) := by
  obtain ⟨hw, hwords⟩ := List.forall_mem_cons.mp h
  have hchars : snakeChars name.toList =
      w.toList ++ snakeFrom true false ((words.map String.toList).flatMap f) := by
    rcases hname with hname | hname
    · rw [hname, snakeChars, snakeFrom_append_of_small hw.ne_nil hw.all_isSmall]
    · rw [hname, snakeChars, snakeFrom_append_capitalize hw]
      rfl
  rw [hf.flatMap (List.forall_mem_map.mpr hwords)] at hchars
  have hjoined := toList_joinWith "_" w words
  exact String.toList_injective ((String.toList_ofList).trans (hchars.trans hjoined.symm))

/-- **Snake case.**  A name of ASCII has no capitals, hyphens and blanks in snake case, and stays as
it is when it is written so again.  Words come to the words with bars between them, whether bars,
hyphens or blanks are between them or each word starts with a capital, with or without the first;
and so snake case takes Pascal case back. -/
theorem snakeCase_spellings :
    (∀ name : String, (∀ c ∈ name.toList, c.toNat < 128) →
      (∀ c ∈ (snakeCase name).toList, isUppercase c = false ∧ c ≠ '-' ∧ c ≠ ' ') ∧
      snakeCase (snakeCase name) = snakeCase name) ∧
    ∀ words : List String, words ≠ [] → (∀ w ∈ words, IsWord w.toList) →
      (∀ sep ∈ ["_", "-", " "], snakeCase (joinWith sep words) = joinWith "_" words) ∧
      snakeCase (inCamelCase words) = joinWith "_" words ∧
      snakeCase (inPascalCase words) = joinWith "_" words ∧
      snakeCase (pascalCase (joinWith "_" words)) = joinWith "_" words := by
  constructor
  · intro name hascii
    -- Nothing that snake case writes would be changed by it.
    have hsettled : ∀ c ∈ (snakeCase name).toList, Settled c := by
      rw [snakeCase, String.toList_ofList]
      exact fun c hc => settled_of_mem_snakeFrom hascii hc
    refine ⟨hsettled, ?_⟩
    rw [snakeCase, snakeChars, snakeFrom_of_settled hsettled, String.ofList_toList]
  · rintro (_ | ⟨w, words⟩) hne hwords
    · exact absurd rfl hne
    have hpascal : snakeCase (inPascalCase (w :: words)) = joinWith "_" (w :: words) :=
      separates_capitalize.snakeCase hwords (.inr (by simp [inPascalCase]))
    refine ⟨fun sep hsep => ?_, separates_capitalize.snakeCase hwords (.inl ?_), hpascal, ?_⟩
    · obtain ⟨c, hc, hlist⟩ : ∃ c, (c = '_' ∨ c = '-' ∨ c = ' ') ∧ sep.toList = [c] := by
        simp only [List.mem_cons, List.not_mem_nil, or_false] at hsep
        rcases hsep with rfl | rfl | rfl
        · exact ⟨'_', .inl rfl, rfl⟩
        · exact ⟨'-', .inr (.inl rfl), rfl⟩
        · exact ⟨' ', .inr (.inr rfl), rfl⟩
      refine (separates_cons hc).snakeCase hwords (.inl ?_)
      rw [toList_joinWith, hlist]
      rfl
    · simp [inCamelCase, inPascalCase]
    · have hplain : ∀ v ∈ w :: words, isPlainWord v.toList = true := fun v hv => (hwords v hv).1
      obtain ⟨hw, hws⟩ := List.forall_mem_cons.mp hplain
      -- Words with bars are capitalized in Pascal case, which leads back to capitals.
      have hcapitals : pascalCase (joinWith "_" (w :: words)) = inPascalCase (w :: words) := by
        rw [pascalCase, toList_joinWith, inPascalCase, List.map_cons, List.flatMap_cons]
        exact congrArg String.ofList (pascalChars_words hw (List.forall_mem_map.mpr hws))
      rw [hcapitals, hpascal]

/-- A name with capitals, a hyphen and a blank, and three words. -/
theorem snakeCase_spellings_orderId :
    (∀ c ∈ "Order-ID 9".toList, c.toNat < 128) ∧
    snakeCase (snakeCase "Order-ID 9") = snakeCase "Order-ID 9" ∧
    (∀ w ∈ ["order", "id2", "at"], IsWord w.toList) ∧
    snakeCase "order-id2-at" = "order_id2_at" ∧ snakeCase "orderId2At" = "order_id2_at" ∧
    snakeCase "OrderId2At" = "order_id2_at" ∧
    snakeCase (pascalCase "order_id2_at") = "order_id2_at" := by
  have hascii : ∀ c ∈ "Order-ID 9".toList, c.toNat < 128 := by simp
  have hwords : ∀ w ∈ ["order", "id2", "at"], IsWord w.toList := by decide
  obtain ⟨hseparated, hcamel, hpascal, hback⟩ :=
    snakeCase_spellings.2 ["order", "id2", "at"] nofun hwords
  exact ⟨hascii, (snakeCase_spellings.1 _ hascii).2, hwords, hseparated "-" (by decide), hcamel,
    hpascal, hback⟩

/-- A word that is one letter is lost behind a capital. -/
example : snakeCase (inPascalCase ["a", "b"]) = "ab" := by decide

end TypeSketch.Text
