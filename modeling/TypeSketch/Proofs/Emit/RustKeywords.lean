import TypeSketch.Emit.RustName
import TypeSketch.Proofs.Text.CaseMaps

/-!
# Rust — names of fields and reserved words

Whether a name is a keyword is looked at before its case is changed.  So a field gets a reserved
word for its name, not as a raw identifier, just when the field is named by that word with capitals
in front (`fieldName_eq_reserved_iff`): `If` and `TYPE` become `if` and `type`.  `Self` alone is a
keyword as it is, and no name becomes `Self`, since snake case has no capitals of ASCII
(`not_asciiUpper_of_mem_snakeFrom`).

Of a word of small letters there are two sorts of names that snake case takes to it: the word, and
the word with its first letters raised (`snakeChars_eq_iff`). Behind the first small letter no
capital can come, since it would bring a bar (`eq_of_snakeFrom_afterLower`), and in front all
letters may be capitals (`exists_capitals_of_snakeFrom`).
-/

namespace TypeSketch

namespace Text

/-! ### Words in snake case -/

variable {cs w : List Char} {c d : Char}

/-- A word with capitals in front, one at least, for its first letters. -/
def Raised (cs w : List Char) : Prop :=
  ∃ capitals rest, capitals ≠ [] ∧ (∀ c ∈ capitals, isUppercase c = true) ∧
    cs = capitals ++ rest ∧ w = capitals.flatMap toLower ++ rest

theorem isLowercase_of_isAsciiLower (h : isAsciiLower c = true) : isLowercase c = true := by
  rw [isLowercase, if_pos (toNat_lt_of_isSmall (isSmall_of_isAsciiLower h)), h]

theorem ne_bar_of_isAsciiLower (h : isAsciiLower c = true) : c ≠ '_' :=
  (not_upper_of_isSmall (isSmall_of_isAsciiLower h)).2.2.2

theorem not_endsBar_of_isAsciiLower (h : ∀ c ∈ cs, isAsciiLower c = true) :
    (cs.getLast? == some '_') = false := by
  rw [beq_eq_false_iff_ne]
  exact fun hbar => ne_bar_of_isAsciiLower (h _ (List.mem_of_getLast? hbar)) rfl

/-- A capital is no digit. -/
theorem not_digit_of_isUppercase (h : isUppercase c = true) : isAsciiDigit c = false := by
  by_cases hascii : c.toNat < 128
  · exact forall_ascii (P := fun c => isUppercase c = true → isAsciiDigit c = false) (by decide)
      hascii h
  · have hlt : ¬ c ≤ '9' := fun hle => hascii (Nat.lt_of_le_of_lt hle (by decide))
    rw [isAsciiDigit, decide_eq_false hlt, Bool.and_false]

/-- Behind a small letter a word of small letters comes of itself only: a capital would bring a
bar. -/
theorem eq_of_snakeFrom_afterLower (h : snakeFrom true false cs = w)
    (hw : ∀ c ∈ w, isAsciiLower c = true) : cs = w := by
  induction cs generalizing w with
  | nil => exact h
  | cons c cs ih =>
    have hbar : ∀ rest, '_' :: rest ≠ w := by
      rintro rest rfl
      exact ne_bar_of_isAsciiLower (hw _ List.mem_cons_self) rfl
    rw [snakeFrom] at h
    split at h
    · exact absurd h (hbar _)
    split at h
    · exact absurd h (hbar _)
    · subst h
      obtain ⟨hc, hrest⟩ := List.forall_mem_cons.mp hw
      rw [isLowercase_of_isAsciiLower hc, Bool.true_or,
        beq_false_of_ne (ne_bar_of_isAsciiLower hc)] at hrest ⊢
      rw [← ih rfl hrest]

/-- A word of small letters comes of capitals and the rest of it. -/
theorem exists_capitals_of_snakeFrom (h : snakeFrom false false cs = w)
    (hw : ∀ c ∈ w, isAsciiLower c = true) :
    ∃ capitals rest, (∀ c ∈ capitals, isUppercase c = true) ∧ cs = capitals ++ rest ∧
      w = capitals.flatMap toLower ++ rest := by
  induction cs generalizing w with
  | nil => exact ⟨[], [], nofun, rfl, h.symm⟩
  | cons c cs ih =>
    cases hupper : isUppercase c with
    | true =>
      rw [snakeFrom_capital hupper, if_neg Bool.false_ne_true, List.nil_append] at h
      subst h
      obtain ⟨hsmall, hrest⟩ := List.forall_mem_append.mp hw
      rw [not_endsBar_of_isAsciiLower hsmall] at hrest ⊢
      obtain ⟨capitals, rest, hcapitals, rfl, heq⟩ := ih rfl hrest
      refine ⟨c :: capitals, rest, List.forall_mem_cons.mpr ⟨hupper, hcapitals⟩, rfl, ?_⟩
      rw [heq, List.flatMap_cons, List.append_assoc]
    | false =>
      rw [snakeFrom, hupper, if_neg Bool.false_ne_true] at h
      split at h
      · -- a separator would leave a bar
        subst h
        exact absurd rfl (ne_bar_of_isAsciiLower (hw _ List.mem_cons_self))
      · -- from the first letter that is small on, the word is as it stands
        subst h
        obtain ⟨hc, hrest⟩ := List.forall_mem_cons.mp hw
        rw [isLowercase_of_isAsciiLower hc, Bool.true_or,
          beq_false_of_ne (ne_bar_of_isAsciiLower hc)] at hrest ⊢
        refine ⟨[], c :: cs, nofun, rfl, ?_⟩
        rw [← eq_of_snakeFrom_afterLower rfl hrest]
        rfl

/-- Capitals in front that come to small letters are written without bars. -/
theorem snakeFrom_of_capitals {capitals rest : List Char}
    (hcapitals : ∀ c ∈ capitals, isUppercase c = true)
    (hw : ∀ c ∈ capitals.flatMap toLower ++ rest, isAsciiLower c = true) :
    snakeFrom false false (capitals ++ rest) = capitals.flatMap toLower ++ rest := by
  induction capitals with
  | nil =>
    refine snakeFrom_of_plain (fun c hc => ?_) _ _
    rw [isSmall_of_isAsciiLower (hw c hc), Bool.true_or]
  | cons c capitals ih =>
    obtain ⟨hupper, hcapitals⟩ := List.forall_mem_cons.mp hcapitals
    rw [List.flatMap_cons, List.append_assoc] at hw ⊢
    obtain ⟨hsmall, hrest⟩ := List.forall_mem_append.mp hw
    rw [List.cons_append, snakeFrom_capital hupper, not_endsBar_of_isAsciiLower hsmall,
      ih hcapitals hrest]
    rfl

/-- Snake case makes a word of small letters of the word itself, and of the word with capitals in
front. -/
theorem snakeChars_eq_iff (hw : ∀ c ∈ w, isAsciiLower c = true) :
    snakeChars cs = w ↔ cs = w ∨ Raised cs w := by
  constructor
  · intro h
    obtain ⟨capitals, rest, hcapitals, rfl, heq⟩ := exists_capitals_of_snakeFrom h hw
    cases capitals with
    | nil => exact .inl heq.symm
    | cons c capitals => exact .inr ⟨c :: capitals, rest, nofun, hcapitals, rfl, heq⟩
  · rintro (rfl | ⟨capitals, rest, -, hcapitals, rfl, rfl⟩)
    · exact @snakeFrom_of_capitals [] _ nofun hw
    · exact snakeFrom_of_capitals hcapitals hw

/-! ### No capitals in snake case -/

theorem not_asciiUpper_of_ge (h : 91 ≤ c.toNat) : isAsciiUpper c = false := by
  have hlt : ¬ c ≤ 'Z' := fun hle => absurd (Nat.le_trans h hle) (by decide)
  rw [isAsciiUpper, decide_eq_false hlt, Bool.and_false]

/-- A small letter is no capital of ASCII. -/
theorem not_asciiUpper_of_mem_toLower (hd : d ∈ toLower c) : isAsciiUpper d = false := by
  rw [toLower] at hd
  split at hd
  · next hascii =>
    have hall := forall_ascii (P := fun c => (if isAsciiUpper c then [Char.ofNat (c.toNat + 32)]
      else [c]).all (fun d => isAsciiUpper d == false) = true) (by decide) hascii
    exact eq_of_beq (List.all_eq_true.mp hall d hd)
  · next hascii =>
    -- all runs of the table come to numbers behind `Z`
    have hruns : ∀ run ∈ toLowerRuns, 91 ≤ (run.1 : Int) + run.2.2.2 := by decide +kernel
    refine forall_mem_mapCase (P := fun d => isAsciiUpper d = false) (by decide) ?_
      (not_asciiUpper_of_ge (by omega)) d hd
    intro run hrun n hfirst hlast
    have hge := hruns run hrun
    refine forall_ofNat (P := fun d => isAsciiUpper d = false) (fun d hd => ?_) (by decide)
    exact not_asciiUpper_of_ge (by omega)

theorem not_asciiUpper_of_not_isUppercase (h : isUppercase c = false) :
    isAsciiUpper c = false := by
  by_cases hascii : c.toNat < 128
  · rwa [isUppercase, if_pos hascii] at h
  · exact not_asciiUpper_of_ge (by omega)

/-- No character in snake case is a capital of ASCII. -/
theorem not_asciiUpper_of_mem_snakeFrom {afterLower afterBar : Bool}
    (hd : d ∈ snakeFrom afterLower afterBar cs) : isAsciiUpper d = false := by
  rcases mem_snakeFrom hd with rfl | ⟨c, -, -, hlower⟩ | ⟨-, hupper, -⟩
  · decide
  · exact not_asciiUpper_of_mem_toLower hlower
  · exact not_asciiUpper_of_not_isUppercase hupper

end Text

/-! ### Names of fields -/

namespace Rust

open Text (isAsciiDigit isAsciiLower isAsciiUpper isUppercase Raised)

/-- Words that must not stand as the name of a field. -/
def reserved : List String := "type" :: keywords

variable {name word : String}

theorem isAsciiLower_of_mem_reserved (h : word ∈ reserved) (hself : word ≠ "Self") :
    ∀ c ∈ word.toList, isAsciiLower c = true := by
  have hall : ∀ word ∈ reserved, word ≠ "Self" → word.toList.all isAsciiLower = true := by decide
  exact List.all_eq_true.mp (hall word h hself)

/-- `Self` alone is a reserved word with a capital. -/
theorem eq_self_of_mem_reserved (h : word ∈ reserved)
    (hupper : (word.toList.head?.map isUppercase).getD false = true) : word = "Self" := by
  have hall : ∀ word ∈ reserved, (word.toList.head?.map isUppercase).getD false = true →
      word = "Self" := by decide
  exact hall word h hupper

/-- Nothing that is written in front of a name is in a reserved word. -/
theorem notMem_of_mem_reserved (h : word ∈ reserved) : '_' ∉ word.toList ∧ '#' ∉ word.toList := by
  have hall : ∀ word ∈ reserved, '_' ∉ word.toList ∧ '#' ∉ word.toList := by decide
  exact hall word h

/-- A reserved word with capitals in front becomes the word. -/
theorem fieldName_of_raised (h : word ∈ reserved) (hself : word ≠ "Self") (hname : name ≠ "Self")
    (hraised : Raised name.toList word.toList) : fieldName name = word := by
  have hsnake : Text.snakeCase name = word := by
    rw [Text.snakeCase, (Text.snakeChars_eq_iff (isAsciiLower_of_mem_reserved h hself)).mpr
      (.inr hraised), String.ofList_toList]
  obtain ⟨_ | ⟨c, capitals⟩, rest, hne, hcapitals, hcs, -⟩ := hraised
  · exact absurd rfl hne
  have hupper : isUppercase c = true := hcapitals c List.mem_cons_self
  have hdigit : (name.toList.head?.map isAsciiDigit).getD false = false := by
    rw [hcs]
    exact Text.not_digit_of_isUppercase hupper
  have hfresh : name ∉ reserved := fun hmem => hname (eq_self_of_mem_reserved hmem (by
    rw [hcs]
    exact hupper))
  rw [reserved, List.mem_cons, not_or] at hfresh
  obtain ⟨htype, hkeyword⟩ := hfresh
  rw [fieldName, hdigit, if_neg Bool.false_ne_true, if_neg (by simpa using htype),
    if_neg (by simpa using hkeyword), hsnake]

/-- What becomes a reserved word is the word with capitals in front. -/
theorem raised_of_fieldName (h : word ∈ reserved) (heq : fieldName name = word) :
    word ≠ "Self" ∧ name ≠ "Self" ∧ Raised name.toList word.toList := by
  obtain ⟨hbar, hmark⟩ := notMem_of_mem_reserved h
  rw [fieldName] at heq
  -- The three special spellings are no reserved words, so that the name went through snake case.
  split at heq
  · subst heq
    exact absurd (by simp) hbar
  split at heq
  · subst heq
    exact absurd h (by decide)
  split at heq
  · subst heq
    exact absurd (by simp) hmark
  next htype hkeyword =>
    have hchars : Text.snakeChars name.toList = word.toList := by
      rw [← heq, Text.snakeCase, String.toList_ofList]
    have hself : word ≠ "Self" := by
      rintro rfl
      have hmem : 'S' ∈ Text.snakeChars name.toList := by
        rw [hchars]
        decide
      exact absurd (Text.not_asciiUpper_of_mem_snakeFrom hmem) (by decide)
    have hfresh : name ∉ reserved := by
      rw [reserved, List.mem_cons, not_or]
      exact ⟨by simpa using htype, by simpa using hkeyword⟩
    refine ⟨hself, fun hname => hfresh (hname ▸ by decide), ?_⟩
    rcases (Text.snakeChars_eq_iff (isAsciiLower_of_mem_reserved h hself)).mp hchars with
      hsame | hraised
    · exact absurd (String.toList_injective hsame ▸ h) hfresh
    · exact hraised

/-- A field gets a reserved word for its name just when it is named by that word with capitals in
front; `Self` is a keyword as it is, and no field is named so. -/
theorem fieldName_eq_reserved_iff (h : word ∈ reserved) :
    fieldName name = word ↔
      word ≠ "Self" ∧ name ≠ "Self" ∧ Raised name.toList word.toList :=
  ⟨raised_of_fieldName h, fun ⟨hself, hname, hraised⟩ => fieldName_of_raised h hself hname hraised⟩

/-- `TYpe` is `type` with two capitals in front. -/
theorem fieldName_of_raisedType :
    "type" ∈ reserved ∧ Raised "TYpe".toList "type".toList ∧ fieldName "TYpe" = "type" := by
  have hraised : Raised "TYpe".toList "type".toList :=
    ⟨['T', 'Y'], ['p', 'e'], nofun,
      List.forall_mem_cons.mpr ⟨by decide, List.forall_mem_singleton.mpr (by decide)⟩, rfl, rfl⟩
  exact ⟨by decide, hraised,
    (fieldName_eq_reserved_iff (by decide)).mpr ⟨by decide, by decide, hraised⟩⟩

/-- `If` becomes the keyword `if`. -/
theorem fieldName_not_unreserved : ¬ ∀ name, fieldName name ∉ reserved := fun h =>
  h "If" (by decide)

end Rust

end TypeSketch
