import TypeSketch.Proofs.Text.CaseMaps

/-!
# Text — names that stay in Pascal case

No character in Pascal case tells words apart (`not_isBreak_of_mem_pascalChars`).  A name without
such characters is written one character after another, each at its place with a capital or without
(`pascalChars_cons`), and each with one character at least.  So the name stays as it is exactly if
each of its characters does at its place (`pascalChars_eq_self_iff`).  For capitals of ASCII this is
the first place of a name and that behind a digit (`staysInPascal_iff_of_ascii`).

The name is written character by character, and none is written with nothing; so a name of the same
length leaves each character one place (`append_eq_cons_iff`), and the condition on the whole name
falls apart into conditions on places (`writtenFrom_eq_self_iff`).
-/

namespace TypeSketch.Text

variable {c d : Char} {cs xs ys : List Char} {afterLower afterBar : Bool}

/-! ### Nothing between words -/

/-- The characters of a piece are those of the text that do not cut it. -/
theorem mem_of_mem_splitWhere {p : Char → Bool} {piece : List Char} (h : piece ∈ splitWhere p cs)
    (hc : c ∈ piece) : c ∈ cs ∧ p c = false := by
  induction cs generalizing piece with
  | nil =>
    rw [splitWhere, List.mem_singleton] at h
    subst h
    cases hc
  | cons d cs ih =>
    rw [splitWhere] at h
    split at h
    · rcases List.mem_cons.mp h with rfl | h
      · cases hc
      · obtain ⟨hmem, hp⟩ := ih h hc
        exact ⟨List.mem_cons_of_mem _ hmem, hp⟩
    · next hd =>
      cases hsplit : splitWhere p cs with
      | nil => exact absurd hsplit (splitWhere_ne_nil p cs)
      | cons first others =>
        rw [hsplit] at h ih
        have hrest : ∀ {piece}, piece ∈ first :: others → c ∈ piece → c ∈ d :: cs ∧ p c = false :=
          fun h hc => ⟨List.mem_cons_of_mem _ (ih h hc).1, (ih h hc).2⟩
        rcases List.mem_cons.mp h with rfl | h
        · rcases List.mem_cons.mp hc with rfl | hc
          · exact ⟨List.mem_cons_self, by simpa using hd⟩
          · exact hrest List.mem_cons_self hc
        · exact hrest (List.mem_cons_of_mem _ h) hc

/-- A capital does not tell words apart. -/
theorem not_isBreak_of_isUppercase (h : isUppercase c = true) : isBreak c = false := by
  have hne : ∀ d, isUppercase d = false → (c == d) = false := by
    intro d hd
    rw [beq_eq_false_iff_ne]
    rintro rfl
    rw [hd] at h
    cases h
  rw [isBreak, hne '-' (by decide), hne ' ' (by decide), hne '_' (by decide)]
  rfl

/-- No character in snake case but the bar tells words apart. -/
theorem not_isBreak_of_mem_snakeFrom (hd : d ∈ snakeFrom afterLower afterBar cs) (hbar : d ≠ '_') :
    isBreak d = false := by
  rcases mem_snakeFrom hd with rfl | ⟨c, -, hupper, hlower⟩ | ⟨-, -, hhyphen, hblank⟩
  · exact absurd rfl hbar
  · exact not_isBreak_of_mem_toLower (not_isBreak_of_isUppercase hupper) hlower
  · rw [isBreak, beq_false_of_ne hhyphen, beq_false_of_ne hblank, beq_false_of_ne hbar]
    rfl

/-- No character in Pascal case tells words apart. -/
theorem not_isBreak_of_mem_pascalChars (hd : d ∈ pascalChars cs) : isBreak d = false := by
  obtain ⟨piece, hpiece, hd⟩ := List.mem_flatMap.mp hd
  have hmem : piece ∈ pieces '_' (snakeChars cs) := (List.mem_filter.mp hpiece).1
  have hall : ∀ c ∈ piece, isBreak c = false := fun c hc => by
    obtain ⟨hc, hbar⟩ := mem_of_mem_splitWhere hmem hc
    exact not_isBreak_of_mem_snakeFrom hc (by simpa using hbar)
  cases piece with
  | nil => cases hd
  | cons c piece =>
    obtain ⟨hc, hpiece⟩ := List.forall_mem_cons.mp hall
    rcases List.mem_append.mp hd with hd | hd
    · exact not_isBreak_of_mem_toUpper hc hd
    · exact hpiece d hd

/-! ### One character after another -/

/-- A character as snake case writes it. -/
def small (c : Char) : List Char := if isUppercase c then toLower c else [c]

/-- Behind the character a capital starts a word. -/
def endsLower (c : Char) : Bool := !isUppercase c && (isLowercase c || isAsciiDigit c)

/-- A character inside a name that has nothing between its words. -/
def writtenInside (afterLower : Bool) (c : Char) : List Char :=
  if isUppercase c && afterLower then capitalize (small c) else small c

/-- The characters inside such a name. -/
def writtenFrom (afterLower : Bool) : List Char → List Char
  | [] => []
  | c :: cs => writtenInside afterLower c ++ writtenFrom (endsLower c) cs

theorem small_ne_nil (c : Char) : small c ≠ [] := by
  rw [small]
  split
  · exact toLower_ne_nil c
  · exact List.cons_ne_nil _ _

/-- No other character is written with a bar. -/
theorem bar_notMem_small (h : isBreak c = false) : '_' ∉ small c := by
  intro hmem
  have hbreak : isBreak '_' = false := by
    rw [small] at hmem
    split at hmem
    · exact not_isBreak_of_mem_toLower h hmem
    · exact List.mem_singleton.mp hmem ▸ h
  exact absurd hbreak (by decide)

/-- The words of a name in snake case, capitalized. -/
def capitalizedWords (cs : List Char) : List Char :=
  ((pieces '_' cs).filter (!·.isEmpty)).flatMap capitalize

/-- The same behind the first character of a word. -/
def insideWords (cs : List Char) : List Char :=
  match pieces '_' cs with
  | [] => []
  | piece :: rest => piece ++ (rest.filter (!·.isEmpty)).flatMap capitalize

theorem insideWords_append (h : '_' ∉ xs) (cs : List Char) :
    insideWords (xs ++ cs) = xs ++ insideWords cs := by
  obtain ⟨piece, rest, hcs, happend⟩ := pieces_append_of_notMem h cs
  rw [insideWords, insideWords, hcs, happend]
  exact List.append_assoc _ _ _

/-- The first character of a word is capitalized. -/
theorem capitalizedWords_append (hne : xs ≠ []) (h : '_' ∉ xs) (cs : List Char) :
    capitalizedWords (xs ++ cs) = capitalize xs ++ insideWords cs := by
  obtain ⟨piece, rest, hcs, happend⟩ := pieces_append_of_notMem h cs
  obtain ⟨c, xs, rfl⟩ := List.exists_cons_of_ne_nil hne
  rw [capitalizedWords, insideWords, hcs, happend]
  simp [capitalize]

theorem insideWords_bar (cs : List Char) : insideWords ('_' :: cs) = capitalizedWords cs := by
  rw [insideWords, capitalizedWords, pieces, splitWhere]
  rfl

/-- A character that is no capital and tells no words apart stays in snake case. -/
theorem snakeFrom_other (hupper : isUppercase c = false) (h : isBreak c = false) :
    snakeFrom afterLower afterBar (c :: cs) =
      c :: snakeFrom (isLowercase c || isAsciiDigit c) (c == '_') cs := by
  rw [isBreak, Bool.or_eq_false_iff] at h
  rw [snakeFrom, h.1, hupper]
  rfl

/-- Inside a name each character is written at its place. -/
theorem insideWords_snakeFrom (h : ∀ c ∈ cs, isBreak c = false) :
    insideWords (snakeFrom afterLower afterBar cs) = writtenFrom afterLower cs := by
  induction cs generalizing afterLower afterBar with
  | nil => rfl
  | cons c cs ih =>
    obtain ⟨hc, hcs⟩ := List.forall_mem_cons.mp h
    have hbar := bar_notMem_small hc
    rw [writtenFrom, writtenInside]
    cases hupper : isUppercase c with
    | true =>
      rw [small, hupper, if_pos rfl] at hbar
      rw [snakeFrom_capital hupper, small, endsLower, hupper]
      cases afterLower with
      | true =>
        rw [if_pos rfl, List.append_assoc, List.singleton_append, insideWords_bar,
          capitalizedWords_append (toLower_ne_nil c) hbar, ih hcs]
        rfl
      | false =>
        rw [if_neg Bool.false_ne_true, List.nil_append, insideWords_append hbar, ih hcs]
        rfl
    | false =>
      rw [small, hupper, if_neg Bool.false_ne_true] at hbar
      rw [snakeFrom_other hupper hc, small, endsLower, hupper]
      have hlist : ∀ rest, c :: rest = [c] ++ rest := fun _ => rfl
      rw [hlist, insideWords_append hbar, ih hcs]
      rfl

/-- A name that has nothing between its words is written one character after another, the first as a
capital. -/
theorem pascalChars_cons (h : ∀ d ∈ c :: cs, isBreak d = false) :
    pascalChars (c :: cs) = capitalize (small c) ++ writtenFrom (endsLower c) cs := by
  obtain ⟨hc, hcs⟩ := List.forall_mem_cons.mp h
  have hsnake : ∃ afterBar, snakeChars (c :: cs) =
      small c ++ snakeFrom (endsLower c) afterBar cs := by
    rw [small, endsLower]
    cases hupper : isUppercase c with
    | true => exact ⟨_, snakeFrom_capital hupper false false cs⟩
    | false => exact ⟨_, snakeFrom_other hupper hc⟩
  obtain ⟨afterBar, hsnake⟩ := hsnake
  change capitalizedWords (snakeChars (c :: cs)) = _
  rw [hsnake, capitalizedWords_append (small_ne_nil c) (bar_notMem_small hc),
    insideWords_snakeFrom hcs]

/-! ### Names that stay -/

theorem capitalize_ne_nil (h : xs ≠ []) : capitalize xs ≠ [] := by
  obtain ⟨c, xs, rfl⟩ := List.exists_cons_of_ne_nil h
  rw [capitalize]
  exact List.append_ne_nil_of_left_ne_nil (toUpper_ne_nil c) xs

theorem writtenInside_ne_nil (afterLower : Bool) (c : Char) : writtenInside afterLower c ≠ [] := by
  rw [writtenInside]
  split
  · exact capitalize_ne_nil (small_ne_nil c)
  · exact small_ne_nil c

/-- The characters inside a name come to as many at least. -/
theorem length_le_writtenFrom (afterLower : Bool) (cs : List Char) :
    cs.length ≤ (writtenFrom afterLower cs).length := by
  induction cs generalizing afterLower with
  | nil => exact Nat.le_refl 0
  | cons c cs ih =>
    have hpos := List.length_pos_iff.mpr (writtenInside_ne_nil afterLower c)
    have hrest := ih (endsLower c)
    rw [writtenFrom, List.length_append, List.length_cons]
    omega

/-- Of a text that is not too short for its characters each is written with one. -/
theorem append_eq_cons_iff (hne : xs ≠ []) (h : cs.length ≤ ys.length) :
    xs ++ ys = c :: cs ↔ xs = [c] ∧ ys = cs := by
  refine ⟨fun heq => ?_, fun ⟨hxs, hys⟩ => hxs ▸ hys ▸ rfl⟩
  obtain ⟨x, xs, rfl⟩ := List.exists_cons_of_ne_nil hne
  rw [List.cons_append, List.cons.injEq] at heq
  obtain ⟨rfl, heq⟩ := heq
  have hlength := congrArg List.length heq
  rw [List.length_append] at hlength
  have hnil : xs = [] := List.length_eq_zero_iff.mp (by omega)
  subst hnil
  exact ⟨rfl, heq⟩

/-- A character behind others, as Pascal case writes it. -/
def written (front : List Char) (c : Char) : List Char :=
  match front.getLast? with
  | none => capitalize (small c)
  | some d => writtenInside (endsLower d) c

/-- A name with nothing between its words, each character of which Pascal case writes as it is. -/
def StaysInPascal (cs : List Char) : Prop :=
  (∀ c ∈ cs, isBreak c = false) ∧
    ∀ front c rest, cs = front ++ c :: rest → written front c = [c]

/-- What holds at every place of a text holds at its first one and at those behind. -/
theorem forall_places_cons {P : List Char → Char → Prop} :
    (∀ front d rest, c :: cs = front ++ d :: rest → P front d) ↔
      P [] c ∧ ∀ front d rest, cs = front ++ d :: rest → P (c :: front) d := by
  constructor
  · intro h
    refine ⟨h [] c cs rfl, fun front d rest heq => ?_⟩
    exact h (c :: front) d rest (heq ▸ rfl)
  · rintro ⟨hfirst, hrest⟩ (_ | ⟨d, front⟩) d' rest heq
    · cases heq
      exact hfirst
    · rw [List.cons_append, List.cons.injEq] at heq
      obtain ⟨rfl, heq⟩ := heq
      exact hrest front d' rest heq

theorem forall_places_nil {P : List Char → Char → Prop} :
    ∀ front d rest, [] = front ++ d :: rest → P front d := fun _ _ _ h =>
  absurd h.symm (by simp)

/-- The characters behind another one stay just if each of them does at its place. -/
theorem writtenFrom_eq_self_iff (d : Char) (cs : List Char) :
    writtenFrom (endsLower d) cs = cs ↔
      ∀ front c rest, cs = front ++ c :: rest → written (d :: front) c = [c] := by
  induction cs generalizing d with
  | nil => exact ⟨fun _ => forall_places_nil, fun _ => rfl⟩
  | cons c cs ih =>
    rw [writtenFrom, append_eq_cons_iff (writtenInside_ne_nil _ c) (length_le_writtenFrom _ cs), ih,
      forall_places_cons]
    exact Iff.rfl

/-- A name stays as it is in Pascal case exactly if each of its characters does at its place. -/
theorem pascalChars_eq_self_iff (cs : List Char) : pascalChars cs = cs ↔ StaysInPascal cs := by
  by_cases hbreak : ∀ c ∈ cs, isBreak c = false
  · rw [StaysInPascal, and_iff_right hbreak]
    cases cs with
    | nil => exact ⟨fun _ => forall_places_nil, fun _ => rfl⟩
    | cons c cs =>
      rw [pascalChars_cons hbreak, append_eq_cons_iff (capitalize_ne_nil (small_ne_nil c))
        (length_le_writtenFrom _ cs), writtenFrom_eq_self_iff, forall_places_cons]
      exact Iff.rfl
  · refine ⟨fun h => absurd (fun c hc => ?_) hbreak, fun h => absurd h.1 hbreak⟩
    exact not_isBreak_of_mem_pascalChars (h ▸ hc)

/-! ### Capitals of ASCII -/

theorem capital_of_ascii (hc : c.toNat < 128) (h : isUppercase c = true) :
    capitalize (toLower c) = [c] ∧ toLower c ≠ [c] :=
  forall_ascii (P := fun c => isUppercase c = true →
    capitalize (toLower c) = [c] ∧ toLower c ≠ [c]) (by decide) hc h

theorem toUpper_of_ascii (hc : c.toNat < 128) (h : isLowercase c = false) : toUpper c = [c] :=
  forall_ascii (P := fun c => isLowercase c = false → toUpper c = [c]) (by decide) hc h

theorem endsLower_of_ascii (hc : c.toNat < 128) (h : isLowercase c = false) :
    endsLower c = isAsciiDigit c :=
  forall_ascii (P := fun c => isLowercase c = false → endsLower c = isAsciiDigit c) (by decide) hc h

/-- An ASCII name without small letters stays as it is exactly if it has nothing between its words
and each capital comes first or behind a digit. -/
theorem staysInPascal_iff_of_ascii (hascii : ∀ c ∈ cs, c.toNat < 128)
    (hlower : ∀ c ∈ cs, isLowercase c = false) :
    StaysInPascal cs ↔ (∀ c ∈ cs, isBreak c = false) ∧
      ∀ front c rest, cs = front ++ c :: rest → isUppercase c = true →
        front = [] ∨ ∃ d ∈ front.getLast?, isAsciiDigit d = true := by
  refine and_congr_right fun _ => forall_congr' fun front => forall_congr' fun c =>
    forall_congr' fun rest => forall_congr' fun heq => ?_
  have hmem : c ∈ cs := heq ▸ List.mem_append_right _ List.mem_cons_self
  have hc := hascii c hmem
  rw [written]
  -- What is written at a place depends on the character right before it only.
  cases hlast : front.getLast? with
  | none =>
    have hfront : front = [] := List.getLast?_eq_none_iff.mp hlast
    refine ⟨fun _ _ => .inl hfront, fun _ => ?_⟩
    dsimp only
    rw [small]
    split
    · next hupper => exact (capital_of_ascii hc hupper).1
    · rw [capitalize, List.append_nil, toUpper_of_ascii hc (hlower c hmem)]
  | some d =>
    have hd : d ∈ cs := heq ▸ List.mem_append_left _ (List.mem_of_getLast? hlast)
    have hfront : front ≠ [] := by
      rintro rfl
      cases hlast
    dsimp only
    rw [writtenInside, endsLower_of_ascii (hascii d hd) (hlower d hd), small]
    cases hupper : isUppercase c with
    | true =>
      obtain ⟨hcapital, hsmall⟩ := capital_of_ascii hc hupper
      cases hdigit : isAsciiDigit d with
      | true => exact ⟨fun _ _ => .inr ⟨d, rfl, hdigit⟩, fun _ => hcapital⟩
      | false =>
        refine ⟨fun h => absurd h hsmall, fun h => ?_⟩
        rcases h rfl with h | ⟨_, ⟨⟩, h⟩
        · exact absurd h hfront
        · rw [hdigit] at h
          cases h
    | false => exact ⟨fun _ h => absurd h Bool.false_ne_true, fun _ => rfl⟩

end TypeSketch.Text
