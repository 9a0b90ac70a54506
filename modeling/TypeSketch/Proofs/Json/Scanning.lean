import TypeSketch.Json.Reader
import TypeSketch.Proofs.Draft

/-!
# JSON texts — scanning

A text is scanned from left to right, and a part of it can be looked at by itself: what is read of
it (`Scan.read`) and where the scan stands after it (`Scan.after`).  A text that holds a value has
only sound tokens (`isSound_of_parse`), and then the scan is easy to follow (`Scan.Sound.moves`): it
is inside a text from a quotation mark to the next one that no backslash escapes, and there is no
slash outside.  No text goes on beyond a line (`Scan.Sound.outside_of_lineEnd`), and where no token
is left open a text can be cut at a blank (`Scan.Complete.tokensFrom_append`).
-/

namespace TypeSketch.Json

/-! ### Sound tokens -/

/-- The token is neither flawed nor a lapse. -/
def Token.isSound : Token → Bool
  | .lapse | .flawedText _ | .flawed _ => false
  | _ => true

/-- A strict reader takes sound tokens only. -/
theorem Reader.isSound_of_step {reader next : Reader} {t : Token}
    (h : reader.step true t = .ok next) : t.isSound = true := by
  obtain ⟨stack, place⟩ := reader
  cases t with
  | lapse => simp [step] at h
  | flawed flaw | flawedText flaw =>
    rcases stack with _ | ⟨⟨items⟩ | ⟨members, name⟩, rest⟩ <;> cases place <;>
      simp [step, startValue, readName] at h
  | _ => rfl

/-- A text that holds a value has sound tokens only. -/
theorem isSound_of_parse {text : String} {v : Json} (h : parse text = .ok v) :
    ∀ t ∈ tokens text, t.isSound = true := by
  obtain ⟨reader, hread, -⟩ := Except.bind_eq_ok.mp h
  intro t ht
  obtain ⟨before, after, hstep⟩ := Except.foldlM_eq_ok hread t ht
  exact Reader.isSound_of_step hstep

/-! ### Parts of a text -/

/-- Where the scan stands after some characters. -/
def Scan.after : Scan → List Char → Scan
  | scan, [] => scan
  | scan, c :: cs => (scan.step c).1.after cs

/-- The tokens that are complete within some characters. -/
def Scan.read : Scan → List Char → List Token
  | _, [] => []
  | scan, c :: cs => (scan.step c).2 ++ (scan.step c).1.read cs

/-- The tokens of a text are those that are complete within a part, and those from there on. -/
theorem tokensFrom_append (scan : Scan) (cs rest : List Char) :
    tokensFrom scan (cs ++ rest) = scan.read cs ++ tokensFrom (scan.after cs) rest := by
  induction cs generalizing scan with
  | nil => rfl
  | cons c cs ih => simp only [List.cons_append, tokensFrom, Scan.read, Scan.after, ih,
      List.append_assoc]

/-- The tokens of a text are those that are complete within it, and the last one. -/
theorem tokensFrom_eq (scan : Scan) (cs : List Char) :
    tokensFrom scan cs = scan.read cs ++ (scan.after cs).finish := by
  have happend := tokensFrom_append scan cs []
  rwa [List.append_nil] at happend

/-- The rest of the text has sound tokens only. -/
def Scan.Sound (scan : Scan) (cs : List Char) : Prop :=
  ∀ t ∈ tokensFrom scan cs, t.isSound = true

theorem Scan.Sound.append {scan : Scan} {cs rest : List Char} (h : scan.Sound (cs ++ rest)) :
    (scan.after cs).Sound rest := by
  intro t ht
  rw [Sound, tokensFrom_append] at h
  exact h t (List.mem_append_right _ ht)

/-! ### Inside and outside of texts -/

namespace Scan

variable {scan : Scan} {c : Char} {cs rest : List Char}

/-- The scan stands inside a text. -/
def inText : Scan → Bool
  | .text _ | .escape _ | .code .. | .pairSlash .. | .pairMark .. => true
  | _ => false

/-- The scan stands behind a backslash in a text. -/
def escaped : Scan → Bool
  | .escape _ | .pairMark .. => true
  | _ => false

/-- The scan has not gone wrong: it goes on, and the places of a code are digits so far. What is
left of a word is small letters. -/
def isLive : Scan → Bool
  | .stopped => false
  | .word left _ => left.all Text.isAsciiLower
  | .code _ _ _ digits _ => digits
  | _ => true

/-- Inside a text or not, and behind a backslash or not, after one more character. -/
def follow (inText escaped : Bool) (c : Char) : Bool × Bool :=
  if inText then
    if escaped then (true, false)
    else if c == '\\' then (true, true)
    else (c != '"', false)
  else (c == '"', false)

/-- What one more character of a sound text does to a scan. -/
structure Moves (scan : Scan) (c : Char) (next : Scan) : Prop where
  live : next.isLive = true
  noSlash : scan.inText = false → c ≠ '/'
  follow : (next.inText, next.escaped) = follow scan.inText scan.escaped c

theorem Sound.head (h : scan.Sound (c :: rest)) : ∀ t ∈ (scan.step c).2, t.isSound = true :=
  fun t ht => h t (List.mem_append_left _ ht)

theorem Sound.tail (h : scan.Sound (c :: rest)) : (scan.step c).1.Sound rest :=
  fun t ht => h t (List.mem_append_right _ ht)

/-- A code with a place that is no digit never comes out sound. -/
theorem not_sound_of_code {done : Option (List Char)} {high : Option Nat} {bytes value : Nat} :
    ¬ (Scan.code done high bytes false value).Sound cs := by
  induction cs generalizing bytes value with
  | nil =>
    intro h
    have hflaw : Token.isSound (.flawedText .unfinished) = true := h _ (List.mem_singleton_self _)
    cases hflaw
  | cons c cs ih =>
    intro h
    have hstep : ∃ value', (Scan.code done high bytes false value).step c =
        if bytes + c.utf8Size ≥ 4 then (.stopped, [.flawedText .malformed])
        else (.code done high (bytes + c.utf8Size) false value', []) := by
      cases hd : hexValue? c with
      | none => exact ⟨value, by simp [step, hd, endCode]⟩
      | some d => exact ⟨value * 16 + d, by simp [step, hd, endCode]⟩
    obtain ⟨value', hstep⟩ := hstep
    have hhead := h.head
    have htail := h.tail
    rw [hstep] at hhead htail
    split at hhead
    · simp [Token.isSound] at hhead
    · rw [if_neg ‹_›] at htail
      exact ih htail

/-- What comes of the first character of a token that is no text. -/
structure Opened (r : Scan × List Token) : Prop where
  outside : r.1.inText = false
  unescaped : r.1.escaped = false
  live_or_flawed : r.1.isLive = true ∨ r.2 = [.flawed .malformed]

/-- The first character of a token that is no text leaves the scan outside of texts. -/
theorem opened_start (hq : c ≠ '"') : Opened (start c) := by
  have hq' : ¬ (c == '"') = true := by simpa using hq
  unfold start
  rw [if_neg hq']
  repeat' refine iteInduction (motive := Opened) (fun _ => ?_) fun _ => ?_
  all_goals exact ⟨rfl, rfl, by simp [isLive, Text.isAsciiLower]⟩

/-- A sound token starts with no slash, and a quotation mark starts a text. -/
theorem start_moves (h : ∀ t ∈ (start c).2, t.isSound = true) :
    (start c).1.isLive = true ∧ c ≠ '/' ∧ (start c).1.inText = (c == '"') ∧
      (start c).1.escaped = false := by
  have hslash : c ≠ '/' := by
    rintro rfl
    have hflaw : Token.isSound (.flawed .malformed) = true := h _ (List.mem_singleton_self _)
    cases hflaw
  by_cases hq : c = '"'
  · subst hq
    exact ⟨rfl, hslash, rfl, rfl⟩
  · rw [beq_false_of_ne hq]
    obtain ⟨houtside, hunescaped, hlive | hflaw⟩ := opened_start hq
    · exact ⟨hlive, hslash, houtside, hunescaped⟩
    · simp [hflaw, Token.isSound] at h

theorem endAtom_moves {value : Option Json} (h : ∀ t ∈ (endAtom value c).2, t.isSound = true) :
    (endAtom value c).1.isLive = true ∧ c ≠ '/' ∧ (endAtom value c).1.inText = (c == '"') ∧
      (endAtom value c).1.escaped = false :=
  start_moves fun t ht => h t (List.mem_cons_of_mem _ ht)

/-- A word goes on through a sound text, or ends. -/
theorem Sound.moves_word {left : List Char} {value : Json}
    (hlive : (Scan.word left value).isLive = true) (h : (Scan.word left value).Sound (c :: rest)) :
    Moves (.word left value) c ((Scan.word left value).step c).1 := by
  have hhead := h.head
  cases left with
  | nil =>
    obtain ⟨h₁, h₂, h₃, h₄⟩ := endAtom_moves hhead
    exact ⟨h₁, fun _ => h₂, Prod.ext h₃ h₄⟩
  | cons e left =>
    rw [isLive, List.all_cons, Bool.and_eq_true] at hlive
    obtain ⟨hletter, hleft⟩ := hlive
    by_cases he : c = e
    · subst he
      have hslash : c ≠ '/' := by rintro rfl; cases hletter
      have hquote : c ≠ '"' := by rintro rfl; cases hletter
      rw [step, if_pos (by simp)]
      exact ⟨hleft, fun _ => hslash, by simp [follow, inText, escaped, hquote]⟩
    · rw [step, if_neg (by simpa using he)] at hhead
      exact absurd (hhead _ (List.mem_singleton_self _)) nofun

/-- A number goes on through a sound text, or ends. -/
theorem Sound.moves_number {part : Part} {literal : Literal}
    (h : (Scan.number part literal).Sound (c :: rest)) :
    Moves (.number part literal) c ((Scan.number part literal).step c).1 := by
  have hhead := h.head
  have hslash : literal.extend? part '/' = none := by cases part <;> rfl
  have hquote : literal.extend? part '"' = none := by cases part <;> rfl
  cases hx : literal.extend? part c with
  | some next =>
    have hs : c ≠ '/' := by rintro rfl; rw [hslash] at hx; cases hx
    have hq : c ≠ '"' := by rintro rfl; rw [hquote] at hx; cases hx
    rw [step, hx]
    exact ⟨rfl, fun _ => hs, by simp [follow, inText, escaped, hq]⟩
  | none =>
    rw [step, hx] at hhead ⊢
    simp only at hhead ⊢
    split at hhead
    · rw [if_pos ‹_›]
      obtain ⟨h₁, h₂, h₃, h₄⟩ := endAtom_moves hhead
      exact ⟨h₁, fun _ => h₂, Prod.ext h₃ h₄⟩
    · exact absurd (hhead _ (List.mem_singleton_self _)) nofun

/-- A text goes on to its quotation mark or a backslash. -/
theorem Sound.moves_text {done : Option (List Char)} (h : (Scan.text done).Sound (c :: rest)) :
    Moves (.text done) c ((Scan.text done).step c).1 := by
  have hhead := h.head
  rw [step, stepText] at hhead ⊢
  split at hhead
  · next hq =>
    rw [if_pos hq]
    obtain rfl : c = '"' := by simpa using hq
    exact ⟨rfl, nofun, rfl⟩
  · next hq =>
    rw [if_neg hq]
    split at hhead
    · next hb =>
      rw [if_pos hb]
      exact ⟨rfl, nofun, by simp [follow, inText, escaped, eq_of_beq hb]⟩
    · next hb =>
      rw [if_neg hb]
      split at hhead
      · exact absurd (hhead _ (List.mem_singleton_self _)) nofun
      · rw [if_neg ‹_›]
        simp only [beq_iff_eq] at hq hb
        exact ⟨rfl, nofun, by simp [follow, inText, escaped, add, hq, hb]⟩

/-- Behind a backslash the text goes on. -/
theorem Sound.moves_escape {done : Option (List Char)} (h : (Scan.escape done).Sound (c :: rest)) :
    Moves (.escape done) c ((Scan.escape done).step c).1 := by
  have hhead := h.head
  rw [step, stepEscape] at hhead ⊢
  split at hhead
  · rw [if_pos ‹_›]
    exact ⟨rfl, nofun, rfl⟩
  · rw [if_neg ‹_›]
    cases he : escaped? c with
    | some d => exact ⟨rfl, nofun, rfl⟩
    | none =>
      rw [he] at hhead
      exact absurd (hhead _ (List.mem_singleton_self _)) nofun

/-- The end of a code, if it is sound, leaves the scan in a text. -/
theorem endCode_moves {done : Option (List Char)} {high : Option Nat} {n : Nat}
    (h : ∀ t ∈ (endCode done high true n).2, t.isSound = true) :
    (endCode done high true n).1.isLive = true ∧ (endCode done high true n).1.inText = true ∧
      (endCode done high true n).1.escaped = false := by
  cases high with
  | none =>
    simp only [endCode, Bool.not_true, Bool.false_eq_true, if_false] at h ⊢
    split at h
    · exact absurd (h _ (List.mem_singleton_self _)) nofun
    · rw [if_neg ‹_›]
      split
      · exact ⟨rfl, rfl, rfl⟩
      · exact ⟨rfl, rfl, rfl⟩
  | some high =>
    simp only [endCode, Bool.not_true, Bool.false_eq_true, if_false] at h ⊢
    split at h
    · rw [if_pos ‹_›]
      exact ⟨rfl, rfl, rfl⟩
    · exact absurd (h _ (List.mem_singleton_self _)) nofun

/-- A code goes on through a sound text, digit by digit. -/
theorem Sound.moves_code {done : Option (List Char)} {high : Option Nat} {bytes value : Nat}
    (h : (Scan.code done high bytes true value).Sound (c :: rest)) :
    Moves (.code done high bytes true value) c
      ((Scan.code done high bytes true value).step c).1 := by
  have hhead := h.head
  have htail := h.tail
  simp only [step] at hhead htail ⊢
  cases hd : hexValue? c with
  | none =>
    simp only [hd] at hhead htail
    split at hhead
    · exact absurd (hhead _ (List.mem_singleton_self _)) nofun
    · rw [if_neg ‹_›] at htail
      exact absurd htail not_sound_of_code
  | some d =>
    have hb : c ≠ '\\' := by rintro rfl; cases hd
    have hq : c ≠ '"' := by rintro rfl; cases hd
    simp only [hd] at hhead ⊢
    split at hhead
    · rw [if_pos ‹_›]
      obtain ⟨h₁, h₂, h₃⟩ := endCode_moves hhead
      exact ⟨h₁, nofun, by rw [h₂, h₃]; simp [follow, inText, escaped, hb, hq]⟩
    · rw [if_neg ‹_›]
      exact ⟨rfl, nofun, by simp [follow, inText, escaped, hb, hq]⟩

/-- Behind the first code of a pair comes a backslash. -/
theorem Sound.moves_pairSlash {done : Option (List Char)} {high : Nat}
    (h : (Scan.pairSlash done high).Sound (c :: rest)) :
    Moves (.pairSlash done high) c ((Scan.pairSlash done high).step c).1 := by
  have hhead := h.head
  rw [step] at hhead ⊢
  split at hhead
  · next hb =>
    rw [if_pos hb]
    exact ⟨rfl, nofun, by simp [follow, inText, escaped, eq_of_beq hb]⟩
  · exact absurd (hhead _ List.mem_cons_self) nofun

/-- Behind that backslash comes the mark of a code. -/
theorem Sound.moves_pairMark {done : Option (List Char)} {high : Nat}
    (h : (Scan.pairMark done high).Sound (c :: rest)) :
    Moves (.pairMark done high) c ((Scan.pairMark done high).step c).1 := by
  have hhead := h.head
  rw [step] at hhead ⊢
  split at hhead
  · rw [if_pos ‹_›]
    exact ⟨rfl, nofun, rfl⟩
  · exact absurd (hhead _ List.mem_cons_self) nofun

/-- How a scan goes on through a sound text. -/
theorem Sound.moves (hlive : scan.isLive = true) (h : scan.Sound (c :: rest)) :
    Moves scan c (scan.step c).1 := by
  cases scan with
  | between =>
    obtain ⟨h₁, h₂, h₃, h₄⟩ := start_moves h.head
    exact ⟨h₁, fun _ => h₂, Prod.ext h₃ h₄⟩
  | word left value => exact moves_word hlive h
  | number part literal => exact moves_number h
  | text done => exact moves_text h
  | escape done => exact moves_escape h
  | code done high bytes digits value =>
    cases hlive
    exact moves_code h
  | pairSlash done high => exact moves_pairSlash h
  | pairMark done high => exact moves_pairMark h
  | stopped => cases hlive

theorem Sound.live_after (hlive : scan.isLive = true) (h : scan.Sound (cs ++ rest)) :
    (scan.after cs).isLive = true := by
  induction cs generalizing scan with
  | nil => exact hlive
  | cons c cs ih => exact ih (h.moves hlive).live h.tail

/-! ### Blanks and the ends of lines -/

/-- A line does not end inside a text. -/
theorem Sound.outside_of_lineEnd (hc : c = '\n' ∨ c = '\r') (h : scan.Sound (c :: rest)) :
    scan.inText = false := by
  have hhead := h.head
  have htail := h.tail
  cases scan with
  | between | word | number | stopped => rfl
  | text | escape =>
    rcases hc with rfl | rfl <;> exact absurd (hhead _ (List.mem_singleton_self _)) nofun
  | pairSlash | pairMark =>
    rcases hc with rfl | rfl <;> exact absurd (hhead _ List.mem_cons_self) nofun
  | code done high bytes digits value =>
    have hhex : hexValue? c = none := by rcases hc with rfl | rfl <;> rfl
    simp only [step, hhex] at hhead htail
    split at hhead
    · exact absurd (hhead _ (List.mem_singleton_self _)) nofun
    · rw [if_neg ‹_›] at htail
      exact absurd htail not_sound_of_code

/-- A text does not end inside a text. -/
theorem Sound.outside_of_nil (h : scan.Sound []) : scan.inText = false := by
  cases scan with
  | between | word | number | stopped => rfl
  | text | escape | code | pairSlash | pairMark =>
    exact absurd (h _ (List.mem_singleton_self _)) nofun

theorem isGap_iff : isGap c = true ↔ c = ' ' ∨ c = '\t' ∨ c = '\n' ∨ c = '\r' := by
  simp [isGap, or_assoc]

/-- Outside of texts all blanks are read alike. -/
theorem step_gap (hlive : scan.isLive = true) (hout : scan.inText = false) (hc : isGap c = true) :
    scan.step c = scan.step '\n' := by
  rw [isGap_iff] at hc
  cases scan with
  | between | stopped => rcases hc with rfl | rfl | rfl | rfl <;> rfl
  | word left value =>
    cases left with
    | nil => rcases hc with rfl | rfl | rfl | rfl <;> rfl
    | cons e left =>
      rw [isLive, List.all_cons, Bool.and_eq_true] at hlive
      have hne : ∀ d, Text.isAsciiLower d = false → (d == e) = false := by
        intro d hd
        rw [beq_eq_false_iff_ne]
        rintro rfl
        rw [hlive.1] at hd
        cases hd
      rw [step, step, hne '\n' rfl, hne c (by rcases hc with rfl | rfl | rfl | rfl <;> rfl)]
  | number part literal =>
    have hnone : literal.extend? part c = none ∧ literal.extend? part '\n' = none := by
      rcases hc with rfl | rfl | rfl | rfl <;> cases part <;> exact ⟨rfl, rfl⟩
    rw [step, step, hnone.1, hnone.2]
    rcases hc with rfl | rfl | rfl | rfl <;> rfl
  | text | escape | code | pairSlash | pairMark => cases hout

/-- Outside of texts a blank ends the token at hand as the end of the text does, or both go
wrong. -/
theorem step_lineEnd (hlive : scan.isLive = true) (hout : scan.inText = false) :
    scan.step '\n' = (.between, scan.finish) ∨
      scan.step '\n' = (.stopped, [.flawed .malformed]) ∧
        scan.finish = [.flawed .unfinished] := by
  cases scan with
  | between => exact .inl rfl
  | word left value =>
    cases left with
    | nil => exact .inl rfl
    | cons e left =>
      rw [isLive, List.all_cons, Bool.and_eq_true] at hlive
      have he : ¬ ('\n' == e) = true := by
        rw [beq_iff_eq]
        rintro rfl
        cases hlive.1
      exact .inr ⟨by rw [step, if_neg he], rfl⟩
  | number part literal =>
    cases part with
    | zero | whole | fraction | exponent => exact .inl rfl
    | sign | point | mark | markSign => exact .inr ⟨rfl, rfl⟩
  | stopped => cases hlive
  | text | escape | code | pairSlash | pairMark => cases hout

/-- The scan stands outside of texts, where a blank may end the token at hand. -/
structure Complete (scan : Scan) : Prop where
  outside : scan.inText = false
  gap : ∀ c, isGap c = true → scan.step c = (.between, scan.finish)

theorem Complete.of_lineEnd (hlive : scan.isLive = true) (hout : scan.inText = false)
    (h : scan.step '\n' = (.between, scan.finish)) : scan.Complete :=
  ⟨hout, fun _ hc => (step_gap hlive hout hc).trans h⟩

/-- Before a blank outside of texts a sound text is complete. -/
theorem Sound.complete_of_gap (hlive : scan.isLive = true) (hout : scan.inText = false)
    (hc : isGap c = true) (h : scan.Sound (c :: rest)) : scan.Complete := by
  refine .of_lineEnd hlive hout ?_
  have hhead := h.head
  rw [step_gap hlive hout hc] at hhead
  rcases step_lineEnd hlive hout with hs | ⟨hs, -⟩
  · exact hs
  · rw [hs] at hhead
    exact absurd (hhead _ (List.mem_singleton_self _)) nofun

theorem Sound.complete_of_lineEnd (hlive : scan.isLive = true) (hc : c = '\n' ∨ c = '\r')
    (h : scan.Sound (c :: rest)) : scan.Complete :=
  h.complete_of_gap hlive (h.outside_of_lineEnd hc) (by rcases hc with rfl | rfl <;> rfl)

/-- At its end a sound text is complete. -/
theorem Sound.complete_of_nil (hlive : scan.isLive = true) (h : scan.Sound []) :
    scan.Complete := by
  refine .of_lineEnd hlive h.outside_of_nil ?_
  rcases step_lineEnd hlive h.outside_of_nil with hs | ⟨-, hf⟩
  · exact hs
  · have hmem : .flawed .unfinished ∈ tokensFrom scan [] := by
      rw [tokensFrom, hf]
      exact List.mem_singleton_self _
    exact absurd (h _ hmem) nofun

/-- A sound text is complete at its end. -/
theorem Sound.complete (h : Scan.between.Sound cs) : (Scan.between.after cs).Complete := by
  have hnil : Scan.between.Sound (cs ++ []) := (List.append_nil cs).symm ▸ h
  exact hnil.append.complete_of_nil (hnil.live_after rfl)

/-- The tokens of a text that goes on behind a blank. -/
theorem Complete.tokensFrom_append (h : (scan.after cs).Complete) (hc : isGap c = true)
    (rest : List Char) : tokensFrom scan (cs ++ c :: rest) =
      tokensFrom scan cs ++ tokensFrom .between rest := by
  rw [Json.tokensFrom_append, tokensFrom, h.gap c hc, tokensFrom_eq, List.append_assoc]

/-! ### Quotation marks -/

/-- A quotation mark may end the token at hand, as a blank does. -/
theorem Complete.step_quote (h : scan.Complete) :
    scan.step '"' = (.text (some []), scan.finish) := by
  have hgap := h.gap '\n' rfl
  cases scan with
  | between => rfl
  | word left value =>
    cases left with
    | nil => rfl
    | cons e left =>
      rw [step] at hgap
      split at hgap <;> cases hgap
  | number part literal =>
    cases part with
    | zero | whole | fraction | exponent => rfl
    | sign | point | mark | markSign => cases hgap
  | stopped => cases hgap
  | text | escape | code | pairSlash | pairMark => cases h.outside

/-- A quotation mark that no backslash escapes closes a text. -/
theorem Sound.step_closing (hin : scan.inText = true) (hescaped : scan.escaped = false)
    (h : scan.Sound ('"' :: rest)) : ∃ done, scan.step '"' = (.between, [.text done]) := by
  have hhead := h.head
  have htail := h.tail
  cases scan with
  | text done => exact ⟨_, rfl⟩
  | code done high bytes digits value =>
    have hhex : hexValue? '"' = none := rfl
    simp only [step, hhex] at hhead htail
    split at hhead
    · exact absurd (hhead _ (List.mem_singleton_self _)) nofun
    · rw [if_neg ‹_›] at htail
      exact absurd htail not_sound_of_code
  | pairSlash => exact absurd (hhead _ List.mem_cons_self) nofun
  | escape | pairMark => cases hescaped
  | between | word | number | stopped => cases hin

/-! ### Atoms -/

/-- The scan stands inside an atom. -/
def inAtom : Scan → Bool
  | .word .. | .number .. => true
  | _ => false

/-- Inside an atom a sound text has the atom first. -/
theorem Sound.exists_atom (hin : scan.inAtom = true) (h : scan.Sound cs) :
    ∃ v apart ts, tokensFrom scan cs = .atom v apart :: ts := by
  -- On the text: each character goes on with the atom or ends it, since the rest is sound.
  induction cs generalizing scan with
  | nil =>
    cases scan with
    | word left value =>
      cases left with
      | nil => exact ⟨_, _, _, rfl⟩
      | cons e left => exact absurd (h _ (List.mem_singleton_self _)) nofun
    | number part literal =>
      cases part with
      | zero | whole | fraction | exponent => exact ⟨_, _, _, rfl⟩
      | sign | point | mark | markSign => exact absurd (h _ (List.mem_singleton_self _)) nofun
    | _ => cases hin
  | cons c cs ih =>
    have hhead := h.head
    have htail := h.tail
    rw [tokensFrom]
    cases scan with
    | word left value =>
      cases left with
      | nil => exact ⟨_, _, _, rfl⟩
      | cons e left =>
        rw [step] at hhead htail ⊢
        split at hhead
        · rw [if_pos ‹_›] at htail ⊢
          exact ih rfl htail
        · exact absurd (hhead _ (List.mem_singleton_self _)) nofun
    | number part literal =>
      rw [step] at hhead htail ⊢
      cases hx : literal.extend? part c with
      | some next =>
        rw [hx] at htail
        exact ih rfl htail
      | none =>
        rw [hx] at hhead
        simp only at hhead ⊢
        split at hhead
        · rw [if_pos ‹_›]
          exact ⟨_, _, _, rfl⟩
        · exact absurd (hhead _ (List.mem_singleton_self _)) nofun
    | _ => cases hin

end Scan

end TypeSketch.Json
