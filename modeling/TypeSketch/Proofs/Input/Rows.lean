import Mathlib.Tactic.SplitIfs
import TypeSketch.Proofs.Input.Stripping
import TypeSketch.Proofs.Json.Keys

/-!
# JSON samples — one key on a line

A text with one key on a line is a list of rows: a key line with the comments right above it, or a
line without a key.  For a text that holds a value, the search for the first key of a line finds the
key of a key line and nothing on other lines (`KeyLine.firstKey?_line`, `firstKey?_of_keyless`), and
the keys of the rows are the names of the text in their order (`namesFrom_rows`).

The search is for the first quotation mark behind which a key and a colon stand. On the line of a
key, what stands before it is code without a colon, so that no earlier mark will do
(`firstKey?_append`): from a mark that opens a text the key would be that text, and the colon would
be a token; from one that closes a text there would be a colon outside. The tokens of rows are put
together in `tokens_strip`.
-/

namespace TypeSketch.CommentedJson

open Json (Scan Token tokensFrom)

/-! ### Characters of keys -/

section Characters

variable {c : Char}

/-- No mark of JSON and no blank is a character of a key. -/
theorem ne_of_isKeyChar (h : isKeyChar c = true) {d : Char}
    (hd : isKeyChar d = false) : c ≠ d := by
  rintro rfl
  rw [h] at hd
  cases hd

/-- No character of a key is a control character. -/
theorem toNat_of_isKeyChar (h : isKeyChar c = true) : ¬ c.toNat < 32 := by
  intro hc
  have hascii : c.toNat < 128 := by omega
  have hle : ∀ d : Char, 32 ≤ d.toNat → ¬ d ≤ c := fun d hd hdc => by
    have hval : d.toNat ≤ c.toNat := hdc
    omega
  have hdash : c ≠ '-' := by rintro rfl; revert hc; decide
  have hbar : c ≠ '_' := by rintro rfl; revert hc; decide
  simp only [isKeyChar, Text.isWord, hascii, if_true, Text.isAsciiUpper, Text.isAsciiLower,
    Text.isAsciiDigit, hle 'A' (by decide), hle 'a' (by decide), hle '0' (by decide),
    beq_false_of_ne hdash, beq_false_of_ne hbar, decide_false, Bool.false_and, Bool.or_false] at h
  cases h

/-- A character of a key starts an atom, or is malformed. -/
theorem start_of_isKeyChar (h : isKeyChar c = true) :
    (Scan.start c).1.inAtom = true ∧ (Scan.start c).2 = [] ∨
      (Scan.start c).2 = [.flawed .malformed] := by
  have hne : ∀ d, isKeyChar d = false → (c == d) = false :=
    fun d hd => beq_false_of_ne (ne_of_isKeyChar h hd)
  unfold Scan.start
  simp only [Json.isGap, hne ' ' (by decide), hne '\t' (by decide), hne '\n' (by decide),
    hne '\r' (by decide), hne '[' (by decide), hne ']' (by decide), hne '\x7b' (by decide),
    hne '\x7d' (by decide), hne ',' (by decide), hne ':' (by decide), hne '"' (by decide),
    Bool.or_false, Bool.false_eq_true, if_false]
  split_ifs <;> simp [Scan.inAtom]

/-- A blank that is read between tokens is one of JSON. -/
theorem start_of_isBlank (h : Text.isBlank c = true)
    (hsound : ∀ t ∈ (Scan.start c).2, t.isSound = true) : Scan.start c = (.between, []) := by
  by_cases hgap : Json.isGap c = true
  · rw [Scan.start, if_pos hgap]
  · have hne : ∀ d, Text.isBlank d = false → (c == d) = false := by
      intro d hd
      refine beq_false_of_ne ?_
      rintro rfl
      rw [h] at hd
      cases hd
    have hdigit : Text.isAsciiDigit c = false := by
      refine Bool.eq_false_iff.mpr fun hdigit => ?_
      obtain ⟨hfirst, hlast⟩ := Bool.and_eq_true_iff.mp hdigit
      have hfirst : 48 ≤ c.toNat := of_decide_eq_true hfirst
      have hlast : c.toNat ≤ 57 := of_decide_eq_true hlast
      simp only [Text.isBlank, Bool.or_eq_true, Bool.and_eq_true, decide_eq_true_eq,
        beq_iff_eq] at h
      omega
    have hflawed : Scan.start c = (.stopped, [.flawed .malformed]) := by
      unfold Scan.start
      simp only [hgap, hdigit, hne '[' (by decide), hne ']' (by decide), hne '\x7b' (by decide),
        hne '\x7d' (by decide), hne ',' (by decide), hne ':' (by decide), hne '"' (by decide),
        hne 't' (by decide), hne 'f' (by decide), hne 'n' (by decide), hne '-' (by decide),
        hne '0' (by decide), Bool.false_eq_true, if_false]
    rw [hflawed] at hsound
    cases hsound _ (List.mem_singleton_self _)

end Characters

/-! ### Lines and rows -/

/-- Code that is read as tokens, with no colon among them. -/
def Keyless (code : List Char) : Prop :=
  ∀ t ∈ tokensFrom .between code, t.isSound = true ∧ t.isColon = false

/-- A comment on a line of its own. -/
structure CommentLine where
  indent : List Char
  text : List Char
  blank : ∀ c ∈ indent, Json.isGap c = true

/-- A line without a key. -/
structure PlainLine where
  code : List Char
  keyless : Keyless code
  noComment : (split code).2 = none

/-- A line with one key, cut around the key and its colon. -/
structure KeyLine where
  pre : List Char
  key : List Char
  gap : List Char
  post : List Char
  keyless_pre : Keyless pre
  key_ne_nil : key ≠ []
  isKeyChar_key : ∀ c ∈ key, isKeyChar c = true
  blank : ∀ c ∈ gap, Json.isGap c = true
  keyless_post : Keyless post
  noComment : (split (pre ++ '"' :: (key ++ '"' :: (gap ++ ':' :: post)))).2 = none

/-- The line of a comment. -/
def CommentLine.line (l : CommentLine) : List Char := l.indent ++ '/' :: '/' :: l.text

/-- The comment without the blanks around it. -/
def CommentLine.comment (l : CommentLine) : String := String.ofList (Text.trim l.text)

/-- The line of a key. -/
def KeyLine.line (l : KeyLine) : List Char :=
  l.pre ++ '"' :: (l.key ++ '"' :: (l.gap ++ ':' :: l.post))

/-- The key. -/
def KeyLine.name (l : KeyLine) : String := String.ofList l.key

/-- A line without a key, or one with a key and the comments right above it. -/
inductive Row
  | plain (line : PlainLine)
  | key (comments : List CommentLine) (line : KeyLine)

namespace Row

/-- The lines of a row. -/
def lines : Row → List (List Char)
  | plain line => [line.code]
  | key comments line => comments.map CommentLine.line ++ [line.line]

/-- The lines of a row without their comments. -/
def codes : Row → List (List Char)
  | plain line => [line.code]
  | key comments line => comments.map CommentLine.indent ++ [line.line]

/-- The key of a row, and the comments right above it. -/
def key? : Row → Option (String × List String)
  | plain _ => none
  | key comments line => some (line.name, comments.map CommentLine.comment)

end Row

/-- The keys of rows, each with the comments right above it. -/
def keysOf (rows : List Row) : List (String × List String) := rows.filterMap Row.key?

theorem keysOf_cons (row : Row) (rows : List Row) :
    keysOf (row :: rows) = row.key?.toList ++ keysOf rows := by
  rw [keysOf, List.filterMap_cons]
  cases row.key? <;> rfl

/-! ### The code of lines -/

/-- A line from which no comment is split is code, from any place of it. -/
theorem splitFrom_noComment {inText escaped : Bool} {cs : List Char}
    (h : (splitFrom inText escaped cs).2 = none) : (splitFrom inText escaped cs).1 = cs := by
  fun_induction splitFrom inText escaped cs with
  | case1 => rfl
  | case2 _ rest _ _ hsplit ih =>
    rw [hsplit] at ih
    exact congrArg ('/' :: ·) (ih h)
  | case3 => cases h
  | case4 _ _ c _ _ _ _ _ _ _ hsplit ih =>
    rw [hsplit] at ih
    exact congrArg (c :: ·) (ih h)

theorem split_noComment {line : List Char} (h : (split line).2 = none) :
    split line = (line, none) :=
  Prod.ext (splitFrom_noComment h) h

/-- A comment is split from the blanks before it. -/
theorem CommentLine.split_line (l : CommentLine) : split l.line = (l.indent, some l.text) := by
  obtain ⟨indent, text, blank⟩ := l
  rw [split, CommentLine.line]
  induction indent with
  | nil => rfl
  | cons c indent ih =>
    obtain ⟨hc, hindent⟩ := List.forall_mem_cons.mp blank
    have hslash : c ≠ '/' := by rintro rfl; cases hc
    have hquote : (c == '"') = false := beq_false_of_ne (by rintro rfl; cases hc)
    have hfollow : Scan.follow false false c = (false, false) := by
      rw [Scan.follow, if_neg (by decide), hquote]
    rw [List.cons_append, splitFrom_cons fun _ => hslash, hfollow, ih hindent]

/-- There is no key among blanks. -/
theorem CommentLine.firstKey?_indent (l : CommentLine) : firstKey? l.indent = none := by
  obtain ⟨indent, text, blank⟩ := l
  induction indent with
  | nil => rfl
  | cons c indent ih =>
    obtain ⟨hc, hindent⟩ := List.forall_mem_cons.mp blank
    have hquote : (c == '"') = false := beq_false_of_ne (by rintro rfl; cases hc)
    rw [firstKey?, hquote]
    exact ih hindent

theorem KeyLine.split_line (l : KeyLine) : split l.line = (l.line, none) :=
  split_noComment l.noComment

/-- The code of the lines of a row is what is left without comments. -/
theorem Row.map_split_lines (row : Row) :
    row.lines.map (fun line => (split line).1) = row.codes := by
  cases row with
  | plain line => exact congrArg (fun r => [r.1]) (split_noComment line.noComment)
  | key comments line =>
    simp only [lines, codes, List.map_append, List.map_map, List.map_singleton, line.split_line,
      Function.comp_def, CommentLine.split_line]

/-! ### The tokens of lines -/

/-- Blanks are no tokens. -/
theorem tokensFrom_blank {cs : List Char} (h : ∀ c ∈ cs, Json.isGap c = true) (rest : List Char) :
    tokensFrom .between (cs ++ rest) = tokensFrom .between rest := by
  induction cs with
  | nil => rfl
  | cons c cs ih =>
    obtain ⟨hc, hcs⟩ := List.forall_mem_cons.mp h
    have hstep : Scan.between.step c = (.between, []) := if_pos hc
    rw [List.cons_append, tokensFrom, hstep]
    exact ih hcs

theorem CommentLine.tokensFrom_indent (l : CommentLine) : tokensFrom .between l.indent = [] := by
  have hblank := tokensFrom_blank l.blank []
  rwa [List.append_nil] at hblank

/-- The rest of a key is read up to its closing quotation mark. -/
theorem tokensFrom_key {key : List Char} (h : ∀ c ∈ key, isKeyChar c = true)
    (done rest : List Char) :
    tokensFrom (.text (some done)) (key ++ '"' :: rest) =
      .text (some (String.ofList (done.reverse ++ key))) :: tokensFrom .between rest := by
  induction key generalizing done with
  | nil =>
    rw [List.append_nil]
    rfl
  | cons c key ih =>
    obtain ⟨hc, hkey⟩ := List.forall_mem_cons.mp h
    have hquote : (c == '"') = false := beq_false_of_ne (ne_of_isKeyChar hc (by decide))
    have hslash : (c == '\\') = false := beq_false_of_ne (ne_of_isKeyChar hc (by decide))
    have hstep : (Scan.text (some done)).step c = (.text (some (c :: done)), []) := by
      rw [Scan.step, Scan.stepText, hquote, hslash, if_neg Bool.false_ne_true,
        if_neg Bool.false_ne_true, if_neg (toNat_of_isKeyChar hc)]
      rfl
    rw [List.cons_append, tokensFrom, hstep]
    simp only [List.nil_append]
    rw [ih hkey, List.reverse_cons, List.append_assoc]
    rfl

theorem Keyless.sound {code : List Char} (h : Keyless code) : Scan.between.Sound code :=
  fun t ht => (h t ht).1

/-- The tokens of a line with a key. -/
theorem KeyLine.tokensFrom_line (l : KeyLine) : tokensFrom .between l.line =
    tokensFrom .between l.pre ++
      .text (some l.name) :: .colon :: tokensFrom .between l.post := by
  rw [line, Json.tokensFrom_append, tokensFrom, l.keyless_pre.sound.complete.step_quote,
    Json.tokensFrom_eq .between l.pre, List.append_assoc]
  simp only
  rw [tokensFrom_key l.isKeyChar_key, tokensFrom_blank l.blank]
  rfl

theorem KeyLine.sound (l : KeyLine) : Scan.between.Sound l.line := by
  rw [Scan.Sound, l.tokensFrom_line]
  refine List.forall_mem_append.mpr ⟨l.keyless_pre.sound, ?_⟩
  exact List.forall_mem_cons.mpr ⟨rfl, List.forall_mem_cons.mpr ⟨rfl, l.keyless_post.sound⟩⟩

/-- The tokens of lines that are cut at their ends. -/
theorem tokensFrom_codes {codes : List (List Char)} (h : ∀ code ∈ codes, Scan.between.Sound code) :
    tokensFrom .between (codes.flatMap (· ++ ['\n'])) = codes.flatMap (tokensFrom .between) := by
  induction codes with
  | nil => rfl
  | cons code codes ih =>
    obtain ⟨hcode, hcodes⟩ := List.forall_mem_cons.mp h
    rw [List.flatMap_cons, List.flatMap_cons, List.append_assoc, ← ih hcodes]
    exact hcode.complete.tokensFrom_append rfl _

/-- The lines of a row are sound without their comments. -/
theorem Row.sound (row : Row) : ∀ code ∈ row.codes, Scan.between.Sound code := by
  cases row with
  | plain line => exact List.forall_mem_singleton.mpr line.keyless.sound
  | key comments line =>
    refine List.forall_mem_append.mpr ⟨?_, List.forall_mem_singleton.mpr line.sound⟩
    intro code hcode
    obtain ⟨comment, -, rfl⟩ := List.mem_map.mp hcode
    rw [Scan.Sound, comment.tokensFrom_indent]
    exact List.forall_mem_nil _

/-- The tokens of a row. -/
def Row.tokens (row : Row) : List Token := row.codes.flatMap (tokensFrom .between)

/-- The tokens of a row with a key are those of its line. -/
theorem Row.tokens_key (comments : List CommentLine) (line : KeyLine) :
    (Row.key comments line).tokens = tokensFrom .between line.line := by
  have hblank : (comments.map CommentLine.indent).flatMap (tokensFrom .between) = [] := by
    refine List.flatMap_eq_nil_iff.mpr fun code hcode => ?_
    obtain ⟨comment, -, rfl⟩ := List.mem_map.mp hcode
    exact comment.tokensFrom_indent
  rw [tokens, codes, List.flatMap_append, hblank, List.nil_append, List.flatMap_singleton]

variable {text : String} {rows : List Row}

/-- The tokens of a text are those of its rows. -/
theorem tokens_strip (h : Text.lines text.toList = rows.flatMap Row.lines) :
    Json.tokens (strip text) = rows.flatMap Row.tokens := by
  have hcodes : (rows.flatMap Row.lines).flatMap (fun line => (split line).1 ++ ['\n']) =
      (rows.flatMap Row.codes).flatMap (· ++ ['\n']) := by
    rw [← funext Row.map_split_lines, ← List.map_flatMap, List.flatMap_map]
  rw [Json.tokens, strip, String.toList_ofList, h, hcodes, tokensFrom_codes, List.flatMap_assoc]
  · rfl
  · intro code hcode
    obtain ⟨row, -, hrow⟩ := List.mem_flatMap.mp hcode
    exact row.sound code hrow

/-! ### The names of rows -/

/-- Tokens without a colon bring no names. -/
theorem exists_namesFrom_append {ts : List Token} (h : ∀ t ∈ ts, t.isColon = false)
    (last : List String) (ts' : List Token) :
    ∃ last', Json.namesFrom last (ts ++ ts') = Json.namesFrom last' ts' := by
  induction ts generalizing last with
  | nil => exact ⟨last, rfl⟩
  | cons t ts ih =>
    obtain ⟨ht, hts⟩ := List.forall_mem_cons.mp h
    cases t with
    | colon => cases ht
    | text s => exact ih hts s.toList
    | _ => exact ih hts []

/-- A row adds its key to the names. -/
theorem exists_namesFrom_row (row : Row) (last : List String) (ts : List Token) :
    ∃ last', Json.namesFrom last (row.tokens ++ ts) =
      row.key?.toList.map Prod.fst ++ Json.namesFrom last' ts := by
  cases row with
  | plain line =>
    rw [Row.tokens, Row.codes, List.flatMap_singleton]
    exact exists_namesFrom_append (fun t ht => (line.keyless t ht).2) last ts
  | key comments line =>
    rw [Row.tokens_key, line.tokensFrom_line, List.append_assoc]
    obtain ⟨last', hpre⟩ := exists_namesFrom_append (fun t ht => (line.keyless_pre t ht).2) last
      (.text (some line.name) :: .colon :: tokensFrom .between line.post ++ ts)
    obtain ⟨last'', hpost⟩ :=
      exists_namesFrom_append (fun t ht => (line.keyless_post t ht).2) [] ts
    refine ⟨last'', ?_⟩
    rw [hpre]
    exact congrArg (line.name :: ·) hpost

/-- The keys of the rows are the names of the text. -/
theorem namesFrom_rows (last : List String) (rows : List Row) :
    Json.namesFrom last (rows.flatMap Row.tokens) = (keysOf rows).map Prod.fst := by
  induction rows generalizing last with
  | nil => rfl
  | cons row rows ih =>
    obtain ⟨last', hrow⟩ := exists_namesFrom_row row last (rows.flatMap Row.tokens)
    rw [List.flatMap_cons, hrow, ih, keysOf_cons, List.map_append]

/-! ### The first key of a line -/

section FirstKey

variable {scan : Scan} {cs tail : List Char}

/-- What may stand behind code without a key: nothing, or the quotation mark of a key. -/
def StartsKey (tail : List Char) : Prop := tail = [] ∨ ∃ rest, tail = '"' :: rest

/-- Between tokens, a colon behind blanks is read as one. -/
theorem colon_mem_read_between (htail : StartsKey tail) (h : Scan.between.Sound (cs ++ tail))
    (hcolon : (Text.trimStart (cs ++ tail)).head? = some ':') : .colon ∈ Scan.between.read cs := by
  induction cs with
  | nil => rcases htail with rfl | ⟨rest, rfl⟩ <;> cases hcolon
  | cons c cs ih =>
    rw [List.cons_append, Text.trimStart, List.dropWhile_cons] at hcolon
    split at hcolon
    · next hblank =>
      have hstart : Scan.between.step c = (.between, []) := start_of_isBlank hblank h.head
      have hrest : (Scan.between.step c).1.Sound (cs ++ tail) := h.tail
      rw [hstart] at hrest
      rw [Scan.read, hstart]
      exact ih hrest hcolon
    · cases hcolon
      exact List.mem_cons_self

/-- The text is a key, or the rest of one, and a colon behind it. -/
def EndsKey (cs : List Char) : Prop :=
  ∃ rest, cs.dropWhile isKeyChar = '"' :: rest ∧ (Text.trimStart rest).head? = some ':'

/-- No key starts where none ends. -/
theorem keyAt?_of_not_endsKey {cs : List Char} (h : ¬ EndsKey cs) : keyAt? cs = none := by
  unfold keyAt?
  simp only
  split
  · next rest hrest =>
    rw [if_neg]
    rintro hkey
    exact h ⟨rest, hrest, eq_of_beq (Bool.and_eq_true_iff.mp hkey).2⟩
  · rfl

/-- No key starts before a character that no key has. -/
theorem keyAt?_of_head {cs : List Char} (h : ∀ c ∈ cs.head?, isKeyChar c = false) :
    keyAt? cs = none := by
  cases cs with
  | nil => rfl
  | cons c cs =>
    have hc : ¬ isKeyChar c = true := Bool.eq_false_iff.mp (h c rfl)
    unfold keyAt?
    rw [List.takeWhile_cons, if_neg hc]
    simp only
    split <;> rfl

/-- Inside a text, what ends a key is the end of the text, and the colon behind it is read. -/
theorem colon_mem_read_text (hlive : scan.isLive = true) (hin : scan.inText = true)
    (hescaped : scan.escaped = false) (htail : StartsKey tail) (h : scan.Sound (cs ++ tail))
    (hout : (scan.after cs).inText = false) (hends : EndsKey (cs ++ tail)) :
    .colon ∈ scan.read cs := by
  induction cs generalizing scan with
  | nil =>
    rw [Scan.after, hin] at hout
    cases hout
  | cons c cs ih =>
    obtain ⟨rest, hrest, hcolon⟩ := hends
    rw [List.cons_append, List.dropWhile_cons] at hrest
    have hmoves := Scan.Sound.moves hlive h
    split at hrest
    · next hc =>
      have hfollow := hmoves.follow
      rw [hin, hescaped, Scan.follow, if_pos rfl, if_neg Bool.false_ne_true,
        if_neg (by simpa using ne_of_isKeyChar hc (by decide)),
        bne_iff_ne.mpr (ne_of_isKeyChar hc (by decide))] at hfollow
      obtain ⟨hin', hescaped'⟩ := Prod.mk.inj hfollow
      exact List.mem_append_right _
        (ih hmoves.live hin' hescaped' h.tail hout ⟨rest, hrest, hcolon⟩)
    · cases hrest
      obtain ⟨done, hstep⟩ := Scan.Sound.step_closing hin hescaped h
      have hbetween : (scan.step '"').1.Sound (cs ++ tail) := h.tail
      rw [hstep] at hbetween
      rw [Scan.read, hstep]
      exact List.mem_append_right _ (colon_mem_read_between htail hbetween hcolon)

/-- No key starts at the quotation mark that closes a text. -/
theorem keyAt?_of_closing {done : Option String} (htail : StartsKey tail)
    (h : Scan.between.Sound (cs ++ tail))
    (hchain : (Token.text done :: tokensFrom .between (cs ++ tail)).IsChain Token.Follows) :
    keyAt? (cs ++ tail) = none := by
  refine keyAt?_of_head ?_
  cases cs with
  | nil =>
    rcases htail with rfl | ⟨rest, rfl⟩
    · rintro c ⟨⟩
    · rintro c ⟨⟩
      decide
  | cons c cs =>
    rintro c' ⟨⟩
    refine Bool.eq_false_iff.mpr fun hc => ?_
    rcases start_of_isKeyChar hc with ⟨hatom, hstart⟩ | hflawed
    · -- an atom would stand right behind the text
      have hrest : (Scan.between.step c).1.Sound (cs ++ tail) := h.tail
      obtain ⟨v, apart, ts, htokens⟩ := Scan.Sound.exists_atom hatom hrest
      have hnext : tokensFrom .between (c :: cs ++ tail) = .atom v apart :: ts := by
        rw [List.cons_append, tokensFrom, ← htokens]
        exact congrArg (· ++ tokensFrom (Scan.start c).1 (cs ++ tail)) hstart
      rw [hnext, List.isChain_cons_cons] at hchain
      cases hchain.1 done rfl
    · have hhead : ∀ t ∈ (Scan.start c).2, t.isSound = true := h.head
      rw [hflawed] at hhead
      cases hhead _ (List.mem_singleton_self _)

/-- There is no key in code without a colon. -/
theorem firstKey?_append (hlive : scan.isLive = true) (htail : StartsKey tail)
    (h : scan.Sound (cs ++ tail)) (hchain : (tokensFrom scan (cs ++ tail)).IsChain Token.Follows)
    (hcolon : .colon ∉ scan.read cs) (hout : (scan.after cs).inText = false) :
    firstKey? (cs ++ tail) = firstKey? tail := by
  induction cs generalizing scan with
  | nil => rfl
  | cons c cs ih =>
    have hmoves := Scan.Sound.moves hlive h
    have hrest : firstKey? (cs ++ tail) = firstKey? tail :=
      ih hmoves.live h.tail (List.IsChain.right_of_append hchain)
        (fun hmem => hcolon (List.mem_append_right _ hmem)) hout
    rw [List.cons_append, firstKey?, hrest]
    split
    · next hquote =>
      -- No key begins at the mark: it closes a text, or a colon behind the text would be read.
      obtain rfl : c = '"' := eq_of_beq hquote
      have hkey : keyAt? (cs ++ tail) = none := by
        by_cases hclosing : scan.inText = true ∧ scan.escaped = false
        · obtain ⟨done, hstep⟩ := Scan.Sound.step_closing hclosing.1 hclosing.2 h
          have hbetween : (scan.step '"').1.Sound (cs ++ tail) := h.tail
          rw [List.cons_append, tokensFrom, hstep] at hchain
          rw [hstep] at hbetween
          exact keyAt?_of_closing htail hbetween hchain
        · -- the scan is inside a text after the mark
          have hfollow : Scan.follow scan.inText scan.escaped '"' = (true, false) := by
            cases hin : scan.inText with
            | false => rfl
            | true =>
              cases hescaped : scan.escaped with
              | true => rfl
              | false => exact absurd ⟨hin, hescaped⟩ hclosing
          obtain ⟨hin, hescaped⟩ := Prod.mk.inj (hmoves.follow.trans hfollow)
          refine keyAt?_of_not_endsKey fun hends => hcolon (List.mem_append_right _ ?_)
          exact colon_mem_read_text hmoves.live hin hescaped htail h.tail hout hends
      rw [hkey]
      rfl
    · rfl

/-- No colon is read in code without a key. -/
theorem Keyless.colon_not_mem_read {code : List Char} (h : Keyless code) :
    .colon ∉ Scan.between.read code := by
  intro hmem
  have htoken : .colon ∈ tokensFrom .between code :=
    Json.tokensFrom_eq .between code ▸ List.mem_append_left _ hmem
  have hcolon := (h .colon htoken).2
  cases hcolon

/-- No key is found on a line without one. -/
theorem firstKey?_of_keyless {code : List Char} (h : Keyless code)
    (hchain : (tokensFrom .between code).IsChain Token.Follows) : firstKey? code = none := by
  have happend : firstKey? (code ++ []) = firstKey? [] :=
    firstKey?_append rfl (.inl rfl) ((List.append_nil code).symm ▸ h.sound)
      ((List.append_nil code).symm ▸ hchain) h.colon_not_mem_read h.sound.complete.outside
  rwa [List.append_nil] at happend

theorem isBlank_of_isGap {c : Char} (h : Json.isGap c = true) : Text.isBlank c = true := by
  rcases Json.Scan.isGap_iff.mp h with rfl | rfl | rfl | rfl <;> rfl

/-- The key of a line is found at its place. -/
theorem KeyLine.keyAt?_key (l : KeyLine) :
    keyAt? (l.key ++ '"' :: (l.gap ++ ':' :: l.post)) = some l.name := by
  have htake : (l.key ++ '"' :: (l.gap ++ ':' :: l.post)).takeWhile isKeyChar = l.key := by
    rw [List.takeWhile_append_of_pos l.isKeyChar_key]
    exact List.append_nil _
  have hdrop : (l.key ++ '"' :: (l.gap ++ ':' :: l.post)).dropWhile isKeyChar =
      '"' :: (l.gap ++ ':' :: l.post) := List.dropWhile_append_of_pos l.isKeyChar_key
  have htrim : Text.trimStart (l.gap ++ ':' :: l.post) = ':' :: l.post :=
    List.dropWhile_append_of_pos fun c hc => isBlank_of_isGap (l.blank c hc)
  unfold keyAt?
  simp only
  rw [htake, hdrop]
  simp [htrim, l.key_ne_nil, KeyLine.name]

/-- The key of a line is found. -/
theorem KeyLine.firstKey?_line (l : KeyLine)
    (hchain : (tokensFrom .between l.line).IsChain Token.Follows) :
    firstKey? l.line = some l.name := by
  have happend : firstKey? l.line =
      firstKey? ('"' :: (l.key ++ '"' :: (l.gap ++ ':' :: l.post))) :=
    firstKey?_append rfl (.inr ⟨_, rfl⟩) l.sound hchain l.keyless_pre.colon_not_mem_read
      l.keyless_pre.sound.complete.outside
  rw [happend, firstKey?, if_pos (beq_self_eq_true _), l.keyAt?_key]
  rfl

end FirstKey

end TypeSketch.CommentedJson
