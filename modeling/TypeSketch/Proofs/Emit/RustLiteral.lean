import TypeSketch.Json.Token
import TypeSketch.Proofs.Emit.RustMarks

/-!
# Data types in Rust — names between quotation marks

A text literal is read behind its opening quotation mark, one character at a time, up to the mark
that closes it (`readLiteral?`).  The names that data goes by are written between quotation marks as
they are: such a name is read back, and the literal ends where it was closed, exactly if the name
has no quotation mark, no backslash and no carriage return (`readLiteral?_eq_iff`), so that of a
text with one of these nothing can be said (`arguments_of_quoted`).  The crux is that no character
of a literal stands for more than one (`Reading.length_step`), and a backslash stands for less.
-/

namespace TypeSketch.Rust

/-! ### Text literals -/

/-- Where a reader is inside a text literal. -/
inductive Reading
  | text
  /-- Behind a backslash. -/
  | escape
  /-- Behind `\x`, and behind its first digit. -/
  | code
  | codeEnd (high : Nat)
  /-- Behind `\u`, and behind some digits in its braces. -/
  | point
  | digits (count value : Nat)
  /-- Behind a carriage return, which stands before a line feed. Both belong to the text or not. -/
  | lineEnd (kept : Bool)
  /-- Behind a backslash at the end of a line: blanks are passed over. -/
  | passing
deriving DecidableEq

namespace Reading

/-- A quotation mark here closes the literal. -/
def closes : Reading → Bool
  | text | passing => true
  | _ => false

/-- Read a character of the text itself. -/
def ofText (c : Char) : Reading × List Char :=
  if c == '\\' then (escape, []) else if c == '\r' then (lineEnd true, []) else (text, [c])

/-- Read the character behind a backslash. -/
def ofEscape (c : Char) : Option (Reading × List Char) :=
  if c == '"' || c == '\'' || c == '\\' then some (text, [c])
  else if c == 'n' then some (text, ['\n'])
  else if c == 'r' then some (text, ['\r'])
  else if c == 't' then some (text, ['\t'])
  else if c == '0' then some (text, [Char.ofNat 0])
  else if c == 'x' then some (code, [])
  else if c == 'u' then some (point, [])
  else if c == '\n' then some (passing, [])
  else if c == '\r' then some (lineEnd false, [])
  else none

/-- Read a character in the braces of a code point. -/
def ofDigits (count value : Nat) (c : Char) : Option (Reading × List Char) :=
  if c == '\x7d' then
    if 0 < count && value.isValidChar then some (text, [Char.ofNat value]) else none
  else if c == '_' then if 0 < count then some (digits count value, []) else none
  else
    match Json.hexValue? c with
    | some d => if count < 6 then some (digits (count + 1) (value * 16 + d), []) else none
    | none => none

/-- Read a character that does not close the literal: what comes next, and what the text has of it.
Nothing if no literal goes on like that. -/
def step : Reading → Char → Option (Reading × List Char)
  | text, c => some (ofText c)
  | escape, c => ofEscape c
  | code, c =>
    match Json.hexValue? c with
    | some d => if d < 8 then some (codeEnd d, []) else none
    | none => none
  | codeEnd high, c => (Json.hexValue? c).map fun d => (text, [Char.ofNat (high * 16 + d)])
  | point, c => if c == '\x7b' then some (digits 0 0, []) else none
  | digits count value, c => ofDigits count value c
  | lineEnd kept, c =>
    if c == '\n' then some (if kept then (text, ['\n']) else (passing, [])) else none
  | passing, c =>
    if c == ' ' || c == '\t' || c == '\n' || c == '\r' then some (passing, []) else some (ofText c)

end Reading

/-- The text of a literal and what stands behind its closing quotation mark. -/
def readLiteral? : Reading → List Char → Option (List Char × List Char)
  | _, [] => none
  | reading, c :: cs =>
    if c == '"' && reading.closes then some ([], cs)
    else
      (reading.step c).bind fun (next, out) =>
        (readLiteral? next cs).map fun (text, rest) => (out ++ text, rest)

/-- Quotation marks, tabs and codes are read. -/
example : readLiteral? .text "a\\\"\\t\\u\x7b41\x7d\" )".toList =
    some ("a\"\tA".toList, " )".toList) := by decide +kernel

/-- The character stands for itself in a literal. -/
def Plain (c : Char) : Prop := c ≠ '"' ∧ c ≠ '\\' ∧ c ≠ '\r'

instance (c : Char) : Decidable (Plain c) :=
  inferInstanceAs (Decidable (c ≠ '"' ∧ c ≠ '\\' ∧ c ≠ '\r'))

namespace Reading

variable {reading next : Reading} {c : Char} {out : List Char}

theorem length_ofText (c : Char) : (ofText c).2.length ≤ 1 := by
  unfold ofText
  split
  · exact Nat.zero_le _
  · split <;> simp

theorem length_ofEscape (h : ofEscape c = some (next, out)) : out.length ≤ 1 := by
  unfold ofEscape at h
  grind

theorem length_ofDigits {count value : Nat} (h : ofDigits count value c = some (next, out)) :
    out.length ≤ 1 := by
  unfold ofDigits at h
  grind

/-- A character of a literal stands for one of the text at most. -/
theorem length_step (h : reading.step c = some (next, out)) : out.length ≤ 1 := by
  have htext : some (ofText c) = some (next, out) → out.length ≤ 1 := by
    intro h
    have hout : (ofText c).2 = out := congrArg Prod.snd (Option.some.inj h)
    exact hout ▸ length_ofText c
  cases reading with
  | text => exact htext h
  | escape => exact length_ofEscape h
  | code => simp only [step] at h; grind
  | codeEnd high =>
    obtain ⟨d, -, h⟩ := Option.map_eq_some_iff.mp h
    cases h
    exact Nat.le_refl 1
  | point => simp only [step] at h; grind
  | digits count value => exact length_ofDigits h
  | lineEnd kept => simp only [step] at h; grind
  | passing =>
    rw [step] at h
    split at h
    · cases h; exact Nat.zero_le _
    · exact htext h

end Reading

/-- A text is not longer than its literal, and a quotation mark closes it. -/
theorem length_readLiteral? {reading : Reading} {cs text rest : List Char}
    (h : readLiteral? reading cs = some (text, rest)) :
    text.length + 1 + rest.length ≤ cs.length := by
  induction cs generalizing reading text with
  | nil => cases h
  | cons c cs ih =>
    rw [readLiteral?] at h
    split at h
    · cases h
      simp [Nat.add_comm]
    · obtain ⟨⟨next, out⟩, hstep, h⟩ := Option.bind_eq_some_iff.mp h
      obtain ⟨⟨text', rest'⟩, hread, h⟩ := Option.map_eq_some_iff.mp h
      cases h
      have hout := Reading.length_step hstep
      have hrest := ih hread
      rw [List.length_append, List.length_cons]
      omega

/-- A name between quotation marks is read back, and the literal ends where it was closed, exactly
if each of its characters stands for itself. -/
theorem readLiteral?_eq_iff (name rest : List Char) :
    readLiteral? .text (name ++ '"' :: rest) = some (name, rest) ↔ ∀ c ∈ name, Plain c := by
  induction name with
  | nil => exact ⟨fun _ => nofun, fun _ => rfl⟩
  | cons c name ih =>
    rw [List.forall_mem_cons, ← ih, List.cons_append, readLiteral?]
    by_cases hquote : c = '"'
    · -- the name would end here
      subst hquote
      exact ⟨nofun, fun ⟨hc, _⟩ => absurd rfl hc.1⟩
    have hopen : (c == '"' && Reading.text.closes) = false := by simp [hquote]
    rw [hopen, if_neg nofun, Reading.step, Option.bind_some, Reading.ofText]
    by_cases hc : c = '\\' ∨ c = '\r'
    · -- the character stands for nothing by itself, so that the rest would be too short
      obtain ⟨next, hnext⟩ : ∃ next, (if c == '\\' then (Reading.escape, []) else
          if c == '\r' then (Reading.lineEnd true, []) else (Reading.text, [c])) =
            ((next, []) : Reading × List Char) := by
        rcases hc with rfl | rfl
        · exact ⟨_, rfl⟩
        · exact ⟨_, rfl⟩
      rw [hnext]
      refine ⟨fun h => ?_, fun ⟨⟨_, hslash, hreturn⟩, _⟩ => absurd hc (by simp [hslash, hreturn])⟩
      obtain ⟨⟨text, rest'⟩, hread, h⟩ := Option.map_eq_some_iff.mp h
      obtain ⟨rfl, rfl⟩ := Prod.mk.inj h
      have hlength := length_readLiteral? hread
      simp only [List.length_cons, List.length_append] at hlength
      omega
    · rw [not_or] at hc
      have hplain : Plain c := ⟨hquote, hc.1, hc.2⟩
      simp [hc.1, hc.2, hplain]

/-- The text of a literal is what was written, and it ends where it was closed. -/
def ReadsBack (name rest : String) : Prop :=
  readLiteral? .text (name ++ "\"" ++ rest).toList = some (name.toList, rest.toList)

theorem readsBack_iff (name rest : String) :
    ReadsBack name rest ↔ ∀ c ∈ name.toList, Plain c := by
  rw [ReadsBack, ← readLiteral?_eq_iff name.toList rest.toList]
  simp

/-! ### What is written -/

/-- **Names between quotation marks.**  What is written for a shape, by itself or as a model, has
the names that its fields and variants go by as arguments, in order; each of them is read back from
its opening quotation mark exactly if every character of it stands for itself. -/
theorem arguments_read_back {s : Shape} {out : String}
    (h : (∃ target, Emitter.rustData.writeShape target s = .ok out) ∨
      ∃ target d, Emitter.rustData.writeModel target d (.shape s) = .ok out) :
    ∃ pieces, out = textOf pieces ∧ marksOf pieces = (declared s).flatMap declarationMarks ∧
      ∀ front key name rest, pieces = front ++ .mark (.argument key name) :: rest →
        out = textOf front ++ key ++ " = \"" ++ (name ++ "\"" ++ textOf rest) ∧
        (ReadsBack name (textOf rest) ↔ ∀ c ∈ name.toList, Plain c) := by
  obtain ⟨pieces, rfl, hmarks⟩ : Bears out ((declared s).flatMap declarationMarks) := by
    rcases h with ⟨_, h⟩ | ⟨_, d, h⟩
    · exact bears_writeDeclarations h
    · exact bears_writeModel h
  refine ⟨pieces, rfl, hmarks, ?_⟩
  rintro front key name rest rfl
  refine ⟨?_, readsBack_iff name (textOf rest)⟩
  rw [textOf_append, textOf_cons, Piece.text, Mark.text]
  simp only [String.append_assoc]

/-- An enum of two variants, one of which has two names. -/
def sideEnum (other : String) : Shape :=
  Shape.enum "side" [Shape.variant ["buy", other], Shape.variant ["SELL"]]

/-- Names without quotation marks are read back. -/
theorem arguments_of_side : ∃ out pieces,
    Emitter.rustData.writeShape "rust" (sideEnum "b") = .ok out ∧ out = textOf pieces ∧
    marksOf pieces =
      [.argument "serialize" "b", .argument "serialize" "buy", .argument "rename" "buy"] ∧
    ∀ front key name rest, pieces = front ++ .mark (.argument key name) :: rest →
      ReadsBack name (textOf rest) := by
  obtain ⟨out, hout⟩ : ∃ out, Emitter.rustData.writeShape "rust" (sideEnum "b") = .ok out :=
    Except.exists_of_isOk (by decide +kernel)
  obtain ⟨pieces, htext, hmarks, hback⟩ := arguments_read_back (.inl ⟨"rust", hout⟩)
  have hnames : (declared (sideEnum "b")).flatMap declarationMarks =
      [.argument "serialize" "b", .argument "serialize" "buy", .argument "rename" "buy"] := by
    decide +kernel
  rw [hnames] at hmarks
  refine ⟨out, pieces, hout, htext, hmarks, fun front key name rest hpieces => ?_⟩
  have hmem : Mark.argument key name ∈ marksOf pieces := by
    rw [hpieces]
    exact List.mem_filterMap.mpr ⟨.mark (.argument key name), by simp, rfl⟩
  have hname : name = "b" ∨ name = "buy" := by
    simp only [hmarks, List.mem_cons, Mark.argument.injEq, List.not_mem_nil, or_false] at hmem
    tauto
  refine (hback front key name rest hpieces).2.mpr ?_
  rcases hname with rfl | rfl <;> simp [Plain]

/-- A quotation mark in a name ends its literal: the argument for `b"c` says `b`. -/
theorem arguments_of_quoted :
    let front := "#[derive(Copy, Clone, Debug, Serialize, Deserialize, PartialEq, Eq, " ++
      "EnumString, Display)]\npub enum Side \x7b\n    #[strum(serialize = \""
    let rest := ", serialize = \"buy\")]\n    #[serde(rename = \"buy\")]\n    Buy,\n    SELL,\n\x7d\n"
    (Emitter.rustData.writeShape "rust" (sideEnum "b\"c")).toOption =
      some (front ++ ("b\"c" ++ "\"" ++ rest)) ∧
    (declared (sideEnum "b\"c")).flatMap declarationMarks =
      [.argument "serialize" "b\"c", .argument "serialize" "buy", .argument "rename" "buy"] ∧
    readLiteral? .text ("b\"c" ++ "\"" ++ rest).toList =
      some ("b".toList, ("c\"" ++ rest).toList) := by
  decide +kernel

end TypeSketch.Rust
