import Mathlib.Data.List.Forall2
import TypeSketch.Input.CommentedJson
import TypeSketch.Proofs.Json.Scanning

/-!
# JSON samples — taking comments off

The code of a line is what stands before its comment, and only the quotation marks of that line tell
where a comment starts.  For a text that holds a value this is right: its tokens are sound, so a
slash stands inside a text only, and no text goes on beyond a line (`split_code`).  Putting comments
behind lines and taking them off again leaves the tokens as they were (`tokensFrom_strip`), and
with them the value (`parse_strip`).

Lines are compared by what they hold (`Holds`), which leaves out the comment and a carriage return
before the line feed. The induction is on the lines of the text, and carries where the scan stands:
outside of texts, with a token that a blank may end (`Scan.Complete`).
-/

namespace TypeSketch

namespace Text

/-- A text that is cut has a first piece. -/
theorem exists_splitWhere_eq_cons (p : Char → Bool) (cs : List Char) :
    ∃ piece rest, splitWhere p cs = piece :: rest := by
  cases cs with
  | nil => exact ⟨[], [], rfl⟩
  | cons c cs =>
    rw [splitWhere]
    split
    · exact ⟨_, _, rfl⟩
    · split <;> exact ⟨_, _, rfl⟩

/-- The pieces of a text, put together again. -/
theorem intercalate_pieces (sep : Char) (cs : List Char) :
    [sep].intercalate (pieces sep cs) = cs := by
  rw [pieces]
  induction cs with
  | nil => rfl
  | cons c cs ih =>
    obtain ⟨piece, rest, hps⟩ := exists_splitWhere_eq_cons (· == sep) cs
    rw [hps] at ih
    rw [splitWhere, hps]
    split
    · next hc =>
      rw [List.intercalate_cons_cons, ih, eq_of_beq hc]
      rfl
    · cases rest with
      | nil =>
        rw [List.intercalate_singleton] at ih ⊢
        rw [ih]
      | cons piece' rest =>
        rw [List.intercalate_cons_cons] at ih ⊢
        exact congrArg (c :: ·) ih

end Text

namespace CommentedJson

open Json (Scan tokensFrom)

/-! ### Where a comment starts -/

/-- A character that is no slash outside of texts belongs to the code. -/
theorem splitFrom_cons {inText escaped : Bool} {c : Char} (h : inText = false → c ≠ '/')
    (cs : List Char) :
    splitFrom inText escaped (c :: cs) =
      let (code, comment) := splitFrom (Scan.follow inText escaped c).1
        (Scan.follow inText escaped c).2 cs
      (c :: code, comment) := by
  by_cases hslashes : ∃ rest, c = '/' ∧ cs = '/' :: rest
  · obtain ⟨rest, rfl, rfl⟩ := hslashes
    cases inText with
    | false => exact absurd rfl (h rfl)
    | true => cases escaped <;> rfl
  · rw [splitFrom]
    · cases inText <;> cases escaped <;> rfl
    · exact fun rest hc hcs => hslashes ⟨rest, hc, hcs⟩

/-- The code of a line, and what follows it, where the tokens of the code are sound. -/
theorem splitFrom_append {scan : Scan} {cs rest : List Char} (hlive : scan.isLive = true)
    (h : scan.Sound (cs ++ rest)) (tail : List Char) :
    splitFrom scan.inText scan.escaped (cs ++ tail) =
      let (code, comment) := splitFrom (scan.after cs).inText (scan.after cs).escaped tail
      (cs ++ code, comment) := by
  induction cs generalizing scan with
  | nil => rfl
  | cons c cs ih =>
    have hmoves := h.moves hlive
    rw [List.cons_append, splitFrom_cons hmoves.noSlash, ← hmoves.follow]
    simp only [ih hmoves.live h.tail]
    rfl

/-- Sound code that does not end inside a text is the code of its line. -/
theorem split_code {code rest line : List Char} (h : Scan.between.Sound (code ++ rest))
    (hout : (Scan.between.after code).inText = false)
    (hline : line = code ∨ ∃ comment, line = code ++ '/' :: '/' :: comment) :
    (split line).1 = code := by
  have hsplit := splitFrom_append rfl h
  rw [hout] at hsplit
  rcases hline with rfl | ⟨comment, rfl⟩
  · have hcode := hsplit []
    rw [List.append_nil] at hcode
    exact (congrArg Prod.fst hcode).trans (List.append_nil _)
  · exact (congrArg Prod.fst (hsplit ('/' :: '/' :: comment))).trans (List.append_nil _)

/-! ### Comments behind lines -/

/-- A line, and the line with a comment behind what it holds. A carriage return at the end of the
line stays at its end. -/
inductive Commented : List Char → List Char → Prop
  | plain (line : List Char) : Commented line line
  | comment (code ending comment : List Char) (h : ending = [] ∨ ending = ['\r']) :
      Commented (code ++ ending) (code ++ '/' :: '/' :: comment ++ ending)

/-- What a line holds, and the line ending in a carriage return or not, told from the line with its
comment. -/
structure Holds (code line line' : List Char) : Prop where
  ending : line = code ∨ line = code ++ ['\r']
  comment : line' = code ∨ ∃ comment, line' = code ++ '/' :: '/' :: comment

/-- A line with a comment behind what it holds, holds that. -/
theorem Commented.exists_holds {line line' : List Char} (h : Commented line line') :
    ∃ code, Holds code line line' := by
  cases h with
  | plain => exact ⟨line, .inl rfl, .inl rfl⟩
  | comment code ending comment hending =>
    refine ⟨code, ?_, .inr ⟨comment ++ ending, by simp⟩⟩
    rcases hending with rfl | rfl
    · exact .inl (List.append_nil _)
    · exact .inr rfl

/-- The same of a line whose carriage return is dropped. -/
theorem Commented.exists_holds_dropReturn {line line' : List Char} (h : Commented line line') :
    ∃ code, Holds code line (Text.dropReturn line') := by
  rw [Text.dropReturn]
  split
  · next hlast =>
    obtain ⟨start, hstart⟩ := List.getLast?_eq_some_iff.mp (eq_of_beq hlast)
    rw [hstart, List.dropLast_concat]
    cases h with
    | plain => exact ⟨start, .inr hstart, .inl rfl⟩
    | comment code ending comment hending =>
      refine ⟨code, ?_, .inr ?_⟩
      · rcases hending with rfl | rfl
        · exact .inl (List.append_nil _)
        · exact .inr rfl
      · -- the carriage return is no slash, so it stands behind the two
        rcases List.eq_nil_or_concat (comment ++ ending) with hnil | ⟨before, last, hlast⟩
        · rw [List.append_assoc, List.cons_append, List.cons_append, hnil] at hstart
          have hend := congrArg List.getLast? hstart
          simp at hend
        · refine ⟨before, ?_⟩
          rw [List.append_assoc, List.cons_append, List.cons_append, hlast,
            List.concat_eq_append, ← List.cons_append, ← List.cons_append,
            ← List.append_assoc] at hstart
          exact (List.append_inj_left' hstart rfl).symm
  · exact h.exists_holds

namespace Holds

variable {code line line' : List Char}

/-- What a sound line holds is complete at its end. -/
theorem complete (h : Holds code line line') (rest : List Char)
    (hsound : Scan.between.Sound line ∨ Scan.between.Sound (line ++ '\n' :: rest)) :
    (Scan.between.after code).Complete := by
  have hrest : ∃ rest, Scan.between.Sound (code ++ rest) ∧
      (rest = [] ∨ ∃ c rest', rest = c :: rest' ∧ (c = '\n' ∨ c = '\r')) := by
    rcases h.ending with rfl | rfl
    · rcases hsound with hsound | hsound
      · exact ⟨[], by rwa [List.append_nil], .inl rfl⟩
      · exact ⟨_, hsound, .inr ⟨_, _, rfl, .inl rfl⟩⟩
    · rcases hsound with hsound | hsound
      · exact ⟨_, hsound, .inr ⟨_, _, rfl, .inr rfl⟩⟩
      · rw [List.append_assoc] at hsound
        exact ⟨_, hsound, .inr ⟨_, _, rfl, .inr rfl⟩⟩
  obtain ⟨rest, hsound, rfl | ⟨c, rest', rfl, hc⟩⟩ := hrest
  · exact hsound.append.complete_of_nil (hsound.live_after rfl)
  · exact hsound.append.complete_of_lineEnd (hsound.live_after rfl) hc

/-- The code of a line with a comment is what the line held without it. -/
theorem split_eq (h : Holds code line line') (rest : List Char)
    (hsound : Scan.between.Sound line ∨ Scan.between.Sound (line ++ '\n' :: rest)) :
    (split line').1 = code := by
  have hcode : ∃ rest, Scan.between.Sound (code ++ rest) := by
    rcases h.ending with rfl | rfl
    · rcases hsound with hsound | hsound
      · exact ⟨[], by rwa [List.append_nil]⟩
      · exact ⟨_, hsound⟩
    · rcases hsound with hsound | hsound
      · exact ⟨_, hsound⟩
      · rw [List.append_assoc] at hsound
        exact ⟨_, hsound⟩
  obtain ⟨rest, hcode⟩ := hcode
  exact split_code hcode (h.complete _ hsound).outside h.comment

/-- The tokens of a line that another follows. -/
theorem tokensFrom_append {rest : List Char} (h : Holds code line line')
    (hsound : Scan.between.Sound (line ++ '\n' :: rest)) :
    tokensFrom .between (line ++ '\n' :: rest) =
      tokensFrom .between code ++ tokensFrom .between rest := by
  have hcomplete := h.complete rest (.inr hsound)
  rcases h.ending with rfl | rfl
  · exact hcomplete.tokensFrom_append rfl rest
  · rw [List.append_assoc]
    exact hcomplete.tokensFrom_append rfl ('\n' :: rest)

/-- The tokens of the last line. -/
theorem tokensFrom_eq (h : Holds code line line') (hsound : Scan.between.Sound line) :
    tokensFrom .between line = tokensFrom .between code := by
  have hcomplete := h.complete [] (.inl hsound)
  rcases h.ending with rfl | rfl
  · rfl
  · exact (hcomplete.tokensFrom_append rfl []).trans (List.append_nil _)

end Holds

/-! ### Taking comments off -/

/-- The lines of a text and those with comments behind them have the same tokens, once the comments
are taken off. -/
theorem tokensFrom_strip {ps ps' : List (List Char)} (h : List.Forall₂ Commented ps ps')
    (hsound : Scan.between.Sound (['\n'].intercalate ps)) :
    tokensFrom .between ((Text.linesOfPieces ps').flatMap fun line => (split line).1 ++ ['\n']) =
      tokensFrom .between (['\n'].intercalate ps) := by
  -- On the lines.  The last one may be empty, and then there is no line for it.
  induction h with
  | nil => rfl
  | @cons p p' ps ps' hp hps ih =>
    cases hps with
    | nil =>
      rw [List.intercalate_singleton] at hsound ⊢
      obtain ⟨code, hholds⟩ := hp.exists_holds
      rw [hholds.tokensFrom_eq hsound, Text.linesOfPieces]
      split
      · next hempty =>
        rw [List.isEmpty_iff.mp hempty] at hholds
        rcases hholds.comment with rfl | ⟨comment, h⟩
        · rfl
        · simp at h
      · have hcode := hholds.split_eq [] (.inl hsound)
        have hcomplete := hholds.complete [] (.inl hsound)
        rw [List.flatMap_singleton, hcode]
        exact (hcomplete.tokensFrom_append rfl []).trans (List.append_nil _)
    | @cons q q' qs qs' hq hqs =>
      have hlines : ['\n'].intercalate (p :: q :: qs) =
          p ++ '\n' :: ['\n'].intercalate (q :: qs) := by
        rw [List.intercalate_cons_cons, List.append_assoc]
        rfl
      rw [hlines] at hsound ⊢
      obtain ⟨code, hholds⟩ := hp.exists_holds_dropReturn
      have hcode := hholds.split_eq _ (.inr hsound)
      have hcomplete := hholds.complete _ (.inr hsound)
      have htokens := hholds.tokensFrom_append hsound
      have hrest : Scan.between.Sound (['\n'].intercalate (q :: qs)) := fun t ht =>
        hsound t (by rw [htokens]; exact List.mem_append_right _ ht)
      rw [htokens, ← ih hrest, Text.linesOfPieces, List.flatMap_cons, hcode, List.append_assoc]
      · exact hcomplete.tokensFrom_append rfl _
      · nofun

/-- Comments behind the lines of a text that holds a value do not count. -/
theorem parse_strip {text : String} {v : Json} (h : Json.parse text = .ok v) :
    Json.parse (strip text) = .ok v ∧
      ∀ commented : String, List.Forall₂ Commented (Text.pieces '\n' text.toList)
        (Text.pieces '\n' commented.toList) → Json.parse (strip commented) = .ok v := by
  have hsound : Scan.between.Sound (['\n'].intercalate (Text.pieces '\n' text.toList)) := by
    rw [Text.intercalate_pieces]
    exact Json.isSound_of_parse h
  have hparse : ∀ commented : String, List.Forall₂ Commented (Text.pieces '\n' text.toList)
      (Text.pieces '\n' commented.toList) → Json.parse (strip commented) = .ok v := by
    intro commented hcommented
    have htokens : Json.tokens (strip commented) = Json.tokens text := by
      have hstrip := tokensFrom_strip hcommented hsound
      rw [Text.intercalate_pieces] at hstrip
      rw [Json.tokens, strip, String.toList_ofList]
      exact hstrip
    rw [← h, Json.parse, Json.parse, htokens]
  exact ⟨hparse text (List.forall₂_same.mpr fun line _ => .plain line), hparse⟩

/-- Slashes and quotation marks in a text, and commented lines with both line ends. -/
theorem parse_strip_slashes :
    ∃ v, Json.parse "\x7b\r\n\"u\": \"// \\\"\",\n\"n\": 1 \x7d" = .ok v ∧
      (v.get? "u").bind Json.asStr? = some "// \"" ∧
      Json.parse (strip "\x7b// a \" // b\r\n\"u\": \"// \\\"\",// \"c\n\"n\": 1 \x7d") =
        .ok v := by
  have hparses : ((Json.parse "\x7b\r\n\"u\": \"// \\\"\",\n\"n\": 1 \x7d").toOption.bind
      fun v => (v.get? "u").bind Json.asStr?) = some "// \"" := by decide +kernel
  cases hv : Json.parse "\x7b\r\n\"u\": \"// \\\"\",\n\"n\": 1 \x7d" with
  | error flaw => rw [hv] at hparses; cases hparses
  | ok v =>
    rw [hv] at hparses
    refine ⟨v, rfl, hparses, (parse_strip hv).2 _ ?_⟩
    refine .cons (.comment ['\x7b'] ['\r'] " a \" // b".toList (.inr rfl)) ?_
    refine .cons (.comment "\"u\": \"// \\\"\",".toList [] " \"c".toList (.inl rfl)) ?_
    exact .cons (.plain _) .nil

end CommentedJson

end TypeSketch
