import TypeSketch.Proofs.Json.Reading

/-!
# Reading JSON — texts inside of texts

A text that holds an object ends in its last bracket (`Reader.closes_of_object`), so that the tokens
of a longer text are those of its parts wherever such a text is followed by another
(`tokensFrom_object`).  A reader that goes through it above other open arrays and objects does what
it does alone (`Reader.step_above`), unless too many are open.

The relation between a reader alone and the reader above other frames is `Reader.above`. One lemma a
move says that it is kept (`above_complete`, `above_close`, `above_enter`, `above_startValue`,
`above_readName`), and `step_above` puts them together by the place of the reader. The only thing
that can go wrong is the depth, which `Reader.Above` has as a case of its own.
-/

namespace TypeSketch.Json

namespace Reader

variable {reader next : Reader} {t : Token} {base stack : List Frame} {o : Outline}

/-- The reader has read its value. -/
def IsDone (reader : Reader) : Prop := ∃ o, reader.place = .done o

/-- The reader that does the same inside the arrays and objects of `base`, which goes on there when
its value has been read. -/
def above (base : List Frame) (reader : Reader) : Reader :=
  match reader.place with
  | .done o => complete base o
  | place => ⟨reader.stack ++ base, place⟩

theorem above_complete (base stack : List Frame) (o : Outline) :
    (complete stack o).above base = complete (stack ++ base) o := by
  rcases stack with _ | ⟨⟨items⟩ | ⟨members, name⟩, rest⟩ <;> rfl

theorem above_close (hdeep : stack.length + base.length < maxDepth) :
    (close stack o).above base = close (stack ++ base) o := by
  rw [close, close, if_pos (by omega), if_pos (by simpa using hdeep), above_complete]

/-- There is place for the arrays and objects that are open, inside of `n` others. -/
def Within (n : Nat) (reader : Reader) : Prop := reader.stack.length + n ≤ maxDepth

/-- How a step comes out inside of other arrays and objects, where there may be no place. -/
inductive Above (base : List Frame) (next : Reader) : Except Flaw Reader → Prop
  | goes (h : next.Within base.length) : Above base next (.ok (next.above base))
  | deep (h : ¬ next.Within base.length) : Above base next (.error .malformed)

/-- A reader that has not read its value stays at its place. -/
theorem above_unfinished {place : Place} (hplace : ∀ o, place ≠ .done o)
    (base stack : List Frame) : Reader.above base ⟨stack, place⟩ = ⟨stack ++ base, place⟩ := by
  cases place with
  | done o => exact absurd rfl (hplace o)
  | _ => rfl

theorem above_goes {place : Place} (hplace : ∀ o, place ≠ .done o)
    (hdeep : stack.length + base.length ≤ maxDepth) :
    Above base ⟨stack, place⟩ (.ok ⟨stack ++ base, place⟩) := by
  rw [← above_unfinished hplace]
  exact .goes hdeep

/-- An array or object is opened inside of others as it is alone, or is too deep there. -/
theorem above_enter {frame : Frame} {place : Place} (hplace : ∀ o, place ≠ .done o)
    (h : enter true stack frame place = .ok next) :
    Above base next (enter true (stack ++ base) frame place) := by
  rw [enter] at h
  split at h
  · cases h
  · cases h
    have hnext := above_unfinished hplace base (frame :: stack)
    rw [List.cons_append] at hnext
    rw [enter]
    split
    · next hfull =>
      refine .deep fun hwithin => ?_
      simp only [Within, List.length_cons, List.length_append, Bool.true_and,
        decide_eq_true_eq] at hwithin hfull
      omega
    · next hfree =>
      rw [← hnext]
      refine .goes ?_
      simp only [Within, List.length_cons, List.length_append, Bool.true_and,
        decide_eq_true_eq] at hfree ⊢
      omega

theorem within_complete (h : stack.length + base.length ≤ maxDepth) :
    (complete stack o).Within base.length := by
  rwa [Within, length_complete]

/-- A value starts inside of others as it does alone, if there is place for what it opens. -/
theorem above_startValue (hdeep : stack.length + base.length ≤ maxDepth)
    (h : startValue true stack t = .ok next) :
    Above base next (startValue true (stack ++ base) t) := by
  have hcomplete : ∀ o, Above base (complete stack o) (.ok (complete (stack ++ base) o)) := by
    intro o
    rw [← above_complete]
    exact .goes (within_complete hdeep)
  cases t with
  | atom v apart =>
    cases v with
    | none => cases h
    | some v => cases h; exact hcomplete _
  | text s =>
    cases s with
    | none => cases h
    | some s => cases h; exact hcomplete _
  | beginArr | beginObj => exact above_enter nofun h
  | _ => cases h

/-- A name is read inside of others as it is alone. -/
theorem above_readName (hdeep : stack.length + base.length ≤ maxDepth)
    (h : readName true stack t = .ok next) :
    Above base next (readName true (stack ++ base) t) := by
  cases t with
  | text s =>
    rcases stack with _ | ⟨⟨items⟩ | ⟨members, name⟩, rest⟩
    · cases h
    · cases h
    · cases s with
      | none => cases h
      | some s =>
        cases h
        exact above_goes nofun hdeep
  | _ => cases h

theorem step_value (stack : List Frame) (t : Token) :
    step true ⟨stack, .value⟩ t = startValue true stack t := by
  cases t <;> rfl

theorem step_firstItem (stack : List Frame) (ht : t ≠ .endArr) :
    step true ⟨stack, .firstItem⟩ t = startValue true stack t := by
  rcases stack with _ | ⟨⟨items⟩ | ⟨members, name⟩, rest⟩ <;> cases t <;>
    first | rfl | exact absurd rfl ht

theorem step_firstName (stack : List Frame) (ht : t ≠ .endObj) :
    step true ⟨stack, .firstName⟩ t = readName true stack t := by
  rcases stack with _ | ⟨⟨items⟩ | ⟨members, name⟩, rest⟩ <;> cases t <;>
    first | rfl | exact absurd rfl ht

theorem step_name (stack : List Frame) (t : Token) :
    step true ⟨stack, .name⟩ t = readName true stack t := by
  cases t <;> rfl

/-- A bracket closes something inside of other arrays and objects as it does alone. -/
theorem above_closed {frame : Frame} {place : Place}
    (hdeep : (⟨frame :: stack, place⟩ : Reader).Within base.length) :
    Above base (close stack o) (.ok (close (stack ++ base) o)) := by
  have hstack : stack.length + base.length < maxDepth := by
    simp only [Within, List.length_cons] at hdeep
    omega
  rw [← above_close hstack]
  refine .goes ?_
  rw [close, if_pos (by omega)]
  exact within_complete (Nat.le_of_lt hstack)

/-- Inside of other arrays and objects a reader takes the step that it takes alone, if there is
place for what it opens. -/
theorem step_above (hdeep : reader.Within base.length) (h : reader.step true t = .ok next) :
    Above base next ((reader.above base).step true t) := by
  obtain ⟨stack, place⟩ := reader
  -- Where a bracket closes something, the innermost frame is one of the reader's own.
  cases place with
  | value =>
    rw [step_value] at h
    change Above base next (step true ⟨stack ++ base, .value⟩ t)
    rw [step_value]
    exact above_startValue hdeep h
  | firstItem =>
    change Above base next (step true ⟨stack ++ base, .firstItem⟩ t)
    by_cases ht : t = .endArr
    · subst ht
      rcases stack with _ | ⟨⟨items⟩ | ⟨members, name⟩, rest⟩ <;> cases h
      exact above_closed hdeep
    · rw [step_firstItem _ ht] at h ⊢
      exact above_startValue hdeep h
  | firstName =>
    change Above base next (step true ⟨stack ++ base, .firstName⟩ t)
    by_cases ht : t = .endObj
    · subst ht
      rcases stack with _ | ⟨⟨items⟩ | ⟨members, name⟩, rest⟩ <;> cases h
      exact above_closed hdeep
    · rw [step_firstName _ ht] at h ⊢
      exact above_readName hdeep h
  | name =>
    rw [step_name] at h
    change Above base next (step true ⟨stack ++ base, .name⟩ t)
    rw [step_name]
    exact above_readName hdeep h
  | colon =>
    cases t with
    | colon =>
      cases h
      exact above_goes nofun hdeep
    | _ => cases h
  | next =>
    rcases stack with _ | ⟨⟨items⟩ | ⟨members, name⟩, rest⟩ <;> cases t <;> cases h
    · exact above_closed hdeep
    · exact above_goes nofun hdeep
    · exact above_closed hdeep
    · exact above_goes nofun hdeep
  | done => cases t <;> cases h

/-! ### The end of an object -/

theorem eq_of_place_complete {o' : Outline} (h : (complete stack o).place = .done o') : o' = o := by
  rcases stack with _ | ⟨⟨items⟩ | ⟨members, name⟩, rest⟩ <;> cases h
  rfl

/-- The start of a value completes no object: what one token holds whole is an atom or a text. -/
theorem not_object_of_startValue {members : List (String × Json)} (hleaf : t.IsLeaf)
    (h : startValue true stack t = .ok next) (ho : o.settle? = some (.obj members)) :
    next.place ≠ .done o := by
  intro hdone
  cases t with
  | atom v apart =>
    cases v with
    | none => cases h
    | some v =>
      cases h
      obtain rfl := eq_of_place_complete hdone
      obtain rfl : v = .obj members := Option.some.inj ho
      cases hleaf _ _ rfl
  | text s =>
    cases s with
    | none => cases h
    | some s =>
      cases h
      obtain rfl := eq_of_place_complete hdone
      cases ho
  | beginArr | beginObj =>
    change enter true _ _ _ = _ at h
    rw [enter] at h
    split at h
    · cases h
    · cases h
      cases hdone
  | _ => cases h

/-- A name completes no value. -/
theorem not_done_of_readName (h : readName true stack t = .ok next) : next.place ≠ .done o := by
  intro hdone
  cases t with
  | text s =>
    rcases stack with _ | ⟨⟨items⟩ | ⟨members, name⟩, rest⟩
    · cases h
    · cases h
    · cases s with
      | none => cases h
      | some s =>
        cases h
        cases hdone
  | _ => cases h

/-- An object that has been read ends in a bracket. -/
theorem closes_of_step {members : List (String × Json)} (hleaf : t.IsLeaf)
    (h : reader.step true t = .ok next) (hdone : next.place = .done o)
    (ho : o.settle? = some (.obj members)) : t = .endArr ∨ t = .endObj := by
  obtain ⟨stack, place⟩ := reader
  -- What one token starts and completes is no object, so a bracket has closed it.
  cases place with
  | value =>
    rw [step_value] at h
    exact absurd hdone (not_object_of_startValue hleaf h ho)
  | firstItem =>
    by_cases ht : t = .endArr
    · exact .inl ht
    · rw [step_firstItem _ ht] at h
      exact absurd hdone (not_object_of_startValue hleaf h ho)
  | firstName =>
    by_cases ht : t = .endObj
    · exact .inr ht
    · rw [step_firstName _ ht] at h
      exact absurd hdone (not_done_of_readName h)
  | name =>
    rw [step_name] at h
    exact absurd hdone (not_done_of_readName h)
  | colon =>
    cases t with
    | colon =>
      cases h
      cases hdone
    | _ => cases h
  | next =>
    rcases stack with _ | ⟨⟨items⟩ | ⟨members, name⟩, rest⟩ <;> cases t <;> cases h
    · exact .inl rfl
    · cases hdone
    · exact .inr rfl
    · cases hdone
  | done => cases t <;> cases h

end Reader

/-- Where a blank may end the token at hand, there is none, or it is an atom. -/
theorem Scan.Complete.eq_between {scan : Scan} (h : scan.Complete) :
    scan = .between ∨ ∃ v apart, scan.finish = [.atom v apart] := by
  have hgap := h.gap '\n' rfl
  cases scan with
  | between => exact .inl rfl
  | word left value =>
    cases left with
    | nil => exact .inr ⟨_, _, rfl⟩
    | cons e left =>
      rw [step] at hgap
      split at hgap <;> cases hgap
  | number part literal =>
    cases part with
    | zero | whole | fraction | exponent => exact .inr ⟨_, _, rfl⟩
    | sign | point | mark | markSign => cases hgap
  | stopped => cases hgap
  | text | escape | code | pairSlash | pairMark => cases h.outside

/-! ### Texts of objects -/

/-- A text that holds an object. -/
structure ObjectText where
  /-- The text, which may begin and end in blanks. -/
  text : String
  /-- The members of the object. -/
  members : List (String × Json)
  /-- The text holds the object, and nothing after it. -/
  parses : parse text = .ok (.obj members)

namespace ObjectText

/-- A text that is read as an object is the text of one. -/
theorem exists_objectText {text : String}
    (h : ((parse text).toOption.bind asObj?).isSome = true) :
    ∃ object : ObjectText, object.text = text := by
  cases hparse : parse text with
  | error flaw => simp [hparse, Except.toOption] at h
  | ok v =>
    cases v with
    | obj members => exact ⟨⟨text, members, hparse⟩, rfl⟩
    | _ => simp [hparse, Except.toOption, asObj?] at h

/-- The object that the text holds. -/
def value (object : ObjectText) : Json := .obj object.members

/-- What is read in the text. -/
def outline (object : ObjectText) : Outline := (outline? object.text).getD .broken

variable (object : ObjectText)

theorem outline?_eq : outline? object.text = some object.outline := by
  obtain ⟨o, ho, -⟩ := exists_outline?_of_parse object.parses
  rw [outline, ho, Option.getD_some]

theorem settle?_outline : object.outline.settle? = some object.value := by
  obtain ⟨o, ho, hv⟩ := exists_outline?_of_parse object.parses
  rw [outline, ho, Option.getD_some, hv, value]

/-- The last token of the text, a bracket, completes the object. -/
theorem exists_run : ∃ ts k stack, tokens object.text = ts ++ [k] ∧ (k = .endArr ∨ k = .endObj) ∧
    (ts ++ [k]).foldlM (Reader.step true) {} = .ok ⟨stack, .done object.outline⟩ := by
  obtain ⟨stack, hrun⟩ := exists_foldlM_of_outline? object.outline?_eq
  rcases List.eq_nil_or_concat (tokens object.text) with hnil | ⟨ts, k, hts⟩
  · rw [hnil] at hrun
    cases hrun
  · rw [List.concat_eq_append] at hts
    rw [hts] at hrun
    refine ⟨ts, k, stack, hts, ?_, hrun⟩
    have hleaf : k.IsLeaf := isLeaf_of_mem_tokens k (hts ▸ List.mem_append_right _ (by simp))
    rw [List.foldlM_append] at hrun
    obtain ⟨before, -, hlast⟩ := Except.bind_eq_ok.mp hrun
    rw [List.foldlM_cons] at hlast
    obtain ⟨last, hstep, hnil⟩ := Except.bind_eq_ok.mp hlast
    cases hnil
    exact Reader.closes_of_step hleaf hstep rfl object.settle?_outline

/-- No token is left open at the end of the text. -/
theorem after_eq : Scan.between.after object.text.toList = .between := by
  have hsound : Scan.between.Sound object.text.toList := isSound_of_parse object.parses
  rcases hsound.complete.eq_between with h | ⟨v, apart, hfinish⟩
  · exact h
  · obtain ⟨ts, k, -, hts, hk, -⟩ := object.exists_run
    have htokens : tokens object.text = _ := tokensFrom_eq .between object.text.toList
    rw [hfinish, hts] at htokens
    obtain ⟨-, rfl⟩ := List.append_singleton_inj.mp htokens
    rcases hk with hk | hk <;> cases hk

/-- The tokens of a text that goes on behind an object. -/
theorem tokensFrom_append (rest : List Char) :
    tokensFrom .between (object.text.toList ++ rest) =
      tokens object.text ++ tokensFrom .between rest := by
  have htokens : tokens object.text = _ := tokensFrom_eq .between object.text.toList
  rw [after_eq, Scan.finish, List.append_nil] at htokens
  rw [Json.tokensFrom_append, after_eq, htokens]

end ObjectText

end TypeSketch.Json
