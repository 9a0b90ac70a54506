import TypeSketch.Proofs.Input.Rows
import TypeSketch.Proofs.Json.Nesting
import TypeSketch.Proofs.Text.Join

/-!
# Reading JSON — one value after the other

A text that holds values and goes on in a new line with others holds both, one after the other
(`parseAll_append`).  Objects can be written by themselves or together in arrays (`Piece`): if an
array of them all can be read, then so can the objects in any such writing, and what is read are
the same objects in the same order (`parseAll_write`).

A sequence is a fold over tokens whose state has the values so far. Those values do not matter to
what follows (`Sequence.foldlM_append`), and a token that completes a value starts the next one
(`Sequence.step_of_done`). An object is read alike alone and in an array (`ObjectText.foldlM_alone`,
`foldlM_array`), where the condition is that there is place for its depth (`ObjectText.Nests`).
-/

namespace TypeSketch.Json

/-! ### Sequences -/

namespace Sequence

variable {reader next : Reader} {t : Token} {ts : List Token} {done : List Json} {o : Outline}

/-- Values that have been read before do not matter. -/
theorem step_append (before : List Json) (state : Sequence) (t : Token) :
    step (state.1 ++ before, state.2) t =
      (step state t).map fun state => (state.1 ++ before, state.2) := by
  obtain ⟨done, reader⟩ := state
  simp only [step]
  cases (reader.getD {}).step true t with
  | error flaw => rfl
  | ok reader' =>
    obtain ⟨stack, place⟩ := reader'
    cases place with
    | done o =>
      change (if t.isApart then _ else _) = Except.map _ (if t.isApart then _ else _)
      cases t.isApart with
      | false => rfl
      | true => cases settled o <;> rfl
    | _ => rfl

/-- Values that have been read before stay behind those that are read. -/
theorem foldlM_append (before : List Json) (ts : List Token) (state : Sequence) :
    ts.foldlM step (state.1 ++ before, state.2) =
      (ts.foldlM step state).map fun state => (state.1 ++ before, state.2) := by
  induction ts generalizing state with
  | nil => rfl
  | cons t ts ih =>
    rw [List.foldlM_cons, List.foldlM_cons, step_append]
    cases step state t with
    | error flaw => rfl
    | ok state' => exact ih state'

/-- A sequence takes the tokens that its reader takes. -/
theorem isSound_of_step {state state' : Sequence} (h : step state t = .ok state') :
    t.isSound = true := by
  obtain ⟨reader, hstep, -⟩ := Except.bind_eq_ok.mp h
  exact Reader.isSound_of_step hstep

/-- The reader goes on. -/
theorem step_of_going (h : reader.step true t = .ok next) (hnext : ¬ next.IsDone) :
    step (done, some reader) t = .ok (done, some next) := by
  obtain ⟨stack, place⟩ := next
  simp only [step, Option.getD_some, h]
  cases place with
  | done o => exact absurd ⟨o, rfl⟩ hnext
  | _ => rfl

/-- The reader has read its value, which joins the others. -/
theorem step_of_done {stack : List Frame} {v : Json}
    (h : reader.step true t = .ok ⟨stack, .done o⟩) (hapart : t.isApart = true)
    (ho : o.settle? = some v) : step (done, some reader) t = .ok (v :: done, none) := by
  simp only [step, Option.getD_some, h]
  change (if t.isApart then _ else _) = _
  rw [if_pos hapart, settled, ho]
  rfl

theorem not_isDone_of_step (h : reader.step true t = .ok next) : ¬ reader.IsDone := by
  rintro ⟨o, hdone⟩
  obtain ⟨stack, place⟩ := reader
  cases hdone
  cases t <;> cases h

/-- The tokens of a value but the last take the reader on. -/
theorem foldlM_of_run {k : Token} {last : Reader} (done : List Json)
    (hrun : (ts ++ [k]).foldlM (Reader.step true) reader = .ok last) :
    ∃ before, before.step true k = .ok last ∧
      ts.foldlM step (done, some reader) = .ok (done, some before) := by
  induction ts generalizing reader with
  | nil =>
    rw [List.nil_append, List.foldlM_cons] at hrun
    obtain ⟨next, hstep, hnil⟩ := Except.bind_eq_ok.mp hrun
    cases hnil
    exact ⟨reader, hstep, rfl⟩
  | cons t ts ih =>
    rw [List.cons_append, List.foldlM_cons] at hrun
    obtain ⟨next, hstep, hrest⟩ := Except.bind_eq_ok.mp hrun
    -- the reader goes on after `t`, since it takes another token
    have hgoing : ¬ next.IsDone := by
      obtain ⟨t', ts', hts⟩ : ∃ t' ts', ts ++ [k] = t' :: ts' :=
        List.exists_cons_of_ne_nil (by simp)
      rw [hts, List.foldlM_cons] at hrest
      obtain ⟨_, hstep', -⟩ := Except.bind_eq_ok.mp hrest
      exact not_isDone_of_step hstep'
    obtain ⟨before, hlast, hts⟩ := ih hrest
    refine ⟨before, hlast, ?_⟩
    rw [List.foldlM_cons, step_of_going hstep hgoing]
    exact hts

/-- Inside of an array the reader is never done. -/
theorem not_isDone_above (items : List Outline) (reader : Reader) :
    ¬ (reader.above [.arr items]).IsDone := by
  rintro ⟨o, hdone⟩
  obtain ⟨stack, place⟩ := reader
  cases place <;> cases hdone

/-- What can be read inside of one array can be read inside of any other. -/
theorem foldlM_above {last : Reader} {items : List Outline} {state : Sequence}
    (hrun : ts.foldlM (Reader.step true) reader = .ok last) (hdeep : reader.Within 1)
    (h : ts.foldlM step (done, some (reader.above [.arr items])) = .ok state)
    (done' : List Json) (items' : List Outline) :
    ts.foldlM step (done', some (reader.above [.arr items'])) =
      .ok (done', some (last.above [.arr items'])) := by
  induction ts generalizing reader with
  | nil =>
    cases hrun
    rfl
  | cons t ts ih =>
    rw [List.foldlM_cons] at hrun h ⊢
    obtain ⟨next, hstep, hrest⟩ := Except.bind_eq_ok.mp hrun
    obtain ⟨state', hstate, h⟩ := Except.bind_eq_ok.mp h
    -- Above the one array the step comes off, so there is place for it above the other.
    have habove : Reader.Above [.arr items] next _ := Reader.step_above hdeep hstep
    have habove' : Reader.Above [.arr items'] next _ := Reader.step_above hdeep hstep
    cases hsome : (reader.above [.arr items]).step true t with
    | error flaw =>
      simp only [step, Option.getD_some, hsome] at hstate
      cases hstate
    | ok next₁ =>
      rw [hsome] at habove
      cases habove with
      | goes hwithin =>
        rw [step_of_going hsome (not_isDone_above items _)] at hstate
        cases hstate
        cases hother : (reader.above [.arr items']).step true t with
        | error flaw =>
          rw [hother] at habove'
          cases habove' with
          | deep hfull => exact absurd hwithin hfull
        | ok next₂ =>
          rw [hother] at habove'
          cases habove'
          rw [step_of_going hother (not_isDone_above items' _)]
          exact ih hrest hwithin h

end Sequence

/-! ### Texts one after the other -/

/-- A text that holds values has sound tokens only. -/
theorem isSound_of_parseAll {text : String} {values : List Json} (h : parseAll text = .ok values) :
    ∀ t ∈ tokens text, t.isSound = true := by
  obtain ⟨state, hread, -⟩ := Except.bind_eq_ok.mp h
  intro t ht
  obtain ⟨before, after, hstep⟩ := Except.foldlM_eq_ok hread t ht
  exact Sequence.isSound_of_step hstep

/-- A text holds values if its tokens leave them, and no value begun. -/
theorem parseAll_eq_ok_iff {text : String} {values : List Json} :
    parseAll text = .ok values ↔
      (tokens text).foldlM Sequence.step ([], none) = .ok (values.reverse, none) := by
  rw [parseAll]
  constructor
  · intro h
    obtain ⟨⟨done, reader⟩, hread, h⟩ := Except.bind_eq_ok.mp h
    cases reader with
    | none =>
      cases h
      rw [hread, List.reverse_reverse]
    | some reader => cases h
  · intro h
    rw [h]
    exact congrArg Except.ok (List.reverse_reverse values)

/-- A text that goes on in a new line holds what its parts hold. -/
theorem parseAll_append {a b : String} {values values' : List Json}
    (ha : parseAll a = .ok values) (hb : parseAll b = .ok values') :
    parseAll (a ++ "\n" ++ b) = .ok (values ++ values') := by
  have hsound : Scan.between.Sound a.toList := isSound_of_parseAll ha
  have htokens : tokens (a ++ "\n" ++ b) = tokens a ++ tokens b := by
    have hlist : (a ++ "\n" ++ b).toList = a.toList ++ '\n' :: b.toList := by
      simp [String.toList_append]
    rw [tokens, hlist, hsound.complete.tokensFrom_append (c := '\n') rfl]
    rfl
  have hafter := Sequence.foldlM_append values.reverse (tokens b) ([], none)
  rw [parseAll_eq_ok_iff.mp hb] at hafter
  rw [parseAll_eq_ok_iff, htokens, List.foldlM_append, parseAll_eq_ok_iff.mp ha,
    List.reverse_append]
  exact hafter

/-! ### Objects in arrays -/

namespace ObjectText

variable {object : ObjectText} {objects : List ObjectText} {done : List Json}
  {items : List Outline}

/-- The objects are not nested too deep to stand in an array. -/
def Nests (object : ObjectText) : Prop :=
  ∀ done items, (tokens object.text).foldlM Sequence.step (done, some ⟨[.arr items], .value⟩) =
    .ok (done, some ⟨[.arr (object.outline :: items)], .next⟩)

/-- An object that can be read in one array can be read in any. -/
theorem nests_of_foldlM {state : Sequence} (h : (tokens object.text).foldlM Sequence.step
    (done, some ⟨[.arr items], .value⟩) = .ok state) : object.Nests := by
  obtain ⟨stack, hrun⟩ := exists_foldlM_of_outline? object.outline?_eq
  intro done' items'
  exact Sequence.foldlM_above hrun (show 0 + 1 ≤ Reader.maxDepth by decide) h done' items'

/-- An object by itself is read. -/
theorem foldlM_alone (object : ObjectText) (done : List Json) :
    (tokens object.text).foldlM Sequence.step (done, none) = .ok (object.value :: done, none) := by
  obtain ⟨ts, k, stack, htokens, hk, hrun⟩ := object.exists_run
  have hapart : k.isApart = true := by rcases hk with rfl | rfl <;> rfl
  obtain ⟨before, hlast, hbefore⟩ := Sequence.foldlM_of_run done hrun
  have hnone : (ts ++ [k]).foldlM Sequence.step (done, none) =
      (ts ++ [k]).foldlM Sequence.step (done, some {}) := by
    cases ts <;> rfl
  rw [htokens, hnone, List.foldlM_append, hbefore]
  exact (congrArg (· >>= pure)
    (Sequence.step_of_done hlast hapart object.settle?_outline)).trans rfl

/-- The tokens of objects with commas between them. -/
def itemTokens : List ObjectText → List Token
  | [] => []
  | [object] => tokens object.text
  | object :: rest => tokens object.text ++ .comma :: itemTokens rest

/-- Objects as an array. -/
def arrayText (objects : List ObjectText) : String :=
  "[" ++ Text.joinWith "," (objects.map text) ++ "]"

theorem itemTokens_cons_cons (object object' : ObjectText) (objects : List ObjectText) :
    itemTokens (object :: object' :: objects) =
      tokens object.text ++ .comma :: itemTokens (object' :: objects) := rfl

/-- The tokens of objects with commas between them, up to the bracket that closes them. -/
theorem tokensFrom_join (objects : List ObjectText) (rest : List Char) :
    tokensFrom .between ((Text.joinWith "," (objects.map text)).toList ++ ']' :: rest) =
      itemTokens objects ++ .endArr :: tokensFrom .between rest := by
  induction objects with
  | nil => rfl
  | cons object objects ih =>
    cases objects with
    | nil =>
      rw [List.map_singleton, Text.joinWith, object.tokensFrom_append]
      rfl
    | cons object' objects =>
      rw [List.map_cons, List.map_cons, Text.joinWith_cons_cons, String.toList_append,
        String.toList_append, List.append_assoc, List.append_assoc, object.tokensFrom_append,
        itemTokens_cons_cons, List.append_assoc, List.cons_append, ← ih]
      rfl

/-- The tokens of an array of objects are its brackets and those of the items. -/
theorem tokensFrom_arrayText (objects : List ObjectText) (rest : List Char) :
    tokensFrom .between ((arrayText objects).toList ++ rest) =
      .beginArr :: (itemTokens objects ++ .endArr :: tokensFrom .between rest) := by
  rw [← tokensFrom_join, arrayText, String.toList_append, String.toList_append, List.append_assoc,
    List.append_assoc]
  rfl

/-- If objects can be read in an array, so can each of them. -/
theorem nests_of_items {state : Sequence} (h : (itemTokens objects).foldlM Sequence.step
    (done, some ⟨[.arr items], .value⟩) = .ok state) : ∀ object ∈ objects, object.Nests := by
  induction objects generalizing items with
  | nil => nofun
  | cons object objects ih =>
    cases objects with
    | nil => exact List.forall_mem_singleton.mpr (nests_of_foldlM h)
    | cons object' objects =>
      rw [itemTokens_cons_cons, List.foldlM_append] at h
      obtain ⟨state', hobject, h⟩ := Except.bind_eq_ok.mp h
      have hnests := nests_of_foldlM hobject
      rw [hnests done items] at hobject
      cases hobject
      exact List.forall_mem_cons.mpr ⟨hnests, ih h⟩

/-- Objects that can be read in arrays are read one after the other. -/
theorem foldlM_items (hne : objects ≠ []) (h : ∀ object ∈ objects, object.Nests)
    (done : List Json) (items : List Outline) :
    (itemTokens objects).foldlM Sequence.step (done, some ⟨[.arr items], .value⟩) =
      .ok (done, some ⟨[.arr ((objects.map outline).reverse ++ items)], .next⟩) := by
  induction objects generalizing items with
  | nil => exact absurd rfl hne
  | cons object objects ih =>
    cases objects with
    | nil => exact List.forall_mem_singleton.mp h done items
    | cons object' objects =>
      obtain ⟨hnests, hrest⟩ := List.forall_mem_cons.mp h
      rw [itemTokens_cons_cons, List.foldlM_append, hnests done items, List.map_cons,
        List.reverse_cons, List.append_assoc]
      exact ih (List.cons_ne_nil _ _) hrest (object.outline :: items)

/-- The outlines of objects settle to the objects. -/
theorem settleItems?_outlines (objects : List ObjectText) :
    Outline.settleItems? (objects.map outline) = some (objects.map value) := by
  induction objects with
  | nil => rfl
  | cons object objects ih =>
    rw [List.map_cons, Outline.settleItems?, object.settle?_outline, ih]
    rfl

/-- The tokens of objects in an array. -/
def arrayTokens (objects : List ObjectText) : List Token :=
  .beginArr :: (itemTokens objects ++ [.endArr])

/-- The first of some items is read like any other. -/
theorem foldlM_firstItem (hne : objects ≠ []) (done : List Json) :
    (itemTokens objects).foldlM Sequence.step (done, some ⟨[.arr []], .firstItem⟩) =
      (itemTokens objects).foldlM Sequence.step (done, some ⟨[.arr []], .value⟩) := by
  obtain ⟨object, rest, rfl⟩ := List.exists_cons_of_ne_nil hne
  obtain ⟨ts, hts⟩ : ∃ ts, itemTokens (object :: rest) = tokens object.text ++ ts := by
    cases rest with
    | nil => exact ⟨[], (List.append_nil _).symm⟩
    | cons => exact ⟨_, itemTokens_cons_cons ..⟩
  obtain ⟨stack, hrun⟩ := exists_foldlM_of_outline? object.outline?_eq
  rw [hts]
  cases htokens : tokens object.text with
  | nil =>
    rw [htokens] at hrun
    cases hrun
  | cons k ks =>
    rw [htokens, List.foldlM_cons] at hrun
    obtain ⟨next, hstep, -⟩ := Except.bind_eq_ok.mp hrun
    have hk : k ≠ .endArr := by
      rintro rfl
      cases hstep
    rw [List.cons_append, List.foldlM_cons, List.foldlM_cons]
    simp only [Sequence.step, Option.getD_some, Reader.step_firstItem _ hk, Reader.step_value]

/-- Objects that can be read in arrays are read as an array. -/
theorem foldlM_array (h : ∀ object ∈ objects, object.Nests) (done : List Json) :
    (arrayTokens objects).foldlM Sequence.step (done, none) =
      .ok (.arr (objects.map value) :: done, none) := by
  have hopen : Sequence.step (done, none) .beginArr =
      .ok (done, some ⟨[.arr []], .firstItem⟩) := rfl
  have hclose : ∀ place, place = .firstItem ∧ objects = [] ∨ place = .next →
      Sequence.step (done, some ⟨[.arr (objects.map outline).reverse], place⟩) .endArr =
        .ok (.arr (objects.map value) :: done, none) := by
    intro place hplace
    have hstep : Reader.step true ⟨[.arr (objects.map outline).reverse], place⟩ .endArr =
        .ok ⟨[], .done (.arr (objects.map outline) false)⟩ := by
      rcases hplace with ⟨rfl, rfl⟩ | rfl
      · rfl
      · change Except.ok (Reader.close [] (.arr (objects.map outline).reverse.reverse false)) = _
        rw [List.reverse_reverse]
        rfl
    refine Sequence.step_of_done hstep rfl ?_
    rw [Outline.settle?, settleItems?_outlines]
    rfl
  rw [arrayTokens, List.foldlM_cons, hopen]
  change (itemTokens objects ++ [Token.endArr]).foldlM Sequence.step _ = _
  rw [List.foldlM_append]
  -- An empty array is closed where its first item might stand.
  rcases List.eq_nil_or_concat objects with rfl | ⟨_, _, hconcat⟩
  · exact (congrArg (· >>= pure) (hclose .firstItem (.inl ⟨rfl, rfl⟩))).trans rfl
  · have hne : objects ≠ [] := by
      rintro rfl
      simp at hconcat
    rw [foldlM_firstItem hne, foldlM_items hne h, List.append_nil]
    exact (congrArg (· >>= pure) (hclose .next (.inr rfl))).trans rfl

/-- If an array can be read, so can each of its objects in any array. -/
theorem nests_of_array {state : Sequence}
    (h : (arrayTokens objects).foldlM Sequence.step (done, none) = .ok state) :
    ∀ object ∈ objects, object.Nests := by
  rw [arrayTokens, List.foldlM_cons] at h
  obtain ⟨state', hopen, h⟩ := Except.bind_eq_ok.mp h
  cases hopen
  rw [List.foldlM_append] at h
  obtain ⟨state'', hitems, -⟩ := Except.bind_eq_ok.mp h
  rcases objects with _ | ⟨object, objects⟩
  · nofun
  · rw [foldlM_firstItem (List.cons_ne_nil _ _)] at hitems
    exact nests_of_items hitems

end ObjectText

/-! ### Objects by themselves and in arrays -/

/-- A part of a text: blanks, an object, or objects in an array. -/
inductive Piece
  | blanks (cs : List Char) (h : ∀ c ∈ cs, isGap c = true)
  | alone (object : ObjectText)
  | array (objects : List ObjectText)

namespace Piece

/-- The part as it is written. -/
def text : Piece → String
  | blanks cs _ => String.ofList cs
  | alone object => object.text
  | array objects => ObjectText.arrayText objects

/-- The objects in the part. -/
def objects : Piece → List ObjectText
  | blanks .. => []
  | alone object => [object]
  | array objects => objects

/-- The values that the part holds. -/
def values : Piece → List Json
  | blanks .. => []
  | alone object => [object.value]
  | array objects => [.arr (objects.map ObjectText.value)]

/-- The tokens of the part. -/
def tokens : Piece → List Token
  | blanks .. => []
  | alone object => Json.tokens object.text
  | array objects => ObjectText.arrayTokens objects

/-- Parts one after the other. -/
def write : List Piece → String
  | [] => ""
  | piece :: rest => piece.text ++ write rest

/-- The tokens of a text that goes on behind a part are those of the part, and those from there on.
-/
theorem tokensFrom_append (piece : Piece) (rest : List Char) :
    tokensFrom .between (piece.text.toList ++ rest) =
      piece.tokens ++ tokensFrom .between rest := by
  cases piece with
  | blanks cs h =>
    rw [text, String.toList_ofList]
    exact CommentedJson.tokensFrom_blank h rest
  | alone object => exact object.tokensFrom_append rest
  | array objects =>
    rw [text, ObjectText.tokensFrom_arrayText, tokens, ObjectText.arrayTokens, List.cons_append,
      List.append_assoc]
    rfl

/-- The tokens of parts one after the other are those of each. -/
theorem tokens_write (pieces : List Piece) :
    Json.tokens (write pieces) = pieces.flatMap tokens := by
  induction pieces with
  | nil => rfl
  | cons piece pieces ih =>
    rw [Json.tokens, write, String.toList_append, tokensFrom_append, List.flatMap_cons, ← ih]
    rfl

/-- A part whose objects can be read in arrays is read. -/
theorem foldlM_tokens {piece : Piece} (h : ∀ object ∈ piece.objects, object.Nests)
    (done : List Json) :
    piece.tokens.foldlM Sequence.step (done, none) = .ok (piece.values.reverse ++ done, none) := by
  cases piece with
  | blanks => rfl
  | alone object => exact object.foldlM_alone done
  | array objects => exact ObjectText.foldlM_array h done

end Piece

/-- Parts whose objects can be read in arrays are read one after the other. -/
theorem parseAll_write {pieces : List Piece}
    (h : ∀ object ∈ pieces.flatMap Piece.objects, object.Nests) :
    parseAll (Piece.write pieces) = .ok (pieces.flatMap Piece.values) := by
  have hfold : ∀ done, (pieces.flatMap Piece.tokens).foldlM Sequence.step (done, none) =
      .ok ((pieces.flatMap Piece.values).reverse ++ done, none) := by
    induction pieces with
    | nil => exact fun _ => rfl
    | cons piece pieces ih =>
      intro done
      rw [List.flatMap_cons] at h
      obtain ⟨hpiece, hrest⟩ := List.forall_mem_append.mp h
      rw [List.flatMap_cons, List.foldlM_append, Piece.foldlM_tokens hpiece, List.flatMap_cons,
        List.reverse_append, List.append_assoc]
      exact ih hrest _
  rw [parseAll_eq_ok_iff, Piece.tokens_write, hfold, List.append_nil]

/-- Objects that can be read in arrays are read as one. -/
theorem parseAll_arrayText {objects : List ObjectText} (h : ∀ object ∈ objects, object.Nests) :
    parseAll (ObjectText.arrayText objects) = .ok [.arr (objects.map ObjectText.value)] := by
  have hwrite : Piece.write [.array objects] = ObjectText.arrayText objects := String.append_empty
  have hobjects : [Piece.array objects].flatMap Piece.objects = objects := List.append_nil _
  have hone : parseAll (Piece.write [.array objects]) = _ := parseAll_write (by rwa [hobjects])
  rwa [hwrite] at hone

/-- If objects can be read as one array, they can be read in any array. -/
theorem nests_of_parseAll {objects : List ObjectText} {values : List Json}
    (h : parseAll (ObjectText.arrayText objects) = .ok values) :
    ∀ object ∈ objects, object.Nests := by
  have htokens := ObjectText.tokensFrom_arrayText objects []
  rw [List.append_nil] at htokens
  rw [parseAll_eq_ok_iff, tokens, htokens] at h
  exact ObjectText.nests_of_array h

end TypeSketch.Json
