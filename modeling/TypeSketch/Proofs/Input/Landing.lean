import Mathlib.Data.List.Basic
import TypeSketch.Proofs.Input.Annotating
import TypeSketch.Proofs.Input.Rows

/-!
# JSON samples — where comments land

In a text with one key on a line, the comments of a key are those right above it, and they are found
by the name of the key and by how often the name has come (`comments_rows`).  The field entries of
the shape take them in the order of a walk, so that the entries of a name have the comments of the
first keys of that name.  They are those of their own keys as long as the walk has not passed over a
key of that name (`comments_land`).
-/

namespace TypeSketch.CommentedJson

open Json (Token)

/-! ### The comments of rows -/

/-- The comments of keys by name and count, after the names that have been `seen`. -/
def tableOf (seen : List String) : List (String × List String) → Comments
  | [] => []
  | (name, comments) :: rest =>
    (if comments.isEmpty then [] else [((seen.count name + 1, name), comments)]) ++
      tableOf (seen ++ [name]) rest

theorem line_comment (l : CommentLine) (seen : Seen) :
    seen.line l.line = { seen with waiting := seen.waiting ++ [l.comment] } := by
  rw [Seen.line, l.split_line]
  simp only [l.firstKey?_indent]
  rfl

/-- Comments wait one behind the other. -/
theorem foldl_comments (comments : List CommentLine) (seen : Seen) :
    (comments.map CommentLine.line).foldl Seen.line seen =
      { seen with waiting := seen.waiting ++ comments.map CommentLine.comment } := by
  induction comments generalizing seen with
  | nil => simp
  | cons l rest ih =>
    rw [List.map_cons, List.foldl_cons, line_comment, ih]
    simp

/-- A key takes the comments that wait, and adds to the count of its name. -/
theorem line_key {l : KeyLine} (hchain : (Json.tokensFrom .between l.line).IsChain Token.Follows)
    {counts : List (String × Nat)} {seen : List String} (hcounts : Tallies counts seen)
    (waiting : List String) (table : Comments) :
    Seen.line ⟨counts, waiting, table⟩ l.line =
      ⟨Assoc.put l.name ((counts.lookup l.name).getD 0 + 1) counts, [],
        table ++ tableOf seen [(l.name, waiting)]⟩ := by
  rw [Seen.line, l.split_line]
  simp only [l.firstKey?_line hchain, tableOf, hcounts l.name, Option.map_none,
    Option.toList_none, List.append_nil]
  cases waiting with
  | nil => simp
  | cons c cs => rfl

/-- A row adds its key to what has been seen. -/
theorem exists_foldl_row {row : Row} (hchain : row.tokens.IsChain Token.Follows)
    {counts : List (String × Nat)} {seen : List String} (hcounts : Tallies counts seen)
    (table : Comments) :
    ∃ counts', row.lines.foldl Seen.line ⟨counts, [], table⟩ =
        ⟨counts', [], table ++ tableOf seen row.key?.toList⟩ ∧
      Tallies counts' (seen ++ row.key?.toList.map Prod.fst) := by
  cases row with
  | plain line =>
    rw [Row.tokens, Row.codes, List.flatMap_singleton] at hchain
    refine ⟨counts, ?_, (List.append_nil seen).symm ▸ hcounts⟩
    rw [Row.lines, List.foldl_cons, List.foldl_nil, Seen.line, split_noComment line.noComment]
    simp only [firstKey?_of_keyless line.keyless hchain]
    simp [Row.key?, tableOf]
  | key comments line =>
    rw [Row.tokens_key] at hchain
    refine ⟨_, ?_, hcounts.put line.name⟩
    rw [Row.lines, List.foldl_append, foldl_comments, List.foldl_cons, List.foldl_nil,
      line_key hchain hcounts]
    rfl

/-- The comments of two parts are found one part after the other. -/
theorem tableOf_append (seen : List String) (keys keys' : List (String × List String)) :
    tableOf seen (keys ++ keys') =
      tableOf seen keys ++ tableOf (seen ++ keys.map Prod.fst) keys' := by
  induction keys generalizing seen with
  | nil => simp [tableOf]
  | cons key keys ih =>
    obtain ⟨name, comments⟩ := key
    simp [tableOf, ih]

/-- Rows add their keys to what has been seen, each with its own comments. -/
theorem exists_foldl_rows {rows : List Row}
    (hchain : (rows.flatMap Row.tokens).IsChain Token.Follows) {counts : List (String × Nat)}
    {seen : List String} (hcounts : Tallies counts seen) (table : Comments) :
    ∃ counts', (rows.flatMap Row.lines).foldl Seen.line ⟨counts, [], table⟩ =
      ⟨counts', [], table ++ tableOf seen (keysOf rows)⟩ := by
  induction rows generalizing counts seen table with
  | nil => exact ⟨counts, by simp [keysOf, tableOf]⟩
  | cons row rows ih =>
    rw [List.flatMap_cons] at hchain
    obtain ⟨counts', hrow, hcounts'⟩ := exists_foldl_row hchain.left_of_append hcounts table
    obtain ⟨counts'', hrows⟩ := ih hchain.right_of_append hcounts'
      (table ++ tableOf seen row.key?.toList)
    refine ⟨counts'', ?_⟩
    rw [List.flatMap_cons, List.foldl_append, hrow, hrows, keysOf_cons, tableOf_append,
      List.append_assoc]

variable {text : String} {rows : List Row}

/-- The comments of a text with one key on a line are those right above its keys. -/
theorem comments_rows (hlines : Text.lines text.toList = rows.flatMap Row.lines)
    (hchain : (rows.flatMap Row.tokens).IsChain Token.Follows) :
    comments text = tableOf [] (keysOf rows) := by
  obtain ⟨counts, hrows⟩ := exists_foldl_rows hchain tallies_nil []
  rw [comments, hlines, hrows]
  rfl

/-! ### Keys by name and count -/

/-- What is found for a count comes behind those of the name that have been seen. -/
theorem count_lt_of_lookup_tableOf {keys : List (String × List String)} {seen : List String}
    {n : Nat} {name : String} (h : ((tableOf seen keys).lookup (n, name)).isSome = true) :
    seen.count name < n := by
  induction keys generalizing seen with
  | nil => cases h
  | cons key keys ih =>
    obtain ⟨name', comments⟩ := key
    rw [tableOf, List.lookup_append, Option.isSome_or, Bool.or_eq_true] at h
    rcases h with h | h
    · split at h
      · cases h
      · rw [List.lookup_cons] at h
        split at h
        · next heq =>
          cases eq_of_beq heq
          exact Nat.lt_succ_self _
        · cases h
    · have hlt := ih h
      rw [List.count_append] at hlt
      omega

/-- What is known for each key are its own comments. -/
theorem known_tableOf {keys : List (String × List String)} {seen : List String} {table : Comments}
    (htable : ∀ n name, (table.lookup (n, name)).isSome = true → n ≤ seen.count name) :
    known (table ++ tableOf seen keys) (ranks seen (keys.map Prod.fst)) = keys.map Prod.snd := by
  induction keys generalizing seen table with
  | nil => rfl
  | cons key keys ih =>
    obtain ⟨name, comments⟩ := key
    -- The count of this key is above those in the table, and below those of later keys.
    have hearlier : table.lookup (seen.count name + 1, name) = none := by
      refine Option.not_isSome_iff_eq_none.mp fun hsome => ?_
      exact Nat.lt_irrefl _ (htable _ _ hsome)
    have hlater : (tableOf (seen ++ [name]) keys).lookup (seen.count name + 1, name) = none := by
      refine Option.not_isSome_iff_eq_none.mp fun hsome => ?_
      have hlt := count_lt_of_lookup_tableOf hsome
      rw [List.count_append, List.count_singleton_self] at hlt
      exact Nat.lt_irrefl _ hlt
    have hrest : known (table ++ tableOf seen ((name, comments) :: keys))
        (ranks (seen ++ [name]) (keys.map Prod.fst)) = keys.map Prod.snd := by
      rw [tableOf, ← List.append_assoc]
      refine ih fun n name' hsome => ?_
      rw [List.lookup_append, Option.isSome_or, Bool.or_eq_true] at hsome
      rw [List.count_append]
      rcases hsome with hsome | hsome
      · exact Nat.le_add_right_of_le (htable n name' hsome)
      · split at hsome
        · cases hsome
        · rw [List.lookup_cons] at hsome
          split at hsome
          · next heq =>
            cases eq_of_beq heq
            simp
          · cases hsome
    rw [List.map_cons, List.map_cons, ranks, ← hrest]
    refine congrArg (· :: _) ?_
    change ((table ++ tableOf seen ((name, comments) :: keys)).lookup
      (seen.count name + 1, name)).getD [] = comments
    rw [List.lookup_append, hearlier, tableOf, List.lookup_append, hlater]
    cases comments with
    | nil => rfl
    | cons c cs => simp

/-- The comments at the keys of some name, in the order of the keys. -/
def commentsAt (name : String) (keys : List (String × List String)) : List (List String) :=
  (keys.filter (·.1 == name)).map Prod.snd

/-- The comments known for a name are found by its counts, one after the other. -/
theorem commentsAt_zip (table : Comments) (seen names : List String) (name : String) :
    commentsAt name (names.zip (known table (ranks seen names))) =
      (List.range' (seen.count name + 1) (names.count name)).map fun n =>
        (table.lookup (n, name)).getD [] := by
  induction names generalizing seen with
  | nil => rfl
  | cons name' rest ih =>
    have hrest := ih (seen ++ [name'])
    rw [commentsAt] at hrest ⊢
    rw [ranks, known, List.map_cons, List.zip_cons_cons, List.filter_cons, ← known]
    by_cases heq : name' = name
    · subst heq
      rw [List.count_append, List.count_singleton_self] at hrest
      rw [if_pos (beq_self_eq_true _), List.map_cons, hrest, List.count_cons_self,
        List.range'_succ, List.map_cons]
    · have hne : (name' == name) = false := beq_false_of_ne heq
      rw [List.count_append, List.count_singleton, hne, if_neg Bool.false_ne_true,
        Nat.add_zero] at hrest
      rw [hne, if_neg Bool.false_ne_true, hrest, List.count_cons_of_ne heq]

/-- A name that comes in fewer places has the comments of the first ones. -/
theorem commentsAt_zip_prefix {table : Comments} {names names' : List String} {name : String}
    (h : names.count name ≤ names'.count name) :
    commentsAt name (names.zip (known table (ranks [] names))) <+:
      commentsAt name (names'.zip (known table (ranks [] names'))) := by
  rw [commentsAt_zip, commentsAt_zip, ← Nat.add_sub_cancel' h, ← List.range'_append_1,
    List.map_append]
  exact List.prefix_append _ _

/-- The name at a place has the number of those before it and one more. -/
theorem getElem?_ranks (seen names : List String) (i : Nat) :
    (ranks seen names)[i]? = names[i]?.map fun name =>
      (seen.count name + (names.take i).count name + 1, name) := by
  induction names generalizing seen i with
  | nil => rfl
  | cons name rest ih =>
    cases i with
    | zero => rfl
    | succ i =>
      rw [ranks, List.getElem?_cons_succ, List.getElem?_cons_succ, ih, List.take_succ_cons]
      refine congrArg (Option.map · _) (funext fun name' => ?_)
      rw [List.count_append, List.count_singleton, List.count_cons]
      exact Prod.ext (by omega) rfl

/-- The comments at a place, found by how often its name has come before. -/
theorem getElem?_zip_known (table : Comments) (names : List String) (i : Nat) :
    (names.zip (known table (ranks [] names)))[i]? = names[i]?.map fun name =>
      (name, (table.lookup ((names.take i).count name + 1, name)).getD []) := by
  rw [List.zip, List.getElem?_zipWith, known, List.getElem?_map, getElem?_ranks]
  cases names[i]? with
  | none => rfl
  | some name => simp

/-- The keys of a text find their own comments. -/
theorem keysOf_eq_zip (hlines : Text.lines text.toList = rows.flatMap Row.lines)
    (hchain : (rows.flatMap Row.tokens).IsChain Token.Follows) :
    keysOf rows = ((keysOf rows).map Prod.fst).zip
      (known (comments text) (ranks [] ((keysOf rows).map Prod.fst))) := by
  have hnone : ∀ n name, (([] : Comments).lookup (n, name)).isSome = true →
      n ≤ ([] : List String).count name := nofun
  have hknown : known ([] ++ tableOf [] (keysOf rows)) (ranks [] ((keysOf rows).map Prod.fst)) =
      (keysOf rows).map Prod.snd := known_tableOf hnone
  rw [List.nil_append, ← comments_rows hlines hchain] at hknown
  rw [hknown, ← List.unzip_fst, ← List.unzip_snd]
  exact (List.zip_unzip _).symm

/-! ### Keys that are walked -/

section Walked

variable {keys : List (String × Bool)} {i : Nat} {name : String}

/-- The place of a walked key among the walked ones. -/
theorem filter_of_getElem? (h : keys[i]? = some (name, true)) :
    ∃ later, (keys.filter Prod.snd).map Prod.fst =
      ((keys.take i).filter Prod.snd).map Prod.fst ++ name :: later := by
  obtain ⟨hi, hkey⟩ := List.getElem?_eq_some_iff.mp h
  refine ⟨((keys.drop (i + 1)).filter Prod.snd).map Prod.fst, ?_⟩
  conv_lhs => rw [← List.take_append_drop i keys, List.drop_eq_getElem_cons hi, hkey]
  rw [List.filter_append, List.map_append, List.filter_cons_of_pos rfl, List.map_cons]

/-- A name that is never passed over is walked as often as it comes. -/
theorem count_filter_of_not_mem (h : (name, false) ∉ keys) :
    ((keys.filter Prod.snd).map Prod.fst).count name = (keys.map Prod.fst).count name := by
  induction keys with
  | nil => rfl
  | cons key rest ih =>
    have hkey := List.ne_of_not_mem_cons h
    have hrest := ih (List.not_mem_of_not_mem_cons h)
    obtain ⟨name', walked⟩ := key
    cases walked with
    | true =>
      rw [List.filter_cons_of_pos rfl, List.map_cons, List.map_cons, List.count_cons,
        List.count_cons, hrest]
    | false =>
      have hne : name' ≠ name := by rintro rfl; exact hkey rfl
      rw [List.filter_cons_of_neg (by simp), List.map_cons, List.count_cons_of_ne hne, hrest]

/-- A walked key finds its own comments, if no key of its name was passed over before. -/
theorem getElem?_zip_walked (table : Comments) (h : keys[i]? = some (name, true))
    (hpassed : (name, false) ∉ keys.take i) :
    (((keys.filter Prod.snd).map Prod.fst).zip
        (known table (ranks [] ((keys.filter Prod.snd).map Prod.fst))))[
          (keys.take i).countP Prod.snd]? =
      ((keys.map Prod.fst).zip (known table (ranks [] (keys.map Prod.fst))))[i]? := by
  obtain ⟨later, hplace⟩ := filter_of_getElem? h
  have hname : (keys.map Prod.fst)[i]? = some name := by
    rw [List.getElem?_map, h, Option.map_some]
  have hlength : (keys.take i).countP Prod.snd =
      (((keys.take i).filter Prod.snd).map Prod.fst).length := by
    rw [List.length_map, List.countP_eq_length_filter]
  rw [getElem?_zip_known, getElem?_zip_known, hname, hplace, hlength,
    List.getElem?_append_right (Nat.le_refl _), Nat.sub_self, List.take_left,
    List.getElem?_cons_zero, Option.map_some, Option.map_some, count_filter_of_not_mem hpassed,
    List.map_take]

end Walked

/-! ### Where comments land -/

variable {model format : String} {members : Members} {s : Shape}

/-- The field entries of a sample that is read as a model. -/
theorem entries_of_makes_read (hmodel : model ≠ "")
    (hparse : Json.parse (strip text) = .ok (.obj members))
    (h : (read model ⟨format, text⟩).Makes (.shape s)) :
    s.entries = (Json.obj members).walkedKeys.zip
      (known (comments text) (ranks [] (Json.obj members).walkedKeys)) := by
  have hnotes : readNotes model ⟨format, text⟩ (.obj members) =
      known (comments text) (ranks [] (Json.obj members).walkedKeys) := by
    rw [readNotes, if_pos]
    simpa [Json.asObj?] using hmodel
  have hread : Json.parse (strip (Sample.mk format text).text) = .ok (.obj members) := hparse
  have hs : Shape.Sampled (.obj members) _ s := sampled_of_makes_read hread h
  rw [hnotes] at hs
  exact Shape.entries_of_sampled hs 0

/-- In a text with one key on a line, the field entries of a name have the comments above the first
keys of that name. If no object repeats a name, a walk has an entry for every key but those inside
later items of arrays, and the entry has the comments above its key unless a key of its name was
passed over before. -/
theorem comments_land (hlines : Text.lines text.toList = rows.flatMap Row.lines)
    (hparse : Json.parse (strip text) = .ok (.obj members)) (hmodel : model ≠ "")
    (h : (read model ⟨format, text⟩).Makes (.shape s)) :
    (∀ name, commentsAt name s.entries <+: commentsAt name (keysOf rows)) ∧
    ∃ o, Json.outline? (strip text) = some o ∧
      (o.keys true).map Prod.fst = (keysOf rows).map Prod.fst ∧
      (o.isDistinct = true →
        s.entries.map Prod.fst = ((o.keys true).filter Prod.snd).map Prod.fst ∧
        ∀ i name comments, (keysOf rows)[i]? = some (name, comments) →
          (o.keys true)[i]? = some (name, true) → (name, false) ∉ (o.keys true).take i →
            s.entries[((o.keys true).take i).countP Prod.snd]? = some (name, comments)) := by
  obtain ⟨o, houtline, hsettle⟩ := Json.exists_outline?_of_parse hparse
  have htokens := tokens_strip hlines
  have hchain : (rows.flatMap Row.tokens).IsChain Token.Follows :=
    htokens ▸ Json.follows_of_outline? houtline
  have hnames : o.names = (keysOf rows).map Prod.fst := by
    rw [Json.names_of_outline? houtline, htokens, namesFrom_rows]
  -- Both sides find their comments by name and count: the entries along the walk, the keys along
  -- the text.
  have hentries := entries_of_makes_read hmodel hparse h
  have hkeys := keysOf_eq_zip hlines hchain
  have hfst : (o.keys true).map Prod.fst = (keysOf rows).map Prod.fst :=
    (Json.Outline.map_fst_keys true o).trans hnames
  refine ⟨fun name => ?_, o, houtline, hfst, fun hdistinct => ?_⟩
  · rw [hentries, hkeys]
    refine commentsAt_zip_prefix ?_
    rw [← hnames]
    exact Json.Outline.count_walkedKeys_le name hsettle
  · have hwalked := Json.Outline.walkedKeys_of_settle? hsettle hdistinct
    refine ⟨?_, fun i name comments hkey hwalk hpassed => ?_⟩
    · rw [hentries, List.map_fst_zip (by rw [known, List.length_map, length_ranks]), hwalked]
    · rw [hentries, hwalked, getElem?_zip_walked _ hwalk hpassed, hfst, ← hkeys]
      exact hkey

/-! ### Rows at hand -/

instance (code : List Char) : Decidable (Keyless code) :=
  inferInstanceAs (Decidable (∀ t ∈ Json.tokensFrom .between code, _))

/-- A line without a key. -/
def PlainLine.ofCode (code : String) (h : Keyless code.toList ∧ (split code.toList).2 = none) :
    PlainLine :=
  ⟨code.toList, h.1, h.2⟩

/-- A comment behind some blanks. -/
def CommentLine.ofText (indent text : String) (h : indent.toList.all Json.isGap = true) :
    CommentLine :=
  ⟨indent.toList, text.toList, List.all_eq_true.mp h⟩

/-- A key with its colon right behind it, and what stands before and behind them. -/
def KeyLine.ofParts (pre key post : String)
    (h : (Keyless pre.toList ∧ Keyless post.toList) ∧
      (key.toList ≠ [] ∧ key.toList.all isKeyChar = true) ∧
      (split (pre.toList ++ '"' :: (key.toList ++ '"' :: ':' :: post.toList))).2 = none) :
    KeyLine :=
  ⟨pre.toList, key.toList, [], post.toList, h.1.1, h.2.1.1, List.all_eq_true.mp h.2.1.2, nofun,
    h.1.2, h.2.2⟩

/-- A text that is read as a model, and the names that a walk over its shape meets. -/
theorem exists_read {model text : String} {names : List String}
    (h : ((Json.parse (strip text)).toOption.bind fun v =>
      if ((Shape.ofSample v model).outcome {}).1.toBool then some (v.asObj?.isSome, v.walkedKeys)
      else none) = some (true, names)) :
    ∃ members s, Json.parse (strip text) = .ok (.obj members) ∧
      (read model ⟨"json", text⟩).Makes (.shape s) ∧ (Json.obj members).walkedKeys = names := by
  obtain ⟨v, s, hparse, ⟨supply, hs⟩, hv⟩ :=
    exists_sample (fun v => (v.asObj?.isSome, v.walkedKeys)) h
  obtain ⟨hobj, hnames⟩ := Prod.mk.inj hv
  have hread : Json.parse (strip (Sample.mk "json" text).text) = .ok v := hparse
  obtain ⟨s', hs', -⟩ := exists_outcome_read hread (Prod.ext hs rfl)
  cases v with
  | obj members => exact ⟨members, s', hparse, ⟨supply, congrArg Prod.fst hs'⟩, hnames⟩
  | _ => cases hobj

/-- Two levels with one name, and a comment on two lines. -/
def nestedRows : List Row :=
  [.plain (.ofCode "\x7b" (by decide +kernel)),
    .key [.ofText "  " " outer" (by decide +kernel)] (.ofParts "  " "id" " 1," (by decide +kernel)),
    .key [] (.ofParts "  " "legs" " [\x7b" (by decide +kernel)),
    .key [.ofText "\t" "the leg" (by decide +kernel), .ofText "\t" "\"id\": 0 " (by decide +kernel)]
      (.ofParts "\t" "id" " \"// 2\"" (by decide +kernel)),
    .plain (.ofCode "  \x7d]\x7d" (by decide +kernel))]

/-- The text of these rows. -/
def nestedText : String :=
  "\x7b\n  // outer\n  \"id\": 1,\n  \"legs\": [\x7b\n" ++
    "\t//the leg\n\t//\"id\": 0 \n\t\"id\": \"// 2\"\n  \x7d]\x7d"

/-- The comments of both levels land at their keys. -/
theorem comments_land_nested :
    ∃ s, (read "order" ⟨"json", nestedText⟩).Makes (.shape s) ∧
      s.entries = [("id", ["outer"]), ("legs", []), ("id", ["the leg", "\"id\": 0"])] := by
  have hlines : Text.lines nestedText.toList = nestedRows.flatMap Row.lines := by decide +kernel
  obtain ⟨members, s, hparse, hread, -⟩ :
      ∃ members s, Json.parse (strip nestedText) = .ok (.obj members) ∧
        (read "order" ⟨"json", nestedText⟩).Makes (.shape s) ∧
          (Json.obj members).walkedKeys = ["id", "legs", "id"] := exists_read (by decide +kernel)
  obtain ⟨-, o, houtline, -, hland⟩ := comments_land hlines hparse (by decide) hread
  have hkeys : (Json.outline? (strip nestedText)).map (fun o => (o.isDistinct, o.keys true)) =
      some (true, [("id", true), ("legs", true), ("id", true)]) := by decide +kernel
  rw [houtline, Option.map_some, Option.some_inj, Prod.mk.injEq] at hkeys
  obtain ⟨hnames, hexact⟩ := hland hkeys.1
  have hrows : keysOf nestedRows =
      [("id", ["outer"]), ("legs", []), ("id", ["the leg", "\"id\": 0"])] := by decide +kernel
  rw [hkeys.2, hrows] at hexact
  rw [hkeys.2] at hnames
  have hlength : s.entries.length = 3 := by simpa using congrArg List.length hnames
  refine ⟨s, hread, List.ext_getElem? fun i => ?_⟩
  rcases i with _ | _ | _ | i
  · exact hexact 0 _ _ rfl rfl (by decide)
  · exact hexact 1 _ _ rfl rfl (by decide)
  · exact hexact 2 _ _ rfl rfl (by decide)
  · rw [List.getElem?_eq_none (by omega)]
    rfl

/-- The third key of this text is passed over. -/
def passedRows : List Row :=
  [.plain (.ofCode "\x7b" (by decide +kernel)),
    .key [] (.ofParts "" "a" " [\x7b" (by decide +kernel)),
    .key [] (.ofParts "" "id" " 1" (by decide +kernel)),
    .plain (.ofCode "\x7d, \x7b" (by decide +kernel)),
    .key [.ofText "" "second" (by decide +kernel)] (.ofParts "" "id" " 2" (by decide +kernel)),
    .plain (.ofCode "\x7d]," (by decide +kernel)),
    .key [.ofText "" "outer" (by decide +kernel)] (.ofParts "" "id" " 3" (by decide +kernel)),
    .plain (.ofCode "\x7d" (by decide +kernel))]

/-- The text of these rows. -/
def passedText : String :=
  "\x7b\n\"a\": [\x7b\n\"id\": 1\n\x7d, \x7b\n//second\n\"id\": 2\n\x7d],\n//outer\n\"id\": 3\n\x7d"

/-- The second key of this text repeats the first one in its object. -/
def repeatedRows : List Row :=
  [.plain (.ofCode "\x7b" (by decide +kernel)),
    .key [.ofText "" "first" (by decide +kernel)] (.ofParts "" "a" " 1," (by decide +kernel)),
    .key [.ofText "" "second" (by decide +kernel)] (.ofParts "" "a" " 2," (by decide +kernel)),
    .key [] (.ofParts "" "b" " \x7b" (by decide +kernel)),
    .key [.ofText "" "inner" (by decide +kernel)] (.ofParts "" "a" " 3" (by decide +kernel)),
    .plain (.ofCode "\x7d\x7d" (by decide +kernel))]

/-- The text of these rows. -/
def repeatedText : String :=
  "\x7b\n//first\n\"a\": 1,\n//second\n\"a\": 2,\n\"b\": \x7b\n//inner\n\"a\": 3\n\x7d\x7d"

/-- A key of this text and its colon stand on two lines. -/
def brokenText : String := "\x7b\n//a\n\"a\"\n:1,\n\"b\":2\n\x7d"

/-- The field entries of a text that is read as a model, by the comments that are known. -/
theorem exists_entries (text : String) (names : List String) {entries : List (String × List String)}
    (h : ((Json.parse (strip text)).toOption.bind fun v =>
      if ((Shape.ofSample v "m").outcome {}).1.toBool then some (v.asObj?.isSome, v.walkedKeys)
      else none) = some (true, names))
    (hentries : names.zip (known (comments text) (ranks [] names)) = entries) :
    ∃ s, (read "m" ⟨"json", text⟩).Makes (.shape s) ∧ s.entries = entries := by
  obtain ⟨members, s, hparse, hread, rfl⟩ := exists_read h
  exact ⟨s, hread, (entries_of_makes_read (by decide) hparse hread).trans hentries⟩

/-- Comments that land elsewhere: behind a key that is passed over, behind a key that is repeated,
and above a key whose colon stands on the next line. -/
theorem comments_land_elsewhere :
    (Text.lines passedText.toList = passedRows.flatMap Row.lines ∧
      keysOf passedRows = [("a", []), ("id", []), ("id", ["second"]), ("id", ["outer"])] ∧
      (Json.outline? (strip passedText)).map (·.keys true) =
        some [("a", true), ("id", true), ("id", false), ("id", true)] ∧
      ∃ s, (read "m" ⟨"json", passedText⟩).Makes (.shape s) ∧
        s.entries = [("a", []), ("id", []), ("id", ["second"])]) ∧
    (Text.lines repeatedText.toList = repeatedRows.flatMap Row.lines ∧
      keysOf repeatedRows = [("a", ["first"]), ("a", ["second"]), ("b", []), ("a", ["inner"])] ∧
      (Json.outline? (strip repeatedText)).map (·.keys true) =
        some [("a", true), ("a", true), ("b", true), ("a", true)] ∧
      ∃ s, (read "m" ⟨"json", repeatedText⟩).Makes (.shape s) ∧
        s.entries = [("a", ["first"]), ("b", []), ("a", ["second"])]) ∧
    ∃ s, (read "m" ⟨"json", brokenText⟩).Makes (.shape s) ∧
      s.entries = [("a", []), ("b", ["a"])] := by
  refine ⟨⟨by decide +kernel, by decide +kernel, by decide +kernel, ?_⟩,
    ⟨by decide +kernel, by decide +kernel, by decide +kernel, ?_⟩, ?_⟩
  · exact exists_entries passedText ["a", "id", "id"] (by decide +kernel) (by decide +kernel)
  · exact exists_entries repeatedText ["a", "b", "a"] (by decide +kernel) (by decide +kernel)
  · exact exists_entries brokenText ["a", "b"] (by decide +kernel) (by decide +kernel)

end TypeSketch.CommentedJson
