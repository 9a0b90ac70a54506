import TypeSketch.Dispatch
import TypeSketch.Proofs.Table

/-!
# Choosing a handler — the longest name

A dispatcher is built by calls, which register handlers and set fallbacks.  Its table sorts what has
been registered (`Sorts`): the longest names come first, and equally long ones come in the order of
registration.  Names of one length that end the same tag are one name (`Ends.eq_of_size`).  So the
first handler of the table that answers is the first one registered under the longest name that does
(`Answers`), and where no name is registered twice the order of registration does not matter.

Inserting into the table is told by where a sorted list can be cut (`exists_cut`): a new handler
goes behind all names that are at least as long, whatever stands there. What a call does to the
table follows from that (`Sorts.insert`), and what all calls do by induction on them
(`Sorts.foldl`).

**The longest name** (`longest_of_calls`). The candidates for a tag are the registered names that
end it, longest first; the tag is answered by the first handler under the first of them, and by the
last fallback if there is none.
-/

namespace TypeSketch

/-- A suffix is dropped exactly from a text that ends in it, and what is in front of it remains. -/
theorem Text.dropSuffix?_eq_some_iff {suffix cs rest : List Char} :
    dropSuffix? suffix cs = some rest ↔ cs = rest ++ suffix := by
  rw [dropSuffix?]
  constructor
  · intro h
    split at h
    · next hs =>
      cases h
      exact (List.suffix_iff_eq_append.mp (List.isSuffixOf_iff_suffix.mp hs)).symm
    · cases h
  · rintro rfl
    rw [if_pos (List.isSuffixOf_iff_suffix.mpr ⟨rest, rfl⟩), List.length_append,
      Nat.add_sub_cancel, List.take_left]

namespace Dispatcher

variable {α : Type}

/-! ### Calls -/

/-- A call that builds a dispatcher. -/
inductive Call (α : Type)
  | on (name : String) (handler : α)
  | otherwise (handler : α)

namespace Call

/-- The dispatcher after a call. -/
def apply (d : Dispatcher α) : Call α → Dispatcher α
  | on name handler => d.on name handler
  | otherwise handler => d.otherwise handler

/-- What a call registers. -/
def entry? : Call α → Option (String × α)
  | on name handler => some (Text.snakeCase name, handler)
  | otherwise _ => none

/-- The fallback that a call sets. -/
def fallback? : Call α → Option α
  | on .. => none
  | otherwise handler => some handler

end Call

/-- The dispatcher that calls build. -/
def ofCalls (calls : List (Call α)) : Dispatcher α := calls.foldl Call.apply {}

/-- What has been registered, in order, under names in snake case. -/
def registered (calls : List (Call α)) : List (String × α) := calls.filterMap Call.entry?

/-- The last fallback that has been set. -/
def lastFallback? (calls : List (Call α)) : Option α := (calls.filterMap Call.fallback?).getLast?

/-! ### Names that end a tag -/

/-- A tag is the name, or ends in an underscore and the name. -/
def Ends (tag name : String) : Prop := name = tag ∨ ∃ front, tag = front ++ "_" ++ name

/-- The test whether a name answers a tag decides `Ends`. -/
theorem answers_iff {tag name : String} : answers tag name = true ↔ Ends tag name := by
  rw [answers]
  constructor
  · intro h
    split at h
    · next rest hrest =>
      have htag := Text.dropSuffix?_eq_some_iff.mp hrest
      rcases Bool.or_eq_true _ _ ▸ h with h | h
      · rw [List.isEmpty_iff.mp h, List.nil_append] at htag
        exact .inl (String.toList_inj.mp htag.symm)
      · obtain ⟨front, rfl⟩ := List.getLast?_eq_some_iff.mp (beq_iff_eq.mp h)
        refine .inr ⟨String.ofList front, String.toList_inj.mp ?_⟩
        rw [htag, String.toList_append, String.toList_append, String.toList_ofList]
        rfl
    · cases h
  · rintro (rfl | ⟨front, rfl⟩)
    · rw [Text.dropSuffix?_eq_some_iff.mpr (List.nil_append _).symm]
      rfl
    · have hdrop : Text.dropSuffix? name.toList (front ++ "_" ++ name).toList =
          some (front ++ "_").toList := Text.dropSuffix?_eq_some_iff.mpr String.toList_append
      rw [hdrop]
      have hlast : (front ++ "_").toList.getLast? = some '_' :=
        List.getLast?_eq_some_iff.mpr ⟨front.toList, String.toList_append⟩
      simp only [hlast, beq_self_eq_true, Bool.or_true]

instance (tag name : String) : Decidable (Ends tag name) := decidable_of_iff _ answers_iff

theorem answers_eq_decide (tag name : String) : answers tag name = decide (Ends tag name) := by
  rw [Bool.eq_iff_iff, answers_iff, decide_eq_true_iff]

theorem Ends.toList_suffix {tag name : String} (h : Ends tag name) :
    name.toList <:+ tag.toList := by
  rcases h with rfl | ⟨front, rfl⟩
  · exact List.suffix_rfl
  · exact ⟨(front ++ "_").toList, String.toList_append.symm⟩

/-- A suffix that is as long as the text in bytes is the text. -/
theorem eq_of_toList_suffix {m n : String} (h : m.toList <:+ n.toList)
    (hsize : m.utf8ByteSize = n.utf8ByteSize) : m = n := by
  obtain ⟨front, hfront⟩ := h
  have hn : n = String.ofList front ++ m := by
    rw [← String.toList_inj, String.toList_append, String.toList_ofList, hfront]
  rw [hn, String.utf8ByteSize_append] at hsize
  have hempty : String.ofList front = "" := String.utf8ByteSize_eq_zero_iff.mp (by omega)
  rw [hn, hempty, String.empty_append]

/-- Names of one length that end a tag are one name. -/
theorem Ends.eq_of_size {tag m n : String} (hm : Ends tag m) (hn : Ends tag n)
    (hsize : m.utf8ByteSize = n.utf8ByteSize) : m = n := by
  rcases List.suffix_or_suffix_of_suffix hm.toList_suffix hn.toList_suffix with h | h
  · exact eq_of_toList_suffix h hsize
  · exact (eq_of_toList_suffix h hsize.symm).symm

/-! ### The table -/

/-- A table sorts entries: longest names first, and equally long ones in order. -/
structure Sorts (entries table : List (String × α)) : Prop where
  perm : table.Perm entries
  sorted : table.Pairwise fun a b => b.1.utf8ByteSize ≤ a.1.utf8ByteSize
  stable : ∀ n, table.filter (·.1.utf8ByteSize == n) = entries.filter (·.1.utf8ByteSize == n)

/-- A table from the longest name on can be cut at any length: the names in front are at least as
long, those behind are shorter. -/
theorem exists_cut {table : List (String × α)}
    (h : table.Pairwise fun a b => b.1.utf8ByteSize ≤ a.1.utf8ByteSize) (n : Nat) :
    ∃ front back, table = front ++ back ∧ (∀ e ∈ front, n ≤ e.1.utf8ByteSize) ∧
      ∀ e ∈ back, e.1.utf8ByteSize < n := by
  induction h with
  | nil => exact ⟨[], [], rfl, nofun, nofun⟩
  | @cons e rest he _ ih =>
    by_cases hn : n ≤ e.1.utf8ByteSize
    · obtain ⟨front, back, rfl, hfront, hback⟩ := ih
      exact ⟨e :: front, back, rfl, List.forall_mem_cons.mpr ⟨hn, hfront⟩, hback⟩
    · refine ⟨[], e :: rest, rfl, nofun, List.forall_mem_cons.mpr ⟨by omega, fun b hb => ?_⟩⟩
      have := he b hb
      omega

/-- In a sorted table there is one place for a handler, however it is looked for. -/
theorem insert_of_cut {name : String} {handler : α} {front back : List (String × α)}
    (hfront : ∀ e ∈ front, name.utf8ByteSize ≤ e.1.utf8ByteSize)
    (hback : ∀ e ∈ back, e.1.utf8ByteSize < name.utf8ByteSize) :
    insert name handler (front ++ back) = front ++ (name, handler) :: back := by
  induction front with
  | nil =>
    cases back with
    | nil => rfl
    | cons e back => exact if_neg (Nat.not_le.mpr (hback e List.mem_cons_self))
  | cons e front ih =>
    rw [List.forall_mem_cons] at hfront
    exact (if_pos hfront.1).trans (congrArg _ (ih hfront.2))

/-- Among the entries of one length, a new one in front of shorter ones is the last. -/
theorem filter_size_middle {name : String} {back : List (String × α)}
    (hback : ∀ e ∈ back, e.1.utf8ByteSize < name.utf8ByteSize) (front : List (String × α))
    (handler : α) (n : Nat) :
    (front ++ (name, handler) :: back).filter (·.1.utf8ByteSize == n) =
      (front ++ back ++ [(name, handler)]).filter (·.1.utf8ByteSize == n) := by
  by_cases hn : name.utf8ByteSize = n
  · have hnone : back.filter (·.1.utf8ByteSize == n) = [] :=
      List.filter_eq_nil_iff.mpr fun e he => by
        have := hback e he
        simpa using by omega
    simp [List.filter_append, List.filter_cons, hnone]
  · simp [List.filter_append, hn]

/-- A handler that is inserted into a sorted table has been registered last. -/
theorem Sorts.insert {entries table : List (String × α)} (h : Sorts entries table) (name : String)
    (handler : α) : Sorts (entries ++ [(name, handler)]) (insert name handler table) := by
  obtain ⟨hperm, hsorted, hstable⟩ := h
  obtain ⟨front, back, rfl, hfront, hback⟩ := exists_cut hsorted name.utf8ByteSize
  rw [insert_of_cut hfront hback]
  refine ⟨?_, ?_, fun n => ?_⟩
  · exact (List.perm_middle.trans (hperm.cons _)).trans (List.perm_append_singleton ..).symm
  · obtain ⟨hf, hb, hfb⟩ := List.pairwise_append.mp hsorted
    have hb' : List.Pairwise _ ((name, handler) :: back) :=
      hb.cons fun b hmem => Nat.le_of_lt (hback b hmem)
    exact List.pairwise_append.mpr
      ⟨hf, hb', fun a ha => List.forall_mem_cons.mpr ⟨hfront a ha, hfb a ha⟩⟩
  · rw [filter_size_middle hback, List.filter_append, hstable n, ← List.filter_append]

/-- Calls keep the table sorted, from whatever has been registered before. -/
theorem Sorts.foldl {entries : List (String × α)} {d : Dispatcher α}
    (h : Sorts entries d.handlers) (calls : List (Call α)) :
    Sorts (entries ++ registered calls) (calls.foldl Call.apply d).handlers := by
  induction calls generalizing entries d with
  | nil => simpa [registered] using h
  | cons c calls ih =>
    cases c with
    | on name handler =>
      have hstep := ih (d := d.on name handler) (h.insert (Text.snakeCase name) handler)
      rwa [List.append_assoc] at hstep
    | otherwise handler => exact ih (d := d.otherwise handler) h

/-- The table of a dispatcher sorts what has been registered. -/
theorem sorts_ofCalls (calls : List (Call α)) :
    Sorts (registered calls) (ofCalls calls).handlers := by
  have hempty : Sorts [] ({} : Dispatcher α).handlers := ⟨.nil, .nil, fun _ => rfl⟩
  exact hempty.foldl calls

/-- Calls set the fallback to the last one among them, and leave it if they set none. -/
theorem fallback_foldl (d : Dispatcher α) (calls : List (Call α)) :
    (calls.foldl Call.apply d).fallback = (lastFallback? calls).or d.fallback := by
  induction calls generalizing d with
  | nil => rfl
  | cons c calls ih =>
    rw [List.foldl_cons, ih]
    cases c with
    | on => rfl
    | otherwise handler =>
      rw [lastFallback?, lastFallback?,
        List.filterMap_cons_some (f := Call.fallback?) (b := handler) rfl, List.getLast?_cons]
      cases (calls.filterMap Call.fallback?).getLast? <;> rfl

theorem fallback_ofCalls (calls : List (Call α)) :
    (ofCalls calls).fallback = lastFallback? calls :=
  (fallback_foldl {} calls).trans (Option.or_none ..)

/-! ### Candidates and the answer -/

namespace Sorts

variable {entries table : List (String × α)} {tag : String}

/-- Under each name the table has first what has been registered first. -/
theorem lookup_eq (h : Sorts entries table) (name : String) :
    table.lookup name = entries.lookup name := by
  have hname : ∀ v : α, ((name, v).1.utf8ByteSize == name.utf8ByteSize) = true :=
    fun _ => beq_self_eq_true _
  rw [← Assoc.lookup_filter (p := (·.1.utf8ByteSize == name.utf8ByteSize)) hname table, h.stable,
    Assoc.lookup_filter hname]

/-- The first name of the table that ends a tag is the longest, and there is no other entry of the
name before. -/
theorem first (h : Sorts entries table) {name : String} {handler : α}
    (hfirst : table.find? (fun e => answers tag e.1) = some (name, handler)) :
    Ends tag name ∧ (∀ e ∈ entries, Ends tag e.1 → e.1.utf8ByteSize ≤ name.utf8ByteSize) ∧
      entries.lookup name = some handler := by
  obtain ⟨hname, before, behind, htable, hbefore⟩ := List.find?_eq_some_iff_append.mp hfirst
  have hname := answers_iff.mp hname
  have hbefore : ∀ e ∈ before, ¬ Ends tag e.1 := fun e he hends => by
    have hnot := hbefore e he
    rw [answers_iff.mpr hends] at hnot
    cases hnot
  refine ⟨hname, fun e he hends => ?_, ?_⟩
  · have hsorted := (List.pairwise_append.mp (htable ▸ h.sorted)).2.1
    rcases List.mem_append.mp (htable ▸ h.perm.mem_iff.mpr he) with he | he
    · exact absurd hends (hbefore e he)
    · rcases List.mem_cons.mp he with rfl | he
      · exact Nat.le_refl _
      · exact (List.pairwise_cons.mp hsorted).1 e he
  · rw [← h.lookup_eq, List.lookup_eq_some_iff]
    exact ⟨before, behind, htable, fun e he => bne_iff_ne.mpr fun heq => hbefore e he (heq ▸ hname)⟩

end Sorts

/-- The answer for a tag when entries have been registered in their order. -/
inductive Answers (entries : List (String × α)) (fallback : Option α) (tag : String) :
    Except Error α → Prop
  /-- The first handler of the longest name that ends the tag. -/
  | chosen {name : String} {handler : α} (hname : Ends (Text.snakeCase tag) name)
      (hlongest : ∀ e ∈ entries, Ends (Text.snakeCase tag) e.1 →
        e.1.utf8ByteSize ≤ name.utf8ByteSize)
      (hfirst : entries.lookup name = some handler) : Answers entries fallback tag (.ok handler)
  /-- The fallback, when no name ends the tag. -/
  | fallback {handler : α} (hnone : ∀ e ∈ entries, ¬ Ends (Text.snakeCase tag) e.1)
      (h : fallback = some handler) : Answers entries fallback tag (.ok handler)
  /-- No handler. -/
  | nothing (hnone : ∀ e ∈ entries, ¬ Ends (Text.snakeCase tag) e.1) (h : fallback = none) :
      Answers entries fallback tag (.error (.noHandler tag))

/-- A dispatcher with a sorted table answers a tag as `Answers` says. -/
theorem Answers.of_resolve {entries : List (String × α)} {d : Dispatcher α}
    (h : Sorts entries d.handlers) (tag : String) :
    Answers entries d.fallback tag (d.resolve tag) := by
  rw [resolve]
  cases hfind : d.handlers.find? fun e => answers (Text.snakeCase tag) e.1 with
  | some e =>
    obtain ⟨hname, hlongest, hfirst⟩ := h.first hfind
    exact .chosen hname hlongest hfirst
  | none =>
    have hnone : ∀ e ∈ entries, ¬ Ends (Text.snakeCase tag) e.1 := fun e he hends =>
      List.find?_eq_none.mp hfind e (h.perm.mem_iff.mpr he) (answers_iff.mpr hends)
    cases hfallback : d.fallback with
    | some handler => exact .fallback hnone rfl
    | none => exact .nothing hnone rfl

/-- With one entry a name, there is one answer, in whatever order the entries come. -/
theorem Answers.unique {entries entries' : List (String × α)} {fallback : Option α} {tag : String}
    {x y : Except Error α} (hperm : entries'.Perm entries) (hnodup : (entries.map Prod.fst).Nodup)
    (hx : Answers entries fallback tag x) (hy : Answers entries' fallback tag y) : x = y := by
  cases hx with
  | chosen hname hlongest hfirst =>
    have hmem := Assoc.mem_of_lookup hfirst
    cases hy with
    | chosen hname' hlongest' hfirst' =>
      have hmem' := hperm.mem_iff.mp (Assoc.mem_of_lookup hfirst')
      -- each name is no longer than the other
      have hsize := Nat.le_antisymm (hlongest' _ (hperm.mem_iff.mpr hmem) hname)
        (hlongest _ hmem' hname')
      obtain rfl := hname.eq_of_size hname' hsize
      rw [(Assoc.lookup_eq_some_iff_mem hnodup).mpr hmem'] at hfirst
      exact congrArg _ (Option.some.inj hfirst).symm
    | fallback hnone | nothing hnone => exact absurd hname (hnone _ (hperm.mem_iff.mpr hmem))
  | fallback hnone h =>
    cases hy with
    | chosen hname' _ hfirst' =>
      exact absurd hname' (hnone _ (hperm.mem_iff.mp (Assoc.mem_of_lookup hfirst')))
    | fallback _ h' => exact congrArg _ (Option.some.inj (h.symm.trans h'))
    | nothing _ h' => rw [h] at h'; cases h'
  | nothing hnone h =>
    cases hy with
    | chosen hname' _ hfirst' =>
      exact absurd hname' (hnone _ (hperm.mem_iff.mp (Assoc.mem_of_lookup hfirst')))
    | fallback _ h' => rw [h] at h'; cases h'
    | nothing => rfl

/-- The candidates for a tag are the registered names that end it, in some order. -/
theorem candidates_perm {entries : List (String × α)} {d : Dispatcher α}
    (h : Sorts entries d.handlers) (tag : String) :
    (d.candidates tag).Perm
      ((entries.map Prod.fst).filter fun name => Ends (Text.snakeCase tag) name) := by
  rw [candidates, List.filter_map]
  refine ((h.perm.filter _).map _).trans (.of_eq (congrArg _ (List.filter_congr fun e _ => ?_)))
  exact answers_eq_decide ..

theorem candidates_sorted {entries : List (String × α)} {d : Dispatcher α}
    (h : Sorts entries d.handlers) (tag : String) :
    (d.candidates tag).Pairwise fun m n => n.utf8ByteSize ≤ m.utf8ByteSize :=
  List.pairwise_map.mpr (h.sorted.filter _)

theorem ends_of_mem_candidates {d : Dispatcher α} {tag name : String}
    (h : name ∈ d.candidates tag) : Ends (Text.snakeCase tag) name := by
  obtain ⟨e, he, rfl⟩ := List.mem_map.mp h
  exact answers_iff.mp (List.mem_filter.mp he).2

/-- The first candidate is the name under which the handler has been found. -/
theorem resolve_of_head? {entries : List (String × α)} {d : Dispatcher α}
    (h : Sorts entries d.handlers) {tag name : String}
    (hhead : (d.candidates tag).head? = some name) :
    ∃ handler, entries.lookup name = some handler ∧ d.resolve tag = .ok handler := by
  rw [candidates, List.head?_map, List.head?_filter] at hhead
  obtain ⟨e, hfind, rfl⟩ := Option.map_eq_some_iff.mp hhead
  refine ⟨e.2, (h.first hfind).2.2, ?_⟩
  rw [resolve, hfind]

/-- Candidates do not depend on the order of registration. -/
theorem candidates_congr {entries entries' : List (String × α)} {d d' : Dispatcher α}
    (h : Sorts entries d.handlers) (h' : Sorts entries' d'.handlers) (hperm : entries'.Perm entries)
    (tag : String) : d'.candidates tag = d.candidates tag := by
  refine List.Perm.eq_of_pairwise (fun m n hm hn hle hge => ?_) (candidates_sorted h' tag)
    (candidates_sorted h tag) ?_
  · have hsize := Nat.le_antisymm hge hle
    exact (ends_of_mem_candidates hm).eq_of_size (ends_of_mem_candidates hn) hsize
  · have hnames := (hperm.map Prod.fst).filter fun name => Ends (Text.snakeCase tag) name
    exact ((candidates_perm h' tag).trans hnames).trans (candidates_perm h tag).symm

/-- The table of a dispatcher sorts what the calls have registered.  The candidates for a tag are
the names that end it, from the longest on, and the tag is answered by what has been registered
first under the longest of them, which is the first candidate.  Calls that register the same in
another order, each name once, and set the same fallback last, build a dispatcher that answers
alike. -/
theorem longest_of_calls (calls : List (Call α)) (tag : String) :
    Sorts (registered calls) (ofCalls calls).handlers ∧
      (((ofCalls calls).candidates tag).Perm
          (((registered calls).map Prod.fst).filter fun name => Ends (Text.snakeCase tag) name) ∧
        ((ofCalls calls).candidates tag).Pairwise fun m n => n.utf8ByteSize ≤ m.utf8ByteSize) ∧
      Answers (registered calls) (lastFallback? calls) tag ((ofCalls calls).resolve tag) ∧
      (∀ name, ((ofCalls calls).candidates tag).head? = some name →
        ∃ handler, (registered calls).lookup name = some handler ∧
          (ofCalls calls).resolve tag = .ok handler) ∧
      ∀ calls' : List (Call α), (registered calls').Perm (registered calls) →
        lastFallback? calls' = lastFallback? calls → ((registered calls).map Prod.fst).Nodup →
        (ofCalls calls').candidates tag = (ofCalls calls).candidates tag ∧
          (ofCalls calls').resolve tag = (ofCalls calls).resolve tag := by
  have h := sorts_ofCalls calls
  have hanswers := Answers.of_resolve h tag
  rw [fallback_ofCalls] at hanswers
  refine ⟨h, ⟨candidates_perm h tag, candidates_sorted h tag⟩, hanswers,
    fun name => resolve_of_head? h, fun calls' hperm hlast hnodup => ?_⟩
  have h' := sorts_ofCalls calls'
  have hanswers' := Answers.of_resolve h' tag
  rw [fallback_ofCalls, hlast] at hanswers'
  exact ⟨candidates_congr h h' hperm tag, (hanswers.unique hperm hnodup hanswers').symm⟩

/-- Calls that register names of which one ends another. -/
def loopCalls : List (Call Nat) :=
  [.on "struct" 1, .on "loop" 2, .otherwise 0, .on "ForLoop" 3, .on "for" 4]

/-- Of `loop` and `for_loop` the longer name answers `innerForLoop`, in either order of
registration. -/
theorem longest_of_loopCalls :
    (registered loopCalls.reverse).Perm (registered loopCalls) ∧
      lastFallback? loopCalls.reverse = lastFallback? loopCalls ∧
      ((registered loopCalls).map Prod.fst).Nodup ∧
      (ofCalls loopCalls).candidates "innerForLoop" = ["for_loop", "loop"] ∧
      (ofCalls loopCalls.reverse).candidates "innerForLoop" = ["for_loop", "loop"] ∧
      (ofCalls loopCalls.reverse).resolve "innerForLoop" = .ok 3 := by
  have hperm : (registered loopCalls.reverse).Perm (registered loopCalls) := by
    rw [registered, List.filterMap_reverse]
    exact List.reverse_perm _
  have hnodup : ((registered loopCalls).map Prod.fst).Nodup := by decide +kernel
  have hnames : (ofCalls loopCalls).candidates "innerForLoop" = ["for_loop", "loop"] := by
    decide +kernel
  obtain ⟨-, -, -, hhead, hother⟩ := longest_of_calls loopCalls "innerForLoop"
  obtain ⟨hnames', hanswer⟩ := hother loopCalls.reverse hperm rfl hnodup
  obtain ⟨handler, hhandler, hresolve⟩ := hhead "for_loop" (by rw [hnames]; rfl)
  have hthree : (registered loopCalls).lookup "for_loop" = some 3 := by decide +kernel
  obtain rfl : handler = 3 := Option.some.inj (hhandler.symm.trans hthree)
  exact ⟨hperm, rfl, hnodup, hnames, hnames'.trans hnames, hanswer.trans hresolve⟩

end Dispatcher

end TypeSketch
