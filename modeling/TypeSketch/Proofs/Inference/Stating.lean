import TypeSketch.Inference.Run
import TypeSketch.Proofs.Inference.Facts
import TypeSketch.Proofs.Inference.Outcome
import TypeSketch.Proofs.Inference.Sites
import TypeSketch.Proofs.Shape.Building

/-!
# Inference — the board of a program

The board of a program holds what the rules say of its nodes, and nothing else: each fact on it
comes from one rule and one node in its scope (`Inference.Heard`).  With the standard rules its
relations state bonds, and what it knows at the start are the shapes of literals and of
comparisons (`Inference.Says`).

Facts about one path may overwrite each other.  Those of the standard rules do not: only nodes
without a name are given a shape, and the path of such a node is its own.

The two halves meet in `Faithful`: there is a reason for all that is on the board of a program, and
whatever there is a reason for is on it. The first half is merging, which forgets nothing but what
it overwrites (`mem_of_lookup_foldl_merge`); the second is that nothing is overwritten with
something else, since a node that is given a shape is given one only (`Given.unique`).
-/

namespace TypeSketch

/-! ### Facts put together -/

namespace Board

variable {b : Board} {facts : Facts} {fs : List Facts} {path : String} {c : Callback}

/-- Callbacks that are added one path after the other are all asked for. -/
theorem asks_foldl_addTo {more : List (String × List Callback)}
    {callbacks : List (String × List Callback)} :
    Facts.Asks (more.foldl (fun cs (path, more) => Facts.addTo path more cs) callbacks) path c ↔
      Facts.Asks callbacks path c ∨ Facts.Asks more path c := by
  induction more generalizing callbacks with
  | nil => simp
  | cons e more ih =>
    rw [List.foldl_cons, ih, Facts.asks_addTo, or_assoc]
    refine or_congr_right ⟨?_, ?_⟩
    · rintro (⟨rfl, hc⟩ | ⟨cs, hcs, hc⟩)
      · exact ⟨e.2, List.mem_cons_self, hc⟩
      · exact ⟨cs, List.mem_cons_of_mem _ hcs, hc⟩
    · rintro ⟨cs, hcs, hc⟩
      rcases List.mem_cons.mp hcs with rfl | hcs
      · exact .inl ⟨rfl, hc⟩
      · exact .inr ⟨cs, hcs, hc⟩

theorem asks_merge : Facts.Asks (b.merge facts).callbacks path c ↔
    Facts.Asks b.callbacks path c ∨ Facts.Asks facts.callbacks path c :=
  asks_foldl_addTo

theorem asks_foldl_merge : Facts.Asks (fs.foldl merge b).callbacks path c ↔
    Facts.Asks b.callbacks path c ∨ ∃ facts ∈ fs, Facts.Asks facts.callbacks path c := by
  induction fs generalizing b with
  | nil => simp
  | cons facts fs ih => simp [ih, asks_merge, or_assoc]

theorem relations_foldl_merge :
    (fs.foldl merge b).relations = b.relations ++ fs.flatMap (·.relations) := by
  induction fs generalizing b with
  | nil => simp
  | cons facts fs ih => simp [ih, merge]

/-- What is known after merging facts is in some of them or was known before. -/
theorem mem_of_lookup_foldl_merge {s : Shape} (h : (fs.foldl merge b).known.lookup path = some s) :
    (∃ facts ∈ fs, (path, s) ∈ facts.known) ∨ b.known.lookup path = some s := by
  induction fs generalizing b with
  | nil => exact .inr h
  | cons facts fs ih =>
    rcases ih h with ⟨facts', hf, hs⟩ | h
    · exact .inl ⟨facts', List.mem_cons_of_mem _ hf, hs⟩
    · refine (Assoc.mem_of_lookup_putAll h).imp_left fun hs => ?_
      exact ⟨facts, List.mem_cons_self, hs⟩

/-- A path that some merged facts give a shape has one. -/
theorem isSome_lookup_foldl_merge
    (h : (∃ facts ∈ fs, path ∈ facts.known.map Prod.fst) ∨ (b.known.lookup path).isSome) :
    ((fs.foldl merge b).known.lookup path).isSome := by
  induction fs generalizing b with
  | nil => exact h.resolve_left (by simp)
  | cons facts fs ih =>
    refine ih (b := b.merge facts) ?_
    rcases h with ⟨facts', hf, hs⟩ | h
    · rcases List.mem_cons.mp hf with rfl | hf
      · exact .inr (Assoc.isSome_putAll_of_mem (.inl hs))
      · exact .inl ⟨facts', hf, hs⟩
    · exact .inr (Assoc.isSome_putAll_of_mem (.inr h))

/-- The shape of a path goes to whatever asks for it. -/
theorem mem_assignments {s : Shape} :
    (c, s) ∈ b.assignments ↔ ∃ path, Facts.Asks b.callbacks path c ∧ b.shape? path = some s := by
  rw [assignments, List.mem_flatMap]
  constructor
  · rintro ⟨⟨path, cs⟩, hcs, hmem⟩
    cases hs : b.shape? path with
    | none => simp [hs] at hmem
    | some t =>
      simp only [hs] at hmem
      obtain ⟨c', hc', he⟩ := List.mem_map.mp hmem
      cases he
      exact ⟨path, ⟨cs, hcs, hc'⟩, hs⟩
  · rintro ⟨path, ⟨cs, hcs, hc⟩, hs⟩
    refine ⟨(path, cs), hcs, ?_⟩
    simp only [hs]
    exact List.mem_map_of_mem hc

end Board

theorem Rule.Asked.field_mem {env : Scopes} {n : Node} {scope : Scope} {path : String}
    {c : Callback} (h : Rule.Asked env n scope path c) : c.field ∈ Attr.written := by
  cases h <;> simp [Attr.written]

namespace Inference

/-! ### Where facts come from -/

/-- A rule says some facts of a node in its scope. -/
structure Told (rules : List Rule) (env : Scopes) (n : Node) (scope : Scope) (rule : Rule)
    (facts : Facts) : Prop where
  rule_mem : rule ∈ rules
  accepts : rule.accepts n = true
  facts_eq : rule.facts env scope n = .ok facts

/-- The facts are those that the rules say of some nodes. -/
structure Heard (rules : List Rule) (env : Scopes) (visited : List (Node × Scope))
    (fs : List Facts) : Prop where
  source : ∀ facts ∈ fs, ∃ n s rule, (n, s) ∈ visited ∧ Told rules env n s rule facts
  every : ∀ n s, (n, s) ∈ visited → ∀ rule ∈ rules, rule.accepts n = true →
    ∃ facts ∈ fs, Told rules env n s rule facts

variable {rules : List Rule} {env : Scopes} {scope : Scope} {n root : Node} {b : Board}

theorem heard_nil : Heard rules env [] [] := ⟨nofun, nofun⟩

/-- What is heard of one node and of others is heard of all of them. -/
theorem Heard.cons {fs fs' : List Facts} {visited : List (Node × Scope)}
    (h : Heard rules env [(n, scope)] fs) (h' : Heard rules env visited fs') :
    Heard rules env ((n, scope) :: visited) (fs ++ fs') := by
  refine ⟨fun facts hf => ?_, fun m s hm rule hr ha => ?_⟩
  · rcases List.mem_append.mp hf with hf | hf
    · obtain ⟨m, s, rule, hm, ht⟩ := h.source facts hf
      exact ⟨m, s, rule, List.mem_cons.mpr (.inl (List.mem_singleton.mp hm)), ht⟩
    · obtain ⟨m, s, rule, hm, ht⟩ := h'.source facts hf
      exact ⟨m, s, rule, List.mem_cons_of_mem _ hm, ht⟩
  · rcases List.mem_cons.mp hm with he | hm
    · obtain ⟨facts, hf, ht⟩ := h.every m s (List.mem_singleton.mpr he) rule hr ha
      exact ⟨facts, List.mem_append_left _ hf, ht⟩
    · obtain ⟨facts, hf, ht⟩ := h'.every m s hm rule hr ha
      exact ⟨facts, List.mem_append_right _ hf, ht⟩

/-- The facts about one node are what rules say of it. -/
theorem factsOf_eq_ok {told : List (Rule × Facts)} (h : factsOf rules env n scope = .ok told) :
    Heard rules env [(n, scope)] (told.map Prod.snd) := by
  obtain ⟨hsource, hevery⟩ := Except.mapM_eq_ok h
  refine ⟨fun facts hf => ?_, fun m s hm rule hr ha => ?_⟩
  · obtain ⟨t, ht, rfl⟩ := List.mem_map.mp hf
    obtain ⟨rule, hr, h⟩ := hsource t ht
    obtain ⟨hr, ha⟩ := List.mem_filter.mp hr
    obtain ⟨facts, hfacts, h⟩ := Except.bind_eq_ok.mp h
    cases h
    exact ⟨n, scope, rule, List.mem_singleton_self _, hr, ha, hfacts⟩
  · cases List.mem_singleton.mp hm
    obtain ⟨t, ht, h⟩ := hevery rule (List.mem_filter.mpr ⟨hr, ha⟩)
    obtain ⟨facts, hfacts, h⟩ := Except.bind_eq_ok.mp h
    cases h
    exact ⟨facts, List.mem_map_of_mem ht, hr, ha, hfacts⟩

/-- The facts of the rules about some nodes, put together one after the other. -/
theorem foldlM_factsOf_eq_ok {visited : List (Node × Scope)} {b₀ : Board}
    (h : visited.foldlM (fun b (n, scope) => do
      let told ← factsOf rules env n scope
      return told.foldl (fun (b : Board) (t : Rule × Facts) => b.merge t.2) b) b₀ =
        .ok b) :
    ∃ fs, b = fs.foldl Board.merge b₀ ∧ Heard rules env visited fs := by
  induction visited generalizing b₀ with
  | nil =>
    cases h
    exact ⟨[], rfl, heard_nil⟩
  | cons p visited ih =>
    rw [List.foldlM_cons] at h
    -- the facts of the first node are merged before those of the others
    obtain ⟨b₁, h₁, h⟩ := Except.bind_eq_ok.mp h
    obtain ⟨told, htold, h₁⟩ := Except.bind_eq_ok.mp h₁
    cases h₁
    obtain ⟨fs, rfl, hfs⟩ := ih h
    refine ⟨told.map Prod.snd ++ fs, ?_, (factsOf_eq_ok htold).cons hfs⟩
    rw [List.foldl_append, List.foldl_map]

/-- The board of a program is what the rules say of its nodes. -/
theorem boardOf_eq_ok (h : boardOf rules root = .ok b) :
    ∃ fs, b = fs.foldl Board.merge {} ∧
      Heard rules (.ofNode root) ((Scopes.ofNode root).walk {} root) fs :=
  foldlM_factsOf_eq_ok h

/-! ### The standard rules -/

/-- A literal has no operands. -/
theorem not_operands_of_literal (hn : n.Made) (h : n.flag Attr.literal = true) {left : Node} :
    n.node? Attr.operatorLeft ≠ some left := by
  obtain ⟨f, hf, -⟩ := hn.form
  obtain ⟨text, value, shape, rfl⟩ := NodeForm.eq_literal (hf ▸ h)
  rw [hf]
  nofun

/-- A node that is given a shape has no name, so its path is its own. -/
theorem Given.anonymous (hn : n.Made) {path : String} {t : Shape}
    (h : Rule.Given env n scope path t) :
    n.Anonymous ∧ path = (env.site n scope).path := by
  cases h with
  | literal hl => exact ⟨(hn.literal_spec hl).1, rfl⟩
  | comparison hl => exact ⟨hn.operands_spec hl, rfl⟩

/-- A node is given one shape. -/
theorem Given.unique (hn : n.Made) {path path' : String} {t t' : Shape}
    (h : Rule.Given env n scope path t) (h' : Rule.Given env n scope path' t') : t = t' := by
  cases h with
  | literal hl hs ht =>
    cases h' with
    | literal _ hs' ht' =>
      cases hs.symm.trans hs'
      cases ht.symm.trans ht'
      rfl
    | comparison ho => exact absurd ho (not_operands_of_literal hn hl)
  | comparison ho =>
    cases h' with
    | literal hl => exact absurd ho (not_operands_of_literal hn hl)
    | comparison => rfl

/-- The shape that a sample implies is proper when the sample is dropped. -/
theorem proper_withoutSample {value : Json} {s t : Shape}
    (hs : (Shape.ofSample value "").Makes s) (h : Facts.withoutSample s = .ok t) : t.Proper := by
  obtain ⟨s₀, hs₀, hs⟩ := Draft.makes_bind hs
  rw [Draft.makes_pure hs] at h
  obtain ⟨s₁, hs₁, ht⟩ := Except.bind_eq_ok.mp h
  obtain ⟨r₁, h₁, he₁⟩ := Except.bind_eq_ok.mp hs₁
  obtain ⟨r₂, h₂, he₂⟩ := Except.bind_eq_ok.mp ht
  cases he₁
  cases he₂
  have hproper : (s₀.copy.adding Trait.fromJson.present).Proper :=
    (Shape.proper_copy.mpr (Shape.proper_of_makes_ofJson hs₀)).adding (.bool true)
  exact (Record.Proper.remove_set hproper h₁ rfl).remove h₂

/-- A shape that a rule gives is proper. -/
theorem Given.proper (hn : n.Made) {path : String} {t : Shape}
    (h : Rule.Given env n scope path t) : t.Proper := by
  cases h with
  | literal hl hs ht =>
    obtain ⟨-, s, value, hs', hmakes⟩ := hn.literal_spec hl
    cases hs.symm.trans hs'
    exact Shape.proper_freeze.mpr (proper_withoutSample hmakes ht)
  | comparison => exact Shape.proper_bool

/-- A board holds what the standard rules say of a program, and nothing else. -/
structure Faithful (root : Node) (b : Board) : Prop where
  states : ∀ r ∈ b.relations, (∃ c, r.States c) ∧ r.unified = false
  sampled : ∀ n s, (n, s) ∈ (Scopes.ofNode root).walk {} root → n.flag Attr.literal = true →
    ∃ shape t, n.shape? Attr.inferredType = some shape ∧ Facts.withoutSample shape = .ok t
  given : ∀ path t, b.known.lookup path = some t ↔
    ∃ n s, (n, s) ∈ (Scopes.ofNode root).walk {} root ∧ Rule.Given (.ofNode root) n s path t
  equated : ∀ n s, (n, s) ∈ (Scopes.ofNode root).walk {} root →
    ∀ l m, Rule.Equated (.ofNode root) n s l m → .equal l m ∈ b.relations
  asked : ∀ path c, Facts.Asks b.callbacks path c ↔
    ∃ n s, (n, s) ∈ (Scopes.ofNode root).walk {} root ∧ Rule.Asked (.ofNode root) n s path c

/-- What some rule says of a node in its scope is heard. -/
theorem Heard.of_stated {visited : List (Node × Scope)} {fs : List Facts} {P : Facts → Prop}
    (h : Heard Rule.standard env visited fs) (hn : (n, scope) ∈ visited)
    (hP : Rule.Stated env n scope P) : ∃ facts ∈ fs, P facts := by
  obtain ⟨rule, hr, ha, hP⟩ := hP
  obtain ⟨facts, hf, ht⟩ := h.every n scope hn rule hr ha
  exact ⟨facts, hf, hP facts ht.facts_eq⟩

/-- There is a reason for whatever standard rules, all or some, are heard to say. -/
theorem Heard.reasoned (hrules : ∀ rule ∈ rules, rule ∈ Rule.standard)
    {visited : List (Node × Scope)} {fs : List Facts} {facts : Facts}
    (h : Heard rules env visited fs) (hf : facts ∈ fs) :
    ∃ n s, (n, s) ∈ visited ∧ Rule.Reasoned env n s facts := by
  obtain ⟨n, s, rule, hn, ht⟩ := h.source facts hf
  exact ⟨n, s, hn, Rule.reasoned_of_standard (hrules rule ht.rule_mem) ht.accepts ht.facts_eq⟩

/-- There is a reason for all that is on the board of a program. -/
theorem boardOf_reasoned (hrules : ∀ rule ∈ rules, rule ∈ Rule.standard)
    (h : boardOf rules root = .ok b) :
    (∀ r ∈ b.relations, (∃ c, r.States c) ∧ r.unified = false) ∧
      ∀ path c, Facts.Asks b.callbacks path c → c.field ∈ Attr.written := by
  obtain ⟨fs, rfl, hfs⟩ := boardOf_eq_ok h
  refine ⟨fun r hr => ?_, fun path c hc => ?_⟩
  · rw [Board.relations_foldl_merge, List.nil_append] at hr
    obtain ⟨facts, hf, hr⟩ := List.mem_flatMap.mp hr
    obtain ⟨n, s, -, hreason⟩ := hfs.reasoned hrules hf
    exact hreason.states r hr
  · rcases Board.asks_foldl_merge.mp hc with hc | ⟨facts, hf, hc⟩
    · exact absurd hc Facts.not_asks_nil
    · obtain ⟨n, s, -, hreason⟩ := hfs.reasoned hrules hf
      exact (hreason.asked path c hc).field_mem

/-- What is known once all facts are merged is what a rule gives. -/
theorem Heard.given {visited : List (Node × Scope)} {fs : List Facts} {path : String} {t : Shape}
    (h : Heard Rule.standard env visited fs)
    (hl : (fs.foldl Board.merge {}).known.lookup path = some t) :
    ∃ n s, (n, s) ∈ visited ∧ Rule.Given env n s path t := by
  rcases Board.mem_of_lookup_foldl_merge hl with ⟨facts, hf, hmem⟩ | hl
  · obtain ⟨n, s, hn, hreason⟩ := h.reasoned (fun _ h => h) hf
    exact ⟨n, s, hn, hreason.given _ hmem⟩
  · cases hl

/-- The board of a program is faithful to it. -/
theorem faithful_boardOf (made : root.Made) (apart : root.Apart)
    (h : boardOf Rule.standard root = .ok b) : Faithful root b := by
  obtain ⟨fs, rfl, hfs⟩ := boardOf_eq_ok h
  refine ⟨fun r hr => ?_, fun n s hn hl => ?_, fun path t => ⟨hfs.given, ?_⟩,
    fun n s hn l m he => ?_, fun path c => ⟨fun hc => ?_, ?_⟩⟩
  · rw [Board.relations_foldl_merge, List.nil_append] at hr
    obtain ⟨facts, hf, hr⟩ := List.mem_flatMap.mp hr
    obtain ⟨n, s, -, hreason⟩ := hfs.reasoned (fun _ h => h) hf
    exact hreason.states r hr
  · obtain ⟨-, shape, -, hshape, -⟩ := (made.all n (Scopes.mem_all_of_walk hn)).literal_spec hl
    obtain ⟨facts, -, htold⟩ := hfs.every n s hn Rule.literal (by simp [Rule.standard]) hl
    obtain ⟨t, ht, -⟩ := Rule.literal_facts hshape htold.facts_eq
    exact ⟨shape, t, hshape, ht⟩
  · rintro ⟨n, s, hn, hg⟩
    obtain ⟨facts, hf, hmem⟩ := hfs.of_stated hn hg.stated
    have hsome : ((fs.foldl Board.merge {}).known.lookup path).isSome :=
      Board.isSome_lookup_foldl_merge
        (.inl ⟨facts, hf, List.mem_map_of_mem (f := Prod.fst) hmem⟩)
    obtain ⟨t', ht'⟩ := Option.isSome_iff_exists.mp hsome
    obtain ⟨n', s', hn', hg'⟩ := hfs.given ht'
    have made_n := made.all n (Scopes.mem_all_of_walk hn)
    have made_n' := made.all n' (Scopes.mem_all_of_walk hn')
    -- whatever wrote the path last is the same node
    obtain ⟨hanon, hpath⟩ := Given.anonymous made_n hg
    obtain ⟨hanon', hpath'⟩ := Given.anonymous made_n' hg'
    obtain ⟨rfl, rfl⟩ := Scopes.visit_unique apart hn hn'
      (hanon.id_eq hanon' (hpath.symm.trans hpath'))
    rw [ht', Given.unique made_n hg hg']
  · obtain ⟨facts, hf, hmem⟩ := hfs.of_stated hn he.stated
    rw [Board.relations_foldl_merge]
    exact List.mem_append_right _ (List.mem_flatMap.mpr ⟨facts, hf, hmem⟩)
  · rcases Board.asks_foldl_merge.mp hc with hc | ⟨facts, hf, hc⟩
    · exact absurd hc Facts.not_asks_nil
    · obtain ⟨n, s, hn, hreason⟩ := hfs.reasoned (fun _ h => h) hf
      exact ⟨n, s, hn, hreason.asked path c hc⟩
  · rintro ⟨n, s, hn, ha⟩
    obtain ⟨facts, hf, hc⟩ := hfs.of_stated hn ha.stated
    exact Board.asks_foldl_merge.mpr (.inr ⟨facts, hf, hc⟩)

/-- The board of a program is one that inference is sound on. -/
theorem Faithful.stated (made : root.Made) (h : Faithful root b) : b.Stated where
  bond r hr := (h.states r hr).1
  pending r hr := (h.states r hr).2
  proper path t ht := by
    obtain ⟨n, s, hn, hg⟩ := (h.given path t).mp ht
    exact Given.proper (made.all n (Scopes.mem_all_of_walk hn)) hg

end Inference

end TypeSketch
