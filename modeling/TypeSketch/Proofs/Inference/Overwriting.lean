import TypeSketch.Proofs.Inference.Soundness

/-!
# Inference — shapes that are given twice

While the board of a program is put together, a shape that a path is given takes the place of one
that the path was given before, whether the two agree or not: what is known in the end is what was
said last (`Inference.boardOf_eq`, `Inference.last_given`).  Nothing checks the two against each
other, so a program whose rules contradict each other can be inferred all the same
(`Inference.overwritten_by_clone`).

Two shapes for one path take two nodes of one number, a node that is given a shape for two reasons,
or names that make up the path of another node.  Where nodes stand apart and each of them is given a
shape once (`Node.GivenOnce`), as in every program made of the forms of nodes, no path is given two.
-/

namespace TypeSketch

/-! ### What is said of a program -/

namespace Inference

variable {rules : List Rule} {env : Scopes} {scope : Scope} {n root : Node}

/-- What the rules say of some nodes, node by node. -/
def saidOf (rules : List Rule) (env : Scopes) (visited : List (Node × Scope)) :
    Except Error (List (List (Rule × Facts))) :=
  visited.mapM fun (n, scope) => factsOf rules env n scope

/-- What the rules say of the nodes of a program, in the order in which they say it. -/
def statements (rules : List Rule) (root : Node) : Except Error (List Facts) :=
  (saidOf rules (.ofNode root) ((Scopes.ofNode root).walk {} root)).map fun said =>
    said.flatten.map Prod.snd

/-- The paths that facts give a shape, each with the shape, in the order of the facts. A path that
is given two shapes comes twice. -/
def given (fs : List Facts) : List (String × Shape) := fs.flatMap (·.known)

/-- Asking the rules node by node while the board is made is asking them first and merging what they
said. -/
theorem foldlM_factsOf (visited : List (Node × Scope)) (b : Board) :
    (visited.foldlM (fun b (n, scope) => do
      let told ← factsOf rules env n scope
      return told.foldl (fun (b : Board) (t : Rule × Facts) => b.merge t.2) b) b) =
        (saidOf rules env visited).map fun said =>
          (said.flatten.map Prod.snd).foldl Board.merge b := by
  induction visited generalizing b with
  | nil => rfl
  | cons p visited ih =>
    obtain ⟨n, scope⟩ := p
    rw [List.foldlM_cons, saidOf, List.mapM_cons]
    change (factsOf rules env n scope >>= _) >>= _ =
      Except.map _ (factsOf rules env n scope >>= fun told => saidOf rules env visited >>= _)
    cases factsOf rules env n scope with
    | error e => rfl
    | ok told =>
      refine (ih _).trans ?_
      cases saidOf rules env visited with
      | error e => rfl
      | ok said =>
        refine congrArg Except.ok ?_
        simp only [List.flatten_cons, List.map_append, List.foldl_append, List.foldl_map]

/-- The board of a program is made of the statements about it, one after the other. -/
theorem boardOf_eq (rules : List Rule) (root : Node) :
    boardOf rules root = (statements rules root).map fun fs => fs.foldl Board.merge {} := by
  refine (foldlM_factsOf ((Scopes.ofNode root).walk {} root) {}).trans ?_
  rw [statements]
  cases saidOf rules (.ofNode root) ((Scopes.ofNode root).walk {} root) <;> rfl

/-- Of the shapes that a path is given the last one is known. -/
theorem lookup_foldl_merge (fs : List Facts) (b : Board) (path : String) :
    (fs.foldl Board.merge b).known.lookup path =
      ((given fs).reverse.lookup path).or (b.known.lookup path) := by
  induction fs generalizing b with
  | nil => rfl
  | cons facts fs ih =>
    have hmerge : (b.merge facts).known = Assoc.putAll facts.known b.known := rfl
    have hgiven : given (facts :: fs) = facts.known ++ given fs := List.flatMap_cons
    rw [List.foldl_cons, ih, hmerge, Assoc.lookup_putAll, hgiven, List.reverse_append,
      List.lookup_append, Option.or_assoc]

end Inference

/-! ### Nodes that are given a shape once -/

/-- The node compares two operands. -/
structure Node.Compares (n : Node) : Prop where
  operator : ((n.str? Attr.operator).getD "") ∈ Rule.comparisons
  left : (n.node? Attr.operatorLeft).isSome
  right : (n.node? Attr.operatorRight).isSome

/-- The node is given a shape for one reason at most, and then it has no name. -/
structure Node.GivenOnce (n : Node) : Prop where
  anonymous : n.flag Attr.literal = true ∨ n.Compares → n.Anonymous
  once : ¬ (n.flag Attr.literal = true ∧ n.Compares)

/-- The nodes that readers of source code make are given a shape once. -/
theorem Node.Made.givenOnce {n : Node} (hn : n.Made) : n.GivenOnce where
  anonymous := by
    rintro (hl | hc)
    · exact (hn.literal_spec hl).1
    · obtain ⟨left, hleft⟩ := Option.isSome_iff_exists.mp hc.left
      exact hn.operands_spec hleft
  once := by
    rintro ⟨hl, hc⟩
    obtain ⟨left, hleft⟩ := Option.isSome_iff_exists.mp hc.left
    exact Inference.not_operands_of_literal hn hl hleft

namespace Rule

variable {env : Scopes} {scope : Scope} {n : Node} {rule : Rule} {facts : Facts}

/-- A rule speaks of the shape of a node because it is a literal, or because it compares. -/
inductive Gives (n : Node) : Rule → Prop
  | literal (h : n.flag Attr.literal = true) : Gives n Rule.literal
  | comparison (h : n.Compares) : Gives n Rule.operator

/-- A standard rule gives the path of a node one shape, for a reason, or none to any path. -/
theorem known_of_standard (hrule : rule ∈ standard) (hn : rule.accepts n = true)
    (h : rule.facts env scope n = .ok facts) :
    facts.known = [] ∨ Gives n rule ∧ ∃ t, facts.known = [((env.site n scope).path, t)] := by
  simp only [standard, List.mem_cons, List.not_mem_nil, or_false] at hrule
  -- Of the seven rules, two give a shape: that of operators, for a comparison, and that of
  -- literals.
  rcases hrule with rfl | rfl | rfl | rfl | rfl | rfl | rfl
  · exact .inl (variableDeclaration_facts h).2.1
  · exact .inl (assignExpression_facts h).2.2.1
  · obtain ⟨value, hv⟩ := Option.isSome_iff_exists.mp hn
    exact .inl (returning_facts hv h).2.1
  · exact .inl (memberExpression_facts h).2.1
  · cases hl : n.node? Attr.operatorLeft with
    | none => exact .inl (operator_facts_of_none (.inl hl) h ▸ rfl)
    | some left =>
      cases hr : n.node? Attr.operatorRight with
      | none => exact .inl (operator_facts_of_none (.inr hr) h ▸ rfl)
      | some right =>
        obtain ⟨-, ⟨hop, hk, -⟩ | ⟨-, -, hk, -⟩ | ⟨-, -, hk, -⟩⟩ := operator_facts hl hr h
        · exact .inr ⟨.comparison ⟨List.contains_iff_mem.mp hop, hl ▸ rfl, hr ▸ rfl⟩, _, hk⟩
        · exact .inl hk
        · exact .inl hk
  · exact .inl (functionDeclaration_facts h).2.1
  · cases hs : n.shape? Attr.inferredType with
    | none =>
      simp only [literal, hs] at h
      cases h
      exact .inl rfl
    | some s =>
      obtain ⟨t, -, hk, -⟩ := literal_facts hs h
      exact .inr ⟨.literal hn, _, hk⟩

theorem map_name_standard_nodup : (standard.map (·.name)).Nodup := by decide

/-- Two rules that speak of the shape of a node that is given one once are one rule. -/
theorem Gives.name_eq {rule' : Rule} (hn : n.GivenOnce) (h : Gives n rule) (h' : Gives n rule') :
    rule.name = rule'.name := by
  cases h with
  | literal hl =>
    cases h' with
    | literal => rfl
    | comparison hc => exact absurd ⟨hl, hc⟩ hn.once
  | comparison hc =>
    cases h' with
    | literal hl => exact absurd ⟨hl, hc⟩ hn.once
    | comparison => rfl

theorem Gives.anonymous (hn : n.GivenOnce) (h : Gives n rule) : n.Anonymous := by
  cases h with
  | literal hl => exact hn.anonymous (.inl hl)
  | comparison hc => exact hn.anonymous (.inr hc)

end Rule

namespace Inference

variable {rules : List Rule} {env : Scopes} {scope : Scope} {n root : Node}

/-- What the rules say of one node comes from different rules, each of which was asked. -/
theorem told_of_factsOf {told : List (Rule × Facts)} (h : factsOf rules env n scope = .ok told) :
    told.map Prod.fst = rules.filter (·.accepts n) ∧
      ∀ t ∈ told, t.1.facts env scope n = .ok t.2 := by
  rw [factsOf] at h
  generalize rules.filter (·.accepts n) = asked at h ⊢
  induction asked generalizing told with
  | nil =>
    cases h
    exact ⟨rfl, nofun⟩
  | cons rule asked ih =>
    rw [List.mapM_cons] at h
    obtain ⟨t, ht, h⟩ := Except.bind_eq_ok.mp h
    obtain ⟨facts, hfacts, ht⟩ := Except.bind_eq_ok.mp ht
    cases ht
    obtain ⟨told, htold, h⟩ := Except.bind_eq_ok.mp h
    cases h
    obtain ⟨hrules, hsaid⟩ := ih htold
    exact ⟨by rw [List.map_cons, hrules], List.forall_mem_cons.mpr ⟨hfacts, hsaid⟩⟩

/-- The shapes that the rules give the paths of one node: one for its own path, or none. -/
theorem given_of_node (hrules : rules.Sublist Rule.standard) (hn : n.GivenOnce)
    {told : List (Rule × Facts)} (h : factsOf rules env n scope = .ok told) :
    given (told.map Prod.snd) = [] ∨
      n.Anonymous ∧ ∃ t, given (told.map Prod.snd) = [((env.site n scope).path, t)] := by
  obtain ⟨hasked, hfacts⟩ := told_of_factsOf h
  have hnames : (told.map (·.1.name)).Nodup := by
    have hsub : (told.map Prod.fst).Sublist Rule.standard :=
      hasked ▸ List.filter_sublist.trans hrules
    have hmap := (hsub.map Rule.name).nodup Rule.map_name_standard_nodup
    rwa [List.map_map] at hmap
  have hknown : ∀ t ∈ told, t.2.known = [] ∨
      Rule.Gives n t.1 ∧ ∃ s, t.2.known = [((env.site n scope).path, s)] := by
    intro t ht
    have hmem : t.1 ∈ rules.filter (·.accepts n) := hasked ▸ List.mem_map_of_mem ht
    obtain ⟨hmem, haccepts⟩ := List.mem_filter.mp hmem
    exact Rule.known_of_standard (hrules.subset hmem) haccepts (hfacts t ht)
  clear hasked hfacts h
  rw [given, List.flatMap_map]
  induction told with
  | nil => exact .inl rfl
  | cons t told ih =>
    rw [List.map_cons, List.nodup_cons] at hnames
    obtain ⟨ht, hrest⟩ := List.forall_mem_cons.mp hknown
    rw [List.flatMap_cons]
    rcases ht with ht | ⟨hgives, s, ht⟩
    · rw [ht, List.nil_append]
      exact ih hnames.2 hrest
    -- no other rule speaks of the shape of the node
    · have hnone : told.flatMap (·.2.known) = [] := by
        refine List.flatMap_eq_nil_iff.mpr fun t' ht' => (hrest t' ht').resolve_right ?_
        rintro ⟨hgives', -⟩
        exact hnames.1 (hgives.name_eq hn hgives' ▸ List.mem_map_of_mem ht')
      exact .inr ⟨hgives.anonymous hn, s, by rw [ht, hnone, List.append_nil]⟩

/-- In nodes that stand apart and are given a shape once, no path is given two shapes. -/
theorem nodup_given (hrules : rules.Sublist Rule.standard) {visited : List (Node × Scope)}
    (apart : (visited.map (·.1.id)).Nodup) (once : ∀ p ∈ visited, p.1.GivenOnce)
    {said : List (List (Rule × Facts))} (h : saidOf rules env visited = .ok said) :
    ((given (said.flatten.map Prod.snd)).map Prod.fst).Nodup ∧
      ∀ path ∈ (given (said.flatten.map Prod.snd)).map Prod.fst,
        ∃ n s, (n, s) ∈ visited ∧ n.Anonymous ∧ path = (env.site n s).path := by
  induction visited generalizing said with
  | nil =>
    cases h
    exact ⟨List.nodup_nil, nofun⟩
  | cons p visited ih =>
    rw [saidOf, List.mapM_cons] at h
    obtain ⟨told, htold, h⟩ := Except.bind_eq_ok.mp h
    obtain ⟨said, hsaid, h⟩ := Except.bind_eq_ok.mp h
    cases h
    rw [List.map_cons, List.nodup_cons] at apart
    obtain ⟨hp, hrest⟩ := List.forall_mem_cons.mp once
    obtain ⟨hnodup, hpaths⟩ := ih apart.2 hrest hsaid
    have hsplit : given (((told :: said).flatten).map Prod.snd) =
        given (told.map Prod.snd) ++ given (said.flatten.map Prod.snd) := by
      rw [given, List.flatten_cons, List.map_append, List.flatMap_append]
      rfl
    have hlater : ∀ path ∈ (given (said.flatten.map Prod.snd)).map Prod.fst,
        ∃ n s, (n, s) ∈ p :: visited ∧ n.Anonymous ∧ path = (env.site n s).path := by
      intro path hpath
      obtain ⟨n, s, hn, h⟩ := hpaths path hpath
      exact ⟨n, s, List.mem_cons_of_mem _ hn, h⟩
    rw [hsplit]
    rcases given_of_node hrules hp htold with hnone | ⟨hanon, t, hone⟩
    · rw [hnone, List.nil_append]
      exact ⟨hnodup, hlater⟩
    · rw [hone, List.singleton_append, List.map_cons, List.nodup_cons]
      refine ⟨⟨fun hmem => ?_, hnodup⟩,
        List.forall_mem_cons.mpr ⟨⟨p.1, p.2, List.mem_cons_self, hanon, rfl⟩, hlater⟩⟩
      -- the path of a node without a name tells its number
      obtain ⟨m, s, hm, hanon', hpath⟩ := hpaths _ hmem
      exact apart.1 (List.mem_map.mpr ⟨(m, s), hm, (hanon.id_eq hanon' hpath).symm⟩)

/-- Of the shapes that the rules give a path the last one is known, so that a shape is lost if and
only if its path is given another one. No path is given two if nodes stand apart and are given a
shape once. -/
theorem last_given (hrules : rules.Sublist Rule.standard) {fs : List Facts}
    (h : statements rules root = .ok fs) :
    (∃ b, boardOf rules root = .ok b ∧
      (∀ path, b.known.lookup path = (given fs).reverse.lookup path) ∧
      ((∀ path t, (path, t) ∈ given fs → b.known.lookup path = some t) ↔
        ∀ path s t, (path, s) ∈ given fs → (path, t) ∈ given fs → s = t)) ∧
    (root.Apart → (∀ n ∈ root.all, n.GivenOnce) → ((given fs).map Prod.fst).Nodup) := by
  constructor
  -- Merging overwrites, so the shape given last is found first from the end.
  · have hlast : ∀ path, (fs.foldl Board.merge {}).known.lookup path =
        (given fs).reverse.lookup path := fun path => by
      rw [lookup_foldl_merge]
      exact Option.or_none
    refine ⟨fs.foldl Board.merge {}, by rw [boardOf_eq, h]; rfl, hlast,
      fun hkept path s t hs ht => ?_, fun hone path t ht => ?_⟩
    · exact Option.some.inj ((hkept path s hs).symm.trans (hkept path t ht))
    · have hsome : ((given fs).reverse.lookup path).isSome :=
        Assoc.lookup_isSome_iff.mpr (List.mem_map_of_mem (f := Prod.fst) (List.mem_reverse.mpr ht))
      obtain ⟨s, hs⟩ := Option.isSome_iff_exists.mp hsome
      have hmem := List.mem_reverse.mp (Assoc.mem_of_lookup hs)
      rw [hlast, hs, hone path s t hmem ht]
  · intro apart once
    obtain ⟨said, hsaid, rfl⟩ : ∃ said, saidOf rules (.ofNode root)
        ((Scopes.ofNode root).walk {} root) = .ok said ∧ said.flatten.map Prod.snd = fs := by
      rw [statements] at h
      cases hs : saidOf rules (.ofNode root) ((Scopes.ofNode root).walk {} root) with
      | error e => rw [hs] at h; cases h
      | ok said => rw [hs] at h; exact ⟨said, rfl, Except.ok.inj h⟩
    refine (nodup_given hrules ?_ (fun p hp => once _ (Scopes.mem_all_of_walk hp)) hsaid).1
    rw [Node.Apart, ← Scopes.map_fst_walk (.ofNode root) {} root, List.map_map] at apart
    exact apart

/-- A program that compares is made of the forms of nodes, and gives a literal and the comparison
their shapes. -/
theorem last_given_of_comparing : ∃ fs, Rule.standard.Sublist Rule.standard ∧
    statements Rule.standard comparing = .ok fs ∧ (given fs).length = 2 ∧
    (∃ b, boardOf Rule.standard comparing = .ok b ∧
      (∀ path, b.known.lookup path = (given fs).reverse.lookup path) ∧
      ((∀ path t, (path, t) ∈ given fs → b.known.lookup path = some t) ↔
        ∀ path s t, (path, s) ∈ given fs → (path, t) ∈ given fs → s = t)) ∧
    ((given fs).map Prod.fst).Nodup := by
  have hlength : ((statements Rule.standard comparing).map fun fs => (given fs).length).toOption =
      some 2 := by decide +kernel
  cases hfs : statements Rule.standard comparing with
  | error e => rw [hfs] at hlength; cases hlength
  | ok fs =>
    obtain ⟨hlast, hnodup⟩ := last_given (.refl _) hfs
    exact ⟨fs, .refl _, rfl, by rw [hfs] at hlength; exact Option.some.inj hlength, hlast,
      hnodup apart_comparing fun n hn => (made_comparing.all n hn).givenOnce⟩

/-- The literal `1` under another shape: a copy of the node, with its number. -/
def literalOneAsText : Node := literalOne.adding (Attr.inferredType.entry Shape.string.toValue)

/-- The program `let a = 1; 1`, whose two literals are one node, of which the second has been given
another shape. -/
def contradicting : Node :=
  let a := (NodeForm.declaration "a" (some literalOne)).node 1
  (NodeForm.program [(NodeForm.declarations [a]).node 2,
    (NodeForm.statement literalOneAsText).node 3]).node 4

/-- Two shapes that are not the same are given to one path, and inference comes off. -/
theorem overwritten_by_clone :
    (∃ fs path s t, statements Rule.standard contradicting = .ok fs ∧ (path, s) ∈ given fs ∧
      (path, t) ∈ given fs ∧ s.same t = false) ∧
    ∃ report, (infer Rule.standard contradicting).2 = .ok report := by
  have hreport : (infer Rule.standard contradicting).2.toBool = true := by decide +kernel
  have hgiven : ((statements Rule.standard contradicting).toOption.any fun fs =>
      (given fs).any fun e => (given fs).any fun e' => e.1 == e'.1 && !e.2.same e'.2) = true := by
    decide +kernel
  refine ⟨?_, ?_⟩
  · cases hfs : statements Rule.standard contradicting with
    | error e => rw [hfs] at hgiven; cases hgiven
    | ok fs =>
      rw [hfs] at hgiven
      obtain ⟨⟨path, s⟩, hs, hgiven⟩ := List.any_eq_true.mp hgiven
      obtain ⟨⟨path', t⟩, ht, hgiven⟩ := List.any_eq_true.mp hgiven
      simp only [Bool.and_eq_true, beq_iff_eq, Bool.not_eq_true'] at hgiven
      obtain ⟨rfl, hsame⟩ := hgiven
      exact ⟨fs, path, s, t, rfl, hs, ht, hsame⟩
  · cases hr : (infer Rule.standard contradicting).2 with
    | error e => rw [hr] at hreport; cases hreport
    | ok report => exact ⟨report, rfl⟩

end Inference

end TypeSketch
