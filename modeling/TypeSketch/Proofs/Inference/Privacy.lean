import TypeSketch.Proofs.Inference.Resolving
import TypeSketch.Proofs.Renumbering.Scopes

/-!
# Inference — paths that are private to a node

A node without a name goes by its kind and its number, with a mark between them (`EndsInNumber`).
Whatever the names around them are, two nodes do not share such a path (`EndsInNumber.id_eq`).
Where names hold no mark, a path holds one only if it ends in a number (`plain_or_endsInNumber`),
and then no other node goes by it, with one exception (`private_paths`): a variable that is declared
without a name is recorded under the empty name, and an identifier that resolves to it takes its
path (`not_private_of_nameless`).  The sites that are recorded are followed through the recording of
declarations for this (`Site.Clear`).

Programs need not be made by the makers of nodes here; their nodes only have numbers of their own.
-/

namespace TypeSketch

namespace Node

/-- The fields that a path takes the name of a node from. -/
def ownNames : List Field := [Attr.identifier, Attr.variableDeclarationId, Attr.argumentName]

/-- No name of the node holds a mark, nor that of a class or a function that it declares. -/
structure Unmarked (n : Node) : Prop where
  own : ∀ f ∈ ownNames, ∀ name ∈ n.str? f, Text.Plain name
  declared : n.opensScope = true → Text.Plain n.declaredName

/-- The node has no name for a path. -/
def Nameless (n : Node) : Prop := ∀ f ∈ ownNames, n.str? f = none

theorem Nameless.ownName_eq {n : Node} (h : n.Nameless) :
    Scopes.ownName n = n.kind ++ "@" ++ toString n.id := by
  simp [Scopes.ownName, h Attr.identifier (by simp [ownNames]),
    h Attr.variableDeclarationId (by simp [ownNames]), h Attr.argumentName (by simp [ownNames])]

/-- The own name of a node holds no mark, or the node has no name. -/
theorem Unmarked.plain_or_nameless {n : Node} (h : n.Unmarked) :
    Text.Plain (Scopes.ownName n) ∨ n.Nameless := by
  rw [Scopes.ownName]
  cases hi : n.str? Attr.identifier with
  | some name => exact .inl (h.own _ (by simp [ownNames]) _ hi)
  | none =>
    cases hv : n.str? Attr.variableDeclarationId with
    | some name => exact .inl (h.own _ (by simp [ownNames]) _ hv)
    | none =>
      cases ha : n.str? Attr.argumentName with
      | some name => exact .inl (h.own _ (by simp [ownNames]) _ ha)
      | none =>
        refine .inr fun f hf => ?_
        simp only [ownNames, List.mem_cons, List.not_mem_nil, or_false] at hf
        rcases hf with rfl | rfl | rfl
        · exact hi
        · exact hv
        · exact ha

end Node

namespace Scopes

variable {env : Scopes} {n m : Node} {s s' : Scope}

/-- The path of the node ends in its kind and its number. -/
def EndsInNumber (env : Scopes) (n : Node) (s : Scope) : Prop :=
  ∃ before, env.globalPath n s = before ++ n.kind ++ "@" ++ toString n.id

theorem EndsInNumber.id_eq (hn : env.EndsInNumber n s) (hm : env.EndsInNumber m s')
    (h : env.globalPath n s = env.globalPath m s') : n.id = m.id := by
  obtain ⟨before, hn⟩ := hn
  obtain ⟨before', hm⟩ := hm
  exact Text.number_of_append (hn.symm.trans (h.trans hm))

theorem EndsInNumber.not_plain (h : env.EndsInNumber n s) : ¬ Text.Plain (env.globalPath n s) := by
  obtain ⟨before, h⟩ := h
  rw [h, Text.Plain]
  simp

theorem globalPath_of_this {c : Nat} (hthis : n.flag Attr.thisExpression = true)
    (hc : s.class? = some c) : env.globalPath n s = ((env.classes[c]?).map (·.name)).getD "" := by
  simp [globalPath, hthis, hc]

theorem globalPath_of_inside (h : n.flag Attr.thisExpression = true → s.class? = none) :
    env.globalPath n s = env.pathOf s (ownName n) := by
  rw [globalPath, pathOf]
  split
  · next hthis => rw [h hthis]
  · rfl

/-- A node without a name goes by its kind and its number, unless it is `this` in a class. -/
theorem endsInNumber_of_nameless (hn : n.Nameless)
    (h : n.flag Attr.thisExpression = true → s.class? = none) : env.EndsInNumber n s := by
  refine ⟨Text.joinWith "." (env.names s ++ [""]), ?_⟩
  rw [globalPath_of_inside h, hn.ownName_eq, pathOf, Text.joinWith_concat]
  simp only [String.append_assoc]

theorem Plain.pathOf (henv : env.Plain) (s : Scope) {name : String} (hname : Text.Plain name) :
    Text.Plain (env.pathOf s name) := by
  refine Text.notMem_joinWith (by decide) fun t ht => ?_
  rcases List.mem_append.mp ht with ht | ht
  · exact henv.names s t ht
  · exact List.mem_singleton.mp ht ▸ hname

theorem Plain.className (henv : env.Plain) (c : Nat) :
    Text.Plain (((env.classes[c]?).map (·.name)).getD "") := by
  cases hc : env.classes[c]? with
  | none => decide
  | some r => exact henv.classes _ (List.mem_map_of_mem (List.mem_of_getElem? hc))

/-- Where names hold no mark, a path holds one only if it ends in a number. -/
theorem plain_or_endsInNumber (henv : env.Plain) (hn : n.Unmarked) (s : Scope) :
    Text.Plain (env.globalPath n s) ∨ n.Nameless ∧ env.EndsInNumber n s := by
  by_cases hthis : n.flag Attr.thisExpression = true ∧ s.class?.isSome
  · obtain ⟨hthis, hclass⟩ := hthis
    obtain ⟨c, hc⟩ := Option.isSome_iff_exists.mp hclass
    rw [globalPath_of_this hthis hc]
    exact .inl (henv.className c)
  · have hinside : n.flag Attr.thisExpression = true → s.class? = none := fun h => by
      simpa [h] using hthis
    rcases hn.plain_or_nameless with hplain | hnameless
    · rw [globalPath_of_inside hinside]
      exact .inl (henv.pathOf s hplain)
    · exact .inr ⟨hnameless, endsInNumber_of_nameless hnameless hinside⟩

/-- A node goes by its own path, or is an identifier and goes by that of its declaration. -/
theorem site_eq_or (env : Scopes) (n : Node) (s : Scope) :
    env.site n s = ⟨env.globalPath n s, n.id⟩ ∨ env.declaration? n s = some (env.site n s) := by
  rw [site]
  split
  · cases env.declaration? n s with
    | none => exact .inl rfl
    | some site => exact .inr rfl
  · exact .inl rfl

/-- A node that means a declaration stands at its site. -/
theorem site_of_declaration? {site : Site} (h : env.declaration? n s = some site) :
    env.site n s = site := by
  have hhas : n.has Attr.identifier = true := by
    obtain ⟨name, hname, -⟩ := Option.bind_eq_some_iff.mp h
    obtain ⟨v, hv, -⟩ := Option.bind_eq_some_iff.mp hname
    rw [Record.field?, show Attr.identifier.absent? = none from rfl, Option.or_none] at hv
    rw [Record.has, hv, Option.isSome_some]
  rw [Scopes.site, if_pos hhas, h, Option.getD_some]

end Scopes

/-! ### Sites that are recorded -/

/-- The path of a site that a program records holds no mark, or the site is that of a variable
without a name and its path ends in the number. -/
inductive Site.Clear (root : Node) (site : Site) : Prop
  | plain (h : Text.Plain site.path)
  | nameless {d : Node} (hd : d ∈ root.all) (hv : d.declaresVariable = true) (hn : d.Nameless)
      (hid : site.node = d.id) (hpath : ∃ before, site.path = before ++ "@" ++ toString d.id)

namespace Scopes

/-- All sites that are recorded are clear. -/
structure Clear (root : Node) (env : Scopes) : Prop where
  globals : ∀ e ∈ env.globals, e.2.Clear root
  functions : ∀ (f : Nat) (r : FunctionScope), env.functions[f]? = some r →
    ∀ e ∈ r.locals ++ r.arguments, e.2.Clear root

variable {root n a : Node} {env final : Scopes} {scope s : Scope}

/-- An identifier resolves to a site that is recorded. -/
theorem Clear.declaration? (h : env.Clear root) {site : Site}
    (hd : env.declaration? n s = some site) : site.Clear root := by
  obtain ⟨name, -, hd⟩ := Option.bind_eq_some_iff.mp hd
  rcases Option.or_eq_some_iff.mp hd with hd | ⟨-, hd⟩
  · obtain ⟨f, -, hd⟩ := Option.bind_eq_some_iff.mp hd
    obtain ⟨r, hr, hd⟩ := Option.bind_eq_some_iff.mp hd
    refine h.functions f r hr (name, site) (List.mem_append.mpr ?_)
    rcases Option.or_eq_some_iff.mp hd with hd | ⟨-, hd⟩
    · exact .inl (Assoc.mem_of_lookup hd)
    · exact .inr (Assoc.mem_of_lookup hd)
  · exact h.globals _ (Assoc.mem_of_lookup hd)

/-- The site of a node is clear, or the node has no name. -/
theorem Clear.site (h : env.Clear root) (henv : env.Plain) (hn : n.Unmarked) (s : Scope) :
    (env.site n s).Clear root ∨
      n.Nameless ∧ env.site n s = ⟨env.globalPath n s, n.id⟩ ∧ env.EndsInNumber n s := by
  rcases site_eq_or env n s with hown | hd
  · rw [hown]
    exact (plain_or_endsInNumber henv hn s).imp .plain fun ⟨hnameless, hends⟩ =>
      ⟨hnameless, rfl, hends⟩
  · exact .inl (h.declaration? hd)

/-- A change of one function that adds clear sites at most. -/
theorem Clear.modify (h : env.Clear root) {g : FunctionScope → FunctionScope}
    (hg : ∀ r, ∀ e ∈ (g r).locals ++ (g r).arguments,
      e ∈ r.locals ++ r.arguments ∨ e.2.Clear root) (f : Nat) :
    Clear root { env with functions := env.functions.modify f g } := by
  refine ⟨h.globals, fun f' r hr e he => ?_⟩
  rw [List.getElem?_modify] at hr
  obtain ⟨r₀, hr₀, rfl⟩ := Option.map_eq_some_iff.mp hr
  split at he
  · exact (hg r₀ e he).elim (h.functions f' r₀ hr₀ e) id
  · exact h.functions f' r₀ hr₀ e he

/-- Recording an argument keeps the sites clear. -/
theorem Clear.declareArgument (h : env.Clear root) (henv : env.Plain) (ha : a.Unmarked) (f : Nat)
    (inner : Scope) : (declareArgument f inner env a).Clear root := by
  rw [Scopes.declareArgument]
  cases hname : a.str? Attr.argumentName with
  | none => exact h
  | some name =>
    have hsite : (env.site a inner).Clear root := by
      rcases h.site henv ha inner with hsite | ⟨hnameless, -, -⟩
      · exact hsite
      · rw [hnameless Attr.argumentName (by simp [Node.ownNames])] at hname
        cases hname
    refine h.modify (fun r e he => ?_) f
    rw [← List.append_assoc, List.mem_append, List.mem_singleton] at he
    rcases he with he | rfl
    · exact .inl he
    · exact .inr hsite

/-- Recording arguments keeps the sites clear. -/
theorem Clear.foldl_declareArgument (h : env.Clear root) (henv : env.Plain) {as : List Node}
    (has : ∀ a ∈ as, a.Unmarked) (f : Nat) (inner : Scope) :
    (as.foldl (Scopes.declareArgument f inner) env).Clear root := by
  induction as generalizing env with
  | nil => exact h
  | cons a as ih =>
    rw [List.forall_mem_cons] at has
    exact ih (h.declareArgument henv has.1 f inner) (plain_declareArgument henv f inner a) has.2

/-- A function starts without arguments and variables. -/
theorem Clear.withFunction (h : env.Clear root) (name : String) (id : Nat) (class? : Option Nat)
    (f : Nat) : Clear root
      ⟨env.withMethod class? f, env.functions ++ [⟨name, id, class?, [], []⟩], env.globals⟩ := by
  refine ⟨h.globals, fun g r hr e he => ?_⟩
  rcases eq_of_getElem?_concat hr with hr | ⟨rfl, rfl⟩
  · exact h.functions g r hr e he
  · cases he

/-- Recording a function keeps the sites clear. -/
theorem Clear.function (h : env.Clear root) (henv : env.Plain) (hn : n.Unmarked)
    (has : ∀ a ∈ n.nodes Attr.arguments, a.Unmarked) (hc : n.flag Attr.classDeclaration = false)
    (hf : n.flag Attr.functionDecl = true) : (declareNode n scope env).2.Clear root := by
  have hname : Text.Plain n.declaredName := hn.declared (by simp [Node.opensScope, hf])
  rw [declareNode_eq_foldl hc hf]
  exact (h.withFunction n.declaredName n.id scope.class? _).foldl_declareArgument
    (henv.withFunction ⟨n.declaredName, n.id, scope.class?, [], []⟩ hname _ _) has _ _

/-- Recording a variable keeps the sites clear. -/
theorem Clear.variable (h : env.Clear root) (henv : env.Plain) (hn : n.Unmarked)
    (hmem : n ∈ root.all) (ht : n.Transparent) (hv : n.flag Attr.variableDeclaration = true) :
    (declareNode n scope env).2.Clear root := by
  have hsite : (env.site n scope).Clear root := by
    rcases h.site henv hn scope with hsite | ⟨hnameless, hsite, before, hpath⟩
    · exact hsite
    · refine .nameless hmem ?_ hnameless ?_ ⟨before ++ n.kind, ?_⟩
      · simp [Node.declaresVariable, ht.notClass, ht.notFunction, hv]
      · rw [hsite]
      · rw [hsite, hpath]
  rw [declareNode_variable ht.notClass ht.notFunction hv]
  cases hf : scope.function? with
  | none =>
    refine ⟨fun e he => ?_, h.functions⟩
    rcases List.mem_append.mp he with he | he
    · exact h.globals e he
    · rw [List.mem_singleton.mp he]
      exact hsite
  | some f =>
    refine h.modify (fun r e he => ?_) f
    simp only [List.append_assoc, List.mem_append, List.mem_singleton] at he ⊢
    rcases he with he | rfl | he
    · exact .inl (.inl he)
    · exact .inr hsite
    · exact .inl (.inr he)

/-- Any other node records no site. -/
theorem Clear.other (h : env.Clear root) (ht : n.Transparent)
    (hv : n.flag Attr.variableDeclaration = false) : (declareNode n scope env).2.Clear root := by
  simp only [declareNode, ht.notClass, ht.notFunction, hv, Bool.false_eq_true, if_false]
  split
  · exact ⟨h.globals, h.functions⟩
  · exact h

theorem Begins.plain (hb : env.Begins final) (h : final.Plain) : env.Plain :=
  ⟨fun e he => h.classes e (hb.classes.subset he),
    fun e he => h.functions e (hb.functions.subset he)⟩

/-- The declarations of a program without marks hold none. -/
theorem plain_ofNode (apart : root.Apart) (hroot : ∀ n ∈ root.all, n.Unmarked) :
    (ofNode root).Plain := by
  have htally := tally_ofNode apart
  have hdeclared : ∀ p ∈ (ofNode root).walk {} root, p.1.opensScope = true →
      Text.Plain p.1.declaredName := fun p hp => (hroot p.1 (mem_all_of_walk hp)).declared
  refine ⟨fun h hh => ?_, fun h hh => ?_⟩
  · rw [htally.classes] at hh
    obtain ⟨p, hp, rfl⟩ := List.mem_map.mp hh
    obtain ⟨hwalk, hopens⟩ := List.mem_filter.mp hp
    exact hdeclared p hwalk (Bool.or_eq_true_iff.mpr (.inl hopens))
  · rw [htally.functions] at hh
    obtain ⟨p, hp, rfl⟩ := List.mem_map.mp hh
    obtain ⟨hwalk, hopens⟩ := List.mem_filter.mp hp
    rw [Node.opensFunction, Bool.and_eq_true] at hopens
    exact hdeclared p hwalk (Bool.or_eq_true_iff.mpr (.inr hopens.2))

/-- All that a program records is clear, where names hold no mark. -/
theorem clear_ofNode (apart : root.Apart) (hroot : ∀ n ∈ root.all, n.Unmarked) :
    (ofNode root).Clear root := by
  refine (run_ofNode apart).keeps (P := Clear root) ⟨nofun, nofun⟩
    fun {n outer env} hmem _ hb h => ?_
  have hn := hroot n (mem_all_of_walk hmem)
  have henv := ((begins_declareNode n outer env).trans hb).plain (plain_ofNode apart hroot)
  cases hc : n.flag Attr.classDeclaration with
  | true =>
    rw [declareNode_class hc]
    exact ⟨h.globals, h.functions⟩
  | false =>
    cases hf : n.flag Attr.functionDecl with
    | true =>
      refine h.function henv hn (fun a ha => ?_) hc hf
      have hchild := n.nodes_subset_children Attr.arguments rfl ha
      exact hroot a (mem_all_of_walk (mem_walk_of_child hmem hchild))
    | false =>
      cases hv : n.flag Attr.variableDeclaration with
      | true => exact h.variable henv hn (mem_all_of_walk hmem) ⟨hc, hf⟩ hv
      | false => exact h.other ⟨hc, hf⟩ hv

/-- A site whose path is that of a node and ends in its number is the node's, which is a variable
without a name. -/
theorem eq_of_clear (apart : root.Apart) {site : Site} (h : site.Clear root) (hn : n ∈ root.all)
    (hends : env.EndsInNumber n s) (heq : site.path = env.globalPath n s) :
    n.declaresVariable = true ∧ n.Nameless ∧ site = ⟨env.globalPath n s, n.id⟩ := by
  cases h with
  | plain h => exact absurd (heq ▸ h) hends.not_plain
  | nameless hd hv hnameless hid hpath =>
    obtain ⟨before, hpath⟩ := hpath
    obtain ⟨before', hpath'⟩ := hends
    obtain rfl := apart.eq_of_id hd hn
      (Text.number_of_append (hpath.symm.trans (heq.trans hpath')))
    exact ⟨hv, hnameless, by rw [← heq, ← hid]⟩

/-- Two nodes of a program whose paths end in a number go by two paths, whatever the names around
them and their kinds are.  Where names hold no mark, such a path is that of no node whose own path
does not end in a number, but for an identifier that resolves to the very node, which then is a
variable that is declared without a name. -/
theorem private_paths (apart : root.Apart) :
    (∀ n ∈ root.all, ∀ m ∈ root.all, n ≠ m → ∀ s s', (ofNode root).EndsInNumber n s →
      (ofNode root).EndsInNumber m s' →
      (ofNode root).globalPath n s ≠ (ofNode root).globalPath m s') ∧
    ((∀ n ∈ root.all, n.Unmarked) → ∀ n ∈ root.all, ∀ m ∈ root.all, ∀ s s',
      (ofNode root).EndsInNumber n s → ¬ (ofNode root).EndsInNumber m s' →
      (((ofNode root).site m s').path = (ofNode root).globalPath n s ↔
        n.declaresVariable = true ∧ n.Nameless ∧
          (ofNode root).declaration? m s' = some ⟨(ofNode root).globalPath n s, n.id⟩)) := by
  refine ⟨fun n hn m hm hne s s' hends hends' heq => ?_,
    fun hroot n hn m hm s s' hends hends' => ⟨fun heq => ?_, fun ⟨_, _, hd⟩ => ?_⟩⟩
  · exact hne (apart.eq_of_id hn hm (hends.id_eq hends' heq))
  · rcases site_eq_or (ofNode root) m s' with hown | hd
    · rw [hown] at heq
      rcases plain_or_endsInNumber (plain_ofNode apart hroot) (hroot m hm) s' with hplain | hm'
      · exact absurd (heq ▸ hplain) hends.not_plain
      · exact absurd hm'.2 hends'
    · obtain ⟨hv, hnameless, hsite⟩ :=
        eq_of_clear apart ((clear_ofNode apart hroot).declaration? hd) hn hends heq
      exact ⟨hv, hnameless, hd.trans (congrArg some hsite)⟩
  · rw [site_of_declaration? hd]

/-- A variable that is declared without a name. -/
def namelessVariable : Node := NodeForm.single Attr.variableDeclaration.key (.bool true) 0

/-- A program of that variable and two identifiers, the first of which has an empty name. -/
def namelessProgram : Node :=
  (NodeForm.program [namelessVariable, (NodeForm.identifier "").node 1,
    (NodeForm.identifier "x").node 2]).node 3

theorem apart_namelessProgram : namelessProgram.Apart := by
  rw [Node.Apart]
  decide +kernel

theorem unmarked_namelessProgram : ∀ n ∈ namelessProgram.all, n.Unmarked := by
  have hnames : ∀ n ∈ namelessProgram.all,
      (∀ f ∈ Node.ownNames, ∀ name ∈ n.str? f, Text.Plain name) ∧
        (n.opensScope = true → Text.Plain n.declaredName) := by decide +kernel
  exact fun n hn => ⟨(hnames n hn).1, (hnames n hn).2⟩

theorem endsInNumber_namelessVariable :
    (ofNode namelessProgram).EndsInNumber namelessVariable {} := ⟨"", by decide +kernel⟩

/-- The identifiers go by their names. -/
theorem not_endsInNumber_identifier {m : Node} (hm : m ∈ namelessProgram.all)
    (hid : m.has Attr.identifier = true) : ¬ (ofNode namelessProgram).EndsInNumber m {} := by
  have hplain : ∀ m ∈ namelessProgram.all, m.has Attr.identifier = true →
      Text.Plain ((ofNode namelessProgram).globalPath m {}) := by decide +kernel
  exact fun h => h.not_plain (hplain m hm hid)

/-- The variable and the program go by two paths, and the identifier with a name by a third one; the
one without resolves to the variable. -/
theorem private_paths_namelessProgram : namelessProgram.Apart ∧
    (∀ n ∈ namelessProgram.all, n.Unmarked) ∧
    (ofNode namelessProgram).globalPath namelessVariable {} ≠
      (ofNode namelessProgram).globalPath namelessProgram {} ∧
    ((ofNode namelessProgram).site ((NodeForm.identifier "x").node 2) {}).path ≠
      (ofNode namelessProgram).globalPath namelessVariable {} ∧
    (ofNode namelessProgram).declaration? ((NodeForm.identifier "").node 1) {} =
      some ⟨(ofNode namelessProgram).globalPath namelessVariable {}, 0⟩ := by
  have hvariable : namelessVariable ∈ namelessProgram.all := List.mem_of_getElem? (i := 1) rfl
  have hempty : (NodeForm.identifier "").node 1 ∈ namelessProgram.all :=
    List.mem_of_getElem? (i := 2) rfl
  have hnamed : (NodeForm.identifier "x").node 2 ∈ namelessProgram.all :=
    List.mem_of_getElem? (i := 3) rfl
  have hroot : (ofNode namelessProgram).EndsInNumber namelessProgram {} := ⟨"", by decide +kernel⟩
  have hne : namelessVariable ≠ namelessProgram := fun h => absurd (congrArg Node.id h) (by decide)
  have hundeclared : (ofNode namelessProgram).declaration? ((NodeForm.identifier "x").node 2) {} =
      none := by decide +kernel
  obtain ⟨hpairs, hothers⟩ := private_paths apart_namelessProgram
  have hothers := hothers unmarked_namelessProgram namelessVariable hvariable
  refine ⟨apart_namelessProgram, unmarked_namelessProgram, ?_, fun heq => ?_, ?_⟩
  · exact hpairs _ hvariable _ namelessProgram.mem_all_self hne {} {}
      endsInNumber_namelessVariable hroot
  · obtain ⟨-, -, hd⟩ := (hothers _ hnamed {} {} endsInNumber_namelessVariable
      (not_endsInNumber_identifier hnamed rfl)).mp heq
    rw [hundeclared] at hd
    cases hd
  · exact ((hothers _ hempty {} {} endsInNumber_namelessVariable
      (not_endsInNumber_identifier hempty rfl)).mp (by decide +kernel)).2.2

/-- An identifier with an empty name goes by the path of a variable without a name. -/
theorem not_private_of_nameless :
    ¬ ∀ root : Node, root.Apart → (∀ n ∈ root.all, n.Unmarked) → ∀ n ∈ root.all, ∀ m ∈ root.all,
      ∀ s s', (ofNode root).EndsInNumber n s → ¬ (ofNode root).EndsInNumber m s' →
        ((ofNode root).site m s').path ≠ (ofNode root).globalPath n s := by
  intro hall
  have hpath : ((ofNode namelessProgram).site ((NodeForm.identifier "").node 1) {}).path =
      (ofNode namelessProgram).globalPath namelessVariable {} := by decide +kernel
  have hempty : (NodeForm.identifier "").node 1 ∈ namelessProgram.all :=
    List.mem_of_getElem? (i := 2) rfl
  exact hall namelessProgram apart_namelessProgram unmarked_namelessProgram _
    (List.mem_of_getElem? (i := 1) rfl) _ hempty {} {} endsInNumber_namelessVariable
    (not_endsInNumber_identifier hempty rfl) hpath

end Scopes

end TypeSketch
