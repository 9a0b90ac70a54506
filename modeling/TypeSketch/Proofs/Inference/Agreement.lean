import Mathlib.Data.List.Flatten
import TypeSketch.Proofs.Inference.Declaring
import TypeSketch.Proofs.Inference.Sites
import TypeSketch.Proofs.Table

/-!
# Inference — records and the walk in scope

The declarations of a program are recorded by one recursion, which opens a scope as it adds a
record; the nodes are walked by another, which looks a scope up by the number of its node.  Where
nodes have numbers of their own the two agree (`agrees`): a node is walked in the scope that was
open inside it while declarations were recorded, and the records are those of the nodes walked, in
order (`Tally`), each local, argument and global at the site that the walk finds for it.

A site taken while declarations are still being recorded is that of all records, since a path is
made of the names around a node and these are recorded before it (`Begins.site_eq`).
-/

namespace TypeSketch

namespace Node

/-- The name of a declared class or function. -/
def declaredName (n : Node) : String := (n.str? Attr.name).getD ""

/-- The node declares a class. -/
def opensClass (n : Node) : Bool := n.flag Attr.classDeclaration

/-- The node declares a function, and is not marked as a class too. -/
def opensFunction (n : Node) : Bool := !n.flag Attr.classDeclaration && n.flag Attr.functionDecl

/-- The node declares a variable, and is marked neither as a class nor as a function. -/
def declaresVariable (n : Node) : Bool :=
  !n.flag Attr.classDeclaration && !n.flag Attr.functionDecl && n.flag Attr.variableDeclaration

/-- The arguments of a function that have a name. -/
def namedArguments (n : Node) : List Node :=
  (n.nodes Attr.arguments).filter fun a => (a.str? Attr.argumentName).isSome

end Node

namespace Scopes

variable {n : Node} {scope : Scope} {env final : Scopes} {visited seen : List (Node × Scope)}

/-! ### The scopes of recording -/

mutual

/-- Record what a tree declares, and note the scope that is open inside each node. -/
def traceTree (scope : Scope) : Tree → Scopes → List (Node × Scope) × Scopes
  | .mk n ts, env =>
    let (inner, env) := declareNode n scope env
    let (noted, env) := traceTrees inner ts env
    ((n, inner) :: noted, env)

/-- Record what trees declare, one tree after the other, and note the scopes. -/
def traceTrees (scope : Scope) : List Tree → Scopes → List (Node × Scope) × Scopes
  | [], env => ([], env)
  | t :: ts, env =>
    let (noted, env) := traceTree scope t env
    let (more, env) := traceTrees scope ts env
    (noted ++ more, env)

end

/-- The second walk hands out the scopes that were open while declarations were recorded. -/
theorem traceTree_eq (hn : n.Apart) (hfresh : ∀ m ∈ n.all, m.id ∉ env.ids)
    (hs : scope.Inside env) (hb : (declareTree scope n.tree env).Begins final) :
    traceTree scope n.tree env = (final.walk scope n, declareTree scope n.tree env) := by
  refine recording_induction
    (P := fun s n e => traceTree s n.tree e = (final.walk s n, declareTree s n.tree e))
    (Q := fun s cs e => traceTrees s (cs.map Node.tree) e =
      (cs.flatMap (final.walk s), declareAll s cs e))
    rfl (fun hc hcs => ?_) (fun hs hid hb hcs => ?_) hn hfresh hs hb
  · simp only [List.map_cons, traceTrees, hc, hcs]
    rfl
  · rw [declareTree_eq, walk_eq, enter_declareNode hb hid, Node.tree_eq]
    simp only [traceTree, hcs]

/-- A walk that passes by some nodes visits a part of the walk, in order and in the same scopes. -/
theorem visits_sublist_walk (env : Scopes) (skip : Node → Bool) (scope : Scope) (n : Node) :
    (env.visits skip scope n.tree).Sublist (env.walk scope n) := by
  induction n using Node.induction_on_children generalizing scope with
  | step n ih =>
    rw [visits_tree, walk_eq]
    refine .cons_cons _ ?_
    split
    · exact List.nil_sublist _
    · exact .flatMap_right _ fun c hc => ih c hc _

/-! ### Sites of records -/

/-- A node that is no identifier goes by the names around it, which are recorded before it. -/
theorem Begins.site_eq (h : env.Begins final) (hs : scope.Inside env)
    (hn : n.has Attr.identifier = false) : final.site n scope = env.site n scope := by
  have hpath : final.globalPath n scope = env.globalPath n scope := by
    rw [globalPath, globalPath, h.names_eq hs]
    cases hc : scope.class? with
    | none => rfl
    | some c =>
      have hr := List.getElem?_eq_getElem (hs.class_lt c hc)
      obtain ⟨r', hr', hname, -⟩ := h.class hr
      simp only [hr, hr', Option.map_some, hname]
  simp [site, hn, hpath]

/-- An entry records a node: its name, and, if it is no identifier and opens no scope, the site that
the walk finds for it. -/
def Meets (final : Scopes) (visited : List (Node × Scope)) (f : Field) (n : Node)
    (e : String × Site) : Prop :=
  e.1 = (n.str? f).getD "" ∧ ∃ s, (n, s) ∈ visited ∧
    (n.has Attr.identifier = false → n.Transparent → e.2 = final.site n s)

/-- The variables declared in a function, or outside all of them. -/
def variablesIn (function? : Option Nat) (seen : List (Node × Scope)) : List Node :=
  (seen.filter fun p => p.1.declaresVariable && p.2.function? == function?).map Prod.fst

/-- The records `env` are those of the nodes `seen`, which are the first that the walk of a whole
program visits; `final` are the records of the program. -/
structure Tally (final : Scopes) (visited seen : List (Node × Scope)) (env : Scopes) : Prop where
  /-- The scopes of the walk are recorded. -/
  inside : ∀ p ∈ seen, p.2.Inside env
  /-- There is one class for each node that declares one. -/
  classes : env.classHeads =
    (seen.filter (·.1.opensClass)).map fun p => (p.1.declaredName, p.1.id)
  /-- There is one function for each node that declares one, in the class around it. -/
  functions : env.functionHeads =
    (seen.filter (·.1.opensFunction)).map fun p => (p.1.declaredName, p.1.id, p.2.class?)
  /-- A class has the functions that are declared in it. -/
  methods : ∀ c r, env.classes[c]? = some r →
    r.functions = env.functions.findIdxs (·.class? == some c)
  /-- A function has the arguments of its node that have a name. -/
  arguments : List.Forall₂
    (fun p => List.Forall₂ (Meets final visited Attr.argumentName) p.1.namedArguments)
    (seen.filter (·.1.opensFunction)) (env.functions.map (·.arguments))
  /-- A function has the variables that are declared in it. -/
  locals : ∀ f r, env.functions[f]? = some r →
    List.Forall₂ (Meets final visited Attr.variableDeclarationId) (variablesIn (some f) seen)
      r.locals
  globals : List.Forall₂ (Meets final visited Attr.variableDeclarationId) (variablesIn none seen)
    env.globals

namespace Tally

variable {p : Node × Scope}

/-- One more node that is seen adds itself to the variables, if it declares one there. -/
theorem variablesIn_concat (function? : Option Nat) (seen : List (Node × Scope))
    (p : Node × Scope) : variablesIn function? (seen ++ [p]) =
      variablesIn function? seen ++
        if p.1.declaresVariable && p.2.function? == function? then [p.1] else [] := by
  rw [variablesIn, variablesIn, List.filter_append, List.map_append, List.filter_singleton]
  cases p.1.declaresVariable && p.2.function? == function? <;> rfl

/-- A node that declares no variable leaves the variables as they were. -/
theorem variablesIn_concat_of_not (hn : n.declaresVariable = false) (function? : Option Nat)
    (seen : List (Node × Scope)) (scope : Scope) :
    variablesIn function? (seen ++ [(n, scope)]) = variablesIn function? seen := by
  simp [variablesIn_concat, hn]

/-- Nothing was seen in a function that is not recorded yet. -/
theorem variablesIn_fresh (h : Tally final visited seen env) :
    variablesIn (some env.functions.length) seen = [] := by
  rw [variablesIn, List.map_eq_nil_iff, List.filter_eq_nil_iff]
  intro p hp
  have hlt : ∀ f, p.2.function? = some f → f < env.functions.length := by
    intro f hf
    obtain ⟨r, hr, -⟩ := (h.inside p hp).function_of f hf
    exact (List.getElem?_eq_some_iff.mp hr).1
  simp only [Bool.and_eq_true, beq_iff_eq, not_and]
  exact fun _ hf => absurd (hlt _ hf) (Nat.lt_irrefl _)

/-- The scope of a class or a function stays recorded, and that of the next node is. -/
theorem inside_concat (h : Tally final visited seen env) {env' : Scopes} (hb : env.Begins env')
    (hp : p.2.Inside env') : ∀ q ∈ seen ++ [p], q.2.Inside env' := by
  intro q hq
  rcases List.mem_append.mp hq with hq | hq
  · exact hb.inside (h.inside q hq)
  · exact List.mem_singleton.mp hq ▸ hp

/-- A class has one more function if the function is recorded in it. -/
theorem functions_of_withMethod {class? : Option Nat} {f c : Nat} {r : ClassScope}
    (h : (env.withMethod class? f)[c]? = some r) : ∃ r₀, env.classes[c]? = some r₀ ∧
      r.functions = r₀.functions ++ if class? == some c then [f] else [] := by
  cases class? with
  | none => exact ⟨r, h, by simp⟩
  | some c' =>
    rw [withMethod, List.getElem?_modify] at h
    obtain ⟨r₀, hr₀, rfl⟩ := Option.map_eq_some_iff.mp h
    refine ⟨r₀, hr₀, ?_⟩
    by_cases hc : c' = c <;> simp [hc]

/-- Which functions a class has is told by the classes of the functions. -/
theorem findIdxs_class_of_heads {env' : Scopes} (h : env'.functionHeads = env.functionHeads)
    (c : Nat) : env'.functions.findIdxs (·.class? == some c) =
      env.functions.findIdxs (·.class? == some c) := by
  have hread : ∀ e : Scopes, e.functionHeads.findIdxs (fun h => h.2.2 == some c) =
      e.functions.findIdxs (·.class? == some c) := fun e => List.findIdxs_map
  rw [← hread, ← hread, h]

/-- The class of a function is recorded. -/
theorem class_lt (h : Tally final visited seen env) {r : FunctionScope} (hr : r ∈ env.functions)
    {c : Nat} (hc : r.class? = some c) : c < env.classes.length := by
  have hmem : (r.name, r.node, r.class?) ∈ env.functionHeads := List.mem_map_of_mem hr
  rw [h.functions] at hmem
  obtain ⟨p, hp, heq⟩ := List.mem_map.mp hmem
  simp only [Prod.mk.injEq] at heq
  exact (h.inside p (List.mem_filter.mp hp).1).class_lt c (heq.2.2.trans hc)

end Tally

section Steps

variable (h : Tally final visited seen env) (hs : scope.Inside env)
include h hs

/-- A class adds a record of its own. -/
theorem Tally.class (hc : n.flag Attr.classDeclaration = true) :
    Tally final visited (seen ++ [(n, (declareNode n scope env).1)])
      (declareNode n scope env).2 := by
  have hinside := h.inside_concat (begins_declareNode n scope env)
    (p := (n, (declareNode n scope env).1)) (inside_declareNode hs)
  have hopens : n.opensClass = true := hc
  have hfunction : n.opensFunction = false := by simp [Node.opensFunction, hc]
  have hvariable : n.declaresVariable = false := by simp [Node.declaresVariable, hc]
  rw [declareNode_class hc] at hinside ⊢
  refine ⟨hinside, ?classes, ?functions, ?methods, ?arguments, ?locals, ?globals⟩
  case classes =>
    rw [List.filter_append, List.map_append, ← h.classes]
    simp [classHeads, hopens, Node.declaredName]
  case functions =>
    rw [List.filter_append, List.map_append, ← h.functions]
    simp [functionHeads, hfunction]
  case methods =>
    intro c r hr
    rcases eq_of_getElem?_concat hr with hr | ⟨rfl, rfl⟩
    · exact h.methods c r hr
    · symm
      rw [List.findIdxs_eq_nil_iff]
      exact fun r hr => beq_false_of_ne fun hclass => Nat.lt_irrefl _ (h.class_lt hr hclass)
  case arguments => simpa [List.filter_append, hfunction] using h.arguments
  case locals =>
    intro f r hr
    rw [variablesIn_concat_of_not hvariable]
    exact h.locals f r hr
  case globals =>
    rw [variablesIn_concat_of_not hvariable]
    exact h.globals

/-- A function adds a record of its own, with the arguments that have a name. -/
theorem Tally.function (hc : n.flag Attr.classDeclaration = false)
    (hf : n.flag Attr.functionDecl = true) (hb : (declareNode n scope env).2.Begins final)
    (hargs : ∀ a ∈ n.namedArguments,
      (a, final.enter a (declareNode n scope env).1) ∈ visited) :
    Tally final visited (seen ++ [(n, (declareNode n scope env).1)])
      (declareNode n scope env).2 := by
  have hinner := inside_declareNode (n := n) hs
  have hinside := h.inside_concat (begins_declareNode n scope env)
    (p := (n, (declareNode n scope env).1)) hinner
  have hclass : n.opensClass = false := hc
  have hopens : n.opensFunction = true := by simp [Node.opensFunction, hc, hf]
  have hvariable : n.declaresVariable = false := by simp [Node.declaresVariable, hc, hf]
  obtain ⟨new, heq, hnew⟩ := declareNode_function hc hf scope env
  -- arguments get their sites while the step is under way, when its heads are there already
  have hmeets : List.Forall₂ (Meets final visited Attr.argumentName) n.namedArguments new := by
    refine ((List.forall₂_and_left _ _).mpr ⟨hargs, hnew⟩).imp
      fun a e ⟨hvisit, hname, env₁, hc₁, hf₁, hsite⟩ => ?_
    refine ⟨by rw [hname]; rfl, _, hvisit, fun hid ht => ?_⟩
    rw [hsite, ht.enter_eq, hb.site_eq hinner hid, (Begins.of_eq hc₁ hf₁).site_eq hinner hid]
  rw [heq] at hinside ⊢
  refine ⟨hinside, ?classes, ?functions, ?methods, ?arguments, ?locals, ?globals⟩
  case classes =>
    rw [List.filter_append, List.map_append, ← h.classes]
    simp only [hclass, List.filter_singleton, cond_false, List.map_nil, List.append_nil]
    exact heads_withMethod ..
  case functions =>
    rw [List.filter_append, List.map_append, ← h.functions]
    simp [functionHeads, hopens, Node.declaredName]
  case methods =>
    intro c r hr
    obtain ⟨r₀, hr₀, hfunctions⟩ := functions_of_withMethod hr
    rw [hfunctions, h.methods c r₀ hr₀, List.findIdxs_append, List.findIdxs_singleton]
    simp
  case arguments =>
    rw [List.filter_append, List.map_append]
    refine List.rel_append h.arguments ?_
    simpa [hopens] using hmeets
  case locals =>
    intro f r hr
    rw [variablesIn_concat_of_not hvariable]
    rcases eq_of_getElem?_concat hr with hr | ⟨rfl, rfl⟩
    · exact h.locals f r hr
    · rw [h.variablesIn_fresh]
      exact .nil
  case globals =>
    rw [variablesIn_concat_of_not hvariable]
    exact h.globals

/-- A node that opens no scope changes at most the locals, the globals and the properties. -/
theorem Tally.transparent (ht : n.Transparent)
    (hmethods : (declareNode n scope env).2.classes.map (·.functions) =
      env.classes.map (·.functions))
    (harguments : (declareNode n scope env).2.functions.map (·.arguments) =
      env.functions.map (·.arguments))
    (hlocals : ∀ f r, (declareNode n scope env).2.functions[f]? = some r →
      List.Forall₂ (Meets final visited Attr.variableDeclarationId)
        (variablesIn (some f) (seen ++ [(n, scope)])) r.locals)
    (hglobals : List.Forall₂ (Meets final visited Attr.variableDeclarationId)
      (variablesIn none (seen ++ [(n, scope)])) (declareNode n scope env).2.globals) :
    Tally final visited (seen ++ [(n, scope)]) (declareNode n scope env).2 := by
  have hclass : n.opensClass = false := ht.notClass
  have hfunction : n.opensFunction = false := by simp [Node.opensFunction, ht.notFunction]
  obtain ⟨-, hclasses, hfunctions⟩ :=
    declareNode_transparent ht.notClass ht.notFunction scope env
  have hbegins := begins_declareNode n scope env
  refine ⟨h.inside_concat hbegins (hbegins.inside hs), ?classes, ?functions, ?methods, ?arguments,
    hlocals, hglobals⟩
  case classes => simpa [List.filter_append, hclass, hclasses] using h.classes
  case functions => simpa [List.filter_append, hfunction, hfunctions] using h.functions
  case methods =>
    intro c r hr
    have hprefix : (declareNode n scope env).2.classes.map (·.functions) <+:
        env.classes.map (·.functions) := hmethods ▸ List.prefix_rfl
    obtain ⟨r₀, hr₀, heq⟩ := getElem?_of_prefix_map hprefix hr
    rw [← heq, h.methods c r₀ hr₀, findIdxs_class_of_heads hfunctions]
  case arguments => simpa [List.filter_append, hfunction, harguments] using h.arguments

/-- A variable adds an entry to the locals of the function around it, or to the globals. -/
theorem Tally.variable (ht : n.Transparent) (hv : n.flag Attr.variableDeclaration = true)
    (hmem : (n, (declareNode n scope env).1) ∈ visited)
    (hb : (declareNode n scope env).2.Begins final) :
    Tally final visited (seen ++ [(n, (declareNode n scope env).1)])
      (declareNode n scope env).2 := by
  have hdeclares : n.declaresVariable = true := by
    simp [Node.declaresVariable, ht.notClass, ht.notFunction, hv]
  have hbegins := (begins_declareNode n scope env).trans hb
  have hstep := declareNode_variable ht.notClass ht.notFunction hv scope env
  rw [(declareNode_transparent ht.notClass ht.notFunction scope env).1] at hmem ⊢
  have hmeets : Meets final visited Attr.variableDeclarationId n
      ((n.str? Attr.variableDeclarationId).getD "", env.site n scope) :=
    ⟨rfl, scope, hmem, fun hid _ => (hbegins.site_eq hs hid).symm⟩
  -- A variable in a function is among its locals, any other one among the globals.
  cases hf : scope.function? with
  | none =>
    simp only [hf] at hstep
    refine h.transparent hs ht (by rw [hstep]) (by rw [hstep]) (fun f r hr => ?_) ?_
    · rw [hstep] at hr
      simpa [variablesIn_concat, hf] using h.locals f r hr
    · rw [hstep]
      simpa [variablesIn_concat, hdeclares, hf] using
        List.rel_append h.globals (.cons hmeets .nil)
  | some f =>
    simp only [hf] at hstep
    refine h.transparent hs ht (by rw [hstep])
      (by rw [hstep]; exact map_modify_of_eq (by intro; rfl) _ _) (fun g r hr => ?_) ?_
    · rw [hstep, List.getElem?_modify] at hr
      obtain ⟨r₀, hr₀, rfl⟩ := Option.map_eq_some_iff.mp hr
      by_cases hfg : f = g
      · simpa [variablesIn_concat, hdeclares, hf, hfg] using
          List.rel_append (h.locals g r₀ hr₀) (.cons hmeets .nil)
      · simpa [variablesIn_concat, hf, hfg] using h.locals g r₀ hr₀
    · rw [hstep]
      simpa [variablesIn_concat, hf] using h.globals

/-- Any other node adds at most a property. -/
theorem Tally.other (ht : n.Transparent) (hv : n.flag Attr.variableDeclaration = false) :
    Tally final visited (seen ++ [(n, (declareNode n scope env).1)])
      (declareNode n scope env).2 := by
  have hdeclares : n.declaresVariable = false := by simp [Node.declaresVariable, hv]
  rw [(declareNode_transparent ht.notClass ht.notFunction scope env).1]
  obtain ⟨classes, hstep, hmethods⟩ : ∃ classes,
      (declareNode n scope env).2 = { env with classes } ∧
        classes.map (·.functions) = env.classes.map (·.functions) := by
    simp only [declareNode, ht.notClass, ht.notFunction, hv, Bool.false_eq_true, if_false]
    split
    · refine ⟨_, rfl, map_modify_of_eq (fun r => ?_) _ _⟩
      split <;> rfl
    · exact ⟨_, rfl, rfl⟩
  refine h.transparent hs ht (by rw [hstep]; exact hmethods) (by rw [hstep]) (fun f r hr => ?_) ?_
  · rw [hstep] at hr
    rw [variablesIn_concat_of_not hdeclares]
    exact h.locals f r hr
  · rw [hstep, variablesIn_concat_of_not hdeclares]
    exact h.globals

end Steps

/-! ### Whole programs -/

/-- The records of a program are those of the nodes that the walk visits. -/
theorem tally_ofNode {root : Node} (apart : root.Apart) :
    Tally (ofNode root) ((ofNode root).walk {} root) ((ofNode root).walk {} root)
      (ofNode root) := by
  refine (run_ofNode apart).keeps_seen [] (P := Tally _ _)
    ⟨nofun, rfl, rfl, nofun, .nil, nofun, .nil⟩ fun {seen n outer env} hmem hs hb h => ?_
  cases hc : n.flag Attr.classDeclaration with
  | true => exact h.class hs hc
  | false =>
    cases hf : n.flag Attr.functionDecl with
    | true =>
      refine h.function hs hc hf hb fun a ha => mem_walk_of_child hmem ?_
      exact n.nodes_subset_children Attr.arguments rfl (List.mem_filter.mp ha).1
    | false =>
      cases hv : n.flag Attr.variableDeclaration with
      | true => exact h.variable hs ⟨hc, hf⟩ hv hmem hb
      | false => exact h.other hs ⟨hc, hf⟩ hv

/-- Recording and walking agree: the walk hands out the scopes that were open while declarations
were recorded, whatever it skips, and the records are those of the nodes that it visits. -/
theorem agrees {root : Node} (apart : root.Apart) :
    traceTree {} root.tree {} = ((ofNode root).walk {} root, ofNode root) ∧
      (∀ skip, ((ofNode root).visits skip {} root.tree).Sublist ((ofNode root).walk {} root)) ∧
      Tally (ofNode root) ((ofNode root).walk {} root) ((ofNode root).walk {} root)
        (ofNode root) :=
  ⟨traceTree_eq apart (fun _ _ => nofun) (Scope.inside_file _) (.refl _),
    fun skip => visits_sublist_walk _ skip _ root, tally_ofNode apart⟩

/-- The program `class Book { price(x) { let total = x } }; let shelf; function sort(y) {}`. -/
def bookshop : Node :=
  let total := (NodeForm.declaration "total" (some ((NodeForm.identifier "x").node 0))).node 1
  let x := (NodeForm.argument "x" none).node 2
  let price := (NodeForm.functionDeclaration "price" [x] ((NodeForm.block [total]).node 3)
    false).node 4
  let y := (NodeForm.argument "y" none).node 5
  let sort := (NodeForm.functionDeclaration "sort" [y] ((NodeForm.block []).node 6) false).node 7
  (NodeForm.program [(NodeForm.classDeclaration "Book" [] [price]).node 8,
    (NodeForm.declaration "shelf" none).node 9, sort]).node 10

/-- The walk of a program with a class, functions inside and outside it, and variables. -/
theorem agrees_bookshop : bookshop.Apart ∧
    (ofNode bookshop).classes.map (·.functions) = [[0]] ∧
    ((ofNode bookshop).functions.map fun r =>
      (r.arguments ++ r.locals).map fun e => (e.2.path, e.2.node)) =
      [[("Book.price.x", 2), ("Book.price.total", 1)], [("sort.y", 5)]] ∧
    traceTree {} bookshop.tree {} = ((ofNode bookshop).walk {} bookshop, ofNode bookshop) ∧
    (∀ skip, ((ofNode bookshop).visits skip {} bookshop.tree).Sublist
      ((ofNode bookshop).walk {} bookshop)) ∧
    Tally (ofNode bookshop) ((ofNode bookshop).walk {} bookshop)
      ((ofNode bookshop).walk {} bookshop) (ofNode bookshop) := by
  have hids : bookshop.all.map (·.id) = [10, 8, 4, 2, 3, 1, 0, 9, 7, 5, 6] := rfl
  have apart : bookshop.Apart := by
    rw [Node.Apart, hids]
    decide
  exact ⟨apart, by decide +kernel, by decide +kernel, agrees apart⟩

end Scopes

end TypeSketch
