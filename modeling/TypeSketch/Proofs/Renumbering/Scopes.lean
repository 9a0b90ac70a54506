import TypeSketch.Proofs.Inference.Declaring
import TypeSketch.Proofs.Renumbering.Program
import TypeSketch.Proofs.Renumbering.Text

/-!
# Renumbering — scopes

The declarations of a renumbered program are those of the program, renumbered (`ofNode_renumber`),
and a walk in scope hands out the same scopes (`walk_renumber`).  Names without a mark are what this
takes: then a path holds a number only where the node that it belongs to has no name
(`site_renumber`).

The names around a scope come from records that hold no number (`names_renumber`), and the number of
a node comes in at the end of its path only (`joinWith_ownName_renumber`). For the recording there
is one statement a step (`declareNode_renumber`), which is led through the tree together with the
fact that recorded names stay without marks (`declareTree_renumber`).
-/

namespace TypeSketch

/-- The fields that names of declarations and identifiers are in. -/
def Attr.names : List Field := [name, identifier, variableDeclarationId, argumentName]

/-- Neither the kind of the node nor a name that it has holds a mark. -/
structure Node.Plain (n : Node) : Prop where
  kind : Text.Plain n.kind
  names : ∀ f ∈ Attr.names, ∀ name ∈ n.str? f, Text.Plain name

/-- A class or a function is declared under a name without a mark. -/
theorem Node.Plain.declared {n : Node} (hn : n.Plain) :
    Text.Plain ((n.str? Attr.name).getD "") := by
  cases hs : n.str? Attr.name with
  | none => decide
  | some name => exact hn.names _ (by simp [Attr.names]) _ hs

/-- No class and no function is recorded under a name that holds a mark. -/
structure Scopes.Plain (env : Scopes) : Prop where
  classes : ∀ h ∈ env.classHeads, Text.Plain h.1
  functions : ∀ h ∈ env.functionHeads, Text.Plain h.1

/-! ### Renumbering records -/

/-- The site with its number, and the one in its path, replaced. -/
noncomputable def Site.renumber (σ : Nat → Nat) (s : Site) : Site :=
  ⟨Text.renumber σ s.path, σ s.node⟩

/-- The function with the sites recorded for it renumbered. -/
noncomputable def FunctionScope.renumber (σ : Nat → Nat) (r : FunctionScope) : FunctionScope where
  name := r.name
  node := σ r.node
  class? := r.class?
  arguments := r.arguments.map fun e => (e.1, e.2.renumber σ)
  locals := r.locals.map fun e => (e.1, e.2.renumber σ)

def ClassScope.renumber (σ : Nat → Nat) (r : ClassScope) : ClassScope := { r with node := σ r.node }

/-- The records with every number replaced. -/
noncomputable def Scopes.renumber (σ : Nat → Nat) (env : Scopes) : Scopes where
  classes := env.classes.map (ClassScope.renumber σ)
  functions := env.functions.map (FunctionScope.renumber σ)
  globals := env.globals.map fun e => (e.1, e.2.renumber σ)

variable {σ : Nat → Nat} {env : Scopes} {n : Node}

namespace Scopes

/-! ### Paths -/

@[simp] theorem names_renumber (scope : Scope) :
    (env.renumber σ).names scope = env.names scope := by
  obtain ⟨class?, function?⟩ := scope
  simp only [names, renumber, List.getElem?_map, Option.map_bind, Function.comp_def,
    Option.map_map]
  rfl

/-- The names around a scope hold no mark. -/
theorem Plain.names (h : env.Plain) (scope : Scope) : ∀ s ∈ env.names scope, Text.Plain s := by
  intro s hs
  rcases List.mem_append.mp hs with hs | hs
  · obtain ⟨r, hr, rfl⟩ := Option.map_eq_some_iff.mp (Option.mem_toList.mp hs)
    obtain ⟨c, -, hc⟩ := Option.bind_eq_some_iff.mp hr
    exact h.classes _ (List.mem_map_of_mem (List.mem_of_getElem? hc))
  · obtain ⟨r, hr, rfl⟩ := Option.map_eq_some_iff.mp (Option.mem_toList.mp hs)
    obtain ⟨f, -, hf⟩ := Option.bind_eq_some_iff.mp hr
    exact h.functions _ (List.mem_map_of_mem (List.mem_of_getElem? hf))

/-- The last name of a node's path stays if the node has a name; else it holds the number. -/
theorem ownName_renumber (σ : Nat → Nat) (hn : n.Plain) :
    (Text.Plain (ownName n) ∧ ownName (n.renumber σ) = ownName n) ∨
      ownName n = n.kind ++ "@" ++ toString n.id ∧
        ownName (n.renumber σ) = n.kind ++ "@" ++ toString (σ n.id) := by
  simp only [ownName, Node.toRecord_renumber, Record.str?_renumber, Node.kind_renumber,
    Node.id_renumber]
  cases hi : n.str? Attr.identifier with
  | some name => exact .inl ⟨hn.names _ (by simp [Attr.names]) _ hi, rfl⟩
  | none =>
    cases hv : n.str? Attr.variableDeclarationId with
    | some name => exact .inl ⟨hn.names _ (by simp [Attr.names]) _ hv, rfl⟩
    | none =>
      cases ha : n.str? Attr.argumentName with
      | some name => exact .inl ⟨hn.names _ (by simp [Attr.names]) _ ha, rfl⟩
      | none => exact .inr ⟨rfl, rfl⟩

/-- The names around a node and its own name are joined to the renumbered path. -/
theorem joinWith_ownName_renumber (σ : Nat → Nat) {names : List String}
    (hnames : ∀ s ∈ names, Text.Plain s) (hn : n.Plain) :
    Text.joinWith "." (names ++ [ownName (n.renumber σ)]) =
      Text.renumber σ (Text.joinWith "." (names ++ [ownName n])) := by
  have hbefore : Text.Plain (Text.joinWith "." (names ++ [""])) := by
    refine Text.notMem_joinWith (by decide) fun s hs => ?_
    rcases List.mem_append.mp hs with hs | hs
    · exact hnames s hs
    · rw [List.mem_singleton.mp hs]
      decide
  have hjoin := Text.joinWith_concat "." names
  rw [hjoin (ownName (n.renumber σ)), hjoin (ownName n)]
  rcases ownName_renumber σ hn with ⟨hplain, heq⟩ | ⟨hown, heq⟩
  · rw [heq, Text.renumber_of_plain σ (hbefore.append hplain)]
  · simp only [heq, hown, ← String.append_assoc,
      Text.renumber_append_number σ (hbefore.append hn.kind)]

/-- The path of a renumbered node is the renumbered path. -/
theorem globalPath_renumber (henv : env.Plain) (hn : n.Plain) (scope : Scope) :
    (env.renumber σ).globalPath (n.renumber σ) scope =
      Text.renumber σ (env.globalPath n scope) := by
  have hinside := joinWith_ownName_renumber σ (henv.names scope) hn
  simp only [globalPath, names_renumber, Node.toRecord_renumber, Record.flag_renumber, hinside]
  split
  · cases scope.class? with
    | none => rfl
    | some c =>
      simp only [renumber, List.getElem?_map, Option.map_map]
      cases hc : env.classes[c]? with
      | none => exact (Text.renumber_of_plain σ (s := "") (by decide)).symm
      | some r =>
        have hplain := henv.classes _ (List.mem_map_of_mem (List.mem_of_getElem? hc))
        exact (Text.renumber_of_plain σ hplain).symm
  · rfl

/-- A renumbered name is declared at the renumbered site. -/
theorem declaration?_renumber (env : Scopes) (n : Node) (scope : Scope) :
    (env.renumber σ).declaration? (n.renumber σ) scope =
      (env.declaration? n scope).map (Site.renumber σ) := by
  obtain ⟨class?, function?⟩ := scope
  have hglobal (name : String) : (env.renumber σ).globals.lookup name =
      (env.globals.lookup name).map (Site.renumber σ) := Assoc.lookup_mapValues ..
  simp only [declaration?, Node.toRecord_renumber, Record.str?_renumber]
  cases n.str? Attr.identifier with
  | none => rfl
  | some name =>
    cases function? with
    | none => exact hglobal name
    | some f =>
      simp only [Option.bind_eq_bind, Option.bind_some, hglobal]
      simp only [renumber, List.getElem?_map]
      cases env.functions[f]? with
      | none => rfl
      | some r =>
        simp only [Option.map_some, Option.bind_some, FunctionScope.renumber,
          Assoc.lookup_mapValues]
        cases r.locals.lookup name with
        | some s => rfl
        | none => cases r.arguments.lookup name <;> rfl

/-- A renumbered node stands for the renumbered site. -/
theorem site_renumber (henv : env.Plain) (hn : n.Plain) (scope : Scope) :
    (env.renumber σ).site (n.renumber σ) scope = (env.site n scope).renumber σ := by
  simp only [site, Node.toRecord_renumber, Record.has_renumber, declaration?_renumber,
    globalPath_renumber henv hn]
  split
  · cases env.declaration? n scope <;> rfl
  · rfl

/-! ### Recording -/

theorem Plain.of_heads {env' : Scopes} (h : env.Plain) (hc : env'.classHeads = env.classHeads)
    (hf : env'.functionHeads = env.functionHeads) : env'.Plain :=
  ⟨hc ▸ h.classes, hf ▸ h.functions⟩

/-- Recording an argument records no class and no function. -/
theorem plain_declareArgument (h : env.Plain) (f : Nat) (inner : Scope) (a : Node) :
    (declareArgument f inner env a).Plain := by
  rw [declareArgument]
  split
  · exact h.of_heads rfl (map_modify_of_eq (by intro; rfl) _ _)
  · exact h

/-- An argument of a renumbered function is recorded renumbered. -/
theorem declareArgument_renumber (henv : env.Plain) {a : Node} (ha : a.Plain) (f : Nat)
    (inner : Scope) : declareArgument f inner (env.renumber σ) (a.renumber σ) =
      (declareArgument f inner env a).renumber σ := by
  simp only [declareArgument, Node.toRecord_renumber, Record.str?_renumber, site_renumber henv ha]
  cases a.str? Attr.argumentName with
  | none => rfl
  | some name =>
    simp only [renumber]
    rw [map_modify (k := fun r => { r with
      arguments := r.arguments ++ [(name, (env.site a inner).renumber σ)] })]
    intro r
    simp [FunctionScope.renumber]

/-- A step names what it records after its node. -/
theorem plain_declareNode (henv : env.Plain) (hn : n.Plain) (scope : Scope) :
    (declareNode n scope env).2.Plain := by
  obtain ⟨⟨cs, hcs, hcn⟩, fs, hfs, hfn⟩ := heads_declareNode n scope env
  refine ⟨fun h hh => ?_, fun h hh => ?_⟩
  · rcases List.mem_append.mp (hcs ▸ hh) with hh | hh
    · exact henv.classes h hh
    · rw [hcn h hh]
      exact hn.declared
  · rcases List.mem_append.mp (hfs ▸ hh) with hh | hh
    · exact henv.functions h hh
    · rw [hfn h hh]
      exact hn.declared

/-- A renumbered assignment is to the property that it was to. -/
theorem assignedProperty?_renumber (n : Node) :
    assignedProperty? (n.renumber σ) = assignedProperty? n := by
  simp only [assignedProperty?, Node.toRecord_renumber,
    Record.node?_renumber (f := Attr.assignExpressionLeft) _ rfl]
  cases n.node? Attr.assignExpressionLeft with
  | none => rfl
  | some left =>
    simp only [Option.map_some, Option.bind_eq_bind, Option.bind_some, Node.toRecord_renumber,
      Record.node?_renumber (f := Attr.memberExpressionObject) _ rfl,
      Record.node?_renumber (f := Attr.memberExpressionProperty) _ rfl]
    cases left.node? Attr.memberExpressionObject with
    | none => rfl
    | some object =>
      simp only [Option.map_some, Option.bind_some, Node.toRecord_renumber, Record.flag_renumber]
      cases left.node? Attr.memberExpressionProperty with
      | none => rfl
      | some property => simp

/-- A method is recorded for a renumbered class as for the class. -/
theorem withMethod_renumber (env : Scopes) (class? : Option Nat) (f : Nat) :
    (env.renumber σ).withMethod class? f =
      (env.withMethod class? f).map (ClassScope.renumber σ) := by
  cases class? with
  | none => rfl
  | some c => exact (map_modify (by intro; rfl) _ _).symm

/-- Recording a function under a name without a mark. -/
theorem Plain.withFunction (henv : env.Plain) (record : FunctionScope)
    (hname : Text.Plain record.name) (class? : Option Nat) (f : Nat) :
    Plain ⟨env.withMethod class? f, env.functions ++ [record], env.globals⟩ := by
  refine ⟨fun h hh => henv.classes h ?_, fun h hh => ?_⟩
  · exact heads_withMethod env _ _ ▸ hh
  · rw [functionHeads, List.map_append, List.mem_append] at hh
    rcases hh with hh | hh
    · exact henv.functions h hh
    · rw [List.mem_singleton.mp hh]
      exact hname

/-- A renumbered function is recorded with its arguments, renumbered. -/
theorem declareNode_function_renumber (henv : env.Plain) (hn : n.Plain)
    (hchildren : ∀ c ∈ n.children, c.Plain) (hc : n.flag Attr.classDeclaration = false)
    (hf : n.flag Attr.functionDecl = true) (scope : Scope) :
    declareNode (n.renumber σ) scope (env.renumber σ) =
      ((declareNode n scope env).1, (declareNode n scope env).2.renumber σ) := by
  rw [declareNode_eq_foldl (by simpa using hc) (by simpa using hf), declareNode_eq_foldl hc hf,
    Node.toRecord_renumber, Record.nodes_renumber _ rfl]
  -- the arguments are recorded one by one, from the records that hold the function without them
  obtain ⟨hfold, -⟩ := foldl_map_of (l := n.nodes Attr.arguments) (φ := Node.renumber σ)
    (g := renumber σ) (P := Plain)
    (f := declareArgument env.functions.length ⟨scope.class?, some env.functions.length⟩)
    (fun a ha e he => ⟨declareArgument_renumber he
      (hchildren a (n.nodes_subset_children _ rfl ha)) _ _, plain_declareArgument he _ _ _⟩)
    (henv.withFunction ⟨(n.str? Attr.name).getD "", n.id, scope.class?, [], []⟩ hn.declared
      scope.class? env.functions.length)
  rw [← hfold, withMethod_renumber]
  simp [renumber, FunctionScope.renumber]

/-- A renumbered node is recorded as the node is, renumbered. -/
theorem declareNode_renumber (henv : env.Plain) (hn : n.Plain)
    (hchildren : ∀ c ∈ n.children, c.Plain) (scope : Scope) :
    declareNode (n.renumber σ) scope (env.renumber σ) =
      ((declareNode n scope env).1, (declareNode n scope env).2.renumber σ) := by
  cases hc : n.flag Attr.classDeclaration with
  | true =>
    rw [declareNode_class (by simpa using hc), declareNode_class hc]
    simp [renumber, ClassScope.renumber]
  | false =>
    cases hf : n.flag Attr.functionDecl with
    | true => exact declareNode_function_renumber henv hn hchildren hc hf scope
    | false =>
      have hsite := site_renumber (σ := σ) henv hn scope
      simp only [declareNode, Node.toRecord_renumber, Record.flag_renumber, Record.str?_renumber,
        assignedProperty?_renumber, hsite, hc, hf, Bool.false_eq_true, if_false]
      split
      · cases scope.function? with
        | none => simp [renumber]
        | some f =>
          simp only [renumber]
          rw [map_modify]
          intro r
          simp [FunctionScope.renumber]
      · cases scope.class? with
        | none => rfl
        | some c =>
          cases assignedProperty? n with
          | none => rfl
          | some name =>
            simp only [renumber]
            rw [map_modify]
            intro r
            exact apply_ite (ClassScope.renumber σ) ..

/-- A renumbered tree is recorded as the tree is, renumbered, under names without a mark. -/
theorem declareTree_renumber (henv : env.Plain) (hn : ∀ m ∈ n.all, m.Plain) (scope : Scope) :
    declareTree scope (n.renumber σ).tree (env.renumber σ) =
        (declareTree scope n.tree env).renumber σ ∧ (declareTree scope n.tree env).Plain := by
  induction n using Node.induction_on_children generalizing scope env with
  | step n ih =>
    have hself := hn n n.mem_all_self
    have hchildren : ∀ c ∈ n.children, c.Plain := fun c hc =>
      hn c (Node.mem_all_of_child hc c.mem_all_self)
    rw [declareTree_eq, declareTree_eq, declareNode_renumber henv hself hchildren,
      Node.children_renumber]
    let step (e : Scopes) (c : Node) : Scopes := declareTree (declareNode n scope env).1 c.tree e
    exact foldl_map_of (f := step) (k := step) (φ := Node.renumber σ) (g := renumber σ) (P := Plain)
      (fun c hc e he => ih c hc he (fun m hm => hn m (Node.mem_all_of_child hc hm)) _)
      (plain_declareNode henv hself scope)

/-- The declarations of a program, renumbered. -/
theorem ofNode_renumber (hn : ∀ m ∈ n.all, m.Plain) :
    ofNode (n.renumber σ) = (ofNode n).renumber σ ∧ (ofNode n).Plain :=
  @declareTree_renumber σ {} n ⟨nofun, nofun⟩ hn {}

/-! ### Walking in scope -/

theorem enter_renumber (hσ : Function.Injective σ) (env : Scopes) (n : Node) (scope : Scope) :
    (env.renumber σ).enter (n.renumber σ) scope = env.enter n scope := by
  have hbeq (i j : Nat) : (σ i == σ j) = (i == j) := hσ.beq_eq
  simp only [enter, renumber, Node.toRecord_renumber, Record.flag_renumber, Node.id_renumber,
    List.findIdx?_map, Function.comp_def, ClassScope.renumber, FunctionScope.renumber, hbeq]

/-- A walk meets renumbered nodes in the scopes that it meets the nodes in. -/
theorem walk_renumber (hσ : Function.Injective σ) (env : Scopes) (n : Node) (scope : Scope) :
    (env.renumber σ).walk scope (n.renumber σ) =
      (env.walk scope n).map fun p => (p.1.renumber σ, p.2) := by
  induction n using Node.induction_on_children generalizing scope with
  | step n ih =>
    rw [walk_eq, walk_eq, enter_renumber hσ, List.map_cons, Node.children_renumber,
      List.flatMap_map, List.map_flatMap]
    exact congrArg (_ :: ·) (List.flatMap_congr fun c hc => ih c hc _)

end Scopes

end TypeSketch
