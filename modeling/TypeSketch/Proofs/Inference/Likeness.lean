import TypeSketch.Proofs.Program.Reading
import TypeSketch.Proofs.Program.Editing
import TypeSketch.Proofs.Renumbering.Rules

/-!
# Inference — programs that read alike

Inference writes three fields and reads others, but for one: a literal is read for the type that it
carries.  Two nodes read alike (`Node.Reads`) if they hold the same in all fields but those three,
apart from the nodes there, which are related, and carry the same type if they are literals.  Where
related nodes read alike (`Node.Likeness`), whatever inference takes from a program it takes from a
related one: the declarations (`Scopes.ofNode_of_alike`), the scopes that a walk hands out
(`Scopes.walk_of_alike`), what the rules say of a node in its scope (`Rule.carries_of_standard`),
and so the board (`Inference.boardOf_of_alike`).

The statements go up from the fields of a node, one for each way to read one (`Node.Reads.flag` and
those after it), to the steps of recording and walking, and from there by induction over the program
(`Node.Likeness.induction`). The rules are compared one by one; a rule that reads other fields than
these needs a line of its own in `Rule.carries_of_standard`.
-/

namespace TypeSketch

/-! ### Values whose nodes are changed -/

namespace Value.Edited

variable {P Q : Node → Node → Prop} {v w : Value}

theorem asBool?_eq (h : Edited P v w) : w.asBool? = v.asBool? := by cases h <;> rfl

theorem asStr?_eq (h : Edited P v w) : w.asStr? = v.asStr? := by cases h <;> rfl

/-- A node becomes a related one, and nothing else becomes a node. -/
theorem asNode? (h : Edited P v w) : Option.Rel P v.asNode? w.asNode? := by
  cases h with
  | node h => exact .some h
  | list => exact .none
  | other h =>
    cases v with
    | node => cases h
    | _ => exact .none

/-- The nodes that a list holds are related. -/
theorem listed (h : Edited P v w) :
    List.Forall₂ P ((v.asList?.getD []).filterMap Value.asNode?)
      ((w.asList?.getD []).filterMap Value.asNode?) := by
  cases h with
  | node => exact .nil
  | list h => exact List.rel_filterMap (fun _ _ h => h.node_rel) h
  | other h =>
    cases v with
    | list items =>
      change List.Forall₂ P (Value.list items).childNodes (Value.list items).childNodes
      rw [h]
      exact .nil
    | _ => exact .nil

/-- Changing nodes within a relation is changing them within a wider one. -/
theorem mono (h : Edited P v w) (hPQ : ∀ n m, P n m → Q n m) : Edited Q v w := by
  cases h with
  | node h => exact .node (hPQ _ _ h)
  | list h =>
    refine .list (h.imp fun v w h => ?_)
    cases h with
    | node h => exact .node (hPQ _ _ h)
    | other h => exact .other h
  | other h => exact .other h

theorem refl (hP : ∀ n, P n n) (v : Value) : Edited P v v := by
  cases v with
  | node id r => exact .node (hP ⟨r, id⟩)
  | list items =>
    refine .list (List.forall₂_same.mpr fun v _ => ?_)
    cases v with
    | node id r => exact .node (hP ⟨r, id⟩)
    | _ => exact .other rfl
  | _ => exact .other rfl

end Value.Edited

/-! ### Nodes that read alike -/

/-- Inference reads the same off both nodes, but for the nodes there, which are related. -/
structure Node.Reads (P : Node → Node → Prop) (n m : Node) : Prop where
  id_eq : m.id = n.id
  get? : ∀ key, (∀ f ∈ Attr.written, f.key ≠ key) →
    Option.Rel (Value.Edited P) (n.get? key) (m.get? key)
  sample : n.flag Attr.literal = true →
    m.shape? Attr.inferredType = n.shape? Attr.inferredType
  children : List.Forall₂ P n.children m.children

/-- Related nodes read alike. -/
def Node.Likeness (P : Node → Node → Prop) : Prop := ∀ {n m : Node}, P n m → n.Reads P m

variable {P : Node → Node → Prop} {n m : Node}

namespace Node.Reads

/-- Nodes that read alike carry the same marks. -/
theorem flag (h : n.Reads P m) (f : Field)
    (hkey : ∀ g ∈ Attr.written, g.key ≠ f.key := by decide) : m.flag f = n.flag f := by
  have hrel := h.get? f.key hkey
  rw [Record.flag, Record.flag, Record.field?, Record.field?]
  generalize n.get? f.key = v, m.get? f.key = w at hrel
  cases hrel with
  | none => rfl
  | some hvw => simp [hvw.asBool?_eq]

/-- Nodes that read alike carry the same texts. -/
theorem str? (h : n.Reads P m) (f : Field)
    (hkey : ∀ g ∈ Attr.written, g.key ≠ f.key := by decide) : m.str? f = n.str? f := by
  have hrel := h.get? f.key hkey
  rw [Record.str?, Record.str?, Record.field?, Record.field?]
  generalize n.get? f.key = v, m.get? f.key = w at hrel
  cases hrel with
  | none => rfl
  | some hvw => simp [hvw.asStr?_eq]

theorem has (h : n.Reads P m) (f : Field)
    (hkey : ∀ g ∈ Attr.written, g.key ≠ f.key := by decide) : m.has f = n.has f :=
  (Assoc.isSome_eq_of_rel (h.get? f.key hkey)).symm

/-- A field of nodes that read alike holds related nodes, or none in either. -/
theorem node? (h : n.Reads P m) (f : Field)
    (hkey : ∀ g ∈ Attr.written, g.key ≠ f.key := by decide)
    (hf : f.absent?.bind Value.asNode? = none := by rfl) :
    Option.Rel P (n.node? f) (m.node? f) := by
  have hrel := h.get? f.key hkey
  rw [Record.node?, Record.node?, Record.field?, Record.field?]
  generalize n.get? f.key = v, m.get? f.key = w at hrel
  cases hrel with
  | none =>
    simp only [Option.none_or, hf]
    exact .none
  | some hvw => exact hvw.asNode?

/-- A list field of nodes that read alike holds related nodes. -/
theorem nodes (h : n.Reads P m) (f : Field)
    (hkey : ∀ g ∈ Attr.written, g.key ≠ f.key := by decide)
    (hf : f.absent? = some (.list []) := by rfl) : List.Forall₂ P (n.nodes f) (m.nodes f) := by
  have hrel := h.get? f.key hkey
  rw [Record.nodes, Record.nodes, Record.items, Record.items, Record.field?, Record.field?, hf]
  generalize n.get? f.key = v, m.get? f.key = w at hrel
  cases hrel with
  | none => exact .nil
  | some hvw => exact hvw.listed

end Node.Reads

theorem Node.Reads.refl (hP : ∀ n, P n n) (n : Node) : n.Reads P n := by
  refine ⟨rfl, fun key _ => ?_, fun _ => rfl, List.forall₂_same.mpr fun c _ => hP c⟩
  cases n.get? key with
  | none => exact .none
  | some v => exact .some (.refl hP v)

theorem Node.Reads.kind (h : n.Reads P m) : m.kind = n.kind := by
  rw [Node.kind, Node.kind, h.str? Attr.kind]

/-- What holds of related nodes if it holds of their children holds of all related nodes. -/
theorem Node.Likeness.induction (alike : Likeness P) {Q : Node → Node → Prop}
    (step : ∀ n m, P n m → List.Forall₂ Q n.children m.children → Q n m) (h : P n m) : Q n m := by
  induction n using Node.induction_on_children generalizing m with
  | step n ih =>
    have hchildren := (List.forall₂_and_left _ _).mpr ⟨fun _ hc => hc, (alike h).children⟩
    exact step n m h (hchildren.imp fun c d ⟨hc, hcd⟩ => ih c hc hcd)

/-- Walks that pass by below related nodes visit related nodes. -/
theorem Node.visits_of_alike (alike : Likeness P) {skip : Node → Bool}
    (hskip : ∀ n m, P n m → skip m = skip n) (h : P n m) :
    List.Forall₂ P (n.tree.visits skip) (m.tree.visits skip) := by
  refine alike.induction (Q := fun n m => List.Forall₂ P (n.tree.visits skip) (m.tree.visits skip))
    (fun n m h hchildren => ?_) h
  rw [visits_tree, visits_tree, hskip n m h]
  refine .cons h ?_
  split
  · exact .nil
  · exact List.rel_flatMap hchildren fun _ _ h => h

namespace Scopes

/-! ### Declarations -/

theorem ownName_of_reads (h : n.Reads P m) : ownName m = ownName n := by
  rw [ownName, ownName, h.str? Attr.identifier, h.str? Attr.variableDeclarationId,
    h.str? Attr.argumentName, h.kind, h.id_eq]

/-- Nodes that read alike have one site in a scope. -/
theorem site_of_reads (h : n.Reads P m) (env : Scopes) (scope : Scope) :
    env.site m scope = env.site n scope := by
  have hpath : env.globalPath m scope = env.globalPath n scope := by
    rw [globalPath, globalPath, ownName_of_reads h, h.flag Attr.thisExpression]
  have hdeclared : env.declaration? m scope = env.declaration? n scope := by
    rw [declaration?, declaration?, h.str? Attr.identifier]
  rw [site, site, hpath, hdeclared, h.has Attr.identifier, h.id_eq]

theorem declareArgument_of_reads (h : n.Reads P m) (f : Nat) (inner : Scope) (env : Scopes) :
    declareArgument f inner env m = declareArgument f inner env n := by
  rw [declareArgument, declareArgument, h.str? Attr.argumentName, site_of_reads h]

section
variable (alike : Node.Likeness P)
include alike

/-- Related nodes assign to the same member of `this`. -/
theorem assignedProperty?_of_alike (h : P n m) : assignedProperty? m = assignedProperty? n := by
  -- the assigned node, the object that it is a member of, and its key
  have hrel : Option.Rel (· = ·) (assignedProperty? n) (assignedProperty? m) := by
    refine Assoc.rel_bind ((alike h).node? Attr.assignExpressionLeft) fun left left' hleft => ?_
    refine Assoc.rel_bind ((alike hleft).node? Attr.memberExpressionObject) fun o o' hobject => ?_
    rw [(alike hobject).flag Attr.thisExpression]
    split
    · refine Assoc.rel_bind ((alike hleft).node? Attr.memberExpressionProperty) fun k k' hkey => ?_
      rw [(alike hkey).str? Attr.identifier]
      exact Assoc.rel_eq_iff.mpr rfl
    · exact .none
  exact (Assoc.rel_eq_iff.mp hrel).symm

/-- Related nodes are recorded alike. -/
theorem declareNode_of_alike (h : P n m) (scope : Scope) (env : Scopes) :
    declareNode m scope env = declareNode n scope env := by
  have hread := alike h
  have harguments (f : Nat) (inner : Scope) (env : Scopes) :
      (m.nodes Attr.arguments).foldl (declareArgument f inner) env =
        (n.nodes Attr.arguments).foldl (declareArgument f inner) env :=
    foldl_eq_of_forall₂ (f := declareArgument f inner)
      (fun env a a' ha => declareArgument_of_reads (alike ha) f inner env)
      (hread.nodes Attr.arguments) env
  simp only [declareNode, hread.flag Attr.classDeclaration, hread.flag Attr.functionDecl,
    hread.flag Attr.variableDeclaration, hread.str? Attr.name,
    hread.str? Attr.variableDeclarationId, hread.id_eq, site_of_reads hread,
    assignedProperty?_of_alike alike h, harguments]

/-- Related nodes, with all that is below them, are recorded alike. -/
theorem declareTree_of_alike (h : P n m) :
    ∀ scope env, declareTree scope m.tree env = declareTree scope n.tree env := by
  refine alike.induction (Q := fun n m =>
    ∀ scope env, declareTree scope m.tree env = declareTree scope n.tree env)
    (fun n m h hchildren scope env => ?_) h
  rw [declareTree_eq, declareTree_eq, declareNode_of_alike alike h]
  exact foldl_eq_of_forall₂ (fun env c d hcd => hcd _ env) hchildren _

/-- Related programs declare the same. -/
theorem ofNode_of_alike (h : P n m) : ofNode m = ofNode n := declareTree_of_alike alike h {} {}

/-! ### Walking in scope -/

theorem enter_of_alike (h : P n m) (env : Scopes) (scope : Scope) :
    env.enter m scope = env.enter n scope := by
  have hread := alike h
  rw [enter, enter, hread.flag Attr.classDeclaration, hread.flag Attr.functionDecl, hread.id_eq]

/-- A walk meets related nodes, each in the scope of the other. -/
theorem walk_of_alike (h : P n m) (env : Scopes) : ∀ scope,
    List.Forall₂ (fun p q => P p.1 q.1 ∧ q.2 = p.2) (env.walk scope n) (env.walk scope m) := by
  refine alike.induction (Q := fun n m => ∀ scope, List.Forall₂
    (fun p q => P p.1 q.1 ∧ q.2 = p.2) (env.walk scope n) (env.walk scope m))
    (fun n m h hchildren scope => ?_) h
  rw [walk_eq, walk_eq, enter_of_alike alike h]
  exact .cons ⟨h, rfl⟩ (List.rel_flatMap hchildren fun _ _ hcd => hcd _)

end

end Scopes

/-! ### Rules -/

theorem alike_self {α : Type} (x : Except Error α) : Alike (· = ·) x x := by
  cases x with
  | error => exact .error rfl
  | ok => exact .ok rfl

/-- Of two related nodes the rule says the same, if it speaks of them. -/
structure Rule.Carries (P : Node → Node → Prop) (rule : Rule) : Prop where
  accepts : ∀ {n m}, P n m → rule.accepts m = rule.accepts n
  facts : ∀ {n m} (env : Scopes) (scope : Scope), P n m → rule.accepts n = true →
    Alike (· = ·) (rule.facts env scope n) (rule.facts env scope m)

namespace Rule

variable (alike : Node.Likeness P)
include alike

theorem carries_variableDeclaration : variableDeclaration.Carries P where
  accepts h := (alike h).flag Attr.variableDeclaration
  facts {n m} env scope h _ := by
    have hinit := (alike h).node? Attr.defaultValue
    simp only [variableDeclaration, Scopes.site_of_reads (alike h), (alike h).id_eq]
    generalize n.node? Attr.defaultValue = init, m.node? Attr.defaultValue = init' at hinit
    cases hinit with
    | none => exact alike_self _
    | some hinit =>
      simp only [Scopes.site_of_reads (alike hinit)]
      exact alike_self _

theorem carries_assignExpression : assignExpression.Carries P where
  accepts h := (alike h).flag Attr.assignExpression
  facts {n m} env scope h _ := by
    have hleft := (alike h).node? Attr.assignExpressionLeft
    have hright := (alike h).node? Attr.assignExpressionRight
    simp only [assignExpression]
    generalize n.node? Attr.assignExpressionLeft = l, m.node? Attr.assignExpressionLeft = l',
      n.node? Attr.assignExpressionRight = r,
      m.node? Attr.assignExpressionRight = r' at hleft hright
    cases hleft with
    | none => exact alike_self _
    | some hleft =>
      cases hright with
      | none => exact alike_self _
      | some hright =>
        simp only [Scopes.site_of_reads (alike hleft), Scopes.site_of_reads (alike hright)]
        exact alike_self _

theorem carries_returning : returning.Carries P where
  accepts h := (Assoc.isSome_eq_of_rel ((alike h).node? Attr.returned)).symm
  facts {n m} env scope h _ := by
    have hvalue := (alike h).node? Attr.returned
    simp only [returning, Scopes.site_of_reads (alike h)]
    generalize n.node? Attr.returned = value, m.node? Attr.returned = value' at hvalue
    cases hvalue with
    | none => exact alike_self _
    | some hvalue =>
      simp only [Scopes.site_of_reads (alike hvalue)]
      exact alike_self _

theorem carries_literal : literal.Carries P where
  accepts h := (alike h).flag Attr.literal
  facts {n m} env scope h hn := by
    simp only [literal, Scopes.site_of_reads (alike h), (alike h).sample hn]
    exact alike_self _

theorem carries_operator : operator.Carries P where
  accepts h := (alike h).has Attr.operator
  facts {n m} env scope h _ := by
    have hleft := (alike h).node? Attr.operatorLeft
    have hright := (alike h).node? Attr.operatorRight
    simp only [operator, Scopes.site_of_reads (alike h), (alike h).str? Attr.operator]
    generalize n.node? Attr.operatorLeft = l, m.node? Attr.operatorLeft = l',
      n.node? Attr.operatorRight = r, m.node? Attr.operatorRight = r' at hleft hright
    cases hleft with
    | none => exact alike_self _
    | some hleft =>
      cases hright with
      | none => exact alike_self _
      | some hright =>
        simp only [Scopes.site_of_reads (alike hleft), Scopes.site_of_reads (alike hright)]
        exact alike_self _

/-- The returns that are found in related bodies are related. -/
theorem returnsOf_of_alike (h : P n m) : List.Forall₂ P (returnsOf n) (returnsOf m) := by
  have hskip (n m : Node) (h : P n m) : m.flag Attr.functionDecl = n.flag Attr.functionDecl :=
    (alike h).flag Attr.functionDecl
  refine List.rel_filter (fun r r' hr => ?_) (Node.visits_of_alike alike hskip h)
  beta_reduce
  rw [hskip r r' hr, Assoc.isSome_eq_of_rel ((alike hr).node? Attr.returned)]

theorem carries_functionDeclaration : functionDeclaration.Carries P where
  accepts h := (alike h).flag Attr.functionDecl
  facts {n m} env scope h _ := by
    have hbody := (alike h).node? Attr.functionBody
    have harguments (facts : Facts) := foldl_eq_of_forall₂
      (f := fun (facts : Facts) a => (facts.addNode (env.site a scope)).callBack
        (env.site a scope).path ⟨a.id, Attr.argumentType⟩)
      (fun facts a a' ha => by rw [Scopes.site_of_reads (alike ha), (alike ha).id_eq])
      ((alike h).nodes Attr.arguments) facts
    simp only [functionDeclaration, Scopes.site_of_reads (alike h), (alike h).id_eq, harguments]
    generalize n.node? Attr.functionBody = body, m.node? Attr.functionBody = body' at hbody
    cases hbody with
    | none => exact alike_self _
    | some hbody =>
      simp only [Scopes.site_of_reads (alike hbody)]
      refine .ok (foldl_eq_of_forall₂ (fun facts r r' hr => ?_)
        (returnsOf_of_alike alike hbody) _).symm
      rw [Scopes.site_of_reads (alike hr)]

theorem carries_memberExpression : memberExpression.Carries P where
  accepts h := by
    simp only [memberExpression, (alike h).flag Attr.staticMemberExpression,
      (alike h).flag Attr.computedMemberExpression]
  facts {n m} env scope h _ := by
    have hobject := (alike h).node? Attr.memberExpressionObject
    have hproperty := (alike h).node? Attr.memberExpressionProperty
    simp only [memberExpression, Scopes.site_of_reads (alike h),
      (alike h).flag Attr.computedMemberExpression]
    generalize n.node? Attr.memberExpressionObject = o,
      m.node? Attr.memberExpressionObject = o', n.node? Attr.memberExpressionProperty = k,
      m.node? Attr.memberExpressionProperty = k' at hobject hproperty
    cases hobject with
    | none => exact .error rfl
    | some hobject =>
      cases hproperty with
      | none => exact .error rfl
      | some hproperty =>
        have hread := alike hproperty
        simp only [Scopes.site_of_reads (alike hobject), Scopes.site_of_reads hread, hread.id_eq,
          hread.str? Attr.identifier, hread.flag Attr.literal, hread.has Attr.identifier]
        split
        · exact alike_self _
        · split
          · exact alike_self _
          · exact .error rfl

/-- Every standard rule says the same of related nodes that it speaks of. -/
theorem carries_of_standard {rule : Rule} (h : rule ∈ standard) : rule.Carries P := by
  simp only [standard, List.mem_cons, List.not_mem_nil, or_false] at h
  rcases h with rfl | rfl | rfl | rfl | rfl | rfl | rfl
  · exact carries_variableDeclaration alike
  · exact carries_assignExpression alike
  · exact carries_returning alike
  · exact carries_memberExpression alike
  · exact carries_operator alike
  · exact carries_functionDeclaration alike
  · exact carries_literal alike

end Rule

/-! ### The board -/

namespace Inference

/-- Rules that say the same of related nodes say it all together. -/
theorem factsOf_of_carries {rules : List Rule} (hrules : ∀ rule ∈ rules, rule.Carries P)
    (env : Scopes) (h : P n m) (scope : Scope) :
    Alike (· = ·) (factsOf rules env n scope) (factsOf rules env m scope) := by
  have haccepts : rules.filter (·.accepts m) = rules.filter (·.accepts n) :=
    List.filter_congr fun rule hr => (hrules rule hr).accepts h
  rw [factsOf, factsOf, haccepts, ← List.forall₂_eq_eq_eq]
  refine .mapM (List.forall₂_same.mpr fun rule hr => ?_)
  obtain ⟨hr, ha⟩ := List.mem_filter.mp hr
  exact ((hrules rule hr).facts env scope h ha).bind fun facts facts' heq => .ok (by rw [heq])

/-- Related programs have one board. -/
theorem boardOf_of_alike (alike : Node.Likeness P) {rules : List Rule}
    (hrules : ∀ rule ∈ rules, rule ∈ Rule.standard) (h : P n m) :
    Alike (· = ·) (boardOf rules n) (boardOf rules m) := by
  have hcarries : ∀ rule ∈ rules, rule.Carries P := fun rule hr =>
    Rule.carries_of_standard alike (hrules rule hr)
  rw [boardOf, boardOf, Scopes.ofNode_of_alike alike h]
  refine Alike.foldlM ((Scopes.walk_of_alike alike h (.ofNode n) {}).imp ?_) rfl
  rintro ⟨c, s⟩ ⟨d, s'⟩ ⟨hcd, hs⟩ b _ rfl
  cases hs
  exact (factsOf_of_carries hcarries _ hcd _).bind fun told told' heq => .ok (by rw [heq])

end Inference

end TypeSketch
