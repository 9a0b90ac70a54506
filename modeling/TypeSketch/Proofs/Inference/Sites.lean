import TypeSketch.Proofs.Program.Reading
import TypeSketch.Proofs.Text.Join

/-!
# Inference — sites

The path of a node that is no identifier and not `this` is made of the names around it and a name of
its own (`site_eq`).  Declarations have the name they declare; a node without a name is told apart
by its number (`Node.Anonymous.id_eq`), whatever the names around it are.

The facts that nodes are read for are collected at the end, one for each form of node that the rules
speak of (`Made.literal_spec` and the statements after it): whether it has a name, and whether it
opens a scope.
-/

namespace TypeSketch

namespace Scopes

/-- The path of a name in a scope. -/
def pathOf (env : Scopes) (scope : Scope) (name : String) : String :=
  Text.joinWith "." (env.names scope ++ [name])

end Scopes

namespace Node

/-- The path of the node is made of its own name. -/
structure Named (n : Node) (name : String) : Prop where
  identifier : n.has Attr.identifier = false
  this : n.flag Attr.thisExpression = false
  ownName : Scopes.ownName n = name

/-- The node has no name. -/
def Anonymous (n : Node) : Prop := n.Named (n.kind ++ "@" ++ toString n.id)

theorem Named.site_eq {n : Node} {name : String} (h : n.Named name) (env : Scopes)
    (scope : Scope) : env.site n scope = ⟨env.pathOf scope name, n.id⟩ := by
  simp [Scopes.site, Scopes.globalPath, Scopes.pathOf, h.identifier, h.this, h.ownName]

/-- The path of a node without a name tells its number. -/
theorem Anonymous.id_eq {n m : Node} (hn : n.Anonymous) (hm : m.Anonymous) {env : Scopes}
    {s s' : Scope} (h : (env.site n s).path = (env.site m s').path) : n.id = m.id := by
  rw [hn.site_eq, hm.site_eq] at h
  simp only [Scopes.pathOf] at h
  rw [Text.joinWith_concat, Text.joinWith_concat _ (env.names s')] at h
  simp only [← String.append_assoc] at h
  exact Text.number_of_append h

/-- The node opens no scope. -/
structure Transparent (n : Node) : Prop where
  notClass : n.flag Attr.classDeclaration = false
  notFunction : n.flag Attr.functionDecl = false

theorem Transparent.enter_eq {n : Node} (h : n.Transparent) (env : Scopes) (scope : Scope) :
    env.enter n scope = scope := by
  simp [Scopes.enter, h.notClass, h.notFunction]

namespace Made

variable {n : Node}

/-- A literal has no name, and carries the shape of its value. -/
theorem literal_spec (hn : n.Made) (h : n.flag Attr.literal = true) :
    n.Anonymous ∧ ∃ shape value, n.shape? Attr.inferredType = some shape ∧
      (Shape.ofSample value "").Makes shape := by
  obtain ⟨f, hf, -, hs⟩ := hn.form
  obtain ⟨text, value, shape, rfl⟩ := NodeForm.eq_literal (hf ▸ h)
  obtain ⟨r, id⟩ := n
  cases hf
  exact ⟨⟨rfl, rfl, rfl⟩, shape, value, rfl, hs text value shape rfl⟩

/-- An operator with two sides has no name. -/
theorem operands_spec (hn : n.Made) {left : Node} (h : n.node? Attr.operatorLeft = some left) :
    n.Anonymous := by
  obtain ⟨f, hf, -⟩ := hn.form
  obtain ⟨op, right, rfl⟩ := NodeForm.eq_binary (hf ▸ h)
  obtain ⟨r, id⟩ := n
  cases hf
  exact ⟨rfl, rfl, rfl⟩

/-- A variable declaration declares a name in the scope around it. -/
theorem declaration_spec (hn : n.Made) (h : n.flag Attr.variableDeclaration = true) :
    ∃ name, n.str? Attr.variableDeclarationId = some name ∧ n.Named name ∧ n.Transparent := by
  obtain ⟨f, hf, -⟩ := hn.form
  obtain ⟨name, init, rfl⟩ := NodeForm.eq_declaration (hf ▸ h)
  obtain ⟨r, id⟩ := n
  cases hf
  cases init <;> exact ⟨name, rfl, ⟨rfl, rfl, rfl⟩, rfl, rfl⟩

/-- An argument goes by its name and opens no scope. -/
theorem argument_spec (hn : n.Made) {name : String} (h : n.str? Attr.argumentName = some name) :
    n.Named name ∧ n.Transparent := by
  obtain ⟨f, hf, -⟩ := hn.form
  obtain ⟨init, rfl⟩ := NodeForm.eq_argument (hf ▸ h)
  obtain ⟨r, id⟩ := n
  cases hf
  cases init <;> exact ⟨⟨rfl, rfl, rfl⟩, rfl, rfl⟩

/-- A function declaration declares no class, and its arguments are children of it. -/
theorem function_spec (hn : n.Made) (h : n.flag Attr.functionDecl = true) :
    n.flag Attr.classDeclaration = false ∧ (n.nodes Attr.arguments).Sublist n.children := by
  obtain ⟨f, hf, -⟩ := hn.form
  obtain ⟨name, arguments, body, isAsync, rfl⟩ := NodeForm.eq_functionDeclaration (hf ▸ h)
  have harguments : n.nodes Attr.arguments = arguments := by
    rw [hf]
    exact items_listOf rfl
  rw [NodeForm.children_eq hf, harguments, hf]
  exact ⟨rfl, List.sublist_append_left _ _⟩

end Made

end Node

end TypeSketch
