import TypeSketch.Proofs.Program.Form

/-!
# Programs — reading nodes

What is read off a node that is made, by its form.  The children of such a node are what it is made
of, it is open, and a mark or a name that it carries tells its form: `NodeForm.eq_literal` and the
statements after it.

A node is asked for a mark or for a name, and the answer has to tell what the node is made of. Each
form has keys of its own (`NodeForm.keys`), so that a key at hand leaves one form
(`contains_keys_of_flag`, `contains_keys_of_field?`): the equations for the single marks are found
by going through the forms. The last part says what is not there before inference has written it.
-/

namespace TypeSketch

/-- The fields that inference writes. -/
def Attr.written : List Field := [inferredType, functionReturn, argumentType]

namespace Node

theorem childNodes_toValue (n : Node) : n.toValue.childNodes = [n] := rfl

theorem childNodes_listOf (ns : List Node) : (listOf ns).childNodes = ns := by
  rw [listOf, Value.childNodes, List.filterMap_map]
  exact List.filterMap_some

theorem items_listOf {r : Record Value} {f : Field} {ns : List Node}
    (h : r.get? f.key = some (listOf ns)) : r.nodes f = ns := by
  rw [Record.nodes, Record.items, Record.field?, h]
  exact childNodes_listOf ns

end Node

namespace NodeForm

/-- The children of a node are what its form is made of. -/
theorem children_eq {f : NodeForm} {n : Node} (h : n.toRecord = f.record) :
    n.children = f.children := by
  rw [Node.children, h]
  have hbool : ∀ b, (Value.bool b).childNodes = [] := fun _ => rfl
  have hstr : ∀ t, (Value.str t).childNodes = [] := fun _ => rfl
  cases f with
  | program | block | declarations | requires | call | functionDeclaration =>
    simp [record, attributes, children, Record.entries, Node.childNodes_listOf,
      Node.childNodes_toValue, hbool, hstr]
  | classDeclaration name supers cs =>
    have hsupers : (Value.list (supers.map .str)).childNodes = [] := by
      simp [Value.childNodes, Value.asNode?]
    simp [record, attributes, children, Record.entries, Node.childNodes_listOf, hsupers, hbool,
      hstr]
  | declaration _ init | returning init | argument _ init => cases init <;> rfl
  | member _ _ computed => cases computed <;> rfl
  | require _ key value => cases key <;> cases value <;> rfl
  | _ => rfl

/-! ### The form of a mark -/

/-- The keys of the attributes of a node of the form, those that it can do without among them. -/
def keys : NodeForm → List String
  | program _ => [Attr.program.key, Attr.children.key]
  | block _ => [Attr.blockStatement.key, Attr.children.key]
  | statement _ => [Attr.statement.key]
  | identifier _ => [Attr.identifier.key]
  | this => [Attr.thisExpression.key]
  | literal .. => [Attr.literal.key, Attr.rawCode.key, Attr.rawValue.key, Attr.inferredType.key]
  | declaration .. =>
    [Attr.variableDeclaration.key, Attr.variableDeclarationId.key, Attr.defaultValue.key]
  | declarations _ => [Attr.variableDeclarations.key]
  | assign .. =>
    [Attr.assignExpression.key, Attr.assignExpressionLeft.key, Attr.assignExpressionRight.key]
  | binary .. => [Attr.operator.key, Attr.operatorLeft.key, Attr.operatorRight.key]
  | unary .. => [Attr.operator.key, Attr.operatorBefore.key]
  | returning _ => [Attr.returned.key]
  | member .. =>
    [Attr.computedMemberExpression.key, Attr.staticMemberExpression.key,
      Attr.memberExpressionObject.key, Attr.memberExpressionProperty.key]
  | call .. => [Attr.functionCall.key, Attr.callee.key, Attr.arguments.key]
  | argument .. => [Attr.argumentName.key, Attr.argumentType.key, Attr.defaultValue.key]
  | functionDeclaration .. =>
    [Attr.functionDecl.key, Attr.name.key, Attr.isAsync.key, Attr.arguments.key,
      Attr.functionBody.key]
  | classDeclaration .. =>
    [Attr.classDeclaration.key, Attr.name.key, Attr.superClasses.key, Attr.children.key]
  | printing _ => [Attr.print.key, Attr.children.key]
  | require .. =>
    [Attr.require.key, Attr.requirePath.key, Attr.requireKey.key, Attr.requireValue.key]
  | requires _ => [Attr.requires.key]

/-- The attributes of a form are under its keys. -/
theorem map_fst_attributes_subset (f : NodeForm) : f.attributes.map Prod.fst ⊆ f.keys := by
  cases f with
  | declaration _ init | returning init | argument _ init =>
    cases init <;> simp [attributes, optional, keys]
  | member _ _ computed => cases computed <;> simp [attributes, keys]
  | require _ key value => cases key <;> cases value <;> simp [attributes, optional, keys]
  | _ => exact List.Subset.refl _

variable {f : NodeForm}

/-- What a node of a form holds besides its kind is under a key of the form. -/
theorem contains_keys {key : String} {v : Value} (h : f.record.get? key = some v)
    (hkind : key ≠ Attr.kind.key) : f.keys.contains key = true := by
  have hlookup : f.record.get? key = f.attributes.lookup key := by
    simp [record, Record.get?, List.lookup_cons, beq_false_of_ne hkind]
  rw [List.contains_iff_mem]
  exact f.map_fst_attributes_subset
    (List.mem_map_of_mem (Assoc.mem_of_lookup (hlookup.symm.trans h)))

/-- What is read off a field, and is not what an absent field stands for, is under a key of the
form. -/
theorem contains_keys_of_field? {g : Field} {α : Type} {read : Value → Option α} {a : α}
    (h : (f.record.field? g).bind read = some a) (hkind : g.key ≠ Attr.kind.key)
    (habsent : g.absent?.bind read ≠ some a) : f.keys.contains g.key = true := by
  obtain ⟨v, hv, hread⟩ := Option.bind_eq_some_iff.mp h
  rcases Option.or_eq_some_iff.mp hv with hv | ⟨-, hv⟩
  · exact contains_keys hv hkind
  · exact absurd (Option.bind_eq_some_iff.mpr ⟨v, hv, hread⟩) habsent

theorem contains_keys_of_flag {key : String} (h : f.record.flag (.flag key) = true)
    (hkind : key ≠ Attr.kind.key) : f.keys.contains key = true := by
  have hread : (f.record.field? (.flag key)).bind Value.asBool? = some true :=
    (Option.getD_eq_iff.mp h).resolve_right nofun
  exact contains_keys_of_field? hread hkind nofun

theorem eq_literal (h : f.record.flag Attr.literal = true) :
    ∃ text value shape, f = .literal text value shape := by
  have hkeys := contains_keys_of_flag h (by decide)
  cases f with
  | literal text value shape => exact ⟨text, value, shape, rfl⟩
  | _ => cases hkeys

theorem eq_declaration (h : f.record.flag Attr.variableDeclaration = true) :
    ∃ name init, f = .declaration name init := by
  have hkeys := contains_keys_of_flag h (by decide)
  cases f with
  | declaration name init => exact ⟨name, init, rfl⟩
  | _ => cases hkeys

theorem eq_functionDeclaration (h : f.record.flag Attr.functionDecl = true) :
    ∃ name arguments body isAsync, f = .functionDeclaration name arguments body isAsync := by
  have hkeys := contains_keys_of_flag h (by decide)
  cases f with
  | functionDeclaration name arguments body isAsync => exact ⟨name, arguments, body, isAsync, rfl⟩
  | _ => cases hkeys

theorem eq_this (h : f.record.flag Attr.thisExpression = true) : f = .this := by
  have hkeys := contains_keys_of_flag h (by decide)
  cases f with
  | this => rfl
  | _ => cases hkeys

theorem eq_identifier {name : String} (h : f.record.str? Attr.identifier = some name) :
    f = .identifier name := by
  have hkeys := contains_keys_of_field? h (by decide) nofun
  cases f with
  | identifier name' => cases h; rfl
  | _ => cases hkeys

theorem eq_argument {name : String} (h : f.record.str? Attr.argumentName = some name) :
    ∃ init, f = .argument name init := by
  have hkeys := contains_keys_of_field? h (by decide) nofun
  cases f with
  | argument name' init => cases init <;> cases h <;> exact ⟨_, rfl⟩
  | _ => cases hkeys

theorem eq_binary {left : Node} (h : f.record.node? Attr.operatorLeft = some left) :
    ∃ op right, f = .binary op left right := by
  have hkeys := contains_keys_of_field? h (by decide) nofun
  cases f with
  | binary op left' right => cases h; exact ⟨op, right, rfl⟩
  | _ => cases hkeys

theorem eq_returning {value : Node} (h : f.record.node? Attr.returned = some value) :
    f = .returning (some value) := by
  have hkeys := contains_keys_of_field? h (by decide) nofun
  cases f with
  | returning v => cases v <;> cases h; rfl
  | _ => cases hkeys

theorem eq_assign {left : Node} (h : f.record.node? Attr.assignExpressionLeft = some left) :
    ∃ right, f = .assign left right := by
  have hkeys := contains_keys_of_field? h (by decide) nofun
  cases f with
  | assign left' right => cases h; exact ⟨right, rfl⟩
  | _ => cases hkeys

theorem eq_member {object : Node} (h : f.record.node? Attr.memberExpressionObject = some object) :
    ∃ property computed, f = .member object property computed := by
  have hkeys := contains_keys_of_field? h (by decide) nofun
  cases f with
  | member object' property computed => cases computed <;> cases h <;> exact ⟨property, _, rfl⟩
  | _ => cases hkeys

/-- What inference writes never was a node. -/
theorem childNodes_of_written {g : Field} {v : Value} (hg : g ∈ Attr.written)
    (h : f.record.get? g.key = some v) : v.childNodes = [] := by
  simp only [Attr.written, List.mem_cons, List.not_mem_nil, or_false] at hg
  rcases hg with rfl | rfl | rfl
  -- literals and arguments have such a field, and a shape in it
  all_goals
    have hkeys := contains_keys h (by decide)
    cases f with
    | literal => cases h <;> rfl
    | argument _ init => cases init <;> cases h <;> rfl
    | _ => cases hkeys

end NodeForm

namespace Node.Made

variable {n : Node}

/-- What is made is made of what is made. -/
theorem children (hn : n.Made) : ∀ c ∈ n.children, c.Made := by
  obtain ⟨f, hf, hc, -⟩ := hn.form
  rw [NodeForm.children_eq hf]
  exact hc

theorem all (hn : n.Made) : ∀ m ∈ n.all, m.Made :=
  forall_mem_all (fun _ h => h.children) hn

theorem frozen (hn : n.Made) : n.frozen = false := by
  obtain ⟨f, hf, -⟩ := hn.form
  rw [hf]
  rfl

/-- What inference writes never was a node. -/
theorem childNodes_of_written (hn : n.Made) {g : Field} {v : Value} (hg : g ∈ Attr.written)
    (h : n.get? g.key = some v) : v.childNodes = [] := by
  obtain ⟨f, hf, -⟩ := hn.form
  exact NodeForm.childNodes_of_written hg (hf ▸ h)

/-! ### Before inference -/

theorem inferredType_of_declaration (hn : n.Made) (h : n.flag Attr.variableDeclaration = true) :
    n.get? Attr.inferredType.key = none := by
  obtain ⟨f, hf, -⟩ := hn.form
  obtain ⟨name, init, rfl⟩ := NodeForm.eq_declaration (hf ▸ h)
  rw [hf]
  cases init <;> rfl

theorem functionReturn_of_function (hn : n.Made) (h : n.flag Attr.functionDecl = true) :
    n.get? Attr.functionReturn.key = none := by
  obtain ⟨f, hf, -⟩ := hn.form
  obtain ⟨name, arguments, body, isAsync, rfl⟩ := NodeForm.eq_functionDeclaration (hf ▸ h)
  rw [hf]
  rfl

/-- An argument that is made is of unknown type. -/
theorem argumentType_of_argument (hn : n.Made) {name : String}
    (h : n.str? Attr.argumentName = some name) :
    n.get? Attr.argumentType.key = some unknownShape.toValue := by
  obtain ⟨f, hf, -⟩ := hn.form
  obtain ⟨init, rfl⟩ := NodeForm.eq_argument (hf ▸ h)
  rw [hf]
  cases init <;> rfl

end Node.Made

end TypeSketch
