import TypeSketch.Program.Build
import TypeSketch.Proofs.Draft
import TypeSketch.Proofs.Program.Walk

/-!
# Programs — forms of nodes

The nodes that readers of source code make (`Node.Made`), by what they are made of.  Each has a
`NodeForm`, whose record is the node's (`Node.Made.form`), and what is asked of a node's attributes
is read off its form: a node with a mark has the form that carries the mark.

A node is made by steps, each of which may take a number. `makes_ofKind`, `makes_marked` and
`makes_holding` say what the first of them leaves, `makes_marked_map` and `makes_holding_map` what
the others add, and so the form of each node is computed once and for all (`Node.Made.form`).
-/

namespace TypeSketch

/-- A program made of the forms of nodes. -/
inductive Node.Made : Node → Prop
  | program {children : List Node} {n : Node} (hc : ∀ c ∈ children, Made c)
      (h : (Node.program children).Makes n) : Made n
  | block {children : List Node} {n : Node} (hc : ∀ c ∈ children, Made c)
      (h : (Node.block children).Makes n) : Made n
  | statement {inner n : Node} (hi : Made inner) (h : (Node.statement inner).Makes n) : Made n
  | identifier {name : String} {n : Node} (h : (Node.identifier name).Makes n) : Made n
  | this {n : Node} (h : Node.this.Makes n) : Made n
  | literal {text : String} {value : Json} {n : Node} (h : (Node.literal text value).Makes n) :
      Made n
  | declaration {name : String} {init : Option Node} {n : Node} (hi : ∀ i ∈ init, Made i)
      (h : (Node.declaration name init).Makes n) : Made n
  | declarations {items : List Node} {n : Node} (hc : ∀ c ∈ items, Made c)
      (h : (Node.declarations items).Makes n) : Made n
  | assign {left right n : Node} (hl : Made left) (hr : Made right)
      (h : (Node.assign left right).Makes n) : Made n
  | binary {op : String} {left right n : Node} (hl : Made left) (hr : Made right)
      (h : (Node.binary op left right).Makes n) : Made n
  | unary {op : String} {operand n : Node} (ho : Made operand)
      (h : (Node.unary op operand).Makes n) : Made n
  | returning {value : Option Node} {n : Node} (hv : ∀ v ∈ value, Made v)
      (h : (Node.returning value).Makes n) : Made n
  | member {object property n : Node} {computed : Bool} (ho : Made object) (hp : Made property)
      (h : (Node.member object property computed).Makes n) : Made n
  | call {callee n : Node} {arguments : List Node} (hc : Made callee)
      (ha : ∀ a ∈ arguments, Made a) (h : (Node.call callee arguments).Makes n) : Made n
  | argument {name : String} {init : Option Node} {n : Node} (hi : ∀ i ∈ init, Made i)
      (h : (Node.argument name init).Makes n) : Made n
  | functionDeclaration {name : String} {arguments : List Node} {body n : Node} {isAsync : Bool}
      (ha : ∀ a ∈ arguments, Made a) (hb : Made body)
      (h : (Node.functionDeclaration name arguments body isAsync).Makes n) : Made n
  | classDeclaration {name : String} {supers : List String} {children : List Node} {n : Node}
      (hc : ∀ c ∈ children, Made c) (h : (Node.classDeclaration name supers children).Makes n) :
      Made n
  | printing {content n : Node} (hc : Made content) (h : (Node.printing content).Makes n) : Made n
  | require {path : String} {key value : Option String} {n : Node}
      (h : (Node.require path key value).Makes n) : Made n
  | requires {path : String} {names : List (String × Option String)} {n : Node}
      (h : (Node.requires path names).Makes n) : Made n

/-- What a node is made of. -/
inductive NodeForm
  | program (children : List Node)
  | block (children : List Node)
  | statement (inner : Node)
  | identifier (name : String)
  | this
  | literal (text : String) (value : Json) (shape : Shape)
  | declaration (name : String) (init : Option Node)
  | declarations (items : List Node)
  | assign (left right : Node)
  | binary (op : String) (left right : Node)
  | unary (op : String) (operand : Node)
  | returning (value : Option Node)
  | member (object property : Node) (computed : Bool)
  | call (callee : Node) (arguments : List Node)
  | argument (name : String) (init : Option Node)
  | functionDeclaration (name : String) (arguments : List Node) (body : Node) (isAsync : Bool)
  | classDeclaration (name : String) (supers : List String) (children : List Node)
  | printing (content : Node)
  | require (path : String) (key value : Option String)
  | requires (items : List Node)

namespace NodeForm
open TypeSketch.Node (listOf unknownShape)

/-- The key that a node of the form is named after. -/
def kind : NodeForm → String
  | program _ => Attr.program.key
  | block _ => Attr.blockStatement.key
  | statement _ => Attr.statement.key
  | identifier _ => Attr.identifier.key
  | this => Attr.thisExpression.key
  | literal .. => Attr.literal.key
  | declaration .. => Attr.variableDeclaration.key
  | declarations _ => Attr.variableDeclarations.key
  | assign .. => Attr.assignExpression.key
  | binary .. | unary .. => Attr.operator.key
  | returning _ => Attr.returned.key
  | member _ _ true => Attr.computedMemberExpression.key
  | member _ _ false => Attr.staticMemberExpression.key
  | call .. => Attr.functionCall.key
  | argument .. => Attr.argumentName.key
  | functionDeclaration .. => Attr.functionDecl.key
  | classDeclaration .. => Attr.classDeclaration.key
  | printing _ => Attr.print.key
  | require .. => Attr.require.key
  | requires _ => Attr.requires.key

/-- An attribute, if there is a value for it. -/
def optional (f : Field) : Option Value → List (String × Value)
  | some v => [(f.key, v)]
  | none => []

/-- What a node of the form carries besides its kind. -/
def attributes : NodeForm → List (String × Value)
  | program cs => [(Attr.program.key, .bool true), (Attr.children.key, listOf cs)]
  | block cs => [(Attr.blockStatement.key, .bool true), (Attr.children.key, listOf cs)]
  | statement inner => [(Attr.statement.key, inner.toValue)]
  | identifier name => [(Attr.identifier.key, .str name)]
  | this => [(Attr.thisExpression.key, .bool true)]
  | literal text value shape =>
    [(Attr.literal.key, .bool true), (Attr.rawCode.key, .str text),
      (Attr.rawValue.key, .json value), (Attr.inferredType.key, shape.toValue)]
  | declaration name init =>
    [(Attr.variableDeclaration.key, .bool true), (Attr.variableDeclarationId.key, .str name)] ++
      optional Attr.defaultValue (init.map Node.toValue)
  | declarations items => [(Attr.variableDeclarations.key, listOf items)]
  | assign left right =>
    [(Attr.assignExpression.key, .bool true), (Attr.assignExpressionLeft.key, left.toValue),
      (Attr.assignExpressionRight.key, right.toValue)]
  | binary op left right =>
    [(Attr.operator.key, .str op), (Attr.operatorLeft.key, left.toValue),
      (Attr.operatorRight.key, right.toValue)]
  | unary op operand =>
    [(Attr.operator.key, .str op), (Attr.operatorBefore.key, operand.toValue)]
  | returning value => optional Attr.returned (value.map Node.toValue)
  | member object property true =>
    [(Attr.computedMemberExpression.key, .bool true),
      (Attr.memberExpressionObject.key, object.toValue),
      (Attr.memberExpressionProperty.key, property.toValue)]
  | member object property false =>
    [(Attr.staticMemberExpression.key, .bool true),
      (Attr.memberExpressionObject.key, object.toValue),
      (Attr.memberExpressionProperty.key, property.toValue)]
  | call callee arguments =>
    [(Attr.functionCall.key, .bool true), (Attr.callee.key, callee.toValue),
      (Attr.arguments.key, listOf arguments)]
  | argument name init =>
    [(Attr.argumentName.key, .str name), (Attr.argumentType.key, unknownShape.toValue)] ++
      optional Attr.defaultValue (init.map Node.toValue)
  | functionDeclaration name arguments body isAsync =>
    [(Attr.functionDecl.key, .bool true), (Attr.name.key, .str name),
      (Attr.isAsync.key, .bool isAsync), (Attr.arguments.key, listOf arguments),
      (Attr.functionBody.key, body.toValue)]
  | classDeclaration name supers children =>
    [(Attr.classDeclaration.key, .bool true), (Attr.name.key, .str name),
      (Attr.superClasses.key, .list (supers.map .str)), (Attr.children.key, listOf children)]
  | printing content => [(Attr.print.key, .bool true), (Attr.children.key, listOf [content])]
  | require path key value =>
    [(Attr.require.key, .bool true), (Attr.requirePath.key, .str path)] ++
      optional Attr.requireKey (key.map .str) ++ optional Attr.requireValue (value.map .str)
  | requires items => [(Attr.requires.key, listOf items)]

/-- The record of a node of the form. -/
def record (f : NodeForm) : Record Value := ⟨[(Attr.kind.key, .str f.kind)], f.attributes, false⟩

/-- The node of the form with a number. -/
def node (f : NodeForm) (id : Nat) : Node := ⟨f.record, id⟩

/-- The nodes that a node of the form is made of. -/
def children : NodeForm → List Node
  | program cs | block cs | declarations cs | classDeclaration _ _ cs | requires cs => cs
  | statement n | unary _ n | printing n => [n]
  | identifier _ | this | literal .. | require .. => []
  | declaration _ init | returning init | argument _ init => init.toList
  | assign left right | binary _ left right | member left right _ => [left, right]
  | call callee arguments => callee :: arguments
  | functionDeclaration _ arguments body _ => arguments ++ [body]

/-! ### What the makers of nodes make -/

/-- A node of a kind that carries one attribute. -/
def single (key : String) (v : Value) (id : Nat) : Node :=
  ⟨⟨[(Attr.kind.key, .str key)], [(key, v)], false⟩, id⟩

theorem makes_ofKind {k : String} {n : Node} (h : (Node.ofKind k).Makes n) :
    ∃ id, n = ⟨⟨[(Attr.kind.key, .str k)], [], false⟩, id⟩ := by
  obtain ⟨id, -, h⟩ := Draft.makes_bind h
  exact ⟨id, Draft.makes_pure h⟩

theorem set_single {key : String} (hk : key ≠ Attr.kind.key) (v : Value) :
    (Record.mk [(Attr.kind.key, .str key)] [] false).set key v =
      ⟨[(Attr.kind.key, .str key)], [(key, v)], false⟩ := by
  have hb : (key == Attr.kind.key) = false := by simpa using hk
  simp [Record.set, Assoc.has, Assoc.put, List.lookup_cons, hb]

/-- A marked node carries its mark only. -/
theorem makes_marked {key : String} (hk : key ≠ Attr.kind.key) {n : Node}
    (h : (Node.marked (.flag key)).Makes n) : ∃ id, n = single key (.bool true) id := by
  obtain ⟨m, hm, h⟩ := Draft.makes_bind h
  obtain ⟨id, rfl⟩ := makes_ofKind hm
  refine ⟨id, (Draft.makes_pure h).trans ?_⟩
  rw [single, ← set_single hk]
  rfl

/-- A node that holds a value carries that only. -/
theorem makes_holding {f : Field} (hk : f.key ≠ Attr.kind.key) {v : Value} {n : Node}
    (h : (Node.holding f v).Makes n) : ∃ id, n = single f.key (f.entry v).stored id := by
  obtain ⟨m, hm, h⟩ := Draft.makes_bind h
  obtain ⟨id, rfl⟩ := makes_ofKind hm
  refine ⟨id, (Draft.makes_pure h).trans ?_⟩
  rw [single, ← set_single hk]
  rfl

/-- A node made by adding to a marked one. -/
theorem makes_marked_map {key : String} {g : Node → Node} {n : Node}
    (h : (do return g (← Node.marked (.flag key))).Makes n) (hk : key ≠ Attr.kind.key) :
    ∃ id, n = g (single key (.bool true) id) := by
  obtain ⟨m, hm, h⟩ := Draft.makes_bind h
  obtain ⟨id, rfl⟩ := makes_marked hk hm
  exact ⟨id, Draft.makes_pure h⟩

/-- A node made by adding to one that holds a value. -/
theorem makes_holding_map {f : Field} {v : Value} {g : Node → Node} {n : Node}
    (h : (do return g (← Node.holding f v)).Makes n) (hk : f.key ≠ Attr.kind.key) :
    ∃ id, n = g (single f.key (f.entry v).stored id) := by
  obtain ⟨m, hm, h⟩ := Draft.makes_bind h
  obtain ⟨id, rfl⟩ := makes_holding hk hm
  exact ⟨id, Draft.makes_pure h⟩

/-- A literal carries its text, its value and the shape that the value implies. -/
theorem makes_literal {text : String} {value : Json} {n : Node}
    (h : (Node.literal text value).Makes n) :
    ∃ shape, (Shape.ofSample value "").Makes shape ∧
      n.toRecord = (literal text value shape).record := by
  obtain ⟨shape, hs, h⟩ := Draft.makes_bind h
  obtain ⟨id, rfl⟩ := makes_marked_map h (by decide)
  exact ⟨shape, hs, rfl⟩

end NodeForm

/-- Every node that is made has a form, made of nodes that are made, and the shape of a literal is
the one its value implies. -/
theorem Node.Made.form {n : Node} (hn : n.Made) :
    ∃ f : NodeForm, n.toRecord = f.record ∧ (∀ c ∈ f.children, c.Made) ∧
      ∀ text value shape, f = .literal text value shape →
        (Shape.ofSample value "").Makes shape := by
  -- a maker adds attributes to a node of a kind, and what it ends with is the record of the form
  cases hn with
  | program hc h =>
    obtain ⟨id, rfl⟩ := NodeForm.makes_marked_map h (by decide)
    exact ⟨.program _, rfl, hc, nofun⟩
  | block hc h =>
    obtain ⟨id, rfl⟩ := NodeForm.makes_marked_map h (by decide)
    exact ⟨.block _, rfl, hc, nofun⟩
  | statement hi h =>
    obtain ⟨id, rfl⟩ := NodeForm.makes_holding (by decide) h
    exact ⟨.statement _, rfl, by simpa [NodeForm.children] using hi, nofun⟩
  | identifier h =>
    obtain ⟨id, rfl⟩ := NodeForm.makes_holding (by decide) h
    exact ⟨.identifier _, rfl, nofun, nofun⟩
  | this h =>
    obtain ⟨id, rfl⟩ := NodeForm.makes_marked (by decide) h
    exact ⟨.this, rfl, nofun, nofun⟩
  | literal h =>
    obtain ⟨shape, hs, hn⟩ := NodeForm.makes_literal h
    refine ⟨_, hn, nofun, fun text value shape he => ?_⟩
    cases he
    exact hs
  | @declaration name init n hi h =>
    obtain ⟨id, rfl⟩ := NodeForm.makes_marked_map h (by decide)
    refine ⟨.declaration name init, ?_, by simpa [NodeForm.children] using hi, nofun⟩
    cases init <;> rfl
  | declarations hc h =>
    obtain ⟨id, rfl⟩ := NodeForm.makes_holding (by decide) h
    exact ⟨.declarations _, rfl, hc, nofun⟩
  | assign hl hr h =>
    obtain ⟨id, rfl⟩ := NodeForm.makes_marked_map h (by decide)
    exact ⟨.assign _ _, rfl, by simp [NodeForm.children, hl, hr], nofun⟩
  | binary hl hr h =>
    obtain ⟨id, rfl⟩ := NodeForm.makes_holding_map h (by decide)
    exact ⟨.binary _ _ _, rfl, by simp [NodeForm.children, hl, hr], nofun⟩
  | unary ho h =>
    obtain ⟨id, rfl⟩ := NodeForm.makes_holding_map h (by decide)
    exact ⟨.unary _ _, rfl, by simpa [NodeForm.children] using ho, nofun⟩
  | @returning value n hv h =>
    refine ⟨.returning value, ?_, by simpa [NodeForm.children] using hv, nofun⟩
    cases value with
    | some v => obtain ⟨id, rfl⟩ := NodeForm.makes_holding (by decide) h; rfl
    | none => obtain ⟨id, rfl⟩ := NodeForm.makes_ofKind h; rfl
  | @member object property n computed ho hp h =>
    refine ⟨.member object property computed, ?_, by simp [NodeForm.children, ho, hp], nofun⟩
    cases computed <;> obtain ⟨id, rfl⟩ := NodeForm.makes_marked_map h (by decide) <;> rfl
  | call hc ha h =>
    obtain ⟨id, rfl⟩ := NodeForm.makes_marked_map h (by decide)
    exact ⟨.call _ _, rfl, by simpa [NodeForm.children] using ⟨hc, ha⟩, nofun⟩
  | @argument name init n hi h =>
    obtain ⟨id, rfl⟩ := NodeForm.makes_holding_map h (by decide)
    refine ⟨.argument name init, ?_, by simpa [NodeForm.children] using hi, nofun⟩
    cases init <;> rfl
  | @functionDeclaration name arguments body n isAsync ha hb h =>
    obtain ⟨id, rfl⟩ := NodeForm.makes_marked_map h (by decide)
    refine ⟨.functionDeclaration name arguments body isAsync, rfl, ?_, nofun⟩
    intro c hc
    rcases List.mem_append.mp hc with hc | hc
    · exact ha c hc
    · exact List.mem_singleton.mp hc ▸ hb
  | @classDeclaration name supers children n hc h =>
    obtain ⟨id, rfl⟩ := NodeForm.makes_marked_map h (by decide)
    exact ⟨.classDeclaration name supers children, rfl, hc, nofun⟩
  | printing hc h =>
    obtain ⟨id, rfl⟩ := NodeForm.makes_marked_map h (by decide)
    exact ⟨.printing _, rfl, by simpa [NodeForm.children] using hc, nofun⟩
  | @require path key value n h =>
    obtain ⟨id, rfl⟩ := NodeForm.makes_marked_map h (by decide)
    refine ⟨.require path key value, ?_, nofun, nofun⟩
    cases key <;> cases value <;> rfl
  | requires h =>
    obtain ⟨items, hi, h⟩ := Draft.makes_bind h
    obtain ⟨id, rfl⟩ := NodeForm.makes_holding (by decide) h
    refine ⟨.requires items, rfl, fun c hc => ?_, nofun⟩
    obtain ⟨⟨key, value⟩, -, hmade⟩ := Draft.exists_of_makes_mapM hi c hc
    exact .require hmade

end TypeSketch
