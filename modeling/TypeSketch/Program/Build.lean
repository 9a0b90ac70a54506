import TypeSketch.Program.Node
import TypeSketch.Shape.Sample

/-!
# Making programs

The forms of nodes that readers of source code produce. A node takes its number when it is made,
after the nodes it is made of.
-/

namespace TypeSketch.Node

/-- Nodes as a list value. -/
def listOf (nodes : List Node) : Value := .list (nodes.map toValue)

/-- A node of a kind that is marked with the attribute of the same name. -/
def marked (f : Field) : Draft Node := return (← ofKind f.key).adding f.present

/-- A node of a kind that carries the attribute of the same name. -/
def holding (f : Field) (v : Value) : Draft Node := return (← ofKind f.key).adding (f.entry v)

/-- The node with an attribute, if there is a value for it. -/
def addingSome (n : Node) (f : Field) : Option Value → Node
  | some v => n.adding (f.entry v)
  | none => n

def program (children : List Node) : Draft Node :=
  return (← marked Attr.program).adding (Attr.children.entry (listOf children))

def block (children : List Node) : Draft Node :=
  return (← marked Attr.blockStatement).adding (Attr.children.entry (listOf children))

def statement (inner : Node) : Draft Node := holding Attr.statement inner.toValue

def identifier (name : String) : Draft Node := holding Attr.identifier (.str name)

def this : Draft Node := marked Attr.thisExpression

/-- A literal with its text, its value, and the shape that the value implies. -/
def literal (text : String) (value : Json) : Draft Node := do
  let shape ← Shape.ofSample value ""
  let n ← marked Attr.literal
  return ((n.adding (Attr.rawCode.entry (.str text))).adding
    (Attr.rawValue.entry (.json value))).adding (Attr.inferredType.entry shape.toValue)

def declaration (name : String) (init : Option Node) : Draft Node := do
  let n ← marked Attr.variableDeclaration
  return (n.adding (Attr.variableDeclarationId.entry (.str name))).addingSome Attr.defaultValue
    (init.map toValue)

def declarations (declarations : List Node) : Draft Node :=
  holding Attr.variableDeclarations (listOf declarations)

def assign (left right : Node) : Draft Node := do
  let n ← marked Attr.assignExpression
  return (n.adding (Attr.assignExpressionLeft.entry left.toValue)).adding
    (Attr.assignExpressionRight.entry right.toValue)

/-- An operator between two operands. -/
def binary (op : String) (left right : Node) : Draft Node := do
  let n ← holding Attr.operator (.str op)
  return (n.adding (Attr.operatorLeft.entry left.toValue)).adding
    (Attr.operatorRight.entry right.toValue)

/-- An operator before its operand. -/
def unary (op : String) (operand : Node) : Draft Node :=
  return (← holding Attr.operator (.str op)).adding (Attr.operatorBefore.entry operand.toValue)

/-- A return. Without a value it takes no part in inference. -/
def returning : Option Node → Draft Node
  | some value => holding Attr.returned value.toValue
  | none => ofKind Attr.returned.key

/-- A member of an object: `object.property`, or `object[property]` if it is computed. -/
def member (object property : Node) (computed : Bool) : Draft Node := do
  let n ← marked (if computed then Attr.computedMemberExpression else Attr.staticMemberExpression)
  return (n.adding (Attr.memberExpressionObject.entry object.toValue)).adding
    (Attr.memberExpressionProperty.entry property.toValue)

def call (callee : Node) (arguments : List Node) : Draft Node := do
  let n ← marked Attr.functionCall
  return (n.adding (Attr.callee.entry callee.toValue)).adding
    (Attr.arguments.entry (listOf arguments))

/-- The shape of an argument before inference. -/
def unknownShape : Shape := (Shape.allValue.copy.adding Trait.notInferredType.present).freeze

/-- An argument of a function, of unknown shape. -/
def argument (name : String) (init : Option Node) : Draft Node := do
  let n ← holding Attr.argumentName (.str name)
  return (n.adding (Attr.argumentType.entry unknownShape.toValue)).addingSome Attr.defaultValue
    (init.map toValue)

def functionDeclaration (name : String) (arguments : List Node) (body : Node) (isAsync : Bool) :
    Draft Node := do
  let n ← marked Attr.functionDecl
  return (((n.adding (Attr.name.entry (.str name))).adding
    (Attr.isAsync.entry (.bool isAsync))).adding
    (Attr.arguments.entry (listOf arguments))).adding (Attr.functionBody.entry body.toValue)

def classDeclaration (name : String) (supers : List String) (children : List Node) :
    Draft Node := do
  let n ← marked Attr.classDeclaration
  return ((n.adding (Attr.name.entry (.str name))).adding
    (Attr.superClasses.entry (.list (supers.map .str)))).adding
    (Attr.children.entry (listOf children))

def printing (content : Node) : Draft Node :=
  return (← marked Attr.print).adding (Attr.children.entry (listOf [content]))

def require (path : String) (key value : Option String) : Draft Node := do
  let n ← marked Attr.require
  return ((n.adding (Attr.requirePath.entry (.str path))).addingSome Attr.requireKey
    (key.map .str)).addingSome Attr.requireValue (value.map .str)

/-- One `require` for each name, all from one path. -/
def requires (path : String) (names : List (String × Option String)) : Draft Node := do
  let items ← names.mapM fun (key, value) => require path (some key) value
  holding Attr.requires (listOf items)

end TypeSketch.Node
