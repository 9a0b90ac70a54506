import TypeSketch.Inference.Board
import TypeSketch.Shape.Build

/-!
# Rules of inference

Each rule looks at one sort of node and states facts about it: the shape of its path, paths that
have one shape, and where the shape of a path goes.
-/

namespace TypeSketch

/-- A rule, and the nodes it speaks of. -/
structure Rule where
  name : String
  accepts : Node → Bool
  facts : Scopes → Scope → Node → Except Error Facts

namespace Rule

/-- A declared variable has the shape of its initial value, and gets its shape. -/
def variableDeclaration : Rule where
  name := "variable_declaration"
  accepts n := n.flag Attr.variableDeclaration
  facts env scope n :=
    let site := env.site n scope
    let facts := ({} : Facts).callBack site.path ⟨n.id, Attr.inferredType⟩
    match n.node? Attr.defaultValue with
    | some init => return facts.equate site (env.site init scope)
    | none => return facts

/-- Both sides of an assignment have one shape. -/
def assignExpression : Rule where
  name := "assign_expression"
  accepts n := n.flag Attr.assignExpression
  facts env scope n :=
    match n.node? Attr.assignExpressionLeft, n.node? Attr.assignExpressionRight with
    | some left, some right =>
      return ({} : Facts).equate (env.site left scope) (env.site right scope)
    | _, _ => return {}

/-- A return has the shape of its value. -/
def returning : Rule where
  name := "return"
  accepts n := (n.node? Attr.returned).isSome
  facts env scope n :=
    match n.node? Attr.returned with
    | some value => return ({} : Facts).equate (env.site n scope) (env.site value scope)
    | none => return {}

/-- The returns with a value in a function body that belong to no function inside it. -/
def returnsOf (body : Node) : List Node :=
  (body.tree.visits (·.flag Attr.functionDecl)).filter fun n =>
    !n.flag Attr.functionDecl && (n.node? Attr.returned).isSome

/-- A function has the shape of its body, which has that of its returns. Function and arguments get
their shapes. -/
def functionDeclaration : Rule where
  name := "function_decl"
  accepts n := n.flag Attr.functionDecl
  facts env scope n :=
    let site := env.site n scope
    let facts := ({} : Facts).callBack site.path ⟨n.id, Attr.functionReturn⟩
    let facts := (n.nodes Attr.arguments).foldl (fun (facts : Facts) argument =>
      let declared := env.site argument scope
      (facts.addNode declared).callBack declared.path ⟨argument.id, Attr.argumentType⟩) facts
    match n.node? Attr.functionBody with
    | none => return facts
    | some body =>
      let bodySite := env.site body scope
      return (returnsOf body).foldl
        (fun (facts : Facts) r => facts.equate bodySite (env.site r scope))
        (facts.equate site bodySite)

/-- Operators that compare. -/
def comparisons : List String := ["===", "==", ">=", "<=", "!=", "!==", ">", "<"]

/-- Operators that calculate. -/
def arithmetic : List String := ["+", "-", "*", "/", "%"]

/-- A comparison is a truth value and its operands have one shape; a calculation has the shape of
both operands. -/
def operator : Rule where
  name := "operator"
  accepts n := n.has Attr.operator
  facts env scope n :=
    match n.node? Attr.operatorLeft, n.node? Attr.operatorRight with
    | some left, some right => do
      let op := (n.str? Attr.operator).getD ""
      let site := env.site n scope
      let left := env.site left scope
      let right := env.site right scope
      if comparisons.contains op then return (← ({} : Facts).know site.path .bool).equate left right
      else if arithmetic.contains op then return (({} : Facts).equate site left).equate site right
      else return {}
    | _, _ => return {}

/-- The shape of a literal is the one its value implies. -/
def literal : Rule where
  name := "literal"
  accepts n := n.flag Attr.literal
  facts env scope n :=
    match n.shape? Attr.inferredType with
    | some s => ({} : Facts).know (env.site n scope).path s
    | none => return {}

/-- The relation between an object, the key of a member and the member. -/
def memberRelation (object key member : String) : Relation :=
  ⟨"member_expression", [("obj", object), ("prop", key), ("member_expr", member)], some .member,
    false⟩

/-- The relation between an object and its length. -/
def lengthRelation (object member : String) : Relation :=
  ⟨"length", [("obj", object), ("member_expr", member)], some .length, false⟩

/-- A member stands in a relation with its object and its key. A key that is written out has a path
below that of the object, and the length of an object is a relation of its own. -/
def memberExpression : Rule where
  name := "member_expression"
  accepts n := n.flag Attr.staticMemberExpression || n.flag Attr.computedMemberExpression
  facts env scope n :=
    match n.node? Attr.memberExpressionObject, n.node? Attr.memberExpressionProperty with
    | some object, some property =>
      let site := env.site n scope
      let object := env.site object scope
      let related (key : Site) : Facts :=
        (((({} : Facts).addNode object).addNode key).addNode site).relate
          (memberRelation object.path key.path site.path)
      let written? :=
        if n.flag Attr.computedMemberExpression then none else property.str? Attr.identifier
      match written? with
      | some name =>
        if name == "length" then
          return (({} : Facts).addNode object).relate (lengthRelation object.path site.path)
        else return related ⟨object.path ++ "." ++ name, property.id⟩
      | none =>
        if property.flag Attr.literal || property.has Attr.identifier then
          return related (env.site property scope)
        else throw (.memberExpression ("unsupported property " ++ property.toRecord.text))
    | _, _ => throw (.memberExpression ("incomplete node " ++ n.toRecord.text))

/-- Every rule, in the order in which they speak of a node. -/
def standard : List Rule :=
  [variableDeclaration, assignExpression, returning, memberExpression, operator,
    functionDeclaration, literal]

end Rule

end TypeSketch
