import TypeSketch.Record.Field

/-!
# Attributes

The fields that nodes of a program carry.
-/

namespace TypeSketch.Attr

def kind : Field := .str "kind"
def name : Field := .str "name"
def children : Field := .list "children"
def statement : Field := .any "statement"
def program : Field := .flag "program"
def directive : Field := .any "directive"
def blockStatement : Field := .flag "block_statement"
def expression : Field := .any "expression"

/-! ### Declarations -/

def classDeclaration : Field := .flag "class_declaration"
def superClasses : Field := .list "super_class"
def functionDecl : Field := .flag "function_decl"
def functionBody : Field := .node "function_body"
def functionReturn : Field := .shape "function_return"
def isAsync : Field := .flag "async"
def arguments : Field := .list "arguments"
def argument : Field := .flag "argument"
def argumentName : Field := .str "argument_name"
def argumentType : Field := .shape "argument_type"
def defaultValue : Field := .any "default_value"
def variableDeclarations : Field := .list "variable_declarations"
def variableDeclaration : Field := .flag "variable_declaration"
def variableDeclarationId : Field := .str "variable_declaration_id"
def mutable : Field := .flag "mutable"

/-! ### Control flow -/

def returned : Field := .any "return"
def whileLoop : Field := .any "while_loop"
def cForLoop : Field := .flag "c_for_loop"
def cForLoopInit : Field := .any "c_for_loop_init"
def cForLoopTest : Field := .any "c_for_loop_test"
def cForLoopUpdate : Field := .any "c_for_loop_update"
def testExpression : Field := .any "test_expression"
def ifClauses : Field := .flag "if_clauses"
def ifClause : Field := .flag "if_clause"
def elseIfClause : Field := .flag "else_if_clause"
def elseClause : Field := .flag "else_clause"
def consequence : Field := .any "consequence"
def alternative : Field := .any "alternative"
def breakStatement : Field := .flag "break_statement"
def continueStatement : Field := .flag "continue_statement"
def throwStatement : Field := .any "throw_statement"
def tryStatement : Field := .list "try_statement"
def catchClauses : Field := .list "catch_clauses"
def catchClause : Field := .flag "catch_clause"
def finallyClause : Field := .list "finally_statement"

/-! ### Expressions -/

def functionCall : Field := .flag "function_call"
def callee : Field := .any "callee"
def literal : Field := .flag "literal"
def rawCode : Field := .str "raw_code"
def rawValue : Field := .json "raw_value"
def identifier : Field := .str "identifier"
def thisExpression : Field := .flag "this_expression"
def superExpression : Field := .flag "super_expression"
def operator : Field := .str "operator"
def operatorLeft : Field := .any "operator_left"
def operatorMiddle : Field := .any "operator_middle"
def operatorRight : Field := .any "operator_right"
def operatorBefore : Field := .any "operator_single_prefix"
def operatorAfter : Field := .any "operator_single_postfix"
def staticMemberExpression : Field := .flag "static_member_expression"
def computedMemberExpression : Field := .flag "computed_member_expression"
def memberExpressionObject : Field := .node "member_expression_object"
def memberExpressionProperty : Field := .node "member_expression_property"
def assignExpression : Field := .flag "assign_expression"
def assignExpressionLeft : Field := .node "assign_expression_left"
def assignExpressionRight : Field := .node "assign_expression_right"
def awaitExpression : Field := .any "await_expression"
def newExpression : Field := .flag "new_expression"
def conditionalExpression : Field := .flag "conditional_expression"
def objectProperties : Field := .list "object_properties"
def objectProperty : Field := .flag "object_property"
def keyName : Field := .str "key"
def value : Field := .any "value"
def arrayElements : Field := .list "array_elements"

/-! ### Modules -/

def print : Field := .flag "print"
def requires : Field := .list "requires"
def require : Field := .flag "require"
def requirePath : Field := .str "require_path"
def requireKey : Field := .str "require_key"
def requireValue : Field := .str "require_value"

/-! ### Inference output -/

def inferredType : Field := .shape "inferred_type"
def globalPath : Field := .str "global_path"

/-! ### The catalogue -/

/-- Every attribute. -/
def all : List Field := [
  kind, name, children, statement, program, directive, blockStatement, expression,
  classDeclaration, superClasses, functionDecl, functionBody, functionReturn, isAsync, arguments,
  argument, argumentName, argumentType, defaultValue, variableDeclarations, variableDeclaration,
  variableDeclarationId, mutable, returned, whileLoop, cForLoop, cForLoopInit, cForLoopTest,
  cForLoopUpdate, testExpression, ifClauses, ifClause, elseIfClause, elseClause, consequence,
  alternative, breakStatement, continueStatement, throwStatement, tryStatement, catchClauses,
  catchClause, finallyClause, functionCall, callee, literal, rawCode, rawValue, identifier,
  thisExpression, superExpression, operator, operatorLeft, operatorMiddle, operatorRight,
  operatorBefore, operatorAfter, staticMemberExpression, computedMemberExpression,
  memberExpressionObject, memberExpressionProperty, assignExpression, assignExpressionLeft,
  assignExpressionRight, awaitExpression, newExpression, conditionalExpression, objectProperties,
  objectProperty, keyName, value, arrayElements, print, requires, require, requirePath,
  requireKey, requireValue, inferredType, globalPath]

/-- The attribute with a key. -/
def find? (key : String) : Option Field := all.find? (·.key == key)

theorem all_keys_nodup : (all.map (·.key)).Nodup := by decide

end TypeSketch.Attr
