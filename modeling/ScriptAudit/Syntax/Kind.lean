/-! Kinds of syntax nodes and the roles in which children stand to their parents. What the audit
tells apart has a constructor; everything else is kept by name. -/

namespace ScriptAudit.Syntax

inductive Kind where
  | functionDeclaration
  | generatorFunctionDeclaration
  | functionExpression
  | function
  | generatorFunction
  | arrowFunction
  | methodDefinition
  | classDeclaration
  | abstractClassDeclaration
  | classExpression
  | classBody
  | parenthesized
  | identifier
  | this
  | memberExpression
  | propertyIdentifier
  | computedPropertyName
  | string
  | stringFragment
  | templateString
  | callExpression
  | awaitExpression
  | forInStatement
  | variableDeclarator
  | pair
  | fieldDefinition
  | publicFieldDefinition
  | assignmentExpression
  | async
  | await
  | get
  | set
  | comment
  | error
  | other (name : String)
deriving DecidableEq, Repr

namespace Kind

def name : Kind → String
  | functionDeclaration => "function_declaration"
  | generatorFunctionDeclaration => "generator_function_declaration"
  | functionExpression => "function_expression"
  | function => "function"
  | generatorFunction => "generator_function"
  | arrowFunction => "arrow_function"
  | methodDefinition => "method_definition"
  | classDeclaration => "class_declaration"
  | abstractClassDeclaration => "abstract_class_declaration"
  | classExpression => "class"
  | classBody => "class_body"
  | parenthesized => "parenthesized_expression"
  | identifier => "identifier"
  | this => "this"
  | memberExpression => "member_expression"
  | propertyIdentifier => "property_identifier"
  | computedPropertyName => "computed_property_name"
  | string => "string"
  | stringFragment => "string_fragment"
  | templateString => "template_string"
  | callExpression => "call_expression"
  | awaitExpression => "await_expression"
  | forInStatement => "for_in_statement"
  | variableDeclarator => "variable_declarator"
  | pair => "pair"
  | fieldDefinition => "field_definition"
  | publicFieldDefinition => "public_field_definition"
  | assignmentExpression => "assignment_expression"
  | async => "async"
  | await => "await"
  | get => "get"
  | set => "set"
  | comment => "comment"
  | error => "ERROR"
  | other name => name

/-- The kinds that have a constructor of their own. -/
def known : List Kind := [
  functionDeclaration, generatorFunctionDeclaration, functionExpression, function,
  generatorFunction, arrowFunction, methodDefinition, classDeclaration,
  abstractClassDeclaration, classExpression, classBody, parenthesized, identifier, this,
  memberExpression, propertyIdentifier, computedPropertyName, string, stringFragment,
  templateString, callExpression, awaitExpression, forInStatement, variableDeclarator, pair,
  fieldDefinition, publicFieldDefinition, assignmentExpression, async, await, get, set,
  comment, error]

def ofName (s : String) : Kind := (known.find? fun k => k.name = s).getD (other s)

def isFunction : Kind → Bool
  | functionDeclaration | generatorFunctionDeclaration | functionExpression | function
  | generatorFunction | arrowFunction | methodDefinition => true
  | _ => false

def isClass : Kind → Bool
  | classDeclaration | abstractClassDeclaration | classExpression => true
  | _ => false

end Kind

inductive Role where
  | name
  | body
  | callee
  | arguments
  | object
  | property
  | key
  | value
  | left
  | right
  | other (word : String)
deriving DecidableEq, Repr

namespace Role

def text : Role → String
  | name => "name"
  | body => "body"
  | callee => "function"
  | arguments => "arguments"
  | object => "object"
  | property => "property"
  | key => "key"
  | value => "value"
  | left => "left"
  | right => "right"
  | other word => word

def known : List Role :=
  [name, body, callee, arguments, object, property, key, value, left, right]

def ofText (s : String) : Role := (known.find? fun r => r.text = s).getD (other s)

end Role

end ScriptAudit.Syntax
