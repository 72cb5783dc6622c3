import ScriptAudit.Source.Pattern

/-! Arguments, decorators, parameters and functions. -/

namespace ScriptAudit.Source

open Syntax ScriptAudit.Source.Parser

namespace Rules

def spread (r : Rules) : Parser Unit := node "spread_element" do
  expectMark "..."
  r.expression .inner

/-- Expressions up to a closing mark, which may be missing; between commas there may be nothing. -/
def elements (r : Rules) (closing : String) : Parser Unit := do
  repeatWhile do
    if (← isMark closing) || (← isMark ",") || (← isMark ";") then pure ()
    else if ← isMark "..." then r.spread
    else r.expression .inner
    takeMark? ","
  close closing

/-- Arguments. An opening parenthesis with nothing behind it is not made up for. -/
def arguments (r : Rules) : Parser Unit := node "arguments" do
  expectMark "("
  if ← isMark ";" then unexpected
  r.elements ")"

def parenthesized (r : Rules) : Parser Unit := do
  let s ← begin
  expectMark "("
  r.sequence .inner
  r.optionalAnnotation
  close ")"
  finish s .parenthesized

def memberName : Parser Unit := do
  if ← isMark "#" then
    let s ← begin
    expectMark "#"
    leaf (.other "private_property_identifier") s.row ("#" ++ (← takeWord))
  else wordLeaf .propertyIdentifier

def decorator (r : Rules) : Parser Unit := node "decorator" do
  expectMark "@"
  let s ← begin
  if ← isMark "(" then r.parenthesized
  else
    identifier
    repeatWhile do
      if ← isMark "." then
        setRole .object
        expectMark "."
        inRole .property memberName
        finish s .memberExpression
        return true
      else if (← isMark "(") || (r.dialect.types && (← peekChar?) == some '<') then
        setRole .callee
        unless ← isMark "(" do r.typeArguments
        inRole .arguments r.arguments
        finish s .callExpression
        return true
      else return false

def decorators (r : Rules) : Parser Unit :=
  repeatWhile do
    if ← isMark "@" then
      r.decorator
      return true
    else return false

def plainParameter (r : Rules) : Parser Unit := do
  if ← isMark "..." then r.restPattern
  else r.withDefault r.pattern "assignment_pattern"

def typedParameter (r : Rules) : Parser Unit := node "required_parameter" do
  r.decorators
  repeatWhile do
    if ← isParameterModifier then
      discard takeWord
      return true
    else return false
  if ← isMark "..." then r.restPattern
  else if ← isWord "this" then wordLeaf .this
  else r.pattern
  discard (takeMark? "?")
  r.optionalAnnotation
  if ← isMark "=" then r.initializer .inner

def parametersRule (r : Rules) : Parser Unit := node "formal_parameters" do
  expectMark "("
  repeatWhile do
    if ← isMark ")" then return false
    else
      if r.dialect.types then r.typedParameter else r.plainParameter
      takeMark? ","
  close ")"

def body (r : Rules) : Parser Unit := inRole .body r.block

/-- A function that is written with its keyword, up to its body; tells whether it has a name and
whether it is a generator. -/
def functionHead (r : Rules) : Parser (Bool × Bool) := do
  if ← isWord "async" then keyword .async
  expectWord "function"
  let generator ← takeMark? "*"
  let named ← atWord
  if named then inRole .name identifier
  r.signature
  return (named, generator)

def functionExpression (r : Rules) : Parser Unit := do
  let s ← begin
  let (_, generator) ← r.functionHead
  r.body
  finish s (if generator then .generatorFunction else .functionExpression)

def methodRest (r : Rules) (s : Start) : Parser Unit := do
  r.signature
  r.body
  finish s .methodDefinition

end Rules

end ScriptAudit.Source
