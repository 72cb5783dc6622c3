import ScriptAudit.Source.Type

/-! What declarations and parameters bind. -/

namespace ScriptAudit.Source

open Syntax ScriptAudit.Source.Parser

def identifier : Parser Unit := do
  match ← peekWord? with
  | some w => if isReserved w then unexpected else wordLeaf .identifier
  | none => unexpected

namespace Rules

/-- A key of a member: a name, a string, a number, something computed, or a private name. -/
def propertyName (r : Rules) : Parser Unit := do
  match ← peekChar? with
  | some '[' =>
    let s ← begin
    expectMark "["
    r.expression .inner
    close "]"
    finish s .computedPropertyName
  | some '"' => string
  | some '\'' => string
  | some '#' =>
    let s ← begin
    expectMark "#"
    leaf (.other "private_property_identifier") s.row ("#" ++ (← takeWord))
  | some '.' => number
  | some c => if c.isDigit then number else wordLeaf .propertyIdentifier
  | none => unexpected

def withDefault (r : Rules) (target : Parser Unit) (kind : String) : Parser Unit := do
  let s ← begin
  target
  if ← isMark "=" then
    setRole .left
    expectMark "="
    inRole .right (r.expression .inner)
    finish s (.other kind)

def restPattern (r : Rules) : Parser Unit := node "rest_pattern" do
  expectMark "..."
  r.pattern

def arrayPattern (r : Rules) : Parser Unit := node "array_pattern" do
  expectMark "["
  listUpTo ']' do
    if ← isMark "..." then r.restPattern
    else if !(← isMark ",") then r.withDefault r.pattern "assignment_pattern"

def objectPatternMember (r : Rules) : Parser Unit := do
  if ← isMark "..." then r.restPattern
  else
    let shorthand ← do
      match ← peekWord? with
      | some w => pure (!isReserved w && !(← afterWord (isMark ":")))
      | none => pure false
    if shorthand then
      r.withDefault (wordLeaf (.other "shorthand_property_identifier_pattern"))
        "object_assignment_pattern"
    else node "pair_pattern" do
      inRole .key r.propertyName
      expectMark ":"
      inRole .value (r.withDefault r.pattern "assignment_pattern")

def patternRule (r : Rules) : Parser Unit := do
  match ← peekChar? with
  | some '[' => r.arrayPattern
  | some '{' => node "object_pattern" do
    expectMark "\x7b"
    listUpTo '}' do
      unless ← isMark "," do r.objectPatternMember
  | _ => identifier

def isParameterModifier : Parser Bool := do
  let some w ← peekWord? | return false
  if ["public", "private", "protected", "readonly", "override"].contains w then
    afterWord do
      let c ← peekChar?
      return (← atWord) || c == some '{' || c == some '['
  else return false

end Rules

end ScriptAudit.Source
