import ScriptAudit.Source.Callable

/-! Classes and their members. -/

namespace ScriptAudit.Source

open Syntax ScriptAudit.Source.Parser

namespace Rules

/-- Words that may stand before a member; in plain scripts there are fewer. -/
def memberModifiers (d : Dialect) : List String :=
  ["static", "async", "get", "set"] ++
    if d.types then
      ["public", "private", "protected", "abstract", "override", "readonly", "declare", "accessor"]
    else []

/-- Whether the next word is a modifier rather than the name of the member: a name follows it, and
no line break that ends the member. -/
def isMemberModifier (d : Dialect) : Parser Bool := do
  let some w ← peekWord? | return false
  if (memberModifiers d).contains w then
    afterWord do
      let g ← ahead
      return startsName g.rest && !(g.newline && !continues d.types false g.rest)
  else return false

/-- In plain scripts, these two words before a line break count as the first of them alone. -/
def isStaticGetLine (d : Dialect) : Parser Bool := do
  if d.types || !(← isWord "static") then return false
  afterWord do
    if ← isWord "get" then
      afterWord do return ((← get).rest.takeWhile isSpace).contains '\n'
    else return false

def modifier (w : String) : Parser Unit :=
  match w with
  | "async" => keyword .async
  | "get" => keyword .get
  | "set" => keyword .set
  | _ => discard takeWord

def modifiers (d : Dialect) : Parser Unit := do
  repeatWhile do
    if ← isStaticGetLine d then
      discard takeWord
      discard takeWord
      return true
    else if ← isMemberModifier d then
      modifier ((← peekWord?).getD "")
      return true
    else return false
  discard (takeMark? "*")

def endMember (r : Rules) (inType : Bool) : Parser Unit := do
  unless ← pure r.dialect.types <&&> takeMark? "," do semicolon r.dialect inType

def staticBlock (r : Rules) : Parser Unit := node "class_static_block" do
  expectWord "static"
  r.body

def fieldRest (r : Rules) (s : Start) : Parser Unit := do
  setRole (if r.dialect.types then .name else .property)
  if r.dialect.types then
    unless ← takeMark? "?" do discard (takeMark? "!")
  r.optionalAnnotation
  let valued ← isMark "="
  if valued then r.initializer .statement
  finish s (if r.dialect.types then .publicFieldDefinition else .fieldDefinition)
  r.endMember !valued

/-- A method or a field from its modifiers on. Without a body, a method is only announced. -/
def methodOrField (r : Rules) (s : Start) : Parser Unit := do
  modifiers r.dialect
  r.propertyName
  let optional ←
    if r.dialect.types then
      succeeds do
        expectMark "?"
        unless (← isMark "(") || (← isMark "<") do unexpected
    else pure false
  if optional || (← isMark "(") || (r.dialect.types && (← isMark "<")) then
    setRole .name
    r.signature
    if r.dialect.types && !(← isMark "\x7b") then
      finish s (.other "method_signature")
      r.endMember true
    else
      r.body
      finish s .methodDefinition
  else r.fieldRest s

/-- In annotated sources decorators stand before their member, otherwise they are part of it. -/
def classMember (r : Rules) : Parser Unit := do
  if r.dialect.types then
    r.decorators
    let s ← begin
    let isIndex ← succeeds do
      repeatWhile do
        if (← isWord "readonly") || (← isWord "static") then
          discard takeWord
          return true
        else return false
      r.indexKey
      r.typeAnnotation
      finish s (.other "index_signature")
    if isIndex then r.endMember true else r.methodOrField s
  else
    let s ← begin
    r.decorators
    r.methodOrField s

def classBody (r : Rules) : Parser Unit := do
  let s ← begin
  expectMark "\x7b"
  repeatWhile do
    if ← isMark "\x7d" then return false
    else if (← ahead).rest.isEmpty then return false
    else if ← takeMark? ";" then return true
    else if (← isWord "static") && (← afterWord (isMark "\x7b")) then
      r.staticBlock
      return true
    else
      r.classMember
      return true
  closeBrace
  finish s .classBody

def superclass (r : Rules) : Parser Unit := do
  let s ← begin
  r.leftHand
  if r.dialect.types && (← peekChar?) == some '<' then
    setRole .callee
    r.typeArguments
    if ← isMark "(" then
      inRole .arguments r.arguments
      finish s .callExpression

def heritage (r : Rules) : Parser Unit := do
  if (← isWord "extends") || (r.dialect.types && (← isWord "implements")) then
    node "class_heritage" do
      if ← takeWord? "extends" then
        repeatWhile do
          r.superclass
          if r.dialect.types then takeMark? "," else return false
      if r.dialect.types then
        if ← takeWord? "implements" then
          repeatWhile do
            r.type
            takeMark? ","

def classTail (r : Rules) : Parser Bool := do
  expectWord "class"
  let named ← do
    match ← peekWord? with
    | none => pure false
    | some "extends" => pure false
    | some "implements" =>
      pure (!r.dialect.types || (← afterWord (do return (← isMark "\x7b") || (← isWord "extends"))))
    | some _ => pure true
  if named then
    inRole .name (if r.dialect.types then wordLeaf (.other "type_identifier") else identifier)
  r.optionalTypeParameters
  r.heritage
  inRole .body r.classBody
  return named

def classExpression (r : Rules) : Parser Unit := do
  let s ← begin
  r.decorators
  discard r.classTail
  finish s .classExpression

end Rules

end ScriptAudit.Source
