import ScriptAudit.Source.Class
import ScriptAudit.Source.Markup

/-! Expressions. Binary operators are grouped from the left without regard to how strongly they
bind: the audit looks at the calls and functions among their operands only. -/

namespace ScriptAudit.Source

open Syntax ScriptAudit.Source.Parser

mutual

/-- An expression that turns out to be assigned to, as the pattern that it is. -/
def asTarget : Node → Node
  | ⟨kind, role, named, row, text, missing, flawed, children⟩ =>
    match kind with
    | .other "array" =>
      ⟨.other "array_pattern", role, named, row, text, missing, flawed, asTargets none children⟩
    | .other "object" =>
      ⟨.other "object_pattern", role, named, row, text, missing, flawed, asTargets none children⟩
    | .other "spread_element" =>
      ⟨.other "rest_pattern", role, named, row, text, missing, flawed, asTargets none children⟩
    | .pair =>
      ⟨.other "pair_pattern", role, named, row, text, missing, flawed,
        asTargets (some .value) children⟩
    | .assignmentExpression =>
      ⟨.other "assignment_pattern", role, named, row, text, missing, flawed,
        asTargets (some .left) children⟩
    | _ => ⟨kind, role, named, row, text, missing, flawed, children⟩

def asTargets (only : Option Role) : List Node → List Node
  | [] => []
  | n :: rest =>
    (if only.isNone || n.role == only then asTarget n else n) :: asTargets only rest

end

def isAssignable (n : Node) : Bool :=
  match n.kind with
  | .identifier | .memberExpression | .parenthesized => true
  | .other name =>
    ["subscript_expression", "array", "object", "non_null_expression"].contains name
  | _ => false

def augmentedMarks : List String := [
  "+=", "-=", "*=", "/=", "%=", "**=", "<<=", ">>=", ">>>=", "&=", "|=", "^=", "&&=", "||=", "??="]

def binaryMarks : List String := [
  "+", "-", "*", "/", "%", "**", "<", ">", "<=", ">=", "==", "!=", "===", "!==", "&&", "||", "??",
  "&", "|", "^", "<<", ">>", ">>>"]

/-- Whether the next token begins a line that ends the statement before it. -/
def lineEnds (d : Dialect) (c : Context) : Parser Bool := do
  let g ← ahead
  return c.tail && g.newline && !continues d.types false g.rest

namespace Rules

/-! Objects -/

def objectModifiers : Parser Unit := do
  repeatWhile do
    let some w ← peekWord? | return false
    if ["static", "async", "get", "set"].contains w &&
        (← afterWord (do return startsName (← ahead).rest)) then
      modifier w
      return true
    else return false
  discard (takeMark? "*")

def objectMember (r : Rules) : Parser Unit := do
  if ← isMark "..." then r.spread
  else
    let s ← begin
    r.decorators
    objectModifiers
    let word ← peekWord?
    r.propertyName
    let optional ← if r.dialect.types then takeMark? "?" else pure false
    if optional || (← isMark "(") || (r.dialect.types && (← isMark "<")) then
      setRole .name
      r.methodRest s
    else if ← isMark ":" then
      setRole .key
      expectMark ":"
      inRole .value (r.expression .inner)
      finish s .pair
    else
      match word with
      | none => unexpected
      | some w =>
        if isReserved w then unexpected
        replaceNewest fun n => { n with kind := .other "shorthand_property_identifier" }
        if ← isMark "=" then
          setRole .left
          expectMark "="
          inRole .right (r.expression .inner)
          finish s (.other "object_assignment_pattern")

def object (r : Rules) : Parser Unit := node "object" do
  expectMark "\x7b"
  listUpTo '}' do
    unless ← isMark "," do r.objectMember

/-! Arrow functions -/

/-- Whether braces hold the members of an object where statements could stand too: they do if the
first thing in them has a key, and all of it can be read so. -/
def isKeyed (r : Rules) : Parser Bool := fun c =>
  match (do expectMark "\x7b"; r.propertyName; expectMark ":" : Parser Unit) c with
  | .ok _ => .ok (true, c)
  | .error _ => .ok (false, c)

def arrowBody (r : Rules) (c : Context) : Parser Unit := do
  if ← isMark "\x7b" then
    let asObject : Parser Unit := do
      r.object
      unless (← isMark ")") || (← isMark ",") || (← isMark "]") || (← isMark ";") ||
          (← endsHere r.dialect.types false) do unexpected
    if ← r.isKeyed <&&> succeeds asObject then setRole .body else r.body
  else inRole .body (r.expression c)

def arrowHead (r : Rules) : Parser Bool := do
  if ← isWord "async" then keyword .async
  r.optionalTypeParameters
  r.parameters
  let typed := r.dialect.types && (← isMark ":")
  if typed then r.returnType
  expectMark "=>"
  return typed

/-- An arrow function with its parameters in parentheses, if there is one here. Between the marks of
a condition, what looks like a result type must leave a colon to the condition. -/
def arrow? (r : Rules) (c : Context) : Parser Bool := do
  let s ← begin
  let head ← attempt do
    let typed ← r.arrowHead
    if typed && c.branch then
      r.arrowBody c
      unless ← isMark ":" do unexpected
      return true
    else return false
  match head with
  | none => return false
  | some complete =>
    unless complete do r.arrowBody c
    finish s .arrowFunction
    return true

def shortArrow (r : Rules) (c : Context) : Parser Unit := do
  let s ← begin
  if (← isWord "async") && !(← afterWord (isMark "=>")) then keyword .async
  identifier
  expectMark "=>"
  r.arrowBody c
  finish s .arrowFunction

/-! Operands -/

def asyncOperand (r : Rules) (c : Context) : Parser Unit := do
  let onLine := afterWord (do return !(← lineEnds r.dialect c))
  if ← onLine <&&> afterWord (isWord "function") then r.functionExpression
  else if ← onLine <&&> afterWord (atWord <&&> afterWord (isMark "=>")) then r.shortArrow c
  else if ← afterWord (isMark "=>") then r.shortArrow c
  else
    let opens := afterWord do
      return (← isMark "(") || (r.dialect.types && (← isMark "<"))
    unless ← opens <&&> r.arrow? c do identifier

def importOperand (r : Rules) : Parser Unit := do
  let s ← begin
  wordLeaf (.other "import")
  if ← takeMark? "." then
    discard takeWord
    if ← isMark "(" then
      finish s (.other "import")
      setRole .callee
      inRole .arguments r.arguments
      finish s .callExpression
    else finish s (.other "meta_property")
  else
    setRole .callee
    inRole .arguments r.arguments
    finish s .callExpression

def wordOperand (r : Rules) (c : Context) (w : String) : Parser Unit := do
  match w with
  | "function" => r.functionExpression
  | "class" => r.classExpression
  | "async" => r.asyncOperand c
  | "new" => r.construction
  | "import" => r.importOperand
  | "this" => wordLeaf .this
  | "super" | "null" | "true" | "false" => wordLeaf (.other w)
  | _ => if ← afterWord (isMark "=>") then r.shortArrow c else identifier

/-- Something that begins with an angle bracket: an element, or a function with type parameters. -/
def angleOperand (r : Rules) (c : Context) : Parser Unit := do
  if r.dialect.types then
    if r.dialect.markup then
      let generic : Parser Unit := do
        expectChar '<'
        discard takeWord
        unless (← isMark ",") || (← isWord "extends") do unexpected
      let isGeneric : Parser Bool := fun cur =>
        match generic cur with
        | .ok _ => .ok (true, cur)
        | .error _ => .ok (false, cur)
      unless ← isGeneric <&&> r.arrow? c do
        unless ← succeeds r.element do
          unless ← r.arrow? c do r.element
    else
      unless ← r.arrow? c do unexpected
  else r.element

def operand (r : Rules) (c : Context) : Parser Unit := do
  match ← peekChar? with
  | none => unexpected
  | some '(' => unless ← r.arrow? c do r.parenthesized
  | some '[' => node "array" do
    expectMark "["
    r.elements "]"
  | some '{' => r.object
  | some '`' => template .templateString (r.sequence .inner)
  | some '"' => string
  | some '\'' => string
  | some '/' => regex
  | some '<' => r.angleOperand c
  | some '@' => r.classExpression
  | some '#' => memberName
  | some '.' =>
    if ((← ahead).rest.drop 1).head?.elim false Char.isDigit then number else unexpected
  | some ch =>
    if ch.isDigit then number
    else
      match ← peekWord? with
      | some w => r.wordOperand c w
      | none => unexpected

def charAfter? (m : String) : Parser (Option Char) := fun c =>
  match (do expectMark m; peekChar? : Parser (Option Char)) c with
  | .ok (ch, _) => .ok (ch, c)
  | .error _ => .ok (none, c)

def subscript (r : Rules) (s : Start) : Parser Unit := do
  expectMark "["
  r.sequence .inner
  close "]"
  finish s (.other "subscript_expression")

/-- One step after an operand: a member, an element or a call. -/
def suffix? (r : Rules) (calls : Bool) (c : Context) (s : Start) : Parser Bool := do
  if ← lineEnds r.dialect c then return false
  match ← mark with
  | "." =>
    setRole .object
    expectMark "."
    inRole .property memberName
    finish s .memberExpression
    return true
  | "[" =>
    setRole .object
    r.subscript s
    return true
  | "`" =>
    setRole .callee
    inRole .arguments (template .templateString (r.sequence .inner))
    finish s .callExpression
    return true
  | "!" =>
    if r.dialect.types then
      expectMark "!"
      finish s (.other "non_null_expression")
      return true
    else return false
  | "(" =>
    if calls then
      setRole .callee
      inRole .arguments r.arguments
      finish s .callExpression
      return true
    else return false
  | "?." =>
    if calls then
      match ← charAfter? "?." with
      | some '[' =>
        setRole .object
        expectMark "?."
        r.subscript s
      | some '(' =>
        setRole .callee
        expectMark "?."
        inRole .arguments r.arguments
        finish s .callExpression
      | some '<' =>
        setRole .callee
        expectMark "?."
        r.typeArguments
        inRole .arguments r.arguments
        finish s .callExpression
      | _ =>
        setRole .object
        expectMark "?."
        inRole .property memberName
        finish s .memberExpression
      return true
    else return false
  | _ => return false

def suffixes (r : Rules) (c : Context) (s : Start) : Parser Unit :=
  repeatWhile (r.suffix? true c s)

def constructionRule (r : Rules) : Parser Unit := do
  let s ← begin
  expectWord "new"
  if ← takeMark? "." then
    discard takeWord
    finish s (.other "meta_property")
  else
    let t ← begin
    if ← isWord "new" then r.construction else r.operand .inner
    repeatWhile (r.suffix? false .inner t)
    if r.dialect.types && (← peekChar?) == some '<' then
      discard (attempt (do
        r.typeArguments
        unless ← isMark "(" do unexpected))
    if ← isMark "(" then r.arguments
    finish s (.other "new_expression")

def leftHandRule (r : Rules) : Parser Unit := do
  let s ← begin
  r.operand .inner
  r.suffixes .inner s

/-! Operators -/

/-- Takes the expression for a value of another type; tells whether that happened. -/
def cast? (r : Rules) (c : Context) (s : Start) : Parser Bool := do
  if !r.dialect.types || (← lineEnds r.dialect c) then return false
  if (← isWord "as") || (← isWord "satisfies") then
    let w ← takeWord
    unless ← takeWord? "const" do r.type
    finish s (.other (w ++ "_expression"))
    return true
  else return false

def awaitOperator (r : Rules) (c : Context) : Parser Unit := do
  let s ← begin
  expectWord "await"
  let t ← begin
  r.unary c
  repeatWhile (r.cast? c t)
  finish s .awaitExpression

def yieldOperator (r : Rules) (c : Context) : Parser Unit := node "yield_expression" do
  expectWord "yield"
  if ← takeMark? "*" then r.expression c
  else
    let next ← peekChar?
    let w ← peekWord?
    let bare := next.elim true (fun ch => ")]\x7d,;:?=.&|%^>".toList.contains ch) ||
      w == some "in" || w == some "of" || w == some "instanceof"
    unless bare || (← endsHere r.dialect.types r.dialect.types <&&> pure c.tail) do r.expression c

def unaryRule (r : Rules) (c : Context) : Parser Unit := do
  let s ← begin
  let plain : Parser Unit := do
    r.operand c
    r.suffixes c s
    if (← isMark "++") || (← isMark "--") then
      unless ← lineEnds r.dialect c do
        advanceMark
        finish s (.other "update_expression")
  match ← mark with
  | "!" | "~" | "+" | "-" =>
    advanceMark
    r.unary c
    finish s (.other "unary_expression")
  | "++" | "--" =>
    advanceMark
    r.unary c
    finish s (.other "update_expression")
  | "<" =>
    if r.dialect.types && !r.dialect.markup then
      if ← r.arrow? c then r.suffixes c s
      else
        r.typeArguments
        r.unary c
        finish s (.other "type_assertion")
    else plain
  | _ =>
    match ← peekWord? with
    | some "await" => r.awaitOperator c
    | some "yield" => r.yieldOperator c
    | some "typeof" | some "void" | some "delete" =>
      discard takeWord
      r.unary c
      finish s (.other "unary_expression")
    | _ => plain
where
  advanceMark : Parser Unit := do
    let m ← mark
    expectMark m

/-- Type arguments after an expression apply to all of it, and a call with them calls all of it. -/
def genericCall? (r : Rules) (c : Context) (s : Start) : Parser Bool := do
  let called ← succeeds do
    setRole .callee
    r.typeArguments
    inRole .arguments r.arguments
    finish s .callExpression
  if called then r.suffixes c s
  return called

/-- Type arguments that nothing is called with. -/
def instantiation? (r : Rules) (s : Start) : Parser Bool := succeeds do
  r.typeArguments
  let next ← peekChar?
  unless next.elim true (fun ch => ")]\x7d,;:".toList.contains ch) || (← ahead).newline do
    unexpected
  finish s (.other "instantiation_expression")

def binaryStep (r : Rules) (c : Context) (s : Start) : Parser Bool := do
  if ← lineEnds r.dialect c then return false
  if ← r.cast? c s then return true
  let isWordOperator ←
    isWord "instanceof" <||> (pure !c.noIn <&&> isWord "in")
  if isWordOperator then
    discard takeWord
    r.unary c
    finish s (.other "binary_expression")
    return true
  let m ← mark
  if !binaryMarks.contains m then return false
  if m == "<" && r.dialect.types then
    if ← r.genericCall? c s then return true
    if ← r.instantiation? s then return true
  expectMark m
  r.unary c
  finish s (.other "binary_expression")
  return true

def expressionRule (r : Rules) (c : Context) : Parser Unit := do
  let s ← begin
  r.unary c
  repeatWhile (r.binaryStep c s)
  let m ← mark
  if m == "?" then
    expectMark "?"
    r.expression { Context.inner with branch := true }
    expectMark ":"
    r.expression c
    finish s (.other "ternary_expression")
  else if m == "=" || augmentedMarks.contains m then
    let some target ← newest? | unexpected
    unless isAssignable target do unexpected
    replaceNewest asTarget
    setRole .left
    expectMark m
    inRole .right (r.expression c)
    finish s (if m == "=" then .assignmentExpression
      else .other "augmented_assignment_expression")

end Rules

end ScriptAudit.Source
