import ScriptAudit.Source.Literal

/-! Types. Their trees are kept flat: of a type, the audit looks at the calls in it only. -/

namespace ScriptAudit.Source

open Syntax ScriptAudit.Source.Parser

namespace Rules

/-- A list up to the closing character, with or without a comma at its end. -/
def listUpTo (closing : Char) (item : Parser Unit) : Parser Unit :=
  repeatWhile do
    if ← takeChar? closing then return false
    else
      item
      if ← takeMark? "," then return true
      else
        expectChar closing
        return false

def typeAnnotation (r : Rules) : Parser Unit := node "type_annotation" do
  expectMark ":"
  r.type

def optionalAnnotation (r : Rules) : Parser Unit := do
  if r.dialect.types then
    if ← isMark ":" then r.typeAnnotation

def typeArguments (r : Rules) : Parser Unit := node "type_arguments" do
  expectChar '<'
  listUpTo '>' r.type

def typeParameter (r : Rules) : Parser Unit := node "type_parameter" do
  repeatWhile do
    let some w ← peekWord? | unexpected
    if ["const", "in", "out"].contains w && (← afterWord atWord) &&
        !(← afterWord (isWord "extends")) then
      discard takeWord
      return true
    else return false
  wordLeaf (.other "type_identifier")
  if ← takeWord? "extends" then r.type
  if ← takeMark? "=" then r.type

def typeParameters (r : Rules) : Parser Unit := node "type_parameters" do
  expectChar '<'
  listUpTo '>' r.typeParameter

def optionalTypeParameters (r : Rules) : Parser Unit := do
  if r.dialect.types then
    if (← peekChar?) == some '<' then r.typeParameters

/-- What a function gives back: a type, or a statement about one of its parameters. -/
def resultType (r : Rules) : Parser Unit := do
  let isPredicate : Parser Bool := do
    let g ← ahead
    return !g.newline && (← isWord "is")
  if (← isWord "asserts") && (← afterWord atWord) then
    node "asserts" do
      discard takeWord
      discard takeWord
      if ← takeWord? "is" then r.type
  else if (← atWord) && (← afterWord isPredicate) then
    node "type_predicate" do
      discard takeWord
      expectWord "is"
      r.type
  else r.type

def returnType (r : Rules) : Parser Unit := node "type_annotation" do
  expectMark ":"
  r.resultType

def optionalReturnType (r : Rules) : Parser Unit := do
  if r.dialect.types then
    if ← isMark ":" then r.returnType

def signature (r : Rules) : Parser Unit := do
  r.optionalTypeParameters
  r.parameters
  r.optionalReturnType

def importType : Parser Unit := do
  let s ← begin
  inRole .callee (wordLeaf (.other "import"))
  inRole .arguments (node "arguments" do
    expectMark "("
    if (← isMark "\"") || (← isMark "'") then string else unexpected
    close ")")
  finish s .callExpression

/-- Names with dots between them, and the types they are applied to. -/
def qualified (r : Rules) (first : Parser Unit) : Parser Unit := do
  let s ← begin
  first
  repeatWhile do
    if ← isMark "." then
      setRole .object
      expectMark "."
      inRole .property (wordLeaf .propertyIdentifier)
      finish s .memberExpression
      return true
    else return false
  if (← peekChar?) == some '<' && !(← ahead).newline then
    r.typeArguments
    finish s (.other "generic_type")

def startsName (cs : List Char) : Bool :=
  match cs with
  | c :: _ => (Source.word? cs).isSome || c.isDigit || "'\"[#*".toList.contains c
  | [] => false

def memberKey (r : Rules) : Parser Unit := do
  match ← peekChar? with
  | some '[' =>
    expectMark "["
    r.expression .inner
    close "]"
  | some '"' => string
  | some '\'' => string
  | some '#' =>
    expectMark "#"
    discard takeWord
  | some c => if c.isDigit then number else discard takeWord
  | none => unexpected

/-- A signature that maps or indexes keys: `[k: T]`, `[k in T]`, `[k in T as U]`. -/
def indexKey (r : Rules) : Parser Unit := do
  expectMark "["
  discard takeWord
  if ← takeWord? "in" then
    r.type
    if ← takeWord? "as" then r.type
  else
    expectMark ":"
    r.type
  close "]"

def typeMember (r : Rules) : Parser Unit := node "member_signature" do
  repeatWhile do
    if (← isMark "+") || (← isMark "-") then
      skipGap
      advance 1
      return true
    let some w ← peekWord? | return false
    if ["readonly", "get", "set", "static", "async", "declare", "abstract", "public", "private",
        "protected", "override"].contains w && (← afterWord (do return startsName (← ahead).rest))
    then
      discard takeWord
      return true
    else return false
  if (← isWord "new") && (← afterWord (do return (← isMark "(") || (← isMark "<"))) then
    discard takeWord
  else if !(← isMark "(") && !(← isMark "<") then
    orElse r.indexKey r.memberKey
  if (← isMark "+") || (← isMark "-") then
    skipGap
    advance 1
  discard (takeMark? "?")
  if (← isMark "(") || (← isMark "<") then r.signature
  else r.optionalAnnotation

def typeMembers (r : Rules) : Parser Unit := do
  expectMark "\x7b"
  repeatWhile do
    if ← takeMark? "\x7d" then return false
    else if ← takeMark? "," <||> takeMark? ";" then return true
    else
      r.typeMember
      unless ← takeMark? "," <||> takeMark? ";" do
        unless ← endsHere true true do unexpected
      return true

def tupleMember (r : Rules) : Parser Unit := do
  discard (takeMark? "...")
  let labelled : Parser Bool := do
    discard (takeMark? "?")
    isMark ":"
  if (← atWord) && (← afterWord labelled) then
    discard takeWord
    discard (takeMark? "?")
    expectMark ":"
  r.type
  discard (takeMark? "?")

/-- An operator on types stands before something to apply it to. -/
def isTypeOperator : Parser Bool := do
  let some w ← peekWord? | return false
  if ["keyof", "unique", "readonly"].contains w then
    afterWord do
      let g ← ahead
      return !g.newline && (startsName g.rest || g.rest.head? == some '(' ||
        g.rest.head? == some '{')
  else return false

def primaryType (r : Rules) : Parser Unit := do
  match ← peekChar? with
  | some '(' => node "parenthesized_type" do
    expectMark "("
    r.type
    close ")"
  | some '[' => node "tuple_type" do
    expectMark "["
    listUpTo ']' r.tupleMember
  | some '{' => node "object_type" r.typeMembers
  | some '`' => template (.other "template_literal_type") r.type
  | some '"' => string
  | some '\'' => string
  | some '-' =>
    expectMark "-"
    number
  | some c =>
    if c.isDigit then number
    else
      match ← peekWord? with
      | some "import" => r.qualified importType
      | some "typeof" => node "type_query" do
        discard takeWord
        if ← isWord "import" then r.qualified importType
        else r.qualified (wordLeaf .identifier)
      | some "infer" =>
        if (← afterWord atWord) then
          node "infer_type" do
            discard takeWord
            wordLeaf (.other "type_identifier")
            if ← takeWord? "extends" then r.type
        else r.qualified (wordLeaf (.other "type_identifier"))
      | some w =>
        if isReserved w && !(["this", "void", "null", "true", "false", "const"].contains w) then
          unexpected
        else r.qualified (wordLeaf (.other "type_identifier"))
      | none => unexpected
  | none => unexpected

def postfixType (r : Rules) : Parser Unit := do
  repeatWhile do
    if ← isTypeOperator then
      discard takeWord
      return true
    else return false
  let s ← begin
  r.primaryType
  repeatWhile do
    if (← isMark "[") && !(← ahead).newline then
      expectMark "["
      unless ← isMark "]" do r.type
      close "]"
      finish s (.other "array_type")
      return true
    else return false

/-- Types joined by bars and ampersands, the first of which may stand in front. -/
def unionType (r : Rules) : Parser Unit := do
  let s ← begin
  let joins : Parser Bool := takeMark? "|" <||> takeMark? "&"
  discard joins
  r.postfixType
  if (← isMark "|") || (← isMark "&") then
    repeatWhile do
      if ← joins then
        r.postfixType
        return true
      else return false
    finish s (.other "union_type")

def functionTypeHead (r : Rules) : Parser Unit := do
  r.optionalTypeParameters
  r.parameters
  expectMark "=>"

def typeRule (r : Rules) : Parser Unit := do
  let s ← begin
  if (← isWord "abstract") && (← afterWord (isWord "new")) then discard takeWord
  if (← isWord "new") && (← afterWord (do return (← isMark "(") || (← isMark "<"))) then
    discard takeWord
    r.functionTypeHead
    r.resultType
    finish s (.other "constructor_type")
  else
    let next ← peekChar?
    let isFunction ←
      if next == some '(' || next == some '<' then succeeds r.functionTypeHead else pure false
    if isFunction then
      r.resultType
      finish s (.other "function_type")
    else
      r.unionType
      if (← isWord "extends") && !(← ahead).newline then
        let conditional : Parser Unit := do
          expectWord "extends"
          r.type
          expectMark "?"
          r.type
          expectMark ":"
          r.type
        if ← succeeds conditional then finish s (.other "conditional_type")

end Rules

end ScriptAudit.Source
