import ScriptAudit.Source.Callable

/-! Elements of markup among expressions. -/

namespace ScriptAudit.Source

open Syntax ScriptAudit.Source.Parser

/-- What follows a reference to a character after its ampersand: a name or a number, and a
semicolon. -/
def afterReference? (cs : List Char) : Option (List Char) :=
  let (body, least) : List Char × (Char → Bool) := match cs with
    | '#' :: 'x' :: rest => (rest, isHexDigit)
    | '#' :: 'X' :: rest => (rest, isHexDigit)
    | '#' :: rest => (rest, Char.isDigit)
    | rest => (rest, Char.isAlpha)
  match body.takeWhile least, body.dropWhile least with
  | _ :: _, ';' :: rest => some rest
  | _, _ => none

def isTagPart (c : Char) : Bool := isWordPart c || c == '-'

/-- A name of an element or attribute; it may hold dashes, and dots or colons between parts. -/
def tagName : Parser Unit := do
  let s ← begin
  let part : Parser Unit := do
    skipGap
    if (← takeChars isTagPart).isEmpty then unexpected
  part
  repeatWhile do
    if (← isMark ".") || (← isMark ":") then
      skipGap
      advance 1
      part
      return true
    else return false
  finish s (.other "jsx_name")

/-- A quoted value may run over several lines and knows no escapes. -/
def attributeString : Parser Unit := do
  let s ← begin
  let quote := (← get).rest.head?.getD '"'
  advance 1
  discard (takeChars (· != quote))
  expectChar quote
  finish s .string

namespace Rules

/-- An expression in braces; there may be none in them, and it may be spread. -/
def embedded (r : Rules) : Parser Unit := node "jsx_expression" do
  expectMark "\x7b"
  if ← isMark "..." then r.spread
  else unless ← isMark "\x7d" do r.sequence .inner
  expectMark "\x7d"

def tagAttribute (r : Rules) : Parser Unit := do
  if ← isMark "\x7b" then r.embedded
  else node "jsx_attribute" do
    tagName
    if ← takeMark? "=" then
      match ← peekChar? with
      | some '{' => r.embedded
      | some '<' => r.element
      | some '"' => attributeString
      | some '\'' => attributeString
      | _ => unexpected

def isClosing : Parser Bool := fun c =>
  match (do expectChar '<'; expectChar '/' : Parser Unit) c with
  | .ok _ => .ok (true, c)
  | .error _ => .ok (false, c)

/-- What stands between the tags of an element; ends before the closing tag. -/
def elementChildren (r : Rules) : Parser Unit :=
  repeatWhile do
    match (← get).rest with
    | [] => unexpected
    | '{' :: _ =>
      r.embedded
      return true
    | '<' :: _ =>
      if ← isClosing then return false
      else
        r.element
        return true
    | '&' :: rest =>
      let some after := afterReference? rest | unexpected
      modify fun c => { c with rest := after }
      return true
    | c :: _ =>
      if c == '}' || c == '>' then unexpected
      else
        let s : Start := ⟨(← get).height, (← get).row⟩
        discard (takeChars fun c => !("\x7b<>&\x7d".toList.contains c))
        finish s (.other "jsx_text")
        return true

def closingTag (named : Bool) : Parser Unit := do
  expectChar '<'
  expectChar '/'
  if named then tagName
  expectChar '>'

def elementRule (r : Rules) : Parser Unit := do
  let s ← begin
  expectChar '<'
  if ← takeChar? '>' then
    r.elementChildren
    closingTag false
    finish s (.other "jsx_element")
  else
    tagName
    if r.dialect.types && (← peekChar?) == some '<' then r.typeArguments
    repeatWhile do
      if (← peekChar?) == some '/' || (← peekChar?) == some '>' then return false
      else
        r.tagAttribute
        return true
    if ← takeChar? '/' then
      expectChar '>'
      finish s (.other "jsx_self_closing_element")
    else
      expectChar '>'
      r.elementChildren
      closingTag true
      finish s (.other "jsx_element")

end Rules

end ScriptAudit.Source
