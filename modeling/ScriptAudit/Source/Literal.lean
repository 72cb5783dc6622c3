import ScriptAudit.Source.Rules

/-! Numbers, strings, templates and regular expressions. -/

namespace ScriptAudit.Source

open Syntax

def isDigitOrMark (c : Char) : Bool := c.isDigit || c == '_'

def exponent : List Char → List Char
  | e :: rest =>
    if e == 'e' || e == 'E' then
      match rest with
      | s :: d :: more =>
        if (s == '+' || s == '-') && d.isDigit then d :: more |>.dropWhile isDigitOrMark
        else if s.isDigit then rest.dropWhile isDigitOrMark
        else e :: rest
      | [d] => if d.isDigit then [] else e :: rest
      | [] => e :: rest
    else e :: rest
  | [] => []

def afterNumber (cs : List Char) : List Char :=
  match cs with
  | '0' :: b :: rest =>
    if "xXoObB".toList.contains b then rest.dropWhile fun c => c.isAlphanum || c == '_'
    else decimal cs
  | _ => decimal cs
where
  decimal (cs : List Char) : List Char :=
    match cs.dropWhile isDigitOrMark with
    | '.' :: rest => exponent (rest.dropWhile isDigitOrMark)
    | 'n' :: rest => rest
    | rest => exponent rest

/-- How many characters an escape has after its backslash; none if it is not one. -/
def escapeLength : List Char → Nat
  | 'x' :: a :: b :: _ => if isHexDigit a && isHexDigit b then 3 else 0
  | 'u' :: '{' :: rest =>
    let digits := rest.takeWhile isHexDigit
    match digits, rest.dropWhile isHexDigit with
    | _ :: _, '}' :: _ => digits.length + 3
    | _, _ => 0
  | 'u' :: a :: b :: c :: d :: _ => if [a, b, c, d].all isHexDigit then 5 else 0
  | '\r' :: '\n' :: _ => 2
  | c :: rest =>
    if c == 'x' || c == 'u' then 0
    else if '0' ≤ c && c ≤ '7' then
      ((c :: rest).take 3).takeWhile (fun d => '0' ≤ d && d ≤ '7') |>.length
    else 1
  | [] => 0

namespace Parser

/-- The characters up to the first that fails the test, with the rows they span. -/
def takeChars (p : Char → Bool) : Parser (List Char) := do
  let c ← get
  let taken := c.rest.takeWhile p
  set { c with rest := c.rest.dropWhile p, row := c.row + taken.count '\n' }
  return taken

def takeEscape : Parser Unit := do
  let c ← get
  let n := escapeLength (c.rest.drop 1)
  if n = 0 then unexpected
  let spelling := c.rest.take (n + 1)
  leaf (.other "escape_sequence") c.row (String.ofList spelling)
  modify fun c =>
    { c with rest := c.rest.drop (n + 1), row := c.row + spelling.count '\n' }

def takeFragment (p : Char → Bool) : Parser Unit := do
  let row := (← get).row
  let taken ← takeChars p
  unless taken.isEmpty do leaf .stringFragment row (String.ofList taken)

def string : Parser Unit := do
  let s ← begin
  let quote := (← get).rest.head?.getD '"'
  advance 1
  repeatWhile do
    match (← get).rest with
    | [] => unexpected
    | '\\' :: _ =>
      takeEscape
      return true
    | c :: _ =>
      if c == quote then
        advance 1
        return false
      else if c == '\n' || c == '\r' then throw { row := s.row, atEnd := false }
      else
        takeFragment fun c => c != quote && c != '\\' && c != '\n' && c != '\r'
        return true
  finish s .string

def number : Parser Unit := do
  let s ← begin
  let cs := (← get).rest
  let after := afterNumber cs
  modify fun c => { c with rest := after }
  leaf (.other "number") s.row (String.ofList (cs.take (cs.length - after.length)))

def template (kind : Kind) (p : Parser Unit) : Parser Unit := do
  let s ← begin
  expectChar '`'
  repeatWhile do
    match (← get).rest with
    | [] => unexpected
    | '`' :: _ =>
      advance 1
      return false
    | '\\' :: _ =>
      takeEscape
      return true
    | '$' :: '{' :: _ =>
      let row := (← get).row
      let start : Start := ⟨(← get).height, row⟩
      advance 2
      p
      expectMark "\x7d"
      finish start (.other "template_substitution")
      return true
    | '$' :: _ =>
      advance 1
      return true
    | _ =>
      takeFragment fun c => c != '`' && c != '\\' && c != '$'
      return true
  finish s kind

/-- What follows the closing slash of a regular expression. A slash within brackets closes
nothing. -/
def afterPattern : Bool → List Char → Option (List Char)
  | _, [] => none
  | inClass, '\\' :: c :: rest => if c = '\n' then none else afterPattern inClass rest
  | inClass, c :: rest =>
    if c = '\n' then none
    else if c = '/' && !inClass then some rest
    else if c = '[' then afterPattern true rest
    else if c = ']' then afterPattern false rest
    else afterPattern inClass rest

def regex : Parser Unit := do
  let s ← begin
  match afterPattern false ((← get).rest.drop 1) with
  | none => unexpected
  | some rest =>
    modify fun c => { c with rest := rest.dropWhile Char.isAlpha }
    finish s (.other "regex")

end Parser

end ScriptAudit.Source
