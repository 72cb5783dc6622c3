/-! Characters of script sources. -/

namespace ScriptAudit.Source

def isSpace (c : Char) : Bool :=
  let n := c.toNat
  (9 ≤ n && n ≤ 13) || n == 0x20 || n == 0x85 || n == 0xA0 || n == 0x1680 ||
    (0x2000 ≤ n && n ≤ 0x200B) || n == 0x2028 || n == 0x2029 || n == 0x202F || n == 0x205F ||
    n == 0x2060 || n == 0x3000 || n == 0xFEFF

def isLineBreak (c : Char) : Bool := c == '\n' || c == '\u2028' || c == '\u2029'

def endsLineComment (c : Char) : Bool := isLineBreak c || c == '\r'

/-- What may continue a word; every character that is neither blank nor a mark can. -/
def isWordPart (c : Char) : Bool :=
  if c.toNat < 128 then c.isAlphanum || c == '_' || c == '$' else !isSpace c

def isWordStart (c : Char) : Bool := isWordPart c && !c.isDigit

def isHexDigit (c : Char) : Bool :=
  c.isDigit || ('a' ≤ c && c ≤ 'f') || ('A' ≤ c && c ≤ 'F')

/-- An escaped character of a word at the front of the input: its spelling and what follows. -/
def wordEscape? : List Char → Option (List Char × List Char)
  | '\\' :: 'u' :: '{' :: rest =>
    let digits := rest.takeWhile isHexDigit
    match digits, rest.dropWhile isHexDigit with
    | _ :: _, '}' :: after => some ('\\' :: 'u' :: '{' :: digits ++ ['}'], after)
    | _, _ => none
  | '\\' :: 'u' :: a :: b :: c :: d :: rest =>
    if [a, b, c, d].all isHexDigit then some (['\\', 'u', a, b, c, d], rest) else none
  | _ => none

/-- The rest of a word, spelled as it stands in the source. -/
def wordTail : Nat → List Char → List Char × List Char
  | 0, cs => ([], cs)
  | fuel + 1, cs =>
    match wordEscape? cs with
    | some (spelling, rest) =>
      let (tail, rest) := wordTail fuel rest
      (spelling ++ tail, rest)
    | none =>
      match cs with
      | c :: rest =>
        if isWordPart c then
          let (tail, rest) := wordTail fuel rest
          (c :: tail, rest)
        else ([], cs)
      | [] => ([], [])

def word? (cs : List Char) : Option (String × List Char) :=
  let starts := match cs with
    | c :: _ => isWordStart c || (wordEscape? cs).isSome
    | [] => false
  if starts then
    let (word, rest) := wordTail (cs.length + 1) cs
    some (String.ofList word, rest)
  else none

def reserved : List String := [
  "break", "case", "catch", "class", "const", "continue", "debugger", "default", "delete", "do",
  "else", "export", "extends", "false", "finally", "for", "function", "if", "import", "in",
  "instanceof", "new", "null", "return", "super", "switch", "this", "throw", "true", "try",
  "typeof", "var", "void", "while", "with"]

def isReserved (word : String) : Bool := reserved.contains word

/-- Marks of more than one character, the longer ones first. -/
def longMarks : List (List Char) := [
  ">>>=", "...", "===", "!==", "**=", "<<=", ">>=", ">>>", "&&=", "||=", "??=", "=>", "==", "!=",
  "<=", ">=", "&&", "||", "??", "?.", "++", "--", "+=", "-=", "*=", "/=", "%=", "&=", "|=", "^=",
  "<<", ">>", "**"].map String.toList

/-- The longest mark at the front of the input. A question mark before a decimal point with a digit
stands alone. -/
def markAt (cs : List Char) : String :=
  match cs with
  | [] => ""
  | '?' :: '.' :: d :: _ => if d.isDigit then "?" else "?."
  | c :: _ => String.ofList ((longMarks.find? (·.isPrefixOf cs)).getD [c])

end ScriptAudit.Source
