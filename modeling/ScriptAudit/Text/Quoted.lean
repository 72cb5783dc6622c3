import ScriptAudit.Text
import ScriptAudit.Text.Printable

/-! Quoted text, as messages show a value. The quote is the single one, unless the text holds that
one and not the double one; what cannot be printed is written as an escape. -/

namespace ScriptAudit.Text

def codeEscape (n : Nat) : List Char :=
  if n < 0x100 then '\\' :: 'x' :: hexDigits 2 n
  else if n < 0x10000 then '\\' :: 'u' :: hexDigits 4 n
  else '\\' :: 'U' :: hexDigits 8 n

def quoteMark (t : Text) : Char :=
  if Symbol.char '\'' ∈ t ∧ Symbol.char '"' ∉ t then '"' else '\''

def quoteSymbol (mark : Char) : Symbol → List Char
  | .stray b => codeEscape (0xDC00 + b.toNat)
  | .char c =>
    if c = '\\' ∨ c = mark then ['\\', c]
    else if c = '\n' then ['\\', 'n']
    else if c = '\r' then ['\\', 'r']
    else if c = '\t' then ['\\', 't']
    else if isPrintable c then [c]
    else codeEscape c.toNat

def quote (t : Text) : String :=
  let mark := quoteMark t
  String.ofList (mark :: t.flatMap (quoteSymbol mark) ++ [mark])

def quoteList (ts : List Text) : String :=
  "[" ++ String.intercalate ", " (ts.map quote) ++ "]"

end ScriptAudit.Text
