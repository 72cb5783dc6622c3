import ScriptAudit.Text

/-! Blank characters: those that set words and numerals apart, beyond the ASCII ones too. -/

namespace ScriptAudit.Text

def isBlank (c : Char) : Bool :=
  let n := c.toNat
  (9 ≤ n && n ≤ 13) || (0x1C ≤ n && n ≤ 0x20) || n == 0x85 || n == 0xA0 || n == 0x1680 ||
    (0x2000 ≤ n && n ≤ 0x200A) || n == 0x2028 || n == 0x2029 || n == 0x202F || n == 0x205F ||
    n == 0x3000

def isBlankSymbol : Symbol → Bool
  | .char c => isBlank c
  | .stray _ => false

def trim (t : Text) : Text :=
  ((t.dropWhile isBlankSymbol).reverse.dropWhile isBlankSymbol).reverse

end ScriptAudit.Text
