/-! Text as a file system hands it over: characters, and bytes of file names that are part of no
character. Text is ordered by code, a stray byte standing among the codes that no character has. -/

namespace ScriptAudit

/-- A character, or a byte that belongs to none. -/
inductive Symbol where
  | char (c : Char)
  | stray (b : UInt8)
deriving DecidableEq, Repr

abbrev Text := List Symbol

namespace Symbol

/-- A stray byte takes a code of the surrogate block, which characters leave free. -/
def code : Symbol → Nat
  | char c => c.toNat
  | stray b => 0xDC00 + b.toNat

def char? : Symbol → Option Char
  | char c => some c
  | stray _ => none

/-- How many bytes of a file name a symbol is. -/
def byteSize : Symbol → Nat
  | char c =>
    if c.toNat < 0x80 then 1 else if c.toNat < 0x800 then 2 else if c.toNat < 0x10000 then 3 else 4
  | stray _ => 1

end Symbol

/-- The last `width` hexadecimal digits of `n`, in lower case. -/
def hexDigits : Nat → Nat → List Char
  | 0, _ => []
  | width + 1, n => hexDigits width (n / 16) ++ [Nat.digitChar (n % 16)]

namespace Text

def ofString (s : String) : Text := s.toList.map .char

instance : Coe String Text := ⟨ofString⟩

def ofInt (n : Int) : Text := ofString (toString n)

def ofNat (n : Nat) : Text := ofString (toString n)

/-- How many bytes a text takes in a file name. -/
def byteSize (t : Text) : Nat := t.foldl (fun n s => n + s.byteSize) 0

/-- A stray byte is written as an escape of six characters. -/
def escape : Symbol → List Char
  | .char c => [c]
  | .stray b => '\\' :: 'u' :: hexDigits 4 (0xDC00 + b.toNat)

/-- The text as a sink that takes characters only receives it. -/
def display (t : Text) : String := String.ofList (t.flatMap escape)

def le : Text → Text → Bool
  | [], _ => true
  | _ :: _, [] => false
  | a :: s, b :: t => decide (a.code < b.code) || (decide (a.code = b.code) && le s t)

def sort (ts : List Text) : List Text := ts.mergeSort le

/-- The pieces between the occurrences of `sep`, one more than there are of them. -/
def splitOn (sep : Symbol) : Text → List Text
  | [] => [[]]
  | s :: rest =>
    if s = sep then [] :: splitOn sep rest
    else
      match splitOn sep rest with
      | [] => [[s]]
      | piece :: pieces => (s :: piece) :: pieces

def newline : Symbol := .char '\n'

/-- Lines as a document: each is ended by a newline. -/
def unlines (lines : List Text) : Text := List.intercalate [newline] lines ++ [newline]

/-- Tabs become spaces up to the next multiple of `width` columns. -/
def expandTabs (width : Nat) : Nat → Text → Text
  | _, [] => []
  | column, s :: rest =>
    if s = .char '\t' then
      let gap := width - column % width
      List.replicate gap (.char ' ') ++ expandTabs width (column + gap) rest
    else if s = newline then s :: expandTabs width 0 rest
    else s :: expandTabs width (column + 1) rest

end Text

end ScriptAudit
