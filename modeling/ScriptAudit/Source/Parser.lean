import ScriptAudit.Source.Character
import ScriptAudit.Syntax.Node

/-! Reading a source from the left while the nodes of its tree pile up. A parser adds nodes to the
pile; `finish` gathers the newest of them under a new node. Comments are nodes like others and fall
to whatever node is being built where they stand. -/

namespace ScriptAudit.Source

open Syntax

/-- What a grammar allows beyond plain scripts. -/
structure Dialect where
  types : Bool
  markup : Bool
deriving DecidableEq, Repr

/-- Whether something that is missing may be made up for; that happens once at most. -/
inductive Repair where
  | forbidden
  | allowed
  | done
  | doneAtEnd
deriving DecidableEq, Repr

structure Cursor where
  rest : List Char
  row : Nat
  /-- The nodes built so far that have no parent yet, the newest first. -/
  pile : List Node
  height : Nat
  repair : Repair

structure Failure where
  row : Nat
  atEnd : Bool
deriving DecidableEq, Repr

abbrev Parser := StateT Cursor (Except Failure)

structure Gap where
  rest : List Char
  row : Nat
  /-- Whether a line ends in it, other than inside a comment. -/
  newline : Bool
  /-- Whether a comment reaches the end of the line on which the gap begins. -/
  lineCommented : Bool
  /-- The row in which its last comment ends, or else that in which it begins. -/
  edge : Nat
  comments : List Node

inductive Gap.Within where
  | blank
  | lineComment
  /-- Since the comment may have no end, what to fall back to. -/
  | blockComment (start : Gap)

namespace Gap

def commented (g : Gap) : Gap := { g with comments := Node.plain .comment g.row [] :: g.comments }

def passing (c : Char) (g : Gap) : Gap :=
  { g with row := if c = '\n' then g.row + 1 else g.row, newline := g.newline || isLineBreak c }

def within (c : Char) (g : Gap) : Gap :=
  { g with
    row := if c = '\n' then g.row + 1 else g.row
    lineCommented := g.lineCommented || (isLineBreak c && !g.newline) }

def uncommented (g : Gap) : Gap := { g with edge := g.row }

/-- Passes over blanks and comments; with `html`, over lines that open or close an old comment of
markup too. -/
def scan (html : Bool) : Within → Gap → List Char → Gap
  | .blank, g, [] => { g with rest := [] }
  | .blank, g, '/' :: '/' :: cs => scan html .lineComment g.commented cs
  | .blank, g, '/' :: '*' :: cs =>
    scan html (.blockComment { g with rest := '/' :: '*' :: cs }) g.commented cs
  | .blank, g, c :: cs =>
    if isSpace c then scan html .blank (g.passing c) cs
    else if html && ("<!--".toList.isPrefixOf (c :: cs) || "-->".toList.isPrefixOf (c :: cs)) then
      scan html .lineComment g.commented cs
    else { g with rest := c :: cs }
  | .lineComment, g, [] => { g.uncommented with rest := [] }
  | .lineComment, g, c :: cs =>
    if endsLineComment c then
      let ended := { g.uncommented with lineCommented := g.lineCommented || !g.newline }
      scan html .blank (ended.passing c) cs
    else scan html .lineComment g cs
  | .blockComment start, _, [] => start
  | .blockComment _, g, '*' :: '/' :: cs => scan html .blank g.uncommented cs
  | .blockComment start, g, c :: cs => scan html (.blockComment start) (g.within c) cs

end Gap

namespace Cursor

def gap (html : Bool) (c : Cursor) : Gap :=
  Gap.scan html .blank ⟨c.rest, c.row, false, false, c.row, []⟩ c.rest

/-- Moves past a gap, keeping its comments. -/
def past (g : Gap) (c : Cursor) : Cursor :=
  { c with
    rest := g.rest
    row := g.row
    pile := g.comments ++ c.pile
    height := c.height + g.comments.length }

def push (n : Node) (c : Cursor) : Cursor :=
  { c with pile := n :: c.pile, height := c.height + 1 }

end Cursor

namespace Parser

def ahead : Parser Gap := do return (← get).gap false

def skipGap : Parser Unit := modify fun c => c.past (c.gap false)

def unexpected {α : Type} : Parser α := do
  let g ← ahead
  throw ⟨g.row, g.rest.isEmpty⟩

/-- Runs a parser; if it fails, nothing has happened. -/
def attempt {α : Type} (p : Parser α) : Parser (Option α) := fun c =>
  match p c with
  | .ok (a, c) => .ok (some a, c)
  | .error _ => .ok (none, c)

def succeeds (p : Parser Unit) : Parser Bool := do return (← attempt p).isSome

def orElse {α : Type} (p q : Parser α) : Parser α := fun c =>
  match p c with
  | .ok r => .ok r
  | .error _ => q c

def repeatUpTo : Nat → Parser Bool → Parser Unit
  | 0, _ => pure ()
  | n + 1, step => do
    if ← step then repeatUpTo n step

/-- Repeats a step as long as it says so; a step that says so moves on. -/
def repeatWhile (step : Parser Bool) : Parser Unit := do
  repeatUpTo ((← get).rest.length + 1) step

def advance (n : Nat) : Parser Unit := modify fun c => { c with rest := c.rest.drop n }

/-! Marks and words -/

def mark : Parser String := do return markAt (← ahead).rest

def isMark (m : String) : Parser Bool := do return (← mark) == m

def takeMark? (m : String) : Parser Bool := do
  if ← isMark m then
    skipGap
    advance m.length
    return true
  else return false

def expectMark (m : String) : Parser Unit := do
  unless ← takeMark? m do unexpected

/-- A single character, even where it could begin a longer mark. -/
def takeChar? (ch : Char) : Parser Bool := do
  if (← ahead).rest.head? == some ch then
    skipGap
    advance 1
    return true
  else return false

def expectChar (ch : Char) : Parser Unit := do
  unless ← takeChar? ch do unexpected

def peekChar? : Parser (Option Char) := do return (← ahead).rest.head?

def peekWord? : Parser (Option String) := do return (Source.word? (← ahead).rest).map Prod.fst

def isWord (w : String) : Parser Bool := do return (← peekWord?) == some w

def takeWord : Parser String := do
  skipGap
  let c ← get
  match Source.word? c.rest with
  | some (w, rest) =>
    set { c with rest := rest }
    return w
  | none => unexpected

def takeWord? (w : String) : Parser Bool := do
  if ← isWord w then
    discard takeWord
    return true
  else return false

def expectWord (w : String) : Parser Unit := do
  unless ← takeWord? w do unexpected

/-- Whether something holds after the next word, which is looked at only. -/
def afterWord (p : Parser Bool) : Parser Bool := fun c =>
  match (do discard takeWord; p : Parser Bool) c with
  | .ok (b, _) => .ok (b, c)
  | .error _ => .ok (false, c)

def atWord : Parser Bool := do return (← peekWord?).isSome

/-! Nodes -/

structure Start where
  height : Nat
  row : Nat

def begin : Parser Start := do
  skipGap
  let c ← get
  return ⟨c.height, c.row⟩

def finish (s : Start) (kind : Kind) : Parser Unit := modify fun c =>
  let own := c.height - s.height
  { c with
    pile := Node.plain kind s.row (c.pile.take own).reverse :: c.pile.drop own
    height := s.height + 1 }

def setRole (role : Role) : Parser Unit := modify fun c =>
  match c.pile with
  | n :: rest => { c with pile := { n with role := some role } :: rest }
  | [] => c

def newest? : Parser (Option Node) := do return (← get).pile.head?

def replaceNewest (f : Node → Node) : Parser Unit := modify fun c =>
  match c.pile with
  | n :: rest => { c with pile := f n :: rest }
  | [] => c

def leaf (kind : Kind) (row : Nat) (text : String) : Parser Unit :=
  modify fun c => c.push { Node.plain kind row [] with text := some text }

def wordLeaf (kind : Kind) : Parser Unit := do
  let s ← begin
  leaf kind s.row (← takeWord)

def keyword (kind : Kind) : Parser Unit := do
  let s ← begin
  let text ← takeWord
  modify fun c => c.push { Node.plain kind s.row [] with text := some text, named := false }

/-- A node of a kind that the audit does not tell apart. -/
def node (name : String) (p : Parser Unit) : Parser Unit := do
  let s ← begin
  p
  finish s (.other name)

def inRole (role : Role) (p : Parser Unit) : Parser Unit := do
  p
  setRole role

/-! Things that may be left out -/

/-- A closing mark. Before a semicolon or a brace it may be made up for. -/
def close (m : String) : Parser Unit := do
  unless ← takeMark? m do
    let next ← mark
    if (← get).repair = .allowed && (next == ";" || next == "\x7b") then
      let g ← ahead
      modify fun c =>
        let made := { Node.plain (.other m) g.edge [] with missing := true, named := false }
        { (c.past g).push made with repair := .done }
    else unexpected

/-- A closing brace, which may be made up for at the end of the source. -/
def closeBrace : Parser Unit := do
  unless ← takeMark? "\x7d" do
    let g ← ahead
    if (← get).repair = .allowed && g.rest.isEmpty then
      modify fun c => (c.past g).push
        { Node.plain (.other "\x7d") g.edge [] with missing := true, named := false }
      modify fun c => { c with repair := .doneAtEnd }
    else unexpected

/-- Whether what follows a line break goes on with what stood before it. Words that are operators
do, and so does a mark that cannot begin anything; within types, brackets begin something new. -/
def continues (types inType : Bool) : List Char → Bool
  | [] => false
  | '.' :: d :: _ => types || !d.isDigit
  | '.' :: _ => true
  | '+' :: c :: _ => c != '+'
  | '-' :: c :: _ => c != '-'
  | '!' :: c :: _ => c == '='
  | 'i' :: 'n' :: rest =>
    let after := match rest with
      | 's' :: 't' :: 'a' :: 'n' :: 'c' :: 'e' :: 'o' :: 'f' :: more => more
      | _ => rest
    !(after.head?.elim false Char.isAlpha)
  | c :: _ => ",:;*%><=?^|&/`+-".toList.contains c || (!inType && (c == '[' || c == '('))

def endsHere (types inType : Bool) : Parser Bool := do
  let g ← ahead
  match g.rest with
  | [] => return (← get).repair ≠ .doneAtEnd
  | '}' :: _ => return true
  | rest => return g.newline && !continues types inType rest

/-- Whether a statement that could end here does so because of a comment: one that reaches the end
of the line leaves what follows it to the next statement. -/
def endsAtComment : Parser Bool := do
  let g ← ahead
  return g.lineCommented && g.rest.head? != some ',' && g.rest.head? != some '='

def semicolon (d : Dialect) (inType : Bool) : Parser Unit := do
  unless ← takeMark? ";" do
    unless ← endsHere d.types inType do unexpected

end Parser

end ScriptAudit.Source
