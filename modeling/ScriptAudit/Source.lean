import ScriptAudit.Grammar
import ScriptAudit.Source.Statement

/-! The tree of a source. A source that cannot be read gives a tree that says so: with the one mark
that is missing, or with an error in the row of what could not be read. -/

namespace ScriptAudit

open Syntax Source

namespace Source

/-- All rules, with a bound on how deeply they may use one another. -/
def parse (d : Dialect) : Nat → Goal → Parser Unit
  | 0, _ => Parser.unexpected
  | depth + 1, goal =>
    let r : Rules := ⟨d, parse d depth⟩
    match goal with
    | .statement => r.statementRule
    | .block => r.blockRule
    | .expression c => r.expressionRule c
    | .unary c => r.unaryRule c
    | .leftHand => r.leftHandRule
    | .construction => r.constructionRule
    | .type => r.typeRule
    | .pattern => r.patternRule
    | .parameters => r.parametersRule
    | .element => r.elementRule

/-- Nesting costs at least one character and takes a few rules. -/
def depthFor (length : Nat) : Nat := 8 * length + 64

/-- A statement of the program. If the source ends in its midst, all of it is in error. -/
def topStatement (r : Rules) : Parser Unit := fun c =>
  match r.statement c with
  | .ok result => .ok result
  | .error e => .error (if e.atEnd then ⟨(c.gap false).row, true⟩ else e)

/-- The first line may name the program that runs the rest. -/
def dropHashBang : List Char → List Char
  | '#' :: '!' :: rest => rest.dropWhile fun c => !isLineBreak c
  | cs => cs

/-- All statements. A statement with something made up for settles what is wrong with the source,
and no more of it is read. -/
def program (r : Rules) : Parser Unit := do
  Parser.repeatWhile do
    unless r.dialect.types do modify fun c => c.past (c.gap true)
    if (← get).repair = .done then
      modify fun c => { c with rest := [] }
      return false
    else if (← Parser.ahead).rest.isEmpty then
      Parser.skipGap
      return false
    else
      topStatement r
      return true
  unless (← get).rest.isEmpty do Parser.unexpected

/-- Reads a program; `repair` tells whether something missing may be made up for. -/
def readProgram (d : Dialect) (repair : Repair) (source : List Char) : Except Failure Node :=
  let r : Rules := ⟨d, parse d (depthFor source.length)⟩
  match program r ⟨dropHashBang source, 0, [], 0, repair⟩ with
  | .ok (_, c) => .ok (Node.plain (.other "program") 0 c.pile.reverse)
  | .error e => .error e

def read (d : Dialect) (source : List Char) : Node :=
  match readProgram d .forbidden source with
  | .ok tree => tree
  | .error e =>
    match readProgram d .allowed source with
    | .ok tree => tree
    | .error _ => Node.plain (.other "program") 0 [Node.plain .error e.row []]

end Source

def Grammar.dialect : Grammar → Dialect
  | .javascript => ⟨false, true⟩
  | .typescript => ⟨true, false⟩
  | .tsx => ⟨true, true⟩

def Grammar.read (g : Grammar) (source : String) : Node := Source.read g.dialect source.toList

end ScriptAudit
