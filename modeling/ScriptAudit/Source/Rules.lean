import ScriptAudit.Source.Parser

/-! The rules of the grammar refer to one another. Each is written against a table of all of them,
and the table is closed at the end, with a bound on the depth of nesting. -/

namespace ScriptAudit.Source

structure Context where
  /-- In the head of a loop, where the operator `in` is kept for the loop. -/
  noIn : Bool
  /-- At the end of a statement, so that a line break may end it. -/
  tail : Bool
  /-- Between the question mark and the colon of a condition. -/
  branch : Bool
deriving DecidableEq, Repr

namespace Context

def inner : Context := ⟨false, false, false⟩

def statement : Context := ⟨false, true, false⟩

end Context

inductive Goal where
  | statement
  | block
  | expression (c : Context)
  | unary (c : Context)
  | leftHand
  | construction
  | type
  | pattern
  | parameters
  | element

structure Rules where
  dialect : Dialect
  run : Goal → Parser Unit

namespace Rules

def statement (r : Rules) : Parser Unit := r.run .statement

def block (r : Rules) : Parser Unit := r.run .block

def expression (r : Rules) (c : Context) : Parser Unit := r.run (.expression c)

def unary (r : Rules) (c : Context) : Parser Unit := r.run (.unary c)

def construction (r : Rules) : Parser Unit := r.run .construction

def leftHand (r : Rules) : Parser Unit := r.run .leftHand

def type (r : Rules) : Parser Unit := r.run .type

def pattern (r : Rules) : Parser Unit := r.run .pattern

def parameters (r : Rules) : Parser Unit := r.run .parameters

def element (r : Rules) : Parser Unit := r.run .element

def sequence (r : Rules) (c : Context) : Parser Unit := do
  let s ← Parser.begin
  r.expression c
  if ← Parser.isMark "," then
    Parser.repeatWhile do
      if ← Parser.takeMark? "," then
        r.expression c
        return true
      else return false
    Parser.finish s (.other "sequence_expression")

def initializer (r : Rules) (c : Context) : Parser Unit := do
  Parser.expectMark "="
  Parser.inRole .value (r.expression c)

end Rules

end ScriptAudit.Source
