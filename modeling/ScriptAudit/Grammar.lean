import ScriptAudit.Analysis
import ScriptAudit.Syntax.Node
import ScriptAudit.Text.LetterCase

/-! Which grammars a file is tried with, which of their trees is taken, and where the error is if
none can be. -/

namespace ScriptAudit

open Syntax

inductive Grammar where
  | javascript
  | typescript
  | tsx
deriving DecidableEq, Repr

namespace Grammar

def name : Grammar → String
  | .javascript => "javascript"
  | .typescript => "typescript"
  | .tsx => "tsx"

def suffix (path : Text) : Text :=
  let tail := (path.reverse.takeWhile fun s => s ≠ .char '.').reverse
  if tail.length < path.length then Text.lower (.char '.' :: tail) else []

/-- The grammars for a path, the preferred one first. Annotated scripts are understood too, and
other files are taken for plain scripts. -/
def candidates (path : Text) : List Grammar :=
  let s := suffix path
  if s = Text.ofString ".ts" ∨ s = Text.ofString ".mts" ∨ s = Text.ofString ".cts" then
    [.typescript]
  else if s = Text.ofString ".tsx" then [.tsx]
  else [.javascript, .tsx]

end Grammar

structure Rejection where
  path : Text
  reason : String
  line : Option Int
deriving DecidableEq, Repr

def Rejection.message (r : Rejection) : Text :=
  Warning.locate r.path r.line ++ ": " ++ Text.ofString r.reason

namespace Syntax.Node

/-- The first error or missing node in document order; subtrees without errors are passed over. -/
def firstError? (stack : List Node) : Option Node :=
  match stack with
  | [] => none
  | n :: rest =>
    if n.kind = .error || n.missing then some n
    else firstError? (if n.hasError then n.children ++ rest else rest)
termination_by sizes stack
decreasing_by
  have := n.size_eq
  split
  · rw [sizes_append]; simp only [sizes]; omega
  · simp only [sizes]; omega

end Syntax.Node

namespace Grammar

def rejection (path : Text) (tree : Node) : Rejection :=
  match Node.firstError? [tree] with
  | none => ⟨path, "syntax error", none⟩
  | some n =>
    if n.missing then ⟨path, "missing " ++ Text.quote n.kind.name, some n.line⟩
    else ⟨path, "unexpected token", some n.line⟩

structure Outcome where
  rejectedBy : List Grammar
  result : Except Rejection (Grammar × Node)

/-- Tries grammars in order. If all fail, `first`, the tree of the first one, tells why. -/
def tryAll (path : Text) (read : Grammar → Node) (first : Option Node) : List Grammar → Outcome
  | [] =>
    ⟨[], .error (match first with
      | some tree => rejection path tree
      | none => ⟨path, "no grammar available", none⟩)⟩
  | g :: rest =>
    let tree := read g
    if tree.hasError then
      let later := tryAll path read (first.or (some tree)) rest
      { later with rejectedBy := g :: later.rejectedBy }
    else ⟨[], .ok (g, tree)⟩

/-- The tree of the first candidate grammar that has no error. -/
def choose (path : Text) (read : Grammar → Node) : Outcome :=
  tryAll path read none (candidates path)

end Grammar

end ScriptAudit
