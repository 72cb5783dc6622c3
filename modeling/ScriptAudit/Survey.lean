import ScriptAudit.CallGraph
import ScriptAudit.Syntax.Naming
import ScriptAudit.Syntax.Scope
import ScriptAudit.Verdict

/-! The declarations and calls of a syntax tree, added to a call graph. The tree is walked with an
explicit list of what is still to be done, so that leaving a class is a task among the others. -/

namespace ScriptAudit

open Syntax

/-- The classes around the current place, the innermost first. -/
abbrev Enclosing := List String

namespace Enclosing

def enter (name : String) (classes : Enclosing) : Except Error Enclosing := do
  require (name ≠ "") .blankClass
  return name :: classes

/-- The class that is left, and those still around. -/
def leave : Enclosing → Except Error (String × Enclosing)
  | [] => .error .noOpenClass
  | name :: classes => .ok (name, classes)

def current? (classes : Enclosing) : Option String := classes.head?

end Enclosing

namespace Survey

structure Stats where
  declarations : Nat
  skipped : Nat
  calls : Nat
deriving DecidableEq, Repr

inductive Task where
  | visit (f : Focus)
  | leaveClass

structure Progress where
  graph : CallGraph
  enclosing : Enclosing
  calls : Nat

def start (g : CallGraph) : Progress := ⟨g, [], 0⟩

def visitFunction (config : Config) (path : Text) (f : Focus) (p : Progress) :
    Except Error Progress := do
  let verdict := config.classify (← f.shape)
  if verdict.tracked then
    let points ← f.node.suspensions
    let d ← Declaration.check
      ⟨verdict.name, path, f.node.line, f.node.isAsync, p.enclosing.current?, points⟩
    return { p with graph := p.graph.declare d }
  else return { p with graph := p.graph.skip }

def visitCall (path : Text) (f : Focus) (p : Progress) : Except Error Progress := do
  match f.node.callee? with
  | none => return p
  | some callee =>
    let c ← Call.check ⟨callee, path, f.node.line, f.isAwaited⟩
    return { p with graph := p.graph.record c, calls := p.calls + 1 }

def visit (config : Config) (path : Text) (f : Focus) (p : Progress) : Except Error Progress := do
  if f.node.isClassLike then
    return { p with enclosing := ← p.enclosing.enter f.node.className }
  else if f.node.isFunctionLike then visitFunction config path f p
  else if f.node.kind = .callExpression then visitCall path f p
  else return p

/-- What is to be done inside a node: its children, and leaving it if it is a class. -/
def inside (f : Focus) : List Task :=
  f.namedChildren.map .visit ++ if f.node.isClassLike then [.leaveClass] else []

def Task.size : Task → Nat
  | .visit f => 2 * f.node.size
  | .leaveClass => 1

def Task.sizes : List Task → Nat
  | [] => 0
  | task :: rest => task.size + sizes rest

theorem sizes_visits (fs : List Focus) : Task.sizes (fs.map .visit) = 2 * Focus.sizes fs := by
  induction fs with
  | nil => rfl
  | cons f fs ih =>
    simp only [Task.sizes, Focus.sizes, List.map_cons, Task.size, Node.sizes] at *
    omega

theorem sizes_append (ts us : List Task) :
    Task.sizes (ts ++ us) = Task.sizes ts + Task.sizes us := by
  induction ts with
  | nil => simp [Task.sizes]
  | cons t ts ih => simp [Task.sizes, ih, Nat.add_assoc]

theorem sizes_inside_lt (f : Focus) : Task.sizes (inside f) < 2 * f.node.size := by
  have hc := f.sizes_namedChildren_lt
  rw [inside, sizes_append, sizes_visits]
  split
  · simp only [Task.sizes, Task.size]
    omega
  · simp only [Task.sizes]
    omega

/-- Carries out the tasks. What was added before an error stays in the graph. -/
def run (config : Config) (path : Text) (tasks : List Task) (p : Progress) :
    Progress × Except Error Unit :=
  match tasks with
  | [] => (p, .ok ())
  | .leaveClass :: rest =>
    match p.enclosing.leave with
    | .error e => (p, .error e)
    | .ok (_, enclosing) => run config path rest { p with enclosing := enclosing }
  | .visit f :: rest =>
    match visit config path f p with
    | .error e => (p, .error e)
    | .ok p => run config path (inside f ++ rest) p
termination_by Task.sizes tasks
decreasing_by
  · simp [Task.sizes, Task.size]
  · have := sizes_inside_lt f
    rw [sizes_append]
    simp only [Task.sizes, Task.size] at *
    omega

def addTree (config : Config) (path : Text) (tree : Node) (g : CallGraph) :
    CallGraph × Except Error Stats :=
  let (p, outcome) := run config path [.visit (.root tree)] (start g)
  (p.graph, outcome.map fun _ => {
    declarations := p.graph.declarations.length - g.declarations.length
    skipped := p.graph.skipped - g.skipped
    calls := p.calls })

/-- Adds trees one after the other; one that breaks off keeps what it had added. -/
def addTrees (config : Config) (g : CallGraph) :
    List (Text × Node) → CallGraph × List (Except Error Stats)
  | [] => (g, [])
  | (path, tree) :: rest =>
    let (g, stats) := addTree config path tree g
    let (g, all) := addTrees config g rest
    (g, stats :: all)

end Survey

end ScriptAudit
