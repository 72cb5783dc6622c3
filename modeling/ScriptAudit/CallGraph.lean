import ScriptAudit.Ordered
import ScriptAudit.Suspension

/-! Declarations and the calls recorded under their names. A call is matched by its bare name only,
so declarations of one name share their calls, whatever file or class they stand in. -/

namespace ScriptAudit

structure Declaration where
  name : String
  file : Text
  line : Int
  isAsync : Bool
  owner : Option String
  /-- The points of its own body, in document order. -/
  points : List Suspension
deriving DecidableEq, Repr

/-- What tells declarations apart even when their names agree. -/
structure Declaration.Id where
  file : Text
  name : String
  line : Int
deriving DecidableEq, Repr

structure Call where
  callee : String
  file : Text
  line : Int
  awaited : Bool
deriving DecidableEq, Repr

def place (file : Text) (line : Int) : Text := file ++ ":" ++ Text.ofInt line

namespace Declaration

def Id.text (id : Id) : Text := id.file ++ ":" ++ Text.ofString id.name ++ ":" ++ Text.ofInt id.line

def Id.le (a b : Id) : Bool :=
  if a.file ≠ b.file then Text.le a.file b.file
  else if a.name ≠ b.name then Text.le (Text.ofString a.name) (Text.ofString b.name)
  else a.line ≤ b.line

def check (d : Declaration) : Except Error Declaration := do
  require (d.name ≠ "") (.blank "name")
  require (!d.file.isEmpty) (.blank "file")
  require (1 ≤ d.line) (.lineBelowOne d.line)
  require (d.owner ≠ some "") .blankOwner
  return d

def id (d : Declaration) : Id := ⟨d.file, d.name, d.line⟩

def site (d : Declaration) : Text := place d.file d.line

def suspends (d : Declaration) : Bool := !d.points.isEmpty

end Declaration

namespace Call

def check (c : Call) : Except Error Call := do
  require (c.callee ≠ "") (.blank "callee_name")
  require (1 ≤ c.line) (.lineBelowOne c.line)
  return c

def site (c : Call) : Text := place c.file c.line

end Call

structure CallGraph where
  /-- One for each identity. -/
  declarations : List Declaration
  /-- The calls of each name that was declared or called. -/
  calls : List (String × List Call)
  skipped : Nat
deriving DecidableEq, Repr

namespace CallGraph

def empty : CallGraph := ⟨[], [], 0⟩

/-- A declaration of the same identity is replaced where it stands. -/
def declare (d : Declaration) (g : CallGraph) : CallGraph :=
  { g with
    declarations := Ordered.put Declaration.id d g.declarations
    calls := Ordered.addTo d.name [] g.calls }

def record (c : Call) (g : CallGraph) : CallGraph :=
  { g with calls := Ordered.addTo c.callee [c] g.calls }

def skip (g : CallGraph) : CallGraph := { g with skipped := g.skipped + 1 }

end CallGraph

/-- A finished graph: the calls of every declared name are recorded. -/
structure Snapshot where
  declarations : List Declaration
  calls : List (String × List Call)
  skipped : Nat
deriving DecidableEq, Repr

namespace Snapshot

/-- Declared names under which no calls are recorded, not even an empty list. -/
def uncountedNames (declarations : List Declaration) (calls : List (String × List Call)) :
    List String :=
  (declarations.map (·.name)).filter fun name => (Ordered.find? name calls).isNone

def make (declarations : List Declaration) (calls : List (String × List Call)) (skipped : Int) :
    Except Error Snapshot := do
  require (0 ≤ skipped) (.negative "skipped_count" skipped)
  match uncountedNames declarations calls with
  | [] => return ⟨declarations, calls, skipped.toNat⟩
  | names => throw (.uncountedNames names)

def empty : Snapshot := ⟨[], [], 0⟩

def callsOf (s : Snapshot) (d : Declaration) : Except Error (List Call) :=
  match Ordered.find? d.name s.calls with
  | some calls => .ok calls
  | none => .error (.uncounted d.name)

def trackable (s : Snapshot) : Nat := s.declarations.length

end Snapshot

def CallGraph.freeze (g : CallGraph) : Except Error Snapshot :=
  Snapshot.make g.declarations g.calls g.skipped

end ScriptAudit
