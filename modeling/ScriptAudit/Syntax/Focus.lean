import ScriptAudit.Syntax.Node

/-! A node together with the place where it stands in its tree. -/

namespace ScriptAudit.Syntax

/-- One step up: the parent, and the siblings on the left, the nearest first. -/
structure Frame where
  parent : Node
  before : List Node

/-- A node and the steps from it to the root. -/
structure Focus where
  node : Node
  frames : List Frame

namespace Focus

def root (n : Node) : Focus := ⟨n, []⟩

/-- The nodes of `rest` in their places, after the siblings `before`. -/
def siblings (parent : Node) (frames : List Frame) (before : List Node) : List Node → List Focus
  | [] => []
  | n :: rest => ⟨n, ⟨parent, before⟩ :: frames⟩ :: siblings parent frames (n :: before) rest

def children (f : Focus) : List Focus := siblings f.node f.frames [] f.node.children

def namedChildren (f : Focus) : List Focus := f.children.filter (·.node.named)

def parent? (f : Focus) : Option Node := (f.frames.head?).map (·.parent)

/-- The nearest ancestor that is not a pair of parentheses. -/
def syntacticParent? (f : Focus) : Option Node :=
  (f.frames.find? fun frame => frame.parent.kind ≠ .parenthesized).map (·.parent)

def isAwaited (f : Focus) : Bool :=
  match f.syntacticParent? with
  | some parent => parent.kind = .awaitExpression
  | none => false

/-- Whether `n`, standing at the end of `frames`, is what the syntactic parent has in a role, alone
or as the first thing within parentheses. -/
def fills (role : Role) (n : Node) : List Frame → Bool
  | [] => false
  | frame :: frames =>
    if frame.parent.kind = .parenthesized then
      n.named && frame.before.all (fun s => !s.named) && fills role frame.parent frames
    else n.role = some role && frame.before.all fun s => s.role ≠ some role

def isInRole (f : Focus) (role : Role) : Bool := fills role f.node f.frames

theorem map_node_siblings (parent : Node) (frames : List Frame) (before ns : List Node) :
    (siblings parent frames before ns).map (·.node) = ns := by
  induction ns generalizing before with
  | nil => rfl
  | cons n ns ih => simp [siblings, ih]

theorem map_node_namedChildren (f : Focus) :
    f.namedChildren.map (·.node) = f.node.namedChildren := by
  have h := List.filter_map (f := (·.node)) (p := fun n : Node => n.named) (l := f.children)
  have hc : f.children.map (·.node) = f.node.children := map_node_siblings ..
  rw [hc] at h
  exact h.symm

/-- How many nodes stand at or below a list of places. -/
def sizes (fs : List Focus) : Nat := Node.sizes (fs.map (·.node))

theorem sizes_namedChildren_lt (f : Focus) : sizes f.namedChildren < f.node.size := by
  unfold sizes
  rw [map_node_namedChildren]
  exact f.node.sizes_namedChildren_lt

theorem sizes_append (fs gs : List Focus) : sizes (fs ++ gs) = sizes fs + sizes gs := by
  simp [sizes, Node.sizes_append]

/-- The named nodes at and below the given places, in document order. -/
def preorder (fs : List Focus) : List Focus :=
  match fs with
  | [] => []
  | f :: rest => f :: preorder (f.namedChildren ++ rest)
termination_by sizes fs
decreasing_by
  have := f.sizes_namedChildren_lt
  rw [sizes_append]
  simp only [sizes, List.map_cons, Node.sizes] at *
  omega

end Focus

end ScriptAudit.Syntax
