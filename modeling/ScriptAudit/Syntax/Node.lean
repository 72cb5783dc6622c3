import ScriptAudit.Syntax.Kind

/-! Syntax trees, and what can be read off a node without knowing where it stands. -/

namespace ScriptAudit.Syntax

structure Node where
  kind : Kind
  /-- What the node is to its parent, if anything in particular. -/
  role : Option Role
  /-- Whether the node is more than a keyword or a mark. -/
  named : Bool
  /-- Rows count from zero. -/
  row : Int
  text : Option String
  /-- Whether the node stands for something that is not in the source. -/
  missing : Bool
  /-- Whether the node is marked as erroneous by itself. -/
  flawed : Bool
  children : List Node
deriving Repr

namespace Node

def plain (kind : Kind) (row : Int) (children : List Node) : Node :=
  ⟨kind, none, true, row, none, false, false, children⟩

instance : Inhabited Node := ⟨plain .error 0 []⟩

def line (n : Node) : Int := n.row + 1

def content (n : Node) : String := n.text.getD ""

def namedChildren (n : Node) : List Node := n.children.filter (·.named)

def child? (n : Node) (role : Role) : Option Node := n.children.find? fun c => c.role = some role

/-- The children before the first one in a role; all of them if there is none. -/
def before (n : Node) (role : Role) : List Node :=
  n.children.takeWhile fun c => c.role ≠ some role

def isFunctionLike (n : Node) : Bool := n.named && n.kind.isFunction

def isClassLike (n : Node) : Bool := n.named && n.kind.isClass

def isKeyword (kind : Kind) (n : Node) : Bool := n.kind = kind && !n.named

def hasKeyword (n : Node) (kind : Kind) : Bool := n.children.any (isKeyword kind)

/-- Whether the keyword stands before the body. -/
def isAsync (n : Node) : Bool := (n.before .body).any (isKeyword .async)

def className (n : Node) : String := ((n.child? .name).map content).getD "AnonymousClass"

mutual

def size : Node → Nat
  | ⟨_, _, _, _, _, _, _, children⟩ => sizes children + 1

def sizes : List Node → Nat
  | [] => 0
  | n :: rest => n.size + sizes rest

end

mutual

/-- Whether anything in the tree is an error, missing or marked as erroneous. -/
def hasError : Node → Bool
  | ⟨kind, _, _, _, _, missing, flawed, children⟩ =>
    flawed || kind = .error || missing || anyHasError children

def anyHasError : List Node → Bool
  | [] => false
  | n :: rest => n.hasError || anyHasError rest

end

theorem size_eq (n : Node) : n.size = sizes n.children + 1 := by
  cases n; rfl

theorem sizes_append (ms ns : List Node) : sizes (ms ++ ns) = sizes ms + sizes ns := by
  induction ms with
  | nil => simp [sizes]
  | cons m ms ih => simp [sizes, ih, Nat.add_assoc]

theorem sizes_filter_le (p : Node → Bool) (ns : List Node) : sizes (ns.filter p) ≤ sizes ns := by
  induction ns with
  | nil => simp
  | cons n ns ih =>
    simp only [List.filter_cons]
    split <;> simp only [sizes] <;> omega

theorem sizes_namedChildren_lt (n : Node) : sizes n.namedChildren < n.size := by
  have := sizes_filter_le (·.named) n.children
  rw [size_eq]
  unfold namedChildren
  omega

theorem size_lt_of_child? {n c : Node} {role : Role} (h : n.child? role = some c) :
    c.size < n.size := by
  have hmem : c ∈ n.children := List.mem_of_find?_eq_some h
  have hle : ∀ ns : List Node, c ∈ ns → c.size ≤ sizes ns := by
    intro ns
    induction ns with
    | nil => simp
    | cons m ms ih =>
      intro hm
      simp only [sizes]
      rcases List.mem_cons.mp hm with rfl | hm
      · omega
      · have := ih hm
        omega
  have := hle n.children hmem
  have := n.size_eq
  omega

def dotted? (n : Node) : Option String :=
  match n.kind with
  | .identifier | .this => some n.content
  | .memberExpression =>
    match _h : n.child? .object, n.child? .property with
    | some object, some property =>
      if property.kind = .propertyIdentifier then
        match dotted? object with
        | some head => some (head ++ "." ++ property.content)
        | none => none
      else none
    | _, _ => none
  | _ => none
termination_by n.size
decreasing_by exact size_lt_of_child? _h

/-- The property of a member expression, if it is a plain name. -/
def memberName? (n : Node) : Option String :=
  match n.kind, n.child? .property with
  | .memberExpression, some property =>
    if property.kind = .propertyIdentifier then some property.content else none
  | _, _ => none

/-- The bare name that a call calls; a tagged template is no call in this sense. -/
def callee? (n : Node) : Option String :=
  match n.child? .callee with
  | none => none
  | some function =>
    match n.child? .arguments with
    | some ⟨.templateString, _, _, _, _, _, _, _⟩ => none
    | _ => if function.kind = .identifier then some function.content else function.memberName?

end Node

end ScriptAudit.Syntax
