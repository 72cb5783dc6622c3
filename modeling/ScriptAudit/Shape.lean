import ScriptAudit.Error

/-! How a function is declared, apart from any syntax: under a name of its own, as a member, bound
to a name, or inline. -/

namespace ScriptAudit

inductive Key.Kind where
  | identifier
  | string
  | computedMember
  | unresolved
deriving DecidableEq, Repr

def Key.Kind.name : Key.Kind → String
  | .identifier => "IDENTIFIER"
  | .string => "STRING"
  | .computedMember => "COMPUTED_MEMBER"
  | .unresolved => "UNRESOLVED"

/-- The part of a key that is known without running the program; nothing of an unresolved one. -/
structure Key where
  kind : Key.Kind
  text : String
deriving DecidableEq, Repr

namespace Key

def make (kind : Kind) (text : String) : Except Error Key := do
  match kind with
  | .unresolved => require (text = "") .unresolvedKeyWithText
  | _ => require (text ≠ "") (.textlessKey kind.name)
  return ⟨kind, text⟩

def unresolved : Key := ⟨.unresolved, ""⟩

def name? (key : Key) : Option String :=
  match key.kind with
  | .identifier | .string => some key.text
  | .computedMember => some ("[" ++ key.text ++ "]")
  | .unresolved => none

end Key

inductive Accessor where
  | method
  | getter
  | setter
  | constructor
deriving DecidableEq, Repr

inductive Binding where
  | variable
  | property
  | memberAssignment
deriving DecidableEq, Repr

inductive Shape where
  | declared (name : String)
  | method (key : Key) (accessor : Accessor)
  | bound (binding : Binding) (key : Key)
  | inline
deriving DecidableEq, Repr

namespace Shape

def declare (name : String) : Except Error Shape := do
  require (name ≠ "") (.blank "name")
  return .declared name

def key? : Shape → Option Key
  | .method key _ => some key
  | .bound _ key => some key
  | _ => none

end Shape

end ScriptAudit
