import ScriptAudit.Shape
import ScriptAudit.Syntax.Focus

/-! The shape of a function in a tree: read off the node and the place where it stands. -/

namespace ScriptAudit.Syntax

namespace Node

def fragments (n : Node) : String :=
  String.join ((n.namedChildren.filter fun c => c.kind = .stringFragment).map content)

def key (n : Node) : Except Error Key :=
  match n.kind with
  | .propertyIdentifier | .identifier => Key.make .identifier n.content
  | .string =>
    if n.fragments ≠ "" then Key.make .string n.fragments else .ok .unresolved
  | .computedPropertyName =>
    match n.namedChildren.head? with
    | some inner =>
      if inner.kind = .memberExpression then
        match inner.dotted? with
        | some path => Key.make .computedMember path
        | none => .ok .unresolved
      else .ok .unresolved
    | none => .ok .unresolved
  | _ => .ok .unresolved

/-- The last of the accessor keywords before the key. -/
def accessor (n : Node) : Accessor :=
  (n.before .name).foldl (fun accessor c =>
    if isKeyword .get c then .getter else if isKeyword .set c then .setter else accessor) .method

end Node

namespace Focus

def isInClassBody (f : Focus) : Bool :=
  match f.parent? with
  | some parent => parent.kind = .classBody
  | none => false

def methodShape (f : Focus) : Except Error Shape := do
  match f.node.child? .name with
  | none => return .method .unresolved .method
  | some name =>
    let key ← name.key
    let accessor := f.node.accessor
    if accessor = .method && key = ⟨.identifier, "constructor"⟩ && f.isInClassBody then
      return .method key .constructor
    else return .method key accessor

/-- The shape of a function without a name of its own, from what it is assigned to. -/
def boundShape (f : Focus) : Except Error Shape := do
  let some parent := f.syntacticParent? | return .inline
  match parent.kind with
  | .variableDeclarator =>
    match parent.child? .name with
    | some target =>
      if target.kind = .identifier && f.isInRole .value then
        return .bound .variable (← Key.make .identifier target.content)
      else return .inline
    | none => return .inline
  | .pair =>
    match parent.child? .key with
    | some key => if f.isInRole .value then return .bound .property (← key.key) else return .inline
    | none => return .inline
  | .fieldDefinition | .publicFieldDefinition =>
    match (parent.child? .property).or (parent.child? .name) with
    | some key => if f.isInRole .value then return .bound .property (← key.key) else return .inline
    | none => return .inline
  | .assignmentExpression =>
    match parent.child? .left with
    | some left =>
      if f.isInRole .right then
        match left.memberName? with
        | some name => return .bound .memberAssignment (← Key.make .identifier name)
        | none => return .inline
      else return .inline
    | none => return .inline
  | _ => return .inline

def shape (f : Focus) : Except Error Shape :=
  match f.node.kind with
  | .methodDefinition => f.methodShape
  | kind =>
    match f.node.child? .name with
    | some name => Shape.declare name.content
    | none =>
      if kind = .functionDeclaration || kind = .generatorFunctionDeclaration then .ok .inline
      else f.boundShape

end Focus

end ScriptAudit.Syntax
