import ScriptAudit.Proofs.SideBySide

/-! What a relation between nodes has to respect so that a survey cannot tell related trees apart.
A survey looks for children by their roles, for keywords, for the pieces of a string and for the
first thing in a computed key; everything else it reads off a node is made of these. -/

namespace ScriptAudit

namespace Syntax

namespace Node

theorem dotted?_of_member {n : Node} (h : n.kind = .memberExpression) :
    n.dotted? = (n.child? .object).bind fun object => (n.child? .property).bind fun property =>
      if property.kind = .propertyIdentifier then
        object.dotted?.map fun head => head ++ "." ++ property.content
      else none := by
  rw [dotted?]
  simp only [h]
  split
  · rename_i object property hobject hproperty
    rw [hobject, hproperty]
    simp only [Option.bind_some]
    split
    · cases object.dotted? <;> rfl
    · rfl
  · rename_i hnone
    cases hobject : n.child? .object with
    | none => rfl
    | some object =>
      cases hproperty : n.child? .property with
      | none => rfl
      | some property => exact absurd hproperty (hnone _ _ hobject)

theorem dotted?_of_not_member {n : Node} (h : n.kind ≠ .memberExpression) :
    n.dotted? = if n.kind = .identifier ∨ n.kind = .this then some n.content else none := by
  rw [dotted?]
  split
  · rename_i hk
    simp [hk]
  · rename_i hk
    simp [hk]
  · rename_i hk
    exact absurd hk h
  · rename_i hidentifier hthis _
    rw [if_neg fun hk => hk.elim hidentifier hthis]

theorem memberName?_eq (n : Node) :
    n.memberName? =
      if n.kind = .memberExpression then
        (n.child? .property).bind fun property =>
          if property.kind = .propertyIdentifier then some property.content else none
      else none := by
  unfold memberName?
  by_cases hk : n.kind = .memberExpression
  · rw [if_pos hk, hk]
    cases n.child? .property <;> rfl
  · rw [if_neg hk]
    split
    · rename_i hk' _
      exact absurd hk' hk
    · rfl

theorem kind_of_memberName? {n : Node} {name : String} (h : n.memberName? = some name) :
    n.kind = .memberExpression := by
  rw [memberName?_eq] at h
  by_contra hk
  rw [if_neg hk] at h
  cases h

theorem callee?_eq (n : Node) :
    n.callee? = (n.child? .callee).bind fun function =>
      if (n.child? .arguments).any (·.kind = .templateString) then none
      else if function.kind = .identifier then some function.content else function.memberName? := by
  unfold callee?
  cases n.child? .callee with
  | none => rfl
  | some function =>
    cases n.child? .arguments with
    | none => rfl
    | some args =>
      obtain ⟨kind, role, named, row, text, missing, flawed, children⟩ := args
      by_cases hk : kind = .templateString
      · subst hk
        rfl
      · simp [hk]

/-- The member expression that a computed key consists of. -/
def computed? (n : Node) : Option Node :=
  n.namedChildren.head?.filter (·.kind = .memberExpression)

theorem key_of_computed {n : Node} (h : n.kind = .computedPropertyName) :
    n.key = (match n.computed?.bind dotted? with
      | some path => Key.make .computedMember path
      | none => .ok .unresolved) := by
  unfold key computed?
  simp only [h]
  cases n.namedChildren.head? with
  | none => rfl
  | some inner =>
    by_cases hk : inner.kind = .memberExpression
    · cases hdotted : inner.dotted? with
      | none => simp [hk, hdotted, Option.filter_some]
      | some path => simp [hk, hdotted, Option.filter_some]
    · simp [hk, Option.filter_some]

/-- Nodes related in this way look the same. What they have for a value, or wait for, is left out:
it is never looked at from the outside. -/
structure Lookalikes (S : Node → Node → Prop) : Prop where
  kind {n n' : Node} (h : S n n') : n.kind = n'.kind
  named {n n' : Node} (h : S n n') : n.named = n'.named
  row {n n' : Node} (h : S n n') : n.row = n'.row
  text {n n' : Node} (h : S n n') : n.text = n'.text
  child? {n n' : Node} (h : S n n') (hkind : n.kind ≠ .awaitExpression) (role : Role)
    (hrole : role ≠ .value ∧ role ≠ .right) : Option.Rel S (n.child? role) (n'.child? role)
  isAsync {n n' : Node} (h : S n n') : n.isAsync = n'.isAsync
  hasKeyword {n n' : Node} (h : S n n') (keyword : Kind) :
    n.hasKeyword keyword = n'.hasKeyword keyword
  accessor {n n' : Node} (h : S n n') : n.accessor = n'.accessor
  fragments {n n' : Node} (h : S n n') (hkind : n.kind = .string) : n.fragments = n'.fragments
  computed? {n n' : Node} (h : S n n') (hkind : n.kind = .computedPropertyName) :
    Option.Rel S n.computed? n'.computed?

namespace Lookalikes

variable {S : Node → Node → Prop} (hS : Lookalikes S) {n n' : Node} (h : S n n')

include hS h

theorem content : n.content = n'.content := by
  rw [Node.content, Node.content, hS.text h]

theorem line : n.line = n'.line := by
  rw [Node.line, Node.line, hS.row h]

theorem isClassLike : n.isClassLike = n'.isClassLike := by
  rw [Node.isClassLike, Node.isClassLike, hS.named h, hS.kind h]

theorem isFunctionLike : n.isFunctionLike = n'.isFunctionLike := by
  rw [Node.isFunctionLike, Node.isFunctionLike, hS.named h, hS.kind h]

theorem className (hclass : n.isClassLike) : n.className = n'.className := by
  have hkind : n.kind ≠ .awaitExpression := by
    intro hk
    simp [Node.isClassLike, hk, Kind.isClass] at hclass
  rw [Node.className, Node.className,
    map_eq_of_rel (hS.child? h hkind .name (by decide)) hS.content]

theorem memberName? : n.memberName? = n'.memberName? := by
  rw [memberName?_eq, memberName?_eq, ← hS.kind h]
  by_cases hk : n.kind = .memberExpression
  · rw [if_pos hk, if_pos hk]
    apply bind_eq_of_rel (hS.child? h (by simp [hk]) .property (by decide))
    intro property property' _ hp
    rw [hS.kind hp, hS.content hp]
  · rw [if_neg hk, if_neg hk]

theorem callee? (hcall : n.kind = .callExpression) : n.callee? = n'.callee? := by
  have hkind : n.kind ≠ .awaitExpression := by simp [hcall]
  have hargs : (n.child? .arguments).any (·.kind = .templateString) =
      (n'.child? .arguments).any (·.kind = .templateString) := by
    rcases rel_cases (hS.child? h hkind .arguments (by decide)) with
      ⟨ha, ha'⟩ | ⟨args, args', ha, ha', hargs⟩
    · rw [ha, ha']
    · rw [ha, ha', Option.any_some, Option.any_some, hS.kind hargs]
  rw [callee?_eq, callee?_eq, hargs]
  apply bind_eq_of_rel (hS.child? h hkind .callee (by decide))
  intro function function' _ hf
  rw [hS.kind hf, hS.content hf, hS.memberName? hf]

omit h in
theorem dotted? {n n' : Node} (h : S n n') : n.dotted? = n'.dotted? := by
  by_cases hk : n.kind = .memberExpression
  · have hkind : n.kind ≠ .awaitExpression := by simp [hk]
    rw [dotted?_of_member hk, dotted?_of_member (hS.kind h ▸ hk)]
    apply bind_eq_of_rel (hS.child? h hkind .object (by decide))
    intro object object' hmem hobject
    have hsize := size_lt_of_child? hmem
    apply bind_eq_of_rel (hS.child? h hkind .property (by decide))
    intro property property' _ hproperty
    rw [hS.kind hproperty, hS.content hproperty, dotted? hobject]
  · rw [dotted?_of_not_member hk, dotted?_of_not_member (hS.kind h ▸ hk), hS.kind h, hS.content h]
termination_by n.size

theorem key : n.key = n'.key := by
  by_cases hk : n.kind = .computedPropertyName
  · have hpath : n.computed?.bind Node.dotted? = n'.computed?.bind Node.dotted? :=
      bind_eq_of_rel (hS.computed? h hk) fun _ hinner => hS.dotted? hinner
    rw [key_of_computed hk, key_of_computed (hS.kind h ▸ hk), hpath]
  · unfold Node.key
    rw [← hS.kind h, ← hS.content h]
    split
    · rfl
    · rfl
    · rename_i hstring
      rw [hS.fragments h hstring]
    · rename_i hcomputed
      exact absurd hcomputed hk
    · rfl

theorem promiseCall? (hcall : n.kind = .callExpression) : n.promiseCall? = n'.promiseCall? := by
  unfold Node.promiseCall?
  rcases rel_cases (hS.child? h (by simp [hcall]) .callee (by decide)) with
    ⟨hf, hf'⟩ | ⟨function, function', hf, hf', hfun⟩
  · rw [hf, hf']
  · simp only [hf, hf', ← hS.memberName? hfun, hS.line h]
    cases hmethod : function.memberName? with
    | none => rfl
    | some method =>
      have hmember := kind_of_memberName? hmethod
      rcases rel_cases (hS.child? hfun (by simp [hmember]) .object (by decide)) with
        ⟨ho, ho'⟩ | ⟨object, object', ho, ho', hobject⟩
      · simp only [ho, ho']
      · simp only [ho, ho', hS.kind hobject, hS.content hobject]

theorem suspension? : n.suspension? = n'.suspension? := by
  unfold Node.suspension?
  rw [← hS.kind h, ← hS.line h, ← hS.hasKeyword h .await]
  split
  · rfl
  · rfl
  · rename_i hk
    exact hS.promiseCall? h hk
  · rfl

/-- The key of a field, under whichever of its two roles it stands. -/
theorem fieldKey? (hkind : n.kind ≠ .awaitExpression) :
    Option.Rel S ((n.child? .property).or (n.child? .name))
      ((n'.child? .property).or (n'.child? .name)) := by
  rcases rel_cases (hS.child? h hkind .property (by decide)) with
    ⟨hp, hp'⟩ | ⟨key, key', hp, hp', hkey⟩
  · rw [hp, hp', Option.none_or, Option.none_or]
    exact hS.child? h hkind .name (by decide)
  · rw [hp, hp', Option.some_or, Option.some_or]
    exact .some hkey

end Lookalikes

end Node

namespace Focus

theorem isInClassBody_cons (n parent : Node) (before : List Node) (frames : List Frame) :
    isInClassBody ⟨n, ⟨parent, before⟩ :: frames⟩ = decide (parent.kind = .classBody) := rfl

theorem syntacticParent?_cons (n parent : Node) (before : List Node) (frames : List Frame) :
    syntacticParent? ⟨n, ⟨parent, before⟩ :: frames⟩ =
      if parent.kind = .parenthesized then syntacticParent? ⟨parent, frames⟩ else some parent := by
  by_cases hk : parent.kind = .parenthesized
  · simp [syntacticParent?, hk]
  · simp [syntacticParent?, hk]

theorem isInRole_cons (n parent : Node) (before : List Node) (frames : List Frame) (role : Role) :
    isInRole ⟨n, ⟨parent, before⟩ :: frames⟩ role =
      if parent.kind = .parenthesized then
        n.named && before.all (fun s => !s.named) && isInRole ⟨parent, frames⟩ role
      else n.role = some role && before.all fun s => s.role ≠ some role := rfl

/-- The role that a place would have if its value were bound to a name there. -/
def boundRole? (f : Focus) : Option Role := f.syntacticParent?.bind fun parent =>
  match parent.kind with
  | .variableDeclarator | .pair | .fieldDefinition | .publicFieldDefinition => some .value
  | .assignmentExpression => some .right
  | _ => none

/-- Places related in this way look the same, in themselves and in what is around and inside them.
Whether a place has a role is asked of functions only, and only where it would bind them. -/
structure Lookalikes (S : Node → Node → Prop) (R : Focus → Focus → Prop) : Prop where
  nodes : Node.Lookalikes S
  node {f f' : Focus} (h : R f f') : S f.node f'.node
  in_class_body {f f' : Focus} (h : R f f') : f.isInClassBody = f'.isInClassBody
  parent {f f' : Focus} (h : R f f') : Option.Rel S f.syntacticParent? f'.syntacticParent?
  in_role {f f' : Focus} (h : R f f') (hfunction : f.node.isFunctionLike) (role : Role)
    (hrole : f.boundRole? = some role) : f.isInRole role = f'.isInRole role
  body? {f f' : Focus} (h : R f f') (hfunction : f.node.isFunctionLike) :
    Matched R f.body?.toList f'.body?.toList
  namedChildren {f f' : Focus} (h : R f f') : Matched R f.namedChildren f'.namedChildren

namespace Lookalikes

variable {S : Node → Node → Prop} {R : Focus → Focus → Prop} (hR : Lookalikes S R)
  {f f' : Focus} (h : R f f')

include hR h

theorem isAwaited : f.isAwaited = f'.isAwaited := by
  unfold Focus.isAwaited
  rcases rel_cases (hR.parent h) with ⟨hp, hp'⟩ | ⟨parent, parent', hp, hp', hparent⟩
  · rw [hp, hp']
  · simp only [hp, hp', hR.nodes.kind hparent]

theorem suspensions (hfunction : f.node.isFunctionLike) :
    f.node.suspensions = f'.node.suspensions := by
  rw [suspensions_eq_pointsOf, suspensions_eq_pointsOf]
  exact pointsOf_eq_of_matched hR.namedChildren (fun same => hR.nodes.isFunctionLike (hR.node same))
    (fun same => hR.nodes.suspension? (hR.node same)) (hR.body? h hfunction)

theorem name? (hfunction : f.node.isFunctionLike) :
    Option.Rel S (f.node.child? .name) (f'.node.child? .name) := by
  refine hR.nodes.child? (hR.node h) ?_ .name (by decide)
  intro hk
  simp [Node.isFunctionLike, hk, Kind.isFunction] at hfunction

theorem methodShape (hfunction : f.node.isFunctionLike) : f.methodShape = f'.methodShape := by
  unfold Focus.methodShape
  rcases rel_cases (hR.name? h hfunction) with ⟨hn, hn'⟩ | ⟨name, name', hn, hn', hname⟩
  · rw [hn, hn']
  · simp only [hn, hn', hR.nodes.key hname, hR.nodes.accessor (hR.node h), hR.in_class_body h]

/-- What a function is bound to is never the value itself, so it is found by its role. -/
theorem boundShape (hfunction : f.node.isFunctionLike) : f.boundShape = f'.boundShape := by
  unfold Focus.boundShape
  rcases rel_cases (hR.parent h) with ⟨hp, hp'⟩ | ⟨parent, parent', hp, hp', hparent⟩
  · rw [hp, hp']
  · have hrole (role : Role) (hrole : f.boundRole? = some role) :
        f'.isInRole role = f.isInRole role := (hR.in_role h hfunction role hrole).symm
    simp only [hp, hp', ← hR.nodes.kind hparent]
    split
    · rename_i hk
      rw [hrole .value (by simp [boundRole?, hp, hk])]
      have htarget := hR.nodes.child? hparent (by simp [hk]) .name (by decide)
      rcases rel_cases htarget with ⟨ht, ht'⟩ | ⟨target, target', ht, ht', htarget⟩
      · simp only [ht, ht']
      · simp only [ht, ht', hR.nodes.kind htarget, hR.nodes.content htarget]
    · rename_i hk
      rw [hrole .value (by simp [boundRole?, hp, hk])]
      have hkey := hR.nodes.child? hparent (by simp [hk]) .key (by decide)
      rcases rel_cases hkey with ⟨ht, ht'⟩ | ⟨key, key', ht, ht', hkey⟩
      · simp only [ht, ht']
      · simp only [ht, ht', hR.nodes.key hkey]
    · rename_i hk
      rw [hrole .value (by simp [boundRole?, hp, hk])]
      have hkey := hR.nodes.fieldKey? hparent (by simp [hk])
      rcases rel_cases hkey with ⟨ht, ht'⟩ | ⟨key, key', ht, ht', hkey⟩
      · simp only [ht, ht']
      · simp only [ht, ht', hR.nodes.key hkey]
    · rename_i hk
      rw [hrole .value (by simp [boundRole?, hp, hk])]
      have hkey := hR.nodes.fieldKey? hparent (by simp [hk])
      rcases rel_cases hkey with ⟨ht, ht'⟩ | ⟨key, key', ht, ht', hkey⟩
      · simp only [ht, ht']
      · simp only [ht, ht', hR.nodes.key hkey]
    · rename_i hk
      rw [hrole .right (by simp [boundRole?, hp, hk])]
      have hleft := hR.nodes.child? hparent (by simp [hk]) .left (by decide)
      rcases rel_cases hleft with ⟨ht, ht'⟩ | ⟨left, left', ht, ht', hleft⟩
      · simp only [ht, ht']
      · simp only [ht, ht', hR.nodes.memberName? hleft]
    · rfl

theorem shape (hfunction : f.node.isFunctionLike) : f.shape = f'.shape := by
  unfold Focus.shape
  rw [← hR.nodes.kind (hR.node h)]
  split
  · exact hR.methodShape h hfunction
  · rcases rel_cases (hR.name? h hfunction) with ⟨hn, hn'⟩ | ⟨name, name', hn, hn', hname⟩
    · simp only [hn, hn', hR.boundShape h hfunction]
    · simp only [hn, hn', hR.nodes.content hname]

end Lookalikes

end Focus

end Syntax

open Syntax

namespace Survey

variable {S : Node → Node → Prop} {R : Focus → Focus → Prop} (hR : Focus.Lookalikes S R)

include hR

section

variable {f f' : Focus} (h : R f f') (config : Config) (path : Text) (owner : Option String)

include h

theorem functionEntry_eq_of_lookalikes (hfunction : f.node.isFunctionLike) :
    functionEntry config path owner f = functionEntry config path owner f' := by
  rw [functionEntry, functionEntry, hR.shape h hfunction, hR.suspensions h hfunction,
    hR.nodes.line (hR.node h), hR.nodes.isAsync (hR.node h)]

theorem callEntry_eq_of_lookalikes (hcall : f.node.kind = .callExpression) :
    callEntry path f = callEntry path f' := by
  rw [callEntry, callEntry, hR.nodes.callee? (hR.node h) hcall, hR.nodes.line (hR.node h),
    hR.isAwaited h]

theorem nodeEntry_eq_of_lookalikes :
    nodeEntry config path owner f = nodeEntry config path owner f' := by
  rw [nodeEntry, nodeEntry, ← hR.nodes.isClassLike (hR.node h),
    ← hR.nodes.isFunctionLike (hR.node h), ← hR.nodes.kind (hR.node h)]
  split
  · rename_i hclass
    rw [hR.nodes.className (hR.node h) hclass]
  · split
    · rename_i hfunction
      rw [functionEntry_eq_of_lookalikes hR h config path owner hfunction]
    · split
      · rename_i hcall
        exact callEntry_eq_of_lookalikes hR h path hcall
      · rfl

end

/-- Trees whose roots look the same add the same to any graph and end the same way. -/
theorem addTree_eq_of_lookalikes (config : Config) (path : Text) {tree tree' : Node}
    (h : R (.root tree) (.root tree')) (g : CallGraph) :
    addTree config path tree g = addTree config path tree' g :=
  addTree_eq_of_matched hR.namedChildren (fun same => hR.nodes.isClassLike (hR.node same))
    (fun same => hR.nodes.className (hR.node same)) (nodeEntry_eq_of_lookalikes hR) config path
    (.cons h .nil) g

end Survey

end ScriptAudit
