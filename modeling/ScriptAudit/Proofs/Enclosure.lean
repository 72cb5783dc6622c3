import ScriptAudit.Proofs.Lookalikes

/-! Nodes that differ in nothing but parentheses around what is assigned or waited for inside them.
Whatever is read off a node by itself goes past these parentheses: keywords are never enclosed, and
neither are names, keys, callees or arguments. -/

namespace ScriptAudit.Syntax

namespace Node

/-- The parents whose values may stand in parentheses. -/
def enclosing : List Kind := [.variableDeclarator, .pair, .fieldDefinition, .publicFieldDefinition,
  .assignmentExpression, .awaitExpression]

/-- Whether a child of such a parent is its value, or what it waits for. -/
def isEnclosable (parent : Kind) (x : Node) : Bool :=
  x.named &&
    match parent with
    | .variableDeclarator | .pair | .fieldDefinition | .publicFieldDefinition =>
      x.role = some .value
    | .assignmentExpression => x.role = some .right
    | .awaitExpression => true
    | _ => false

/-- A pair of parentheses in the place of `x`, on any row, with nothing but `x` inside. -/
structure Encloses (p x : Node) : Prop where
  kind : p.kind = .parenthesized
  role : p.role = x.role
  named : p.named = true
  children : ∃ role, p.children = [{ x with role := role }]

/-- The second tree is the first one with one more pair of parentheses, somewhere in it. -/
inductive Parenthesizes : Node → Node → Prop
  | around {n x p : Node} (left right : List Node) (children : n.children = left ++ x :: right)
    (value : isEnclosable n.kind x) (encloses : p.Encloses x) :
    Parenthesizes n { n with children := left ++ p :: right }
  | inside {n c c' : Node} (left right : List Node) (children : n.children = left ++ c :: right)
    (child : Parenthesizes c c') :
    Parenthesizes n { n with children := left ++ c' :: right }

/-- How the children of corresponding nodes correspond. -/
inductive Child (parent : Kind) : Node → Node → Prop
  | same (c : Node) : Child parent c c
  | inside {c c' : Node} (child : Parenthesizes c c') : Child parent c c'
  | around {x p : Node} (value : isEnclosable parent x) (encloses : p.Encloses x) :
    Child parent x p

/-- Nodes that differ in nothing but the parentheses inside them and their own roles. -/
structure Alike (n n' : Node) : Prop where
  kind : n.kind = n'.kind
  named : n.named = n'.named
  row : n.row = n'.row
  text : n.text = n'.text
  children : List.Forall₂ (Child n.kind) n.children n'.children

theorem isEnclosable_eq_false {parent : Kind} (h : parent ∉ enclosing) (x : Node) :
    isEnclosable parent x = false := by
  unfold isEnclosable
  split <;> simp_all [enclosing]

theorem isEnclosable_eq_false_of_role {parent : Kind} {role : Role} {x : Node}
    (hparent : parent ≠ .awaitExpression) (hrole : role ≠ .value ∧ role ≠ .right)
    (h : x.role = some role) : isEnclosable parent x = false := by
  unfold isEnclosable
  split <;> simp_all

theorem not_mem_enclosing {k : Kind} (h : k.isFunction) : k ∉ enclosing := by
  intro hk
  simp only [enclosing, List.mem_cons, List.not_mem_nil, or_false] at hk
  rcases hk with rfl | rfl | rfl | rfl | rfl | rfl <;> simp [Kind.isFunction] at h

theorem forall₂_same (parent : Kind) (cs : List Node) : List.Forall₂ (Child parent) cs cs :=
  List.forall₂_same.mpr fun c _ => .same c

theorem forall₂_child {parent : Kind} {x y : Node} (h : Child parent x y) (left right : List Node) :
    List.Forall₂ (Child parent) (left ++ x :: right) (left ++ y :: right) :=
  List.rel_append (forall₂_same parent left) (.cons h (forall₂_same parent right))

theorem Encloses.isSilent {p x : Node} (h : p.Encloses x) : p.IsSilent where
  not_class := by simp [isClassLike, h.kind, Kind.isClass]
  not_function := by simp [isFunctionLike, h.kind, Kind.isFunction]
  not_call := by simp [h.kind]
  no_point := by simp [suspension?, h.kind, pure, Except.pure]

theorem Alike.refl (n : Node) : Alike n n := ⟨rfl, rfl, rfl, rfl, forall₂_same n.kind n.children⟩

theorem Alike.moved (x : Node) (role : Option Role) : Alike x { x with role := role } :=
  ⟨rfl, rfl, rfl, rfl, forall₂_same x.kind x.children⟩

theorem Parenthesizes.role_eq {n n' : Node} (h : Parenthesizes n n') : n.role = n'.role := by
  cases h <;> rfl

theorem Parenthesizes.alike {n n' : Node} (h : Parenthesizes n n') : Alike n n' := by
  cases h with
  | around left right children value encloses =>
    refine ⟨rfl, rfl, rfl, rfl, ?_⟩
    rw [children]
    exact forall₂_child (.around value encloses) left right
  | inside left right children child =>
    refine ⟨rfl, rfl, rfl, rfl, ?_⟩
    rw [children]
    exact forall₂_child (.inside child) left right

namespace Child

variable {parent : Kind} {c c' : Node}

theorem role_eq (h : Child parent c c') : c.role = c'.role := by
  cases h with
  | same => rfl
  | inside child => exact child.role_eq
  | around value encloses => exact encloses.role.symm

theorem named_eq (h : Child parent c c') : c.named = c'.named := by
  cases h with
  | same => rfl
  | inside child => exact child.alike.named
  | around value encloses =>
    have hnamed := (Bool.and_eq_true_iff.mp value).1
    rw [hnamed, encloses.named]

theorem alike (h : Child parent c c') (hc : isEnclosable parent c = false) : Alike c c' := by
  cases h with
  | same => exact .refl c
  | inside child => exact child.alike
  | around value encloses =>
    rw [value] at hc
    cases hc

/-- Neither parentheses nor what they enclose is a keyword. -/
theorem isKeyword_eq (h : Child parent c c') (keyword : Kind) :
    isKeyword keyword c = isKeyword keyword c' := by
  cases hc : isEnclosable parent c with
  | false => rw [isKeyword, isKeyword, (h.alike hc).kind, (h.alike hc).named]
  | true =>
    have hnamed := (Bool.and_eq_true_iff.mp hc).1
    have hnamed' := h.named_eq ▸ hnamed
    simp [isKeyword, hnamed, hnamed']

end Child

theorem all_unnamed_eq {parent : Kind} {cs cs' : List Node}
    (h : List.Forall₂ (Child parent) cs cs') :
    cs.all (fun s => !s.named) = cs'.all (fun s => !s.named) :=
  all_eq_of_forall₂ h fun hs => by rw [hs.named_eq]

theorem all_role_ne_eq {parent : Kind} {cs cs' : List Node}
    (h : List.Forall₂ (Child parent) cs cs') (role : Role) :
    cs.all (fun s => s.role ≠ some role) = cs'.all (fun s => s.role ≠ some role) :=
  all_eq_of_forall₂ h fun hs => by rw [hs.role_eq]

namespace Alike

variable {n n' : Node}

theorem target? (h : Alike n n') (hkind : n.kind ≠ .awaitExpression) (role : Role)
    (hrole : role ≠ .value ∧ role ≠ .right) :
    Option.Rel Alike (n.child? role) (n'.child? role) := by
  have hfound := rel_find? h.children (p := fun c => c.role = some role)
    (q := fun c => c.role = some role) fun hc => by rw [hc.role_eq]
  unfold Node.child?
  rcases rel_cases hfound with ⟨hn, hn'⟩ | ⟨c, c', hn, hn', hc, hr⟩
  · rw [hn, hn']
    exact .none
  · rw [hn, hn']
    exact .some (hc.alike (isEnclosable_eq_false_of_role hkind hrole (of_decide_eq_true hr)))

theorem namedChildren (h : Alike n n') (hkind : n.kind ∉ enclosing) :
    List.Forall₂ Alike n.namedChildren n'.namedChildren := by
  have hall : List.Forall₂ Alike n.children n'.children :=
    h.children.imp fun c _ hc => hc.alike (isEnclosable_eq_false hkind c)
  exact List.rel_filter (fun _ _ hc => iff_of_eq (congrArg (· = true) hc.named)) hall

theorem before (h : Alike n n') (role : Role) :
    List.Forall₂ (Child n.kind) (n.before role) (n'.before role) :=
  rel_takeWhile h.children fun hc => by rw [hc.role_eq]

theorem isAsync (h : Alike n n') : n.isAsync = n'.isAsync :=
  any_eq_of_forall₂ (h.before .body) fun hc => hc.isKeyword_eq .async

theorem hasKeyword (h : Alike n n') (kind : Kind) : n.hasKeyword kind = n'.hasKeyword kind :=
  any_eq_of_forall₂ h.children fun hc => hc.isKeyword_eq kind

theorem accessor (h : Alike n n') : n.accessor = n'.accessor := by
  apply List.rel_foldl (P := Eq) _ rfl (h.before .name)
  rintro accessor _ rfl c c' hc
  simp only [hc.isKeyword_eq .get, hc.isKeyword_eq .set]

theorem fragments (h : Alike n n') (hkind : n.kind ∉ enclosing) : n.fragments = n'.fragments := by
  have hfragments : List.Forall₂ Alike (n.namedChildren.filter (·.kind = .stringFragment))
      (n'.namedChildren.filter (·.kind = .stringFragment)) :=
    List.rel_filter (fun _ _ hc => by simp only [hc.kind]) (h.namedChildren hkind)
  refine congrArg String.join (map_eq_of_forall₂ hfragments fun hc => ?_)
  rw [Node.content, Node.content, hc.text]

theorem computed? (h : Alike n n') (hkind : n.kind ∉ enclosing) :
    Option.Rel Alike n.computed? n'.computed? :=
  rel_filter? (rel_head? (h.namedChildren hkind)) fun hc => by rw [hc.kind]

end Alike

/-- Whatever is read off a node goes past the parentheses. -/
theorem lookalikes_alike : Lookalikes Alike where
  kind h := h.kind
  named h := h.named
  row h := h.row
  text h := h.text
  child? h := h.target?
  isAsync h := h.isAsync
  hasKeyword h := h.hasKeyword
  accessor h := h.accessor
  fragments h hkind := h.fragments (by simp [hkind, enclosing])
  computed? h hkind := h.computed? (by simp [hkind, enclosing])

end Node

end ScriptAudit.Syntax
