import Mathlib.Logic.Relation
import ScriptAudit.Proofs.Lookalikes

/-! Comments among the children of a node. They have no role, are no keywords and add nothing, so a
survey passes them wherever it looks for a child by its role. Only where it takes the first named
child, in a computed key and in parentheses around what is bound to a name, can a comment stand in
the way. -/

namespace ScriptAudit

/-- Lists that correspond one by one, but for extra members of the second one. -/
inductive Interspersed {α β : Type} (extra : β → Prop) (R : α → β → Prop) :
    List α → List β → Prop
  | nil : Interspersed extra R [] []
  | cons {x : α} {y : β} {xs : List α} {ys : List β} (same : R x y)
    (rest : Interspersed extra R xs ys) : Interspersed extra R (x :: xs) (y :: ys)
  | extra {y : β} {xs : List α} {ys : List β} (more : extra y)
    (rest : Interspersed extra R xs ys) : Interspersed extra R xs (y :: ys)

namespace Interspersed

variable {α β γ : Type} {extra : β → Prop} {R : α → β → Prop} {xs : List α} {ys : List β}
  {p : α → Bool} {q : β → Bool}

theorem find? (h : Interspersed extra R xs ys) (hpq : ∀ {x y}, R x y → p x = q y)
    (hextra : ∀ {y}, extra y → q y = false) : Option.Rel R (xs.find? p) (ys.find? q) := by
  induction h with
  | nil => exact .none
  | @cons x y xs ys same _ ih =>
    rw [List.find?_cons, List.find?_cons, ← hpq same]
    cases p x with
    | true => exact .some same
    | false => exact ih
  | extra hy _ ih =>
    rw [List.find?_cons, hextra hy]
    exact ih

/-- What is found first among the second is extra, or corresponds to what is found first among the
first. -/
theorem extra_or_of_find? (h : Interspersed extra R xs ys) (hpq : ∀ {x y}, R x y → p x = q y)
    {y : β} (hy : ys.find? q = some y) : extra y ∨ ∃ x, xs.find? p = some x ∧ R x y := by
  induction h with
  | nil => cases hy
  | @cons x z xs ys same _ ih =>
    rw [List.find?_cons] at hy
    rw [List.find?_cons, hpq same]
    cases hz : q z with
    | true =>
      rw [hz] at hy
      cases hy
      exact Or.inr ⟨x, rfl, same⟩
    | false =>
      rw [hz] at hy
      exact ih hy
  | @extra z xs ys hz _ ih =>
    rw [List.find?_cons] at hy
    cases hq : q z with
    | true =>
      rw [hq] at hy
      cases hy
      exact Or.inl hz
    | false =>
      rw [hq] at hy
      exact ih hy

theorem takeWhile (h : Interspersed extra R xs ys) (hpq : ∀ {x y}, R x y → p x = q y)
    (hextra : ∀ {y}, extra y → q y = true) :
    Interspersed extra R (xs.takeWhile p) (ys.takeWhile q) := by
  induction h with
  | nil => exact .nil
  | @cons x y xs ys same _ ih =>
    rw [List.takeWhile_cons, List.takeWhile_cons, ← hpq same]
    split
    · exact .cons same ih
    · exact .nil
  | extra hy _ ih =>
    rw [List.takeWhile_cons, if_pos (hextra hy)]
    exact .extra hy ih

theorem any_eq (h : Interspersed extra R xs ys) (hpq : ∀ {x y}, R x y → p x = q y)
    (hextra : ∀ {y}, extra y → q y = false) : xs.any p = ys.any q := by
  induction h with
  | nil => rfl
  | cons same _ ih => rw [List.any_cons, List.any_cons, hpq same, ih]
  | extra hy _ ih => rw [List.any_cons, hextra hy, Bool.false_or, ih]

theorem foldl_eq {f : γ → α → γ} {g : γ → β → γ} (h : Interspersed extra R xs ys)
    (hfg : ∀ {x y} a, R x y → f a x = g a y) (hextra : ∀ {y} a, extra y → g a y = a) (a : γ) :
    xs.foldl f a = ys.foldl g a := by
  induction h generalizing a with
  | nil => rfl
  | cons same _ ih => rw [List.foldl_cons, List.foldl_cons, hfg a same, ih]
  | extra hy _ ih => rw [List.foldl_cons, hextra a hy, ih]

theorem filter (h : Interspersed extra R xs ys) (hpq : ∀ {x y}, R x y → p x = q y)
    (hextra : ∀ {y}, extra y → q y = false) : List.Forall₂ R (xs.filter p) (ys.filter q) := by
  induction h with
  | nil => exact .nil
  | @cons x y xs ys same _ ih =>
    rw [List.filter_cons, List.filter_cons, ← hpq same]
    split
    · exact .cons same ih
    · exact ih
  | extra hy _ ih =>
    rw [List.filter_cons, hextra hy]
    exact ih

end Interspersed

namespace Syntax

namespace Focus

/-- Whether a place is where its parent looks for what it gives a name to. -/
def isBound (f : Focus) : Bool := f.boundRole?.any f.isInRole

/-- What a survey expects as the first thing inside: a function or more parentheses, in parentheses
that are bound to a name, and a path in a computed key. -/
def expects (f : Focus) (child : Kind) : Bool :=
  match f.node.kind with
  | .parenthesized => f.isBound && (child.isFunction || child = .parenthesized)
  | .computedPropertyName => child = .memberExpression
  | _ => false

/-- Whether a comment between `left` and `right` comes in front of nothing that is expected to be
first. -/
def keepsFirst (f : Focus) (left right : List Node) : Bool :=
  left.any (·.named) || (right.find? (·.named)).all fun c => !f.expects c.kind

theorem expects_comment (f : Focus) : f.expects .comment = false := by
  unfold expects
  split <;> simp [Kind.isFunction]

end Focus

namespace Node

structure IsComment (c : Node) : Prop where
  kind : c.kind = .comment
  role : c.role = none
  named : c.named = true
  childless : c.children = []

/-- At the end of `frames`, the second tree is the first one with one more comment, in any place
between two children that `between` allows. -/
inductive Annotates (between : Focus → List Node → List Node → Bool) :
    List Frame → Node → Node → Prop
  | here {frames : List Frame} {n c : Node} (left right : List Node)
    (children : n.children = left ++ right) (comment : c.IsComment)
    (allowed : between ⟨n, frames⟩ left right) :
    Annotates between frames n { n with children := left ++ c :: right }
  | inside {frames : List Frame} {n c c' : Node} (left right : List Node)
    (children : n.children = left ++ c :: right)
    (child : Annotates between (⟨n, left.reverse⟩ :: frames) c c') :
    Annotates between frames n { n with children := left ++ c' :: right }

/-- Trees that differ in one such comment at most, where they stand. -/
abbrev NearlyAt (frames : List Frame) (n n' : Node) : Prop :=
  Relation.ReflGen (Annotates Focus.keepsFirst frames) n n'

def Nearly (n n' : Node) : Prop := ∃ frames, NearlyAt frames n n'

/-- Children of a node, behind the siblings `before`, that differ in nothing but comments among them
and inside them. -/
inductive Commented (parent : Node) (frames : List Frame) :
    List Node → List Node → List Node → Prop
  | nil {before : List Node} : Commented parent frames before [] []
  | cons {before cs cs' : List Node} {c c' : Node}
    (same : NearlyAt (⟨parent, before⟩ :: frames) c c')
    (rest : Commented parent frames (c :: before) cs cs') :
    Commented parent frames before (c :: cs) (c' :: cs')
  | extra {before cs cs' : List Node} {c : Node} (comment : c.IsComment)
    (rest : Commented parent frames before cs cs') : Commented parent frames before cs (c :: cs')

/-- Nodes that differ in nothing but comments inside them. -/
structure Uncommented (n n' : Node) : Prop where
  kind : n.kind = n'.kind
  role : n.role = n'.role
  named : n.named = n'.named
  row : n.row = n'.row
  text : n.text = n'.text
  children : Interspersed IsComment Nearly n.children n'.children
  first : n.kind = .computedPropertyName → ∀ x, n.children.find? (·.named) = some x →
    x.kind = .memberExpression → ∃ y, n'.children.find? (·.named) = some y ∧ Nearly x y

theorem IsComment.isSilent {c : Node} (h : c.IsComment) : c.IsSilent where
  not_class := by simp [isClassLike, h.kind, Kind.isClass]
  not_function := by simp [isFunctionLike, h.kind, Kind.isFunction]
  not_call := by simp [h.kind]
  no_point := by simp [suspension?, h.kind, pure, Except.pure]

theorem IsComment.not_keyword {c : Node} (h : c.IsComment) (keyword : Kind) :
    isKeyword keyword c = false := by
  simp [isKeyword, h.named]

namespace Commented

variable {parent : Node} {frames : List Frame} {before cs cs' : List Node}

theorem refl (before cs : List Node) : Commented parent frames before cs cs := by
  induction cs generalizing before with
  | nil => exact .nil
  | cons c cs ih => exact .cons .refl (ih (c :: before))

theorem insert {c : Node} (comment : c.IsComment) (before left right : List Node) :
    Commented parent frames before (left ++ right) (left ++ c :: right) := by
  induction left generalizing before with
  | nil => exact .extra comment (refl before right)
  | cons x left ih => exact .cons .refl (ih (x :: before))

theorem replace {c c' : Node} (left right : List Node)
    (child : NearlyAt (⟨parent, left.reverse ++ before⟩ :: frames) c c') :
    Commented parent frames before (left ++ c :: right) (left ++ c' :: right) := by
  induction left generalizing before with
  | nil => exact .cons child (refl (c :: before) right)
  | cons x left ih =>
    refine .cons .refl (ih ?_)
    rwa [List.reverse_cons, List.append_assoc] at child

theorem interspersed (h : Commented parent frames before cs cs') :
    Interspersed IsComment Nearly cs cs' := by
  induction h with
  | nil => exact .nil
  | cons same _ ih => exact .cons ⟨_, same⟩ ih
  | extra comment _ ih => exact .extra comment ih

end Commented

section

variable {frames : List Frame} {n n' c c' x : Node}

theorem Nearly.refl (n : Node) : Nearly n n := ⟨[], .refl⟩

theorem NearlyAt.children (h : NearlyAt frames n n') :
    Commented n frames [] n.children n'.children := by
  cases h with
  | refl => exact .refl [] n.children
  | single h =>
    cases h with
    | here left right children comment allowed =>
      rw [children]
      exact .insert comment [] left right
    | inside left right children child =>
      rw [children]
      refine .replace left right (.single ?_)
      rwa [List.append_nil]

/-- What is expected to be first stays first. -/
theorem NearlyAt.first (h : NearlyAt frames n n') (hx : n.children.find? (·.named) = some x)
    (hexpected : Focus.expects ⟨n, frames⟩ x.kind) :
    ∃ y, n'.children.find? (·.named) = some y ∧ Nearly x y := by
  cases h with
  | refl => exact ⟨x, hx, .refl x⟩
  | single h =>
    cases h with
    | @here _ _ c left right children comment allowed =>
      rw [children, List.find?_append] at hx
      cases hleft : left.find? (·.named) with
      | some y =>
        rw [hleft, Option.some_or] at hx
        exact ⟨x, by rw [List.find?_append, hleft, Option.some_or, hx], .refl x⟩
      | none =>
        -- nothing named comes before the comment, so `x` would be what it comes in front of
        have hnone : left.any (·.named) = false := by simpa using hleft
        rw [hleft, Option.none_or] at hx
        simp [Focus.keepsFirst, hnone, hx, hexpected] at allowed
    | @inside _ _ c c' left right children child =>
      have hnamed : c.named = c'.named := by cases child <;> rfl
      rw [children, List.find?_append, List.find?_cons] at hx
      rw [List.find?_append, List.find?_cons, ← hnamed]
      cases hleft : left.find? (·.named) with
      | some y =>
        rw [hleft] at hx
        exact ⟨x, hx, .refl x⟩
      | none =>
        rw [hleft, Option.none_or] at hx
        rw [Option.none_or]
        cases hc : c.named with
        | true =>
          rw [hc] at hx
          cases hx
          exact ⟨c', rfl, _, .single child⟩
        | false =>
          rw [hc] at hx
          exact ⟨x, hx, .refl x⟩

theorem NearlyAt.uncommented (h : NearlyAt frames n n') : Uncommented n n' := by
  have hchildren := h.children.interspersed
  have hfirst (hkind : n.kind = .computedPropertyName) (x : Node)
      (hx : n.children.find? (·.named) = some x) (hmember : x.kind = .memberExpression) :=
    h.first hx (by simp [Focus.expects, hkind, hmember])
  cases h with
  | refl => exact ⟨rfl, rfl, rfl, rfl, rfl, hchildren, hfirst⟩
  | single h => cases h <;> exact ⟨rfl, rfl, rfl, rfl, rfl, hchildren, hfirst⟩

theorem Nearly.uncommented (h : Nearly n n') : Uncommented n n' := by
  obtain ⟨frames, h⟩ := h
  exact h.uncommented

theorem Nearly.role (h : Nearly n n') : n.role = n'.role := h.uncommented.role

theorem Nearly.named (h : Nearly n n') : n.named = n'.named := h.uncommented.named

theorem Nearly.isKeyword_eq (h : Nearly c c') (keyword : Kind) :
    isKeyword keyword c = isKeyword keyword c' := by
  rw [isKeyword, isKeyword, h.uncommented.kind, h.uncommented.named]

namespace Uncommented

theorem child? (h : Uncommented n n') (role : Role) :
    Option.Rel Nearly (n.child? role) (n'.child? role) :=
  h.children.find? (fun same => by rw [same.role]) fun comment => by simp [comment.role]

theorem before (h : Uncommented n n') (role : Role) :
    Interspersed IsComment Nearly (n.before role) (n'.before role) :=
  h.children.takeWhile (fun same => by rw [same.role]) fun comment => by simp [comment.role]

theorem isAsync (h : Uncommented n n') : n.isAsync = n'.isAsync :=
  (h.before .body).any_eq (fun same => same.isKeyword_eq .async)
    fun comment => comment.not_keyword .async

theorem hasKeyword (h : Uncommented n n') (kind : Kind) : n.hasKeyword kind = n'.hasKeyword kind :=
  h.children.any_eq (fun same => same.isKeyword_eq kind) fun comment => comment.not_keyword kind

theorem accessor (h : Uncommented n n') : n.accessor = n'.accessor := by
  refine (h.before .name).foldl_eq (fun accessor same => ?_) (fun accessor comment => ?_) _
  · simp only [same.isKeyword_eq .get, same.isKeyword_eq .set]
  · simp [comment.not_keyword .get, comment.not_keyword .set]

theorem fragments (h : Uncommented n n') : n.fragments = n'.fragments := by
  have hfragments := h.children.filter (p := fun c => c.kind = .stringFragment && c.named)
    (q := fun c => c.kind = .stringFragment && c.named)
    (fun same => by rw [same.uncommented.kind, same.named])
    fun comment => by simp [comment.kind]
  have hcontents := map_eq_of_forall₂ (f := content) (g := content) hfragments fun same => by
    rw [content, content, same.uncommented.text]
  unfold Node.fragments Node.namedChildren
  rw [List.filter_filter, List.filter_filter]
  exact congrArg String.join hcontents

theorem computed? (h : Uncommented n n') (hkind : n.kind = .computedPropertyName) :
    Option.Rel Nearly n.computed? n'.computed? := by
  unfold Node.computed? Node.namedChildren
  rw [List.head?_filter, List.head?_filter]
  cases hy : (n'.children.find? (·.named)).filter (·.kind = .memberExpression) with
  | some y =>
    obtain ⟨hy, hmember⟩ := Option.filter_eq_some_iff.mp hy
    have hmember : y.kind = .memberExpression := of_decide_eq_true hmember
    rcases h.children.extra_or_of_find? Nearly.named hy with comment | ⟨x, hx, hxy⟩
    · rw [comment.kind] at hmember
      cases hmember
    · rw [hx, Option.filter_some, if_pos (by simp [hxy.uncommented.kind, hmember])]
      exact .some hxy
  | none =>
    have hnone : (n.children.find? (·.named)).filter (·.kind = .memberExpression) = none := by
      by_contra hsome
      obtain ⟨x, hx⟩ := Option.ne_none_iff_exists'.mp hsome
      obtain ⟨hx, hmember⟩ := Option.filter_eq_some_iff.mp hx
      have hmember : x.kind = .memberExpression := of_decide_eq_true hmember
      obtain ⟨y, hfound, hxy⟩ := h.first hkind x hx hmember
      rw [hfound, Option.filter_some, if_pos (by simp [← hxy.uncommented.kind, hmember])] at hy
      cases hy
    rw [hnone]
    exact .none

end Uncommented

end

theorem lookalikes_nearly : Lookalikes Nearly where
  kind h := h.uncommented.kind
  named h := h.named
  row h := h.uncommented.row
  text h := h.uncommented.text
  child? h _ role _ := h.uncommented.child? role
  isAsync h := h.uncommented.isAsync
  hasKeyword h := h.uncommented.hasKeyword
  accessor h := h.uncommented.accessor
  fragments h _ := h.uncommented.fragments
  computed? h := h.uncommented.computed?

end Node

namespace Focus

open Node

variable {f f' : Focus}

/-- Places that look the same but for comments. Only functions, and parentheses around them, are
asked for their role, and only where they would be bound. -/
structure Nearly (f f' : Focus) : Prop where
  node : NearlyAt f.frames f.node f'.node
  in_class_body : f.isInClassBody = f'.isInClassBody
  parent : Option.Rel Node.Nearly f.syntacticParent? f'.syntacticParent?
  in_role : f.node.kind.isFunction || f.node.kind = .parenthesized →
    ∀ role, f.boundRole? = some role → f.isInRole role = f'.isInRole role

theorem boundRole?_cons {parent : Node} (hparent : parent.kind = .parenthesized) (n : Node)
    (before : List Node) (frames : List Frame) :
    boundRole? ⟨n, ⟨parent, before⟩ :: frames⟩ = boundRole? ⟨parent, frames⟩ := by
  rw [boundRole?, syntacticParent?_cons, if_pos hparent, boundRole?]

theorem Nearly.child {parent parent' c c' : Node} {frames frames' : List Frame}
    {before before' : List Node} (h : Nearly ⟨parent, frames⟩ ⟨parent', frames'⟩)
    (hc : NearlyAt (⟨parent, before⟩ :: frames) c c')
    (hroles : ∀ role : Role, before.all (fun s => s.role ≠ some role) =
      before'.all fun s => s.role ≠ some role)
    (hfirst : c.named = true → expects ⟨parent, frames⟩ c.kind →
      before.all (fun s => !s.named) = before'.all fun s => !s.named) :
    Nearly ⟨c, ⟨parent, before⟩ :: frames⟩ ⟨c', ⟨parent', before'⟩ :: frames'⟩ where
  node := hc
  in_class_body := by
    rw [isInClassBody_cons, isInClassBody_cons, h.node.uncommented.kind]
  parent := by
    rw [syntacticParent?_cons, syntacticParent?_cons, ← h.node.uncommented.kind]
    split
    · exact h.parent
    · exact .some ⟨_, h.node⟩
  in_role hkind role hrole := by
    rw [isInRole_cons, isInRole_cons, ← h.node.uncommented.kind, hroles role,
      hc.uncommented.role, ← hc.uncommented.named]
    split
    · rename_i hparent
      rw [boundRole?_cons hparent] at hrole
      rw [← h.in_role (by simp [hparent]) role hrole]
      -- in parentheses that are not bound nothing is, whatever comes first
      cases hbound : isInRole ⟨parent, frames⟩ role with
      | false => simp
      | true =>
        cases hnamed : c.named with
        | false => simp
        | true =>
          have hexpected : expects ⟨parent, frames⟩ c.kind = true := by
            simpa [expects, hparent, isBound, hrole, hbound] using hkind
          rw [hfirst hnamed hexpected]
    · rfl

theorem interspersed_siblings {parent parent' : Node} {frames frames' : List Frame}
    {before before' cs cs' : List Node} (h : Nearly ⟨parent, frames⟩ ⟨parent', frames'⟩)
    (hcs : Commented parent frames before cs cs')
    (hroles : ∀ role : Role, before.all (fun s => s.role ≠ some role) =
      before'.all fun s => s.role ≠ some role)
    (hback : before'.all (fun s => !s.named) = true → before.all (fun s => !s.named) = true)
    (hfirst : ∀ x, cs.find? (·.named) = some x → expects ⟨parent, frames⟩ x.kind →
      before.all (fun s => !s.named) = true →
        before'.all (fun s => !s.named) = true ∧
          ∃ y, cs'.find? (·.named) = some y ∧ x.Nearly y) :
    Interspersed (fun p : Focus => p.node.IsComment) Nearly
      (siblings parent frames before cs) (siblings parent' frames' before' cs') := by
  induction hcs generalizing before' with
  | nil => exact .nil
  | @cons before cs cs' c c' same rest ih =>
    have hsame := same.uncommented
    refine .cons (h.child same hroles fun hnamed hexpected => ?_) (ih ?_ ?_ ?_)
    · have hall := hfirst c (by rw [List.find?_cons, hnamed]) hexpected
      exact Bool.eq_iff_iff.mpr ⟨fun hb => (hall hb).1, hback⟩
    · intro role
      rw [List.all_cons, List.all_cons, hsame.role, hroles role]
    · rw [List.all_cons, List.all_cons, hsame.named, Bool.and_eq_true, Bool.and_eq_true]
      exact fun hb => ⟨hb.1, hback hb.2⟩
    · intro x hx hexpected hb
      rw [List.all_cons, Bool.and_eq_true, Bool.not_eq_true'] at hb
      have hc' : c'.named = false := hsame.named ▸ hb.1
      obtain ⟨hb', y, hy, hxy⟩ :=
        hfirst x (by rw [List.find?_cons, hb.1, hx]) hexpected hb.2
      rw [List.find?_cons, hc'] at hy
      exact ⟨by rw [List.all_cons, hc', hb']; rfl, y, hy, hxy⟩
  | @extra before cs cs' c comment rest ih =>
    -- behind a comment nothing is first any more, and so nothing may be expected to be
    have hnone : (c :: before').all (fun s => !s.named) = false := by
      rw [List.all_cons, comment.named]
      rfl
    refine .extra comment (ih ?_ ?_ ?_)
    · intro role
      rw [List.all_cons, comment.role, hroles role]
      simp
    · intro hb
      rw [hnone] at hb
      cases hb
    · intro x hx hexpected hb
      obtain ⟨-, y, hy, hxy⟩ := hfirst x hx hexpected hb
      rw [List.find?_cons, comment.named] at hy
      cases hy
      rw [hxy.uncommented.kind, comment.kind, expects_comment] at hexpected
      cases hexpected

theorem Nearly.children (h : Nearly f f') :
    Interspersed (fun p : Focus => p.node.IsComment) Nearly f.children f'.children := by
  refine interspersed_siblings h h.node.children (fun _ => rfl) (fun _ => rfl) ?_
  exact fun x hx hexpected _ => ⟨rfl, h.node.first hx hexpected⟩

theorem matched_of_interspersed {fs fs' : List Focus}
    (h : Interspersed (fun p : Focus => p.node.IsComment) Nearly fs fs') :
    Matched Nearly (fs.filter (·.node.named)) (fs'.filter (·.node.named)) := by
  induction h with
  | nil => exact .nil
  | @cons f f' fs fs' same _ ih =>
    rw [List.filter_cons, List.filter_cons, same.node.uncommented.named]
    split
    · exact .cons same ih
    · exact ih
  | @extra p fs fs' comment _ ih =>
    rw [List.filter_cons, if_pos comment.named]
    have hinside : Matched Nearly [] p.namedChildren := by
      simp only [Focus.namedChildren, Focus.children, comment.childless, siblings, List.filter_nil]
      exact .nil
    exact .silent comment.isSilent hinside ih

theorem Nearly.body? (h : Nearly f f') : Matched Nearly f.body?.toList f'.body?.toList := by
  have hfound := h.children.find? (p := fun c => c.node.role = some .body)
    (q := fun c => c.node.role = some .body) (fun same => by rw [same.node.uncommented.role])
    fun comment => by simp [comment.role]
  unfold Focus.body?
  rcases rel_cases hfound with ⟨hb, hb'⟩ | ⟨b, b', hb, hb', hbody⟩
  · rw [hb, hb']
    exact .nil
  · rw [hb, hb']
    exact .cons hbody .nil

theorem lookalikes_nearly : Lookalikes Node.Nearly Nearly where
  nodes := Node.lookalikes_nearly
  node h := ⟨_, h.node⟩
  in_class_body h := h.in_class_body
  parent h := h.parent
  in_role h hfunction := h.in_role (by simp [(Bool.and_eq_true_iff.mp hfunction).2])
  body? h _ := h.body?
  namedChildren h := matched_of_interspersed h.children

theorem Nearly.root {n n' : Node} (h : NearlyAt [] n n') : Nearly (.root n) (.root n') :=
  ⟨h, rfl, .none, fun _ _ _ => rfl⟩

end Focus

end Syntax

open Syntax

namespace Survey

theorem addTree_eq_of_annotates (config : Config) (path : Text) {tree tree' : Node}
    (h : Node.Annotates Focus.keepsFirst [] tree tree') (g : CallGraph) :
    addTree config path tree g = addTree config path tree' g :=
  addTree_eq_of_lookalikes Focus.lookalikes_nearly config path (.root (.single h)) g

/-- However many comments are added, the survey adds the same to any graph and ends the same way, as
long as none of them comes in front of a function or a pair of parentheses that is first in
parentheses that are bound to a name, or of a member expression that is first in a computed key. -/
theorem comments_are_ignored (config : Config) (path : Text) {tree tree' : Node}
    (h : Relation.ReflTransGen (Node.Annotates Focus.keepsFirst []) tree tree') (g : CallGraph) :
    addTree config path tree g = addTree config path tree' g := by
  induction h with
  | refl => rfl
  | tail _ last ih => rw [ih, addTree_eq_of_annotates config path last g]

def note : Node := .plain .comment 0 []

theorem isComment_note : note.IsComment := ⟨rfl, rfl, rfl, rfl⟩

/-- An asynchronous arrow function in parentheses under the name `load` that waits for `fetch`, with
room for notes before the parentheses, before the body, before the call, and behind the function. -/
def noted (outside ahead within behind : List Node) : Node :=
  let word (role : Role) (text : String) : Node :=
    { Node.plain .identifier 0 [] with role := some role, text := some text }
  let keyword : Node := { Node.plain .async 0 [] with named := false }
  let call : Node := .plain .callExpression 1 [word .callee "fetch"]
  let body : Node := { Node.plain .awaitExpression 1 (within ++ [call]) with role := some .body }
  let arrow : Node := .plain .arrowFunction 0 (keyword :: (ahead ++ [body]))
  let value : Node := { Node.plain .parenthesized 0 (arrow :: behind) with role := some .value }
  .plain .variableDeclarator 0 (word .name "load" :: (outside ++ [value]))

/-- An arrow function in parentheses that is called on the spot. -/
def invoked (ahead : List Node) : Node :=
  let inner : List Node := ahead ++ [.plain .arrowFunction 0 []]
  .plain .callExpression 0 [{ Node.plain .parenthesized 0 inner with role := some .callee }]

theorem comments_of_noted_ignored :
    Relation.ReflTransGen (Node.Annotates Focus.keepsFirst []) (noted [] [] [] [])
      (noted [note] [note] [note] [note]) ∧
    addTree .default "a.js" (noted [note] [note] [note] [note]) .empty =
      (⟨[⟨"load", "a.js", 1, true, none, [⟨2, .await, "await"⟩]⟩],
        [("load", []), ("fetch", [⟨"fetch", "a.js", 2, true⟩])], 0⟩, .ok ⟨1, 0, 1⟩) ∧
    Node.Annotates Focus.keepsFirst [] (invoked []) (invoked [note]) ∧
    addTree .default "a.js" (invoked [note]) .empty = (⟨[], [], 1⟩, .ok ⟨0, 1, 0⟩) := by
  have houtside : Node.Annotates Focus.keepsFirst [] (noted [] [] [] []) (noted [note] [] [] []) :=
    .here [_] [_] rfl isComment_note rfl
  have hahead : Node.Annotates Focus.keepsFirst [] (noted [note] [] [] [])
      (noted [note] [note] [] []) :=
    .inside [_, _] [] rfl (.inside [] [] rfl (.here [_] [_] rfl isComment_note rfl))
  have hwithin : Node.Annotates Focus.keepsFirst [] (noted [note] [note] [] [])
      (noted [note] [note] [note] []) :=
    .inside [_, _] [] rfl (.inside [] [] rfl (.inside [_, _] [] rfl
      (.here [] [_] rfl isComment_note rfl)))
  have hbehind : Node.Annotates Focus.keepsFirst [] (noted [note] [note] [note] [])
      (noted [note] [note] [note] [note]) :=
    .inside [_, _] [] rfl (.here [_] [] rfl isComment_note rfl)
  have h := (((Relation.ReflTransGen.single houtside).tail hahead).tail hwithin).tail hbehind
  have hinvoked : Node.Annotates Focus.keepsFirst [] (invoked []) (invoked [note]) :=
    .inside [] [] rfl (.here [] [_] rfl isComment_note rfl)
  refine ⟨h, ?_, hinvoked, ?_⟩
  · rw [← comments_are_ignored .default "a.js" h]
    decide +kernel
  · rw [← comments_are_ignored .default "a.js" (.single hinvoked)]
    decide +kernel

/-- An arrow function in parentheses under the name `load`. -/
def bound (ahead : List Node) : Node :=
  let name : Node :=
    { Node.plain .identifier 0 [] with role := some .name, text := some "load" }
  let inner : List Node := ahead ++ [.plain .arrowFunction 0 []]
  .plain .variableDeclarator 0
    [name, { Node.plain .parenthesized 0 inner with role := some .value }]

/-- A method under the computed key `Symbol.iterator`. -/
def iterator (ahead : List Node) : Node :=
  let object : Node :=
    { Node.plain .identifier 0 [] with role := some .object, text := some "Symbol" }
  let property : Node :=
    { Node.plain .propertyIdentifier 0 [] with role := some .property, text := some "iterator" }
  let inner : List Node := ahead ++ [.plain .memberExpression 0 [object, property]]
  .plain .methodDefinition 0 [{ Node.plain .computedPropertyName 0 inner with role := some .name }]

/-- In front of a function in parentheses that is bound to a name, or of the path in a computed
key, a comment makes a declaration disappear. -/
theorem comment_in_front_hides :
    Node.Annotates (fun _ _ _ => true) [] (bound []) (bound [note]) ∧
    addTree .default "a.js" (bound []) .empty =
      (⟨[⟨"load", "a.js", 1, false, none, []⟩], [("load", [])], 0⟩, .ok ⟨1, 0, 0⟩) ∧
    addTree .default "a.js" (bound [note]) .empty = (⟨[], [], 1⟩, .ok ⟨0, 1, 0⟩) ∧
    Node.Annotates (fun _ _ _ => true) [] (iterator []) (iterator [note]) ∧
    addTree .default "a.js" (iterator []) .empty =
      (⟨[⟨"[Symbol.iterator]", "a.js", 1, false, none, []⟩], [("[Symbol.iterator]", [])], 0⟩,
        .ok ⟨1, 0, 0⟩) ∧
    addTree .default "a.js" (iterator [note]) .empty = (⟨[], [], 1⟩, .ok ⟨0, 1, 0⟩) := by
  refine ⟨?_, by decide +kernel, by decide +kernel, ?_, by decide +kernel, by decide +kernel⟩
  · exact .inside [_] [] rfl (.here [] [_] rfl isComment_note rfl)
  · exact .inside [] [] rfl (.here [] [_] rfl isComment_note rfl)

end Survey

end ScriptAudit
