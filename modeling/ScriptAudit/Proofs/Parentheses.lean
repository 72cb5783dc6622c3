import Mathlib.Logic.Relation
import ScriptAudit.Proofs.Enclosure

/-! Parentheses around a value that is assigned or waited for. The way up from a node leads through
them, and so does the way down from the parent to its value, so that nothing a survey reads off a
place depends on them. -/

namespace ScriptAudit

namespace Syntax

namespace Focus

/-- Places that look the same: the nodes are alike, and so is what is seen on the way up. -/
structure Alike (f f' : Focus) : Prop where
  node : f.node.Alike f'.node
  in_class_body : f.isInClassBody = f'.isInClassBody
  parent : Option.Rel Node.Alike f.syntacticParent? f'.syntacticParent?
  in_role : ∀ role, f.isInRole role = f'.isInRole role

/-- How children correspond as places: a pair of parentheses has the place of what it encloses. -/
inductive Beside (parent : Kind) : Focus → Focus → Prop
  | alike {f f' : Focus} (same : f.Alike f') (named : f.node.named = f'.node.named)
    (role : f.node.role = f'.node.role) : Beside parent f f'
  | around {f p inner : Focus} (value : Node.isEnclosable parent f.node)
    (encloses : p.node.Encloses f.node) (inside : p.namedChildren = [inner])
    (same : f.Alike inner) : Beside parent f p

section

variable {parent parent' : Node} {frames frames' : List Frame} {before before' : List Node}
  (h : Alike ⟨parent, frames⟩ ⟨parent', frames'⟩)
  (hbefore : List.Forall₂ (Node.Child parent.kind) before before')

include h hbefore

theorem Alike.child {c c' : Node} (hc : c.Alike c') (hrole : c.role = c'.role) :
    Alike ⟨c, ⟨parent, before⟩ :: frames⟩ ⟨c', ⟨parent', before'⟩ :: frames'⟩ where
  node := hc
  in_class_body := by
    rw [isInClassBody_cons, isInClassBody_cons, ← h.node.kind]
  parent := by
    rw [syntacticParent?_cons, syntacticParent?_cons, ← h.node.kind]
    split
    · exact h.parent
    · exact .some h.node
  in_role role := by
    rw [isInRole_cons, isInRole_cons, ← h.node.kind, Node.all_unnamed_eq hbefore,
      Node.all_role_ne_eq hbefore role, hc.named, hrole, h.in_role role]

/-- Seen from inside the parentheses, everything is as it was without them. -/
theorem Alike.enclosed {x p : Node} (hx : Node.isEnclosable parent.kind x) (hp : p.Encloses x)
    (own : Option Role) :
    Alike ⟨x, ⟨parent, before⟩ :: frames⟩
      ⟨{ x with role := own }, ⟨p, []⟩ :: ⟨parent', before'⟩ :: frames'⟩ := by
  have hmem : parent.kind ∈ Node.enclosing := by
    by_contra hk
    rw [Node.isEnclosable_eq_false hk] at hx
    cases hx
  have hparen : parent.kind ≠ .parenthesized := by
    intro hk
    simp [hk, Node.enclosing] at hmem
  have hbody : parent.kind ≠ .classBody := by
    intro hk
    simp [hk, Node.enclosing] at hmem
  have hnamed : x.named = true := (Bool.and_eq_true_iff.mp hx).1
  constructor
  · exact .moved x own
  · rw [isInClassBody_cons, isInClassBody_cons, hp.kind]
    simp [hbody]
  · rw [syntacticParent?_cons, syntacticParent?_cons, syntacticParent?_cons, if_neg hparen,
      if_pos hp.kind, if_neg (h.node.kind ▸ hparen)]
    exact .some h.node
  · intro role
    rw [isInRole_cons, isInRole_cons, isInRole_cons, if_neg hparen, if_pos hp.kind,
      if_neg (h.node.kind ▸ hparen), Node.all_role_ne_eq hbefore role, hp.role]
    simp [hnamed]

theorem forall₂_siblings {cs cs' : List Node}
    (hcs : List.Forall₂ (Node.Child parent.kind) cs cs') :
    List.Forall₂ (Beside parent.kind) (siblings parent frames before cs)
      (siblings parent' frames' before' cs') := by
  induction hcs generalizing before before' with
  | nil => exact .nil
  | @cons c c' cs cs' hc _ ih =>
    refine .cons ?_ (ih (.cons hc hbefore))
    cases hc with
    | same => exact .alike (h.child hbefore (.refl c) rfl) rfl rfl
    | inside child =>
      exact .alike (h.child hbefore child.alike child.role_eq) child.alike.named child.role_eq
    | around value encloses =>
      obtain ⟨own, hchildren⟩ := encloses.children
      refine .around value encloses ?_ (h.enclosed hbefore value encloses own)
      have hnamed : c.named = true := (Bool.and_eq_true_iff.mp value).1
      simp [namedChildren, children, hchildren, siblings, hnamed]

end

theorem matched_of_forall₂ {parent : Kind} {fs fs' : List Focus}
    (h : List.Forall₂ (Beside parent) fs fs') :
    Matched Alike (fs.filter (·.node.named)) (fs'.filter (·.node.named)) := by
  induction h with
  | nil => exact .nil
  | @cons f f' fs fs' hf _ ih =>
    rw [List.filter_cons, List.filter_cons]
    cases hf with
    | alike same named role =>
      rw [← named]
      split
      · exact .cons same ih
      · exact ih
    | around value encloses inside same =>
      rw [if_pos (Bool.and_eq_true_iff.mp value).1, if_pos encloses.named]
      have hinside : Matched Alike [f] f'.namedChildren := inside ▸ .cons same .nil
      exact .silent encloses.isSilent hinside ih

namespace Alike

variable {f f' : Focus}

theorem root {n n' : Node} (h : n.Alike n') : Alike (.root n) (.root n') :=
  ⟨h, rfl, .none, fun _ => rfl⟩

theorem children (h : Alike f f') :
    List.Forall₂ (Beside f.node.kind) f.children f'.children :=
  forall₂_siblings h .nil h.node.children

theorem namedChildren (h : Alike f f') : Matched Alike f.namedChildren f'.namedChildren :=
  matched_of_forall₂ h.children

theorem body? (h : Alike f f') (hkind : f.node.kind ∉ Node.enclosing) :
    Matched Alike f.body?.toList f'.body?.toList := by
  have hrole {c c' : Focus} (hc : Beside f.node.kind c c') : c.node.role = c'.node.role := by
    cases hc with
    | alike same named role => exact role
    | around value encloses inside same => exact encloses.role.symm
  have hfound := rel_find? h.children (p := fun c => c.node.role = some .body)
    (q := fun c => c.node.role = some .body) fun hc => by rw [hrole hc]
  unfold Focus.body?
  rcases rel_cases hfound with ⟨hb, hb'⟩ | ⟨b, b', hb, hb', hbeside, -⟩
  · rw [hb, hb']
    exact .nil
  · rw [hb, hb']
    cases hbeside with
    | alike same named role => exact .cons same .nil
    | around value encloses inside same =>
      rw [Node.isEnclosable_eq_false hkind] at value
      cases value

end Alike

theorem lookalikes_alike : Lookalikes Node.Alike Alike where
  nodes := Node.lookalikes_alike
  node h := h.node
  in_class_body h := h.in_class_body
  parent h := h.parent
  in_role h _ role _ := h.in_role role
  body? h hfunction := h.body? (Node.not_mem_enclosing (Bool.and_eq_true_iff.mp hfunction).2)
  namedChildren h := h.namedChildren

end Focus

end Syntax

open Syntax

namespace Survey

theorem addTree_eq_of_parenthesizes (config : Config) (path : Text) {tree tree' : Node}
    (h : tree.Parenthesizes tree') (g : CallGraph) :
    addTree config path tree g = addTree config path tree' g :=
  addTree_eq_of_lookalikes Focus.lookalikes_alike config path (.root h.alike) g

/-- However many pairs of parentheses are put around values and what is waited for, the survey adds
the same to any graph and ends the same way. -/
theorem parentheses_are_transparent (config : Config) (path : Text) {tree tree' : Node}
    (h : Relation.ReflTransGen Node.Parenthesizes tree tree') (g : CallGraph) :
    addTree config path tree g = addTree config path tree' g := by
  induction h with
  | refl => rfl
  | tail _ last ih => rw [ih, addTree_eq_of_parenthesizes config path last g]

def inParentheses (x : Node) : Node :=
  { Node.plain .parenthesized x.row [{ x with role := none }] with role := x.role }

theorem encloses_inParentheses (x : Node) : (inParentheses x).Encloses x :=
  ⟨rfl, rfl, rfl, none, rfl⟩

/-- An arrow function under the name `load` that waits for `fetch`. The function may be wrapped
where it is bound, and the call where it is waited for. -/
def loading (wrapFunction wrapCall : Node → Node) : Node :=
  let word (role : Role) (text : String) : Node :=
    { Node.plain .identifier 0 [] with role := some role, text := some text }
  let waiting : Node :=
    .plain .awaitExpression 1 [wrapCall (.plain .callExpression 1 [word .callee "fetch"])]
  let arrow : Node := .plain .arrowFunction 0 [{ waiting with role := some .body }]
  .plain .variableDeclarator 0 [word .name "load", wrapFunction { arrow with role := some .value }]

theorem loading_in_parentheses :
    Relation.ReflTransGen Node.Parenthesizes (loading id id)
      (loading (inParentheses ∘ inParentheses) inParentheses) ∧
    addTree .default "a.js" (loading (inParentheses ∘ inParentheses) inParentheses) .empty =
      (⟨[⟨"load", "a.js", 1, false, none, [⟨2, .await, "await"⟩]⟩],
        [("load", []), ("fetch", [⟨"fetch", "a.js", 2, true⟩])], 0⟩, .ok ⟨1, 0, 1⟩) := by
  have hcall : (loading id id).Parenthesizes (loading id inParentheses) :=
    .inside [_] [] rfl (.inside [] [] rfl (.around [] [] rfl rfl (encloses_inParentheses _)))
  have honce : (loading id inParentheses).Parenthesizes (loading inParentheses inParentheses) :=
    .around [_] [] rfl rfl (encloses_inParentheses _)
  have htwice : (loading inParentheses inParentheses).Parenthesizes
      (loading (inParentheses ∘ inParentheses) inParentheses) :=
    .around [_] [] rfl rfl (encloses_inParentheses _)
  have h := ((Relation.ReflTransGen.single hcall).tail honce).tail htwice
  refine ⟨h, ?_⟩
  rw [← parentheses_are_transparent .default "a.js" h]
  decide +kernel

end Survey

end ScriptAudit
