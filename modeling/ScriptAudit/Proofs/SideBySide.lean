import Mathlib.Data.List.Forall2
import ScriptAudit.Proofs.SuspensionOwnership
import ScriptAudit.Proofs.SurveyRecursion

/-! Two trees walked side by side. Their places correspond to each other, except that the second
tree may have silent nodes in between, which add nothing of their own. If corresponding places look
the same and have corresponding children, the two walks find the same. -/

namespace ScriptAudit

section

variable {α β γ : Type} {R : α → β → Prop} {xs : List α} {ys : List β} {p : α → Bool} {q : β → Bool}

theorem rel_find? (h : List.Forall₂ R xs ys) (hpq : ∀ {x y}, R x y → p x = q y) :
    Option.Rel (fun x y => R x y ∧ p x) (xs.find? p) (ys.find? q) := by
  induction h with
  | nil => exact .none
  | @cons x y xs ys hxy _ ih =>
    rw [List.find?_cons, List.find?_cons, ← hpq hxy]
    cases hx : p x with
    | true => exact .some ⟨hxy, hx⟩
    | false => exact ih

theorem rel_takeWhile (h : List.Forall₂ R xs ys) (hpq : ∀ {x y}, R x y → p x = q y) :
    List.Forall₂ R (xs.takeWhile p) (ys.takeWhile q) := by
  induction h with
  | nil => exact .nil
  | @cons x y xs ys hxy _ ih =>
    rw [List.takeWhile_cons, List.takeWhile_cons, ← hpq hxy]
    split
    · exact .cons hxy ih
    · exact .nil

theorem any_eq_of_forall₂ (h : List.Forall₂ R xs ys) (hpq : ∀ {x y}, R x y → p x = q y) :
    xs.any p = ys.any q := by
  induction h with
  | nil => rfl
  | cons hxy _ ih => rw [List.any_cons, List.any_cons, hpq hxy, ih]

theorem all_eq_of_forall₂ (h : List.Forall₂ R xs ys) (hpq : ∀ {x y}, R x y → p x = q y) :
    xs.all p = ys.all q := by
  induction h with
  | nil => rfl
  | cons hxy _ ih => rw [List.all_cons, List.all_cons, hpq hxy, ih]

theorem map_eq_of_forall₂ {f : α → γ} {g : β → γ} (h : List.Forall₂ R xs ys)
    (hfg : ∀ {x y}, R x y → f x = g y) : xs.map f = ys.map g := by
  have hmap : List.Forall₂ Eq (xs.map f) (ys.map g) := List.rel_map (fun _ _ hxy => hfg hxy) h
  rwa [List.forall₂_eq_eq_eq] at hmap

theorem rel_head? (h : List.Forall₂ R xs ys) : Option.Rel R xs.head? ys.head? := by
  cases h with
  | nil => exact .none
  | cons hxy _ => exact .some hxy

theorem rel_filter? {a : Option α} {b : Option β} (h : Option.Rel R a b)
    (hpq : ∀ {x y}, R x y → p x = q y) : Option.Rel R (a.filter p) (b.filter q) := by
  cases h with
  | none => exact .none
  | some hxy =>
    rw [Option.filter_some, Option.filter_some, ← hpq hxy]
    split
    · exact .some hxy
    · exact .none

theorem rel_cases {a : Option α} {b : Option β} (h : Option.Rel R a b) :
    a = none ∧ b = none ∨ ∃ x y, a = some x ∧ b = some y ∧ R x y := by
  cases h with
  | none => exact Or.inl ⟨rfl, rfl⟩
  | some hxy => exact Or.inr ⟨_, _, rfl, rfl, hxy⟩

theorem map_eq_of_rel {a : Option α} {b : Option β} {f : α → γ} {g : β → γ}
    (h : Option.Rel R a b) (hfg : ∀ {x y}, R x y → f x = g y) : a.map f = b.map g := by
  cases h with
  | none => rfl
  | some hxy => exact congrArg some (hfg hxy)

theorem bind_eq_of_rel {a : Option α} {b : Option β} {f : α → Option γ} {g : β → Option γ}
    (h : Option.Rel R a b) (hfg : ∀ {x y}, a = some x → R x y → f x = g y) :
    a.bind f = b.bind g := by
  cases h with
  | none => rfl
  | some hxy => exact hfg rfl hxy

end

namespace Syntax

/-- A node that adds nothing to a survey; what stands inside it may. -/
structure Node.IsSilent (n : Node) : Prop where
  not_class : n.isClassLike = false
  not_function : n.isFunctionLike = false
  not_call : n.kind ≠ .callExpression
  no_point : n.suspension? = .ok none

namespace Focus

/-- Places that correspond one by one, but for silent places of the second list, which stand for
all that corresponds to their children. -/
inductive Matched (R : Focus → Focus → Prop) : List Focus → List Focus → Prop
  | nil : Matched R [] []
  | cons {f f' : Focus} {fs fs' : List Focus} (same : R f f') (rest : Matched R fs fs') :
    Matched R (f :: fs) (f' :: fs')
  | silent {p : Focus} {gs fs fs' : List Focus} (silent : p.node.IsSilent)
    (inside : Matched R gs p.namedChildren) (rest : Matched R fs fs') :
    Matched R (gs ++ fs) (p :: fs')

theorem shallow_append (fs gs : List Focus) : shallow (fs ++ gs) = shallow fs ++ shallow gs := by
  fun_induction shallow fs with
  | case1 => rfl
  | case2 f rest hf ih => rw [List.cons_append, shallow, if_pos hf, ih, List.cons_append]
  | case3 f rest hf ih =>
    rw [List.cons_append, shallow, if_neg hf, ← List.append_assoc, ih, List.cons_append]

/-- The points found by a walk that does not go into functions. -/
def pointsOf (fs : List Focus) : Except Error (List Suspension) := do
  let found ← (shallow fs).mapM (·.node.suspension?)
  return found.filterMap fun point => point

theorem pointsOf_append (fs gs : List Focus) :
    pointsOf (fs ++ gs) = do
      let points ← pointsOf fs
      let others ← pointsOf gs
      return points ++ others := by
  unfold pointsOf
  rw [shallow_append, List.mapM_append]
  cases (shallow fs).mapM (·.node.suspension?) with
  | error e => rfl
  | ok found =>
    cases (shallow gs).mapM (·.node.suspension?) with
    | error e => rfl
    | ok found' => exact congrArg Except.ok List.filterMap_append

/-- Where the walk goes on from a place. -/
def within (f : Focus) : List Focus := if f.node.isFunctionLike then [] else f.namedChildren

theorem pointsOf_cons (f : Focus) (rest : List Focus) :
    pointsOf (f :: rest) = do
      let own ← f.node.suspension?
      let inner ← pointsOf f.within
      let others ← pointsOf rest
      return own.toList ++ (inner ++ others) := by
  have hshallow : shallow (f :: rest) = f :: shallow (f.within ++ rest) := by
    rw [shallow, within]
    split <;> rfl
  have hfound : pointsOf (f :: rest) = do
      let own ← f.node.suspension?
      let points ← pointsOf (f.within ++ rest)
      return own.toList ++ points := by
    unfold pointsOf
    rw [hshallow, List.mapM_cons]
    cases f.node.suspension? with
    | error e => rfl
    | ok own =>
      cases (shallow (f.within ++ rest)).mapM (·.node.suspension?) with
      | error e => rfl
      | ok found => cases own <;> rfl
  rw [hfound, pointsOf_append]
  cases f.node.suspension? with
  | error e => rfl
  | ok own =>
    cases pointsOf f.within with
    | error e => rfl
    | ok inner => cases pointsOf rest <;> rfl

theorem suspensions_eq_pointsOf (f : Focus) : f.node.suspensions = pointsOf f.body?.toList := by
  rw [suspensions_eq, scope]
  cases f.body? with
  | none => rw [Option.toList_none, pointsOf, shallow]
  | some body => rfl

section

variable {R : Focus → Focus → Prop}
  (hchildren : ∀ {f f'}, R f f' → Matched R f.namedChildren f'.namedChildren)

include hchildren

/-- The walk through a body finds the same points on both sides. -/
theorem pointsOf_eq_of_matched
    (hfunction : ∀ {f f'}, R f f' → f.node.isFunctionLike = f'.node.isFunctionLike)
    (hpoint : ∀ {f f'}, R f f' → f.node.suspension? = f'.node.suspension?)
    {fs fs' : List Focus} (h : Matched R fs fs') : pointsOf fs = pointsOf fs' := by
  -- The induction is on the second side, since a silent place has no counterpart on the first.
  induction fs' using forest_induction generalizing fs with
  | nil =>
    cases h
    rfl
  | cons f' rest' ihinner ihrest =>
    cases h with
    | @cons f _ fs _ same rest =>
      have hwithin : pointsOf f.within = pointsOf f'.within := by
        rw [within, within, hfunction same]
        split
        · rfl
        · exact ihinner (hchildren same)
      rw [pointsOf_cons, pointsOf_cons, hpoint same, hwithin, ihrest rest]
    | @silent _ gs fs _ silent inside rest =>
      have hwithin : f'.within = f'.namedChildren := by
        rw [within, silent.not_function]
        rfl
      rw [pointsOf_append, pointsOf_cons, silent.no_point, hwithin, ihinner inside, ihrest rest]
      rfl

end

end Focus

end Syntax

open Syntax

namespace Survey

theorem descend_cons (config : Config) (path : Text) (owner : Option String) (f : Focus)
    (rest : List Focus) :
    descend config path owner (f :: rest) =
      (Trail.ofEntry (nodeEntry config path owner f)).andThen
        ((descend config path (innerOwner owner f) f.namedChildren).andThen
          (descend config path owner rest)) := by
  rw [descend]

theorem descend_append (config : Config) (path : Text) (owner : Option String)
    (fs gs : List Focus) :
    descend config path owner (fs ++ gs) =
      (descend config path owner fs).andThen (descend config path owner gs) := by
  induction fs with
  | nil =>
    rw [List.nil_append, descend]
    rfl
  | cons f fs ih =>
    rw [List.cons_append, descend_cons, descend_cons, ih, Trail.andThen_assoc, Trail.andThen_assoc]

theorem nodeEntry_of_silent {f : Focus} (h : f.node.IsSilent) (config : Config) (path : Text)
    (owner : Option String) : nodeEntry config path owner f = .ok none := by
  simp [nodeEntry, h.not_class, h.not_function, h.not_call, pure, Except.pure]

section

variable {R : Focus → Focus → Prop}
  (hchildren : ∀ {f f'}, R f f' → Focus.Matched R f.namedChildren f'.namedChildren)
  (hclass : ∀ {f f'}, R f f' → f.node.isClassLike = f'.node.isClassLike)
  (hname : ∀ {f f'}, R f f' → f.node.isClassLike → f.node.className = f'.node.className)
  (hentry : ∀ {f f'}, R f f' → ∀ (config : Config) (path : Text) (owner : Option String),
    nodeEntry config path owner f = nodeEntry config path owner f')

include hchildren hclass hname hentry

/-- The survey adds the same on both sides, in the same order and up to the same error. -/
theorem descend_eq_of_matched (config : Config) (path : Text) (owner : Option String)
    {fs fs' : List Focus} (h : Focus.Matched R fs fs') :
    descend config path owner fs = descend config path owner fs' := by
  induction fs' using Focus.forest_induction generalizing fs owner with
  | nil =>
    cases h
    rfl
  | cons f' rest' ihinner ihrest =>
    cases h with
    | @cons f _ fs _ same rest =>
      have howner : innerOwner owner f = innerOwner owner f' := by
        rw [innerOwner, innerOwner, ← hclass same]
        split
        · rename_i hf
          rw [hname same hf]
        · rfl
      rw [descend_cons, descend_cons, hentry same, howner, ihinner _ (hchildren same),
        ihrest owner rest]
    | @silent _ gs fs _ silent inside rest =>
      have howner : innerOwner owner f' = owner := by
        rw [innerOwner, silent.not_class]
        rfl
      rw [descend_append, descend_cons, nodeEntry_of_silent silent, howner, ihinner owner inside,
        ihrest owner rest]
      rfl

theorem addTree_eq_of_matched (config : Config) (path : Text) {tree tree' : Node}
    (h : Focus.Matched R [.root tree] [.root tree']) (g : CallGraph) :
    addTree config path tree g = addTree config path tree' g := by
  have hdescend := descend_eq_of_matched hchildren hclass hname hentry config path none h
  rw [addTree_eq, addTree_eq, addTreeRecursively, addTreeRecursively, hdescend]

end

end Survey

end ScriptAudit
