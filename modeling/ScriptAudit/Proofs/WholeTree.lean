import ScriptAudit.Grammar

/-! Everything in a tree, keywords and marks included, and the search for what is wrong in it. The
search leaves out the subtrees without errors; since a node knows of every error below it, nothing
that was looked for can be in there. -/

namespace ScriptAudit

open Syntax

namespace Syntax.Node

mutual

/-- A node and all that is below it, in document order. -/
def parts : Node → List Node
  | ⟨kind, role, named, row, text, missing, flawed, children⟩ =>
    ⟨kind, role, named, row, text, missing, flawed, children⟩ :: partsOf children

def partsOf : List Node → List Node
  | [] => []
  | n :: rest => n.parts ++ partsOf rest

end

theorem parts_eq (n : Node) : n.parts = n :: partsOf n.children := by
  cases n; rfl

theorem mem_parts_self (n : Node) : n ∈ n.parts := by
  rw [parts_eq]
  exact List.mem_cons_self

theorem partsOf_append (ms ns : List Node) : partsOf (ms ++ ns) = partsOf ms ++ partsOf ns := by
  induction ms with
  | nil => rfl
  | cons m ms ih => simp only [List.cons_append, partsOf, ih, List.append_assoc]

theorem parts_subset_partsOf {n : Node} {ns : List Node} (h : n ∈ ns) : n.parts ⊆ partsOf ns := by
  induction ns with
  | nil => cases h
  | cons m ms ih =>
    rcases List.mem_cons.mp h with rfl | h
    · exact List.subset_append_left _ _
    · exact List.Subset.trans (ih h) (List.subset_append_right _ _)

/-- Whether a node is an error by itself, whatever is below it. -/
def isBroken (n : Node) : Bool := n.kind = .error || n.missing

theorem hasError_eq (n : Node) :
    n.hasError = (n.isBroken || n.flawed || anyHasError n.children) := by
  obtain ⟨kind, role, named, row, text, missing, flawed, children⟩ := n
  simp only [hasError, isBroken]
  cases flawed <;> simp

mutual

theorem hasError_eq_any : (n : Node) →
    n.hasError = n.parts.any fun m => m.isBroken || m.flawed
  | ⟨kind, role, named, row, text, missing, flawed, children⟩ => by
    rw [hasError_eq, parts_eq, List.any_cons, anyHasError_eq_any children]

theorem anyHasError_eq_any : (ns : List Node) →
    anyHasError ns = (partsOf ns).any fun m => m.isBroken || m.flawed
  | [] => rfl
  | n :: rest => by
    rw [anyHasError, partsOf, List.any_append, hasError_eq_any n, anyHasError_eq_any rest]

end

/-- A node has an error exactly if there is one in it, or a mark of one. -/
theorem hasError_iff {n : Node} :
    n.hasError = true ↔ ∃ m ∈ n.parts, m.isBroken = true ∨ m.flawed = true := by
  rw [hasError_eq_any, List.any_eq_true]
  simp only [Bool.or_eq_true]

theorem find?_partsOf_children {n : Node} (h : n.hasError = false) :
    (partsOf n.children).find? isBroken = none := by
  rw [hasError_eq_any, parts_eq, List.any_cons, Bool.or_eq_false_iff, List.any_eq_false] at h
  refine List.find?_eq_none.mpr fun m hm hbroken => ?_
  exact h.2 m hm (by rw [hbroken, Bool.true_or])

/-- The search with a stack finds what comes first in document order. -/
theorem firstError?_eq_find? (stack : List Node) :
    firstError? stack = (partsOf stack).find? isBroken := by
  fun_induction firstError? stack with
  | case1 => rfl
  | case2 n rest hbroken =>
    have hn : n.isBroken = true := hbroken
    rw [partsOf, parts_eq, List.cons_append, List.find?_cons_of_pos hn]
  | case3 n rest hsound ih =>
    have hn : ¬ n.isBroken = true := hsound
    rw [dite_eq_ite] at ih
    rw [ih, partsOf, parts_eq, List.cons_append, List.find?_cons_of_neg hn]
    cases herror : n.hasError with
    | true => rw [if_pos rfl, partsOf_append]
    | false =>
      have hnone := find?_partsOf_children herror
      rw [if_neg Bool.false_ne_true, List.find?_append, hnone, Option.none_or]

theorem firstError?_root (tree : Node) : firstError? [tree] = tree.parts.find? isBroken := by
  rw [firstError?_eq_find?, partsOf, partsOf, List.append_nil]

end Syntax.Node

namespace Grammar

variable {path : Text} {read : Grammar → Node}

/-- What is said of a tree whose first broken node is given. -/
def complaint (path : Text) : Option Node → Rejection
  | none => ⟨path, "syntax error", none⟩
  | some n =>
    ⟨path, if n.missing then "missing " ++ Text.quote n.kind.name else "unexpected token",
      some n.line⟩

theorem rejection_eq (path : Text) (tree : Node) :
    rejection path tree = complaint path (tree.parts.find? Node.isBroken) := by
  rw [rejection, Node.firstError?_root]
  cases tree.parts.find? Node.isBroken with
  | none => rfl
  | some n => cases hmissing : n.missing <;> simp [complaint, hmissing]

-- a mark is missing in the third row, before something that cannot be read at all
example : rejection (Text.ofString "a.js") (.plain (.other "program") 0 [
    .plain (.other "statement_block") 0 [],
    .plain (.other "expression_statement") 1 [.plain .identifier 1 [],
      { Node.plain (.other ";") 2 [] with named := false, missing := true }],
    .plain .error 4 []]) = ⟨Text.ofString "a.js", "missing ';'", some 3⟩ := by
  decide +kernel

/-- A line is given exactly where there is a broken node to point at. -/
theorem complaint_eq_iff {broken : Option Node} :
    complaint path broken = ⟨path, "syntax error", none⟩ ↔ broken = none := by
  cases broken with
  | none => simp [complaint]
  | some n => simp [complaint]

/-- The first tree without an error is taken, and else it is the first tree that tells why. -/
theorem tryAll_result (first : Option Node) (grammars : List Grammar) :
    (tryAll path read first grammars).result =
      match grammars.find? fun g => !(read g).hasError with
      | some g => .ok (g, read g)
      | none => .error (match first.or (grammars.head?.map read) with
        | some tree => rejection path tree
        | none => ⟨path, "no grammar available", none⟩) := by
  induction grammars generalizing first with
  | nil => cases first <;> rfl
  | cons g rest ih =>
    rw [tryAll]
    cases herror : (read g).hasError with
    | true =>
      have hlater := ih (first.or (some (read g)))
      have hfirst : (first.or (some (read g))).or (rest.head?.map read) =
          first.or (some (read g)) := by
        cases first <;> rfl
      rw [hfirst] at hlater
      simpa [herror] using hlater
    | false => simp [herror]

theorem candidates_eq_cons (path : Text) :
    ∃ preferred others, candidates path = preferred :: others := by
  unfold candidates
  dsimp only
  split
  · exact ⟨_, _, rfl⟩
  · split
    · exact ⟨_, _, rfl⟩
    · exact ⟨_, _, rfl⟩

/-- The tree of the first candidate without an error is taken. If all have errors, what is said is
about the tree of the first candidate: the line and the kind of the first broken node in it, if
there is one. The search that leaves out subtrees finds that node in every tree. -/
theorem first_flawless_tree_or_first_broken_node (path : Text) (read : Grammar → Node) :
    (∃ preferred others, candidates path = preferred :: others ∧
      (choose path read).result =
        (match (candidates path).find? fun g => !(read g).hasError with
        | some g => .ok (g, read g)
        | none => .error (complaint path ((read preferred).parts.find? Node.isBroken))) ∧
      ∀ why, (choose path read).result = .error why →
        (why = ⟨path, "syntax error", none⟩ ↔
          ∀ n ∈ (read preferred).parts, n.isBroken = false)) ∧
    ((∃ why, (choose path read).result = .error why) ↔
      ∀ g ∈ candidates path, (read g).hasError = true) ∧
    (∀ tree : Node, Node.firstError? [tree] = tree.parts.find? Node.isBroken) ∧
    ∀ tree : Node, tree.hasError = true ↔
      ∃ n ∈ tree.parts, n.isBroken = true ∨ n.flawed = true := by
  obtain ⟨preferred, others, hcandidates⟩ := candidates_eq_cons path
  have hresult : (choose path read).result =
      match (candidates path).find? fun g => !(read g).hasError with
      | some g => .ok (g, read g)
      | none => .error (complaint path ((read preferred).parts.find? Node.isBroken)) := by
    rw [choose, tryAll_result, hcandidates]
    simp only [List.head?_cons, Option.map_some, Option.none_or, rejection_eq]
  refine ⟨⟨preferred, others, hcandidates, hresult, ?_⟩, ?_, Node.firstError?_root,
    fun _ => Node.hasError_iff⟩
  · intro why hwhy
    rw [hresult] at hwhy
    cases hfind : (candidates path).find? fun g => !(read g).hasError with
    | some g =>
      rw [hfind] at hwhy
      cases hwhy
    | none =>
      rw [hfind] at hwhy
      cases hwhy
      rw [complaint_eq_iff, List.find?_eq_none]
      simp only [Bool.not_eq_true]
  · have hnone : (candidates path).find? (fun g => !(read g).hasError) = none ↔
        ∀ g ∈ candidates path, (read g).hasError = true := by
      rw [List.find?_eq_none]
      simp
    rw [hresult, ← hnone]
    cases (candidates path).find? fun g => !(read g).hasError with
    | some g => simp
    | none => simp

end Grammar

end ScriptAudit
