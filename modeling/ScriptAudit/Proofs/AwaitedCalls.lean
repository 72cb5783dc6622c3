import ScriptAudit.Proofs.AnalysisValues
import ScriptAudit.Proofs.SuspensionOwnership
import ScriptAudit.Proofs.SurveyTrail

/-! Calls that are waited for, seen from both walks. Whether a call is waited for is found by going
up from it, and where a function suspends by going down from its body. The way up passes nothing but
parentheses, so it ends inside the body that the way down has gone through. -/

namespace ScriptAudit

namespace Syntax

namespace Focus

/-- The nearest place around `f` that is not a pair of parentheses. -/
def outside? (f : Focus) : Option Focus := f.ancestors.find? (·.node.kind ≠ .parenthesized)

theorem map_node_outside? (f : Focus) : f.outside?.map (·.node) = f.syntacticParent? := by
  obtain ⟨n, frames⟩ := f
  induction frames generalizing n with
  | nil => rfl
  | cons frame frames ih =>
    by_cases hk : frame.parent.kind = .parenthesized
    · have hup := ih frame.parent
      simp only [outside?, ancestors, syntacticParent?] at hup ⊢
      simpa [above, hk] using hup
    · simp [outside?, ancestors, above, syntacticParent?, hk]

theorem mem_ancestors_of_outside? {f a : Focus} (h : f.outside? = some a) : a ∈ f.ancestors :=
  List.mem_of_find?_eq_some h

/-- Parentheses are no functions, so the function around is that of the place outside them. -/
theorem function?_of_outside? {f a : Focus} (h : f.outside? = some a)
    (ha : a.node.isFunctionLike = false) : f.function? = a.function? := by
  obtain ⟨n, frames⟩ := f
  induction frames generalizing n with
  | nil => cases h
  | cons frame frames ih =>
    by_cases hk : frame.parent.kind = .parenthesized
    · have hup : outside? ⟨frame.parent, frames⟩ = some a := by
        simpa [outside?, ancestors, above, hk] using h
      have hfun : frame.parent.isFunctionLike = false := by
        simp [Node.isFunctionLike, hk, Kind.isFunction]
      rw [← ih frame.parent hup]
      simp [function?, ancestors, above, hfun]
    · have he : ⟨frame.parent, frames⟩ = a := by
        simpa [outside?, ancestors, above, hk] using h
      subst he
      simp only at ha
      simp [function?, ancestors, above, ha]

/-- Of two places above one place, the higher one is above the other. -/
theorem mem_lineage_of_depth_le {a b n : Focus} (ha : a ∈ n.lineage) (hb : b ∈ n.lineage)
    (hdepth : b.depth ≤ a.depth) : b ∈ a.lineage := by
  obtain ⟨n, frames⟩ := n
  induction frames generalizing n with
  | nil =>
    obtain rfl : a = ⟨n, []⟩ := List.mem_singleton.mp ha
    exact hb
  | cons frame frames ih =>
    rcases List.mem_cons.mp ha with rfl | ha
    · exact hb
    · rcases List.mem_cons.mp hb with rfl | hb
      · have hlt := depth_lt_of_mem_above ha
        simp only [depth] at hdepth hlt
        omega
      · exact ih frame.parent ha hb

theorem depth_of_mem_children {f c : Focus} (h : c ∈ f.children) : c.depth = f.depth + 1 := by
  obtain ⟨left, hc, -⟩ := mem_siblings h
  rw [depth, hc]
  rfl

/-- All places of the walk but the first are named. -/
theorem named_of_mem_preorder {tree : Node} :
    ∀ f ∈ preorder [root tree], f.frames ≠ [] → f.node.named = true := by
  apply forall_mem_preorder
  · intro f hf hframes
    rw [List.mem_singleton.mp hf] at hframes
    exact absurd rfl hframes
  · intro f _ _ c hc _
    exact (List.mem_filter.mp hc).2

section

variable {tree : Node} {F c : Focus} (hc : c ∈ preorder [root tree]) (howns : F.owns c)

include howns

theorem function?_of_owns : c.function? = some F := by
  simp only [owns, Bool.and_eq_true, decide_eq_true_eq] at howns
  exact howns.1

theorem exists_body_of_owns : ∃ b, F.body? = some b ∧ b ∈ c.lineage := by
  simp only [owns, isInBody, Bool.and_eq_true, Option.any_eq_true, decide_eq_true_eq] at howns
  exact howns.2

theorem mem_lineage_of_owns : F ∈ c.lineage :=
  List.mem_cons_of_mem _ (List.mem_of_find?_eq_some (function?_of_owns howns))

/-- What is waited for in the body of a function is waited for within that body. -/
theorem owns_outside {a : Focus} (ha : c.outside? = some a)
    (hfun : a.node.isFunctionLike = false) : F.owns a := by
  have hsame : a.function? = some F := by
    rw [← function?_of_outside? ha hfun, function?_of_owns howns]
  obtain ⟨b, hb, hbc⟩ := exists_body_of_owns howns
  have hbdepth := depth_of_mem_children (body?_mem_children hb)
  have hadepth := depth_lt_of_function? hsame
  have hba : b ∈ a.lineage := mem_lineage_of_depth_le
    (List.mem_cons_of_mem _ (mem_ancestors_of_outside? ha)) hbc (by omega)
  simp [owns, isInBody, hsame, hb, hba]

include hc

theorem named_body_of_owns : ∀ b, F.node.child? .body = some b → b.named = true := by
  intro n hn
  obtain ⟨b, hb, hbc⟩ := exists_body_of_owns howns
  have hnode : b.node = n := by
    have hmap := map_node_body? F
    rw [hb, hn] at hmap
    exact Option.some.inj hmap
  have hframes : b.frames ≠ [] := by
    intro hnil
    have hdepth := depth_of_mem_children (body?_mem_children hb)
    rw [depth, hnil, List.length_nil] at hdepth
    omega
  exact hnode ▸ named_of_mem_preorder b (lineage_subset_preorder c hc hbc) hframes

/-- Everything that a function owns is searched for points. -/
theorem scope_eq_filter_of_owns : F.scope = (preorder [root tree]).filter F.owns :=
  scope_eq_filter (lineage_subset_preorder c hc (mem_lineage_of_owns howns))
    (isFunctionLike_of_function? (function?_of_owns howns)) (named_body_of_owns hc howns)

theorem suspensions_of_owns (hrow : ∀ f ∈ preorder [root tree], 0 ≤ f.node.row) :
    F.node.suspensions = .ok (F.scope.filterMap point?) := by
  rw [← filterMap_point?_contributors]
  apply suspensions_ok
  intro n hn
  rw [scope_eq_filter_of_owns hc howns] at hn
  exact hrow n (List.mem_filter.mp hn).1

end

theorem point?_of_await {a : Focus} (hkind : a.node.kind = .awaitExpression)
    (hrow : 0 ≤ a.node.row) : a.point? = some ⟨a.node.line, .await, "await"⟩ := by
  have hline : 1 ≤ a.node.line := by
    unfold Node.line
    omega
  have hpoint : a.node.suspension? = .ok (some ⟨a.node.line, .await, "await"⟩) := by
    unfold Node.suspension?
    rw [hkind]
    simp [Node.make_ok hline, bind, Except.bind, pure, Except.pure]
  rw [point?, hpoint]

/-- If a call is waited for, the function that it stands in suspends where it is waited for. -/
theorem await_of_isAwaited {tree : Node} (hrow : ∀ f ∈ preorder [root tree], 0 ≤ f.node.row)
    {F c : Focus} (hc : c ∈ preorder [root tree]) (howns : F.owns c) (hawaited : c.isAwaited) :
    ∃ a points, c.syntacticParent? = some a ∧ a.kind = .awaitExpression ∧
      F.node.suspensions = .ok points ∧ ⟨a.line, .await, "await"⟩ ∈ points := by
  obtain ⟨n, hparent, hkind⟩ : ∃ n, c.syntacticParent? = some n ∧ n.kind = .awaitExpression := by
    unfold isAwaited at hawaited
    cases hparent : c.syntacticParent? with
    | none => simp [hparent] at hawaited
    | some n => exact ⟨n, rfl, by simpa [hparent] using hawaited⟩
  obtain ⟨a, ha, rfl⟩ : ∃ a, c.outside? = some a ∧ a.node = n :=
    Option.map_eq_some_iff.mp ((map_node_outside? c).trans hparent)
  have hfun : a.node.isFunctionLike = false := by
    simp [Node.isFunctionLike, hkind, Kind.isFunction]
  have hmem : a ∈ preorder [root tree] :=
    lineage_subset_preorder c hc (List.mem_cons_of_mem _ (mem_ancestors_of_outside? ha))
  have hscope : a ∈ F.scope := by
    rw [scope_eq_filter_of_owns hc howns]
    exact List.mem_filter.mpr ⟨hmem, owns_outside howns ha hfun⟩
  refine ⟨a.node, _, hparent, hkind, suspensions_of_owns hc howns hrow, ?_⟩
  exact List.mem_filterMap.mpr ⟨a, hscope, point?_of_await hkind (hrow a hmem)⟩

end Focus

end Syntax

open Syntax Focus

/-- What is flagged as needlessly asynchronous has no points. -/
theorem Declaration.points_of_unnecessaryAsync {d : Declaration} {calls : List Call}
    {issues : List Issue} (h : d.issues calls = .ok issues)
    (hflag : .unnecessaryAsync ∈ issues.map (·.kind)) : d.points = [] := by
  rw [issues_ok] at h
  cases h
  by_contra hpoints
  have hsuspends : d.suspends = true := by simp [suspends, hpoints]
  cases hasync : d.isAsync with
  | true => simp [flags, hasync, hsuspends] at hflag
  | false => simp [flags, hasync, hsuspends] at hflag

namespace Survey

theorem suspensions_of_functionEntry {config : Config} {path : Text} {owner : Option String}
    {f : Focus} {d : Declaration} (h : functionEntry config path owner f = .ok (.declaration d)) :
    f.node.suspensions = .ok d.points := by
  obtain ⟨shape, -, ⟨-, points, hpoints, -, he⟩ | ⟨-, he⟩⟩ := functionEntry_cases h
  · cases he
    exact hpoints
  · cases he

/-- A call that is waited for in the body of a function is one of the points at which the function
suspends, in the line where the waiting begins. So a function that was declared asynchronous for
nothing waits for no call of its own. -/
theorem awaited_calls_are_points (tree : Node)
    (hrow : ∀ f ∈ preorder [root tree], 0 ≤ f.node.row) :
    (∀ F, ∀ c ∈ preorder [root tree], c.node.kind = .callExpression → c.function? = some F →
      c.isInBody F → c.isAwaited →
        ∃ a points, c.syntacticParent? = some a ∧ a.kind = .awaitExpression ∧
          F.node.suspensions = .ok points ∧ ⟨a.line, .await, "await"⟩ ∈ points) ∧
    (∀ config path owner F d, functionEntry config path owner F = .ok (.declaration d) →
      ∀ calls issues, d.issues calls = .ok issues → .unnecessaryAsync ∈ issues.map (·.kind) →
        ∀ c ∈ preorder [root tree], c.node.kind = .callExpression → c.function? = some F →
          c.isInBody F → c.isAwaited = false) := by
  have hpoint : ∀ F, ∀ c ∈ preorder [root tree], c.function? = some F → c.isInBody F →
      c.isAwaited → ∃ a points, c.syntacticParent? = some a ∧ a.kind = .awaitExpression ∧
        F.node.suspensions = .ok points ∧ ⟨a.line, .await, "await"⟩ ∈ points := by
    intro F c hc hF hin hawaited
    exact await_of_isAwaited hrow hc (by simp [owns, hF, hin]) hawaited
  refine ⟨fun F c hc _ => hpoint F c hc, ?_⟩
  intro config path owner F d hd calls issues hissues hflag c hc _ hF hin
  by_contra hawaited
  obtain ⟨a, points, -, -, hpoints, hmem⟩ :=
    hpoint F c hc hF hin (by simpa using hawaited)
  have hsame : points = d.points :=
    Except.ok.inj (hpoints.symm.trans (suspensions_of_functionEntry hd))
  rw [hsame, Declaration.points_of_unnecessaryAsync hissues hflag] at hmem
  cases hmem

/-- Two asynchronous functions. The first waits for a call through two pairs of parentheses that
begin a line later; all that the second waits for is inside an arrow function of its own. -/
def waiters : Node :=
  let keyword : Node := { Node.plain .async 0 [] with named := false }
  let word (role : Role) (text : String) : Node :=
    { Node.plain .identifier 0 [] with role := some role, text := some text }
  let load (row : Int) : Node := .plain .callExpression row [word .callee "load"]
  let asBody (n : Node) : Node := { n with role := some .body }
  let wrapped : Node := .plain .parenthesized 3 [.plain .parenthesized 3 [load 3]]
  .plain (.other "program") 0 [
    .plain .functionDeclaration 0 [keyword, word .name "patient",
      asBody (.plain (.other "statement_block") 0 [.plain .awaitExpression 2 [wrapped]])],
    .plain .functionDeclaration 5 [keyword, word .name "idle",
      asBody (.plain (.other "statement_block") 5 [
        load 6, .plain .arrowFunction 7 [asBody (.plain .awaitExpression 7 [load 7])]])]]

theorem awaited_calls_of_waiters :
    (∃ F, ∃ c ∈ preorder [root waiters], c.node.kind = .callExpression ∧ c.node.line = 4 ∧
      c.function? = some F ∧ c.isInBody F ∧ c.isAwaited ∧
        ∃ a points, c.syntacticParent? = some a ∧ a.kind = .awaitExpression ∧
          F.node.suspensions = .ok points ∧ ⟨a.line, .await, "await"⟩ ∈ points) ∧
    (∃ F d issues, functionEntry .default "a.js" none F = .ok (.declaration d) ∧
      d.name = "idle" ∧ d.issues [] = .ok issues ∧ .unnecessaryAsync ∈ issues.map (·.kind) ∧
      ∀ c ∈ preorder [root waiters], c.node.kind = .callExpression → c.function? = some F →
        c.isInBody F → c.isAwaited = false) := by
  have h := awaited_calls_are_points waiters (by decide +kernel)
  refine ⟨?_, ?_⟩
  · obtain ⟨F, -, c, hc, hcall, hline, hF, hin, hawaited⟩ :
        ∃ F ∈ preorder [root waiters], ∃ c ∈ preorder [root waiters],
          c.node.kind = .callExpression ∧ c.node.line = 4 ∧ c.function? = some F ∧
            c.isInBody F = true ∧ c.isAwaited = true := by decide +kernel
    exact ⟨F, c, hc, hcall, hline, hF, hin, hawaited, h.1 F c hc hcall hF hin hawaited⟩
  · let idle : Declaration := ⟨"idle", "a.js", 6, true, none, []⟩
    obtain ⟨F, -, hF⟩ : ∃ F ∈ preorder [root waiters],
        functionEntry .default "a.js" none F = .ok (.declaration idle) := by decide +kernel
    have hissues : idle.issues [] = .ok [⟨.unnecessaryAsync, []⟩] := by decide +kernel
    have hflag : .unnecessaryAsync ∈ [(⟨.unnecessaryAsync, []⟩ : Issue)].map (·.kind) := by decide
    exact ⟨F, idle, _, hF, rfl, hissues, hflag, h.2 _ _ _ F idle hF [] _ hissues hflag⟩

end Survey

end ScriptAudit
