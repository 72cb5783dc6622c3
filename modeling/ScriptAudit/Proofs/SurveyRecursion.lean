import ScriptAudit.Proofs.SurveyTrail

/-! The walk with a list of tasks against the recursive survey. Tasks of all open levels share one
list, and what ties it to the open classes is that the tasks of a node close each class that the
node opens before anything after the node is looked at. -/

namespace ScriptAudit.Survey

open Syntax

def Progress.after (p : Progress) (entries : List Entry) (classes : Enclosing) : Progress :=
  ⟨p.graph.addAll entries, classes, p.calls + entries.countP Entry.isCall⟩

theorem Progress.after_after (p : Progress) (es es' : List Entry) (classes classes' : Enclosing) :
    (p.after es classes).after es' classes' = p.after (es ++ es') classes' := by
  simp only [after, CallGraph.addAll_append, List.countP_append, Nat.add_assoc]

def innerClasses (classes : Enclosing) (f : Focus) : Enclosing :=
  if f.node.isClassLike then f.node.className :: classes else classes

theorem current?_innerClasses (classes : Enclosing) (f : Focus) :
    (innerClasses classes f).current? = innerOwner classes.current? f := by
  unfold innerClasses innerOwner
  split <;> rfl

theorem visitFunction_eq (config : Config) (path : Text) (f : Focus) (p : Progress) :
    visitFunction config path f p =
      (functionEntry config path p.enclosing.current? f).map fun entry =>
        p.after [entry] p.enclosing := by
  unfold visitFunction functionEntry
  cases f.shape with
  | error e => rfl
  | ok shape =>
    simp only [bind, Except.bind]
    split
    · cases f.node.suspensions with
      | error e => rfl
      | ok points =>
        simp only
        split <;> rfl
    · rfl

theorem visitCall_eq (path : Text) (f : Focus) (p : Progress) :
    visitCall path f p = (callEntry path f).map fun own => p.after own.toList p.enclosing := by
  unfold visitCall callEntry
  cases f.node.callee? with
  | none => rfl
  | some callee =>
    simp only [bind, Except.bind]
    split <;> rfl

/-- One step of the walk adds what the node adds, and opens the class that the node is. -/
theorem visit_eq (config : Config) (path : Text) (f : Focus) (p : Progress) :
    visit config path f p =
      (nodeEntry config path p.enclosing.current? f).map fun own =>
        p.after own.toList (innerClasses p.enclosing f) := by
  unfold visit nodeEntry innerClasses
  by_cases hc : f.node.isClassLike = true
  · simp only [hc, if_true, Enclosing.enter]
    by_cases hn : f.node.className = ""
    · simp [hn, require, bind, Except.bind, Except.map]
    · simp [hn, require, bind, Except.bind, Except.map, pure, Except.pure, Progress.after,
        CallGraph.addAll_nil]
  · simp only [hc]
    by_cases hf : f.node.isFunctionLike = true
    · simp only [hf, if_true, visitFunction_eq]
      cases functionEntry config path p.enclosing.current? f <;> rfl
    · simp only [hf]
      by_cases hk : f.node.kind = .callExpression
      · simp [hk, visitCall_eq]
      · simp only [hk]
        rfl

theorem run_leaving (config : Config) (path : Text) (f : Focus) (rest : List Task) (p : Progress)
    (entries : List Entry) :
    run config path ((if f.node.isClassLike then [.leaveClass] else []) ++ rest)
        (p.after entries (innerClasses p.enclosing f)) =
      run config path rest (p.after entries p.enclosing) := by
  unfold innerClasses
  split
  · rw [List.singleton_append, run]
    rfl
  · rfl

theorem run_visit_ok {config : Config} {path : Text} {f : Focus} {p : Progress}
    {own : Option Entry} (h : nodeEntry config path p.enclosing.current? f = .ok own)
    (rest : List Task) :
    run config path (.visit f :: rest) p =
      run config path (inside f ++ rest) (p.after own.toList (innerClasses p.enclosing f)) := by
  rw [run, visit_eq, h]
  rfl

theorem run_visit_through {config : Config} {path : Text} {f : Focus} {p : Progress}
    {own : Option Entry} {inner : List Entry}
    (hown : nodeEntry config path p.enclosing.current? f = .ok own)
    (hinner : ∀ (rest : List Task) (q : Progress),
      q.enclosing.current? = innerOwner p.enclosing.current? f →
      run config path (f.namedChildren.map .visit ++ rest) q =
        run config path rest (q.after inner q.enclosing))
    (rest : List Task) :
    run config path (.visit f :: rest) p =
      run config path rest (p.after (own.toList ++ inner) p.enclosing) := by
  have hchildren := hinner ((if f.node.isClassLike then [.leaveClass] else []) ++ rest)
    (p.after own.toList (innerClasses p.enclosing f)) (current?_innerClasses ..)
  rw [run_visit_ok hown, inside, List.append_assoc, hchildren, Progress.after_after]
  exact run_leaving config path f rest p (own.toList ++ inner)

/-- If the recursive survey of some places succeeds, the walk goes on behind them in the same
classes as before. -/
theorem run_visits_of_ok {config : Config} {path : Text} {owner : Option String} {fs : List Focus}
    (h : (descend config path owner fs).outcome = .ok ()) (rest : List Task) (p : Progress)
    (howner : p.enclosing.current? = owner) :
    run config path (fs.map .visit ++ rest) p =
      run config path rest (p.after (descend config path owner fs).entries p.enclosing) := by
  -- `rest` varies: what stands inside a node is walked through with the node's siblings pending
  fun_induction descend config path owner fs generalizing rest p with
  | case1 owner => rfl
  | case2 owner f fs ihinner ihrest =>
    obtain ⟨hown, h⟩ := Trail.andThen_ok_iff.mp h
    obtain ⟨hinner, hrest⟩ := Trail.andThen_ok_iff.mp h
    obtain ⟨own, hown'⟩ := Trail.ofEntry_ok_iff.mp hown
    have hnode := run_visit_through (howner ▸ hown')
      (fun rest q hq => ihinner hinner rest q (by rw [hq, howner])) (fs.map .visit ++ rest)
    have htail := ihrest hrest rest
      (p.after (own.toList ++ (descend config path (innerOwner owner f) f.namedChildren).entries)
        p.enclosing) howner
    rw [List.map_cons, List.cons_append, hnode, htail, Progress.after_after,
      Trail.andThen_of_ok hown, Trail.andThen_of_ok hinner, hown', List.append_assoc]
    rfl

theorem run_visits_of_error {config : Config} {path : Text} {owner : Option String}
    {fs : List Focus} {e : Error} (h : (descend config path owner fs).outcome = .error e)
    (rest : List Task) (p : Progress) (howner : p.enclosing.current? = owner) :
    ∃ classes, run config path (fs.map .visit ++ rest) p =
      (p.after (descend config path owner fs).entries classes, .error e) := by
  fun_induction descend config path owner fs generalizing rest p with
  | case1 owner => cases h
  | case2 owner f fs ihinner ihrest =>
    rw [List.map_cons, List.cons_append]
    rcases Trail.andThen_error_iff.mp h with hown | ⟨hown, h⟩
    · refine ⟨p.enclosing, ?_⟩
      rw [Trail.andThen_of_error hown, run, visit_eq, howner, Trail.ofEntry_error_iff.mp hown]
      rfl
    · obtain ⟨own, hown'⟩ := Trail.ofEntry_ok_iff.mp hown
      rw [Trail.andThen_of_ok hown, hown']
      rcases Trail.andThen_error_iff.mp h with hinner | ⟨hinner, hrest⟩
      · obtain ⟨classes, hrun⟩ := ihinner hinner
          ((if f.node.isClassLike then [.leaveClass] else []) ++ (fs.map .visit ++ rest))
          (p.after own.toList (innerClasses p.enclosing f))
          ((current?_innerClasses ..).trans (by rw [howner]))
        refine ⟨classes, ?_⟩
        rw [run_visit_ok (howner ▸ hown'), inside, List.append_assoc, hrun, Progress.after_after,
          Trail.andThen_of_error hinner]
        rfl
      -- the error is behind this node, so the walk through the node is one that succeeds
      · have hnode := run_visit_through (howner ▸ hown')
          (fun rest q hq => run_visits_of_ok hinner rest q (by rw [hq, howner]))
          (fs.map .visit ++ rest)
        obtain ⟨classes, hrun⟩ := ihrest hrest rest
          (p.after (own.toList ++ (descend config path (innerOwner owner f) f.namedChildren).entries)
            p.enclosing) howner
        refine ⟨classes, ?_⟩
        rw [hnode, hrun, Progress.after_after, Trail.andThen_of_ok hinner, List.append_assoc]
        rfl

def addTreeRecursively (config : Config) (path : Text) (tree : Node) (g : CallGraph) :
    CallGraph × Except Error Stats :=
  let trail := descend config path none [.root tree]
  let grown := g.addAll trail.entries
  (grown, trail.outcome.map fun _ => {
    declarations := grown.declarations.length - g.declarations.length
    skipped := grown.skipped - g.skipped
    calls := trail.entries.countP Entry.isCall })

theorem run_root (config : Config) (path : Text) (tree : Node) (g : CallGraph) :
    ∃ classes, run config path [.visit (.root tree)] (start g) =
      ((start g).after (descend config path none [.root tree]).entries classes,
        (descend config path none [.root tree]).outcome) ∧
      ((descend config path none [.root tree]).outcome = .ok () → classes = []) := by
  cases h : (descend config path none [.root tree]).outcome with
  | ok =>
    have hrun := run_visits_of_ok h [] (start g) rfl
    rw [run] at hrun
    exact ⟨[], hrun, fun _ => rfl⟩
  | error e =>
    obtain ⟨classes, hrun⟩ := run_visits_of_error h [] (start g) rfl
    exact ⟨classes, hrun, fun h => by cases h⟩

theorem addTree_eq (config : Config) (path : Text) (tree : Node) (g : CallGraph) :
    addTree config path tree g = addTreeRecursively config path tree g := by
  obtain ⟨classes, hrun, -⟩ := run_root config path tree g
  unfold addTree addTreeRecursively
  rw [hrun]
  simp only [Progress.after, start, Nat.zero_add]

/-- The walk adds to any graph what the recursive survey adds, counts the same and breaks off with
the same error. The owner of a function is the innermost class above it. No class is left that is
not open, and none is open when the walk has come to its end. -/
theorem addTree_eq_addTreeRecursively (config : Config) (path : Text) (tree : Node)
    (g : CallGraph) :
    addTree config path tree g = addTreeRecursively config path tree g ∧
    descend config path none [.root tree] =
      follow config path (Focus.preorder [.root tree]) ∧
    (addTree config path tree g).2 ≠ .error .noOpenClass ∧
    ((run config path [.visit (.root tree)] (start g)).2 = .ok () →
      (run config path [.visit (.root tree)] (start g)).1.enclosing = []) := by
  refine ⟨addTree_eq config path tree g, descend_root config path tree, ?_, ?_⟩
  · rw [addTree_eq]
    intro h
    cases hout : (descend config path none [.root tree]).outcome with
    | ok => simp [addTreeRecursively, hout, Except.map] at h
    | error e =>
      obtain ⟨why, rfl⟩ := descend_onlyRefuses config path none _ e hout
      simp [addTreeRecursively, hout, Except.map] at h
  · obtain ⟨classes, hrun, hclasses⟩ := run_root config path tree g
    rw [hrun]
    exact hclasses

end ScriptAudit.Survey
