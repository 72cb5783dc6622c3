import ScriptAudit.Proofs.Preorder
import ScriptAudit.Proofs.Refusals
import ScriptAudit.Survey

/-! The survey of a tree by plain recursion. It does not touch a graph: it tells what is to be added
to one, in document order and up to the first error. -/

namespace ScriptAudit

open Syntax

/-- What a node by itself adds to a graph. -/
inductive Entry where
  | declaration (d : Declaration)
  | call (c : Call)
  | skip
deriving DecidableEq

namespace Entry

def isCall : Entry → Bool
  | call _ => true
  | _ => false

end Entry

namespace CallGraph

def add (g : CallGraph) : Entry → CallGraph
  | .declaration d => g.declare d
  | .call c => g.record c
  | .skip => g.skip

def addAll (g : CallGraph) (entries : List Entry) : CallGraph := entries.foldl add g

theorem addAll_nil (g : CallGraph) : g.addAll [] = g := rfl

theorem addAll_append (g : CallGraph) (es es' : List Entry) :
    g.addAll (es ++ es') = (g.addAll es).addAll es' := List.foldl_append

end CallGraph

/-- Entries one after the other, and whether there were to be more. -/
structure Trail where
  entries : List Entry
  outcome : Except Error Unit

namespace Trail

def done : Trail := ⟨[], .ok ()⟩

def ofEntry : Except Error (Option Entry) → Trail
  | .ok entry => ⟨entry.toList, .ok ()⟩
  | .error e => ⟨[], .error e⟩

def andThen (t u : Trail) : Trail :=
  match t.outcome with
  | .ok () => ⟨t.entries ++ u.entries, u.outcome⟩
  | .error e => ⟨t.entries, .error e⟩

theorem andThen_of_ok {t : Trail} (h : t.outcome = .ok ()) (u : Trail) :
    t.andThen u = ⟨t.entries ++ u.entries, u.outcome⟩ := by
  rw [andThen, h]

theorem andThen_of_error {t : Trail} {e : Error} (h : t.outcome = .error e) (u : Trail) :
    t.andThen u = ⟨t.entries, .error e⟩ := by
  rw [andThen, h]

theorem andThen_ok_iff {t u : Trail} :
    (t.andThen u).outcome = .ok () ↔ t.outcome = .ok () ∧ u.outcome = .ok () := by
  cases ht : t.outcome with
  | error e => simp [andThen_of_error ht]
  | ok => simp [andThen_of_ok ht]

theorem andThen_error_iff {t u : Trail} {e : Error} :
    (t.andThen u).outcome = .error e ↔
      t.outcome = .error e ∨ t.outcome = .ok () ∧ u.outcome = .error e := by
  cases ht : t.outcome with
  | error e' => simp [andThen_of_error ht]
  | ok => simp [andThen_of_ok ht]

theorem ofEntry_ok_iff {x : Except Error (Option Entry)} :
    (ofEntry x).outcome = .ok () ↔ ∃ own, x = .ok own := by
  cases x <;> simp [ofEntry]

theorem ofEntry_error_iff {x : Except Error (Option Entry)} {e : Error} :
    (ofEntry x).outcome = .error e ↔ x = .error e := by
  cases x <;> simp [ofEntry]

theorem andThen_assoc (t u v : Trail) : (t.andThen u).andThen v = t.andThen (u.andThen v) := by
  cases ht : t.outcome with
  | error e =>
    rw [andThen_of_error ht, andThen_of_error ht]
    rfl
  | ok =>
    rw [andThen_of_ok ht, andThen_of_ok ht]
    cases hu : u.outcome with
    | error e => simp only [andThen, hu]
    | ok => simp only [andThen, hu, List.append_assoc]

end Trail

namespace Survey

def functionEntry (config : Config) (path : Text) (owner : Option String) (f : Focus) :
    Except Error Entry := do
  let verdict := config.classify (← f.shape)
  if verdict.tracked then
    let points ← f.node.suspensions
    let d ← Declaration.check
      ⟨verdict.name, path, f.node.line, f.node.isAsync, owner, points⟩
    return .declaration d
  else return .skip

def callEntry (path : Text) (f : Focus) : Except Error (Option Entry) := do
  match f.node.callee? with
  | none => return none
  | some callee =>
    let c ← Call.check ⟨callee, path, f.node.line, f.isAwaited⟩
    return some (.call c)

/-- What a node adds inside the class `owner`. A class adds nothing, but has to have a name. -/
def nodeEntry (config : Config) (path : Text) (owner : Option String) (f : Focus) :
    Except Error (Option Entry) := do
  if f.node.isClassLike then
    require (f.node.className ≠ "") .blankClass
    return none
  else if f.node.isFunctionLike then return some (← functionEntry config path owner f)
  else if f.node.kind = .callExpression then callEntry path f
  else return none

def innerOwner (owner : Option String) (f : Focus) : Option String :=
  if f.node.isClassLike then some f.node.className else owner

/-- A node first, then what is inside it, then what comes after it. -/
def descend (config : Config) (path : Text) (owner : Option String) (fs : List Focus) : Trail :=
  match fs with
  | [] => .done
  | f :: rest =>
    (Trail.ofEntry (nodeEntry config path owner f)).andThen <|
      (descend config path (innerOwner owner f) f.namedChildren).andThen <|
        descend config path owner rest
termination_by Focus.sizes fs
decreasing_by
  · exact Focus.sizes_inside_lt f rest
  · exact Focus.sizes_behind_lt f rest

theorem check_eq_self {d d' : Declaration} (h : d.check = .ok d') : d' = d := by
  unfold Declaration.check at h
  simp only [bind_eq_ok] at h
  obtain ⟨-, -, -, -, -, -, -, -, h⟩ := h
  exact (Except.ok.inj h).symm

theorem functionEntry_cases {config : Config} {path : Text} {owner : Option String} {f : Focus}
    {entry : Entry} (h : functionEntry config path owner f = .ok entry) :
    ∃ shape, f.shape = .ok shape ∧
      ((config.classify shape).tracked = true ∧
        (∃ points, f.node.suspensions = .ok points ∧
          let d : Declaration := ⟨(config.classify shape).name, path, f.node.line, f.node.isAsync,
            owner, points⟩
          d.check = .ok d ∧ entry = .declaration d) ∨
      (config.classify shape).tracked = false ∧ entry = .skip) := by
  unfold functionEntry at h
  obtain ⟨shape, hshape, h⟩ := bind_eq_ok.mp h
  refine ⟨shape, hshape, ?_⟩
  cases ht : (config.classify shape).tracked with
  | true =>
    simp only [ht, if_true] at h
    obtain ⟨points, hpoints, h⟩ := bind_eq_ok.mp h
    obtain ⟨d, hd, h⟩ := bind_eq_ok.mp h
    obtain rfl := check_eq_self hd
    exact Or.inl ⟨rfl, points, hpoints, hd, (Except.ok.inj h).symm⟩
  | false =>
    simp only [ht] at h
    exact Or.inr ⟨rfl, (Except.ok.inj h).symm⟩

theorem callEntry_cases {path : Text} {f : Focus} {own : Option Entry}
    (h : callEntry path f = .ok own) :
    f.node.callee? = none ∧ own = none ∨
      ∃ callee, f.node.callee? = some callee ∧
        own = some (.call ⟨callee, path, f.node.line, f.isAwaited⟩) := by
  unfold callEntry at h
  cases hc : f.node.callee? with
  | none =>
    rw [hc] at h
    exact Or.inl ⟨rfl, (Except.ok.inj h).symm⟩
  | some callee =>
    simp only [hc] at h
    obtain ⟨c, hcheck, h⟩ := bind_eq_ok.mp h
    unfold Call.check at hcheck
    simp only [bind_eq_ok] at hcheck
    obtain ⟨-, -, -, -, hcheck⟩ := hcheck
    refine Or.inr ⟨callee, rfl, ?_⟩
    rw [← Except.ok.inj h, ← Except.ok.inj hcheck]

/-- What a node adds is settled by what it is: a class, a function, a call or none of these. -/
theorem nodeEntry_eq_ok {config : Config} {path : Text} {owner : Option String} {f : Focus}
    {own : Option Entry} :
    nodeEntry config path owner f = .ok own ↔
      f.node.isClassLike = true ∧ f.node.className ≠ "" ∧ own = none ∨
      f.node.isClassLike = false ∧ f.node.isFunctionLike = true ∧
        (∃ entry, functionEntry config path owner f = .ok entry ∧ own = some entry) ∨
      f.node.isClassLike = false ∧ f.node.isFunctionLike = false ∧
        f.node.kind = .callExpression ∧ callEntry path f = .ok own ∨
      f.node.isClassLike = false ∧ f.node.isFunctionLike = false ∧
        f.node.kind ≠ .callExpression ∧ own = none := by
  unfold nodeEntry
  cases hclass : f.node.isClassLike with
  | true =>
    by_cases hname : f.node.className = ""
    · simp [hname, require, bind, Except.bind]
    · simp [hname, require, bind, Except.bind, pure, Except.pure, eq_comm (b := own)]
  | false =>
    cases hfun : f.node.isFunctionLike with
    | true => simp [bind_eq_ok, pure, Except.pure, eq_comm (b := own)]
    | false =>
      by_cases hcall : f.node.kind = .callExpression
      · simp [hcall]
      · simp [hcall, pure, Except.pure, eq_comm (b := own)]

theorem functionEntry_of_declaration {config : Config} {path : Text} {owner : Option String}
    {f : Focus} {d : Declaration}
    (h : nodeEntry config path owner f = .ok (some (.declaration d))) :
    functionEntry config path owner f = .ok (.declaration d) := by
  rcases nodeEntry_eq_ok.mp h with
    ⟨-, -, hown⟩ | ⟨-, -, entry, hentry, hown⟩ | ⟨-, -, -, hcall⟩ | ⟨-, -, -, hown⟩
  · cases hown
  · cases hown
    exact hentry
  · rcases callEntry_cases hcall with ⟨-, hown⟩ | ⟨callee, -, hown⟩
    · cases hown
    · cases hown
  · cases hown

theorem call_eq_of_nodeEntry {config : Config} {path : Text} {owner : Option String} {f : Focus}
    {c : Call} (h : nodeEntry config path owner f = .ok (some (.call c))) :
    ∃ callee, f.node.callee? = some callee ∧ c = ⟨callee, path, f.node.line, f.isAwaited⟩ := by
  rcases nodeEntry_eq_ok.mp h with
    ⟨-, -, hown⟩ | ⟨-, -, entry, hentry, hown⟩ | ⟨-, -, -, hcall⟩ | ⟨-, -, -, hown⟩
  · cases hown
  · cases hown
    obtain ⟨shape, -, ⟨-, points, -, -, he⟩ | ⟨-, he⟩⟩ := functionEntry_cases hentry
    · cases he
    · cases he
  · rcases callEntry_cases hcall with ⟨-, hown⟩ | ⟨callee, hcallee, hown⟩
    · cases hown
    · cases hown
      exact ⟨callee, hcallee, rfl⟩
  · cases hown

theorem file_of_declaration {config : Config} {path : Text} {owner : Option String} {f : Focus}
    {d : Declaration} (h : nodeEntry config path owner f = .ok (some (.declaration d))) :
    d.file = path := by
  obtain ⟨shape, -, htracked | hskip⟩ := functionEntry_cases (functionEntry_of_declaration h)
  · obtain ⟨-, points, -, -, he⟩ := htracked
    cases he
    rfl
  · cases hskip.2

theorem nodeEntry_onlyRefuses (config : Config) (path : Text) (owner : Option String) (f : Focus) :
    OnlyRefuses (nodeEntry config path owner f) := by
  unfold nodeEntry
  split
  · exact (OnlyRefuses.require _ _).bind fun _ => OnlyRefuses.ok _
  · split
    · refine OnlyRefuses.bind ?_ fun _ => OnlyRefuses.ok _
      refine (OnlyRefuses.shape f).bind fun shape => ?_
      dsimp only
      split
      · exact (OnlyRefuses.suspensions _).bind fun _ =>
          (OnlyRefuses.declarationCheck _).bind fun _ => OnlyRefuses.ok _
      · exact OnlyRefuses.ok _
    · split
      · unfold callEntry
        split
        · exact OnlyRefuses.ok _
        · exact (OnlyRefuses.callCheck _).bind fun _ => OnlyRefuses.ok _
      · exact OnlyRefuses.ok _

theorem descend_onlyRefuses (config : Config) (path : Text) (owner : Option String)
    (fs : List Focus) : OnlyRefuses (descend config path owner fs).outcome := by
  fun_induction descend config path owner fs with
  | case1 owner => exact OnlyRefuses.ok _
  | case2 owner f rest ihinner ihrest =>
    intro e he
    rcases Trail.andThen_error_iff.mp he with hown | ⟨-, he⟩
    · exact nodeEntry_onlyRefuses config path owner f e (Trail.ofEntry_error_iff.mp hown)
    · rcases Trail.andThen_error_iff.mp he with hinner | ⟨-, hrest⟩
      · exact ihinner e hinner
      · exact ihrest e hrest

def entryAt? (config : Config) (path : Text) (f : Focus) : Except Error (Option Entry) :=
  nodeEntry config path f.owner? f

/-- The entries of given places, each inside the innermost class above it. -/
def follow (config : Config) (path : Text) (fs : List Focus) : Trail :=
  fs.foldr (fun f t => (Trail.ofEntry (entryAt? config path f)).andThen t) .done

theorem follow_cons (config : Config) (path : Text) (f : Focus) (fs : List Focus) :
    follow config path (f :: fs) =
      (Trail.ofEntry (entryAt? config path f)).andThen (follow config path fs) := rfl

theorem follow_append (config : Config) (path : Text) (fs gs : List Focus) :
    follow config path (fs ++ gs) = (follow config path fs).andThen (follow config path gs) := by
  induction fs with
  | nil => rfl
  | cons f fs ih => rw [List.cons_append, follow_cons, follow_cons, ih, Trail.andThen_assoc]

/-- The owner that the recursion passes down is the innermost class above each place. -/
theorem descend_eq_follow (config : Config) (path : Text) (owner : Option String) (fs : List Focus)
    (howner : ∀ f ∈ fs, f.owner? = owner) :
    descend config path owner fs = follow config path (Focus.preorder fs) := by
  fun_induction descend config path owner fs with
  | case1 owner => rw [Focus.preorder_nil]; rfl
  | case2 owner f rest ihinner ihrest =>
    have hf : f.owner? = owner := howner f List.mem_cons_self
    have hinner := ihinner fun c hc => by
      rw [Focus.owner?_of_mem_namedChildren hc, hf, innerOwner]
    have hrest := ihrest fun g hg => howner g (List.mem_cons_of_mem _ hg)
    rw [Focus.preorder_cons, follow_cons, follow_append, hinner, hrest, entryAt?, hf]

theorem descend_root (config : Config) (path : Text) (tree : Node) :
    descend config path none [.root tree] = follow config path (Focus.preorder [.root tree]) :=
  descend_eq_follow config path none _ fun f hf => by
    rw [List.mem_singleton.mp hf]
    rfl

def entryOr? (config : Config) (path : Text) (f : Focus) : Option Entry :=
  match entryAt? config path f with
  | .ok entry => entry
  | .error _ => none

theorem entryOr?_of_ok {config : Config} {path : Text} {f : Focus} {entry : Option Entry}
    (h : entryAt? config path f = .ok entry) : entryOr? config path f = entry := by
  rw [entryOr?, h]

theorem follow_ok_iff (config : Config) (path : Text) (fs : List Focus) :
    (follow config path fs).outcome = .ok () ↔
      ∀ f ∈ fs, ∃ entry, entryAt? config path f = .ok entry := by
  induction fs with
  | nil => simp [follow, Trail.done]
  | cons f fs ih =>
    rw [follow_cons, List.forall_mem_cons, ← ih, Trail.andThen_ok_iff, Trail.ofEntry_ok_iff]

theorem follow_entries {config : Config} {path : Text} {fs : List Focus}
    (h : (follow config path fs).outcome = .ok ()) :
    (follow config path fs).entries = fs.filterMap (entryOr? config path) := by
  induction fs with
  | nil => rfl
  | cons f fs ih =>
    obtain ⟨⟨entry, he⟩, hrest⟩ := List.forall_mem_cons.mp ((follow_ok_iff ..).mp h)
    have hentries := ih ((follow_ok_iff ..).mpr hrest)
    rw [follow_cons, List.filterMap_cons, entryOr?_of_ok he, he,
      Trail.andThen_of_ok rfl, hentries]
    cases entry with
    | none => rfl
    | some entry => rfl

end Survey

end ScriptAudit
