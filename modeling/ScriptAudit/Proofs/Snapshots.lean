import Mathlib.Data.List.Induction
import ScriptAudit.Proofs.GraphHistory

/-! What is frozen of a graph at any moment of its history. The last declaration of an identity
stands where the first one was, names come in the order of their first sighting, and a snapshot
once taken is not touched by what follows. -/

namespace ScriptAudit

/-- The name that an entry declares or calls. -/
def Entry.name? : Entry → Option String
  | declaration d => some d.name
  | call c => some c.callee
  | skip => none

/-- The snapshot holds what was entered, and nothing else. -/
structure Snapshot.Collects (s : Snapshot) (es : List Entry) : Prop where
  /-- Each identity stands once, in the order in which identities were first declared. -/
  identities : s.declarations.map Declaration.id =
    ((es.filterMap Entry.declaration?).map Declaration.id).eraseDups
  /-- Of several declarations with one identity, the last one is kept. -/
  latest : ∀ d ∈ s.declarations,
    ((es.filterMap Entry.declaration?).filter (·.id = d.id)).getLast? = some d
  calls : s.calls = (es.filterMap Entry.name?).eraseDups.map fun name =>
    (name, (es.filterMap Entry.call?).filter (·.callee = name))
  skipped : s.skipped = es.countP Entry.isSkip

namespace Ordered

variable {α κ : Type} [DecidableEq κ]

theorem map_key_ofList (key : α → κ) (xs : List α) :
    (ofList key xs).map key = (xs.map key).eraseDups := by
  induction xs using List.reverseRecOn with
  | nil => rfl
  | append_singleton xs x ih =>
    rw [ofList_concat, map_key_put, ih, List.map_append, List.map_singleton, eraseDups_concat]
    simp only [List.mem_eraseDups]

theorem getLast?_of_mem_ofList {key : α → κ} {xs : List α} :
    ∀ z ∈ ofList key xs, (xs.filter (key · = key z)).getLast? = some z := by
  induction xs using List.reverseRecOn with
  | nil => simp [ofList]
  | append_singleton xs x ih =>
    intro z hz
    rw [ofList_concat] at hz
    have hkeys : ((ofList key xs).map key).Nodup := nodup_keys_putAll xs List.nodup_nil
    rw [List.filter_append, List.getLast?_append]
    rcases eq_or_key_ne_of_mem_put hkeys hz with rfl | ⟨hz, hne⟩
    · simp
    · have hne' : key x ≠ key z := fun h => hne h.symm
      simp [hne', ih z hz]

end Ordered

namespace CallGraph

theorem names_add (g : CallGraph) (e : Entry) :
    (g.add e).calls.map Prod.fst =
      match e.name? with
      | some name =>
        if name ∈ g.calls.map Prod.fst then g.calls.map Prod.fst
        else g.calls.map Prod.fst ++ [name]
      | none => g.calls.map Prod.fst := by
  cases e with
  | declaration d => exact Ordered.map_fst_addTo d.name [] g.calls
  | call c => exact Ordered.map_fst_addTo c.callee [c] g.calls
  | skip => rfl

theorem addAll_concat (g : CallGraph) (es : List Entry) (e : Entry) :
    g.addAll (es ++ [e]) = (g.addAll es).add e := addAll_append g es [e]

theorem names_addAll (es : List Entry) :
    (empty.addAll es).calls.map Prod.fst = (es.filterMap Entry.name?).eraseDups := by
  induction es using List.reverseRecOn with
  | nil => rfl
  | append_singleton es e ih =>
    rw [addAll_concat, names_add, ih, List.filterMap_append]
    cases hname : e.name? with
    | none => simp [hname]
    | some name =>
      rw [List.filterMap_cons, hname, List.filterMap_nil, Ordered.eraseDups_concat]
      simp only [List.mem_eraseDups]

theorem nodup_names_addAll (es : List Entry) :
    ((empty.addAll es).calls.map Prod.fst).Nodup := by
  induction es using List.reverseRecOn with
  | nil => exact List.nodup_nil
  | append_singleton es e ih =>
    rw [addAll_concat, names_add]
    cases e.name? with
    | none => exact ih
    | some name => exact Ordered.nodup_sighted ih name

theorem calls_addAll (es : List Entry) :
    (empty.addAll es).calls = (es.filterMap Entry.name?).eraseDups.map fun name =>
      (name, (es.filterMap Entry.call?).filter (·.callee = name)) := by
  have hgroups := Ordered.eq_map_find? (nodup_names_addAll es)
  rw [names_addAll] at hgroups
  refine hgroups.trans (List.map_congr_left fun name _ => ?_)
  have hcallers : (empty.addAll es).callers name = _ := callers_addAll empty es name
  exact congrArg (Prod.mk name) hcallers

/-- A graph that was only added to holds exactly what was added. -/
theorem snapshot_collects (es : List Entry) : (empty.addAll es).snapshot.Collects es := by
  have hdecl : (empty.addAll es).declarations =
      Ordered.ofList Declaration.id (es.filterMap Entry.declaration?) := declarations_addAll empty es
  have hskipped := skipped_addAll empty es
  constructor
  · change (empty.addAll es).declarations.map Declaration.id = _
    rw [hdecl, Ordered.map_key_ofList]
  · intro d hd
    change d ∈ (empty.addAll es).declarations at hd
    rw [hdecl] at hd
    exact Ordered.getLast?_of_mem_ofList d hd
  · exact calls_addAll es
  · exact hskipped.trans (Nat.zero_add _)

theorem freeze_addAll (es : List Entry) :
    (empty.addAll es).freeze = .ok (empty.addAll es).snapshot :=
  freeze_ok (counted_addAll counted_empty es)

/-- What may be done with a graph while it grows. -/
inductive Operation where
  | enter (e : Entry)
  | freeze

def Operation.entry? : Operation → Option Entry
  | enter e => some e
  | freeze => none

/-- A graph in use, and all that was frozen of it so far. -/
structure Recording where
  graph : CallGraph
  frozen : List (Except Error Snapshot)

namespace Recording

def start : Recording := ⟨.empty, []⟩

def perform (r : Recording) : Operation → Recording
  | .enter e => { r with graph := r.graph.add e }
  | .freeze => { r with frozen := r.frozen ++ [r.graph.freeze] }

def performAll (r : Recording) (ops : List Operation) : Recording := ops.foldl perform r

theorem performAll_append (r : Recording) (ops ops' : List Operation) :
    r.performAll (ops ++ ops') = (r.performAll ops).performAll ops' := List.foldl_append

theorem graph_performAll (r : Recording) (ops : List Operation) :
    (r.performAll ops).graph = r.graph.addAll (ops.filterMap Operation.entry?) := by
  induction ops generalizing r with
  | nil => rfl
  | cons op ops ih =>
    change ((r.perform op).performAll ops).graph = _
    rw [ih]
    cases op with
    | enter e => rfl
    | freeze => rfl

theorem frozen_perform (r : Recording) (op : Operation) : r.frozen <+: (r.perform op).frozen := by
  cases op with
  | enter e => exact List.prefix_rfl
  | freeze => exact List.prefix_append _ _

theorem frozen_performAll (r : Recording) (ops : List Operation) :
    r.frozen <+: (r.performAll ops).frozen := by
  induction ops generalizing r with
  | nil => exact List.prefix_rfl
  | cons op ops ih => exact (r.frozen_perform op).trans (ih (r.perform op))

/-- Freezing succeeds whenever it is asked for and gives what was entered before, and nothing that
is done later changes what was frozen. -/
theorem frozen_is_fold_of_history (before after : List Operation) :
    ∃ s : Snapshot,
      (start.performAll (before ++ [.freeze])).frozen =
        (start.performAll before).frozen ++ [.ok s] ∧
      s.Collects (before.filterMap Operation.entry?) ∧
      (start.performAll (before ++ [.freeze])).frozen <+:
        (start.performAll (before ++ .freeze :: after)).frozen := by
  have hgraph : (start.performAll before).graph =
      empty.addAll (before.filterMap Operation.entry?) := start.graph_performAll before
  refine ⟨(empty.addAll (before.filterMap Operation.entry?)).snapshot, ?_, snapshot_collects _, ?_⟩
  · rw [performAll_append]
    change (start.performAll before).frozen ++ [(start.performAll before).graph.freeze] = _
    rw [hgraph, freeze_addAll]
  · have hafter := frozen_performAll (start.performAll (before ++ [.freeze])) after
    rwa [← performAll_append, ← List.append_cons] at hafter

end Recording

end CallGraph

end ScriptAudit
