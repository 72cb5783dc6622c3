import ScriptAudit.Proofs.FirstSighting
import ScriptAudit.Proofs.SurveyRecursion

/-! A call graph as the sum of what was added to it, and the graph of a list of files as the sum of
what each file adds by itself. -/

namespace ScriptAudit

open Syntax

namespace Entry

def declaration? : Entry → Option Declaration
  | declaration d => some d
  | _ => none

def call? : Entry → Option Call
  | call c => some c
  | _ => none

def isSkip : Entry → Bool
  | skip => true
  | _ => false

end Entry

/-- Every declared name was seen. -/
def Snapshot.Counted (s : Snapshot) : Prop :=
  ∀ d ∈ s.declarations, (Ordered.find? d.name s.calls).isSome

theorem Snapshot.uncountedNames_eq_nil {declarations : List Declaration}
    {calls : List (String × List Call)} :
    uncountedNames declarations calls = [] ↔
      ∀ d ∈ declarations, (Ordered.find? d.name calls).isSome := by
  simp [uncountedNames, Option.isSome_iff_ne_none]

/-- A graph is accepted if it counts no negative number of functions and saw every declared name. -/
theorem Snapshot.make_eq_ok {declarations : List Declaration} {calls : List (String × List Call)}
    {skipped : Int} {s : Snapshot} :
    make declarations calls skipped = .ok s ↔
      0 ≤ skipped ∧ s = ⟨declarations, calls, skipped.toNat⟩ ∧ s.Counted := by
  unfold make
  by_cases hskipped : 0 ≤ skipped
  · cases hnames : uncountedNames declarations calls with
    | nil =>
      have hcounted := uncountedNames_eq_nil.mp hnames
      simp only [require, hskipped, decide_true, if_true, bind, Except.bind, pure, Except.pure,
        Except.ok.injEq, true_and]
      constructor
      · rintro rfl
        exact ⟨rfl, hcounted⟩
      · rintro ⟨rfl, -⟩
        rfl
    | cons name names =>
      have hcounted : ¬ ∀ d ∈ declarations, (Ordered.find? d.name calls).isSome := by
        rw [← uncountedNames_eq_nil, hnames]
        simp
      simp only [require, hskipped, decide_true, if_true, bind, Except.bind, true_and]
      constructor
      · intro h
        cases h
      · rintro ⟨rfl, h⟩
        exact absurd h hcounted
  · simp [require, hskipped, bind, Except.bind]

namespace CallGraph

def callers (g : CallGraph) (name : String) : List Call := (Ordered.find? name g.calls).getD []

def snapshot (g : CallGraph) : Snapshot := ⟨g.declarations, g.calls, g.skipped⟩

theorem addAll_cons (g : CallGraph) (e : Entry) (es : List Entry) :
    g.addAll (e :: es) = (g.add e).addAll es := rfl

theorem declarations_addAll (g : CallGraph) (es : List Entry) :
    (g.addAll es).declarations =
      Ordered.putAll Declaration.id (es.filterMap Entry.declaration?) g.declarations := by
  induction es generalizing g with
  | nil => rfl
  | cons e es ih =>
    rw [addAll_cons, ih]
    cases e with
    | declaration d => rfl
    | call c => rfl
    | skip => rfl

theorem skipped_addAll (g : CallGraph) (es : List Entry) :
    (g.addAll es).skipped = g.skipped + es.countP Entry.isSkip := by
  induction es generalizing g with
  | nil => rfl
  | cons e es ih =>
    rw [addAll_cons, ih, List.countP_cons]
    cases e with
    | declaration d => rfl
    | call c => rfl
    | skip =>
      simp only [add, skip, Entry.isSkip, if_true]
      omega

theorem callers_add (g : CallGraph) (e : Entry) (name : String) :
    (g.add e).callers name = g.callers name ++ e.call?.toList.filter (·.callee = name) := by
  cases e with
  | declaration d =>
    simp only [callers, add, declare, Ordered.find?_addTo, Entry.call?]
    by_cases hd : d.name = name
    · simp [hd]
    · simp [hd]
  | call c =>
    simp only [callers, add, record, Ordered.find?_addTo, Entry.call?]
    by_cases hc : c.callee = name
    · simp [hc]
    · simp [hc]
  | skip => simp [callers, add, skip, Entry.call?]

theorem callers_addAll (g : CallGraph) (es : List Entry) (name : String) :
    (g.addAll es).callers name =
      g.callers name ++ (es.filterMap Entry.call?).filter (·.callee = name) := by
  induction es generalizing g with
  | nil => simp [addAll_nil]
  | cons e es ih =>
    rw [addAll_cons, ih, callers_add, List.append_assoc, ← List.filter_append, List.filterMap_cons]
    cases e.call? with
    | none => rfl
    | some c => rfl

/-- All calls, group by group. -/
def recorded (g : CallGraph) : List Call := g.calls.flatMap Prod.snd

theorem recorded_add (g : CallGraph) (e : Entry) :
    (g.add e).recorded.Perm (g.recorded ++ e.call?.toList) := by
  cases e with
  | declaration d => exact Ordered.flatMap_addTo d.name [] g.calls
  | call c => exact Ordered.flatMap_addTo c.callee [c] g.calls
  | skip => simp [add, skip, recorded, Entry.call?]

theorem recorded_addAll (g : CallGraph) (es : List Entry) :
    (g.addAll es).recorded.Perm (g.recorded ++ es.filterMap Entry.call?) := by
  induction es generalizing g with
  | nil => simp [addAll_nil]
  | cons e es ih =>
    have hstep := (ih (g.add e)).trans ((recorded_add g e).append_right _)
    rw [addAll_cons]
    refine hstep.trans ?_
    rw [List.append_assoc, List.filterMap_cons]
    cases e.call? with
    | none => rfl
    | some c => rfl

theorem isSome_find?_add {g : CallGraph} {name : String}
    (h : (Ordered.find? name g.calls).isSome) (e : Entry) :
    (Ordered.find? name (g.add e).calls).isSome := by
  cases e with
  | declaration d =>
    simp only [add, declare, Ordered.find?_addTo]
    split
    · rfl
    · exact h
  | call c =>
    simp only [add, record, Ordered.find?_addTo]
    split
    · rfl
    · exact h
  | skip => exact h

theorem counted_add {g : CallGraph} (h : g.snapshot.Counted) (e : Entry) :
    (g.add e).snapshot.Counted := by
  intro d hd
  cases e with
  | declaration d' =>
    rcases Ordered.mem_of_mem_put hd with rfl | hd
    · simp [snapshot, CallGraph.add, declare, Ordered.find?_addTo]
    · exact isSome_find?_add (h d hd) (.declaration d')
  | call c => exact isSome_find?_add (h d hd) (.call c)
  | skip => exact h d hd

theorem counted_addAll {g : CallGraph} (h : g.snapshot.Counted) (es : List Entry) :
    (g.addAll es).snapshot.Counted := by
  induction es generalizing g with
  | nil => exact h
  | cons e es ih => exact ih (counted_add h e)

theorem counted_empty : empty.snapshot.Counted := by
  intro d hd
  cases hd

theorem freeze_ok {g : CallGraph} (h : g.snapshot.Counted) : g.freeze = .ok g.snapshot :=
  Snapshot.make_eq_ok.mpr ⟨Int.natCast_nonneg _, rfl, h⟩

end CallGraph

namespace Survey

/-- Whether no file breaks off when they are added to an empty graph. -/
def builds (config : Config) (files : List (Text × Node)) : Bool :=
  (addTrees config .empty files).2.all (·.isOk)

def build (config : Config) (files : List (Text × Node)) : CallGraph :=
  (addTrees config .empty files).1

def fileEntries (config : Config) (file : Text × Node) : List Entry :=
  (Focus.preorder [.root file.2]).filterMap (entryOr? config file.1)

theorem exists_entryAt?_of_mem_fileEntries {config : Config} {file : Text × Node} {entry : Entry}
    (h : entry ∈ fileEntries config file) :
    ∃ f ∈ Focus.preorder [.root file.2], entryAt? config file.1 f = .ok (some entry) := by
  obtain ⟨f, hplace, hf⟩ := List.mem_filterMap.mp h
  refine ⟨f, hplace, ?_⟩
  unfold entryOr? at hf
  split at hf
  · rename_i own hown
    rw [hown, hf]
  · cases hf

def IsSound (config : Config) (file : Text × Node) : Prop :=
  ∀ f ∈ Focus.preorder [.root file.2], ∃ entry, entryAt? config file.1 f = .ok entry

theorem addTree_isOk_iff (config : Config) (path : Text) (tree : Node) (g : CallGraph) :
    (addTree config path tree g).2.isOk ↔ IsSound config (path, tree) := by
  rw [addTree_eq, addTreeRecursively, descend_root]
  refine Iff.trans ?_ (follow_ok_iff config path _)
  cases (follow config path (Focus.preorder [.root tree])).outcome with
  | ok => simp [Except.map, Except.isOk, Except.toBool]
  | error e => simp [Except.map, Except.isOk, Except.toBool]

theorem addTree_graph {config : Config} {path : Text} {tree : Node}
    (h : IsSound config (path, tree)) (g : CallGraph) :
    (addTree config path tree g).1 = g.addAll (fileEntries config (path, tree)) := by
  rw [addTree_eq, addTreeRecursively, descend_root, follow_entries ((follow_ok_iff ..).mpr h)]
  rfl

theorem addTrees_all_isOk_iff (config : Config) (g : CallGraph) (files : List (Text × Node)) :
    (addTrees config g files).2.all (·.isOk) ↔ ∀ file ∈ files, IsSound config file := by
  induction files generalizing g with
  | nil => simp [addTrees]
  | cons file files ih =>
    obtain ⟨path, tree⟩ := file
    rw [List.forall_mem_cons, ← ih (addTree config path tree g).1,
      ← addTree_isOk_iff config path tree g]
    simp [addTrees]

theorem addTrees_graph {config : Config} {files : List (Text × Node)}
    (h : ∀ file ∈ files, IsSound config file) (g : CallGraph) :
    (addTrees config g files).1 = g.addAll (files.flatMap (fileEntries config)) := by
  induction files generalizing g with
  | nil => rfl
  | cons file files ih =>
    obtain ⟨path, tree⟩ := file
    obtain ⟨hfile, hfiles⟩ := List.forall_mem_cons.mp h
    rw [List.flatMap_cons, CallGraph.addAll_append, ← addTree_graph hfile, ← ih hfiles]
    rfl

theorem builds_iff {config : Config} {files : List (Text × Node)} :
    builds config files ↔ ∀ file ∈ files, IsSound config file :=
  addTrees_all_isOk_iff config .empty files

/-- The graph of files that can be added is the sum of what they add one by one. -/
theorem build_eq {config : Config} {files : List (Text × Node)} (h : builds config files) :
    build config files = CallGraph.empty.addAll (files.flatMap (fileEntries config)) :=
  addTrees_graph (builds_iff.mp h) .empty

theorem build_counted {config : Config} {files : List (Text × Node)} (h : builds config files) :
    (build config files).snapshot.Counted := by
  rw [build_eq h]
  exact CallGraph.counted_addAll CallGraph.counted_empty _

def fileDeclarations (config : Config) (file : Text × Node) : List Declaration :=
  (fileEntries config file).filterMap Entry.declaration?

theorem declarations_build {config : Config} {files : List (Text × Node)}
    (h : builds config files) :
    (build config files).declarations =
      Ordered.ofList Declaration.id (files.flatMap (fileDeclarations config)) := by
  rw [build_eq h, CallGraph.declarations_addAll, List.filterMap_flatMap]
  rfl

theorem callers_build {config : Config} {files : List (Text × Node)} (h : builds config files)
    (name : String) :
    (build config files).callers name =
      ((files.flatMap (fileEntries config)).filterMap Entry.call?).filter (·.callee = name) := by
  rw [build_eq h, CallGraph.callers_addAll]
  rfl

theorem recorded_build {config : Config} {files : List (Text × Node)} (h : builds config files) :
    (build config files).recorded.Perm
      ((files.flatMap (fileEntries config)).filterMap Entry.call?) := by
  rw [build_eq h]
  exact CallGraph.recorded_addAll .empty _

theorem skipped_build {config : Config} {files : List (Text × Node)} (h : builds config files) :
    (build config files).skipped = (files.flatMap (fileEntries config)).countP Entry.isSkip := by
  rw [build_eq h, CallGraph.skipped_addAll]
  exact Nat.zero_add _

end Survey

end ScriptAudit
