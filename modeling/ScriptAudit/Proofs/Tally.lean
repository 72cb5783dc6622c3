import Mathlib.Algebra.BigOperators.Group.List.Basic
import Mathlib.Algebra.GroupWithZero.Nat
import Mathlib.Data.Finset.Card
import Mathlib.Data.Finset.Dedup
import ScriptAudit.Proofs.GraphHistory

/-! What is counted against what is there. Every function of a tree is tracked or skipped, and what
the files report one by one adds up to what the finished graph holds. -/

namespace ScriptAudit

open Syntax

namespace Entry

def isDeclaration : Entry → Bool
  | declaration _ => true
  | _ => false

theorem countP_isCall (es : List Entry) : es.countP isCall = (es.filterMap call?).length := by
  induction es with
  | nil => rfl
  | cons e es ih =>
    rw [List.countP_cons, List.filterMap_cons, ih]
    cases e with
    | declaration d => rfl
    | call c => rfl
    | skip => rfl

end Entry

theorem Ordered.length_ofList {α κ : Type} [DecidableEq κ] (key : α → κ) (xs : List α) :
    (Ordered.ofList key xs).length = (xs.map key).toFinset.card := by
  have hnodup : ((Ordered.ofList key xs).map key).Nodup := Ordered.nodup_keys_putAll xs (by simp)
  have hkeys : ((Ordered.ofList key xs).map key).toFinset = (xs.map key).toFinset := by
    ext k
    rw [List.mem_toFinset, List.mem_toFinset, Ordered.ofList_eq_putAll, Ordered.mem_keys_putAll]
    simp
  rw [← hkeys, List.toFinset_card_of_nodup hnodup, List.length_map]

namespace Survey

variable {config : Config} {path : Text} {f : Focus} {own : Option Entry}

/-- Whether a place is a function that is tracked. -/
def tracks (config : Config) (f : Focus) : Bool :=
  f.node.isFunctionLike &&
    match f.shape with
    | .ok shape => (config.classify shape).tracked
    | .error _ => false

/-- What tells a tracked function apart from others. -/
def identity? (config : Config) (path : Text) (f : Focus) : Option Declaration.Id :=
  match f.shape with
  | .ok shape =>
    if tracks config f then some ⟨path, (config.classify shape).name, f.node.line⟩ else none
  | .error _ => none

/-- Whether a place is a call that calls something by name. -/
def isNamedCall (f : Focus) : Bool := f.node.kind = .callExpression && f.node.callee?.isSome

/-- All places of some files that are reached through named nodes, in document order. -/
def places (files : List (Text × Node)) : List Focus :=
  files.flatMap fun file => Focus.preorder [.root file.2]

def identities (config : Config) (files : List (Text × Node)) : List Declaration.Id :=
  files.flatMap fun file => (Focus.preorder [.root file.2]).filterMap (identity? config file.1)

theorem isFunctionLike_of_isClassLike {n : Node} (h : n.isClassLike = true) :
    n.isFunctionLike = false := by
  unfold Node.isClassLike at h
  unfold Node.isFunctionLike
  cases hkind : n.kind <;> simp_all [Kind.isClass, Kind.isFunction]

theorem kind_ne_callExpression {n : Node} (h : n.isClassLike = true ∨ n.isFunctionLike = true) :
    n.kind ≠ .callExpression := by
  intro hkind
  rcases h with h | h
  · simp [Node.isClassLike, hkind, Kind.isClass] at h
  · simp [Node.isFunctionLike, hkind, Kind.isFunction] at h

/-- What a place adds: a declaration or a skip if it is a function, by whether it is tracked, a
call if it is a call by name, and else nothing. -/
theorem entryAt?_cases (h : entryAt? config path f = .ok own) :
    (∃ d, own = some (.declaration d) ∧ f.node.isFunctionLike = true ∧ tracks config f = true ∧
      identity? config path f = some d.id ∧ isNamedCall f = false) ∨
    (own = some .skip ∧ f.node.isFunctionLike = true ∧ tracks config f = false ∧
      identity? config path f = none ∧ isNamedCall f = false) ∨
    (∃ c, own = some (.call c) ∧ f.node.isFunctionLike = false ∧ isNamedCall f = true) ∨
    (own = none ∧ f.node.isFunctionLike = false ∧ isNamedCall f = false) := by
  rcases nodeEntry_eq_ok.mp h with ⟨hclass, -, rfl⟩ | ⟨-, hfun, entry, hentry, rfl⟩ |
    ⟨-, hfun, hkind, hcall⟩ | ⟨-, hfun, hkind, rfl⟩
  · have hkind := kind_ne_callExpression (Or.inl hclass)
    exact Or.inr (Or.inr (Or.inr ⟨rfl, isFunctionLike_of_isClassLike hclass, by
      simp [isNamedCall, hkind]⟩))
  · have hnot : isNamedCall f = false := by
      simp [isNamedCall, kind_ne_callExpression (Or.inr hfun)]
    obtain ⟨shape, hshape, hcase⟩ := functionEntry_cases hentry
    have htracks : tracks config f = (config.classify shape).tracked := by
      rw [tracks, hfun, hshape, Bool.true_and]
    rcases hcase with ⟨htracked, points, -, -, rfl⟩ | ⟨htracked, rfl⟩
    · rw [htracked] at htracks
      refine Or.inl ⟨_, rfl, hfun, htracks, ?_, hnot⟩
      rw [identity?, hshape]
      simp only [htracks]
      rfl
    · rw [htracked] at htracks
      exact Or.inr (Or.inl ⟨rfl, hfun, htracks, by rw [identity?, hshape]; simp [htracks], hnot⟩)
  · rcases callEntry_cases hcall with ⟨hcallee, rfl⟩ | ⟨callee, hcallee, rfl⟩
    · exact Or.inr (Or.inr (Or.inr ⟨rfl, hfun, by simp [isNamedCall, hcallee]⟩))
    · exact Or.inr (Or.inr (Or.inl ⟨_, rfl, hfun, by simp [isNamedCall, hkind, hcallee]⟩))
  · exact Or.inr (Or.inr (Or.inr ⟨rfl, hfun, by simp [isNamedCall, hkind]⟩))

theorem tracks_of_not_isFunctionLike (h : f.node.isFunctionLike = false) :
    tracks config f = false := by
  rw [tracks, h, Bool.false_and]

theorem identity?_of_not_tracks (h : tracks config f = false) : identity? config path f = none := by
  unfold identity?
  split <;> simp [h]

theorem tracks_eq (h : entryAt? config path f = .ok own) :
    tracks config f = own.any Entry.isDeclaration := by
  rcases entryAt?_cases h with ⟨d, rfl, -, htracks, -⟩ | ⟨rfl, -, htracks, -⟩ |
    ⟨c, rfl, hfun, -⟩ | ⟨rfl, hfun, -⟩
  · exact htracks
  · exact htracks
  · exact tracks_of_not_isFunctionLike hfun
  · exact tracks_of_not_isFunctionLike hfun

theorem skips_eq (h : entryAt? config path f = .ok own) :
    own.any Entry.isSkip = (f.node.isFunctionLike && !tracks config f) := by
  rcases entryAt?_cases h with ⟨d, rfl, hfun, htracks, -⟩ | ⟨rfl, hfun, htracks, -⟩ |
    ⟨c, rfl, hfun, -⟩ | ⟨rfl, hfun, -⟩
  · rw [hfun, htracks]
    rfl
  · rw [hfun, htracks]
    rfl
  · rw [hfun]
    rfl
  · rw [hfun]
    rfl

theorem calls_eq (h : entryAt? config path f = .ok own) :
    own.any Entry.isCall = isNamedCall f := by
  rcases entryAt?_cases h with ⟨d, rfl, -, -, -, hcall⟩ | ⟨rfl, -, -, -, hcall⟩ |
    ⟨c, rfl, -, hcall⟩ | ⟨rfl, -, hcall⟩
  all_goals
    rw [hcall]
    rfl

theorem identity?_eq (h : entryAt? config path f = .ok own) :
    identity? config path f = (own.bind Entry.declaration?).map Declaration.id := by
  rcases entryAt?_cases h with ⟨d, rfl, -, -, hid, -⟩ | ⟨rfl, -, -, hid, -⟩ |
    ⟨c, rfl, hfun, -⟩ | ⟨rfl, hfun, -⟩
  · exact hid
  · exact hid
  · exact identity?_of_not_tracks (tracks_of_not_isFunctionLike hfun)
  · exact identity?_of_not_tracks (tracks_of_not_isFunctionLike hfun)

theorem isSome_identity? (config : Config) (path : Text) (f : Focus) :
    (identity? config path f).isSome = tracks config f := by
  unfold identity?
  split
  · cases tracks config f <;> rfl
  · rename_i e hshape
    rw [tracks, hshape]
    simp

section

variable {files : List (Text × Node)} (h : ∀ file ∈ files, IsSound config file)

include h

/-- Entries may be counted at the places that they come from. -/
theorem countP_entries {p : Entry → Bool} {q : Focus → Bool}
    (hpq : ∀ path f own, entryAt? config path f = .ok own → own.any p = q f) :
    (files.flatMap (fileEntries config)).countP p = (places files).countP q := by
  induction files with
  | nil => rfl
  | cons file files ih =>
    obtain ⟨hfile, hfiles⟩ := List.forall_mem_cons.mp h
    have hcount : (fileEntries config file).countP p =
        (Focus.preorder [.root file.2]).countP q := by
      unfold fileEntries
      rw [List.countP_filterMap]
      apply List.countP_congr
      intro f hf
      obtain ⟨own, hown⟩ := hfile f hf
      rw [entryOr?_of_ok hown, ← hpq _ _ _ hown]
      cases own with
      | none => rfl
      | some entry => rfl
    have hrest : (places (file :: files)).countP q =
        (Focus.preorder [.root file.2]).countP q + (places files).countP q := List.countP_append
    rw [List.flatMap_cons, List.countP_append, hcount, ih hfiles, hrest]

theorem map_id_declarations :
    (files.flatMap (fileDeclarations config)).map Declaration.id = identities config files := by
  rw [List.map_flatMap]
  apply List.flatMap_congr
  intro file hfile
  unfold fileDeclarations fileEntries
  rw [List.filterMap_filterMap, List.map_filterMap]
  apply List.filterMap_congr
  intro f hf
  obtain ⟨own, hown⟩ := h file hfile f hf
  rw [entryOr?_of_ok hown, identity?_eq hown]

end

theorem length_identities (config : Config) (files : List (Text × Node)) :
    (identities config files).length = (places files).countP (tracks config) := by
  induction files with
  | nil => rfl
  | cons file files ih =>
    have hfile : ((Focus.preorder [.root file.2]).filterMap (identity? config file.1)).length =
        (Focus.preorder [.root file.2]).countP (tracks config) := by
      rw [List.length_filterMap_eq_countP]
      simp only [isSome_identity?]
    have hrest : (places (file :: files)).countP (tracks config) =
        (Focus.preorder [.root file.2]).countP (tracks config) +
          (places files).countP (tracks config) := List.countP_append
    have hcons : (identities config (file :: files)).length =
        ((Focus.preorder [.root file.2]).filterMap (identity? config file.1)).length +
          (identities config files).length := List.length_append
    rw [hcons, hfile, ih, hrest]

theorem countP_tracks_add (config : Config) (fs : List Focus) :
    fs.countP (fun f => f.node.isFunctionLike && !tracks config f) + fs.countP (tracks config) =
      fs.countP (·.node.isFunctionLike) := by
  induction fs with
  | nil => rfl
  | cons f fs ih =>
    have hle : tracks config f = true → f.node.isFunctionLike = true := fun h =>
      (Bool.and_eq_true_iff.mp h).1
    simp only [List.countP_cons]
    cases htracks : tracks config f with
    | true =>
      rw [hle htracks]
      simp
      omega
    | false =>
      cases f.node.isFunctionLike
      · simp
        omega
      · simp
        omega

/-- What a graph has more of once some entries are added. -/
def gain (g : CallGraph) (es : List Entry) : Stats where
  declarations := (g.addAll es).declarations.length - g.declarations.length
  skipped := (g.addAll es).skipped - g.skipped
  calls := es.countP Entry.isCall

theorem addTree_stats {tree : Node} (h : IsSound config (path, tree)) (g : CallGraph) :
    (addTree config path tree g).2 = .ok (gain g (fileEntries config (path, tree))) := by
  have hok := (follow_ok_iff config path (Focus.preorder [.root tree])).mpr h
  rw [addTree_eq, addTreeRecursively, descend_root, follow_entries hok, hok]
  rfl

/-- What the files report adds up to what the graph has gained. -/
theorem addTrees_stats {files : List (Text × Node)} (h : ∀ file ∈ files, IsSound config file)
    (g : CallGraph) :
    ∃ stats : List Stats, (addTrees config g files).2 = stats.map .ok ∧
      g.declarations.length + (stats.map Stats.declarations).sum =
        (addTrees config g files).1.declarations.length ∧
      g.skipped + (stats.map Stats.skipped).sum = (addTrees config g files).1.skipped ∧
      (stats.map Stats.calls).sum =
        (files.flatMap (fileEntries config)).countP Entry.isCall := by
  induction files generalizing g with
  | nil => exact ⟨[], rfl, rfl, rfl, rfl⟩
  | cons file files ih =>
    obtain ⟨path, tree⟩ := file
    obtain ⟨hfile, hfiles⟩ := List.forall_mem_cons.mp h
    obtain ⟨stats, hall, hdecl, hskipped, hcalls⟩ := ih hfiles (addTree config path tree g).1
    have hgraph := addTree_graph hfile g
    have hgrown : g.declarations.length ≤
        (g.addAll (fileEntries config (path, tree))).declarations.length := by
      rw [CallGraph.declarations_addAll]
      exact Ordered.length_le_length_putAll ..
    have hmore := CallGraph.skipped_addAll g (fileEntries config (path, tree))
    rw [hgraph] at hall hdecl hskipped
    refine ⟨gain g (fileEntries config (path, tree)) :: stats, ?_, ?_, ?_, ?_⟩
    · rw [List.map_cons, ← addTree_stats hfile g, ← hall, ← hgraph]
      rfl
    · simp only [List.map_cons, List.sum_cons, addTrees, hgraph, gain]
      omega
    · simp only [List.map_cons, List.sum_cons, addTrees, hgraph, gain]
      omega
    · rw [List.map_cons, List.sum_cons, hcalls, List.flatMap_cons, List.countP_append]
      rfl

/-- Every function that is reached is tracked or skipped, and every call by name is recorded.
Tracked functions are told apart by file, name and line, so the graph holds fewer of them than there
are exactly if two share these. The files report the same numbers one by one. -/
theorem every_node_counted_once (config : Config) (files : List (Text × Node))
    (hbuilds : builds config files) :
    ∃ (s : Snapshot) (stats : List Stats), (build config files).freeze = .ok s ∧
      (addTrees config .empty files).2 = stats.map .ok ∧
      s.skipped + (places files).countP (tracks config) =
        (places files).countP (·.node.isFunctionLike) ∧
      (identities config files).length = (places files).countP (tracks config) ∧
      s.trackable = (identities config files).toFinset.card ∧
      s.trackable + s.skipped ≤ (places files).countP (·.node.isFunctionLike) ∧
      (s.trackable + s.skipped = (places files).countP (·.node.isFunctionLike) ↔
        (identities config files).Nodup) ∧
      (s.calls.map fun group => group.2.length).sum = (places files).countP isNamedCall ∧
      (stats.map Stats.declarations).sum = s.trackable ∧
      (stats.map Stats.skipped).sum = s.skipped ∧
      (stats.map Stats.calls).sum = (places files).countP isNamedCall := by
  have hsound := builds_iff.mp hbuilds
  obtain ⟨stats, hall, hdecl, hskip, hcalls⟩ := addTrees_stats hsound .empty
  have htrackable : (build config files).declarations.length =
      (identities config files).toFinset.card := by
    rw [declarations_build hbuilds, Ordered.length_ofList, map_id_declarations hsound]
  have hskipped : (build config files).skipped + (places files).countP (tracks config) =
      (places files).countP (·.node.isFunctionLike) := by
    rw [skipped_build hbuilds, countP_entries hsound fun _ _ _ => skips_eq, countP_tracks_add]
  have hnamed : (files.flatMap (fileEntries config)).countP Entry.isCall =
      (places files).countP isNamedCall := countP_entries hsound fun _ _ _ => calls_eq
  have hrecorded : ((build config files).calls.map fun group => group.2.length).sum =
      (places files).countP isNamedCall := by
    have hlength := (recorded_build hbuilds).length_eq
    rw [← Entry.countP_isCall, hnamed, CallGraph.recorded, List.length_flatMap] at hlength
    exact hlength
  have hlength := length_identities config files
  have hcard := (identities config files).toFinset_card_le
  refine ⟨_, stats, CallGraph.freeze_ok (build_counted hbuilds), hall, hskipped, hlength,
    htrackable, ?_, ?_, hrecorded, ?_, ?_, hcalls.trans hnamed⟩
  · change (build config files).declarations.length + (build config files).skipped ≤ _
    omega
  · rw [← Multiset.coe_nodup, ← Multiset.toFinset_card_eq_card_iff_nodup]
    change (build config files).declarations.length + (build config files).skipped = _ ↔
      (identities config files).toFinset.card = (identities config files).length
    omega
  · exact (Nat.zero_add _).symm.trans hdecl
  · exact (Nat.zero_add _).symm.trans hskip

/-- One script given twice: it declares `draw`, passes a nameless function to it, and calls
something that has no name. -/
def drawnTwice : List (Text × Node) :=
  let word (role : Role) (text : String) : Node :=
    { Node.plain .identifier 0 [] with role := some role, text := some text }
  let script : Node := .plain (.other "program") 0 [
    .plain .functionDeclaration 0 [word .name "draw"],
    .plain .callExpression 1 [word .callee "draw", .plain .arrowFunction 1 []],
    .plain .callExpression 2 [.plain .callExpression 2 [word .callee "draw"]]]
  [(Text.ofString "a.js", script), (Text.ofString "a.js", script)]

theorem every_node_of_drawnTwice_counted :
    builds .default drawnTwice ∧ (places drawnTwice).countP (·.node.isFunctionLike) = 4 ∧
    ∃ (s : Snapshot) (stats : List Stats), (build .default drawnTwice).freeze = .ok s ∧
      (addTrees .default .empty drawnTwice).2 = stats.map .ok ∧ s.trackable = 1 ∧ s.skipped = 2 ∧
      (stats.map Stats.declarations).sum = 1 ∧ (stats.map Stats.calls).sum = 4 := by
  have hbuilds : builds .default drawnTwice := by decide +kernel
  have hfunctions : (places drawnTwice).countP (·.node.isFunctionLike) = 4 := by decide +kernel
  have htracked : (places drawnTwice).countP (tracks .default) = 2 := by decide +kernel
  have hcard : (identities .default drawnTwice).toFinset.card = 1 := by decide +kernel
  have hcalls : (places drawnTwice).countP isNamedCall = 4 := by decide +kernel
  obtain ⟨s, stats, hfreeze, hall, hskipped, -, htrackable, -, -, -, hdecl, -, hnamed⟩ :=
    every_node_counted_once .default drawnTwice hbuilds
  refine ⟨hbuilds, hfunctions, s, stats, hfreeze, hall, htrackable.trans hcard, by omega, ?_,
    hnamed.trans hcalls⟩
  rw [hdecl, htrackable, hcard]

end Survey

end ScriptAudit
