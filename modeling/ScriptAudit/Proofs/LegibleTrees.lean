import ScriptAudit.Proofs.GraphHistory
import ScriptAudit.Proofs.Lookalikes
import ScriptAudit.Proofs.SuspensionOwnership
import ScriptAudit.Proofs.WholeTree

/-! Trees that never break off a survey. Whatever the kinds of their nodes and whatever is missing
in them, it is enough that rows count from zero and that names, and the words that names are made
of, are not empty. Every check on the way from a node to its entry is then met. -/

namespace ScriptAudit

open Syntax

/-- Succeeds, with a value of the given property. -/
def Gives {α : Type} (P : α → Prop) (x : Except Error α) : Prop := ∃ a, x = .ok a ∧ P a

namespace Gives

variable {α β : Type} {P : α → Prop} {Q : β → Prop}

theorem ok {a : α} (h : P a) : Gives P (.ok a) := ⟨a, rfl, h⟩

theorem bind {x : Except Error α} {k : α → Except Error β} (hx : Gives P x)
    (hk : ∀ a, P a → Gives Q (k a)) : Gives Q (x >>= k) := by
  obtain ⟨a, ha, hP⟩ := hx
  obtain ⟨b, hb, hQ⟩ := hk a hP
  exact ⟨b, bind_eq_ok.mpr ⟨a, ha, hb⟩, hQ⟩

theorem require {condition : Bool} (h : condition = true) (why : Refusal) :
    Gives (fun _ => True) (require condition why) := by
  subst h
  exact ok trivial

end Gives

/-- The name that a key gives, if it gives any, is not empty. -/
def Key.IsSpelled (key : Key) : Prop := ∀ name, key.name? = some name → name ≠ ""

/-- A function of this shape has a name, if it is tracked. -/
def Shape.IsSpelled (shape : Shape) : Prop :=
  shape.verdict.tracked = true → shape.verdict.name ≠ ""

theorem append_ne_empty {s t : String} (h : s ≠ "" ∨ t ≠ "") : s ++ t ≠ "" := by
  intro he
  have hlength := congrArg String.length he
  rw [String.length_append] at hlength
  have hzero : s.length = 0 ∧ t.length = 0 := by
    simp only [String.length_empty] at hlength
    omega
  simp only [String.length_eq_zero_iff] at hzero
  rcases h with h | h
  · exact h hzero.1
  · exact h hzero.2

theorem Key.isSpelled_unresolved : Key.unresolved.IsSpelled := by
  intro name hname
  cases hname

theorem Key.make_gives {kind : Key.Kind} {text : String} (hkind : kind ≠ .unresolved)
    (htext : text ≠ "") : Gives Key.IsSpelled (Key.make kind text) := by
  refine ⟨⟨kind, text⟩, ?_, ?_⟩
  · cases kind with
    | unresolved => exact absurd rfl hkind
    | _ => simp [Key.make, require, htext, bind, Except.bind, pure, Except.pure]
  · intro name hname
    cases kind with
    | unresolved => exact absurd rfl hkind
    | identifier =>
      cases hname
      exact htext
    | string =>
      cases hname
      exact htext
    | computedMember =>
      cases hname
      exact append_ne_empty (Or.inr (by decide))

theorem Shape.isSpelled_method {key : Key} (hkey : key.IsSpelled) (accessor : Accessor) :
    (Shape.method key accessor).IsSpelled := by
  intro htracked
  cases accessor with
  | constructor =>
    simp only [verdict]
    decide
  | _ =>
    cases hname : key.name? with
    | none => simp [verdict, hname, Verdict.anonymousMethod] at htracked
    | some name =>
      simp only [verdict, hname]
      exact append_ne_empty (Or.inr (hkey name hname))

theorem Shape.isSpelled_bound {key : Key} (hkey : key.IsSpelled) (binding : Binding) :
    (Shape.bound binding key).IsSpelled := by
  intro htracked
  cases hname : key.name? with
  | none => simp [verdict, hname, Verdict.inlineFunction] at htracked
  | some name =>
    simp only [verdict, hname]
    exact hkey name hname

theorem Shape.isSpelled_inline : Shape.inline.IsSpelled := by
  intro htracked
  cases htracked

/-- Only functions that are not tracked get another verdict than their shape gives them. -/
theorem Config.classify_eq_verdict {config : Config} {shape : Shape}
    (htracked : (config.classify shape).tracked = true) :
    config.classify shape = shape.verdict := by
  unfold classify at htracked ⊢
  by_cases hframework :
      (shape.verdict.tracked && config.isFrameworkInvoked shape.verdict.name) = true
  · simp [hframework] at htracked
  · simp [hframework]

theorem Shape.IsSpelled.classify {shape : Shape} (h : shape.IsSpelled) {config : Config}
    (htracked : (config.classify shape).tracked = true) : (config.classify shape).name ≠ "" := by
  have hverdict := Config.classify_eq_verdict htracked
  rw [hverdict] at htracked ⊢
  exact h htracked

namespace Syntax

namespace Node

/-- A node with a row of its own, and with a text where one is asked for. -/
structure IsLegible (n : Node) : Prop where
  row : 0 ≤ n.row
  word : n.kind = .identifier ∨ n.kind = .propertyIdentifier → n.content ≠ ""
  name : ∀ c ∈ n.children, c.role = some .name → c.content ≠ ""

instance : DecidablePred IsLegible := fun n =>
  decidable_of_iff (0 ≤ n.row ∧
      (n.kind = .identifier ∨ n.kind = .propertyIdentifier → n.content ≠ "") ∧
      ∀ c ∈ n.children, c.role = some .name → c.content ≠ "")
    ⟨fun h => ⟨h.1, h.2.1, h.2.2⟩, fun h => ⟨h.row, h.word, h.name⟩⟩

theorem parts_subset_parts_of_mem_children {n c : Node} (hc : c ∈ n.children) :
    c.parts ⊆ n.parts := by
  intro m hm
  rw [parts_eq]
  exact List.mem_cons_of_mem _ (parts_subset_partsOf hc hm)

theorem exists_word_of_memberName? {n : Node} {name : String} (h : n.memberName? = some name) :
    ∃ w ∈ n.parts, (w.kind = .identifier ∨ w.kind = .propertyIdentifier) ∧ w.content = name := by
  have hmember := kind_of_memberName? h
  rw [memberName?_eq, if_pos hmember] at h
  obtain ⟨property, hproperty, h⟩ := Option.bind_eq_some_iff.mp h
  obtain ⟨hkind, hcontent⟩ := Option.ite_none_right_eq_some.mp h
  have hchild : property ∈ n.children := List.mem_of_find?_eq_some hproperty
  exact ⟨property, parts_subset_parts_of_mem_children hchild property.mem_parts_self, Or.inr hkind,
    Option.some.inj hcontent⟩

/-- Whatever is called by name, the name stands in the call as a word of its own. -/
theorem exists_word_of_callee? {n : Node} {callee : String} (h : n.callee? = some callee) :
    ∃ w ∈ n.parts, (w.kind = .identifier ∨ w.kind = .propertyIdentifier) ∧ w.content = callee := by
  rw [callee?_eq] at h
  obtain ⟨function, hfunction, h⟩ := Option.bind_eq_some_iff.mp h
  obtain ⟨-, h⟩ := Option.ite_none_left_eq_some.mp h
  have hparts := parts_subset_parts_of_mem_children (List.mem_of_find?_eq_some hfunction)
  by_cases hkind : function.kind = .identifier
  · rw [if_pos hkind] at h
    exact ⟨function, hparts function.mem_parts_self, Or.inl hkind, Option.some.inj h⟩
  · rw [if_neg hkind] at h
    obtain ⟨w, hw, hword⟩ := exists_word_of_memberName? h
    exact ⟨w, hparts hw, hword⟩

def IsLegibleThroughout (tree : Node) : Prop := ∀ n ∈ tree.parts, n.IsLegible

namespace IsLegibleThroughout

variable {n c : Node} (h : n.IsLegibleThroughout)

include h

theorem here : n.IsLegible := h n n.mem_parts_self

theorem child (hc : c ∈ n.children) : c.IsLegibleThroughout := by
  intro m hm
  exact h m (parts_subset_parts_of_mem_children hc hm)

theorem child? {role : Role} (hc : n.child? role = some c) : c.IsLegibleThroughout :=
  h.child (List.mem_of_find?_eq_some hc)

/-- The key of a field, under whichever of its two roles it stands. -/
theorem fieldKey? (hc : (n.child? .property).or (n.child? .name) = some c) :
    c.IsLegibleThroughout := by
  rcases Option.or_eq_some_iff.mp hc with hc | ⟨-, hc⟩
  · exact h.child? hc
  · exact h.child? hc

theorem line_pos : 1 ≤ n.line := by
  have hrow := h.here.row
  unfold line
  omega

theorem name_ne_empty (hc : n.child? .name = some c) : c.content ≠ "" := by
  have hrole : c.role = some .name := by simpa using List.find?_some hc
  exact h.here.name c (List.mem_of_find?_eq_some hc) hrole

theorem className_ne_empty : n.className ≠ "" := by
  unfold className
  cases hc : n.child? .name with
  | none => simp
  | some c => exact h.name_ne_empty hc

theorem memberName?_ne_empty {name : String} (hname : n.memberName? = some name) : name ≠ "" := by
  obtain ⟨w, hw, hkind, rfl⟩ := exists_word_of_memberName? hname
  exact (h w hw).word hkind

theorem callee?_ne_empty {callee : String} (hcallee : n.callee? = some callee) : callee ≠ "" := by
  obtain ⟨w, hw, hkind, rfl⟩ := exists_word_of_callee? hcallee
  exact (h w hw).word hkind

omit h in
/-- The path of a member expression has a dot in it, whatever its words are. -/
theorem dotted?_ne_empty (hmember : n.kind = .memberExpression) {path : String}
    (hpath : n.dotted? = some path) : path ≠ "" := by
  rw [dotted?_of_member hmember] at hpath
  obtain ⟨object, -, hpath⟩ := Option.bind_eq_some_iff.mp hpath
  obtain ⟨property, -, hpath⟩ := Option.bind_eq_some_iff.mp hpath
  obtain ⟨-, hpath⟩ := Option.ite_none_right_eq_some.mp hpath
  obtain ⟨head, -, rfl⟩ := Option.map_eq_some_iff.mp hpath
  exact append_ne_empty (Or.inl (append_ne_empty (Or.inr (by decide))))

theorem key_gives : Gives Key.IsSpelled n.key := by
  by_cases hcomputed : n.kind = .computedPropertyName
  · rw [key_of_computed hcomputed]
    cases hpath : n.computed?.bind dotted? with
    | none => exact .ok Key.isSpelled_unresolved
    | some path =>
      obtain ⟨inner, hinner, hpath⟩ := Option.bind_eq_some_iff.mp hpath
      have hmember : inner.kind = .memberExpression := by
        simpa using (Option.filter_eq_some_iff.mp hinner).2
      exact Key.make_gives (by decide) (dotted?_ne_empty hmember hpath)
  · unfold key
    split
    · rename_i hkind
      exact Key.make_gives (by decide) (h.here.word (Or.inr hkind))
    · rename_i hkind
      exact Key.make_gives (by decide) (h.here.word (Or.inl hkind))
    · by_cases hfragments : n.fragments ≠ ""
      · rw [if_pos hfragments]
        exact Key.make_gives (by decide) hfragments
      · rw [if_neg hfragments]
        exact .ok Key.isSpelled_unresolved
    · rename_i hkind
      exact absurd hkind hcomputed
    · exact .ok Key.isSpelled_unresolved

end IsLegibleThroughout

end Node

namespace Focus

/-- Legible, with all that stands below this place and above it. -/
def IsLegible (f : Focus) : Prop := ∀ g ∈ f.lineage, g.node.IsLegibleThroughout

theorem exists_ancestor_of_syntacticParent? {f : Focus} {parent : Node}
    (h : f.syntacticParent? = some parent) : ∃ g ∈ f.ancestors, g.node = parent := by
  obtain ⟨n, frames⟩ := f
  induction frames generalizing n with
  | nil => cases h
  | cons frame frames ih =>
    rw [syntacticParent?_cons] at h
    by_cases hkind : frame.parent.kind = .parenthesized
    · rw [if_pos hkind] at h
      obtain ⟨g, hg, hparent⟩ := ih frame.parent h
      exact ⟨g, List.mem_cons_of_mem _ hg, hparent⟩
    · rw [if_neg hkind] at h
      exact ⟨⟨frame.parent, frames⟩, List.mem_cons_self, Option.some.inj h⟩

theorem isLegible_root {tree : Node} (h : tree.IsLegibleThroughout) : (root tree).IsLegible := by
  intro g hg
  rw [List.mem_singleton.mp hg]
  exact h

namespace IsLegible

variable {f : Focus} (h : f.IsLegible)

include h

theorem node : f.node.IsLegibleThroughout := h f List.mem_cons_self

theorem parent {parent : Node} (hparent : f.syntacticParent? = some parent) :
    parent.IsLegibleThroughout := by
  obtain ⟨g, hg, rfl⟩ := exists_ancestor_of_syntacticParent? hparent
  exact h g (List.mem_cons_of_mem _ hg)

theorem child {c : Focus} (hc : c ∈ f.children) : c.IsLegible := by
  intro g hg
  rw [lineage, ancestors_of_mem_children hc] at hg
  rcases List.mem_cons.mp hg with rfl | hg
  · exact h.node.child (node_mem_children hc)
  · exact h g hg

theorem scope : ∀ n ∈ f.scope, n.IsLegible := by
  unfold Focus.scope
  cases hbody : f.body? with
  | none => simp
  | some body =>
    apply forall_mem_shallow
    · intro g hg
      rw [List.mem_singleton.mp hg]
      exact h.child (body?_mem_children hbody)
    · intro g hg _ c hc
      exact hg.child (mem_children_of_mem_namedChildren hc)

theorem owner?_ne : f.owner? ≠ some "" := by
  intro howner
  obtain ⟨g, hg, hname⟩ := Option.map_eq_some_iff.mp howner
  have hlegible := h g (List.mem_cons_of_mem _ (List.mem_of_find?_eq_some hg))
  exact hlegible.className_ne_empty hname

theorem methodShape_gives : Gives Shape.IsSpelled f.methodShape := by
  unfold methodShape
  cases hname : f.node.child? .name with
  | none => exact .ok (Shape.isSpelled_method Key.isSpelled_unresolved .method)
  | some name =>
    refine (h.node.child? hname).key_gives.bind fun key hkey => ?_
    dsimp only
    split
    · exact .ok (Shape.isSpelled_method hkey .constructor)
    · exact .ok (Shape.isSpelled_method hkey f.node.accessor)

omit h in
theorem bound_gives {x : Except Error Key} (hx : Gives Key.IsSpelled x) (binding : Binding) :
    Gives Shape.IsSpelled (x >>= fun key => return .bound binding key) :=
  hx.bind fun _ hkey => .ok (Shape.isSpelled_bound hkey binding)

omit h in
theorem property_gives (key? : Option Node) (isValue : Bool) :
    (∀ key, key? = some key → key.IsLegibleThroughout) →
    Gives Shape.IsSpelled (match key? with
      | some key => if isValue then return .bound .property (← key.key) else return .inline
      | none => return .inline) := by
  intro hkey
  cases key? with
  | none => exact .ok Shape.isSpelled_inline
  | some key =>
    cases isValue with
    | true => exact bound_gives (hkey key rfl).key_gives .property
    | false => exact .ok Shape.isSpelled_inline

/-- Where the target of a binding has no name that can be known, the function counts as inline. -/
theorem boundShape_gives : Gives Shape.IsSpelled f.boundShape := by
  have hinline : Gives Shape.IsSpelled (.ok .inline) := .ok Shape.isSpelled_inline
  unfold boundShape
  cases hparent : f.syntacticParent? with
  | none => exact hinline
  | some parent =>
    have hlegible := h.parent hparent
    dsimp only
    split
    · cases htarget : parent.child? .name with
      | none => exact hinline
      | some target =>
        dsimp only
        split
        · exact bound_gives (Key.make_gives (by decide) (hlegible.name_ne_empty htarget)) .variable
        · exact hinline
    · exact property_gives (parent.child? .key) (f.isInRole .value) fun _ => hlegible.child?
    · exact property_gives _ (f.isInRole .value) fun _ => hlegible.fieldKey?
    · exact property_gives _ (f.isInRole .value) fun _ => hlegible.fieldKey?
    · cases hleft : parent.child? .left with
      | none => exact hinline
      | some left =>
        dsimp only
        split
        · cases hname : left.memberName? with
          | none => exact hinline
          | some name =>
            have htext := (hlegible.child? hleft).memberName?_ne_empty hname
            exact bound_gives (Key.make_gives (by decide) htext) .memberAssignment
        · exact hinline
    · exact hinline

theorem shape_gives : Gives Shape.IsSpelled f.shape := by
  unfold shape
  split
  · exact h.methodShape_gives
  · cases hname : f.node.child? .name with
    | none =>
      dsimp only
      split
      · exact .ok Shape.isSpelled_inline
      · exact h.boundShape_gives
    | some name =>
      have htext := h.node.name_ne_empty hname
      refine (Gives.require (by simpa using htext) _).bind fun _ _ => ?_
      exact .ok fun _ => htext

end IsLegible

end Focus

end Syntax

theorem Declaration.check_ok {d : Declaration} (hname : d.name ≠ "") (hfile : d.file ≠ [])
    (hline : 1 ≤ d.line) (howner : d.owner ≠ some "") : d.check = .ok d := by
  simp [check, require, hname, hfile, hline, howner, bind, Except.bind, pure, Except.pure]

theorem Call.check_ok {c : Call} (hcallee : c.callee ≠ "") (hline : 1 ≤ c.line) :
    c.check = .ok c := by
  simp [check, require, hcallee, hline, bind, Except.bind, pure, Except.pure]

namespace Survey

section

variable {f : Focus} (h : f.IsLegible)

include h

theorem functionEntry_of_legible (config : Config) {path : Text} (hpath : path ≠ [])
    {owner : Option String} (howner : owner ≠ some "") :
    ∃ entry, functionEntry config path owner f = .ok entry := by
  obtain ⟨shape, hshape, hspelled⟩ := h.shape_gives
  by_cases htracked : (config.classify shape).tracked = true
  · have hrows : ∀ n ∈ f.scope, 0 ≤ n.node.row := fun n hn => (h.scope n hn).node.here.row
    have hpoints := Focus.suspensions_ok hrows
    let d : Declaration := ⟨(config.classify shape).name, path, f.node.line, f.node.isAsync, owner,
      f.contributors.filterMap Focus.point?⟩
    have hchecked : d.check = .ok d :=
      Declaration.check_ok (hspelled.classify htracked) hpath h.node.line_pos howner
    refine ⟨.declaration d, bind_eq_ok.mpr ⟨shape, hshape, ?_⟩⟩
    rw [if_pos htracked]
    exact bind_eq_ok.mpr ⟨_, hpoints, bind_eq_ok.mpr ⟨d, hchecked, rfl⟩⟩
  · refine ⟨.skip, bind_eq_ok.mpr ⟨shape, hshape, ?_⟩⟩
    rw [if_neg htracked]
    rfl

theorem callEntry_of_legible (path : Text) : ∃ entry, callEntry path f = .ok entry := by
  unfold callEntry
  cases hcallee : f.node.callee? with
  | none => exact ⟨_, rfl⟩
  | some callee =>
    have hchecked := Call.check_ok (c := ⟨callee, path, f.node.line, f.isAwaited⟩)
      (h.node.callee?_ne_empty hcallee) h.node.line_pos
    exact ⟨_, bind_eq_ok.mpr ⟨_, hchecked, rfl⟩⟩

theorem entryAt?_of_legible (config : Config) {path : Text} (hpath : path ≠ []) :
    ∃ entry, entryAt? config path f = .ok entry := by
  unfold entryAt? nodeEntry
  split
  · rw [require, if_pos (by simpa using h.node.className_ne_empty)]
    exact ⟨_, rfl⟩
  · split
    · obtain ⟨entry, hentry⟩ := functionEntry_of_legible h config hpath h.owner?_ne
      rw [hentry]
      exact ⟨_, rfl⟩
    · split
      · exact callEntry_of_legible h path
      · exact ⟨_, rfl⟩

end

theorem isSound_of_legible (config : Config) {path : Text} (hpath : path ≠ []) {tree : Node}
    (h : tree.IsLegibleThroughout) : IsSound config (path, tree) := by
  have hplaces : ∀ f ∈ Focus.preorder [.root tree], f.IsLegible := by
    apply Focus.forall_mem_preorder
    · intro f hf
      rw [List.mem_singleton.mp hf]
      exact Focus.isLegible_root h
    · intro f _ hf c hc
      exact hf.child (Focus.mem_children_of_mem_namedChildren hc)
  intro f hf
  exact entryAt?_of_legible (hplaces f hf) config hpath

/-- A legible tree is surveyed to its end, whatever was in the graph before, and everything that is
found in it is added. -/
theorem addTree_of_legible_tree (config : Config) {path : Text} (hpath : path ≠ []) {tree : Node}
    (h : ∀ n ∈ tree.parts, n.IsLegible) (g : CallGraph) :
    ∃ stats, addTree config path tree g =
      (g.addAll (fileEntries config (path, tree)), .ok stats) := by
  have hsound := isSound_of_legible config hpath h
  have hok := (addTree_isOk_iff config path tree g).mpr hsound
  have hgraph := addTree_graph hsound g
  cases houtcome : (addTree config path tree g).2 with
  | ok stats => exact ⟨stats, Prod.ext hgraph houtcome⟩
  | error e => simp [houtcome, Except.isOk, Except.toBool] at hok

/-- A class without a name. A getter has nothing but an escape for a key, an async method has a
computed key and hands on a promise, and a field has a value but no key. -/
def oddClass : Node :=
  let word (kind : Kind) (role : Role) (row : Int) (text : String) (children : List Node) : Node :=
    { Node.plain kind row children with role := some role, text := some text }
  let keyword (kind : Kind) (row : Int) : Node := { Node.plain kind row [] with named := false }
  let member (role : Option Role) (row : Int) (object : Kind) (property : String) : Node :=
    { Node.plain .memberExpression row [{ Node.plain object row [] with role := some .object },
        word .propertyIdentifier .property row property []] with role := role }
  let key := word .computedPropertyName .name 2 "[this.step]" [member none 2 .this "step"]
  let handed : Node := .plain .callExpression 3 [member (some .callee) 3 .this "then"]
  let body : Node := { Node.plain (.other "statement_block") 2 [handed] with role := some .body }
  let field : Node :=
    .plain .fieldDefinition 4 [{ Node.plain .arrowFunction 4 [] with role := some .value }]
  .plain .classExpression 0 [.plain .classBody 0 [
    .plain .methodDefinition 1 [keyword .get 1,
      word .string .name 1 "'\\n'" [.plain (.other "escape_sequence") 1 []]],
    .plain .methodDefinition 2 [keyword .async 2, key, body], field]]

theorem oddClass_is_surveyed :
    (∀ n ∈ oddClass.parts, n.IsLegible) ∧
    ∃ stats, addTree .default "a.js" oddClass ⟨[], [("then", [])], 1⟩ =
      (CallGraph.addAll ⟨[], [("then", [])], 1⟩ (fileEntries .default ("a.js", oddClass)),
        .ok stats) := by
  have hlegible : ∀ n ∈ oddClass.parts, n.IsLegible := by decide +kernel
  exact ⟨hlegible, addTree_of_legible_tree .default (by decide) hlegible _⟩

end Survey

end ScriptAudit
