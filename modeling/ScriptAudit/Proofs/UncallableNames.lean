import ScriptAudit.Proofs.AsyncAccounting
import ScriptAudit.Proofs.LegibleTrees
import ScriptAudit.Proofs.Tally

/-! Names that no call can have. Declarations and calls meet in a table of names only. Getters and
setters are declared under a name with a blank in it, and members with a computed key under one with
a bracket. A call names what it calls by a single word of the tree, which has neither. -/

namespace ScriptAudit

open Syntax

def IsPlainWord (word : String) : Prop := ' ' ∉ word.toList ∧ '[' ∉ word.toList

instance : DecidablePred IsPlainWord := fun _ => inferInstanceAs (Decidable (_ ∧ _))

theorem isPlainWord_append {s t : String} :
    IsPlainWord (s ++ t) ↔ IsPlainWord s ∧ IsPlainWord t := by
  simp only [IsPlainWord, String.toList_append, List.mem_append, not_or]
  tauto

/-- A key that gives a name with brackets. -/
def Key.isBracketed (key : Key) : Bool := key.kind = .computedMember

theorem Key.not_isPlainWord {key : Key} (h : key.isBracketed = true) {name : String}
    (hname : key.name? = some name) : ¬ IsPlainWord name := by
  have hkind : key.kind = .computedMember := by simpa [isBracketed] using h
  rw [name?, hkind] at hname
  cases hname
  rw [isPlainWord_append, isPlainWord_append]
  intro hplain
  exact absurd hplain.1.1 (by decide)

namespace Shape

/-- A getter, a setter, or a member with a computed key. -/
def isMarked : Shape → Bool
  | method key accessor => accessor = .getter || accessor = .setter || key.isBracketed
  | bound _ key => key.isBracketed
  | _ => false

theorem exists_name_of_tracked_method {key : Key} {accessor : Accessor}
    (hmember : accessor ≠ .constructor)
    (htracked : (Shape.method key accessor).verdict.tracked = true) :
    ∃ name, key.name? = some name ∧
      (Shape.method key accessor).verdict.name = accessor.mark ++ name := by
  cases accessor with
  | constructor => exact absurd rfl hmember
  | _ =>
    cases hname : key.name? with
    | none => simp [verdict, hname, Verdict.anonymousMethod] at htracked
    | some name =>
      simp only [verdict, hname]
      exact ⟨name, rfl, rfl⟩

theorem not_isPlainWord_name {shape : Shape} (hmarked : shape.isMarked = true)
    (hconstructor : ∀ key, shape = .method key .constructor → key.isBracketed = false)
    (htracked : shape.verdict.tracked = true) : ¬ IsPlainWord shape.verdict.name := by
  cases shape with
  | declared name => cases hmarked
  | inline => cases hmarked
  | bound binding key =>
    cases hname : key.name? with
    | none => simp [verdict, hname, Verdict.inlineFunction] at htracked
    | some name =>
      simp only [verdict, hname]
      exact Key.not_isPlainWord hmarked hname
  | method key accessor =>
    have hmember : accessor ≠ .constructor := by
      rintro rfl
      simp [isMarked, hconstructor key rfl] at hmarked
    obtain ⟨name, hname, hverdict⟩ := exists_name_of_tracked_method hmember htracked
    rw [hverdict, isPlainWord_append]
    rintro ⟨hmark, hplain⟩
    cases accessor with
    | constructor => exact hmember rfl
    | getter => exact absurd hmark (by decide)
    | setter => exact absurd hmark (by decide)
    | method => exact Key.not_isPlainWord (by simpa [isMarked] using hmarked) hname hplain

end Shape

namespace Syntax

namespace Node

def HasPlainWords (tree : Node) : Prop :=
  ∀ n ∈ tree.parts, n.kind = .identifier ∨ n.kind = .propertyIdentifier → IsPlainWord n.content

instance : DecidablePred HasPlainWords := fun tree =>
  inferInstanceAs (Decidable (∀ n ∈ tree.parts, _))

theorem accessor_ne_constructor (n : Node) : n.accessor ≠ .constructor := by
  have hfold (cs : List Node) (start : Accessor) (hstart : start ≠ .constructor) :
      cs.foldl (fun accessor c => if isKeyword .get c then .getter
        else if isKeyword .set c then .setter else accessor) start ≠ .constructor := by
    induction cs generalizing start with
    | nil => exact hstart
    | cons c cs ih =>
      refine ih _ ?_
      dsimp only
      split
      · decide
      · split
        · decide
        · exact hstart
  exact hfold _ .method (by decide)

end Node

namespace Focus

theorem boundShape_ne_method (f : Focus) (key : Key) (accessor : Accessor) :
    f.boundShape ≠ .ok (.method key accessor) := by
  have hbound (x : Except Error Key) (binding : Binding) :
      (do return Shape.bound binding (← x)) ≠ .ok (Shape.method key accessor) := by
    intro h
    obtain ⟨bound, -, h⟩ := bind_eq_ok.mp h
    cases h
  unfold boundShape
  repeat' split
  all_goals first
    | exact hbound _ _
    | exact fun h => by cases h

theorem key_of_constructor {f : Focus} {key : Key} (h : f.shape = .ok (.method key .constructor)) :
    key = ⟨.identifier, "constructor"⟩ := by
  unfold shape at h
  split at h
  · unfold methodShape at h
    split at h
    · cases h
    · obtain ⟨own, -, h⟩ := bind_eq_ok.mp h
      dsimp only at h
      split at h
      · rename_i hconstructor
        cases h
        simp only [Bool.and_eq_true, decide_eq_true_eq] at hconstructor
        exact hconstructor.1.2
      · have hshape := Except.ok.inj h
        exact absurd (Shape.method.inj hshape).2 f.node.accessor_ne_constructor
  · split at h
    · obtain ⟨-, -, h⟩ := bind_eq_ok.mp h
      cases h
    · split at h
      · cases h
      · exact absurd h (boundShape_ne_method f key .constructor)

theorem parts_subset_of_mem_preorder {tree : Node} :
    ∀ f ∈ preorder [root tree], f.node.parts ⊆ tree.parts := by
  apply forall_mem_preorder
  · intro f hf
    rw [List.mem_singleton.mp hf]
    exact List.Subset.refl _
  · intro f _ hf c hc
    have hnode := node_mem_children (mem_children_of_mem_namedChildren hc)
    exact List.Subset.trans (Node.parts_subset_parts_of_mem_children hnode) hf

end Focus

end Syntax

/-- Without calls, a declaration can be at odds with itself only. -/
theorem Declaration.citesSites_of_mem_flags_nil {d : Declaration} {issue : Issue}
    (h : issue ∈ d.flags []) : issue.kind.citesSites = false := by
  unfold flags at h
  simp only [List.filter_nil, if_true, List.append_nil] at h
  split at h
  · cases h
  · rw [List.mem_singleton.mp h]
    cases d.isAsync <;> rfl

namespace Survey

section

variable {config : Config} {files : List (Text × Node)} (hbuilds : builds config files)

include hbuilds

theorem callers_eq_nil_of_not_isPlainWord (hplain : ∀ file ∈ files, file.2.HasPlainWords)
    {name : String} (hname : ¬ IsPlainWord name) : (build config files).callers name = [] := by
  rw [callers_build hbuilds, List.filter_eq_nil_iff]
  intro c hc hcallee
  obtain ⟨entry, hentry, hc⟩ := List.mem_filterMap.mp hc
  obtain ⟨file, hfile, hentry⟩ := List.mem_flatMap.mp hentry
  obtain ⟨f, hf, hat⟩ := exists_entryAt?_of_mem_fileEntries hentry
  cases entry with
  | declaration d => cases hc
  | skip => cases hc
  | call c' =>
    obtain rfl : c' = c := Option.some.inj hc
    obtain ⟨callee, hfound, rfl⟩ := call_eq_of_nodeEntry hat
    obtain ⟨w, hw, hkind, rfl⟩ := Node.exists_word_of_callee? hfound
    have hword := hplain file hfile w (Focus.parts_subset_of_mem_preorder f hf hw) hkind
    exact hname (of_decide_eq_true hcallee ▸ hword)

theorem exists_declaration_of_tracks {file : Text × Node} (hfile : file ∈ files) {f : Focus}
    (hf : f ∈ Focus.preorder [.root file.2]) {shape : Shape} (hshape : f.shape = .ok shape)
    (htracks : tracks config f = true) :
    ∃ d ∈ (build config files).declarations,
      d.id = ⟨file.1, (config.classify shape).name, f.node.line⟩ := by
  have hid : identity? config file.1 f =
      some ⟨file.1, (config.classify shape).name, f.node.line⟩ := by
    simp only [identity?, hshape, htracks, if_true]
  have hmem : ⟨file.1, (config.classify shape).name, f.node.line⟩ ∈ identities config files :=
    List.mem_flatMap.mpr ⟨file, hfile, List.mem_filterMap.mpr ⟨f, hf, hid⟩⟩
  rw [← map_id_declarations (builds_iff.mp hbuilds)] at hmem
  rw [declarations_build hbuilds]
  exact List.mem_map.mp (Ordered.mem_keys_putAll.mpr (Or.inl hmem))

end

theorem not_isPlainWord_of_marked {config : Config} {f : Focus} {shape : Shape}
    (hshape : f.shape = .ok shape) (hmarked : shape.isMarked = true)
    (htracks : tracks config f = true) : ¬ IsPlainWord (config.classify shape).name := by
  have htracked : (config.classify shape).tracked = true := by
    rw [tracks, hshape] at htracks
    exact (Bool.and_eq_true_iff.mp htracks).2
  have hconstructor : ∀ key, shape = .method key .constructor → key.isBracketed = false := by
    rintro key rfl
    rw [Focus.key_of_constructor hshape]
    rfl
  have hverdict := Config.classify_eq_verdict htracked
  rw [hverdict] at htracked ⊢
  exact Shape.not_isPlainWord_name hmarked hconstructor htracked

/-- Where the words of all files are plain, a getter, a setter or a member with a computed key that
is tracked is declared under a name that nothing calls. It stands among the unused functions
whatever else there is, and no call is ever held against it. -/
theorem marked_functions_are_never_called (config : Config) (files : List (Text × Node))
    (hbuilds : builds config files) (hplain : ∀ file ∈ files, file.2.HasPlainWords) :
    ∃ (s : Snapshot) (u : Usage) (findings : List Finding),
      (build config files).freeze = .ok s ∧ s.usage = .ok u ∧ s.findings = .ok findings ∧
      ∀ file ∈ files, ∀ f ∈ Focus.preorder [.root file.2], ∀ shape, f.shape = .ok shape →
        shape.isMarked = true → tracks config f = true →
        (∃ d ∈ s.declarations, d.id = ⟨file.1, (config.classify shape).name, f.node.line⟩) ∧
        ∀ d ∈ s.declarations, d.name = (config.classify shape).name →
          s.callsOf d = .ok [] ∧ u.Rates d .unused ∧
          ∀ finding ∈ findings, finding.declaration = d → ∀ issue ∈ finding.issues,
            issue.kind ≠ .missingAwait ∧ issue.kind ≠ .unnecessaryAwait := by
  have hcounted := build_counted hbuilds
  refine ⟨_, _, _, CallGraph.freeze_ok hcounted, Snapshot.usage_ok hcounted,
    Snapshot.findings_ok hcounted, fun file hfile f hf shape hshape hmarked htracks => ?_⟩
  refine ⟨exists_declaration_of_tracks hbuilds hfile hf hshape htracks, fun d hd hname => ?_⟩
  have hcallers : (build config files).snapshot.callers d = [] := by
    have hword := not_isPlainWord_of_marked hshape hmarked htracks
    rw [← hname] at hword
    exact callers_eq_nil_of_not_isPlainWord hbuilds hplain hword
  have hcalls := Snapshot.callsOf_ok hcounted hd
  have hrates := Snapshot.rates_usageValue hd
  rw [hcallers] at hcalls hrates
  refine ⟨hcalls, hrates, ?_⟩
  rintro finding hfinding rfl issue hissue
  rw [Snapshot.issues_of_mem_findings _ hfinding, hcallers] at hissue
  have hcites := Declaration.citesSites_of_mem_flags_nil hissue
  constructor
  · intro hkind
    simp [hkind, Issue.Kind.citesSites] at hcites
  · intro hkind
    simp [hkind, Issue.Kind.citesSites] at hcites

/-- A class with a getter, a setter and a member with a computed key, in a file that calls the words
in these names, and another file that calls them as well. -/
def bag : List (Text × Node) :=
  let word (kind : Kind) (role : Role) (row : Int) (text : String) (children : List Node) : Node :=
    { Node.plain kind row children with role := some role, text := some text }
  let keyword (kind : Kind) (row : Int) : Node := { Node.plain kind row [] with named := false }
  let member (role : Option Role) (row : Int) (object property : String) : Node :=
    { Node.plain .memberExpression row [word .identifier .object row object [],
        word .propertyIdentifier .property row property []] with role := role }
  let call (row : Int) (object property : String) : Node :=
    .plain .callExpression row [member (some .callee) row object property]
  let key := word .computedPropertyName .name 3 "[Symbol.iterator]"
    [member none 3 "Symbol" "iterator"]
  let declared : Node := .plain .classExpression 0 [.plain .classBody 0 [
    .plain .methodDefinition 1 [keyword .get 1, word .propertyIdentifier .name 1 "size" []],
    .plain .methodDefinition 2 [keyword .set 2, word .propertyIdentifier .name 2 "size" []],
    .plain .methodDefinition 3 [keyword .async 3, key]]]
  let calls : List Node := [call 4 "bag" "size", call 5 "bag" "iterator"]
  [("a.js", .plain (.other "program") 0 (declared :: calls)),
    ("b.js", .plain (.other "program") 0 calls)]

theorem marked_functions_of_bag_are_never_called :
    builds .default bag ∧ (∀ file ∈ bag, file.2.HasPlainWords) ∧
    ∃ (s : Snapshot) (u : Usage), (build .default bag).freeze = .ok s ∧ s.usage = .ok u ∧
      ((build .default bag).callers "size").length = 2 ∧
      ∀ named ∈ [("get size", 2), ("set size", 3), ("[Symbol.iterator]", 4)],
        ∃ d ∈ s.declarations, d.id = ⟨"a.js", named.1, named.2⟩ ∧ s.callsOf d = .ok [] ∧
          u.Rates d .unused := by
  have hbuilds : builds .default bag := by decide +kernel
  have hplain : ∀ file ∈ bag, file.2.HasPlainWords := by decide +kernel
  have hplaces : ∀ named ∈ [("get size", 2), ("set size", 3), ("[Symbol.iterator]", 4)],
      ∃ file ∈ bag, ∃ f ∈ Focus.preorder [.root file.2],
        ∃ shape ∈ [Shape.method ⟨.identifier, "size"⟩ .getter,
          .method ⟨.identifier, "size"⟩ .setter,
          .method ⟨.computedMember, "Symbol.iterator"⟩ .method],
          f.shape = .ok shape ∧ shape.isMarked = true ∧ tracks .default f = true ∧
          file.1 = "a.js" ∧ (Config.default.classify shape).name = named.1 ∧
          f.node.line = named.2 := by
    decide +kernel
  obtain ⟨s, u, findings, hfreeze, husage, -, hnever⟩ :=
    marked_functions_are_never_called .default bag hbuilds hplain
  refine ⟨hbuilds, hplain, s, u, hfreeze, husage, by decide +kernel, fun named hnamed => ?_⟩
  obtain ⟨file, hfile, f, hf, shape, -, hshape, hmarked, htracks, hpath, hname, hline⟩ :=
    hplaces named hnamed
  obtain ⟨⟨d, hd, hid⟩, hall⟩ := hnever file hfile f hf shape hshape hmarked htracks
  obtain ⟨hcalls, hrates, -⟩ := hall d hd (congrArg Declaration.Id.name hid)
  rw [hpath, hname, hline] at hid
  exact ⟨d, hd, hid, hcalls, hrates⟩

end Survey

end ScriptAudit
