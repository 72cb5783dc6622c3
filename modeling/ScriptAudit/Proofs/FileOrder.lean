import Mathlib.Data.Multiset.Basic
import ScriptAudit.Proofs.AnalysisValues

/-! The order in which files are added. Declarations of different files never replace each other,
and everything counted depends on the calls of a name only as a multiset. -/

namespace ScriptAudit

open Syntax

/-- An issue up to the order of the calls at fault. -/
def Issue.content (issue : Issue) : Issue.Kind × Multiset Call := (issue.kind, issue.sites)

def Finding.content (finding : Finding) : Declaration × List (Issue.Kind × Multiset Call) :=
  (finding.declaration, finding.issues.map Issue.content)

def Usage.Entry.content (e : Usage.Entry) : Declaration × Multiset Call := (e.declaration, e.calls)

def weightOf (issues : List (Issue.Kind × Multiset Call)) : Nat :=
  issues.foldl (fun n issue => n + if issue.1.citesSites then issue.2.card else 1) 0

theorem Finding.weight_eq (finding : Finding) : finding.weight = weightOf finding.content.2 := by
  simp only [weight, weightOf, content, List.foldl_map]
  rfl

/-- Two analyses that differ in nothing but the order of declarations and of calls. -/
structure Analysis.Agrees (a b : Analysis) : Prop where
  summary : a.summary = b.summary
  recommendations : a.recommendations = b.recommendations
  declarations : a.graph.declarations.Perm b.graph.declarations
  verdicts : ∀ d ∈ a.graph.declarations, ∃ calls calls' issues issues',
    a.graph.callsOf d = .ok calls ∧ b.graph.callsOf d = .ok calls' ∧ calls.Perm calls' ∧
    d.issues calls = .ok issues ∧ d.issues calls' = .ok issues' ∧
    issues.map Issue.content = issues'.map Issue.content
  usage : ∀ tier, ((a.usage.ofTier tier).map Usage.Entry.content).Perm
    ((b.usage.ofTier tier).map Usage.Entry.content)
  findings : (a.findings.map Finding.content).Perm (b.findings.map Finding.content)

theorem Declaration.flags_content (d : Declaration) {calls calls' : List Call}
    (h : calls.Perm calls') :
    (d.flags calls).map Issue.content = (d.flags calls').map Issue.content := by
  have hmisfits := h.filter fun c => c.awaited ≠ d.isAsync
  unfold flags
  simp only [List.map_append]
  congr 1
  by_cases hnil : (calls.filter fun c => c.awaited ≠ d.isAsync) = []
  · have hnil' : (calls'.filter fun c => c.awaited ≠ d.isAsync) = [] := by
      rw [hnil] at hmisfits
      exact hmisfits.nil_eq.symm
    rw [if_pos hnil, if_pos hnil']
  · have hnil' : (calls'.filter fun c => c.awaited ≠ d.isAsync) ≠ [] := by
      intro he
      rw [he] at hmisfits
      exact hnil hmisfits.eq_nil
    rw [if_neg hnil, if_neg hnil']
    simpa [Issue.content] using hmisfits

namespace Snapshot

theorem finding?_content {s s' : Snapshot} {d : Declaration}
    (h : (s.callers d).Perm (s'.callers d)) :
    (s.finding? d).map Finding.content = (s'.finding? d).map Finding.content := by
  have hflags := d.flags_content h
  have hnil : d.flags (s.callers d) = [] ↔ d.flags (s'.callers d) = [] := by
    rw [← List.map_eq_nil_iff (f := Issue.content), hflags, List.map_eq_nil_iff]
  unfold finding?
  by_cases he : d.flags (s.callers d) = []
  · rw [if_pos he, if_pos (hnil.mp he)]
  · rw [if_neg he, if_neg fun h' => he (hnil.mpr h')]
    simp only [Option.map_some, Finding.content, hflags]

theorem findings_content {s s' : Snapshot} (hdecl : s.declarations.Perm s'.declarations)
    (hcalls : ∀ d ∈ s.declarations, (s.callers d).Perm (s'.callers d)) :
    ((s.declarations.filterMap s.finding?).map Finding.content).Perm
      ((s'.declarations.filterMap s'.finding?).map Finding.content) := by
  rw [List.map_filterMap, List.map_filterMap]
  have hcongr : s.declarations.filterMap (fun d => (s.finding? d).map Finding.content) =
      s.declarations.filterMap fun d => (s'.finding? d).map Finding.content :=
    List.filterMap_congr fun d hd => finding?_content (hcalls d hd)
  rw [hcongr]
  exact hdecl.filterMap _

theorem entriesOf_content {s s' : Snapshot} (hdecl : s.declarations.Perm s'.declarations)
    (hcalls : ∀ d ∈ s.declarations, (s.callers d).Perm (s'.callers d)) (tier : Tier) :
    ((s.entriesOf tier).map Usage.Entry.content).Perm
      ((s'.entriesOf tier).map Usage.Entry.content) := by
  unfold entriesOf
  rw [List.filter_map, List.map_map, List.filter_map, List.map_map]
  have hfilter : s.declarations.filter (fun d => (s.entry d).tier = tier) =
      s.declarations.filter fun d => (s'.entry d).tier = tier := by
    apply List.filter_congr
    intro d hd
    have htier : (s.entry d).tier = (s'.entry d).tier := by
      simp only [Usage.Entry.tier, entry, (hcalls d hd).length_eq]
    rw [htier]
  have hmap : (s.declarations.filter fun d => (s'.entry d).tier = tier).map
        (Usage.Entry.content ∘ s.entry) =
      (s.declarations.filter fun d => (s'.entry d).tier = tier).map
        (Usage.Entry.content ∘ s'.entry) := by
    apply List.map_congr_left
    intro d hd
    have h := hcalls d (List.mem_filter.mp hd).1
    simpa [Usage.Entry.content, entry] using h
  change ((s.declarations.filter fun d => (s.entry d).tier = tier).map _).Perm _
  rw [hfilter, hmap]
  exact (hdecl.filter _).map _

theorem totalWeight_eq_of_content {findings findings' : List Finding}
    (h : (findings.map Finding.content).Perm (findings'.map Finding.content)) :
    Finding.totalWeight findings = Finding.totalWeight findings' := by
  have htotal (found : List Finding) : Finding.totalWeight found =
      (found.map Finding.content).foldl (fun n content => n + weightOf content.2) 0 := by
    rw [List.foldl_map]
    simp only [Finding.totalWeight, Finding.weight_eq]
  rw [htotal, htotal]
  apply h.foldl_eq'
  intro x _ y _ n
  omega

theorem summaryValue_eq {s s' : Snapshot} (hdecl : s.declarations.Perm s'.declarations)
    (hcalls : ∀ d ∈ s.declarations, (s.callers d).Perm (s'.callers d))
    (hskipped : s.skipped = s'.skipped) : s.summaryValue = s'.summaryValue := by
  have htier : ∀ tier, (s.entriesOf tier).length = (s'.entriesOf tier).length := by
    intro tier
    simpa using (entriesOf_content hdecl hcalls tier).length_eq
  unfold summaryValue
  rw [hdecl.length_eq, hskipped, (hdecl.filter _).length_eq, htier, htier,
    totalWeight_eq_of_content (findings_content hdecl hcalls)]

theorem agrees {s s' : Snapshot} (hs : s.Counted) (hs' : s'.Counted)
    (hdecl : s.declarations.Perm s'.declarations)
    (hcalls : ∀ d ∈ s.declarations, (s.callers d).Perm (s'.callers d))
    (hskipped : s.skipped = s'.skipped) (threshold : Int) (root root' : Text)
    (files files' : List Text) (warnings warnings' : List Warning) :
    (s.analysisValue threshold root files warnings).Agrees
      (s'.analysisValue threshold root' files' warnings') where
  summary := summaryValue_eq hdecl hcalls hskipped
  recommendations := by
    simp only [analysisValue, summaryValue_eq hdecl hcalls hskipped]
  declarations := hdecl
  verdicts := by
    intro d hd
    have hd' := hdecl.mem_iff.mp hd
    exact ⟨_, _, _, _, callsOf_ok hs hd, callsOf_ok hs' hd', hcalls d hd, d.issues_ok _,
      d.issues_ok _, d.flags_content (hcalls d hd)⟩
  usage := by
    intro tier
    have h := entriesOf_content hdecl hcalls tier
    cases tier with
    | unused => exact h
    | singleUse => exact h
    | wellUsed =>
      exact ((Usage.busiestFirst_perm _).map _).trans
        (h.trans ((Usage.busiestFirst_perm _).map _).symm)
  findings := findings_content hdecl hcalls

end Snapshot

namespace Survey

theorem file_of_mem_fileDeclarations {config : Config} {file : Text × Node} {d : Declaration}
    (h : d ∈ fileDeclarations config file) : d.file = file.1 := by
  obtain ⟨entry, hentry, hd⟩ := List.mem_filterMap.mp h
  obtain ⟨f, -, hf⟩ := exists_entryAt?_of_mem_fileEntries hentry
  cases entry with
  | declaration d' =>
    obtain rfl : d' = d := Option.some.inj hd
    exact file_of_declaration hf
  | call c => cases hd
  | skip => cases hd

/-- Declarations collapse within a file only. -/
theorem ofList_flatMap_fileDeclarations (config : Config) {files : List (Text × Node)}
    (hdistinct : (files.map Prod.fst).Nodup) :
    Ordered.ofList Declaration.id (files.flatMap (fileDeclarations config)) =
      files.flatMap fun file => Ordered.ofList Declaration.id (fileDeclarations config file) := by
  induction files with
  | nil => rfl
  | cons file files ih =>
    obtain ⟨hfile, hfiles⟩ := List.nodup_cons.mp hdistinct
    rw [List.flatMap_cons, List.flatMap_cons, ← ih hfiles]
    apply Ordered.ofList_append
    -- the path is part of the key, and no later file has this one
    intro d hd d' hd' hid
    obtain ⟨file', hmem, hd'⟩ := List.mem_flatMap.mp hd'
    have hpath : file.1 = file'.1 := by
      have h := congrArg Declaration.Id.file hid
      change d.file = d'.file at h
      rwa [file_of_mem_fileDeclarations hd, file_of_mem_fileDeclarations hd'] at h
    exact hfile (hpath ▸ List.mem_map_of_mem hmem)

/-- Files with different paths may be added in any order: the analysis finds the same. -/
theorem analysis_of_perm (config : Config) (files files' : List (Text × Node))
    (hperm : files.Perm files') (hdistinct : (files.map Prod.fst).Nodup)
    (hbuilds : builds config files) (threshold : Int) (hthreshold : 0 ≤ threshold)
    (root root' : Text) (listed listed' : List Text) (warnings warnings' : List Warning) :
    builds config files' ∧
    ∃ s s' a a', (build config files).freeze = .ok s ∧ (build config files').freeze = .ok s' ∧
      s.analyze threshold root listed warnings = .ok a ∧
      s'.analyze threshold root' listed' warnings' = .ok a' ∧ a.Agrees a' := by
  have hbuilds' : builds config files' :=
    builds_iff.mpr fun file hfile => builds_iff.mp hbuilds file (hperm.mem_iff.mpr hfile)
  have hdistinct' : (files'.map Prod.fst).Nodup := (hperm.map _).nodup_iff.mp hdistinct
  have hcounted := build_counted hbuilds
  have hcounted' := build_counted hbuilds'
  have hentries := hperm.flatMap_right (fileEntries config)
  have hdecl : (build config files).declarations.Perm (build config files').declarations := by
    rw [declarations_build hbuilds, declarations_build hbuilds',
      ofList_flatMap_fileDeclarations config hdistinct,
      ofList_flatMap_fileDeclarations config hdistinct']
    exact hperm.flatMap_right _
  have hcalls (name : String) :
      ((build config files).callers name).Perm ((build config files').callers name) := by
    rw [callers_build hbuilds, callers_build hbuilds']
    exact (hentries.filterMap _).filter _
  have hskipped : (build config files).skipped = (build config files').skipped := by
    rw [skipped_build hbuilds, skipped_build hbuilds', hentries.countP_eq]
  refine ⟨hbuilds', _, _, _, _, CallGraph.freeze_ok hcounted, CallGraph.freeze_ok hcounted',
    Snapshot.analyze_ok hcounted hthreshold _ _ _, Snapshot.analyze_ok hcounted' hthreshold _ _ _,
    ?_⟩
  exact Snapshot.agrees hcounted hcounted' hdecl (fun d _ => hcalls d.name) hskipped ..

/-- Two scripts, each of which waits for the function that the other declares. -/
def pingPong : List (Text × Node) :=
  let word (role : Role) (text : String) : Node :=
    { Node.plain .identifier 0 [] with role := some role, text := some text }
  let script (declared called : String) : Node :=
    .plain (.other "program") 0 [
      .plain .functionDeclaration 0 [word .name declared],
      .plain .awaitExpression 1 [.plain .callExpression 1 [word .callee called]]]
  [(Text.ofString "a.js", script "ping" "pong"), (Text.ofString "b.js", script "pong" "ping")]

theorem analysis_of_pingPong :
    pingPong.Perm pingPong.reverse ∧ (pingPong.map Prod.fst).Nodup ∧ builds .default pingPong ∧
    (build .default pingPong).declarations ≠ (build .default pingPong.reverse).declarations ∧
    ∃ s s' a a', (build .default pingPong).freeze = .ok s ∧
      (build .default pingPong.reverse).freeze = .ok s' ∧ s.analyze 5 [] [] [] = .ok a ∧
      s'.analyze 5 [] [] [] = .ok a' ∧ a.Agrees a' := by
  have hdistinct : (pingPong.map Prod.fst).Nodup := by decide +kernel
  have hbuilds : builds .default pingPong := by decide +kernel
  have hperm : pingPong.Perm pingPong.reverse := (List.reverse_perm _).symm
  exact ⟨hperm, hdistinct, hbuilds, by decide +kernel,
    (analysis_of_perm .default _ _ hperm hdistinct hbuilds 5 (by decide) [] [] [] [] [] []).2⟩

end Survey

end ScriptAudit
