import Mathlib.Data.List.Basic
import ScriptAudit.Analysis
import ScriptAudit.Proofs.GraphHistory

/-! What the analysis of a finished graph finds. Where every declared name was seen, none of its
checks fails, and each of its parts is a function of the declarations and their calls. -/

namespace ScriptAudit

namespace Declaration

/-- The issue of a declaration itself, then that of the calls that do not fit it. -/
def flags (d : Declaration) (calls : List Call) : List Issue :=
  let misfits := calls.filter fun c => c.awaited ≠ d.isAsync
  (if d.isAsync = d.suspends then []
    else [⟨if d.isAsync then .unnecessaryAsync else .missingAsync, []⟩]) ++
  (if misfits = [] then []
    else [⟨if d.isAsync then .missingAwait else .unnecessaryAwait, misfits⟩])

theorem issueIf_ok {condition : Bool} {kind : Issue.Kind} (h : kind.citesSites = false) :
    issueIf condition kind = .ok (if condition then [⟨kind, []⟩] else []) := by
  cases condition with
  | false => rfl
  | true => simp [issueIf, Issue.make, require, h, bind, Except.bind, pure, Except.pure]

theorem issueCiting_ok {sites : List Call} {kind : Issue.Kind} (h : kind.citesSites = true) :
    issueCiting sites kind = .ok (if sites = [] then [] else [⟨kind, sites⟩]) := by
  cases sites with
  | nil => rfl
  | cons c sites =>
    simp [issueCiting, Issue.make, require, h, bind, Except.bind, pure, Except.pure]

theorem issues_ok (d : Declaration) (calls : List Call) : d.issues calls = .ok (d.flags calls) := by
  unfold Declaration.issues flags
  cases hasync : d.isAsync with
  | true =>
    rw [issueIf_ok rfl, issueCiting_ok rfl]
    cases hs : d.suspends with
    | true => simp [bind, Except.bind, pure, Except.pure]
    | false => simp [bind, Except.bind, pure, Except.pure]
  | false =>
    simp only [Bool.false_eq_true, if_false]
    rw [issueIf_ok rfl, issueCiting_ok rfl]
    cases hs : d.suspends with
    | true => simp [bind, Except.bind, pure, Except.pure]
    | false => simp [bind, Except.bind, pure, Except.pure]

end Declaration

namespace Summary

def suggestions (s : Summary) (threshold : Int) : List Recommendation :=
  (if 0 < s.unused then [⟨.cleanup, s.unused⟩] else []) ++
  (if threshold < (s.singleUse : Int) then [⟨.inline, s.singleUse⟩] else []) ++
  (if 0 < s.asyncIssues then [⟨.asyncFix, s.asyncIssues⟩] else [])

def advice (s : Summary) (threshold : Int) : List Recommendation :=
  if s.suggestions threshold = [] then [⟨.healthy, 0⟩] else s.suggestions threshold

theorem count_ok (what : String) (n : Nat) : count what n = .ok n := by
  have hn : (0 : Int) ≤ n := Int.natCast_nonneg n
  simp [count, require, hn, bind, Except.bind, pure, Except.pure]

theorem make_ok (s : Summary) (hasync : s.asyncCount ≤ s.trackable)
    (htiers : s.unused + s.singleUse ≤ s.trackable) :
    make s.trackable s.skipped s.asyncCount s.unused s.singleUse s.asyncIssues = .ok s := by
  unfold make
  simp only [count_ok, require, hasync, htiers, decide_true, if_true, bind, Except.bind]
  rfl

theorem recommendIf_ok (condition : Bool) (kind : Recommendation.Kind) (count : Nat) :
    recommendIf condition kind count = .ok (if condition then [⟨kind, count⟩] else []) := by
  cases condition with
  | false => rfl
  | true =>
    simp only [recommendIf, Recommendation.make, count_ok, if_true, bind, Except.bind]
    rfl

theorem recommend_ok (s : Summary) (threshold : Int) :
    s.recommend threshold = .ok (s.advice threshold) := by
  unfold recommend advice
  simp only [recommendIf_ok, bind, Except.bind, decide_eq_true_eq]
  change (if (s.suggestions threshold).isEmpty then _ else pure (s.suggestions threshold)) = _
  by_cases h : s.suggestions threshold = []
  · rw [if_pos h, if_pos (List.isEmpty_iff.mpr h)]
    rfl
  · rw [if_neg h, if_neg (by simpa using h)]
    rfl

theorem advice_ne_nil (s : Summary) (threshold : Int) : s.advice threshold ≠ [] := by
  unfold advice
  by_cases h : s.suggestions threshold = []
  · simp [h]
  · simp [h]

end Summary

namespace Usage

def ofTier (u : Usage) : Tier → List Entry
  | .unused => u.unused
  | .singleUse => u.singleUse
  | .wellUsed => u.wellUsed

theorem checkTier_eq_ok {tier : Tier} {entries : List Entry} :
    checkTier tier entries = .ok () ↔ ∀ e ∈ entries, e.tier = tier := by
  have hnone : entries.find? (fun e => e.tier ≠ tier) = none ↔ ∀ e ∈ entries, e.tier = tier := by
    simp
  unfold checkTier
  split
  · rename_i e he
    rw [← hnone, he]
    simp
  · rename_i he
    rw [← hnone, he]
    simp

/-- A usage is accepted if each declaration stands in the tier that its calls give it. -/
theorem make_eq_ok {unused singleUse wellUsed : List Entry} {u : Usage} :
    make unused singleUse wellUsed = .ok u ↔
      u = ⟨unused, singleUse, wellUsed⟩ ∧ ∀ tier, ∀ e ∈ u.ofTier tier, e.tier = tier := by
  unfold make
  simp only [bind_eq_ok, pure, Except.pure, Except.ok.injEq]
  constructor
  · rintro ⟨_, hunused, _, hsingle, _, hwell, rfl⟩
    refine ⟨rfl, fun tier => ?_⟩
    cases tier with
    | unused => exact checkTier_eq_ok.mp hunused
    | singleUse => exact checkTier_eq_ok.mp hsingle
    | wellUsed => exact checkTier_eq_ok.mp hwell
  · rintro ⟨rfl, h⟩
    exact ⟨(), checkTier_eq_ok.mpr (h .unused), (), checkTier_eq_ok.mpr (h .singleUse), (),
      checkTier_eq_ok.mpr (h .wellUsed), rfl⟩

theorem busiestFirst_perm (entries : List Entry) : (busiestFirst entries).Perm entries :=
  List.mergeSort_perm _ _

end Usage

namespace Snapshot

def callers (s : Snapshot) (d : Declaration) : List Call := (Ordered.find? d.name s.calls).getD []

def finding? (s : Snapshot) (d : Declaration) : Option Finding :=
  if d.flags (s.callers d) = [] then none else some ⟨d, d.flags (s.callers d)⟩

def entry (s : Snapshot) (d : Declaration) : Usage.Entry := ⟨d, s.callers d⟩

def entriesOf (s : Snapshot) (tier : Tier) : List Usage.Entry :=
  (s.declarations.map s.entry).filter fun e => e.tier = tier

def usageValue (s : Snapshot) : Usage :=
  ⟨s.entriesOf .unused, s.entriesOf .singleUse, Usage.busiestFirst (s.entriesOf .wellUsed)⟩

def summaryValue (s : Snapshot) : Summary where
  trackable := s.declarations.length
  skipped := s.skipped
  asyncCount := (s.declarations.filter (·.isAsync)).length
  unused := (s.entriesOf .unused).length
  singleUse := (s.entriesOf .singleUse).length
  asyncIssues := Finding.totalWeight (s.declarations.filterMap s.finding?)

def analysisValue (s : Snapshot) (threshold : Int) (root : Text) (files : List Text)
    (warnings : List Warning) : Analysis :=
  ⟨root, files, s, s.declarations.filterMap s.finding?, s.usageValue, s.summaryValue,
    s.summaryValue.advice threshold, warnings⟩

theorem callsOf_ok {s : Snapshot} (h : s.Counted) {d : Declaration} (hd : d ∈ s.declarations) :
    s.callsOf d = .ok (s.callers d) := by
  obtain ⟨calls, hcalls⟩ := Option.isSome_iff_exists.mp (h d hd)
  rw [callsOf, callers, hcalls]
  rfl

theorem findings_ok {s : Snapshot} (h : s.Counted) :
    s.findings = .ok (s.declarations.filterMap s.finding?) := by
  have hfound : s.declarations.mapM (fun d => do
      let issues ← d.issues (← s.callsOf d)
      if issues.isEmpty then return [] else return [← Finding.make d issues]) =
        .ok (s.declarations.map fun d => (s.finding? d).toList) := by
    apply mapM_eq_ok_map
    intro d hd
    rw [callsOf_ok h hd]
    simp only [bind, Except.bind, Declaration.issues_ok, finding?]
    by_cases hflags : d.flags (s.callers d) = []
    · simp [hflags, pure, Except.pure]
    · simp [hflags, Finding.make, require, bind, Except.bind, pure, Except.pure]
  unfold findings
  rw [hfound]
  change Except.ok _ = _
  rw [← List.flatMap_def, ← List.filterMap_eq_flatMap_toList]

theorem tier_of_mem_entriesOf {s : Snapshot} {tier : Tier} {e : Usage.Entry}
    (h : e ∈ s.entriesOf tier) : e.tier = tier := by
  simpa using (List.mem_filter.mp h).2

theorem mem_ofTier_usageValue {s : Snapshot} {tier : Tier} {e : Usage.Entry} :
    e ∈ s.usageValue.ofTier tier ↔ e ∈ s.entriesOf tier := by
  cases tier with
  | unused => exact Iff.rfl
  | singleUse => exact Iff.rfl
  | wellUsed => exact (Usage.busiestFirst_perm _).mem_iff

theorem usage_ok {s : Snapshot} (h : s.Counted) : s.usage = .ok s.usageValue := by
  have hentries : s.entries = .ok (s.declarations.map s.entry) := by
    unfold entries
    apply mapM_eq_ok_map
    intro d hd
    rw [callsOf_ok h hd]
    rfl
  unfold usage
  rw [hentries]
  change Usage.make (s.entriesOf .unused) (s.entriesOf .singleUse)
    (Usage.busiestFirst (s.entriesOf .wellUsed)) = _
  exact Usage.make_eq_ok.mpr ⟨rfl, fun _ _ he => tier_of_mem_entriesOf (mem_ofTier_usageValue.mp he)⟩

theorem length_entriesOf (s : Snapshot) :
    (s.entriesOf .unused).length + (s.entriesOf .singleUse).length +
      (s.entriesOf .wellUsed).length = s.declarations.length := by
  have hmap : (s.declarations.map s.entry).length = s.declarations.length := List.length_map _
  unfold entriesOf
  rw [← hmap]
  induction s.declarations.map s.entry with
  | nil => rfl
  | cons e es ih =>
    simp only [List.filter_cons, List.length_cons]
    cases e.tier <;> simp <;> omega

theorem summarize_any (s : Snapshot) (findings : List Finding) :
    s.summarize s.usageValue findings =
      .ok { s.summaryValue with asyncIssues := Finding.totalWeight findings } := by
  have hasync : (s.declarations.filter (·.isAsync)).length ≤ s.declarations.length :=
    List.length_filter_le _ _
  have htiers : (s.entriesOf .unused).length + (s.entriesOf .singleUse).length ≤
      s.declarations.length := by
    have := s.length_entriesOf
    omega
  exact Summary.make_ok { s.summaryValue with asyncIssues := Finding.totalWeight findings }
    hasync htiers

theorem summarize_ok (s : Snapshot) :
    s.summarize s.usageValue (s.declarations.filterMap s.finding?) = .ok s.summaryValue :=
  s.summarize_any _

theorem total_usageValue (s : Snapshot) : s.usageValue.total = s.declarations.length := by
  rw [← s.length_entriesOf, Usage.total, usageValue, (Usage.busiestFirst_perm _).length_eq]

/-- The analysis of a graph that has seen every declared name always succeeds. -/
theorem analyze_ok {s : Snapshot} (h : s.Counted) {threshold : Int} (hthreshold : 0 ≤ threshold)
    (root : Text) (files : List Text) (warnings : List Warning) :
    s.analyze threshold root files warnings =
      .ok (s.analysisValue threshold root files warnings) := by
  have hcheck : (s.analysisValue threshold root files warnings).check =
      .ok (s.analysisValue threshold root files warnings) := by
    have htotal : s.usageValue.total = s.summaryValue.trackable := s.total_usageValue
    have hadvice := s.summaryValue.advice_ne_nil threshold
    simp [Analysis.check, analysisValue, require, htotal, hadvice, bind, Except.bind, pure,
      Except.pure]
  unfold analyze checkThreshold
  rw [findings_ok h, usage_ok h]
  simp only [require, hthreshold, decide_true, if_true, bind, Except.bind, summarize_ok,
    Summary.recommend_ok]
  exact hcheck

end Snapshot

end ScriptAudit
