import Mathlib.Algebra.GroupWithZero.Nat
import Mathlib.Algebra.Order.BigOperators.Group.List
import Mathlib.Algebra.Order.Group.Nat
import Mathlib.Data.List.Flatten
import ScriptAudit.Proofs.FileOrder

/-! One more file. It can only add: declarations keep their places among each other, and calls of
a name are never taken away, so tiers rise and issues stay. -/

namespace ScriptAudit

open Syntax

def Tier.rank : Tier → Nat
  | .unused => 0
  | .singleUse => 1
  | .wellUsed => 2

theorem Tier.rank_ofCount_le {m n : Nat} (h : m ≤ n) : (ofCount m).rank ≤ (ofCount n).rank := by
  have hrank (k : Nat) : (ofCount k).rank = min k 2 := by
    match k with
    | 0 => rfl
    | 1 => rfl
    | k + 2 =>
      change 2 = min (k + 2) 2
      omega
  rw [hrank, hrank]
  omega

/-- The one tier in which a declaration stands. -/
def Usage.Rates (u : Usage) (d : Declaration) (tier : Tier) : Prop :=
  ∀ t, (∃ e ∈ u.ofTier t, e.declaration = d) ↔ t = tier

/-- The second analysis has all that the first one has, and possibly more. -/
structure Analysis.Extends (a b : Analysis) : Prop where
  declarations : a.graph.declarations.Sublist b.graph.declarations
  tiers : ∀ d ∈ a.graph.declarations, ∃ tier tier',
    a.usage.Rates d tier ∧ b.usage.Rates d tier' ∧ tier.rank ≤ tier'.rank
  findings : ∀ finding ∈ a.findings, ∃ finding' ∈ b.findings,
    finding'.declaration = finding.declaration ∧
    ∀ issue ∈ finding.issues, ∃ issue' ∈ finding'.issues,
      issue'.kind = issue.kind ∧ issue.sites.Sublist issue'.sites
  trackable : a.summary.trackable ≤ b.summary.trackable
  skipped : a.summary.skipped ≤ b.summary.skipped
  asyncIssues : a.summary.asyncIssues ≤ b.summary.asyncIssues

namespace Declaration

theorem flags_grow (d : Declaration) {calls calls' : List Call} (h : calls.Sublist calls') :
    ∀ issue ∈ d.flags calls, ∃ issue' ∈ d.flags calls',
      issue'.kind = issue.kind ∧ issue.sites.Sublist issue'.sites := by
  have hmisfits := h.filter fun c => c.awaited ≠ d.isAsync
  intro issue hissue
  rcases List.mem_append.mp hissue with hown | hcited
  · exact ⟨issue, List.mem_append_left _ hown, rfl, .refl _⟩
  · by_cases hnil : (calls.filter fun c => c.awaited ≠ d.isAsync) = []
    · rw [if_pos hnil] at hcited
      cases hcited
    · rw [if_neg hnil, List.mem_singleton] at hcited
      have hnil' : (calls'.filter fun c => c.awaited ≠ d.isAsync) ≠ [] := by
        intro he
        rw [he] at hmisfits
        exact hnil (List.sublist_nil.mp hmisfits)
      refine ⟨⟨issue.kind, calls'.filter fun c => c.awaited ≠ d.isAsync⟩,
        List.mem_append_right _ ?_, rfl, ?_⟩
      · rw [if_neg hnil', hcited]
        exact List.mem_singleton_self _
      · rw [hcited]
        exact hmisfits

/-- How much the issues of a declaration count for: one if it is at odds with itself, and one for
each call that does not fit it. -/
def charge (d : Declaration) (calls : List Call) : Nat :=
  (if d.isAsync = d.suspends then 0 else 1) + calls.countP fun c => c.awaited ≠ d.isAsync

theorem weight_flags (d : Declaration) (calls : List Call) :
    Finding.weight ⟨d, d.flags calls⟩ = d.charge calls := by
  have hown (kind : Issue.Kind) (h : kind.citesSites = false) : Issue.weight ⟨kind, []⟩ = 1 := by
    simp [Issue.weight, h]
  have hcited (kind : Issue.Kind) (sites : List Call) (h : kind.citesSites = true) :
      Issue.weight ⟨kind, sites⟩ = sites.length := by
    simp [Issue.weight, h]
  unfold Finding.weight charge flags
  rw [List.countP_eq_length_filter]
  generalize calls.filter (fun c => c.awaited ≠ d.isAsync) = misfits
  by_cases hm : misfits = []
  · cases d.isAsync <;> cases d.suspends <;>
      simp [hm, hown .unnecessaryAsync rfl, hown .missingAsync rfl]
  · cases d.isAsync <;> cases d.suspends <;>
      simp [hm, hown .unnecessaryAsync rfl, hown .missingAsync rfl, hcited .missingAwait _ rfl,
        hcited .unnecessaryAwait _ rfl]

theorem charge_le (d : Declaration) {calls calls' : List Call} (h : calls.Sublist calls') :
    d.charge calls ≤ d.charge calls' :=
  Nat.add_le_add_left h.countP_le _

end Declaration

namespace Snapshot

theorem rates_usageValue {s : Snapshot} {d : Declaration} (hd : d ∈ s.declarations) :
    s.usageValue.Rates d (.ofCount (s.callers d).length) := by
  intro t
  constructor
  · rintro ⟨e, he, rfl⟩
    obtain ⟨he, htier⟩ := List.mem_filter.mp (mem_ofTier_usageValue.mp he)
    obtain ⟨d, -, rfl⟩ := List.mem_map.mp he
    exact (of_decide_eq_true htier).symm
  · rintro rfl
    refine ⟨s.entry d, mem_ofTier_usageValue.mpr ?_, rfl⟩
    exact List.mem_filter.mpr ⟨List.mem_map_of_mem hd, decide_eq_true rfl⟩

theorem totalWeight_findings (s : Snapshot) :
    Finding.totalWeight (s.declarations.filterMap s.finding?) =
      (s.declarations.map fun d => d.charge (s.callers d)).sum := by
  have hfold (findings : List Finding) (n : Nat) :
      findings.foldl (fun n finding => n + finding.weight) n =
        n + (findings.map Finding.weight).sum := by
    induction findings generalizing n with
    | nil => rfl
    | cons finding findings ih =>
      rw [List.foldl_cons, ih, List.map_cons, List.sum_cons, Nat.add_assoc]
  rw [Finding.totalWeight, hfold, Nat.zero_add]
  induction s.declarations with
  | nil => rfl
  | cons d ds ih =>
    have hweight := d.weight_flags (s.callers d)
    rw [List.filterMap_cons, List.map_cons, List.sum_cons, ← ih]
    by_cases hflags : d.flags (s.callers d) = []
    · rw [hflags] at hweight
      simp [finding?, hflags, ← hweight, Finding.weight]
    · simp [finding?, hflags, hweight]

section

variable {s s' : Snapshot} (hdecl : s.declarations.Sublist s'.declarations)
  (hcalls : ∀ d, (s.callers d).Sublist (s'.callers d))

include hdecl hcalls

theorem findings_grow : ∀ finding ∈ s.declarations.filterMap s.finding?,
    ∃ finding' ∈ s'.declarations.filterMap s'.finding?,
      finding'.declaration = finding.declaration ∧
      ∀ issue ∈ finding.issues, ∃ issue' ∈ finding'.issues,
        issue'.kind = issue.kind ∧ issue.sites.Sublist issue'.sites := by
  intro finding hfinding
  obtain ⟨d, hd, hfinding⟩ := List.mem_filterMap.mp hfinding
  by_cases hflags : d.flags (s.callers d) = []
  · simp [finding?, hflags] at hfinding
  · obtain rfl : ⟨d, d.flags (s.callers d)⟩ = finding := by
      simpa [finding?, hflags] using hfinding
    have hgrow := d.flags_grow (hcalls d)
    obtain ⟨issue, hissue⟩ := List.exists_mem_of_ne_nil _ hflags
    obtain ⟨issue', hissue', -⟩ := hgrow issue hissue
    have hflags' : d.flags (s'.callers d) ≠ [] := List.ne_nil_of_mem hissue'
    refine ⟨⟨d, d.flags (s'.callers d)⟩, List.mem_filterMap.mpr ⟨d, hdecl.subset hd, ?_⟩, rfl,
      hgrow⟩
    rw [finding?, if_neg hflags']

theorem totalWeight_le :
    Finding.totalWeight (s.declarations.filterMap s.finding?) ≤
      Finding.totalWeight (s'.declarations.filterMap s'.finding?) := by
  rw [totalWeight_findings, totalWeight_findings]
  calc (s.declarations.map fun d => d.charge (s.callers d)).sum
      ≤ (s.declarations.map fun d => d.charge (s'.callers d)).sum :=
        List.sum_le_sum fun d _ => d.charge_le (hcalls d)
    _ ≤ (s'.declarations.map fun d => d.charge (s'.callers d)).sum :=
        (hdecl.map _).sum_le_sum fun _ _ => Nat.zero_le _

theorem extends_of_sublist (hskipped : s.skipped ≤ s'.skipped) (threshold : Int)
    (root root' : Text) (files files' : List Text) (warnings warnings' : List Warning) :
    (s.analysisValue threshold root files warnings).Extends
      (s'.analysisValue threshold root' files' warnings') where
  declarations := hdecl
  tiers := fun d hd => ⟨_, _, rates_usageValue hd, rates_usageValue (hdecl.subset hd),
    Tier.rank_ofCount_le (hcalls d).length_le⟩
  findings := findings_grow hdecl hcalls
  trackable := hdecl.length_le
  skipped := hskipped
  asyncIssues := totalWeight_le hdecl hcalls

end

end Snapshot

namespace Survey

/-- With one more file under a path of its own, nothing that was found before is lost. -/
theorem analysis_of_insertion (config : Config) (before after : List (Text × Node))
    (file : Text × Node) (hdistinct : ((before ++ file :: after).map Prod.fst).Nodup)
    (hbuilds : builds config (before ++ file :: after)) (threshold : Int)
    (hthreshold : 0 ≤ threshold) (root root' : Text) (listed listed' : List Text)
    (warnings warnings' : List Warning) :
    builds config (before ++ after) ∧
    (∀ name, ((build config (before ++ after)).callers name).Sublist
      ((build config (before ++ file :: after)).callers name)) ∧
    ∃ s s' a a', (build config (before ++ after)).freeze = .ok s ∧
      (build config (before ++ file :: after)).freeze = .ok s' ∧
      s.analyze threshold root listed warnings = .ok a ∧
      s'.analyze threshold root' listed' warnings' = .ok a' ∧ a.Extends a' := by
  have hfiles : (before ++ after).Sublist (before ++ file :: after) :=
    (List.sublist_cons_self file after).append_left before
  have hbuilds₀ : builds config (before ++ after) :=
    builds_iff.mpr fun f hf => builds_iff.mp hbuilds f (hfiles.subset hf)
  have hdistinct₀ : ((before ++ after).map Prod.fst).Nodup := hdistinct.sublist (hfiles.map _)
  have hentries := hfiles.flatMap (fileEntries config)
  have hdecl : (build config (before ++ after)).declarations.Sublist
      (build config (before ++ file :: after)).declarations := by
    rw [declarations_build hbuilds₀, declarations_build hbuilds,
      ofList_flatMap_fileDeclarations config hdistinct₀,
      ofList_flatMap_fileDeclarations config hdistinct]
    exact hfiles.flatMap _
  have hcalls (name : String) : ((build config (before ++ after)).callers name).Sublist
      ((build config (before ++ file :: after)).callers name) := by
    rw [callers_build hbuilds₀, callers_build hbuilds]
    exact (hentries.filterMap _).filter _
  have hskipped : (build config (before ++ after)).skipped ≤
      (build config (before ++ file :: after)).skipped := by
    rw [skipped_build hbuilds₀, skipped_build hbuilds]
    exact hentries.countP_le
  have hcounted₀ := build_counted hbuilds₀
  have hcounted := build_counted hbuilds
  refine ⟨hbuilds₀, hcalls, _, _, _, _, CallGraph.freeze_ok hcounted₀, CallGraph.freeze_ok hcounted,
    Snapshot.analyze_ok hcounted₀ hthreshold _ _ _,
    Snapshot.analyze_ok hcounted hthreshold _ _ _, ?_⟩
  have hcallers (d : Declaration) :
      ((build config (before ++ after)).snapshot.callers d).Sublist
        ((build config (before ++ file :: after)).snapshot.callers d) := hcalls d.name
  exact Snapshot.extends_of_sublist hdecl hcallers hskipped ..

/-- A script that calls `ping` from a function of its own, without waiting for it. -/
def thirdParty : Text × Node :=
  let word (role : Role) (text : String) : Node :=
    { Node.plain .identifier 0 [] with role := some role, text := some text }
  (Text.ofString "c.js", .plain (.other "program") 0 [
    .plain .functionDeclaration 0 [
      word .name "serve", .plain .callExpression 1 [word .callee "ping"]]])

theorem analysis_of_thirdParty :
    ((pingPong.take 1 ++ thirdParty :: pingPong.drop 1).map Prod.fst).Nodup ∧
    builds .default (pingPong.take 1 ++ thirdParty :: pingPong.drop 1) ∧
    (build .default (pingPong.take 1 ++ pingPong.drop 1)).callers "ping" ≠
      (build .default (pingPong.take 1 ++ thirdParty :: pingPong.drop 1)).callers "ping" ∧
    ∃ s s' a a', (build .default (pingPong.take 1 ++ pingPong.drop 1)).freeze = .ok s ∧
      (build .default (pingPong.take 1 ++ thirdParty :: pingPong.drop 1)).freeze = .ok s' ∧
      s.analyze 5 [] [] [] = .ok a ∧ s'.analyze 5 [] [] [] = .ok a' ∧ a.Extends a' := by
  have hdistinct : ((pingPong.take 1 ++ thirdParty :: pingPong.drop 1).map Prod.fst).Nodup := by
    decide +kernel
  have hbuilds : builds .default (pingPong.take 1 ++ thirdParty :: pingPong.drop 1) := by
    decide +kernel
  exact ⟨hdistinct, hbuilds, by decide +kernel, (analysis_of_insertion .default _ _ _ hdistinct
    hbuilds 5 (by decide) [] [] [] [] [] []).2.2⟩

end Survey

end ScriptAudit
