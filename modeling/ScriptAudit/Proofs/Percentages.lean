import Mathlib.Algebra.BigOperators.Group.List.Basic
import Mathlib.Algebra.Ring.Int.Parity
import Mathlib.Tactic.Linarith
import Mathlib.Tactic.Ring
import ScriptAudit.Proofs.AnalysisValues

/-! Percentages and what they add up to. Each is rounded by itself, so that the shares of one whole
may miss a hundred together, but by no more than half for each of them. -/

namespace ScriptAudit

section

variable {part whole : Int}

theorem percent_of_nonpos (part : Int) (h : whole ≤ 0) : percent part whole = 0 := if_pos h

/-- A percentage is the nearest whole number, and of two that are equally near the greater. -/
theorem percent_eq_iff (part : Int) {p : Int} (h : 0 < whole) : percent part whole = p ↔
    (2 * p - 1) * whole ≤ 200 * part ∧ 200 * part < (2 * p + 1) * whole := by
  have htwice : 0 < whole * 2 := by omega
  have hlow : p * (whole * 2) = (2 * p - 1) * whole + whole := by ring
  have hhigh : (2 * p + 1) * whole = (2 * p - 1) * whole + whole * 2 := by ring
  rw [percent, if_neg (by omega), Int.fdiv_eq_ediv_of_nonneg _ htwice.le,
    Int.ediv_eq_iff_of_pos htwice, hlow, hhigh]
  omega

theorem percent_le_percent {part' : Int} (hle : part ≤ part') (whole : Int) :
    percent part whole ≤ percent part' whole := by
  by_cases h : whole ≤ 0
  · simp only [percent_of_nonpos _ h, le_refl]
  · have htwice : 0 < whole * 2 := by omega
    simp only [percent, if_neg h, Int.fdiv_eq_ediv_of_nonneg _ htwice.le]
    exact Int.ediv_le_ediv htwice (by omega)

theorem percent_zero (h : 0 < whole) : percent 0 whole = 0 := by
  rw [percent_eq_iff _ h]
  omega

theorem percent_self (h : 0 < whole) : percent whole whole = 100 := by
  rw [percent_eq_iff _ h]
  omega

theorem percent_of_part (h : 0 ≤ part) (hle : part ≤ whole) :
    0 ≤ percent part whole ∧ percent part whole ≤ 100 := by
  by_cases hwhole : whole ≤ 0
  · rw [percent_of_nonpos part hwhole]
    omega
  · have hpos : 0 < whole := by omega
    have hlow := percent_le_percent h whole
    have hhigh := percent_le_percent hle whole
    rw [percent_zero hpos] at hlow
    rw [percent_self hpos] at hhigh
    exact ⟨hlow, hhigh⟩

/-- The errors of several percentages add up: each is a half at most, and downwards less. -/
theorem sum_percents (h : 0 < whole) (parts : List Int) :
    (2 * (parts.map (percent · whole)).sum - parts.length) * whole ≤ 200 * parts.sum ∧
    (parts ≠ [] → 200 * parts.sum <
      (2 * (parts.map (percent · whole)).sum + parts.length) * whole) := by
  induction parts with
  | nil => simp
  | cons part parts ih =>
    obtain ⟨hlow, hhigh⟩ := (percent_eq_iff part h).mp rfl
    obtain ⟨ihlow, ihhigh⟩ := ih
    simp only [List.map_cons, List.sum_cons, List.length_cons, Nat.cast_add, Nat.cast_one]
    refine ⟨by linarith, fun _ => ?_⟩
    cases parts with
    | nil => simpa using hhigh
    | cons part' parts =>
      have hrest := ihhigh (List.cons_ne_nil _ _)
      linarith

/-- Shares that make up a whole add up to a hundred, but for half a percent for each of them. -/
theorem sum_percents_of_whole (h : 0 < whole) (parts : List Int) (hparts : parts.sum = whole) :
    2 * (parts.map (percent · whole)).sum ≤ 200 + parts.length ∧
    200 < 2 * (parts.map (percent · whole)).sum + parts.length := by
  have hne : parts ≠ [] := by
    rintro rfl
    exact absurd hparts h.ne
  obtain ⟨hlow, hhigh⟩ := sum_percents h parts
  have hhigh := hhigh hne
  rw [hparts] at hlow hhigh
  have hle := le_of_mul_le_mul_right hlow h
  have hlt := lt_of_mul_lt_mul_right hhigh h.le
  omega

/-- A part and the rest of the whole both end in a half if one of them does. Both are then rounded
up. -/
theorem percent_add_percent_sub (h : 0 < whole) (part : Int) :
    percent part whole + percent (whole - part) whole = 101 ↔
      ∃ k, Odd k ∧ 200 * part = k * whole := by
  constructor
  · intro hsum
    obtain ⟨hpart, -⟩ := (percent_eq_iff part h).mp rfl
    obtain ⟨hrest, -⟩ := (percent_eq_iff (whole - part) h).mp rfl
    have hrest' : percent (whole - part) whole = 101 - percent part whole := by omega
    rw [hrest'] at hrest
    refine ⟨2 * percent part whole - 1, ⟨percent part whole - 1, by ring⟩, ?_⟩
    linarith
  · rintro ⟨k, ⟨m, rfl⟩, hk⟩
    have hpart : percent part whole = m + 1 := by
      rw [percent_eq_iff _ h]
      constructor <;> linarith
    have hrest : percent (whole - part) whole = 100 - m := by
      rw [percent_eq_iff _ h]
      constructor <;> linarith
    omega

end

namespace Summary

variable {trackable skipped asyncCount unused singleUse asyncIssues : Int} {s : Summary}

def percentages (s : Summary) : List Int :=
  [s.asyncPercent, s.syncPercent, s.unusedPercent, s.singleUsePercent, s.efficiency]

theorem count_eq_ok {what : String} {n : Int} {m : Nat} : count what n = .ok m ↔ n = m := by
  constructor
  · intro h
    by_cases hn : 0 ≤ n
    · simp only [count, require, hn, decide_true, if_true, bind, Except.bind, pure, Except.pure,
        Except.ok.injEq] at h
      omega
    · simp [count, require, hn, bind, Except.bind] at h
  · rintro rfl
    exact count_ok what m

theorem require_eq_ok {condition : Bool} {why : Refusal} {u : Unit} :
    require condition why = .ok u ↔ condition = true := by
  cases condition with
  | false => simp [require]
  | true => simp [require]

/-- A summary is accepted if no number is negative and the parts fit into what they are parts of. -/
theorem make_eq_ok : make trackable skipped asyncCount unused singleUse asyncIssues = .ok s ↔
    [trackable, skipped, asyncCount, unused, singleUse, asyncIssues] = [(s.trackable : Int),
      s.skipped, s.asyncCount, s.unused, s.singleUse, s.asyncIssues] ∧
    s.asyncCount ≤ s.trackable ∧ s.unused + s.singleUse ≤ s.trackable := by
  constructor
  · intro h
    simp only [make, bind_eq_ok, count_eq_ok, require_eq_ok, decide_eq_true_eq] at h
    obtain ⟨_, rfl, _, rfl, _, rfl, _, rfl, _, rfl, _, rfl, _, hasync, _, htiers, hs⟩ := h
    cases hs
    exact ⟨rfl, hasync, htiers⟩
  · rintro ⟨hcounts, hasync, htiers⟩
    cases hcounts
    exact make_ok s hasync htiers

theorem percentages_of_parts (hasync : s.asyncCount ≤ s.trackable)
    (htiers : s.unused + s.singleUse ≤ s.trackable) :
    ∀ p ∈ s.percentages, 0 ≤ p ∧ p ≤ 100 := by
  have hpart {n : Nat} (hn : n ≤ s.trackable) :
      0 ≤ percent n s.trackable ∧ percent n s.trackable ≤ 100 :=
    percent_of_part (Int.natCast_nonneg n) (Int.ofNat_le.mpr hn)
  have hsync : s.syncCount ≤ s.trackable := Nat.sub_le _ _
  have hwell : s.wellUsed ≤ s.trackable := by
    unfold wellUsed
    omega
  simp only [percentages, List.forall_mem_cons]
  exact ⟨hpart hasync, hpart hsync, hpart (by omega), hpart (by omega), hpart hwell,
    List.forall_mem_nil _⟩

theorem percentages_of_nothing (h : s.trackable = 0) : ∀ p ∈ s.percentages, p = 0 := by
  have hnone (part : Int) : percent part s.trackable = 0 :=
    percent_of_nonpos part (by omega)
  simp [percentages, asyncPercent, syncPercent, unusedPercent, singleUsePercent, efficiency, hnone]

theorem asyncPercent_add_syncPercent (hpos : 0 < s.trackable)
    (hasync : s.asyncCount ≤ s.trackable) :
    (s.asyncPercent + s.syncPercent = 100 ∨ s.asyncPercent + s.syncPercent = 101) ∧
    (s.asyncPercent + s.syncPercent = 101 ↔
      ∃ k : Int, Odd k ∧ 200 * s.asyncCount = k * s.trackable) := by
  have hwhole : (0 : Int) < s.trackable := by omega
  have hsync : (s.syncCount : Int) = s.trackable - s.asyncCount := by
    unfold syncCount
    omega
  unfold asyncPercent syncPercent
  constructor
  · have hsum := sum_percents_of_whole hwhole [s.asyncCount, s.syncCount] (by simp [hsync])
    simp only [List.map_cons, List.map_nil, List.sum_cons, List.sum_nil, List.length_cons,
      List.length_nil] at hsum
    omega
  · rw [hsync]
    exact percent_add_percent_sub hwhole s.asyncCount

theorem tier_percents_add_up (hpos : 0 < s.trackable)
    (htiers : s.unused + s.singleUse ≤ s.trackable) :
    s.unusedPercent + s.singleUsePercent + s.efficiency ∈ [99, 100, 101] := by
  have hwhole : (0 : Int) < s.trackable := by omega
  have hwell : (s.wellUsed : Int) = s.trackable - s.unused - s.singleUse := by
    unfold wellUsed
    omega
  have hsum := sum_percents_of_whole hwhole [s.unused, s.singleUse, s.wellUsed]
    (by simp [hwell])
  simp only [List.map_cons, List.map_nil, List.sum_cons, List.sum_nil, List.length_cons,
    List.length_nil] at hsum
  simp only [unusedPercent, singleUsePercent, efficiency, List.mem_cons, List.not_mem_nil]
  omega

/-- A percentage is the nearest whole number, and more is never a smaller percentage. Those of a
summary stand for parts of what it counts, and are off by so little that at most one percent is
missing from a hundred, or too much. -/
theorem percentages_are_nearest_and_add_up :
    (∀ part whole p : Int, 0 < whole → (percent part whole = p ↔
      (2 * p - 1) * whole ≤ 200 * part ∧ 200 * part < (2 * p + 1) * whole)) ∧
    (∀ part part' whole : Int, part ≤ part' → percent part whole ≤ percent part' whole) ∧
    ∀ (trackable skipped asyncCount unused singleUse asyncIssues : Int) (s : Summary),
      make trackable skipped asyncCount unused singleUse asyncIssues = .ok s →
      (∀ p ∈ s.percentages, 0 ≤ p ∧ p ≤ 100) ∧
      (0 < s.trackable →
        (s.asyncPercent + s.syncPercent = 100 ∨ s.asyncPercent + s.syncPercent = 101) ∧
        (s.asyncPercent + s.syncPercent = 101 ↔
          ∃ k : Int, Odd k ∧ 200 * s.asyncCount = k * s.trackable) ∧
        s.unusedPercent + s.singleUsePercent + s.efficiency ∈ [99, 100, 101]) ∧
      (s.trackable = 0 → ∀ p ∈ s.percentages, p = 0) := by
  refine ⟨fun part _ _ => percent_eq_iff part,
    fun _ _ whole hle => percent_le_percent hle whole, ?_⟩
  intro trackable skipped asyncCount unused singleUse asyncIssues s h
  obtain ⟨-, hasync, htiers⟩ := make_eq_ok.mp h
  refine ⟨percentages_of_parts hasync htiers, fun hpos => ?_, percentages_of_nothing⟩
  obtain ⟨hsum, hodd⟩ := asyncPercent_add_syncPercent hpos hasync
  exact ⟨hsum, hodd, tier_percents_add_up hpos htiers⟩

/-- One function of eight is twelve and a half percent, and the other seven are eighty-seven and a
half. -/
def eighths : Summary := ⟨8, 2, 1, 1, 3, 0⟩

theorem percentages_of_eighths :
    make 8 2 1 1 3 0 = .ok eighths ∧ percent (-1) 8 = -12 ∧
    eighths.asyncPercent + eighths.syncPercent = 101 ∧
    eighths.unusedPercent + eighths.singleUsePercent + eighths.efficiency ∈ [99, 100, 101] := by
  have hmake : make 8 2 1 1 3 0 = .ok eighths := by decide
  obtain ⟨hnearest, -, hsummary⟩ := percentages_are_nearest_and_add_up
  obtain ⟨-, hsums, -⟩ := hsummary 8 2 1 1 3 0 eighths hmake
  obtain ⟨-, hodd, htiers⟩ := hsums (by decide)
  exact ⟨hmake, (hnearest (-1) 8 (-12) (by decide)).mpr (by decide),
    hodd.mpr ⟨25, by decide, by decide⟩, htiers⟩

end Summary

end ScriptAudit
