import ScriptAudit.Error

/-! The numbers of one audit and what they suggest. -/

namespace ScriptAudit

/-- The nearest whole percentage, a half going up; nothing has no share. -/
def percent (part whole : Int) : Int :=
  if whole ≤ 0 then 0 else Int.fdiv (part * 200 + whole) (whole * 2)

structure Summary where
  trackable : Nat
  skipped : Nat
  asyncCount : Nat
  unused : Nat
  singleUse : Nat
  asyncIssues : Nat
deriving DecidableEq, Repr

namespace Summary

def count (what : String) (n : Int) : Except Error Nat := do
  require (0 ≤ n) (.negative what n)
  return n.toNat

def make (trackable skipped asyncCount unused singleUse asyncIssues : Int) :
    Except Error Summary := do
  let s : Summary := {
    trackable := ← count "trackable" trackable
    skipped := ← count "skipped" skipped
    asyncCount := ← count "async_count" asyncCount
    unused := ← count "unused" unused
    singleUse := ← count "single_use" singleUse
    asyncIssues := ← count "async_issues" asyncIssues }
  require (s.asyncCount ≤ s.trackable) .asyncExceedsTrackable
  require (s.unused + s.singleUse ≤ s.trackable) .usageExceedsTrackable
  return s

def totalFunctions (s : Summary) : Nat := s.trackable + s.skipped

def syncCount (s : Summary) : Nat := s.trackable - s.asyncCount

def wellUsed (s : Summary) : Nat := s.trackable - s.unused - s.singleUse

def asyncPercent (s : Summary) : Int := percent s.asyncCount s.trackable

def syncPercent (s : Summary) : Int := percent s.syncCount s.trackable

def unusedPercent (s : Summary) : Int := percent s.unused s.trackable

def singleUsePercent (s : Summary) : Int := percent s.singleUse s.trackable

def efficiency (s : Summary) : Int := percent s.wellUsed s.trackable

end Summary

inductive Recommendation.Kind where
  | cleanup
  | inline
  | asyncFix
  | healthy
deriving DecidableEq, Repr

def Recommendation.Kind.name : Recommendation.Kind → String
  | .cleanup => "cleanup"
  | .inline => "inline"
  | .asyncFix => "async-fix"
  | .healthy => "healthy"

structure Recommendation where
  kind : Recommendation.Kind
  count : Nat
deriving DecidableEq, Repr

def Recommendation.make (kind : Recommendation.Kind) (count : Int) :
    Except Error Recommendation := do
  return ⟨kind, ← Summary.count "count" count⟩

def recommendIf (condition : Bool) (kind : Recommendation.Kind) (count : Nat) :
    Except Error (List Recommendation) :=
  if condition then do return [← Recommendation.make kind count] else .ok []

/-- What applies, or that nothing does. -/
def Summary.recommend (s : Summary) (inlineThreshold : Int) :
    Except Error (List Recommendation) := do
  let cleanup ← recommendIf (0 < s.unused) .cleanup s.unused
  let inlining ← recommendIf (inlineThreshold < (s.singleUse : Int)) .inline s.singleUse
  let fixes ← recommendIf (0 < s.asyncIssues) .asyncFix s.asyncIssues
  let all := cleanup ++ inlining ++ fixes
  if all.isEmpty then return [← Recommendation.make .healthy 0] else return all

end ScriptAudit
