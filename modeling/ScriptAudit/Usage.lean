import ScriptAudit.CallGraph

/-! How often declarations are called. -/

namespace ScriptAudit

inductive Tier where
  | unused
  | singleUse
  | wellUsed
deriving DecidableEq, Repr

namespace Tier

def name : Tier → String
  | .unused => "unused"
  | .singleUse => "single-use"
  | .wellUsed => "well-used"

def ofCount : Nat → Tier
  | 0 => .unused
  | 1 => .singleUse
  | _ + 2 => .wellUsed

def ofInt (count : Int) : Except Error Tier := do
  require (0 ≤ count) (.negative "total_calls" count)
  return ofCount count.toNat

end Tier

structure Usage.Entry where
  declaration : Declaration
  calls : List Call
deriving DecidableEq, Repr

def Usage.Entry.tier (e : Usage.Entry) : Tier := .ofCount e.calls.length

structure Usage where
  unused : List Usage.Entry
  singleUse : List Usage.Entry
  /-- The most called first; those called equally often in the order of discovery. -/
  wellUsed : List Usage.Entry
deriving DecidableEq, Repr

namespace Usage

def checkTier (tier : Tier) (entries : List Entry) : Except Error Unit :=
  match entries.find? fun e => e.tier ≠ tier with
  | some e => .error (.refused (.wrongTier e.declaration.name tier.name))
  | none => .ok ()

def make (unused singleUse wellUsed : List Entry) : Except Error Usage := do
  checkTier .unused unused
  checkTier .singleUse singleUse
  checkTier .wellUsed wellUsed
  return ⟨unused, singleUse, wellUsed⟩

def total (u : Usage) : Nat := u.unused.length + u.singleUse.length + u.wellUsed.length

def busiestFirst (entries : List Entry) : List Entry :=
  entries.mergeSort fun a b => b.calls.length ≤ a.calls.length

end Usage

def Snapshot.entries (s : Snapshot) : Except Error (List Usage.Entry) :=
  s.declarations.mapM fun d => do return ⟨d, ← s.callsOf d⟩

def Snapshot.usage (s : Snapshot) : Except Error Usage := do
  let entries ← s.entries
  let ofTier (tier : Tier) := entries.filter fun e => e.tier = tier
  Usage.make (ofTier .unused) (ofTier .singleUse) (Usage.busiestFirst (ofTier .wellUsed))

end ScriptAudit
