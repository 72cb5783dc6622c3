/-! Collections in the order in which their keys were first seen. -/

namespace ScriptAudit.Ordered

variable {α κ : Type} [DecidableEq κ]

/-- Takes the place of the element with the same key, or else comes last. -/
def put (key : α → κ) (x : α) : List α → List α
  | [] => [x]
  | y :: rest => if key y = key x then x :: rest else y :: put key x rest

def ofList (key : α → κ) (xs : List α) : List α := xs.foldl (fun acc x => put key x acc) []

/-- Adds `x` to the group of the key `k`, opening the group if there is none. -/
def addTo (k : κ) (xs : List α) : List (κ × List α) → List (κ × List α)
  | [] => [(k, xs)]
  | (k', group) :: rest =>
    if k' = k then (k', group ++ xs) :: rest else (k', group) :: addTo k xs rest

/-- The elements by key: groups in the order of their first element, each in the order given. -/
def groupBy (key : α → κ) (xs : List α) : List (κ × List α) :=
  xs.foldl (fun groups x => addTo (key x) [x] groups) []

def find? (k : κ) (groups : List (κ × List α)) : Option (List α) :=
  (groups.find? fun g => g.1 = k).map Prod.snd

end ScriptAudit.Ordered
