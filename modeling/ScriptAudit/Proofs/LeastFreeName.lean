import Mathlib.Data.List.Permutation
import Mathlib.Order.Bounds.Basic
import ScriptAudit.Config
import ScriptAudit.Proofs.SavingSteps

/-! The name under which a report is saved, and what saving leaves behind. Names are looked up with
links followed, but files are created without following them. So a link that leads nowhere makes its
name look free, and with no fault from outside it is the only thing that can keep a report from
being created in a directory. -/

namespace ScriptAudit

open ScriptAudit.Path

namespace Disk

variable {d d' : Disk} {root : Path} {here file : Route} {name : Text} {item : Item}

theorem createNew_join_eq_ok : d.createNew (root.join (.down [name])) = .ok (d', file) ↔ ∃ here,
    d.resolve root = .ok here ∧ d.lookUp here name = .stop .missing ∧ file = here ++ [name] ∧
      d' = d.withFile file [] := by
  rw [createNew_eq_ok]
  simp [Path.join, Path.down]

end Disk

theorem Host.openNew_join_eq_ok {h opened : Host} {root : Path} {name : Text} {file : Route}
    (hopen : h.openNew (root.join (.down [name])) = .ok (opened, file)) : ∃ here,
      h.disk.resolve root = .ok here ∧ h.disk.item? (here ++ [name]) = none ∧
        file = here ++ [name] := by
  obtain ⟨-, disk, hdisk, -⟩ := Host.openNew_eq_ok.mp hopen
  obtain ⟨here, hhere, hlook, hfile, -⟩ := Disk.createNew_join_eq_ok.mp hdisk
  exact ⟨here, hhere, (Disk.item?_of_lookUp_missing hlook).2, hfile⟩

namespace Artifact

/-- The names that a report may get, in the order in which they are tried. -/
def reportName (stem : Text) : Nat → Text
  | 0 => stem ++ ".txt"
  | k + 1 => stem ++ "-" ++ Text.ofNat (k + 1) ++ ".txt"

theorem reportName_eq (stem : Text) (k : Nat) :
    reportName stem k = stem ++ (number k ++ ".txt") := by
  cases k with
  | zero => rfl
  | succ k => simp [reportName, number]

theorem isEntryName_reportName {title : Text} (htitle : Config.isPlainName title = true)
    (stamp : Stamp) (k : Nat) : IsEntryName (reportName (stem title stamp) k) := by
  obtain ⟨-, hslash⟩ : title ≠ [] ∧ slash ∉ title := by
    simpa [Config.isPlainName, slash] using htitle
  have hstem : slash ∉ stem title stamp :=
    List.not_mem_append (List.not_mem_append hslash (by decide)) stamp.slash_not_mem_text
  have hmore : slash ∉ number k ++ ".txt" :=
    List.not_mem_append (slash_not_mem_number k) (by decide)
  have hlength : 3 ≤ (number k ++ ".txt").length := by
    simp [Text.ofString]
  rw [reportName_eq]
  exact isEntryName_append hstem hmore hlength

theorem candidate_of_plain (root : Path) {title : Text} (htitle : Config.isPlainName title = true)
    (stamp : Stamp) (k : Nat) :
    candidate root (stem title stamp) k =
      root.join (.down [reportName (stem title stamp) k]) := by
  let name := reportName (stem title stamp) k
  have hread : ofText (down [name]).text = down [name] :=
    ofText_text_down (by simp) (by simpa using isEntryName_reportName htitle stamp k)
  have htext : (down [name]).text = name := by simp [text_down, List.intercalate]
  rw [candidate, List.append_assoc, ← reportName_eq]
  exact congrArg root.join ((congrArg ofText htext).symm.trans hread)

/-- Where the search for a name has ended, the report is put, or a part of it is, or nothing is. -/
theorem Saves.cases {h host : Host} {root : Path} {name : Text} {text : List UInt8}
    {result : Except Disk.Failure Path}
    (hsaves : Saves h (root.join (.down [name])) text host result)
    (hfree : h.disk.exists? (root.join (.down [name])) = .ok false) :
    host = h ∧ (∃ why, result = .error why) ∨
    ∃ here, h.disk.resolve root = .ok here ∧ h.disk.item? (here ++ [name]) = none ∧
      (h.writingFault = none ∧ result = .ok (root.join (.down [name])) ∧
          host = { h with disk := h.disk.withFile (here ++ [name]) text } ∨
        ∃ count why, h.writingFault = some (count, why) ∧ result = .error ⟨why, none⟩ ∧
          host = { h with disk := h.disk.withFile (here ++ [name]) (text.take count) }) := by
  cases hsaves with
  | unknown hprobe =>
    rw [hfree] at hprobe
    cases hprobe
  | unopened _ hopen => exact Or.inl ⟨rfl, _, rfl⟩
  | broken _ hopen hfault =>
    obtain ⟨here, hhere, habsent, rfl⟩ := Host.openNew_join_eq_ok hopen
    exact Or.inr ⟨here, hhere, habsent, Or.inr ⟨_, _, hfault, rfl, rfl⟩⟩
  | saved _ hopen hfault =>
    obtain ⟨here, hhere, habsent, rfl⟩ := Host.openNew_join_eq_ok hopen
    exact Or.inr ⟨here, hhere, habsent, Or.inl ⟨hfault, rfl, rfl⟩⟩

end Artifact

end ScriptAudit
