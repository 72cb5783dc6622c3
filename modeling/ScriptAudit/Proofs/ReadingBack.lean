import Mathlib.Data.List.Permutation
import ScriptAudit.Proofs.ReportLines
import ScriptAudit.Proofs.SavingSteps
import ScriptAudit.Proofs.Utf8RoundTrip

/-! A saved report is read back line by line. Its bytes give the characters of its lines, and these
break apart only where a line was ended. -/

namespace ScriptAudit

namespace Text

variable {t : Text} {lines : List Text}

theorem splitOn_unlines (hne : lines ≠ []) (h : ∀ line ∈ lines, newline ∉ line) :
    splitOn newline (unlines lines) = lines ++ [[]] := by
  rw [splitOn_eq, unlines, List.splitOn_append_cons_self, List.splitOn_intercalate newline h hne,
    List.splitOn_nil]

/-- Where there are no stray bytes, nothing is escaped. -/
theorem map_char_display (h : ∀ s ∈ t, ∃ c, s = .char c) :
    t.display.toList.map Symbol.char = t := by
  rw [display, String.toList_ofList]
  induction t with
  | nil => rfl
  | cons s t ih =>
    obtain ⟨⟨c, rfl⟩, ht⟩ := List.forall_mem_cons.mp h
    rw [List.flatMap_cons, List.map_append, ih ht]
    rfl

theorem exists_char_of_mem_unlines (h : ∀ line ∈ lines, IsLine line) :
    ∀ s ∈ unlines lines, ∃ c, s = .char c := by
  have hnewline : ∀ s ∈ [newline], ∃ c, s = .char c :=
    List.forall_mem_singleton.mpr ⟨'\n', rfl⟩
  have hline : ∀ line ∈ lines, ∀ s ∈ line, ∃ c, s = .char c := by
    intro line hmem s hs
    have hplain := h line hmem s hs
    cases s with
    | char c => exact ⟨c, rfl⟩
    | stray b => cases hplain
  exact List.forall_mem_append.mpr ⟨forall_mem_intercalate hnewline hline, hnewline⟩

end Text

namespace Artifact

open ScriptAudit.Text

/-- The bytes of a report give back its lines, and nothing behind the last one. -/
theorem decode_document {lines : List Text} (hne : lines ≠ []) (h : ∀ line ∈ lines, IsLine line) :
    ∃ cs, Utf8.decode (document lines) = .ok cs ∧
      splitOn newline (cs.map .char) = lines ++ [[]] := by
  refine ⟨(unlines lines).display.toList, Utf8.decode_encode _, ?_⟩
  rw [map_char_display (exists_char_of_mem_unlines h)]
  exact splitOn_unlines hne fun line hline => (h line hline).newline_not_mem

/-- What was saved is found where it was said to be saved. -/
theorem read_of_save {h host : Host} {root path : Path} {title : Text} {stamp : Stamp}
    {lines : List Text} (hsave : save h root (stem title stamp) lines = (host, .ok path)) :
    host.disk.read path = .ok (document lines) := by
  obtain ⟨k, -, hsaves⟩ := saves_of_save h root title stamp lines
  rw [hsave] at hsaves
  cases hsaves with
  | @saved opened file hfree hopen hfault =>
    obtain ⟨-, -, -, hgains⟩ := Host.gains_of_openNew hopen
    obtain ⟨hgains, hfile⟩ := hgains (document lines)
    exact Disk.read_eq_ok.mpr ⟨file, hfile, hgains.added⟩

end Artifact

namespace Report

theorem render_ne_nil {a : Analysis} {lines : List Text} (h : render a = .ok lines) :
    lines ≠ [] := by
  obtain ⟨inventoryLines, -, h⟩ := bind_eq_ok.mp h
  obtain ⟨usageLines, -, h⟩ := bind_eq_ok.mp h
  cases h
  simp [header]

/-- An analysis whose graph and usage passed their checks, and which shows no newlines and no stray
bytes, is rendered as lines that do not break. Wherever its report can be saved, the bytes that are
then found there are UTF-8, and they split at the newlines into these lines and an empty rest. -/
theorem saved_report_reads_back {a : Analysis} {declarations : List Declaration}
    {calls : List (String × List Call)} {skipped : Int}
    {unused singleUse wellUsed : List Usage.Entry}
    (hgraph : Snapshot.make declarations calls skipped = .ok a.graph)
    (husage : Usage.make unused singleUse wellUsed = .ok a.usage) (hplain : a.IsPlain) :
    ∃ lines, render a = .ok lines ∧ (∀ line ∈ lines, Text.newline ∉ line) ∧
      ∀ (h host : Host) (root path : Path) (title : Text) (stamp : Stamp),
        Artifact.save h root (Artifact.stem title stamp) lines = (host, .ok path) →
          ∃ bytes cs, host.disk.read path = .ok bytes ∧ Utf8.decode bytes = .ok cs ∧
            Text.splitOn Text.newline (cs.map .char) = lines ++ [[]] := by
  obtain ⟨-, -, hcounted⟩ := Snapshot.make_eq_ok.mp hgraph
  obtain ⟨-, htiers⟩ := Usage.make_eq_ok.mp husage
  obtain ⟨lines, hlines⟩ := render_ok hcounted (htiers .singleUse)
  have hline : ∀ line ∈ lines, Text.IsLine line := render_lines hplain hlines
  obtain ⟨cs, hdecode, hsplit⟩ := Artifact.decode_document (render_ne_nil hlines) hline
  refine ⟨lines, hlines, fun line hmem => (hline line hmem).newline_not_mem, ?_⟩
  intro h host root path title stamp hsave
  exact ⟨Artifact.document lines, cs, Artifact.read_of_save hsave, hdecode, hsplit⟩

/-- An analysis with something to show in every section. -/
def bakery : Analysis where
  root := "./bäckerei"
  files := ["öfen.ts", "teig.ts", "mehl.ts"]
  graph :=
    { declarations := [⟨"heizen", "öfen.ts", 2, true, some "Ofen", []⟩,
        ⟨"kühlen", "öfen.ts", 9, false, some "Ofen", []⟩, ⟨"kneten", "teig.ts", 1, false, none, []⟩]
      calls := [("heizen", [⟨"heizen", "teig.ts", 3, false⟩, ⟨"heizen", "teig.ts", 4, false⟩]),
        ("kühlen", []), ("kneten", [⟨"kneten", "öfen.ts", 5, false⟩])]
      skipped := 1 }
  findings := [⟨⟨"heizen", "öfen.ts", 2, true, some "Ofen", []⟩, [⟨.unnecessaryAsync, []⟩,
    ⟨.missingAwait, [⟨"heizen", "teig.ts", 3, false⟩, ⟨"heizen", "teig.ts", 4, false⟩]⟩]⟩]
  usage :=
    { unused := [⟨⟨"kühlen", "öfen.ts", 9, false, some "Ofen", []⟩, []⟩]
      singleUse := [⟨⟨"kneten", "teig.ts", 1, false, none, []⟩, [⟨"kneten", "öfen.ts", 5, false⟩]⟩]
      wellUsed := [⟨⟨"heizen", "öfen.ts", 2, true, some "Ofen", []⟩,
        [⟨"heizen", "teig.ts", 3, false⟩, ⟨"heizen", "teig.ts", 4, false⟩]⟩] }
  summary := ⟨3, 1, 1, 1, 1, 3⟩
  recommendations := [⟨.cleanup, 1⟩, ⟨.inline, 1⟩, ⟨.asyncFix, 3⟩]
  warnings := [⟨.parse, "mehl.ts", "syntax error", some 7⟩]

def dawn : Stamp := ⟨2024, 3, 9, 4, 30, 0⟩

/-- A directory with nothing in it. -/
def shelf : Host where
  disk := .empty

def dawnReport : Path := .down ["report-2024-03-09T04-30-00.txt"]

theorem bakery_reads_back :
    Snapshot.make bakery.graph.declarations bakery.graph.calls 1 = .ok bakery.graph ∧
    Usage.make bakery.usage.unused bakery.usage.singleUse bakery.usage.wellUsed =
      .ok bakery.usage ∧
    bakery.check = .ok bakery ∧ bakery.IsPlain ∧
    ∃ lines host bytes cs, render bakery = .ok lines ∧
      Artifact.save shelf (.down []) (Artifact.stem "report" dawn) lines = (host, .ok dawnReport) ∧
      host.disk.read dawnReport = .ok bytes ∧ Utf8.decode bytes = .ok cs ∧
      Text.splitOn Text.newline (cs.map .char) = lines ++ [[]] := by
  have hgraph : Snapshot.make bakery.graph.declarations bakery.graph.calls 1 =
      .ok bakery.graph := by decide +kernel
  have husage : Usage.make bakery.usage.unused bakery.usage.singleUse bakery.usage.wellUsed =
      .ok bakery.usage := by decide +kernel
  have hplain : bakery.IsPlain := by
    refine ⟨by decide +kernel, by decide +kernel, by decide +kernel, fun tier => ?_,
      by decide +kernel⟩
    cases tier with
    | unused => decide +kernel
    | singleUse => decide +kernel
    | wellUsed => decide +kernel
  refine ⟨hgraph, husage, by decide +kernel, hplain, ?_⟩
  obtain ⟨lines, hlines, -, hreads⟩ := saved_report_reads_back hgraph husage hplain
  have hpath : Artifact.freePath shelf.disk (.down []) (Artifact.stem "report" dawn) =
      .ok dawnReport := by cbv
  have hopen : shelf.openNew dawnReport =
      .ok ({ disk := shelf.disk.withFile dawnReport.names [] }, dawnReport.names) := by cbv
  have hsave : Artifact.save shelf (.down []) (Artifact.stem "report" dawn) lines =
      ({ disk := (shelf.disk.withFile dawnReport.names []).append dawnReport.names
          (Artifact.document lines) }, .ok dawnReport) := by
    simp only [Artifact.save, hpath, hopen, Host.write]
  obtain ⟨bytes, cs, hread, hdecode, hsplit⟩ := hreads _ _ _ _ _ _ hsave
  exact ⟨lines, _, bytes, cs, hlines, hsave, hread, hdecode, hsplit⟩

end Report

end ScriptAudit
