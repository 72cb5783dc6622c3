import ScriptAudit.Proofs.Rendering
import ScriptAudit.Proofs.Snapshots

/-! How declarations and calls interleave. A graph lists names in the order of their first sighting,
so two histories with the same declarations and, name by name, the same calls may give different
graphs. Names are only ever looked up, though, and never listed: no report tells them apart. -/

namespace ScriptAudit

/-- Two histories that differ only in how declarations, calls of each name and skips interleave. -/
structure SameStreams (es es' : List Entry) : Prop where
  declarations : es.filterMap Entry.declaration? = es'.filterMap Entry.declaration?
  calls : ∀ name, (es.filterMap Entry.call?).filter (·.callee = name) =
    (es'.filterMap Entry.call?).filter (·.callee = name)
  skips : es.countP Entry.isSkip = es'.countP Entry.isSkip

/-- Two graphs with nothing to tell them apart but the order of their names. -/
structure Snapshot.Alike (s s' : Snapshot) : Prop where
  declarations : s.declarations = s'.declarations
  lookups : ∀ name, Ordered.find? name s.calls = Ordered.find? name s'.calls
  skipped : s.skipped = s'.skipped

theorem Entry.mem_names {es : List Entry} {name : String} :
    name ∈ es.filterMap Entry.name? ↔
      name ∈ (es.filterMap Entry.declaration?).map Declaration.name ∨
        (es.filterMap Entry.call?).filter (·.callee = name) ≠ [] := by
  induction es with
  | nil => simp
  | cons e es ih =>
    cases e with
    | declaration d =>
      change name ∈ d.name :: es.filterMap Entry.name? ↔
        name ∈ d.name :: (es.filterMap Entry.declaration?).map Declaration.name ∨ _
      rw [List.mem_cons, List.mem_cons, ih, or_assoc]
      rfl
    | call c =>
      change name ∈ c.callee :: es.filterMap Entry.name? ↔
        _ ∨ (c :: es.filterMap Entry.call?).filter (·.callee = name) ≠ []
      by_cases hc : c.callee = name
      · simp [hc]
      · have hne : name ≠ c.callee := fun h => hc h.symm
        rw [List.filter_cons_of_neg (by simpa using hc), List.mem_cons, ih]
        simp only [hne, false_or]
        rfl
    | skip => exact ih

namespace SameStreams

variable {es es' : List Entry}

theorem mem_names (h : SameStreams es es') (name : String) :
    name ∈ es.filterMap Entry.name? ↔ name ∈ es'.filterMap Entry.name? := by
  rw [Entry.mem_names, Entry.mem_names, h.declarations, h.calls name]

theorem alike (h : SameStreams es es') :
    (CallGraph.empty.addAll es).snapshot.Alike (CallGraph.empty.addAll es').snapshot where
  declarations := by
    have hdecl := CallGraph.declarations_addAll .empty es
    rw [h.declarations, ← CallGraph.declarations_addAll .empty es'] at hdecl
    exact hdecl
  lookups name := by
    change Ordered.find? name (CallGraph.empty.addAll es).calls =
      Ordered.find? name (CallGraph.empty.addAll es').calls
    rw [CallGraph.calls_addAll, CallGraph.calls_addAll, Ordered.find?_map, Ordered.find?_map,
      h.calls name]
    simp only [List.mem_eraseDups, h.mem_names name]
  skipped := by
    have hskipped := CallGraph.skipped_addAll .empty es
    rw [h.skips, ← CallGraph.skipped_addAll .empty es'] at hskipped
    exact hskipped

end SameStreams

namespace Snapshot.Alike

variable {s s' : Snapshot}

theorem callsOf (h : s.Alike s') : s.callsOf = s'.callsOf := by
  funext d
  rw [Snapshot.callsOf, Snapshot.callsOf, h.lookups d.name]

theorem callers (h : s.Alike s') : s.callers = s'.callers := by
  funext d
  rw [Snapshot.callers, Snapshot.callers, h.lookups d.name]

theorem entriesOf (h : s.Alike s') (tier : Tier) : s.entriesOf tier = s'.entriesOf tier := by
  have hentry : s.entry = s'.entry := by
    funext d
    rw [Snapshot.entry, Snapshot.entry, h.callers]
  rw [Snapshot.entriesOf, Snapshot.entriesOf, h.declarations, hentry]

theorem findings (h : s.Alike s') :
    s.declarations.filterMap s.finding? = s'.declarations.filterMap s'.finding? := by
  have hfinding : s.finding? = s'.finding? := by
    funext d
    rw [Snapshot.finding?, Snapshot.finding?, h.callers]
  rw [h.declarations, hfinding]

theorem analysisValue (h : s.Alike s') (threshold : Int) (root : Text) (files : List Text)
    (warnings : List Warning) :
    s'.analysisValue threshold root files warnings =
      { s.analysisValue threshold root files warnings with graph := s' } := by
  have husage : s'.usageValue = s.usageValue := by
    simp only [usageValue, h.entriesOf]
  have hsummary : s'.summaryValue = s.summaryValue := by
    unfold summaryValue
    rw [h.entriesOf .unused, h.entriesOf .singleUse, h.findings, h.declarations, h.skipped]
  simp only [Snapshot.analysisValue, husage, hsummary, h.findings]

theorem inventory (h : s.Alike s') : Report.inventory s = Report.inventory s' := by
  have hline : Report.inventoryLine s = Report.inventoryLine s' := by
    funext indent d
    rw [Report.inventoryLine, Report.inventoryLine, h.callsOf]
  have hclass : Report.classBlock s = Report.classBlock s' := by
    funext owner members
    rw [Report.classBlock, Report.classBlock, hline]
  have hfile : Report.fileBlock s = Report.fileBlock s' := by
    funext file declarations
    rw [Report.fileBlock, Report.fileBlock, hline, hclass]
  rw [Report.inventory, Report.inventory, hfile, h.declarations]

end Snapshot.Alike

namespace Report

theorem render_of_inventory {a : Analysis} {s : Snapshot}
    (h : inventory a.graph = inventory s) : render { a with graph := s } = render a := by
  unfold render
  rw [h]
  rfl

/-- Two histories with the same streams give the same analysis, the order of names apart, and the
same report. -/
theorem report_of_interleaving (es es' : List Entry) (h : SameStreams es es') (threshold : Int)
    (hthreshold : 0 ≤ threshold) (root : Text) (files : List Text) (warnings : List Warning) :
    ∃ s s' a a' lines, (CallGraph.empty.addAll es).freeze = .ok s ∧
      (CallGraph.empty.addAll es').freeze = .ok s' ∧
      s.analyze threshold root files warnings = .ok a ∧
      s'.analyze threshold root files warnings = .ok a' ∧
      a.findings = a'.findings ∧ a.usage = a'.usage ∧ a.summary = a'.summary ∧
      a.recommendations = a'.recommendations ∧
      render a = .ok lines ∧ render a' = .ok lines := by
  have hcounted := CallGraph.counted_addAll CallGraph.counted_empty es
  have hcounted' := CallGraph.counted_addAll CallGraph.counted_empty es'
  have hfreeze := CallGraph.freeze_addAll es
  have hfreeze' := CallGraph.freeze_addAll es'
  have halike := h.alike
  generalize (CallGraph.empty.addAll es).snapshot = s at *
  generalize (CallGraph.empty.addAll es').snapshot = s' at *
  have hanalyze := Snapshot.analyze_ok hcounted hthreshold root files warnings
  have hanalyze' := Snapshot.analyze_ok hcounted' hthreshold root files warnings
  rw [halike.analysisValue threshold root files warnings] at hanalyze'
  obtain ⟨lines, hlines⟩ := render_analysisValue hcounted threshold root files warnings
  have hrender : render { s.analysisValue threshold root files warnings with graph := s' } =
      render (s.analysisValue threshold root files warnings) :=
    render_of_inventory halike.inventory
  exact ⟨s, s', _, _, lines, hfreeze, hfreeze', hanalyze, hanalyze', rfl, rfl, rfl, rfl, hlines,
    hrender.trans hlines⟩

/-- A function that is declared twice, with a call of another one in between, and calls of both. -/
def eager : List Entry :=
  let load : Declaration := ⟨"load", Text.ofString "a.js", 1, true, none, []⟩
  [.declaration load, .skip, .call ⟨"save", Text.ofString "a.js", 2, false⟩,
    .declaration { load with points := [⟨1, .await, "await"⟩] },
    .call ⟨"load", Text.ofString "a.js", 3, true⟩, .call ⟨"save", Text.ofString "b.js", 1, true⟩]

/-- The same with the calls of the other function first and the skip last. -/
def late : List Entry :=
  let load : Declaration := ⟨"load", Text.ofString "a.js", 1, true, none, []⟩
  [.call ⟨"save", Text.ofString "a.js", 2, false⟩, .call ⟨"save", Text.ofString "b.js", 1, true⟩,
    .call ⟨"load", Text.ofString "a.js", 3, true⟩, .declaration load,
    .declaration { load with points := [⟨1, .await, "await"⟩] }, .skip]

theorem sameStreams_eager_late : SameStreams eager late where
  declarations := by decide +kernel
  calls name := by
    let load : Call := ⟨"load", Text.ofString "a.js", 3, true⟩
    let saves : List Call :=
      [⟨"save", Text.ofString "a.js", 2, false⟩, ⟨"save", Text.ofString "b.js", 1, true⟩]
    have heager : eager.filterMap Entry.call? = saves.take 1 ++ [load] ++ saves.drop 1 := by
      decide +kernel
    have hlate : late.filterMap Entry.call? = saves ++ [load] := by decide +kernel
    rw [heager, hlate]
    by_cases hload : "load" = name
    · subst hload
      decide +kernel
    · simp [load, saves, hload, List.filter_cons]
  skips := by decide +kernel

theorem report_of_eager_and_late :
    SameStreams eager late ∧
    (CallGraph.empty.addAll eager).calls ≠ (CallGraph.empty.addAll late).calls ∧
    ∃ s s' a a' lines, (CallGraph.empty.addAll eager).freeze = .ok s ∧
      (CallGraph.empty.addAll late).freeze = .ok s' ∧
      s.analyze 0 [] [] [] = .ok a ∧ s'.analyze 0 [] [] [] = .ok a' ∧
      a.findings = a'.findings ∧ a.usage = a'.usage ∧ a.summary = a'.summary ∧
      a.recommendations = a'.recommendations ∧
      render a = .ok lines ∧ render a' = .ok lines :=
  ⟨sameStreams_eager_late, by decide +kernel,
    report_of_interleaving eager late sameStreams_eager_late 0 (by decide) [] [] []⟩

end Report

end ScriptAudit
