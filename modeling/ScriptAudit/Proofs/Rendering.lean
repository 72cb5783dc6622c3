import ScriptAudit.Proofs.AnalysisValues
import ScriptAudit.Report

/-! Analysis and report never fail on values that passed their own checks. The check of a graph is
what makes every look-up of the inventory succeed, and the check of the tiers is what gives every
function called once a caller to name. -/

namespace ScriptAudit

namespace Report

section

variable {s : Snapshot}

/-- The calls of every one of these declarations can be looked up. -/
def Countable (s : Snapshot) (ds : List Declaration) : Prop :=
  ∀ d ∈ ds, ∃ calls, s.callsOf d = .ok calls

theorem Countable.subset {ds ds' : List Declaration} (h : Countable s ds) (hsub : ds' ⊆ ds) :
    Countable s ds' := fun d hd => h d (hsub hd)

theorem mapM_inventoryLine_ok {ds : List Declaration} (h : Countable s ds) (indent : String) :
    ∃ lines, ds.mapM (inventoryLine s indent) = .ok lines := by
  apply exists_mapM_eq_ok
  intro d hd
  exact exists_bind_eq_ok (h d hd) fun _ => ⟨_, rfl⟩

theorem classBlock_ok {members : List Declaration} (h : Countable s members) (owner : String) :
    ∃ lines, classBlock s owner members = .ok lines :=
  exists_bind_eq_ok (mapM_inventoryLine_ok h "    ") fun _ => ⟨_, rfl⟩

theorem fileBlock_ok {ds : List Declaration} (h : Countable s ds) (file : Text) :
    ∃ lines, fileBlock s file ds = .ok lines := by
  have hfree : Countable s (ds.filter (·.owner.isNone)) := h.subset (List.filter_subset_self ds)
  refine exists_bind_eq_ok (mapM_inventoryLine_ok hfree "  ") fun free => ?_
  refine exists_bind_eq_ok (exists_mapM_eq_ok ?_) fun _ => ⟨_, rfl⟩
  rintro ⟨owner, members⟩ hgroup
  refine classBlock_ok (h.subset fun d hd => ?_) owner
  obtain ⟨⟨owner', d'⟩, hmember, rfl⟩ := List.mem_map.mp hd
  obtain ⟨d, hd, howner⟩ := List.mem_filterMap.mp (Ordered.mem_of_mem_groupBy hgroup hmember)
  obtain ⟨_, -, he⟩ := Option.map_eq_some_iff.mp howner
  cases he
  exact hd

theorem inventory_ok (h : s.Counted) : ∃ lines, inventory s = .ok lines := by
  have hall : Countable s s.declarations := fun d hd => ⟨_, Snapshot.callsOf_ok h hd⟩
  refine exists_bind_eq_ok (exists_mapM_eq_ok ?_) fun _ => ⟨_, rfl⟩
  rintro ⟨file, declarations⟩ hgroup
  exact fileBlock_ok (hall.subset fun d hd => Ordered.mem_of_mem_groupBy hgroup hd) file

end

theorem singleUseLine_ok {e : Usage.Entry} (h : e.tier = .singleUse) :
    ∃ line, singleUseLine e = .ok line := by
  unfold singleUseLine
  cases hcalls : e.calls with
  | nil => simp [Usage.Entry.tier, hcalls, Tier.ofCount] at h
  | cons caller callers => exact ⟨_, rfl⟩

theorem usage_ok {u : Usage} (h : ∀ e ∈ u.singleUse, e.tier = .singleUse) :
    ∃ lines, usage u = .ok lines :=
  exists_bind_eq_ok (exists_mapM_eq_ok fun e he => singleUseLine_ok (h e he)) fun _ => ⟨_, rfl⟩

theorem render_ok {a : Analysis} (hgraph : a.graph.Counted)
    (husage : ∀ e ∈ a.usage.singleUse, e.tier = .singleUse) :
    ∃ lines, render a = .ok lines :=
  exists_bind_eq_ok (inventory_ok hgraph) fun _ =>
    exists_bind_eq_ok (usage_ok husage) fun _ => ⟨_, rfl⟩

theorem render_analysisValue {s : Snapshot} (h : s.Counted) (threshold : Int) (root : Text)
    (files : List Text) (warnings : List Warning) :
    ∃ lines, render (s.analysisValue threshold root files warnings) = .ok lines :=
  render_ok h fun _ he => Snapshot.tier_of_mem_entriesOf he

/-- A graph that passed its check can be analyzed, and the analysis can be rendered. So can any
analysis that was put together by hand from a graph and a usage that passed theirs, whatever its
other parts are. -/
theorem analysis_and_report_succeed :
    (∀ (declarations : List Declaration) (calls : List (String × List Call)) (skipped : Int)
      (s : Snapshot), Snapshot.make declarations calls skipped = .ok s →
      ∀ threshold : Int, 0 ≤ threshold →
      ∀ (root : Text) (files : List Text) (warnings : List Warning),
        ∃ a lines, s.analyze threshold root files warnings = .ok a ∧ render a = .ok lines) ∧
    (∀ (a : Analysis) (declarations : List Declaration) (calls : List (String × List Call))
      (skipped : Int) (unused singleUse wellUsed : List Usage.Entry),
      Snapshot.make declarations calls skipped = .ok a.graph →
      Usage.make unused singleUse wellUsed = .ok a.usage →
        ∃ lines, render a = .ok lines) := by
  constructor
  · intro declarations calls skipped s hs threshold hthreshold root files warnings
    obtain ⟨-, -, hcounted⟩ := Snapshot.make_eq_ok.mp hs
    obtain ⟨lines, hlines⟩ := render_analysisValue hcounted threshold root files warnings
    exact ⟨_, lines, Snapshot.analyze_ok hcounted hthreshold root files warnings, hlines⟩
  · intro a declarations calls skipped unused singleUse wellUsed hgraph husage
    obtain ⟨-, -, hcounted⟩ := Snapshot.make_eq_ok.mp hgraph
    obtain ⟨-, htiers⟩ := Usage.make_eq_ok.mp husage
    exact render_ok hcounted (htiers .singleUse)

/-- A graph made by hand: two functions share a name, and a call is kept under a name that is not
its own. -/
def twins : Snapshot where
  declarations := [⟨"load", Text.ofString "a.js", 1, true, none, []⟩,
    ⟨"load", Text.ofString "b.js", 7, false, some "Store", [⟨8, .await, "await"⟩]⟩]
  calls := [("save", []), ("load", [⟨"fetch", Text.ofString "a.js", 3, false⟩])]
  skipped := 4

/-- An analysis made by hand, whose usage is about a function that the graph does not know. -/
def handmade : Analysis where
  root := Text.ofString "."
  files := []
  graph := twins
  findings := []
  usage := ⟨[], [⟨⟨"stray", Text.ofString "c.js", 2, false, none, []⟩,
    [⟨"stray", Text.ofString "c.js", 5, false⟩]⟩], []⟩
  summary := ⟨1, 4, 0, 0, 1, 0⟩
  recommendations := [⟨.healthy, 0⟩]
  warnings := []

theorem twins_and_handmade_succeed :
    Snapshot.make twins.declarations twins.calls 4 = .ok twins ∧
    Usage.make [] handmade.usage.singleUse [] = .ok handmade.usage ∧
    handmade.check = .ok handmade ∧
    (∃ a lines, twins.analyze 0 [] [] [] = .ok a ∧ render a = .ok lines) ∧
    ∃ lines, render handmade = .ok lines := by
  have hgraph : Snapshot.make twins.declarations twins.calls 4 = .ok twins := by decide +kernel
  have husage : Usage.make [] handmade.usage.singleUse [] = .ok handmade.usage := by
    decide +kernel
  obtain ⟨hanalysis, hreport⟩ := analysis_and_report_succeed
  exact ⟨hgraph, husage, by decide +kernel, hanalysis _ _ _ _ hgraph 0 (by decide) [] [] [],
    hreport handmade _ _ _ _ _ _ hgraph husage⟩

end Report

end ScriptAudit
