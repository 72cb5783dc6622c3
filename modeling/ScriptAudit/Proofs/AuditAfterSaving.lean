import Mathlib.Data.List.Permutation
import ScriptAudit.Proofs.FailedFiles
import ScriptAudit.Proofs.LeastFreeName
import ScriptAudit.Proofs.Rendering
import ScriptAudit.Proofs.SameSources

/-! An audit after a report was saved. The report, or what was written of it, stands in the
directory that is audited, but it is no source file, and the next audit does not see it. -/

namespace ScriptAudit

open Syntax

theorem Path.suffix_append_txt {front : Text} (hfront : front ≠ []) :
    suffix (front ++ ".txt") = ".txt" := by
  have htail : (front ++ (".txt" : Text)).reverse.takeWhile (· ≠ dot) = ("txt" : Text).reverse := by
    rw [List.reverse_append]
    rfl
  have hlength : 0 < front.length := List.length_pos_iff.mpr hfront
  unfold suffix
  simp only [htail, List.reverse_reverse]
  rw [if_pos]
  · rfl
  · simp [Text.ofString]
    omega

namespace Audit

variable {h : Host} {config : Config} {parse : Grammar → String → Node} {root : Path}
  {report : List Text} {analysis : Analysis}

/-- The paths that a report may get. -/
def MayName (config : Config) (root : Path) (stamp : Stamp) (p : Path) : Prop :=
  ∃ k, p = Artifact.candidate root (Artifact.stem config.reportPrefix stamp) k

/-- No report goes by the name of a source file. -/
theorem MayName.exists_name {stamp : Stamp} {p : Path}
    (htext : Text.ofString ".txt" ∉ config.extensions) (hp : MayName config root stamp p) :
    ∃ name, p.names.getLast? = some name ∧ Discovery.isSourceName config name = false := by
  obtain ⟨k, rfl⟩ := hp
  obtain ⟨front, hfront, -, hlast⟩ :=
    Artifact.candidate_getLast? root config.reportPrefix stamp k
  refine ⟨_, hlast, ?_⟩
  have hlower : (Text.ofString ".txt").lower = ".txt" := by decide +kernel
  rw [Discovery.isSourceName, Path.suffix_append_txt hfront, Discovery.hasSourceSuffix, hlower]
  simpa using htext

/-- What can become of a report: nothing changes, or the directory gets a new file whose name is not
that of a source file. If the report counts as saved, that is where it stands. -/
inductive Kept (h : Host) (config : Config) (root : Path) (report : List Text) :
    Option Path → Host → Prop
  | unchanged : Kept h config root report none h
  | added {saved : Option Path} {base : Route} {name : Text} {disk : Disk} {bytes : List UInt8}
      (hroot : h.disk.resolve root = .ok base)
      (hgains : h.disk.Gains disk (base ++ [name]) bytes)
      (hfollow : h.disk.CanFollow (root.join (.down [name])))
      (hname : Discovery.isSourceName config name = false)
      (hsaved : ∀ path, saved = some path → disk.resolve path = .ok (base ++ [name]) ∧
        bytes = Artifact.document report) :
      Kept h config root report saved { h with disk := disk }

theorem kept_keep (h : Host) (root : Path) (stamp : Stamp) (report : List Text)
    (htext : Text.ofString ".txt" ∉ config.extensions)
    (htitle : Config.isPlainName config.reportPrefix = true) :
    Kept h config root report (keep h config root stamp report).1
      (keep h config root stamp report).2.1 := by
  obtain ⟨k, -, hsaves⟩ := Artifact.saves_of_save h root config.reportPrefix stamp report
  have hnamed : MayName config root stamp _ := ⟨k, rfl⟩
  rw [Artifact.candidate_of_plain root htitle] at hsaves hnamed
  generalize Artifact.reportName (Artifact.stem config.reportPrefix stamp) k = name at hsaves hnamed
  have hname : Discovery.isSourceName config name = false := by
    obtain ⟨name', hlast, hname⟩ := hnamed.exists_name htext
    obtain rfl : name = name' := by simpa [Path.join, Path.down] using hlast
    exact hname
  unfold keep
  generalize Artifact.save h root (Artifact.stem config.reportPrefix stamp) report = done
    at hsaves ⊢
  obtain ⟨host, result⟩ := done
  cases hsaves with
  | unknown _ => exact .unchanged
  | unopened _ _ => exact .unchanged
  | broken hfree hopen _ =>
    obtain ⟨base, hroot, -, rfl⟩ := Host.openNew_join_eq_ok hopen
    obtain ⟨-, -, -, hgains⟩ := Host.gains_of_openNew hopen
    refine .added hroot (hgains _).1 (Disk.canFollow_of_exists? hfree) hname
      fun _ hpath => ?_
    cases hpath
  | saved hfree hopen _ =>
    obtain ⟨base, hroot, -, rfl⟩ := Host.openNew_join_eq_ok hopen
    obtain ⟨-, -, -, hgains⟩ := Host.gains_of_openNew hopen
    refine .added hroot (hgains _).1 (Disk.canFollow_of_exists? hfree) hname
      fun path hpath => ?_
    cases hpath
    exact ⟨(hgains _).2, rfl⟩

namespace Kept

variable {saved : Option Path} {host : Host}

theorem faults_eq (hkept : Kept h config root report saved host) : host.faults = h.faults := by
  cases hkept with
  | unchanged => rfl
  | added _ _ _ _ _ => rfl

theorem sameSources (hkept : Kept h config root report saved host)
    (hlinks : h.disk.HasNoDanglingLinks) {base : Route}
    (hbase : h.disk.resolve root = .ok base) :
    Discovery.SameSources config root base h.disk host.disk := by
  cases hkept with
  | unchanged => exact .refl config root base h.disk
  | added hroot hgains hfollow hname _ =>
    rw [hbase] at hroot
    cases hroot
    refine .of_gains hgains hlinks (by simp) hname fun way name hfile => ?_
    rw [List.append_assoc] at hfile
    rw [← List.append_cancel_left hfile]
    exact hfollow

/-- What could be read before can still be read. -/
theorem read (hkept : Kept h config root report saved host) {p : Path} {r : Route}
    {bytes : List UInt8} (hr : h.disk.resolve p = .ok r)
    (hbytes : h.disk.item? r = some (.file bytes)) :
    host.disk.read p = .ok bytes := by
  cases hkept with
  | unchanged => exact Disk.read_eq_ok.mpr ⟨r, hr, hbytes⟩
  | added _ hgains _ _ _ =>
    exact Disk.read_eq_ok.mpr ⟨r, hgains.keeps.resolve hr, hgains.item?_eq hbytes⟩

theorem stands (hkept : Kept h config root report saved host) {path : Path}
    (hpath : saved = some path) : ∃ file, host.disk.resolve path = .ok file ∧
      host.disk.item? file = some (.file (Artifact.document report)) := by
  cases hkept with
  | unchanged => cases hpath
  | added _ hgains _ _ hsaved =>
    obtain ⟨hfile, rfl⟩ := hsaved path hpath
    exact ⟨_, hfile, hgains.added⟩

end Kept

/-- A run that comes to a report: files are discovered, examined, and what is found is rendered. -/
structure Reports (h : Host) (config : Config) (parse : Grammar → String → Node) (root : Path)
    (found : Discovery) (analysis : Analysis) (report : List Text) : Prop where
  discovered : ∃ events, Discovery.discover h config root = .ok (found, events)
  examined : ∃ more, examine config (load h parse root) root found = .ok (analysis, more)
  rendered : Report.render analysis = .ok report

/-- Whether a run comes to a report does not depend on whether and when it is to be saved. -/
theorem run_cases (h : Host) (config : Config) (parse : Grammar → String → Node) (root : Path) :
    (∃ why, ∀ stamp, run h config parse root stamp = .error why) ∨
      ∃ found analysis report, Reports h config parse root found analysis report := by
  cases hfound : Discovery.discover h config root with
  | error why => exact Or.inl ⟨_, fun _ => run_of_undiscovered hfound⟩
  | ok result =>
    obtain ⟨found, events⟩ := result
    cases hexamine : examine config (load h parse root) root found with
    | error why => exact Or.inl ⟨.refused why, fun _ => by simp only [run, hfound, hexamine]⟩
    | ok result =>
      obtain ⟨analysis, more⟩ := result
      cases hrender : Report.render analysis with
      | error why =>
        exact Or.inl ⟨.refused why, fun _ => by simp only [run, hfound, hexamine, hrender]⟩
      | ok report =>
        exact Or.inr ⟨found, analysis, report, ⟨events, hfound⟩, ⟨more, hexamine⟩, hrender⟩

/-- A run after a report was kept comes to the same report. -/
theorem Reports.after {found : Discovery} {saved : Option Path} {host : Host} {stamp : Stamp}
    (hreports : Reports h config parse root found analysis report)
    (htext : Text.ofString ".txt" ∉ config.extensions)
    (hkept : Kept h config root report saved host) (hd : h.disk.HasEntryNames)
    (hlinks : h.disk.HasNoDanglingLinks) {git : Listing}
    (hgit : Listing.Follows root (MayName config root stamp) h.git git) :
    Reports { host with git := git } config parse root found analysis report := by
  obtain ⟨⟨events, hfound⟩, ⟨more, hexamine⟩, hrender⟩ := hreports
  let later : Host := { host with git := git }
  have hsame {base : Route} (hbase : h.disk.resolve root = .ok base) :
      Discovery.SameSources config root base h.disk later.disk := hkept.sameSources hlinks hbase
  have hfaults : later.faults = h.faults := hkept.faults_eq
  obtain ⟨base, hroot, -⟩ := Discovery.discover_eq_ok hfound
  refine ⟨Discovery.SameSources.discover_ok (fun _ => hsame) hfaults hgit
    (fun _ hpath => hpath.exists_name htext) hfound, ⟨more, ?_⟩, hrender⟩
  rw [← hexamine]
  exact examine_congr fun file hfile =>
    load_eq (hsame hroot) hfaults parse (Discovery.isFile_of_discover hd hfound hfile)

section

variable (htext : Text.ofString ".txt" ∉ config.extensions)
  (htitle : Config.isPlainName config.reportPrefix = true)

include htext htitle

theorem Reports.run_ok {found : Discovery}
    (hreports : Reports h config parse root found analysis report) (stamp : Option Stamp) :
    ∃ out, run h config parse root stamp = .ok out ∧ out.analysis = analysis ∧
      out.report = report ∧ Kept h config root report out.saved out.host ∧
      ∀ s, stamp = some s → out.saved = (keep h config root s report).1 := by
  obtain ⟨⟨events, hfound⟩, ⟨more, hexamine⟩, hrender⟩ := hreports
  simp only [run, hfound, hexamine, hrender]
  cases stamp with
  | none => exact ⟨_, rfl, rfl, rfl, .unchanged, by simp⟩
  | some s =>
    refine ⟨_, rfl, rfl, rfl, kept_keep h root s report htext htitle, fun s' hs => ?_⟩
    cases hs
    rfl

theorem run_eq_ok {stamp : Option Stamp} {out : Outcome}
    (hrun : run h config parse root stamp = .ok out) : ∃ found,
      Reports h config parse root found out.analysis out.report ∧
      Kept h config root out.report out.saved out.host ∧
      ∀ s, stamp = some s → out.saved = (keep h config root s out.report).1 := by
  rcases run_cases h config parse root with ⟨why, hwhy⟩ | ⟨found, analysis, report, hreports⟩
  · rw [hwhy] at hrun
    cases hrun
  · obtain ⟨out', hrun', rfl, rfl, hkept, hsaved⟩ := hreports.run_ok htext htitle stamp
    rw [hrun'] at hrun
    cases hrun
    exact ⟨found, hreports, hkept, hsaved⟩

end

/-- An audit in a directory comes to a report exactly if nothing is refused that a discovery looks
at. If it does, and is repeated after its report was saved, it comes to the same analysis and the
same report, and the report that was saved first is still there. If it does not, it never does. -/
theorem saving_disturbs_no_audit (h : Host) (config : Config) (parse : Grammar → String → Node)
    (root : Path) (stamp : Stamp) (hd : h.disk.HasEntryNames)
    (hlinks : h.disk.HasNoDanglingLinks) (htext : Text.ofString ".txt" ∉ config.extensions)
    (htitle : Config.isPlainName config.reportPrefix = true) :
    (∀ base, h.disk.resolve root = .ok base → h.disk.item? base = some .directory →
      0 ≤ config.inlineThreshold →
      (∀ found events, Discovery.discover h config root = .ok (found, events) →
        ∀ file ∈ found.files, IsAccountable config (load h parse root) file) →
      ((∃ first, run h config parse root (some stamp) = .ok first) ↔
        Discovery.Unhindered h config root base)) ∧
    (∀ why, run h config parse root (some stamp) = .error why →
      ∀ stamp', run h config parse root stamp' = .error why) ∧
    ∀ first, run h config parse root (some stamp) = .ok first →
      ∀ git, Listing.Follows root (MayName config root stamp) h.git git →
      ∀ stamp' : Option Stamp,
      ∃ second, run { first.host with git := git } config parse root stamp' = .ok second ∧
        second.analysis = first.analysis ∧ second.report = first.report ∧
        ∀ path, first.saved = some path →
          first.host.disk.read path = .ok (Artifact.document first.report) ∧
          second.host.disk.read path = .ok (Artifact.document first.report) := by
  refine ⟨fun base hroot hbase hthreshold hload => ?_, fun why hwhy stamp' => ?_,
    fun first hfirst git hgit stamp' => ?_⟩
  · rw [← Discovery.discover_isOk_iff hroot hbase]
    constructor
    · rintro ⟨first, hfirst⟩
      obtain ⟨found, ⟨⟨events, hfound⟩, -, -⟩, -⟩ := run_eq_ok htext htitle hfirst
      exact ⟨_, hfound⟩
    · rintro ⟨⟨found, events⟩, hfound⟩
      have hload := hload found events hfound
      obtain ⟨-, hfiles, -⟩ := Discovery.files_of_discover hd hfound
      obtain ⟨more, hexamine⟩ := examine_ok root hthreshold hfiles hload
      obtain ⟨report, hrender⟩ := Report.render_analysisValue
        (Survey.build_counted (builds_trees hload)) config.inlineThreshold root.text found.files
        (found.warnings ++ found.files.filterMap (warning? (load h parse root)))
      have hreports : Reports h config parse root found _ report :=
        ⟨⟨events, hfound⟩, ⟨more, hexamine⟩, hrender⟩
      obtain ⟨first, hfirst, -⟩ := hreports.run_ok htext htitle (some stamp)
      exact ⟨first, hfirst⟩
  · rcases run_cases h config parse root with ⟨why', hwhy'⟩ | ⟨found, analysis, report, hreports⟩
    · rw [hwhy'] at hwhy ⊢
      exact hwhy
    · obtain ⟨out, hout, -⟩ := hreports.run_ok htext htitle (some stamp)
      rw [hout] at hwhy
      cases hwhy
  · obtain ⟨found, hreports, hkept, -⟩ := run_eq_ok htext htitle hfirst
    have hagain := hreports.after htext hkept hd hlinks hgit
    obtain ⟨second, hsecond, hanalysis, hreport, hkept', -⟩ :=
      hagain.run_ok htext htitle stamp'
    refine ⟨second, hsecond, hanalysis, hreport, fun path hpath => ?_⟩
    obtain ⟨file, hfile, hbytes⟩ := hkept.stands hpath
    exact ⟨Disk.read_eq_ok.mpr ⟨file, hfile, hbytes⟩, hkept'.read hfile hbytes⟩

/-- Two scripts under version control. One is a link to the other and cannot be read. -/
def workshop : Host where
  disk :=
    { entries := [(["app.js"], .file []), (["again.js"], .link "/app.js"), (["shut"], .directory)]
      barred := [["shut"]] }
  faults := [("again.js", .denied)]
  git := .names ["again.js", "app.js"]

def noon : Stamp := ⟨2024, 3, 9, 12, 0, 0⟩

def noonReport : Path := .down ["function-analysis-report-2024-03-09T12-00-00.txt"]

theorem workshop_discovered : Discovery.discover workshop .default (.down []) =
    .ok (⟨["again.js", "app.js"], [], .git⟩, [.listed 2 "."]) := by
  refine Discovery.discover_of_listing (Disk.resolve_down_nil _) rfl rfl rfl ?_
  rw [Discovery.fromListing_of_accepted ["again.js", "app.js"] (by decide +kernel)]
  cbv

theorem workshop_has_no_dangling_links : workshop.disk.HasNoDanglingLinks := by
  intro here name target hlink
  have hentry := Disk.mem_entries_of_item? (by simp) hlink
  obtain ⟨⟨rfl, rfl⟩, -⟩ : (here = [] ∧ name = "again.js") ∧ target = "/app.js" := by
    simpa [workshop, List.append_eq_singleton_iff] using hentry
  have hfollow : workshop.disk.follow Disk.maxHops [] ["again.js"] = .ok ["app.js"] := by cbv
  rw [hfollow]
  simp

theorem workshop_accountable {file : Text} (hfile : file ∈ [Text.ofString "again.js", "app.js"]) :
    IsAccountable .default (load workshop (fun _ _ => goodScript) (.down [])) file := by
  rcases List.mem_pair.mp hfile with rfl | rfl
  · have hsource : source workshop (.down []) "again.js" =
        .error ⟨"again.js", "permission denied"⟩ := by cbv
    have htree : (load workshop (fun _ _ => goodScript) (.down []) "again.js").tree =
        .error (.unreadable ⟨"again.js", "permission denied"⟩) := by
      rw [load, hsource]
    refine .of_mishap .default htree ⟨rfl, by decide, fun line hline => ?_⟩
    cases hline
  · have hsource : source workshop (.down []) "app.js" = .ok "" := by cbv
    have htree : (load workshop (fun _ _ => goodScript) (.down []) "app.js").tree =
        .ok goodScript := by
      rw [load, hsource]
      rfl
    exact .of_tree htree (by decide +kernel)

theorem saving_disturbs_no_audit_of_workshop : ∃ first second,
    run workshop .default (fun _ _ => goodScript) (.down []) (some noon) = .ok first ∧
    first.saved = some noonReport ∧
    run { first.host with git := .names ["again.js", "app.js", noonReport.text] } .default
      (fun _ _ => goodScript) (.down []) (some noon) = .ok second ∧
    second.analysis = first.analysis ∧ second.report = first.report ∧
    second.host.disk.read noonReport = .ok (Artifact.document first.report) := by
  have htext : Text.ofString ".txt" ∉ Config.default.extensions := by decide
  have htitle : Config.isPlainName Config.default.reportPrefix = true := by decide
  have hroot : workshop.disk.resolve (.down []) = .ok [] := Disk.resolve_down_nil _
  obtain ⟨hruns, -, hagain⟩ := saving_disturbs_no_audit workshop .default (fun _ _ => goodScript)
    (.down []) noon (by decide) workshop_has_no_dangling_links htext htitle
  have hunhindered : Discovery.Unhindered workshop .default (.down []) [] :=
    (Discovery.discover_isOk_iff hroot rfl).mp ⟨_, workshop_discovered⟩
  have hload : ∀ found events,
      Discovery.discover workshop .default (.down []) = .ok (found, events) →
      ∀ file ∈ found.files,
        IsAccountable .default (load workshop (fun _ _ => goodScript) (.down [])) file := by
    intro found events hfound file hfile
    rw [workshop_discovered] at hfound
    cases hfound
    exact workshop_accountable hfile
  obtain ⟨first, hfirst⟩ := (hruns [] hroot rfl (by decide) hload).mpr hunhindered
  have hfree : Artifact.freePath workshop.disk (.down [])
      (Artifact.stem Config.default.reportPrefix noon) = .ok noonReport := by cbv
  have hopen : workshop.openNew noonReport =
      .ok ({ workshop with disk := workshop.disk.withFile noonReport.names [] },
        noonReport.names) := by cbv
  have hsaved : first.saved = some noonReport := by
    obtain ⟨-, -, -, hsaved⟩ := run_eq_ok htext htitle hfirst
    have hfault : workshop.writingFault = none := rfl
    simp only [hsaved noon rfl, keep, Artifact.save, hfree, hopen, Host.write, hfault]
  have hgit : Listing.Follows (.down []) (MayName .default (.down []) noon) workshop.git
      (.names ["again.js", "app.js", noonReport.text]) := by
    refine .names (by simp) fun t ht => ?_
    obtain ht | rfl : t ∈ [Text.ofString "again.js", "app.js"] ∨ t = noonReport.text := by
      simpa [or_assoc] using ht
    · exact Or.inl ht
    · exact Or.inr ⟨0, by cbv⟩
  obtain ⟨second, hsecond, hanalysis, hreport, hread⟩ := hagain first hfirst _ hgit (some noon)
  exact ⟨first, second, hfirst, hsaved, hsecond, hanalysis, hreport, (hread _ hsaved).2⟩

end Audit

end ScriptAudit
