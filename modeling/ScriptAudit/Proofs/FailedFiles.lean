import Mathlib.Data.List.Permutation
import ScriptAudit.Audit
import ScriptAudit.Proofs.DirectoryWalk
import ScriptAudit.Proofs.FileOrder

/-! Files that cannot be read or parsed. Each leaves a warning in the place of its entries, and the
rest of an audit is that of the other files alone. -/

namespace ScriptAudit

open Syntax

namespace Survey

theorem file_of_mem_fileCalls {config : Config} {file : Text × Node} {c : Call}
    (h : c ∈ (fileEntries config file).filterMap Entry.call?) : c.file = file.1 := by
  obtain ⟨entry, hentry, hc⟩ := List.mem_filterMap.mp h
  obtain ⟨f, -, hf⟩ := exists_entryAt?_of_mem_fileEntries hentry
  cases entry with
  | call c' =>
    obtain rfl : c' = c := Option.some.inj hc
    obtain ⟨callee, -, rfl⟩ := call_eq_of_nodeEntry hf
    rfl
  | declaration d => cases hc
  | skip => cases hc

end Survey

namespace Grammar

theorem rejection_names (path : Text) (tree : Node) :
    (rejection path tree).path = path ∧ (rejection path tree).reason ≠ "" := by
  unfold rejection
  cases Node.firstError? [tree] with
  | none => simp
  | some n =>
    cases hmissing : n.missing with
    | true => simp [hmissing]
    | false => simp [hmissing]

/-- If all grammars fail, the reason is given for the path that was tried. -/
theorem tryAll_names {path : Text} {read : Grammar → Node} {first : Option Node}
    {grammars : List Grammar} {why : Rejection}
    (h : (tryAll path read first grammars).result = .error why) :
    why.path = path ∧ why.reason ≠ "" := by
  induction grammars generalizing first with
  | nil =>
    cases first with
    | none =>
      cases h
      simp
    | some tree =>
      cases h
      exact rejection_names path tree
  | cons g rest ih =>
    unfold tryAll at h
    cases herror : (read g).hasError with
    | true =>
      simp only [herror, if_true] at h
      exact ih h
    | false =>
      simp only [herror] at h
      cases h

end Grammar

namespace Audit

theorem readingFault_ne (fault : Disk.Fault) : readingFault fault ≠ "" := by
  cases fault <;> decide

namespace Mishap

def path : Mishap → Text
  | .rejected why => why.path
  | .unreadable why => why.path

def reason : Mishap → String
  | .rejected why => why.reason
  | .unreadable why => why.reason

def line? : Mishap → Option Int
  | .rejected why => why.line
  | .unreadable _ => none

def kind : Mishap → Warning.Kind
  | .rejected _ => .parse
  | .unreadable _ => .filesystem

/-- The warning that a mishap with a file leaves. -/
def warning (file : Text) (why : Mishap) : Warning := ⟨why.kind, file, why.reason, why.line?⟩

/-- A mishap that says which file it is about and what is wrong with it. -/
def Concerns (file : Text) (why : Mishap) : Prop :=
  why.path = file ∧ why.reason ≠ "" ∧ ∀ line, why.line? = some line → 1 ≤ line

end Mishap

theorem source_names {h : Host} {root : Path} {file : Text} {why : Unreadable}
    (hwhy : source h root file = .error why) : why.path = file ∧ why.reason ≠ "" := by
  unfold source at hwhy
  cases hread : h.read (root.join (.ofText file)) with
  | error fault =>
    rw [hread] at hwhy
    cases hwhy
    exact ⟨rfl, readingFault_ne fault⟩
  | ok bytes =>
    simp only [hread] at hwhy
    cases hdecode : Utf8.decodeSource bytes with
    | error fault =>
      rw [hdecode] at hwhy
      cases hwhy
      simp
    | ok text =>
      rw [hdecode] at hwhy
      cases hwhy

/-- Whatever goes wrong when a file is read, the mishap names the file and says why. -/
theorem load_names {h : Host} {parse : Grammar → String → Node} {root : Path} {file : Text}
    {why : Mishap} (hwhy : (load h parse root file).tree = .error why) :
    why.path = file ∧ why.reason ≠ "" := by
  unfold load at hwhy
  cases hsource : source h root file with
  | error unreadable =>
    rw [hsource] at hwhy
    cases hwhy
    exact source_names hsource
  | ok text =>
    simp only [hsource] at hwhy
    cases hresult : (Grammar.choose file fun g => parse g text).result with
    | ok chosen =>
      rw [hresult] at hwhy
      cases hwhy
    | error rejection =>
      rw [hresult] at hwhy
      cases hwhy
      exact Grammar.tryAll_names hresult

variable {config : Config} {load : Text → Reading} {file : Text} {files : List Text}

/-- A file that either gives a tree that can be added, or a mishap that concerns it. -/
structure IsAccountable (config : Config) (load : Text → Reading) (file : Text) : Prop where
  builds : ∀ tree, (load file).tree = .ok tree → Survey.builds config [(file, tree)]
  concerns : ∀ why, (load file).tree = .error why → why.Concerns file

theorem IsAccountable.of_tree {tree : Node} (htree : (load file).tree = .ok tree)
    (hbuilds : Survey.builds config [(file, tree)]) : IsAccountable config load file := by
  refine ⟨fun tree' htree' => ?_, fun why hwhy => ?_⟩
  · rw [htree] at htree'
    cases htree'
    exact hbuilds
  · rw [htree] at hwhy
    cases hwhy

theorem IsAccountable.of_mishap {why : Mishap} (config : Config)
    (hwhy : (load file).tree = .error why) (hconcerns : why.Concerns file) :
    IsAccountable config load file := by
  refine ⟨fun tree htree => ?_, fun why' hwhy' => ?_⟩
  · rw [hwhy] at htree
    cases htree
  · rw [hwhy] at hwhy'
    cases hwhy'
    exact hconcerns

def tree? (load : Text → Reading) (file : Text) : Option (Text × Node) :=
  match (load file).tree with
  | .ok tree => some (file, tree)
  | .error _ => none

def warning? (load : Text → Reading) (file : Text) : Option Warning :=
  match (load file).tree with
  | .ok _ => none
  | .error why => some (why.warning file)

theorem tree?_eq_some {pair : Text × Node} : tree? load file = some pair ↔
    ∃ tree, (load file).tree = .ok tree ∧ pair = (file, tree) := by
  unfold tree?
  cases (load file).tree with
  | ok tree => simp [eq_comm]
  | error why => simp

theorem warning?_eq_some {w : Warning} : warning? load file = some w ↔
    ∃ why, (load file).tree = .error why ∧ w = why.warning file := by
  unfold warning?
  cases (load file).tree with
  | ok tree => simp
  | error why => simp [eq_comm]

theorem addFile_of_tree {tree : Node} (htree : (load file).tree = .ok tree)
    (hbuilds : Survey.builds config [(file, tree)]) (p : Progress) :
    ∃ events, addFile config load p file =
      .ok ⟨(Survey.addTree config file tree p.graph).1, p.warnings, events⟩ := by
  have hsound : Survey.IsSound config (file, tree) :=
    Survey.builds_iff.mp hbuilds _ List.mem_cons_self
  have hok := (Survey.addTree_isOk_iff config file tree p.graph).mpr hsound
  simp only [addFile, htree]
  cases hstats : (Survey.addTree config file tree p.graph).2 with
  | error e =>
    rw [hstats] at hok
    cases hok
  | ok stats => exact ⟨_, rfl⟩

theorem Mishap.check_warning {why : Mishap} (hfile : file ≠ []) (hwhy : why.Concerns file) :
    (why.warning file).check = .ok (why.warning file) := by
  obtain ⟨-, hreason, hline⟩ := hwhy
  have hpath : file.isEmpty = false := List.isEmpty_eq_false_iff.mpr hfile
  cases hwhere : why.line? with
  | none =>
    simp [Warning.check, warning, require, hpath, hreason, hwhere, bind, Except.bind, pure,
      Except.pure]
  | some line =>
    simp [Warning.check, warning, require, hpath, hreason, hwhere, hline line hwhere, bind,
      Except.bind, pure, Except.pure]

theorem addFile_of_mishap {why : Mishap} (config : Config)
    (htree : (load file).tree = .error why) (hfile : file ≠ []) (hwhy : why.Concerns file)
    (p : Progress) :
    ∃ events, addFile config load p file =
      .ok ⟨p.graph, p.warnings ++ [why.warning file], events⟩ := by
  have hcheck := Mishap.check_warning hfile hwhy
  obtain ⟨rfl, -⟩ := hwhy
  cases why with
  | rejected why =>
    simp only [addFile, htree]
    change Warning.check ⟨.parse, why.path, why.reason, why.line⟩ = _ at hcheck
    rw [hcheck]
    exact ⟨_, rfl⟩
  | unreadable why =>
    simp only [addFile, htree]
    change Warning.check ⟨.filesystem, why.path, why.reason, none⟩ = _ at hcheck
    rw [hcheck]
    exact ⟨_, rfl⟩

/-- Adding files one by one adds the trees of some and the warnings of the others. -/
theorem addFiles_ok (hfiles : ∀ file ∈ files, file ≠ [])
    (hload : ∀ file ∈ files, IsAccountable config load file) (p : Progress) :
    ∃ events, files.foldlM (addFile config load) p =
      .ok ⟨(Survey.addTrees config p.graph (files.filterMap (tree? load))).1,
        p.warnings ++ files.filterMap (warning? load), events⟩ := by
  induction files generalizing p with
  | nil => exact ⟨p.events, by simp [Survey.addTrees, pure, Except.pure]⟩
  | cons file files ih =>
    obtain ⟨hfile, hfiles⟩ := List.forall_mem_cons.mp hfiles
    obtain ⟨hone, hload⟩ := List.forall_mem_cons.mp hload
    cases htree : (load file).tree with
    | ok tree =>
      obtain ⟨events, hstep⟩ := addFile_of_tree htree (hone.builds tree htree) p
      obtain ⟨events, hrest⟩ :=
        ih hfiles hload ⟨(Survey.addTree config file tree p.graph).1, p.warnings, events⟩
      have htree? : tree? load file = some (file, tree) := tree?_eq_some.mpr ⟨tree, htree, rfl⟩
      have hwarning? : warning? load file = none := by rw [warning?, htree]
      refine ⟨events, ?_⟩
      rw [List.foldlM_cons, hstep, List.filterMap_cons_some htree?,
        List.filterMap_cons_none hwarning?]
      exact hrest
    | error why =>
      obtain ⟨events, hstep⟩ := addFile_of_mishap config htree hfile (hone.concerns why htree) p
      obtain ⟨events, hrest⟩ :=
        ih hfiles hload ⟨p.graph, p.warnings ++ [why.warning file], events⟩
      have htree? : tree? load file = none := by rw [tree?, htree]
      have hwarning? : warning? load file = some (why.warning file) :=
        warning?_eq_some.mpr ⟨why, htree, rfl⟩
      refine ⟨events, ?_⟩
      rw [List.foldlM_cons, hstep, List.filterMap_cons_none htree?,
        List.filterMap_cons_some hwarning?,
        List.append_cons p.warnings (why.warning file) (files.filterMap (warning? load))]
      exact hrest

theorem builds_trees (hload : ∀ file ∈ files, IsAccountable config load file) :
    Survey.builds config (files.filterMap (tree? load)) := by
  refine Survey.builds_iff.mpr fun pair hpair => ?_
  obtain ⟨file, hfile, hpair⟩ := List.mem_filterMap.mp hpair
  obtain ⟨tree, htree, rfl⟩ := tree?_eq_some.mp hpair
  exact Survey.builds_iff.mp ((hload file hfile).builds tree htree) _ List.mem_cons_self

theorem isOk_of_mem_trees {pair : Text × Node} (hpair : pair ∈ files.filterMap (tree? load)) :
    pair.1 ∈ files ∧ (load pair.1).tree.isOk = true := by
  obtain ⟨file, hfile, hpair⟩ := List.mem_filterMap.mp hpair
  obtain ⟨tree, htree, rfl⟩ := tree?_eq_some.mp hpair
  exact ⟨hfile, by rw [htree]; rfl⟩

/-- A file has a warning of its own exactly if it has no tree. -/
theorem any_warning? (hfile : file ∈ files) :
    ((files.filterMap (warning? load)).any fun w => w.path = file) = !(load file).tree.isOk := by
  cases htree : (load file).tree with
  | ok tree =>
    refine List.any_eq_false.mpr fun w hw hpath => ?_
    obtain ⟨other, -, hwarning⟩ := List.mem_filterMap.mp hw
    obtain ⟨why, hwhy, rfl⟩ := warning?_eq_some.mp hwarning
    obtain rfl : other = file := of_decide_eq_true hpath
    rw [htree] at hwhy
    cases hwhy
  | error why =>
    have hwarning : warning? load file = some (why.warning file) :=
      warning?_eq_some.mpr ⟨why, htree, rfl⟩
    exact List.any_eq_true.mpr
      ⟨_, List.mem_filterMap.mpr ⟨file, hfile, hwarning⟩, decide_eq_true rfl⟩

theorem examine_ok (root : Path) {found : Discovery} (hthreshold : 0 ≤ config.inlineThreshold)
    (hfiles : ∀ file ∈ found.files, file ≠ [])
    (hload : ∀ file ∈ found.files, IsAccountable config load file) :
    ∃ log, examine config load root found =
      .ok ((Survey.build config (found.files.filterMap (tree? load))).snapshot.analysisValue
        config.inlineThreshold root.text found.files
        (found.warnings ++ found.files.filterMap (warning? load)), log) := by
  have hcounted := Survey.build_counted (builds_trees hload)
  obtain ⟨log, hrun⟩ := addFiles_ok hfiles hload
    ⟨.empty, found.warnings, [.analyzing found.files.length root.text found.method]⟩
  have hanalyze := Snapshot.analyze_ok hcounted hthreshold root.text found.files
    (found.warnings ++ found.files.filterMap (warning? load))
  exact ⟨log, bind_eq_ok.mpr ⟨_, hrun, bind_eq_ok.mpr ⟨_, CallGraph.freeze_ok hcounted,
    bind_eq_ok.mpr ⟨_, hanalyze, rfl⟩⟩⟩⟩

/-- What an analysis says of the files that were found: those without a tree leave their warnings,
and all else is the analysis of the others alone. -/
structure Accounts (config : Config) (load : Text → Reading) (root : Path) (found : Discovery)
    (a : Analysis) : Prop where
  files : a.files = found.files
  warnings : a.warnings = found.warnings ++ found.files.filterMap (warning? load)
  builds : Survey.builds config (found.files.filterMap (tree? load))
  rest : ∃ s alone, (Survey.build config (found.files.filterMap (tree? load))).freeze = .ok s ∧
    s.analyze config.inlineThreshold root.text
      ((found.files.filterMap (tree? load)).map Prod.fst) [] = .ok alone ∧
    a = { alone with files := a.files, warnings := a.warnings }
  declarations : ∀ d ∈ a.graph.declarations,
    d.file ∈ found.files ∧ (load d.file).tree.isOk = true
  calls : ∀ c ∈ a.graph.calls.flatMap Prod.snd,
    c.file ∈ found.files ∧ (load c.file).tree.isOk = true
  analyzed : a.analyzedFiles = found.files.countP fun file => (load file).tree.isOk

theorem accounts {root : Path} {found : Discovery} (hthreshold : 0 ≤ config.inlineThreshold)
    (hload : ∀ file ∈ found.files, IsAccountable config load file)
    (hwarnings : ∀ w ∈ found.warnings, w.path ∉ found.files) :
    Accounts config load root found
      ((Survey.build config (found.files.filterMap (tree? load))).snapshot.analysisValue
        config.inlineThreshold root.text found.files
        (found.warnings ++ found.files.filterMap (warning? load))) := by
  have hbuilds := builds_trees hload
  have hcounted := Survey.build_counted hbuilds
  refine ⟨rfl, rfl, hbuilds, ⟨_, _, CallGraph.freeze_ok hcounted,
    Snapshot.analyze_ok hcounted hthreshold _ _ _, rfl⟩, ?_, ?_, ?_⟩
  · intro d hd
    change d ∈ (Survey.build config _).declarations at hd
    rw [Survey.declarations_build hbuilds] at hd
    obtain ⟨pair, hpair, hd⟩ := List.mem_flatMap.mp (Ordered.mem_of_mem_ofList hd)
    rw [Survey.file_of_mem_fileDeclarations hd]
    exact isOk_of_mem_trees hpair
  · intro c hc
    change c ∈ (Survey.build config _).recorded at hc
    rw [(Survey.recorded_build hbuilds).mem_iff, List.filterMap_flatMap] at hc
    obtain ⟨pair, hpair, hc⟩ := List.mem_flatMap.mp hc
    rw [Survey.file_of_mem_fileCalls hc]
    exact isOk_of_mem_trees hpair
  · -- no earlier warning names a file that was found, so only its own mishap takes it out
    have hfile : ∀ file ∈ found.files,
        (!((found.warnings ++ found.files.filterMap (warning? load)).any fun w => w.path = file)) =
          (load file).tree.isOk := by
      intro file hfile
      have hnone : (found.warnings.any fun w => w.path = file) = false := by
        refine List.any_eq_false.mpr fun w hw hpath => ?_
        exact hwarnings w hw ((of_decide_eq_true hpath) ▸ hfile)
      rw [List.any_append, hnone, any_warning? hfile, Bool.false_or, Bool.not_not]
    rw [List.countP_eq_length_filter]
    exact congrArg List.length (List.filter_congr hfile)

/-- In a directory, an audit comes to an analysis exactly if nothing is refused that a discovery
looks at, and the analysis accounts for every file found. -/
theorem failed_files_are_isolated (h : Host) (config : Config) (root : Path) (base : Route)
    (load : Text → Reading) (hd : h.disk.HasEntryNames) (hroot : h.disk.resolve root = .ok base)
    (hbase : h.disk.item? base = some .directory) (hthreshold : 0 ≤ config.inlineThreshold)
    (hload : ∀ found events, Discovery.discover h config root = .ok (found, events) →
      ∀ file ∈ found.files, IsAccountable config load file) :
    ((∃ result, Discovery.discover h config root = .ok result) ↔
      Discovery.Unhindered h config root base) ∧
    (∀ found events, Discovery.discover h config root = .ok (found, events) →
      found.files.Nodup ∧ (∀ w ∈ found.warnings, w.path ∉ found.files) ∧
      ∃ a log, examine config load root found = .ok (a, log) ∧
        Accounts config load root found a) ∧
    ∀ parse file why, (Audit.load h parse root file).tree = .error why →
      why.path = file ∧ why.reason ≠ "" := by
  refine ⟨Discovery.discover_isOk_iff hroot hbase, fun found events hfound => ?_,
    fun parse file why hwhy => load_names hwhy⟩
  obtain ⟨hnodup, hfiles, hwarnings⟩ := Discovery.files_of_discover hd hfound
  have hload := hload found events hfound
  obtain ⟨log, hexamine⟩ := examine_ok root hthreshold hfiles hload
  exact ⟨hnodup, hwarnings, _, log, hexamine, accounts hthreshold hload hwarnings⟩

/-- Three scripts beside a directory that cannot be listed. -/
def scripts : Host where
  disk :=
    { entries := [(["bad.js"], .file []), (["good.js"], .file []), (["lost.js"], .file []),
        (["shut"], .directory)]
      barred := [["shut"]] }
  faults := [("shut", .denied)]

theorem scripts_walked : Discovery.walk scripts .default (.down []) [] [] =
    [.source ["bad.js"], .source ["good.js"], .source ["lost.js"], .closed ["shut"] .denied] := by
  have hlisting : Discovery.listing scripts [] =
      [Text.ofString "bad.js", "good.js", "lost.js", "shut"] := by cbv
  have hdoors : Discovery.doors scripts .default [] = [Text.ofString "shut"] := by
    rw [Discovery.doors, hlisting]
    decide +kernel
  have hsuffix : ∀ name ∈ [Text.ofString "bad.js", "good.js", "lost.js"],
      Discovery.hasSourceSuffix .default (Path.suffix name) = true := by decide +kernel
  have hfile : ∀ name ∈ [Text.ofString "bad.js", "good.js", "lost.js"],
      scripts.disk.isFile ((Path.down []).join (.down ([] ++ [name]))) = .ok true := by
    simp only [List.forall_mem_cons]
    exact ⟨by cbv, by cbv, by cbv, by simp⟩
  have hscripts : ∀ name ∈ [Text.ofString "bad.js", "good.js", "lost.js"],
      Discovery.meet scripts .default (.down []) [] name = some (.source [name]) :=
    fun name hname => Discovery.meet_eq_some.mpr
      (Or.inl ⟨Discovery.isSource_eq_true.mpr ⟨hsuffix name hname, hfile name hname⟩, rfl⟩)
  have hshut : Discovery.meet scripts .default (.down []) [] "shut" = none := by
    have hdirectory : scripts.disk.isFile
        ((Path.down []).join (.down ([] ++ [Text.ofString "shut"]))) = .ok false := by cbv
    simp only [Discovery.meet, hdirectory, Bool.and_false, Bool.false_eq_true, if_false]
  have hclosed : Discovery.walk scripts .default (.down []) [] ([] ++ [Text.ofString "shut"]) =
      [.closed [Text.ofString "shut"] .denied] := Discovery.walk_of_fault rfl
  rw [Discovery.walk_of_open rfl, List.append_nil, hlisting, hdoors, List.flatMap_singleton,
    hclosed]
  simp [hscripts, hshut]

def goodScript : Node :=
  .plain (.other "program") 0 [.plain .functionDeclaration 0 [
    { Node.plain .identifier 0 [] with role := some .name, text := some "serve" }]]

/-- One script that has a tree, one with a syntax error, and else nothing that can be read. -/
def readScripts (file : Text) : Reading :=
  if file = "good.js" then ⟨[], .ok goodScript⟩
  else if file = "bad.js" then
    ⟨[.javascript, .tsx], .error (.rejected ⟨file, "unexpected token", some 3⟩)⟩
  else ⟨[], .error (.unreadable ⟨file, "permission denied"⟩)⟩

theorem readScripts_accountable (file : Text) : IsAccountable .default readScripts file := by
  by_cases hgood : file = "good.js"
  · subst hgood
    exact .of_tree rfl (by decide +kernel)
  · by_cases hbad : file = "bad.js"
    · subst hbad
      refine .of_mishap .default rfl ⟨rfl, by decide, fun line hline => ?_⟩
      cases hline
      decide
    · have hlost : (readScripts file).tree = .error (.unreadable ⟨file, "permission denied"⟩) := by
        rw [readScripts, if_neg hgood, if_neg hbad]
      refine .of_mishap .default hlost ⟨rfl, by simp [Mishap.reason], fun line hline => ?_⟩
      cases hline

theorem failed_files_of_scripts : ∃ found events a log,
    Discovery.discover scripts .default (.down []) = .ok (found, events) ∧
    found = ⟨["bad.js", "good.js", "lost.js"],
      [⟨.filesystem, "shut", "Permission denied", none⟩], .walk⟩ ∧
    examine .default readScripts (.down []) found = .ok (a, log) ∧
    a.warnings = [⟨.filesystem, "shut", "Permission denied", none⟩,
      ⟨.parse, "bad.js", "unexpected token", some 3⟩,
      ⟨.filesystem, "lost.js", "permission denied", none⟩] ∧ a.analyzedFiles = 1 := by
  have hroot : scripts.disk.resolve (.down []) = .ok [] := Disk.resolve_down_nil _
  have hdiscover : Discovery.discover scripts .default (.down []) =
      .ok (⟨["bad.js", "good.js", "lost.js"],
        [⟨.filesystem, "shut", "Permission denied", none⟩], .walk⟩,
        [.gitUnavailable ".", .skipped "shut" "Permission denied", .walked 3 "."]) := by
    simp only [Discovery.discover, hroot, Discovery.walkAfter, Discovery.fromWalk, scripts_walked]
    cbv
  have hnames : scripts.disk.HasEntryNames := by decide
  obtain ⟨-, hanalyzed, -⟩ :=
    failed_files_are_isolated scripts .default (.down []) [] readScripts hnames hroot rfl
      (by decide) fun _ _ _ file _ => readScripts_accountable file
  obtain ⟨-, -, a, log, hexamine, haccounts⟩ := hanalyzed _ _ hdiscover
  refine ⟨_, _, a, log, hdiscover, rfl, hexamine, ?_, ?_⟩
  · rw [haccounts.warnings]
    decide
  · rw [haccounts.analyzed]
    decide

theorem run_of_undiscovered {h : Host} {parse : Grammar → String → Node} {root : Path}
    {stamp : Option Stamp} {why : Discovery.Failure}
    (hwhy : Discovery.discover h config root = .error why) :
    run h config parse root stamp = .error (.undiscovered why) := by
  simp only [run, hwhy]

/-- A script beside a link, and another in a directory that may not be searched. -/
def locked (target : Text) (git : Listing) : Host where
  disk :=
    { entries := [(["a.js"], .file []), (["b.js"], .link target), (["lib"], .directory),
        (["lib", "x.js"], .file [])]
      barred := [["lib"]] }
  faults := [("lib", .denied)]
  git := git

/-- What the audit of a locked directory comes to. -/
def auditLocked (target : Text) (git : Listing) : Except Failure Outcome :=
  run (locked target git) .default (fun _ _ => goodScript) (.down []) none

/-- An audit of a directory comes to nothing if one file that is listed stands where nothing may be
looked up, if version control may not be started, or if one link may not be followed, whether it
leads into a directory that may not be searched or to a name that is too long. -/
theorem audit_of_locked_fails :
    (locked "a.js" .unavailable).disk.item? [] = some .directory ∧
    auditLocked "a.js" (.names ["a.js", "lib/x.js"]) =
      .error (.undiscovered (.refused ⟨.denied, some "lib/x.js"⟩)) ∧
    auditLocked "a.js" (.unstarted ⟨.denied, some "."⟩) =
      .error (.undiscovered (.refused ⟨.denied, some "."⟩)) ∧
    auditLocked "lib/x.js" .unavailable =
      .error (.undiscovered (.refused ⟨.denied, some "b.js"⟩)) ∧
    auditLocked (List.replicate 64 (.char '𝄞')) .unavailable =
      .error (.undiscovered (.refused ⟨.nameTooLong, some "b.js"⟩)) := by
  have hroot (target : Text) (git : Listing) :
      (locked target git).disk.resolve (.down []) = .ok [] := Disk.resolve_down_nil _
  have hunlisted (target : Text) : Discovery.Unlisted (locked target .unavailable) .default :=
    fun _ => Or.inr ⟨_, rfl, rfl⟩
  refine ⟨rfl, run_of_undiscovered ?_, run_of_undiscovered ?_, run_of_undiscovered ?_,
    run_of_undiscovered ?_⟩
  · have hlisted : Discovery.fromListing (locked "a.js" (.names ["a.js", "lib/x.js"])) .default
        (.down []) ["a.js", "lib/x.js"] = .error ⟨.denied, some "lib/x.js"⟩ := by
      rw [Discovery.fromListing_of_accepted ["a.js", "lib/x.js"] (by decide +kernel)]
      cbv
    exact Discovery.discover_of_unlistable (hroot _ _) rfl rfl rfl hlisted
  · cbv
  · have hlink : (Discovery.listing (locked "lib/x.js" .unavailable) []).findSome?
        (Discovery.refusal? (locked "lib/x.js" .unavailable) (.down []) []) =
          some ([Text.ofString "b.js"], .denied) := by cbv
    exact Discovery.discover_of_refusal (hroot _ _) rfl (hunlisted _) rfl hlink
  · have hlink : (Discovery.listing (locked (List.replicate 64 (.char '𝄞')) .unavailable)
        []).findSome? (Discovery.refusal? (locked (List.replicate 64 (.char '𝄞')) .unavailable)
          (.down []) []) = some ([Text.ofString "b.js"], .nameTooLong) := by cbv
    exact Discovery.discover_of_refusal (hroot _ _) rfl (hunlisted _) rfl hlink

end Audit

end ScriptAudit
