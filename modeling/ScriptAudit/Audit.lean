import ScriptAudit.Artifact
import ScriptAudit.Discovery
import ScriptAudit.Report
import ScriptAudit.Source

/-! A whole audit: find the files, read them, build the graph, analyze it, report and save. What is
wrong with one file becomes a warning and keeps nothing else from being audited. -/

namespace ScriptAudit

open Syntax

structure Unreadable where
  path : Text
  reason : String
deriving DecidableEq, Repr

def Unreadable.message (u : Unreadable) : Text := u.path ++ ": " ++ Text.ofString u.reason

namespace Audit

inductive Mishap where
  | rejected (why : Rejection)
  | unreadable (why : Unreadable)
deriving DecidableEq, Repr

/-- A file as it was read: the grammars tried in vain, and its tree. -/
structure Reading where
  rejectedBy : List Grammar
  tree : Except Mishap Node

def readingFault : Disk.Fault → String
  | .missing => "file not found"
  | .denied => "permission denied"
  | fault => fault.description

def source (h : Host) (root : Path) (file : Text) : Except Unreadable String :=
  match h.read (root.join (.ofText file)) with
  | .error fault => .error ⟨file, readingFault fault⟩
  | .ok bytes =>
    match Utf8.decodeSource bytes with
    | .error fault => .error ⟨file, "encoding error: " ++ fault.message⟩
    | .ok source => .ok source

/-- Reads a file; `parse` gives the tree that a grammar makes of a source. -/
def load (h : Host) (parse : Grammar → String → Node) (root : Path) (file : Text) : Reading :=
  match source h root file with
  | .error why => ⟨[], .error (.unreadable why)⟩
  | .ok source =>
    let outcome := Grammar.choose file fun g => parse g source
    ⟨outcome.rejectedBy,
      match outcome.result with
      | .ok (_, tree) => .ok tree
      | .error why => .error (.rejected why)⟩

structure Progress where
  graph : CallGraph
  warnings : List Warning
  events : List Event

def addFile (config : Config) (load : Text → Reading) (p : Progress) (file : Text) :
    Except Error Progress := do
  let reading := load file
  let events := p.events ++ reading.rejectedBy.map (Event.rejected file)
  match reading.tree with
  | .ok tree =>
    let (graph, outcome) := Survey.addTree config file tree p.graph
    let stats ← outcome
    return ⟨graph, p.warnings, events ++ [.surveyed file stats]⟩
  | .error (.rejected why) =>
    let warning ← Warning.check ⟨.parse, why.path, why.reason, why.line⟩
    return ⟨p.graph, p.warnings ++ [warning], events ++ [.unparsed why]⟩
  | .error (.unreadable why) =>
    let warning ← Warning.check ⟨.filesystem, why.path, why.reason, none⟩
    return ⟨p.graph, p.warnings ++ [warning], events ++ [.unread why.path why.reason]⟩

def examine (config : Config) (load : Text → Reading) (root : Path) (found : Discovery) :
    Except Error (Analysis × List Event) := do
  let start : Progress := ⟨.empty, found.warnings,
    [.analyzing found.files.length root.text found.method]⟩
  let p ← found.files.foldlM (addFile config load) start
  let graph ← p.graph.freeze
  let analysis ← graph.analyze config.inlineThreshold root.text found.files p.warnings
  return (analysis, p.events)

inductive Failure where
  | undiscovered (why : Discovery.Failure)
  | refused (why : Error)
deriving DecidableEq, Repr

structure Outcome where
  analysis : Analysis
  report : List Text
  saved : Option Path
  host : Host
  events : List Event

/-- Saves a report. If that fails, the audit goes on without it. -/
def keep (h : Host) (config : Config) (root : Path) (stamp : Stamp) (report : List Text) :
    Option Path × Host × Event :=
  match Artifact.save h root (Artifact.stem config.reportPrefix stamp) report with
  | (h, .ok path) => (some path, h, .saved path.text)
  | (h, .error why) => (none, h, .unsaved root.text why.message)

def run (h : Host) (config : Config) (parse : Grammar → String → Node) (root : Path)
    (stamp : Option Stamp) : Except Failure Outcome :=
  match Discovery.discover h config root with
  | .error why => .error (.undiscovered why)
  | .ok (found, events) =>
    match examine config (load h parse root) root found with
    | .error why => .error (.refused why)
    | .ok (analysis, more) =>
      match Report.render analysis with
      | .error why => .error (.refused why)
      | .ok report =>
        match stamp with
        | none => .ok ⟨analysis, report, none, h, events ++ more⟩
        | some stamp =>
          let (saved, host, event) := keep h config root stamp report
          .ok ⟨analysis, report, saved, host, events ++ more ++ [event]⟩

end Audit

end ScriptAudit
