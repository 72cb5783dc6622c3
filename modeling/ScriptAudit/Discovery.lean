import ScriptAudit.Config
import ScriptAudit.Host
import ScriptAudit.Log
import ScriptAudit.Text.Blank

/-! The source files under a directory. Version control is asked for them, or else the directory
is walked. A walk does not enter links, so it ends. A directory that cannot be listed is skipped,
but a path that cannot be looked up ends the discovery. -/

namespace ScriptAudit

structure BadRoot where
  root : Text
  reason : String
deriving DecidableEq, Repr

def BadRoot.message (b : BadRoot) : Text :=
  "Folder \"" ++ b.root ++ "\" " ++ Text.ofString b.reason

structure Discovery where
  files : List Text
  warnings : List Warning
  method : Method
deriving DecidableEq, Repr

namespace Discovery

def hasSourceSuffix (config : Config) (suffix : Text) : Bool :=
  config.extensions.contains suffix.lower

/-- Whether a path is that of a source file, and outside the directories that are left out. -/
def accepts (config : Config) (p : Path) : Bool :=
  hasSourceSuffix config p.lastSuffix && p.names.dropLast.all fun name =>
    !config.excluded.contains name

/-- The names whose files are there, if all of them can be looked up. -/
def present (d : Disk) (root : Path) : List Text → Except Disk.Failure (List Text)
  | [] => return []
  | name :: names => do
    let path := root.join (.ofText name)
    let found ← (d.isFile path).mapError fun why => ⟨why, some path.text⟩
    let others ← present d root names
    return if found then name :: others else others

/-- The listed files that are there, in order and each once. -/
def fromListing (h : Host) (config : Config) (root : Path) (listed : List Text) :
    Except Disk.Failure (List Text) := do
  let names := (listed.filter fun name => !name.isEmpty).eraseDups
  let files ← present h.disk root (names.filter fun name => accepts config (.ofText name))
  return Text.sort files

inductive Sighting where
  | source (way : Route)
  | closed (way : Route) (why : Disk.Fault)
  | refused (way : Route) (why : Disk.Fault)
deriving DecidableEq, Repr

namespace Sighting

def source? : Sighting → Option Route
  | .source way => some way
  | _ => none

def closed? : Sighting → Option (Route × Disk.Fault)
  | .closed way why => some (way, why)
  | _ => none

def refused? : Sighting → Option (Route × Disk.Fault)
  | .refused way why => some (way, why)
  | _ => none

end Sighting

/-- What a walk makes of a name that it finds in the directory at the end of `way`. -/
def meet (h : Host) (config : Config) (root : Path) (way : Route) (name : Text) :
    Option Sighting :=
  match h.disk.isFile (root.join (.down (way ++ [name]))) with
  | .error why => some (.refused (way ++ [name]) why)
  | .ok found =>
    if hasSourceSuffix config (Path.suffix name) && found then some (.source (way ++ [name]))
    else none

def isEntered (h : Host) (config : Config) (here : Route) (name : Text) : Bool :=
  h.disk.item? (here ++ [name]) = some .directory && !config.excluded.contains name

def listing (h : Host) (here : Route) : List Text := Text.sort (h.disk.names here)

theorem mem_listing {h : Host} {here : Route} {name : Text} :
    name ∈ listing h here ↔ name ∈ h.disk.names here :=
  (List.mergeSort_perm _ _).mem_iff

def doors (h : Host) (config : Config) (here : Route) : List Text :=
  (listing h here).reverse.filter (isEntered h config here)

theorem mem_names_of_mem_doors {h : Host} {config : Config} {here : Route} {name : Text}
    (hm : name ∈ doors h config here) : name ∈ h.disk.names here :=
  mem_listing.mp (List.mem_reverse.mp (List.mem_filter.mp hm).1)

/-- Everything that a walk meets from the directory `base ++ way` on: first what is in it, then
what is in its directories. -/
def walk (h : Host) (config : Config) (root : Path) (base way : Route) : List Sighting :=
  match h.fault? (root.join (.down way)) with
  | some why => [.closed way why]
  | none =>
    (listing h (base ++ way)).filterMap (meet h config root way) ++
      (doors h config (base ++ way)).attach.flatMap
        fun name => walk h config root base (way ++ [name.1])
termination_by h.disk.below (base ++ way)
decreasing_by
  simpa [List.append_assoc] using Disk.below_lt (mem_names_of_mem_doors name.2)

def warning (way : Route) (why : Disk.Fault) : Warning :=
  ⟨.filesystem, (Path.down way).text, why.description, none⟩

/-- The result of a walk that met these. -/
def collect (root : Path) (met : List Sighting) : Discovery × List Event :=
  let files := Text.sort ((met.filterMap Sighting.source?).map fun way => (Path.down way).text)
  let closed := met.filterMap Sighting.closed?
  (⟨files, closed.map fun (way, why) => warning way why, .walk⟩,
    (closed.map fun (way, why) => .skipped (Path.down way).text why.description) ++
      [.walked files.length root.text])

/-- A walk that comes to what it may not look up does not go on. -/
def fromWalk (h : Host) (config : Config) (root : Path) (base : Route) :
    Except Disk.Failure (Discovery × List Event) :=
  let met := walk h config root base []
  match met.findSome? Sighting.refused? with
  | some (way, why) => .error ⟨why, some (root.join (.down way)).text⟩
  | none => .ok (collect root met)

inductive Failure where
  | badRoot (why : BadRoot)
  | refused (why : Disk.Failure)
deriving DecidableEq, Repr

def walkAfter (h : Host) (config : Config) (root : Path) (base : Route) (said : List Event) :
    Except Failure (Discovery × List Event) :=
  match fromWalk h config root base with
  | .error why => .error (.refused why)
  | .ok (found, events) => .ok (found, said ++ events)

def discover (h : Host) (config : Config) (root : Path) :
    Except Failure (Discovery × List Event) :=
  match h.disk.resolve root with
  | .error why =>
    if why.isAbsence then .error (.badRoot ⟨root.text, "does not exist."⟩)
    else .error (.refused ⟨why, some root.text⟩)
  | .ok base =>
    match h.disk.item? base with
    | none => .error (.badRoot ⟨root.text, "does not exist."⟩)
    | some .directory =>
      if config.preferGit then
        match h.git with
        | .names listed =>
          match fromListing h config root listed with
          | .error why => .error (.refused why)
          | .ok files => .ok (⟨files, [], .git⟩, [.listed files.length root.text])
        | .unstarted why =>
          if why.fault = .missing then walkAfter h config root base [.gitUnavailable root.text]
          else .error (.refused why)
        | .failed complaint => walkAfter h config root base [.gitFailed root.text complaint.trim]
      else walkAfter h config root base []
    | some _ => .error (.badRoot ⟨root.text, "is not a directory."⟩)

end Discovery

end ScriptAudit
