import ScriptAudit.Disk.Fault
import ScriptAudit.Ordered
import ScriptAudit.Path

/-! A file system with a place where one stands: files, directories and symbolic links, each at its
own route from the top. Reading follows links; creating does not. -/

namespace ScriptAudit

/-- The names of the real directories on the way to an item, and its own. -/
abbrev Route := List Text

inductive Item where
  | file (bytes : List UInt8)
  | directory
  | link (target : Text)
deriving DecidableEq, Repr

structure Disk where
  entries : List (Route × Item)
  /-- Directories in which one may look nothing up. -/
  barred : List Route := []
  /-- Where paths start that do not start at the top. -/
  here : Route := []
deriving DecidableEq, Repr

namespace Disk

def empty : Disk := { entries := [] }

/-- What stands at a route. The directory that all routes start from is always there. -/
def item? (d : Disk) (r : Route) : Option Item :=
  if r = [] then some .directory else (d.entries.find? fun e => e.1 = r).map Prod.snd

/-- What comes of looking up one name in a directory. -/
inductive Look where
  | stop (why : Fault)
  | go (there : Route)
  | link (target : Text)
deriving DecidableEq, Repr

def Look.ofItem (r : Route) : Option Item → Look
  | none => .stop .missing
  | some (.link target) => .link target
  | some _ => .go r

/-- Each name asks for a directory to look it up in. An empty name only asks whether one is there,
and above the top there is the top again. -/
def lookUp (d : Disk) (here : Route) (name : Text) : Look :=
  if d.item? here ≠ some .directory then .stop .notDirectory
  else if name = [] then .go here
  else if d.barred.contains here then .stop .denied
  else if name = [Path.dot] then .go here
  else if name = [Path.dot, Path.dot] then
    if d.item? here.dropLast = some .directory then .go here.dropLast else .stop .notDirectory
  else if !Path.fits name then .stop .nameTooLong
  else .ofItem (here ++ [name]) (d.item? (here ++ [name]))

/-- Where the target of a link is followed from, if the link stands in `here`. -/
def linkStart (here : Route) (target : Text) : Route :=
  if target.head? = some Path.slash then [] else here

/-- Where `names` lead from `here`, if no more than `hops` links are met on the way. -/
def follow (d : Disk) (hops : Nat) (here : Route) (names : List Text) : Except Fault Route :=
  match names with
  | [] => .ok here
  | name :: rest =>
    match d.lookUp here name with
    | .stop why => .error why
    | .go there => d.follow hops there rest
    | .link target =>
      match hops with
      | 0 => .error .tooManyLinks
      | hops + 1 => d.follow hops (linkStart here target) (target.splitOn Path.slash ++ rest)
termination_by (hops, names.length)

/-- More links than these are taken for a circle. -/
def maxHops : Nat := 40

def start (d : Disk) (p : Path) : Route := if p.anchor.isEmpty then d.here else []

def resolve (d : Disk) (p : Path) : Except Fault Route := d.follow maxHops (d.start p) p.names

/-- What a path leads to, if to anything; never a link. -/
def lead? (d : Disk) (p : Path) : Except Fault (Option Item) :=
  match d.resolve p with
  | .ok r => .ok (d.item? r)
  | .error why => if why.isAbsence then .ok none else .error why

def exists? (d : Disk) (p : Path) : Except Fault Bool := (d.lead? p).map Option.isSome

def isFile (d : Disk) (p : Path) : Except Fault Bool :=
  (d.lead? p).map fun
    | some (.file _) => true
    | _ => false

def read (d : Disk) (p : Path) : Except Fault (List UInt8) := do
  let r ← d.resolve p
  match d.item? r with
  | some (.file bytes) => return bytes
  | some .directory => throw .isDirectory
  | _ => throw .missing

def names (d : Disk) (r : Route) : List Text :=
  (d.entries.filterMap fun e => if e.1.dropLast = r then e.1.getLast? else none).eraseDups

/-- Creates an empty file where there is nothing yet, not even a link that leads nowhere, and says
where that is. -/
def createNew (d : Disk) (p : Path) : Except Fault (Disk × Route) := do
  match p.names.getLast? with
  | none => throw .isDirectory
  | some name =>
    let here ← d.resolve { p with names := p.names.dropLast }
    match d.lookUp here name with
    | .stop .missing =>
      let file := here ++ [name]
      return ({ d with entries := d.entries ++ [(file, .file [])] }, file)
    | .stop why => throw why
    | _ => throw .alreadyThere

def put (d : Disk) (r : Route) (item : Item) : Disk :=
  { d with entries := Ordered.put Prod.fst (r, item) d.entries }

/-- Writes at the end of a file that is open. -/
def append (d : Disk) (file : Route) (bytes : List UInt8) : Disk :=
  match d.item? file with
  | some (.file old) => d.put file (.file (old ++ bytes))
  | _ => d

def makeDirectory (d : Disk) (r : Route) : Disk :=
  (List.range r.length).foldl (fun d n =>
    let way := r.take (n + 1)
    if (d.item? way).isSome then d else d.put way .directory) d

def place (d : Disk) (r : Route) (item : Item) : Disk :=
  (d.makeDirectory r.dropLast).put r item

def below (d : Disk) (r : Route) : Nat :=
  d.entries.countP fun e => r.isPrefixOf e.1 && e.1 ≠ r

theorem mem_names {d : Disk} {r : Route} {name : Text} :
    name ∈ d.names r ↔ ∃ item, (r ++ [name], item) ∈ d.entries := by
  simp only [names, List.mem_eraseDups, List.mem_filterMap, Option.ite_none_right_eq_some]
  constructor
  · rintro ⟨⟨route, item⟩, he, hd, hl⟩
    obtain ⟨way, rfl⟩ := List.getLast?_eq_some_iff.mp hl
    simp only [List.dropLast_concat] at hd
    exact ⟨item, hd ▸ he⟩
  · rintro ⟨item, he⟩
    exact ⟨(r ++ [name], item), he, by simp, by simp⟩

theorem countP_lt_countP {α : Type} {p q : α → Bool} {xs : List α} {a : α}
    (h : ∀ x, p x = true → q x = true) (ha : a ∈ xs) (hp : p a = false) (hq : q a = true) :
    xs.countP p < xs.countP q := by
  induction xs with
  | nil => simp at ha
  | cons x xs ih =>
    have hle : xs.countP p ≤ xs.countP q := List.countP_mono_left fun y _ => h y
    simp only [List.countP_cons]
    rcases List.mem_cons.mp ha with rfl | ha
    · simp only [hp, hq]
      simp
      omega
    · have := ih ha
      cases hx : p x
      · simp; split <;> omega
      · simp [h x hx, this]

theorem below_lt {d : Disk} {r : Route} {name : Text} (h : name ∈ d.names r) :
    d.below (r ++ [name]) < d.below r := by
  obtain ⟨item, he⟩ := mem_names.mp h
  refine countP_lt_countP ?_ he ?_ ?_
  · intro e hp
    simp only [Bool.and_eq_true, List.isPrefixOf_iff_prefix, decide_eq_true_eq] at hp ⊢
    obtain ⟨⟨rest, he'⟩, _⟩ := hp
    rw [← he']
    exact ⟨⟨name :: rest, by simp⟩, by simp⟩
  · simp
  · simp

end Disk

end ScriptAudit
