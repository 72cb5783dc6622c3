import Mathlib.Data.List.Flatten
import Mathlib.Data.List.Permutation
import Mathlib.Logic.Relation
import ScriptAudit.Proofs.DirectoryWalk

/-! What a walk finds, told from the disk alone. A directory is accessible if it is real, not left
out, and below directories that can be listed. A walk gives the source files of the accessible
directories that can be listed, and a warning for each that can not; but if it may not look up an
entry of one of them, it gives nothing. -/

namespace ScriptAudit

open ScriptAudit.Path

namespace Disk

variable {d d' : Disk} {root : Path} {base way : Route} {name : Text}

/-- A regular file in a directory, or a link there that leads to one. -/
def IsFileEntry (d : Disk) (root : Path) (base way : Route) (name : Text) : Prop :=
  (∃ bytes, d.item? (base ++ way ++ [name]) = some (.file bytes)) ∨
  (∃ target, d.item? (base ++ way ++ [name]) = some (.link target)) ∧
    ∃ r bytes, d.resolve (root.join (.down (way ++ [name]))) = .ok r ∧
      d.item? r = some (.file bytes)

/-- A file in a real directory can be read as one, if it can be looked up at all. -/
theorem RealWay.isFile_of_item (hway : d.RealWay base way) (hnames : ∀ w ∈ way, IsEntryName w)
    (hname : IsEntryName name) (hroot : d.resolve root = .ok base) {bytes : List UInt8}
    (hfollow : d.CanFollow (root.join (.down (way ++ [name]))))
    (hitem : d.item? (base ++ way ++ [name]) = some (.file bytes)) :
    d.isFile (root.join (.down (way ++ [name]))) = .ok true := by
  obtain ⟨left, hleft⟩ := resolve_join hroot
  rcases hway.follow_cases hnames with ⟨why, hwhy, herror⟩ | hend
  · rw [hfollow why (by rw [hleft, herror])] at hwhy
    cases hwhy
  · have hdir := hway way List.prefix_rfl
    have hadmits : d.Admits (base ++ way) name := by
      by_contra hadmits
      obtain ⟨why, hwhy, hlook⟩ := lookUp_of_not_admits hdir hname hadmits
      rw [hfollow why (by rw [hleft, hend, follow_of_stop hlook])] at hwhy
      cases hwhy
    have hlook := lookUp_of_admits hdir hname hadmits
    rw [hitem] at hlook
    refine isFile_eq_true.mpr ⟨_, bytes, ?_, hitem⟩
    rw [hleft, hend, follow_of_go hlook, follow]

/-- In a real directory, what can be read as a file is a file or a link to one. -/
theorem RealWay.isFile_iff_entry (hway : d.RealWay base way) (hnames : ∀ w ∈ way, IsEntryName w)
    (hname : IsEntryName name) (hroot : d.resolve root = .ok base)
    (hfollow : d.CanFollow (root.join (.down (way ++ [name])))) :
    d.isFile (root.join (.down (way ++ [name]))) = .ok true ↔
      d.IsFileEntry root base way name := by
  constructor
  · intro hfile
    obtain ⟨item, hitem, hplain⟩ := hway.exists_item hnames hname hroot hfile
    cases item with
    | file bytes => exact Or.inl ⟨bytes, hitem⟩
    | directory => exact absurd rfl hplain
    | link target => exact Or.inr ⟨⟨target, hitem⟩, isFile_eq_true.mp hfile⟩
  · rintro (⟨bytes, hitem⟩ | ⟨-, hlead⟩)
    · exact hway.isFile_of_item hnames hname hroot hfollow hitem
    · exact isFile_eq_true.mpr hlead

theorem IsFileEntry.mem_names (h : d.IsFileEntry root base way name) :
    name ∈ d.names (base ++ way) := by
  rcases h with ⟨bytes, hitem⟩ | ⟨⟨target, hitem⟩, -⟩
  · exact mem_names_of_item? hitem
  · exact mem_names_of_item? hitem

/-- Where no route has two entries, what stands at a route is the entry of that route. -/
theorem item?_eq_some_iff (hdistinct : (d.entries.map Prod.fst).Nodup) {r : Route} (hr : r ≠ [])
    {item : Item} : d.item? r = some item ↔ (r, item) ∈ d.entries := by
  refine ⟨mem_entries_of_item? hr, fun hmem => ?_⟩
  rw [item?, if_neg hr]
  cases hfound : d.entries.find? fun e => e.1 = r with
  | none => simpa using List.find?_eq_none.mp hfound _ hmem
  | some e =>
    have hroute : e.1 = r := by simpa using List.find?_some hfound
    have hsame : e = (r, item) :=
      List.inj_on_of_nodup_map hdistinct (List.mem_of_find?_eq_some hfound) hmem hroute
    rw [hsame, Option.map_some]

theorem item?_eq_of_perm (hperm : d'.entries.Perm d.entries)
    (hdistinct : (d.entries.map Prod.fst).Nodup) (r : Route) : d'.item? r = d.item? r := by
  have hdistinct' : (d'.entries.map Prod.fst).Nodup := (hperm.map _).nodup_iff.mpr hdistinct
  by_cases hr : r = []
  · rw [hr]
    rfl
  · refine Option.ext fun item => ?_
    rw [item?_eq_some_iff hdistinct' hr, item?_eq_some_iff hdistinct hr, hperm.mem_iff]

/-- Two disks that cannot be told apart by looking at routes. -/
structure Alike (d d' : Disk) : Prop where
  item? : ∀ r, d'.item? r = d.item? r
  barred : d'.barred = d.barred
  here : d'.here = d.here

namespace Alike

theorem of_perm (hperm : d'.entries.Perm d.entries) (hdistinct : (d.entries.map Prod.fst).Nodup)
    (hbarred : d'.barred = d.barred) (hhere : d'.here = d.here) : Alike d d' :=
  ⟨item?_eq_of_perm hperm hdistinct, hbarred, hhere⟩

theorem follow_eq (h : Alike d d') (hops : Nat) (here : Route) (names : List Text) :
    d'.follow hops here names = d.follow hops here names := by
  have hlook (here : Route) (name : Text) : d'.lookUp here name = d.lookUp here name := by
    simp only [lookUp, h.item?, h.barred]
  induction hops, here, names using follow_induction d with
  | nil hops here => rw [follow, follow]
  | stop hops here name rest why hstop =>
    rw [follow_of_stop hstop, follow_of_stop ((hlook _ _).trans hstop)]
  | go hops here name rest there hgo ih =>
    rw [follow_of_go hgo, follow_of_go ((hlook _ _).trans hgo), ih]
  | link hops here name rest target hlink ih =>
    cases hops with
    | zero => rw [follow_zero_of_link hlink, follow_zero_of_link ((hlook _ _).trans hlink)]
    | succ hops =>
      rw [follow_succ_of_link hlink, follow_succ_of_link ((hlook _ _).trans hlink),
        ih hops (Nat.lt_succ_self hops)]

theorem resolve_eq (h : Alike d d') (p : Path) : d'.resolve p = d.resolve p := by
  rw [resolve, resolve, start, start, h.here, h.follow_eq]

theorem isFile_eq (h : Alike d d') (p : Path) : d'.isFile p = d.isFile p := by
  simp only [isFile, lead?, h.resolve_eq, h.item?]

end Alike

end Disk

namespace Discovery

variable {h h' : Host} {config : Config} {root : Path} {base way : Route} {name : Text}

/-- In what order the entries of directories come makes no difference to what is met. -/
theorem walk_eq_of_alike (halike : h.disk.Alike h'.disk)
    (hnames : ∀ r, (h'.disk.names r).Perm (h.disk.names r)) (hfaults : h'.faults = h.faults)
    (config : Config) (root : Path) (base way : Route) :
    walk h' config root base way = walk h config root base way := by
  have hfault (p : Path) : h'.fault? p = h.fault? p := by rw [Host.fault?, Host.fault?, hfaults]
  have hlisting (here : Route) : listing h' here = listing h here :=
    Text.sort_eq_of_perm (hnames here)
  have hmeet (way : Route) : meet h' config root way = meet h config root way := by
    funext name
    rw [meet, meet, halike.isFile_eq]
  have hdoors (here : Route) : doors h' config here = doors h config here := by
    have hentered : isEntered h' config here = isEntered h config here := by
      funext name
      simp only [isEntered, halike.item?]
    rw [doors, doors, hlisting, hentered]
  induction way using walk.induct h config root base with
  | case1 way why hwhy => rw [walk_of_fault hwhy, walk_of_fault ((hfault _).trans hwhy)]
  | case2 way hopen ih =>
    rw [walk_of_open hopen, walk_of_open ((hfault _).trans hopen), hlisting, hmeet, hdoors]
    exact congrArg _ (List.flatMap_congr fun name hdoor => ih ⟨name, hdoor⟩)

theorem names_perm_of_perm {d d' : Disk} (hperm : d'.entries.Perm d.entries) (r : Route) :
    (d'.names r).Perm (d.names r) := by
  refine (List.perm_ext_iff_of_nodup (d'.nodup_names r) (d.nodup_names r)).mpr fun name => ?_
  simp only [Disk.mem_names, hperm.mem_iff]

/-- A directory that a walk comes to. All directories on the way down are real, none of them is left
out, and those above it can be listed. -/
structure Accessible (h : Host) (config : Config) (root : Path) (base way : Route) : Prop where
  real : h.disk.RealWay base way
  kept : ∀ w ∈ way, w ∉ config.excluded
  listed : ∀ v, v <+: way → v ≠ way → h.fault? (root.join (.down v)) = none

theorem Reached.accessible (hbase : h.disk.item? base = some .directory)
    (hway : Reached h config root base [] way) : Accessible h config root base way where
  real := hway.realWay hbase
  kept := hway.not_excluded
  listed := by
    induction hway with
    | top =>
      intro v hv hne
      exact absurd (List.prefix_nil.mp hv) hne
    | @enter way name _ hopen _ ih =>
      intro v hv hne
      rcases List.prefix_concat_iff.mp hv with rfl | hv
      · exact absurd rfl hne
      · by_cases hend : v = way
        · rwa [hend]
        · exact ih v hv hend

theorem Accessible.reached (hway : Accessible h config root base way) :
    Reached h config root base [] way := by
  induction way using List.reverseRecOn with
  | nil => exact .top
  | append_singleton way name ih =>
    have hinit : way <+: way ++ [name] := List.prefix_append _ _
    have hup : Accessible h config root base way :=
      ⟨fun v hv => hway.real v (hv.trans hinit),
        fun w hw => hway.kept w (List.mem_append_left _ hw),
        fun v hv _ => hway.listed v (hv.trans hinit) fun he =>
          absurd (he ▸ hv).length_le (by simp)⟩
    have hopen := hway.listed way hinit (by simp)
    have hdir := hway.real (way ++ [name]) List.prefix_rfl
    rw [← List.append_assoc] at hdir
    exact .enter (ih hup) hopen (mem_doors.mpr ⟨hdir, hway.kept name (by simp)⟩)

theorem reached_iff (hbase : h.disk.item? base = some .directory) :
    Reached h config root base [] way ↔ Accessible h config root base way :=
  ⟨Reached.accessible hbase, Accessible.reached⟩

/-- A walk under way: the directories that are still to be opened, the next one first, and what was
met so far. -/
structure Tour where
  stack : List Route
  met : List Sighting

namespace Tour

variable {t t' : Tour}

def isRefused (t : Tour) : Bool := (t.met.findSome? Sighting.refused?).isSome

/-- Opens the next directory, if any is left and nothing was refused. What is behind its doors comes
before the others. -/
def step (h : Host) (config : Config) (root : Path) (base : Route) (t : Tour) : Option Tour :=
  if t.isRefused then none
  else
    match t.stack with
    | [] => none
    | way :: rest =>
      match h.fault? (root.join (.down way)) with
      | some why => some ⟨rest, t.met ++ [.closed way why]⟩
      | none =>
        some ⟨(doors h config (base ++ way)).map (fun name => way ++ [name]) ++ rest,
          t.met ++ (listing h (base ++ way)).filterMap (meet h config root way)⟩

abbrev Leads (h : Host) (config : Config) (root : Path) (base : Route) : Tour → Tour → Prop :=
  Relation.ReflTransGen fun t t' => t.step h config root base = some t'

def start : Tour := ⟨[[]], []⟩

/-- What was met, and what would be met below the directories that are still to be opened. -/
def all (h : Host) (config : Config) (root : Path) (base : Route) (t : Tour) : List Sighting :=
  t.met ++ t.stack.flatMap (walk h config root base)

theorem step_of_fault {why : Disk.Fault} {rest : List Route} {met : List Sighting}
    (hmet : isRefused ⟨way :: rest, met⟩ = false)
    (hfault : h.fault? (root.join (.down way)) = some why) :
    step h config root base ⟨way :: rest, met⟩ = some ⟨rest, met ++ [.closed way why]⟩ := by
  simp only [step, hmet, hfault, Bool.false_eq_true, if_false]

theorem step_of_open {rest : List Route} {met : List Sighting}
    (hmet : isRefused ⟨way :: rest, met⟩ = false)
    (hopen : h.fault? (root.join (.down way)) = none) :
    step h config root base ⟨way :: rest, met⟩ =
      some ⟨(doors h config (base ++ way)).map (fun name => way ++ [name]) ++ rest,
        met ++ (listing h (base ++ way)).filterMap (meet h config root way)⟩ := by
  simp only [step, hmet, hopen, Bool.false_eq_true, if_false]

theorem step_eq_none_iff :
    t.step h config root base = none ↔ t.isRefused = true ∨ t.stack = [] := by
  obtain ⟨stack, met⟩ := t
  cases hmet : isRefused ⟨stack, met⟩ with
  | true => simp [step, hmet]
  | false =>
    cases stack with
    | nil => simp [step, hmet]
    | cons way rest =>
      cases hfault : h.fault? (root.join (.down way)) with
      | some why => simp [step_of_fault hmet hfault]
      | none => simp [step_of_open hmet hfault]

theorem all_step (hstep : t.step h config root base = some t') :
    t'.all h config root base = t.all h config root base := by
  have hgoes : ¬(t.isRefused = true ∨ t.stack = []) := by
    intro hend
    rw [step_eq_none_iff.mpr hend] at hstep
    cases hstep
  obtain ⟨stack, met⟩ := t
  obtain ⟨hmet, hstack⟩ := not_or.mp hgoes
  rw [Bool.not_eq_true] at hmet
  cases stack with
  | nil => exact absurd rfl hstack
  | cons way rest =>
    cases hfault : h.fault? (root.join (.down way)) with
    | some why =>
      rw [step_of_fault hmet hfault] at hstep
      cases hstep
      simp [all, walk_of_fault hfault]
    | none =>
      rw [step_of_open hmet hfault] at hstep
      cases hstep
      simp [all, walk_of_open hfault, List.flatMap_map]

theorem all_leads (hleads : Leads h config root base t t') :
    t'.all h config root base = t.all h config root base := by
  induction hleads with
  | refl => rfl
  | tail _ hstep ih => rw [all_step hstep, ih]

/-- A tour gets past some directories, or something is refused to it. -/
def Passes (h : Host) (config : Config) (root : Path) (base : Route) (ways : List Route) : Prop :=
  ∀ rest met, ∃ t, Leads h config root base ⟨ways ++ rest, met⟩ t ∧
    (t.isRefused = true ∨ t.stack = rest)

theorem passes_all {ways : List Route} (hways : ∀ way ∈ ways, Passes h config root base [way]) :
    Passes h config root base ways := by
  induction ways with
  | nil => exact fun rest met => ⟨⟨rest, met⟩, .refl, Or.inr rfl⟩
  | cons way ways ih =>
    intro rest met
    obtain ⟨hway, hways⟩ := List.forall_mem_cons.mp hways
    obtain ⟨⟨stack, met'⟩, hfirst, hrefused | hstack⟩ := hway (ways ++ rest) met
    · exact ⟨_, hfirst, Or.inl hrefused⟩
    · cases hstack
      obtain ⟨t, hothers, hend⟩ := ih hways rest met'
      exact ⟨t, hfirst.trans hothers, hend⟩

/-- A tour comes to the end of each directory. Links are no doors, so there is less and less below
the directories that it opens. -/
theorem passes (h : Host) (config : Config) (root : Path) (base way : Route) :
    Passes h config root base [way] := by
  induction way using walk.induct h config root base with
  | case1 way why hfault =>
    intro rest met
    cases hmet : isRefused ⟨way :: rest, met⟩ with
    | true => exact ⟨_, .refl, Or.inl hmet⟩
    | false => exact ⟨_, .single (step_of_fault hmet hfault), Or.inr rfl⟩
  | case2 way hopen ih =>
    intro rest met
    cases hmet : isRefused ⟨way :: rest, met⟩ with
    | true => exact ⟨_, .refl, Or.inl hmet⟩
    | false =>
      have hdoors : Passes h config root base
          ((doors h config (base ++ way)).map fun name => way ++ [name]) := by
        refine passes_all fun v hv => ?_
        obtain ⟨name, hname, rfl⟩ := List.mem_map.mp hv
        exact ih ⟨name, hname⟩
      obtain ⟨t, hbehind, hend⟩ := hdoors rest
        (met ++ (listing h (base ++ way)).filterMap (meet h config root way))
      exact ⟨t, .head (step_of_open hmet hopen) hbehind, hend⟩

/-- Every tour ends. If nothing is refused to it, it has met by then what the walk meets. -/
theorem start_leads (h : Host) (config : Config) (root : Path) (base : Route) : ∃ t,
    Leads h config root base start t ∧ t.step h config root base = none ∧
      (IsWalkable h config root base → t = ⟨[], walk h config root base []⟩) := by
  obtain ⟨⟨stack, met⟩, hleads, hend⟩ := passes h config root base [] [] []
  refine ⟨_, hleads, step_eq_none_iff.mpr hend, fun hwalk => ?_⟩
  have hall : met ++ stack.flatMap (walk h config root base) = walk h config root base [] := by
    simpa [all] using all_leads hleads
  rw [isWalkable_iff, ← hall, List.findSome?_append, Option.or_eq_none_iff] at hwalk
  rcases hend with hrefused | hstack
  · simp [isRefused, hwalk.1] at hrefused
  · cases hstack
    rw [← hall, List.flatMap_nil, List.append_nil]

end Tour

theorem pairwise_files_walked (hd : h.disk.HasEntryNames) :
    (walked h config root base).files.Pairwise fun s t => Text.le s t = true ∧ s ≠ t :=
  (List.pairwise_mergeSort Text.le_trans Text.le_total _).and (nodup_files_walked hd)

/-- Everything in the accessible directories that can be listed can be looked up. -/
theorem isWalkable_iff_accessible (hbase : h.disk.item? base = some .directory) :
    IsWalkable h config root base ↔ ∀ way name, Accessible h config root base way →
      h.fault? (root.join (.down way)) = none → name ∈ h.disk.names (base ++ way) →
      h.disk.CanFollow (root.join (.down (way ++ [name]))) := by
  simp only [IsWalkable, reached_iff hbase]

theorem mem_files_walked_iff (hd : h.disk.HasEntryNames) (hroot : h.disk.resolve root = .ok base)
    (hbase : h.disk.item? base = some .directory) (hwalk : IsWalkable h config root base)
    {file : Text} : file ∈ (walked h config root base).files ↔
      ∃ way name, Accessible h config root base way ∧ h.fault? (root.join (.down way)) = none ∧
        (suffix name).lower ∈ config.extensions ∧ h.disk.IsFileEntry root base way name ∧
        file = (Path.down (way ++ [name])).text := by
  -- names of entries are plain, so a path down by them leads to the entry itself
  have hentry {way : Route} {name : Text} (hway : Reached h config root base [] way)
      (hopen : h.fault? (root.join (.down way)) = none)
      (hname : name ∈ h.disk.names (base ++ way)) :
      isSource h config root way name = true ↔
        (suffix name).lower ∈ config.extensions ∧ h.disk.IsFileEntry root base way name := by
    rw [isSource_eq_true, (hway.realWay hbase).isFile_iff_entry (hway.entryNames hd)
      (hd.of_mem_names hname) hroot (hwalk way name hway hopen hname), hasSourceSuffix,
      List.contains_iff_mem]
  simp only [mem_files_walked, ← reached_iff hbase]
  constructor
  · rintro ⟨way, name, hway, hopen, hname, hsource, rfl⟩
    obtain ⟨hsuffix, hfile⟩ := (hentry hway hopen hname).mp hsource
    exact ⟨way, name, hway, hopen, hsuffix, hfile, rfl⟩
  · rintro ⟨way, name, hway, hopen, hsuffix, hfile, rfl⟩
    have hname := hfile.mem_names
    exact ⟨way, name, hway, hopen, hname, (hentry hway hopen hname).mpr ⟨hsuffix, hfile⟩, rfl⟩

theorem closed_mem_walk_iff {why : Disk.Fault} :
    Sighting.closed way why ∈ walk h config root base [] ↔
      Reached h config root base [] way ∧ h.fault? (root.join (.down way)) = some why := by
  rw [mem_walk_iff]
  constructor
  · rintro ⟨v, hv, hs⟩
    cases hs with
    | closed hfault => exact ⟨hv, hfault⟩
  · rintro ⟨hway, hfault⟩
    exact ⟨way, hway, .closed hfault⟩

theorem mem_warnings_walked (hbase : h.disk.item? base = some .directory) {w : Warning} :
    w ∈ (walked h config root base).warnings ↔
      ∃ way why, Accessible h config root base way ∧
        h.fault? (root.join (.down way)) = some why ∧ w = warning way why := by
  simp only [walked, collect, List.mem_map, Prod.exists, mem_closed, closed_mem_walk_iff,
    reached_iff hbase, and_assoc, eq_comm (a := w)]

/-- Of no directory there are two warnings. -/
theorem nodup_paths_warnings (hd : h.disk.HasEntryNames) :
    ((walked h config root base).warnings.map (·.path)).Nodup := by
  have hclosed : ((walk h config root base []).filterMap Sighting.closed?).Nodup := by
    refine (nodup_walk h config root base []).filterMap ?_
    intro s s' place hs hs'
    cases s with
    | source v | refused v why => cases hs
    | closed v why =>
      cases s' with
      | source v' | refused v' why' => cases hs'
      | closed v' why' =>
        cases hs
        cases hs'
        rfl
  simp only [walked, collect, List.map_map]
  refine hclosed.map_on ?_
  rintro ⟨way, why⟩ hway ⟨way', why'⟩ hway' htext
  obtain ⟨hway, hfault⟩ := closed_mem_walk_iff.mp (mem_closed.mp hway)
  obtain ⟨hway', hfault'⟩ := closed_mem_walk_iff.mp (mem_closed.mp hway')
  obtain rfl := text_down_injective (hway.entryNames hd) (hway'.entryNames hd) htext
  rw [hfault] at hfault'
  cases hfault'
  rfl

theorem join_down_nil (root : Path) : root.join (.down []) = root := by
  simp [join, down]

/-- Where the top itself cannot be listed, nothing is found. -/
theorem walked_of_closed_top {why : Disk.Fault} (hfault : h.fault? root = some why) :
    walked h config root base = ⟨[], [⟨.filesystem, ".", why.description, none⟩], .walk⟩ := by
  have hwalk : walk h config root base [] = [.closed [] why] :=
    walk_of_fault ((join_down_nil root).symm ▸ hfault)
  simp only [walked, collect, hwalk, List.filterMap_cons, List.filterMap_nil, Sighting.source?,
    Sighting.closed?, List.map_nil, List.map_cons, Text.sort, List.mergeSort_nil]
  rfl

/-- A walk comes to an end. It gives a result exactly if every entry of the accessible directories
that can be listed can be looked up. Then it gives the source files of these directories, each once
and in order, and one warning for each accessible directory that can not be listed. It makes no
difference in what order the entries of directories come. -/
theorem walk_finds_exactly (config : Config) (hd : h.disk.HasEntryNames)
    (hroot : h.disk.resolve root = .ok base) (hbase : h.disk.item? base = some .directory)
    (hunlisted : Unlisted h config) :
    (∃ t, Tour.Leads h config root base .start t ∧ t.step h config root base = none) ∧
    ((∃ result, discover h config root = .ok result) ↔
      ∀ way name, Accessible h config root base way → h.fault? (root.join (.down way)) = none →
        name ∈ h.disk.names (base ++ way) →
        h.disk.CanFollow (root.join (.down (way ++ [name])))) ∧
    ∀ found events, discover h config root = .ok (found, events) → found.method = .walk ∧
      (∃ met, Tour.Leads h config root base .start ⟨[], met⟩ ∧
        found.files = Text.sort
          ((met.filterMap Sighting.source?).map fun way => (Path.down way).text) ∧
        found.warnings = (met.filterMap Sighting.closed?).map fun place =>
          warning place.1 place.2) ∧
      found.files.Pairwise (fun s t => Text.le s t = true ∧ s ≠ t) ∧
      (∀ file, file ∈ found.files ↔ ∃ way name, Accessible h config root base way ∧
        h.fault? (root.join (.down way)) = none ∧ (suffix name).lower ∈ config.extensions ∧
        h.disk.IsFileEntry root base way name ∧ file = (Path.down (way ++ [name])).text) ∧
      (∀ w, w ∈ found.warnings ↔ ∃ way why, Accessible h config root base way ∧
        h.fault? (root.join (.down way)) = some why ∧
        w = ⟨.filesystem, (Path.down way).text, why.description, none⟩) ∧
      (found.warnings.map (·.path)).Nodup ∧
      (∀ why, h.fault? root = some why →
        found.files = [] ∧ found.warnings = [⟨.filesystem, ".", why.description, none⟩]) ∧
      ((h.disk.entries.map Prod.fst).Nodup → ∀ h' : Host, h'.disk.entries.Perm h.disk.entries →
        h'.disk.barred = h.disk.barred → h'.disk.here = h.disk.here → h'.faults = h.faults →
        Unlisted h' config → ∃ events', discover h' config root = .ok (found, events')) := by
  obtain ⟨t, hleads, hstop, hend⟩ := Tour.start_leads h config root base
  refine ⟨⟨t, hleads, hstop⟩, ?_, fun found events hfound => ?_⟩
  · rw [discover_isOk_iff hroot hbase, ← isWalkable_iff_accessible hbase]
    constructor
    · intro hunhindered
      cases hunhindered with
      | walk _ hwalk => exact hwalk
      | listing hprefer hgit _ => exact absurd hgit (hunlisted.not_names hprefer _)
    · exact .walk hunlisted
  · obtain ⟨hwalk, rfl⟩ := walked_of_discover hroot hunlisted hfound
    refine ⟨rfl, ⟨_, hend hwalk ▸ hleads, rfl, rfl⟩, pairwise_files_walked hd,
      fun _ => mem_files_walked_iff hd hroot hbase hwalk, fun _ => mem_warnings_walked hbase,
      nodup_paths_warnings hd, ?_, ?_⟩
    · intro why hfault
      rw [walked_of_closed_top hfault]
      exact ⟨rfl, rfl⟩
    · intro hdistinct h' hperm hbarred hhere hfaults hunlisted'
      have halike := Disk.Alike.of_perm hperm hdistinct hbarred hhere
      have hsame := walk_eq_of_alike halike (names_perm_of_perm hperm) hfaults config root base []
      have hwalk' : IsWalkable h' config root base := by
        rwa [isWalkable_iff, hsame, ← isWalkable_iff]
      have hwalked : walked h' config root base = walked h config root base := by
        rw [walked, walked, hsame]
      rw [← hwalked]
      exact discover_of_walk ((halike.resolve_eq root).trans hroot)
        ((halike.item? base).trans hbase) hunlisted' hwalk'

/-- A directory with links to a file, to nowhere, to themselves and to a directory, with a directory
that cannot be listed, and with one that is left out. -/
def cabinet : Host where
  disk :=
    { entries := [
        (["app"], .directory), (["app", "main.js"], .file []),
        (["app", "again.ts"], .link "/app/main.js"), (["app", "loop.js"], .link "loop.js"),
        (["app", "broken.js"], .link "nowhere"), (["app", "alias"], .link "../app/src"),
        (["app", "lib"], .directory), (["app", "lib", "x.js"], .file []),
        (["app", "src"], .directory), (["app", "src", "deep.TS"], .file []),
        (["app", "build"], .directory), (["app", "build", "out.js"], .file [])]
      here := ["app"] }
  faults := [("lib", .denied)]

theorem cabinet_accessible {name : Text}
    (hdoor : name ∈ doors cabinet .default ["app"]) :
    Accessible cabinet .default (.down []) ["app"] [name] :=
  Reached.accessible rfl (.enter .top (by decide +kernel) hdoor)

theorem cabinet_is_walked :
    cabinet.disk.HasEntryNames ∧
    ∃ found events events', discover cabinet .default (.down []) = .ok (found, events) ∧
      ("again.ts" : Text) ∈ found.files ∧ ("src/deep.TS" : Text) ∈ found.files ∧
      ⟨.filesystem, "lib", "Permission denied", none⟩ ∈ found.warnings ∧
      discover { cabinet with disk :=
          { cabinet.disk with entries := cabinet.disk.entries.reverse } } .default (.down []) =
        .ok (found, events') := by
  have hd : cabinet.disk.HasEntryNames := by decide +kernel
  have hunlisted : Unlisted cabinet .default := fun _ => Or.inr ⟨_, rfl, rfl⟩
  have hroot : cabinet.disk.resolve (.down []) = .ok ["app"] := Disk.resolve_down_nil _
  obtain ⟨-, hiff, hresult⟩ := walk_finds_exactly .default hd hroot rfl hunlisted
  have hwalk : IsWalkable cabinet .default (.down []) ["app"] :=
    isWalkable_of_isSearchable (by decide +kernel) hroot
  obtain ⟨⟨found, events⟩, hfound⟩ := hiff.mpr ((isWalkable_iff_accessible rfl).mp hwalk)
  obtain ⟨-, -, -, hfiles, hwarnings, -, -, horder⟩ := hresult found events hfound
  obtain ⟨events', hreverse⟩ := horder (by decide +kernel)
    { cabinet with disk := { cabinet.disk with entries := cabinet.disk.entries.reverse } }
    (List.reverse_perm _) rfl rfl rfl hunlisted
  refine ⟨hd, found, events, events', hfound, ?_, ?_, ?_, hreverse⟩
  · have hlead : cabinet.disk.resolve ((Path.down []).join (.down ["again.ts"])) =
        .ok ["app", "main.js"] := by cbv
    exact (hfiles _).mpr ⟨[], "again.ts", Reached.accessible rfl .top, by decide +kernel,
      by decide +kernel, Or.inr ⟨⟨_, rfl⟩, _, [], hlead, rfl⟩, by decide +kernel⟩
  · have hsrc : Accessible cabinet .default (.down []) ["app"] ["src"] :=
      cabinet_accessible (mem_doors.mpr ⟨rfl, by decide +kernel⟩)
    exact (hfiles _).mpr ⟨["src"], "deep.TS", hsrc, by decide +kernel, by decide +kernel,
      Or.inl ⟨[], rfl⟩, by decide +kernel⟩
  · have hlib : Accessible cabinet .default (.down []) ["app"] ["lib"] :=
      cabinet_accessible (mem_doors.mpr ⟨rfl, by decide +kernel⟩)
    exact (hwarnings _).mpr ⟨["lib"], .denied, hlib, by decide +kernel, by decide +kernel⟩

/-- A script beside a link that cannot be followed. -/
def beside (target : Text) : Host where
  disk :=
    { entries := [(["a.js"], .file []), (["b.js"], .link target), (["lib"], .directory),
        (["lib", "x.js"], .file [])]
      barred := [["lib"]] }
  faults := [("lib", .denied)]

/-- One link that may not be followed, into a directory that may not be searched or to a name that
is too long, and nothing is found at all. -/
theorem walk_fails_beside_link :
    (∀ target, (beside target).disk.HasEntryNames ∧
      (beside target).disk.item? [] = some .directory) ∧
    discover (beside "lib/x.js") .default (.down []) =
      .error (.refused ⟨.denied, some (Text.ofString "b.js")⟩) ∧
    discover (beside (List.replicate 64 (.char '𝄞'))) .default (.down []) =
      .error (.refused ⟨.nameTooLong, some (Text.ofString "b.js")⟩) := by
  have hroot (target : Text) : (beside target).disk.resolve (.down []) = .ok [] :=
    Disk.resolve_down_nil _
  have hunlisted (target : Text) : Unlisted (beside target) .default :=
    fun _ => Or.inr ⟨_, rfl, rfl⟩
  refine ⟨fun target => ⟨?_, rfl⟩, ?_, ?_⟩
  · have hnames : ∀ r ∈ [[Text.ofString "a.js"], ["b.js"], ["lib"], ["lib", "x.js"]],
        ∀ name ∈ r, IsEntryName name := by decide +kernel
    intro e he
    exact hnames e.1 (List.mem_map_of_mem he)
  · have hlink : (listing (beside "lib/x.js") []).findSome?
        (refusal? (beside "lib/x.js") (.down []) []) =
          some ([Text.ofString "b.js"], .denied) := by cbv
    exact discover_of_refusal (hroot _) rfl (hunlisted _) rfl hlink
  · have hlink : (listing (beside (List.replicate 64 (.char '𝄞'))) []).findSome?
        (refusal? (beside (List.replicate 64 (.char '𝄞'))) (.down []) []) =
          some ([Text.ofString "b.js"], .nameTooLong) := by cbv
    exact discover_of_refusal (hroot _) rfl (hunlisted _) rfl hlink

end Discovery

end ScriptAudit
