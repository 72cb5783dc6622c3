import Mathlib.Data.List.Induction
import Mathlib.Data.List.Nodup
import ScriptAudit.Discovery
import ScriptAudit.Proofs.Following

/-! What a walk meets. A walk opens a directory through the doors of the directories above it, so
the way down to it is a real one. It opens each directory once, and so it meets nothing twice. A
discovery gives a result exactly if everything that it looks at can be looked up. -/

namespace ScriptAudit

open ScriptAudit.Path

/-- The names that are followed in the place of a link. -/
def Item.targetNames : Item → List Text
  | .link target => target.splitOn slash
  | _ => []

namespace Disk

variable {d : Disk} {r : Route} {name : Text} {item : Item}

theorem nodup_names (d : Disk) (r : Route) : (d.names r).Nodup :=
  Text.nodup_eraseDups _

theorem mem_entries_of_item? (hr : r ≠ []) (h : d.item? r = some item) : (r, item) ∈ d.entries := by
  rw [item?, if_neg hr] at h
  obtain ⟨e, he, rfl⟩ := Option.map_eq_some_iff.mp h
  have hroute : e.1 = r := by simpa using List.find?_some he
  exact hroute ▸ List.mem_of_find?_eq_some he

theorem mem_names_of_item? (h : d.item? (r ++ [name]) = some item) : name ∈ d.names r :=
  mem_names.mpr ⟨item, mem_entries_of_item? (by simp) h⟩

/-- A disk that refuses nothing: all directories may be searched, and no name is too long, nor any
that a link asks for. -/
def IsSearchable (d : Disk) : Prop :=
  d.barred = [] ∧ ∀ e ∈ d.entries,
    (∀ name ∈ e.1, fits name = true) ∧ ∀ name ∈ e.2.targetNames, fits name = true

instance (d : Disk) : Decidable d.IsSearchable := inferInstanceAs (Decidable (_ ∧ _))

theorem IsSearchable.isAbsence {hops : Nat} {here : Route} {names : List Text} {e : Fault}
    (hd : d.IsSearchable) (hnames : ∀ name ∈ names, fits name = true)
    (he : d.follow hops here names = .error e) : e.isAbsence = true := by
  obtain ⟨hbarred, hentries⟩ := hd
  induction hops, here, names using follow_induction d with
  | nil hops here =>
    rw [follow] at he
    cases he
  | stop hops here name rest why hlook =>
    rw [follow_of_stop hlook] at he
    cases he
    by_cases hasks : d.Asks here name
    · rw [lookUp_of_asks hasks] at hlook
      obtain ⟨rfl, -⟩ := Look.ofItem_eq_stop.mp hlook
      rfl
    · rcases lookUp_of_not_asks hasks with ⟨r, hgo, -⟩ | hstop | ⟨hadmits, -⟩
      · rw [hgo] at hlook
        cases hlook
      · rw [hstop] at hlook
        cases hlook
        rfl
      · exact absurd ⟨by simp [hbarred], hnames name List.mem_cons_self⟩ hadmits
  | go hops here name rest there hlook ih =>
    rw [follow_of_go hlook] at he
    exact ih (fun name hname => hnames name (List.mem_cons_of_mem _ hname)) he
  | link hops here name rest target hlook ih =>
    cases hops with
    | zero =>
      rw [follow_zero_of_link hlook] at he
      cases he
      rfl
    | succ hops =>
      rw [follow_succ_of_link hlook] at he
      refine ih hops (Nat.lt_succ_self hops) (fun w hw => ?_) he
      rcases List.mem_append.mp hw with hw | hw
      · have hentry := mem_entries_of_item? (by simp) (item?_of_lookUp_link hlook)
        exact (hentries _ hentry).2 w hw
      · exact hnames w (List.mem_cons_of_mem _ hw)

theorem IsSearchable.canFollow {root : Path} {base : Route} {names : List Text}
    (hd : d.IsSearchable) (hroot : d.resolve root = .ok base)
    (hnames : ∀ name ∈ names, fits name = true) : d.CanFollow (root.join (.down names)) := by
  intro why hwhy
  obtain ⟨left, hleft⟩ := resolve_join hroot
  rw [hleft] at hwhy
  exact hd.isAbsence hnames hwhy

theorem HasEntryNames.of_mem_names (h : d.HasEntryNames) (hname : name ∈ d.names r) :
    IsEntryName name := by
  obtain ⟨item, he⟩ := mem_names.mp hname
  exact h _ he name (by simp)

theorem HasEntryNames.concat {way : Route} (h : d.HasEntryNames)
    (hway : ∀ w ∈ way, IsEntryName w) (hname : name ∈ d.names r) :
    ∀ w ∈ way ++ [name], IsEntryName w := by
  intro w hw
  rcases List.mem_append.mp hw with hw | hw
  · exact hway w hw
  · rw [List.mem_singleton.mp hw]
    exact h.of_mem_names hname

end Disk

namespace Discovery

variable {h : Host} {config : Config} {root : Path} {base top way : Route} {name : Text}
  {s : Sighting} {listed : List Text}

theorem nodup_listing (h : Host) (here : Route) : (listing h here).Nodup :=
  (Text.sort_perm _).nodup_iff.mpr (h.disk.nodup_names here)

theorem nodup_doors (h : Host) (config : Config) (here : Route) : (doors h config here).Nodup :=
  ((List.nodup_reverse).mpr (nodup_listing h here)).filter _

theorem mem_doors {here : Route} : name ∈ doors h config here ↔
    h.disk.item? (here ++ [name]) = some .directory ∧ name ∉ config.excluded := by
  simp only [doors, List.mem_filter, List.mem_reverse, mem_listing, isEntered, Bool.and_eq_true,
    decide_eq_true_eq, Bool.not_eq_true', List.contains_eq_mem, decide_eq_false_iff_not]
  exact ⟨And.right, fun hdoor => ⟨Disk.mem_names_of_item? hdoor.1, hdoor⟩⟩

/-- The directories that a walk from the directory `top` opens, or tries to. -/
inductive Reached (h : Host) (config : Config) (root : Path) (base top : Route) : Route → Prop
  | top : Reached h config root base top top
  | enter {way : Route} {name : Text} (hway : Reached h config root base top way)
      (hopen : h.fault? (root.join (.down way)) = none)
      (hdoor : name ∈ doors h config (base ++ way)) : Reached h config root base top (way ++ [name])

namespace Reached

theorem is_below (hway : Reached h config root base top way) : top <+: way := by
  induction hway with
  | top => exact List.prefix_rfl
  | enter _ _ _ ih => exact ih.trans (List.prefix_append _ _)

/-- What the directory behind a door reaches is reached. -/
theorem through {v : Route} (hopen : h.fault? (root.join (.down top)) = none)
    (hdoor : name ∈ doors h config (base ++ top))
    (hv : Reached h config root base (top ++ [name]) v) : Reached h config root base top v := by
  induction hv with
  | top => exact .enter .top hopen hdoor
  | enter _ hopen' hdoor' ih => exact .enter ih hopen' hdoor'

theorem realWay (hbase : h.disk.item? base = some .directory)
    (hway : Reached h config root base [] way) : h.disk.RealWay base way := by
  induction hway with
  | top =>
    intro v hv
    rwa [List.prefix_nil.mp hv, List.append_nil]
  | enter _ _ hdoor ih => exact ih.concat (mem_doors.mp hdoor).1

theorem entryNames (hd : h.disk.HasEntryNames) (hway : Reached h config root base [] way) :
    ∀ w ∈ way, IsEntryName w := by
  induction hway with
  | top => exact fun w hw => nomatch hw
  | enter _ _ hdoor ih => exact hd.concat ih (mem_names_of_mem_doors hdoor)

theorem not_excluded (hway : Reached h config root base [] way) :
    ∀ w ∈ way, w ∉ config.excluded := by
  induction hway with
  | top => exact fun w hw => nomatch hw
  | enter _ _ hdoor ih =>
    intro w hw
    rcases List.mem_append.mp hw with hw | hw
    · exact ih w hw
    · rw [List.mem_singleton.mp hw]
      exact (mem_doors.mp hdoor).2

end Reached

/-- Whether a walk takes a file of this name for a source. -/
def isSource (h : Host) (config : Config) (root : Path) (way : Route) (name : Text) : Bool :=
  match h.disk.isFile (root.join (.down (way ++ [name]))) with
  | .ok found => hasSourceSuffix config (suffix name) && found
  | .error _ => false

theorem isSource_eq_true : isSource h config root way name = true ↔
    hasSourceSuffix config (suffix name) = true ∧
      h.disk.isFile (root.join (.down (way ++ [name]))) = .ok true := by
  unfold isSource
  cases h.disk.isFile (root.join (.down (way ++ [name]))) with
  | ok found => simp
  | error why => simp

theorem meet_eq_some : meet h config root way name = some s ↔
    isSource h config root way name = true ∧ s = .source (way ++ [name]) ∨
      ∃ why, h.disk.isFile (root.join (.down (way ++ [name]))) = .error why ∧
        s = .refused (way ++ [name]) why := by
  unfold meet isSource
  cases h.disk.isFile (root.join (.down (way ++ [name]))) with
  | ok found => simp [eq_comm (b := s)]
  | error why => simp [eq_comm (b := s)]

/-- What may not be looked up, whatever its suffix is. -/
def refusal? (h : Host) (root : Path) (way : Route) (name : Text) :
    Option (Route × Disk.Fault) :=
  match h.disk.isFile (root.join (.down (way ++ [name]))) with
  | .error why => some (way ++ [name], why)
  | .ok _ => none

theorem bind_refused?_meet :
    (meet h config root way name).bind Sighting.refused? = refusal? h root way name := by
  unfold meet refusal?
  cases h.disk.isFile (root.join (.down (way ++ [name]))) with
  | error why => rfl
  | ok found =>
    dsimp only
    split <;> rfl

/-- Where all names can be looked up, only sources are met. -/
theorem filterMap_meet {names : List Text}
    (hfollow : ∀ name ∈ names, h.disk.CanFollow (root.join (.down (way ++ [name])))) :
    names.filterMap (meet h config root way) =
      (names.filter (isSource h config root way)).map fun name => .source (way ++ [name]) := by
  induction names with
  | nil => rfl
  | cons name names ih =>
    obtain ⟨hname, hnames⟩ := List.forall_mem_cons.mp hfollow
    have hmeet : meet h config root way name =
        if isSource h config root way name = true then some (.source (way ++ [name]))
        else none := by
      unfold meet isSource
      cases hfile : h.disk.isFile (root.join (.down (way ++ [name]))) with
      | ok found => rfl
      | error why => exact absurd hfile (Disk.canFollow_iff.mp hname why)
    rw [List.filterMap_cons, List.filter_cons, hmeet, ih hnames]
    cases isSource h config root way name <;> rfl

/-- What is met in one directory, before any door of it is taken. -/
inductive Sighting.At (h : Host) (config : Config) (root : Path) (base way : Route) :
    Sighting → Prop
  | closed {why : Disk.Fault} (hfault : h.fault? (root.join (.down way)) = some why) :
      Sighting.At h config root base way (.closed way why)
  | source {name : Text} (hopen : h.fault? (root.join (.down way)) = none)
      (hname : name ∈ h.disk.names (base ++ way))
      (hsource : isSource h config root way name = true) :
      Sighting.At h config root base way (.source (way ++ [name]))
  | refused {name : Text} {why : Disk.Fault} (hopen : h.fault? (root.join (.down way)) = none)
      (hname : name ∈ h.disk.names (base ++ way))
      (hwhy : h.disk.isFile (root.join (.down (way ++ [name]))) = .error why) :
      Sighting.At h config root base way (.refused (way ++ [name]) why)

theorem Sighting.at_iff_of_open (hopen : h.fault? (root.join (.down way)) = none) :
    s.At h config root base way ↔
      ∃ name ∈ h.disk.names (base ++ way), meet h config root way name = some s := by
  constructor
  · intro hs
    cases hs with
    | closed hfault =>
      rw [hopen] at hfault
      cases hfault
    | source _ hname hsource => exact ⟨_, hname, meet_eq_some.mpr (Or.inl ⟨hsource, rfl⟩)⟩
    | refused _ hname hwhy => exact ⟨_, hname, meet_eq_some.mpr (Or.inr ⟨_, hwhy, rfl⟩)⟩
  · rintro ⟨name, hname, hmeet⟩
    rcases meet_eq_some.mp hmeet with ⟨hsource, rfl⟩ | ⟨why, hwhy, rfl⟩
    · exact .source hopen hname hsource
    · exact .refused hopen hname hwhy

theorem Sighting.At.unique {v : Route} (hs : s.At h config root base way)
    (hs' : s.At h config root base v) : way = v := by
  cases hs with
  | closed _ =>
    cases hs'
    rfl
  | source _ _ _ =>
    generalize hw : way ++ [_] = w at hs'
    cases hs' with
    | source _ _ _ => exact List.append_inj_left' hw rfl
  | refused _ _ _ =>
    generalize hw : way ++ [_] = w at hs'
    cases hs' with
    | refused _ _ _ => exact List.append_inj_left' hw rfl

theorem walk_of_fault {why : Disk.Fault} (hfault : h.fault? (root.join (.down way)) = some why) :
    walk h config root base way = [.closed way why] := by
  rw [walk, hfault]

theorem walk_of_open (hopen : h.fault? (root.join (.down way)) = none) :
    walk h config root base way =
      (listing h (base ++ way)).filterMap (meet h config root way) ++
        (doors h config (base ++ way)).flatMap
          fun name => walk h config root base (way ++ [name]) := by
  rw [walk, hopen]
  simp only [List.flatMap_subtype, List.unattach_attach]

/-- A walk meets what is in the directory itself, and what is behind its doors. -/
theorem mem_walk : s ∈ walk h config root base way ↔ s.At h config root base way ∨
    h.fault? (root.join (.down way)) = none ∧
      ∃ name ∈ doors h config (base ++ way), s ∈ walk h config root base (way ++ [name]) := by
  cases hfault : h.fault? (root.join (.down way)) with
  | some why =>
    rw [walk_of_fault hfault, List.mem_singleton]
    constructor
    · rintro rfl
      exact Or.inl (.closed hfault)
    · rintro (hs | ⟨hopen, -⟩)
      · cases hs with
        | closed hfault' =>
          rw [hfault] at hfault'
          cases hfault'
          rfl
        | source hopen _ _ | refused hopen _ _ =>
          rw [hfault] at hopen
          cases hopen
      · cases hopen
  | none =>
    rw [walk_of_open hfault, List.mem_append, List.mem_flatMap, Sighting.at_iff_of_open hfault,
      List.mem_filterMap]
    simp only [mem_listing, true_and]

/-- A walk meets exactly what is in the directories that it reaches. -/
theorem mem_walk_iff : s ∈ walk h config root base top ↔
    ∃ way, Reached h config root base top way ∧ s.At h config root base way := by
  constructor
  · intro hs
    induction top using walk.induct h config root base with
    | case1 top why hfault =>
      rcases mem_walk.mp hs with hs | ⟨hopen, -⟩
      · exact ⟨top, .top, hs⟩
      · rw [hfault] at hopen
        cases hopen
    | case2 top hopen ih =>
      rcases mem_walk.mp hs with hs | ⟨-, name, hdoor, hs⟩
      · exact ⟨top, .top, hs⟩
      · obtain ⟨way, hway, hs⟩ := ih ⟨name, hdoor⟩ hs
        exact ⟨way, hway.through hopen hdoor, hs⟩
  · rintro ⟨way, hway, hs⟩
    have hmet : s ∈ walk h config root base way := mem_walk.mpr (Or.inl hs)
    clear hs
    induction hway with
    | top => exact hmet
    | enter _ hopen hdoor ih => exact ih (mem_walk.mpr (Or.inr ⟨hopen, _, hdoor, hmet⟩))

theorem nodup_walk (h : Host) (config : Config) (root : Path) (base top : Route) :
    (walk h config root base top).Nodup := by
  induction top using walk.induct h config root base with
  | case1 top why hfault =>
    rw [walk_of_fault hfault]
    exact List.nodup_singleton _
  | case2 top hopen ih =>
    -- a sighting belongs to one directory, and two doors lead to different ones
    have hbehind {name : Text} {s : Sighting} (hs : s ∈ walk h config root base (top ++ [name])) :
        ∃ way, top ++ [name] <+: way ∧ s.At h config root base way := by
      obtain ⟨way, hway, hs⟩ := mem_walk_iff.mp hs
      exact ⟨way, hway.is_below, hs⟩
    rw [walk_of_open hopen, List.nodup_append, List.nodup_flatMap]
    refine ⟨?_, ⟨fun name hdoor => ih ⟨name, hdoor⟩, ?_⟩, ?_⟩
    · refine (nodup_listing h _).filterMap ?_
      intro name name' s hs hs'
      rcases meet_eq_some.mp hs with ⟨-, rfl⟩ | ⟨why, -, rfl⟩ <;>
        rcases meet_eq_some.mp hs' with ⟨-, heq⟩ | ⟨why', -, heq⟩ <;> simp_all
    · refine (nodup_doors h config _).imp ?_
      intro name name' hne s hs hs'
      obtain ⟨way, hway, hs⟩ := hbehind hs
      obtain ⟨way', hway', hs'⟩ := hbehind hs'
      obtain rfl := hs.unique hs'
      have hsame := (List.prefix_of_prefix_length_le hway hway' (by simp)).eq_of_length (by simp)
      exact hne (by simpa using hsame)
    · rintro s hs _ hs' rfl
      obtain ⟨name, hdoor, hs'⟩ := List.mem_flatMap.mp hs'
      obtain ⟨way, hway, hs'⟩ := hbehind hs'
      have hhere : s.At h config root base top := by
        obtain ⟨file, hfile, hmeet⟩ := List.mem_filterMap.mp hs
        exact (Sighting.at_iff_of_open hopen).mpr ⟨file, mem_listing.mp hfile, hmeet⟩
      obtain rfl := hhere.unique hs'
      have hlength := hway.length_le
      rw [List.length_append, List.length_singleton] at hlength
      omega

theorem mem_sources {way : Route} :
    way ∈ (walk h config root base top).filterMap Sighting.source? ↔
      Sighting.source way ∈ walk h config root base top := by
  rw [List.mem_filterMap]
  constructor
  · rintro ⟨s, hs, hway⟩
    cases s with
    | source v =>
      cases hway
      exact hs
    | closed v why | refused v why => cases hway
  · exact fun hs => ⟨_, hs, rfl⟩

theorem mem_closed {why : Disk.Fault} :
    (way, why) ∈ (walk h config root base top).filterMap Sighting.closed? ↔
      Sighting.closed way why ∈ walk h config root base top := by
  rw [List.mem_filterMap]
  constructor
  · rintro ⟨s, hs, hclosed⟩
    cases s with
    | closed v why =>
      cases hclosed
      exact hs
    | source v | refused v why => cases hclosed
  · exact fun hs => ⟨_, hs, rfl⟩

theorem reached_of_closed {why : Disk.Fault}
    (hs : Sighting.closed way why ∈ walk h config root base top) :
    Reached h config root base top way := by
  obtain ⟨v, hv, hs⟩ := mem_walk_iff.mp hs
  cases hs
  exact hv

/-- What a walk gives, if nothing is refused to it. -/
def walked (h : Host) (config : Config) (root : Path) (base : Route) : Discovery :=
  (collect root (walk h config root base [])).1

/-- The files of a walk are the source files of the directories that it reaches and opens. -/
theorem mem_files_walked {file : Text} : file ∈ (walked h config root base).files ↔
    ∃ way name, Reached h config root base [] way ∧ h.fault? (root.join (.down way)) = none ∧
      name ∈ h.disk.names (base ++ way) ∧ isSource h config root way name = true ∧
      file = (Path.down (way ++ [name])).text := by
  simp only [walked, collect, (Text.sort_perm _).mem_iff, List.mem_map, mem_sources, mem_walk_iff]
  constructor
  · rintro ⟨v, ⟨way, hway, hs⟩, rfl⟩
    cases hs with
    | source hopen hname hsource => exact ⟨way, _, hway, hopen, hname, hsource, rfl⟩
  · rintro ⟨way, name, hway, hopen, hname, hsource, rfl⟩
    exact ⟨_, ⟨way, hway, .source hopen hname hsource⟩, rfl⟩

theorem entryNames_of_source (hd : h.disk.HasEntryNames)
    (hs : Sighting.source way ∈ walk h config root base []) : ∀ w ∈ way, IsEntryName w := by
  obtain ⟨v, hv, hs⟩ := mem_walk_iff.mp hs
  cases hs with
  | source _ hname _ => exact hd.concat (hv.entryNames hd) hname

theorem ne_nil_of_mem_files_walked (hd : h.disk.HasEntryNames) {file : Text}
    (hfile : file ∈ (walked h config root base).files) : file ≠ [] := by
  obtain ⟨way, hway, rfl⟩ := List.mem_map.mp ((Text.sort_perm _).mem_iff.mp hfile)
  exact text_down_ne_nil (entryNames_of_source hd (mem_sources.mp hway))

theorem nodup_files_walked (hd : h.disk.HasEntryNames) :
    (walked h config root base).files.Nodup := by
  refine (Text.sort_perm _).nodup_iff.mpr (List.Nodup.map_on ?_ ?_)
  · intro way hway way' hway' heq
    exact text_down_injective (entryNames_of_source hd (mem_sources.mp hway))
      (entryNames_of_source hd (mem_sources.mp hway')) heq
  · refine (nodup_walk h config root base []).filterMap ?_
    intro s s' way hs hs'
    cases s with
    | source v =>
      cases s' with
      | source v' =>
        cases hs
        cases hs'
        rfl
      | closed v' why | refused v' why => cases hs'
    | closed v why | refused v why => cases hs

/-- A directory that could not be listed is never taken for a file that was found. -/
theorem path_not_mem_files_walked (hd : h.disk.HasEntryNames)
    (hroot : h.disk.resolve root = .ok base) (hbase : h.disk.item? base = some .directory)
    {w : Warning} (hw : w ∈ (walked h config root base).warnings) :
    w.path ∉ (walked h config root base).files := by
  obtain ⟨⟨way, why⟩, hclosed, rfl⟩ := List.mem_map.mp hw
  have hway := reached_of_closed (mem_closed.mp hclosed)
  intro hfile
  obtain ⟨v, name, hv, -, hname, hsource, htext⟩ := mem_files_walked.mp hfile
  have hsame : way = v ++ [name] :=
    text_down_injective (hway.entryNames hd) (hd.concat (hv.entryNames hd) hname) htext
  exact (hway.realWay hbase).isFile_ne (hway.entryNames hd) hroot
    (hsame ▸ (isSource_eq_true.mp hsource).2)

/-- Every entry of the directories that a walk opens can be looked up. -/
def IsWalkable (h : Host) (config : Config) (root : Path) (base : Route) : Prop :=
  ∀ way name, Reached h config root base [] way → h.fault? (root.join (.down way)) = none →
    name ∈ h.disk.names (base ++ way) → h.disk.CanFollow (root.join (.down (way ++ [name])))

theorem isWalkable_iff : IsWalkable h config root base ↔
    (walk h config root base []).findSome? Sighting.refused? = none := by
  rw [List.findSome?_eq_none_iff]
  constructor
  · intro hwalk s hs
    obtain ⟨way, hway, hs⟩ := mem_walk_iff.mp hs
    cases hs with
    | refused hopen hname hwhy =>
      exact absurd hwhy (Disk.canFollow_iff.mp (hwalk way _ hway hopen hname) _)
    | closed _ | source _ _ _ => rfl
  · intro hnone way name hway hopen hname
    refine Disk.canFollow_iff.mpr fun why hwhy => ?_
    have hs := hnone _ (mem_walk_iff.mpr ⟨way, hway, .refused hopen hname hwhy⟩)
    cases hs

/-- On a disk that refuses nothing, a walk is refused nothing. -/
theorem isWalkable_of_isSearchable (hd : h.disk.IsSearchable)
    (hroot : h.disk.resolve root = .ok base) : IsWalkable h config root base := by
  intro way name hway hopen hname
  have hwayfits : ∀ w ∈ way, fits w = true := by
    clear hname hopen
    induction hway with
    | top => exact fun w hw => nomatch hw
    | enter _ _ hdoor ih =>
      obtain ⟨item, hentry⟩ := Disk.mem_names.mp (mem_names_of_mem_doors hdoor)
      exact List.forall_mem_append.mpr ⟨ih, by simpa using (hd.2 _ hentry).1 _ (by simp)⟩
  obtain ⟨item, hentry⟩ := Disk.mem_names.mp hname
  refine hd.canFollow hroot (List.forall_mem_append.mpr ⟨hwayfits, ?_⟩)
  simpa using (hd.2 _ hentry).1 name (by simp)

theorem fromWalk_of_isWalkable (hwalk : IsWalkable h config root base) :
    fromWalk h config root base = .ok (collect root (walk h config root base [])) := by
  simp only [fromWalk, isWalkable_iff.mp hwalk]

theorem fromWalk_eq_ok {result : Discovery × List Event}
    (hresult : fromWalk h config root base = .ok result) :
    IsWalkable h config root base ∧ result = collect root (walk h config root base []) := by
  unfold fromWalk at hresult
  cases hrefused : (walk h config root base []).findSome? Sighting.refused? with
  | some refused =>
    simp only [hrefused] at hresult
    cases hresult
  | none =>
    simp only [hrefused] at hresult
    cases hresult
    exact ⟨isWalkable_iff.mpr hrefused, rfl⟩

theorem present_ok {d : Disk} {names : List Text}
    (hfollow : ∀ name ∈ names, d.CanFollow (root.join (.ofText name))) :
    ∃ files, present d root names = .ok files := by
  induction names with
  | nil => exact ⟨[], rfl⟩
  | cons name names ih =>
    obtain ⟨hname, hnames⟩ := List.forall_mem_cons.mp hfollow
    obtain ⟨files, hfiles⟩ := ih hnames
    cases hfile : d.isFile (root.join (.ofText name)) with
    | error why => exact absurd hfile (Disk.canFollow_iff.mp hname why)
    | ok found =>
      simp only [present, hfile, Except.mapError, hfiles, bind, Except.bind]
      exact ⟨_, rfl⟩

theorem present_cons_eq_ok {d : Disk} {names files : List Text}
    (hfiles : present d root (name :: names) = .ok files) : ∃ found others,
      d.isFile (root.join (.ofText name)) = .ok found ∧ present d root names = .ok others ∧
      files = if found then name :: others else others := by
  cases hfile : d.isFile (root.join (.ofText name)) with
  | error why =>
    simp only [present, hfile, Except.mapError, bind, Except.bind] at hfiles
    cases hfiles
  | ok found =>
    cases hothers : present d root names with
    | error why =>
      simp only [present, hfile, Except.mapError, hothers, bind, Except.bind] at hfiles
      cases hfiles
    | ok others =>
      simp only [present, hfile, Except.mapError, hothers, bind, Except.bind] at hfiles
      cases hfiles
      exact ⟨found, others, rfl, rfl, rfl⟩

theorem present_eq_ok {d : Disk} {names files : List Text}
    (hfiles : present d root names = .ok files) :
    (∀ name ∈ names, d.CanFollow (root.join (.ofText name))) ∧ files.Sublist names ∧
      ∀ t, t ∈ files ↔ t ∈ names ∧ d.isFile (root.join (.ofText t)) = .ok true := by
  induction names generalizing files with
  | nil =>
    cases hfiles
    simp
  | cons name names ih =>
    obtain ⟨found, others, hfile, hothers, rfl⟩ := present_cons_eq_ok hfiles
    obtain ⟨hfollow, hsub, hmem⟩ := ih hothers
    refine ⟨List.forall_mem_cons.mpr ⟨Disk.canFollow_iff.mpr (by simp [hfile]), hfollow⟩, ?_⟩
    cases found with
    | true =>
      refine ⟨hsub.cons_cons name, fun t => ?_⟩
      simp only [if_true, List.mem_cons, hmem]
      constructor
      · rintro (rfl | ⟨ht, htfile⟩)
        · exact ⟨Or.inl rfl, hfile⟩
        · exact ⟨Or.inr ht, htfile⟩
      · rintro ⟨rfl | ht, htfile⟩
        · exact Or.inl rfl
        · exact Or.inr ⟨ht, htfile⟩
    | false =>
      refine ⟨hsub.cons name, fun t => ?_⟩
      simp only [Bool.false_eq_true, if_false, List.mem_cons, hmem]
      constructor
      · exact fun ht => ⟨Or.inr ht.1, ht.2⟩
      · rintro ⟨rfl | ht, htfile⟩
        · rw [hfile] at htfile
          cases htfile
        · exact ⟨ht, htfile⟩

/-- Every listed name that may be that of a source can be looked up. -/
def IsListable (d : Disk) (config : Config) (root : Path) (listed : List Text) : Prop :=
  ∀ t ∈ listed, t ≠ [] → accepts config (.ofText t) = true →
    d.CanFollow (root.join (.ofText t))

theorem mem_accepted {t : Text} :
    t ∈ ((listed.filter fun name => !name.isEmpty).eraseDups.filter fun name =>
        accepts config (.ofText name)) ↔
      t ∈ listed ∧ t ≠ [] ∧ accepts config (.ofText t) = true := by
  simp [List.mem_eraseDups, and_assoc]

theorem fromListing_of_accepted (names : List Text)
    (hnames : (listed.filter fun name => !name.isEmpty).eraseDups.filter
      (fun name => accepts config (.ofText name)) = names) :
    fromListing h config root listed = (present h.disk root names).map Text.sort := by
  rw [fromListing, hnames]
  cases present h.disk root names <;> rfl

theorem fromListing_of_isListable (hlisted : IsListable h.disk config root listed) :
    ∃ files, fromListing h config root listed = .ok files := by
  obtain ⟨files, hfiles⟩ := present_ok fun t ht => by
    obtain ⟨hlisting, hne, haccepts⟩ := mem_accepted.mp ht
    exact hlisted t hlisting hne haccepts
  refine ⟨Text.sort files, ?_⟩
  rw [fromListing_of_accepted _ rfl, hfiles]
  rfl

theorem fromListing_eq_ok {files : List Text}
    (hfiles : fromListing h config root listed = .ok files) :
    IsListable h.disk config root listed ∧ files.Nodup ∧ Text.sort files = files ∧
      ∀ t, t ∈ files ↔ t ∈ listed ∧ t ≠ [] ∧ accepts config (.ofText t) = true ∧
        h.disk.isFile (root.join (.ofText t)) = .ok true := by
  rw [fromListing_of_accepted _ rfl] at hfiles
  cases hfound : present h.disk root ((listed.filter fun name => !name.isEmpty).eraseDups.filter
      fun name => accepts config (.ofText name)) with
  | error why =>
    rw [hfound] at hfiles
    cases hfiles
  | ok found =>
    rw [hfound] at hfiles
    cases hfiles
    obtain ⟨hfollow, hsub, hmem⟩ := present_eq_ok hfound
    refine ⟨fun t ht hne haccepts => hfollow t (mem_accepted.mpr ⟨ht, hne, haccepts⟩), ?_, ?_, ?_⟩
    · exact (Text.sort_perm _).nodup_iff.mpr
        (hsub.nodup ((Text.nodup_eraseDups _).filter _))
    · exact Text.sort_eq_of_perm (Text.sort_perm _)
    · intro t
      rw [(Text.sort_perm _).mem_iff, hmem, mem_accepted]
      simp only [and_assoc]

/-- Version control is not asked, or it has no listing to give. -/
def Unlisted (h : Host) (config : Config) : Prop :=
  config.preferGit = true → (∃ complaint, h.git = .failed complaint) ∨
    ∃ why, h.git = .unstarted why ∧ why.fault = .missing

/-- Everything that is looked at in a discovery can be looked up. -/
inductive Unhindered (h : Host) (config : Config) (root : Path) (base : Route) : Prop
  | listing {listed : List Text} (hprefer : config.preferGit = true) (hgit : h.git = .names listed)
      (hlisted : IsListable h.disk config root listed)
  | walk (hunlisted : Unlisted h config) (hwalk : IsWalkable h config root base)

theorem discover_of_listing (hroot : h.disk.resolve root = .ok base)
    (hbase : h.disk.item? base = some .directory) (hprefer : config.preferGit = true)
    (hgit : h.git = .names listed) {files : List Text}
    (hfiles : fromListing h config root listed = .ok files) :
    discover h config root = .ok (⟨files, [], .git⟩, [.listed files.length root.text]) := by
  simp only [discover, hroot, hbase, hprefer, if_true, hgit, hfiles]

theorem discover_of_unlistable {why : Disk.Failure} (hroot : h.disk.resolve root = .ok base)
    (hbase : h.disk.item? base = some .directory) (hprefer : config.preferGit = true)
    (hgit : h.git = .names listed) (hwhy : fromListing h config root listed = .error why) :
    discover h config root = .error (.refused why) := by
  simp only [discover, hroot, hbase, hprefer, if_true, hgit, hwhy]

theorem discover_of_walk (hroot : h.disk.resolve root = .ok base)
    (hbase : h.disk.item? base = some .directory) (hunlisted : Unlisted h config)
    (hwalk : IsWalkable h config root base) :
    ∃ events, discover h config root = .ok (walked h config root base, events) := by
  simp only [discover, hroot, hbase, walkAfter, fromWalk_of_isWalkable hwalk]
  cases hprefer : config.preferGit with
  | false => exact ⟨_, rfl⟩
  | true =>
    rcases hunlisted hprefer with ⟨complaint, hgit⟩ | ⟨why, hgit, hwhy⟩
    · rw [hgit]
      exact ⟨_, rfl⟩
    · simp only [hgit, hwhy, if_true]
      exact ⟨_, rfl⟩

/-- The first name in the directory itself that may not be looked up ends the discovery. -/
theorem discover_of_refusal {why : Disk.Fault} (hroot : h.disk.resolve root = .ok base)
    (hbase : h.disk.item? base = some .directory) (hunlisted : Unlisted h config)
    (hopen : h.fault? (root.join (.down [])) = none)
    (hfirst : (listing h base).findSome? (refusal? h root []) = some (way, why)) :
    discover h config root = .error (.refused ⟨why, some (root.join (.down way)).text⟩) := by
  have htop : ((listing h base).filterMap (meet h config root [])).findSome? Sighting.refused? =
      some (way, why) := by
    rw [← hfirst, ← List.head?_filterMap, List.filterMap_filterMap, List.head?_filterMap]
    simp only [bind_refused?_meet]
  have hrefused : (walk h config root base []).findSome? Sighting.refused? = some (way, why) := by
    rw [walk_of_open hopen, List.append_nil, List.findSome?_append, htop, Option.some_or]
  simp only [discover, hroot, hbase, walkAfter, fromWalk, hrefused]
  cases hprefer : config.preferGit with
  | false => rfl
  | true =>
    rcases hunlisted hprefer with ⟨complaint, hgit⟩ | ⟨absent, hgit, hmissing⟩
    · rw [hgit]
      rfl
    · simp only [hgit, hmissing, if_true]

theorem walkAfter_eq_ok {said events : List Event} {found : Discovery}
    (hfound : walkAfter h config root base said = .ok (found, events)) :
    IsWalkable h config root base ∧ found = walked h config root base := by
  unfold walkAfter at hfound
  cases hwalk : fromWalk h config root base with
  | error why =>
    rw [hwalk] at hfound
    cases hfound
  | ok result =>
    obtain ⟨hwalkable, rfl⟩ := fromWalk_eq_ok hwalk
    rw [hwalk] at hfound
    cases hfound
    exact ⟨hwalkable, rfl⟩

/-- What a discovery gives was listed or walked to, in a directory. -/
theorem discover_eq_ok {found : Discovery} {events : List Event}
    (hfound : discover h config root = .ok (found, events)) : ∃ base,
      h.disk.resolve root = .ok base ∧ h.disk.item? base = some .directory ∧
      ((∃ listed files, config.preferGit = true ∧ h.git = .names listed ∧
          fromListing h config root listed = .ok files ∧ found = ⟨files, [], .git⟩) ∨
        Unlisted h config ∧ IsWalkable h config root base ∧
          found = walked h config root base) := by
  unfold discover at hfound
  cases hroot : h.disk.resolve root with
  | error why =>
    simp only [hroot] at hfound
    split at hfound <;> cases hfound
  | ok base =>
    simp only [hroot] at hfound
    cases hbase : h.disk.item? base with
    | none =>
      rw [hbase] at hfound
      cases hfound
    | some item =>
      cases item with
      | file bytes | link target =>
        rw [hbase] at hfound
        cases hfound
      | directory =>
        refine ⟨base, rfl, hbase, ?_⟩
        simp only [hbase] at hfound
        cases hprefer : config.preferGit with
        | false =>
          simp only [hprefer, Bool.false_eq_true, if_false] at hfound
          exact Or.inr ⟨by simp [Unlisted, hprefer], walkAfter_eq_ok hfound⟩
        | true =>
          simp only [hprefer, if_true] at hfound
          cases hgit : h.git with
          | names listed =>
            simp only [hgit] at hfound
            cases hfiles : fromListing h config root listed with
            | error why =>
              rw [hfiles] at hfound
              cases hfound
            | ok files =>
              rw [hfiles] at hfound
              cases hfound
              exact Or.inl ⟨listed, files, rfl, rfl, hfiles, rfl⟩
          | unstarted why =>
            simp only [hgit] at hfound
            by_cases hwhy : why.fault = .missing
            · rw [if_pos hwhy] at hfound
              exact Or.inr ⟨fun _ => Or.inr ⟨why, hgit, hwhy⟩, walkAfter_eq_ok hfound⟩
            · rw [if_neg hwhy] at hfound
              cases hfound
          | failed complaint =>
            simp only [hgit] at hfound
            exact Or.inr ⟨fun _ => Or.inl ⟨complaint, hgit⟩, walkAfter_eq_ok hfound⟩

theorem Unlisted.not_names (hunlisted : Unlisted h config) (hprefer : config.preferGit = true)
    (listed : List Text) : h.git ≠ .names listed := by
  intro hgit
  rcases hunlisted hprefer with ⟨complaint, hgit'⟩ | ⟨why, hgit', -⟩
  all_goals
    rw [hgit] at hgit'
    cases hgit'

theorem walked_of_discover (hroot : h.disk.resolve root = .ok base)
    (hunlisted : Unlisted h config) {found : Discovery} {events : List Event}
    (hfound : discover h config root = .ok (found, events)) :
    IsWalkable h config root base ∧ found = walked h config root base := by
  obtain ⟨base', hroot', -, ⟨listed, -, hprefer, hgit, -⟩ | ⟨-, hwalked⟩⟩ := discover_eq_ok hfound
  · exact absurd hgit (hunlisted.not_names hprefer listed)
  · rw [hroot] at hroot'
    cases hroot'
    exact hwalked

/-- In a directory, files are discovered exactly if nothing is refused that is looked at. -/
theorem discover_isOk_iff (hroot : h.disk.resolve root = .ok base)
    (hbase : h.disk.item? base = some .directory) :
    (∃ result, discover h config root = .ok result) ↔ Unhindered h config root base := by
  constructor
  · rintro ⟨⟨found, events⟩, hfound⟩
    obtain ⟨base', hroot', -, hlisting | ⟨hunlisted, hwalk, -⟩⟩ := discover_eq_ok hfound
    · obtain ⟨listed, files, hprefer, hgit, hfiles, -⟩ := hlisting
      exact .listing hprefer hgit (fromListing_eq_ok hfiles).1
    · rw [hroot] at hroot'
      cases hroot'
      exact .walk hunlisted hwalk
  · intro hunhindered
    cases hunhindered with
    | listing hprefer hgit hlisted =>
      obtain ⟨files, hfiles⟩ := fromListing_of_isListable hlisted
      exact ⟨_, discover_of_listing hroot hbase hprefer hgit hfiles⟩
    | walk hunlisted hwalk =>
      obtain ⟨events, hfound⟩ := discover_of_walk hroot hbase hunlisted hwalk
      exact ⟨_, hfound⟩

/-- What is discovered is discovered once, and no warning is about it. -/
theorem files_of_discover (hd : h.disk.HasEntryNames) {found : Discovery} {events : List Event}
    (hfound : discover h config root = .ok (found, events)) : found.files.Nodup ∧
      (∀ file ∈ found.files, file ≠ []) ∧ ∀ w ∈ found.warnings, w.path ∉ found.files := by
  obtain ⟨base, hroot, hbase, hlisting | ⟨-, -, rfl⟩⟩ := discover_eq_ok hfound
  · obtain ⟨listed, files, -, -, hfiles, rfl⟩ := hlisting
    obtain ⟨-, hnodup, -, hmem⟩ := fromListing_eq_ok hfiles
    exact ⟨hnodup, fun file hfile => ((hmem file).mp hfile).2.1, fun w hw => nomatch hw⟩
  · exact ⟨nodup_files_walked hd, fun file hfile => ne_nil_of_mem_files_walked hd hfile,
      fun w hw => path_not_mem_files_walked hd hroot hbase hw⟩

end Discovery

end ScriptAudit
