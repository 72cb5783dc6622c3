import Mathlib.Data.List.Flatten
import ScriptAudit.Audit
import ScriptAudit.Proofs.DirectoryWalk
import ScriptAudit.Proofs.GrowingDisk

/-! Two disks with the same source files. One of them may have more, if only it is no directory and
does not have the suffix of a source. Then the same files are discovered on both, and what is read
from them is the same. -/

namespace ScriptAudit

open ScriptAudit.Path

namespace Text

theorem filter_sort (p : Text → Bool) (ts : List Text) : (sort ts).filter p = sort (ts.filter p) :=
  List.Perm.eq_of_pairwise (fun _ _ _ _ => le_antisymm)
    ((List.pairwise_mergeSort le_trans le_total ts).filter p)
    (List.pairwise_mergeSort le_trans le_total _)
    (((sort_perm ts).filter p).trans (sort_perm _).symm)

end Text

namespace Disk

theorem mem_names_iff {d : Disk} {r : Route} {name : Text} :
    name ∈ d.names r ↔ d.item? (r ++ [name]) ≠ none := by
  rw [mem_names, item?, if_neg (by simp), ne_eq, Option.map_eq_none_iff, List.find?_eq_none]
  push Not
  constructor
  · rintro ⟨item, he⟩
    exact ⟨_, he, decide_eq_true rfl⟩
  · rintro ⟨⟨r', item⟩, he, hr⟩
    obtain rfl : r' = r ++ [name] := of_decide_eq_true hr
    exact ⟨item, he⟩

end Disk

theorem Host.fault?_eq {h h' : Host} (hfaults : h'.faults = h.faults) (p : Path) :
    h'.fault? p = h.fault? p := by
  rw [fault?, fault?, hfaults]

/-- What version control answers after files were added: what it answered before, or a listing with
their names besides. -/
inductive Listing.Follows (root : Path) (added : Path → Prop) : Listing → Listing → Prop
  | same (listing : Listing) : Listing.Follows root added listing listing
  | names {listed listed' : List Text} (hkept : ∀ t ∈ listed, t ∈ listed')
      (hnew : ∀ t ∈ listed', t ∈ listed ∨ added (root.join (.ofText t))) :
      Listing.Follows root added (.names listed) (.names listed')

namespace Discovery

variable {h h' : Host} {d d' : Disk} {config : Config} {root : Path} {base : Route}
  {listed listed' : List Text}

theorem filter_listing_eq {p : Text → Bool} {here : Route}
    (hp : ∀ name, p name = true → (name ∈ h'.disk.names here ↔ name ∈ h.disk.names here)) :
    (listing h' here).filter p = (listing h here).filter p := by
  rw [listing, listing, Text.filter_sort, Text.filter_sort]
  refine Text.sort_eq_of_perm ((List.perm_ext_iff_of_nodup ((Disk.nodup_names _ _).filter p)
    ((Disk.nodup_names _ _).filter p)).mpr fun name => ?_)
  rw [List.mem_filter, List.mem_filter]
  exact and_congr_left (hp name)

/-- A name that a source file can have. -/
def isSourceName (config : Config) (name : Text) : Bool := hasSourceSuffix config (suffix name)

/-- Everything on `d` is also on `d'`. What is only on `d'` is no directory, does not have the name
of a source file, is not reached under such a name either, and could always be looked up. -/
structure SameSources (config : Config) (root : Path) (base : Route) (d d' : Disk) : Prop where
  item : ∀ r item, d.item? r = some item → d'.item? r = some item
  directory : ∀ r, d'.item? r = some .directory → d.item? r = some .directory
  named : ∀ r name, isSourceName config name = true →
    d'.item? (r ++ [name]) = d.item? (r ++ [name])
  resolve : ∀ p r, d.resolve p = .ok r → d'.resolve p = .ok r
  lead : ∀ p name, p.names.getLast? = some name → isSourceName config name = true →
    d'.lead? p = d.lead? p
  follow : ∀ p, d.CanFollow p → d'.CanFollow p
  fresh : ∀ way name, d.item? (base ++ way ++ [name]) = none →
    d'.item? (base ++ way ++ [name]) ≠ none → d.CanFollow (root.join (.down (way ++ [name])))

namespace SameSources

theorem refl (config : Config) (root : Path) (base : Route) (d : Disk) :
    SameSources config root base d d :=
  ⟨fun _ _ hr => hr, fun _ hr => hr, fun _ _ _ => rfl, fun _ _ hr => hr, fun _ _ _ _ => rfl,
    fun _ hp => hp, fun _ _ hnone hsome => absurd hnone hsome⟩

theorem of_gains {file : Route} {bytes : List UInt8} {name : Text} (hgains : d.Gains d' file bytes)
    (hlinks : d.HasNoDanglingLinks) (hlast : file.getLast? = some name)
    (hname : isSourceName config name = false)
    (hfresh : ∀ way name, file = base ++ way ++ [name] →
      d.CanFollow (root.join (.down (way ++ [name])))) :
    SameSources config root base d d' where
  item _ _ hr := hgains.item?_eq hr
  directory r hr := (hgains.directory_iff r).mp hr
  named r name' hname' := by
    refine hgains.other _ ?_
    rintro rfl
    rw [List.getLast?_concat] at hlast
    cases hlast
    rw [hname] at hname'
    cases hname'
  resolve _ _ hr := hgains.keeps.resolve hr
  lead p name' hlast' hname' := by
    refine hgains.lead?_eq hlinks ?_ ?_
    · intro hnil
      rw [hnil] at hlast'
      cases hlast'
    · rw [hlast', hlast]
      rintro ⟨⟩
      rw [hname] at hname'
      cases hname'
  follow _ hp := hgains.canFollow hp
  fresh way name hnone hsome := by
    refine hfresh way name ?_
    by_contra hne
    exact hsome ((hgains.other _ (Ne.symm hne)).trans hnone)

theorem isFile_eq (hsame : SameSources config root base d d') {p : Path} {name : Text}
    (hlast : p.names.getLast? = some name) (hname : isSourceName config name = true) :
    d'.isFile p = d.isFile p := by
  rw [Disk.isFile, Disk.isFile, hsame.lead p name hlast hname]

theorem read_eq (hsame : SameSources config root base d d') {p : Path}
    (hfile : d.isFile p = .ok true) : d'.read p = d.read p := by
  obtain ⟨r, bytes, hr, hbytes⟩ := Disk.isFile_eq_true.mp hfile
  rw [Disk.read_eq_ok.mpr ⟨r, hr, hbytes⟩,
    Disk.read_eq_ok.mpr ⟨r, hsame.resolve p r hr, hsame.item r _ hbytes⟩]

section

variable (hsame : SameSources config root base h.disk h'.disk) (hfaults : h'.faults = h.faults)

include hsame

theorem isEntered_eq (here : Route) : isEntered h' config here = isEntered h config here := by
  funext name
  have hiff : h'.disk.item? (here ++ [name]) = some .directory ↔
      h.disk.item? (here ++ [name]) = some .directory :=
    ⟨hsame.directory _, hsame.item _ _⟩
  simp only [isEntered, hiff]

theorem isSource_eq (way : Route) : isSource h' config root way = isSource h config root way := by
  funext name
  rw [Bool.eq_iff_iff, isSource_eq_true, isSource_eq_true]
  refine and_congr_right fun hname => ?_
  have hlast : (root.join (.down (way ++ [name]))).names.getLast? = some name := by
    simp [join, down]
  rw [hsame.isFile_eq hlast hname]

theorem filter_isSource_eq (here way : Route) :
    (listing h' here).filter (isSource h' config root way) =
      (listing h here).filter (isSource h config root way) := by
  rw [hsame.isSource_eq way]
  refine filter_listing_eq fun name hsource => ?_
  have hname : isSourceName config name = true := (isSource_eq_true.mp hsource).1
  rw [Disk.mem_names_iff, Disk.mem_names_iff, hsame.named here name hname]

/-- What is met in a directory is the same, if nothing in it is refused. -/
theorem filterMap_meet_eq (way : Route)
    (hfollow : ∀ name ∈ h.disk.names (base ++ way),
      h.disk.CanFollow (root.join (.down (way ++ [name])))) :
    (listing h' (base ++ way)).filterMap (meet h' config root way) =
      (listing h (base ++ way)).filterMap (meet h config root way) := by
  have hfollow' : ∀ name ∈ listing h' (base ++ way),
      h'.disk.CanFollow (root.join (.down (way ++ [name]))) := by
    intro name hname
    refine hsame.follow _ ?_
    by_cases hold : name ∈ h.disk.names (base ++ way)
    · exact hfollow name hold
    · exact hsame.fresh way name (not_not.mp (mt Disk.mem_names_iff.mpr hold))
        (Disk.mem_names_iff.mp (mem_listing.mp hname))
  rw [filterMap_meet hfollow', filterMap_meet fun name hname => hfollow name (mem_listing.mp hname),
    hsame.filter_isSource_eq]

theorem doors_eq (here : Route) : doors h' config here = doors h config here := by
  rw [doors, doors, hsame.isEntered_eq here, List.filter_reverse, List.filter_reverse]
  refine congrArg List.reverse (filter_listing_eq fun name hdoor => ?_)
  have hdir : h.disk.item? (here ++ [name]) = some .directory :=
    of_decide_eq_true (Bool.and_eq_true_iff.mp hdoor).1
  rw [Disk.mem_names_iff, Disk.mem_names_iff, hdir, hsame.item _ _ hdir]

include hfaults

theorem walk_eq (hwalk : IsWalkable h config root base) {way : Route}
    (hway : Reached h config root base [] way) :
    walk h' config root base way = walk h config root base way := by
  have hfault (p : Path) : h'.fault? p = h.fault? p := Host.fault?_eq hfaults p
  induction way using walk.induct h config root base with
  | case1 way why hwhy =>
    rw [walk_of_fault hwhy, walk_of_fault ((hfault _).trans hwhy)]
  | case2 way hopen ih =>
    rw [walk_of_open hopen, walk_of_open ((hfault _).trans hopen),
      hsame.filterMap_meet_eq way fun name hname => hwalk way name hway hopen hname,
      hsame.doors_eq]
    exact congrArg _ (List.flatMap_congr fun name hdoor =>
      ih ⟨name, hdoor⟩ (.enter hway hopen hdoor))

theorem isWalkable (hwalk : IsWalkable h config root base) : IsWalkable h' config root base := by
  rw [isWalkable_iff] at hwalk ⊢
  rwa [hsame.walk_eq hfaults (isWalkable_iff.mpr hwalk) .top]

theorem walked_eq (hwalk : IsWalkable h config root base) :
    walked h' config root base = walked h config root base := by
  rw [walked, walked, hsame.walk_eq hfaults hwalk .top]

end

end SameSources

theorem getLast?_join {p q : Path} (hq : q.names ≠ []) :
    (p.join q).names.getLast? = q.names.getLast? := by
  unfold join
  split
  · exact List.getLast?_append_of_ne_nil _ hq
  · rfl

/-- A path of no names leads to the directory that is asked, or to the top. -/
theorem join_of_names_nil {q : Path} (hroot : d.resolve root = .ok base)
    (hbase : d.item? base = some .directory) (hq : q.names = []) :
    ∃ r, d.resolve (root.join q) = .ok r ∧ d.item? r = some .directory := by
  by_cases hanchor : q.anchor.isEmpty = true
  · refine ⟨base, ?_, hbase⟩
    rwa [join, if_pos hanchor, hq, List.append_nil]
  · refine ⟨[], ?_, rfl⟩
    rw [join, if_neg hanchor, Disk.resolve, hq, Disk.follow, Disk.start, if_neg hanchor]

/-- A file that is listed and accepted goes by the name of a source file. -/
theorem source_of_accepts (root : Path) {q : Path} (hq : q.names ≠ [])
    (haccepts : accepts config q = true) :
    ∃ name, (root.join q).names.getLast? = some name ∧ isSourceName config name = true := by
  obtain ⟨name, hlast⟩ := Option.ne_none_iff_exists'.mp (mt List.getLast?_eq_none_iff.mp hq)
  refine ⟨name, (getLast?_join hq).trans hlast, ?_⟩
  have hsuffix := (Bool.and_eq_true_iff.mp haccepts).1
  rwa [lastSuffix, hlast, Option.getD_some] at hsuffix

section

variable (hsame : SameSources config root base h.disk h'.disk)
  (hroot : h.disk.resolve root = .ok base) (hbase : h.disk.item? base = some .directory)
  (hkept : ∀ t ∈ listed, t ∈ listed')
  (hnew : ∀ t ∈ listed', t ∈ listed ∨ ∃ name,
    (root.join (.ofText t)).names.getLast? = some name ∧ isSourceName config name = false)

include hnew in
/-- Of the names that are listed besides, none is accepted. -/
theorem mem_of_accepts {t : Text} (ht : t ∈ listed') (hnames : (ofText t).names ≠ [])
    (haccepts : accepts config (.ofText t) = true) : t ∈ listed := by
  refine (hnew t ht).resolve_right ?_
  rintro ⟨name', hlast', hname'⟩
  obtain ⟨name, hlast, hname⟩ := source_of_accepts root hnames haccepts
  rw [hlast] at hlast'
  cases hlast'
  rw [hname] at hname'
  cases hname'

include hsame hroot hbase hnew in
theorem SameSources.isListable (hlisted : IsListable h.disk config root listed) :
    IsListable h'.disk config root listed' := by
  intro t ht hne haccepts
  by_cases hnames : (ofText t).names = []
  · obtain ⟨r, hr, -⟩ := join_of_names_nil hroot hbase hnames
    exact Disk.canFollow_of_ok (hsame.resolve _ _ hr)
  · exact hsame.follow _ (hlisted t (mem_of_accepts hnew ht hnames haccepts) hne haccepts)

include hsame hroot hbase hkept hnew in
theorem SameSources.fromListing_ok {files : List Text}
    (hfiles : fromListing h config root listed = .ok files) :
    fromListing h' config root listed' = .ok files := by
  obtain ⟨hlisted, hnodup, hsorted, hmem⟩ := fromListing_eq_ok hfiles
  obtain ⟨files', hfiles'⟩ :=
    fromListing_of_isListable (hsame.isListable hroot hbase hnew hlisted)
  obtain ⟨-, hnodup', hsorted', hmem'⟩ := fromListing_eq_ok hfiles'
  have hnames {d : Disk} {t : Text} (hroot : d.resolve root = .ok base)
      (hbase : d.item? base = some .directory)
      (hfile : d.isFile (root.join (.ofText t)) = .ok true) : (ofText t).names ≠ [] := by
    intro hnil
    obtain ⟨r, hr, hdir⟩ := join_of_names_nil hroot hbase hnil
    obtain ⟨r', bytes, hr', hbytes⟩ := Disk.isFile_eq_true.mp hfile
    rw [hr] at hr'
    cases hr'
    rw [hdir] at hbytes
    cases hbytes
  have hsame (t : Text) : t ∈ files' ↔ t ∈ files := by
    rw [hmem, hmem']
    constructor
    · rintro ⟨ht, hne, haccepts, hfile⟩
      have hnil := hnames (hsame.resolve _ _ hroot) (hsame.item _ _ hbase) hfile
      obtain ⟨name, hlast, hname⟩ := source_of_accepts root hnil haccepts
      exact ⟨mem_of_accepts hnew ht hnil haccepts, hne, haccepts,
        hsame.isFile_eq hlast hname ▸ hfile⟩
    · rintro ⟨ht, hne, haccepts, hfile⟩
      obtain ⟨name, hlast, hname⟩ :=
        source_of_accepts root (hnames hroot hbase hfile) haccepts
      exact ⟨hkept t ht, hne, haccepts, (hsame.isFile_eq hlast hname).trans hfile⟩
  have hperm := (List.perm_ext_iff_of_nodup hnodup' hnodup).mpr hsame
  rw [hfiles', ← hsorted, ← hsorted', Text.sort_eq_of_perm hperm]

end

theorem unlisted_of_follows {added : Path → Prop} (hunlisted : Unlisted h config)
    (hgit : Listing.Follows root added h.git h'.git) : Unlisted h' config := by
  intro hprefer
  rcases hunlisted hprefer with ⟨complaint, hbefore⟩ | ⟨why, hbefore, hwhy⟩
  · rw [hbefore] at hgit
    generalize h'.git = after at hgit
    cases hgit
    exact Or.inl ⟨complaint, rfl⟩
  · rw [hbefore] at hgit
    generalize h'.git = after at hgit
    cases hgit
    exact Or.inr ⟨why, rfl, hwhy⟩

/-- On both disks the same is discovered, if version control names nothing else that goes by the
name of a source file. -/
theorem SameSources.discover_ok {added : Path → Prop}
    (hsame : ∀ base, h.disk.resolve root = .ok base →
      SameSources config root base h.disk h'.disk) (hfaults : h'.faults = h.faults)
    (hgit : Listing.Follows root added h.git h'.git)
    (hadded : ∀ path, added path → ∃ name,
      path.names.getLast? = some name ∧ isSourceName config name = false)
    {found : Discovery} {events : List Event}
    (hfound : discover h config root = .ok (found, events)) :
    ∃ events', discover h' config root = .ok (found, events') := by
  obtain ⟨base, hroot, hbase, hlisting | ⟨hunlisted, hwalk, rfl⟩⟩ := discover_eq_ok hfound
  · have hsame := hsame base hroot
    obtain ⟨listed, files, hprefer, hbefore, hfiles, rfl⟩ := hlisting
    obtain ⟨listed', hafter, hkept, hnew⟩ : ∃ listed', h'.git = .names listed' ∧
        (∀ t ∈ listed, t ∈ listed') ∧ ∀ t ∈ listed', t ∈ listed ∨ ∃ name,
          (root.join (.ofText t)).names.getLast? = some name ∧
            isSourceName config name = false := by
      rw [hbefore] at hgit
      generalize h'.git = after at hgit
      cases hgit with
      | same => exact ⟨listed, rfl, fun _ ht => ht, fun _ ht => Or.inl ht⟩
      | names hkept hnew =>
        exact ⟨_, rfl, hkept, fun t ht => (hnew t ht).imp_right (hadded _)⟩
    exact ⟨_, discover_of_listing (hsame.resolve _ _ hroot) (hsame.item _ _ hbase) hprefer hafter
      (hsame.fromListing_ok hroot hbase hkept hnew hfiles)⟩
  · have hsame := hsame base hroot
    rw [← hsame.walked_eq hfaults hwalk]
    exact discover_of_walk (hsame.resolve _ _ hroot) (hsame.item _ _ hbase)
      (unlisted_of_follows hunlisted hgit) (hsame.isWalkable hfaults hwalk)

/-- What is discovered are files. -/
theorem isFile_of_discover (hd : h.disk.HasEntryNames) {found : Discovery} {events : List Event}
    (hfound : discover h config root = .ok (found, events)) {file : Text}
    (hfile : file ∈ found.files) : h.disk.isFile (root.join (.ofText file)) = .ok true := by
  obtain ⟨base, hroot, hbase, hlisting | ⟨-, -, rfl⟩⟩ := discover_eq_ok hfound
  · obtain ⟨listed, files, -, -, hfiles, rfl⟩ := hlisting
    exact (((fromListing_eq_ok hfiles).2.2.2 file).mp hfile).2.2.2
  · obtain ⟨way, name, hway, -, hname, hsource, rfl⟩ := mem_files_walked.mp hfile
    rw [ofText_text_down (by simp) (hd.concat (hway.entryNames hd) hname)]
    exact (isSource_eq_true.mp hsource).2

end Discovery

namespace Audit

open Syntax

variable {h h' : Host} {config : Config} {root : Path} {file : Text}

theorem load_eq {base : Route} (hsame : Discovery.SameSources config root base h.disk h'.disk)
    (hfaults : h'.faults = h.faults) (parse : Grammar → String → Node)
    (hfile : h.disk.isFile (root.join (.ofText file)) = .ok true) :
    load h' parse root file = load h parse root file := by
  have hread : h'.read (root.join (.ofText file)) = h.read (root.join (.ofText file)) := by
    rw [Host.read, Host.read, Host.fault?_eq hfaults, hsame.read_eq hfile]
  rw [load, load, source, source, hread]

/-- An examination depends only on what is read from the files that were found. -/
theorem examine_congr {load load' : Text → Reading} {found : Discovery}
    (hload : ∀ file ∈ found.files, load' file = load file) :
    examine config load' root found = examine config load root found := by
  have hfiles (p : Progress) :
      found.files.foldlM (addFile config load') p = found.files.foldlM (addFile config load) p := by
    generalize found.files = files at hload
    induction files generalizing p with
    | nil => rfl
    | cons file files ih =>
      obtain ⟨hfile, hrest⟩ := List.forall_mem_cons.mp hload
      have hstep : addFile config load' p file = addFile config load p file := by
        simp only [addFile, hfile]
      simp only [List.foldlM_cons, hstep, fun p => ih p hrest]
  simp only [examine, hfiles]

end Audit

end ScriptAudit
