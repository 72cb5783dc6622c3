import ScriptAudit.Host
import ScriptAudit.Proofs.Following

/-! Disks that grow. As long as nothing is taken away, names lead where they led before. A new file
changes only what led nowhere: a name of its own that is looked up in its directory, or a link that
was waiting for it. -/

namespace ScriptAudit

open ScriptAudit.Path

namespace Disk

variable {d d' d'' : Disk} {hops hops' : Nat} {here r file : Route} {name target : Text}
  {names : List Text} {bytes : List UInt8} {p : Path} {e : Fault}

/-- Names that lead somewhere lead to something. -/
theorem item?_of_follow (hne : names ≠ []) (h : d.follow hops here names = .ok r) :
    d.item? r ≠ none := by
  induction hops, here, names using follow_induction d with
  | nil hops here => exact absurd rfl hne
  | stop hops here name rest why hlook =>
    rw [follow_of_stop hlook] at h
    cases h
  | go hops here name rest there hlook ih =>
    rw [follow_of_go hlook] at h
    cases rest with
    | nil =>
      rw [follow] at h
      cases h
      exact item?_of_lookUp_go hlook
    | cons name' rest => exact ih (List.cons_ne_nil _ _) h
  | link hops here name rest target hlook ih =>
    cases hops with
    | zero =>
      rw [follow_zero_of_link hlook] at h
      cases h
    | succ hops =>
      rw [follow_succ_of_link hlook] at h
      refine ih hops (Nat.lt_succ_self hops) ?_ h
      simp [Text.splitOn_eq, List.splitOn_ne_nil]

/-- Whatever stands on `d` stands on `d'` too, though a file may have other bytes there. There are
no other directories, and the same of them may be searched. -/
structure Keeps (d d' : Disk) : Prop where
  directory : ∀ r, d'.item? r = some .directory ↔ d.item? r = some .directory
  file : ∀ r bytes, d.item? r = some (.file bytes) → ∃ bytes', d'.item? r = some (.file bytes')
  link : ∀ r target, d.item? r = some (.link target) → d'.item? r = some (.link target)
  barred : d'.barred = d.barred
  here : d'.here = d.here

namespace Keeps

theorem refl (d : Disk) : Keeps d d :=
  ⟨fun _ => Iff.rfl, fun _ bytes hr => ⟨bytes, hr⟩, fun _ _ hr => hr, rfl, rfl⟩

theorem asks_iff (h : Keeps d d') : d'.Asks here name ↔ d.Asks here name := by
  constructor
  · rintro ⟨hdir, hname, hadmits⟩
    refine ⟨(h.directory here).mp hdir, hname, ?_⟩
    rwa [Admits, h.barred] at hadmits
  · rintro ⟨hdir, hname, hadmits⟩
    refine ⟨(h.directory here).mpr hdir, hname, ?_⟩
    rwa [Admits, h.barred]

theorem lookUp_of_not_asks (h : Keeps d d') (hasks : ¬d.Asks here name) :
    d'.lookUp here name = d.lookUp here name := by
  unfold Disk.lookUp
  simp only [ne_eq, h.directory, h.barred]
  split_ifs with hdir hnil hbarred hdot hdots hup hfits
  any_goals rfl
  refine absurd ⟨hdir, ⟨hnil, hdot, hdots⟩, ?_, ?_⟩ hasks
  · simpa using hbarred
  · simpa using hfits

theorem ofItem (h : Keeps d d') (hr : d.item? r ≠ none) :
    Look.ofItem r (d'.item? r) = Look.ofItem r (d.item? r) := by
  cases hitem : d.item? r with
  | none => exact absurd hitem hr
  | some item =>
    cases item with
    | file bytes =>
      obtain ⟨bytes', hitem'⟩ := h.file r bytes hitem
      rw [hitem']
      rfl
    | directory => rw [(h.directory r).mpr hitem]
    | link target => rw [h.link r target hitem]

theorem lookUp (h : Keeps d d') (hlook : d.lookUp here name ≠ .stop .missing) :
    d'.lookUp here name = d.lookUp here name := by
  by_cases hasks : d.Asks here name
  · rw [lookUp_of_asks hasks] at hlook ⊢
    rw [lookUp_of_asks (h.asks_iff.mpr hasks)]
    exact h.ofItem fun hnone => hlook (Look.ofItem_eq_stop.mpr ⟨rfl, hnone⟩)
  · exact h.lookUp_of_not_asks hasks

theorem follow (h : Keeps d d') (hr : d.follow hops here names = .ok r) :
    d'.follow hops here names = .ok r := by
  induction hops, here, names using follow_induction d with
  | nil hops here =>
    rw [Disk.follow] at hr ⊢
    exact hr
  | stop hops here name rest why hlook =>
    rw [follow_of_stop hlook] at hr
    cases hr
  | go hops here name rest there hlook ih =>
    have hlook' : d'.lookUp here name = .go there := by rw [h.lookUp (by simp [hlook]), hlook]
    rw [follow_of_go hlook] at hr
    rw [follow_of_go hlook']
    exact ih hr
  | link hops here name rest target hlook ih =>
    have hlook' : d'.lookUp here name = .link target := by rw [h.lookUp (by simp [hlook]), hlook]
    cases hops with
    | zero =>
      rw [follow_zero_of_link hlook] at hr
      cases hr
    | succ hops =>
      rw [follow_succ_of_link hlook] at hr
      rw [follow_succ_of_link hlook']
      exact ih hops (Nat.lt_succ_self hops) hr

theorem start_eq (h : Keeps d d') (p : Path) : d'.start p = d.start p := by
  rw [start, start, h.here]

theorem resolve (h : Keeps d d') (hr : d.resolve p = .ok r) : d'.resolve p = .ok r := by
  rw [Disk.resolve, h.start_eq]
  exact h.follow hr

end Keeps

/-- The disk `d'` is `d` with a new file. -/
structure Gains (d d' : Disk) (file : Route) (bytes : List UInt8) : Prop where
  absent : d.item? file = none
  added : d'.item? file = some (.file bytes)
  other : ∀ r, r ≠ file → d'.item? r = d.item? r
  barred : d'.barred = d.barred
  here : d'.here = d.here

/-- No link, followed from the directory it stands in, leads to a place where nothing is. -/
def HasNoDanglingLinks (d : Disk) : Prop := ∀ here name target,
  d.item? (here ++ [name]) = some (.link target) → d.follow maxHops here [name] ≠ .error .missing

namespace Gains

theorem item?_eq (h : Gains d d' file bytes) {item : Item} (hr : d.item? r = some item) :
    d'.item? r = some item := by
  rw [h.other r ?_, hr]
  rintro rfl
  rw [h.absent] at hr
  cases hr

theorem directory_iff (h : Gains d d' file bytes) (r : Route) :
    d'.item? r = some .directory ↔ d.item? r = some .directory := by
  by_cases hr : r = file
  · simp [hr, h.added, h.absent]
  · rw [h.other r hr]

theorem keeps (h : Gains d d' file bytes) : Keeps d d' :=
  ⟨h.directory_iff, fun _ bytes hr => ⟨bytes, h.item?_eq hr⟩, fun _ _ hr => h.item?_eq hr,
    h.barred, h.here⟩

/-- Where a name led to nothing, it still does, if it is not the one under which the new file is
found. -/
theorem lookUp_of_stop (h : Gains d d' file bytes) (hlook : d.lookUp here name = .stop e) :
    d'.lookUp here name = .stop e ∨
      e = .missing ∧ file = here ++ [name] ∧ d'.lookUp here name = .go file := by
  by_cases hmissing : e = .missing
  · subst hmissing
    obtain ⟨hasks, hnone⟩ := item?_of_lookUp_missing hlook
    rw [lookUp_of_asks (h.keeps.asks_iff.mpr hasks)]
    by_cases hfile : file = here ++ [name]
    · subst hfile
      exact Or.inr ⟨rfl, rfl, by rw [h.added]; rfl⟩
    · left
      rw [h.other _ (Ne.symm hfile), hnone]
      rfl
  · left
    rw [h.keeps.lookUp (by simpa [hlook] using hmissing), hlook]

/-- Names that led nowhere still do, or lead to the new file, or break off at it. -/
theorem follow_of_error (h : Gains d d' file bytes) (he : d.follow hops here names = .error e) :
    d'.follow hops here names = .error e ∨
      e = .missing ∧ (d'.follow hops here names = .error .notDirectory ∨
        d'.follow hops here names = .ok file) := by
  induction hops, here, names using follow_induction d with
  | nil hops here =>
    rw [follow] at he
    cases he
  | stop hops here name rest why hlook =>
    rw [follow_of_stop hlook] at he
    cases he
    rcases h.lookUp_of_stop hlook with hlook' | ⟨hmissing, hfile, hlook'⟩
    · exact Or.inl (follow_of_stop hlook')
    · refine Or.inr ⟨hmissing, ?_⟩
      rw [follow_of_go hlook']
      cases rest with
      | nil => exact Or.inr (by rw [follow])
      | cons name' rest =>
        exact Or.inl (follow_of_stop (lookUp_of_not_directory (by simp [h.added]) name'))
  | go hops here name rest there hlook ih =>
    have hlook' : d'.lookUp here name = .go there := by
      rw [h.keeps.lookUp (by simp [hlook]), hlook]
    rw [follow_of_go hlook] at he
    rw [follow_of_go hlook']
    exact ih he
  | link hops here name rest target hlook ih =>
    have hlook' : d'.lookUp here name = .link target := by
      rw [h.keeps.lookUp (by simp [hlook]), hlook]
    cases hops with
    | zero =>
      rw [follow_zero_of_link hlook] at he
      cases he
      exact Or.inl (follow_zero_of_link hlook')
    | succ hops =>
      rw [follow_succ_of_link hlook] at he
      rw [follow_succ_of_link hlook']
      exact ih hops (Nat.lt_succ_self hops) he

/-- Names that lead to the new file end in its name. A link that leads to it would have been
dangling before. -/
theorem getLast?_of_follow (h : Gains d d' file bytes) (hlinks : d.HasNoDanglingLinks)
    (hhops : hops ≤ maxHops) (he : d.follow hops here names = .error .missing)
    (hfile : d'.follow hops here names = .ok file) : names.getLast? = file.getLast? := by
  induction hops, here, names using follow_induction d with
  | nil hops here =>
    rw [follow] at he
    cases he
  | stop hops here name rest why hlook =>
    rw [follow_of_stop hlook] at he
    cases he
    rcases h.lookUp_of_stop hlook with hlook' | ⟨-, rfl, hlook'⟩
    · rw [follow_of_stop hlook'] at hfile
      cases hfile
    · cases rest with
      | nil => simp
      | cons name' rest =>
        rw [follow_of_go hlook',
          follow_of_stop (lookUp_of_not_directory (by simp [h.added]) name')] at hfile
        cases hfile
  | go hops here name rest there hlook ih =>
    have hlook' : d'.lookUp here name = .go there := by
      rw [h.keeps.lookUp (by simp [hlook]), hlook]
    rw [follow_of_go hlook] at he
    rw [follow_of_go hlook'] at hfile
    cases rest with
    | nil =>
      rw [follow] at he
      cases he
    | cons name' rest =>
      rw [List.getLast?_cons_cons]
      exact ih hhops he hfile
  | link hops here name rest target hlook ih =>
    have hlook' : d'.lookUp here name = .link target := by
      rw [h.keeps.lookUp (by simp [hlook]), hlook]
    cases hops with
    | zero =>
      rw [follow_zero_of_link hlook'] at hfile
      cases hfile
    | succ hops =>
      cases rest with
      | nil =>
        have hdangling : d.follow maxHops here [name] = .error .missing := by
          rw [follow_mono hhops (by simp [he]), he]
        exact absurd hdangling (hlinks here name target (item?_of_lookUp_link hlook))
      | cons name' rest =>
        rw [follow_succ_of_link hlook] at he
        rw [follow_succ_of_link hlook'] at hfile
        have hlast := ih hops (Nat.lt_succ_self hops) (by omega) he hfile
        rwa [List.getLast?_append_of_ne_nil _ (by simp), ← List.getLast?_cons_cons] at hlast

/-- What could be followed still can. -/
theorem canFollow (h : Gains d d' file bytes) (hp : d.CanFollow p) : d'.CanFollow p := by
  cases hr : d.resolve p with
  | ok r => exact canFollow_of_ok (h.keeps.resolve hr)
  | error e =>
    intro why hwhy
    rw [resolve, h.keeps.start_eq] at hwhy
    rcases h.follow_of_error hr with herror | ⟨-, herror | hfound⟩
    · rw [herror] at hwhy
      cases hwhy
      exact hp e hr
    · rw [herror] at hwhy
      cases hwhy
      rfl
    · rw [hfound] at hwhy
      cases hwhy

/-- A path that does not end in the name of the new file leads to what it led to before, or is
refused as before. -/
theorem lead?_eq (h : Gains d d' file bytes) (hlinks : d.HasNoDanglingLinks)
    (hne : p.names ≠ []) (hlast : p.names.getLast? ≠ file.getLast?) :
    d'.lead? p = d.lead? p := by
  cases hr : d.resolve p with
  | ok r =>
    obtain ⟨item, hitem⟩ := Option.ne_none_iff_exists'.mp (item?_of_follow hne hr)
    rw [lead?, lead?, h.keeps.resolve hr, hr]
    exact congrArg Except.ok ((h.item?_eq hitem).trans hitem.symm)
  | error e =>
    have hr' : d'.resolve p = .error e ∨ e = .missing ∧ d'.resolve p = .error .notDirectory := by
      rw [resolve, h.keeps.start_eq]
      rcases h.follow_of_error hr with herror | ⟨rfl, herror | hfound⟩
      · exact Or.inl herror
      · exact Or.inr ⟨rfl, herror⟩
      · exact absurd (h.getLast?_of_follow hlinks le_rfl hr hfound) hlast
    rcases hr' with hr' | ⟨rfl, hr'⟩
    · rw [lead?, lead?, hr, hr']
    · rw [lead?, lead?, hr, hr']
      rfl

end Gains

theorem exists?_eq_true (hne : p.names ≠ []) :
    d.exists? p = .ok true ↔ ∃ r, d.resolve p = .ok r := by
  unfold exists? lead?
  cases hr : d.resolve p with
  | error e => cases he : e.isAbsence <;> simp [he, Except.map]
  | ok r => simpa [Except.map, Option.isSome_iff_ne_none] using item?_of_follow hne hr

theorem read_eq_ok :
    d.read p = .ok bytes ↔ ∃ r, d.resolve p = .ok r ∧ d.item? r = some (.file bytes) := by
  unfold read
  cases hr : d.resolve p with
  | error e => simp [bind, Except.bind]
  | ok r =>
    cases hitem : d.item? r with
    | none => simp [hitem, bind, Except.bind, throw, throwThe, MonadExceptOf.throw]
    | some item =>
      cases item <;>
        simp [hitem, bind, Except.bind, pure, Except.pure, throw, throwThe, MonadExceptOf.throw]

/-- The disk with one more file. -/
def withFile (d : Disk) (file : Route) (bytes : List UInt8) : Disk :=
  { d with entries := d.entries ++ [(file, .file bytes)] }

theorem item?_withFile (hfile : file ≠ []) (habsent : d.item? file = none) (bytes : List UInt8)
    (r : Route) : (d.withFile file bytes).item? r =
      if r = file then some (.file bytes) else d.item? r := by
  unfold item? at habsent ⊢
  rw [if_neg hfile, Option.map_eq_none_iff] at habsent
  by_cases hr : r = file
  · subst hr
    simp [withFile, hfile, List.find?_append, habsent]
  · by_cases htop : r = []
    · simp [htop, Ne.symm hfile]
    · simp [withFile, htop, hr, List.find?_append, Ne.symm hr]

theorem gains_withFile (hfile : file ≠ []) (habsent : d.item? file = none)
    (bytes : List UInt8) : Gains d (d.withFile file bytes) file bytes :=
  ⟨habsent, by rw [item?_withFile hfile habsent, if_pos rfl],
    fun r hr => by rw [item?_withFile hfile habsent, if_neg hr], rfl, rfl⟩

theorem createNew_eq_ok : d.createNew p = .ok (d', file) ↔ ∃ here name,
    p.names.getLast? = some name ∧
    d.resolve { p with names := p.names.dropLast } = .ok here ∧
    d.lookUp here name = .stop .missing ∧ file = here ++ [name] ∧ d' = d.withFile file [] := by
  unfold createNew
  cases hlast : p.names.getLast? with
  | none => simp [throw, throwThe, MonadExceptOf.throw]
  | some name =>
    cases hr : d.resolve { p with names := p.names.dropLast } with
    | error e => simp [bind, Except.bind]
    | ok here =>
      cases hlook : d.lookUp here name with
      | go there => simp [hlook, bind, Except.bind, throw, throwThe, MonadExceptOf.throw]
      | link target => simp [hlook, bind, Except.bind, throw, throwThe, MonadExceptOf.throw]
      | stop why =>
        cases why <;>
          simp [hlook, bind, Except.bind, pure, Except.pure, throw, throwThe, MonadExceptOf.throw,
            withFile]
        constructor
        · rintro ⟨rfl, rfl⟩
          exact ⟨rfl, rfl⟩
        · rintro ⟨rfl, rfl⟩
          exact ⟨rfl, rfl⟩

theorem join_dropLast (hlast : p.names.getLast? = some name) :
    p = Path.join { p with names := p.names.dropLast } (.down [name]) := by
  obtain ⟨front, hfront⟩ := List.getLast?_eq_some_iff.mp hlast
  cases p
  simp_all [Path.join, Path.down]

/-- A file that was created is new and stands where its path leads. -/
theorem gains_of_createNew (h : d.createNew p = .ok (d', file)) : d' = d.withFile file [] ∧
    file ≠ [] ∧ Gains d d' file [] ∧ d'.resolve p = .ok file ∧
      file.getLast? = p.names.getLast? := by
  obtain ⟨here, name, hlast, hhere, hlook, rfl, rfl⟩ := createNew_eq_ok.mp h
  obtain ⟨hasks, habsent⟩ := item?_of_lookUp_missing hlook
  have hgains := gains_withFile (by simp) habsent []
  refine ⟨rfl, by simp, hgains, ?_, by simp [hlast]⟩
  have hlook' := lookUp_of_asks (hgains.keeps.asks_iff.mpr hasks)
  rw [hgains.added] at hlook'
  obtain ⟨left, hleft⟩ := resolve_join (hgains.keeps.resolve hhere)
  rw [join_dropLast hlast, hleft, follow_of_go hlook', follow]

/-- What is found under a path that ends in a plain name stands in the directory before it. -/
theorem directory_of_resolve {anchor : Text} (hname : IsEntryName name)
    (h : d.resolve ⟨anchor, names ++ [name]⟩ = .ok r) :
    ∃ here item, d.resolve ⟨anchor, names⟩ = .ok here ∧ d.Asks here name ∧
      d.item? (here ++ [name]) = some item := by
  obtain ⟨here, hhere, hdir⟩ := exists_directory_of_follow names h
  obtain ⟨left, hleft⟩ := follow_append_of_ok hhere
  have hlook : d.follow left here [name] = .ok r := (hleft [name]).symm.trans h
  have hasks : d.Asks here name := by
    by_contra hasks
    refine hasks ⟨hdir, ⟨hname.1, hname.2.2.1, hname.2.2.2⟩, ?_⟩
    by_contra hadmits
    obtain ⟨why, -, hstop⟩ := lookUp_of_not_admits hdir hname hadmits
    rw [follow_of_stop hstop] at hlook
    cases hlook
  cases hitem : d.item? (here ++ [name]) with
  | none =>
    have hstop := lookUp_of_asks hasks
    rw [hitem] at hstop
    rw [follow_of_stop hstop] at hlook
    cases hlook
  | some item => exact ⟨here, item, hhere, hasks, hitem⟩

/-- Where something stands already, nothing is created. -/
theorem createNew_of_item {item : Item} (hlast : p.names.getLast? = some name)
    (hhere : d.resolve { p with names := p.names.dropLast } = .ok here)
    (hasks : d.Asks here name) (hitem : d.item? (here ++ [name]) = some item) :
    d.createNew p = .error .alreadyThere := by
  have hlook := lookUp_of_asks hasks
  rw [hitem] at hlook
  cases item <;>
    simp [createNew, hlast, hhere, hlook, Look.ofItem, bind, Except.bind, throw, throwThe,
      MonadExceptOf.throw]

theorem createNew_of_resolve (hname : ∀ name, p.names.getLast? = some name → IsEntryName name)
    (hne : p.names ≠ []) (h : d.resolve p = .ok r) : d.createNew p = .error .alreadyThere := by
  obtain ⟨name, hlast⟩ := Option.ne_none_iff_exists'.mp (mt List.getLast?_eq_none_iff.mp hne)
  obtain ⟨front, hnames⟩ := List.getLast?_eq_some_iff.mp hlast
  have hpath : p = ⟨p.anchor, front ++ [name]⟩ := by rw [← hnames]
  rw [hpath] at h
  obtain ⟨here, item, hhere, hasks, hitem⟩ := directory_of_resolve (hname name hlast) h
  refine createNew_of_item hlast ?_ hasks hitem
  rwa [hnames, List.dropLast_concat]

end Disk

theorem Host.openNew_eq_ok {h h' : Host} {p : Path} {file : Route} :
    h.openNew p = .ok (h', file) ↔ h.savingFault = none ∧
      ∃ disk, h.disk.createNew p = .ok (disk, file) ∧ h' = { h with disk := disk } := by
  unfold openNew
  rcases Option.eq_none_or_eq_some h.savingFault with hfault | ⟨fault, hfault⟩
  · cases hdisk : h.disk.createNew p with
    | error why => simp [hfault]
    | ok result =>
      obtain ⟨disk, file'⟩ := result
      simp only [hfault, Except.ok.injEq, Prod.mk.injEq, true_and]
      constructor
      · rintro ⟨rfl, rfl⟩
        exact ⟨disk, ⟨rfl, rfl⟩, rfl⟩
      · rintro ⟨disk', ⟨rfl, rfl⟩, rfl⟩
        exact ⟨rfl, rfl⟩
  · simp [hfault]

end ScriptAudit
