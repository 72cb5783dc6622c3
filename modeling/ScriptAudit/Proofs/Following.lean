import Mathlib.Data.List.Infix
import Mathlib.Tactic.SplitIfs
import ScriptAudit.Disk
import ScriptAudit.Proofs.PathText

/-! Where names lead on a disk. What a name leads to does not depend on the names behind it, but the
links that were followed count against a bound, so the rest is followed with what is left of it.
Where all directories on the way are real ones, names lead to where they stand, unless one of them
may not be looked up. -/

namespace ScriptAudit.Disk

open ScriptAudit.Path

variable {d : Disk} {hops hops' : Nat} {root p : Path} {here base way r : Route}
  {name target : Text} {names more rest : List Text} {e : Fault} {item : Option Item}

/-- Entries have names that a file system can give them. -/
def HasEntryNames (d : Disk) : Prop := ∀ e ∈ d.entries, ∀ name ∈ e.1, IsEntryName name

instance (d : Disk) : Decidable d.HasEntryNames :=
  inferInstanceAs (Decidable (∀ e ∈ d.entries, ∀ name ∈ e.1, IsEntryName name))

/-- In a directory that may be searched, the names can be looked up that are not too long. -/
def Admits (d : Disk) (here : Route) (name : Text) : Prop :=
  here ∉ d.barred ∧ fits name = true

instance (d : Disk) (here : Route) (name : Text) : Decidable (d.Admits here name) :=
  inferInstanceAs (Decidable (_ ∧ _))

/-- A name whose entry is asked for in the directory `here`. -/
structure Asks (d : Disk) (here : Route) (name : Text) : Prop where
  directory : d.item? here = some .directory
  isName : name ≠ [] ∧ name ≠ [dot] ∧ name ≠ [dot, dot]
  admits : d.Admits here name

theorem lookUp_of_not_directory (hdir : d.item? here ≠ some .directory) (name : Text) :
    d.lookUp here name = .stop .notDirectory := by
  rw [lookUp, if_pos hdir]

theorem lookUp_of_asks (h : d.Asks here name) :
    d.lookUp here name = .ofItem (here ++ [name]) (d.item? (here ++ [name])) := by
  obtain ⟨hdir, ⟨hnil, hdot, hdots⟩, hbarred, hfits⟩ := h
  simp [lookUp, hdir, hnil, hbarred, hdot, hdots, hfits]

theorem lookUp_of_admits (hdir : d.item? here = some .directory) (hname : IsEntryName name)
    (hadmits : d.Admits here name) :
    d.lookUp here name = .ofItem (here ++ [name]) (d.item? (here ++ [name])) :=
  lookUp_of_asks ⟨hdir, ⟨hname.1, hname.2.2.1, hname.2.2.2⟩, hadmits⟩

/-- Where no entry is asked for, a name leads to a directory, or there is none to look it up in, or
it may not be looked up. -/
theorem lookUp_of_not_asks (h : ¬d.Asks here name) :
    (∃ r, d.lookUp here name = .go r ∧ d.item? r = some .directory) ∨
      d.lookUp here name = .stop .notDirectory ∨
      ¬d.Admits here name ∧ ∃ why, d.lookUp here name = .stop why ∧ why.isAbsence = false := by
  unfold lookUp
  split_ifs with hdir hnil hbarred hdot hdots hup hfits
  · exact Or.inr (Or.inl rfl)
  · exact Or.inl ⟨_, rfl, not_not.mp hdir⟩
  · refine Or.inr (Or.inr ⟨fun hadmits => hadmits.1 ?_, _, rfl, rfl⟩)
    simpa using hbarred
  · exact Or.inl ⟨_, rfl, not_not.mp hdir⟩
  · exact Or.inl ⟨_, rfl, hup⟩
  · exact Or.inr (Or.inl rfl)
  · refine Or.inr (Or.inr ⟨fun hadmits => ?_, _, rfl, rfl⟩)
    rw [hadmits.2] at hfits
    cases hfits
  · refine absurd ⟨not_not.mp hdir, ⟨hnil, hdot, hdots⟩, ?_, ?_⟩ h
    · simpa using hbarred
    · simpa using hfits

/-- A name that may not be looked up is not one that leads to nothing. -/
theorem lookUp_of_not_admits (hdir : d.item? here = some .directory) (hname : IsEntryName name)
    (hadmits : ¬d.Admits here name) :
    ∃ why, why.isAbsence = false ∧ d.lookUp here name = .stop why := by
  obtain ⟨hnil, -, hdot, hdots⟩ := hname
  by_cases hbarred : here ∈ d.barred
  · exact ⟨.denied, rfl, by simp [lookUp, hdir, hnil, hbarred]⟩
  · have hfits : fits name = false := by simpa [Admits, hbarred] using hadmits
    exact ⟨.nameTooLong, rfl, by simp [lookUp, hdir, hnil, hbarred, hdot, hdots, hfits]⟩

theorem Look.ofItem_eq_stop : Look.ofItem r item = .stop e ↔ e = .missing ∧ item = none := by
  cases item with
  | none => simp [ofItem, eq_comm]
  | some item => cases item <;> simp [ofItem]

theorem Look.ofItem_eq_go {there : Route} :
    Look.ofItem r item = .go there → there = r ∧ item ≠ none := by
  cases item with
  | none => simp [ofItem]
  | some item => cases item <;> simp [ofItem, eq_comm]

theorem Look.ofItem_eq_link :
    Look.ofItem r item = .link target ↔ item = some (.link target) := by
  cases item with
  | none => simp [ofItem]
  | some item => cases item <;> simp [ofItem]

theorem item?_of_lookUp_missing (h : d.lookUp here name = .stop .missing) :
    d.Asks here name ∧ d.item? (here ++ [name]) = none := by
  by_cases hasks : d.Asks here name
  · rw [lookUp_of_asks hasks] at h
    exact ⟨hasks, (Look.ofItem_eq_stop.mp h).2⟩
  · rcases lookUp_of_not_asks hasks with ⟨r, hgo, -⟩ | hstop | ⟨-, why, hstop, hwhy⟩
    · rw [hgo] at h
      cases h
    · rw [hstop] at h
      cases h
    · rw [hstop] at h
      cases h
      cases hwhy

theorem item?_of_lookUp_link (h : d.lookUp here name = .link target) :
    d.item? (here ++ [name]) = some (.link target) := by
  by_cases hasks : d.Asks here name
  · rw [lookUp_of_asks hasks] at h
    exact Look.ofItem_eq_link.mp h
  · rcases lookUp_of_not_asks hasks with ⟨r, hgo, -⟩ | hstop | ⟨-, why, hstop, -⟩
    · rw [hgo] at h
      cases h
    all_goals
      rw [hstop] at h
      cases h

theorem item?_of_lookUp_go (h : d.lookUp here name = .go r) : d.item? r ≠ none := by
  by_cases hasks : d.Asks here name
  · rw [lookUp_of_asks hasks] at h
    obtain ⟨rfl, hitem⟩ := Look.ofItem_eq_go h
    exact hitem
  · rcases lookUp_of_not_asks hasks with ⟨r', hgo, hdir⟩ | hstop | ⟨-, why, hstop, -⟩
    · rw [hgo] at h
      cases h
      simp [hdir]
    all_goals
      rw [hstop] at h
      cases h

theorem follow_of_stop (h : d.lookUp here name = .stop e) :
    d.follow hops here (name :: rest) = .error e := by
  rw [follow, h]

theorem follow_of_go (h : d.lookUp here name = .go r) :
    d.follow hops here (name :: rest) = d.follow hops r rest := by
  rw [follow, h]

theorem follow_zero_of_link (h : d.lookUp here name = .link target) :
    d.follow 0 here (name :: rest) = .error .tooManyLinks := by
  rw [follow, h]

theorem follow_succ_of_link (h : d.lookUp here name = .link target) :
    d.follow (hops + 1) here (name :: rest) =
      d.follow hops (linkStart here target) (target.splitOn slash ++ rest) := by
  rw [follow, h]

/-- Induction along the way that names are followed. -/
theorem follow_induction (d : Disk) {motive : Nat → Route → List Text → Prop}
    (nil : ∀ hops here, motive hops here [])
    (stop : ∀ hops here name rest why, d.lookUp here name = .stop why →
      motive hops here (name :: rest))
    (go : ∀ hops here name rest there, d.lookUp here name = .go there →
      motive hops there rest → motive hops here (name :: rest))
    (link : ∀ hops here name rest target, d.lookUp here name = .link target →
      (∀ left, left < hops →
        motive left (linkStart here target) (target.splitOn slash ++ rest)) →
      motive hops here (name :: rest))
    (hops : Nat) (here : Route) (names : List Text) : motive hops here names := by
  match names with
  | [] => exact nil hops here
  | name :: rest =>
    cases hlook : d.lookUp here name with
    | stop why => exact stop hops here name rest why hlook
    | go there =>
      exact go hops here name rest there hlook
        (follow_induction d nil stop go link hops there rest)
    | link target =>
      exact link hops here name rest target hlook fun left _ =>
        follow_induction d nil stop go link left _ _
termination_by (hops, names.length)

/-- Links that can be followed with few hops are followed to the same place with more. -/
theorem follow_mono (hless : hops ≤ hops')
    (h : d.follow hops here names ≠ .error .tooManyLinks) :
    d.follow hops' here names = d.follow hops here names := by
  induction hops, here, names using follow_induction d generalizing hops' with
  | nil hops here => rw [follow, follow]
  | stop hops here name rest why hlook => rw [follow_of_stop hlook, follow_of_stop hlook]
  | go hops here name rest there hlook ih =>
    rw [follow_of_go hlook] at h
    rw [follow_of_go hlook, follow_of_go hlook, ih hless h]
  | link hops here name rest target hlook ih =>
    cases hops with
    | zero => exact absurd (follow_zero_of_link hlook) h
    | succ hops =>
      obtain ⟨more, rfl⟩ : ∃ more, hops' = more + 1 := ⟨hops' - 1, by omega⟩
      rw [follow_succ_of_link hlook] at h
      rw [follow_succ_of_link hlook, follow_succ_of_link hlook,
        ih hops (Nat.lt_succ_self hops) (by omega) h]

theorem directory_of_follow (h : d.follow hops here (name :: names) = .ok r) :
    d.item? here = some .directory := by
  by_contra hdir
  rw [follow_of_stop (lookUp_of_not_directory hdir name)] at h
  cases h

/-- Names fail, or lead somewhere with some links left, whatever comes behind them. -/
theorem follow_append (d : Disk) (hops : Nat) (here : Route) (names : List Text) :
    (∃ e, ∀ more, d.follow hops here (names ++ more) = .error e) ∨
    ∃ left r, ∀ more, d.follow hops here (names ++ more) = d.follow left r more := by
  induction hops, here, names using follow_induction d with
  | nil hops here => exact Or.inr ⟨hops, here, fun _ => rfl⟩
  | stop hops here name rest why hlook => exact Or.inl ⟨why, fun _ => follow_of_stop hlook⟩
  | go hops here name rest there hlook ih =>
    simpa only [List.cons_append, follow_of_go hlook] using ih
  | link hops here name rest target hlook ih =>
    cases hops with
    | zero => exact Or.inl ⟨.tooManyLinks, fun _ => follow_zero_of_link hlook⟩
    | succ hops =>
      simpa only [List.cons_append, follow_succ_of_link hlook, List.append_assoc] using
        ih hops (Nat.lt_succ_self hops)

theorem follow_append_of_ok (h : d.follow hops here names = .ok r) :
    ∃ left, ∀ more, d.follow hops here (names ++ more) = d.follow left r more := by
  rcases follow_append d hops here names with ⟨e, he⟩ | ⟨left, r', hleft⟩
  · have hnone := he []
    rw [List.append_nil, h] at hnone
    cases hnone
  · have hnone := hleft []
    rw [List.append_nil, h, follow] at hnone
    cases hnone
    exact ⟨left, hleft⟩

/-- Whatever comes before a name leads to a directory. -/
theorem exists_directory_of_follow (names : List Text)
    (h : d.follow hops here (names ++ name :: more) = .ok r) :
    ∃ r', d.follow hops here names = .ok r' ∧ d.item? r' = some .directory := by
  rcases follow_append d hops here names with ⟨e, he⟩ | ⟨left, r', hleft⟩
  · rw [he] at h
    cases h
  · have hnone := hleft []
    rw [List.append_nil, follow] at hnone
    refine ⟨r', hnone, ?_⟩
    rw [hleft] at h
    exact directory_of_follow h

/-- The directory `base` and all below it on the way down are real ones. -/
def RealWay (d : Disk) (base way : Route) : Prop :=
  ∀ v, v <+: way → d.item? (base ++ v) = some .directory

namespace RealWay

theorem base_directory (h : d.RealWay base way) : d.item? base = some .directory := by
  have hbase := h [] List.nil_prefix
  rwa [List.append_nil] at hbase

theorem concat (h : d.RealWay base way)
    (hitem : d.item? (base ++ way ++ [name]) = some .directory) :
    d.RealWay base (way ++ [name]) := by
  intro v hv
  rcases List.prefix_concat_iff.mp hv with rfl | hv
  · rwa [← List.append_assoc]
  · exact h v hv

theorem tail (h : d.RealWay base (name :: way)) : d.RealWay (base ++ [name]) way := by
  intro v hv
  have hitem := h (name :: v) (List.cons_prefix_cons.mpr ⟨rfl, hv⟩)
  rwa [List.append_assoc, List.singleton_append]

/-- Down a real way one comes to where it ends, or to a name that may not be looked up. -/
theorem follow_cases (h : d.RealWay base way) (hnames : ∀ name ∈ way, IsEntryName name) :
    (∃ why, why.isAbsence = false ∧ ∀ hops more, d.follow hops base (way ++ more) = .error why) ∨
    ∀ hops more, d.follow hops base (way ++ more) = d.follow hops (base ++ way) more := by
  induction way generalizing base with
  | nil => exact Or.inr fun hops more => by rw [List.nil_append, List.append_nil]
  | cons name way ih =>
    obtain ⟨hname, hway⟩ := List.forall_mem_cons.mp hnames
    by_cases hadmits : d.Admits base name
    · have hitem := h [name] (List.cons_prefix_cons.mpr ⟨rfl, List.nil_prefix⟩)
      have hlook := lookUp_of_admits h.base_directory hname hadmits
      rw [hitem] at hlook
      simpa only [List.cons_append, follow_of_go hlook, List.append_assoc, List.nil_append] using
        ih h.tail hway
    · obtain ⟨why, hwhy, hlook⟩ := lookUp_of_not_admits h.base_directory hname hadmits
      exact Or.inl ⟨why, hwhy, fun hops more => follow_of_stop hlook⟩

theorem cons (hbase : d.item? base = some .directory) (h : d.RealWay (base ++ [name]) way) :
    d.RealWay base (name :: way) := by
  intro v hv
  cases v with
  | nil => rwa [List.append_nil]
  | cons name' v =>
    obtain ⟨rfl, hinner⟩ := List.cons_prefix_cons.mp hv
    have hitem := h v hinner
    rwa [List.append_assoc, List.singleton_append] at hitem

end RealWay

theorem resolve_down_nil (d : Disk) : d.resolve (.down []) = .ok d.here := by
  rw [resolve, down, follow]
  rfl

theorem start_join (d : Disk) (root : Path) (ws : List Text) :
    d.start (root.join (.down ws)) = d.start root := rfl

/-- Below a path that leads somewhere, names are followed from there. -/
theorem resolve_join (h : d.resolve root = .ok base) :
    ∃ left, ∀ ws, d.resolve (root.join (.down ws)) = d.follow left base ws := by
  obtain ⟨left, hleft⟩ := follow_append_of_ok h
  refine ⟨left, fun ws => ?_⟩
  rw [← hleft ws, resolve, start_join]
  rfl

/-- A path that can be followed until it is known whether there is something at its end. -/
def CanFollow (d : Disk) (p : Path) : Prop :=
  ∀ why, d.resolve p = .error why → why.isAbsence = true

theorem canFollow_of_ok (h : d.resolve p = .ok r) : d.CanFollow p := by
  intro why hwhy
  rw [h] at hwhy
  cases hwhy

theorem lead?_eq_error : d.lead? p = .error e ↔ d.resolve p = .error e ∧ e.isAbsence = false := by
  unfold lead?
  cases hr : d.resolve p with
  | ok r => simp
  | error e' =>
    cases he : e'.isAbsence with
    | true =>
      refine iff_of_false (by simp [he]) ?_
      rintro ⟨⟨⟩, hrefused⟩
      rw [he] at hrefused
      cases hrefused
    | false =>
      simp only [he, Bool.false_eq_true, if_false, Except.error.injEq]
      exact ⟨fun h => ⟨h, h ▸ he⟩, And.left⟩

theorem map_lead?_eq_error {α : Type} {f : Option Item → α} :
    (d.lead? p).map f = .error e ↔ d.lead? p = .error e := by
  cases d.lead? p with
  | ok item => simp [Except.map]
  | error why => simp [Except.map]

theorem isFile_eq_error :
    d.isFile p = .error e ↔ d.resolve p = .error e ∧ e.isAbsence = false :=
  map_lead?_eq_error.trans lead?_eq_error

theorem exists?_eq_error :
    d.exists? p = .error e ↔ d.resolve p = .error e ∧ e.isAbsence = false :=
  map_lead?_eq_error.trans lead?_eq_error

theorem canFollow_iff : d.CanFollow p ↔ ∀ why, d.isFile p ≠ .error why := by
  constructor
  · intro h why hwhy
    obtain ⟨hresolve, hrefused⟩ := isFile_eq_error.mp hwhy
    rw [h why hresolve] at hrefused
    cases hrefused
  · intro h why hwhy
    by_contra hrefused
    exact h why (isFile_eq_error.mpr ⟨hwhy, Bool.eq_false_iff.mpr hrefused⟩)

theorem canFollow_of_exists? {found : Bool} (h : d.exists? p = .ok found) : d.CanFollow p := by
  intro why hwhy
  by_contra hrefused
  rw [exists?_eq_error.mpr ⟨hwhy, Bool.eq_false_iff.mpr hrefused⟩] at h
  cases h

theorem isFile_eq_true :
    d.isFile p = .ok true ↔ ∃ r bytes, d.resolve p = .ok r ∧ d.item? r = some (.file bytes) := by
  unfold isFile lead?
  cases d.resolve p with
  | error why =>
    cases hwhy : why.isAbsence with
    | true => simp [hwhy, Except.map]
    | false => simp [hwhy, Except.map]
  | ok r =>
    cases hitem : d.item? r with
    | none => simp [hitem, Except.map]
    | some item => cases item <;> simp [hitem, Except.map]

/-- What can be read as a file below a real way is found in the directory at its end. -/
theorem RealWay.follow_of_isFile (hway : d.RealWay base way) (hnames : ∀ w ∈ way, IsEntryName w)
    (hroot : d.resolve root = .ok base)
    (hfile : d.isFile (root.join (.down (way ++ more))) = .ok true) :
    ∃ left r bytes, d.follow left (base ++ way) more = .ok r ∧
      d.item? r = some (.file bytes) := by
  obtain ⟨r, bytes, hr, hbytes⟩ := isFile_eq_true.mp hfile
  obtain ⟨left, hleft⟩ := resolve_join hroot
  rw [hleft] at hr
  rcases hway.follow_cases hnames with ⟨why, -, herror⟩ | hend
  · rw [herror] at hr
    cases hr
  · exact ⟨left, r, bytes, hend left more ▸ hr, hbytes⟩

theorem RealWay.isFile_ne (hway : d.RealWay base way) (hnames : ∀ w ∈ way, IsEntryName w)
    (hroot : d.resolve root = .ok base) : d.isFile (root.join (.down way)) ≠ .ok true := by
  intro hfile
  rw [← List.append_nil way] at hfile
  obtain ⟨left, r, bytes, hr, hbytes⟩ := hway.follow_of_isFile hnames hroot hfile
  rw [follow] at hr
  cases hr
  rw [hway way List.prefix_rfl] at hbytes
  cases hbytes

/-- What is read as a file stands in its directory, though it may stand there as a link. -/
theorem RealWay.exists_item (hway : d.RealWay base way) (hnames : ∀ w ∈ way, IsEntryName w)
    (hname : IsEntryName name) (hroot : d.resolve root = .ok base)
    (hfile : d.isFile (root.join (.down (way ++ [name]))) = .ok true) :
    ∃ item, d.item? (base ++ way ++ [name]) = some item ∧ item ≠ .directory := by
  obtain ⟨left, r, bytes, hr, -⟩ := hway.follow_of_isFile hnames hroot hfile
  cases hitem : d.item? (base ++ way ++ [name]) with
  | none =>
    have hdir := hway way List.prefix_rfl
    have hadmits : d.Admits (base ++ way) name := by
      by_contra hadmits
      obtain ⟨why, -, hlook⟩ := lookUp_of_not_admits hdir hname hadmits
      rw [follow_of_stop hlook] at hr
      cases hr
    have hlook := lookUp_of_admits hdir hname hadmits
    rw [hitem] at hlook
    rw [follow_of_stop hlook] at hr
    cases hr
  | some item =>
    refine ⟨item, rfl, ?_⟩
    rintro rfl
    have hall : ∀ w ∈ way ++ [name], IsEntryName w := by
      simpa [or_imp, forall_and] using And.intro hnames hname
    exact (hway.concat hitem).isFile_ne hall hroot hfile

end ScriptAudit.Disk
