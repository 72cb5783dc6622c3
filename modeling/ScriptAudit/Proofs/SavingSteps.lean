import Mathlib.Logic.Relation
import ScriptAudit.Proofs.FirstSighting
import ScriptAudit.Proofs.ReportNames

/-! Saving a report, in one go and step by step. A run looks at one candidate after the other, opens
the first that it found free, and then writes piece by piece, until all is written or writing breaks
off. Saving in one go comes to what a run comes to that nobody disturbs. -/

namespace ScriptAudit

open ScriptAudit.Path

namespace Disk

variable {d : Disk} {file : Route} {old bytes : List UInt8}

theorem item?_put (d : Disk) (hfile : file ≠ []) (item : Item) (r : Route) :
    (d.put file item).item? r = if r = file then some item else d.item? r := by
  unfold item? put
  by_cases htop : r = []
  · simp [htop, Ne.symm hfile]
  · simp only [if_neg htop]
    induction d.entries with
    | nil =>
      by_cases hr : r = file
      · simp [Ordered.put, hr]
      · simp [Ordered.put, hr, Ne.symm hr]
    | cons e entries ih =>
      by_cases he : e.1 = file
      · by_cases hr : r = file
        · simp [Ordered.put, he, hr]
        · simp [Ordered.put, he, hr, Ne.symm hr]
      · by_cases hr : e.1 = r
        · have hne : r ≠ file := hr ▸ he
          simp [Ordered.put, hr, hne]
        · simp [Ordered.put, he, hr, ih]

theorem ne_nil_of_file (h : d.item? file = some (.file bytes)) : file ≠ [] := by
  rintro rfl
  cases h

theorem item?_append (h : d.item? file = some (.file old)) (bytes : List UInt8) (r : Route) :
    (d.append file bytes).item? r =
      if r = file then some (.file (old ++ bytes)) else d.item? r := by
  unfold append
  rw [h]
  exact d.item?_put (ne_nil_of_file h) _ r

theorem keeps_append (h : d.item? file = some (.file old)) (bytes : List UInt8) :
    Keeps d (d.append file bytes) := by
  have hitem := item?_append h bytes
  have hother {r : Route} {item : Item} (hr : d.item? r = some item)
      (hplain : ∀ bytes, item ≠ .file bytes) : (d.append file bytes).item? r = some item := by
    rw [hitem, if_neg, hr]
    rintro rfl
    rw [h] at hr
    exact hplain old (Option.some.inj hr).symm
  constructor
  case directory =>
    refine fun r => ⟨fun hr => ?_, fun hr => hother hr (by simp)⟩
    rw [hitem] at hr
    by_cases hfile : r = file
    · rw [if_pos hfile] at hr
      cases hr
    · rwa [if_neg hfile] at hr
  case file =>
    intro r bytes' hr
    rw [hitem]
    by_cases hfile : r = file
    · exact ⟨_, if_pos hfile⟩
    · exact ⟨bytes', by rw [if_neg hfile, hr]⟩
  case link => exact fun r target hr => hother hr (by simp)
  case barred => simp only [append, h, put]
  case here => simp only [append, h, put]

theorem append_withFile (hfile : file ≠ []) (habsent : d.item? file = none)
    (old bytes : List UInt8) :
    (d.withFile file old).append file bytes = d.withFile file (old ++ bytes) := by
  have hitem : (d.withFile file old).item? file = some (.file old) :=
    (gains_withFile hfile habsent old).added
  have hput (item : Item) : Ordered.put Prod.fst (file, item) (d.entries ++ [(file, .file old)]) =
      d.entries ++ [(file, item)] := by
    rw [item?, if_neg hfile, Option.map_eq_none_iff, List.find?_eq_none] at habsent
    rw [Ordered.put_append (by simpa using habsent), Ordered.put, if_pos rfl]
  rw [append, hitem]
  simp only [put, withFile, hput]

end Disk

namespace Host

variable {h opened : Host} {p : Path} {file : Route}

/-- A file that was opened is new and stands where its path leads, whatever is written to it. -/
theorem gains_of_openNew (hopen : h.openNew p = .ok (opened, file)) :
    opened = { h with disk := h.disk.withFile file [] } ∧ file ≠ [] ∧
      file.getLast? = p.names.getLast? ∧
      ∀ bytes, h.disk.Gains (h.disk.withFile file bytes) file bytes ∧
        (h.disk.withFile file bytes).resolve p = .ok file := by
  obtain ⟨-, disk, hdisk, rfl⟩ := openNew_eq_ok.mp hopen
  obtain ⟨rfl, hfile, hgains, hresolve, hlast⟩ := Disk.gains_of_createNew hdisk
  refine ⟨rfl, hfile, hlast, fun bytes => ⟨Disk.gains_withFile hfile hgains.absent bytes, ?_⟩⟩
  have hkeeps := Disk.keeps_append hgains.added bytes
  rw [Disk.append_withFile hfile hgains.absent, List.nil_append] at hkeeps
  exact hkeeps.resolve hresolve

end Host

namespace Artifact

/-- Everything that comes of saving `text` under a path at which the search for a name has
ended. -/
inductive Saves (h : Host) (path : Path) (text : List UInt8) :
    Host → Except Disk.Failure Path → Prop
  | unknown {why : Disk.Fault} (hprobe : h.disk.exists? path = .error why) :
      Saves h path text h (.error ⟨why, some path.text⟩)
  | unopened {why : Disk.Failure} (hfree : h.disk.exists? path = .ok false)
      (hopen : h.openNew path = .error why) : Saves h path text h (.error why)
  | broken {opened : Host} {file : Route} {count : Nat} {why : Disk.Fault}
      (hfree : h.disk.exists? path = .ok false) (hopen : h.openNew path = .ok (opened, file))
      (hfault : h.writingFault = some (count, why)) :
      Saves h path text { h with disk := h.disk.withFile file (text.take count) }
        (.error ⟨why, none⟩)
  | saved {opened : Host} {file : Route} (hfree : h.disk.exists? path = .ok false)
      (hopen : h.openNew path = .ok (opened, file)) (hfault : h.writingFault = none) :
      Saves h path text { h with disk := h.disk.withFile file text } (.ok path)

theorem saves_of_save (h : Host) (root : Path) (title : Text) (stamp : Stamp)
    (lines : List Text) : ∃ k,
    (∀ j < k, h.disk.exists? (candidate root (stem title stamp) j) = .ok true) ∧
    Saves h (candidate root (stem title stamp) k) (document lines)
      (save h root (stem title stamp) lines).1 (save h root (stem title stamp) lines).2 := by
  obtain ⟨k, htaken, ⟨hfree, hpath⟩ | ⟨why, hprobe, hpath⟩⟩ :=
    freePath_cases h.disk root title stamp
  · refine ⟨k, htaken, ?_⟩
    cases hopen : h.openNew (candidate root (stem title stamp) k) with
    | error why =>
      simp only [save, hpath, hopen]
      exact .unopened hfree hopen
    | ok result =>
      obtain ⟨opened, file⟩ := result
      obtain ⟨rfl, hfile, -, hgains⟩ := Host.gains_of_openNew hopen
      have happend := Disk.append_withFile hfile (hgains []).1.absent []
      simp only [List.nil_append] at happend
      rcases Option.eq_none_or_eq_some h.writingFault with hfault | ⟨⟨count, why⟩, hfault⟩
      · simp only [save, hpath, hopen, Host.write, hfault, happend]
        have hsaves : Saves h _ (document lines) _ _ := .saved hfree hopen hfault
        rwa [hfault] at hsaves
      · simp only [save, hpath, hopen, Host.write, hfault, happend]
        have hsaves : Saves h _ (document lines) _ _ := .broken hfree hopen hfault
        rwa [hfault] at hsaves
  · refine ⟨k, htaken, ?_⟩
    simp only [save, hpath]
    exact .unknown hprobe

/-- A report to be saved. -/
structure Job where
  title : Text
  stamp : Stamp
  lines : List Text

namespace Job

def candidate (job : Job) (root : Path) (k : Nat) : Path :=
  Artifact.candidate root (stem job.title job.stamp) k

def text (job : Job) : List UInt8 := document job.lines

end Job

/-- How far a run has come. -/
inductive Stage where
  | probing (k : Nat)
  | opening (k : Nat)
  | writing (path : Path) (file : Route) (rest : List UInt8)
  | saved (path : Path)
  | broken (path : Path) (why : Disk.Failure)
  | failed (why : Disk.Failure)
deriving DecidableEq, Repr

/-- The next thing that a run does. When it writes, or closes what it has written, this may be
denied; else at most `size` bytes behind the first are written at a time. -/
def step (root : Path) (job : Job) (grant : Except Disk.Fault Nat) (h : Host) :
    Stage → Host × Stage
  | .probing k =>
    match h.disk.exists? (job.candidate root k) with
    | .ok true => (h, .probing (k + 1))
    | .ok false => (h, .opening k)
    | .error why => (h, .failed ⟨why, some (job.candidate root k).text⟩)
  | .opening k =>
    match h.openNew (job.candidate root k) with
    | .ok (opened, file) => (opened, .writing (job.candidate root k) file job.text)
    | .error why => (h, .failed why)
  | .writing path file rest =>
    match grant, rest with
    | .error why, _ => (h, .broken path ⟨why, none⟩)
    | .ok _, [] => (h, .saved path)
    | .ok size, byte :: rest =>
      ({ h with disk := h.disk.append file (byte :: rest.take size) },
        .writing path file (rest.drop size))
  | .saved path => (h, .saved path)
  | .broken path why => (h, .broken path why)
  | .failed why => (h, .failed why)

/-- Everything that a step can do. -/
inductive Move (root : Path) (job : Job) (h : Host) : Stage → Host → Stage → Prop
  | taken {k : Nat} (hprobe : h.disk.exists? (job.candidate root k) = .ok true) :
      Move root job h (.probing k) h (.probing (k + 1))
  | free {k : Nat} (hprobe : h.disk.exists? (job.candidate root k) = .ok false) :
      Move root job h (.probing k) h (.opening k)
  | unknown {k : Nat} {why : Disk.Fault}
      (hprobe : h.disk.exists? (job.candidate root k) = .error why) :
      Move root job h (.probing k) h (.failed ⟨why, some (job.candidate root k).text⟩)
  | opened {k : Nat} {opened : Host} {file : Route}
      (hopen : h.openNew (job.candidate root k) = .ok (opened, file)) :
      Move root job h (.opening k) opened (.writing (job.candidate root k) file job.text)
  | refused {k : Nat} {why : Disk.Failure}
      (hopen : h.openNew (job.candidate root k) = .error why) :
      Move root job h (.opening k) h (.failed why)
  | wrote {path : Path} {file : Route} {bytes rest all : List UInt8} (hall : bytes ++ rest = all) :
      Move root job h (.writing path file all)
        { h with disk := h.disk.append file bytes } (.writing path file rest)
  | closed {path : Path} {file : Route} : Move root job h (.writing path file []) h (.saved path)
  | broke {path : Path} {file : Route} {rest : List UInt8} {why : Disk.Failure} :
      Move root job h (.writing path file rest) h (.broken path why)
  | stayed {stage : Stage} : Move root job h stage h stage

variable {root : Path} {job : Job} {h : Host} {k : Nat} {stage : Stage}

theorem move_step (root : Path) (job : Job) (grant : Except Disk.Fault Nat) (h : Host)
    (stage : Stage) :
    Move root job h stage (step root job grant h stage).1 (step root job grant h stage).2 := by
  cases stage with
  | probing k =>
    cases hprobe : h.disk.exists? (job.candidate root k) with
    | ok found =>
      cases found with
      | true =>
        simp only [step, hprobe]
        exact .taken hprobe
      | false =>
        simp only [step, hprobe]
        exact .free hprobe
    | error why =>
      simp only [step, hprobe]
      exact .unknown hprobe
  | opening k =>
    cases hopen : h.openNew (job.candidate root k) with
    | ok result =>
      simp only [step, hopen]
      exact .opened hopen
    | error why =>
      simp only [step, hopen]
      exact .refused hopen
  | writing path file rest =>
    cases grant with
    | error why => exact .broke
    | ok size =>
      cases rest with
      | nil => exact .closed
      | cons byte rest => exact .wrote (by rw [List.cons_append, List.take_append_drop])
  | saved path => exact .stayed
  | broken path why => exact .stayed
  | failed why => exact .stayed

theorem Job.candidate_names (job : Job) (root : Path) (k : Nat) :
    (job.candidate root k).names ≠ [] ∧
      ∀ name, (job.candidate root k).names.getLast? = some name → IsEntryName name := by
  obtain ⟨front, -, hname, hlast⟩ := candidate_getLast? root job.title job.stamp k
  constructor
  · intro hnil
    change (job.candidate root k).names.getLast? = _ at hlast
    rw [hnil] at hlast
    cases hlast
  · intro name hname'
    rw [candidate, hlast] at hname'
    cases hname'
    exact hname

/-- Who opens a file that is there already is told so, or that nothing can be saved at all. -/
theorem openNew_of_resolve {file : Route}
    (hfile : h.disk.resolve (job.candidate root k) = .ok file) :
    h.openNew (job.candidate root k) =
      .error ⟨h.savingFault.getD .alreadyThere, some (job.candidate root k).text⟩ := by
  obtain ⟨hne, hname⟩ := job.candidate_names root k
  have hdisk := Disk.createNew_of_resolve hname hne hfile
  unfold Host.openNew
  rcases Option.eq_none_or_eq_some h.savingFault with hfault | ⟨fault, hfault⟩
  · simp only [hfault, hdisk, Option.getD_none]
  · simp only [hfault, Option.getD_some]

namespace Stage

/-- The path of the file that a run has opened. -/
def path? : Stage → Option Path
  | .writing path _ _ => some path
  | .saved path => some path
  | .broken path _ => some path
  | _ => none

/-- A run has a file of its own, which holds as much of its text as the run has written. -/
inductive Owns (d : Disk) (text : List UInt8) : Stage → Path → Route → Prop
  | writing {path : Path} {file : Route} {written rest : List UInt8}
      (hpath : d.resolve path = .ok file) (hbytes : d.item? file = some (.file written))
      (htext : written ++ rest = text) : Owns d text (.writing path file rest) path file
  | saved {path : Path} {file : Route} (hpath : d.resolve path = .ok file)
      (hbytes : d.item? file = some (.file text)) : Owns d text (.saved path) path file
  | broken {path : Path} {file : Route} {written : List UInt8} {why : Disk.Failure}
      (hpath : d.resolve path = .ok file) (hbytes : d.item? file = some (.file written))
      (htext : written <+: text) : Owns d text (.broken path why) path file

namespace Owns

variable {d d' : Disk} {text : List UInt8} {path : Path} {file : Route}

theorem resolve (h : Owns d text stage path file) : d.resolve path = .ok file := by
  cases h with
  | writing hpath _ _ => exact hpath
  | saved hpath _ => exact hpath
  | broken hpath _ _ => exact hpath

theorem exists_item (h : Owns d text stage path file) :
    ∃ bytes, d.item? file = some (.file bytes) := by
  cases h with
  | writing _ hbytes _ => exact ⟨_, hbytes⟩
  | saved _ hbytes => exact ⟨_, hbytes⟩
  | broken _ hbytes _ => exact ⟨_, hbytes⟩

theorem of_keeps (h : Owns d text stage path file) (hkeeps : d.Keeps d')
    (hfile : d'.item? file = d.item? file) : Owns d' text stage path file := by
  cases h with
  | writing hpath hbytes htext =>
    exact .writing (hkeeps.resolve hpath) (hfile.trans hbytes) htext
  | saved hpath hbytes => exact .saved (hkeeps.resolve hpath) (hfile.trans hbytes)
  | broken hpath hbytes htext =>
    exact .broken (hkeeps.resolve hpath) (hfile.trans hbytes) htext

end Owns

end Stage

/-- What a step that leads from `stage` on the disk `d` to `stage'` on the disk `d'` leaves as it
was. It takes nothing away, and the only file that it may change is the run's own. A file that the
run has from then on is new, or was its own before. -/
structure Framed (text : List UInt8) (d : Disk) (stage : Stage) (d' : Disk) (stage' : Stage) :
    Prop where
  keeps : d.Keeps d'
  item? : ∀ r item, d.item? r = some item → d'.item? r = some item ∨
    ∃ path, stage.path? = some path ∧ d.resolve path = .ok r
  owns : ∀ path, stage'.path? = some path → ∃ file, stage'.Owns d' text path file ∧
    (d.item? file = none ∨ stage.path? = some path)

theorem Framed.of_same {d : Disk} {text : List UInt8} {stage' : Stage}
    (howns : ∀ path, stage'.path? = some path → stage.path? = some path ∧
      ∃ file, stage'.Owns d text path file) : Framed text d stage d stage' where
  keeps := .refl d
  item? _ _ hr := Or.inl hr
  owns path hpath := by
    obtain ⟨hpath', file, hfile⟩ := howns path hpath
    exact ⟨file, hfile, Or.inr hpath'⟩

theorem Move.framed {host : Host} {stage' : Stage} (hmove : Move root job h stage host stage')
    (howns : ∀ path, stage.path? = some path → ∃ file, stage.Owns h.disk job.text path file) :
    Framed job.text h.disk stage host.disk stage' := by
  cases hmove with
  | taken _ => exact .of_same fun path hpath => by cases hpath
  | free _ => exact .of_same fun path hpath => by cases hpath
  | unknown _ => exact .of_same fun path hpath => by cases hpath
  | opened hopen =>
    obtain ⟨rfl, -, -, hfile⟩ := Host.gains_of_openNew hopen
    obtain ⟨hgains, hfile⟩ := hfile []
    refine ⟨hgains.keeps, fun _ _ hr => Or.inl (hgains.item?_eq hr), fun path hpath => ?_⟩
    cases hpath
    exact ⟨_, .writing hfile hgains.added (List.nil_append _), Or.inl hgains.absent⟩
  | refused hopen => exact .of_same fun path hpath => by cases hpath
  | @wrote path file bytes rest all hall =>
    obtain ⟨_, howns⟩ := howns path rfl
    cases howns with
    | @writing _ _ written _ hpath hbytes htext =>
      have hkeeps := Disk.keeps_append hbytes bytes
      have hitem := Disk.item?_append hbytes bytes
      refine ⟨hkeeps, fun r item hr => ?_, fun path' hpath' => ?_⟩
      · by_cases hfile : r = file
        · exact Or.inr ⟨path, rfl, hfile ▸ hpath⟩
        · left
          rw [hitem, if_neg hfile, hr]
      · cases hpath'
        refine ⟨file, .writing (hkeeps.resolve hpath) ((hitem file).trans (if_pos rfl)) ?_,
          Or.inr rfl⟩
        rw [List.append_assoc, hall, htext]
  | @closed path file =>
    obtain ⟨_, howns⟩ := howns path rfl
    cases howns with
    | writing hpath hbytes htext =>
      rw [List.append_nil] at htext
      rw [htext] at hbytes
      refine .of_same fun path' hpath' => ?_
      cases hpath'
      exact ⟨rfl, file, .saved hpath hbytes⟩
  | @broke path file rest why =>
    obtain ⟨_, howns⟩ := howns path rfl
    cases howns with
    | @writing _ _ written _ hpath hbytes htext =>
      refine .of_same fun path' hpath' => ?_
      cases hpath'
      exact ⟨rfl, file, .broken hpath hbytes ⟨rest, htext⟩⟩
  | stayed => exact .of_same fun path hpath => ⟨hpath, howns path hpath⟩

/-- A run that has no file yet, or never gets one, has changed nothing. -/
theorem Move.host_eq {host : Host} {stage' : Stage} (hmove : Move root job h stage host stage')
    (hnone : stage'.path? = none) : host = h ∧ stage.path? = none := by
  cases hmove with
  | taken _ => exact ⟨rfl, rfl⟩
  | free _ => exact ⟨rfl, rfl⟩
  | unknown _ => exact ⟨rfl, rfl⟩
  | opened _ => cases hnone
  | refused _ => exact ⟨rfl, rfl⟩
  | wrote _ => cases hnone
  | closed => cases hnone
  | broke => cases hnone
  | stayed => exact ⟨rfl, hnone⟩

end Artifact

end ScriptAudit
