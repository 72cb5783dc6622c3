import Mathlib.Data.List.Permutation
import Mathlib.Logic.Function.Basic
import ScriptAudit.Proofs.SavingSteps

/-! Reports that are saved at the same time. Between any two steps of a run others may take theirs,
so that a name that was found free may be taken when it is opened. -/

namespace ScriptAudit.Artifact

variable {root : Path} {h : Host}

/-- All runs at one time, and the host they share. -/
structure Scene (ι : Type) where
  host : Host
  stage : ι → Stage

/-- One run goes on by a step. -/
structure Turn (ι : Type) where
  who : ι
  grant : Except Disk.Fault Nat

namespace Scene

variable {ι : Type}

def start (h : Host) : Scene ι := ⟨h, fun _ => .probing 0⟩

/-- What holds at any time of runs that started on the host `h`: nothing of what there was has
changed, and every run that has a file has one that is new and that no other has. -/
structure IsOrderly (jobs : ι → Job) (h : Host) (s : Scene ι) : Prop where
  kept : ∀ r item, h.disk.item? r = some item → s.host.disk.item? r = some item
  owns : ∀ i path, (s.stage i).path? = some path →
    ∃ file, (s.stage i).Owns s.host.disk (jobs i).text path file ∧ h.disk.item? file = none
  apart : ∀ i j p q, i ≠ j → (s.stage i).path? = some p → (s.stage j).path? = some q →
    s.host.disk.resolve p ≠ s.host.disk.resolve q

theorem IsOrderly.start (jobs : ι → Job) (h : Host) : IsOrderly jobs h (.start h) :=
  ⟨fun _ _ hr => hr, fun _ _ hpath => (Option.some_ne_none _ hpath.symm).elim,
    fun _ _ _ _ _ hpath => (Option.some_ne_none _ hpath.symm).elim⟩

variable [DecidableEq ι]

def next (root : Path) (jobs : ι → Job) (s : Scene ι) (t : Turn ι) : Scene ι :=
  let done := step root (jobs t.who) t.grant s.host (s.stage t.who)
  ⟨done.1, Function.update s.stage t.who done.2⟩

/-- The runs take their turns in any order. -/
def play (root : Path) (jobs : ι → Job) (s : Scene ι) (turns : List (Turn ι)) : Scene ι :=
  turns.foldl (next root jobs) s

theorem play_append (root : Path) (jobs : ι → Job) (s : Scene ι) (turns more : List (Turn ι)) :
    s.play root jobs (turns ++ more) = (s.play root jobs turns).play root jobs more :=
  List.foldl_append

variable {jobs : ι → Job} {s : Scene ι} {t : Turn ι} {i j : ι}

theorem move_next (root : Path) (jobs : ι → Job) (s : Scene ι) (t : Turn ι) :
    Move root (jobs t.who) s.host (s.stage t.who) (s.next root jobs t).host
      ((s.next root jobs t).stage t.who) := by
  simp only [next, Function.update_self]
  exact move_step root (jobs t.who) t.grant s.host (s.stage t.who)

theorem stage_next_of_ne (hi : i ≠ t.who) : (s.next root jobs t).stage i = s.stage i :=
  Function.update_of_ne hi _ _

theorem IsOrderly.framed (hs : s.IsOrderly jobs h) (root : Path) (t : Turn ι) :
    Framed (jobs t.who).text s.host.disk (s.stage t.who) (s.next root jobs t).host.disk
      ((s.next root jobs t).stage t.who) :=
  (move_next root jobs s t).framed fun path hpath =>
    (hs.owns t.who path hpath).imp fun _ => And.left

/-- Whatever run takes a step, the files of the others are as they were. -/
theorem IsOrderly.item?_next (hs : s.IsOrderly jobs h) (root : Path) (hj : j ≠ t.who)
    {path : Path} {file : Route} (hpath : (s.stage j).path? = some path)
    (hfile : s.host.disk.resolve path = .ok file) {item : Item}
    (hitem : s.host.disk.item? file = some item) :
    (s.next root jobs t).host.disk.item? file = some item := by
  rcases (hs.framed root t).item? file item hitem with hitem' | ⟨path', hpath', hfile'⟩
  · exact hitem'
  · exact absurd (hfile.trans hfile'.symm) (hs.apart j t.who path path' hj hpath hpath')

theorem IsOrderly.resolve_next (hs : s.IsOrderly jobs h) (root : Path) (t : Turn ι) {path : Path}
    (hpath : (s.stage j).path? = some path) :
    (s.next root jobs t).host.disk.resolve path = s.host.disk.resolve path := by
  obtain ⟨file, howns, -⟩ := hs.owns j path hpath
  rw [howns.resolve, (hs.framed root t).keeps.resolve howns.resolve]

theorem IsOrderly.kept_next (hs : s.IsOrderly jobs h) (root : Path) (t : Turn ι) {r : Route}
    {item : Item} (hr : h.disk.item? r = some item) :
    (s.next root jobs t).host.disk.item? r = some item := by
  rcases (hs.framed root t).item? r item (hs.kept r item hr) with hitem | ⟨path, hpath, hfile⟩
  · exact hitem
  · obtain ⟨file, howns, habsent⟩ := hs.owns t.who path hpath
    rw [howns.resolve] at hfile
    cases hfile
    rw [hr] at habsent
    cases habsent

theorem IsOrderly.owns_next (hs : s.IsOrderly jobs h) (root : Path) (t : Turn ι) {path : Path}
    (hpath : ((s.next root jobs t).stage j).path? = some path) :
    ∃ file, ((s.next root jobs t).stage j).Owns (s.next root jobs t).host.disk (jobs j).text path
      file ∧ h.disk.item? file = none := by
  obtain ⟨hkeeps, -, hnew⟩ := hs.framed root t
  by_cases hj : j = t.who
  · subst hj
    obtain ⟨file, howns, hnone | hpath'⟩ := hnew path hpath
    · refine ⟨file, howns, ?_⟩
      cases hr : h.disk.item? file with
      | none => rfl
      | some item =>
        rw [hs.kept file item hr] at hnone
        cases hnone
    · obtain ⟨file', howns', habsent⟩ := hs.owns t.who path hpath'
      have hfile := hkeeps.resolve howns'.resolve
      rw [howns.resolve] at hfile
      cases hfile
      exact ⟨file, howns, habsent⟩
  · rw [stage_next_of_ne hj] at hpath ⊢
    obtain ⟨file, howns, habsent⟩ := hs.owns j path hpath
    obtain ⟨bytes, hbytes⟩ := howns.exists_item
    have hitem := hs.item?_next root hj hpath howns.resolve hbytes
    exact ⟨file, howns.of_keeps hkeeps (hitem.trans hbytes.symm), habsent⟩

/-- The path that a run has after its step leads to a new file, or it is the path it had before. -/
theorem IsOrderly.apart_mover (hs : s.IsOrderly jobs h) (root : Path) (hj : j ≠ t.who) {p q : Path}
    (hp : ((s.next root jobs t).stage t.who).path? = some p)
    (hq : (s.stage j).path? = some q) :
    (s.next root jobs t).host.disk.resolve p ≠ (s.next root jobs t).host.disk.resolve q := by
  obtain ⟨file, howns, hnone | hpath⟩ := (hs.framed root t).owns p hp
  · obtain ⟨file', howns', -⟩ := hs.owns j q hq
    obtain ⟨bytes, hbytes⟩ := howns'.exists_item
    rw [howns.resolve, hs.resolve_next root t hq, howns'.resolve]
    rintro ⟨⟩
    rw [hnone] at hbytes
    cases hbytes
  · rw [hs.resolve_next root t hpath, hs.resolve_next root t hq]
    exact hs.apart t.who j p q (Ne.symm hj) hpath hq

theorem IsOrderly.next (hs : s.IsOrderly jobs h) (root : Path) (t : Turn ι) :
    (s.next root jobs t).IsOrderly jobs h where
  kept _ _ := hs.kept_next root t
  owns _ _ := hs.owns_next root t
  apart j k p q hne hp hq := by
    by_cases hj : j = t.who
    · subst hj
      rw [stage_next_of_ne (Ne.symm hne)] at hq
      exact hs.apart_mover root (Ne.symm hne) hp hq
    · rw [stage_next_of_ne hj] at hp
      by_cases hk : k = t.who
      · subst hk
        exact (hs.apart_mover root hj hq hp).symm
      · rw [stage_next_of_ne hk] at hq
        rw [hs.resolve_next root t hp, hs.resolve_next root t hq]
        exact hs.apart j k p q hne hp hq

theorem IsOrderly.play (hs : s.IsOrderly jobs h) (root : Path) (turns : List (Turn ι)) :
    (s.play root jobs turns).IsOrderly jobs h := by
  induction turns generalizing s with
  | nil => exact hs
  | cons t turns ih => exact ih (hs.next root t)

/-- Two scenes that differ at most in how far the run `i` has come. -/
def AlikeBut (i : ι) (s s' : Scene ι) : Prop :=
  s.host = s'.host ∧ ∀ j, j ≠ i → s.stage j = s'.stage j

theorem AlikeBut.next {s' : Scene ι} (hs : AlikeBut i s s') (ht : t.who ≠ i) :
    AlikeBut i (s.next root jobs t) (s'.next root jobs t) := by
  obtain ⟨hhost, hstage⟩ := hs
  refine ⟨?_, fun j hj => ?_⟩
  · simp only [Scene.next, hhost, hstage t.who ht]
  · by_cases hjt : j = t.who
    · subst hjt
      simp only [Scene.next, Function.update_self, hhost, hstage t.who ht]
    · rw [stage_next_of_ne hjt, stage_next_of_ne hjt]
      exact hstage j hj

/-- Had a run that has no file never started, all else would be the same. -/
theorem play_without (root : Path) (jobs : ι → Job) (s : Scene ι) (turns : List (Turn ι))
    (hi : ((s.play root jobs turns).stage i).path? = none) :
    AlikeBut i (s.play root jobs turns)
      (s.play root jobs (turns.filter fun t => t.who ≠ i)) := by
  induction turns using List.reverseRecOn with
  | nil => exact ⟨rfl, fun _ _ => rfl⟩
  | append_singleton turns t ih =>
    rw [play_append] at hi ⊢
    rw [List.filter_append, play_append]
    change (((s.play root jobs turns).next root jobs t).stage i).path? = none at hi
    change AlikeBut i ((s.play root jobs turns).next root jobs t) _
    by_cases ht : t.who = i
    · subst ht
      obtain ⟨hhost, hbefore⟩ := (move_next root jobs (s.play root jobs turns) t).host_eq hi
      obtain ⟨halike, hstages⟩ := ih hbefore
      rw [List.filter_singleton]
      simp only [ne_eq, not_true_eq_false, decide_false]
      exact ⟨hhost.trans halike, fun j hj => (stage_next_of_ne hj).trans (hstages j hj)⟩
    · rw [stage_next_of_ne (Ne.symm ht)] at hi
      rw [List.filter_singleton]
      simp only [ne_eq, ht, not_false_eq_true, decide_true]
      exact (ih hi).next ht

/-- However the steps of any number of runs are mixed, and whichever of them are denied: what was
there before is not touched, and no step touches the report of another run. No two runs return the
same path, and whoever returns a path finds its own text there. Who opens a name that has been taken
since it was probed fails, and all goes on as if it had never been there. -/
theorem concurrent_saves_never_clobber (root : Path) (jobs : ι → Job) (h : Host)
    (turns : List (Turn ι)) :
    let s := (start h).play root jobs turns
    (∀ r item, h.disk.item? r = some item → s.host.disk.item? r = some item) ∧
    (∀ t j path, j ≠ t.who → (s.stage j).path? = some path →
      (s.next root jobs t).host.disk.read path = s.host.disk.read path) ∧
    (∀ i j path, s.stage i = .saved path → s.stage j = .saved path → i = j) ∧
    (∀ i path, s.stage i = .saved path →
      s.host.disk.read path = .ok (document (jobs i).lines)) ∧
    (∀ i k grant, s.stage i = .opening k →
      s.host.disk.exists? ((jobs i).candidate root k) = .ok true →
      s.next root jobs ⟨i, grant⟩ = ⟨s.host, Function.update s.stage i
        (.failed ⟨s.host.savingFault.getD .alreadyThere,
          some ((jobs i).candidate root k).text⟩)⟩) ∧
    ∀ i why, s.stage i = .failed why →
      AlikeBut i s ((start h).play root jobs (turns.filter fun t => t.who ≠ i)) := by
  intro s
  have hs : s.IsOrderly jobs h := (IsOrderly.start jobs h).play root turns
  refine ⟨hs.kept, fun t j path hj hpath => ?_, fun i j path hi hj => ?_, fun i path hi => ?_,
    fun i k grant hi htaken => ?_, fun i why hi => ?_⟩
  · obtain ⟨file, howns, -⟩ := hs.owns j path hpath
    obtain ⟨bytes, hbytes⟩ := howns.exists_item
    rw [Disk.read_eq_ok.mpr ⟨file, howns.resolve, hbytes⟩]
    exact Disk.read_eq_ok.mpr ⟨file, (hs.framed root t).keeps.resolve howns.resolve,
      hs.item?_next root hj hpath howns.resolve hbytes⟩
  · by_contra hne
    exact hs.apart i j path path hne (by rw [hi]; rfl) (by rw [hj]; rfl) rfl
  · obtain ⟨file, howns, -⟩ := hs.owns i path (by rw [hi]; rfl)
    rw [hi] at howns
    cases howns with
    | saved hpath hbytes => exact Disk.read_eq_ok.mpr ⟨file, hpath, hbytes⟩
  · obtain ⟨file, hfile⟩ := (Disk.exists?_eq_true ((jobs i).candidate_names root k).1).mp htaken
    simp only [next, hi, step, openNew_of_resolve hfile]
  · exact play_without root jobs _ turns (by change (s.stage i).path? = none; rw [hi]; rfl)

/-- Two runs that want to save under the same name. -/
def rivals (who : Bool) : Job :=
  ⟨"report", ⟨2024, 3, 9, 14, 5, 7⟩, if who then ["first"] else ["second"]⟩

def bareHost : Host where
  disk := .empty

/-- Both find the name free; then both open it. -/
def neckAndNeck : List (Turn Bool) :=
  [⟨false, .ok 0⟩, ⟨true, .ok 0⟩, ⟨true, .ok 0⟩, ⟨false, .ok 0⟩, ⟨true, .ok 3⟩, ⟨true, .ok 3⟩,
    ⟨true, .ok 0⟩]

theorem saves_of_rivals_never_clobber :
    let s := (start bareHost).play (.down []) rivals neckAndNeck
    let alone := neckAndNeck.filter fun t => t.who ≠ false
    s.stage true = .saved (.down ["report-2024-03-09T14-05-07.txt"]) ∧
    s.stage false = .failed ⟨.alreadyThere, some "report-2024-03-09T14-05-07.txt"⟩ ∧
    s.host.disk.read (.down ["report-2024-03-09T14-05-07.txt"]) = .ok (document ["first"]) ∧
    s.host = ((start bareHost).play (.down []) rivals alone).host := by
  have hsaved : ((start bareHost).play (.down []) rivals neckAndNeck).stage true =
      .saved (.down ["report-2024-03-09T14-05-07.txt"]) := by cbv
  have hfailed : ((start bareHost).play (.down []) rivals neckAndNeck).stage false =
      .failed ⟨.alreadyThere, some "report-2024-03-09T14-05-07.txt"⟩ := by cbv
  obtain ⟨-, -, -, hread, -, hlost⟩ :=
    concurrent_saves_never_clobber (.down []) rivals bareHost neckAndNeck
  exact ⟨hsaved, hfailed, hread true _ hsaved, (hlost false _ hfailed).1⟩

end Scene

end ScriptAudit.Artifact
