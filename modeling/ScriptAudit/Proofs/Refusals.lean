import ScriptAudit.CallGraph
import ScriptAudit.Syntax.Naming
import ScriptAudit.Syntax.Scope

/-! Sequences of checks. What is read off a tree fails only because a value breaks its own rules,
never for the lack of an open class or of a recorded name. -/

namespace ScriptAudit

open Syntax

variable {α β : Type}

theorem bind_eq_ok {x : Except Error α} {k : α → Except Error β} {b : β} :
    x >>= k = .ok b ↔ ∃ a, x = .ok a ∧ k a = .ok b := by
  cases x with
  | error e => simp [bind, Except.bind]
  | ok a => simp [bind, Except.bind]

theorem exists_bind_eq_ok {x : Except Error α} {k : α → Except Error β} (hx : ∃ a, x = .ok a)
    (hk : ∀ a, ∃ b, k a = .ok b) : ∃ b, x >>= k = .ok b := by
  obtain ⟨a, ha⟩ := hx
  obtain ⟨b, hb⟩ := hk a
  exact ⟨b, bind_eq_ok.mpr ⟨a, ha, hb⟩⟩

theorem mapM_eq_ok_cons {g : α → Except Error β} {x : α} {xs : List α} {zs : List β} :
    (x :: xs).mapM g = .ok zs ↔ ∃ y ys, g x = .ok y ∧ xs.mapM g = .ok ys ∧ zs = y :: ys := by
  rw [List.mapM_cons, bind_eq_ok]
  simp only [bind_eq_ok, pure, Except.pure, Except.ok.injEq]
  constructor
  · rintro ⟨y, hy, ys, hys, rfl⟩
    exact ⟨y, ys, hy, hys, rfl⟩
  · rintro ⟨y, ys, hy, hys, rfl⟩
    exact ⟨y, hy, ys, hys, rfl⟩

theorem mapM_eq_ok_map {g : α → Except Error β} {value : α → β} {xs : List α}
    (h : ∀ x ∈ xs, g x = .ok (value x)) : xs.mapM g = .ok (xs.map value) := by
  induction xs with
  | nil => rfl
  | cons x xs ih =>
    have htail := ih fun y hy => h y (List.mem_cons_of_mem _ hy)
    exact mapM_eq_ok_cons.mpr ⟨_, _, h x List.mem_cons_self, htail, rfl⟩

theorem exists_mapM_eq_ok {g : α → Except Error β} {xs : List α}
    (h : ∀ x ∈ xs, ∃ y, g x = .ok y) : ∃ ys, xs.mapM g = .ok ys := by
  induction xs with
  | nil => exact ⟨[], rfl⟩
  | cons x xs ih =>
    obtain ⟨⟨y, hy⟩, hxs⟩ := List.forall_mem_cons.mp h
    obtain ⟨ys, hys⟩ := ih hxs
    exact ⟨y :: ys, mapM_eq_ok_cons.mpr ⟨y, ys, hy, hys, rfl⟩⟩

theorem mem_of_mapM_eq_ok {g : α → Except Error β} {xs : List α} {ys : List β}
    (h : xs.mapM g = .ok ys) : ∀ y ∈ ys, ∃ x ∈ xs, g x = .ok y := by
  induction xs generalizing ys with
  | nil =>
    cases h
    simp
  | cons x xs ih =>
    obtain ⟨y, ys, hy, hys, rfl⟩ := mapM_eq_ok_cons.mp h
    refine List.forall_mem_cons.mpr ⟨⟨x, List.mem_cons_self, hy⟩, fun z hz => ?_⟩
    obtain ⟨x', hx', hz⟩ := ih hys z hz
    exact ⟨x', List.mem_cons_of_mem _ hx', hz⟩

theorem eq_map_of_mapM_eq_ok {g : α → Except Error β} (value : α → β) {xs : List α} {ys : List β}
    (hvalue : ∀ x ∈ xs, ∀ y, g x = .ok y → value x = y) (h : xs.mapM g = .ok ys) :
    ys = xs.map value := by
  induction xs generalizing ys with
  | nil => exact (Except.ok.inj h).symm
  | cons x xs ih =>
    obtain ⟨y, ys, hy, hys, rfl⟩ := mapM_eq_ok_cons.mp h
    obtain ⟨hx, hxs⟩ := List.forall_mem_cons.mp hvalue
    rw [List.map_cons, hx y hy, ih hxs hys]

/-- Fails only by refusing a value. -/
def OnlyRefuses (x : Except Error α) : Prop := ∀ e, x = .error e → ∃ why, e = .refused why

namespace OnlyRefuses

theorem ok (a : α) : OnlyRefuses (.ok a) := by
  intro e h
  cases h

theorem require (condition : Bool) (why : Refusal) : OnlyRefuses (require condition why) := by
  intro e h
  cases condition with
  | true => cases h
  | false => exact ⟨why, (Except.error.inj h).symm⟩

theorem bind {x : Except Error α} {k : α → Except Error β} (hx : OnlyRefuses x)
    (hk : ∀ a, OnlyRefuses (k a)) : OnlyRefuses (x >>= k) := by
  intro e h
  cases x with
  | error e' =>
    cases h
    exact hx _ rfl
  | ok a => exact hk a e h

theorem mapM {g : α → Except Error β} (h : ∀ a, OnlyRefuses (g a)) (xs : List α) :
    OnlyRefuses (xs.mapM g) := by
  induction xs with
  | nil => exact ok []
  | cons x xs ih =>
    rw [List.mapM_cons]
    exact (h x).bind fun _ => ih.bind fun _ => ok _

theorem suspensionMake (line : Int) (kind : Suspension.Kind) (label : String) :
    OnlyRefuses (Suspension.make line kind label) :=
  (require _ _).bind fun _ => (require _ _).bind fun _ => ok _

theorem promiseCall (n : Node) : OnlyRefuses n.promiseCall? := by
  unfold Node.promiseCall?
  split
  · split
    · split
      · exact (suspensionMake _ _ _).bind fun _ => ok _
      · split
        · split
          · exact (suspensionMake _ _ _).bind fun _ => ok _
          · exact ok _
        · exact ok _
    · exact ok _
  · exact ok _

theorem suspension (n : Node) : OnlyRefuses n.suspension? := by
  unfold Node.suspension?
  split
  · exact (suspensionMake _ _ _).bind fun _ => ok _
  · split
    · exact (suspensionMake _ _ _).bind fun _ => ok _
    · exact ok _
  · exact promiseCall n
  · exact ok _

theorem suspensions (n : Node) : OnlyRefuses n.suspensions := by
  unfold Node.suspensions
  split
  · exact ok _
  · exact (mapM suspension _).bind fun _ => ok _

theorem keyMake (kind : Key.Kind) (text : String) : OnlyRefuses (Key.make kind text) := by
  unfold Key.make
  split <;> exact (require _ _).bind fun _ => ok _

theorem key (n : Node) : OnlyRefuses n.key := by
  unfold Node.key
  repeat' split
  all_goals first
    | exact ok _
    | exact keyMake _ _

theorem methodShape (f : Focus) : OnlyRefuses f.methodShape := by
  unfold Focus.methodShape
  split
  · exact ok _
  · refine (key _).bind fun _ => ?_
    dsimp only
    split <;> exact ok _

theorem boundShape (f : Focus) : OnlyRefuses f.boundShape := by
  unfold Focus.boundShape
  repeat' split
  all_goals first
    | exact ok _
    | exact (key _).bind fun _ => ok _
    | exact (keyMake _ _).bind fun _ => ok _

theorem shape (f : Focus) : OnlyRefuses f.shape := by
  unfold Focus.shape
  repeat' split
  · exact methodShape f
  · exact (require _ _).bind fun _ => ok _
  · exact ok _
  · exact boundShape f

theorem declarationCheck (d : Declaration) : OnlyRefuses d.check :=
  (require _ _).bind fun _ => (require _ _).bind fun _ => (require _ _).bind fun _ =>
    (require _ _).bind fun _ => ok _

theorem callCheck (c : Call) : OnlyRefuses c.check :=
  (require _ _).bind fun _ => (require _ _).bind fun _ => ok _

end OnlyRefuses

end ScriptAudit
