import ScriptAudit.Proofs.Growth

/-! Tiers as an ordered partition. Every declaration stands in the tier that its calls give it, and
in no other. Two tiers keep the order of discovery. The third is ordered by calls, and where these
are equally many, by discovery again. -/

namespace ScriptAudit

namespace Tier

variable {n : Nat}

theorem ofCount_eq_unused : ofCount n = .unused ↔ n = 0 := by
  match n with
  | 0 => simp [ofCount]
  | 1 => simp [ofCount]
  | n + 2 => simp [ofCount]

theorem ofCount_eq_singleUse : ofCount n = .singleUse ↔ n = 1 := by
  match n with
  | 0 => simp [ofCount]
  | 1 => simp [ofCount]
  | n + 2 => simp [ofCount]

theorem ofCount_eq_wellUsed : ofCount n = .wellUsed ↔ 2 ≤ n := by
  match n with
  | 0 => simp [ofCount]
  | 1 => simp [ofCount]
  | n + 2 => simp [ofCount]

end Tier

namespace Usage

theorem busier_trans (a b c : Entry) (hab : decide (b.calls.length ≤ a.calls.length) = true)
    (hbc : decide (c.calls.length ≤ b.calls.length) = true) :
    decide (c.calls.length ≤ a.calls.length) = true := by
  simp only [decide_eq_true_eq] at hab hbc ⊢
  omega

theorem busier_total (a b : Entry) :
    (decide (b.calls.length ≤ a.calls.length) || decide (a.calls.length ≤ b.calls.length)) =
      true := by
  simp only [Bool.or_eq_true, decide_eq_true_eq]
  omega

theorem busiestFirst_pairwise (entries : List Entry) :
    (busiestFirst entries).Pairwise fun a b => b.calls.length ≤ a.calls.length :=
  (List.pairwise_mergeSort busier_trans busier_total entries).imp of_decide_eq_true

/-- Those that are called equally often stay in the order in which they were. -/
theorem busiestFirst_filter (entries : List Entry) (n : Nat) :
    (busiestFirst entries).filter (fun e => e.calls.length = n) =
      entries.filter fun e => e.calls.length = n := by
  have hcount {e : Entry} (he : e ∈ entries.filter fun e => e.calls.length = n) :
      e.calls.length = n := by
    simpa using (List.mem_filter.mp he).2
  have htied : (entries.filter fun e => e.calls.length = n).Pairwise
      fun a b => decide (b.calls.length ≤ a.calls.length) = true := by
    apply List.pairwise_of_forall_mem_list
    intro a ha b hb
    rw [hcount ha, hcount hb]
    simp
  have hsub : (entries.filter fun e => e.calls.length = n).Sublist (busiestFirst entries) :=
    List.sublist_mergeSort busier_trans busier_total htied List.filter_sublist
  have hkept := hsub.filter fun e => e.calls.length = n
  simp only [List.filter_filter, Bool.and_self] at hkept
  have hlength := ((busiestFirst_perm entries).filter fun e => e.calls.length = n).length_eq
  exact (hkept.eq_of_length hlength.symm).symm

/-- A usage that holds the declarations of a graph, ordered by how often they are called. -/
structure Partitions (u : Usage) (s : Snapshot) : Prop where
  /-- Nothing is left out, and nothing stands there twice. -/
  all : (u.unused ++ u.singleUse ++ u.wellUsed).Perm (s.declarations.map s.entry)
  rates : ∀ d ∈ s.declarations, u.Rates d (.ofCount (s.callers d).length)
  unused : u.unused = (s.declarations.filter fun d => (s.callers d).length = 0).map s.entry
  singleUse : u.singleUse = (s.declarations.filter fun d => (s.callers d).length = 1).map s.entry
  wellUsed : u.wellUsed.Perm
    ((s.declarations.filter fun d => 2 ≤ (s.callers d).length).map s.entry)
  descending : u.wellUsed.Pairwise fun a b => b.calls.length ≤ a.calls.length
  /-- Those called `n` times are in the order of discovery. -/
  tied : ∀ n, 2 ≤ n → u.wellUsed.filter (fun e => e.calls.length = n) =
    (s.declarations.filter fun d => (s.callers d).length = n).map s.entry

end Usage

namespace Snapshot

theorem entriesOf_eq (s : Snapshot) (tier : Tier) :
    s.entriesOf tier =
      (s.declarations.filter fun d => Tier.ofCount (s.callers d).length = tier).map s.entry :=
  List.filter_map

theorem entriesOf_wellUsed (s : Snapshot) :
    s.entriesOf .wellUsed =
      (s.declarations.filter fun d => 2 ≤ (s.callers d).length).map s.entry := by
  simp only [entriesOf_eq, Tier.ofCount_eq_wellUsed]

theorem entriesOf_perm (s : Snapshot) :
    (s.entriesOf .unused ++ s.entriesOf .singleUse ++ s.entriesOf .wellUsed).Perm
      (s.declarations.map s.entry) := by
  unfold entriesOf
  induction s.declarations.map s.entry with
  | nil => exact .refl _
  | cons e es ih =>
    cases htier : e.tier with
    | unused => simpa [htier] using ih
    | singleUse =>
      simp only [htier, List.filter_cons, decide_true, if_true, List.append_assoc]
      exact List.perm_middle.trans (.cons e (by simpa using ih))
    | wellUsed =>
      simp only [htier, List.filter_cons, decide_true, if_true]
      exact List.perm_middle.trans (.cons e (by simpa using ih))

theorem partitions_usageValue (s : Snapshot) : s.usageValue.Partitions s where
  all := ((Usage.busiestFirst_perm _).append_left _).trans s.entriesOf_perm
  rates _ hd := rates_usageValue hd
  unused := by simp only [usageValue, entriesOf_eq, Tier.ofCount_eq_unused]
  singleUse := by simp only [usageValue, entriesOf_eq, Tier.ofCount_eq_singleUse]
  wellUsed := s.entriesOf_wellUsed ▸ Usage.busiestFirst_perm _
  descending := Usage.busiestFirst_pairwise _
  tied n hn := by
    have hcount : ∀ d ∈ s.declarations,
        (decide ((s.callers d).length = n) && decide (2 ≤ (s.callers d).length)) =
          decide ((s.callers d).length = n) := by
      intro d _
      by_cases hd : (s.callers d).length = n
      · simp [hd, hn]
      · simp [hd]
    simp only [usageValue, Usage.busiestFirst_filter, entriesOf_wellUsed, List.filter_map]
    rw [List.filter_filter]
    exact congrArg _ (List.filter_congr hcount)

/-- A graph that passed its check is divided into tiers without remainder. So the tiers have as many
members as the graph has declarations, and what a summary says of functions in good use, though it
comes by subtraction, is how many there are. -/
theorem usage_is_ordered_partition {declarations : List Declaration}
    {calls : List (String × List Call)} {skipped : Int} {s : Snapshot}
    (hs : make declarations calls skipped = .ok s) :
    (∀ d ∈ s.declarations, s.callsOf d = .ok (s.callers d)) ∧
    ∃ u, s.usage = .ok u ∧ u.Partitions s ∧ u.total = s.trackable ∧
      ∀ findings, ∃ summary, s.summarize u findings = .ok summary ∧
        summary.trackable = s.trackable ∧ summary.wellUsed = u.wellUsed.length := by
  obtain ⟨-, -, hcounted⟩ := make_eq_ok.mp hs
  refine ⟨fun d hd => callsOf_ok hcounted hd, s.usageValue, usage_ok hcounted,
    s.partitions_usageValue, s.total_usageValue, fun findings => ?_⟩
  refine ⟨_, s.summarize_any findings, rfl, ?_⟩
  have hlength := s.length_entriesOf
  have hwell : s.usageValue.wellUsed.length = (s.entriesOf .wellUsed).length :=
    (Usage.busiestFirst_perm _).length_eq
  rw [hwell]
  simp only [Summary.wellUsed, summaryValue]
  omega

/-- A stall whose functions are called twice, never, three times, once and twice. -/
def market : Snapshot :=
  let function (name : String) (line : Int) : Declaration :=
    ⟨name, "stall.js", line, false, none, []⟩
  let called (name : String) (lines : List Int) : String × List Call :=
    (name, lines.map fun line => ⟨name, "stall.js", line, false⟩)
  { declarations := [function "weigh" 1, function "greet" 2, function "sell" 3, function "close" 4,
      function "wrap" 5]
    calls := [called "sell" [6, 7, 8], called "wrap" [9, 9], called "close" [7], called "greet" [],
      called "weigh" [6, 8]]
    skipped := 0 }

theorem usage_of_market_is_ordered :
    make market.declarations market.calls 0 = .ok market ∧
    ∃ u, market.usage = .ok u ∧
      u.unused.map (·.declaration.name) = ["greet"] ∧
      u.singleUse.map (·.declaration.name) = ["close"] ∧
      (u.wellUsed.filter fun e => e.calls.length = 2).map (·.declaration.name) = ["weigh", "wrap"] ∧
      u.wellUsed.length = 3 ∧ u.total = 5 := by
  have hmade : make market.declarations market.calls 0 = .ok market := by decide +kernel
  obtain ⟨-, u, hu, hpartitions, htotal, -⟩ := usage_is_ordered_partition hmade
  refine ⟨hmade, u, hu, ?_, ?_, ?_, ?_, htotal⟩
  · rw [hpartitions.unused]
    decide +kernel
  · rw [hpartitions.singleUse]
    decide +kernel
  · rw [hpartitions.tied 2 (Nat.le_refl 2)]
    decide +kernel
  · rw [hpartitions.wellUsed.length_eq]
    decide +kernel

end Snapshot

end ScriptAudit
