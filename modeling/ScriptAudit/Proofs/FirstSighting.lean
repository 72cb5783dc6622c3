import ScriptAudit.Ordered

/-! Collections in the order of first sighting. Filtering by something that only depends on the key
commutes with replacing in place, and collections without a common key stay apart. -/

namespace ScriptAudit.Ordered

variable {α κ : Type} [DecidableEq κ]

theorem mem_of_mem_put {key : α → κ} {x z : α} {xs : List α} (h : z ∈ put key x xs) :
    z = x ∨ z ∈ xs := by
  induction xs with
  | nil => exact Or.inl (List.mem_singleton.mp h)
  | cons y ys ih =>
    by_cases hy : key y = key x
    · rw [put, if_pos hy] at h
      rcases List.mem_cons.mp h with h | h
      · exact Or.inl h
      · exact Or.inr (List.mem_cons_of_mem _ h)
    · rw [put, if_neg hy] at h
      rcases List.mem_cons.mp h with h | h
      · exact Or.inr (h ▸ List.mem_cons_self)
      · exact (ih h).imp_right (List.mem_cons_of_mem _)

theorem filter_put {key : α → κ} {p : α → Bool} (hp : ∀ a b, key a = key b → p a = p b) (x : α)
    (xs : List α) :
    (put key x xs).filter p = if p x then put key x (xs.filter p) else xs.filter p := by
  induction xs with
  | nil => simp [put, List.filter_cons]
  | cons y ys ih =>
    by_cases hy : key y = key x
    · have hxy := hp y x hy
      by_cases hx : p x = true
      · simp [put, hy, hx, hxy]
      · simp [put, hy, hx, hxy]
    · by_cases hx : p x = true
      · by_cases hpy : p y = true
        · simp [put, hy, hx, hpy, ih]
        · simp [put, hy, hx, hpy, ih]
      · by_cases hpy : p y = true
        · simp [put, hy, hx, hpy, ih]
        · simp [put, hy, hx, hpy, ih]

theorem put_append {key : α → κ} {x : α} {xs : List α} (h : ∀ y ∈ xs, key y ≠ key x)
    (ys : List α) : put key x (xs ++ ys) = xs ++ put key x ys := by
  induction xs with
  | nil => rfl
  | cons z zs ih =>
    obtain ⟨hz, hzs⟩ := List.forall_mem_cons.mp h
    rw [List.cons_append, put, if_neg hz, ih hzs, List.cons_append]

def putAll (key : α → κ) (xs acc : List α) : List α := xs.foldl (fun acc x => put key x acc) acc

theorem putAll_append (key : α → κ) (xs ys acc : List α) :
    putAll key (xs ++ ys) acc = putAll key ys (putAll key xs acc) := List.foldl_append

theorem ofList_eq_putAll (key : α → κ) (xs : List α) : ofList key xs = putAll key xs [] := rfl

theorem mem_of_mem_putAll {key : α → κ} {z : α} {xs acc : List α} (h : z ∈ putAll key xs acc) :
    z ∈ xs ∨ z ∈ acc := by
  induction xs generalizing acc with
  | nil => exact Or.inr h
  | cons x xs ih =>
    rcases ih h with h | h
    · exact Or.inl (List.mem_cons_of_mem _ h)
    · rcases mem_of_mem_put h with rfl | h
      · exact Or.inl List.mem_cons_self
      · exact Or.inr h

theorem mem_of_mem_ofList {key : α → κ} {z : α} {xs : List α} (h : z ∈ ofList key xs) : z ∈ xs := by
  rcases mem_of_mem_putAll h with h | h
  · exact h
  · cases h

theorem filter_putAll {key : α → κ} {p : α → Bool} (hp : ∀ a b, key a = key b → p a = p b)
    (xs acc : List α) : (putAll key xs acc).filter p = putAll key (xs.filter p) (acc.filter p) := by
  induction xs generalizing acc with
  | nil => rfl
  | cons x xs ih =>
    change (putAll key xs (put key x acc)).filter p = _
    rw [ih, filter_put hp]
    by_cases hx : p x = true
    · rw [List.filter_cons, if_pos hx, if_pos hx]
      rfl
    · rw [List.filter_cons, if_neg hx, if_neg hx]

theorem filter_ofList {key : α → κ} {p : α → Bool} (hp : ∀ a b, key a = key b → p a = p b)
    (xs : List α) : (ofList key xs).filter p = ofList key (xs.filter p) :=
  filter_putAll hp xs []

theorem putAll_append_right {key : α → κ} {xs ys acc : List α}
    (h : ∀ x ∈ xs, ∀ y ∈ ys, key y ≠ key x) :
    putAll key xs (ys ++ acc) = ys ++ putAll key xs acc := by
  induction xs generalizing acc with
  | nil => rfl
  | cons x xs ih =>
    obtain ⟨hx, hxs⟩ := List.forall_mem_cons.mp h
    change putAll key xs (put key x (ys ++ acc)) = _
    rw [put_append hx, ih hxs]
    rfl

/-- What has no key in common does not get in each other's way. -/
theorem ofList_append {key : α → κ} {xs ys : List α} (h : ∀ x ∈ xs, ∀ y ∈ ys, key x ≠ key y) :
    ofList key (xs ++ ys) = ofList key xs ++ ofList key ys := by
  have hxs : ∀ y ∈ ys, ∀ x ∈ ofList key xs, key x ≠ key y :=
    fun y hy x hx => h x (mem_of_mem_ofList hx) y hy
  have hright : putAll key ys (ofList key xs ++ []) = ofList key xs ++ putAll key ys [] :=
    putAll_append_right hxs
  rw [List.append_nil] at hright
  rw [ofList_eq_putAll, putAll_append]
  exact hright

/-- A new key comes last, and a key that is there stays where it is. -/
theorem map_key_put (key : α → κ) (x : α) (xs : List α) :
    (put key x xs).map key =
      if key x ∈ xs.map key then xs.map key else xs.map key ++ [key x] := by
  induction xs with
  | nil => simp [put]
  | cons y ys ih =>
    by_cases hy : key y = key x
    · simp [put, hy]
    · have hne : key x ≠ key y := fun h => hy h.symm
      simp only [put, hy, if_false, List.map_cons, ih, List.mem_cons, hne, false_or]
      split <;> rfl

theorem length_le_length_put (key : α → κ) (x : α) (xs : List α) :
    xs.length ≤ (put key x xs).length := by
  have h := congrArg List.length (map_key_put key x xs)
  rw [List.length_map] at h
  rw [h]
  split <;> simp

theorem length_le_length_putAll (key : α → κ) (xs acc : List α) :
    acc.length ≤ (putAll key xs acc).length := by
  induction xs generalizing acc with
  | nil => exact Nat.le_refl _
  | cons x xs ih => exact Nat.le_trans (length_le_length_put key x acc) (ih _)

theorem nodup_sighted {ks : List κ} (h : ks.Nodup) (k : κ) :
    (if k ∈ ks then ks else ks ++ [k]).Nodup := by
  by_cases hk : k ∈ ks
  · rw [if_pos hk]
    exact h
  · rw [if_neg hk]
    refine List.nodup_append.mpr ⟨h, by simp, ?_⟩
    rintro l hl _ hl' rfl
    exact hk (List.mem_singleton.mp hl' ▸ hl)

theorem nodup_keys_putAll {key : α → κ} (xs : List α) {acc : List α} (h : (acc.map key).Nodup) :
    ((putAll key xs acc).map key).Nodup := by
  induction xs generalizing acc with
  | nil => exact h
  | cons x xs ih =>
    apply ih
    rw [map_key_put]
    exact nodup_sighted h (key x)

theorem mem_keys_putAll {key : α → κ} {k : κ} {xs acc : List α} :
    k ∈ (putAll key xs acc).map key ↔ k ∈ xs.map key ∨ k ∈ acc.map key := by
  induction xs generalizing acc with
  | nil => simp [putAll]
  | cons x xs ih =>
    have hput : k ∈ (put key x acc).map key ↔ k = key x ∨ k ∈ acc.map key := by
      rw [map_key_put]
      split
      · rename_i hx
        exact ⟨Or.inr, fun h => h.elim (fun h => h ▸ hx) fun h => h⟩
      · rw [List.mem_append, List.mem_singleton, or_comm]
    change k ∈ (putAll key xs (put key x acc)).map key ↔ _
    rw [ih, hput, List.map_cons, List.mem_cons, or_left_comm, or_assoc]

theorem eraseDups_concat (ks : List κ) (k : κ) :
    (ks ++ [k]).eraseDups = if k ∈ ks then ks.eraseDups else ks.eraseDups ++ [k] := by
  rw [List.eraseDups_append]
  by_cases hk : k ∈ ks
  · simp [List.removeAll, hk]
  · simp [List.removeAll, hk, List.eraseDups_cons]

theorem ofList_concat (key : α → κ) (xs : List α) (x : α) :
    ofList key (xs ++ [x]) = put key x (ofList key xs) := by
  rw [ofList_eq_putAll, putAll_append]
  rfl

/-- Where each key stands once, replacing leaves nothing else under the key. -/
theorem eq_or_key_ne_of_mem_put {key : α → κ} {x z : α} {xs : List α} (h : (xs.map key).Nodup)
    (hz : z ∈ put key x xs) : z = x ∨ z ∈ xs ∧ key z ≠ key x := by
  induction xs with
  | nil => exact Or.inl (List.mem_singleton.mp hz)
  | cons y ys ih =>
    obtain ⟨hy, hys⟩ := List.nodup_cons.mp h
    by_cases hyx : key y = key x
    · rw [put, if_pos hyx] at hz
      rcases List.mem_cons.mp hz with hz | hz
      · exact Or.inl hz
      · have hne : key z ≠ key x := fun he => hy (hyx ▸ he ▸ List.mem_map_of_mem hz)
        exact Or.inr ⟨List.mem_cons_of_mem _ hz, hne⟩
    · rw [put, if_neg hyx] at hz
      rcases List.mem_cons.mp hz with rfl | hz
      · exact Or.inr ⟨List.mem_cons_self, hyx⟩
      · exact (ih hys hz).imp_right (And.imp_left (List.mem_cons_of_mem _))

theorem flatMap_addTo (k : κ) (xs : List α) (groups : List (κ × List α)) :
    ((addTo k xs groups).flatMap Prod.snd).Perm (groups.flatMap Prod.snd ++ xs) := by
  induction groups with
  | nil => simp [addTo]
  | cons group groups ih =>
    obtain ⟨l, members⟩ := group
    by_cases hl : l = k
    · rw [addTo, if_pos hl]
      simp only [List.flatMap_cons, List.append_assoc]
      exact List.perm_append_comm.append_left members
    · rw [addTo, if_neg hl]
      simp only [List.flatMap_cons, List.append_assoc]
      exact ih.append_left members

/-- Grouping loses nothing and adds nothing. -/
theorem flatMap_groupBy (key : α → κ) (xs : List α) :
    ((groupBy key xs).flatMap Prod.snd).Perm xs := by
  have hfold (groups : List (κ × List α)) :
      ((xs.foldl (fun groups x => addTo (key x) [x] groups) groups).flatMap Prod.snd).Perm
        (groups.flatMap Prod.snd ++ xs) := by
    induction xs generalizing groups with
    | nil => simp
    | cons x xs ih =>
      have hstep := (ih (addTo (key x) [x] groups)).trans
        ((flatMap_addTo (key x) [x] groups).append_right xs)
      rwa [List.append_assoc] at hstep
  exact hfold []

theorem mem_of_mem_groupBy {key : α → κ} {xs : List α} {group : κ × List α} {x : α}
    (hgroup : group ∈ groupBy key xs) (hx : x ∈ group.2) : x ∈ xs :=
  (flatMap_groupBy key xs).mem_iff.mp (List.mem_flatMap.mpr ⟨group, hgroup, hx⟩)

theorem find?_cons (k l : κ) (members : List α) (groups : List (κ × List α)) :
    find? k ((l, members) :: groups) = if l = k then some members else find? k groups := by
  by_cases hl : l = k
  · simp [find?, hl]
  · simp [find?, hl]

theorem find?_addTo (k k' : κ) (xs : List α) (groups : List (κ × List α)) :
    find? k (addTo k' xs groups) =
      if k' = k then some ((find? k groups).getD [] ++ xs) else find? k groups := by
  induction groups with
  | nil => rw [addTo, find?_cons]; rfl
  | cons group groups ih =>
    obtain ⟨l, members⟩ := group
    by_cases hl : l = k'
    · subst hl
      rw [addTo, if_pos rfl, find?_cons, find?_cons]
      by_cases hk : l = k
      · simp [hk]
      · simp [hk]
    · rw [addTo, if_neg hl, find?_cons, find?_cons, ih]
      by_cases hk : l = k
      · have hne : k' ≠ k := fun he => hl (hk.trans he.symm)
        simp [hk, hne]
      · simp [hk]

theorem map_fst_addTo (k : κ) (xs : List α) (groups : List (κ × List α)) :
    (addTo k xs groups).map Prod.fst =
      if k ∈ groups.map Prod.fst then groups.map Prod.fst else groups.map Prod.fst ++ [k] := by
  induction groups with
  | nil => simp [addTo]
  | cons group groups ih =>
    obtain ⟨l, members⟩ := group
    by_cases hl : l = k
    · simp [addTo, hl]
    · have hne : k ≠ l := fun h => hl h.symm
      simp only [addTo, hl, if_false, List.map_cons, ih, List.mem_cons, hne, false_or]
      split <;> rfl

theorem find?_map (groupOf : κ → List α) (k : κ) (ks : List κ) :
    find? k (ks.map fun l => (l, groupOf l)) = if k ∈ ks then some (groupOf k) else none := by
  induction ks with
  | nil => rfl
  | cons l ks ih =>
    rw [List.map_cons, find?_cons, ih]
    by_cases hl : l = k
    · simp [hl]
    · have hne : k ≠ l := fun h => hl h.symm
      simp [hl, hne]

/-- Groups without repeated keys are their keys, each with what is found under it. -/
theorem eq_map_find? {groups : List (κ × List α)} (h : (groups.map Prod.fst).Nodup) :
    groups = (groups.map Prod.fst).map fun k => (k, (find? k groups).getD []) := by
  induction groups with
  | nil => rfl
  | cons group groups ih =>
    obtain ⟨l, members⟩ := group
    obtain ⟨hl, hgroups⟩ := List.nodup_cons.mp h
    have hrest : ((groups.map Prod.fst).map fun k => (k, (find? k ((l, members) :: groups)).getD [])) =
        (groups.map Prod.fst).map fun k => (k, (find? k groups).getD []) := by
      apply List.map_congr_left
      intro k hk
      have hne : l ≠ k := fun he => hl (he ▸ hk)
      rw [find?_cons, if_neg hne]
    rw [List.map_cons, List.map_cons, hrest, ← ih hgroups, find?_cons, if_pos rfl]
    rfl

end ScriptAudit.Ordered
