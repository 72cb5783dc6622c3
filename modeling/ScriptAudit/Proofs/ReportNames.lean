import Mathlib.Data.List.Perm.Subperm
import ScriptAudit.Artifact
import ScriptAudit.Proofs.DirectoryWalk
import ScriptAudit.Proofs.GrowingDisk

/-! The names that a report may get. The candidates stand side by side in one directory and differ
in their last names, so a disk cannot have all of them taken. -/

namespace ScriptAudit

open ScriptAudit.Path

namespace Text

theorem ofNat_injective {m n : Nat} (h : ofNat m = ofNat n) : m = n := by
  have hchars : (toString m).toList = (toString n).toList :=
    List.map_injective_iff.mpr (fun _ _ => Symbol.char.inj) h
  have hdigits : Nat.toDigits 10 m = Nat.toDigits 10 n := by
    simpa only [Nat.toString_eq_repr, Nat.toList_repr] using hchars
  simpa using congrArg (fun digits => Nat.ofDigitChars 10 digits 0) hdigits

theorem slash_not_mem_ofNat (n : Nat) : slash ∉ ofNat n := by
  intro hslash
  obtain ⟨c, hc, hslash⟩ := List.mem_map.mp hslash
  obtain rfl := Symbol.char.inj hslash
  rw [Nat.toString_eq_repr, Nat.toList_repr] at hc
  have hdigit := Nat.isDigit_of_mem_toDigits (by omega) (by omega) hc
  revert hdigit
  decide

/-- What comes behind the last separator of a text goes on in a text that is put behind it. -/
theorem splitOn_append (sep : Symbol) (t : Text) : ∃ front last, sep ∉ last ∧
    ∀ more, sep ∉ more → splitOn sep (t ++ more) = front ++ [last ++ more] := by
  have hplain (more : Text) (hmore : sep ∉ more) : splitOn sep more = [more] := by
    induction more with
    | nil => rfl
    | cons s rest ih =>
      obtain ⟨hs, hrest⟩ := List.ne_and_not_mem_of_not_mem_cons hmore
      rw [splitOn, if_neg (Ne.symm hs), ih hrest]
  induction t with
  | nil => exact ⟨[], [], List.not_mem_nil, hplain⟩
  | cons s t ih =>
    obtain ⟨front, last, hlast, hsplit⟩ := ih
    by_cases hs : s = sep
    · refine ⟨[] :: front, last, hlast, fun more hmore => ?_⟩
      rw [List.cons_append, splitOn, if_pos hs, hsplit more hmore, List.cons_append]
    · cases front with
      | nil =>
        refine ⟨[], s :: last, List.not_mem_cons_of_ne_of_not_mem (Ne.symm hs) hlast,
          fun more hmore => ?_⟩
        rw [List.cons_append, splitOn, if_neg hs, hsplit more hmore]
        rfl
      | cons piece front =>
        refine ⟨(s :: piece) :: front, last, hlast, fun more hmore => ?_⟩
        rw [List.cons_append, splitOn, if_neg hs, hsplit more hmore]
        rfl

end Text

namespace Path

theorem anchorOf_append {more : Text} (t : Text) (hmore : slash ∉ more) :
    anchorOf (t ++ more) = anchorOf t := by
  have htake : (t ++ more).takeWhile (· = slash) = t.takeWhile (· = slash) := by
    induction t with
    | nil =>
      cases more with
      | nil => rfl
      | cons s more =>
        have hs : s ≠ slash := (List.ne_of_not_mem_cons hmore).symm
        exact List.takeWhile_cons_of_neg (by simpa using hs)
    | cons s t ih => simp only [List.cons_append, List.takeWhile_cons, ih]
  rw [anchorOf, htake, anchorOf]

theorem ofText_append (t : Text) : ∃ anchor front last, slash ∉ last ∧
    ∀ more, slash ∉ more → 2 ≤ more.length →
      ofText (t ++ more) = ⟨anchor, front ++ [last ++ more]⟩ := by
  obtain ⟨front, last, hlast, hsplit⟩ := Text.splitOn_append slash t
  refine ⟨anchorOf t, front.filter fun name => !name.isEmpty && name ≠ [dot], last, hlast,
    fun more hmore hlength => ?_⟩
  have hname : (!(last ++ more).isEmpty && decide (last ++ more ≠ [dot])) = true := by
    obtain ⟨s, s', more, rfl⟩ : ∃ s s' rest, more = s :: s' :: rest := by
      match more, hlength with
      | s :: s' :: rest, _ => exact ⟨s, s', rest, rfl⟩
    cases last with
    | nil => simp
    | cons a last => simp
  unfold ofText
  rw [anchorOf_append t hmore, hsplit more hmore, List.filter_append, List.filter_singleton, hname]
  rfl

end Path

namespace Stamp

theorem slash_not_mem_text (s : Stamp) : slash ∉ s.text := by
  have htwo (n : Nat) : slash ∉ twoDigits n := by
    unfold twoDigits
    split
    · exact List.not_mem_cons_of_ne_of_not_mem (by decide) (Text.slash_not_mem_ofNat n)
    · exact Text.slash_not_mem_ofNat n
  have hdash : slash ∉ Text.ofString "-" := by decide
  have htime : slash ∉ Text.ofString "T" := by decide
  simp only [text, List.mem_append, htwo, Text.slash_not_mem_ofNat, hdash, htime, or_self,
    not_false_eq_true]

end Stamp

namespace Artifact

theorem number_injective {k k' : Nat} (h : number k = number k') : k = k' := by
  unfold number at h
  by_cases hk : k = 0
  · by_cases hk' : k' = 0
    · rw [hk, hk']
    · rw [if_pos hk, if_neg hk'] at h
      cases h
  · by_cases hk' : k' = 0
    · rw [if_neg hk, if_pos hk'] at h
      cases h
    · rw [if_neg hk, if_neg hk'] at h
      exact Text.ofNat_injective (List.append_cancel_left h)

theorem slash_not_mem_number (k : Nat) : slash ∉ number k := by
  unfold number
  by_cases hk : k = 0
  · rw [if_pos hk]
    exact List.not_mem_nil
  · rw [if_neg hk]
    exact List.not_mem_append (by decide) (Text.slash_not_mem_ofNat k)

/-- The candidates differ in their last names alone, and each of these ends like a text file. -/
theorem candidate_eq (root : Path) (title : Text) (stamp : Stamp) :
    ∃ anchor front last, last ≠ [] ∧ slash ∉ last ∧ ∀ k,
      candidate root (stem title stamp) k = ⟨anchor, front ++ [last ++ number k ++ ".txt"]⟩ := by
  obtain ⟨anchor, front, last, hlast, hpath⟩ := ofText_append title
  let tail : Text := "-" ++ stamp.text
  have htail : slash ∉ tail := List.not_mem_append (by decide) stamp.slash_not_mem_text
  have hname (k : Nat) : ofText (stem title stamp ++ number k ++ ".txt") =
      ⟨anchor, front ++ [last ++ tail ++ number k ++ ".txt"]⟩ := by
    have hmore : slash ∉ tail ++ number k ++ ".txt" :=
      List.not_mem_append (List.not_mem_append htail (slash_not_mem_number k)) (by decide)
    have hlength : 2 ≤ (tail ++ number k ++ ".txt").length := by
      simp [Text.ofString]
      omega
    simpa only [stem, tail, List.append_assoc] using hpath _ hmore hlength
  by_cases hanchor : anchor.isEmpty = true
  · refine ⟨root.anchor, root.names ++ front, last ++ tail, by simp [tail, Text.ofString],
      List.not_mem_append hlast htail, fun k => ?_⟩
    rw [candidate, hname, join, if_pos hanchor, List.append_assoc root.names]
  · refine ⟨anchor, front, last ++ tail, by simp [tail, Text.ofString],
      List.not_mem_append hlast htail, fun k => ?_⟩
    rw [candidate, hname, join, if_neg hanchor]

theorem isEntryName_append {last more : Text} (hlast : slash ∉ last) (hmore : slash ∉ more)
    (hlength : 3 ≤ more.length) : IsEntryName (last ++ more) := by
  have hlong : 3 ≤ (last ++ more).length := by
    rw [List.length_append]
    omega
  refine ⟨?_, List.not_mem_append hlast hmore, ?_, ?_⟩
  all_goals
    intro h
    rw [h] at hlong
    simp at hlong

theorem candidate_getLast? (root : Path) (title : Text) (stamp : Stamp) (k : Nat) :
    ∃ front : Text, front ≠ [] ∧ IsEntryName (front ++ ".txt") ∧
      (candidate root (stem title stamp) k).names.getLast? = some (front ++ ".txt") := by
  obtain ⟨anchor, front, last, hne, hlast, hpath⟩ := candidate_eq root title stamp
  refine ⟨last ++ number k, by simp [hne], ?_, by simp [hpath]⟩
  exact isEntryName_append (List.not_mem_append hlast (slash_not_mem_number k)) (by decide)
    (by decide)

theorem isTaken_eq_true {d : Disk} {p : Path} : isTaken d p = true ↔ d.exists? p = .ok true := by
  unfold isTaken
  cases d.exists? p with
  | ok found => simp
  | error why => simp

/-- Among more candidates than a disk has entries, one is not taken. -/
theorem exists_free_candidate (d : Disk) (root : Path) (title : Text) (stamp : Stamp) :
    ∃ k ≤ d.entries.length, d.exists? (candidate root (stem title stamp) k) ≠ .ok true := by
  by_contra hall
  push Not at hall
  obtain ⟨anchor, front, last, -, hlast, hpath⟩ := candidate_eq root title stamp
  let name (k : Nat) : Text := last ++ number k ++ ".txt"
  have hname (k : Nat) : IsEntryName (name k) :=
    isEntryName_append (List.not_mem_append hlast (slash_not_mem_number k)) (by decide) (by decide)
  -- each candidate that is taken has an entry of its own, all of them in one directory
  have htaken : ∃ here, ∀ k ≤ d.entries.length, ∃ item, (here ++ [name k], item) ∈ d.entries := by
    have hexists (k : Nat) (hk : k ≤ d.entries.length) :
        d.exists? ⟨anchor, front ++ [name k]⟩ = .ok true := by
      rw [← hpath k]
      exact hall k hk
    have hentry (k : Nat) (hk : k ≤ d.entries.length) : ∃ here item,
        d.resolve ⟨anchor, front⟩ = .ok here ∧ (here ++ [name k], item) ∈ d.entries := by
      obtain ⟨r, hr⟩ := (Disk.exists?_eq_true (by simp)).mp (hexists k hk)
      obtain ⟨here, item, hhere, -, hitem⟩ := Disk.directory_of_resolve (hname k) hr
      exact ⟨here, item, hhere, Disk.mem_entries_of_item? (by simp) hitem⟩
    obtain ⟨here, -, hhere, -⟩ := hentry 0 (Nat.zero_le _)
    refine ⟨here, fun k hk => ?_⟩
    obtain ⟨here', item, hhere', hitem⟩ := hentry k hk
    rw [hhere] at hhere'
    cases hhere'
    exact ⟨item, hitem⟩
  obtain ⟨here, htaken⟩ := htaken
  let routes : List Route := (List.range (d.entries.length + 1)).map fun k => here ++ [name k]
  have hnodup : routes.Nodup := by
    refine List.nodup_range.map fun k k' h => ?_
    have hsame : name k = name k' := by simpa using h
    exact number_injective (List.append_cancel_left (List.append_cancel_right hsame))
  have hsub : routes ⊆ d.entries.map Prod.fst := by
    intro r hr
    obtain ⟨k, hk, rfl⟩ := List.mem_map.mp hr
    obtain ⟨item, hitem⟩ := htaken k (by simpa [Nat.lt_succ_iff] using hk)
    exact List.mem_map.mpr ⟨_, hitem, rfl⟩
  have hlength := (hnodup.subperm hsub).length_le
  simp only [routes, List.length_map, List.length_range] at hlength
  omega

/-- The search ends at the first candidate that is not taken. That one is free, or it cannot be
looked up. -/
theorem freePath_cases (d : Disk) (root : Path) (title : Text) (stamp : Stamp) : ∃ k,
    (∀ j < k, d.exists? (candidate root (stem title stamp) j) = .ok true) ∧
    (d.exists? (candidate root (stem title stamp) k) = .ok false ∧
        freePath d root (stem title stamp) = .ok (candidate root (stem title stamp) k) ∨
      ∃ why, d.exists? (candidate root (stem title stamp) k) = .error why ∧
        freePath d root (stem title stamp) =
          .error ⟨why, some (candidate root (stem title stamp) k).text⟩) := by
  obtain ⟨k, hk, hfree⟩ := exists_free_candidate d root title stamp
  cases hfind : (List.range (d.entries.length + 1)).find?
      fun k => !isTaken d (candidate root (stem title stamp) k) with
  | none =>
    have hnone := List.find?_eq_none.mp hfind k (by simpa [Nat.lt_succ_iff] using hk)
    rw [Bool.not_eq_true, Bool.not_eq_false', isTaken_eq_true] at hnone
    exact absurd hnone hfree
  | some j =>
    obtain ⟨hj, -, hbefore⟩ := List.find?_range_eq_some.mp hfind
    rw [Bool.not_eq_true', ← Bool.not_eq_true, isTaken_eq_true] at hj
    refine ⟨j, fun i hi => isTaken_eq_true.mp (by simpa using hbefore i hi), ?_⟩
    cases hexists : d.exists? (candidate root (stem title stamp) j) with
    | ok found =>
      cases found with
      | true => exact absurd hexists hj
      | false => exact Or.inl ⟨rfl, by simp only [freePath, hfind, Option.getD_some, hexists]⟩
    | error why =>
      exact Or.inr ⟨why, rfl, by simp only [freePath, hfind, Option.getD_some, hexists]⟩

end Artifact

end ScriptAudit
