import ScriptAudit.Path

/-! Texts in order, and the texts of paths. Texts are told apart by their codes, so a collection of
texts can be sorted in one way only, and a path that goes down by plain names can be read back from
its text. -/

namespace ScriptAudit

theorem Symbol.code_injective {a b : Symbol} (h : a.code = b.code) : a = b := by
  -- a stray byte has a code of the surrogate block, which no character has
  have hstray (c : Char) (b : UInt8) : c.toNat ≠ 0xDC00 + b.toNat := by
    have hvalid := c.valid
    have hb := b.toNat_lt
    simp only [UInt32.isValidChar, Nat.isValidChar] at hvalid
    change c.val.toNat ≠ 0xDC00 + b.toNat
    omega
  cases a with
  | char c =>
    cases b with
    | char c' => rw [Char.toNat_inj.mp h]
    | stray byte => exact absurd h (hstray c byte)
  | stray byte =>
    cases b with
    | char c => exact absurd h.symm (hstray c byte)
    | stray byte' =>
      have hbytes : byte.toNat = byte'.toNat := Nat.add_left_cancel h
      rw [UInt8.toNat_inj.mp hbytes]

namespace Text

theorem le_cons {a b : Symbol} {s t : Text} :
    le (a :: s) (b :: t) = true ↔ a.code < b.code ∨ a = b ∧ le s t = true := by
  simp only [le, Bool.or_eq_true, Bool.and_eq_true, decide_eq_true_eq]
  constructor
  · rintro (h | ⟨h, hle⟩)
    · exact Or.inl h
    · exact Or.inr ⟨Symbol.code_injective h, hle⟩
  · rintro (h | ⟨rfl, hle⟩)
    · exact Or.inl h
    · exact Or.inr ⟨rfl, hle⟩

theorem le_total (s t : Text) : (le s t || le t s) = true := by
  induction s generalizing t with
  | nil => rfl
  | cons a s ih =>
    cases t with
    | nil => rfl
    | cons b t =>
      rw [Bool.or_eq_true, le_cons, le_cons]
      rcases Nat.lt_trichotomy a.code b.code with h | h | h
      · exact Or.inl (Or.inl h)
      · obtain rfl := Symbol.code_injective h
        rcases Bool.or_eq_true_iff.mp (ih t) with hle | hle
        · exact Or.inl (Or.inr ⟨rfl, hle⟩)
        · exact Or.inr (Or.inr ⟨rfl, hle⟩)
      · exact Or.inr (Or.inl h)

theorem le_trans (s t u : Text) (hst : le s t = true) (htu : le t u = true) : le s u = true := by
  induction s generalizing t u with
  | nil => rfl
  | cons a s ih =>
    cases t with
    | nil => cases hst
    | cons b t =>
      cases u with
      | nil => cases htu
      | cons c u =>
        rw [le_cons] at hst htu ⊢
        rcases hst with hab | ⟨rfl, hst⟩
        · rcases htu with hbc | ⟨rfl, -⟩
          · exact Or.inl (Nat.lt_trans hab hbc)
          · exact Or.inl hab
        · rcases htu with hbc | ⟨rfl, htu⟩
          · exact Or.inl hbc
          · exact Or.inr ⟨rfl, ih t u hst htu⟩

theorem le_antisymm {s t : Text} (hst : le s t = true) (hts : le t s = true) : s = t := by
  induction s generalizing t with
  | nil =>
    cases t with
    | nil => rfl
    | cons b t => cases hts
  | cons a s ih =>
    cases t with
    | nil => cases hst
    | cons b t =>
      rw [le_cons] at hst hts
      rcases hst with hab | ⟨rfl, hst⟩
      · rcases hts with hba | ⟨rfl, -⟩
        · exact absurd hba (Nat.lt_asymm hab)
        · exact absurd hab (Nat.lt_irrefl _)
      · rcases hts with haa | ⟨-, hts⟩
        · exact absurd haa (Nat.lt_irrefl _)
        · rw [ih hst hts]

theorem sort_perm (ts : List Text) : (sort ts).Perm ts := List.mergeSort_perm _ _

/-- There is one way only to sort the same texts. -/
theorem sort_eq_of_perm {ss ts : List Text} (h : ss.Perm ts) : sort ss = sort ts :=
  List.Perm.eq_of_pairwise (fun _ _ _ _ => le_antisymm)
    (List.pairwise_mergeSort le_trans le_total ss) (List.pairwise_mergeSort le_trans le_total ts)
    ((sort_perm ss).trans (h.trans (sort_perm ts).symm))

theorem nodup_eraseDups (ts : List Text) : ts.eraseDups.Nodup := by
  match ts with
  | [] => exact List.nodup_nil
  | t :: ts =>
    rw [List.eraseDups_cons, List.nodup_cons, List.mem_eraseDups, List.mem_filter]
    refine ⟨fun h => ?_, nodup_eraseDups _⟩
    simp at h
termination_by ts.length
decreasing_by exact Nat.lt_succ_of_le (List.length_filter_le _ _)

theorem splitOn_eq (sep : Symbol) (t : Text) : splitOn sep t = List.splitOn sep t := by
  induction t with
  | nil => rfl
  | cons s rest ih =>
    rw [splitOn, ih, List.splitOn_cons_eq_if_modifyHead]
    by_cases hs : s = sep
    · simp [hs]
    · simp only [hs, beq_iff_eq, if_false]
      cases hsplit : List.splitOn sep rest with
      | nil => exact absurd hsplit (List.splitOn_ne_nil sep rest)
      | cons piece pieces => rfl

end Text

namespace Path

/-- A name that an entry of a directory can have. -/
def IsEntryName (name : Text) : Prop :=
  name ≠ [] ∧ slash ∉ name ∧ name ≠ [dot] ∧ name ≠ [dot, dot]

instance (name : Text) : Decidable (IsEntryName name) :=
  inferInstanceAs (Decidable (_ ∧ _ ∧ _ ∧ _))

variable {ws ws' : List Text}

theorem text_down (h : ws ≠ []) : (down ws).text = List.intercalate [slash] ws := by
  cases ws with
  | nil => exact absurd rfl h
  | cons w ws => rfl

theorem splitOn_text_down (hne : ws ≠ []) (h : ∀ w ∈ ws, IsEntryName w) :
    (down ws).text.splitOn slash = ws := by
  rw [Text.splitOn_eq, text_down hne]
  exact List.splitOn_intercalate slash (fun w hw => (h w hw).2.1) hne

theorem text_down_head? (hne : ws ≠ []) (h : ∀ w ∈ ws, IsEntryName w) :
    ∃ s rest, (down ws).text = s :: rest ∧ s ≠ slash := by
  obtain ⟨w, rest, rfl⟩ := List.exists_cons_of_ne_nil hne
  obtain ⟨hw, hslash, -, -⟩ := h w List.mem_cons_self
  obtain ⟨s, w, rfl⟩ := List.exists_cons_of_ne_nil hw
  have hs : s ≠ slash := fun hs => hslash (hs ▸ List.mem_cons_self)
  rw [text_down hne]
  cases rest with
  | nil => exact ⟨s, w, by simp [List.intercalate], hs⟩
  | cons v rest => exact ⟨s, w ++ slash :: List.intercalate [slash] (v :: rest), rfl, hs⟩

/-- A path down by plain names is read back from its text. -/
theorem ofText_text_down (hne : ws ≠ []) (h : ∀ w ∈ ws, IsEntryName w) :
    ofText (down ws).text = down ws := by
  have hnames : ((down ws).text.splitOn slash).filter (fun name => !name.isEmpty && name ≠ [dot]) =
      ws := by
    rw [splitOn_text_down hne h]
    refine List.filter_eq_self.mpr fun w hw => ?_
    obtain ⟨hnil, -, hdot, -⟩ := h w hw
    simp [hnil, hdot]
  obtain ⟨s, rest, htext, hs⟩ := text_down_head? hne h
  have hanchor : anchorOf (down ws).text = [] := by
    rw [htext, anchorOf]
    simp [hs]
  unfold ofText
  rw [hanchor, hnames]
  rfl

theorem text_down_ne_nil (h : ∀ w ∈ ws, IsEntryName w) : (down ws).text ≠ [] := by
  by_cases hne : ws = []
  · rw [hne]
    exact List.cons_ne_nil _ _
  · obtain ⟨s, rest, htext, -⟩ := text_down_head? hne h
    rw [htext]
    exact List.cons_ne_nil _ _

theorem text_down_injective (h : ∀ w ∈ ws, IsEntryName w) (h' : ∀ w ∈ ws', IsEntryName w)
    (htext : (down ws).text = (down ws').text) : ws = ws' := by
  -- the text of no names is a dot, and a dot is no name
  have hdot {us : List Text} (hus : ∀ w ∈ us, IsEntryName w) (hne : us ≠ [])
      (hd : (down us).text = [dot]) : False := by
    have hsplit := splitOn_text_down hne hus
    rw [hd] at hsplit
    exact (hus [dot] (hsplit ▸ List.mem_cons_self)).2.2.1 rfl
  by_cases hne : ws = []
  · by_cases hne' : ws' = []
    · rw [hne, hne']
    · subst hne
      exact (hdot h' hne' htext.symm).elim
  · by_cases hne' : ws' = []
    · subst hne'
      exact (hdot h hne htext).elim
    · rw [← splitOn_text_down hne h, ← splitOn_text_down hne' h', htext]

end Path

end ScriptAudit
