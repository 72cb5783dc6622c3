import ScriptAudit.Syntax.Focus

/-! The places of a tree in document order, and the places above each of them. Two places of one
tree are the same focus only if they are the same place, since a focus holds the way to its root. -/

namespace ScriptAudit.Syntax

mutual

def Node.decideEq : (m n : Node) → Decidable (m = n)
  | ⟨kind, role, named, row, text, missing, flawed, children⟩,
    ⟨kind', role', named', row', text', missing', flawed', children'⟩ =>
    match decideEqs children children' with
    | .isTrue h =>
      decidable_of_iff (kind = kind' ∧ role = role' ∧ named = named' ∧ row = row' ∧ text = text' ∧
        missing = missing' ∧ flawed = flawed') (by simp [h])
    | .isFalse h => .isFalse (by simp [h])

def Node.decideEqs : (ms ns : List Node) → Decidable (ms = ns)
  | [], [] => .isTrue rfl
  | [], _ :: _ => .isFalse (by simp)
  | _ :: _, [] => .isFalse (by simp)
  | m :: ms, n :: ns =>
    match decideEq m n, decideEqs ms ns with
    | .isTrue h, .isTrue h' => .isTrue (by rw [h, h'])
    | .isFalse h, _ => .isFalse (by simp [h])
    | _, .isFalse h => .isFalse (by simp [h])

end

instance : DecidableEq Node := Node.decideEq

deriving instance DecidableEq for Frame

deriving instance DecidableEq for Focus

namespace Focus

def above : List Frame → List Focus
  | [] => []
  | frame :: frames => ⟨frame.parent, frames⟩ :: above frames

def ancestors (f : Focus) : List Focus := above f.frames

/-- A place with all that stand above it. -/
def lineage (f : Focus) : List Focus := f :: f.ancestors

def depth (f : Focus) : Nat := f.frames.length

/-- The name of the innermost class around a place. -/
def owner? (f : Focus) : Option String :=
  (f.ancestors.find? (·.node.isClassLike)).map (·.node.className)

def function? (f : Focus) : Option Focus := f.ancestors.find? (·.node.isFunctionLike)

@[simp] theorem preorder_nil : preorder [] = [] := by rw [preorder]

theorem preorder_append (fs gs : List Focus) : preorder (fs ++ gs) = preorder fs ++ preorder gs := by
  fun_induction preorder fs with
  | case1 => rfl
  | case2 f rest ih =>
    rw [List.cons_append, preorder, ← List.append_assoc, ih, List.cons_append]

theorem preorder_cons (f : Focus) (rest : List Focus) :
    preorder (f :: rest) = f :: (preorder f.namedChildren ++ preorder rest) := by
  rw [preorder, preorder_append]

theorem mem_siblings {parent : Node} {frames : List Frame} {before ns : List Node} {c : Focus}
    (h : c ∈ siblings parent frames before ns) :
    ∃ left, c.frames = ⟨parent, left⟩ :: frames ∧ before.length ≤ left.length := by
  induction ns generalizing before with
  | nil => simp [siblings] at h
  | cons n ns ih =>
    rcases List.mem_cons.mp h with rfl | h
    · exact ⟨before, rfl, Nat.le_refl _⟩
    · obtain ⟨left, hc, hl⟩ := ih h
      exact ⟨left, hc, by simp only [List.length_cons] at hl; omega⟩

theorem siblings_nodup (parent : Node) (frames : List Frame) (before ns : List Node) :
    (siblings parent frames before ns).Nodup := by
  induction ns generalizing before with
  | nil => simp [siblings]
  | cons n ns ih =>
    refine List.nodup_cons.mpr ⟨?_, ih _⟩
    intro h
    obtain ⟨left, hc, hl⟩ := mem_siblings h
    simp only [List.cons.injEq, Frame.mk.injEq, true_and, and_true] at hc
    simp only [← hc, List.length_cons] at hl
    omega

theorem namedChildren_nodup (f : Focus) : f.namedChildren.Nodup :=
  (siblings_nodup ..).filter _

theorem ancestors_of_mem_children {f c : Focus} (h : c ∈ f.children) :
    c.ancestors = f :: f.ancestors := by
  obtain ⟨left, hc, -⟩ := mem_siblings h
  rw [ancestors, hc, above]
  rfl

theorem mem_children_of_mem_namedChildren {f c : Focus} (h : c ∈ f.namedChildren) :
    c ∈ f.children := (List.mem_filter.mp h).1

theorem node_mem_children {f c : Focus} (h : c ∈ f.children) : c.node ∈ f.node.children := by
  rw [← map_node_siblings f.node f.frames [] f.node.children]
  exact List.mem_map_of_mem h

theorem ancestors_of_mem_namedChildren {f c : Focus} (h : c ∈ f.namedChildren) :
    c.ancestors = f :: f.ancestors :=
  ancestors_of_mem_children (mem_children_of_mem_namedChildren h)

theorem owner?_of_mem_namedChildren {f c : Focus} (h : c ∈ f.namedChildren) :
    c.owner? = if f.node.isClassLike then some f.node.className else f.owner? := by
  rw [owner?, ancestors_of_mem_namedChildren h, List.find?_cons]
  cases f.node.isClassLike <;> rfl

theorem function?_of_mem_children {f c : Focus} (h : c ∈ f.children) :
    c.function? = if f.node.isFunctionLike then some f else f.function? := by
  rw [function?, ancestors_of_mem_children h, List.find?_cons]
  cases f.node.isFunctionLike <;> rfl

theorem sizes_inside_append_lt (f : Focus) (rest : List Focus) :
    sizes (f.namedChildren ++ rest) < sizes (f :: rest) := by
  have := f.sizes_namedChildren_lt
  rw [sizes_append]
  simp only [sizes, List.map_cons, Node.sizes] at *
  omega

theorem sizes_inside_lt (f : Focus) (rest : List Focus) :
    sizes f.namedChildren < sizes (f :: rest) := by
  have := sizes_inside_append_lt f rest
  rw [sizes_append] at this
  omega

theorem sizes_behind_lt (f : Focus) (rest : List Focus) : sizes rest < sizes (f :: rest) := by
  have := sizes_inside_append_lt f rest
  rw [sizes_append] at this
  omega

/-- Induction over the trees at given places: first inside a place, then behind it. -/
@[elab_as_elim] theorem forest_induction {motive : List Focus → Prop} (nil : motive [])
    (cons : ∀ f rest, motive f.namedChildren → motive rest → motive (f :: rest))
    (fs : List Focus) : motive fs :=
  match fs with
  | [] => nil
  | f :: rest =>
    cons f rest (forest_induction nil cons f.namedChildren) (forest_induction nil cons rest)
termination_by sizes fs
decreasing_by
  · exact sizes_inside_lt f rest
  · exact sizes_behind_lt f rest

theorem mem_preorder_of_mem {f : Focus} {fs : List Focus} (h : f ∈ fs) : f ∈ preorder fs := by
  induction fs with
  | nil => cases h
  | cons g fs ih =>
    rw [preorder_cons]
    rcases List.mem_cons.mp h with rfl | h
    · exact List.mem_cons_self
    · exact List.mem_cons_of_mem _ (List.mem_append_right _ (ih h))

theorem mem_preorder_of_mem_namedChildren {f c : Focus} {fs : List Focus} (h : f ∈ preorder fs)
    (hc : c ∈ f.namedChildren) : c ∈ preorder fs := by
  induction fs using forest_induction with
  | nil => simp at h
  | cons g rest ihinner ihrest =>
    rw [preorder_cons] at h ⊢
    apply List.mem_cons_of_mem
    rcases List.mem_cons.mp h with rfl | h
    · exact List.mem_append_left _ (mem_preorder_of_mem hc)
    · rcases List.mem_append.mp h with h | h
      · exact List.mem_append_left _ (ihinner h)
      · exact List.mem_append_right _ (ihrest h)

theorem forall_mem_preorder {P : Focus → Prop} {fs : List Focus} (hbase : ∀ f ∈ fs, P f)
    (hstep : ∀ f ∈ preorder fs, P f → ∀ c ∈ f.namedChildren, P c) : ∀ n ∈ preorder fs, P n := by
  induction fs using forest_induction with
  | nil => simp
  | cons f rest ihinner ihrest =>
    rw [preorder_cons] at hstep ⊢
    have hf := hbase f List.mem_cons_self
    have hinner := ihinner (hstep f List.mem_cons_self hf) fun g hg =>
      hstep g (List.mem_cons_of_mem _ (List.mem_append_left _ hg))
    have hrest := ihrest (fun g hg => hbase g (List.mem_cons_of_mem _ hg)) fun g hg =>
      hstep g (List.mem_cons_of_mem _ (List.mem_append_right _ hg))
    intro n hn
    rcases List.mem_cons.mp hn with rfl | hn
    · exact hf
    · rcases List.mem_append.mp hn with hn | hn
      · exact hinner n hn
      · exact hrest n hn

theorem depth_lt_of_mem_above {g : Focus} {frames : List Frame} (h : g ∈ above frames) :
    g.depth < frames.length := by
  induction frames with
  | nil => cases h
  | cons frame frames ih =>
    rcases List.mem_cons.mp h with rfl | h
    · exact Nat.lt_succ_self _
    · exact Nat.lt_succ_of_lt (ih h)

theorem depth_le_of_mem_lineage {f g : Focus} (h : g ∈ f.lineage) : g.depth ≤ f.depth := by
  rcases List.mem_cons.mp h with rfl | h
  · exact Nat.le_refl _
  · exact Nat.le_of_lt (depth_lt_of_mem_above h)

theorem above_subset {g : Focus} {frames : List Frame} (h : g ∈ above frames) :
    above g.frames ⊆ above frames := by
  induction frames with
  | nil => cases h
  | cons frame frames ih =>
    rcases List.mem_cons.mp h with rfl | h
    · exact List.subset_cons_self _ _
    · exact List.Subset.trans (ih h) (List.subset_cons_self _ _)

theorem lineage_trans {f g n : Focus} (hf : f ∈ g.lineage) (hg : g ∈ n.lineage) : f ∈ n.lineage := by
  rcases List.mem_cons.mp hg with rfl | hg
  · exact hf
  · apply List.mem_cons_of_mem
    rcases List.mem_cons.mp hf with rfl | hf
    · exact hg
    · exact above_subset hg hf

theorem above_unique {g h : Focus} {frames : List Frame} (hg : g ∈ above frames)
    (hh : h ∈ above frames) (hdepth : g.depth = h.depth) : g = h := by
  induction frames with
  | nil => cases hg
  | cons frame frames ih =>
    rcases List.mem_cons.mp hg with rfl | hg
    · rcases List.mem_cons.mp hh with rfl | hh
      · rfl
      · have := depth_lt_of_mem_above hh
        simp only [depth] at hdepth this
        omega
    · rcases List.mem_cons.mp hh with rfl | hh
      · have := depth_lt_of_mem_above hg
        simp only [depth] at hdepth this
        omega
      · exact ih hg hh

theorem lineage_unique {f g n : Focus} (hf : f ∈ n.lineage) (hg : g ∈ n.lineage)
    (hdepth : f.depth = g.depth) : f = g := by
  rcases List.mem_cons.mp hf with rfl | hf
  · rcases List.mem_cons.mp hg with rfl | hg
    · rfl
    · have : g.depth < f.depth := depth_lt_of_mem_above hg
      omega
  · rcases List.mem_cons.mp hg with rfl | hg
    · have : f.depth < g.depth := depth_lt_of_mem_above hf
      omega
    · exact above_unique hf hg hdepth

theorem lineage_of_mem_namedChildren {f c : Focus} (h : c ∈ f.namedChildren) :
    c.lineage = c :: f.lineage := by
  rw [lineage, ancestors_of_mem_namedChildren h]
  rfl

theorem depth_of_mem_namedChildren {f c : Focus} (h : c ∈ f.namedChildren) :
    c.depth = f.depth + 1 := by
  obtain ⟨left, hc, -⟩ := mem_siblings (mem_children_of_mem_namedChildren h)
  rw [depth, hc]
  rfl

theorem exists_mem_lineage {fs : List Focus} : ∀ n ∈ preorder fs, ∃ f ∈ fs, f ∈ n.lineage := by
  apply forall_mem_preorder
  · intro f hf
    exact ⟨f, hf, List.mem_cons_self⟩
  · rintro f - ⟨g, hg, hgf⟩ c hc
    refine ⟨g, hg, ?_⟩
    rw [lineage_of_mem_namedChildren hc]
    exact List.mem_cons_of_mem _ hgf

theorem mem_lineage_of_mem_preorder_namedChildren {f n : Focus}
    (h : n ∈ preorder f.namedChildren) : f ∈ n.lineage := by
  obtain ⟨c, hc, hcn⟩ := exists_mem_lineage n h
  have hf : f ∈ c.lineage := by
    rw [lineage_of_mem_namedChildren hc]
    exact List.mem_cons_of_mem _ List.mem_cons_self
  exact lineage_trans hf hcn

theorem lineage_subset_preorder {tree : Node} :
    ∀ n ∈ preorder [root tree], n.lineage ⊆ preorder [root tree] := by
  apply forall_mem_preorder
  · intro f hf g hg
    rw [List.mem_singleton.mp hf] at hg
    exact mem_preorder_of_mem hg
  · intro f hf ih c hc
    rw [lineage_of_mem_namedChildren hc]
    exact List.cons_subset.mpr ⟨mem_preorder_of_mem_namedChildren hf hc, ih⟩

/-- Different places at one depth, so that no tree of theirs is part of another. -/
def IsLevel (fs : List Focus) : Prop := fs.Nodup ∧ ∀ f ∈ fs, ∀ g ∈ fs, f.depth = g.depth

theorem isLevel_root (tree : Node) : IsLevel [root tree] := by
  refine ⟨by simp, ?_⟩
  intro f hf g hg
  rw [List.mem_singleton.mp hf, List.mem_singleton.mp hg]

theorem isLevel_namedChildren (f : Focus) : IsLevel f.namedChildren := by
  refine ⟨f.namedChildren_nodup, ?_⟩
  intro c hc c' hc'
  rw [depth_of_mem_namedChildren hc, depth_of_mem_namedChildren hc']

theorem IsLevel.tail {f : Focus} {rest : List Focus} (h : IsLevel (f :: rest)) : IsLevel rest :=
  ⟨(List.nodup_cons.mp h.1).2, fun g hg g' hg' =>
    h.2 g (List.mem_cons_of_mem _ hg) g' (List.mem_cons_of_mem _ hg')⟩

theorem IsLevel.not_mem_lineage {f b n : Focus} {rest : List Focus} (h : IsLevel (f :: rest))
    (hb : b ∈ preorder rest) (hbn : b ∈ n.lineage) : f ∉ n.lineage := by
  intro hf
  obtain ⟨g, hg, hgb⟩ := exists_mem_lineage b hb
  have hdepth := h.2 f List.mem_cons_self g (List.mem_cons_of_mem _ hg)
  have he := lineage_unique hf (lineage_trans hgb hbn) hdepth
  exact (List.nodup_cons.mp h.1).1 (he ▸ hg)

theorem not_mem_preorder_namedChildren (f : Focus) : f ∉ preorder f.namedChildren := by
  intro h
  obtain ⟨c, hc, hcf⟩ := exists_mem_lineage f h
  have := depth_le_of_mem_lineage hcf
  have := depth_of_mem_namedChildren hc
  omega

/-- The walk in document order comes to each place once. -/
theorem IsLevel.preorder_nodup {fs : List Focus} (h : IsLevel fs) : (preorder fs).Nodup := by
  induction fs using forest_induction with
  | nil => simp
  | cons f rest ihinner ihrest =>
    rw [preorder_cons]
    refine List.nodup_cons.mpr ⟨?_, List.nodup_append.mpr
      ⟨ihinner (isLevel_namedChildren f), ihrest h.tail, ?_⟩⟩
    · intro hf
      rcases List.mem_append.mp hf with hf | hf
      · exact not_mem_preorder_namedChildren f hf
      · exact h.not_mem_lineage hf List.mem_cons_self List.mem_cons_self
    · rintro n hn _ hn' rfl
      have hf := mem_lineage_of_mem_preorder_namedChildren hn
      exact h.not_mem_lineage hn' List.mem_cons_self hf

/-- The places at or below a place are a stretch of the walk: the walk from that place. -/
theorem IsLevel.filter_lineage {fs : List Focus} (h : IsLevel fs) {b : Focus}
    (hb : b ∈ preorder fs) : (preorder fs).filter (fun n => b ∈ n.lineage) = preorder [b] := by
  induction fs using forest_induction with
  | nil => simp at hb
  | cons f rest ihinner ihrest =>
    rw [preorder_cons] at hb ⊢
    rw [List.filter_cons, List.filter_append]
    -- `b` is the first place, or it is inside that place, or behind it
    rcases List.mem_cons.mp hb with rfl | hb
    · have hinner : (preorder b.namedChildren).filter (fun n => b ∈ n.lineage) =
          preorder b.namedChildren := List.filter_eq_self.mpr fun n hn =>
        decide_eq_true (mem_lineage_of_mem_preorder_namedChildren hn)
      have hrest : (preorder rest).filter (fun n => b ∈ n.lineage) = [] :=
        List.filter_eq_nil_iff.mpr fun n hn => by
          simpa using h.not_mem_lineage hn List.mem_cons_self
      rw [hinner, hrest, preorder_cons, preorder_nil, if_pos (by simp [lineage])]
    · rcases List.mem_append.mp hb with hb | hb
      · have hf : b ∉ f.lineage := by
          intro hbf
          obtain ⟨c, hc, hcb⟩ := exists_mem_lineage b hb
          have := depth_le_of_mem_lineage (lineage_trans hcb hbf)
          have := depth_of_mem_namedChildren hc
          omega
        have hfb := mem_lineage_of_mem_preorder_namedChildren hb
        have hrest : (preorder rest).filter (fun n => b ∈ n.lineage) = [] :=
          List.filter_eq_nil_iff.mpr fun n hn => by
            simpa using fun hbn => h.not_mem_lineage hn List.mem_cons_self (lineage_trans hfb hbn)
        rw [if_neg (by simpa using hf), ihinner (isLevel_namedChildren f) hb, hrest, List.append_nil]
      · have hf : b ∉ f.lineage := fun hbf => h.not_mem_lineage hb hbf List.mem_cons_self
        have hinner : (preorder f.namedChildren).filter (fun n => b ∈ n.lineage) = [] :=
          List.filter_eq_nil_iff.mpr fun n hn => by
            have hfn := mem_lineage_of_mem_preorder_namedChildren hn
            simpa using fun hbn => h.not_mem_lineage hb hbn hfn
        rw [if_neg (by simpa using hf), hinner, ihrest h.tail hb, List.nil_append]

end Focus

end ScriptAudit.Syntax
