import ScriptAudit.Proofs.Preorder
import ScriptAudit.Proofs.Refusals
import ScriptAudit.Syntax.Scope

/-! Every point of suspension belongs to the nearest function around it, provided that it stands in
the body of that function. The walk through one body is set against the walk through the tree. -/

namespace ScriptAudit.Syntax

namespace Node

theorem make_ok {line : Int} {kind : Suspension.Kind} {label : String} (hline : 1 ≤ line)
    (hlabel : label ≠ "") : Suspension.make line kind label = .ok ⟨line, kind, label⟩ := by
  simp [Suspension.make, require, hline, hlabel, bind, Except.bind, pure, Except.pure]

theorem promiseCall?_ok {n : Node} (hline : 1 ≤ n.line) : ∃ point, n.promiseCall? = .ok point := by
  unfold promiseCall?
  split
  · split
    · rename_i method _
      split
      · rename_i hchain
        have hlabel : method ≠ "" := by
          rintro rfl
          simp [isChainMethod] at hchain
        rw [make_ok hline hlabel]
        exact ⟨_, rfl⟩
      · split
        · split
          · have hlabel : "Promise." ++ method ≠ "" := by
              intro h
              simpa using congrArg String.length h
            rw [make_ok hline hlabel]
            exact ⟨_, rfl⟩
          · exact ⟨_, rfl⟩
        · exact ⟨_, rfl⟩
    · exact ⟨_, rfl⟩
  · exact ⟨_, rfl⟩

theorem suspension?_ok {n : Node} (hrow : 0 ≤ n.row) : ∃ point, n.suspension? = .ok point := by
  have hline : 1 ≤ n.line := by
    unfold line
    omega
  unfold suspension?
  split
  · rw [make_ok hline (by decide)]
    exact ⟨_, rfl⟩
  · split
    · rw [make_ok hline (by decide)]
      exact ⟨_, rfl⟩
    · exact ⟨_, rfl⟩
  · exact promiseCall?_ok hline
  · exact ⟨_, rfl⟩

end Node

namespace Focus

def shallow (stack : List Focus) : List Focus :=
  match stack with
  | [] => []
  | f :: rest =>
    if f.node.isFunctionLike then f :: shallow rest else f :: shallow (f.namedChildren ++ rest)
termination_by sizes stack
decreasing_by
  · exact sizes_behind_lt f rest
  · exact sizes_inside_append_lt f rest

def body? (f : Focus) : Option Focus := f.children.find? fun c => c.node.role = some .body

/-- The places at which a function is searched for points of its own. -/
def scope (f : Focus) : List Focus :=
  match f.body? with
  | none => []
  | some body => shallow [body]

def point? (f : Focus) : Option Suspension :=
  match f.node.suspension? with
  | .ok point => point
  | .error _ => none

/-- The places whose points are counted for a function, as often as they are counted. -/
def contributors (f : Focus) : List Focus := f.scope.filter (·.point?.isSome)

def isInBody (n F : Focus) : Bool := F.body?.any (· ∈ n.lineage)

/-- Whether `F` is the nearest function around `n`, and `n` stands in its body. -/
def owns (F n : Focus) : Bool := n.function? = some F && n.isInBody F

theorem map_node_shallow (fs : List Focus) :
    (shallow fs).map (·.node) = Node.shallow (fs.map (·.node)) := by
  fun_induction shallow fs with
  | case1 => rw [List.map_nil, Node.shallow]
  | case2 f rest hf ih => rw [List.map_cons, List.map_cons, Node.shallow, ih, if_pos hf]
  | case3 f rest hf ih =>
    rw [List.map_cons, List.map_cons, Node.shallow, ih, if_neg hf, List.map_append,
      map_node_namedChildren]

theorem map_node_body? (f : Focus) : f.body?.map (·.node) = f.node.child? .body := by
  have hchildren : f.children.map (·.node) = f.node.children := map_node_siblings ..
  rw [Node.child?, ← hchildren, List.find?_map]
  rfl

theorem suspensions_eq (f : Focus) :
    f.node.suspensions = do
      let points ← f.scope.mapM (·.node.suspension?)
      return points.filterMap fun point => point := by
  have hbody := f.map_node_body?
  unfold Node.suspensions scope
  cases hb : f.body? with
  | none =>
    rw [hb] at hbody
    rw [← hbody]
    rfl
  | some body =>
    rw [hb] at hbody
    have hnodes := map_node_shallow [body]
    rw [← hbody]
    simp only [Option.map_some]
    rw [← List.map_singleton, ← hnodes, List.mapM_map]
    rfl

theorem filterMap_point?_contributors (f : Focus) :
    f.contributors.filterMap point? = f.scope.filterMap point? := by
  rw [contributors, List.filterMap_filter]
  congr 1
  funext n
  cases hn : n.point? with
  | none => simp
  | some point => simp

theorem suspensions_ok {f : Focus} (h : ∀ n ∈ f.scope, 0 ≤ n.node.row) :
    f.node.suspensions = .ok (f.contributors.filterMap point?) := by
  have hpoints : f.scope.mapM (·.node.suspension?) = .ok (f.scope.map point?) := by
    apply mapM_eq_ok_map
    intro n hn
    obtain ⟨point, hp⟩ := Node.suspension?_ok (h n hn)
    rw [point?, hp]
  rw [suspensions_eq, hpoints, filterMap_point?_contributors]
  change Except.ok _ = _
  rw [List.filterMap_map]
  rfl

theorem eq_contributors_of_suspensions {f : Focus} {points : List Suspension}
    (h : f.node.suspensions = .ok points) : points = f.contributors.filterMap point? := by
  rw [suspensions_eq] at h
  obtain ⟨found, hfound, hpoints⟩ := bind_eq_ok.mp h
  have hvalue := eq_map_of_mapM_eq_ok point? (fun n _ point hp => by rw [point?, hp]) hfound
  rw [filterMap_point?_contributors, ← Except.ok.inj hpoints, hvalue, List.filterMap_map]
  rfl

theorem forall_mem_shallow {P : Focus → Prop} {fs : List Focus} (hbase : ∀ f ∈ fs, P f)
    (hstep : ∀ f, P f → ¬ f.node.isFunctionLike → ∀ c ∈ f.namedChildren, P c) :
    ∀ n ∈ shallow fs, P n := by
  fun_induction shallow fs with
  | case1 => simp
  | case2 f rest hf ih =>
    obtain ⟨hP, hrest⟩ := List.forall_mem_cons.mp hbase
    exact List.forall_mem_cons.mpr ⟨hP, ih hrest⟩
  | case3 f rest hf ih =>
    obtain ⟨hP, hrest⟩ := List.forall_mem_cons.mp hbase
    refine List.forall_mem_cons.mpr ⟨hP, ih fun c hc => ?_⟩
    rcases List.mem_append.mp hc with hc | hc
    · exact hstep f hP hf c hc
    · exact hrest c hc

theorem body?_mem_children {F b : Focus} (h : F.body? = some b) : b ∈ F.children :=
  List.mem_of_find?_eq_some h

theorem owns_of_mem_scope {F : Focus} (hF : F.node.isFunctionLike) :
    ∀ n ∈ F.scope, F.owns n := by
  unfold scope
  cases hb : F.body? with
  | none => simp
  | some b =>
    have h : ∀ n ∈ shallow [b], n.function? = some F ∧ b ∈ n.lineage := by
      apply forall_mem_shallow
      · intro f hf
        rw [List.mem_singleton.mp hf, function?_of_mem_children (body?_mem_children hb), if_pos hF]
        exact ⟨rfl, List.mem_cons_self⟩
      · rintro f ⟨hfun, hbf⟩ hf c hc
        rw [function?_of_mem_children (mem_children_of_mem_namedChildren hc), if_neg hf,
          lineage_of_mem_namedChildren hc]
        exact ⟨hfun, List.mem_cons_of_mem _ hbf⟩
    intro n hn
    obtain ⟨hfun, hbn⟩ := h n hn
    simp [owns, isInBody, hfun, hb, hbn]

theorem depth_lt_of_function? {F f : Focus} (h : f.function? = some F) : F.depth < f.depth :=
  depth_lt_of_mem_above (List.mem_of_find?_eq_some h)

theorem isFunctionLike_of_function? {F f : Focus} (h : f.function? = some F) :
    F.node.isFunctionLike :=
  List.find?_some (p := fun g : Focus => g.node.isFunctionLike) h

theorem function?_inside {f : Focus} (hf : f.node.isFunctionLike) :
    ∀ n ∈ preorder f.namedChildren, ∃ H, n.function? = some H ∧ f.depth ≤ H.depth := by
  apply forall_mem_preorder
  · intro c hc
    rw [function?_of_mem_children (mem_children_of_mem_namedChildren hc), if_pos hf]
    exact ⟨f, rfl, Nat.le_refl _⟩
  · rintro g - ⟨H, hH, hdepth⟩ c hc
    rw [function?_of_mem_children (mem_children_of_mem_namedChildren hc)]
    by_cases hg : g.node.isFunctionLike = true
    · have := depth_lt_of_function? hH
      exact ⟨g, by rw [if_pos hg], by omega⟩
    · exact ⟨H, by rw [if_neg hg, hH], hdepth⟩

theorem shallow_eq_filter {F : Focus} {fs : List Focus} (h : ∀ f ∈ fs, f.function? = some F) :
    shallow fs = (preorder fs).filter fun n => n.function? = some F := by
  fun_induction shallow fs with
  | case1 => simp
  | case2 f rest hf ih =>
    obtain ⟨hfun, hrest⟩ := List.forall_mem_cons.mp h
    -- the walk does not go into `f`, and nothing in there has `F` as its nearest function
    have hinside : (preorder f.namedChildren).filter (fun n => n.function? = some F) = [] :=
      List.filter_eq_nil_iff.mpr fun n hn => by
        obtain ⟨H, hH, hle⟩ := function?_inside hf n hn
        have hlt := depth_lt_of_function? hfun
        have hne : H ≠ F := by
          rintro rfl
          omega
        simpa [hH] using hne
    rw [ih hrest, preorder_cons, List.filter_cons, if_pos (by simpa using hfun), List.filter_append,
      hinside, List.nil_append]
  | case3 f rest hf ih =>
    obtain ⟨hfun, hrest⟩ := List.forall_mem_cons.mp h
    have hall : ∀ c ∈ f.namedChildren ++ rest, c.function? = some F := by
      intro c hc
      rcases List.mem_append.mp hc with hc | hc
      · rw [function?_of_mem_children (mem_children_of_mem_namedChildren hc), if_neg hf, hfun]
      · exact hrest c hc
    rw [ih hall, preorder, List.filter_cons, if_pos (by simpa using hfun)]

/-- The walk through a body comes exactly to what the function owns, in document order. -/
theorem scope_eq_filter {tree : Node} {F : Focus} (hmem : F ∈ preorder [root tree])
    (hF : F.node.isFunctionLike) (hnamed : ∀ b, F.node.child? .body = some b → b.named) :
    F.scope = (preorder [root tree]).filter F.owns := by
  unfold scope
  cases hb : F.body? with
  | none =>
    refine (List.filter_eq_nil_iff.mpr fun n _ => ?_).symm
    simp [owns, isInBody, hb]
  | some b =>
    have hbnode : F.node.child? .body = some b.node := by rw [← map_node_body?, hb]; rfl
    have hchild := body?_mem_children hb
    have hbmem : b ∈ preorder [root tree] :=
      mem_preorder_of_mem_namedChildren hmem (List.mem_filter.mpr ⟨hchild, hnamed _ hbnode⟩)
    have hfun : ∀ f ∈ [b], f.function? = some F := by
      intro f hf
      rw [List.mem_singleton.mp hf, function?_of_mem_children hchild, if_pos hF]
    change shallow [b] = _
    rw [shallow_eq_filter hfun, ← (isLevel_root tree).filter_lineage hbmem, List.filter_filter]
    apply List.filter_congr
    intro n _
    simp [owns, isInBody, hb]

theorem owns_of_mem_contributors {F n : Focus} (hF : F.node.isFunctionLike)
    (hn : n ∈ F.contributors) : n.function? = some F ∧ n.isInBody F := by
  have h := owns_of_mem_scope hF n (List.mem_filter.mp hn).1
  simpa [owns] using h

theorem contributors_eq_filter {tree : Node} {F : Focus} (hmem : F ∈ preorder [root tree])
    (hF : F.node.isFunctionLike) (hnamed : ∀ b, F.node.child? .body = some b → b.named) :
    F.contributors = (preorder [root tree]).filter fun n => F.owns n && n.point?.isSome := by
  rw [contributors, scope_eq_filter hmem hF hnamed, List.filter_filter]
  apply List.filter_congr
  intro n _
  exact Bool.and_comm _ _

theorem count_contributors {tree : Node} {F n : Focus} (hmem : F ∈ preorder [root tree])
    (hF : F.node.isFunctionLike) (hnamed : ∀ b, F.node.child? .body = some b → b.named)
    (hn : n ∈ preorder [root tree]) (howns : F.owns n) (hpoint : n.point?.isSome) :
    F.contributors.count n = 1 := by
  have hnodup : F.contributors.Nodup := by
    rw [contributors_eq_filter hmem hF hnamed]
    exact (isLevel_root tree).preorder_nodup.filter _
  have hcounted : n ∈ F.contributors := by
    rw [contributors_eq_filter hmem hF hnamed]
    simp [hn, howns, hpoint]
  rw [hnodup.count, if_pos hcounted]

/-- A point is counted once for the nearest function around it if it stands in the body, and
otherwise for no function. The points of a function come in document order. -/
theorem suspension_points_partition (tree : Node)
    (hrow : ∀ f ∈ preorder [root tree], 0 ≤ f.node.row)
    (hnamed : ∀ f ∈ preorder [root tree], f.node.isFunctionLike →
      ∀ b, f.node.child? .body = some b → b.named) :
    (∀ n ∈ preorder [root tree], ∀ point, n.node.suspension? = .ok (some point) →
      (∀ F, n.function? = some F → n.isInBody F →
        F.contributors.count n = 1 ∧
          ∀ G : Focus, G.node.isFunctionLike → G ≠ F → n ∉ G.contributors) ∧
      (n.function? = none ∨ (∃ F, n.function? = some F ∧ ¬ n.isInBody F) →
        ∀ G : Focus, G.node.isFunctionLike → n ∉ G.contributors)) ∧
    (∀ F ∈ preorder [root tree], F.node.isFunctionLike →
      F.contributors = (preorder [root tree]).filter (fun n => F.owns n && n.point?.isSome) ∧
      F.node.suspensions = .ok (F.contributors.filterMap point?)) ∧
    ∀ (G : Focus) (points : List Suspension), G.node.suspensions = .ok points →
      points = G.contributors.filterMap point? := by
  refine ⟨fun n hn point hpoint => ⟨?_, ?_⟩, fun F hF hfun => ⟨?_, ?_⟩,
    fun G points => eq_contributors_of_suspensions⟩
  · intro F hF hin
    constructor
    · have hFn : F ∈ n.lineage := List.mem_cons_of_mem _ (List.mem_of_find?_eq_some hF)
      have hFmem := lineage_subset_preorder n hn hFn
      have hFfun := isFunctionLike_of_function? hF
      exact count_contributors hFmem hFfun (hnamed F hFmem hFfun) hn (by simp [owns, hF, hin])
        (by simp [point?, hpoint])
    · intro G hG hne hmem
      have he := (owns_of_mem_contributors hG hmem).1
      exact hne (Option.some.inj (he.symm.trans hF))
  · intro hnone G hG hmem
    obtain ⟨hfun, hin⟩ := owns_of_mem_contributors hG hmem
    rcases hnone with hnone | ⟨F, hF, hout⟩
    · rw [hfun] at hnone
      cases hnone
    · have he : F = G := Option.some.inj (hF.symm.trans hfun)
      exact hout (he ▸ hin)
  · exact contributors_eq_filter hF hfun (hnamed F hF hfun)
  · apply suspensions_ok
    intro n hn
    rw [scope_eq_filter hF hfun (hnamed F hF hfun)] at hn
    exact hrow n (List.mem_filter.mp hn).1

/-- Waiting at the top level, in the parameters of a function, in its body, and as the whole body of
an arrow function therein. -/
def scatteredAwaits : Node :=
  let wait (row : Int) : Node := .plain .awaitExpression row []
  let asBody (n : Node) : Node := { n with role := some .body }
  .plain (.other "program") 0 [
    wait 0,
    .plain .functionDeclaration 1 [
      .plain (.other "formal_parameters") 1 [wait 1],
      asBody (.plain (.other "statement_block") 1 [
        wait 2,
        .plain .arrowFunction 3 [asBody (wait 3)]])]]

theorem suspension_points_scattered :
    ((preorder [root scatteredAwaits]).filter (·.node.isFunctionLike)).map
      (·.node.suspensions.toOption) = [some [⟨3, .await, "await"⟩], some [⟨4, .await, "await"⟩]] ∧
    ∀ F ∈ preorder [root scatteredAwaits], F.node.isFunctionLike →
      F.contributors =
        (preorder [root scatteredAwaits]).filter (fun n => F.owns n && n.point?.isSome) := by
  have h := suspension_points_partition scatteredAwaits (by decide +kernel) (by decide +kernel)
  exact ⟨by decide +kernel, fun F hF hfun => (h.2.1 F hF hfun).1⟩

end Focus

end ScriptAudit.Syntax
