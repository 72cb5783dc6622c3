import Mathlib.Algebra.BigOperators.Group.List.Basic
import Mathlib.Algebra.GroupWithZero.Nat
import Mathlib.Data.List.Induction
import Mathlib.Data.List.Perm.Basic
import ScriptAudit.Proofs.Rendering

/-! The inventory as blocks, one for each file. A block shows the functions of its file that belong
to no class, and then class by class those that do. However files and classes are mixed in the order
of discovery, each declaration has one line, and it stands in the block of its file. -/

namespace ScriptAudit

namespace Ordered

variable {α κ : Type} [DecidableEq κ]

theorem groupBy_concat (key : α → κ) (xs : List α) (x : α) :
    groupBy key (xs ++ [x]) = addTo (key x) [x] (groupBy key xs) :=
  List.foldl_append

theorem map_fst_groupBy [BEq κ] [LawfulBEq κ] (key : α → κ) (xs : List α) :
    (groupBy key xs).map Prod.fst = (xs.map key).eraseDups := by
  induction xs using List.reverseRecOn with
  | nil => rfl
  | append_singleton xs x ih =>
    rw [groupBy_concat, map_fst_addTo, ih, List.map_append, List.map_singleton,
      List.eraseDups_append]
    generalize xs.map key = ks
    by_cases hx : key x ∈ ks
    · rw [if_pos (List.mem_eraseDups.mpr hx)]
      simp [List.removeAll, hx]
    · rw [if_neg fun he => hx (List.mem_eraseDups.mp he)]
      simp [List.removeAll, hx, List.eraseDups_cons]

theorem nodup_keys_groupBy (key : α → κ) (xs : List α) :
    ((groupBy key xs).map Prod.fst).Nodup := by
  induction xs using List.reverseRecOn with
  | nil => exact List.nodup_nil
  | append_singleton xs x ih =>
    rw [groupBy_concat, map_fst_addTo]
    exact nodup_sighted ih (key x)

theorem find?_groupBy (key : α → κ) (xs : List α) (k : κ) :
    (find? k (groupBy key xs)).getD [] = xs.filter fun x => key x = k := by
  induction xs using List.reverseRecOn with
  | nil => rfl
  | append_singleton xs x ih =>
    rw [groupBy_concat, find?_addTo, ih, List.filter_append, List.filter_singleton]
    by_cases hx : key x = k
    · simp [hx]
    · simp [hx, ih]

/-- There is a group for each key, in the order of first sighting, and it holds what has the key. -/
theorem groupBy_eq [BEq κ] [LawfulBEq κ] (key : α → κ) (xs : List α) :
    groupBy key xs = (xs.map key).eraseDups.map fun k => (k, xs.filter fun x => key x = k) := by
  have hgroups := eq_map_find? (nodup_keys_groupBy key xs)
  rw [map_fst_groupBy] at hgroups
  refine hgroups.trans (List.map_congr_left fun k _ => ?_)
  rw [find?_groupBy]

end Ordered

namespace Report

/-- What the inventory shows of one file. -/
structure Block where
  file : Text
  free : List Declaration
  classes : List (String × List Declaration)

namespace Block

/-- Files and classes come in the order in which they are first seen, and declarations in the order
of discovery. -/
def ofFile (ds : List Declaration) (file : Text) : Block :=
  let own := ds.filter fun d => d.file = file
  { file := file
    free := own.filter fun d => d.owner = none
    classes := (own.filterMap (·.owner)).eraseDups.map fun owner =>
      (owner, own.filter fun d => d.owner = some owner) }

/-- The declarations that have a line in the block, from top to bottom. -/
def declarations (b : Block) : List Declaration := b.free ++ b.classes.flatMap Prod.snd

def line (s : Snapshot) (indent : String) (d : Declaration) : Text :=
  indent ++ marker d ++ " " ++ Text.ofString d.name ++ " (line " ++ Text.ofInt d.line ++
    ") - called " ++ times (s.callers d).length

def classLines (s : Snapshot) (owner : String) (members : List Declaration) : List Text :=
  ("  Class: " ++ Text.ofString owner ++ " (" ++ number members.length ++ " methods)") ::
    members.map (line s "    ")

/-- The number in the header is that of the lines for declarations. -/
def lines (s : Snapshot) (b : Block) : List Text :=
  (b.file ++ " (" ++ number b.declarations.length ++ " trackable functions)") ::
    b.free.map (line s "  ") ++
    (b.classes.flatMap fun c => classLines s c.1 c.2) ++ [[]]

/-- Declarations with the classes that they belong to, as far as they belong to one. -/
def owned (ds : List Declaration) : List (String × Declaration) :=
  ds.filterMap fun d => d.owner.map fun owner => (owner, d)

theorem map_fst_owned (ds : List Declaration) :
    (owned ds).map Prod.fst = ds.filterMap (·.owner) := by
  rw [owned, List.map_filterMap]
  congr 1
  funext d
  cases d.owner with
  | none => rfl
  | some owner => rfl

theorem map_snd_owned (ds : List Declaration) :
    (owned ds).map Prod.snd = ds.filter fun d => ¬ d.owner = none := by
  induction ds with
  | nil => rfl
  | cons d ds ih =>
    cases howner : d.owner with
    | none => simpa [owned, howner] using ih
    | some owner => simpa [owned, howner] using ih

theorem filter_owned (ds : List Declaration) (owner : String) :
    ((owned ds).filter fun g => g.1 = owner).map Prod.snd =
      ds.filter fun d => d.owner = some owner := by
  induction ds with
  | nil => rfl
  | cons d ds ih =>
    cases howner : d.owner with
    | none => simpa [owned, howner] using ih
    | some owner' =>
      by_cases he : owner' = owner
      · simpa [owned, howner, he] using ih
      · simpa [owned, howner, he] using ih

theorem classes_ofFile (ds : List Declaration) (file : Text) :
    (ofFile ds file).classes =
      (Ordered.groupBy Prod.fst (owned (ds.filter fun d => d.file = file))).map fun g =>
        (g.1, g.2.map Prod.snd) := by
  rw [Ordered.groupBy_eq, List.map_map, map_fst_owned]
  refine List.map_congr_left fun owner _ => ?_
  simp only [Function.comp_apply, filter_owned]

/-- A block loses nothing of its file and adds nothing to it. -/
theorem declarations_ofFile (ds : List Declaration) (file : Text) :
    (ofFile ds file).declarations.Perm (ds.filter fun d => d.file = file) := by
  let own := ds.filter fun d => d.file = file
  have howned : ((ofFile ds file).classes.flatMap Prod.snd).Perm
      (own.filter fun d => ¬ d.owner = none) := by
    rw [classes_ofFile, List.flatMap_map, ← map_snd_owned, ← List.map_flatMap]
    exact (Ordered.flatMap_groupBy Prod.fst (owned own)).map Prod.snd
  have hsplit := List.filter_append_perm (fun d => decide (d.owner = none)) own
  simp only [← decide_not] at hsplit
  exact (howned.append_left _).trans hsplit

end Block

section

variable {s : Snapshot} (h : s.Counted)

include h

theorem mapM_inventoryLine_eq {ds : List Declaration} (hds : ds ⊆ s.declarations)
    (indent : String) :
    ds.mapM (inventoryLine s indent) = .ok (ds.map (Block.line s indent)) := by
  apply mapM_eq_ok_map
  intro d hd
  rw [inventoryLine, Snapshot.callsOf_ok h (hds hd)]
  rfl

theorem classBlock_eq {members : List Declaration} (hmembers : members ⊆ s.declarations)
    (owner : String) : classBlock s owner members = .ok (Block.classLines s owner members) := by
  rw [classBlock, mapM_inventoryLine_eq h hmembers]
  rfl

theorem fileBlock_eq (file : Text) :
    fileBlock s file (s.declarations.filter fun d => d.file = file) =
      .ok (Block.lines s (.ofFile s.declarations file)) := by
  let own := s.declarations.filter fun d => d.file = file
  let groups := Ordered.groupBy Prod.fst (Block.owned own)
  have hown : own ⊆ s.declarations := List.filter_subset_self _
  have hfree : (own.filter (·.owner.isNone)).mapM (inventoryLine s "  ") =
      .ok ((Block.ofFile s.declarations file).free.map (Block.line s "  ")) := by
    have hnone : (fun d : Declaration => d.owner.isNone) = fun d => decide (d.owner = none) := by
      funext d
      cases d.owner with
      | none => rfl
      | some owner => rfl
    rw [mapM_inventoryLine_eq h (List.Subset.trans (List.filter_subset_self _) hown), hnone]
    rfl
  have hclasses : groups.mapM (fun g => classBlock s g.1 (g.2.map Prod.snd)) =
      .ok (groups.map fun g => Block.classLines s g.1 (g.2.map Prod.snd)) := by
    apply mapM_eq_ok_map
    intro g hg
    refine classBlock_eq h (fun d hd => ?_) g.1
    obtain ⟨owned, hmember, rfl⟩ := List.mem_map.mp hd
    have hd := List.mem_map_of_mem (f := Prod.snd) (Ordered.mem_of_mem_groupBy hg hmember)
    rw [Block.map_snd_owned] at hd
    exact hown (List.mem_of_mem_filter hd)
  have hcount := (Block.declarations_ofFile s.declarations file).length_eq
  unfold fileBlock
  rw [hfree]
  change (groups.mapM (fun g => classBlock s g.1 (g.2.map Prod.snd)) >>= fun classes => _) = _
  rw [hclasses, Block.lines, hcount, Block.classes_ofFile, List.flatMap_map]
  rfl

theorem inventory_eq : inventory s = .ok (heading "FUNCTION INVENTORY" [
      "Trackable functions, organized by file and class.",
      "[async] = async function | [sync] = synchronous function"] ++
    ((s.declarations.map (·.file)).eraseDups.map (Block.ofFile s.declarations)).flatMap
      (Block.lines s)) := by
  have hblocks : (Ordered.groupBy (·.file) s.declarations).mapM (fun g => fileBlock s g.1 g.2) =
      .ok ((Ordered.groupBy (·.file) s.declarations).map fun g =>
        Block.lines s (.ofFile s.declarations g.1)) := by
    apply mapM_eq_ok_map
    intro g hg
    rw [Ordered.groupBy_eq] at hg
    obtain ⟨file, -, rfl⟩ := List.mem_map.mp hg
    exact fileBlock_eq h file
  unfold inventory
  change ((Ordered.groupBy (·.file) s.declarations).mapM (fun g => fileBlock s g.1 g.2) >>=
    fun blocks => _) = _
  rw [hblocks, ← Ordered.map_fst_groupBy, List.map_map, List.flatMap_map]
  rfl

end

/-- The inventory of every analysis that was put together from a graph and a usage that passed their
checks. Behind its heading stands one block for each file that has a declaration. A block has a line
for each declaration of its file, and all blocks together have one for each declaration of the
graph. -/
theorem inventory_lists_each_once {a : Analysis} {declarations : List Declaration}
    {calls : List (String × List Call)} {skipped : Int}
    {unused singleUse wellUsed : List Usage.Entry}
    (hgraph : Snapshot.make declarations calls skipped = .ok a.graph)
    (husage : Usage.make unused singleUse wellUsed = .ok a.usage) :
    let ds := a.graph.declarations
    let blocks := (ds.map (·.file)).eraseDups.map (Block.ofFile ds)
    (∃ rest, render a = .ok (header a ++ warnings a.warnings ++
      (heading "FUNCTION INVENTORY" [
        "Trackable functions, organized by file and class.",
        "[async] = async function | [sync] = synchronous function"] ++
      blocks.flatMap (Block.lines a.graph)) ++
      asyncValidation a.findings a.summary.asyncIssues ++ rest)) ∧
    (∀ d ∈ ds, a.graph.callsOf d = .ok (a.graph.callers d)) ∧
    (∀ b ∈ blocks, b.declarations.Perm (ds.filter fun d => d.file = b.file)) ∧
    (blocks.flatMap Block.declarations).Perm ds ∧
    (blocks.map fun b => b.declarations.length).sum = a.graph.trackable := by
  intro ds blocks
  obtain ⟨-, -, hcounted⟩ := Snapshot.make_eq_ok.mp hgraph
  obtain ⟨-, htiers⟩ := Usage.make_eq_ok.mp husage
  have hblock : ∀ b ∈ blocks, b.declarations.Perm (ds.filter fun d => d.file = b.file) := by
    intro b hb
    obtain ⟨file, -, rfl⟩ := List.mem_map.mp hb
    exact Block.declarations_ofFile ds file
  have hall : (blocks.flatMap Block.declarations).Perm ds := by
    refine List.Perm.trans ?_ (Ordered.flatMap_groupBy (·.file) ds)
    rw [Ordered.groupBy_eq, List.flatMap_map, List.flatMap_map]
    exact List.Perm.flatMap_left _ fun file _ => Block.declarations_ofFile ds file
  refine ⟨?_, fun d hd => Snapshot.callsOf_ok hcounted hd, hblock, hall, ?_⟩
  · obtain ⟨usageLines, husageLines⟩ := usage_ok (htiers .singleUse)
    refine ⟨usageLines ++ summary a.summary ++ heading "OPTIMIZATION RECOMMENDATIONS" [] ++
      a.recommendations.flatMap recommendation, ?_⟩
    unfold render
    rw [inventory_eq hcounted, husageLines]
    simp only [bind, Except.bind, pure, Except.pure, List.append_assoc]
    rfl
  · rw [← List.length_flatMap]
    exact hall.length_eq

/-- An analysis made by hand. Two files have a class of the same name, and their functions were
discovered in turns. -/
def medley : Analysis where
  root := "."
  files := ["a.js", "b.js"]
  graph :=
    { declarations := [⟨"put", "a.js", 3, false, some "Store", []⟩,
        ⟨"get", "b.js", 2, false, some "Store", []⟩, ⟨"open", "a.js", 1, true, none, []⟩,
        ⟨"add", "a.js", 7, false, some "Cart", []⟩, ⟨"main", "b.js", 8, false, none, []⟩,
        ⟨"take", "a.js", 4, true, some "Store", []⟩]
      calls := [("open", [⟨"open", "b.js", 9, true⟩]), ("put", []), ("get", []), ("add", []),
        ("main", []), ("take", [⟨"take", "a.js", 2, false⟩, ⟨"take", "b.js", 9, false⟩])]
      skipped := 0 }
  findings := []
  usage := ⟨[], [], []⟩
  summary := ⟨0, 0, 0, 0, 0, 0⟩
  recommendations := [⟨.healthy, 0⟩]
  warnings := []

def medleyBlocks : List Text := [
  "a.js (4 trackable functions)",
  "  [async] open (line 1) - called 1 time",
  "  Class: Store (2 methods)",
  "    [sync] put (line 3) - called 0 times",
  "    [async] take (line 4) - called 2 times",
  "  Class: Cart (1 methods)",
  "    [sync] add (line 7) - called 0 times",
  [],
  "b.js (2 trackable functions)",
  "  [sync] main (line 8) - called 0 times",
  "  Class: Store (1 methods)",
  "    [sync] get (line 2) - called 0 times",
  []]

theorem inventory_of_medley_lists_each_once :
    Snapshot.make medley.graph.declarations medley.graph.calls 0 = .ok medley.graph ∧
    Usage.make [] [] [] = .ok medley.usage ∧ medley.check = .ok medley ∧
    ∃ lines, render medley = .ok lines ∧ medleyBlocks <:+: lines := by
  have hgraph : Snapshot.make medley.graph.declarations medley.graph.calls 0 =
      .ok medley.graph := by decide +kernel
  have husage : Usage.make [] [] [] = .ok medley.usage := by decide +kernel
  obtain ⟨⟨rest, hrender⟩, -⟩ := inventory_lists_each_once hgraph husage
  have hblocks : ((medley.graph.declarations.map (·.file)).eraseDups.map
      (Block.ofFile medley.graph.declarations)).flatMap (Block.lines medley.graph) =
        medleyBlocks := by decide +kernel
  rw [hblocks] at hrender
  refine ⟨hgraph, husage, by decide +kernel, _, hrender, ?_⟩
  simp only [List.append_assoc]
  exact ((List.prefix_append _ _).isInfix.trans (List.suffix_append _ _).isInfix).trans
    ((List.suffix_append _ _).isInfix.trans (List.suffix_append _ _).isInfix)

end Report

end ScriptAudit
