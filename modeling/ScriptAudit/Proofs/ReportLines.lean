import ScriptAudit.Proofs.InventoryBlocks

/-! Every line of a report is a line. What a report says by itself has no newlines, and what it
takes from an analysis it does not change. So lines can break only where a name or a path does. -/

namespace ScriptAudit

/-- A character other than a newline. -/
def Symbol.isPlain : Symbol → Bool
  | char c => c ≠ '\n'
  | stray _ => false

namespace Text

def IsLine (t : Text) : Prop := ∀ s ∈ t, s.isPlain = true

instance (t : Text) : Decidable (IsLine t) :=
  inferInstanceAs (Decidable (∀ s ∈ t, s.isPlain = true))

variable {s t : Text}

theorem IsLine.newline_not_mem (h : IsLine t) : newline ∉ t := by
  intro hmem
  exact absurd (h newline hmem) (by decide)

theorem isLine_nil : IsLine [] := List.forall_mem_nil _

theorem isLine_append : IsLine (s ++ t) ↔ IsLine s ∧ IsLine t := List.forall_mem_append

def OneLine (word : String) : Prop := '\n' ∉ word.toList

instance (word : String) : Decidable (OneLine word) := inferInstanceAs (Decidable (¬ _))

theorem isLine_ofString {word : String} (h : OneLine word) : IsLine (ofString word) := by
  intro s hs
  obtain ⟨c, hc, rfl⟩ := List.mem_map.mp hs
  have hne : c ≠ '\n' := fun he => h (he ▸ hc)
  simpa [Symbol.isPlain] using hne

theorem oneLine {cs : List Char} (h : '\n' ∉ cs) : OneLine (String.ofList cs) := by
  rwa [OneLine, String.toList_ofList]

theorem oneLine_repr (n : Nat) : OneLine n.repr := by
  intro hc
  rw [Nat.toList_repr] at hc
  have hdigit := Nat.isDigit_of_mem_toDigits (by omega) (by omega) hc
  revert hdigit
  decide

theorem isLine_ofNat (n : Nat) : IsLine (ofNat n) := isLine_ofString (oneLine_repr n)

theorem isLine_ofInt (n : Int) : IsLine (ofInt n) := by
  refine isLine_ofString ?_
  rw [Int.toString_eq_repr]
  cases n with
  | ofNat n => exact oneLine_repr n
  | negSucc n =>
    rw [Int.repr, OneLine, String.toList_append]
    exact List.not_mem_append (by decide) (oneLine_repr _)

theorem forall_mem_intercalate {P : Symbol → Prop} {sep : Text} {ts : List Text}
    (hsep : ∀ s ∈ sep, P s) (h : ∀ t ∈ ts, ∀ s ∈ t, P s) :
    ∀ s ∈ List.intercalate sep ts, P s := by
  induction ts with
  | nil => exact List.forall_mem_nil P
  | cons t ts ih =>
    obtain ⟨ht, hts⟩ := List.forall_mem_cons.mp h
    cases ts with
    | nil => simpa [List.intercalate] using ht
    | cons t' ts =>
      rw [List.intercalate_cons_cons, List.forall_mem_append, List.forall_mem_append]
      exact ⟨⟨ht, hsep⟩, ih hts⟩

end Text

open Text

theorem Ordered.exists_of_mem_groupBy {α κ : Type} [DecidableEq κ] {key : α → κ} {xs : List α}
    {group : κ × List α} (h : group ∈ groupBy key xs) : ∃ x ∈ xs, key x = group.1 := by
  have hkey := List.mem_map_of_mem (f := Prod.fst) h
  rw [map_fst_groupBy, List.mem_eraseDups] at hkey
  exact List.mem_map.mp hkey

theorem isLine_place {file : Text} (h : IsLine file) (line : Int) : IsLine (place file line) := by
  simp (disch := exact oneLine (by decide)) only [place, isLine_append,
    isLine_ofString, isLine_ofInt, h, and_self]

/-- What is shown of a declaration has no newline in it. -/
structure Declaration.IsPlain (d : Declaration) : Prop where
  name : OneLine d.name
  file : IsLine d.file
  owner : ∀ owner ∈ d.owner, OneLine owner

instance (d : Declaration) : Decidable d.IsPlain :=
  decidable_of_iff (OneLine d.name ∧ IsLine d.file ∧ ∀ owner ∈ d.owner, OneLine owner)
    ⟨fun ⟨name, file, owner⟩ => ⟨name, file, owner⟩, fun h => ⟨h.name, h.file, h.owner⟩⟩

/-- What is shown of an analysis has no newline in it. -/
structure Analysis.IsPlain (a : Analysis) : Prop where
  root : IsLine a.root
  graph : ∀ d ∈ a.graph.declarations, d.IsPlain
  findings : ∀ f ∈ a.findings, f.declaration.IsPlain ∧
    ∀ issue ∈ f.issues, ∀ c ∈ issue.sites, IsLine c.file
  usage : ∀ tier, ∀ e ∈ a.usage.ofTier tier, e.declaration.IsPlain ∧ ∀ c ∈ e.calls, IsLine c.file
  warnings : ∀ w ∈ a.warnings, IsLine w.path ∧ OneLine w.message

namespace Report

theorem isLine_number (n : Nat) : IsLine (number n) := isLine_ofNat n

theorem isLine_times (n : Nat) : IsLine (times n) := by
  unfold times
  split
  · exact isLine_ofString (oneLine (by decide))
  · exact isLine_append.mpr ⟨isLine_number n, isLine_ofString (oneLine (by decide))⟩

theorem heading_lines {title : String} {intro : List String} (htitle : OneLine title)
    (hintro : ∀ s ∈ intro, OneLine s) : ∀ line ∈ heading title intro, IsLine line := by
  have hrule : IsLine sectionRule := by decide
  have hwords : ∀ line ∈ intro.map ofString, IsLine line :=
    List.forall_mem_map.mpr fun s hs => isLine_ofString (hintro s hs)
  simp only [heading, List.forall_mem_append, List.forall_mem_cons]
  exact ⟨⟨⟨isLine_nil, isLine_ofString htitle, hrule, List.forall_mem_nil _⟩, hwords⟩, isLine_nil,
    List.forall_mem_nil _⟩

theorem header_lines {a : Analysis} (h : IsLine a.root) : ∀ line ∈ header a, IsLine line := by
  have hrule : IsLine rule := by decide
  simp (disch := exact oneLine (by decide)) only [header, List.forall_mem_cons,
    isLine_append, isLine_ofString, isLine_number, isLine_nil, h, hrule, true_and]
  exact List.forall_mem_nil _

theorem warnings_lines {ws : List Warning}
    (h : ∀ w ∈ ws, IsLine w.path ∧ OneLine w.message) :
    ∀ line ∈ warnings ws, IsLine line := by
  have hkind (kind : Warning.Kind) : IsLine (ofString kind.name) := by
    cases kind with
    | parse => exact isLine_ofString (oneLine (by decide))
    | filesystem => exact isLine_ofString (oneLine (by decide))
  have hplace {path : Text} (hpath : IsLine path) (line : Option Int) :
      IsLine (Warning.locate path line) := by
    cases line with
    | none => exact hpath
    | some line => exact isLine_place hpath line
  unfold warnings
  split
  · exact List.forall_mem_nil _
  · rw [List.forall_mem_append, List.forall_mem_map]
    refine ⟨heading_lines (oneLine (by decide)) ?_, fun w hw => ?_⟩
    · exact List.forall_mem_singleton.mpr (oneLine (by decide))
    · obtain ⟨hpath, hmessage⟩ := h w hw
      simp (disch := exact oneLine (by decide)) only [Warning.text, isLine_append,
        isLine_ofString, hkind, hplace hpath, isLine_ofString hmessage, and_self]

theorem mem_owned {ds : List Declaration} {owner : String} {d : Declaration} :
    (owner, d) ∈ Block.owned ds ↔ d ∈ ds ∧ d.owner = some owner := by
  simp only [Block.owned, List.mem_filterMap, Option.map_eq_some_iff, Prod.mk.injEq]
  constructor
  · rintro ⟨d', hd, owner', howner, rfl, rfl⟩
    exact ⟨hd, howner⟩
  · rintro ⟨hd, howner⟩
    exact ⟨d, hd, owner, howner, rfl, rfl⟩

section

variable {s : Snapshot}

theorem mapM_inventoryLine_lines {indent : String} (hindent : OneLine indent)
    {ds : List Declaration} (hds : ∀ d ∈ ds, d.IsPlain) {lines : List Text}
    (h : ds.mapM (inventoryLine s indent) = .ok lines) : ∀ line ∈ lines, IsLine line := by
  have hmarker (d : Declaration) : IsLine (marker d) := by
    unfold marker
    split
    · exact isLine_ofString (oneLine (by decide))
    · exact isLine_ofString (oneLine (by decide))
  intro line hline
  obtain ⟨d, hd, hline⟩ := mem_of_mapM_eq_ok h line hline
  obtain ⟨calls, -, hline⟩ := bind_eq_ok.mp hline
  cases hline
  simp (disch := exact oneLine (by decide)) only [isLine_append, isLine_ofString,
    isLine_ofString hindent, isLine_ofString (hds d hd).name, hmarker, isLine_ofInt, isLine_times,
    and_self]

theorem classBlock_lines {owner : String} (howner : OneLine owner)
    {members : List Declaration} (hmembers : ∀ d ∈ members, d.IsPlain) {lines : List Text}
    (h : classBlock s owner members = .ok lines) : ∀ line ∈ lines, IsLine line := by
  obtain ⟨body, hbody, h⟩ := bind_eq_ok.mp h
  cases h
  refine List.forall_mem_cons.mpr
    ⟨?_, mapM_inventoryLine_lines (oneLine (by decide)) hmembers hbody⟩
  simp (disch := exact oneLine (by decide)) only [isLine_append, isLine_ofString,
    isLine_ofString howner, isLine_number, and_self]

theorem fileBlock_lines {file : Text} (hfile : IsLine file) {ds : List Declaration}
    (hds : ∀ d ∈ ds, d.IsPlain) {lines : List Text} (h : fileBlock s file ds = .ok lines) :
    ∀ line ∈ lines, IsLine line := by
  obtain ⟨free, hfree, h⟩ := bind_eq_ok.mp h
  obtain ⟨classes, hclasses, h⟩ := bind_eq_ok.mp h
  cases h
  have hfirst : IsLine (file ++ " (" ++ number ds.length ++ " trackable functions)") := by
    simp (disch := exact oneLine (by decide)) only [isLine_append, isLine_ofString,
      isLine_number, hfile, and_self]
  have hfree := mapM_inventoryLine_lines (oneLine (by decide))
    (fun d hd => hds d (List.mem_of_mem_filter hd)) hfree
  have hclasses : ∀ line ∈ classes.flatten, IsLine line := by
    refine List.forall_mem_flatten.mpr fun block hblock => ?_
    obtain ⟨⟨owner, members⟩, hgroup, hblock⟩ := mem_of_mapM_eq_ok hclasses block hblock
    change (owner, members) ∈ Ordered.groupBy Prod.fst (Block.owned ds) at hgroup
    -- a class has a method, so its name is the owner of a declaration
    have howner : OneLine owner := by
      obtain ⟨⟨owner', d⟩, hd, rfl⟩ := Ordered.exists_of_mem_groupBy hgroup
      obtain ⟨hd, howner⟩ := mem_owned.mp hd
      exact (hds d hd).owner owner' howner
    refine classBlock_lines howner (List.forall_mem_map.mpr fun member hmember => ?_) hblock
    exact hds member.2 (mem_owned.mp (Ordered.mem_of_mem_groupBy hgroup hmember)).1
  simp only [List.cons_append, List.forall_mem_cons, List.forall_mem_append]
  exact ⟨hfirst, ⟨hfree, hclasses⟩, isLine_nil, List.forall_mem_nil _⟩

theorem inventory_lines (hds : ∀ d ∈ s.declarations, d.IsPlain) {lines : List Text}
    (h : inventory s = .ok lines) : ∀ line ∈ lines, IsLine line := by
  obtain ⟨blocks, hblocks, h⟩ := bind_eq_ok.mp h
  cases h
  rw [List.forall_mem_append, List.forall_mem_flatten]
  refine ⟨heading_lines (oneLine (by decide)) ?_, fun block hblock => ?_⟩
  · simp only [List.forall_mem_cons]
    exact ⟨oneLine (by decide), oneLine (by decide), List.forall_mem_nil _⟩
  · obtain ⟨⟨file, ds⟩, hgroup, hblock⟩ := mem_of_mapM_eq_ok hblocks block hblock
    -- no block is empty: its file is that of a declaration
    have hmembers : ∀ d ∈ ds, d.IsPlain := fun d hd => hds d (Ordered.mem_of_mem_groupBy hgroup hd)
    obtain ⟨d, hd, rfl⟩ := Ordered.exists_of_mem_groupBy hgroup
    exact fileBlock_lines (hds d hd).file hmembers hblock

end

theorem issueLines_lines {issue : Issue} (h : ∀ c ∈ issue.sites, IsLine c.file) :
    ∀ line ∈ issueLines issue, IsLine line := by
  have htexts : OneLine (issueText issue.kind).1 ∧ OneLine (issueText issue.kind).2 := by
    cases issue.kind with
    | unnecessaryAsync => exact ⟨oneLine (by decide), oneLine (by decide)⟩
    | missingAwait => exact ⟨oneLine (by decide), oneLine (by decide)⟩
    | missingAsync => exact ⟨oneLine (by decide), oneLine (by decide)⟩
    | unnecessaryAwait => exact ⟨oneLine (by decide), oneLine (by decide)⟩
  have hsites : IsLine (List.intercalate (ofString ", ") (issue.sites.map Call.site)) :=
    forall_mem_intercalate (isLine_ofString (oneLine (by decide)))
      (List.forall_mem_map.mpr fun c hc => isLine_place (h c hc) c.line)
  unfold issueLines
  dsimp only
  split
  · simp (disch := exact oneLine (by decide)) only [List.forall_mem_append,
      List.forall_mem_singleton, isLine_append, isLine_ofString, isLine_ofString htexts.1,
      isLine_ofString htexts.2, and_true, true_and]
    exact List.forall_mem_nil _
  · simp (disch := exact oneLine (by decide)) only [List.forall_mem_append,
      List.forall_mem_singleton, isLine_append, isLine_ofString, isLine_ofString htexts.1,
      isLine_ofString htexts.2, hsites, and_self]

theorem findingLines_lines {f : Finding} (hd : f.declaration.IsPlain)
    (h : ∀ issue ∈ f.issues, ∀ c ∈ issue.sites, IsLine c.file) :
    ∀ line ∈ findingLines f, IsLine line := by
  have hsite : IsLine f.declaration.site := isLine_place hd.file _
  have hissues : ∀ line ∈ f.issues.flatMap issueLines, IsLine line :=
    List.forall_mem_flatMap.mpr fun issue hissue => issueLines_lines (h issue hissue)
  simp (disch := exact oneLine (by decide)) only [findingLines, List.cons_append,
    List.forall_mem_cons, List.forall_mem_append, isLine_append,
    isLine_ofString, isLine_ofString hd.name, hsite, isLine_nil, true_and]
  exact ⟨hissues, List.forall_mem_nil _⟩

theorem asyncValidation_lines {findings : List Finding} (total : Nat)
    (h : ∀ f ∈ findings, f.declaration.IsPlain ∧
      ∀ issue ∈ f.issues, ∀ c ∈ issue.sites, IsLine c.file) :
    ∀ line ∈ asyncValidation findings total, IsLine line := by
  have hfindings : ∀ line ∈ findings.flatMap findingLines, IsLine line :=
    List.forall_mem_flatMap.mpr fun f hf => findingLines_lines (h f hf).1 (h f hf).2
  simp only [asyncValidation, List.forall_mem_append, List.forall_mem_singleton]
  refine ⟨⟨heading_lines (oneLine (by decide)) ?_, hfindings⟩, ?_⟩
  · exact List.forall_mem_singleton.mpr (oneLine (by decide))
  · split
    · exact isLine_ofString (oneLine (by decide))
    · exact isLine_append.mpr ⟨isLine_ofString (oneLine (by decide)), isLine_number _⟩

theorem listing_lines {title : String} {lines : List Text} (htitle : OneLine title)
    (hlines : ∀ line ∈ lines, IsLine line) : ∀ line ∈ listing title lines, IsLine line := by
  unfold listing
  split
  · exact List.forall_mem_nil _
  · simp only [List.cons_append, List.forall_mem_cons, List.forall_mem_append]
    exact ⟨isLine_ofString htitle, hlines, isLine_nil, List.forall_mem_nil _⟩

theorem isLine_item {d : Declaration} (hd : d.IsPlain) {detail : Text} (hdetail : IsLine detail) :
    IsLine (item d detail) := by
  simp (disch := exact oneLine (by decide)) only [item, isLine_append,
    isLine_ofString, isLine_ofString hd.name, hdetail, and_self]

theorem usage_lines {u : Usage} {lines : List Text}
    (h : ∀ tier, ∀ e ∈ u.ofTier tier, e.declaration.IsPlain ∧ ∀ c ∈ e.calls, IsLine c.file)
    (hlines : usage u = .ok lines) : ∀ line ∈ lines, IsLine line := by
  obtain ⟨once, honce, hlines⟩ := bind_eq_ok.mp hlines
  cases hlines
  have hsite (tier : Tier) {e : Usage.Entry} (he : e ∈ u.ofTier tier) :
      IsLine e.declaration.site :=
    isLine_place (h tier e he).1.file _
  have hunused : ∀ line ∈ u.unused.map (fun e =>
      item e.declaration (" (" ++ e.declaration.site ++ ")")), IsLine line := by
    refine List.forall_mem_map.mpr fun e he => isLine_item (h .unused e he).1 ?_
    simp (disch := exact oneLine (by decide)) only [isLine_append, isLine_ofString,
      hsite .unused he, and_self]
  have hwell : ∀ line ∈ u.wellUsed.map (fun e =>
      item e.declaration (" (" ++ number e.calls.length ++ " calls) - " ++ e.declaration.site)),
      IsLine line := by
    refine List.forall_mem_map.mpr fun e he => isLine_item (h .wellUsed e he).1 ?_
    simp (disch := exact oneLine (by decide)) only [isLine_append, isLine_ofString,
      isLine_number, hsite .wellUsed he, and_self]
  have hsingle : ∀ line ∈ once, IsLine line := by
    intro line hline
    obtain ⟨e, he, hline⟩ := mem_of_mapM_eq_ok honce line hline
    obtain ⟨hd, hcalls⟩ := h .singleUse e he
    unfold singleUseLine at hline
    split at hline
    · cases hline
    · rename_i caller callers heq
      cases hline
      have hcaller : IsLine caller.site := isLine_place (hcalls caller (by simp [heq])) _
      refine isLine_item hd ?_
      simp (disch := exact oneLine (by decide)) only [isLine_append, isLine_ofString,
        hsite .singleUse he, hcaller, and_self]
  simp only [List.forall_mem_append]
  refine ⟨⟨⟨heading_lines (oneLine (by decide)) ?_, ?_⟩, ?_⟩, ?_⟩
  · simp only [List.forall_mem_cons]
    exact ⟨oneLine (by decide), oneLine (by decide), List.forall_mem_nil _⟩
  · exact listing_lines (oneLine (by decide)) hunused
  · exact listing_lines (oneLine (by decide)) hsingle
  · exact listing_lines (oneLine (by decide)) hwell

theorem summary_lines (s : Summary) : ∀ line ∈ summary s, IsLine line := by
  have hshare (n : Nat) (percentage : Int) : IsLine (share n percentage) := by
    simp (disch := exact oneLine (by decide)) only [share, isLine_append,
      isLine_ofString, isLine_number, isLine_ofInt, and_self]
  refine List.forall_mem_append.mpr
    ⟨heading_lines (oneLine (by decide)) (List.forall_mem_nil _), ?_⟩
  simp (disch := exact oneLine (by decide)) only [List.forall_mem_cons,
    isLine_append, isLine_ofString, isLine_number, isLine_ofInt, hshare, isLine_nil, and_self,
    true_and]
  exact List.forall_mem_nil _

theorem recommendation_lines (r : Recommendation) : ∀ line ∈ recommendation r, IsLine line := by
  unfold recommendation
  split
  all_goals
    simp (disch := exact oneLine (by decide)) only [List.forall_mem_cons,
      isLine_append, isLine_ofString, isLine_number, isLine_nil, and_self, true_and]
    exact List.forall_mem_nil _

/-- No line of a report breaks, whatever sections and branches it comes from. -/
theorem render_lines {a : Analysis} (h : a.IsPlain) {lines : List Text}
    (hlines : render a = .ok lines) : ∀ line ∈ lines, IsLine line := by
  obtain ⟨inventoryLines, hinventory, hlines⟩ := bind_eq_ok.mp hlines
  obtain ⟨usageLines, husage, hlines⟩ := bind_eq_ok.mp hlines
  cases hlines
  have hadvice : ∀ line ∈ heading "OPTIMIZATION RECOMMENDATIONS" [], IsLine line :=
    heading_lines (oneLine (by decide)) (List.forall_mem_nil _)
  simp only [List.forall_mem_append, List.forall_mem_flatMap]
  exact ⟨⟨⟨⟨⟨⟨⟨header_lines h.root, warnings_lines h.warnings⟩, inventory_lines h.graph hinventory⟩,
    asyncValidation_lines _ h.findings⟩, usage_lines h.usage husage⟩, summary_lines _⟩, hadvice⟩,
    fun r _ => recommendation_lines r⟩

end Report

end ScriptAudit
