import ScriptAudit.Proofs.Growth
import ScriptAudit.Proofs.Rendering

/-! The account of what is wrong with async and await. There is a finding for each declaration that
disagrees with itself or with a call, and the total counts the disagreements. The report goes by the
total when it says that all is well; it may, because no finding weighs nothing. -/

namespace ScriptAudit

namespace Declaration

variable (d : Declaration) (calls : List Call)

/-- Whether a declaration disagrees with itself or with one of its calls. -/
def isAtOdds : Bool := d.isAsync ≠ d.suspends || calls.any fun c => c.awaited ≠ d.isAsync

theorem isAtOdds_eq_false :
    d.isAtOdds calls = false ↔
      d.isAsync = d.suspends ∧ (calls.filter fun c => c.awaited ≠ d.isAsync) = [] := by
  simp [isAtOdds]

theorem flags_eq_nil : d.flags calls = [] ↔ d.isAtOdds calls = false := by
  rw [isAtOdds_eq_false, flags, List.append_eq_nil_iff]
  simp

theorem nodup_kinds_flags : ((d.flags calls).map (·.kind)).Nodup := by
  unfold flags
  generalize (calls.filter fun c => c.awaited ≠ d.isAsync) = misfits
  by_cases hmisfits : misfits = []
  · cases d.isAsync <;> cases d.suspends <;> simp [hmisfits]
  · cases d.isAsync <;> cases d.suspends <;> simp [hmisfits]

theorem sites_flags :
    (d.flags calls).flatMap (·.sites) = calls.filter fun c => c.awaited ≠ d.isAsync := by
  unfold flags
  generalize (calls.filter fun c => c.awaited ≠ d.isAsync) = misfits
  by_cases hmisfits : misfits = []
  · by_cases hown : d.isAsync = d.suspends <;> simp [hmisfits, hown]
  · by_cases hown : d.isAsync = d.suspends <;> simp [hmisfits, hown]

theorem charge_eq_zero : d.charge calls = 0 ↔ d.isAtOdds calls = false := by
  rw [isAtOdds_eq_false, charge, Nat.add_eq_zero_iff, List.countP_eq_length_filter,
    List.length_eq_zero_iff]
  simp

end Declaration

namespace Snapshot

variable (s : Snapshot)

theorem finding?_eq (d : Declaration) :
    s.finding? d =
      if d.isAtOdds (s.callers d) then some ⟨d, d.flags (s.callers d)⟩ else none := by
  have hflags := d.flags_eq_nil (s.callers d)
  unfold finding?
  cases hodds : d.isAtOdds (s.callers d) with
  | true =>
    rw [hodds] at hflags
    rw [if_neg (by simpa using hflags), if_pos rfl]
  | false => rw [if_pos (hflags.mpr hodds), if_neg Bool.false_ne_true]

theorem map_declaration_findings :
    (s.declarations.filterMap s.finding?).map (·.declaration) =
      s.declarations.filter fun d => d.isAtOdds (s.callers d) := by
  induction s.declarations with
  | nil => rfl
  | cons d ds ih =>
    rw [List.filterMap_cons, List.filter_cons, finding?_eq]
    cases d.isAtOdds (s.callers d) with
    | true => simpa using ih
    | false => simpa using ih

theorem issues_of_mem_findings {finding : Finding}
    (h : finding ∈ s.declarations.filterMap s.finding?) :
    finding.issues = finding.declaration.flags (s.callers finding.declaration) := by
  obtain ⟨d, -, hd⟩ := List.mem_filterMap.mp h
  rw [finding?_eq] at hd
  obtain ⟨-, hd⟩ := Option.ite_none_right_eq_some.mp hd
  cases hd
  rfl

/-- Nothing is counted exactly if nothing is found, since every finding weighs something. -/
theorem totalWeight_eq_zero :
    Finding.totalWeight (s.declarations.filterMap s.finding?) = 0 ↔
      s.declarations.filterMap s.finding? = [] := by
  have hfound : s.declarations.filterMap s.finding? = [] ↔
      ∀ d ∈ s.declarations, d.isAtOdds (s.callers d) = false := by
    rw [← List.map_eq_nil_iff (f := (·.declaration)), map_declaration_findings,
      List.filter_eq_nil_iff]
    simp only [Bool.not_eq_true]
  rw [totalWeight_findings, hfound, List.sum_eq_zero_iff]
  simp only [List.forall_mem_map, Declaration.charge_eq_zero]

end Snapshot

namespace Report

/-- Says that there is nothing to say about async and await. -/
def allClear : Text := "No async/await issues found in trackable functions."

def differs : List Char → List Char → Bool
  | a :: s, b :: t => a ≠ b || differs s t
  | _, _ => false

/-- Whatever follows these words, the line is not the one that says that all is clear. -/
def OpensOtherwise (s : String) : Prop := differs s.toList ['N', 'o', ' '] = true

theorem opensOtherwise {cs : List Char} (h : differs cs ['N', 'o', ' '] = true) :
    OpensOtherwise (String.ofList cs) := by
  rwa [OpensOtherwise, String.toList_ofList]

theorem map_append_ne_of_differs {s t : List Char} (h : differs s t = true) (more rest : Text) :
    s.map Symbol.char ++ more ≠ t.map Symbol.char ++ rest := by
  fun_induction differs s t with
  | case1 a s b t ih =>
    intro he
    obtain ⟨hab, hrest⟩ := List.cons.inj he
    cases hab
    exact ih (by simpa using h) hrest
  | case2 => cases h

theorem ofString_ofList (cs : List Char) : Text.ofString (String.ofList cs) = cs.map .char := by
  rw [Text.ofString, String.toList_ofList]

theorem allClear_eq : ∃ rest, allClear = ['N', 'o', ' '].map .char ++ rest := by
  rw [allClear, ofString_ofList]
  exact ⟨_, rfl⟩

theorem allClear_ne_append {s : String} (h : OpensOtherwise s) (more : Text) :
    allClear ≠ Text.ofString s ++ more := by
  obtain ⟨rest, hrest⟩ := allClear_eq
  rw [hrest]
  exact (map_append_ne_of_differs h more rest).symm

theorem allClear_ne_ofString {s : String} (h : OpensOtherwise s) : allClear ≠ Text.ofString s := by
  have hne := allClear_ne_append h []
  rwa [List.append_nil] at hne

theorem allClear_ne_nil : allClear ≠ [] := by
  obtain ⟨rest, hrest⟩ := allClear_eq
  rw [hrest]
  exact List.cons_ne_nil _ _

theorem allClear_ne_cons {x : Symbol} (h : x ≠ .char 'N') (more : Text) : allClear ≠ x :: more := by
  obtain ⟨rest, hrest⟩ := allClear_eq
  rw [hrest]
  intro he
  exact h (List.cons.inj he).1.symm

theorem allClear_not_mem_heading {title : String} {intro : List String}
    (htitle : OpensOtherwise title) (hintro : ∀ s ∈ intro, OpensOtherwise s) :
    allClear ∉ heading title intro := by
  have hrule : allClear ≠ sectionRule := allClear_ne_cons (by decide) _
  have hwords : allClear ∉ intro.map Text.ofString := by
    intro hmem
    obtain ⟨s, hs, he⟩ := List.mem_map.mp hmem
    exact allClear_ne_ofString (hintro s hs) he.symm
  simp [heading, allClear_ne_nil, allClear_ne_ofString htitle, hrule, hwords]

theorem allClear_not_mem_header (a : Analysis) : allClear ∉ header a := by
  have hrule : allClear ≠ rule := allClear_ne_cons (by decide) _
  simp (disch := exact opensOtherwise rfl) only [header, List.mem_cons, List.append_assoc,
    allClear_ne_append, allClear_ne_ofString, allClear_ne_nil, hrule, List.not_mem_nil, or_self,
    not_false_eq_true]

theorem allClear_not_mem_warnings (ws : List Warning) : allClear ∉ warnings ws := by
  unfold warnings
  split
  · exact List.not_mem_nil
  · refine List.not_mem_append (allClear_not_mem_heading (opensOtherwise rfl) ?_) ?_
    · simpa using opensOtherwise rfl
    · simp (disch := exact opensOtherwise rfl) only [List.mem_map, List.append_assoc,
        eq_comm (b := allClear), allClear_ne_append, and_false, exists_false, not_false_eq_true]

theorem allClear_not_mem_flatten {α : Type} {xs : List α} {blocks : List (List Text)}
    {g : α → Except Error (List Text)} (hblocks : xs.mapM g = .ok blocks)
    (hblock : ∀ x lines, g x = .ok lines → allClear ∉ lines) : allClear ∉ blocks.flatten := by
  intro hmem
  obtain ⟨block, hb, hmem⟩ := List.mem_flatten.mp hmem
  obtain ⟨x, -, hx⟩ := mem_of_mapM_eq_ok hblocks block hb
  exact hblock x block hx hmem

section

variable {s : Snapshot}

theorem allClear_not_mem_inventoryLines {indent : String} (hindent : OpensOtherwise indent)
    {ds : List Declaration} {lines : List Text}
    (h : ds.mapM (inventoryLine s indent) = .ok lines) : allClear ∉ lines := by
  intro hmem
  obtain ⟨d, -, hline⟩ := mem_of_mapM_eq_ok h _ hmem
  obtain ⟨calls, -, hline⟩ := bind_eq_ok.mp hline
  have hline := (Except.ok.inj hline).symm
  simp only [List.append_assoc] at hline
  exact allClear_ne_append hindent _ hline

theorem allClear_not_mem_classBlock {owner : String} {members : List Declaration}
    {lines : List Text} (h : classBlock s owner members = .ok lines) : allClear ∉ lines := by
  obtain ⟨body, hbody, hlines⟩ := bind_eq_ok.mp h
  cases hlines
  have hmembers := allClear_not_mem_inventoryLines (opensOtherwise rfl) hbody
  simp (disch := exact opensOtherwise rfl) only [List.mem_cons, List.append_assoc,
    allClear_ne_append, hmembers, or_self, not_false_eq_true]

/-- A path may begin with any words, but what follows it ends with a bracket. -/
theorem allClear_ne_fileHeader (file : Text) (n : Nat) :
    allClear ≠ file ++ " (" ++ number n ++ " trackable functions)" := by
  intro h
  have hlast := congrArg List.getLast? h
  rw [List.getLast?_append, allClear, ofString_ofList, ofString_ofList] at hlast
  cases hlast

theorem allClear_not_mem_fileBlock {file : Text} {ds : List Declaration} {lines : List Text}
    (h : fileBlock s file ds = .ok lines) : allClear ∉ lines := by
  obtain ⟨free, hfree, h⟩ := bind_eq_ok.mp h
  obtain ⟨classes, hclasses, h⟩ := bind_eq_ok.mp h
  cases h
  have hfree := allClear_not_mem_inventoryLines (opensOtherwise rfl) hfree
  have howned := allClear_not_mem_flatten hclasses fun _ _ => allClear_not_mem_classBlock
  simp only [List.mem_append, List.mem_cons, allClear_ne_fileHeader, hfree, howned,
    allClear_ne_nil, List.not_mem_nil, or_self, not_false_eq_true]

theorem allClear_not_mem_inventory {lines : List Text} (h : inventory s = .ok lines) :
    allClear ∉ lines := by
  obtain ⟨blocks, hblocks, h⟩ := bind_eq_ok.mp h
  cases h
  refine List.not_mem_append (allClear_not_mem_heading (opensOtherwise rfl) ?_) ?_
  · simpa using ⟨opensOtherwise rfl, opensOtherwise rfl⟩
  · exact allClear_not_mem_flatten hblocks fun _ _ => allClear_not_mem_fileBlock

end

theorem allClear_not_mem_flatMap {α : Type} {lines : α → List Text}
    (hlines : ∀ x, allClear ∉ lines x) (xs : List α) : allClear ∉ xs.flatMap lines := by
  intro hmem
  obtain ⟨x, -, hmem⟩ := List.mem_flatMap.mp hmem
  exact hlines x hmem

theorem allClear_not_mem_issueLines (issue : Issue) : allClear ∉ issueLines issue := by
  unfold issueLines
  dsimp only
  split
  · simp (disch := exact opensOtherwise rfl) [allClear_ne_append]
  · simp (disch := exact opensOtherwise rfl) [allClear_ne_append]

theorem allClear_not_mem_findingLines (f : Finding) : allClear ∉ findingLines f := by
  have hissues := allClear_not_mem_flatMap allClear_not_mem_issueLines f.issues
  simp (disch := exact opensOtherwise rfl) only [findingLines, List.mem_append, List.mem_cons,
    List.append_assoc, allClear_ne_append, allClear_ne_nil, hissues, List.not_mem_nil, or_self,
    not_false_eq_true]

/-- Among the lines on async and await, the line is the last one or it is not there. -/
theorem allClear_mem_asyncValidation {findings : List Finding} {total : Nat} :
    allClear ∈ asyncValidation findings total ↔ total = 0 := by
  have hheading : allClear ∉ heading "ASYNC/AWAIT VALIDATION"
      ["Potential issues with async/await usage patterns."] :=
    allClear_not_mem_heading (opensOtherwise rfl) (by simpa using opensOtherwise rfl)
  have hfindings := allClear_not_mem_flatMap allClear_not_mem_findingLines findings
  unfold asyncValidation
  rw [List.mem_append, List.mem_append, List.mem_singleton]
  by_cases htotal : total = 0
  · rw [if_pos htotal]
    exact iff_of_true (Or.inr rfl) htotal
  · simp (disch := exact opensOtherwise rfl) only [hheading, hfindings, htotal, if_false,
      allClear_ne_append, or_self]

theorem allClear_not_mem_listing {title : String} {lines : List Text}
    (htitle : OpensOtherwise title) (hlines : allClear ∉ lines) :
    allClear ∉ listing title lines := by
  unfold listing
  split
  · exact List.not_mem_nil
  · simp [allClear_ne_ofString htitle, hlines, allClear_ne_nil]

theorem allClear_ne_item (d : Declaration) (detail : Text) : allClear ≠ item d detail := by
  rw [item, List.append_assoc]
  exact allClear_ne_append (opensOtherwise rfl) _

theorem allClear_not_mem_usage {u : Usage} {lines : List Text} (h : usage u = .ok lines) :
    allClear ∉ lines := by
  obtain ⟨once, honce, h⟩ := bind_eq_ok.mp h
  cases h
  have hitems (entries : List Usage.Entry) (detail : Usage.Entry → Text) :
      allClear ∉ entries.map fun e => item e.declaration (detail e) := by
    intro hmem
    obtain ⟨e, -, he⟩ := List.mem_map.mp hmem
    exact allClear_ne_item _ _ he.symm
  have hsingle : allClear ∉ once := by
    intro hmem
    obtain ⟨e, -, he⟩ := mem_of_mapM_eq_ok honce _ hmem
    unfold singleUseLine at he
    split at he
    · cases he
    · exact allClear_ne_item _ _ (Except.ok.inj he).symm
  simp only [List.mem_append, not_or]
  refine ⟨⟨⟨allClear_not_mem_heading (opensOtherwise rfl) ?_, ?_⟩, ?_⟩, ?_⟩
  · simpa using ⟨opensOtherwise rfl, opensOtherwise rfl⟩
  · exact allClear_not_mem_listing (opensOtherwise rfl) (hitems _ _)
  · exact allClear_not_mem_listing (opensOtherwise rfl) hsingle
  · exact allClear_not_mem_listing (opensOtherwise rfl) (hitems _ _)

theorem allClear_not_mem_summary (s : Summary) : allClear ∉ summary s := by
  refine List.not_mem_append (allClear_not_mem_heading (opensOtherwise rfl) (by simp)) ?_
  simp (disch := exact opensOtherwise rfl) only [List.mem_cons, List.append_assoc,
    allClear_ne_append, allClear_ne_ofString, allClear_ne_nil, List.not_mem_nil, or_self,
    not_false_eq_true]

theorem allClear_not_mem_recommendation (r : Recommendation) : allClear ∉ recommendation r := by
  unfold recommendation
  split
  all_goals
    simp (disch := exact opensOtherwise rfl) only [List.mem_cons, List.append_assoc,
      allClear_ne_append, allClear_ne_ofString, allClear_ne_nil, List.not_mem_nil, or_self,
      not_false_eq_true]

/-- A report says that there is nothing to say exactly if the total is zero. -/
theorem allClear_mem_render {a : Analysis} {lines : List Text} (h : render a = .ok lines) :
    allClear ∈ lines ↔ a.summary.asyncIssues = 0 := by
  obtain ⟨inventoryLines, hinventory, h⟩ := bind_eq_ok.mp h
  obtain ⟨usageLines, husage, h⟩ := bind_eq_ok.mp h
  cases h
  have hadvice := allClear_not_mem_flatMap allClear_not_mem_recommendation a.recommendations
  have hheading : allClear ∉ heading "OPTIMIZATION RECOMMENDATIONS" [] :=
    allClear_not_mem_heading (opensOtherwise rfl) (by simp)
  simp only [List.mem_append, allClear_not_mem_header, allClear_not_mem_warnings,
    allClear_not_mem_inventory hinventory, allClear_mem_asyncValidation,
    allClear_not_mem_usage husage, allClear_not_mem_summary, hheading, hadvice, false_or, or_false]

/-- What a report says of a declaration that is at odds with itself. -/
def ownLines (d : Declaration) : List Text :=
  if d.isAsync = d.suspends then []
  else if d.isAsync then [
    "   UNNECESSARY ASYNC: This function is marked async but contains no awaited operations.",
    "      Hint: Consider removing the \"async\" keyword."]
  else [
    "   MISSING ASYNC: This function contains awaitable operations but is not marked async.",
    "      Hint: Add the \"async\" keyword to properly handle asynchronous operations."]

/-- What a report says of calls that do not fit a declaration. -/
def misfitLines (d : Declaration) (misfits : List Call) : List Text :=
  let cited : Text := "      " ++
    List.intercalate (Text.ofString ", ") (misfits.map fun c => c.file ++ ":" ++ Text.ofInt c.line)
  if misfits = [] then []
  else if d.isAsync then [
    Text.ofString "   MISSING AWAIT: This async function is called without \"await\" in:",
    cited,
    "      Hint: Add \"await\" to these calls or the promise may not be handled properly."]
  else [
    Text.ofString "   UNNECESSARY AWAIT: This non-async function is called with \"await\" in:",
    cited,
    "      Hint: Remove \"await\" from these calls, they are not needed."]

/-- How a report lists a declaration with the given calls. -/
def oddsLines (d : Declaration) (calls : List Call) : List Text :=
  ["x " ++ Text.ofString d.name ++ " (" ++ d.file ++ ":" ++ Text.ofInt d.line ++ ")"] ++
    ownLines d ++ misfitLines d (calls.filter fun c => c.awaited ≠ d.isAsync) ++ [[]]

/-- The section on async and await, told from the declarations and their calls. -/
def oddsSection (s : Snapshot) (total : Nat) : List Text :=
  [[], "ASYNC/AWAIT VALIDATION", List.replicate 60 (.char '-'),
    "Potential issues with async/await usage patterns.", []] ++
  ((s.declarations.filter fun d => d.isAtOdds (s.callers d)).flatMap fun d =>
    oddsLines d (s.callers d)) ++
  [if total = 0 then allClear else "Total async/await issues found: " ++ Text.ofNat total]

theorem ofString_append (s t : String) :
    Text.ofString s ++ Text.ofString t = Text.ofString (s ++ t) := by
  simp [Text.ofString]

theorem flatMap_issueLines_own (d : Declaration) :
    (if d.isAsync = d.suspends then []
      else [Issue.mk (if d.isAsync then .unnecessaryAsync else .missingAsync) []]).flatMap
        issueLines = ownLines d := by
  unfold ownLines
  by_cases hown : d.isAsync = d.suspends
  · rw [if_pos hown, if_pos hown]
    rfl
  · rw [if_neg hown, if_neg hown]
    cases d.isAsync with
    | true => simp [issueLines, issueText, ofString_append]
    | false => simp [issueLines, issueText, ofString_append]

theorem flatMap_issueLines_cited (d : Declaration) (misfits : List Call) :
    (if misfits = [] then []
      else [Issue.mk (if d.isAsync then .missingAwait else .unnecessaryAwait) misfits]).flatMap
        issueLines = misfitLines d misfits := by
  unfold misfitLines
  by_cases hnone : misfits = []
  · rw [if_pos hnone, if_pos hnone]
    rfl
  · have hsome : misfits.isEmpty = false := by simpa using hnone
    have hsite : Call.site = fun c => c.file ++ ":" ++ Text.ofInt c.line := rfl
    rw [if_neg hnone, if_neg hnone]
    cases d.isAsync with
    | true => simp [issueLines, issueText, hsome, hsite, ofString_append]
    | false => simp [issueLines, issueText, hsome, hsite, ofString_append]

/-- The renderer lists a declaration in the lines that are told here. -/
theorem findingLines_flags (d : Declaration) (calls : List Call) :
    findingLines ⟨d, d.flags calls⟩ = oddsLines d calls := by
  rw [findingLines, Declaration.flags, List.flatMap_append, flatMap_issueLines_own,
    flatMap_issueLines_cited, oddsLines]
  simp [Declaration.site, place]

theorem flatMap_findingLines (s : Snapshot) :
    (s.declarations.filterMap s.finding?).flatMap findingLines =
      (s.declarations.filter fun d => d.isAtOdds (s.callers d)).flatMap fun d =>
        oddsLines d (s.callers d) := by
  induction s.declarations with
  | nil => rfl
  | cons d ds ih =>
    rw [List.filterMap_cons, List.filter_cons, Snapshot.finding?_eq]
    cases d.isAtOdds (s.callers d) with
    | true => simp [ih, findingLines_flags]
    | false => simp [ih]

theorem oddsLines_infix_oddsSection {s : Snapshot} {d : Declaration}
    (hd : d ∈ s.declarations.filter fun d => d.isAtOdds (s.callers d)) (total : Nat) :
    oddsLines d (s.callers d) <:+: oddsSection s total := by
  refine List.IsInfix.trans ?_ (List.infix_append _ _ _)
  rw [List.flatMap_def]
  exact List.infix_of_mem_flatten (List.mem_map_of_mem hd)

theorem asyncValidation_findings (s : Snapshot) (total : Nat) :
    asyncValidation (s.declarations.filterMap s.finding?) total = oddsSection s total := by
  rw [asyncValidation, flatMap_findingLines]
  rfl

theorem asyncValidation_infix_render {a : Analysis} {lines : List Text}
    (h : render a = .ok lines) :
    asyncValidation a.findings a.summary.asyncIssues <:+: lines := by
  obtain ⟨inventoryLines, -, h⟩ := bind_eq_ok.mp h
  obtain ⟨usageLines, -, h⟩ := bind_eq_ok.mp h
  cases h
  refine ⟨header a ++ warnings a.warnings ++ inventoryLines, usageLines ++
    summary a.summary ++ heading "OPTIMIZATION RECOMMENDATIONS" [] ++
    a.recommendations.flatMap recommendation, ?_⟩
  simp only [List.append_assoc]

end Report

/-- What an analysis has to say on async and await, told from the declarations and their calls. -/
structure Analysis.AccountsFor (a : Analysis) (s : Snapshot) : Prop where
  /-- One finding for each declaration at odds, in the order of discovery. -/
  declarations : a.findings.map (·.declaration) =
    s.declarations.filter fun d => d.isAtOdds (s.callers d)
  kinds : ∀ f ∈ a.findings, (f.issues.map (·.kind)).Nodup
  /-- The calls cited are those that do not fit, in the order in which they were recorded. -/
  sites : ∀ f ∈ a.findings, f.issues.flatMap (·.sites) =
    (s.callers f.declaration).filter fun c => c.awaited ≠ f.declaration.isAsync
  total : a.summary.asyncIssues = (s.declarations.map fun d =>
    (if d.isAsync = d.suspends then 0 else 1) +
      (s.callers d).countP fun c => c.awaited ≠ d.isAsync).sum
  clear : a.summary.asyncIssues = 0 ↔ a.findings = []

theorem Snapshot.accountsFor_analysisValue (s : Snapshot) (threshold : Int) (root : Text)
    (files : List Text) (warnings : List Warning) :
    (s.analysisValue threshold root files warnings).AccountsFor s where
  declarations := s.map_declaration_findings
  kinds f hf := by
    rw [s.issues_of_mem_findings hf]
    exact f.declaration.nodup_kinds_flags _
  sites f hf := by
    rw [s.issues_of_mem_findings hf]
    exact f.declaration.sites_flags _
  total := s.totalWeight_findings
  clear := s.totalWeight_eq_zero

namespace Report

/-- Every graph that passed its check has an analysis whose account of async and await is exact. The
report has a section that lists the declarations at odds, each with its own lines, and no others. It
says that there is none exactly if there is none. -/
theorem async_account_is_exact {declarations : List Declaration}
    {calls : List (String × List Call)} {skipped : Int} {s : Snapshot}
    (hs : Snapshot.make declarations calls skipped = .ok s) {threshold : Int}
    (hthreshold : 0 ≤ threshold) (root : Text) (files : List Text) (warnings : List Warning) :
    (∀ d ∈ s.declarations, s.callsOf d = .ok (s.callers d)) ∧
    ∃ a lines, s.analyze threshold root files warnings = .ok a ∧ render a = .ok lines ∧
      a.AccountsFor s ∧ oddsSection s a.summary.asyncIssues <:+: lines ∧
      (∀ f ∈ a.findings, oddsLines f.declaration (s.callers f.declaration) <:+: lines) ∧
      (allClear ∈ lines ↔ a.findings = []) ∧
      (allClear ∈ lines ↔ ∀ d ∈ s.declarations, d.isAtOdds (s.callers d) = false) := by
  obtain ⟨-, -, hcounted⟩ := Snapshot.make_eq_ok.mp hs
  obtain ⟨lines, hlines⟩ := render_analysisValue hcounted threshold root files warnings
  have haccount := s.accountsFor_analysisValue threshold root files warnings
  have hclear := (allClear_mem_render hlines).trans haccount.clear
  let a : Analysis := s.analysisValue threshold root files warnings
  have hsection : oddsSection s a.summary.asyncIssues <:+: lines := by
    rw [← asyncValidation_findings]
    exact asyncValidation_infix_render hlines
  refine ⟨fun d hd => Snapshot.callsOf_ok hcounted hd, a, lines,
    Snapshot.analyze_ok hcounted hthreshold root files warnings, hlines, haccount, hsection,
    fun f hf => ?_, hclear, hclear.trans ?_⟩
  · have hodds := List.mem_map_of_mem (f := (·.declaration)) hf
    rw [haccount.declarations] at hodds
    exact (oddsLines_infix_oddsSection hodds _).trans hsection
  · rw [← List.map_eq_nil_iff (f := (·.declaration)), haccount.declarations,
      List.filter_eq_nil_iff]
    simp only [Bool.not_eq_true]

def twinsSection : List Text := [
  [],
  "ASYNC/AWAIT VALIDATION",
  "------------------------------------------------------------",
  "Potential issues with async/await usage patterns.",
  [],
  "x load (a.js:1)",
  "   UNNECESSARY ASYNC: This function is marked async but contains no awaited operations.",
  "      Hint: Consider removing the \"async\" keyword.",
  "   MISSING AWAIT: This async function is called without \"await\" in:",
  "      a.js:3",
  "      Hint: Add \"await\" to these calls or the promise may not be handled properly.",
  [],
  "x load (b.js:7)",
  "   MISSING ASYNC: This function contains awaitable operations but is not marked async.",
  "      Hint: Add the \"async\" keyword to properly handle asynchronous operations.",
  [],
  "Total async/await issues found: 3"]

/-- Both functions of the same name are at odds with themselves, and the one call of that name does
not fit the first of them. -/
theorem async_account_of_twins :
    Snapshot.make twins.declarations twins.calls 4 = .ok twins ∧
    ∃ a lines, twins.analyze 0 [] [] [] = .ok a ∧ render a = .ok lines ∧ a.AccountsFor twins ∧
      a.summary.asyncIssues = 3 ∧ a.findings.map (·.declaration) = twins.declarations ∧
      twinsSection <:+: lines ∧ allClear ∉ lines := by
  have hgraph : Snapshot.make twins.declarations twins.calls 4 = .ok twins := by decide +kernel
  obtain ⟨-, a, lines, ha, hlines, haccount, hsection, -, hclear, -⟩ :=
    async_account_is_exact hgraph (Int.le_refl 0) [] [] []
  have hodds : twins.declarations.filter (fun d => d.isAtOdds (twins.callers d)) =
      twins.declarations := by decide +kernel
  have htotal : a.summary.asyncIssues = 3 := by
    rw [haccount.total]
    decide +kernel
  have htwins : oddsSection twins 3 = twinsSection := by
    rw [oddsSection, hodds]
    rfl
  rw [htotal, htwins] at hsection
  refine ⟨hgraph, a, lines, ha, hlines, haccount, htotal, haccount.declarations.trans hodds,
    hsection, ?_⟩
  rw [hclear, ← haccount.clear, htotal]
  decide

end Report

end ScriptAudit
