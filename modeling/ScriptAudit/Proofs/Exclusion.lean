import ScriptAudit.Proofs.AnalysisValues
import ScriptAudit.Proofs.Tally

/-! Leaving out more names. A function that is no longer tracked is skipped where it was declared,
and its body is looked through as before, so nothing else changes. -/

namespace ScriptAudit

open Syntax

namespace Entry

/-- What becomes of an entry where the functions that a framework calls are left out. -/
def without (config : Config) : Entry → Entry
  | declaration d => if config.isFrameworkInvoked d.name then skip else declaration d
  | call c => call c
  | skip => skip

def isLost (config : Config) (entry : Entry) : Bool :=
  entry.isDeclaration && !(entry.without config).isDeclaration

theorem declarations_without (config : Config) (es : List Entry) :
    (es.map (without config)).filterMap declaration? =
      (es.filterMap declaration?).filter fun d => !config.isFrameworkInvoked d.name := by
  rw [List.filterMap_map, List.filter_filterMap]
  congr 1
  funext e
  cases e with
  | declaration d =>
    cases hd : config.isFrameworkInvoked d.name with
    | true => simp [without, hd, declaration?, Option.filter]
    | false => simp [without, hd, declaration?, Option.filter]
  | call c => rfl
  | skip => rfl

theorem calls_without (config : Config) (es : List Entry) :
    (es.map (without config)).filterMap call? = es.filterMap call? := by
  rw [List.filterMap_map]
  congr 1
  funext e
  cases e with
  | declaration d =>
    cases hd : config.isFrameworkInvoked d.name with
    | true => simp [without, hd, call?]
    | false => simp [without, hd, call?]
  | call c => rfl
  | skip => rfl

theorem skips_without (config : Config) (es : List Entry) :
    (es.map (without config)).countP isSkip = es.countP isSkip + es.countP (isLost config) := by
  induction es with
  | nil => rfl
  | cons e es ih =>
    rw [List.map_cons, List.countP_cons, List.countP_cons, List.countP_cons, ih]
    cases e with
    | declaration d =>
      cases hd : config.isFrameworkInvoked d.name with
      | true =>
        simp [without, hd, isSkip, isLost, isDeclaration]
        omega
      | false => simp [without, hd, isSkip, isLost, isDeclaration]
    | call c => simp [without, isSkip, isLost, isDeclaration]
    | skip =>
      simp [without, isSkip, isLost, isDeclaration]
      omega

end Entry

namespace Snapshot

variable (s s' : Snapshot) (keep : String → Bool)

theorem entriesOf_filter (hdecl : s'.declarations = s.declarations.filter fun d => keep d.name)
    (hcalls : ∀ d, s'.callers d = s.callers d) (tier : Tier) :
    s'.entriesOf tier = (s.entriesOf tier).filter fun e => keep e.declaration.name := by
  have hentry : s'.entry = s.entry := by
    funext d
    rw [entry, entry, hcalls]
  unfold entriesOf
  rw [hdecl, hentry, List.filter_map, List.filter_map, List.filter_map, List.filter_filter,
    List.filter_filter]
  congr 1
  apply List.filter_congr
  intro d _
  exact Bool.and_comm _ _

theorem findings_filter (hdecl : s'.declarations = s.declarations.filter fun d => keep d.name)
    (hcalls : ∀ d, s'.callers d = s.callers d) :
    s'.declarations.filterMap s'.finding? =
      (s.declarations.filterMap s.finding?).filter fun finding => keep finding.declaration.name := by
  rw [hdecl, List.filterMap_filter, List.filter_filterMap]
  congr 1
  funext d
  unfold finding?
  rw [hcalls d]
  by_cases hflags : d.flags (s.callers d) = []
  · simp [hflags]
  · cases hkeep : keep d.name with
    | true => simp [hflags, hkeep, Option.filter]
    | false => simp [hflags, hkeep, Option.filter]

end Snapshot

namespace Survey

variable {c₁ c₂ : Config} {path : Text} {f : Focus}

theorem classify_of_untracked {config : Config} {shape : Shape} (h : shape.verdict.tracked = false) :
    config.classify shape = shape.verdict := by
  simp [Config.classify, h]

theorem classify_of_tracked {config : Config} {shape : Shape} (h : shape.verdict.tracked = true) :
    config.classify shape =
      ⟨shape.verdict.name, !config.isFrameworkInvoked shape.verdict.name⟩ := by
  cases hf : config.isFrameworkInvoked shape.verdict.name with
  | true => simp [Config.classify, h, hf]
  | false =>
    simp only [Config.classify, hf, Bool.and_false, Bool.false_eq_true, if_false, Bool.not_false]
    rw [← h]

theorem functionEntry_of_shape {config : Config} {owner : Option String} {shape : Shape}
    (h : f.shape = .ok shape) :
    functionEntry config path owner f =
      if (config.classify shape).tracked then do
        let points ← f.node.suspensions
        let d ← Declaration.check ⟨(config.classify shape).name, path, f.node.line, f.node.isAsync,
          owner, points⟩
        return .declaration d
      else return .skip := by
  unfold functionEntry
  rw [h]
  rfl

section

variable (hle : ∀ name, c₁.isFrameworkInvoked name → c₂.isFrameworkInvoked name)

include hle

theorem functionEntry_without {owner : Option String} {entry : Entry}
    (h : functionEntry c₁ path owner f = .ok entry) :
    functionEntry c₂ path owner f = .ok (entry.without c₂) := by
  obtain ⟨shape, hshape, hcase⟩ := functionEntry_cases h
  rw [functionEntry_of_shape hshape]
  cases hv : shape.verdict.tracked with
  | false =>
    rw [classify_of_untracked hv] at hcase ⊢
    rcases hcase with ⟨htracked, -⟩ | ⟨-, rfl⟩
    · rw [hv] at htracked
      cases htracked
    · rw [hv]
      rfl
  | true =>
    rw [classify_of_tracked hv] at hcase ⊢
    cases h₂ : c₂.isFrameworkInvoked shape.verdict.name with
    | true =>
      rcases hcase with ⟨-, points, -, -, rfl⟩ | ⟨-, rfl⟩
      · simp only [Entry.without, h₂, Bool.not_true, Bool.false_eq_true, if_false, if_true]
        rfl
      · rfl
    | false =>
      have h₁ : c₁.isFrameworkInvoked shape.verdict.name = false := by
        apply Bool.eq_false_iff.mpr
        intro h₁
        rw [hle _ h₁] at h₂
        cases h₂
      rcases hcase with ⟨-, points, hpoints, hcheck, rfl⟩ | ⟨htracked, -⟩
      · simp only [Bool.not_false, if_true, hpoints, bind, Except.bind, hcheck, Entry.without, h₂]
        rfl
      · rw [h₁] at htracked
        cases htracked

theorem entryAt?_without {own : Option Entry} (h : entryAt? c₁ path f = .ok own) :
    entryAt? c₂ path f = .ok (own.map (Entry.without c₂)) := by
  apply nodeEntry_eq_ok.mpr
  rcases nodeEntry_eq_ok.mp h with ⟨hclass, hname, rfl⟩ | ⟨hclass, hfun, entry, hentry, rfl⟩ |
    ⟨hclass, hfun, hkind, hcall⟩ | ⟨hclass, hfun, hkind, rfl⟩
  · exact Or.inl ⟨hclass, hname, rfl⟩
  · exact Or.inr (Or.inl ⟨hclass, hfun, _, functionEntry_without hle hentry, rfl⟩)
  · refine Or.inr (Or.inr (Or.inl ⟨hclass, hfun, hkind, ?_⟩))
    rcases callEntry_cases hcall with ⟨-, rfl⟩ | ⟨callee, -, rfl⟩
    · exact hcall
    · exact hcall
  · exact Or.inr (Or.inr (Or.inr ⟨hclass, hfun, hkind, rfl⟩))

theorem isSound_without {file : Text × Node} (h : IsSound c₁ file) : IsSound c₂ file := by
  intro f hf
  obtain ⟨own, hown⟩ := h f hf
  exact ⟨_, entryAt?_without hle hown⟩

theorem fileEntries_without {file : Text × Node} (h : IsSound c₁ file) :
    fileEntries c₂ file = (fileEntries c₁ file).map (Entry.without c₂) := by
  unfold fileEntries
  rw [List.map_filterMap]
  apply List.filterMap_congr
  intro f hf
  obtain ⟨own, hown⟩ := h f hf
  rw [entryOr?_of_ok hown, entryOr?_of_ok (entryAt?_without hle hown)]

theorem flatMap_fileEntries_without {files : List (Text × Node)}
    (h : ∀ file ∈ files, IsSound c₁ file) :
    files.flatMap (fileEntries c₂) = (files.flatMap (fileEntries c₁)).map (Entry.without c₂) := by
  rw [List.map_flatMap]
  exact List.flatMap_congr fun file hfile => fileEntries_without hle (h file hfile)

theorem isLost_eq {own : Option Entry} (h : entryAt? c₁ path f = .ok own) :
    own.any (Entry.isLost c₂) = (tracks c₁ f && !tracks c₂ f) := by
  rw [tracks_eq h, tracks_eq (entryAt?_without hle h)]
  cases own with
  | none => rfl
  | some entry => rfl

theorem countP_isLost_flatMap {files : List (Text × Node)}
    (h : ∀ file ∈ files, IsSound c₁ file) :
    (files.flatMap (fileEntries c₁)).countP (Entry.isLost c₂) =
      (files.flatMap fun file => Focus.preorder [.root file.2]).countP
        fun f => tracks c₁ f && !tracks c₂ f :=
  countP_entries h fun _ _ _ => isLost_eq hle

theorem declarations_without {files : List (Text × Node)} (h₁ : builds c₁ files)
    (h₂ : builds c₂ files) :
    (build c₂ files).declarations =
      (build c₁ files).declarations.filter fun d => !c₂.isFrameworkInvoked d.name := by
  -- whether a declaration stays depends on its key alone, so it stays or goes with its duplicates
  have hkey : ∀ d d' : Declaration, d.id = d'.id →
      (!c₂.isFrameworkInvoked d.name) = !c₂.isFrameworkInvoked d'.name := by
    intro d d' hid
    have hname : d.name = d'.name := congrArg Declaration.Id.name hid
    rw [hname]
  rw [declarations_build h₁, declarations_build h₂, Ordered.filter_ofList hkey]
  congr 1
  change files.flatMap (fun file => (fileEntries c₂ file).filterMap _) =
    (files.flatMap fun file => (fileEntries c₁ file).filterMap _).filter _
  rw [← List.filterMap_flatMap, ← List.filterMap_flatMap,
    flatMap_fileEntries_without hle (builds_iff.mp h₁), Entry.declarations_without]

theorem callers_without {files : List (Text × Node)} (h₁ : builds c₁ files)
    (h₂ : builds c₂ files) (name : String) :
    (build c₂ files).callers name = (build c₁ files).callers name := by
  rw [callers_build h₁, callers_build h₂, flatMap_fileEntries_without hle (builds_iff.mp h₁),
    Entry.calls_without]

end

/-- Leaving out more names takes declarations away and changes nothing else: not their order, not
the calls of any name, and not what is found out about the declarations that stay. -/
theorem exclusion_only_removes (c₁ c₂ : Config)
    (hle : ∀ name, c₁.isFrameworkInvoked name → c₂.isFrameworkInvoked name)
    (files : List (Text × Node)) (hbuilds : builds c₁ files) :
    builds c₂ files ∧
    (build c₂ files).declarations =
      (build c₁ files).declarations.filter (fun d => !c₂.isFrameworkInvoked d.name) ∧
    (∀ name, (build c₂ files).callers name = (build c₁ files).callers name) ∧
    (∃ s₁ s₂ u₁ u₂ found₁ found₂,
      (build c₁ files).freeze = .ok s₁ ∧ (build c₂ files).freeze = .ok s₂ ∧
      s₁.usage = .ok u₁ ∧ s₂.usage = .ok u₂ ∧ s₁.findings = .ok found₁ ∧ s₂.findings = .ok found₂ ∧
      (∀ tier e, e ∈ u₂.ofTier tier ↔
        e ∈ u₁.ofTier tier ∧ c₂.isFrameworkInvoked e.declaration.name = false) ∧
      found₂ = found₁.filter fun finding => !c₂.isFrameworkInvoked finding.declaration.name) ∧
    (build c₂ files).skipped = (build c₁ files).skipped +
      (files.flatMap fun file => Focus.preorder [.root file.2]).countP
        fun f => tracks c₁ f && !tracks c₂ f := by
  have hsound := builds_iff.mp hbuilds
  have hbuilds₂ : builds c₂ files :=
    builds_iff.mpr fun file hfile => isSound_without hle (hsound file hfile)
  have hdecl := declarations_without hle hbuilds hbuilds₂
  have hcalls := callers_without hle hbuilds hbuilds₂
  refine ⟨hbuilds₂, hdecl, hcalls, ?_, ?_⟩
  · have h₁ := build_counted hbuilds
    have h₂ := build_counted hbuilds₂
    have hentries := Snapshot.entriesOf_filter (build c₁ files).snapshot (build c₂ files).snapshot
      (fun name => !c₂.isFrameworkInvoked name) hdecl fun d => hcalls d.name
    have hfindings := Snapshot.findings_filter (build c₁ files).snapshot (build c₂ files).snapshot
      (fun name => !c₂.isFrameworkInvoked name) hdecl fun d => hcalls d.name
    refine ⟨_, _, _, _, _, _, CallGraph.freeze_ok h₁, CallGraph.freeze_ok h₂, Snapshot.usage_ok h₁,
      Snapshot.usage_ok h₂, Snapshot.findings_ok h₁, Snapshot.findings_ok h₂, ?_, hfindings⟩
    intro tier e
    rw [Snapshot.mem_ofTier_usageValue, Snapshot.mem_ofTier_usageValue, hentries tier]
    simp
  · rw [skipped_build hbuilds, skipped_build hbuilds₂, flatMap_fileEntries_without hle hsound,
      Entry.skips_without, countP_isLost_flatMap hle hsound]

/-- A script that declares `paint` twice, the second time with a `stroke` in it that waits for
`paint`. -/
def paintedTwice : List (Text × Node) :=
  let word (role : Role) (text : String) : Node :=
    { Node.plain .identifier 0 [] with role := some role, text := some text }
  let waiting : Node :=
    .plain .awaitExpression 2 [.plain .callExpression 2 [word .callee "paint"]]
  let stroke : Node := .plain .functionDeclaration 1 [word .name "stroke", waiting]
  [(Text.ofString "a.js", .plain (.other "program") 0 [
    .plain .functionDeclaration 0 [word .name "paint"],
    .plain .functionDeclaration 1 [word .name "paint", stroke]])]

def withoutPaint : Config :=
  { Config.default with blacklist := "paint" :: Config.defaultBlacklist }

theorem exclusion_of_paint :
    (∀ name, Config.default.isFrameworkInvoked name → withoutPaint.isFrameworkInvoked name) ∧
    builds .default paintedTwice ∧
    (build .default paintedTwice).declarations.map Declaration.name = ["paint", "paint", "stroke"] ∧
    (build withoutPaint paintedTwice).declarations.map Declaration.name = ["stroke"] ∧
    (build withoutPaint paintedTwice).skipped = (build .default paintedTwice).skipped + 2 := by
  have hle : ∀ name,
      Config.default.isFrameworkInvoked name → withoutPaint.isFrameworkInvoked name := by
    intro name h
    have hcontains : withoutPaint.blacklist.contains name =
        (name == "paint" || Config.default.blacklist.contains name) := List.contains_cons
    unfold Config.isFrameworkInvoked at h ⊢
    rw [hcontains, Bool.or_assoc]
    exact Bool.or_eq_true_iff.mpr (.inr h)
  have hbuilds : builds .default paintedTwice := by decide +kernel
  obtain ⟨-, hdecl, -, -, hskipped⟩ := exclusion_only_removes _ _ hle _ hbuilds
  refine ⟨hle, hbuilds, by decide +kernel, ?_, ?_⟩
  · rw [hdecl]
    decide +kernel
  · rw [hskipped]
    decide +kernel

end Survey

end ScriptAudit
