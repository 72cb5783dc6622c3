import Mathlib.Data.List.Permutation
import Mathlib.Data.List.TakeWhile
import ScriptAudit.Grammar
import ScriptAudit.Proofs.Refusals
import ScriptAudit.Proofs.SameSources

/-! The suffix by which a file is discovered, and the suffix that picks its grammars. One is read
off the last name of a path, where a dot in front or at the end does not count. The other follows
the last dot of the whole text. They differ for many texts, but for none that is discovered. -/

namespace ScriptAudit

open ScriptAudit.Path

namespace Path

/-- A relative path written in the one way in which paths are written. -/
def IsNormal (t : Text) : Prop := (ofText t).anchor = [] ∧ (ofText t).text = t

instance (t : Text) : Decidable (IsNormal t) := inferInstanceAs (Decidable (_ ∧ _))

theorem takeWhile_reverse (front : Text) {tail : Text} (h : dot ∉ tail) :
    (front ++ dot :: tail).reverse.takeWhile (· ≠ dot) = tail.reverse := by
  have hall : ∀ s ∈ tail.reverse, decide (s ≠ dot) = true := by
    intro s hs
    have hne : s ≠ dot := fun he => h (he ▸ List.mem_reverse.mp hs)
    simpa using hne
  rw [List.reverse_append, List.reverse_cons, List.append_assoc, List.takeWhile_append_of_pos hall]
  simp

theorem exists_last_dot {t : Text} (h : dot ∈ t) :
    ∃ front tail, t = front ++ dot :: tail ∧ dot ∉ tail := by
  obtain ⟨tail, front, ht, htail⟩ := List.eq_append_cons_of_mem (List.mem_reverse.mpr h)
  refine ⟨front.reverse, tail.reverse, ?_, fun hd => htail (List.mem_reverse.mp hd)⟩
  rw [← List.reverse_reverse t, ht]
  simp

theorem suffix_of_no_dot {name : Text} (h : dot ∉ name) : suffix name = [] := by
  have hall : name.reverse.takeWhile (· ≠ dot) = name.reverse := by
    refine List.takeWhile_eq_self_iff.mpr fun s hs => ?_
    have hne : s ≠ dot := fun he => h (he ▸ List.mem_reverse.mp hs)
    simpa using hne
  simp only [suffix, hall, List.reverse_reverse]
  exact if_neg (by simp)

/-- A suffix that is not empty is the last dot of a name, with all that follows it. -/
theorem suffix_eq {name : Text} (h : suffix name ≠ []) :
    ∃ stem tail, name = stem ++ dot :: tail ∧ dot ∉ tail ∧ suffix name = dot :: tail := by
  by_cases hdot : dot ∈ name
  · obtain ⟨stem, tail, rfl, htail⟩ := exists_last_dot hdot
    refine ⟨stem, tail, rfl, htail, ?_⟩
    simp only [suffix, takeWhile_reverse stem htail, List.reverse_reverse] at h ⊢
    exact if_pos (of_not_not fun hshort => h (if_neg hshort))
  · exact absurd (suffix_of_no_dot hdot) h

theorem exists_intercalate_eq (names : List Text) (name : Text) :
    ∃ front, List.intercalate [slash] (names ++ [name]) = front ++ name := by
  induction names with
  | nil => exact ⟨[], by simp [List.intercalate]⟩
  | cons n names ih =>
    obtain ⟨front, hfront⟩ := ih
    obtain ⟨m, rest, hrest⟩ : ∃ m rest, names ++ [name] = m :: rest :=
      List.exists_cons_of_ne_nil (by simp)
    refine ⟨n ++ [slash] ++ front, ?_⟩
    rw [List.cons_append, hrest, List.intercalate_cons_cons, ← hrest, hfront]
    simp only [List.append_assoc]

/-- The text of a path ends in its last name. -/
theorem exists_text_eq {p : Path} {name : Text} (h : p.names.getLast? = some name) :
    ∃ front, p.text = front ++ name := by
  obtain ⟨names, hnames⟩ := List.getLast?_eq_some_iff.mp h
  obtain ⟨front, hfront⟩ := exists_intercalate_eq names name
  refine ⟨p.anchor ++ front, ?_⟩
  rw [text, if_neg (by simp [hnames]), hnames, hfront, List.append_assoc]

end Path

namespace Grammar

/-- What stands in front of a name does not change what follows its last dot. -/
theorem suffix_append (front : Text) {name : Text} (h : Path.suffix name ≠ []) :
    suffix (front ++ name) = (Path.suffix name).lower := by
  obtain ⟨stem, tail, rfl, htail, hsuffix⟩ := Path.suffix_eq h
  have htake : (front ++ (stem ++ dot :: tail)).reverse.takeWhile (fun s => s ≠ .char '.') =
      tail.reverse := by
    rw [← List.append_assoc]
    exact takeWhile_reverse (front ++ stem) htail
  have hlength : tail.length < (front ++ (stem ++ dot :: tail)).length := by
    simp only [List.length_append, List.length_cons]
    omega
  rw [hsuffix, suffix]
  simp only [htake, List.reverse_reverse, if_pos hlength]
  rfl

def plain : List Grammar := [.javascript, .tsx]

/-- The grammars of the suffixes that are known. -/
def table : List (Text × List Grammar) := [
  (".js", plain), (".jsx", plain), (".mjs", plain), (".cjs", plain), (".ts", [.typescript]),
  (".mts", [.typescript]), (".cts", [.typescript]), (".tsx", [.tsx])]

theorem candidates_of_mem {path : Text} {gs : List Grammar} (h : (suffix path, gs) ∈ table) :
    candidates path = gs := by
  unfold candidates
  generalize suffix path = s at h ⊢
  simp only [table, List.mem_cons, Prod.mk.injEq, List.not_mem_nil, or_false] at h
  rcases h with ⟨rfl, rfl⟩ | ⟨rfl, rfl⟩ | ⟨rfl, rfl⟩ | ⟨rfl, rfl⟩ | ⟨rfl, rfl⟩ | ⟨rfl, rfl⟩ |
    ⟨rfl, rfl⟩ | ⟨rfl, rfl⟩
  all_goals decide

theorem candidates_of_not_mem {path : Text} (h : suffix path ∉ table.map Prod.fst) :
    candidates path = plain := by
  simp only [table, List.map_cons, List.map_nil, List.mem_cons, List.not_mem_nil, or_false,
    not_or] at h
  obtain ⟨-, -, -, -, hts, hmts, hcts, htsx⟩ := h
  simp only [candidates, hts, hmts, hcts, htsx, or_self, if_false]
  rfl

end Grammar

theorem Config.isExtension_of_check {config : Config} (h : config.check = .ok config) :
    ∀ e ∈ config.extensions, isExtension e = true := by
  unfold check at h
  obtain ⟨_, -, h⟩ := bind_eq_ok.mp h
  split at h
  · cases h
  · rename_i hnone
    simpa using hnone

namespace Discovery

variable {config : Config} {file suffix : Text}

/-- A file that passes a test of discovery, and the suffix by which it does. -/
inductive Accepted (config : Config) : Text → Text → Prop
  | listed {file : Text} (hnormal : IsNormal file) (h : accepts config (.ofText file) = true) :
      Accepted config file (ofText file).lastSuffix
  | walked {way : Route} {name : Text} (h : hasSourceSuffix config (Path.suffix name) = true) :
      Accepted config (down (way ++ [name])).text (Path.suffix name)

/-- No extension is empty, so what has a source suffix has a dot. -/
theorem ne_nil_of_hasSourceSuffix (hconfig : config.check = .ok config)
    (h : hasSourceSuffix config suffix = true) : suffix ≠ [] := by
  rintro rfl
  have hempty : ([] : Text) ∈ config.extensions := by
    simpa [hasSourceSuffix, Text.lower, Text.lowerAfter] using h
  exact absurd (Config.isExtension_of_check hconfig _ hempty) (by decide)

namespace Accepted

theorem hasSourceSuffix (h : Accepted config file suffix) :
    hasSourceSuffix config suffix = true := by
  cases h with
  | listed _ h => exact (Bool.and_eq_true_iff.mp h).1
  | walked h => exact h

/-- The accepted suffix is that of a name in which the text ends. -/
theorem exists_name (h : Accepted config file suffix) (hne : suffix ≠ []) :
    ∃ front name, file = front ++ name ∧ suffix = Path.suffix name := by
  cases h with
  | listed hnormal _ =>
    cases hlast : (ofText file).names.getLast? with
    | none => exact absurd (by rw [lastSuffix, hlast]; rfl) hne
    | some name =>
      obtain ⟨front, hfront⟩ := exists_text_eq hlast
      rw [hnormal.2] at hfront
      exact ⟨front, name, hfront, by rw [lastSuffix, hlast]; rfl⟩
  | walked _ =>
    obtain ⟨front, hfront⟩ := exists_text_eq (p := down (_ ++ [_])) List.getLast?_concat
    exact ⟨front, _, hfront, rfl⟩

/-- Both ways to find the suffix find the same. -/
theorem suffix_eq (hconfig : config.check = .ok config) (h : Accepted config file suffix) :
    Grammar.suffix file = suffix.lower := by
  have hne := ne_nil_of_hasSourceSuffix hconfig h.hasSourceSuffix
  obtain ⟨front, name, rfl, rfl⟩ := h.exists_name hne
  exact Grammar.suffix_append front hne

end Accepted

theorem accepted_of_discover {h : Host} {root : Path} {found : Discovery} {events : List Event}
    (hlisting : ∀ listed, h.git = .names listed → ∀ file ∈ listed, IsNormal file)
    (hfound : discover h config root = .ok (found, events)) :
    ∀ file ∈ found.files, ∃ suffix, Accepted config file suffix := by
  intro file hfile
  obtain ⟨base, -, -, hlisted | ⟨-, -, rfl⟩⟩ := discover_eq_ok hfound
  · obtain ⟨listed, files, -, hgit, hfiles, rfl⟩ := hlisted
    obtain ⟨-, -, -, hmem⟩ := fromListing_eq_ok hfiles
    obtain ⟨hlisted, -, haccepts, -⟩ := (hmem file).mp hfile
    exact ⟨_, .listed (hlisting listed hgit file hlisted) haccepts⟩
  · obtain ⟨way, name, -, -, -, hsource, rfl⟩ := mem_files_walked.mp hfile
    exact ⟨_, .walked (isSource_eq_true.mp hsource).1⟩

/-- Whatever dots and capitals there are in a path, the suffix by which it was accepted is the one
that picks its grammars: those of the table, or the plain ones if the extension is not in it. Every
file that is discovered was accepted by such a suffix. -/
theorem accepted_suffix_picks_grammars (hconfig : config.check = .ok config) :
    (∀ file suffix, Accepted config file suffix →
      Grammar.suffix file = suffix.lower ∧ suffix.lower ∈ config.extensions ∧
      (∀ gs, (suffix.lower, gs) ∈ Grammar.table → Grammar.candidates file = gs) ∧
      (suffix.lower ∉ Grammar.table.map Prod.fst → Grammar.candidates file = Grammar.plain)) ∧
    ∀ (h : Host) (root : Path) (found : Discovery) (events : List Event),
      (∀ listed, h.git = .names listed → ∀ file ∈ listed, IsNormal file) →
      discover h config root = .ok (found, events) →
        ∀ file ∈ found.files, ∃ suffix, Accepted config file suffix := by
  refine ⟨fun file suffix h => ?_, fun _ _ _ _ => accepted_of_discover⟩
  have hsuffix := h.suffix_eq hconfig
  refine ⟨hsuffix, by simpa [Discovery.hasSourceSuffix] using h.hasSourceSuffix, ?_, ?_⟩
  · rw [← hsuffix]
    exact fun _ => Grammar.candidates_of_mem
  · rw [← hsuffix]
    exact Grammar.candidates_of_not_mem

/-- A file in a directory with a suffix of its own, listed by version control. -/
def attic : Host where
  disk :=
    { entries := [(["lib.js"], .directory), (["lib.js", ".App.d.TSX"], .file [])] }
  git := .names ["lib.js/.App.d.TSX"]

theorem attic_resolve : attic.disk.resolve ((Path.down []).join (ofText "lib.js/.App.d.TSX")) =
    .ok ["lib.js", ".App.d.TSX"] := by
  cbv

theorem grammars_of_attic :
    Config.default.check = .ok .default ∧
    Accepted .default "lib.js/.App.d.TSX" ".TSX" ∧
    Grammar.candidates "lib.js/.App.d.TSX" = [.tsx] ∧
    ∃ found events, discover attic .default (.down []) = .ok (found, events) ∧
      Text.ofString "lib.js/.App.d.TSX" ∈ found.files ∧
      ∀ file ∈ found.files, ∃ suffix, Accepted .default file suffix := by
  have hconfig : Config.default.check = .ok .default := rfl
  have hnormal : IsNormal "lib.js/.App.d.TSX" := by decide
  have haccepts : accepts .default (ofText "lib.js/.App.d.TSX") = true := by decide +kernel
  have haccepted : Accepted .default "lib.js/.App.d.TSX" ".TSX" := .listed hnormal haccepts
  obtain ⟨hpicks, hdiscovered⟩ := accepted_suffix_picks_grammars hconfig
  obtain ⟨-, -, htable, -⟩ := hpicks _ _ haccepted
  have hroot : attic.disk.resolve (.down []) = .ok [] := Disk.resolve_down_nil _
  obtain ⟨files, hfiles⟩ : ∃ files, fromListing attic .default (.down [])
      ["lib.js/.App.d.TSX"] = .ok files := by
    refine fromListing_of_isListable fun t ht _ _ => ?_
    rw [List.mem_singleton.mp ht]
    exact Disk.canFollow_of_ok attic_resolve
  have hfile : Text.ofString "lib.js/.App.d.TSX" ∈ files :=
    ((fromListing_eq_ok hfiles).2.2.2 _).mpr ⟨List.mem_singleton_self _, by decide, haccepts,
      Disk.isFile_eq_true.mpr ⟨_, [], attic_resolve, rfl⟩⟩
  have hfound := discover_of_listing hroot rfl rfl rfl hfiles
  refine ⟨hconfig, haccepted, htable _ (by decide +kernel), _, _, hfound, hfile, ?_⟩
  refine hdiscovered attic (.down []) _ _ ?_ hfound
  intro listed hlisted file hfile
  cases hlisted
  rw [List.mem_singleton.mp hfile]
  exact hnormal

end Discovery

end ScriptAudit
