/-
  Auditarr/AiContext.lean
  =======================
  **The files an AI provider is told about** (`_build_context` and `_anonymize_path` in
  `app/services/ai/suggestions.py`).

  The provider gets the most played files of the last 30 days, with the root of their library
  cut off.  Whether that hides where the files are mounted is a question about two states that
  differ in the directories above the files only.  It does for a file in a library whose root
  is not the root of the file system; the path of any other file is sent as it is stored.
-/
import Auditarr.PathMappings
import Auditarr.PlaybackPoller
import Auditarr.Database
import Auditarr.TopRows
import Mathlib.Data.List.Dedup

namespace AiContext

open PyValues PathMappings TopRows
open PlaybackPoller (Timestamp seconds PlaybackEvent)
open Database (Library)

/-! ### The context -/

/-- The rows the context is built from. -/
structure Store where
  libraries : List Library
  events : List PlaybackEvent

/-- `bool((integration.config or {}).get("send_paths_external", True))`. -/
def sendPathsExternal (config : Option (List (String × PyValue))) : Bool :=
  (((config.getD []).lookup "send_paths_external").getD (.bool true)).truthy

/-- `path_subs`: the longest root first. -/
def pathSubs (libraries : List Library) : List (String × String) :=
  (libraries.map fun lib => (rstripSlash lib.rootPath, "<library>")).mergeSort fun a b =>
    decide (b.1.length ≤ a.1.length)

/-- `_anonymize_path`. -/
def anonymizePath (path : String) : List (String × String) → String
  | [] => path
  | (root, placeholder) :: substitutions =>
      if root = "" then anonymizePath path substitutions
      else if (root.toList ++ ['/']).isPrefixOf path.toList then
        placeholder ++ String.ofList (path.toList.drop root.length)
      else if path = root then placeholder
      else anonymizePath path substitutions

/-- A row of the query: a path, its plays and how many of them were transcoded. -/
structure FileRow where
  sourcePath : String
  total : Nat
  transcodes : Nat
deriving DecidableEq

/-- `started_at >= cutoff_events`. -/
def recentEvents (now : Timestamp) (s : Store) : List PlaybackEvent :=
  s.events.filter fun e => now - seconds (30 * 24 * 3600) ≤ e.startedAt

/-- The group of a path. -/
def fileRow (events : List PlaybackEvent) (path : String) : FileRow where
  sourcePath := path
  total := events.countP fun e => e.sourcePath = path
  transcodes := events.countP fun e => e.sourcePath = path ∧ e.decision = "transcode"

/-- `GROUP BY source_path`. -/
def fileRows (now : Timestamp) (s : Store) : List FileRow :=
  ((recentEvents now s).map (·.sourcePath)).dedup.map (fileRow (recentEvents now s))

def topFilesLimit : Nat := 50

/-- An entry of `top_files`. -/
structure TopFile where
  path : String
  total : Nat
  transcodes : Nat
deriving DecidableEq

def topFile (config : Option (List (String × PyValue))) (s : Store) (row : FileRow) : TopFile where
  path := if sendPathsExternal config then anonymizePath row.sourcePath (pathSubs s.libraries)
    else "<redacted>"
  total := row.total
  transcodes := row.transcodes

/-- `top_files` may be sent, for one order the database may give to files played equally
    often. -/
def Sends (config : Option (List (String × PyValue))) (now : Timestamp) (s : Store)
    (topFiles : List TopFile) : Prop :=
  ∃ answer, Top FileRow.total topFilesLimit (fileRows now s) answer ∧
    topFiles = answer.map (topFile config s)

/-! ### Where a file is -/

/-- The path is the root, or below it. -/
def Below (root path rest : String) : Prop :=
  path = root ++ rest ∧ (rest = "" ∨ ∃ below, rest = "/" ++ below)

/-- The path is in the library. -/
def Within (lib : Library) (path rest : String) : Prop :=
  Below (rstripSlash lib.rootPath) path rest

/-- The library the path is in, and if libraries are nested the inner one. -/
structure Innermost (libraries : List Library) (lib : Library) (path rest : String) : Prop where
  mem : lib ∈ libraries
  within : Within lib path rest
  inner : ∀ other ∈ libraries, ∀ rest', Within other path rest' →
    (rstripSlash other.rootPath).length ≤ (rstripSlash lib.rootPath).length

/-- The path is in no library. -/
def Outside (libraries : List Library) (path : String) : Prop :=
  ∀ lib ∈ libraries, ∀ rest, ¬Within lib path rest

/-- The path is in no library but those whose root is the root of the file system. -/
def Uncovered (libraries : List Library) (path : String) : Prop :=
  ∀ lib ∈ libraries, rstripSlash lib.rootPath ≠ "" → ∀ rest, ¬Within lib path rest

/-- New places for the roots of the libraries and for the files. -/
structure Mounts where
  root : Library → String
  path : String → String

def Mounts.library (m : Mounts) (lib : Library) : Library :=
  { lib with rootPath := m.root lib }

def Mounts.event (m : Mounts) (e : PlaybackEvent) : PlaybackEvent :=
  { e with sourcePath := m.path e.sourcePath }

/-- One file in both states: at the same place of a library, or below different directories
    outside of all libraries, or not moved. -/
inductive SameFile (m : Mounts) (libraries : List Library) : String → String → Prop where
  | inLibrary {path path' : String} (lib : Library) (rest : String)
      (before : Innermost libraries lib path rest)
      (after : Innermost (libraries.map m.library) (m.library lib) path' rest) :
      SameFile m libraries path path'
  | outside (directory directory' rest : String)
      (before : Outside libraries (directory ++ "/" ++ rest))
      (after : Outside (libraries.map m.library) (directory' ++ "/" ++ rest)) :
      SameFile m libraries (directory ++ "/" ++ rest) (directory' ++ "/" ++ rest)
  | unmoved (path : String) (before : Outside libraries path)
      (after : Outside (libraries.map m.library) path) : SameFile m libraries path path

/-- The two states differ in the directories above the files only. -/
structure Remounted (m : Mounts) (s s' : Store) : Prop where
  libraries : s'.libraries = s.libraries.map m.library
  events : s'.events = s.events.map m.event
  sameFile : ∀ e ∈ s.events, SameFile m s.libraries e.sourcePath (m.path e.sourcePath)
  apart : ∀ e ∈ s.events, ∀ f ∈ s.events,
    m.path e.sourcePath = m.path f.sourcePath → e.sourcePath = f.sourcePath

/-! ### What is left of a path -/

theorem below_iff {root path : String} : (∃ rest, Below root path rest) ↔
    (root.toList ++ ['/']).isPrefixOf path.toList = true ∨ path = root := by
  rw [List.isPrefixOf_iff_prefix]
  constructor
  · rintro ⟨rest, rfl, rfl | ⟨below, rfl⟩⟩
    · right
      exact String.append_empty
    · left
      exact ⟨below.toList, by simp⟩
  · rintro (⟨below, hbelow⟩ | rfl)
    · refine ⟨"/" ++ String.ofList below, ?_, .inr ⟨_, rfl⟩⟩
      rw [← String.toList_inj, ← hbelow]
      simp
    · exact ⟨"", String.append_empty.symm, .inl rfl⟩

theorem not_within_iff (lib : Library) (path : String) : (∀ rest, ¬Within lib path rest) ↔
    ¬(((rstripSlash lib.rootPath).toList ++ ['/']).isPrefixOf path.toList = true ∨
      path = rstripSlash lib.rootPath) := by
  rw [← below_iff, not_exists]
  rfl

instance (libraries : List Library) (path : String) : Decidable (Outside libraries path) :=
  decidable_of_iff _ (forall₂_congr fun lib _ => (not_within_iff lib path).symm)

instance (libraries : List Library) (path : String) : Decidable (Uncovered libraries path) :=
  decidable_of_iff _ (forall₃_congr fun lib _ _ => (not_within_iff lib path).symm)

theorem anonymizePath_below {root placeholder path rest : String}
    {substitutions : List (String × String)} (hroot : root ≠ "") (h : Below root path rest) :
    anonymizePath path ((root, placeholder) :: substitutions) = placeholder ++ rest := by
  rw [anonymizePath, if_neg hroot]
  rcases h with ⟨rfl, rfl | ⟨below, rfl⟩⟩
  · rw [if_neg, if_pos String.append_empty, String.append_empty]
    rw [String.append_empty, List.isPrefixOf_iff_prefix]
    intro hlonger
    have hlength := hlonger.length_le
    simp at hlength
  · rw [if_pos]
    · congr 1
      rw [← String.toList_inj, String.toList_append, ← String.length_toList, List.drop_left,
        String.toList_ofList]
    · rw [List.isPrefixOf_iff_prefix]
      exact ⟨below.toList, by simp⟩

theorem anonymizePath_not_below {root placeholder path : String}
    {substitutions : List (String × String)} (h : root ≠ "" → ∀ rest, ¬Below root path rest) :
    anonymizePath path ((root, placeholder) :: substitutions) =
      anonymizePath path substitutions := by
  rw [anonymizePath]
  by_cases hroot : root = ""
  · rw [if_pos hroot]
  · have hnone := h hroot
    rw [← not_exists, below_iff, not_or] at hnone
    rw [if_neg hroot, if_neg hnone.1, if_neg hnone.2]

theorem anonymizePath_eq_self {path : String} {substitutions : List (String × String)}
    (h : ∀ sub ∈ substitutions, sub.1 ≠ "" → ∀ rest, ¬Below sub.1 path rest) :
    anonymizePath path substitutions = path := by
  induction substitutions with
  | nil => rfl
  | cons sub substitutions ih =>
    rw [anonymizePath_not_below (h sub List.mem_cons_self)]
    exact ih fun other hother => h other (List.mem_cons_of_mem sub hother)

theorem Below.unique {root root' path rest rest' : String} (h : Below root path rest)
    (h' : Below root' path rest') (hlength : root.length = root'.length) : rest = rest' := by
  have hpath : root ++ rest = root' ++ rest' := h.1.symm.trans h'.1
  rw [← String.toList_inj, String.toList_append, String.toList_append] at hpath
  rw [← String.toList_inj]
  exact (List.append_inj hpath hlength).2

theorem anonymizePath_longest {root placeholder path rest : String}
    {substitutions : List (String × String)} (hroot : root ≠ "") (hbelow : Below root path rest)
    (hmem : root ∈ substitutions.map Prod.fst)
    (hplaceholder : ∀ sub ∈ substitutions, sub.2 = placeholder)
    (hsorted : substitutions.Pairwise fun a b => b.1.length ≤ a.1.length)
    (hlongest : ∀ sub ∈ substitutions, ∀ rest', Below sub.1 path rest' →
      sub.1.length ≤ root.length) :
    anonymizePath path substitutions = placeholder ++ rest := by
  induction substitutions with
  | nil => exact absurd hmem List.not_mem_nil
  | cons sub substitutions ih =>
    rcases sub with ⟨first, text⟩
    have htext : text = placeholder := hplaceholder _ List.mem_cons_self
    rw [List.pairwise_cons] at hsorted
    by_cases hfirst : first ≠ "" ∧ ∃ rest', Below first path rest'
    · rcases hfirst with ⟨hne, rest', hrest'⟩
      have hle : first.length ≤ root.length := hlongest _ List.mem_cons_self rest' hrest'
      have hge : root.length ≤ first.length := by
        rcases List.mem_cons.mp hmem with hhead | htail
        · rw [hhead]
        · rcases List.mem_map.mp htail with ⟨sub, hsub, rfl⟩
          exact hsorted.1 sub hsub
      rw [anonymizePath_below hne hrest', htext,
        hrest'.unique hbelow (Nat.le_antisymm hle hge)]
    · have hskip : first ≠ "" → ∀ rest', ¬Below first path rest' := by
        intro hne rest' hrest'
        exact hfirst ⟨hne, rest', hrest'⟩
      rw [anonymizePath_not_below hskip]
      apply ih _ _ hsorted.2
      · intro other hother
        exact hlongest other (List.mem_cons_of_mem _ hother)
      · rcases List.mem_cons.mp hmem with hhead | htail
        · rw [hhead] at hroot hbelow
          exact absurd hbelow (hskip hroot rest)
        · exact htail
      · intro other hother
        exact hplaceholder other (List.mem_cons_of_mem _ hother)

theorem mem_pathSubs {libraries : List Library} {sub : String × String} :
    sub ∈ pathSubs libraries ↔ ∃ lib ∈ libraries, (rstripSlash lib.rootPath, "<library>") = sub := by
  rw [pathSubs, List.mem_mergeSort, List.mem_map]

theorem pathSubs_sorted (libraries : List Library) :
    (pathSubs libraries).Pairwise fun a b => b.1.length ≤ a.1.length := by
  have hsorted : (pathSubs libraries).Pairwise fun a b =>
      decide (b.1.length ≤ a.1.length) = true := by
    apply List.pairwise_mergeSort
    · intro a b c hab hbc
      simp only [decide_eq_true_eq] at hab hbc ⊢
      omega
    · intro a b
      simp only [Bool.or_eq_true, decide_eq_true_eq]
      omega
  simpa only [decide_eq_true_eq] using hsorted

theorem Uncovered.anonymizePath_eq {libraries : List Library} {path : String}
    (h : Uncovered libraries path) : anonymizePath path (pathSubs libraries) = path := by
  apply anonymizePath_eq_self
  intro sub hsub hne
  rcases mem_pathSubs.mp hsub with ⟨lib, hlib, rfl⟩
  exact h lib hlib hne

theorem Innermost.anonymizePath_eq {libraries : List Library} {lib : Library} {path rest : String}
    (h : Innermost libraries lib path rest) (hroot : rstripSlash lib.rootPath ≠ "") :
    anonymizePath path (pathSubs libraries) = "<library>" ++ rest := by
  apply anonymizePath_longest hroot h.within
  · apply List.mem_map.mpr
    exact ⟨_, mem_pathSubs.mpr ⟨lib, h.mem, rfl⟩, rfl⟩
  · intro sub hsub
    rcases mem_pathSubs.mp hsub with ⟨other, -, rfl⟩
    rfl
  · exact pathSubs_sorted libraries
  · intro sub hsub
    rcases mem_pathSubs.mp hsub with ⟨other, hother, rfl⟩
    exact h.inner other hother

theorem Innermost.uncovered {libraries : List Library} {lib : Library} {path rest : String}
    (h : Innermost libraries lib path rest) (hroot : rstripSlash lib.rootPath = "") :
    Uncovered libraries path := by
  intro other hother hne rest' hrest'
  have hlength := h.inner other hother rest' hrest'
  rw [hroot, String.length_empty, Nat.le_zero, String.length_eq_zero_iff] at hlength
  exact hne hlength

theorem Outside.uncovered {libraries : List Library} {path : String}
    (h : Outside libraries path) : Uncovered libraries path := by
  intro lib hlib _
  exact h lib hlib

theorem Below.root_unique {root root' path rest : String} (h : Below root path rest)
    (h' : Below root' path rest) : root = root' := by
  have hpath : root ++ rest = root' ++ rest := h.1.symm.trans h'.1
  rw [← String.toList_inj, String.toList_append, String.toList_append] at hpath
  rw [← String.toList_inj]
  exact List.append_cancel_right hpath

theorem SameFile.anonymizePath_eq {m : Mounts} {libraries : List Library} {path path' : String}
    (h : SameFile m libraries path path')
    (hkept : Uncovered libraries path ∨ Uncovered (libraries.map m.library) path' →
      path' = path) :
    anonymizePath path' (pathSubs (libraries.map m.library)) =
      anonymizePath path (pathSubs libraries) := by
  cases h with
  | inLibrary lib rest before after =>
    have hroots : path' = path → rstripSlash (m.library lib).rootPath = rstripSlash lib.rootPath := by
      intro hsame
      have hafter : Within (m.library lib) path rest := hsame ▸ after.within
      exact hafter.root_unique before.within
    by_cases hroot : rstripSlash lib.rootPath = ""
    · have hbefore := before.uncovered hroot
      have hsame := hkept (.inl hbefore)
      have hafter := after.uncovered ((hroots hsame).trans hroot)
      rw [hafter.anonymizePath_eq, hbefore.anonymizePath_eq, hsame]
    · by_cases hroot' : rstripSlash (m.library lib).rootPath = ""
      · have hsame := hkept (.inr (after.uncovered hroot'))
        exact absurd ((hroots hsame).symm.trans hroot') hroot
      · rw [before.anonymizePath_eq hroot, after.anonymizePath_eq hroot']
  | outside directory directory' rest before after =>
    rw [after.uncovered.anonymizePath_eq, before.uncovered.anonymizePath_eq]
    exact hkept (.inl before.uncovered)
  | unmoved _ before after =>
    rw [after.uncovered.anonymizePath_eq, before.uncovered.anonymizePath_eq]

/-! ### Two states -/

/-- The same row in the other state. -/
def Mounts.row (m : Mounts) (row : FileRow) : FileRow :=
  { row with sourcePath := m.path row.sourcePath }

section Remounting

variable {config : Option (List (String × PyValue))} {now : Timestamp} {m : Mounts} {s s' : Store}

theorem mem_of_recent {e : PlaybackEvent} (he : e ∈ recentEvents now s) : e ∈ s.events :=
  List.mem_of_mem_filter he

theorem mem_fileRows {row : FileRow} : row ∈ fileRows now s ↔
    ∃ e ∈ recentEvents now s, row = fileRow (recentEvents now s) e.sourcePath := by
  simp only [fileRows, List.mem_map, List.mem_dedup]
  constructor
  · rintro ⟨_, ⟨e, he, rfl⟩, rfl⟩
    exact ⟨e, he, rfl⟩
  · rintro ⟨e, he, rfl⟩
    exact ⟨_, ⟨e, he, rfl⟩, rfl⟩

namespace Remounted

variable (h : Remounted m s s')
include h

theorem recentEvents_eq : recentEvents now s' = (recentEvents now s).map m.event := by
  rw [recentEvents, h.events, List.filter_map]
  rfl

theorem fileRow_eq {e : PlaybackEvent} (he : e ∈ recentEvents now s) :
    fileRow (recentEvents now s') (m.path e.sourcePath) =
      m.row (fileRow (recentEvents now s) e.sourcePath) := by
  have hpath : ∀ f ∈ recentEvents now s,
      m.path f.sourcePath = m.path e.sourcePath ↔ f.sourcePath = e.sourcePath := by
    intro f hf
    constructor
    · exact h.apart f (mem_of_recent hf) e (mem_of_recent he)
    · intro hsame
      exact congrArg m.path hsame
  simp only [fileRow, Mounts.row, h.recentEvents_eq, List.countP_map, FileRow.mk.injEq,
    true_and]
  constructor
  · apply List.countP_congr
    intro f hf
    simp only [Function.comp_apply, decide_eq_true_eq, Mounts.event, hpath f hf]
  · apply List.countP_congr
    intro f hf
    simp only [Function.comp_apply, decide_eq_true_eq, Mounts.event, hpath f hf]

theorem fileRows_perm : (fileRows now s').Perm ((fileRows now s).map m.row) := by
  have hpaths : ((recentEvents now s').map (·.sourcePath)).dedup.Perm
      (((recentEvents now s).map (·.sourcePath)).dedup.map m.path) := by
    apply (List.perm_ext_iff_of_nodup (List.nodup_dedup _) _).mpr
    · intro path
      simp [h.recentEvents_eq, Mounts.event]
    · apply (List.nodup_dedup _).map_on
      intro path hpath path' hpath'
      rcases List.mem_map.mp (List.mem_dedup.mp hpath) with ⟨e, he, rfl⟩
      rcases List.mem_map.mp (List.mem_dedup.mp hpath') with ⟨f, hf, rfl⟩
      exact h.apart e (mem_of_recent he) f (mem_of_recent hf)
  apply (hpaths.map (fileRow (recentEvents now s'))).trans
  rw [fileRows, List.map_map, List.map_map]
  apply List.Perm.of_eq
  apply List.map_congr_left
  intro path hpath
  rcases List.mem_map.mp (List.mem_dedup.mp hpath) with ⟨e, he, rfl⟩
  exact h.fileRow_eq he

theorem topFile_eq
    (hkept : ∀ e ∈ recentEvents now s, Uncovered s.libraries e.sourcePath ∨
      Uncovered s'.libraries (m.path e.sourcePath) → m.path e.sourcePath = e.sourcePath)
    {row : FileRow} (hrow : row ∈ fileRows now s) :
    topFile config s' (m.row row) = topFile config s row := by
  rcases mem_fileRows.mp hrow with ⟨e, he, rfl⟩
  have hpath : anonymizePath (m.path e.sourcePath) (pathSubs s'.libraries) =
      anonymizePath e.sourcePath (pathSubs s.libraries) := by
    have hkept := hkept e he
    rw [h.libraries] at hkept ⊢
    exact (h.sameFile e (mem_of_recent he)).anonymizePath_eq hkept
  simp only [topFile, Mounts.row, fileRow, hpath]

theorem sends_iff
    (hkept : ∀ e ∈ recentEvents now s, Uncovered s.libraries e.sourcePath ∨
      Uncovered s'.libraries (m.path e.sourcePath) → m.path e.sourcePath = e.sourcePath)
    (topFiles : List TopFile) : Sends config now s topFiles ↔ Sends config now s' topFiles := by
  have hsent : ∀ {answer}, Top FileRow.total topFilesLimit (fileRows now s) answer →
      (answer.map m.row).map (topFile config s') = answer.map (topFile config s) := by
    intro answer htop
    rw [List.map_map]
    apply List.map_congr_left
    intro row hrow
    exact h.topFile_eq hkept (htop.mem hrow)
  constructor
  · rintro ⟨answer, htop, rfl⟩
    have hmoved : Top FileRow.total topFilesLimit ((fileRows now s).map m.row)
        (answer.map m.row) := top_map.mpr ⟨answer, htop, rfl⟩
    exact ⟨answer.map m.row, hmoved.perm h.fileRows_perm.symm, (hsent htop).symm⟩
  · rintro ⟨answer', htop, rfl⟩
    rcases top_map.mp (htop.perm h.fileRows_perm) with ⟨answer, hanswer, rfl⟩
    exact ⟨answer, hanswer, hsent hanswer⟩

end Remounted

theorem Sends.unique {topFiles topFiles' : List TopFile}
    (hties : ((fileRows now s).map (·.total)).Nodup) (h : Sends config now s topFiles)
    (h' : Sends config now s topFiles') : topFiles = topFiles' := by
  rcases h with ⟨answer, htop, rfl⟩
  rcases h' with ⟨answer', htop', rfl⟩
  rw [htop.unique hties htop']

/-- Two states that differ only in the directories above the files, and not in a path that no
    library covers, tell the provider the same: what may be sent in one state may be sent in
    the other, and if no two files are played equally often it is one context. -/
theorem context_hides_mounts (config : Option (List (String × PyValue))) (now : Timestamp)
    (m : Mounts) (s s' : Store) (hremounted : Remounted m s s')
    (hkept : ∀ e ∈ recentEvents now s, Uncovered s.libraries e.sourcePath ∨
      Uncovered s'.libraries (m.path e.sourcePath) → m.path e.sourcePath = e.sourcePath) :
    (∀ topFiles, Sends config now s topFiles ↔ Sends config now s' topFiles) ∧
      (((fileRows now s).map (·.total)).Nodup → ∀ topFiles topFiles',
        Sends config now s topFiles → Sends config now s' topFiles' → topFiles = topFiles') := by
  have hsends : ∀ topFiles, Sends config now s topFiles ↔ Sends config now s' topFiles :=
    hremounted.sends_iff hkept
  refine ⟨hsends, ?_⟩
  intro hties topFiles topFiles' h h'
  exact h.unique hties ((hsends topFiles').mpr h')

end Remounting

/-! ### Files that give their place away -/

theorem films_nonempty : "films" ≠ "" := by
  decide

theorem shows_nonempty : "shows" ≠ "" := by
  decide

def films (rootPath : String) : Library := ⟨"films", rootPath, films_nonempty⟩

def shows (rootPath : String) : Library := ⟨"shows", rootPath, shows_nonempty⟩

def played (upstreamId sourcePath : String) : PlaybackEvent :=
  { integrationId := "plex", upstreamId := upstreamId, mediaFileId := none,
    sourcePath := sourcePath, deviceKind := none, deviceName := none,
    decision := "direct_play", sourceCodec := none, sourceBitrateKbps := none,
    sourceWidth := none, sourceHeight := none, startedAt := 0 }

/-- One file, played once. -/
def oneFile (libraries : List Library) (path : String) : Store :=
  ⟨libraries, [played "1" path]⟩

/-- All libraries and all files at one place. -/
def movedTo (rootPath path : String) : Mounts :=
  ⟨fun _ => rootPath, fun _ => path⟩

theorem sends_oneFile {libraries : List Library} {path : String} {topFiles : List TopFile} :
    Sends none 0 (oneFile libraries path) topFiles ↔
      topFiles = [⟨anonymizePath path (pathSubs libraries), 1, 0⟩] := by
  have hrows : fileRows 0 (oneFile libraries path) = [⟨path, 1, 0⟩] := by
    simp [fileRows, recentEvents, oneFile, played, fileRow, seconds]
  rw [Sends, hrows]
  constructor
  · rintro ⟨_, ⟨ordered, hordered, -, rfl⟩, rfl⟩
    rw [List.perm_singleton.mp hordered]
    rfl
  · rintro rfl
    exact ⟨_, ⟨_, List.Perm.refl _, List.pairwise_singleton _ _, rfl⟩, rfl⟩

theorem remounted_oneFile {libraries : List Library} {rootPath path path' : String}
    (h : SameFile (movedTo rootPath path') libraries path path') :
    Remounted (movedTo rootPath path') (oneFile libraries path)
      (oneFile (libraries.map (movedTo rootPath path').library) path') where
  libraries := rfl
  events := rfl
  sameFile := by
    intro e he
    rw [List.mem_singleton.mp he]
    exact h
  apart := by
    intro e he f hf _
    rw [List.mem_singleton.mp he, List.mem_singleton.mp hf]

theorem innermost_single {lib : Library} {path rest : String} (h : Within lib path rest) :
    Innermost [lib] lib path rest where
  mem := List.mem_singleton_self lib
  within := h
  inner := by
    intro other hother _ _
    rw [List.mem_singleton.mp hother]

/-- A library within another, and a file in no library, before and after the libraries are
    mounted apart. -/
def mediaStore : Store :=
  ⟨[shows "/mnt/media/", films "/mnt/media/films"],
    [played "1" "/mnt/media/films/a.mkv", played "2" "/mnt/media/b.mkv", played "3" "/tmp/c.mkv"]⟩

def mountedApart : Store :=
  ⟨[shows "/data", films "/srv/films/"],
    [played "1" "/srv/films/a.mkv", played "2" "/data/b.mkv", played "3" "/tmp/c.mkv"]⟩

def apartPath (path : String) : String :=
  if path = "/mnt/media/films/a.mkv" then "/srv/films/a.mkv"
  else if path = "/mnt/media/b.mkv" then "/data/b.mkv"
  else path

def mountsApart : Mounts where
  root := fun lib => if lib.id = "shows" then "/data" else "/srv/films/"
  path := apartPath

theorem innermost_of {libraries : List Library} {lib : Library} {path below : String}
    (hmem : lib ∈ libraries) (hpath : path = rstripSlash lib.rootPath ++ ("/" ++ below))
    (hinner : ∀ other ∈ libraries,
      ((rstripSlash other.rootPath).toList ++ ['/']).isPrefixOf path.toList = true ∨
        path = rstripSlash other.rootPath →
      (rstripSlash other.rootPath).length ≤ (rstripSlash lib.rootPath).length) :
    Innermost libraries lib path ("/" ++ below) where
  mem := hmem
  within := ⟨hpath, .inr ⟨below, rfl⟩⟩
  inner := by
    intro other hother rest' hrest'
    exact hinner other hother (below_iff.mp ⟨rest', hrest'⟩)

theorem mediaStore_remounted : Remounted mountsApart mediaStore mountedApart where
  libraries := by decide +kernel
  events := by decide +kernel
  sameFile := by
    intro e he
    simp only [mediaStore, List.mem_cons, List.not_mem_nil, or_false] at he
    rcases he with rfl | rfl | rfl
    · apply SameFile.inLibrary (films "/mnt/media/films") ("/" ++ "a.mkv")
      · exact innermost_of (by decide +kernel) (by decide +kernel) (by decide +kernel)
      · exact innermost_of (by decide +kernel) (by decide +kernel) (by decide +kernel)
    · apply SameFile.inLibrary (shows "/mnt/media/") ("/" ++ "b.mkv")
      · exact innermost_of (by decide +kernel) (by decide +kernel) (by decide +kernel)
      · exact innermost_of (by decide +kernel) (by decide +kernel) (by decide +kernel)
    · exact .unmoved "/tmp/c.mkv" (by decide +kernel) (by decide +kernel)
  apart := by decide +kernel

theorem context_hides_mounts_media :
    (∀ topFiles, Sends none 0 mediaStore topFiles ↔ Sends none 0 mountedApart topFiles) ∧
      (((fileRows 0 mediaStore).map (·.total)).Nodup → ∀ topFiles topFiles',
        Sends none 0 mediaStore topFiles → Sends none 0 mountedApart topFiles' →
          topFiles = topFiles') := by
  apply context_hides_mounts none 0 mountsApart mediaStore mountedApart mediaStore_remounted
  decide +kernel

/-- The path of a file outside of the libraries is sent as it is, and so is that of a file in
    a library mounted at the root of the file system. -/
theorem context_shows_mounts :
    (¬∀ (config : Option (List (String × PyValue))) (now : Timestamp) (m : Mounts) (s s' : Store),
      sendPathsExternal config = true → Remounted m s s' →
        ∀ topFiles, Sends config now s topFiles ↔ Sends config now s' topFiles) ∧
    ¬∀ (config : Option (List (String × PyValue))) (now : Timestamp) (m : Mounts) (s s' : Store),
      sendPathsExternal config = true → Remounted m s s' →
        (∀ e ∈ s.events, ∃ lib rest, Innermost s.libraries lib e.sourcePath rest) →
        ∀ topFiles, Sends config now s topFiles ↔ Sends config now s' topFiles := by
  constructor
  · intro hhidden
    have hsame : SameFile (movedTo "" "/srv/films/film.mkv") [] "/mnt/films/film.mkv"
        "/srv/films/film.mkv" := by
      apply SameFile.outside "/mnt" "/srv" "films/film.mkv"
      · intro lib hlib
        exact absurd hlib List.not_mem_nil
      · intro lib hlib
        exact absurd hlib List.not_mem_nil
    have hsent := (hhidden none 0 _ _ _ rfl (remounted_oneFile hsame) _).mp
      (sends_oneFile.mpr rfl)
    exact absurd (sends_oneFile.mp hsent) (by decide +kernel)
  · intro hhidden
    have hroot : Within (films "/") "/films/film.mkv" "/films/film.mkv" :=
      ⟨by decide +kernel, .inr ⟨"films/film.mkv", by decide +kernel⟩⟩
    have hmount : Within (films "/mnt") "/mnt/films/film.mkv" "/films/film.mkv" :=
      ⟨by decide +kernel, .inr ⟨"films/film.mkv", by decide +kernel⟩⟩
    have hsame : SameFile (movedTo "/mnt" "/mnt/films/film.mkv") [films "/"] "/films/film.mkv"
        "/mnt/films/film.mkv" :=
      .inLibrary (films "/") "/films/film.mkv" (innermost_single hroot) (innermost_single hmount)
    have hin : ∀ e ∈ (oneFile [films "/"] "/films/film.mkv").events,
        ∃ lib rest, Innermost [films "/"] lib e.sourcePath rest := by
      intro e he
      rw [List.mem_singleton.mp he]
      exact ⟨films "/", "/films/film.mkv", innermost_single hroot⟩
    have hsent := (hhidden none 0 _ _ _ rfl (remounted_oneFile hsame) hin _).mp
      (sends_oneFile.mpr rfl)
    exact absurd (sends_oneFile.mp hsent) (by decide +kernel)

end AiContext
