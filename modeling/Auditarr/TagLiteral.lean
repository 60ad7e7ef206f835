/-
  Auditarr/TagLiteral.lean
  ========================
  **Which files a title's tag reaches** (`app/integrations/tag_sync.py`).

  A sync looks for the files of a title by `path LIKE 'directory/%'`, where the directory is
  what the upstream service says.  What is below the directory is found iff the pattern reads
  as it is written: an `_` of the directory stands for any character of a path
  (`reconciled_iff_asWritten`).
-/
import Auditarr.SqlLike
import Auditarr.TagSync

namespace TagLiteral

open KeyedTable Database TagSync SqlLike

/-- The database of a deployment. -/
def sqlRuntime (lower : String → String) (d : Dialect) : TagRuntime where
  lower := lower
  like path pattern := like d path pattern

theorem sqlRuntime_like (lower : String → String) (d : Dialect) (path pattern : String) :
    (sqlRuntime lower d).like path pattern = like d path pattern := rfl

section Reconciled

variable (rt : TagRuntime) (t : Tables) (i : Source)

/-- The promise: the rows of the source are the files below the titles, with their tags, the
    other rows are as before, and a second sync has nothing to do. -/
structure Reconciled : Prop where
  rows : ∀ row : MediaTag, row.source = i.kind → (row ∈ (synced rt t i).tags ↔
    ∃ m ∈ t.media, m.id = row.mediaFileId ∧ Assigns rt i m row.name)
  others : ∀ row : MediaTag, row.source ≠ i.kind → (row ∈ (synced rt t i).tags ↔ row ∈ t.tags)
  again : (apply rt (synced rt t i) i).1.inserted = 0 ∧ (apply rt (synced rt t i) i).1.removed = 0 ∧
    synced rt (synced rt t i) i = synced rt t i

/-- The pattern of one of the titles with the tag is like the path. -/
def Reaches (m : MediaFile) (tag : String) : Prop :=
  ∃ entry ∈ i.entries rt, entry.mediaPath ≠ "" ∧ entry.tag = tag ∧
    rt.like m.path (entry.directory ++ "%") = true

/-- The patterns reach the files below their titles, and no others but those below another
    title with the same tag. -/
structure AsWritten : Prop where
  found : ∀ m ∈ t.media, ∀ tag, Assigns rt i m tag → Reaches rt i m tag
  stray : ∀ m ∈ t.media, ∀ tag, Reaches rt i m tag → Assigns rt i m tag

variable {rt t i}

theorem mem_desired {id tag : String} :
    (id, tag) ∈ desired rt t i ↔ ∃ m ∈ t.media, m.id = id ∧ Reaches rt i m tag := by
  simp only [desired, List.mem_flatMap]
  constructor
  · rintro ⟨entry, hentry, hpair⟩
    split at hpair
    · cases hpair
    · rename_i hpath
      obtain ⟨m, hm, heq⟩ := List.mem_map.mp hpair
      obtain ⟨rfl, rfl⟩ := Prod.mk.inj heq
      obtain ⟨hm, hlike⟩ := List.mem_filter.mp hm
      exact ⟨m, hm, rfl, entry, hentry, hpath, rfl, hlike⟩
  · rintro ⟨m, hm, rfl, entry, hentry, hpath, rfl, hlike⟩
    refine ⟨entry, hentry, ?_⟩
    rw [if_neg hpath]
    exact List.mem_map.mpr ⟨m, List.mem_filter.mpr ⟨hm, hlike⟩, rfl⟩

theorem eq_of_id {m m' : MediaFile} (hm : m ∈ t.media) (hm' : m' ∈ t.media) (hid : m.id = m'.id) :
    m = m' :=
  Table.eq_of_key_eq hm hm' hid

theorem obsolete_synced (row : MediaTag) (hrow : row ∈ (synced rt t i).tags) :
    obsolete rt (synced rt t i) i row = false := by
  rw [mem_synced] at hrow
  by_cases hsource : row.source = i.kind
  · rw [if_pos hsource] at hrow
    simp [obsolete, hsource, desired_synced, hrow]
  · simp [obsolete, hsource]

theorem toInsert_synced : toInsert rt (synced rt t i) i = [] := by
  rw [toInsert, List.filter_eq_nil_iff]
  intro pair hpair
  rw [List.mem_dedup, desired_synced] at hpair
  have hrow : (⟨pair.1, pair.2, i.kind⟩ : MediaTag) ∈ (synced rt t i).tags := by
    rw [mem_synced, if_pos rfl]
    exact hpair
  simp only [decide_not, Bool.not_eq_true', decide_eq_false_iff_not, not_not]
  exact List.mem_map.mpr ⟨_, List.mem_filter.mpr ⟨hrow, by simp⟩, rfl⟩

theorem synced_again : (apply rt (synced rt t i) i).1.inserted = 0 ∧
    (apply rt (synced rt t i) i).1.removed = 0 ∧ synced rt (synced rt t i) i = synced rt t i := by
  have hkept : (synced rt t i).tags.erase (obsolete rt (synced rt t i) i) = (synced rt t i).tags := by
    apply Table.ext
    apply List.filter_eq_self.mpr
    intro row hrow
    simpa using obsolete_synced row hrow
  refine ⟨?_, ?_, ?_⟩
  · simp only [apply, toInsert_synced, List.length_nil]
  · simp only [apply, List.length_eq_zero_iff, List.filter_eq_nil_iff]
    intro row hrow
    simp [obsolete_synced row hrow]
  · conv_lhs => rw [synced, apply]
    simp only [toInsert_synced, List.foldl_nil, hkept]

theorem reconciled_iff : Reconciled rt t i ↔ AsWritten rt t i := by
  constructor
  · rintro ⟨hrows, -, -⟩
    have hsame : ∀ m ∈ t.media, ∀ tag, Reaches rt i m tag ↔ Assigns rt i m tag := by
      intro m hm tag
      have hrow := hrows ⟨m.id, tag, i.kind⟩ rfl
      rw [mem_synced, if_pos rfl, pairOf, mem_desired] at hrow
      constructor
      · intro hreaches
        obtain ⟨m', hm', hid, hassigns⟩ := hrow.mp ⟨m, hm, rfl, hreaches⟩
        rwa [eq_of_id hm' hm hid] at hassigns
      · intro hassigns
        obtain ⟨m', hm', hid, hreaches⟩ := hrow.mpr ⟨m, hm, rfl, hassigns⟩
        rwa [eq_of_id hm' hm hid] at hreaches
    exact ⟨fun m hm tag => (hsame m hm tag).mpr, fun m hm tag => (hsame m hm tag).mp⟩
  · rintro ⟨hfound, hstray⟩
    refine ⟨?_, ?_, synced_again⟩
    · intro row hsource
      rw [mem_synced, if_pos hsource, pairOf, mem_desired]
      constructor
      · rintro ⟨m, hm, hid, hreaches⟩
        exact ⟨m, hm, hid, hstray m hm _ hreaches⟩
      · rintro ⟨m, hm, hid, hassigns⟩
        exact ⟨m, hm, hid, hfound m hm _ hassigns⟩
    · intro row hother
      rw [mem_synced, if_neg hother]

end Reconciled

/-- A sync keeps its promise iff the patterns read as they are written. -/
theorem reconciled_iff_asWritten (lower : String → String) (d : Dialect) (t : Tables) (i : Source) :
    Reconciled (sqlRuntime lower d) t i ↔ AsWritten (sqlRuntime lower d) t i :=
  reconciled_iff

/-! ### Titles without special characters -/

theorem asWritten_of_plain {lower : String → String} {d : Dialect}
    (hexact : ∀ c x, d.same c x = true ↔ c = x) (t : Tables) {i : Source}
    (hplain : ∀ entry ∈ i.entries (sqlRuntime lower d), ∀ c ∈ entry.directory.toList, Plain d c) :
    AsWritten (sqlRuntime lower d) t i := by
  have hsame : ∀ (m : MediaFile) tag,
      Reaches (sqlRuntime lower d) i m tag ↔ Assigns (sqlRuntime lower d) i m tag := by
    intro m tag
    apply exists_congr
    intro entry
    apply and_congr_right
    intro hentry
    have hlike : like d m.path (entry.directory ++ "%") = true ↔
        entry.directory.toList <+: m.path.toList :=
      like_begins (fun c _ x _ => hexact c x) (hplain entry hentry)
    rw [sqlRuntime_like, hlike]
  exact ⟨fun m _ tag => (hsame m tag).mpr, fun m _ tag => (hsame m tag).mp⟩

/-! ### A title with an underscore -/

def underscoreService : Source := ⟨"i1", "sonarr", [], [], [⟨"/tv/My_Show", "anime"⟩]⟩

def spacedEpisode : MediaFile := .unprobed "m1" "l1" "/tv/My Show/e1.mkv" "mkv"

def spacedTables : Tables :=
  { Tables.empty with
    media := ⟨[spacedEpisode], List.nodup_singleton _⟩
    media_path_unique := List.nodup_singleton _ }

/-- The tag of one show goes to the episodes of another. -/
theorem underscore_reaches : ¬Reconciled (sqlRuntime id postgresql) spacedTables underscoreService := by
  intro hreconciled
  have hdesired : desired (sqlRuntime id postgresql) spacedTables underscoreService =
      [("m1", "anime")] := by
    decide +kernel
  have hkind : ("sonarr" : String) = underscoreService.kind := rfl
  have hrow := hreconciled.rows ⟨"m1", "anime", "sonarr"⟩ hkind
  rw [mem_synced, if_pos hkind, hdesired] at hrow
  obtain ⟨m, hm, -, entry, hentry, -, -, hbelow⟩ := hrow.mp (List.mem_singleton.mpr rfl)
  rw [List.mem_singleton.mp hm, List.mem_singleton.mp hentry] at hbelow
  revert hbelow
  decide +kernel

end TagLiteral
