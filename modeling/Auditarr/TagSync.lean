/-
  Auditarr/TagSync.lean
  =====================
  **Tags from integrations** (`app/integrations/tag_sync.py`).

  A sync of one integration makes the tag rows of its source those that the integration
  wants.  The source is the kind of the integration, and others of the same kind write
  there too: what remains after any order of syncs is what the last one wants.
-/
import Auditarr.Database
import Auditarr.PathMappings
import Auditarr.Runs
import Mathlib.Data.List.Dedup

namespace TagSync

open KeyedTable Database PathMappings Runs
open PyValues (strip)

/-! ### The sync -/

/-- `TagSync`: one tag entry of an upstream service. -/
structure Entry where
  mediaPath : String
  tag : String
deriving DecidableEq

/-- An integration, with the tags that its provider reports. -/
structure Source where
  id : String
  kind : String
  tagAllowlist : List String
  tagDenylist : List String
  tags : List Entry

/-- `TagSyncReport`. -/
structure TagSyncReport where
  integrationId : String
  inserted : Nat
  removed : Nat
  skippedNoPath : Nat
  titleCount : Nat

structure TagRuntime where
  /-- `str.lower`. -/
  lower : String → String
  /-- `path LIKE pattern`. -/
  like : String → String → Bool

section Sync

variable (rt : TagRuntime)

/-- The texts of a list, to be compared with. -/
def lowered (names : List String) : List String :=
  (names.filter (· ≠ "")).map fun name => rt.lower (strip name)

/-- `_filter_tags_by_lists`. -/
def filterTagsByLists (tags : List Entry) (allowlist denylist : List String) : List Entry :=
  if allowlist = [] ∧ denylist = [] then tags
  else tags.filter fun entry =>
    let tag := rt.lower (strip entry.tag)
    (decide (lowered rt allowlist = []) || decide (tag ∈ lowered rt allowlist)) &&
      !decide (tag ∈ lowered rt denylist)

/-- The entries that the lists let through. -/
def Source.entries (i : Source) : List Entry := filterTagsByLists rt i.tags i.tagAllowlist i.tagDenylist

/-- The directory of a title, with a slash at its end. -/
def Entry.directory (entry : Entry) : String := rstripSlash entry.mediaPath ++ "/"

/-- `desired`: the files and tags that the integration wants. -/
def desired (t : Tables) (i : Source) : List (String × String) :=
  (i.entries rt).flatMap fun entry =>
    if entry.mediaPath = "" then []
    else (t.media.rows.filter fun m => rt.like m.path (entry.directory ++ "%")).map fun m => (m.id, entry.tag)

/-- `(row.media_file_id, row.name)`. -/
def pairOf (row : MediaTag) : String × String := (row.mediaFileId, row.name)

/-- The rows of the source. -/
def existing (t : Tables) (source : String) : List MediaTag :=
  t.tags.rows.filter fun row => row.source = source

def toInsert (t : Tables) (i : Source) : List (String × String) :=
  (desired rt t i).dedup.filter fun pair => pair ∉ (existing t i.kind).map pairOf

/-- The row is one of the source that is not wanted. -/
def obsolete (t : Tables) (i : Source) (row : MediaTag) : Bool :=
  decide (row.source = i.kind) && !decide (pairOf row ∈ desired rt t i)

/-- `apply`: the report, and the tables once they are flushed. -/
def apply (t : Tables) (i : Source) : TagSyncReport × Tables :=
  let kept := t.tags.erase (obsolete rt t i)
  let inserted := toInsert rt t i
  ({ integrationId := i.id
     inserted := inserted.length
     removed := (t.tags.rows.filter (obsolete rt t i)).length
     skippedNoPath := ((i.entries rt).filter fun entry => entry.mediaPath = "").length
     titleCount := (((i.entries rt).map Entry.mediaPath).filter (· ≠ "")).dedup.length },
    { t with tags := inserted.foldl (fun tags pair => tags.upsert ⟨pair.1, pair.2, i.kind⟩) kept })

/-- The tables after a sync. -/
def synced (t : Tables) (i : Source) : Tables := (apply rt t i).2

variable {rt} {t : Tables} {i : Source} {row : MediaTag}

theorem mem_foldl_upsert {source : String} {pairs : List (String × String)}
    {tags : Table fun tag : MediaTag => (tag.mediaFileId, tag.name, tag.source)} :
    row ∈ pairs.foldl (fun tags pair => tags.upsert ⟨pair.1, pair.2, source⟩) tags ↔
      (row.source = source ∧ pairOf row ∈ pairs) ∨ row ∈ tags := by
  induction pairs generalizing tags with
  | nil => simp
  | cons pair rest ih =>
    rw [List.foldl_cons, ih, Table.mem_upsert]
    constructor
    · rintro (⟨hsource, hrest⟩ | rfl | ⟨hold, -⟩)
      · exact .inl ⟨hsource, List.mem_cons_of_mem _ hrest⟩
      · exact .inl ⟨rfl, List.mem_cons_self ..⟩
      · exact .inr hold
    · rintro (⟨rfl, hpair⟩ | hold)
      · rcases List.mem_cons.mp hpair with rfl | hrest
        · exact .inr (.inl rfl)
        · exact .inl ⟨rfl, hrest⟩
      · -- a row with the key of the new one is the new one
        by_cases hnew : row = ⟨pair.1, pair.2, source⟩
        · exact .inr (.inl hnew)
        · refine .inr (.inr ⟨hold, fun hkey => hnew ?_⟩)
          cases row
          simp only [Prod.mk.injEq] at hkey
          obtain ⟨rfl, rfl, rfl⟩ := hkey
          rfl

theorem mem_synced : row ∈ (synced rt t i).tags ↔
    if row.source = i.kind then pairOf row ∈ desired rt t i else row ∈ t.tags := by
  have hinsert : pairOf row ∈ toInsert rt t i ↔ pairOf row ∈ desired rt t i ∧
      ∀ row' ∈ t.tags, row'.source = i.kind → pairOf row' ≠ pairOf row := by
    simp only [toInsert, existing, List.mem_filter, List.mem_dedup, decide_eq_true_eq, List.mem_map,
      not_exists, not_and, and_imp, Table.mem_def, ne_eq]
  have hmem : row ∈ (synced rt t i).tags ↔ (row.source = i.kind ∧ pairOf row ∈ toInsert rt t i) ∨
      (row ∈ t.tags ∧ obsolete rt t i row = false) := by
    rw [synced, apply, mem_foldl_upsert, Table.mem_erase]
  rw [hmem, hinsert]
  by_cases hsource : row.source = i.kind
  · rw [if_pos hsource, and_iff_right hsource]
    simp only [obsolete, hsource, decide_true, Bool.true_and, Bool.not_eq_false', decide_eq_true_eq]
    constructor
    · rintro (⟨hwanted, -⟩ | ⟨-, hwanted⟩)
      · exact hwanted
      · exact hwanted
    · intro hwanted
      by_cases hold : row ∈ t.tags
      · exact .inr ⟨hold, hwanted⟩
      · refine .inl ⟨hwanted, fun row' hrow' hsource' hpair => hold ?_⟩
        have hsame : row' = row := by
          cases row
          cases row'
          simp only [pairOf, Prod.mk.injEq] at hpair hsource hsource'
          obtain ⟨rfl, rfl⟩ := hpair
          rw [hsource, hsource']
        exact hsame ▸ hrow'
  · rw [if_neg hsource, or_iff_right fun h => hsource h.1]
    simp [obsolete, hsource]

theorem desired_synced (i' : Source) : desired rt (synced rt t i) i' = desired rt t i' := rfl

end Sync

/-! ### Several integrations of one kind -/

section Runs

variable (rt : TagRuntime)

/-- The integration assigns the tag to the file: one of its titles has the tag, and the file
    lies under it. -/
def Assigns (i : Source) (m : MediaFile) (tag : String) : Prop :=
  ∃ entry ∈ i.entries rt, entry.mediaPath ≠ "" ∧ entry.tag = tag ∧ entry.directory.toList <+: m.path.toList

/-- What the last sync of a run wants; without one, what was there. -/
def lastWants (kind : String) (t : Tables) (run : List Source) (pair : String × String) : Prop :=
  match run.getLast? with
  | some i => pair ∈ desired rt t i
  | none => (⟨pair.1, pair.2, kind⟩ : MediaTag) ∈ t.tags

variable {rt} {t : Tables} {kind : String} {run : List Source}

theorem desired_final (i : Source) : desired rt (final (synced rt) t run) i = desired rt t i := by
  induction run generalizing t with
  | nil => rfl
  | cons i' rest ih => exact ih.trans (desired_synced i)

theorem mem_final (hkind : ∀ i ∈ run, i.kind = kind) (row : MediaTag) :
    row ∈ (final (synced rt) t run).tags ↔
      if row.source = kind then lastWants rt kind t run (pairOf row) else row ∈ t.tags := by
  induction run using List.reverseRecOn with
  | nil =>
    simp only [final, List.foldl_nil, lastWants, List.getLast?_nil, pairOf]
    split
    · rename_i hsource
      rw [← hsource]
    · exact Iff.rfl
  | append_singleton before last ih =>
    have hlast := hkind last (by simp)
    have hbefore := ih fun i hi => hkind i (List.mem_append_left _ hi)
    rw [final_append]
    simp only [final, List.foldl_cons, List.foldl_nil]
    rw [mem_synced, hlast, lastWants, List.getLast?_concat]
    split
    · rw [show before.foldl (synced rt) t = final (synced rt) t before from rfl, desired_final]
    · rename_i hother
      rw [show before.foldl (synced rt) t = final (synced rt) t before from rfl, hbefore, if_neg hother]

variable (rt t kind run) in
/-- The last sync wants what any of the integrations assigns, and nothing else. -/
structure LastSuffices (integrations : List Source) : Prop where
  covers : ∀ i ∈ integrations, ∀ m ∈ t.media, ∀ tag, Assigns rt i m tag →
    lastWants rt kind t run (m.id, tag)
  assigned : ∀ m ∈ t.media, ∀ tag, lastWants rt kind t run (m.id, tag) →
    ∃ i ∈ integrations, Assigns rt i m tag

variable (rt) in
/-- A sync leaves the tags that one of the integrations assigns. -/
def KeepsAssigned (integrations : List Source) (t : Tables) (i : Source) : Prop :=
  ∀ j ∈ integrations, ∀ m ∈ t.media, ∀ tag, Assigns rt j m tag → ⟨m.id, tag, i.kind⟩ ∈ t.tags →
    ⟨m.id, tag, i.kind⟩ ∈ (synced rt t i).tags

variable (rt) in
/-- What is there and assigned by one of the integrations is wanted by the one that syncs. -/
def WantsAssigned (integrations : List Source) (t : Tables) (i : Source) : Prop :=
  ∀ j ∈ integrations, ∀ m ∈ t.media, ∀ tag, Assigns rt j m tag → ⟨m.id, tag, i.kind⟩ ∈ t.tags →
    (m.id, tag) ∈ desired rt t i

/-- After a run of syncs of all integrations of one kind the rows of other sources are as they
    were; the files carry the union of the assigned tags iff the last sync wants them all and
    no others; and no sync of the run removes an assigned tag iff each wants those that are
    there. -/
theorem union_iff (rt : TagRuntime) (t : Tables) (kind : String) (integrations run : List Source)
    (hkind : ∀ i ∈ integrations, i.kind = kind) (hrun : ∀ i, i ∈ run ↔ i ∈ integrations) :
    (∀ row : MediaTag, row.source ≠ kind → (row ∈ (final (synced rt) t run).tags ↔ row ∈ t.tags)) ∧
    ((∀ m ∈ t.media, ∀ tag, ⟨m.id, tag, kind⟩ ∈ (final (synced rt) t run).tags ↔
        ∃ i ∈ integrations, Assigns rt i m tag) ↔ LastSuffices rt t kind run integrations) ∧
    (Throughout (synced rt) (KeepsAssigned rt integrations) t run ↔
      Throughout (synced rt) (WantsAssigned rt integrations) t run) := by
  have hfinal : ∀ row : MediaTag, row ∈ (final (synced rt) t run).tags ↔
      if row.source = kind then lastWants rt kind t run (pairOf row) else row ∈ t.tags :=
    mem_final fun i hi => hkind i ((hrun i).mp hi)
  refine ⟨?_, ?_, ?_⟩
  · intro row hother
    rw [hfinal, if_neg hother]
  · have hrow : ∀ (m : MediaFile) tag, ⟨m.id, tag, kind⟩ ∈ (final (synced rt) t run).tags ↔
        lastWants rt kind t run (m.id, tag) := by
      intro m tag
      rw [hfinal, if_pos rfl]
      rfl
    simp only [hrow]
    constructor
    · intro hunion
      constructor
      · intro i hi m hm tag hassigns
        exact (hunion m hm tag).mpr ⟨i, hi, hassigns⟩
      · intro m hm tag hwants
        exact (hunion m hm tag).mp hwants
    · rintro ⟨hcovers, hassigned⟩ m hm tag
      constructor
      · exact hassigned m hm tag
      · rintro ⟨i, hi, hassigns⟩
        exact hcovers i hi m hm tag hassigns
  · apply throughout_congr
    intro s i
    simp only [KeepsAssigned, WantsAssigned, mem_synced, if_true, pairOf]

end Runs

/-! ### Two services that tag one show -/

/-- The pattern without its `%` is how the path begins. -/
def prefixRuntime : TagRuntime :=
  ⟨id, fun path pattern => decide (pattern.toList.dropLast <+: path.toList)⟩

def animeService : Source := ⟨"i1", "sonarr", [], [], [⟨"/tv/Show", "anime"⟩]⟩

def kidsService : Source := ⟨"i2", "sonarr", [], [], [⟨"/tv/Show/", "kids"⟩]⟩

def showEpisode : MediaFile := .unprobed "m1" "l1" "/tv/Show/e1.mkv" "mkv"

def oneEpisode : Tables :=
  { Tables.empty with
    media := ⟨[showEpisode], List.nodup_singleton _⟩
    media_path_unique := List.nodup_singleton _ }

theorem assigns_animeService {tag : String} :
    Assigns prefixRuntime animeService showEpisode tag ↔ tag = "anime" := by
  constructor
  · rintro ⟨entry, hentry, -, rfl, -⟩
    cases List.mem_singleton.mp hentry
    rfl
  · rintro rfl
    exact ⟨_, List.mem_singleton.mpr rfl, by decide, rfl, by decide⟩

/-- It has the show with the tag of the first service and another. -/
def uhdService : Source :=
  ⟨"i3", "sonarr", [], [], [⟨"/tv/Show", "anime"⟩, ⟨"/tv/Show", "uhd"⟩]⟩

theorem desired_uhdService :
    desired prefixRuntime oneEpisode uhdService = [("m1", "anime"), ("m1", "uhd")] := by
  decide

theorem assigns_uhdService {tag : String} :
    Assigns prefixRuntime uhdService showEpisode tag ↔ tag = "anime" ∨ tag = "uhd" := by
  constructor
  · rintro ⟨entry, hentry, -, rfl, -⟩
    rcases List.mem_pair.mp hentry with rfl | rfl
    · exact .inl rfl
    · exact .inr rfl
  · rintro (rfl | rfl)
    · exact ⟨⟨"/tv/Show", "anime"⟩, by decide, by decide, rfl, by decide⟩
    · exact ⟨⟨"/tv/Show", "uhd"⟩, by decide, by decide, rfl, by decide⟩

/-- The service that has all tags is the last to sync. -/
theorem union_iff_uhdService :
    {tag | ⟨"m1", tag, "sonarr"⟩ ∈
      (final (synced prefixRuntime) oneEpisode [animeService, uhdService]).tags} =
    {tag | ∃ i ∈ [animeService, uhdService], Assigns prefixRuntime i showEpisode tag} := by
  obtain ⟨-, hunion, -⟩ := union_iff prefixRuntime oneEpisode "sonarr" [animeService, uhdService]
    [animeService, uhdService] (by simp [animeService, uhdService]) fun _ => Iff.rfl
  refine Set.ext (hunion.mpr ⟨?_, ?_⟩ showEpisode (.head _))
  · intro i hi m hm tag hassigns
    cases List.mem_singleton.mp hm
    change _ ∈ desired prefixRuntime oneEpisode uhdService
    rw [desired_uhdService]
    rcases List.mem_pair.mp hi with rfl | rfl
    · rw [assigns_animeService.mp hassigns]
      exact List.mem_cons_self
    · rcases assigns_uhdService.mp hassigns with rfl | rfl
      · exact List.mem_cons_self
      · exact List.mem_cons_of_mem _ List.mem_cons_self
  · intro m hm tag hwants
    cases List.mem_singleton.mp hm
    change _ ∈ desired prefixRuntime oneEpisode uhdService at hwants
    rw [desired_uhdService] at hwants
    refine ⟨uhdService, List.mem_cons_of_mem _ List.mem_cons_self, assigns_uhdService.mpr ?_⟩
    exact (List.mem_pair.mp hwants).imp (congrArg Prod.snd) (congrArg Prod.snd)

/-- The second service removes the tag of the first. -/
theorem second_service_removes : ¬((⟨"m1", "anime", "sonarr"⟩ : MediaTag) ∈
    (final (synced prefixRuntime) oneEpisode [animeService, kidsService]).tags ↔
      ∃ i ∈ [animeService, kidsService], Assigns prefixRuntime i showEpisode "anime") := by
  intro hunion
  have hrow := hunion.mpr ⟨animeService, .head _, assigns_animeService.mpr rfl⟩
  have hdesired : desired prefixRuntime oneEpisode kidsService = [("m1", "kids")] := by decide
  have hkind : ("sonarr" : String) = kidsService.kind := rfl
  have hwants := mem_synced.mp hrow
  rw [if_pos hkind] at hwants
  change _ ∈ desired prefixRuntime oneEpisode kidsService at hwants
  rw [hdesired, List.mem_singleton] at hwants
  exact absurd (congrArg Prod.snd hwants) (by decide)

end TagSync
