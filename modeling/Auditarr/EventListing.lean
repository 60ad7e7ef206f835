/-
  Auditarr/EventListing.lean
  ==========================
  **The listing of playback events** (`app/services/playback/stats.py`).

  `list_events` joins the events with their integration, file and library, keeps those that
  its filter lets through and returns one page of them, the latest first.  Nothing decides
  between events that started at the same time, so a page may take them in another order than
  the page before it: the pages hold every event once iff no page ends between two of them
  (`pages_partition_iff`).
-/
import Auditarr.Paging
import Auditarr.PlaybackPoller
import Auditarr.SqlJoin

namespace EventListing

open KeyedTable Paging SqlJoin
open Database (MediaFile)
open PlaybackPoller (PlaybackEvent Timestamp)

/-- A row of `integrations` or `libraries`, as far as the listing reads it. -/
structure Named where
  id : String
  name : String

/-- The tables that the listing reads. -/
structure Store where
  events : Table PlaybackEvent.key
  integrations : Table Named.id
  media : Table MediaFile.id
  libraries : Table Named.id

structure PlaybackFilter where
  libraryId : Option String := none
  integrationId : Option String := none
  mediaFileId : Option String := none
  decision : Option String := none
  deviceKind : Option String := none
  since : Option Timestamp := none
  until' : Option Timestamp := none
  offset : Int := 0
  limit : Int := 50

structure PlaybackEventRow where
  event : PlaybackEvent
  integrationName : Option String
  libraryId : Option String
  libraryName : Option String

structure PlaybackEventPage where
  items : List PlaybackEventRow
  total : Nat
  offset : Nat
  limit : Nat

/-! ### The statement -/

section Statement

variable (s : Store) (filt : PlaybackFilter)

/-- The events with their integration and, where there is one, their file. -/
def withFile : List ((PlaybackEvent × Named) × Option MediaFile) :=
  leftOuter (fun row file => row.1.mediaFileId == some file.id)
    (inner (fun e integration => some e.integrationId == some integration.id)
      s.events.rows s.integrations.rows) s.media.rows

/-- The joins of the listing. -/
def base : List (((PlaybackEvent × Named) × Option MediaFile) × Option Named) :=
  leftOuter (fun row library => row.2.map (·.libraryId) == some library.id)
    (withFile s) s.libraries.rows

/-- A text that is given and not empty is what the column has. -/
def asked (value column : Option String) : Bool :=
  match value with
  | none => true
  | some v => v = "" || column == some v

/-- `_apply_filters`. -/
def applyFilters (e : PlaybackEvent) (file : Option MediaFile) : Bool :=
  asked filt.integrationId (some e.integrationId) && asked filt.mediaFileId e.mediaFileId &&
    asked filt.libraryId (file.map (·.libraryId)) && asked filt.decision (some e.decision) &&
    asked filt.deviceKind e.deviceKind && filt.since.all (fun since => since ≤ e.startedAt) &&
    filt.until'.all fun until' => e.startedAt ≤ until'

/-- The rows that the listing is of. -/
def selected : List PlaybackEventRow :=
  ((base s).filter fun row => applyFilters filt row.1.1.1 row.1.2).map fun row =>
    ⟨row.1.1.1, some row.1.1.2.name, row.1.2.map (·.libraryId), row.2.map (·.name)⟩

/-- `total`. -/
def total : Nat := (withFile s).countP fun row => applyFilters filt row.1.1 row.2

/-- `MAX_LIMIT`. -/
def maxLimit : Int := 500

/-- The size of a page. -/
def pageLimit : Nat := (min (max 1 filt.limit) maxLimit).toNat

/-- `ORDER BY started_at DESC`. -/
def Latest (a b : PlaybackEventRow) : Prop := b.event.startedAt ≤ a.event.startedAt

/-- What `list_events` may return.  The database may take rows that started at one time in any
    order, and for each page in another. -/
def Lists (page : PlaybackEventPage) : Prop :=
  page.offset = (max 0 filt.offset).toNat ∧ page.limit = pageLimit filt ∧
    page.total = total s filt ∧ Page Latest (selected s filt) page.offset page.limit page.items

/-! ### Which events match -/

/-- The file of an event, where it was found. -/
def fileOf (e : PlaybackEvent) : Option MediaFile :=
  s.media.rows.find? fun file => e.mediaFileId == some file.id

/-- The event has its integration and passes the filter. -/
def isMatch (e : PlaybackEvent) : Bool :=
  (s.integrations.find? e.integrationId).isSome && applyFilters filt e (fileOf s e)

/-- The events that match. -/
def matching : List PlaybackEvent := s.events.rows.filter (isMatch s filt)

/-- The promise: the pages, one after another, hold every event that matches once. -/
def Partitioned : Prop :=
  ∀ pages : Nat → PlaybackEventPage,
    (∀ k : Nat, Lists s { filt with offset := (k * pageLimit filt : Nat) } (pages k)) →
    ∀ n, (matching s filt).length ≤ n * pageLimit filt →
      ((List.range n).flatMap fun k => (pages k).items.map (·.event)).Perm (matching s filt)

end Statement

/-! ### The rows of the listing -/

section Rows

variable {s : Store} {filt : PlaybackFilter}

theorem withFile_eq : withFile s = (s.events.rows.filterMap fun e =>
    (s.integrations.find? e.integrationId).map fun integration => (e, integration)).map
      fun row => (row, fileOf s row.1) := by
  have hintegrations : OnKey (fun (e : PlaybackEvent) (integration : Named) =>
      some e.integrationId == some integration.id) s.integrations.rows :=
    onKey_of_nodup s.integrations.unique
  have hmedia : OnKey (fun (row : PlaybackEvent × Named) (file : MediaFile) =>
      row.1.mediaFileId == some file.id) s.media.rows :=
    onKey_of_nodup s.media.unique
  rw [withFile, leftOuter_eq hmedia, inner_eq hintegrations]
  have hfind : ∀ e : PlaybackEvent, s.integrations.rows.find? (fun integration =>
      some e.integrationId == some integration.id) = s.integrations.find? e.integrationId := by
    intro e
    rw [Table.find?]
    congr 1
    funext integration
    rw [Bool.eq_iff_iff, Option.some_beq_some, beq_iff_eq, decide_eq_true_eq]
    exact eq_comm
  simp only [hfind]
  rfl

theorem base_eq : ∃ library : (PlaybackEvent × Named) × Option MediaFile → Option Named,
    base s = (withFile s).map fun row => (row, library row) := by
  have hlibraries : OnKey (fun (row : (PlaybackEvent × Named) × Option MediaFile)
      (library : Named) => row.2.map (·.libraryId) == some library.id) s.libraries.rows :=
    onKey_of_nodup s.libraries.unique
  exact ⟨_, leftOuter_eq hlibraries⟩

theorem passing_eq : ((withFile s).filter fun row => applyFilters filt row.1.1 row.2).map
    (fun row => row.1.1) = matching s filt := by
  rw [withFile_eq, List.filter_map, List.map_map, List.filter_filterMap, List.map_filterMap,
    matching, ← List.filterMap_eq_filter]
  apply List.filterMap_congr
  intro e _
  rw [Option.guard, isMatch]
  rcases s.integrations.find? e.integrationId with _ | integration
  · simp
  · by_cases hpass : applyFilters filt e (fileOf s e) = true
    · simp [hpass]
    · simp [hpass]

theorem selected_events : (selected s filt).map (fun row => row.event) = matching s filt := by
  obtain ⟨library, hbase⟩ := base_eq (s := s)
  rw [selected, hbase, List.map_map, List.filter_map, List.map_map]
  exact passing_eq

theorem matching_nodup : (matching s filt).Nodup := (s.events.unique.of_map _).filter _

theorem selected_nodup : (selected s filt).Nodup := by
  apply List.Nodup.of_map (fun row => row.event)
  rw [selected_events]
  exact matching_nodup

end Rows

/-! ### The pages -/

section Listing

variable {s : Store} {filt : PlaybackFilter}

/-- The latest come first: how long ago an event started rises. -/
def age (e : PlaybackEvent) : Int := -e.startedAt

theorem latest_eq : Latest = Rising fun row => age row.event := by
  funext a b
  simp [Latest, Rising, age]

theorem pageLimit_pos : 0 < pageLimit filt := by
  simp only [pageLimit, maxLimit]
  omega

theorem exists_lists : ∃ page, Lists s filt page := by
  obtain ⟨ordered, hperm, hordered⟩ :=
    exists_rising (fun row => age row.event) (selected s filt)
  rw [← latest_eq] at hordered
  let items := (ordered.drop (max 0 filt.offset).toNat).take (pageLimit filt)
  refine ⟨⟨items, total s filt, (max 0 filt.offset).toNat, pageLimit filt⟩, rfl, rfl, rfl, ?_⟩
  exact ⟨ordered, hperm, hordered, rfl⟩

theorem pages_of_lists {pages : Nat → PlaybackEventPage}
    (h : ∀ k : Nat, Lists s { filt with offset := (k * pageLimit filt : Nat) } (pages k)) :
    Pages (Rising fun row => age row.event) (selected s filt) (pageLimit filt)
      fun k => (pages k).items := by
  intro k
  obtain ⟨hoffset, hlimit, -, hpage⟩ := h k
  have hstart : (pages k).offset = k * pageLimit filt := by
    rw [hoffset, max_eq_right (Int.natCast_nonneg _), Int.toNat_natCast]
  have hsize : (pages k).limit = pageLimit filt := hlimit
  rwa [hstart, hsize, latest_eq] at hpage

theorem lists_of_pages {items : Nat → List PlaybackEventRow}
    (h : Pages (Rising fun row => age row.event) (selected s filt) (pageLimit filt) items)
    (k : Nat) :
    Lists s { filt with offset := (k * pageLimit filt : Nat) }
      ⟨items k, total s filt, k * pageLimit filt, pageLimit filt⟩ := by
  refine ⟨?_, rfl, rfl, ?_⟩
  · rw [max_eq_right (Int.natCast_nonneg _), Int.toNat_natCast]
  · rw [latest_eq]
    exact h k

theorem partitioned_iff : Partitioned s filt ↔
    ∀ items, Pages (Rising fun row => age row.event) (selected s filt) (pageLimit filt) items →
      ∀ n, (selected s filt).length ≤ n * pageLimit filt →
        (concat items n).Perm (selected s filt) := by
  have hlength : (selected s filt).length = (matching s filt).length := by
    rw [← selected_events, List.length_map]
  rw [hlength]
  constructor
  · intro hpartitioned items hitems n hn
    have hperm := hpartitioned _ (lists_of_pages hitems) n hn
    rw [← List.map_flatMap, ← selected_events] at hperm
    apply hitems.perm_of_map _ hperm
    rw [selected_events]
    exact matching_nodup
  · intro hpages pages hlists n hn
    have hperm := (hpages _ (pages_of_lists hlists) n hn).map fun row => row.event
    rwa [selected_events, concat, List.map_flatMap] at hperm

/-- The pages hold every event that matches once, whatever the order of events that started at
    one time, iff no page ends between two of those. -/
theorem pages_partition_iff (s : Store) (filt : PlaybackFilter) :
    (∀ offset, ∃ page, Lists s { filt with offset := offset } page) ∧
      (Partitioned s filt ↔ Unsplit age (matching s filt) (pageLimit filt)) := by
  refine ⟨fun offset => exists_lists, ?_⟩
  rw [partitioned_iff, partition_iff selected_nodup pageLimit_pos, unsplit_map, selected_events]

end Listing

/-! ### Two plays of one second -/

/-- An event that a poll found. -/
def playOf (upstreamId : String) : PlaybackEvent where
  integrationId := "i1"
  upstreamId := upstreamId
  mediaFileId := none
  sourcePath := "/tv/a.mkv"
  deviceKind := none
  deviceName := none
  decision := "transcode"
  sourceCodec := none
  sourceBitrateKbps := none
  sourceWidth := none
  sourceHeight := none
  startedAt := 0

theorem twoPlays_unique :
    ([playOf "1", playOf "2"].map PlaybackEvent.key).Nodup := by decide

/-- Two events that started at the same time. -/
def twoPlays : Store where
  events := ⟨[playOf "1", playOf "2"], twoPlays_unique⟩
  integrations := ⟨[⟨"i1", "Plex"⟩], List.nodup_singleton _⟩
  media := Table.empty
  libraries := Table.empty

/-- On pages of one event, one of the two may come twice and the other not at all. -/
theorem twoPlays_not_partitioned : ¬Partitioned twoPlays { limit := 1 } := by
  rw [partitioned_iff, partition_iff selected_nodup pageLimit_pos, unsplit_map, selected_events]
  intro hunsplit
  have hfirst := hunsplit (playOf "1") (by decide)
  revert hfirst
  decide

end EventListing
