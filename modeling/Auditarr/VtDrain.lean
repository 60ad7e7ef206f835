/-
  Auditarr/VtDrain.lean
  =====================
  **Draining the VirusTotal queue** (`plugins/virustotal/backend.py`).

  A drain takes the oldest rows of the queue and looks each file up.  A row leaves the
  queue when its file or the hash is gone, when a result is written to the file, or when
  the fifth attempt has given none.  A lookup that the quota refuses answers `None` like one
  that failed, and is counted the same: a row may be given up after five drains that asked
  nobody.  In runs without refused lookups rows are given up for their failures only.
-/
import Auditarr.KeyedTable
import Auditarr.PyValues
import Auditarr.Runs
import Auditarr.VtQuota
import Mathlib.Data.List.Sort

namespace VtDrain

open KeyedTable PyValues VtQuota Runs

/-! ### The tables -/

/-- `last_analysis_stats`, as far as it is kept. -/
structure VtStats where
  malicious : Int
  suspicious : Int
  harmless : Int
  undetected : Int
deriving DecidableEq

/-- The result of a lookup. -/
structure VtResult where
  vtStatus : String
  status : String
  stats : Option VtStats
  permalink : String
  checkedAt : String
deriving DecidableEq

/-- A row of `media_files`, as far as a drain reads or writes it. -/
structure MediaFile where
  id : String
  hashSha256 : Option String
  vtStatus : Option String := none
  virustotalResult : Option VtResult := none
  virustotalCheckedAt : Option Nat := none

/-- A row of `vt_queue`. -/
structure VtQueueItem where
  mediaFileId : String
  enqueuedAt : Nat
  lastAttemptedAt : Option Nat := none
  attemptCount : Nat := 0
deriving DecidableEq

structure Tables where
  media : Table MediaFile.id
  queue : Table VtQueueItem.mediaFileId

/-! ### A lookup -/

structure Response where
  statusCode : Int
  /-- `response.json()`; `none` is its `ValueError`. -/
  json : Option PyValue

inductive HttpAnswer where
  | httpError
  | raised (exc : PyError)
  | response (r : Response)

/-- What the world adds to the visit of a row: the clock of the quota, the answer of the
    upstream and the clocks afterwards. -/
structure Occasion where
  now : Nat
  answer : HttpAnswer
  nowIso : String
  utcnow : Nat

/-- The arguments of `drain_vt_queue`. -/
structure DrainArgs where
  apiKey : String
  dailyQuota : Nat
  monthlyQuota : Nat
  batchSize : Int
  eventBus : Bool

/-- The question to the quota before a lookup. -/
def DrainArgs.quotaCall (a : DrainArgs) (o : Occasion) : Call :=
  ⟨vtMinuteCeiling, a.dailyQuota, a.monthlyQuota, a.eventBus, o.now⟩

/-- `int(stats.get(key, 0))`. -/
def statOf (stats : PyValue) (key : String) : Except PyError Int :=
  match stats with
  | .dict entries => ((entries.lookup key).getD (.int 0)).toInt
  | _ => .error (.other "AttributeError")

/-- `_classify_status`. -/
def classifyStatus (stats : PyValue) : Except PyError String := do
  let malicious ← statOf stats "malicious"
  let suspicious ← statOf stats "suspicious"
  if 0 < malicious then return "malicious"
  else if 0 < suspicious then return "suspicious"
  else return "clean"

def permalink (sha256 : String) : String := "https://www.virustotal.com/gui/file/" ++ sha256

/-- The result of a body that was decoded. -/
def resultOfBody (sha256 nowIso : String) (body : PyValue) : Except PyError VtResult := do
  let data ← body.get "data"
  let attributes ← data.orDict.get "attributes"
  let analysis ← attributes.orDict.get "last_analysis_stats"
  let stats := analysis.orDict
  let vtStatus ← classifyStatus stats
  let malicious ← statOf stats "malicious"
  let suspicious ← statOf stats "suspicious"
  let harmless ← statOf stats "harmless"
  let undetected ← statOf stats "undetected"
  return {
    vtStatus := vtStatus
    status := "ok"
    stats := some ⟨malicious, suspicious, harmless, undetected⟩
    permalink := permalink sha256
    checkedAt := nowIso }

/-- What is made of a response.  A key that is rejected, the rate limit of the upstream and
    the other errors all give `None`. -/
def resultOfResponse (sha256 nowIso : String) (r : Response) : Except PyError (Option VtResult) :=
  if r.statusCode = 404 then
    .ok (some ⟨"not_found", "not_found", none, permalink sha256, nowIso⟩)
  else if 400 ≤ r.statusCode then .ok none
  else match r.json with
    | none => .ok none
    | some body => (resultOfBody sha256 nowIso body).map some

/-- What a lookup returns, whether the upstream was asked, and the quota afterwards. -/
structure Lookup where
  result : Except PyError (Option VtResult)
  asked : Bool
  quota : QuotaState

/-- `lookup_by_hash`. -/
def lookupByHash (a : DrainArgs) (sha256 : String) (o : Occasion) (quota : QuotaState) : Lookup :=
  if a.apiKey = "" ∨ sha256 = "" then ⟨.ok none, false, quota⟩
  else
    let verdict := checkAndIncrementQuota (a.quotaCall o) quota
    if verdict.refusedBy.isSome then ⟨.ok none, false, verdict.state⟩
    else ⟨match o.answer with
      | .httpError => .ok none
      | .raised exc => .error exc
      | .response r => resultOfResponse sha256 o.nowIso r, true, verdict.state⟩

/-! ### A drain -/

/-- `VT_DRAIN_MAX_ATTEMPTS`. -/
def vtDrainMaxAttempts : Nat := 5

/-- What happens to a row. -/
inductive Visit where
  | missingFile
  | missingHash
  /-- Nobody was asked. -/
  | refused
  /-- The upstream was asked and gave nothing to persist. -/
  | failed
  | raised
  | persisted (result : VtResult)
deriving DecidableEq

/-- The counters that a drain returns. -/
structure Counters where
  examined : Nat := 0
  lookedUp : Nat := 0
  persisted : Nat := 0
  skippedMissingFile : Nat := 0
  skippedMissingHash : Nat := 0
  skippedQuotaExhausted : Nat := 0
  attemptsIncremented : Nat := 0
  rowsAbandonedMaxAttempts : Nat := 0
  rowsDeletedAfterLookup : Nat := 0

/-- What a drain works on, and what it did with the rows so far. -/
structure Working where
  tables : Tables
  quota : QuotaState
  counters : Counters := {}
  visits : List (String × Visit) := []

/-- `sql_delete` of a row of the queue. -/
def Tables.drop (t : Tables) (mediaFileId : String) : Tables :=
  { t with queue := t.queue.erase fun row => row.mediaFileId = mediaFileId }

def attempted (utcnow : Nat) (row : VtQueueItem) : VtQueueItem :=
  { row with attemptCount := row.attemptCount + 1, lastAttemptedAt := some utcnow }

theorem attempted_mediaFileId (utcnow : Nat) (row : VtQueueItem) :
    (attempted utcnow row).mediaFileId = row.mediaFileId := rfl

/-- One more attempt of a row. -/
def Tables.attempt (t : Tables) (mediaFileId : String) (utcnow : Nat) : Tables :=
  { t with
    queue := t.queue.update (fun row => row.mediaFileId = mediaFileId) (attempted utcnow)
      (attempted_mediaFileId utcnow) }

def withResult (result : VtResult) (utcnow : Nat) (m : MediaFile) : MediaFile :=
  { m with
    vtStatus := some result.vtStatus
    virustotalResult := some result
    virustotalCheckedAt := some utcnow }

theorem withResult_id (result : VtResult) (utcnow : Nat) (m : MediaFile) :
    (withResult result utcnow m).id = m.id := rfl

/-- The result of a lookup, written to its file. -/
def Tables.persist (t : Tables) (mediaFileId : String) (result : VtResult) (utcnow : Nat) : Tables :=
  { t with
    media := t.media.update (fun m => m.id = mediaFileId) (withResult result utcnow)
      (withResult_id result utcnow) }

section Drain

variable (a : DrainArgs) (world : String → Occasion)

/-- A file that is gone, or has no hash: the row goes too. -/
def skip (q : VtQueueItem) (visit : Visit) (s : Working) : Working :=
  { s with
    tables := s.tables.drop q.mediaFileId
    counters := { s.counters with
      examined := s.counters.examined + 1
      skippedMissingFile := s.counters.skippedMissingFile + if visit = .missingFile then 1 else 0
      skippedMissingHash := s.counters.skippedMissingHash + if visit = .missingHash then 1 else 0 }
    visits := s.visits ++ [(q.mediaFileId, visit)] }

/-- A lookup without a result is an attempt, and the last one gives the row up. -/
def retryOrAbandon (q : VtQueueItem) (o : Occasion) (lookup : Lookup) (s : Working) : Working :=
  let abandoned := decide (vtDrainMaxAttempts ≤ q.attemptCount + 1)
  { tables := if abandoned then s.tables.drop q.mediaFileId
      else s.tables.attempt q.mediaFileId o.utcnow
    quota := lookup.quota
    counters := { s.counters with
      examined := s.counters.examined + 1
      lookedUp := s.counters.lookedUp + 1
      attemptsIncremented := s.counters.attemptsIncremented + 1
      rowsAbandonedMaxAttempts := s.counters.rowsAbandonedMaxAttempts + if abandoned then 1 else 0
      skippedQuotaExhausted := s.counters.skippedQuotaExhausted + if abandoned then 0 else 1 }
    visits := s.visits ++ [(q.mediaFileId, if lookup.asked then .failed else .refused)] }

def persistResult (q : VtQueueItem) (o : Occasion) (lookup : Lookup) (result : VtResult)
    (s : Working) : Working where
  tables := (s.tables.persist q.mediaFileId result o.utcnow).drop q.mediaFileId
  quota := lookup.quota
  counters := { s.counters with
    examined := s.counters.examined + 1
    lookedUp := s.counters.lookedUp + 1
    persisted := s.counters.persisted + 1
    rowsDeletedAfterLookup := s.counters.rowsDeletedAfterLookup + 1 }
  visits := s.visits ++ [(q.mediaFileId, .persisted result)]

/-- The body of the loop, with the exception that leaves it. -/
def visitRow (q : VtQueueItem) (s : Working) : Working × Option PyError :=
  match s.tables.media.find? q.mediaFileId with
  | none => (skip q .missingFile s, none)
  | some media =>
      let sha256 := media.hashSha256.getD ""
      if sha256 = "" then (skip q .missingHash s, none)
      else
        let o := world q.mediaFileId
        let lookup := lookupByHash a sha256 o s.quota
        match lookup.result with
        | .error exc => ({ s with
            quota := lookup.quota, visits := s.visits ++ [(q.mediaFileId, .raised)] }, some exc)
        | .ok none => (retryOrAbandon q o lookup s, none)
        | .ok (some result) => (persistResult q o lookup result s, none)

/-- The loop. -/
def visitRows : List VtQueueItem → Working → Working × Option PyError
  | [], s => (s, none)
  | q :: rest, s => match visitRow a world q s with
    | (s', some exc) => (s', some exc)
    | (s', none) => visitRows rest s'

/-- The oldest rows, up to the batch size; a negative limit is none. -/
def queueRows (t : Tables) : List VtQueueItem :=
  let oldestFirst := t.queue.rows.insertionSort fun q q' => q.enqueuedAt ≤ q'.enqueuedAt
  if a.batchSize < 0 then oldestFirst else oldestFirst.take a.batchSize.toNat

/-- What a drain returns, commits and did. -/
structure Drained where
  result : Except PyError Counters
  tables : Tables
  quota : QuotaState
  visits : List (String × Visit)

/-- `drain_vt_queue`, where `fault` is the exception of a statement or of the commit. -/
def drainVtQueue (fault : Option PyError) (t : Tables) (quota : QuotaState) : Drained :=
  let (s, exc) := visitRows a world (queueRows a t) { tables := t, quota := quota }
  match exc.or fault with
  | some exc => ⟨.error exc, t, s.quota, s.visits⟩
  | none => ⟨.ok s.counters, s.tables, s.quota, s.visits⟩

/-! ### What a drain does to a row -/

/-- What became of a row whose file was `before`. -/
inductive Fate (q : VtQueueItem) (before : Option MediaFile) (t : Tables)
    (visits : List (String × Visit)) : Prop where
  | untouched (hrow : t.queue.find? q.mediaFileId = some q)
  | attempted (utcnow : Nat) (visit : Visit)
      (hrow : t.queue.find? q.mediaFileId = some (attempted utcnow q))
      (hvisit : visit = .refused ∨ visit = .failed) (hmem : (q.mediaFileId, visit) ∈ visits)
  | missing (hrow : t.queue.find? q.mediaFileId = none) (hfile : before = none)
  | unhashed (m : MediaFile) (hrow : t.queue.find? q.mediaFileId = none) (hfile : before = some m)
      (hhash : m.hashSha256.getD "" = "")
  | persisted (m : MediaFile) (result : VtResult) (hrow : t.queue.find? q.mediaFileId = none)
      (hfile : t.media.find? q.mediaFileId = some m) (hresult : m.virustotalResult = some result)
      (hmem : (q.mediaFileId, .persisted result) ∈ visits)
  | abandoned (visit : Visit) (hrow : t.queue.find? q.mediaFileId = none)
      (hlast : vtDrainMaxAttempts ≤ q.attemptCount + 1)
      (hvisit : visit = .refused ∨ visit = .failed) (hmem : (q.mediaFileId, visit) ∈ visits)

/-- A step leaves the row of a file and the file alone. -/
structure Beside (id : String) (s s' : Working) : Prop where
  row : s'.tables.queue.find? id = s.tables.queue.find? id
  file : s'.tables.media.find? id = s.tables.media.find? id
  visits : s.visits ⊆ s'.visits

variable {a world} {s s' s'' : Working} {q : VtQueueItem} {id : String}

theorem Beside.refl (id : String) (s : Working) : Beside id s s := ⟨rfl, rfl, List.Subset.refl _⟩

theorem Beside.trans (h : Beside id s s') (h' : Beside id s' s'') : Beside id s s'' :=
  ⟨h'.row.trans h.row, h'.file.trans h.file, List.Subset.trans h.visits h'.visits⟩

theorem Fate.beside {before : Option MediaFile} (h : Fate q before s.tables s.visits)
    (hbeside : Beside q.mediaFileId s s') : Fate q before s'.tables s'.visits := by
  obtain ⟨hrow', hfile', hvisits⟩ := hbeside
  cases h with
  | untouched hrow => exact .untouched (hrow'.trans hrow)
  | attempted utcnow visit hrow hvisit hmem =>
    exact .attempted utcnow visit (hrow'.trans hrow) hvisit (hvisits hmem)
  | missing hrow hfile => exact .missing (hrow'.trans hrow) hfile
  | unhashed m hrow hfile hhash => exact .unhashed m (hrow'.trans hrow) hfile hhash
  | persisted m result hrow hfile hresult hmem =>
    exact .persisted m result (hrow'.trans hrow) (hfile'.trans hfile) hresult (hvisits hmem)
  | abandoned visit hrow hlast hvisit hmem =>
    exact .abandoned visit (hrow'.trans hrow) hlast hvisit (hvisits hmem)

theorem find?_drop_self (t : Tables) (id : String) : (t.drop id).queue.find? id = none :=
  Table.find?_erase_self id

theorem find?_drop_other (t : Tables) (hne : id ≠ q.mediaFileId) :
    (t.drop q.mediaFileId).queue.find? id = t.queue.find? id :=
  Table.find?_erase_other hne

theorem find?_attempt_self {t : Tables} {utcnow : Nat} (hrow : t.queue.find? q.mediaFileId = some q) :
    (t.attempt q.mediaFileId utcnow).queue.find? q.mediaFileId = some (attempted utcnow q) := by
  rw [Tables.attempt, Table.find?_update, hrow]
  simp

theorem find?_attempt_other (t : Tables) {utcnow : Nat} (hne : id ≠ q.mediaFileId) :
    (t.attempt q.mediaFileId utcnow).queue.find? id = t.queue.find? id := by
  rw [Tables.attempt, Table.find?_update]
  cases hrow : t.queue.find? id with
  | none => rfl
  | some row =>
    have hid := (Table.mem_of_find? hrow).2
    simp [hid, hne]

theorem find?_persist_self {t : Tables} {m : MediaFile} {result : VtResult} {utcnow : Nat}
    (hfile : t.media.find? id = some m) :
    (t.persist id result utcnow).media.find? id = some (withResult result utcnow m) := by
  rw [Tables.persist, Table.find?_update, hfile]
  simp [(Table.mem_of_find? hfile).2]

theorem find?_persist_other (t : Tables) {result : VtResult} {utcnow : Nat}
    (hne : id ≠ q.mediaFileId) :
    (t.persist q.mediaFileId result utcnow).media.find? id = t.media.find? id := by
  rw [Tables.persist, Table.find?_update]
  cases hfile : t.media.find? id with
  | none => rfl
  | some m =>
    have hid := (Table.mem_of_find? hfile).2
    simp [hid, hne]

theorem beside_skip (visit : Visit) (hne : id ≠ q.mediaFileId) : Beside id s (skip q visit s) :=
  ⟨find?_drop_other s.tables hne, rfl, List.subset_append_left ..⟩

theorem beside_retryOrAbandon (o : Occasion) (lookup : Lookup) (hne : id ≠ q.mediaFileId) :
    Beside id s (retryOrAbandon q o lookup s) := by
  refine ⟨?_, ?_, List.subset_append_left ..⟩
  · simp only [retryOrAbandon]
    split
    · exact find?_drop_other s.tables hne
    · exact find?_attempt_other s.tables hne
  · simp only [retryOrAbandon]
    split <;> rfl

theorem beside_persistResult (o : Occasion) (lookup : Lookup) (result : VtResult)
    (hne : id ≠ q.mediaFileId) : Beside id s (persistResult q o lookup result s) :=
  ⟨find?_drop_other (s.tables.persist q.mediaFileId result o.utcnow) hne,
    find?_persist_other s.tables hne, List.subset_append_left ..⟩

/-- What the body of the loop can do. -/
inductive Visited (a : DrainArgs) (q : VtQueueItem) (s : Working) (o : Occasion) :
    Working × Option PyError → Prop where
  | missing (hfile : s.tables.media.find? q.mediaFileId = none) :
      Visited a q s o (skip q .missingFile s, none)
  | unhashed (m : MediaFile) (hfile : s.tables.media.find? q.mediaFileId = some m)
      (hhash : m.hashSha256.getD "" = "") : Visited a q s o (skip q .missingHash s, none)
  | raised (quota : QuotaState) (exc : PyError) : Visited a q s o
      ({ s with quota := quota, visits := s.visits ++ [(q.mediaFileId, .raised)] }, some exc)
  | retried (m : MediaFile) (hfile : s.tables.media.find? q.mediaFileId = some m)
      (hhash : m.hashSha256.getD "" ≠ "") : Visited a q s o
        (retryOrAbandon q o (lookupByHash a (m.hashSha256.getD "") o s.quota) s, none)
  | persisted (m : MediaFile) (hfile : s.tables.media.find? q.mediaFileId = some m)
      (lookup : Lookup) (result : VtResult) :
      Visited a q s o (persistResult q o lookup result s, none)

theorem visitRow_visited (a : DrainArgs) (world : String → Occasion) (q : VtQueueItem) (s : Working) :
    Visited a q s (world q.mediaFileId) (visitRow a world q s) := by
  cases hfile : s.tables.media.find? q.mediaFileId with
  | none =>
    simp only [visitRow, hfile]
    exact .missing hfile
  | some m =>
    simp only [visitRow, hfile]
    by_cases hhash : m.hashSha256.getD "" = ""
    · rw [if_pos hhash]
      exact .unhashed m hfile hhash
    · rw [if_neg hhash]
      cases (lookupByHash a (m.hashSha256.getD "") (world q.mediaFileId) s.quota).result with
      | error exc => exact .raised _ exc
      | ok found =>
        cases found with
        | none => exact .retried m hfile hhash
        | some result => exact .persisted m hfile _ result

theorem beside_visitRow (a : DrainArgs) (world : String → Occasion) (s : Working)
    (hne : id ≠ q.mediaFileId) : Beside id s (visitRow a world q s).1 := by
  have hvisited := visitRow_visited a world q s
  generalize visitRow a world q s = visited at hvisited
  cases hvisited with
  | missing => exact beside_skip _ hne
  | unhashed => exact beside_skip _ hne
  | raised => exact ⟨rfl, rfl, List.subset_append_left ..⟩
  | retried m hfile hhash => exact beside_retryOrAbandon _ _ hne
  | persisted m hfile lookup result => exact beside_persistResult _ lookup result hne

theorem fate_retryOrAbandon (hrow : s.tables.queue.find? q.mediaFileId = some q) (o : Occasion)
    (lookup : Lookup) : Fate q (s.tables.media.find? q.mediaFileId)
      (retryOrAbandon q o lookup s).tables (retryOrAbandon q o lookup s).visits := by
  have hvisit : (if lookup.asked then Visit.failed else .refused) = .refused ∨
      (if lookup.asked then Visit.failed else .refused) = .failed := by
    cases lookup.asked <;> simp
  have hmem : (q.mediaFileId, if lookup.asked then Visit.failed else .refused) ∈
      (retryOrAbandon q o lookup s).visits := by
    simp [retryOrAbandon]
  by_cases hlast : vtDrainMaxAttempts ≤ q.attemptCount + 1
  · refine .abandoned _ ?_ hlast hvisit hmem
    simp only [retryOrAbandon, decide_eq_true hlast, if_true]
    exact find?_drop_self ..
  · refine .attempted o.utcnow _ ?_ hvisit hmem
    simp only [retryOrAbandon, decide_eq_false hlast, Bool.false_eq_true, if_false]
    exact find?_attempt_self hrow

theorem fate_visitRow (a : DrainArgs) (world : String → Occasion)
    (hrow : s.tables.queue.find? q.mediaFileId = some q) :
    Fate q (s.tables.media.find? q.mediaFileId) (visitRow a world q s).1.tables
      (visitRow a world q s).1.visits := by
  have hvisited := visitRow_visited a world q s
  generalize visitRow a world q s = visited at hvisited
  cases hvisited with
  | missing hfile => exact .missing (find?_drop_self ..) hfile
  | unhashed m hfile hhash => exact .unhashed m (find?_drop_self ..) hfile hhash
  | raised => exact .untouched hrow
  | retried m hfile hhash => exact fate_retryOrAbandon hrow _ _
  | persisted m hfile lookup result =>
    refine .persisted _ result (find?_drop_self ..) (find?_persist_self hfile) rfl ?_
    simp [persistResult]

theorem beside_visitRows {rows : List VtQueueItem} (hid : ∀ q ∈ rows, id ≠ q.mediaFileId)
    (s : Working) : Beside id s (visitRows a world rows s).1 := by
  induction rows generalizing s with
  | nil => exact .refl id s
  | cons q rest ih =>
    have hfirst := beside_visitRow a world s (hid q (List.mem_cons_self ..))
    rw [visitRows]
    split
    · rename_i s' exc heq
      rwa [heq] at hfirst
    · rename_i s' heq
      rw [heq] at hfirst
      exact hfirst.trans (ih (fun q' hq' => hid q' (List.mem_cons_of_mem _ hq')) s')

theorem fate_visitRows {rows : List VtQueueItem} (hnodup : (rows.map (·.mediaFileId)).Nodup)
    {s : Working} (hrows : ∀ q ∈ rows, s.tables.queue.find? q.mediaFileId = some q)
    (hdone : (visitRows a world rows s).2 = none) {q : VtQueueItem} (hq : q ∈ rows) :
    Fate q (s.tables.media.find? q.mediaFileId) (visitRows a world rows s).1.tables
      (visitRows a world rows s).1.visits := by
  induction rows generalizing s with
  | nil => cases hq
  | cons first rest ih =>
    rw [List.map_cons, List.nodup_cons] at hnodup
    have hothers : ∀ q' ∈ rest, q'.mediaFileId ≠ first.mediaFileId := by
      intro q' hq' heq
      exact hnodup.1 (heq ▸ List.mem_map_of_mem hq')
    rw [visitRows] at hdone ⊢
    cases hvisit : visitRow a world first s with
    | mk s' exc =>
      rw [hvisit] at hdone
      cases exc with
      | some exc => simp at hdone
      | none =>
        simp only at hdone ⊢
        have hs' : (visitRow a world first s).1 = s' := by rw [hvisit]
        rcases List.mem_cons.mp hq with rfl | hq
        · have hfate := fate_visitRow a world (hrows q (List.mem_cons_self ..))
          rw [hs'] at hfate
          exact hfate.beside (beside_visitRows (fun q' hq' => (hothers q' hq').symm) s')
        · have hbeside := beside_visitRow a world s (hothers q hq)
          rw [hs'] at hbeside
          rw [← hbeside.file]
          refine ih hnodup.2 (fun q' hq' => ?_) hdone hq
          have hbeside' := beside_visitRow a world s (hothers q' hq')
          rw [hs'] at hbeside'
          rw [hbeside'.row]
          exact hrows q' (List.mem_cons_of_mem _ hq')

/-! ### Drains that are not refused -/

/-- Every lookup that a loop asks for has a key, and room in the quota. -/
def Unrefused (a : DrainArgs) (world : String → Occasion) : List VtQueueItem → Working → Prop
  | [], _ => True
  | q :: rest, s =>
      (∀ m, s.tables.media.find? q.mediaFileId = some m → m.hashSha256.getD "" ≠ "" →
        a.apiKey ≠ "" ∧
          (checkAndIncrementQuota (a.quotaCall (world q.mediaFileId)) s.quota).refusedBy = none) ∧
      ((visitRow a world q s).2 = none → Unrefused a world rest (visitRow a world q s).1)

theorem asked_of_room {sha256 : String} {o : Occasion} {quota : QuotaState} (hkey : a.apiKey ≠ "")
    (hhash : sha256 ≠ "") (hroom : (checkAndIncrementQuota (a.quotaCall o) quota).refusedBy = none) :
    (lookupByHash a sha256 o quota).asked = true := by
  simp only [lookupByHash, hkey, hhash, or_self, if_false, hroom, Option.isSome_none,
    Bool.false_eq_true]

theorem not_refused_visitRow (hroom : ∀ m, s.tables.media.find? q.mediaFileId = some m →
      m.hashSha256.getD "" ≠ "" → a.apiKey ≠ "" ∧
        (checkAndIncrementQuota (a.quotaCall (world q.mediaFileId)) s.quota).refusedBy = none)
    (hsofar : (id, Visit.refused) ∉ s.visits) :
    (id, Visit.refused) ∉ (visitRow a world q s).1.visits := by
  have hvisited := visitRow_visited a world q s
  generalize visitRow a world q s = visited at hvisited
  cases hvisited with
  | missing => simpa [skip] using hsofar
  | unhashed => simpa [skip] using hsofar
  | raised => simpa using hsofar
  | retried m hfile hhash =>
    obtain ⟨hkey, hquota⟩ := hroom m hfile hhash
    simpa [retryOrAbandon, asked_of_room hkey hhash hquota] using hsofar
  | persisted => simpa [persistResult] using hsofar

theorem not_refused_visitRows {rows : List VtQueueItem} (h : Unrefused a world rows s)
    (hsofar : (id, Visit.refused) ∉ s.visits) :
    (id, Visit.refused) ∉ (visitRows a world rows s).1.visits := by
  induction rows generalizing s with
  | nil => exact hsofar
  | cons q rest ih =>
    have hfirst := not_refused_visitRow h.1 hsofar
    have hrest := h.2
    rw [visitRows]
    cases hvisit : visitRow a world q s with
    | mk s' exc =>
      rw [hvisit] at hfirst hrest
      cases exc with
      | some exc => exact hfirst
      | none => exact ih (hrest rfl) hfirst

/-! ### Runs -/

theorem mem_queueRows {t : Tables} (hq : q ∈ queueRows a t) : q ∈ t.queue := by
  have hmem : ∀ rows : List VtQueueItem, rows ⊆ t.queue.rows.insertionSort
      (fun q q' => q.enqueuedAt ≤ q'.enqueuedAt) → q ∈ rows → q ∈ t.queue := by
    intro rows hsub hq
    exact (List.perm_insertionSort _ t.queue.rows).mem_iff.mp (hsub hq)
  unfold queueRows at hq
  simp only at hq
  split at hq
  · exact hmem _ (List.Subset.refl _) hq
  · exact hmem _ (List.take_subset ..) hq

theorem nodup_queueRows (a : DrainArgs) (t : Tables) :
    ((queueRows a t).map (·.mediaFileId)).Nodup := by
  have hsorted : ((t.queue.rows.insertionSort fun q q' => q.enqueuedAt ≤ q'.enqueuedAt).map
      (·.mediaFileId)).Nodup :=
    (((List.perm_insertionSort _ t.queue.rows).map _).nodup_iff).mpr t.queue.unique
  unfold queueRows
  simp only
  split
  · exact hsorted
  · exact hsorted.sublist ((List.take_sublist ..).map _)

theorem fate_drain {fault : Option PyError} {t : Tables} {quota : QuotaState} {counters : Counters}
    (hdone : (drainVtQueue a world fault t quota).result = .ok counters)
    (hrow : t.queue.find? id = some q) : Fate q (t.media.find? id)
      (drainVtQueue a world fault t quota).tables (drainVtQueue a world fault t quota).visits := by
  obtain ⟨-, rfl⟩ := Table.mem_of_find? hrow
  have hfate : (visitRows a world (queueRows a t) { tables := t, quota := quota }).2 = none →
      Fate q (t.media.find? q.mediaFileId)
        (visitRows a world (queueRows a t) { tables := t, quota := quota }).1.tables
        (visitRows a world (queueRows a t) { tables := t, quota := quota }).1.visits := by
    intro hnone
    by_cases hq : q ∈ queueRows a t
    · refine fate_visitRows (nodup_queueRows a t) (fun q' hq' => ?_) hnone hq
      exact Table.find?_eq_some.mpr ⟨mem_queueRows hq', rfl⟩
    · -- a row beyond the batch is not touched
      refine Fate.beside (s := { tables := t, quota := quota }) (.untouched hrow) ?_
      refine beside_visitRows (fun q' hq' heq => hq ?_) _
      rwa [Table.eq_of_key_eq (Table.mem_of_find? hrow).1 (mem_queueRows hq') heq]
  unfold drainVtQueue at hdone ⊢
  cases hvisits : visitRows a world (queueRows a t) { tables := t, quota := quota } with
  | mk s exc =>
    rw [hvisits] at hfate
    simp only [hvisits] at hdone ⊢
    cases hexc : exc.or fault with
    | some exc' =>
      rw [hexc] at hdone
      cases hdone
    | none => exact hfate (Option.or_eq_none_iff.mp hexc).1

theorem tables_of_raised {fault : Option PyError} {t : Tables} {quota : QuotaState} {exc : PyError}
    (h : (drainVtQueue a world fault t quota).result = .error exc) :
    (drainVtQueue a world fault t quota).tables = t := by
  unfold drainVtQueue at h ⊢
  simp only at h ⊢
  split at h
  · rfl
  · cases h

theorem find?_drain_none {fault : Option PyError} {t : Tables} {quota : QuotaState}
    (hrow : t.queue.find? id = none) :
    (drainVtQueue a world fault t quota).tables.queue.find? id = none := by
  have hbeside : Beside id { tables := t, quota := quota }
      (visitRows a world (queueRows a t) { tables := t, quota := quota }).1 := by
    refine beside_visitRows (fun q' hq' heq => ?_) _
    exact Table.find?_eq_none.mp hrow q' (mem_queueRows hq') heq.symm
  unfold drainVtQueue
  simp only
  split
  · exact hrow
  · exact hbeside.row.trans hrow

end Drain

/-! ### Runs -/

/-- The tables and the quota, with the visits of the row of each file since it was
    enqueued. -/
structure State where
  tables : Tables
  quota : QuotaState
  visits : String → List Visit

/-- The visits of one row in a drain. -/
def visitsOf (id : String) (visits : List (String × Visit)) : List Visit :=
  (visits.filter fun x => x.1 = id).map (·.2)

/-- An attempt without a result, whether somebody was asked or not. -/
def Visit.fruitless : Visit → Bool
  | .refused | .failed => true
  | _ => false

/-- A step: a drain, or what happens elsewhere to the files, the queue and the quota.  There
    a row may go with its file, and what is put into the queue was not attempted yet. -/
inductive Step where
  | drain (a : DrainArgs) (world : String → Occasion) (fault : Option PyError)
  | elsewhere (change : Tables → Tables) (quota : QuotaState)
      (fresh : ∀ t, ∀ row ∈ (change t).queue, row ∈ t.queue ∨ row.attemptCount = 0)

def next (s : State) : Step → State
  | .drain a world fault =>
      let drained := drainVtQueue a world fault s.tables s.quota
      { tables := drained.tables
        quota := drained.quota
        visits := fun id => s.visits id ++ visitsOf id drained.visits }
  | .elsewhere change quota _ =>
      { tables := change s.tables
        quota := quota
        visits := fun id =>
          if (change s.tables).queue.find? id = s.tables.queue.find? id then s.visits id else [] }

/-- No lookup that the step asks for is refused. -/
def NotRefused (s : State) : Step → Prop
  | .drain a world _ =>
      Unrefused a world (queueRows a s.tables) { tables := s.tables, quota := s.quota }
  | .elsewhere .. => True

/-- A drain removes a row only if its file is gone or has no hash, a result was written to
    the file, or it was visited as often as it may, counting the visits of some kinds. -/
def RemovesFor (counts : Visit → Bool) (s : State) : Step → Prop
  | .drain a world fault => ∀ row ∈ s.tables.queue,
      let drained := drainVtQueue a world fault s.tables s.quota
      drained.tables.queue.find? row.mediaFileId = none →
        s.tables.media.find? row.mediaFileId = none ∨
        (∃ m, s.tables.media.find? row.mediaFileId = some m ∧ m.hashSha256.getD "" = "") ∨
        (∃ m result, drained.tables.media.find? row.mediaFileId = some m ∧
          m.virustotalResult = some result ∧
          (row.mediaFileId, .persisted result) ∈ drained.visits) ∨
        vtDrainMaxAttempts ≤
          (s.visits row.mediaFileId ++ visitsOf row.mediaFileId drained.visits).countP counts
  | .elsewhere .. => True

/-- Removals are for lookups that failed, each of a request to the upstream. -/
def RemovesJustly : State → Step → Prop := RemovesFor fun visit => visit = .failed

/-- The attempts of a row are visits of some kinds. -/
def AttemptsCounted (counts : Visit → Bool) (s : State) : Prop :=
  ∀ row ∈ s.tables.queue, row.attemptCount ≤ (s.visits row.mediaFileId).countP counts

section Step

variable {counts : Visit → Bool} {s : State}

theorem countP_visitsOf_pos {id : String} {visit : Visit} {visits : List (String × Visit)}
    (hcounts : counts visit = true) (hmem : (id, visit) ∈ visits) :
    1 ≤ (visitsOf id visits).countP counts := by
  refine List.countP_pos_iff.mpr ⟨visit, List.mem_map.mpr ⟨(id, visit), ?_, rfl⟩, hcounts⟩
  exact List.mem_filter.mpr ⟨hmem, by simp⟩

theorem attemptsCounted_elsewhere {change : Tables → Tables} {quota : QuotaState}
    {fresh : ∀ t, ∀ row ∈ (change t).queue, row ∈ t.queue ∨ row.attemptCount = 0}
    (h : AttemptsCounted counts s) :
    AttemptsCounted counts (next s (.elsewhere change quota fresh)) := by
  intro row hrow
  simp only [next] at hrow ⊢
  rcases fresh s.tables row hrow with hold | hnew
  · have hsame : (change s.tables).queue.find? row.mediaFileId =
        s.tables.queue.find? row.mediaFileId := by
      rw [Table.find?_eq_some.mpr ⟨hrow, rfl⟩, Table.find?_eq_some.mpr ⟨hold, rfl⟩]
    rw [if_pos hsame]
    exact h row hold
  · rw [hnew]
    exact Nat.zero_le _

variable {a : DrainArgs} {world : String → Occasion} {fault : Option PyError}
  (h : AttemptsCounted counts s)
  (hcounts : ∀ id visit, visit = .refused ∨ visit = .failed →
    (id, visit) ∈ (drainVtQueue a world fault s.tables s.quota).visits → counts visit = true)

include h hcounts

theorem removesFor_drain : RemovesFor counts s (.drain a world fault) := by
  intro row hrow drained hgone
  have hfound := Table.find?_eq_some.mpr ⟨hrow, rfl⟩
  cases hdone : drained.result with
  | error exc =>
    rw [tables_of_raised hdone, hfound] at hgone
    cases hgone
  | ok counters =>
    cases fate_drain hdone hfound with
    | untouched hstays => rw [hgone] at hstays; cases hstays
    | attempted utcnow visit hstays => rw [hgone] at hstays; cases hstays
    | missing _ hfile => exact .inl hfile
    | unhashed m _ hfile hhash => exact .inr (.inl ⟨m, hfile, hhash⟩)
    | persisted m result _ hfile hresult hmem =>
      exact .inr (.inr (.inl ⟨m, result, hfile, hresult, hmem⟩))
    | abandoned visit _ hlast hvisit hmem =>
      have hattempts := h row hrow
      have hone : 1 ≤ (visitsOf row.mediaFileId drained.visits).countP counts :=
        countP_visitsOf_pos (hcounts _ visit hvisit hmem) hmem
      refine .inr (.inr (.inr ?_))
      rw [List.countP_append]
      omega

theorem attemptsCounted_drain : AttemptsCounted counts (next s (.drain a world fault)) := by
  intro row hrow
  simp only [next] at hrow ⊢
  rw [List.countP_append]
  cases hdone : (drainVtQueue a world fault s.tables s.quota).result with
  | error exc =>
    rw [tables_of_raised hdone] at hrow
    exact (h row hrow).trans (Nat.le_add_right ..)
  | ok counters =>
    have hafter := Table.find?_eq_some.mpr ⟨hrow, rfl⟩
    cases hold : s.tables.queue.find? row.mediaFileId with
    | none => rw [find?_drain_none hold] at hafter; cases hafter
    | some q =>
      obtain ⟨hq, hid⟩ := Table.mem_of_find? hold
      have hattempts := h q hq
      have hfate := fate_drain hdone hold
      rw [← hid] at hafter ⊢
      cases hfate with
      | untouched hstays =>
        rw [hafter] at hstays
        cases hstays
        omega
      | attempted utcnow visit hstays hvisit hmem =>
        have hone := countP_visitsOf_pos (hcounts _ visit hvisit hmem) hmem
        rw [hafter] at hstays
        cases hstays
        simp only [attempted]
        omega
      | missing hgone => rw [hgone] at hafter; cases hafter
      | unhashed m hgone => rw [hgone] at hafter; cases hafter
      | persisted m result hgone => rw [hgone] at hafter; cases hafter
      | abandoned visit hgone => rw [hgone] at hafter; cases hafter

end Step

theorem failed_of_notRefused {a : DrainArgs} {world : String → Occasion} {fault : Option PyError}
    {s : State} (hroom : NotRefused s (.drain a world fault)) {id : String} {visit : Visit}
    (hvisit : visit = .refused ∨ visit = .failed)
    (hmem : (id, visit) ∈ (drainVtQueue a world fault s.tables s.quota).visits) :
    visit = .failed := by
  rcases hvisit with rfl | rfl
  · have hnot := not_refused_visitRows hroom (List.not_mem_nil (a := (id, Visit.refused)))
    refine absurd ?_ hnot
    unfold drainVtQueue at hmem
    simp only at hmem
    split at hmem <;> exact hmem
  · rfl

theorem removesFor_throughout {counts : Visit → Bool} {P : State → Step → Prop}
    (hcounts : ∀ s a world fault, P s (.drain a world fault) → ∀ id visit,
      visit = .refused ∨ visit = .failed →
      (id, visit) ∈ (drainVtQueue a world fault s.tables s.quota).visits → counts visit = true)
    {s : State} (hempty : s.tables.queue = .empty) {run : List Step}
    (hrun : Throughout next P s run) : Throughout next (RemovesFor counts) s run := by
  refine Throughout.imp next (I := AttemptsCounted counts) (fun s step hinv hstep => ?_) hrun ?_
  · cases step with
    | drain a world fault =>
      have hkinds := hcounts s a world fault hstep
      exact ⟨removesFor_drain hinv hkinds, attemptsCounted_drain hinv hkinds⟩
    | elsewhere change quota fresh => exact ⟨trivial, attemptsCounted_elsewhere hinv⟩
  · intro row hrow
    rw [hempty] at hrow
    exact absurd hrow (Table.not_mem_empty row)

/-- In every run from an empty queue a drain removes a row only for its file, for a result
    or for as many attempts without one as it may have; and where no lookup is refused, for
    as many lookups that failed. -/
theorem removes_after_attempts (s : State) (hempty : s.tables.queue = .empty)
    (run : List Step) :
    Throughout next (RemovesFor Visit.fruitless) s run ∧
    (Throughout next NotRefused s run → Throughout next RemovesJustly s run) := by
  constructor
  · refine removesFor_throughout (P := fun _ _ => True)
      (fun s a world fault _ id visit hvisit _ => ?_) hempty
      (throughout_of_forall next (fun _ _ => trivial) s run)
    rcases hvisit with rfl | rfl <;> rfl
  · intro hroom
    refine removesFor_throughout (fun s a world fault hnot id visit hvisit hmem => ?_) hempty hroom
    exact decide_eq_true (failed_of_notRefused hnot hvisit hmem)

/-! ### A day without quota -/

def hashedFile : MediaFile := { id := "m1", hashSha256 := some "9f86d081" }

/-- A file is scanned and enqueued, while the quota stands as given. -/
def enqueueOne (quota : QuotaState) : Step :=
  .elsewhere (fun _ => ⟨Table.empty.upsert hashedFile, Table.empty.upsert ⟨"m1", 0, none, 0⟩⟩)
    quota (by
      intro t row hrow
      rcases Table.mem_upsert.mp hrow with rfl | ⟨hmem, -⟩
      · exact .inr rfl
      · exact absurd hmem (Table.not_mem_empty row))

/-- A drain at so many minutes, while the upstream cannot be reached. -/
def drainAt (minute : Nat) : Step :=
  .drain ⟨"key", 500, 15500, 20, true⟩
    (fun _ => ⟨minute * sixtySeconds, .httpError, "", minute * sixtySeconds⟩) none

def emptyState : State := ⟨⟨.empty, .empty⟩, .initial 0 0 0, fun _ => []⟩

/-- A file is enqueued after the quota of the day was spent, and four drains follow. -/
def dayWithoutQuota : List Step :=
  enqueueOne { QuotaState.initial 0 0 0 with dayCounter := 500 } :: [5, 10, 15, 20].map drainAt

theorem removes_after_attempts_day :
    Throughout next (RemovesFor Visit.fruitless) emptyState (dayWithoutQuota ++ [drainAt 25]) ∧
    (Throughout next NotRefused emptyState (dayWithoutQuota ++ [drainAt 25]) →
      Throughout next RemovesJustly emptyState (dayWithoutQuota ++ [drainAt 25])) :=
  removes_after_attempts emptyState rfl _

/-- The fifth drain drops the row of a file that has its hash and no result, and that nobody
    was asked for. -/
theorem refused_row_dropped :
    ((final next emptyState dayWithoutQuota).tables.queue.find? "m1").isSome ∧
    ((next (final next emptyState dayWithoutQuota) (drainAt 25)).tables.queue.find? "m1") = none ∧
    ¬RemovesJustly (final next emptyState dayWithoutQuota) (drainAt 25) := by
  refine ⟨by decide, by decide, fun hjust => ?_⟩
  have hrow : (final next emptyState dayWithoutQuota).tables.queue.find? "m1" =
      some ⟨"m1", 0, some (20 * sixtySeconds), 4⟩ := by
    decide
  have hfile : ((final next emptyState dayWithoutQuota).tables.media.find? "m1").map
      (·.hashSha256) = some (some "9f86d081") := by
    decide
  have hvisits : (drainVtQueue ⟨"key", 500, 15500, 20, true⟩
      (fun _ => ⟨25 * sixtySeconds, .httpError, "", 25 * sixtySeconds⟩) none
      (final next emptyState dayWithoutQuota).tables
      (final next emptyState dayWithoutQuota).quota).visits = [("m1", .refused)] := by
    decide
  rcases hjust _ (Table.mem_of_find? hrow).1 (by decide) with hgone | ⟨m, hfound, hhash⟩ |
    ⟨m, result, -, -, hmem⟩ | hfailed
  · simp only at hgone
    rw [hgone] at hfile
    cases hfile
  · simp only at hfound
    rw [hfound, Option.map_some, Option.some.injEq] at hfile
    rw [hfile] at hhash
    exact absurd hhash (by decide)
  · rw [hvisits] at hmem
    simp at hmem
  · rw [hvisits] at hfailed
    exact absurd hfailed (by decide)

end VtDrain
