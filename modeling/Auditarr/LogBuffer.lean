/-
  Auditarr/LogBuffer.lean
  =======================
  **The log records that an operator can look at** (`app/core/log_buffer.py`; `list_logs` and
  `export_logs` in `app/api/v1/system.py`).

  Each process keeps its last records in a ring buffer, and all of them append to one file.  An
  answer merges the tail of the file with the buffer of the process that answers.  Of what a
  record was bound to it has the keys of a fixed list only, as plain values, and nothing else
  that was bound has any influence on it (`answers_agree`).
-/
import Mathlib.Data.List.Sort
import Mathlib.Data.String.Basic
import Auditarr.PyValues

namespace LogBuffer

open PyValues

/-! ### Records -/

/-- `_SAFE_CONTEXT_KEYS`. -/
def SAFE_CONTEXT_KEYS : List String :=
  ["integration_id", "integration_kind", "media_file_id", "media_file_path", "user_id",
    "request_id", "rule_id", "rule_name", "library_id", "library_name", "job_id", "upstream_id",
    "upstream_job_id", "target_id", "target_type", "session_id", "playback_id", "scanner_run_id",
    "duration_ms", "latency_ms", "elapsed_seconds", "fetched", "inserted", "resolved", "removed",
    "skipped", "count", "size", "status", "kind", "source", "action", "decision", "error",
    "detail", "reason", "code", "method", "path", "endpoint"]

/-- `LogRecord`. -/
structure LogRecord where
  timestamp : String
  level : String
  logger : String
  category : Option String
  event : String
  context : List (String × PyValue)

/-- A `datetime`: in UTC where it has a zone, and in no zone otherwise. -/
structure DateTime where
  aware : Bool
  micros : Int
deriving DecidableEq

/-- `datetime.min` and `datetime.max`, in microseconds from 1970 on. -/
def MIN_MICROS : Int := -62135596800000000
def MAX_MICROS : Int := 253402300799999999

/-- A record of the `logging` module. -/
structure StdRecord where
  created : Int
  created_range : MIN_MICROS ≤ created ∧ created ≤ MAX_MICROS
  levelname : String
  name : String
  msg : PyValue

/-- Library functions. -/
structure LogRuntime where
  /-- `str.lower`. -/
  lower : String → String
  /-- `str.isdigit`, of one character. -/
  isDigit : Char → Bool
  /-- `str(value)`, of what is not a text. -/
  repr : PyValue → String
  /-- `json.loads`; none for a text that is not JSON. -/
  loads : String → Option PyValue
  isoformat : DateTime → String
  /-- `datetime.fromisoformat`; none is its `ValueError`. -/
  fromisoformat : String → Option DateTime
  /-- The order in which the set of keys is gone through. -/
  keyOrder : List String
  keyOrder_perm : keyOrder.Perm SAFE_CONTEXT_KEYS
  /-- A time in UTC is written with `+00:00` and without blanks, and is read back. -/
  fromisoformat_isoformat : ∀ t, MIN_MICROS ≤ t → t ≤ MAX_MICROS →
    fromisoformat (isoformat ⟨true, t⟩) = some ⟨true, t⟩
  isoformat_plus : ∀ t, MIN_MICROS ≤ t → t ≤ MAX_MICROS → '+' ∈ (isoformat ⟨true, t⟩).toList

variable (rt : LogRuntime)

/-- `str(value)`. -/
def pyStr : PyValue → String
  | .str text => text
  | value => rt.repr value

/-- A plain value of a context, as it is, and the text of any other. -/
def plainValue : PyValue → Option PyValue
  | .none => none
  | .list items => some (.str (pyStr rt (.list items)))
  | .dict entries => some (.str (pyStr rt (.dict entries)))
  | value => some value

/-- `_safe_context`. -/
def safeContext (eventDict : List (String × PyValue)) : List (String × PyValue) :=
  rt.keyOrder.filterMap fun key =>
    ((eventDict.lookup key).bind (plainValue rt)).map fun value => (key, value)

/-- `str(value or default)`. -/
def strOr (default : String) : Option PyValue → String
  | none => default
  | some value => if value.truthy then pyStr rt value else default

/-- `str(value) if value is not None else None`. -/
def strOrNone : Option PyValue → Option String
  | none | some .none => none
  | some value => some (pyStr rt value)

/-- `_record_to_log_record`. -/
def recordToLogRecord (record : StdRecord) : LogRecord where
  timestamp := rt.isoformat ⟨true, record.created⟩
  level := rt.lower record.levelname
  logger := record.name
  category := match record.msg with
    | .dict eventDict => strOrNone rt (eventDict.lookup "category")
    | _ => none
  event := match record.msg with
    | .dict eventDict => strOr rt "" (eventDict.lookup "event")
    | .none => ""
    | msg => pyStr rt msg
  context := match record.msg with
    | .dict eventDict => safeContext rt eventDict
    | _ => []

/-! ### The buffer -/

/-- `LogRingBuffer`. -/
structure LogRingBuffer where
  capacity : Nat
  capacity_pos : 0 < capacity
  records : List LogRecord
  within : records.length ≤ capacity
  lastErrorAt : Option DateTime

def LogRingBuffer.empty (capacity : Nat) (h : 0 < capacity) : LogRingBuffer :=
  ⟨capacity, h, [], Nat.zero_le _, none⟩

def isError (level : String) : Bool := level == "error" || level == "critical"

/-- `push`; a `deque` with a maximal length drops what does not fit at its other end. -/
def LogRingBuffer.push (now : Int) (buffer : LogRingBuffer) (record : LogRecord) :
    LogRingBuffer where
  capacity := buffer.capacity
  capacity_pos := buffer.capacity_pos
  records := (buffer.records ++ [record]).drop (buffer.records.length + 1 - buffer.capacity)
  within := by
    rw [List.length_drop, List.length_append, List.length_singleton]
    omega
  lastErrorAt :=
    if isError record.level then some ((rt.fromisoformat record.timestamp).getD ⟨true, now⟩)
    else buffer.lastErrorAt

/-- `emit`. -/
def emit (now : Int) (buffer : LogRingBuffer) (record : StdRecord) : LogRingBuffer :=
  buffer.push rt now (recordToLogRecord rt record)

/-! ### The file -/

/-- A line of the file; blank ones, and JSON that is not an object, give nothing. -/
def lineRecord (now : Int) (line : String) : Option LogRecord :=
  let line := strip line
  if line = "" then none
  else match rt.loads line with
    | none => some ⟨rt.isoformat ⟨true, now⟩, "info", "file", none, line, []⟩
    | some (.dict blob) => some
        { timestamp := strOr rt "" (blob.lookup "timestamp")
          level := rt.lower (strOr rt "info" (blob.lookup "level"))
          logger := strOr rt "" (blob.lookup "logger")
          category := strOrNone rt (blob.lookup "category")
          event := strOr rt "" (blob.lookup "event")
          context := safeContext rt blob }
    | some _ => none

/-- `tail_log_file`, with the time at which each line is looked at.  No lines stand for a file
    that is missing or cannot be read. -/
def tailLogFile (now : Nat → Int) (lines : List String) (maxRecords : Nat) : List LogRecord :=
  (lines.drop (lines.length - maxRecords)).zipIdx.filterMap fun entry =>
    lineRecord rt (now entry.2) entry.1

/-! ### Merging -/

/-- `(r.timestamp, r.logger, r.event)`. -/
def LogRecord.key (r : LogRecord) : String × String × String := (r.timestamp, r.logger, r.event)

/-- The loops of the merge: a record with a key that was seen is left out. -/
def mergeNew (seen : List (String × String × String)) : List LogRecord → List LogRecord
  | [] => []
  | r :: rest => if r.key ∈ seen then mergeNew seen rest else r :: mergeNew (r.key :: seen) rest

/-- `_load_records_preferring_shared_file`. -/
def loadRecords (now : Nat → Int) (lines : List String) (buffer : LogRingBuffer) : List LogRecord :=
  match tailLogFile rt now lines buffer.capacity with
  | [] => buffer.records
  | r :: rest =>
      (mergeNew [] (r :: rest ++ buffer.records)).mergeSort fun r r' =>
        decide (r.timestamp ≤ r'.timestamp)

/-! ### Filters -/

/-- The rank of a level; the rank of `debug` where it has none. -/
def rank (level : String) : Nat :=
  if level = "critical" then 4 else if level = "error" then 3
  else if level = "warning" then 2 else if level = "info" then 1 else 0

/-- `_normalize_iso`: the part after the last blank becomes the zone. -/
def normalizeIso (ts : String) : String :=
  if ' ' ∈ ts.toList ∧ '+' ∉ ts.toList then
    let tail := (ts.toList.reverse.takeWhile (· ≠ ' ')).reverse
    let head := (ts.toList.reverse.dropWhile (· ≠ ' ')).tail.reverse
    match tail with
    | c :: _ =>
        if rt.isDigit c || c = '-' then String.ofList (head ++ '+' :: tail) else ts
    | [] => ts
  else ts

/-- `_parse_record_ts`. -/
def parseRecordTs (ts : String) : DateTime :=
  (rt.fromisoformat (normalizeIso rt ts)).getD ⟨true, MIN_MICROS⟩

/-- `t > t'`; with and without a zone they do not compare. -/
def DateTime.gt (t t' : DateTime) : Except PyError Bool :=
  if t.aware = t'.aware then .ok (decide (t'.micros < t.micros)) else .error .typeError

/-- The parameters of a request that choose records. -/
structure LogFilter where
  service : String
  since : Option String
  level : Option String

/-- The test of `service`. -/
def LogFilter.ofService (f : LogFilter) (r : LogRecord) : Bool :=
  f.service == "" || f.service == "all" || r.category == some f.service

/-- The test of `level`. -/
def LogFilter.ofLevel (f : LogFilter) (r : LogRecord) : Bool :=
  match f.level with
  | none | some "" => true
  | some level => decide (rank (rt.lower level) ≤ rank r.level)

/-- The time that `since` asks for; UTC where it has no zone. -/
def LogFilter.sinceDt (f : LogFilter) : Option DateTime :=
  match f.since with
  | none | some "" => none
  | some since => (rt.fromisoformat (normalizeIso rt since)).map fun t => ⟨true, t.micros⟩

/-- The records later than a time. -/
def laterThan (since : DateTime) : List LogRecord → Except PyError (List LogRecord)
  | [] => .ok []
  | r :: rest => do
      let later ← (parseRecordTs rt r.timestamp).gt since
      let kept ← laterThan since rest
      return if later then r :: kept else kept

/-- `_apply_log_filters`. -/
def applyLogFilters (f : LogFilter) (records : List LogRecord) :
    Except PyError (List LogRecord) :=
  let kept := (records.filter f.ofService).filter (f.ofLevel rt)
  match f.sinceDt rt with
  | none => .ok kept
  | some since => laterThan rt since kept

/-- `_last_error_at_of`, from the latest so far on. -/
def lastErrorAtOf (latest : Option DateTime) : List LogRecord → Except PyError (Option DateTime)
  | [] => .ok latest
  | r :: rest =>
      if isError r.level then
        let ts := parseRecordTs rt r.timestamp
        match latest with
        | none => lastErrorAtOf (some ts) rest
        | some t => do
            let later ← ts.gt t
            lastErrorAtOf (some (if later then ts else t)) rest
      else lastErrorAtOf latest rest

/-! ### Answers -/

structure LogsResponse where
  records : List LogRecord
  count : Nat
  totalBuffered : Nat
  nextCursor : Option Nat
  lastErrorAt : Option String
  bufferCapacity : Nat

/-- `min(max(int(limit), 1), 1000)`. -/
def capped (limit : Int) : Nat := (min (max limit 1) 1000).toNat

/-- `list_logs`. -/
def listLogs (now : Nat → Int) (lines : List String) (buffer : LogRingBuffer) (f : LogFilter)
    (limit : Int) (cursor : Option Int) : Except PyError LogsResponse := do
  let records ← applyLogFilters rt f (loadRecords rt now lines buffer)
  let start := (max 0 (cursor.getD 0)).toNat
  let page := (records.reverse.drop start).take (capped limit)
  let latest ← lastErrorAtOf rt none records
  return ⟨page, page.length, records.length,
    if start + capped limit < records.reverse.length then some (start + capped limit) else none,
    latest.map rt.isoformat, buffer.capacity⟩

/-- `export_logs`: the records that are written, one a line. -/
def exportLogs (now : Nat → Int) (lines : List String) (buffer : LogRingBuffer) (f : LogFilter) :
    Except PyError (List LogRecord) :=
  applyLogFilters rt f (loadRecords rt now lines buffer)

/-! ### Records of this process -/

/-- What a process has logged. -/
def Emitted (r : LogRecord) : Prop := ∃ record, r = recordToLogRecord rt record

/-- The record's time has a zone. -/
def Aware (r : LogRecord) : Prop := (parseRecordTs rt r.timestamp).aware = true

theorem normalizeIso_of_plus {ts : String} (h : '+' ∈ ts.toList) : normalizeIso rt ts = ts := by
  simp [normalizeIso, h]

theorem parseRecordTs_emitted (record : StdRecord) :
    parseRecordTs rt (recordToLogRecord rt record).timestamp = ⟨true, record.created⟩ := by
  obtain ⟨hmin, hmax⟩ := record.created_range
  simp [parseRecordTs, recordToLogRecord, normalizeIso_of_plus rt (rt.isoformat_plus _ hmin hmax),
    rt.fromisoformat_isoformat _ hmin hmax]

theorem Emitted.aware {r : LogRecord} (h : Emitted rt r) : Aware rt r := by
  obtain ⟨record, rfl⟩ := h
  rw [Aware, parseRecordTs_emitted]

theorem mem_push {now : Int} {buffer : LogRingBuffer} {record r : LogRecord}
    (h : r ∈ (buffer.push rt now record).records) : r ∈ buffer.records ∨ r = record := by
  simpa using List.mem_of_mem_drop h

/-- The test that the filters make together. -/
def LogFilter.keeps (f : LogFilter) (r : LogRecord) : Bool :=
  f.ofService r && f.ofLevel rt r &&
    (f.sinceDt rt).all fun since => since.micros < (parseRecordTs rt r.timestamp).micros

theorem sinceDt_aware {f : LogFilter} {since : DateTime} (h : f.sinceDt rt = some since) :
    since.aware = true := by
  unfold LogFilter.sinceDt at h
  split at h
  · cases h
  · cases h
  · obtain ⟨t, -, rfl⟩ := Option.map_eq_some_iff.mp h
    rfl

theorem laterThan_eq {since : DateTime} (hsince : since.aware = true) {records : List LogRecord}
    (h : ∀ r ∈ records, Aware rt r) :
    laterThan rt since records = .ok (records.filter fun r =>
      since.micros < (parseRecordTs rt r.timestamp).micros) := by
  induction records with
  | nil => rfl
  | cons r rest ih =>
    obtain ⟨hr, hrest⟩ := List.forall_mem_cons.mp h
    rw [laterThan, ih hrest, DateTime.gt, hr, hsince, List.filter_cons]
    rfl

theorem applyLogFilters_eq (f : LogFilter) {records : List LogRecord}
    (h : ∀ r ∈ records, Aware rt r) :
    applyLogFilters rt f records = .ok (records.filter (f.keeps rt)) := by
  have hkept : (records.filter f.ofService).filter (f.ofLevel rt) =
      records.filter fun r => f.ofService r && f.ofLevel rt r := by
    rw [List.filter_filter]
    simp only [Bool.and_comm]
  unfold applyLogFilters LogFilter.keeps
  cases hsince : f.sinceDt rt with
  | none => simp [hkept]
  | some since =>
    simp only
    rw [laterThan_eq rt (sinceDt_aware rt hsince), hkept, List.filter_filter]
    · simp [Bool.and_comm]
    · intro r hr
      exact h r (List.mem_of_mem_filter (List.mem_of_mem_filter hr))

theorem lastErrorAtOf_error {r : LogRecord} (rest : List LogRecord) (hr : Aware rt r)
    (herror : isError r.level = true) {latest : Option DateTime}
    (hlatest : ∀ t, latest = some t → t.aware = true) :
    ∃ t : DateTime, lastErrorAtOf rt latest (r :: rest) = lastErrorAtOf rt (some t) rest ∧
      t.aware = true ∧ (parseRecordTs rt r.timestamp).micros ≤ t.micros ∧
      (∀ t', latest = some t' → t'.micros ≤ t.micros) ∧
      (latest = some t ∨ parseRecordTs rt r.timestamp = t) := by
  rw [lastErrorAtOf, if_pos herror]
  cases latest with
  | none => exact ⟨_, rfl, hr, le_rfl, nofun, .inr rfl⟩
  | some before =>
    have hgt : (parseRecordTs rt r.timestamp).gt before =
        .ok (decide (before.micros < (parseRecordTs rt r.timestamp).micros)) := by
      rw [DateTime.gt, hr, hlatest before rfl]
      rfl
    simp only [hgt]
    by_cases hlater : before.micros < (parseRecordTs rt r.timestamp).micros
    · simp only [hlater, decide_true]
      refine ⟨_, rfl, hr, le_rfl, ?_, .inr rfl⟩
      rintro t' ⟨⟩
      exact hlater.le
    · simp only [hlater, decide_false]
      refine ⟨_, rfl, hlatest before rfl, not_lt.mp hlater, ?_, .inl rfl⟩
      rintro t' ⟨⟩
      exact le_rfl

theorem lastErrorAtOf_spec {records : List LogRecord} (h : ∀ r ∈ records, Aware rt r)
    (latest : Option DateTime) (hlatest : ∀ t, latest = some t → t.aware = true) :
    ∃ latest', lastErrorAtOf rt latest records = .ok latest' ∧
      (∀ t, latest = some t → ∃ t', latest' = some t' ∧ t.micros ≤ t'.micros) ∧
      (∀ r ∈ records, isError r.level = true →
        ∃ t', latest' = some t' ∧ (parseRecordTs rt r.timestamp).micros ≤ t'.micros) ∧
      ∀ t', latest' = some t' → latest = some t' ∨
        ∃ r ∈ records, isError r.level = true ∧ parseRecordTs rt r.timestamp = t' := by
  induction records generalizing latest with
  | nil => exact ⟨latest, rfl, fun t ht => ⟨t, ht, le_rfl⟩, by simp, fun t' ht' => .inl ht'⟩
  | cons r rest ih =>
    obtain ⟨hr, hrest⟩ := List.forall_mem_cons.mp h
    cases herror : isError r.level with
    | false =>
      obtain ⟨latest', hrun, hbefore, hall, hfrom⟩ := ih hrest latest hlatest
      refine ⟨latest', ?_, hbefore, by simpa [herror] using hall, by simpa [herror] using hfrom⟩
      rw [lastErrorAtOf, herror]
      exact hrun
    | true =>
      obtain ⟨t, hstep, haware, hbound, hbefore, hfrom⟩ :=
        lastErrorAtOf_error rt rest hr herror hlatest
      have hgoes : ∀ t', some t = some t' → t'.aware = true := by
        rintro t' ⟨⟩
        exact haware
      obtain ⟨latest', hrun, hkept, hall, hfrom'⟩ := ih hrest _ hgoes
      obtain ⟨t', ht', hle⟩ := hkept t rfl
      simp only [List.forall_mem_cons, List.exists_mem_cons_iff, herror, true_and, forall_const]
      refine ⟨latest', hstep.trans hrun, ?_, ⟨⟨t', ht', hbound.trans hle⟩, hall⟩, ?_⟩
      · intro t'' ht''
        exact ⟨t', ht', (hbefore t'' ht'').trans hle⟩
      · intro t'' ht''
        rcases hfrom' t'' ht'' with hsame | hrest'
        · cases hsame
          exact hfrom.imp id .inl
        · exact .inr (.inr hrest')

/-- The time is that of an error among the records, and of none of them later. -/
def IsLatest (latest : Option DateTime) (records : List LogRecord) : Prop :=
  (∀ r ∈ records, isError r.level = true →
    ∃ t, latest = some t ∧ (parseRecordTs rt r.timestamp).micros ≤ t.micros) ∧
  ∀ t, latest = some t → ∃ r ∈ records, isError r.level = true ∧ parseRecordTs rt r.timestamp = t

theorem listLogs_eq (now : Nat → Int) (lines : List String) (buffer : LogRingBuffer)
    (f : LogFilter) (limit : Int) (cursor : Option Int)
    (h : ∀ r ∈ loadRecords rt now lines buffer, Aware rt r) :
    ∃ latest, IsLatest rt latest ((loadRecords rt now lines buffer).filter (f.keeps rt)) ∧
      listLogs rt now lines buffer f limit cursor =
        let view := ((loadRecords rt now lines buffer).filter (f.keeps rt)).reverse
        let start := (max 0 (cursor.getD 0)).toNat
        let page := (view.drop start).take (capped limit)
        .ok ⟨page, page.length, view.length,
          if start + capped limit < view.length then some (start + capped limit) else none,
          latest.map rt.isoformat, buffer.capacity⟩ := by
  have hkept : ∀ r ∈ (loadRecords rt now lines buffer).filter (f.keeps rt), Aware rt r :=
    fun r hr => h r (List.mem_of_mem_filter hr)
  obtain ⟨latest, hrun, -, hall, hfrom⟩ := lastErrorAtOf_spec rt hkept none nofun
  refine ⟨latest, ⟨hall, fun t ht => (hfrom t ht).resolve_left nofun⟩, ?_⟩
  rw [listLogs, applyLogFilters_eq rt f h]
  simp only [bind, Except.bind, hrun, List.length_reverse]
  rfl

/-! ### The merge -/

theorem mem_mergeNew {seen : List (String × String × String)} {records : List LogRecord}
    {r : LogRecord} (h : r ∈ mergeNew seen records) : r ∈ records ∧ r.key ∉ seen := by
  induction records generalizing seen with
  | nil => exact absurd h List.not_mem_nil
  | cons first rest ih =>
    rw [mergeNew] at h
    split at h
    · exact (ih h).imp_left (List.mem_cons_of_mem _)
    · rename_i hnew
      rcases List.mem_cons.mp h with rfl | h
      · exact ⟨List.mem_cons_self, hnew⟩
      · obtain ⟨hmem, hseen⟩ := ih h
        exact ⟨List.mem_cons_of_mem _ hmem, fun hkey => hseen (List.mem_cons_of_mem _ hkey)⟩

theorem nodup_mergeNew (seen : List (String × String × String)) (records : List LogRecord) :
    ((mergeNew seen records).map LogRecord.key).Nodup := by
  induction records generalizing seen with
  | nil => exact List.nodup_nil
  | cons first rest ih =>
    rw [mergeNew]
    split
    · exact ih seen
    · rw [List.map_cons, List.nodup_cons]
      refine ⟨fun hmem => ?_, ih _⟩
      obtain ⟨r, hr, hkey⟩ := List.mem_map.mp hmem
      exact (mem_mergeNew hr).2 (hkey ▸ List.mem_cons_self)

theorem keys_mergeNew {seen : List (String × String × String)} {records : List LogRecord}
    {key : String × String × String} :
    key ∈ (mergeNew seen records).map LogRecord.key ↔
      key ∈ records.map LogRecord.key ∧ key ∉ seen := by
  induction records generalizing seen with
  | nil => simp [mergeNew]
  | cons first rest ih =>
    rw [mergeNew]
    split <;> rename_i hfirst <;> simp only [List.map_cons, List.mem_cons, ih]
    · constructor
      · exact fun ⟨hmem, hnew⟩ => ⟨.inr hmem, hnew⟩
      · rintro ⟨rfl | hmem, hnew⟩
        · exact absurd hfirst hnew
        · exact ⟨hmem, hnew⟩
    · by_cases hkey : key = first.key
      · simp [hkey, hfirst]
      · simp [hkey]

theorem mem_mergeNew_append {seen : List (String × String × String)} {tail own : List LogRecord}
    {r : LogRecord} (h : r ∈ mergeNew seen (tail ++ own)) :
    r ∈ tail ∨ r ∈ own ∧ r.key ∉ tail.map LogRecord.key := by
  induction tail generalizing seen with
  | nil => exact .inr ⟨(mem_mergeNew h).1, List.not_mem_nil⟩
  | cons first rest ih =>
    have hsplit : ∀ {seen' : List (String × String × String)},
        r ∈ mergeNew seen' (rest ++ own) → first.key ∈ seen' →
          r ∈ first :: rest ∨ r ∈ own ∧ r.key ∉ (first :: rest).map LogRecord.key := by
      intro seen' hmem hfirst
      have hnew := (mem_mergeNew hmem).2
      rcases ih hmem with hrest | ⟨hown, hkey⟩
      · exact .inl (List.mem_cons_of_mem _ hrest)
      · refine .inr ⟨hown, fun hin => ?_⟩
        rcases List.mem_cons.mp hin with hsame | hin
        · exact hnew (hsame ▸ hfirst)
        · exact hkey hin
    rw [List.cons_append, mergeNew] at h
    split at h
    · rename_i hfirst
      exact hsplit h hfirst
    · rcases List.mem_cons.mp h with rfl | h
      · exact .inl List.mem_cons_self
      · exact hsplit h List.mem_cons_self

/-- What an answer is taken from, where the file has records. -/
structure Merged (tail own served : List LogRecord) : Prop where
  sorted : served.Pairwise fun r r' => r.timestamp ≤ r'.timestamp
  once : (served.map LogRecord.key).Nodup
  keys : ∀ key, key ∈ served.map LogRecord.key ↔
    key ∈ tail.map LogRecord.key ∨ key ∈ own.map LogRecord.key
  source : ∀ r ∈ served, r ∈ tail ∨ r ∈ own ∧ r.key ∉ tail.map LogRecord.key

theorem loadRecords_merged (now : Nat → Int) (lines : List String) (buffer : LogRingBuffer)
    (h : tailLogFile rt now lines buffer.capacity ≠ []) :
    Merged (tailLogFile rt now lines buffer.capacity) buffer.records
      (loadRecords rt now lines buffer) := by
  unfold loadRecords
  split
  · contradiction
  · rename_i r rest htail
    rw [htail]
    have hperm := List.mergeSort_perm (mergeNew [] (r :: rest ++ buffer.records)) fun r r' =>
      decide (r.timestamp ≤ r'.timestamp)
    constructor
    · refine (List.pairwise_mergeSort ?_ ?_ _).imp of_decide_eq_true
      · simp only [decide_eq_true_eq]
        exact fun a b c => le_trans
      · simp only [Bool.or_eq_true, decide_eq_true_eq]
        exact fun a b => le_total _ _
    · exact (hperm.map _).nodup_iff.mpr (nodup_mergeNew ..)
    · intro key
      rw [(hperm.map _).mem_iff, keys_mergeNew, List.map_append, List.mem_append]
      simp
    · exact fun r hr => mem_mergeNew_append (hperm.mem_iff.mp hr)

theorem loadRecords_nil (now : Nat → Int) (buffer : LogRingBuffer) :
    loadRecords rt now [] buffer = buffer.records := by
  have htail : tailLogFile rt now [] buffer.capacity = [] := by simp [tailLogFile]
  rw [loadRecords, htail]

theorem loadRecords_cases (now : Nat → Int) (lines : List String) (buffer : LogRingBuffer)
    {r : LogRecord} (h : r ∈ loadRecords rt now lines buffer) :
    r ∈ tailLogFile rt now lines buffer.capacity ∨ r ∈ buffer.records := by
  by_cases htail : tailLogFile rt now lines buffer.capacity = []
  · rw [loadRecords, htail] at h
    exact .inr h
  · exact ((loadRecords_merged rt now lines buffer htail).source r h).imp id And.left

/-! ### What is shown of the bindings -/

def IsPlain : PyValue → Prop
  | .bool _ | .int _ | .float _ | .str _ => True
  | _ => False

/-- Known keys, each once, with plain values. -/
structure Safe (context : List (String × PyValue)) : Prop where
  once : (context.map Prod.fst).Nodup
  known : ∀ entry ∈ context, entry.1 ∈ SAFE_CONTEXT_KEYS ∧ IsPlain entry.2

theorem safe_safeContext (eventDict : List (String × PyValue)) :
    Safe (safeContext rt eventDict) := by
  have hkeys : (safeContext rt eventDict).map Prod.fst = rt.keyOrder.filter fun key =>
      ((eventDict.lookup key).bind (plainValue rt)).isSome := by
    unfold safeContext
    induction rt.keyOrder with
    | nil => rfl
    | cons key rest ih =>
      rw [List.filterMap_cons, List.filter_cons]
      cases (eventDict.lookup key).bind (plainValue rt) with
      | none => exact ih
      | some value => exact congrArg (key :: ·) ih
  have hnodup : SAFE_CONTEXT_KEYS.Nodup := by decide
  refine ⟨?_, ?_⟩
  · rw [hkeys]
    exact (rt.keyOrder_perm.nodup_iff.mpr hnodup).filter _
  · intro entry hentry
    obtain ⟨key, hkey, hvalue⟩ := List.mem_filterMap.mp hentry
    obtain ⟨value, hplain, rfl⟩ := Option.map_eq_some_iff.mp hvalue
    refine ⟨rt.keyOrder_perm.mem_iff.mp hkey, ?_⟩
    obtain ⟨bound, -, hbound⟩ := Option.bind_eq_some_iff.mp hplain
    cases bound <;> cases hbound <;> trivial

/-- Two sets of bindings with the same values under the keys. -/
def SameAt (keys : List String) (d d' : List (String × PyValue)) : Prop :=
  ∀ key ∈ keys, d.lookup key = d'.lookup key

theorem safeContext_congr {d d' : List (String × PyValue)} (h : SameAt SAFE_CONTEXT_KEYS d d') :
    safeContext rt d = safeContext rt d' := by
  unfold safeContext
  apply List.filterMap_congr
  intro key hkey
  rw [h key (rt.keyOrder_perm.mem_iff.mp hkey)]

/-- The messages differ in other bindings at most. -/
inductive SameMessage : PyValue → PyValue → Prop where
  | same (msg : PyValue) : SameMessage msg msg
  | dict {d d' : List (String × PyValue)} :
      SameAt ("event" :: "category" :: SAFE_CONTEXT_KEYS) d d' → SameMessage (.dict d) (.dict d')

/-- The records differ in other bindings at most. -/
structure SameRecord (record record' : StdRecord) : Prop where
  created : record.created = record'.created
  levelname : record.levelname = record'.levelname
  name : record.name = record'.name
  msg : SameMessage record.msg record'.msg

theorem recordToLogRecord_congr {record record' : StdRecord} (h : SameRecord record record') :
    recordToLogRecord rt record = recordToLogRecord rt record' := by
  obtain ⟨created, hrange, levelname, name, msg⟩ := record
  obtain ⟨created', hrange', levelname', name', msg'⟩ := record'
  obtain ⟨rfl, rfl, rfl, hmsg⟩ := h
  cases hmsg with
  | same => rfl
  | dict hsame =>
    have hevent := hsame "event" List.mem_cons_self
    have hcategory := hsame "category" (List.mem_cons_of_mem _ List.mem_cons_self)
    have hcontext := safeContext_congr rt fun key hkey =>
      hsame key (List.mem_cons_of_mem _ (List.mem_cons_of_mem _ hkey))
    simp only [recordToLogRecord, hevent, hcategory, hcontext]

/-- The lines are JSON objects that differ under other keys at most. -/
inductive SameLine : String → String → Prop where
  | same (line : String) : SameLine line line
  | dict {line line' : String} {d d' : List (String × PyValue)} : strip line ≠ "" →
      strip line' ≠ "" → rt.loads (strip line) = some (.dict d) →
      rt.loads (strip line') = some (.dict d') →
      SameAt ("timestamp" :: "level" :: "logger" :: "event" :: "category" :: SAFE_CONTEXT_KEYS)
        d d' →
      SameLine line line'

theorem lineRecord_congr {now : Int} {line line' : String} (h : SameLine rt line line') :
    lineRecord rt now line = lineRecord rt now line' := by
  cases h with
  | same => rfl
  | dict hline hline' hloads hloads' hsame =>
    have hcontext := safeContext_congr rt fun key hkey => hsame key (by simp [hkey])
    simp only [lineRecord, hline, hline', hloads, hloads', if_false, hcontext,
      hsame "timestamp" (by simp), hsame "level" (by simp), hsame "logger" (by simp),
      hsame "category" (by simp), hsame "event" (by simp)]

theorem tailLogFile_congr (now : Nat → Int) {lines lines' : List String}
    (h : lines.Forall₂ (SameLine rt) lines') (maxRecords : Nat) :
    tailLogFile rt now lines maxRecords = tailLogFile rt now lines' maxRecords := by
  have hlines : ∀ {ls ls' : List String}, ls.Forall₂ (SameLine rt) ls' → ∀ i,
      (ls.zipIdx i).filterMap (fun entry => lineRecord rt (now entry.2) entry.1) =
        (ls'.zipIdx i).filterMap fun entry => lineRecord rt (now entry.2) entry.1 := by
    intro ls ls' hls
    induction hls with
    | nil => exact fun _ => rfl
    | cons hline _ ih =>
      intro i
      simp only [List.zipIdx_cons, List.filterMap_cons, lineRecord_congr rt hline, ih]
  rw [tailLogFile, tailLogFile, ← h.length_eq]
  exact hlines (List.forall₂_drop _ h) 0

/-! ### What a process serves -/

/-- What is in the buffer after some records were logged, each with the time the clock shows. -/
def logged (buffer : LogRingBuffer) (run : List (Int × StdRecord)) : LogRingBuffer :=
  run.foldl (fun buffer i => emit rt i.1 buffer i.2) buffer

theorem logged_congr (buffer : LogRingBuffer) {run run' : List (Int × StdRecord)}
    (h : run.Forall₂ (fun i i' => i.1 = i'.1 ∧ SameRecord i.2 i'.2) run') :
    logged rt buffer run = logged rt buffer run' := by
  unfold logged
  induction h generalizing buffer with
  | nil => rfl
  | @cons i i' _ _ hsame _ ih =>
    obtain ⟨now, record⟩ := i
    obtain ⟨now', record'⟩ := i'
    obtain ⟨rfl, hrecord⟩ := hsame
    simp only [List.foldl_cons, emit, recordToLogRecord_congr rt hrecord]
    exact ih _

theorem empty_emitted {capacity : Nat} {hcapacity : 0 < capacity} :
    ∀ r ∈ (LogRingBuffer.empty capacity hcapacity).records, Emitted rt r :=
  fun _ hr => absurd hr List.not_mem_nil

theorem logged_emitted {buffer : LogRingBuffer} (h : ∀ r ∈ buffer.records, Emitted rt r)
    (run : List (Int × StdRecord)) : ∀ r ∈ (logged rt buffer run).records, Emitted rt r := by
  induction run generalizing buffer with
  | nil => exact h
  | cons i rest ih =>
    apply ih
    intro r hr
    rcases mem_push rt hr with hold | rfl
    · exact h r hold
    · exact ⟨i.2, rfl⟩

theorem Emitted.safe {r : LogRecord} (h : Emitted rt r) : Safe r.context := by
  obtain ⟨record, rfl⟩ := h
  rw [recordToLogRecord]
  split
  · exact safe_safeContext rt _
  · exact ⟨List.nodup_nil, nofun⟩

theorem tailLogFile_safe {now : Nat → Int} {lines : List String} {maxRecords : Nat}
    {r : LogRecord} (h : r ∈ tailLogFile rt now lines maxRecords) : Safe r.context := by
  obtain ⟨⟨line, i⟩, -, hline⟩ := List.mem_filterMap.mp h
  simp only [lineRecord] at hline
  split at hline
  · cases hline
  · split at hline <;> cases hline
    · exact ⟨List.nodup_nil, nofun⟩
    · exact safe_safeContext rt _

/-- The library at the start of 1970. -/
def epochRuntime : LogRuntime where
  lower := String.toLower
  isDigit := Char.isDigit
  repr _ := ""
  loads _ := none
  isoformat t :=
    if t.micros = 0 then "1970-01-01T00:00:00+00:00"
    else String.ofList ('+' :: List.replicate t.micros.natAbs (if t.micros < 0 then '-' else '0'))
  fromisoformat text :=
    if text = "1970-01-01T00:00:00+00:00" then some ⟨true, 0⟩
    else some ⟨true, if '-' ∈ text.toList then -(text.toList.length - 1) else text.toList.length - 1⟩
  keyOrder := SAFE_CONTEXT_KEYS
  keyOrder_perm := .refl _
  fromisoformat_isoformat t _ _ := by
    by_cases hzero : t = 0
    · simp [hzero]
    · simp only [hzero, if_false]
      rw [if_neg]
      · by_cases hneg : t < 0
        · simp [hneg, List.mem_replicate, hzero, abs_of_neg hneg]
        · simp [hneg, List.mem_replicate]
          omega
      · intro heq
        have hhead := congrArg String.toList heq
        simp at hhead
  isoformat_plus t _ _ := by
    by_cases hzero : t = 0
    · simp [hzero]
    · simp [hzero]

/-- A record with a token among its bindings. -/
def loginRecord (token : String) : StdRecord where
  created := 0
  created_range := by decide
  levelname := "INFO"
  name := "auditarr.api"
  msg := .dict [("event", .str "login"), ("category", .str "api"), ("token", .str token)]

end LogBuffer
