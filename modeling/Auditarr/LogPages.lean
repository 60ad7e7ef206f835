/-
  Auditarr/LogPages.lean
  ======================
  **Paging through the log while records come** (`list_logs` in `app/api/v1/system.py`).

  The cursor is an offset from the newest record, and between two requests the process goes on
  logging.  A reader who follows `next_cursor` to the end has got every record that was in the
  buffer when it began, passes the filters and was not evicted since, in order, after no more
  requests than fill the buffer; if nothing was logged meanwhile it has got each of them once.
-/
import Auditarr.LogBuffer
import Auditarr.OffsetCursor
import Auditarr.Runs

namespace LogPages

open LogBuffer OffsetCursor Runs

/-- The buffer of the process that answers, and the reader of its log. -/
structure Console where
  buffer : LogRingBuffer
  reader : Reader LogRecord

inductive Action where
  /-- The process logs a record, at a time. -/
  | log (now : Int) (record : StdRecord)
  /-- The reader asks for the next page; there is no file that the processes share. -/
  | request (now : Nat → Int)

def Action.isRequest : Action → Bool
  | log .. => false
  | request _ => true

section Steps

variable (rt : LogRuntime) (f : LogFilter) (limit : Int)

/-- The cursor is left out of the first request. -/
def cursorOf (offset : Nat) : Option Int := if offset = 0 then none else some offset

def step (c : Console) : Action → Console
  | .log now record => { c with buffer := emit rt now c.buffer record }
  | .request now => match c.reader.next with
    | none => c
    | some offset => match listLogs rt now [] c.buffer f limit (cursorOf offset) with
      | .ok response =>
        { c with reader := ⟨response.nextCursor, c.reader.read ++ response.records⟩ }
      | .error _ => c

/-- What passes the filters, the newest first. -/
def view (records : List LogRecord) : List LogRecord := (records.filter (f.keeps rt)).reverse

/-- The records that were logged. -/
def newRecords (done : List Action) : List LogRecord :=
  done.filterMap fun
    | .log _ record => some (recordToLogRecord rt record)
    | .request _ => none

/-- What is left of the records of a buffer after a number of others was logged. -/
def kept (buffer : LogRingBuffer) (count : Nat) : List LogRecord :=
  buffer.records.drop (buffer.records.length + count - buffer.capacity)

/-! ### One request -/

variable {rt f limit}

theorem view_append (old new : List LogRecord) :
    view rt f (old ++ new) = view rt f new ++ view rt f old := by
  simp [view]

theorem cursorOf_start (offset : Nat) : (max 0 ((cursorOf offset).getD 0)).toNat = offset := by
  unfold cursorOf
  split <;> simp_all

theorem step_request {c : Console} (h : ∀ r ∈ c.buffer.records, Emitted rt r) (now : Nat → Int) :
    step rt f limit c (.request now) =
      { c with reader := c.reader.request (capped limit) (view rt f c.buffer.records) } := by
  simp only [step, Reader.request]
  cases hnext : c.reader.next with
  | none => rfl
  | some offset =>
    have haware : ∀ r ∈ loadRecords rt now [] c.buffer, Aware rt r := by
      rw [loadRecords_nil]
      exact fun r hr => (h r hr).aware
    obtain ⟨latest, -, hanswer⟩ :=
      listLogs_eq rt now [] c.buffer f limit (cursorOf offset) haware
    rw [loadRecords_nil, cursorOf_start] at hanswer
    simp only [hanswer]
    rfl

/-! ### A run -/

/-- How things are after some actions. -/
structure Followed (rt : LogRuntime) (f : LogFilter) (limit : Int) (buffer : LogRingBuffer)
    (done : List Action) (c : Console) : Prop where
  capacity : c.buffer.capacity = buffer.capacity
  source : ∀ r ∈ c.buffer.records, r ∈ buffer.records ∨ r ∈ newRecords rt done
  size : c.buffer.records.length =
    min (buffer.records.length + (newRecords rt done).length) buffer.capacity
  covers : ∃ fresh, c.buffer.records = kept buffer (newRecords rt done).length ++ fresh ∧
    c.reader.Covers (view rt f fresh).length (view rt f (kept buffer (newRecords rt done).length))
  advanced : c.reader.Advanced (capped limit) buffer.capacity (done.countP Action.isRequest)
  read : ∀ r ∈ c.reader.read,
    f.keeps rt r = true ∧ (r ∈ buffer.records ∨ r ∈ newRecords rt done)
  quiet : newRecords rt done = [] →
    c.buffer = buffer ∧ c.reader.Exact (view rt f buffer.records)

theorem followed_start (buffer : LogRingBuffer) :
    Followed rt f limit buffer [] ⟨buffer, Reader.start⟩ := by
  have hkept : kept buffer 0 = buffer.records := by
    simp [kept, Nat.sub_eq_zero_of_le buffer.within]
  constructor
  · rfl
  · exact fun r hr => .inl hr
  · simp [newRecords, buffer.within]
  · exact ⟨[], by simp [newRecords, hkept], covers_start⟩
  · exact advanced_start (capped limit) buffer.capacity
  · exact fun r hr => absurd hr List.not_mem_nil
  · exact fun _ => ⟨rfl, exact_start _⟩

theorem length_push {now : Int} {buffer : LogRingBuffer} {r : LogRecord} :
    (buffer.push rt now r).records.length = min (buffer.records.length + 1) buffer.capacity := by
  have hwithin := buffer.within
  simp only [LogRingBuffer.push, List.length_drop, List.length_append, List.length_singleton]
  omega

theorem push_kept (rt : LogRuntime) (now : Int) (r : LogRecord) {buffer b : LogRingBuffer}
    {count : Nat} {fresh : List LogRecord} (hcapacity : b.capacity = buffer.capacity)
    (hsize : b.records.length = min (buffer.records.length + count) buffer.capacity)
    (h : b.records = kept buffer count ++ fresh) :
    ∃ evicted fresh', (b.push rt now r).records = kept buffer (count + 1) ++ fresh' ∧
      kept buffer count = evicted ++ kept buffer (count + 1) ∧
      (kept buffer (count + 1) = [] ∨ fresh' = fresh ++ [r]) := by
  have hdrop : ∀ n, (kept buffer count).drop n =
      buffer.records.drop (buffer.records.length + count - buffer.capacity + n) := by
    intro n
    rw [kept, List.drop_drop]
  have hnext : kept buffer (count + 1) =
      (kept buffer count).drop (b.records.length + 1 - buffer.capacity) := by
    rw [hdrop, kept]
    congr 1
    omega
  refine ⟨(kept buffer count).take (b.records.length + 1 - buffer.capacity),
    (fresh ++ [r]).drop (b.records.length + 1 - buffer.capacity - (kept buffer count).length),
    ?_, ?_, ?_⟩
  · change (b.records ++ [r]).drop (b.records.length + 1 - b.capacity) = _
    rw [hcapacity, hnext, h, List.append_assoc, List.drop_append]
  · rw [hnext, List.take_append_drop]
  · rw [hnext]
    by_cases hall : b.records.length + 1 - buffer.capacity ≤ (kept buffer count).length
    · exact .inr (by rw [Nat.sub_eq_zero_of_le hall, List.drop_zero])
    · exact .inl (List.drop_eq_nil_of_le (by omega))

theorem Followed.log {buffer : LogRingBuffer} {done : List Action} {c : Console}
    (h : Followed rt f limit buffer done c) (now : Int) (record : StdRecord) :
    Followed rt f limit buffer (done ++ [.log now record])
      (step rt f limit c (.log now record)) := by
  have hnew : newRecords rt (done ++ [.log now record]) =
      newRecords rt done ++ [recordToLogRecord rt record] := by
    simp [newRecords]
  obtain ⟨fresh, hrecords, hcovers⟩ := h.covers
  obtain ⟨evicted, fresh', hpush, hsplit, hfresh⟩ :=
    push_kept rt now (recordToLogRecord rt record) h.capacity h.size hrecords
  constructor
  · exact h.capacity
  · intro r hr
    rw [hnew, List.mem_append, List.mem_singleton]
    rcases mem_push rt hr with hold | hsame
    · exact (h.source r hold).imp_right .inl
    · exact .inr (.inr hsame)
  · rw [hnew, List.length_append, List.length_singleton]
    change (c.buffer.push rt now _).records.length = _
    rw [length_push, h.size, h.capacity]
    omega
  · rw [hnew, List.length_append, List.length_singleton]
    refine ⟨fresh', hpush, ?_⟩
    have hinitial : view rt f (kept buffer ((newRecords rt done).length + 1)) <+:
        view rt f (kept buffer (newRecords rt done).length) := by
      rw [hsplit, view_append]
      exact List.prefix_append ..
    rcases hfresh with hnone | rfl
    · rw [hnone]
      exact covers_nil
    · rw [view_append, List.length_append, Nat.add_comm]
      exact (hcovers.of_initial hinitial).later _
  · rw [List.countP_append]
    exact h.advanced
  · intro r hr
    rw [hnew, List.mem_append]
    exact (h.read r hr).imp_right fun hsource => hsource.imp_right .inl
  · intro hnone
    rw [hnew] at hnone
    simp at hnone

theorem newRecords_emitted {done : List Action} {r : LogRecord} (h : r ∈ newRecords rt done) :
    Emitted rt r := by
  obtain ⟨action, -, haction⟩ := List.mem_filterMap.mp h
  cases action with
  | log now record => exact ⟨record, (Option.some.inj haction).symm⟩
  | request now => cases haction

theorem Followed.request {buffer : LogRingBuffer} (hemitted : ∀ r ∈ buffer.records, Emitted rt r)
    {done : List Action} {c : Console} (h : Followed rt f limit buffer done c) (now : Nat → Int) :
    Followed rt f limit buffer (done ++ [.request now]) (step rt f limit c (.request now)) := by
  have hnew : newRecords rt (done ++ [.request now]) = newRecords rt done := by
    simp [newRecords]
  have hown : ∀ r ∈ c.buffer.records, Emitted rt r := fun r hr =>
    (h.source r hr).elim (hemitted r) newRecords_emitted
  rw [step_request hown]
  obtain ⟨fresh, hrecords, hcovers⟩ := h.covers
  constructor
  · exact h.capacity
  · rw [hnew]
    exact h.source
  · rw [hnew]
    exact h.size
  · rw [hnew]
    refine ⟨fresh, hrecords, ?_⟩
    simp only [hrecords, view_append]
    exact hcovers.request
  · rw [List.countP_append]
    apply h.advanced.request
    rw [view, List.length_reverse, ← h.capacity]
    exact (List.length_filter_le ..).trans c.buffer.within
  · rw [hnew]
    intro r hr
    rcases mem_request hr with hbefore | hpage
    · exact h.read r hbefore
    · obtain ⟨hmem, hkeeps⟩ := List.mem_filter.mp (List.mem_reverse.mp hpage)
      exact ⟨hkeeps, h.source r hmem⟩
  · rw [hnew]
    intro hnone
    obtain ⟨hbuffer, hexact⟩ := h.quiet hnone
    refine ⟨hbuffer, ?_⟩
    simp only [hbuffer]
    exact hexact.request

theorem followed (buffer : LogRingBuffer) (hemitted : ∀ r ∈ buffer.records, Emitted rt r)
    (actions : List Action) :
    Followed rt f limit buffer actions
      (final (step rt f limit) ⟨buffer, Reader.start⟩ actions) := by
  refine final_history _ (followed_start buffer) (fun done c action h => ?_) actions
  cases action with
  | log now record => exact h.log now record
  | request now => exact h.request hemitted now

end Steps

/-- Someone follows the cursor while records are logged, with no log file to read.  At the end
    they have all records of the buffer that pass the filters and are still in it, the newest
    first, and nothing that does not pass; they get there with no more requests than fill the
    buffer; and what they have is what an export writes, the other way round, if nothing was
    logged meanwhile. -/
theorem following_the_cursor (rt : LogRuntime) (f : LogFilter) (limit : Int) (capacity : Nat)
    (hcapacity : 0 < capacity) (earlier : List (Int × StdRecord)) (actions : List Action) :
    let buffer := logged rt (LogRingBuffer.empty capacity hcapacity) earlier
    let c := final (step rt f limit) ⟨buffer, Reader.start⟩ actions
    (c.reader.next = none →
      (view rt f (kept buffer (newRecords rt actions).length)).Sublist c.reader.read) ∧
    (∃ fresh, c.buffer.records = kept buffer (newRecords rt actions).length ++ fresh) ∧
    (∀ r ∈ c.reader.read,
      f.keeps rt r = true ∧ (r ∈ buffer.records ∨ r ∈ newRecords rt actions)) ∧
    (0 < actions.countP Action.isRequest →
      buffer.capacity ≤ actions.countP Action.isRequest * capped limit → c.reader.next = none) ∧
    (newRecords rt actions = [] → c.reader.next = none → ∀ now,
      exportLogs rt now [] buffer f = .ok c.reader.read.reverse) := by
  intro buffer c
  have hemitted : ∀ r ∈ buffer.records, Emitted rt r := logged_emitted rt (empty_emitted rt) earlier
  have h : Followed rt f limit buffer actions c := followed buffer hemitted actions
  obtain ⟨fresh, hrecords, hcovers⟩ := h.covers
  refine ⟨hcovers.of_done, ⟨fresh, hrecords⟩, h.read, h.advanced.done, ?_⟩
  intro hnone hnext now
  rw [(h.quiet hnone).2.of_done hnext, exportLogs, loadRecords_nil, view, List.reverse_reverse]
  exact applyLogFilters_eq rt f fun r hr => (hemitted r hr).aware

theorem following_the_cursor_login :
    (final (step epochRuntime ⟨"api", none, none⟩ 1)
      ⟨logged epochRuntime (.empty 2 (by decide)) [(0, loginRecord "first")], Reader.start⟩
      [.request fun _ => 0, .log 0 (loginRecord "second"), .request fun _ => 0]).reader.next = none :=
  (following_the_cursor epochRuntime ⟨"api", none, none⟩ 1 2 (by decide)
    [(0, loginRecord "first")] _).2.2.2.1 (by decide) (by decide)

end LogPages
