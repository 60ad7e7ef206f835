/-
  Auditarr/SseStream.lean
  =======================
  **A server-sent event stream that reconnects** (`app/core/sse.py`, `stream_events`).

  The stream connects, hands on the events of the blocks that it receives whole, and connects
  again after a pause when the connection ends or fails.  Events of two connections never run
  into each other: a block that is cut off is dropped, and before the events of the next
  connection there is a `RECONNECTING` event.  Only a status between 400 and 499 ends the stream.
-/
import Auditarr.SseBlock

namespace SseStream

open SseBlock TextLines

/-! ### The stream -/

/-- `_BACKOFF`, in seconds. -/
def BACKOFF : List Nat := [1, 2, 4, 8, 16, 30]

/-- `_RECONNECTING_MARKER`. -/
def RECONNECTING_MARKER : String := "__auditarr_reconnecting__"

/-- `reconnecting_event`. -/
def reconnectingEvent : SseEvent :=
  ⟨RECONNECTING_MARKER.toList, some "RECONNECTING".toList, none, none⟩

/-- `is_reconnecting_event`. -/
def isReconnectingEvent (evt : SseEvent) : Bool := evt.eventType == some "RECONNECTING".toList

/-- How a turn of the outer loop goes: what the HTTP client answers. -/
inductive Attempt where
  /-- Nothing is answered: a transport error, or any other exception. -/
  | failed
  /-- A status from 400 on. -/
  | refused (status : Nat) (h : 400 ≤ status)
  /-- The lines that the client makes of the response, up to its end or to an error. -/
  | streamed (lines : List (List Char))

/-- `400 <= status < 500`. -/
def Attempt.fatal : Attempt → Bool
  | refused status _ => status < 500
  | _ => false

/-- The lines of an answer. -/
def Attempt.lines? : Attempt → Option (List (List Char))
  | streamed lines => some lines
  | _ => none

/-- What the stream does. -/
inductive Output where
  | yields (event : SseEvent)
  | sleeps (seconds : Nat)
  /-- The `HTTPStatusError` is raised. -/
  | raises (status : Nat)

/-- The loop over the lines, with the lines of the block so far. -/
def readBlocks (blockBuf : List (List Char)) : List (List Char) → List SseEvent
  | [] => []
  | line :: rest =>
      if line ≠ [] then readBlocks (blockBuf ++ [line]) rest
      else
        let blockText := ['\n'].intercalate blockBuf
        if blockText = [] then readBlocks [] rest
        else (parseEventBlock blockText).toList ++ readBlocks [] rest

/-- `sleep_s`. -/
def pause (backoffIdx : Nat) : Nat := BACKOFF.getD (min backoffIdx (BACKOFF.length - 1)) 0

/-- `stream_events`, over the answers that it gets. -/
def streamEvents (backoffIdx : Nat) (firstConnection : Bool) : List Attempt → List Output
  | [] => []
  | .failed :: rest =>
      .sleeps (pause backoffIdx) :: streamEvents (backoffIdx + 1) firstConnection rest
  | .refused status _ :: rest =>
      if status < 500 then [.raises status]
      else .sleeps (pause backoffIdx) :: streamEvents (backoffIdx + 1) firstConnection rest
  | .streamed lines :: rest =>
      (if firstConnection then [] else [.yields reconnectingEvent]) ++
        (readBlocks [] lines).map .yields ++
          .sleeps (pause 0) :: streamEvents 1 false rest

/-! ### The events -/

def Attempt.status? : Attempt → Option Nat
  | refused status _ => some status
  | _ => none

/-- The events among the outputs. -/
def events (outputs : List Output) : List SseEvent :=
  outputs.filterMap fun
    | .yields event => some event
    | _ => none

/-- The pauses among them. -/
def pauses (outputs : List Output) : List Nat :=
  outputs.filterMap fun
    | .sleeps seconds => some seconds
    | _ => none

/-- The statuses that are raised. -/
def raised (outputs : List Output) : List Nat :=
  outputs.filterMap fun
    | .raises status => some status
    | _ => none

section Outputs

variable (outputs outputs' : List Output)

@[simp] theorem events_nil : events [] = [] := rfl
@[simp] theorem events_cons (e : SseEvent) :
    events (.yields e :: outputs) = e :: events outputs := rfl
@[simp] theorem events_sleeps (n : Nat) : events (.sleeps n :: outputs) = events outputs := rfl
@[simp] theorem events_raises (n : Nat) : events (.raises n :: outputs) = events outputs := rfl
@[simp] theorem events_append : events (outputs ++ outputs') = events outputs ++ events outputs' :=
  List.filterMap_append
@[simp] theorem events_yields (es : List SseEvent) : events (es.map .yields) = es := by
  rw [events, List.filterMap_map]
  exact List.filterMap_some

@[simp] theorem pauses_nil : pauses [] = [] := rfl
@[simp] theorem pauses_cons (e : SseEvent) : pauses (.yields e :: outputs) = pauses outputs := rfl
@[simp] theorem pauses_sleeps (n : Nat) : pauses (.sleeps n :: outputs) = n :: pauses outputs := rfl
@[simp] theorem pauses_raises (n : Nat) : pauses (.raises n :: outputs) = pauses outputs := rfl
@[simp] theorem pauses_append : pauses (outputs ++ outputs') = pauses outputs ++ pauses outputs' :=
  List.filterMap_append
@[simp] theorem pauses_yields (es : List SseEvent) : pauses (es.map .yields) = [] := by
  simp [pauses, List.filterMap_map]

@[simp] theorem raised_nil : raised [] = [] := rfl
@[simp] theorem raised_cons (e : SseEvent) : raised (.yields e :: outputs) = raised outputs := rfl
@[simp] theorem raised_sleeps (n : Nat) : raised (.sleeps n :: outputs) = raised outputs := rfl
@[simp] theorem raised_raises (n : Nat) : raised (.raises n :: outputs) = n :: raised outputs := rfl
@[simp] theorem raised_append : raised (outputs ++ outputs') = raised outputs ++ raised outputs' :=
  List.filterMap_append
@[simp] theorem raised_yields (es : List SseEvent) : raised (es.map .yields) = [] := by
  simp [raised, List.filterMap_map]

end Outputs

/-- What precedes the events of a connection. -/
def announcement (firstConnection : Bool) : List SseEvent :=
  if firstConnection then [] else [reconnectingEvent]

theorem streamEvents_streamed (idx : Nat) (first : Bool) (lines : List (List Char))
    (rest : List Attempt) : streamEvents idx first (.streamed lines :: rest) =
      (announcement first ++ readBlocks [] lines).map .yields ++
        .sleeps (pause 0) :: streamEvents 1 false rest := by
  cases first <;> simp [streamEvents, announcement]

/-- The answers up to the first that is fatal. -/
def answered (attempts : List Attempt) : List Attempt := attempts.takeWhile fun a => !a.fatal

/-- The events of each connection. -/
def connections (attempts : List Attempt) : List (List SseEvent) :=
  (answered attempts).filterMap fun a => a.lines?.map (readBlocks [])

@[simp] theorem connections_nil : connections [] = [] := rfl

@[simp] theorem connections_failed (rest : List Attempt) :
    connections (.failed :: rest) = connections rest := rfl

@[simp] theorem connections_refused {status : Nat} {h : 400 ≤ status} (rest : List Attempt) :
    connections (.refused status h :: rest) = if status < 500 then [] else connections rest := by
  by_cases hfatal : status < 500 <;>
    simp [connections, answered, Attempt.fatal, Attempt.lines?, hfatal]

@[simp] theorem connections_streamed (lines : List (List Char)) (rest : List Attempt) :
    connections (.streamed lines :: rest) = readBlocks [] lines :: connections rest := rfl

theorem append_announced (es : List SseEvent) (groups : List (List SseEvent)) :
    es ++ groups.flatMap (reconnectingEvent :: ·) =
      [reconnectingEvent].intercalate (es :: groups) := by
  induction groups generalizing es with
  | nil => simp
  | cons group others ih =>
    rw [List.intercalate_cons_cons, ← ih group]
    simp

theorem events_stream (attempts : List Attempt) (idx : Nat) (first : Bool) :
    events (streamEvents idx first attempts) =
      if first then [reconnectingEvent].intercalate (connections attempts)
      else (connections attempts).flatMap (reconnectingEvent :: ·) := by
  induction attempts generalizing idx first with
  | nil => cases first <;> rfl
  | cons a rest ih =>
    cases a with
    | failed => simp [streamEvents, ih]
    | refused status h => by_cases hfatal : status < 500 <;> simp [streamEvents, hfatal, ih]
    | streamed lines =>
      rw [connections_streamed, ← append_announced]
      cases first <;> simp [streamEvents_streamed, announcement, ih]

/-! ### The pauses and the end -/

/-- Answers after which the stream pauses and tries again, without a connection. -/
def Attempt.retried : Attempt → Bool
  | failed => true
  | refused status _ => decide (500 ≤ status)
  | streamed _ => false

theorem pauses_retried {attempts : List Attempt} (h : ∀ a ∈ attempts, a.retried = true) (idx : Nat)
    (first : Bool) : pauses (streamEvents idx first attempts) =
      (List.range attempts.length).map fun k => pause (idx + k) := by
  induction attempts generalizing idx with
  | nil => rfl
  | cons a rest ih =>
    obtain ⟨ha, hrest⟩ := List.forall_mem_cons.mp h
    have hturn : pauses (streamEvents idx first (a :: rest)) =
        pause idx :: pauses (streamEvents (idx + 1) first rest) := by
      cases a with
      | failed => simp [streamEvents]
      | refused status _ =>
        simp [streamEvents, Nat.not_lt.mpr (of_decide_eq_true ha)]
      | streamed _ => cases ha
    rw [hturn, ih hrest, List.length_cons, List.range_succ_eq_map, List.map_cons, List.map_map]
    simp [Function.comp_def, Nat.add_comm, Nat.add_left_comm]

theorem pauses_connected {before : List Attempt} (h : ∀ a ∈ before, a.fatal = false) (idx : Nat)
    (first : Bool) (lines : List (List Char)) (after : List Attempt) :
    pauses (streamEvents idx first (before ++ .streamed lines :: after)) =
      pauses (streamEvents idx first before) ++ pause 0 :: pauses (streamEvents 1 false after) := by
  induction before generalizing idx first with
  | nil => simp [streamEvents_streamed, streamEvents]
  | cons a rest ih =>
    obtain ⟨ha, hrest⟩ := List.forall_mem_cons.mp h
    cases a with
    | failed => simp [streamEvents, ih hrest]
    | refused status _ =>
      have hretried : ¬status < 500 := of_decide_eq_false ha
      simp [streamEvents, hretried, ih hrest]
    | streamed _ => simp [streamEvents_streamed, ih hrest]

theorem raised_eq (attempts : List Attempt) (idx : Nat) (first : Bool) :
    raised (streamEvents idx first attempts) =
      ((attempts.find? Attempt.fatal).bind Attempt.status?).toList := by
  induction attempts generalizing idx first with
  | nil => rfl
  | cons a rest ih =>
    cases a with
    | failed => simp [streamEvents, ih, Attempt.fatal]
    | refused status _ =>
      by_cases hfatal : status < 500 <;>
        simp [streamEvents, hfatal, ih, Attempt.fatal, Attempt.status?]
    | streamed _ => simp [streamEvents_streamed, ih, Attempt.fatal]

theorem streamEvents_fatal {before : List Attempt} (h : ∀ a ∈ before, a.fatal = false) (idx : Nat)
    (first : Bool) {status : Nat} (hstatus : 400 ≤ status) (hfatal : status < 500)
    (after : List Attempt) :
    streamEvents idx first (before ++ .refused status hstatus :: after) =
      streamEvents idx first before ++ [.raises status] := by
  induction before generalizing idx first with
  | nil => simp [streamEvents, hfatal]
  | cons a rest ih =>
    obtain ⟨ha, hrest⟩ := List.forall_mem_cons.mp h
    cases a with
    | failed => simp [streamEvents, ih hrest]
    | refused status _ =>
      have hretried : ¬status < 500 := of_decide_eq_false ha
      simp [streamEvents, hretried, ih hrest]
    | streamed _ => simp [streamEvents_streamed, ih hrest]

theorem pause_bounds : ∀ idx, 1 ≤ pause idx ∧ pause idx ≤ 30 ∧ pause idx ≤ pause (idx + 1)
  | 0 | 1 | 2 | 3 | 4 => by decide
  | idx + 5 => by simp [pause, BACKOFF]

/-! ### What a connection that breaks anywhere has delivered -/

/-- A message on the wire: what it is made of, its comments and the order of its lines.  Nothing
    in it is a line separator but an LF of the data. -/
structure Sent where
  message : Message
  comments : List (List Char)
  lines : List Line
  encodes : Encodes message comments lines
  plain : Plain message comments

/-- Lines that set no data: comments that keep the connection open, or fields alone. -/
structure Quiet where
  lines : List (List Char)
  ne_nil : ∀ line ∈ lines, line ≠ []
  dataless : ∀ line ∈ lines, values "data" (pieces line) = []

/-- What a server sends up to a blank line. -/
inductive Block where
  | message (sent : Sent)
  | quiet (between : Quiet)

def Block.lines : Block → List (List Char)
  | message sent => sent.lines.map Line.text
  | quiet between => between.lines

/-- The lines of a block, and the blank one that ends it. -/
def Block.wire (b : Block) : List (List Char) := b.lines ++ [[]]

/-- The event that there is to hand on. -/
def Block.event? : Block → Option SseEvent
  | message sent => some sent.message.event
  | quiet _ => none

theorem text_ne_nil (line : Line) : line.text ≠ [] := by
  cases line <;> simp [Line.text, named]

theorem Block.lines_ne_nil (b : Block) : ∀ line ∈ b.lines, line ≠ [] := by
  cases b with
  | message sent =>
    intro line hline
    obtain ⟨l, -, rfl⟩ := List.mem_map.mp hline
    exact text_ne_nil l
  | quiet between => exact between.ne_nil

theorem Block.parse_lines (b : Block) :
    parseEventBlock (['\n'].intercalate b.lines) = b.event? := by
  cases b with
  | message sent => exact roundTrips_of_plain sent.plain sent.lines sent.encodes
  | quiet between =>
    have hnone : values "data" (splitlines (['\n'].intercalate between.lines)) = [] := by
      rw [values_splitlines, pieces_join, values, List.filterMap_flatMap]
      exact List.flatMap_eq_nil_iff.mpr between.dataless
    rw [Block.lines, Block.event?, parseEventBlock, foldl_readLine]
    simp [hnone]

theorem readBlocks_open {lines : List (List Char)} (h : ∀ line ∈ lines, line ≠ [])
    (buf rest : List (List Char)) :
    readBlocks buf (lines ++ rest) = readBlocks (buf ++ lines) rest := by
  induction lines generalizing buf with
  | nil => simp
  | cons line others ih =>
    obtain ⟨hline, hothers⟩ := List.forall_mem_cons.mp h
    rw [List.cons_append, readBlocks, if_pos hline, ih hothers]
    simp

theorem readBlocks_unfinished {lines : List (List Char)} (h : ∀ line ∈ lines, line ≠ [])
    (buf : List (List Char)) : readBlocks buf lines = [] := by
  have hopen := readBlocks_open h buf []
  rwa [List.append_nil] at hopen

theorem readBlocks_blank (buf rest : List (List Char)) : readBlocks buf ([] :: rest) =
    (parseEventBlock (['\n'].intercalate buf)).toList ++ readBlocks [] rest := by
  rw [readBlocks, if_neg (not_not.mpr rfl)]
  dsimp only
  split
  · rename_i hempty
    rw [hempty]
    rfl
  · rfl

theorem readBlocks_wire (b : Block) (rest : List (List Char)) :
    readBlocks [] (b.wire ++ rest) = b.event?.toList ++ readBlocks [] rest := by
  rw [Block.wire, List.append_assoc, readBlocks_open b.lines_ne_nil, List.nil_append,
    List.singleton_append, readBlocks_blank, b.parse_lines]

/-- What is received of some blocks, the last line perhaps cut short: the events of those that
    have come to their blank line. -/
theorem readBlocks_received {blocks : List Block} {whole cut : List (List Char)}
    (hwhole : whole <+: blocks.flatMap Block.wire) (hcut : ∀ line ∈ cut, line ≠ []) :
    readBlocks [] (whole ++ cut) = (blocks.take (whole.count [])).filterMap Block.event? := by
  induction blocks generalizing whole with
  | nil =>
    rw [List.prefix_nil.mp hwhole]
    simpa using readBlocks_unfinished hcut []
  | cons b rest ih =>
    rw [List.flatMap_cons] at hwhole
    by_cases hall : b.wire <+: whole
    · obtain ⟨more, rfl⟩ := hall
      have hmore := ih ((List.prefix_append_right_inj _).mp hwhole)
      have hcount : b.wire.count [] = 1 := by
        rw [Block.wire, List.count_append, List.count_eq_zero_of_not_mem]
        · rfl
        · exact fun hmem => b.lines_ne_nil [] hmem rfl
      rw [List.append_assoc, readBlocks_wire, hmore, List.count_append, hcount, Nat.add_comm,
        List.take_succ_cons]
      cases hevent : b.event? <;> simp [hevent]
    · have hpart : whole <+: b.wire :=
        (List.prefix_or_prefix_of_prefix hwhole (List.prefix_append ..)).resolve_right hall
      have hopen : whole <+: b.lines := by
        rcases List.prefix_concat_iff.mp hpart with heq | hopen
        · exact absurd (heq ▸ List.prefix_rfl) hall
        · exact hopen
      have hnone : ∀ line ∈ whole, line ≠ [] :=
        fun line hline => b.lines_ne_nil line (hopen.subset hline)
      rw [List.count_eq_zero_of_not_mem fun hmem => hnone [] hmem rfl]
      rw [readBlocks_unfinished]
      · rfl
      · intro line hline
        exact (List.mem_append.mp hline).elim (hnone line) (hcut line)

/-- A connection to a server that sends blocks, as far as it lasts. -/
structure Connection where
  blocks : List Block
  whole : List (List Char)
  whole_prefix : whole <+: blocks.flatMap Block.wire
  /-- What has come of the next line when the connection ends, if anything. -/
  cut : List (List Char)
  cut_ne_nil : ∀ line ∈ cut, line ≠ []

/-- The events of the messages that came whole. -/
def Connection.delivered (c : Connection) : List SseEvent :=
  (c.blocks.take (c.whole.count [])).filterMap Block.event?

theorem Connection.readBlocks_eq (c : Connection) :
    readBlocks [] (c.whole ++ c.cut) = c.delivered :=
  readBlocks_received c.whole_prefix c.cut_ne_nil

/-- Whatever the attempts to connect end in, the stream yields the events of each connection in
    turn, with an announcement between any two, and from a connection to a server that writes
    proper messages, and blocks without data between them, the events of those that came whole.
    A first fatal status is raised, after all that and as the last thing, and else nothing.  Each
    connection begins the pauses anew, and failures in a row make them grow from one second to
    thirty. -/
theorem stream_delivers (attempts : List Attempt) :
    events (streamEvents 0 true attempts) =
      [reconnectingEvent].intercalate (connections attempts) ∧
    (∀ c : Connection, readBlocks [] (c.whole ++ c.cut) = c.delivered) ∧
    raised (streamEvents 0 true attempts) =
      ((attempts.find? Attempt.fatal).bind Attempt.status?).toList ∧
    ((∀ a ∈ attempts, a.fatal = false) → ∀ status (h : 400 ≤ status) after, status < 500 →
      streamEvents 0 true (attempts ++ .refused status h :: after) =
        streamEvents 0 true attempts ++ [.raises status]) ∧
    ((∀ a ∈ attempts, a.fatal = false) → ∀ lines failures,
      (∀ a ∈ failures, a.retried = true) →
        pauses (streamEvents 0 true (attempts ++ .streamed lines :: failures)) =
          pauses (streamEvents 0 true attempts) ++ (List.range (failures.length + 1)).map pause) ∧
    ((∀ a ∈ attempts, a.retried = true) →
      pauses (streamEvents 0 true attempts) = (List.range attempts.length).map pause) ∧
    ∀ idx, 1 ≤ pause idx ∧ pause idx ≤ 30 ∧ pause idx ≤ pause (idx + 1) := by
  refine ⟨events_stream attempts 0 true, Connection.readBlocks_eq, raised_eq attempts 0 true,
    fun hgoes status h after hfatal => streamEvents_fatal hgoes 0 true h hfatal after,
    fun hgoes lines failures hfailures => ?_, fun hretried => ?_, pause_bounds⟩
  · rw [pauses_connected hgoes, pauses_retried hfailures, List.range_succ_eq_map, List.map_cons,
      List.map_map]
    simp [Function.comp_def, Nat.add_comm]
  · simpa using pauses_retried hretried 0 true

/-- A message of two lines, with a comment. -/
def playing : Sent where
  message := { data := "a\nb".toList, eventType := some "playing".toList }
  comments := [" up".toList]
  lines := [.event "playing".toList, .data ['a'], .comment " up".toList, .data ['b']]
  encodes := ⟨by decide, by decide⟩
  plain := ⟨⟨by simp [isBoundary], by rintro _ ⟨⟩; simp [isBoundary], nofun⟩, nofun, by
    simp only [List.forall_mem_singleton]
    exact ⟨by decide, by decide, nofun, nofun⟩⟩

/-- A comment alone. -/
def ping : Quiet where
  lines := [": ping".toList]
  ne_nil := by decide
  dataless := by decide

/-- The connection breaks in the third block. -/
def broken : Connection where
  blocks := [.message playing, .quiet ping, .message playing]
  whole := playing.lines.map Line.text ++ [[], ": ping".toList, [], "event: playing".toList]
  whole_prefix := by decide
  cut := ["da".toList]
  cut_ne_nil := by decide

/-- It breaks, the server is gone for a moment, and at last the token is refused. -/
def brokenAttempts : List Attempt :=
  [.streamed (broken.whole ++ broken.cut), .failed, .streamed (broken.whole ++ broken.cut)]

theorem stream_delivers_broken :
    streamEvents 0 true (brokenAttempts ++ [.refused 401 (by decide)]) =
      streamEvents 0 true brokenAttempts ++ [.raises 401] ∧
    readBlocks [] (broken.whole ++ broken.cut) = [playing.message.event] ∧
    events (streamEvents 0 true brokenAttempts) =
      [playing.message.event, reconnectingEvent, playing.message.event] ∧
    pauses (streamEvents 0 true brokenAttempts) = [1, 2, 1] := by
  obtain ⟨hevents, hdelivered, -, hfatal, -⟩ := stream_delivers brokenAttempts
  refine ⟨hfatal (by decide) 401 _ [] (by decide), ?_, ?_, by decide⟩
  · rw [hdelivered broken]
    decide
  · rw [hevents]
    decide

end SseStream
