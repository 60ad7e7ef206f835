/-
  Auditarr/SseBlock.lean
  ======================
  **Blocks of a server-sent event stream** (`app/core/sse.py`, `_parse_event_block`).

  A block is written as one `data:` line for each LF-separated line of the data, with lines for
  the event type, the id and the retry time and with comments among them.  The parser cuts the
  block at every boundary of `str.splitlines`, so a separator that is not LF ends a line too.
-/
import Auditarr.TextLines
import Auditarr.TracearrRoundTrip

namespace SseBlock

open PyValues TextLines

/-! ### The parser -/

/-- `SseEvent`; texts are lists of characters. -/
structure SseEvent where
  data : List Char
  eventType : Option (List Char) := none
  eventId : Option (List Char) := none
  retryMs : Option Int := none
deriving DecidableEq

/-- What the lines so far have set. -/
structure Fields where
  dataLines : List (List Char) := []
  eventType : Option (List Char) := none
  eventId : Option (List Char) := none
  retryMs : Option Int := none
deriving DecidableEq

/-- One leading space is stripped. -/
def stripOne : List Char → List Char
  | ' ' :: value => value
  | value => value

/-- The field and the value of a line. -/
def fieldOf (line : List Char) : List Char × List Char :=
  if ':' ∈ line then
    (line.takeWhile (· ≠ ':'), stripOne (line.dropWhile (· ≠ ':')).tail)
  else (line, [])

/-- One turn of the loop. -/
def readLine (st : Fields) (line : List Char) : Fields :=
  if line = [] ∨ line.head? = some ':' then st
  else
    let (field, value) := fieldOf line
    if field = "data".toList then { st with dataLines := st.dataLines ++ [value] }
    else if field = "event".toList then { st with eventType := some value }
    else if field = "id".toList then { st with eventId := some value }
    else if field = "retry".toList then
      { st with retryMs := (intOfStr (String.ofList value)).or st.retryMs }
    else st

/-- `_parse_event_block`. -/
def parseEventBlock (block : List Char) : Option SseEvent :=
  let st := (splitlines block).foldl readLine {}
  if st.dataLines = [] then none
  else some ⟨['\n'].intercalate st.dataLines, st.eventType, st.eventId, st.retryMs⟩

/-! ### What the lines set -/

/-- The value of a line with this field. -/
def value? (field : String) (line : List Char) : Option (List Char) :=
  if line = [] ∨ line.head? = some ':' then none
  else if (fieldOf line).1 = field.toList then some (fieldOf line).2 else none

def values (field : String) (lines : List (List Char)) : List (List Char) :=
  lines.filterMap (value? field)

/-- The numbers among the values of `retry`. -/
def retries (lines : List (List Char)) : List Int :=
  (values "retry" lines).filterMap fun value => intOfStr (String.ofList value)

theorem values_append (field : String) (lines lines' : List (List Char)) :
    values field (lines ++ lines') = values field lines ++ values field lines' :=
  List.filterMap_append ..

theorem retries_append (lines lines' : List (List Char)) :
    retries (lines ++ lines') = retries lines ++ retries lines' := by
  rw [retries, values_append, List.filterMap_append]
  rfl

theorem readLine_eq (st : Fields) (line : List Char) : readLine st line =
    { dataLines := st.dataLines ++ values "data" [line]
      eventType := (values "event" [line]).getLast?.or st.eventType
      eventId := (values "id" [line]).getLast?.or st.eventId
      retryMs := (retries [line]).getLast?.or st.retryMs } := by
  by_cases hskip : line = [] ∨ line.head? = some ':'
  · have hnone : ∀ field, values field [line] = [] := by
      intro field
      simp [values, value?, hskip]
    rw [readLine, if_pos hskip, retries]
    simp [hnone]
  · have hvalue : ∀ field, values field [line] =
        if (fieldOf line).1 = field.toList then [(fieldOf line).2] else [] := by
      intro field
      simp only [values, value?, if_neg hskip, List.filterMap_cons, List.filterMap_nil]
      split <;> simp_all
    simp only [readLine, if_neg hskip, retries, hvalue]
    by_cases hdata : (fieldOf line).1 = "data".toList
    · simp [hdata]
    · by_cases hevent : (fieldOf line).1 = "event".toList
      · simp [hevent]
      · by_cases hid : (fieldOf line).1 = "id".toList
        · simp [hid]
        · by_cases hretry : (fieldOf line).1 = "retry".toList
          · cases hint : intOfStr (String.ofList (fieldOf line).2) <;> simp [hretry, hint]
          · simp only [if_neg hdata, if_neg hevent, if_neg hid, if_neg hretry]
            simp

theorem foldl_readLine (lines : List (List Char)) (st : Fields) : lines.foldl readLine st =
    { dataLines := st.dataLines ++ values "data" lines
      eventType := (values "event" lines).getLast?.or st.eventType
      eventId := (values "id" lines).getLast?.or st.eventId
      retryMs := (retries lines).getLast?.or st.retryMs } := by
  induction lines generalizing st with
  | nil => simp [values, retries]
  | cons line lines ih =>
    have hvalues : ∀ field, values field (line :: lines) = values field [line] ++ values field lines :=
      fun field => values_append field [line] lines
    have hretries : retries (line :: lines) = retries [line] ++ retries lines :=
      retries_append [line] lines
    rw [List.foldl_cons, readLine_eq, ih]
    simp only [hvalues, hretries, List.getLast?_append, Option.or_assoc, List.append_assoc]

theorem values_splitlines (field : String) (block : List Char) :
    values field (splitlines block) = values field (pieces block) := by
  rw [← filter_splitlines, values, values, List.filterMap_filter]
  apply List.filterMap_congr
  intro line _
  by_cases hempty : line = [] <;> simp [value?, hempty]

theorem retries_splitlines (block : List Char) :
    retries (splitlines block) = retries (pieces block) := by
  rw [retries, values_splitlines, retries]

theorem mem_of_mem_stripOne {c : Char} {value : List Char} (h : c ∈ stripOne value) : c ∈ value := by
  cases value with
  | nil => exact h
  | cons first rest =>
    by_cases hspace : first = ' '
    · subst hspace
      exact .tail _ h
    · simpa [stripOne, hspace] using h

theorem mem_of_mem_value {field : String} {line value : List Char} (h : value? field line = some value)
    {c : Char} (hc : c ∈ value) : c ∈ line := by
  rw [value?] at h
  split at h
  · cases h
  · split at h
    · cases h
      rw [fieldOf] at hc
      split at hc
      · apply (List.dropWhile_sublist _).subset
        exact List.mem_of_mem_tail (mem_of_mem_stripOne hc)
      · exact absurd hc List.not_mem_nil
    · cases h

theorem clean_of_mem_values {field : String} {text value : List Char}
    (h : value ∈ values field (pieces text)) : ∀ c ∈ value, isBoundary c = false := by
  obtain ⟨line, hline, hvalue⟩ := List.mem_filterMap.mp h
  intro c hc
  exact not_boundary_of_mem_pieces hline c (mem_of_mem_value hvalue hc)

/-! ### The encoder -/

/-- A line of a block. -/
inductive Line where
  | data (text : List Char)
  | event (text : List Char)
  | id (text : List Char)
  | retry (ms : Nat)
  | comment (text : List Char)
deriving DecidableEq

/-- `field: text`. -/
def named (field : String) (text : List Char) : List Char := field.toList ++ ':' :: ' ' :: text

def Line.text : Line → List Char
  | data text => named "data" text
  | event text => named "event" text
  | id text => named "id" text
  | retry ms => named "retry" (Nat.toDigits 10 ms)
  | comment text => ':' :: text

def Line.data? : Line → Option (List Char)
  | data text => some text
  | _ => none

/-- What is encoded. -/
structure Message where
  data : List Char
  eventType : Option (List Char) := none
  eventId : Option (List Char) := none
  retry : Option Nat := none

def Message.event (m : Message) : SseEvent := ⟨m.data, m.eventType, m.eventId, m.retry.map Int.ofNat⟩

/-- The lines of a message: those of the data, and after them the others. -/
def own (m : Message) : List Line :=
  (m.data.splitOn '\n').map .data ++ (m.eventType.map Line.event).toList ++
    (m.eventId.map Line.id).toList ++ (m.retry.map Line.retry).toList

/-- The lines of the message and the comments in any order that keeps the lines of the data in
    theirs. -/
structure Encodes (m : Message) (comments : List (List Char)) (lines : List Line) : Prop where
  perm : lines.Perm (own m ++ comments.map .comment)
  data : lines.filterMap Line.data? = m.data.splitOn '\n'

/-- The block that `stream_events` puts together from its lines. -/
def block (lines : List Line) : List Char := ['\n'].intercalate (lines.map Line.text)

/-- Every encoding with these comments is parsed to what was encoded. -/
def RoundTrips (m : Message) (comments : List (List Char)) : Prop :=
  ∀ lines, Encodes m comments lines → parseEventBlock (block lines) = some m.event

/-- A comment that sets, as a block of its own, nothing but what is encoded. -/
structure Harmless (m : Message) (comment : List Char) : Prop where
  data : ((splitlines (':' :: comment)).foldl readLine {}).dataLines = []
  event : ∀ text, ((splitlines (':' :: comment)).foldl readLine {}).eventType = some text →
    m.eventType = some text
  id : ∀ text, ((splitlines (':' :: comment)).foldl readLine {}).eventId = some text →
    m.eventId = some text
  retry : ∀ ms, ((splitlines (':' :: comment)).foldl readLine {}).retryMs = some ms →
    m.retry.map Int.ofNat = some ms

/-- No separator but LF is in the data, and none in the event type and the id. -/
structure Clean (m : Message) : Prop where
  data : ∀ c ∈ m.data, isBoundary c = true → c = '\n'
  event : ∀ text, m.eventType = some text → ∀ c ∈ text, isBoundary c = false
  id : ∀ text, m.eventId = some text → ∀ c ∈ text, isBoundary c = false

/-- What the text of a line sets. -/
def Line.sets (field : String) (line : Line) : List (List Char) := values field (pieces line.text)

def Line.setsRetry (line : Line) : List Int := retries (pieces line.text)

theorem values_block (field : String) (lines : List Line) :
    values field (splitlines (block lines)) = lines.flatMap (Line.sets field) := by
  rw [values_splitlines, block, pieces_join, values, List.filterMap_flatMap, List.flatMap_map]
  rfl

theorem retries_block (lines : List Line) :
    retries (splitlines (block lines)) = lines.flatMap Line.setsRetry := by
  rw [retries, values_block, List.filterMap_flatMap]
  rfl

theorem parseEventBlock_eq_some {lines : List Line} {e : SseEvent} :
    parseEventBlock (block lines) = some e ↔ lines.flatMap (Line.sets "data") ≠ [] ∧
      ['\n'].intercalate (lines.flatMap (Line.sets "data")) = e.data ∧
        (lines.flatMap (Line.sets "event")).getLast? = e.eventType ∧
          (lines.flatMap (Line.sets "id")).getLast? = e.eventId ∧
            (lines.flatMap Line.setsRetry).getLast? = e.retryMs := by
  rw [parseEventBlock, foldl_readLine]
  simp only [values_block, retries_block, List.nil_append, Option.or_none]
  obtain ⟨data, eventType, eventId, retryMs⟩ := e
  split
  · simp_all
  · simp_all

theorem harmless_iff {m : Message} {comment : List Char} : Harmless m comment ↔
    (Line.comment comment).sets "data" = [] ∧
      (∀ text, ((Line.comment comment).sets "event").getLast? = some text → m.eventType = some text) ∧
        (∀ text, ((Line.comment comment).sets "id").getLast? = some text → m.eventId = some text) ∧
          ∀ ms, (Line.comment comment).setsRetry.getLast? = some ms →
            m.retry.map Int.ofNat = some ms := by
  have hfields : (splitlines (':' :: comment)).foldl readLine {} =
      ⟨(Line.comment comment).sets "data", ((Line.comment comment).sets "event").getLast?,
        ((Line.comment comment).sets "id").getLast?, (Line.comment comment).setsRetry.getLast?⟩ := by
    rw [foldl_readLine]
    simp only [values_splitlines, retries_splitlines, List.nil_append, Option.or_none]
    rfl
  constructor
  · rintro ⟨hdata, hevent, hid, hretry⟩
    rw [hfields] at hdata hevent hid hretry
    exact ⟨hdata, hevent, hid, hretry⟩
  · rintro ⟨hdata, hevent, hid, hretry⟩
    constructor
    · rw [hfields]
      exact hdata
    · rw [hfields]
      exact hevent
    · rw [hfields]
      exact hid
    · rw [hfields]
      exact hretry

/-! ### Numbers -/

theorem strip_of_forall {cs : List Char} (h : ∀ c ∈ cs, isSpace c = false) :
    strip (String.ofList cs) = String.ofList cs := by
  have hdrop : ∀ l : List Char, (∀ c ∈ l, isSpace c = false) → l.dropWhile isSpace = l := by
    intro l hl
    rw [List.dropWhile_eq_self_iff]
    intro hpos
    simp [hl _ (List.getElem_mem hpos)]
  rw [strip, String.toList_ofList, hdrop cs h, hdrop cs.reverse, List.reverse_reverse]
  intro c hc
  exact h c (List.mem_reverse.mp hc)

theorem underscoresOk_of_not_mem {cs : List Char} (h : '_' ∉ cs) (prev : Option Char) :
    underscoresOk prev cs = true := by
  induction cs generalizing prev with
  | nil => rfl
  | cons c cs ih =>
    have hrest := ih (fun hmem => h (.tail _ hmem)) (some c)
    rw [underscoresOk]
    · exact hrest
    · rintro rfl
      exact h (.head _)

theorem digit_plain {c : Char} (h : c.isDigit = true) :
    isSpace c = false ∧ c ≠ '_' ∧ c ≠ '-' ∧ c ≠ '+' ∧ isBoundary c = false := by
  have hrange : 48 ≤ c.toNat ∧ c.toNat ≤ 57 := by
    simpa [Char.isDigit, UInt32.le_iff_toNat_le] using h
  have hne : ∀ d : Char, (d.toNat < 48 ∨ 57 < d.toNat) → c ≠ d := by
    rintro d hd rfl
    omega
  refine ⟨?_, hne '_' (by decide), hne '-' (by decide), hne '+' (by decide), ?_⟩
  · simp only [isSpace]
    simp
    omega
  · rw [isBoundary, decide_eq_false_iff_not]
    intro hmem
    simp only [List.mem_cons, List.not_mem_nil, or_false] at hmem
    rcases hmem with h | h | h | h | h | h | h | h | h | h <;> exact hne _ (by decide) h

theorem intOfStr_toDigits {n : Nat} (hn : n < 10 ^ MAX_STR_DIGITS) :
    intOfStr (String.ofList (Nat.toDigits 10 n)) = some (n : Int) := by
  have hdigit : ∀ c ∈ Nat.toDigits 10 n, c.isDigit = true := fun c hc =>
    Nat.isDigit_of_mem_toDigits (by decide) (by decide) hc
  have hnot : '_' ∉ Nat.toDigits 10 n := fun hmem => (digit_plain (hdigit _ hmem)).2.1 rfl
  have hfilter : (Nat.toDigits 10 n).filter (· ≠ '_') = Nat.toDigits 10 n := by
    rw [List.filter_eq_self]
    intro c hc
    simpa using (digit_plain (hdigit c hc)).2.1
  have hall : (Nat.toDigits 10 n).all isDigit = true := by
    rw [List.all_eq_true]
    intro c hc
    exact TracearrPath.isDigit_toDigits hc
  have hlength : (Nat.toDigits 10 n).length ≤ MAX_STR_DIGITS :=
    (Nat.length_toDigits_le_iff (by decide) (by decide)).mpr hn
  have hne : Nat.toDigits 10 n ≠ [] := List.ne_nil_of_length_pos Nat.length_toDigits_pos
  have hunsigned : unsignedInt? (Nat.toDigits 10 n) = some n := by
    rw [unsignedInt?, hfilter, if_pos ⟨hne, hall, underscoresOk_of_not_mem hnot _, hlength⟩,
      TracearrPath.natOfDigits_toDigits]
  rw [intOfStr, strip_of_forall fun c hc => (digit_plain (hdigit c hc)).1, String.toList_ofList]
  split
  · rename_i cs heq
    exact absurd rfl (digit_plain (hdigit '-' (heq ▸ .head _))).2.2.1
  · rename_i cs heq
    exact absurd rfl (digit_plain (hdigit '+' (heq ▸ .head _))).2.2.2.1
  · rw [hunsigned]
    rfl

theorem digit?_le {c : Char} {d : Nat} (h : digit? c = some d) : d ≤ 9 := by
  obtain ⟨low, hlow, rfl⟩ := Option.map_eq_some_iff.mp h
  have hrange := List.find?_some hlow
  simp only [Bool.and_eq_true, decide_eq_true_eq] at hrange
  omega

theorem natOfDigits_lt (cs : List Char) : natOfDigits cs < 10 ^ cs.length := by
  induction cs using List.reverseRecOn with
  | nil => decide
  | append_singleton cs c ih =>
    have hdigit : (digit? c).getD 0 ≤ 9 := by
      cases hd : digit? c with
      | none => decide
      | some d => exact digit?_le hd
    rw [natOfDigits] at ih
    rw [natOfDigits, List.foldl_append, List.length_append, List.length_singleton, Nat.pow_succ]
    simp only [List.foldl_cons, List.foldl_nil]
    omega

theorem intOfStr_lt {text : String} {k : Int} (h : intOfStr text = some k) :
    k.natAbs < 10 ^ MAX_STR_DIGITS := by
  have hunsigned : ∀ cs n, unsignedInt? cs = some n → n < 10 ^ MAX_STR_DIGITS := by
    intro cs n hn
    rw [unsignedInt?] at hn
    split at hn
    · rename_i hok
      cases hn
      exact (natOfDigits_lt _).trans_le (Nat.pow_le_pow_right (by decide) hok.2.2.2)
    · cases hn
  rw [intOfStr] at h
  split at h
  all_goals
    obtain ⟨n, hn, rfl⟩ := Option.map_eq_some_iff.mp h
    obtain ⟨digits, hdigits, hcast⟩ := Option.bind_eq_some_iff.mp hn
    cases hcast
    simpa using hunsigned _ _ hdigits

/-! ### What the lines of a message set -/

theorem fieldOf_named {field : String} (text : List Char) (hcolon : ':' ∉ field.toList) :
    fieldOf (named field text) = (field.toList, text) := by
  have hall : ∀ c ∈ field.toList, decide (c ≠ ':') = true := by
    intro c hc
    have hne : c ≠ ':' := fun heq => hcolon (heq ▸ hc)
    simpa using hne
  rw [fieldOf, if_pos (by simp [named]), named, List.takeWhile_append_of_pos hall,
    List.dropWhile_append_of_pos hall]
  simp [stripOne]

theorem values_named {field : String} (hfield : field ∈ ["data", "event", "id", "retry"])
    (other : String) {text : List Char} (hclean : ∀ c ∈ text, isBoundary c = false) :
    values other (pieces (named field text)) = if field = other then [text] else [] := by
  have hname : field.toList ≠ [] ∧ ':' ∉ field.toList ∧
      (field.toList ++ [':', ' ']).all (!isBoundary ·) = true := by
    revert field
    decide
  have hline : ∀ c ∈ named field text, isBoundary c = false := by
    intro c hc
    have hsplit : named field text = field.toList ++ [':', ' '] ++ text := by simp [named]
    rw [hsplit] at hc
    rcases List.mem_append.mp hc with hc | hc
    · simpa using List.all_eq_true.mp hname.2.2 c hc
    · exact hclean c hc
  have hhead : ¬(named field text = [] ∨ (named field text).head? = some ':') := by
    rintro (hempty | hcomment)
    · simp [named] at hempty
    · rw [named, List.head?_append_of_ne_nil _ hname.1] at hcomment
      exact hname.2.1 (List.mem_of_head? hcomment)
  rw [pieces_clean (fun hempty => hhead (.inl hempty)) hline, values, List.filterMap_cons,
    List.filterMap_nil, value?, if_neg hhead, fieldOf_named text hname.2.1]
  by_cases heq : field = other <;> simp [heq, String.toList_inj]

theorem setsRetry_eq (line : Line) :
    line.setsRetry = (line.sets "retry").filterMap fun value => intOfStr (String.ofList value) := rfl

variable {m : Message} {comments : List (List Char)} {lines : List Line}

theorem clean_of_mem_data (hclean : ∀ c ∈ m.data, isBoundary c = true → c = '\n') {text : List Char}
    (htext : text ∈ m.data.splitOn '\n') : ∀ c ∈ text, isBoundary c = false := by
  intro c hc
  rw [List.splitOn_eq_splitOnP] at htext
  obtain ⟨hmem, hsep⟩ := of_mem_splitOnP htext c hc
  apply Bool.eq_false_iff.mpr
  intro hboundary
  have heq := hclean c hmem hboundary
  simp [heq] at hsep

theorem clean_toDigits (n : Nat) : ∀ c ∈ Nat.toDigits 10 n, isBoundary c = false := fun _ hc =>
  (digit_plain (Nat.isDigit_of_mem_toDigits (by decide) (by decide) hc)).2.2.2.2

theorem mem_own {line : Line} (h : line ∈ own m) : (∃ text ∈ m.data.splitOn '\n', line = .data text) ∨
    (∃ text, m.eventType = some text ∧ line = .event text) ∨
      (∃ text, m.eventId = some text ∧ line = .id text) ∨
        ∃ ms, m.retry = some ms ∧ line = .retry ms := by
  simp only [own, List.mem_append, List.mem_map, Option.mem_toList, Option.map_eq_some_iff] at h
  rcases h with ((⟨text, htext, rfl⟩ | ⟨text, htext, rfl⟩) | ⟨text, htext, rfl⟩) | ⟨ms, hms, rfl⟩
  · exact .inl ⟨text, htext, rfl⟩
  · exact .inr (.inl ⟨text, htext, rfl⟩)
  · exact .inr (.inr (.inl ⟨text, htext, rfl⟩))
  · exact .inr (.inr (.inr ⟨ms, hms, rfl⟩))

/-- The field that a line is written for, and its text. -/
def Line.field? : Line → Option (String × List Char)
  | data text => some ("data", text)
  | event text => some ("event", text)
  | id text => some ("id", text)
  | retry ms => some ("retry", Nat.toDigits 10 ms)
  | comment _ => none

theorem Clean.sets_eq (hclean : Clean m) {line : Line} (hline : line ∈ own m) (field : String) :
    line.sets field = (line.field?.toList.filter fun named => named.1 = field).map Prod.snd := by
  rcases mem_own hline with ⟨text, htext, rfl⟩ | ⟨text, htext, rfl⟩ | ⟨text, htext, rfl⟩ | ⟨ms, -, rfl⟩
  all_goals
    rw [Line.sets, Line.text, values_named (by decide)]
    · simp only [Line.field?, Option.toList_some, List.filter_cons, List.filter_nil, decide_eq_true_eq]
      split <;> rfl
  · exact clean_of_mem_data hclean.data htext
  · exact hclean.event text htext
  · exact hclean.id text htext
  · exact clean_toDigits ms

theorem Clean.last_sets_iff (hclean : Clean m) {line : Line} (hline : line ∈ own m) (field : String)
    (text : List Char) :
    (line.sets field).getLast? = some text ↔ line.field? = some (field, text) := by
  rw [hclean.sets_eq hline]
  cases line.field? with
  | none => simp
  | some named =>
    obtain ⟨name, value⟩ := named
    by_cases heq : name = field <;> simp [heq]

theorem Clean.last_event_iff (hclean : Clean m) (text : List Char) :
    (∃ line ∈ own m, (line.sets "event").getLast? = some text) ↔ m.eventType = some text := by
  constructor
  · rintro ⟨line, hline, hlast⟩
    have hfield := (hclean.last_sets_iff hline _ _).mp hlast
    rcases mem_own hline with ⟨_, -, rfl⟩ | ⟨_, htext, rfl⟩ | ⟨_, -, rfl⟩ | ⟨_, -, rfl⟩ <;>
      simp [Line.field?] at hfield
    rw [htext, hfield]
  · intro htext
    have hline : Line.event text ∈ own m := by simp [own, htext]
    exact ⟨_, hline, (hclean.last_sets_iff hline _ _).mpr rfl⟩

theorem Clean.last_id_iff (hclean : Clean m) (text : List Char) :
    (∃ line ∈ own m, (line.sets "id").getLast? = some text) ↔ m.eventId = some text := by
  constructor
  · rintro ⟨line, hline, hlast⟩
    have hfield := (hclean.last_sets_iff hline _ _).mp hlast
    rcases mem_own hline with ⟨_, -, rfl⟩ | ⟨_, -, rfl⟩ | ⟨_, htext, rfl⟩ | ⟨_, -, rfl⟩ <;>
      simp [Line.field?] at hfield
    rw [htext, hfield]
  · intro htext
    have hline : Line.id text ∈ own m := by simp [own, htext]
    exact ⟨_, hline, (hclean.last_sets_iff hline _ _).mpr rfl⟩

theorem Clean.last_retry_iff (hclean : Clean m) (hretry : ∀ ms, m.retry = some ms → ms < 10 ^ MAX_STR_DIGITS)
    (k : Int) :
    (∃ line ∈ own m, line.setsRetry.getLast? = some k) ↔ m.retry.map Int.ofNat = some k := by
  constructor
  · rintro ⟨line, hline, hlast⟩
    rw [setsRetry_eq, hclean.sets_eq hline] at hlast
    rcases mem_own hline with ⟨_, -, rfl⟩ | ⟨_, -, rfl⟩ | ⟨_, -, rfl⟩ | ⟨ms, hms, rfl⟩ <;>
      simp [Line.field?] at hlast
    rw [intOfStr_toDigits (hretry ms hms)] at hlast
    rw [hms, ← hlast]
    rfl
  · intro hk
    obtain ⟨ms, hms, rfl⟩ := Option.map_eq_some_iff.mp hk
    have hline : Line.retry ms ∈ own m := by simp [own, hms]
    refine ⟨_, hline, ?_⟩
    rw [setsRetry_eq, hclean.sets_eq hline]
    simp [Line.field?, intOfStr_toDigits (hretry ms hms)]

theorem Clean.sets_data (hclean : Clean m) {line : Line} (hline : line ∈ own m) :
    line.sets "data" = line.data?.toList := by
  rw [hclean.sets_eq hline]
  cases line <;> rfl

theorem own_data (m : Message) : (own m).filterMap Line.data? = m.data.splitOn '\n' := by
  obtain ⟨data, eventType, eventId, retry⟩ := m
  have hdata : ((data.splitOn '\n').map Line.data).filterMap Line.data? = data.splitOn '\n' := by
    rw [List.filterMap_map]
    exact List.filterMap_some
  cases eventType <;> cases eventId <;> cases retry <;> simp [own, List.filterMap_append, hdata, Line.data?]

theorem exists_of_getLast?_flatMap {α β : Type} {f : α → List β} {l : List α} {b : β}
    (h : (l.flatMap f).getLast? = some b) : ∃ a ∈ l, (f a).getLast? = some b := by
  induction l with
  | nil => cases h
  | cons a l ih =>
    rw [List.flatMap_cons, List.getLast?_append, Option.or_eq_some_iff] at h
    rcases h with h | ⟨-, h⟩
    · obtain ⟨a', ha', hlast⟩ := ih h
      exact ⟨a', .tail _ ha', hlast⟩
    · exact ⟨a, .head _, h⟩

theorem getLast?_flatMap_eq {α β : Type} {f : α → List β} {o : Option β} {l : List α}
    (hall : ∀ a ∈ l, ∀ b, (f a).getLast? = some b → o = some b)
    (hsome : ∀ b, o = some b → ∃ a ∈ l, (f a).getLast? = some b) : (l.flatMap f).getLast? = o := by
  cases hlast : (l.flatMap f).getLast? with
  | some b =>
    obtain ⟨a, ha, hb⟩ := exists_of_getLast?_flatMap hlast
    exact (hall a ha b hb).symm
  | none =>
    cases o with
    | none => rfl
    | some b =>
      obtain ⟨a, ha, hb⟩ := hsome b rfl
      have hempty := List.flatMap_eq_nil_iff.mp (List.getLast?_eq_none_iff.mp hlast) a ha
      rw [hempty] at hb
      cases hb

/-! ### The round trip -/

/-- The condition for a round trip: a clean message, a retry time that Python reads, and comments
    that set nothing else. -/
structure Plain (m : Message) (comments : List (List Char)) : Prop where
  clean : Clean m
  retry : ∀ ms, m.retry = some ms → ms < 10 ^ MAX_STR_DIGITS
  comments : ∀ comment ∈ comments, Harmless m comment

theorem Encodes.mem (h : Encodes m comments lines) {line : Line} :
    line ∈ lines ↔ line ∈ own m ∨ ∃ comment ∈ comments, line = .comment comment := by
  rw [h.perm.mem_iff, List.mem_append, List.mem_map]
  simp only [eq_comm]

theorem encodes_own {others : List (List Char)} (h : others.Perm comments) :
    Encodes m comments (own m ++ others.map .comment) where
  perm := (h.map Line.comment).append_left _
  data := by
    rw [List.filterMap_append, own_data]
    simp [Line.data?]

theorem Encodes.getLast? {β : Type} {f : Line → List β} {o : Option β} (h : Encodes m comments lines)
    (hown : ∀ b, (∃ line ∈ own m, (f line).getLast? = some b) ↔ o = some b)
    (hcomments : ∀ comment ∈ comments, ∀ b, (f (.comment comment)).getLast? = some b → o = some b) :
    (lines.flatMap f).getLast? = o := by
  apply getLast?_flatMap_eq
  · intro line hline b hlast
    rcases h.mem.mp hline with hline | ⟨comment, hcomment, rfl⟩
    · exact (hown b).mp ⟨line, hline, hlast⟩
    · exact hcomments comment hcomment b hlast
  · intro b hb
    obtain ⟨line, hline, hlast⟩ := (hown b).mpr hb
    exact ⟨line, h.mem.mpr (.inl hline), hlast⟩

theorem roundTrips_of_plain (h : Plain m comments) : RoundTrips m comments := by
  intro lines hlines
  have hharmless := fun comment hcomment => harmless_iff.mp (h.comments comment hcomment)
  have hdata : lines.flatMap (Line.sets "data") = m.data.splitOn '\n' := by
    rw [← hlines.data, List.filterMap_eq_flatMap_toList]
    apply List.flatMap_congr
    intro line hline
    rcases hlines.mem.mp hline with hown | ⟨comment, hcomment, rfl⟩
    · exact h.clean.sets_data hown
    · exact (hharmless comment hcomment).1
  apply parseEventBlock_eq_some.mpr
  rw [hdata]
  refine ⟨List.splitOn_ne_nil _ _, List.intercalate_splitOn _, ?_, ?_, ?_⟩
  · apply hlines.getLast? h.clean.last_event_iff
    exact fun comment hcomment => (hharmless comment hcomment).2.1
  · apply hlines.getLast? h.clean.last_id_iff
    exact fun comment hcomment => (hharmless comment hcomment).2.2.1
  · apply hlines.getLast? (h.clean.last_retry_iff h.retry)
    exact fun comment hcomment => (hharmless comment hcomment).2.2.2

theorem clean_of_mem_sets {field : String} {value : List Char}
    (h : value ∈ lines.flatMap (Line.sets field)) : ∀ c ∈ value, isBoundary c = false := by
  obtain ⟨line, -, hvalue⟩ := List.mem_flatMap.mp h
  exact clean_of_mem_values hvalue

theorem clean_of_parse (h : parseEventBlock (block lines) = some m.event) : Clean m := by
  obtain ⟨-, hdata, hevent, hid, -⟩ := parseEventBlock_eq_some.mp h
  constructor
  · intro c hc hboundary
    rw [show m.data = _ from hdata.symm] at hc
    rcases mem_intercalate hc with heq | ⟨value, hvalue, hmem⟩
    · exact heq
    · exact Bool.noConfusion ((clean_of_mem_sets hvalue c hmem).symm.trans hboundary)
  · intro text htext
    exact clean_of_mem_sets (List.mem_of_getLast? (hevent.trans htext))
  · intro text htext
    exact clean_of_mem_sets (List.mem_of_getLast? (hid.trans htext))

theorem retry_of_parse (h : parseEventBlock (block lines) = some m.event) {ms : Nat}
    (hms : m.retry = some ms) : ms < 10 ^ MAX_STR_DIGITS := by
  obtain ⟨-, -, -, -, hretry⟩ := parseEventBlock_eq_some.mp h
  have hlast : (lines.flatMap Line.setsRetry).getLast? = some (ms : Int) := by
    rw [hretry, Message.event, hms]
    rfl
  obtain ⟨line, -, hline⟩ := List.mem_flatMap.mp (List.mem_of_getLast? hlast)
  obtain ⟨value, -, hint⟩ := List.mem_filterMap.mp hline
  simpa using intOfStr_lt hint

theorem harmless_of_parse {others : List (List Char)} {comment : List Char}
    (h : parseEventBlock (block (own m ++ (others ++ [comment]).map .comment)) = some m.event) :
    Harmless m comment := by
  have hclean := clean_of_parse h
  obtain ⟨hne, hdata, hevent, hid, hretry⟩ := parseEventBlock_eq_some.mp h
  have hlines : own m ++ (others ++ [comment]).map .comment =
      own m ++ others.map .comment ++ [Line.comment comment] := by simp
  rw [hlines] at hne hdata hevent hid hretry
  have hlast : ∀ {β : Type} (f : Line → List β), ((own m ++ others.map Line.comment ++
      [Line.comment comment]).flatMap f).getLast? =
        (f (.comment comment)).getLast?.or ((own m ++ others.map Line.comment).flatMap f).getLast? := by
    intro β f
    rw [List.flatMap_append, List.getLast?_append, List.flatMap_singleton]
  refine harmless_iff.mpr ⟨?_, fun text htext => ?_, fun text htext => ?_, fun ms hms => ?_⟩
  · have hown : (own m).flatMap (Line.sets "data") = m.data.splitOn '\n' := by
      rw [← own_data, List.filterMap_eq_flatMap_toList]
      exact List.flatMap_congr fun line hline => hclean.sets_data hline
    have hall : (own m ++ others.map Line.comment ++ [Line.comment comment]).flatMap (Line.sets "data") =
        m.data.splitOn '\n' := by
      rw [← show _ = m.data from hdata, List.splitOn_intercalate _ ?_ hne]
      intro value hvalue hsep
      have hboundary : isBoundary '\n' = true := by decide
      exact Bool.noConfusion ((clean_of_mem_sets hvalue _ hsep).symm.trans hboundary)
    rw [List.append_assoc, List.flatMap_append, hown] at hall
    have hrest := List.append_right_eq_self.mp hall
    exact List.flatMap_eq_nil_iff.mp hrest _ (by simp)
  · rw [hlast, htext] at hevent
    exact hevent.symm
  · rw [hlast, htext] at hid
    exact hid.symm
  · rw [hlast, hms] at hretry
    exact hretry.symm

/-- Every encoding of a message with these comments is parsed to it iff no separator but LF is in
    the data and none in the event type and the id, Python reads the retry time, and no comment
    sets anything else. -/
theorem roundTrips_iff (m : Message) (comments : List (List Char)) :
    RoundTrips m comments ↔ Plain m comments := by
  refine ⟨fun hround => ?_, roundTrips_of_plain⟩
  have hcanonical := hround _ (encodes_own (.refl comments))
  refine ⟨clean_of_parse hcanonical, fun ms => retry_of_parse hcanonical, fun comment hcomment => ?_⟩
  apply @harmless_of_parse m (comments.erase comment) comment
  apply hround _ (encodes_own _)
  exact (List.perm_append_singleton _ _).trans (List.perm_cons_erase hcomment).symm

/-- The line separator of Unicode ends the data. -/
theorem line_separator_cuts : ¬RoundTrips ⟨['a', '\u2028', 'b'], none, none, none⟩ [] := by
  intro hround
  have hparse := hround _ (encodes_own (.refl []))
  revert hparse
  decide

end SseBlock
