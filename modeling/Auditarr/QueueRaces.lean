/-
  Auditarr/QueueRaces.lean
  ========================
  **Workers and requests that race for the items of the queue** (`run_one` and
  `run_item` in `app/optimization/worker.py`, `cancel_item` and `retry_item` in
  `app/api/v1/optimization.py`).

  Each party takes one step after the other; a step reads a row, or commits a change of
  one.  `_claim_next`, `cancel_item` and `retry_item` change a row only if its status is
  still one they expect.  `_mark_running` and the end of a run write without asking.
-/
import Auditarr.OptimizationQueue
import Auditarr.Runs

namespace QueueRaces

open KeyedTable Database OptimizationWorker OptimizationQueue Runs

/-- What tells the items apart. -/
abbrev Key := String × String

/-- How far a party has come. -/
inductive Party where
  /-- `_claim_next`, before it looks for a candidate. -/
  | selecting (attempts : Nat)
  /-- `_claim_next`, before its update. -/
  | selected (attempts : Nat) (candidate : OptimizationItem)
  /-- `_claim_next`, after its update took the row and before it loads it. -/
  | claimed (attempts : Nat) (key : Key)
  /-- `run_item`, before it loads the row. -/
  | loading (key : Key)
  /-- `run_item`, before `_mark_running`. -/
  | found (item : OptimizationItem) (queued : item.status = .queued)
  /-- `_run_claimed`, up to its last commit. -/
  | working (item : OptimizationItem)
  /-- `cancel_item`, before or after the check of the status. -/
  | cancelling (key : Key) (checked : Bool)
  /-- `retry_item`, before or after the check of the status. -/
  | retrying (key : Key) (checked : Bool)
  | ended
deriving DecidableEq

/-- What is called. -/
inductive Request where
  | runOne
  | runItem (key : Key)
  | cancelItem (key : Key)
  | retryItem (key : Key)

def Request.party : Request → Party
  | .runOne => .selecting 16
  | .runItem key => .loading key
  | .cancelItem key => .cancelling key false
  | .retryItem key => .retrying key false

/-- The item that a worker executes: from the commit that claims it to the last one. -/
def Party.executes : Party → Option Key
  | .claimed _ key => some key
  | .working item => some (keyOf item)
  | _ => none

def statusOf (t : Tables) (key : Key) : Option ItemStatus :=
  (t.items.find? key).map OptimizationItem.status

/-! ### The steps -/

/-- The columns that a run changed are written, whatever the row has become. -/
def writeBack (loaded changed row : OptimizationItem) : OptimizationItem where
  id := if changed.id = loaded.id then row.id else changed.id
  mediaFileId := if changed.mediaFileId = loaded.mediaFileId then row.mediaFileId
    else changed.mediaFileId
  profile := if changed.profile = loaded.profile then row.profile else changed.profile
  status := if changed.status = loaded.status then row.status else changed.status
  queuedByRuleId := if changed.queuedByRuleId = loaded.queuedByRuleId then row.queuedByRuleId
    else changed.queuedByRuleId
  queuedAt := if changed.queuedAt = loaded.queuedAt then row.queuedAt else changed.queuedAt
  startedAt := if changed.startedAt = loaded.startedAt then row.startedAt else changed.startedAt
  finishedAt := if changed.finishedAt = loaded.finishedAt then row.finishedAt
    else changed.finishedAt
  progressPct := if changed.progressPct = loaded.progressPct then row.progressPct
    else changed.progressPct
  originalSizeBytes := if changed.originalSizeBytes = loaded.originalSizeBytes
    then row.originalSizeBytes else changed.originalSizeBytes
  optimizedSizeBytes := if changed.optimizedSizeBytes = loaded.optimizedSizeBytes
    then row.optimizedSizeBytes else changed.optimizedSizeBytes
  backupPath := if changed.backupPath = loaded.backupPath then row.backupPath
    else changed.backupPath
  itemMetadata := if changed.itemMetadata = loaded.itemMetadata then row.itemMetadata
    else changed.itemMetadata
  error := if changed.error = loaded.error then row.error else changed.error

/-- The row of a cancelled item. -/
def cancelled (now : Nat) (row : OptimizationItem) : OptimizationItem :=
  { row with status := .cancelled, finishedAt := some now }

/-- The row of an item that is queued again. -/
def requeued (now : Nat) (row : OptimizationItem) : OptimizationItem :=
  { row with
    status := .queued, startedAt := none, finishedAt := none, progressPct := 0, error := none,
    queuedAt := now }

/-- The states that `cancel_item` refuses. -/
def refusesCancel : ItemStatus → Bool
  | .completed | .failed | .cancelled | .skipped => true
  | _ => false

/-- `cancellable_states`. -/
def cancellable : ItemStatus → Bool
  | .queued | .running => true
  | _ => false

/-- `retriable_states`. -/
def retriable : ItemStatus → Bool
  | .failed | .cancelled | .skipped | .completed => true
  | _ => false

/-- The clock and what surrounds a worker when it is a party's turn. -/
structure Moment where
  env : Env
  disk : Disk

/-- One step of a party: where it is then, and the tables. -/
def advance (m : Moment) (t : Tables) : Party → Party × Tables
  | .selecting 0 => (.ended, t)
  | .selecting (attempts + 1) => match (queue t).head? with
    | none => (.ended, t)
    | some candidate => (.selected attempts candidate, t)
  | .selected attempts candidate => match claim m.env candidate t with
    | none => (.selecting attempts, t)
    | some (_, t') => (.claimed attempts (keyOf candidate), t')
  | .claimed attempts key => match t.items.find? key with
    | none => (.selecting attempts, t)
    | some row => (.working row, t)
  | .loading key => match t.items.find? key with
    | none => (.ended, t)
    | some row => if h : row.status = .queued then (.found row h, t) else (.ended, t)
  | .found item _ => match t.items.find? (keyOf item) with
    | none => (.ended, t)
    | some row => (.working (running m.env item), t.putItem (writeBack item (running m.env item) row))
  | .working item => match t.items.find? (keyOf item) with
    | none => (.ended, t)
    | some row =>
        let changed := (execute m.env ⟨t, item, m.disk, [], 0⟩).2.item
        (.ended, t.putItem (writeBack item changed row))
  | .cancelling key false => match t.items.find? key with
    | none => (.ended, t)
    | some row => if refusesCancel row.status then (.ended, t) else (.cancelling key true, t)
  | .cancelling key true => match t.items.find? key with
    | none => (.ended, t)
    | some row =>
        if cancellable row.status then (.ended, t.putItem (cancelled m.env.now row)) else (.ended, t)
  | .retrying key false => match t.items.find? key with
    | none => (.ended, t)
    | some row =>
        if row.status = .queued ∨ row.status = .running then (.ended, t)
        else (.retrying key true, t)
  | .retrying key true => match t.items.find? key with
    | none => (.ended, t)
    | some row =>
        if retriable row.status then (.ended, t.putItem (requeued m.env.now row)) else (.ended, t)
  | .ended => (.ended, t)

structure System where
  tables : Tables
  parties : Nat → Party

/-- A call, the next step of a party, or its death. -/
inductive Step where
  | call (p : Nat) (request : Request)
  | turn (p : Nat) (m : Moment)
  | die (p : Nat)

/-- The system after a step; a party is used for one call. -/
def next (s : System) : Step → System
  | .call p request =>
      if s.parties p = .ended then
        { s with parties := Function.update s.parties p request.party }
      else s
  | .turn p m =>
      ⟨(advance m s.tables (s.parties p)).2,
        Function.update s.parties p (advance m s.tables (s.parties p)).1⟩
  | .die p => { s with parties := Function.update s.parties p .ended }

/-- Nobody is at work yet. -/
def atRest (t : Tables) : System := ⟨t, fun _ => .ended⟩

/-! ### What may go wrong -/

/-- No item is executed by two workers. -/
def OneWorkerEach (s : System) : Prop :=
  ∀ p q key, (s.parties p).executes = some key → (s.parties q).executes = some key → p = q

/-- The step puts the item back into the queue on request. -/
def Retries (key : Key) (s : System) : Step → Prop
  | .turn p _ => s.parties p = .retrying key true ∧
      ∃ status, statusOf s.tables key = some status ∧ retriable status = true
  | _ => False

/-- The writes that do not ask find the row as they expect it: `_mark_running` finds it
    queued and the end of a run finds it running.  An item that is put back into the queue
    on request is not being executed. -/
def Expected (s : System) : Step → Prop
  | .turn p _ => match s.parties p with
    | .found item _ => statusOf s.tables (keyOf item) = some .queued
    | .working item => statusOf s.tables (keyOf item) = some .running
    | .retrying key true => (∃ status, statusOf s.tables key = some status ∧ retriable status = true) →
        ∀ q, (s.parties q).executes ≠ some key
    | _ => True
  | _ => True

/-! ### What a step does -/

/-- What becomes of the items when a party takes a step that finds what it expects. -/
inductive Effect (t : Tables) (party party' : Party) (t' : Tables) : Prop where
  | quiet (tables : t' = t)
      (executes : party'.executes = none ∨ party'.executes = party.executes)
  | takes (key : Key) (queued : statusOf t key = some .queued)
      (executes : party'.executes = some key) (running : statusOf t' key = some .running)
      (others : ∀ k ≠ key, statusOf t' k = statusOf t k)
  | ends (key : Key) (executed : party.executes = some key)
      (running : statusOf t key = some .running) (executes : party'.executes = none)
      (others : ∀ k ≠ key, statusOf t' k = statusOf t k)
  | cancels (key : Key) (status : ItemStatus) (found : statusOf t key = some status)
      (cancellable : cancellable status = true) (executes : party'.executes = none)
      (cancelled : statusOf t' key = some .cancelled)
      (others : ∀ k ≠ key, statusOf t' k = statusOf t k)
  | retries (key : Key) (asked : party = .retrying key true) (status : ItemStatus)
      (found : statusOf t key = some status) (retriable : retriable status = true)
      (executes : party'.executes = none) (others : ∀ k ≠ key, statusOf t' k = statusOf t k)

section Effects

variable {t : Tables} {key : Key} {row : OptimizationItem}

theorem statusOf_putItem (t : Tables) (row : OptimizationItem) (key : Key) :
    statusOf (t.putItem row) key = if key = keyOf row then some row.status else statusOf t key := by
  unfold statusOf
  rw [show (t.putItem row).items.find? key = _ from Table.find?_upsert key]
  rw [apply_ite (Option.map OptimizationItem.status)]
  rfl

theorem statusOf_found (hfind : t.items.find? key = some row) : statusOf t key = some row.status := by
  rw [statusOf, hfind]
  rfl

theorem keyOf_found (hfind : t.items.find? key = some row) : keyOf row = key :=
  (Table.mem_of_find? hfind).2

theorem statusOf_put {row' : OptimizationItem} (hkey : keyOf row' = key) (t : Tables) :
    statusOf (t.putItem row') key = some row'.status ∧
      ∀ k ≠ key, statusOf (t.putItem row') k = statusOf t k := by
  constructor
  · rw [statusOf_putItem, if_pos hkey.symm]
  · intro k hk
    rw [statusOf_putItem, if_neg]
    rwa [hkey]

theorem keyOf_writeBack {loaded changed : OptimizationItem} (h : keyOf changed = keyOf loaded)
    (row : OptimizationItem) : keyOf (writeBack loaded changed row) = keyOf row := by
  have hmedia : changed.mediaFileId = loaded.mediaFileId := congrArg Prod.fst h
  have hprofile : changed.profile = loaded.profile := congrArg Prod.snd h
  simp [keyOf, writeBack, hmedia, hprofile]

theorem keyOf_executed (m : Moment) (t : Tables) (item : OptimizationItem) :
    keyOf (execute m.env ⟨t, item, m.disk, [], 0⟩).2.item = keyOf item :=
  (execute_writesBack m.env ⟨t, item, m.disk, [], 0⟩).2.1.key

theorem claim_effect (env : Env) (candidate : OptimizationItem) (t : Tables) :
    claim env candidate t = none ∨ ∃ won t', claim env candidate t = some (won, t') ∧
      statusOf t (keyOf candidate) = some .queued ∧
      statusOf t' (keyOf candidate) = some .running ∧
      ∀ k ≠ keyOf candidate, statusOf t' k = statusOf t k := by
  unfold claim
  split
  · exact .inl rfl
  · rename_i row hfind
    split
    · rename_i hqueued
      have hrow := keyOf_found hfind
      have hkey : keyOf (running env row) = keyOf candidate := hrow
      have hput := statusOf_put hkey t
      exact .inr ⟨_, _, rfl, (statusOf_found hfind).trans (congrArg some hqueued), hput.1, hput.2⟩
    · exact .inl rfl

theorem advance_effect (m : Moment) (t : Tables) (party : Party)
    (hfound : ∀ item h, party = .found item h → statusOf t (keyOf item) = some .queued)
    (hworking : ∀ item, party = .working item → statusOf t (keyOf item) = some .running) :
    Effect t party (advance m t party).1 (advance m t party).2 := by
  cases party with
  | selecting attempts =>
    cases attempts with
    | zero => exact .quiet rfl (.inl rfl)
    | succ attempts =>
      cases hhead : (queue t).head? with
      | none => simpa only [advance, hhead] using Effect.quiet rfl (.inl rfl)
      | some candidate => simpa only [advance, hhead] using Effect.quiet rfl (.inl rfl)
  | selected attempts candidate =>
    rcases claim_effect m.env candidate t with hnone | ⟨won, t', hsome, hqueued, hrunning, hothers⟩
    · simpa only [advance, hnone] using Effect.quiet rfl (.inl rfl)
    · simpa only [advance, hsome] using Effect.takes _ hqueued rfl hrunning hothers
  | claimed attempts key =>
    cases hfind : t.items.find? key with
    | none => simpa only [advance, hfind] using Effect.quiet rfl (.inl rfl)
    | some row =>
      have hsame : (Party.working row).executes = (Party.claimed attempts key).executes :=
        congrArg some (keyOf_found hfind)
      simpa only [advance, hfind] using Effect.quiet rfl (.inr hsame)
  | loading key =>
    cases hfind : t.items.find? key with
    | none => simpa only [advance, hfind] using Effect.quiet rfl (.inl rfl)
    | some row =>
      by_cases hqueued : row.status = .queued
      · simpa only [advance, hfind, hqueued, dite_true] using Effect.quiet rfl (.inl rfl)
      · simpa only [advance, hfind, hqueued, dite_false] using Effect.quiet rfl (.inl rfl)
  | found item queued =>
    cases hfind : t.items.find? (keyOf item) with
    | none => simpa only [advance, hfind] using Effect.quiet rfl (.inl rfl)
    | some row =>
      have hkey : keyOf (writeBack item (running m.env item) row) = keyOf item :=
        (keyOf_writeBack rfl row).trans (keyOf_found hfind)
      have hstatus : (writeBack item (running m.env item) row).status = .running := by
        simp [writeBack, running, queued]
      have hput := statusOf_put hkey t
      rw [hstatus] at hput
      simpa only [advance, hfind] using Effect.takes _ (hfound item queued rfl) rfl hput.1 hput.2
  | working item =>
    cases hfind : t.items.find? (keyOf item) with
    | none => simpa only [advance, hfind] using Effect.quiet rfl (.inl rfl)
    | some row =>
      have hkey := (keyOf_writeBack (keyOf_executed m t item) row).trans (keyOf_found hfind)
      have hput := statusOf_put hkey t
      simpa only [advance, hfind] using Effect.ends _ rfl (hworking item rfl) rfl hput.2
  | cancelling key checked =>
    cases hfind : t.items.find? key with
    | none => cases checked <;> simpa only [advance, hfind] using Effect.quiet rfl (.inl rfl)
    | some row =>
      cases checked with
      | false =>
        cases hrefuses : refusesCancel row.status with
        | false =>
          simpa only [advance, hfind, hrefuses, Bool.false_eq_true, if_false] using Effect.quiet rfl (.inl rfl)
        | true => simpa only [advance, hfind, hrefuses, if_true] using Effect.quiet rfl (.inl rfl)
      | true =>
        cases hcancellable : cancellable row.status with
        | false =>
          simpa only [advance, hfind, hcancellable, Bool.false_eq_true, if_false] using Effect.quiet rfl (.inl rfl)
        | true =>
          have hrow := keyOf_found hfind
          have hkey : keyOf (cancelled m.env.now row) = key := hrow
          have hput := statusOf_put hkey t
          simpa only [advance, hfind, hcancellable, if_true] using
            Effect.cancels key row.status (statusOf_found hfind) hcancellable rfl hput.1 hput.2
  | retrying key checked =>
    cases hfind : t.items.find? key with
    | none => cases checked <;> simpa only [advance, hfind] using Effect.quiet rfl (.inl rfl)
    | some row =>
      cases checked with
      | false =>
        by_cases hreturns : row.status = .queued ∨ row.status = .running
        · simpa only [advance, hfind, hreturns, if_true] using Effect.quiet rfl (.inl rfl)
        · simpa only [advance, hfind, hreturns, if_false] using Effect.quiet rfl (.inl rfl)
      | true =>
        cases hretriable : retriable row.status with
        | false =>
          simpa only [advance, hfind, hretriable, Bool.false_eq_true, if_false] using Effect.quiet rfl (.inl rfl)
        | true =>
          have hrow := keyOf_found hfind
          have hkey : keyOf (requeued m.env.now row) = key := hrow
          have hput := statusOf_put hkey t
          simpa only [advance, hfind, hretriable, if_true] using
            Effect.retries key rfl row.status (statusOf_found hfind) hretriable rfl hput.2
  | ended => exact .quiet rfl (.inl rfl)

end Effects

/-! ### One worker alone -/

theorem writeBack_self (item changed : OptimizationItem) : writeBack item changed item = changed := by
  have hcolumn : ∀ {α : Type} [DecidableEq α] (a b : α), (if b = a then a else b) = b := by
    intro α _ a b
    split
    · rename_i h
      exact h.symm
    · rfl
  simp only [writeBack, hcolumn]

theorem alone_runOne (m : Moment) (t : Tables) (p : Nat) :
    (final next (atRest t) (.call p .runOne :: List.replicate 4 (.turn p m))).tables =
      (runOne m.env ⟨t, m.disk⟩).2.tables := by
  cases hqueue : queue t with
  | nil =>
    have hidle : claimNext m.env t 16 = none := by simp [claimNext, hqueue]
    have hselect : advance m t (.selecting 16) = (.ended, t) := by simp [advance, hqueue]
    have hended : advance m t .ended = (.ended, t) := rfl
    simp [final, next, atRest, Request.party, hselect, hended, runOne, hidle, List.replicate]
  | cons item rest =>
    obtain ⟨hitem, hqueued⟩ := mem_queue.mp
      (show item ∈ queue t by rw [hqueue]; exact List.mem_cons_self ..)
    have hfind : t.items.find? (keyOf item) = some item := Table.find?_eq_some.mpr ⟨hitem, rfl⟩
    have hfind' : (t.putItem (running m.env item)).items.find? (keyOf item) =
        some (running m.env item) := by
      exact (Table.find?_upsert (keyOf item)).trans (if_pos rfl)
    have hselect : advance m t (.selecting 16) = (.selected 15 item, t) := by
      simp [advance, hqueue]
    have hclaim : advance m t (.selected 15 item) =
        (.claimed 15 (keyOf item), t.putItem (running m.env item)) := by
      simp [advance, claim, hfind, hqueued]
    have hload : advance m (t.putItem (running m.env item)) (.claimed 15 (keyOf item)) =
        (.working (running m.env item), t.putItem (running m.env item)) := by
      simp [advance, hfind']
    have hrun : (advance m (t.putItem (running m.env item)) (.working (running m.env item))).2 =
        (t.putItem (running m.env item)).putItem (execute m.env
          ⟨t.putItem (running m.env item), running m.env item, m.disk, [], 0⟩).2.item := by
      have hsame : keyOf (running m.env item) = keyOf item := rfl
      simp only [advance, hsame, hfind', writeBack_self]
    have hwritten := (execute_writesBack m.env
      ⟨t.putItem (running m.env item), running m.env item, m.disk, [], 0⟩).1
    rw [runOne, claimNext_head m.env hqueue 15]
    simp [final, next, atRest, Request.party, hselect, hclaim, hload, hrun, hwritten, List.replicate]

/-! ### Runs -/

/-- An item has one worker at most, and none while it is queued. -/
structure Sound (s : System) : Prop where
  oneWorkerEach : OneWorkerEach s
  unqueued : ∀ p key, (s.parties p).executes = some key → statusOf s.tables key ≠ some .queued

section Runs

variable {s : System}

theorem sound_atRest (t : Tables) : Sound (atRest t) :=
  ⟨fun _ _ _ h => (Option.some_ne_none _ h.symm).elim,
    fun _ _ h => (Option.some_ne_none _ h.symm).elim⟩

theorem executes_update {parties : Nat → Party} {p : Nat} {party' : Party}
    (h : party'.executes = none ∨ party'.executes = (parties p).executes) {q : Nat} {key : Key}
    (hq : (Function.update parties p party' q).executes = some key) :
    (parties q).executes = some key := by
  by_cases hqp : q = p
  · subst hqp
    rw [Function.update_self] at hq
    rcases h with hnone | hsame
    · rw [hnone] at hq
      cases hq
    · exact hsame ▸ hq
  · rwa [Function.update_of_ne hqp] at hq

theorem Sound.of_fewer (hs : Sound s) {s' : System}
    (hfewer : ∀ q key, (s'.parties q).executes = some key → (s.parties q).executes = some key)
    (hstatus : ∀ q key, (s'.parties q).executes = some key →
      statusOf s'.tables key ≠ some .queued) : Sound s' :=
  ⟨fun p q key hp hq => hs.oneWorkerEach p q key (hfewer p key hp) (hfewer q key hq), hstatus⟩

theorem Sound.takes (hs : Sound s) {p : Nat} {party' : Party} {t' : Tables} {key : Key}
    (hqueued : statusOf s.tables key = some .queued) (hexecutes : party'.executes = some key)
    (hrunning : statusOf t' key = some .running)
    (hothers : ∀ k ≠ key, statusOf t' k = statusOf s.tables k) :
    Sound ⟨t', Function.update s.parties p party'⟩ := by
  -- whoever else executes something does not execute this item
  have hother : ∀ q ≠ p, ∀ k, (Function.update s.parties p party' q).executes = some k →
      (s.parties q).executes = some k ∧ k ≠ key := by
    intro q hqp k hq
    rw [Function.update_of_ne hqp] at hq
    refine ⟨hq, ?_⟩
    rintro rfl
    exact hs.unqueued q k hq hqueued
  have hself : ∀ k, (Function.update s.parties p party' p).executes = some k → k = key := by
    intro k hk
    rw [Function.update_self, hexecutes] at hk
    exact (Option.some.inj hk).symm
  constructor
  · intro q q' k hq hq'
    by_cases hqp : q = p
    · by_cases hqp' : q' = p
      · rw [hqp, hqp']
      · subst hqp
        exact absurd (hself k hq) (hother q' hqp' k hq').2
    · by_cases hqp' : q' = p
      · subst hqp'
        exact absurd (hself k hq') (hother q hqp k hq).2
      · exact hs.oneWorkerEach q q' k (hother q hqp k hq).1 (hother q' hqp' k hq').1
  · intro q k hq
    show statusOf t' k ≠ _
    by_cases hqp : q = p
    · subst hqp
      rw [hself k hq, hrunning]
      exact fun h => ItemStatus.noConfusion (Option.some.inj h)
    · obtain ⟨hbefore, hne⟩ := hother q hqp k hq
      rw [hothers k hne]
      exact hs.unqueued q k hbefore

/-- A party that executes nothing afterwards changes an item; if that is queued then,
    nobody else executes it. -/
theorem Sound.writes (hs : Sound s) {p : Nat} {party' : Party} {t' : Tables} {key : Key}
    (hexecutes : party'.executes = none)
    (hfree : statusOf t' key ≠ some .queued ∨ ∀ q ≠ p, (s.parties q).executes ≠ some key)
    (hothers : ∀ k ≠ key, statusOf t' k = statusOf s.tables k) :
    Sound ⟨t', Function.update s.parties p party'⟩ := by
  apply hs.of_fewer
  · intro q k hq
    exact executes_update (.inl hexecutes) hq
  · intro q k hq
    show statusOf t' k ≠ _
    have hbefore := executes_update (.inl hexecutes) hq
    by_cases hk : k = key
    · subst hk
      rcases hfree with hstatus | hnobody
      · exact hstatus
      · have hqp : q ≠ p := by
          rintro rfl
          simp only [Function.update_self, hexecutes] at hq
          cases hq
        exact absurd hbefore (hnobody q hqp)
    · rw [hothers k hk]
      exact hs.unqueued q k hbefore

theorem effect_of_expected {p : Nat} {m : Moment} (h : Expected s (.turn p m)) :
    Effect s.tables (s.parties p) (advance m s.tables (s.parties p)).1
      (advance m s.tables (s.parties p)).2 := by
  apply advance_effect
  · intro item queued hparty
    simpa only [Expected, hparty] using h
  · intro item hparty
    simpa only [Expected, hparty] using h

theorem sound_next (step : Step) (hs : Sound s) (hexpected : Expected s step) :
    Sound (next s step) := by
  have hends : ∀ p party', party'.executes = none →
      Sound { s with parties := Function.update s.parties p party' } := by
    intro p party' hnone
    apply hs.of_fewer
    · intro q key hq
      exact executes_update (.inl hnone) hq
    · intro q key hq
      exact hs.unqueued q key (executes_update (.inl hnone) hq)
  cases step with
  | call p request =>
    simp only [next]
    split
    · exact hends p _ (by cases request <;> rfl)
    · exact hs
  | die p => exact hends p _ rfl
  | turn p m =>
    have heffect := effect_of_expected hexpected
    simp only [next]
    generalize (advance m s.tables (s.parties p)).1 = party' at heffect
    generalize (advance m s.tables (s.parties p)).2 = t' at heffect
    cases heffect with
    | quiet htables hexecutes =>
      rw [htables]
      apply hs.of_fewer
      · intro q key hq
        exact executes_update hexecutes hq
      · intro q key hq
        exact hs.unqueued q key (executes_update hexecutes hq)
    | takes key hqueued hexecutes hrunning hothers =>
      exact hs.takes hqueued hexecutes hrunning hothers
    | ends key hexecuted hrunning hexecutes hothers =>
      apply hs.writes hexecutes (.inr _) hothers
      intro q hqp hq
      exact hqp (hs.oneWorkerEach q p key hq hexecuted)
    | cancels key status hstatus hcancellable hexecutes hcancelled hothers =>
      apply hs.writes hexecutes (.inl _) hothers
      rw [hcancelled]
      exact fun h => ItemStatus.noConfusion (Option.some.inj h)
    | retries key hasked status hstatus hretriable hexecutes hothers =>
      have hnobody : (∃ status, statusOf s.tables key = some status ∧ retriable status = true) →
          ∀ q, (s.parties q).executes ≠ some key := by
        simpa only [Expected, hasked] using hexpected
      apply hs.writes hexecutes (.inr _) hothers
      intro q _
      exact hnobody ⟨status, hstatus, hretriable⟩ q

theorem cancelled_next {key : Key} (step : Step) (hcancelled : statusOf s.tables key = some .cancelled)
    (hexpected : Expected s step) (hretries : ¬ Retries key s step) :
    statusOf (next s step).tables key = some .cancelled := by
  cases step with
  | call p request =>
    simp only [next]
    split <;> exact hcancelled
  | die p => exact hcancelled
  | turn p m =>
    have hother : ∀ k status, statusOf s.tables k = some status → status ≠ .cancelled → key ≠ k := by
      rintro k status hstatus hne rfl
      rw [hcancelled] at hstatus
      exact hne (Option.some.inj hstatus).symm
    cases effect_of_expected hexpected with
    | quiet htables hexecutes => exact (congrArg (statusOf · key) htables).trans hcancelled
    | takes k hqueued hexecutes hrunning hothers =>
      exact (hothers key (hother k _ hqueued ItemStatus.noConfusion)).trans hcancelled
    | ends k hexecuted hrunning hexecutes hothers =>
      exact (hothers key (hother k _ hrunning ItemStatus.noConfusion)).trans hcancelled
    | cancels k status hstatus hcancellable hexecutes hafter hothers =>
      by_cases hk : key = k
      · exact hk ▸ hafter
      · exact (hothers key hk).trans hcancelled
    | retries k hasked status hstatus hretriable hexecutes hothers =>
      by_cases hk : key = k
      · subst hk
        exact absurd ⟨hasked, status, hstatus, hretriable⟩ hretries
      · exact (hothers key hk).trans hcancelled

/-- In every run in which the writes that do not ask find what they expect, and no item is
    put back into the queue while it is executed, no item is ever executed by two workers,
    and a cancelled item is neither completed nor failed unless it is retried in between. -/
theorem exclusive_and_cancel_final (t : Tables) (run : List Step)
    (hexpected : Throughout next Expected (atRest t) run) :
    (∀ s ∈ states next (atRest t) run, OneWorkerEach s) ∧
      ∀ before between after, run = before ++ between ++ after →
        ∀ key, statusOf (final next (atRest t) before).tables key = some .cancelled →
          Throughout next (fun s step => ¬ Retries key s step) (final next (atRest t) before)
            between →
          statusOf (final next (atRest t) (before ++ between)).tables key ≠ some .completed ∧
            statusOf (final next (atRest t) (before ++ between)).tables key ≠ some .failed := by
  constructor
  · intro s hs
    obtain ⟨before, after, rfl, rfl⟩ := (mem_states next).mp hs
    have hbefore := ((throughout_append next _ before after).mp hexpected).1
    exact (hbefore.final next (fun s step hsound hok => sound_next step hsound hok)
      (sound_atRest t)).oneWorkerEach
  · rintro before between after rfl key hcancelled hretries
    have hbetween := ((throughout_append next _ before between).mp
      ((throughout_append next _ _ after).mp hexpected).1).2
    have hstays := ((throughout_and next _ between).mp ⟨hbetween, hretries⟩).final next
      (I := fun s => statusOf s.tables key = some .cancelled)
      (fun s step hs hok => cancelled_next step hs hok.1 hok.2) hcancelled
    rw [final_append, hstays]
    exact ⟨fun h => ItemStatus.noConfusion (Option.some.inj h),
      fun h => ItemStatus.noConfusion (Option.some.inj h)⟩

end Runs

/-! ### A cancelled item -/

def noon : Moment where
  env := noonEnv
  disk := (twoItems 2 1).disk

def anytimeKey : Key := ("f1", "anytime")

/-- A queued item is cancelled. -/
def cancelQueued : List Step :=
  [.call 0 (.cancelItem anytimeKey), .turn 0 noon, .turn 0 noon]

/-- The item is to be run all the same. -/
def runCancelled : List Step := [.call 1 (.runItem anytimeKey), .turn 1 noon]

theorem exclusive_and_cancel_final_queued :
    OneWorkerEach (final next (atRest (twoItems 2 1).tables) (cancelQueued ++ runCancelled)) ∧
      statusOf (final next (atRest (twoItems 2 1).tables)
        (cancelQueued ++ runCancelled)).tables anytimeKey ≠ some .completed := by
  have hexpected : Throughout next Expected (atRest (twoItems 2 1).tables)
      (cancelQueued ++ runCancelled) := by
    have hchecked : (next (next (atRest (twoItems 2 1).tables) (.call 0 (.cancelItem anytimeKey)))
        (.turn 0 noon)).parties 0 = .cancelling anytimeKey true := by
      decide +kernel
    refine ⟨trivial, trivial, ?_, trivial, trivial, trivial⟩
    simp only [Expected, hchecked]
  have hnot : ¬ Retries anytimeKey (next (final next (atRest (twoItems 2 1).tables) cancelQueued)
      (.call 1 (.runItem anytimeKey))) (.turn 1 noon) := by
    rintro ⟨hretrying, -⟩
    exact absurd hretrying (by decide +kernel)
  obtain ⟨hexclusive, hfinal⟩ := exclusive_and_cancel_final (twoItems 2 1).tables _ hexpected
  exact ⟨hexclusive _ ((mem_states next).mpr ⟨_, [], (List.append_nil _).symm, rfl⟩),
    (hfinal cancelQueued runCancelled [] (List.append_nil _).symm anytimeKey (by decide +kernel)
      ⟨not_false, hnot, trivial⟩).1⟩

/-! ### Lost races -/

/-- Both calls load the item while it is queued, and both go on. -/
def runTwice : List Step :=
  [.call 0 (.runItem anytimeKey), .call 1 (.runItem anytimeKey), .turn 0 noon, .turn 1 noon,
    .turn 0 noon, .turn 1 noon]

/-- The item is cancelled while it is executed. -/
def cancelRunning : List Step :=
  [.call 0 .runOne, .turn 0 noon, .turn 0 noon, .turn 0 noon,
    .call 1 (.cancelItem anytimeKey), .turn 1 noon, .turn 1 noon]

/-- Two calls of `run_item` execute one item; and a worker completes an item that was
    cancelled while it was at it. -/
theorem lost_races :
    (¬ ∀ t run, ∀ s ∈ states next (atRest t) run, OneWorkerEach s) ∧
    ¬ ∀ t run before between after, run = before ++ between ++ after →
      ∀ key, statusOf (final next (atRest t) before).tables key = some .cancelled →
        Throughout next (fun s step => ¬ Retries key s step) (final next (atRest t) before)
          between →
        statusOf (final next (atRest t) (before ++ between)).tables key ≠ some .completed ∧
          statusOf (final next (atRest t) (before ++ between)).tables key ≠ some .failed := by
  constructor
  · intro hall
    have hboth := hall (twoItems 2 1).tables runTwice _
      ((mem_states next).mpr ⟨runTwice, [], (List.append_nil _).symm, rfl⟩) 0 1 anytimeKey
    exact absurd (hboth (by decide +kernel) (by decide +kernel)) (by decide)
  · intro hall
    have hnot := (hall (twoItems 2 1).tables _ cancelRunning [.turn 0 noon] [] rfl anytimeKey
      (by decide +kernel) ⟨?_, trivial⟩).1
    · exact absurd (by decide +kernel) hnot
    · rintro ⟨hretrying, -⟩
      have hworking : (((final next (atRest (twoItems 2 1).tables) cancelRunning).parties 0).executes) =
          some anytimeKey := by decide +kernel
      rw [hretrying] at hworking
      cases hworking

end QueueRaces
