/-
  Auditarr/EventFanout.lean
  =========================
  **Domain events on their way to the browsers** (`app/events/bus.py`, `app/api/websocket.py`).

  The manager of the websockets is a subscriber of the bus.  For each event that is published it
  takes down the connections whose topics match, and then sends to one after another; while a send
  is awaited, other events are published and sent, and clients come and go.  However this
  interleaves, a client gets no event twice and none that it did not ask for; one that stays gets
  every event; and events of which the first is through before the second is published arrive in
  that order.
-/
import Auditarr.PyValues
import Auditarr.Runs
import Mathlib.Data.List.Nodup

namespace EventFanout

open PyValues

/-- `DomainEvent`, with what the clients get of it. -/
structure DomainEvent where
  name : String
  payload : PyValue
  source : String
  occurredAt : String
  eventId : String
  name_ne : name ≠ "*"

structure Message where
  type : String
  name : String
  source : String
  payload : PyValue
  occurredAt : String
  eventId : String

/-- The message of an event. -/
def messageOf (e : DomainEvent) : Message :=
  ⟨"event", e.name, e.source, e.payload, e.occurredAt, e.eventId⟩

/-- `WebSocketConnection`. -/
structure WebSocketConnection where
  id : Nat
  topics : List String
deriving DecidableEq

/-- `matches`: topics are prefixes. -/
def WebSocketConnection.matches (c : WebSocketConnection) (eventName : String) : Bool :=
  c.topics.isEmpty || c.topics.contains "*" ||
    c.topics.any fun t => eventName == t || t.toList.isPrefixOf eventName.toList

/-- The handlers on the bus: `WebSocketManager._on_event`, and others. -/
inductive Handler where
  | onEvent
  | other (n : Nat)
deriving DecidableEq

/-- A call of `_on_event`, and the connections it has left once it has taken them down. -/
structure Task where
  event : DomainEvent
  targets : Option (List WebSocketConnection)

structure State where
  /-- `EventBus._subs`, each name's handlers in their order. -/
  subs : List (String × Handler)
  /-- Whether the manager has `_unsubscribe`. -/
  unsubscribe : Bool
  connections : List WebSocketConnection
  /-- The ids that were given out are those below. -/
  nextId : Nat
  /-- Whether the socket's `application_state` is `CONNECTED`. -/
  connected : Nat → Bool
  /-- The sockets that `stop` has left to close; it holds the lock meanwhile. -/
  closing : Option (List WebSocketConnection)
  tasks : List Task
  sent : List (WebSocketConnection × Message)

/-- `handlers`, in `publish`. -/
def State.handlers (s : State) (name : String) : List Handler :=
  (s.subs.filter (·.1 = name)).map Prod.snd ++ (s.subs.filter (·.1 = "*")).map Prod.snd

inductive Step where
  /-- `WebSocketManager.start` and `stop`, and a turn of the loop of `stop`. -/
  | start
  | stop
  | closeNext (closes : Bool)
  /-- `connect` with its `accept`, a client that goes away, and `disconnect`. -/
  | connect (topics : List String)
  | hangUp (id : Nat)
  | disconnect (id : Nat)
  /-- Another handler is subscribed, or unsubscribed. -/
  | subscribe (name : String) (n : Nat)
  | unsubscribe (name : String) (n : Nat)
  /-- `EventBus.publish`. -/
  | publish (e : DomainEvent)
  /-- A call of `_on_event` takes down its connections, and sends to the next of them, which may
      raise. -/
  | snapshot (i : Nat)
  | send (i : Nat) (sends : Bool)
  /-- The one who publishes is cancelled, and a call with it. -/
  | cancel (i : Nat)

def next (s : State) : Step → State
  | .start =>
      if s.unsubscribe then s
      else { s with subs := s.subs ++ [("*", .onEvent)], unsubscribe := true }
  | .stop =>
      { s with
        subs := if s.unsubscribe then s.subs.erase ("*", .onEvent) else s.subs
        unsubscribe := false
        closing := s.closing.or (some s.connections) }
  | .closeNext closes => match s.closing with
    | none => s
    | some [] => { s with connections := [], closing := none }
    | some (c :: rest) =>
        { s with
          connected := if closes then Function.update s.connected c.id false else s.connected
          closing := some rest }
  | .connect topics =>
      if s.closing.isSome then s
      else
        { s with
          connections := s.connections ++ [⟨s.nextId, topics⟩]
          connected := Function.update s.connected s.nextId true
          nextId := s.nextId + 1 }
  | .hangUp id => { s with connected := Function.update s.connected id false }
  | .disconnect id =>
      if s.closing.isSome then s
      else { s with connections := s.connections.filter (·.id ≠ id) }
  | .subscribe name n => { s with subs := s.subs ++ [(name, .other n)] }
  | .unsubscribe name n => { s with subs := s.subs.erase (name, .other n) }
  | .publish e =>
      { s with tasks := s.tasks ++ ((s.handlers e.name).filter (· = .onEvent)).map fun _ =>
          ⟨e, none⟩ }
  | .snapshot i => match s.tasks[i]? with
    | some ⟨e, none⟩ =>
        if s.closing.isSome then s
        else { s with
          tasks := s.tasks.set i ⟨e, some (s.connections.filter (·.matches e.name))⟩ }
    | _ => s
  | .send i sends => match s.tasks[i]? with
    | some ⟨_, some []⟩ => { s with tasks := s.tasks.eraseIdx i }
    | some ⟨e, some (c :: rest)⟩ =>
        { s with
          tasks := s.tasks.set i ⟨e, some rest⟩
          sent := if s.connected c.id && sends then s.sent ++ [(c, messageOf e)] else s.sent }
    | _ => s
  | .cancel i => { s with tasks := s.tasks.eraseIdx i }

/-- Before the manager starts. -/
def idle : State := ⟨[], false, [], 0, fun _ => false, none, [], []⟩

/-! ### What is counted -/

abbrev Sent := List (WebSocketConnection × Message)

/-- How often a connection got an event. -/
def delivered (sent : Sent) (id : Nat) (eventId : String) : Nat :=
  sent.countP fun d => d.1.id = id ∧ d.2.eventId = eventId

/-- How often it may still get it from a call. -/
def Task.pending (id : Nat) (eventId : String) (t : Task) : Nat :=
  if t.event.eventId = eventId then match t.targets with
    | none => 1
    | some targets => targets.countP (·.id = id)
  else 0

def pending (tasks : List Task) (id : Nat) (eventId : String) : Nat :=
  (tasks.map (Task.pending id eventId)).sum

/-- How often a connection that stays will still get it from a call. -/
def Task.awaited (c : WebSocketConnection) (eventId : String) (t : Task) : Nat :=
  if t.event.eventId = eventId then match t.targets with
    | none => (c.matches t.event.name).toNat
    | some targets => targets.countP (·.id = c.id)
  else 0

def awaited (tasks : List Task) (c : WebSocketConnection) (eventId : String) : Nat :=
  (tasks.map (Task.awaited c eventId)).sum

/-- A step publishes the event. -/
def publishes (eventId : String) : Step → Nat
  | .publish e => if e.eventId = eventId then 1 else 0
  | _ => 0

/-- A step publishes the event, and the connection asks for it. -/
def publishesFor (c : WebSocketConnection) (eventId : String) : Step → Nat
  | .publish e => if e.eventId = eventId then (c.matches e.name).toNat else 0
  | _ => 0

/-! ### What a step can do to the calls and the messages -/

/-- The message is sent if the socket is connected and the send does not raise. -/
def sentNext (s : State) (c : WebSocketConnection) (e : DomainEvent) (sends : Bool) : Sent :=
  if s.connected c.id && sends then s.sent ++ [(c, messageOf e)] else s.sent

inductive Change (s : State) : Step → List Task → Sent → Prop where
  | same {step : Step} (hstep : ∀ e, step ≠ .publish e) : Change s step s.tasks s.sent
  | publish (e : DomainEvent) : Change s (.publish e)
      (s.tasks ++ ((s.handlers e.name).filter (· = .onEvent)).map fun _ => ⟨e, none⟩) s.sent
  | snapshot {i : Nat} {e : DomainEvent} {before after : List Task}
      (htasks : s.tasks = before ++ ⟨e, none⟩ :: after) : Change s (.snapshot i)
      (before ++ ⟨e, some (s.connections.filter (·.matches e.name))⟩ :: after) s.sent
  | send {i : Nat} {sends : Bool} {e : DomainEvent} {c : WebSocketConnection}
      {rest : List WebSocketConnection} {before after : List Task}
      (hi : s.tasks[i]? = some ⟨e, some (c :: rest)⟩)
      (htasks : s.tasks = before ++ ⟨e, some (c :: rest)⟩ :: after) :
      Change s (.send i sends) (before ++ ⟨e, some rest⟩ :: after) (sentNext s c e sends)
  | finished {i : Nat} {sends : Bool} {e : DomainEvent} {before after : List Task}
      (htasks : s.tasks = before ++ ⟨e, some []⟩ :: after) :
      Change s (.send i sends) (before ++ after) s.sent
  | cancel {i : Nat} {t : Task} {before after : List Task} (hi : s.tasks[i]? = some t)
      (htasks : s.tasks = before ++ t :: after) : Change s (.cancel i) (before ++ after) s.sent

theorem exists_split {α : Type} {l : List α} {i : Nat} {a : α} (h : l[i]? = some a) :
    ∃ before after, l = before ++ a :: after ∧ l.eraseIdx i = before ++ after ∧
      ∀ a', l.set i a' = before ++ a' :: after := by
  obtain ⟨hi, rfl⟩ := List.getElem?_eq_some_iff.mp h
  refine ⟨l.take i, l.drop (i + 1), ?_, List.eraseIdx_eq_take_drop_succ .., fun a' => ?_⟩
  · rw [List.cons_getElem_drop_succ, List.take_append_drop]
  · rw [List.set_eq_take_append_cons_drop, if_pos hi]

theorem change_next (s : State) (step : Step) :
    Change s step (next s step).tasks (next s step).sent := by
  cases step with
  | publish e => exact .publish e
  | snapshot i =>
    cases hi : s.tasks[i]? with
    | none =>
      simp only [next, hi]
      exact .same nofun
    | some t =>
      obtain ⟨e, targets⟩ := t
      obtain ⟨before, after, htasks, -, hset⟩ := exists_split hi
      cases targets with
      | some targets =>
        simp only [next, hi]
        exact .same nofun
      | none =>
        simp only [next, hi]
        split
        · exact .same nofun
        · rw [hset]
          exact .snapshot htasks
  | send i sends =>
    cases hi : s.tasks[i]? with
    | none =>
      simp only [next, hi]
      exact .same nofun
    | some t =>
      obtain ⟨e, targets⟩ := t
      obtain ⟨before, after, htasks, herase, hset⟩ := exists_split hi
      rcases targets with _ | _ | ⟨c, rest⟩
      · simp only [next, hi]
        exact .same nofun
      · simp only [next, hi, herase]
        exact .finished htasks
      · simp only [next, hi, hset]
        exact .send hi htasks
  | cancel i =>
    cases hi : s.tasks[i]? with
    | none =>
      simp only [next, List.eraseIdx_of_length_le (List.getElem?_eq_none_iff.mp hi)]
      exact .same nofun
    | some t =>
      obtain ⟨before, after, htasks, herase, -⟩ := exists_split hi
      simp only [next, herase]
      exact .cancel hi htasks
  | start =>
    simp only [next]
    split <;> exact .same nofun
  | closeNext closes =>
    simp only [next]
    split <;> exact .same nofun
  | connect topics =>
    simp only [next]
    split <;> exact .same nofun
  | disconnect id =>
    simp only [next]
    split <;> exact .same nofun
  | _ => exact .same nofun

/-! ### What holds throughout -/

/-- The ids of connections are their own, and were given out. -/
structure Numbered (connections : List WebSocketConnection) (nextId : Nat) : Prop where
  ids : (connections.map (·.id)).Nodup
  given : ∀ c ∈ connections, c.id < nextId

/-- The manager is subscribed once, to all events, if at all. -/
structure Bridged (subs : List (String × Handler)) (unsubscribe : Bool) : Prop where
  once : subs.count ("*", .onEvent) = unsubscribe.toNat
  wild : ∀ sub ∈ subs, sub.2 = .onEvent → sub.1 = "*"

/-- A call has connections that ask for its event. -/
def Aimed (nextId : Nat) (t : Task) : Prop :=
  ∀ targets, t.targets = some targets →
    Numbered targets nextId ∧ ∀ c ∈ targets, c.matches t.event.name = true

def AskedFor (nextId : Nat) (d : WebSocketConnection × Message) : Prop :=
  d.1.id < nextId ∧ d.1.matches d.2.name = true

structure Inv (s : State) : Prop where
  numbered : Numbered s.connections s.nextId
  bridged : Bridged s.subs s.unsubscribe
  aimed : ∀ t ∈ s.tasks, Aimed s.nextId t
  askedFor : ∀ d ∈ s.sent, AskedFor s.nextId d

section Invariants

variable {connections : List WebSocketConnection} {nextId nextId' : Nat}
  {subs : List (String × Handler)}

theorem Numbered.mono (h : Numbered connections nextId) (hle : nextId ≤ nextId') :
    Numbered connections nextId' :=
  ⟨h.ids, fun c hc => (h.given c hc).trans_le hle⟩

theorem Numbered.filter (h : Numbered connections nextId) (p : WebSocketConnection → Bool) :
    Numbered (connections.filter p) nextId :=
  ⟨h.ids.sublist (List.filter_sublist.map _), fun c hc => h.given c (List.mem_filter.mp hc).1⟩

theorem Numbered.tail {c : WebSocketConnection} (h : Numbered (c :: connections) nextId) :
    Numbered connections nextId :=
  ⟨(List.nodup_cons.mp h.ids).2, fun c' hc' => h.given c' (List.mem_cons_of_mem _ hc')⟩

theorem Numbered.connect (h : Numbered connections nextId) (topics : List String) :
    Numbered (connections ++ [⟨nextId, topics⟩]) (nextId + 1) := by
  constructor
  · rw [List.map_append, List.map_singleton]
    refine List.nodup_append.mpr ⟨h.ids, List.nodup_singleton _, ?_⟩
    simp only [List.mem_map, List.mem_singleton]
    rintro id ⟨c, hc, rfl⟩ id' rfl
    exact (h.given c hc).ne
  · intro c hc
    rcases List.mem_append.mp hc with hold | hnew
    · exact (h.given c hold).trans (Nat.lt_succ_self _)
    · rw [List.mem_singleton.mp hnew]
      exact Nat.lt_succ_self _

theorem Numbered.count_le (h : Numbered connections nextId) (id : Nat) :
    connections.countP (fun c => c.id = id) ≤ 1 := by
  have hcount : connections.countP (fun c => c.id = id) = (connections.map (·.id)).count id := by
    rw [List.count, List.countP_map]
    exact List.countP_congr fun c _ => by simp
  rw [hcount]
  exact List.nodup_iff_count_le_one.mp h.ids id

theorem Bridged.start (h : Bridged subs false) : Bridged (subs ++ [("*", .onEvent)]) true := by
  constructor
  · simp [h.once]
  · intro sub hsub hbridge
    rcases List.mem_append.mp hsub with hold | hnew
    · exact h.wild sub hold hbridge
    · rw [List.mem_singleton.mp hnew]

theorem Bridged.stop (h : Bridged subs true) : Bridged (subs.erase ("*", .onEvent)) false :=
  ⟨by simp [h.once], fun sub hsub => h.wild sub (List.mem_of_mem_erase hsub)⟩

theorem Bridged.subscribe {unsubscribe : Bool} (h : Bridged subs unsubscribe) (name : String)
    (n : Nat) : Bridged (subs ++ [(name, .other n)]) unsubscribe := by
  constructor
  · simp [h.once]
  · intro sub hsub hbridge
    rcases List.mem_append.mp hsub with hold | hnew
    · exact h.wild sub hold hbridge
    · rw [List.mem_singleton.mp hnew] at hbridge
      cases hbridge

theorem Bridged.unsubscribe {unsubscribe : Bool} (h : Bridged subs unsubscribe) (name : String)
    (n : Nat) : Bridged (subs.erase (name, .other n)) unsubscribe :=
  ⟨by rw [List.count_erase_of_ne (by simp)]; exact h.once,
    fun sub hsub => h.wild sub (List.mem_of_mem_erase hsub)⟩

end Invariants

theorem nextId_le (s : State) (step : Step) : s.nextId ≤ (next s step).nextId := by
  cases step <;> simp only [next] <;> repeat' first | split | exact le_rfl | exact Nat.le_succ _

theorem Inv.numbered_next {s : State} (h : Inv s) (step : Step) :
    Numbered (next s step).connections (next s step).nextId := by
  cases step with
  | connect topics =>
    simp only [next]
    split
    · exact h.numbered
    · exact h.numbered.connect topics
  | disconnect id =>
    simp only [next]
    split
    · exact h.numbered
    · exact h.numbered.filter _
  | closeNext closes =>
    simp only [next]
    split
    · exact h.numbered
    · exact ⟨List.nodup_nil, nofun⟩
    · exact h.numbered
  | start =>
    simp only [next]
    split <;> exact h.numbered
  | snapshot i =>
    simp only [next]
    split
    · split <;> exact h.numbered
    · exact h.numbered
  | send i sends =>
    simp only [next]
    split <;> exact h.numbered
  | _ => exact h.numbered

theorem Inv.bridged_next {s : State} (h : Inv s) (step : Step) :
    Bridged (next s step).subs (next s step).unsubscribe := by
  have hbridged := h.bridged
  cases step with
  | start =>
    simp only [next]
    cases hsub : s.unsubscribe with
    | false => exact (hsub ▸ hbridged).start
    | true => simpa [hsub] using hbridged
  | stop =>
    simp only [next]
    cases hsub : s.unsubscribe with
    | false => simpa [hsub] using hbridged
    | true => exact (hsub ▸ hbridged).stop
  | subscribe name n => exact hbridged.subscribe name n
  | unsubscribe name n => exact hbridged.unsubscribe name n
  | closeNext closes =>
    simp only [next]
    split <;> exact hbridged
  | connect topics =>
    simp only [next]
    split <;> exact hbridged
  | disconnect id =>
    simp only [next]
    split <;> exact hbridged
  | snapshot i =>
    simp only [next]
    split
    · split <;> exact hbridged
    · exact hbridged
  | send i sends =>
    simp only [next]
    split <;> exact hbridged
  | _ => exact hbridged

theorem Aimed.mono {nextId nextId' : Nat} {t : Task} (h : Aimed nextId t) (hle : nextId ≤ nextId') :
    Aimed nextId' t :=
  fun targets htargets => ⟨(h targets htargets).1.mono hle, (h targets htargets).2⟩

theorem Inv.change {s : State} (h : Inv s) {step : Step} {tasks : List Task} {sent : Sent}
    (hchange : Change s step tasks sent) :
    (∀ t ∈ tasks, Aimed s.nextId t) ∧ ∀ d ∈ sent, AskedFor s.nextId d := by
  have haimed := h.aimed
  cases hchange with
  | same => exact ⟨haimed, h.askedFor⟩
  | publish e =>
    refine ⟨fun t ht => ?_, h.askedFor⟩
    rcases List.mem_append.mp ht with hold | hnew
    · exact haimed t hold
    · obtain ⟨_, -, rfl⟩ := List.mem_map.mp hnew
      exact nofun
  | @snapshot i e before after htasks =>
    rw [htasks, List.forall_mem_append, List.forall_mem_cons] at haimed
    refine ⟨?_, h.askedFor⟩
    rw [List.forall_mem_append, List.forall_mem_cons]
    refine ⟨haimed.1, ?_, haimed.2.2⟩
    rintro targets ⟨⟩
    exact ⟨h.numbered.filter _, fun c hc => (List.mem_filter.mp hc).2⟩
  | @send i sends e c rest before after _ htasks =>
    rw [htasks, List.forall_mem_append, List.forall_mem_cons] at haimed
    obtain ⟨hnumbered, hmatches⟩ := haimed.2.1 _ rfl
    constructor
    · rw [List.forall_mem_append, List.forall_mem_cons]
      refine ⟨haimed.1, ?_, haimed.2.2⟩
      rintro targets ⟨⟩
      exact ⟨hnumbered.tail, fun c' hc' => hmatches c' (List.mem_cons_of_mem _ hc')⟩
    · unfold sentNext
      split
      · intro d hd
        rcases List.mem_append.mp hd with hold | hnew
        · exact h.askedFor d hold
        · rw [List.mem_singleton.mp hnew]
          exact ⟨hnumbered.given c (List.mem_cons_self ..), hmatches c (List.mem_cons_self ..)⟩
      · exact h.askedFor
  | finished htasks =>
    rw [htasks, List.forall_mem_append, List.forall_mem_cons] at haimed
    exact ⟨List.forall_mem_append.mpr ⟨haimed.1, haimed.2.2⟩, h.askedFor⟩
  | cancel _ htasks =>
    rw [htasks, List.forall_mem_append, List.forall_mem_cons] at haimed
    exact ⟨List.forall_mem_append.mpr ⟨haimed.1, haimed.2.2⟩, h.askedFor⟩

theorem Inv.next {s : State} (h : Inv s) (step : Step) : Inv (next s step) := by
  obtain ⟨haimed, hasked⟩ := h.change (change_next s step)
  have hle := nextId_le s step
  exact ⟨h.numbered_next step, h.bridged_next step, fun t ht => (haimed t ht).mono hle,
    fun d hd => ⟨(hasked d hd).1.trans_le hle, (hasked d hd).2⟩⟩

theorem inv_idle : Inv idle :=
  ⟨⟨List.nodup_nil, nofun⟩, ⟨rfl, nofun⟩, nofun, nofun⟩

theorem inv_final (run : List Step) : Inv (Runs.final EventFanout.next idle run) :=
  Runs.final_invariant EventFanout.next (fun step _ _ h => h.next step) inv_idle

theorem Inv.calls {s : State} (h : Inv s) (e : DomainEvent) :
    ((s.handlers e.name).filter (· = .onEvent)).length = s.unsubscribe.toNat := by
  have hnamed : ((s.subs.filter (·.1 = e.name)).map Prod.snd).filter (· = .onEvent) = [] := by
    simp only [List.filter_eq_nil_iff, List.mem_map, List.mem_filter, decide_eq_true_eq]
    rintro _ ⟨sub, ⟨hsub, hname⟩, rfl⟩ hbridge
    exact e.name_ne (hname.symm.trans (h.bridged.wild sub hsub hbridge))
  rw [State.handlers, List.filter_append, hnamed, List.nil_append, ← h.bridged.once, List.count,
    ← List.countP_eq_length_filter, List.countP_map, List.countP_filter]
  refine List.countP_congr fun sub _ => ?_
  simp [Prod.ext_iff, and_comm]

/-! ### The balance of one step -/

section Balance

variable {id : Nat} {eventId : String} {c : WebSocketConnection}

theorem pending_split (before after : List Task) (t : Task) :
    pending (before ++ t :: after) id eventId =
      t.pending id eventId + pending (before ++ after) id eventId := by
  simp only [pending, List.map_append, List.sum_append, List.map_cons, List.sum_cons]
  omega

theorem awaited_split (before after : List Task) (t : Task) :
    awaited (before ++ t :: after) c eventId =
      t.awaited c eventId + awaited (before ++ after) c eventId := by
  simp only [awaited, List.map_append, List.sum_append, List.map_cons, List.sum_cons]
  omega

theorem sum_append_const {α β : Type} (l : List α) (l' : List β) (f : α → Nat) (a : α) :
    ((l ++ l'.map fun _ => a).map f).sum = (l.map f).sum + l'.length * f a := by
  simp [List.map_const', List.sum_replicate]

/-- The message to a connection of an event, as a number. -/
def isTo (id : Nat) (eventId : String) (c : WebSocketConnection) (e : DomainEvent) : Nat :=
  if c.id = id ∧ e.eventId = eventId then 1 else 0

theorem delivered_sentNext (s : State) (c : WebSocketConnection) (e : DomainEvent) (sends : Bool) :
    delivered (sentNext s c e sends) id eventId = delivered s.sent id eventId +
      if s.connected c.id && sends then isTo id eventId c e else 0 := by
  unfold sentNext delivered
  split
  · simp [List.countP_append, List.countP_singleton, isTo, messageOf]
  · rfl

theorem pending_cons (e : DomainEvent) (c : WebSocketConnection) (rest : List WebSocketConnection) :
    Task.pending id eventId ⟨e, some (c :: rest)⟩ =
      Task.pending id eventId ⟨e, some rest⟩ + isTo id eventId c e := by
  simp only [Task.pending, isTo, List.countP_cons, decide_eq_true_eq]
  by_cases he : e.eventId = eventId <;> simp [he]

theorem awaited_cons (e : DomainEvent) (c' : WebSocketConnection)
    (rest : List WebSocketConnection) : Task.awaited c eventId ⟨e, some (c' :: rest)⟩ =
      Task.awaited c eventId ⟨e, some rest⟩ + isTo c.id eventId c' e := by
  simp only [Task.awaited, isTo, List.countP_cons, decide_eq_true_eq]
  by_cases he : e.eventId = eventId <;> simp [he]

theorem pending_next {s : State} (h : Inv s) (id : Nat) (eventId : String) (step : Step) :
    delivered (next s step).sent id eventId + pending (next s step).tasks id eventId ≤
      delivered s.sent id eventId + pending s.tasks id eventId + publishes eventId step := by
  have hchange := change_next s step
  generalize (next s step).tasks = tasks, (next s step).sent = sent at hchange ⊢
  cases hchange with
  | same => exact Nat.le_add_right ..
  | publish e =>
    have hcall : Task.pending id eventId ⟨e, none⟩ = publishes eventId (.publish e) := rfl
    have hone : ((s.handlers e.name).filter (· = .onEvent)).length ≤ 1 :=
      (h.calls e).trans_le (Bool.toNat_le _)
    rw [pending, sum_append_const, hcall, ← pending, ← Nat.add_assoc]
    exact Nat.add_le_add_left ((Nat.mul_le_mul_right _ hone).trans (Nat.one_mul _).le) _
  | @snapshot i e before after htasks =>
    rw [htasks, pending_split, pending_split]
    have hcount := (h.numbered.filter (·.matches e.name)).count_le id
    have hle : Task.pending id eventId ⟨e, some (s.connections.filter (·.matches e.name))⟩ ≤
        Task.pending id eventId ⟨e, none⟩ := by
      unfold Task.pending
      split
      · exact hcount
      · exact le_rfl
    omega
  | @send i sends e c rest before after _ htasks =>
    rw [htasks, pending_split, pending_split, pending_cons, delivered_sentNext]
    split <;> omega
  | finished htasks =>
    rw [htasks, pending_split]
    omega
  | cancel _ htasks =>
    rw [htasks, pending_split]
    omega

/-- The connection is open, and the manager is subscribed and does not stop. -/
structure Staying (c : WebSocketConnection) (s : State) : Prop where
  mem : c ∈ s.connections
  connected : s.connected c.id = true
  subscribed : s.unsubscribe = true
  running : s.closing = none

/-- A step leaves the connection open, sends to it without fail, and cancels no call that it
    has a part in. -/
def Keeps (c : WebSocketConnection) (s : State) : Step → Prop
  | .stop => False
  | .hangUp id => id ≠ c.id
  | .disconnect id => id ≠ c.id
  | .send i sends => ∀ e c' rest, s.tasks[i]? = some ⟨e, some (c' :: rest)⟩ → c'.id = c.id →
      sends = true
  | .cancel i => ∀ t, s.tasks[i]? = some t → ∀ eventId, t.awaited c eventId = 0
  | _ => True

theorem Staying.next {s : State} (h : Staying c s) (hinv : Inv s) {step : Step}
    (hkeeps : Keeps c s step) : Staying c (next s step) := by
  cases step with
  | stop => exact hkeeps.elim
  | start => simpa only [EventFanout.next, h.subscribed, if_true] using h
  | closeNext closes => simpa only [EventFanout.next, h.running] using h
  | connect topics =>
    simp only [EventFanout.next, h.running, Option.isSome_none, Bool.false_eq_true, if_false]
    refine ⟨List.mem_append_left _ h.mem, ?_, h.subscribed, rfl⟩
    exact (Function.update_of_ne (hinv.numbered.given c h.mem).ne ..).trans h.connected
  | hangUp id =>
    exact ⟨h.mem, (Function.update_of_ne (Ne.symm hkeeps) ..).trans h.connected, h.subscribed,
      h.running⟩
  | disconnect id =>
    simp only [EventFanout.next, h.running, Option.isSome_none, Bool.false_eq_true, if_false]
    refine ⟨List.mem_filter.mpr ⟨h.mem, ?_⟩, h.connected, h.subscribed, rfl⟩
    exact decide_eq_true (Ne.symm hkeeps)
  | snapshot i =>
    simp only [EventFanout.next]
    split
    · split
      · exact h
      · exact ⟨h.mem, h.connected, h.subscribed, h.running⟩
    · exact h
  | send i sends =>
    simp only [EventFanout.next]
    split
    · exact ⟨h.mem, h.connected, h.subscribed, h.running⟩
    · exact ⟨h.mem, h.connected, h.subscribed, h.running⟩
    · exact h
  | _ => exact ⟨h.mem, h.connected, h.subscribed, h.running⟩

theorem Numbered.count_matching {connections : List WebSocketConnection} {nextId : Nat}
    (h : Numbered connections nextId) (hc : c ∈ connections) (name : String) :
    (connections.filter (·.matches name)).countP (fun c' => c'.id = c.id) =
      (c.matches name).toNat := by
  cases hmatches : c.matches name with
  | true =>
    refine Nat.le_antisymm ((h.filter _).count_le c.id) (List.countP_pos_iff.mpr ⟨c, ?_, ?_⟩)
    · exact List.mem_filter.mpr ⟨hc, hmatches⟩
    · exact decide_eq_true rfl
  | false =>
    refine List.countP_eq_zero.mpr fun c' hc' hid => ?_
    obtain ⟨hmem, hmatches'⟩ := List.mem_filter.mp hc'
    have hsame : c' = c := List.inj_on_of_nodup_map h.ids hmem hc (of_decide_eq_true hid)
    rw [hsame, hmatches] at hmatches'
    cases hmatches'

theorem awaited_next {s : State} (hinv : Inv s) (h : Staying c s) {step : Step}
    (hkeeps : Keeps c s step) (eventId : String) :
    delivered (next s step).sent c.id eventId + awaited (next s step).tasks c eventId =
      delivered s.sent c.id eventId + awaited s.tasks c eventId +
        publishesFor c eventId step := by
  have hchange := change_next s step
  generalize (next s step).tasks = tasks, (next s step).sent = sent at hchange ⊢
  cases hchange with
  | same hstep =>
    cases step with
    | publish e => exact absurd rfl (hstep e)
    | _ => rfl
  | publish e =>
    have hcall : Task.awaited c eventId ⟨e, none⟩ = publishesFor c eventId (.publish e) := rfl
    have hone : ((s.handlers e.name).filter (· = .onEvent)).length = 1 := by
      rw [hinv.calls, h.subscribed]
      rfl
    rw [awaited, sum_append_const, hcall, hone, Nat.one_mul, ← awaited, Nat.add_assoc]
  | @snapshot i e before after htasks =>
    have hcount : Task.awaited c eventId ⟨e, some (s.connections.filter (·.matches e.name))⟩ =
        Task.awaited c eventId ⟨e, none⟩ := by
      simp only [Task.awaited, hinv.numbered.count_matching h.mem]
    rw [htasks, awaited_split, awaited_split, hcount]
    rfl
  | @send i sends e c' rest before after hi htasks =>
    rw [htasks, awaited_split, awaited_split, awaited_cons, delivered_sentNext]
    by_cases hid : c'.id = c.id
    · rw [hid, h.connected, hkeeps e c' rest hi hid]
      simp only [publishesFor, Bool.and_self, if_true]
      omega
    · have hother : isTo c.id eventId c' e = 0 := by simp [isTo, hid]
      simp only [hother, ite_self, publishesFor]
      omega
  | finished htasks =>
    rw [htasks, awaited_split]
    simp [Task.awaited, publishesFor]
  | @cancel i t before after hi htasks =>
    rw [htasks, awaited_split, hkeeps t hi, Nat.zero_add]
    rfl

end Balance

/-! ### Runs -/

theorem pending_final {s : State} (h : Inv s) (id : Nat) (eventId : String) (run : List Step) :
    delivered (Runs.final next s run).sent id eventId +
        pending (Runs.final next s run).tasks id eventId ≤
      delivered s.sent id eventId + pending s.tasks id eventId +
        (run.map (publishes eventId)).sum := by
  induction run generalizing s with
  | nil => exact le_rfl
  | cons step rest ih =>
    have hstep := pending_next h id eventId step
    have hrest := ih (h.next step)
    rw [List.map_cons, List.sum_cons]
    exact hrest.trans (by omega)

theorem awaited_final {s : State} {c : WebSocketConnection} (hinv : Inv s) (h : Staying c s)
    {run : List Step} (hrun : Runs.Throughout next (Keeps c) s run) (eventId : String) :
    delivered (Runs.final next s run).sent c.id eventId +
        awaited (Runs.final next s run).tasks c eventId =
      delivered s.sent c.id eventId + awaited s.tasks c eventId +
        (run.map (publishesFor c eventId)).sum := by
  induction run generalizing s with
  | nil => rfl
  | cons step rest ih =>
    have hstep := awaited_next hinv h hrun.1 eventId
    have hrest := ih (hinv.next step) (h.next hinv hrun.1) hrun.2
    rw [List.map_cons, List.sum_cons]
    exact hrest.trans (by omega)

theorem sent_grows (s : State) (step : Step) : s.sent <+: (next s step).sent := by
  have hchange := change_next s step
  generalize (next s step).tasks = tasks, (next s step).sent = sent at hchange ⊢
  cases hchange with
  | send =>
    unfold sentNext
    split
    · exact List.prefix_append ..
    · exact List.prefix_rfl
  | _ => exact List.prefix_rfl

theorem sent_final (s : State) (run : List Step) : s.sent <+: (Runs.final next s run).sent := by
  induction run generalizing s with
  | nil => exact List.prefix_rfl
  | cons step rest ih => exact (sent_grows s step).trans (ih _)

theorem delivered_eq_zero {sent : Sent} {eventId : String} :
    (∀ id, delivered sent id eventId = 0) ↔ ∀ d ∈ sent, d.2.eventId ≠ eventId := by
  simp only [delivered, List.countP_eq_zero, decide_eq_true_eq, not_and]
  exact ⟨fun h d hd => h d.1.id d hd rfl, fun h _ d hd _ => h d hd⟩

theorem pending_eq_zero {tasks : List Task} {eventId : String}
    (h : ∀ t ∈ tasks, t.event.eventId ≠ eventId) (id : Nat) : pending tasks id eventId = 0 := by
  refine List.sum_eq_zero fun n hn => ?_
  obtain ⟨t, ht, rfl⟩ := List.mem_map.mp hn
  exact if_neg (h t ht)

theorem Inv.delivered_nextId {s : State} (h : Inv s) (eventId : String) :
    delivered s.sent s.nextId eventId = 0 := by
  refine List.countP_eq_zero.mpr fun d hd hboth => ?_
  exact absurd (of_decide_eq_true hboth).1 (h.askedFor d hd).1.ne

/-- However events are published and sent and clients come and go: a client gets an event at most
    as often as that is published, and only if its topics match.  One that stays from when it
    connects, and to which no send fails, has got or will get each event that it asks for as
    often as that is published, and those besides that a call had not taken down connections
    for.  And if an event is through before another is published, it is sent before that. -/
theorem events_reach_clients (run : List Step) :
    let s := Runs.final next idle run
    (∀ id eventId, delivered s.sent id eventId ≤ (run.map (publishes eventId)).sum) ∧
    (∀ d ∈ s.sent, d.1.matches d.2.name = true) ∧
    (s.unsubscribe = true → s.closing = none → ∀ topics later,
      let c : WebSocketConnection := ⟨s.nextId, topics⟩
      Runs.Throughout next (Keeps c) (next s (.connect topics)) later →
        let s' := Runs.final next (next s (.connect topics)) later
        ∀ eventId, delivered s'.sent c.id eventId + awaited s'.tasks c eventId =
          awaited s.tasks c eventId + (later.map (publishesFor c eventId)).sum) ∧
    ∀ first second later, (∀ t ∈ s.tasks, t.event.eventId ≠ first) →
      (later.map (publishes first)).sum = 0 → (run.map (publishes second)).sum = 0 →
        ∃ sent, (Runs.final next s later).sent = s.sent ++ sent ∧
          (∀ d ∈ s.sent, d.2.eventId ≠ second) ∧ ∀ d ∈ sent, d.2.eventId ≠ first := by
  intro s
  have hinv : Inv s := inv_final run
  have hcount : ∀ id eventId, delivered s.sent id eventId ≤ (run.map (publishes eventId)).sum := by
    intro id eventId
    have hfinal := pending_final inv_idle id eventId run
    have hstart : delivered idle.sent id eventId + pending idle.tasks id eventId = 0 := rfl
    exact (Nat.le_add_right ..).trans (hfinal.trans (by omega))
  refine ⟨hcount, fun d hd => (hinv.askedFor d hd).2, ?_, ?_⟩
  · intro hsubscribed hrunning topics later c hlater s' eventId
    have hnew : (next s (.connect topics)).sent = s.sent ∧
        (next s (.connect topics)).tasks = s.tasks := by
      simp [next, hrunning]
    have hstaying : Staying c (next s (.connect topics)) := by
      simp only [next, hrunning, Option.isSome_none, Bool.false_eq_true, if_false]
      exact ⟨List.mem_append_right _ (List.mem_singleton_self _), Function.update_self ..,
        hsubscribed, rfl⟩
    have hbalance := awaited_final (hinv.next _) hstaying hlater eventId
    rw [hnew.1, hnew.2, hinv.delivered_nextId, Nat.zero_add] at hbalance
    exact hbalance
  · intro first second later hthrough hlater hrun
    obtain ⟨sent, hsent⟩ := sent_final s later
    refine ⟨sent, hsent.symm, ?_, ?_⟩
    · exact delivered_eq_zero.mp fun id => Nat.le_zero.mp (hrun ▸ hcount id second)
    · refine delivered_eq_zero.mp fun id => ?_
      have hfinal := pending_final hinv id first later
      rw [pending_eq_zero hthrough, hlater, ← hsent, delivered, List.countP_append] at hfinal
      simp only [delivered] at hfinal ⊢
      omega

end EventFanout
