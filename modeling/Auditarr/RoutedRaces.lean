/-
  Auditarr/RoutedRaces.lean
  =========================
  **Routed items between the workers, the requests and the passes of the poller**
  (`routed_transcode_poll_tick` in `app/worker.py`, `app/optimization/poller.py`).

  A pass selects the routed rows once and goes through them one after the other; what it writes
  to a row it writes without asking what has become of it.  Nobody else takes an item out of
  `routed`: `_claim_next` wants it queued, `cancel_item` queued or running and `retry_item`
  ended.  So, as long as passes do not overlap, each time an item is routed it is settled at
  most once, and each settlement is announced once unless the pass dies in between.
-/
import Auditarr.QueueRaces
import Auditarr.RoutedPoller

namespace RoutedRaces

open KeyedTable Database OptimizationQueue Runs RoutedPoller
open QueueRaces (Key statusOf writeBack)

/-- How far a pass has come. -/
inductive Poller where
  /-- The rows that are left of those it selected. -/
  | polling (rest : List RoutedItem)
  /-- A row is committed, and its event not yet emitted. -/
  | announcing (key : Key) (event : RoutedEvent) (rest : List RoutedItem)
  | ended

/-- The rows a pass still has to poll. -/
def Poller.rest : Poller → List RoutedItem
  | .polling rest | .announcing _ _ rest => rest
  | .ended => []

def Poller.underway : Poller → Bool
  | .ended => false
  | _ => true

def Poller.owes (key : Key) : Poller → Bool
  | .announcing k _ _ => decide (k = key)
  | _ => false

section Owes

variable (key k : Key) (event : RoutedEvent) (rest : List RoutedItem)

@[simp] theorem Poller.owes_polling : (Poller.polling rest).owes key = false := rfl

@[simp] theorem Poller.owes_announcing :
    (Poller.announcing k event rest).owes key = decide (k = key) := rfl

@[simp] theorem Poller.owes_ended : Poller.ended.owes key = false := rfl

end Owes

/-- A row as the poller loads it. -/
def loaded (row : OptimizationItem) : RoutedItem := ⟨row, none, none, none, none⟩

/-- `select(OptimizationItem).where(status == "routed")`. -/
def routedRows (t : Tables) : List RoutedItem :=
  (t.items.rows.filter fun row => decide (row.status = .routed)).map loaded

/-- The tick hands the event bus to the pass. -/
def tickEnv (env : PollEnv) : PollEnv := { env with eventBus := true }

/-- One step of a pass: where it is then, the tables, and what it emits. -/
def advance (env : PollEnv) (t : Tables) : Poller → Poller × Tables × Option (Key × RoutedEvent)
  | .polling [] | .ended => (.ended, t, none)
  | .polling (item :: rest) => match t.items.find? (keyOf item.toOptimizationItem) with
    -- the row is gone, and the flush raises
    | none => (.polling rest, t, none)
    | some row =>
        let polled := pollItem (tickEnv env) item
        let t' := t.putItem
          (writeBack item.toOptimizationItem polled.item.toOptimizationItem row)
        match polled.event with
        | none => (.polling rest, t', none)
        | some event => (.announcing (keyOf item.toOptimizationItem) event rest, t', none)
  | .announcing key event rest => (.polling rest, t, some (key, event))

structure System where
  queue : QueueRaces.System
  pollers : List Poller
  /-- What was emitted about which item. -/
  events : List (Key × RoutedEvent)

/-- A step at the queue, the start of a pass, its next step, or its death. -/
inductive Step where
  | queue (step : QueueRaces.Step)
  | start
  | turn (p : Nat) (env : PollEnv)
  | die (p : Nat)

def next (s : System) : Step → System
  | .queue step => { s with queue := QueueRaces.next s.queue step }
  | .start => { s with pollers := s.pollers ++ [.polling (routedRows s.queue.tables)] }
  | .turn p env => match s.pollers[p]? with
    | none => s
    | some poller =>
        let moved := advance env s.queue.tables poller
        ⟨{ s.queue with tables := moved.2.1 }, s.pollers.set p moved.1,
          s.events ++ moved.2.2.toList⟩
  | .die p => { s with pollers := s.pollers.set p .ended }

def atRest (t : Tables) : System := ⟨QueueRaces.atRest t, [], []⟩

/-- The writes of the workers and requests that do not ask find what they expect, and a pass
    starts when none is under way. -/
def Expected (s : System) : Step → Prop
  | .queue step => QueueRaces.Expected s.queue step
  | .start => ∀ poller ∈ s.pollers, poller.underway = false
  | _ => True

/-! ### What is counted -/

section Counts

variable (key : Key)

/-- Whether an item is routed. -/
def held (t : Tables) : Nat := if statusOf t key = some .routed then 1 else 0

/-- A worker routes the item. -/
def routes (s : System) : Step → Nat
  | .queue step =>
      if statusOf s.queue.tables key ≠ some .routed ∧
        statusOf (QueueRaces.next s.queue step).tables key = some .routed then 1 else 0
  | _ => 0

/-- The pass dies before it announces what it has committed about the item. -/
def loses (s : System) : Step → Nat
  | .die p => if (s.pollers[p]?.any (Poller.owes key)) then 1 else 0
  | _ => 0

def announced (s : System) : Nat := s.events.countP fun e => decide (e.1 = key)

def owed (s : System) : Nat := s.pollers.countP (Poller.owes key)

/-- What became of the times the item was routed. -/
def accounted (s : System) : Nat := announced key s + owed key s + held key s.queue.tables

end Counts

/-! ### One poll -/

section Polls

variable (env : PollEnv) (item : RoutedItem)

theorem pollOne_tick {polled : Polled} (h : pollOne (tickEnv env) item = .ok polled) :
    keyOf polled.item.toOptimizationItem = keyOf item.toOptimizationItem ∧
      (polled.event = none ∧ polled.item.status = item.status ∨
        polled.event ≠ none ∧ polled.item.status ≠ .routed) := by
  have hstatus : ∀ status, keyOf (applyStatus (tickEnv env) item status).item.toOptimizationItem =
      keyOf item.toOptimizationItem ∧
      ((applyStatus (tickEnv env) item status).event = none ∧
          (applyStatus (tickEnv env) item status).item.status = item.status ∨
        (applyStatus (tickEnv env) item status).event ≠ none ∧
          (applyStatus (tickEnv env) item status).item.status ≠ .routed) := by
    intro status
    unfold applyStatus
    split
    · exact ⟨rfl, .inr ⟨by simp [markCompleted, event, tickEnv], by simp [markCompleted]⟩⟩
    · exact ⟨rfl, .inr ⟨by simp [markFailed, event, tickEnv], by simp [markFailed]⟩⟩
    · split <;> exact ⟨rfl, .inl ⟨rfl, rfl⟩⟩
    · split <;> exact ⟨rfl, .inl ⟨rfl, rfl⟩⟩
    · exact ⟨rfl, .inl ⟨rfl, rfl⟩⟩
  unfold pollOne at h
  split at h
  · split at h
    · cases h
      exact ⟨rfl, .inr ⟨by simp [markFailed, event, tickEnv], by simp [markFailed]⟩⟩
    · split at h
      · cases h
        exact ⟨rfl, .inl ⟨rfl, rfl⟩⟩
      · obtain ⟨_, -, h⟩ := PyValues.bind_eq_ok.mp h
        obtain ⟨status, -, h⟩ := PyValues.bind_eq_ok.mp h
        cases h
        exact hstatus status
  · cases h
    exact ⟨rfl, .inl ⟨rfl, rfl⟩⟩

theorem pollItem_tick :
    keyOf (pollItem (tickEnv env) item).item.toOptimizationItem = keyOf item.toOptimizationItem ∧
      ((pollItem (tickEnv env) item).event = none ∧
          (pollItem (tickEnv env) item).item.status = item.status ∨
        (pollItem (tickEnv env) item).event ≠ none ∧
          (pollItem (tickEnv env) item).item.status ≠ .routed) := by
  unfold pollItem
  cases hpoll : pollOne (tickEnv env) item with
  | ok polled => exact pollOne_tick env item hpoll
  | error e => exact ⟨rfl, .inl ⟨rfl, rfl⟩⟩

end Polls

/-! ### One step -/

theorem countP_set_balance {α : Type} {f : α → Bool} {l : List α} {i : Nat} {a b : α}
    (h : l[i]? = some a) :
    (l.set i b).countP f + (if f a then 1 else 0) = l.countP f + (if f b then 1 else 0) := by
  obtain ⟨hi, rfl⟩ := List.getElem?_eq_some_iff.mp h
  have hcounted : (if f l[i] then 1 else 0) ≤ l.countP f := by
    split
    · exact List.countP_pos_iff.mpr ⟨_, List.getElem_mem hi, ‹_›⟩
    · exact Nat.zero_le _
  rw [List.countP_set hi]
  omega

theorem routed_kept {q : QueueRaces.System} {step : QueueRaces.Step} {key : Key}
    (hexpected : QueueRaces.Expected q step) (hrouted : statusOf q.tables key = some .routed) :
    statusOf (QueueRaces.next q step).tables key = some .routed := by
  have hother : ∀ {k : Key} {status : ItemStatus}, statusOf q.tables k = some status →
      status ≠ .routed → key ≠ k := by
    rintro k status hstatus hne rfl
    rw [hrouted] at hstatus
    exact hne (Option.some.inj hstatus).symm
  cases step with
  | call p request =>
    simp only [QueueRaces.next]
    split <;> exact hrouted
  | die p => exact hrouted
  | turn p m =>
    cases QueueRaces.effect_of_expected hexpected with
    | quiet htables hexecutes => exact (congrArg (statusOf · key) htables).trans hrouted
    | takes k hqueued hexecutes hrunning hothers =>
      exact (hothers key (hother hqueued (by decide))).trans hrouted
    | ends k hexecuted hrunning hexecutes hothers =>
      exact (hothers key (hother hrunning (by decide))).trans hrouted
    | cancels k status hstatus hcancellable hexecutes hafter hothers =>
      refine (hothers key (hother hstatus ?_)).trans hrouted
      rintro rfl
      cases hcancellable
    | retries k hasked status hstatus hretriable hexecutes hothers =>
      refine (hothers key (hother hstatus ?_)).trans hrouted
      rintro rfl
      cases hretriable

/-- One pass at most is under way, and the rows it has left are routed and different. -/
structure OnePass (s : System) : Prop where
  alone : ∀ (i j : Nat) (p q : Poller), s.pollers[i]? = some p → s.pollers[j]? = some q →
    p.underway = true → q.underway = true → i = j
  routed : ∀ (i : Nat) (p : Poller), s.pollers[i]? = some p → ∀ item ∈ p.rest,
    item.status = .routed ∧ statusOf s.queue.tables (keyOf item.toOptimizationItem) = some .routed
  distinct : ∀ (i : Nat) (p : Poller), s.pollers[i]? = some p →
    (p.rest.map fun item => keyOf item.toOptimizationItem).Nodup

theorem onePass_atRest (t : Tables) : OnePass (atRest t) := by
  constructor <;> simp [atRest]

/-- The steps of a pass: the row that comes first, or the event of the last one. -/
inductive Moved (env : PollEnv) (t : Tables) (poller : Poller) :
    Poller × Tables × Option (Key × RoutedEvent) → Prop where
  | ends (rest : poller.rest = []) (owes : ∀ key, poller.owes key = false) :
      Moved env t poller (.ended, t, none)
  | stays (item : RoutedItem) (rest : List RoutedItem) (polling : poller = .polling (item :: rest))
      (t' : Tables) (statuses : ∀ key, statusOf t' key = statusOf t key) :
      Moved env t poller (.polling rest, t', none)
  | settles (item : RoutedItem) (rest : List RoutedItem)
      (polling : poller = .polling (item :: rest)) (event : RoutedEvent) (t' : Tables)
      (settled : item.status = .routed →
        statusOf t' (keyOf item.toOptimizationItem) ≠ some .routed)
      (others : ∀ key ≠ keyOf item.toOptimizationItem, statusOf t' key = statusOf t key) :
      Moved env t poller (.announcing (keyOf item.toOptimizationItem) event rest, t', none)
  | announces (key : Key) (event : RoutedEvent) (rest : List RoutedItem)
      (announcing : poller = .announcing key event rest) :
      Moved env t poller (.polling rest, t, some (key, event))

theorem advance_moved (env : PollEnv) (t : Tables) (poller : Poller) :
    Moved env t poller (advance env t poller) := by
  cases poller with
  | ended => exact .ends rfl fun _ => rfl
  | announcing key event rest => exact .announces key event rest rfl
  | polling rest =>
    cases rest with
    | nil => exact .ends rfl fun _ => rfl
    | cons item rest =>
      cases hfind : t.items.find? (keyOf item.toOptimizationItem) with
      | none => simpa only [advance, hfind] using Moved.stays item rest rfl t fun _ => rfl
      | some row =>
        obtain ⟨hkey, hpolled⟩ := pollItem_tick env item
        have hput := QueueRaces.statusOf_put ((QueueRaces.keyOf_writeBack hkey row).trans
          (QueueRaces.keyOf_found hfind)) t
        simp only [advance, hfind]
        rcases hpolled with ⟨hnone, hsame⟩ | ⟨hsome, hsettled⟩
        · rw [hnone]
          refine .stays item rest rfl _ fun key => ?_
          by_cases hk : key = keyOf item.toOptimizationItem
          · subst hk
            rw [hput.1, QueueRaces.statusOf_found hfind]
            simp [writeBack, hsame]
          · exact hput.2 key hk
        · obtain ⟨event, hevent⟩ := Option.ne_none_iff_exists'.mp hsome
          rw [hevent]
          refine .settles item rest rfl event _ (fun hitem => ?_) hput.2
          rw [hput.1]
          simp only [writeBack, hitem, hsettled, if_false]
          exact fun h => hsettled (Option.some.inj h)

theorem mem_routedRows {t : Tables} {item : RoutedItem} (h : item ∈ routedRows t) :
    item.status = .routed ∧ statusOf t (keyOf item.toOptimizationItem) = some .routed := by
  obtain ⟨row, hrow, rfl⟩ := List.mem_map.mp h
  obtain ⟨hmem, hrouted⟩ := List.mem_filter.mp hrow
  have hstatus : row.status = .routed := of_decide_eq_true hrouted
  refine ⟨hstatus, ?_⟩
  rw [← hstatus]
  exact QueueRaces.statusOf_found (Table.find?_eq_some.mpr ⟨hmem, rfl⟩)

theorem routedRows_distinct (t : Tables) :
    ((routedRows t).map fun item => keyOf item.toOptimizationItem).Nodup := by
  rw [routedRows, List.map_map]
  exact t.items.unique.sublist (List.filter_sublist.map keyOf)

section Steps

theorem set_of_none {pollers : List Poller} {i : Nat} {poller : Poller}
    (h : pollers[i]? = none) : pollers.set i poller = pollers :=
  List.set_eq_of_length_le (List.getElem?_eq_none_iff.mp h)

variable {s : System}

theorem OnePass.moves (hs : OnePass s) {i : Nat} {poller : Poller} (poller' : Poller)
    (t' : Tables) (hpoller : s.pollers[i]? = some poller)
    (hunderway : poller'.underway = true → poller.underway = true)
    (hrest : poller'.rest.Sublist poller.rest)
    (hkept : ∀ item ∈ poller'.rest, statusOf t' (keyOf item.toOptimizationItem) =
      statusOf s.queue.tables (keyOf item.toOptimizationItem))
    (hquiet : poller.underway = false → t' = s.queue.tables) (events : List (Key × RoutedEvent)) :
    OnePass ⟨{ s.queue with tables := t' }, s.pollers.set i poller', events⟩ := by
  have hcases : ∀ (j : Nat) (p : Poller), (s.pollers.set i poller')[j]? = some p →
      j = i ∧ p = poller' ∨ j ≠ i ∧ s.pollers[j]? = some p := by
    intro j p hp
    rw [List.getElem?_set] at hp
    split at hp
    · rename_i hji
      split at hp
      · exact .inl ⟨hji.symm, (Option.some.inj hp).symm⟩
      · cases hp
    · rename_i hji
      exact .inr ⟨Ne.symm hji, hp⟩
  constructor
  · intro j k p q hp hq hpu hqu
    rcases hcases j p hp with ⟨rfl, rfl⟩ | ⟨-, hold⟩
    · rcases hcases k q hq with ⟨rfl, -⟩ | ⟨-, hold'⟩
      · rfl
      · exact hs.alone j k poller q hpoller hold' (hunderway hpu) hqu
    · rcases hcases k q hq with ⟨rfl, rfl⟩ | ⟨-, hold'⟩
      · exact hs.alone j k p poller hold hpoller hpu (hunderway hqu)
      · exact hs.alone j k p q hold hold' hpu hqu
  · intro j p hp item hitem
    rcases hcases j p hp with ⟨rfl, rfl⟩ | ⟨hne, hold⟩
    · obtain ⟨hstatus, hrouted⟩ := hs.routed j poller hpoller item (hrest.subset hitem)
      exact ⟨hstatus, (hkept item hitem).trans hrouted⟩
    · -- if this pass is under way, no other one has rows left
      cases hpu : poller.underway with
      | false =>
        rw [hquiet hpu]
        exact hs.routed j p hold item hitem
      | true =>
        cases hothers : p.underway with
        | true => exact absurd (hs.alone j i p poller hold hpoller hothers hpu) hne
        | false =>
          cases p with
          | ended => cases hitem
          | polling rest => cases hothers
          | announcing key event rest => cases hothers
  · intro j p hp
    rcases hcases j p hp with ⟨rfl, rfl⟩ | ⟨-, hold⟩
    · exact (hs.distinct j poller hpoller).sublist (hrest.map _)
    · exact hs.distinct j p hold

theorem OnePass.ends (hs : OnePass s) {i : Nat} {poller : Poller}
    (hpoller : s.pollers[i]? = some poller) (events : List (Key × RoutedEvent)) :
    OnePass ⟨s.queue, s.pollers.set i .ended, events⟩ := by
  apply hs.moves .ended s.queue.tables hpoller
  · exact fun h => absurd h Bool.false_ne_true
  · exact List.nil_sublist _
  · exact fun item hitem => absurd hitem List.not_mem_nil
  · exact fun _ => rfl

theorem onePass_start (hs : OnePass s) (hended : ∀ poller ∈ s.pollers, poller.underway = false) :
    OnePass (next s .start) := by
  have hcases : ∀ (i : Nat) (p : Poller), (next s .start).pollers[i]? = some p →
      s.pollers[i]? = some p ∨ i = s.pollers.length ∧ p = .polling (routedRows s.queue.tables) := by
    intro i p hp
    simp only [next, List.getElem?_append] at hp
    split at hp
    · exact .inl hp
    · rename_i hlen
      obtain ⟨hlast, hsome⟩ := List.getElem?_eq_some_iff.mp hp
      simp only [List.length_singleton, Nat.lt_one_iff] at hlast
      simp only [List.getElem_singleton] at hsome
      exact .inr ⟨by omega, hsome.symm⟩
  constructor
  · intro i j p q hp hq hpu hqu
    rcases hcases i p hp with hold | ⟨rfl, -⟩
    · exact absurd hpu (by simp [hended p (List.mem_of_getElem? hold)])
    · rcases hcases j q hq with hold | ⟨rfl, -⟩
      · exact absurd hqu (by simp [hended q (List.mem_of_getElem? hold)])
      · rfl
  · intro i p hp item hitem
    rcases hcases i p hp with hold | ⟨-, rfl⟩
    · exact hs.routed i p hold item hitem
    · exact mem_routedRows hitem
  · intro i p hp
    rcases hcases i p hp with hold | ⟨-, rfl⟩
    · exact hs.distinct i p hold
    · exact routedRows_distinct s.queue.tables

theorem onePass_next (step : Step) (hs : OnePass s) (hexpected : Expected s step) :
    OnePass (next s step) := by
  cases step with
  | queue step =>
    refine ⟨hs.alone, ?_, hs.distinct⟩
    intro i p hp item hitem
    obtain ⟨hstatus, hrouted⟩ := hs.routed i p hp item hitem
    exact ⟨hstatus, routed_kept hexpected hrouted⟩
  | start => exact onePass_start hs hexpected
  | die i =>
    cases hpoller : s.pollers[i]? with
    | none =>
      simpa only [next, set_of_none hpoller] using hs
    | some poller =>
      exact hs.ends hpoller s.events
  | turn i env =>
    cases hpoller : s.pollers[i]? with
    | none => simpa only [next, hpoller] using hs
    | some poller =>
      simp only [next, hpoller]
      have hmoved := advance_moved env s.queue.tables poller
      generalize advance env s.queue.tables poller = moved at hmoved
      cases hmoved with
      | ends hrest howes => exact hs.ends hpoller _
      | announces key event rest hannouncing =>
        subst hannouncing
        exact hs.moves (.polling rest) _ hpoller (fun _ => rfl) (List.Sublist.refl _)
          (fun _ _ => rfl) (fun _ => rfl) _
      | stays item rest hpolling t' hstatuses =>
        subst hpolling
        exact hs.moves (.polling rest) t' hpoller (fun _ => rfl) (List.sublist_cons_self _ _)
          (fun item' _ => hstatuses _) nofun _
      | settles item rest hpolling event t' hsettled hothers =>
        subst hpolling
        refine hs.moves (.announcing _ event rest) t' hpoller (fun _ => rfl)
          (List.sublist_cons_self _ _) ?_ nofun _
        intro item' hitem'
        apply hothers
        have hdistinct := hs.distinct i _ hpoller
        simp only [Poller.rest, List.map_cons, List.nodup_cons] at hdistinct
        intro hsame
        exact hdistinct.1 (hsame ▸ List.mem_map_of_mem hitem')

theorem accounted_next (key : Key) (step : Step) (hs : OnePass s) (hexpected : Expected s step) :
    accounted key (next s step) + loses key s step = accounted key s + routes key s step := by
  cases step with
  | queue step =>
    have hheld : held key (QueueRaces.next s.queue step).tables =
        held key s.queue.tables + routes key s (.queue step) := by
      by_cases hrouted : statusOf s.queue.tables key = some .routed
      · simp [held, routes, hrouted, routed_kept hexpected hrouted]
      · simp [held, routes, hrouted]
    simp only [accounted, next, loses, hheld]
    simp only [announced, owed]
    omega
  | start => simp [accounted, next, loses, routes, announced, owed]
  | die i =>
    cases hpoller : s.pollers[i]? with
    | none =>
      simp [accounted, next, loses, routes, announced, owed, set_of_none hpoller, hpoller]
    | some poller =>
      have hbalance := countP_set_balance (f := Poller.owes key) (b := .ended) hpoller
      simp only [accounted, next, loses, routes, announced, owed, hpoller, Option.any_some]
      simp only [Poller.owes_ended, Bool.false_eq_true, if_false] at hbalance
      omega
  | turn i env =>
    cases hpoller : s.pollers[i]? with
    | none => simp [next, hpoller, loses, routes]
    | some poller =>
      have hmoved := advance_moved env s.queue.tables poller
      have hbalance := countP_set_balance (f := Poller.owes key)
        (b := (advance env s.queue.tables poller).1) hpoller
      simp only [accounted, next, hpoller, loses, routes, announced, owed]
      generalize advance env s.queue.tables poller = moved at hmoved hbalance
      cases hmoved with
      | ends hrest howes =>
        simp [howes] at hbalance
        simp [hbalance]
      | announces k event rest hannouncing =>
        subst hannouncing
        simp at hbalance
        simp [List.countP_append, List.countP_singleton]
        omega
      | stays item rest hpolling t' hstatuses =>
        subst hpolling
        simp at hbalance
        simp [hbalance, held, hstatuses]
      | settles item rest hpolling event t' hsettled hothers =>
        subst hpolling
        obtain ⟨hitem, hrouted⟩ := hs.routed i _ hpoller item (List.mem_cons_self ..)
        simp at hbalance
        by_cases hk : keyOf item.toOptimizationItem = key
        · subst hk
          simp at hbalance
          simp [held, hsettled hitem, hrouted, hbalance]
          omega
        · simp [hk] at hbalance
          simp [held, hothers key (Ne.symm hk), hbalance]

end Steps

/-! ### Runs -/

/-- A pass polls a row that is not routed any more. -/
def PollsStale (s : System) : Step → Prop
  | .turn p _ => ∃ item rest, s.pollers[p]? = some (.polling (item :: rest)) ∧
      statusOf s.queue.tables (keyOf item.toOptimizationItem) ≠ some .routed
  | _ => False

theorem not_pollsStale {s : System} (step : Step) (hs : OnePass s) : ¬ PollsStale s step := by
  cases step with
  | turn p env =>
    rintro ⟨item, rest, hpoller, hstale⟩
    exact hstale (hs.routed p _ hpoller item (List.mem_cons_self ..)).2
  | queue step => exact not_false
  | start => exact not_false
  | die p => exact not_false

/-- In every run of workers, requests and passes that do not overlap, no pass polls an item that
    is not routed any more; and the times an item was routed are the announcements of its end,
    those still to be made or lost with a pass that died, and the one that has not ended. -/
theorem routed_conserved (t : Tables) (run : List Step)
    (hexpected : Throughout next Expected (atRest t) run) (key : Key) :
    Throughout next (fun s step => ¬ PollsStale s step) (atRest t) run ∧
      held key t + total next (routes key) (atRest t) run =
        announced key (final next (atRest t) run) + owed key (final next (atRest t) run) +
          total next (loses key) (atRest t) run +
          held key (final next (atRest t) run).queue.tables := by
  constructor
  · refine hexpected.imp next (I := OnePass) ?_ (onePass_atRest t)
    intro s step hs hok
    exact ⟨not_pollsStale step hs, onePass_next step hs hok⟩
  · have hbalance := hexpected.balance next (m := accounted key)
      (fun s step hs hok => ⟨onePass_next step hs hok, accounted_next key step hs hok⟩)
      (onePass_atRest t)
    have hstart : accounted key (atRest t) = held key t := by
      simp [accounted, announced, owed, atRest, QueueRaces.atRest]
    rw [hstart] at hbalance
    rw [← hbalance, accounted]
    omega

/-- An item at an integration that is gone. -/
def strandedItem : OptimizationItem where
  id := "i1"
  mediaFileId := "f1"
  profile := "anytime"
  status := .routed
  queuedByRuleId := none
  queuedAt := 1
  startedAt := some 2
  finishedAt := none
  progressPct := 0
  originalSizeBytes := none
  optimizedSizeBytes := none
  backupPath := none
  itemMetadata := { ItemMetadata.empty with
    upstreamJobId := some "job-1", integrationId := some "gone" }
  error := none

def stranded : Tables :=
  { Tables.empty with items := ⟨[strandedItem], List.nodup_singleton _⟩ }

def noIntegrations : PollEnv where
  now := 9
  eventBus := false
  repr s := s
  integration _ := none
  providerFor _ := none
  buildConfig _ := .ok ()

/-- A pass finds the item, settles it and announces that. -/
theorem routed_conserved_stranded :
    held ("f1", "anytime") stranded + total next (routes ("f1", "anytime")) (atRest stranded)
        [.start, .turn 0 noIntegrations, .turn 0 noIntegrations] = 1 + 0 + 0 + 0 := by
  have hexpected : Throughout next Expected (atRest stranded)
      [.start, .turn 0 noIntegrations, .turn 0 noIntegrations] := by
    refine ⟨?_, trivial, trivial, trivial⟩
    intro poller hpoller
    cases hpoller
  rw [(routed_conserved stranded _ hexpected ("f1", "anytime")).2]
  decide +kernel

end RoutedRaces
