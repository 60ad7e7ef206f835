/-
  Auditarr/ListenerPool.lean
  ==========================
  **The listeners of the Plex servers, and the passes that bring them in line**
  (`app/worker_sse.py`: `spawn_plex_listeners`, `reconcile_plex_listeners`).

  A worker has a table of tasks, one for each integration that it listens to.  A pass reads which
  integrations are enabled, cancels the tasks of the others, forgets those that have ended, and
  starts what is missing; while it waits for a task to end, tasks end and integrations change.
  As long as passes do not overlap, no integration ever has two listeners, and a pass during
  which nothing else happens leaves one for each integration that is enabled.
-/
import Auditarr.Database
import Auditarr.KeyedTable
import Auditarr.Runs

namespace ListenerPool

open KeyedTable Database

/-- `tasks`: the number of the task of each integration. -/
abbrev Tasks := Table (Prod.fst : String × Nat → String)

/-- `enabled_plex_ids`. -/
def enabledPlexIds (rows : Table Integration.id) : List String :=
  (rows.rows.filter fun r => r.enabled && r.kind == "plex").map (·.id)

/-- A pass that is under way: what it read, the keys it has left, whether it waits for the task of
    the first of them, and two of its counters. -/
structure Pass where
  enabledIds : List String
  remaining : List String
  waiting : Bool
  cancelled : Nat
  cleaned : Nat

/-- What a pass returns. -/
structure Counters where
  spawned : Nat
  cancelled : Nat
  cleaned : Nat
  active : Nat

structure Worker where
  rows : Table Integration.id
  tasks : Tasks
  /-- The integration that a task listens to, until it ends. -/
  running : Nat → Option String
  nextTask : Nat
  pass : Option Pass
  returned : List Counters

/-- `asyncio.create_task`, and its entry in the table. -/
def Worker.spawn (w : Worker) (id : String) : Worker :=
  { w with
    tasks := w.tasks.upsert (id, w.nextTask)
    running := Function.update w.running w.nextTask (some id)
    nextTask := w.nextTask + 1 }

/-- The loop that starts what is missing. -/
def Worker.spawnMissing (w : Worker) : List String → Worker
  | [] => w
  | id :: rest =>
      if (w.tasks.find? id).isSome then w.spawnMissing rest else (w.spawn id).spawnMissing rest

/-- `tasks.pop(integration_id, None)`. -/
def Worker.pop (w : Worker) (id : String) : Worker :=
  { w with tasks := w.tasks.erase fun entry => entry.1 = id }

/-- The end of a pass. -/
def Worker.finish (w : Worker) (p : Pass) : Worker :=
  let w' := w.spawnMissing p.enabledIds
  { w' with
    pass := none
    returned := w'.returned ++
      [⟨w'.nextTask - w.nextTask, p.cancelled, p.cleaned, w'.tasks.rows.length⟩] }

/-- What a pass does next.  It waits while the task that it cancelled is running. -/
def Worker.turn (w : Worker) (p : Pass) : Worker :=
  match p.remaining with
  | [] => w.finish p
  | id :: rest => match w.tasks.find? id with
    | none => { w with pass := none }
    | some (_, task) =>
        if id ∈ p.enabledIds then
          if (w.running task).isSome then { w with pass := some { p with remaining := rest } }
          else { w.pop id with
            pass := some { p with remaining := rest, cleaned := p.cleaned + 1 } }
        else if !p.waiting then { w with pass := some { p with waiting := true } }
        else if (w.running task).isSome then w
        else { w.pop id with
          pass := some { p with
            remaining := rest, waiting := false, cancelled := p.cancelled + 1 } }

inductive Step where
  /-- The minute's tick begins a pass, if none is under way. -/
  | begin
  | turn
  /-- A listener ends: of itself, or as it was cancelled. -/
  | ends (task : Nat)
  /-- Integrations are added, changed and removed. -/
  | edit (rows : Table Integration.id)

def next (w : Worker) : Step → Worker
  | .begin => match w.pass with
    | none =>
        { w with pass := some ⟨enabledPlexIds w.rows, w.tasks.rows.map Prod.fst, false, 0, 0⟩ }
    | some _ => w
  | .turn => match w.pass with
    | none => w
    | some p => w.turn p
  | .ends task => { w with running := Function.update w.running task none }
  | .edit rows => { w with rows := rows }

/-- `spawn_plex_listeners`, when the worker starts. -/
def startup (rows : Table Integration.id) : Worker :=
  (enabledPlexIds rows).foldl Worker.spawn ⟨rows, Table.empty, fun _ => none, 0, none, []⟩

/-! ### What holds throughout -/

/-- Running tasks are in the table, and the numbers of tasks are used once. -/
structure Registered (tasks : Tasks) (running : Nat → Option String) (nextTask : Nat) : Prop where
  running : ∀ task id, running task = some id → (id, task) ∈ tasks
  fresh : ∀ entry ∈ tasks, entry.2 < nextTask
  distinct : ∀ entry ∈ tasks, ∀ entry' ∈ tasks, entry.2 = entry'.2 → entry = entry'

/-- A pass has its keys left, and those it is done with are of enabled integrations. -/
structure Sweeping (tasks : Tasks) (p : Pass) : Prop where
  left : ∀ id ∈ p.remaining, ∃ entry ∈ tasks, entry.1 = id
  once : p.remaining.Nodup
  swept : ∀ entry ∈ tasks, entry.1 ∉ p.remaining → entry.1 ∈ p.enabledIds
  awaited : p.waiting = true → ∀ id rest, p.remaining = id :: rest → id ∉ p.enabledIds

structure Inv (w : Worker) : Prop where
  registered : Registered w.tasks w.running w.nextTask
  sweeping : ∀ p, w.pass = some p → Sweeping w.tasks p

section Registered

variable {tasks : Tasks} {running : Nat → Option String} {nextTask : Nat}

theorem Registered.one_listener (h : Registered tasks running nextTask) {task task' : Nat}
    {id : String} (htask : running task = some id) (htask' : running task' = some id) :
    task = task' :=
  congrArg Prod.snd (Table.eq_of_key_eq (h.running task id htask) (h.running task' id htask') rfl)

theorem Registered.spawn (h : Registered tasks running nextTask) {id : String}
    (hnone : tasks.find? id = none) :
    Registered (tasks.upsert (id, nextTask)) (Function.update running nextTask (some id))
      (nextTask + 1) := by
  have hother : ∀ entry ∈ tasks, entry.1 ≠ id := Table.find?_eq_none.mp hnone
  have hmem : ∀ entry : String × Nat,
      entry ∈ tasks.upsert (id, nextTask) ↔ entry = (id, nextTask) ∨ entry ∈ tasks := by
    intro entry
    refine Table.mem_upsert.trans (or_congr_right ?_)
    exact and_iff_left_of_imp fun hentry => hother entry hentry
  constructor
  · intro task id' hrunning
    rw [hmem]
    by_cases htask : task = nextTask
    · subst htask
      rw [Function.update_self] at hrunning
      cases hrunning
      exact .inl rfl
    · rw [Function.update_of_ne htask] at hrunning
      exact .inr (h.running task id' hrunning)
  · intro entry hentry
    rcases (hmem entry).mp hentry with rfl | hold
    · exact Nat.lt_succ_self _
    · exact (h.fresh entry hold).trans (Nat.lt_succ_self _)
  · intro entry hentry entry' hentry' heq
    rcases (hmem entry).mp hentry with rfl | hold <;>
      rcases (hmem entry').mp hentry' with rfl | hold'
    · rfl
    · exact absurd heq (h.fresh entry' hold').ne'
    · exact absurd heq (h.fresh entry hold).ne
    · exact h.distinct entry hold entry' hold' heq

theorem mem_pop {id : String} {entry : String × Nat} :
    entry ∈ tasks.erase (fun entry => entry.1 = id) ↔ entry ∈ tasks ∧ entry.1 ≠ id :=
  Table.mem_erase.trans (and_congr_right' decide_eq_false_iff_not)

theorem Registered.pop (h : Registered tasks running nextTask) {id name : String} {task : Nat}
    (hfind : tasks.find? id = some (name, task)) (hended : running task = none) :
    Registered (tasks.erase fun entry => entry.1 = id) running nextTask := by
  obtain ⟨hmem, hid⟩ := Table.mem_of_find? hfind
  constructor
  · intro task' id' hrunning
    have hentry := h.running task' id' hrunning
    refine mem_pop.mpr ⟨hentry, fun heq => ?_⟩
    have hsame : (id', task') = (name, task) := Table.eq_of_key_eq hentry hmem (heq.trans hid.symm)
    cases hsame
    rw [hended] at hrunning
    cases hrunning
  · exact fun e he => h.fresh e (mem_pop.mp he).1
  · exact fun e he e' he' => h.distinct e (mem_pop.mp he).1 e' (mem_pop.mp he').1

theorem Registered.ends (h : Registered tasks running nextTask) (task : Nat) :
    Registered tasks (Function.update running task none) nextTask := by
  refine ⟨fun t id hrun => h.running t id ?_, h.fresh, h.distinct⟩
  by_cases heq : t = task
  · subst heq
    rw [Function.update_self] at hrun
    cases hrun
  · rwa [Function.update_of_ne heq] at hrun

theorem Sweeping.pop {p p' : Pass} (h : Sweeping tasks p) {id : String}
    (hremaining : p.remaining = id :: p'.remaining) (hids : p'.enabledIds = p.enabledIds)
    (hwaiting : p'.waiting = false) : Sweeping (tasks.erase fun entry => entry.1 = id) p' := by
  have honce := h.once
  rw [hremaining, List.nodup_cons] at honce
  refine ⟨fun id' hid' => ?_, honce.2, fun entry hentry hdone => ?_, by simp [hwaiting]⟩
  · obtain ⟨entry, hentry, rfl⟩ := h.left id' (hremaining ▸ List.mem_cons_of_mem _ hid')
    refine ⟨entry, mem_pop.mpr ⟨hentry, ?_⟩, rfl⟩
    rintro rfl
    exact honce.1 hid'
  · obtain ⟨hold, hne⟩ := mem_pop.mp hentry
    rw [hids]
    apply h.swept entry hold
    rw [hremaining, List.mem_cons]
    exact fun hor => hor.elim hne hdone

theorem Sweeping.keep {p p' : Pass} (h : Sweeping tasks p) {id : String}
    (hremaining : p.remaining = id :: p'.remaining) (hids : p'.enabledIds = p.enabledIds)
    (hwaiting : p'.waiting = false) (henabled : id ∈ p.enabledIds) : Sweeping tasks p' := by
  have honce := h.once
  rw [hremaining, List.nodup_cons] at honce
  refine ⟨fun id' hid' => h.left id' (hremaining ▸ List.mem_cons_of_mem _ hid'), honce.2, ?_,
    by simp [hwaiting]⟩
  intro entry hentry hdone
  rw [hids]
  by_cases heq : entry.1 = id
  · exact heq ▸ henabled
  · apply h.swept entry hentry
    rw [hremaining, List.mem_cons]
    exact fun hor => hor.elim heq hdone

theorem Sweeping.begin (tasks : Tasks) (ids : List String) :
    Sweeping tasks ⟨ids, tasks.rows.map Prod.fst, false, 0, 0⟩ :=
  ⟨fun _ hid => List.mem_map.mp hid, tasks.unique,
    fun _ hentry hnot => absurd (List.mem_map_of_mem hentry) hnot, nofun⟩

theorem Sweeping.not_waiting {p : Pass} (h : Sweeping tasks p) {id : String} {rest : List String}
    (hremaining : p.remaining = id :: rest) (henabled : id ∈ p.enabledIds) :
    p.waiting = false := by
  cases hwaiting : p.waiting with
  | false => rfl
  | true => exact absurd henabled (h.awaited hwaiting id rest hremaining)

end Registered

/-! ### The loop that starts tasks -/

theorem spawnMissing_preserves {I : Worker → Prop}
    (hstep : ∀ w id, I w → w.tasks.find? id = none → I (w.spawn id)) (ids : List String)
    {w : Worker} (h : I w) : I (w.spawnMissing ids) := by
  induction ids generalizing w with
  | nil => exact h
  | cons id rest ih =>
    rw [Worker.spawnMissing]
    split
    · exact ih h
    · rename_i hnone
      exact ih (hstep w id h (Option.not_isSome_iff_eq_none.mp hnone))

theorem registered_spawnMissing {w : Worker} (h : Registered w.tasks w.running w.nextTask)
    (ids : List String) : Registered (w.spawnMissing ids).tasks (w.spawnMissing ids).running
      (w.spawnMissing ids).nextTask :=
  spawnMissing_preserves (I := fun w => Registered w.tasks w.running w.nextTask)
    (fun _ _ hw hnone => hw.spawn hnone) ids h

theorem rows_spawnMissing (w : Worker) (ids : List String) :
    (w.spawnMissing ids).rows = w.rows :=
  spawnMissing_preserves (I := fun w' => w'.rows = w.rows) (fun _ _ hw _ => hw) ids rfl

theorem keys_spawnMissing (ids : List String) (w : Worker) (id : String) :
    (∃ entry ∈ (w.spawnMissing ids).tasks, entry.1 = id) ↔
      (∃ entry ∈ w.tasks, entry.1 = id) ∨ id ∈ ids := by
  induction ids generalizing w with
  | nil => simp [Worker.spawnMissing]
  | cons first rest ih =>
    rw [Worker.spawnMissing, List.mem_cons]
    split
    · rename_i hsome
      obtain ⟨entry, hfind⟩ := Option.isSome_iff_exists.mp hsome
      rw [ih]
      constructor
      · exact fun h => h.imp_right .inr
      · rintro (hold | rfl | hrest)
        · exact .inl hold
        · exact .inl ⟨entry, Table.mem_of_find? hfind⟩
        · exact .inr hrest
    · have hspawn : (∃ entry ∈ (w.spawn first).tasks, entry.1 = id) ↔
          id = first ∨ ∃ entry ∈ w.tasks, entry.1 = id := by
        simp only [Worker.spawn, Table.mem_upsert]
        constructor
        · rintro ⟨entry, rfl | ⟨hold, -⟩, rfl⟩
          · exact .inl rfl
          · exact .inr ⟨entry, hold, rfl⟩
        · rintro (rfl | ⟨entry, hold, rfl⟩)
          · exact ⟨_, .inl rfl, rfl⟩
          · by_cases hsame : entry.1 = first
            · exact ⟨_, .inl rfl, hsame.symm⟩
            · exact ⟨entry, .inr ⟨hold, hsame⟩, rfl⟩
      rw [ih, hspawn, or_assoc, or_left_comm]

/-! ### One step -/

theorem Inv.turn {w : Worker} (h : Inv w) {p : Pass} (hpass : w.pass = some p) :
    Inv (w.turn p) := by
  have hsweeping := h.sweeping p hpass
  unfold Worker.turn
  split
  · exact ⟨registered_spawnMissing h.registered _, nofun⟩
  · rename_i id rest hremaining
    split
    · exact ⟨h.registered, nofun⟩
    · rename_i name task hfind
      split
      · rename_i henabled
        have hwaiting := hsweeping.not_waiting hremaining henabled
        split
        · refine ⟨h.registered, ?_⟩
          rintro p' ⟨⟩
          exact hsweeping.keep hremaining rfl hwaiting henabled
        · rename_i hended
          refine ⟨h.registered.pop hfind (Option.not_isSome_iff_eq_none.mp hended), ?_⟩
          rintro p' ⟨⟩
          exact hsweeping.pop hremaining rfl hwaiting
      · rename_i hdisabled
        split
        · refine ⟨h.registered, ?_⟩
          rintro p' ⟨⟩
          refine ⟨hsweeping.left, hsweeping.once, hsweeping.swept, ?_⟩
          rintro - id' rest' heq
          cases hremaining.symm.trans heq
          exact hdisabled
        · split
          · exact h
          · rename_i hended
            refine ⟨h.registered.pop hfind (Option.not_isSome_iff_eq_none.mp hended), ?_⟩
            rintro p' ⟨⟩
            exact hsweeping.pop hremaining rfl rfl

theorem next_cases {motive : Step → Worker → Prop} {w : Worker} (step : Step)
    (skip : ∀ step, motive step w)
    (begin : w.pass = none → motive .begin { w with
      pass := some ⟨enabledPlexIds w.rows, w.tasks.rows.map Prod.fst, false, 0, 0⟩ })
    (turn : ∀ p, w.pass = some p → motive .turn (w.turn p))
    (ends : ∀ task, motive (.ends task) (next w (.ends task)))
    (edit : ∀ rows, motive (.edit rows) (next w (.edit rows))) : motive step (next w step) := by
  cases step with
  | begin =>
    cases hpass : w.pass with
    | none => simpa only [next, hpass] using begin hpass
    | some p => simpa only [next, hpass] using skip .begin
  | turn =>
    cases hpass : w.pass with
    | none => simpa only [next, hpass] using skip .turn
    | some p => simpa only [next, hpass] using turn p hpass
  | ends task => exact ends task
  | edit rows => exact edit rows

theorem Inv.next {w : Worker} (h : Inv w) (step : Step) : Inv (next w step) := by
  apply next_cases (motive := fun _ w' => Inv w') step (fun _ => h)
  · intro hpass
    refine ⟨h.registered, ?_⟩
    rintro p' ⟨⟩
    exact .begin ..
  · exact fun p hpass => h.turn hpass
  · exact fun task => ⟨h.registered.ends task, h.sweeping⟩
  · exact fun rows => ⟨h.registered, h.sweeping⟩

/-! ### The start of the worker -/

theorem foldl_spawn (ids : List String) {w : Worker} (honce : ids.Nodup)
    (hnone : ∀ id ∈ ids, w.tasks.find? id = none) :
    ids.foldl Worker.spawn w = w.spawnMissing ids := by
  induction ids generalizing w with
  | nil => rfl
  | cons id rest ih =>
    obtain ⟨hnot, hrest⟩ := List.nodup_cons.mp honce
    obtain ⟨hfirst, hothers⟩ := List.forall_mem_cons.mp hnone
    rw [List.foldl_cons, Worker.spawnMissing, hfirst]
    refine ih hrest fun id' hid' => ?_
    have hne : id' ≠ id := by
      rintro rfl
      exact hnot hid'
    exact (Table.find?_upsert id').trans ((if_neg hne).trans (hothers id' hid'))

theorem nodup_enabledPlexIds (rows : Table Integration.id) : (enabledPlexIds rows).Nodup :=
  rows.unique.sublist (List.filter_sublist.map _)

/-- The worker before it starts its listeners. -/
def idle (rows : Table Integration.id) : Worker :=
  ⟨rows, Table.empty, fun _ => none, 0, none, []⟩

theorem startup_eq (rows : Table Integration.id) :
    startup rows = (idle rows).spawnMissing (enabledPlexIds rows) :=
  foldl_spawn _ (nodup_enabledPlexIds rows) fun _ _ => rfl

theorem pass_spawnMissing (w : Worker) (ids : List String) :
    (w.spawnMissing ids).pass = w.pass :=
  spawnMissing_preserves (I := fun w' => w'.pass = w.pass) (fun _ _ hw _ => hw) ids rfl

theorem registered_idle (rows : Table Integration.id) :
    Registered (idle rows).tasks (idle rows).running (idle rows).nextTask :=
  ⟨nofun, nofun, nofun⟩

theorem inv_startup (rows : Table Integration.id) : Inv (startup rows) := by
  rw [startup_eq]
  refine ⟨registered_spawnMissing (registered_idle rows) _, fun p hp => ?_⟩
  rw [pass_spawnMissing] at hp
  cases hp

theorem inv_final (rows : Table Integration.id) (run : List Step) :
    Inv (Runs.final next (startup rows) run) :=
  Runs.final_invariant next (fun step _ _ h => h.next step) (inv_startup rows)

/-! ### The counters -/

def spawned (w : Worker) : Nat := (w.returned.map Counters.spawned).sum

/-- Of all the passes so far, the one that is under way included. -/
def forgotten (w : Worker) : Nat :=
  (w.returned.map fun c => c.cancelled + c.cleaned).sum +
    w.pass.elim 0 fun p => p.cancelled + p.cleaned

/-- No task enters or leaves the table uncounted. -/
def Balanced (started : Nat) (w : Worker) : Prop :=
  w.tasks.rows.length + forgotten w = started + spawned w

theorem length_pop {tasks : Tasks} {id : String} {entry : String × Nat}
    (hfind : tasks.find? id = some entry) :
    (tasks.erase fun entry => entry.1 = id).rows.length + 1 = tasks.rows.length := by
  have hone := Table.countP_key tasks id
  rw [hfind, Option.isSome_some, if_pos rfl] at hone
  have hlength := tasks.rows.length_eq_countP_add_countP fun entry => entry.1 = id
  simp only [Table.erase, ← List.countP_eq_length_filter]
  simp only [decide_eq_true_eq, decide_not] at hlength hone ⊢
  omega

theorem length_spawnMissing (w : Worker) (ids : List String) :
    w.nextTask ≤ (w.spawnMissing ids).nextTask ∧
      (w.spawnMissing ids).tasks.rows.length + w.nextTask =
        (w.spawnMissing ids).nextTask + w.tasks.rows.length := by
  refine spawnMissing_preserves (I := fun w' => w.nextTask ≤ w'.nextTask ∧
    w'.tasks.rows.length + w.nextTask = w'.nextTask + w.tasks.rows.length) ?_ ids
    ⟨le_rfl, Nat.add_comm ..⟩
  rintro w' id ⟨hle, hlength⟩ hnone
  have hnew : ¬∃ entry ∈ w'.tasks.rows, entry.1 = (id, w'.nextTask).1 := by
    rintro ⟨entry, hentry, hid⟩
    exact Table.find?_eq_none.mp hnone entry hentry hid
  have hrows := congrArg List.length (Table.rows_upsert_new hnew)
  rw [List.length_append, List.length_singleton] at hrows
  simp only [Worker.spawn]
  omega

theorem Balanced.turn {started : Nat} {w : Worker} (h : Balanced started w) (hinv : Inv w)
    {p : Pass} (hpass : w.pass = some p) : Balanced started (w.turn p) := by
  unfold Balanced forgotten spawned at h ⊢
  rw [hpass, Option.elim_some] at h
  unfold Worker.turn
  split
  · have hlength := length_spawnMissing w p.enabledIds
    have hreturned : (w.spawnMissing p.enabledIds).returned = w.returned :=
      spawnMissing_preserves (I := fun w' => w'.returned = w.returned) (fun _ _ hw _ => hw) _ rfl
    simp only [Worker.finish, hreturned, List.map_append, List.sum_append, List.map_singleton,
      List.sum_singleton, Option.elim_none]
    omega
  · rename_i id rest hremaining
    split
    · rename_i hfind
      obtain ⟨entry, hentry, hid⟩ :=
        (hinv.sweeping p hpass).left id (hremaining ▸ List.mem_cons_self ..)
      exact absurd hid (Table.find?_eq_none.mp hfind entry hentry)
    · rename_i name task hfind
      have hlength := length_pop hfind
      split
      · split
        · simpa using h
        · simp only [Worker.pop, Option.elim_some]
          omega
      · split
        · simpa using h
        · split
          · rwa [hpass]
          · simp only [Worker.pop, Option.elim_some]
            omega

theorem Balanced.next {started : Nat} {w : Worker} (h : Balanced started w) (hinv : Inv w)
    (step : Step) : Balanced started (next w step) := by
  apply next_cases (motive := fun _ w' => Balanced started w') step (fun _ => h)
  · intro hpass
    simpa only [Balanced, forgotten, spawned, hpass, Option.elim] using h
  · exact fun p hpass => h.turn hinv hpass
  · exact fun _ => h
  · exact fun _ => h

/-! ### Passes during which nothing else happens -/

/-- The pass goes on, and the task that it has cancelled and waits for ends. -/
def Quiet (w : Worker) : Step → Prop
  | .begin => True
  | .turn => True
  | .ends task => ∃ p id rest, w.pass = some p ∧ p.waiting = true ∧ p.remaining = id :: rest ∧
      w.tasks.find? id = some (id, task)
  | .edit _ => False

/-- One task for each enabled integration, and it is running. -/
structure Aligned (tasks : Tasks) (running : Nat → Option String) (ids : List String) : Prop where
  running : ∀ entry ∈ tasks, running entry.2 = some entry.1
  keys : ∀ id, (∃ entry ∈ tasks, entry.1 = id) ↔ id ∈ ids

/-- A quiet pass, and the listeners of the integrations that stay enabled. -/
structure Aligning (w₀ w : Worker) : Prop where
  rows : w.rows = w₀.rows
  kept : ∀ task id, w₀.running task = some id → id ∈ enabledPlexIds w₀.rows →
    w.running task = some id
  read : ∀ p, w.pass = some p → p.enabledIds = enabledPlexIds w₀.rows
  swept : ∀ p, w.pass = some p → ∀ entry ∈ w.tasks, entry.1 ∉ p.remaining →
    w.running entry.2 = some entry.1
  done : w.pass = none → Aligned w.tasks w.running (enabledPlexIds w₀.rows)

theorem Registered.listens {tasks : Tasks} {running : Nat → Option String} {nextTask : Nat}
    (h : Registered tasks running nextTask) {entry : String × Nat} (hentry : entry ∈ tasks)
    (hrunning : (running entry.2).isSome) : running entry.2 = some entry.1 := by
  obtain ⟨id, hid⟩ := Option.isSome_iff_exists.mp hrunning
  rw [hid, h.distinct entry hentry _ (h.running _ id hid) rfl]

theorem running_spawnMissing {w : Worker} (h : Registered w.tasks w.running w.nextTask)
    (ids : List String) {task : Nat} {id : String} (hrunning : w.running task = some id) :
    (w.spawnMissing ids).running task = some id := by
  refine (spawnMissing_preserves (I := fun w' => Registered w'.tasks w'.running w'.nextTask ∧
    w'.running task = some id) ?_ ids ⟨h, hrunning⟩).2
  rintro w' id' ⟨hw, hold⟩ hnone
  refine ⟨hw.spawn hnone, ?_⟩
  have hfresh : task ≠ w'.nextTask := (hw.fresh _ (hw.running task id hold)).ne
  simpa only [Worker.spawn, Function.update_of_ne hfresh] using hold

theorem aligned_spawnMissing {w : Worker} (h : Registered w.tasks w.running w.nextTask)
    {ids : List String} (hrunning : ∀ entry ∈ w.tasks, w.running entry.2 = some entry.1)
    (hkeys : ∀ entry ∈ w.tasks, entry.1 ∈ ids) :
    Aligned (w.spawnMissing ids).tasks (w.spawnMissing ids).running ids := by
  constructor
  · refine (spawnMissing_preserves (I := fun w' => Registered w'.tasks w'.running w'.nextTask ∧
      ∀ entry ∈ w'.tasks, w'.running entry.2 = some entry.1) ?_ ids ⟨h, hrunning⟩).2
    rintro w' id ⟨hw, hall⟩ hnone
    refine ⟨hw.spawn hnone, fun entry hentry => ?_⟩
    rcases Table.mem_upsert.mp hentry with rfl | ⟨hold, -⟩
    · exact Function.update_self ..
    · exact (Function.update_of_ne (hw.fresh entry hold).ne ..).trans (hall entry hold)
  · intro id
    rw [keys_spawnMissing]
    constructor
    · rintro (⟨entry, hentry, rfl⟩ | hid)
      · exact hkeys entry hentry
      · exact hid
    · exact .inr

theorem Aligning.turn {w₀ w : Worker} (h : Aligning w₀ w) (hinv : Inv w) {p : Pass}
    (hpass : w.pass = some p) : Aligning w₀ (w.turn p) := by
  have hsweeping := hinv.sweeping p hpass
  have hread := h.read p hpass
  have hswept := h.swept p hpass
  unfold Worker.turn
  split
  · rename_i hnil
    have hall : ∀ entry ∈ w.tasks, entry.1 ∉ p.remaining := by simp [hnil]
    refine ⟨(rows_spawnMissing ..).trans h.rows, fun task id hrunning hid =>
      running_spawnMissing hinv.registered _ (h.kept task id hrunning hid), nofun, nofun, ?_⟩
    rintro -
    rw [← hread]
    exact aligned_spawnMissing hinv.registered
      (fun entry hentry => hswept entry hentry (hall entry hentry))
      (fun entry hentry => hsweeping.swept entry hentry (hall entry hentry))
  · rename_i id rest hremaining
    have hrest : ∀ entry : String × Nat, entry.1 ≠ id → entry.1 ∉ rest →
        entry.1 ∉ p.remaining := by
      intro entry hne hnot
      rw [hremaining, List.mem_cons, not_or]
      exact ⟨hne, hnot⟩
    split
    · rename_i hfind
      obtain ⟨entry, hentry, hid⟩ := hsweeping.left id (hremaining ▸ List.mem_cons_self ..)
      exact absurd hid (Table.find?_eq_none.mp hfind entry hentry)
    · rename_i name task hfind
      obtain ⟨hmem, hname⟩ := Table.mem_of_find? hfind
      -- the pass goes on with the other keys, and the entry of the first is gone
      have hpop : ∀ entry ∈ (w.pop id).tasks, entry.1 ∉ rest →
          w.running entry.2 = some entry.1 := by
        intro entry hentry hnot
        obtain ⟨hold, hne⟩ := mem_pop.mp hentry
        exact hswept entry hold (hrest entry hne hnot)
      split
      · split
        · rename_i hrunning
          refine ⟨h.rows, h.kept, ?_, ?_, nofun⟩
          · rintro p' ⟨⟩
            exact hread
          · rintro p' ⟨⟩ entry hentry hnot
            by_cases hid : entry.1 = id
            · have hsame : entry = (name, task) :=
                Table.eq_of_key_eq hentry hmem (hid.trans hname.symm)
              exact hinv.registered.listens hentry (hsame ▸ hrunning)
            · exact hswept entry hentry (hrest entry hid hnot)
        · refine ⟨h.rows, h.kept, ?_, ?_, nofun⟩
          · rintro p' ⟨⟩
            exact hread
          · rintro p' ⟨⟩
            exact hpop
      · split
        · refine ⟨h.rows, h.kept, ?_, ?_, nofun⟩
          · rintro p' ⟨⟩
            exact hread
          · rintro p' ⟨⟩
            exact hswept
        · split
          · exact h
          · refine ⟨h.rows, h.kept, ?_, ?_, nofun⟩
            · rintro p' ⟨⟩
              exact hread
            · rintro p' ⟨⟩
              exact hpop

theorem Aligning.begin {w₀ w : Worker} (hrows : w.rows = w₀.rows)
    (hkept : ∀ task id, w₀.running task = some id → id ∈ enabledPlexIds w₀.rows →
      w.running task = some id) (hpass : w.pass = none) : Aligning w₀ (next w .begin) := by
  simp only [next, hpass]
  refine ⟨hrows, hkept, ?_, ?_, nofun⟩
  · rintro p' ⟨⟩
    rw [hrows]
  · rintro p' ⟨⟩ entry hentry hnot
    exact absurd (List.mem_map_of_mem hentry) hnot

theorem Aligning.ends {w₀ w : Worker} (h : Aligning w₀ w) (hinv : Inv w) {task : Nat}
    (hquiet : Quiet w (.ends task)) : Aligning w₀ (ListenerPool.next w (.ends task)) := by
  obtain ⟨p, id, rest, hpass, hwaiting, hremaining, hfind⟩ := hquiet
  have hmem := (Table.mem_of_find? hfind).1
  have hdisabled : id ∉ enabledPlexIds w₀.rows := by
    rw [← h.read p hpass]
    exact (hinv.sweeping p hpass).awaited hwaiting id rest hremaining
  have hother : ∀ task' id', w.running task' = some id' → id' ≠ id →
      Function.update w.running task none task' = some id' := by
    intro task' id' hrunning hne
    refine (Function.update_of_ne ?_ ..).trans hrunning
    rintro rfl
    cases hinv.registered.distinct _ (hinv.registered.running _ _ hrunning) _ hmem rfl
    exact hne rfl
  refine ⟨h.rows, fun task' id' hrunning hid => ?_, h.read, ?_, ?_⟩
  · refine hother task' id' (h.kept task' id' hrunning hid) ?_
    rintro rfl
    exact hdisabled hid
  · intro p' hp' entry hentry hnot
    cases hpass.symm.trans hp'
    refine hother _ _ (h.swept p hpass entry hentry hnot) ?_
    rintro rfl
    exact hnot (hremaining ▸ List.mem_cons_self ..)
  · intro hnone
    cases hpass.symm.trans hnone

theorem Aligning.next {w₀ w : Worker} (h : Aligning w₀ w) (hinv : Inv w) {step : Step}
    (hquiet : Quiet w step) : Aligning w₀ (next w step) := by
  revert hquiet
  apply next_cases (motive := fun step w' => Quiet w step → Aligning w₀ w') step (fun _ _ => h)
  · intro hpass _
    simpa only [ListenerPool.next, hpass] using Aligning.begin h.rows h.kept hpass
  · exact fun p hpass _ => h.turn hinv hpass
  · exact fun task hquiet => h.ends hinv hquiet
  · exact fun rows hquiet => hquiet.elim

theorem aligned_of_quiet {w : Worker} (hinv : Inv w) (hpass : w.pass = none) {run : List Step}
    (hrun : Runs.Throughout next Quiet (next w .begin) run) :
    Aligning w (Runs.final next (next w .begin) run) := by
  have hboth := Runs.Throughout.final next (I := fun w' => Inv w' ∧ Aligning w w')
    (fun w' step ⟨hi, ha⟩ hquiet => ⟨hi.next step, ha.next hi hquiet⟩) hrun
    ⟨hinv.next .begin, .begin rfl (fun _ _ hrunning _ => hrunning) hpass⟩
  exact hboth.2

/-! ### A pass ends -/

def EndsWithin (w : Worker) (n : Nat) : Prop :=
  ∃ run, Runs.Throughout next Quiet w run ∧ (Runs.final next w run).pass = none ∧ run.length ≤ n

theorem EndsWithin.step {w : Worker} {n : Nat} (step : Step) (hquiet : Quiet w step)
    (h : EndsWithin (next w step) n) : EndsWithin w (n + 1) := by
  obtain ⟨run, hrun, hdone, hlength⟩ := h
  exact ⟨step :: run, ⟨hquiet, hrun⟩, hdone, Nat.succ_le_succ hlength⟩

theorem EndsWithin.mono {w : Worker} {n n' : Nat} (h : EndsWithin w n) (hle : n ≤ n') :
    EndsWithin w n' := by
  obtain ⟨run, hrun, hdone, hlength⟩ := h
  exact ⟨run, hrun, hdone, hlength.trans hle⟩

theorem turn_shortens {w : Worker} {p : Pass} {id name : String} {rest : List String} {task : Nat}
    (hremaining : p.remaining = id :: rest) (hfind : w.tasks.find? id = some (name, task))
    (hready : id ∈ p.enabledIds ∨ p.waiting = true ∧ w.running task = none) :
    ∃ p', (w.turn p).pass = some p' ∧ p'.remaining = rest := by
  by_cases henabled : id ∈ p.enabledIds
  · by_cases hrunning : (w.running task).isSome <;>
      simp [Worker.turn, hremaining, hfind, henabled, hrunning]
  · obtain ⟨hwaiting, hended⟩ := hready.resolve_left henabled
    simp [Worker.turn, hremaining, hfind, henabled, hwaiting, hended]

theorem endsWithin_of_pass (keys : List String) {w : Worker} (hinv : Inv w) {p : Pass}
    (hpass : w.pass = some p) (hkeys : p.remaining = keys) :
    EndsWithin w (3 * keys.length + 1) := by
  induction keys generalizing w p with
  | nil =>
    refine ⟨[.turn], ⟨trivial, trivial⟩, ?_, le_rfl⟩
    simp only [Runs.final, List.foldl_cons, List.foldl_nil, next, hpass, Worker.turn, hkeys]
    rfl
  | cons id rest ih =>
    obtain ⟨⟨name, task⟩, hmem, hid⟩ :=
      (hinv.sweeping p hpass).left id (hkeys ▸ List.mem_cons_self ..)
    obtain rfl : name = id := hid
    have hfind : w.tasks.find? name = some (name, task) := Table.find?_eq_some.mpr ⟨hmem, rfl⟩
    have hturn : ∀ {w' : Worker} {p' : Pass}, Inv w' → w'.pass = some p' →
        (∃ p'', (w'.turn p').pass = some p'' ∧ p''.remaining = rest) →
        EndsWithin w' (3 * rest.length + 1 + 1) := by
      rintro w' p' hinv' hpass' ⟨p'', hnext, hrest⟩
      have hstep : next w' .turn = w'.turn p' := by simp only [next, hpass']
      refine .step .turn trivial (ih (hinv'.next .turn) ?_ hrest)
      rw [hstep, hnext]
    by_cases henabled : name ∈ p.enabledIds
    · have hlater := hturn hinv hpass (turn_shortens hkeys hfind (.inl henabled))
      exact hlater.mono (by rw [List.length_cons]; omega)
    · -- the task that is waited for ends, and the pass goes on
      have hends : ∀ {w' : Worker} {p' : Pass}, Inv w' → w'.pass = some p' → p'.waiting = true →
          p'.remaining = name :: rest → w'.tasks.find? name = some (name, task) →
          EndsWithin w' (3 * rest.length + 1 + 1 + 1) := by
        intro w' p' hinv' hpass' hwaiting hremaining hfind'
        have hquiet : Quiet w' (.ends task) :=
          ⟨p', name, rest, hpass', hwaiting, hremaining, hfind'⟩
        refine .step (.ends task) hquiet (hturn (hinv'.next (.ends task)) hpass' ?_)
        exact turn_shortens hremaining hfind' (.inr ⟨hwaiting, Function.update_self ..⟩)
      cases hwaiting : p.waiting with
      | true => exact (hends hinv hpass hwaiting hkeys hfind).mono (by rw [List.length_cons]; omega)
      | false =>
        have hstep : next w .turn = { w with pass := some { p with waiting := true } } := by
          simp [next, hpass, Worker.turn, hkeys, hfind, henabled, hwaiting]
        have hinv' := hstep ▸ hinv.next .turn
        have hlater := hends hinv' rfl rfl hkeys hfind
        refine .step .turn trivial ?_
        rw [hstep]
        exact hlater.mono (by rw [List.length_cons]; omega)

/-! ### The main result -/

theorem Aligned.listening {tasks : Tasks} {running : Nat → Option String} {nextTask : Nat}
    {ids : List String} (h : Aligned tasks running ids)
    (hregistered : Registered tasks running nextTask) (id : String) :
    (∃ task, running task = some id) ↔ id ∈ ids := by
  rw [← h.keys id]
  constructor
  · rintro ⟨task, hrunning⟩
    exact ⟨(id, task), hregistered.running task id hrunning, rfl⟩
  · rintro ⟨entry, hentry, rfl⟩
    exact ⟨entry.2, h.running entry hentry⟩

theorem aligned_startup (rows : Table Integration.id) :
    Aligned (startup rows).tasks (startup rows).running (enabledPlexIds rows) := by
  rw [startup_eq]
  exact aligned_spawnMissing (registered_idle rows) nofun nofun

theorem balanced_final (rows : Table Integration.id) (run : List Step) :
    Balanced (startup rows).tasks.rows.length (Runs.final next (startup rows) run) := by
  suffices hboth : Inv (Runs.final next (startup rows) run) ∧
      Balanced (startup rows).tasks.rows.length (Runs.final next (startup rows) run) from hboth.2
  refine Runs.final_invariant next
    (I := fun w => Inv w ∧ Balanced (startup rows).tasks.rows.length w)
    (fun step _ _ h => ⟨h.1.next step, h.2.next h.1 step⟩) ⟨inv_startup rows, ?_⟩
  have hpass : (startup rows).pass = none := by
    rw [startup_eq, pass_spawnMissing]
    rfl
  have hreturned : (startup rows).returned = [] := by
    rw [startup_eq]
    exact spawnMissing_preserves (I := fun w => w.returned = []) (fun _ _ hw _ => hw) _ rfl
  simp [Balanced, forgotten, spawned, hpass, hreturned]

/-- A pass has a task for each key that is left, so that nothing but the turn after the last of
    them ends it. -/
theorem remaining_of_ended {w : Worker} (h : Inv w) {p : Pass} (hpass : w.pass = some p)
    {step : Step} (hended : (next w step).pass = none) : step = .turn ∧ p.remaining = [] := by
  cases step with
  | begin => simp [next, hpass] at hended
  | ends task => simp [next, hpass] at hended
  | edit rows => simp [next, hpass] at hended
  | turn =>
    refine ⟨rfl, ?_⟩
    cases hremaining : p.remaining with
    | nil => rfl
    | cons id rest =>
      obtain ⟨entry, hentry, hid⟩ :=
        (h.sweeping p hpass).left id (hremaining ▸ List.mem_cons_self ..)
      have hfind : w.tasks.find? id = some entry := Table.find?_eq_some.mpr ⟨hentry, hid⟩
      simp only [next, hpass, Worker.turn, hremaining, hfind] at hended
      split at hended
      · split at hended <;> cases hended
      · split at hended
        · cases hended
        · split at hended
          · rw [hpass] at hended
            cases hended
          · cases hended

/-- A worker starts with a listener for each integration that is enabled.  However passes, listeners
    that end and changes of the integrations then interleave, a listener that runs is the one in
    the table, and no task is lost from the count; a pass ends with the turn after its last key
    alone, and leaves the tasks of the integrations that it read.  Begun where none is under way,
    a pass during which nothing else happens comes to its end, and then listeners run for exactly
    the integrations that are enabled, those that did before without a break. -/
theorem one_listener_each (rows : Table Integration.id) (run : List Step) :
    let w := Runs.final next (startup rows) run
    (∀ id, (∃ task, (startup rows).running task = some id) ↔ id ∈ enabledPlexIds rows) ∧
    (∀ task id, w.running task = some id →
      (id, task) ∈ w.tasks ∧ ∀ task', w.running task' = some id → task' = task) ∧
    w.tasks.rows.length + forgotten w = (startup rows).tasks.rows.length + spawned w ∧
    (∀ p, w.pass = some p → ∀ step, (next w step).pass = none → step = .turn ∧ p.remaining = []) ∧
    (∀ p, w.pass = some p → p.remaining = [] → (next w .turn).pass = none ∧
      ∀ id, (∃ entry ∈ (next w .turn).tasks, entry.1 = id) ↔ id ∈ p.enabledIds) ∧
    (w.pass = none →
      (∀ later, Runs.Throughout next Quiet (next w .begin) later →
        let w' := Runs.final next (next w .begin) later
        w'.pass = none →
          (∀ id, (∃ task, w'.running task = some id) ↔ id ∈ enabledPlexIds w.rows) ∧
          ∀ task id, w.running task = some id → id ∈ enabledPlexIds w.rows →
            w'.running task = some id) ∧
      ∃ later, Runs.Throughout next Quiet (next w .begin) later ∧
        (Runs.final next (next w .begin) later).pass = none ∧
        later.length ≤ 3 * w.tasks.rows.length + 1) := by
  intro w
  have hinv : Inv w := inv_final rows run
  refine ⟨(aligned_startup rows).listening (inv_startup rows).registered, fun task id hrunning =>
    ⟨hinv.registered.running task id hrunning, fun task' htask' =>
      hinv.registered.one_listener htask' hrunning⟩, balanced_final rows run,
    fun p hpass step hended => remaining_of_ended hinv hpass hended, ?_, ?_⟩
  · intro p hpass hnil
    have hall : ∀ entry ∈ w.tasks, entry.1 ∈ p.enabledIds := fun entry hentry =>
      (hinv.sweeping p hpass).swept entry hentry (by simp [hnil])
    simp only [next, hpass, Worker.turn, hnil, Worker.finish, true_and]
    intro id
    rw [keys_spawnMissing]
    constructor
    · rintro (⟨entry, hentry, rfl⟩ | hid)
      · exact hall entry hentry
      · exact hid
    · exact .inr
  · intro hpass
    constructor
    · intro later hlater w' hdone
      have haligning : Aligning w w' := aligned_of_quiet hinv hpass hlater
      have hinv' : Inv w' := Runs.final_invariant next (fun step _ _ h => h.next step)
        (hinv.next .begin)
      exact ⟨(haligning.done hdone).listening hinv'.registered, haligning.kept⟩
    · have hbegin : (next w .begin).pass =
          some ⟨enabledPlexIds w.rows, w.tasks.rows.map Prod.fst, false, 0, 0⟩ := by
        simp only [next, hpass]
      have hends := endsWithin_of_pass _ (hinv.next .begin) hbegin rfl
      rwa [List.length_map] at hends

end ListenerPool
