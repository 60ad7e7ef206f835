/-
  Auditarr/OptimizationQueue.lean
  ===============================
  **The order in which queued items are run** (`app/optimization/worker.py`,
  `run_one` and `_claim_next`).

  A tick claims the item that was queued first.  A run that ends outside its schedule
  window, or at a provider that answers with a transient error, puts its item back
  with the time it was first queued at: at the head of the queue, where the next tick
  finds it again.
-/
import Auditarr.OptimizationWorker
import Mathlib.Data.List.Sort

namespace OptimizationQueue

open Effects KeyedTable ProfileSchema Database OptimizationWorker

/-! ### Sorting part of a list -/

section Sorting

variable {α : Type} {r : α → α → Prop} [DecidableRel r] [IsTrans α r] [Std.Total r]

omit [Std.Total r] in
theorem filter_orderedInsert (p : α → Bool) (a : α) {l : List α} (hsorted : l.Pairwise r) :
    (l.orderedInsert r a).filter p =
      if p a then (l.filter p).orderedInsert r a else l.filter p := by
  induction l with
  | nil => simp [List.filter_singleton]
  | cons b rest ih =>
    rw [List.pairwise_cons] at hsorted
    by_cases hab : r a b
    · rw [List.orderedInsert_cons_of_le r rest hab, List.filter_cons]
      split
      · -- what is left of a sorted list begins with an element no smaller
        cases hleft : (b :: rest).filter p with
        | nil => rfl
        | cons c left =>
          have hc : c ∈ (b :: rest).filter p := by
            rw [hleft]
            exact List.mem_cons_self ..
          have hac : r a c := by
            rcases List.mem_cons.mp (List.mem_filter.mp hc).1 with rfl | hrest
            · exact hab
            · exact IsTrans.trans a b c hab (hsorted.1 c hrest)
          rw [List.orderedInsert_cons_of_le r left hac]
      · rfl
    · rw [List.orderedInsert_of_not_le r rest hab, List.filter_cons, ih hsorted.2, List.filter_cons]
      by_cases hb : p b
      · rw [if_pos hb, if_pos hb]
        split
        · rw [List.orderedInsert_of_not_le r _ hab]
        · rfl
      · rw [if_neg hb, if_neg hb]

theorem insertionSort_filter (p : α → Bool) (l : List α) :
    (l.filter p).insertionSort r = (l.insertionSort r).filter p := by
  induction l with
  | nil => rfl
  | cons a rest ih =>
    rw [List.insertionSort_cons, filter_orderedInsert p a (List.pairwise_insertionSort r rest),
      List.filter_cons]
    split
    · rw [List.insertionSort_cons, ih]
    · exact ih

end Sorting

/-! ### Claiming -/

/-- What tells the rows of the queue apart. -/
def keyOf (item : OptimizationItem) : String × String := (item.mediaFileId, item.profile)

def byQueuedAt (a b : OptimizationItem) : Prop := a.queuedAt ≤ b.queuedAt

instance : DecidableRel byQueuedAt := fun a b => inferInstanceAs (Decidable (a.queuedAt ≤ b.queuedAt))

instance : IsTrans OptimizationItem byQueuedAt := ⟨fun _ _ _ => Nat.le_trans⟩

instance : Std.Total byQueuedAt := ⟨fun a b => Nat.le_total a.queuedAt b.queuedAt⟩

def isQueued (item : OptimizationItem) : Bool := decide (item.status = .queued)

/-- `WHERE status = 'queued' ORDER BY queued_at`; rows queued at the same moment come in
    storage order. -/
def queue (t : Tables) : List OptimizationItem :=
  (t.items.rows.filter isQueued).insertionSort byQueuedAt

/-- The row as the conditional update leaves it. -/
def running (env : Env) (item : OptimizationItem) : OptimizationItem :=
  { item with status := .running, startedAt := some env.now, progressPct := 0 }

/-- The conditional update: it takes the candidate only if it is still queued. -/
def claim (env : Env) (candidate : OptimizationItem) (t : Tables) :
    Option (OptimizationItem × Tables) :=
  match t.items.find? (keyOf candidate) with
  | none => none
  | some row =>
      if row.status = .queued then some (running env row, t.putItem (running env row)) else none

/-- `_claim_next`, with the attempts that are left. -/
def claimNext (env : Env) (t : Tables) : Nat → Option (OptimizationItem × Tables)
  | 0 => none
  | attempts + 1 => match (queue t).head? with
    | none => none
    | some candidate => match claim env candidate t with
      | some won => some won
      | none => claimNext env t attempts

/-- What ticks see: the database and the disk. -/
structure Store where
  tables : Tables
  disk : Disk

/-- `run_one`: the item it claimed with what came of it, or nothing when it is idle. -/
def runOne (env : Env) (s : Store) :
    Option (OptimizationItem × Except Failure WorkerReport) × Store :=
  match claimNext env s.tables 16 with
  | none => (none, s)
  | some (item, t) =>
      let (outcome, h) := execute env ⟨t, item, s.disk, [], 0⟩
      (some (item, outcome), ⟨h.tables, h.disk⟩)

/-- The items claimed by one tick after the other, each at its own time. -/
def claims : List Env → Store → List (String × String)
  | [], _ => []
  | env :: rest, s => match runOne env s with
    | (none, s') => claims rest s'
    | (some (item, _), s') => keyOf item :: claims rest s'

/-! ### Which items come back -/

/-- What the provider answers, if the item gets as far as asking it. -/
def submission (env : Env) (t : Tables) (item : OptimizationItem) (media : MediaFile)
    (row : OptimizationProfile) (profile : ProfileDefinition) :
    Option (Except String JobSubmitResult) := do
  let manager ← env.integrationManager
  let integrationId ← row.optimizationIntegrationId.filter (· ≠ "")
  let integration ← t.integrations.find? integrationId
  if integration.kind = profile.routingTarget.kind then
    let provider ← manager.providerFor integration.kind
    let submit ← provider.submitTranscodeJob
    match manager.buildConfig integration with
    | .error _ => none
    | .ok _ => some (submit ⟨item.id, media.path, profile⟩)
  else none

/-- A crash of the provider, or the status `error`. -/
def isTransient : Option (Except String JobSubmitResult) → Bool
  | some (.error _) => true
  | some (.ok result) => decide (result.status = .error)
  | none => false

/-- The run of the item ends back in the queue: its schedule window is closed, or the
    provider it is routed to answers with a transient error. -/
def releases (env : Env) (t : Tables) (item : OptimizationItem) : Bool :=
  match t.media.find? item.mediaFileId, t.profiles.find? item.profile with
  | some media, some row => match row.settings with
    | some profile => row.enabled && (!scheduleWindowIsOpen env.hourIn profile.scheduleWindow ||
        (profile.routingTarget ≠ .inProcess &&
          isTransient (submission env t item media row profile)))
    | none => false
  | _, _ => false

/-! ### What a run does to its item -/

/-- The same row, wherever its run has come to. -/
structure SameItem (item item' : OptimizationItem) : Prop where
  id : item'.id = item.id
  key : keyOf item' = keyOf item
  queuedAt : item'.queuedAt = item.queuedAt

/-- Nothing is committed yet. -/
def Underway (h h' : Host) : Prop := h'.tables = h.tables ∧ SameItem h.item h'.item

instance : Std.Refl Underway := ⟨fun _ => ⟨rfl, rfl, rfl, rfl⟩⟩

instance : IsTrans Host Underway where
  trans _ _ _ hab hbc := by
    refine ⟨hbc.1.trans hab.1, hbc.2.id.trans hab.2.id, hbc.2.key.trans hab.2.key, ?_⟩
    exact hbc.2.queuedAt.trans hab.2.queuedAt

/-- The item is written back, with one of these statuses. -/
def WrittenBack (statuses : ItemStatus → Prop) (h h' : Host) : Prop :=
  h'.tables = h.tables.putItem h'.item ∧ SameItem h.item h'.item ∧ statuses h'.item.status

/-- A run that began at `start` returns with its item written back; it raises only where
    `raises` holds, with nothing committed. -/
def Settles (start : Host) (statuses : ItemStatus → Prop) (raises : Prop)
    (c : Worker WorkerReport) : Prop :=
  Triple (Underway start) c (fun _ => WrittenBack statuses start)
    (fun _ h => Underway start h ∧ raises)

section Settling

variable {env : Env} {start : Host} {statuses : ItemStatus → Prop} {raises : Prop}

theorem Settles.bind {α : Type} {c : Worker α} {k : α → Worker WorkerReport}
    (hc : Within Underway c) (hk : ∀ a, Settles start statuses True (k a)) :
    Settles start statuses True (c >>= k) := by
  refine Triple.bind ((triple_within hc start).consequence (fun _ hs => hs) (fun _ _ hs => hs) ?_) hk
  intro _ _ hs
  exact ⟨hs, trivial⟩

theorem Settles.edit {change : OptimizationItem → OptimizationItem} {k : Unit → Worker WorkerReport}
    (hsame : ∀ item, SameItem item (change item)) (hk : Settles start statuses raises (k ())) :
    Settles start statuses raises (edit change >>= k) := by
  intro h hs
  exact hk { h with item := change h.item } ⟨hs.1, (hsame h.item).id.trans hs.2.id,
    (hsame h.item).key.trans hs.2.key, (hsame h.item).queuedAt.trans hs.2.queuedAt⟩

theorem Settles.read {α : Type} {f : Host → α} {k : α → Worker WorkerReport}
    (hf : ∀ h, Underway start h → f h = f start) (hk : Settles start statuses raises (k (f start))) :
    Settles start statuses raises (Call.read f >>= k) := by
  intro h hs
  rw [Call.run_bind_ok (Call.run_read f h), hf h hs]
  exact hk h hs

theorem Settles.mono {statuses' : ItemStatus → Prop} {raises' : Prop} {c : Worker WorkerReport}
    (h : Settles start statuses raises c) (himp : ∀ status, statuses status → statuses' status)
    (hraises : raises → raises') : Settles start statuses' raises' c :=
  h.consequence (fun _ hs => hs) (fun _ _ hs => ⟨hs.1, hs.2.1, himp _ hs.2.2⟩)
    fun _ _ hs => ⟨hs.1, hraises hs.2⟩

theorem settles_raise (exc : Failure) (hraises : raises) :
    Settles start statuses raises (Call.raise exc) :=
  fun _ hs => ⟨hs, hraises⟩

theorem settles_conclude {status : ReportStatus} {detail : String}
    {change : OptimizationItem → OptimizationItem} (hsame : ∀ item, SameItem item (change item))
    (hstatus : ∀ item, statuses (change item).status) :
    Settles start statuses raises (conclude status detail change) := by
  intro h hunderway
  have hchange := hsame h.item
  refine ⟨?_, ⟨?_, ?_, ?_⟩, hstatus h.item⟩
  · show h.tables.putItem _ = _
    rw [hunderway.1]; rfl
  · exact hchange.id.trans hunderway.2.id
  · exact hchange.key.trans hunderway.2.key
  · exact hchange.queuedAt.trans hunderway.2.queuedAt

/-- Not back in the queue. -/
def Left (status : ItemStatus) : Prop := status ≠ .queued

theorem settles_complete (detail : String) : Settles start Left raises (complete env detail) :=
  settles_conclude (fun _ => ⟨rfl, rfl, rfl⟩) fun _ => ItemStatus.noConfusion

theorem settles_fail (detail : String) : Settles start Left raises (fail env detail) :=
  settles_conclude (fun _ => ⟨rfl, rfl, rfl⟩) fun _ => ItemStatus.noConfusion

theorem settles_skip (detail : String) : Settles start Left raises (skip env detail) :=
  settles_conclude (fun _ => ⟨rfl, rfl, rfl⟩) fun _ => ItemStatus.noConfusion

theorem settles_requeue (detail : String) : Settles start (· = .queued) raises (requeue detail) :=
  settles_conclude (fun _ => ⟨rfl, rfl, rfl⟩) fun _ => rfl

theorem underway_edit {change : OptimizationItem → OptimizationItem}
    (hsame : ∀ item, SameItem item (change item)) : Within Underway (edit change) :=
  within_modify fun h => ⟨rfl, hsame h.item⟩

theorem underway_editMetadata (change : ItemMetadata → ItemMetadata) :
    Within Underway (editMetadata change) :=
  underway_edit fun _ => ⟨rfl, rfl, rfl⟩

end Settling

/-! ### The paths of a run -/

section Paths

variable {env : Env} {start : Host}

theorem settles_recordSubmission {raises : Prop} (integration : Integration) (result : JobSubmitResult) :
    Settles start (fun status => status = .queued ↔ isTransient (some (.ok result)) = true) raises
      (recordSubmission env integration result) := by
  unfold recordSubmission isTransient
  cases hstatus : result.status with
  | accepted =>
    refine Settles.edit (fun _ => ⟨rfl, rfl, rfl⟩) ?_
    exact settles_conclude (fun _ => ⟨rfl, rfl, rfl⟩) fun _ => by simp [hstatus]
  | rejected =>
    refine (settles_fail _).mono ?_ id
    intro status hleft
    simpa [hstatus, Left] using hleft
  | error =>
    refine (settles_requeue _).mono ?_ id
    intro status hqueued
    simpa [hstatus] using hqueued

theorem settles_routeToProvider (media : MediaFile) (row : OptimizationProfile)
    (profile : ProfileDefinition) :
    Settles start
      (fun status => status = .queued ↔
        isTransient (submission env start.tables start.item media row profile) = true)
      (isTransient (submission env start.tables start.item media row profile) = false)
      (routeToProvider env media row profile) := by
  have hleft : ∀ {c : Worker WorkerReport} {answer : Option (Except String JobSubmitResult)},
      answer = none → Settles start Left True c →
      Settles start (fun status => status = .queued ↔ isTransient answer = true)
        (isTransient answer = false) c := by
    intro c answer hnone hc
    subst hnone
    refine hc.mono ?_ fun _ => rfl
    intro status hstatus
    simpa [isTransient, Left] using hstatus
  refine Settles.edit (fun _ => ⟨rfl, rfl, rfl⟩) ?_
  unfold submission
  cases env.integrationManager with
  | none => exact hleft rfl (settles_conclude (fun _ => ⟨rfl, rfl, rfl⟩)
      fun _ => ItemStatus.noConfusion)
  | some manager =>
    refine Settles.read (fun _ hs => congrArg Prod.snd hs.2.key) ?_
    cases row.optimizationIntegrationId.filter (· ≠ "") with
    | none => exact hleft rfl (settles_fail _)
    | some integrationId =>
      refine Settles.read (fun h hs => by rw [hs.1]) ?_
      cases hlookup : start.tables.integrations.find? integrationId with
      | none => exact hleft (by simp [hlookup]) (settles_fail _)
      | some integration =>
        by_cases hkind : integration.kind = profile.routingTarget.kind
        · simp only [hkind, ne_eq, not_true_eq_false, if_false]
          cases hprovider : manager.providerFor profile.routingTarget.kind with
          | none => exact hleft (by simp [hlookup, hkind, hprovider]) (settles_fail _)
          | some provider =>
            cases hsubmit : provider.submitTranscodeJob with
            | none =>
              simp only [hsubmit]
              exact hleft (by simp [hlookup, hkind, hprovider, hsubmit]) (settles_fail _)
            | some submit =>
              simp only [hsubmit]
              cases hconfig : manager.buildConfig integration with
              | error text =>
                exact hleft (by simp [hlookup, hkind, hprovider, hconfig])
                  (settles_raise _ trivial)
              | ok _ =>
                refine Settles.read (fun _ hs => hs.2.id) ?_
                simp only [Option.bind_eq_bind, Option.bind_some, hlookup, hkind, if_true, hprovider,
                  hsubmit, hconfig]
                cases submit ⟨start.item.id, media.path, profile⟩ with
                | error text =>
                  refine (settles_requeue _).mono ?_ id
                  intro status hqueued
                  simpa [isTransient] using hqueued
                | ok result => exact settles_recordSubmission integration result
        · simp only [ne_eq, hkind, not_false_eq_true, if_true]
          exact hleft (by simp [hlookup, hkind]) (settles_fail _)

theorem underway_withDisk (h : Host) (disk : Disk) : Underway h (h.withDisk disk) :=
  ⟨rfl, rfl, rfl, rfl⟩

theorem underway_unlink (path : PosixPath) (missingOk : Bool) :
    Within Underway (unlink env path missingOk) := by
  intro h
  unfold unlink
  split
  · split <;> exact Std.Refl.refl h
  · split <;> exact ⟨rfl, rfl, rfl, rfl⟩

theorem underway_osReplace (src dst : PosixPath) : Within Underway (osReplace env src dst) := by
  intro h
  unfold osReplace
  split
  · exact Std.Refl.refl h
  · split <;> exact ⟨rfl, rfl, rfl, rfl⟩

theorem underway_discardOutput (path : PosixPath) :
    Within Underway (discardOutput env path) := by
  refine within_attempt (underway_unlink path true) fun exc => ?_
  cases exc with
  | osError text => exact within_pure _
  | other text => exact within_raise _

theorem underway_runTranscode (request : TranscodeRequest) :
    Within Underway (runTranscode env request) := by
  refine within_bind (within_read _) fun run => ?_
  cases run with
  | error text => exact within_raise _
  | ok run =>
    refine within_bind (within_forEach _ fun _ _ => within_modify fun h => underway_withDisk h _)
      fun _ => within_bind (within_read _) fun _ => ?_
    exact within_bind (underway_edit fun _ => ⟨rfl, rfl, rfl⟩) fun _ => within_pure _

theorem underway_withSuffix (path : PosixPath) (suffix : List Char) :
    Within Underway (withSuffix env path suffix) := by
  unfold withSuffix
  split
  · exact within_pure _
  · exact within_raise _

theorem underway_trySwap (inputPath tmpOutput : PosixPath) (profile : ProfileDefinition) :
    Within Underway (trySwap env inputPath tmpOutput profile) := by
  have hbackup : ∀ backup : Option String,
      Within Underway (edit fun item => { item with backupPath := backup }) := by
    intro backup
    exact underway_edit fun _ => ⟨rfl, rfl, rfl⟩
  refine within_attempt (within_bind ?_ fun _ => within_pure _) fun exc => ?_
  · refine within_bind ?_ fun _ => within_bind (underway_withSuffix _ _) fun _ =>
      within_bind (underway_osReplace _ _) fun _ => underway_editMetadata _
    unfold setAside
    split
    · exact within_bind (underway_withSuffix _ _) fun _ =>
        within_bind (underway_osReplace _ _) fun _ => hbackup _
    · exact within_bind (underway_unlink _ _) fun _ => hbackup _
  · cases exc with
    | osError text => exact within_pure _
    | other text => exact within_raise _

theorem settles_replaceInput (inputPath tmpOutput : PosixPath) (inputSize outputSize : Nat)
    (profile : ProfileDefinition) :
    Settles start Left True (replaceInput env inputPath tmpOutput inputSize outputSize profile) := by
  refine Settles.bind (underway_edit fun _ => ⟨rfl, rfl, rfl⟩) fun _ => ?_
  split
  · exact Settles.bind (underway_editMetadata _) fun _ => settles_complete _
  · refine Settles.bind (underway_trySwap _ _ _) fun raised => ?_
    cases raised with
    | some text =>
      exact Settles.bind (underway_discardOutput _) fun _ => settles_fail _
    | none => exact settles_complete _

theorem settles_transcodeInput (inputPath : PosixPath) (inputSize : Nat) (media : MediaFile)
    (profile : ProfileDefinition) :
    Settles start Left True (transcodeInput env inputPath inputSize media profile) := by
  refine Settles.bind (underway_withSuffix _ _) fun tmpOutput =>
    Settles.bind (underway_runTranscode _) fun result => ?_
  split
  · exact Settles.bind (underway_discardOutput _) fun _ => settles_fail _
  · refine Settles.bind (within_read _) fun output => ?_
    rcases output with ⟨_ | reason, _ | bytes⟩
    · exact settles_raise _ trivial
    · exact settles_replaceInput _ _ _ _ _
    · exact Settles.bind (underway_discardOutput _) fun _ => settles_fail _
    · exact Settles.bind (underway_discardOutput _) fun _ => settles_fail _

theorem settles_runInProcess (media : MediaFile) (row : OptimizationProfile)
    (profile : ProfileDefinition) : Settles start Left True (runInProcess env media row profile) := by
  refine Settles.bind (within_read _) fun input => ?_
  cases input with
  | none => exact settles_fail _
  | some bytes =>
    refine Settles.bind (underway_edit fun _ => ⟨rfl, rfl, rfl⟩) fun _ => ?_
    split
    · exact settles_skip _
    · split
      · exact settles_skip _
      · exact settles_transcodeInput _ _ _ _

theorem triple_runClaimed (env : Env) (start : Host) :
    Triple (fun h => h = start) (runClaimed env)
      (fun _ => WrittenBack
        (fun status => status = .queued ↔ releases env start.tables start.item = true) start)
      (fun _ h => Underway start h ∧ releases env start.tables start.item = false) := by
  have hstart : ∀ {statuses : ItemStatus → Prop} {raises : Prop} {c : Worker WorkerReport},
      Settles start statuses raises c →
      Triple (fun h => h = start) c (fun _ => WrittenBack statuses start)
        (fun _ h => Underway start h ∧ raises) := by
    intro statuses raises c hc h hh
    subst hh
    exact hc h (Std.Refl.refl h)
  have hleft : ∀ {c : Worker WorkerReport}, releases env start.tables start.item = false →
      Settles start Left True c →
      Triple (fun h => h = start) c (fun _ => WrittenBack
        (fun status => status = .queued ↔ releases env start.tables start.item = true) start)
        (fun _ h => Underway start h ∧ releases env start.tables start.item = false) := by
    intro c hno hc
    refine hstart (hc.mono ?_ fun _ => hno)
    intro status hstatus
    simpa [hno, Left] using hstatus
  unfold runClaimed
  refine Triple.bind (M := fun item h => item = start.item ∧ h = start) ?_ fun item =>
    Triple.assuming fun hitem => ?_
  · rintro h rfl
    exact ⟨rfl, rfl⟩
  refine Triple.bind (M := fun t h => t = start.tables ∧ h = start) ?_ fun t =>
    Triple.assuming fun ht => ?_
  · rintro h rfl
    exact ⟨rfl, rfl⟩
  subst hitem ht
  cases hmedia : start.tables.media.find? start.item.mediaFileId with
  | none => exact hleft (by simp [releases, hmedia]) (settles_fail _)
  | some media =>
    cases hrow : start.tables.profiles.find? start.item.profile with
    | none => exact hleft (by simp [releases, hmedia, hrow]) (settles_fail _)
    | some row =>
      cases hsettings : row.settings with
      | none =>
        have hno : releases env start.tables start.item = false := by
          simp [releases, hmedia, hrow, hsettings]
        simp only [hsettings]
        split
        · exact hleft hno (settles_skip _)
        · exact hleft hno (settles_fail _)
      | some profile =>
        have hreleases : releases env start.tables start.item =
            (row.enabled && (!scheduleWindowIsOpen env.hourIn profile.scheduleWindow ||
              (profile.routingTarget ≠ .inProcess &&
                isTransient (submission env start.tables start.item media row profile)))) := by
          simp [releases, hmedia, hrow, hsettings]
        simp only [hsettings]
        cases henabled : row.enabled with
        | false =>
          simp only [Bool.not_false, if_true]
          exact hleft (by rw [hreleases, henabled, Bool.false_and]) (settles_skip _)
        | true =>
          rw [henabled, Bool.true_and] at hreleases
          simp only [Bool.not_true, Bool.false_eq_true, if_false]
          cases hopen : scheduleWindowIsOpen env.hourIn profile.scheduleWindow with
          | false =>
            simp only [Bool.not_false, if_true]
            refine hstart ((settles_requeue _).mono ?_ id)
            intro status hqueued
            rw [hreleases, hopen]
            simpa using hqueued
          | true =>
            rw [hopen, Bool.not_true, Bool.false_or] at hreleases
            simp only [Bool.not_true, Bool.false_eq_true, if_false]
            by_cases htarget : profile.routingTarget = .inProcess
            · have hno : releases env start.tables start.item = false := by
                simp [hreleases, htarget]
              simp only [htarget, ne_eq, not_true_eq_false, if_false]
              split
              · exact hleft hno (settles_fail _)
              · exact hleft hno (settles_runInProcess _ _ _)
            · simp only [ne_eq, htarget, not_false_eq_true, decide_true, Bool.true_and]
                at hreleases
              simp only [ne_eq, htarget, not_false_eq_true, if_true]
              rw [hreleases]
              exact hstart (settles_routeToProvider media row profile)

theorem execute_writesBack (env : Env) (start : Host) :
    WrittenBack (fun status => status = .queued ↔ releases env start.tables start.item = true)
      start (execute env start).2 := by
  have hrun := triple_runClaimed env start start rfl
  unfold execute
  rw [Call.run_attempt]
  rcases hrunning : runClaimed env start with ⟨exc | report, h⟩
  · rw [hrunning] at hrun
    obtain ⟨hunderway, hno⟩ := hrun
    have hfail : Settles start Left True
        (fail env (String.ofList (("worker crashed: " ++ exc.text).toList.take 2000))) :=
      settles_fail _
    obtain ⟨htables, hsame, hleft⟩ := hfail h hunderway
    refine ⟨htables, hsame, ?_⟩
    rw [hno]
    exact iff_of_false hleft Bool.false_ne_true
  · rw [hrunning] at hrun
    exact hrun

end Paths

/-! ### The queue after a run -/

section Rows

variable {t : Tables} {item final : OptimizationItem}

theorem mem_queue : item ∈ queue t ↔ item ∈ t.items ∧ item.status = .queued := by
  rw [queue, List.mem_insertionSort, List.mem_filter, isQueued, decide_eq_true_eq]
  rfl

theorem queue_keys_nodup (t : Tables) : ((queue t).map keyOf).Nodup := by
  have hperm : ((queue t).map keyOf).Perm ((t.items.rows.filter isQueued).map keyOf) :=
    (List.perm_insertionSort _ _).map _
  rw [hperm.nodup_iff]
  exact t.items.unique.sublist (List.filter_sublist.map _)

theorem rows_putItem (hitem : item ∈ t.items) (hkey : keyOf final = keyOf item) :
    (t.putItem final).items.rows =
      t.items.rows.map fun r => if keyOf r = keyOf item then final else r := by
  have hold : ∃ r ∈ t.items.rows, keyOf r = keyOf final := ⟨item, hitem, hkey.symm⟩
  rw [← hkey]
  exact Table.rows_upsert_old hold

theorem eq_of_keyOf {other : OptimizationItem} (hitem : item ∈ t.items) (hother : other ∈ t.items)
    (hkey : keyOf other = keyOf item) : other = item :=
  Table.eq_of_key_eq hother hitem hkey

theorem queue_left (hitem : item ∈ t.items) (hkey : keyOf final = keyOf item)
    (hleft : final.status ≠ .queued) :
    queue (t.putItem final) = (queue t).filter fun r => keyOf r ≠ keyOf item := by
  have hrows : ∀ rows : List OptimizationItem,
      (rows.map fun r => if keyOf r = keyOf item then final else r).filter isQueued =
        (rows.filter isQueued).filter fun r => keyOf r ≠ keyOf item := by
    intro rows
    induction rows with
    | nil => rfl
    | cons r rest ih =>
      rw [List.map_cons, List.filter_cons, ih, List.filter_cons]
      by_cases hr : keyOf r = keyOf item
      · have hfinal : isQueued final = false := by simpa [isQueued] using hleft
        rw [if_pos hr, if_neg (by rw [hfinal]; exact Bool.false_ne_true)]
        split
        · rw [List.filter_cons_of_neg (by simpa using hr)]
        · rfl
      · rw [if_neg hr]
        split
        · rw [List.filter_cons_of_pos (by simpa using hr)]
        · rfl
  rw [queue, rows_putItem hitem hkey, hrows, insertionSort_filter]
  rfl

theorem queue_released (hitem : item ∈ t.items) (hqueued : item.status = .queued)
    (hkey : keyOf final = keyOf item) (hstatus : final.status = .queued)
    (htime : final.queuedAt = item.queuedAt) :
    queue (t.putItem final) = (queue t).map fun r => if keyOf r = keyOf item then final else r := by
  have hsame : ∀ r ∈ t.items.rows, isQueued (if keyOf r = keyOf item then final else r) = isQueued r ∧
      (if keyOf r = keyOf item then final else r).queuedAt = r.queuedAt := by
    intro r hr
    by_cases hk : keyOf r = keyOf item
    · rw [if_pos hk, eq_of_keyOf hitem hr hk, isQueued, isQueued, hstatus, hqueued]
      exact ⟨rfl, htime⟩
    · rw [if_neg hk]
      exact ⟨rfl, rfl⟩
  have hfilter : t.items.rows.filter
      (isQueued ∘ fun r => if keyOf r = keyOf item then final else r) =
      t.items.rows.filter isQueued := by
    apply List.filter_congr
    intro r hr
    exact (hsame r hr).1
  rw [queue, rows_putItem hitem hkey, List.filter_map, hfilter, queue,
    List.map_insertionSort byQueuedAt byQueuedAt]
  intro a ha b hb
  have hsame_a := (hsame a (List.mem_of_mem_filter ha)).2
  have hsame_b := (hsame b (List.mem_of_mem_filter hb)).2
  unfold byQueuedAt
  rw [hsame_a, hsame_b]

end Rows

/-! ### Ticks -/

theorem claimNext_head (env : Env) {t : Tables} {item : OptimizationItem}
    {rest : List OptimizationItem} (hqueue : queue t = item :: rest) (attempts : Nat) :
    claimNext env t (attempts + 1) = some (running env item, t.putItem (running env item)) := by
  obtain ⟨hitem, hqueued⟩ := mem_queue.mp
    (show item ∈ queue t by rw [hqueue]; exact List.mem_cons_self ..)
  have hfind : t.items.find? (keyOf item) = some item := Table.find?_eq_some.mpr ⟨hitem, rfl⟩
  simp [claimNext, hqueue, claim, hfind, hqueued]

theorem runOne_head (env : Env) {s : Store} {item : OptimizationItem} {rest : List OptimizationItem}
    (hqueue : queue s.tables = item :: rest) :
    ∃ outcome s' final, runOne env s = (some (running env item, outcome), s') ∧
      s'.tables = s.tables.putItem final ∧ keyOf final = keyOf item ∧
      final.queuedAt = item.queuedAt ∧
      (final.status = .queued ↔ releases env s.tables item = true) := by
  have hclaim := claimNext_head env hqueue 15
  obtain ⟨htables, hsame, hstatus⟩ := execute_writesBack env
    ⟨s.tables.putItem (running env item), running env item, s.disk, [], 0⟩
  refine ⟨_, _, _, by rw [runOne, hclaim], ?_, hsame.key, hsame.queuedAt, hstatus⟩
  rw [htables]
  exact congrArg (fun items => { s.tables with items := items })
    (Table.upsert_upsert hsame.key.symm)

theorem claims_length (envs : List Env) (s : Store) : (claims envs s).length ≤ envs.length := by
  induction envs generalizing s with
  | nil => exact Nat.le_refl 0
  | cons env rest ih =>
    rw [claims]
    split
    · exact Nat.le_succ_of_le (ih _)
    · exact Nat.succ_le_succ (ih _)

/-- As many ticks as there are queued items claim every one of them exactly if no item
    but the last of the queue is released when its turn comes. -/
theorem claims_all_iff (envs : List Env) (s : Store)
    (hlength : envs.length = (queue s.tables).length) :
    (∀ item ∈ s.tables.items, item.status = .queued → keyOf item ∈ claims envs s) ↔
      ∀ i env item, i + 1 < envs.length → envs[i]? = some env →
        (queue s.tables)[i]? = some item → releases env s.tables item = false := by
  have hall : ∀ envs s, (∀ item ∈ s.tables.items, item.status = .queued →
      keyOf item ∈ claims envs s) ↔ ∀ item ∈ queue s.tables, keyOf item ∈ claims envs s := by
    intro envs s
    constructor
    · intro h item hitem
      exact h item (mem_queue.mp hitem).1 (mem_queue.mp hitem).2
    · intro h item hitem hqueued
      exact h item (mem_queue.mpr ⟨hitem, hqueued⟩)
  rw [hall]
  -- induction on the queue; the tables after a tick look up the same rows
  induction envs generalizing s with
  | nil =>
    rw [List.length_nil, eq_comm, List.length_eq_zero_iff] at hlength
    simp [hlength]
  | cons env envs ih =>
    cases hqueue : queue s.tables with
    | nil => rw [hqueue] at hlength; cases hlength
    | cons item rest =>
      obtain ⟨outcome, s', final, hrun, htables, hkey, htime, hstatus⟩ := runOne_head _ hqueue
      obtain ⟨hitem, hqueued⟩ := mem_queue.mp
        (show item ∈ queue s.tables by rw [hqueue]; exact List.mem_cons_self ..)
      have hnodup := queue_keys_nodup s.tables
      rw [hqueue, List.map_cons, List.nodup_cons] at hnodup
      have hclaims : claims (env :: envs) s = keyOf item :: claims envs s' := by
        rw [claims, hrun]; rfl
      have hreleases : ∀ env' item', releases env' s'.tables item' =
          releases env' s.tables item' := by
        intro env' item'
        rw [htables]; rfl
      have hlen : envs.length = rest.length := by
        rw [hqueue] at hlength
        exact Nat.succ.inj hlength
      cases hback : releases env s.tables item with
      | false =>
        have hrest : queue s'.tables = rest := by
          rw [htables, queue_left hitem hkey (by rw [Ne, hstatus, hback]; exact Bool.false_ne_true),
            hqueue, List.filter_cons_of_neg (by simp), List.filter_eq_self]
          intro r hr
          rw [decide_eq_true_eq]
          intro heq
          exact hnodup.1 (heq ▸ List.mem_map_of_mem hr)
        have hih := ih s' (by rw [hrest, hlen])
        rw [hrest] at hih
        rw [hclaims]
        have hcover : (∀ r ∈ item :: rest, keyOf r ∈ keyOf item :: claims envs s') ↔
            ∀ r ∈ rest, keyOf r ∈ claims envs s' := by
          constructor
          · intro h r hr
            rcases List.mem_cons.mp (h r (List.mem_cons_of_mem _ hr)) with heq | hmem
            · exact absurd (heq ▸ List.mem_map_of_mem hr) hnodup.1
            · exact hmem
          · intro h r hr
            rcases List.mem_cons.mp hr with rfl | hr
            · exact List.mem_cons_self ..
            · exact List.mem_cons_of_mem _ (h r hr)
        refine hcover.trans (hih.trans ?_)
        constructor
        · intro h i env' item' hi henv hitem'
          cases i with
          | zero =>
            cases henv
            cases hitem'
            exact hback
          | succ i =>
            have := h i env' item' (by simpa using hi) henv hitem'
            rwa [hreleases] at this
        · intro h i env' item' hi henv hitem'
          rw [hreleases]
          exact h (i + 1) env' item' (by simpa using hi) henv hitem'
      | true =>
        cases envs with
        | nil =>
          have hnil : rest = [] := List.length_eq_zero_iff.mp hlen.symm
          subst hnil
          rw [hclaims]
          refine iff_of_true ?_ ?_
          · intro r hr
            rw [List.mem_singleton.mp hr]
            exact List.mem_cons_self ..
          · intro i env' item' hi
            simp at hi
        | cons env' envs =>
          refine iff_of_false ?_ ?_
          · -- the next tick claims the same item, and one tick is wasted
            intro hcover
            have hhead : queue s'.tables = final :: rest.map fun r =>
                if keyOf r = keyOf item then final else r := by
              rw [htables, queue_released hitem hqueued hkey (hstatus.mpr hback) htime, hqueue,
                List.map_cons, if_pos rfl]
            obtain ⟨outcome', s'', final', hrun', -⟩ := runOne_head _ hhead
            have hclaims' : claims (env' :: envs) s' = keyOf item :: claims envs s'' := by
              rw [claims, hrun', ← hkey]; rfl
            have hsub : (item :: rest).map keyOf ⊆ keyOf item :: claims envs s'' := by
              intro k hk
              obtain ⟨r, hr, rfl⟩ := List.mem_map.mp hk
              have hmem := hcover r hr
              rw [hclaims, hclaims'] at hmem
              rcases List.mem_cons.mp hmem with heq | hmem
              · rw [heq]
                exact List.mem_cons_self ..
              · exact hmem
            have hle := List.Nodup.length_le_of_subset (List.nodup_cons.mpr hnodup) hsub
            have hfew := claims_length envs s''
            simp only [List.length_map, List.length_cons] at hle hlen
            omega
          · intro h
            have hno := h 0 env item (by simp) rfl rfl
            rw [hback] at hno
            cases hno

/-- Re-encode to Matroska beside the input, at the given hours. -/
def reencode (window : Option ScheduleWindow) : ProfileDefinition where
  videoCodec := .libx265
  audioCodec := .copy
  output := ⟨.mkv, false, true⟩
  skipIfBitrateBelowKbps := none
  transcodeScope := .videoAndAudio
  tagScope := []
  routingTarget := .inProcess
  scheduleWindow := window
  providerProfileId := none
  tags_nonblank := no_tags_nonblank
  tags_length := no_tags_length
  tags_nodup := no_tags_nodup
  audio_reencodes := both_not_audioOnly
  video_reencodes := both_not_videoOnly
  not_jellyfin := inProcess_not_jellyfin
  tdarr_profile := inProcess_not_tdarr

/-- It is noon everywhere. -/
def noonEnv : Env where
  now := 43200
  hourIn _ := 12
  repr text := "'" ++ text ++ "'"
  fixed3 _ := ""
  invalidSettings _ := ""
  inProcessRunnerEnabled := true
  integrationManager := none
  fault _ _ := none
  ffmpeg _ _ _ := .ok ⟨[some [2]], 0, "", 100⟩
  probe _ _ := some ⟨true, none, some "hevc", none⟩

def waiting (id profile : String) (queuedAt : Nat) : OptimizationItem where
  id := id
  mediaFileId := "f1"
  profile := profile
  status := .queued
  queuedByRuleId := none
  queuedAt := queuedAt
  startedAt := none
  finishedAt := none
  progressPct := 0
  originalSizeBytes := none
  optimizedSizeBytes := none
  backupPath := none
  itemMetadata := .empty
  error := none

/-- A file with an item of either profile, the one that runs at night queued as given. -/
def twoItems (nightlyQueuedAt anytimeQueuedAt : Nat) : Store where
  tables := { Tables.empty with
    media := ⟨[.unprobed "f1" "l1" "/media/a.avi" "avi"], by decide⟩
    media_path_unique := by decide
    profiles := ⟨[⟨"nightly", true, some (reencode (some ⟨1, 5, "UTC", by decide, by decide⟩)),
      none, none⟩, ⟨"anytime", true, some (reencode none), none, none⟩], by decide⟩
    items := ⟨[waiting "i1" "nightly" nightlyQueuedAt, waiting "i2" "anytime" anytimeQueuedAt],
      by simp [waiting]⟩ }
  disk p := if p = pathOf "/media/a.avi" then some [1] else none

/-- The item that has to wait for the night was queued last, and both are claimed. -/
theorem claims_all_iff_nightly_last :
    keyOf (waiting "i1" "nightly" 2) ∈ claims [noonEnv, noonEnv] (twoItems 2 1) ∧
      keyOf (waiting "i2" "anytime" 1) ∈ claims [noonEnv, noonEnv] (twoItems 2 1) := by
  have hall := (claims_all_iff [noonEnv, noonEnv] (twoItems 2 1) rfl).mpr ?_
  · exact ⟨hall _ (List.mem_cons_self ..) rfl,
      hall _ (List.mem_cons_of_mem _ (List.mem_cons_self ..)) rfl⟩
  · intro i env item hi henv hitem
    have hzero : i = 0 := by
      simp only [List.length_cons, List.length_nil] at hi
      omega
    subst hzero
    cases henv
    cases hitem
    decide +kernel

/-- The item that has to wait for the night was queued first: two ticks claim it twice,
    and the other one not at all. -/
theorem waiting_item_blocks_queue :
    ¬∀ (envs : List Env) (s : Store), envs.length = (queue s.tables).length →
      ∀ item ∈ s.tables.items, item.status = .queued → keyOf item ∈ claims envs s := by
  intro hall
  have hclaimed := hall [noonEnv, noonEnv] (twoItems 1 2) rfl (waiting "i2" "anytime" 2)
    (List.mem_cons_of_mem _ (List.mem_cons_self ..)) rfl
  exact absurd hclaimed (by decide +kernel)

end OptimizationQueue
