/-
  Auditarr/Updater.lean
  =====================
  **The updater** (`app/updater/service.py`, `app/services/repositories/updater.py`).

  An update is applied by a helper on the host.  The service commits a row for the request
  and writes a sentinel file for the helper; the helper reports in a status file, which the
  service polls.  A row that nobody reports on is reaped after a while, an operator can
  clear one that is stuck, and a completed one can be rolled back, which requests the
  version before it.

  Each call runs in a session of its own.  What a call did not commit when it raises is
  rolled back.
-/
import Auditarr.KeyedTable
import Auditarr.PyValues

namespace Updater

open KeyedTable PyValues

abbrev Timestamp := Int

/-! ### Rows and files -/

inductive ApplyStatus where
  | requested | running | completed | failed | rolledBack
deriving DecidableEq, Repr

/-- The text of the column. -/
def ApplyStatus.text : ApplyStatus → String
  | .requested => "requested"
  | .running => "running"
  | .completed => "completed"
  | .failed => "failed"
  | .rolledBack => "rolled_back"

/-- `requested` or `running`. -/
def ApplyStatus.isOpen : ApplyStatus → Bool
  | .requested | .running => true
  | _ => false

/-- A row of `update_applies`. -/
structure UpdateApply where
  id : String
  status : ApplyStatus
  fromVersion : Option String
  toVersion : String
  startedAt : Timestamp
  finishedAt : Option Timestamp
  triggeredByUserId : Option String
  detail : Option String
  error : Option String
deriving DecidableEq

abbrev Applies := Table UpdateApply.id

/-- What the sentinel file holds. -/
structure Sentinel where
  applyId : String
  fromVersion : String
  toVersion : String
  requestedAt : Timestamp
deriving DecidableEq

/-- What is at the path of the status file. -/
inductive StatusFile where
  | unreadable
  | json (payload : PyValue)

/-- The outcome events, by the row they are about. -/
inductive Outcome where
  | installed (applyId toVersion : String)
  | failed (applyId toVersion : String) (error : Option String)
deriving DecidableEq

def Outcome.applyId : Outcome → String
  | .installed applyId _ => applyId
  | .failed applyId _ _ => applyId

structure State where
  applies : Applies
  sentinel : Option Sentinel
  statusFile : Option StatusFile
  emitted : List Outcome

inductive InstallMode where
  | docker | bareMetal | unmanaged
deriving DecidableEq, Repr

/-- The settings the service reads; the mode is what `detect_install_mode` makes of them. -/
structure Settings where
  installMode : InstallMode
  appVersion : String
  applyTimeout : Timestamp
  /-- `repr` of a string. -/
  repr : String → String

/-- What the world adds to one call. -/
structure Occasion where
  now : Timestamp
  /-- The id drawn for a new row. -/
  newId : String
  /-- The exception of the first commit. -/
  commitError : Option String
  /-- The exception of making the directory of the sentinel, or of writing it. -/
  sentinelError : Option String
  /-- The status file cannot be removed. -/
  unlinkFails : Bool
  /-- The service has an event bus. -/
  bus : Bool

section Service

variable (settings : Settings)

/-! ### Open rows -/

def openRow (applies : Applies) : Bool := applies.rows.any fun row => row.status.isOpen

/-- An open row that was requested before the cutoff. -/
def isStale (cutoff : Timestamp) (row : UpdateApply) : Bool :=
  row.status.isOpen && decide (row.startedAt < cutoff)

/-- The update of a stale row. -/
def reapedRow (now : Timestamp) (row : UpdateApply) : UpdateApply :=
  { row with
    status := .failed
    finishedAt := some now
    error := some "reaper: stale apply, host helper never reported back" }

theorem reapedRow_id (now : Timestamp) (row : UpdateApply) : (reapedRow now row).id = row.id := rfl

/-- `reap_stale`. -/
def reapStale (now : Timestamp) (applies : Applies) : Applies :=
  applies.update (isStale (now - settings.applyTimeout)) (reapedRow now) (reapedRow_id now)

/-! ### Requests -/

/-- The new row of a request. -/
def requestedRow (o : Occasion) (toVersion : String) (user : Option String) : UpdateApply where
  id := o.newId
  status := .requested
  fromVersion := some settings.appVersion
  toVersion := toVersion
  startedAt := o.now
  finishedAt := none
  triggeredByUserId := user
  detail := none
  error := none

/-- The commit of a new row; `none` if its id is taken. -/
def addRow (row : UpdateApply) (applies : Applies) : Option Applies :=
  if (applies.find? row.id).isSome then none else some (applies.upsert row)

/-- The sentinel of a request. -/
def sentinelOf (o : Occasion) (toVersion : String) : Sentinel :=
  ⟨o.newId, settings.appVersion, toVersion, o.now⟩

/-- Why `request_apply` refuses before it asks the database. -/
def modeRefusal : Option String :=
  match settings.installMode with
  | .unmanaged => some
      ("Update apply is disabled: install environment is 'unmanaged'. Configure " ++
        "AUDITARR_UPDATE_INSTALL_MODE or update Auditarr by hand.")
  | .docker => some
      ("Update apply is disabled for Docker installs. Run `git pull && docker compose pull && " ++
        "docker compose up -d --force-recreate` on the host (full commands in the Updates panel).")
  | .bareMetal => none

/-- `request_apply`: what it returns or raises, and what it leaves. -/
def requestApply (o : Occasion) (toVersion : String) (user : Option String) (s : State) :
    Except String UpdateApply × State :=
  match modeRefusal settings with
  | some text => (.error text, s)
  | none =>
      let reaped := reapStale settings o.now s.applies
      if openRow reaped then (.error "Another update apply is already in progress", s)
      else
        let row := requestedRow settings o toVersion user
        match o.commitError, addRow row reaped with
        | some text, _ => (.error text, s)
        | none, none => (.error "UNIQUE constraint failed: update_applies.id", s)
        | none, some applies => match o.sentinelError with
          | some text => (.error text, { s with applies := applies })
          | none => (.ok row,
              { s with applies := applies, sentinel := some (sentinelOf settings o toVersion) })

/-! ### Reports -/

/-- What a valid status file reports. -/
structure Report where
  applyId : String
  status : ApplyStatus
  detail : Option String
  error : Option String

/-- The statuses that a helper may report. -/
def reportable : PyValue → Option ApplyStatus
  | .str "running" => some .running
  | .str "completed" => some .completed
  | .str "failed" => some .failed
  | _ => none

def textOf : PyValue → Option String
  | .str s => some s
  | _ => none

/-- The payload of a status file as a report; `none` if it is not a valid one. -/
def readReport (payload : PyValue) : Except PyError (Option Report) := do
  let applyId ← payload.get "apply_id"
  let newStatus ← payload.get "status"
  match applyId with
  | .str id =>
      -- a status that cannot be hashed cannot be looked up in the set of known ones
      if newStatus.isHashable then
        match reportable newStatus with
        | none => pure none
        | some status => do
            let detail ← payload.get "detail"
            let error ← payload.get "error"
            pure (some ⟨id, status, textOf detail, textOf error⟩)
      else throw .typeError
  | _ => pure none

/-- The class of an exception. -/
def errorName : PyError → String
  | .typeError => "TypeError"
  | .valueError => "ValueError"
  | .overflowError => "OverflowError"
  | .other name => name

/-- The row after a report on it. -/
def Report.apply (r : Report) (now : Timestamp) (row : UpdateApply) : UpdateApply :=
  { row with
    status := r.status
    finishedAt := if r.status = .running then row.finishedAt else some now
    detail := r.detail <|> row.detail
    error := r.error <|> row.error }

theorem Report.apply_id (r : Report) (now : Timestamp) (row : UpdateApply) :
    (r.apply now row).id = row.id := rfl

/-- The event of an outcome. -/
def outcomeOf (row : UpdateApply) : Option Outcome :=
  match row.status with
  | .completed => some (.installed row.id row.toVersion)
  | .failed => some (.failed row.id row.toVersion row.error)
  | _ => none

/-- An event on the bus, if there is one. -/
def emit (bus : Bool) (outcome : Option Outcome) (s : State) : State :=
  if bus then { s with emitted := s.emitted ++ outcome.toList } else s

/-- The status file is removed, if that works. -/
def unlink (o : Occasion) (s : State) : State :=
  if o.unlinkFails then s else { s with statusFile := none }

/-- A change of the row with the id. -/
def setRow (id : String) (f : UpdateApply → UpdateApply) (hf : ∀ row, (f row).id = row.id) (s : State) :
    State :=
  { s with applies := s.applies.update (fun row => row.id = id) f hf }

/-- `poll_apply_status`. -/
def pollApplyStatus (o : Occasion) (s : State) : Except String (Option UpdateApply) × State :=
  match s.statusFile with
  | none => (.ok none, s)
  | some .unreadable => (.ok none, s)
  | some (.json payload) => match readReport payload with
    | .error e => (.error (errorName e), s)
    | .ok none => (.ok none, s)
    | .ok (some r) => match s.applies.find? r.applyId with
      | none => (.ok none, unlink o s)
      | some row => match o.commitError with
        | some text => (.error text, s)
        | none =>
            let row' := r.apply o.now row
            (.ok (some row'), unlink o (emit o.bus (outcomeOf row')
              (setRow row.id (r.apply o.now) (r.apply_id o.now) s)))

/-! ### Operators -/

/-- The update of a row that an operator clears. -/
def clearedRow (now : Timestamp) (row : UpdateApply) : UpdateApply :=
  { row with status := .failed, finishedAt := some now, error := some "force-cleared by operator" }

theorem clearedRow_id (now : Timestamp) (row : UpdateApply) : (clearedRow now row).id = row.id := rfl

/-- `force_clear`. -/
def forceClear (o : Occasion) (applyId : String) (s : State) : Except String UpdateApply × State :=
  match s.applies.find? applyId with
  | none => (.error ("Unknown apply " ++ settings.repr applyId), s)
  | some row =>
      if row.status.isOpen then match o.commitError with
        | some text => (.error text, s)
        | none =>
            let row' := clearedRow o.now row
            (.ok row', emit o.bus (some (.failed row'.id row'.toVersion row'.error))
              (setRow row.id (clearedRow o.now) (clearedRow_id o.now) s))
      else (.error ("Cannot force-clear apply in status " ++ settings.repr row.status.text ++
        "; only requested/running rows can be force-cleared"), s)

/-- The update of a row that is rolled back. -/
def rolledBackRow (now : Timestamp) (row : UpdateApply) : UpdateApply :=
  { row with status := .rolledBack, finishedAt := some now }

theorem rolledBackRow_id (now : Timestamp) (row : UpdateApply) : (rolledBackRow now row).id = row.id := rfl

/-- `rollback`: the first commit marks the row, then the version before it is requested. -/
def rollback (o again : Occasion) (applyId : String) (s : State) : Except String UpdateApply × State :=
  match s.applies.find? applyId with
  | none => (.error ("Unknown apply " ++ settings.repr applyId), s)
  | some row => match row.fromVersion with
    | none => (.error "Cannot roll back an apply with no recorded from_version", s)
    | some fromVersion =>
        if row.status = .completed then match o.commitError with
          | some text => (.error text, s)
          | none => requestApply settings again fromVersion row.triggeredByUserId
              (setRow row.id (rolledBackRow o.now) (rolledBackRow_id o.now) s)
        else (.error ("Cannot roll back apply in status " ++ settings.repr row.status.text), s)

end Service

/-! ### Rows by their id -/

section Rows

variable {s : State} {id : String} {applies : Applies}

theorem find?_setRow {f : UpdateApply → UpdateApply} {hf : ∀ row, (f row).id = row.id} (other : String) :
    (setRow id f hf s).applies.find? other =
      (s.applies.find? other).map fun row => if row.id = id then f row else row := by
  simp only [setRow, Table.find?_update, decide_eq_true_eq]

theorem mem_setRow {f : UpdateApply → UpdateApply} {hf : ∀ row, (f row).id = row.id} {row : UpdateApply} :
    row ∈ (setRow id f hf s).applies ↔ ∃ old ∈ s.applies, (if old.id = id then f old else old) = row := by
  simp only [setRow, Table.mem_update, decide_eq_true_eq]

@[simp] theorem unlink_applies (o : Occasion) : (unlink o s).applies = s.applies := by
  unfold unlink
  split <;> rfl

@[simp] theorem unlink_emitted (o : Occasion) : (unlink o s).emitted = s.emitted := by
  unfold unlink
  split <;> rfl

@[simp] theorem emit_applies (bus : Bool) (outcome : Option Outcome) :
    (emit bus outcome s).applies = s.applies := by
  unfold emit
  split <;> rfl

theorem emit_emitted (bus : Bool) (outcome : Option Outcome) :
    (emit bus outcome s).emitted = s.emitted ++ if bus then outcome.toList else [] := by
  unfold emit
  split <;> simp

theorem openRow_iff : openRow applies = true ↔ ∃ row ∈ applies, row.status.isOpen = true := by
  rw [openRow, List.any_eq_true]
  rfl

theorem find?_reapStale (settings : Settings) (now : Timestamp) (other : String) :
    (reapStale settings now applies).find? other = (applies.find? other).map fun row =>
      if isStale (now - settings.applyTimeout) row then reapedRow now row else row := by
  rw [reapStale, Table.find?_update]

@[simp] theorem requestedRow_id (settings : Settings) (o : Occasion) (toVersion : String)
    (user : Option String) : (requestedRow settings o toVersion user).id = o.newId := rfl

theorem addRow_eq_some {row : UpdateApply} {applies' : Applies} :
    addRow row applies = some applies' ↔ applies.find? row.id = none ∧ applies.upsert row = applies' := by
  unfold addRow
  cases applies.find? row.id with
  | none => simp
  | some _ => simp

end Rows

end Updater
