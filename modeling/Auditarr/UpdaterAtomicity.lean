/-
  Auditarr/UpdaterAtomicity.lean
  ==============================
  **Requests and rollbacks that fail** (`app/updater/service.py`).

  Both commit a row before a step that can still fail: a request before it writes the
  sentinel, a rollback before it makes its request.  And between the check for an open row
  and the commit of the new one another request can commit its own.
-/
import Auditarr.Updater
import Auditarr.Runs

namespace UpdaterAtomicity

open KeyedTable Updater Runs

section Calls

variable (settings : Settings)

/-! ### Calls that raise -/

/-- The rows are as before, apart from those reaped as stale. -/
def RowsAsBefore (now : Timestamp) (s s' : State) : Prop :=
  s'.applies = s.applies ∨ s'.applies = reapStale settings now s.applies

/-- A request that raises leaves the rows as they were. -/
def RequestAtomic (o : Occasion) (toVersion : String) (user : Option String) (s : State) : Prop :=
  ∀ text s', requestApply settings o toVersion user s = (.error text, s') →
    RowsAsBefore settings o.now s s'

/-- A rollback that raises leaves the rows as they were. -/
def RollbackAtomic (o again : Occasion) (applyId : String) (s : State) : Prop :=
  ∀ text s', rollback settings o again applyId s = (.error text, s') →
    RowsAsBefore settings again.now s s'

/-- A request comes as far as its sentinel: the mode allows it, no row is open once the
    stale ones are reaped, and the new row is committed. -/
structure Commits (o : Occasion) (s : State) : Prop where
  mode : modeRefusal settings = none
  noneOpen : openRow (reapStale settings o.now s.applies) = false
  commit : o.commitError = none
  fresh : s.applies.find? o.newId = none

/-- The row is one that can be rolled back. -/
structure CanRollBack (o : Occasion) (applyId : String) (s : State) : Prop where
  row : ∃ row, s.applies.find? applyId = some row ∧ row.fromVersion ≠ none ∧ row.status = .completed
  commit : o.commitError = none

variable {settings} {o again : Occasion} {toVersion applyId : String} {user : Option String}
  {s s' : State}

theorem addRow_reapStale {row : UpdateApply} {now : Timestamp} {applies applies' : Applies} :
    addRow row (reapStale settings now applies) = some applies' ↔
      applies.find? row.id = none ∧ (reapStale settings now applies).upsert row = applies' := by
  rw [addRow_eq_some, find?_reapStale, Option.map_eq_none_iff]

theorem requestApply_refused (h : ¬Commits settings o s) (toVersion : String)
    (user : Option String) : ∃ text, requestApply settings o toVersion user s = (.error text, s) := by
  unfold requestApply
  cases hmode : modeRefusal settings with
  | some text => exact ⟨text, rfl⟩
  | none =>
    dsimp only
    split
    · exact ⟨_, rfl⟩
    · rename_i hopen
      cases hcommit : o.commitError with
      | some text => exact ⟨text, rfl⟩
      | none =>
        cases hadd : addRow (requestedRow settings o toVersion user)
            (reapStale settings o.now s.applies) with
        | none => exact ⟨_, rfl⟩
        | some applies =>
          refine absurd ⟨hmode, Bool.not_eq_true _ ▸ hopen, hcommit, ?_⟩ h
          exact (addRow_reapStale.mp hadd).1

theorem requestApply_commits (h : Commits settings o s) (toVersion : String)
    (user : Option String) :
    (requestApply settings o toVersion user s).2.applies =
        (reapStale settings o.now s.applies).upsert (requestedRow settings o toVersion user) ∧
      ((∃ text s', requestApply settings o toVersion user s = (.error text, s')) ↔
        o.sentinelError ≠ none) := by
  have hadd : addRow (requestedRow settings o toVersion user) (reapStale settings o.now s.applies) =
      some ((reapStale settings o.now s.applies).upsert (requestedRow settings o toVersion user)) :=
    addRow_reapStale.mpr ⟨h.fresh, rfl⟩
  simp only [requestApply, h.mode, h.noneOpen, h.commit, hadd, Bool.false_eq_true, if_false]
  cases o.sentinelError with
  | none => simp
  | some text => simp

theorem requestAtomic_iff : RequestAtomic settings o toVersion user s ↔
    ¬(Commits settings o s ∧ o.sentinelError ≠ none) := by
  by_cases hcommits : Commits settings o s
  · obtain ⟨happlies, hraises⟩ := requestApply_commits hcommits toVersion user
    rw [and_iff_right hcommits]
    constructor
    · intro hatomic hsentinel
      obtain ⟨text, s', hcall⟩ := hraises.mpr hsentinel
      rw [hcall] at happlies
      have hnew : s'.applies.find? o.newId ≠ none := by
        rw [show s'.applies = _ from happlies, Table.find?_upsert, requestedRow_id, if_pos rfl]
        exact Option.some_ne_none _
      rcases hatomic text s' hcall with hsame | hreaped
      · rw [hsame] at hnew
        exact hnew hcommits.fresh
      · rw [hreaped, find?_reapStale, hcommits.fresh] at hnew
        exact hnew rfl
    · intro hsentinel text s' hcall
      exact absurd (hraises.mp ⟨text, s', hcall⟩) hsentinel
  · apply iff_of_true
    · intro text s' hcall
      obtain ⟨text', hrefused⟩ := requestApply_refused hcommits toVersion user
      rw [hrefused] at hcall
      cases hcall
      exact .inl rfl
    · exact fun h => hcommits h.1

theorem openRow_reapStale_iff {now : Timestamp} {applies : Applies} :
    openRow (reapStale settings now applies) = true ↔
      ∃ row ∈ applies, row.status.isOpen = true ∧ ¬row.startedAt < now - settings.applyTimeout := by
  rw [openRow_iff]
  constructor
  · rintro ⟨row, hrow, hopen⟩
    obtain ⟨old, hold, rfl⟩ := Table.mem_update.mp hrow
    by_cases hstale : isStale (now - settings.applyTimeout) old = true
    · rw [if_pos hstale] at hopen
      cases hopen
    · rw [if_neg hstale] at hopen
      refine ⟨old, hold, hopen, fun hearly => hstale ?_⟩
      simp [isStale, hopen, hearly]
  · rintro ⟨row, hrow, hopen, hlate⟩
    refine ⟨row, Table.mem_update.mpr ⟨row, hrow, if_neg ?_⟩, hopen⟩
    simp [isStale, hlate]

theorem commits_marked_iff {row : UpdateApply} (hrow : s.applies.find? row.id = some row)
    (hcompleted : row.status = .completed) (now : Timestamp) :
    Commits settings again (setRow row.id (rolledBackRow now) (rolledBackRow_id now) s) ↔
      Commits settings again s := by
  have hopen : openRow (reapStale settings again.now
      (setRow row.id (rolledBackRow now) (rolledBackRow_id now) s).applies) =
      openRow (reapStale settings again.now s.applies) := by
    rw [Bool.eq_iff_iff, openRow_reapStale_iff, openRow_reapStale_iff]
    constructor
    · rintro ⟨other, hother, hopen, hlate⟩
      obtain ⟨old, hold, rfl⟩ := mem_setRow.mp hother
      by_cases hid : old.id = row.id
      · rw [if_pos hid] at hopen
        cases hopen
      · rw [if_neg hid] at hopen hlate
        exact ⟨old, hold, hopen, hlate⟩
    · rintro ⟨other, hother, hopen, hlate⟩
      have hid : other.id ≠ row.id := by
        intro hid
        rw [Table.eq_of_key_eq hother (Table.mem_of_find? hrow).1 hid, hcompleted] at hopen
        cases hopen
      exact ⟨other, mem_setRow.mpr ⟨other, hother, if_neg hid⟩, hopen, hlate⟩
  have hfresh : (setRow row.id (rolledBackRow now) (rolledBackRow_id now) s).applies.find?
      again.newId = none ↔ s.applies.find? again.newId = none := by
    rw [find?_setRow, Option.map_eq_none_iff]
  constructor
  · rintro ⟨hmode, hnone, hcommit, hnew⟩
    exact ⟨hmode, hopen ▸ hnone, hcommit, hfresh.mp hnew⟩
  · rintro ⟨hmode, hnone, hcommit, hnew⟩
    exact ⟨hmode, hopen.trans hnone, hcommit, hfresh.mpr hnew⟩

theorem not_rowsAsBefore {row row' : UpdateApply} {now : Timestamp}
    (hrow : s.applies.find? row.id = some row) (hcompleted : row.status = .completed)
    (hrow' : s'.applies.find? row.id = some row') (hrolledBack : row'.status = .rolledBack) :
    ¬RowsAsBefore settings now s s' := by
  have hdiffer : row ≠ row' := by
    rintro rfl
    rw [hcompleted] at hrolledBack
    cases hrolledBack
  rintro (hsame | hreaped)
  · rw [hsame, hrow] at hrow'
    exact hdiffer (Option.some.inj hrow')
  · have hfresh : isStale (now - settings.applyTimeout) row = false := by
      simp [isStale, hcompleted, ApplyStatus.isOpen]
    rw [hreaped, find?_reapStale, hrow, Option.map_some, hfresh] at hrow'
    exact hdiffer (Option.some.inj hrow')

theorem rollback_refused (settings : Settings) (again : Occasion)
    (h : ¬CanRollBack o applyId s) : ∃ text, rollback settings o again applyId s = (.error text, s) := by
  unfold rollback
  cases hrow : s.applies.find? applyId with
  | none => exact ⟨_, rfl⟩
  | some row =>
    dsimp only
    cases hfrom : row.fromVersion with
    | none => exact ⟨_, rfl⟩
    | some fromVersion =>
      dsimp only
      split
      · rename_i hcompleted
        cases hcommit : o.commitError with
        | some text => exact ⟨text, rfl⟩
        | none =>
          have hsome : row.fromVersion ≠ none := by
            rw [hfrom]
            exact Option.some_ne_none _
          exact absurd ⟨⟨row, hrow, hsome, hcompleted⟩, hcommit⟩ h
      · exact ⟨_, rfl⟩

/-- A rollback that raises leaves the rows as they were iff the row cannot be rolled back, or
    the request for the version before it comes as far as its sentinel and writes it. -/
theorem rollbackAtomic_iff : RollbackAtomic settings o again applyId s ↔
    (CanRollBack o applyId s → Commits settings again s ∧ again.sentinelError = none) := by
  by_cases hcan : CanRollBack o applyId s
  · obtain ⟨⟨row, hfound, hfrom, hcompleted⟩, hcommit⟩ := hcan
    obtain ⟨fromVersion, hfrom⟩ := Option.ne_none_iff_exists'.mp hfrom
    have hid := (Table.mem_of_find? hfound).2
    have hrow : s.applies.find? row.id = some row := by
      rw [hid]
      exact hfound
    have hrun : rollback settings o again applyId s = requestApply settings again fromVersion
        row.triggeredByUserId (setRow row.id (rolledBackRow o.now) (rolledBackRow_id o.now) s) := by
      simp only [rollback, hfound, hfrom, hcompleted, hcommit, if_true]
    have hmarked : (setRow row.id (rolledBackRow o.now) (rolledBackRow_id o.now) s).applies.find?
        row.id = some (rolledBackRow o.now row) := by
      rw [find?_setRow, hrow, Option.map_some, if_pos rfl]
    rw [← commits_marked_iff hrow hcompleted o.now]
    generalize setRow row.id (rolledBackRow o.now) (rolledBackRow_id o.now) s = marked at *
    constructor
    · intro hatomic _
      by_cases hcommits : Commits settings again marked
      · refine ⟨hcommits, ?_⟩
        by_contra hsentinel
        obtain ⟨happlies, hraises⟩ := requestApply_commits hcommits fromVersion row.triggeredByUserId
        obtain ⟨text, s', hcall⟩ := hraises.mpr hsentinel
        have hne : row.id ≠ again.newId := by
          intro heq
          rw [heq, hcommits.fresh] at hmarked
          cases hmarked
        have hfresh : isStale (again.now - settings.applyTimeout) (rolledBackRow o.now row) = false := by
          simp [isStale, rolledBackRow, ApplyStatus.isOpen]
        have hleft : s'.applies.find? row.id = some (rolledBackRow o.now row) := by
          rw [hcall] at happlies
          rw [show s'.applies = _ from happlies, Table.find?_upsert, requestedRow_id, if_neg hne,
            find?_reapStale, hmarked, Option.map_some, hfresh]
          rfl
        exact not_rowsAsBefore hrow hcompleted hleft rfl (hatomic text s' (hrun.trans hcall))
      · obtain ⟨text, hrefused⟩ := requestApply_refused hcommits fromVersion row.triggeredByUserId
        exact absurd (hatomic text marked (hrun.trans hrefused))
          (not_rowsAsBefore hrow hcompleted hmarked rfl)
    · intro hreturns text s' hcall
      obtain ⟨hcommits, hsentinel⟩ := hreturns ⟨⟨row, hfound, by simp [hfrom], hcompleted⟩, hcommit⟩
      obtain ⟨-, hraises⟩ := requestApply_commits hcommits fromVersion row.triggeredByUserId
      rw [hrun] at hcall
      exact absurd hsentinel (hraises.mp ⟨text, s', hcall⟩)
  · apply iff_of_true
    · intro text s' hcall
      obtain ⟨text', hrefused⟩ := rollback_refused settings again hcan
      rw [hrefused] at hcall
      cases hcall
      exact .inl rfl
    · exact fun h => absurd h hcan

end Calls

/-! ### Requests that race -/

/-- The rows, and the calls that found no open row, with the clock of their check. -/
structure Race (ι : Type) where
  applies : Applies
  checked : ι → Option Timestamp

/-- A call checks for an open row, or commits its own. -/
inductive RaceStep (ι : Type) where
  | check (call : ι) (now : Timestamp)
  | commit (call : ι) (o : Occasion) (toVersion : String) (user : Option String)

section Race

variable (settings : Settings) {ι : Type} [DecidableEq ι]

/-- What a call reaped when it checked is committed together with its row. -/
def raceNext (s : Race ι) : RaceStep ι → Race ι
  | .check call now =>
      if (modeRefusal settings).isNone && !openRow (reapStale settings now s.applies) then
        { s with checked := Function.update s.checked call (some now) }
      else s
  | .commit call o toVersion user => match s.checked call with
      | none => s
      | some now => match addRow (requestedRow settings o toVersion user)
          (reapStale settings now s.applies) with
        | none => { s with checked := Function.update s.checked call none }
        | some applies => ⟨applies, Function.update s.checked call none⟩

/-- At most one row is open. -/
def OneOpen (s : Race ι) : Prop :=
  ∀ row ∈ s.applies, ∀ row' ∈ s.applies, row.status.isOpen = true → row'.status.isOpen = true →
    row = row'

/-- A call that commits its row still finds no open one, as when it checked. -/
def StillNoneOpen (s : Race ι) : RaceStep ι → Prop
  | .check _ _ => True
  | .commit call o _ _ => ∀ now, s.checked call = some now → s.applies.find? o.newId = none →
      openRow (reapStale settings now s.applies) = false

variable {settings} {s : Race ι}

omit [DecidableEq ι] in
theorem oneOpen_upsert_iff {applies : Applies} {row : UpdateApply}
    (hfresh : applies.find? row.id = none) (hopen : row.status.isOpen = true)
    (checked : ι → Option Timestamp) :
    OneOpen ⟨applies.upsert row, checked⟩ ↔ openRow applies = false := by
  rw [← Bool.not_eq_true, openRow_iff]
  constructor
  · rintro hone ⟨other, hother, hopen'⟩
    have hne := Table.find?_eq_none.mp hfresh other hother
    have hsame := hone other (Table.mem_upsert.mpr (.inr ⟨hother, hne⟩)) row
      (Table.mem_upsert.mpr (.inl rfl)) hopen' hopen
    exact hne (congrArg UpdateApply.id hsame)
  · intro hnone a ha b hb hopena hopenb
    have hnew : ∀ c ∈ applies.upsert row, c.status.isOpen = true → c = row := by
      intro c hc hopenc
      rcases Table.mem_upsert.mp hc with rfl | ⟨hold, -⟩
      · rfl
      · exact absurd ⟨c, hold, hopenc⟩ hnone
    rw [hnew a ha hopena, hnew b hb hopenb]

theorem oneOpen_raceNext_iff (s : Race ι) (step : RaceStep ι) (h : OneOpen s) :
    OneOpen (raceNext settings s step) ↔ StillNoneOpen settings s step := by
  cases step with
  | check call now =>
    apply iff_of_true _ trivial
    simp only [raceNext]
    split
    · exact h
    · exact h
  | commit call o toVersion user =>
    unfold StillNoneOpen
    cases hchecked : s.checked call with
    | none =>
      simp only [raceNext, hchecked]
      exact iff_of_true h fun _ hnone => by cases hnone
    | some now =>
      simp only [raceNext, hchecked, Option.some.injEq, forall_eq']
      cases hadd : addRow (requestedRow settings o toVersion user)
          (reapStale settings now s.applies) with
      | none =>
        apply iff_of_true h
        intro hfresh
        rw [addRow_reapStale.mpr ⟨hfresh, rfl⟩] at hadd
        cases hadd
      | some applies =>
        obtain ⟨hfresh, rfl⟩ := addRow_reapStale.mp hadd
        have hfresh' : (reapStale settings now s.applies).find?
            (requestedRow settings o toVersion user).id = none := by
          rw [find?_reapStale, hfresh, Option.map_none]
        rw [oneOpen_upsert_iff hfresh' rfl]
        constructor
        · exact fun hnone _ => hnone
        · exact fun hstill => hstill hfresh

/-- Requests and rollbacks that raise leave the rows as they were, and requests that race
    leave one open row at most, iff respectively no request raises for its sentinel, the
    request of a rollback is not refused and writes its sentinel, and every request that
    commits its row still finds none open. -/
theorem atomic_iff (settings : Settings) (race : Race ι) (hone : OneOpen race) :
    (∀ o toVersion user s, RequestAtomic settings o toVersion user s ↔
      ¬(Commits settings o s ∧ o.sentinelError ≠ none)) ∧
    (∀ o again applyId s, RollbackAtomic settings o again applyId s ↔
      (CanRollBack o applyId s → Commits settings again s ∧ again.sentinelError = none)) ∧
    ∀ run, (∀ race' ∈ states (raceNext settings) race run, OneOpen race') ↔
      Throughout (raceNext settings) (StillNoneOpen settings) race run :=
  ⟨fun _ _ _ _ => requestAtomic_iff, fun _ _ _ _ => rollbackAtomic_iff,
    forall_states_iff (raceNext settings) oneOpen_raceNext_iff hone⟩

end Race

/-! ### A rollback while another update is open -/

def bareMetal : Settings := ⟨.bareMetal, "1.1", 900, fun s => s⟩

def rowOf (id : String) (status : ApplyStatus) (startedAt : Timestamp) : UpdateApply :=
  ⟨id, status, some "1.0", "1.1", startedAt, none, none, none, none⟩

theorem busyRows_unique :
    ([rowOf "a1" .completed 0, rowOf "a2" .requested 100].map UpdateApply.id).Nodup := by
  decide

/-- One update is complete, and another one was requested. -/
def busyState : State where
  applies := ⟨[rowOf "a1" .completed 0, rowOf "a2" .requested 100], busyRows_unique⟩
  sentinel := none
  statusFile := none
  emitted := []

/-- A call in which nothing raises. -/
def quiet (now : Timestamp) (newId : String) : Occasion := ⟨now, newId, none, none, false, true⟩

def idleRace : Race Bool := ⟨.empty, fun _ => none⟩

/-- Two calls, one after the other. -/
def inTurn : List (RaceStep Bool) :=
  [.check true 10, .commit true (quiet 11 "a1") "1.1" none, .check false 12,
    .commit false (quiet 13 "a2") "1.1" none]

theorem atomic_iff_inTurn :
    RequestAtomic bareMetal (quiet 200 "a3") "1.2" none busyState ∧
    RollbackAtomic bareMetal (quiet 200 "a3") (quiet 200 "a3") "a2" busyState ∧
    OneOpen (final (raceNext bareMetal) idleRace inTurn) := by
  have hone : OneOpen idleRace := fun row hrow => absurd hrow (Table.not_mem_empty row)
  obtain ⟨hrequest, hrollback, hrace⟩ := atomic_iff bareMetal idleRace hone
  refine ⟨(hrequest ..).mpr ?_, (hrollback ..).mpr ?_, (hrace inTurn).mpr ?_ _
    ((mem_states _).mpr ⟨inTurn, [], rfl, rfl⟩)⟩
  · rintro ⟨-, hsentinel⟩
    exact hsentinel rfl
  · rintro ⟨⟨row, hrow, -, hcompleted⟩, -⟩
    cases hrow
    cases hcompleted
  · refine ⟨trivial, ?_, trivial, ?_, trivial⟩
    · intro now _ _
      rfl
    · intro now hchecked
      cases hchecked

/-- Two calls that both check before either commits. -/
def interleaved : List (RaceStep Bool) :=
  [.check true 10, .check false 10, .commit true (quiet 11 "a1") "1.1" none,
    .commit false (quiet 11 "a2") "1.1" none]

/-- The request of the rollback is refused when the row is already marked; a sentinel that
    cannot be written leaves a requested row; and two calls leave two. -/
theorem failures_leave_rows :
    ¬RollbackAtomic bareMetal (quiet 200 "a3") (quiet 200 "a3") "a1" busyState ∧
    ¬RequestAtomic bareMetal { quiet 2000 "a3" with sentinelError := some "PermissionError" } "1.2"
      none busyState ∧
    ¬OneOpen (final (raceNext bareMetal) idleRace interleaved) := by
  refine ⟨fun hatomic => ?_, fun hatomic => ?_, fun hone => ?_⟩
  · have hcan : CanRollBack (quiet 200 "a3") "a1" busyState :=
      ⟨⟨_, rfl, Option.some_ne_none _, rfl⟩, rfl⟩
    obtain ⟨hcommits, -⟩ := rollbackAtomic_iff.mp hatomic hcan
    exact absurd hcommits.noneOpen (by decide)
  · exact requestAtomic_iff.mp hatomic ⟨⟨rfl, by decide, rfl, rfl⟩, Option.some_ne_none _⟩
  · have hids := congrArg UpdateApply.id (hone _ (.head _) _ (.tail _ (.head _)) rfl rfl)
    exact absurd hids (by decide)

end UpdaterAtomicity
