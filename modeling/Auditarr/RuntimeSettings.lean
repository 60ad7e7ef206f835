/-
  Auditarr/RuntimeSettings.lean
  =============================
  **Overrides of settings in several processes** (`app/services/runtime_settings.py`,
  `app/main.py`, `app/worker.py`).

  Each process resolves its settings from its environment, lays the stored overrides over
  them, and from then on listens for reload notices.  A write stores the override, applies
  it in its own process and publishes a notice; a notice makes a process lay the stored
  overrides over what it has.  Such a notice cannot take an override back: after a clear the
  clearing process has the default of the class, and the others keep what they had.
  `coherent_iff_keeps` says which steps leave every process with what its environment and
  the stored overrides make of each key.
-/
import Auditarr.KeyedTable
import Auditarr.Overlay
import Auditarr.Runs
import Auditarr.SettingsSchema

namespace RuntimeSettings

open KeyedTable PyValues SettingsSchema Overlay Runs

universe u

/-! ### The store -/

/-- `RuntimeSettingOverride`. -/
structure RuntimeSettingOverride where
  key : String
  value : PyValue

abbrev Overrides : Type := Table RuntimeSettingOverride.key

/-- `RuntimeSettingChange`. -/
structure RuntimeSettingChange where
  key : String
  prevValue : PyValue
  nextValue : PyValue
  setByUserId : Option String

/-- `RuntimeOverrideRepository.get_one`. -/
def getOne (overrides : Overrides) (key : String) : PyValue :=
  ((overrides.find? key).map (·.value)).getD .none

/-! ### Processes -/

abbrev Settings : Type := String → Setting

/-- A process: what it resolved from its environment, what its settings are, whether its
    listener has subscribed, and the published notices that have not reached it. -/
structure Process where
  env : Settings
  settings : Settings
  listening : Bool
  pending : Nat

/-- `setattr(settings, key, value)`. -/
def Process.assign (key : String) (value : Setting) (proc : Process) : Process :=
  { proc with settings := Function.update proc.settings key value }

section Apply

variable (rt : SettingsRuntime)

/-- One round of `_apply_overrides_inproc`: a key that may not be edited and a value that is
    not valid are skipped. -/
def applyOverride (settings : Settings) (row : RuntimeSettingOverride) : Settings :=
  match validateRuntimeSetting rt row.key row.value with
  | .ok validated => Function.update settings row.key (.value validated)
  | .error _ => settings

/-- `load_and_apply_overrides`. -/
def loadAndApplyOverrides (overrides : Overrides) (settings : Settings) : Settings :=
  overrides.rows.foldl (applyOverride rt) settings

/-- A notice arrives and the overrides are read. -/
def Process.reload (overrides : Overrides) (proc : Process) : Process :=
  { proc with
    settings := loadAndApplyOverrides rt overrides proc.settings
    pending := proc.pending - 1 }

/-- Every notice that is on its way arrives. -/
def Process.delivered (overrides : Overrides) (proc : Process) : Process :=
  (Process.reload rt overrides)^[proc.pending] proc

/-- The stored override of a key, if it is valid. -/
def validOverride (overrides : Overrides) (key : String) : Option Setting :=
  (overrides.find? key).bind fun row =>
    (validateRuntimeSetting rt key row.value).toOption.map .value

end Apply

/-! ### Calls -/

/-- What fails in a call: a statement before the settings are changed, one after it or the
    commit, or the publication. -/
inductive Fault where
  | store | commit | publish
deriving DecidableEq

inductive SettingsError where
  | validation (message : String)
  | database

/-- The database and the processes, named by `ι`. -/
structure State (ι : Type u) where
  overrides : Overrides
  changes : List RuntimeSettingChange
  processes : ι → Option Process

section Calls

variable {ι : Type u} [DecidableEq ι] (rt : SettingsRuntime)

def State.withProcess (s : State ι) (p : ι) (proc : Process) : State ι :=
  { s with processes := Function.update s.processes p (some proc) }

/-- `_publish_reload`: the notice is on its way to every listener. -/
def State.publishReload (s : State ι) : State ι :=
  { s with processes := fun q => (s.processes q).map fun proc =>
      if proc.listening then { proc with pending := proc.pending + 1 } else proc }

/-- The end of a call whose settings are changed: the audit row and the commit, then the
    publication, whose failure is logged. -/
def State.committed (s : State ι) (overrides : Overrides) (change : RuntimeSettingChange)
    (published : Bool) : State ι :=
  let stored := { s with overrides := overrides, changes := s.changes ++ [change] }
  if published then stored.publishReload else stored

/-- `set_override`, called in a process. -/
def setOverride (p : ι) (proc : Process) (key : String) (value : PyValue)
    (setByUserId : Option String) (fault : Option Fault) (s : State ι) :
    Except SettingsError PyValue × State ι :=
  match validateRuntimeSetting rt key value with
  | .error message => (.error (.validation message), s)
  | .ok coerced =>
      let applied := s.withProcess p (proc.assign key (.value coerced))
      if fault = some .store then (.error .database, s)
      else if fault = some .commit then (.error .database, applied)
      else (.ok coerced, applied.committed (s.overrides.upsert ⟨key, coerced⟩)
        ⟨key, getOne s.overrides key, coerced, setByUserId⟩ (fault = none))

/-- What `clear_override` puts into the settings. -/
def envDefault (spec : RuntimeFieldSpec) : Setting :=
  match (modelFieldDefaults.lookup spec.key).getD .undefined with
  | .value .none => .value spec.fieldDefault
  | value => value

/-- `clear_override`, called in a process. -/
def clearOverride (p : ι) (proc : Process) (key : String) (setByUserId : Option String)
    (fault : Option Fault) (s : State ι) : Except SettingsError Bool × State ι :=
  match specOf key with
  | none => (.error (.validation (rt.repr key ++ " is not a runtime-editable setting.")), s)
  | some spec =>
      if fault = some .store then (.error .database, s)
      else if (s.overrides.find? key).isNone then (.ok false, s)
      else
        let applied := s.withProcess p (proc.assign key (envDefault spec))
        if fault = some .commit then (.error .database, applied)
        else (.ok true, applied.committed (s.overrides.erase fun row => row.key = key)
          ⟨key, getOne s.overrides key, .none, setByUserId⟩ (fault = none))

/-! ### Steps -/

/-- What may happen: a process starts with an environment or its listener subscribes, a call
    runs in a process, or a notice reaches a process, whose read of the overrides may fail. -/
inductive Step (ι : Type u) where
  | boot (p : ι) (env : Settings)
  | subscribe (p : ι)
  | set (p : ι) (key : String) (value : PyValue) (user : Option String) (fault : Option Fault)
  | clear (p : ι) (key : String) (user : Option String) (fault : Option Fault)
  | deliver (p : ι) (reads : Bool)

def Step.process : Step ι → ι
  | .boot p _ => p
  | .subscribe p => p
  | .set p .. => p
  | .clear p .. => p
  | .deliver p _ => p

/-- The start of a process, from the environment to the first load of the overrides. -/
def State.boot (s : State ι) (p : ι) (env : Settings) : State ι :=
  s.withProcess p ⟨env, loadAndApplyOverrides rt s.overrides env, false, 0⟩

/-- A step in a process that runs. -/
def nextIn (s : State ι) (proc : Process) : Step ι → State ι
  | .boot p env => s.boot rt p env
  | .subscribe p => s.withProcess p { proc with listening := true }
  | .set p key value user fault => (setOverride rt p proc key value user fault s).2
  | .clear p key user fault => (clearOverride rt p proc key user fault s).2
  | .deliver p reads =>
      if proc.pending = 0 then s
      else if reads then s.withProcess p (proc.reload rt s.overrides)
      -- the exception is logged, and the notice is gone
      else s.withProcess p { proc with pending := proc.pending - 1 }

def next (s : State ι) (step : Step ι) : State ι :=
  match s.processes step.process with
  | some proc => nextIn rt s proc step
  | none => match step with
    | .boot p env => s.boot rt p env
    | _ => s

/-- Every published notice is delivered. -/
def State.delivered (s : State ι) : State ι :=
  { s with processes := fun p => (s.processes p).map (Process.delivered rt s.overrides) }

/-- Once every notice is delivered, each process has for each key the stored override if it
    is valid, and else what it resolved from its environment. -/
def Coherent (s : State ι) : Prop :=
  ∀ p proc, (s.delivered rt).processes p = some proc →
    ∀ key, proc.settings key = (validOverride rt s.overrides key).getD (proc.env key)

/-! ### Which steps keep the processes coherent -/

/-- The calls that a commit ends. -/
def Commits (fault : Option Fault) : Prop := fault = none ∨ fault = some .publish

/-- A change that is not committed leaves the process right for the key; a committed write
    reaches each other process by its notice, or by one that is on its way, or the process
    has the value; a committed clear finds the default of the class in the environment of
    its process, and what each other process has in the environment of that. -/
def Keeps (s : State ι) : Step ι → Prop
  | .boot _ _ => True
  | .subscribe _ => True
  | .set p key value _ fault => ∀ proc coerced, s.processes p = some proc →
      validateRuntimeSetting rt key value = .ok coerced →
      (fault = some .commit →
        Meets (validOverride rt s.overrides key) (proc.env key) proc.pending (.value coerced)) ∧
      (Commits fault → ∀ q other, q ≠ p → s.processes q = some other →
        (fault = none ∧ other.listening = true) ∨ other.pending ≠ 0 ∨
          other.settings key = .value coerced)
  | .clear p key _ fault => ∀ proc spec, s.processes p = some proc → specOf key = some spec →
      s.overrides.find? key ≠ none →
      (fault = some .commit →
        Meets (validOverride rt s.overrides key) (proc.env key) proc.pending (envDefault spec)) ∧
      (Commits fault → envDefault spec = proc.env key ∧
        ∀ q other, q ≠ p → s.processes q = some other → other.settings key = other.env key)
  | .deliver p reads => ∀ proc, s.processes p = some proc → reads = false → proc.pending = 1 →
      proc.settings = overlay (validOverride rt s.overrides) proc.env

end Calls

variable {ι : Type u} {rt : SettingsRuntime}

/-! ### Loading is overlaying -/

def Process.replica (proc : Process) : Replica String Setting :=
  ⟨proc.env, proc.settings, proc.pending⟩

theorem foldl_applyOverride (rows : List RuntimeSettingOverride) (hunique : (rows.map (·.key)).Nodup)
    (settings : Settings) (key : String) :
    rows.foldl (applyOverride rt) settings key =
      ((rows.find? (fun row => row.key = key)).bind fun row =>
        (validateRuntimeSetting rt key row.value).toOption.map .value).getD (settings key) := by
  induction rows generalizing settings with
  | nil => rfl
  | cons row rest ih =>
    obtain ⟨hfresh, hrest⟩ := List.nodup_cons.mp hunique
    rw [List.foldl_cons, ih hrest, List.find?_cons]
    by_cases hkey : row.key = key
    · subst hkey
      have hnone : rest.find? (fun r => r.key = row.key) = none := by
        rw [List.find?_eq_none]
        intro r hr heq
        exact hfresh (List.mem_map.mpr ⟨r, hr, of_decide_eq_true heq⟩)
      rw [hnone]
      cases hvalid : validateRuntimeSetting rt row.key row.value <;>
        simp [applyOverride, hvalid, Except.toOption]
    · have hother : applyOverride rt settings row key = settings key := by
        unfold applyOverride
        cases validateRuntimeSetting rt row.key row.value with
        | ok validated => exact Function.update_of_ne (Ne.symm hkey) ..
        | error message => rfl
      simp only [hkey, decide_false, hother]

theorem loadAndApplyOverrides_eq (overrides : Overrides) (settings : Settings) :
    loadAndApplyOverrides rt overrides settings = overlay (validOverride rt overrides) settings := by
  funext key
  exact foldl_applyOverride overrides.rows overrides.unique settings key

theorem replica_reload (overrides : Overrides) (proc : Process) :
    (proc.reload rt overrides).replica = proc.replica.reload (validOverride rt overrides) := by
  simp only [Process.replica, Process.reload, Replica.reload, loadAndApplyOverrides_eq]

theorem replica_delivered (overrides : Overrides) (proc : Process) :
    (proc.delivered rt overrides).replica = proc.replica.settled (validOverride rt overrides) :=
  (Function.Semiconj.iterate_right (replica_reload overrides) proc.pending).eq proc

/-- Every process settles. -/
def Settled (rt : SettingsRuntime) (s : State ι) : Prop :=
  ∀ p proc, s.processes p = some proc → Settles (validOverride rt s.overrides) proc.replica

theorem settles_iff_delivered (overrides : Overrides) (proc : Process) :
    Settles (validOverride rt overrides) proc.replica ↔
      ∀ key, (proc.delivered rt overrides).settings key =
        (validOverride rt overrides key).getD ((proc.delivered rt overrides).env key) := by
  have hbase : (proc.delivered rt overrides).env = proc.replica.base := by
    change (proc.delivered rt overrides).replica.base = _
    rw [replica_delivered, settled_base]
  have hvalue : (proc.delivered rt overrides).settings =
      (proc.replica.settled (validOverride rt overrides)).value := by
    rw [← replica_delivered]
    rfl
  rw [hbase, hvalue]
  exact funext_iff

theorem coherent_iff_settled (s : State ι) : Coherent rt s ↔ Settled rt s := by
  constructor
  · intro h p proc hproc
    rw [settles_iff_delivered]
    exact h p _ (by simp [State.delivered, hproc])
  · intro h p proc hproc
    simp only [State.delivered, Option.map_eq_some_iff] at hproc
    obtain ⟨old, hold, rfl⟩ := hproc
    exact (settles_iff_delivered s.overrides old).mp (h p old hold)

/-! ### Steps -/

theorem validOverride_upsert (hrt : rt.Lawful) (overrides : Overrides) {key : String}
    {value coerced : PyValue} (h : validateRuntimeSetting rt key value = .ok coerced) :
    validOverride rt (overrides.upsert ⟨key, coerced⟩) =
      Function.update (validOverride rt overrides) key (some (.value coerced)) := by
  funext k
  by_cases hk : k = key
  · subst hk
    simp [validOverride, Table.find?_upsert, validateRuntimeSetting_again hrt h, Except.toOption]
  · simp [validOverride, Table.find?_upsert, hk]

theorem validOverride_erase (overrides : Overrides) (key : String) :
    validOverride rt (overrides.erase fun row => row.key = key) =
      Function.update (validOverride rt overrides) key none := by
  funext k
  by_cases hk : k = key
  · subst hk
    simp [validOverride, Table.find?_erase_self]
  · simp [validOverride, Table.find?_erase_other hk, hk]

/-- How many notices are on their way to a process after a publication. -/
def notified (published : Bool) (proc : Process) : Nat :=
  if published = true ∧ proc.listening = true then proc.pending + 1 else proc.pending

theorem le_notified (published : Bool) (proc : Process) : proc.pending ≤ notified published proc := by
  unfold notified
  split <;> omega

theorem processes_committed (s : State ι) (overrides : Overrides) (change : RuntimeSettingChange)
    (published : Bool) (q : ι) : (s.committed overrides change published).processes q =
      (s.processes q).map fun proc => { proc with pending := notified published proc } := by
  cases published with
  | false => simp [State.committed, notified]
  | true =>
    simp only [State.committed, if_true, State.publishReload]
    congr 1
    funext proc
    obtain ⟨env, settings, listening, pending⟩ := proc
    cases listening <;> rfl

theorem overrides_committed (s : State ι) (overrides : Overrides) (change : RuntimeSettingChange)
    (published : Bool) : (s.committed overrides change published).overrides = overrides := by
  cases published <;> rfl

section Step

variable [DecidableEq ι] {s : State ι}

theorem settled_withProcess_iff (h : Settled rt s) (p : ι) (proc : Process) :
    Settled rt (s.withProcess p proc) ↔ Settles (validOverride rt s.overrides) proc.replica := by
  constructor
  · intro hall
    exact hall p proc (Function.update_self ..)
  · intro hproc q other hother
    by_cases hq : q = p
    · subst hq
      simp only [State.withProcess, Function.update_self, Option.some.injEq] at hother
      subst hother
      exact hproc
    · simp only [State.withProcess, Function.update_of_ne hq] at hother
      exact h q other hother

theorem settles_changed_iff {overrides overrides' : Overrides} {key : String} {upper : Option Setting}
    (hupper : validOverride rt overrides' = Function.update (validOverride rt overrides) key upper)
    {proc : Process} (h : Settles (validOverride rt overrides) proc.replica) {n : Nat}
    (hn : proc.pending ≤ n) (value : Setting) :
    Settles (validOverride rt overrides') ⟨proc.env, Function.update proc.settings key value, n⟩ ↔
      Meets upper (proc.env key) n value := by
  rw [hupper]
  exact settles_update_iff h hn key upper value

theorem settled_assign_iff (h : Settled rt s) {p : ι} {proc : Process}
    (hproc : s.processes p = some proc) (key : String) (value : Setting) :
    Settled rt (s.withProcess p (proc.assign key value)) ↔
      Meets (validOverride rt s.overrides key) (proc.env key) proc.pending value := by
  rw [settled_withProcess_iff h]
  exact settles_changed_iff (Function.update_eq_self ..).symm (h p proc hproc) le_rfl value

theorem settled_committed_iff (h : Settled rt s) {p : ι} {proc : Process}
    (hproc : s.processes p = some proc) {key : String} (value : Setting) {overrides : Overrides}
    {upper : Option Setting} (hupper : validOverride rt overrides =
      Function.update (validOverride rt s.overrides) key upper)
    (change : RuntimeSettingChange) (published : Bool) :
    Settled rt ((s.withProcess p (proc.assign key value)).committed overrides change published) ↔
      Meets upper (proc.env key) (notified published proc) value ∧
      ∀ q other, q ≠ p → s.processes q = some other →
        Meets upper (other.env key) (notified published other) (other.settings key) := by
  have hother : ∀ q other, s.processes q = some other →
      (Settles (validOverride rt overrides) ⟨other.env, other.settings, notified published other⟩ ↔
        Meets upper (other.env key) (notified published other) (other.settings key)) := by
    intro q other hq
    rw [← settles_changed_iff hupper (h q other hq) (le_notified published other),
      Function.update_eq_self]
  rw [← settles_changed_iff hupper (h p proc hproc) (le_notified published proc) value]
  constructor
  · intro hall
    constructor
    · have hp := hall p _ (by rw [processes_committed]; simp [State.withProcess]; rfl)
      rwa [overrides_committed] at hp
    · intro q other hq hsome
      have hp := hall q { other with pending := notified published other } (by
        rw [processes_committed]
        simp [State.withProcess, Function.update_of_ne hq, hsome])
      rw [overrides_committed] at hp
      exact (hother q other hsome).mp hp
  · rintro ⟨hp, hothers⟩ q found hfound
    rw [processes_committed, Option.map_eq_some_iff] at hfound
    obtain ⟨old, hold, rfl⟩ := hfound
    rw [overrides_committed]
    by_cases hq : q = p
    · subst hq
      simp only [State.withProcess, Function.update_self, Option.some.injEq] at hold
      subst hold
      exact hp
    · simp only [State.withProcess, Function.update_of_ne hq] at hold
      exact (hother q old hold).mpr (hothers q old hq hold)

theorem meets_some_iff {b : Setting} {base a : Setting} {n : Nat} :
    Meets (some b) base n a ↔ n ≠ 0 ∨ a = b := Iff.rfl

theorem meets_none_iff {base a : Setting} {n : Nat} : Meets none base n a ↔ a = base := Iff.rfl

theorem notified_ne_zero_iff {published : Bool} {proc : Process} : notified published proc ≠ 0 ↔
    (published = true ∧ proc.listening = true) ∨ proc.pending ≠ 0 := by
  unfold notified
  split
  · rename_i hboth
    exact iff_of_true (Nat.succ_ne_zero _) (.inl hboth)
  · rename_i hboth
    exact (or_iff_right hboth).symm

theorem settled_boot (h : Settled rt s) (p : ι) (env : Settings) : Settled rt (s.boot rt p env) := by
  rw [State.boot, settled_withProcess_iff h, loadAndApplyOverrides_eq]
  exact settles_start ..

theorem settled_subscribe (h : Settled rt s) {p : ι} {proc : Process}
    (hproc : s.processes p = some proc) :
    Settled rt (s.withProcess p { proc with listening := true }) := by
  rw [settled_withProcess_iff h]
  exact h p proc hproc

/-- A notice that arrives keeps the processes right, unless it is the last one of a process
    that is not right yet, and the read of the overrides fails. -/
theorem settled_deliver_iff (h : Settled rt s) {p : ι} {proc : Process}
    (hproc : s.processes p = some proc) (reads : Bool) :
    Settled rt (nextIn rt s proc (.deliver p reads)) ↔ Keeps rt s (.deliver p reads) := by
  have hsettles := h p proc hproc
  simp only [nextIn, Keeps, hproc, Option.some.injEq, forall_eq']
  by_cases hnone : proc.pending = 0
  · rw [if_pos hnone]
    exact iff_of_true h fun _ hone => absurd hone (by omega)
  · rw [if_neg hnone]
    cases reads with
    | true =>
      rw [if_pos rfl, settled_withProcess_iff h, replica_reload]
      exact iff_of_true (settles_reload hsettles hnone) nofun
    | false =>
      rw [if_neg Bool.false_ne_true, settled_withProcess_iff h]
      have hlost := settles_lost_iff hsettles hnone
      exact hlost.trans (imp_iff_right rfl).symm

/-- A write keeps the processes right iff the change of its process is committed or was
    right, and every other process learns of a committed one or has the value. -/
theorem settled_set_iff (hrt : rt.Lawful) (h : Settled rt s) {p : ι} {proc : Process}
    (hproc : s.processes p = some proc) (key : String) (value : PyValue) (user : Option String)
    (fault : Option Fault) :
    Settled rt (nextIn rt s proc (.set p key value user fault)) ↔
      Keeps rt s (.set p key value user fault) := by
  simp only [nextIn, setOverride, Keeps, hproc, Option.some.injEq]
  cases hvalid : validateRuntimeSetting rt key value with
  | error message => exact iff_of_true h nofun
  | ok coerced =>
    simp only [Except.ok.injEq]
    have hcommitted := settled_committed_iff h hproc (.value coerced)
      (validOverride_upsert hrt s.overrides hvalid)
      ⟨key, getOne s.overrides key, coerced, user⟩ (decide (fault = none))
    simp only [meets_some_iff, notified_ne_zero_iff, or_true, true_and, decide_eq_true_eq,
      or_assoc] at hcommitted
    cases fault with
    | none => simpa [Commits] using hcommitted
    | some fault =>
      cases fault with
      | store => simpa [Commits] using h
      | commit => simpa [Commits] using settled_assign_iff h hproc key (.value coerced)
      | publish => simpa [Commits] using hcommitted

/-- A clear keeps the processes right iff it removes nothing, or the change of its process
    is not committed and was right, or every environment has what the process has then. -/
theorem settled_clear_iff (h : Settled rt s) {p : ι} {proc : Process}
    (hproc : s.processes p = some proc) (key : String) (user : Option String)
    (fault : Option Fault) :
    Settled rt (nextIn rt s proc (.clear p key user fault)) ↔
      Keeps rt s (.clear p key user fault) := by
  simp only [nextIn, clearOverride, Keeps, hproc, Option.some.injEq]
  cases hspec : specOf key with
  | none => simpa using h
  | some spec =>
    simp only [Option.some.injEq]
    have hcommitted := settled_committed_iff h hproc (envDefault spec)
      (validOverride_erase s.overrides key) ⟨key, getOne s.overrides key, .none, user⟩
      (decide (fault = none))
    simp only [meets_none_iff] at hcommitted
    cases hrow : s.overrides.find? key with
    | none =>
      refine iff_of_true ?_ fun _ _ _ _ hsome => absurd rfl hsome
      by_cases hstore : fault = some .store <;> simpa [hstore] using h
    | some row =>
      cases fault with
      | none => simpa [Commits] using hcommitted
      | some fault =>
        cases fault with
        | store => simpa [Commits] using h
        | commit => simpa [Commits] using settled_assign_iff h hproc key (envDefault spec)
        | publish => simpa [Commits] using hcommitted

theorem coherent_next_iff (hrt : rt.Lawful) (s : State ι) (step : Step ι) (h : Coherent rt s) :
    Coherent rt (next rt s step) ↔ Keeps rt s step := by
  rw [coherent_iff_settled] at h ⊢
  unfold next
  cases hproc : s.processes step.process with
  | none =>
    cases step with
    | boot p env => exact iff_of_true (settled_boot h p env) trivial
    | subscribe p => exact iff_of_true h trivial
    | set p key value user fault => exact iff_of_true h fun _ _ hsome => absurd (hproc.symm.trans hsome) nofun
    | clear p key user fault => exact iff_of_true h fun _ _ hsome => absurd (hproc.symm.trans hsome) nofun
    | deliver p reads => exact iff_of_true h fun _ hsome => absurd (hproc.symm.trans hsome) nofun
  | some proc =>
    cases step with
    | boot p env => exact iff_of_true (settled_boot h p env) trivial
    | subscribe p => exact iff_of_true (settled_subscribe h hproc) trivial
    | set p key value user fault => exact settled_set_iff hrt h hproc key value user fault
    | clear p key user fault => exact settled_clear_iff h hproc key user fault
    | deliver p reads => exact settled_deliver_iff h hproc reads

/-- From stored overrides on, before any process has started: at every point of a run, each
    process gets what its environment and the stored overrides make of each key, iff every
    step of the run meets the condition. -/
theorem coherent_iff_keeps (hrt : rt.Lawful) (s : State ι) (hnone : ∀ p, s.processes p = none)
    (run : List (Step ι)) :
    (∀ s' ∈ states (next rt) s run, Coherent rt s') ↔ Throughout (next rt) (Keeps rt) s run := by
  apply forall_states_iff (next rt) (coherent_next_iff hrt)
  intro p proc hproc
  simp [State.delivered, hnone] at hproc

end Step

/-! ### An override that is cleared -/

/-- A validator for numbers, flags and texts without a pattern. -/
def plainValidated (spec : RuntimeFieldSpec) (value : PyValue) : Except String PyValue :=
  match spec.fieldType, value with
  | .int, .int n =>
      if (∀ low ∈ spec.fieldConstraints.ge, low ≤ n) ∧ (∀ high ∈ spec.fieldConstraints.le, n ≤ high)
      then .ok (.int n) else .error "Input is out of range"
  | .bool, .bool b => .ok (.bool b)
  | .str, .str s => if spec.fieldConstraints.pattern = none then .ok (.str s)
      else .error "String should match pattern"
  | .stringList, .list items => .ok (.list items)
  | _, _ => .error "Input should be of the type of the field"

def plainRuntime : SettingsRuntime := ⟨id, fun _ => "None", fun s => "'" ++ s ++ "'", plainValidated⟩

theorem plainValidated_kept {spec : RuntimeFieldSpec} {v w : PyValue}
    (h : plainValidated spec v = .ok w) : w = v := by
  unfold plainValidated at h
  split at h
  · split at h <;> cases h
    rfl
  · cases h
    rfl
  · split at h <;> cases h
    rfl
  · cases h
    rfl
  · cases h

theorem plainRuntime_lawful : plainRuntime.Lawful where
  lower_lower _ := rfl
  strip_lower := strip_strip
  lower_ne _ h := h
  validated_again spec v w h := by
    have hkept := plainValidated_kept h
    subst hkept
    exact h
  text_kept spec _ v w h := plainValidated_kept h

/-- Nothing is stored and nothing runs. -/
def freshInstall : State String := ⟨.empty, [], fun _ => none⟩

/-- Tokens live for 45 minutes in each environment. -/
def envSettings : Settings := fun _ => .value (.int 45)

def started : List (Step String) :=
  [.boot "api" envSettings, .boot "worker" envSettings, .subscribe "api", .subscribe "worker"]

/-- A write whose notice reaches both processes. -/
def shortened : List (Step String) :=
  started ++ [.set "api" "access_token_ttl_minutes" (.int 5) none none,
    .deliver "api" true, .deliver "worker" true]

/-- The same, and then a clear whose notice reaches both. -/
def shortenedAndCleared : List (Step String) :=
  shortened ++ [.clear "api" "access_token_ttl_minutes" none none,
    .deliver "api" true, .deliver "worker" true]

theorem coherent_iff_keeps_shortened :
    (∀ s' ∈ states (next plainRuntime) freshInstall shortened, Coherent plainRuntime s') ↔
      Throughout (next plainRuntime) (Keeps plainRuntime) freshInstall shortened :=
  coherent_iff_keeps plainRuntime_lawful freshInstall (fun _ => rfl) shortened

def settingIn (s : State String) (p : String) : Option Setting :=
  (s.processes p).map fun proc => proc.settings "access_token_ttl_minutes"

/-- The notices are all delivered, nothing is stored, and neither process has what it
    resolved from its environment. -/
theorem cleared_override_stays :
    let s := final (next plainRuntime) freshInstall shortenedAndCleared
    (s.processes "api").map (·.pending) = some 0 ∧
    (s.processes "worker").map (·.pending) = some 0 ∧
    validOverride plainRuntime s.overrides "access_token_ttl_minutes" = none ∧
    settingIn s "api" = some (.value (.int 30)) ∧
    settingIn s "worker" = some (.value (.int 5)) ∧
    ¬Coherent plainRuntime s := by
  intro s
  have hnothing : validOverride plainRuntime s.overrides "access_token_ttl_minutes" = none := by rfl
  refine ⟨by rfl, by rfl, hnothing, by rfl, by rfl, fun hcoherent => ?_⟩
  have hworker : ((s.delivered plainRuntime).processes "worker").map (fun proc =>
      (proc.settings "access_token_ttl_minutes", proc.env "access_token_ttl_minutes")) =
        some (.value (.int 5), .value (.int 45)) := by rfl
  obtain ⟨proc, hproc, hvalues⟩ := Option.map_eq_some_iff.mp hworker
  have hright := hcoherent "worker" proc hproc "access_token_ttl_minutes"
  rw [hnothing, Option.getD_none, (Prod.mk.inj hvalues).1, (Prod.mk.inj hvalues).2] at hright
  cases hright

end RuntimeSettings
