/-
  Auditarr/SettingsHistory.lean
  =============================
  **The audit log of the setting overrides** (`app/services/runtime_settings.py`:
  `set_override`, `clear_override`; `app/services/repositories/runtime_settings.py`).

  Each call that changes an override writes a row into `runtime_setting_changes` in the same
  transaction.  Whatever calls processes make one after another, and wherever they fail, the rows
  account for the overrides: there is one for each change, they replay to what is stored, and
  taken back from the newest they lead to what was stored before.  Calls that overlap are left
  out: each reads the previous value before it waits for its write.
-/
import Auditarr.Journal
import Auditarr.RuntimeSettings

namespace SettingsHistory

open KeyedTable PyValues SettingsSchema RuntimeSettings Runs Journal

universe u

variable {ι : Type u} {rt : SettingsRuntime}

/-- A row of the log as a write to the overrides, where no override is `None`. -/
def entry (change : RuntimeSettingChange) : Entry String PyValue :=
  ⟨change.key, change.prevValue, change.nextValue⟩

section Calls

variable [DecidableEq ι]

/-- Whether a step answers a request that it has changed an override. -/
def changes (rt : SettingsRuntime) (s : State ι) (step : Step ι) : Bool :=
  match s.processes step.process with
  | none => false
  | some proc => match step with
    | .set p key value user fault => (setOverride rt p proc key value user fault s).1.isOk
    | .clear p key user fault => match (clearOverride rt p proc key user fault s).1 with
      | .ok removed => removed
      | .error _ => false
    | _ => false

end Calls

/-- The stored overrides pass the validation that they are loaded with. -/
def AllValid (rt : SettingsRuntime) (overrides : Overrides) : Prop :=
  ∀ row ∈ overrides, validateRuntimeSetting rt row.key row.value = .ok row.value

/-- What a step does to the log and the overrides. -/
structure Logged (rt : SettingsRuntime) (s s' : State ι) (changed : Bool) : Prop where
  log : ∃ written, s'.changes = s.changes ++ written ∧ written.length = changed.toNat ∧
    Records (getOne s.overrides) (written.map entry) (getOne s'.overrides)
  valid : rt.Lawful → AllValid rt s.overrides → AllValid rt s'.overrides

theorem Logged.of_same {s s' : State ι} (hchanges : s'.changes = s.changes)
    (hoverrides : s'.overrides = s.overrides) : Logged rt s s' false :=
  ⟨⟨[], by simp [hchanges], rfl, by simpa [hoverrides] using Records.refl _⟩,
    fun _ h => hoverrides ▸ h⟩

/-! ### What is stored -/

theorem getOne_upsert (overrides : Overrides) (key : String) (value : PyValue) :
    getOne (overrides.upsert ⟨key, value⟩) = Function.update (getOne overrides) key value := by
  funext k
  by_cases hk : k = key
  · subst hk
    simp [getOne, Table.find?_upsert]
  · simp [getOne, Table.find?_upsert, hk]

theorem getOne_erase (overrides : Overrides) (key : String) :
    getOne (overrides.erase fun row => row.key = key) =
      Function.update (getOne overrides) key .none := by
  funext k
  by_cases hk : k = key
  · subst hk
    simp [getOne, Table.find?_erase_self]
  · simp [getOne, Table.find?_erase_other hk, hk]

theorem allValid_upsert {overrides : Overrides} (hrt : rt.Lawful) (h : AllValid rt overrides)
    {key : String} {value coerced : PyValue}
    (hvalid : validateRuntimeSetting rt key value = .ok coerced) :
    AllValid rt (overrides.upsert ⟨key, coerced⟩) := by
  intro row hrow
  rcases Table.mem_upsert.mp hrow with rfl | ⟨hold, -⟩
  · exact validateRuntimeSetting_again hrt hvalid
  · exact h row hold

/-! ### Steps -/

theorem changes_committed (s : State ι) (overrides : Overrides) (change : RuntimeSettingChange)
    (published : Bool) :
    (s.committed overrides change published).changes = s.changes ++ [change] := by
  cases published <;> rfl

theorem logged_committed (s applied : State ι) (happlied : applied.changes = s.changes)
    {overrides : Overrides} {key : String} {value : PyValue} {user : Option String}
    (hstored : getOne overrides = Function.update (getOne s.overrides) key value)
    (hvalid : rt.Lawful → AllValid rt s.overrides → AllValid rt overrides) (published : Bool) :
    Logged rt s (applied.committed overrides ⟨key, getOne s.overrides key, value, user⟩ published)
      true := by
  constructor
  · refine ⟨_, (changes_committed ..).trans (congrArg (· ++ _) happlied), rfl, ?_⟩
    rw [overrides_committed, hstored]
    exact Records.concat (e := ⟨key, _, value⟩) (Records.refl _) rfl
  · rw [overrides_committed]
    exact hvalid

variable [DecidableEq ι]

theorem logged_set (p : ι) (proc : Process) (key : String) (value : PyValue)
    (user : Option String) (fault : Option Fault) (s : State ι) :
    Logged rt s (setOverride rt p proc key value user fault s).2
      (setOverride rt p proc key value user fault s).1.isOk := by
  unfold setOverride
  split
  · exact .of_same rfl rfl
  · rename_i coerced hvalid
    split
    · exact .of_same rfl rfl
    · split
      · exact .of_same rfl rfl
      · change Logged rt s (State.committed ..) true
        refine logged_committed s (s.withProcess ..) rfl (getOne_upsert ..) (fun hrt hall => ?_) _
        exact allValid_upsert hrt hall hvalid

theorem logged_clear (p : ι) (proc : Process) (key : String) (user : Option String)
    (fault : Option Fault) (s : State ι) :
    Logged rt s (clearOverride rt p proc key user fault s).2
      (match (clearOverride rt p proc key user fault s).1 with
      | .ok removed => removed
      | .error _ => false) := by
  unfold clearOverride
  split
  · exact .of_same rfl rfl
  · split
    · exact .of_same rfl rfl
    · split
      · exact .of_same rfl rfl
      · dsimp only
        split
        · exact .of_same rfl rfl
        · change Logged rt s (State.committed ..) true
          refine logged_committed s (s.withProcess ..) rfl (getOne_erase ..) ?_ _
          exact fun _ hall row hrow => hall row (Table.mem_erase.mp hrow).1

theorem logged_next (rt : SettingsRuntime) (s : State ι) (step : Step ι) :
    Logged rt s (next rt s step) (changes rt s step) := by
  unfold next changes
  cases s.processes step.process with
  | none =>
    cases step <;> exact .of_same rfl rfl
  | some proc =>
    cases step with
    | set p key value user fault => exact logged_set ..
    | clear p key user fault => exact logged_clear ..
    | boot p env => exact .of_same rfl rfl
    | subscribe p => exact .of_same rfl rfl
    | deliver p reads =>
      simp only [nextIn]
      split
      · exact .of_same rfl rfl
      · split <;> exact .of_same rfl rfl

/-! ### Runs -/

theorem logged_final (rt : SettingsRuntime) (s : State ι) (run : List (Step ι)) :
    ∃ written, (final (next rt) s run).changes = s.changes ++ written ∧
      written.length = total (next rt) (fun s step => (changes rt s step).toNat) s run ∧
      Records (getOne s.overrides) (written.map entry)
        (getOne (final (next rt) s run).overrides) := by
  induction run generalizing s with
  | nil => exact ⟨[], (List.append_nil _).symm, rfl, .refl _⟩
  | cons step rest ih =>
    obtain ⟨first, hfirst, hone, hrecords⟩ := (logged_next rt s step).log
    obtain ⟨later, hlater, hcount, hrecords'⟩ := ih (next rt s step)
    refine ⟨first ++ later, ?_, ?_, ?_⟩
    · exact hlater.trans (by rw [hfirst, List.append_assoc])
    · rw [List.length_append, hone, hcount, total]
    · rw [List.map_append]
      exact hrecords.append hrecords'

/-- The rows that any run of calls and reloads, none of them within another, adds to the log are
    as many as the calls that answered that they changed an override; they replay to the stored
    overrides, and taken back from the newest lead to those before; under each key a row's
    previous value is what the row before it wrote, the newest having written what is stored.
    And what is stored is valid, if it was. -/
theorem history_explains (hrt : rt.Lawful) (s : State ι) (run : List (Step ι)) :
    let s' := final (next rt) s run
    (AllValid rt s.overrides → AllValid rt s'.overrides) ∧
    ∃ written, s'.changes = s.changes ++ written ∧
      written.length = total (next rt) (fun s step => (changes rt s step).toNat) s run ∧
      (written.map entry).foldl (fun stored e => e.write stored) (getOne s.overrides) =
        getOne s'.overrides ∧
      (written.map entry).foldr Entry.revert (getOne s'.overrides) = getOne s.overrides ∧
      ∀ key, getOne s.overrides key :: (under key (written.map entry)).map Entry.after =
        (under key (written.map entry)).map Entry.before ++ [getOne s'.overrides key] := by
  intro s'
  constructor
  · exact final_invariant (next rt)
      (fun step _ t (ht : AllValid rt t.overrides) => (logged_next rt t step).valid hrt ht)
  · obtain ⟨written, hlog, hcount, hrecords⟩ := logged_final rt s run
    exact ⟨written, hlog, hcount, hrecords.replayed, hrecords.reverted, hrecords.chained⟩

/-- A write that is refused, one whose commit fails, a write and its clear. -/
def refusedWrittenCleared : List (Step String) :=
  started ++ [.set "api" "access_token_ttl_minutes" (.str "soon") (some "admin") none,
    .set "api" "access_token_ttl_minutes" (.int 5) (some "admin") (some .commit),
    .set "api" "access_token_ttl_minutes" (.int 5) (some "admin") none,
    .clear "worker" "access_token_ttl_minutes" (some "admin") (some .publish)]

theorem history_explains_refused :
    let s' := final (next plainRuntime) freshInstall refusedWrittenCleared
    AllValid plainRuntime s'.overrides ∧
    ∃ written, s'.changes = [] ++ written ∧
      written.length = total (next plainRuntime)
        (fun s step => (changes plainRuntime s step).toNat) freshInstall refusedWrittenCleared ∧
      (written.map entry).foldl (fun stored e => e.write stored) (getOne freshInstall.overrides) =
        getOne s'.overrides ∧
      (written.map entry).foldr Entry.revert (getOne s'.overrides) =
        getOne freshInstall.overrides ∧
      ∀ key, getOne freshInstall.overrides key ::
          (under key (written.map entry)).map Entry.after =
        (under key (written.map entry)).map Entry.before ++ [getOne s'.overrides key] := by
  obtain ⟨hvalid, haccounts⟩ :=
    history_explains plainRuntime_lawful freshInstall refusedWrittenCleared
  exact ⟨hvalid fun row hrow => absurd hrow (Table.not_mem_empty row), haccounts⟩

end SettingsHistory
