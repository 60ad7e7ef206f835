/-
  Auditarr/AiBudget.lean
  ======================
  **The daily budget of an AI provider** (`app/services/ai/suggestions.py`: `generate`,
  `_calls_today`, `_record_call_audit`).

  A call of `generate` reads its budget from the audit rows of the last 24 hours, calls the
  provider, writes an audit row of its own, and commits it.  Calls overlap, so between the
  read and the commit other reads do not see it; and a call that fails after the provider was
  asked leaves no row at all.

  `budget_along_runs` says of which reads the bound depends: those that find room where, with
  the calls they do not see, there is none.
-/
import Auditarr.Runs
import Auditarr.PlaybackPoller
import Mathlib.Data.List.Basic

namespace AiBudget

open PlaybackPoller (Timestamp seconds)

/-! ### Calls of `generate` -/

/-- The row of a call in the audit log: `occurred_at`, and the `status` of its metadata. -/
structure CallRow where
  occurredAt : Timestamp
  ok : Bool
deriving DecidableEq

/-- How far a call has come. -/
inductive Phase where
  /-- The budget read found room. -/
  | admitted
  /-- The provider was asked. -/
  | calling (startedAt : Timestamp)
  /-- It answered or failed, and the audit row is flushed. -/
  | recorded (startedAt : Timestamp) (row : CallRow)
  | committed (startedAt : Timestamp) (row : CallRow)
  /-- Its session was rolled back, whether or not the provider had been asked. -/
  | dropped (startedAt : Option Timestamp)
deriving DecidableEq

def Phase.startedAt : Phase → Option Timestamp
  | .admitted => none
  | .calling startedAt | .recorded startedAt _ | .committed startedAt _ => some startedAt
  | .dropped startedAt => startedAt

/-- The row that other sessions see. -/
def Phase.row : Phase → Option CallRow
  | .committed _ row => some row
  | _ => none

structure GenerateCall where
  /-- When the budget was read. -/
  readAt : Timestamp
  phase : Phase
deriving DecidableEq

/-- The clock, the rows of earlier days and the calls admitted since, for one integration. -/
structure State where
  now : Timestamp
  earlier : List CallRow
  calls : List GenerateCall

def day : Timestamp := seconds (24 * 3600)

/-- `_calls_today`. -/
def callsToday (s : State) : Nat :=
  (s.earlier ++ s.calls.filterMap (·.phase.row)).countP fun row => s.now - day ≤ row.occurredAt

inductive Step where
  | wait (duration : Nat)
  | read
  | call (i : Nat)
  /-- `_record_call_audit`, after an answer or an exception of the provider. -/
  | record (i : Nat) (ok : Bool)
  | commit (i : Nat)
  | rollback (i : Nat)

/-- What a step makes of the phase of a call; `none` where the call is not there yet. -/
def advance (now : Timestamp) : Step → Phase → Option Phase
  | .call _, .admitted => some (.calling now)
  | .record _ ok, .calling startedAt => some (.recorded startedAt ⟨now, ok⟩)
  | .commit _, .recorded startedAt row => some (.committed startedAt row)
  | .rollback _, .admitted => some (.dropped none)
  | .rollback _, .calling startedAt => some (.dropped (some startedAt))
  | .rollback _, .recorded startedAt _ => some (.dropped (some startedAt))
  | _, _ => none

/-- The call that a step is about. -/
def Step.index : Step → Nat
  | .call i | .record i _ | .commit i | .rollback i => i
  | .wait _ | .read => 0

/-- `daily_call_budget` as it is configured. -/
abbrev Budget := Int

def next (budget : Budget) (s : State) (step : Step) : State :=
  match step with
  | .wait duration => { s with now := s.now + duration }
  | .read =>
      if (callsToday s : Int) < budget then { s with calls := s.calls ++ [⟨s.now, .admitted⟩] }
      else s
  | step =>
      match s.calls[step.index]? with
      | none => s
      | some call =>
          match advance s.now step call.phase with
          | none => s
          | some phase => { s with calls := s.calls.set step.index { call with phase := phase } }

/-! ### The bound -/

/-- When the provider was asked. -/
def starts (s : State) : List Timestamp := s.calls.filterMap (·.phase.startedAt)

/-- No interval of 24 hours sees more provider calls than the budget. -/
def WithinBudget (budget : Budget) (s : State) : Prop :=
  ∀ t : Timestamp, (starts s).countP (fun startedAt => t ≤ startedAt ∧ startedAt ≤ t + day) ≤
    budget.toNat

/-- The call has asked the provider in the 24 hours before `now`, or is still going to. -/
def weighs (now : Timestamp) (call : GenerateCall) : Bool :=
  match call.phase with
  | .admitted => true
  | phase => phase.startedAt.any fun startedAt => now - day ≤ startedAt

/-- The calls that a budget read ought to count. -/
def load (s : State) : Nat := s.calls.countP (weighs s.now)

/-- A read that finds room would find room with all of them. -/
def Meets (budget : Budget) (s : State) : Step → Prop
  | .read => (callsToday s : Int) < budget → (load s : Int) < budget
  | _ => True

instance (budget : Budget) (s : State) : (step : Step) → Decidable (Meets budget s step)
  | .read => inferInstanceAs (Decidable (_ < _ → _ < _))
  | .wait _ | .call _ | .record _ _ | .commit _ | .rollback _ => isTrue trivial

/-! ### The invariant -/

/-- The times of a call are in order, and none is in the future. -/
def Timely (now : Timestamp) (call : GenerateCall) : Prop :=
  call.readAt ≤ now ∧ match call.phase with
    | .admitted => True
    | .calling startedAt => call.readAt ≤ startedAt ∧ startedAt ≤ now
    | .recorded startedAt row | .committed startedAt row =>
        call.readAt ≤ startedAt ∧ startedAt ≤ row.occurredAt
    | .dropped startedAt => ∀ t ∈ startedAt, call.readAt ≤ t

/-- When a call was read, there was room for it among the calls before it, as far as they still
    weigh. -/
structure Fits (budget : Budget) (s : State) : Prop where
  timely : ∀ call ∈ s.calls, Timely s.now call
  room : ∀ (j : Nat) (call : GenerateCall), s.calls[j]? = some call →
    (s.calls.take j).countP (weighs call.readAt) < budget.toNat

theorem Timely.read_le {now : Timestamp} {call : GenerateCall} (h : Timely now call) :
    ∀ startedAt ∈ call.phase.startedAt, call.readAt ≤ startedAt := by
  obtain ⟨readAt, phase⟩ := call
  intro startedAt hstarted
  cases phase with
  | admitted => cases hstarted
  | calling t => exact Option.some.inj hstarted ▸ h.2.1
  | recorded t row => exact Option.some.inj hstarted ▸ h.2.1
  | committed t row => exact Option.some.inj hstarted ▸ h.2.1
  | dropped t => exact h.2 startedAt hstarted

theorem Timely.later {now later : Timestamp} {call : GenerateCall} (h : Timely now call)
    (hle : now ≤ later) : Timely later call := by
  obtain ⟨readAt, phase⟩ := call
  refine ⟨Int.le_trans h.1 hle, ?_⟩
  cases phase with
  | calling t => exact ⟨h.2.1, Int.le_trans h.2.2 hle⟩
  | _ => exact h.2

variable {budget : Budget} {s : State}

theorem countP_window_le {calls : List GenerateCall} {cap : Nat} {t : Timestamp}
    (hread : ∀ call ∈ calls, ∀ startedAt ∈ call.phase.startedAt, call.readAt ≤ startedAt)
    (hroom : ∀ (j : Nat) (call : GenerateCall), calls[j]? = some call →
      (calls.take j).countP (weighs call.readAt) < cap) :
    calls.countP (fun call => call.phase.startedAt.any fun startedAt =>
      t ≤ startedAt ∧ startedAt ≤ t + day) ≤ cap := by
  induction calls using List.reverseRecOn with
  | nil => exact Nat.zero_le _
  | append_singleton before last ih =>
    have hinit : before.countP (fun call => call.phase.startedAt.any fun startedAt =>
        t ≤ startedAt ∧ startedAt ≤ t + day) ≤ cap := by
      refine ih (fun call hcall => hread call (List.mem_append_left _ hcall)) fun j call hj => ?_
      have hlt := (List.getElem?_eq_some_iff.mp hj).1
      have hlast := hroom j call (by rw [List.getElem?_append_left hlt]; exact hj)
      rwa [List.take_append_of_le_length (Nat.le_of_lt hlt)] at hlast
    rw [List.countP_append, List.countP_singleton]
    split
    · next hwindow =>
      obtain ⟨startedAt, hstarted, hlow, hhigh⟩ : ∃ startedAt,
          last.phase.startedAt = some startedAt ∧ t ≤ startedAt ∧ startedAt ≤ t + day := by
        cases hphase : last.phase.startedAt with
        | none => rw [hphase] at hwindow; cases hwindow
        | some startedAt => rw [hphase] at hwindow; exact ⟨startedAt, rfl, by simpa using hwindow⟩
      have hbefore := hread last (by simp) startedAt hstarted
      have hlast := hroom before.length last (by simp)
      rw [List.take_left' rfl] at hlast
      refine Nat.succ_le_of_lt (Nat.lt_of_le_of_lt (List.countP_mono_left fun call _ hcall => ?_)
        hlast)
      cases hphase : call.phase with
      | admitted => rw [weighs, hphase]
      | _ =>
        rw [hphase] at hcall
        simp only [weighs, hphase, Phase.startedAt, Option.any_some, Option.any_eq_true,
          decide_eq_true_eq] at hcall ⊢
        grind
    · exact hinit

theorem Fits.withinBudget (h : Fits budget s) : WithinBudget budget s := by
  intro t
  refine Nat.le_trans (Nat.le_of_eq ?_)
    (countP_window_le (t := t) (fun call hcall => (h.timely call hcall).read_le) h.room)
  rw [starts, List.countP_filterMap]
  refine List.countP_congr fun call _ => ?_
  cases call.phase.startedAt <;> rfl

theorem Timely.advance {now : Timestamp} {step : Step} {call : GenerateCall} {phase : Phase}
    (h : Timely now call) (hadvance : AiBudget.advance now step call.phase = some phase) :
    Timely now { call with phase := phase } ∧
      ∀ t, weighs t { call with phase := phase } = true → weighs t call = true := by
  obtain ⟨readAt, old⟩ := call
  obtain ⟨hread, htimes⟩ := h
  cases step <;> cases old <;> simp only [AiBudget.advance, reduceCtorEq, Option.some.injEq]
    at hadvance
  all_goals
    subst hadvance
    simp_all [Timely, weighs, Phase.startedAt]

theorem Fits.set (h : Fits budget s) {i : Nat} {call : GenerateCall} {phase : Phase}
    (hcall : s.calls[i]? = some call) (htimely : Timely s.now { call with phase := phase })
    (hweighs : ∀ t, weighs t { call with phase := phase } = true → weighs t call = true) :
    Fits budget { s with calls := s.calls.set i { call with phase := phase } } := by
  refine ⟨fun other hother => ?_, fun j other hj => ?_⟩
  · rcases List.mem_or_eq_of_mem_set hother with hold | rfl
    · exact h.timely other hold
    · exact htimely
  · have hold : ∃ old, s.calls[j]? = some old ∧ old.readAt = other.readAt := by
      rw [List.getElem?_set] at hj
      split at hj
      · next heq =>
        subst heq
        split at hj
        · exact ⟨call, hcall, by rw [← Option.some.inj hj]⟩
        · cases hj
      · exact ⟨other, hj, rfl⟩
    obtain ⟨old, hold, hread⟩ := hold
    have hroom := h.room j old hold
    rw [hread] at hroom
    refine Nat.lt_of_le_of_lt ?_ hroom
    show ((s.calls.set i { call with phase := phase }).take j).countP _ ≤ _
    rw [List.take_set]
    by_cases hlt : i < (s.calls.take j).length
    · have hat : (s.calls.take j)[i] = call := by
        rw [List.getElem_take]
        exact (List.getElem?_eq_some_iff.mp hcall).2
      rw [List.countP_set hlt, hat]
      have hpos : weighs other.readAt call = true → 0 < (s.calls.take j).countP
          (weighs other.readAt) := fun hw =>
        List.countP_pos_iff.mpr ⟨call, hat ▸ List.getElem_mem hlt, hw⟩
      have himp := hweighs other.readAt
      split <;> split <;> grind
    · rw [List.set_eq_of_length_le (Nat.le_of_not_lt hlt)]

theorem Fits.advanced (h : Fits budget s) (step : Step) :
    Fits budget (match s.calls[step.index]? with
      | none => s
      | some call =>
          match advance s.now step call.phase with
          | none => s
          | some phase =>
              { s with calls := s.calls.set step.index { call with phase := phase } }) := by
  cases hcall : s.calls[step.index]? with
  | none => exact h
  | some call =>
    cases hadvance : advance s.now step call.phase with
    | none => simpa only [hadvance] using h
    | some phase =>
      simp only [hadvance]
      obtain ⟨htimely, hweighs⟩ := (h.timely call (List.mem_of_getElem? hcall)).advance hadvance
      exact h.set hcall htimely hweighs

theorem Fits.admit (h : Fits budget s) (hload : (load s : Int) < budget) :
    Fits budget { s with calls := s.calls ++ [⟨s.now, .admitted⟩] } := by
  refine ⟨fun call hcall => ?_, fun j call hj => ?_⟩
  · rcases List.mem_append.mp hcall with hold | hnew
    · exact h.timely call hold
    · rw [List.mem_singleton.mp hnew]
      exact ⟨Int.le_refl _, trivial⟩
  · show ((s.calls ++ [_]).take j).countP _ < _
    rcases Nat.lt_or_ge j s.calls.length with hlt | hge
    · rw [List.take_append_of_le_length (Nat.le_of_lt hlt)]
      refine h.room j call ?_
      rwa [List.getElem?_append_left hlt] at hj
    · obtain rfl : j = s.calls.length := by
        have hbound := (List.getElem?_eq_some_iff.mp hj).1
        simp at hbound
        omega
      obtain rfl : ⟨s.now, .admitted⟩ = call := by simpa using hj
      rw [List.take_left' rfl]
      show load s < budget.toNat
      omega

theorem Fits.next (h : Fits budget s) {step : Step} (hmeets : Meets budget s step) :
    Fits budget (next budget s step) := by
  cases step with
  | wait duration =>
    exact ⟨fun call hcall => (h.timely call hcall).later
      (Int.le_add_of_nonneg_right (Int.natCast_nonneg duration)), h.room⟩
  | read =>
    unfold AiBudget.next
    simp only []
    split
    · next hroom => exact h.admit (hmeets hroom)
    · exact h
  | call i => exact h.advanced (.call i)
  | record i ok => exact h.advanced (.record i ok)
  | commit i => exact h.advanced (.commit i)
  | rollback i => exact h.advanced (.rollback i)

theorem Fits.start (now : Timestamp) (earlier : List CallRow) :
    Fits budget ⟨now, earlier, []⟩ :=
  ⟨fun _ hnone => (List.not_mem_nil hnone).elim, fun j call hnone => by simp at hnone⟩

/-- **The budget.**  In every interleaving of calls whose budget reads, where they find room,
    would find room with every call of the last 24 hours and every call still to ask the
    provider, no interval of 24 hours sees more provider calls than the budget. -/
theorem budget_along_runs (budget : Budget) (now : Timestamp) (earlier : List CallRow) (s : State)
    (hs : Runs.Admitted (fun s step s' => s' = next budget s step) (Meets budget)
      ⟨now, earlier, []⟩ s) : WithinBudget budget s := by
  refine (hs.invariant (I := Fits budget) (Fits.start now earlier)
    fun s step s' h hmeets hstep => ?_).withinBudget
  rw [hstep]
  exact h.next hmeets

/-! ### Calls one at a time -/

/-- Every call is over: its row is committed, or it never asked the provider. -/
def Over (s : State) : Prop :=
  ∀ call ∈ s.calls, call.phase = .dropped none ∨
    ∃ startedAt row, call.phase = .committed startedAt row

theorem load_le_callsToday (h : Fits budget s) (hover : Over s) : load s ≤ callsToday s := by
  rw [load, callsToday, List.countP_append, List.countP_filterMap]
  refine Nat.le_trans (List.countP_mono_left fun call hcall hweighs => ?_) (Nat.le_add_left _ _)
  have htimely := (h.timely call hcall).2
  rcases hover call hcall with hdropped | ⟨startedAt, row, hcommitted⟩
  · simp [weighs, hdropped, Phase.startedAt] at hweighs
  · rw [hcommitted] at htimely
    simp only [weighs, hcommitted, Phase.startedAt, Option.any_some, decide_eq_true_eq] at hweighs
    simp only [hcommitted, Phase.row, Option.map_some, Option.getD_some, decide_eq_true_eq]
    exact Int.le_trans hweighs htimely.2

theorem budget_one_at_a_time (budget : Budget) (now : Timestamp) (earlier : List CallRow)
    (s : State)
    (hs : Runs.Admitted (fun s step s' => s' = next budget s step)
      (fun s step => step = .read → Over s) ⟨now, earlier, []⟩ s) : WithinBudget budget s := by
  refine (hs.invariant (I := Fits budget) (Fits.start now earlier)
    fun s step s' h hover hstep => ?_).withinBudget
  rw [hstep]
  refine h.next ?_
  cases step with
  | read =>
    intro hroom
    have hload := load_le_callsToday h (hover rfl)
    omega
  | _ => trivial

/-! A budget of one call, read twice before the first call is made. -/

theorem two_reads_one_call :
    ¬ ∀ (budget : Budget) (now : Timestamp) (earlier : List CallRow) (run : List Step),
      WithinBudget budget (Runs.final (next budget) ⟨now, earlier, []⟩ run) := by
  intro hall
  have hbound := hall 1 0 [] [.read, .read, .call 0, .call 1] 0
  revert hbound
  decide +kernel

/-- Two calls overlap, and a later read finds no room. -/
def overlapping : List Step :=
  [.read, .wait 5, .read, .call 0, .call 1, .record 0 true, .commit 0, .record 1 false, .commit 1,
    .read]

theorem budget_along_runs_overlapping :
    starts (Runs.final (next 2) ⟨0, [], []⟩ overlapping) = [5, 5] ∧
      WithinBudget 2 (Runs.final (next 2) ⟨0, [], []⟩ overlapping) := by
  have hmeets : Runs.Throughout (next 2) (Meets 2) ⟨0, [], []⟩ overlapping := by
    decide +kernel
  exact ⟨by decide +kernel, budget_along_runs 2 0 [] _ (hmeets.admitted _ .start)⟩

end AiBudget
