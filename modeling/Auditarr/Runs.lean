/-
  Auditarr/Runs.lean
  ==================
  **Runs of a system whose steps meet a condition.**

  A system is a step relation between states, labelled by what is done.  A
  condition says which steps are admitted in which state; `Admitted` are the states
  reached through admitted steps alone.

  Where a step is a function, a run is the list of what is done, and `Throughout` says
  that each of its steps meets a condition in the state it finds.
-/
import Mathlib.Logic.Relation
import Mathlib.Data.List.Chain

namespace Runs

universe u v

variable {σ : Type u} {ι : Type v}

/-- The states reached from `start` by steps that meet the condition `ok`. -/
inductive Admitted (step : σ → ι → σ → Prop) (ok : σ → ι → Prop) (start : σ) : σ → Prop where
  | start : Admitted step ok start start
  | next {s s' : σ} {i : ι} : Admitted step ok start s → ok s i → step s i s' →
      Admitted step ok start s'

variable {step : σ → ι → σ → Prop} {ok : σ → ι → Prop} {start : σ}

theorem Admitted.invariant {I : σ → Prop} (hstart : I start)
    (hstep : ∀ s i s', I s → ok s i → step s i s' → I s') {s : σ}
    (h : Admitted step ok start s) : I s := by
  induction h with
  | start => exact hstart
  | next _ hok hs ih => exact hstep _ _ _ ih hok hs

/-! ### Runs as lists -/

section Functional

variable (next : σ → ι → σ)

/-- The state at the end of a run. -/
def final (s : σ) (run : List ι) : σ := run.foldl next s

/-- The states that a run goes through. -/
def states (s : σ) : List ι → List σ
  | [] => [s]
  | i :: rest => s :: states (next s i) rest

/-- Every step of a run meets the condition in the state it finds. -/
def Throughout (P : σ → ι → Prop) : σ → List ι → Prop
  | _, [] => True
  | s, i :: rest => P s i ∧ Throughout P (next s i) rest

variable {P Q : σ → ι → Prop}

instance decidableThroughout [∀ s i, Decidable (P s i)] :
    (s : σ) → (run : List ι) → Decidable (Throughout next P s run)
  | _, [] => isTrue trivial
  | s, i :: rest =>
      have : Decidable (Throughout next P (next s i) rest) := decidableThroughout (next s i) rest
      inferInstanceAs (Decidable (P s i ∧ Throughout next P (next s i) rest))

theorem Throughout.admitted {s s' : σ} {run : List ι}
    (hstart : Admitted (fun s i s' => s' = next s i) P s s') (hrun : Throughout next P s' run) :
    Admitted (fun s i s' => s' = next s i) P s (final next s' run) := by
  induction run generalizing s' with
  | nil => exact hstart
  | cons i rest ih => exact ih (hstart.next hrun.1 rfl) hrun.2

theorem throughout_of_forall (h : ∀ s i, P s i) (s : σ) (run : List ι) :
    Throughout next P s run := by
  induction run generalizing s with
  | nil => exact trivial
  | cons i rest ih => exact ⟨h s i, ih _⟩

theorem throughout_and (s : σ) (run : List ι) :
    Throughout next P s run ∧ Throughout next Q s run ↔
      Throughout next (fun s i => P s i ∧ Q s i) s run := by
  induction run generalizing s with
  | nil => simp [Throughout]
  | cons i rest ih =>
    rw [Throughout, Throughout, Throughout, ← ih]
    exact and_and_and_comm

theorem throughout_congr (h : ∀ s i, P s i ↔ Q s i) (s : σ) (run : List ι) :
    Throughout next P s run ↔ Throughout next Q s run := by
  induction run generalizing s with
  | nil => exact Iff.rfl
  | cons i rest ih => rw [Throughout, Throughout, h, ih]

theorem pairwise_states {R : σ → σ → Prop} [IsTrans σ R] (s : σ) (run : List ι) :
    (states next s run).Pairwise R ↔ Throughout next (fun s i => R s (next s i)) s run := by
  rw [← List.isChain_iff_pairwise]
  induction run generalizing s with
  | nil => simp [states, Throughout]
  | cons i rest ih =>
    rw [Throughout, ← ih]
    cases rest with
    | nil => simp [states]
    | cons i' rest => rw [states, states, List.isChain_cons_cons]

theorem final_invariant {I : σ → Prop} {run : List ι}
    (hstep : ∀ i ∈ run, ∀ s, I s → I (next s i)) {s : σ} (hs : I s) : I (final next s run) := by
  induction run generalizing s with
  | nil => exact hs
  | cons i rest ih =>
    apply ih
    · intro j hj
      exact hstep j (List.mem_cons_of_mem _ hj)
    · exact hstep i (List.mem_cons_self ..) s hs

theorem final_history {P : List ι → σ → Prop} {s : σ} (hs : P [] s)
    (hstep : ∀ done s' i, P done s' → P (done ++ [i]) (next s' i)) (run : List ι) :
    P run (final next s run) := by
  induction run using List.reverseRecOn with
  | nil => exact hs
  | append_singleton done i ih =>
    rw [final, List.foldl_append]
    exact hstep done _ i ih

theorem final_append (s : σ) (before after : List ι) :
    final next s (before ++ after) = final next (final next s before) after :=
  List.foldl_append

theorem throughout_append (s : σ) (before after : List ι) :
    Throughout next P s (before ++ after) ↔
      Throughout next P s before ∧ Throughout next P (final next s before) after := by
  induction before generalizing s with
  | nil => simp [Throughout, final]
  | cons i rest ih =>
    rw [List.cons_append, Throughout, Throughout, ih, and_assoc]
    rfl

theorem Throughout.final {I : σ → Prop} (hstep : ∀ s i, I s → P s i → I (next s i)) {s : σ}
    {run : List ι} (hrun : Throughout next P s run) (hs : I s) : I (final next s run) := by
  induction run generalizing s with
  | nil => exact hs
  | cons i rest ih => exact ih hrun.2 (hstep s i hs hrun.1)

theorem Throughout.imp {I : σ → Prop} (hstep : ∀ s i, I s → P s i → Q s i ∧ I (next s i)) {s : σ}
    {run : List ι} (hrun : Throughout next P s run) (hs : I s) : Throughout next Q s run := by
  induction run generalizing s with
  | nil => exact trivial
  | cons i rest ih =>
    obtain ⟨hq, hnext⟩ := hstep s i hs hrun.1
    exact ⟨hq, ih hrun.2 hnext⟩

theorem throughout_iff_forall {s : σ} {run : List ι} : Throughout next P s run ↔
    ∀ before i after, run = before ++ i :: after → P (final next s before) i := by
  constructor
  · rintro hrun before i after rfl
    exact ((throughout_append next s before (i :: after)).mp hrun).2.1
  · intro h
    induction run generalizing s with
    | nil => exact trivial
    | cons i rest ih =>
      refine ⟨h [] i rest rfl, ih fun before j after heq => ?_⟩
      exact h (i :: before) j after (by rw [heq]; rfl)

/-- Where a property follows from an invariant, and under the invariant the steps to states with
    the property are those that meet a condition and keep the invariant, the states of a run
    have the property iff its steps meet the condition. -/
theorem forall_states_iff_of_invariant {I N : σ → Prop} (hprop : ∀ s, I s → N s)
    (hstep : ∀ s i, I s → (N (next s i) ↔ P s i)) (hkeep : ∀ s i, I s → P s i → I (next s i))
    {s : σ} (hs : I s) (run : List ι) :
    (∀ s' ∈ states next s run, N s') ↔ Throughout next P s run := by
  induction run generalizing s with
  | nil => simpa [states, Throughout] using hprop s hs
  | cons i rest ih =>
    rw [states, Throughout, List.forall_mem_cons]
    constructor
    · rintro ⟨-, hrest⟩
      have hnext : N (next s i) := by
        apply hrest
        cases rest <;> simp [states]
      have hp : P s i := (hstep s i hs).mp hnext
      exact ⟨hp, (ih (hkeep s i hs hp)).mp hrest⟩
    · rintro ⟨hp, hrest⟩
      exact ⟨hprop s hs, (ih (hkeep s i hs hp)).mpr hrest⟩

/-- Where the steps that keep an invariant are those that meet a condition, a run keeps it
    iff its steps meet the condition. -/
theorem forall_states_iff {I : σ → Prop} (hstep : ∀ s i, I s → (I (next s i) ↔ P s i)) {s : σ}
    (hs : I s) (run : List ι) : (∀ s' ∈ states next s run, I s') ↔ Throughout next P s run :=
  forall_states_iff_of_invariant next (fun _ h => h) hstep
    (fun s i hi hp => (hstep s i hi).mpr hp) hs run

/-- Where the steps that keep a relation between states, and a property of them, are those
    that meet a condition under an invariant, and what they keep keeps the invariant, a run
    keeps both iff its steps meet the condition. -/
theorem pairwise_and_forall_iff {R : σ → σ → Prop} [IsTrans σ R] {I N : σ → Prop}
    (hprop : ∀ s, I s → N s)
    (hstep : ∀ s i, I s → (R s (next s i) ∧ N (next s i) ↔ P s i))
    (hkeep : ∀ s i, I s → R s (next s i) → N (next s i) → I (next s i)) {s : σ} (hs : I s)
    (run : List ι) :
    (states next s run).Pairwise R ∧ (∀ s' ∈ states next s run, N s') ↔ Throughout next P s run := by
  rw [pairwise_states]
  induction run generalizing s with
  | nil => simpa [states, Throughout] using hprop s hs
  | cons i rest ih =>
    rw [states, Throughout, Throughout, List.forall_mem_cons]
    constructor
    · rintro ⟨⟨hrel, hrels⟩, -, hprops⟩
      have hnext : N (next s i) := by
        apply hprops
        cases rest <;> simp [states]
      exact ⟨(hstep s i hs).mp ⟨hrel, hnext⟩, (ih (hkeep s i hs hrel hnext)).mp ⟨hrels, hprops⟩⟩
    · rintro ⟨hp, hrest⟩
      obtain ⟨hrel, hnext⟩ := (hstep s i hs).mpr hp
      obtain ⟨hrels, hprops⟩ := (ih (hkeep s i hs hrel hnext)).mpr hrest
      exact ⟨⟨hrel, hrels⟩, hprop s hs, hprops⟩

/-- What the steps of a run add up to. -/
def total (f : σ → ι → Nat) : σ → List ι → Nat
  | _, [] => 0
  | s, i :: rest => f s i + total f (next s i) rest

/-- The law of a balance: where each step leaves of a measure what it found, gained and lost, so
    does the run. -/
theorem Throughout.balance {I : σ → Prop} {m : σ → Nat} {gain loss : σ → ι → Nat}
    (hstep : ∀ s i, I s → P s i → I (next s i) ∧ m (next s i) + loss s i = m s + gain s i) {s : σ}
    {run : List ι} (hrun : Throughout next P s run) (hs : I s) :
    m (Runs.final next s run) + total next loss s run = m s + total next gain s run := by
  induction run generalizing s with
  | nil => rfl
  | cons i rest ih =>
    obtain ⟨hnext, hbalance⟩ := hstep s i hs hrun.1
    have hrest := ih hrun.2 hnext
    simp only [total]
    change m (Runs.final next (next s i) rest) + _ = _
    omega

theorem mem_states {s s' : σ} {run : List ι} :
    s' ∈ states next s run ↔ ∃ before after, run = before ++ after ∧ final next s before = s' := by
  induction run generalizing s with
  | nil => simp [states, final, eq_comm]
  | cons i rest ih =>
    rw [states, List.mem_cons, ih]
    constructor
    · rintro (rfl | ⟨before, after, rfl, hfinal⟩)
      · exact ⟨[], i :: rest, rfl, rfl⟩
      · exact ⟨i :: before, after, rfl, hfinal⟩
    · rintro ⟨before, after, heq, hfinal⟩
      cases before with
      | nil => exact .inl hfinal.symm
      | cons j before =>
        cases heq
        exact .inr ⟨before, after, rfl, hfinal⟩

end Functional

end Runs
