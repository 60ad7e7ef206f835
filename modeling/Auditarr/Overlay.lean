/-
  Auditarr/Overlay.lean
  =====================
  **Replicas of a layered map.**

  A partial map lies over a total one: where the upper layer has a value it counts, elsewhere
  the base.  A replica has its own base and a copy of the merged map, and it is told to lay
  the upper layer over its copy again.  Such a notice brings in what the upper layer has got,
  and never takes out what it has lost (`settles_update_iff`).
-/
import Mathlib.Logic.Function.Basic
import Mathlib.Logic.Function.Iterate

namespace Overlay

universe u v

variable {κ : Type u} {α : Type v}

/-- The upper layer over the base. -/
def overlay (top : κ → Option α) (base : κ → α) (k : κ) : α := (top k).getD (base k)

theorem overlay_of_none {top : κ → Option α} {base : κ → α} {k : κ} (h : top k = none) :
    overlay top base k = base k := by
  rw [overlay, h, Option.getD_none]

theorem overlay_of_some {top : κ → Option α} {base : κ → α} {k : κ} {a : α} (h : top k = some a) :
    overlay top base k = a := by
  rw [overlay, h, Option.getD_some]

theorem overlay_overlay (top : κ → Option α) (base : κ → α) :
    overlay top (overlay top base) = overlay top base := by
  funext k
  cases h : top k with
  | none => rw [overlay_of_none h]
  | some a => rw [overlay_of_some h, overlay_of_some h]

theorem overlay_eq_overlay_iff {top : κ → Option α} {base value : κ → α} :
    overlay top value = overlay top base ↔ ∀ k, top k = none → value k = base k := by
  constructor
  · intro h k hk
    have hbase : overlay top value k = value k := overlay_of_none hk
    rw [← hbase, h, overlay_of_none hk]
  · intro h
    funext k
    cases hk : top k with
    | none => rw [overlay_of_none hk, overlay_of_none hk, h k hk]
    | some a => rw [overlay_of_some hk, overlay_of_some hk]

/-! ### Replicas -/

/-- A copy of the merged map, with the notices that are on their way to it. -/
structure Replica (κ : Type u) (α : Type v) where
  base : κ → α
  value : κ → α
  pending : Nat

/-- One notice arrives. -/
def Replica.reload (top : κ → Option α) (r : Replica κ α) : Replica κ α :=
  { r with value := overlay top r.value, pending := r.pending - 1 }

/-- All notices arrive. -/
def Replica.settled (top : κ → Option α) (r : Replica κ α) : Replica κ α :=
  (Replica.reload top)^[r.pending] r

/-- Once all notices have arrived, the copy is the merged map. -/
def Settles (top : κ → Option α) (r : Replica κ α) : Prop :=
  (r.settled top).value = overlay top r.base

variable {top : κ → Option α} {r : Replica κ α}

theorem iterate_reload_value (n : Nat) :
    ((Replica.reload top)^[n + 1] r).value = overlay top r.value := by
  induction n generalizing r with
  | zero => rfl
  | succ n ih =>
    rw [Function.iterate_succ_apply, ih]
    exact overlay_overlay top r.value

theorem settled_base : (r.settled top).base = r.base := by
  have hbase : ∀ n : Nat, ∀ r : Replica κ α, ((Replica.reload top)^[n] r).base = r.base := by
    intro n
    induction n with
    | zero => exact fun _ => rfl
    | succ n ih => exact fun r => ih (r.reload top)
  exact hbase r.pending r

theorem settles_iff_of_quiet (h : r.pending = 0) : Settles top r ↔ r.value = overlay top r.base := by
  rw [Settles, Replica.settled, h, Function.iterate_zero_apply]

theorem settles_iff_of_pending (h : r.pending ≠ 0) :
    Settles top r ↔ ∀ k, top k = none → r.value k = r.base k := by
  obtain ⟨n, hn⟩ := Nat.exists_eq_succ_of_ne_zero h
  rw [Settles, Replica.settled, hn, iterate_reload_value, overlay_eq_overlay_iff]

theorem Settles.value_eq (h : Settles top r) {k : κ} (hk : top k = none) : r.value k = r.base k := by
  by_cases hquiet : r.pending = 0
  · rw [(settles_iff_of_quiet hquiet).mp h, overlay_of_none hk]
  · exact (settles_iff_of_pending hquiet).mp h k hk

theorem settles_start (top : κ → Option α) (base : κ → α) : Settles top ⟨base, overlay top base, 0⟩ :=
  (settles_iff_of_quiet rfl).mpr rfl

theorem settles_reload (h : Settles top r) (hpending : r.pending ≠ 0) : Settles top (r.reload top) := by
  have hbase := (settles_iff_of_pending hpending).mp h
  by_cases hlast : (r.reload top).pending = 0
  · rw [settles_iff_of_quiet hlast]
    exact overlay_eq_overlay_iff.mpr hbase
  · rw [settles_iff_of_pending hlast]
    intro k hk
    exact (overlay_of_none hk).trans (hbase k hk)

theorem settles_lost_iff (h : Settles top r) (hpending : r.pending ≠ 0) :
    Settles top { r with pending := r.pending - 1 } ↔
      (r.pending = 1 → r.value = overlay top r.base) := by
  by_cases hlast : r.pending = 1
  · rw [settles_iff_of_quiet (by simp [hlast])]
    simp [hlast]
  · refine iff_of_true ?_ (fun hone => absurd hone hlast)
    rw [settles_iff_of_pending (by simp only [ne_eq]; omega)]
    exact (settles_iff_of_pending hpending).mp h

/-- What a copy has to have for a key: what the upper layer has, unless a notice is on its
    way, and else the base. -/
def Meets (upper : Option α) (base : α) (pending : Nat) (a : α) : Prop :=
  match upper with
  | some b => pending ≠ 0 ∨ a = b
  | none => a = base

theorem update_eq_overlay_iff [DecidableEq κ] {base value : κ → α} (h : value = overlay top base)
    (k : κ) (upper : Option α) (a : α) :
    Function.update value k a = overlay (Function.update top k upper) base ↔
      a = upper.getD (base k) := by
  constructor
  · intro heq
    simpa [overlay] using congrFun heq k
  · intro ha
    funext j
    by_cases hj : j = k
    · subst hj
      simpa [overlay] using ha
    · simp [overlay, h, hj]

/-- After a change of the upper layer at a key, and of the copy, a replica settles iff it
    has what it has to have for the key. -/
theorem settles_update_iff [DecidableEq κ] (h : Settles top r) {n : Nat} (hn : r.pending ≤ n) (k : κ)
    (upper : Option α) (a : α) :
    Settles (Function.update top k upper) ⟨r.base, Function.update r.value k a, n⟩ ↔
      Meets upper (r.base k) n a := by
  by_cases hquiet : n = 0
  · subst hquiet
    have hvalue := (settles_iff_of_quiet (Nat.le_zero.mp hn)).mp h
    rw [settles_iff_of_quiet rfl, update_eq_overlay_iff hvalue]
    cases upper <;> simp [Meets]
  · rw [settles_iff_of_pending hquiet]
    constructor
    · intro hbase
      cases upper with
      | none => simpa [Meets] using hbase k (Function.update_self ..)
      | some b => exact .inl hquiet
    · intro hmeets j hj
      by_cases hjk : j = k
      · subst hjk
        rw [Function.update_self] at hj
        subst hj
        exact (Function.update_self ..).trans hmeets
      · rw [Function.update_of_ne hjk] at hj
        exact (Function.update_of_ne hjk ..).trans (h.value_eq hj)

end Overlay
