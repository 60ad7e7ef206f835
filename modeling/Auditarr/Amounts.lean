/-
  Auditarr/Amounts.lean
  =====================
  **Doubles that are zero or at least one.**

  Rounding does not take a number below a power of two, so sums and products of such doubles are
  of this kind again, and zero only where nothing went into them.
-/
import Mathlib.Order.WithBot
import Auditarr.Doubles

namespace Amounts

open PyValues

/-- Neither below one nor without a place in the order. -/
def AtLeastOne : PyFloat → Prop
  | .finite q => 1 ≤ q
  | .inf negative => negative = false
  | .nan => False

def NonNeg (x : PyFloat) : Prop := (∃ q, x = .finite q ∧ 0 ≤ q) ∨ x = .inf false

/-- Zero, or at least one if something is there. -/
def Amount (x : PyFloat) (present : Prop) : Prop :=
  present ∧ AtLeastOne x ∨ ¬present ∧ x = .finite 0

theorem atLeastOne_ofExact {q : ℚ} (h : 1 ≤ q) : AtLeastOne (.ofExact q) := by
  unfold PyFloat.ofExact
  cases hround : roundDouble q with
  | none => simp only [AtLeastOne, decide_eq_false_iff_not]; linarith
  | some x =>
    have hone : (2 : ℚ) ^ (0 : Int) ≤ x :=
      Doubles.le_of_roundDouble (by norm_num) (by simpa using h) hround
    simpa [AtLeastOne] using hone

theorem ofExact_zero : PyFloat.ofExact 0 = .finite 0 := by
  simp [PyFloat.ofExact, roundDouble]

theorem nonNeg_ofExact {q : ℚ} (h : 0 ≤ q) : NonNeg (.ofExact q) := by
  unfold PyFloat.ofExact
  cases hround : roundDouble q with
  | none => exact .inr (by simp [not_lt.mpr h])
  | some x =>
    refine .inl ⟨x, rfl, ?_⟩
    unfold roundDouble at hround
    split at hround
    · exact (Option.some.inj hround).le
    · dsimp only at hround
      split at hround
      · cases hround
        have hunit : (0 : ℚ) ≤ 2 ^ max (Int.log 2 |q| - 52) (-1074) := zpow_nonneg zero_le_two _
        apply mul_nonneg _ hunit
        exact_mod_cast (Int.floor_nonneg.mpr (div_nonneg h hunit)).trans
          (Doubles.floor_le_roundHalfEven _)
      · cases hround

theorem NonNeg.scaled {x : PyFloat} (hx : NonNeg x) {w : ℚ} (hw : 0 < w) :
    NonNeg ((PyFloat.finite w).mul x) := by
  rcases hx with ⟨q, rfl, hq⟩ | rfl
  · exact nonNeg_ofExact (mul_nonneg hw.le hq)
  · exact .inr (by simp [PyFloat.mul, hw.ne', not_lt.mpr hw.le])

theorem AtLeastOne.mul {x y : PyFloat} (hx : AtLeastOne x) (hy : AtLeastOne y) :
    AtLeastOne (x.mul y) := by
  cases x with
  | nan => exact hx.elim
  | finite p =>
    cases y with
    | nan => exact hy.elim
    | finite q => exact atLeastOne_ofExact (one_le_mul_of_one_le_of_one_le hx hy)
    | inf negative =>
      have hp : 1 ≤ p := hx
      have hne : p ≠ 0 := by linarith
      have hpos : ¬p < 0 := by linarith
      simp only [AtLeastOne] at hy
      simp [PyFloat.mul, hne, hpos, hy, AtLeastOne]
  | inf negative =>
    simp only [AtLeastOne] at hx
    cases y with
    | nan => exact hy.elim
    | finite q =>
      have hq : 1 ≤ q := hy
      have hne : q ≠ 0 := by linarith
      have hpos : ¬q < 0 := by linarith
      simp [PyFloat.mul, hne, hpos, hx, AtLeastOne]
    | inf negative' =>
      simp only [AtLeastOne] at hy
      simp [PyFloat.mul, hx, hy, AtLeastOne]

theorem AtLeastOne.add {x y : PyFloat} (hx : AtLeastOne x) (hy : NonNeg y) :
    AtLeastOne (x.add y) := by
  rcases hy with ⟨q, rfl, hq⟩ | rfl
  · cases x with
    | nan => exact hx.elim
    | finite p =>
      have hp : 1 ≤ p := hx
      exact atLeastOne_ofExact (by linarith)
    | inf negative => exact hx
  · cases x with
    | nan => exact hx.elim
    | finite p => rfl
    | inf negative =>
      simp only [AtLeastOne] at hx
      simp [PyFloat.add, hx, AtLeastOne]

theorem AtLeastOne.nonneg {x : PyFloat} (h : AtLeastOne x) : NonNeg x := by
  cases x with
  | nan => exact h.elim
  | finite q => exact .inl ⟨q, rfl, zero_le_one.trans h⟩
  | inf negative => exact .inr (congrArg PyFloat.inf h)

theorem Amount.nonneg {x : PyFloat} {present : Prop} (h : Amount x present) : NonNeg x := by
  rcases h with ⟨-, h⟩ | ⟨-, rfl⟩
  · exact h.nonneg
  · exact .inl ⟨0, rfl, le_rfl⟩

theorem add_swap (x y : PyFloat) : x.add y = y.add x := by
  cases x with
  | nan => cases y <;> rfl
  | finite p =>
    cases y with
    | finite q => simp only [PyFloat.add, Rat.add_comm]
    | _ => rfl
  | inf m =>
    cases y with
    | inf n => cases m <;> cases n <;> rfl
    | _ => rfl

theorem Amount.add {x y : PyFloat} {p q : Prop} (hx : Amount x p) (hy : Amount y q) :
    Amount (x.add y) (p ∨ q) := by
  rcases hx with ⟨hp, hx'⟩ | ⟨hp, rfl⟩
  · exact .inl ⟨.inl hp, hx'.add hy.nonneg⟩
  · rcases hy with ⟨hq, hy'⟩ | ⟨hq, rfl⟩
    · refine .inl ⟨.inr hq, ?_⟩
      rw [add_swap]
      exact hy'.add (.inl ⟨0, rfl, le_rfl⟩)
    · refine .inr ⟨by tauto, ?_⟩
      simp [PyFloat.add, ofExact_zero]

theorem Amount.mul {x : PyFloat} {p : Prop} (hx : Amount x p) {w : ℚ} (hw : 1 ≤ w) :
    Amount (x.mul (.finite w)) p := by
  rcases hx with ⟨hp, hx⟩ | ⟨hp, rfl⟩
  · exact .inl ⟨hp, hx.mul hw⟩
  · refine .inr ⟨hp, ?_⟩
    simp [PyFloat.mul, ofExact_zero]

theorem amount_ofExact (n : Nat) : Amount (.ofExact n) (0 < n) := by
  cases n with
  | zero => exact .inr ⟨lt_irrefl 0, by simpa using ofExact_zero⟩
  | succ n => exact .inl ⟨n.succ_pos, atLeastOne_ofExact (by exact_mod_cast n.succ_pos)⟩

theorem Amount.pos_iff {x : PyFloat} {p : Prop} (hx : Amount x p) :
    PyFloat.lt (.finite 0) x = true ↔ p := by
  rcases hx with ⟨hp, hx⟩ | ⟨hp, rfl⟩
  · refine iff_of_true ?_ hp
    cases x with
    | nan => exact hx.elim
    | finite q => exact decide_eq_true (zero_lt_one.trans_le hx)
    | inf negative => simpa [PyFloat.lt, AtLeastOne] using hx
  · exact iff_of_false (by simp [PyFloat.lt]) hp

/-! ### Their order -/

/-- The place of a double that is at least one. -/
def rank : PyFloat → WithTop ℚ
  | .finite q => q
  | _ => ⊤

theorem AtLeastOne.lt_iff {x y : PyFloat} (hx : AtLeastOne x) (hy : AtLeastOne y) :
    PyFloat.lt x y = true ↔ rank x < rank y := by
  cases x with
  | nan => exact hx.elim
  | finite p =>
    cases y with
    | nan => exact hy.elim
    | finite q => simp [PyFloat.lt, rank]
    | inf n =>
      simp only [AtLeastOne] at hy
      simp [PyFloat.lt, rank, hy]
  | inf m =>
    simp only [AtLeastOne] at hx
    cases y with
    | nan => exact hy.elim
    | finite q => simp [PyFloat.lt, rank, hx]
    | inf n => simp [PyFloat.lt, rank, hx]

theorem AtLeastOne.eq_iff {x y : PyFloat} (hx : AtLeastOne x) (hy : AtLeastOne y) :
    x = y ↔ rank x = rank y := by
  cases x with
  | nan => exact hx.elim
  | finite p =>
    cases y with
    | nan => exact hy.elim
    | finite q => simp [rank]
    | inf n => simp [rank]
  | inf m =>
    simp only [AtLeastOne] at hx
    cases y with
    | nan => exact hy.elim
    | finite q => simp [rank]
    | inf n =>
      simp only [AtLeastOne] at hy
      simp [rank, hx, hy]

end Amounts
