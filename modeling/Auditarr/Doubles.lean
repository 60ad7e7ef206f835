/-
  Auditarr/Doubles.lean
  =====================
  **Rounding to a double keeps the order.**

  A rational is scaled so that its significand has 53 bits, and the significand is rounded to an
  integer, ties to even.  Within a binade the rounding of the significand keeps the order; from
  one binade to the next the powers of two are between (`roundDouble_mono`).  So two integers
  that `float()` converts are compared as they are, or come out the same (`floatOfInt_mono`).
-/
import Mathlib.Algebra.Order.Field.Power
import Mathlib.Data.Int.Log
import Mathlib.Tactic.Linarith
import Auditarr.PyValues

namespace Doubles

open PyValues

/-! ### Significands -/

theorem floor_le_roundHalfEven (q : ℚ) : ⌊q⌋ ≤ roundHalfEven q := by
  simp only [roundHalfEven]
  split
  · exact le_rfl
  · split
    · omega
    · split
      · exact le_rfl
      · omega

theorem roundHalfEven_le_floor (q : ℚ) : roundHalfEven q ≤ ⌊q⌋ + 1 := by
  simp only [roundHalfEven]
  split
  · omega
  · split
    · exact le_rfl
    · split
      · omega
      · exact le_rfl

theorem roundHalfEven_intCast (n : Int) : roundHalfEven n = n := by
  simp [roundHalfEven]

theorem roundHalfEven_mono {p q : ℚ} (h : p ≤ q) : roundHalfEven p ≤ roundHalfEven q := by
  rcases (Int.floor_le_floor h).lt_or_eq with hlt | heq
  · exact (roundHalfEven_le_floor p).trans (hlt.trans_le (floor_le_roundHalfEven q))
  · -- in one unit, what comes later is rounded up no less
    have hrest : p - ⌊p⌋ ≤ q - ⌊q⌋ := by
      rw [heq]
      linarith
    simp only [roundHalfEven]
    rw [← heq] at hrest ⊢
    split
    · have hlow := floor_le_roundHalfEven q
      simp only [roundHalfEven] at hlow
      rwa [← heq] at hlow
    · rename_i hhalf
      have hhalf' : ¬q - ⌊p⌋ < 1 / 2 := by linarith
      rw [if_neg hhalf']
      split
      · rename_i hup
        have hup' : 1 / 2 < q - ⌊p⌋ := by linarith
        rw [if_pos hup']
      · by_cases heven : ⌊p⌋ % 2 = 0
        · rw [if_pos heven]
          split
          · omega
          · exact le_rfl
        · rw [if_neg heven]
          split
          · exact le_rfl
          · exact le_rfl

/-! ### Binades -/

theorem roundDouble_some {q x : ℚ} (hq : 2 ^ (-1022 : Int) ≤ q) (h : roundDouble q = some x) :
    x = roundHalfEven (q / 2 ^ (Int.log 2 q - 52)) * 2 ^ (Int.log 2 q - 52) := by
  have hpos : 0 < q := (zpow_pos two_pos _).trans_le hq
  have hlog : -1022 ≤ Int.log 2 q := by
    rw [← Int.zpow_le_iff_le_log one_lt_two hpos]
    exact_mod_cast hq
  have hulp : max (Int.log 2 q - 52) (-1074) = Int.log 2 q - 52 := by omega
  rw [roundDouble, if_neg hpos.ne', abs_of_pos hpos, hulp] at h
  dsimp only at h
  split at h
  · exact (Option.some.inj h).symm
  · cases h

theorem scaled_pow (bits : Nat) (k : Int) :
    ((2 ^ bits : Int) : ℚ) * 2 ^ (k - 52) = 2 ^ (bits + k - 52) := by
  rw [Int.cast_pow, Int.cast_ofNat, ← zpow_natCast, ← zpow_add₀ two_ne_zero]
  congr 1
  omega

theorem le_of_roundDouble {q x : ℚ} {k : Int} (hk : -1022 ≤ k) (hq : 2 ^ k ≤ q)
    (h : roundDouble q = some x) : 2 ^ k ≤ x := by
  have hpos : 0 < q := (zpow_pos two_pos k).trans_le hq
  have hlog : k ≤ Int.log 2 q := by
    rw [← Int.zpow_le_iff_le_log one_lt_two hpos]
    exact_mod_cast hq
  have hunit : (0 : ℚ) < 2 ^ (Int.log 2 q - 52) := zpow_pos two_pos _
  have hlead : ((2 ^ 52 : Int) : ℚ) * 2 ^ (Int.log 2 q - 52) = 2 ^ Int.log 2 q := by
    rw [scaled_pow]
    congr 1
    omega
  have hlow : ((2 ^ 52 : Int) : ℚ) ≤ q / 2 ^ (Int.log 2 q - 52) := by
    rw [le_div_iff₀ hunit, hlead]
    exact_mod_cast Int.zpow_log_le_self one_lt_two hpos
  have hround : (2 ^ 52 : Int) ≤ roundHalfEven (q / 2 ^ (Int.log 2 q - 52)) :=
    (Int.le_floor.mpr hlow).trans (floor_le_roundHalfEven _)
  rw [roundDouble_some ((zpow_le_zpow_right₀ one_le_two hk).trans hq) h]
  calc (2 : ℚ) ^ k ≤ 2 ^ Int.log 2 q := zpow_le_zpow_right₀ one_le_two hlog
    _ = ((2 ^ 52 : Int) : ℚ) * 2 ^ (Int.log 2 q - 52) := hlead.symm
    _ ≤ roundHalfEven (q / 2 ^ (Int.log 2 q - 52)) * 2 ^ (Int.log 2 q - 52) :=
      mul_le_mul_of_nonneg_right (by exact_mod_cast hround) hunit.le

theorem roundDouble_le {q x : ℚ} (hq : 2 ^ (-1022 : Int) ≤ q) (h : roundDouble q = some x) :
    x ≤ 2 ^ (Int.log 2 q + 1) := by
  have hunit : (0 : ℚ) < 2 ^ (Int.log 2 q - 52) := zpow_pos two_pos _
  have hnext : ((2 ^ 53 : Int) : ℚ) * 2 ^ (Int.log 2 q - 52) = 2 ^ (Int.log 2 q + 1) := by
    rw [scaled_pow]
    congr 1
    omega
  have hhigh : q / 2 ^ (Int.log 2 q - 52) ≤ ((2 ^ 53 : Int) : ℚ) := by
    rw [div_le_iff₀ hunit, hnext]
    exact_mod_cast (Int.lt_zpow_succ_log_self one_lt_two q).le
  have hround : roundHalfEven (q / 2 ^ (Int.log 2 q - 52)) ≤ (2 ^ 53 : Int) :=
    (roundHalfEven_mono hhigh).trans_eq (roundHalfEven_intCast _)
  rw [roundDouble_some hq h]
  calc (roundHalfEven (q / 2 ^ (Int.log 2 q - 52)) : ℚ) * 2 ^ (Int.log 2 q - 52)
      ≤ ((2 ^ 53 : Int) : ℚ) * 2 ^ (Int.log 2 q - 52) :=
        mul_le_mul_of_nonneg_right (by exact_mod_cast hround) hunit.le
    _ = 2 ^ (Int.log 2 q + 1) := hnext

theorem roundDouble_mono {p q x y : ℚ} (hp : 2 ^ (-1022 : Int) ≤ p) (h : p ≤ q)
    (hx : roundDouble p = some x) (hy : roundDouble q = some y) : x ≤ y := by
  have hpos : 0 < p := (zpow_pos two_pos _).trans_le hp
  have hlogs : Int.log 2 p ≤ Int.log 2 q := Int.log_mono_right hpos h
  rcases hlogs.lt_or_eq with hlt | heq
  · have hlog : -1022 ≤ Int.log 2 p := by
      rw [← Int.zpow_le_iff_le_log one_lt_two hpos]
      exact_mod_cast hp
    have hbinade : (2 : ℚ) ^ Int.log 2 q ≤ q := by
      exact_mod_cast Int.zpow_log_le_self one_lt_two (hpos.trans_le h)
    calc x ≤ 2 ^ (Int.log 2 p + 1) := roundDouble_le hp hx
      _ ≤ 2 ^ Int.log 2 q := zpow_le_zpow_right₀ one_le_two (by omega)
      _ ≤ y := le_of_roundDouble (by omega) hbinade hy
  · have hunit : (0 : ℚ) < 2 ^ (Int.log 2 q - 52) := zpow_pos two_pos _
    rw [roundDouble_some hp hx, roundDouble_some (hp.trans h) hy, heq]
    apply mul_le_mul_of_nonneg_right _ hunit.le
    exact_mod_cast roundHalfEven_mono (div_le_div_of_nonneg_right h hunit.le)

/-! ### Integers -/

theorem floatOfInt_finite {n : Int} {x : PyFloat} (h : floatOfInt n = some x) :
    ∃ q, x = .finite q := by
  rw [floatOfInt] at h
  split at h
  · exact ⟨n, (Option.some.inj h).symm⟩
  · obtain ⟨q, -, rfl⟩ := Option.map_eq_some_iff.mp h
    exact ⟨q, rfl⟩

theorem floatOfInt_small {n : Int} (h : n.natAbs ≤ 2 ^ 53) : floatOfInt n = some (.finite n) :=
  if_pos h

theorem floatOfInt_mono {m n : Int} {p q : ℚ} (hm : 0 < m) (h : m ≤ n)
    (hp : floatOfInt m = some (.finite p)) (hq : floatOfInt n = some (.finite q)) : p ≤ q := by
  have hnormal : ∀ k : Int, 0 < k → (2 : ℚ) ^ (-1022 : Int) ≤ k := by
    intro k hk
    have hone : (1 : ℚ) ≤ k := by exact_mod_cast hk
    exact (zpow_le_one_of_nonpos₀ one_le_two (by norm_num)).trans hone
  by_cases hsmall : n.natAbs ≤ 2 ^ 53
  · rw [floatOfInt_small (by omega), Option.some.injEq, PyFloat.finite.injEq] at hp
    rw [floatOfInt_small hsmall, Option.some.injEq, PyFloat.finite.injEq] at hq
    rw [← hp, ← hq]
    exact_mod_cast h
  · rw [floatOfInt, if_neg hsmall] at hq
    obtain ⟨y, hy, hyq⟩ := Option.map_eq_some_iff.mp hq
    rw [PyFloat.finite.injEq] at hyq
    rw [← hyq]
    by_cases hsmall' : m.natAbs ≤ 2 ^ 53
    · rw [floatOfInt_small hsmall', Option.some.injEq, PyFloat.finite.injEq] at hp
      have hlow : (m : ℚ) ≤ 2 ^ (53 : Int) := by
        have hm53 : m ≤ 2 ^ 53 := by omega
        exact_mod_cast hm53
      have hhigh : (2 : ℚ) ^ (53 : Int) ≤ n := by
        have hn53 : 2 ^ 53 ≤ n := by omega
        exact_mod_cast hn53
      rw [← hp]
      exact hlow.trans (le_of_roundDouble (by norm_num) hhigh hy)
    · rw [floatOfInt, if_neg hsmall'] at hp
      obtain ⟨x, hx, hxp⟩ := Option.map_eq_some_iff.mp hp
      rw [PyFloat.finite.injEq] at hxp
      rw [← hxp]
      exact roundDouble_mono (hnormal m hm) (by exact_mod_cast h) hx hy

/-! ### Exact differences -/

theorem roundDouble_scaled {k e : Int} (hk : |k| < 2 ^ 53) (he : -1074 ≤ e) (hup : e ≤ 0) :
    roundDouble ((k : ℚ) * 2 ^ e) = some ((k : ℚ) * 2 ^ e) := by
  by_cases hzero : k = 0
  · simp [hzero, roundDouble]
  have hscale : (0 : ℚ) < 2 ^ e := zpow_pos two_pos e
  have hne : (k : ℚ) * 2 ^ e ≠ 0 := mul_ne_zero (by exact_mod_cast hzero) hscale.ne'
  have habs : |(k : ℚ) * 2 ^ e| < 2 ^ (53 + e) := by
    rw [abs_mul, abs_of_pos hscale, zpow_add₀ two_ne_zero]
    apply mul_lt_mul_of_pos_right _ hscale
    exact_mod_cast hk
  have hlog : Int.log 2 |(k : ℚ) * 2 ^ e| < 53 + e := by
    rw [← Int.lt_zpow_iff_log_lt one_lt_two (abs_pos.mpr hne)]
    exact_mod_cast habs
  obtain ⟨n, hn⟩ : ∃ n : Nat, max (Int.log 2 |(k : ℚ) * 2 ^ e| - 52) (-1074) + n = e :=
    ⟨(e - max (Int.log 2 |(k : ℚ) * 2 ^ e| - 52) (-1074)).toNat, by omega⟩
  have hinteger : (k : ℚ) * 2 ^ e / 2 ^ max (Int.log 2 |(k : ℚ) * 2 ^ e| - 52) (-1074) =
      ((k * 2 ^ n : Int) : ℚ) := by
    generalize max (Int.log 2 |(k : ℚ) * 2 ^ e| - 52) (-1074) = ulp at hn ⊢
    rw [← hn, zpow_add₀ two_ne_zero, zpow_natCast]
    push_cast
    field_simp
  have hsmall : |(k : ℚ) * 2 ^ e| < 2 ^ (1024 : ℕ) := by
    apply habs.trans_le
    rw [← zpow_natCast]
    exact zpow_le_zpow_right₀ one_le_two (by omega)
  have hback := div_mul_cancel₀ ((k : ℚ) * 2 ^ e)
    (zpow_pos (two_pos : (0 : ℚ) < 2) (max (Int.log 2 |(k : ℚ) * 2 ^ e| - 52) (-1074))).ne'
  rw [roundDouble, if_neg hne]
  dsimp only
  rw [hinteger] at hback
  rw [hinteger, roundHalfEven_intCast, hback, if_pos hsmall]

theorem exists_scaled {x : ℚ} (hpos : 0 < x) (hx : x < 2 ^ 53) (h : roundDouble x = some x) :
    ∃ k e : Int, 0 ≤ k ∧ k < 2 ^ 53 ∧ -1074 ≤ e ∧ e ≤ 0 ∧ x = k * 2 ^ e := by
  have hlog : Int.log 2 x < 53 := by
    rw [← Int.lt_zpow_iff_log_lt one_lt_two hpos]
    exact_mod_cast hx
  rw [roundDouble, if_neg hpos.ne', abs_of_pos hpos] at h
  dsimp only at h
  have hx' : (roundHalfEven (x / 2 ^ max (Int.log 2 x - 52) (-1074)) : ℚ) *
      2 ^ max (Int.log 2 x - 52) (-1074) = x := by
    split at h
    · exact Option.some.inj h
    · cases h
  have hscale : (0 : ℚ) < 2 ^ max (Int.log 2 x - 52) (-1074) := zpow_pos two_pos _
  refine ⟨_, _, ?_, ?_, le_max_right _ _, by omega, hx'.symm⟩
  · have hnonneg : (0 : ℚ) ≤ roundHalfEven (x / 2 ^ max (Int.log 2 x - 52) (-1074)) := by
      apply le_of_mul_le_mul_right _ hscale
      rw [hx', zero_mul]
      exact hpos.le
    exact_mod_cast hnonneg
  · have hlt : x < 2 ^ (53 + max (Int.log 2 x - 52) (-1074)) := by
      apply (Int.lt_zpow_succ_log_self one_lt_two x).trans_le
      apply zpow_le_zpow_right₀ one_le_two
      omega
    rw [zpow_add₀ two_ne_zero] at hlt
    have hround : (roundHalfEven (x / 2 ^ max (Int.log 2 x - 52) (-1074)) : ℚ) < 2 ^ (53 : Int) := by
      apply lt_of_mul_lt_mul_right _ hscale.le
      rwa [hx']
    exact_mod_cast hround

theorem roundDouble_sub_int {x : ℚ} {n : Int} (hx : x < 2 ^ 53) (hdouble : roundDouble x = some x)
    (hn : 0 ≤ n) (hle : (n : ℚ) ≤ x) : roundDouble (x - n) = some (x - n) := by
  rcases (show (0 : ℚ) ≤ n by exact_mod_cast hn).trans hle |>.lt_or_eq with hpos | hzero
  · obtain ⟨k, e, hk, hbits, he, hup, rfl⟩ := exists_scaled hpos hx hdouble
    obtain ⟨m, rfl⟩ : ∃ m : Nat, e = -m := ⟨(-e).toNat, by omega⟩
    have hdiff : (k : ℚ) * 2 ^ (-(m : Int)) - n = ((k - n * 2 ^ m : Int) : ℚ) * 2 ^ (-(m : Int)) := by
      rw [zpow_neg, zpow_natCast]
      push_cast
      field_simp
    have hscale : (0 : ℚ) < 2 ^ (-(m : Int)) := zpow_pos two_pos _
    have hleast : (0 : ℚ) ≤ ((k - n * 2 ^ m : Int) : ℚ) := by
      apply le_of_mul_le_mul_right _ hscale
      rw [← hdiff, zero_mul]
      linarith
    have hmost : 0 ≤ n * 2 ^ m := by positivity
    rw [hdiff]
    apply roundDouble_scaled _ he hup
    rw [abs_of_nonneg (by exact_mod_cast hleast)]
    omega
  · have hnzero : (n : ℚ) = 0 := le_antisymm (by linarith) (by exact_mod_cast hn)
    rw [← hzero, hnzero]
    simp [roundDouble]

theorem sub_negative {p q : ℚ} (h : p < q) {t : ℚ} (ht : 0 ≤ t) :
    PyFloat.lt (.finite t) (PyFloat.sub (.finite p) (.finite q)) = false := by
  have hneg : p - q < 0 := by linarith
  rw [PyFloat.sub, PyFloat.ofExact]
  cases hround : roundDouble (p - q) with
  | none => simp [PyFloat.lt, hneg]
  | some x =>
    rw [roundDouble, if_neg hneg.ne] at hround
    dsimp only at hround
    split at hround
    · have hscale : (0 : ℚ) < 2 ^ max (Int.log 2 |p - q| - 52) (-1074) := zpow_pos two_pos _
      have hround' : roundHalfEven ((p - q) / 2 ^ max (Int.log 2 |p - q| - 52) (-1074)) ≤ 0 := by
        have hmono := roundHalfEven_mono (div_nonpos_of_nonpos_of_nonneg hneg.le hscale.le)
        exact hmono.trans_eq (by simpa using roundHalfEven_intCast 0)
      have hx : x ≤ 0 := by
        rw [← Option.some.inj hround]
        exact mul_nonpos_of_nonpos_of_nonneg (by exact_mod_cast hround') hscale.le
      simp only [PyFloat.lt, decide_eq_false_iff_not, not_lt]
      linarith
    · cases hround

end Doubles
