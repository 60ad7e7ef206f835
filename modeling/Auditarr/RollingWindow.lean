/-
  Auditarr/RollingWindow.lean
  ===========================
  **Counting in aligned windows against counting in rolling ones.**

  A limiter with aligned windows cuts time into windows of one length and lets the
  first `cap` arrivals of each pass.  What it promises is often stated of rolling
  windows instead: no interval of that length, wherever it begins, sees more than
  `cap` pass.  The two differ where a rolling interval lies across the border of two
  aligned windows, and `rollingBound_iff_spaced` says by how much.
-/
import Mathlib.Data.List.Basic

namespace RollingWindow

/-- The aligned window of an instant. -/
def windowOf (len t : Nat) : Nat := t / len

/-- The arrivals that pass, when `seen` came before them. -/
def passed (len cap : Nat) (seen : List Nat) : List Nat → List Nat
  | [] => []
  | t :: rest =>
      if seen.countP (windowOf len · = windowOf len t) < cap then
        t :: passed len cap (seen ++ [t]) rest
      else passed len cap (seen ++ [t]) rest

/-- The first `cap` arrivals of window `k`. -/
def firsts (len cap k : Nat) (ts : List Nat) : List Nat :=
  (ts.filter (windowOf len · = k)).take cap

/-- No interval of length `len` holds more than `cap` of the instants. -/
def RollingBound (len cap : Nat) (ds : List Nat) : Prop :=
  ∀ t, ds.countP (fun d => t ≤ d ∧ d < t + len) ≤ cap

/-- Take the first `cap` arrivals of every window: the one `cap` places after another,
    in the next window, comes at least `len` later. -/
def Spaced (len cap : Nat) (ts : List Nat) : Prop :=
  ∀ k i a b, (firsts len cap k ts)[i]? = some a →
    (firsts len cap (k + 1) ts)[i + cap - (firsts len cap k ts).length]? = some b → a + len ≤ b

/-! ### What passes -/

theorem passed_snoc (len cap : Nat) (seen ts : List Nat) (t : Nat) :
    passed len cap seen (ts ++ [t]) = passed len cap seen ts ++
      if (seen ++ ts).countP (windowOf len · = windowOf len t) < cap then [t] else [] := by
  induction ts generalizing seen with
  | nil =>
    simp only [List.nil_append, List.append_nil, passed]
  | cons first rest ih =>
    rw [List.cons_append, passed, passed, ih]
    have hseen : seen ++ [first] ++ rest = seen ++ first :: rest := by simp
    rw [hseen]
    split
    · rw [List.cons_append]
    · rfl

theorem filter_passed (len cap k : Nat) (seen ts : List Nat) :
    (passed len cap seen ts).filter (windowOf len · = k) =
      (ts.filter (windowOf len · = k)).take (cap - seen.countP (windowOf len · = k)) := by
  induction ts generalizing seen with
  | nil => simp [passed]
  | cons t rest ih =>
    have hcount : (seen ++ [t]).countP (windowOf len · = k) =
        seen.countP (windowOf len · = k) + if windowOf len t = k then 1 else 0 := by
      simp [List.countP_append, List.countP_singleton]
    rw [passed]
    by_cases hk : windowOf len t = k
    · rw [if_pos hk] at hcount
      by_cases hroom : seen.countP (windowOf len · = windowOf len t) < cap
      · rw [if_pos hroom, List.filter_cons_of_pos (by simpa using hk), ih, hcount,
          List.filter_cons_of_pos (by simpa using hk)]
        rw [hk] at hroom
        rw [show cap - seen.countP (windowOf len · = k) =
          cap - (seen.countP (windowOf len · = k) + 1) + 1 by omega, List.take_succ_cons]
      · rw [if_neg hroom, ih, hcount]
        rw [hk] at hroom
        rw [show cap - (seen.countP (windowOf len · = k) + 1) = 0 by omega,
          show cap - seen.countP (windowOf len · = k) = 0 by omega, List.take_zero, List.take_zero]
    · rw [if_neg hk, Nat.add_zero] at hcount
      have hdrop : ∀ l : List Nat, (t :: l).filter (windowOf len · = k) =
          l.filter (windowOf len · = k) := by
        intro l
        exact List.filter_cons_of_neg (by simpa using hk)
      rw [hdrop, ← hcount, ← ih]
      split
      · exact hdrop _
      · rfl

theorem filter_passed_nil (len cap k : Nat) (ts : List Nat) :
    (passed len cap [] ts).filter (windowOf len · = k) = firsts len cap k ts := by
  rw [filter_passed]; rfl

/-! ### Counting in sorted lists -/

theorem lt_countP_iff {l : List Nat} (hsorted : l.Pairwise (· ≤ ·)) (x i : Nat) :
    i < l.countP (· < x) ↔ ∃ a, l[i]? = some a ∧ a < x := by
  induction l generalizing i with
  | nil => simp
  | cons b rest ih =>
    rw [List.pairwise_cons] at hsorted
    by_cases hb : b < x
    · rw [List.countP_cons_of_pos (by simpa using hb)]
      cases i with
      | zero => simpa using hb
      | succ i => simpa using ih hsorted.2 i
    · have hnone : rest.countP (· < x) = 0 := by
        rw [List.countP_eq_zero]
        intro a ha
        have hab := hsorted.1 a ha
        simp only [decide_eq_true_eq]
        omega
      rw [List.countP_cons_of_neg (by simpa using hb), hnone]
      constructor
      · intro hi
        exact absurd hi (Nat.not_lt_zero i)
      · rintro ⟨a, ha, hax⟩
        have hmem := List.mem_of_getElem? ha
        rcases List.mem_cons.mp hmem with rfl | hrest
        · exact absurd hax hb
        · have hab := hsorted.1 a hrest
          omega

theorem countP_ge (l : List Nat) (x : Nat) :
    l.countP (x ≤ ·) = l.length - l.countP (· < x) := by
  have hsplit := l.length_eq_countP_add_countP (· < x)
  simp only [Bool.not_eq_true, decide_eq_false_iff_not, Nat.not_lt] at hsplit
  omega

theorem countP_interval {len : Nat} (hlen : 0 < len) (t : Nat) (ds : List Nat) :
    ds.countP (fun d => t ≤ d ∧ d < t + len) =
      (ds.filter (windowOf len · = windowOf len t)).countP (t ≤ ·) +
        (ds.filter (windowOf len · = windowOf len t + 1)).countP (· < t + len) := by
  have hstart : windowOf len t * len ≤ t := Nat.div_mul_le_self t len
  have hstop : t < (windowOf len t + 1) * len := by
    rw [windowOf, Nat.mul_comm]
    exact Nat.lt_mul_div_succ t hlen
  have hwindow : ∀ d k, windowOf len d = k ↔ k * len ≤ d ∧ d < (k + 1) * len := by
    intro d k
    rw [windowOf, Nat.div_eq_iff hlen, Nat.add_mul, Nat.one_mul]
    omega
  have hnext : (windowOf len t + 1 + 1) * len = (windowOf len t + 1) * len + len := by
    rw [Nat.add_mul, Nat.one_mul]
  have hnext' : (windowOf len t + 1) * len = windowOf len t * len + len := by
    rw [Nat.add_mul, Nat.one_mul]
  induction ds with
  | nil => rfl
  | cons d rest ih =>
    have hd := hwindow d (windowOf len t)
    have hd' := hwindow d (windowOf len t + 1)
    simp only [List.countP_cons, List.filter_cons, decide_eq_true_eq, hd, hd']
    by_cases hin : windowOf len t * len ≤ d ∧ d < (windowOf len t + 1) * len
    · have hout : ¬((windowOf len t + 1) * len ≤ d ∧ d < (windowOf len t + 1 + 1) * len) := by
        omega
      rw [if_pos hin, if_neg hout, List.countP_cons, ih]
      have hiff : (t ≤ d ∧ d < t + len) ↔ t ≤ d := by omega
      simp only [hiff, decide_eq_true_eq]
      omega
    · by_cases hin' : (windowOf len t + 1) * len ≤ d ∧ d < (windowOf len t + 1 + 1) * len
      · rw [if_neg hin, if_pos hin', List.countP_cons, ih]
        have hiff : (t ≤ d ∧ d < t + len) ↔ d < t + len := by omega
        simp only [hiff, decide_eq_true_eq]
        omega
      · have hnot : ¬(t ≤ d ∧ d < t + len) := by omega
        rw [if_neg hin, if_neg hin', ih]
        simp only [hnot, if_false, Nat.add_zero]

/-! ### The rolling bound -/

theorem rollingBound_iff_spaced {len cap : Nat} (hlen : 0 < len) {ts : List Nat}
    (hsorted : ts.Pairwise (· ≤ ·)) :
    RollingBound len cap (passed len cap [] ts) ↔ Spaced len cap ts := by
  have hfirsts : ∀ k, (firsts len cap k ts).Pairwise (· ≤ ·) := by
    intro k
    exact (hsorted.filter _).take
  have hcap : ∀ k, (firsts len cap k ts).length ≤ cap := by
    intro k
    exact List.length_take_le _ _
  have hcount : ∀ t, (passed len cap [] ts).countP (fun d => t ≤ d ∧ d < t + len) =
      ((firsts len cap (windowOf len t) ts).length -
        (firsts len cap (windowOf len t) ts).countP (· < t)) +
      (firsts len cap (windowOf len t + 1) ts).countP (· < t + len) := by
    intro t
    rw [countP_interval hlen, filter_passed_nil, filter_passed_nil, countP_ge]
  constructor
  · intro hbound k i a b ha hb
    by_contra hclose
    -- the interval that begins with `a` holds what follows it in its window, and `b` too
    have hwindow : windowOf len a = k := by
      have hmem := List.mem_of_mem_take (List.mem_of_getElem? ha)
      simpa using (List.mem_filter.mp hmem).2
    have hle := hbound a
    rw [hcount, hwindow] at hle
    have hbefore : ¬i < (firsts len cap k ts).countP (· < a) := by
      rw [lt_countP_iff (hfirsts k)]
      rintro ⟨a', ha', hlt⟩
      rw [ha] at ha'
      cases ha'
      exact Nat.lt_irrefl _ hlt
    have hafter := (lt_countP_iff (hfirsts (k + 1)) (a + len) _).mpr ⟨b, hb, by omega⟩
    obtain ⟨hi, -⟩ := List.getElem?_eq_some_iff.mp ha
    have hk := hcap k
    omega
  · intro hspaced t
    rw [hcount]
    by_contra hmany
    have hk := hcap (windowOf len t)
    have hk' := hcap (windowOf len t + 1)
    have hcount' := List.countP_le_length (p := (· < t + len)) (l := firsts len cap (windowOf len t + 1) ts)
    -- the first arrival of the interval, and the one `cap` places after it
    obtain ⟨b, hb, hbt⟩ := (lt_countP_iff (hfirsts (windowOf len t + 1)) (t + len)
      ((firsts len cap (windowOf len t) ts).countP (· < t) + cap -
        (firsts len cap (windowOf len t) ts).length)).mp (by omega)
    have hi : (firsts len cap (windowOf len t) ts).countP (· < t) <
        (firsts len cap (windowOf len t) ts).length := by omega
    have ha := List.getElem?_eq_getElem hi
    have hge : ¬(firsts len cap (windowOf len t) ts)[
        (firsts len cap (windowOf len t) ts).countP (· < t)] < t := by
      intro hlt
      exact Nat.lt_irrefl _ ((lt_countP_iff (hfirsts _) t _).mpr ⟨_, ha, hlt⟩)
    have hfar := hspaced _ _ _ _ ha hb
    omega

end RollingWindow
