/-
  Auditarr/WindowCounter.lean
  ===========================
  **Counters that belong to a window.**

  A counter stands with the label of the window it counts in.  Found in another window
  it counts from zero.  Where the labels of a history are ordered, so that no window comes
  back, no window is counted above the cap, whatever the counter was in the beginning.
-/
import Mathlib.Algebra.BigOperators.Group.Finset.Basic
import Mathlib.Algebra.Order.BigOperators.Group.Finset

namespace WindowCounter

universe u

variable {ι : Type u} [DecidableEq ι]

/-- What a counter that stands in one window counts in another. -/
def countIn (label : ι) (count : Nat) (l : ι) : Nat := if label = l then count else 0

theorem countIn_self (label : ι) (count : Nat) : countIn label count label = count := if_pos rfl

/-- The history of a counter: in the window of each entry it is advanced or not, and
    advanced only below the cap. -/
inductive Counted (cap : Nat) : ι → Nat → List (ι × Bool) → Prop where
  | nil (label : ι) (count : Nat) : Counted cap label count []
  | cons {label l : ι} {count : Nat} {hit : Bool} {rest : List (ι × Bool)} :
      (hit = true → countIn label count l < cap) →
      Counted cap l (countIn label count l + hit.toNat) rest →
      Counted cap label count ((l, hit) :: rest)

/-- How often the counter was advanced in a window. -/
def hits (l : ι) (run : List (ι × Bool)) : Nat := run.countP fun x => x.1 = l ∧ x.2 = true

theorem hits_cons_self (l : ι) (hit : Bool) (rest : List (ι × Bool)) :
    hits l ((l, hit) :: rest) = hits l rest + hit.toNat := by
  cases hit <;> simp [hits]

theorem hits_cons_other {l l' : ι} (hne : l' ≠ l) (hit : Bool) (rest : List (ι × Bool)) :
    hits l ((l', hit) :: rest) = hits l rest := by
  simp [hits, hne]

section Ordered

variable {before : ι → ι → Prop} (hanti : ∀ a b, before a b → before b a → a = b)

include hanti in
theorem hits_eq_zero {l l' : ι} (hne : l' ≠ l) (hle : before l l') {rest : List (ι × Bool)}
    (hrest : ∀ x ∈ rest, before l' x.1) : hits l rest = 0 := by
  rw [hits, List.countP_eq_zero]
  intro x hx
  simp only [decide_eq_true_eq, not_and]
  rintro rfl
  exact absurd (hanti _ _ (hrest x hx) hle) hne

include hanti in
theorem hits_add_count_le {cap : Nat} {label : ι} {count : Nat} {run : List (ι × Bool)}
    (h : Counted cap label count run) (hsorted : (run.map (·.1)).Pairwise before)
    (hlabel : ∀ x ∈ run, before label x.1) : hits label run + count ≤ max cap count := by
  induction h with
  | nil label count => exact (Nat.zero_add count).symm ▸ Nat.le_max_right cap count
  | @cons label l count hit rest hroom _ ih =>
    rw [List.map_cons, List.pairwise_cons, List.forall_mem_map] at hsorted
    by_cases hl : l = label
    · subst hl
      have hrest := ih hsorted.2 hsorted.1
      rw [countIn_self] at hroom hrest
      rw [hits_cons_self]
      cases hit with
      | false => simpa using hrest
      | true =>
        have hlt := hroom rfl
        simp only [Bool.toNat_true] at hrest ⊢
        omega
    · rw [hits_cons_other hl, hits_eq_zero hanti hl (hlabel _ (List.mem_cons_self ..)) hsorted.1]
      omega

include hanti in
theorem hits_le_cap {cap : Nat} {label : ι} {count : Nat} {run : List (ι × Bool)}
    (h : Counted cap label count run) (hsorted : (run.map (·.1)).Pairwise before) (l : ι) :
    hits l run ≤ cap := by
  induction h with
  | nil label count => simp [hits]
  | @cons label l' count hit rest hroom hrun ih =>
    rw [List.map_cons, List.pairwise_cons, List.forall_mem_map] at hsorted
    by_cases hl : l' = l
    · subst hl
      have hrest := hits_add_count_le hanti hrun hsorted.2 hsorted.1
      rw [hits_cons_self]
      cases hit with
      | false => exact ih hsorted.2
      | true =>
        have hlt := hroom rfl
        simp only [Bool.toNat_true] at hrest ⊢
        omega
    · rw [hits_cons_other hl]
      exact ih hsorted.2

end Ordered

/-! ### At most so many of a window -/

/-- The length of a list of windows in which no window counts more than `cap` times. -/
def capped (cap : Nat) (ls : List ι) : Nat := ∑ l ∈ ls.toFinset, min cap (ls.count l)

theorem capped_le_length (cap : Nat) (ls : List ι) : capped cap ls ≤ ls.length := by
  rw [← List.sum_toFinset_count_eq_length ls]
  exact Finset.sum_le_sum fun l _ => Nat.min_le_right cap _

theorem length_le_capped {cap : Nat} {ls ls' : List ι} (hsub : ls.Sublist ls')
    (hcap : ∀ l, ls.count l ≤ cap) : ls.length ≤ capped cap ls' := by
  rw [← List.sum_toFinset_count_eq_length ls]
  calc ∑ l ∈ ls.toFinset, ls.count l
      ≤ ∑ l ∈ ls.toFinset, min cap (ls'.count l) :=
        Finset.sum_le_sum fun l _ => Nat.le_min.mpr ⟨hcap l, hsub.count_le l⟩
    _ ≤ capped cap ls' := by
        refine Finset.sum_le_sum_of_subset ?_
        intro l hl
        rw [List.mem_toFinset] at hl ⊢
        exact hsub.subset hl

end WindowCounter
