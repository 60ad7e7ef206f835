/-
  Auditarr/SlidingWindow.lean
  ===========================
  **A bucket of instants against all that were ever put in.**

  A limiter keeps a bucket of instants.  When something arrives it drops the instants at the front
  that lie before a cutoff, and puts the new one at the end unless the bucket is full.  Where time
  does not run back, and the cutoff with it, the bucket has all admitted instants from the cutoff
  on (`Tracks`), so no span that the cutoff of its end does not cut sees more than the bucket
  holds (`Bounded.admit`).
-/
import Mathlib.Data.List.TakeWhile
import Mathlib.Order.Lattice

namespace SlidingWindow

universe u

variable {T : Type u} [LinearOrder T] {cutoff : T → T} {latest now : T} {admitted bucket : List T}

/-- What eviction leaves of a bucket. -/
def evicted (cutoff : T → T) (now : T) (bucket : List T) : List T :=
  bucket.dropWhile fun t => t < cutoff now

/-- The admitted instants are in order, and the bucket has those from the cutoff on. -/
structure Tracks (cutoff : T → T) (latest : T) (admitted bucket : List T) : Prop where
  sorted : admitted.Pairwise (· ≤ ·)
  past : ∀ t ∈ admitted, t ≤ latest
  split : ∃ dropped, admitted = dropped ++ bucket ∧ ∀ t ∈ dropped, t < cutoff latest

/-- No span that the cutoff of its end does not cut has more than `cap` of the instants. -/
def Bounded (cutoff : T → T) (cap : Nat) (admitted : List T) : Prop :=
  ∀ first last, cutoff last ≤ first → admitted.countP (fun t => first ≤ t ∧ t ≤ last) ≤ cap

theorem Tracks.nil (latest : T) : Tracks cutoff latest [] [] where
  sorted := List.Pairwise.nil
  past := by simp
  split := ⟨[], rfl, by simp⟩

theorem Tracks.later (hcutoff : Monotone cutoff) (h : Tracks cutoff latest admitted bucket)
    (hnow : latest ≤ now) : Tracks cutoff now admitted bucket where
  sorted := h.sorted
  past t ht := (h.past t ht).trans hnow
  split := by
    obtain ⟨dropped, hsplit, hdropped⟩ := h.split
    exact ⟨dropped, hsplit, fun t ht => (hdropped t ht).trans_le (hcutoff hnow)⟩

theorem dropWhile_eq_filter (first : T) {l : List T} (hsorted : l.Pairwise (· ≤ ·)) :
    (l.dropWhile fun t => t < first) = l.filter fun t => first ≤ t := by
  induction l with
  | nil => rfl
  | cons t rest ih =>
    rw [List.pairwise_cons] at hsorted
    by_cases hlt : t < first
    · rw [List.dropWhile_cons_of_pos (by simpa using hlt),
        List.filter_cons_of_neg (by simpa using hlt), ih hsorted.2]
    · have hall : ∀ x ∈ t :: rest, decide (first ≤ x) = true := by
        intro x hx
        rw [decide_eq_true_eq]
        rcases List.mem_cons.mp hx with rfl | hrest
        · exact not_lt.mp hlt
        · exact (not_lt.mp hlt).trans (hsorted.1 x hrest)
      rw [List.dropWhile_cons_of_neg (by simpa using hlt), List.filter_eq_self.mpr hall]

theorem Tracks.evicted_eq (h : Tracks cutoff now admitted bucket) :
    evicted cutoff now bucket = admitted.filter fun t => cutoff now ≤ t := by
  obtain ⟨dropped, hsplit, hdropped⟩ := h.split
  have hsorted : bucket.Pairwise (· ≤ ·) := (List.pairwise_append.mp (hsplit ▸ h.sorted)).2.1
  have hnone : dropped.filter (fun t => cutoff now ≤ t) = [] := by
    rw [List.filter_eq_nil_iff]
    intro t ht
    simpa using hdropped t ht
  rw [evicted, dropWhile_eq_filter _ hsorted, hsplit, List.filter_append, hnone, List.nil_append]

theorem Tracks.length_evicted (h : Tracks cutoff now admitted bucket) :
    (evicted cutoff now bucket).length = admitted.countP fun t => cutoff now ≤ t ∧ t ≤ now := by
  rw [h.evicted_eq, ← List.countP_eq_length_filter]
  apply List.countP_congr
  intro t ht
  simp [h.past t ht]

theorem Tracks.evict (h : Tracks cutoff now admitted bucket) :
    Tracks cutoff now admitted (evicted cutoff now bucket) where
  sorted := h.sorted
  past := h.past
  split := by
    obtain ⟨dropped, hsplit, hdropped⟩ := h.split
    refine ⟨dropped ++ bucket.takeWhile fun t => t < cutoff now, ?_, fun t ht => ?_⟩
    · rw [evicted, List.append_assoc, List.takeWhile_append_dropWhile, hsplit]
    · rcases List.mem_append.mp ht with ht | ht
      · exact hdropped t ht
      · simpa using List.mem_takeWhile_imp ht

theorem Tracks.append (h : Tracks cutoff now admitted bucket) :
    Tracks cutoff now (admitted ++ [now]) (bucket ++ [now]) where
  sorted := by
    rw [List.pairwise_append]
    refine ⟨h.sorted, List.pairwise_singleton _ now, fun t ht x hx => ?_⟩
    rw [List.mem_singleton.mp hx]
    exact h.past t ht
  past t ht := by
    rcases List.mem_append.mp ht with ht | ht
    · exact h.past t ht
    · exact (List.mem_singleton.mp ht).le
  split := by
    obtain ⟨dropped, hsplit, hdropped⟩ := h.split
    exact ⟨dropped, by rw [hsplit, List.append_assoc], hdropped⟩

theorem Bounded.nil (cap : Nat) : Bounded cutoff cap ([] : List T) := fun _ _ _ => Nat.zero_le _

theorem Bounded.admit (hcutoff : Monotone cutoff) {cap : Nat} (hbounded : Bounded cutoff cap admitted)
    (h : Tracks cutoff now admitted bucket) (hroom : (evicted cutoff now bucket).length < cap) :
    Bounded cutoff cap (admitted ++ [now]) := by
  intro first last hspan
  rw [List.countP_append, List.countP_singleton]
  by_cases hin : first ≤ now ∧ now ≤ last
  · -- what is in the span is not yet cut off at this instant
    have hle : admitted.countP (fun t => first ≤ t ∧ t ≤ last) ≤
        admitted.countP (fun t => cutoff now ≤ t ∧ t ≤ now) := by
      apply List.countP_mono_left
      intro t ht hfirst
      simp only [decide_eq_true_eq] at hfirst ⊢
      exact ⟨((hcutoff hin.2).trans hspan).trans hfirst.1, h.past t ht⟩
    rw [← h.length_evicted] at hle
    rw [if_pos (by simpa using hin)]
    omega
  · rw [if_neg (by simpa using hin)]
    exact hbounded first last hspan

end SlidingWindow
