/-
  Auditarr/SqlJoin.lean
  =====================
  **Joins of two tables.**

  A join pairs every row of the left side with the rows of the right side that it is on.
  Where that is one row at the most, as on a key of the right side, no row of the left side is
  repeated: the inner join keeps those that have a partner, the left outer join keeps them all.
-/
import Mathlib.Data.List.Nodup

namespace SqlJoin

variable {α β : Type} (on : α → β → Bool) (left : List α) (right : List β)

/-- `JOIN`. -/
def inner : List (α × β) := left.flatMap fun a => (right.filter (on a)).map fun b => (a, b)

/-- The partners of a row, or `NULL`. -/
def partners (a : α) : List (Option β) :=
  if right.filter (on a) = [] then [none] else (right.filter (on a)).map some

/-- `LEFT OUTER JOIN`. -/
def leftOuter : List (α × Option β) :=
  left.flatMap fun a => (partners on right a).map fun b => (a, b)

/-- No row is on two rows of the right side. -/
def OnKey : Prop := ∀ a, (right.filter (on a)).length ≤ 1

variable {on left right}

theorem filter_eq_toList {p : β → Bool} (h : (right.filter p).length ≤ 1) :
    right.filter p = (right.find? p).toList := by
  rw [← List.head?_filter]
  rcases hrows : right.filter p with _ | ⟨b, rest⟩
  · rfl
  · rw [hrows, List.length_cons] at h
    have hrest : rest = [] := List.length_eq_zero_iff.mp (by omega)
    rw [hrest]
    rfl

theorem partners_eq (h : OnKey on right) (a : α) : partners on right a = [right.find? (on a)] := by
  rw [partners, filter_eq_toList (h a)]
  rcases right.find? (on a) with _ | b
  · rfl
  · rfl

theorem inner_eq (h : OnKey on right) :
    inner on left right = left.filterMap fun a => (right.find? (on a)).map fun b => (a, b) := by
  rw [inner, List.filterMap_eq_flatMap_toList]
  apply List.flatMap_congr
  intro a _
  rw [filter_eq_toList (h a)]
  rcases right.find? (on a) with _ | b
  · rfl
  · rfl

theorem leftOuter_eq (h : OnKey on right) :
    leftOuter on left right = left.map fun a => (a, right.find? (on a)) := by
  rw [leftOuter, List.map_eq_flatMap]
  apply List.flatMap_congr
  intro a _
  rw [partners_eq h]
  rfl

theorem onKey_of_nodup {κ : Type} [DecidableEq κ] {key : β → κ} (hnodup : (right.map key).Nodup)
    {of : α → Option κ} : OnKey (fun a b => of a == some (key b)) right := by
  intro a
  change (right.filter fun b => of a == some (key b)).length ≤ 1
  rcases of a with _ | k
  · simp
  · have hsame : right.filter (fun b => some k == some (key b)) =
        right.filter fun b => key b == k := by
      apply List.filter_congr
      intro b _
      rw [Option.some_beq_some, Bool.beq_comm]
    rw [hsame, ← List.countP_eq_length_filter]
    have hcount := List.nodup_iff_count_le_one.mp hnodup k
    rwa [List.count, List.countP_map] at hcount

end SqlJoin
