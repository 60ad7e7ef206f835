/-
  Auditarr/TopRows.lean
  =====================
  **The first rows of an ordering with ties.**

  A query that orders rows by a number and takes the first of them leaves open in which order
  rows with the same number come.  Its answers are a relation.  Renaming the rows renames the
  answers, and without ties there is one answer only.
-/
import Mathlib.Data.List.Nodup
import Mathlib.Data.List.Perm.Basic

namespace TopRows

variable {α β : Type} {key : α → Nat} {n : Nat}

/-- What ordering the rows by falling numbers and taking the first `n` of them may give. -/
def Top (key : α → Nat) (n : Nat) (rows answer : List α) : Prop :=
  ∃ ordered : List α, ordered.Perm rows ∧ ordered.Pairwise (fun a b => key b ≤ key a) ∧
    answer = ordered.take n

theorem Top.perm {rows rows' answer : List α} (hperm : rows.Perm rows')
    (h : Top key n rows answer) : Top key n rows' answer := by
  rcases h with ⟨ordered, hordered, hfalling, hanswer⟩
  exact ⟨ordered, hordered.trans hperm, hfalling, hanswer⟩

theorem Top.mem {rows answer : List α} (h : Top key n rows answer) {a : α} (ha : a ∈ answer) :
    a ∈ rows := by
  rcases h with ⟨ordered, hordered, -, rfl⟩
  exact hordered.mem_iff.mp (List.mem_of_mem_take ha)

theorem top_map {f : β → α} {rows : List β} {answer : List α} :
    Top key n (rows.map f) answer ↔
      ∃ named, Top (fun b => key (f b)) n rows named ∧ answer = named.map f := by
  constructor
  · rintro ⟨ordered, hordered, hfalling, rfl⟩
    have hnames : List.Forall₂ (fun a b => a = f b) (rows.map f) rows := by
      rw [List.forall₂_map_left_iff]
      exact List.forall₂_same.mpr fun _ _ => rfl
    rcases List.perm_comp_forall₂ hordered hnames with ⟨named, hnamed, hperm⟩
    have hmap : ordered = named.map f := by
      rw [← List.forall₂_eq_eq_eq, List.forall₂_map_right_iff]
      exact hnamed
    rw [hmap, List.pairwise_map] at hfalling
    exact ⟨named.take n, ⟨named, hperm, hfalling, rfl⟩, by rw [hmap, List.map_take]⟩
  · rintro ⟨named, ⟨ordered, hordered, hfalling, rfl⟩, rfl⟩
    exact ⟨ordered.map f, hordered.map f, List.pairwise_map.mpr hfalling, List.map_take⟩

theorem Top.unique {rows answer answer' : List α} (hties : (rows.map key).Nodup)
    (h : Top key n rows answer) (h' : Top key n rows answer') : answer = answer' := by
  rcases h with ⟨ordered, hordered, hfalling, rfl⟩
  rcases h' with ⟨ordered', hordered', hfalling', rfl⟩
  have hsame : ordered = ordered' := by
    apply List.Perm.eq_of_pairwise _ hfalling hfalling' (hordered.trans hordered'.symm)
    intro a b ha hb hba hab
    apply List.inj_on_of_nodup_map hties (hordered.mem_iff.mp ha) (hordered'.mem_iff.mp hb)
    omega
  rw [hsame]

end TopRows
