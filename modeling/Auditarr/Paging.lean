/-
  Auditarr/Paging.lean
  ====================
  **Pages of an ordering with ties.**

  Every page is asked for anew, and rows that the ordering leaves tied may come in another
  order each time.  Where nothing is tied the pages put together are the rows in their order
  (`Pages.concat_eq`).  In general they hold every row once, whatever order is taken for
  each, iff no rows that are tied are parted by the end of a page (`partition_iff`).
-/
import Mathlib.Data.List.Nodup
import Mathlib.Data.List.Pairwise
import Mathlib.Data.List.Perm.Basic
import Mathlib.Data.List.Sort
import Mathlib.Order.Lattice

namespace Paging

variable {α : Type} {le : α → α → Prop} {rows : List α} {limit : Nat}

/-- What ordering the rows and taking a page of them may give. -/
def Page (le : α → α → Prop) (rows : List α) (offset limit : Nat) (items : List α) : Prop :=
  ∃ ordered : List α, ordered.Perm rows ∧ ordered.Pairwise le ∧
    items = (ordered.drop offset).take limit

/-- The pages of one size, from the first row on. -/
def Pages (le : α → α → Prop) (rows : List α) (limit : Nat) (pages : Nat → List α) : Prop :=
  ∀ k, Page le rows (k * limit) limit (pages k)

/-- The first so many pages. -/
def concat (pages : Nat → List α) (n : Nat) : List α := (List.range n).flatMap pages

theorem concat_succ (pages : Nat → List α) (n : Nat) :
    concat pages (n + 1) = concat pages n ++ pages n := by
  simp [concat, List.range_succ]

theorem concat_windows (ordered : List α) (limit n : Nat) :
    concat (fun k => (ordered.drop (k * limit)).take limit) n = ordered.take (n * limit) := by
  induction n with
  | zero => simp [concat]
  | succ n ih => rw [concat_succ, ih, Nat.succ_mul, List.take_add]

theorem ordered_unique (hties : ∀ a ∈ rows, ∀ b ∈ rows, le a b → le b a → a = b)
    {ordered ordered' : List α} (hperm : ordered.Perm rows) (hordered : ordered.Pairwise le)
    (hperm' : ordered'.Perm rows) (hordered' : ordered'.Pairwise le) : ordered = ordered' := by
  apply List.Perm.eq_of_pairwise _ hordered hordered' (hperm.trans hperm'.symm)
  intro a b ha hb hab hba
  exact hties a (hperm.mem_iff.mp ha) b (hperm'.mem_iff.mp hb) hab hba

theorem Pages.concat_eq (hties : ∀ a ∈ rows, ∀ b ∈ rows, le a b → le b a → a = b)
    {ordered : List α} (hperm : ordered.Perm rows) (hordered : ordered.Pairwise le)
    {pages : Nat → List α} (h : Pages le rows limit pages) (n : Nat) :
    concat pages n = ordered.take (n * limit) := by
  have hpages : pages = fun k => (ordered.drop (k * limit)).take limit := by
    funext k
    obtain ⟨ordered', hperm', hordered', hitems⟩ := h k
    rw [hitems, ordered_unique hties hperm hordered hperm' hordered']
  rw [hpages, concat_windows]

theorem exists_ordered (htotal : ∀ a b, le a b ∨ le b a)
    (htrans : ∀ a b c, le a b → le b c → le a c) (rows : List α) :
    ∃ ordered : List α, ordered.Perm rows ∧ ordered.Pairwise le := by
  classical
  refine ⟨rows.mergeSort fun a b => decide (le a b), List.mergeSort_perm .., ?_⟩
  refine (List.pairwise_mergeSort ?_ ?_ rows).imp ?_
  · intro a b c hab hbc
    rw [decide_eq_true_eq] at hab hbc ⊢
    exact htrans a b c hab hbc
  · intro a b
    rw [Bool.or_eq_true, decide_eq_true_eq, decide_eq_true_eq]
    exact htotal a b
  · intro a b hab
    rwa [decide_eq_true_eq] at hab

/-! ### Rows that are tied -/

section Ties

variable {κ : Type} [LinearOrder κ] {key : α → κ}

/-- One row's number is at most another's. -/
def Rising (key : α → κ) (a b : α) : Prop := key a ≤ key b

/-- How many rows have a smaller number. -/
def before (key : α → κ) (rows : List α) (a : α) : Nat := rows.countP fun b => key b < key a

/-- How many rows have a number that is no greater. -/
def upTo (key : α → κ) (rows : List α) (a : α) : Nat := rows.countP fun b => key b ≤ key a

/-- The rows that are tied with a row are all on its page. -/
def Unsplit (key : α → κ) (rows : List α) (limit : Nat) : Prop :=
  ∀ a ∈ rows, before key rows a / limit = (upTo key rows a - 1) / limit

theorem position {ordered front back : List α} {a : α} (hperm : ordered.Perm rows)
    (hordered : ordered.Pairwise (Rising key)) (hsplit : ordered = front ++ a :: back) :
    before key rows a ≤ front.length ∧ front.length < upTo key rows a := by
  rw [before, upTo, ← hperm.countP_eq, ← hperm.countP_eq]
  subst hsplit
  rw [List.pairwise_append, List.pairwise_cons] at hordered
  obtain ⟨-, ⟨hback, -⟩, hfront⟩ := hordered
  have hnone : back.countP (fun b => key b < key a) = 0 := by
    rw [List.countP_eq_zero]
    intro b hb
    simpa [Rising] using hback b hb
  have hall : front.countP (fun b => key b ≤ key a) = front.length := by
    rw [List.countP_eq_length]
    intro b hb
    simpa [Rising] using hfront b hb a List.mem_cons_self
  constructor
  · rw [List.countP_append, List.countP_cons, hnone]
    simp [List.countP_le_length]
  · rw [List.countP_append, List.countP_cons, hall]
    simp

theorem mem_take_append {front back : List α} {a : α} (hfront : a ∉ front) (n : Nat) :
    a ∈ (front ++ a :: back).take n ↔ front.length < n := by
  constructor
  · intro hmem
    by_contra hlong
    rw [List.take_append_of_le_length (by omega)] at hmem
    exact hfront (List.mem_of_mem_take hmem)
  · intro hlt
    have hn : n = front.length + (n - front.length - 1 + 1) := by omega
    rw [hn, List.take_length_add_append, List.take_succ_cons]
    exact List.mem_append_right _ List.mem_cons_self

theorem mem_window {front back : List α} {a : α} (hnodup : (front ++ a :: back).Nodup)
    (hlimit : 0 < limit) (k : Nat) :
    a ∈ ((front ++ a :: back).drop (k * limit)).take limit ↔ front.length / limit = k := by
  obtain ⟨-, hrest, hdisjoint⟩ := List.nodup_append.mp hnodup
  have hfront : a ∉ front := fun ha => hdisjoint a ha a List.mem_cons_self rfl
  have hback : a ∉ back := (List.nodup_cons.mp hrest).1
  rw [Nat.div_eq_iff hlimit]
  by_cases hstart : k * limit ≤ front.length
  · rw [List.drop_append_of_le_length hstart,
      mem_take_append (fun ha => hfront (List.mem_of_mem_drop ha)), List.length_drop]
    omega
  · have hpast : k * limit = front.length + (k * limit - front.length - 1 + 1) := by omega
    rw [hpast, List.drop_length_add_append, List.drop_succ_cons]
    apply iff_of_false
    · intro hmem
      exact hback (List.mem_of_mem_drop (List.mem_of_mem_take hmem))
    · omega

theorem mem_page_iff (hnodup : rows.Nodup) (hlimit : 0 < limit) (hunsplit : Unsplit key rows limit)
    {k : Nat} {items : List α} (hpage : Page (Rising key) rows (k * limit) limit items) {a : α}
    (ha : a ∈ rows) : a ∈ items ↔ before key rows a / limit = k := by
  obtain ⟨ordered, hperm, hordered, rfl⟩ := hpage
  obtain ⟨front, back, rfl⟩ := List.append_of_mem (hperm.mem_iff.mpr ha)
  obtain ⟨hlow, hhigh⟩ := position hperm hordered rfl
  have hsame : front.length / limit = before key rows a / limit := by
    apply le_antisymm
    · rw [hunsplit a ha]
      exact Nat.div_le_div_right (by omega)
    · exact Nat.div_le_div_right hlow
  rw [mem_window (hperm.nodup_iff.mpr hnodup) hlimit, hsame]

theorem mem_rows_of_page {offset : Nat} {items : List α} (h : Page le rows offset limit items)
    {a : α} (ha : a ∈ items) : a ∈ rows := by
  obtain ⟨ordered, hperm, -, rfl⟩ := h
  exact hperm.mem_iff.mp (List.mem_of_mem_drop (List.mem_of_mem_take ha))

theorem nodup_page {offset : Nat} {items : List α} (hnodup : rows.Nodup)
    (h : Page le rows offset limit items) : items.Nodup := by
  obtain ⟨ordered, hperm, -, rfl⟩ := h
  exact ((hperm.nodup_iff.mpr hnodup).sublist (List.drop_sublist ..)).sublist (List.take_sublist ..)

theorem before_lt_length (key : α → κ) {a : α} (ha : a ∈ rows) :
    before key rows a < rows.length := by
  apply lt_of_le_of_ne List.countP_le_length
  intro hall
  have hself := List.countP_eq_length.mp hall a ha
  simp at hself

theorem partition_of_unsplit (hnodup : rows.Nodup) (hlimit : 0 < limit)
    (hunsplit : Unsplit key rows limit) {pages : Nat → List α}
    (hpages : Pages (Rising key) rows limit pages) {n : Nat} (hn : rows.length ≤ n * limit) :
    (concat pages n).Perm rows := by
  have hdistinct : (concat pages n).Nodup := by
    rw [concat, List.nodup_flatMap]
    refine ⟨fun k _ => nodup_page hnodup (hpages k), List.nodup_range.imp ?_⟩
    intro k k' hne a ha ha'
    have hrow := mem_rows_of_page (hpages k) ha
    rw [mem_page_iff hnodup hlimit hunsplit (hpages k) hrow] at ha
    rw [mem_page_iff hnodup hlimit hunsplit (hpages k') hrow] at ha'
    exact hne (ha.symm.trans ha')
  rw [List.perm_ext_iff_of_nodup hdistinct hnodup]
  intro a
  rw [concat, List.mem_flatMap]
  constructor
  · rintro ⟨k, -, ha⟩
    exact mem_rows_of_page (hpages k) ha
  · intro ha
    refine ⟨before key rows a / limit, ?_, ?_⟩
    · rw [List.mem_range, Nat.div_lt_iff_lt_mul hlimit]
      exact (before_lt_length key ha).trans_le hn
    · exact (mem_page_iff hnodup hlimit hunsplit (hpages _) ha).mpr rfl

/-! ### Ties that are parted -/

theorem exists_rising (key : α → κ) (rows : List α) :
    ∃ ordered : List α, ordered.Perm rows ∧ ordered.Pairwise (Rising key) :=
  exists_ordered (fun a b => le_total (key a) (key b)) (fun _ _ _ hab hbc => hab.trans hbc) rows

/-- There is an order in which a row comes right after the others that a test tells, if none of
    them is above it and all that are below are among them. -/
theorem exists_placed (key : α → κ) {a : α} (ha : a ∈ rows) (test : α → Bool)
    (hlow : ∀ b, test b = true → key b ≤ key a) (hhigh : ∀ b, test b = false → key a ≤ key b) :
    ∃ front back : List α, (front ++ a :: back).Perm rows ∧
      (front ++ a :: back).Pairwise (Rising key) ∧
        front.length + (if test a then 1 else 0) = rows.countP test := by
  obtain ⟨left, right, rfl⟩ := List.append_of_mem ha
  obtain ⟨front, hfront, hrising⟩ := exists_rising key ((left ++ right).filter test)
  obtain ⟨back, hback, hrising'⟩ := exists_rising key ((left ++ right).filter fun b => !test b)
  refine ⟨front, back, ?_, ?_, ?_⟩
  · have hall := (hfront.append hback).trans (List.filter_append_perm test (left ++ right))
    exact (List.perm_middle.trans (hall.cons a)).trans List.perm_middle.symm
  · have hbelow : ∀ b ∈ front, key b ≤ key a := by
      intro b hb
      exact hlow b (List.mem_filter.mp (hfront.mem_iff.mp hb)).2
    have habove : ∀ b ∈ back, key a ≤ key b := by
      intro b hb
      have hout := (List.mem_filter.mp (hback.mem_iff.mp hb)).2
      exact hhigh b (by simpa using hout)
    rw [List.pairwise_append, List.pairwise_cons]
    refine ⟨hrising, ⟨habove, hrising'⟩, ?_⟩
    intro b hb c hc
    rcases List.mem_cons.mp hc with rfl | hc
    · exact hbelow b hb
    · exact (hbelow b hb).trans (habove c hc)
  · rw [hfront.length_eq, ← List.countP_eq_length_filter, List.countP_append, List.countP_append,
      List.countP_cons]
    omega

theorem not_nodup_concat {pages : Nat → List α} {a : α} {n k k' : Nat} (hk : k < n) (hk' : k' < n)
    (hne : k ≠ k') (ha : a ∈ pages k) (ha' : a ∈ pages k') : ¬(concat pages n).Nodup := by
  intro hdistinct
  rw [concat, List.nodup_flatMap] at hdistinct
  have hsymm : Std.Symm (Function.onFun List.Disjoint pages) := ⟨fun _ _ h _ hb hb' => h hb' hb⟩
  have hdisjoint : List.Disjoint (pages k) (pages k') :=
    hdistinct.2.forall (List.mem_range.mpr hk) (List.mem_range.mpr hk') hne
  exact hdisjoint ha ha'

theorem partition_iff (hnodup : rows.Nodup) (hlimit : 0 < limit) :
    (∀ pages, Pages (Rising key) rows limit pages → ∀ n, rows.length ≤ n * limit →
      (concat pages n).Perm rows) ↔ Unsplit key rows limit := by
  constructor
  · intro hpartition a ha
    by_contra hparted
    -- in one order the row comes first of its ties, in another last
    obtain ⟨front, back, hperm, hordered, hfirst⟩ := exists_placed key ha
      (fun b => key b < key a) (by simpa using fun b => le_of_lt) (by simp)
    obtain ⟨front', back', hperm', hordered', hlast⟩ := exists_placed key ha
      (fun b => key b ≤ key a) (by simp) (by simpa using fun b => le_of_lt)
    rw [if_neg (by simp), Nat.add_zero] at hfirst
    rw [if_pos (by simp)] at hlast
    rw [before, upTo, ← hfirst, ← hlast, Nat.add_sub_cancel] at hparted
    let order : Nat → List α := fun k =>
      if k = front'.length / limit then front' ++ a :: back' else front ++ a :: back
    have hpages : Pages (Rising key) rows limit fun k =>
        ((order k).drop (k * limit)).take limit := by
      intro k
      refine ⟨order k, ?_, ?_, rfl⟩
      · simp only [order]
        split
        · exact hperm'
        · exact hperm
      · simp only [order]
        split
        · exact hordered'
        · exact hordered
    have hall := hpartition _ hpages rows.length (Nat.le_mul_of_pos_right _ hlimit)
    have hplace : front.length < rows.length := by
      rw [← hperm.length_eq, List.length_append, List.length_cons]
      omega
    have hplace' : front'.length < rows.length := by
      rw [← hperm'.length_eq, List.length_append, List.length_cons]
      omega
    apply not_nodup_concat ((Nat.div_le_self ..).trans_lt hplace)
      ((Nat.div_le_self ..).trans_lt hplace') hparted _ _ (hall.nodup_iff.mpr hnodup)
    · exact a
    · simp only [order, if_neg hparted]
      exact (mem_window (hperm.nodup_iff.mpr hnodup) hlimit _).mpr rfl
    · simp only [order, if_pos]
      exact (mem_window (hperm'.nodup_iff.mpr hnodup) hlimit _).mpr rfl
  · intro hunsplit pages hpages n hn
    exact partition_of_unsplit hnodup hlimit hunsplit hpages hn

theorem unsplit_map {β : Type} (f : β → α) (rows : List β) (limit : Nat) :
    Unsplit (fun b => key (f b)) rows limit ↔ Unsplit key (rows.map f) limit := by
  simp only [Unsplit, before, upTo, List.forall_mem_map, List.countP_map, Function.comp_def]

end Ties

theorem Pages.perm_of_map {β : Type} {f : α → β} {pages : Nat → List α} {n : Nat}
    (h : Pages le rows limit pages) (hnodup : (rows.map f).Nodup)
    (hperm : ((concat pages n).map f).Perm (rows.map f)) : (concat pages n).Perm rows := by
  have hdistinct : ((concat pages n).map f).Nodup := hperm.nodup_iff.mpr hnodup
  have hrows : ∀ a ∈ concat pages n, a ∈ rows := by
    intro a ha
    rw [concat, List.mem_flatMap] at ha
    obtain ⟨k, -, ha⟩ := ha
    exact mem_rows_of_page (h k) ha
  rw [List.perm_ext_iff_of_nodup (hdistinct.of_map f) (hnodup.of_map f)]
  intro a
  refine ⟨hrows a, ?_⟩
  intro ha
  obtain ⟨b, hb, hsame⟩ := List.mem_map.mp (hperm.mem_iff.mpr (List.mem_map_of_mem ha))
  rwa [← List.inj_on_of_nodup_map hnodup (hrows b hb) ha hsame]

end Paging
