/-
  Auditarr/Grouping.lean
  ======================
  **Values by their keys.**

  A dictionary folded up from pairs, and the answers of a grouping query, hold under each key that
  occurs what its values come to.  If that is a sum, then grouping loses nothing: the sums add up
  to the sum of all values, and grouping once more by a coarser key gives what grouping by that key
  at once does.
-/
import Mathlib.Algebra.BigOperators.Group.List.Basic
import Mathlib.Algebra.Group.Action.Defs
import Mathlib.Algebra.Ring.Nat
import Mathlib.Algebra.BigOperators.Group.Finset.Basic
import Mathlib.Algebra.BigOperators.Group.Finset.Piecewise
import Auditarr.KeyedTable

namespace Grouping

open KeyedTable

variable {κ V M : Type} [DecidableEq κ]

/-! ### What lies under a key -/

/-- The values under a key, in their order. -/
def under (entries : List (κ × V)) (k : κ) : List V :=
  (entries.filter fun e => e.1 = k).map (·.2)

@[simp] theorem under_nil (k : κ) : under ([] : List (κ × V)) k = [] := rfl

theorem under_cons (e : κ × V) (entries : List (κ × V)) (k : κ) :
    under (e :: entries) k = if e.1 = k then e.2 :: under entries k else under entries k := by
  by_cases h : e.1 = k <;> simp [under, h]

@[simp] theorem under_append (entries later : List (κ × V)) (k : κ) :
    under (entries ++ later) k = under entries k ++ under later k := by
  simp [under]

theorem under_concat (entries : List (κ × V)) (e : κ × V) (k : κ) :
    under (entries ++ [e]) k =
      if e.1 = k then under entries k ++ [e.2] else under entries k := by
  rw [under_append, under_cons]
  split <;> simp

theorem under_ne_nil {entries : List (κ × V)} {k : κ} :
    under entries k ≠ [] ↔ k ∈ entries.map (·.1) := by
  simp [under, List.filter_eq_nil_iff]

theorem under_perm {entries entries' : List (κ × V)} (h : entries.Perm entries') (k : κ) :
    (under entries k).Perm (under entries' k) :=
  (h.filter _).map _

theorem under_filter (p : κ → Bool) (entries : List (κ × V)) (k : κ) :
    under (entries.filter fun e => p e.1) k = if p k then under entries k else [] := by
  have hboth : ∀ e : κ × V, (decide (e.1 = k) && p e.1) = (decide (e.1 = k) && p k) := by
    intro e
    by_cases h : e.1 = k <;> simp [h]
  rw [under, List.filter_filter, funext hboth]
  cases p k <;> simp [under]

/-! ### Dictionaries -/

abbrev Dict (κ M : Type) := Table (Prod.fst : κ × M → κ)

/-- `d.get(k, start)`. -/
def Dict.getD (d : Dict κ M) (k : κ) (start : M) : M := ((d.find? k).map (·.2)).getD start

/-- `d[k] = step(d.get(k, start), v)` for one pair after the other. -/
def collect (step : M → V → M) (start : M) (entries : List (κ × V)) : Dict κ M :=
  entries.foldl (fun d e => d.upsert (e.1, step (d.getD e.1 start) e.2)) .empty

variable {step : M → V → M} {start : M}

theorem collect_concat (entries : List (κ × V)) (e : κ × V) :
    collect step start (entries ++ [e]) =
      (collect step start entries).upsert
        (e.1, step ((collect step start entries).getD e.1 start) e.2) := by
  simp [collect]

theorem find?_collect (entries : List (κ × V)) (k : κ) :
    (collect step start entries).find? k =
      if under entries k = [] then none else some (k, (under entries k).foldl step start) := by
  induction entries using List.reverseRecOn generalizing k with
  | nil => simp [collect, Table.find?, Table.empty]
  | append_singleton entries e ih =>
      rw [collect_concat, Table.find?_upsert, under_concat]
      by_cases hk : k = e.1
      · subst hk
        have hget : (collect step start entries).getD e.1 start =
            (under entries e.1).foldl step start := by
          rw [Dict.getD, ih]
          by_cases hnone : under entries e.1 = [] <;> simp [hnone]
        simp [hget]
      · rw [if_neg hk, if_neg (Ne.symm hk), ih]

@[simp] theorem getD_collect (entries : List (κ × V)) (k : κ) :
    (collect step start entries).getD k start = (under entries k).foldl step start := by
  rw [Dict.getD, find?_collect]
  by_cases hnone : under entries k = [] <;> simp [hnone]

theorem mem_collect {entries : List (κ × V)} {k : κ} {m : M} :
    (k, m) ∈ (collect step start entries).rows ↔
      under entries k ≠ [] ∧ m = (under entries k).foldl step start := by
  have hfind := @Table.find?_eq_some _ _ _ _ (collect step start entries) k (k, m)
  rw [find?_collect] at hfind
  rw [← Table.mem_def, ← and_iff_left (a := (k, m) ∈ collect step start entries) rfl, ← hfind]
  by_cases hnone : under entries k = [] <;> simp [hnone, eq_comm]

theorem foldl_gather (values : List V) : values.foldl (fun l v => l ++ [v]) [] = values := by
  induction values using List.reverseRecOn with
  | nil => rfl
  | append_singleton values v ih => rw [List.foldl_concat, ih]

/-! ### Grouping queries -/

/-- An answer of a grouping query: a row for each key that occurs, in any order, with what the
    values under the key come to. -/
structure Grouped (aggregate : List V → M) (entries : List (κ × V)) (answer : List (κ × M)) :
    Prop where
  distinct : (answer.map (·.1)).Nodup
  row : ∀ k m, (k, m) ∈ answer ↔ under entries k ≠ [] ∧ m = aggregate (under entries k)

theorem grouped_collect (step : M → V → M) (start : M) (entries : List (κ × V)) :
    Grouped (List.foldl step start) entries (collect step start entries).rows :=
  ⟨(collect step start entries).unique, fun _ _ => mem_collect⟩

theorem under_of_mem {answer : List (κ × M)} (hdistinct : (answer.map (·.1)).Nodup) {k : κ} {m : M}
    (hmem : (k, m) ∈ answer) : under answer k = [m] := by
  induction answer with
  | nil => cases hmem
  | cons e rest ih =>
      rw [List.map_cons, List.nodup_cons] at hdistinct
      rw [under_cons]
      rcases List.mem_cons.mp hmem with rfl | hrest
      · have hnone : under rest k = [] := by
          by_contra hsome
          exact hdistinct.1 (under_ne_nil.mp hsome)
        simp [hnone]
      · have hne : e.1 ≠ k := fun heq => hdistinct.1 (heq ▸ List.mem_map_of_mem hrest)
        rw [if_neg hne, ih hdistinct.2 hrest]

theorem grouped_keys {aggregate : List V → M} {entries : List (κ × V)} {keys : List κ}
    (hkeys : keys.Nodup) (hcover : ∀ e ∈ entries, e.1 ∈ keys) :
    Grouped aggregate entries ((keys.filter fun k => under entries k ≠ []).map fun k =>
      (k, aggregate (under entries k))) where
  distinct := by
    rw [List.map_map]
    simpa [Function.comp_def] using hkeys.filter _
  row k m := by
    have hmem : under entries k ≠ [] → k ∈ keys := by
      intro hsome
      rcases List.mem_map.mp (under_ne_nil.mp hsome) with ⟨e, he, rfl⟩
      exact hcover e he
    simp only [List.mem_map, List.mem_filter, decide_eq_true_eq, Prod.mk.injEq]
    constructor
    · rintro ⟨k, ⟨-, hsome⟩, rfl, rfl⟩
      exact ⟨hsome, rfl⟩
    · rintro ⟨hsome, rfl⟩
      exact ⟨k, ⟨hmem hsome, hsome⟩, rfl, rfl⟩

namespace Grouped

variable {aggregate : List V → M} {entries : List (κ × V)} {answer : List (κ × M)}

theorem key (h : Grouped aggregate entries answer) {k : κ} :
    k ∈ answer.map (·.1) ↔ under entries k ≠ [] := by
  constructor
  · intro hk
    rcases List.mem_map.mp hk with ⟨⟨k, m⟩, hrow, rfl⟩
    exact ((h.row k m).mp hrow).1
  · intro hk
    exact List.mem_map.mpr ⟨_, (h.row k _).mpr ⟨hk, rfl⟩, rfl⟩

theorem under_eq (h : Grouped aggregate entries answer) (k : κ) :
    under answer k = if under entries k = [] then [] else [aggregate (under entries k)] := by
  split
  · rename_i hnone
    by_contra hsome
    exact h.key.mp (under_ne_nil.mp hsome) hnone
  · rename_i hsome
    exact under_of_mem h.distinct ((h.row k _).mpr ⟨hsome, rfl⟩)

theorem map {N : Type} (h : Grouped aggregate entries answer) (f : M → N) :
    Grouped (fun vs => f (aggregate vs)) entries (answer.map fun e => (e.1, f e.2)) where
  distinct := by
    rw [List.map_map]
    exact h.distinct
  row k n := by
    rw [List.mem_map]
    constructor
    · rintro ⟨⟨k, m⟩, hrow, heq⟩
      cases heq
      have hfound := (h.row k m).mp hrow
      exact ⟨hfound.1, congrArg f hfound.2⟩
    · rintro ⟨hsome, rfl⟩
      exact ⟨(k, aggregate (under entries k)), (h.row _ _).mpr ⟨hsome, rfl⟩, rfl⟩

theorem filter (h : Grouped aggregate entries answer) (p : κ → Bool) :
    Grouped aggregate (entries.filter fun e => p e.1) (answer.filter fun e => p e.1) where
  distinct := h.distinct.sublist (List.filter_sublist.map _)
  row k m := by
    rw [List.mem_filter, h.row, under_filter]
    cases p k <;> simp

theorem of_perm {entries' : List (κ × V)} (h : Grouped aggregate entries answer)
    (haggregate : ∀ vs vs' : List V, vs.Perm vs' → aggregate vs = aggregate vs')
    (hperm : entries.Perm entries') : Grouped aggregate entries' answer where
  distinct := h.distinct
  row k m := by
    have hunder := under_perm hperm k
    have hnil : under entries k = [] ↔ under entries' k = [] :=
      ⟨fun hnone => (hnone ▸ hunder).nil_eq.symm, fun hnone => (hnone ▸ hunder.symm).nil_eq.symm⟩
    rw [h.row, haggregate _ _ hunder, Ne, hnil]

theorem perm {answer' : List (κ × M)} (h : Grouped aggregate entries answer)
    (h' : Grouped aggregate entries answer') : answer.Perm answer' := by
  apply (List.perm_ext_iff_of_nodup h.distinct.of_map h'.distinct.of_map).mpr
  rintro ⟨k, m⟩
  rw [h.row, h'.row]

theorem of_answer_perm {answer' : List (κ × M)} (h : Grouped aggregate entries answer)
    (hperm : answer.Perm answer') : Grouped aggregate entries answer' where
  distinct := (hperm.map _).nodup_iff.mp h.distinct
  row k m := by rw [← hperm.mem_iff, h.row]

theorem union {ι : Type} [DecidableEq ι] {part : κ → ι} {parts : List ι}
    {answers : ι → List (κ × M)} (hparts : parts.Nodup)
    (hcover : ∀ e ∈ entries, part e.1 ∈ parts)
    (h : ∀ i, Grouped aggregate (entries.filter fun e => part e.1 = i) (answers i)) :
    Grouped aggregate entries (parts.flatMap answers) := by
  have hpart : ∀ {i k}, k ∈ (answers i).map (·.1) → part k = i := by
    intro i k hk
    have hsome := (h i).key.mp hk
    by_contra hne
    rw [under_filter (fun k => part k = i)] at hsome
    simp [hne] at hsome
  constructor
  · rw [List.map_flatMap, List.nodup_flatMap]
    refine ⟨fun i _ => (h i).distinct, hparts.imp fun hne => ?_⟩
    intro k hk hk'
    exact hne ((hpart hk).symm.trans (hpart hk'))
  · intro k m
    have hrow : ∀ i, (k, m) ∈ answers i ↔
        part k = i ∧ under entries k ≠ [] ∧ m = aggregate (under entries k) := by
      intro i
      rw [(h i).row, under_filter (fun k => part k = i)]
      by_cases heq : part k = i <;> simp [heq]
    simp only [List.mem_flatMap, hrow]
    constructor
    · rintro ⟨i, -, -, hfound⟩
      exact hfound
    · intro hfound
      rcases List.mem_map.mp (under_ne_nil.mp hfound.1) with ⟨e, he, rfl⟩
      exact ⟨part e.1, hcover e he, rfl, hfound⟩

end Grouped

/-! ### Sums -/

section Sums

variable [AddCommMonoid V] {entries : List (κ × V)} {answer : List (κ × V)}

theorem sum_under {keys : List κ} (hkeys : keys.Nodup) (hcover : ∀ e ∈ entries, e.1 ∈ keys) :
    (keys.map fun k => (under entries k).sum).sum = (entries.map (·.2)).sum := by
  induction entries with
  | nil => simp
  | cons e rest ih =>
      have hone : (keys.map fun k => if e.1 = k then e.2 else 0).sum = e.2 := by
        have hmem : e.1 ∈ keys.toFinset := List.mem_toFinset.mpr (hcover e List.mem_cons_self)
        rw [← List.sum_toFinset _ hkeys, Finset.sum_ite_eq, if_pos hmem]
      have hsplit : (fun k => (under (e :: rest) k).sum) =
          fun k => (if e.1 = k then e.2 else 0) + (under rest k).sum := by
        funext k
        rw [under_cons]
        split <;> simp
      rw [hsplit, List.sum_map_add, hone, ih fun e' he' => hcover e' (List.mem_cons_of_mem e he'),
        List.map_cons, List.sum_cons]

theorem sum_ones {α : Type} (rows : List α) (key : α → κ) (k : κ) :
    (under (rows.map fun a => (key a, 1)) k).sum = rows.countP fun a => key a = k := by
  simp [under, List.filter_map, Function.comp_def, List.countP_eq_length_filter]

theorem sum_parts {α : Type} {rows : List α} {part : α → κ} {keys : List κ} (hkeys : keys.Nodup)
    (hcover : ∀ a ∈ rows, part a ∈ keys) (weight : α → V) :
    (keys.map fun k => ((rows.filter fun a => part a = k).map weight).sum).sum =
      (rows.map weight).sum := by
  have hentries : ∀ e ∈ rows.map fun a => (part a, weight a), e.1 ∈ keys := by
    simpa using hcover
  simpa [under, List.filter_map, Function.comp_def] using sum_under hkeys hentries

theorem countP_parts {α : Type} {rows : List α} {part : α → κ} {keys : List κ}
    (hkeys : keys.Nodup) {p : α → Bool} (hcover : ∀ a ∈ rows, p a = true → part a ∈ keys) :
    (keys.map fun k => rows.countP fun a => p a && decide (part a = k)).sum = rows.countP p := by
  have hkept : ∀ a ∈ rows.filter p, part a ∈ keys := fun a ha =>
    hcover a (List.mem_of_mem_filter ha) (List.of_mem_filter ha)
  have hparts := sum_parts hkeys hkept fun _ => 1
  simp only [List.filter_filter, List.map_const', List.sum_replicate, smul_eq_mul, mul_one]
    at hparts
  simp only [List.countP_eq_length_filter, ← hparts, Bool.and_comm]

theorem grouped_tally (entries : List (κ × V)) :
    Grouped List.sum entries (collect (· + ·) 0 entries).rows := by
  have hsum : List.foldl (· + ·) (0 : V) = List.sum := funext fun _ => List.sum_eq_foldl.symm
  rw [← hsum]
  exact grouped_collect _ _ entries

namespace Grouped

theorem sum_under_eq (h : Grouped List.sum entries answer) (k : κ) :
    (under answer k).sum = (under entries k).sum := by
  rw [h.under_eq]
  split
  · rename_i hnone
    rw [hnone]
  · exact List.sum_singleton

theorem total (h : Grouped List.sum entries answer) :
    (answer.map (·.2)).sum = (entries.map (·.2)).sum := by
  have hrows : ∀ e ∈ answer, e.1 ∈ answer.map (·.1) := fun e he => List.mem_map_of_mem he
  have hentries : ∀ e ∈ entries, e.1 ∈ answer.map (·.1) := fun e he =>
    h.key.mpr (under_ne_nil.mpr (List.mem_map_of_mem he))
  rw [← sum_under h.distinct hrows, ← sum_under h.distinct hentries]
  simp only [h.sum_under_eq]

theorem coarser {κ' : Type} [DecidableEq κ'] (h : Grouped List.sum entries answer) (f : κ → κ')
    (k : κ') :
    (under (answer.map fun e => (f e.1, e.2)) k).sum =
      (under (entries.map fun e => (f e.1, e.2)) k).sum := by
  have hunder : ∀ rows : List (κ × V), under (rows.map fun e => (f e.1, e.2)) k =
      (rows.filter fun e => f e.1 = k).map (·.2) := by
    intro rows
    simp [under, List.filter_map, Function.comp_def]
  rw [hunder, hunder]
  exact (h.filter fun k' => f k' = k).total

theorem regroup {κ' : Type} [DecidableEq κ'] {merged : List (κ' × V)}
    (h : Grouped List.sum entries answer) {f : κ → κ'}
    (hmerged : Grouped List.sum (answer.map fun e => (f e.1, e.2)) merged) :
    Grouped List.sum (entries.map fun e => (f e.1, e.2)) merged where
  distinct := hmerged.distinct
  row k v := by
    have hkeys : under (answer.map fun e => (f e.1, e.2)) k ≠ [] ↔
        under (entries.map fun e => (f e.1, e.2)) k ≠ [] := by
      simp only [under_ne_nil, List.map_map, List.mem_map, Function.comp_apply]
      constructor
      · rintro ⟨e, he, rfl⟩
        rcases List.mem_map.mp (under_ne_nil.mp (h.key.mp (List.mem_map_of_mem he)))
          with ⟨e', he', heq⟩
        exact ⟨e', he', congrArg f heq⟩
      · rintro ⟨e, he, rfl⟩
        rcases List.mem_map.mp (h.key.mpr (under_ne_nil.mpr (List.mem_map_of_mem he)))
          with ⟨e', he', heq⟩
        exact ⟨e', he', congrArg f heq⟩
    rw [hmerged.row, hkeys, h.coarser]

theorem map_hom {W : Type} [AddCommMonoid W] (h : Grouped List.sum entries answer) (f : V →+ W) :
    Grouped List.sum (entries.map fun e => (e.1, f e.2)) (answer.map fun e => (e.1, f e.2)) where
  distinct := (h.map f).distinct
  row k w := by
    have hunder : under (entries.map fun e => (e.1, f e.2)) k = (under entries k).map f := by
      simp [under, List.filter_map, Function.comp_def]
    rw [(h.map f).row, hunder, map_list_sum, Ne, Ne, List.map_eq_nil_iff]

end Grouped

end Sums

end Grouping
