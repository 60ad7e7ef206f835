/-
  Auditarr/KeyedTable.lean
  ========================
  **Tables with a unique key.**

  A table is its rows in storage order together with the proof that no two of
  them share a key, so that "the row with this key" makes sense.  The operations
  are the ones a relational store offers: `UPDATE … WHERE` that leaves the key
  alone, `DELETE … WHERE`, and insert-or-replace by key.  Each has one membership
  lemma, and nothing below is proved about the order of the rows.
-/
import Mathlib.Data.List.Nodup
import Mathlib.Data.List.Basic
import Mathlib.Data.List.Sort

namespace KeyedTable

universe u v

theorem find?_of_mem {ρ : Type u} {κ : Type v} [DecidableEq κ] {key : ρ → κ} {rows : List ρ} {r : ρ}
    (hunique : (rows.map key).Nodup) (hr : r ∈ rows) :
    rows.find? (fun r' => key r' = key r) = some r := by
  cases hfind : rows.find? (fun r' => key r' = key r) with
  | none =>
    have hdiffers := List.find?_eq_none.mp hfind r hr
    simp at hdiffers
  | some r' =>
    have hkey : key r' = key r := by simpa using List.find?_some hfind
    rw [List.inj_on_of_nodup_map hunique (List.mem_of_find?_eq_some hfind) hr hkey]

/-- Rows of type `ρ`, unique in `key`. -/
structure Table {ρ : Type u} {κ : Type v} (key : ρ → κ) where
  rows : List ρ
  unique : (rows.map key).Nodup

namespace Table

variable {ρ : Type u} {κ : Type v} {key : ρ → κ}

instance : Membership ρ (Table key) := ⟨fun t r => r ∈ t.rows⟩

theorem mem_def {t : Table key} {r : ρ} : r ∈ t ↔ r ∈ t.rows := Iff.rfl

def empty : Table key := ⟨[], List.nodup_nil⟩

theorem not_mem_empty (r : ρ) : r ∉ (empty : Table key) := List.not_mem_nil

theorem ext {t t' : Table key} (h : t.rows = t'.rows) : t = t' := by
  cases t
  cases t'
  simp only at h
  subst h
  rfl

theorem eq_of_key_eq {t : Table key} {r r' : ρ} (hr : r ∈ t) (hr' : r' ∈ t)
    (hkey : key r = key r') : r = r' :=
  List.inj_on_of_nodup_map t.unique hr hr' hkey

/-- `UPDATE … SET f WHERE p`. -/
def update (t : Table key) (p : ρ → Bool) (f : ρ → ρ) (hkey : ∀ r, key (f r) = key r) :
    Table key where
  rows := t.rows.map fun r => if p r then f r else r
  unique := by
    have hsame : key ∘ (fun r => if p r then f r else r) = key := by
      funext r
      by_cases hp : p r <;> simp [hp, hkey]
    rw [List.map_map, hsame]
    exact t.unique

theorem mem_update {t : Table key} {p : ρ → Bool} {f : ρ → ρ} {hkey : ∀ r, key (f r) = key r}
    {r : ρ} : r ∈ t.update p f hkey ↔ ∃ old ∈ t, (if p old then f old else old) = r :=
  List.mem_map

theorem key_mem_of_mem_update {t : Table key} {p : ρ → Bool} {f : ρ → ρ}
    (hkey : ∀ r, key (f r) = key r) {r : ρ} (h : r ∈ t.update p f hkey) :
    ∃ old ∈ t, key old = key r := by
  obtain ⟨old, hold, rfl⟩ := mem_update.mp h
  refine ⟨old, hold, ?_⟩
  split
  · exact (hkey old).symm
  · rfl

/-- `DELETE … WHERE p`. -/
def erase (t : Table key) (p : ρ → Bool) : Table key where
  rows := t.rows.filter fun r => !p r
  unique := t.unique.sublist (List.filter_sublist.map key)

theorem mem_erase {t : Table key} {p : ρ → Bool} {r : ρ} :
    r ∈ t.erase p ↔ r ∈ t ∧ p r = false := by
  simp only [mem_def, erase, List.mem_filter, Bool.not_eq_true']

theorem filter_erase {t : Table key} {p q : ρ → Bool} (h : ∀ r ∈ t, q r = true → p r = false) :
    (t.erase p).rows.filter q = t.rows.filter q := by
  simp only [erase, List.filter_filter]
  refine List.filter_congr fun r hr => ?_
  cases hq : q r with
  | false => rfl
  | true => rw [h r hr hq]; rfl

theorem filter_update {t : Table key} {p q : ρ → Bool} {f : ρ → ρ} (hkey : ∀ r, key (f r) = key r)
    (h : ∀ r ∈ t, p r = true → q r = false ∧ q (f r) = false) :
    (t.update p f hkey).rows.filter q = t.rows.filter q := by
  have hrows : ∀ rows : List ρ, (∀ r ∈ rows, r ∈ t) →
      (rows.map fun r => if p r then f r else r).filter q = rows.filter q := by
    intro rows hsub
    induction rows with
    | nil => rfl
    | cons r rest ih =>
      have hrest := ih fun r' hr' => hsub r' (List.mem_cons_of_mem _ hr')
      rw [List.map_cons, List.filter_cons, List.filter_cons, hrest]
      cases hp : p r with
      | true =>
        obtain ⟨hold, hnew⟩ := h r (hsub r (List.mem_cons_self ..)) hp
        rw [if_pos rfl, hold, hnew]; rfl
      | false => rfl
  exact hrows t.rows fun _ hr => hr

section Keys

variable [DecidableEq κ]

/-- `SELECT … WHERE key = k`. -/
def find? (t : Table key) (k : κ) : Option ρ := t.rows.find? fun r => key r = k

theorem mem_of_find? {t : Table key} {k : κ} {r : ρ} (h : t.find? k = some r) :
    r ∈ t ∧ key r = k := by
  refine ⟨List.mem_of_find?_eq_some h, ?_⟩
  simpa using List.find?_some h

theorem find?_eq_none {t : Table key} {k : κ} : t.find? k = none ↔ ∀ r ∈ t, key r ≠ k := by
  simp only [find?, List.find?_eq_none, decide_eq_true_eq, mem_def, ne_eq]

theorem find?_eq_some {t : Table key} {k : κ} {r : ρ} :
    t.find? k = some r ↔ r ∈ t ∧ key r = k := by
  refine ⟨mem_of_find?, fun ⟨hmem, hkey⟩ => ?_⟩
  rw [find?, ← hkey]
  exact find?_of_mem t.unique hmem

theorem find?_update {t : Table key} {p : ρ → Bool} {f : ρ → ρ} {hkey : ∀ r, key (f r) = key r}
    (k : κ) : (t.update p f hkey).find? k = (t.find? k).map fun r => if p r then f r else r := by
  simp only [find?, update, List.find?_map]
  refine congrArg (Option.map _) (congrArg (List.find? · t.rows) (funext fun r => ?_))
  by_cases hp : p r <;> simp [hp, hkey]

theorem find?_erase_self {t : Table key} (k : κ) : (t.erase fun r => key r = k).find? k = none := by
  rw [find?_eq_none]
  intro r hr heq
  simp [mem_erase, heq] at hr

theorem find?_erase_other {t : Table key} {k k' : κ} (hne : k' ≠ k) :
    (t.erase fun r => key r = k).find? k' = t.find? k' := by
  simp only [find?, erase, List.find?_filter]
  refine congrArg (List.find? · t.rows) (funext fun r => ?_)
  by_cases hr : key r = k'
  · simp [hr, hne]
  · simp [hr]

/-- Replace the row with this key, or append the row. -/
def upsert (t : Table key) (row : ρ) : Table key where
  rows :=
    if ∃ r ∈ t.rows, key r = key row then t.rows.map fun r => if key r = key row then row else r
    else t.rows ++ [row]
  unique := by
    split
    · have hsame : key ∘ (fun r => if key r = key row then row else r) = key := by
        funext r
        by_cases hr : key r = key row <;> simp [hr]
      rw [List.map_map, hsame]
      exact t.unique
    · rename_i hfresh
      rw [List.map_append, List.map_singleton]
      refine List.nodup_append.mpr ⟨t.unique, List.nodup_singleton _, ?_⟩
      intro k hk k' hk' heq
      obtain ⟨r, hr, rfl⟩ := List.mem_map.mp hk
      exact hfresh ⟨r, hr, heq.trans (List.mem_singleton.mp hk')⟩

theorem mem_upsert {t : Table key} {row r : ρ} :
    r ∈ t.upsert row ↔ r = row ∨ (r ∈ t ∧ key r ≠ key row) := by
  simp only [mem_def, upsert]
  split
  · rename_i hold
    obtain ⟨old, hmem, hkey⟩ := hold
    constructor
    · intro hr
      obtain ⟨x, hx, rfl⟩ := List.mem_map.mp hr
      by_cases hxk : key x = key row
      · exact .inl (by simp [hxk])
      · exact .inr (by simp [hxk, hx])
    · rintro (rfl | ⟨hr, hne⟩)
      · exact List.mem_map.mpr ⟨old, hmem, by simp [hkey]⟩
      · exact List.mem_map.mpr ⟨r, hr, by simp [hne]⟩
  · rename_i hfresh
    rw [List.mem_append, List.mem_singleton]
    constructor
    · rintro (hr | rfl)
      · exact .inr ⟨hr, fun hkey => hfresh ⟨r, hr, hkey⟩⟩
      · exact .inl rfl
    · rintro (rfl | ⟨hr, -⟩)
      · exact .inr rfl
      · exact .inl hr

theorem find?_upsert {t : Table key} {row : ρ} (k : κ) :
    (t.upsert row).find? k = if k = key row then some row else t.find? k := by
  split
  · rename_i hk
    exact find?_eq_some.mpr ⟨mem_upsert.mpr (.inl rfl), hk.symm⟩
  · rename_i hk
    apply Option.ext
    intro r
    rw [find?_eq_some, find?_eq_some, mem_upsert]
    constructor
    · rintro ⟨rfl | ⟨hr, -⟩, hkey⟩
      · exact absurd hkey.symm hk
      · exact ⟨hr, hkey⟩
    · rintro ⟨hr, rfl⟩
      exact ⟨.inr ⟨hr, hk⟩, rfl⟩

theorem rows_upsert_old {t : Table key} {row : ρ} (h : ∃ r ∈ t.rows, key r = key row) :
    (t.upsert row).rows = t.rows.map fun r => if key r = key row then row else r :=
  if_pos h

theorem rows_upsert_new {t : Table key} {row : ρ} (h : ¬∃ r ∈ t.rows, key r = key row) :
    (t.upsert row).rows = t.rows ++ [row] :=
  if_neg h

theorem upsert_of_mem {t : Table key} {row : ρ} (h : row ∈ t) : t.upsert row = t := by
  apply ext
  rw [rows_upsert_old ⟨row, h, rfl⟩]
  refine (List.map_congr_left fun r hr => ?_).trans (List.map_id _)
  by_cases hkey : key r = key row
  · rw [if_pos hkey, eq_of_key_eq hr h hkey, id]
  · rw [if_neg hkey, id]

theorem upsert_upsert {t : Table key} {row row' : ρ} (hkey : key row = key row') :
    (t.upsert row).upsert row' = t.upsert row' := by
  have hstays : ∃ r ∈ (t.upsert row).rows, key r = key row' :=
    ⟨row, mem_upsert.mpr (.inl rfl), hkey⟩
  apply ext
  rw [rows_upsert_old hstays]
  by_cases hold : ∃ r ∈ t.rows, key r = key row'
  · rw [rows_upsert_old hold, rows_upsert_old (hkey.symm ▸ hold), List.map_map]
    apply List.map_congr_left
    intro r _
    by_cases hr : key r = key row' <;> simp [hr, hkey]
  · rw [rows_upsert_new hold, rows_upsert_new (hkey.symm ▸ hold), List.map_append,
      List.map_singleton, if_pos hkey]
    have hothers : (t.rows.map fun r => if key r = key row' then row' else r) = t.rows := by
      rw [List.map_congr_left fun r hr => if_neg fun heq => hold ⟨r, hr, heq⟩, List.map_id']
    rw [hothers]

theorem filter_upsert {t : Table key} {row : ρ} {q : ρ → Bool}
    (h : ∀ r, key r = key row → q r = false) :
    (t.upsert row).rows.filter q = t.rows.filter q := by
  simp only [upsert]
  split
  · induction t.rows with
    | nil => rfl
    | cons r rest ih =>
      rw [List.map_cons, List.filter_cons, List.filter_cons, ih]
      by_cases hr : key r = key row
      · rw [if_pos hr, h row rfl, h r hr]; rfl
      · rw [if_neg hr]
  · rw [List.filter_append, List.filter_singleton, h row rfl]
    simp

theorem countP_key (t : Table key) (k : κ) :
    t.rows.countP (fun r => key r = k) = if (t.find? k).isSome then 1 else 0 := by
  have hcount : t.rows.countP (fun r => key r = k) = (t.rows.map key).count k := by
    rw [List.count, List.countP_map]
    refine List.countP_congr fun r _ => ?_
    simp
  rw [hcount, List.Nodup.count t.unique]
  refine if_congr ?_ rfl rfl
  rw [List.mem_map, Option.isSome_iff_exists]
  exact exists_congr fun r => find?_eq_some.symm

theorem countP_keys (t : Table key) {k k' : κ} (hne : k ≠ k') :
    t.rows.countP (fun r => key r = k ∨ key r = k') =
      (if (t.find? k).isSome then 1 else 0) + (if (t.find? k').isSome then 1 else 0) := by
  rw [← countP_key, ← countP_key]
  induction t.rows with
  | nil => rfl
  | cons r rest ih =>
    simp only [List.countP_cons, ih, decide_eq_true_eq]
    by_cases hk : key r = k
    · simp only [hk, hne, or_false, if_true, if_false]
      omega
    · by_cases hk' : key r = k'
      · simp only [hk', hne.symm, or_true, if_true, if_false]
        omega
      · simp only [hk, hk', or_false, if_false]
        omega

end Keys

end Table

/-! ### Pages of a selection in order -/

section Pages

variable {α : Type u} [DecidableEq α] (r : α → α → Prop) [DecidableRel r]

/-- How many of a list come before an element of it. -/
def ahead (l : List α) (a : α) : Nat := (l.filter fun b => r b a ∧ b ≠ a).length

theorem ahead_perm {l l' : List α} (h : l.Perm l') (a : α) : ahead r l a = ahead r l' a :=
  (h.filter _).length_eq

theorem ahead_lt_length {l : List α} {a : α} (ha : a ∈ l) : ahead r l a < l.length := by
  refine List.length_filter_lt_length_iff_exists.mpr ⟨a, ha, ?_⟩
  simp

theorem mem_take_iff_ahead {l : List α} (hsorted : l.Pairwise r) (hnodup : l.Nodup)
    (hantisymm : ∀ a ∈ l, ∀ b ∈ l, r a b → r b a → a = b) {a : α} (ha : a ∈ l) (n : Nat) :
    a ∈ l.take n ↔ ahead r l a < n := by
  induction l generalizing n with
  | nil => cases ha
  | cons x rest ih =>
    obtain ⟨hfirst, hrest⟩ := List.pairwise_cons.mp hsorted
    obtain ⟨hfresh, hdistinct⟩ := List.nodup_cons.mp hnodup
    cases n with
    | zero => simp
    | succ n =>
      rcases List.mem_cons.mp ha with rfl | hlater
      · -- nothing comes before the first
        have hnone : ahead r (a :: rest) a = 0 := by
          rw [ahead, List.length_eq_zero_iff, List.filter_eq_nil_iff]
          intro b hb hbefore
          obtain ⟨hba, hne⟩ := of_decide_eq_true hbefore
          have hrest' : b ∈ rest := (List.mem_cons.mp hb).resolve_left hne
          exact hne (hantisymm b hb a ha hba (hfirst b hrest'))
        simp [hnone]
      · have hne : x ≠ a := fun heq => hfresh (heq ▸ hlater)
        have hcount : ahead r (x :: rest) a = ahead r rest a + 1 := by
          simp [ahead, hfirst a hlater, hne]
        have htail := ih hrest hdistinct (fun b hb c hc => hantisymm b (List.mem_cons_of_mem _ hb)
          c (List.mem_cons_of_mem _ hc)) hlater n
        rw [List.take_succ_cons, List.mem_cons, or_iff_right (Ne.symm hne), htail, hcount]
        omega

theorem mem_take_insertionSort_iff [Std.Total r] [IsTrans α r] {l : List α} (hnodup : l.Nodup)
    (hantisymm : ∀ a ∈ l, ∀ b ∈ l, r a b → r b a → a = b) {a : α} (n : Nat) :
    a ∈ (l.insertionSort r).take n ↔ a ∈ l ∧ ahead r l a < n := by
  have hperm := List.perm_insertionSort r l
  constructor
  · intro h
    have ha := hperm.mem_iff.mp (List.mem_of_mem_take h)
    refine ⟨ha, ?_⟩
    rw [← ahead_perm r hperm]
    refine (mem_take_iff_ahead r (List.pairwise_insertionSort r l) (hperm.nodup_iff.mpr hnodup) ?_
      (hperm.mem_iff.mpr ha) n).mp h
    exact fun b hb c hc => hantisymm b (hperm.mem_iff.mp hb) c (hperm.mem_iff.mp hc)
  · rintro ⟨ha, hfew⟩
    rw [← ahead_perm r hperm] at hfew
    refine (mem_take_iff_ahead r (List.pairwise_insertionSort r l) (hperm.nodup_iff.mpr hnodup) ?_
      (hperm.mem_iff.mpr ha) n).mpr hfew
    exact fun b hb c hc => hantisymm b (hperm.mem_iff.mp hb) c (hperm.mem_iff.mp hc)

end Pages
end KeyedTable
