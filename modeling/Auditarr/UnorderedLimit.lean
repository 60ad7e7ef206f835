/-
  Auditarr/UnorderedLimit.lean
  ============================
  **Answers of an unordered query with a limit, and the best row of one.**

  Without an order a query with a limit may answer with any rows that match, in any order, as
  long as no more than the limit allows is left out.  A scan that keeps the best row so far, the
  first of equals, picks the same row from every answer only if one row leads.
-/
import Mathlib.Data.List.Perm.Basic

namespace UnorderedLimit

universe u v w

/-! ### Answers -/

section Answers

variable {α : Type u} {limit : Nat} {rows answer : List α}

/-- The database may answer so. -/
def Answer (limit : Nat) (rows answer : List α) : Prop :=
  ∃ order : List α, order.Perm rows ∧ answer = order.take limit

theorem answer_take (limit : Nat) (rows : List α) : Answer limit rows (rows.take limit) :=
  ⟨rows, .refl rows, rfl⟩

theorem Answer.mem (h : Answer limit rows answer) {a : α} (ha : a ∈ answer) : a ∈ rows := by
  obtain ⟨order, hperm, rfl⟩ := h
  exact hperm.mem_iff.mp (List.mem_of_mem_take ha)

theorem Answer.perm (h : Answer limit rows answer) (hlimit : rows.length ≤ limit) :
    answer.Perm rows := by
  obtain ⟨order, hperm, rfl⟩ := h
  rw [List.take_of_length_le (hperm.length_eq ▸ hlimit)]
  exact hperm

theorem exists_answer_cons [DecidableEq α] {a : α} (ha : a ∈ rows) (hlimit : 0 < limit) :
    ∃ rest, Answer limit rows (a :: rest) := by
  refine ⟨(rows.erase a).take (limit - 1), a :: rows.erase a, (List.perm_cons_erase ha).symm, ?_⟩
  rw [List.take_cons hlimit]

theorem exists_answer_without [DecidableEq α] {a : α} (ha : a ∈ rows) (hnodup : rows.Nodup)
    (hlimit : limit < rows.length) : ∃ answer, Answer limit rows answer ∧ a ∉ answer := by
  refine ⟨_, ⟨rows.erase a ++ [a], ?_, rfl⟩, ?_⟩
  · apply (List.perm_append_singleton a _).trans
    exact (List.perm_cons_erase ha).symm
  · have hlength : limit ≤ (rows.erase a).length := by
      rw [List.length_erase_of_mem ha]
      omega
    rw [List.take_append_of_le_length hlength]
    intro hmem
    exact hnodup.not_mem_erase (List.mem_of_mem_take hmem)

end Answers

/-! ### The best row -/

section Best

variable {α : Type u} {β : Type v} {κ : Type w} (lt : β → β → Bool) (score : α → β) (name : α → κ)

/-- One step of the scan: a better row takes the place of the best so far. -/
def keep (best : Option κ × β) (a : α) : Option κ × β :=
  if lt best.2 (score a) then (some (name a), score a) else best

/-- The name of the best row, if its score is accepted. -/
def pick (accept : β → Bool) (start : β) (rows : List α) : Option κ :=
  match rows.foldl (keep lt score name) (none, start) with
  | (some k, s) => if accept s then some k else none
  | (none, _) => none

/-- Scores of rows are compared strictly and totally; the accepted ones are the upper ones, and
    better than the start. -/
structure Ranking (lt : β → β → Bool) (score : α → β) (accept : β → Bool) (start : β) : Prop where
  irrefl : ∀ s, lt s s = false
  trans : ∀ s t u, lt s t = true → lt t u = true → lt s u = true
  total : ∀ a b, lt (score a) (score b) = false → lt (score b) (score a) = false → score a = score b
  above : ∀ a, accept (score a) = true → lt start (score a) = true
  upward : ∀ a b, accept (score a) = true → lt (score b) (score a) = false → accept (score b) = true

/-- A row that leads: its score is accepted, and every other row's is worse. -/
structure Leads (lt : β → β → Bool) (score : α → β) (accept : β → Bool) (rows : List α) (a : α) :
    Prop where
  mem : a ∈ rows
  accepted : accept (score a) = true
  ahead : ∀ b ∈ rows, b ≠ a → lt (score b) (score a) = true

variable {lt score name} {accept : β → Bool} {start : β} {rows : List α}

theorem keep_better {best : Option κ × β} {a : α} (h : lt best.2 (score a) = true) :
    keep lt score name best a = (some (name a), score a) := by
  rw [keep, if_pos h]

theorem keep_not_better {best : Option κ × β} {a : α} (h : lt best.2 (score a) = false) :
    keep lt score name best a = best := by
  rw [keep, h]
  rfl

theorem foldl_keep_stays {best : Option κ × β} (h : ∀ a ∈ rows, lt best.2 (score a) = false) :
    rows.foldl (keep lt score name) best = best := by
  induction rows with
  | nil => rfl
  | cons a rows ih =>
    rw [List.foldl_cons, keep_not_better (h a (.head _))]
    apply ih
    intro b hb
    exact h b (.tail _ hb)

variable (hrank : Ranking lt score accept start)

include hrank

theorem foldl_keep_mem (rows : List α) (best : Option κ × β) :
    rows.foldl (keep lt score name) best = best ∨
      ∃ a ∈ rows, rows.foldl (keep lt score name) best = (some (name a), score a) ∧
        lt best.2 (score a) = true := by
  induction rows generalizing best with
  | nil => exact .inl rfl
  | cons a rows ih =>
    rw [List.foldl_cons]
    cases hlt : lt best.2 (score a) with
    | false =>
      rw [keep_not_better hlt]
      apply (ih best).imp_right
      rintro ⟨b, hb, hscan⟩
      exact ⟨b, .tail _ hb, hscan⟩
    | true =>
      rw [keep_better hlt]
      right
      rcases ih (some (name a), score a) with hstays | ⟨b, hb, hscan, hbetter⟩
      · exact ⟨a, .head _, hstays, hlt⟩
      · exact ⟨b, .tail _ hb, hscan, hrank.trans _ _ _ hlt hbetter⟩

theorem better_than_start {rows : List α} {best : Option κ × β} {s : β}
    (hs : lt (rows.foldl (keep lt score name) best).2 s = true) : lt best.2 s = true := by
  rcases foldl_keep_mem hrank rows best with hstays | ⟨a, -, hscan, hbetter⟩
  · rwa [hstays] at hs
  · rw [hscan] at hs
    exact hrank.trans _ _ _ hbetter hs

theorem foldl_keep_bound (rows : List α) (best : Option κ × β) :
    ∀ a ∈ rows, lt (rows.foldl (keep lt score name) best).2 (score a) = false := by
  induction rows generalizing best with
  | nil => exact fun a ha => absurd ha List.not_mem_nil
  | cons b rows ih =>
    intro a ha
    rw [List.foldl_cons]
    rcases List.mem_cons.mp ha with rfl | ha
    · apply Bool.eq_false_iff.mpr
      intro hlt
      have hstart := better_than_start hrank hlt
      cases hbest : lt best.2 (score a) with
      | false =>
        rw [keep_not_better hbest] at hstart
        exact Bool.noConfusion (hbest.symm.trans hstart)
      | true =>
        rw [keep_better hbest] at hstart
        exact Bool.noConfusion ((hrank.irrefl _).symm.trans hstart)
    · exact ih _ a ha

theorem pick_some {k : κ} (h : pick lt score name accept start rows = some k) :
    ∃ a ∈ rows, name a = k ∧ accept (score a) = true ∧
      ∀ b ∈ rows, lt (score a) (score b) = false := by
  rw [pick] at h
  have hbound : ∀ a ∈ rows, lt (rows.foldl (keep lt score name) (none, start)).2 (score a) = false :=
    foldl_keep_bound hrank rows _
  rcases foldl_keep_mem hrank rows (none, start) with hstays | ⟨a, ha, hscan, -⟩
  · rw [hstays] at h
    cases h
  · rw [hscan] at h hbound
    cases haccept : accept (score a) with
    | false => simp [haccept] at h
    | true =>
      simp only [haccept, if_true, Option.some.injEq] at h
      exact ⟨a, ha, h, haccept, hbound⟩

theorem pick_eq_none (h : ∀ a ∈ rows, accept (score a) = false) :
    pick lt score name accept start rows = none := by
  cases hpick : pick lt score name accept start rows with
  | none => rfl
  | some k =>
    obtain ⟨a, ha, -, haccept, -⟩ := pick_some hrank hpick
    exact Bool.noConfusion ((h a ha).symm.trans haccept)

theorem pick_cons {a : α} (haccept : accept (score a) = true)
    (hfirst : ∀ b ∈ rows, lt (score a) (score b) = false) :
    pick lt score name accept start (a :: rows) = some (name a) := by
  rw [pick, List.foldl_cons, keep_better (hrank.above a haccept), foldl_keep_stays hfirst]
  simp [haccept]

theorem Leads.pick_eq {a : α} (h : Leads lt score accept rows a) :
    pick lt score name accept start rows = some (name a) := by
  have hbound : lt (rows.foldl (keep lt score name) (none, start)).2 (score a) = false :=
    foldl_keep_bound hrank rows _ a h.mem
  rw [pick]
  rcases foldl_keep_mem hrank rows (none, start) with hstays | ⟨b, hb, hscan, -⟩
  · rw [hstays] at hbound
    exact Bool.noConfusion (hbound.symm.trans (hrank.above a h.accepted))
  · rw [hscan] at hbound
    obtain rfl : b = a := by
      by_contra hne
      exact Bool.noConfusion (hbound.symm.trans (h.ahead b hb hne))
    rw [hscan]
    simp [h.accepted]

theorem exists_best (h : ∃ a ∈ rows, accept (score a) = true) :
    ∃ a ∈ rows, accept (score a) = true ∧ ∀ b ∈ rows, lt (score a) (score b) = false := by
  obtain ⟨a, ha, haccept⟩ := h
  have hbound : ∀ b ∈ rows, lt (rows.foldl (keep lt score id) (none, start)).2 (score b) = false :=
    foldl_keep_bound hrank rows _
  rcases foldl_keep_mem hrank rows (none, start) with hstays | ⟨b, hb, hscan, -⟩
  · have hnot := hbound a ha
    rw [hstays] at hnot
    exact Bool.noConfusion (hnot.symm.trans (hrank.above a haccept))
  · rw [hscan] at hbound
    exact ⟨b, hb, hrank.upward a b haccept (hbound a ha), hbound⟩

/-- Every answer has the same pick, and what is picked is an accepted row of the answer, a good
    one and alone with its score. -/
structure Settled (lt : β → β → Bool) (score : α → β) (name : α → κ) (accept : β → Bool) (start : β)
    (good : α → Prop) (limit : Nat) (rows : List α) : Prop where
  picked : ∀ answer, Answer limit rows answer → ∀ k, pick lt score name accept start answer = some k →
    ∃ a ∈ answer, name a = k ∧ accept (score a) = true ∧ good a ∧
      ∀ b ∈ answer, b ≠ a → score b ≠ score a
  same : ∀ answer answer', Answer limit rows answer → Answer limit rows answer' →
    pick lt score name accept start answer = pick lt score name accept start answer'

variable {limit : Nat} {good : α → Prop}

theorem settled_of_none (hnone : ∀ a ∈ rows, accept (score a) = false) :
    Settled lt score name accept start good limit rows := by
  have hpick : ∀ answer, Answer limit rows answer →
      pick lt score name accept start answer = none := by
    intro answer hanswer
    apply pick_eq_none hrank
    intro a ha
    exact hnone a (hanswer.mem ha)
  constructor
  · intro answer hanswer k hk
    rw [hpick answer hanswer] at hk
    cases hk
  · intro answer answer' h h'
    rw [hpick answer h, hpick answer' h']

theorem settled_of_leads (hfits : rows.length ≤ limit) {a : α} (hleads : Leads lt score accept rows a)
    (hgood : good a) : Settled lt score name accept start good limit rows := by
  have hanswered : ∀ answer, Answer limit rows answer → Leads lt score accept answer a := by
    intro answer hanswer
    refine ⟨(hanswer.perm hfits).mem_iff.mpr hleads.mem, hleads.accepted, fun b hb hne => ?_⟩
    exact hleads.ahead b (hanswer.mem hb) hne
  constructor
  · intro answer hanswer k hk
    have hlead := hanswered answer hanswer
    rw [hlead.pick_eq hrank] at hk
    cases hk
    refine ⟨a, hlead.mem, rfl, hlead.accepted, hgood, fun b hb hne heq => ?_⟩
    have hahead := hlead.ahead b hb hne
    rw [heq, hrank.irrefl] at hahead
    cases hahead
  · intro answer answer' h h'
    rw [(hanswered answer h).pick_eq hrank, (hanswered answer' h').pick_eq hrank]

theorem settled_iff [DecidableEq α] (hlimit : 0 < limit) (hrows : rows.Nodup)
    (hname : ∀ a ∈ rows, ∀ b ∈ rows, name a = name b → a = b) :
    Settled lt score name accept start good limit rows ↔
      (∀ a ∈ rows, accept (score a) = false) ∨
        rows.length ≤ limit ∧ ∃ a, Leads lt score accept rows a ∧ good a := by
  constructor
  · rintro ⟨hpicked, hsame⟩
    by_cases hsome : ∃ a ∈ rows, accept (score a) = true
    · right
      obtain ⟨a, ha, haccept, hbest⟩ := exists_best hrank hsome
      obtain ⟨rest, hfirst⟩ := exists_answer_cons ha hlimit
      have hpick : pick lt score name accept start (a :: rest) = some (name a) := by
        apply pick_cons hrank haccept
        intro b hb
        exact hbest b (hfirst.mem (.tail _ hb))
      have hfits : rows.length ≤ limit := by
        -- an answer without the best row has another pick
        by_contra hmore
        obtain ⟨answer, hanswer, hwithout⟩ := exists_answer_without ha hrows (Nat.lt_of_not_le hmore)
        obtain ⟨b, hb, hnameb, -⟩ := pick_some hrank ((hsame _ _ hanswer hfirst).trans hpick)
        exact hwithout (hname b (hanswer.mem hb) a ha hnameb ▸ hb)
      obtain ⟨a', ha', hname', -, hgood, halone⟩ := hpicked _ hfirst _ hpick
      obtain rfl := hname a' (hfirst.mem ha') a ha hname'
      refine ⟨hfits, a', ⟨ha, haccept, fun b hb hne => ?_⟩, hgood⟩
      have hdiffers := halone b ((hfirst.perm hfits).mem_iff.mpr hb) hne
      cases hlt : lt (score b) (score a') with
      | true => rfl
      | false => exact absurd (hrank.total b a' hlt (hbest b hb)) hdiffers
    · left
      intro a ha
      apply Bool.eq_false_iff.mpr
      intro haccept
      exact hsome ⟨a, ha, haccept⟩
  · rintro (hnone | ⟨hfits, a, hleads, hgood⟩)
    · exact settled_of_none hrank hnone
    · exact settled_of_leads hrank hfits hleads hgood

end Best

end UnorderedLimit
