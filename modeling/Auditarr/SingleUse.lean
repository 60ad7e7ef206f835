/-
  Auditarr/SingleUse.lean
  =======================
  **Things that are used once, by parties that check before they use.**

  A party first checks that its thing is not used up, and uses it up later.  Between the two
  it is inside.  As long as no party checks a thing while another one is inside with it, at
  most one party gets through with each thing, whatever the order of the steps.
-/
import Auditarr.Runs
import Mathlib.Data.Fintype.Defs

namespace SingleUse

open Runs

universe u v w x

/-- How far a party has come. -/
inductive Phase where
  | before
  /-- The thing was checked and is not yet used up. -/
  | inside
  | spent
  | succeeded
  | failed
deriving DecidableEq

structure System (σ : Type u) (ι : Type v) (κ : Type w) where
  phase : σ → ι → Phase
  /-- What a party uses. -/
  key : σ → ι → κ
  /-- The thing is used up. -/
  dead : σ → κ → Prop

section Systems

variable {σ : Type u} {ι : Type v} {κ : Type w} (S : System σ ι κ)

/-- A party takes a step: it goes inside only with a thing that is not used up, uses it up to
    get through, and gives it back only if it fails after that. -/
structure Step (i : ι) (s s' : σ) : Prop where
  others : ∀ j, j ≠ i → S.phase s' j = S.phase s j
  keys : ∀ j, S.key s' j = S.key s j
  enters : S.phase s' i = .inside →
    S.phase s i = .inside ∨ S.phase s i = .before ∧ ¬ S.dead s (S.key s i)
  spends : S.phase s' i = .spent →
    S.phase s i = .spent ∨ S.phase s i = .inside ∧ S.dead s' (S.key s i)
  succeeds : S.phase s' i = .succeeded →
    S.phase s i = .succeeded ∨ S.phase s i = .spent ∨ S.phase s i = .inside ∧ S.dead s' (S.key s i)
  stays : ∀ k, S.dead s k → S.dead s' k ∨ S.phase s i = .spent ∧ S.phase s' i = .failed ∧ S.key s i = k

/-- If the step is a check that lets the party inside, no other one is inside with its thing. -/
def Alone (i : ι) (s s' : σ) : Prop :=
  S.phase s i = .before → S.phase s' i = .inside →
    ∀ j, j ≠ i → S.key s j = S.key s i → S.phase s j ≠ .inside

instance [Fintype ι] [DecidableEq ι] [DecidableEq κ] (i : ι) (s s' : σ) : Decidable (Alone S i s s') :=
  inferInstanceAs (Decidable (_ → _ → ∀ _, _ → _ → _))

/-- A party is inside, or has used up its thing. -/
def Holds (s : σ) (i : ι) : Prop := S.phase s i = .inside ∨ S.phase s i = .spent ∨ S.phase s i = .succeeded

/-- One party at most holds each thing, and what was used up is. -/
structure Exclusive (s : σ) : Prop where
  one : ∀ i j, i ≠ j → S.key s i = S.key s j → Holds S s i → ¬ Holds S s j
  dead : ∀ i, S.phase s i = .spent ∨ S.phase s i = .succeeded → S.dead s (S.key s i)

/-- No two parties get through with one thing. -/
def AtMostOnce (s : σ) : Prop :=
  ∀ i j, S.key s i = S.key s j → S.phase s i = .succeeded → S.phase s j = .succeeded → i = j

variable {S} {i : ι} {s s' : σ}

theorem Exclusive.atMostOnce (h : Exclusive S s) : AtMostOnce S s := by
  intro i j hkey hi hj
  by_contra hne
  exact h.one i j hne hkey (.inr (.inr hi)) (.inr (.inr hj))

theorem Step.holds (h : Step S i s s') (hholds : Holds S s' i) :
    Holds S s i ∨ S.phase s i = .before ∧ S.phase s' i = .inside ∧ ¬ S.dead s (S.key s i) := by
  rcases hholds with hinside | hspent | hsucceeded
  · rcases h.enters hinside with hwas | ⟨hbefore, halive⟩
    · exact .inl (.inl hwas)
    · exact .inr ⟨hbefore, hinside, halive⟩
  · rcases h.spends hspent with hwas | ⟨hwas, -⟩
    · exact .inl (.inr (.inl hwas))
    · exact .inl (.inl hwas)
  · rcases h.succeeds hsucceeded with hwas | hwas | ⟨hwas, -⟩
    · exact .inl (.inr (.inr hwas))
    · exact .inl (.inr (.inl hwas))
    · exact .inl (.inl hwas)

theorem holds_congr {j : ι} (h : S.phase s' j = S.phase s j) : Holds S s' j ↔ Holds S s j := by
  rw [Holds, Holds, h]

theorem Step.not_holds (hs : Exclusive S s) (halone : Alone S i s s') (hbefore : S.phase s i = .before)
    (hinside : S.phase s' i = .inside) (halive : ¬ S.dead s (S.key s i)) {j : ι} (hne : j ≠ i)
    (hkey : S.key s j = S.key s i) : ¬ Holds S s j := by
  rintro (hother | hother | hother)
  · exact halone hbefore hinside j hne hkey hother
  · exact halive (hkey ▸ hs.dead j (.inl hother))
  · exact halive (hkey ▸ hs.dead j (.inr hother))

theorem Step.exclusive (h : Step S i s s') (hs : Exclusive S s) (halone : Alone S i s s') : Exclusive S s' := by
  have hpair : ∀ j, j ≠ i → S.key s i = S.key s j → Holds S s' i → ¬ Holds S s' j := by
    intro j hne hkey hi
    rw [holds_congr (h.others j hne)]
    rcases h.holds hi with hwas | ⟨hbefore, hinside, halive⟩
    · exact hs.one i j (Ne.symm hne) hkey hwas
    · exact Step.not_holds hs halone hbefore hinside halive hne hkey.symm
  constructor
  · intro j k hne hkey hj
    rw [h.keys, h.keys] at hkey
    by_cases hji : j = i
    · subst hji
      exact hpair k (Ne.symm hne) hkey hj
    · by_cases hki : k = i
      · subst hki
        exact fun hk => hpair j hne hkey.symm hk hj
      · rw [holds_congr (h.others j hji)] at hj
        rw [holds_congr (h.others k hki)]
        exact hs.one j k hne hkey hj
  · intro j hj
    rw [h.keys]
    by_cases hji : j = i
    · subst hji
      have hdead : S.dead s' (S.key s j) ∨ S.phase s j = .spent ∨ S.phase s j = .succeeded := by
        rcases hj with hspent | hsucceeded
        · rcases h.spends hspent with hwas | ⟨-, hdead⟩
          · exact .inr (.inl hwas)
          · exact .inl hdead
        · rcases h.succeeds hsucceeded with hwas | hwas | ⟨-, hdead⟩
          · exact .inr (.inr hwas)
          · exact .inr (.inl hwas)
          · exact .inl hdead
      rcases hdead with hdead | hwas
      · exact hdead
      · rcases h.stays _ (hs.dead j hwas) with hstill | ⟨-, hfailed, -⟩
        · exact hstill
        · rw [hfailed] at hj
          rcases hj with hj | hj <;> cases hj
    · rw [h.others j hji] at hj
      rcases h.stays _ (hs.dead j hj) with hstill | ⟨hspent, -, hkey⟩
      · exact hstill
      · exact absurd (.inr hj) (hs.one i j (Ne.symm hji) hkey (.inr (.inl hspent)))

theorem exclusive_of_before (h : ∀ i, S.phase s i = .before) : Exclusive S s where
  one i _ _ _ hi := by simp [Holds, h i] at hi
  dead i hi := by simp [h i] at hi

/-- In a run whose checks are made alone, nobody gets through with a thing that somebody else
    got through with; `J` is what else the steps keep. -/
theorem atMostOnce_of_alone {τ : Type x} {next : σ → τ → σ} {mover : τ → ι} {J : σ → Prop}
    (hstep : ∀ s t, J s → Step S (mover t) s (next s t) ∧ J (next s t)) {run : List τ} (hs : Exclusive S s)
    (hJ : J s) (hrun : Throughout next (fun s t => Alone S (mover t) s (next s t)) s run) :
    ∀ s' ∈ states next s run, AtMostOnce S s' := by
  intro s' hs'
  obtain ⟨before, after, rfl, rfl⟩ := (mem_states next).mp hs'
  have hbefore := ((throughout_append next s before after).mp hrun).1
  have hboth : Exclusive S (final next s before) ∧ J (final next s before) := by
    have hkeep : ∀ s t, (Exclusive S s ∧ J s) → Alone S (mover t) s (next s t) →
        Exclusive S (next s t) ∧ J (next s t) := by
      rintro s t ⟨hexclusive, hkept⟩ halone
      exact ⟨(hstep s t hkept).1.exclusive hexclusive halone, (hstep s t hkept).2⟩
    exact Throughout.final next hkeep hbefore ⟨hs, hJ⟩
  exact hboth.1.atMostOnce

end Systems

end SingleUse
