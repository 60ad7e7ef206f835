/-
  Auditarr/Versioning.lean
  ========================
  **Which version is newer** (`app/updater/versioning.py`, `parse` and `is_newer`).

  The comparison answers early for the development sentinel, then compares the numbers, then the
  prerelease tags.  On the versions that are accepted all of this is one rank in a linear order:
  the sentinel at the bottom, then the numbers, and a release above its prereleases.
-/
import Auditarr.PyValues
import Mathlib.Data.Prod.Lex
import Mathlib.Data.String.Basic
import Mathlib.Order.RelClasses
import Mathlib.Order.WithBot

namespace Versioning

open PyValues

/-! ### Parsing -/

/-- `DEV_SENTINEL`. -/
def devSentinel : String := "0.0.0-dev"

/-- What `parse` returns for a version. -/
structure Version where
  major : Nat
  minor : Nat
  patch : Nat
  pre : Option String
deriving DecidableEq

/-- `(\d+)` and what comes after it. -/
def digits (cs : List Char) : Option (List Char × List Char) :=
  if cs.takeWhile isDigit = [] then none else some (cs.takeWhile isDigit, cs.dropWhile isDigit)

/-- `\.` and what comes after it. -/
def afterDot : List Char → Option (List Char)
  | '.' :: rest => some rest
  | _ => none

/-- `[0-9A-Za-z.\-]`. -/
def isTagChar (c : Char) : Bool :=
  ('0' ≤ c && c ≤ '9') || ('A' ≤ c && c ≤ 'Z') || ('a' ≤ c && c ≤ 'z') || c = '.' || c = '-'

/-- `(?:-([0-9A-Za-z.\-]+))?$`: the tag, if there is one. -/
def tag : List Char → Option (Option String)
  | [] => some none
  | '-' :: cs => if cs ≠ [] ∧ cs.all isTagChar = true then some (some (String.ofList cs)) else none
  | _ => none

/-- The groups of a match of `VERSION_RE`. -/
structure VersionMatch where
  major : List Char
  minor : List Char
  patch : List Char
  pre : Option String

/-- `VERSION_RE.match(version.strip())`.  A stripped text does not end in a line feed, so `$`
    matches at its end only. -/
def versionMatch (version : String) : Option VersionMatch := do
  let (major, rest) ← digits (strip version).toList
  let (minor, rest) ← digits (← afterDot rest)
  let (patch, rest) ← digits (← afterDot rest)
  return ⟨major, minor, patch, ← tag rest⟩

/-- `int(group)` of a group of digits. -/
def intOfDigits (cs : List Char) : Except PyError Nat :=
  if cs.length ≤ MAX_STR_DIGITS then .ok (natOfDigits cs) else .error .valueError

/-- `parse`. -/
def parse (version : String) : Except PyError (Option Version) :=
  match versionMatch version with
  | none => .ok none
  | some found => do
      return some ⟨← intOfDigits found.major, ← intOfDigits found.minor, ← intOfDigits found.patch,
        found.pre⟩

/-! ### Comparing -/

/-- The numbers of a version, as a tuple. -/
def Version.number (v : Version) : ℕ ×ₗ ℕ ×ₗ ℕ := toLex (v.major, toLex (v.minor, v.patch))

/-- The end of `is_newer`, where both versions were parsed. -/
def Version.newerThan (a b : Version) : Bool :=
  if a.number ≠ b.number then decide (b.number < a.number)
  else match a.pre, b.pre with
    | none, some _ => true
    | some _, none => false
    | none, none => false
    | some aPre, some bPre => decide (bPre < aPre)

/-- `is_newer`. -/
def isNewer (candidate installed : String) : Except PyError Bool :=
  if installed = devSentinel ∧ candidate ≠ devSentinel then .ok true
  else if candidate = devSentinel then .ok false
  else do
    match ← parse candidate, ← parse installed with
    | some a, some b => return a.newerThan b
    | _, _ => return decide (candidate ≠ installed)

/-- A text that `parse` accepts. -/
structure Accepted where
  text : String
  version : Version
  parses : parse text = .ok (some version)

/-- The sentinel is accepted. -/
def dev : Accepted := ⟨devSentinel, ⟨0, 0, 0, some "dev"⟩, by decide⟩

def Newer (candidate installed : Accepted) : Prop := isNewer candidate.text installed.text = .ok true

/-! ### The rank -/

/-- A release is above all of its prereleases. -/
def Version.release (v : Version) : WithTop String :=
  match v.pre with
  | none => ⊤
  | some pre => (pre : WithTop String)

def Version.rank (v : Version) : (ℕ ×ₗ ℕ ×ₗ ℕ) ×ₗ WithTop String := toLex (v.number, v.release)

/-- The sentinel is below everything else. -/
def Accepted.rank (a : Accepted) : WithBot ((ℕ ×ₗ ℕ ×ₗ ℕ) ×ₗ WithTop String) :=
  if a.text = devSentinel then ⊥ else (a.version.rank : WithBot _)

theorem newerThan_iff (a b : Version) : a.newerThan b = true ↔ b.rank < a.rank := by
  rw [Version.rank, Version.rank, Prod.Lex.toLex_lt_toLex, Version.newerThan]
  by_cases hnumber : a.number = b.number
  · rw [if_neg (not_not.mpr hnumber), hnumber]
    simp only [lt_irrefl, true_and, false_or, Version.release]
    cases a.pre <;> cases b.pre <;> simp
  · rw [if_pos hnumber, decide_eq_true_eq]
    simp [Ne.symm hnumber]

theorem isNewer_accepted (a b : Accepted) :
    isNewer a.text b.text = .ok (decide (b.rank < a.rank)) := by
  unfold isNewer Accepted.rank
  by_cases hb : b.text = devSentinel
  · by_cases ha : a.text = devSentinel
    · rw [if_neg (fun h => h.2 ha), if_pos ha, if_pos hb, if_pos ha]
      simp
    · rw [if_pos ⟨hb, ha⟩, if_pos hb, if_neg ha]
      simp
  · rw [if_neg (fun h => hb h.1), if_neg hb]
    by_cases ha : a.text = devSentinel
    · rw [if_pos ha, if_pos ha]
      simp
    · rw [if_neg ha, if_neg ha, a.parses, b.parses]
      have hrank := newerThan_iff a.version b.version
      rw [← WithBot.coe_lt_coe] at hrank
      change Except.ok _ = _
      rw [Except.ok.injEq, Bool.eq_iff_iff, hrank, decide_eq_true_eq]

theorem newer_iff {a b : Accepted} : Newer a b ↔ b.rank < a.rank := by
  rw [Newer, isNewer_accepted, Except.ok.injEq, decide_eq_true_eq]

theorem rank_dev : dev.rank = ⊥ := if_pos rfl

instance : IsStrictWeakOrder Accepted Newer where
  irrefl a := by
    rw [newer_iff]
    exact lt_irrefl _
  trans a b c hab hbc := by
    rw [newer_iff] at *
    exact hbc.trans hab
  incomp_trans a b c hab hbc := by
    simp only [newer_iff, not_lt] at *
    exact ⟨hab.1.trans hbc.1, hbc.2.trans hab.2⟩

/-- On the versions that are accepted the comparison returns and is a strict weak order; the
    sentinel is below every other version, and every prerelease below its release. -/
theorem newer_strictWeakOrder :
    (∀ a b : Accepted, ∃ answer, isNewer a.text b.text = .ok answer) ∧
      IsStrictWeakOrder Accepted Newer ∧ (∀ a b, Newer a b → ¬Newer b a) ∧
      (∀ a : Accepted, a.text ≠ devSentinel → Newer a dev ∧ ¬Newer dev a) ∧
      ∀ pre release : Accepted, pre.version.number = release.version.number →
        pre.version.pre ≠ none → release.version.pre = none →
          Newer release pre ∧ ¬Newer pre release := by
  have hasymm : ∀ a b, Newer a b → ¬Newer b a := fun a b => asymm_of Newer
  refine ⟨fun a b => ⟨_, isNewer_accepted a b⟩, inferInstance, hasymm, fun a ha => ?_,
    fun pre release hnumber hpre hrelease => ?_⟩
  · have habove : Newer a dev := by
      rw [newer_iff, rank_dev, Accepted.rank, if_neg ha]
      exact WithBot.bot_lt_coe _
    exact ⟨habove, hasymm _ _ habove⟩
  · have habove : Newer release pre := by
      have hother : release.text ≠ devSentinel := by
        intro hdev
        have hsame := release.parses
        rw [hdev, ← show dev.text = devSentinel from rfl, dev.parses, Except.ok.injEq,
          Option.some.injEq] at hsame
        rw [← hsame] at hrelease
        cases hrelease
      by_cases hdev : pre.text = devSentinel
      · rw [newer_iff, Accepted.rank, Accepted.rank, if_pos hdev, if_neg hother]
        exact WithBot.bot_lt_coe _
      · rw [newer_iff, Accepted.rank, Accepted.rank, if_neg hdev, if_neg hother, WithBot.coe_lt_coe,
          ← newerThan_iff, Version.newerThan, if_neg (not_not.mpr hnumber.symm), hrelease]
        obtain ⟨tag, htag⟩ := Option.ne_none_iff_exists'.mp hpre
        rw [htag]
    exact ⟨habove, hasymm _ _ habove⟩

end Versioning
