/-
  Auditarr/Journal.lean
  =====================
  **A journal of the writes to a store.**

  Each entry names a key, what the store had there and what was written.  `Records` says that
  a journal takes one content of a store to another.  Then replaying it forward gives the later
  content, taking it back from its end gives the earlier one, and under each key what an entry
  leaves is what the next one finds.
-/
import Mathlib.Data.List.Basic
import Mathlib.Logic.Function.Basic

namespace Journal

universe u v

/-- A write: what the key had, and what it has now. -/
structure Entry (κ : Type u) (β : Type v) where
  key : κ
  before : β
  after : β

variable {κ : Type u} {β : Type v} [DecidableEq κ]

def Entry.write (e : Entry κ β) (content : κ → β) : κ → β :=
  Function.update content e.key e.after

def Entry.revert (e : Entry κ β) (content : κ → β) : κ → β :=
  Function.update content e.key e.before

/-- The journal takes the first content to the second. -/
def Records : (κ → β) → List (Entry κ β) → (κ → β) → Prop
  | content, [], content' => content = content'
  | content, e :: rest, content' =>
      e.before = content e.key ∧ Records (e.write content) rest content'

variable {content content' content'' : κ → β} {journal journal' : List (Entry κ β)}

theorem Records.refl (content : κ → β) : Records content [] content := rfl

theorem Records.append (h : Records content journal content')
    (h' : Records content' journal' content'') :
    Records content (journal ++ journal') content'' := by
  induction journal generalizing content with
  | nil =>
    obtain rfl : content = content' := h
    exact h'
  | cons e rest ih => exact ⟨h.1, ih h.2⟩

theorem Records.concat (h : Records content journal content') {e : Entry κ β}
    (hbefore : e.before = content' e.key) :
    Records content (journal ++ [e]) (e.write content') :=
  h.append ⟨hbefore, rfl⟩

theorem Records.replayed (h : Records content journal content') :
    journal.foldl (fun content e => e.write content) content = content' := by
  induction journal generalizing content with
  | nil => exact h
  | cons e rest ih => exact ih h.2

theorem Entry.revert_write {e : Entry κ β} (h : e.before = content e.key) :
    e.revert (e.write content) = content := by
  simp [revert, write, h]

theorem Records.reverted (h : Records content journal content') :
    journal.foldr Entry.revert content' = content := by
  induction journal generalizing content with
  | nil => exact h.symm
  | cons e rest ih => rw [List.foldr_cons, ih h.2, Entry.revert_write h.1]

/-- The entries of a key. -/
def under (key : κ) (journal : List (Entry κ β)) : List (Entry κ β) :=
  journal.filter fun e => e.key = key

/-- Under a key, what the store had and then what each entry left is what each entry found and
    then what the store has. -/
theorem Records.chained (h : Records content journal content') (key : κ) :
    content key :: (under key journal).map Entry.after =
      (under key journal).map Entry.before ++ [content' key] := by
  induction journal generalizing content with
  | nil =>
    obtain rfl : content = content' := h
    simp [under]
  | cons e rest ih =>
    have hrest := ih h.2
    by_cases hkey : e.key = key
    · subst hkey
      simpa [under, Entry.write, h.1] using hrest
    · simpa [under, Entry.write, hkey, Function.update_of_ne (Ne.symm hkey)] using hrest

end Journal
