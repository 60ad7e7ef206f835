/-
  Auditarr/OffsetCursor.lean
  ==========================
  **Reading a list from offset to offset while it changes.**

  A reader asks for so many entries from an offset on, and goes on at the offset that the answer
  gives it.  Between two requests entries may come in front of the list and others may leave at
  its end.  The offsets then point to entries the reader has seen, never past entries it has not:
  what the list held at first and has not lost is read completely and in order
  (`Reader.Covers`), if some of it twice.
-/
import Mathlib.Data.List.Basic
import Mathlib.Data.List.Infix

namespace OffsetCursor

variable {α : Type}

/-- Where a reader goes on, unless there is no more, and what it has read. -/
structure Reader (α : Type) where
  next : Option Nat
  read : List α

def Reader.start : Reader α := ⟨some 0, []⟩

/-- The offset after a page, if the list goes on there. -/
def nextOffset (limit offset : Nat) (view : List α) : Option Nat :=
  if offset + limit < view.length then some (offset + limit) else none

/-- A request that is answered from the list as it is. -/
def Reader.request (limit : Nat) (view : List α) (r : Reader α) : Reader α :=
  match r.next with
  | none => r
  | some offset =>
      ⟨nextOffset limit offset view, r.read ++ (view.drop offset).take limit⟩

/-! ### Nothing is left out -/

/-- Of the entries `known` of a list that has `ahead` newer ones before them, those before the
    offset have been read, and all of them where there is no more. -/
def Reader.Covers (r : Reader α) (ahead : Nat) (known : List α) : Prop :=
  match r.next with
  | some offset => (known.take (offset - ahead)).Sublist r.read
  | none => known.Sublist r.read

variable {r : Reader α} {ahead limit : Nat} {known known' front view : List α}

theorem covers_start : (Reader.start : Reader α).Covers 0 known := by
  simp [Reader.start, Reader.Covers]

theorem Reader.Covers.of_done (h : r.Covers ahead known) (hnext : r.next = none) :
    known.Sublist r.read := by
  simpa only [Reader.Covers, hnext] using h

theorem covers_nil : r.Covers ahead [] := by
  unfold Reader.Covers
  split <;> simp

theorem Reader.Covers.later (h : r.Covers ahead known) (more : Nat) :
    r.Covers (ahead + more) known := by
  cases hnext : r.next with
  | none => simpa only [Reader.Covers, hnext] using h
  | some offset =>
    simp only [Reader.Covers, hnext] at h ⊢
    exact (List.take_prefix_take_left (by omega)).sublist.trans h

theorem Reader.Covers.of_initial (h : r.Covers ahead known) (hinitial : known' <+: known) :
    r.Covers ahead known' := by
  cases hnext : r.next with
  | none =>
    simp only [Reader.Covers, hnext] at h ⊢
    exact hinitial.sublist.trans h
  | some offset =>
    simp only [Reader.Covers, hnext] at h ⊢
    exact (hinitial.take _).sublist.trans h

theorem take_sublist_page (limit : Nat) {offset : Nat} {seen : List α}
    (h : (known.take (offset - front.length)).Sublist seen) :
    (known.take (offset + limit - front.length)).Sublist
      (seen ++ ((front ++ known).drop offset).take limit) := by
  have hsplit : known.take (offset + limit - front.length) =
      known.take (offset - front.length) ++
        (known.drop (offset - front.length)).take (limit - (front.length - offset)) := by
    rw [← List.take_add]
    congr 1
    omega
  rw [hsplit, List.drop_append, List.take_append, List.length_drop]
  exact h.append (List.sublist_append_right ..)

theorem Reader.Covers.request (h : r.Covers front.length known) :
    (r.request limit (front ++ known)).Covers front.length known := by
  cases hnext : r.next with
  | none => simpa only [Reader.request, hnext] using h
  | some offset =>
    simp only [Reader.Covers, hnext] at h
    have hpage := take_sublist_page limit h
    simp only [Reader.Covers, Reader.request, hnext, nextOffset]
    by_cases hmore : offset + limit < (front ++ known).length
    · simpa only [hmore, if_true] using hpage
    · rw [List.take_of_length_le (by rw [List.length_append] at hmore; omega)] at hpage
      simpa only [hmore, if_false] using hpage

theorem mem_request {a : α} (h : a ∈ (r.request limit view).read) : a ∈ r.read ∨ a ∈ view := by
  cases hnext : r.next with
  | none =>
    simp only [Reader.request, hnext] at h
    exact .inl h
  | some offset =>
    simp only [Reader.request, hnext] at h
    refine (List.mem_append.mp h).imp_right fun hpage => ?_
    exact List.mem_of_mem_drop (List.mem_of_mem_take hpage)

/-! ### The end -/

/-- After so many requests on lists of no more than `bound` entries. -/
def Reader.Advanced (r : Reader α) (limit bound requests : Nat) : Prop :=
  ∀ offset, r.next = some offset → offset = requests * limit ∧ (0 < requests → offset < bound)

theorem advanced_start (limit bound : Nat) : (Reader.start : Reader α).Advanced limit bound 0 := by
  rintro offset hnext
  cases hnext
  simp

theorem Reader.Advanced.request {bound requests : Nat} (h : r.Advanced limit bound requests)
    (hview : view.length ≤ bound) :
    (r.request limit view).Advanced limit bound (requests + 1) := by
  intro offset hoffset
  cases hnext : r.next with
  | none => simp [Reader.request, hnext] at hoffset
  | some before =>
    obtain ⟨hbefore, -⟩ := h before hnext
    simp only [Reader.request, hnext, nextOffset] at hoffset
    split at hoffset
    · cases hoffset
      exact ⟨by rw [hbefore, Nat.succ_mul], fun _ => by omega⟩
    · cases hoffset

theorem Reader.Advanced.done {bound requests : Nat} (h : r.Advanced limit bound requests)
    (hrequests : 0 < requests) (henough : bound ≤ requests * limit) : r.next = none := by
  cases hnext : r.next with
  | none => rfl
  | some offset =>
    obtain ⟨hoffset, hbound⟩ := h offset hnext
    have hbefore := hbound hrequests
    omega

/-! ### Lists that stay as they are -/

/-- The entries before the offset have been read, once each. -/
def Reader.Exact (r : Reader α) (view : List α) : Prop :=
  match r.next with
  | some offset => r.read = view.take offset
  | none => r.read = view

theorem Reader.Exact.of_done (h : r.Exact view) (hnext : r.next = none) : r.read = view := by
  simpa only [Reader.Exact, hnext] using h

theorem exact_start (view : List α) : (Reader.start : Reader α).Exact view := by
  simp [Reader.start, Reader.Exact]

theorem Reader.Exact.request (h : r.Exact view) : (r.request limit view).Exact view := by
  cases hnext : r.next with
  | none => simpa only [Reader.request, hnext] using h
  | some offset =>
    simp only [Reader.Exact, hnext] at h
    have hpage : r.read ++ (view.drop offset).take limit = view.take (offset + limit) := by
      rw [h, List.take_add]
    simp only [Reader.Exact, Reader.request, hnext, nextOffset, hpage]
    by_cases hmore : offset + limit < view.length
    · simp only [hmore, if_true]
    · simp only [hmore, if_false]
      exact List.take_of_length_le (by omega)

end OffsetCursor
