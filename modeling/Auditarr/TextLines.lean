/-
  Auditarr/TextLines.lean
  =======================
  **The lines of a text** (`str.splitlines`).

  A line ends at any of ten characters, and `\r\n` ends it once.  Empty lines apart, the lines
  are the pieces between these characters.
-/
import Mathlib.Data.List.Basic

namespace TextLines

def isBoundary (c : Char) : Bool :=
  c ∈ ['\n', '\r', '\x0b', '\x0c', '\x1c', '\x1d', '\x1e', '\u0085', '\u2028', '\u2029']

/-- `text.splitlines()`. -/
def splitlines : List Char → List (List Char)
  | [] => []
  | '\r' :: '\n' :: cs => [] :: splitlines cs
  | c :: cs =>
      if isBoundary c then [] :: splitlines cs
      else match splitlines cs with
        | [] => [[c]]
        | line :: lines => (c :: line) :: lines

/-- The lines that are not empty. -/
def pieces (text : List Char) : List (List Char) := (text.splitOnP isBoundary).filter (· ≠ [])

theorem pieces_append_cons {sep : Char} (hsep : isBoundary sep = true) (xs rest : List Char) :
    pieces (xs ++ sep :: rest) = pieces xs ++ pieces rest := by
  rw [pieces, List.splitOnP_append_cons xs rest hsep, List.filter_append]
  rfl

theorem pieces_join (lines : List (List Char)) :
    pieces (['\n'].intercalate lines) = lines.flatMap pieces := by
  induction lines with
  | nil => rfl
  | cons line lines ih =>
    cases lines with
    | nil => simp
    | cons next lines =>
      rw [List.intercalate_cons_cons, List.append_assoc, List.singleton_append,
        pieces_append_cons (by decide), ih]
      rfl

theorem pieces_clean {text : List Char} (hne : text ≠ []) (h : ∀ c ∈ text, isBoundary c = false) :
    pieces text = [text] := by
  rw [pieces, List.splitOnP_eq_singleton h]
  simp [hne]

theorem of_mem_splitOnP {p : Char → Bool} {text line : List Char} (hline : line ∈ text.splitOnP p) :
    ∀ c ∈ line, c ∈ text ∧ p c = false := by
  induction text generalizing line with
  | nil =>
    cases List.mem_singleton.mp hline
    exact fun c hc => absurd hc List.not_mem_nil
  | cons a text ih =>
    rw [List.splitOnP_cons_eq_if_modifyHead] at hline
    cases ha : p a with
    | true =>
      rw [if_pos ha] at hline
      rcases List.mem_cons.mp hline with rfl | hline
      · exact fun c hc => absurd hc List.not_mem_nil
      · exact fun c hc => (ih hline c hc).imp_left (.tail _)
    | false =>
      rw [ha, if_neg Bool.false_ne_true] at hline
      obtain ⟨head, tail, hsplit⟩ := List.exists_cons_of_ne_nil (List.splitOnP_ne_nil p text)
      rw [hsplit] at hline ih
      rcases List.mem_cons.mp hline with rfl | hline
      · intro c hc
        rcases List.mem_cons.mp hc with rfl | hc
        · exact ⟨.head _, ha⟩
        · exact (ih (.head _) c hc).imp_left (.tail _)
      · exact fun c hc => (ih (.tail _ hline) c hc).imp_left (.tail _)

theorem not_boundary_of_mem_pieces {text line : List Char} (hline : line ∈ pieces text) :
    ∀ c ∈ line, isBoundary c = false :=
  fun c hc => (of_mem_splitOnP (List.mem_filter.mp hline).1 c hc).2

theorem mem_intercalate {sep c : Char} {lines : List (List Char)} (h : c ∈ [sep].intercalate lines) :
    c = sep ∨ ∃ line ∈ lines, c ∈ line := by
  induction lines with
  | nil => exact absurd h List.not_mem_nil
  | cons line lines ih =>
    cases lines with
    | nil => exact .inr ⟨line, .head _, by simpa using h⟩
    | cons next lines =>
      rw [List.intercalate_cons_cons, List.append_assoc, List.singleton_append] at h
      rcases List.mem_append.mp h with h | h
      · exact .inr ⟨line, .head _, h⟩
      · rcases List.mem_cons.mp h with h | h
        · exact .inl h
        · obtain hsep | ⟨other, hother, hc⟩ := ih h
          · exact .inl hsep
          · exact .inr ⟨other, .tail _ hother, hc⟩

/-- Lists with one head and one tail, empty lines apart, where an empty list begins like one with
    an empty line. -/
theorem filter_eq {lines tail : List (List Char)} {head : List Char} (hhead : lines.headD [] = head)
    (htail : lines.tail.filter (· ≠ []) = tail.filter (· ≠ [])) :
    lines.filter (· ≠ []) = (head :: tail).filter (· ≠ []) := by
  subst hhead
  cases lines with
  | nil => exact htail
  | cons line lines => rw [List.filter_cons, List.headD_cons, List.filter_cons, ← htail, List.tail_cons]

theorem splitlines_spec (text : List Char) : ∃ head tail, text.splitOnP isBoundary = head :: tail ∧
    (splitlines text).headD [] = head ∧
      (splitlines text).tail.filter (· ≠ []) = tail.filter (· ≠ []) := by
  fun_induction splitlines text with
  | case1 => exact ⟨[], [], rfl, rfl, rfl⟩
  | case2 cs ih =>
    obtain ⟨head, tail, hsplit, hhead, htail⟩ := ih
    refine ⟨[], [] :: head :: tail, ?_, rfl, ?_⟩
    · rw [List.splitOnP_cons_eq_if_modifyHead, if_pos (by decide),
        List.splitOnP_cons_eq_if_modifyHead, if_pos (by decide), hsplit]
    · change (splitlines cs).filter (· ≠ []) = (head :: tail).filter (· ≠ [])
      exact filter_eq hhead htail
  | case3 c cs _ hboundary ih =>
    obtain ⟨head, tail, hsplit, hhead, htail⟩ := ih
    refine ⟨[], head :: tail, ?_, rfl, filter_eq hhead htail⟩
    rw [List.splitOnP_cons_eq_if_modifyHead, if_pos hboundary, hsplit]
  | case4 c cs _ hboundary hlines ih =>
    obtain ⟨head, tail, hsplit, hhead, htail⟩ := ih
    rw [hlines] at hhead htail
    cases hhead
    refine ⟨[c], tail, ?_, rfl, htail⟩
    rw [List.splitOnP_cons_eq_if_modifyHead, if_neg hboundary, hsplit]
    rfl
  | case5 c cs _ hboundary line lines hlines ih =>
    obtain ⟨head, tail, hsplit, hhead, htail⟩ := ih
    rw [hlines] at hhead htail
    cases hhead
    refine ⟨c :: line, tail, ?_, rfl, htail⟩
    rw [List.splitOnP_cons_eq_if_modifyHead, if_neg hboundary, hsplit]
    rfl

theorem filter_splitlines (text : List Char) : (splitlines text).filter (· ≠ []) = pieces text := by
  obtain ⟨head, tail, hsplit, hhead, htail⟩ := splitlines_spec text
  rw [pieces, hsplit]
  exact filter_eq hhead htail

end TextLines
