/-
  Auditarr/PosixPath.lean
  =======================
  **Paths as a path library parses them.**

  A path string is cut at its slashes; empty segments and `.` are dropped, `..` is
  kept, and one or two leading slashes are the root.  A `PosixPath` is what is left,
  so that two spellings of one path are equal.  Joining appends, unless the right
  side has a root of its own, which then replaces the left side.

  File names have a suffix: from the last dot on, leading dots not counted.
-/
import Mathlib.Data.List.Basic
import Mathlib.Data.List.DropRight

namespace PosixPath

/-- A file name or a path string, as characters. -/
abbrev Chars := List Char

/-! ### Segments -/

/-- `text.split("/")`. -/
def splitSlash : Chars → List Chars
  | [] => [[]]
  | '/' :: cs => [] :: splitSlash cs
  | c :: cs => (splitSlash cs).modifyHead (c :: ·)

theorem splitSlash_slash (cs : Chars) : splitSlash ('/' :: cs) = [] :: splitSlash cs := rfl

theorem splitSlash_other {c : Char} (hc : c ≠ '/') (cs : Chars) :
    splitSlash (c :: cs) = (splitSlash cs).modifyHead (c :: ·) := by
  rw [splitSlash]
  exact hc

theorem splitSlash_ne_nil (text : Chars) : splitSlash text ≠ [] := by
  induction text with
  | nil => simp [splitSlash]
  | cons c cs ih =>
    by_cases hc : c = '/'
    · simp [hc, splitSlash_slash]
    · intro hnil
      rw [splitSlash_other hc] at hnil
      cases hcs : splitSlash cs with
      | nil => exact ih hcs
      | cons first rest => simp [hcs] at hnil

theorem slash_notMem_of_mem_splitSlash {text segment : Chars} (h : segment ∈ splitSlash text) :
    '/' ∉ segment := by
  induction text generalizing segment with
  | nil =>
    have hnil : segment = [] := by simpa [splitSlash] using h
    simp [hnil]
  | cons c cs ih =>
    by_cases hc : c = '/'
    · rw [hc, splitSlash_slash] at h
      rcases List.mem_cons.mp h with rfl | hrest
      · simp
      · exact ih hrest
    · rw [splitSlash_other hc] at h
      cases hcs : splitSlash cs with
      | nil => exact absurd hcs (splitSlash_ne_nil cs)
      | cons first rest =>
        rw [hcs] at h ih
        rcases List.mem_cons.mp h with rfl | hrest
        · simp [Ne.symm hc, ih (List.mem_cons_self ..)]
        · exact ih (List.mem_cons_of_mem _ hrest)

theorem splitSlash_append (head tail : Chars) :
    splitSlash (head ++ '/' :: tail) = splitSlash head ++ splitSlash tail := by
  induction head with
  | nil => rfl
  | cons c cs ih =>
    by_cases hc : c = '/'
    · rw [hc, List.cons_append, splitSlash_slash, splitSlash_slash, ih, List.cons_append]
    · rw [List.cons_append, splitSlash_other hc, splitSlash_other hc, ih]
      cases hcs : splitSlash cs with
      | nil => exact absurd hcs (splitSlash_ne_nil cs)
      | cons first rest => rfl

theorem splitSlash_plain {text : Chars} (h : '/' ∉ text) : splitSlash text = [text] := by
  induction text with
  | nil => rfl
  | cons c cs ih =>
    rw [List.mem_cons, not_or] at h
    rw [splitSlash_other (Ne.symm h.1), ih h.2]
    rfl

/-! ### Paths -/

/-- A segment that a path keeps. -/
def Plain (segment : Chars) : Prop := segment ≠ [] ∧ segment ≠ ['.'] ∧ '/' ∉ segment

instance (segment : Chars) : Decidable (Plain segment) := inferInstanceAs (Decidable (_ ∧ _ ∧ _))

/-- The root of a path: none, `/` or `//`. -/
inductive Root where
  | none | slash | slashes
deriving DecidableEq, Repr

def Root.text : Root → Chars
  | none => []
  | slash => ['/']
  | slashes => ['/', '/']

end PosixPath

/-- A parsed path: its root and its segments. -/
structure PosixPath where
  root : PosixPath.Root
  parts : List (List Char)
  plain : ∀ part ∈ parts, PosixPath.Plain part
deriving DecidableEq

namespace PosixPath

/-- The root of a path string: exactly two leading slashes are kept. -/
def rootOf : Chars → Root
  | '/' :: '/' :: '/' :: _ => .slash
  | '/' :: '/' :: _ => .slashes
  | '/' :: _ => .slash
  | _ => .none

/-- The segments a path string keeps. -/
def segments (text : Chars) : List Chars :=
  (splitSlash text).filter fun segment => segment ≠ [] ∧ segment ≠ ['.']

theorem plain_of_mem_segments {text segment : Chars} (h : segment ∈ segments text) :
    Plain segment := by
  obtain ⟨hmem, hkept⟩ := List.mem_filter.mp h
  have hboth : segment ≠ [] ∧ segment ≠ ['.'] := by simpa using hkept
  exact ⟨hboth.1, hboth.2, slash_notMem_of_mem_splitSlash hmem⟩

/-- `Path(text)`. -/
def parse (text : Chars) : PosixPath := ⟨rootOf text, segments text, fun _ => plain_of_mem_segments⟩

/-- `str(path)`. -/
def render (p : PosixPath) : Chars :=
  match p.root, p.parts with
  | .none, [] => ['.']
  | root, parts => root.text ++ ['/'].intercalate parts

def isAbsolute (p : PosixPath) : Bool := p.root ≠ .none

/-- `path / text`. -/
def join (p : PosixPath) (text : Chars) : PosixPath :=
  if (parse text).isAbsolute then parse text
  else ⟨p.root, p.parts ++ segments text, fun part hpart => by
    rcases List.mem_append.mp hpart with h | h
    · exact p.plain part h
    · exact plain_of_mem_segments h⟩

/-- `path.parent`. -/
def parent (p : PosixPath) : PosixPath :=
  ⟨p.root, p.parts.dropLast, fun part hpart => p.plain part (List.dropLast_subset _ hpart)⟩

/-- `path.name`. -/
def name (p : PosixPath) : Chars := p.parts.getLast?.getD []

theorem isAbsolute_parse (text : Chars) : (parse text).isAbsolute = decide (text.head? = some '/') := by
  cases text with
  | nil => rfl
  | cons c cs =>
    by_cases hc : c = '/'
    · rw [hc]
      unfold isAbsolute parse rootOf
      split <;> simp_all
    · have hroot : rootOf (c :: cs) = .none := by
        unfold rootOf
        split <;> simp_all
      simp [isAbsolute, parse, hroot, hc]

theorem parts_join {p : PosixPath} {text : Chars} (h : text.head? ≠ some '/') :
    (p.join text).root = p.root ∧ (p.join text).parts = p.parts ++ segments text := by
  have hrel : (parse text).isAbsolute = false := by rw [isAbsolute_parse]; simpa using h
  rw [join, if_neg (by simp [hrel])]
  exact ⟨rfl, rfl⟩

theorem mem_splitSlash_render {p : PosixPath} {part : Chars} (h : part ∈ p.parts) :
    part ∈ splitSlash p.render := by
  have hbody : ∀ parts : List Chars, (∀ q ∈ parts, Plain q) → part ∈ parts →
      part ∈ splitSlash (['/'].intercalate parts) := by
    intro parts hplain hpart
    induction parts with
    | nil => cases hpart
    | cons first rest ih =>
      have hfirst : splitSlash first = [first] := splitSlash_plain (hplain first (by simp)).2.2
      cases rest with
      | nil =>
        obtain rfl : part = first := by simpa using hpart
        simp [List.intercalate, hfirst]
      | cons second rest =>
        have htext : ['/'].intercalate (first :: second :: rest) =
            first ++ '/' :: ['/'].intercalate (second :: rest) := by
          simp [List.intercalate]
        rw [htext, splitSlash_append, hfirst]
        rcases List.mem_cons.mp hpart with rfl | hrest
        · simp
        · exact List.mem_append_right _ (ih (fun q hq => hplain q (List.mem_cons_of_mem _ hq)) hrest)
  have hmem := hbody p.parts p.plain h
  unfold render
  split
  · rename_i hparts
    rw [hparts] at h
    cases h
  · cases p.root with
    | none => exact hmem
    | slash => exact List.mem_cons_of_mem _ hmem
    | slashes => exact List.mem_cons_of_mem _ (List.mem_cons_of_mem _ hmem)

theorem segments_intercalate {parts : List Chars} (hplain : ∀ part ∈ parts, Plain part) :
    segments (['/'].intercalate parts) = parts := by
  have hkept : ∀ part ∈ parts, decide (part ≠ [] ∧ part ≠ ['.']) = true := fun part hpart =>
    decide_eq_true ⟨(hplain part hpart).1, (hplain part hpart).2.1⟩
  suffices hsplit : parts ≠ [] → splitSlash (['/'].intercalate parts) = parts by
    by_cases hnil : parts = []
    · rw [hnil]; rfl
    · unfold segments
      rw [hsplit hnil]
      exact List.filter_eq_self.mpr hkept
  intro hne
  induction parts with
  | nil => exact absurd rfl hne
  | cons first rest ih =>
    have hfirst : splitSlash first = [first] := splitSlash_plain (hplain first (by simp)).2.2
    cases rest with
    | nil => simpa [List.intercalate] using hfirst
    | cons second rest =>
      have htext : ['/'].intercalate (first :: second :: rest) =
          first ++ '/' :: ['/'].intercalate (second :: rest) := by
        simp [List.intercalate]
      rw [htext, splitSlash_append, hfirst,
        ih (fun part hpart => hplain part (List.mem_cons_of_mem _ hpart))
          (fun part hpart => hkept part (List.mem_cons_of_mem _ hpart)) (List.cons_ne_nil _ _)]
      rfl

theorem head_intercalate {parts : List Chars} (hplain : ∀ part ∈ parts, Plain part) :
    (['/'].intercalate parts).head? ≠ some '/' := by
  cases parts with
  | nil => simp [List.intercalate]
  | cons first rest =>
    obtain ⟨hne, -, hslash⟩ := hplain first (by simp)
    cases first with
    | nil => exact absurd rfl hne
    | cons c cs =>
      have hc : c ≠ '/' := by
        intro heq
        simp [heq] at hslash
      cases rest with
      | nil => simpa [List.intercalate] using hc
      | cons second rest => simpa [List.intercalate] using hc

theorem parse_render (p : PosixPath) : parse p.render = p := by
  obtain ⟨root, parts, hplain⟩ := p
  have hhead := head_intercalate hplain
  have hbody := segments_intercalate hplain
  have hroot : rootOf (root.text ++ ['/'].intercalate parts) = root := by
    revert hhead
    generalize ['/'].intercalate parts = body
    intro hhead
    cases body with
    | nil => cases root <;> rfl
    | cons c cs =>
      have hc : c ≠ '/' := by simpa using hhead
      cases root <;> simp [Root.text, rootOf, hc]
  have hsegments : segments (root.text ++ ['/'].intercalate parts) = parts := by
    cases root with
    | none => exact hbody
    | slash => exact hbody
    | slashes => exact hbody
  have htext : parse (root.text ++ ['/'].intercalate parts) = ⟨root, parts, hplain⟩ := by
    unfold parse
    congr
  unfold render
  split
  · rename_i hempty hnone
    cases hempty
    cases hnone
    rfl
  · exact htext

theorem render_injective : Function.Injective render :=
  Function.LeftInverse.injective parse_render

/-! ### Locations -/

/-- The `..` segment. -/
def dotdot : Chars := ['.', '.']

/-- Where an absolute path leads in a tree without links: the names from there up to
    the root. -/
def locate (p : PosixPath) : List Chars :=
  p.parts.foldl (fun loc part => if part = dotdot then loc.tail else part :: loc) []

theorem foldl_locate {parts : List Chars} (h : dotdot ∉ parts) (loc : List Chars) :
    parts.foldl (fun loc part => if part = dotdot then loc.tail else part :: loc) loc =
      parts.reverse ++ loc := by
  induction parts generalizing loc with
  | nil => rfl
  | cons part rest ih =>
    rw [List.mem_cons, not_or] at h
    rw [List.foldl_cons, if_neg (Ne.symm h.1), ih h.2]
    simp

theorem locate_eq_reverse {p : PosixPath} (h : dotdot ∉ p.parts) : p.locate = p.parts.reverse := by
  rw [locate, foldl_locate h, List.append_nil]

theorem locate_join {p : PosixPath} {text : Chars} (htext : text.head? ≠ some '/')
    (h : dotdot ∉ segments text) : (p.join text).locate = (segments text).reverse ++ p.locate := by
  rw [locate, (parts_join htext).2, List.foldl_append, foldl_locate h]
  rfl

/-! ### Suffixes -/

/-- The characters before and after the last dot. -/
def lastDot : Chars → Option (Chars × Chars)
  | [] => none
  | c :: cs => match lastDot cs with
    | some (before, after) => some (c :: before, after)
    | none => if c = '.' then some ([], cs) else none

theorem lastDot_none {cs : Chars} : lastDot cs = none ↔ '.' ∉ cs := by
  induction cs with
  | nil => simp [lastDot]
  | cons c cs ih =>
    rw [lastDot]
    cases hcs : lastDot cs with
    | some found =>
      have hdot : '.' ∈ cs := by
        by_contra hno
        rw [ih.mpr hno] at hcs
        cases hcs
      simp [hdot]
    | none =>
      have hno : '.' ∉ cs := ih.mp hcs
      by_cases hc : c = '.'
      · simp [hc]
      · simp [hc, hno, Ne.symm hc]

theorem lastDot_some {cs before after : Chars} (h : lastDot cs = some (before, after)) :
    cs = before ++ '.' :: after ∧ '.' ∉ after := by
  induction cs generalizing before with
  | nil => cases h
  | cons c cs ih =>
    rw [lastDot] at h
    cases hcs : lastDot cs with
    | some found =>
      rw [hcs] at h
      obtain ⟨rfl, rfl⟩ : c :: found.1 = before ∧ found.2 = after := by simpa using h
      obtain ⟨hsplit, hlast⟩ := ih hcs
      exact ⟨by rw [hsplit]; rfl, hlast⟩
    | none =>
      rw [hcs] at h
      by_cases hc : c = '.'
      · obtain ⟨rfl, rfl⟩ : [] = before ∧ cs = after := by simpa [hc] using h
        exact ⟨by rw [hc]; rfl, lastDot_none.mp hcs⟩
      · simp [hc] at h

/-- `os.path.splitext` of a file name: the stem and the suffix with its dot.  A name
    whose other characters are all dots has no suffix. -/
def splitext (name : Chars) : Chars × Chars :=
  match lastDot name with
  | some (before, after) => if before.any (· ≠ '.') then (before, '.' :: after) else (name, [])
  | none => (name, [])

theorem stem_append_suffix (name : Chars) : (splitext name).1 ++ (splitext name).2 = name := by
  unfold splitext
  split
  · rename_i before after hdot
    split
    · exact (lastDot_some hdot).1.symm
    · simp
  · simp

theorem dot_notMem_tail_suffix (name : Chars) : '.' ∉ (splitext name).2.tail := by
  unfold splitext
  split
  · rename_i before after hdot
    split
    · exact (lastDot_some hdot).2
    · simp
  · simp

theorem head_suffix (name rest : Chars) (hrest : rest.head? = some '.') :
    ((splitext name).2 ++ rest).head? = some '.' := by
  unfold splitext
  split
  · split
    · rfl
    · simpa using hrest
  · simpa using hrest

theorem slash_notMem_name (p : PosixPath) : '/' ∉ p.name := by
  unfold PosixPath.name
  cases hlast : p.parts.getLast? with
  | none => simp
  | some part => exact (p.plain part (List.mem_of_getLast? hlast)).2.2

def stem (p : PosixPath) : Chars := (splitext p.name).1

def suffix (p : PosixPath) : Chars := (splitext p.name).2

theorem slash_notMem_stem (p : PosixPath) : '/' ∉ p.stem := fun h =>
  p.slash_notMem_name (by rw [← stem_append_suffix p.name]; exact List.mem_append_left _ h)

theorem slash_notMem_suffix (p : PosixPath) : '/' ∉ p.suffix := fun h =>
  p.slash_notMem_name (by rw [← stem_append_suffix p.name]; exact List.mem_append_right _ h)

/-- `path.with_name(name)`; `none` stands for `ValueError`. -/
def withName (p : PosixPath) (name : Chars) : Option PosixPath :=
  if h : Plain name ∧ p.parts ≠ [] then
    some ⟨p.root, p.parts.dropLast ++ [name], fun part hpart => by
      rcases List.mem_append.mp hpart with hinit | hlast
      · exact p.plain part (List.dropLast_subset _ hinit)
      · rw [List.mem_singleton.mp hlast]; exact h.1⟩
  else none

/-- `path.with_suffix(suffix)`; `none` stands for `ValueError`. -/
def withSuffix (p : PosixPath) (suffix : Chars) : Option PosixPath :=
  if p.stem = [] then none
  else if suffix ≠ [] ∧ suffix.head? ≠ some '.' then none
  else p.withName (p.stem ++ suffix)

theorem name_withName {p q : PosixPath} {name : Chars} (h : p.withName name = some q) :
    q.name = name := by
  rw [withName] at h
  split at h
  · cases h
    simp [PosixPath.name]
  · cases h

theorem name_withSuffix {p q : PosixPath} {suffix : Chars} (h : p.withSuffix suffix = some q) :
    q.name = p.stem ++ suffix := by
  rw [withSuffix] at h
  split at h
  · cases h
  · split at h
    · cases h
    · exact name_withName h

theorem withSuffix_ne {p q r : PosixPath} {suffix suffix' : Chars}
    (hq : p.withSuffix suffix = some q) (hr : p.withSuffix suffix' = some r)
    (hne : suffix ≠ suffix') : q ≠ r := by
  rintro rfl
  have hsame : p.stem ++ suffix = p.stem ++ suffix' := by
    rw [← name_withSuffix hq, ← name_withSuffix hr]
  exact hne (List.append_cancel_left hsame)

theorem withSuffix_ne_self {p q : PosixPath} {suffix : Chars} (hq : p.withSuffix suffix = some q)
    (hne : suffix ≠ p.suffix) : q ≠ p := by
  rintro rfl
  have hname := name_withSuffix hq
  have hsplit : q.stem ++ q.suffix = q.name := stem_append_suffix q.name
  rw [← hsplit] at hname
  exact hne (List.append_cancel_left hname).symm

theorem withSuffix_isSome {p q : PosixPath} {suffix suffix' : Chars}
    (hq : p.withSuffix suffix = some q) (hdot : suffix'.head? = some '.') (hslash : '/' ∉ suffix') :
    ∃ r, p.withSuffix suffix' = some r := by
  have hstem : p.stem ≠ [] := by
    intro hnil
    rw [withSuffix, if_pos hnil] at hq
    cases hq
  have hparts : p.parts ≠ [] := by
    intro hnil
    exact hstem (by simp [stem, PosixPath.name, hnil, splitext, lastDot])
  have hplain : Plain (p.stem ++ suffix') := by
    refine ⟨by simp [hstem], ?_, by simp [p.slash_notMem_stem, hslash]⟩
    intro hone
    have hlen := congrArg List.length hone
    have hstemLen : 0 < p.stem.length := List.length_pos_iff.mpr hstem
    cases suffix' with
    | nil => simp at hdot
    | cons c cs => simp at hlen; omega
  rw [withSuffix, if_neg hstem, if_neg (by simp [hdot]), withName, dif_pos ⟨hplain, hparts⟩]
  exact ⟨_, rfl⟩

end PosixPath
