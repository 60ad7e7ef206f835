/-
  Auditarr/MediaSearch.lean
  =========================
  **Looking for a text in the listing** (`app/services/repositories/media.py`).

  Three values of a filter are looked for in a column by `LIKE '%value%'`, with both sides in
  small letters.  The value is not escaped, so the rows are those that contain it iff it has no
  `%`, no `_` and no escape character; two of the values are also stripped first
  (`literal_iff`).
-/
import Auditarr.MediaListing
import Auditarr.SqlLike

namespace MediaSearch

open Database PyValues MediaListing SqlLike

/-- How a database folds letters and compares them: what it folds is compared as it is. -/
structure SqlText where
  dialect : Dialect
  /-- A character in `lower()`. -/
  fold : Char → Char
  fold_fold : ∀ c, fold (fold c) = fold c
  fold_percent : fold '%' = '%'
  fold_x : fold 'x' = 'x'
  same_fold : ∀ c x, dialect.same (fold c) (fold x) = true ↔ fold c = fold x
  percent_not_escape : dialect.escape ≠ some '%'

def SqlText.lower (t : SqlText) (s : String) : String := String.ofList (s.toList.map t.fold)

def SqlText.runtime (t : SqlText) : ListingRuntime where
  lower := t.lower
  like text pattern := like t.dialect text pattern

/-- The three values that are looked for. -/
inductive Field where
  | search | pathContains | codecContains
deriving DecidableEq

def Field.column : Field → MediaRow → Option String
  | .search, row => some row.path
  | .pathContains, row => some row.path
  | .codecContains, row => row.videoCodec

/-- The filter with the value and nothing else. -/
def Field.filter (value : String) : Field → MediaFilter
  | .search => { search := some value }
  | .pathContains => { pathContains := some value }
  | .codecContains => { codecContains := some value }

/-- What is looked for. -/
def Field.needle (value : String) : Field → String
  | .search => value
  | .pathContains => strip value
  | .codecContains => strip value

section Returned

variable (t : SqlText) (c : Collation) (s : Store) (field : Field) (value : String)

/-- The listing returns the row on one of its pages. -/
def Returned (row : MediaRow) : Prop :=
  ∃ offset limit page, Lists t.runtime c s (field.filter value) offset limit page ∧ row ∈ page.items

/-- The column has the value in it, both in small letters. -/
def Contains (row : MediaRow) : Prop :=
  ∃ text, field.column row = some text ∧ (t.lower value).toList <:+: (t.lower text).toList

/-- The promise: the rows that are returned are those that contain the value. -/
def Literal : Prop :=
  ∀ row, Returned t c s field value row ↔ row ∈ s.media ∧ Contains t field value row

/-- The pattern is like the column, or there is no pattern. -/
def Passes (row : MediaRow) : Prop :=
  field.needle value = "" ∨ ∃ text, field.column row = some text ∧
    like t.dialect (t.lower text) (containing (t.lower (field.needle value))) = true

/-- The value is looked for as it is: nothing is stripped, nothing in it is special, and it is
    not the empty one that leaves out the filter of a column that may be `NULL`. -/
structure Plainly : Prop where
  plain : ∀ ch ∈ (t.lower value).toList, Plain t.dialect ch
  kept : field.needle value = value
  present : field = .codecContains → value ≠ ""

variable {t c s field value}

theorem selected_of_returned {filt : MediaFilter} {rt : ListingRuntime} {row : MediaRow} :
    (∃ offset limit page, Lists rt c s filt offset limit page ∧ row ∈ page.items) ↔
      row ∈ selected rt s filt := by
  constructor
  · rintro ⟨offset, limit, page, hpage, hrow⟩
    exact Paging.mem_rows_of_page hpage.page.1 hrow
  · intro hrow
    obtain ⟨page, hpage⟩ : ∃ page, Lists rt c s filt 0 (selected rt s filt).length page :=
      exists_lists 0 _
    refine ⟨0, _, page, hpage, ?_⟩
    obtain ⟨ordered, hperm, -, hitems⟩ := hpage.page.1
    rw [hitems, List.drop_zero, ← hperm.length_eq, List.take_length]
    exact hperm.mem_iff.mpr hrow

theorem contains_iff {column : MediaRow → Option String} {needle : String} {row : MediaRow} :
    contains t.runtime column (t.runtime.lower needle) row = true ↔ ∃ text, column row = some text ∧
      like t.dialect (t.lower text) (containing (t.lower needle)) = true := by
  simp only [contains, Option.any_eq_true, SqlText.runtime, containing]

theorem satisfies_texts (search path codec : Option String) (row : MediaRow) :
    satisfies t.runtime s { search := search, pathContains := path, codecContains := codec } row =
      (searchConditions t.runtime { search := search } ++
        pathConditions t.runtime { pathContains := path } ++
          codecConditions t.runtime { codecContains := codec }).all fun condition =>
            condition row := by
  rw [← conditions_texts (s := s), satisfies, Bool.not_false, Bool.true_and]

theorem satisfies_iff (row : MediaRow) :
    satisfies t.runtime s (field.filter value) row = true ↔ Passes t field value row := by
  have hall : ∀ p : Condition, ([p].all fun condition => condition row) = true ↔ p row = true := by
    simp
  cases field with
  | search =>
    rw [Field.filter, satisfies_texts]
    simp only [searchConditions, pathConditions, codecConditions, whenStripped_none,
      List.append_nil]
    rw [all_whenGiven, hall, contains_iff]
    rfl
  | pathContains =>
    rw [Field.filter, satisfies_texts]
    simp only [searchConditions, pathConditions, codecConditions, whenGiven_none, whenStripped_none,
      List.append_nil, List.nil_append]
    rw [all_whenStripped, hall, contains_iff]
    rfl
  | codecContains =>
    rw [Field.filter, satisfies_texts]
    simp only [searchConditions, pathConditions, codecConditions, whenGiven_none, whenStripped_none,
      List.nil_append]
    rw [all_whenStripped, hall, contains_iff]
    rfl

theorem literal_iff_rows : Literal t c s field value ↔
    ∀ row ∈ s.media, Passes t field value row ↔ Contains t field value row := by
  have hreturned : ∀ row, Returned t c s field value row ↔
      row ∈ s.media ∧ Passes t field value row := by
    intro row
    rw [Returned, selected_of_returned, selected, List.mem_filter, satisfies_iff]
  constructor
  · intro hliteral row hrow
    have hsame := hliteral row
    rw [hreturned, and_iff_right hrow, and_iff_right hrow] at hsame
    exact hsame
  · intro hrows row
    rw [hreturned]
    exact and_congr_right (hrows row)

end Returned

/-! ### Which values are looked for as they are -/

section Values

variable {t : SqlText} {c : Collation} {field : Field} {value : String}

theorem toList_lower (s : String) : (t.lower s).toList = s.toList.map t.fold :=
  String.toList_ofList

theorem exactOn_lower (a b : String) : ExactOn t.dialect (t.lower a).toList (t.lower b).toList := by
  intro c hc x hx
  rw [toList_lower, List.mem_map] at hc hx
  obtain ⟨c, -, rfl⟩ := hc
  obtain ⟨x, -, rfl⟩ := hx
  exact t.same_fold c x

theorem lower_sampleOf (s : String) :
    t.lower (sampleOf t.dialect (t.lower s)) = sampleOf t.dialect (t.lower s) := by
  rw [← String.toList_inj, toList_lower, sampleOf, String.toList_ofList]
  conv_rhs => rw [← List.map_id (sample _)]
  apply List.map_congr_left
  intro c hc
  rw [toList_lower] at hc
  rcases mem_sample hc with rfl | hc
  · exact t.fold_x
  · rcases List.mem_append.mp hc with hc | hc
    · obtain ⟨c, -, rfl⟩ := List.mem_map.mp hc
      exact t.fold_fold c
    · rw [List.mem_singleton.mp hc]
      exact t.fold_percent

theorem strip_within (s : String) : (strip s).toList <:+: s.toList := by
  rw [strip, String.toList_ofList]
  exact (List.rdropWhile_prefix isSpace (s.toList.dropWhile isSpace)).isInfix.trans
    (List.dropWhile_suffix isSpace).isInfix

theorem needle_within (field : Field) (value : String) :
    (field.needle value).toList <:+: value.toList := by
  cases field with
  | search => exact List.infix_rfl
  | pathContains => exact strip_within value
  | codecContains => exact strip_within value

/-- A row with a text in both columns. -/
def rowOf (path : String) (codec : Option String) : MediaRow where
  toMediaFile := { MediaFile.unprobed "m1" "l1" path "mkv" with videoCodec := codec }
  mtime := 0
  seenAt := 0

/-- The table of one row. -/
def storeOf (row : MediaRow) : Store := ⟨[row], List.nodup_singleton _, [], [], []⟩

theorem passes_iff_contains (h : ∀ s, Literal t c s field value) (row : MediaRow) :
    Passes t field value row ↔ Contains t field value row :=
  literal_iff_rows.mp (h (storeOf row)) row List.mem_cons_self

theorem column_rowOf (field : Field) (text : String) :
    field.column (rowOf text (some text)) = some text := by
  cases field <;> rfl

theorem infix_sample (h : ∀ s, Literal t c s field value) : (t.lower value).toList <:+:
    (sampleOf t.dialect (t.lower (field.needle value))).toList := by
  obtain ⟨text, htext, hfound⟩ := (passes_iff_contains h (rowOf (sampleOf t.dialect
    (t.lower (field.needle value))) (some _))).mp (by
      refine .inr ⟨_, column_rowOf field _, ?_⟩
      rw [lower_sampleOf]
      exact like_sampleOf t.percent_not_escape _)
  rw [column_rowOf, Option.some.injEq] at htext
  rwa [← htext, lower_sampleOf] at hfound

/-- The promise is kept for every table iff the value is looked for as it is, and for one table
    iff its rows pass the pattern and contain the value alike. -/
theorem literal_iff (t : SqlText) (c : Collation) (field : Field) (value : String) :
    ((∀ s, Literal t c s field value) ↔ Plainly t field value) ∧
      ∀ s, Literal t c s field value ↔
        ∀ row ∈ s.media, Passes t field value row ↔ Contains t field value row := by
  refine ⟨⟨?_, ?_⟩, fun s => literal_iff_rows⟩
  · intro h
    have hsample := infix_sample h
    have hkept : field.needle value = value := by
      rw [← String.toList_inj]
      apply (needle_within field value).eq_of_length_le
      have hlong := hsample.length_le.trans (length_sampleOf t.percent_not_escape _)
      simpa only [toList_lower, List.length_map] using hlong
    refine ⟨?_, hkept, ?_⟩
    · rw [hkept] at hsample
      exact plain_of_infix_sampleOf t.percent_not_escape hsample
    · rintro rfl rfl
      obtain ⟨text, htext, -⟩ := (passes_iff_contains h (rowOf "" none)).mp (.inl rfl)
      cases htext
  · rintro ⟨hplain, hkept, hpresent⟩ s
    rw [literal_iff_rows]
    intro row _
    rw [Passes, hkept, Contains]
    have hlike : ∀ text, like t.dialect (t.lower text) (containing (t.lower value)) = true ↔
        (t.lower value).toList <:+: (t.lower text).toList := fun text =>
      like_contains (exactOn_lower value text) t.percent_not_escape hplain
    simp only [hlike]
    rw [or_iff_right_of_imp]
    rintro rfl
    obtain ⟨text, htext⟩ : ∃ text, field.column row = some text := by
      cases field with
      | search => exact ⟨_, rfl⟩
      | pathContains => exact ⟨_, rfl⟩
      | codecContains => exact absurd rfl (hpresent rfl)
    refine ⟨text, htext, ?_⟩
    rw [toList_lower]
    exact List.nil_infix

end Values

/-! ### An underscore that is looked for -/

theorem fold_percent_id : id '%' = '%' := rfl

theorem fold_x_id : id 'x' = 'x' := rfl

theorem same_fold_id (c x : Char) : postgresql.same (id c) (id x) = true ↔ id c = id x := beq_iff_eq

theorem percent_not_backslash : postgresql.escape ≠ some '%' := by decide

/-- Texts in small letters. -/
def smallLetters : SqlText where
  dialect := postgresql
  fold := id
  fold_fold := fun _ => rfl
  fold_percent := fold_percent_id
  fold_x := fold_x_id
  same_fold := same_fold_id
  percent_not_escape := percent_not_backslash

/-- A path that does not contain the value is returned. -/
theorem underscore_not_literal : ¬Literal smallLetters byteOrder
    (storeOf (rowOf "/tv/s01xe01.mkv" none)) .search "s01_e01" := by
  intro hliteral
  rw [literal_iff_rows] at hliteral
  obtain ⟨text, htext, hfound⟩ :=
    (hliteral (rowOf "/tv/s01xe01.mkv" none) List.mem_cons_self).mp (by
      refine .inr ⟨_, rfl, ?_⟩
      decide +kernel)
  cases htext
  revert hfound
  decide +kernel

end MediaSearch
