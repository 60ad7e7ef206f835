/-
  Auditarr/MediaListing.lean
  ==========================
  **The listing of media files** (`app/services/repositories/media.py`).

  `list` counts the rows that its filter lets through and returns one page of them in an
  order that ends with the path.  No two rows have one path, so the order leaves nothing
  open: the pages put together are the rows of the filter, each once, in one order that
  does not depend on the pages, and each page has their number (`pages_partition`).
-/
import Auditarr.Database
import Auditarr.Paging
import Auditarr.RuleDocument

namespace MediaListing

open Database Paging PyValues RuleDocument

abbrev Timestamp := Int

/-- A row of `media_files`, with the two times that a listing may be sorted by. -/
structure MediaRow extends MediaFile where
  mtime : Timestamp
  seenAt : Timestamp

/-- The tables that a listing reads.  No two rows have one path. -/
structure Store where
  media : List MediaRow
  paths_unique : (media.map fun row => row.path).Nodup
  tags : List MediaTag
  rules : List Rule
  evaluations : List RuleEvaluation

inductive Scope where
  | all | media | nonMedia
deriving DecidableEq

structure MediaFilter where
  libraryId : Option String := none
  category : Option String := none
  severity : Option String := none
  extension : Option String := none
  isOrphaned : Option Bool := none
  search : Option String := none
  sort : Option String := none
  sortDir : String := "desc"
  videoCodec : Option String := none
  container : Option String := none
  scope : Option Scope := none
  severitiesEmpty : Bool := false
  includeMatchedRules : Bool := false
  includeTags : Bool := false
  tagsAny : Option (List String) := none
  tagsAll : Option (List String) := none
  tagsNone : Option (List String) := none
  rulesAny : Option (List String) := none
  rulesAll : Option (List String) := none
  rulesNone : Option (List String) := none
  hasSubtitles : Option Bool := none
  resolutionBucket : Option String := none
  pathContains : Option String := none
  codecContains : Option String := none
  containerEq : Option String := none
  extensionEq : Option String := none
  sizeMin : Option Int := none
  sizeMax : Option Int := none
  mtimeAfter : Option Timestamp := none
  mtimeBefore : Option Timestamp := none

structure MatchedRuleSummary where
  ruleId : String
  ruleName : String
  severity : String

/-- `MediaPage`; a key that is absent from one of the two maps has an empty list. -/
structure MediaPage where
  items : List MediaRow
  total : Nat
  offset : Nat
  limit : Nat
  matchedRules : String → List MatchedRuleSummary := fun _ => []
  tags : String → List String := fun _ => []

/-- The database and the text functions. -/
structure ListingRuntime where
  /-- `str.lower` and `lower(column)`. -/
  lower : String → String
  /-- `column LIKE pattern`. -/
  like : String → String → Bool

/-! ### The conditions -/

/-- A predicate of the `WHERE` clause; on a `NULL` it does not hold. -/
abbrev Condition := MediaRow → Bool

/-- The conditions of a text that is given and not empty. -/
def whenGiven (value : Option String) (f : String → List Condition) : List Condition :=
  match value with
  | none => []
  | some v => if v = "" then [] else f v

/-- The conditions of a text that is not blank, which is stripped. -/
def whenStripped (value : Option String) (f : String → List Condition) : List Condition :=
  whenGiven value fun v => if strip v = "" then [] else f (strip v)

def whenSome {α : Type} (value : Option α) (f : α → Condition) : List Condition :=
  (value.map f).toList

/-- `[c.strip() for c in value.split(",") if c.strip()]`. -/
def commaSeparated (value : String) : List String :=
  ((value.toList.splitOn ',').map fun part => strip (String.ofList part)).filter (· ≠ "")

/-- `[t.strip() for t in values if t and t.strip()]`. -/
def stripped (values : Option (List String)) : List String :=
  ((values.getD []).map strip).filter (· ≠ "")

/-- A column is one of the values, where there are any. -/
def oneOf (column : MediaRow → Option String) (values : List String) : List Condition :=
  match values with
  | [] => []
  | [v] => [fun row => column row == some v]
  | vs => [fun row => (column row).any fun v => vs.contains v]

section Subqueries

variable (s : Store)

/-- The file carries a tag of one of the names. -/
def tagged (names : List String) (row : MediaRow) : Bool :=
  s.tags.any fun tag => tag.mediaFileId == row.id && names.contains tag.name

/-- The file is matched by one of the rules. -/
def matched (ids : List String) (row : MediaRow) : Bool :=
  s.evaluations.any fun e => e.mediaFileId == row.id && ids.contains e.ruleId

/-- `EXISTS`, where there are values. -/
def anyOf (carries : List String → Condition) (values : List String) : List Condition :=
  if values = [] then [] else [carries values]

/-- One `EXISTS` for each value. -/
def allOf (carries : List String → Condition) (values : List String) : List Condition :=
  values.map fun v => carries [v]

/-- `NOT EXISTS`, where there are values. -/
def noneOf (carries : List String → Condition) (values : List String) : List Condition :=
  if values = [] then [] else [fun row => !carries values row]

end Subqueries

def inScope : Option Scope → List Condition
  | some .media => [fun row => row.category == "media"]
  | some .nonMedia => [fun row => row.category != "media"]
  | some .all => []
  | none => []

/-- The height is known, and in a half-open range. -/
def heightIn (low high : Int) : Condition := fun row =>
  row.height.any fun h => decide (low ≤ h) && decide (h < high)

/-- The conditions of a bucket; a label that is unknown has none. -/
def bucketConditions (bucket : String) : List Condition :=
  if bucket = "unknown" then [fun row => row.height.isNone]
  else if bucket = "sd" then [fun row => row.height.any fun h => decide (h < 320)]
  else if bucket = "480p" then [heightIn 320 600]
  else if bucket = "720p" then [heightIn 600 1000]
  else if bucket = "1080p" then [heightIn 1000 1300]
  else if bucket = "1440p" then [heightIn 1300 1700]
  else if bucket ∈ ["2160p", "4k"] then [heightIn 1700 3000]
  else if bucket ∈ ["4320p", "8k"] then [fun row => row.height.any fun h => decide (3000 ≤ h)]
  else []

/-- `value.lstrip(".")`. -/
def lstripDots (value : String) : String := String.ofList (value.toList.dropWhile (· = '.'))

section Listing

variable (rt : ListingRuntime)

/-- `func.lower(column).like(f"%{needle}%")`. -/
def contains (column : MediaRow → Option String) (needle : String) : Condition := fun row =>
  (column row).any fun text => rt.like (rt.lower text) ("%" ++ needle ++ "%")

variable (s : Store) (filt : MediaFilter)

def searchConditions : List Condition :=
  whenGiven filt.search fun v => [contains rt (fun row => some row.path) (rt.lower v)]

def pathConditions : List Condition :=
  whenStripped filt.pathContains fun v => [contains rt (fun row => some row.path) (rt.lower v)]

def codecConditions : List Condition :=
  whenStripped filt.codecContains fun v => [contains rt (fun row => row.videoCodec) (rt.lower v)]

/-- The conditions that the filter adds, in their order. -/
def conditions : List Condition :=
  whenGiven filt.libraryId (fun v => [fun row => row.libraryId == v]) ++
  whenGiven filt.category (fun v => [fun row => row.category == v]) ++
  inScope filt.scope ++
  whenGiven filt.severity (fun v =>
    oneOf (fun row => some (severityName row.severity)) (commaSeparated v)) ++
  whenGiven filt.extension (fun v => [fun row => row.extension == rt.lower v]) ++
  whenSome filt.isOrphaned (fun v row => row.isOrphaned == v) ++
  whenGiven filt.videoCodec (fun v => oneOf (fun row => row.videoCodec) (commaSeparated v)) ++
  whenGiven filt.container (fun v => oneOf (fun row => row.container) (commaSeparated v)) ++
  searchConditions rt filt ++
  anyOf (tagged s) (stripped filt.tagsAny) ++
  allOf (tagged s) (stripped filt.tagsAll) ++
  noneOf (tagged s) (stripped filt.tagsNone) ++
  anyOf (matched s) (stripped filt.rulesAny) ++
  allOf (matched s) (stripped filt.rulesAll) ++
  noneOf (matched s) (stripped filt.rulesNone) ++
  whenSome filt.hasSubtitles (fun v row => row.hasSubtitles == v) ++
  whenGiven filt.resolutionBucket (fun v => bucketConditions (rt.lower (strip v))) ++
  pathConditions rt filt ++
  codecConditions rt filt ++
  whenStripped filt.containerEq (fun v => [fun row => row.container == some v]) ++
  whenStripped filt.extensionEq (fun v => [fun row => row.extension == rt.lower (lstripDots v)]) ++
  whenSome filt.sizeMin (fun v row => decide (v ≤ row.sizeBytes)) ++
  whenSome filt.sizeMax (fun v row => decide (row.sizeBytes ≤ v)) ++
  whenSome filt.mtimeAfter (fun v row => decide (v ≤ row.mtime)) ++
  whenSome filt.mtimeBefore (fun v row => decide (row.mtime ≤ v))

theorem whenGiven_none (f : String → List Condition) : whenGiven none f = [] := rfl

theorem whenStripped_none (f : String → List Condition) : whenStripped none f = [] := rfl

theorem whenSome_none {α : Type} (f : α → Condition) : whenSome none f = [] := rfl

theorem inScope_none : inScope none = [] := rfl

theorem anyOf_none (carries : List String → Condition) : anyOf carries (stripped none) = [] := rfl

theorem allOf_none (carries : List String → Condition) : allOf carries (stripped none) = [] := rfl

theorem noneOf_none (carries : List String → Condition) : noneOf carries (stripped none) = [] := rfl

theorem all_whenGiven {value : String} {f : String → List Condition} {row : MediaRow} :
    (whenGiven (some value) f).all (fun p => p row) = true ↔
      value = "" ∨ (f value).all (fun p => p row) = true := by
  simp only [whenGiven]
  split
  · rename_i hempty
    exact iff_of_true rfl (.inl hempty)
  · rename_i hgiven
    rw [or_iff_right hgiven]

theorem all_whenStripped {value : String} {f : String → List Condition} {row : MediaRow} :
    (whenStripped (some value) f).all (fun p => p row) = true ↔
      strip value = "" ∨ (f (strip value)).all (fun p => p row) = true := by
  unfold whenStripped
  rw [all_whenGiven]
  constructor
  · rintro (rfl | hall)
    · exact .inl rfl
    · split at hall
      · rename_i hempty
        exact .inl hempty
      · exact .inr hall
  · rintro (hempty | hall)
    · rw [if_pos hempty]
      exact .inr rfl
    · split
      · exact .inr rfl
      · exact .inr hall

theorem conditions_texts (search path codec : Option String) :
    conditions rt s { search := search, pathContains := path, codecContains := codec } =
      searchConditions rt { search := search } ++ pathConditions rt { pathContains := path } ++
        codecConditions rt { codecContains := codec } := by
  unfold conditions
  simp only [whenGiven_none, whenStripped_none, whenSome_none, inScope_none, anyOf_none, allOf_none,
    noneOf_none, List.nil_append, List.append_nil]
  rfl

/-- The row satisfies the filter; the sentinel of no severities at all lets none through. -/
def satisfies (row : MediaRow) : Bool :=
  !filt.severitiesEmpty && (conditions rt s filt).all fun condition => condition row

/-- The rows of the filter. -/
def selected : List MediaRow := s.media.filter (satisfies rt s filt)

end Listing

/-! ### The order -/

def SORTABLE_COLUMNS : List String :=
  ["path", "filename", "size_bytes", "mtime", "severity_rank", "category", "extension", "seen_at",
    "severity", "video_codec", "container"]

/-- `_SORT_COLUMN_ALIASES.get(sort, sort)`. -/
def effectiveColumn (sort : String) : String := if sort = "severity" then "severity_rank" else sort

/-- What a row has in a column. -/
inductive Cell where
  | null
  | int (n : Int)
  | text (s : String)
deriving DecidableEq

def Cell.ofText : Option String → Cell
  | none => .null
  | some s => .text s

/-- `getattr(MediaFile, column)`. -/
def cell (row : MediaRow) : String → Cell
  | "path" => .text row.path
  | "filename" => .text row.filename
  | "size_bytes" => .int row.sizeBytes
  | "mtime" => .int row.mtime
  | "severity_rank" => .int row.severityRank
  | "category" => .text row.category
  | "extension" => .text row.extension
  | "seen_at" => .int row.seenAt
  | "video_codec" => .ofText row.videoCodec
  | "container" => .ofText row.container
  | _ => .null

/-- How the database orders what is in a column, rising. -/
structure Collation where
  le : Cell → Cell → Bool
  total : ∀ a b, le a b = true ∨ le b a = true
  trans : ∀ a b c, le a b = true → le b c = true → le a c = true
  antisymm : ∀ a b, le a b = true → le b a = true → a = b

/-- `NULL` first, then numbers, then texts by their bytes. -/
def Cell.le : Cell → Cell → Bool
  | .null, _ => true
  | .int _, .null => false
  | .int m, .int n => decide (m ≤ n)
  | .int _, .text _ => true
  | .text s, .text t => decide (s ≤ t)
  | .text _, _ => false

/-- The collation `BINARY` of SQLite. -/
def byteOrder : Collation where
  le := Cell.le
  total a b := by
    cases a <;> cases b <;> simp [Cell.le, le_total]
  trans a b c hab hbc := by
    cases a <;> cases b <;> cases c <;> simp only [Cell.le, decide_eq_true_eq] at hab hbc ⊢
    all_goals first | contradiction | exact le_trans hab hbc
  antisymm a b hab hba := by
    cases a <;> cases b <;> simp only [Cell.le, decide_eq_true_eq] at hab hba
    all_goals first | contradiction | rfl | exact congrArg _ (le_antisymm hab hba)

section Order

variable (c : Collation)

/-- One row comes no later than another by the first of two columns, and where they have the
    same there, by their paths. -/
def orderBy (first : MediaRow → MediaRow → Bool) (a b : MediaRow) : Bool :=
  first a b && (!first b a || c.le (cell a "path") (cell b "path"))

/-- A column, rising or falling. -/
def byColumn (column : String) (descending : Bool) (a b : MediaRow) : Bool :=
  if descending then c.le (cell b column) (cell a column) else c.le (cell a column) (cell b column)

/-- The column that is asked for, if it is sortable, else the severity. -/
def primary (filt : MediaFilter) : MediaRow → MediaRow → Bool :=
  match filt.sort with
  | none => byColumn c "severity_rank" true
  | some sort =>
      if sort ∈ SORTABLE_COLUMNS then byColumn c (effectiveColumn sort) (filt.sortDir == "desc")
      else byColumn c "severity_rank" true

/-- The `ORDER BY` of the listing. -/
def Ordered (filt : MediaFilter) (a b : MediaRow) : Prop := orderBy c (primary c filt) a b = true

variable {c}

theorem byColumn_total (column : String) (descending : Bool) (a b : MediaRow) :
    byColumn c column descending a b = true ∨ byColumn c column descending b a = true := by
  unfold byColumn
  cases descending with
  | true => exact c.total _ _
  | false => exact c.total _ _

theorem byColumn_trans {column : String} {descending : Bool} {a b d : MediaRow}
    (hab : byColumn c column descending a b = true) (hbd : byColumn c column descending b d = true) :
    byColumn c column descending a d = true := by
  unfold byColumn at hab hbd ⊢
  cases descending with
  | true => exact c.trans _ _ _ hbd hab
  | false => exact c.trans _ _ _ hab hbd

theorem primary_eq (filt : MediaFilter) :
    ∃ column descending, primary c filt = byColumn c column descending := by
  unfold primary
  split
  · exact ⟨_, _, rfl⟩
  · split
    · exact ⟨_, _, rfl⟩
    · exact ⟨_, _, rfl⟩

theorem Ordered.total (filt : MediaFilter) (a b : MediaRow) : Ordered c filt a b ∨ Ordered c filt b a := by
  obtain ⟨column, descending, hprimary⟩ := primary_eq (c := c) filt
  have hcolumn := byColumn_total (c := c) column descending a b
  have hpath := c.total (cell a "path") (cell b "path")
  simp only [Ordered, orderBy, hprimary, Bool.and_eq_true, Bool.or_eq_true, Bool.not_eq_true']
  cases hab : byColumn c column descending a b <;> cases hba : byColumn c column descending b a <;>
    simp_all

theorem Ordered.trans {filt : MediaFilter} {a b d : MediaRow} (hab : Ordered c filt a b)
    (hbd : Ordered c filt b d) : Ordered c filt a d := by
  obtain ⟨column, descending, hprimary⟩ := primary_eq (c := c) filt
  simp only [Ordered, orderBy, hprimary, Bool.and_eq_true, Bool.or_eq_true, Bool.not_eq_true'] at *
  obtain ⟨hab, htie⟩ := hab
  obtain ⟨hbd, htie'⟩ := hbd
  refine ⟨byColumn_trans hab hbd, ?_⟩
  cases hda : byColumn c column descending d a with
  | false => exact .inl rfl
  | true =>
    -- the three rows have the same in the column, so their paths decide
    have hba := byColumn_trans hbd hda
    have hdb := byColumn_trans hda hab
    rw [hba] at htie
    rw [hdb] at htie'
    exact .inr (c.trans _ _ _ (by simpa using htie) (by simpa using htie'))

theorem Ordered.path_eq {filt : MediaFilter} {a b : MediaRow} (hab : Ordered c filt a b)
    (hba : Ordered c filt b a) : a.path = b.path := by
  simp only [Ordered, orderBy, Bool.and_eq_true, Bool.or_eq_true, Bool.not_eq_true'] at hab hba
  obtain ⟨hab, htie⟩ := hab
  obtain ⟨hba, htie'⟩ := hba
  rw [hba] at htie
  rw [hab] at htie'
  have hpaths := c.antisymm _ _ (by simpa using htie) (by simpa using htie')
  exact Cell.text.inj hpaths

end Order

/-! ### The listing -/

section Pages

variable (rt : ListingRuntime) (c : Collation) (s : Store) (filt : MediaFilter)

/-- The rules that match a file, with the rank that they give. -/
def ruleRows (id : String) : List (Nat × MatchedRuleSummary) :=
  (s.evaluations.filter fun e => e.mediaFileId = id).flatMap fun e =>
    (s.rules.filter fun r => r.id = e.ruleId).map fun r =>
      (e.severityRank, ⟨e.ruleId, r.name, severityName e.severity⟩)

/-- The rule of the higher rank comes first, and of two with one rank that of the lesser name. -/
def RuleOrder (a b : Nat × MatchedRuleSummary) : Prop :=
  b.1 < a.1 ∨ b.1 = a.1 ∧ c.le (.text a.2.ruleName) (.text b.2.ruleName) = true

/-- What is attached to the rows of a page, where it is asked for. -/
structure Attached (items : List MediaRow) (page : MediaPage) : Prop where
  rules : ∀ id, if filt.includeMatchedRules = true ∧ id ∈ items.map (fun row => row.id)
    then ∃ ordered : List (Nat × MatchedRuleSummary), ordered.Perm (ruleRows s id) ∧
      ordered.Pairwise (RuleOrder c) ∧ page.matchedRules id = ordered.map fun r => r.2
    else page.matchedRules id = []
  tags : ∀ id, if filt.includeTags = true ∧ id ∈ items.map (fun row => row.id)
    then ∃ ordered : List String,
      ordered.Perm ((s.tags.filter fun tag => tag.mediaFileId = id).map fun tag => tag.name) ∧
      ordered.Pairwise (fun a b => c.le (.text a) (.text b) = true) ∧
      page.tags id = ordered.foldl
        (fun bucket name => if name ∈ bucket then bucket else bucket ++ [name]) []
    else page.tags id = []

/-- What `list` may return, by the order in which the database leaves what is tied. -/
def Lists (offset limit : Nat) (page : MediaPage) : Prop :=
  if filt.severitiesEmpty = true then page = { items := [], total := 0, offset, limit }
  else Page (Ordered c filt) (selected rt s filt) offset limit page.items ∧
    page.total = (selected rt s filt).length ∧ page.offset = offset ∧ page.limit = limit ∧
    Attached c s filt page.items page

theorem selected_of_severitiesEmpty (h : filt.severitiesEmpty = true) : selected rt s filt = [] := by
  rw [selected, List.filter_eq_nil_iff]
  intro row _
  simp [satisfies, h]

variable {rt c s filt}

theorem selected_path_nodup : ((selected rt s filt).map fun row => row.path).Nodup :=
  s.paths_unique.sublist (List.filter_sublist.map _)

theorem selected_untied : ∀ a ∈ selected rt s filt, ∀ b ∈ selected rt s filt,
    Ordered c filt a b → Ordered c filt b a → a = b := by
  intro a ha b hb hab hba
  exact List.inj_on_of_nodup_map selected_path_nodup ha hb (hab.path_eq hba)

theorem Lists.page {offset limit : Nat} {page : MediaPage} (h : Lists rt c s filt offset limit page) :
    Page (Ordered c filt) (selected rt s filt) offset limit page.items ∧
      page.total = (selected rt s filt).length := by
  unfold Lists at h
  split at h
  · rename_i hempty
    rw [selected_of_severitiesEmpty rt s filt hempty, h]
    exact ⟨⟨[], .nil, .nil, by simp⟩, rfl⟩
  · exact ⟨h.1, h.2.1⟩

theorem RuleOrder.total (c : Collation) (a b : Nat × MatchedRuleSummary) :
    RuleOrder c a b ∨ RuleOrder c b a := by
  rcases lt_trichotomy a.1 b.1 with hlt | heq | hgt
  · exact .inr (.inl hlt)
  · exact (c.total (.text a.2.ruleName) (.text b.2.ruleName)).imp (fun h => .inr ⟨heq.symm, h⟩)
      fun h => .inr ⟨heq, h⟩
  · exact .inl (.inl hgt)

theorem RuleOrder.trans {a b d : Nat × MatchedRuleSummary} (hab : RuleOrder c a b)
    (hbd : RuleOrder c b d) : RuleOrder c a d := by
  rcases hab with hlt | ⟨heq, hle⟩
  · rcases hbd with hlt' | ⟨heq', -⟩
    · exact .inl (hlt'.trans hlt)
    · exact .inl (heq'.trans_lt hlt)
  · rcases hbd with hlt' | ⟨heq', hle'⟩
    · exact .inl (hlt'.trans_eq heq)
    · exact .inr ⟨heq'.trans heq, c.trans _ _ _ hle hle'⟩

theorem exists_lists (offset limit : Nat) : ∃ page, Lists rt c s filt offset limit page := by
  by_cases hempty : filt.severitiesEmpty = true
  · refine ⟨{ items := [], total := 0, offset, limit }, ?_⟩
    rw [Lists, if_pos hempty]
  · obtain ⟨ordered, hperm, hordered⟩ := exists_ordered (Ordered.total (c := c) filt)
      (fun _ _ _ hab hbd => Ordered.trans hab hbd) (selected rt s filt)
    let items := (ordered.drop offset).take limit
    have hrules : ∀ id, ∃ attached : List MatchedRuleSummary,
        if filt.includeMatchedRules = true ∧ id ∈ items.map (fun row => row.id)
        then ∃ ordered : List (Nat × MatchedRuleSummary), ordered.Perm (ruleRows s id) ∧
          ordered.Pairwise (RuleOrder c) ∧ attached = ordered.map fun r => r.2
        else attached = [] := by
      intro id
      split
      · obtain ⟨ordered, hperm, hordered⟩ := exists_ordered (RuleOrder.total c)
          (fun _ _ _ hab hbd => RuleOrder.trans hab hbd) (ruleRows s id)
        exact ⟨_, ordered, hperm, hordered, rfl⟩
      · exact ⟨[], rfl⟩
    have htags : ∀ id, ∃ attached : List String,
        if filt.includeTags = true ∧ id ∈ items.map (fun row => row.id)
        then ∃ ordered : List String,
          ordered.Perm ((s.tags.filter fun tag => tag.mediaFileId = id).map fun tag => tag.name) ∧
          ordered.Pairwise (fun a b => c.le (.text a) (.text b) = true) ∧ attached = ordered.foldl
            (fun bucket name => if name ∈ bucket then bucket else bucket ++ [name]) []
        else attached = [] := by
      intro id
      split
      · obtain ⟨ordered, hperm, hordered⟩ := exists_ordered
          (fun a b : String => c.total (.text a) (.text b))
          (fun _ _ _ hab hbd => c.trans _ _ _ hab hbd)
          ((s.tags.filter fun tag => tag.mediaFileId = id).map fun tag => tag.name)
        exact ⟨_, ordered, hperm, hordered, rfl⟩
      · exact ⟨[], rfl⟩
    choose matchedRules hrules using hrules
    choose tags htags using htags
    refine ⟨⟨items, (selected rt s filt).length, offset, limit, matchedRules, tags⟩, ?_⟩
    rw [Lists, if_neg hempty]
    exact ⟨⟨ordered, hperm, hordered, rfl⟩, rfl, rfl, rfl, hrules, htags⟩

/-- The pages put together are the rows of the filter, each once and in one order, and every
    page has their number. -/
theorem pages_partition (rt : ListingRuntime) (c : Collation) (s : Store) (filt : MediaFilter)
    (limit : Nat) : ∃ ordered : List MediaRow,
      (ordered.Pairwise (Ordered c filt) ∧ ordered.Nodup ∧
        ∀ row, row ∈ ordered ↔ row ∈ s.media ∧ satisfies rt s filt row = true) ∧
      (∀ offset, ∃ page, Lists rt c s filt offset limit page) ∧
      ∀ pages : Nat → MediaPage, (∀ k, Lists rt c s filt (k * limit) limit (pages k)) →
        (∀ k, (pages k).total = ordered.length) ∧
        ∀ n, ordered.length ≤ n * limit →
          (List.range n).flatMap (fun k => (pages k).items) = ordered := by
  obtain ⟨ordered, hperm, hordered⟩ := exists_ordered (Ordered.total (c := c) filt)
    (fun _ _ _ hab hbd => Ordered.trans hab hbd) (selected rt s filt)
  refine ⟨ordered, ⟨hordered, ?_, ?_⟩, fun offset => exists_lists offset limit, ?_⟩
  · rw [hperm.nodup_iff]
    exact selected_path_nodup.of_map _
  · intro row
    rw [hperm.mem_iff, selected, List.mem_filter]
  · intro pages hpages
    constructor
    · intro k
      rw [(hpages k).page.2, hperm.length_eq]
    · intro n hn
      have hitems : Pages (Ordered c filt) (selected rt s filt) limit fun k => (pages k).items :=
        fun k => (hpages k).page.1
      have hconcat := hitems.concat_eq selected_untied hperm hordered n
      rwa [List.take_of_length_le hn] at hconcat

end Pages

def film (path : String) (size : Int) : MediaRow where
  toMediaFile := { MediaFile.unprobed path "l1" path "mkv" with sizeBytes := size }
  mtime := 0
  seenAt := 0

/-- Three files, two of them of one size. -/
def films : Store := ⟨[film "/a.mkv" 7, film "/b.mkv" 7, film "/c.mkv" 9], by decide, [], [], []⟩

def bySize : MediaFilter := { sort := some "size_bytes" }

theorem pages_partition_films :
    {items | ∃ pages : Nat → MediaPage,
      (∀ k, Lists ⟨id, fun _ _ => false⟩ byteOrder films bySize (k * 2) 2 (pages k)) ∧
        (List.range 2).flatMap (fun k => (pages k).items) = items} =
      {[film "/c.mkv" 9, film "/a.mkv" 7, film "/b.mkv" 7]} := by
  obtain ⟨ordered, ⟨hordered, hnodup, hmem⟩, hexists, hconcat⟩ :=
    pages_partition ⟨id, fun _ _ => false⟩ byteOrder films bySize 2
  have hall : selected ⟨id, fun _ _ => false⟩ films bySize = films.media :=
    List.filter_eq_self.mpr (by decide +kernel)
  have hperm : ordered.Perm (selected ⟨id, fun _ _ => false⟩ films bySize) := by
    rw [List.perm_ext_iff_of_nodup hnodup (List.Nodup.of_map _ selected_path_nodup)]
    intro row
    rw [hmem, selected, List.mem_filter]
  have hsorted : [film "/c.mkv" 9, film "/a.mkv" 7, film "/b.mkv" 7].Pairwise
      (Ordered byteOrder bySize) := by
    unfold Ordered
    decide +kernel
  have hrows : [film "/c.mkv" 9, film "/a.mkv" 7, film "/b.mkv" 7].Perm films.media :=
    @List.perm_append_comm _ [film "/c.mkv" 9] [film "/a.mkv" 7, film "/b.mkv" 7]
  obtain rfl := ordered_unique selected_untied hperm hordered (hall ▸ hrows) hsorted
  rw [Set.eq_singleton_iff_unique_mem]
  constructor
  · choose page hpage using hexists
    exact ⟨fun k => page (k * 2), fun k => hpage (k * 2),
      (hconcat _ fun k => hpage (k * 2)).2 2 (by decide)⟩
  · rintro items ⟨pages, hpages, rfl⟩
    exact (hconcat pages hpages).2 2 (by decide)

end MediaListing
