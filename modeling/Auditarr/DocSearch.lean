/-
  Auditarr/DocSearch.lean
  =======================
  **Search in the documentation** (`app/documentation/search.py`, `app/documentation/service.py`).

  A query looks up its terms in an inverted index, drops the candidates without a score and sorts
  the rest.  Scores are doubles, zero or at least one, so no page with a term is lost to rounding.
  What is found is what going through all pages finds, whatever was indexed before and also where
  a file replaces an earlier one with its id.
-/
import Mathlib.Data.List.Sort
import Mathlib.Data.String.Basic
import Auditarr.Amounts
import Auditarr.InvertedIndex

namespace DocSearch

open PyValues InvertedIndex Amounts

/-- What is looked up in tables of the interpreter. -/
structure SearchRuntime where
  /-- `str.lower`. -/
  lower : String → String
  /-- The order in which a set is gone through. -/
  iterate : List String → List String
  iterate_perm : ∀ members, (iterate members).Perm members

structure DocPage where
  id : String
  title : String
  bodyHtml : String
  category : String
  tags : List String
  summary : String

/-! ### Tokens -/

/-- `[a-z0-9]`. -/
def startsToken (c : Char) : Bool := ('a' ≤ c && c ≤ 'z') || ('0' ≤ c && c ≤ '9')

/-- `[a-z0-9._-]`. -/
def inToken (c : Char) : Bool := startsToken c || c == '.' || c == '_' || c == '-'

/-- `_TOKEN_RE.findall`, with the token that is being read, its last character first. -/
def findTokens : Option (List Char) → List Char → List String
  | none, [] => []
  | some token, [] => [String.ofList token.reverse]
  | none, c :: rest => if startsToken c then findTokens (some [c]) rest else findTokens none rest
  | some token, c :: rest =>
      if inToken c then findTokens (some (c :: token)) rest
      else String.ofList token.reverse :: findTokens none rest

def STOPWORDS : List String :=
  ["a", "an", "and", "are", "as", "at", "be", "but", "by", "for", "from", "has", "have", "he",
    "her", "his", "i", "if", "in", "into", "is", "it", "its", "of", "on", "or", "she", "that",
    "the", "their", "them", "they", "this", "to", "was", "we", "were", "will", "with", "you",
    "your"]

/-- `<[^>]+>` is replaced by a blank, with what was read since a `<` that is not closed yet, its
    last character first. -/
def stripTags : Option (List Char) → List Char → List Char
  | none, [] => []
  | some pending, [] => pending.reverse
  | none, c :: rest => if c = '<' then stripTags (some [c]) rest else c :: stripTags none rest
  | some pending, c :: rest =>
      if c = '>' then
        -- "<>" has nothing between, and is no tag
        if pending.length = 1 then pending.reverse ++ c :: stripTags none rest
        else ' ' :: stripTags none rest
      else stripTags (some (c :: pending)) rest

def stripHtml (html : String) : String := String.ofList (stripTags none html.toList)

section Runtime

variable (rt : SearchRuntime)

def tokenize (text : String) : List String :=
  (findTokens none (rt.lower text).toList).filter fun tok => decide (tok ∉ STOPWORDS)

structure PageFields where
  titleTokens : List String
  tagTokens : List String
  summaryTokens : List String
  bodyTokens : List String

def PageFields.all (fields : PageFields) : List String :=
  fields.titleTokens ++ fields.tagTokens ++ fields.summaryTokens ++ fields.bodyTokens

def fieldsOf (page : DocPage) : PageFields where
  titleTokens := tokenize rt page.title
  tagTokens := page.tags.map rt.lower
  summaryTokens := tokenize rt page.summary
  bodyTokens := tokenize rt (stripHtml page.bodyHtml)

/-! ### Scores -/

/-- A number of occurrences times the weight of the field. -/
def weighted (tokens : List String) (term : String) (weight : ℚ) : PyFloat :=
  (PyFloat.ofExact (tokens.count term)).mul (.finite weight)

def termFrequency (fields : PageFields) (term : String) : PyFloat :=
  (((weighted fields.titleTokens term 6).add (weighted fields.tagTokens term 4)).add
    (weighted fields.summaryTokens term 3)).add (weighted fields.bodyTokens term 1)

/-- A turn of the loop over the terms. -/
def scoreTerm (fields : PageFields) (sofar : PyFloat × Nat) (term : String) : PyFloat × Nat :=
  if PyFloat.lt (.finite 0) (termFrequency fields term) then
    (sofar.1.add (termFrequency fields term), sofar.2 + 1)
  else sofar

/-- `_score`. -/
def score (fields : PageFields) (terms : List String) : PyFloat :=
  let (total, matched) := terms.foldl (scoreTerm fields) (.finite 0, 0)
  if matched = 0 then .finite 0
  else total.mul ((PyFloat.finite 1).add
    ((PyFloat.ofExact (4 / 10)).mul (.ofExact ((matched - 1 : Nat) : ℚ))))

theorem ofExact_fourTenths : PyFloat.ofExact (4 / 10) = .finite (3602879701896397 / 2 ^ 53) := by
  have hround : roundDouble (4 / 10) = some (3602879701896397 / 2 ^ 53) := by decide +kernel
  rw [PyFloat.ofExact, hround]

theorem amount_termFrequency (fields : PageFields) (term : String) :
    Amount (termFrequency fields term) (term ∈ fields.all) := by
  have hfield : ∀ (tokens : List String) (weight : ℚ), 1 ≤ weight →
      Amount (weighted tokens term weight) (term ∈ tokens) := by
    intro tokens weight hweight
    rw [← List.count_pos_iff]
    exact (amount_ofExact _).mul hweight
  have hsum := (((hfield fields.titleTokens 6 (by norm_num)).add
    (hfield fields.tagTokens 4 (by norm_num))).add
    (hfield fields.summaryTokens 3 (by norm_num))).add (hfield fields.bodyTokens 1 le_rfl)
  simpa only [termFrequency, PageFields.all, List.mem_append] using hsum

/-- After some terms there is a total iff one of them occurs, and then the number of those that
    do is not zero. -/
theorem amount_foldl (fields : PageFields) (terms : List String) (sofar : PyFloat × Nat)
    {p : Prop} (hsofar : Amount sofar.1 p) (hcount : sofar.2 ≠ 0 ↔ p) :
    Amount (terms.foldl (scoreTerm fields) sofar).1 (p ∨ ∃ t ∈ terms, t ∈ fields.all) ∧
      ((terms.foldl (scoreTerm fields) sofar).2 ≠ 0 ↔ p ∨ ∃ t ∈ terms, t ∈ fields.all) := by
  induction terms generalizing sofar p with
  | nil => simpa using ⟨hsofar, hcount⟩
  | cons term rest ih =>
    have hterm := amount_termFrequency fields term
    have hstep : Amount (scoreTerm fields sofar term).1 (p ∨ term ∈ fields.all) ∧
        ((scoreTerm fields sofar term).2 ≠ 0 ↔ p ∨ term ∈ fields.all) := by
      unfold scoreTerm
      by_cases hmem : term ∈ fields.all
      · rw [if_pos (hterm.pos_iff.mpr hmem)]
        exact ⟨hsofar.add hterm, by simp [hmem]⟩
      · rw [if_neg (mt hterm.pos_iff.mp hmem)]
        simpa [hmem] using ⟨hsofar, hcount⟩
    have hrest := ih _ hstep.1 hstep.2
    simpa only [List.foldl_cons, List.mem_cons, exists_eq_or_imp, or_assoc] using hrest

theorem amount_score (fields : PageFields) (terms : List String) :
    Amount (score fields terms) (∃ t ∈ terms, t ∈ fields.all) := by
  obtain ⟨htotal, hmatched⟩ := amount_foldl fields terms (.finite 0, 0) (p := False)
    (.inr ⟨not_false, rfl⟩) (by simp)
  rw [false_or] at htotal hmatched
  unfold score
  generalize terms.foldl (scoreTerm fields) (.finite 0, 0) = sum at htotal hmatched
  obtain ⟨total, matched⟩ := sum
  dsimp only at htotal hmatched ⊢
  by_cases hnone : matched = 0
  · rw [if_pos hnone]
    exact .inr ⟨mt hmatched.mpr (not_not_intro hnone), rfl⟩
  · rw [if_neg hnone]
    have hpresent := hmatched.mp hnone
    rcases htotal with ⟨-, htotal⟩ | ⟨habsent, -⟩
    · have hone : AtLeastOne (.finite 1) := le_refl (1 : ℚ)
      have hboost :
          NonNeg ((PyFloat.ofExact (4 / 10)).mul (.ofExact ((matched - 1 : Nat) : ℚ))) := by
        rw [ofExact_fourTenths]
        exact (nonNeg_ofExact (Nat.cast_nonneg _)).scaled (by norm_num)
      exact .inl ⟨hpresent, htotal.mul (hone.add hboost)⟩
    · exact absurd hpresent habsent

/-! ### Hits -/

/-- `str.find`. -/
def findAt (term : List Char) (text : List Char) (start : Nat) : Option Nat :=
  if term.isPrefixOf text then some start
  else match text with
    | [] => none
    | _ :: rest => findAt term rest (start + 1)

/-- `re.sub(r"\s+", " ", …)`, with whether the last character was a blank. -/
def collapseBlanks : Bool → List Char → List Char
  | _, [] => []
  | blank, c :: rest =>
      if isSpace c then
        if blank then collapseBlanks true rest else ' ' :: collapseBlanks true rest
      else c :: collapseBlanks false rest

/-- `_excerpt`. -/
def excerpt (page : DocPage) (terms : List String) : String :=
  let stripped := stripHtml page.bodyHtml
  let haystack := if stripped = "" then page.summary else stripped
  let located := terms.findSome? fun term =>
    (findAt term.toList (rt.lower haystack).toList 0).map fun idx => (term, idx)
  match located with
  | none => page.summary
  | some (term, idx) =>
      let start := idx - 80
      let stop := min haystack.length (idx + term.length + 80)
      let snippet := strip (String.ofList ((haystack.toList.drop start).take (stop - start)))
      let opened := if 0 < start then "…" ++ snippet else snippet
      let closed := if stop < haystack.length then opened ++ "…" else opened
      String.ofList (collapseBlanks false closed.toList)

/-- A page that is found; its score has a place in the order. -/
structure DocSearchHit where
  pageId : String
  title : String
  category : String
  score : PyFloat
  excerpt : String
  atLeastOne : AtLeastOne score

theorem atLeastOne_of_kept {fields : PageFields} {terms : List String}
    (h : ¬PyFloat.le (score fields terms) (.finite 0) = true) :
    AtLeastOne (score fields terms) := by
  rcases amount_score fields terms with ⟨-, hone⟩ | ⟨-, hzero⟩
  · exact hone
  · rw [hzero] at h
    exact absurd (by simp [PyFloat.le, PyFloat.eq]) h

def hitOf (page : DocPage) (fields : PageFields) (terms : List String) : Option DocSearchHit :=
  if h : PyFloat.le (score fields terms) (.finite 0) = true then none
  else some
    { pageId := page.id
      title := page.title
      category := page.category
      score := score fields terms
      excerpt := excerpt rt page terms
      atLeastOne := atLeastOne_of_kept h }

theorem hitOf_isSome (page : DocPage) (fields : PageFields) (terms : List String) :
    (hitOf rt page fields terms).isSome = true ↔ ∃ t ∈ terms, t ∈ fields.all := by
  unfold hitOf
  rcases amount_score fields terms with ⟨hpresent, hone⟩ | ⟨habsent, hzero⟩
  · have hkept : ¬PyFloat.le (score fields terms) (.finite 0) = true := by
      revert hone
      cases score fields terms with
      | nan => exact False.elim
      | finite q =>
        intro hq
        have hpos : (0 : ℚ) < q := zero_lt_one.trans_le hq
        simp [PyFloat.le, PyFloat.lt, PyFloat.eq, hpos.le, hpos.ne']
      | inf negative =>
        intro hinf
        simp only [AtLeastOne] at hinf
        simp [PyFloat.le, PyFloat.lt, PyFloat.eq, hinf]
    rw [dif_neg hkept]
    exact iff_of_true rfl hpresent
  · rw [dif_pos (by rw [hzero]; simp [PyFloat.le, PyFloat.eq])]
    exact iff_of_false (by simp) habsent

/-- `key=lambda h: (-h.score, h.title.lower())`: the better score first, and the titles decide
    between equal ones. -/
def before (a b : DocSearchHit) : Prop :=
  PyFloat.lt b.score a.score = true ∨ a.score = b.score ∧ rt.lower a.title ≤ rt.lower b.title

instance : DecidableRel (before rt) := fun a b =>
  inferInstanceAs (Decidable (PyFloat.lt b.score a.score = true ∨
    a.score = b.score ∧ rt.lower a.title ≤ rt.lower b.title))

theorem before_iff (a b : DocSearchHit) : before rt a b ↔ rank b.score < rank a.score ∨
    rank a.score = rank b.score ∧ rt.lower a.title ≤ rt.lower b.title := by
  rw [before, b.atLeastOne.lt_iff a.atLeastOne, a.atLeastOne.eq_iff b.atLeastOne]

instance : IsTrans DocSearchHit (before rt) where
  trans a b c hab hbc := by
    rw [before_iff] at *
    rcases hab with hab | ⟨hab, htitle⟩
    · rcases hbc with hbc | ⟨hbc, -⟩
      · exact .inl (hbc.trans hab)
      · exact .inl (hbc ▸ hab)
    · rcases hbc with hbc | ⟨hbc, htitle'⟩
      · exact .inl (hab ▸ hbc)
      · exact .inr ⟨hab.trans hbc, htitle.trans htitle'⟩

instance : Std.Total (before rt) where
  total a b := by
    rw [before_iff, before_iff]
    rcases lt_trichotomy (rank a.score) (rank b.score) with hlt | heq | hgt
    · exact .inr (.inl hlt)
    · rcases le_total (rt.lower a.title) (rt.lower b.title) with hle | hle
      · exact .inl (.inr ⟨heq, hle⟩)
      · exact .inr (.inr ⟨heq.symm, hle⟩)
    · exact .inl (.inl hgt)

/-! ### The service -/

/-- `{p.id: p for p in pages}`. -/
def pagesById (pages : List DocPage) (id : String) : Option DocPage :=
  pages.reverse.find? fun page => page.id = id

structure DocumentationService where
  pages : String → Option DocPage
  search : Index String String PageFields

/-- Before the first load. -/
def DocumentationService.fresh : DocumentationService := ⟨fun _ => none, .empty⟩

/-- `SearchIndex.rebuild`. -/
def rebuild (index : Index String String PageFields) (pages : List DocPage) :
    Index String String PageFields :=
  (pages.map fun page => (page.id, fieldsOf rt page)).foldl (Index.add PageFields.all)
    { index with docs := fun _ => none, postings := fun _ => [] }

/-- `reload`, with the pages that the loader returned. -/
def reload (service : DocumentationService) (pages : List DocPage) : DocumentationService where
  pages := pagesById pages
  search := rebuild rt service.search pages

/-- What becomes of a candidate. -/
def answer (service : DocumentationService) (terms : List String) (pageId : String) :
    Option DocSearchHit :=
  match service.search.docs pageId, service.pages pageId with
  | some fields, some page => hitOf rt page fields terms
  | _, _ => none

/-- `SearchIndex.search`. -/
def search (service : DocumentationService) (query : String) (limit : Nat) : List DocSearchHit :=
  let terms := tokenize rt query
  if terms = [] then []
  else
    let candidates := service.search.candidates terms
    if candidates = [] then []
    else (((rt.iterate candidates).filterMap (answer rt service terms)).insertionSort
      (before rt)).take limit

/-! ### What is found -/

/-- The pages that can be opened: of those with one id the last. -/
def openable (pages : List DocPage) : List DocPage :=
  (pages.map (·.id)).dedup.filterMap (pagesById pages)

theorem docs_rebuild (index : Index String String PageFields) (pages : List DocPage) (id : String) :
    (rebuild rt index pages).docs id = (pagesById pages id).map (fieldsOf rt) := by
  have hbuild := Index.docs_build PageFields.all
    (pages.map fun page => (page.id, fieldsOf rt page)) id
  rw [show rebuild rt index pages = Index.build PageFields.all
    (pages.map fun page => (page.id, fieldsOf rt page)) from rfl, hbuild, pagesById,
    ← List.map_reverse, List.find?_map, Option.map_map]
  rfl

theorem answer_reload (service : DocumentationService) (pages : List DocPage)
    (terms : List String) (id : String) :
    answer rt (reload rt service pages) terms id =
      (pagesById pages id).bind fun page => hitOf rt page (fieldsOf rt page) terms := by
  unfold answer reload
  simp only [docs_rebuild]
  cases pagesById pages id <;> rfl

theorem pagesById_some {pages : List DocPage} {id : String} {page : DocPage}
    (h : pagesById pages id = some page) : page ∈ pages ∧ page.id = id := by
  refine ⟨List.mem_reverse.mp (List.mem_of_find?_eq_some h), ?_⟩
  simpa using List.find?_some h

theorem search_eq (service : DocumentationService) (query : String) (limit : Nat) :
    search rt service query limit =
      (((rt.iterate (service.search.candidates (tokenize rt query))).filterMap
        (answer rt service (tokenize rt query))).insertionSort (before rt)).take limit := by
  have hnone : rt.iterate [] = [] := (rt.iterate_perm []).eq_nil
  unfold search
  dsimp only
  split
  · rename_i hterms
    simp [hterms, Index.candidates, hnone]
  · split
    · rename_i hcandidates
      simp [hcandidates, hnone]
    · rfl

/-- After any loads, what a query finds is the beginning of an ordering of the pages of the last
    load that have one of its terms. -/
theorem search_finds_all (loads : List (List DocPage)) (pages : List DocPage) (query : String)
    (limit : Nat) :
    (∃ ranked : List DocSearchHit,
      ranked.Perm ((openable pages).filterMap fun page =>
        hitOf rt page (fieldsOf rt page) (tokenize rt query)) ∧
      ranked.Pairwise (before rt) ∧
      search rt ((loads ++ [pages]).foldl (reload rt) .fresh) query limit = ranked.take limit) ∧
    ∀ page, (hitOf rt page (fieldsOf rt page) (tokenize rt query)).isSome = true ↔
      ∃ t ∈ tokenize rt query, t ∈ (fieldsOf rt page).all := by
  refine ⟨?_, fun page => hitOf_isSome rt page _ _⟩
  rw [List.foldl_append, List.foldl_cons, List.foldl_nil]
  generalize loads.foldl (reload rt) .fresh = service
  generalize hterms : tokenize rt query = terms
  have hcovers : (reload rt service pages).search.Covers PageFields.all :=
    Index.covers_build (pages.map fun page => (page.id, fieldsOf rt page))
  have hanswer : ∀ id, answer rt (reload rt service pages) terms id ≠ none →
      ∃ fields, (reload rt service pages).search.docs id = some fields ∧
        ∃ t ∈ terms, t ∈ fields.all := by
    intro id hid
    rw [answer_reload] at hid
    cases hpage : pagesById pages id with
    | none => simp [hpage] at hid
    | some page =>
      rw [hpage, Option.bind_some] at hid
      refine ⟨fieldsOf rt page, by simp [reload, docs_rebuild, hpage], ?_⟩
      exact (hitOf_isSome rt page _ terms).mp (Option.isSome_iff_ne_none.mpr hid)
  have hscan : ((pages.map (·.id)).dedup.filterMap (answer rt (reload rt service pages) terms)) =
      (openable pages).filterMap fun page => hitOf rt page (fieldsOf rt page) terms := by
    rw [openable, List.filterMap_filterMap]
    exact List.filterMap_congr fun id _ => answer_reload rt service pages terms id
  have hperm : ∀ looked : List String,
      looked.Perm ((reload rt service pages).search.candidates terms) →
      (looked.filterMap (answer rt (reload rt service pages) terms)).Perm
        ((openable pages).filterMap fun page => hitOf rt page (fieldsOf rt page) terms) := by
    intro looked hlooked
    rw [← hscan]
    apply filterMap_candidates hcovers hlooked (List.nodup_dedup _) _ hanswer
    intro id fields hfields
    simp only [reload, docs_rebuild, Option.map_eq_some_iff] at hfields
    obtain ⟨page, hpage, -⟩ := hfields
    obtain ⟨hmem, rfl⟩ := pagesById_some hpage
    exact List.mem_dedup.mpr (List.mem_map_of_mem hmem)
  have hlooked := rt.iterate_perm ((reload rt service pages).search.candidates terms)
  refine ⟨_, (List.perm_insertionSort (before rt) _).trans (hperm _ hlooked),
    List.pairwise_insertionSort (before rt) _, ?_⟩
  rw [search_eq, hterms]

end Runtime

/-- Texts in small letters, and sets that are gone through as their members came. -/
def insertionOrder : SearchRuntime := ⟨id, id, fun _ => .rfl⟩

/-- A page that was replaced is not found by the terms it had. -/
example :
    let page := fun id title bodyHtml => DocPage.mk id title bodyHtml "general" [] ""
    let service := [[page "old" "cron" ""], [page "a" "guide" "<p>scan", page "b" "scan" ""]].foldl
      (reload insertionOrder) .fresh
    (search insertionOrder service "scan" 10).map (·.pageId) = ["b", "a"] ∧
      search insertionOrder service "cron" 10 = [] := by
  decide +kernel

end DocSearch
