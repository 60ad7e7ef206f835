/-
  Auditarr/AiBatch.lean
  =====================
  **One answer of a provider as a batch** (`app/services/ai/suggestions.py`,
  `_extract_proposals` and the loop of `generate`).

  The session does not flush by itself, so a proposal is looked up among the stored suggestions
  alone, and all rows are inserted by the one commit at the end.  What the database refuses then
  is refused for the whole batch.
-/
import Auditarr.AiSuggestions

namespace AiBatch

open KeyedTable PyValues RuleSchema RuleDocument AiSuggestions

/-! ### From the text to the proposals -/

/-- How `json.loads` ends: `JSONDecodeError` is caught, and nothing else. -/
inductive Loaded where
  | value (v : PyValue)
  | decodeError
  | raised (e : PyError)

/-- The text from a `[` to the first `]` that blanks and three backquotes follow. -/
def fencedArray : List Char → Option (List Char)
  | [] => none
  | ']' :: cs =>
      if ['`', '`', '`'] <+: cs.dropWhile isSpace then some [']']
      else (fencedArray cs).map (']' :: ·)
  | c :: cs => (fencedArray cs).map (c :: ·)

/-- A fence that opens here, and the array in it. -/
def fenceAt (text : List Char) : Option (List Char) :=
  if ['`', '`', '`'] <+: text then
    let rest := text.drop 3
    let rest := if ['j', 's', 'o', 'n'] <+: rest then rest.drop 4 else rest
    match rest.dropWhile isSpace with
    | '[' :: cs => (fencedArray cs).map ('[' :: ·)
    | _ => none
  else none

/-- The first fenced array of a text. -/
def fenceMatch : List Char → Option (List Char)
  | [] => none
  | c :: cs => (fenceAt (c :: cs)).or (fenceMatch cs)

/-- From the first `[` to the last `]`, unless the text begins with `[`. -/
def bracketed (text : List Char) : List Char :=
  if text.head? = some '[' then text
  else
    let tail := text.dropWhile (· ≠ '[')
    let inner := (tail.reverse.dropWhile (· ≠ ']')).reverse
    if 1 < inner.length then inner else text

/-- The text that is parsed. -/
def arrayText (text : String) : String :=
  let stripped := (strip text).toList
  String.ofList (bracketed ((fenceMatch stripped).getD stripped))

/-- The objects of an array. -/
def objectsOf : PyValue → List Entries
  | .list items => items.filterMap fun
      | .dict entries => some entries
      | _ => none
  | _ => []

/-- `_extract_proposals`. -/
def extractProposals (loads : String → Loaded) (text : String) : Except PyError (List Entries) :=
  if text = "" then .ok []
  else match loads (arrayText text) with
    | .value v => .ok (objectsOf v)
    | .decodeError => .ok []
    | .raised e => .error e

/-! ### The loop and the commit -/

/-- The library functions and the database of a call. -/
structure BatchEnv extends AiEnv where
  loads : String → Loaded
  /-- The driver can send the text. -/
  encodable : String → Bool

/-- What ends a call after the provider has answered. -/
inductive Failure where
  | python (e : PyError)
  | encoding
  | dataError
  | integrityError
deriving DecidableEq

section Loop

variable (env : BatchEnv) (call : ChatCall) (store : SuggestionStore)

/-- The rule of a proposal that is valid and deletes nothing. -/
def accepted (proposal : Entries) : Option PyValue :=
  (modelValidate env.py env.rt (definitionOf proposal)).bind fun parsed =>
    if containsDeleteAction env.toAiEnv (modelDump parsed) then none else some (modelDump parsed)

def nameOf (proposal : Entries) : String := textOr env.toAiEnv proposal "name" "AI suggestion"

/-- The key that an accepted proposal is looked up by. -/
def keyOf? (proposal : Entries) : Option String :=
  (accepted env proposal).map (dedupKeyForAi env.toAiEnv call.providerKind (nameOf env proposal))

/-- The key of an accepted proposal that is not stored. -/
def freshKey? (proposal : Entries) : Option String :=
  (keyOf? env call proposal).filter (· ∉ store.suggestions.rows.map RuleSuggestion.dedupKey)

/-- One turn of the loop. -/
def consider (progress : Progress) (proposal : Entries) : Except Failure Progress :=
  if (keyOf? env call proposal).any (!env.encodable ·) then .error .encoding
  else .ok (considerProposal env.toAiEnv call store progress proposal)

/-- The texts of a row fit their columns. -/
def fits (row : RuleSuggestion) : Bool :=
  row.name.length ≤ 256 && row.heuristic.length ≤ 64 && row.dedupKey.length ≤ 256 &&
    env.encodable row.name && env.encodable row.heuristic

/-- The commit: every row is inserted, or none is. -/
def insertBatch (added : List RuleSuggestion) : Except Failure SuggestionStore :=
  if added.all (fits env) then match insertSuggestions store added with
    | .ok store => .ok store
    | .error _ => .error .integrityError
  else .error .dataError

/-- `generate` from the text of the provider's answer on. -/
def generateFrom (text : String) : Except Failure (SuggestionStore × AISuggestResult) :=
  match extractProposals env.loads text with
  | .error e => .error (.python e)
  | .ok proposals => do
      let progress ← proposals.foldlM (consider env call store) ⟨[], 0⟩
      let store ← insertBatch env store progress.added
      return (store, ⟨progress.added.length, proposals.length, progress.rejected, call.providerKind,
        call.integrationId⟩)

/-! ### The promise -/

/-- What is stored for the proposals of an answer, and how they are counted. -/
structure Stored (proposals : List Entries) (store' : SuggestionStore) (result : AISuggestResult)
    (added : List RuleSuggestion) : Prop where
  rows : store'.suggestions.rows = store.suggestions.rows ++ added
  once : (added.map RuleSuggestion.dedupKey).Nodup
  keys : ∀ key, key ∈ added.map RuleSuggestion.dedupKey ↔
    ∃ proposal ∈ proposals, freshKey? env call store proposal = some key
  source : ∀ row ∈ added, row.status = .pending ∧ ∃ proposal ∈ proposals,
    freshKey? env call store proposal = some row.dedupKey ∧ row.name = nameOf env proposal ∧
      accepted env proposal = some row.definition
  created : result.suggestionsCreated = added.length
  received : result.candidatesReceived = proposals.length
  counted : result.suggestionsCreated + result.candidatesRejected = result.candidatesReceived

/-- The call returns, with one pending suggestion for each key that is new. -/
def Delivers (text : String) : Prop :=
  ∃ proposals store' result added, extractProposals env.loads text = .ok proposals ∧
    generateFrom env call store text = .ok (store', result) ∧
      Stored env call store proposals store' result added

/-- No two new proposals have one key, and their rows fit. -/
structure Storable (proposals : List Entries) : Prop where
  distinct : (proposals.filterMap (freshKey? env call store)).Nodup
  keys : ∀ proposal ∈ proposals, ∀ key, keyOf? env call proposal = some key →
    env.encodable key = true
  fits : ∀ proposal ∈ proposals, ∀ key, freshKey? env call store proposal = some key →
    (nameOf env proposal).length ≤ 256 ∧ ("ai_" ++ call.providerKind).length ≤ 64 ∧
      key.length ≤ 256 ∧ env.encodable (nameOf env proposal) = true ∧
        env.encodable ("ai_" ++ call.providerKind) = true

end Loop

/-! ### The loop -/

section Run

variable {env : BatchEnv} {call : ChatCall} {store : SuggestionStore}

theorem considerProposal_cases (env : BatchEnv) (call : ChatCall) (store : SuggestionStore)
    (progress : Progress) (proposal : Entries) :
    (freshKey? env call store proposal = none ∧
      considerProposal env.toAiEnv call store progress proposal = progress.reject) ∨
    ∃ definition, accepted env proposal = some definition ∧
      freshKey? env call store proposal = some (newSuggestion env.toAiEnv call progress.added.length
        proposal definition).dedupKey ∧
      considerProposal env.toAiEnv call store progress proposal =
        { progress with added := progress.added ++ [newSuggestion env.toAiEnv call
            progress.added.length proposal definition] } := by
  cases hvalid : modelValidate env.py env.rt (definitionOf proposal) with
  | none =>
    left
    simp [considerProposal, freshKey?, keyOf?, accepted, hvalid]
  | some parsed =>
    by_cases hdelete : containsDeleteAction env.toAiEnv (modelDump parsed) = true
    · left
      simp [considerProposal, freshKey?, keyOf?, accepted, hvalid, hdelete]
    · have haccepted : accepted env proposal = some (modelDump parsed) := by
        simp [accepted, hvalid, hdelete]
      have hkey : keyOf? env call proposal = some (newSuggestion env.toAiEnv call
          progress.added.length proposal (modelDump parsed)).dedupKey := by
        rw [keyOf?, haccepted]
        rfl
      by_cases hstored : (newSuggestion env.toAiEnv call progress.added.length proposal
          (modelDump parsed)).dedupKey ∈ store.suggestions.rows.map RuleSuggestion.dedupKey
      · left
        constructor
        · rw [freshKey?, hkey, Option.filter_some, decide_eq_false (not_not.mpr hstored)]
          rfl
        · simp only [considerProposal, hvalid, if_neg hdelete, if_pos hstored]
      · right
        refine ⟨modelDump parsed, haccepted, ?_, ?_⟩
        · rw [freshKey?, hkey, Option.filter_some, decide_eq_true hstored]
          rfl
        · simp only [considerProposal, hvalid, if_neg hdelete, if_neg hstored]

/-- How far the loop has come with the proposals so far. -/
structure Looped (env : BatchEnv) (call : ChatCall) (store : SuggestionStore) (done : List Entries)
    (progress : Progress) : Prop where
  keys : progress.added.map RuleSuggestion.dedupKey = done.filterMap (freshKey? env call store)
  ids : progress.added.map RuleSuggestion.id = (List.range progress.added.length).map env.newId
  counted : progress.added.length + progress.rejected = done.length
  source : ∀ row ∈ progress.added, row.status = .pending ∧ row.heuristic = "ai_" ++ call.providerKind ∧
    ∃ proposal ∈ done, freshKey? env call store proposal = some row.dedupKey ∧
      row.name = nameOf env proposal ∧ accepted env proposal = some row.definition
  covers : ∀ proposal ∈ done, ∀ key, freshKey? env call store proposal = some key →
    ∃ row ∈ progress.added, row.dedupKey = key ∧ row.name = nameOf env proposal

theorem looped_nil : Looped env call store [] ⟨[], 0⟩ where
  keys := rfl
  ids := rfl
  counted := rfl
  source := fun _ h => absurd h List.not_mem_nil
  covers := fun _ h => absurd h List.not_mem_nil

theorem Looped.step {done : List Entries} {progress : Progress}
    (h : Looped env call store done progress) (proposal : Entries) :
    Looped env call store (done ++ [proposal])
      (considerProposal env.toAiEnv call store progress proposal) := by
  rcases considerProposal_cases env call store progress proposal with
    ⟨hkey, hnext⟩ | ⟨definition, haccepted, hkey, hnext⟩
  · rw [hnext]
    refine ⟨?_, h.ids, ?_, fun row hrow => ?_, fun proposal' hproposal key hkey' => ?_⟩
    · rw [List.filterMap_append, ← h.keys]
      simp [hkey, Progress.reject]
    · have hcounted := h.counted
      simp only [Progress.reject, List.length_append, List.length_singleton]
      omega
    · obtain ⟨hpending, hheuristic, source, hsource, hrest⟩ := h.source row hrow
      exact ⟨hpending, hheuristic, source, List.mem_append_left _ hsource, hrest⟩
    · rcases List.mem_append.mp hproposal with hold | hnew
      · exact h.covers proposal' hold key hkey'
      · rw [List.mem_singleton.mp hnew, hkey] at hkey'
        cases hkey'
  · rw [hnext]
    refine ⟨?_, ?_, ?_, fun row hrow => ?_, fun proposal' hproposal key hkey' => ?_⟩
    · rw [List.filterMap_append, ← h.keys, List.map_append]
      simp [hkey]
    · rw [List.map_append, h.ids, List.length_append, List.length_singleton, List.range_succ,
        List.map_append]
      rfl
    · have hcounted := h.counted
      simp only [List.length_append, List.length_singleton]
      omega
    · rcases List.mem_append.mp hrow with hold | hnew
      · obtain ⟨hpending, hheuristic, source, hsource, hrest⟩ := h.source row hold
        exact ⟨hpending, hheuristic, source, List.mem_append_left _ hsource, hrest⟩
      · rw [List.mem_singleton.mp hnew]
        exact ⟨rfl, rfl, proposal, by simp, hkey, rfl, haccepted⟩
    · rcases List.mem_append.mp hproposal with hold | hnew
      · obtain ⟨row, hrow, hrest⟩ := h.covers proposal' hold key hkey'
        exact ⟨row, List.mem_append_left _ hrow, hrest⟩
      · rw [List.mem_singleton.mp hnew] at hkey' ⊢
        cases hkey.symm.trans hkey'
        exact ⟨_, List.mem_append_right _ (List.mem_singleton_self _), rfl, rfl⟩

theorem looped_foldl (env : BatchEnv) (call : ChatCall) (store : SuggestionStore)
    (proposals : List Entries) : Looped env call store proposals
    (proposals.foldl (considerProposal env.toAiEnv call store) ⟨[], 0⟩) := by
  induction proposals using List.reverseRecOn with
  | nil => exact looped_nil
  | append_singleton done proposal ih =>
    rw [List.foldl_append]
    exact ih.step proposal

theorem foldlM_consider {proposals : List Entries} {start progress : Progress} :
    proposals.foldlM (consider env call store) start = .ok progress ↔
      (∀ proposal ∈ proposals, ∀ key, keyOf? env call proposal = some key →
        env.encodable key = true) ∧
        progress = proposals.foldl (considerProposal env.toAiEnv call store) start := by
  induction proposals generalizing start with
  | nil =>
    rw [List.foldlM_nil]
    constructor
    · intro h
      cases h
      exact ⟨fun _ h => absurd h List.not_mem_nil, rfl⟩
    · rintro ⟨-, rfl⟩
      rfl
  | cons proposal rest ih =>
    rw [List.foldlM_cons, bind_eq_ok, List.foldl_cons, List.forall_mem_cons]
    have hstep : (∀ key, keyOf? env call proposal = some key → env.encodable key = true) →
        consider env call store start proposal =
          .ok (considerProposal env.toAiEnv call store start proposal) := by
      intro hkey
      rw [consider, if_neg]
      intro hany
      obtain ⟨key, hsome, hnot⟩ := (Option.any_eq_true _ _).mp hany
      rw [hkey key hsome] at hnot
      cases hnot
    constructor
    · rintro ⟨next, hnext, hrest⟩
      have hkey : ∀ key, keyOf? env call proposal = some key → env.encodable key = true := by
        intro key hsome
        by_contra hnot
        rw [consider, hsome, if_pos (by simpa using hnot)] at hnext
        cases hnext
      rw [hstep hkey] at hnext
      cases hnext
      obtain ⟨hkeys, rfl⟩ := ih.mp hrest
      exact ⟨⟨hkey, hkeys⟩, rfl⟩
    · rintro ⟨⟨hkey, hkeys⟩, rfl⟩
      exact ⟨_, hstep hkey, ih.mpr ⟨hkeys, rfl⟩⟩

/-! ### The commit -/

theorem insertBatch_eq_ok {added : List RuleSuggestion}
    (hids : ((store.suggestions.rows ++ added).map RuleSuggestion.id).Nodup)
    (hnew : ∀ row ∈ added, row.dedupKey ∉ store.suggestions.rows.map RuleSuggestion.dedupKey) :
    (∃ store', insertBatch env store added = .ok store') ↔
      (∀ row ∈ added, fits env row = true) ∧ (added.map RuleSuggestion.dedupKey).Nodup := by
  have hkeys : ((store.suggestions.rows ++ added).map RuleSuggestion.dedupKey).Nodup ↔
      (added.map RuleSuggestion.dedupKey).Nodup := by
    rw [List.map_append, List.nodup_append']
    constructor
    · exact fun h => h.2.1
    · intro h
      refine ⟨store.dedup_unique, h, fun key hstored hadded => ?_⟩
      obtain ⟨row, hrow, rfl⟩ := List.mem_map.mp hadded
      exact hnew row hrow hstored
  have hinsert : (∃ store', insertSuggestions store added = .ok store') ↔
      (added.map RuleSuggestion.dedupKey).Nodup := by
    rw [insertSuggestions, ← hkeys]
    split
    · rename_i hunique
      exact iff_of_true ⟨_, rfl⟩ hunique.2
    · rename_i hnot
      refine iff_of_false ?_ fun hunique => hnot ⟨hids, hunique⟩
      rintro ⟨store', h⟩
      cases h
  rw [insertBatch, ← List.all_eq_true, ← hinsert]
  split
  · rename_i hfits
    cases insertSuggestions store added with
    | ok store' => simp [hfits]
    | error e => simp
  · rename_i hnot
    simp [hnot]

theorem insertBatch_rows {added : List RuleSuggestion} {store' : SuggestionStore}
    (h : insertBatch env store added = .ok store') :
    store'.suggestions.rows = store.suggestions.rows ++ added := by
  rw [insertBatch] at h
  split at h
  · cases hinsert : insertSuggestions store added with
    | ok inserted =>
      rw [hinsert] at h
      cases h
      exact insertSuggestions_rows hinsert
    | error e => simp [hinsert] at h
  · cases h

/-! ### The law -/

theorem Looped.nodup_ids {done : List Entries} {progress : Progress}
    (h : Looped env call store done progress) (hids : Function.Injective env.newId)
    (hfresh : ∀ n, env.newId n ∉ store.suggestions.rows.map RuleSuggestion.id) :
    ((store.suggestions.rows ++ progress.added).map RuleSuggestion.id).Nodup := by
  rw [List.map_append, h.ids, List.nodup_append']
  refine ⟨store.suggestions.unique, List.nodup_range.map hids, fun id hstored hnew => ?_⟩
  obtain ⟨n, -, rfl⟩ := List.mem_map.mp hnew
  exact hfresh n hstored

theorem not_mem_of_freshKey? {proposal : Entries} {key : String}
    (h : freshKey? env call store proposal = some key) :
    key ∉ store.suggestions.rows.map RuleSuggestion.dedupKey := by
  simpa using (Option.filter_eq_some_iff.mp h).2

theorem Looped.fits_iff {done : List Entries} {progress : Progress}
    (h : Looped env call store done progress) : (∀ row ∈ progress.added, fits env row = true) ↔
      ∀ proposal ∈ done, ∀ key, freshKey? env call store proposal = some key →
        (nameOf env proposal).length ≤ 256 ∧ ("ai_" ++ call.providerKind).length ≤ 64 ∧
          key.length ≤ 256 ∧ env.encodable (nameOf env proposal) = true ∧
            env.encodable ("ai_" ++ call.providerKind) = true := by
  have hfits : ∀ row : RuleSuggestion, fits env row = true ↔ row.name.length ≤ 256 ∧
      row.heuristic.length ≤ 64 ∧ row.dedupKey.length ≤ 256 ∧ env.encodable row.name = true ∧
        env.encodable row.heuristic = true := by
    intro row
    simp only [fits, Bool.and_eq_true, decide_eq_true_eq, and_assoc]
  simp only [hfits]
  constructor
  · intro hrows proposal hproposal key hkey
    obtain ⟨row, hrow, rfl, hname⟩ := h.covers proposal hproposal key hkey
    obtain ⟨-, hheuristic, -⟩ := h.source row hrow
    rw [← hname, ← hheuristic]
    exact hrows row hrow
  · intro hproposals row hrow
    obtain ⟨-, hheuristic, proposal, hproposal, hkey, hname, -⟩ := h.source row hrow
    rw [hname, hheuristic]
    exact hproposals proposal hproposal row.dedupKey hkey

/-- The progress when the loop has ended. -/
def looped (env : BatchEnv) (call : ChatCall) (store : SuggestionStore) (proposals : List Entries) :
    Progress := proposals.foldl (considerProposal env.toAiEnv call store) ⟨[], 0⟩

theorem generateFrom_eq_ok {text : String} {proposals : List Entries}
    (hextract : extractProposals env.loads text = .ok proposals)
    {returned : SuggestionStore × AISuggestResult} :
    generateFrom env call store text = .ok returned ↔
      (∀ proposal ∈ proposals, ∀ key, keyOf? env call proposal = some key →
        env.encodable key = true) ∧
        ∃ store', insertBatch env store (looped env call store proposals).added = .ok store' ∧
          returned = (store', ⟨(looped env call store proposals).added.length, proposals.length,
            (looped env call store proposals).rejected, call.providerKind, call.integrationId⟩) := by
  rw [generateFrom, hextract]
  simp only [bind_eq_ok, foldlM_consider]
  constructor
  · rintro ⟨progress, ⟨hkeys, rfl⟩, store', hinsert, hreturned⟩
    cases hreturned
    exact ⟨hkeys, store', hinsert, rfl⟩
  · rintro ⟨hkeys, store', hinsert, rfl⟩
    exact ⟨_, ⟨hkeys, rfl⟩, store', hinsert, rfl⟩

theorem stored_of_insert {proposals : List Entries} {store' : SuggestionStore}
    (hinsert : insertBatch env store (looped env call store proposals).added = .ok store')
    (hdistinct : ((looped env call store proposals).added.map RuleSuggestion.dedupKey).Nodup) :
    Stored env call store proposals store' ⟨(looped env call store proposals).added.length,
      proposals.length, (looped env call store proposals).rejected, call.providerKind,
      call.integrationId⟩ (looped env call store proposals).added := by
  have hlooped : Looped env call store proposals (looped env call store proposals) :=
    looped_foldl env call store proposals
  refine ⟨insertBatch_rows hinsert, hdistinct, fun key => ?_, fun row hrow => ?_, rfl, rfl,
    hlooped.counted⟩
  · rw [hlooped.keys, List.mem_filterMap]
  · obtain ⟨hpending, -, hsource⟩ := hlooped.source row hrow
    exact ⟨hpending, hsource⟩

/-- A call delivers iff the text is read, no two new proposals have one key, and their rows
    fit. -/
theorem delivers_iff (env : BatchEnv) (call : ChatCall) (store : SuggestionStore) (text : String)
    (hids : Function.Injective env.newId)
    (hfresh : ∀ n, env.newId n ∉ store.suggestions.rows.map RuleSuggestion.id) :
    Delivers env call store text ↔ ∃ proposals, extractProposals env.loads text = .ok proposals ∧
      Storable env call store proposals := by
  have hinserted : ∀ proposals,
      (∃ store', insertBatch env store (looped env call store proposals).added = .ok store') ↔
        (∀ row ∈ (looped env call store proposals).added, fits env row = true) ∧
          ((looped env call store proposals).added.map RuleSuggestion.dedupKey).Nodup := by
    intro proposals
    have hlooped := looped_foldl env call store proposals
    apply insertBatch_eq_ok (hlooped.nodup_ids hids hfresh)
    intro row hrow
    obtain ⟨-, -, proposal, -, hkey, -⟩ := hlooped.source row hrow
    exact not_mem_of_freshKey? hkey
  constructor
  · rintro ⟨proposals, store', result, added, hextract, hreturned, -⟩
    have hlooped := looped_foldl env call store proposals
    obtain ⟨hkeys, inserted, hinsert, -⟩ := (generateFrom_eq_ok hextract).mp hreturned
    obtain ⟨hfits, hdistinct⟩ := (hinserted proposals).mp ⟨inserted, hinsert⟩
    exact ⟨proposals, hextract, hlooped.keys ▸ hdistinct, hkeys, hlooped.fits_iff.mp hfits⟩
  · rintro ⟨proposals, hextract, hdistinct, hkeys, hfits⟩
    have hlooped : Looped env call store proposals (looped env call store proposals) :=
      looped_foldl env call store proposals
    rw [← hlooped.keys] at hdistinct
    obtain ⟨store', hinsert⟩ := (hinserted proposals).mpr ⟨hlooped.fits_iff.mpr hfits, hdistinct⟩
    exact ⟨proposals, store', _, _, hextract,
      (generateFrom_eq_ok hextract).mpr ⟨hkeys, store', hinsert, rfl⟩,
      stored_of_insert hinsert hdistinct⟩

end Run

/-! ### An answer that repeats itself -/

/-- A proposal as the provider writes it. -/
def proposalText (extension : String) : List Char :=
  ("\x7b\"name\": \"Old " ++ extension ++ "\", \"definition\": \x7b\"match\": \x7b\"field\": " ++
    "\"extension\", \"op\": \"eq\", \"value\": \"" ++ extension ++
      "\"\x7d, \"actions\": [\x7b\"type\": \"add_tag\", \"tag\": \"old\"\x7d]\x7d\x7d").toList

/-- It is for a rule on one extension. -/
def proposalOf (extension : String) : Entries :=
  ("name", .str ("Old " ++ extension)) :: tagProposal (.dict
    [("field", .str "extension"), ("op", .str "eq"), ("value", .str extension)])

/-- An array of proposals, with commas between them. -/
def answerText (extensions : List String) : List Char :=
  '[' :: [','].intercalate (extensions.map proposalText) ++ [']']

def answerOf (extensions : List String) : String := String.ofList (answerText extensions)

/-- What `json.loads` makes of it. -/
def loadedOf (extensions : List String) : Loaded :=
  .value (.list (extensions.map fun e => .dict (proposalOf e)))

/-- `json.loads` on two answers. -/
def loadAnswer (text : String) : Loaded :=
  if text = answerOf ["avi", "wmv"] then loadedOf ["avi", "wmv"]
  else if text = answerOf ["avi", "avi"] then loadedOf ["avi", "avi"]
  else .decodeError

def batchEnv : BatchEnv :=
  { plainEnv with
    newId := fun n => String.ofList (List.replicate n 'i')
    loads := loadAnswer
    encodable := fun _ => true }

theorem newId_injective : Function.Injective batchEnv.newId := by
  intro m n h
  have hlength := congrArg String.length h
  simpa [batchEnv] using hlength

theorem newId_fresh (n : Nat) :
    batchEnv.newId n ∉ noSuggestions.suggestions.rows.map RuleSuggestion.id := List.not_mem_nil

theorem fenceMatch_eq_none {text : List Char} (h : '`' ∉ text) : fenceMatch text = none := by
  induction text with
  | nil => rfl
  | cons c cs ih =>
    have hfence : ¬['`', '`', '`'] <+: c :: cs := by
      intro hfenced
      exact h (hfenced.subset (List.mem_cons_self ..))
    rw [fenceMatch, fenceAt, if_neg hfence, ih fun hmem => h (List.mem_cons_of_mem _ hmem)]
    rfl

theorem arrayText_array {inner : List Char} (h : '`' ∉ inner) :
    arrayText (String.ofList ('[' :: inner ++ [']'])) = String.ofList ('[' :: inner ++ [']']) := by
  have hopen : isSpace '[' = false := by decide
  have hclose : isSpace ']' = false := by decide
  have hstrip : strip (String.ofList ('[' :: inner ++ [']'])) =
      String.ofList ('[' :: inner ++ [']']) := by
    simp [strip, hopen, hclose]
  have hplain : '`' ∉ '[' :: inner ++ [']'] := by simp [h]
  simp only [arrayText, hstrip, String.toList_ofList, fenceMatch_eq_none hplain, Option.getD_none]
  rfl

theorem extract_answer (extensions : List String)
    (hplain : '`' ∉ [','].intercalate (extensions.map proposalText))
    (hloads : loadAnswer (answerOf extensions) = loadedOf extensions) :
    extractProposals batchEnv.loads (answerOf extensions) = .ok (extensions.map proposalOf) := by
  have hne : answerOf extensions ≠ "" := by
    intro h
    have hchars := congrArg String.toList h
    simp [answerOf, answerText] at hchars
  have htext : arrayText (answerOf extensions) = answerOf extensions := arrayText_array hplain
  have hobjects : objectsOf (.list (extensions.map fun e => .dict (proposalOf e))) =
      extensions.map proposalOf := by
    simp [objectsOf, List.filterMap_map]
  have hbatch : batchEnv.loads = loadAnswer := by
    simp only [batchEnv]
  rw [extractProposals, if_neg hne, htext, hbatch, hloads]
  exact congrArg Except.ok hobjects

theorem extract_two :
    extractProposals batchEnv.loads (answerOf ["avi", "wmv"]) =
      .ok (["avi", "wmv"].map proposalOf) :=
  extract_answer ["avi", "wmv"] (by decide +kernel) (if_pos rfl)

theorem extract_repeated :
    extractProposals batchEnv.loads (answerOf ["avi", "avi"]) =
      .ok (["avi", "avi"].map proposalOf) := by
  have hother : answerOf ["avi", "avi"] ≠ answerOf ["avi", "wmv"] := by
    rw [answerOf, answerOf, Ne, String.ofList_inj]
    decide +kernel
  exact extract_answer ["avi", "avi"] (by decide +kernel) ((if_neg hother).trans (if_pos rfl))

/-- Two proposals, of which both are stored. -/
theorem delivers_iff_two :
    Delivers batchEnv openai noSuggestions (answerOf ["avi", "wmv"]) := by
  apply (delivers_iff batchEnv openai noSuggestions _ newId_injective newId_fresh).mpr
  refine ⟨_, extract_two, ⟨?_, fun _ _ _ _ => rfl, ?_⟩⟩
  · decide +kernel
  · decide +kernel

/-- The same proposal twice in one answer: the commit refuses the batch. -/
theorem repeated_proposal_raises :
    ¬Delivers batchEnv openai noSuggestions (answerOf ["avi", "avi"]) := by
  rintro ⟨proposals, store', result, added, hextract, hreturned, -⟩
  cases hextract.symm.trans extract_repeated
  obtain ⟨-, inserted, hinsert, -⟩ := (generateFrom_eq_ok hextract).mp hreturned
  have hrefused : (insertBatch batchEnv noSuggestions
      (looped batchEnv openai noSuggestions (["avi", "avi"].map proposalOf)).added).toOption =
        none := by
    rfl
  rw [hinsert] at hrefused
  cases hrefused

end AiBatch
