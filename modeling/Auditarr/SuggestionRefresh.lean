/-
  Auditarr/SuggestionRefresh.lean
  ===============================
  **What a pending suggestion shows** (`services/playback/analyzer.py`).

  A refresh sets the evidence and the counts of a row, and leaves its name and its rule as the
  run wrote them that made the row.  For four of the heuristics the key says what the rule is,
  so the row still shows what the candidate says.  The key of the files that failed has ten of
  their ids: other files may share it, and the same files may have other names by then.  And a
  run whose new suggestion does not fit its columns refreshes nothing.

  `shown_and_separate` says for which histories all goes well.
-/
import Auditarr.RuleSuggestions

namespace SuggestionRefresh

open KeyedTable PyValues PlaybackHeuristics PlaybackPoller RuleSuggestions
open PlaybackAnalyzer (PlaybackRow)

/-! ### What a run finds -/

/-- The rows of plays that a run hands to the heuristics. -/
def rowsOf : Step → List PlaybackRow
  | .analyze now records => (PlaybackAnalyzer.analyze now records).2.getD []
  | _ => []

/-- The plays among them that failed. -/
def failedOf (step : Step) : List PlaybackRow := (rowsOf step).filter isFailed

/-- The files that failed. -/
def filesOf (step : Step) : Finset String := (affectedFiles (failedOf step)).toFinset

/-- The ten smallest ids of the files that failed. -/
def tenSmallest (step : Step) : List String := keyIds (affectedFiles (failedOf step))

variable (env : Env)

def candidatesAt (step : Step) : List SuggestionCandidate := candidatesOf env.rt (rowsOf step)

/-- The run has a candidate for the files that failed. -/
def Reports (step : Step) (c : SuggestionCandidate) : Prop :=
  c ∈ candidatesAt env step ∧ c.heuristic = "failed_playback"

variable {env} {step step' : Step} {c c' : SuggestionCandidate} {now : Timestamp} {records : Tables}
  {t : Suggestions} {history : List Step}

theorem detected_eq : detected env now records = candidatesAt env (.analyze now records) := by
  simp only [detected, candidatesAt, rowsOf]
  cases (PlaybackAnalyzer.analyze now records).2 <;> rfl

theorem not_mem_candidatesAt (h : rowsOf step = []) : c ∉ candidatesAt env step := by
  rw [candidatesAt, h]
  simp [candidatesOf, highTranscodeCodec, bitrateCeiling, containerCompatibility,
    resolutionMismatch, failedPlayback, grouped, minFamilyPlays, minFailedPlays, Except.toOption]

theorem Reports.eq (h : Reports env step c) :
    ∃ filenames, failedFilenames (failedOf step) = .ok filenames ∧ affectedFiles (failedOf step) ≠ [] ∧
      c = failedCandidate (failedOf step) filenames := by
  obtain ⟨hmem, hheuristic⟩ := h
  cases mem_candidatesOf.mp hmem with
  | failures hcount hids hnames hnonempty => exact ⟨_, hnames, hids, rfl⟩
  | _ => simp at hheuristic

/-! ### The condition -/

/-- After a run, whether it commits or raises, the pending suggestions whose keys it detects
    show what its candidates say. -/
def Shown (env : Env) (t : Suggestions) : Step → Prop
  | .analyze now records => ∀ c ∈ detected env now records, ∀ row,
      (next env t (.analyze now records)).find? c.dedupKey = some row → row.status = .pending →
        row.name = c.name ∧ row.definition = c.definition ∧
          row.filesAffected = c.filesAffected ∧ row.evidence = c.evidence
  | _ => True

/-- Candidates for different sets of files that failed have different keys. -/
def SeparateKeys (env : Env) (history : List Step) : Prop :=
  ∀ step ∈ history, ∀ step' ∈ history, ∀ c c', Reports env step c → Reports env step' c' →
    filesOf step ≠ filesOf step' → c.dedupKey ≠ c'.dedupKey

/-- A run has a candidate with the key. -/
def Carries (env : Env) (step : Step) (key : String) : Prop :=
  ∃ c ∈ candidatesAt env step, c.dedupKey = key

/-- No earlier run had the key of the candidate. -/
def NewAfter (env : Env) (earlier : List Step) (c : SuggestionCandidate) : Prop :=
  ∀ step ∈ earlier, ¬Carries env step c.dedupKey

/-- The texts of the candidates whose keys are new fit their columns. -/
def FitsNew (env : Env) (history : List Step) : Prop :=
  ∀ before step after, history = before ++ step :: after → ∀ c ∈ candidatesAt env step,
    NewAfter env before c → env.enforcesLengths = false ∨ fitsColumns (newSuggestion c) = true

/-- The step dismisses the suggestion of a candidate, or makes its rule. -/
def TakesAway (env : Env) (c : SuggestionCandidate) : Step → Prop
  | .analyze _ _ => False
  | .dismiss _ key _ => key = c.dedupKey
  | .deploy _ key definition ruleId => key = c.dedupKey ∧ ruleId.isSome = true ∧
      (RuleDocument.modelValidate env.py env.rt.toPyRuntime
        ((definition.filter (·.truthy)).getD c.definition)).isSome = true

/-- The first fifty names of the files that failed, which a rule lists. -/
def listedNames (step : Step) : Except PyError (List String) :=
  (failedFilenames (failedOf step)).map (List.take 50)

/-- A run that reports failures with the ten smallest ids of an earlier run, the first with
    its key, finds the names that the earlier one found, unless the suggestion was dismissed or
    made a rule in between. -/
def SameNames (env : Env) (history : List Step) : Prop :=
  ∀ earlier step between step' after c c',
    history = earlier ++ step :: (between ++ step' :: after) →
    Reports env step c → Reports env step' c' → NewAfter env earlier c →
    tenSmallest step = tenSmallest step' → (∀ s ∈ between, ¬TakesAway env c s) →
      listedNames step = listedNames step'

/-- Runs that report different sets of files differ in the ten smallest ids. -/
def TenApart (env : Env) (history : List Step) : Prop :=
  ∀ step ∈ history, ∀ step' ∈ history, (∃ c, Reports env step c) → (∃ c, Reports env step' c) →
    filesOf step ≠ filesOf step' → tenSmallest step ≠ tenSmallest step'

/-- The ids of files have no commas, as those of `uuid4`. -/
def PlainIds (step : Step) : Prop := ∀ id ∈ filesOf step, ',' ∉ id.toList

/-! ### Keys of files that failed -/

theorem intercalate_injective {ids ids' : List String} (hids : ∀ id ∈ ids, ',' ∉ id.toList)
    (hids' : ∀ id ∈ ids', ',' ∉ id.toList) (hne : ids ≠ []) (hne' : ids' ≠ [])
    (h : ",".intercalate ids = ",".intercalate ids') : ids = ids' := by
  have hsplit := String.toList_split_intercalate hids
  have hsplit' := String.toList_split_intercalate hids'
  rw [if_neg hne] at hsplit
  rw [if_neg hne'] at hsplit'
  rw [← hsplit, ← hsplit']
  exact congrArg (fun text : String => (text.split ',').toList.map (·.copy)) h

theorem mem_tenSmallest {id : String} (h : id ∈ tenSmallest step) : id ∈ filesOf step := by
  rw [tenSmallest, keyIds] at h
  rw [filesOf, List.mem_toFinset]
  exact (List.mem_insertionSort _).mp (List.mem_of_mem_take h)

theorem tenSmallest_ne_nil (h : affectedFiles (failedOf step) ≠ []) : tenSmallest step ≠ [] := by
  rw [tenSmallest, keyIds]
  intro hnil
  have hlength := congrArg List.length hnil
  rw [List.length_take, List.length_insertionSort, List.length_nil] at hlength
  have hpos := List.length_pos_iff.mpr h
  omega

theorem Reports.dedupKey (h : Reports env step c) :
    c.dedupKey = failedKey (affectedFiles (failedOf step)) := by
  obtain ⟨filenames, -, -, rfl⟩ := h.eq
  rfl

theorem Reports.key_eq_iff (h : Reports env step c) (h' : Reports env step' c')
    (hids : PlainIds step) (hids' : PlainIds step') :
    c.dedupKey = c'.dedupKey ↔ tenSmallest step = tenSmallest step' := by
  rw [h.dedupKey, h'.dedupKey, failedKey, failedKey, String.append_right_inj]
  obtain ⟨-, -, hne, -⟩ := h.eq
  obtain ⟨-, -, hne', -⟩ := h'.eq
  constructor
  · exact intercalate_injective (fun id hid => hids id (mem_tenSmallest hid))
      (fun id hid => hids' id (mem_tenSmallest hid)) (tenSmallest_ne_nil hne)
      (tenSmallest_ne_nil hne')
  · exact congrArg _

theorem separateKeys_iff (hplain : ∀ step ∈ history, PlainIds step) :
    SeparateKeys env history ↔ TenApart env history := by
  constructor
  · rintro h step hstep step' hstep' ⟨c, hc⟩ ⟨c', hc'⟩ hfiles hten
    exact h step hstep step' hstep' c c' hc hc' hfiles
      ((hc.key_eq_iff hc' (hplain step hstep) (hplain step' hstep')).mpr hten)
  · intro h step hstep step' hstep' c c' hc hc' hfiles hkey
    exact h step hstep step' hstep' ⟨c, hc⟩ ⟨c', hc'⟩ hfiles
      ((hc.key_eq_iff hc' (hplain step hstep) (hplain step' hstep')).mp hkey)

theorem Reports.name_eq (h : Reports env step c) (h' : Reports env step' c')
    (hfiles : filesOf step = filesOf step') : c.name = c'.name := by
  obtain ⟨filenames, -, -, rfl⟩ := h.eq
  obtain ⟨filenames', -, -, rfl⟩ := h'.eq
  have hcard := congrArg Finset.card hfiles
  have hlength : ∀ plays, (affectedFiles plays).toFinset.card = (affectedFiles plays).length :=
    fun plays => List.toFinset_card_of_nodup (List.nodup_dedup _)
  rw [filesOf, filesOf, hlength, hlength] at hcard
  exact congrArg failedName hcard

theorem Reports.definition_eq_iff (h : Reports env step c) (h' : Reports env step' c') :
    c.definition = c'.definition ↔ listedNames step = listedNames step' := by
  obtain ⟨filenames, hnames, -, rfl⟩ := h.eq
  obtain ⟨filenames', hnames', -, rfl⟩ := h'.eq
  rw [listedNames, listedNames, hnames, hnames']
  simp only [failedCandidate, failedDefinition, flagRule, PyValue.ofStrings, Except.map,
    Except.ok.injEq]
  constructor
  · intro heq
    have hlists : (filenames.take 50).map PyValue.str = (filenames'.take 50).map .str := by
      simpa using heq
    exact List.map_injective_iff.mpr (fun _ _ hstr => PyValue.str.inj hstr) hlists
  · intro heq
    rw [heq]

/-! ### The row of a candidate -/

/-- The row that a candidate made, after some steps: it has the candidate's name and rule, and
    is pending as long as no step takes it away. -/
structure Follows (env : Env) (c : SuggestionCandidate) (later : List Step)
    (row : RuleSuggestion) : Prop where
  name : row.name = c.name
  definition : row.definition = c.definition
  pending : row.status = .pending ↔ ∀ step ∈ later, ¬TakesAway env c step

theorem Follows.goesOn {later : List Step} {row row' : RuleSuggestion} (h : Follows env c later row)
    (hname : row'.name = row.name) (hdefinition : row'.definition = row.definition)
    (hpending : row'.status = .pending ↔ row.status = .pending ∧ ¬TakesAway env c step) :
    Follows env c (later ++ [step]) row' where
  name := hname.trans h.name
  definition := hdefinition.trans h.definition
  pending := by
    rw [hpending, h.pending]
    simp only [List.forall_mem_append, List.forall_mem_singleton]

theorem Follows.unchanged {later : List Step} {row : RuleSuggestion} (h : Follows env c later row)
    (hnot : row.status = .pending → ¬TakesAway env c step) : Follows env c (later ++ [step]) row :=
  h.goesOn rfl rfl ⟨fun hpending => ⟨hpending, hnot hpending⟩, And.left⟩

theorem settled_columns (now : Timestamp) (c : SuggestionCandidate) (row : RuleSuggestion) :
    (settled now c (some row)).name = row.name ∧
      (settled now c (some row)).definition = row.definition ∧
      (settled now c (some row)).status = row.status := by
  rw [settled]
  split
  · exact ⟨rfl, rfl, rfl⟩
  · split
    · exact ⟨rfl, rfl, rfl⟩
    · exact ⟨rfl, rfl, rfl⟩

theorem find?_mark_same {f : RuleSuggestion → RuleSuggestion}
    (hkey : ∀ row, (f row).dedupKey = row.dedupKey) {row : RuleSuggestion}
    (hrow : t.find? c.dedupKey = some row) :
    (t.update (·.dedupKey = c.dedupKey) f hkey).find? c.dedupKey = some (f row) := by
  rw [Table.find?_update, hrow, Option.map_some, (Table.mem_of_find? hrow).2]
  simp

theorem find?_mark_other {key : String} (hother : key ≠ c.dedupKey)
    {f : RuleSuggestion → RuleSuggestion} (hkey : ∀ row, (f row).dedupKey = row.dedupKey)
    {row : RuleSuggestion} (hrow : t.find? c.dedupKey = some row) :
    (t.update (·.dedupKey = key) f hkey).find? c.dedupKey = some row := by
  rw [Table.find?_update, hrow, Option.map_some, (Table.mem_of_find? hrow).2]
  simp [Ne.symm hother]

theorem follows_analyze {later : List Step} {row : RuleSuggestion} (h : Follows env c later row)
    (hrow : t.find? c.dedupKey = some row) :
    ∃ row', (next env t (.analyze now records)).find? c.dedupKey = some row' ∧
      Follows env c (later ++ [.analyze now records]) row' := by
  cases hpersist : persist env now (detected env now records) t with
  | none =>
    simp only [next, hpersist]
    exact ⟨row, hrow, h.unchanged fun _ => id⟩
  | some p =>
    simp only [next, hpersist]
    obtain ⟨hdetected, hothers⟩ := persist_find? (nodup_detected env now records) hpersist
    by_cases hkey : ∃ c' ∈ detected env now records, c'.dedupKey = c.dedupKey
    · obtain ⟨c', hc', hsame⟩ := hkey
      have hafter := hdetected c' hc'
      rw [hsame, hrow] at hafter
      obtain ⟨hname, hdefinition, hstatus⟩ := settled_columns now c' row
      refine ⟨_, hafter, h.goesOn hname hdefinition ?_⟩
      rw [hstatus]
      exact ⟨fun hpending => ⟨hpending, id⟩, And.left⟩
    · have hafter := hothers c.dedupKey fun c' hc' hsame => hkey ⟨c', hc', hsame⟩
      exact ⟨row, hafter.trans hrow, h.unchanged fun _ => id⟩

theorem follows_dismiss {later : List Step} {row : RuleSuggestion} {key : String}
    {reason : Option String} (h : Follows env c later row) (hrow : t.find? c.dedupKey = some row) :
    ∃ row', (next env t (.dismiss now key reason)).find? c.dedupKey = some row' ∧
      Follows env c (later ++ [.dismiss now key reason]) row' := by
  by_cases hkey : key = c.dedupKey
  · subst hkey
    by_cases hdeployed : row.status = .deployed
    · refine ⟨row, ?_, h.unchanged fun hpending => ?_⟩
      · simp [next, dismissSuggestion, hrow, hdeployed, Except.toOption]
      · rw [hdeployed] at hpending
        cases hpending
    · refine ⟨markDismissed now reason row, ?_, h.goesOn rfl rfl ?_⟩
      · have hmark := find?_mark_same (dedupKey_markDismissed now reason) hrow
        simpa [next, dismissSuggestion, hrow, hdeployed, Except.toOption] using hmark
      · simp [markDismissed, TakesAway]
  · refine ⟨row, ?_, h.unchanged fun _ htakes => hkey htakes⟩
    unfold next dismissSuggestion
    simp only []
    split
    · exact hrow
    · split
      · exact hrow
      · exact find?_mark_other hkey (dedupKey_markDismissed now reason) hrow

theorem follows_deploy {later : List Step} {row : RuleSuggestion} {key : String}
    {definition : Option PyValue} {ruleId : Option String} (h : Follows env c later row)
    (hrow : t.find? c.dedupKey = some row) :
    ∃ row', (next env t (.deploy now key definition ruleId)).find? c.dedupKey = some row' ∧
      Follows env c (later ++ [.deploy now key definition ruleId]) row' := by
  by_cases hkey : key = c.dedupKey
  · subst hkey
    by_cases hpending : row.status = .pending
    · have htakes : TakesAway env c (.deploy now c.dedupKey definition ruleId) ↔
          ruleId.isSome = true ∧ (RuleDocument.modelValidate env.py env.rt.toPyRuntime
            ((definition.filter (·.truthy)).getD row.definition)).isSome = true := by
        rw [TakesAway, h.definition]
        simp only [true_and]
      cases hvalid : RuleDocument.modelValidate env.py env.rt.toPyRuntime
          ((definition.filter (·.truthy)).getD row.definition) with
      | none =>
        refine ⟨row, ?_, h.unchanged fun _ => ?_⟩
        · simp [next, deploySuggestion, hrow, hpending, hvalid, Except.toOption]
        · rw [htakes, hvalid]
          simp
      | some rule =>
        cases ruleId with
        | none =>
          refine ⟨row, ?_, h.unchanged fun _ => ?_⟩
          · simp [next, deploySuggestion, hrow, hpending, hvalid, Except.toOption]
          · rw [htakes]
            simp
        | some id =>
          refine ⟨markDeployed now id row, ?_, h.goesOn rfl rfl ?_⟩
          · have hmark := find?_mark_same (dedupKey_markDeployed now id) hrow
            simpa [next, deploySuggestion, hrow, hpending, hvalid, Except.toOption] using hmark
          · rw [htakes, hvalid]
            simp [markDeployed]
    · refine ⟨row, ?_, h.unchanged fun hp => absurd hp hpending⟩
      simp [next, deploySuggestion, hrow, hpending, Except.toOption]
  · refine ⟨row, ?_, h.unchanged fun _ htakes => hkey htakes.1⟩
    unfold next deploySuggestion
    simp only []
    split
    · exact hrow
    · split
      · exact hrow
      · split
        · exact hrow
        · exact hrow
        · next id _ => exact find?_mark_other hkey (dedupKey_markDeployed now id) hrow

theorem Follows.next {later : List Step} {row : RuleSuggestion} (h : Follows env c later row)
    (hrow : t.find? c.dedupKey = some row) (step : Step) :
    ∃ row', (RuleSuggestions.next env t step).find? c.dedupKey = some row' ∧
      Follows env c (later ++ [step]) row' := by
  cases step with
  | analyze now records => exact follows_analyze h hrow
  | dismiss now key reason => exact follows_dismiss h hrow
  | deploy now key definition ruleId => exact follows_deploy h hrow

/-! ### The rows of a history -/

/-- The rows are those of the keys that the runs had, and each follows the candidate that had
    its key first. -/
structure Kept (env : Env) (done : List Step) (t : Suggestions) : Prop where
  carried : ∀ row ∈ t, ∃ step ∈ done, Carries env step row.dedupKey
  first : ∀ earlier step later c, done = earlier ++ step :: later → c ∈ candidatesAt env step →
    NewAfter env earlier c → ∃ row, t.find? c.dedupKey = some row ∧ Follows env c later row

theorem exists_first {done : List Step} {key : String} (h : ∃ step ∈ done, Carries env step key) :
    ∃ earlier step later c, done = earlier ++ step :: later ∧ c ∈ candidatesAt env step ∧
      c.dedupKey = key ∧ NewAfter env earlier c := by
  classical
  obtain ⟨step, hstep, hcarries⟩ := h
  have hsome : (done.find? fun step => Carries env step key).isSome = true := by
    rw [List.find?_isSome]
    exact ⟨step, hstep, decide_eq_true hcarries⟩
  obtain ⟨first, hfirst⟩ := Option.isSome_iff_exists.mp hsome
  obtain ⟨hfound, earlier, later, hdone, hearlier⟩ := List.find?_eq_some_iff_append.mp hfirst
  obtain ⟨c, hc, hkey⟩ := decide_eq_true_eq.mp hfound
  refine ⟨earlier, first, later, c, hdone, hc, hkey, fun s hs hcarries => ?_⟩
  rw [hkey] at hcarries
  have hnot := hearlier s hs
  rw [decide_eq_true hcarries] at hnot
  cases hnot

section Kept

variable {done : List Step}

theorem Kept.find?_isSome (h : Kept env done t) {key : String}
    (hcarried : ∃ step ∈ done, Carries env step key) : (t.find? key).isSome = true := by
  obtain ⟨earlier, step, later, c, hdone, hc, rfl, hnew⟩ := exists_first hcarried
  obtain ⟨row, hrow, -⟩ := h.first earlier step later c hdone hc hnew
  rw [hrow]; rfl

theorem Kept.commits (h : Kept env done t) (hfits : FitsNew env (done ++ [.analyze now records])) :
    ∃ p, persist env now (detected env now records) t = some p := by
  refine Option.isSome_iff_exists.mp (persist_isSome now _ fun c hc => ?_)
  by_cases hcarried : ∃ step ∈ done, Carries env step c.dedupKey
  · exact .inl (h.find?_isSome hcarried)
  · refine .inr (hfits done _ [] rfl c (detected_eq ▸ hc) fun step hstep hcarries => ?_)
    exact hcarried ⟨step, hstep, hcarries⟩

theorem carried_next {row : RuleSuggestion} (hrow : row ∈ next env t step) :
    (∃ old ∈ t, old.dedupKey = row.dedupKey) ∨ Carries env step row.dedupKey := by
  cases step with
  | analyze now records =>
    unfold next at hrow
    simp only [] at hrow
    split at hrow
    · exact .inl ⟨row, hrow, rfl⟩
    · next p hpersist =>
      obtain ⟨-, hothers⟩ := persist_find? (nodup_detected env now records) hpersist
      by_cases hkey : ∃ c ∈ detected env now records, c.dedupKey = row.dedupKey
      · obtain ⟨c, hc, hsame⟩ := hkey
        exact .inr ⟨c, detected_eq ▸ hc, hsame⟩
      · have hfind := Table.find?_eq_some.mpr ⟨hrow, rfl⟩
        rw [hothers _ fun c hc heq => hkey ⟨c, hc, heq⟩] at hfind
        exact .inl ⟨row, (Table.mem_of_find? hfind).1, rfl⟩
  | dismiss now key reason =>
    unfold next dismissSuggestion at hrow
    simp only [] at hrow
    split at hrow
    · exact .inl ⟨row, hrow, rfl⟩
    · split at hrow
      · exact .inl ⟨row, hrow, rfl⟩
      · exact .inl (Table.key_mem_of_mem_update (dedupKey_markDismissed now reason) hrow)
  | deploy now key definition ruleId =>
    unfold next deploySuggestion at hrow
    simp only [] at hrow
    split at hrow
    · exact .inl ⟨row, hrow, rfl⟩
    · split at hrow
      · exact .inl ⟨row, hrow, rfl⟩
      · split at hrow
        · exact .inl ⟨row, hrow, rfl⟩
        · exact .inl ⟨row, hrow, rfl⟩
        · exact .inl (Table.key_mem_of_mem_update (dedupKey_markDeployed now _) hrow)

theorem Kept.next (h : Kept env done t) (hfits : FitsNew env (done ++ [step])) :
    Kept env (done ++ [step]) (RuleSuggestions.next env t step) where
  carried := by
    intro row hrow
    rcases carried_next hrow with ⟨old, hold, hkey⟩ | hcarries
    · obtain ⟨s, hs, hcarries⟩ := h.carried old hold
      exact ⟨s, List.mem_append_left _ hs, hkey ▸ hcarries⟩
    · exact ⟨step, List.mem_append_right _ (List.mem_singleton_self step), hcarries⟩
  first := by
    intro earlier s later c hdone hc hnew
    rcases List.eq_nil_or_concat later with rfl | ⟨later, last, rfl⟩
    · -- the candidate is new, and gets a row
      obtain ⟨rfl, hlast⟩ := List.append_inj' hdone rfl
      obtain rfl : step = s := by simpa using hlast
      cases step with
      | analyze now records =>
        obtain ⟨p, hpersist⟩ := h.commits hfits
        have hnone : t.find? c.dedupKey = none := by
          rw [Table.find?_eq_none]
          intro row hrow hkey
          obtain ⟨s, hs, hcarries⟩ := h.carried row hrow
          exact hnew s hs (hkey ▸ hcarries)
        have hfound := (persist_find? (nodup_detected env now records) hpersist).1 c
          (detected_eq ▸ hc)
        rw [hnone] at hfound
        refine ⟨newSuggestion c, ?_, rfl, rfl, ?_⟩
        · simp only [RuleSuggestions.next, hpersist]
          exact hfound
        · simp [newSuggestion]
      | dismiss now key reason => exact absurd hc (not_mem_candidatesAt rfl)
      | deploy now key definition ruleId => exact absurd hc (not_mem_candidatesAt rfl)
    · rw [List.concat_eq_append, ← List.cons_append, ← List.append_assoc] at hdone
      obtain ⟨rfl, hlast⟩ := List.append_inj' hdone rfl
      obtain rfl : step = last := by simpa using hlast
      obtain ⟨row, hrow, hfollows⟩ := h.first earlier s later c rfl hc hnew
      rw [List.concat_eq_append]
      exact hfollows.next hrow step

end Kept

theorem FitsNew.prefix {before after : List Step} (h : FitsNew env (before ++ after)) :
    FitsNew env before := by
  rintro earlier step later rfl
  exact h earlier step (later ++ after) (by simp)

theorem FitsNew.upTo {before after : List Step} (h : FitsNew env (before ++ step :: after)) :
    FitsNew env (before ++ [step]) := by
  rw [List.append_cons] at h
  exact h.prefix

theorem kept_final {history : List Step} (hfits : FitsNew env history) :
    Kept env history (Runs.final (next env) .empty history) := by
  refine Runs.final_history (next env) (P := fun done t => FitsNew env done → Kept env done t)
    (fun _ => ⟨fun row hrow => absurd hrow (Table.not_mem_empty row), ?_⟩)
    (fun done t step ih hfits => ?_) history hfits
  · rintro earlier step later c hnil
    cases earlier <;> cases hnil
  · exact (ih hfits.prefix).next hfits

/-! ### What a run shows -/

/-- A run that commits shows its candidates iff the pending rows that it refreshes have their
    names and rules. -/
theorem shown_iff {p : Persisting}
    (hpersist : persist env now (detected env now records) t = some p) :
    Shown env t (.analyze now records) ↔
      ∀ c ∈ detected env now records, ∀ row, t.find? c.dedupKey = some row →
        row.status = .pending → row.name = c.name ∧ row.definition = c.definition := by
  obtain ⟨hdetected, -⟩ := persist_find? (nodup_detected env now records) hpersist
  simp only [Shown, next, hpersist]
  refine forall₂_congr fun c hc => ?_
  rw [hdetected c hc]
  cases hfind : t.find? c.dedupKey with
  | none =>
    constructor
    · intro _ row hrow
      cases hrow
    · rintro - row hrow -
      cases Option.some.inj hrow
      exact ⟨rfl, rfl, rfl, rfl⟩
  | some row =>
    simp only [Option.some.injEq, forall_eq']
    obtain ⟨hname, hdefinition, hstatus⟩ := settled_columns now c row
    rw [hname, hdefinition, hstatus]
    constructor
    · intro hshown hpending
      exact ⟨(hshown hpending).1, (hshown hpending).2.1⟩
    · intro hrow hpending
      have hsettled : settled now c (some row) = refresh c row := by
        rw [settled, if_neg (by simp [hpending]), if_neg (by simp [hpending])]
      rw [hsettled]
      exact ⟨(hrow hpending).1, (hrow hpending).2, rfl, rfl⟩

theorem shown_of_sameNames {before after : List Step} (hkept : Kept env before t)
    (hsame : SameNames env (before ++ .analyze now records :: after))
    (hapart : TenApart env (before ++ .analyze now records :: after))
    (hplain : ∀ step ∈ before ++ .analyze now records :: after, PlainIds step)
    {row : RuleSuggestion} (hc : c ∈ candidatesAt env (.analyze now records))
    (hrow : t.find? c.dedupKey = some row) (hpending : row.status = .pending) :
    row.name = c.name ∧ row.definition = c.definition := by
  obtain ⟨hmem, hkey⟩ := Table.mem_of_find? hrow
  obtain ⟨earlier, step, between, c', rfl, hc', hsamekey, hnew⟩ :=
    exists_first (hkept.carried row hmem)
  rw [hkey] at hsamekey
  obtain ⟨row', hrow', hfollows⟩ := hkept.first earlier step between c' rfl hc' hnew
  rw [hsamekey, hrow] at hrow'
  obtain rfl := Option.some.inj hrow'
  rw [hfollows.name, hfollows.definition]
  by_cases hheuristic : c.heuristic = "failed_playback"
  · have hreports : Reports env (.analyze now records) c := ⟨hc, hheuristic⟩
    have hreports' : Reports env step c' := by
      refine ⟨hc', ?_⟩
      rw [(mem_candidatesOf.mp hc').heuristic_eq (mem_candidatesOf.mp hc) hsamekey]
      exact hheuristic
    have hstep : step ∈ earlier ++ step :: between ++ .analyze now records :: after := by simp
    have hrun : Step.analyze now records ∈
        earlier ++ step :: between ++ .analyze now records :: after := by simp
    have hten : tenSmallest step = tenSmallest (.analyze now records) :=
      (hreports'.key_eq_iff hreports (hplain _ hstep) (hplain _ hrun)).mp hsamekey
    have hfiles : filesOf step = filesOf (.analyze now records) := by
      by_contra hdiffer
      exact hapart _ hstep _ hrun ⟨c', hreports'⟩ ⟨c, hreports⟩ hdiffer hten
    refine ⟨hreports'.name_eq hreports hfiles, (hreports'.definition_eq_iff hreports).mpr ?_⟩
    exact hsame earlier step between _ after c' c (by simp) hreports' hreports hnew hten
      (hfollows.pending.mp hpending)
  · exact (mem_candidatesOf.mp hc').rule_eq (mem_candidatesOf.mp hc) hsamekey fun hfailed =>
      hheuristic (((mem_candidatesOf.mp hc).heuristic_eq (mem_candidatesOf.mp hc')
        hsamekey.symm).trans hfailed)

/-- **What is shown.**  Where the texts of new suggestions fit, every run of a history shows its
    candidates and different sets of files that failed have different keys, iff runs that report
    different sets of files differ in the ten smallest ids, and a run that finds the suggestion
    for its failures pending finds the names that it lists. -/
theorem shown_and_separate (env : Env) (history : List Step)
    (hplain : ∀ step ∈ history, PlainIds step) :
    (FitsNew env history ∧ SameNames env history ∧ TenApart env history →
      Runs.Throughout (next env) (Shown env) .empty history ∧ SeparateKeys env history) ∧
    (FitsNew env history →
      Runs.Throughout (next env) (Shown env) .empty history ∧ SeparateKeys env history →
        SameNames env history ∧ TenApart env history) := by
  constructor
  · rintro ⟨hfits, hsame, hapart⟩
    refine ⟨(Runs.throughout_iff_forall (next env)).mpr ?_, (separateKeys_iff hplain).mpr hapart⟩
    rintro before step after rfl
    have hkept := kept_final hfits.prefix
    cases step with
    | analyze now records =>
      obtain ⟨p, hpersist⟩ := hkept.commits hfits.upTo
      refine (shown_iff hpersist).mpr fun c hc row hrow hpending => ?_
      exact shown_of_sameNames hkept hsame hapart hplain (detected_eq ▸ hc) hrow hpending
    | dismiss now key reason => exact trivial
    | deploy now key definition ruleId => exact trivial
  · rintro hfits ⟨hshown, hseparate⟩
    refine ⟨?_, (separateKeys_iff hplain).mp hseparate⟩
    rintro earlier step between step' after c c' rfl hc hc' hnew hten hstays
    have hcut : earlier ++ step :: (between ++ step' :: after) =
        (earlier ++ step :: between) ++ step' :: after := by simp
    rw [hcut] at hfits hshown hplain
    have hkept := kept_final hfits.prefix
    have hhere := (Runs.throughout_iff_forall (next env)).mp hshown _ step' after rfl
    obtain ⟨row, hrow, hfollows⟩ := hkept.first earlier step between c rfl hc.1 hnew
    have hkey : c.dedupKey = c'.dedupKey :=
      (hc.key_eq_iff hc' (hplain _ (by simp)) (hplain _ (by simp))).mpr hten
    cases step' with
    | analyze now records =>
      obtain ⟨p, hpersist⟩ := hkept.commits hfits.upTo
      have hsamerule := (shown_iff hpersist).mp hhere c' (detected_eq ▸ hc'.1) row (hkey ▸ hrow)
        (hfollows.pending.mpr hstays)
      exact (hc.definition_eq_iff hc').mp (hfollows.definition.symm.trans hsamerule.2)
    | dismiss now key reason => exact absurd hc'.1 (not_mem_candidatesAt rfl)
    | deploy now key definition ruleId => exact absurd hc'.1 (not_mem_candidatesAt rfl)

/-! A file fails, and fails again. -/

def failingTwice : List Step :=
  [.analyze (seconds 100) (failures (seconds 90) [("m", "/m.mkv")]),
    .analyze (seconds 200) (failures (seconds 190) [("m", "/m.mkv")])]

theorem shown_and_separate_failingTwice :
    Runs.Throughout (next plainEnv) (Shown plainEnv) .empty failingTwice ∧
      SeparateKeys plainEnv failingTwice := by
  have hfiles : ∀ step ∈ failingTwice, filesOf step = {"m"} := by decide +kernel
  have hnames : ∀ step ∈ failingTwice, (listedNames step).toOption = some ["m.mkv"] := by
    decide +kernel
  have hfits : ∀ step ∈ failingTwice, ∀ c ∈ candidatesAt plainEnv step,
      fitsColumns (newSuggestion c) = true := by
    decide +kernel
  refine (shown_and_separate plainEnv failingTwice ?_).1 ⟨?_, ?_, ?_⟩
  · intro step hstep
    rw [PlainIds, hfiles step hstep]
    decide +kernel
  · intro before step after heq c hc _
    exact .inr (hfits step (by rw [heq]; simp) c hc)
  · intro earlier step between step' after c c' heq hc hc' _ _ _
    obtain ⟨filenames, hok, -, -⟩ := hc.eq
    obtain ⟨filenames', hok', -, -⟩ := hc'.eq
    have hlisted := hnames step (by rw [heq]; simp)
    have hlisted' := hnames step' (by rw [heq]; simp)
    simp only [listedNames, hok, hok', Except.map, Except.toOption, Option.some.injEq]
      at hlisted hlisted' ⊢
    rw [hlisted, hlisted']
  · intro step hstep step' hstep' _ _ hdiffer
    exact absurd ((hfiles step hstep).trans (hfiles step' hstep').symm) hdiffer

/-! Ten files fail, and then an eleventh. -/

def elevenFiles : List (String × String) :=
  [("a", "/a.mkv"), ("b", "/b.mkv"), ("c", "/c.mkv"), ("d", "/d.mkv"), ("e", "/e.mkv"),
    ("f", "/f.mkv"), ("g", "/g.mkv"), ("h", "/h.mkv"), ("i", "/i.mkv"), ("j", "/j.mkv"),
    ("k", "/k.mkv")]

def tenRecords : Tables := failures (seconds 90) (elevenFiles.take 10)
def elevenRecords : Tables := failures (seconds 190) elevenFiles

def tenThenEleven : List Step :=
  [.analyze (seconds 100) tenRecords, .analyze (seconds 200) elevenRecords]

/-- The key of both runs. -/
def sharedKey : String := "failed_playback:a,b,c,d,e,f,g,h,i,j"

theorem eleventh_file_hidden :
    (∀ step ∈ tenThenEleven, PlainIds step) ∧
      ¬Runs.Throughout (next plainEnv) (Shown plainEnv) .empty tenThenEleven ∧
      ¬SeparateKeys plainEnv tenThenEleven := by
  have hten : ((detected plainEnv (seconds 100) tenRecords).any fun c =>
      c.heuristic = "failed_playback" && c.dedupKey = sharedKey) = true := by
    decide +kernel
  have heleven : ((detected plainEnv (seconds 200) elevenRecords).any fun c =>
      c.heuristic = "failed_playback" && c.dedupKey = sharedKey &&
        c.name = "Flag 11 files that failed to play") = true := by
    decide +kernel
  obtain ⟨c, hc, hkey⟩ := List.any_eq_true.mp hten
  obtain ⟨c', hc', hkey'⟩ := List.any_eq_true.mp heleven
  simp only [Bool.and_eq_true, decide_eq_true_eq] at hkey hkey'
  refine ⟨?_, fun hshown => ?_, fun hseparate => ?_⟩
  · unfold PlainIds
    decide +kernel
  · have hpersisted : (persist plainEnv (seconds 200) (detected plainEnv (seconds 200) elevenRecords)
        (next plainEnv .empty (.analyze (seconds 100) tenRecords))).isSome = true := by
      decide +kernel
    obtain ⟨p, hpersist⟩ := Option.isSome_iff_exists.mp hpersisted
    have hpending : ((next plainEnv .empty (.analyze (seconds 100) tenRecords)).find?
        sharedKey).map (fun row => (row.status, row.name)) =
          some (.pending, "Flag 10 files that failed to play") := by
      decide +kernel
    obtain ⟨row, hrow, hcolumns⟩ := Option.map_eq_some_iff.mp hpending
    obtain ⟨hstatus, hname⟩ := Prod.mk.inj hcolumns
    rw [← hkey'.1.2] at hrow
    have hsame := ((shown_iff hpersist).mp hshown.2.1 c' hc' row hrow hstatus).1
    rw [hname, hkey'.2] at hsame
    exact absurd hsame (by decide)
  · refine hseparate _ (List.mem_cons_self ..) _ (List.mem_cons_of_mem _ (List.mem_cons_self ..))
      c c' ⟨detected_eq ▸ hc, hkey.1⟩ ⟨detected_eq ▸ hc', hkey'.1.1⟩ ?_ (hkey.2.trans hkey'.1.2.symm)
    decide +kernel

end SuggestionRefresh
