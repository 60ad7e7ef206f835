/-
  Auditarr/RuleSuggestions.lean
  =============================
  **The life of a suggestion** (`services/playback/analyzer.py`,
  `services/repositories/rule_suggestion.py`, `api/v1/rules.py`).

  A run of the analyzer goes through its candidates.  A key that is deployed, or was dismissed
  in the last thirty days, is passed over; a key that has a row is refreshed; a new key gets a
  pending row.  A dismissed row keeps its key, which is unique, and a refresh leaves the status
  alone: a pattern that is dismissed once is never pending again, however long ago that was.

  `pending_again_iff` says so for histories: they keep to the life cycle iff no run detects a
  pattern whose dismissal has expired.
-/
import Auditarr.PlaybackHeuristics
import Auditarr.RuleDocument

namespace RuleSuggestions

open KeyedTable PyValues PlaybackHeuristics PlaybackPoller RuleDocument

/-! ### The table -/

inductive Status where
  | pending | deployed | dismissed
deriving DecidableEq, Repr

structure RuleSuggestion where
  name : String
  definition : PyValue
  heuristic : String
  evidence : PyValue
  filesAffected : Nat
  estRuntimeS : Option Int
  confidence : PyFloat
  dedupKey : String
  status : Status
  deployedRuleId : Option String := none
  deployedAt : Option Timestamp := none
  dismissedAt : Option Timestamp := none
  dismissedReason : Option String := none

abbrev Suggestions := Table RuleSuggestion.dedupKey

/-- What surrounds the service. -/
structure Env where
  rt : HeuristicRuntime
  py : Pydantic
  /-- The database refuses a text that is longer than its column. -/
  enforcesLengths : Bool

/-- The texts fit their columns. -/
def fitsColumns (row : RuleSuggestion) : Bool :=
  row.name.length ≤ 256 && row.heuristic.length ≤ 64 && row.dedupKey.length ≤ 256

/-- `DISMISS_STICKY_DAYS`. -/
def dismissSticky : Timestamp := seconds (30 * 24 * 3600)

section Repository

variable (env : Env) (now : Timestamp) (t : Suggestions) (key : String)

/-- `add`, with its flush: the key is unique. -/
def add (row : RuleSuggestion) : Option Suggestions :=
  if env.enforcesLengths && !fitsColumns row then none
  else if (t.find? row.dedupKey).isSome then none
  else some (t.upsert row)

/-- `has_deployed`. -/
def hasDeployed : Bool := t.rows.any fun row => row.dedupKey = key && row.status = .deployed

/-- `has_recent_dismissal`. -/
def hasRecentDismissal : Bool :=
  t.rows.any fun row => row.dedupKey = key && row.status = .dismissed &&
    row.dismissedAt.any (now - dismissSticky ≤ ·)

end Repository

/-! ### Runs of the analyzer -/

/-- The row of a new suggestion. -/
def newSuggestion (c : SuggestionCandidate) : RuleSuggestion where
  name := c.name
  definition := c.definition
  heuristic := c.heuristic
  evidence := c.evidence
  filesAffected := c.filesAffected
  estRuntimeS := c.estRuntimeS
  confidence := c.confidence
  dedupKey := c.dedupKey
  status := .pending

/-- What a run sets in a row that is there. -/
def refresh (c : SuggestionCandidate) (existing : RuleSuggestion) : RuleSuggestion :=
  { existing with
    evidence := c.evidence
    filesAffected := c.filesAffected
    confidence := c.confidence
    estRuntimeS := c.estRuntimeS }

theorem dedupKey_refresh (c : SuggestionCandidate) (existing : RuleSuggestion) :
    (refresh c existing).dedupKey = existing.dedupKey := rfl

/-- The rows, and the counters of the outcome. -/
structure Persisting where
  suggestions : Suggestions
  suggestionsCreated : Nat := 0
  skippedDeduped : Nat := 0
  skippedDismissed : Nat := 0
  skippedDeployed : Nat := 0

variable (env : Env)

/-- One candidate of the loop; `none` where the flush raises. -/
def persistOne (now : Timestamp) (p : Persisting) (c : SuggestionCandidate) : Option Persisting :=
  if hasDeployed p.suggestions c.dedupKey then
    some { p with skippedDeployed := p.skippedDeployed + 1 }
  else if hasRecentDismissal now p.suggestions c.dedupKey then
    some { p with skippedDismissed := p.skippedDismissed + 1 }
  else if (p.suggestions.find? c.dedupKey).isSome then
    some { p with
      suggestions := p.suggestions.update (·.dedupKey = c.dedupKey) (refresh c)
        (dedupKey_refresh c)
      skippedDeduped := p.skippedDeduped + 1 }
  else
    (add env p.suggestions (newSuggestion c)).map fun suggestions =>
      { p with suggestions := suggestions, suggestionsCreated := p.suggestionsCreated + 1 }

/-- The candidates of a run over the records of the plays. -/
def detected (now : Timestamp) (records : Tables) : List SuggestionCandidate :=
  match (PlaybackAnalyzer.analyze now records).2 with
  | none => []
  | some rows => candidatesOf env.rt rows

/-- `analyze`, from the heuristics on: `none` where it raises, and nothing is committed. -/
def persist (now : Timestamp) (candidates : List SuggestionCandidate) (t : Suggestions) :
    Option Persisting :=
  candidates.foldlM (persistOne env now) { suggestions := t }

/-! ### Dismissals and deployments -/

/-- Why a suggestion is neither dismissed nor deployed. -/
inductive SuggestionError where
  | notFound (key : String)
  | alreadyDeployed (key : String)
  | notPending (key : String) (status : Status)
  | invalidDefinition
  | ruleNotAdded
deriving DecidableEq

def statusName : Status → String
  | .pending => "pending"
  | .deployed => "deployed"
  | .dismissed => "dismissed"

def SuggestionError.message : SuggestionError → String
  | .notFound _ => "Suggestion not found"
  | .alreadyDeployed _ => "Suggestion already deployed"
  | .notPending _ status => "Suggestion is " ++ statusName status ++ ", cannot deploy"
  | .invalidDefinition => "Rule definition is invalid"
  | .ruleNotAdded => "The rule is not added"

def markDismissed (now : Timestamp) (reason : Option String) (row : RuleSuggestion) :
    RuleSuggestion :=
  { row with status := .dismissed, dismissedAt := some now, dismissedReason := reason }

def markDeployed (now : Timestamp) (ruleId : String) (row : RuleSuggestion) : RuleSuggestion :=
  { row with status := .deployed, deployedRuleId := some ruleId, deployedAt := some now }

theorem dedupKey_markDismissed (now : Timestamp) (reason : Option String) (row : RuleSuggestion) :
    (markDismissed now reason row).dedupKey = row.dedupKey := rfl

theorem dedupKey_markDeployed (now : Timestamp) (ruleId : String) (row : RuleSuggestion) :
    (markDeployed now ruleId row).dedupKey = row.dedupKey := rfl

/-- `dismiss_suggestion`. -/
def dismissSuggestion (now : Timestamp) (key : String) (reason : Option String) (t : Suggestions) :
    Except SuggestionError Suggestions :=
  match t.find? key with
  | none => .error (.notFound key)
  | some suggestion =>
      if suggestion.status = .deployed then .error (.alreadyDeployed key)
      else .ok (t.update (·.dedupKey = key) (markDismissed now reason)
        (dedupKey_markDismissed now reason))

/-- `deploy_suggestion`, with the definition the request puts in the place of the suggestion's,
    and the id of the rule, which is missing where the rule is not added. -/
def deploySuggestion (now : Timestamp) (key : String) (definition : Option PyValue)
    (ruleId : Option String) (t : Suggestions) : Except SuggestionError Suggestions :=
  match t.find? key with
  | none => .error (.notFound key)
  | some suggestion =>
      if suggestion.status ≠ .pending then .error (.notPending key suggestion.status)
      else
        let finalDefinition := (definition.filter (·.truthy)).getD suggestion.definition
        match modelValidate env.py env.rt.toPyRuntime finalDefinition, ruleId with
        | none, _ => .error .invalidDefinition
        | some _, none => .error .ruleNotAdded
        | some _, some id => .ok (t.update (·.dedupKey = key) (markDeployed now id)
            (dedupKey_markDeployed now id))

/-! ### Histories -/

inductive Step where
  | analyze (now : Timestamp) (records : Tables)
  | dismiss (now : Timestamp) (key : String) (reason : Option String)
  | deploy (now : Timestamp) (key : String) (definition : Option PyValue) (ruleId : Option String)

/-- What a step commits: where it raises, nothing. -/
def next (t : Suggestions) : Step → Suggestions
  | .analyze now records =>
      match persist env now (detected env now records) t with
      | none => t
      | some p => p.suggestions
  | .dismiss now key reason => (dismissSuggestion now key reason t).toOption.getD t
  | .deploy now key definition ruleId =>
      (deploySuggestion env now key definition ruleId t).toOption.getD t

/-! ### What a run makes of a row -/

/-- What a candidate makes of the row of its key. -/
def settled (now : Timestamp) (c : SuggestionCandidate) : Option RuleSuggestion → RuleSuggestion
  | none => newSuggestion c
  | some row =>
      if row.status = .deployed then row
      else if row.status = .dismissed && row.dismissedAt.any (now - dismissSticky ≤ ·) then row
      else refresh c row

/-- The candidate has a row already, or its row can be added. -/
def Persistable (t : Suggestions) (c : SuggestionCandidate) : Prop :=
  (t.find? c.dedupKey).isSome = true ∨ env.enforcesLengths = false ∨
    fitsColumns (newSuggestion c) = true

variable {env} {now : Timestamp} {t : Suggestions} {key : String} {c : SuggestionCandidate}

theorem any_find? {q : RuleSuggestion → Bool} :
    (t.rows.any fun row => row.dedupKey = key && q row) = (t.find? key).any q := by
  cases hfind : t.find? key with
  | none =>
    rw [Option.any_none, List.any_eq_false]
    intro row hrow
    simp [Table.find?_eq_none.mp hfind row hrow]
  | some row =>
    obtain ⟨hmem, hkey⟩ := Table.mem_of_find? hfind
    rw [Option.any_some, Bool.eq_iff_iff, List.any_eq_true]
    constructor
    · rintro ⟨other, hother, hq⟩
      rw [Bool.and_eq_true, decide_eq_true_eq] at hq
      have hsame : other = row := Table.eq_of_key_eq hother hmem (hq.1.trans hkey.symm)
      exact hsame ▸ hq.2
    · intro hq
      exact ⟨row, hmem, by simp [hkey, hq]⟩

theorem hasDeployed_eq : hasDeployed t key = (t.find? key).any (·.status = .deployed) :=
  any_find?

theorem hasRecentDismissal_eq : hasRecentDismissal now t key = (t.find? key).any fun row =>
    row.status = .dismissed && row.dismissedAt.any (now - dismissSticky ≤ ·) := by
  rw [← any_find?]
  simp only [hasRecentDismissal, Bool.and_assoc]

theorem persistOne_find? {p p' : Persisting} (h : persistOne env now p c = some p') (k : String) :
    p'.suggestions.find? k = if k = c.dedupKey then
      some (settled now c (p.suggestions.find? k)) else p.suggestions.find? k := by
  unfold persistOne at h
  rw [hasDeployed_eq, hasRecentDismissal_eq] at h
  cases hfind : p.suggestions.find? c.dedupKey with
  | none =>
    simp only [hfind, Option.any_none, Bool.false_eq_true, if_false, Option.isSome_none, add,
      newSuggestion] at h
    split at h
    · cases h
    · cases h
      rw [Table.find?_upsert]
      split
      · next hk => rw [hk, hfind]; rfl
      · rfl
  | some row =>
    simp only [hfind, Option.any_some, Option.isSome_some, if_true] at h
    split at h
    · next hdeployed =>
      cases h
      split
      · next hk => rw [hk, hfind, settled, if_pos (by simpa using hdeployed)]
      · rfl
    · next hdeployed =>
      split at h
      · next hrecent =>
        cases h
        split
        · next hk =>
          rw [hk, hfind, settled, if_neg (by simpa using hdeployed), if_pos hrecent]
        · rfl
      · next hrecent =>
        cases h
        show (p.suggestions.update _ _ (dedupKey_refresh c)).find? k = _
        rw [Table.find?_update]
        split
        · next hk =>
          rw [hk, hfind, settled, if_neg (by simpa using hdeployed), if_neg hrecent,
            Option.map_some, if_pos (by simpa using (Table.mem_of_find? hfind).2)]
        · next hk =>
          cases hother : p.suggestions.find? k with
          | none => rfl
          | some other =>
            have hkey : other.dedupKey ≠ c.dedupKey := by
              rw [(Table.mem_of_find? hother).2]
              exact hk
            simp [hkey]

theorem persistOne_isSome {p : Persisting} :
    (persistOne env now p c).isSome = true ↔ Persistable env p.suggestions c := by
  unfold persistOne Persistable
  rw [hasDeployed_eq, hasRecentDismissal_eq]
  cases hfind : p.suggestions.find? c.dedupKey with
  | none =>
    have hnew : p.suggestions.find? (newSuggestion c).dedupKey = none := hfind
    cases henforces : env.enforcesLengths <;> cases hfits : fitsColumns (newSuggestion c) <;>
      simp [add, hnew, henforces, hfits]
  | some row =>
    simp only [Option.any_some, Option.isSome_some, if_true, true_or, iff_true]
    split
    · rfl
    · split <;> rfl

theorem persist_isSome {candidates : List SuggestionCandidate} (now : Timestamp) (p : Persisting)
    (h : ∀ c ∈ candidates, Persistable env p.suggestions c) :
    (candidates.foldlM (persistOne env now) p).isSome = true := by
  induction candidates generalizing p with
  | nil => rfl
  | cons first rest ih =>
    obtain ⟨mid, hmid⟩ :=
      Option.isSome_iff_exists.mp (persistOne_isSome.mpr (h first (List.mem_cons_self ..)))
    rw [List.foldlM_cons, hmid]
    refine ih mid fun c hc => (h c (List.mem_cons_of_mem _ hc)).imp_left fun hrow => ?_
    rw [persistOne_find? hmid]
    split
    · rfl
    · exact hrow

theorem persist_find? {candidates : List SuggestionCandidate} {p p' : Persisting}
    (hkeys : (candidates.map (·.dedupKey)).Nodup)
    (h : candidates.foldlM (persistOne env now) p = some p') :
    (∀ c ∈ candidates, p'.suggestions.find? c.dedupKey =
      some (settled now c (p.suggestions.find? c.dedupKey))) ∧
    ∀ k, (∀ c ∈ candidates, c.dedupKey ≠ k) →
      p'.suggestions.find? k = p.suggestions.find? k := by
  induction candidates generalizing p with
  | nil =>
    cases h
    exact ⟨nofun, fun _ _ => rfl⟩
  | cons first rest ih =>
    rw [List.map_cons, List.nodup_cons] at hkeys
    rw [List.foldlM_cons] at h
    obtain ⟨mid, hfirst, hrest⟩ := Option.bind_eq_some_iff.mp h
    obtain ⟨hdetected, hothers⟩ := ih hkeys.2 hrest
    refine ⟨fun c hc => ?_, fun k hk => ?_⟩
    · rcases List.mem_cons.mp hc with rfl | hc
      · have hapart : ∀ c' ∈ rest, c'.dedupKey ≠ c.dedupKey := fun c' hc' heq =>
          hkeys.1 (List.mem_map.mpr ⟨c', hc', heq⟩)
        rw [hothers _ hapart, persistOne_find? hfirst, if_pos rfl]
      · have hapart : c.dedupKey ≠ first.dedupKey := fun heq =>
          hkeys.1 (List.mem_map.mpr ⟨c, hc, heq⟩)
        rw [hdetected c hc, persistOne_find? hfirst, if_neg hapart]
    · rw [hothers k fun c hc => hk c (List.mem_cons_of_mem _ hc), persistOne_find? hfirst,
        if_neg (hk first (List.mem_cons_self ..)).symm]

theorem nodup_detected (env : Env) (now : Timestamp) (records : Tables) :
    ((detected env now records).map (·.dedupKey)).Nodup := by
  unfold detected
  split
  · exact List.nodup_nil
  · exact nodup_keys env.rt _

/-! ### The life cycle -/

/-- The suggestion was dismissed in the last thirty days. -/
def DismissedRecently (now : Timestamp) (row : RuleSuggestion) : Prop :=
  row.status = .dismissed ∧ ∃ dismissedAt ∈ row.dismissedAt, now - dismissSticky ≤ dismissedAt

/-- The suggestion was dismissed, and not in the last thirty days. -/
def DismissalExpired (now : Timestamp) (row : RuleSuggestion) : Prop :=
  row.status = .dismissed ∧ ∃ dismissedAt ∈ row.dismissedAt, dismissedAt < now - dismissSticky

/-- A suggestion with the key is pending. -/
def Pending (t : Suggestions) (key : String) : Prop :=
  ∃ row, t.find? key = some row ∧ row.status = .pending

/-- After a run, a pattern that it detects is pending again if its dismissal has expired, and
    no pattern is that was dismissed recently. -/
def KeepsLifeCycle (env : Env) (t : Suggestions) : Step → Prop
  | .analyze now records =>
      (∀ c ∈ detected env now records, ∀ row, t.find? c.dedupKey = some row →
        DismissalExpired now row → Pending (next env t (.analyze now records)) c.dedupKey) ∧
      ∀ key row, t.find? key = some row → DismissedRecently now row →
        ¬Pending (next env t (.analyze now records)) key
  | _ => True

/-- The run detects no pattern whose dismissal has expired. -/
def NoneExpired (env : Env) (t : Suggestions) : Step → Prop
  | .analyze now records => ∀ c ∈ detected env now records, ∀ row,
      t.find? c.dedupKey = some row → ¬DismissalExpired now row
  | _ => True

theorem settled_dismissed {row : RuleSuggestion} (h : row.status = .dismissed) :
    (settled now c (some row)).status = .dismissed := by
  rw [settled]
  split
  · exact h
  · split
    · exact h
    · exact h

theorem not_pending_of_dismissed {records : Tables} {row : RuleSuggestion}
    (hrow : t.find? key = some row) (hdismissed : row.status = .dismissed) :
    ¬Pending (next env t (.analyze now records)) key := by
  rintro ⟨after, hafter, hpending⟩
  unfold next at hafter
  simp only [] at hafter
  split at hafter
  · rw [hrow] at hafter
    rw [← Option.some.inj hafter, hdismissed] at hpending
    cases hpending
  · next p hpersist =>
    obtain ⟨hdetected, hothers⟩ := persist_find? (nodup_detected env now records) hpersist
    by_cases hkey : ∃ c ∈ detected env now records, c.dedupKey = key
    · obtain ⟨c, hc, rfl⟩ := hkey
      rw [hdetected c hc, hrow] at hafter
      rw [← Option.some.inj hafter, settled_dismissed hdismissed] at hpending
      cases hpending
    · rw [hothers key fun c hc heq => hkey ⟨c, hc, heq⟩, hrow] at hafter
      rw [← Option.some.inj hafter, hdismissed] at hpending
      cases hpending

theorem keepsLifeCycle_iff (env : Env) (t : Suggestions) (step : Step) :
    KeepsLifeCycle env t step ↔ NoneExpired env t step := by
  cases step with
  | analyze now records =>
    constructor
    · rintro ⟨hagain, -⟩ c hc row hrow hexpired
      exact not_pending_of_dismissed hrow hexpired.1 (hagain c hc row hrow hexpired)
    · intro hnone
      refine ⟨fun c hc row hrow hexpired => absurd hexpired (hnone c hc row hrow), ?_⟩
      intro key row hrow hrecent
      exact not_pending_of_dismissed hrow hrecent.1
  | dismiss now key reason => exact Iff.rfl
  | deploy now key definition ruleId => exact Iff.rfl

/-- **The life cycle.**  A history of runs, dismissals and deployments keeps to the life cycle
    iff no run of it detects a pattern whose dismissal has expired. -/
theorem pending_again_iff (env : Env) (t : Suggestions) (history : List Step) :
    Runs.Throughout (next env) (KeepsLifeCycle env) t history ↔
      Runs.Throughout (next env) (NoneExpired env) t history :=
  Runs.throughout_congr (next env) (keepsLifeCycle_iff env) t history

/-! A file fails, the suggestion is dismissed, and the file fails again a month later. -/

def plainEnv : Env where
  rt := {
    lower := String.toLower
    reSearch := fun _ _ => .notFound
    upper := String.toUpper
    log10 := fun n => .finite (Nat.log 10 n) }
  py := .strict
  enforcesLengths := true

/-- A play that failed, of a file given by its id and path. -/
def failedPlay (n : Nat) (startedAt : Timestamp) (file : String × String) : PlaybackEvent where
  integrationId := "plex"
  upstreamId := toString n
  mediaFileId := some file.1
  sourcePath := file.2
  deviceKind := none
  deviceName := none
  decision := "failed"
  sourceCodec := none
  sourceBitrateKbps := none
  sourceWidth := none
  sourceHeight := none
  startedAt := startedAt

/-- Twenty plays that failed, the files in turn. -/
def failures (startedAt : Timestamp) (files : List (String × String)) : Tables :=
  { PlaybackCursor.noTables with
    events := (List.range 20).foldl (fun events n =>
      events.upsert (failedPlay n startedAt (files.getD (n % files.length) ("", "")))) .empty }

/-- The file fails again thirty days and twenty minutes after the dismissal. -/
def failingAgain : Tables := failures (seconds 2593300) [("m", "/m.mkv")]

/-- The suggestion for the file is made, and dismissed. -/
def dismissedHistory : List Step :=
  [.analyze (seconds 100) (failures (seconds 90) [("m", "/m.mkv")]),
    .dismiss (seconds 200) "failed_playback:m" none]

theorem dismissed_is_never_pending_again :
    ¬∀ (env : Env) (t : Suggestions) (history : List Step),
      Runs.Throughout (next env) (KeepsLifeCycle env) t history := by
  intro hall
  have hrun := hall plainEnv .empty (dismissedHistory ++ [.analyze (seconds 2593400) failingAgain])
  obtain ⟨-, ⟨hagain, -⟩, -⟩ := (Runs.throughout_append (next plainEnv) _ _ _).mp hrun
  have hdetected : ((detected plainEnv (seconds 2593400) failingAgain).any
      (·.dedupKey = "failed_playback:m")) = true := by
    decide +kernel
  have hdismissed : ((Runs.final (next plainEnv) .empty dismissedHistory).find?
      "failed_playback:m").map (fun row => (row.status, row.dismissedAt)) =
        some (.dismissed, some (seconds 200)) := by
    decide +kernel
  obtain ⟨c, hc, hkey⟩ := List.any_eq_true.mp hdetected
  obtain ⟨row, hrow, hcolumns⟩ := Option.map_eq_some_iff.mp hdismissed
  obtain ⟨hstatus, htime⟩ := Prod.mk.inj hcolumns
  rw [← decide_eq_true_iff.mp hkey] at hrow
  refine not_pending_of_dismissed hrow hstatus (hagain c hc row hrow ⟨hstatus, ?_⟩)
  exact ⟨seconds 200, htime, by decide⟩

end RuleSuggestions
