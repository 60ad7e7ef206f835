/-
  Auditarr/AiSuggestions.lean
  ===========================
  **Rule suggestions of an AI provider** (`app/services/ai/suggestions.py`) **and their
  deployment** (`deploy_suggestion` in `app/api/v1/rules.py`).

  The service stores the dump of the rule it has validated; deploying a suggestion
  validates what is stored once more.
-/
import Auditarr.RuleDocument
import Auditarr.RuleEvaluator
import Auditarr.Database

namespace AiSuggestions

open KeyedTable PyValues RuleSchema RuleDocument RuleEvaluator Database

/-! ### The tables -/

inductive SuggestionStatus where
  | pending | deployed | dismissed
deriving DecidableEq, Repr

structure Evidence where
  rationale : String
  providerKind : String
  providerIntegrationId : String
  model : String

structure RuleSuggestion where
  id : String
  name : String
  definition : PyValue
  heuristic : String
  evidence : Evidence
  dedupKey : String
  status : SuggestionStatus
  deployedRuleId : Option String

/-- The suggestions and the rules of the database. -/
structure SuggestionStore where
  suggestions : Table RuleSuggestion.id
  dedup_unique : (suggestions.rows.map RuleSuggestion.dedupKey).Nodup
  rules : Table Rule.id
  rule_names_unique : (rules.rows.map Rule.name).Nodup

inductive ApiError where
  | notFound
  | conflict
  /-- A validator refuses the definition. -/
  | invalidDefinition
  | integrityError
deriving DecidableEq, Repr

/-- The library functions the service calls. -/
structure AiEnv where
  rt : PyRuntime
  py : Pydantic
  /-- `str(v)`. -/
  str : PyValue → String
  /-- The first digits of the hash of a definition's canonical JSON text. -/
  digest : PyValue → String
  /-- The primary key of the n-th row that is added. -/
  newId : Nat → String
  /-- `_dt_now_short()`. -/
  nowShort : String
  str_str : ∀ s : String, str (.str s) = s

/-! ### Generating suggestions -/

/-- `_contains_delete_action`. -/
def containsDeleteAction (env : AiEnv) (definition : PyValue) : Bool :=
  match definition.get "actions" with
  | .ok (.list actions) => actions.any fun
      | .dict entries => env.rt.lower (env.str ((entries.lookup "type").getD (.str ""))) = "delete"
      | _ => false
  | _ => false

/-- `_dedup_key_for_ai`. -/
def dedupKeyForAi (env : AiEnv) (providerKind name : String) (definition : PyValue) : String :=
  let safeName := String.ofList ((name.toList.take 64).map fun c => if c = ':' then '_' else c)
  "ai:" ++ providerKind ++ ":" ++ safeName ++ ":" ++ env.digest definition

/-- `str(proposal.get(key) or default)`. -/
def textOr (env : AiEnv) (proposal : Entries) (key default_ : String) : String :=
  let v := (proposal.lookup key).getD .none
  if v.truthy then env.str v else default_

/-- `proposal.get("definition") or {}`. -/
def definitionOf (proposal : Entries) : PyValue :=
  ((proposal.lookup "definition").getD .none).orDict

/-- The provider that was asked. -/
structure ChatCall where
  providerKind : String
  integrationId : String
  model : String

structure AISuggestResult where
  suggestionsCreated : Nat
  candidatesReceived : Nat
  candidatesRejected : Nat
  providerKind : String
  providerIntegrationId : String

/-- The rows added to the session and the number of proposals turned down. -/
structure Progress where
  added : List RuleSuggestion
  rejected : Nat

def Progress.reject (progress : Progress) : Progress :=
  { progress with rejected := progress.rejected + 1 }

/-- The row for an accepted proposal. -/
def newSuggestion (env : AiEnv) (call : ChatCall) (n : Nat) (proposal : Entries)
    (definition : PyValue) : RuleSuggestion :=
  let name := textOr env proposal "name" "AI suggestion"
  { id := env.newId n
    name := name
    definition := definition
    heuristic := "ai_" ++ call.providerKind
    evidence := ⟨textOr env proposal "rationale" "", call.providerKind, call.integrationId,
      call.model⟩
    dedupKey := dedupKeyForAi env call.providerKind name definition
    status := .pending
    deployedRuleId := none }

/-- One turn of the loop over the proposals.  The session does not flush before a
    query, so only committed suggestions are found by their key. -/
def considerProposal (env : AiEnv) (call : ChatCall) (store : SuggestionStore)
    (progress : Progress) (proposal : Entries) : Progress :=
  match modelValidate env.py env.rt (definitionOf proposal) with
  | none => progress.reject
  | some parsed =>
      let definition := modelDump parsed
      let row := newSuggestion env call progress.added.length proposal definition
      if containsDeleteAction env definition then progress.reject
      else if row.dedupKey ∈ store.suggestions.rows.map RuleSuggestion.dedupKey then
        progress.reject
      else { progress with added := progress.added ++ [row] }

/-- The commit inserts the added rows. -/
def insertSuggestions (store : SuggestionStore) (added : List RuleSuggestion) :
    Except ApiError SuggestionStore :=
  if h : ((store.suggestions.rows ++ added).map RuleSuggestion.id).Nodup ∧
      ((store.suggestions.rows ++ added).map RuleSuggestion.dedupKey).Nodup then
    .ok { store with suggestions := ⟨store.suggestions.rows ++ added, h.1⟩, dedup_unique := h.2 }
  else .error .integrityError

/-- `AISuggestionService.generate` from the provider's answer on; the proposals are the
    objects in the array it sent. -/
def generate (env : AiEnv) (call : ChatCall) (proposals : List Entries)
    (store : SuggestionStore) : Except ApiError (SuggestionStore × AISuggestResult) := do
  let progress := proposals.foldl (considerProposal env call store) ⟨[], 0⟩
  let store ← insertSuggestions store progress.added
  return (store, ⟨progress.added.length, proposals.length, progress.rejected, call.providerKind,
    call.integrationId⟩)

/-! ### Deploying one -/

/-- `SuggestionDeployRequest`. -/
structure DeployRequest where
  name : Option String
  priority : Option Int
  enabled : Option Bool
  definition : Option PyValue

/-- A request without overrides. -/
def DeployRequest.unchanged : DeployRequest := ⟨none, none, none, none⟩

/-- The rule of a deployed suggestion; its stored document is read as what it
    validates to. -/
def deployedRule (env : AiEnv) (store : SuggestionStore) (suggestion : RuleSuggestion)
    (body : DeployRequest) (parsed : RuleDefinition) : Rule :=
  let asked := match body.name with
    | none | some "" => suggestion.name
    | some name => name
  { id := env.newId store.rules.rows.length
    name := if asked ∈ store.rules.rows.map Rule.name then asked ++ " (" ++ env.nowShort ++ ")"
      else asked
    enabled := body.enabled.getD true
    priority := body.priority.getD 100
    definition := some parsed
    lastEvaluatedAt := none
    lastMatchCount := 0 }

/-- `rules.add`, and the suggestion marked as deployed. -/
def insertRule (store : SuggestionStore) (suggestionId : String) (rule : Rule) :
    Except ApiError SuggestionStore :=
  if h : ((store.rules.rows ++ [rule]).map Rule.id).Nodup ∧
      ((store.rules.rows ++ [rule]).map Rule.name).Nodup then
    .ok
      { suggestions := store.suggestions.update (·.id = suggestionId)
          (fun s => { s with status := .deployed, deployedRuleId := some rule.id }) fun _ => rfl
        dedup_unique := by
          have hsame : RuleSuggestion.dedupKey ∘ (fun s : RuleSuggestion =>
              if s.id = suggestionId then
                { s with status := .deployed, deployedRuleId := some rule.id } else s) =
              RuleSuggestion.dedupKey := by
            funext s
            by_cases hs : s.id = suggestionId <;> simp [hs]
          simpa only [Table.update, List.map_map, decide_eq_true_eq, hsame] using
            store.dedup_unique
        rules := ⟨store.rules.rows ++ [rule], h.1⟩
        rule_names_unique := h.2 }
  else .error .integrityError

/-- The definition a request deploys, `body.definition or suggestion.definition`. -/
def finalDefinition (suggestion : RuleSuggestion) (body : DeployRequest) : PyValue :=
  match body.definition with
  | none => suggestion.definition
  | some definition => if definition.truthy then definition else suggestion.definition

/-- `deploy_suggestion`. -/
def deploySuggestion (env : AiEnv) (store : SuggestionStore) (suggestionId : String)
    (body : DeployRequest) : Except ApiError (SuggestionStore × Rule) :=
  match store.suggestions.find? suggestionId with
  | none => .error .notFound
  | some suggestion =>
      if suggestion.status ≠ .pending then .error .conflict
      else match modelValidate env.py env.rt (finalDefinition suggestion body) with
        | none => .error .invalidDefinition
        | some parsed => do
            let rule := deployedRule env store suggestion body parsed
            let store ← insertRule store suggestionId rule
            return (store, rule)

/-! ### What is stored -/

/-- A row the service may add: the dump of a validated proposal that deletes nothing. -/
def FromProposal (env : AiEnv) (proposals : List Entries) (s : RuleSuggestion) : Prop :=
  s.status = .pending ∧ ∃ d : RuleDefinition,
    (∃ proposal ∈ proposals, modelValidate env.py env.rt (definitionOf proposal) = some d) ∧
    s.definition = modelDump d ∧ d.actions.any Action.isDelete = false

section Generate

variable {env : AiEnv} {call : ChatCall} {store : SuggestionStore}

/-- The tag of a dumped action. -/
def actionTag : Action → String
  | .setSeverity _ => "set_severity"
  | .addTag _ => "add_tag"
  | .queueOptimization _ => "queue_optimization"
  | .notify .. => "notify"
  | .delete _ => "delete"
  | .vtLookup => "vt_lookup"
  | .searchUpstream .. => "search_upstream"

theorem dumpAction_tag (action : Action) :
    ∃ entries, dumpAction action = .dict entries ∧
      entries.lookup "type" = some (.str (actionTag action)) := by
  cases action <;> exact ⟨_, rfl, rfl⟩

theorem containsDeleteAction_dump (hlower : LowerKeepsSmall env.rt) (d : RuleDefinition) :
    containsDeleteAction env (modelDump d) = d.actions.any Action.isDelete := by
  have hactions : (modelDump d).get "actions" = .ok (.list (d.actions.map dumpAction)) := rfl
  rw [containsDeleteAction, hactions]
  simp only [List.any_map]
  congr 1
  funext action
  obtain ⟨entries, hdump, htag⟩ := dumpAction_tag action
  have hsmall : env.rt.lower (actionTag action) = actionTag action := by
    apply hlower
    cases action <;> simp [actionTag]
  simp only [Function.comp_apply, hdump, htag, Option.getD_some, env.str_str, hsmall]
  cases action <;> simp [actionTag, Action.isDelete]

theorem considerProposal_added (hlower : LowerKeepsSmall env.rt) {proposals : List Entries}
    {progress : Progress} {proposal : Entries} (hproposal : proposal ∈ proposals)
    (hadded : ∀ s ∈ progress.added, FromProposal env proposals s) :
    ∀ s ∈ (considerProposal env call store progress proposal).added,
      FromProposal env proposals s := by
  unfold considerProposal
  cases hparsed : modelValidate env.py env.rt (definitionOf proposal) with
  | none => exact hadded
  | some parsed =>
    simp only
    by_cases hdelete : containsDeleteAction env (modelDump parsed)
    · rw [if_pos hdelete]; exact hadded
    · rw [if_neg hdelete]
      split
      · exact hadded
      · intro s hs
        rcases List.mem_append.mp hs with hold | hnew
        · exact hadded s hold
        · rw [List.mem_singleton.mp hnew]
          rw [containsDeleteAction_dump hlower, Bool.not_eq_true] at hdelete
          exact ⟨rfl, parsed, ⟨proposal, hproposal, hparsed⟩, rfl, hdelete⟩

theorem foldl_considerProposal_added (hlower : LowerKeepsSmall env.rt)
    (proposals : List Entries) :
    ∀ s ∈ (proposals.foldl (considerProposal env call store) ⟨[], 0⟩).added,
      FromProposal env proposals s := by
  suffices hgen : ∀ (rest : List Entries) (progress : Progress), (∀ p ∈ rest, p ∈ proposals) →
      (∀ s ∈ progress.added, FromProposal env proposals s) →
      ∀ s ∈ (rest.foldl (considerProposal env call store) progress).added,
        FromProposal env proposals s from
    hgen proposals ⟨[], 0⟩ (fun _ h => h) fun _ h => absurd h List.not_mem_nil
  intro rest
  induction rest with
  | nil => intro progress _ hadded; exact hadded
  | cons proposal rest ih =>
    intro progress hsub hadded
    rw [List.foldl_cons]
    apply ih _ fun p hp => hsub p (List.mem_cons_of_mem _ hp)
    exact considerProposal_added hlower (hsub proposal (List.mem_cons_self ..)) hadded

theorem insertSuggestions_rows {added : List RuleSuggestion} {store' : SuggestionStore}
    (hinsert : insertSuggestions store added = .ok store') :
    store'.suggestions.rows = store.suggestions.rows ++ added := by
  unfold insertSuggestions at hinsert
  split at hinsert
  · cases hinsert; rfl
  · cases hinsert

theorem generate_added (hlower : LowerKeepsSmall env.rt) {proposals : List Entries}
    {store' : SuggestionStore} {result : AISuggestResult}
    (hgenerate : generate env call proposals store = .ok (store', result)) {s : RuleSuggestion}
    (hs : s ∈ store'.suggestions) (hnew : s ∉ store.suggestions) :
    FromProposal env proposals s := by
  unfold generate at hgenerate
  cases hinsert : insertSuggestions store
      (proposals.foldl (considerProposal env call store) ⟨[], 0⟩).added with
  | error e =>
    simp only [hinsert] at hgenerate
    cases hgenerate
  | ok inserted =>
    simp only [hinsert] at hgenerate
    cases hgenerate
    rw [Table.mem_def, insertSuggestions_rows hinsert, List.mem_append] at hs
    rcases hs with hold | hadded
    · exact absurd hold hnew
    · exact foldl_considerProposal_added hlower proposals s hadded

end Generate

/-- Deploying a pending suggestion without overrides is refused for its definition
    exactly if what is stored does not validate. -/
theorem deploy_invalid_iff {env : AiEnv} {store : SuggestionStore} {s : RuleSuggestion}
    (hs : s ∈ store.suggestions) (hpending : s.status = .pending) :
    deploySuggestion env store s.id .unchanged = .error .invalidDefinition ↔
      modelValidate env.py env.rt s.definition = none := by
  have hfind : store.suggestions.find? s.id = some s := Table.find?_eq_some.mpr ⟨hs, rfl⟩
  have hfinal : finalDefinition s .unchanged = s.definition := rfl
  simp only [deploySuggestion, hfind, hpending, ne_eq, not_true_eq_false, if_false, hfinal]
  cases hvalidate : modelValidate env.py env.rt s.definition with
  | none => simp
  | some parsed =>
    simp only [insertRule, reduceCtorEq, iff_false]
    split <;> intro h <;> cases h

/-! ### The stored definition -/

/-- Whatever the provider proposes, a stored definition is the dump of an accepted rule
    without `delete` action; it validates again, evaluates like that rule and is not
    refused by a deployment exactly if the rule matches on a single condition. -/
theorem stored_deploys_iff_leaf (env : AiEnv) (hlower : LowerKeepsSmall env.rt)
    (call : ChatCall) (proposals : List Entries) (store store' : SuggestionStore)
    (result : AISuggestResult)
    (hgenerate : generate env call proposals store = .ok (store', result)) (s : RuleSuggestion)
    (hs : s ∈ store'.suggestions) (hnew : s ∉ store.suggestions) :
    ∃ d : RuleDefinition,
      (∃ proposal ∈ proposals, modelValidate env.py env.rt (definitionOf proposal) = some d) ∧
      s.definition = modelDump d ∧ d.actions.any Action.isDelete = false ∧
      (((∃ d', modelValidate env.py env.rt s.definition = some d' ∧
            ∀ input, evaluate env.rt d' input = evaluate env.rt d input) ∧
          deploySuggestion env store' s.id .unchanged ≠ .error .invalidDefinition) ↔
        ∃ c, d.match_ = .condition c) := by
  obtain ⟨hpending, d, hproposal, hdump, hkeep⟩ := generate_added hlower hgenerate hs hnew
  refine ⟨d, hproposal, hdump, hkeep, ?_⟩
  rw [ne_eq, deploy_invalid_iff hs hpending, hdump]
  constructor
  · rintro ⟨⟨d', hvalidate, -⟩, -⟩
    by_contra hgroup
    rw [modelValidate_dump_group env.py hlower hgroup] at hvalidate
    cases hvalidate
  · rintro ⟨c, hmatch⟩
    rw [modelValidate_dump_condition env.py hlower hmatch]
    exact ⟨⟨d, rfl, fun _ => rfl⟩, Option.some_ne_none d⟩

/-! ### A proposal with a group -/

/-- An environment whose names need no conversion. -/
def plainEnv : AiEnv where
  rt := ⟨id, fun _ _ => .notFound⟩
  py :=
    { toInt := fun | .int n => some n | _ => none
      toBool := fun | .bool b => some b | _ => none
      toInt_int := fun _ => rfl
      toBool_bool := fun _ => rfl }
  str := fun | .str s => s | _ => "None"
  digest := fun _ => "0123456789abcdef"
  newId := fun n => "id" ++ toString n
  nowShort := "now"
  str_str := fun _ => rfl

theorem plainEnv_lower : LowerKeepsSmall plainEnv.rt := fun _ _ => rfl

def openai : ChatCall := ⟨"openai", "i1", "m"⟩

def noSuggestions : SuggestionStore := ⟨.empty, List.nodup_nil, .empty, List.nodup_nil⟩

/-- `extension eq avi` as the provider writes it. -/
def aviLeaf : PyValue :=
  .dict [("field", .str "extension"), ("op", .str "eq"), ("value", .str "avi")]

/-- A proposal that tags what a match tree matches. -/
def tagProposal (match_ : PyValue) : Entries :=
  [("definition", .dict [("match", match_),
    ("actions", .list [.dict [("type", .str "add_tag"), ("tag", .str "old")]])])]

/-- The row stored for a proposal that is accepted as the first one. -/
def firstRow (d : RuleDefinition) (proposal : Entries) : RuleSuggestion :=
  newSuggestion plainEnv openai 0 proposal (modelDump d)

/-- The rule `extension eq avi`, alone or in a group. -/
def tagRule (match_ : Match) (hgroups : match_.groupsNonempty = true) : RuleDefinition where
  match_ := match_
  actions := [.addTag "old"]
  acknowledgedDestructive := false
  groups_nonempty := hgroups
  actions_nonempty := List.cons_ne_nil _ _
  lengths_allowed := by decide
  destructive_ack := rfl

def aviCondition : Condition := ⟨.extension, .eq, .str "avi", by decide, rfl⟩

/-- The store after a call whose one proposal is accepted. -/
def oneSuggestion (d : RuleDefinition) (proposal : Entries) : SuggestionStore :=
  ⟨⟨[firstRow d proposal], List.nodup_singleton _⟩, List.nodup_singleton _, .empty, List.nodup_nil⟩

def leafRule : RuleDefinition := tagRule (.condition aviCondition) rfl

def groupRule : RuleDefinition := tagRule (.allOf [.condition aviCondition]) rfl

def groupProposal : Entries := tagProposal (.dict [("all", .list [aviLeaf])])

theorem generate_leaf :
    generate plainEnv openai [tagProposal aviLeaf] noSuggestions =
      .ok (oneSuggestion leafRule (tagProposal aviLeaf), ⟨1, 1, 0, "openai", "i1"⟩) := rfl

theorem generate_group :
    generate plainEnv openai [groupProposal] noSuggestions =
      .ok (oneSuggestion groupRule groupProposal, ⟨1, 1, 0, "openai", "i1"⟩) := rfl

theorem stored_deploys_iff_leaf_avi :
    ∃ d : RuleDefinition,
      (firstRow leafRule (tagProposal aviLeaf)).definition = modelDump d ∧
      (((∃ d', modelValidate plainEnv.py plainEnv.rt
              (firstRow leafRule (tagProposal aviLeaf)).definition = some d' ∧
            ∀ input, evaluate plainEnv.rt d' input = evaluate plainEnv.rt d input) ∧
          deploySuggestion plainEnv (oneSuggestion leafRule (tagProposal aviLeaf))
            (firstRow leafRule (tagProposal aviLeaf)).id .unchanged ≠
              .error .invalidDefinition) ↔
        ∃ c, d.match_ = .condition c) := by
  obtain ⟨d, -, hdump, -, hiff⟩ := stored_deploys_iff_leaf plainEnv plainEnv_lower openai
    [tagProposal aviLeaf] noSuggestions (oneSuggestion leafRule (tagProposal aviLeaf)) _
    generate_leaf _ (List.mem_singleton.mpr rfl) (Table.not_mem_empty _)
  exact ⟨d, hdump, hiff⟩

/-- The group around the condition is stored under the key `all_`, which the schema does
    not know. -/
theorem group_not_deployable :
    ¬ ∀ (env : AiEnv) (call : ChatCall) (proposals : List Entries)
      (store store' : SuggestionStore) (result : AISuggestResult), LowerKeepsSmall env.rt →
      generate env call proposals store = .ok (store', result) →
      ∀ s ∈ store'.suggestions, s ∉ store.suggestions →
        (∃ d', modelValidate env.py env.rt s.definition = some d') ∧
          deploySuggestion env store' s.id .unchanged ≠ .error .invalidDefinition := by
  intro hall
  obtain ⟨⟨d', hvalidate⟩, -⟩ := hall plainEnv openai [groupProposal] noSuggestions _ _
    plainEnv_lower generate_group _ (List.mem_singleton.mpr rfl) (Table.not_mem_empty _)
  have hgroup : ¬∃ c, groupRule.match_ = .condition c := by
    rintro ⟨c, h⟩
    cases h
  have hrefused := modelValidate_dump_group plainEnv.py plainEnv_lower hgroup
  change modelValidate plainEnv.py plainEnv.rt (modelDump groupRule) = _ at hvalidate
  rw [hrefused] at hvalidate
  cases hvalidate

end AiSuggestions
