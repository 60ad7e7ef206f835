/-
  Auditarr/RuleAggregation.lean
  =============================
  **The decision for a file does not depend on the order of its rules.**

  `evaluate_file` folds the results of the rules into one aggregate, starting
  from severity ok.  The aggregate is a record of lists built by appending, so two
  orders of the same rules give different records; what the service does with
  the record depends only on its `decision`: the rank, and sets and multisets in
  place of the lists.  Merging decisions is commutative and associative, and
  `decision` takes `mergeInto` to it.
-/
import Auditarr.RuleEvaluator
import Mathlib.Algebra.Order.Group.Multiset
import Mathlib.Data.Finset.Lattice.Lemmas

namespace RuleAggregation

open PyValues RuleSchema RuleEvaluator

/-! ### The fold -/

/-- The aggregate before any rule. -/
def aggregateStart : EvaluationResult where
  __ := EvaluationResult.fresh false
  severity := some .ok
  severityRank := SEVERITY_LEVELS .ok

/-- A result that did not match is skipped. -/
def absorb (aggregate result : EvaluationResult) : EvaluationResult :=
  if result.matched then result.mergeInto aggregate else aggregate

/-- The loop of `evaluate_file` without its database writes. -/
def aggregateRules (rt : PyRuntime) (input : EvaluationInput) :
    EvaluationResult → List RuleDefinition → Except PyError EvaluationResult
  | aggregate, [] => .ok aggregate
  | aggregate, definition :: rest => do
      let result ← evaluate rt definition input
      aggregateRules rt input (absorb aggregate result) rest

theorem aggregateRules_of_evaluable {rt : PyRuntime} {input : EvaluationInput}
    {rules : List RuleDefinition}
    (hrules : ∀ d ∈ rules, evaluable rt input d.match_ = true) (aggregate : EvaluationResult) :
    aggregateRules rt input aggregate rules =
      .ok (rules.foldl (fun agg d => absorb agg (outcome rt d input)) aggregate) := by
  induction rules generalizing aggregate with
  | nil => rfl
  | cons d rest ih =>
    rw [aggregateRules, evaluate_of_evaluable (hrules d (by simp))]
    exact ih (fun d' hd' => hrules d' (by simp [hd'])) _

theorem aggregateRules_returns_iff (rt : PyRuntime) (input : EvaluationInput)
    (rules : List RuleDefinition) (aggregate : EvaluationResult) :
    (∃ result, aggregateRules rt input aggregate rules = .ok result) ↔
      ∀ d ∈ rules, evaluable rt input d.match_ = true := by
  refine ⟨?_, fun h => ⟨_, aggregateRules_of_evaluable h aggregate⟩⟩
  induction rules generalizing aggregate with
  | nil => simp
  | cons d rest ih =>
    rintro ⟨result, hresult⟩
    cases hd : evaluate rt d input with
    | error e => rw [aggregateRules, hd] at hresult; cases hresult
    | ok first =>
      rw [aggregateRules, hd] at hresult
      intro d' hd'
      rcases List.mem_cons.mp hd' with rfl | hrest
      · exact (evaluate_returns_iff rt d' input).mp ⟨first, hd⟩
      · exact ih _ ⟨result, hresult⟩ d' hrest

/-! ### Labels and ranks -/

/-- A result carries the rank of its label, zero without one. -/
def LabelMatchesRank (result : EvaluationResult) : Prop :=
  result.severityRank = result.severity.elim 0 SEVERITY_LEVELS

theorem label_eq_of_rank_eq {left right : EvaluationResult} (hleft : LabelMatchesRank left)
    (hright : LabelMatchesRank right) (hrank : left.severityRank = right.severityRank) :
    left.severity = right.severity := by
  unfold LabelMatchesRank at hleft hright
  rw [hleft, hright] at hrank
  cases hl : left.severity with
  | none =>
    cases hr : right.severity with
    | none => rfl
    | some s => rw [hl, hr] at hrank; cases s <;> cases hrank
  | some s =>
    cases hr : right.severity with
    | none => rw [hl, hr] at hrank; cases s <;> cases hrank
    | some t =>
      rw [hl, hr] at hrank
      rw [SEVERITY_LEVELS_injective hrank]

theorem LabelMatchesRank.applyAction {result : EvaluationResult} (h : LabelMatchesRank result)
    (input : EvaluationInput) (action : Action) :
    LabelMatchesRank (applyAction input result action) := by
  cases action with
  | setSeverity severity =>
    by_cases hrank : result.severityRank < SEVERITY_LEVELS severity
    · simp only [RuleEvaluator.applyAction, hrank, if_true]; rfl
    · simp only [RuleEvaluator.applyAction, hrank, if_false]; exact h
  | addTag tag =>
    by_cases htag : tag ∈ result.addTags
    · simp only [RuleEvaluator.applyAction, htag, if_true]; exact h
    · simp only [RuleEvaluator.applyAction, htag, if_false]; exact h
  | _ => exact h

theorem LabelMatchesRank.outcome (rt : PyRuntime) (d : RuleDefinition) (input : EvaluationInput) :
    LabelMatchesRank (outcome rt d input) := by
  have hactions : ∀ (actions : List Action) (result : EvaluationResult),
      LabelMatchesRank result → LabelMatchesRank (actions.foldl (RuleEvaluator.applyAction input) result) := by
    intro actions
    induction actions with
    | nil => exact fun _ h => h
    | cons action rest ih => exact fun _ h => ih _ (h.applyAction input action)
  unfold RuleEvaluator.outcome
  split
  · exact hactions d.actions _ rfl
  · rfl

/-- Under a rank that agrees with its label the two conditions of `mergeInto` are
    one. -/
theorem severityRank_mergeInto {self : EvaluationResult} (hself : LabelMatchesRank self)
    (other : EvaluationResult) :
    (self.mergeInto other).severityRank = max other.severityRank self.severityRank := by
  unfold LabelMatchesRank at hself
  cases hlabel : self.severity with
  | none =>
    rw [hlabel] at hself
    simp [EvaluationResult.mergeInto, hlabel, hself]
  | some severity =>
    simp only [EvaluationResult.mergeInto, hlabel, Option.isSome_some, true_and]
    split <;> omega

theorem LabelMatchesRank.mergeInto {self other : EvaluationResult} (hself : LabelMatchesRank self)
    (hother : LabelMatchesRank other) : LabelMatchesRank (self.mergeInto other) := by
  unfold LabelMatchesRank EvaluationResult.mergeInto
  by_cases h : self.severity.isSome ∧ other.severityRank < self.severityRank
  · simp only [h, and_self, if_true]; exact hself
  · simp only [h, if_false]; exact hother

theorem LabelMatchesRank.absorb {aggregate result : EvaluationResult}
    (haggregate : LabelMatchesRank aggregate) (hresult : LabelMatchesRank result) :
    LabelMatchesRank (absorb aggregate result) := by
  unfold RuleAggregation.absorb
  split
  · exact hresult.mergeInto haggregate
  · exact haggregate

/-! ### Decisions -/

/-- What the service acts on, the orders of the lists forgotten. -/
@[ext] structure Decision where
  rank : Nat
  tags : Finset String
  profiles : Multiset String
  notifications : Multiset Notification
  deletePaths : Multiset String
  deleteReasons : Multiset String
  vtLookup : Bool
  searchIntegrations : Finset String

def Decision.merge (left right : Decision) : Decision where
  rank := max left.rank right.rank
  tags := left.tags ∪ right.tags
  profiles := left.profiles + right.profiles
  notifications := left.notifications + right.notifications
  deletePaths := left.deletePaths + right.deletePaths
  deleteReasons := left.deleteReasons + right.deleteReasons
  vtLookup := left.vtLookup || right.vtLookup
  searchIntegrations := left.searchIntegrations ∪ right.searchIntegrations

theorem Decision.merge_right_comm (d left right : Decision) :
    (d.merge left).merge right = (d.merge right).merge left := by
  ext1
  · exact max_right_comm ..
  · exact Finset.union_right_comm ..
  · exact add_right_comm d.profiles left.profiles right.profiles
  · exact add_right_comm d.notifications left.notifications right.notifications
  · exact add_right_comm d.deletePaths left.deletePaths right.deletePaths
  · exact add_right_comm d.deleteReasons left.deleteReasons right.deleteReasons
  · exact Bool.or_right_comm ..
  · exact Finset.union_right_comm ..

/-- The decision a result stands for. -/
def decision (result : EvaluationResult) : Decision where
  rank := result.severityRank
  tags := result.addTags.toFinset
  profiles := result.queueOptimizations
  notifications := result.notifications
  deletePaths := result.deletePaths
  deleteReasons := result.deleteReasons
  vtLookup := result.vtLookupRequested
  searchIntegrations := (result.searchUpstreamRequests.map (·.integrationId)).toFinset

theorem mem_addNewTags (tag : String) (tags more : List String) :
    tag ∈ addNewTags tags more ↔ tag ∈ tags ∨ tag ∈ more := by
  induction more generalizing tags with
  | nil => simp [addNewTags]
  | cons t rest ih =>
    by_cases ht : t ∈ tags
    · simp only [addNewTags, ht, if_true, ih, List.mem_cons]
      refine ⟨?_, ?_⟩
      · rintro (h | h)
        · exact .inl h
        · exact .inr (.inr h)
      · rintro (h | rfl | h)
        · exact .inl h
        · exact .inl ht
        · exact .inr h
    · simp only [addNewTags, ht, if_false, ih, List.mem_append, List.mem_cons, List.not_mem_nil,
        or_false, or_assoc]

theorem decision_mergeInto {self : EvaluationResult} (hself : LabelMatchesRank self)
    (other : EvaluationResult) :
    decision (self.mergeInto other) = (decision other).merge (decision self) := by
  ext1
  · exact severityRank_mergeInto hself other
  · ext tag
    simp [decision, Decision.merge, EvaluationResult.mergeInto, mem_addNewTags]
  all_goals simp [decision, Decision.merge, EvaluationResult.mergeInto]

/-- What one rule adds to the decision for a file. -/
def decideRule (rt : PyRuntime) (input : EvaluationInput) (d : Decision)
    (definition : RuleDefinition) : Decision :=
  if (outcome rt definition input).matched then d.merge (decision (outcome rt definition input))
  else d

instance (rt : PyRuntime) (input : EvaluationInput) :
    RightCommutative (decideRule rt input) where
  right_comm d left right := by
    unfold decideRule
    split <;> split <;> first | rfl | exact d.merge_right_comm _ _

theorem decision_foldl_absorb (rt : PyRuntime) (input : EvaluationInput)
    (rules : List RuleDefinition) (aggregate : EvaluationResult) :
    decision (rules.foldl (fun agg d => absorb agg (outcome rt d input)) aggregate) =
      rules.foldl (decideRule rt input) (decision aggregate) := by
  induction rules generalizing aggregate with
  | nil => rfl
  | cons d rest ih =>
    have hstep : decision (absorb aggregate (outcome rt d input)) =
        decideRule rt input (decision aggregate) d := by
      unfold absorb decideRule
      split
      · exact decision_mergeInto (LabelMatchesRank.outcome rt d input) aggregate
      · rfl
    simp only [List.foldl_cons, ih, hstep]

theorem LabelMatchesRank.foldl_absorb (rt : PyRuntime) (input : EvaluationInput)
    (rules : List RuleDefinition) {aggregate : EvaluationResult}
    (haggregate : LabelMatchesRank aggregate) :
    LabelMatchesRank (rules.foldl (fun agg d => RuleAggregation.absorb agg (RuleEvaluator.outcome rt d input)) aggregate) := by
  induction rules generalizing aggregate with
  | nil => exact haggregate
  | cons d rest ih => exact ih (haggregate.absorb (LabelMatchesRank.outcome rt d input))

/-! ### The rank of the decision -/

/-- The ranks of the `set_severity` actions of a rule. -/
def setSeverityRanks (actions : List Action) : List Nat :=
  actions.filterMap fun action => match action with
    | .setSeverity severity => some (SEVERITY_LEVELS severity)
    | _ => none

/-- The `set_severity` ranks of the rules that match the file. -/
def matchingRanks (rt : PyRuntime) (input : EvaluationInput) (rules : List RuleDefinition) :
    List Nat :=
  (rules.filter fun d => verdict rt input d.match_).flatMap fun d => setSeverityRanks d.actions

theorem severityRank_applyAction (input : EvaluationInput) (result : EvaluationResult)
    (action : Action) :
    (applyAction input result action).severityRank =
      (setSeverityRanks [action]).foldl max result.severityRank := by
  cases action with
  | setSeverity severity =>
    by_cases hrank : result.severityRank < SEVERITY_LEVELS severity
    · simp only [applyAction, hrank, if_true]
      exact (max_eq_right hrank.le).symm
    · simp only [applyAction, hrank, if_false]
      exact (max_eq_left (not_lt.mp hrank)).symm
  | addTag tag =>
    by_cases htag : tag ∈ result.addTags
    · simp only [applyAction, htag, if_true]; rfl
    · simp only [applyAction, htag, if_false]; rfl
  | _ => rfl

theorem severityRank_applyActions (input : EvaluationInput) (actions : List Action)
    (result : EvaluationResult) :
    (actions.foldl (applyAction input) result).severityRank =
      (setSeverityRanks actions).foldl max result.severityRank := by
  induction actions generalizing result with
  | nil => rfl
  | cons action rest ih =>
    have hsplit : setSeverityRanks (action :: rest) =
        setSeverityRanks [action] ++ setSeverityRanks rest := List.filterMap_append (l := [action])
    rw [List.foldl_cons, ih, severityRank_applyAction, hsplit, List.foldl_append]

theorem max_foldl_max (a b : Nat) (ranks : List Nat) :
    max a (ranks.foldl max b) = ranks.foldl max (max a b) := by
  induction ranks generalizing b with
  | nil => rfl
  | cons r rest ih => rw [List.foldl_cons, ih, List.foldl_cons, max_assoc]

theorem severityRank_foldl_absorb (rt : PyRuntime) (input : EvaluationInput)
    (rules : List RuleDefinition) (aggregate : EvaluationResult) :
    (rules.foldl (fun agg d => absorb agg (outcome rt d input)) aggregate).severityRank =
      (matchingRanks rt input rules).foldl max aggregate.severityRank := by
  induction rules generalizing aggregate with
  | nil => rfl
  | cons d rest ih =>
    rw [List.foldl_cons, ih]
    cases hverdict : verdict rt input d.match_ with
    | false =>
      have hout : outcome rt d input = .fresh false := by simp [outcome, hverdict]
      simp only [matchingRanks, List.filter_cons, hverdict, hout]
      rfl
    | true =>
      have hout : outcome rt d input = d.actions.foldl (applyAction input) (.fresh true) := by
        simp [outcome, hverdict]
      have hmatched : (outcome rt d input).matched = true := by rw [outcome_matched, hverdict]
      have hrank : (absorb aggregate (outcome rt d input)).severityRank =
          (setSeverityRanks d.actions).foldl max aggregate.severityRank := by
        rw [absorb, if_pos hmatched, severityRank_mergeInto (LabelMatchesRank.outcome rt d input),
          hout, severityRank_applyActions, max_foldl_max]
        exact congrArg (fun start => (setSeverityRanks d.actions).foldl max start) (Nat.max_zero _)
      simp only [matchingRanks, List.filter_cons, hverdict, if_true, List.flatMap_cons,
        List.foldl_append, hrank]

/-! ### Order independence -/

/-- Two aggregates that make the service do the same. -/
structure SameDecision (left right : EvaluationResult) : Prop where
  severity : left.severity = right.severity
  severityRank : left.severityRank = right.severityRank
  tags : ∀ tag, tag ∈ left.addTags ↔ tag ∈ right.addTags
  deletes : left.deletePaths = [] ↔ right.deletePaths = []
  deletePaths : left.deletePaths.Perm right.deletePaths
  deleteReasons : left.deleteReasons.Perm right.deleteReasons
  vtLookup : left.vtLookupRequested = right.vtLookupRequested
  searchIntegrations : ∀ id, id ∈ left.searchUpstreamRequests.map (·.integrationId) ↔
    id ∈ right.searchUpstreamRequests.map (·.integrationId)
  profiles : left.queueOptimizations.Perm right.queueOptimizations
  notifications : left.notifications.Perm right.notifications

theorem sameDecision_of_decision_eq {left right : EvaluationResult}
    (hleft : LabelMatchesRank left) (hright : LabelMatchesRank right)
    (hdecision : decision left = decision right) : SameDecision left right := by
  have hrank : left.severityRank = right.severityRank := congrArg Decision.rank hdecision
  have hpaths : left.deletePaths.Perm right.deletePaths :=
    Multiset.coe_eq_coe.mp (congrArg Decision.deletePaths hdecision)
  constructor
  · exact label_eq_of_rank_eq hleft hright hrank
  · exact hrank
  · intro tag
    rw [← List.mem_toFinset, ← List.mem_toFinset]
    exact iff_of_eq (congrArg (tag ∈ Decision.tags ·) hdecision)
  · exact ⟨fun h => (h ▸ hpaths).symm.eq_nil, fun h => (h ▸ hpaths).eq_nil⟩
  · exact hpaths
  · exact Multiset.coe_eq_coe.mp (congrArg Decision.deleteReasons hdecision)
  · exact congrArg Decision.vtLookup hdecision
  · intro id
    rw [← List.mem_toFinset, ← List.mem_toFinset]
    exact iff_of_eq (congrArg (id ∈ Decision.searchIntegrations ·) hdecision)
  · exact Multiset.coe_eq_coe.mp (congrArg Decision.profiles hdecision)
  · exact Multiset.coe_eq_coe.mp (congrArg Decision.notifications hdecision)

theorem aggregate_order_independent (rt : PyRuntime) (input : EvaluationInput)
    (rules reordered : List RuleDefinition) (hperm : rules.Perm reordered) :
    match aggregateRules rt input aggregateStart rules,
      aggregateRules rt input aggregateStart reordered with
    | .ok aggregate, .ok aggregate' =>
        SameDecision aggregate aggregate' ∧
          aggregate.severityRank =
            (matchingRanks rt input rules).foldl max (SEVERITY_LEVELS .ok)
    | .error _, .error _ => True
    | _, _ => False := by
  have hmem : (∀ d ∈ rules, evaluable rt input d.match_ = true) ↔
      ∀ d ∈ reordered, evaluable rt input d.match_ = true :=
    ⟨fun h d hd => h d (hperm.mem_iff.mpr hd), fun h d hd => h d (hperm.mem_iff.mp hd)⟩
  by_cases hall : ∀ d ∈ rules, evaluable rt input d.match_ = true
  · rw [aggregateRules_of_evaluable hall, aggregateRules_of_evaluable (hmem.mp hall)]
    refine ⟨?_, severityRank_foldl_absorb rt input rules aggregateStart⟩
    refine sameDecision_of_decision_eq (LabelMatchesRank.foldl_absorb rt input rules rfl)
      (LabelMatchesRank.foldl_absorb rt input reordered rfl) ?_
    rw [decision_foldl_absorb, decision_foldl_absorb, hperm.foldl_eq]
  · have hreturns := aggregateRules_returns_iff rt input rules aggregateStart
    have hreturns' := aggregateRules_returns_iff rt input reordered aggregateStart
    cases hres : aggregateRules rt input aggregateStart rules with
    | ok aggregate => exact absurd (hreturns.mp ⟨aggregate, hres⟩) hall
    | error e =>
      cases hres' : aggregateRules rt input aggregateStart reordered with
      | ok aggregate => exact absurd (hmem.mpr (hreturns'.mp ⟨aggregate, hres'⟩)) hall
      | error e' => trivial

/-- Two rules that match every `avi` file, in both orders. -/
theorem aggregate_order_independent_avi :
    let rt : PyRuntime := ⟨id, fun _ _ => .notFound⟩
    let input := EvaluationInput.unprobed "f1" "/media/a.avi" "avi"
    let warn := simpleRule .extension .eq (.str "avi") (.setSeverity .warn) (by decide) rfl rfl rfl
    let tag := simpleRule .extension .ne (.str "mkv") (.addTag "legacy") (by decide) rfl rfl rfl
    match aggregateRules rt input aggregateStart [warn, tag],
      aggregateRules rt input aggregateStart [tag, warn] with
    | .ok aggregate, .ok aggregate' =>
        SameDecision aggregate aggregate' ∧
          aggregate.severityRank =
            (matchingRanks rt input [warn, tag]).foldl max (SEVERITY_LEVELS .ok)
    | .error _, .error _ => True
    | _, _ => False := by
  intro rt input warn tag
  exact aggregate_order_independent rt input [warn, tag] [tag, warn] (List.Perm.swap tag warn [])

end RuleAggregation
