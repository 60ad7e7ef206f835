/-
  Auditarr/RuleEvaluator.lean
  ===========================
  **The rule evaluator** (`app/rules/evaluator.py`).

  `evaluate` applies one rule to the data of one file and returns the actions the
  rule would take; `mergeInto` folds such results into the decision for the file.
  Nothing here reads or writes the database.

  The value of a condition is untyped, so a comparison can raise.  The second
  half of the module says exactly when one does: `verdict` is what a match tree
  means when a comparison that cannot be made counts as no match, and `evaluable`
  that every condition the short-circuit order reaches can be compared.
-/
import Auditarr.RuleSchema
import Auditarr.LanguageNormalize

namespace RuleEvaluator

open PyValues RuleSchema LanguageNormalize

/-- Everything the evaluator needs to know about one file. -/
structure EvaluationInput where
  mediaFileId : String
  path : String
  filename : String
  extension : String
  category : String
  container : Option String
  videoCodec : Option String
  audioCodec : Option String
  subtitleCodec : Option String
  width : Option Int
  height : Option Int
  durationSeconds : Option PyFloat
  bitrateKbps : Option Int
  framerate : Option PyFloat
  sizeBytes : Int
  hasSubtitles : Bool
  isOrphaned : Bool
  subtitleLanguages : List String
  audioLanguages : List String
  tags : List String
  probeFailed : Bool
  vtStatus : Option String

/-- The input of a file that was never probed. -/
def EvaluationInput.unprobed (mediaFileId path extension : String) : EvaluationInput where
  mediaFileId := mediaFileId
  path := path
  filename := path
  extension := extension
  category := "unknown"
  container := none
  videoCodec := none
  audioCodec := none
  subtitleCodec := none
  width := none
  height := none
  durationSeconds := none
  bitrateKbps := none
  framerate := none
  sizeBytes := 0
  hasSubtitles := false
  isOrphaned := false
  subtitleLanguages := []
  audioLanguages := []
  tags := []
  probeFailed := false
  vtStatus := none

/-- `getattr(input_, field)`. -/
def EvaluationInput.get (input : EvaluationInput) : Field → PyValue
  | .filename => .str input.filename
  | .extension => .str input.extension
  | .category => .str input.category
  | .container => .ofOption .str input.container
  | .videoCodec => .ofOption .str input.videoCodec
  | .audioCodec => .ofOption .str input.audioCodec
  | .subtitleCodec => .ofOption .str input.subtitleCodec
  | .width => .ofOption .int input.width
  | .height => .ofOption .int input.height
  | .durationSeconds => .ofOption .float input.durationSeconds
  | .bitrateKbps => .ofOption .int input.bitrateKbps
  | .framerate => .ofOption .float input.framerate
  | .sizeBytes => .int input.sizeBytes
  | .hasSubtitles => .bool input.hasSubtitles
  | .isOrphaned => .bool input.isOrphaned
  | .subtitleLanguages => .ofStrings input.subtitleLanguages
  | .audioLanguages => .ofStrings input.audioLanguages
  | .tags => .ofStrings input.tags
  | .probeFailed => .bool input.probeFailed
  | .vtStatus => .ofOption .str input.vtStatus

/-! ### Conditions -/

/-- `_as_number(actual) <op> _as_number(expected)`. -/
def compareNumbers (test : PyFloat → PyFloat → Bool) (actual expected : PyValue) :
    Except PyError Bool := do
  let a ← actual.toFloat
  let e ← expected.toFloat
  return test a e

/-- `any(item in container for item in items)`. -/
def anyIn (container : PyValue) : List PyValue → Except PyError Bool
  | [] => .ok false
  | item :: rest => do
      if ← item.isIn container then return true
      anyIn container rest

/-- `expected if isinstance(expected, list) else [expected]`. -/
def asItems : PyValue → List PyValue
  | .list items => items
  | v => [v]

/-- The operators that need a value: without one there is no match. -/
def ifPresent (actual : PyValue) (result : Except PyError Bool) : Except PyError Bool :=
  match actual with
  | .none => .ok false
  | _ => result

/-- The `regex` operator; only `re.error` is caught. -/
def searchRegex (rt : PyRuntime) : PyValue → PyValue → Except PyError Bool
  | .str actual, .str expected => match rt.reSearch expected actual with
    | .found => .ok true
    | .notFound => .ok false
    | .reError => .ok false
    | .raised e => .error e
  | _, _ => .ok false

/-- `_apply_op`. -/
def applyOp (rt : PyRuntime) (op : Op) (actual expected : PyValue) : Except PyError Bool :=
  match op with
  | .eq => .ok (actual.eq expected)
  | .ne => .ok !(actual.eq expected)
  | .lt => ifPresent actual (compareNumbers PyFloat.lt actual expected)
  | .lte => ifPresent actual (compareNumbers PyFloat.le actual expected)
  | .gt => ifPresent actual (compareNumbers (fun a e => PyFloat.lt e a) actual expected)
  | .gte => ifPresent actual (compareNumbers (fun a e => PyFloat.le e a) actual expected)
  | .in_ => ifPresent actual (actual.isIn expected.orEmpty)
  | .regex => ifPresent actual (searchRegex rt actual expected)
  | .contains => ifPresent actual (expected.isIn actual.orEmpty)
  | .notContains => ifPresent actual (do return !(← expected.isIn actual.orEmpty))
  | .anyOf => ifPresent actual (anyIn actual.orEmpty (asItems expected))
  | .noneOf => ifPresent actual (do return !(← anyIn actual.orEmpty (asItems expected)))

/-- The value of a language condition with every language in it normalized. -/
def expectedLanguages (rt : PyRuntime) : PyValue → PyValue
  | .list items => .ofStrings (items.filterMap fun item => match item with
    | .str s => normalizeLanguage rt s
    | _ => none)
  | .str s => .ofOption .str (normalizeLanguage rt s)
  | v => v

/-- `_eval_condition`.  The two language fields compare normalized lists, every
    other field compares exactly. -/
def evalCondition (rt : PyRuntime) (c : Condition) (input : EvaluationInput) :
    Except PyError Bool :=
  match c.field with
  | .audioLanguages =>
      applyOp rt c.op (.ofStrings (normalizeLanguages rt input.audioLanguages))
        (expectedLanguages rt c.value)
  | .subtitleLanguages =>
      applyOp rt c.op (.ofStrings (normalizeLanguages rt input.subtitleLanguages))
        (expectedLanguages rt c.value)
  | field => applyOp rt c.op (input.get field) c.value

/-! ### Match trees -/

mutual

/-- `_match`. -/
def matchNode (rt : PyRuntime) (input : EvaluationInput) : Match → Except PyError Bool
  | .allOf all_ => matchAll rt input all_
  | .anyOf any_ => matchAny rt input any_
  | .condition c => evalCondition rt c input

/-- `all(_match(child) for child in children)`: stops at the first false one. -/
def matchAll (rt : PyRuntime) (input : EvaluationInput) : List Match → Except PyError Bool
  | [] => .ok true
  | m :: ms => do
      if ← matchNode rt input m then matchAll rt input ms else return false

/-- `any(_match(child) for child in children)`: stops at the first true one. -/
def matchAny (rt : PyRuntime) (input : EvaluationInput) : List Match → Except PyError Bool
  | [] => .ok false
  | m :: ms => do
      if ← matchNode rt input m then return true else matchAny rt input ms

end

/-! ### Results and actions -/

structure Notification where
  channel : String
  message : Option String
  throttle : Option NotifyThrottle
deriving DecidableEq

structure SearchRequest where
  target : SearchTarget
  integrationId : String
deriving DecidableEq

/-- What one rule, or all of them together, decided for one file.  The deleted
    paths and their reasons are paired by index. -/
structure EvaluationResult where
  matched : Bool
  severity : Option Severity
  severityRank : Nat
  addTags : List String
  queueOptimizations : List String
  notifications : List Notification
  deletePaths : List String
  deleteReasons : List String
  vtLookupRequested : Bool
  searchUpstreamRequests : List SearchRequest
deriving DecidableEq

/-- A result with the defaults of the data class. -/
def EvaluationResult.fresh (matched : Bool) : EvaluationResult where
  matched := matched
  severity := none
  severityRank := 0
  addTags := []
  queueOptimizations := []
  notifications := []
  deletePaths := []
  deleteReasons := []
  vtLookupRequested := false
  searchUpstreamRequests := []

/-- Append the tags that are not there yet. -/
def addNewTags (tags : List String) : List String → List String
  | [] => tags
  | tag :: rest => if tag ∈ tags then addNewTags tags rest else addNewTags (tags ++ [tag]) rest

/-- `_apply_action`. -/
def applyAction (input : EvaluationInput) (result : EvaluationResult) :
    Action → EvaluationResult
  | .setSeverity severity =>
      -- monotonic escalation: only an action that raises the rank is kept
      if result.severityRank < SEVERITY_LEVELS severity then
        { result with severity := some severity, severityRank := SEVERITY_LEVELS severity }
      else result
  | .addTag tag =>
      if tag ∈ result.addTags then result else { result with addTags := result.addTags ++ [tag] }
  | .queueOptimization profile =>
      { result with queueOptimizations := result.queueOptimizations ++ [profile] }
  | .notify channel message throttle =>
      { result with notifications := result.notifications ++ [⟨channel, message, throttle⟩] }
  | .delete reason =>
      { result with
        deletePaths := result.deletePaths ++ [input.path]
        deleteReasons := result.deleteReasons ++ [match reason with
          | some text => if text = "" then "Deleted by rule" else text
          | none => "Deleted by rule"] }
  | .vtLookup => { result with vtLookupRequested := true }
  | .searchUpstream target integrationId =>
      { result with
        searchUpstreamRequests := result.searchUpstreamRequests ++ [⟨target, integrationId⟩] }

/-- `evaluate`. -/
def evaluate (rt : PyRuntime) (definition : RuleDefinition) (input : EvaluationInput) :
    Except PyError EvaluationResult := do
  if ← matchNode rt input definition.match_ then
    return definition.actions.foldl (applyAction input) (.fresh true)
  else
    return .fresh false

/-- `self.merge_into(other)`. -/
def EvaluationResult.mergeInto (self other : EvaluationResult) : EvaluationResult where
  matched := other.matched
  severity :=
    if self.severity.isSome ∧ other.severityRank < self.severityRank then self.severity
    else other.severity
  severityRank :=
    if self.severity.isSome ∧ other.severityRank < self.severityRank then self.severityRank
    else other.severityRank
  addTags := addNewTags other.addTags self.addTags
  queueOptimizations := other.queueOptimizations ++ self.queueOptimizations
  notifications := other.notifications ++ self.notifications
  deletePaths := other.deletePaths ++ self.deletePaths
  deleteReasons := other.deleteReasons ++ self.deleteReasons
  vtLookupRequested := other.vtLookupRequested || self.vtLookupRequested
  searchUpstreamRequests := other.searchUpstreamRequests ++ self.searchUpstreamRequests

/-! ### When an evaluation raises -/

/-- `float(v)` returns: a number, a boolean, or a string spelling a number. -/
def isNumeral (v : PyValue) : Bool :=
  match v with
  | .bool _ | .float _ => true
  | .int n => (floatOfInt n).isSome
  | .str s => (floatOfStr s).isSome
  | _ => false

/-- `v in container` can be asked: of a list anything, of a string a string, of a
    dictionary anything hashable. -/
def canContain (container v : PyValue) : Bool :=
  match container, v with
  | .list _, _ | .str _, .str _ => true
  | .dict _, v => v.isHashable
  | _, _ => false

/-- The regular expression engine does not fail with anything but `re.error`. -/
def canSearch (rt : PyRuntime) : PyValue → PyValue → Bool
  | .str actual, .str expected => match rt.reSearch expected actual with
    | .raised _ => false
    | _ => true
  | _, _ => true

/-- The two values can be compared under the operator.  The set operators apply
    to list fields only, and a list can be asked for anything. -/
def comparable (rt : PyRuntime) (op : Op) (actual expected : PyValue) : Bool :=
  match op with
  | .eq | .ne | .contains | .notContains | .anyOf | .noneOf => true
  | .lt | .lte | .gt | .gte => actual.isNone || (isNumeral actual && isNumeral expected)
  | .in_ => actual.isNone || canContain expected.orEmpty actual
  | .regex => canSearch rt actual expected

/-- What a comparison means, `false` where it cannot be made. -/
def relates (rt : PyRuntime) (op : Op) (actual expected : PyValue) : Bool :=
  match op with
  | .eq => actual.eq expected
  | .ne => !actual.eq expected
  | .lt => numbersRelate PyFloat.lt
  | .lte => numbersRelate PyFloat.le
  | .gt => numbersRelate fun a e => PyFloat.lt e a
  | .gte => numbersRelate fun a e => PyFloat.le e a
  | .in_ => !actual.isNone && member expected.orEmpty actual
  | .regex => match actual, expected with
    | .str text, .str pattern => rt.reSearch pattern text == .found
    | _, _ => false
  | .contains => !actual.isNone && member actual.orEmpty expected
  | .notContains => !actual.isNone && !member actual.orEmpty expected
  | .anyOf => !actual.isNone && (asItems expected).any (member actual.orEmpty)
  | .noneOf => !actual.isNone && !(asItems expected).any (member actual.orEmpty)
where
  numbersRelate (test : PyFloat → PyFloat → Bool) : Bool :=
    match actual.toFloat, expected.toFloat with
    | .ok a, .ok e => test a e
    | _, _ => false
  member (container v : PyValue) : Bool :=
    match v.isIn container with
    | .ok found => found
    | .error _ => false

/-- The computation returns `answer` when it is `possible` and raises when it is
    not. -/
def Settles (possible answer : Bool) (computation : Except PyError Bool) : Prop :=
  (possible = true → computation = .ok answer) ∧
    (possible = false → ∃ e, computation = .error e)

theorem settles_ok (answer : Bool) : Settles true answer (.ok answer) :=
  ⟨fun _ => rfl, fun h => Bool.noConfusion h⟩

theorem Settles.not {possible answer : Bool} {computation : Except PyError Bool}
    (h : Settles possible answer computation) :
    Settles possible (!answer) (do return !(← computation)) := by
  refine ⟨fun hp => ?_, fun hp => ?_⟩
  · rw [h.1 hp]; rfl
  · obtain ⟨e, he⟩ := h.2 hp
    exact ⟨e, by rw [he]; rfl⟩

theorem Settles.of_possible {possible answer : Bool} {computation : Except PyError Bool}
    (h : Settles possible answer computation) (hp : possible = true) :
    Settles true answer computation := hp ▸ h

theorem settles_ifPresent {actual : PyValue} {possible answer : Bool}
    {computation : Except PyError Bool} (hnone : actual = .none → answer = false)
    (h : actual ≠ .none → Settles possible answer computation) :
    Settles (actual.isNone || possible) answer (ifPresent actual computation) := by
  cases actual with
  | none =>
    rw [hnone rfl]
    exact settles_ok false
  | _ => exact h (by simp)

theorem toFloat_cases (v : PyValue) :
    (isNumeral v = true ∧ ∃ x, v.toFloat = .ok x) ∨
      (isNumeral v = false ∧ ∃ e, v.toFloat = .error e) := by
  cases v with
  | bool _ | float _ => exact .inl ⟨rfl, _, rfl⟩
  | int n => cases hn : floatOfInt n <;> simp [isNumeral, PyValue.toFloat, hn]
  | str s => cases hs : floatOfStr s <;> simp [isNumeral, PyValue.toFloat, hs]
  | none | list _ | dict _ => exact .inr ⟨rfl, _, rfl⟩

theorem settles_compareNumbers (test : PyFloat → PyFloat → Bool) (actual expected : PyValue) :
    Settles (isNumeral actual && isNumeral expected)
      (relates.numbersRelate actual expected test) (compareNumbers test actual expected) := by
  rcases toFloat_cases actual with ⟨ha, a, hfa⟩ | ⟨ha, e, hfa⟩
  · rcases toFloat_cases expected with ⟨he, x, hfe⟩ | ⟨he, e, hfe⟩
    · simp only [ha, he, relates.numbersRelate, compareNumbers, hfa, hfe]
      exact settles_ok (test a x)
    · refine ⟨fun hp => by simp [he] at hp, fun _ => ⟨e, ?_⟩⟩
      simp only [compareNumbers, hfa, hfe]; rfl
  · refine ⟨fun hp => by simp [ha] at hp, fun _ => ⟨e, ?_⟩⟩
    simp only [compareNumbers, hfa]; rfl

theorem settles_isIn (v container : PyValue) :
    Settles (canContain container v) (relates.member container v) (v.isIn container) := by
  unfold relates.member
  cases container with
  | list items => cases v <;> exact settles_ok _
  | str text =>
    cases v with
    | str s => exact settles_ok _
    | _ => exact ⟨fun h => Bool.noConfusion h, fun _ => ⟨_, rfl⟩⟩
  | dict entries =>
    cases v with
    | list _ | dict _ => exact ⟨fun h => Bool.noConfusion h, fun _ => ⟨_, rfl⟩⟩
    | _ => exact settles_ok _
  | none | bool _ | int _ | float _ =>
    cases v <;> exact ⟨fun h => Bool.noConfusion h, fun _ => ⟨_, rfl⟩⟩

theorem canContain_ofStrings (ss : List String) (v : PyValue) :
    canContain (PyValue.ofStrings ss).orEmpty v = true := by
  cases ss <;> rfl

theorem settles_searchRegex (rt : PyRuntime) (actual expected : PyValue) :
    Settles (canSearch rt actual expected) (relates rt .regex actual expected)
      (searchRegex rt actual expected) := by
  cases actual with
  | str text =>
    cases expected with
    | str pattern =>
      cases hs : rt.reSearch pattern text with
      | raised e =>
        simp only [canSearch, searchRegex, hs]
        exact ⟨fun h => Bool.noConfusion h, fun _ => ⟨e, rfl⟩⟩
      | _ => simp only [canSearch, searchRegex, relates, hs]; exact settles_ok _
    | _ => exact settles_ok _
  | _ => exact settles_ok _

theorem settles_anyIn_ofStrings (ss : List String) (items : List PyValue) :
    Settles true (items.any (relates.member (PyValue.ofStrings ss).orEmpty))
      (anyIn (PyValue.ofStrings ss).orEmpty items) := by
  have hany : anyIn (PyValue.ofStrings ss).orEmpty items =
      .ok (items.any (relates.member (PyValue.ofStrings ss).orEmpty)) := by
    induction items with
    | nil => rfl
    | cons item rest ih =>
      have hitem := PyValue.isIn_orEmpty_ofStrings item ss
      simp only [anyIn, List.any_cons, relates.member, hitem, ih]
      cases (ss.map PyValue.str).any (item.eq ·) <;> rfl
  rw [hany]; exact settles_ok _

theorem settles_applyOp (rt : PyRuntime) (op : Op) (actual expected : PyValue)
    (hset : op ∈ SET_OPS → ∃ ss, actual = .ofStrings ss) :
    Settles (comparable rt op actual expected) (relates rt op actual expected)
      (applyOp rt op actual expected) := by
  have hnumbers : ∀ test, actual = .none →
      relates.numbersRelate actual expected test = false := by
    rintro test rfl; rfl
  cases op with
  | eq | ne => exact settles_ok _
  | lt => exact settles_ifPresent (hnumbers _) fun _ => settles_compareNumbers _ _ _
  | lte => exact settles_ifPresent (hnumbers _) fun _ => settles_compareNumbers _ _ _
  | gt => exact settles_ifPresent (hnumbers _) fun _ => settles_compareNumbers _ _ _
  | gte => exact settles_ifPresent (hnumbers _) fun _ => settles_compareNumbers _ _ _
  | in_ =>
    refine settles_ifPresent (by rintro rfl; rfl) fun hne => ?_
    have hsome : actual.isNone = false := by cases actual <;> first | rfl | exact absurd rfl hne
    simp only [relates, hsome, Bool.not_false, Bool.true_and]
    exact settles_isIn actual expected.orEmpty
  | regex =>
    have hregex := settles_searchRegex rt actual expected
    cases actual with
    | none => exact settles_ok false
    | _ => exact hregex
  | contains =>
    obtain ⟨ss, rfl⟩ := hset (by decide)
    exact (settles_isIn expected _).of_possible (canContain_ofStrings ss expected)
  | notContains =>
    obtain ⟨ss, rfl⟩ := hset (by decide)
    exact ((settles_isIn expected _).of_possible (canContain_ofStrings ss expected)).not
  | anyOf =>
    obtain ⟨ss, rfl⟩ := hset (by decide)
    exact settles_anyIn_ofStrings ss (asItems expected)
  | noneOf =>
    obtain ⟨ss, rfl⟩ := hset (by decide)
    exact (settles_anyIn_ofStrings ss (asItems expected)).not

/-- The two values a condition compares on a file. -/
def comparedValues (rt : PyRuntime) (c : Condition) (input : EvaluationInput) :
    PyValue × PyValue :=
  match c.field with
  | .audioLanguages =>
      (.ofStrings (normalizeLanguages rt input.audioLanguages), expectedLanguages rt c.value)
  | .subtitleLanguages =>
      (.ofStrings (normalizeLanguages rt input.subtitleLanguages), expectedLanguages rt c.value)
  | field => (input.get field, c.value)

theorem evalCondition_eq_applyOp (rt : PyRuntime) (c : Condition) (input : EvaluationInput) :
    evalCondition rt c input =
      applyOp rt c.op (comparedValues rt c input).1 (comparedValues rt c input).2 := by
  unfold evalCondition comparedValues
  cases c.field <;> rfl

theorem comparedValues_of_setOp (rt : PyRuntime) (c : Condition) (input : EvaluationInput)
    (hop : c.op ∈ SET_OPS) : ∃ ss, (comparedValues rt c input).1 = .ofStrings ss := by
  have hallowed := c.op_allowed
  unfold comparedValues
  revert hallowed hop
  generalize c.op = op
  cases c.field with
  | subtitleLanguages | audioLanguages | tags => exact fun _ _ => ⟨_, rfl⟩
  | _ =>
    -- every other field allows none of the set operators
    intro hop hallowed
    cases op <;> first | exact absurd hop (by decide) | exact absurd hallowed (by decide)

def conditionComparable (rt : PyRuntime) (input : EvaluationInput) (c : Condition) : Bool :=
  comparable rt c.op (comparedValues rt c input).1 (comparedValues rt c input).2

def conditionHolds (rt : PyRuntime) (input : EvaluationInput) (c : Condition) : Bool :=
  relates rt c.op (comparedValues rt c input).1 (comparedValues rt c input).2

theorem settles_evalCondition (rt : PyRuntime) (c : Condition) (input : EvaluationInput) :
    Settles (conditionComparable rt input c) (conditionHolds rt input c)
      (evalCondition rt c input) := by
  rw [evalCondition_eq_applyOp]
  exact settles_applyOp rt c.op _ _ (comparedValues_of_setOp rt c input)

mutual

/-- What a match tree means on a file, a comparison that cannot be made counting
    as no match. -/
def verdict (rt : PyRuntime) (input : EvaluationInput) : Match → Bool
  | .allOf all_ => verdictAll rt input all_
  | .anyOf any_ => verdictAny rt input any_
  | .condition c => conditionHolds rt input c

def verdictAll (rt : PyRuntime) (input : EvaluationInput) : List Match → Bool
  | [] => true
  | m :: ms => verdict rt input m && verdictAll rt input ms

def verdictAny (rt : PyRuntime) (input : EvaluationInput) : List Match → Bool
  | [] => false
  | m :: ms => verdict rt input m || verdictAny rt input ms

end

mutual

/-- Every condition that the evaluation of the tree reaches can be compared.  A
    group is left at the first item that decides it. -/
def evaluable (rt : PyRuntime) (input : EvaluationInput) : Match → Bool
  | .allOf all_ => evaluableAll rt input all_
  | .anyOf any_ => evaluableAny rt input any_
  | .condition c => conditionComparable rt input c

def evaluableAll (rt : PyRuntime) (input : EvaluationInput) : List Match → Bool
  | [] => true
  | m :: ms =>
      evaluable rt input m && (!verdict rt input m || evaluableAll rt input ms)

def evaluableAny (rt : PyRuntime) (input : EvaluationInput) : List Match → Bool
  | [] => true
  | m :: ms =>
      evaluable rt input m && (verdict rt input m || evaluableAny rt input ms)

end

theorem Settles.and {possible answer possible' answer' : Bool} {head tail : Except PyError Bool}
    (hhead : Settles possible answer head) (htail : Settles possible' answer' tail) :
    Settles (possible && (!answer || possible')) (answer && answer')
      (do if ← head then tail else return false) := by
  cases possible with
  | false =>
    obtain ⟨e, he⟩ := hhead.2 rfl
    exact ⟨fun h => Bool.noConfusion h, fun _ => ⟨e, by rw [he]; rfl⟩⟩
  | true =>
    rw [hhead.1 rfl]
    cases answer with
    | false => exact settles_ok false
    | true => exact htail

theorem Settles.or {possible answer possible' answer' : Bool} {head tail : Except PyError Bool}
    (hhead : Settles possible answer head) (htail : Settles possible' answer' tail) :
    Settles (possible && (answer || possible')) (answer || answer')
      (do if ← head then return true else tail) := by
  cases possible with
  | false =>
    obtain ⟨e, he⟩ := hhead.2 rfl
    exact ⟨fun h => Bool.noConfusion h, fun _ => ⟨e, by rw [he]; rfl⟩⟩
  | true =>
    rw [hhead.1 rfl]
    cases answer with
    | false => exact htail
    | true => exact settles_ok true

mutual

theorem settles_matchNode (rt : PyRuntime) (input : EvaluationInput) (m : Match) :
    Settles (evaluable rt input m) (verdict rt input m) (matchNode rt input m) := by
  cases m with
  | allOf all_ => exact settles_matchAll rt input all_
  | anyOf any_ => exact settles_matchAny rt input any_
  | condition c => exact settles_evalCondition rt c input

theorem settles_matchAll (rt : PyRuntime) (input : EvaluationInput) (ms : List Match) :
    Settles (evaluableAll rt input ms) (verdictAll rt input ms)
      (matchAll rt input ms) := by
  cases ms with
  | nil => exact settles_ok true
  | cons m ms => exact (settles_matchNode rt input m).and (settles_matchAll rt input ms)

theorem settles_matchAny (rt : PyRuntime) (input : EvaluationInput) (ms : List Match) :
    Settles (evaluableAny rt input ms) (verdictAny rt input ms)
      (matchAny rt input ms) := by
  cases ms with
  | nil => exact settles_ok false
  | cons m ms => exact (settles_matchNode rt input m).or (settles_matchAny rt input ms)

end

/-- The actions of a rule applied to a file it matches. -/
def outcome (rt : PyRuntime) (definition : RuleDefinition) (input : EvaluationInput) :
    EvaluationResult :=
  if verdict rt input definition.match_ then
    definition.actions.foldl (applyAction input) (.fresh true)
  else .fresh false

theorem applyAction_matched (input : EvaluationInput) (result : EvaluationResult)
    (action : Action) : (applyAction input result action).matched = result.matched := by
  cases action with
  | setSeverity _ | addTag _ => simp only [applyAction]; split <;> rfl
  | _ => rfl

theorem outcome_matched (rt : PyRuntime) (definition : RuleDefinition) (input : EvaluationInput) :
    (outcome rt definition input).matched = verdict rt input definition.match_ := by
  have hactions : ∀ (actions : List Action) (result : EvaluationResult),
      (actions.foldl (applyAction input) result).matched = result.matched := by
    intro actions
    induction actions with
    | nil => exact fun _ => rfl
    | cons action rest ih => exact fun result => (ih _).trans (applyAction_matched input result action)
  unfold outcome
  cases verdict rt input definition.match_ with
  | true => exact hactions _ _
  | false => rfl

theorem evaluate_of_evaluable {rt : PyRuntime} {definition : RuleDefinition}
    {input : EvaluationInput} (h : evaluable rt input definition.match_ = true) :
    evaluate rt definition input = .ok (outcome rt definition input) := by
  have hmatch := (settles_matchNode rt input definition.match_).1 h
  unfold evaluate outcome
  rw [hmatch]
  cases verdict rt input definition.match_ <;> rfl

theorem evaluate_raises {rt : PyRuntime} {definition : RuleDefinition}
    {input : EvaluationInput} (h : evaluable rt input definition.match_ = false) :
    ∃ e, evaluate rt definition input = .error e := by
  obtain ⟨e, he⟩ := (settles_matchNode rt input definition.match_).2 h
  exact ⟨e, by unfold evaluate; rw [he]; rfl⟩

theorem evaluate_returns_iff (rt : PyRuntime) (definition : RuleDefinition)
    (input : EvaluationInput) :
    (∃ result, evaluate rt definition input = .ok result) ↔
      evaluable rt input definition.match_ = true := by
  refine ⟨fun ⟨result, hresult⟩ => ?_, fun h => ⟨_, evaluate_of_evaluable h⟩⟩
  by_contra hne
  obtain ⟨e, he⟩ := evaluate_raises (Bool.not_eq_true _ ▸ hne)
  rw [hresult] at he
  cases he

theorem evaluate_eq_outcome {rt : PyRuntime} {definition : RuleDefinition}
    {input : EvaluationInput} {result : EvaluationResult}
    (h : evaluate rt definition input = .ok result) : result = outcome rt definition input := by
  have hev := (evaluate_returns_iff rt definition input).mp ⟨result, h⟩
  rw [evaluate_of_evaluable hev] at h
  exact (Except.ok.inj h).symm

end RuleEvaluator
