/-
  Auditarr/RuleDocument.lean
  ==========================
  **Rule documents as JSON values** (`app/rules/schema.py`): what
  `RuleDefinition.model_validate` accepts, and what `model_dump` writes.

  The models forbid extra keys, so a document validates when it has the keys of its
  model and no others.  A group is read under the alias of its field, `all` or `any`,
  and dumped under the field's own name, `all_` or `any_`.
-/
import Mathlib
import Auditarr.KeyedTable
import Auditarr.RuleSchema

namespace RuleDocument

open PyValues RuleSchema

/-- The conversions a validating model makes in an `int` and in a `bool` field; `none`
    for a value that it refuses. -/
structure Pydantic where
  toInt : PyValue → Option Int
  toBool : PyValue → Option Bool
  toInt_int : ∀ n : Int, toInt (.int n) = some n
  toBool_bool : ∀ b : Bool, toBool (.bool b) = some b

def strictInt : PyValue → Option Int
  | .int n => some n
  | _ => none

def strictBool : PyValue → Option Bool
  | .bool b => some b
  | _ => none

theorem strictInt_int (n : Int) : strictInt (.int n) = some n := rfl

theorem strictBool_bool (b : Bool) : strictBool (.bool b) = some b := rfl

/-- The conversions that take integers and booleans as they are, and nothing else. -/
def Pydantic.strict : Pydantic := ⟨strictInt, strictBool, strictInt_int, strictBool_bool⟩

/-! ### Names -/

def fieldName : Field → String
  | .filename => "filename"
  | .extension => "extension"
  | .category => "category"
  | .container => "container"
  | .videoCodec => "video_codec"
  | .audioCodec => "audio_codec"
  | .subtitleCodec => "subtitle_codec"
  | .width => "width"
  | .height => "height"
  | .durationSeconds => "duration_seconds"
  | .bitrateKbps => "bitrate_kbps"
  | .framerate => "framerate"
  | .sizeBytes => "size_bytes"
  | .hasSubtitles => "has_subtitles"
  | .isOrphaned => "is_orphaned"
  | .subtitleLanguages => "subtitle_languages"
  | .audioLanguages => "audio_languages"
  | .tags => "tags"
  | .probeFailed => "probe_failed"
  | .vtStatus => "vt_status"

/-- `SUPPORTED_FIELDS`. -/
def SUPPORTED_FIELDS : List Field :=
  [.filename, .extension, .category, .container, .videoCodec, .audioCodec, .subtitleCodec,
    .width, .height, .durationSeconds, .bitrateKbps, .framerate, .sizeBytes, .hasSubtitles,
    .isOrphaned, .subtitleLanguages, .audioLanguages, .tags, .probeFailed, .vtStatus]

def opName : Op → String
  | .eq => "eq"
  | .ne => "ne"
  | .lt => "lt"
  | .lte => "lte"
  | .gt => "gt"
  | .gte => "gte"
  | .in_ => "in"
  | .regex => "regex"
  | .contains => "contains"
  | .notContains => "not_contains"
  | .anyOf => "any_of"
  | .noneOf => "none_of"

def OPS : List Op := NUMERIC_OPS ++ [.in_, .regex] ++ SET_OPS

def severityName : Severity → String
  | .ok => "ok"
  | .info => "info"
  | .warn => "warn"
  | .high => "high"
  | .error => "error"
  | .crit => "crit"

def SEVERITIES : List Severity := [.ok, .info, .warn, .high, .error, .crit]

def targetName : SearchTarget → String
  | .sonarr => "sonarr"
  | .radarr => "radarr"
  | .bazarr => "bazarr"

/-- `SEARCH_UPSTREAM_TARGETS`. -/
def SEARCH_UPSTREAM_TARGETS : List SearchTarget := [.sonarr, .radarr, .bazarr]

/-- The member of a list with the given name. -/
def named {α : Type} (name : α → String) (members : List α) (s : String) : Option α :=
  members.find? (name · = s)

theorem named_name {α : Type} {name : α → String} {members : List α} {a : α}
    (hunique : (members.map name).Nodup) (ha : a ∈ members) :
    named name members (name a) = some a :=
  KeyedTable.find?_of_mem hunique ha

@[simp] theorem named_field (field : Field) :
    named fieldName SUPPORTED_FIELDS (fieldName field) = some field :=
  named_name (by decide) (by cases field <;> decide)

@[simp] theorem named_op (op : Op) : named opName OPS (opName op) = some op :=
  named_name (by decide) (by cases op <;> decide)

@[simp] theorem named_severity (severity : Severity) :
    named severityName SEVERITIES (severityName severity) = some severity :=
  named_name (by decide) (by cases severity <;> decide)

@[simp] theorem named_target (target : SearchTarget) :
    named targetName SEARCH_UPSTREAM_TARGETS (targetName target) = some target :=
  named_name (by decide) (by cases target <;> decide)

/-! ### Validation -/

/-- The entries of a document. -/
abbrev Entries := List (String × PyValue)

/-- `extra="forbid"`. -/
def onlyKeys (allowed : List String) (entries : Entries) : Bool :=
  entries.all fun entry => entry.1 ∈ allowed

/-- A required field of type `str`. -/
def strField (entries : Entries) (key : String) : Option String :=
  match entries.lookup key with
  | some (.str s) => some s
  | _ => none

/-- A required `str` of bounded length. -/
def boundedStr (low high : Nat) (entries : Entries) (key : String) : Option String :=
  (strField entries key).filter fun s => low ≤ s.length && s.length ≤ high

/-- A field of type `str | None` that defaults to `None`. -/
def optionalStr (high : Nat) (entries : Entries) (key : String) : Option (Option String) :=
  match entries.lookup key with
  | none | some .none => some none
  | some (.str s) => if s.length ≤ high then some (some s) else none
  | some _ => none

/-- `Condition`. -/
def validateCondition (entries : Entries) : Option Condition := do
  guard (onlyKeys ["field", "op", "value"] entries)
  let field ← (strField entries "field").bind (named fieldName SUPPORTED_FIELDS)
  let op ← (strField entries "op").bind (named opName OPS)
  let value ← entries.lookup "value"
  if h : op ∈ opsForField field ∧ valueAllowed field op value = true then
    some ⟨field, op, value, h.1, h.2⟩
  else none

mutual

/-- `Match`: a group has the one key `all`, or the one key `any`. -/
def validateMatch : PyValue → Option Match
  | .dict [(key, .list items)] =>
      if items.isEmpty then none
      else if key = "all" then (validateItems items).map .allOf
      else if key = "any" then (validateItems items).map .anyOf
      else none
  | .dict entries => (validateCondition entries).map .condition
  | _ => none

def validateItems : List PyValue → Option (List Match)
  | [] => some []
  | item :: rest => do
      let m ← validateMatch item
      let others ← validateItems rest
      return m :: others

end

/-- `NotifyThrottle`. -/
def validateThrottle (py : Pydantic) (entries : Entries) : Option NotifyThrottle := do
  guard (onlyKeys ["window_seconds", "max_per_window"] entries)
  let windowSeconds ← (entries.lookup "window_seconds").bind py.toInt
  let maxPerWindow ← (entries.lookup "max_per_window").bind py.toInt
  if h : 60 ≤ windowSeconds ∧ 1 ≤ maxPerWindow then
    some ⟨windowSeconds.toNat, maxPerWindow.toNat, by omega, by omega⟩
  else none

/-- The field `throttle` of `Notify`. -/
def throttleField (py : Pydantic) (entries : Entries) : Option (Option NotifyThrottle) :=
  match entries.lookup "throttle" with
  | none | some .none => some none
  | some (.dict throttle) => (validateThrottle py throttle).map some
  | some _ => none

/-- `SearchUpstream._validate_target`. -/
def validateTarget (rt : PyRuntime) (v : String) : Option SearchTarget :=
  named targetName SEARCH_UPSTREAM_TARGETS (rt.lower (strip v))

/-- The models of the union `Action`, by the tag that selects them. -/
def validateTagged (py : Pydantic) (rt : PyRuntime) (entries : Entries) (tag : String) :
    Option Action :=
  if tag = "set_severity" then do
    guard (onlyKeys ["type", "severity"] entries)
    let severity ← (strField entries "severity").bind (named severityName SEVERITIES)
    return .setSeverity severity
  else if tag = "add_tag" then do
    guard (onlyKeys ["type", "tag"] entries)
    let tag ← boundedStr 1 64 entries "tag"
    return .addTag tag
  else if tag = "queue_optimization" then do
    guard (onlyKeys ["type", "profile"] entries)
    let profile ← boundedStr 1 64 entries "profile"
    return .queueOptimization profile
  else if tag = "notify" then do
    guard (onlyKeys ["type", "channel", "message", "throttle"] entries)
    let channel ← boundedStr 1 64 entries "channel"
    let message ← optionalStr 512 entries "message"
    let throttle ← throttleField py entries
    return .notify channel message throttle
  else if tag = "delete" then do
    guard (onlyKeys ["type", "reason"] entries)
    let reason ← optionalStr 256 entries "reason"
    return .delete reason
  else if tag = "vt_lookup" then do
    guard (onlyKeys ["type"] entries)
    return .vtLookup
  else if tag = "search_upstream" then do
    guard (onlyKeys ["type", "target", "integration_id"] entries)
    let target ← (strField entries "target").bind (validateTarget rt)
    let integrationId ← (strField entries "integration_id").filter (1 ≤ ·.length)
    return .searchUpstream target integrationId
  else none

/-- `Action`, a union discriminated by `type`. -/
def validateAction (py : Pydantic) (rt : PyRuntime) : PyValue → Option Action
  | .dict entries => (strField entries "type").bind (validateTagged py rt entries)
  | _ => none

def validateActions (py : Pydantic) (rt : PyRuntime) : PyValue → Option (List Action)
  | .list items => items.mapM (validateAction py rt)
  | _ => none

/-- The field `acknowledged_destructive`, `False` by default. -/
def acknowledged (py : Pydantic) (entries : Entries) : Option Bool :=
  match entries.lookup "acknowledged_destructive" with
  | none => some false
  | some v => py.toBool v

/-- The checks on a rule as a whole, `_validate_destructive_ack` the last of them. -/
def buildRule (match_ : Match) (actions : List Action) (acknowledgedDestructive : Bool) :
    Option RuleDefinition :=
  if h : match_.groupsNonempty = true ∧ actions ≠ [] ∧
      actions.all Action.lengthsAllowed = true ∧
      actions.any Action.isDelete = acknowledgedDestructive then
    some ⟨match_, actions, acknowledgedDestructive, h.1, h.2.1, h.2.2.1, h.2.2.2⟩
  else none

/-- `RuleDefinition.model_validate`. -/
def modelValidate (py : Pydantic) (rt : PyRuntime) : PyValue → Option RuleDefinition
  | .dict entries => do
      guard (onlyKeys ["match", "actions", "acknowledged_destructive"] entries)
      let match_ ← (entries.lookup "match").bind validateMatch
      let actions ← (entries.lookup "actions").bind (validateActions py rt)
      let acknowledgedDestructive ← acknowledged py entries
      buildRule match_ actions acknowledgedDestructive
  | _ => none

/-! ### Dump -/

def dumpCondition (c : Condition) : PyValue :=
  .dict [("field", .str (fieldName c.field)), ("op", .str (opName c.op)), ("value", c.value)]

mutual

/-- A group is dumped under the name of its field, not under the alias. -/
def dumpMatch : Match → PyValue
  | .allOf all_ => .dict [("all_", .list (dumpItems all_))]
  | .anyOf any_ => .dict [("any_", .list (dumpItems any_))]
  | .condition c => dumpCondition c

def dumpItems : List Match → List PyValue
  | [] => []
  | m :: ms => dumpMatch m :: dumpItems ms

end

def dumpThrottle (throttle : NotifyThrottle) : PyValue :=
  .dict [("window_seconds", .int throttle.windowSeconds),
    ("max_per_window", .int throttle.maxPerWindow)]

def dumpAction : Action → PyValue
  | .setSeverity severity =>
      .dict [("type", .str "set_severity"), ("severity", .str (severityName severity))]
  | .addTag tag => .dict [("type", .str "add_tag"), ("tag", .str tag)]
  | .queueOptimization profile =>
      .dict [("type", .str "queue_optimization"), ("profile", .str profile)]
  | .notify channel message throttle =>
      .dict [("type", .str "notify"), ("channel", .str channel),
        ("message", PyValue.ofOption .str message),
        ("throttle", PyValue.ofOption dumpThrottle throttle)]
  | .delete reason => .dict [("type", .str "delete"), ("reason", PyValue.ofOption .str reason)]
  | .vtLookup => .dict [("type", .str "vt_lookup")]
  | .searchUpstream target integrationId =>
      .dict [("type", .str "search_upstream"), ("target", .str (targetName target)),
        ("integration_id", .str integrationId)]

/-- `RuleDefinition.model_dump`. -/
def modelDump (d : RuleDefinition) : PyValue :=
  .dict [("match", dumpMatch d.match_), ("actions", .list (d.actions.map dumpAction)),
    ("acknowledged_destructive", .bool d.acknowledgedDestructive)]

/-! ### Validating a dump -/

/-- `str.lower` leaves a text of small letters and underscores alone. -/
def LowerKeepsSmall (rt : PyRuntime) : Prop :=
  ∀ s : String, (s.toList.all fun c => c.isLower || c == '_') = true → rt.lower s = s

theorem validateCondition_dump (c : Condition) :
    validateCondition [("field", .str (fieldName c.field)), ("op", .str (opName c.op)),
      ("value", c.value)] = some c := by
  obtain ⟨field, op, value, hop, hvalue⟩ := c
  simp [validateCondition, onlyKeys, strField, List.lookup, hop, hvalue]

theorem validateMatch_condition (c : Condition) :
    validateMatch (dumpMatch (.condition c)) = some (.condition c) := by
  rw [dumpMatch, dumpCondition, validateMatch]
  · rw [validateCondition_dump]; rfl
  · intro key items h
    simp at h

theorem validateMatch_group (name : String) (items : List PyValue) (hall : name ≠ "all")
    (hany : name ≠ "any") : validateMatch (.dict [(name, .list items)]) = none := by
  rw [validateMatch, if_neg hall, if_neg hany]
  split <;> rfl

theorem validateThrottle_dump (py : Pydantic) (throttle : NotifyThrottle) :
    validateThrottle py [("window_seconds", .int throttle.windowSeconds),
      ("max_per_window", .int throttle.maxPerWindow)] = some throttle := by
  obtain ⟨windowSeconds, maxPerWindow, hwindow, hmax⟩ := throttle
  have hbounds : (60 : Int) ≤ windowSeconds ∧ (1 : Int) ≤ maxPerWindow := by omega
  let entries : Entries :=
    [("window_seconds", .int windowSeconds), ("max_per_window", .int maxPerWindow)]
  have hkeys : onlyKeys ["window_seconds", "max_per_window"] entries = true := by
    simp [onlyKeys, entries]
  have hwindowField : (entries.lookup "window_seconds").bind py.toInt = some ↑windowSeconds :=
    py.toInt_int windowSeconds
  have hmaxField : (entries.lookup "max_per_window").bind py.toInt = some ↑maxPerWindow :=
    py.toInt_int maxPerWindow
  change validateThrottle py entries = _
  rw [validateThrottle, hkeys, hwindowField, hmaxField]
  exact dif_pos hbounds

theorem validateTarget_name {rt : PyRuntime} (hlower : LowerKeepsSmall rt)
    (target : SearchTarget) :
    validateTarget rt (targetName target) = some target := by
  have hstrip : strip (targetName target) = targetName target := by
    cases target <;> decide +kernel
  have hkeep : rt.lower (targetName target) = targetName target := by
    apply hlower
    cases target <;> decide +kernel
  rw [validateTarget, hstrip, hkeep, named_target]

theorem boundedStr_dump {low high : Nat} {value : String} (entries : Entries) (key : String)
    (hlow : low ≤ value.length) (hhigh : value.length ≤ high)
    (hentry : entries.lookup key = some (.str value)) :
    boundedStr low high entries key = some value := by
  simp [boundedStr, strField, hentry, Option.filter, hlow, hhigh]

theorem optionalStr_dump {high : Nat} {value : Option String} (entries : Entries) (key : String)
    (hvalue : value.all (·.length ≤ high) = true)
    (hentry : entries.lookup key = some (PyValue.ofOption .str value)) :
    optionalStr high entries key = some value := by
  unfold optionalStr
  rw [hentry]
  cases value with
  | none => rfl
  | some s => simpa [PyValue.ofOption] using hvalue

theorem throttleField_dump (py : Pydantic) {throttle : Option NotifyThrottle} (entries : Entries)
    (hentry : entries.lookup "throttle" = some (PyValue.ofOption dumpThrottle throttle)) :
    throttleField py entries = some throttle := by
  unfold throttleField
  rw [hentry]
  cases throttle with
  | none => rfl
  | some throttle =>
    simp only [PyValue.ofOption, dumpThrottle]
    rw [validateThrottle_dump]; rfl

/-- An action within its bounds validates to itself: what the models normalize is
    normal after the first time, and a default that is written out is read back. -/
theorem validateAction_dump (py : Pydantic) {rt : PyRuntime} (hlower : LowerKeepsSmall rt)
    (action : Action) (hlengths : action.lengthsAllowed = true) :
    validateAction py rt (dumpAction action) = some action := by
  cases action with
  | setSeverity severity =>
    simp [dumpAction, validateAction, validateTagged, onlyKeys, strField, List.lookup]
  | addTag tag =>
    simp only [Action.lengthsAllowed, Bool.and_eq_true, decide_eq_true_eq] at hlengths
    have htag : boundedStr 1 64 [("type", .str "add_tag"), ("tag", .str tag)] "tag" = some tag :=
      boundedStr_dump _ _ hlengths.1 hlengths.2 rfl
    simp [dumpAction, validateAction, validateTagged, onlyKeys, strField, htag]
  | queueOptimization profile =>
    simp only [Action.lengthsAllowed, Bool.and_eq_true, decide_eq_true_eq] at hlengths
    have hprofile : boundedStr 1 64 [("type", .str "queue_optimization"),
        ("profile", .str profile)] "profile" = some profile :=
      boundedStr_dump _ _ hlengths.1 hlengths.2 rfl
    simp [dumpAction, validateAction, validateTagged, onlyKeys, strField, hprofile]
  | notify channel message throttle =>
    simp only [Action.lengthsAllowed, Bool.and_eq_true, decide_eq_true_eq] at hlengths
    obtain ⟨⟨hlow, hhigh⟩, hmessage⟩ := hlengths
    let entries : Entries := [("type", .str "notify"), ("channel", .str channel),
      ("message", PyValue.ofOption .str message),
      ("throttle", PyValue.ofOption dumpThrottle throttle)]
    have hchannel := boundedStr_dump entries "channel" hlow hhigh rfl
    have hmessage := optionalStr_dump entries "message" hmessage rfl
    have hthrottle : throttleField py entries = some throttle := throttleField_dump py entries rfl
    simp [dumpAction, validateAction, validateTagged, onlyKeys, strField, entries, hchannel, hmessage,
      hthrottle]
  | delete reason =>
    have hreason := optionalStr_dump [("type", .str "delete"),
      ("reason", PyValue.ofOption .str reason)] "reason" hlengths rfl
    simp [dumpAction, validateAction, validateTagged, onlyKeys, strField, hreason]
  | vtLookup => rfl
  | searchUpstream target integrationId =>
    simp only [Action.lengthsAllowed, decide_eq_true_eq] at hlengths
    simp [dumpAction, validateAction, validateTagged, onlyKeys, strField, List.lookup,
      validateTarget_name hlower, Option.filter, hlengths]

theorem mapM_validateAction_dump (py : Pydantic) {rt : PyRuntime} (hlower : LowerKeepsSmall rt)
    (actions : List Action) (hlengths : actions.all Action.lengthsAllowed = true) :
    (actions.map dumpAction).mapM (validateAction py rt) = some actions := by
  induction actions with
  | nil => rfl
  | cons action rest ih =>
    rw [List.all_cons, Bool.and_eq_true] at hlengths
    rw [List.map_cons, List.mapM_cons, validateAction_dump py hlower action hlengths.1,
      ih hlengths.2]
    rfl

theorem buildRule_self (d : RuleDefinition) :
    buildRule d.match_ d.actions d.acknowledgedDestructive = some d :=
  dif_pos ⟨d.groups_nonempty, d.actions_nonempty, d.lengths_allowed, d.destructive_ack⟩

theorem modelValidate_dump (py : Pydantic) {rt : PyRuntime} (hlower : LowerKeepsSmall rt)
    (d : RuleDefinition) :
    modelValidate py rt (modelDump d) =
      (validateMatch (dumpMatch d.match_)).bind fun match_ =>
        buildRule match_ d.actions d.acknowledgedDestructive := by
  have hactions := mapM_validateAction_dump py hlower d.actions d.lengths_allowed
  cases hmatch : validateMatch (dumpMatch d.match_) with
  | none => simp [modelDump, modelValidate, onlyKeys, List.lookup, hmatch]
  | some match_ =>
    simp [modelDump, modelValidate, onlyKeys, List.lookup, hmatch, validateActions, hactions,
      acknowledged, py.toBool_bool]

theorem modelValidate_dump_condition (py : Pydantic) {rt : PyRuntime}
    (hlower : LowerKeepsSmall rt) {d : RuleDefinition} {c : Condition}
    (hmatch : d.match_ = .condition c) : modelValidate py rt (modelDump d) = some d := by
  rw [modelValidate_dump py hlower, hmatch, validateMatch_condition, Option.bind_some, ← hmatch,
    buildRule_self]

theorem modelValidate_dump_group (py : Pydantic) {rt : PyRuntime} (hlower : LowerKeepsSmall rt)
    {d : RuleDefinition} (hgroup : ¬∃ c, d.match_ = .condition c) :
    modelValidate py rt (modelDump d) = none := by
  rw [modelValidate_dump py hlower]
  cases hmatch : d.match_ with
  | allOf all_ => rw [dumpMatch, validateMatch_group _ _ (by decide) (by decide)]; rfl
  | anyOf any_ => rw [dumpMatch, validateMatch_group _ _ (by decide) (by decide)]; rfl
  | condition c => exact absurd ⟨c, hmatch⟩ hgroup

end RuleDocument
