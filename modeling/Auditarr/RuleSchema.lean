/-
  Auditarr/RuleSchema.lean
  ========================
  **The rule document** (`app/rules/schema.py`).

  A rule is a match tree over leaf conditions `field op value` and a list of
  actions.  The models of the source validate on construction; here every
  validator is a field of the structure it guards, so that a value of
  `RuleDefinition` is a document the schema accepts.

  The value of a condition stays untyped, as in the source: any JSON value may
  stand there, except on `vt_status`, whose values are a fixed list.
-/
import Auditarr.PyValues

namespace RuleSchema

open PyValues

/-! ### Severities -/

inductive Severity where
  | ok | info | warn | high | error | crit
deriving DecidableEq, Repr

/-- Severity label to numeric rank, higher is worse. -/
def SEVERITY_LEVELS : Severity → Nat
  | .ok => 10
  | .info => 20
  | .warn => 40
  | .high => 60
  | .error => 80
  | .crit => 100

theorem SEVERITY_LEVELS_injective : Function.Injective SEVERITY_LEVELS := by
  intro left right heq
  cases left <;> cases right <;> first | rfl | exact absurd heq (by decide)

theorem ok_le_SEVERITY_LEVELS (severity : Severity) :
    SEVERITY_LEVELS .ok ≤ SEVERITY_LEVELS severity := by
  cases severity <;> decide

/-! ### Conditions -/

/-- `SUPPORTED_FIELDS`. -/
inductive Field where
  | filename | extension | category | container | videoCodec | audioCodec | subtitleCodec
  | width | height | durationSeconds | bitrateKbps | framerate | sizeBytes
  | hasSubtitles | isOrphaned | subtitleLanguages | audioLanguages | tags
  | probeFailed | vtStatus
deriving DecidableEq, Repr

inductive Op where
  | eq | ne | lt | lte | gt | gte | in_ | regex
  | contains | notContains | anyOf | noneOf
deriving DecidableEq, Repr

def NUMERIC_OPS : List Op := [.eq, .ne, .lt, .lte, .gt, .gte]
def STRING_OPS : List Op := [.eq, .ne, .in_, .regex]
def SET_OPS : List Op := [.contains, .notContains, .anyOf, .noneOf]
def BOOL_OPS : List Op := [.eq, .ne]

def NUMERIC_FIELDS : List Field :=
  [.width, .height, .durationSeconds, .bitrateKbps, .framerate, .sizeBytes]
def BOOL_FIELDS : List Field := [.hasSubtitles, .isOrphaned, .probeFailed]
def ARRAY_FIELDS : List Field := [.subtitleLanguages, .audioLanguages, .tags]

/-- Plain `eq` on a list is deliberately not among the operators of an array
    field; a field in none of the three sets is a string. -/
def opsForField (field : Field) : List Op :=
  if field ∈ NUMERIC_FIELDS then NUMERIC_OPS
  else if field ∈ BOOL_FIELDS then BOOL_OPS
  else if field ∈ ARRAY_FIELDS then SET_OPS
  else STRING_OPS

def VT_STATUS_VALUES : List String := ["clean", "malicious", "suspicious", "not_found", "error"]

/-- `v in VT_STATUS_VALUES`; only a string can be a member. -/
def isVtStatus : PyValue → Bool
  | .str s => decide (s ∈ VT_STATUS_VALUES)
  | _ => false

/-- `Condition._validate_value`: `vt_status` takes its literals only, a
    non-empty list of them under `in`. -/
def valueAllowed (field : Field) (op : Op) (value : PyValue) : Bool :=
  match field, op, value with
  | .vtStatus, .in_, .list items => !items.isEmpty && items.all isVtStatus
  | .vtStatus, .in_, _ => false
  | .vtStatus, _, v => isVtStatus v
  | _, _, _ => true

/-- A leaf condition `field op value`. -/
structure Condition where
  field : Field
  op : Op
  value : PyValue
  op_allowed : op ∈ opsForField field
  value_allowed : valueAllowed field op value = true

/-! ### Combinators -/

inductive Match where
  | allOf (all_ : List Match)
  | anyOf (any_ : List Match)
  | condition (c : Condition)

mutual

/-- `min_length=1` of every `all` and `any` in the tree. -/
def Match.groupsNonempty : Match → Bool
  | .allOf all_ => !all_.isEmpty && groupsNonemptyItems all_
  | .anyOf any_ => !any_.isEmpty && groupsNonemptyItems any_
  | .condition _ => true

def Match.groupsNonemptyItems : List Match → Bool
  | [] => true
  | m :: ms => m.groupsNonempty && groupsNonemptyItems ms

end

/-! ### Actions -/

structure NotifyThrottle where
  windowSeconds : Nat
  maxPerWindow : Nat
  window_ge : 60 ≤ windowSeconds
  max_ge : 1 ≤ maxPerWindow
deriving DecidableEq

/-- `SEARCH_UPSTREAM_TARGETS`. -/
inductive SearchTarget where
  | sonarr | radarr | bazarr
deriving DecidableEq, Repr

inductive Action where
  | setSeverity (severity : Severity)
  | addTag (tag : String)
  | queueOptimization (profile : String)
  | notify (channel : String) (message : Option String) (throttle : Option NotifyThrottle)
  | delete (reason : Option String)
  | vtLookup
  | searchUpstream (target : SearchTarget) (integrationId : String)
deriving DecidableEq

/-- The length bounds of an action's fields. -/
def Action.lengthsAllowed : Action → Bool
  | .setSeverity _ | .vtLookup => true
  | .addTag tag => 1 ≤ tag.length && tag.length ≤ 64
  | .queueOptimization profile => 1 ≤ profile.length && profile.length ≤ 64
  | .notify channel message _ =>
      1 ≤ channel.length && channel.length ≤ 64 && message.all (·.length ≤ 512)
  | .delete reason => reason.all (·.length ≤ 256)
  | .searchUpstream _ integrationId => 1 ≤ integrationId.length

def Action.isDelete : Action → Bool
  | .delete _ => true
  | _ => false

/-! ### Rules -/

/-- The body of a rule.  `acknowledgedDestructive` is required by, and reserved
    for, rules with a `delete` action. -/
structure RuleDefinition where
  match_ : Match
  actions : List Action
  acknowledgedDestructive : Bool
  groups_nonempty : match_.groupsNonempty = true
  actions_nonempty : actions ≠ []
  lengths_allowed : actions.all Action.lengthsAllowed = true
  destructive_ack : actions.any Action.isDelete = acknowledgedDestructive

/-- `field op value` with one action that does not delete. -/
def simpleRule (field : Field) (op : Op) (value : PyValue) (action : Action)
    (hop : op ∈ opsForField field) (hvalue : valueAllowed field op value = true)
    (hlength : action.lengthsAllowed = true) (hkeep : action.isDelete = false) :
    RuleDefinition where
  match_ := .condition ⟨field, op, value, hop, hvalue⟩
  actions := [action]
  acknowledgedDestructive := false
  groups_nonempty := rfl
  actions_nonempty := List.cons_ne_nil _ _
  lengths_allowed := by simp [hlength]
  destructive_ack := by simp [hkeep]

theorem eq_mem_opsForField_extension : Op.eq ∈ opsForField .extension := by
  decide

theorem avi_allowed : valueAllowed .extension .eq (.str "avi") = true :=
  rfl

theorem setSeverity_lengthsAllowed (severity : Severity) :
    (Action.setSeverity severity).lengthsAllowed = true :=
  rfl

theorem setSeverity_not_isDelete (severity : Severity) : (Action.setSeverity severity).isDelete = false :=
  rfl

end RuleSchema
