/-
  Auditarr/RuleEditors.lean
  =========================
  **The two editors of a rule's match tree**
  (`frontend/src/features/rules/VisualRuleBuilder.tsx`, `ConditionGroupEditor.tsx`).

  Neither editor has a state of its own: each reads the match tree of the rule and
  emits a new one.  The flat editor shows a tree as a combinator and a list of
  conditions, the nested one as a group of groups, and both write a group of one
  condition back as that condition.

  What a tree says of a file survives that (`verdict_rebuild`, `verdict_unlift`).  The
  combinator does not: a bare condition has none, so the editor that grows it again
  reads `all` off it, whatever was chosen before.
-/
import Auditarr.RuleDocument
import Auditarr.RuleEvaluator
import Auditarr.Runs

namespace RuleEditors

open PyValues Runs

/-! ### Match trees of the frontend -/

structure Condition where
  field : String
  op : String
  value : PyValue

inductive Combinator where
  | all | any
deriving DecidableEq, Repr

def Combinator.key : Combinator → String
  | .all => "all"
  | .any => "any"

/-- `Condition | AllOf | AnyOf`. -/
inductive Match where
  | condition (c : Condition)
  | group (combinator : Combinator) (children : List Match)

def isCondition : Match → Bool
  | .condition _ => true
  | .group .. => false

/-- `AllOf | AnyOf`. -/
structure Group where
  combinator : Combinator
  children : List Match

def Group.toMatch (g : Group) : Match := .group g.combinator g.children

mutual

/-- The tree as it is sent to the server. -/
def json : Match → PyValue
  | .condition c => .dict [("field", .str c.field), ("op", .str c.op), ("value", c.value)]
  | .group k children => .dict [(k.key, .list (jsonItems children))]

def jsonItems : List Match → List PyValue
  | [] => []
  | m :: ms => json m :: jsonItems ms

end

/-- What the rule schema and the evaluator make of a tree, on one file. -/
def verdict (rt : PyRuntime) (input : RuleEvaluator.EvaluationInput) (m : Match) :
    Option (Except PyError Bool) :=
  (RuleDocument.validateMatch (json m)).map (RuleEvaluator.matchNode rt input)

mutual

def depthOf : Match → Nat
  | .condition _ => 0
  | .group _ children => 1 + depthOfChildren children

/-- `Math.max(0, ...children.map(depthOf))`. -/
def depthOfChildren : List Match → Nat
  | [] => 0
  | m :: ms => max (depthOf m) (depthOfChildren ms)

end

/-! ### The vocabulary -/

inductive FieldType where
  | numeric | string | bool | array
deriving DecidableEq, Repr

structure VocabularyField where
  key : String
  type : FieldType
  enum : Option (List String)

structure RuleVocabulary where
  fields : List VocabularyField
  ops : FieldType → List String

def RuleVocabulary.firstOp (v : RuleVocabulary) (type : FieldType) : String :=
  (v.ops type).head?.getD "eq"

namespace Flat

/-- The default of the flat editor: an enumeration goes before the type. -/
def defaultValueFor (f : VocabularyField) : PyValue :=
  match f.enum, f.type with
  | some names, _ => .str (names.head?.getD "")
  | none, .numeric => .int 0
  | none, .bool => .bool true
  | none, .array => .str ""
  | none, .string => .str ""

end Flat

namespace Nested

/-- The default of the nested editor: the type goes before an enumeration. -/
def defaultValueFor (f : VocabularyField) : PyValue :=
  match f.type, f.enum with
  | .numeric, _ => .int 0
  | .bool, _ => .bool false
  | .array, _ => .list []
  | .string, some (name :: _) => .str name
  | .string, _ => .str ""

def makeDefaultCondition (v : RuleVocabulary) : Condition :=
  match v.fields with
  | [] => { field := "extension", op := "eq", value := .str "" }
  | first :: _ =>
      { field := first.key, op := v.firstOp first.type, value := defaultValueFor first }

end Nested

/-- `Partial<Condition>`. -/
structure Patch where
  field : Option String
  op : Option String
  value : Option PyValue

/-- `{ ...c, ...patch }`. -/
def Patch.apply (patch : Patch) (c : Condition) : Condition where
  field := patch.field.getD c.field
  op := patch.op.getD c.op
  value := patch.value.getD c.value

/-! ### The flat editor -/

structure Flattened where
  combinator : Combinator
  conditions : List Condition
  hadNesting : Bool

mutual

def flatten : Match → Flattened
  | .condition c => { combinator := .all, conditions := [c], hadNesting := false }
  | .group k children =>
      { combinator := k
        conditions := flattenChildren children
        hadNesting := children.any fun child => !isCondition child }

/-- A leaf flattens to itself, a nested group to its conditions. -/
def flattenChildren : List Match → List Condition
  | [] => []
  | m :: ms => (flatten m).conditions ++ flattenChildren ms

end

def rebuild (combinator : Combinator) : List Condition → Match
  | [c] => .condition c
  | conditions => .group combinator (conditions.map .condition)

inductive FlatEdit where
  | setCombinator (combinator : Combinator)
  | setCondition (idx : Nat) (patch : Patch)
  | addCondition
  | removeCondition (idx : Nat)

/-- The tree that a handler of the flat editor emits, if it emits one. -/
def flatEdit (v : RuleVocabulary) (m : Match) : FlatEdit → Option Match
  | .setCombinator combinator => some (rebuild combinator (flatten m).conditions)
  | .setCondition idx patch =>
      some (rebuild (flatten m).combinator ((flatten m).conditions.modify idx patch.apply))
  | .addCondition =>
      match v.fields with
      | [] => none
      | first :: _ =>
          let newCond : Condition :=
            { field := first.key, op := v.firstOp first.type, value := Flat.defaultValueFor first }
          some (rebuild (flatten m).combinator ((flatten m).conditions ++ [newCond]))
  | .removeCondition idx =>
      let next := (flatten m).conditions.eraseIdx idx
      -- always keep at least one row
      if next.isEmpty then none else some (rebuild (flatten m).combinator next)

/-! ### The nested editor -/

def MAX_NEST_DEPTH : Nat := 5

def liftToGroup : Match → Group
  | .condition c => { combinator := .all, children := [.condition c] }
  | .group k children => { combinator := k, children := children }

def unliftFromGroup (g : Group) : Match :=
  match g.children with
  | [.condition c] => .condition c
  | _ => g.toMatch

inductive GroupEdit where
  | setCombinator (combinator : Combinator)
  | setCondition (idx : Nat) (patch : Patch)
  | removeChild (idx : Nat)
  | moveChild (idx : Nat) (up : Bool)
  | addCondition
  | addGroup

/-- `moveChild`: the child changes places with its neighbour, if it has one on that side. -/
def moved (children : List Match) (idx : Nat) (up : Bool) : Option (List Match) :=
  let target := if up then idx - 1 else idx + 1
  if up && idx == 0 then none
  else match children[idx]?, children[target]? with
    | some child, some neighbour => some ((children.set idx neighbour).set target child)
    | _, _ => none

/-- The group that a handler of one group's card emits, if it emits one. -/
def editGroup (v : RuleVocabulary) (depth : Nat) (g : Group) : GroupEdit → Option Group
  | .setCombinator combinator => some { g with combinator }
  | .setCondition idx patch =>
      match g.children[idx]? with
      | some (.condition c) =>
          some { g with children := g.children.set idx (.condition (patch.apply c)) }
      | _ => none
  | .removeChild idx =>
      -- the schema wants one child at least
      if g.children.length ≤ 1 then none else some { g with children := g.children.eraseIdx idx }
  | .moveChild idx up => (moved g.children idx up).map fun children => { g with children }
  | .addCondition =>
      some { g with children := g.children ++ [.condition (Nested.makeDefaultCondition v)] }
  | .addGroup =>
      if MAX_NEST_DEPTH ≤ depth + 1 then none
      else
        let newGroup : Match := .group .any [.condition (Nested.makeDefaultCondition v)]
        some { g with children := g.children ++ [newGroup] }

/-- A handler of the card at a path of group children, and what the cards above make of what it
    emits: each replaces its child. -/
def editAt (v : RuleVocabulary) (depth : Nat) (g : Group) : List Nat → GroupEdit → Option Group
  | [], e => editGroup v depth g e
  | idx :: path, e =>
      match g.children[idx]? with
      | some (.group k children) =>
          (editAt v (depth + 1) ⟨k, children⟩ path e).map fun next =>
            { g with children := g.children.set idx next.toMatch }
      | _ => none

/-! ### Editing a rule -/

inductive Step where
  | flat (e : FlatEdit)
  | nested (path : List Nat) (e : GroupEdit)

/-- The tree the dialog holds, and the combinator that the root was last given. -/
structure Editing where
  match_ : Match
  chosen : Combinator

/-- A rule that is opened. -/
def loaded (m : Match) : Editing := ⟨m, (flatten m).combinator⟩

def emitted (v : RuleVocabulary) (m : Match) : Step → Option Match
  | .flat e => flatEdit v m e
  | .nested path e => (editAt v 0 (liftToGroup m) path e).map unliftFromGroup

/-- The combinator that a step chooses for the root. -/
def choice : Step → Option Combinator
  | .flat (.setCombinator k) => some k
  | .nested [] (.setCombinator k) => some k
  | _ => none

def next (v : RuleVocabulary) (s : Editing) (step : Step) : Editing where
  match_ := (emitted v s.match_ step).getD s.match_
  chosen := (choice step).getD s.chosen

/-- Two or more conditions at the root are joined by the combinator that was chosen. -/
def Joined (s : Editing) : Prop :=
  match s.match_ with
  | .condition _ => True
  | .group k children => 2 ≤ children.length → k = s.chosen

instance decidableJoined (s : Editing) : Decidable (Joined s) := by
  unfold Joined
  split <;> infer_instance

/-- The step adds a condition or a group to the root. -/
def addsAtRoot (v : RuleVocabulary) : Step → Bool
  | .flat .addCondition => !v.fields.isEmpty
  | .nested [] .addCondition | .nested [] .addGroup => true
  | _ => false

/-- The step makes a group of a bare condition, though `any` was chosen. -/
def Forgets (v : RuleVocabulary) (s : Editing) (step : Step) : Prop :=
  addsAtRoot v step = true ∧ isCondition s.match_ = true ∧ s.chosen = .any

/-! ### What a tree says -/

section Verdict

variable (rt : PyRuntime) (input : RuleEvaluator.EvaluationInput)

theorem validateMatch_singleton (k : Combinator) (m : Match) :
    RuleDocument.validateMatch (json (.group k [m])) =
      (RuleDocument.validateMatch (json m)).map fun parsed => match k with
        | .all => .allOf [parsed]
        | .any => .anyOf [parsed] := by
  cases k <;> cases h : RuleDocument.validateMatch (json m) <;>
    simp [json, jsonItems, Combinator.key, RuleDocument.validateMatch, RuleDocument.validateItems, h]

theorem matchNode_allOf_singleton (parsed : RuleSchema.Match) :
    RuleEvaluator.matchNode rt input (.allOf [parsed]) = RuleEvaluator.matchNode rt input parsed := by
  rw [RuleEvaluator.matchNode, RuleEvaluator.matchAll, RuleEvaluator.matchAll]
  cases RuleEvaluator.matchNode rt input parsed with
  | error e => rfl
  | ok b => cases b <;> rfl

theorem matchNode_anyOf_singleton (parsed : RuleSchema.Match) :
    RuleEvaluator.matchNode rt input (.anyOf [parsed]) = RuleEvaluator.matchNode rt input parsed := by
  rw [RuleEvaluator.matchNode, RuleEvaluator.matchAny, RuleEvaluator.matchAny]
  cases RuleEvaluator.matchNode rt input parsed with
  | error e => rfl
  | ok b => cases b <;> rfl

theorem verdict_singleton (k : Combinator) (m : Match) :
    verdict rt input (.group k [m]) = verdict rt input m := by
  unfold verdict
  rw [validateMatch_singleton]
  cases RuleDocument.validateMatch (json m) with
  | none => rfl
  | some parsed =>
    rw [Option.map_some]
    cases k with
    | all => exact congrArg some (matchNode_allOf_singleton rt input parsed)
    | any => exact congrArg some (matchNode_anyOf_singleton rt input parsed)

theorem unliftFromGroup_cases (g : Group) :
    (∃ c, g.children = [.condition c] ∧ unliftFromGroup g = .condition c) ∨
      unliftFromGroup g = g.toMatch := by
  unfold unliftFromGroup
  split
  next c hc => exact .inl ⟨c, hc, rfl⟩
  next => exact .inr rfl

theorem verdict_unliftFromGroup (g : Group) :
    verdict rt input (unliftFromGroup g) = verdict rt input g.toMatch := by
  obtain ⟨c, hc, h⟩ | h := unliftFromGroup_cases g
  · rw [h, Group.toMatch, hc, verdict_singleton]
  · rw [h]

theorem verdict_liftToGroup (m : Match) :
    verdict rt input (liftToGroup m).toMatch = verdict rt input m := by
  cases m with
  | condition c => exact verdict_singleton rt input .all (.condition c)
  | group k children => rfl

theorem verdict_unlift (m : Match) :
    verdict rt input (unliftFromGroup (liftToGroup m)) = verdict rt input m := by
  rw [verdict_unliftFromGroup, verdict_liftToGroup]

theorem rebuild_eq_unliftFromGroup (k : Combinator) (conditions : List Condition) :
    rebuild k conditions = unliftFromGroup ⟨k, conditions.map .condition⟩ := by
  match conditions with
  | [] | [_] | _ :: _ :: _ => rfl

theorem map_flattenChildren {children : List Match} (h : depthOfChildren children = 0) :
    (flattenChildren children).map .condition = children := by
  induction children with
  | nil => rfl
  | cons m ms ih =>
    rw [depthOfChildren] at h
    cases m with
    | condition c =>
      have hms : depthOfChildren ms = 0 := by omega
      simp [flattenChildren, flatten, ih hms]
    | group k inner =>
      rw [depthOf] at h
      omega

theorem verdict_rebuild {m : Match} (h : depthOf m ≤ 1) :
    verdict rt input (rebuild (flatten m).combinator (flatten m).conditions) =
      verdict rt input m := by
  cases m with
  | condition c => rfl
  | group k children =>
    have hleaves : depthOfChildren children = 0 := by
      rw [depthOf] at h
      omega
    rw [rebuild_eq_unliftFromGroup, verdict_unliftFromGroup, flatten,
      map_flattenChildren hleaves]
    rfl

end Verdict

/-! ### What a step keeps -/

section Steps

variable {v : RuleVocabulary} {m m' : Match} {step : Step}

/-- A root that has a combinator has this one. -/
def Rooted (k : Combinator) : Match → Prop
  | .condition _ => True
  | .group k' _ => k' = k

theorem rooted_unliftFromGroup (g : Group) : Rooted g.combinator (unliftFromGroup g) := by
  obtain ⟨c, -, h⟩ | h := unliftFromGroup_cases g
  · rw [h]
    trivial
  · rw [h]
    rfl

theorem rooted_rebuild (k : Combinator) (conditions : List Condition) :
    Rooted k (rebuild k conditions) := by
  rw [rebuild_eq_unliftFromGroup]
  exact rooted_unliftFromGroup ⟨k, _⟩

theorem liftToGroup_combinator (m : Match) : (liftToGroup m).combinator = (flatten m).combinator := by
  cases m <;> rfl

theorem editAt_combinator {depth : Nat} {g g' : Group} {path : List Nat} {e : GroupEdit}
    (h : editAt v depth g path e = some g') :
    g'.combinator = (choice (.nested path e)).getD g.combinator := by
  cases path with
  | nil =>
    rw [editAt] at h
    cases e with
    | setCombinator k =>
      cases h
      rfl
    | setCondition idx patch =>
      rw [editGroup] at h
      split at h
      · cases h
        rfl
      · cases h
    | removeChild idx =>
      rw [editGroup] at h
      split at h
      · cases h
      · cases h
        rfl
    | moveChild idx up =>
      obtain ⟨children, -, rfl⟩ := Option.map_eq_some_iff.mp h
      rfl
    | addCondition =>
      cases h
      rfl
    | addGroup =>
      rw [editGroup] at h
      split at h
      · cases h
      · cases h
        rfl
  | cons idx path =>
    rw [editAt] at h
    split at h
    · obtain ⟨inner, -, rfl⟩ := Option.map_eq_some_iff.mp h
      rfl
    · cases h

theorem rooted_emitted (h : emitted v m step = some m') :
    Rooted ((choice step).getD (flatten m).combinator) m' := by
  cases step with
  | flat e =>
    rw [emitted] at h
    cases e with
    | setCombinator k =>
      cases h
      exact rooted_rebuild k _
    | setCondition idx patch =>
      cases h
      exact rooted_rebuild _ _
    | addCondition =>
      rw [flatEdit] at h
      split at h
      · cases h
      · cases h
        exact rooted_rebuild _ _
    | removeCondition idx =>
      rw [flatEdit] at h
      split at h
      · cases h
      · cases h
        exact rooted_rebuild _ _
  | nested path e =>
    obtain ⟨g, hg, rfl⟩ := Option.map_eq_some_iff.mp h
    rw [← liftToGroup_combinator, ← editAt_combinator hg]
    exact rooted_unliftFromGroup g

theorem emitted_of_choice {k : Combinator} (h : choice step = some k) :
    ∃ m', emitted v m step = some m' := by
  cases step with
  | flat e => cases e <;> first | exact ⟨_, rfl⟩ | cases h
  | nested path e =>
    cases path with
    | nil => cases e <;> first | exact ⟨_, rfl⟩ | cases h
    | cons idx path => cases h

theorem emitted_condition {c : Condition} (h : emitted v (.condition c) step = some m')
    (hadds : addsAtRoot v step = false) : ∃ c', m' = .condition c' := by
  cases step with
  | flat e =>
    rw [emitted] at h
    cases e with
    | setCombinator k =>
      cases h
      exact ⟨c, rfl⟩
    | setCondition idx patch =>
      cases h
      cases idx with
      | zero => exact ⟨patch.apply c, rfl⟩
      | succ idx => exact ⟨c, by simp [flatten, rebuild]⟩
    | addCondition =>
      have hfields : v.fields = [] := by simpa [addsAtRoot] using hadds
      rw [flatEdit, hfields] at h
      cases h
    | removeCondition idx =>
      cases idx with
      | zero => cases h
      | succ idx =>
        cases h
        exact ⟨c, rfl⟩
  | nested path e =>
    obtain ⟨g, hg, rfl⟩ := Option.map_eq_some_iff.mp h
    cases path with
    | nil =>
      rw [editAt, liftToGroup] at hg
      cases e with
      | setCombinator k =>
        cases hg
        exact ⟨c, rfl⟩
      | setCondition idx patch =>
        cases idx with
        | zero =>
          cases hg
          exact ⟨patch.apply c, rfl⟩
        | succ idx => cases hg
      | removeChild idx => cases hg
      | moveChild idx up =>
        obtain ⟨children, hmoved, rfl⟩ := Option.map_eq_some_iff.mp hg
        cases up <;> cases idx <;> simp [moved] at hmoved
      | addCondition => cases hadds
      | addGroup => cases hadds
    | cons idx path =>
      rw [editAt, liftToGroup] at hg
      cases idx <;> cases hg

theorem emitted_of_adds {c : Condition} (hadds : addsAtRoot v step = true) :
    ∃ added, emitted v (.condition c) step = some (.group .all [.condition c, added]) := by
  cases step with
  | flat e =>
    cases e with
    | addCondition =>
      cases hfields : v.fields with
      | nil => simp [addsAtRoot, hfields] at hadds
      | cons first rest =>
        rw [emitted, flatEdit, hfields]
        exact ⟨_, rfl⟩
    | setCombinator k => cases hadds
    | setCondition idx patch => cases hadds
    | removeCondition idx => cases hadds
  | nested path e =>
    cases path with
    | nil => cases e <;> first | exact ⟨_, rfl⟩ | cases hadds
    | cons idx path => cases hadds

end Steps

/-! ### Runs -/

section Law

variable {v : RuleVocabulary} {s : Editing} {step : Step}

/-- The root has no combinator, or the one that was chosen. -/
def Kept (s : Editing) : Prop := Rooted s.chosen s.match_

theorem Kept.joined (h : Kept s) : Joined s := by
  obtain ⟨m, chosen⟩ := s
  cases m with
  | condition c => trivial
  | group k children =>
    intro _
    exact h

theorem kept_loaded (m : Match) : Kept (loaded m) := by
  cases m with
  | condition c => trivial
  | group k children => rfl

theorem Kept.next (h : Kept s) (hkeeps : ¬ Forgets v s step) : Kept (next v s step) := by
  obtain ⟨m, chosen⟩ := s
  unfold Kept RuleEditors.next
  cases hemitted : emitted v m step with
  | none =>
    have hchoice : choice step = none := by
      cases hk : choice step with
      | none => rfl
      | some k =>
        obtain ⟨m', hm'⟩ := emitted_of_choice (v := v) (m := m) hk
        rw [hemitted] at hm'
        cases hm'
    rw [hchoice]
    exact h
  | some m' =>
    have hrooted := rooted_emitted hemitted
    cases m with
    | group k children =>
      -- the combinator that the step found is the one that was chosen
      have hk : k = chosen := h
      rw [← hk]
      exact hrooted
    | condition c =>
      cases hadds : addsAtRoot v step with
      | false =>
        obtain ⟨c', rfl⟩ := emitted_condition hemitted hadds
        trivial
      | true =>
        have hchosen : chosen = .all := by
          cases chosen with
          | all => rfl
          | any => exact absurd ⟨hadds, rfl, rfl⟩ hkeeps
        rw [hchosen]
        exact hrooted

theorem not_joined_next (h : Forgets v s step) : ¬ Joined (next v s step) := by
  obtain ⟨m, chosen⟩ := s
  obtain ⟨hadds, hcondition, rfl⟩ := h
  cases m with
  | group k children => cases hcondition
  | condition c =>
    obtain ⟨added, hadded⟩ := emitted_of_adds (c := c) hadds
    have hchoice : choice step = none := by
      cases step with
      | flat e => cases e <;> first | rfl | cases hadds
      | nested path e =>
        cases path with
        | nil => cases e <;> first | rfl | cases hadds
        | cons idx path => rfl
    unfold RuleEditors.next Joined
    rw [hadded, hchoice]
    intro hjoined
    cases hjoined le_rfl

end Law

/-- What both editors do to a match tree.  Reading it into an editor and writing it back keeps
    what it says of every file.  Over the steps of both editors the conditions at the root are
    joined by the combinator that was chosen iff no step adds to a bare condition while `any`
    was chosen. -/
theorem editors_law (v : RuleVocabulary) (m : Match) (run : List Step) :
    (∀ rt input, verdict rt input (unliftFromGroup (liftToGroup m)) = verdict rt input m) ∧
    (depthOf m ≤ 1 → ∀ rt input,
      verdict rt input (rebuild (flatten m).combinator (flatten m).conditions) =
        verdict rt input m) ∧
    ((∀ s ∈ states (next v) (loaded m) run, Joined s) ↔
      Throughout (next v) (fun s step => ¬ Forgets v s step) (loaded m) run) := by
  refine ⟨fun rt input => verdict_unlift rt input m,
    fun hdepth rt input => verdict_rebuild rt input hdepth, ?_⟩
  apply forall_states_iff_of_invariant (next v) (fun _ h => Kept.joined h)
  · intro s step hkept
    constructor
    · intro hjoined hforgets
      exact not_joined_next hforgets hjoined
    · exact fun hkeeps => (hkept.next hkeeps).joined
  · exact fun s step hkept hkeeps => hkept.next hkeeps
  · exact kept_loaded m

/-- The parts of the law together, at a tree of one level: two conditions joined by `any`, which
    the nested editor is told to join by `all`. -/
theorem editors_law_any :
    (∀ rt input, verdict rt input
      (rebuild .any [⟨"extension", "eq", .str "mkv"⟩, ⟨"extension", "eq", .str "mp4"⟩]) =
        verdict rt input (.group .any [.condition ⟨"extension", "eq", .str "mkv"⟩,
          .condition ⟨"extension", "eq", .str "mp4"⟩])) ∧
    ∀ s ∈ states (next ⟨[], fun _ => []⟩)
      (loaded (.group .any [.condition ⟨"extension", "eq", .str "mkv"⟩,
        .condition ⟨"extension", "eq", .str "mp4"⟩]))
      [.nested [] (.setCombinator .all), .nested [] .addCondition], Joined s :=
  have law := editors_law ⟨[], fun _ => []⟩
    (.group .any [.condition ⟨"extension", "eq", .str "mkv"⟩,
      .condition ⟨"extension", "eq", .str "mp4"⟩])
    [.nested [] (.setCombinator .all), .nested [] .addCondition]
  ⟨law.2.1 (by decide), law.2.2.mpr
    ⟨fun h => absurd h.1 (by decide), fun h => absurd h.2.1 (by decide), trivial⟩⟩

/-- A rule that is opened with `any` of two conditions, loses one and gets another, joins the two
    by `all`, in either editor. -/
theorem editors_forget_any :
    ∃ (v : RuleVocabulary) (m : Match),
      (RuleDocument.validateMatch (json m)).isSome = true ∧ depthOf m = 1 ∧
      (loaded m).chosen = .any ∧
      ¬ Joined (final (next v) (loaded m) [.flat (.removeCondition 0), .flat .addCondition]) ∧
      ¬ Joined (final (next v) (loaded m)
        [.nested [] (.removeChild 0), .nested [] .addCondition]) := by
  refine ⟨⟨[⟨"extension", .string, none⟩], fun _ => ["eq"]⟩,
    .group .any [.condition ⟨"extension", "eq", .str "mkv"⟩,
      .condition ⟨"extension", "eq", .str "mp4"⟩], ?_, by decide, rfl, by decide, by decide⟩
  decide

end RuleEditors
