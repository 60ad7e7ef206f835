/-
  Auditarr/BuiltinRules.lean
  ==========================
  **Built-in rules over startups and requests** (`register_builtin_rules` in
  `app/rules/builtin.py`; `create_rule`, `update_rule`, `delete_rule`, `duplicate_rule` and
  `import_rules` in `app/api/v1/rules.py`).

  Every startup goes through the rules that the code ships: a name that no rule has is added, a
  built-in rule gets its description and definition again, and a custom rule stays.  No request
  renames or deletes a built-in rule or changes these two columns, so that along any run they are
  those of the last startup that shipped the rule, under the id it had from the beginning.
-/
import Auditarr.RuleImport
import Auditarr.Runs

namespace BuiltinRules

open PyValues KeyedTable RuleDocument RuleImport

/-! ### The startup -/

/-- `BuiltinRule`. -/
structure BuiltinRule where
  name : String
  description : String
  priority : Int
  definition : Entries

/-- What a startup finds in the code, and the ids it draws: those of the rules with an index. -/
structure Startup where
  shipped : List BuiltinRule
  /-- `DISABLED_BY_DEFAULT`. -/
  disabledByDefault : List String
  uuid4 : Nat → String

/-- The counters of `register_builtin_rules`. -/
structure SeedStats where
  inserted : Nat
  refreshed : Nat
  unchanged : Nat
  conflicts : Nat

/-- `existing.description == spec.description and existing.definition == spec.definition`. -/
def isCurrent (spec : BuiltinRule) (existing : Rule) : Bool :=
  existing.body.description == some spec.description &&
    PyValue.eq (.dict existing.body.definition) (.dict spec.definition)

/-- The rule that is added. -/
def newRule (s : Startup) (index : Nat) (spec : BuiltinRule) : Rule :=
  ⟨s.uuid4 index, spec.name,
    ⟨some spec.description, decide (spec.name ∉ s.disabledByDefault), spec.priority,
      spec.definition⟩, true⟩

/-- The two assignments to an existing rule. -/
def refreshed (spec : BuiltinRule) (existing : Rule) : Rule :=
  { existing with
    body := { existing.body with
      description := some spec.description
      definition := spec.definition } }

/-- A turn of the loop. -/
def seedRule (s : Startup) (index : Nat) (spec : BuiltinRule)
    (state : Table Rule.name × SeedStats) : Table Rule.name × SeedStats :=
  let (rules, stats) := state
  match rules.find? spec.name with
  | none => (rules.upsert (newRule s index spec), { stats with inserted := stats.inserted + 1 })
  | some existing =>
      if !existing.isBuiltin then (rules, { stats with conflicts := stats.conflicts + 1 })
      else if isCurrent spec existing then (rules, { stats with unchanged := stats.unchanged + 1 })
      else (rules.upsert (refreshed spec existing),
        { stats with refreshed := stats.refreshed + 1 })

/-- The loop, over rules that start at an index. -/
def seedFrom (s : Startup) (index : Nat) :
    List BuiltinRule → Table Rule.name × SeedStats → Table Rule.name × SeedStats
  | [], state => state
  | spec :: rest, state => seedFrom s (index + 1) rest (seedRule s index spec state)

/-- `register_builtin_rules`. -/
def registerBuiltinRules (s : Startup) (rules : Table Rule.name) : Table Rule.name × SeedStats :=
  seedFrom s 0 s.shipped (rules, ⟨0, 0, 0, 0⟩)

/-! ### Requests -/

/-- `RuleCreate`. -/
structure RuleCreate where
  name : String
  body : RuleBody
  name_length : 1 ≤ name.length ∧ name.length ≤ 120
  description_length : ∀ text, body.description = some text → text.length ≤ 2000
  priority_range : 0 ≤ body.priority ∧ body.priority ≤ 10000

/-- `RuleUpdate`. -/
structure RuleUpdate where
  name : Option String
  description : Option String
  enabled : Option Bool
  priority : Option Int
  definition : Option Entries
  name_length : ∀ text, name = some text → 1 ≤ text.length ∧ text.length ≤ 120
  description_length : ∀ text, description = some text → text.length ≤ 2000
  priority_range : ∀ n, priority = some n → 0 ≤ n ∧ n ≤ 10000

inductive Refusal where
  | notFound
  | invalidDefinition
  /-- A rule has the name already. -/
  | conflict
  | forbiddenFields (fields : List String)
  | builtinDeleted (ruleId ruleName : String)
  /-- The unique index refuses the row. -/
  | nameClash (name : String)
  /-- The column does. -/
  | nameTooLong (name : String)

section Requests

variable (env : Env)

/-- `_validate_definition` does not raise. -/
def validDefinition (definition : Entries) : Bool :=
  (modelValidate env.py env.rt (.dict definition)).isSome

/-- `RuleRepository.get`. -/
def byId (rules : Table Rule.name) (id : String) : Option Rule :=
  rules.rows.find? fun rule => rule.id = id

/-- `RuleRepository.add`. -/
def addRow (rule : Rule) (rules : Table Rule.name) : Except Refusal (Table Rule.name) :=
  if (rules.find? rule.name).isSome then .error (.nameClash rule.name)
  else if env.fits rule.name then .ok (rules.upsert rule)
  else .error (.nameTooLong rule.name)

/-- The row of a rule is written again, perhaps under another name. -/
def writeRow (old new : Rule) (rules : Table Rule.name) : Except Refusal (Table Rule.name) :=
  if new.name ≠ old.name ∧ (rules.find? new.name).isSome then .error (.nameClash new.name)
  else .ok ((rules.erase fun rule => rule.name = old.name).upsert new)

/-- `create_rule`. -/
def createRule (uuid : String) (body : RuleCreate) (rules : Table Rule.name) :
    Except Refusal (Table Rule.name) :=
  if !validDefinition env body.body.definition then .error .invalidDefinition
  else if (rules.find? body.name).isSome then .error .conflict
  else addRow env ⟨uuid, body.name, body.body, false⟩ rules

/-- The fields of a request that a built-in rule does not take. -/
def forbiddenFields (rule : Rule) (body : RuleUpdate) : List String :=
  (if body.name.any (· ≠ rule.name) then ["name"] else []) ++
    (if body.description.isSome ∧ body.description ≠ rule.body.description then ["description"]
      else []) ++
    (if body.definition.isSome then ["definition"] else [])

/-- The assignments of `update_rule`. -/
def updated (rule : Rule) (body : RuleUpdate) : Rule where
  id := rule.id
  name := body.name.getD rule.name
  body :=
    { description := body.description.or rule.body.description
      enabled := body.enabled.getD rule.body.enabled
      priority := body.priority.getD rule.body.priority
      definition := body.definition.getD rule.body.definition }
  isBuiltin := rule.isBuiltin

/-- `update_rule`. -/
def updateRule (ruleId : String) (body : RuleUpdate) (rules : Table Rule.name) :
    Except Refusal (Table Rule.name) :=
  match byId rules ruleId with
  | none => .error .notFound
  | some rule =>
      if rule.isBuiltin ∧ forbiddenFields rule body ≠ [] then
        .error (.forbiddenFields (forbiddenFields rule body))
      else if body.definition.any (!validDefinition env ·) then .error .invalidDefinition
      else writeRow rule (updated rule body) rules

/-- `delete_rule`. -/
def deleteRule (ruleId : String) (rules : Table Rule.name) : Except Refusal (Table Rule.name) :=
  match byId rules ruleId with
  | none => .error .notFound
  | some rule =>
      if rule.isBuiltin then .error (.builtinDeleted ruleId rule.name)
      else .ok (rules.erase fun other => other.name = rule.name)

/-- `f"{base} (copy)"` and `f"{base} (copy {n})"`. -/
def copyName (base : String) (n : Nat) : String :=
  if n < 2 then base ++ " (copy)" else s!"{base} (copy {n})"

/-- The loop over the names of copies; it ends with the date. -/
def seekCopy (taken : String → Bool) (base now : String) : Nat → Nat → String
  | 0, _ => s!"{base} (copy {now})"
  | tries + 1, n =>
      if taken (copyName base n) then seekCopy taken base now tries (n + 1) else copyName base n

/-- `duplicate_rule`; the names up to `(copy 99)` are tried. -/
def duplicateRule (uuid now ruleId : String) (rules : Table Rule.name) :
    Except Refusal (Table Rule.name) :=
  match byId rules ruleId with
  | none => .error .notFound
  | some rule =>
      let candidate := seekCopy (fun name => (rules.find? name).isSome) rule.name now 99 1
      addRow env ⟨uuid, candidate, { rule.body with enabled := false }, false⟩ rules

end Requests

/-! ### Runs -/

inductive Action where
  | startup (s : Startup)
  | create (uuid : String) (body : RuleCreate)
  | update (ruleId : String) (body : RuleUpdate)
  | delete (ruleId : String)
  | duplicate (uuid now ruleId : String)
  | importBundle (env : Env) (req : RuleImportRequest)
  /-- `deploy_suggestion` or `use_template`: a custom rule of some name and body. -/
  | adopt (uuid name : String) (body : RuleBody)

/-- What a request that is refused has done is rolled back. -/
def committed (rules : Table Rule.name) : Except Refusal (Table Rule.name) → Table Rule.name
  | .ok rules' => rules'
  | .error _ => rules

def step (env : Env) (rules : Table Rule.name) : Action → Table Rule.name
  | .startup s => (registerBuiltinRules s rules).1
  | .create uuid body => committed rules (createRule env uuid body rules)
  | .update ruleId body => committed rules (updateRule env ruleId body rules)
  | .delete ruleId => committed rules (deleteRule ruleId rules)
  | .duplicate uuid now ruleId => committed rules (duplicateRule env uuid now ruleId rules)
  | .importBundle env' req => rulesAfter env' req rules
  | .adopt uuid name body => committed rules (addRow env ⟨uuid, name, body, false⟩ rules)

/-- What the code owns of a rule, with the id: nothing of a custom one. -/
def owned (rule : Rule) : Option (String × Option String × Entries) :=
  if rule.isBuiltin then some (rule.id, rule.body.description, rule.body.definition) else none

/-- What it owns of the rule of a name. -/
def ownedByCode (rules : Table Rule.name) (name : String) :
    Option (String × Option String × Entries) :=
  (rules.find? name).bind owned

/-- The columns are those that the code ships. -/
def CurrentFor (spec : BuiltinRule) (columns : String × Option String × Entries) : Prop :=
  columns.2.1 = some spec.description ∧
    (columns.2.2 = spec.definition ∨
      PyValue.eq (.dict columns.2.2) (.dict spec.definition) = true)

/-- The last of the shipped rules with a name. -/
def lastSpec (specs : List BuiltinRule) (name : String) : Option BuiltinRule :=
  specs.reverse.find? fun spec => spec.name = name

/-- The columns of each built-in rule are those that were shipped last, or were there before. -/
def Owned (before : Table Rule.name) (specs : List BuiltinRule) (rules : Table Rule.name) : Prop :=
  ∀ name, match lastSpec specs name with
    | none => ownedByCode rules name = ownedByCode before name
    | some spec => ∀ columns, ownedByCode rules name = some columns → CurrentFor spec columns

/-! ### One turn of the loop -/

section Seeding

variable {s : Startup} {index : Nat} {spec : BuiltinRule} {rules : Table Rule.name}

/-- What a turn makes of the rule it finds. -/
inductive Turn (s : Startup) (index : Nat) (spec : BuiltinRule) (rules : Table Rule.name) :
    Table Rule.name → Prop where
  | added : rules.find? spec.name = none →
      Turn s index spec rules (rules.upsert (newRule s index spec))
  | custom {rule : Rule} : rules.find? spec.name = some rule → rule.isBuiltin = false →
      Turn s index spec rules rules
  | current {rule : Rule} : rules.find? spec.name = some rule → rule.isBuiltin = true →
      isCurrent spec rule = true → Turn s index spec rules rules
  | refreshed {rule : Rule} : rules.find? spec.name = some rule → rule.isBuiltin = true →
      Turn s index spec rules (rules.upsert (refreshed spec rule))

theorem seedRule_turn (s : Startup) (index : Nat) (spec : BuiltinRule)
    (state : Table Rule.name × SeedStats) :
    Turn s index spec state.1 (seedRule s index spec state).1 := by
  obtain ⟨rules, stats⟩ := state
  simp only [seedRule]
  cases hfind : rules.find? spec.name with
  | none => exact .added hfind
  | some rule =>
    cases hbuiltin : rule.isBuiltin with
    | false => simpa [hbuiltin] using Turn.custom hfind hbuiltin
    | true =>
      cases hcurrent : isCurrent spec rule with
      | true => simpa [hbuiltin, hcurrent] using Turn.current hfind hbuiltin hcurrent
      | false => simpa [hbuiltin, hcurrent] using Turn.refreshed hfind hbuiltin

theorem Turn.find_other {after : Table Rule.name} (h : Turn s index spec rules after)
    {name : String} (hne : name ≠ spec.name) : after.find? name = rules.find? name := by
  cases h with
  | added _ =>
    rw [Table.find?_upsert]
    exact if_neg hne
  | custom _ _ => rfl
  | current _ _ _ => rfl
  | refreshed hfind _ =>
    rw [Table.find?_upsert, if_neg]
    exact fun heq => hne (heq.trans (Table.mem_of_find? hfind).2)

/-- Two rows that a startup takes one for the other. -/
structure SameRow (rule rule' : Rule) : Prop where
  id : rule'.id = rule.id
  name : rule'.name = rule.name
  isBuiltin : rule'.isBuiltin = rule.isBuiltin
  enabled : rule'.body.enabled = rule.body.enabled
  priority : rule'.body.priority = rule.body.priority
  custom : rule.isBuiltin = false → rule' = rule

theorem SameRow.refl (rule : Rule) : SameRow rule rule := ⟨rfl, rfl, rfl, rfl, rfl, fun _ => rfl⟩

theorem SameRow.trans {rule rule' rule'' : Rule} (h : SameRow rule rule')
    (h' : SameRow rule' rule'') : SameRow rule rule'' where
  id := h'.id.trans h.id
  name := h'.name.trans h.name
  isBuiltin := h'.isBuiltin.trans h.isBuiltin
  enabled := h'.enabled.trans h.enabled
  priority := h'.priority.trans h.priority
  custom hcustom := (h'.custom (h.isBuiltin.trans hcustom)).trans (h.custom hcustom)

theorem Turn.find_self {after : Table Rule.name} (h : Turn s index spec rules after) :
    ∃ rule, after.find? spec.name = some rule ∧
      (∀ old, rules.find? spec.name = some old → SameRow old rule) ∧
      (rule.isBuiltin = true → rule.body.description = some spec.description ∧
        (rule.body.definition = spec.definition ∨ isCurrent spec rule = true)) := by
  cases h with
  | added hfind =>
    refine ⟨newRule s index spec, ?_, ?_, fun _ => ⟨rfl, .inl rfl⟩⟩
    · rw [Table.find?_upsert]
      exact if_pos rfl
    · rw [hfind]
      nofun
  | @custom rule hfind hcustom =>
    refine ⟨rule, hfind, fun old hold => ?_, fun hbuiltin => ?_⟩
    · rw [hfind] at hold
      cases hold
      exact .refl rule
    · rw [hcustom] at hbuiltin
      cases hbuiltin
  | @current rule hfind _ hcurrent =>
    refine ⟨rule, hfind, fun old hold => ?_, fun _ => ⟨?_, .inr hcurrent⟩⟩
    · rw [hfind] at hold
      cases hold
      exact .refl rule
    · rw [isCurrent, Bool.and_eq_true, beq_iff_eq] at hcurrent
      exact hcurrent.1
  | @refreshed rule hfind hbuiltin =>
    have hname : rule.name = spec.name := (Table.mem_of_find? hfind).2
    refine ⟨BuiltinRules.refreshed spec rule, ?_, fun old hold => ?_, fun _ => ⟨rfl, .inl rfl⟩⟩
    · rw [Table.find?_upsert, if_pos]
      exact hname.symm
    · rw [hfind] at hold
      cases hold
      refine ⟨rfl, rfl, rfl, rfl, rfl, fun hcustom => ?_⟩
      rw [hbuiltin] at hcustom
      cases hcustom

theorem Turn.sameRow {after : Table Rule.name} (h : Turn s index spec rules after) {name : String}
    {old : Rule} (hold : rules.find? name = some old) :
    ∃ rule, after.find? name = some rule ∧ SameRow old rule := by
  by_cases hname : name = spec.name
  · subst hname
    obtain ⟨rule, hfind, hsame, -⟩ := h.find_self
    exact ⟨rule, hfind, hsame old hold⟩
  · exact ⟨old, (h.find_other hname).trans hold, .refl old⟩

theorem lastSpec_append (specs : List BuiltinRule) (spec : BuiltinRule) (name : String) :
    lastSpec (specs ++ [spec]) name =
      if spec.name = name then some spec else lastSpec specs name := by
  by_cases h : spec.name = name <;> simp [lastSpec, h]

theorem ownedByCode_eq {rules rules' : Table Rule.name} {name : String}
    (h : rules'.find? name = rules.find? name) :
    ownedByCode rules' name = ownedByCode rules name := by
  rw [ownedByCode, ownedByCode, h]

theorem ownedByCode_find {name : String} {rule : Rule} (h : rules.find? name = some rule) :
    ownedByCode rules name = owned rule := by
  rw [ownedByCode, h, Option.bind_some]

theorem owned_eq_some {rule : Rule} {columns : String × Option String × Entries} :
    owned rule = some columns ↔ rule.isBuiltin = true ∧
      columns = (rule.id, rule.body.description, rule.body.definition) := by
  unfold owned
  split <;> rename_i hbuiltin <;> simp [hbuiltin, eq_comm]

theorem owned_custom {rule : Rule} (h : rule.isBuiltin = false) : owned rule = none := by
  rw [owned, h, if_neg Bool.false_ne_true]

theorem Owned.turn {before after : Table Rule.name} {specs : List BuiltinRule}
    (h : Owned before specs rules) (hturn : Turn s index spec rules after) :
    Owned before (specs ++ [spec]) after := by
  intro name
  rw [lastSpec_append]
  by_cases hname : spec.name = name
  · subst hname
    rw [if_pos rfl]
    intro columns howned
    obtain ⟨rule, hfind, -, hshipped⟩ := hturn.find_self
    rw [ownedByCode_find hfind, owned_eq_some] at howned
    obtain ⟨hbuiltin, rfl⟩ := howned
    obtain ⟨hdescription, hdefinition⟩ := hshipped hbuiltin
    refine ⟨hdescription, hdefinition.imp_right fun hcurrent => ?_⟩
    rw [isCurrent, Bool.and_eq_true] at hcurrent
    exact hcurrent.2
  · rw [if_neg hname, ownedByCode_eq (hturn.find_other (Ne.symm hname))]
    exact h name

end Seeding

/-! ### The loop -/

section Loop

variable {s : Startup} {rules : Table Rule.name}

theorem seedFrom_preserves {I : List BuiltinRule → Table Rule.name → Prop} (s : Startup)
    (hstep : ∀ done spec index rules after, I done rules → Turn s index spec rules after →
      I (done ++ [spec]) after)
    (specs : List BuiltinRule) {done : List BuiltinRule} (index : Nat)
    {state : Table Rule.name × SeedStats} (hstart : I done state.1) :
    I (done ++ specs) (seedFrom s index specs state).1 := by
  induction specs generalizing done index state with
  | nil => simpa [seedFrom] using hstart
  | cons spec rest ih =>
    rw [seedFrom, List.append_cons]
    exact ih (index + 1) (hstep done spec index _ _ hstart (seedRule_turn s index spec state))

theorem registerBuiltinRules_preserves {I : List BuiltinRule → Table Rule.name → Prop}
    (s : Startup) (done : List BuiltinRule) (rules : Table Rule.name)
    (hstep : ∀ done spec index rules after, I done rules → Turn s index spec rules after →
      I (done ++ [spec]) after) (hstart : I done rules) :
    I (done ++ s.shipped) (registerBuiltinRules s rules).1 :=
  seedFrom_preserves s hstep s.shipped 0 hstart

theorem register_sameRow (s : Startup) {name : String} {old : Rule}
    (hold : rules.find? name = some old) :
    ∃ rule, (registerBuiltinRules s rules).1.find? name = some rule ∧ SameRow old rule := by
  refine registerBuiltinRules_preserves (I := fun _ rules' => ∃ rule,
    rules'.find? name = some rule ∧ SameRow old rule) s [] rules ?_ ⟨old, hold, .refl old⟩
  rintro _ spec index rules' after ⟨rule, hfind, hsame⟩ hturn
  obtain ⟨rule', hfind', hsame'⟩ := hturn.sameRow hfind
  exact ⟨rule', hfind', hsame.trans hsame'⟩

end Loop

/-! ### Requests leave the built-in rules to the code -/

section Guarded

variable {env : Env} {rules rules' : Table Rule.name}

theorem ownedByCode_upsert (rule : Rule) (name : String) :
    ownedByCode (rules.upsert rule) name =
      if name = rule.name then owned rule else ownedByCode rules name := by
  by_cases hname : name = rule.name
  · rw [if_pos hname]
    apply ownedByCode_find
    rw [Table.find?_upsert, if_pos hname]
  · rw [if_neg hname]
    apply ownedByCode_eq
    rw [Table.find?_upsert, if_neg hname]

theorem ownedByCode_erase (name erased : String) :
    ownedByCode (rules.erase fun rule => rule.name = erased) name =
      if name = erased then none else ownedByCode rules name := by
  by_cases hname : name = erased
  · subst hname
    rw [if_pos rfl, ownedByCode, Table.find?_erase_self, Option.bind_none]
  · rw [if_neg hname]
    exact ownedByCode_eq (Table.find?_erase_other hname)

theorem ownedByCode_upsert_custom {rule : Rule} (hcustom : rule.isBuiltin = false)
    (hfree : ownedByCode rules rule.name = none) :
    ownedByCode (rules.upsert rule) = ownedByCode rules := by
  funext name
  rw [ownedByCode_upsert]
  split
  · rename_i hname
    rw [hname, hfree, owned_custom hcustom]
  · rfl

theorem byId_find {id : String} {rule : Rule} (h : byId rules id = some rule) :
    rules.find? rule.name = some rule :=
  Table.find?_eq_some.mpr ⟨List.mem_of_find?_eq_some h, rfl⟩

theorem addRow_owned {rule : Rule} (hcustom : rule.isBuiltin = false)
    (h : addRow env rule rules = .ok rules') : ownedByCode rules' = ownedByCode rules := by
  unfold addRow at h
  split at h
  · cases h
  · rename_i hfree
    split at h
    · cases h
      apply ownedByCode_upsert_custom hcustom
      rw [ownedByCode, Option.not_isSome_iff_eq_none.mp hfree, Option.bind_none]
    · cases h

theorem writeRow_owned {old new : Rule} (hold : rules.find? old.name = some old)
    (hsame : owned new = owned old) (hname : old.isBuiltin = true → new.name = old.name)
    (h : writeRow old new rules = .ok rules') : ownedByCode rules' = ownedByCode rules := by
  unfold writeRow at h
  split at h
  · cases h
  · rename_i hclash
    cases h
    funext name
    rw [ownedByCode_upsert, ownedByCode_erase]
    by_cases hkept : new.name = old.name
    · rw [hkept]
      by_cases hself : name = old.name
      · rw [if_pos hself, hself, ownedByCode_find hold, hsame]
      · rw [if_neg hself, if_neg hself]
    · have hcustom : owned old = none :=
        owned_custom (Bool.eq_false_iff.mpr fun hbuiltin => hkept (hname hbuiltin))
      have hfree : rules.find? new.name = none := by
        simpa [hkept] using hclash
      by_cases hnew : name = new.name
      · rw [if_pos hnew, hnew, hsame, hcustom, ownedByCode, hfree, Option.bind_none]
      · rw [if_neg hnew]
        by_cases hself : name = old.name
        · rw [if_pos hself, hself, ownedByCode_find hold, hcustom]
        · rw [if_neg hself]

theorem updated_owned {rule : Rule} {body : RuleUpdate}
    (h : ¬(rule.isBuiltin = true ∧ forbiddenFields rule body ≠ [])) :
    owned (updated rule body) = owned rule ∧
      (rule.isBuiltin = true → (updated rule body).name = rule.name) := by
  cases hbuiltin : rule.isBuiltin with
  | false =>
    have hcustom : (updated rule body).isBuiltin = false := hbuiltin
    exact ⟨by rw [owned_custom hbuiltin, owned_custom hcustom], nofun⟩
  | true =>
    have hallowed : forbiddenFields rule body = [] := by
      simpa [hbuiltin] using h
    simp only [forbiddenFields, List.append_eq_nil_iff, ite_eq_right_iff, reduceCtorEq,
      imp_false] at hallowed
    obtain ⟨⟨hname, hdescription⟩, hdefinition⟩ := hallowed
    have hsamename : body.name.getD rule.name = rule.name := by
      cases hasked : body.name with
      | none => rfl
      | some name => simpa [hasked] using hname
    have hsamedescription : body.description.or rule.body.description = rule.body.description := by
      cases hasked : body.description with
      | none => rfl
      | some text => simpa [hasked] using hdescription
    have hsamedefinition : body.definition.getD rule.body.definition = rule.body.definition := by
      rw [Option.not_isSome_iff_eq_none.mp hdefinition, Option.getD_none]
    exact ⟨by simp only [owned, updated, hsamedescription, hsamedefinition], fun _ => hsamename⟩

theorem committed_owned {result : Except Refusal (Table Rule.name)}
    (h : ∀ rules', result = .ok rules' → ownedByCode rules' = ownedByCode rules) :
    ownedByCode (committed rules result) = ownedByCode rules := by
  cases result with
  | error refusal => rfl
  | ok rules' => exact h rules' rfl

theorem updateRule_owned {ruleId : String} {body : RuleUpdate}
    (h : updateRule env ruleId body rules = .ok rules') :
    ownedByCode rules' = ownedByCode rules := by
  unfold updateRule at h
  split at h
  · cases h
  · rename_i rule hfound
    split at h
    · cases h
    · rename_i hallowed
      split at h
      · cases h
      · obtain ⟨hsame, hname⟩ := updated_owned hallowed
        exact writeRow_owned (byId_find hfound) hsame hname h

theorem deleteRule_owned {ruleId : String} (h : deleteRule ruleId rules = .ok rules') :
    ownedByCode rules' = ownedByCode rules := by
  unfold deleteRule at h
  split at h
  · cases h
  · rename_i rule hfound
    split at h
    · cases h
    · rename_i hcustom
      cases h
      funext name
      rw [ownedByCode_erase]
      split
      · rename_i hname
        rw [hname, ownedByCode_find (byId_find hfound),
          owned_custom (Bool.eq_false_iff.mpr hcustom)]
      · rfl

theorem createRule_owned {uuid : String} {body : RuleCreate}
    (h : createRule env uuid body rules = .ok rules') : ownedByCode rules' = ownedByCode rules := by
  unfold createRule at h
  split at h
  · cases h
  · split at h
    · cases h
    · exact addRow_owned rfl h

theorem duplicateRule_owned {uuid now ruleId : String}
    (h : duplicateRule env uuid now ruleId rules = .ok rules') :
    ownedByCode rules' = ownedByCode rules := by
  unfold duplicateRule at h
  split at h
  · cases h
  · exact addRow_owned rfl h

theorem change_owned {onConflict : OnConflict} {entry : RuleExportEntry} {b b' : Batch}
    (h : Change env onConflict entry b b') : ownedByCode b'.rules = ownedByCode b.rules := by
  cases h with
  | none hrules => rw [hrules]
  | create rule _ hadds _ =>
    rw [hadds.rules]
    apply ownedByCode_upsert_custom hadds.custom
    have hfree : b.rules.find? rule.name = none := by
      simpa [named_iff_find] using hadds.fresh
    rw [ownedByCode, hfree, Option.bind_none]
  | overwrite existing _ _ hmem hname hcustom hrules _ =>
    have hfind : b.rules.find? existing.name = some existing :=
      Table.find?_eq_some.mpr ⟨hmem, rfl⟩
    rw [hrules]
    funext name
    rw [ownedByCode, overwriteRule, Table.find?_update]
    cases hother : b.rules.find? name with
    | none => rw [ownedByCode, hother, Option.map_none]
    | some rule =>
      rw [ownedByCode_find hother, Option.map_some, Option.bind_some]
      split
      · rename_i hsame
        have hsame' : rule.name = existing.name := (of_decide_eq_true hsame).trans hname.symm
        have hrule : rule = existing :=
          Table.eq_of_key_eq (Table.mem_of_find? hother).1 hmem hsame'
        subst hrule
        have hbody : ({ rule with body := entry.body } : Rule).isBuiltin = false := hcustom
        rw [owned_custom hcustom, owned_custom hbody]
      · rfl

theorem import_owned (req : RuleImportRequest) :
    ownedByCode (rulesAfter env req rules) = ownedByCode rules := by
  unfold rulesAfter
  cases hrun : importRules env req rules with
  | error e => rfl
  | ok result =>
    obtain ⟨last, hloop, hafter, -⟩ := importRules_ok hrun
    show ownedByCode result.2 = _
    rw [hafter]
    exact (importFrom_whole (I := fun _ b => ownedByCode b.rules = ownedByCode rules)
      (fun _ _ b b' hb hchange => (change_owned hchange).trans hb) (flushed_start rules) rfl
      hloop).1

theorem step_owned (env : Env) (rules : Table Rule.name) {action : Action}
    (h : ∀ s, action ≠ .startup s) : ownedByCode (step env rules action) = ownedByCode rules := by
  cases action with
  | startup s => exact absurd rfl (h s)
  | create uuid body => exact committed_owned fun _ => createRule_owned
  | update ruleId body => exact committed_owned fun _ => updateRule_owned
  | delete ruleId => exact committed_owned fun _ => deleteRule_owned
  | duplicate uuid now ruleId => exact committed_owned fun _ => duplicateRule_owned
  | importBundle env' req => exact import_owned req
  | adopt uuid name body => exact committed_owned fun _ => addRow_owned rfl

end Guarded

/-! ### Startups that find their rules -/

section Again

variable {s : Startup} {rules : Table Rule.name}

/-- A startup has nothing to do for a shipped rule. -/
def Settled (spec : BuiltinRule) (rules : Table Rule.name) : Prop :=
  ∃ rule, rules.find? spec.name = some rule ∧
    (rule.isBuiltin = true → isCurrent spec rule = true)

theorem Settled.seedRule {spec : BuiltinRule} {state : Table Rule.name × SeedStats}
    (h : Settled spec state.1) (s : Startup) (index : Nat) :
    (seedRule s index spec state).1 = state.1 := by
  obtain ⟨rules, stats⟩ := state
  obtain ⟨rule, hfind, hcurrent⟩ := h
  simp only [BuiltinRules.seedRule, hfind]
  cases hbuiltin : rule.isBuiltin with
  | false => rfl
  | true => simp [hcurrent hbuiltin]

theorem seedFrom_settled (s : Startup) {specs : List BuiltinRule} (index : Nat)
    {state : Table Rule.name × SeedStats} (h : ∀ spec ∈ specs, Settled spec state.1) :
    (seedFrom s index specs state).1 = state.1 := by
  induction specs generalizing index state with
  | nil => rfl
  | cons spec rest ih =>
    obtain ⟨hfirst, hrest⟩ := List.forall_mem_cons.mp h
    have hsame := hfirst.seedRule s index
    rw [seedFrom, ih, hsame]
    intro spec' hspec'
    rw [hsame]
    exact hrest spec' hspec'

/-- A definition without numbers that differ from themselves. -/
def SelfEqual (spec : BuiltinRule) : Prop :=
  PyValue.eq (.dict spec.definition) (.dict spec.definition) = true

theorem register_settles (s : Startup) (hdistinct : (s.shipped.map (·.name)).Nodup)
    (hequal : ∀ spec ∈ s.shipped, SelfEqual spec) (rules : Table Rule.name) :
    ∀ spec ∈ s.shipped, Settled spec (registerBuiltinRules s rules).1 := by
  have hpreserved := registerBuiltinRules_preserves
    (I := fun done rules' => (done.map (·.name)).Nodup → (∀ spec ∈ done, SelfEqual spec) →
      ∀ spec ∈ done, Settled spec rules') s [] rules ?_ (by simp)
  · exact hpreserved hdistinct hequal
  · intro done spec index rules' after hdone hturn hnames hself other hother
    rw [List.map_append, List.nodup_append] at hnames
    rcases List.mem_append.mp hother with hbefore | hnow
    · have hne : other.name ≠ spec.name :=
        hnames.2.2 _ (List.mem_map_of_mem hbefore) _ (by simp)
      obtain ⟨rule, hfind, hcurrent⟩ := hdone hnames.1
        (fun spec' hspec' => hself spec' (List.mem_append_left _ hspec')) other hbefore
      exact ⟨rule, (hturn.find_other hne).trans hfind, hcurrent⟩
    · obtain rfl := List.mem_singleton.mp hnow
      obtain ⟨rule, hfind, -, hshipped⟩ := hturn.find_self
      refine ⟨rule, hfind, fun hbuiltin => ?_⟩
      obtain ⟨hdescription, hdefinition | hcurrent⟩ := hshipped hbuiltin
      · rw [isCurrent, hdescription, hdefinition, hself other hother]
        simp
      · exact hcurrent

end Again

/-! ### Any run -/

/-- The rules that the startups of a run ship, in turn. -/
def shippedIn : Action → List BuiltinRule
  | .startup s => s.shipped
  | _ => []

theorem Owned.request {before rules rules' : Table Rule.name} {specs : List BuiltinRule}
    (h : Owned before specs rules) (hsame : ownedByCode rules' = ownedByCode rules) :
    Owned before specs rules' := by
  intro name
  rw [hsame]
  exact h name

theorem owned_final (env : Env) (rules : Table Rule.name) (run : List Action) :
    Owned rules (run.flatMap shippedIn) (Runs.final (step env) rules run) := by
  refine Runs.final_history (P := fun done rules' => Owned rules (done.flatMap shippedIn) rules')
    _ (fun name => rfl) (fun done rules' action h => ?_) run
  rw [List.flatMap_append, List.flatMap_singleton]
  by_cases hstartup : ∃ s, action = .startup s
  · obtain ⟨s, rfl⟩ := hstartup
    exact registerBuiltinRules_preserves s _ rules' (fun _ _ _ _ _ => Owned.turn) h
  · have hrequest : ∀ s, action ≠ .startup s := fun s hs => hstartup ⟨s, hs⟩
    have hnone : shippedIn action = [] := by
      cases action with
      | startup s => exact absurd rfl (hrequest s)
      | _ => rfl
    rw [hnone, List.append_nil]
    exact h.request (step_owned env rules' hrequest)

theorem builtin_stays (env : Env) (rules : Table Rule.name) (run : List Action) {name id : String}
    (h : (ownedByCode rules name).map Prod.fst = some id) :
    (ownedByCode (Runs.final (step env) rules run) name).map Prod.fst = some id := by
  refine Runs.final_invariant (I := fun rules' => (ownedByCode rules' name).map Prod.fst = some id)
    _ (fun action _ rules' hrules' => ?_) h
  by_cases hstartup : ∃ s, action = .startup s
  · obtain ⟨s, rfl⟩ := hstartup
    obtain ⟨columns, hcolumns, hid⟩ := Option.map_eq_some_iff.mp hrules'
    obtain ⟨rule, hfind, howned⟩ := Option.bind_eq_some_iff.mp hcolumns
    obtain ⟨rule', hfind', hsame⟩ := register_sameRow s hfind
    obtain ⟨hbuiltin, rfl⟩ := owned_eq_some.mp howned
    change (ownedByCode (registerBuiltinRules s rules').1 name).map Prod.fst = some id
    rw [ownedByCode_find hfind', owned, hsame.isBuiltin, hbuiltin, if_pos rfl, hsame.id]
    exact congrArg some hid
  · rw [step_owned env rules' fun s hs => hstartup ⟨s, hs⟩]
    exact hrules'

section Added

variable {s : Startup} {specs : List BuiltinRule} {name : String}

theorem seedFrom_find_other (hother : ∀ spec ∈ specs, name ≠ spec.name) (index : Nat)
    (state : Table Rule.name × SeedStats) :
    (seedFrom s index specs state).1.find? name = state.1.find? name := by
  induction specs generalizing index state with
  | nil => rfl
  | cons spec rest ih =>
    rw [seedFrom, ih fun spec' hspec' => hother spec' (List.mem_cons_of_mem _ hspec')]
    exact (seedRule_turn s index spec state).find_other (hother spec (List.mem_cons_self ..))

theorem seedFrom_adds (hdistinct : (specs.map (·.name)).Nodup) {i : Nat} {spec : BuiltinRule}
    (hspec : specs[i]? = some spec) (index : Nat) (state : Table Rule.name × SeedStats)
    (hmissing : state.1.find? spec.name = none) :
    (seedFrom s index specs state).1.find? spec.name = some (newRule s (index + i) spec) := by
  induction specs generalizing i index state with
  | nil => cases hspec
  | cons first rest ih =>
    rw [List.map_cons, List.nodup_cons] at hdistinct
    have hnames : ∀ spec' ∈ rest, first.name ≠ spec'.name := by
      intro spec' hspec' heq
      exact hdistinct.1 (heq ▸ List.mem_map_of_mem hspec')
    cases i with
    | zero =>
      obtain rfl : first = spec := by simpa using hspec
      obtain ⟨rules, stats⟩ := state
      rw [seedFrom, seedFrom_find_other hnames]
      simp only at hmissing
      simp only [seedRule, hmissing]
      rw [Table.find?_upsert]
      exact if_pos rfl
    | succ i =>
      rw [List.getElem?_cons_succ] at hspec
      have hne : spec.name ≠ first.name := (hnames spec (List.mem_of_getElem? hspec)).symm
      have hstill : (seedRule s index first state).1.find? spec.name = none := by
        rw [(seedRule_turn s index first state).find_other hne, hmissing]
      rw [seedFrom, ih hdistinct.2 hspec (index + 1) _ hstill]
      congr 2
      omega

end Added

/-- Along any run of startups, with the rules that each ships, and of requests: the description
    and the definition of a built-in rule are those shipped last under its name, or as they were;
    it keeps its name and its id and is there to the end.  A startup leaves every row with its
    switch and its priority, and custom rules as they are; where the shipped names are distinct it
    adds the rules whose names nobody has; and where a definition equals itself the next startup
    with the same rules changes nothing. -/
theorem builtin_rules_owned (env : Env) (rules : Table Rule.name) (run : List Action) :
    let after := Runs.final (step env) rules run
    Owned rules (run.flatMap shippedIn) after ∧
    (∀ name id, (ownedByCode rules name).map Prod.fst = some id →
      (ownedByCode after name).map Prod.fst = some id) ∧
    ∀ s, (∀ name old, after.find? name = some old →
        ∃ rule, (registerBuiltinRules s after).1.find? name = some rule ∧ SameRow old rule) ∧
      ((s.shipped.map (·.name)).Nodup →
        (∀ i spec, s.shipped[i]? = some spec → after.find? spec.name = none →
          (registerBuiltinRules s after).1.find? spec.name = some (newRule s i spec)) ∧
        ((∀ spec ∈ s.shipped, SelfEqual spec) →
          (∀ spec ∈ s.shipped, Settled spec (registerBuiltinRules s after).1) ∧
          ∀ s', s'.shipped = s.shipped →
            (registerBuiltinRules s' (registerBuiltinRules s after).1).1 =
              (registerBuiltinRules s after).1)) := by
  refine ⟨owned_final env rules run, fun name id => builtin_stays env rules run,
    fun s => ⟨fun name old => register_sameRow s, fun hdistinct => ⟨?_, fun hequal => ?_⟩⟩⟩
  · intro i spec hspec hmissing
    have hadded := seedFrom_adds (s := s) hdistinct hspec 0
      (Runs.final (step env) rules run, ⟨0, 0, 0, 0⟩) hmissing
    rwa [Nat.zero_add] at hadded
  · have hsettled := register_settles s hdistinct hequal (Runs.final (step env) rules run)
    refine ⟨hsettled, fun s' hsame => seedFrom_settled s' 0 ?_⟩
    rw [hsame]
    exact hsettled

/-! ### A new version -/

def shippedAvi (description : String) : BuiltinRule :=
  ⟨"Flag AVI", description, 10, flagDefinition⟩

def shippedWmv : BuiltinRule := ⟨"Flag WMV", "WMV is old.", 20, flagDefinition⟩

def firstVersion : Startup := ⟨[shippedAvi "AVI is old."], [], fun _ => "b1"⟩

/-- It describes the rule anew, and ships another. -/
def secondVersion : Startup :=
  ⟨[shippedAvi "AVI is outdated.", shippedWmv], ["Flag WMV"], fun _ => "b2"⟩

/-- The rule of the first version is switched off. -/
def switchedOff : List Action :=
  [.startup firstVersion, .update "b1" ⟨none, none, some false, none, none, nofun, nofun, nofun⟩]

theorem builtin_rules_owned_secondVersion :
    let after := Runs.final (step importEnv) Table.empty switchedOff
    let started := (registerBuiltinRules secondVersion after).1
    (∃ rule, started.find? "Flag AVI" = some rule ∧ rule.body.enabled = false) ∧
      started.find? "Flag WMV" = some (newRule secondVersion 1 shippedWmv) ∧
      (registerBuiltinRules secondVersion started).1 = started := by
  obtain ⟨-, -, hstartup⟩ := builtin_rules_owned importEnv Table.empty switchedOff
  obtain ⟨hsame, hshipped⟩ := hstartup secondVersion
  obtain ⟨hadds, hrepeated⟩ := hshipped (by decide)
  refine ⟨?_, hadds 1 shippedWmv rfl (by decide +kernel), (hrepeated ?_).2 secondVersion rfl⟩
  · have hfind : ((Runs.final (step importEnv) Table.empty switchedOff).find? "Flag AVI").map
        (·.body.enabled) = some false := by
      decide +kernel
    obtain ⟨old, hold, hoff⟩ := Option.map_eq_some_iff.mp hfind
    obtain ⟨rule, hrule, hsamerow⟩ := hsame "Flag AVI" old hold
    exact ⟨rule, hrule, hsamerow.enabled.trans hoff⟩
  · intro spec hspec
    have hself : PyValue.eq (.dict flagDefinition) (.dict flagDefinition) = true := by
      decide +kernel
    simp only [secondVersion, List.mem_cons, List.not_mem_nil, or_false] at hspec
    rcases hspec with rfl | rfl
    · exact hself
    · exact hself

end BuiltinRules
