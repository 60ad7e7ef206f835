/-
  Auditarr/RuleImport.lean
  ========================
  **Importing a rule bundle** (`app/api/v1/rules.py`: `import_rules`,
  `_next_available_name`).

  Entries are imported one after the other, and each sees the rules that the earlier ones
  left.  An entry whose name is taken is skipped, stored under another name, or written over
  the rule that has the name.

  The search for another name gives up after a hundred and takes one that ends in the time of
  day, without looking whether it is free.  And a rule that an earlier entry created is found
  by its name like any other, so that it is overwritten too.  `import_sound_iff` says which
  imports meet neither.
-/
import Auditarr.KeyedTable
import Auditarr.RuleDocument

namespace RuleImport

open PyValues KeyedTable RuleDocument

/-! ### Rules and bundles -/

/-- What an import sets: `description`, `enabled`, `priority`, `definition`. -/
structure RuleBody where
  description : Option String
  enabled : Bool
  priority : Int
  definition : Entries

/-- A row of `rules`. -/
structure Rule where
  id : String
  name : String
  body : RuleBody
  isBuiltin : Bool

/-- `RuleExportEntry`. -/
structure RuleExportEntry where
  name : String
  body : RuleBody
  name_length : 1 ≤ name.length ∧ name.length ≤ 120
  priority_range : 0 ≤ body.priority ∧ body.priority ≤ 10000

inductive OnConflict where
  | skip | rename | overwrite
deriving DecidableEq, Repr

/-- `RuleImportRequest`, with the bundle's `version` and `rules`. -/
structure RuleImportRequest where
  version : String
  rules : List RuleExportEntry
  onConflict : OnConflict

inductive Action where
  | created | skipped | renamed | overwritten | error
deriving DecidableEq, Repr

structure RuleImportOutcome where
  name : String
  finalName : String
  action : Action
  ruleId : Option String
  error : Option String

structure RuleImportResponse where
  created : Nat
  skipped : Nat
  renamed : Nat
  overwritten : Nat
  errors : Nat
  outcomes : List RuleImportOutcome

inductive ImportError where
  | unsupportedVersion (version : String)
  /-- The unique index on `rules.name` refuses the row. -/
  | nameClash (name : String)
  /-- The column `name` does. -/
  | nameTooLong (name : String)
deriving DecidableEq

/-! ### The import -/

structure Env where
  py : Pydantic
  rt : PyRuntime
  /-- `uuid4()` for the rule of the entry with this index. -/
  uuid4 : Nat → String
  /-- `_dt_now_short()` when that entry is imported. -/
  nowShort : Nat → String
  /-- The column `name`, a `String(120)`, takes this name.  Some databases take all. -/
  fits : String → Bool
  fits_short : ∀ name, name.length ≤ 120 → fits name = true

/-- The table and the local variables of `import_rules`. -/
structure Batch where
  rules : Table Rule.name
  minted : List String
  outcomes : List RuleImportOutcome
  tally : Action → Nat

def Batch.start (rules : Table Rule.name) : Batch := ⟨rules, [], [], fun _ => 0⟩

/-- An outcome, and the counter of its action. -/
def Batch.report (b : Batch) (outcome : RuleImportOutcome) : Batch :=
  { b with
    outcomes := b.outcomes ++ [outcome]
    tally := Function.update b.tally outcome.action (b.tally outcome.action + 1) }

/-- `f"{base} (imported)"`. -/
def importedName (base : String) : String := base ++ " (imported)"

/-- `f"{base} (imported {n})"`. -/
def numberedName (base : String) (n : Nat) : String := s!"{base} (imported {n})"

/-- `f"{base} (imported {_dt_now_short()})"`. -/
def datedName (base now : String) : String := s!"{base} (imported {now})"

/-- The first free one of some numbered names. -/
def seekName (taken : String → Bool) (base : String) : Nat → Nat → Option String
  | 0, _ => none
  | tries + 1, n =>
      if taken (numberedName base n) then seekName taken base tries (n + 1)
      else some (numberedName base n)

/-- `_next_available_name`: the numbers go from 2 to 100. -/
def nextAvailableName (taken : String → Bool) (base now : String) : String :=
  if taken (importedName base) then (seekName taken base 99 2).getD (datedName base now)
  else importedName base

/-- The name was minted in this import or is in the table. -/
def Batch.taken (b : Batch) (name : String) : Bool :=
  decide (name ∈ b.minted) || (b.rules.find? name).isSome

section Import

variable (env : Env) (onConflict : OnConflict)

/-- `_validate_definition` does not raise. -/
def isValid (entry : RuleExportEntry) : Bool :=
  (modelValidate env.py env.rt (.dict entry.body.definition)).isSome

/-- A new rule for an entry, its name minted and the outcome noted.  A name that is in the
    table has passed the column before, so that the order of the two checks does not show. -/
def addRule (index : Nat) (entry : RuleExportEntry) (finalName : String) (action : Action)
    (b : Batch) : Except ImportError Batch :=
  if (b.rules.find? finalName).isSome then .error (.nameClash finalName)
  else if env.fits finalName then
    let rule : Rule := ⟨env.uuid4 index, finalName, entry.body, false⟩
    .ok ({ b with
        rules := b.rules.upsert rule
        minted := finalName :: b.minted }.report
      ⟨entry.name, finalName, action, some rule.id, none⟩)
  else .error (.nameTooLong finalName)

/-- The name that `_next_available_name` finds for an entry. -/
def resolved (index : Nat) (entry : RuleExportEntry) (b : Batch) : String :=
  nextAvailableName b.taken entry.name (env.nowShort index)

/-- The four assignments to `existing`. -/
def overwriteRule (entry : RuleExportEntry) (b : Batch) : Batch :=
  { b with
    rules := b.rules.update (fun rule => rule.name = entry.name)
      (fun rule => { rule with body := entry.body }) fun _ => rfl }

def builtinMessage : String :=
  "Cannot overwrite a built-in rule. " ++
    "Duplicate the builtin first if you need a custom variant."

/-- The body of the loop of `import_rules`. -/
def importEntry (index : Nat) (entry : RuleExportEntry) (b : Batch) : Except ImportError Batch :=
  if isValid env entry then
    match b.rules.find? entry.name with
    | none =>
        if entry.name ∈ b.minted then
          match onConflict with
          | .skip => .ok (b.report ⟨entry.name, entry.name, .skipped, none, none⟩)
          | .overwrite => addRule env index entry (resolved env index entry b) .renamed b
          | .rename => addRule env index entry (resolved env index entry b) .renamed b
        else addRule env index entry entry.name .created b
    | some existing =>
        match onConflict with
        | .skip => .ok (b.report ⟨entry.name, entry.name, .skipped, some existing.id, none⟩)
        | .overwrite =>
            if existing.isBuiltin then
              .ok (b.report ⟨entry.name, entry.name, .skipped, some existing.id,
                some builtinMessage⟩)
            else
              .ok ((overwriteRule entry b).report
                ⟨entry.name, entry.name, .overwritten, some existing.id, none⟩)
        | .rename => addRule env index entry (resolved env index entry b) .renamed b
  else
    .ok (b.report ⟨entry.name, entry.name, .error, none, some "Rule definition is invalid"⟩)

/-- The loop, over entries that start at an index. -/
def importFrom (index : Nat) : List RuleExportEntry → Batch → Except ImportError Batch
  | [], b => .ok b
  | entry :: rest, b => do
      let b' ← importEntry env onConflict index entry b
      importFrom (index + 1) rest b'

end Import

/-- `import_rules`: the response, and the table that is committed. -/
def importRules (env : Env) (req : RuleImportRequest) (rules : Table Rule.name) :
    Except ImportError (RuleImportResponse × Table Rule.name) :=
  if req.version = "1" then do
    let b ← importFrom env req.onConflict 0 req.rules (.start rules)
    return (⟨b.tally .created, b.tally .skipped, b.tally .renamed, b.tally .overwritten,
      b.tally .error, b.outcomes⟩, b.rules)
  else .error (.unsupportedVersion req.version)

/-- The table afterwards: an import that raises is rolled back. -/
def rulesAfter (env : Env) (req : RuleImportRequest) (rules : Table Rule.name) :
    Table Rule.name :=
  match importRules env req rules with
  | .ok (_, after) => after
  | .error _ => rules

/-! ### The search for a name -/

section Names

variable {taken : String → Bool} {base now : String}

theorem seekName_free {tries n : Nat} {name : String}
    (h : seekName taken base tries n = some name) : taken name = false := by
  induction tries generalizing n with
  | zero => cases h
  | succ tries ih =>
    rw [seekName] at h
    split at h
    · exact ih h
    · next hfree =>
      obtain rfl := Option.some.inj h
      simpa using hfree

theorem seekName_none {tries n : Nat} :
    seekName taken base tries n = none ↔
      ∀ k, n ≤ k → k < n + tries → taken (numberedName base k) = true := by
  induction tries generalizing n with
  | zero => exact iff_of_true rfl fun k hlow hhigh => by omega
  | succ tries ih =>
    rw [seekName]
    constructor
    · intro h k hlow hhigh
      split at h
      · next htaken =>
        rcases Nat.eq_or_lt_of_le hlow with rfl | hlow
        · exact htaken
        · exact ih.mp h k hlow (by omega)
      · cases h
    · intro h
      rw [if_pos (h n (Nat.le_refl n) (by omega))]
      exact ih.mpr fun k hlow hhigh => h k (by omega) (by omega)

/-- Every name that `_next_available_name` looks up is taken. -/
def AllTaken (taken : String → Bool) (base : String) : Prop :=
  taken (importedName base) = true ∧
    ∀ n, 2 ≤ n → n ≤ 100 → taken (numberedName base n) = true

theorem nextAvailableName_cases (taken : String → Bool) (base now : String) :
    (taken (nextAvailableName taken base now) = false ∧ ¬AllTaken taken base) ∨
      (nextAvailableName taken base now = datedName base now ∧ AllTaken taken base) := by
  unfold nextAvailableName
  cases hfirst : taken (importedName base) with
  | false =>
    exact .inl ⟨by rw [if_neg Bool.false_ne_true]; exact hfirst, fun h => by
      rw [h.1] at hfirst; cases hfirst⟩
  | true =>
    rw [if_pos rfl]
    cases hseek : seekName taken base 99 2 with
    | some name =>
      refine .inl ⟨seekName_free hseek, fun h => ?_⟩
      have hnone : seekName taken base 99 2 = none :=
        seekName_none.mpr fun k hlow hhigh => h.2 k hlow (by omega)
      rw [hseek] at hnone
      cases hnone
    | none =>
      refine .inr ⟨rfl, hfirst, fun n hlow hhigh => ?_⟩
      exact seekName_none.mp hseek n hlow (by omega)

end Names

/-! ### One entry -/

theorem mem_overwriteRule {entry : RuleExportEntry} {b : Batch} {rule : Rule} :
    rule ∈ (overwriteRule entry b).rules ↔
      ∃ old ∈ b.rules, rule = if old.name = entry.name then { old with body := entry.body }
        else old := by
  rw [overwriteRule, Table.mem_update]
  refine exists_congr fun old => and_congr_right fun _ => ?_
  by_cases hname : old.name = entry.name <;> simp [hname, eq_comm]

/-- A rule has this name. -/
def Named (rules : Table Rule.name) (name : String) : Prop := ∃ rule ∈ rules, rule.name = name

theorem named_iff_find {rules : Table Rule.name} {name : String} :
    Named rules name ↔ (rules.find? name).isSome = true := by
  cases hfind : rules.find? name with
  | none =>
    refine iff_of_false ?_ (by simp)
    rintro ⟨rule, hmem, hname⟩
    exact Table.find?_eq_none.mp hfind rule hmem hname
  | some rule => exact iff_of_true ⟨rule, Table.mem_of_find? hfind⟩ rfl

/-- Minted names are in the table: every one was flushed. -/
def Flushed (b : Batch) : Prop := ∀ name ∈ b.minted, Named b.rules name

theorem flushed_start (rules : Table Rule.name) : Flushed (.start rules) := by
  intro name hname
  cases hname

theorem taken_iff {b : Batch} (h : Flushed b) (name : String) :
    b.taken name = true ↔ Named b.rules name := by
  unfold Batch.taken
  rw [Bool.or_eq_true, decide_eq_true_eq, ← named_iff_find]
  exact ⟨fun hor => hor.elim (h name) id, .inr⟩

/-- How many outcomes the counters count. -/
def Batch.total (b : Batch) : Nat :=
  b.tally .created + b.tally .skipped + b.tally .renamed + b.tally .overwritten + b.tally .error

theorem total_report (b : Batch) (outcome : RuleImportOutcome) :
    (b.report outcome).total = b.total + 1 := by
  unfold Batch.total Batch.report
  cases outcome.action <;> simp [Function.update] <;> omega

/-- No hundred names are left for this entry, nor the one with the date. -/
def Exhausted (env : Env) (index : Nat) (entry : RuleExportEntry) (rules : Table Rule.name) :
    Prop :=
  AllTaken (fun name => (rules.find? name).isSome) entry.name ∧
    Named rules (datedName entry.name (env.nowShort index))

/-- A rule made for an entry, under a name that no rule had. -/
structure Adds (entry : RuleExportEntry) (b b' : Batch) (rule : Rule) : Prop where
  fresh : ¬Named b.rules rule.name
  body : rule.body = entry.body
  custom : rule.isBuiltin = false
  rules : b'.rules = b.rules.upsert rule
  minted : b'.minted = rule.name :: b.minted

/-- What importing an entry can do to the rules.  Under `overwrite` a valid entry is put
    aside for a built-in rule only. -/
inductive Change (env : Env) (onConflict : OnConflict) (entry : RuleExportEntry) (b b' : Batch) :
    Prop where
  | none (hrules : b'.rules = b.rules) (hminted : b'.minted = b.minted)
      (hwhy : isValid env entry = true → onConflict = .overwrite →
        ∃ existing ∈ b.rules, existing.name = entry.name ∧ existing.isBuiltin = true)
  | create (rule : Rule) (hvalid : isValid env entry = true) (hadds : Adds entry b b' rule)
      (hname : onConflict = .overwrite → rule.name = entry.name)
  | overwrite (existing : Rule) (hvalid : isValid env entry = true)
      (hstrategy : onConflict = .overwrite) (hmem : existing ∈ b.rules)
      (hname : existing.name = entry.name) (hcustom : existing.isBuiltin = false)
      (hrules : b'.rules = (overwriteRule entry b).rules) (hminted : b'.minted = b.minted)

section Entry

variable {env : Env} {onConflict : OnConflict} {index : Nat} {entry : RuleExportEntry} {b b' : Batch}

theorem addRule_cases (env : Env) (index : Nat) (entry : RuleExportEntry) (finalName : String)
    (action : Action) (b : Batch) :
    (Named b.rules finalName ∧
        addRule env index entry finalName action b = .error (.nameClash finalName)) ∨
      (env.fits finalName = false ∧ ¬Named b.rules finalName ∧
        addRule env index entry finalName action b = .error (.nameTooLong finalName)) ∨
      ∃ b' rule, rule.name = finalName ∧ addRule env index entry finalName action b = .ok b' ∧
        Adds entry b b' rule ∧ b'.total = b.total + 1 := by
  unfold addRule
  by_cases htaken : (b.rules.find? finalName).isSome = true
  · exact .inl ⟨named_iff_find.mpr htaken, if_pos htaken⟩
  · rw [if_neg htaken]
    cases hfits : env.fits finalName with
    | false =>
      exact .inr (.inl ⟨rfl, fun hnamed => htaken (named_iff_find.mp hnamed), rfl⟩)
    | true =>
      refine .inr (.inr ⟨_, ⟨env.uuid4 index, finalName, entry.body, false⟩, rfl, rfl, ?_, ?_⟩)
      · exact ⟨fun hnamed => htaken (named_iff_find.mp hnamed), rfl, rfl, rfl, rfl⟩
      · exact total_report _ _

theorem resolved_clash_iff (h : Flushed b) :
    Named b.rules (resolved env index entry b) ↔ Exhausted env index entry b.rules := by
  have htaken : (fun name => (b.rules.find? name).isSome) = b.taken := by
    funext name
    rw [Bool.eq_iff_iff, taken_iff h, named_iff_find]
  rw [Exhausted, htaken, resolved]
  rcases nextAvailableName_cases b.taken entry.name (env.nowShort index) with
    ⟨hfree, hsome⟩ | ⟨hdate, hall⟩
  · refine iff_of_false (fun hnamed => ?_) fun hexhausted => hsome hexhausted.1
    rw [(taken_iff h _).mpr hnamed] at hfree
    cases hfree
  · rw [hdate]
    exact ⟨fun hnamed => ⟨hall, hnamed⟩, fun hexhausted => hexhausted.2⟩

theorem importEntry_clash (h : Flushed b) (hvalid : isValid env entry = true)
    (hnamed : Named b.rules entry.name) (hexhausted : Exhausted env index entry b.rules) :
    ∃ name, importEntry env .rename index entry b = .error (.nameClash name) := by
  have hclash := named_iff_find.mp ((resolved_clash_iff h).mpr hexhausted)
  obtain ⟨existing, hfind⟩ := Option.isSome_iff_exists.mp (named_iff_find.mp hnamed)
  refine ⟨resolved env index entry b, ?_⟩
  simp [importEntry, hvalid, hfind, addRule, hclash]

/-- What importing an entry can do: change the batch by one outcome, or raise, and that
    only when a rule is renamed. -/
theorem importEntry_cases (env : Env) (onConflict : OnConflict) (index : Nat)
    (entry : RuleExportEntry) (h : Flushed b) :
    (∃ b', importEntry env onConflict index entry b = .ok b' ∧
        Change env onConflict entry b b' ∧ b'.total = b.total + 1) ∨
      (onConflict = .rename ∧ isValid env entry = true ∧ Named b.rules entry.name ∧
        ((Exhausted env index entry b.rules ∧ ∃ name,
            importEntry env onConflict index entry b = .error (.nameClash name)) ∨
          (¬Exhausted env index entry b.rules ∧ ∃ name,
            importEntry env onConflict index entry b = .error (.nameTooLong name)))) := by
  unfold importEntry
  cases hvalid : isValid env entry with
  | false =>
    refine .inl ⟨_, if_neg Bool.false_ne_true, ?_, total_report _ _⟩
    exact .none rfl rfl fun h' => by cases hvalid.symm.trans h'
  | true =>
    rw [if_pos rfl]
    cases hfind : b.rules.find? entry.name with
    | none =>
      have hfree : ¬Named b.rules entry.name := by simp [named_iff_find, hfind]
      have hunminted : entry.name ∉ b.minted := fun hmem => hfree (h _ hmem)
      simp only [if_neg hunminted]
      rcases addRule_cases env index entry entry.name .created b with
        ⟨hnamed, -⟩ | ⟨hunfit, -, -⟩ | ⟨b', rule, hname, hrun, hadds, htotal⟩
      · exact absurd hnamed hfree
      · rw [env.fits_short _ entry.name_length.2] at hunfit
        cases hunfit
      · exact .inl ⟨b', hrun, .create rule hvalid hadds fun _ => hname, htotal⟩
    | some existing =>
      obtain ⟨hmem, hname⟩ := Table.mem_of_find? hfind
      have hnamed : Named b.rules entry.name := ⟨existing, hmem, hname⟩
      cases onConflict with
      | skip => exact .inl ⟨_, rfl, .none rfl rfl (fun _ h' => by cases h'), total_report _ _⟩
      | overwrite =>
        cases hbuiltin : existing.isBuiltin with
        | true =>
          refine .inl ⟨_, if_pos hbuiltin, ?_, total_report _ _⟩
          exact .none rfl rfl fun _ _ => ⟨existing, hmem, hname, hbuiltin⟩
        | false =>
          refine .inl ⟨_, if_neg (by simp [hbuiltin]), ?_, total_report _ _⟩
          exact .overwrite existing hvalid rfl hmem hname hbuiltin rfl rfl
      | rename =>
        rcases addRule_cases env index entry (resolved env index entry b) .renamed b with
          ⟨hclash, hrun⟩ | ⟨-, hfree, hrun⟩ | ⟨b', rule, -, hrun, hadds, htotal⟩
        · exact .inr ⟨rfl, rfl, hnamed, .inl ⟨(resolved_clash_iff h).mp hclash, _, hrun⟩⟩
        · refine .inr ⟨rfl, rfl, hnamed, .inr ⟨?_, _, hrun⟩⟩
          exact fun hexhausted => hfree ((resolved_clash_iff h).mpr hexhausted)
        · exact .inl ⟨b', hrun, .create rule hvalid hadds (fun h' => by cases h'), htotal⟩

theorem Change.kept (h : Change env onConflict entry b b') {rule : Rule} (hmem : rule ∈ b.rules)
    (hsafe : isValid env entry = true → onConflict = .overwrite → entry.name = rule.name →
      rule.isBuiltin = false → entry.body = rule.body) : rule ∈ b'.rules := by
  cases h with
  | none hrules => rw [hrules]; exact hmem
  | create made hvalid hadds =>
    rw [hadds.rules, Table.mem_upsert]
    exact .inr ⟨hmem, fun hname => hadds.fresh ⟨rule, hmem, hname⟩⟩
  | overwrite existing hvalid hstrategy hexisting hname hcustom hrules =>
    rw [hrules, mem_overwriteRule]
    refine ⟨rule, hmem, ?_⟩
    by_cases hsame : rule.name = entry.name
    · have heq : existing = rule := Table.eq_of_key_eq hexisting hmem (hname.trans hsame.symm)
      rw [if_pos hsame, hsafe hvalid hstrategy hsame.symm (heq ▸ hcustom)]
    · rw [if_neg hsame]

theorem Change.named (h : Change env onConflict entry b b') {name : String}
    (hnamed : Named b.rules name) : Named b'.rules name := by
  obtain ⟨rule, hmem, hname⟩ := hnamed
  cases h with
  | none hrules => rw [hrules]; exact ⟨rule, hmem, hname⟩
  | create made hvalid hadds =>
    refine ⟨rule, ?_, hname⟩
    rw [hadds.rules, Table.mem_upsert]
    exact .inr ⟨hmem, fun hsame => hadds.fresh ⟨rule, hmem, hsame⟩⟩
  | overwrite existing hvalid hstrategy hexisting hsame hcustom hrules =>
    rw [hrules]
    refine ⟨_, mem_overwriteRule.mpr ⟨rule, hmem, rfl⟩, ?_⟩
    split <;> exact hname

theorem Change.flushed (h : Change env onConflict entry b b') (hflushed : Flushed b) :
    Flushed b' := by
  intro name hname
  cases h with
  | none hrules hminted =>
    rw [hminted] at hname
    rw [hrules]
    exact hflushed name hname
  | create rule hvalid hadds hsame =>
    rw [hadds.minted, List.mem_cons] at hname
    rcases hname with rfl | hname
    · refine ⟨rule, ?_, rfl⟩
      rw [hadds.rules]
      exact Table.mem_upsert.mpr (.inl rfl)
    · exact (Change.create rule hvalid hadds hsame).named (hflushed name hname)
  | overwrite existing hvalid hstrategy hexisting hsame hcustom hrules hminted =>
    rw [hminted] at hname
    exact (Change.overwrite existing hvalid hstrategy hexisting hsame hcustom hrules
      hminted).named (hflushed name hname)

/-- Where the rules come from under `overwrite`: a rule that was not there is custom and has
    the name and the body of some valid entry. -/
def Sourced (env : Env) (before : Table Rule.name) (done : List RuleExportEntry) (b : Batch) :
    Prop :=
  ∀ rule ∈ b.rules, Named before rule.name ∨
    rule.isBuiltin = false ∧ ∃ entry ∈ done, isValid env entry = true ∧
      entry.name = rule.name ∧ entry.body = rule.body

theorem Change.sourced (h : Change env .overwrite entry b b') {before : Table Rule.name}
    {done : List RuleExportEntry} (hsourced : Sourced env before done b) :
    Sourced env before (done ++ [entry]) b' := by
  have hold : ∀ rule ∈ b.rules, Named before rule.name ∨
      rule.isBuiltin = false ∧ ∃ e ∈ done ++ [entry], isValid env e = true ∧
        e.name = rule.name ∧ e.body = rule.body := fun rule hmem =>
    (hsourced rule hmem).imp id fun ⟨hcustom, e, he, hrest⟩ =>
      ⟨hcustom, e, List.mem_append_left _ he, hrest⟩
  intro rule hmem
  cases h with
  | none hrules => rw [hrules] at hmem; exact hold rule hmem
  | create made hvalid hadds hname =>
    rw [hadds.rules, Table.mem_upsert] at hmem
    rcases hmem with rfl | ⟨hmem, -⟩
    · exact .inr ⟨hadds.custom, entry, by simp, hvalid, (hname rfl).symm, hadds.body.symm⟩
    · exact hold rule hmem
  | overwrite existing hvalid hstrategy hexisting hname hcustom hrules =>
    rw [hrules, mem_overwriteRule] at hmem
    obtain ⟨old, hmem, rfl⟩ := hmem
    by_cases hsame : old.name = entry.name
    · rw [if_pos hsame]
      rcases hold old hmem with hnamed | ⟨hcustom', -⟩
      · exact .inl hnamed
      · exact .inr ⟨hcustom', entry, by simp, hvalid, hsame.symm, rfl⟩
    · rw [if_neg hsame]
      exact hold old hmem

/-- Under `overwrite` a valid entry is what its name stands for, unless that is a built-in
    rule. -/
theorem Change.written (h : Change env .overwrite entry b b') (hvalid : isValid env entry = true)
    (hcustom : ∀ rule ∈ b.rules, rule.name = entry.name → rule.isBuiltin = false) :
    ∃ rule ∈ b'.rules, rule.name = entry.name ∧ rule.body = entry.body := by
  cases h with
  | none hrules hminted hwhy =>
    obtain ⟨existing, hmem, hname, hbuiltin⟩ := hwhy hvalid rfl
    rw [hcustom existing hmem hname] at hbuiltin
    cases hbuiltin
  | create rule hvalid' hadds hname =>
    refine ⟨rule, ?_, hname rfl, hadds.body⟩
    rw [hadds.rules]
    exact Table.mem_upsert.mpr (.inl rfl)
  | overwrite existing hvalid' hstrategy hmem hname hbuiltin hrules =>
    refine ⟨{ existing with body := entry.body }, ?_, hname, rfl⟩
    rw [hrules, mem_overwriteRule]
    exact ⟨existing, hmem, (if_pos hname).symm⟩

end Entry

/-! ### The loop -/

section Loop

variable {env : Env} {onConflict : OnConflict}

theorem importFrom_cons (env : Env) (onConflict : OnConflict) (index : Nat)
    (entry : RuleExportEntry) (rest : List RuleExportEntry) (b : Batch) :
    importFrom env onConflict index (entry :: rest) b =
      importEntry env onConflict index entry b >>= importFrom env onConflict (index + 1) rest :=
  rfl

theorem importFrom_append (env : Env) (onConflict : OnConflict) (index : Nat)
    (xs ys : List RuleExportEntry) (b : Batch) :
    importFrom env onConflict index (xs ++ ys) b =
      importFrom env onConflict index xs b >>=
        importFrom env onConflict (index + xs.length) ys := by
  induction xs generalizing index b with
  | nil => rfl
  | cons entry rest ih =>
    rw [List.cons_append, importFrom_cons, importFrom_cons]
    cases importEntry env onConflict index entry b with
    | error e => rfl
    | ok b' =>
      show importFrom env onConflict (index + 1) (rest ++ ys) b' = _
      rw [ih, List.length_cons, Nat.add_right_comm, Nat.add_assoc]
      rfl

theorem importFrom_preserves {I : List RuleExportEntry → Batch → Prop}
    (hstep : ∀ done entry b b', I done b → Change env onConflict entry b b' →
      I (done ++ [entry]) b')
    {entries done : List RuleExportEntry} {index : Nat} {b b' : Batch} (hflushed : Flushed b)
    (hstart : I done b) (hrun : importFrom env onConflict index entries b = .ok b') :
    I (done ++ entries) b' ∧ Flushed b' ∧ b'.total = b.total + entries.length := by
  induction entries generalizing done index b with
  | nil =>
    obtain rfl := Except.ok.inj hrun
    exact ⟨by simpa using hstart, hflushed, rfl⟩
  | cons entry rest ih =>
    rw [importFrom_cons] at hrun
    rcases importEntry_cases env onConflict index entry hflushed with
      ⟨mid, hentry, hchange, htotal⟩ | ⟨-, -, -, ⟨-, name, hentry⟩ | ⟨-, name, hentry⟩⟩
    · rw [hentry] at hrun
      obtain ⟨hinv, hlast, hsum⟩ := ih (hchange.flushed hflushed)
        (hstep done entry b mid hstart hchange) hrun
      exact ⟨by simpa using hinv, hlast, by rw [hsum, htotal, List.length_cons]; omega⟩
    · rw [hentry] at hrun
      cases hrun
    · rw [hentry] at hrun
      cases hrun

theorem importFrom_error {entries : List RuleExportEntry} {index : Nat} {b : Batch}
    {e : ImportError} (hrun : importFrom env onConflict index entries b = .error e) :
    ∃ done entry rest mid, entries = done ++ entry :: rest ∧
      importFrom env onConflict index done b = .ok mid ∧
      importEntry env onConflict (index + done.length) entry mid = .error e := by
  induction entries generalizing index b with
  | nil => cases hrun
  | cons entry rest ih =>
    rw [importFrom_cons] at hrun
    cases hentry : importEntry env onConflict index entry b with
    | error e' =>
      rw [hentry] at hrun
      obtain rfl := Except.error.inj hrun
      exact ⟨[], entry, rest, b, rfl, rfl, hentry⟩
    | ok b' =>
      rw [hentry] at hrun
      obtain ⟨done, failing, tail, mid, hsplit, hdone, herror⟩ := ih hrun
      refine ⟨entry :: done, failing, tail, mid, by rw [hsplit]; rfl, ?_, ?_⟩
      · rw [importFrom_cons, hentry]
        exact hdone
      · rw [List.length_cons, Nat.add_comm done.length 1, ← Nat.add_assoc]
        exact herror

theorem importFrom_whole {I : List RuleExportEntry → Batch → Prop}
    (hstep : ∀ done entry b b', I done b → Change env onConflict entry b b' →
      I (done ++ [entry]) b')
    {entries : List RuleExportEntry} {index : Nat} {b b' : Batch} (hflushed : Flushed b)
    (hstart : I [] b) (hrun : importFrom env onConflict index entries b = .ok b') :
    I entries b' ∧ Flushed b' ∧ b'.total = b.total + entries.length :=
  importFrom_preserves hstep hflushed hstart hrun

theorem importFrom_returns (env : Env) (entries : List RuleExportEntry) (index : Nat) {b : Batch}
    (hflushed : Flushed b) (hstrategy : onConflict ≠ .rename) :
    ∃ b', importFrom env onConflict index entries b = .ok b' := by
  induction entries generalizing index b with
  | nil => exact ⟨b, rfl⟩
  | cons entry rest ih =>
    rw [importFrom_cons]
    rcases importEntry_cases env onConflict index entry hflushed with
      ⟨mid, hentry, hchange, -⟩ | ⟨hrename, -⟩
    · rw [hentry]
      exact ih _ (hchange.flushed hflushed)
    · exact absurd hrename hstrategy

theorem importFrom_kept {entries : List RuleExportEntry} {index : Nat} {b b' : Batch}
    (hflushed : Flushed b) {rule : Rule} (hmem : rule ∈ b.rules)
    (hsafe : ∀ entry ∈ entries, isValid env entry = true → onConflict = .overwrite →
      entry.name = rule.name → rule.isBuiltin = false → entry.body = rule.body)
    (hrun : importFrom env onConflict index entries b = .ok b') : rule ∈ b'.rules := by
  have hinv := importFrom_whole
    (I := fun done b => (∀ entry ∈ done, isValid env entry = true → onConflict = .overwrite →
      entry.name = rule.name → rule.isBuiltin = false → entry.body = rule.body) → rule ∈ b.rules)
    ?_ hflushed (fun _ => hmem) hrun
  · exact hinv.1 hsafe
  · intro done entry b b' hkept hchange hall
    refine hchange.kept (hkept fun e he => hall e (List.mem_append_left _ he)) ?_
    exact hall entry (by simp)

end Loop

/-! ### A whole import -/

/-- What an import is to do, whatever is in the bundle and in the table. -/
structure ImportSound (env : Env) (req : RuleImportRequest) (before : Table Rule.name) :
    Prop where
  no_clash : ∀ name, importRules env req before ≠ .error (.nameClash name)
  distinct : ((rulesAfter env req before).rows.map Rule.name).Nodup
  /-- What an entry creates, the later ones leave alone. -/
  created_kept : ∀ done rest mid, req.rules = done ++ rest →
    importFrom env req.onConflict 0 done (.start before) = .ok mid →
    ∀ response after, importRules env req before = .ok (response, after) →
    ∀ rule ∈ mid.rules, ¬Named before rule.name → rule ∈ after
  kept : ∀ rule ∈ before,
    rule.isBuiltin = true ∨ (∀ entry ∈ req.rules, entry.name ≠ rule.name) →
      rule ∈ rulesAfter env req before
  counted : ∀ response after, importRules env req before = .ok (response, after) →
    response.created + response.skipped + response.renamed + response.overwritten +
      response.errors = req.rules.length

/-- The bundles for which it does. -/
structure Admissible (env : Env) (req : RuleImportRequest) (before : Table Rule.name) :
    Prop where
  /-- Entries that share a new name say the same. -/
  agree : req.onConflict = .overwrite → ∀ entry ∈ req.rules, ∀ entry' ∈ req.rules,
    isValid env entry = true → isValid env entry' = true → entry.name = entry'.name →
      ¬Named before entry.name → entry.body = entry'.body
  /-- An entry that has to be renamed finds a name. -/
  room : req.onConflict = .rename → ∀ done entry rest mid, req.rules = done ++ entry :: rest →
    importFrom env .rename 0 done (.start before) = .ok mid → isValid env entry = true →
      Named mid.rules entry.name → ¬Exhausted env done.length entry mid.rules

section Whole

variable {env : Env} {req : RuleImportRequest} {before : Table Rule.name}

theorem importRules_ok {response : RuleImportResponse} {after : Table Rule.name}
    (h : importRules env req before = .ok (response, after)) :
    ∃ last, importFrom env req.onConflict 0 req.rules (.start before) = .ok last ∧
      after = last.rules ∧
      response.created + response.skipped + response.renamed + response.overwritten +
        response.errors = last.total := by
  unfold importRules at h
  split at h
  · cases hrun : importFrom env req.onConflict 0 req.rules (.start before) with
    | error e =>
      rw [hrun] at h
      cases h
    | ok last =>
      rw [hrun] at h
      obtain ⟨rfl, rfl⟩ := Prod.mk.inj (Except.ok.inj h)
      exact ⟨last, rfl, rfl, rfl⟩
  · cases h

theorem import_kept (rule : Rule) (hmem : rule ∈ before)
    (hspared : rule.isBuiltin = true ∨ ∀ entry ∈ req.rules, entry.name ≠ rule.name) :
    rule ∈ rulesAfter env req before := by
  unfold rulesAfter
  cases hrun : importRules env req before with
  | error e => exact hmem
  | ok result =>
    obtain ⟨last, hloop, hafter, -⟩ := importRules_ok hrun
    show rule ∈ result.2
    rw [hafter]
    refine importFrom_kept (flushed_start before) hmem (fun entry hentry _ _ hname hcustom => ?_)
      hloop
    rcases hspared with hbuiltin | hunnamed
    · cases hbuiltin.symm.trans hcustom
    · exact absurd hname (hunnamed entry hentry)

theorem import_counted {response : RuleImportResponse} {after : Table Rule.name}
    (h : importRules env req before = .ok (response, after)) :
    response.created + response.skipped + response.renamed + response.overwritten +
      response.errors = req.rules.length := by
  obtain ⟨last, hloop, -, htotal⟩ := importRules_ok h
  have hsum := (importFrom_whole (I := fun _ _ => True) (fun _ _ _ _ _ _ => trivial)
    (flushed_start before) trivial hloop).2.2
  rw [htotal, hsum]
  exact Nat.zero_add _

theorem import_no_clash_iff (hversion : req.version = "1") :
    (∀ name, importRules env req before ≠ .error (.nameClash name)) ↔
      (req.onConflict = .rename → ∀ done entry rest mid, req.rules = done ++ entry :: rest →
        importFrom env .rename 0 done (.start before) = .ok mid → isValid env entry = true →
          Named mid.rules entry.name → ¬Exhausted env done.length entry mid.rules) := by
  have hraises : ∀ name, importRules env req before = .error (.nameClash name) ↔
      importFrom env req.onConflict 0 req.rules (.start before) = .error (.nameClash name) := by
    intro name
    rw [importRules, if_pos hversion]
    cases importFrom env req.onConflict 0 req.rules (.start before) with
    | error e =>
      show (Except.error e : Except ImportError _) = _ ↔ _
      rw [Except.error.injEq, Except.error.injEq]
    | ok last => exact iff_of_false (fun h => nomatch h) fun h => nomatch h
  have hfrom : ∀ (done : List RuleExportEntry) (mid : Batch),
      importFrom env req.onConflict 0 done (.start before) = .ok mid → Flushed mid :=
    fun done mid hdone => (importFrom_whole (I := fun _ _ => True)
      (fun _ _ _ _ _ _ => trivial) (flushed_start before) trivial hdone).2.1
  constructor
  · intro hnever hstrategy done entry rest mid hsplit hdone hvalid hnamed hexhausted
    rw [← hstrategy] at hdone
    obtain ⟨name, hclash⟩ := importEntry_clash (hfrom done mid hdone) hvalid hnamed hexhausted
    refine hnever name ((hraises name).mpr ?_)
    rw [hsplit, importFrom_append, hdone]
    show importFrom env req.onConflict (0 + done.length) (entry :: rest) mid = _
    rw [importFrom_cons, hstrategy, Nat.zero_add, hclash]
    rfl
  · intro hroom name hclash
    obtain ⟨done, entry, rest, mid, hsplit, hdone, herror⟩ :=
      importFrom_error ((hraises name).mp hclash)
    rw [Nat.zero_add] at herror
    rcases importEntry_cases env req.onConflict done.length entry (hfrom done mid hdone) with
      ⟨b', hok, -⟩ | ⟨hstrategy, hvalid, hnamed, ⟨hexhausted, -⟩ | ⟨-, name', hlong⟩⟩
    · rw [hok] at herror
      cases herror
    · rw [hstrategy] at hdone
      exact hroom hstrategy done entry rest mid hsplit hdone hvalid hnamed hexhausted
    · rw [hlong] at herror
      cases herror

theorem importFrom_split {done rest : List RuleExportEntry} {mid last : Batch}
    (hdone : importFrom env req.onConflict 0 done (.start before) = .ok mid)
    (hloop : importFrom env req.onConflict 0 (done ++ rest) (.start before) = .ok last) :
    Flushed mid ∧ importFrom env req.onConflict done.length rest mid = .ok last := by
  refine ⟨(importFrom_whole (I := fun _ _ => True) (fun _ _ _ _ _ _ => trivial)
    (flushed_start before) trivial hdone).2.1, ?_⟩
  rw [importFrom_append, hdone, Nat.zero_add] at hloop
  exact hloop

theorem sourced_of_run {done : List RuleExportEntry} {mid : Batch}
    (hdone : importFrom env .overwrite 0 done (.start before) = .ok mid) :
    Sourced env before done mid :=
  (importFrom_whole (I := Sourced env before)
    (fun _ _ _ _ hsourced hchange => hchange.sourced hsourced) (flushed_start before)
    (fun rule hmem => .inl ⟨rule, hmem, rfl⟩) hdone).1

/-- Under `overwrite` every valid entry with a new name is, for a moment, what that name
    stands for. -/
theorem entry_written (hstrategy : req.onConflict = .overwrite) {entry : RuleExportEntry}
    (hentry : entry ∈ req.rules) (hvalid : isValid env entry = true)
    (hnew : ¬Named before entry.name) :
    ∃ done rest mid rule, req.rules = done ++ rest ∧
      importFrom env req.onConflict 0 done (.start before) = .ok mid ∧ rule ∈ mid.rules ∧
      rule.name = entry.name ∧ rule.body = entry.body := by
  obtain ⟨done, rest, hsplit⟩ := List.append_of_mem hentry
  have hflow : req.onConflict ≠ .rename := by rw [hstrategy]; decide
  obtain ⟨b, hdone⟩ := importFrom_returns env done 0 (flushed_start before) hflow
  obtain ⟨b', hnext⟩ := importFrom_returns env (done ++ [entry]) 0 (flushed_start before) hflow
  obtain ⟨hflushed, hstep⟩ := importFrom_split hdone hnext
  rw [importFrom_cons] at hstep
  rcases importEntry_cases env req.onConflict done.length entry hflushed with
    ⟨mid, hrun, hchange, -⟩ | ⟨hrename, -⟩
  · rw [hrun] at hstep
    obtain rfl : mid = b' := Except.ok.inj hstep
    rw [hstrategy] at hdone hchange
    obtain ⟨rule, hmem, hname, hbody⟩ := hchange.written hvalid fun old hold hname =>
      (sourced_of_run hdone old hold).elim (fun hnamed => absurd (hname ▸ hnamed) hnew)
        fun hsource => hsource.1
    exact ⟨done ++ [entry], rest, mid, rule, by simp [hsplit], hnext, hmem, hname, hbody⟩
  · exact absurd hrename hflow

theorem created_kept_iff (hversion : req.version = "1") :
    (∀ done rest mid, req.rules = done ++ rest →
      importFrom env req.onConflict 0 done (.start before) = .ok mid →
      ∀ response after, importRules env req before = .ok (response, after) →
      ∀ rule ∈ mid.rules, ¬Named before rule.name → rule ∈ after) ↔
    (req.onConflict = .overwrite → ∀ entry ∈ req.rules, ∀ entry' ∈ req.rules,
      isValid env entry = true → isValid env entry' = true → entry.name = entry'.name →
        ¬Named before entry.name → entry.body = entry'.body) := by
  constructor
  · intro hkept hstrategy entry hentry entry' hentry' hvalid hvalid' hname hnew
    have hflow : req.onConflict ≠ .rename := by rw [hstrategy]; decide
    obtain ⟨last, hloop⟩ := importFrom_returns env req.rules 0 (flushed_start before) hflow
    obtain ⟨response, hrun⟩ : ∃ response, importRules env req before =
        .ok (response, last.rules) := by
      rw [importRules, if_pos hversion, hloop]
      exact ⟨_, rfl⟩
    have hstays : ∀ e ∈ req.rules, isValid env e = true → e.name = entry.name →
        ∃ rule ∈ last.rules, rule.name = entry.name ∧ rule.body = e.body := by
      intro e he hve hsame
      obtain ⟨done, rest, mid, rule, hsplit, hdone, hmem, hrule, hbody⟩ :=
        entry_written hstrategy he hve (hsame ▸ hnew)
      exact ⟨rule, hkept done rest mid hsplit hdone response last.rules hrun rule hmem
        (by rw [hrule, hsame]; exact hnew), hrule.trans hsame, hbody⟩
    obtain ⟨rule, hmem, hrule, hbody⟩ := hstays entry hentry hvalid rfl
    obtain ⟨rule', hmem', hrule', hbody'⟩ := hstays entry' hentry' hvalid' hname.symm
    rw [← hbody, ← hbody', Table.eq_of_key_eq hmem hmem' (hrule.trans hrule'.symm)]
  · intro hagree done rest mid hsplit hdone response after hrun rule hmem hnew
    obtain ⟨last, hloop, rfl, -⟩ := importRules_ok hrun
    rw [hsplit] at hloop
    obtain ⟨hflushed, hrest⟩ := importFrom_split hdone hloop
    refine importFrom_kept hflushed hmem (fun e he hvalid hstrategy hname hcustom => ?_) hrest
    rw [hstrategy] at hdone
    rcases sourced_of_run hdone rule hmem with hnamed | ⟨-, source, hsource, hvs, hsname, hbody⟩
    · exact absurd hnamed hnew
    · rw [← hbody]
      refine hagree hstrategy e ?_ source ?_ hvalid hvs (hname.trans hsname.symm) (hname ▸ hnew)
      · rw [hsplit]; exact List.mem_append_right _ he
      · rw [hsplit]; exact List.mem_append_left _ hsource

end Whole

def flagDefinition : Entries :=
  [("match", .dict [("field", .str "extension"), ("op", .str "eq"), ("value", .str "avi")]),
    ("actions", .list [.dict [("type", .str "add_tag"), ("tag", .str "old")]])]

def flagEntry (priority : Int) (h : 0 ≤ priority ∧ priority ≤ 10000) : RuleExportEntry :=
  ⟨"Flag AVI", ⟨none, true, priority, flagDefinition⟩, by decide, h⟩

def twiceNamed : RuleImportRequest :=
  ⟨"1", [flagEntry 10 (by decide), flagEntry 20 (by decide)], .overwrite⟩

/-- Integers and booleans are read as they are, names are in lower case, and the column takes
    all of them. -/
def importEnv : Env where
  py := .strict
  rt := ⟨id, fun _ _ => .notFound⟩
  uuid4 index := if index = 0 then "r1" else "r2"
  nowShort _ := "20250101-120000"
  fits _ := true
  fits_short _ _ := rfl

end RuleImport
