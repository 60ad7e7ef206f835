/-
  Auditarr/RepeatedPass.lean
  ==========================
  **Evaluating a file twice.**

  The tags that matching rules add are part of what the next evaluation reads, and no
  evaluation takes a tag away.  A second evaluation of a file that is not deleted writes
  what the first one wrote exactly where no rule of the pass changes its mind about the
  file once those tags are there.
-/
import Auditarr.NotifyRequests

namespace RepeatedPass

open Effects Transactions KeyedTable PyValues RuleSchema RuleEvaluator RuleAggregation
open Database RulesService RulesEffect RulesTotality SeverityInvariant

/-! ### What the rules decide, apart from the tags they read -/

theorem applyAction_congr {input input' : EvaluationInput} (hpath : input'.path = input.path) :
    applyAction input' = applyAction input := by
  funext result action
  cases action with
  | delete reason => simp only [applyAction, hpath]
  | _ => rfl

theorem outcome_congr {rt : PyRuntime} {d : RuleDefinition} {input input' : EvaluationInput}
    (hpath : input'.path = input.path)
    (hverdict : verdict rt input' d.match_ = verdict rt input d.match_) :
    outcome rt d input' = outcome rt d input := by
  rw [outcome, outcome, hverdict, applyAction_congr hpath]

theorem progressAfter_congr {rt : PyRuntime} {input input' : EvaluationInput}
    {rules : List (Rule × RuleDefinition)} (hpath : input'.path = input.path)
    (hverdicts : ∀ entry ∈ rules,
      verdict rt input' entry.2.match_ = verdict rt input entry.2.match_) :
    progressAfter rt input' rules = progressAfter rt input rules := by
  have hmatching : matching rt input' rules = matching rt input rules :=
    List.filter_congr hverdicts
  have hfold : ∀ (ds : List RuleDefinition) (agg : EvaluationResult),
      (∀ d ∈ ds, outcome rt d input' = outcome rt d input) →
      ds.foldl (fun agg d => absorb agg (outcome rt d input')) agg =
        ds.foldl (fun agg d => absorb agg (outcome rt d input)) agg := by
    intro ds
    induction ds with
    | nil => exact fun _ _ => rfl
    | cons d rest ih =>
      intro agg hsame
      rw [List.foldl_cons, List.foldl_cons, hsame d (by simp)]
      exact ih _ fun d' hd' => hsame d' (by simp [hd'])
  unfold progressAfter
  rw [hmatching, hfold]
  intro d hd
  obtain ⟨entry, hentry, rfl⟩ := List.mem_map.mp hd
  exact outcome_congr hpath (hverdicts entry hentry)

/-- Rules without a `delete` action. -/
def Harmless (rules : List (Rule × RuleDefinition)) : Prop :=
  ∀ entry ∈ rules, ∀ action ∈ entry.2.actions, action.isDelete = false

theorem deletePaths_outcome {rt : PyRuntime} {d : RuleDefinition} (input : EvaluationInput)
    (h : ∀ action ∈ d.actions, action.isDelete = false) : (outcome rt d input).deletePaths = [] := by
  have hactions : ∀ (actions : List Action) (result : EvaluationResult),
      (∀ action ∈ actions, action.isDelete = false) → result.deletePaths = [] →
      (actions.foldl (applyAction input) result).deletePaths = [] := by
    intro actions
    induction actions with
    | nil => exact fun _ _ hnone => hnone
    | cons action rest ih =>
      intro result hkeep hnone
      refine ih _ (fun a ha => hkeep a (by simp [ha])) ?_
      cases action with
      | setSeverity _ | addTag _ => simp only [applyAction]; split <;> exact hnone
      | delete reason => exact absurd (hkeep (.delete reason) (by simp)) (by simp [Action.isDelete])
      | _ => exact hnone
  unfold outcome
  split
  · exact hactions d.actions _ h rfl
  · rfl

theorem Harmless.deletePaths {rt : PyRuntime} {rules : List (Rule × RuleDefinition)}
    (h : Harmless rules) (input : EvaluationInput) :
    (progressAfter rt input rules).aggregate.deletePaths = [] := by
  have hfold : ∀ (ds : List RuleDefinition) (agg : EvaluationResult),
      (∀ d ∈ ds, (outcome rt d input).deletePaths = []) → agg.deletePaths = [] →
      (ds.foldl (fun agg d => absorb agg (outcome rt d input)) agg).deletePaths = [] := by
    intro ds
    induction ds with
    | nil => exact fun _ _ hnone => hnone
    | cons d rest ih =>
      intro agg hds hnone
      refine ih _ (fun d' hd' => hds d' (by simp [hd'])) ?_
      show (absorb agg (outcome rt d input)).deletePaths = []
      unfold absorb
      split
      · simp [EvaluationResult.mergeInto, hnone, hds d (by simp)]
      · exact hnone
  refine hfold _ _ (fun d hd => ?_) rfl
  obtain ⟨entry, hentry, rfl⟩ := List.mem_map.mp hd
  exact deletePaths_outcome input (h entry hentry)

/-! ### The tables after one evaluation -/

/-- The file carries these tags of rules. -/
def tagged (t : Tables) (id : String) (tags : List String) : Tables :=
  tags.foldl (fun t tag => t.putTag ⟨id, tag, "rule"⟩) t

/-- What the evaluation of a file that is not deleted leaves, with these tags put so far. -/
structure Judged (rt : PyRuntime) (m : MediaFile) (input : EvaluationInput) (now : Nat)
    (rules : List (Rule × RuleDefinition)) (tags : List String) (before after : Tables) : Prop where
  media : after.media = (before.setSeverity m.id
    ((progressAfter rt input rules).aggregate.severity.getD .ok)
    (progressAfter rt input rules).aggregate.severityRank).media
  tags : after.tags = (tagged before m.id tags).tags
  own : ∀ e : RuleEvaluation, e.mediaFileId = m.id → (e ∈ after.evaluations ↔
    IsRowOf rt m input now rules e ∨ (e ∈ before.evaluations ∧ e.ruleId ∉ rules.map (·.1.id)))

section Evaluation

variable {env : Env} {m : MediaFile} {input : EvaluationInput} {now : Nat}
  {rules : List (Rule × RuleDefinition)} {before : Tables} {D : Tables → Prop}
  {tags : List String}

theorem Judged.of_core_eq {rt : PyRuntime} {t t' : Tables} (hcore : core t' = core t)
    (h : Judged rt m input now rules tags before t) : Judged rt m input now rules tags before t' := by
  simp only [core, Prod.mk.injEq] at hcore
  obtain ⟨hmedia, hevaluations, htags, -⟩ := hcore
  exact {
    media := hmedia.trans h.media
    tags := htags.trans h.tags
    own := fun e he => by rw [hevaluations]; exact h.own e he }

theorem Judged.ofSettled {rt : PyRuntime} {t : Tables}
    (h : Settled rt m input now rules before t) :
    Judged rt m input now rules [] before (t.setSeverity m.id
      ((progressAfter rt input rules).aggregate.severity.getD .ok)
      (progressAfter rt input rules).aggregate.severityRank) where
  media := by
    simp only [Tables.setSeverity]
    rw [h.media]
  tags := h.tags
  own := h.own

theorem Judged.putTag {rt : PyRuntime} {t : Tables} (tag : String)
    (h : Judged rt m input now rules tags before t) :
    Judged rt m input now rules (tags ++ [tag]) before (t.putTag ⟨m.id, tag, "rule"⟩) where
  media := h.media
  tags := by
    rw [tagged, List.foldl_append]
    show t.tags.upsert _ = (tagged before m.id tags).tags.upsert _
    rw [h.tags]
  own := h.own

theorem triple_applyAggregate_judged
    (hkeep : (progressAfter env.rt input rules).aggregate.deletePaths = []) :
    Triple (Holding D (LoopEffect env.rt m input now rules before))
      (applyAggregate env m (rules.map (·.1.id)) (progressAfter env.rt input rules))
      (fun _ => Holding D (Judged env.rt m input now rules
        (progressAfter env.rt input rules).aggregate.addTags before))
      (fun _ s => D s.committed) := by
  have hcore : ∀ tags t t', core t' = core t → Judged env.rt m input now rules tags before t →
      Judged env.rt m input now rules tags before t' := fun _ _ _ heq h => h.of_core_eq heq
  refine triple_dropStale.bind fun _ => ?_
  refine (triple_edit fun t h => Judged.ofSettled h).bind fun _ => ?_
  refine Triple.bind (M := fun _ => Holding D (Judged env.rt m input now rules
    (progressAfter env.rt input rules).aggregate.addTags before)) ?_ fun _ => ?_
  · refine Triple.forEach (I := fun done => Holding D (Judged env.rt m input now rules done before))
      _ fun done tag rest _ => ?_
    refine triple_loaded ((quiet_triple (quiet_select _) (hcore done)).bind fun _ => ?_)
    exact triple_edit fun t h => h.putTag tag
  · refine Triple.when (fun hdelete => ?_) fun _ _ hs => hs
    rw [hkeep] at hdelete
    cases hdelete

theorem evaluateFile_judged (hnodup : (rules.map (·.1.id)).Nodup) (hharmless : Harmless rules)
    {s s' : Session Tables Outside} {result : FileOutcome}
    (hrun : evaluateFile env m rules true s = (.ok result, s')) :
    s'.Live ∧ ∃ now, Judged env.rt m (inputOf s.working m) now rules
      (progressAfter env.rt (inputOf s.working m) rules).aggregate.addTags s.working s'.working := by
  suffices h : Triple (Holding (fun _ => True) (· = s.working)) (evaluateFile env m rules true)
      (fun _ s' => s'.Live ∧ ∃ now, Judged env.rt m (inputOf s.working m) now rules
        (progressAfter env.rt (inputOf s.working m) rules).aggregate.addTags s.working s'.working)
      (fun _ _ => True) from h.of_ok ⟨trivial, fun _ => rfl⟩ hrun
  refine triple_load_bind (fun _ _ _ => trivial) ?_
  refine (triple_select_live _).bind fun input => Triple.assuming fun hinput => ?_
  obtain ⟨t, ht, hinput⟩ := hinput
  subst hinput
  rw [ht]
  refine Triple.bind (M := fun _ => Holding (fun _ => True) (· = s.working)) (fun s hs => hs.1)
    fun now => ?_
  refine ((triple_loop rules hnodup).consequence (fun _ hs => hs) (fun _ _ hs => hs)
    fun _ _ _ => trivial).bind fun progress => Triple.assuming fun hprogress => ?_
  subst hprogress
  refine Triple.bind (M := fun _ s' => Holding (fun _ => True) (Judged env.rt m
    (inputOf s.working m) now rules (progressAfter env.rt (inputOf s.working m) rules).aggregate.addTags
      s.working) s' ∧ s'.failed = false) ?_ fun _ => ?_
  · refine (triple_applyAggregate_judged (hharmless.deletePaths _)).consequence (fun _ hs => hs)
      (fun _ _ hs => hs) (fun _ _ _ => trivial) |>.bind fun _ => ?_
    exact triple_applyLookups m _ (fun _ _ => trivial) (fun _ _ heq h => h.of_core_eq heq)
      fun _ _ _ h => h
  · refine triple_load_bind (fun _ _ _ => trivial) (triple_pure _ fun s' hs => ?_)
    have hlive : s'.Live := ⟨hs.1.2, hs.2⟩
    exact ⟨hlive, now, hs.1.1.2 hlive⟩

end Evaluation

/-! ### The same evaluation again -/

theorem mem_putTag_of_mem {t : Tables} {row : MediaTag} (tag : MediaTag) (h : row ∈ t.tags) :
    row ∈ (t.putTag tag).tags := by
  refine Table.mem_upsert.mpr ?_
  by_cases hrow : row = tag
  · exact .inl hrow
  · refine .inr ⟨h, fun hkey => hrow ?_⟩
    cases row
    cases tag
    simpa using hkey

theorem mem_tagged_of_mem {t : Tables} {row : MediaTag} {id : String} (tags : List String)
    (h : row ∈ t.tags) : row ∈ (tagged t id tags).tags := by
  induction tags generalizing t with
  | nil => exact h
  | cons tag rest ih => exact ih (mem_putTag_of_mem _ h)

theorem mem_tagged {t : Tables} {id tag : String} {tags : List String} (h : tag ∈ tags) :
    ⟨id, tag, "rule"⟩ ∈ (tagged t id tags).tags := by
  induction tags generalizing t with
  | nil => cases h
  | cons first rest ih =>
    rcases List.mem_cons.mp h with rfl | hrest
    · refine mem_tagged_of_mem rest ?_
      exact Table.mem_upsert.mpr (.inl rfl)
    · exact ih hrest

theorem tagged_of_mem {t : Tables} {id : String} {tags : List String}
    (h : ∀ tag ∈ tags, ⟨id, tag, "rule"⟩ ∈ t.tags) : (tagged t id tags).tags = t.tags := by
  induction tags generalizing t with
  | nil => rfl
  | cons tag rest ih =>
    have hfirst : (t.putTag ⟨id, tag, "rule"⟩).tags = t.tags := Table.upsert_of_mem (h tag (by simp))
    refine (ih fun other hother => ?_).trans hfirst
    rw [hfirst]
    exact h other (by simp [hother])

theorem setSeverity_again {t t' : Tables} {id : String} {severity : Severity} {rank : Nat}
    (h : t'.media = (t.setSeverity id severity rank).media) :
    (t'.setSeverity id severity rank).media = t'.media := by
  have hmedia : (t'.setSeverity id severity rank).media = t'.media.update (fun m => m.id = id)
      (fun m => { m with severity := severity, severityRank := rank }) fun _ => rfl := rfl
  rw [hmedia, h]
  apply Table.ext
  simp only [Tables.setSeverity, Table.update, List.map_map]
  apply List.map_congr_left
  intro m _
  by_cases hm : m.id = id <;> simp [hm]

/-- A row without its timestamp. -/
def untimed (e : RuleEvaluation) : RuleEvaluation := { e with evaluatedAt := 0 }

/-- The file has this evaluation row, apart from the timestamp. -/
def HasRow (t : Tables) (id : String) (e : RuleEvaluation) : Prop :=
  ∃ row ∈ t.evaluations, row.mediaFileId = id ∧ untimed row = e

/-- The file's severity, its tags and its evaluation rows are as they were, apart from
    timestamps. -/
structure Unchanged (id : String) (t t' : Tables) : Prop where
  media : t'.media = t.media
  tags : t'.tags = t.tags
  rows : ∀ e, HasRow t' id e ↔ HasRow t id e

/-- What the next evaluation reads: the tags that the matching rules add are there. -/
def nextInput (rt : PyRuntime) (t : Tables) (m : MediaFile)
    (rules : List (Rule × RuleDefinition)) : EvaluationInput :=
  inputOf (tagged t m.id (progressAfter rt (inputOf t m) rules).aggregate.addTags) m

theorem inputOf_tags_congr {t t' : Tables} (m : MediaFile) (h : t'.tags = t.tags) :
    inputOf t' m = inputOf t m :=
  inputOf_congr (by rw [Tables.tagNames, Tables.tagNames, h])

theorem Judged.row_iff {rt : PyRuntime} {m : MediaFile} {input : EvaluationInput} {now : Nat}
    {rules : List (Rule × RuleDefinition)} {tags : List String} {before after : Tables}
    (h : Judged rt m input now rules tags before after) (hnodup : (rules.map (·.1.id)).Nodup)
    {entry : Rule × RuleDefinition} (hentry : entry ∈ rules) {e : RuleEvaluation}
    (hfile : e.mediaFileId = m.id) (hrule : e.ruleId = entry.1.id) :
    e ∈ after.evaluations ↔ verdict rt input entry.2.match_ = true ∧
      e = evaluationRow m entry.1 (outcome rt entry.2 input) now := by
  rw [h.own e hfile]
  constructor
  · rintro (⟨other, hother, rfl⟩ | ⟨-, hout⟩)
    · obtain ⟨hmem, hverdict⟩ := mem_matching.mp hother
      obtain rfl : other = entry := List.inj_on_of_nodup_map hnodup hmem hentry hrule
      exact ⟨hverdict, rfl⟩
    · exact absurd (hrule ▸ List.mem_map_of_mem hentry) hout
  · rintro ⟨hverdict, rfl⟩
    exact .inl ⟨entry, mem_matching.mpr ⟨hentry, hverdict⟩, rfl⟩

theorem Judged.hasRow_iff {rt : PyRuntime} {m : MediaFile} {input : EvaluationInput} {now : Nat}
    {rules : List (Rule × RuleDefinition)} {tags : List String} {before after : Tables}
    (h : Judged rt m input now rules tags before after) (hnodup : (rules.map (·.1.id)).Nodup)
    {entry : Rule × RuleDefinition} (hentry : entry ∈ rules) :
    (∃ e, HasRow after m.id e ∧ e.ruleId = entry.1.id) ↔
      verdict rt input entry.2.match_ = true := by
  constructor
  · rintro ⟨-, ⟨row, hmem, hfile, rfl⟩, hrule⟩
    exact ((h.row_iff hnodup hentry hfile hrule).mp hmem).1
  · intro hverdict
    refine ⟨_, ⟨evaluationRow m entry.1 (outcome rt entry.2 input) now, ?_, rfl, rfl⟩, rfl⟩
    exact (h.row_iff hnodup hentry rfl rfl).mpr ⟨hverdict, rfl⟩

theorem unchanged_iff_verdicts {rt : PyRuntime} {m : MediaFile} {now now' : Nat}
    {rules : List (Rule × RuleDefinition)} {t t₁ t₂ : Tables} (hnodup : (rules.map (·.1.id)).Nodup)
    (hfirst : Judged rt m (inputOf t m) now rules
      (progressAfter rt (inputOf t m) rules).aggregate.addTags t t₁)
    (hsecond : Judged rt m (inputOf t₁ m) now' rules
      (progressAfter rt (inputOf t₁ m) rules).aggregate.addTags t₁ t₂) :
    Unchanged m.id t₁ t₂ ↔ ∀ entry ∈ rules,
      verdict rt (inputOf t₁ m) entry.2.match_ = verdict rt (inputOf t m) entry.2.match_ := by
  constructor
  · intro hsame entry hentry
    rw [Bool.eq_iff_iff, ← hfirst.hasRow_iff hnodup hentry, ← hsecond.hasRow_iff hnodup hentry]
    exact exists_congr fun e => and_congr_left' (hsame.rows e)
  · intro hverdicts
    have hpath : (inputOf t₁ m).path = (inputOf t m).path := rfl
    have hprogress := progressAfter_congr hpath hverdicts
    rw [hprogress] at hsecond
    refine ⟨?_, ?_, fun e => ?_⟩
    · rw [hsecond.media, hprogress]
      exact setSeverity_again hfirst.media
    · rw [hsecond.tags]
      refine tagged_of_mem fun tag htag => ?_
      rw [hfirst.tags]
      exact mem_tagged htag
    · -- a row of the file is one of a rule of the pass, or was there before
      have hrow : ∀ entry ∈ rules, untimed (evaluationRow m entry.1
          (outcome rt entry.2 (inputOf t₁ m)) now') =
          untimed (evaluationRow m entry.1 (outcome rt entry.2 (inputOf t m)) now) := by
        intro entry hentry
        rw [outcome_congr hpath (hverdicts entry hentry)]
        rfl
      constructor
      · rintro ⟨row, hmem, hfile, rfl⟩
        rcases (hsecond.own row hfile).mp hmem with ⟨entry, hentry, rfl⟩ | ⟨hold, -⟩
        · obtain ⟨hmem', hverdict⟩ := mem_matching.mp hentry
          rw [hrow entry hmem']
          refine ⟨_, ?_, rfl, rfl⟩
          refine (hfirst.row_iff hnodup hmem' rfl rfl).mpr ⟨?_, rfl⟩
          rw [← hverdicts entry hmem']
          exact hverdict
        · exact ⟨row, hold, hfile, rfl⟩
      · rintro ⟨row, hmem, hfile, rfl⟩
        by_cases hrule : row.ruleId ∈ rules.map (·.1.id)
        · obtain ⟨entry, hentry, hid⟩ := List.mem_map.mp hrule
          obtain ⟨hverdict, rfl⟩ := (hfirst.row_iff hnodup hentry hfile hid.symm).mp hmem
          rw [← hrow entry hentry]
          refine ⟨_, ?_, rfl, rfl⟩
          refine (hsecond.row_iff hnodup hentry rfl rfl).mpr ⟨?_, rfl⟩
          rw [hverdicts entry hentry]
          exact hverdict
        · exact ⟨row, (hsecond.own row hfile).mpr (.inr ⟨hmem, hrule⟩), hfile, rfl⟩

/-- In a clean environment and a live session an evaluation returns exactly if every rule
    can be evaluated on the file. -/
theorem evaluateFile_returns_iff {env : Env} (hclean : Clean env) (m : MediaFile)
    (rules : List (Rule × RuleDefinition)) {s : Session Tables Outside} (hlive : s.Live) :
    Returns (evaluateFile env m rules true) s ↔
      ∀ entry ∈ rules, evaluable env.rt (inputOf s.working m) entry.2.match_ = true := by
  constructor
  · rintro ⟨result, s', hrun⟩ entry hentry
    by_contra hbad
    rw [Bool.not_eq_true] at hbad
    obtain ⟨p, s'', hraise, -⟩ := evaluateFile_raises hclean m rules true hlive ⟨entry, hentry, hbad⟩
    rw [hrun] at hraise
    cases hraise
  · intro hrules
    have hends := triple_evaluateFile_benign true hrules s ⟨rfl, fun _ => hlive⟩
    rcases hrun : evaluateFile env m rules true s with ⟨e | result, s'⟩
    · rw [hrun] at hends
      exact absurd hclean hends.2
    · exact ⟨result, s', hrun⟩

theorem inputOf_first {env : Env} {m : MediaFile} {rules : List (Rule × RuleDefinition)}
    (hnodup : (rules.map (·.1.id)).Nodup) (hharmless : Harmless rules)
    {s s₁ : Session Tables Outside} {result : FileOutcome}
    (hfirst : evaluateFile env m rules true s = (.ok result, s₁)) :
    inputOf s₁.working m = nextInput env.rt s.working m rules := by
  obtain ⟨-, now, hjudged⟩ := evaluateFile_judged hnodup hharmless hfirst
  exact inputOf_tags_congr m hjudged.tags

theorem unchanged_iff_of_runs {env env' : Env} {m : MediaFile}
    {rules : List (Rule × RuleDefinition)} (hnodup : (rules.map (·.1.id)).Nodup)
    (hharmless : Harmless rules) (hrt : env'.rt = env.rt) {s s₁ s₁' s₂ : Session Tables Outside}
    {result result' : FileOutcome} (hfirst : evaluateFile env m rules true s = (.ok result, s₁))
    (hsame : s₁'.working = s₁.working)
    (hsecond : evaluateFile env' m rules true s₁' = (.ok result', s₂)) :
    Unchanged m.id s₁.working s₂.working ↔ ∀ entry ∈ rules,
      verdict env.rt (nextInput env.rt s.working m rules) entry.2.match_ =
        verdict env.rt (inputOf s.working m) entry.2.match_ := by
  obtain ⟨-, now, hjudged⟩ := evaluateFile_judged hnodup hharmless hfirst
  obtain ⟨-, now', hjudged'⟩ := evaluateFile_judged hnodup hharmless hsecond
  rw [hrt, hsame] at hjudged'
  rw [unchanged_iff_verdicts hnodup hjudged hjudged', inputOf_first hnodup hharmless hfirst]

theorem notContains_mem_opsForField_tags : Op.notContains ∈ opsForField .tags := by decide

/-- Files without the tag `seen` get it, and a warning. -/
def markUnseen : RuleDefinition where
  match_ := .condition ⟨.tags, .notContains, .str "seen", notContains_mem_opsForField_tags, rfl⟩
  actions := [.setSeverity .warn, .addTag "seen"]
  acknowledgedDestructive := false
  groups_nonempty := rfl
  actions_nonempty := List.cons_ne_nil _ _
  lengths_allowed := by decide
  destructive_ack := rfl

def aviAlone : Tables :=
  { Tables.empty with
    media := ⟨[NotifyRequests.aviFile], List.nodup_singleton _⟩
    media_path_unique := List.nodup_singleton _ }

/-- One rule alone. -/
def alone (d : RuleDefinition) : List (Rule × RuleDefinition) := [(storedRule "r1" d, d)]

theorem alone_returns {d : RuleDefinition} {s : Session Tables Outside} (hlive : s.Live)
    (h : evaluable calmEnv.rt (inputOf s.working NotifyRequests.aviFile) d.match_ = true) :
    Returns (evaluateFile calmEnv NotifyRequests.aviFile (alone d) true) s := by
  refine (evaluateFile_returns_iff ⟨fun _ => rfl, fun _ => rfl⟩ _ _ hlive).mpr fun entry hentry => ?_
  rw [List.mem_singleton.mp hentry]
  exact h

end RepeatedPass
