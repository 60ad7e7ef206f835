/-
  Auditarr/RulesEffect.lean
  =========================
  **What one evaluation of a file does to the tables.**

  `Evaluated` says which media rows, evaluation rows and tags there are after
  `evaluateFile` returned, given those before.  The notifications, queue entries
  and audit entries written on the way are framed out: none of them touches the
  three tables.
-/
import Auditarr.RulesService

namespace RulesEffect

open Effects Transactions KeyedTable PyValues RuleSchema RuleEvaluator RuleAggregation
open Database RulesService

/-! ### Frames -/

/-- The `file.deleted` entries of the audit log. -/
def deletions (t : Tables) : List AuditLogEntry := t.auditLog.filter (·.action = "file.deleted")

/-- The tables a severity is computed from and written to, and the deletions. -/
def core (t : Tables) : Table MediaFile.id ×
    Table (fun e : RuleEvaluation => (e.mediaFileId, e.ruleId)) ×
    Table (fun tag : MediaTag => (tag.mediaFileId, tag.name, tag.source)) ×
    List AuditLogEntry :=
  (t.media, t.evaluations, t.tags, deletions t)

/-- The files on disk and in the trash. -/
def files (o : Outside) : (String → Bool) × List TrashMove := (o.onDisk, o.trash)

/-- A call that leaves the core tables, the files and the committed tables alone. -/
def Quiet {α : Type} (c : Service α) : Prop := Within (Keeps core files) c

section Frames

variable {env : Env} {α β ι : Type}

theorem Quiet.bind {c : Service α} {k : α → Service β} (hc : Quiet c) (hk : ∀ a, Quiet (k a)) :
    Quiet (c >>= k) :=
  within_bind hc hk

theorem quiet_pure (a : α) : Quiet (pure a : Service α) := within_pure a

theorem quiet_read (f : Session Tables Outside → α) : Quiet (Call.read f) := within_read f

theorem quiet_raise (e : ServiceError) : Quiet (Call.raise e : Service α) := within_raise e

theorem quiet_attempt {c : Service α} {handler : ServiceError → Service α} (hc : Quiet c)
    (hh : ∀ e, Quiet (handler e)) : Quiet (Call.attempt c handler) :=
  within_attempt hc hh

theorem quiet_when {b : Bool} {c : Service Unit} (hc : Quiet c) : Quiet (Call.when b c) :=
  within_when fun _ => hc

theorem quiet_forEach {body : ι → Service Unit} (xs : List ι) (h : ∀ x, Quiet (body x)) :
    Quiet (Call.forEach body xs) :=
  within_forEach xs fun x _ => h x

theorem quiet_select (query : Tables → α) : Quiet (select env.db query) := keeps_select query

theorem quiet_flush : Quiet (flush env.db) := keeps_flush

theorem quiet_load (a : α) : Quiet (load env.db a) := keeps_load a

theorem quiet_edit {change : Tables → Tables} (h : ∀ t, core (change t) = core t) :
    Quiet (edit change) :=
  keeps_edit h

theorem quiet_addAudit {entry : AuditLogEntry} (h : entry.action ≠ "file.deleted") :
    Quiet (edit (·.addAudit entry)) :=
  quiet_edit fun t => by simp [core, deletions, Tables.addAudit, List.filter_append, h]

theorem quiet_putItem (item : OptimizationItem) : Quiet (edit (·.putItem item)) :=
  quiet_edit fun _ => rfl

theorem quiet_putWindow (window : RuleNotificationWindow) : Quiet (edit (·.putWindow window)) :=
  quiet_edit fun _ => rfl

theorem quiet_putVtItem (item : VtQueueItem) : Quiet (edit (·.putVtItem item)) :=
  quiet_edit fun _ => rfl

theorem quiet_outside {change : Outside → Outside} (h : ∀ o, files (change o) = files o) :
    Quiet (outside change) :=
  keeps_outside h

theorem quiet_emit (event : Event) : Quiet (emit event) := quiet_outside fun _ => rfl

theorem quiet_recordAudit {entry : AuditLogEntry} (h : entry.action ≠ "file.deleted") :
    Quiet (recordAudit env entry) :=
  (quiet_addAudit h).bind fun _ => quiet_flush

theorem quiet_upsertQueued (mediaFileId profile ruleId : String) (queuedAt : Nat) :
    Quiet (upsertQueued env mediaFileId profile ruleId queuedAt) := by
  refine (quiet_select _).bind fun existing => ?_
  cases existing with
  | none =>
    exact (quiet_read _).bind fun _ => (quiet_putItem _).bind fun _ => quiet_flush
  | some item =>
    by_cases hqueued : item.status = .queued
    · simp only [hqueued, if_true]
      exact (quiet_putItem _).bind fun _ => quiet_flush
    · simp only [hqueued, if_false]
      exact quiet_pure _

theorem quiet_queueOptimization (m : MediaFile) (rule : Rule) (tags : List String) (now : Nat)
    (profileName : String) : Quiet (queueOptimization env m rule tags now profileName) := by
  refine (quiet_select _).bind fun profile => quiet_when ?_
  exact (quiet_load _).bind fun _ => (quiet_load _).bind fun _ => quiet_upsertQueued _ _ _ _

theorem quiet_throttleGate (ruleId ruleName : String) (throttle : NotifyThrottle) (now : Nat) :
    Quiet (throttleGate env ruleId ruleName throttle now) := by
  refine (quiet_select _).bind fun existing => ?_
  cases existing with
  | none =>
    exact (quiet_putWindow _).bind fun _ => quiet_flush.bind fun _ => quiet_pure _
  | some row =>
    by_cases hunder : row.count < throttle.maxPerWindow
    · simp only [hunder, if_true]
      exact (quiet_putWindow _).bind fun _ => quiet_flush.bind fun _ => quiet_pure _
    · simp only [hunder, if_false]
      refine (quiet_emit _).bind fun _ => (quiet_putWindow _).bind fun _ =>
        quiet_flush.bind fun _ => Quiet.bind (quiet_when ?_) fun _ => quiet_pure _
      exact quiet_attempt (quiet_recordAudit (by simp)) fun _ => quiet_pure _

theorem quiet_dispatch (request : DispatchRequest) : Quiet (dispatch env request) := by
  refine (quiet_select _).bind fun _ => Quiet.bind ?_ fun _ => quiet_flush
  exact quiet_outside fun _ => rfl

theorem quiet_notify (m : MediaFile) (rule : Rule) (definition : RuleDefinition)
    (severity : Severity) (now : Nat) (notification : Notification) :
    Quiet (notify env m rule definition severity now notification) := by
  refine (quiet_load _).bind fun ruleId => Quiet.bind ?_ fun allow => quiet_when ?_
  · cases notification.throttle with
    | none => exact quiet_pure _
    | some throttle => exact quiet_throttleGate _ _ _ _
  · exact quiet_attempt ((quiet_load _).bind fun _ => quiet_dispatch _)
      fun _ => (quiet_load _).bind fun _ => quiet_pure _

theorem quiet_insertVtIfAbsent (item : VtQueueItem) : Quiet (insertVtIfAbsent env item) := by
  refine (quiet_select _).bind fun taken => ?_
  split
  · exact quiet_pure _
  · exact (quiet_putVtItem _).bind fun _ => quiet_pure _

theorem quiet_emitSearchUpstreamAudit (m : MediaFile) (integrationId target : String)
    (result : SearchTriggerResult) :
    Quiet (emitSearchUpstreamAudit env m integrationId target result) :=
  (quiet_load _).bind fun _ =>
    (quiet_attempt (quiet_recordAudit (by simp)) fun _ =>
      (quiet_load _).bind fun _ => quiet_pure _).bind
      fun _ => quiet_emit _

theorem quiet_triggerUpstreamSearch (m : MediaFile) (request : SearchRequest) :
    Quiet (triggerUpstreamSearch env m request) := by
  refine (quiet_select _).bind fun found => ?_
  cases found with
  | none => exact quiet_emitSearchUpstreamAudit _ _ _ _
  | some integration =>
    simp only []
    split
    · exact quiet_emitSearchUpstreamAudit _ _ _ _
    split
    · exact quiet_pure _
    cases resolveSearch env (targetKind request.target) integration with
    | error result => exact quiet_emitSearchUpstreamAudit _ _ _ _
    | ok trigger =>
      simp only []
      split
      · exact quiet_raise _
      · refine (quiet_load _).bind fun _ => Quiet.bind ?_ fun _ =>
          quiet_emitSearchUpstreamAudit _ _ _ _
        exact quiet_outside fun _ => rfl

theorem quiet_triggerUpstreamSearches (m : MediaFile) (requests : List SearchRequest) :
    Quiet (triggerUpstreamSearches env m requests) :=
  quiet_forEach _ fun request => quiet_triggerUpstreamSearch m request

end Frames

/-! ### The effect of the loop -/

/-- The rules of a pass that match the file. -/
def matching (rt : PyRuntime) (input : EvaluationInput) (rules : List (Rule × RuleDefinition)) :
    List (Rule × RuleDefinition) :=
  rules.filter fun entry => verdict rt input entry.2.match_

/-- What the loop has computed after some rules. -/
def progressAfter (rt : PyRuntime) (input : EvaluationInput)
    (rules : List (Rule × RuleDefinition)) : Progress where
  aggregate := (rules.map (·.2)).foldl (fun agg d => absorb agg (outcome rt d input)) aggregateStart
  matchedRuleIds := (matching rt input rules).map (·.1.id)

theorem progressAfter_append_matching {rt : PyRuntime} {input : EvaluationInput}
    (done : List (Rule × RuleDefinition)) {entry : Rule × RuleDefinition}
    (hverdict : verdict rt input entry.2.match_ = true) :
    progressAfter rt input (done ++ [entry]) =
      ⟨(outcome rt entry.2 input).mergeInto (progressAfter rt input done).aggregate,
        (progressAfter rt input done).matchedRuleIds ++ [entry.1.id]⟩ := by
  have hmatched : (outcome rt entry.2 input).matched = true := by rw [outcome_matched, hverdict]
  simp [progressAfter, matching, List.filter_append, hverdict, absorb, hmatched]

theorem progressAfter_append_skipped {rt : PyRuntime} {input : EvaluationInput}
    (done : List (Rule × RuleDefinition)) {entry : Rule × RuleDefinition}
    (hverdict : verdict rt input entry.2.match_ = false) :
    progressAfter rt input (done ++ [entry]) = progressAfter rt input done := by
  have hmatched : (outcome rt entry.2 input).matched = false := by rw [outcome_matched, hverdict]
  simp [progressAfter, matching, List.filter_append, hverdict, absorb, hmatched]

theorem matching_append_matching {rt : PyRuntime} {input : EvaluationInput}
    (done : List (Rule × RuleDefinition)) {entry : Rule × RuleDefinition}
    (hverdict : verdict rt input entry.2.match_ = true) :
    matching rt input (done ++ [entry]) = matching rt input done ++ [entry] := by
  simp [matching, List.filter_append, hverdict]

theorem matching_append_skipped {rt : PyRuntime} {input : EvaluationInput}
    (done : List (Rule × RuleDefinition)) {entry : Rule × RuleDefinition}
    (hverdict : verdict rt input entry.2.match_ = false) :
    matching rt input (done ++ [entry]) = matching rt input done := by
  simp [matching, List.filter_append, hverdict]

/-- The evaluation row a matching rule leaves. -/
def IsRowOf (rt : PyRuntime) (m : MediaFile) (input : EvaluationInput) (now : Nat)
    (rules : List (Rule × RuleDefinition)) (e : RuleEvaluation) : Prop :=
  ∃ entry ∈ matching rt input rules, e = evaluationRow m entry.1 (outcome rt entry.2 input) now

/-- The tables while the loop runs: only evaluation rows of the file have
    changed, those of the rules that matched so far. -/
structure LoopEffect (rt : PyRuntime) (m : MediaFile) (input : EvaluationInput) (now : Nat)
    (done : List (Rule × RuleDefinition)) (before after : Tables) : Prop where
  media : after.media = before.media
  tags : after.tags = before.tags
  others : ∀ id, id ≠ m.id → after.evaluationsOf id = before.evaluationsOf id
  own : ∀ e : RuleEvaluation, e.mediaFileId = m.id → (e ∈ after.evaluations ↔
    IsRowOf rt m input now done e ∨
      (e ∈ before.evaluations ∧ e.ruleId ∉ (matching rt input done).map (·.1.id)))

section Loop

variable {env : Env} {m : MediaFile} {input : EvaluationInput} {now : Nat}
  {before : Tables} {D : Tables → Prop}

theorem LoopEffect.start (rt : PyRuntime) : LoopEffect rt m input now [] before before where
  media := rfl
  tags := rfl
  others _ _ := rfl
  own e _ := by simp [IsRowOf, matching]

theorem LoopEffect.of_core_eq {rt : PyRuntime} {done : List (Rule × RuleDefinition)}
    {t t' : Tables} (hcore : core t' = core t) (h : LoopEffect rt m input now done before t) :
    LoopEffect rt m input now done before t' := by
  simp only [core, Prod.mk.injEq] at hcore
  obtain ⟨hmedia, hevaluations, htags, -⟩ := hcore
  exact {
    media := hmedia.trans h.media
    tags := htags.trans h.tags
    others := fun id hid => by rw [← h.others id hid, Tables.evaluationsOf, hevaluations]; rfl
    own := fun e he => by rw [hevaluations]; exact h.own e he }

theorem LoopEffect.skip {rt : PyRuntime} {done : List (Rule × RuleDefinition)}
    {entry : Rule × RuleDefinition} {t : Tables} (h : LoopEffect rt m input now done before t)
    (hverdict : verdict rt input entry.2.match_ = false) :
    LoopEffect rt m input now (done ++ [entry]) before t where
  media := h.media
  tags := h.tags
  others := h.others
  own e he := by
    rw [h.own e he]
    unfold IsRowOf
    rw [matching_append_skipped done hverdict]

theorem LoopEffect.put {rt : PyRuntime} {done : List (Rule × RuleDefinition)}
    {entry : Rule × RuleDefinition} {t : Tables} (h : LoopEffect rt m input now done before t)
    (hverdict : verdict rt input entry.2.match_ = true)
    (hfresh : entry.1.id ∉ done.map (·.1.id)) :
    LoopEffect rt m input now (done ++ [entry]) before
      (t.putEvaluation (evaluationRow m entry.1 (outcome rt entry.2 input) now)) where
  media := h.media
  tags := h.tags
  others id hid := by
    rw [← h.others id hid]
    refine Table.filter_upsert fun r hr => ?_
    have hfile : r.mediaFileId = m.id := congrArg Prod.fst hr
    simp [hfile, Ne.symm hid]
  own e he := by
    have hnew : ∀ old ∈ matching rt input done, old.1.id ≠ entry.1.id := by
      intro old hold heq
      exact hfresh (heq ▸ List.mem_map_of_mem (List.mem_of_mem_filter hold))
    simp only [Tables.putEvaluation, Table.mem_upsert, h.own e he, IsRowOf,
      matching_append_matching done hverdict, List.mem_append, List.mem_singleton, List.map_append,
      List.map_singleton, not_or]
    constructor
    · rintro (rfl | ⟨⟨old, hold, rfl⟩ | ⟨hmem, hne⟩, hkey⟩)
      · exact .inl ⟨entry, .inr rfl, rfl⟩
      · exact .inl ⟨old, .inl hold, rfl⟩
      · refine .inr ⟨hmem, hne, fun hrule => hkey ?_⟩
        simp [evaluationRow, he, hrule]
    · rintro (⟨old, hold | rfl, rfl⟩ | ⟨hmem, hne, hrule⟩)
      · exact .inr ⟨.inl ⟨old, hold, rfl⟩, fun hkey => hnew old hold (congrArg Prod.snd hkey)⟩
      · exact .inl rfl
      · exact .inr ⟨.inr ⟨hmem, hne⟩, fun hkey => hrule (congrArg Prod.snd hkey)⟩

theorem quiet_triple {α : Type} {P : Tables → Prop} {c : Service α} (hc : Quiet c)
    (hP : ∀ t t', core t' = core t → P t → P t') :
    Triple (Holding D P) c (fun _ => Holding D P) (fun _ s => D s.committed) :=
  (triple_of_keeps hc hP).consequence (fun _ hs => hs) (fun _ _ hs => hs) fun _ _ hs => hs.1

theorem triple_loaded {α β : Type} {P : Tables → Prop} {a : α} {k : α → Service β}
    {Q : β → Session Tables Outside → Prop}
    (hk : Triple (Holding D P) (k a) Q (fun _ s => D s.committed)) :
    Triple (Holding D P) (load env.db a >>= k) Q (fun _ s => D s.committed) :=
  triple_load_bind (fun _ _ hs => hs.1) fun s hs => hk s hs.1

theorem triple_upsertEvaluation {P P' : Tables → Prop} (row : RuleEvaluation)
    (hput : ∀ t, P t → P' (t.putEvaluation row)) (hP' : ∀ t t', core t' = core t → P' t → P' t')
    (hP : ∀ t t', core t' = core t → P t → P t') :
    Triple (Holding D P) (upsertEvaluation env row) (fun _ => Holding D P')
      (fun _ s => D s.committed) := by
  refine (quiet_triple (quiet_select _) hP).bind fun _ => ?_
  exact (triple_edit hput).bind fun _ => quiet_triple quiet_flush hP'

theorem triple_persistMatch {done : List (Rule × RuleDefinition)} {entry : Rule × RuleDefinition}
    (aggregate : EvaluationResult) (hverdict : verdict env.rt input entry.2.match_ = true)
    (hfresh : entry.1.id ∉ done.map (·.1.id)) :
    Triple (Holding D (LoopEffect env.rt m input now done before))
      (persistMatch env m input now entry.1 entry.2 (outcome env.rt entry.2 input) aggregate)
      (fun _ => Holding D (LoopEffect env.rt m input now (done ++ [entry]) before))
      (fun _ s => D s.committed) := by
  have hcore : ∀ done t t', core t' = core t → LoopEffect env.rt m input now done before t →
      LoopEffect env.rt m input now done before t' := fun _ _ _ heq h => h.of_core_eq heq
  refine (quiet_triple (quiet_load _) (hcore done)).bind fun _ => ?_
  refine (triple_upsertEvaluation _ (fun t h => h.put hverdict hfresh) (hcore _) (hcore _)).bind
    fun _ => ?_
  refine (quiet_triple (quiet_forEach _ fun name => ?_) (hcore _)).bind fun _ => ?_
  · exact quiet_queueOptimization _ _ _ _ _
  · exact quiet_triple (quiet_when (quiet_forEach _ fun _ => quiet_notify _ _ _ _ _ _)) (hcore _)

theorem triple_evaluateOne {done : List (Rule × RuleDefinition)} {entry : Rule × RuleDefinition}
    (hfresh : entry.1.id ∉ done.map (·.1.id)) :
    Triple (Holding D (LoopEffect env.rt m input now done before))
      (evaluateOne env m input now true (progressAfter env.rt input done) entry)
      (fun progress s => progress = progressAfter env.rt input (done ++ [entry]) ∧
        Holding D (LoopEffect env.rt m input now (done ++ [entry]) before) s)
      (fun _ s => D s.committed) := by
  have hcore : ∀ done t t', core t' = core t → LoopEffect env.rt m input now done before t →
      LoopEffect env.rt m input now done before t' := fun _ _ _ heq h => h.of_core_eq heq
  unfold evaluateOne
  cases hev : evaluate env.rt entry.2 input with
  | error e =>
    simp only [hev]
    exact fun s hs => hs.1
  | ok result =>
    obtain rfl := evaluate_eq_outcome hev
    simp only [hev, outcome_matched]
    cases hverdict : verdict env.rt input entry.2.match_ with
    | false =>
      refine triple_pure _ fun s hs => ⟨(progressAfter_append_skipped done hverdict).symm, ?_⟩
      exact hs.imp fun t h => h.skip hverdict
    | true =>
      refine triple_loaded ((triple_persistMatch _ hverdict hfresh).bind fun _ => ?_)
      exact triple_pure _ fun s hs => ⟨(progressAfter_append_matching done hverdict).symm, hs⟩

theorem triple_loop (rules : List (Rule × RuleDefinition))
    (hnodup : (rules.map (·.1.id)).Nodup) :
    Triple (Holding D (· = before))
      (Call.foldEach (evaluateOne env m input now true) ⟨aggregateStart, []⟩ rules)
      (fun progress s => progress = progressAfter env.rt input rules ∧
        Holding D (LoopEffect env.rt m input now rules before) s)
      (fun _ s => D s.committed) := by
  refine Triple.consequence (Triple.foldEach (I := fun done progress s =>
    progress = progressAfter env.rt input done ∧
      Holding D (LoopEffect env.rt m input now done before) s) _ rules ?_) ?_
    (fun _ _ hs => hs) (fun _ _ hs => hs)
  · intro done entry rest acc hsplit
    refine Triple.assuming fun hacc => ?_
    subst hacc
    refine triple_evaluateOne ?_
    rw [hsplit, List.map_append, List.map_cons] at hnodup
    exact fun hmem => (List.disjoint_of_nodup_append hnodup) hmem (List.mem_cons_self ..)
  · intro s hs
    refine ⟨rfl, hs.imp fun t ht => ?_⟩
    rw [ht]; exact LoopEffect.start env.rt

end Loop

/-! ### The effect of the whole evaluation -/

/-- The tables once the evaluation rows are settled: rules of the pass have a row
    exactly if they match, other rules keep theirs. -/
structure Settled (rt : PyRuntime) (m : MediaFile) (input : EvaluationInput) (now : Nat)
    (rules : List (Rule × RuleDefinition)) (before after : Tables) : Prop where
  media : after.media = before.media
  tags : after.tags = before.tags
  others : ∀ id, id ≠ m.id → after.evaluationsOf id = before.evaluationsOf id
  own : ∀ e : RuleEvaluation, e.mediaFileId = m.id → (e ∈ after.evaluations ↔
    IsRowOf rt m input now rules e ∨ (e ∈ before.evaluations ∧ e.ruleId ∉ rules.map (·.1.id)))

/-- The tables from the severity write on.  The file itself may have been deleted,
    with its rows or without them. -/
structure Evaluated (rt : PyRuntime) (m : MediaFile) (input : EvaluationInput) (now : Nat)
    (rules : List (Rule × RuleDefinition)) (before after : Tables) : Prop where
  otherRows : ∀ id, id ≠ m.id → after.evaluationsOf id = before.evaluationsOf id
  otherTags : ∀ id, id ≠ m.id → after.tagNames id = before.tagNames id
  otherMedia : ∀ m' : MediaFile, m'.id ≠ m.id → (m' ∈ after.media ↔ m' ∈ before.media)
  /-- A selection of media rows that leaves out this file keeps its order. -/
  selection : ∀ q : MediaFile → Bool,
    (∀ old ∈ before.media, old.id = m.id → ∀ severity severityRank,
      q { old with severity, severityRank } = false) →
    after.media.rows.filter q = before.media.rows.filter q
  ownMedia : ∀ m' ∈ after.media, m'.id = m.id → ∃ old ∈ before.media, old.id = m.id ∧
    m' = { old with
      severity := (progressAfter rt input rules).aggregate.severity.getD .ok
      severityRank := (progressAfter rt input rules).aggregate.severityRank }
  ownRows : ∀ m' ∈ after.media, m'.id = m.id → ∀ e : RuleEvaluation, e.mediaFileId = m.id →
    (e ∈ after.evaluations ↔ IsRowOf rt m input now rules e ∨
      (e ∈ before.evaluations ∧ e.ruleId ∉ rules.map (·.1.id)))

section Evaluation

variable {env : Env} {m : MediaFile} {input : EvaluationInput} {now : Nat}
  {rules : List (Rule × RuleDefinition)} {before : Tables} {D : Tables → Prop}

theorem LoopEffect.settled {rt : PyRuntime} {t : Tables}
    (h : LoopEffect rt m input now [] before t) : Settled rt m input now [] before t where
  media := h.media
  tags := h.tags
  others := h.others
  own := h.own

theorem LoopEffect.drop {rt : PyRuntime} {t : Tables}
    (h : LoopEffect rt m input now rules before t) :
    Settled rt m input now rules before
      (t.dropEvaluations m.id (rules.map (·.1.id)) ((matching rt input rules).map (·.1.id))) where
  media := h.media
  tags := h.tags
  others id hid := by
    rw [← h.others id hid]
    refine Table.filter_erase fun e _ he => ?_
    have hne : e.mediaFileId ≠ m.id := fun heq => hid ((of_decide_eq_true he).symm.trans heq)
    simp [hne]
  own e he := by
    have hsub : ∀ id ∈ (matching rt input rules).map (·.1.id), id ∈ rules.map (·.1.id) := by
      intro id hid
      obtain ⟨entry, hentry, rfl⟩ := List.mem_map.mp hid
      exact List.mem_map_of_mem (List.mem_of_mem_filter hentry)
    simp only [Tables.dropEvaluations, Table.mem_erase, h.own e he, he, decide_true, Bool.true_and,
      Bool.and_eq_false_iff, decide_eq_false_iff_not, Bool.not_eq_false', decide_eq_true_eq]
    constructor
    · rintro ⟨hrow | ⟨hmem, hne⟩, hkeep⟩
      · exact .inl hrow
      · exact .inr ⟨hmem, hkeep.resolve_right hne⟩
    · rintro (⟨entry, hentry, rfl⟩ | ⟨hmem, hout⟩)
      · exact ⟨.inl ⟨entry, hentry, rfl⟩, .inr (List.mem_map_of_mem hentry)⟩
      · exact ⟨.inr ⟨hmem, fun hin => hout (hsub _ hin)⟩, .inl hout⟩

theorem Settled.setSeverity {rt : PyRuntime} {t : Tables}
    (h : Settled rt m input now rules before t) :
    Evaluated rt m input now rules before
      (t.setSeverity m.id ((progressAfter rt input rules).aggregate.severity.getD .ok)
        (progressAfter rt input rules).aggregate.severityRank) where
  otherRows := h.others
  otherTags id _ := by simp only [Tables.tagNames, Tables.setSeverity, h.tags]
  otherMedia m' hm' := by
    simp only [Tables.setSeverity, Table.mem_update, h.media]
    constructor
    · rintro ⟨old, hold, rfl⟩
      by_cases hid : old.id = m.id
      · simp [hid] at hm'
      · simpa [hid] using hold
    · intro hmem
      exact ⟨m', hmem, by simp [hm']⟩
  selection q hq := by
    rw [← h.media]
    refine Table.filter_update ?_ fun r hr hid => ?_
    · exact fun _ => rfl
    · have hleft := hq r (h.media ▸ hr) (of_decide_eq_true hid)
      exact ⟨hleft r.severity r.severityRank, hleft _ _⟩
  ownMedia m' hmem hm' := by
    simp only [Tables.setSeverity, Table.mem_update, h.media] at hmem
    obtain ⟨old, hold, rfl⟩ := hmem
    by_cases hid : old.id = m.id
    · exact ⟨old, hold, hid, by simp [hid]⟩
    · simp [hid] at hm'
  ownRows _ _ _ := h.own

theorem Evaluated.of_core_eq {rt : PyRuntime} {t t' : Tables} (hcore : core t' = core t)
    (h : Evaluated rt m input now rules before t) : Evaluated rt m input now rules before t' := by
  simp only [core, Prod.mk.injEq] at hcore
  obtain ⟨hmedia, hevaluations, htags, -⟩ := hcore
  exact {
    otherRows := fun id hid => by rw [← h.otherRows id hid, Tables.evaluationsOf, hevaluations]; rfl
    otherTags := fun id hid => by rw [← h.otherTags id hid, Tables.tagNames, htags]; rfl
    otherMedia := fun m' hm' => by rw [hmedia]; exact h.otherMedia m' hm'
    selection := fun q hq => by rw [hmedia]; exact h.selection q hq
    ownMedia := fun m' hmem hm' => h.ownMedia m' (hmedia ▸ hmem) hm'
    ownRows := fun m' hmem hm' e he => by
      rw [hevaluations]; exact h.ownRows m' (hmedia ▸ hmem) hm' e he }

theorem Evaluated.putTag {rt : PyRuntime} {t : Tables} (tag : String)
    (h : Evaluated rt m input now rules before t) :
    Evaluated rt m input now rules before (t.putTag ⟨m.id, tag, "rule"⟩) where
  otherRows := h.otherRows
  otherTags id hid := by
    rw [← h.otherTags id hid]
    refine congrArg (List.map _) (Table.filter_upsert fun r hr => ?_)
    have hfile : r.mediaFileId = m.id := congrArg Prod.fst hr
    simp [hfile, Ne.symm hid]
  otherMedia := h.otherMedia
  selection := h.selection
  ownMedia := h.ownMedia
  ownRows := h.ownRows

theorem Evaluated.addAudit {rt : PyRuntime} {t : Tables} (entry : AuditLogEntry)
    (h : Evaluated rt m input now rules before t) :
    Evaluated rt m input now rules before (t.addAudit entry) where
  otherRows := h.otherRows
  otherTags := h.otherTags
  otherMedia := h.otherMedia
  selection := h.selection
  ownMedia := h.ownMedia
  ownRows := h.ownRows

theorem Evaluated.deleteMedia {rt : PyRuntime} {t : Tables} (foreignKeys : Bool)
    (h : Evaluated rt m input now rules before t) :
    Evaluated rt m input now rules before (t.deleteMedia foreignKeys m.id) := by
  have hgone : ∀ m' ∈ (t.deleteMedia foreignKeys m.id).media, m'.id ≠ m.id := by
    intro m' hmem hid
    simp [Tables.deleteMedia, Table.mem_erase, hid] at hmem
  exact {
    otherRows := fun id hid => by
      rw [← h.otherRows id hid]
      cases foreignKeys with
      | false => rfl
      | true =>
        refine Table.filter_erase fun e _ he => ?_
        simpa using fun heq => hid ((of_decide_eq_true he).symm.trans heq)
    otherTags := fun id hid => by
      rw [← h.otherTags id hid]
      cases foreignKeys with
      | false => rfl
      | true =>
        refine congrArg (List.map _) (Table.filter_erase fun tag _ htag => ?_)
        simpa using fun heq => hid ((of_decide_eq_true htag).symm.trans heq)
    otherMedia := fun m' hm' => by
      rw [← h.otherMedia m' hm']
      simp [Tables.deleteMedia, Table.mem_erase, hm']
    selection := fun q hq => by
      rw [← h.selection q hq]
      refine Table.filter_erase fun r hr hqr => ?_
      simp only [decide_eq_false_iff_not]
      intro hid
      obtain ⟨old, hold, hoid, rfl⟩ := h.ownMedia r hr hid
      rw [hq old hold hoid] at hqr
      cases hqr
    ownMedia := fun m' hmem hm' => absurd hm' (hgone m' hmem)
    ownRows := fun m' hmem hm' => absurd hm' (hgone m' hmem) }

theorem triple_dropStale :
    Triple (Holding D (LoopEffect env.rt m input now rules before))
      (dropStale env m (rules.map (·.1.id)) ((matching env.rt input rules).map (·.1.id)))
      (fun _ => Holding D (Settled env.rt m input now rules before))
      (fun _ s => D s.committed) := by
  have hcore : ∀ t t', core t' = core t → LoopEffect env.rt m input now rules before t →
      LoopEffect env.rt m input now rules before t' := fun _ _ heq h => h.of_core_eq heq
  refine Triple.when (fun _ => ?_) fun hnil s hs => ?_
  · refine triple_loaded ((quiet_triple (quiet_select _) hcore).bind fun _ => ?_)
    exact triple_edit fun t h => h.drop
  · have hrules : rules = [] := by simpa using hnil
    subst hrules
    exact hs.imp fun t h => h.settled

theorem triple_upsertTag (tag : String) :
    Triple (Holding D (Evaluated env.rt m input now rules before)) (upsertTag env m tag)
      (fun _ => Holding D (Evaluated env.rt m input now rules before))
      (fun _ s => D s.committed) := by
  have hcore : ∀ t t', core t' = core t → Evaluated env.rt m input now rules before t →
      Evaluated env.rt m input now rules before t' := fun _ _ heq h => h.of_core_eq heq
  refine triple_loaded ((quiet_triple (quiet_select _) hcore).bind fun _ => ?_)
  exact triple_edit fun t h => h.putTag tag

theorem triple_moveToTrash {P : Tables → Prop} :
    Triple (Holding D P) (moveToTrash env m) (fun _ => Holding D P) (fun _ s => D s.committed) := by
  refine triple_loaded ?_
  split
  · exact triple_pure _ fun _ hs => hs
  · refine Triple.bind (M := fun _ => Holding D P) (fun s hs => hs) fun present => ?_
    split
    · exact Triple.bind (M := fun _ => Holding D P) (fun s hs => hs) fun _ =>
        triple_pure _ fun _ hs => hs
    · exact triple_pure _ fun _ hs => hs

theorem triple_hardDeleteMedia (reason : String) :
    Triple (Holding D (Evaluated env.rt m input now rules before)) (hardDeleteMedia env m reason)
      (fun _ => Holding D (Evaluated env.rt m input now rules before))
      (fun _ s => D s.committed) := by
  have hcore : ∀ t t', core t' = core t → Evaluated env.rt m input now rules before t →
      Evaluated env.rt m input now rules before t' := fun _ _ heq h => h.of_core_eq heq
  refine triple_moveToTrash.bind fun moved => ?_
  cases moved with
  | error e => exact triple_pure _ fun _ hs => hs
  | ok dstPath =>
    refine Triple.bind (M := fun _ => Holding D (Evaluated env.rt m input now rules before)) ?_
      fun _ => triple_loaded ?_
    · refine Triple.attempt (H := fun _ => Holding D (Evaluated env.rt m input now rules before))
        ?_ fun _ => ?_
      · refine (triple_edit fun t h => h.addAudit _).bind fun _ => ?_
        exact triple_flush.consequence (fun _ hs => hs) (fun _ _ hs => hs.1) fun _ _ hs => hs
      · exact quiet_triple ((quiet_load _).bind fun _ => quiet_pure _) hcore
    refine (quiet_triple (quiet_emit _) hcore).bind fun _ => ?_
    exact triple_edit fun t h => h.deleteMedia env.foreignKeys

theorem triple_applyAggregate :
    Triple (Holding D (LoopEffect env.rt m input now rules before))
      (applyAggregate env m (rules.map (·.1.id)) (progressAfter env.rt input rules))
      (fun _ => Holding D (Evaluated env.rt m input now rules before))
      (fun _ s => D s.committed) := by
  refine triple_dropStale.bind fun _ => ?_
  refine (triple_edit fun t h => h.setSeverity).bind fun _ => ?_
  refine Triple.bind (M := fun _ => Holding D (Evaluated env.rt m input now rules before)) ?_
    fun _ => Triple.when (fun _ => triple_hardDeleteMedia _) fun _ _ hs => hs
  exact Triple.forEach (I := fun _ => Holding D (Evaluated env.rt m input now rules before)) _
    fun _ tag _ _ => triple_upsertTag tag

end Evaluation

/-! ### VirusTotal lookups -/

section Lookups

variable {env : Env} {D P : Tables → Prop}

/-- After the rollback the session is back at the committed tables and its loaded
    objects are expired. -/
def RolledBack (D : Tables → Prop) (s : Session Tables Outside) : Prop :=
  D s.committed ∧ D s.working ∧ s.expired = true

theorem RolledBack.holding {s : Session Tables Outside} (h : RolledBack D s) : Holding D P s :=
  ⟨h.1, fun hlive => Bool.noConfusion (hlive.2.symm.trans h.2.2)⟩

theorem triple_rollback :
    Triple (fun s : Session Tables Outside => D s.committed) (rollback : Service Unit)
      (fun _ => RolledBack D) (fun _ s => D s.committed) :=
  fun _ hs => ⟨hs, hs, rfl⟩

theorem triple_enqueueForVtLookup (mediaFileId : String) (hPD : ∀ t, P t → D t)
    (hP : ∀ t item, P t → P (t.putVtItem item)) (hD : ∀ t item, D t → D (t.putVtItem item)) :
    Triple (fun s => Holding D P s ∧ s.expired = false) (enqueueForVtLookup env mediaFileId)
      (fun _ => Holding D P) (fun _ s => D s.committed) := by
  refine Triple.bind (M := fun _ s => Holding D P s ∧ s.expired = false) (fun s hs => hs)
    fun now => ?_
  refine Triple.attempt (H := fun _ s => D s.committed) ?_ fun e => ?_
  · refine Triple.bind (M := fun _ s => Holding D P s ∧ s.expired = false) ?_ fun inserted => ?_
    · refine (triple_select_of _ (fun _ _ hs => hs) fun _ hs => hs.1.1).bind fun taken => ?_
      split
      · exact triple_pure _ fun _ hs => hs
      · refine Triple.bind (M := fun _ s => Holding D P s ∧ s.expired = false) ?_ fun _ =>
          triple_pure _ fun _ hs => hs
        exact fun s hs => ⟨⟨hs.1.1, fun hlive => hP s.working _ (hs.1.2 hlive)⟩, hs.2⟩
    · refine Triple.bind (M := fun _ => Holding D P) ?_ fun _ => triple_pure _ fun _ hs => hs
      refine triple_commit_of (fun _ _ hs => hs) (fun _ hs => hs.1.1) fun s hs hfailed => ?_
      exact ⟨hPD _ (hs.1.2 ⟨hfailed, hs.2⟩), hs.1.2⟩
  · refine triple_rollback.bind fun _ => ?_
    split
    · exact triple_pure _ fun _ hs => hs.holding
    · refine Triple.attempt (H := fun _ s => D s.committed) ?_ fun e' => ?_
      · refine Triple.bind (M := fun _ => RolledBack D) ?_ fun _ => ?_
        · refine (triple_select_of _ (fun _ _ hs => hs) fun _ hs => hs.1).bind fun taken => ?_
          split
          · exact fun s hs => hs.1
          · exact fun s hs => ⟨hs.1, hD s.working _ hs.2.1, hs.2.2⟩
        · refine (triple_commit_of (B := RolledBack D) (fun _ _ hs => hs) (fun _ hs => hs.1)
            fun s hs _ => ⟨hs.2.1, hs.2⟩).bind fun _ => ?_
          exact triple_pure _ fun _ hs => hs.holding
      · split
        · exact triple_rollback.bind fun _ => triple_pure _ fun _ hs => hs.holding
        · exact fun s hs => hs

theorem triple_applyLookups (m : MediaFile) (aggregate : EvaluationResult)
    (hPD : ∀ t, P t → D t) (hP : ∀ t t', core t' = core t → P t → P t')
    (hD : ∀ t t', core t' = core t → D t → D t') :
    Triple (Holding D P) (applyLookups env m aggregate)
      (fun _ s => Holding D P s ∧ s.failed = false) (fun _ s => D s.committed) := by
  refine Triple.bind (M := fun _ => Holding D P) (Triple.when (fun _ => ?_) fun _ _ hs => hs)
    fun _ => ?_
  · refine triple_load_bind (fun _ _ hs => hs.1) ?_
    refine (triple_enqueueForVtLookup _ hPD (fun t _ h => hP t _ rfl h)
      fun t _ h => hD t _ rfl h).bind fun _ => triple_pure _ fun _ hs => hs
  · refine (quiet_triple (quiet_when (quiet_triggerUpstreamSearches m _)) hP).bind fun _ => ?_
    exact triple_flush.consequence (fun _ hs => hs) (fun _ _ hs => hs) fun _ _ hs => hs.1

end Lookups

/-! ### One file -/

/-- A returning evaluation leaves a live session with the file evaluated; a raising
    one has committed nothing but fit tables. -/
theorem triple_evaluateFile {env : Env} {m : MediaFile} {rules : List (Rule × RuleDefinition)}
    {D : Tables → Prop} (before : Tables) (hnodup : (rules.map (·.1.id)).Nodup)
    (hD : ∀ t t', core t' = core t → D t → D t')
    (heval : ∀ now t, Evaluated env.rt m (inputOf before m) now rules before t → D t) :
    Triple (Holding D (· = before)) (evaluateFile env m rules true)
      (fun result s => (D s.committed ∧ s.Live ∧
        ∃ now, Evaluated env.rt m (inputOf before m) now rules before s.working) ∧
        result.matchedRuleIds = (matching env.rt (inputOf before m) rules).map (·.1.id))
      (fun _ s => D s.committed) := by
  have hcore : ∀ now t t', core t' = core t →
      Evaluated env.rt m (inputOf before m) now rules before t →
      Evaluated env.rt m (inputOf before m) now rules before t' := fun _ _ _ heq h => h.of_core_eq heq
  refine triple_load_bind (fun _ _ hs => hs.1) ?_
  refine (triple_select_live _).bind fun input => Triple.assuming fun hinput => ?_
  obtain ⟨t, ht, hinput⟩ := hinput
  subst ht hinput
  refine Triple.bind (M := fun _ => Holding D (· = t)) (fun s hs => hs.1) fun now => ?_
  refine (triple_loop rules hnodup).bind fun progress => Triple.assuming fun hprogress => ?_
  subst hprogress
  refine Triple.bind (M := fun _ s =>
    Holding D (Evaluated env.rt m (inputOf t m) now rules t) s ∧ s.failed = false) ?_ fun _ => ?_
  · exact triple_applyAggregate.bind fun _ => triple_applyLookups m _ (heval now) (hcore now) hD
  · refine triple_load_bind (fun _ _ hs => hs.1.1) (triple_pure _ fun s hs => ?_)
    have hlive : s.Live := ⟨hs.1.2, hs.2⟩
    exact ⟨⟨hs.1.1.1, hlive, now, hs.1.1.2 hlive⟩, rfl⟩

/-! ### A list of files -/

/-- The rule for `evaluateEach`: `I` speaks about the files still to come and has to
    survive the evaluation of the first of them. -/
theorem triple_evaluateEach {env : Env} {rules : List (Rule × RuleDefinition)}
    {D : Tables → Prop} {I : List MediaFile → Tables → Prop}
    (hnodup : (rules.map (·.1.id)).Nodup) (hD : ∀ t t', core t' = core t → D t → D t')
    (hstep : ∀ m rest now t t', I (m :: rest) t →
      Evaluated env.rt m (inputOf t m) now rules t t' → I rest t' ∧ D t')
    (files : List MediaFile) :
    Triple (Standing D (I files)) (evaluateEach env rules files) (fun _ => Standing D (I []))
      (fun _ s => D s.committed) := by
  induction files with
  | nil => exact fun s hs => hs
  | cons m rest ih =>
    refine Triple.bind (M := fun _ => Standing D (I rest)) ?_ fun _ =>
      ih.bind fun _ => triple_pure _ fun _ hs => hs
    intro s hs
    have hfile := triple_evaluateFile s.working hnodup hD
      (fun now t heval => (hstep m rest now _ t hs.2.2 heval).2) s ⟨hs.1, fun _ => rfl⟩
    refine hfile.imp ?_ fun _ herror => herror
    rintro outcome ⟨⟨hcommitted, hlive, now, heval⟩, -⟩
    exact ⟨hcommitted, hlive, (hstep m rest now _ _ hs.2.2 heval).1⟩

end RulesEffect
