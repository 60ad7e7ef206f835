/-
  Auditarr/RulesFrame.lean
  ========================
  **What a pass of the rules upholds.**

  A pass gives a media row a severity together with its rank, or deletes it, and leaves the
  libraries, profiles, integrations, scan runs and rules for extensions alone.  A property
  that these changes keep (`Kept`) holds after a pass if it did before, whether the pass
  returns or raises and whatever it has committed on the way.  The frame is stated for any
  relation of sessions that the single steps stay within (`Framed`).
-/
import Auditarr.RulesEffect

namespace RulesFrame

open Effects Transactions KeyedTable RuleSchema RuleEvaluator RuleAggregation Database RulesService

/-- The tables that a pass leaves alone. -/
def given (t : Tables) : Table Library.id × Table OptimizationProfile.name ×
    Table Integration.id × Table ScanRun.id × Table MediaExtensionRule.extension :=
  (t.libraries, t.profiles, t.integrations, t.scanRuns, t.extensionRules)

/-- A property of the media rows and of these tables. -/
structure ReadsOnly (D : Tables → Prop) : Prop where
  elsewhere : ∀ t t', t'.media = t.media → given t' = given t → D t → D t'

/-- What a pass cannot break. -/
structure Kept (D : Tables → Prop) : Prop extends ReadsOnly D where
  judge : ∀ t id severity, D t → D (t.setSeverity id severity (SEVERITY_LEVELS severity))
  delete : ∀ foreignKeys t id, D t → D (t.deleteMedia foreignKeys id)

/-- A property that survives every single change a pass makes to the tables. -/
structure Survives (D : Tables → Prop) : Prop where
  evaluation : ∀ t row, D t → D (t.putEvaluation row)
  stale : ∀ t id ruleIds matched, D t → D (t.dropEvaluations id ruleIds matched)
  tag : ∀ t tag, D t → D (t.putTag tag)
  item : ∀ t item, D t → D (t.putItem item)
  window : ∀ t window, D t → D (t.putWindow window)
  vtItem : ∀ t item, D t → D (t.putVtItem item)
  audit : ∀ t entry, D t → D (t.addAudit entry)
  track : ∀ t ruleId now count, D t → D (t.trackRule ruleId now count)
  judge : ∀ t id severity, D t → D (t.setSeverity id severity (SEVERITY_LEVELS severity))
  delete : ∀ foreignKeys t id, D t → D (t.deleteMedia foreignKeys id)

theorem Kept.survives {D : Tables → Prop} (hD : Kept D) : Survives D where
  evaluation t _ := hD.elsewhere t _ rfl rfl
  stale t _ _ _ := hD.elsewhere t _ rfl rfl
  tag t _ := hD.elsewhere t _ rfl rfl
  item t _ := hD.elsewhere t _ rfl rfl
  window t _ := hD.elsewhere t _ rfl rfl
  vtItem t _ := hD.elsewhere t _ rfl rfl
  audit t _ := hD.elsewhere t _ rfl rfl
  track t _ _ _ := hD.elsewhere t _ rfl rfl
  judge := hD.judge
  delete := hD.delete

/-- A call that upholds `D`. -/
def Sparing (D : Tables → Prop) {α : Type} (c : Service α) : Prop := Within (Upheld D) c

section Frames

variable {D : Tables → Prop} {env : Env} {α β ι : Type}

theorem Sparing.bind {c : Service α} {k : α → Service β} (hc : Sparing D c)
    (hk : ∀ a, Sparing D (k a)) : Sparing D (c >>= k) :=
  within_bind hc hk

theorem sparing_pure (a : α) : Sparing D (pure a : Service α) := within_pure a

theorem sparing_raise (e : ServiceError) : Sparing D (Call.raise e : Service α) := within_raise e

theorem sparing_read (f : Session Tables Outside → α) : Sparing D (Call.read f) := within_read f

theorem sparing_when {b : Bool} {c : Service Unit} (hc : Sparing D c) : Sparing D (Call.when b c) :=
  within_when fun _ => hc

theorem sparing_forEach {body : ι → Service Unit} (xs : List ι) (h : ∀ x, Sparing D (body x)) :
    Sparing D (Call.forEach body xs) :=
  within_forEach xs fun x _ => h x

theorem sparing_attempt {c : Service α} {handler : ServiceError → Service α} (hc : Sparing D c)
    (hh : ∀ e, Sparing D (handler e)) : Sparing D (Call.attempt c handler) :=
  within_attempt hc hh

theorem sparing_select (query : Tables → α) : Sparing D (select env.db query) := upheld_select query

theorem sparing_flush : Sparing D (flush env.db) := upheld_flush

theorem ReadsOnly.edit (hD : ReadsOnly D) {change : Tables → Tables}
    (h : ∀ t, (change t).media = t.media ∧ given (change t) = given t := by
      exact fun _ => ⟨rfl, rfl⟩) : Sparing D (edit change) :=
  upheld_edit fun t => hD.elsewhere t (change t) (h t).1 (h t).2

theorem sparing_load (a : α) : Sparing D (load env.db a) := upheld_load a

theorem sparing_outside (change : Outside → Outside) : Sparing D (outside change) :=
  upheld_outside change

theorem sparing_commit : Sparing D (commit env.db) := upheld_commit

theorem sparing_rollback : Sparing D (rollback : Service Unit) := upheld_rollback

theorem sparing_emit (event : Event) : Sparing D (emit event) := sparing_outside _

/-! ### The aggregate of the rules -/

/-- The label of the aggregate and its rank. -/
def Labelled (aggregate : EvaluationResult) : Prop :=
  aggregate.severityRank = SEVERITY_LEVELS (aggregate.severity.getD .ok)

theorem Labelled.mergeInto {result aggregate : EvaluationResult} (hresult : LabelMatchesRank result)
    (haggregate : Labelled aggregate) : Labelled (result.mergeInto aggregate) := by
  unfold Labelled EvaluationResult.mergeInto
  by_cases h : result.severity.isSome ∧ aggregate.severityRank < result.severityRank
  · simp only [h, and_self, if_true]
    obtain ⟨severity, hseverity⟩ := Option.isSome_iff_exists.mp h.1
    rw [LabelMatchesRank, hseverity] at hresult
    rw [hseverity]
    exact hresult
  · simp only [h, if_false]
    exact haggregate

/-! ### Relations between sessions -/

/-- A relation of sessions that single steps stay within, as long as they keep `D`. -/
structure Framed (D : Tables → Prop) (R : Session Tables Outside → Session Tables Outside → Prop) :
    Prop where
  contact : ∀ (env : Env) fatal, Within R (contact env.db fatal)
  load : ∀ (env : Env) {α : Type} (a : α), Within R (load env.db a)
  edit : ∀ change : Tables → Tables, (∀ t, D t → D (change t)) → Within R (edit change : Service Unit)
  outside : ∀ change : Outside → Outside, Within R (outside change : Service Unit)
  commit : ∀ env : Env, Within R (commit env.db)
  rollback : Within R (rollback : Service Unit)

theorem framed_upheld : Framed D (Upheld D) where
  contact _ fatal := upheld_contact fatal
  load _ _ a := upheld_load a
  edit _ h := upheld_edit h
  outside change := upheld_outside change
  commit _ := upheld_commit
  rollback := upheld_rollback

/-- A session that is live was so before, and if its tables met `D` then they do now. -/
def Carried (D : Tables → Prop) (s s' : Session Tables Outside) : Prop :=
  s'.Live → s.Live ∧ (D s.working → D s'.working)

instance : Std.Refl (Carried D) := ⟨fun _ hlive => ⟨hlive, id⟩⟩

instance : IsTrans (Session Tables Outside) (Carried D) where
  trans _ _ _ hab hbc hlive :=
    ⟨(hab (hbc hlive).1).1, fun h => (hbc hlive).2 ((hab (hbc hlive).1).2 h)⟩

theorem Carried.of_keeps {s s' : Session Tables Outside}
    (h : Keeps (fun t : Tables => t) (fun _ : Outside => ()) s s') : Carried D s s' := by
  intro hlive
  obtain ⟨hbefore, hsame⟩ := h.2.2 hlive
  refine ⟨hbefore, fun hd => ?_⟩
  rw [show s'.working = s.working from hsame]
  exact hd

theorem framed_carried : Framed D (Carried D) where
  contact _ fatal := (keeps_contact fatal).mono fun _ _ => Carried.of_keeps
  load _ _ a := (keeps_load a).mono fun _ _ => Carried.of_keeps
  edit _ h _ hlive := ⟨hlive, h _⟩
  outside _ _ hlive := ⟨hlive, id⟩
  commit _ := within_bind ((keeps_contact true).mono fun _ _ => Carried.of_keeps) fun _ _ hlive =>
    ⟨hlive, id⟩
  rollback _ hlive := Bool.noConfusion hlive.2

section Relation

variable {R : Session Tables Outside → Session Tables Outside → Prop} (hR : Framed D R)

include hR

theorem Framed.flush : Within R (flush env.db) := hR.contact env true

theorem Framed.emit (event : Event) : Within R (emit event) := hR.outside _

variable [Std.Refl R] [IsTrans (Session Tables Outside) R]

theorem Framed.select (query : Tables → α) : Within R (select env.db query) :=
  within_bind (hR.contact env false) fun _ => within_read _

theorem Framed.enqueueForVtLookup (hput : ∀ t item, D t → D (t.putVtItem item))
    (mediaFileId : String) : Within R (enqueueForVtLookup env mediaFileId) := by
  refine within_bind (within_read _) fun now => within_attempt ?_ fun e => ?_
  · refine within_bind ?_ fun _ => within_bind (hR.commit env) fun _ => within_pure _
    refine within_bind (hR.select _) fun taken => ?_
    split
    · exact within_pure _
    · exact within_bind (hR.edit _ fun t => hput t _) fun _ => within_pure _
  · refine within_bind hR.rollback fun _ => ?_
    split
    · exact within_pure _
    · refine within_attempt ?_ fun e' => ?_
      · refine within_bind ?_ fun _ => within_bind (hR.commit env) fun _ => within_pure _
        refine within_bind (hR.select _) fun taken => ?_
        split
        · exact within_raise _
        · exact hR.edit _ fun t => hput t _
      · split
        · exact within_bind hR.rollback fun _ => within_pure _
        · exact within_raise _

theorem Framed.moveToTrash (m : MediaFile) : Within R (moveToTrash env m) := by
  refine within_bind (hR.load env _) fun _ => ?_
  split
  · exact within_pure _
  · refine within_bind (within_read _) fun present => ?_
    split
    · exact within_bind (hR.outside _) fun _ => within_pure _
    · exact within_pure _

end Relation

theorem ReadsOnly.enqueueForVtLookup (hD : ReadsOnly D) (mediaFileId : String) :
    Sparing D (enqueueForVtLookup env mediaFileId) :=
  framed_upheld.enqueueForVtLookup (fun t _ => hD.elsewhere t _ rfl rfl) mediaFileId

/-! ### The parts of an evaluation -/

section Parts

variable {R : Session Tables Outside → Session Tables Outside → Prop} [Std.Refl R]
  [IsTrans (Session Tables Outside) R] (hD : Survives D) (hR : Framed D R)

include hD hR

omit [Std.Refl R] in
theorem Survives.recordAudit (entry : AuditLogEntry) : Within R (recordAudit env entry) :=
  within_bind (hR.edit _ fun t => hD.audit t _) fun _ => hR.flush

theorem Survives.upsertQueued (mediaFileId profile ruleId : String) (queuedAt : Nat) :
    Within R (upsertQueued env mediaFileId profile ruleId queuedAt) := by
  refine within_bind (hR.select _) fun existing => ?_
  cases existing with
  | none =>
    exact within_bind (within_read _) fun _ =>
      within_bind (hR.edit _ fun t => hD.item t _) fun _ => hR.flush
  | some item =>
    by_cases hqueued : item.status = .queued
    · simp only [hqueued, if_true]
      exact within_bind (hR.edit _ fun t => hD.item t _) fun _ => hR.flush
    · simp only [hqueued, if_false]
      exact within_pure _

theorem Survives.queueOptimization (m : MediaFile) (rule : Rule) (tags : List String) (now : Nat)
    (profileName : String) : Within R (queueOptimization env m rule tags now profileName) := by
  refine within_bind (hR.select _) fun profile => within_when fun _ => ?_
  exact within_bind (hR.load env _) fun _ => within_bind (hR.load env _) fun _ =>
    hD.upsertQueued hR _ _ _ _

theorem Survives.throttleGate (ruleId ruleName : String) (throttle : NotifyThrottle) (now : Nat) :
    Within R (throttleGate env ruleId ruleName throttle now) := by
  refine within_bind (hR.select _) fun existing => ?_
  cases existing with
  | none =>
    exact within_bind (hR.edit _ fun t => hD.window t _) fun _ =>
      within_bind hR.flush fun _ => within_pure _
  | some row =>
    by_cases hunder : row.count < throttle.maxPerWindow
    · simp only [hunder, if_true]
      exact within_bind (hR.edit _ fun t => hD.window t _) fun _ =>
        within_bind hR.flush fun _ => within_pure _
    · simp only [hunder, if_false]
      refine within_bind (hR.emit _) fun _ =>
        within_bind (hR.edit _ fun t => hD.window t _) fun _ => within_bind hR.flush fun _ =>
          within_bind (within_when fun _ => ?_) fun _ => within_pure _
      exact within_attempt (hD.recordAudit hR _) fun _ => within_pure _

theorem Survives.notify (m : MediaFile) (rule : Rule) (definition : RuleDefinition)
    (severity : Severity) (now : Nat) (notification : Notification) :
    Within R (notify env m rule definition severity now notification) := by
  refine within_bind (hR.load env _) fun ruleId => within_bind ?_ fun allow =>
    within_when fun _ => ?_
  · cases notification.throttle with
    | none => exact within_pure _
    | some throttle => exact hD.throttleGate hR _ _ _ _
  · refine within_attempt (within_bind (hR.load env _) fun _ => ?_)
      fun _ => within_bind (hR.load env _) fun _ => within_pure _
    exact within_bind (hR.select _) fun _ => within_bind (hR.outside _) fun _ => hR.flush

theorem Survives.persistMatch (m : MediaFile) (input : EvaluationInput) (now : Nat) (rule : Rule)
    (definition : RuleDefinition) (result aggregate : EvaluationResult) :
    Within R (persistMatch env m input now rule definition result aggregate) := by
  refine within_bind (hR.load env _) fun _ => within_bind ?_ fun _ => ?_
  · exact within_bind (hR.select _) fun _ =>
      within_bind (hR.edit _ fun t => hD.evaluation t _) fun _ => hR.flush
  · refine within_bind (within_forEach _ fun name _ => hD.queueOptimization hR _ _ _ _ _) fun _ => ?_
    exact within_when fun _ => within_forEach _ fun _ _ => hD.notify hR _ _ _ _ _ _

theorem Survives.evaluateOne (m : MediaFile) (input : EvaluationInput) (now : Nat) (persist : Bool)
    (progress : Progress) (hprogress : Labelled progress.aggregate)
    (entry : Rule × RuleDefinition) (start : Session Tables Outside) :
    Triple (R start) (RulesService.evaluateOne env m input now persist progress entry)
      (fun next s => Labelled next.aggregate ∧ R start s) (fun _ => R start) := by
  unfold RulesService.evaluateOne
  cases hev : evaluate env.rt entry.2 input with
  | error e =>
    simp only [hev]
    exact fun _ hs => hs
  | ok result =>
    simp only [hev]
    have hlabel : LabelMatchesRank result := by
      rw [evaluate_eq_outcome hev]
      exact LabelMatchesRank.outcome env.rt entry.2 input
    cases result.matched with
    | false => exact triple_pure _ fun _ hs => ⟨hprogress, hs⟩
    | true =>
      refine (triple_within (hR.load env _) start).bind fun ruleId => ?_
      refine (triple_within (within_when fun _ => hD.persistMatch hR _ _ _ _ _ _ _) start).bind
        fun _ => ?_
      exact triple_pure _ fun _ hs => ⟨hprogress.mergeInto hlabel, hs⟩

theorem Survives.hardDeleteMedia (m : MediaFile) (reason : String) :
    Within R (hardDeleteMedia env m reason) := by
  refine within_bind (hR.moveToTrash m) fun moved => ?_
  cases moved with
  | error _ => exact within_pure _
  | ok dstPath =>
    refine within_bind (within_attempt (hD.recordAudit hR _) fun _ =>
      within_bind (hR.load env _) fun _ => within_pure _) fun _ => ?_
    exact within_bind (hR.load env _) fun _ => within_bind (hR.emit _) fun _ =>
      hR.edit _ fun t => hD.delete env.foreignKeys t _

theorem Survives.applyAggregate (m : MediaFile) (ruleIds : List String) (progress : Progress)
    (hprogress : Labelled progress.aggregate) :
    Within R (applyAggregate env m ruleIds progress) := by
  refine within_bind (within_when fun _ => ?_) fun _ => within_bind ?_ fun _ =>
    within_bind (within_forEach _ fun tag _ => ?_) fun _ =>
      within_when fun _ => hD.hardDeleteMedia hR _ _
  · exact within_bind (hR.load env _) fun _ => within_bind (hR.select _) fun _ =>
      hR.edit _ fun t => hD.stale t _ _ _
  · rw [hprogress]
    exact hR.edit _ fun t => hD.judge t _ _
  · exact within_bind (hR.load env _) fun _ => within_bind (hR.select _) fun _ =>
      hR.edit _ fun t => hD.tag t _

theorem Survives.emitSearchUpstreamAudit (m : MediaFile) (integrationId target : String)
    (result : SearchTriggerResult) :
    Within R (emitSearchUpstreamAudit env m integrationId target result) :=
  within_bind (hR.load env _) fun _ => within_bind (within_attempt (hD.recordAudit hR _) fun _ =>
    within_bind (hR.load env _) fun _ => within_pure _) fun _ => hR.emit _

theorem Survives.triggerUpstreamSearch (m : MediaFile) (request : SearchRequest) :
    Within R (triggerUpstreamSearch env m request) := by
  refine within_bind (hR.select _) fun found => ?_
  cases found with
  | none => exact hD.emitSearchUpstreamAudit hR _ _ _ _
  | some integration =>
    simp only []
    split
    · exact hD.emitSearchUpstreamAudit hR _ _ _ _
    split
    · exact within_pure _
    cases resolveSearch env (targetKind request.target) integration with
    | error result => exact hD.emitSearchUpstreamAudit hR _ _ _ _
    | ok trigger =>
      simp only []
      split
      · exact within_raise _
      · exact within_bind (hR.load env _) fun _ => within_bind (hR.outside _) fun _ =>
          hD.emitSearchUpstreamAudit hR _ _ _ _

theorem Survives.applyLookups (m : MediaFile) (aggregate : EvaluationResult) :
    Within R (applyLookups env m aggregate) := by
  refine within_bind (within_when fun _ => ?_) fun _ =>
    within_bind (within_when fun _ => within_forEach _ fun _ _ => ?_) fun _ => hR.flush
  · exact within_bind (hR.load env _) fun _ =>
      within_bind (hR.enqueueForVtLookup hD.vtItem _) fun _ => within_pure _
  · exact hD.triggerUpstreamSearch hR m _

/-! ### A pass -/

theorem Survives.evaluateFile (m : MediaFile) (rules : List (Rule × RuleDefinition))
    (persist : Bool) : Within R (evaluateFile env m rules persist) := by
  refine within_bind (hR.load env _) fun _ => within_bind (hR.select _) fun input =>
    within_bind (within_read _) fun now => ?_
  intro start
  have hloop : Triple (R start)
      (Call.foldEach (RulesService.evaluateOne env m input now persist) ⟨aggregateStart, []⟩ rules)
      (fun progress s => Labelled progress.aggregate ∧ R start s) (fun _ => R start) := by
    have hstart : Labelled (⟨aggregateStart, []⟩ : Progress).aggregate := rfl
    intro s hs
    exact Triple.foldEach (I := fun _ (progress : Progress) s => Labelled progress.aggregate ∧
      R start s) ⟨aggregateStart, []⟩ rules (fun done entry rest acc _ =>
        Triple.assuming fun hacc => hD.evaluateOne hR m input now persist acc hacc entry start) s
          ⟨hstart, hs⟩
  refine Ends.of_const ((hloop.bind fun progress => Triple.assuming fun hprogress =>
    triple_within (within_bind (within_when fun _ => ?_) fun _ =>
      within_bind (hR.load env m.id) fun _ => within_pure _) start) start (Std.Refl.refl start))
  exact within_bind (hD.applyAggregate hR m _ progress hprogress) fun _ => hD.applyLookups hR m _

theorem Survives.evaluateEach (rules : List (Rule × RuleDefinition)) (files : List MediaFile) :
    Within R (evaluateEach env rules files) := by
  induction files with
  | nil => exact within_pure _
  | cons m rest ih =>
    exact within_bind (hD.evaluateFile hR m rules true) fun _ => within_bind ih fun _ =>
      within_pure _

theorem Survives.evaluateFiles (files : List MediaFile) : Within R (evaluateFiles env files) :=
  within_bind (hR.select _) fun rules => hD.evaluateEach hR rules files

theorem Survives.evaluateLibrary (libraryId : String) (tagsAny : List String) :
    Within R (evaluateLibrary env libraryId tagsAny) := by
  refine within_bind (hR.select _) fun files => within_bind (hD.evaluateFiles hR files) fun _ => ?_
  refine within_bind (hR.select _) fun rules => within_bind (within_read _) fun now =>
    within_bind (within_forEach _ fun rule _ => ?_) fun _ => within_pure _
  exact within_bind (hR.select _) fun _ => hR.edit _ fun t => hD.track t _ _ _

theorem Survives.evaluateRule (ruleId : String) : Within R (evaluateRule env ruleId) := by
  refine within_bind (hR.select _) fun found => ?_
  cases found with
  | none => exact within_raise _
  | some rule =>
    simp only []
    split
    · exact within_raise _
    · cases rule.definition with
      | none => exact within_raise _
      | some definition =>
        refine within_bind (hR.select _) fun libraries => within_bind (within_read _) fun now =>
          within_bind ?_ fun _ => within_bind (hR.edit _ fun t => hD.track t _ _ _) fun _ =>
            within_bind hR.flush fun _ => within_pure _
        exact within_foldEach libraries (fun acc library _ => within_bind (hR.select _) fun files =>
          within_bind (hD.evaluateEach hR _ files) fun _ => within_pure _) _

end Parts

section Kept

variable (hD : Kept D)

include hD

theorem Kept.evaluateFile (m : MediaFile) (rules : List (Rule × RuleDefinition))
    (persist : Bool) : Sparing D (RulesService.evaluateFile env m rules persist) :=
  hD.survives.evaluateFile framed_upheld m rules persist

theorem Kept.evaluateFiles (files : List MediaFile) :
    Sparing D (RulesService.evaluateFiles env files) :=
  hD.survives.evaluateFiles framed_upheld files

theorem Kept.evaluateLibrary (libraryId : String) (tagsAny : List String) :
    Sparing D (RulesService.evaluateLibrary env libraryId tagsAny) :=
  hD.survives.evaluateLibrary framed_upheld libraryId tagsAny

theorem Kept.evaluateRule (ruleId : String) : Sparing D (RulesService.evaluateRule env ruleId) :=
  hD.survives.evaluateRule framed_upheld ruleId

end Kept

end Frames

end RulesFrame
