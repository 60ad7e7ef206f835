/-
  Auditarr/RulesTotality.lean
  ===========================
  **When a pass is aborted by one of its rules.**

  The only exception of the evaluator that leaves `evaluateFile` is the one of the
  comparison that cannot be made.  Everything else a pass does is `Benign`: it
  never raises an evaluator error, and where no round trip fails and every stored
  secret can be decrypted it does not raise at all.
-/
import Auditarr.RulesEffect

namespace RulesTotality

open Effects Transactions KeyedTable PyValues RuleSchema RuleEvaluator RuleAggregation
open Database RulesService RulesEffect

/-- Nothing the environment decides goes wrong. -/
def Clean (env : Env) : Prop := (∀ n, env.faultAt n = none) ∧ ∀ id, env.decrypts id = true

def NotEvaluator (e : ServiceError) : Prop := ∀ p, e ≠ .evaluator p

section Benign

variable {env : Env} {α β ι : Type}

/-- A call that, whatever fails, raises no evaluator error, and that returns in a
    live session of a clean environment. -/
def Benign (env : Env) (c : Service α) : Prop :=
  Triple (fun s => Clean env → s.Live) c (fun _ s => Clean env → s.Live)
    (fun e _ => NotEvaluator e ∧ ¬ Clean env)

theorem Benign.bind {c : Service α} {k : α → Service β} (hc : Benign env c)
    (hk : ∀ a, Benign env (k a)) : Benign env (c >>= k) :=
  Triple.bind hc hk

theorem benign_pure (a : α) : Benign env (pure a) := triple_pure a fun _ hs => hs

theorem benign_read (f : Session Tables Outside → α) : Benign env (Call.read f) := fun _ hs => hs

theorem benign_when {b : Bool} {c : Service Unit} (hc : Benign env c) :
    Benign env (Call.when b c) :=
  Triple.when (fun _ => hc) fun _ _ hs => hs

theorem benign_forEach {body : ι → Service Unit} (xs : List ι) (h : ∀ x, Benign env (body x)) :
    Benign env (Call.forEach body xs) :=
  Triple.forEach (I := fun (_ : List ι) (s : Session Tables Outside) => Clean env → s.Live) xs
    fun _ x _ _ => h x

theorem benign_attempt {c : Service α} {handler : ServiceError → Service α} (hc : Benign env c)
    (hh : ∀ e, ¬ Clean env → NotEvaluator e → Benign env (handler e)) :
    Benign env (Call.attempt c handler) := by
  refine Triple.attempt hc fun e => Triple.consequence
    (P := fun s => (NotEvaluator e ∧ ¬ Clean env) ∧ (Clean env → s.Live)) ?_
    (fun s hs => ⟨hs, fun hclean => absurd hclean hs.2⟩) (fun _ _ hs => hs) (fun _ _ hs => hs)
  exact Triple.assuming fun hraised => hh e hraised.2 hraised.1

theorem benign_raise {e : ServiceError} (he : NotEvaluator e) (hdirty : ¬ Clean env) :
    Benign env (Call.raise e : Service α) :=
  fun _ _ => ⟨he, hdirty⟩

theorem contact_run (env : Env) (fatal : Bool) (s : Session Tables Outside) :
    (contact env.db fatal s = (.ok (), { s with calls := s.calls + 1 })) ∨
      ∃ e s', contact env.db fatal s = (.error e, s') ∧ NotEvaluator e ∧
        (s.failed = true ∨ ¬ Clean env) := by
  unfold contact
  cases hfailed : s.failed with
  | true => exact .inr ⟨_, _, rfl, fun _ => by simp [Env.db], .inl rfl⟩
  | false =>
    cases hfault : env.faultAt s.calls with
    | none => exact .inl (by simp [Env.db, hfault])
    | some fault =>
      refine .inr ⟨.database fault.error, _, by simp [Env.db, hfault]; rfl, fun _ => by simp, .inr ?_⟩
      exact fun hclean => by rw [hclean.1] at hfault; cases hfault

theorem benign_contact (fatal : Bool) : Benign env (contact env.db fatal) := by
  intro s hs
  rcases contact_run env fatal s with h | ⟨e, s', h, he, hwhy⟩
  · rw [h]; exact hs
  · rw [h]
    refine ⟨he, fun hclean => ?_⟩
    rcases hwhy with hfailed | hdirty
    · rw [(hs hclean).1] at hfailed; cases hfailed
    · exact hdirty hclean

theorem benign_select (query : Tables → α) : Benign env (select env.db query) :=
  (benign_contact false).bind fun _ => benign_read _

theorem benign_flush : Benign env (flush env.db) := benign_contact true

theorem benign_edit (change : Tables → Tables) : Benign env (edit change) := fun _ hs => hs

theorem benign_commit : Benign env (commit env.db) :=
  (benign_contact true).bind fun _ => fun _ hs => hs

theorem benign_outside (change : Outside → Outside) : Benign env (outside change) := fun _ hs => hs

theorem benign_rollback (hdirty : ¬ Clean env) : Benign env (rollback : Service Unit) :=
  fun _ _ hclean => absurd hclean hdirty

theorem benign_load (a : α) : Benign env (load env.db a) := by
  intro s hs
  unfold load
  cases hexpired : s.expired with
  | true =>
    refine ⟨fun _ => by simp [Env.db], fun hclean => ?_⟩
    rw [(hs hclean).2] at hexpired; cases hexpired
  | false => exact hs

/-! ### The parts of an evaluation -/

theorem benign_emit (event : Event) : Benign env (emit event) := benign_outside _

theorem benign_utcnow : Benign env (utcnow env) := benign_read _

theorem benign_recordAudit (entry : AuditLogEntry) : Benign env (recordAudit env entry) :=
  (benign_edit _).bind fun _ => benign_flush

theorem benign_upsertEvaluation (row : RuleEvaluation) : Benign env (upsertEvaluation env row) :=
  (benign_select _).bind fun _ => (benign_edit _).bind fun _ => benign_flush

theorem benign_upsertQueued (mediaFileId profile ruleId : String) (queuedAt : Nat) :
    Benign env (upsertQueued env mediaFileId profile ruleId queuedAt) := by
  refine (benign_select _).bind fun existing => ?_
  cases existing with
  | none => exact (benign_read _).bind fun _ => (benign_edit _).bind fun _ => benign_flush
  | some item =>
    by_cases hqueued : item.status = .queued
    · simp only [hqueued, if_true]
      exact (benign_edit _).bind fun _ => benign_flush
    · simp only [hqueued, if_false]
      exact benign_pure _

theorem benign_queueOptimization (m : MediaFile) (rule : Rule) (tags : List String) (now : Nat)
    (profileName : String) : Benign env (queueOptimization env m rule tags now profileName) := by
  refine (benign_select _).bind fun profile => benign_when ?_
  exact (benign_load _).bind fun _ => (benign_load _).bind fun _ => benign_upsertQueued _ _ _ _

theorem benign_throttleAllows (ruleId ruleName : String) (now : Nat)
    (throttle : Option NotifyThrottle) :
    Benign env (throttleAllows env ruleId ruleName now throttle) := by
  cases throttle with
  | none => exact benign_pure _
  | some throttle =>
    refine (benign_select _).bind fun existing => ?_
    cases existing with
    | none => exact (benign_edit _).bind fun _ => benign_flush.bind fun _ => benign_pure _
    | some row =>
      by_cases hunder : row.count < throttle.maxPerWindow
      · simp only [hunder, if_true]
        exact (benign_edit _).bind fun _ => benign_flush.bind fun _ => benign_pure _
      · simp only [hunder, if_false]
        refine (benign_emit _).bind fun _ => (benign_edit _).bind fun _ =>
          benign_flush.bind fun _ => Benign.bind (benign_when ?_) fun _ => benign_pure _
        exact benign_attempt (benign_recordAudit _) fun _ _ _ => benign_pure _

theorem benign_notify (m : MediaFile) (rule : Rule) (definition : RuleDefinition)
    (severity : Severity) (now : Nat) (notification : Notification) :
    Benign env (notify env m rule definition severity now notification) := by
  refine (benign_load _).bind fun ruleId => (benign_throttleAllows _ _ _ _).bind fun allow =>
    benign_when ?_
  refine benign_attempt ((benign_load _).bind fun _ => ?_)
    fun _ _ _ => (benign_load _).bind fun _ => benign_pure _
  exact (benign_select _).bind fun _ => (benign_outside _).bind fun _ => benign_flush

theorem benign_persistMatch (m : MediaFile) (input : EvaluationInput) (now : Nat) (rule : Rule)
    (definition : RuleDefinition) (result aggregate : EvaluationResult) :
    Benign env (persistMatch env m input now rule definition result aggregate) := by
  refine (benign_load _).bind fun _ => (benign_upsertEvaluation _).bind fun _ => ?_
  refine (benign_forEach _ fun name => benign_queueOptimization _ _ _ _ _).bind fun _ => ?_
  exact benign_when (benign_forEach _ fun _ => benign_notify _ _ _ _ _ _)

theorem benign_dropStale (m : MediaFile) (ruleIds matched : List String) :
    Benign env (dropStale env m ruleIds matched) :=
  benign_when ((benign_load _).bind fun _ => (benign_select _).bind fun _ => benign_edit _)

theorem benign_moveToTrash (m : MediaFile) : Benign env (moveToTrash env m) := by
  refine (benign_load _).bind fun _ => ?_
  split
  · exact benign_pure _
  · refine (benign_read _).bind fun present => ?_
    split
    · exact (benign_outside _).bind fun _ => benign_pure _
    · exact benign_pure _

theorem benign_hardDeleteMedia (m : MediaFile) (reason : String) :
    Benign env (hardDeleteMedia env m reason) := by
  refine (benign_moveToTrash m).bind fun moved => ?_
  cases moved with
  | error _ => exact benign_pure _
  | ok dstPath =>
    refine (benign_attempt (benign_recordAudit _) fun _ _ _ =>
      (benign_load _).bind fun _ => benign_pure _).bind fun _ => ?_
    exact (benign_load _).bind fun _ => (benign_emit _).bind fun _ => benign_edit _

theorem benign_applyAggregate (m : MediaFile) (ruleIds : List String) (progress : Progress) :
    Benign env (applyAggregate env m ruleIds progress) := by
  refine (benign_dropStale _ _ _).bind fun _ => (benign_edit _).bind fun _ => Benign.bind ?_
    fun _ => benign_when (benign_hardDeleteMedia _ _)
  exact benign_forEach _ fun _ => (benign_load _).bind fun _ => (benign_select _).bind fun _ =>
    benign_edit _

theorem benign_enqueueForVtLookup (mediaFileId : String) :
    Benign env (enqueueForVtLookup env mediaFileId) := by
  refine benign_utcnow.bind fun now => benign_attempt ?_ fun e hdirty _ => ?_
  · refine Benign.bind ?_ fun _ => benign_commit.bind fun _ => benign_pure _
    refine (benign_select _).bind fun taken => ?_
    split
    · exact benign_pure _
    · exact (benign_edit _).bind fun _ => benign_pure _
  · refine (benign_rollback hdirty).bind fun _ => ?_
    split
    · exact benign_pure _
    · refine benign_attempt ?_ fun e' hdirty' he' => ?_
      · refine Benign.bind ?_ fun _ => benign_commit.bind fun _ => benign_pure _
        refine (benign_select _).bind fun taken => ?_
        split
        · exact benign_raise (fun _ => by simp) hdirty
        · exact benign_edit _
      · split
        · exact (benign_rollback hdirty').bind fun _ => benign_pure _
        · exact benign_raise he' hdirty'

theorem benign_emitSearchUpstreamAudit (m : MediaFile) (integrationId target : String)
    (result : SearchTriggerResult) :
    Benign env (emitSearchUpstreamAudit env m integrationId target result) :=
  (benign_load _).bind fun _ =>
    (benign_attempt (benign_recordAudit _) fun _ _ _ =>
      (benign_load _).bind fun _ => benign_pure _).bind fun _ => benign_emit _

theorem benign_triggerUpstreamSearch (m : MediaFile) (request : SearchRequest) :
    Benign env (triggerUpstreamSearch env m request) := by
  refine (benign_select _).bind fun found => ?_
  cases found with
  | none => exact benign_emitSearchUpstreamAudit _ _ _ _
  | some integration =>
    simp only []
    split
    · exact benign_emitSearchUpstreamAudit _ _ _ _
    split
    · exact benign_pure _
    cases resolveSearch env (targetKind request.target) integration with
    | error result => exact benign_emitSearchUpstreamAudit _ _ _ _
    | ok trigger =>
      simp only []
      split
      · rename_i hdecrypts
        refine benign_raise (fun _ => by simp) fun hclean => ?_
        rw [hclean.2] at hdecrypts; cases hdecrypts
      · exact (benign_load _).bind fun _ => (benign_outside _).bind fun _ =>
          benign_emitSearchUpstreamAudit _ _ _ _

theorem benign_applyLookups (m : MediaFile) (aggregate : EvaluationResult) :
    Benign env (applyLookups env m aggregate) := by
  refine (benign_when ((benign_load _).bind fun _ =>
    (benign_enqueueForVtLookup _).bind fun _ => benign_pure _)).bind fun _ => ?_
  exact (benign_when (benign_forEach _ fun _ => benign_triggerUpstreamSearch m _)).bind fun _ =>
    benign_flush

end Benign

/-! ### The rules of a pass -/

section Files

variable {env : Env}

theorem benign_evaluateOne {m : MediaFile} {input : EvaluationInput} (now : Nat) (persist : Bool)
    (progress : Progress) {entry : Rule × RuleDefinition}
    (hentry : evaluable env.rt input entry.2.match_ = true) :
    Benign env (evaluateOne env m input now persist progress entry) := by
  unfold evaluateOne
  simp only [evaluate_of_evaluable hentry]
  split
  · exact (benign_load _).bind fun _ =>
      (benign_when (benign_persistMatch _ _ _ _ _ _ _)).bind fun _ => benign_pure _
  · exact benign_pure _

theorem benign_loop {m : MediaFile} {input : EvaluationInput} (now : Nat) (persist : Bool)
    (progress : Progress) (rules : List (Rule × RuleDefinition))
    (hrules : ∀ entry ∈ rules, evaluable env.rt input entry.2.match_ = true) :
    Benign env (Call.foldEach (evaluateOne env m input now persist) progress rules) := by
  induction rules generalizing progress with
  | nil => exact benign_pure progress
  | cons entry rest ih =>
    refine (benign_evaluateOne now persist progress (hrules entry (by simp))).bind fun _ => ?_
    exact ih _ fun e he => hrules e (by simp [he])

theorem triple_buildInput (m : MediaFile) (t : Tables) :
    Triple (fun s => s.working = t ∧ (Clean env → s.Live)) (buildInput env m)
      (fun input s => input = inputOf t m ∧ (Clean env → s.Live))
      (fun e _ => NotEvaluator e ∧ ¬ Clean env) := by
  intro s hs
  have hbenign := (benign_contact false : Benign env _) s hs.2
  unfold buildInput select
  rcases contact_run env false s with h | ⟨e, s', h, -⟩
  · rw [Call.andThen_eq_bind, Call.run_bind_ok h]
    rw [h] at hbenign
    exact ⟨by rw [← hs.1], hbenign⟩
  · rw [Call.andThen_eq_bind, Call.run_bind_error h]
    rw [h] at hbenign
    exact hbenign

theorem triple_evaluateFile_benign {m : MediaFile} {rules : List (Rule × RuleDefinition)}
    {t : Tables} (persist : Bool)
    (hrules : ∀ entry ∈ rules, evaluable env.rt (inputOf t m) entry.2.match_ = true) :
    Triple (fun s => s.working = t ∧ (Clean env → s.Live)) (evaluateFile env m rules persist)
      (fun _ s => Clean env → s.Live) (fun e _ => NotEvaluator e ∧ ¬ Clean env) := by
  refine Triple.bind (M := fun _ s => s.working = t ∧ (Clean env → s.Live)) ?_ fun _ => ?_
  · intro s hs
    have hload := (benign_load m.id : Benign env _) s hs.2
    unfold load at hload ⊢
    cases hexpired : s.expired with
    | true => rw [hexpired] at hload; exact hload
    | false => rw [hexpired] at hload; exact ⟨hs.1, hload⟩
  · refine (triple_buildInput m t).bind fun input => Triple.assuming fun hinput => ?_
    subst hinput
    refine benign_utcnow.bind fun now => (benign_loop now persist _ rules hrules).bind fun progress => ?_
    refine Benign.bind (benign_when ?_) fun _ => (benign_load _).bind fun _ => benign_pure _
    exact (benign_applyAggregate _ _ _).bind fun _ => benign_applyLookups _ _

theorem loop_raises {m : MediaFile} {input : EvaluationInput} (hclean : Clean env) (now : Nat)
    (persist : Bool) (rules : List (Rule × RuleDefinition))
    (hbad : ∃ entry ∈ rules, evaluable env.rt input entry.2.match_ = false) (progress : Progress)
    {s : Session Tables Outside} (hlive : s.Live) :
    ∃ p s', Call.foldEach (evaluateOne env m input now persist) progress rules s =
      (.error (.evaluator p), s') ∧ s'.Live := by
  induction rules generalizing progress s with
  | nil => obtain ⟨entry, hentry, -⟩ := hbad; cases hentry
  | cons entry rest ih =>
    cases hentry : evaluable env.rt input entry.2.match_ with
    | false =>
      obtain ⟨p, hp⟩ := evaluate_raises hentry
      have hraise : evaluateOne env m input now persist progress entry s =
          (.error (.evaluator p), s) := by
        unfold evaluateOne
        simp only [hp]
        rfl
      exact ⟨p, s, by rw [Call.foldEach, Call.andThen_eq_bind, Call.run_bind_error hraise], hlive⟩
    | true =>
      have hhead := benign_evaluateOne (m := m) now persist progress hentry s fun _ => hlive
      rcases hrun : evaluateOne env m input now persist progress entry s with ⟨e | progress', s'⟩
      · rw [hrun] at hhead; exact absurd hclean hhead.2
      · rw [hrun] at hhead
        rw [Call.foldEach, Call.andThen_eq_bind, Call.run_bind_ok hrun]
        refine ih ?_ progress' (hhead hclean)
        obtain ⟨bad, hbad, hfalse⟩ := hbad
        rcases List.mem_cons.mp hbad with rfl | hrest
        · rw [hentry] at hfalse; cases hfalse
        · exact ⟨bad, hrest, hfalse⟩

theorem contact_clean (hclean : Clean env) (fatal : Bool) {s : Session Tables Outside}
    (hlive : s.Live) : contact env.db fatal s = (.ok (), { s with calls := s.calls + 1 }) := by
  rcases contact_run env fatal s with h | ⟨e, s', -, -, hwhy⟩
  · exact h
  · rcases hwhy with hfailed | hdirty
    · rw [hlive.1] at hfailed; cases hfailed
    · exact absurd hclean hdirty

theorem select_clean {α : Type} (hclean : Clean env) (query : Tables → α)
    {s : Session Tables Outside} (hlive : s.Live) :
    select env.db query s = (.ok (query s.working), { s with calls := s.calls + 1 }) := by
  unfold select
  rw [Call.andThen_eq_bind, Call.run_bind_ok (contact_clean hclean false hlive)]
  rfl

theorem load_live {α : Type} (a : α) {s : Session Tables Outside} (hlive : s.Live) :
    load env.db a s = (.ok a, s) := by
  unfold load
  rw [hlive.2]; rfl

theorem run_utcnow (env : Env) (s : Session Tables Outside) :
    utcnow env s = (.ok (env.clock s.calls), s) := rfl

theorem evaluateFile_raises (hclean : Clean env) (m : MediaFile)
    (rules : List (Rule × RuleDefinition)) (persist : Bool) {s : Session Tables Outside}
    (hlive : s.Live)
    (hbad : ∃ entry ∈ rules, evaluable env.rt (inputOf s.working m) entry.2.match_ = false) :
    ∃ p s', evaluateFile env m rules persist s = (.error (.evaluator p), s') ∧ s'.Live ∧
      Call.foldEach (evaluateOne env m (inputOf s.working m) (env.clock (s.calls + 1)) persist)
        ⟨aggregateStart, []⟩ rules { s with calls := s.calls + 1 } = (.error (.evaluator p), s') := by
  obtain ⟨p, s', hrun, hlive'⟩ := loop_raises hclean (m := m) (env.clock (s.calls + 1)) persist rules
    hbad ⟨aggregateStart, []⟩ (s := { s with calls := s.calls + 1 }) hlive
  refine ⟨p, s', ?_, hlive', hrun⟩
  unfold evaluateFile buildInput
  rw [Call.run_bind_ok (load_live m.id hlive), Call.run_bind_ok (select_clean hclean _ hlive),
    Call.run_bind_ok (run_utcnow env _), Call.run_bind_error hrun]

/-! ### A list of files -/

theorem inputOf_congr {t t' : Tables} {m : MediaFile} (h : t'.tagNames m.id = t.tagNames m.id) :
    inputOf t' m = inputOf t m := by
  unfold inputOf
  rw [h]

theorem evaluateFile_inputs {m : MediaFile} {rules : List (Rule × RuleDefinition)}
    (hnodup : (rules.map (·.1.id)).Nodup) {s s' : Session Tables Outside} {outcome : FileOutcome}
    (hrun : evaluateFile env m rules true s = (.ok outcome, s')) :
    s'.Live ∧ ∀ m', m'.id ≠ m.id → inputOf s'.working m' = inputOf s.working m' := by
  have hspec := (triple_evaluateFile (D := fun _ => True) s.working hnodup
    (fun _ _ _ _ => trivial) (fun _ _ _ => trivial) :
      Triple _ (evaluateFile env m rules true) _ _) s ⟨trivial, fun _ => rfl⟩
  rw [hrun] at hspec
  obtain ⟨⟨-, hlive, now, heffect⟩, -⟩ := hspec
  exact ⟨hlive, fun m' hm' => inputOf_congr (heffect.otherTags m'.id hm')⟩

/-- Every rule can be evaluated on every file. -/
def AllEvaluable (env : Env) (t : Tables) (rules : List (Rule × RuleDefinition))
    (files : List MediaFile) : Prop :=
  ∀ m ∈ files, ∀ entry ∈ rules, evaluable env.rt (inputOf t m) entry.2.match_ = true

theorem AllEvaluable.tail {m : MediaFile} {rules : List (Rule × RuleDefinition)}
    {files : List MediaFile} {t t' : Tables}
    (hinputs : ∀ m', m'.id ≠ m.id → inputOf t' m' = inputOf t m')
    (hfiles : ((m :: files).map (·.id)).Nodup) (h : AllEvaluable env t rules (m :: files)) :
    AllEvaluable env t' rules files := by
  intro m' hm' entry hentry
  have hne : m'.id ≠ m.id := by
    rintro heq
    exact (List.nodup_cons.mp hfiles).1 (List.mem_map.mpr ⟨m', hm', heq⟩)
  rw [hinputs m' hne]
  exact h m' (by simp [hm']) entry hentry

theorem evaluateEach_of_evaluable {rules : List (Rule × RuleDefinition)} {files : List MediaFile}
    (hrules : (rules.map (·.1.id)).Nodup) (hfiles : (files.map (·.id)).Nodup)
    {s : Session Tables Outside} (hlive : s.Live) (hall : AllEvaluable env s.working rules files) :
    Ends (fun _ => Clean env → (evaluateEach env rules files s).2.Live)
      (fun e => NotEvaluator e ∧ ¬ Clean env) (evaluateEach env rules files s).1 := by
  induction files generalizing s with
  | nil => exact fun _ => hlive
  | cons m rest ih =>
    have hfirst := triple_evaluateFile_benign true (hall m (by simp)) s ⟨rfl, fun _ => hlive⟩
    rcases hrun : evaluateFile env m rules true s with ⟨e | outcome, s'⟩
    · rw [hrun] at hfirst
      rw [evaluateEach, Call.run_bind_error hrun]
      exact hfirst
    · obtain ⟨hlive', hinputs⟩ := evaluateFile_inputs hrules hrun
      have hrest := ih (List.nodup_cons.mp hfiles).2 hlive' (hall.tail hinputs hfiles)
      rw [evaluateEach, Call.run_bind_ok hrun]
      rcases hrun' : evaluateEach env rules rest s' with ⟨e | outcomes, s''⟩
      · rw [hrun'] at hrest
        rw [Call.run_bind_error hrun']
        exact hrest
      · rw [hrun'] at hrest
        rw [Call.run_bind_ok hrun']
        exact hrest

theorem evaluateEach_raises {rules : List (Rule × RuleDefinition)} {files : List MediaFile}
    (hclean : Clean env) (hrules : (rules.map (·.1.id)).Nodup) (hfiles : (files.map (·.id)).Nodup)
    {s : Session Tables Outside} (hlive : s.Live) (hbad : ¬ AllEvaluable env s.working rules files) :
    ∃ p, (evaluateEach env rules files s).1 = .error (.evaluator p) := by
  induction files generalizing s with
  | nil => exact absurd (fun m hm => absurd hm (by simp)) hbad
  | cons m rest ih =>
    by_cases hhead : ∀ entry ∈ rules, evaluable env.rt (inputOf s.working m) entry.2.match_ = true
    · have hfirst := triple_evaluateFile_benign true hhead s ⟨rfl, fun _ => hlive⟩
      rcases hrun : evaluateFile env m rules true s with ⟨e | outcome, s'⟩
      · rw [hrun] at hfirst; exact absurd hclean hfirst.2
      · obtain ⟨hlive', hinputs⟩ := evaluateFile_inputs hrules hrun
        have hrest : ¬ AllEvaluable env s'.working rules rest := by
          intro htail
          refine hbad fun m' hm' entry hentry => ?_
          rcases List.mem_cons.mp hm' with rfl | hmem
          · exact hhead entry hentry
          · have hne : m'.id ≠ m.id := fun heq =>
              (List.nodup_cons.mp hfiles).1 (List.mem_map.mpr ⟨m', hmem, heq⟩)
            rw [← hinputs m' hne]
            exact htail m' hmem entry hentry
        obtain ⟨p, hp⟩ := ih (List.nodup_cons.mp hfiles).2 hlive' hrest
        refine ⟨p, ?_⟩
        rw [evaluateEach, Call.run_bind_ok hrun]
        rcases hrun' : evaluateEach env rules rest s' with ⟨e | outcomes, s''⟩
        · rw [hrun'] at hp
          rw [Call.run_bind_error hrun']
          exact hp
        · rw [hrun'] at hp
          exact absurd hp (by simp)
    · have hsome : ∃ entry ∈ rules,
          evaluable env.rt (inputOf s.working m) entry.2.match_ = false := by
        simpa using hhead
      obtain ⟨p, s', hrun, -⟩ := evaluateFile_raises hclean m rules true hlive hsome
      exact ⟨p, by rw [evaluateEach, Call.run_bind_error hrun]⟩

/-! ### A library -/

theorem enabledRules_nodup (t : Tables) : ((enabledRules t).map (·.id)).Nodup := by
  unfold enabledRules
  refine ((List.perm_insertionSort _ _).map _).nodup_iff.mpr ?_
  exact t.rules.unique.sublist (List.filter_sublist.map _)

theorem loadEnabled_nodup (t : Tables) : ((loadEnabled t).map (·.1.id)).Nodup := by
  have hids : ∀ rules : List Rule,
      ((rules.filterMap fun rule => rule.definition.map fun d => (rule, d)).map (·.1.id)).Sublist
        (rules.map (·.id)) := by
    intro rules
    induction rules with
    | nil => exact List.Sublist.slnil
    | cons rule rest ih =>
      cases hd : rule.definition with
      | none => simpa [hd] using ih.cons rule.id
      | some d => simpa [hd] using ih.cons_cons rule.id
  exact (enabledRules_nodup t).sublist (hids (enabledRules t))

theorem listMedia_nodup (t : Tables) (libraryId : String) (tagsAny : List String) :
    ((listMedia t libraryId tagsAny).map (·.id)).Nodup := by
  unfold listMedia
  refine List.Nodup.sublist ((List.take_sublist _ _).map _) ?_
  refine ((List.perm_insertionSort _ _).map _).nodup_iff.mpr ?_
  exact t.media.unique.sublist (List.filter_sublist.map _)

instance : Std.Total bySeverity where
  total a b := by
    unfold bySeverity
    rcases lt_trichotomy a.severityRank b.severityRank with h | h | h
    · exact .inr (.inl h)
    · rcases String.le_total a.path b.path with hle | hle
      · exact .inl (.inr ⟨h, hle⟩)
      · exact .inr (.inr ⟨h.symm, hle⟩)
    · exact .inl (.inl h)

instance : IsTrans MediaFile bySeverity where
  trans a b c := by
    rintro (hab | ⟨hab, hpath⟩) (hbc | ⟨hbc, hpath'⟩)
    · exact .inl (hbc.trans hab)
    · exact .inl (hbc ▸ hab)
    · exact .inl (hab ▸ hbc)
    · exact .inr ⟨hab.trans hbc, String.le_trans hpath hpath'⟩

theorem bySeverity_antisymm {t : Tables} {a b : MediaFile} (ha : a ∈ t.media) (hb : b ∈ t.media)
    (hab : bySeverity a b) (hba : bySeverity b a) : a = b := by
  apply Tables.eq_of_path_eq ha hb
  rcases hab with hlt | ⟨hsame, hle⟩
  · rcases hba with hlt' | ⟨heq, -⟩
    · exact absurd hlt (Nat.lt_asymm hlt')
    · exact absurd heq (Nat.ne_of_lt hlt)
  · rcases hba with hlt' | ⟨-, hle'⟩
    · exact absurd hsame (Nat.ne_of_lt hlt')
    · exact String.le_antisymm hle hle'

/-- The files that a pass over a library asks for, without the limit. -/
def candidates (t : Tables) (libraryId : String) (tagsAny : List String) : List MediaFile :=
  t.media.rows.filter fun m =>
    (libraryId = "" || m.libraryId = libraryId) &&
      (((tagsAny.map strip).filter (· ≠ "")).isEmpty ||
        (t.tagNames m.id).any (· ∈ (tagsAny.map strip).filter (· ≠ "")))

theorem mem_listMedia {t : Tables} {libraryId : String} {tagsAny : List String} {m : MediaFile} :
    m ∈ listMedia t libraryId tagsAny ↔ m ∈ candidates t libraryId tagsAny ∧
      ahead bySeverity (candidates t libraryId tagsAny) m < PAGE_LIMIT := by
  refine mem_take_insertionSort_iff bySeverity ((t.media.unique.of_map _).filter _) ?_ PAGE_LIMIT
  intro a ha b hb
  exact bySeverity_antisymm (List.mem_of_mem_filter ha) (List.mem_of_mem_filter hb)

/-- What a library pass evaluates: the loaded rules on the listed files. -/
def LibraryEvaluable (env : Env) (t : Tables) (libraryId : String) (tagsAny : List String) : Prop :=
  AllEvaluable env t (loadEnabled t) (listMedia t libraryId tagsAny)

theorem benign_trackRules (now : Nat) (rules : List Rule) (count : Rule → Tables → Nat) :
    Benign env (Call.forEach (fun rule : Rule => trackRule env now rule.id (count rule)) rules) :=
  benign_forEach rules fun _ => (benign_select _).bind fun _ => benign_edit _

theorem triple_select_working {α : Type} (query : Tables → α) (t : Tables) :
    Triple (fun s : Session Tables Outside => s.working = t ∧ s.Live) (select env.db query)
      (fun a s => a = query t ∧ s.working = t ∧ s.Live)
      (fun e _ => NotEvaluator e ∧ ¬ Clean env) := by
  intro s hs
  unfold select
  rcases contact_run env false s with h | ⟨e, s', h, he, hwhy⟩
  · rw [Call.andThen_eq_bind, Call.run_bind_ok h]
    exact ⟨by rw [← hs.1], hs⟩
  · rw [Call.andThen_eq_bind, Call.run_bind_error h]
    refine ⟨he, hwhy.resolve_left fun hfailed => ?_⟩
    rw [hs.2.1] at hfailed; cases hfailed

theorem triple_evaluateFiles {t : Tables} {files : List MediaFile}
    (hfiles : (files.map (·.id)).Nodup) (hall : AllEvaluable env t (loadEnabled t) files) :
    Triple (fun s => s.working = t ∧ s.Live) (evaluateFiles env files)
      (fun _ s => Clean env → s.Live) (fun e _ => NotEvaluator e ∧ ¬ Clean env) := by
  refine (triple_select_working _ t).bind fun rules => Triple.assuming fun hrules => ?_
  subst hrules
  intro s hs
  obtain ⟨rfl, hlive⟩ := hs
  exact evaluateEach_of_evaluable (loadEnabled_nodup _) hfiles hlive hall

theorem triple_evaluateLibrary {t : Tables} {libraryId : String} {tagsAny : List String}
    (hall : LibraryEvaluable env t libraryId tagsAny) :
    Triple (fun s => s.working = t ∧ s.Live) (evaluateLibrary env libraryId tagsAny)
      (fun _ s => Clean env → s.Live) (fun e _ => NotEvaluator e ∧ ¬ Clean env) := by
  refine (triple_select_working _ t).bind fun files => Triple.assuming fun hfiles => ?_
  subst hfiles
  refine (triple_evaluateFiles (listMedia_nodup t libraryId tagsAny) hall).bind fun _ => ?_
  exact Benign.bind (benign_select _) fun _ => benign_utcnow.bind fun _ =>
    (benign_trackRules _ _ _).bind fun _ => benign_pure _

theorem evaluateFiles_raises (hclean : Clean env) {files : List MediaFile}
    (hfiles : (files.map (·.id)).Nodup) {s : Session Tables Outside} (hlive : s.Live)
    (hbad : ¬ AllEvaluable env s.working (loadEnabled s.working) files) :
    ∃ p s', evaluateFiles env files s = (.error (.evaluator p), s') := by
  unfold evaluateFiles
  rw [Call.run_bind_ok (select_clean hclean _ hlive)]
  obtain ⟨p, hp⟩ := evaluateEach_raises hclean (loadEnabled_nodup s.working) hfiles
    (s := { s with calls := s.calls + 1 }) hlive hbad
  exact ⟨p, _, Prod.ext hp rfl⟩

theorem evaluateLibrary_raises (hclean : Clean env) {libraryId : String} {tagsAny : List String}
    {s : Session Tables Outside} (hlive : s.Live)
    (hbad : ¬ LibraryEvaluable env s.working libraryId tagsAny) :
    ∃ p, (evaluateLibrary env libraryId tagsAny s).1 = .error (.evaluator p) := by
  unfold evaluateLibrary
  rw [Call.run_bind_ok (select_clean hclean _ hlive)]
  obtain ⟨p, s', hp⟩ := evaluateFiles_raises hclean (listMedia_nodup s.working libraryId tagsAny)
    (s := { s with calls := s.calls + 1 }) hlive hbad
  exact ⟨p, by rw [Call.run_bind_error hp]⟩

/-! ### The exact condition -/

end Files

/-- `width gt [1920]`: the schema leaves the value untyped. -/
def widthAboveList : RuleDefinition :=
  simpleRule .width .gt (.list [.int 1920]) (.setSeverity .warn) (by decide) rfl rfl rfl

/-- `extension eq "avi"`. -/
def extensionIsAvi : RuleDefinition :=
  simpleRule .extension .eq (.str "avi") (.setSeverity .warn) eq_mem_opsForField_extension avi_allowed
    (setSeverity_lengthsAllowed .warn) (setSeverity_not_isDelete .warn)

end RulesTotality
