/-
  Auditarr/NotifyRequests.lean
  ============================
  **The severity a notification is sent with.**

  A pass sends its notifications while it goes through the rules.  A rule that sets no
  severity of its own borrows the one of the aggregate so far, which holds the rules that
  came before and not those that come after.
-/
import Auditarr.SeverityInvariant

namespace NotifyRequests

open Effects Transactions KeyedTable PyValues RuleSchema RuleEvaluator RuleAggregation
open Database RulesService RulesEffect RulesTotality SeverityInvariant

/-! ### The messages of a call -/

/-- Messages were added, all of them as `P` says, and none was taken back. -/
def Adds (P : DispatchRequest → Prop) (s s' : Session Tables Outside) : Prop :=
  ∃ new, s'.world.dispatched = s.world.dispatched ++ new ∧ ∀ request ∈ new, P request

variable {P : DispatchRequest → Prop}

instance : Std.Refl (Adds P) := ⟨fun _ => ⟨[], by simp, by simp⟩⟩

instance : IsTrans (Session Tables Outside) (Adds P) where
  trans := by
    rintro s s' s'' ⟨new, hnew, hP⟩ ⟨more, hmore, hP'⟩
    refine ⟨new ++ more, by rw [hmore, hnew, List.append_assoc], fun request hrequest => ?_⟩
    rcases List.mem_append.mp hrequest with hmem | hmem
    · exact hP request hmem
    · exact hP' request hmem

theorem Adds.of_eq {s s' : Session Tables Outside}
    (h : s'.world.dispatched = s.world.dispatched) : Adds P s s' :=
  ⟨[], by rw [h, List.append_nil], by simp⟩

/-- What was sent by a call. -/
def sent (s s' : Session Tables Outside) : List DispatchRequest :=
  s'.world.dispatched.drop s.world.dispatched.length

theorem Adds.of_mem_sent {s s' : Session Tables Outside} (h : Adds P s s')
    {request : DispatchRequest} (hrequest : request ∈ sent s s') : P request := by
  obtain ⟨new, hnew, hP⟩ := h
  rw [sent, hnew, List.drop_left] at hrequest
  exact hP request hrequest

theorem Adds.mem_sent {s s' s'' : Session Tables Outside} {request : DispatchRequest}
    (hbefore : s.world.dispatched.length ≤ s'.world.dispatched.length) (h : Adds P s' s'')
    (hrequest : request ∈ sent s s') : request ∈ sent s s'' := by
  obtain ⟨new, hnew, -⟩ := h
  rw [sent, hnew, List.drop_append_of_le_length hbefore]
  exact List.mem_append_left _ hrequest

/-- A call that sends only such messages. -/
def Sends (P : DispatchRequest → Prop) {α : Type} (c : Service α) : Prop := Within (Adds P) c

section Calls

variable {env : Env} {α β ι : Type}

theorem Sends.bind {c : Service α} {k : α → Service β} (hc : Sends P c) (hk : ∀ a, Sends P (k a)) :
    Sends P (c >>= k) :=
  within_bind hc hk

theorem sends_pure (a : α) : Sends P (pure a : Service α) := within_pure a

theorem sends_raise (e : ServiceError) : Sends P (Call.raise e : Service α) := within_raise e

theorem sends_read (f : Session Tables Outside → α) : Sends P (Call.read f) := within_read f

theorem sends_when {b : Bool} {c : Service Unit} (hc : Sends P c) : Sends P (Call.when b c) :=
  within_when fun _ => hc

theorem sends_forEach {body : ι → Service Unit} (xs : List ι) (h : ∀ x ∈ xs, Sends P (body x)) :
    Sends P (Call.forEach body xs) :=
  within_forEach xs h

theorem sends_attempt {c : Service α} {handler : ServiceError → Service α} (hc : Sends P c)
    (hh : ∀ e, Sends P (handler e)) : Sends P (Call.attempt c handler) :=
  within_attempt hc hh

theorem sends_contact (fatal : Bool) : Sends P (contact env.db fatal) := by
  intro s
  apply Adds.of_eq
  rcases contact_cases env.db fatal s with ⟨e, h⟩ | ⟨-, h⟩ | ⟨e, h⟩ | ⟨e, h⟩ <;> simp only [h, Session.reverted]

theorem sends_select (query : Tables → α) : Sends P (select env.db query) :=
  (sends_contact false).bind fun _ => sends_read _

theorem sends_flush : Sends P (flush env.db) := sends_contact true

theorem sends_edit (change : Tables → Tables) : Sends P (edit change) := fun _ => Adds.of_eq rfl

theorem sends_commit : Sends P (commit env.db) :=
  (sends_contact true).bind fun _ _ => Adds.of_eq rfl

theorem sends_rollback : Sends P (rollback : Service Unit) := fun _ => Adds.of_eq rfl

theorem sends_load (a : α) : Sends P (load env.db a) := by
  intro s
  unfold load
  split <;> exact Adds.of_eq rfl

theorem sends_outside {change : Outside → Outside}
    (h : ∀ o, (change o).dispatched = o.dispatched := by exact fun _ => rfl) :
    Sends P (outside change) :=
  fun s => Adds.of_eq (h s.world)

theorem sends_emit (event : Event) : Sends P (emit event) := sends_outside

theorem sends_recordAudit (entry : AuditLogEntry) : Sends P (recordAudit env entry) :=
  (sends_edit _).bind fun _ => sends_flush

/-! ### The parts of a pass -/

theorem sends_upsertQueued (mediaFileId profile ruleId : String) (queuedAt : Nat) :
    Sends P (upsertQueued env mediaFileId profile ruleId queuedAt) := by
  refine (sends_select _).bind fun existing => ?_
  cases existing with
  | none => exact (sends_read _).bind fun _ => (sends_edit _).bind fun _ => sends_flush
  | some item =>
    by_cases hqueued : item.status = .queued
    · simp only [hqueued, if_true]
      exact (sends_edit _).bind fun _ => sends_flush
    · simp only [hqueued, if_false]
      exact sends_pure _

theorem sends_queueOptimization (m : MediaFile) (rule : Rule) (tags : List String) (now : Nat)
    (profileName : String) : Sends P (queueOptimization env m rule tags now profileName) := by
  refine (sends_select _).bind fun profile => sends_when ?_
  exact (sends_load _).bind fun _ => (sends_load _).bind fun _ => sends_upsertQueued _ _ _ _

theorem sends_throttleAllows (ruleId ruleName : String) (now : Nat)
    (throttle : Option NotifyThrottle) :
    Sends P (throttleAllows env ruleId ruleName now throttle) := by
  cases throttle with
  | none => exact sends_pure _
  | some throttle =>
    refine (sends_select _).bind fun existing => ?_
    cases existing with
    | none => exact (sends_edit _).bind fun _ => sends_flush.bind fun _ => sends_pure _
    | some row =>
      by_cases hunder : row.count < throttle.maxPerWindow
      · simp only [hunder, if_true]
        exact (sends_edit _).bind fun _ => sends_flush.bind fun _ => sends_pure _
      · simp only [hunder, if_false]
        refine (sends_emit _).bind fun _ => (sends_edit _).bind fun _ =>
          sends_flush.bind fun _ => Sends.bind (sends_when ?_) fun _ => sends_pure _
        exact sends_attempt (sends_recordAudit _) fun _ => sends_pure _

theorem sends_dispatch {request : DispatchRequest} (hrequest : P request) :
    Sends P (dispatch env request) := by
  refine (sends_select _).bind fun _ => Sends.bind ?_ fun _ => sends_flush
  intro s
  exact ⟨[request], rfl, by simpa using hrequest⟩

/-- The arguments `notify` hands to the dispatcher. -/
def requestOf (m : MediaFile) (rule : Rule) (definition : RuleDefinition) (severity : Severity)
    (notification : Notification) : DispatchRequest where
  severity := severity
  ruleId := rule.id
  ruleName := rule.name
  mediaFileId := m.id
  path := m.path
  filename := m.filename
  channel := notification.channel
  autoDelete := definition.actions.any Action.isDelete
  messageOverride := notification.message

theorem load_cases (env : Env) (a : α) (s : Session Tables Outside) :
    load env.db a s = (.ok a, s) ∨ ∃ e, load env.db a s = (.error e, s) := by
  unfold load
  split
  · exact .inr ⟨_, rfl⟩
  · exact .inl rfl

theorem sends_load_bind {a : α} {k : α → Service β} (hk : Sends P (k a)) :
    Sends P (load env.db a >>= k) := by
  intro s
  rcases load_cases env a s with h | ⟨e, h⟩
  · rw [Call.run_bind_ok h]
    exact hk s
  · rw [Call.run_bind_error h]
    exact Adds.of_eq rfl

theorem sends_notify {m : MediaFile} {rule : Rule} {definition : RuleDefinition}
    {severity : Severity} (now : Nat) {notification : Notification}
    (h : P (requestOf m rule definition severity notification)) :
    Sends P (notify env m rule definition severity now notification) := by
  refine sends_load_bind ((sends_throttleAllows _ _ _ _).bind fun allow => sends_when ?_)
  refine sends_attempt (sends_load_bind (sends_dispatch h)) fun _ => ?_
  exact (sends_load _).bind fun _ => sends_pure _

theorem sends_hardDeleteMedia (m : MediaFile) (reason : String) :
    Sends P (hardDeleteMedia env m reason) := by
  refine Sends.bind ((sends_load _).bind fun _ => ?_) fun moved => ?_
  · split
    · exact sends_pure _
    · refine (sends_read _).bind fun present => ?_
      split
      · exact Sends.bind sends_outside fun _ => sends_pure _
      · exact sends_pure _
  · cases moved with
    | error _ => exact sends_pure _
    | ok dstPath =>
      refine (sends_attempt (sends_recordAudit _) fun _ =>
        (sends_load _).bind fun _ => sends_pure _).bind fun _ => ?_
      exact (sends_load _).bind fun _ => (sends_emit _).bind fun _ => sends_edit _

theorem sends_applyAggregate (m : MediaFile) (ruleIds : List String) (progress : Progress) :
    Sends P (applyAggregate env m ruleIds progress) := by
  refine Sends.bind (sends_when ?_) fun _ => (sends_edit _).bind fun _ =>
    Sends.bind (sends_forEach _ fun tag _ => ?_) fun _ => sends_when (sends_hardDeleteMedia _ _)
  · exact (sends_load _).bind fun _ => (sends_select _).bind fun _ => sends_edit _
  · exact (sends_load _).bind fun _ => (sends_select _).bind fun _ => sends_edit _

theorem sends_enqueueForVtLookup (mediaFileId : String) :
    Sends P (enqueueForVtLookup env mediaFileId) := by
  refine (sends_read _).bind fun now => sends_attempt ?_ fun e => ?_
  · refine Sends.bind ?_ fun _ => sends_commit.bind fun _ => sends_pure _
    refine (sends_select _).bind fun taken => ?_
    split
    · exact sends_pure _
    · exact (sends_edit _).bind fun _ => sends_pure _
  · refine sends_rollback.bind fun _ => ?_
    split
    · exact sends_pure _
    · refine sends_attempt ?_ fun e' => ?_
      · refine Sends.bind ?_ fun _ => sends_commit.bind fun _ => sends_pure _
        refine (sends_select _).bind fun taken => ?_
        split
        · exact sends_raise _
        · exact sends_edit _
      · split
        · exact sends_rollback.bind fun _ => sends_pure _
        · exact sends_raise _

theorem sends_emitSearchUpstreamAudit (m : MediaFile) (integrationId target : String)
    (result : SearchTriggerResult) :
    Sends P (emitSearchUpstreamAudit env m integrationId target result) :=
  (sends_load _).bind fun _ =>
    (sends_attempt (sends_recordAudit _) fun _ =>
      (sends_load _).bind fun _ => sends_pure _).bind fun _ => sends_emit _

theorem sends_triggerUpstreamSearch (m : MediaFile) (request : SearchRequest) :
    Sends P (triggerUpstreamSearch env m request) := by
  refine (sends_select _).bind fun found => ?_
  cases found with
  | none => exact sends_emitSearchUpstreamAudit _ _ _ _
  | some integration =>
    simp only []
    split
    · exact sends_emitSearchUpstreamAudit _ _ _ _
    split
    · exact sends_pure _
    cases resolveSearch env (targetKind request.target) integration with
    | error result => exact sends_emitSearchUpstreamAudit _ _ _ _
    | ok trigger =>
      simp only []
      split
      · exact sends_raise _
      · exact (sends_load _).bind fun _ => Sends.bind sends_outside fun _ =>
          sends_emitSearchUpstreamAudit _ _ _ _

theorem sends_applyLookups (m : MediaFile) (aggregate : EvaluationResult) :
    Sends P (applyLookups env m aggregate) := by
  refine (sends_when ((sends_load _).bind fun _ =>
    (sends_enqueueForVtLookup _).bind fun _ => sends_pure _)).bind fun _ => ?_
  exact (sends_when (sends_forEach _ fun _ _ => sends_triggerUpstreamSearch m _)).bind fun _ =>
    sends_flush

end Calls

/-! ### The messages of a pass -/

/-- The rule can be evaluated on the file and matches it. -/
def Matches (rt : PyRuntime) (input : EvaluationInput) (d : RuleDefinition) : Prop :=
  matchNode rt input d.match_ = .ok true

theorem matches_iff {rt : PyRuntime} {input : EvaluationInput} {d : RuleDefinition} :
    Matches rt input d ↔
      evaluable rt input d.match_ = true ∧ verdict rt input d.match_ = true := by
  have hsettles := settles_matchNode rt input d.match_
  unfold Matches
  cases hevaluable : evaluable rt input d.match_ with
  | false =>
    obtain ⟨e, he⟩ := hsettles.2 hevaluable
    simp [he]
  | true => simp [hsettles.1 hevaluable]

section Pass

variable {env : Env} {m : MediaFile} {input : EvaluationInput}

/-- The severity of the notifications of a rule that comes after these. -/
def dispatchSeverity (rt : PyRuntime) (input : EvaluationInput) (done : List (Rule × RuleDefinition))
    (entry : Rule × RuleDefinition) : Severity :=
  ((outcome rt entry.2 input).severity.orElse fun _ =>
    (progressAfter rt input (done ++ [entry])).aggregate.severity).getD .info

/-- A message of a matching rule that came after these. -/
def MessageOf (rt : PyRuntime) (m : MediaFile) (input : EvaluationInput)
    (done : List (Rule × RuleDefinition)) (entry : Rule × RuleDefinition)
    (request : DispatchRequest) : Prop :=
  Matches rt input entry.2 ∧ ∃ notification ∈ (outcome rt entry.2 input).notifications,
    request = requestOf m entry.1 entry.2 (dispatchSeverity rt input done entry) notification

/-- A message of one of the rules, sent when the ones before it had been evaluated. -/
def MessageIn (rt : PyRuntime) (m : MediaFile) (input : EvaluationInput)
    (rules : List (Rule × RuleDefinition)) (request : DispatchRequest) : Prop :=
  ∃ done entry rest, rules = done ++ entry :: rest ∧
    (∀ old ∈ done, evaluable rt input old.2.match_ = true) ∧ MessageOf rt m input done entry request

theorem sends_persistMatch (now : Nat) (rule : Rule) (definition : RuleDefinition)
    (result aggregate : EvaluationResult)
    (h : ∀ notification ∈ result.notifications, P (requestOf m rule definition
      ((result.severity.orElse fun _ => aggregate.severity).getD .info) notification)) :
    Sends P (persistMatch env m input now rule definition result aggregate) := by
  refine (sends_load _).bind fun _ => Sends.bind ?_ fun _ => ?_
  · exact (sends_select _).bind fun _ => (sends_edit _).bind fun _ => sends_flush
  · refine (sends_forEach _ fun name _ => sends_queueOptimization _ _ _ _ _).bind fun _ => ?_
    exact sends_when (sends_forEach _ fun notification hmem => sends_notify now (h _ hmem))

theorem Sends.triple {α : Type} {c : Service α} (hc : Sends P c) (s₀ : Session Tables Outside) :
    Triple (Adds P s₀) c (fun _ s => Adds P s₀ s) fun _ s => Adds P s₀ s :=
  fun s hs => ends_const (IsTrans.trans _ _ _ hs (hc s)) _

theorem triple_evaluateOne_sends (now : Nat) (done : List (Rule × RuleDefinition))
    (entry : Rule × RuleDefinition) (s₀ : Session Tables Outside)
    (hP : ∀ request, MessageOf env.rt m input done entry request → P request) :
    Triple (Adds P s₀)
      (evaluateOne env m input now true (progressAfter env.rt input done) entry)
      (fun progress s => (progress = progressAfter env.rt input (done ++ [entry]) ∧
        evaluable env.rt input entry.2.match_ = true) ∧ Adds P s₀ s)
      (fun _ s => Adds P s₀ s) := by
  unfold evaluateOne
  cases hev : evaluate env.rt entry.2 input with
  | error e =>
    simp only [hev]
    exact fun s hs => hs
  | ok result =>
    have hevaluable := (evaluate_returns_iff env.rt entry.2 input).mp ⟨result, hev⟩
    obtain rfl := evaluate_eq_outcome hev
    simp only [hev, outcome_matched]
    cases hverdict : verdict env.rt input entry.2.match_ with
    | false =>
      exact triple_pure _ fun s hs =>
        ⟨⟨(progressAfter_append_skipped done hverdict).symm, hevaluable⟩, hs⟩
    | true =>
      have hnext : progressAfter env.rt input (done ++ [entry]) = _ :=
        progressAfter_append_matching done hverdict
      refine triple_load_bind (fun _ _ hs => hs) (Triple.bind (M := fun _ s => Adds P s₀ s) ?_
        fun _ => triple_pure _ fun s hs => ⟨⟨hnext.symm, hevaluable⟩, hs⟩)
      refine (Sends.triple (sends_when (sends_persistMatch now entry.1 entry.2 _ _ ?_))
        s₀).consequence (fun _ hs => hs.1) (fun _ _ hs => hs) fun _ _ hs => hs
      intro notification hnotification
      refine hP _ ⟨matches_iff.mpr ⟨hevaluable, hverdict⟩, notification, hnotification, ?_⟩
      rw [dispatchSeverity, hnext]

theorem triple_loop_sends (now : Nat) (rules : List (Rule × RuleDefinition))
    (s₀ : Session Tables Outside)
    (hP : ∀ request, MessageIn env.rt m input rules request → P request) :
    Triple (Adds P s₀)
      (Call.foldEach (evaluateOne env m input now true) ⟨aggregateStart, []⟩ rules)
      (fun _ s => Adds P s₀ s) (fun _ s => Adds P s₀ s) := by
  refine Triple.consequence (Triple.foldEach (I := fun done progress s =>
    (progress = progressAfter env.rt input done ∧
      ∀ old ∈ done, evaluable env.rt input old.2.match_ = true) ∧ Adds P s₀ s)
        ⟨aggregateStart, []⟩ rules ?_)
    (fun s hs => ⟨⟨rfl, by simp⟩, hs⟩) (fun _ _ hs => hs.2) (fun _ _ hs => hs)
  intro done entry rest acc hsplit
  refine Triple.assuming fun hacc => ?_
  obtain ⟨rfl, hdone⟩ := hacc
  refine (triple_evaluateOne_sends now done entry s₀ fun request hrequest => ?_).consequence
    (fun _ hs => hs) (fun progress s hs => ⟨⟨hs.1.1, ?_⟩, hs.2⟩) fun _ _ hs => hs
  · exact hP request ⟨done, entry, rest, hsplit, hdone, hrequest⟩
  · intro old hold
    rcases List.mem_append.mp hold with hmem | hmem
    · exact hdone old hmem
    · rw [List.mem_singleton.mp hmem]
      exact hs.1.2

theorem evaluateFile_sends (env : Env) (m : MediaFile) (rules : List (Rule × RuleDefinition))
    (s : Session Tables Outside) :
    Adds (MessageIn env.rt m (inputOf s.working m) rules) s (evaluateFile env m rules true s).2 := by
  suffices h : Triple (fun s' => s' = s) (evaluateFile env m rules true)
      (fun _ s' => Adds (MessageIn env.rt m (inputOf s.working m) rules) s s')
      fun _ s' => Adds (MessageIn env.rt m (inputOf s.working m) rules) s s' from
    (h s rfl).of_const
  refine triple_load_bind (fun _ s' hs => Adds.of_eq (by rw [hs])) ?_
  refine Triple.bind (M := fun input s' => input = inputOf s.working m ∧
    Adds (MessageIn env.rt m (inputOf s.working m) rules) s s') ?_ fun input => ?_
  · rintro s' ⟨rfl, -⟩
    have hsent : Adds (MessageIn env.rt m (inputOf s'.working m) rules) s'
        (select env.db (fun t => inputOf t m) s').2 := sends_select _ s'
    unfold buildInput
    rcases hrun : select env.db (fun t => inputOf t m) s' with ⟨e | value, s''⟩
    · rw [hrun] at hsent
      exact hsent
    · rw [hrun] at hsent
      exact ⟨(select_returned hrun).1, hsent⟩
  · refine Triple.assuming fun hinput => ?_
    subst hinput
    refine (Sends.triple (sends_read _) s).bind fun now => ?_
    refine (triple_loop_sends now rules s fun _ h => h).bind fun progress =>
      Sends.triple ((sends_when ?_).bind fun _ => (sends_load _).bind fun _ => sends_pure _) s
    exact (sends_applyAggregate m _ progress).bind fun _ => sends_applyLookups m _

end Pass

/-! ### A rule whose window is empty -/

section Sparing

variable {env : Env} {α β ι : Type} {ruleId : String}

/-- The counters of a rule. -/
def windowsOf (ruleId : String) (t : Tables) : List RuleNotificationWindow :=
  t.windows.rows.filter (·.ruleId = ruleId)

/-- A call that leaves the counters of a rule alone. -/
def Spares (ruleId : String) {α : Type} (c : Service α) : Prop :=
  Within (Keeps (windowsOf ruleId) fun _ : Outside => ()) c

theorem Spares.bind {c : Service α} {k : α → Service β} (hc : Spares ruleId c)
    (hk : ∀ a, Spares ruleId (k a)) : Spares ruleId (c >>= k) :=
  within_bind hc hk

theorem spares_pure (a : α) : Spares ruleId (pure a : Service α) := within_pure a

theorem spares_load (a : α) : Spares ruleId (load env.db a) := keeps_load a

theorem spares_when {b : Bool} {c : Service Unit} (hc : Spares ruleId c) :
    Spares ruleId (Call.when b c) :=
  within_when fun _ => hc

theorem spares_forEach {body : ι → Service Unit} (xs : List ι) (h : ∀ x, Spares ruleId (body x)) :
    Spares ruleId (Call.forEach body xs) :=
  within_forEach xs fun x _ => h x

theorem spares_of_keeps {c : Service α}
    (hc : Within (Keeps (fun t : Tables => (t.windows, t.auditLog)) fun _ : Outside => ()) c) :
    Spares ruleId c := by
  refine hc.mono fun s s' hkeeps => hkeeps.imp ?_ fun _ _ _ => rfl
  intro t t' heq
  rw [windowsOf, (Prod.mk.inj heq).1, windowsOf]

theorem keeps_upsertQueued (mediaFileId profile queuedBy : String) (queuedAt : Nat) :
    Within (Keeps (fun t : Tables => (t.windows, t.auditLog)) fun _ : Outside => ())
      (upsertQueued env mediaFileId profile queuedBy queuedAt) := by
  refine within_bind (keeps_select _) fun existing => ?_
  cases existing with
  | none =>
    refine within_bind (within_read _) fun _ => within_bind (keeps_edit ?_) fun _ => keeps_flush
    intro t
    rfl
  | some item =>
    by_cases hqueued : item.status = .queued
    · simp only [hqueued, if_true]
      refine within_bind (keeps_edit ?_) fun _ => keeps_flush
      intro t
      rfl
    · simp only [hqueued, if_false]
      exact within_pure _

theorem keeps_queueOptimization (env : Env) (m : MediaFile) (rule : Rule) (tags : List String)
    (now : Nat) (profileName : String) :
    Within (Keeps (fun t : Tables => (t.windows, t.auditLog)) fun _ : Outside => ())
      (queueOptimization env m rule tags now profileName) := by
  refine within_bind (keeps_select _) fun profile => within_when fun _ => ?_
  exact within_bind (keeps_load _) fun _ => within_bind (keeps_load _) fun _ =>
    keeps_upsertQueued _ _ _ _

theorem keeps_upsertEvaluation (env : Env) (row : RuleEvaluation) :
    Within (Keeps (fun t : Tables => (t.windows, t.auditLog)) fun _ : Outside => ())
      (upsertEvaluation env row) := by
  refine within_bind (keeps_select _) fun _ => within_bind (keeps_edit ?_) fun _ => keeps_flush
  intro t
  rfl

theorem keeps_sending (env : Env) (m : MediaFile) (rule : Rule) (allow : Bool)
    (request : String → DispatchRequest) :
    Within (Keeps (fun t : Tables => (t.windows, t.auditLog)) fun _ : Outside => ())
      (Call.when allow <|
        Call.attempt
          (do let mediaFileId ← load env.db m.id
              dispatch env (request mediaFileId))
          fun _ => do
            let _ ← load env.db rule.id
            pure () : Service Unit) := by
  refine within_when fun _ => within_attempt (within_bind (keeps_load _) fun _ => ?_) fun _ =>
    within_bind (keeps_load _) fun _ => within_pure _
  refine within_bind (keeps_select _) fun _ => within_bind (keeps_outside ?_) fun _ => keeps_flush
  intro o
  rfl

theorem keeps_select_bind {γ : Type} {f : Tables → γ} {query : Tables → α} {k : α → Service β}
    (hk : ∀ t, Within (Keeps f fun _ : Outside => ()) (k (query t))) :
    Within (Keeps f fun _ : Outside => ()) (select env.db query >>= k) := by
  intro s
  have hselect : Keeps f (fun _ : Outside => ()) s (select env.db query s).2 :=
    keeps_select query s
  rcases hrun : select env.db query s with ⟨e | value, s'⟩
  · rw [Call.run_bind_error hrun]
    rw [hrun] at hselect
    exact hselect
  · rw [Call.run_bind_ok hrun, (select_returned hrun).1]
    rw [hrun] at hselect
    exact IsTrans.trans _ _ _ hselect (hk _ s')

theorem keeps_throttleAllows {γ : Type} {f : Tables → γ} {ruleId : String} (ruleName : String)
    (now : Nat) (throttle : Option NotifyThrottle)
    (hrow : ∀ t window, window.ruleId = ruleId → f (t.putWindow window) = f t)
    (haudit : ∀ t entry, f (t.addAudit entry) = f t) :
    Within (Keeps f fun _ : Outside => ()) (throttleAllows env ruleId ruleName now throttle) := by
  cases throttle with
  | none => exact within_pure _
  | some throttle =>
    refine keeps_select_bind fun t => ?_
    cases hfind : t.windows.find? (ruleId, now - now % throttle.windowSeconds) with
    | none =>
      refine within_bind (keeps_edit ?_) fun _ => within_bind keeps_flush fun _ => within_pure _
      intro t
      exact hrow t _ rfl
    | some row =>
      have hrule : row.ruleId = ruleId := congrArg Prod.fst (Table.mem_of_find? hfind).2
      by_cases hunder : row.count < throttle.maxPerWindow
      · simp only [hunder, if_true]
        refine within_bind (keeps_edit ?_) fun _ => within_bind keeps_flush fun _ => within_pure _
        intro t
        exact hrow t _ hrule
      · simp only [hunder, if_false]
        refine within_bind (keeps_outside fun _ => rfl) fun _ => within_bind (keeps_edit ?_) fun _ =>
          within_bind keeps_flush fun _ => within_bind (within_when fun _ => ?_) fun _ =>
            within_pure _
        · intro t
          exact hrow t _ hrule
        · refine within_attempt (within_bind (keeps_edit ?_) fun _ => keeps_flush) fun _ =>
            within_pure _
          intro t
          exact haudit t _

theorem spares_throttleAllows {other : String} (ruleName : String) (now : Nat)
    (throttle : Option NotifyThrottle) (hother : other ≠ ruleId) :
    Spares ruleId (throttleAllows env other ruleName now throttle) := by
  refine keeps_throttleAllows ruleName now throttle ?_ fun _ _ => rfl
  intro t window hwindow
  refine Table.filter_upsert fun r hr => ?_
  have hrule : r.ruleId = window.ruleId := congrArg Prod.fst hr
  simp [hrule, hwindow, hother]

theorem spares_load_bind {a : α} {k : α → Service β} (hk : Spares ruleId (k a)) :
    Spares ruleId (load env.db a >>= k) := by
  intro s
  rcases load_cases env a s with h | ⟨e, h⟩
  · rw [Call.run_bind_ok h]
    exact hk s
  · rw [Call.run_bind_error h]
    exact Std.Refl.refl s

theorem spares_notify (m : MediaFile) {rule : Rule} (definition : RuleDefinition)
    (severity : Severity) (now : Nat) (notification : Notification) (hother : rule.id ≠ ruleId) :
    Spares ruleId (notify env m rule definition severity now notification) := by
  exact spares_load_bind ((spares_throttleAllows _ _ _ hother).bind fun allow =>
    spares_of_keeps (keeps_sending env m rule allow _))

theorem spares_evaluateOne (m : MediaFile) (input : EvaluationInput) (now : Nat)
    (progress : Progress) {entry : Rule × RuleDefinition} (hother : entry.1.id ≠ ruleId) :
    Spares ruleId (evaluateOne env m input now true progress entry) := by
  unfold evaluateOne
  cases hev : evaluate env.rt entry.2 input with
  | error e =>
    simp only [hev]
    exact within_raise _
  | ok result =>
    simp only [hev]
    cases result.matched with
    | false => exact spares_pure _
    | true =>
      refine (spares_load _).bind fun _ => Spares.bind ?_ fun _ => spares_pure _
      refine spares_when ((spares_load _).bind fun _ =>
        (spares_of_keeps (keeps_upsertEvaluation env _)).bind fun _ =>
        (spares_forEach _ fun _ => spares_of_keeps (keeps_queueOptimization env _ _ _ _ _)).bind
          fun _ => ?_)
      exact spares_when (spares_forEach _ fun _ => spares_notify _ _ _ _ _ hother)

/-- A live session in which the rule has not counted anything yet. -/
def Unused (ruleId : String) (s : Session Tables Outside) : Prop :=
  s.Live ∧ windowsOf ruleId s.working = []

theorem Spares.run (hclean : Clean env) {c : Service α} (hc : Spares ruleId c)
    (hbenign : Benign env c) {s : Session Tables Outside} (hs : Unused ruleId s) :
    ∃ a s', c s = (.ok a, s') ∧ Unused ruleId s' := by
  have hends := hbenign s fun _ => hs.1
  have hkeeps := hc s
  rcases hrun : c s with ⟨e | a, s'⟩
  · rw [hrun] at hends
    exact absurd hclean hends.2
  · rw [hrun] at hends hkeeps
    exact ⟨a, s', rfl, hends hclean, (hkeeps.2.2 (hends hclean)).2.trans hs.2⟩

end Sparing

/-! ### Every matching rule is heard -/

section Delivery

variable {env : Env} {α β : Type} {request : DispatchRequest} {s : Session Tables Outside}

theorem sent_subset_of_later {s' s'' : Session Tables Outside} (h : Adds P s s') :
    sent s' s'' ⊆ sent s s'' := by
  obtain ⟨new, hnew, -⟩ := h
  refine List.drop_subset_drop_left _ ?_
  rw [hnew, List.length_append]
  exact Nat.le_add_right _ _

theorem mem_sent_bind {c : Service α} {k : α → Service β} (hc : Sends (fun _ => True) c)
    (hk : ∀ a, Sends (fun _ => True) (k a)) (h : request ∈ sent s (c s).2) :
    request ∈ sent s ((c >>= k) s).2 := by
  have hlength : s.world.dispatched.length ≤ (c s).2.world.dispatched.length := by
    obtain ⟨new, hnew, -⟩ := hc s
    rw [hnew, List.length_append]
    exact Nat.le_add_right _ _
  rcases hrun : c s with ⟨e | a, s'⟩
  · rw [Call.run_bind_error hrun]
    rw [hrun] at h
    exact h
  · rw [Call.run_bind_ok hrun]
    rw [hrun] at h hlength
    exact Adds.mem_sent hlength (hk a s') h

theorem mem_sent_of_run {c : Service α} {k : α → Service β} {a : α} {s' : Session Tables Outside}
    (hc : Sends (fun _ => True) c) (hrun : c s = (.ok a, s'))
    (h : request ∈ sent s' (k a s').2) : request ∈ sent s ((c >>= k) s).2 := by
  have hadds := hc s
  rw [hrun] at hadds
  rw [Call.run_bind_ok hrun]
  exact sent_subset_of_later hadds h

theorem throttleAllows_unused (hclean : Clean env) (ruleId ruleName : String) (now : Nat)
    (throttle : Option NotifyThrottle) (hs : Unused ruleId s) :
    ∃ s', throttleAllows env ruleId ruleName now throttle s = (.ok true, s') ∧ s'.Live := by
  cases throttle with
  | none => exact ⟨s, rfl, hs.1⟩
  | some throttle =>
    have hfind : s.working.windows.find? (ruleId, now - now % throttle.windowSeconds) = none := by
      cases hfind : s.working.windows.find? (ruleId, now - now % throttle.windowSeconds) with
      | none => rfl
      | some row =>
        obtain ⟨hmem, hkey⟩ := Table.mem_of_find? hfind
        have hrow : row ∈ windowsOf ruleId s.working :=
          List.mem_filter.mpr ⟨hmem, decide_eq_true (congrArg Prod.fst hkey)⟩
        rw [hs.2] at hrow
        cases hrow
    let start := now - now % throttle.windowSeconds
    let opened : Session Tables Outside := { s with
      working := s.working.putWindow ⟨ruleId, start, start + throttle.windowSeconds, 1⟩
      calls := s.calls + 1 }
    have hflush : (flush env.db : Service Unit) opened =
        (.ok (), { opened with calls := opened.calls + 1 }) := contact_clean hclean true hs.1
    refine ⟨{ opened with calls := opened.calls + 1 }, ?_, hs.1⟩
    refine (Call.run_bind_ok (select_clean hclean _ hs.1)).trans ?_
    simp only [hfind]
    show (flush env.db >>= fun _ => (pure true : Service Bool)) opened = _
    exact Call.run_bind_ok hflush

theorem mem_sent_notify (hclean : Clean env) {m : MediaFile} {rule : Rule}
    {definition : RuleDefinition} {severity : Severity} (now : Nat) {notification : Notification}
    (hs : Unused rule.id s) :
    requestOf m rule definition severity notification ∈
      sent s (notify env m rule definition severity now notification s).2 := by
  obtain ⟨s', hallows, hlive⟩ := throttleAllows_unused hclean rule.id rule.name now
    notification.throttle hs
  refine mem_sent_of_run (sends_load _) (load_live rule.id hs.1) ?_
  refine mem_sent_of_run (sends_throttleAllows _ _ _ _) hallows ?_
  have hdispatch : (do
      let mediaFileId ← load env.db m.id
      dispatch env
        { severity := severity, ruleId := rule.id, ruleName := rule.name,
          mediaFileId := mediaFileId, path := m.path, filename := m.filename,
          channel := notification.channel,
          autoDelete := definition.actions.any Action.isDelete,
          messageOverride := notification.message } : Service Unit) s' =
      (.ok (), { s' with
        world := { s'.world with dispatched := s'.world.dispatched ++
          [requestOf m rule definition severity notification] }
        calls := s'.calls + 2 }) := by
    rw [Call.run_bind_ok (load_live m.id hlive)]
    refine (Call.run_bind_ok (select_clean hclean _ hlive)).trans ?_
    exact contact_clean hclean true ⟨hlive.1, hlive.2⟩
  simp only [Call.when, if_true, Call.run_attempt, hdispatch, sent, List.drop_left]
  exact List.mem_singleton_self _

theorem mem_sent_persistMatch (hclean : Clean env) (hregistry : env.registry = true)
    {m : MediaFile} {input : EvaluationInput} (now : Nat) {rule : Rule}
    {definition : RuleDefinition} {result aggregate : EvaluationResult}
    {notification : Notification} {more : List Notification}
    (hfirst : result.notifications = notification :: more) (hs : Unused rule.id s) :
    requestOf m rule definition ((result.severity.orElse fun _ => aggregate.severity).getD .info)
        notification ∈
      sent s (persistMatch env m input now rule definition result aggregate s).2 := by
  obtain ⟨_, s₁, hrow, hs₁⟩ := Spares.run hclean
    (spares_of_keeps (keeps_upsertEvaluation env (evaluationRow m rule result now)))
    (benign_upsertEvaluation _) hs
  obtain ⟨_, s₂, hqueue, hs₂⟩ := Spares.run hclean
    (spares_forEach result.queueOptimizations fun name =>
      spares_of_keeps (keeps_queueOptimization env m rule input.tags now name))
    (benign_forEach _ fun name => benign_queueOptimization _ _ _ _ _) hs₁
  refine mem_sent_of_run (sends_load _) (load_live m.id hs.1) ?_
  refine mem_sent_of_run ?_ hrow (mem_sent_of_run ?_ hqueue ?_)
  · exact (sends_select _).bind fun _ => (sends_edit _).bind fun _ => sends_flush
  · exact sends_forEach _ fun name _ => sends_queueOptimization _ _ _ _ _
  · rw [hregistry, hfirst]
    refine mem_sent_bind (sends_notify now trivial) (fun _ => ?_) (mem_sent_notify hclean now hs₂)
    exact sends_forEach _ fun _ _ => sends_notify now trivial

theorem sends_evaluateOne (m : MediaFile) (input : EvaluationInput) (now : Nat)
    (progress : Progress) (entry : Rule × RuleDefinition) :
    Sends (fun _ => True) (evaluateOne env m input now true progress entry) := by
  unfold evaluateOne
  cases hev : evaluate env.rt entry.2 input with
  | error e =>
    simp only [hev]
    exact sends_raise _
  | ok result =>
    simp only [hev]
    cases result.matched with
    | false => exact sends_pure _
    | true =>
      refine (sends_load _).bind fun _ => Sends.bind (sends_when ?_) fun _ => sends_pure _
      exact sends_persistMatch now entry.1 entry.2 _ _ fun _ _ => trivial

theorem evaluateOne_of_matches {m : MediaFile} {input : EvaluationInput} {now : Nat}
    {progress : Progress} {entry : Rule × RuleDefinition} (h : Matches env.rt input entry.2) :
    evaluateOne env m input now true progress entry = do
      let ruleId ← load env.db entry.1.id
      let aggregate := (outcome env.rt entry.2 input).mergeInto progress.aggregate
      persistMatch env m input now entry.1 entry.2 (outcome env.rt entry.2 input) aggregate
      return ⟨aggregate, progress.matchedRuleIds ++ [ruleId]⟩ := by
  obtain ⟨hevaluable, hverdict⟩ := matches_iff.mp h
  unfold evaluateOne
  simp only [evaluate_of_evaluable hevaluable, outcome_matched, hverdict, if_true, Call.when]

theorem mem_sent_evaluateOne (hclean : Clean env) (hregistry : env.registry = true)
    {m : MediaFile} {input : EvaluationInput} (now : Nat) (done : List (Rule × RuleDefinition))
    {entry : Rule × RuleDefinition} (hmatches : Matches env.rt input entry.2)
    {notification : Notification} {more : List Notification}
    (hfirst : (outcome env.rt entry.2 input).notifications = notification :: more)
    (hs : Unused entry.1.id s) :
    requestOf m entry.1 entry.2 (dispatchSeverity env.rt input done entry) notification ∈
      sent s (evaluateOne env m input now true (progressAfter env.rt input done) entry s).2 := by
  rw [dispatchSeverity, progressAfter_append_matching done (matches_iff.mp hmatches).2,
    evaluateOne_of_matches hmatches]
  refine mem_sent_of_run (sends_load _) (load_live entry.1.id hs.1) ?_
  refine mem_sent_bind ?_ (fun _ => sends_pure _)
    (mem_sent_persistMatch hclean hregistry now hfirst hs)
  exact sends_persistMatch _ _ _ _ _ fun _ _ => trivial

theorem loop_unused (hclean : Clean env) (m : MediaFile) (input : EvaluationInput) (now : Nat)
    {ruleId : String} (done : List (Rule × RuleDefinition))
    (hdone : ∀ old ∈ done, evaluable env.rt input old.2.match_ = true ∧ old.1.id ≠ ruleId)
    (hs : Unused ruleId s) :
    ∃ s', Call.foldEach (evaluateOne env m input now true) ⟨aggregateStart, []⟩ done s =
      (.ok (progressAfter env.rt input done), s') ∧ Unused ruleId s' := by
  have hloop : Triple (Unused ruleId)
      (Call.foldEach (evaluateOne env m input now true) ⟨aggregateStart, []⟩ done)
      (fun progress s' => progress = progressAfter env.rt input done ∧ Unused ruleId s')
      (fun _ _ => False) := by
    refine Triple.consequence (Triple.foldEach (I := fun done progress s =>
      progress = progressAfter env.rt input done ∧ Unused ruleId s) ⟨aggregateStart, []⟩ done ?_)
      (fun s hs => ⟨rfl, hs⟩) (fun _ _ hs => hs) (fun _ _ hs => hs)
    intro before entry rest acc hsplit
    refine Triple.assuming fun hacc s hs => ?_
    subst hacc
    have hmem : entry ∈ done := by rw [hsplit]; simp
    obtain ⟨progress, s', hrun, hs'⟩ := Spares.run hclean
      (spares_evaluateOne m input now (progressAfter env.rt input before) (hdone entry hmem).2)
      (benign_evaluateOne now true _ (hdone entry hmem).1) hs
    have hvalue := (triple_evaluateOne_sends now before entry s fun _ _ => trivial).of_ok
      (Std.Refl.refl s) hrun
    rw [hrun]
    exact ⟨hvalue.1.1, hs'⟩
  have hends := hloop s hs
  rcases hrun : Call.foldEach (evaluateOne env m input now true) ⟨aggregateStart, []⟩ done s with
    ⟨e | progress, s'⟩
  · rw [hrun] at hends
    exact hends.elim
  · rw [hrun] at hends
    exact ⟨s', by rw [hends.1], hends.2⟩

/-- Where nothing fails, a matching rule that has not counted anything yet is heard, with
    the severity of its place in the list. -/
theorem evaluateFile_delivers (env : Env) (hclean : Clean env) (hregistry : env.registry = true)
    {m : MediaFile} (done rest : List (Rule × RuleDefinition)) {entry : Rule × RuleDefinition}
    (hdone : ∀ old ∈ done,
      evaluable env.rt (inputOf s.working m) old.2.match_ = true ∧ old.1.id ≠ entry.1.id)
    (hmatches : Matches env.rt (inputOf s.working m) entry.2) {notification : Notification}
    {more : List Notification}
    (hfirst : (outcome env.rt entry.2 (inputOf s.working m)).notifications = notification :: more)
    (hs : Unused entry.1.id s) :
    requestOf m entry.1 entry.2
        (dispatchSeverity env.rt (inputOf s.working m) done entry) notification ∈
      sent s (evaluateFile env m (done ++ entry :: rest) true s).2 := by
  obtain ⟨input, hinput⟩ : ∃ input, input = inputOf s.working m := ⟨_, rfl⟩
  rw [← hinput] at hdone hmatches hfirst ⊢
  let opened : Session Tables Outside := { s with calls := s.calls + 1 }
  obtain ⟨s', hbefore, hs'⟩ := loop_unused hclean m input (env.clock opened.calls) done hdone
    (s := opened) hs
  have hone := mem_sent_evaluateOne hclean hregistry (m := m) (env.clock opened.calls) done
    hmatches hfirst hs'
  have hloop : Sends (fun _ => True) (Call.foldEach
      (evaluateOne env m input (env.clock opened.calls) true) ⟨aggregateStart, []⟩
        (done ++ entry :: rest)) :=
    within_foldEach _ (fun progress entry _ => sends_evaluateOne m input _ progress entry) _
  refine mem_sent_of_run (sends_load _) (load_live m.id hs.1) ?_
  refine mem_sent_of_run (sends_select _) (select_clean hclean _ hs.1) ?_
  rw [← hinput]
  refine mem_sent_of_run (sends_read _) (run_utcnow env _) (mem_sent_bind hloop (fun progress => ?_) ?_)
  · refine (sends_when ?_).bind fun _ => (sends_load _).bind fun _ => sends_pure _
    exact (sends_applyAggregate m _ progress).bind fun _ => sends_applyLookups m _
  · rw [Call.foldEach_append]
    refine mem_sent_of_run ?_ hbefore (mem_sent_bind (sends_evaluateOne _ _ _ _ _) (fun _ => ?_) hone)
    · exact within_foldEach _ (fun progress entry _ => sends_evaluateOne m input _ progress entry) _
    · exact within_foldEach _ (fun progress entry _ => sends_evaluateOne m input _ progress entry) _

end Delivery

/-! ### Which severity it is -/

section Severities

variable {rt : PyRuntime} {input : EvaluationInput}

/-- The `notify` actions of a rule. -/
def notificationsOf (actions : List Action) : List Notification :=
  actions.filterMap fun action => match action with
    | .notify channel message throttle => some ⟨channel, message, throttle⟩
    | _ => none

theorem notifications_applyAction (input : EvaluationInput) (result : EvaluationResult)
    (action : Action) :
    (applyAction input result action).notifications =
      result.notifications ++ notificationsOf [action] := by
  cases action with
  | setSeverity severity | addTag tag =>
    simp only [applyAction]
    split <;> simp [notificationsOf]
  | notify channel message throttle => rfl
  | _ => simp [applyAction, notificationsOf]

theorem notifications_applyActions (input : EvaluationInput) (actions : List Action)
    (result : EvaluationResult) :
    (actions.foldl (applyAction input) result).notifications =
      result.notifications ++ notificationsOf actions := by
  induction actions generalizing result with
  | nil => simp [notificationsOf]
  | cons action rest ih =>
    have hsplit : notificationsOf (action :: rest) =
        notificationsOf [action] ++ notificationsOf rest := List.filterMap_append (l := [action])
    rw [List.foldl_cons, ih, notifications_applyAction, hsplit, List.append_assoc]

theorem outcome_of_matches {d : RuleDefinition} (h : Matches rt input d) :
    outcome rt d input = d.actions.foldl (applyAction input) (.fresh true) := by
  simp [outcome, (matches_iff.mp h).2]

theorem notifications_outcome {d : RuleDefinition} (h : Matches rt input d) :
    (outcome rt d input).notifications = notificationsOf d.actions := by
  rw [outcome_of_matches h, notifications_applyActions]
  rfl

theorem label_of_rank {result : EvaluationResult} (h : LabelMatchesRank result)
    (hpos : 0 < result.severityRank) :
    ∃ severity, result.severity = some severity ∧
      SEVERITY_LEVELS severity = result.severityRank := by
  unfold LabelMatchesRank at h
  cases hlabel : result.severity with
  | none =>
    rw [hlabel] at h
    exact absurd h hpos.ne'
  | some severity =>
    rw [hlabel] at h
    exact ⟨severity, rfl, h.symm⟩

theorem le_of_mem_setSeverityRanks {actions : List Action} {rank : Nat}
    (h : rank ∈ setSeverityRanks actions) : SEVERITY_LEVELS .ok ≤ rank := by
  obtain ⟨action, -, haction⟩ := List.mem_filterMap.mp h
  cases action with
  | setSeverity severity =>
    obtain rfl := Option.some.inj haction
    exact ok_le_SEVERITY_LEVELS severity
  | _ => cases haction

theorem dispatchSeverity_own (done : List (Rule × RuleDefinition)) {entry : Rule × RuleDefinition}
    (h : Matches rt input entry.2) (hown : setSeverityRanks entry.2.actions ≠ []) :
    SEVERITY_LEVELS (dispatchSeverity rt input done entry) =
      (setSeverityRanks entry.2.actions).foldl max 0 := by
  have hrank : (outcome rt entry.2 input).severityRank =
      (setSeverityRanks entry.2.actions).foldl max 0 := outcome_severityRank (matches_iff.mp h).2
  obtain ⟨rank, hmem⟩ := List.exists_mem_of_ne_nil _ hown
  have hpos : 0 < (outcome rt entry.2 input).severityRank := by
    rw [hrank]
    have hok : 0 < SEVERITY_LEVELS .ok := by decide
    exact hok.trans_le ((le_of_mem_setSeverityRanks hmem).trans (le_foldl_max hmem))
  obtain ⟨severity, hlabel, hlevel⟩ := label_of_rank (LabelMatchesRank.outcome rt entry.2 input) hpos
  rw [dispatchSeverity, hlabel, ← hrank]
  exact hlevel

theorem dispatchSeverity_borrowed (done : List (Rule × RuleDefinition))
    {entry : Rule × RuleDefinition} (h : Matches rt input entry.2)
    (hnone : setSeverityRanks entry.2.actions = []) :
    SEVERITY_LEVELS (dispatchSeverity rt input done entry) =
      (matchingRanks rt input (done.map (·.2))).foldl max (SEVERITY_LEVELS .ok) := by
  have hown : (outcome rt entry.2 input).severity = none := by
    have hlabel := LabelMatchesRank.outcome rt entry.2 input
    have hrank : (outcome rt entry.2 input).severityRank = 0 := by
      rw [outcome_severityRank (matches_iff.mp h).2, hnone]
      rfl
    unfold LabelMatchesRank at hlabel
    rw [hrank] at hlabel
    cases hseverity : (outcome rt entry.2 input).severity with
    | none => rfl
    | some severity =>
      rw [hseverity] at hlabel
      have hle := ok_le_SEVERITY_LEVELS severity
      rw [show SEVERITY_LEVELS severity = 0 from hlabel.symm] at hle
      exact absurd hle (by decide)
  have hranks : matchingRanks rt input ((done ++ [entry]).map (·.2)) =
      matchingRanks rt input (done.map (·.2)) := by
    simp [matchingRanks, List.filter_append, (matches_iff.mp h).2, hnone]
  have hrank : (progressAfter rt input (done ++ [entry])).aggregate.severityRank =
      (matchingRanks rt input (done.map (·.2))).foldl max (SEVERITY_LEVELS .ok) := by
    rw [passRank_eq, hranks]
  have hstart : LabelMatchesRank aggregateStart := rfl
  obtain ⟨severity, hlabel, hlevel⟩ := label_of_rank
    (hstart.foldl_absorb rt input ((done ++ [entry]).map (·.2)))
    (Nat.lt_of_lt_of_le (by decide) (hrank ▸ le_foldl_max_start _ (SEVERITY_LEVELS .ok)))
  rw [dispatchSeverity, hown, ← hrank]
  exact (congrArg (fun label => SEVERITY_LEVELS (label.getD .info)) hlabel).trans hlevel

end Severities

/-! ### Two orders -/

/-- The severities of the notifications of a pass are the same in every order of its
    rules. -/
def OrderFree (rt : PyRuntime) (m : MediaFile) (input : EvaluationInput)
    (rules : List (Rule × RuleDefinition)) : Prop :=
  ∀ env : Env, env.rt = rt → ∀ s : Session Tables Outside, inputOf s.working m = input →
    ∀ first second, first.Perm rules → second.Perm rules →
      ∀ request ∈ sent s (evaluateFile env m first true s).2,
        ∀ request' ∈ sent s (evaluateFile env m second true s).2,
          request.ruleId = request'.ruleId → request.severity = request'.severity

/-- A rule that notifies and sets no severity. -/
def Borrows (d : RuleDefinition) : Prop :=
  notificationsOf d.actions ≠ [] ∧ setSeverityRanks d.actions = []

/-- A rule that sets a severity above ok. -/
def Escalates (d : RuleDefinition) : Prop :=
  ∃ rank ∈ setSeverityRanks d.actions, SEVERITY_LEVELS .ok < rank

theorem OrderFree.not_escalates {rt : PyRuntime} {m : MediaFile} {t : Tables}
    {rules : List (Rule × RuleDefinition)} (hnodup : (rules.map (·.1.id)).Nodup)
    (hfree : OrderFree rt m (inputOf t m) rules) {entry other : Rule × RuleDefinition}
    (hentry : entry ∈ rules) (hother : other ∈ rules)
    (hmatches : Matches rt (inputOf t m) entry.2) (hmatches' : Matches rt (inputOf t m) other.2)
    (hborrows : Borrows entry.2) : ¬Escalates other.2 := by
  rintro ⟨rank, hrank, hhigh⟩
  -- the two rules are different, so the list can be arranged to start with either
  have hne : other ≠ entry := by
    rintro rfl
    rw [hborrows.2] at hrank
    cases hrank
  obtain ⟨before, after, rfl⟩ := List.append_of_mem hentry
  have hother' : other ∈ before ++ after := by
    rcases List.mem_append.mp hother with hmem | hmem
    · exact List.mem_append_left _ hmem
    · exact List.mem_append_right _ ((List.mem_cons.mp hmem).resolve_left hne)
  obtain ⟨head, tail, hsplit⟩ := List.append_of_mem hother'
  have hperm : (before ++ entry :: after).Perm (entry :: other :: (head ++ tail)) := by
    refine List.perm_middle.trans (List.Perm.cons entry ?_)
    rw [hsplit]
    exact List.perm_middle
  have hids : other.1.id ≠ entry.1.id := by
    intro heq
    have hnodup' := (hperm.map (·.1.id)).nodup_iff.mp hnodup
    rw [List.map_cons, List.map_cons, List.nodup_cons] at hnodup'
    exact hnodup'.1 (heq ▸ List.mem_cons_self ..)
  obtain ⟨notification, hnotification⟩ := List.exists_mem_of_ne_nil _ hborrows.1
  obtain ⟨first, more, hfirst⟩ : ∃ first more,
      (outcome rt entry.2 (inputOf t m)).notifications = first :: more := by
    rw [notifications_outcome hmatches]
    exact List.exists_cons_of_ne_nil hborrows.1
  let env : Env := { calmEnv with rt := rt, registry := true }
  let s := freshSession { t with windows := .empty }
  have hs : Unused entry.1.id s := ⟨freshSession_live _, rfl⟩
  have hclean : Clean env := ⟨fun _ => rfl, fun _ => rfl⟩
  have hearly := evaluateFile_delivers env hclean rfl (m := m) [] (other :: (head ++ tail))
    (List.forall_mem_nil _) hmatches hfirst hs
  have hlate := evaluateFile_delivers env hclean rfl (m := m) [other] (head ++ tail)
    (fun old hold => by
      rw [List.mem_singleton.mp hold]
      exact ⟨(matches_iff.mp hmatches').1, hids⟩) hmatches hfirst hs
  have hsame := hfree env rfl s rfl _ _ hperm.symm
    ((List.Perm.swap entry other _).trans hperm.symm) _ hearly _ hlate rfl
  have hlevels : SEVERITY_LEVELS (dispatchSeverity rt (inputOf t m) [] entry) =
      SEVERITY_LEVELS (dispatchSeverity rt (inputOf t m) [other] entry) :=
    congrArg SEVERITY_LEVELS hsame
  rw [dispatchSeverity_borrowed _ hmatches hborrows.2,
    dispatchSeverity_borrowed _ hmatches hborrows.2] at hlevels
  have hmem : rank ∈ matchingRanks rt (inputOf t m) ([other].map (·.2)) := by
    simpa [matchingRanks, (matches_iff.mp hmatches').2] using hrank
  have hle := le_foldl_max (a := SEVERITY_LEVELS .ok) hmem
  rw [← hlevels] at hle
  exact absurd hle (not_le.mpr hhigh)

/-- The order matters exactly where a matching rule notifies without a severity of its own
    and another one raises the severity of the file. -/
theorem severity_order_free_iff (rt : PyRuntime) (m : MediaFile) (t : Tables)
    (rules : List (Rule × RuleDefinition)) (hnodup : (rules.map (·.1.id)).Nodup) :
    OrderFree rt m (inputOf t m) rules ↔
      ∀ entry ∈ rules, ∀ other ∈ rules, Matches rt (inputOf t m) entry.2 →
        Matches rt (inputOf t m) other.2 → Borrows entry.2 → ¬Escalates other.2 := by
  constructor
  · intro hfree entry hentry other hother hmatches hmatches' hborrows
    exact hfree.not_escalates hnodup hentry hother hmatches hmatches' hborrows
  · rintro hcalm env rfl s hinput first second hfirst hsecond request hrequest request' hrequest' hid
    have hsent := evaluateFile_sends env m first s
    have hsent' := evaluateFile_sends env m second s
    rw [hinput] at hsent hsent'
    obtain ⟨done, entry, rest, rfl, hdone, hmatches, notification, hnotification, rfl⟩ :=
      hsent.of_mem_sent hrequest
    obtain ⟨done', entry', rest', rfl, hdone', hmatches', notification', -, rfl⟩ :=
      hsent'.of_mem_sent hrequest'
    have hentry : entry ∈ rules := hfirst.mem_iff.mp (by simp)
    have hentry' : entry' ∈ rules := hsecond.mem_iff.mp (by simp)
    obtain rfl : entry = entry' := List.inj_on_of_nodup_map hnodup hentry hentry' hid
    apply SEVERITY_LEVELS_injective
    show SEVERITY_LEVELS (dispatchSeverity env.rt (inputOf t m) done entry) =
      SEVERITY_LEVELS (dispatchSeverity env.rt (inputOf t m) done' entry)
    by_cases hown : setSeverityRanks entry.2.actions = []
    · have hborrows : Borrows entry.2 := by
        rw [notifications_outcome hmatches] at hnotification
        exact ⟨List.ne_nil_of_mem hnotification, hown⟩
      -- no rule before it, in whichever order, raises the severity
      have hcalmed : ∀ before : List (Rule × RuleDefinition), (∀ old ∈ before, old ∈ rules) →
          (∀ old ∈ before, evaluable env.rt (inputOf t m) old.2.match_ = true) →
          (matchingRanks env.rt (inputOf t m) (before.map (·.2))).foldl max (SEVERITY_LEVELS .ok) =
            SEVERITY_LEVELS .ok := by
        intro before hbefore hevaluable
        refine le_antisymm (foldl_max_le.mpr ⟨le_rfl, fun rank hrank => ?_⟩)
          (le_foldl_max_start _ _)
        obtain ⟨old, hmatching, hmem⟩ := mem_matchingRanks.mp hrank
        obtain ⟨hold, hverdict⟩ := mem_matching.mp hmatching
        have hquiet := hcalm entry hentry old (hbefore old hold) hmatches
          (matches_iff.mpr ⟨hevaluable old hold, hverdict⟩) hborrows
        by_contra hhigh
        exact hquiet ⟨rank, hmem, not_le.mp hhigh⟩
      rw [dispatchSeverity_borrowed _ hmatches hown, dispatchSeverity_borrowed _ hmatches hown,
        hcalmed done (fun old hold => hfirst.mem_iff.mp (List.mem_append_left _ hold)) hdone,
        hcalmed done' (fun old hold => hsecond.mem_iff.mp (List.mem_append_left _ hold)) hdone']
    · rw [dispatchSeverity_own _ hmatches hown, dispatchSeverity_own _ hmatches hown]

/-! ### A file flagged by one rule and announced by another -/

theorem notify_lengthsAllowed : (Action.notify "ops" none none).lengthsAllowed = true :=
  rfl

theorem notify_not_isDelete : (Action.notify "ops" none none).isDelete = false :=
  rfl

/-- Every `avi` file is announced, with the severity it happens to have. -/
def announceAvi : RuleDefinition :=
  simpleRule .extension .eq (.str "avi") (.notify "ops" none none) eq_mem_opsForField_extension
    avi_allowed notify_lengthsAllowed notify_not_isDelete

/-- Every `avi` file is critical. -/
def flagAvi : RuleDefinition :=
  simpleRule .extension .eq (.str "avi") (.setSeverity .crit) eq_mem_opsForField_extension
    avi_allowed (setSeverity_lengthsAllowed .crit) (setSeverity_not_isDelete .crit)

def aviFile : MediaFile := .unprobed "f1" "l1" "/media/a.avi" "avi"

/-- Announced before it is flagged the file is ok, announced after it is critical. -/
theorem severity_order_matters :
    ¬∀ (rt : PyRuntime) (m : MediaFile) (t : Tables) (rules : List (Rule × RuleDefinition)),
      (rules.map (·.1.id)).Nodup → OrderFree rt m (inputOf t m) rules := by
  intro hfree
  have hone := hfree calmEnv.rt aviFile .empty
    [(storedRule "r1" announceAvi, announceAvi), (storedRule "r2" flagAvi, flagAvi)] (by decide)
  refine hone.not_escalates (by decide) (List.mem_cons_self ..)
    (List.mem_cons_of_mem _ (List.mem_cons_self ..)) rfl rfl ⟨by decide, rfl⟩ ?_
  exact ⟨100, by decide, by decide⟩

/-- Without a rule that raises the severity, the announcement is the same in both orders. -/
theorem severity_order_free_iff_avi :
    OrderFree calmEnv.rt aviFile (inputOf .empty aviFile)
        [(storedRule "r1" announceAvi, announceAvi), (storedRule "r2" extensionIsAvi, extensionIsAvi)] ↔
      ∀ entry ∈ [(storedRule "r1" announceAvi, announceAvi),
          (storedRule "r2" extensionIsAvi, extensionIsAvi)],
        ∀ other ∈ [(storedRule "r1" announceAvi, announceAvi),
          (storedRule "r2" extensionIsAvi, extensionIsAvi)],
          Matches calmEnv.rt (inputOf .empty aviFile) entry.2 →
          Matches calmEnv.rt (inputOf .empty aviFile) other.2 → Borrows entry.2 →
          ¬Escalates other.2 :=
  severity_order_free_iff calmEnv.rt aviFile .empty _ (by decide)

end NotifyRequests
