/-
  Auditarr/ThrottleWindows.lean
  =============================
  **One counter for all throttles of a rule.**

  The counter rows of a rule are keyed by the start of the window alone.  Its notify actions
  share them whatever their window lengths and maxima are, and the counter is also what tells
  whether the suppression of a window was logged.  Here the gate is followed over the calls of
  a rule whose actions carry any throttles.
-/
import Auditarr.NotifyRequests
import Auditarr.NotifyThrottle

namespace ThrottleWindows

open Effects Transactions KeyedTable RuleSchema RuleEvaluator RuleAggregation Database RulesService
open RulesEffect RulesTotality NotifyThrottle NotifyRequests

/-! ### The calls of a rule -/

/-- The gate asked for one notify action, at a time in seconds, and its answer. -/
structure GateCall where
  throttle : NotifyThrottle
  now : Nat
  allow : Bool

namespace GateCall

/-- The start of the window, which is what the row is found by. -/
def start (c : GateCall) : Nat := c.now - c.now % c.throttle.windowSeconds

/-- The window of the throttle, from its start to its end. -/
def window (c : GateCall) : Nat × Nat := (c.start, c.start + c.throttle.windowSeconds)

/-- The calls that were counted in the row that this call finds. -/
def shared (c : GateCall) (earlier : List GateCall) : Nat :=
  earlier.countP fun c' => c'.start = c.start

/-- The calls of the window of this call. -/
def own (c : GateCall) (earlier : List GateCall) : Nat :=
  earlier.countP fun c' => c'.window = c.window

end GateCall

/-- The calls of the gate for one rule up to a session, the latest first.  The rule starts
    without rows and without entries, and between two calls anything may happen that leaves
    those alone. -/
inductive History (ruleId : String) : List GateCall → Session Tables Outside → Prop where
  | start (s : Session Tables Outside) (hrows : ∀ k, s.working.windows.find? (ruleId, k) = none)
      (hlogged : logged ruleId s.working = []) : History ruleId [] s
  | between {h : List GateCall} {s s' : Session Tables Outside} (hsofar : History ruleId h s)
      (hrows : ∀ k, s'.working.windows.find? (ruleId, k) = s.working.windows.find? (ruleId, k))
      (hlogged : logged ruleId s'.working = logged ruleId s.working) : History ruleId h s'
  | call {h : List GateCall} {s s' : Session Tables Outside} (env : Env) (ruleName : String)
      (throttle : NotifyThrottle) (now : Nat) (allow : Bool) (hsofar : History ruleId h s)
      (hrun : throttleGate env ruleId ruleName throttle now s = (.ok allow, s')) (hlive : s'.Live) :
      History ruleId (⟨throttle, now, allow⟩ :: h) s'

/-- The windows whose suppression was logged: a call does so if the counter stands at its own
    maximum. -/
def crossed : List GateCall → List (Nat × Nat)
  | [] => []
  | c :: earlier =>
      crossed earlier ++ if c.shared earlier = c.throttle.maxPerWindow then [c.window] else []

theorem History.records {ruleId : String} {h : List GateCall} {s : Session Tables Outside}
    (hsofar : History ruleId h s) :
    (∀ k, counted s.working.windows ruleId k = h.countP fun c => c.start = k) ∧
      logged ruleId s.working = crossed h ∧
      ∀ c earlier, c :: earlier <:+ h →
        c.allow = decide (c.shared earlier < c.throttle.maxPerWindow) := by
  induction hsofar with
  | start s hrows hlogged =>
    refine ⟨?_, hlogged, ?_⟩
    · intro k
      rw [counted, hrows k]
      rfl
    · intro c earlier hsuffix
      exact absurd (List.suffix_nil.mp hsuffix) (List.cons_ne_nil _ _)
  | between _ hrows hlogged ih =>
    refine ⟨?_, hlogged.trans ih.2.1, ih.2.2⟩
    intro k
    rw [counted, hrows k]
    exact ih.1 k
  | @call h s s' env ruleName throttle now allow _ hrun hlive ih =>
    obtain ⟨hcounted, hlogged, hanswers⟩ := ih
    have hgate := (triple_throttleGate ruleId ruleName throttle now s.working.windows _).of_ok
      ⟨trivial, fun _ => ⟨rfl, rfl⟩⟩ hrun
    obtain ⟨⟨hallow, hcounts⟩, hentry⟩ := hgate.2 hlive
    rw [hcounted] at hallow hentry
    refine ⟨?_, ?_, ?_⟩
    · intro k
      rw [hcounts k, hcounted k, List.countP_cons]
      simp [GateCall.start, eq_comm]
    · rw [hentry, hlogged]
      rfl
    · intro c earlier hsuffix
      rcases List.suffix_cons_iff.mp hsuffix with heq | hbefore
      · obtain ⟨rfl, rfl⟩ := List.cons.inj heq
        exact hallow
      · exact hanswers c earlier hbefore

/-! ### The promise -/

/-- Every window is logged at most once, and a call is suppressed only if the calls of its own
    window alone fill its maximum. -/
def KeepsApart (ruleId : String) (h : List GateCall) (s : Session Tables Outside) : Prop :=
  (logged ruleId s.working).Nodup ∧
    ∀ c earlier, c :: earlier <:+ h → c.allow = false → c.throttle.maxPerWindow ≤ c.own earlier

/-- No two calls of one window come when their starts have been asked for exactly as often as
    their own maxima say, and a call that comes after enough others with its start comes after
    enough others of its window. -/
structure Compatible (h : List GateCall) : Prop where
  entries : ∀ c earlier c' earlier', c :: earlier <:+ h → c' :: earlier' <:+ earlier →
    c'.window = c.window → c.shared earlier = c.throttle.maxPerWindow →
    c'.shared earlier' ≠ c'.throttle.maxPerWindow
  rows : ∀ c earlier, c :: earlier <:+ h → c.throttle.maxPerWindow ≤ c.shared earlier →
    c.throttle.maxPerWindow ≤ c.own earlier

theorem mem_crossed {window : Nat × Nat} {h : List GateCall} :
    window ∈ crossed h ↔ ∃ c earlier, c :: earlier <:+ h ∧ c.window = window ∧
      c.shared earlier = c.throttle.maxPerWindow := by
  induction h with
  | nil => simp [crossed]
  | cons c earlier ih =>
    simp only [crossed, List.mem_append, ih, List.suffix_cons_iff]
    constructor
    · rintro (⟨c', earlier', hsuffix, hwindow, hfull⟩ | hlast)
      · exact ⟨c', earlier', .inr hsuffix, hwindow, hfull⟩
      · split at hlast
        · rename_i hfull
          exact ⟨c, earlier, .inl rfl, (List.mem_singleton.mp hlast).symm, hfull⟩
        · exact absurd hlast List.not_mem_nil
    · rintro ⟨c', earlier', heq | hsuffix, hwindow, hfull⟩
      · obtain ⟨rfl, rfl⟩ := List.cons.inj heq
        rw [if_pos hfull]
        exact .inr (List.mem_singleton.mpr hwindow.symm)
      · exact .inl ⟨c', earlier', hsuffix, hwindow, hfull⟩

theorem nodup_crossed_iff {h : List GateCall} :
    (crossed h).Nodup ↔ ∀ c earlier c' earlier', c :: earlier <:+ h → c' :: earlier' <:+ earlier →
      c'.window = c.window → c.shared earlier = c.throttle.maxPerWindow →
      c'.shared earlier' ≠ c'.throttle.maxPerWindow := by
  induction h with
  | nil => simp [crossed]
  | cons c earlier ih =>
    have hlast : (crossed (c :: earlier)).Nodup ↔ (crossed earlier).Nodup ∧
        (c.shared earlier = c.throttle.maxPerWindow → c.window ∉ crossed earlier) := by
      rw [crossed]
      split
      · rename_i hfull
        rw [List.nodup_append_comm]
        simp [hfull, and_comm]
      · rename_i hfull
        simp [hfull]
    rw [hlast, ih]
    constructor
    · rintro ⟨hbefore, hnew⟩ c₁ earlier₁ c₂ earlier₂ hfirst hsecond hwindow hfull hfull'
      rcases List.suffix_cons_iff.mp hfirst with heq | hsuffix
      · obtain ⟨rfl, rfl⟩ := List.cons.inj heq
        exact hnew hfull (mem_crossed.mpr ⟨c₂, earlier₂, hsecond, hwindow, hfull'⟩)
      · exact hbefore c₁ earlier₁ c₂ earlier₂ hsuffix hsecond hwindow hfull hfull'
    · intro hall
      constructor
      · intro c₁ earlier₁ c₂ earlier₂ hfirst
        exact hall c₁ earlier₁ c₂ earlier₂ (hfirst.trans (List.suffix_cons _ _))
      · intro hfull hmem
        obtain ⟨c', earlier', hsuffix, hwindow, hfull'⟩ := mem_crossed.mp hmem
        exact hall c earlier c' earlier' List.suffix_rfl hsuffix hwindow hfull hfull'

/-- The throttles of a rule are kept apart in exactly the histories that never bring them into
    conflict. -/
theorem throttles_apart_iff (ruleId : String) (h : List GateCall) (s : Session Tables Outside)
    (hsofar : History ruleId h s) : KeepsApart ruleId h s ↔ Compatible h := by
  obtain ⟨-, hlogged, hanswers⟩ := hsofar.records
  have hsuppressed : ∀ c earlier, c :: earlier <:+ h →
      (c.allow = false ↔ c.throttle.maxPerWindow ≤ c.shared earlier) := by
    intro c earlier hsuffix
    rw [hanswers c earlier hsuffix, decide_eq_false_iff_not, Nat.not_lt]
  unfold KeepsApart
  rw [hlogged, nodup_crossed_iff]
  constructor
  · rintro ⟨hentries, hrows⟩
    refine ⟨hentries, ?_⟩
    intro c earlier hsuffix hfull
    exact hrows c earlier hsuffix ((hsuppressed c earlier hsuffix).mpr hfull)
  · intro hcompatible
    refine ⟨hcompatible.entries, ?_⟩
    intro c earlier hsuffix hallow
    exact hcompatible.rows c earlier hsuffix ((hsuppressed c earlier hsuffix).mp hallow)

/-- What the gate leaves of a fresh session, call after call, the last one first. -/
def afterCalls : List (NotifyThrottle × Nat) → Session Tables Outside
  | [] => freshSession .empty
  | (throttle, now) :: earlier =>
      (throttleGate calmEnv "big" "big" throttle now (afterCalls earlier)).2

theorem minute_ge : 60 ≤ 60 := by
  exact Nat.le_refl 60

theorem hour_ge : 60 ≤ 3600 := by
  decide

theorem once_ge : 1 ≤ 1 := by
  exact Nat.le_refl 1

theorem twice_ge : 1 ≤ 2 := by
  exact Nat.le_succ 1

def twicePerMinute : NotifyThrottle := ⟨60, 2, minute_ge, twice_ge⟩

def perHour : NotifyThrottle := ⟨3600, 1, hour_ge, once_ge⟩

theorem history_apart :
    History "big" [⟨perMinute, 60, true⟩, ⟨perMinute, 1, false⟩, ⟨perMinute, 0, true⟩]
      (afterCalls [(perMinute, 60), (perMinute, 1), (perMinute, 0)]) := by
  have hfirst : History "big" [⟨perMinute, 0, true⟩] (afterCalls [(perMinute, 0)]) :=
    .call calmEnv "big" perMinute 0 true (.start (freshSession .empty) (fun _ => rfl) rfl) rfl
      ⟨rfl, rfl⟩
  have hsecond : History "big" [⟨perMinute, 1, false⟩, ⟨perMinute, 0, true⟩]
      (afterCalls [(perMinute, 1), (perMinute, 0)]) :=
    .call calmEnv "big" perMinute 1 false hfirst rfl ⟨rfl, rfl⟩
  exact .call calmEnv "big" perMinute 60 true hsecond rfl ⟨rfl, rfl⟩

theorem throttles_apart_iff_minute :
    KeepsApart "big" [⟨perMinute, 60, true⟩, ⟨perMinute, 1, false⟩, ⟨perMinute, 0, true⟩]
        (afterCalls [(perMinute, 60), (perMinute, 1), (perMinute, 0)]) ↔
      Compatible [⟨perMinute, 60, true⟩, ⟨perMinute, 1, false⟩, ⟨perMinute, 0, true⟩] :=
  throttles_apart_iff _ _ _ history_apart

theorem history_two_maxima :
    History "big" [⟨twicePerMinute, 1, false⟩, ⟨perMinute, 0, false⟩, ⟨twicePerMinute, 0, true⟩]
      (afterCalls [(twicePerMinute, 1), (perMinute, 0), (twicePerMinute, 0)]) := by
  have hfirst : History "big" [⟨twicePerMinute, 0, true⟩] (afterCalls [(twicePerMinute, 0)]) :=
    .call calmEnv "big" twicePerMinute 0 true (.start (freshSession .empty) (fun _ => rfl) rfl)
      rfl ⟨rfl, rfl⟩
  have hsecond : History "big" [⟨perMinute, 0, false⟩, ⟨twicePerMinute, 0, true⟩]
      (afterCalls [(perMinute, 0), (twicePerMinute, 0)]) :=
    .call calmEnv "big" perMinute 0 false hfirst rfl ⟨rfl, rfl⟩
  exact .call calmEnv "big" twicePerMinute 1 false hsecond rfl ⟨rfl, rfl⟩

theorem history_two_lengths :
    History "big" [⟨perHour, 0, false⟩, ⟨perMinute, 0, true⟩]
      (afterCalls [(perHour, 0), (perMinute, 0)]) := by
  have hfirst : History "big" [⟨perMinute, 0, true⟩] (afterCalls [(perMinute, 0)]) :=
    .call calmEnv "big" perMinute 0 true (.start (freshSession .empty) (fun _ => rfl) rfl) rfl
      ⟨rfl, rfl⟩
  exact .call calmEnv "big" perHour 0 false hfirst rfl ⟨rfl, rfl⟩

/-- One minute is logged twice, and the first notification of an hour is suppressed by the
    delivery of another action. -/
theorem throttles_interfere :
    (¬∀ (ruleId : String) (h : List GateCall) (s : Session Tables Outside), History ruleId h s →
      (logged ruleId s.working).Nodup) ∧
    ¬∀ (ruleId : String) (h : List GateCall) (s : Session Tables Outside), History ruleId h s →
      ∀ c earlier, c :: earlier <:+ h → c.allow = false →
        c.throttle.maxPerWindow ≤ c.own earlier := by
  constructor
  · intro honce
    have htwice : (logged "big" (afterCalls
        [(twicePerMinute, 1), (perMinute, 0), (twicePerMinute, 0)]).working).Nodup :=
      honce _ _ _ history_two_maxima
    exact absurd htwice (by decide)
  · intro hown
    have hhour := hown _ _ _ history_two_lengths _ _ List.suffix_rfl rfl
    exact absurd hhour (by decide)

theorem Compatible.of_single {h : List GateCall} {throttle : NotifyThrottle}
    (hsingle : ∀ c ∈ h, c.throttle = throttle) : Compatible h := by
  have hsame : ∀ c earlier, c :: earlier <:+ h → c.own earlier = c.shared earlier := by
    intro c earlier hsuffix
    apply List.countP_congr
    intro c' hc'
    have hc : c.throttle = throttle := hsingle c (hsuffix.subset List.mem_cons_self)
    have hc'' : c'.throttle = throttle :=
      hsingle c' (hsuffix.subset (List.mem_cons_of_mem _ hc'))
    simp [GateCall.window, hc, hc'']
  refine ⟨?_, ?_⟩
  · intro c earlier c' earlier' hfirst hsecond hwindow hfull hfull'
    have hstart : c'.start = c.start := congrArg Prod.fst hwindow
    -- the row had counted `c'` itself by the time of `c`
    have hlt : c'.shared earlier' < c.shared earlier := by
      obtain ⟨between, rfl⟩ := hsecond
      unfold GateCall.shared
      rw [List.countP_append, List.countP_cons_of_pos (by simpa using hstart), hstart]
      omega
    have hc : c.throttle = throttle := hsingle c (hfirst.subset List.mem_cons_self)
    have hc' : c'.throttle = throttle :=
      hsingle c' (hfirst.subset (List.mem_cons_of_mem _ (hsecond.subset List.mem_cons_self)))
    rw [hfull, hfull', hc, hc'] at hlt
    exact absurd hlt (Nat.lt_irrefl _)
  · intro c earlier hsuffix hfull
    rw [hsame c earlier hsuffix]
    exact hfull

/-! ### The evaluations of a rule -/

section Evaluations

variable {env : Env} {α : Type} {h : List GateCall} {s s' : Session Tables Outside}

theorem live_before {γ : Type} {f : Tables → γ} {c : Service α} {outcome : Except ServiceError α}
    (hc : Within (Keeps f fun _ : Outside => ()) c) (hrun : c s = (outcome, s'))
    (hlive : s'.Live) : s.Live ∧ f s'.working = f s.working := by
  have hkeeps := hc s
  rw [hrun] at hkeeps
  exact hkeeps.2.2 hlive

theorem History.quiet {ruleId : String} {c : Service α} {outcome : Except ServiceError α}
    (hsofar : History ruleId h s)
    (hc : Within (Keeps (fun t : Tables => (t.windows, t.auditLog)) fun _ : Outside => ()) c)
    (hrun : c s = (outcome, s')) (hlive : s'.Live) : History ruleId h s' := by
  obtain ⟨hwindows, haudit⟩ := Prod.mk.inj (live_before hc hrun hlive).2
  refine .between hsofar ?_ ?_
  · intro k
    rw [hwindows]
  · unfold logged
    rw [haudit]

/-- What a list of notifications asks the gate, the last one first. -/
def asked (now : Nat) (notifications : List Notification) : List (NotifyThrottle × Nat) :=
  ((notifications.filterMap (·.throttle)).map fun throttle => (throttle, now)).reverse

theorem History.notify {m : MediaFile} {rule : Rule} {definition : RuleDefinition}
    {severity : Severity} {now : Nat} {notification : Notification}
    (hsofar : History rule.id h s)
    (hrun : RulesService.notify env m rule definition severity now notification s = (.ok (), s'))
    (hlive : s'.Live) :
    ∃ calls, History rule.id (calls ++ h) s' ∧
      calls.map (fun c => (c.throttle, c.now)) = asked now [notification] := by
  unfold RulesService.notify at hrun
  obtain ⟨ruleId, s₁, hload, hrun⟩ := Call.of_bind_ok hrun
  rcases load_cases env rule.id s with hread | ⟨e, hfailed⟩
  · obtain ⟨hid, rfl⟩ := Prod.mk.inj (hload.symm.trans hread)
    obtain rfl := Except.ok.inj hid
    obtain ⟨allow, s₂, hgate, hsend⟩ := Call.of_bind_ok hrun
    have hquiet := keeps_sending env m rule allow fun mediaFileId =>
      { severity := severity, ruleId := rule.id, ruleName := rule.name,
        mediaFileId := mediaFileId, path := m.path, filename := m.filename,
        channel := notification.channel,
        autoDelete := definition.actions.any Action.isDelete,
        messageOverride := notification.message }
    cases hthrottle : notification.throttle with
    | none =>
      rw [hthrottle] at hgate
      obtain ⟨-, rfl⟩ := Prod.mk.inj hgate
      exact ⟨[], hsofar.quiet hquiet hsend hlive, by simp [asked, hthrottle]⟩
    | some throttle =>
      rw [hthrottle] at hgate
      have hmid : s₂.Live := (live_before hquiet hsend hlive).1
      have hcall : History rule.id (⟨throttle, now, allow⟩ :: h) s₂ :=
        .call env rule.name throttle now allow hsofar hgate hmid
      exact ⟨[_], hcall.quiet hquiet hsend hlive, by simp [asked, hthrottle]⟩
  · rw [hfailed] at hload
    cases hload

theorem keeps_notify (env : Env) (m : MediaFile) (rule : Rule) (definition : RuleDefinition)
    (severity : Severity) (now : Nat) (notification : Notification) :
    Within (Keeps (fun _ : Tables => ()) fun _ : Outside => ())
      (RulesService.notify env m rule definition severity now notification) := by
  refine within_bind (keeps_load _) fun _ => within_bind ?_ fun _ => ?_
  · exact keeps_throttleAllows _ _ _ (fun _ _ _ => rfl) fun _ _ => rfl
  · exact (keeps_sending env m rule _ _).mono fun _ _ hkeeps =>
      hkeeps.imp (fun _ _ _ => rfl) fun _ _ _ => rfl

theorem History.notifications {m : MediaFile} {rule : Rule} {definition : RuleDefinition}
    {severity : Severity} {now : Nat} (notifications : List Notification)
    (hsofar : History rule.id h s)
    (hrun : Call.forEach (RulesService.notify env m rule definition severity now) notifications s =
      (.ok (), s'))
    (hlive : s'.Live) :
    ∃ calls, History rule.id (calls ++ h) s' ∧
      calls.map (fun c => (c.throttle, c.now)) = asked now notifications := by
  induction notifications generalizing h s with
  | nil =>
    obtain ⟨-, rfl⟩ := Prod.mk.inj hrun
    exact ⟨[], hsofar, rfl⟩
  | cons notification rest ih =>
    obtain ⟨_, s₁, hfirst, hrest⟩ := Call.of_bind_ok hrun
    have hmid : s₁.Live := (live_before (within_forEach rest fun notification' _ =>
      keeps_notify env m rule definition severity now notification') hrest hlive).1
    obtain ⟨calls, hcalls, hasked⟩ := hsofar.notify hfirst hmid
    obtain ⟨more, hmore, hasked'⟩ := ih hcalls hrest
    refine ⟨more ++ calls, ?_, ?_⟩
    · rw [List.append_assoc]
      exact hmore
    · rw [List.map_append, hasked, hasked', asked, asked, asked, ← List.reverse_append,
        ← List.map_append, ← List.filterMap_append, List.singleton_append]

theorem History.persistMatch (hregistry : env.registry = true) {m : MediaFile}
    {input : EvaluationInput} {now : Nat} {rule : Rule} {definition : RuleDefinition}
    {aggregate : EvaluationResult} (hmatches : Matches env.rt input definition)
    (hsofar : History rule.id h s)
    (hrun : RulesService.persistMatch env m input now rule definition
      (outcome env.rt definition input) aggregate s = (.ok (), s')) (hlive : s'.Live) :
    ∃ calls, History rule.id (calls ++ h) s' ∧
      calls.map (fun c => (c.throttle, c.now)) =
        asked now (notificationsOf definition.actions) := by
  rw [← notifications_outcome hmatches]
  unfold RulesService.persistMatch at hrun
  obtain ⟨_, s₁, hload, hrun⟩ := Call.of_bind_ok hrun
  obtain ⟨_, s₂, hrow, hrun⟩ := Call.of_bind_ok hrun
  obtain ⟨_, s₃, hqueue, hsend⟩ := Call.of_bind_ok hrun
  rw [hregistry] at hsend
  have hquiet := within_forEach (outcome env.rt definition input).queueOptimizations
    fun name _ => keeps_queueOptimization env m rule input.tags now name
  have hlive₃ : s₃.Live := (live_before (within_forEach _ fun notification _ =>
    keeps_notify env m rule definition _ now notification) hsend hlive).1
  have hlive₂ : s₂.Live := (live_before hquiet hqueue hlive₃).1
  have hlive₁ : s₁.Live := (live_before (keeps_upsertEvaluation env _) hrow hlive₂).1
  have hbefore := ((hsofar.quiet (keeps_load _) hload hlive₁).quiet
    (keeps_upsertEvaluation env _) hrow hlive₂).quiet hquiet hqueue hlive₃
  exact hbefore.notifications _ hsend hlive

end Evaluations

end ThrottleWindows
