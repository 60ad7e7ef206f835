/-
  Auditarr/NotifyThrottle.lean
  ============================
  **What the throttle of a notification promises and what the gate counts.**

  `NotifyThrottle` speaks of at most `max_per_window` deliveries inside any rolling
  window.  `_throttle_gate` floors the time of an evaluation to a multiple of the
  window length and counts in the row of that aligned window.  Here the gate is
  followed over a whole history of evaluations of one rule, and its deliveries turn
  out to be those of a limiter with aligned windows.
-/
import Auditarr.RulesService
import Auditarr.RollingWindow

namespace NotifyThrottle

open Effects Transactions KeyedTable RuleSchema Database RulesService RollingWindow

/-! ### One call of the gate -/

/-- The counter of an aligned window of a rule; without a row nothing was counted. -/
def counted (windows : Table fun w : RuleNotificationWindow => (w.ruleId, w.windowStart))
    (ruleId : String) (windowStart : Nat) : Nat :=
  ((windows.find? (ruleId, windowStart)).map (·.count)).getD 0

theorem counted_upsert {windows : Table fun w : RuleNotificationWindow => (w.ruleId, w.windowStart)}
    (row : RuleNotificationWindow) (windowStart : Nat) :
    counted (windows.upsert row) row.ruleId windowStart =
      if windowStart = row.windowStart then row.count else counted windows row.ruleId windowStart := by
  unfold counted
  by_cases hstart : windowStart = row.windowStart
  · have hfind : (windows.upsert row).find? (row.ruleId, windowStart) = some row := by
      rw [Table.find?_eq_some, Table.mem_upsert]
      exact ⟨.inl rfl, by rw [hstart]⟩
    rw [if_pos hstart, hfind]; rfl
  · rw [if_neg hstart]
    have hfind : (windows.upsert row).find? (row.ruleId, windowStart) =
        windows.find? (row.ruleId, windowStart) := by
      have hne : (row.ruleId, windowStart) ≠ (row.ruleId, row.windowStart) := by
        intro heq
        exact hstart (Prod.mk.inj heq).2
      cases hold : windows.find? (row.ruleId, windowStart) with
      | none =>
        rw [Table.find?_eq_none] at hold ⊢
        intro r hr
        rcases Table.mem_upsert.mp hr with rfl | ⟨hmem, -⟩
        · exact fun heq => hne heq.symm
        · exact hold r hmem
      | some old =>
        rw [Table.find?_eq_some] at hold ⊢
        refine ⟨Table.mem_upsert.mpr (.inr ⟨hold.1, ?_⟩), hold.2⟩
        rw [hold.2]
        exact hne
    rw [hfind]

section Gate

variable {env : Env}

/-- What the gate answers and leaves behind when it starts on these counters. -/
def Counts (ruleId : String) (throttle : NotifyThrottle) (windowStart : Nat)
    (windows : Table fun w : RuleNotificationWindow => (w.ruleId, w.windowStart)) (allow : Bool)
    (t : Tables) : Prop :=
  allow = decide (counted windows ruleId windowStart < throttle.maxPerWindow) ∧
    ∀ k, counted t.windows ruleId k =
      counted windows ruleId k + if k = windowStart then 1 else 0

theorem Counts.of_put {ruleId : String} {throttle : NotifyThrottle} {allow : Bool} {t : Tables}
    (row : RuleNotificationWindow) (hrule : row.ruleId = ruleId)
    (hcount : row.count = counted t.windows ruleId row.windowStart + 1)
    (hallow : allow = decide (counted t.windows ruleId row.windowStart < throttle.maxPerWindow)) :
    Counts ruleId throttle row.windowStart t.windows allow (t.putWindow row) := by
  refine ⟨hallow, ?_⟩
  intro k
  subst hrule
  rw [Tables.putWindow, counted_upsert]
  by_cases hk : k = row.windowStart
  · rw [if_pos hk, if_pos hk, hcount, hk]
  · rw [if_neg hk, if_neg hk, Nat.add_zero]

/-- The audit entries about suppressed notifications of a rule, by the window they name. -/
def summary (ruleId : String) (entry : AuditLogEntry) : Option (Nat × Nat) :=
  match entry.metadata with
  | .ruleThrottled _ windowStart windowEnd _ =>
      if entry.targetId = ruleId then some (windowStart, windowEnd) else none
  | _ => none

def logged (ruleId : String) (t : Tables) : List (Nat × Nat) :=
  t.auditLog.filterMap (summary ruleId)

/-- What the gate counts and answers, and the entry it writes when the counter stands at
    the maximum. -/
def Records (ruleId : String) (throttle : NotifyThrottle) (windowStart : Nat)
    (windows : Table fun w : RuleNotificationWindow => (w.ruleId, w.windowStart))
    (entries : List (Nat × Nat)) (allow : Bool) (t : Tables) : Prop :=
  Counts ruleId throttle windowStart windows allow t ∧
    logged ruleId t = entries ++
      if counted windows ruleId windowStart = throttle.maxPerWindow then
        [(windowStart, windowStart + throttle.windowSeconds)] else []

/-- A gate that returns on a session that stays live has counted this evaluation, let it
    pass exactly if its window had room, and logged it if the counter stood at the maximum. -/
theorem triple_throttleGate (ruleId ruleName : String) (throttle : NotifyThrottle) (now : Nat)
    (windows : Table fun w : RuleNotificationWindow => (w.ruleId, w.windowStart))
    (entries : List (Nat × Nat)) :
    Triple (Holding (ω := Outside) (fun _ => True)
        fun t => t.windows = windows ∧ logged ruleId t = entries)
      (throttleGate env ruleId ruleName throttle now)
      (fun allow => Holding (fun _ => True)
        (Records ruleId throttle (now - now % throttle.windowSeconds) windows entries allow))
      (fun _ => Holding (fun _ => True) fun _ => True) := by
  have hquiet : ∀ {α : Type} {c : Service α} {P : Tables → Prop},
      Within (Keeps (fun t : Tables => t) fun _ : Outside => ()) c →
      Triple (Holding (fun _ => True) P) c (fun _ => Holding (fun _ => True) P)
        (fun _ => Holding (fun _ => True) fun _ => True) := by
    intro α c P hc
    refine (triple_of_keeps hc ?_).consequence (fun _ hs => hs) (fun _ _ hs => hs)
      fun _ _ hs => hs.imp fun _ _ => trivial
    intro t t' heq hP
    rw [heq]
    exact hP
  have hflush : ∀ {P : Tables → Prop}, Triple (Holding (fun _ => True) P)
      (flush env.db : Service Unit) (fun _ => Holding (fun _ => True) P)
        (fun _ => Holding (fun _ => True) fun _ => True) := by
    intro P
    exact hquiet keeps_flush
  unfold throttleGate
  refine ((triple_select _).consequence (fun _ hs => hs) (fun _ _ hs => hs)
    fun _ _ hs => hs.imp fun _ _ => trivial).bind fun existing => ?_
  cases existing with
  | none =>
    refine Triple.bind (triple_edit (Q := Records ruleId throttle
      (now - now % throttle.windowSeconds) windows entries true) ?_) fun _ =>
        hflush.bind fun _ _ hs => hs
    rintro t ⟨⟨rfl, rfl⟩, hfind⟩
    have hzero : counted t.windows ruleId (now - now % throttle.windowSeconds) = 0 := by
      rw [counted, ← hfind]; rfl
    have hmax := throttle.max_ge
    constructor
    · refine Counts.of_put ⟨ruleId, now - now % throttle.windowSeconds, _, 1⟩ rfl ?_ ?_
      · exact congrArg (· + 1) hzero.symm
      · rw [hzero, eq_comm, decide_eq_true_eq]
        omega
    · rw [if_neg (by omega), List.append_nil]
      rfl
  | some row =>
    have hrow : ∀ t : Tables, some row =
        t.windows.find? (ruleId, now - now % throttle.windowSeconds) →
        (row.ruleId = ruleId ∧ row.windowStart = now - now % throttle.windowSeconds) ∧
          counted t.windows ruleId (now - now % throttle.windowSeconds) = row.count := by
      intro t hfind
      refine ⟨Prod.mk.inj (Table.mem_of_find? hfind.symm).2, ?_⟩
      rw [counted, ← hfind]; rfl
    by_cases hunder : row.count < throttle.maxPerWindow
    · simp only [hunder, if_true]
      refine Triple.bind (triple_edit (Q := Records ruleId throttle
        (now - now % throttle.windowSeconds) windows entries true) ?_) fun _ =>
          hflush.bind fun _ _ hs => hs
      rintro t ⟨⟨rfl, rfl⟩, hfind⟩
      obtain ⟨⟨hrule, hstart⟩, hcount⟩ := hrow t hfind
      constructor
      · rw [← hstart] at hcount ⊢
        refine Counts.of_put { row with count := row.count + 1 } hrule ?_ ?_
        · exact congrArg (· + 1) hcount.symm
        · rw [hcount, eq_comm, decide_eq_true_eq]
          exact hunder
      · rw [if_neg (by omega), List.append_nil]
        rfl
    · simp only [hunder, if_false]
      refine Triple.bind (hquiet (keeps_outside fun _ => rfl)) fun _ => ?_
      -- between the two flushes the suppression is counted and not yet logged
      refine Triple.bind (triple_edit (Q := fun t =>
        Counts ruleId throttle (now - now % throttle.windowSeconds) windows false t ∧
          logged ruleId t = entries ∧
          counted windows ruleId (now - now % throttle.windowSeconds) = row.count) ?_) fun _ =>
          hflush.bind fun _ => ?_
      · rintro t ⟨⟨rfl, rfl⟩, hfind⟩
        obtain ⟨⟨hrule, hstart⟩, hcount⟩ := hrow t hfind
        refine ⟨?_, rfl, hcount⟩
        rw [← hstart] at hcount ⊢
        refine Counts.of_put { row with count := row.count + 1 } hrule ?_ ?_
        · exact congrArg (· + 1) hcount.symm
        · rw [hcount, eq_comm, decide_eq_false_iff_not]
          exact hunder
      · refine Triple.bind (M := fun _ => Holding (fun _ => True) (Records ruleId throttle
          (now - now % throttle.windowSeconds) windows entries false)) ?_ fun _ _ hs => hs
        refine Triple.when (fun hfirst => ?_) fun hlater s hs => hs.imp ?_
        · refine Triple.attempt (H := fun _ => Holding (fun _ => True) (Records ruleId throttle
            (now - now % throttle.windowSeconds) windows entries false)) ?_ fun _ _ hs => hs
          refine Triple.bind (triple_edit ?_) fun _ =>
            triple_of_keeps (f := id) (g := id) keeps_flush fun t t' heq hP => ?_
          · rintro t ⟨hcounts, rfl, hcount⟩
            refine ⟨hcounts, ?_⟩
            have hfull : row.count = throttle.maxPerWindow := by
              have hle : row.count ≤ throttle.maxPerWindow := of_decide_eq_true hfirst
              omega
            rw [if_pos (hcount.trans hfull)]
            simp [logged, Tables.addAudit, summary]
          · rw [show t' = t from heq]
            exact hP
        · rintro t ⟨hcounts, rfl, hcount⟩
          refine ⟨hcounts, ?_⟩
          have hover : ¬row.count ≤ throttle.maxPerWindow := of_decide_eq_false hlater
          rw [if_neg (by omega), List.append_nil]

end Gate

/-! ### Histories of evaluations -/

/-- Microseconds in a second. -/
def MICROSECONDS : Nat := 1000000

/-- The gate at an instant in microseconds; it sees `int(now.timestamp())`. -/
def gateAt (env : Env) (ruleId ruleName : String) (throttle : NotifyThrottle) (now : Nat) :
    Service Bool :=
  throttleGate env ruleId ruleName throttle (now / MICROSECONDS)

/-- The evaluations of one rule that matched, with the gate's answers, up to a session.
    The counters start without a row of the rule; between two evaluations anything may
    happen that leaves its rows alone. -/
inductive History (ruleId ruleName : String) (throttle : NotifyThrottle) :
    List (Nat × Bool) → Session Tables Outside → Prop where
  | start (s : Session Tables Outside) (hrows : ∀ k, s.working.windows.find? (ruleId, k) = none) :
      History ruleId ruleName throttle [] s
  | between {h : List (Nat × Bool)} {s s' : Session Tables Outside}
      (hsofar : History ruleId ruleName throttle h s)
      (hrows : ∀ k, s'.working.windows.find? (ruleId, k) = s.working.windows.find? (ruleId, k)) :
      History ruleId ruleName throttle h s'
  | evaluation {h : List (Nat × Bool)} {s s' : Session Tables Outside} (env : Env) (now : Nat)
      (allow : Bool) (hsofar : History ruleId ruleName throttle h s)
      (hrun : gateAt env ruleId ruleName throttle now s = (.ok allow, s')) (hlive : s'.Live) :
      History ruleId ruleName throttle (h ++ [(now, allow)]) s'

/-- The evaluations whose notification was delivered. -/
def delivered (h : List (Nat × Bool)) : List Nat := (h.filter (·.2)).map (·.1)

/-- A window of a throttle, in microseconds. -/
def windowLength (throttle : NotifyThrottle) : Nat := throttle.windowSeconds * MICROSECONDS

theorem windowLength_pos (throttle : NotifyThrottle) : 0 < windowLength throttle := by
  have hge := throttle.window_ge
  exact Nat.mul_pos (by omega) (by decide)

theorem windowStart_eq_iff (throttle : NotifyThrottle) (now now' : Nat) :
    now / MICROSECONDS - now / MICROSECONDS % throttle.windowSeconds =
        now' / MICROSECONDS - now' / MICROSECONDS % throttle.windowSeconds ↔
      windowOf (windowLength throttle) now = windowOf (windowLength throttle) now' := by
  have hge := throttle.window_ge
  have hfloor : ∀ n, n - n % throttle.windowSeconds =
      throttle.windowSeconds * (n / throttle.windowSeconds) := by
    intro n
    have hdiv := Nat.div_add_mod n throttle.windowSeconds
    omega
  have hwindow : ∀ n, windowOf (windowLength throttle) n =
      n / MICROSECONDS / throttle.windowSeconds := by
    intro n
    rw [windowOf, windowLength, Nat.div_div_eq_div_mul, Nat.mul_comm]
  rw [hfloor, hfloor, hwindow, hwindow]
  constructor
  · intro heq
    exact Nat.eq_of_mul_eq_mul_left (by omega) heq
  · intro heq
    rw [heq]

theorem History.counts {ruleId ruleName : String} {throttle : NotifyThrottle}
    {h : List (Nat × Bool)} {s : Session Tables Outside}
    (hsofar : History ruleId ruleName throttle h s) :
    (∀ k, counted s.working.windows ruleId k = (h.map (·.1)).countP fun now =>
      now / MICROSECONDS - now / MICROSECONDS % throttle.windowSeconds = k) ∧
    delivered h = passed (windowLength throttle) throttle.maxPerWindow [] (h.map (·.1)) := by
  induction hsofar with
  | start s hrows =>
    refine ⟨?_, rfl⟩
    intro k
    rw [counted, hrows k]; rfl
  | between _ hrows ih =>
    refine ⟨?_, ih.2⟩
    intro k
    rw [counted, hrows k]
    exact ih.1 k
  | @evaluation h s s' env now allow _ hrun hlive ih =>
    have hgate := (triple_throttleGate ruleId ruleName throttle (now / MICROSECONDS)
      s.working.windows _).of_ok ⟨trivial, fun _ => ⟨rfl, rfl⟩⟩ hrun
    obtain ⟨⟨hallow, hcounted⟩, -⟩ := hgate.2 hlive
    have hsame : ((h.map (·.1)).countP fun now' =>
        now' / MICROSECONDS - now' / MICROSECONDS % throttle.windowSeconds =
          now / MICROSECONDS - now / MICROSECONDS % throttle.windowSeconds) =
        (h.map (·.1)).countP fun now' =>
          windowOf (windowLength throttle) now' = windowOf (windowLength throttle) now := by
      apply List.countP_congr
      intro now' _
      simp only [decide_eq_true_eq]
      exact windowStart_eq_iff throttle now' now
    constructor
    · intro k
      rw [hcounted k, ih.1 k, List.map_append, List.countP_append]
      simp [List.countP_cons, eq_comm]
    · rw [List.map_append, List.map_singleton, passed_snoc, ← ih.2, List.nil_append, ← hsame,
        ← ih.1, delivered, List.filter_append, List.map_append]
      rw [hallow]
      by_cases hroom : counted s.working.windows ruleId
          (now / MICROSECONDS - now / MICROSECONDS % throttle.windowSeconds) <
            throttle.maxPerWindow
      · simp [hroom, delivered]
      · simp [hroom, delivered]

/-! ### The promise -/

theorem rolling_iff_spaced (ruleId ruleName : String) (throttle : NotifyThrottle)
    (h : List (Nat × Bool)) (s : Session Tables Outside)
    (hsofar : History ruleId ruleName throttle h s)
    (hsorted : (h.map (·.1)).Pairwise (· ≤ ·)) :
    RollingBound (windowLength throttle) throttle.maxPerWindow (delivered h) ↔
      Spaced (windowLength throttle) throttle.maxPerWindow (h.map (·.1)) := by
  rw [hsofar.counts.2]
  exact rollingBound_iff_spaced (windowLength_pos throttle) hsorted

/-- One delivery a minute. -/
def perMinute : NotifyThrottle := ⟨60, 1, by decide, by decide⟩

/-- What the gate leaves of a fresh session at the given seconds, one after the other. -/
def afterGates : List Nat → Session Tables Outside
  | [] => freshSession .empty
  | now :: earlier => (gateAt calmEnv "big" "big" perMinute now (afterGates earlier)).2

theorem history_border :
    History "big" "big" perMinute [(59000000, true), (60000000, true)]
      (afterGates [60000000, 59000000]) := by
  have hfirst : History "big" "big" perMinute [(59000000, true)] (afterGates [59000000]) :=
    .evaluation calmEnv 59000000 true (.start (freshSession .empty) fun _ => rfl) rfl ⟨rfl, rfl⟩
  exact .evaluation calmEnv 60000000 true hfirst rfl ⟨rfl, rfl⟩

end NotifyThrottle
