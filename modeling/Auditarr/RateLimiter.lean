/-
  Auditarr/RateLimiter.lean
  =========================
  **The rate limiter of the authentication routes** (`app/security/rate_limit.py`).

  A bucket for each client and route has the instants of the attempts that were let through.  What
  `check` says of an attempt is a matter of the attempts that were let through in the window that
  ends with it (`check_law`).

  The instants are exact here.  The code subtracts in doubles, and the window is a whole number of
  seconds, so that what it subtracts from the instants of a clock is exact too
  (`evicts_iff_of_doubles`).
-/
import Auditarr.AuditedCalls
import Auditarr.Doubles
import Auditarr.Runs
import Auditarr.SlidingWindow
import Mathlib.Algebra.Order.Group.Basic

namespace RateLimiter

open AuditedCalls (Limits)
open PyValues Runs SlidingWindow

/-! ### The limiter -/

/-- An attempt: the host of the client, if there is one, the route, and `time.monotonic`. -/
structure Attempt where
  host : Option String
  route : String
  now : ℚ

/-- `_client_ip`. -/
def clientIp : Option String → String
  | none => "unknown"
  | some host => if host = "" then "unknown" else host

def Attempt.key (a : Attempt) : String × String := (clientIp a.host, a.route)

structure RateLimitedError where
  statusCode : Nat
  code : String
  message : String
  retryAfter : Int
  route : String

/-- `max(1, int(oldest + window - now))`. -/
def retryAfter (limits : Limits) (oldest now : ℚ) : Int :=
  let left : ℚ := oldest + limits.windowSeconds - now
  max 1 (if left < 0 then -⌊-left⌋ else ⌊left⌋)

/-- The error of an attempt, when the bucket is full. -/
def rateLimited (limits : Limits) (bucket : List ℚ) (a : Attempt) : RateLimitedError :=
  let seconds := retryAfter limits (bucket.headD a.now) a.now
  { statusCode := 429
    code := "rate_limited"
    message := "Too many attempts. Try again in " ++ toString seconds ++ "s."
    retryAfter := seconds
    route := a.route }

/-- `_buckets`. -/
abbrev Buckets := String × String → List ℚ

section Check

variable (limits : Limits)

def cutoff (now : ℚ) : ℚ := now - limits.windowSeconds

/-- `check`, and the buckets it leaves. -/
def check (buckets : Buckets) (a : Attempt) : Except RateLimitedError Unit × Buckets :=
  if limits.attempts ≤ 0 then (.ok (), buckets)
  else
    let bucket := evicted (cutoff limits) a.now (buckets a.key)
    if limits.attempts ≤ bucket.length then
      (.error (rateLimited limits bucket a), Function.update buckets a.key bucket)
    else (.ok (), Function.update buckets a.key (bucket ++ [a.now]))

def next (buckets : Buckets) (a : Attempt) : Buckets := (check limits buckets a).2

/-- The attempts of a run that are let through. -/
def admitted (buckets : Buckets) : List Attempt → List Attempt
  | [] => []
  | a :: rest => match (check limits buckets a).1 with
    | .ok _ => a :: admitted (next limits buckets a) rest
    | .error _ => admitted (next limits buckets a) rest

/-- Of a limiter that is new. -/
def fresh : Buckets := fun _ => []

end Check

/-- The instants of the attempts with a key. -/
def timesOf (key : String × String) (attempts : List Attempt) : List ℚ :=
  (attempts.filter fun a => a.key = key).map Attempt.now

/-! ### Runs -/

section Law

variable {limits : Limits} {buckets : Buckets} {a : Attempt}

theorem cutoff_mono (limits : Limits) : Monotone (cutoff limits) :=
  fun _ _ h => sub_le_sub_right h _

/-- What one attempt does: it is refused where eviction leaves a full bucket, and enters its
    bucket otherwise. -/
theorem check_cases (hattempts : 0 < limits.attempts) (buckets : Buckets) (a : Attempt) :
    (limits.attempts ≤ (evicted (cutoff limits) a.now (buckets a.key)).length ∧
      (∃ e, (check limits buckets a).1 = .error e) ∧
      next limits buckets a =
        Function.update buckets a.key (evicted (cutoff limits) a.now (buckets a.key))) ∨
    ((evicted (cutoff limits) a.now (buckets a.key)).length < limits.attempts ∧
      (check limits buckets a).1 = .ok () ∧
      next limits buckets a =
        Function.update buckets a.key (evicted (cutoff limits) a.now (buckets a.key) ++ [a.now])) := by
  unfold next check
  rw [if_neg (not_le.mpr hattempts)]
  by_cases hfull : limits.attempts ≤ (evicted (cutoff limits) a.now (buckets a.key)).length
  · left
    dsimp only
    rw [if_pos hfull]
    exact ⟨hfull, ⟨_, rfl⟩, rfl⟩
  · right
    dsimp only
    rw [if_neg hfull]
    exact ⟨not_le.mp hfull, rfl, rfl⟩

theorem admitted_append (buckets : Buckets) (before after : List Attempt) :
    admitted limits buckets (before ++ after) =
      admitted limits buckets before ++ admitted limits (final (next limits) buckets before) after := by
  induction before generalizing buckets with
  | nil => rfl
  | cons a rest ih =>
    rw [List.cons_append, admitted, admitted]
    cases (check limits buckets a).1 with
    | error e => exact ih _
    | ok u =>
      rw [ih, List.cons_append]
      rfl

theorem timesOf_append (key : String × String) (xs ys : List Attempt) :
    timesOf key (xs ++ ys) = timesOf key xs ++ timesOf key ys := by
  rw [timesOf, List.filter_append, List.map_append]
  rfl

/-- After a run each bucket tracks what was admitted of its key, and that is bounded. -/
structure Kept (limits : Limits) (run : List Attempt) (key : String × String) : Prop where
  tracks : ∀ now, (∀ a ∈ run, a.now ≤ now) → Tracks (cutoff limits) now
    (timesOf key (admitted limits fresh run)) (final (next limits) fresh run key)
  bounded : Bounded (cutoff limits) limits.attempts.toNat (timesOf key (admitted limits fresh run))

theorem Kept.nil (limits : Limits) (key : String × String) : Kept limits [] key where
  tracks now _ := .nil now
  bounded := .nil _

theorem Kept.snoc (hattempts : 0 < limits.attempts) {run : List Attempt} {key : String × String}
    (h : Kept limits run key) (hlast : ∀ b ∈ run, b.now ≤ a.now) : Kept limits (run ++ [a]) key := by
  have htracks := h.tracks a.now hlast
  have hfinal : final (next limits) fresh (run ++ [a]) = next limits (final (next limits) fresh run) a := by
    rw [final_append]
    rfl
  have hlater {admitted bucket : List ℚ} (hthen : Tracks (cutoff limits) a.now admitted bucket) :
      ∀ now, (∀ b ∈ run ++ [a], b.now ≤ now) → Tracks (cutoff limits) now admitted bucket := by
    intro now hnow
    exact hthen.later (cutoff_mono limits) (hnow a (by simp))
  have hadmitted : admitted limits fresh (run ++ [a]) =
      admitted limits fresh run ++ admitted limits (final (next limits) fresh run) [a] :=
    admitted_append fresh run [a]
  rcases check_cases hattempts (final (next limits) fresh run) a with
    ⟨-, ⟨e, hrefused⟩, hnext⟩ | ⟨hroom, hpassed, hnext⟩
  · rw [admitted, hrefused, admitted, List.append_nil] at hadmitted
    constructor
    · rw [hadmitted, hfinal, hnext]
      by_cases hkey : key = a.key
      · rw [hkey, Function.update_self]
        rw [hkey] at htracks
        exact hlater htracks.evict
      · rw [Function.update_of_ne hkey]
        exact hlater htracks
    · rw [hadmitted]
      exact h.bounded
  · rw [admitted, hpassed, admitted] at hadmitted
    have htimes : timesOf key [a] = if a.key = key then [a.now] else [] := by
      by_cases hkey : a.key = key <;> simp [timesOf, hkey]
    constructor
    · rw [hadmitted, timesOf_append, htimes, hfinal, hnext]
      by_cases hkey : key = a.key
      · rw [hkey, if_pos rfl, Function.update_self]
        rw [hkey] at htracks
        exact hlater htracks.evict.append
      · rw [if_neg (Ne.symm hkey), List.append_nil, Function.update_of_ne hkey]
        exact hlater htracks
    · rw [hadmitted, timesOf_append, htimes]
      by_cases hkey : a.key = key
      · rw [if_pos hkey]
        apply h.bounded.admit (cutoff_mono limits) htracks
        rw [← hkey]
        omega
      · rw [if_neg hkey, List.append_nil]
        exact h.bounded

theorem kept (hattempts : 0 < limits.attempts) {run : List Attempt}
    (hrun : run.Pairwise fun a b => a.now ≤ b.now) (key : String × String) : Kept limits run key := by
  induction run using List.reverseRecOn with
  | nil => exact .nil limits key
  | append_singleton before a ih =>
    obtain ⟨hbefore, -, hlast⟩ := List.pairwise_append.mp hrun
    exact (ih hbefore).snoc hattempts fun b hb => hlast b hb a (List.mem_singleton_self a)

/-- The attempts of a key from one instant to another. -/
def between (key : String × String) (first last : ℚ) (attempts : List Attempt) : Nat :=
  attempts.countP fun a => a.key = key ∧ first ≤ a.now ∧ a.now ≤ last

theorem between_eq (key : String × String) (first last : ℚ) (attempts : List Attempt) :
    between key first last attempts =
      (timesOf key attempts).countP fun t => first ≤ t ∧ t ≤ last := by
  rw [between, timesOf, List.countP_map, List.countP_filter]
  apply List.countP_congr
  intro a ha
  simp [and_comm, and_assoc]

/-- Of attempts in the order of time: a window of any place lets no more through than the limit;
    an attempt is refused iff the window that ends with it has let through as many; and then its
    bucket is what eviction leaves, and the other buckets stay. -/
theorem check_law (limits : Limits) (hattempts : 0 < limits.attempts) (run : List Attempt)
    (hrun : run.Pairwise fun a b => a.now ≤ b.now) :
    (∀ key first, between key first (first + limits.windowSeconds) (admitted limits fresh run) ≤
      limits.attempts) ∧
    ∀ before a after, run = before ++ a :: after →
      let buckets := final (next limits) fresh before
      ((∃ e, (check limits buckets a).1 = .error e) ↔
        between a.key (a.now - limits.windowSeconds) a.now (admitted limits fresh before) =
          limits.attempts) ∧
      ∀ e, (check limits buckets a).1 = .error e →
        (check limits buckets a).2 = Function.update buckets a.key
          ((buckets a.key).dropWhile fun t => t < a.now - limits.windowSeconds) := by
  constructor
  · intro key first
    have hbounded := (kept hattempts hrun key).bounded first (first + limits.windowSeconds)
      (by simp [cutoff])
    rw [← between_eq] at hbounded
    omega
  · rintro before a after rfl
    obtain ⟨hbefore, -, hlast⟩ := List.pairwise_append.mp hrun
    have hkept := kept hattempts hbefore a.key
    have htracks := hkept.tracks a.now fun b hb => hlast b hb a (List.mem_cons_self ..)
    have hlength := htracks.length_evicted
    rw [← between_eq] at hlength
    have hbounded := hkept.bounded (cutoff limits a.now) a.now le_rfl
    rw [← between_eq] at hbounded
    rcases check_cases hattempts (final (next limits) fresh before) a with
      ⟨hfull, hrefused, hnext⟩ | ⟨hroom, hpassed, hnext⟩
    · refine ⟨iff_of_true hrefused ?_, fun _ _ => hnext⟩
      change ((between a.key (cutoff limits a.now) a.now _ : Nat) : Int) = _
      omega
    · constructor
      · refine iff_of_false (by simp [hpassed]) ?_
        change ¬((between a.key (cutoff limits a.now) a.now _ : Nat) : Int) = _
        omega
      · intro e he
        rw [hpassed] at he
        cases he

/-- A client that is let through twice in a minute. -/
def twicePerMinute : Limits := ⟨2, 60⟩

def loginAt (now : ℚ) : Attempt := ⟨some "10.0.0.7", "login", now⟩

/-- The sixtieth second still belongs to the window of the first attempt. -/
theorem check_law_thrice : ∃ e, (check twicePerMinute
    (final (next twicePerMinute) fresh [loginAt 0, loginAt 30]) (loginAt 60)).1 = .error e := by
  have hlaw := check_law twicePerMinute (by decide) [loginAt 0, loginAt 30, loginAt 60]
    (by simp [loginAt]; norm_num)
  apply (hlaw.2 [loginAt 0, loginAt 30] (loginAt 60) [] rfl).1.mpr
  decide +kernel

/-! ### Microseconds and doubles -/

def toSeconds (t : Int) : ℚ := t / 1000000

theorem map_check (limits : Limits) (hattempts : 0 < limits.attempts) (buckets : Buckets) (a : Attempt)
    {now : Int} {bucket : List Int} (hnow : a.now = toSeconds now)
    (hbucket : buckets a.key = bucket.map toSeconds) :
    ((limits.check now bucket).1 = true ↔ (check limits buckets a).1 = .ok ()) ∧
      next limits buckets a = Function.update buckets a.key ((limits.check now bucket).2.map toSeconds) := by
  have htest (t : Int) : toSeconds t < cutoff limits (toSeconds now) ↔
      t < now - AuthStore.seconds limits.windowSeconds := by
    simp only [toSeconds, cutoff, AuthStore.seconds]
    rw [div_lt_iff₀ (by norm_num), sub_mul, div_mul_cancel₀ _ (by norm_num)]
    exact_mod_cast Iff.rfl
  have hevicted : evicted (cutoff limits) a.now (buckets a.key) =
      (bucket.dropWhile fun t => t < now - AuthStore.seconds limits.windowSeconds).map toSeconds := by
    rw [hnow, hbucket, evicted, List.dropWhile_map]
    congr 2
    funext t
    exact decide_eq_decide.mpr (htest t)
  have hcases := check_cases hattempts buckets a
  rw [hevicted, List.length_map] at hcases
  unfold Limits.check
  rcases hcases with ⟨hfull, ⟨e, hrefused⟩, hnext⟩ | ⟨hroom, hpassed, hnext⟩
  · dsimp only
    rw [if_pos hfull]
    exact ⟨by simp [hrefused], hnext⟩
  · dsimp only
    rw [if_neg (not_le.mpr hroom)]
    refine ⟨by simp [hpassed], ?_⟩
    rw [hnext, List.map_append, hnow]
    rfl

theorem evicts_iff_of_doubles {t now : ℚ} {window : PyFloat} (ht : 0 ≤ t) (hnow : now < 2 ^ 53)
    (hdouble : roundDouble now = some now) (hnonneg : 0 ≤ limits.windowSeconds)
    (hwindow : limits.windowSeconds ≤ 2 ^ 53) (hfloat : floatOfInt limits.windowSeconds = some window) :
    PyFloat.lt (.finite t) (PyFloat.sub (.finite now) window) = decide (t < cutoff limits now) := by
  rw [Doubles.floatOfInt_small (by omega), Option.some.injEq] at hfloat
  rw [← hfloat]
  by_cases hle : (limits.windowSeconds : ℚ) ≤ now
  · rw [PyFloat.sub, PyFloat.ofExact, Doubles.roundDouble_sub_int hnow hdouble hnonneg hle]
    rfl
  · have hbefore : now - limits.windowSeconds < 0 := by linarith
    rw [Doubles.sub_negative (not_le.mp hle) ht, eq_comm, decide_eq_false_iff_not, cutoff, not_lt]
    linarith

end Law

end RateLimiter
