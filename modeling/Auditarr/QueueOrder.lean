/-
  Auditarr/QueueOrder.lean
  ========================
  **The order in which matched files are optimized.**

  Rule evaluations put pairs of a file and a profile into the queue and `run_one` takes the
  oldest one out.  What is oldest is decided by a column that every match of a queued pair
  rewrites (`upsert_queued` in `app/services/repositories/automation.py`), so a pair that is
  matched again waits from then on.
-/
import Auditarr.OptimizationQueue
import Auditarr.RulesService

namespace QueueOrder

open Effects Transactions KeyedTable Database RulesService OptimizationWorker OptimizationQueue

/-! ### Histories of the queue -/

/-- What tells the items apart. -/
abbrev Pair := String × String

/-- A rule evaluation queued a pair, or a worker claimed one and its run ended, back in the
    queue or not. -/
inductive Event where
  | matched (pair : Pair) (now : Nat)
  | claimed (pair : Pair) (back : Bool)

/-- The times of the matches, the latest first. -/
def times : List Event → List Nat
  | [] => []
  | .matched _ now :: earlier => now :: times earlier
  | .claimed _ _ :: earlier => times earlier

/-- When a pair was matched last. -/
def lastMatched (pair : Pair) : List Event → Option Nat
  | [] => none
  | .matched p now :: earlier => if p = pair then some now else lastMatched pair earlier
  | .claimed _ _ :: earlier => lastMatched pair earlier

/-- When a pair was first queued since a run of it ended for good. -/
def firstQueued (pair : Pair) : List Event → Option Nat
  | [] => none
  | .matched p now :: earlier =>
      if p = pair then some ((firstQueued pair earlier).getD now) else firstQueued pair earlier
  | .claimed p back :: earlier =>
      if p = pair ∧ back = false then none else firstQueued pair earlier

def waits (pair : Pair) (t : Tables) : Bool := (queue t).any fun item => keyOf item = pair

/-- What happened to the queue of a store, the latest first.  A rule evaluation queues a pair
    whose profile accepts the tags of the file, a worker claims one, and anything may happen
    besides that leaves the items alone. -/
inductive Run (start : Store) : List Event → Store → Prop where
  | start : Run start [] start
  | other {events : List Event} {s : Store} (t : Tables) (disk : Disk)
      (hsofar : Run start events s) (hitems : t.items = s.tables.items) :
      Run start events ⟨t, disk⟩
  | matched {events : List Event} {s : Store} (env : RulesService.Env) (m : MediaFile)
      (rule : Rule) (tags : List String) (now : Nat) (profile : String) (world : Outside)
      (calls : Nat) (s' : Session Tables Outside) (hsofar : Run start events s)
      (hscope : missingTags (s.tables.profiles.find? profile) tags = [])
      (hrun : queueOptimization env m rule tags now profile (.opened s.tables world calls) =
        (.ok (), s')) :
      Run start (.matched (m.id, profile) now :: events) ⟨s'.working, s.disk⟩
  | idle {events : List Event} {s s' : Store} (env : OptimizationWorker.Env)
      (hsofar : Run start events s) (hrun : runOne env s = (none, s')) : Run start events s'
  | claimed {events : List Event} {s s' : Store} (env : OptimizationWorker.Env)
      (item : OptimizationItem) (outcome : Except Failure WorkerReport)
      (hsofar : Run start events s) (hrun : runOne env s = (some (item, outcome), s')) :
      Run start (.claimed (keyOf item) (waits (keyOf item) s'.tables) :: events) s'

/-! ### What a match writes -/

/-- The items once a pair was matched: a new row, or a queued one with the time of the match. -/
def afterMatch (id mediaFileId profile ruleId : String) (now : Nat) (t : Tables) : Tables :=
  match t.items.find? (mediaFileId, profile) with
  | none => t.putItem (queuedItem id mediaFileId profile ruleId now)
  | some item =>
      if item.status = .queued then
        t.putItem { item with queuedByRuleId := some ruleId, queuedAt := now }
      else t

theorem upsertQueued_returned {env : RulesService.Env} {mediaFileId profile ruleId : String}
    {now : Nat} {s s' : Session Tables Outside}
    (h : upsertQueued env mediaFileId profile ruleId now s = (.ok (), s')) :
    ∃ id, s'.working = afterMatch id mediaFileId profile ruleId now s.working := by
  unfold upsertQueued at h
  obtain ⟨existing, s₁, hselect, h⟩ := Call.of_bind_ok h
  obtain ⟨rfl, rfl⟩ := select_returned hselect
  unfold afterMatch
  cases hfind : s.working.items.find? (mediaFileId, profile) with
  | none =>
    rw [hfind] at h
    obtain ⟨id, s₂, hread, h⟩ := Call.of_bind_ok h
    obtain ⟨-, rfl⟩ := Prod.mk.inj hread
    obtain ⟨_, s₃, hedit, h⟩ := Call.of_bind_ok h
    obtain ⟨-, rfl⟩ := Prod.mk.inj hedit
    rw [flush_returned h]
    exact ⟨id, rfl⟩
  | some item =>
    rw [hfind] at h
    by_cases hqueued : item.status = .queued
    · simp only [hqueued, if_true] at h ⊢
      obtain ⟨_, s₃, hedit, h⟩ := Call.of_bind_ok h
      obtain ⟨-, rfl⟩ := Prod.mk.inj hedit
      rw [flush_returned h]
      exact ⟨"", rfl⟩
    · simp only [hqueued, if_false] at h ⊢
      obtain ⟨-, rfl⟩ := Prod.mk.inj h
      exact ⟨"", rfl⟩

theorem queueOptimization_returned {env : RulesService.Env} {m : MediaFile} {rule : Rule}
    {tags : List String} {now : Nat} {profile : String} {s s' : Session Tables Outside}
    (hscope : missingTags (s.working.profiles.find? profile) tags = [])
    (h : queueOptimization env m rule tags now profile s = (.ok (), s')) :
    ∃ id, s'.working = afterMatch id m.id profile rule.id now s.working := by
  unfold queueOptimization at h
  obtain ⟨_, s₁, hselect, h⟩ := Call.of_bind_ok h
  obtain ⟨rfl, rfl⟩ := select_returned hselect
  rw [hscope] at h
  obtain ⟨_, s₂, hload, h⟩ := Call.of_bind_ok h
  obtain ⟨rfl, rfl⟩ := load_returned hload
  obtain ⟨_, s₃, hload, h⟩ := Call.of_bind_ok h
  obtain ⟨rfl, rfl⟩ := load_returned hload
  obtain ⟨id, hworking⟩ := upsertQueued_returned h
  exact ⟨id, hworking⟩

theorem mem_queue_afterMatch {id mediaFileId profile ruleId : String} {now : Nat} {t : Tables}
    {item : OptimizationItem} (h : item ∈ queue (afterMatch id mediaFileId profile ruleId now t)) :
    (keyOf item = (mediaFileId, profile) ∧ item.queuedAt = now) ∨
      (keyOf item ≠ (mediaFileId, profile) ∧ item ∈ queue t) := by
  have hput : ∀ row : OptimizationItem, keyOf row = (mediaFileId, profile) → row.queuedAt = now →
      item ∈ queue (t.putItem row) →
      (keyOf item = (mediaFileId, profile) ∧ item.queuedAt = now) ∨
        (keyOf item ≠ (mediaFileId, profile) ∧ item ∈ queue t) := by
    intro row hkey htime hmem
    obtain ⟨hrow, hqueued⟩ := mem_queue.mp hmem
    rcases Table.mem_upsert.mp hrow with rfl | ⟨hold, hne⟩
    · exact .inl ⟨hkey, htime⟩
    · rw [← hkey]
      exact .inr ⟨hne, mem_queue.mpr ⟨hold, hqueued⟩⟩
  unfold afterMatch at h
  split at h
  · exact hput _ rfl rfl h
  · rename_i row hfind
    obtain ⟨hrow, hkey⟩ := Table.mem_of_find? hfind
    split at h
    · exact hput { row with queuedByRuleId := some ruleId, queuedAt := now } hkey rfl h
    · rename_i hleft
      refine .inr ⟨?_, h⟩
      obtain ⟨hitem, hqueued⟩ := mem_queue.mp h
      intro heq
      rw [eq_of_keyOf hrow hitem (heq.trans hkey.symm)] at hqueued
      exact hleft hqueued

/-! ### What a tick takes -/

section Ticks

variable {env : OptimizationWorker.Env} {s s' : Store} {item : OptimizationItem}
variable {outcome : Except Failure WorkerReport}

theorem runOne_empty (env : OptimizationWorker.Env) (hempty : queue s.tables = []) :
    runOne env s = (none, s) := by
  simp [runOne, claimNext, hempty]

/-- A tick claims the head of the queue; the others stay, and if the run ends back in the
    queue the item has kept its time. -/
theorem runOne_claimed (hrun : runOne env s = (some (item, outcome), s')) :
    ∃ row rest, queue s.tables = row :: rest ∧ keyOf item = keyOf row ∧
      ∀ other ∈ queue s'.tables, other ∈ queue s.tables ∧ keyOf other ≠ keyOf row ∨
        keyOf other = keyOf row ∧ other.queuedAt = row.queuedAt := by
  cases hqueue : queue s.tables with
  | nil =>
    rw [runOne_empty env hqueue] at hrun
    cases hrun
  | cons row rest =>
    obtain ⟨outcome', s'', final, hrun', htables, hkey, htime, -⟩ := runOne_head env hqueue
    obtain ⟨hclaim, rfl⟩ := Prod.mk.inj (hrun.symm.trans hrun')
    obtain ⟨rfl, -⟩ := Prod.mk.inj (Option.some.inj hclaim)
    refine ⟨row, rest, rfl, rfl, ?_⟩
    intro other hother
    rw [htables] at hother
    obtain ⟨hmem, hqueued⟩ := mem_queue.mp hother
    rcases Table.mem_upsert.mp hmem with rfl | ⟨hold, hne⟩
    · exact .inr ⟨hkey, htime⟩
    · refine .inl ⟨?_, fun heq => hne (heq.trans hkey.symm)⟩
      rw [← hqueue]
      exact mem_queue.mpr ⟨hold, hqueued⟩

theorem queue_head_le {row : OptimizationItem} {rest : List OptimizationItem}
    (hqueue : queue s.tables = row :: rest) {other : OptimizationItem}
    (hother : other ∈ queue s.tables) : row.queuedAt ≤ other.queuedAt := by
  have hsorted : (queue s.tables).Pairwise byQueuedAt := List.pairwise_insertionSort _ _
  rw [hqueue] at hsorted hother
  rcases List.mem_cons.mp hother with rfl | hrest
  · exact Nat.le_refl _
  · exact (List.pairwise_cons.mp hsorted).1 other hrest

end Ticks

/-! ### What the queue remembers -/

/-- The column holds the time of the latest match, and every queued item was matched. -/
structure Remembers (events : List Event) (s : Store) : Prop where
  latest : ∀ item ∈ queue s.tables, lastMatched (keyOf item) events = some item.queuedAt
  queued : ∀ item ∈ queue s.tables, ∃ since, firstQueued (keyOf item) events = some since

theorem Run.remembers {start s : Store} {events : List Event} (hempty : queue start.tables = [])
    (hrun : Run start events s) : Remembers events s := by
  induction hrun with
  | start =>
    have hnone : ∀ item, item ∉ queue start.tables := by
      intro item
      rw [hempty]
      exact List.not_mem_nil
    exact ⟨fun item hitem => absurd hitem (hnone item), fun item hitem => absurd hitem (hnone item)⟩
  | @other events s t disk _ hitems ih =>
    have hqueue : queue t = queue s.tables := by
      unfold queue
      rw [hitems]
    refine ⟨?_, ?_⟩
    · rw [hqueue]
      exact ih.latest
    · rw [hqueue]
      exact ih.queued
  | matched env m rule tags now profile world calls s' _ hscope hrun ih =>
    obtain ⟨id, hworking⟩ := queueOptimization_returned hscope hrun
    refine ⟨?_, ?_⟩
    · intro item hitem
      rw [hworking] at hitem
      rcases mem_queue_afterMatch hitem with ⟨hkey, htime⟩ | ⟨hkey, hbefore⟩
      · rw [lastMatched, if_pos hkey.symm, htime]
      · rw [lastMatched, if_neg (Ne.symm hkey)]
        exact ih.latest item hbefore
    · intro item hitem
      rw [hworking] at hitem
      rcases mem_queue_afterMatch hitem with ⟨hkey, -⟩ | ⟨hkey, hbefore⟩
      · rw [firstQueued, if_pos hkey.symm]
        exact ⟨_, rfl⟩
      · rw [firstQueued, if_neg (Ne.symm hkey)]
        exact ih.queued item hbefore
  | idle env _ hrun ih =>
    have hsame : ∀ s s' : Store, runOne env s = (none, s') → s' = s := by
      intro s s' h
      cases hqueue : queue s.tables with
      | nil =>
        rw [runOne_empty env hqueue] at h
        exact (Prod.mk.inj h).2.symm
      | cons row rest =>
        obtain ⟨_, _, _, hclaims, -⟩ := runOne_head env hqueue
        rw [hclaims] at h
        cases h
    rw [hsame _ _ hrun]
    exact ih
  | @claimed events s s' env item outcome _ hrun ih =>
    obtain ⟨row, rest, hqueue, hkey, hothers⟩ := runOne_claimed hrun
    have hrow : row ∈ queue s.tables := by
      rw [hqueue]
      exact List.mem_cons_self
    refine ⟨?_, ?_⟩
    · intro other hother
      rw [lastMatched]
      rcases hothers other hother with ⟨hbefore, -⟩ | ⟨hsame, htime⟩
      · exact ih.latest other hbefore
      · rw [hsame, htime]
        exact ih.latest row hrow
    · intro other hother
      -- what waits after the tick was not claimed, or has come back
      have hback : ¬(keyOf item = keyOf other ∧ waits (keyOf item) s'.tables = false) := by
        rintro ⟨hclaimed, hgone⟩
        rw [waits, List.any_eq_false] at hgone
        exact hgone other hother (decide_eq_true hclaimed.symm)
      rw [firstQueued, if_neg hback]
      rcases hothers other hother with ⟨hbefore, -⟩ | ⟨hsame, -⟩
      · exact ih.queued other hbefore
      · rw [hsame]
        exact ih.queued row hrow

theorem mem_times_of_firstQueued {pair : Pair} {since : Nat} {events : List Event}
    (h : firstQueued pair events = some since) : since ∈ times events := by
  induction events generalizing since with
  | nil => cases h
  | cons event earlier ih =>
    cases event with
    | matched p now =>
      rw [firstQueued] at h
      split at h
      · obtain rfl := Option.some.inj h
        cases hbefore : firstQueued pair earlier with
        | none => exact List.mem_cons_self
        | some a => exact List.mem_cons_of_mem _ (ih hbefore)
      · exact List.mem_cons_of_mem _ (ih h)
    | claimed p back =>
      rw [firstQueued] at h
      split at h
      · cases h
      · exact ih h

theorem firstQueued_le_lastMatched {pair : Pair} {since latest : Nat} {events : List Event}
    (htimes : (times events).Pairwise (· ≥ ·)) (hfirst : firstQueued pair events = some since)
    (hlast : lastMatched pair events = some latest) : since ≤ latest := by
  induction events with
  | nil => cases hfirst
  | cons event earlier ih =>
    cases event with
    | matched p now =>
      obtain ⟨hlater, hbefore⟩ := List.pairwise_cons.mp htimes
      rw [firstQueued] at hfirst
      rw [lastMatched] at hlast
      by_cases hp : p = pair
      · rw [if_pos hp] at hfirst hlast
        obtain rfl := Option.some.inj hlast
        obtain rfl := Option.some.inj hfirst
        cases hqueued : firstQueued pair earlier with
        | none => exact Nat.le_refl _
        | some a => exact hlater a (mem_times_of_firstQueued hqueued)
      · rw [if_neg hp] at hfirst hlast
        exact ih hbefore hfirst hlast
    | claimed p back =>
      rw [firstQueued] at hfirst
      split at hfirst
      · cases hfirst
      · exact ih htimes hfirst hlast

/-! ### The order of the claims -/

/-- Both happened, and the first of them no later. -/
def NoLater (a b : Option Nat) : Prop := ∃ x y, a = some x ∧ b = some y ∧ x ≤ y

/-- A tick claims a pair whose latest match is no later than that of any pair that waits; a
    pair that was not matched again since it was queued is overtaken by none that was queued
    after it. -/
theorem claims_least_recently_matched (start s s' : Store) (events : List Event)
    (env : OptimizationWorker.Env) (item : OptimizationItem) (outcome : Except Failure WorkerReport)
    (hempty : queue start.tables = []) (hsofar : Run start events s)
    (htimes : (times events).Pairwise (· ≥ ·))
    (hclaim : runOne env s = (some (item, outcome), s')) :
    ∀ other ∈ queue s.tables,
      NoLater (lastMatched (keyOf item) events) (lastMatched (keyOf other) events) ∧
      (firstQueued (keyOf other) events = lastMatched (keyOf other) events →
        NoLater (firstQueued (keyOf item) events) (firstQueued (keyOf other) events)) := by
  intro other hother
  have hremembers := hsofar.remembers hempty
  obtain ⟨row, rest, hqueue, hkey, -⟩ := runOne_claimed hclaim
  have hrow : row ∈ queue s.tables := by
    rw [hqueue]
    exact List.mem_cons_self
  have hle : row.queuedAt ≤ other.queuedAt := queue_head_le hqueue hother
  have hlast := hremembers.latest row hrow
  have hlast' := hremembers.latest other hother
  rw [hkey]
  refine ⟨⟨_, _, hlast, hlast', hle⟩, ?_⟩
  intro hunmatched
  obtain ⟨since, hsince⟩ := hremembers.queued row hrow
  refine ⟨since, other.queuedAt, hsince, hunmatched.trans hlast', ?_⟩
  exact (firstQueued_le_lastMatched htimes hsince hlast).trans hle

/-! ### A pair that is matched again -/

def anyRule : Rule where
  id := "r1"
  name := "r1"
  enabled := true
  priority := 0
  definition := none
  lastEvaluatedAt := none
  lastMatchCount := 0

/-- The session in which a file is matched by a rule. -/
def matching (id : String) (now : Nat) (t : Tables) :
    Except ServiceError Unit × Session Tables Outside :=
  queueOptimization calmEnv (.unprobed id "l1" id "avi") anyRule [] now "anytime"
    (.opened t .start 0)

/-- The store once these files were matched, the latest first. -/
def afterMatches : List (String × Nat) → Store
  | [] => ⟨.empty, fun _ => none⟩
  | (id, now) :: earlier =>
      ⟨(matching id now (afterMatches earlier).tables).2.working, (afterMatches earlier).disk⟩

def matches_ (files : List (String × Nat)) : List Event :=
  files.map fun file => .matched (file.1, "anytime") file.2

theorem Run.again {file : String × Nat} {earlier : List (String × Nat)}
    (hbefore : Run (afterMatches []) (matches_ earlier) (afterMatches earlier))
    (hscope : missingTags ((afterMatches earlier).tables.profiles.find? "anytime") [] = [])
    (hok : (matching file.1 file.2 (afterMatches earlier).tables).1 = .ok ()) :
    Run (afterMatches []) (matches_ (file :: earlier)) (afterMatches (file :: earlier)) :=
  .matched calmEnv _ anyRule [] file.2 "anytime" .start 0 _ hbefore hscope
    (Call.run_of_outcome hok)

theorem run_two :
    Run (afterMatches []) (matches_ [("f2", 2), ("f1", 1)]) (afterMatches [("f2", 2), ("f1", 1)]) :=
  have hone : Run (afterMatches []) (matches_ [("f1", 1)]) (afterMatches [("f1", 1)]) :=
    Run.again .start rfl rfl
  hone.again rfl rfl

theorem run_again :
    Run (afterMatches []) (matches_ [("f1", 3), ("f2", 2), ("f1", 1)])
      (afterMatches [("f1", 3), ("f2", 2), ("f1", 1)]) :=
  run_two.again rfl rfl

/-- The first file is claimed first. -/
theorem claims_least_recently_matched_two :
    ∃ s' outcome, runOne noonEnv (afterMatches [("f2", 2), ("f1", 1)]) =
        (some (running noonEnv (queuedItem "2" "f1" "anytime" "r1" 1), outcome), s') ∧
      ∀ other ∈ queue (afterMatches [("f2", 2), ("f1", 1)]).tables,
        NoLater (lastMatched ("f1", "anytime") (matches_ [("f2", 2), ("f1", 1)]))
          (lastMatched (keyOf other) (matches_ [("f2", 2), ("f1", 1)])) ∧
        (firstQueued (keyOf other) (matches_ [("f2", 2), ("f1", 1)]) =
            lastMatched (keyOf other) (matches_ [("f2", 2), ("f1", 1)]) →
          NoLater (firstQueued ("f1", "anytime") (matches_ [("f2", 2), ("f1", 1)]))
            (firstQueued (keyOf other) (matches_ [("f2", 2), ("f1", 1)]))) := by
  have hqueue : queue (afterMatches [("f2", 2), ("f1", 1)]).tables =
      [queuedItem "2" "f1" "anytime" "r1" 1, queuedItem "2" "f2" "anytime" "r1" 2] := rfl
  obtain ⟨outcome, s', _, hrun, -⟩ := runOne_head noonEnv hqueue
  exact ⟨s', outcome, hrun,
    claims_least_recently_matched _ _ _ _ _ _ _ rfl run_two (by decide) hrun⟩

/-- The file that was queued first is matched again, and the other one is claimed. -/
theorem rematch_moves_behind :
    ¬∀ (start s s' : Store) (events : List Event) (env : OptimizationWorker.Env)
      (item : OptimizationItem) (outcome : Except Failure WorkerReport),
      queue start.tables = [] → Run start events s → (times events).Pairwise (· ≥ ·) →
      runOne env s = (some (item, outcome), s') →
      ∀ other ∈ queue s.tables,
        NoLater (firstQueued (keyOf item) events) (firstQueued (keyOf other) events) := by
  intro hfifo
  have hqueue : queue (afterMatches [("f1", 3), ("f2", 2), ("f1", 1)]).tables =
      [queuedItem "2" "f2" "anytime" "r1" 2, queuedItem "2" "f1" "anytime" "r1" 3] := rfl
  obtain ⟨outcome, s', _, hrun, -⟩ := runOne_head noonEnv hqueue
  obtain ⟨x, y, hx, hy, hle⟩ := hfifo _ _ _ _ _ _ _ rfl run_again (by decide) hrun
    (queuedItem "2" "f1" "anytime" "r1" 3)
    (by rw [hqueue]; exact List.mem_cons_of_mem _ List.mem_cons_self)
  have hsecond : some 2 = some x := hx
  have hfirst : some 1 = some y := hy
  obtain rfl := Option.some.inj hsecond
  obtain rfl := Option.some.inj hfirst
  exact absurd hle (by decide)

end QueueOrder
