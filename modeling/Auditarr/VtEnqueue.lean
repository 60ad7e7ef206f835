/-
  Auditarr/VtEnqueue.lean
  =======================
  **What enqueueing a file for VirusTotal does to its caller's transaction.**

  `enqueue_for_vt_lookup` runs in the session of a scan or of a rule pass.  When the
  insert and its commit go through, everything the caller had pending is committed
  along.  On every other path the session is rolled back, and with it what the caller
  had not committed.
-/
import Auditarr.RulesService

namespace VtEnqueue

open Effects Transactions KeyedTable Database RulesService

/-- The tables agree in everything but the queue row of this file. -/
structure Intact (mediaFileId : String) (t t' : Tables) : Prop where
  tables : t' = { t with vtQueue := t'.vtQueue }
  others : ∀ row, row.mediaFileId ≠ mediaFileId → (row ∈ t'.vtQueue ↔ row ∈ t.vtQueue)

theorem Intact.refl (mediaFileId : String) (t : Tables) : Intact mediaFileId t t :=
  ⟨rfl, fun _ _ => Iff.rfl⟩

theorem Intact.trans {mediaFileId : String} {t t' t'' : Tables} (h : Intact mediaFileId t t')
    (h' : Intact mediaFileId t' t'') : Intact mediaFileId t t'' := by
  constructor
  · rw [h'.tables, h.tables]
  · intro row hother
    rw [h'.others row hother, h.others row hother]

theorem Intact.symm {mediaFileId : String} {t t' : Tables} (h : Intact mediaFileId t t') :
    Intact mediaFileId t' t := by
  constructor
  · rw [h.tables]
  · intro row hother
    exact (h.others row hother).symm

theorem intact_putVtItem (t : Tables) (item : VtQueueItem) :
    Intact item.mediaFileId t (t.putVtItem item) := by
  constructor
  · rfl
  · intro row hother
    show row ∈ t.vtQueue.upsert item ↔ row ∈ t.vtQueue
    rw [Table.mem_upsert]
    constructor
    · rintro (rfl | ⟨hmem, -⟩)
      · exact absurd rfl hother
      · exact hmem
    · intro hmem
      exact .inr ⟨hmem, hother⟩

/-- The file has a row in the queue. -/
def Queued (mediaFileId : String) (t : Tables) : Prop :=
  ∃! row, row ∈ t.vtQueue ∧ row.mediaFileId = mediaFileId

theorem queued_iff {mediaFileId : String} {t : Tables} :
    Queued mediaFileId t ↔ (t.vtQueue.find? mediaFileId).isSome = true := by
  constructor
  · rintro ⟨row, hrow, -⟩
    rw [Table.find?_eq_some.mpr hrow]; rfl
  · intro hsome
    obtain ⟨row, hfind⟩ := Option.isSome_iff_exists.mp hsome
    have hrow := Table.find?_eq_some.mp hfind
    refine ⟨row, hrow, ?_⟩
    intro other hother
    exact Table.eq_of_key_eq hother.1 hrow.1 (hother.2.trans hrow.2.symm)

theorem queued_putVtItem (t : Tables) (item : VtQueueItem) :
    Queued item.mediaFileId (t.putVtItem item) := by
  have hmem : item ∈ (t.putVtItem item).vtQueue := Table.mem_upsert.mpr (.inl rfl)
  rw [queued_iff, Table.find?_eq_some.mpr ⟨hmem, rfl⟩]; rfl

/-- The file has a row in the media table. -/
def Exists (mediaFileId : String) (t : Tables) : Prop := ∃ m ∈ t.media, m.id = mediaFileId

/-- What is asked of a call: the caller's changes are still there, and the file, if it
    exists, is queued. -/
def KeptAndQueued (mediaFileId : String) (s s' : Session Tables Outside) : Prop :=
  Intact mediaFileId s.working s'.working ∧
    (Exists mediaFileId s.working → Queued mediaFileId s'.working)

/-! ### The paths of a call -/

/-- Which of the two round trips of an insert with its commit fails first, and the
    number of the round trip after it. -/
def firstFault (env : Env) (calls : Nat) : Option (Fault DatabaseError × Nat) :=
  match env.faultAt calls with
  | some fault => some (fault, calls + 1)
  | none => (env.faultAt (calls + 1)).map fun fault => (fault, calls + 2)

/-- `INSERT … ON CONFLICT DO NOTHING` with its commit goes through, or the caller has
    nothing uncommitted and the file is in the queue already or gets there on the second
    attempt. -/
def Safe (env : Env) (mediaFileId : String) (s : Session Tables Outside) : Prop :=
  match firstFault env s.calls with
  | none => True
  | some (fault, calls) =>
      Intact mediaFileId s.working s.committed ∧
        (Exists mediaFileId s.working → Queued mediaFileId s.committed ∨
          (fault.error ≠ .integrity ∧ firstFault env calls = none))

section Paths

variable (env : Env)

/-- The body of the outer `try`. -/
def firstAttempt (item : VtQueueItem) : Service Bool := do
  let inserted ← insertVtIfAbsent env item
  commit env.db
  return inserted

/-- The body of the inner `try`. -/
def secondAttempt (item : VtQueueItem) : Service Bool := do
  insertVt env item
  commit env.db
  return true

/-- The handlers of the inner `try`. -/
def afterSecond (e : ServiceError) : Service Bool := do
  if e = .database .integrity then
    rollback
    return false
  else Call.raise e

variable {env}

section RoundTrips

variable {α : Type} {s : Session Tables Outside}

theorem select_answered (query : Tables → α) (hactive : s.failed = false)
    (hfault : env.faultAt s.calls = none) :
    (select env.db query : Service α) s = (.ok (query s.working), { s with calls := s.calls + 1 }) := by
  have hcontact : (contact env.db false : Service Unit) s =
      (.ok (), { s with calls := s.calls + 1 }) := by
    simp [contact, hactive, Env.db, hfault]
  exact Call.run_bind_ok hcontact

theorem select_refused (query : Tables → α) (hactive : s.failed = false)
    {fault : Fault DatabaseError} (hfault : env.faultAt s.calls = some fault) :
    ∃ s', (select env.db query : Service α) s = (.error (.database fault.error), s') ∧
      s'.committed = s.committed ∧ s'.calls = s.calls + 1 ∧
      (s'.working = s.working ∨ s'.working = s.committed) := by
  have hcontact : (contact env.db false : Service Unit) s = (.error (.database fault.error),
      if fault.aborts then { s.reverted with failed := true, calls := s.calls + 1 }
      else { s with calls := s.calls + 1 }) := by
    simp [contact, hactive, Env.db, hfault]
  refine ⟨_, Call.run_bind_error hcontact, ?_⟩
  split
  · exact ⟨rfl, rfl, .inr rfl⟩
  · exact ⟨rfl, rfl, .inl rfl⟩

theorem commit_accepted (hactive : s.failed = false) (hfault : env.faultAt s.calls = none) :
    (commit env.db : Service Unit) s =
      (.ok (), { s with committed := s.working, calls := s.calls + 1 }) := by
  have hcontact : (contact env.db true : Service Unit) s =
      (.ok (), { s with calls := s.calls + 1 }) := by
    simp [contact, hactive, Env.db, hfault]
  exact Call.run_bind_ok hcontact

theorem commit_refused (hactive : s.failed = false) {fault : Fault DatabaseError}
    (hfault : env.faultAt s.calls = some fault) :
    (commit env.db : Service Unit) s = (.error (.database fault.error),
      { s.reverted with failed := true, calls := s.calls + 1 }) := by
  have hcontact : (contact env.db true : Service Unit) s = (.error (.database fault.error),
      { s.reverted with failed := true, calls := s.calls + 1 }) := by
    simp [contact, hactive, Env.db, hfault]
  exact Call.run_bind_error hcontact

/-- `INSERT … ON CONFLICT DO NOTHING` that is answered leaves the row there, its own or
    the one it found. -/
theorem insertVtIfAbsent_answered (item : VtQueueItem) (hactive : s.failed = false)
    (hfault : env.faultAt s.calls = none) :
    ∃ inserted t, insertVtIfAbsent env item s =
        (.ok inserted, { s with working := t, calls := s.calls + 1 }) ∧
      Intact item.mediaFileId s.working t ∧ Queued item.mediaFileId t := by
  unfold insertVtIfAbsent
  rw [Call.run_bind_ok (select_answered _ hactive hfault)]
  cases htaken : (s.working.vtQueue.find? item.mediaFileId).isSome with
  | true => exact ⟨false, s.working, rfl, .refl _ _, queued_iff.mpr htaken⟩
  | false => exact ⟨true, s.working.putVtItem item, rfl, intact_putVtItem _ _,
      queued_putVtItem _ _⟩

end RoundTrips

theorem firstAttempt_run (item : VtQueueItem) {s : Session Tables Outside}
    (hactive : s.failed = false) :
    (∃ inserted s', firstAttempt env item s = (.ok inserted, s') ∧
      firstFault env s.calls = none ∧
      Intact item.mediaFileId s.working s'.working ∧ Queued item.mediaFileId s'.working) ∨
    ∃ fault calls s', firstAttempt env item s = (.error (.database fault.error), s') ∧
      firstFault env s.calls = some (fault, calls) ∧ s'.committed = s.committed ∧
      s'.calls = calls := by
  unfold firstFault
  cases hfault : env.faultAt s.calls with
  | some fault =>
    right
    obtain ⟨s', hselect, hcommitted, hcalls, -⟩ := select_refused
      (fun t : Tables => (t.vtQueue.find? item.mediaFileId).isSome) hactive hfault
    exact ⟨fault, _, s', Call.run_bind_error (Call.run_bind_error hselect), rfl, hcommitted, hcalls⟩
  | none =>
    obtain ⟨inserted, t, hinsert, hintact, hqueued⟩ :=
      insertVtIfAbsent_answered item hactive hfault
    have hcommitting : firstAttempt env item s = (do commit env.db; return inserted :
        Service Bool) { s with working := t, calls := s.calls + 1 } := Call.run_bind_ok hinsert
    cases hfault' : env.faultAt (s.calls + 1) with
    | none =>
      have hcommit := commit_accepted
        (s := { s with working := t, calls := s.calls + 1 }) hactive hfault'
      left
      exact ⟨inserted, _, hcommitting.trans (Call.run_bind_ok hcommit), rfl, hintact, hqueued⟩
    | some fault =>
      have hcommit := commit_refused
        (s := { s with working := t, calls := s.calls + 1 }) hactive hfault'
      right
      exact ⟨fault, _, _, hcommitting.trans (Call.run_bind_error hcommit), rfl, rfl, rfl⟩

/-- The second attempt, made on what was committed: whichever way it ends, the tables
    are those committed, but for a row it put there. -/
theorem retry_run (item : VtQueueItem) {s : Session Tables Outside} (hactive : s.failed = false)
    (hclean : s.working = s.committed) :
    Intact item.mediaFileId s.committed
        ((Call.attempt (secondAttempt env item) afterSecond) s).2.working ∧
      (Queued item.mediaFileId
          ((Call.attempt (secondAttempt env item) afterSecond) s).2.working ↔
        Queued item.mediaFileId s.committed ∨ firstFault env s.calls = none) := by
  -- an exception leaves the committed tables
  have hraised : ∀ {e : ServiceError} {s' : Session Tables Outside},
      secondAttempt env item s = (.error e, s') → s'.committed = s.committed →
      s'.working = s.committed →
      ((Call.attempt (secondAttempt env item) afterSecond) s).2.working = s.committed := by
    intro e s' hrun hcommitted hworking
    rw [Call.run_attempt, hrun]
    unfold afterSecond
    by_cases hintegrity : e = .database .integrity
    · simp only [hintegrity, if_true]
      exact hcommitted
    · simp only [hintegrity, if_false]
      exact hworking
  unfold firstFault
  cases hfault : env.faultAt s.calls with
  | some fault =>
    obtain ⟨s', hselect, hcommitted, -, hworking⟩ := select_refused
      (fun t : Tables => (t.vtQueue.find? item.mediaFileId).isSome) hactive hfault
    rw [hclean, or_self] at hworking
    rw [hraised (Call.run_bind_error (Call.run_bind_error hselect)) hcommitted hworking]
    exact ⟨.refl _ _, by simp⟩
  | none =>
    have hselect := select_answered
      (fun t : Tables => (t.vtQueue.find? item.mediaFileId).isSome) hactive hfault
    cases htaken : (s.working.vtQueue.find? item.mediaFileId).isSome with
    | true =>
      have hinsert : insertVt env item s =
          (.error (.database .integrity), { s with calls := s.calls + 1 }) := by
        unfold insertVt
        rw [Call.run_bind_ok hselect, htaken]; rfl
      rw [hraised (Call.run_bind_error hinsert) rfl hclean]
      rw [hclean, ← queued_iff] at htaken
      exact ⟨.refl _ _, by simp [htaken]⟩
    | false =>
      have hinsert : insertVt env item s = (.ok (), { s with
          working := s.working.putVtItem item, calls := s.calls + 1 }) := by
        unfold insertVt
        rw [Call.run_bind_ok hselect, htaken]; rfl
      have hcommitting : secondAttempt env item s = (do commit env.db; return true :
          Service Bool) { s with working := s.working.putVtItem item, calls := s.calls + 1 } :=
        Call.run_bind_ok hinsert
      cases hfault' : env.faultAt (s.calls + 1) with
      | some fault =>
        have hcommit := commit_refused (s := { s with
          working := s.working.putVtItem item, calls := s.calls + 1 }) hactive hfault'
        rw [hraised (hcommitting.trans (Call.run_bind_error hcommit)) rfl rfl]
        exact ⟨.refl _ _, by simp⟩
      | none =>
        have hcommit := commit_accepted (s := { s with
          working := s.working.putVtItem item, calls := s.calls + 1 }) hactive hfault'
        rw [Call.run_attempt, hcommitting.trans (Call.run_bind_ok hcommit)]
        show Intact _ _ (s.working.putVtItem item) ∧
          (Queued _ (s.working.putVtItem item) ↔ _)
        rw [← hclean]
        exact ⟨intact_putVtItem _ _, by simp [queued_putVtItem]⟩

end Paths

/-! ### The caller's changes -/

/-- A call keeps what its caller did, and queues the file, exactly if it is safe. -/
theorem keptAndQueued_iff_safe (env : Env) (mediaFileId : String) (s : Session Tables Outside)
    (hactive : s.failed = false) :
    KeptAndQueued mediaFileId s (enqueueForVtLookup env mediaFileId s).2 ↔
      Safe env mediaFileId s := by
  have hdef : enqueueForVtLookup env mediaFileId s =
      Call.attempt (firstAttempt env ⟨mediaFileId, env.clock s.calls⟩)
        (fun e => do
          rollback
          if e = .database .integrity then return false
          else Call.attempt (secondAttempt env ⟨mediaFileId, env.clock s.calls⟩) afterSecond) s :=
    rfl
  rw [hdef, Call.run_attempt]
  rcases firstAttempt_run ⟨mediaFileId, env.clock s.calls⟩ hactive with
    ⟨inserted, s', hrun, hnone, hintact, hqueued⟩ |
    ⟨fault, calls, s', hrun, hfault, hcommitted, hcalls⟩
  · rw [hrun, Safe, hnone]
    exact iff_of_true ⟨hintact, fun _ => hqueued⟩ trivial
  · have hrollback : (rollback : Service Unit) s' =
        (.ok (), { s' with working := s'.committed, expired := true, failed := false }) := rfl
    rw [hrun, Safe, hfault]
    simp only []
    rw [Call.run_bind_ok hrollback, hcommitted, hcalls]
    by_cases hintegrity : fault.error = .integrity
    · simp only [hintegrity, if_true, KeptAndQueued, ne_eq, not_true_eq_false, false_and, or_false]
      rfl
    · have hother : ServiceError.database fault.error ≠ .database .integrity := by
        intro heq
        exact hintegrity (ServiceError.database.inj heq)
      obtain ⟨hintact, hqueued⟩ := retry_run ⟨mediaFileId, env.clock s.calls⟩
        (s := { s' with working := s.committed, committed := s.committed, failed := false,
                        expired := true, calls := calls }) rfl rfl
      simp only [hother, if_false, KeptAndQueued, ne_eq, hintegrity, not_false_eq_true, true_and]
      rw [hqueued]
      apply and_congr_left'
      constructor
      · intro hkept
        exact hkept.trans hintact.symm
      · intro hkept
        exact hkept.trans hintact

/-! ### A change undone -/

def otherFile : MediaFile := .unprobed "f2" "l1" "/media/b.avi" "avi"

theorem otherFile_alone : ([otherFile].map MediaFile.id).Nodup :=
  List.nodup_singleton _

theorem otherFile_path_alone : ([otherFile].map MediaFile.path).Nodup :=
  List.nodup_singleton _

/-- One file in the media table. -/
def oneFile : Tables :=
  { Tables.empty with
    media := ⟨[otherFile], otherFile_alone⟩
    media_path_unique := otherFile_path_alone }

/-- The caller has raised the severity of `f2`, and not committed yet; of `f1`, which it
    loaded before, another session has deleted the row and committed. -/
def raising : Session Tables Outside :=
  { freshSession oneFile with
    working := oneFile.setSeverity "f2" .warn (RuleSchema.SEVERITY_LEVELS .warn) }

/-- An insert for `f1` violates the foreign key, a row of `vt_queue` names a row of
    `media_files`. -/
def foreignKeyEnv : Env :=
  { calmEnv with faultAt := fun n => if n = 0 then some ⟨.integrity, false⟩ else none }

theorem keptAndQueued_iff_safe_calm :
    KeptAndQueued "f2" raising (enqueueForVtLookup calmEnv "f2" raising).2 ↔
      Safe calmEnv "f2" raising :=
  keptAndQueued_iff_safe calmEnv "f2" raising rfl

/-- The rollback after the violation takes the severity of the other file back. -/
theorem enqueue_undoes_change :
    ¬∀ (env : Env) (mediaFileId : String) (s : Session Tables Outside), s.failed = false →
      KeptAndQueued mediaFileId s (enqueueForVtLookup env mediaFileId s).2 := by
  intro hall
  have hkept := (hall foreignKeyEnv "f1" raising rfl).1.tables
  have hranks := congrArg (fun t : Tables => t.media.rows.map MediaFile.severityRank) hkept
  exact absurd hranks (by decide +kernel)

end VtEnqueue
