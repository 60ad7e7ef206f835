/-
  Auditarr/RulesPass.lean
  =======================
  **A pass over a library, and what is committed of it.**

  A pass is one transaction.  Three things decide what the committed tables say
  about a file afterwards: whether the file was reached before a rule that cannot be
  evaluated ended the pass, whether a VirusTotal enqueue committed the session after
  the file was done, and what the caller does with a pass that raised.
-/
import Auditarr.RulesTotality

namespace RulesPass

open Effects Transactions KeyedTable PyValues RuleSchema RuleEvaluator RuleAggregation
open Database RulesService RulesEffect RulesTotality

/-! ### What the tables say about a file -/

/-- The severity of the file's row, if it has one, and the audit entries of its
    deletion. -/
def fate (t : Tables) (id : String) : Option (Severity × Nat) × List AuditLogEntry :=
  ((t.media.find? id).map fun m => (m.severity, m.severityRank),
    (deletions t).filter (·.targetId = id))

/-- A `file.deleted` entry that names the trash path of the move. -/
def names (move : TrashMove) (entry : AuditLogEntry) : Bool :=
  match entry.metadata with
  | .fileDeleted _ _ trashPath => trashPath = some move.trashPath
  | _ => false

def entriesNaming (move : TrashMove) (t : Tables) : Nat :=
  ((fate t move.mediaFileId).2.filter (names move)).length

/-- The moved file has no row, and one entry more than before names its trash
    path. -/
def Deleted (before after : Tables) (move : TrashMove) : Prop :=
  (fate after move.mediaFileId).1 = none ∧ entriesNaming move after = entriesNaming move before + 1

/-- A call that leaves the fate of every file alone, and the trash. -/
def Faithful {α : Type} (c : Service α) : Prop := Within (Keeps fate Outside.trash) c

section Frames

variable {env : Env} {m : MediaFile}

theorem fate_of_core_eq {t t' : Tables} (hcore : core t' = core t) : fate t' = fate t := by
  simp only [core, Prod.mk.injEq] at hcore
  obtain ⟨hmedia, -, -, hdeletions⟩ := hcore
  funext id
  rw [fate, fate, hmedia, hdeletions]

theorem Faithful.ofQuiet {α : Type} {c : Service α} (hc : Quiet c) : Faithful c :=
  Within.mono hc fun _ _ h => h.imp (fun _ _ => fate_of_core_eq) fun _ _ hfiles =>
    congrArg Prod.snd hfiles

theorem Faithful.bind {α β : Type} {c : Service α} {k : α → Service β} (hc : Faithful c)
    (hk : ∀ a, Faithful (k a)) : Faithful (c >>= k) :=
  within_bind hc hk

theorem faithful_edit {change : Tables → Tables} (h : ∀ t, fate (change t) = fate t) :
    Faithful (edit change) :=
  keeps_edit h

theorem fate_setSeverity_other {t : Tables} {id id' : String} (hid : id' ≠ id)
    (severity : Severity) (rank : Nat) :
    fate (t.setSeverity id severity rank) id' = fate t id' := by
  refine Prod.ext ?_ rfl
  simp only [fate, Tables.setSeverity, Table.find?_update, Option.map_map]
  cases hfind : t.media.find? id' with
  | none => rfl
  | some m =>
    have hm : m.id ≠ id := (Table.mem_of_find? hfind).2 ▸ hid
    simp [hm]

theorem fate_setSeverity_own (t : Tables) (id : String) (severity : Severity) (rank : Nat) :
    fate (t.setSeverity id severity rank) id =
      ((fate t id).1.map fun _ => (severity, rank), (fate t id).2) := by
  refine Prod.ext ?_ rfl
  simp only [fate, Tables.setSeverity, Table.find?_update, Option.map_map]
  cases hfind : t.media.find? id with
  | none => rfl
  | some m => simp [(Table.mem_of_find? hfind).2]

theorem faithful_dropStale (ruleIds matched : List String) :
    Faithful (dropStale env m ruleIds matched) :=
  within_when fun _ => within_bind (Faithful.ofQuiet (quiet_load _)) fun _ =>
    within_bind (Faithful.ofQuiet (quiet_select _)) fun _ => faithful_edit fun _ => rfl

theorem faithful_upsertTag (tag : String) : Faithful (upsertTag env m tag) :=
  within_bind (Faithful.ofQuiet (quiet_load _)) fun _ =>
    within_bind (Faithful.ofQuiet (quiet_select _)) fun _ => faithful_edit fun _ => rfl

theorem faithful_persistMatch (input : EvaluationInput) (now : Nat) (rule : Rule)
    (definition : RuleDefinition) (result aggregate : EvaluationResult) :
    Faithful (persistMatch env m input now rule definition result aggregate) := by
  refine within_bind (Faithful.ofQuiet (quiet_load _)) fun _ => Faithful.bind ?_ fun _ =>
    Faithful.ofQuiet ?_
  · exact within_bind (Faithful.ofQuiet (quiet_select _)) fun _ =>
      within_bind (faithful_edit fun _ => rfl) fun _ => Faithful.ofQuiet quiet_flush
  · exact (quiet_forEach _ fun _ => quiet_queueOptimization _ _ _ _ _).bind fun _ =>
      quiet_when (quiet_forEach _ fun _ => quiet_notify _ _ _ _ _ _)

theorem faithful_evaluateOne (input : EvaluationInput) (now : Nat) (persist : Bool)
    (progress : Progress) (entry : Rule × RuleDefinition) :
    Faithful (evaluateOne env m input now persist progress entry) := by
  unfold evaluateOne
  cases hev : evaluate env.rt entry.2 input with
  | error e =>
    simp only [hev]
    exact Faithful.ofQuiet (quiet_raise _)
  | ok result =>
    simp only [hev]
    split
    · exact Faithful.bind (Faithful.ofQuiet (quiet_load _)) fun _ =>
        Faithful.bind (within_when fun _ => faithful_persistMatch _ _ _ _ _ _) fun _ =>
          Faithful.ofQuiet (quiet_pure _)
    · exact Faithful.ofQuiet (quiet_pure _)

theorem faithful_loop (input : EvaluationInput) (now : Nat) (persist : Bool) (progress : Progress)
    (rules : List (Rule × RuleDefinition)) :
    Faithful (Call.foldEach (evaluateOne env m input now persist) progress rules) :=
  within_foldEach rules (fun _ _ _ => faithful_evaluateOne _ _ _ _ _) progress

end Frames

/-! ### One file -/

/-- The rules can be evaluated on the file. -/
def fits (env : Env) (t : Tables) (rules : List (Rule × RuleDefinition)) (m : MediaFile) : Bool :=
  rules.all fun entry => evaluable env.rt (inputOf t m) entry.2.match_

/-- The rules that match the file ask for a VirusTotal lookup and the plugin is
    there. -/
def looksUp (env : Env) (t : Tables) (rules : List (Rule × RuleDefinition)) (m : MediaFile) : Bool :=
  (progressAfter env.rt (inputOf t m) rules).aggregate.vtLookupRequested && env.vtPlugin

/-- The severity and rank the rules give the file. -/
def judged (env : Env) (t : Tables) (rules : List (Rule × RuleDefinition)) (m : MediaFile) :
    Severity × Nat :=
  let aggregate := (progressAfter env.rt (inputOf t m) rules).aggregate
  (aggregate.severity.getD .ok, aggregate.severityRank)

/-- From `s` to `s'` at most this file was deleted or given the severity `judgement`,
    and nothing committed. -/
structure Touched (m : MediaFile) (judgement : Severity × Nat) (s s' : Session Tables Outside) :
    Prop where
  committed : s'.committed = s.committed
  before : s'.Live → s.Live
  others : s'.Live → ∀ id, id ≠ m.id → fate s'.working id = fate s.working id
  own : s'.Live → (fate s'.working m.id).1 = none ∨ (fate s'.working m.id).1 = some judgement
  trash : s'.world.trash = s.world.trash ∨ ∃ move, move.mediaFileId = m.id ∧
    s'.world.trash = s.world.trash ++ [move] ∧ (s'.Live → Deleted s.working s'.working move)

section OneFile

variable {env : Env} {m : MediaFile} {s s' : Session Tables Outside}

/-- The severity is written and the file still there. -/
structure Marked (m : MediaFile) (judgement : Severity × Nat) (s s' : Session Tables Outside) :
    Prop where
  committed : s'.committed = s.committed
  before : s'.Live → s.Live
  others : s'.Live → ∀ id, id ≠ m.id → fate s'.working id = fate s.working id
  own : s'.Live → (fate s'.working m.id).1 = (fate s.working m.id).1.map fun _ => judgement
  entries : s'.Live → (fate s'.working m.id).2 = (fate s.working m.id).2
  trash : s'.world.trash = s.world.trash

theorem Marked.touched {judgement : Severity × Nat} (h : Marked m judgement s s') :
    Touched m judgement s s' where
  committed := h.committed
  before := h.before
  others := h.others
  own hlive := by
    rw [h.own hlive]
    cases (fate s.working m.id).1 with
    | none => exact .inl rfl
    | some _ => exact .inr rfl
  trash := .inl h.trash

theorem Marked.then_keeps {judgement : Severity × Nat} {s'' : Session Tables Outside}
    (h : Marked m judgement s s') (hkeeps : Keeps fate Outside.trash s' s'') :
    Marked m judgement s s'' where
  committed := hkeeps.1.trans h.committed
  before hlive := h.before (hkeeps.2.2 hlive).1
  others hlive id hid := by
    rw [(hkeeps.2.2 hlive).2, h.others (hkeeps.2.2 hlive).1 id hid]
  own hlive := by rw [(hkeeps.2.2 hlive).2, h.own (hkeeps.2.2 hlive).1]
  entries hlive := by rw [(hkeeps.2.2 hlive).2, h.entries (hkeeps.2.2 hlive).1]
  trash := hkeeps.2.1.trans h.trash

theorem marked_setSeverity (severity : Severity) (rank : Nat)
    (hkeeps : Keeps fate Outside.trash s s') :
    Marked m (severity, rank) s
      { s' with working := s'.working.setSeverity m.id severity rank } where
  committed := hkeeps.1
  before hlive := (hkeeps.2.2 hlive).1
  others hlive id hid := by
    rw [fate_setSeverity_other hid, (hkeeps.2.2 hlive).2]
  own hlive := by
    rw [fate_setSeverity_own, (hkeeps.2.2 hlive).2]
  entries hlive := by
    rw [fate_setSeverity_own, (hkeeps.2.2 hlive).2]
  trash := hkeeps.2.1

theorem deleted_congr {before before' after after' : Tables} {move : TrashMove}
    (hbefore : (fate before' move.mediaFileId).2 = (fate before move.mediaFileId).2)
    (hafter : fate after' move.mediaFileId = fate after move.mediaFileId)
    (hdeleted : Deleted before after move) : Deleted before' after' move := by
  unfold Deleted entriesNaming at hdeleted ⊢
  rw [hbefore, hafter]
  exact hdeleted

theorem recordAudit_within (entry : AuditLogEntry) :
    Within (fun s s' => s'.committed = s.committed ∧ s'.world = s.world ∧
      (s'.Live → s.Live ∧ s'.working = s.working.addAudit entry)) (recordAudit env entry) := by
  intro s
  exact (keeps_flush : Within (Keeps id id) (flush env.db))
    { s with working := s.working.addAudit entry }

theorem fate_addAudit_other {t : Tables} {entry : AuditLogEntry} {id : String}
    (hid : id ≠ entry.targetId) : fate (t.addAudit entry) id = fate t id := by
  refine Prod.ext rfl ?_
  by_cases haction : entry.action = "file.deleted"
  · simp [fate, deletions, Tables.addAudit, List.filter_append, haction, Ne.symm hid]
  · simp [fate, deletions, Tables.addAudit, List.filter_append, haction]

theorem fate_deleteMedia_other {foreignKeys : Bool} {t : Tables} {id id' : String}
    (hid : id' ≠ id) : fate (t.deleteMedia foreignKeys id) id' = fate t id' := by
  simp only [fate, Tables.deleteMedia, Table.find?_erase_other hid]
  rfl

theorem fate_deleteMedia_own (foreignKeys : Bool) (t : Tables) (id : String) :
    (fate (t.deleteMedia foreignKeys id) id).1 = none := by
  simp only [fate, Tables.deleteMedia, Table.find?_erase_self]
  rfl

/-- The audit entry of a deletion. -/
def deletionEntry (m : MediaFile) (reason : String) (dstPath : Option String) : AuditLogEntry where
  action := "file.deleted"
  actorLabel := "rules"
  targetType := "media_file"
  targetId := m.id
  metadata := .fileDeleted m.path reason dstPath

theorem deleted_own (t : Tables) (foreignKeys : Bool) (reason dst : String) :
    Deleted t ((t.addAudit (deletionEntry m reason (some dst))).deleteMedia foreignKeys m.id)
      ⟨m.id, m.path, dst⟩ := by
  refine ⟨fate_deleteMedia_own _ _ _, ?_⟩
  simp [entriesNaming, fate, deletions, Tables.deleteMedia, Tables.addAudit, deletionEntry,
      List.filter_append, names]

theorem triple_moveToTrash_run :
    Triple (· = s) (moveToTrash env m)
      (fun moved s' => (s'.committed = s.committed ∧ s'.working = s.working ∧ (s'.Live → s.Live)) ∧
        match moved with
        | .ok (some dst) => s'.world.trash = s.world.trash ++ [⟨m.id, m.path, dst⟩]
        | _ => s'.world.trash = s.world.trash)
      (fun _ _ => True) := by
  refine triple_load_bind (fun _ _ _ => trivial) ?_
  split
  · exact triple_pure _ fun s' hs' => by rw [hs'.1]; exact ⟨⟨rfl, rfl, id⟩, rfl⟩
  · rintro s' ⟨rfl, -⟩
    cases hpresent : s'.world.onDisk m.path with
    | false =>
      rw [Call.run_bind_ok (Call.run_read _ _)]
      simp [hpresent, Ends]
    | true =>
      rw [Call.run_bind_ok (Call.run_read _ _)]
      simp only [hpresent, if_true]
      exact ⟨⟨rfl, rfl, id⟩, rfl⟩

theorem triple_auditDeletion (entry : AuditLogEntry) :
    Triple (· = s)
      (Call.attempt (recordAudit env entry) fun _ => do
        let _ ← load env.db m.id
        pure ())
      (fun _ s' => s'.committed = s.committed ∧ s'.world = s.world ∧
        (s'.Live → s.Live ∧ s'.working = s.working.addAudit entry))
      (fun _ _ => True) := by
  refine Triple.attempt (H := fun _ s' => s'.committed = s.committed ∧ s'.world = s.world ∧
    (s'.Live → s.Live ∧ s'.working = s.working.addAudit entry)) ?_ fun _ => ?_
  · rintro _ rfl
    exact ends_const (recordAudit_within entry _) _
  · exact triple_load_bind (fun _ _ _ => trivial) (triple_pure _ fun _ hs => hs.1)

theorem triple_hardDeleteMedia_run {judgement : Severity × Nat} (reason : String) :
    Triple (Marked m judgement s) (hardDeleteMedia env m reason)
      (fun _ => Touched m judgement s) (fun _ _ => True) := by
  intro s₀ hmarked
  revert hmarked
  refine fun hmarked => Triple.bind (triple_moveToTrash_run (s := s₀)) (fun moved => ?_) s₀ rfl
  rintro s₁ ⟨⟨hcommitted, hworking, hlive₁⟩, htrash⟩
  cases moved with
  | error e =>
    exact (hmarked.then_keeps
      ⟨hcommitted, htrash, fun hlive => ⟨hlive₁ hlive, congrArg fate hworking⟩⟩).touched
  | ok dstPath =>
    refine Triple.bind (triple_auditDeletion (deletionEntry m reason dstPath)) (fun _ => ?_) s₁ rfl
    refine triple_load_bind (fun _ _ _ => trivial) ?_
    rintro s₂ ⟨⟨hcommitted₂, hworld₂, hlive₂⟩, -⟩
    have hworking₂ : s₂.Live →
        s₂.working = s₀.working.addAudit (deletionEntry m reason dstPath) := fun hlive => by
      rw [(hlive₂ hlive).2, hworking]
    have hlive₀ : s₂.Live → s₀.Live := fun hlive => hlive₁ (hlive₂ hlive).1
    exact {
      committed := (hcommitted₂.trans hcommitted).trans hmarked.committed
      before := fun hlive => hmarked.before (hlive₀ hlive)
      others := fun hlive id hid => by
        show fate (s₂.working.deleteMedia env.foreignKeys m.id) id = _
        rw [hworking₂ hlive, fate_deleteMedia_other hid, fate_addAudit_other hid,
          hmarked.others (hlive₀ hlive) id hid]
      own := fun _ => .inl (fate_deleteMedia_own _ _ _)
      trash := by
        show s₂.world.trash = _ ∨ _
        rw [hworld₂, ← hmarked.trash]
        cases dstPath with
        | none => exact .inl htrash
        | some dst =>
          have htrash₂ : s₂.world.trash = s₀.world.trash ++ [⟨m.id, m.path, dst⟩] := by
            rw [hworld₂]; exact htrash
          refine .inr ⟨⟨m.id, m.path, dst⟩, rfl, htrash₂, fun hlive => ?_⟩
          show Deleted _ (s₂.working.deleteMedia env.foreignKeys m.id) _
          rw [hworking₂ hlive]
          exact deleted_congr (hmarked.entries (hlive₀ hlive)).symm rfl (deleted_own _ _ _ _) }

theorem Touched.then_keeps {judgement : Severity × Nat} {s'' : Session Tables Outside}
    (h : Touched m judgement s s') (hkeeps : Keeps fate Outside.trash s' s'') :
    Touched m judgement s s'' where
  committed := hkeeps.1.trans h.committed
  before hlive := h.before (hkeeps.2.2 hlive).1
  others hlive id hid := by
    rw [(hkeeps.2.2 hlive).2, h.others (hkeeps.2.2 hlive).1 id hid]
  own hlive := by rw [(hkeeps.2.2 hlive).2]; exact h.own (hkeeps.2.2 hlive).1
  trash := by
    rw [hkeeps.2.1]
    refine h.trash.imp_right fun ⟨move, hid, htrash, hdeleted⟩ => ⟨move, hid, htrash, fun hlive => ?_⟩
    exact deleted_congr rfl (congrFun (hkeeps.2.2 hlive).2 _) (hdeleted (hkeeps.2.2 hlive).1)

/-- From `s` to `s'` the file was evaluated: it was deleted or has the severity
    `judgement`, and everything was committed if a lookup was asked for. -/
structure FileStep (m : MediaFile) (judgement : Severity × Nat) (looked : Bool)
    (s s' : Session Tables Outside) : Prop where
  others : ∀ id, id ≠ m.id → fate s'.working id = fate s.working id
  own : (fate s'.working m.id).1 = none ∨ (fate s'.working m.id).1 = some judgement
  committed : fate s'.committed = if looked then fate s'.working else fate s.committed
  trash : s'.world.trash = s.world.trash ∨ ∃ move, move.mediaFileId = m.id ∧
    s'.world.trash = s.world.trash ++ [move] ∧ Deleted s.working s'.working move

section Steps

variable {judgement : Severity × Nat} {looked : Bool} {s'' : Session Tables Outside}

theorem Touched.fileStep (h : Touched m judgement s s') (hlive : s'.Live) :
    FileStep m judgement false s s' where
  others := h.others hlive
  own := h.own hlive
  committed := by rw [h.committed]; rfl
  trash := h.trash.imp_right fun ⟨move, hid, htrash, hdeleted⟩ =>
    ⟨move, hid, htrash, hdeleted hlive⟩

theorem Touched.fileStep_committed (h : Touched m judgement s s') (hlive : s'.Live) :
    FileStep m judgement true s { s' with committed := s'.working } where
  others := h.others hlive
  own := h.own hlive
  committed := rfl
  trash := h.trash.imp_right fun ⟨move, hid, htrash, hdeleted⟩ =>
    ⟨move, hid, htrash, hdeleted hlive⟩

/-- The step of a session that ends live. -/
def Stepped (m : MediaFile) (judgement : Severity × Nat) (looked : Bool)
    (s s' : Session Tables Outside) : Prop :=
  s'.Live → FileStep m judgement looked s s'

theorem Stepped.then_keeps (h : Stepped m judgement looked s s')
    (hkeeps : Keeps fate Outside.trash s' s'') : Stepped m judgement looked s s'' := by
  intro hlive
  obtain ⟨hlive', hfate⟩ := hkeeps.2.2 hlive
  have hstep := h hlive'
  exact {
    others := fun id hid => by rw [hfate, hstep.others id hid]
    own := by rw [hfate]; exact hstep.own
    committed := by rw [hkeeps.1, hfate, hstep.committed]
    trash := by
      rw [hkeeps.2.1]
      exact hstep.trash.imp_right fun ⟨move, hid, htrash, hdeleted⟩ =>
        ⟨move, hid, htrash, deleted_congr rfl (congrFun hfate _) hdeleted⟩ }

theorem stepped_of_expired (h : s'.expired = true) : Stepped m judgement looked s s' :=
  fun hlive => by rw [hlive.2] at h; cases h

end Steps

theorem triple_then {α : Type} {R : Session Tables Outside → Session Tables Outside → Prop}
    {P : Session Tables Outside → Prop} {c : Service α} (hc : Within R c)
    (h : ∀ s s', P s → R s s' → P s') : Triple P c (fun _ => P) (fun _ => P) :=
  fun s hs => ends_const (h s _ hs (hc s)) _

theorem triple_applyAggregate_run (ruleIds : List String) (progress : Progress) :
    Triple (Keeps fate Outside.trash s) (applyAggregate env m ruleIds progress)
      (fun _ => Touched m (progress.aggregate.severity.getD .ok, progress.aggregate.severityRank) s)
      (fun _ _ => True) := by
  refine ((triple_within (faithful_dropStale _ _) s).consequence (fun _ hs => hs)
    (fun _ _ hs => hs) fun _ _ _ => trivial).bind fun _ => ?_
  refine Triple.bind (M := fun _ => Marked m
    (progress.aggregate.severity.getD .ok, progress.aggregate.severityRank) s)
    (fun _ hs => marked_setSeverity _ _ hs) fun _ => ?_
  have htags : Faithful (Call.forEach (upsertTag env m) progress.aggregate.addTags) :=
    within_forEach _ fun tag _ => faithful_upsertTag tag
  refine ((triple_then htags fun _ _ hs h => hs.then_keeps h).consequence (fun _ hs => hs)
    (fun _ _ hs => hs) fun _ _ _ => trivial).bind fun _ => ?_
  exact Triple.when (fun _ => triple_hardDeleteMedia_run _) fun _ _ hs => hs.touched

/-- Nothing brings expired objects back. -/
def StaysExpired (s s' : Session Tables Outside) : Prop := s.expired = true → s'.expired = true

instance : Std.Refl StaysExpired := ⟨fun _ h => h⟩

instance : IsTrans (Session Tables Outside) StaysExpired := ⟨fun _ _ _ hab hbc h => hbc (hab h)⟩

theorem staysExpired_contact (fatal : Bool) : Within StaysExpired (contact env.db fatal) := by
  intro s hs
  rcases contact_cases env.db fatal s with ⟨e, h⟩ | ⟨-, h⟩ | ⟨e, h⟩ | ⟨e, h⟩
  · rw [h]; exact hs
  · rw [h]; exact hs
  · rw [h]; exact hs
  · rw [h]; rfl

theorem staysExpired_insertVt (item : VtQueueItem) : Within StaysExpired (insertVt env item) := by
  refine within_bind (within_bind (staysExpired_contact _) fun _ => within_read _) fun taken => ?_
  split
  · exact within_raise _
  · exact fun _ h => h

theorem staysExpired_commit : Within StaysExpired (commit env.db) :=
  within_bind (staysExpired_contact _) fun _ _ h => h

theorem staysExpired_rollback : Within StaysExpired (rollback : Service Unit) := fun _ _ => rfl

/-- An enqueue that did not fail has committed what was there; one that was rolled
    back leaves the session expired. -/
theorem triple_enqueue_run {judgement : Severity × Nat} (mediaFileId : String) :
    Triple (Touched m judgement s) (enqueueForVtLookup env mediaFileId)
      (fun _ => Stepped m judgement true s) (fun _ _ => True) := by
  refine Triple.bind (M := fun _ => Touched m judgement s) (fun _ hs => hs) fun now => ?_
  refine Triple.attempt (H := fun _ _ => True) ?_ fun e => ?_
  · have hinsert : Faithful (insertVtIfAbsent env ⟨mediaFileId, now⟩) :=
      Faithful.ofQuiet (quiet_insertVtIfAbsent _)
    refine ((triple_then hinsert fun _ _ hs h => hs.then_keeps h).consequence (fun _ hs => hs)
      (fun _ _ hs => hs) fun _ _ _ => trivial).bind fun inserted => ?_
    refine Triple.bind (M := fun _ => Stepped m judgement true s) ?_ fun _ =>
      triple_pure _ fun _ hs => hs
    refine triple_commit_of (D := fun _ => True)
      (fun s' n h => ⟨h.committed, h.before, h.others, h.own, h.trash⟩) (fun _ _ => trivial) ?_
    exact fun s' h _ hlive => h.fileStep_committed hlive
  · have hrolledBack : Triple (fun _ => True) (rollback : Service Unit)
        (fun _ s' => s'.expired = true) (fun _ _ => True) := fun _ _ => rfl
    refine hrolledBack.bind fun _ => ?_
    refine ((triple_then (R := StaysExpired) ?_ fun _ _ hs h => h hs).consequence
      (fun _ hs => hs) (fun _ _ hs => stepped_of_expired hs) fun _ _ _ => trivial)
    split
    · exact within_pure _
    · refine within_attempt (within_bind (staysExpired_insertVt _) fun _ =>
        within_bind staysExpired_commit fun _ => within_pure _) fun e' => ?_
      split
      · exact within_bind staysExpired_rollback fun _ => within_pure _
      · exact within_raise _

theorem triple_applyLookups_run {judgement : Severity × Nat} (aggregate : EvaluationResult) :
    Triple (Touched m judgement s) (applyLookups env m aggregate)
      (fun _ s' => Stepped m judgement (aggregate.vtLookupRequested && env.vtPlugin) s s' ∧
        s'.failed = false)
      (fun _ _ => True) := by
  refine Triple.bind (M := fun _ => Stepped m judgement
    (aggregate.vtLookupRequested && env.vtPlugin) s) ?_ fun _ => ?_
  · refine Triple.when (fun hlooked => ?_) fun hnot s' hs' => ?_
    · rw [hlooked]
      refine triple_load_bind (fun _ _ _ => trivial) ?_
      refine Triple.bind (M := fun _ => Stepped m judgement true s) ?_ fun _ =>
        triple_pure _ fun _ hs => hs
      exact (triple_enqueue_run m.id).consequence (fun _ hs => hs.1) (fun _ _ hs => hs)
        fun _ _ hs => hs
    · rw [hnot]
      exact hs'.fileStep
  · have hsearch : Faithful (Call.when (!aggregate.searchUpstreamRequests.isEmpty)
        (triggerUpstreamSearches env m aggregate.searchUpstreamRequests)) :=
      Faithful.ofQuiet (quiet_when (quiet_triggerUpstreamSearches m _))
    refine ((triple_then hsearch fun _ _ hs h => hs.then_keeps h).consequence (fun _ hs => hs)
      (fun _ _ hs => hs) fun _ _ _ => trivial).bind fun _ => ?_
    refine (triple_contact_of (D := fun _ => True) true (fun s' n h hlive => ?_)
      fun _ _ => trivial).consequence (fun _ hs => hs) (fun _ _ hs => hs) fun _ _ _ => trivial
    exact ⟨(h hlive).others, (h hlive).own, (h hlive).committed, (h hlive).trash⟩

theorem triple_loop_fits (input : EvaluationInput) (now : Nat)
    (rules : List (Rule × RuleDefinition)) (progress : Progress) :
    Triple (fun _ => True) (Call.foldEach (evaluateOne env m input now true) progress rules)
      (fun _ _ => ∀ entry ∈ rules, evaluable env.rt input entry.2.match_ = true)
      (fun _ _ => True) := by
  refine (Triple.foldEach (I := fun done _ _ => ∀ entry ∈ done,
    evaluable env.rt input entry.2.match_ = true) progress rules ?_).consequence
    (fun _ _ _ hnone => by cases hnone) (fun _ _ hs => hs) fun _ _ hs => hs
  intro done entry rest acc _
  cases hentry : evaluable env.rt input entry.2.match_ with
  | false =>
    obtain ⟨p, hp⟩ := evaluate_raises hentry
    intro s' _
    unfold evaluateOne
    simp only [hp]
    trivial
  | true =>
    intro s' hdone
    have hall : ∀ e ∈ done ++ [entry], evaluable env.rt input e.2.match_ = true := by
      intro e he
      rcases List.mem_append.mp he with hold | hnew
      · exact hdone e hold
      · rw [List.mem_singleton.mp hnew]; exact hentry
    cases (evaluateOne env m input now true acc entry s').1 with
    | ok _ => exact hall
    | error _ => trivial

theorem triple_evaluateFile_run {rules : List (Rule × RuleDefinition)}
    (hnodup : (rules.map (·.1.id)).Nodup) :
    Triple (· = s) (evaluateFile env m rules true)
      (fun _ s' => s'.Live ∧ fits env s.working rules m = true ∧
        FileStep m (judged env s.working rules m) (looksUp env s.working rules m) s s')
      (fun _ _ => True) := by
  refine triple_load_bind (fun _ _ _ => trivial) ?_
  let Here (x : Session Tables Outside) : Prop :=
    Holding (fun _ => True) (· = s.working) x ∧ Keeps fate Outside.trash s x
  refine Triple.bind (M := fun input x => input = inputOf s.working m ∧ Here x) ?_ fun input =>
    Triple.assuming fun hinput => ?_
  · refine ((triple_select_live (D := fun _ => True) (P := (· = s.working)) fun t => inputOf t m).and
      (triple_within (Faithful.ofQuiet (quiet_select _)) s)).consequence ?_ ?_
      fun _ _ _ => trivial
    · rintro _ ⟨rfl, hexpired⟩
      exact ⟨⟨⟨trivial, fun _ => rfl⟩, hexpired⟩, Std.Refl.refl _⟩
    · rintro input x ⟨⟨⟨t, rfl, hinput⟩, hholding, -⟩, hkeeps⟩
      exact ⟨hinput, hholding, hkeeps⟩
  subst hinput
  refine Triple.bind (M := fun _ => Here) (fun _ hs => hs) fun now => ?_
  refine Triple.bind (M := fun progress x => (progress = progressAfter env.rt (inputOf s.working m) rules ∧
    fits env s.working rules m = true) ∧ Keeps fate Outside.trash s x) ?_ fun progress =>
      Triple.assuming fun hprogress => ?_
  · refine (((triple_loop rules hnodup).and (triple_within (faithful_loop _ now true _ rules) s)).and
      (triple_loop_fits _ now rules _)).consequence (fun _ hs => ⟨hs, trivial⟩) ?_
      fun _ _ _ => trivial
    rintro progress x ⟨⟨⟨hprogress, -⟩, hkeeps⟩, hfits⟩
    exact ⟨⟨hprogress, List.all_eq_true.mpr hfits⟩, hkeeps⟩
  obtain ⟨rfl, hfits⟩ := hprogress
  refine Triple.bind (M := fun _ x => Stepped m (judged env s.working rules m)
    (looksUp env s.working rules m) s x ∧ x.failed = false) ?_ fun _ => ?_
  · exact (triple_applyAggregate_run _ _).bind fun _ => triple_applyLookups_run _
  · refine triple_load_bind (fun _ _ _ => trivial) (triple_pure _ fun x hx => ?_)
    have hlive : x.Live := ⟨hx.1.2, hx.2⟩
    exact ⟨hlive, hfits, hx.1.1 hlive⟩

end OneFile

/-! ### A list of files -/

/-- A file before the first one that cannot be evaluated asks for a lookup. -/
def lookedUp (env : Env) (t : Tables) (rules : List (Rule × RuleDefinition)) :
    List MediaFile → Bool
  | [] => false
  | m :: rest => fits env t rules m && (looksUp env t rules m || lookedUp env t rules rest)

/-- The file `id` itself, or one after it and before the first one that cannot be
    evaluated, asks for a lookup. -/
def sheltered (env : Env) (t : Tables) (rules : List (Rule × RuleDefinition)) (id : String) :
    List MediaFile → Bool
  | [] => false
  | m :: rest =>
      fits env t rules m &&
        if m.id = id then looksUp env t rules m || lookedUp env t rules rest
        else sheltered env t rules id rest

/-- The file `id` is among those before the first one that cannot be evaluated. -/
def reached (env : Env) (t : Tables) (rules : List (Rule × RuleDefinition)) (id : String) :
    List MediaFile → Bool
  | [] => false
  | m :: rest => fits env t rules m && (decide (m.id = id) || reached env t rules id rest)

/-- What a pass from `s` to `s'` made of one of its files. -/
structure Listed (env : Env) (t : Tables) (rules : List (Rule × RuleDefinition))
    (files : List MediaFile) (s s' : Session Tables Outside) (m : MediaFile) : Prop where
  committed : fate s'.committed m.id =
    if sheltered env t rules m.id files then fate s'.working m.id else fate s.working m.id
  judged : reached env t rules m.id files = true →
    (fate s'.working m.id).1 = none ∨ (fate s'.working m.id).1 = some (judged env t rules m)
  unreached : reached env t rules m.id files = false → fate s'.working m.id = fate s.working m.id

/-- From `s` to `s'` a pass went over the files, to their end or to the first one
    that cannot be evaluated. -/
structure PassEffect (env : Env) (t : Tables) (rules : List (Rule × RuleDefinition))
    (files : List MediaFile) (s s' : Session Tables Outside) : Prop where
  live : s'.Live
  others : ∀ id, id ∉ files.map (·.id) → fate s'.working id = fate s.working id
  committed : ∀ id, id ∉ files.map (·.id) → fate s'.committed id =
    if lookedUp env t rules files then fate s'.working id else fate s.committed id
  listed : ∀ m ∈ files, Listed env t rules files s s' m
  trash : ∃ moves, s'.world.trash = s.world.trash ++ moves ∧ ∀ move ∈ moves,
    move.mediaFileId ∈ files.map (·.id) ∧ Deleted s.working s'.working move

section Passes

variable {env : Env} {t t' : Tables} {rules : List (Rule × RuleDefinition)} {m : MediaFile}
  {files rest : List MediaFile} {s s' s'' : Session Tables Outside}

theorem fits_congr (h : inputOf t' m = inputOf t m) : fits env t' rules m = fits env t rules m := by
  rw [fits, fits, h]

theorem looksUp_congr (h : inputOf t' m = inputOf t m) :
    looksUp env t' rules m = looksUp env t rules m := by
  rw [looksUp, looksUp, h]

theorem lookedUp_congr (h : ∀ m ∈ files, inputOf t' m = inputOf t m) :
    lookedUp env t' rules files = lookedUp env t rules files := by
  induction files with
  | nil => rfl
  | cons m rest ih =>
    rw [lookedUp, lookedUp, fits_congr (h m (by simp)), looksUp_congr (h m (by simp)),
      ih fun m' hm' => h m' (by simp [hm'])]

theorem sheltered_congr {id : String} (h : ∀ m ∈ files, inputOf t' m = inputOf t m) :
    sheltered env t' rules id files = sheltered env t rules id files := by
  induction files with
  | nil => rfl
  | cons m rest ih =>
    have hrest : ∀ m' ∈ rest, inputOf t' m' = inputOf t m' := fun m' hm' => h m' (by simp [hm'])
    rw [sheltered, sheltered, fits_congr (h m (by simp)), looksUp_congr (h m (by simp)),
      lookedUp_congr hrest, ih hrest]

theorem reached_congr {id : String} (h : ∀ m ∈ files, inputOf t' m = inputOf t m) :
    reached env t' rules id files = reached env t rules id files := by
  induction files with
  | nil => rfl
  | cons m rest ih =>
    rw [reached, reached, fits_congr (h m (by simp)), ih fun m' hm' => h m' (by simp [hm'])]

theorem judged_congr (h : inputOf t' m = inputOf t m) :
    judged env t' rules m = judged env t rules m := by
  rw [judged, judged, h]

theorem PassEffect.congr (h : ∀ m ∈ files, inputOf t' m = inputOf t m)
    (heffect : PassEffect env t' rules files s s') : PassEffect env t rules files s s' where
  live := heffect.live
  others := heffect.others
  committed id hid := by rw [heffect.committed id hid, lookedUp_congr h]
  listed m hm := by
    obtain ⟨hcommitted, hjudged, hunreached⟩ := heffect.listed m hm
    rw [sheltered_congr h] at hcommitted
    rw [reached_congr h, judged_congr (h m hm)] at hjudged
    rw [reached_congr h] at hunreached
    exact ⟨hcommitted, hjudged, hunreached⟩
  trash := heffect.trash

theorem PassEffect.nil (hlive : s.Live) : PassEffect env t rules [] s s where
  live := hlive
  others _ _ := rfl
  committed _ _ := rfl
  listed _ hm := by cases hm
  trash := ⟨[], by simp, by simp⟩

theorem PassEffect.stop (hlive : s'.Live) (hkeeps : Keeps fate Outside.trash s s')
    (hsame : ∀ m' ∈ m :: rest, fate s.committed m'.id = fate s.working m'.id)
    (hfits : fits env t rules m = false) : PassEffect env t rules (m :: rest) s s' where
  live := hlive
  others id _ := congrFun (hkeeps.2.2 hlive).2 id
  committed id _ := by rw [hkeeps.1, lookedUp, hfits]; rfl
  listed m' hm' :=
    { committed := by rw [hkeeps.1, sheltered, hfits, hsame m' hm']; rfl
      judged := fun hreached => by rw [reached, hfits] at hreached; cases hreached
      unreached := fun _ => congrFun (hkeeps.2.2 hlive).2 _ }
  trash := ⟨[], by simp [hkeeps.2.1], by simp⟩

theorem PassEffect.cons (hnodup : ((m :: rest).map (·.id)).Nodup)
    (hsame : fate s.committed m.id = fate s.working m.id)
    (hfits : fits env t rules m = true)
    (hstep : FileStep m (judged env t rules m) (looksUp env t rules m) s s')
    (hrest : PassEffect env t rules rest s' s'') : PassEffect env t rules (m :: rest) s s'' := by
  have hfresh : m.id ∉ rest.map (·.id) := (List.nodup_cons.mp hnodup).1
  have hne : ∀ id ∈ rest.map (·.id), id ≠ m.id := fun id hid heq => hfresh (heq ▸ hid)
  exact {
    live := hrest.live
    others := by
      intro id hid
      rw [List.map_cons, List.mem_cons, not_or] at hid
      rw [hrest.others id hid.2, hstep.others id hid.1]
    committed := by
      intro id hid
      rw [List.map_cons, List.mem_cons, not_or] at hid
      rw [hrest.committed id hid.2, lookedUp, hfits, hstep.committed, hrest.others id hid.2]
      cases lookedUp env t rules rest <;> cases looksUp env t rules m <;> rfl
    listed := by
      intro m' hm'
      rcases List.mem_cons.mp hm' with rfl | hmem
      · refine ⟨?_, fun _ => ?_, fun hunreached => ?_⟩
        · rw [hrest.committed _ hfresh, sheltered, hfits, if_pos rfl, hstep.committed,
            hrest.others _ hfresh]
          cases lookedUp env t rules rest <;> cases looksUp env t rules m' <;> simp [hsame]
        · rw [hrest.others _ hfresh]; exact hstep.own
        · simp [reached, hfits] at hunreached
      · have hother : m'.id ≠ m.id := hne _ (List.mem_map_of_mem hmem)
        obtain ⟨hcommitted, hjudged, hunreached⟩ := hrest.listed m' hmem
        have hreached : reached env t rules m'.id (m :: rest) = reached env t rules m'.id rest := by
          simp [reached, hfits, Ne.symm hother]
        refine ⟨?_, fun h => hjudged (hreached ▸ h), fun h => ?_⟩
        · rw [hcommitted, sheltered, hfits, if_neg (Ne.symm hother), hstep.others _ hother,
            Bool.true_and]
        · rw [hunreached (hreached ▸ h), hstep.others _ hother]
    trash := by
      obtain ⟨moves, htrash, hmoves⟩ := hrest.trash
      have hlater : ∀ move ∈ moves, move.mediaFileId ∈ (m :: rest).map (·.id) ∧
          Deleted s.working s''.working move := by
        intro move hmove
        obtain ⟨hid, hdeleted⟩ := hmoves move hmove
        exact ⟨List.mem_cons_of_mem _ hid,
          deleted_congr (congrArg Prod.snd (hstep.others _ (hne _ hid)).symm) rfl hdeleted⟩
      rcases hstep.trash with hnone | ⟨move, hid, hmoved, hdeleted⟩
      · exact ⟨moves, by rw [htrash, hnone], hlater⟩
      · refine ⟨move :: moves, by rw [htrash, hmoved, List.append_assoc]; rfl, ?_⟩
        intro move' hmove'
        rcases List.mem_cons.mp hmove' with rfl | hmem
        · refine ⟨by rw [hid]; simp, ?_⟩
          exact deleted_congr rfl (hrest.others _ (hid ▸ hfresh)) hdeleted
        · exact hlater move' hmem }

theorem fits_iff : fits env t rules m = true ↔
    ∀ entry ∈ rules, evaluable env.rt (inputOf t m) entry.2.match_ = true :=
  List.all_eq_true

theorem FileStep.same {judgement : Severity × Nat} {looked : Bool}
    (hstep : FileStep m judgement looked s s') {id : String}
    (hid : id ≠ m.id) (hsame : fate s.committed id = fate s.working id) :
    fate s'.committed id = fate s'.working id := by
  rw [hstep.committed]
  cases looked with
  | true => rfl
  | false => rw [hstep.others id hid]; exact hsame

theorem evaluateFile_stops (hclean : Clean env) (hlive : s.Live)
    (hfits : fits env s.working rules m = false) {e : ServiceError}
    (hrun : evaluateFile env m rules true s = (.error e, s')) :
    s'.Live ∧ Keeps fate Outside.trash s s' := by
  have hbad : ∃ entry ∈ rules, evaluable env.rt (inputOf s.working m) entry.2.match_ = false := by
    simpa [fits] using hfits
  obtain ⟨p, s₁, hraise, hlive₁, hloop⟩ := evaluateFile_raises hclean m rules true hlive hbad
  rw [hrun] at hraise
  obtain ⟨-, rfl⟩ := Prod.mk.inj hraise
  refine ⟨hlive₁, ?_⟩
  have hframe : Faithful (Call.foldEach
      (evaluateOne env m (inputOf s.working m) (env.clock (s.calls + 1)) true)
      ⟨aggregateStart, []⟩ rules) := faithful_loop _ _ _ _ _
  have hkeeps := hframe { s with calls := s.calls + 1 }
  rw [hloop] at hkeeps
  exact hkeeps

theorem run_evaluateEach (hrules : (rules.map (·.1.id)).Nodup)
    (hfiles : (files.map (·.id)).Nodup) (hlive : s.Live)
    (hsame : ∀ m ∈ files, fate s.committed m.id = fate s.working m.id) :
    Ends
      (fun _ => AllEvaluable env s.working rules files ∧
        PassEffect env s.working rules files s (evaluateEach env rules files s).2)
      (fun _ => Clean env →
        PassEffect env s.working rules files s (evaluateEach env rules files s).2)
      (evaluateEach env rules files s).1 := by
  induction files generalizing s with
  | nil => exact ⟨fun _ hnone => absurd hnone (by simp), PassEffect.nil hlive⟩
  | cons m rest ih =>
    rcases hrun : evaluateFile env m rules true s with ⟨e | outcome, s₁⟩
    · rw [evaluateEach, Call.run_bind_error hrun]
      intro hclean
      cases hfits : fits env s.working rules m with
      | false =>
        obtain ⟨hlive₁, hkeeps⟩ := evaluateFile_stops hclean hlive hfits hrun
        exact .stop hlive₁ hkeeps hsame hfits
      | true =>
        have hreturns := triple_evaluateFile_benign true (fits_iff.mp hfits) s
          ⟨rfl, fun _ => hlive⟩
        rw [hrun] at hreturns
        exact absurd hclean hreturns.2
    · obtain ⟨hlive₁, hfits, hstep⟩ := (triple_evaluateFile_run hrules).of_ok rfl hrun
      have hinputs := (evaluateFile_inputs hrules hrun).2
      have hne : ∀ m' ∈ rest, m'.id ≠ m.id := fun m' hm' heq =>
        (List.nodup_cons.mp hfiles).1 (List.mem_map.mpr ⟨m', hm', heq⟩)
      have hcongr : ∀ m' ∈ rest, inputOf s₁.working m' = inputOf s.working m' :=
        fun m' hm' => hinputs m' (hne m' hm')
      have hrest := ih (List.nodup_cons.mp hfiles).2 hlive₁ fun m' hm' =>
        hstep.same (hne m' hm') (hsame m' (by simp [hm']))
      have hcons : ∀ {s₂ : Session Tables Outside}, PassEffect env s₁.working rules rest s₁ s₂ →
          PassEffect env s.working rules (m :: rest) s s₂ := fun heffect =>
        .cons hfiles (hsame m (by simp)) hfits hstep (heffect.congr hcongr)
      rw [evaluateEach, Call.run_bind_ok hrun]
      rcases hrun' : evaluateEach env rules rest s₁ with ⟨e | outcomes, s₂⟩
      · rw [hrun'] at hrest
        rw [Call.run_bind_error hrun']
        exact fun hclean => hcons (hrest hclean)
      · rw [hrun'] at hrest
        rw [Call.run_bind_ok hrun']
        refine ⟨fun m' hm' entry hentry => ?_, hcons hrest.2⟩
        rcases List.mem_cons.mp hm' with rfl | hmem
        · exact fits_iff.mp hfits entry hentry
        · rw [← hcongr m' hmem]
          exact hrest.1 m' hmem entry hentry

theorem PassEffect.trans_keeps (hkeeps : Keeps fate Outside.trash s s') (hlive : s'.Live)
    (h : PassEffect env t rules files s' s'') : PassEffect env t rules files s s'' := by
  have hfate : fate s'.working = fate s.working := (hkeeps.2.2 hlive).2
  exact {
    live := h.live
    others := fun id hid => by rw [h.others id hid, hfate]
    committed := fun id hid => by rw [h.committed id hid, hkeeps.1]
    listed := fun m hm => by
      obtain ⟨hcommitted, hjudged, hunreached⟩ := h.listed m hm
      exact ⟨by rw [hcommitted, hfate], hjudged, fun hno => by rw [hunreached hno, hfate]⟩
    trash := by
      obtain ⟨moves, htrash, hmoves⟩ := h.trash
      refine ⟨moves, by rw [htrash, hkeeps.2.1], fun move hmove => ?_⟩
      obtain ⟨hid, hdeleted⟩ := hmoves move hmove
      exact ⟨hid, deleted_congr (congrArg Prod.snd (congrFun hfate.symm _)) rfl hdeleted⟩ }

theorem PassEffect.then_keeps (h : PassEffect env t rules files s s')
    (hkeeps : Keeps fate Outside.trash s' s'') (hlive : s''.Live) :
    PassEffect env t rules files s s'' := by
  have hfate : fate s''.working = fate s'.working := (hkeeps.2.2 hlive).2
  exact {
    live := hlive
    others := fun id hid => by rw [hfate, h.others id hid]
    committed := fun id hid => by rw [hkeeps.1, h.committed id hid, hfate]
    listed := fun m hm => by
      obtain ⟨hcommitted, hjudged, hunreached⟩ := h.listed m hm
      exact ⟨by rw [hkeeps.1, hcommitted, hfate], fun hyes => by rw [hfate]; exact hjudged hyes,
        fun hno => by rw [hfate, hunreached hno]⟩
    trash := by
      obtain ⟨moves, htrash, hmoves⟩ := h.trash
      refine ⟨moves, by rw [hkeeps.2.1, htrash], fun move hmove => ?_⟩
      obtain ⟨hid, hdeleted⟩ := hmoves move hmove
      exact ⟨hid, deleted_congr rfl (congrFun hfate _) hdeleted⟩ }

theorem keeps_counted (s : Session Tables Outside) (n : Nat) :
    Keeps fate Outside.trash s { s with calls := n } :=
  ⟨rfl, rfl, fun hlive => ⟨hlive, rfl⟩⟩

/-- A live session that has moved on from `start` without touching a file's fate. -/
def LiveSince (start s : Session Tables Outside) : Prop :=
  s.Live ∧ Keeps fate Outside.trash start s

theorem triple_select_since {α : Type} (start : Session Tables Outside) (query : Tables → α) :
    Triple (LiveSince start) (select env.db query) (fun _ => LiveSince start)
      (fun _ _ => ¬ Clean env) := by
  intro x hx
  unfold select
  rcases contact_run env false x with h | ⟨e, x', h, -, hwhy⟩
  · rw [Call.andThen_eq_bind, Call.run_bind_ok h]
    exact ⟨hx.1, IsTrans.trans _ _ _ hx.2 (keeps_counted x _)⟩
  · rw [Call.andThen_eq_bind, Call.run_bind_error h]
    refine hwhy.resolve_left fun hfailed => ?_
    rw [hx.1.1] at hfailed; cases hfailed

theorem triple_trackRules_since (start : Session Tables Outside) (now : Nat) (rules : List Rule)
    (count : Rule → Tables → Nat) :
    Triple (LiveSince start)
      (Call.forEach (fun rule : Rule => trackRule env now rule.id (count rule)) rules)
      (fun _ => LiveSince start) (fun _ _ => ¬ Clean env) := by
  refine Triple.forEach (I := fun _ => LiveSince start) rules fun _ rule _ _ => ?_
  refine (triple_select_since start _).bind fun matched => fun x hx => ⟨hx.1, ?_⟩
  exact IsTrans.trans _ _ _ hx.2 (faithful_edit (fun _ => rfl) x)

theorem triple_bookkeeping (start : Session Tables Outside) (n : Nat) :
    Triple (LiveSince start)
      (do let rules ← select env.db enabledRules
          let now ← utcnow env
          Call.forEach (fun rule : Rule => trackRule env now rule.id fun t =>
            min PAGE_LIMIT (t.evaluations.rows.filter fun e => e.ruleId = rule.id).length) rules
          return n)
      (fun _ => LiveSince start) (fun _ _ => ¬ Clean env) := by
  refine (triple_select_since start _).bind fun rules => ?_
  refine Triple.bind (M := fun _ => LiveSince start) (fun _ hx => hx) fun now => ?_
  exact (triple_trackRules_since start now rules _).bind fun _ => triple_pure _ fun _ hx => hx

theorem run_evaluateFiles (env : Env) (hfiles : (files.map (·.id)).Nodup) (hlive : s.Live)
    (hsame : ∀ id, fate s.committed id = fate s.working id) :
    Ends
      (fun _ => AllEvaluable env s.working (loadEnabled s.working) files ∧
        PassEffect env s.working (loadEnabled s.working) files s (evaluateFiles env files s).2)
      (fun _ => Clean env →
        PassEffect env s.working (loadEnabled s.working) files s (evaluateFiles env files s).2)
      (evaluateFiles env files s).1 := by
  unfold evaluateFiles
  rcases hrun : select env.db loadEnabled s with ⟨e | rules, s₁⟩
  · rw [Call.run_bind_error hrun]
    intro hclean
    rw [select_clean hclean _ hlive] at hrun
    cases hrun
  · obtain ⟨rfl, rfl⟩ := select_returned hrun
    rw [Call.run_bind_ok hrun]
    refine (run_evaluateEach (s := { s with calls := s.calls + 1 }) (loadEnabled_nodup _) hfiles
      hlive fun m _ => hsame m.id).imp (fun _ h => ⟨h.1, ?_⟩) fun _ h hclean => ?_
    · exact h.2.trans_keeps (keeps_counted s (s.calls + 1)) hlive
    · exact (h hclean).trans_keeps (keeps_counted s (s.calls + 1)) hlive

theorem run_evaluateLibrary (env : Env) (libraryId : String) (tagsAny : List String) (hlive : s.Live)
    (hsame : ∀ id, fate s.committed id = fate s.working id) :
    Ends
      (fun _ => LibraryEvaluable env s.working libraryId tagsAny ∧
        PassEffect env s.working (loadEnabled s.working) (listMedia s.working libraryId tagsAny) s
          (evaluateLibrary env libraryId tagsAny s).2)
      (fun _ => Clean env →
        PassEffect env s.working (loadEnabled s.working) (listMedia s.working libraryId tagsAny) s
          (evaluateLibrary env libraryId tagsAny s).2)
      (evaluateLibrary env libraryId tagsAny s).1 := by
  unfold evaluateLibrary
  rcases hrun : select env.db (fun t => listMedia t libraryId tagsAny) s with ⟨e | files, s₁⟩
  · rw [Call.run_bind_error hrun]
    intro hclean
    rw [select_clean hclean _ hlive] at hrun
    cases hrun
  obtain ⟨rfl, rfl⟩ := select_returned hrun
  rw [Call.run_bind_ok hrun]
  have hfiles := run_evaluateFiles env (s := { s with calls := s.calls + 1 })
    (listMedia_nodup s.working libraryId tagsAny) hlive hsame
  rcases hrun' : evaluateFiles env (listMedia s.working libraryId tagsAny)
    { s with calls := s.calls + 1 } with ⟨e | outcomes, s₂⟩
  · rw [hrun'] at hfiles
    rw [Call.run_bind_error hrun']
    exact fun hclean => (hfiles hclean).trans_keeps (keeps_counted s (s.calls + 1)) hlive
  · rw [hrun'] at hfiles
    rw [Call.run_bind_ok hrun']
    obtain ⟨hall, heffect⟩ := hfiles
    have heffect' := heffect.trans_keeps (keeps_counted s (s.calls + 1)) hlive
    refine (triple_bookkeeping s₂ _ s₂ ⟨heffect'.live, Std.Refl.refl _⟩).imp ?_ ?_
    · exact fun _ hx => ⟨hall, heffect'.then_keeps hx.2 hx.1⟩
    · exact fun _ hdirty hclean => absurd hclean hdirty

end Passes

/-! ### The pass and its caller -/

/-- A request and the scan commit a pass that returned and roll back one that raised;
    the scheduler commits either way. -/
inductive Caller where
  | request | job
deriving DecidableEq

def rulesPass (env : Env) (caller : Caller) (libraryId : String) (tagsAny : List String) :
    Service Unit :=
  match caller with
  | .request =>
      Call.attempt
        (do let _ ← evaluateLibrary env libraryId tagsAny
            commit env.db)
        fun _ => rollback
  | .job => do
      Call.attempt
        (do let _ ← evaluateLibrary env libraryId tagsAny)
        fun _ => pure ()
      Call.attempt (commit env.db) fun _ => rollback

section Pass

variable {env : Env} {s s' s₁ s₂ : Session Tables Outside} {libraryId : String}
  {tagsAny : List String}

theorem rulesPass_returned (caller : Caller) {n : Nat}
    (hrun : evaluateLibrary env libraryId tagsAny s = (.ok n, s₁))
    (hcommit : commit env.db s₁ = (.ok (), s₂)) :
    rulesPass env caller libraryId tagsAny s = (.ok (), s₂) := by
  cases caller with
  | request =>
    simp only [rulesPass]
    rw [Call.run_attempt, Call.run_bind_ok hrun, hcommit]
  | job =>
    simp only [rulesPass]
    have hpass : Call.attempt
        (do let _ ← evaluateLibrary env libraryId tagsAny) (fun _ => pure ()) s = (.ok (), s₁) := by
      rw [Call.run_attempt, Call.run_bind_ok hrun]; rfl
    rw [Call.run_bind_ok hpass, Call.run_attempt, hcommit]

theorem rulesPass_raised_request {e : ServiceError}
    (hrun : evaluateLibrary env libraryId tagsAny s = (.error e, s₁)) :
    rulesPass env .request libraryId tagsAny s = rollback s₁ := by
  simp only [rulesPass]
  rw [Call.run_attempt, Call.run_bind_error hrun]

theorem rulesPass_raised_job {e : ServiceError}
    (hrun : evaluateLibrary env libraryId tagsAny s = (.error e, s₁))
    (hcommit : commit env.db s₁ = (.ok (), s₂)) :
    rulesPass env .job libraryId tagsAny s = (.ok (), s₂) := by
  simp only [rulesPass]
  have hpass : Call.attempt
      (do let _ ← evaluateLibrary env libraryId tagsAny) (fun _ => pure ()) s = (.ok (), s₁) := by
    rw [Call.run_attempt, Call.run_bind_error hrun]; rfl
  rw [Call.run_bind_ok hpass, Call.run_attempt, hcommit]

theorem commit_clean (hclean : Clean env) (hlive : s.Live) :
    commit env.db s = (.ok (), { s with calls := s.calls + 1, committed := s.working }) := by
  unfold commit
  rw [Call.andThen_eq_bind, Call.run_bind_ok (contact_clean hclean true hlive)]
  rfl

theorem commit_returned (h : commit env.db s = (.ok (), s')) :
    s'.committed = s.working ∧ s'.world = s.world := by
  unfold commit at h
  rw [Call.andThen_eq_bind] at h
  rcases contact_cases env.db true s with ⟨e, hrun⟩ | ⟨-, hrun⟩ | ⟨e, hrun⟩ | ⟨e, hrun⟩
  · rw [Call.run_bind_error hrun] at h; cases h
  · rw [Call.run_bind_ok hrun] at h
    obtain ⟨-, hstate⟩ := Prod.mk.inj h
    rw [← hstate]; exact ⟨rfl, rfl⟩
  · rw [Call.run_bind_error hrun] at h; cases h
  · rw [Call.run_bind_error hrun] at h; cases h

end Pass

end RulesPass
