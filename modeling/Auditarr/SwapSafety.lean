/-
  Auditarr/SwapSafety.lean
  ========================
  **The original file across a run of the worker.**

  Up to the swap nothing but the temporary output is written, and every disk the run
  leaves behind has the original at its path.  The swap itself is two steps, and the
  handler of an error in it deletes the temporary output whichever step raised: after
  the first step the original is no longer at its path, and without a backup its
  content is gone with the output.
-/
import Auditarr.OptimizationWorker

namespace SwapSafety

open Effects KeyedTable PyValues ProfileSchema Database OptimizationWorker

/-! ### What a swap starts from -/

/-- The paths and contents of a swap that is about to begin. -/
structure SwapPlan where
  input : PosixPath
  tmp : PosixPath
  backup : PosixPath
  final : PosixPath
  keepBackup : Bool
  original : Bytes
  output : Bytes

/-- The call that takes the original from its path. -/
def SwapPlan.firstCall (plan : SwapPlan) : FsCall :=
  if plan.keepBackup then .replace plan.input plan.backup else .unlink plan.input

def SwapPlan.finalCall (plan : SwapPlan) : FsCall := .replace plan.tmp plan.final

/-- The disk after ffmpeg wrote its output. -/
def writtenDisk (disk : Disk) (tmp : PosixPath) (contents : List (Option Bytes)) : Disk :=
  contents.foldl (fun d content => Function.update d tmp content) disk

section Plan

variable (env : Env)

/-- The swap a transcode of `input` leads to, if it leads to one. -/
def transcodePlan (input : PosixPath) (original : Bytes) (media : MediaFile)
    (profile : ProfileDefinition) (h : Host) : Option SwapPlan := do
  let tmp ← input.withSuffix (tmpSuffix profile)
  let backup ← input.withSuffix (input.suffix ++ bakSuffix)
  let final ← input.withSuffix (finalSuffix profile)
  let run ← (env.ffmpeg h.calls h.disk ⟨input, tmp, profile, media.durationSeconds⟩).toOption
  let disk := writtenDisk h.disk tmp run.written
  let output ← disk tmp
  if run.returnCode = 0 ∧ validateOutput env disk tmp media.durationSeconds = none ∧
      profile.output.replaceInput = true then
    some ⟨input, tmp, backup, final, profile.output.keepBackup, original, output⟩
  else none

/-- The swap that the pre-flight checks let through. -/
def inputPlan (media : MediaFile) (row : OptimizationProfile) (profile : ProfileDefinition)
    (h : Host) : Option SwapPlan := do
  let original ← h.disk (pathOf media.path)
  if tooLarge row original.length = false ∧ bitrateBelow profile media = false then
    transcodePlan env (pathOf media.path) original media profile h
  else none

/-- The swap that a run of the loaded item leads to: every gate before it passes. -/
def swapPlan (h : Host) : Option SwapPlan := do
  let media ← h.tables.media.find? h.item.mediaFileId
  let row ← h.tables.profiles.find? h.item.profile
  let profile ← row.settings
  if row.enabled = true ∧ scheduleWindowIsOpen env.hourIn profile.scheduleWindow = true ∧
      profile.routingTarget = .inProcess ∧ env.inProcessRunnerEnabled = true then
    inputPlan env media row profile h
  else none

/-- The original is taken from its path and the output is not put there. -/
def CutShort (h : Host) : Prop :=
  ∃ plan, swapPlan env h = some plan ∧ env.fault h.calls plan.firstCall = none ∧
    env.fault (h.calls + 1) plan.finalCall ≠ none

end Plan

/-! ### Executions of a list of items -/

/-- One execution: the host with the item loaded, what `execute` came to, and the host
    after it. -/
structure Execution where
  before : Host
  outcome : Except Failure WorkerReport
  after : Host

/-- The item is loaded; the record of disks starts anew. -/
def Host.load (h : Host) (item : OptimizationItem) : Host := { h with item := item, states := [] }

/-- The items one after the other. -/
def executeAll (env : Env) : List OptimizationItem → Host → List Execution
  | [], _ => []
  | item :: rest, h =>
      let before := Host.load h item
      let run := execute env before
      ⟨before, run.1, run.2⟩ :: executeAll env rest run.2

def Present (d : Disk) (content : Bytes) : Prop := ∃ p, d p = some content

/-- A failed item leaves its media file as it was. -/
def Execution.KeepsFile (e : Execution) : Prop :=
  ∀ report media, e.outcome = .ok report → report.status = .failed →
    e.before.tables.media.find? e.before.item.mediaFileId = some media →
    e.after.disk (pathOf media.path) = e.before.disk (pathOf media.path)

/-- No disk, the last included, is without both the original and the output that was
    validated. -/
def Execution.NeverLost (env : Env) (e : Execution) : Prop :=
  ∀ media original, e.before.tables.media.find? e.before.item.mediaFileId = some media →
    e.before.disk (pathOf media.path) = some original →
    ∀ d ∈ e.after.disk :: e.after.states, Present d original ∨
      ∃ plan, swapPlan env e.before = some plan ∧ Present d plan.output

/-! ### Calls that spare the original -/

/-- The file at `input` is what it was, in every disk on the way too. -/
structure Spares (input : PosixPath) (h h' : Host) : Prop where
  disk : h'.disk input = h.disk input
  states : ∀ d ∈ h'.states, d ∈ h.states ∨ d input = h.disk input

instance (input : PosixPath) : Std.Refl (Spares input) :=
  ⟨fun _ => ⟨rfl, fun _ hd => .inl hd⟩⟩

instance (input : PosixPath) : IsTrans Host (Spares input) := by
  constructor
  intro a b c hab hbc
  constructor
  · rw [hbc.disk, hab.disk]
  · intro d hd
    rcases hbc.states d hd with hold | hsame
    · exact hab.states d hold
    · exact .inr (hsame.trans hab.disk)

section Sparing

variable {env : Env} {input : PosixPath}

theorem spares_withDisk {h : Host} {disk : Disk} (hdisk : disk input = h.disk input) :
    Spares input h (h.withDisk disk) := by
  constructor
  · exact hdisk
  · intro d hd
    rcases List.mem_append.mp hd with hold | hnew
    · exact .inl hold
    · rw [List.mem_singleton.mp hnew]
      exact .inr hdisk

theorem run_edit (change : OptimizationItem → OptimizationItem) (h : Host) :
    edit change h = (.ok (), { h with item := change h.item }) := rfl

theorem within_edit (change : OptimizationItem → OptimizationItem) :
    Within (Spares input) (edit change) :=
  within_modify fun _ => ⟨rfl, fun _ hd => .inl hd⟩

theorem within_commit : Within (Spares input) commit :=
  within_modify fun _ => ⟨rfl, fun _ hd => .inl hd⟩

theorem within_conclude (status : ReportStatus) (detail : String)
    (change : OptimizationItem → OptimizationItem) :
    Within (Spares input) (conclude status detail change) :=
  within_bind (within_edit _) fun _ => within_bind within_commit fun _ => within_read _

theorem within_recordSubmission (integration : Integration) (result : JobSubmitResult) :
    Within (Spares input) (recordSubmission env integration result) := by
  unfold recordSubmission
  cases result.status with
  | accepted => exact within_bind (within_edit _) fun _ => within_conclude _ _ _
  | rejected => exact within_conclude _ _ _
  | error => exact within_conclude _ _ _

theorem within_routeToProvider (media : MediaFile) (row : OptimizationProfile)
    (profile : ProfileDefinition) :
    Within (Spares input) (routeToProvider env media row profile) := by
  refine within_bind (within_edit _) fun _ => ?_
  cases env.integrationManager with
  | none => exact within_conclude _ _ _
  | some manager =>
    refine within_bind (within_read _) fun itemProfile => ?_
    cases row.optimizationIntegrationId.filter (· ≠ "") with
    | none => exact within_conclude _ _ _
    | some integrationId =>
      refine within_bind (within_read _) fun found => ?_
      cases found with
      | none => exact within_conclude _ _ _
      | some integration =>
        dsimp only
        split
        · exact within_conclude _ _ _
        · cases manager.providerFor integration.kind with
          | none => exact within_conclude _ _ _
          | some provider =>
            cases hsubmit : provider.submitTranscodeJob with
            | none =>
              simp only [hsubmit]
              exact within_conclude _ _ _
            | some submit =>
              simp only [hsubmit]
              cases manager.buildConfig integration with
              | error text => exact within_raise _
              | ok _ =>
                refine within_bind (within_read _) fun itemId => ?_
                cases submit ⟨itemId, media.path, profile⟩ with
                | error text => exact within_conclude _ _ _
                | ok result => exact within_recordSubmission _ _

theorem run_unlink_missing {h : Host} {path : PosixPath} (hpath : h.disk path = none) :
    unlink env path true h = (.ok (), h) := by
  simp [unlink, hpath]

theorem run_unlink_raised {h : Host} {path : PosixPath} {bytes : Bytes} {text : String}
    (hpath : h.disk path = some bytes) (hfault : env.fault h.calls (.unlink path) = some text)
    (missingOk : Bool) :
    unlink env path missingOk h = (.error (.osError text), { h with calls := h.calls + 1 }) := by
  simp [unlink, hpath, hfault]

theorem run_unlink {h : Host} {path : PosixPath} {bytes : Bytes}
    (hpath : h.disk path = some bytes) (hfault : env.fault h.calls (.unlink path) = none)
    (missingOk : Bool) :
    unlink env path missingOk h =
      (.ok (), { h with calls := h.calls + 1 }.withDisk (Function.update h.disk path none)) := by
  simp [unlink, hpath, hfault]

theorem run_osReplace_raised {h : Host} {src dst : PosixPath} {bytes : Bytes} {text : String}
    (hsrc : h.disk src = some bytes) (hfault : env.fault h.calls (.replace src dst) = some text) :
    osReplace env src dst h = (.error (.osError text), { h with calls := h.calls + 1 }) := by
  simp [osReplace, hsrc, hfault]

theorem run_osReplace {h : Host} {src dst : PosixPath} {bytes : Bytes}
    (hsrc : h.disk src = some bytes) (hfault : env.fault h.calls (.replace src dst) = none) :
    osReplace env src dst h = (.ok (), { h with calls := h.calls + 1 }.withDisk
      (Function.update (Function.update h.disk src none) dst (some bytes))) := by
  simp [osReplace, hsrc, hfault]

theorem within_unlink {path : PosixPath} (hne : path ≠ input) :
    Within (Spares input) (unlink env path true) := by
  intro h
  cases hpath : h.disk path with
  | none =>
    rw [run_unlink_missing hpath]
    exact Std.Refl.refl h
  | some bytes =>
    cases hfault : env.fault h.calls (.unlink path) with
    | some text =>
      rw [run_unlink_raised hpath hfault]
      exact ⟨rfl, fun _ hd => .inl hd⟩
    | none =>
      rw [run_unlink hpath hfault]
      have hsame : Function.update h.disk path none input = h.disk input :=
        Function.update_of_ne (Ne.symm hne) _ _
      exact ⟨hsame, (spares_withDisk hsame).states⟩

variable (env) in
theorem within_discard {path : PosixPath} (hne : path ≠ input) :
    Within (Spares input) (discardOutput env path) := by
  refine within_attempt (within_unlink hne) fun exc => ?_
  cases exc with
  | osError text => exact within_pure _
  | other text => exact within_raise _

theorem within_writeOutput {path : PosixPath} (hne : path ≠ input)
    (contents : List (Option Bytes)) : Within (Spares input) (writeOutput path contents) :=
  within_forEach contents fun _ _ => within_modify fun _ =>
    spares_withDisk (Function.update_of_ne (Ne.symm hne) _ _)

theorem within_discard_fail {path : PosixPath} (hne : path ≠ input) (detail : String) :
    Within (Spares input) (do discardOutput env path; fail env detail) :=
  within_bind (within_discard env hne) fun _ => within_conclude _ _ _

end Sparing

/-! ### Up to the swap -/

/-- The paths of a plan are the input with its three suffixes. -/
structure SwapPlan.Paths (plan : SwapPlan) (profile : ProfileDefinition) : Prop where
  tmp : plan.input.withSuffix (tmpSuffix profile) = some plan.tmp
  backup : plan.input.withSuffix (plan.input.suffix ++ bakSuffix) = some plan.backup
  final : plan.input.withSuffix (finalSuffix profile) = some plan.final
  keepBackup : plan.keepBackup = profile.output.keepBackup
  replaceInput : profile.output.replaceInput = true

/-- The host at the start of the swap of `plan`, in a run that began at `h`. -/
structure Ready (h h' : Host) (plan : SwapPlan) : Prop where
  start : h.disk plan.input = some plan.original
  original : h'.disk plan.input = some plan.original
  output : h'.disk plan.tmp = some plan.output
  states : ∀ d ∈ h'.states, d ∈ h.states ∨ d plan.input = some plan.original
  calls : h'.calls = h.calls

theorem tmpSuffix_ne_suffix (profile : ProfileDefinition) (p : PosixPath) :
    tmpSuffix profile ≠ p.suffix := by
  intro hsame
  have hdots := PosixPath.dot_notMem_tail_suffix p.name
  rw [← PosixPath.suffix, ← hsame] at hdots
  revert hdots
  unfold tmpSuffix
  cases profile.output.container <;> decide

section UpToSwap

variable {env : Env} {input : PosixPath}

theorem tmp_ne_input {profile : ProfileDefinition} {tmp : PosixPath}
    (htmp : input.withSuffix (tmpSuffix profile) = some tmp) : tmp ≠ input :=
  PosixPath.withSuffix_ne_self htmp (tmpSuffix_ne_suffix profile input)

theorem run_writeOutput {path : PosixPath} (hne : path ≠ input) (contents : List (Option Bytes))
    (h : Host) :
    ∃ h', writeOutput path contents h = (.ok (), h') ∧
      h'.disk = writtenDisk h.disk path contents ∧ h'.calls = h.calls ∧ Spares input h h' := by
  have hspares := within_writeOutput hne contents h
  suffices hrun : (writeOutput path contents h).1 = .ok () ∧
      (writeOutput path contents h).2.disk = writtenDisk h.disk path contents ∧
      (writeOutput path contents h).2.calls = h.calls from
    ⟨_, Call.run_of_outcome hrun.1, hrun.2.1, hrun.2.2, hspares⟩
  clear hspares
  induction contents generalizing h with
  | nil => exact ⟨rfl, rfl, rfl⟩
  | cons content rest ih => exact ih (h.withDisk (Function.update h.disk path content))

theorem backup_isSome {profile : ProfileDefinition} {tmp : PosixPath}
    (htmp : input.withSuffix (tmpSuffix profile) = some tmp) :
    ∃ backup, input.withSuffix (input.suffix ++ bakSuffix) = some backup := by
  apply PosixPath.withSuffix_isSome htmp
  · exact PosixPath.head_suffix _ _ (by decide)
  · rw [List.mem_append, not_or]
    exact ⟨input.slash_notMem_suffix, by decide⟩

theorem final_isSome {profile : ProfileDefinition} {tmp : PosixPath}
    (htmp : input.withSuffix (tmpSuffix profile) = some tmp) :
    ∃ final, input.withSuffix (finalSuffix profile) = some final := by
  apply PosixPath.withSuffix_isSome htmp
  · unfold finalSuffix
    cases profile.output.container <;> decide
  · unfold finalSuffix
    cases profile.output.container <;> decide

theorem run_runTranscode {h : Host} {request : TranscodeRequest} {run : Transcode}
    (hrun : env.ffmpeg h.calls h.disk request = .ok run) (hne : request.outputPath ≠ input) :
    ∃ h', runTranscode env request h =
        (.ok ⟨decide (run.returnCode = 0) &&
          (writtenDisk h.disk request.outputPath run.written request.outputPath).isSome,
          run.returnCode, run.stderrTail⟩, h') ∧
      h'.disk = writtenDisk h.disk request.outputPath run.written ∧ h'.calls = h.calls ∧
      Spares input h h' := by
  obtain ⟨h₁, hwrite, hdisk, hcalls, hspares⟩ := run_writeOutput hne run.written h
  unfold runTranscode
  rw [← hdisk, Call.run_bind_ok (Call.run_read _ _), hrun]
  dsimp only
  rw [Call.run_bind_ok hwrite, Call.run_bind_ok (Call.run_read _ _),
    Call.run_bind_ok (run_edit _ _)]
  exact ⟨_, rfl, rfl, hcalls, hspares.disk, hspares.states⟩

theorem within_replaceInput {path : PosixPath} {profile : ProfileDefinition}
    (hkeep : profile.output.replaceInput = false) (tmp : PosixPath) (inputSize outputSize : Nat) :
    Within (Spares path) (replaceInput env input tmp inputSize outputSize profile) := by
  unfold replaceInput
  refine within_bind (within_edit _) fun _ => ?_
  rw [if_pos (by simp [hkeep])]
  exact within_bind (within_edit _) fun _ => within_conclude _ _ _

/-- A call that spares the original, or reaches the swap that is planned. -/
def SparesOrSwaps (env : Env) (input : PosixPath) (h : Host) (planned : Option SwapPlan)
    (c : Worker WorkerReport) : Prop :=
  (planned = none ∧ Spares input h (c h).2) ∨
  ∃ plan h' profile size, planned = some plan ∧ plan.input = input ∧ plan.Paths profile ∧
    Ready h h' plan ∧
    c h = replaceInput env plan.input plan.tmp size plan.output.length profile h'

theorem transcodeInput_cases {h : Host} {original : Bytes} {media : MediaFile}
    {profile : ProfileDefinition} (horiginal : h.disk input = some original) (size : Nat) :
    SparesOrSwaps env input h (transcodePlan env input original media profile h)
      (transcodeInput env input size media profile) := by
  unfold SparesOrSwaps transcodeInput
  cases htmp : input.withSuffix (tmpSuffix profile) with
  | none =>
    left
    constructor
    · simp [transcodePlan, htmp]
    · simp only [withSuffix, htmp]
      exact within_raise _ h
  | some tmp =>
    have hne : tmp ≠ input := tmp_ne_input htmp
    obtain ⟨backup, hbackup⟩ := backup_isSome htmp
    obtain ⟨final, hfinal⟩ := final_isSome htmp
    simp only [withSuffix, htmp, Call.bind_pure_left]
    cases hrun : env.ffmpeg h.calls h.disk ⟨input, tmp, profile, media.durationSeconds⟩ with
    | error text =>
      left
      constructor
      · simp [transcodePlan, htmp, hbackup, hfinal, hrun, Except.toOption]
      · have hraise : runTranscode env ⟨input, tmp, profile, media.durationSeconds⟩ h =
            (.error (.other text), h) := by
          unfold runTranscode
          rw [Call.run_bind_ok (Call.run_read _ _), hrun]
          rfl
        rw [Call.run_bind_error hraise]
        exact Std.Refl.refl h
    | ok run =>
      obtain ⟨h₁, hrun₁, hdisk₁, hcalls₁, hspares₁⟩ := run_runTranscode hrun hne
      have hplan : transcodePlan env input original media profile h =
          (writtenDisk h.disk tmp run.written tmp).bind fun output =>
            if run.returnCode = 0 ∧ validateOutput env (writtenDisk h.disk tmp run.written) tmp
                media.durationSeconds = none ∧ profile.output.replaceInput = true then
              some ⟨input, tmp, backup, final, profile.output.keepBackup, original, output⟩
            else none := by
        simp [transcodePlan, htmp, hbackup, hfinal, hrun, Except.toOption]
      rw [Call.run_bind_ok hrun₁, hplan]
      cases hout : writtenDisk h.disk tmp run.written tmp with
      | none =>
        left
        constructor
        · rfl
        · rw [if_pos (by simp)]
          exact IsTrans.trans _ _ _ hspares₁ (within_discard_fail hne _ h₁)
      | some output =>
        by_cases hcode : run.returnCode = 0
        · rw [if_neg (by simp [hcode]), Call.run_bind_ok (Call.run_read _ _), hdisk₁, hout]
          cases hvalid : validateOutput env (writtenDisk h.disk tmp run.written) tmp
            media.durationSeconds with
          | some reason =>
            left
            constructor
            · simp
            · exact IsTrans.trans _ _ _ hspares₁ (within_discard_fail hne _ h₁)
          | none =>
            cases hreplace : profile.output.replaceInput with
            | false =>
              left
              constructor
              · simp
              · exact IsTrans.trans _ _ _ hspares₁ (within_replaceInput hreplace _ _ _ h₁)
            | true =>
              right
              refine ⟨⟨input, tmp, backup, final, profile.output.keepBackup, original, output⟩, h₁,
                profile, size, by simp [hcode], rfl, ⟨htmp, hbackup, hfinal, rfl, hreplace⟩, ?_, rfl⟩
              constructor
              · exact horiginal
              · rw [hspares₁.disk, horiginal]
              · rw [hdisk₁, hout]
              · intro d hd
                rw [← horiginal]
                exact hspares₁.states d hd
              · exact hcalls₁
        · left
          constructor
          · simp [hcode]
          · rw [if_pos (by simp [hcode])]
            exact IsTrans.trans _ _ _ hspares₁ (within_discard_fail hne _ h₁)

theorem runInProcess_cases (h : Host) (media : MediaFile) (row : OptimizationProfile)
    (profile : ProfileDefinition) :
    SparesOrSwaps env (pathOf media.path) h (inputPlan env media row profile h)
      (runInProcess env media row profile) := by
  unfold SparesOrSwaps runInProcess inputPlan
  rw [Call.run_bind_ok (Call.run_read _ _)]
  cases horiginal : h.disk (pathOf media.path) with
  | none => exact .inl ⟨rfl, within_conclude _ _ _ h⟩
  | some original =>
    dsimp only
    rw [Call.run_bind_ok (run_edit _ _)]
    -- the edited item is not looked at before the end of the run
    generalize hedited : ({ h with item := _ } : Host) = h₁
    have hdisk : h₁.disk = h.disk := by rw [← hedited]
    have hstates : h₁.states = h.states := by rw [← hedited]
    have hcalls : h₁.calls = h.calls := by rw [← hedited]
    have hspares : ∀ h', Spares (pathOf media.path) h₁ h' → Spares (pathOf media.path) h h' := by
      intro h' hs
      exact ⟨by rw [hs.disk, hdisk], fun d hd => by rw [← hstates, ← hdisk]; exact hs.states d hd⟩
    by_cases hlarge : tooLarge row original.length = true
    · left
      rw [if_pos hlarge]
      exact ⟨by simp [hlarge], hspares _ (within_conclude _ _ _ h₁)⟩
    · by_cases hlow : bitrateBelow profile media = true
      · left
        rw [if_neg hlarge, if_pos hlow]
        exact ⟨by simp [hlow], hspares _ (within_conclude _ _ _ h₁)⟩
      · have hplan : transcodePlan env (pathOf media.path) original media profile h =
            transcodePlan env (pathOf media.path) original media profile h₁ := by
          simp only [transcodePlan, hdisk, hcalls]
        rw [if_neg hlarge, if_neg hlow, Option.bind_eq_bind, Option.bind_some,
          if_pos (by simp [hlarge, hlow]), hplan]
        rcases transcodeInput_cases (hdisk ▸ horiginal) original.length with hnone | hswap
        · exact .inl ⟨hnone.1, hspares _ hnone.2⟩
        · right
          obtain ⟨plan, h', profile', size, hsome, hinput, hpaths, hready, hrun⟩ := hswap
          refine ⟨plan, h', profile', size, hsome, hinput, hpaths, ?_, hrun⟩
          exact ⟨hdisk ▸ hready.start, hready.original, hready.output, hstates ▸ hready.states,
            hready.calls.trans hcalls⟩

theorem runClaimed_cases {h : Host} {media : MediaFile}
    (hmedia : h.tables.media.find? h.item.mediaFileId = some media) :
    SparesOrSwaps env (pathOf media.path) h (swapPlan env h) (runClaimed env) := by
  have hspare : ∀ (status : ReportStatus) (detail : String)
      (change : OptimizationItem → OptimizationItem),
      Spares (pathOf media.path) h (conclude status detail change h).2 :=
    fun status detail change => within_conclude status detail change h
  unfold SparesOrSwaps runClaimed
  rw [Call.run_bind_ok (Call.run_read _ _), Call.run_bind_ok (Call.run_read _ _), hmedia]
  cases hrow : h.tables.profiles.find? h.item.profile with
  | none => exact .inl ⟨by simp [swapPlan, hmedia, hrow], hspare _ _ _⟩
  | some row =>
    by_cases henabled : row.enabled = true
    · cases hsettings : row.settings with
      | none =>
        left
        constructor
        · simp [swapPlan, hmedia, hrow, hsettings]
        · simp only [henabled, hsettings]
          exact hspare _ _ _
      | some profile =>
        simp only [henabled, hsettings]
        by_cases hwindow : scheduleWindowIsOpen env.hourIn profile.scheduleWindow = true
        · by_cases htarget : profile.routingTarget = .inProcess
          · by_cases hrunner : env.inProcessRunnerEnabled = true
            · have hplan : swapPlan env h = inputPlan env media row profile h := by
                simp [swapPlan, hmedia, hrow, hsettings, henabled, hwindow, htarget, hrunner]
              rw [hplan]
              simp only [hwindow, htarget, hrunner]
              exact runInProcess_cases h media row profile
            · left
              constructor
              · simp [swapPlan, hmedia, hrow, hrunner]
              · simp only [hwindow, htarget, hrunner]
                exact hspare _ _ _
          · left
            constructor
            · simp [swapPlan, hmedia, hrow, hsettings, htarget]
            · rw [hwindow, if_neg (by simp), if_neg (by simp), if_pos htarget]
              exact within_routeToProvider media row profile h
        · left
          constructor
          · simp [swapPlan, hmedia, hrow, hsettings, hwindow]
          · simp only [hwindow]
            exact hspare _ _ _
    · left
      constructor
      · simp [swapPlan, hmedia, hrow, henabled]
      · simp only [henabled]
        exact hspare _ _ _

end UpToSwap

/-! ### The two steps -/

section Swap

variable {env : Env} {plan : SwapPlan} {profile : ProfileDefinition}

theorem SwapPlan.Paths.tmp_ne_input (hpaths : plan.Paths profile) : plan.tmp ≠ plan.input :=
  SwapSafety.tmp_ne_input hpaths.tmp

theorem SwapPlan.Paths.backup_ne_input (hpaths : plan.Paths profile) :
    plan.backup ≠ plan.input := by
  apply PosixPath.withSuffix_ne_self hpaths.backup
  intro hsame
  have hlen := congrArg List.length hsame
  simp [bakSuffix] at hlen

theorem SwapPlan.Paths.tmp_ne_backup (hpaths : plan.Paths profile) : plan.tmp ≠ plan.backup := by
  apply PosixPath.withSuffix_ne hpaths.tmp hpaths.backup
  intro hsame
  have hlast := congrArg List.getLast? hsame
  revert hlast
  unfold tmpSuffix bakSuffix
  cases profile.output.container <;> simp [Container.extension]

/-- The disk between the two steps. -/
def SwapPlan.aside (plan : SwapPlan) (d : Disk) : Disk :=
  if plan.keepBackup then
    Function.update (Function.update d plan.input none) plan.backup (some plan.original)
  else Function.update d plan.input none

theorem aside_input (hpaths : plan.Paths profile) (d : Disk) : plan.aside d plan.input = none := by
  unfold SwapPlan.aside
  split
  · rw [Function.update_of_ne (Ne.symm hpaths.backup_ne_input), Function.update_self]
  · rw [Function.update_self]

theorem aside_tmp (hpaths : plan.Paths profile) (d : Disk) :
    plan.aside d plan.tmp = d plan.tmp := by
  unfold SwapPlan.aside
  split
  · rw [Function.update_of_ne hpaths.tmp_ne_backup, Function.update_of_ne hpaths.tmp_ne_input]
  · rw [Function.update_of_ne hpaths.tmp_ne_input]

theorem run_setAside {h : Host} (hpaths : plan.Paths profile)
    (horiginal : h.disk plan.input = some plan.original)
    (hfault : env.fault h.calls plan.firstCall = none) :
    ∃ h', setAside env plan.input profile h = (.ok (), h') ∧ h'.disk = plan.aside h.disk ∧
      h'.states = h.states ++ [plan.aside h.disk] ∧ h'.calls = h.calls + 1 := by
  unfold setAside SwapPlan.aside
  unfold SwapPlan.firstCall at hfault
  cases hkeep : plan.keepBackup with
  | true =>
    rw [hkeep] at hfault
    rw [← hpaths.keepBackup, if_pos hkeep, withSuffix, hpaths.backup, Call.bind_pure_left,
      Call.run_bind_ok (run_osReplace horiginal hfault), run_edit]
    exact ⟨_, rfl, rfl, rfl, rfl⟩
  | false =>
    rw [hkeep] at hfault
    rw [← hpaths.keepBackup, if_neg (by simp [hkeep]),
      Call.run_bind_ok (run_unlink horiginal hfault false), run_edit]
    exact ⟨_, rfl, rfl, rfl, rfl⟩

theorem run_setAside_raised {h : Host} {text : String} (hpaths : plan.Paths profile)
    (horiginal : h.disk plan.input = some plan.original)
    (hfault : env.fault h.calls plan.firstCall = some text) :
    setAside env plan.input profile h =
      (.error (.osError text), { h with calls := h.calls + 1 }) := by
  unfold setAside
  unfold SwapPlan.firstCall at hfault
  cases hkeep : plan.keepBackup with
  | true =>
    rw [hkeep] at hfault
    rw [← hpaths.keepBackup, if_pos hkeep, withSuffix, hpaths.backup, Call.bind_pure_left,
      Call.run_bind_error (run_osReplace_raised horiginal hfault)]
  | false =>
    rw [hkeep] at hfault
    rw [← hpaths.keepBackup, if_neg (by simp [hkeep]),
      Call.run_bind_error (run_unlink_raised horiginal hfault false)]

theorem run_trySwap_first {h : Host} {text : String} (hpaths : plan.Paths profile)
    (horiginal : h.disk plan.input = some plan.original)
    (hfirst : env.fault h.calls plan.firstCall = some text) :
    trySwap env plan.input plan.tmp profile h = (.ok (some text), { h with calls := h.calls + 1 }) := by
  unfold trySwap swap
  rw [Call.run_attempt, Call.run_bind_error
    (Call.run_bind_error (run_setAside_raised hpaths horiginal hfirst))]
  rfl

theorem run_trySwap_cutShort {h : Host} {text : String} (hpaths : plan.Paths profile)
    (horiginal : h.disk plan.input = some plan.original)
    (houtput : h.disk plan.tmp = some plan.output)
    (hfirst : env.fault h.calls plan.firstCall = none)
    (hfinal : env.fault (h.calls + 1) plan.finalCall = some text) :
    ∃ h', trySwap env plan.input plan.tmp profile h = (.ok (some text), h') ∧
      h'.disk = plan.aside h.disk := by
  obtain ⟨h₁, hrun₁, hdisk₁, hstates₁, hcalls₁⟩ := run_setAside hpaths horiginal hfirst
  have htmp : h₁.disk plan.tmp = some plan.output := by rw [hdisk₁, aside_tmp hpaths, houtput]
  have hraise : osReplace env plan.tmp plan.final h₁ =
      (.error (.osError text), { h₁ with calls := h₁.calls + 1 }) :=
    run_osReplace_raised htmp (by rw [hcalls₁]; exact hfinal)
  refine ⟨{ h₁ with calls := h₁.calls + 1 }, ?_, hdisk₁⟩
  · unfold trySwap
    have hswap : swap env plan.input plan.tmp profile h =
        (.error (.osError text), { h₁ with calls := h₁.calls + 1 }) := by
      unfold swap
      rw [Call.run_bind_ok hrun₁, withSuffix, hpaths.final, Call.bind_pure_left,
        Call.run_bind_error hraise]
    rw [Call.run_attempt, Call.run_bind_error hswap]
    rfl

theorem run_trySwap {h : Host} (hpaths : plan.Paths profile)
    (horiginal : h.disk plan.input = some plan.original)
    (houtput : h.disk plan.tmp = some plan.output)
    (hfirst : env.fault h.calls plan.firstCall = none)
    (hfinal : env.fault (h.calls + 1) plan.finalCall = none) :
    ∃ h', trySwap env plan.input plan.tmp profile h = (.ok none, h') ∧
      h'.disk plan.final = some plan.output ∧
        ∀ d ∈ h'.states, d ∈ h.states ∨ Present d plan.output := by
  obtain ⟨h₁, hrun₁, hdisk₁, hstates₁, hcalls₁⟩ := run_setAside hpaths horiginal hfirst
  have htmp : h₁.disk plan.tmp = some plan.output := by rw [hdisk₁, aside_tmp hpaths, houtput]
  have hreplace := run_osReplace htmp (show env.fault h₁.calls (.replace plan.tmp plan.final) = none
    by rw [hcalls₁]; exact hfinal)
  have hfinalDisk : Function.update (Function.update h₁.disk plan.tmp none) plan.final
      (some plan.output) plan.final = some plan.output := Function.update_self ..
  have hrun : ∃ h', swap env plan.input plan.tmp profile h = (.ok (), h') ∧
      h'.disk = Function.update (Function.update h₁.disk plan.tmp none) plan.final
        (some plan.output) ∧ h'.states = h₁.states ++ [h'.disk] := by
    unfold swap
    rw [Call.run_bind_ok hrun₁, withSuffix, hpaths.final, Call.bind_pure_left,
      Call.run_bind_ok hreplace]
    exact ⟨_, rfl, rfl, rfl⟩
  obtain ⟨h', hswap, hdisk, hstates⟩ := hrun
  refine ⟨h', ?_, by rw [hdisk]; exact hfinalDisk, ?_⟩
  · unfold trySwap
    rw [Call.run_attempt, Call.run_bind_ok hswap]
    rfl
  · intro d hd
    rw [hstates, hstates₁, List.append_assoc] at hd
    rcases List.mem_append.mp hd with hold | hnew
    · exact .inl hold
    · right
      rcases List.mem_cons.mp hnew with haside | hlast
      · exact ⟨plan.tmp, by rw [haside, aside_tmp hpaths, houtput]⟩
      · rw [List.mem_singleton.mp hlast, hdisk]
        exact ⟨plan.final, hfinalDisk⟩

/-! ### The whole run -/

theorem run_conclude (status : ReportStatus) (detail : String)
    (change : OptimizationItem → OptimizationItem) (h : Host) :
    ∃ report h', conclude status detail change h = (.ok report, h') ∧ report.status = status ∧
      h'.disk = h.disk ∧ h'.states = h.states :=
  ⟨_, _, rfl, rfl, rfl, rfl⟩

variable (env) in
theorem run_discard (path : PosixPath) (h : Host) : ∃ h', discardOutput env path h = (.ok (), h') := by
  unfold discardOutput
  rw [Call.run_attempt]
  cases hpath : h.disk path with
  | none => exact ⟨h, by rw [run_unlink_missing hpath]⟩
  | some bytes =>
    cases hfault : env.fault h.calls (.unlink path) with
    | some text => exact ⟨_, by rw [run_unlink_raised hpath hfault]; rfl⟩
    | none => exact ⟨_, by rw [run_unlink hpath hfault]⟩

/-- The host at the start of the swap, with the size of the output on the item. -/
def sized (outputSize : Nat) (h : Host) : Host :=
  { h with item := { h.item with optimizedSizeBytes := some outputSize } }

theorem run_sized (outputSize : Nat) (h : Host) :
    edit (fun item => { item with optimizedSizeBytes := some outputSize }) h =
      (.ok (), sized outputSize h) := rfl

theorem run_replaceInput_raised {h h₁ : Host} {text : String} (hpaths : plan.Paths profile)
    (size outputSize : Nat)
    (htry : trySwap env plan.input plan.tmp profile (sized outputSize h) = (.ok (some text), h₁)) :
    ∃ report h₂, replaceInput env plan.input plan.tmp size outputSize profile h =
      (.ok report, h₂) ∧ report.status = .failed ∧
        ∀ path, plan.tmp ≠ path → Spares path h₁ h₂ := by
  obtain ⟨h₂, hdiscard⟩ := run_discard env plan.tmp h₁
  obtain ⟨report, h₃, hfail, hstatus, hdisk, hstates⟩ := run_conclude .failed
    ("swap failed: " ++ text)
    (fun item => { item with status := .failed, finishedAt := some env.now,
                             error := some ("swap failed: " ++ text) }) h₂
  refine ⟨report, h₃, ?_, hstatus, ?_⟩
  · unfold replaceInput
    rw [Call.run_bind_ok (run_sized _ _), if_neg (by simp [hpaths.replaceInput]),
      Call.run_bind_ok htry]
    dsimp only
    rw [Call.run_bind_ok hdiscard]
    exact hfail
  · intro path hne
    have hspares := within_discard env hne h₁
    rw [hdiscard] at hspares
    exact IsTrans.trans _ _ _ hspares ⟨by rw [hdisk], fun d hd => .inl (by rw [← hstates]; exact hd)⟩

theorem run_replaceInput {h h₁ : Host} (hpaths : plan.Paths profile) (size outputSize : Nat)
    (htry : trySwap env plan.input plan.tmp profile (sized outputSize h) = (.ok none, h₁)) :
    ∃ report h₂, replaceInput env plan.input plan.tmp size outputSize profile h =
      (.ok report, h₂) ∧ report.status = .completed ∧ h₂.disk = h₁.disk ∧
      h₂.states = h₁.states := by
  unfold replaceInput
  rw [Call.run_bind_ok (run_sized _ _), if_neg (by simp [hpaths.replaceInput]),
    Call.run_bind_ok htry]
  exact run_conclude _ _ _ h₁

end Swap

theorem spares_execute {env : Env} {input : PosixPath} {h : Host}
    (hspares : Spares input h (runClaimed env h).2) : Spares input h (execute env h).2 := by
  unfold execute
  rw [Call.run_attempt]
  rcases hrun : runClaimed env h with ⟨exc | report, h'⟩
  · rw [hrun] at hspares
    exact IsTrans.trans _ _ _ hspares
      (within_bind (within_conclude _ _ _) (fun _ => within_read _) h')
  · rw [hrun] at hspares
    exact hspares

theorem execute_returned {env : Env} {h h' : Host} {report : WorkerReport}
    (hrun : runClaimed env h = (.ok report, h')) : execute env h = (.ok report, h') := by
  unfold execute
  rw [Call.run_attempt, hrun]


/-! ### Safety of an execution -/

section Safety

variable {env : Env} {h : Host}

def executionOf (env : Env) (h : Host) : Execution := ⟨h, (execute env h).1, (execute env h).2⟩

theorem safe_of_spares {media : MediaFile} (hfresh : h.states = [])
    (hmedia : h.tables.media.find? h.item.mediaFileId = some media)
    (hspares : Spares (pathOf media.path) h (execute env h).2) :
    (executionOf env h).KeepsFile ∧ (executionOf env h).NeverLost env := by
  have hthis : ∀ media', h.tables.media.find? h.item.mediaFileId = some media' → media' = media := by
    intro media' hmedia'
    exact Option.some.inj (hmedia'.symm.trans hmedia)
  constructor
  · intro report media' _ _ hmedia'
    rw [hthis media' hmedia']
    exact hspares.disk
  · intro media' original hmedia' horiginal d hd
    rw [hthis media' hmedia'] at horiginal
    have horiginal : h.disk (pathOf media.path) = some original := horiginal
    left
    refine ⟨pathOf media.path, ?_⟩
    rcases List.mem_cons.mp hd with hlast | hstate
    · rw [hlast, ← horiginal]
      exact hspares.disk
    · rcases hspares.states d hstate with hold | hsame
      · rw [hfresh] at hold
        cases hold
      · rw [hsame, horiginal]

theorem safe_iff_not_cutShort (hfresh : h.states = []) :
    ((executionOf env h).KeepsFile ∧ (executionOf env h).NeverLost env) ↔ ¬ CutShort env h := by
  cases hmedia : h.tables.media.find? h.item.mediaFileId with
  | none =>
    have hnone : swapPlan env h = none := by simp [swapPlan, hmedia]
    constructor
    · rintro - ⟨plan, hplan, -⟩
      rw [hnone] at hplan
      cases hplan
    · intro _
      constructor
      · intro report media _ _ hmedia'
        exact absurd (hmedia.symm.trans hmedia') (by simp)
      · intro media original hmedia'
        exact absurd (hmedia.symm.trans hmedia') (by simp)
  | some media =>
    rcases runClaimed_cases hmedia with ⟨hnone, hspares⟩ |
      ⟨plan, h', profile, size, hplan, hinput, hpaths, hready, hrun⟩
    · refine ⟨fun _ => ?_, fun _ => safe_of_spares hfresh hmedia (spares_execute hspares)⟩
      rintro ⟨plan, hplan, -⟩
      rw [hnone] at hplan
      cases hplan
    · have hcutShort : CutShort env h ↔ env.fault h.calls plan.firstCall = none ∧
          env.fault (h.calls + 1) plan.finalCall ≠ none := by
        unfold CutShort
        rw [hplan]
        simp
      have hfirstCalls : (sized plan.output.length h').calls = h.calls := hready.calls
      rw [hcutShort]
      cases hfirst : env.fault h.calls plan.firstCall with
      | some text =>
        -- the first step raised: the run went on from the host before the swap
        obtain ⟨report, h₂, hreplace, -, hspares⟩ := run_replaceInput_raised hpaths size
          plan.output.length (run_trySwap_first (h := sized plan.output.length h') hpaths
            hready.original (by rw [hfirstCalls]; exact hfirst))
        have hexecute := execute_returned (hrun.trans hreplace)
        have hspares := hspares _ hpaths.tmp_ne_input
        have hall : Spares (pathOf media.path) h (execute env h).2 := by
          rw [hexecute, ← hinput]
          constructor
          · rw [hspares.disk, hready.start]
            exact hready.original
          · intro d hd
            rw [hready.start]
            rcases hspares.states d hd with hold | hsame
            · exact hready.states d hold
            · exact .inr (hsame.trans hready.original)
        simpa using safe_of_spares hfresh hmedia hall
      | none =>
        cases hfinal : env.fault (h.calls + 1) plan.finalCall with
        | some text =>
          obtain ⟨h₁, htry, hgone⟩ := run_trySwap_cutShort (h := sized plan.output.length h') hpaths
            hready.original hready.output (by rw [hfirstCalls]; exact hfirst)
            (by rw [hfirstCalls]; exact hfinal)
          obtain ⟨report, h₂, hreplace, hfailed, hspares⟩ :=
            run_replaceInput_raised hpaths size plan.output.length htry
          have hexecute := execute_returned (hrun.trans hreplace)
          refine ⟨fun hsafe => ?_, fun hno => absurd ⟨rfl, by simp⟩ hno⟩
          have hkept := hsafe.1 report media (by rw [executionOf, hexecute]) hfailed hmedia
          rw [executionOf, hexecute, ← hinput] at hkept
          have hlost : h₂.disk plan.input = none := by
            rw [(hspares _ hpaths.tmp_ne_input).disk, hgone, aside_input hpaths]
          rw [show h₂.disk plan.input = h.disk plan.input from hkept, hready.start] at hlost
          cases hlost
        | none =>
          obtain ⟨h₁, htry, hpresent, hstates⟩ := run_trySwap (h := sized plan.output.length h')
            hpaths hready.original hready.output (by rw [hfirstCalls]; exact hfirst)
            (by rw [hfirstCalls]; exact hfinal)
          obtain ⟨report, h₂, hreplace, hcompleted, hdisk₂, hstates₂⟩ :=
            run_replaceInput hpaths size plan.output.length htry
          have hexecute := execute_returned (hrun.trans hreplace)
          refine ⟨fun _ => by simp, fun _ => ⟨?_, ?_⟩⟩
          · intro report' media' hreport hfailed
            have hsame : report' = report := by
              rw [executionOf, hexecute] at hreport
              exact (Except.ok.inj hreport).symm
            rw [hsame, hcompleted] at hfailed
            cases hfailed
          · intro media' original hmedia' horiginal d hd
            rw [executionOf, hexecute] at hd
            have hmem : d ∈ h₁.disk :: h₁.states := by rw [← hdisk₂, ← hstates₂]; exact hd
            rcases List.mem_cons.mp hmem with hlast | hstate
            · exact .inr ⟨plan, hplan, by rw [hlast]; exact ⟨plan.final, hpresent⟩⟩
            · rcases hstates d hstate with hold | hout
              · rcases hready.states d hold with hnew | hkept
                · rw [hfresh] at hnew
                  cases hnew
                · left
                  refine ⟨plan.input, ?_⟩
                  have hmedia'' : media' = media := Option.some.inj (hmedia'.symm.trans hmedia)
                  rw [hmedia'', ← hinput] at horiginal
                  rw [hkept, ← hready.start]
                  exact horiginal
              · exact .inr ⟨plan, hplan, hout⟩

end Safety

/-- Whatever the items and whichever calls raise: an item that is reported failed has
    its media file as it was, and no disk on the way is without both the original and
    the validated output, exactly if the last step of its swap does not raise after the
    first one succeeded. -/
theorem safe_iff_swap_not_cut_short (env : Env) (items : List OptimizationItem) (h : Host) :
    ∀ e ∈ executeAll env items h,
      ((e.KeepsFile ∧ e.NeverLost env) ↔ ¬ CutShort env e.before) := by
  induction items generalizing h with
  | nil => intro e he; cases he
  | cons item rest ih =>
    intro e he
    rcases List.mem_cons.mp he with rfl | hrest
    · exact safe_iff_not_cutShort (h := Host.load h item) rfl
    · exact ih _ e hrest

/-- Re-encode to Matroska, in place of the input, without a backup. -/
def noBackup : ProfileDefinition where
  videoCodec := .libx265
  audioCodec := .copy
  output := ⟨.mkv, true, false⟩
  skipIfBitrateBelowKbps := none
  transcodeScope := .videoAndAudio
  tagScope := []
  routingTarget := .inProcess
  scheduleWindow := none
  providerProfileId := none
  tags_nonblank := no_tags_nonblank
  tags_length := no_tags_length
  tags_nodup := no_tags_nodup
  audio_reencodes := both_not_audioOnly
  video_reencodes := both_not_videoOnly
  not_jellyfin := inProcess_not_jellyfin
  tdarr_profile := inProcess_not_tdarr

/-- ffmpeg succeeds and no call fails. -/
def calmEnv : Env where
  now := 0
  hourIn _ := 0
  repr text := "'" ++ text ++ "'"
  fixed3 _ := ""
  invalidSettings _ := ""
  inProcessRunnerEnabled := true
  integrationManager := none
  fault _ _ := none
  ffmpeg _ _ _ := .ok ⟨[some [2]], 0, "", 100⟩
  probe _ _ := some ⟨true, none, some "hevc", none⟩

/-- The second call of the worker fails. -/
def fullDiskEnv : Env :=
  { calmEnv with
    fault := fun calls _ => if calls = 1 then some "[Errno 28] No space left on device" else none }

def transcodeItem : OptimizationItem where
  id := "i1"
  mediaFileId := "f1"
  profile := "hevc"
  status := .running
  queuedByRuleId := none
  queuedAt := 0
  startedAt := none
  finishedAt := none
  progressPct := 0
  originalSizeBytes := none
  optimizedSizeBytes := none
  backupPath := none
  itemMetadata := .empty
  error := none

def inputFile : MediaFile := .unprobed "f1" "l1" "/media/a.avi" "avi"

theorem inputFile_alone : ([inputFile].map MediaFile.id).Nodup :=
  List.nodup_singleton _

theorem inputFile_path_alone : ([inputFile].map MediaFile.path).Nodup :=
  List.nodup_singleton _

def oneFileHost : Host where
  tables := { Tables.empty with
    media := ⟨[inputFile], inputFile_alone⟩
    media_path_unique := inputFile_path_alone
    profiles := ⟨[⟨"hevc", true, some noBackup, none, none⟩], by decide⟩ }
  item := transcodeItem
  disk p := if p = pathOf "/media/a.avi" then some [1] else none
  states := []
  calls := 0

theorem safe_iff_swap_not_cut_short_avi :
    ∃ e ∈ executeAll calmEnv [transcodeItem] oneFileHost, e.KeepsFile ∧ e.NeverLost calmEnv := by
  refine ⟨_, List.mem_cons_self .., ?_⟩
  refine (safe_iff_swap_not_cut_short calmEnv [transcodeItem] oneFileHost _
    (List.mem_cons_self ..)).mpr ?_
  rintro ⟨plan, -, -, hraised⟩
  exact hraised rfl

/-- The original is unlinked, the output cannot take its place and is then deleted: the
    item is failed and its media file is gone. -/
theorem failed_item_loses_file :
    ¬ ∀ (env : Env) (items : List OptimizationItem) (h : Host), ∀ e ∈ executeAll env items h,
      e.KeepsFile ∧ e.NeverLost env := by
  intro hall
  have hsafe := hall fullDiskEnv [transcodeItem] oneFileHost _ (List.mem_cons_self ..)
  have hplanned : (swapPlan fullDiskEnv (Host.load oneFileHost transcodeItem)).isSome = true := by
    decide +kernel
  obtain ⟨plan, hplan⟩ := Option.isSome_iff_exists.mp hplanned
  refine (safe_iff_not_cutShort rfl).mp hsafe ⟨plan, hplan, rfl, ?_⟩
  simp [fullDiskEnv, Host.load, oneFileHost]

end SwapSafety
