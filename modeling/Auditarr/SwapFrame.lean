/-
  Auditarr/SwapFrame.lean
  =======================
  **Which files a run of the worker touches.**

  A run works on four paths, all made from the name of the input: the input itself, the
  temporary output, the backup and the final output.  The backup keeps the whole name of the
  input; the other two keep its stem, so that two files with one stem share them, and the final
  output of one is where the other may be.
-/
import Auditarr.SwapSafety

namespace SwapFrame

open Effects KeyedTable ProfileSchema Database OptimizationWorker SwapSafety

/-! ### The paths of a run -/

/-- What a run transcodes and where it puts what. -/
structure Job where
  media : MediaFile
  profile : ProfileDefinition
  input : PosixPath
  tmp : PosixPath
  backup : PosixPath
  final : PosixPath
  original : Bytes

/-- The job of a run in which every gate before ffmpeg passes. -/
def jobOf (env : Env) (h : Host) : Option Job := do
  let media ← h.tables.media.find? h.item.mediaFileId
  let row ← h.tables.profiles.find? h.item.profile
  let profile ← row.settings
  let input := pathOf media.path
  let original ← h.disk input
  let tmp ← input.withSuffix (tmpSuffix profile)
  let backup ← input.withSuffix (input.suffix ++ bakSuffix)
  let final ← input.withSuffix (finalSuffix profile)
  if row.enabled = true ∧ scheduleWindowIsOpen env.hourIn profile.scheduleWindow = true ∧
      profile.routingTarget = .inProcess ∧ env.inProcessRunnerEnabled = true ∧
      tooLarge row original.length = false ∧ bitrateBelow profile media = false then
    some ⟨media, profile, input, tmp, backup, final, original⟩
  else none

namespace Job

def own (job : Job) : List PosixPath := [job.input, job.tmp, job.backup, job.final]

/-- The paths are the input with its three suffixes. -/
structure Named (job : Job) : Prop where
  tmp : job.input.withSuffix (tmpSuffix job.profile) = some job.tmp
  backup : job.input.withSuffix (job.input.suffix ++ bakSuffix) = some job.backup
  final : job.input.withSuffix (finalSuffix job.profile) = some job.final

theorem Named.tmp_ne_input {job : Job} (hnamed : job.Named) : job.tmp ≠ job.input :=
  SwapSafety.tmp_ne_input hnamed.tmp

end Job

/-! ### Calls that spare a file -/

section Sparing

variable {env : Env} {path : PosixPath} {h : Host} {α β : Type}

theorem spares_bind {c : Worker α} {k : α → Worker β} (hc : Spares path h (c h).2)
    (hk : ∀ a h', c h = (.ok a, h') → Spares path h' (k a h').2) :
    Spares path h ((c >>= k) h).2 := by
  rcases hrun : c h with ⟨exc | a, h'⟩
  · rw [Call.run_bind_error hrun]
    rw [hrun] at hc
    exact hc
  · rw [Call.run_bind_ok hrun]
    rw [hrun] at hc
    exact IsTrans.trans _ _ _ hc (hk a h' hrun)

theorem spares_osReplace {src dst : PosixPath} (hsrc : path ≠ src)
    (hdst : path = dst → h.disk path = h.disk src) :
    Spares path h (osReplace env src dst h).2 := by
  cases hbytes : h.disk src with
  | none =>
    unfold osReplace
    rw [hbytes]
    exact Std.Refl.refl h
  | some bytes =>
    cases hfault : env.fault h.calls (.replace src dst) with
    | some text =>
      rw [run_osReplace_raised hbytes hfault]
      exact ⟨rfl, fun _ hd => .inl hd⟩
    | none =>
      rw [run_osReplace hbytes hfault]
      have hsame : Function.update (Function.update h.disk src none) dst (some bytes) path =
          h.disk path := by
        by_cases hpath : path = dst
        · rw [← hpath, Function.update_self, hdst hpath, hbytes]
        · rw [Function.update_of_ne hpath, Function.update_of_ne hsrc]
      exact ⟨hsame, (spares_withDisk hsame).states⟩

theorem within_osReplace {src dst : PosixPath} (hsrc : path ≠ src) (hdst : path ≠ dst) :
    Within (Spares path) (osReplace env src dst) :=
  fun _ => spares_osReplace hsrc fun heq => absurd heq hdst

theorem within_unlink_strict {p : PosixPath} (hne : p ≠ path) :
    Within (Spares path) (unlink env p false) := by
  intro s
  cases hbytes : s.disk p with
  | none =>
    unfold unlink
    rw [hbytes]
    exact Std.Refl.refl s
  | some bytes =>
    cases hfault : env.fault s.calls (.unlink p) with
    | some text =>
      rw [run_unlink_raised hbytes hfault]
      exact ⟨rfl, fun _ hd => .inl hd⟩
    | none =>
      rw [run_unlink hbytes hfault]
      have hsame : Function.update s.disk p none path = s.disk path :=
        Function.update_of_ne (Ne.symm hne) _ _
      exact ⟨hsame, (spares_withDisk hsame).states⟩

end Sparing

/-! ### What a job spares -/

/-- The file at a path is out of the way of a job: it is neither the input nor the temporary
    output, and, if the input is replaced, not where the final output comes, and at the place of
    the backup only with the content of the input. -/
structure Clear (disk : Disk) (job : Job) (path : PosixPath) : Prop where
  input : path ≠ job.input
  tmp : path ≠ job.tmp
  final : job.profile.output.replaceInput = true → path ≠ job.final
  backup : job.profile.output.replaceInput = true → job.profile.output.keepBackup = true →
    path = job.backup → disk path = disk job.input

section Running

variable {env : Env} {path : PosixPath} {h : Host} {job : Job}

theorem spares_setAside (hnamed : job.Named) (hinput : path ≠ job.input)
    (hbackup : job.profile.output.keepBackup = true → path = job.backup →
      h.disk path = h.disk job.input) :
    Spares path h (setAside env job.input job.profile h).2 := by
  unfold setAside
  cases hkeep : job.profile.output.keepBackup with
  | true =>
    rw [if_pos rfl, withSuffix, hnamed.backup, Call.bind_pure_left]
    refine spares_bind (spares_osReplace hinput (hbackup hkeep)) fun _ h' _ => ?_
    exact within_edit _ h'
  | false =>
    rw [if_neg (by simp)]
    refine spares_bind (within_unlink_strict (Ne.symm hinput) h) fun _ h' _ => ?_
    exact within_edit _ h'

theorem spares_trySwap (hnamed : job.Named) (hinput : path ≠ job.input) (htmp : path ≠ job.tmp)
    (hfinal : path ≠ job.final)
    (hbackup : job.profile.output.keepBackup = true → path = job.backup →
      h.disk path = h.disk job.input) :
    Spares path h (trySwap env job.input job.tmp job.profile h).2 := by
  have hswap : Spares path h ((do swap env job.input job.tmp job.profile; pure none :
      Worker (Option String)) h).2 := by
    refine spares_bind (spares_bind (spares_setAside hnamed hinput hbackup) fun _ h₁ _ => ?_)
      fun _ h' _ => Std.Refl.refl h'
    rw [withSuffix, hnamed.final, Call.bind_pure_left]
    exact within_bind (within_osReplace htmp hfinal) (fun _ => within_edit _) h₁
  unfold trySwap
  rw [Call.run_attempt]
  rcases hrun : (do swap env job.input job.tmp job.profile; pure none : Worker (Option String)) h
    with ⟨exc | a, h'⟩
  · rw [hrun] at hswap
    cases exc with
    | osError text => exact hswap
    | other text => exact hswap
  · rw [hrun] at hswap
    exact hswap

theorem spares_of_sized (size : Nat) {h' : Host} (hspares : Spares path (sized size h) h') :
    Spares path h h' :=
  ⟨hspares.disk, hspares.states⟩

theorem spares_replaceInput (hnamed : job.Named) (hclear : Clear h.disk job path)
    (size outputSize : Nat) :
    Spares path h (replaceInput env job.input job.tmp size outputSize job.profile h).2 := by
  cases hreplace : job.profile.output.replaceInput with
  | false => exact within_replaceInput hreplace _ _ _ h
  | true =>
    unfold replaceInput
    rw [Call.run_bind_ok (run_sized _ _), if_neg (by simp [hreplace])]
    have htry : Spares path (sized outputSize h)
        (trySwap env job.input job.tmp job.profile (sized outputSize h)).2 :=
      spares_trySwap hnamed hclear.input hclear.tmp (hclear.final hreplace)
        (hclear.backup hreplace)
    refine spares_of_sized outputSize (spares_bind htry fun raised h₁ _ => ?_)
    cases raised with
    | some text => exact within_discard_fail (Ne.symm hclear.tmp) _ h₁
    | none => exact within_conclude _ _ _ h₁

theorem within_runTranscode (request : TranscodeRequest) (hne : request.outputPath ≠ path) :
    Within (Spares path) (runTranscode env request) := by
  refine within_bind (within_read _) fun run => ?_
  cases run with
  | error text => exact within_raise _
  | ok run =>
    exact within_bind (within_writeOutput hne _) fun _ => within_bind (within_read _) fun _ =>
      within_bind (within_edit _) fun _ => within_pure _

theorem spares_transcodeInput (hnamed : job.Named) (hclear : Clear h.disk job path) (size : Nat) :
    Spares path h (transcodeInput env job.input size job.media job.profile h).2 := by
  have htmp : job.tmp ≠ path := Ne.symm hclear.tmp
  unfold transcodeInput
  rw [withSuffix, hnamed.tmp, Call.bind_pure_left]
  refine spares_bind (within_runTranscode _ htmp h) fun result h₁ hrun => ?_
  -- ffmpeg has left both the file and the input as they were
  have hsame : h₁.disk path = h.disk path := by
    have hspares : Spares path h (runTranscode env
        ⟨job.input, job.tmp, job.profile, job.media.durationSeconds⟩ h).2 :=
      within_runTranscode _ htmp h
    rw [hrun] at hspares
    exact hspares.disk
  have hinput : h₁.disk job.input = h.disk job.input := by
    have hspares : Spares job.input h (runTranscode env
        ⟨job.input, job.tmp, job.profile, job.media.durationSeconds⟩ h).2 :=
      within_runTranscode _ hnamed.tmp_ne_input h
    rw [hrun] at hspares
    exact hspares.disk
  have hclear₁ : Clear h₁.disk job path := by
    refine ⟨hclear.input, hclear.tmp, hclear.final, ?_⟩
    rw [hsame, hinput]
    exact hclear.backup
  by_cases hsuccess : result.success = true
  · rw [if_neg (by simp [hsuccess]), Call.run_bind_ok (Call.run_read _ _)]
    cases validateOutput env h₁.disk job.tmp job.media.durationSeconds with
    | some reason => exact within_discard_fail htmp _ h₁
    | none =>
      cases h₁.disk job.tmp with
      | none => exact Std.Refl.refl h₁
      | some bytes => exact spares_replaceInput hnamed hclear₁ _ _
  · rw [if_pos (by simp [hsuccess])]
    exact within_discard_fail htmp _ h₁

/-- A host that differs in its item alone. -/
def SameDisk (h h' : Host) : Prop := h'.disk = h.disk ∧ h'.states = h.states ∧ h'.calls = h.calls

theorem SameDisk.spares {h' : Host} {c : Worker WorkerReport} (hsame : SameDisk h h')
    (hspares : Spares path h' (c h').2) : Spares path h (c h').2 := by
  obtain ⟨hdisk, hstates, -⟩ := hsame
  exact ⟨by rw [hspares.disk, hdisk], by rw [← hdisk, ← hstates]; exact hspares.states⟩

/-- The run transcodes its job, or it has none and spares every file. -/
inductive Comes (env : Env) (h : Host) (planned : Option Job)
    (run : Except Failure WorkerReport × Host) : Prop where
  | spares (hnone : planned = none) (hspares : ∀ path, Spares path h run.2)
  | transcodes (job : Job) (size : Nat) (h' : Host) (hsome : planned = some job)
      (hnamed : job.Named) (horiginal : h.disk job.input = some job.original)
      (hsame : SameDisk h h')
      (hrun : run = transcodeInput env job.input size job.media job.profile h')

theorem runInProcess_comes (env : Env) (h : Host) (media : MediaFile) (row : OptimizationProfile)
    (profile : ProfileDefinition) (hmedia : h.tables.media.find? h.item.mediaFileId = some media)
    (hrow : h.tables.profiles.find? h.item.profile = some row)
    (hsettings : row.settings = some profile) (henabled : row.enabled = true)
    (hwindow : scheduleWindowIsOpen env.hourIn profile.scheduleWindow = true)
    (htarget : profile.routingTarget = .inProcess) (hrunner : env.inProcessRunnerEnabled = true) :
    Comes env h (jobOf env h) (runInProcess env media row profile h) := by
  unfold runInProcess
  rw [Call.run_bind_ok (Call.run_read _ _)]
  cases horiginal : h.disk (pathOf media.path) with
  | none =>
    refine .spares ?_ fun path => within_conclude _ _ _ h
    simp [jobOf, hmedia, hrow, hsettings, horiginal]
  | some original =>
    dsimp only
    rw [Call.run_bind_ok (run_edit _ _)]
    generalize hedited : ({ h with item := _ } : Host) = h₁
    have hsame : SameDisk h h₁ := by rw [← hedited]; exact ⟨rfl, rfl, rfl⟩
    by_cases hlarge : tooLarge row original.length = true
    · rw [if_pos hlarge]
      refine .spares ?_ fun path => hsame.spares (within_conclude _ _ _ h₁)
      simp [jobOf, hmedia, hrow, hsettings, horiginal, hlarge]
    · by_cases hlow : bitrateBelow profile media = true
      · rw [if_neg hlarge, if_pos hlow]
        refine .spares ?_ fun path => hsame.spares (within_conclude _ _ _ h₁)
        simp [jobOf, hmedia, hrow, hsettings, horiginal, hlow]
      · rw [if_neg hlarge, if_neg hlow]
        cases htmp : (pathOf media.path).withSuffix (tmpSuffix profile) with
        | none =>
          refine .spares ?_ fun path => hsame.spares ?_
          · simp [jobOf, hmedia, hrow, hsettings, horiginal, htmp]
          · unfold transcodeInput
            rw [withSuffix, htmp]
            exact within_raise _ h₁
        | some tmp =>
          obtain ⟨backup, hbackup⟩ := backup_isSome htmp
          obtain ⟨final, hfinal⟩ := final_isSome htmp
          refine .transcodes ⟨media, profile, pathOf media.path, tmp, backup, final, original⟩
            original.length h₁ ?_ ⟨htmp, hbackup, hfinal⟩ horiginal hsame rfl
          simp [jobOf, hmedia, hrow, hsettings, horiginal, htmp, hbackup, hfinal, henabled, hwindow,
            htarget, hrunner, hlarge, hlow]

theorem runClaimed_comes (env : Env) (h : Host) :
    Comes env h (jobOf env h) (runClaimed env h) := by
  have hspare : ∀ (path : PosixPath) (status : ReportStatus) (detail : String)
      (change : OptimizationItem → OptimizationItem),
      Spares path h (conclude status detail change h).2 := by
    intro path status detail change
    exact within_conclude status detail change h
  unfold runClaimed
  rw [Call.run_bind_ok (Call.run_read _ _), Call.run_bind_ok (Call.run_read _ _)]
  cases hmedia : h.tables.media.find? h.item.mediaFileId with
  | none => exact .spares (by simp [jobOf, hmedia]) fun path => hspare path _ _ _
  | some media =>
    cases hrow : h.tables.profiles.find? h.item.profile with
    | none => exact .spares (by simp [jobOf, hmedia, hrow]) fun path => hspare path _ _ _
    | some row =>
      by_cases henabled : row.enabled = true
      · cases hsettings : row.settings with
        | none =>
          simp only [henabled, hsettings]
          exact .spares (by simp [jobOf, hmedia, hrow, hsettings]) fun path => hspare path _ _ _
        | some profile =>
          simp only [henabled, hsettings]
          by_cases hwindow : scheduleWindowIsOpen env.hourIn profile.scheduleWindow = true
          · by_cases htarget : profile.routingTarget = .inProcess
            · by_cases hrunner : env.inProcessRunnerEnabled = true
              · simp only [hwindow, htarget, hrunner]
                exact runInProcess_comes env h media row profile hmedia hrow hsettings henabled
                  hwindow htarget hrunner
              · simp only [hwindow, htarget, hrunner]
                refine .spares ?_ fun path => hspare path _ _ _
                simp [jobOf, hrunner]
            · rw [hwindow, if_neg (by simp), if_neg (by simp), if_pos htarget]
              refine .spares ?_ fun path => within_routeToProvider media row profile h
              simp [jobOf, hmedia, hrow, hsettings, htarget]
          · simp only [hwindow]
            refine .spares ?_ fun path => hspare path _ _ _
            simp [jobOf, hmedia, hrow, hsettings, hwindow]
      · simp only [henabled]
        refine .spares ?_ fun path => hspare path _ _ _
        simp [jobOf, hmedia, hrow, henabled]

end Running

/-! ### The frame of a run -/

/-- The same surroundings, with other outcomes of ffmpeg, ffprobe and the file system. -/
def under (env : Env) (ffmpeg : Nat → Disk → TranscodeRequest → Except String Transcode)
    (probe : PosixPath → Bytes → Option ProbeResult) (fault : Nat → FsCall → Option String) : Env :=
  { env with ffmpeg := ffmpeg, probe := probe, fault := fault }

/-- The run leaves every path alone but the four of its job, and on those the files that exist
    before it and belong to others. -/
structure Frames (env : Env) (others : PosixPath → Prop) (h : Host) : Prop where
  outside : ∀ path, (∀ job, jobOf env h = some job → path ∉ job.own) →
    Spares path h (execute env h).2
  others : ∀ job, jobOf env h = some job → ∀ path, others path → path ≠ job.input →
    h.disk path ≠ none → Spares path h (execute env h).2

theorem spares_of_clear {env : Env} {h : Host} {path : PosixPath}
    (hpath : ∀ job, jobOf env h = some job → Clear h.disk job path) :
    Spares path h (execute env h).2 := by
  apply spares_execute
  rcases runClaimed_comes env h with ⟨-, hall⟩ | ⟨job, size, h', hsome, hnamed, -, hsame, hrun⟩
  · exact hall path
  · rw [hrun]
    refine hsame.spares (spares_transcodeInput hnamed ?_ size)
    rw [hsame.1]
    exact hpath job hsome

theorem spares_outside {env : Env} {h : Host} {path : PosixPath}
    (houtside : ∀ job, jobOf env h = some job → path ∉ job.own) :
    Spares path h (execute env h).2 := by
  refine spares_of_clear fun job hjob => ?_
  have hown := houtside job hjob
  simp only [Job.own, List.mem_cons, List.not_mem_nil, or_false, not_or] at hown
  obtain ⟨hinput, htmp, hbackup, hfinal⟩ := hown
  exact ⟨hinput, htmp, fun _ => hfinal, fun _ _ heq => absurd heq hbackup⟩

theorem frames_of_clear {env : Env} {others : PosixPath → Prop} {h : Host}
    (hclear : ∀ job, jobOf env h = some job → ∀ path, others path → path ≠ job.input →
      h.disk path ≠ none → Clear h.disk job path) : Frames env others h := by
  refine ⟨fun path => spares_outside, ?_⟩
  intro job hjob path hother hinput hexists
  refine spares_of_clear fun job' hjob' => ?_
  rw [Option.some.inj (hjob'.symm.trans hjob)]
  exact hclear job hjob path hother hinput hexists

/-- ffmpeg writes this and exits with the code. -/
def writing (bytes : Bytes) (code : Int) :
    Nat → Disk → TranscodeRequest → Except String Transcode :=
  fun _ _ _ => .ok ⟨[some bytes], code, "", 0⟩

/-- ffprobe finds a video stream. -/
def soundProbe : PosixPath → Bytes → Option ProbeResult :=
  fun _ _ => some ⟨true, none, some "hevc", none⟩

theorem swapPlan_of_job {env : Env} {h : Host} {job : Job} (hjob : jobOf env h = some job)
    (hreplace : job.profile.output.replaceInput = true) {bytes : Bytes} (hbytes : bytes ≠ [])
    (fault : Nat → FsCall → Option String) :
    swapPlan (under env (writing bytes 0) soundProbe fault) h =
      some ⟨job.input, job.tmp, job.backup, job.final, job.profile.output.keepBackup,
        job.original, bytes⟩ := by
  simp only [jobOf, Option.bind_eq_bind, Option.bind_eq_some_iff] at hjob
  obtain ⟨media, hmedia, row, hrow, profile, hsettings, original, horiginal, tmp, htmp, backup,
    hbackup, final, hfinal, hgates⟩ := hjob
  split at hgates
  · rename_i hopen
    obtain ⟨henabled, hwindow, htarget, hrunner, hlarge, hlow⟩ := hopen
    obtain rfl := Option.some.inj hgates
    have hvalid : validateOutput (under env (writing bytes 0) soundProbe fault)
        (Function.update h.disk tmp (some bytes)) tmp media.durationSeconds = none := by
      unfold validateOutput
      rw [Function.update_self]
      simp [under, soundProbe, orText, PyValues.PyFloat.truthy?, hbytes]
    simpa [swapPlan, inputPlan, transcodePlan, hmedia, hrow, hsettings, horiginal, htmp, hbackup,
      hfinal, henabled, hwindow, htarget, hrunner, hlarge, hlow, under, writing, writtenDisk,
      Except.toOption] using And.intro hvalid hreplace
  · cases hgates

section Failing

variable {env : Env} {h : Host} {job : Job}

theorem jobOf_comes (hjob : jobOf env h = some job) :
    ∃ size h', job.Named ∧ h.disk job.input = some job.original ∧ SameDisk h h' ∧
      runClaimed env h = transcodeInput env job.input size job.media job.profile h' := by
  rcases runClaimed_comes env h with ⟨hnone, -⟩ |
    ⟨job', size, h', hsome, hnamed, horiginal, hsame, hrun⟩
  · rw [hnone] at hjob
    cases hjob
  · obtain rfl := Option.some.inj (hsome.symm.trans hjob)
    exact ⟨size, h', hnamed, horiginal, hsame, hrun⟩

theorem execute_refused (hjob : jobOf env h = some job) (bytes : Bytes) :
    (execute (under env (writing bytes 1) soundProbe fun _ _ => some "") h).2.disk job.tmp =
      some bytes := by
  have hjob' : jobOf (under env (writing bytes 1) soundProbe fun _ _ => some "") h = some job := hjob
  generalize henv : under env (writing bytes 1) soundProbe (fun _ _ => some "") = env' at hjob' ⊢
  have hffmpeg : ∀ calls disk request,
      env'.ffmpeg calls disk request = .ok ⟨[some bytes], 1, "", 0⟩ := by
    rw [← henv]
    intro _ _ _
    rfl
  have hfault : ∀ calls call, env'.fault calls call = some "" := by
    rw [← henv]
    intro _ _
    rfl
  obtain ⟨size, h', hnamed, -, -, hrun⟩ := jobOf_comes hjob'
  obtain ⟨h₁, hrun₁, hdisk₁, -, -⟩ := run_runTranscode
    (hffmpeg h'.calls h'.disk ⟨job.input, job.tmp, job.profile, job.media.durationSeconds⟩)
    hnamed.tmp_ne_input
  have hwritten : h₁.disk job.tmp = some bytes := by
    rw [hdisk₁]
    exact Function.update_self ..
  have hdiscard : discardOutput env' job.tmp h₁ = (.ok (), { h₁ with calls := h₁.calls + 1 }) := by
    unfold discardOutput
    rw [Call.run_attempt, run_unlink_raised hwritten (hfault _ _)]
    rfl
  have hclaimed : ∃ report h₂, runClaimed env' h = (.ok report, h₂) ∧ h₂.disk = h₁.disk := by
    rw [hrun]
    unfold transcodeInput
    rw [withSuffix, hnamed.tmp, Call.bind_pure_left, Call.run_bind_ok hrun₁, if_pos (by simp),
      Call.run_bind_ok hdiscard]
    exact ⟨_, _, rfl, rfl⟩
  obtain ⟨report, h₂, hclaimed, hdisk₂⟩ := hclaimed
  rw [execute_returned hclaimed, hdisk₂, hwritten]

theorem jobOf_swaps (hjob : jobOf env h = some job)
    (hreplace : job.profile.output.replaceInput = true) {bytes : Bytes} (hbytes : bytes ≠ [])
    (fault : Nat → FsCall → Option String) :
    ∃ plan h' profile size, plan = ⟨job.input, job.tmp, job.backup, job.final,
        job.profile.output.keepBackup, job.original, bytes⟩ ∧ plan.Paths profile ∧
      Ready h h' plan ∧
      runClaimed (under env (writing bytes 0) soundProbe fault) h =
        replaceInput (under env (writing bytes 0) soundProbe fault) plan.input plan.tmp size
          plan.output.length profile h' := by
  have hplan := swapPlan_of_job hjob hreplace hbytes fault
  have hmedia : ∃ media, h.tables.media.find? h.item.mediaFileId = some media := by
    simp only [jobOf, Option.bind_eq_bind, Option.bind_eq_some_iff] at hjob
    obtain ⟨media, hmedia, -⟩ := hjob
    exact ⟨media, hmedia⟩
  obtain ⟨media, hmedia⟩ := hmedia
  have hcases : SparesOrSwaps (under env (writing bytes 0) soundProbe fault) _ h _ _ :=
    runClaimed_cases hmedia
  rcases hcases with ⟨hnone, -⟩ | ⟨plan, h', profile, size, hsome, -, hpaths, hready, hrun⟩
  · rw [hplan] at hnone
    cases hnone
  · exact ⟨plan, h', profile, size, Option.some.inj (hsome.symm.trans hplan), hpaths, hready, hrun⟩

theorem execute_swapped (hjob : jobOf env h = some job)
    (hreplace : job.profile.output.replaceInput = true) {bytes : Bytes} (hbytes : bytes ≠ []) :
    (execute (under env (writing bytes 0) soundProbe fun _ _ => none) h).2.disk job.final =
      some bytes := by
  obtain ⟨plan, h', profile, size, hplan, hpaths, hready, hrun⟩ :=
    jobOf_swaps hjob hreplace hbytes fun _ _ => none
  have hcalm : ∀ calls call,
      (under env (writing bytes 0) soundProbe fun _ _ => none).fault calls call = none := by
    intro _ _
    rfl
  obtain ⟨h₁, htry, hfinal, -⟩ := run_trySwap (h := sized plan.output.length h') hpaths
    hready.original hready.output (hcalm _ _) (hcalm _ _)
  obtain ⟨report, h₂, hrun₂, -, hdisk₂, -⟩ :=
    run_replaceInput hpaths size plan.output.length htry
  rw [execute_returned (hrun.trans hrun₂), hdisk₂]
  rw [hplan] at hfinal
  exact hfinal

theorem execute_backedUp (hjob : jobOf env h = some job)
    (hreplace : job.profile.output.replaceInput = true)
    (hkeep : job.profile.output.keepBackup = true) :
    ∃ fault, (execute (under env (writing [0] 0) soundProbe fault) h).2.disk job.backup =
      some job.original := by
  let fault : Nat → FsCall → Option String := fun _ call => match call with
    | .replace src _ => if src = job.input then none else some ""
    | .unlink _ => some ""
  obtain ⟨plan, h', profile, size, hplan, hpaths, hready, hrun⟩ :=
    jobOf_swaps hjob hreplace (List.cons_ne_nil 0 []) fault
  have hinput : plan.input = job.input := by rw [hplan]
  have hfirst : (under env (writing [0] 0) soundProbe fault).fault
      (sized plan.output.length h').calls plan.firstCall = none := by
    rw [hplan]
    simp [SwapPlan.firstCall, hkeep, under, fault]
  have hsecond : (under env (writing [0] 0) soundProbe fault).fault
      ((sized plan.output.length h').calls + 1) plan.finalCall = some "" := by
    have hne := hpaths.tmp_ne_input
    rw [hinput] at hne
    simp [SwapPlan.finalCall, under, fault, hne]
  obtain ⟨h₁, htry, hdisk₁⟩ := run_trySwap_cutShort (h := sized plan.output.length h') hpaths
    hready.original hready.output hfirst hsecond
  obtain ⟨report, h₂, hrun₂, -, hspares⟩ :=
    run_replaceInput_raised hpaths size plan.output.length htry
  have hbackup : h₂.disk plan.backup = some plan.original := by
    rw [(hspares _ hpaths.tmp_ne_backup).disk, hdisk₁, SwapPlan.aside,
      if_pos (by rw [hplan]; exact hkeep)]
    exact Function.update_self ..
  refine ⟨fault, ?_⟩
  rw [execute_returned (hrun.trans hrun₂)]
  rw [hplan] at hbackup
  exact hbackup

end Failing

theorem clear_of_frames {env : Env} {others : PosixPath → Prop} {h : Host}
    (hframes : ∀ ffmpeg probe fault, Frames (under env ffmpeg probe fault) others h) {job : Job}
    (hjob : jobOf env h = some job) {path : PosixPath} (hother : others path)
    (hinput : path ≠ job.input) (hexists : h.disk path ≠ none) : Clear h.disk job path := by
  have hkept : ∀ ffmpeg probe fault,
      (execute (under env ffmpeg probe fault) h).2.disk path = h.disk path := by
    intro ffmpeg probe fault
    exact ((hframes ffmpeg probe fault).others job hjob path hother hinput hexists).disk
  obtain ⟨bytes, hbytes⟩ := Option.ne_none_iff_exists'.mp hexists
  have hlonger : some (bytes ++ [0]) ≠ some bytes := by simp
  refine ⟨hinput, ?_, ?_, ?_⟩
  · rintro rfl
    have hafter := execute_refused hjob (bytes ++ [0])
    rw [hkept, hbytes] at hafter
    exact hlonger hafter.symm
  · rintro hreplace rfl
    have hafter := execute_swapped hjob hreplace
      (List.append_ne_nil_of_right_ne_nil bytes (List.cons_ne_nil 0 []))
    rw [hkept, hbytes] at hafter
    exact hlonger hafter.symm
  · rintro hreplace hkeep rfl
    obtain ⟨fault, hafter⟩ := execute_backedUp hjob hreplace hkeep
    rw [hkept] at hafter
    obtain ⟨-, -, -, horiginal, -, -⟩ := jobOf_comes hjob
    rw [hafter, horiginal]

/-- Whatever ffmpeg writes and whichever calls fail, a run leaves every path but its own four
    alone; and it leaves the files of others alone exactly if none of them is in its way. -/
theorem frames_iff_clear (env : Env) (others : PosixPath → Prop) (h : Host) :
    (∀ ffmpeg probe fault, Frames (under env ffmpeg probe fault) others h) ↔
      ∀ job, jobOf env h = some job → ∀ path, others path → path ≠ job.input →
        h.disk path ≠ none → Clear h.disk job path := by
  constructor
  · intro hframes job hjob path hother hinput hexists
    exact clear_of_frames hframes hjob hother hinput hexists
  · intro hclear ffmpeg probe fault
    exact frames_of_clear hclear

/-- The paths of the other library files. -/
def libraryFile (h : Host) (path : PosixPath) : Prop :=
  ∃ m ∈ h.tables.media, m.id ≠ h.item.mediaFileId ∧ pathOf m.path = path

def siblingFile : MediaFile := .unprobed "f2" "l1" "/media/a.mkv" "mkv"

theorem twoFiles_ids : ([inputFile, siblingFile].map MediaFile.id).Nodup := by
  decide

theorem twoFiles_paths : ([inputFile, siblingFile].map MediaFile.path).Nodup := by
  decide

/-- Two library files with one stem, one of which is to be a Matroska file. -/
def twoFilesHost : Host where
  tables := { Tables.empty with
    media := ⟨[inputFile, siblingFile], twoFiles_ids⟩
    media_path_unique := twoFiles_paths
    profiles := ⟨[⟨"hevc", true, some noBackup, none, none⟩], List.nodup_singleton _⟩ }
  item := transcodeItem
  disk p := if p = pathOf "/media/a.avi" then some [1]
    else if p = pathOf "/media/a.mkv" then some [7] else none
  states := []
  calls := 0

/-- The run of one library file overwrites another one. -/
theorem swap_overwrites_sibling :
    ¬∀ (env : Env) (h : Host), Frames env (libraryFile h) h := by
  intro hall
  have hinput : (jobOf calmEnv twoFilesHost).map Job.input = some (pathOf "/media/a.avi") := by
    decide +kernel
  have hafter : (execute calmEnv twoFilesHost).2.disk (pathOf "/media/a.mkv") = some [2] := by
    decide +kernel
  obtain ⟨job, hjob, hpath⟩ := Option.map_eq_some_iff.mp hinput
  have hsibling : libraryFile twoFilesHost (pathOf "/media/a.mkv") :=
    ⟨siblingFile, List.mem_cons_of_mem _ List.mem_cons_self, by decide, rfl⟩
  have hkept := ((hall calmEnv twoFilesHost).others job hjob _ hsibling
    (by rw [hpath]; decide +kernel) (by decide +kernel)).disk
  rw [hafter] at hkept
  exact absurd hkept (by decide +kernel)

end SwapFrame
