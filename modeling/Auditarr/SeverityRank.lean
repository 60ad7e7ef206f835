/-
  Auditarr/SeverityRank.lean
  ==========================
  **The rank of a media row against its label.**

  The rules write a severity and its rank together.  A scan writes both on the row of a new
  file, and under a disposition it writes a rank of its own: 5 for `crit`, 0 for `ok`, 1 for
  `info`.  So the two agree along every run whose scans add no file with a disposition.
-/
import Auditarr.RulesFrame
import Auditarr.ScanFrame

namespace SeverityRank

open Effects Transactions KeyedTable PyValues RuleSchema RuleEvaluator RuleAggregation
open Database RulesService RulesFrame Scanner ScanIndex ScanFrame
open SeverityInvariant (PassStep PassCall reopened orReopened)

/-- Every row has the rank of its label. -/
def Ranked (t : Tables) : Prop := ∀ m ∈ t.media, m.severityRank = SEVERITY_LEVELS m.severity

/-! ### The rules -/

theorem kept_ranked : Kept Ranked where
  elsewhere t t' hmedia _ h := by
    unfold Ranked
    rw [hmedia]
    exact h
  judge t id severity h m hm := by
    rw [Tables.setSeverity, Table.mem_update] at hm
    obtain ⟨old, hold, rfl⟩ := hm
    split
    · rfl
    · exact h old hold
  delete foreignKeys t id h m hm := h m (Table.mem_erase.mp hm).1

/-! ### A scan -/

section Scan

variable {env : ScanEnv} {before : Tables} {context : ScanContext}

/-- The ranks agree, and every path of the table before the scan is still there. -/
def Held (before t : Tables) : Prop :=
  Ranked t ∧ ∀ old ∈ before.media, ∃ m ∈ t.media, m.path = old.path

theorem readsOnly_held (before : Tables) : ReadsOnly (Held before) where
  elsewhere t t' hmedia _ h := by
    unfold Held Ranked
    rw [hmedia]
    exact h

theorem Held.fresh {t : Tables} (h : Held before t) {path : String}
    (hnone : t.mediaAt path = none) : before.mediaAt path = none := by
  refine Tables.mediaAt_eq_none.mpr fun old hold hpath => ?_
  obtain ⟨m, hm, hsame⟩ := h.2 old hold
  exact Tables.mediaAt_eq_none.mp hnone m hm (hsame.trans hpath)

theorem Held.add {t t' : Tables} {m : MediaFile} (h : Held before t)
    (hrank : m.severityRank = SEVERITY_LEVELS m.severity) (hadd : t.addMedia m = some t') :
    Held before t' := by
  have hmem := (Tables.addMedia_eq_some hadd).1
  refine ⟨fun m' hm' => ?_, fun old hold => ?_⟩
  · rcases (hmem m').mp hm' with hm' | rfl
    · exact h.1 m' hm'
    · exact hrank
  · obtain ⟨m', hm', hpath⟩ := h.2 old hold
    exact ⟨m', (hmem m').mpr (.inl hm'), hpath⟩

theorem Held.update {t : Tables} {p : MediaFile → Bool} {f : MediaFile → MediaFile}
    {hid : ∀ m, (f m).id = m.id} {hpath : ∀ m, (f m).path = m.path} (h : Held before t)
    (hsame : ∀ m, (f m).severity = m.severity ∧ (f m).severityRank = m.severityRank) :
    Held before (t.updateMedia p f hid hpath) := by
  refine ⟨fun m hm => ?_, fun old hold => ?_⟩
  · obtain ⟨x, hx, rfl⟩ := Tables.mem_updateMedia.mp hm
    split
    · rw [(hsame x).1, (hsame x).2]
      exact h.1 x hx
    · exact h.1 x hx
  · obtain ⟨m, hm, hat⟩ := h.2 old hold
    exact Tables.path_of_updateMedia hm hat

theorem upheld_insertMedia {m : MediaFile} (hrank : m.severityRank = SEVERITY_LEVELS m.severity) :
    Sparing (Held before) (insertMedia env m) := by
  refine (sparing_read _).bind fun fits => ?_
  cases fits with
  | false => exact upheld_refused _
  | true =>
    refine Sparing.bind (upheld_edit fun t h => ?_) fun _ => sparing_flush
    cases hadd : t.addMedia m with
    | none => exact h
    | some t' => exact h.add hrank hadd

theorem upheld_upsertByPath {path : String} {row : Except DatabaseError MediaFile}
    (hrow : ∀ mf, row = .ok mf → before.mediaAt path = none →
      mf.severityRank = SEVERITY_LEVELS mf.severity) :
    Sparing (Held before) (upsertByPath env path row) := by
  refine upheld_of_triple ((triple_select_upheld _).bind fun existing => ?_)
  -- a row is inserted only where the table has none, and then it had none before
  refine Triple.consequence (P := fun s => (existing = none → before.mediaAt path = none) ∧
    Held before s.working ∧ Held before s.committed) (Triple.assuming fun hfresh => ?_) ?_
    (fun _ _ hs => hs) fun _ _ hs => hs
  · apply triple_of_upheld
    cases row with
    | error e => exact upheld_refused _
    | ok mf =>
      cases existing with
      | none =>
        exact (sparing_read _).bind fun id =>
          Sparing.bind (upheld_insertMedia (hrow mf rfl (hfresh rfl))) fun _ => sparing_pure _
      | some old =>
        refine Sparing.bind (upheld_edit fun t h => ?_) fun _ =>
          sparing_flush.bind fun _ => sparing_pure _
        exact h.update fun m => ⟨rfl, rfl⟩
  · rintro s ⟨rfl, hs⟩
    exact ⟨fun hnone => hs.1.fresh hnone, hs⟩

theorem triple_indexFile_held {file : Found} {disposition : Option Disposition}
    (hfile : before.mediaAt file.str = none → disposition = none) (counts : ScanCounts) :
    Triple (fun s : Session Tables Outside => Held before s.working ∧ Held before s.committed)
      (indexFile env context disposition counts file)
      (fun counts' s => counts'.filesSeen = counts.filesSeen ∧
        Held before s.working ∧ Held before s.committed)
      (fun _ s => Held before s.working ∧ Held before s.committed) := by
  refine (triple_of_upheld (sparing_raising _)).bind fun result => ?_
  refine (triple_of_upheld (sparing_load _)).bind fun runId => ?_
  refine (triple_of_upheld (sparing_load _)).bind fun libraryId => ?_
  refine (triple_of_upheld (sparing_select _)).bind fun preExisting => ?_
  have hrow : ∀ mf, buildMediaFile env libraryId runId disposition file result = .ok mf →
      before.mediaAt file.str = none → mf.severityRank = SEVERITY_LEVELS mf.severity := by
    intro mf hbuild hnew
    have hcolumns := (buildMediaFile_columns hbuild).2
    rw [hfile hnew] at hcolumns
    obtain ⟨hseverity, hrank⟩ := Prod.mk.inj hcolumns
    rw [hseverity, hrank]
    rfl
  refine (triple_of_upheld (upheld_upsertByPath hrow)).bind fun saved => ?_
  refine (triple_of_upheld (sparing_when (sparing_emit _))).bind fun _ => ?_
  refine (triple_of_upheld (sparing_enqueueSaved (readsOnly_held before) context.vt saved)).bind fun _ => ?_
  refine (triple_of_upheld (sparing_read _)).bind fun due => ?_
  exact (triple_of_upheld (sparing_when (sparing_emitProgress _))).bind fun _ =>
    triple_pure _ fun _ hs => ⟨rfl, hs⟩

theorem upheld_indexFiles (hdispositions : context.dispositions = dispositionMap before)
    {maxFiles : Option Int} {counts : ScanCounts} {files : List Found}
    (hfiles : ∀ file ∈ indexedFrom env before maxFiles counts.filesSeen files,
      before.mediaAt file.str = none → dispositionMap before (file.extension env.rt) = none) :
    Sparing (Held before) (indexFiles env context maxFiles counts files) := by
  induction files generalizing counts with
  | nil => exact sparing_pure _
  | cons file rest ih =>
    unfold indexFiles
    by_cases hstop : exceeds maxFiles (counts.filesSeen + 1) = true
    · rw [if_pos hstop]
      exact sparing_pure _
    · rw [if_neg hstop]
      have hnext : withinCap maxFiles counts.filesSeen (file :: rest) = _ :=
        withinCap_next (Bool.eq_false_iff.mpr hstop)
      by_cases hignore : context.dispositions (file.extension env.rt) = some .ignore
      · rw [hignore]
        refine ih fun other hother => hfiles other ?_
        rw [hdispositions] at hignore
        simpa [indexedFrom, hnext, hignore] using hother
      · have hkeep : indexedFrom env before maxFiles counts.filesSeen (file :: rest) =
            file :: indexedFrom env before maxFiles (counts.filesSeen + 1) rest := by
          rw [hdispositions] at hignore
          simp [indexedFrom, hnext, hignore]
        rw [hkeep] at hfiles
        have hgo : Sparing (Held before)
            (indexFile env context (context.dispositions (file.extension env.rt))
                { counts with filesSeen := counts.filesSeen + 1 } file >>= fun counts =>
              indexFiles env context maxFiles counts rest) := by
          refine upheld_of_triple ((triple_indexFile_held ?_ _).bind fun counts' =>
            Triple.assuming fun hcounts => triple_of_upheld (ih ?_))
          · rw [hdispositions]
            exact hfiles file (List.mem_cons_self ..)
          · rw [show counts'.filesSeen = counts.filesSeen + 1 from hcounts]
            exact fun other hother => hfiles other (List.mem_cons_of_mem _ hother)
        rcases hdisposition : context.dispositions (file.extension env.rt) with _ | disposition
        · rw [hdisposition] at hgo
          exact hgo
        · rw [hdisposition] at hgo hignore
          cases disposition with
          | ignore => exact absurd rfl hignore
          | _ => exact hgo

/-- Every file that the scan indexes has a row already, or no disposition. -/
def NewFilesPlain (env : ScanEnv) (before : Tables) (library : Library) (options : ScanOptions) :
    Prop :=
  ∀ file ∈ indexed env before library options, before.mediaAt file.str = none →
    dispositionMap before (file.extension env.rt) = none

variable {library : Library} {options : ScanOptions}

theorem upheld_indexLibrary (hplain : NewFilesPlain env before library options) (run : ScanRun)
    (vt : Option (Option PyValue)) :
    Sparing (Held before) (indexLibrary env library options run vt (dispositionMap before)) := by
  unfold indexLibrary
  cases hfound : enumerate env library.rootPath options.followSymlinks with
  | error e => exact sparing_raise e
  | ok found =>
    have hindexed : indexed env before library options =
        indexedFrom env before options.maxFiles 0 found := by
      rw [indexed, foundIn, hfound]
      rfl
    show Sparing (Held before) (emitProgress env
      ⟨library.id, run.id, vt, dispositionMap before, found.length⟩ 0 >>= _)
    refine (sparing_emitProgress _).bind fun _ => Sparing.bind (upheld_indexFiles rfl ?_)
      fun counts => ?_
    · rw [NewFilesPlain, hindexed] at hplain
      exact hplain
    · refine (sparing_emitProgress _).bind fun _ => (sparing_load _).bind fun runId =>
        (sparing_load _).bind fun libraryId => Sparing.bind ?_ fun orphaned =>
          (sparing_read _).bind fun now => Sparing.bind ?_ fun _ =>
            sparing_commit.bind fun _ => sparing_pure _
      · refine (sparing_select _).bind fun marked => Sparing.bind ?_ fun _ => sparing_pure _
        exact upheld_edit fun t h => h.update fun m => ⟨rfl, rfl⟩
      · exact upheld_edit fun t h => h

theorem upheld_runRules : Sparing Ranked (runRules env options library.id) := by
  unfold runRules
  split
  · exact sparing_pure _
  · refine sparing_attempt ?_ fun _ => ?_
    · exact (sparing_load _).bind fun libraryId => (kept_ranked.evaluateLibrary _ _).bind fun _ =>
        sparing_commit.bind fun _ => sparing_pure _
    · exact (sparing_load _).bind fun _ => sparing_rollback.bind fun _ => sparing_pure _

theorem upheld_failScan (run : ScanRun) (e : ServiceError) :
    Sparing Ranked (failScan env library run e) := by
  refine (sparing_load _).bind fun _ => (sparing_read _).bind fun _ => Sparing.bind
    (upheld_edit fun t h => h) fun _ => sparing_commit.bind fun _ => (sparing_emit _).bind fun _ =>
      sparing_pure _

theorem triple_scanLibrary_ranked (hplain : NewFilesPlain env before library options)
    (run : ScanRun) (vt : Option (Option PyValue)) :
    Triple (fun s : Session Tables Outside => Held before s.working ∧ Held before s.committed)
      (scanLibrary env library options run vt (dispositionMap before))
      (fun _ s => Ranked s.working ∧ Ranked s.committed)
      (fun _ s => Ranked s.working ∧ Ranked s.committed) := by
  refine Triple.bind (M := fun _ s => Ranked s.working ∧ Ranked s.committed)
    ((triple_of_upheld (upheld_indexLibrary hplain run vt)).consequence (fun _ hs => hs)
      (fun _ _ hs => ⟨hs.1.1, hs.2.1⟩) fun _ _ hs => ⟨hs.1.1, hs.2.1⟩) fun counts => ?_
  refine triple_of_upheld (Sparing.bind upheld_runRules fun _ => (sparing_load _).bind fun _ =>
    (sparing_load _).bind fun _ => (sparing_emit _).bind fun _ => sparing_pure _)

/-- What a scan starts from. -/
def Starts (before t : Tables) : Prop :=
  t.media = before.media ∧ t.extensionRules = before.extensionRules

theorem Starts.held {t : Tables} (h : Starts before t) (hranked : Ranked before) :
    Held before t := by
  unfold Held Ranked
  rw [h.1]
  exact ⟨hranked, fun old hold => ⟨old, hold, rfl⟩⟩

theorem upheld_startRun (queued : Option ScanRun) :
    Sparing (Starts before) (startRun env library options queued) := by
  cases queued with
  | none =>
    exact (sparing_read _).bind fun _ => (sparing_read _).bind fun _ =>
      Sparing.bind (upheld_edit fun t h => h) fun _ => sparing_flush.bind fun _ => sparing_pure _
  | some run =>
    exact (sparing_read _).bind fun _ => Sparing.bind (upheld_edit fun t h => h) fun _ =>
      sparing_pure _

theorem triple_scan_ranked (hranked : Ranked before)
    (hplain : NewFilesPlain env before library options) (queued : Option ScanRun) :
    Triple (fun s : Session Tables Outside => Starts before s.working ∧ Starts before s.committed)
      (scan env library options queued) (fun _ s => Ranked s.working ∧ Ranked s.committed)
      (fun _ s => Ranked s.working ∧ Ranked s.committed) := by
  have hweaken : ∀ s : Session Tables Outside, Starts before s.working ∧ Starts before s.committed →
      Ranked s.working ∧ Ranked s.committed :=
    fun s hs => ⟨(hs.1.held hranked).1, (hs.2.held hranked).1⟩
  have hfollowed : ∀ {α : Type} {c : Service α}, Sparing (Starts before) c →
      Triple (fun s : Session Tables Outside => Starts before s.working ∧ Starts before s.committed)
        c (fun _ s => Starts before s.working ∧ Starts before s.committed)
        (fun _ s => Ranked s.working ∧ Ranked s.committed) :=
    fun hc => (triple_of_upheld hc).consequence (fun _ hs => hs) (fun _ _ hs => hs)
      fun _ s hs => hweaken s hs
  refine (hfollowed (upheld_startRun queued)).bind fun run => ?_
  refine (hfollowed sparing_commit).bind fun _ => (hfollowed (sparing_emit _)).bind fun _ => ?_
  refine (hfollowed (sparing_select vtOptions)).bind fun vt => ?_
  refine Triple.bind (M := fun dispositions s => dispositions = dispositionMap before ∧
    Starts before s.working ∧ Starts before s.committed) ?_ fun dispositions =>
      Triple.assuming fun hdispositions => ?_
  · refine (triple_select_upheld dispositionMap).consequence (fun _ hs => hs) ?_
      fun _ s hs => hweaken s hs
    rintro dispositions s ⟨rfl, hs⟩
    refine ⟨?_, hs⟩
    unfold dispositionMap
    rw [hs.1.2]
  · subst hdispositions
    refine Triple.attempt ((triple_scanLibrary_ranked hplain run vt).consequence
      (fun s hs => ⟨hs.1.held hranked, hs.2.held hranked⟩) (fun _ _ hs => hs) fun _ _ hs => hs)
      fun e => triple_of_upheld (upheld_failScan run e)

end Scan

/-! ### Runs -/

/-- What is done to the table. -/
inductive Activity where
  /-- A call of the rules, a commit, the job, or a change elsewhere. -/
  | rules (env : Env) (step : PassStep)
  /-- A scan in a session of its own, which its caller commits. -/
  | scan (env : ScanEnv) (library : Library) (options : ScanOptions) (queued : Option ScanRun)

def next (s : Session Tables Outside) : Activity → Session Tables Outside
  | .rules env step => SeverityInvariant.step env s step
  | .scan env library options queued =>
      orReopened ((do
        let _ ← Scanner.scan env library options queued
        commit env.db : Service Unit) (reopened s))

/-- A scan adds no file with a disposition. -/
def Meets (s : Session Tables Outside) : Activity → Prop
  | .rules _ _ => True
  | .scan env library options _ => NewFilesPlain env s.committed library options

section Runs

variable {s : Session Tables Outside}

/-- The ranks agree in both tables of the session. -/
def BothRanked (s : Session Tables Outside) : Prop := Ranked s.working ∧ Ranked s.committed

theorem bothRanked_orReopened {c : Service Unit} (h : BothRanked (c s).2) :
    BothRanked (orReopened (c s)) := by
  rcases hc : c s with ⟨_ | _, s'⟩
  · rw [hc] at h
    exact ⟨h.2, h.2⟩
  · rw [hc] at h
    exact h

theorem bothRanked_call (env : Env) (call : PassCall) : Sparing Ranked (call.run env) := by
  cases call with
  | file m rules distinct persist =>
    exact (kept_ranked.evaluateFile m rules persist).bind fun _ => sparing_pure _
  | files chosen distinct => exact (kept_ranked.evaluateFiles chosen).bind fun _ => sparing_pure _
  | library libraryId tagsAny =>
    exact (kept_ranked.evaluateLibrary libraryId tagsAny).bind fun _ => sparing_pure _
  | rule ruleId => exact (kept_ranked.evaluateRule ruleId).bind fun _ => sparing_pure _

theorem bothRanked_next (h : BothRanked s) {activity : Activity} (hmeets : Meets s activity) :
    BothRanked (next s activity) := by
  cases activity with
  | rules env step =>
    cases step with
    | call call => exact bothRanked_orReopened (bothRanked_call env call s h)
    | commit => exact bothRanked_orReopened (upheld_commit s h)
    | job libraryId tagsAny =>
      refine bothRanked_orReopened (upheld_commit _ ?_)
      exact kept_ranked.evaluateLibrary libraryId tagsAny (reopened s) ⟨h.2, h.2⟩
    | elsewhere change media evaluations =>
      have hchanged : Ranked (change s.committed) := by
        unfold Ranked
        rw [media]
        exact h.2
      exact ⟨hchanged, hchanged⟩
  | scan env library options queued =>
    apply bothRanked_orReopened
    have hcommit : Within (Upheld Ranked)
        (commit env.db : Call (Session Tables Outside) ServiceError Unit) := upheld_commit
    have hscan := (triple_scan_ranked h.2 hmeets queued).bind fun _ => triple_of_upheld hcommit
    exact (hscan (reopened s) ⟨⟨rfl, rfl⟩, rfl, rfl⟩).of_const

/-- **Labels and ranks.**  In every run of scans and rule evaluations whose scans add no file
    with a disposition, every row of every state reached has the rank of its label, if those
    of the first state do. -/
theorem ranked_along_runs (start : Session Tables Outside) (hstart : BothRanked start)
    (s : Session Tables Outside)
    (hs : Runs.Admitted (fun s activity s' => s' = next s activity) Meets start s) :
    Ranked s.working ∧ Ranked s.committed := by
  refine hs.invariant (I := BothRanked) hstart fun s activity s' h hmeets hstep => ?_
  rw [hstep]
  exact bothRanked_next h hmeets

end Runs

theorem scannedTables_ranked (disposition : Disposition) :
    BothRanked (freshSession (scannedTables disposition)) := by
  have hranked : Ranked (scannedTables disposition) := by
    intro m hm
    rw [List.mem_singleton.mp hm]
    rfl
  exact ⟨hranked, hranked⟩

theorem scannedTables_plain :
    NewFilesPlain oneFileEnv (scannedTables .malicious) mediaLibrary .default := by
  have hindexed : (indexed oneFileEnv (scannedTables .malicious) mediaLibrary .default).all
      fun file => ((scannedTables .malicious).mediaAt file.str).isSome := by
    decide +kernel
  intro file hfile hnone
  have hsome := List.all_eq_true.mp hindexed file hfile
  rw [hnone] at hsome
  cases hsome

theorem ranked_along_runs_avi :
    Ranked (next (freshSession (scannedTables .malicious))
        (.scan oneFileEnv mediaLibrary .default none)).working ∧
      Ranked (next (freshSession (scannedTables .malicious))
        (.scan oneFileEnv mediaLibrary .default none)).committed :=
  ranked_along_runs (freshSession (scannedTables .malicious)) (scannedTables_ranked .malicious) _
    (.next .start (i := .scan oneFileEnv mediaLibrary .default none) scannedTables_plain rfl)

/-! A new file whose extension is malicious, in a scan whose rules pass fails. -/

/-- The row is committed with its label and a rank of its own before the rules run. -/
def unruledEnv : ScanEnv :=
  { oneFileEnv with faultAt := fun n => if 9 ≤ n then some ⟨.operational "gone", true⟩ else none }

def newFileTables (disposition : Disposition) : Tables :=
  { scannedTables disposition with
    media := .empty
    media_path_unique := List.nodup_nil }

theorem crit_of_rank_five :
    ¬ ∀ (start : Session Tables Outside), BothRanked start → ∀ activity,
      Ranked (next start activity).committed := by
  intro hall
  have hranked := hall (freshSession (newFileTables .malicious))
    ⟨fun m hm => absurd hm (Table.not_mem_empty m), fun m hm => absurd hm (Table.not_mem_empty m)⟩
    (.scan unruledEnv mediaLibrary .default none)
  have hrow : ∃ m ∈ (next (freshSession (newFileTables .malicious))
      (.scan unruledEnv mediaLibrary .default none)).committed.media.rows,
      m.severity = .crit ∧ m.severityRank = 5 := by
    decide +kernel
  obtain ⟨m, hm, hseverity, hrank⟩ := hrow
  have hlevel := hranked m hm
  rw [hseverity, hrank] at hlevel
  exact absurd hlevel (by decide)

end SeverityRank
