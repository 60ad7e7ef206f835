/-
  Auditarr/ScanRunLaw.lean
  ========================
  **The life of a scan run.**

  A run is queued, then running, then completed or failed.  Its job is to bring it there, and
  nobody is to change the status of a run that is over.

  Neither holds of every order of steps.  The jobs of `trigger_scan_all` do not know the run
  they were made for.  And who gives a run up, and the scan that goes on nevertheless, write
  its status one over the other.
-/
import Auditarr.ScanParties
import Auditarr.ScanFrame

namespace ScanRunLaw

open Effects Transactions KeyedTable RuleSchema Database RulesService Scanner Runs
open RulesFrame ScanFrame ScanParties

/-! ### Statuses -/

section Statuses

variable {t t' : Tables} {id : String} {status : ScanStatus}

theorem statusOf_putScanRun (t : Tables) (run : ScanRun) (id : String) :
    statusOf (t.putScanRun run) id = if id = run.id then some run.status else statusOf t id := by
  unfold statusOf
  rw [show (t.putScanRun run).scanRuns.find? id = _ from Table.find?_upsert id]
  rw [apply_ite (Option.map ScanRun.status)]
  rfl

theorem statusOf_writeRun {loaded changed : ScanRun} (hne : changed.status ≠ loaded.status)
    (t : Tables) (id : String) : statusOf (writeRun loaded changed t) id =
      if id = loaded.id then (statusOf t id).map fun _ => changed.status else statusOf t id := by
  unfold writeRun
  cases hfind : t.scanRuns.find? loaded.id with
  | none =>
    show statusOf t id = _
    by_cases heq : id = loaded.id
    · subst heq
      simp [statusOf, hfind]
    · rw [if_neg heq]
  | some row =>
    have hid : row.id = loaded.id := (Table.mem_of_find? hfind).2
    have hstatus : (writeBack loaded changed row).status = changed.status := if_neg hne
    show statusOf (t.putScanRun (writeBack loaded changed row)) id = _
    rw [statusOf_putScanRun, hstatus]
    have hkey : (writeBack loaded changed row).id = loaded.id := hid
    rw [hkey]
    by_cases heq : id = loaded.id
    · subst heq
      simp [statusOf, hfind]
    · rw [if_neg heq, if_neg heq]

/-- Runs that are given up. -/
def GivenUp (changes : List (ScanRun × ScanRun)) : Prop :=
  ∀ change ∈ changes, ScanStatus.active change.1.status = true ∧ change.2.status = .failed

theorem statusOf_writeRuns {changes : List (ScanRun × ScanRun)} (h : GivenUp changes) (t : Tables)
    (id : String) : statusOf (writeRuns changes t) id =
      if id ∈ changes.map (·.1.id) then (statusOf t id).map fun _ => .failed else statusOf t id := by
  induction changes generalizing t with
  | nil => rfl
  | cons change rest ih =>
    obtain ⟨hactive, hfailed⟩ := h change (List.mem_cons_self ..)
    have hne : change.2.status ≠ change.1.status := by
      intro heq
      rw [← heq, hfailed] at hactive
      cases hactive
    show statusOf (writeRuns rest (writeRun change.1 change.2 t)) id = _
    rw [ih (fun c hc => h c (List.mem_cons_of_mem _ hc)), statusOf_writeRun hne, hfailed,
      List.map_cons]
    by_cases hid : id = change.1.id
    · simp [hid, Function.comp_def]
    · by_cases hrest : id ∈ rest.map (·.1.id) <;> simp [hid, hrest]

theorem statusOf_insertRuns {runs : List ScanRun} (h : insertRuns runs t = some t') :
    (runs.map (·.id)).Nodup ∧ (∀ run ∈ runs, statusOf t run.id = none ∧
      statusOf t' run.id = some run.status) ∧
      ∀ id, id ∉ runs.map (·.id) → statusOf t' id = statusOf t id := by
  induction runs generalizing t with
  | nil =>
    cases h
    simp
  | cons run rest ih =>
    unfold insertRuns at h
    split at h
    · cases h
    · next hnew =>
      have hnone : statusOf t run.id = none := by
        rw [Bool.not_eq_true, Option.isSome_eq_false_iff, Option.isNone_iff_eq_none] at hnew
        rw [statusOf, hnew]
        rfl
      obtain ⟨hnodup, hruns, hothers⟩ := ih h
      have hfresh : run.id ∉ rest.map (·.id) := by
        intro hmem
        obtain ⟨other, hother, heq⟩ := List.mem_map.mp hmem
        have hmissing := (hruns other hother).1
        rw [statusOf_putScanRun, if_pos heq] at hmissing
        cases hmissing
      refine ⟨List.nodup_cons.mpr ⟨hfresh, hnodup⟩, ?_, ?_⟩
      · intro other hother
        rcases List.mem_cons.mp hother with rfl | hother
        · refine ⟨hnone, ?_⟩
          rw [hothers _ hfresh, statusOf_putScanRun, if_pos rfl]
        · obtain ⟨hmissing, hstatus⟩ := hruns other hother
          rw [statusOf_putScanRun] at hmissing
          refine ⟨?_, hstatus⟩
          split at hmissing
          · cases hmissing
          · exact hmissing
      · intro id hid
        rw [List.map_cons, List.mem_cons, not_or] at hid
        rw [hothers id hid.2, statusOf_putScanRun, if_neg hid.1]

end Statuses

/-! ### Files and rules -/

section Frames

variable {m : Moment} {t t' : Tables} {phase' : Option Phase} {D : Tables → Prop}

theorem upheld_indexTurn {Row : MediaFile → Prop} (hD : KeptBy Row D) {options : ScanOptions}
    {context : ScanContext} {counts : ScanCounts} {file : Found} {rest : List Found}
    (hrow : ∀ mf disposition result,
      buildMediaFile m.env context.libraryId context.runId disposition file result = .ok mf →
        ∀ id, Row { mf with id := id })
    (h : indexTurn m options context counts file rest t = (phase', t')) (ht : D t) : D t' := by
  have hindex : ∀ disposition counts (onward : Except ServiceError ScanCounts → Phase),
      D (proceed onward (indexFile m.env context disposition counts file (m.session t))).2 := by
    intro disposition counts onward
    obtain ⟨hworking, hcommitted⟩ := hD.indexFile m.env context
      (fun mf result hbuild => hrow mf disposition result hbuild) counts (m.session t) ⟨ht, ht⟩
    unfold proceed
    split
    · exact hcommitted
    · exact hworking
  unfold indexTurn at h
  simp only at h
  split at h
  · cases h
    exact ht
  · split at h
    · cases h
      exact ht
    · rw [← show _ = t' from congrArg Prod.snd h]
      exact hindex _ _ _

theorem upheld_judgeTurn (hD : Kept D) {rules : List (Rule × RuleDefinition)} {file : MediaFile}
    {rest : List MediaFile} (h : judgeTurn m rules file rest t = (phase', t')) (ht : D t) :
    D t' := by
  have hkept : Sparing D (evaluateFile m.env.toEnv file rules true) :=
    hD.evaluateFile file rules true
  replace hkept := hkept (m.session t) ⟨ht, ht⟩
  unfold judgeTurn at h
  rcases hrun : evaluateFile m.env.toEnv file rules true (m.session t) with ⟨e | outcome, s⟩
  · rw [hrun] at h hkept
    cases h
    exact hkept.2
  · rw [hrun] at h hkept
    simp only at h
    split at h
    · cases h
      exact hkept.2
    · cases h
      exact hkept.1

theorem upheld_trackRules (hD : ReadsOnly D) (ht : D t) :
    D (trackRules m (m.session t)).2.committed := by
  have hkept : Sparing D (trackRules m) := by
    refine (sparing_select _).bind fun rules => (sparing_read _).bind fun now =>
      (sparing_forEach _ fun rule => ?_).bind fun _ => sparing_commit
    exact (sparing_select _).bind fun _ => hD.edit
  exact (hkept (m.session t) ⟨ht, ht⟩).2

theorem kept_given (t : Tables) : Kept (fun t' => given t' = given t) where
  elsewhere _ _ _ hgiven h := hgiven.trans h
  judge _ _ _ h := h
  delete _ _ _ h := h

theorem keptBy_given (t : Tables) :
    KeptBy (fun _ => True) (fun t' => given t' = given t) where
  elsewhere _ _ _ hgiven h := hgiven.trans h
  add t _ m _ hadd h := by
    rw [(Tables.addMedia_eq_some hadd).2]
    exact h
  refresh _ _ _ _ h := h

theorem given_indexTurn {options : ScanOptions} {context : ScanContext} {counts : ScanCounts}
    {file : Found} {rest : List Found}
    (h : indexTurn m options context counts file rest t = (phase', t')) : given t' = given t :=
  upheld_indexTurn (keptBy_given t) (fun _ _ _ _ _ => trivial) h rfl

theorem given_judgeTurn {rules : List (Rule × RuleDefinition)} {file : MediaFile}
    {rest : List MediaFile} (h : judgeTurn m rules file rest t = (phase', t')) :
    given t' = given t :=
  upheld_judgeTurn (kept_given t) h rfl

theorem given_trackRules : given (trackRules m (m.session t)).2.committed = given t :=
  upheld_trackRules (kept_given t).toReadsOnly rfl

end Frames

/-! ### What the parties are about -/

/-- The end of the run has not been recorded. -/
def unrecorded : Phase → Bool
  | .judging | .judgingEach _ _ => false
  | _ => true

/-- The run that a job has still to bring to its end. -/
def owes : Party → Option String
  | .waiting job | .starting (some job) _ _ _ => job.runId
  | .scanning (some job) _ _ _ phase => if unrecorded phase then job.runId else none
  | _ => none

/-- The runs that a party gives up. -/
def freed : Party → List String
  | .freeing stuck => stuck.map (·.1.id)
  | _ => []

/-- The runs that are a party's business, and the statuses they may have then. -/
def claims : Party → List (String × List ScanStatus)
  | .enqueuing _ runs refused =>
      (runs.map (·.id) ++ refused.map (·.1.id)).map fun id => (id, [.queued, .failed])
  | .waiting job | .starting (some job) _ _ _ => job.runId.toList.map fun id => (id, [.queued])
  | .scanning (some job) _ _ _ phase =>
      if unrecorded phase then job.runId.toList.map fun id => (id, [.running]) else []
  | .scanning none _ _ run phase =>
      if unrecorded phase then [(run.id, [.running, .failed])] else []
  | _ => []

def claimed (party : Party) : List String := (claims party).map Prod.fst

/-- What a party has loaded. -/
def Shaped (t : Tables) : Party → Prop
  | .asking _ _ created =>
      ∀ run ∈ created, run.status = .queued ∧ (t.libraries.find? run.libraryId).isSome = true
  | .enqueuing _ runs refused =>
      (∀ run ∈ runs, run.status = .queued ∧ (t.libraries.find? run.libraryId).isSome = true) ∧
        GivenUp refused
  | .waiting job => job.runId.isSome = true ∧ (t.libraries.find? job.libraryId).isSome = true
  | .starting (some job) _ _ queued =>
      ∃ run, queued = some run ∧ run.status = .queued ∧ job.runId = some run.id
  | .starting none _ _ queued => queued = none
  | .scanning job _ _ run _ => run.status = .running ∧ ∀ j ∈ job, j.runId = some run.id
  | .freeing stuck => GivenUp stuck
  | _ => True

/-- What a party has loaded, and the runs that are its business. -/
structure Fits (t : Tables) (party : Party) : Prop where
  shaped : Shaped t party
  status : ∀ claim ∈ claims party, ∃ status ∈ claim.2, statusOf t claim.1 = some status
  distinct : (claimed party).Nodup

/-- The writes of a party that do not ask find the runs as they expect them: a run that is
    given up has not completed meanwhile, and its job, if it has one, is not to bring it to an
    end; a scan without a job that completes has not been given up; and the session of one
    that has a job is not rolled back over a file. -/
def Unspoilt (s : System) (m : Moment) : Party → Prop
  | .freeing stuck => ∀ change ∈ stuck, statusOf s.tables change.1.id ≠ some .completed ∧
      ∀ q, owes (s.parties q) ≠ some change.1.id
  | .scanning (some _) _ options _ (.indexing context counts (file :: rest)) =>
      (indexTurn m options context counts file rest s.tables).1.isSome = true
  | .scanning none _ _ run (.sweeping _) => statusOf s.tables run.id = some .running
  | _ => True

/-- What a step of a party does to the runs. -/
structure Effect (t : Tables) (party party' : Party) (t' : Tables) : Prop where
  libraries : t'.libraries = t.libraries
  fits : Fits t' party'
  origin : ∀ id ∈ claimed party', id ∈ claimed party ∨ statusOf t id = none
  others : ∀ id status, statusOf t id = some status → id ∉ claimed party →
    statusOf t' id = some status ∨ statusOf t' id = some .failed ∧ id ∈ freed party
  settled : ∀ id status, statusOf t id = some status → ScanStatus.active status = false →
    statusOf t' id = some status
  duty : ∀ job id, party.job = some job → owes party = some id →
    (party'.job = some job ∧ owes party' = some id ∧ (statusOf t' id = statusOf t id ∨
      statusOf t id = some .queued ∧ statusOf t' id = some .running)) ∨
    statusOf t id = some .running ∧
      ∃ status, ScanStatus.active status = false ∧ statusOf t' id = some status

section Effects

variable {t t' : Tables} {party party' : Party}

theorem statusOf_of_given (h : given t' = given t) (id : String) :
    statusOf t' id = statusOf t id := by
  have hruns : t'.scanRuns = t.scanRuns := congrArg (fun g => g.2.2.2.1) h
  rw [statusOf, statusOf, hruns]

theorem libraries_of_given (h : given t' = given t) : t'.libraries = t.libraries :=
  congrArg Prod.fst h

/-- A step that leaves the runs alone, by a party that goes on with some of its business and
    with the job it does. -/
theorem Effect.quiet (hfits : Fits t party) (hgiven : given t' = given t)
    (hshaped : Shaped t' party') (hclaims : ∀ claim ∈ claims party', claim ∈ claims party)
    (hdistinct : (claimed party').Nodup)
    (hduty : ∀ job id, party.job = some job → owes party = some id →
      party'.job = some job ∧ owes party' = some id) : Effect t party party' t' where
  libraries := libraries_of_given hgiven
  fits := {
    shaped := hshaped
    status := by
      intro claim hclaim
      rw [statusOf_of_given hgiven]
      exact hfits.status claim (hclaims claim hclaim)
    distinct := hdistinct }
  origin := by
    intro id hid
    obtain ⟨claim, hclaim, rfl⟩ := List.mem_map.mp hid
    exact .inl (List.mem_map_of_mem (hclaims claim hclaim))
  others id status hstatus _ := .inl ((statusOf_of_given hgiven id).trans hstatus)
  settled id status hstatus _ := (statusOf_of_given hgiven id).trans hstatus
  duty job id hjob howes :=
    .inl ⟨(hduty job id hjob howes).1, (hduty job id hjob howes).2, .inl (statusOf_of_given hgiven id)⟩

theorem Effect.idle (hfits : Fits t party) (hgiven : given t' = given t)
    (hshaped : Shaped t' party') (hclaims : claims party' = []) (howes : owes party = none) :
    Effect t party party' t' := by
  refine Effect.quiet hfits hgiven hshaped ?_ ?_ ?_
  · rw [hclaims]
    exact fun _ h => nomatch h
  · rw [claimed, hclaims]
    exact List.nodup_nil
  · intro job id _ hid
    rw [howes] at hid
    cases hid

theorem Effect.writes (hlibraries : t'.libraries = t.libraries) (hfits : Fits t' party')
    (hclaims : ∀ id ∈ claimed party', id ∈ claimed party)
    (hothers : ∀ id, id ∉ claimed party → statusOf t' id = statusOf t id)
    (hover : ∀ claim ∈ claims party, ∀ status, statusOf t claim.1 = some status →
      ScanStatus.active status = false → statusOf t' claim.1 = some status)
    (hduty : ∀ job id, party.job = some job → owes party = some id →
      (party'.job = some job ∧ owes party' = some id ∧
        statusOf t id = some .queued ∧ statusOf t' id = some .running) ∨
      statusOf t id = some .running ∧
        ∃ status, ScanStatus.active status = false ∧ statusOf t' id = some status) :
    Effect t party party' t' where
  libraries := hlibraries
  fits := hfits
  origin id hid := .inl (hclaims id hid)
  others id status hstatus hid := .inl ((hothers id hid).trans hstatus)
  settled := by
    intro id status hstatus hactive
    by_cases hid : id ∈ claimed party
    · obtain ⟨claim, hclaim, rfl⟩ := List.mem_map.mp hid
      exact hover claim hclaim status hstatus hactive
    · exact (hothers id hid).trans hstatus
  duty := by
    intro job id hjob howes
    rcases hduty job id hjob howes with ⟨hjob', howes', hqueued, hrunning⟩ | hends
    · exact .inl ⟨hjob', howes', .inr ⟨hqueued, hrunning⟩⟩
    · exact .inr hends

theorem Effect.makes {runs : List ScanRun}
    (hinsert : insertRuns runs t = some t') (hlibraries : t'.libraries = t.libraries)
    (hshaped : Shaped t' party') (hclaims : claimed party' = runs.map (·.id))
    (hstatuses : ∀ claim ∈ claims party', ∃ run ∈ runs, run.id = claim.1 ∧ run.status ∈ claim.2)
    (howes : owes party = none) : Effect t party party' t' := by
  obtain ⟨hnodup, hruns, hothers⟩ := statusOf_insertRuns hinsert
  have hkept : ∀ id status, statusOf t id = some status → statusOf t' id = some status := by
    intro id status hstatus
    rw [hothers id, hstatus]
    intro hid
    obtain ⟨run, hrun, rfl⟩ := List.mem_map.mp hid
    rw [(hruns run hrun).1] at hstatus
    cases hstatus
  exact {
    libraries := hlibraries
    fits := {
      shaped := hshaped
      status := by
        intro claim hclaim
        obtain ⟨run, hrun, hid, hstatus⟩ := hstatuses claim hclaim
        exact ⟨run.status, hstatus, hid ▸ (hruns run hrun).2⟩
      distinct := hclaims ▸ hnodup }
    origin := by
      intro id hid
      rw [hclaims] at hid
      obtain ⟨run, hrun, rfl⟩ := List.mem_map.mp hid
      exact .inr (hruns run hrun).1
    others := fun id status hstatus _ => .inl (hkept id status hstatus)
    settled := fun id status hstatus _ => hkept id status hstatus
    duty := by
      intro job id _ hid
      rw [howes] at hid
      cases hid }

theorem libraries_insertRuns {runs : List ScanRun} (h : insertRuns runs t = some t') :
    t'.libraries = t.libraries := by
  induction runs generalizing t with
  | nil => cases h; rfl
  | cons run rest ih =>
    unfold insertRuns at h
    split at h
    · cases h
    · exact (ih h : t'.libraries = (t.putScanRun run).libraries)

theorem libraries_writeRun (loaded changed : ScanRun) (t : Tables) :
    (writeRun loaded changed t).libraries = t.libraries := by
  unfold writeRun
  split <;> rfl

theorem libraries_writeRuns (changes : List (ScanRun × ScanRun)) (t : Tables) :
    (writeRuns changes t).libraries = t.libraries := by
  induction changes generalizing t with
  | nil => rfl
  | cons change rest ih => exact (ih _).trans (libraries_writeRun ..)

/-! ### Scans -/

section Scans

variable {m : Moment} {job : Option Job} {library : Library} {options : ScanOptions} {run : ScanRun}
  {phase : Phase}

theorem claims_scanning (h : Shaped t (.scanning job library options run phase)) :
    claims (.scanning job library options run phase) =
      if unrecorded phase then
        [(run.id, if job.isSome then [.running] else [.running, .failed])] else [] := by
  cases job with
  | none => rfl
  | some j =>
    have hid : j.runId = some run.id := h.2 j rfl
    simp [claims, hid]

theorem owes_scanning (h : Shaped t (.scanning job library options run phase)) :
    owes (.scanning job library options run phase) =
      if unrecorded phase && job.isSome then some run.id else none := by
  cases job with
  | none => simp [owes]
  | some j =>
    have hid : j.runId = some run.id := h.2 j rfl
    simp [owes, hid]

theorem effect_goesOn (hfits : Fits t (.scanning job library options run phase))
    (hgiven : given t' = given t) {phase' : Phase} (hsame : unrecorded phase' = unrecorded phase) :
    Effect t (.scanning job library options run phase) (.scanning job library options run phase') t' := by
  have hclaims : claims (.scanning job library options run phase') =
      claims (.scanning job library options run phase) := by
    cases job <;> simp only [claims, hsame]
  refine Effect.quiet hfits hgiven hfits.shaped (fun claim hclaim => hclaims ▸ hclaim) ?_ ?_
  · rw [claimed, hclaims]
    exact hfits.distinct
  · intro j id hjob howes
    refine ⟨hjob, ?_⟩
    rw [← howes]
    cases job <;> simp only [owes, hsame]

theorem effect_gaveUp (hfits : Fits t (.scanning job library options run phase))
    (hgiven : given t' = given t) (howes : job = none ∨ unrecorded phase = false) :
    Effect t (.scanning job library options run phase) .ended t' := by
  refine Effect.idle hfits hgiven trivial rfl ?_
  rw [owes_scanning hfits.shaped]
  rcases howes with rfl | hrecorded
  · simp
  · simp [hrecorded]

theorem effect_records (hfits : Fits t (.scanning job library options run phase))
    (hunrecorded : unrecorded phase = true) {changed : ScanRun} (hover : changed.status ≠ .running)
    (hinactive : ScanStatus.active changed.status = false)
    (hexpected : job = none → statusOf t run.id = some .running ∨ changed.status = .failed)
    {party' : Party} (hshaped : Shaped (writeRun run changed t') party')
    (hclaims : claims party' = []) (hgiven : given t' = given t) :
    Effect t (.scanning job library options run phase) party' (writeRun run changed t') := by
  have hne : changed.status ≠ run.status := by
    rw [hfits.shaped.1]
    exact hover
  have hmine := claims_scanning hfits.shaped
  rw [hunrecorded, if_pos rfl] at hmine
  have hstatuses : ∀ id, statusOf (writeRun run changed t') id =
      if id = run.id then (statusOf t id).map fun _ => changed.status else statusOf t id := by
    intro id
    rw [statusOf_writeRun hne, statusOf_of_given hgiven]
  obtain ⟨status, hallowed, hstatus⟩ := hfits.status _ (hmine ▸ List.mem_singleton.mpr rfl)
  have hnow : statusOf (writeRun run changed t') run.id = some changed.status := by
    rw [hstatuses, if_pos rfl, hstatus]
    rfl
  refine Effect.writes ((libraries_writeRun ..).trans (libraries_of_given hgiven)) ?_ ?_ ?_ ?_ ?_
  · refine ⟨hshaped, ?_, ?_⟩
    · rw [hclaims]
      exact fun _ h => nomatch h
    · rw [claimed, hclaims]
      exact List.nodup_nil
  · rw [claimed, hclaims]
    exact fun _ h => nomatch h
  · intro id hid
    rw [hstatuses, if_neg]
    rintro rfl
    rw [claimed, hmine] at hid
    exact hid (List.mem_singleton.mpr rfl)
  · intro claim hclaim st hst hactive
    rw [hmine, List.mem_singleton] at hclaim
    subst hclaim
    rw [hnow]
    -- only a scan without a job may find its run given up, and then it fails
    obtain rfl : st = status := Option.some.inj (hst.symm.trans hstatus)
    cases job with
    | some j =>
      obtain rfl : st = .running := by simpa using hallowed
      cases hactive
    | none =>
      rcases hexpected rfl with hrunning | hfailed
      · rw [hst] at hrunning
        cases hrunning
        cases hactive
      · rcases (by simpa using hallowed : st = .running ∨ st = .failed) with rfl | rfl
        · cases hactive
        · exact congrArg some hfailed
  · intro j id hjob hid
    rw [owes_scanning hfits.shaped, hunrecorded] at hid
    cases job with
    | none => simp at hid
    | some j' =>
      obtain rfl : run.id = id := by simpa using hid
      obtain rfl : status = .running := by simpa using hallowed
      exact .inr ⟨hstatus, changed.status, hinactive, hnow⟩

theorem advance_goesOn {phase' : Phase}
    (h : scanTurn m library options run t phase = (some phase', t')) :
    advance m t (.scanning job library options run phase) =
      (.scanning job library options run phase', t') := by
  simp only [advance, h]

theorem advance_isOver (h : scanTurn m library options run t phase = (none, t')) :
    advance m t (.scanning job library options run phase) = (.ended, t') := by
  simp only [advance, h]

theorem unrecorded_indexTurn {context : ScanContext} {counts : ScanCounts} {file : Found}
    {rest : List Found} {phase' : Phase}
    (h : indexTurn m options context counts file rest t = (some phase', t')) :
    unrecorded phase' = true := by
  have honward : ∀ outcome : Except ServiceError ScanCounts,
      unrecorded (onward context rest outcome) = true := by
    intro outcome
    cases outcome <;> rfl
  unfold indexTurn at h
  simp only at h
  split at h
  · cases h
    rfl
  · split at h
    · cases h
      rfl
    · obtain ⟨rfl, -⟩ := proceed_eq_some h
      exact honward _

theorem unrecorded_judgeTurn {rules : List (Rule × RuleDefinition)} {file : MediaFile}
    {rest : List MediaFile} {phase' : Phase}
    (h : judgeTurn m rules file rest t = (some phase', t')) : unrecorded phase' = false := by
  unfold judgeTurn at h
  split at h
  · split at h
    · cases h
    · cases h
      rfl
  · cases h

theorem effect_scanTurn (hfits : Fits t (.scanning job library options run phase))
    (hsurvives : ∀ context counts file rest, job ≠ none →
      phase = .indexing context counts (file :: rest) →
        (indexTurn m options context counts file rest t).1.isSome = true)
    (hdirect : ∀ counts, job = none → phase = .sweeping counts →
      statusOf t run.id = some .running) :
    Effect t (.scanning job library options run phase)
      (advance m t (.scanning job library options run phase)).1
      (advance m t (.scanning job library options run phase)).2 := by
  cases phase with
  | opened =>
    cases henumerate : enumerate m.env library.rootPath options.followSymlinks with
    | error e =>
      have hturn : scanTurn m library options run t .opened = (some (.failing e), t) := by
        simp only [scanTurn, henumerate]
      rw [advance_goesOn hturn]
      exact effect_goesOn hfits rfl rfl
    | ok files =>
      have hturn : scanTurn m library options run t .opened = (some (.indexing ⟨library.id, run.id,
          vtOptions t, dispositionMap t, files.length⟩ .zero files), t) := by
        simp only [scanTurn, henumerate]
      rw [advance_goesOn hturn]
      exact effect_goesOn hfits rfl rfl
  | indexing context counts files =>
    cases files with
    | nil => exact effect_goesOn hfits rfl rfl
    | cons file rest =>
      rcases hturn : indexTurn m options context counts file rest t with ⟨phase', t'⟩
      have hgiven := given_indexTurn hturn
      have hscan : scanTurn m library options run t (.indexing context counts (file :: rest)) =
        (phase', t') := hturn
      cases phase' with
      | none =>
        have hjob : job = none := by
          by_contra hjob
          have hsome := hsurvives context counts file rest hjob rfl
          rw [hturn] at hsome
          cases hsome
        rw [advance_isOver hscan]
        exact effect_gaveUp hfits hgiven (.inl hjob)
      | some phase' =>
        rw [advance_goesOn hscan]
        exact effect_goesOn hfits hgiven (unrecorded_indexTurn hturn)
  | sweeping counts =>
    refine effect_records hfits rfl (fun h => by cases h) rfl
      (fun hjob => .inl (hdirect counts hjob rfl)) hfits.shaped ?_ rfl
    cases job <;> rfl
  | failing e =>
    exact effect_records hfits rfl (fun h => by cases h) rfl (fun _ => .inr rfl) trivial rfl rfl
  | judging =>
    by_cases hrules : options.runRules = true
    · have hturn : scanTurn m library options run t .judging =
          (some (.judgingEach (loadEnabled t) (listMedia t library.id [])), t) := if_pos hrules
      rw [advance_goesOn hturn]
      exact effect_goesOn hfits rfl rfl
    · have hturn : scanTurn m library options run t .judging = (none, t) := if_neg hrules
      rw [advance_isOver hturn]
      exact effect_gaveUp hfits rfl (.inr rfl)
  | judgingEach rules files =>
    cases files with
    | nil => exact effect_gaveUp hfits given_trackRules (.inr rfl)
    | cons file rest =>
      rcases hturn : judgeTurn m rules file rest t with ⟨phase', t'⟩
      have hgiven := given_judgeTurn hturn
      have hscan : scanTurn m library options run t (.judgingEach rules (file :: rest)) =
        (phase', t') := hturn
      cases phase' with
      | none =>
        rw [advance_isOver hscan]
        exact effect_gaveUp hfits hgiven (.inr rfl)
      | some phase' =>
        rw [advance_goesOn hscan]
        exact effect_goesOn hfits hgiven (unrecorded_judgeTurn hturn)

end Scans

/-! ### Steps -/

theorem effect_start {m : Moment} {job : Option Job} {library : Library} {options : ScanOptions}
    {queued : Option ScanRun} (hfits : Fits t (.starting job library options queued)) :
    Effect t (.starting job library options queued)
      (advance m t (.starting job library options queued)).1
      (advance m t (.starting job library options queued)).2 := by
  have hshaped := hfits.shaped
  cases job with
  | none =>
    obtain rfl : queued = none := hshaped
    cases hinsert : insertRuns [newRun m library options] t with
    | none =>
      simp only [advance, hinsert]
      exact Effect.idle hfits rfl trivial rfl rfl
    | some t' =>
      simp only [advance, hinsert]
      refine Effect.makes hinsert (libraries_insertRuns hinsert)
        ⟨rfl, fun j hj => absurd hj (Option.not_mem_none j)⟩ rfl ?_ rfl
      intro claim hclaim
      obtain rfl := List.mem_singleton.mp hclaim
      exact ⟨_, List.mem_singleton.mpr rfl, rfl, List.mem_cons_self ..⟩
  | some job =>
    obtain ⟨run, rfl, hqueued, hid⟩ := hshaped
    have hne : (startedRun m run).status ≠ run.status := by
      rw [hqueued]
      exact fun h => by cases h
    have hmine : claims (.starting (some job) library options (some run)) =
        [(run.id, [.queued])] := by
      simp [claims, hid]
    obtain ⟨status, hallowed, hstatus⟩ := hfits.status _ (hmine ▸ List.mem_singleton.mpr rfl)
    obtain rfl : status = .queued := by simpa using hallowed
    have hnow : statusOf (writeRun run (startedRun m run) t) run.id = some .running := by
      rw [statusOf_writeRun hne, if_pos rfl, hstatus]
      rfl
    have hshaped' : Shaped (writeRun run (startedRun m run) t)
        (.scanning (some job) library options (startedRun m run) .opened) := by
      refine ⟨rfl, ?_⟩
      rintro j ⟨⟩
      exact hid
    have hclaims := claims_scanning hshaped'
    show Effect t _ (.scanning (some job) library options (startedRun m run) .opened)
      (writeRun run (startedRun m run) t)
    refine Effect.writes (libraries_writeRun ..) ⟨hshaped', ?_, ?_⟩ ?_ ?_ ?_ ?_
    · rw [hclaims]
      intro claim hclaim
      obtain rfl := List.mem_singleton.mp hclaim
      exact ⟨.running, List.mem_singleton.mpr rfl, hnow⟩
    · rw [claimed, hclaims]
      exact List.nodup_singleton _
    · rw [claimed, claimed, hclaims, hmine]
      exact fun _ h => h
    · intro id hfresh
      rw [statusOf_writeRun hne, if_neg]
      rintro rfl
      rw [claimed, hmine] at hfresh
      exact hfresh (List.mem_singleton.mpr rfl)
    · intro claim hclaim status hst hactive
      rw [hmine, List.mem_singleton] at hclaim
      subst hclaim
      rw [hstatus] at hst
      cases hst
      cases hactive
    · intro j id hjob howes
      cases hjob
      obtain rfl : run.id = id := Option.some.inj (hid.symm.trans howes)
      exact .inl ⟨rfl, hid, hstatus, hnow⟩

theorem effect_waiting {m : Moment} {job : Job} (hfits : Fits t (.waiting job)) :
    Effect t (.waiting job) (advance m t (.waiting job)).1 (advance m t (.waiting job)).2 := by
  obtain ⟨hsome, hlibrary⟩ := hfits.shaped
  obtain ⟨id, hid⟩ := Option.isSome_iff_exists.mp hsome
  obtain ⟨library, hlibrary⟩ := Option.isSome_iff_exists.mp hlibrary
  have hmine : claims (.waiting job) = [(id, [.queued])] := by simp [claims, hid]
  obtain ⟨status, hallowed, hstatus⟩ := hfits.status _ (hmine ▸ List.mem_singleton.mpr rfl)
  obtain rfl : status = .queued := by simpa using hallowed
  obtain ⟨run, hfind, hqueued⟩ := Option.map_eq_some_iff.mp hstatus
  have hrun : run.id = id := (Table.mem_of_find? hfind).2
  have hstep : advance m t (.waiting job) =
      (.starting (some job) library job.body.options (some run), t) := by
    have hbind : job.runId.bind t.scanRuns.find? = some run := by
      rw [hid]
      exact hfind
    simp only [advance, hlibrary, hbind, hqueued, if_true]
  rw [hstep]
  refine Effect.quiet hfits rfl ⟨run, rfl, hqueued, hrun ▸ hid⟩ (fun claim hclaim => hclaim)
    hfits.distinct ?_
  rintro j id' ⟨⟩ howes
  exact ⟨rfl, howes⟩

theorem effect_enqueuing {m : Moment} {ask : Ask} {runs : List ScanRun}
    {refused : List (ScanRun × ScanRun)} (hfits : Fits t (.enqueuing ask runs refused)) :
    Effect t (.enqueuing ask runs refused) (advance m t (.enqueuing ask runs refused)).1
      (advance m t (.enqueuing ask runs refused)).2 := by
  obtain ⟨hruns, hrefused⟩ := hfits.shaped
  cases runs with
  | nil =>
    have hclaimed : claimed (.enqueuing ask [] refused) = refused.map (·.1.id) := by
      simp [claimed, claims, Function.comp_def]
    have hnow := statusOf_writeRuns hrefused t
    refine Effect.writes (libraries_writeRuns ..) ⟨trivial, (fun _ h => nomatch h), List.nodup_nil⟩
      (fun _ h => nomatch h) ?_ ?_ ?_
    · intro id hid
      rw [hclaimed] at hid
      exact (hnow id).trans (if_neg hid)
    · intro claim hclaim status hstatus hactive
      obtain ⟨allowed, hallowed, hst⟩ := hfits.status claim hclaim
      obtain rfl : status = allowed := Option.some.inj (hstatus.symm.trans hst)
      have hid : claim.1 ∈ refused.map (·.1.id) := hclaimed ▸ List.mem_map_of_mem hclaim
      obtain ⟨id, -, rfl⟩ := List.mem_map.mp hclaim
      -- a run of this party that is over has been given up
      rcases (by simpa using hallowed : status = .queued ∨ status = .failed) with rfl | rfl
      · cases hactive
      · refine (hnow _).trans ?_
        rw [if_pos hid, hstatus]
        rfl
    · intro j id hjob
      cases hjob
  | cons run rest =>
    have hperm : (rest.map (·.id) ++ (refused ++ [(run, refusedRun m ask run)]).map (·.1.id)).Perm
        ((run :: rest).map (·.id) ++ refused.map (·.1.id)) := by
      rw [List.map_append, ← List.append_assoc]
      exact List.perm_append_singleton ..
    refine Effect.quiet hfits rfl ⟨fun r hr => hruns r (List.mem_cons_of_mem _ hr), ?_⟩ ?_ ?_ ?_
    · intro change hchange
      rcases List.mem_append.mp hchange with hold | hnew
      · exact hrefused change hold
      · obtain rfl := List.mem_singleton.mp hnew
        refine ⟨?_, rfl⟩
        rw [(hruns run (List.mem_cons_self ..)).1]
        rfl
    · intro claim hclaim
      exact (hperm.map _).mem_iff.mp hclaim
    · exact ((hperm.map _).map _).nodup_iff.mpr hfits.distinct
    · intro j id hjob
      cases hjob

theorem effect_asking {m : Moment} {ask : Ask} {libraries : List String} {created : List ScanRun}
    (hfits : Fits t (.asking ask libraries created)) :
    Effect t (.asking ask libraries created) (advance m t (.asking ask libraries created)).1
      (advance m t (.asking ask libraries created)).2 := by
  have hcreated : ∀ run ∈ created, run.status = .queued ∧
    (t.libraries.find? run.libraryId).isSome = true := hfits.shaped
  cases libraries with
  | nil =>
    cases hinsert : insertRuns created t with
    | none =>
      simp only [advance, hinsert]
      exact Effect.idle hfits rfl trivial rfl rfl
    | some t' =>
      have hlibraries := libraries_insertRuns hinsert
      simp only [advance, hinsert]
      refine Effect.makes hinsert hlibraries ⟨?_, List.forall_mem_nil _⟩ ?_ ?_ rfl
      · rw [hlibraries]
        exact hcreated
      · simp [claimed, claims, Function.comp_def]
      · intro claim hclaim
        obtain ⟨id, hid, rfl⟩ := List.mem_map.mp hclaim
        obtain ⟨run, hrun, rfl⟩ := List.mem_map.mp (by simpa using hid)
        refine ⟨run, hrun, rfl, ?_⟩
        rw [(hcreated run hrun).1]
        exact List.mem_cons_self ..
  | cons libraryId rest =>
    by_cases hfree : isFree m t libraryId = true
    · simp only [advance, hfree, if_true]
      refine Effect.idle hfits rfl ?_ rfl rfl
      intro run hrun
      rcases List.mem_append.mp hrun with hold | hnew
      · exact hcreated run hold
      · obtain rfl := List.mem_singleton.mp hnew
        refine ⟨rfl, ?_⟩
        rw [isFree, Bool.and_eq_true, Bool.and_eq_true] at hfree
        exact hfree.1.1
    · simp only [advance, hfree]
      exact Effect.idle hfits rfl hcreated rfl rfl

theorem effect_freeing {m : Moment} {stuck : List (ScanRun × ScanRun)}
    (hfits : Fits t (.freeing stuck))
    (hopen : ∀ change ∈ stuck, statusOf t change.1.id ≠ some .completed) :
    Effect t (.freeing stuck) (advance m t (.freeing stuck)).1
      (advance m t (.freeing stuck)).2 := by
  have hnow := statusOf_writeRuns hfits.shaped t
  exact {
    libraries := libraries_writeRuns ..
    fits := ⟨trivial, (fun _ h => nomatch h), List.nodup_nil⟩
    origin := fun _ h => nomatch h
    others := by
      intro id status hstatus _
      by_cases hid : id ∈ stuck.map (·.1.id)
      · refine .inr ⟨(hnow id).trans ?_, hid⟩
        rw [if_pos hid, hstatus]
        rfl
      · exact .inl (((hnow id).trans (if_neg hid)).trans hstatus)
    settled := by
      intro id status hstatus hactive
      by_cases hid : id ∈ stuck.map (·.1.id)
      · refine (hnow id).trans ?_
        rw [if_pos hid, hstatus]
        obtain ⟨change, hchange, rfl⟩ := List.mem_map.mp hid
        have hne := hopen change hchange
        rw [hstatus] at hne
        cases status with
        | queued => cases hactive
        | running => cases hactive
        | completed => exact absurd rfl hne
        | failed => rfl
      · exact ((hnow id).trans (if_neg hid)).trans hstatus
    duty := fun _ _ h => nomatch h }

theorem effect_reads {m : Moment} (hfits : Fits t party) (hsame : (advance m t party).2 = t)
    (hshaped : Shaped t (advance m t party).1) (hclaims : claims (advance m t party).1 = [])
    (howes : owes party = none) :
    Effect t party (advance m t party).1 (advance m t party).2 := by
  rw [hsame]
  exact Effect.idle hfits rfl hshaped hclaims howes

theorem advance_effect {s : System} {m : Moment} {p : Nat} (hfits : Fits s.tables (s.parties p))
    (hunspoilt : Unspoilt s m (s.parties p)) :
    Effect s.tables (s.parties p) (advance m s.tables (s.parties p)).1
      (advance m s.tables (s.parties p)).2 := by
  cases hparty : s.parties p with
  | listing body => exact effect_reads (hparty ▸ hfits) rfl (fun _ h => nomatch h) rfl rfl
  | asking ask libraries created => exact effect_asking (hparty ▸ hfits)
  | enqueuing ask runs refused => exact effect_enqueuing (hparty ▸ hfits)
  | askingNow libraryId body =>
    rw [hparty] at hfits
    cases hlibrary : s.tables.libraries.find? libraryId with
    | none =>
      simp only [advance, hlibrary]
      exact Effect.idle hfits rfl trivial rfl rfl
    | some library =>
      cases hfree : isFree m s.tables libraryId with
      | false =>
        simp only [advance, hlibrary, hfree]
        exact Effect.idle hfits rfl trivial rfl rfl
      | true =>
        simp only [advance, hlibrary, hfree]
        exact Effect.idle hfits rfl rfl rfl rfl
  | fetching libraryId body =>
    rw [hparty] at hfits
    cases hlibrary : s.tables.libraries.find? libraryId with
    | none =>
      simp only [advance, hlibrary]
      exact Effect.idle hfits rfl trivial rfl rfl
    | some library =>
      simp only [advance, hlibrary]
      exact Effect.idle hfits rfl rfl rfl rfl
  | waiting job => exact effect_waiting (hparty ▸ hfits)
  | starting job library options queued => exact effect_start (hparty ▸ hfits)
  | scanning job library options run phase =>
    rw [hparty] at hfits hunspoilt
    refine effect_scanTurn hfits ?_ ?_
    · rintro context counts file rest hjob rfl
      obtain ⟨j, rfl⟩ := Option.ne_none_iff_exists'.mp hjob
      exact hunspoilt
    · rintro counts rfl rfl
      exact hunspoilt
  | resetting libraryId =>
    refine effect_reads (hparty ▸ hfits) rfl ?_ rfl rfl
    intro change hchange
    obtain ⟨run, hrun, rfl⟩ := List.mem_map.mp hchange
    have hactive := (List.mem_filter.mp hrun).2
    rw [Bool.and_eq_true] at hactive
    exact ⟨hactive.2, rfl⟩
  | reaping =>
    refine effect_reads (hparty ▸ hfits) rfl ?_ rfl rfl
    intro change hchange
    obtain ⟨run, hrun, rfl⟩ := List.mem_map.mp hchange
    have hstale := (List.mem_filter.mp hrun).2
    rw [isStale, Bool.and_eq_true] at hstale
    exact ⟨hstale.1, rfl⟩
  | freeing stuck =>
    rw [hparty] at hfits hunspoilt
    exact effect_freeing hfits fun change hchange => (hunspoilt change hchange).1
  | ended => exact effect_reads (hparty ▸ hfits) rfl trivial rfl rfl

end Effects

/-! ### The system -/

/-- The step is as the life of the runs needs it: a job that the queue takes knows its run,
    which is still queued; nobody dies who has still to bring a run to its end; and the writes
    that do not ask find the runs as they expect them. -/
def Expected (s : System) : Step → Prop
  | .call _ _ => True
  | .turn p m => Unspoilt s m (s.parties p)
  | .enqueue p slot => match s.parties p with
    | .enqueuing ask (run :: _) _ => (s.parties slot).isEnded = true →
        ask.carriesId = true ∧ statusOf s.tables run.id = some .queued
    | _ => True
  | .die p => owes (s.parties p) = none

/-- The parties are about different runs. -/
structure Sound (s : System) : Prop where
  fits : ∀ p, Fits s.tables (s.parties p)
  apart : ∀ p q id, id ∈ claimed (s.parties p) → id ∈ claimed (s.parties q) → p = q

/-- A run that is over keeps its status. -/
def Lasting (s : System) (step : Step) : Prop :=
  ∀ id status, statusOf s.tables id = some status → ScanStatus.active status = false →
    statusOf (next s step).tables id = some status

/-- A step of the job takes the run from one status to another. -/
def Moves (s : System) (step : Step) (job : Job) (id : String) (before after : ScanStatus) : Prop :=
  ∃ p m, step = .turn p m ∧ (s.parties p).job = some job ∧ statusOf s.tables id = some before ∧
    statusOf (next s step).tables id = some after

/-- A party does the job, which has still to bring the run to its end. -/
def Busy (s : System) (job : Job) (id : String) : Prop :=
  ∃ p, (s.parties p).job = some job ∧ owes (s.parties p) = some id

section Systems

variable {s : System} {step : Step}

theorem sound_atRest (t : Tables) : Sound (atRest t) where
  fits _ := ⟨trivial, (fun _ h => nomatch h), List.nodup_nil⟩
  apart _ _ _ h := nomatch h

theorem shaped_congr {t t' : Tables} (h : t'.libraries = t.libraries) {party : Party}
    (hshaped : Shaped t party) : Shaped t' party := by
  cases party <;> simp only [Shaped, h] at hshaped ⊢ <;> exact hshaped

theorem claim_owed {party : Party} {claim : String × List ScanStatus} (h : claim ∈ claims party) :
    .failed ∈ claim.2 ∨ owes party = some claim.1 := by
  cases party with
  | enqueuing ask runs refused =>
    obtain ⟨id, -, rfl⟩ := List.mem_map.mp h
    exact .inl (by simp)
  | waiting job =>
    obtain ⟨id, hid, rfl⟩ := List.mem_map.mp h
    exact .inr (Option.mem_toList.mp hid)
  | starting job library options queued =>
    cases job with
    | none => cases h
    | some job =>
      obtain ⟨id, hid, rfl⟩ := List.mem_map.mp h
      exact .inr (Option.mem_toList.mp hid)
  | scanning job library options run phase =>
    cases hphase : unrecorded phase with
    | false => cases job <;> simp [claims, hphase] at h
    | true =>
      cases job with
      | none =>
        rw [claims, hphase, if_pos rfl, List.mem_singleton] at h
        subst h
        exact .inl (by simp)
      | some job =>
        rw [claims, hphase, if_pos rfl] at h
        obtain ⟨id, hid, rfl⟩ := List.mem_map.mp h
        refine .inr ?_
        rw [owes, hphase, if_pos rfl]
        exact Option.mem_toList.mp hid
  | _ => cases h

theorem owed_claimed {party : Party} {id : String} (h : owes party = some id) :
    id ∈ claimed party := by
  cases party with
  | waiting job => simp [claimed, claims, show job.runId = some id from h]
  | starting job library options queued =>
    cases job with
    | none => cases h
    | some job => simp [claimed, claims, show job.runId = some id from h]
  | scanning job library options run phase =>
    cases job with
    | none => cases h
    | some job =>
      cases hphase : unrecorded phase with
      | false => simp [owes, hphase] at h
      | true =>
        rw [owes, hphase, if_pos rfl] at h
        simp [claimed, claims, hphase, h]
  | _ => cases h

theorem freed_unowed {m : Moment} {party : Party} (h : Unspoilt s m party) {id : String}
    (hid : id ∈ freed party) (q : Nat) : owes (s.parties q) ≠ some id := by
  cases party with
  | freeing stuck =>
    obtain ⟨change, hchange, rfl⟩ := List.mem_map.mp hid
    exact (h change hchange).2 q
  | _ => cases hid

theorem Sound.elsewhere (hs : Sound s) {p q : Nat} {m : Moment}
    (hunspoilt : Unspoilt s m (s.parties p)) (hne : q ≠ p) {id : String}
    (hid : id ∈ claimed (s.parties q)) {status : ScanStatus}
    (hstatus : statusOf s.tables id = some status) :
    statusOf (next s (.turn p m)).tables id = some status ∨
      statusOf (next s (.turn p m)).tables id = some .failed ∧ owes (s.parties q) ≠ some id := by
  have hother : id ∉ claimed (s.parties p) := fun hp => hne (hs.apart q p id hid hp)
  rcases (advance_effect (hs.fits p) hunspoilt).others id status hstatus hother with
    hsame | ⟨hfailed, hfreed⟩
  · exact .inl hsame
  · exact .inr ⟨hfailed, freed_unowed hunspoilt hfreed q⟩

theorem Sound.turn (hs : Sound s) {p : Nat} {m : Moment}
    (hunspoilt : Unspoilt s m (s.parties p)) : Sound (next s (.turn p m)) := by
  have heffect := advance_effect (hs.fits p) hunspoilt
  -- what a party claims after the step is new, or it claimed it before
  have horigin : ∀ q id, id ∈ claimed ((next s (.turn p m)).parties q) →
      id ∈ claimed (s.parties q) ∨ q = p ∧ statusOf s.tables id = none := by
    intro q id hid
    by_cases hq : q = p
    · subst hq
      rw [turn_self] at hid
      exact (heffect.origin id hid).imp_right fun hnone => ⟨rfl, hnone⟩
    · rw [turn_other s m hq] at hid
      exact .inl hid
  constructor
  · intro q
    by_cases hq : q = p
    · subst hq
      rw [turn_self]
      exact heffect.fits
    · have hfits := hs.fits q
      rw [turn_other s m hq]
      refine ⟨shaped_congr heffect.libraries hfits.shaped, ?_, hfits.distinct⟩
      intro claim hclaim
      obtain ⟨status, hallowed, hstatus⟩ := hfits.status claim hclaim
      rcases hs.elsewhere hunspoilt hq (List.mem_map_of_mem hclaim) hstatus with
        hsame | ⟨hfailed, hunowed⟩
      · exact ⟨status, hallowed, hsame⟩
      · exact ⟨.failed, (claim_owed hclaim).resolve_right hunowed, hfailed⟩
  · -- a new run is nobody else's
    have hexists : ∀ q id, id ∈ claimed (s.parties q) → statusOf s.tables id ≠ none := by
      intro q id hid
      obtain ⟨claim, hclaim, rfl⟩ := List.mem_map.mp hid
      obtain ⟨status, -, hstatus⟩ := (hs.fits q).status claim hclaim
      rw [hstatus]
      exact Option.some_ne_none status
    intro q q' id hid hid'
    rcases horigin q id hid with hold | ⟨rfl, hnone⟩
    · rcases horigin q' id hid' with hold' | ⟨rfl, hnone⟩
      · exact hs.apart q q' id hold hold'
      · exact absurd hnone (hexists q id hold)
    · rcases horigin q' id hid' with hold' | ⟨rfl, -⟩
      · exact absurd hnone (hexists q' id hold')
      · rfl

theorem Sound.replace (hs : Sound s) {p : Nat} {party : Party} (hshaped : Shaped s.tables party)
    (hclaims : claims party = []) :
    Sound { s with parties := Function.update s.parties p party } := by
  have hclaimed : ∀ q id, id ∈ claimed (Function.update s.parties p party q) →
      id ∈ claimed (s.parties q) := by
    intro q id hid
    by_cases hq : q = p
    · subst hq
      rw [Function.update_self, claimed, hclaims] at hid
      cases hid
    · rwa [Function.update_of_ne hq] at hid
  constructor
  · intro q
    show Fits s.tables (Function.update s.parties p party q)
    by_cases hq : q = p
    · subst hq
      rw [Function.update_self]
      refine ⟨hshaped, ?_, ?_⟩
      · rw [hclaims]
        exact fun _ h => nomatch h
      · rw [claimed, hclaims]
        exact List.nodup_nil
    · rw [Function.update_of_ne hq]
      exact hs.fits q
  · exact fun q q' id hid hid' => hs.apart q q' id (hclaimed q id hid) (hclaimed q' id hid')

theorem Sound.enqueue (hs : Sound s) {p slot : Nat} (hexpected : Expected s (.enqueue p slot)) :
    Sound (next s (.enqueue p slot)) := by
  rcases enqueue_cases s p slot with hsame | ⟨ask, run, rest, refused, hparty, hended⟩
  · rw [hsame]
    exact hs
  obtain ⟨htables, hparties⟩ := enqueue_takes hparty hended
  have hfits := hs.fits p
  rw [hparty] at hfits
  simp only [Expected, hparty, hended, forall_const] at hexpected
  obtain ⟨hcarries, hqueued⟩ := hexpected
  have hjob : (ask.job run).runId = some run.id := if_pos hcarries
  have hmine : run.id ∈ claimed (s.parties p) := by
    rw [hparty]
    exact List.mem_cons_self ..
  -- the party is left with its other runs
  have hdistinct : claimed (.enqueuing ask (run :: rest) refused) =
      run.id :: claimed (.enqueuing ask rest refused) := rfl
  have hfresh := hfits.distinct
  rw [hdistinct, List.nodup_cons] at hfresh
  have horigin : ∀ q id, id ∈ claimed ((next s (.enqueue p slot)).parties q) →
      q = slot ∧ id = run.id ∨ id ∈ claimed (s.parties q) ∧ id ≠ run.id := by
    intro q id hid
    rw [hparties] at hid
    by_cases hslot : q = slot
    · rw [if_pos hslot] at hid
      refine .inl ⟨hslot, ?_⟩
      simpa [claimed, claims, hjob] using hid
    · rw [if_neg hslot] at hid
      refine .inr ?_
      by_cases hp : q = p
      · rw [if_pos hp] at hid
        rw [hp, hparty, hdistinct]
        exact ⟨List.mem_cons_of_mem _ hid, fun heq => hfresh.1 (heq ▸ hid)⟩
      · rw [if_neg hp] at hid
        exact ⟨hid, fun heq => hp (hs.apart q p run.id (heq ▸ hid) hmine)⟩
  constructor
  · intro q
    rw [htables, hparties]
    by_cases hslot : q = slot
    · rw [if_pos hslot]
      refine ⟨⟨by rw [hjob]; rfl, (hfits.shaped.1 run (List.mem_cons_self ..)).2⟩, ?_, ?_⟩
      · simp [claims, hjob, hqueued]
      · simp [claimed, claims, hjob]
    · rw [if_neg hslot]
      by_cases hp : q = p
      · rw [if_pos hp]
        exact ⟨⟨fun r hr => hfits.shaped.1 r (List.mem_cons_of_mem _ hr), hfits.shaped.2⟩,
          fun claim hclaim => hfits.status claim (List.mem_cons_of_mem _ hclaim), hfresh.2⟩
      · rw [if_neg hp]
        exact hs.fits q
  · intro q q' id hid hid'
    rcases horigin q id hid with ⟨rfl, rfl⟩ | ⟨hold, hne⟩
    · rcases horigin q' _ hid' with ⟨rfl, -⟩ | ⟨-, hne⟩
      · rfl
      · exact absurd rfl hne
    · rcases horigin q' id hid' with ⟨-, heq⟩ | ⟨hold', -⟩
      · exact absurd heq hne
      · exact hs.apart q q' id hold hold'

theorem Sound.next (hs : Sound s) (hexpected : Expected s step) : Sound (next s step) := by
  cases step with
  | call p request =>
    simp only [ScanParties.next]
    split
    · refine hs.replace ?_ ?_
      · cases request with
        | triggerScan libraryId body enqueue =>
          cases enqueue with
          | false => trivial
          | true => exact List.forall_mem_nil _
        | _ => trivial
      · cases request with
        | triggerScan libraryId body enqueue => cases enqueue <;> rfl
        | _ => rfl
    · exact hs
  | turn p m => exact hs.turn hexpected
  | enqueue p slot => exact hs.enqueue hexpected
  | die p => exact hs.replace trivial rfl

theorem Sound.lasting (hs : Sound s) (hexpected : Expected s step) : Lasting s step := by
  intro id status hstatus hover
  cases step with
  | turn p m => exact (advance_effect (hs.fits p) hexpected).settled id status hstatus hover
  | call p request =>
    simp only [ScanParties.next]
    split <;> exact hstatus
  | enqueue p slot =>
    rcases enqueue_cases s p slot with hsame | ⟨_, _, _, _, hparty, hended⟩
    · rwa [hsame]
    · rwa [(enqueue_takes hparty hended).1]
  | die p => exact hstatus

theorem Sound.busy_next (hs : Sound s) (hexpected : Expected s step) {job : Job} {id : String}
    (hbusy : Busy s job id) :
    (Busy (ScanParties.next s step) job id ∧
      (statusOf (ScanParties.next s step).tables id = statusOf s.tables id ∨
        Moves s step job id .queued .running)) ∨
    ∃ status, ScanStatus.active status = false ∧ Moves s step job id .running status := by
  obtain ⟨p, hjob, howes⟩ := hbusy
  have hlive : (s.parties p).isEnded = false := by
    cases hparty : s.parties p with
    | ended => rw [hparty] at hjob; cases hjob
    | _ => rfl
  cases step with
  | call q request =>
    refine .inl ⟨⟨p, ?_⟩, .inl ?_⟩
    · simp only [ScanParties.next]
      split
      · next hended =>
        have hne : p ≠ q := by
          rintro rfl
          rw [hlive] at hended
          cases hended
        simp only [Function.update_of_ne hne]
        exact ⟨hjob, howes⟩
      · exact ⟨hjob, howes⟩
    · simp only [ScanParties.next]
      split <;> rfl
  | turn q m =>
    by_cases hq : q = p
    · subst hq
      rcases (advance_effect (hs.fits q) hexpected).duty job id hjob howes with
        ⟨hjob', howes', hsame | ⟨hqueued, hrunning⟩⟩ | ⟨hrunning, status, hover, hends⟩
      · refine .inl ⟨⟨q, ?_⟩, .inl hsame⟩
        rw [turn_self]
        exact ⟨hjob', howes'⟩
      · refine .inl ⟨⟨q, ?_⟩, .inr ⟨q, m, rfl, hjob, hqueued, hrunning⟩⟩
        rw [turn_self]
        exact ⟨hjob', howes'⟩
      · exact .inr ⟨status, hover, q, m, rfl, hjob, hrunning, hends⟩
    · have hne : p ≠ q := fun heq => hq heq.symm
      have hclaimed := owed_claimed howes
      obtain ⟨claim, hclaim, rfl⟩ := List.mem_map.mp hclaimed
      obtain ⟨status, -, hstatus⟩ := (hs.fits p).status claim hclaim
      refine .inl ⟨⟨p, ?_⟩, .inl ?_⟩
      · rw [turn_other s m hne]
        exact ⟨hjob, howes⟩
      · rcases hs.elsewhere hexpected hne hclaimed hstatus with hsame | ⟨-, hunowed⟩
        · exact hsame.trans hstatus.symm
        · exact absurd howes hunowed
  | enqueue q slot =>
    rcases enqueue_cases s q slot with hsame | ⟨ask, run, rest, refused, hparty, hended⟩
    · rw [hsame]
      exact .inl ⟨⟨p, hjob, howes⟩, .inl rfl⟩
    · obtain ⟨htables, hparties⟩ := enqueue_takes hparty hended
      have hslot : p ≠ slot := by
        rintro rfl
        rw [hlive] at hended
        cases hended
      have hasks : p ≠ q := by
        rintro rfl
        rw [hparty] at hjob
        cases hjob
      refine .inl ⟨⟨p, ?_⟩, .inl (by rw [htables])⟩
      rw [hparties, if_neg hslot, if_neg hasks]
      exact ⟨hjob, howes⟩
  | die q =>
    have hne : p ≠ q := by
      rintro rfl
      rw [show owes (s.parties p) = none from hexpected] at howes
      cases howes
    refine .inl ⟨⟨p, ?_⟩, .inl rfl⟩
    simp only [ScanParties.next, Function.update_of_ne hne]
    exact ⟨hjob, howes⟩

end Systems

/-! ### Runs -/

/-- The queue takes the job of a queued run. -/
def Takes (s : System) (step : Step) (run : ScanRun) (job : Job) : Prop :=
  ∃ p slot ask rest refused, step = .enqueue p slot ∧
    s.parties p = .enqueuing ask (run :: rest) refused ∧ (s.parties slot).isEnded = true ∧
      job = ask.job run

/-- The job starts the run in one of the steps. -/
def Started (s : System) (steps : List Step) (job : Job) (id : String) : Prop :=
  ∃ before start after, steps = before ++ start :: after ∧
    Moves (final next s before) start job id .queued .running

/-- The job starts the run, and brings it to its end later. -/
def Finished (s : System) (steps : List Step) (job : Job) (id : String) : Prop :=
  ∃ before finish after status, steps = before ++ finish :: after ∧ Started s before job id ∧
    ScanStatus.active status = false ∧ Moves (final next s before) finish job id .running status

/-- A job that the queue takes brings its run to its end, once nobody has it to do any more. -/
def Served (t : Tables) (steps : List Step) : Prop :=
  ∀ before step after run job, steps = before ++ step :: after →
    Takes (final next (atRest t) before) step run job →
    (∀ p, ((final next (atRest t) steps).parties p).job ≠ some job) →
      Finished (final next (atRest t) (before ++ [step])) after job run.id

section Runs

variable {s : System} {job : Job} {id : String}

theorem Started.append {steps : List Step} (h : Started s steps job id) (more : List Step) :
    Started s (steps ++ more) job id := by
  obtain ⟨before, start, after, rfl, hmoves⟩ := h
  exact ⟨before, start, after ++ more, by simp, hmoves⟩

theorem Finished.append {steps : List Step} (h : Finished s steps job id) (more : List Step) :
    Finished s (steps ++ more) job id := by
  obtain ⟨before, finish, after, status, rfl, hrest⟩ := h
  exact ⟨before, finish, after ++ more, status, by simp, hrest⟩

/-- How far a job has come. -/
def Underway (s : System) (steps : List Step) (job : Job) (id : String) : Prop :=
  Busy (final next s steps) job id ∧
    (statusOf (final next s steps).tables id = some .queued ∨
      statusOf (final next s steps).tables id = some .running ∧ Started s steps job id)

theorem underway_or_finished (hs : Sound s) (hbusy : Busy s job id)
    (hqueued : statusOf s.tables id = some .queued) (steps : List Step)
    (hexpected : Throughout next Expected s steps) :
    Sound (final next s steps) ∧ (Underway s steps job id ∨ Finished s steps job id) := by
  induction steps using List.reverseRecOn with
  | nil => exact ⟨hs, .inl ⟨hbusy, .inl hqueued⟩⟩
  | append_singleton steps step ih =>
    rw [throughout_append] at hexpected
    obtain ⟨hsteps, hstep, -⟩ := hexpected
    obtain ⟨hsound, hstage⟩ := ih hsteps
    have hfinal : final next s (steps ++ [step]) = next (final next s steps) step := by
      rw [final_append]
      rfl
    refine ⟨hfinal ▸ hsound.next hstep, ?_⟩
    rcases hstage with ⟨hbusy', hstatus⟩ | hfinished
    · rcases hsound.busy_next hstep hbusy' with ⟨hgoes, hsame | hstarts⟩ | ⟨status, hover, hends⟩
      · refine .inl ⟨hfinal ▸ hgoes, ?_⟩
        rw [hfinal, hsame]
        exact hstatus.imp_right fun h => ⟨h.1, h.2.append [step]⟩
      · refine .inl ⟨hfinal ▸ hgoes, .inr ⟨?_, steps, step, [], rfl, hstarts⟩⟩
        obtain ⟨_, _, _, _, _, hrunning⟩ := hstarts
        rw [hfinal]
        exact hrunning
      · -- only a run that was started can be ended
        have hrunning : statusOf (final next s steps).tables id = some .running := by
          obtain ⟨_, _, _, _, hrunning, _⟩ := hends
          exact hrunning
        refine .inr ⟨steps, step, [], status, rfl, ?_, hover, hends⟩
        rcases hstatus with hstatus | ⟨-, hstarted⟩
        · rw [hrunning] at hstatus
          cases hstatus
        · exact hstarted
    · exact .inr (hfinished.append [step])

theorem busy_of_takes {step : Step} {run : ScanRun} (h : Takes s step run job)
    (hexpected : Expected s step) :
    Busy (next s step) job run.id ∧ statusOf (next s step).tables run.id = some .queued := by
  obtain ⟨p, slot, ask, rest, refused, rfl, hparty, hended, rfl⟩ := h
  simp only [Expected, hparty, hended, forall_const] at hexpected
  obtain ⟨htables, hparties⟩ := enqueue_takes hparty hended
  refine ⟨⟨slot, ?_⟩, ?_⟩
  · rw [hparties, if_pos rfl]
    exact ⟨rfl, if_pos hexpected.1⟩
  · rw [htables]
    exact hexpected.2

/-- **The life of a scan run.** In every run of the parties whose steps are as expected, no
    run that is over changes its status, and a job that the queue takes takes its run from
    queued to running and from there to its end; and every party comes to its end. -/
theorem served_and_lasting (t : Tables) (steps : List Step)
    (h : Throughout next Expected (atRest t) steps) :
    Served t steps ∧ Throughout next Lasting (atRest t) steps ∧
      ∀ p (m : Nat → Moment), ∃ n,
        ((final next (atRest t) (steps ++ turns p m n)).parties p).isEnded = true := by
  have hlasting : ∀ s step, Sound s → Expected s step → Lasting s step ∧ Sound (next s step) :=
    fun _ _ hs hexpected => ⟨hs.lasting hexpected, hs.next hexpected⟩
  refine ⟨?_, h.imp next hlasting (sound_atRest t), fun p m => ?_⟩
  swap
  · obtain ⟨n, hn⟩ := ends_by_turns p m (final next (atRest t) steps)
    exact ⟨n, by rw [final_append]; exact hn⟩
  rintro before step after run job rfl htakes hdone
  rw [throughout_append] at h
  obtain ⟨hbefore, hstep, hafter⟩ := h
  have hsound : Sound (final next (atRest t) before) :=
    hbefore.final next (fun _ _ hs hexpected => hs.next hexpected) (sound_atRest t)
  have hnext : final next (atRest t) (before ++ [step]) = next (final next (atRest t) before) step := by
    rw [final_append]
    rfl
  obtain ⟨hbusy, hqueued⟩ := busy_of_takes htakes hstep
  rw [hnext]
  have hend : final next (next (final next (atRest t) before) step) after =
      final next (atRest t) (before ++ step :: after) := by
    rw [final_append]
    rfl
  obtain ⟨-, ⟨⟨p, hjob, -⟩, -⟩ | hfinished⟩ :=
    underway_or_finished (hsound.next hstep) hbusy hqueued after hafter
  · rw [hend] at hjob
    exact absurd hjob (hdone p)
  · exact hfinished

end Runs

/-! ### One library -/

/-- The root of the library is an empty directory. -/
def emptyRoot (calls : Nat) : Moment where
  env := { oneFileEnv with walk := fun _ _ => [] }
  world := .start
  calls := calls
  enabled _ := true
  queueError := none

def oneLibrary : Tables :=
  { Tables.empty with libraries := ⟨[mediaLibrary], List.nodup_singleton _⟩ }

def fullScan : ScanTriggerRequest := ⟨"full", false⟩

/-- The job is done, from its first step to its last. -/
def jobDone : List Step :=
  [.turn 0 (emptyRoot 2), .turn 1 (emptyRoot 3), .turn 1 (emptyRoot 4), .turn 1 (emptyRoot 5),
    .turn 1 (emptyRoot 6), .turn 1 (emptyRoot 7), .turn 1 (emptyRoot 8), .turn 1 (emptyRoot 9)]

/-- A scan is triggered and its job is done. -/
def triggered : List Step :=
  [.call 0 (.triggerScan "l1" fullScan true), .turn 0 (emptyRoot 0), .turn 0 (emptyRoot 1)] ++
    .enqueue 0 1 :: jobDone

theorem served_and_lasting_triggered :
    statusOf (final next (atRest oneLibrary) triggered).tables "0" = some .completed ∧
      Served oneLibrary triggered ∧ Throughout next Lasting (atRest oneLibrary) triggered ∧
        ∀ p (m : Nat → Moment), ∃ n, ((final next (atRest oneLibrary)
          (triggered ++ turns p m n)).parties p).isEnded = true := by
  refine ⟨by decide, served_and_lasting oneLibrary triggered ?_⟩
  exact ⟨trivial, trivial, trivial, fun _ => ⟨rfl, rfl⟩, trivial, trivial, trivial, trivial, trivial,
    trivial, trivial, trivial, trivial⟩

/-- A scan is triggered and its job starts; then the library is reset; then the scan goes on. -/
def resetMeanwhile : List Step :=
  [.call 0 (.triggerScan "l1" fullScan true), .turn 0 (emptyRoot 0), .turn 0 (emptyRoot 1),
    .enqueue 0 1, .turn 1 (emptyRoot 2), .turn 1 (emptyRoot 3),
    .call 2 (.resetLibraryScans "l1"), .turn 2 (emptyRoot 4), .turn 2 (emptyRoot 5),
    .turn 1 (emptyRoot 6), .turn 1 (emptyRoot 7)]

theorem failed_then_completed :
    statusOf (final next (atRest oneLibrary) resetMeanwhile).tables "0" = some .failed ∧
      statusOf (next (final next (atRest oneLibrary) resetMeanwhile) (.turn 1 (emptyRoot 8))).tables
        "0" = some .completed := by
  decide

/-- All scans are triggered, up to where the queue takes the one job. -/
def allTriggered : List Step :=
  [.call 0 (.triggerScanAll fullScan), .turn 0 (emptyRoot 0), .turn 0 (emptyRoot 0),
    .turn 0 (emptyRoot 1)]

theorem never_started : ∀ s ∈ states next
    (final next (atRest oneLibrary) (allTriggered ++ [.enqueue 0 1])) jobDone,
      statusOf s.tables "0" = some .queued := by
  simp only [jobDone, states, List.forall_mem_cons]
  decide

/-- Neither holds of every order of steps. -/
theorem unserved_and_overwritten :
    (¬∀ t steps, Served t steps) ∧ ¬∀ t steps, Throughout next Lasting (atRest t) steps := by
  constructor
  · intro hserved
    have hends : ∀ p, (final next (atRest oneLibrary)
        (allTriggered ++ .enqueue 0 1 :: jobDone)).parties p = .ended := by
      intro p
      by_cases hp : p = 0 ∨ p = 1
      · rcases hp with rfl | rfl <;> rfl
      · refine final_invariant next (I := fun s => s.parties p = .ended) (fun step hstep s hs => ?_) rfl
        rw [party_of_not_who, hs]
        intro hwho
        have hall : ∀ step ∈ allTriggered ++ .enqueue 0 1 :: jobDone, ∀ q ∈ step.who,
          q = 0 ∨ q = 1 := by decide
        exact hp (hall step hstep p hwho)
    have htakes : Takes (final next (atRest oneLibrary) allTriggered) (.enqueue 0 1)
        (queuedRun (emptyRoot 0) "l1" fullScan)
        (Ask.job ⟨false, fullScan⟩ (queuedRun (emptyRoot 0) "l1" fullScan)) :=
      ⟨0, 1, ⟨false, fullScan⟩, [], [], rfl, rfl, rfl, rfl⟩
    obtain ⟨before, finish, after, status, heq, -, -, _, _, _, _, hrunning, _⟩ :=
      hserved oneLibrary _ allTriggered (.enqueue 0 1) jobDone _ _ rfl htakes fun p hjob => by
        rw [hends p] at hjob
        cases hjob
    have hqueued := never_started _ (mem_states next |>.mpr ⟨before, _, heq, rfl⟩)
    rw [show (queuedRun (emptyRoot 0) "l1" fullScan).id = "0" from rfl, hqueued] at hrunning
    cases hrunning
  · intro hlasting
    have hsteps := hlasting oneLibrary (resetMeanwhile ++ [.turn 1 (emptyRoot 8)])
    rw [throughout_append] at hsteps
    have hover := hsteps.2.1 "0" .failed failed_then_completed.1 rfl
    rw [failed_then_completed.2] at hover
    cases hover

end ScanRunLaw
