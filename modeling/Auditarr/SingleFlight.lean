/-
  Auditarr/SingleFlight.lean
  ==========================
  **One scan of a library at a time.**

  The endpoints refuse a library that has an active run, and say that the same library cannot
  be scanned twice at once.  They look for the run in one step and commit theirs in another,
  the scheduled job does not look at all, and a run that is given up, or completed and followed
  by its rules, leaves the library free while its scan goes on.

  Scans that overlap also disagree about the files: a scan takes the rows for orphans that
  another scan has touched since.  `single_flight` says which steps avoid all this.
-/
import Auditarr.ScanRunLaw
import Auditarr.ScanOrphans

namespace SingleFlight

open Effects Transactions KeyedTable RuleSchema Database RulesService Scanner Runs
open RulesFrame ScanFrame ScanIndex ScanOrphans ScanParties ScanRunLaw

/-! ### Who scans what -/

/-- The library whose scan a party executes. -/
def scans : Party → Option String
  | .starting _ library _ _ | .scanning _ library _ _ _ => some library.id
  | _ => none

/-- At most one scan of a library is executed. -/
def Alone (s : System) : Prop :=
  ∀ p q libraryId, scans (s.parties p) = some libraryId → scans (s.parties q) = some libraryId →
    p = q

/-- The libraries that a party scans, has a job on the queue for, or is to put one there for. -/
def takenUp : Party → List String
  | .enqueuing _ runs _ => runs.map ScanRun.libraryId
  | .waiting job => [job.libraryId]
  | .starting _ library _ _ | .scanning _ library _ _ _ => [library.id]
  | _ => []

/-- The libraries that a party takes up in its next step: an endpoint commits its runs or
    begins a scan itself, or the scheduled job begins one. -/
def takesUp (m : Moment) (t : Tables) : Party → List String
  | .asking _ [] created => created.map ScanRun.libraryId
  | .askingNow libraryId _ => if isFree m t libraryId then [libraryId] else []
  | .fetching libraryId _ => [libraryId]
  | _ => []

/-- Nobody takes up a library that another party has taken up. -/
def Unshared (s : System) : Step → Prop
  | .turn p m => ∀ libraryId ∈ takesUp m s.tables (s.parties p), ∀ q,
      libraryId ∉ takenUp (s.parties q)
  | _ => True

/-- An endpoint asks for each library once. -/
def Asks : Party → Prop
  | .asking _ libraries created => (created.map ScanRun.libraryId ++ libraries).Nodup
  | _ => True

/-- No library is taken up twice. -/
structure Apart (s : System) : Prop where
  distinct : ∀ p, (takenUp (s.parties p)).Nodup
  apart : ∀ p q libraryId, libraryId ∈ takenUp (s.parties p) →
    libraryId ∈ takenUp (s.parties q) → p = q
  asks : ∀ p, Asks (s.parties p)

/-! ### Files on disk -/

/-- There is a regular file at the path whenever it is the turn of a party. -/
def There (steps : List Step) (path : String) : Prop :=
  ∀ p m, Step.turn p m ∈ steps → fileAt m.env path = true

/-- No other run has touched the row since. -/
def Touched (runId : String) (row : MediaFile) : Prop :=
  ∀ scanId, row.lastScanId = some scanId → scanId = runId

/-- The files that a scan passes over in its next step. -/
def passedOver (m : Moment) (options : ScanOptions) (context : ScanContext) (counts : ScanCounts) :
    List Found → List Found
  | [] => []
  | file :: rest =>
      if exceeds options.maxFiles (counts.filesSeen + 1) then file :: rest
      else if context.dispositions (file.extension m.env.rt) = some .ignore then [file]
      else []

/-- The scan comes upon the files on disk that its library has rows for: its walk reaches them,
    and it passes over none that another run has touched. -/
def Thorough (m : Moment) (t : Tables) : Party → Prop
  | .scanning _ library options run .opened => ∀ files,
      enumerate m.env library.rootPath options.followSymlinks = .ok files →
        ∀ row ∈ t.media, row.libraryId = library.id → fileAt m.env row.path = true →
          Touched run.id row ∨ row.path ∈ files.map Found.str
  | .scanning _ library options run (.indexing context counts files) =>
      ∀ file ∈ passedOver m options context counts files, ∀ row ∈ t.media,
        row.path = file.str → row.libraryId = library.id → Touched run.id row
  | _ => True

/-- The scans come upon the files that are there. -/
def Reached (s : System) : Step → Prop
  | .turn p m => Thorough m s.tables (s.parties p)
  | _ => True

instance (runId : String) (row : MediaFile) : Decidable (Touched runId row) :=
  decidable_of_iff (row.lastScanId.all (fun scanId => scanId = runId) = true) (by
    rw [Option.all_eq_true]
    simp only [decide_eq_true_eq, Touched])

instance decidableOfOk {α ε : Type} {P : α → Prop} [∀ a, Decidable (P a)] :
    (outcome : Except ε α) → Decidable (∀ a, outcome = .ok a → P a)
  | .ok a => decidable_of_iff (P a) ⟨fun h b heq => Except.ok.inj heq ▸ h, fun h => h a rfl⟩
  | .error _ => isTrue (by
      intro a h
      cases h)

instance decidableThorough (m : Moment) (t : Tables) :
    (party : Party) → Decidable (Thorough m t party)
  | .scanning _ library options run .opened => inferInstanceAs (Decidable (∀ files,
      enumerate m.env library.rootPath options.followSymlinks = .ok files →
        ∀ row ∈ t.media.rows, row.libraryId = library.id → fileAt m.env row.path = true →
          Touched run.id row ∨ row.path ∈ files.map Found.str))
  | .scanning _ library options run (.indexing context counts files) => inferInstanceAs (Decidable
      (∀ file ∈ passedOver m options context counts files, ∀ row ∈ t.media.rows,
        row.path = file.str → row.libraryId = library.id → Touched run.id row))
  | .scanning _ _ _ _ (.sweeping _) | .scanning _ _ _ _ (.failing _) | .scanning _ _ _ _ .judging
  | .scanning _ _ _ _ (.judgingEach _ _) | .listing _ | .asking _ _ _ | .enqueuing _ _ _
  | .askingNow _ _ | .fetching _ _ | .waiting _ | .starting _ _ _ _ | .resetting _ | .reaping
  | .freeing _ | .ended => isTrue trivial

instance decidableReached (s : System) : (step : Step) → Decidable (Reached s step)
  | .turn p m => decidableThorough m s.tables (s.parties p)
  | .call _ _ | .enqueue _ _ | .die _ => isTrue trivial

/-- The rows of the library whose files are there, and which files the scan has before it. -/
def Accounted (present : String → Prop) (t : Tables) : Party → Prop
  | .scanning _ library _ run (.indexing context _ files) =>
      context.libraryId = library.id ∧ context.runId = run.id ∧
        (∃ before, context.dispositions = dispositionMap before) ∧
        ∀ row ∈ t.media, row.libraryId = library.id → present row.path →
          Touched run.id row ∨ row.path ∈ files.map Found.str
  | .scanning _ library _ run (.sweeping _) =>
      ∀ row ∈ t.media, row.libraryId = library.id → present row.path → Touched run.id row
  | _ => True

/-- No file that is there is an orphan, and no scan is about to make it one. -/
structure Unorphaned (present : String → Prop) (s : System) : Prop where
  rows : ∀ row ∈ s.tables.media, present row.path → row.isOrphaned = false
  accounted : ∀ p, Accounted present s.tables (s.parties p)

/-! ### Parties that do not scan -/

/-- A step of a party that leaves the files alone: its libraries were its own, or it takes them
    up, and a scan that it begins has opened nothing. -/
structure Plain (m : Moment) (t : Tables) (party party' : Party) (t' : Tables) : Prop where
  media : t'.media = t.media
  taken : (takenUp party').Sublist (takenUp party) ∨ (takenUp party').Sublist (takesUp m t party)
  asks : Asks party → Asks party'
  accounted : ∀ present, Accounted present t' party'

section Plain

variable {m : Moment} {t t' : Tables} {party : Party}

theorem Plain.ended (h : t'.media = t.media) : Plain m t party .ended t' where
  media := h
  taken := .inl (List.nil_sublist _)
  asks _ := trivial
  accounted _ := trivial

theorem Plain.begins {job : Option Job} {library : Library} {options : ScanOptions}
    {queued : Option ScanRun}
    (h : takenUp party = [library.id] ∨ takesUp m t party = [library.id]) :
    Plain m t party (.starting job library options queued) t where
  media := rfl
  taken := by
    rcases h with h | h
    · exact .inl (h ▸ List.Sublist.refl _)
    · exact .inr (h ▸ List.Sublist.refl _)
  asks _ := trivial
  accounted _ := trivial

theorem media_writeRun (loaded changed : ScanRun) (t : Tables) :
    (writeRun loaded changed t).media = t.media := by
  unfold writeRun
  split <;> rfl

theorem media_writeRuns (changes : List (ScanRun × ScanRun)) (t : Tables) :
    (writeRuns changes t).media = t.media := by
  induction changes generalizing t with
  | nil => rfl
  | cons change rest ih => exact (ih _).trans (media_writeRun ..)

theorem media_insertRuns {runs : List ScanRun} (h : insertRuns runs t = some t') :
    t'.media = t.media := by
  induction runs generalizing t with
  | nil => cases h; rfl
  | cons run rest ih =>
    unfold insertRuns at h
    split at h
    · cases h
    · exact (ih h : t'.media = (t.putScanRun run).media)

theorem plain_waiting (job : Job) :
    Plain m t (.waiting job) (advance m t (.waiting job)).1 (advance m t (.waiting job)).2 := by
  cases hfind : t.libraries.find? job.libraryId with
  | none =>
    simp only [advance, hfind]
    exact .ended rfl
  | some library =>
    have hid : library.id = job.libraryId := (Table.mem_of_find? hfind).2
    have htaken : takenUp (.waiting job) = [library.id] := by rw [hid]; rfl
    cases hrun : job.runId.bind t.scanRuns.find? with
    | none =>
      simp only [advance, hfind, hrun]
      exact .begins (.inl htaken)
    | some run =>
      by_cases hqueued : run.status = .queued
      · simp only [advance, hfind, hrun, hqueued, if_true]
        exact .begins (.inl htaken)
      · simp only [advance, hfind, hrun, hqueued, if_false]
        exact .ended rfl

theorem plain_asking (ask : Ask) (libraries : List String) (created : List ScanRun) :
    Plain m t (.asking ask libraries created) (advance m t (.asking ask libraries created)).1
      (advance m t (.asking ask libraries created)).2 := by
  cases libraries with
  | nil =>
    cases hinsert : insertRuns created t with
    | none =>
      simp only [advance, hinsert]
      exact .ended rfl
    | some t' =>
      simp only [advance, hinsert]
      exact ⟨media_insertRuns hinsert, .inr (List.Sublist.refl _), fun _ => trivial,
        fun _ => trivial⟩
  | cons libraryId rest =>
    by_cases hfree : isFree m t libraryId = true
    · simp only [advance, hfree, if_true]
      refine ⟨rfl, .inl (List.Sublist.refl _), ?_, fun _ => trivial⟩
      intro hasks
      simp only [Asks, List.map_append, List.map_cons, List.map_nil, List.append_assoc,
        List.cons_append, List.nil_append]
      exact hasks
    · simp only [advance, hfree]
      refine ⟨rfl, .inl (List.Sublist.refl _), ?_, fun _ => trivial⟩
      intro hasks
      have hnodup : (created.map ScanRun.libraryId ++ libraryId :: rest).Nodup := hasks
      exact hnodup.sublist ((List.sublist_cons_self _ _).append_left _)

theorem scanning_or_plain (m : Moment) (t : Tables) (party : Party) :
    (∃ job library options run phase, party = .scanning job library options run phase) ∨
      Plain m t party (advance m t party).1 (advance m t party).2 := by
  cases party with
  | listing body =>
    refine .inr ⟨rfl, .inl (List.nil_sublist _), ?_, fun _ => trivial⟩
    intro _
    simpa only [advance, Asks, List.map_nil, List.nil_append] using t.libraries.unique
  | asking ask libraries created => exact .inr (plain_asking ask libraries created)
  | enqueuing ask runs refused =>
    cases runs with
    | nil => exact .inr (.ended (media_writeRuns refused t))
    | cons run rest =>
      exact .inr ⟨rfl, .inl (List.sublist_cons_self _ _), fun _ => trivial, fun _ => trivial⟩
  | askingNow libraryId body =>
    right
    cases hfind : t.libraries.find? libraryId with
    | none =>
      simp only [advance, hfind]
      exact .ended rfl
    | some library =>
      have hid : library.id = libraryId := (Table.mem_of_find? hfind).2
      by_cases hfree : isFree m t libraryId = true
      · simp only [advance, hfind, hfree, if_true]
        refine .begins (.inr ?_)
        rw [takesUp, if_pos hfree, hid]
      · simp only [advance, hfind, hfree]
        exact .ended rfl
  | fetching libraryId body =>
    right
    cases hfind : t.libraries.find? libraryId with
    | none =>
      simp only [advance, hfind]
      exact .ended rfl
    | some library =>
      have hid : library.id = libraryId := (Table.mem_of_find? hfind).2
      simp only [advance, hfind]
      refine .begins (.inr ?_)
      rw [takesUp, hid]
  | waiting job => exact .inr (plain_waiting job)
  | starting job library options queued =>
    right
    cases queued with
    | none =>
      cases hinsert : insertRuns [newRun m library options] t with
      | none =>
        simp only [advance, hinsert]
        exact .ended rfl
      | some t' =>
        simp only [advance, hinsert]
        exact ⟨media_insertRuns hinsert, .inl (List.Sublist.refl _), fun _ => trivial,
          fun _ => trivial⟩
    | some run =>
      exact ⟨media_writeRun .., .inl (List.Sublist.refl _), fun _ => trivial, fun _ => trivial⟩
  | scanning job library options run phase => exact .inl ⟨job, library, options, run, phase, rfl⟩
  | freeing stuck => exact .inr (.ended (media_writeRuns stuck t))
  | resetting libraryId =>
    exact .inr ⟨rfl, .inl (List.Sublist.refl _), fun _ => trivial, fun _ => trivial⟩
  | reaping => exact .inr ⟨rfl, .inl (List.Sublist.refl _), fun _ => trivial, fun _ => trivial⟩
  | ended => exact .inr (.ended rfl)

theorem advance_tables {job : Option Job} {library : Library} {options : ScanOptions}
    {run : ScanRun} {phase : Phase} : (advance m t (.scanning job library options run phase)).2 =
    (scanTurn m library options run t phase).2 := by
  rcases hturn : scanTurn m library options run t phase with ⟨_ | phase', t'⟩
  · rw [advance_isOver hturn]
  · rw [advance_goesOn hturn]

theorem takenUp_advance (party : Party) :
    (takenUp (advance m t party).1).Sublist (takenUp party) ∨
      (takenUp (advance m t party).1).Sublist (takesUp m t party) := by
  rcases scanning_or_plain m t party with ⟨job, library, options, run, phase, rfl⟩ | hplain
  · left
    rcases hturn : scanTurn m library options run t phase with ⟨_ | phase', t'⟩
    · rw [advance_isOver hturn]
      exact List.nil_sublist _
    · rw [advance_goesOn hturn]
      exact List.Sublist.refl _
  · exact hplain.taken

theorem asks_advance (h : Asks party) : Asks (advance m t party).1 := by
  rcases scanning_or_plain m t party with ⟨job, library, options, run, phase, rfl⟩ | hplain
  · rcases hturn : scanTurn m library options run t phase with ⟨_ | phase', t'⟩
    · rw [advance_isOver hturn]
      exact trivial
    · rw [advance_goesOn hturn]
      exact trivial
  · exact hplain.asks h

end Plain

/-! ### No library is taken up twice -/

section Apartness

variable {s : System} {m : Moment} {t : Tables}

theorem mem_takenUp {party : Party} {libraryId : String} (h : scans party = some libraryId) :
    libraryId ∈ takenUp party := by
  cases party with
  | starting job library options queued =>
    cases h
    exact List.mem_singleton_self _
  | scanning job library options run phase =>
    cases h
    exact List.mem_singleton_self _
  | _ => cases h

theorem Apart.alone (h : Apart s) : Alone s := by
  intro p q libraryId hp hq
  exact h.apart p q libraryId (mem_takenUp hp) (mem_takenUp hq)

theorem takenUp_request (request : Request) : takenUp request.party = [] := by
  cases request with
  | triggerScan libraryId body enqueue => cases enqueue <;> rfl
  | _ => rfl

theorem asks_request (request : Request) : Asks request.party := by
  cases request with
  | triggerScan libraryId body enqueue =>
    cases enqueue with
    | true => exact List.nodup_singleton _
    | false => exact trivial
  | _ => exact trivial

theorem takesUp_nodup {party : Party} (h : Asks party) : (takesUp m t party).Nodup := by
  cases party with
  | asking ask libraries created =>
    cases libraries with
    | nil =>
      rw [Asks, List.append_nil] at h
      exact h
    | cons libraryId rest => exact List.nodup_nil
  | askingNow libraryId body =>
    simp only [takesUp]
    split
    · exact List.nodup_singleton _
    · exact List.nodup_nil
  | fetching libraryId body => exact List.nodup_singleton _
  | _ => exact List.nodup_nil

theorem apart_atRest (t : Tables) : Apart (atRest t) where
  distinct _ := List.nodup_nil
  apart _ _ _ h := absurd h List.not_mem_nil
  asks _ := trivial

theorem Apart.replace (h : Apart s) {p : Nat} {party : Party} {t : Tables}
    (hdistinct : (takenUp party).Nodup) (hasks : Asks party)
    (hothers : ∀ libraryId ∈ takenUp party, ∀ q, q ≠ p → libraryId ∉ takenUp (s.parties q)) :
    Apart ⟨t, Function.update s.parties p party⟩ := by
  constructor
  · intro q
    by_cases hq : q = p
    · subst hq
      simpa only [Function.update_self] using hdistinct
    · simpa only [Function.update_of_ne hq] using h.distinct q
  · intro q q' libraryId hmem hmem'
    simp only at hmem hmem'
    by_cases hq : q = p
    · by_cases hq' : q' = p
      · rw [hq, hq']
      · rw [hq, Function.update_self] at hmem
        rw [Function.update_of_ne hq'] at hmem'
        exact absurd hmem' (hothers libraryId hmem q' hq')
    · rw [Function.update_of_ne hq] at hmem
      by_cases hq' : q' = p
      · rw [hq', Function.update_self] at hmem'
        exact absurd hmem (hothers libraryId hmem' q hq)
      · rw [Function.update_of_ne hq'] at hmem'
        exact h.apart q q' libraryId hmem hmem'
  · intro q
    by_cases hq : q = p
    · subst hq
      simpa only [Function.update_self] using hasks
    · simpa only [Function.update_of_ne hq] using h.asks q

theorem Apart.turn (h : Apart s) {p : Nat} (hunshared : Unshared s (.turn p m)) :
    Apart (next s (.turn p m)) := by
  apply h.replace
  · rcases takenUp_advance (s.parties p) with hkept | htaken
    · exact (h.distinct p).sublist hkept
    · exact (takesUp_nodup (h.asks p)).sublist htaken
  · exact asks_advance (h.asks p)
  · intro libraryId hmem q hq hother
    rcases takenUp_advance (s.parties p) with hkept | htaken
    · exact hq (h.apart q p libraryId hother (hkept.subset hmem))
    · exact hunshared libraryId (htaken.subset hmem) q hother

theorem Apart.enqueue (h : Apart s) (p slot : Nat) : Apart (next s (.enqueue p slot)) := by
  rcases enqueue_cases s p slot with hsame | ⟨ask, run, rest, refused, hparty, hended⟩
  · rw [hsame]
    exact h
  have hmine : (run.libraryId :: rest.map ScanRun.libraryId).Nodup := by
    have hdistinct := h.distinct p
    rw [hparty] at hdistinct
    exact hdistinct
  rw [List.nodup_cons] at hmine
  have hnext : next s (.enqueue p slot) = ⟨s.tables, Function.update (Function.update s.parties p
      (.enqueuing ask rest refused)) slot (.waiting (ask.job run))⟩ := by
    simp only [next, hparty, hended, if_true]
  have hothers : ∀ libraryId, libraryId = run.libraryId ∨ libraryId ∈ rest.map ScanRun.libraryId →
      ∀ q, q ≠ p → libraryId ∉ takenUp (s.parties q) := by
    intro libraryId hlibrary q hq hother
    apply hq
    apply h.apart q p libraryId hother
    rw [hparty]
    exact List.mem_cons.mpr hlibrary
  have hrest : Apart ⟨s.tables, Function.update s.parties p (.enqueuing ask rest refused)⟩ := by
    apply h.replace
    · exact hmine.2
    · exact trivial
    · intro libraryId hmem
      exact hothers libraryId (.inr hmem)
  rw [hnext]
  apply hrest.replace
  · exact List.nodup_singleton _
  · exact trivial
  · intro libraryId hmem q _ hother
    rw [show libraryId = run.libraryId from List.mem_singleton.mp hmem] at hother
    by_cases hq : q = p
    · subst hq
      simp only [Function.update_self] at hother
      exact hmine.1 hother
    · simp only [Function.update_of_ne hq] at hother
      exact hothers run.libraryId (.inl rfl) q hq hother

theorem Apart.next {step : Step} (h : Apart s) (hunshared : Unshared s step) :
    Apart (next s step) := by
  cases step with
  | call p request =>
    simp only [ScanParties.next]
    split
    · apply h.replace
      · rw [takenUp_request]
        exact List.nodup_nil
      · exact asks_request request
      · intro libraryId hmem
        rw [takenUp_request] at hmem
        exact absurd hmem List.not_mem_nil
    · exact h
  | turn p m => exact h.turn hunshared
  | enqueue p slot => exact h.enqueue p slot
  | die p => exact h.replace List.nodup_nil trivial fun _ hmem => absurd hmem List.not_mem_nil

end Apartness

/-! ### Rows -/

/-- The columns that decide what a sweep does to a row. -/
def place (row : MediaFile) : String × String × Option String × Bool :=
  (row.path, row.libraryId, row.lastScanId, row.isOrphaned)

/-- Each row is as it was, or of a new kind. -/
def Derived (New : MediaFile → Prop) (t t' : Tables) : Prop :=
  ∀ row ∈ t'.media, (∃ old ∈ t.media, place old = place row) ∨ New row

section Rows

variable {New : MediaFile → Prop} {t t' : Tables} {m : Moment}

theorem derived_of_media (h : t'.media = t.media) : Derived New t t' := by
  intro row hrow
  rw [h] at hrow
  exact .inl ⟨row, hrow, rfl⟩

theorem Derived.imp {New' : MediaFile → Prop} (h : Derived New t t')
    (himp : ∀ row, New row → New' row) : Derived New' t t' := by
  intro row hrow
  exact (h row hrow).imp_right (himp row)

theorem readsOnly_derived (t : Tables) : ReadsOnly (Derived New t) where
  elsewhere t' t'' hmedia _ h := by
    unfold Derived
    rw [hmedia]
    exact h

theorem kept_derived (t : Tables) : Kept (Derived (fun _ => False) t) where
  elsewhere := (readsOnly_derived t).elsewhere
  judge t' id severity h row hrow := by
    rw [Tables.setSeverity, Table.mem_update] at hrow
    rcases hrow with ⟨old, hold, rfl⟩
    have hplace := h old hold
    split
    · exact hplace
    · exact hplace
  delete foreignKeys t' id h row hrow := h row (Table.mem_erase.mp hrow).1

/-- A row that a run has written for a file. -/
def WrittenBy (context : ScanContext) (row : MediaFile) : Prop :=
  row.libraryId = context.libraryId ∧ row.lastScanId = some context.runId ∧ row.isOrphaned = false

theorem keptBy_derived (context : ScanContext) (t : Tables) :
    KeptBy (WrittenBy context) (Derived (WrittenBy context) t) where
  elsewhere := (readsOnly_derived t).elsewhere
  add t' t'' mf hmf hadd h row hrow := by
    rcases ((Tables.addMedia_eq_some hadd).1 row).mp hrow with hold | rfl
    · exact h row hold
    · exact .inr hmf
  refresh t' mf id hmf h row hrow := by
    rcases Tables.mem_updateMedia.mp hrow with ⟨old, hold, rfl⟩
    split
    · exact .inr hmf
    · exact h old hold

theorem derived_indexTurn {options : ScanOptions} {context : ScanContext} {counts : ScanCounts}
    {file : Found} {rest : List Found} {phase' : Option Phase}
    (h : indexTurn m options context counts file rest t = (phase', t')) :
    Derived (WrittenBy context) t t' := by
  apply upheld_indexTurn (keptBy_derived context t) _ h (derived_of_media rfl)
  intro mf disposition result hbuild id
  have hcolumns := (buildMediaFile_columns hbuild).1
  simp only [unprobedColumns, Prod.mk.injEq] at hcolumns
  rcases hcolumns with ⟨-, hlibrary, -, hscan, horphaned, -, -⟩
  exact ⟨hlibrary, hscan, horphaned⟩

end Rows

/-! ### One step and the files -/

section Turns

variable {present : String → Prop} {t t' : Tables} {m : Moment} {job : Option Job}
  {library : Library} {options : ScanOptions} {run : ScanRun} {phase : Phase}

theorem derived_scanTurn (h : Accounted present t (.scanning job library options run phase))
    (hphase : ∀ counts, phase ≠ .sweeping counts) :
    Derived (fun row => row.libraryId = library.id ∧ row.isOrphaned = false) t
      (scanTurn m library options run t phase).2 := by
  cases phase with
  | opened =>
    apply derived_of_media
    simp only [scanTurn]
    split <;> rfl
  | indexing context counts files =>
    cases files with
    | nil => exact derived_of_media rfl
    | cons file rest =>
      have hwritten : Derived (WrittenBy context) t
          (indexTurn m options context counts file rest t).2 := derived_indexTurn rfl
      apply hwritten.imp
      intro row hrow
      exact ⟨hrow.1.trans h.1, hrow.2.2⟩
  | sweeping counts => exact absurd rfl (hphase counts)
  | failing e => exact derived_of_media (media_writeRun ..)
  | judging =>
    apply derived_of_media
    simp only [scanTurn]
    split <;> rfl
  | judgingEach rules files =>
    cases files with
    | nil => exact upheld_trackRules (readsOnly_derived t) (derived_of_media rfl)
    | cons file rest =>
      have hjudged : Derived (fun _ => False) t (judgeTurn m rules file rest t).2 :=
        upheld_judgeTurn (kept_derived t) rfl (derived_of_media rfl)
      exact hjudged.imp fun row hrow => hrow.elim

theorem moved_advance {party : Party} (h : Accounted present t party) {row : MediaFile}
    (hrow : row ∈ (advance m t party).2.media) (hother : scans party ≠ some row.libraryId) :
    ∃ old ∈ t.media, old.path = row.path ∧ old.libraryId = row.libraryId ∧
      old.lastScanId = row.lastScanId := by
  rcases scanning_or_plain m t party with ⟨job, library, options, run, phase, rfl⟩ | hplain
  · rw [advance_tables] at hrow
    by_cases hphase : ∃ counts, phase = .sweeping counts
    · rcases hphase with ⟨counts, rfl⟩
      have hswept : row ∈ (markedOrphans library.id run.id t).media := by
        rw [← media_writeRun]
        exact hrow
      rcases Tables.mem_updateMedia.mp hswept with ⟨old, hold, rfl⟩
      refine ⟨old, hold, ?_⟩
      split <;> exact ⟨rfl, rfl, rfl⟩
    · rw [not_exists] at hphase
      rcases derived_scanTurn h hphase row hrow with ⟨old, hold, hplace⟩ | ⟨hlibrary, -⟩
      · simp only [place, Prod.mk.injEq] at hplace
        exact ⟨old, hold, hplace.1, hplace.2.1, hplace.2.2.1⟩
      · exact absurd (congrArg some hlibrary.symm) hother
  · rw [hplain.media] at hrow
    exact ⟨row, hrow, rfl, rfl, rfl⟩

theorem Accounted.elsewhere {party other : Party} (h : Accounted present t other)
    (hparty : Accounted present t party)
    (hothers : ∀ libraryId, scans other = some libraryId → scans party ≠ some libraryId) :
    Accounted present (advance m t party).2 other := by
  cases other with
  | scanning job library options run phase =>
    have hmoved : ∀ row ∈ (advance m t party).2.media, row.libraryId = library.id →
        ∃ old ∈ t.media, old.path = row.path ∧ old.libraryId = row.libraryId ∧
          old.lastScanId = row.lastScanId := by
      intro row hrow hlibrary
      apply moved_advance hparty hrow
      rw [hlibrary]
      exact hothers library.id rfl
    cases phase with
    | indexing context counts files =>
      refine ⟨h.1, h.2.1, h.2.2.1, ?_⟩
      intro row hrow hlibrary hpresent
      rcases hmoved row hrow hlibrary with ⟨old, hold, hpath, hsame, hscan⟩
      have hknown := h.2.2.2 old hold (hsame.trans hlibrary) (hpath ▸ hpresent)
      rw [Touched, hscan, hpath] at hknown
      exact hknown
    | sweeping counts =>
      intro row hrow hlibrary hpresent
      rcases hmoved row hrow hlibrary with ⟨old, hold, hpath, hsame, hscan⟩
      have hknown := h old hold (hsame.trans hlibrary) (hpath ▸ hpresent)
      rw [Touched, hscan] at hknown
      exact hknown
    | _ => exact trivial
  | _ => exact trivial

/-- A scan goes on from a file that it passes over, or that it has written the row of, or it
    stops at the cap. -/
theorem indexTurn_goesOn {context : ScanContext} {counts : ScanCounts} {file : Found}
    {rest : List Found} {phase' : Phase}
    (h : indexTurn m options context counts file rest t = (some phase', t')) :
    (∃ counts', phase' = .sweeping counts' ∧ t' = t ∧
        passedOver m options context counts (file :: rest) = file :: rest) ∨
      (∃ counts', phase' = .indexing context counts' rest ∧ t' = t ∧
        passedOver m options context counts (file :: rest) = [file]) ∨
      (∃ e, phase' = .failing e) ∨
      ∃ counts' counts'' s, phase' = .indexing context counts' rest ∧ t' = s.working ∧ s.Live ∧
        indexFile m.env context (context.dispositions (file.extension m.env.rt)) counts'' file
          (m.session t) = (.ok counts', s) := by
  unfold indexTurn at h
  simp only at h
  by_cases hcap : exceeds options.maxFiles (counts.filesSeen + 1) = true
  · rw [if_pos hcap] at h
    cases h
    exact .inl ⟨_, rfl, rfl, if_pos hcap⟩
  · rw [if_neg hcap] at h
    by_cases hignore : context.dispositions (file.extension m.env.rt) = some .ignore
    · rw [hignore] at h
      cases h
      refine .inr (.inl ⟨_, rfl, rfl, ?_⟩)
      rw [passedOver, if_neg hcap, if_pos hignore]
    · have hturn : proceed (onward context rest) (indexFile m.env context
          (context.dispositions (file.extension m.env.rt))
          { counts with filesSeen := counts.filesSeen + 1 } file (m.session t)) =
            (some phase', t') := by
        split at h
        · next hdisposition => exact absurd hdisposition hignore
        · exact h
      rcases hrun : indexFile m.env context (context.dispositions (file.extension m.env.rt))
        { counts with filesSeen := counts.filesSeen + 1 } file (m.session t) with ⟨e | counts', s⟩
      · rw [hrun] at hturn
        exact .inr (.inr (.inl ⟨e, (proceed_eq_some hturn).1⟩))
      · rw [hrun] at hturn
        have hlive : s.Live := by
          unfold proceed at hturn
          split at hturn
          · cases hturn
          · next hlive =>
            simp only [Bool.or_eq_true, not_or, Bool.not_eq_true] at hlive
            exact hlive
        rcases proceed_eq_some hturn with ⟨hphase, htables⟩
        exact .inr (.inr (.inr ⟨counts', _, s, hphase, htables, hlive, hrun⟩))

theorem row_indexFile {context : ScanContext} {counts counts' : ScanCounts} {file : Found}
    {s : Session Tables Outside} {before : Tables}
    (hdispositions : context.dispositions = dispositionMap before)
    (h : indexFile m.env context (context.dispositions (file.extension m.env.rt)) counts file
      (m.session t) = (.ok counts', s)) (hlive : s.Live) {row : MediaFile}
    (hrow : row ∈ s.working.media) :
    row.lastScanId = some context.runId ∨ row ∈ t.media ∧ row.path ≠ file.str := by
  -- the tables as they are, with the extension rules as they were loaded
  have hrules : context.dispositions =
      dispositionMap { t with extensionRules := before.extensionRules } := hdispositions
  have hstart : Working (Indexed m.env { t with extensionRules := before.extensionRules }
      context.libraryId context.runId []) (m.session t) :=
    ⟨trivial, fun _ => indexed_start rfl rfl rfl⟩
  have hindexed := (triple_indexFile counts hrules (m.session t) hstart).of_ok (congrArg Prod.fst h)
  rw [h] at hindexed
  rcases (hindexed.2.2 hlive).rows row hrow with ⟨written, -, hwritten⟩ | ⟨hold, hother⟩
  · exact .inl hwritten.columns.2.2.2.1
  · refine .inr ⟨hold, ?_⟩
    have hfile := hother file (by simp)
    exact hfile.symm

theorem accounted_scanTurn {phase' : Phase}
    (h : Accounted present t (.scanning job library options run phase))
    (hthorough : Thorough m t (.scanning job library options run phase))
    (hthere : ∀ path, present path → fileAt m.env path = true)
    (hturn : scanTurn m library options run t phase = (some phase', t')) :
    Accounted present t' (.scanning job library options run phase') := by
  cases phase with
  | opened =>
    simp only [scanTurn] at hturn
    split at hturn
    · cases hturn
      exact trivial
    · next files henumerate =>
      cases hturn
      refine ⟨rfl, rfl, ⟨t, rfl⟩, ?_⟩
      intro row hrow hlibrary hpresent
      exact hthorough files henumerate row hrow hlibrary (hthere row.path hpresent)
  | indexing context counts files =>
    rcases h with ⟨hcontext, hrun, ⟨before, hdispositions⟩, hknown⟩
    cases files with
    | nil =>
      cases hturn
      intro row hrow hlibrary hpresent
      rcases hknown row hrow hlibrary hpresent with htouched | hfile
      · exact htouched
      · exact absurd hfile List.not_mem_nil
    | cons file rest =>
      rcases indexTurn_goesOn hturn with ⟨counts', rfl, rfl, hpassed⟩ |
        ⟨counts', rfl, rfl, hpassed⟩ | ⟨e, rfl⟩ | ⟨counts', counts'', s, rfl, rfl, hlive, hindex⟩
      · intro row hrow hlibrary hpresent
        rcases hknown row hrow hlibrary hpresent with htouched | hfile
        · exact htouched
        · rcases List.mem_map.mp hfile with ⟨found, hfound, hpath⟩
          have hpassedOver : found ∈ passedOver m options context counts (file :: rest) := by
            rw [hpassed]
            exact hfound
          exact hthorough found hpassedOver row hrow hpath.symm hlibrary
      · refine ⟨hcontext, hrun, ⟨before, hdispositions⟩, ?_⟩
        intro row hrow hlibrary hpresent
        rcases hknown row hrow hlibrary hpresent with htouched | hfile
        · exact .inl htouched
        · rcases List.mem_cons.mp hfile with hpath | hrest
          · have hfile : file ∈ passedOver m options context counts (file :: rest) := by
              rw [hpassed]
              exact List.mem_singleton_self file
            exact .inl (hthorough file hfile row hrow hpath hlibrary)
          · exact .inr hrest
      · exact trivial
      · refine ⟨hcontext, hrun, ⟨before, hdispositions⟩, ?_⟩
        intro row hrow hlibrary hpresent
        rcases row_indexFile hdispositions hindex hlive hrow with hscan | ⟨hold, hother⟩
        · left
          intro scanId hscanId
          rw [hscan, hrun] at hscanId
          exact (Option.some.inj hscanId).symm
        · rcases hknown row hold hlibrary hpresent with htouched | hfile
          · exact .inl htouched
          · exact .inr ((List.mem_cons.mp hfile).resolve_left hother)
  | sweeping counts =>
    cases hturn
    exact trivial
  | failing e => cases hturn
  | judging =>
    simp only [scanTurn] at hturn
    split at hturn
    · cases hturn
      exact trivial
    · cases hturn
  | judgingEach rules files =>
    cases files with
    | nil => cases hturn
    | cons file rest =>
      have hrecorded := unrecorded_judgeTurn (show judgeTurn m rules file rest t = _ from hturn)
      cases phase' with
      | indexing context counts files => cases hrecorded
      | sweeping counts => cases hrecorded
      | _ => exact trivial

theorem rows_advance {party : Party} (h : Accounted present t party)
    (hrows : ∀ row ∈ t.media, present row.path → row.isOrphaned = false) :
    ∀ row ∈ (advance m t party).2.media, present row.path → row.isOrphaned = false := by
  intro row hrow hpresent
  rcases scanning_or_plain m t party with ⟨job, library, options, run, phase, rfl⟩ | hplain
  · rw [advance_tables] at hrow
    by_cases hphase : ∃ counts, phase = .sweeping counts
    · rcases hphase with ⟨counts, rfl⟩
      have hswept : row ∈ (markedOrphans library.id run.id t).media := by
        rw [← media_writeRun]
        exact hrow
      rcases Tables.mem_updateMedia.mp hswept with ⟨old, hold, rfl⟩
      by_cases huntouched : untouched library.id run.id old = true
      · -- the sweep takes rows that another run has touched, and this is none
        rw [if_pos huntouched] at hpresent
        simp only [untouched, Bool.and_eq_true, decide_eq_true_eq, Option.any_eq_true] at huntouched
        rcases huntouched with ⟨⟨hlibrary, scanId, hscan, hother⟩, -⟩
        exact absurd (h old hold hlibrary hpresent scanId hscan) hother
      · rw [if_neg huntouched] at hpresent ⊢
        exact hrows old hold hpresent
    · rw [not_exists] at hphase
      rcases derived_scanTurn h hphase row hrow with ⟨old, hold, hplace⟩ | ⟨-, horphaned⟩
      · simp only [place, Prod.mk.injEq] at hplace
        rw [← hplace.2.2.2]
        exact hrows old hold (hplace.1 ▸ hpresent)
      · exact horphaned
  · rw [hplain.media] at hrow
    exact hrows row hrow hpresent

theorem accounted_advance {party : Party} (h : Accounted present t party)
    (hthorough : Thorough m t party) (hthere : ∀ path, present path → fileAt m.env path = true) :
    Accounted present (advance m t party).2 (advance m t party).1 := by
  rcases scanning_or_plain m t party with ⟨job, library, options, run, phase, rfl⟩ | hplain
  · rcases hturn : scanTurn m library options run t phase with ⟨_ | phase', t'⟩
    · rw [advance_isOver hturn]
      exact trivial
    · rw [advance_goesOn hturn]
      exact accounted_scanTurn h hthorough hthere hturn
  · exact hplain.accounted present

end Turns

/-! ### Runs -/

section Runs

variable {present : String → Prop} {s : System} {step : Step}

theorem accounted_request (request : Request) : Accounted present s.tables request.party := by
  cases request with
  | triggerScan libraryId body enqueue => cases enqueue <;> exact trivial
  | _ => exact trivial

theorem Unorphaned.replace (h : Unorphaned present s) {p : Nat} {party : Party}
    (hparty : Accounted present s.tables party) :
    Unorphaned present { s with parties := Function.update s.parties p party } where
  rows := h.rows
  accounted := by
    intro q
    by_cases hq : q = p
    · subst hq
      simpa only [Function.update_self] using hparty
    · simpa only [Function.update_of_ne hq] using h.accounted q

theorem Unorphaned.next (h : Unorphaned present s) (halone : Alone s) (hreached : Reached s step)
    (hthere : ∀ p m, step = .turn p m → ∀ path, present path → fileAt m.env path = true) :
    Unorphaned present (next s step) := by
  cases step with
  | call p request =>
    simp only [ScanParties.next]
    split
    · exact h.replace (accounted_request request)
    · exact h
  | turn p m =>
    constructor
    · exact rows_advance (h.accounted p) h.rows
    · intro q
      by_cases hq : q = p
      · subst hq
        rw [turn_self]
        exact accounted_advance (h.accounted q) hreached (hthere q m rfl)
      · rw [turn_other s m hq]
        apply (h.accounted q).elsewhere (h.accounted p)
        intro libraryId hscans hscans'
        exact hq (halone q p libraryId hscans hscans')
  | enqueue p slot =>
    rcases enqueue_cases s p slot with hsame | ⟨ask, run, rest, refused, hparty, hended⟩
    · rw [hsame]
      exact h
    · have hrest : Unorphaned present { s with
          parties := Function.update s.parties p (.enqueuing ask rest refused) } :=
        h.replace trivial
      have hnext : next s (.enqueue p slot) = ⟨s.tables, Function.update (Function.update s.parties
          p (.enqueuing ask rest refused)) slot (.waiting (ask.job run))⟩ := by
        simp only [ScanParties.next, hparty, hended, if_true]
      rw [hnext]
      exact hrest.replace trivial
  | die p => exact h.replace trivial

theorem apart_along {t : Tables} {steps : List Step}
    (hrun : Throughout next Unshared (atRest t) steps) :
    ∀ s ∈ states next (atRest t) steps, Apart s := by
  intro s hs
  rcases (mem_states next).mp hs with ⟨before, after, rfl, rfl⟩
  rw [throughout_append] at hrun
  exact hrun.1.final next (fun s step h hstep => h.next hstep) (apart_atRest t)

theorem unorphaned_along {t : Tables} {steps : List Step}
    (hrun : Throughout next (fun s step => Unshared s step ∧ Reached s step) (atRest t) steps)
    (hthere : ∀ p m, Step.turn p m ∈ steps → ∀ path, present path → fileAt m.env path = true)
    (hstart : ∀ row ∈ t.media, present row.path → row.isOrphaned = false) :
    ∀ s ∈ states next (atRest t) steps, Unorphaned present s := by
  suffices hgen : ∀ (steps : List Step) (s : System),
      Throughout next (fun s step => Unshared s step ∧ Reached s step) s steps →
      (∀ p m, Step.turn p m ∈ steps → ∀ path, present path → fileAt m.env path = true) →
      Apart s → Unorphaned present s → ∀ s' ∈ states next s steps, Unorphaned present s' from
    hgen steps (atRest t) hrun hthere (apart_atRest t) ⟨hstart, fun _ => trivial⟩
  intro steps
  induction steps with
  | nil =>
    intro s _ _ _ h s' hs'
    rw [List.mem_singleton.mp hs']
    exact h
  | cons step rest ih =>
    intro s hrun hthere hapart h s' hs'
    rcases List.mem_cons.mp hs' with rfl | hrest
    · exact h
    · apply ih (next s step) hrun.2 _ (hapart.next hrun.1.1) _ s' hrest
      · intro p m hmem
        exact hthere p m (List.mem_cons_of_mem step hmem)
      · apply h.next hapart.alone hrun.1.2
        intro p m heq
        exact hthere p m (heq ▸ List.mem_cons_self)

/-- **One scan of a library at a time.**  If nobody takes up a library that another party has
    taken up, a library is never scanned twice at once; and if the scans come upon the files
    that are on disk, no file that is there throughout becomes an orphan. -/
theorem single_flight (t : Tables) (steps : List Step)
    (hrun : Throughout next Unshared (atRest t) steps) :
    (∀ s ∈ states next (atRest t) steps, Alone s) ∧
      (Throughout next Reached (atRest t) steps →
        (∀ row ∈ t.media, There steps row.path → row.isOrphaned = false) →
          ∀ s ∈ states next (atRest t) steps, ∀ row ∈ s.tables.media, There steps row.path →
            row.isOrphaned = false) := by
  constructor
  · intro s hs
    exact (apart_along hrun s hs).alone
  · intro hreached hstart s hs
    have hboth := (throughout_and next (atRest t) steps).mp ⟨hrun, hreached⟩
    have hthere : ∀ p m, Step.turn p m ∈ steps → ∀ path, There steps path →
        fileAt m.env path = true := by
      intro p m hmem path hpath
      exact hpath p m hmem
    exact (unorphaned_along hboth hthere hstart s hs).rows

end Runs

/-! ### One file -/

/-- The file is on disk. -/
def onDisk (calls : Nat) : Moment where
  env := oneFileEnv
  world := .start
  calls := calls
  enabled _ := true
  queueError := none

/-- Turns of parties, each with the calls before it. -/
def turnsOf (order : List (Nat × Nat)) : List Step :=
  order.map fun turn => .turn turn.1 (onDisk turn.2)

theorem fileAt_a_avi : fileAt oneFileEnv "/media/a.avi" = true := by
  decide

theorem there_turnsOf (order : List (Nat × Nat)) : There (turnsOf order) "/media/a.avi" := by
  intro p m hmem
  rcases List.mem_map.mp hmem with ⟨turn, -, heq⟩
  cases heq
  exact fileAt_a_avi

/-- The scheduled job, from its first step to its last. -/
def scannedOnce : List Step :=
  .call 0 (.runScanLibrary "l1" fullScan) ::
    turnsOf [(0, 0), (0, 1), (0, 2), (0, 3), (0, 4), (0, 5), (0, 6), (0, 7), (0, 8)]

theorem unshared_of_quiet {s : System} {p : Nat} {m : Moment}
    (h : takesUp m s.tables (s.parties p) = []) : Unshared s (.turn p m) := by
  intro libraryId hmem
  rw [h] at hmem
  exact absurd hmem List.not_mem_nil

theorem single_flight_once :
    (∀ s ∈ states next (atRest (scannedTables .accepted)) scannedOnce, Alone s) ∧
      ∀ s ∈ states next (atRest (scannedTables .accepted)) scannedOnce, ∀ row ∈ s.tables.media,
        There scannedOnce row.path → row.isOrphaned = false := by
  have hrun : Throughout next Unshared (atRest (scannedTables .accepted)) scannedOnce := by
    refine ⟨trivial, ?_, unshared_of_quiet (by decide +kernel), unshared_of_quiet (by decide +kernel),
      unshared_of_quiet (by decide +kernel), unshared_of_quiet (by decide +kernel),
      unshared_of_quiet (by decide +kernel), unshared_of_quiet (by decide +kernel),
      unshared_of_quiet (by decide +kernel), unshared_of_quiet (by decide +kernel), trivial⟩
    intro libraryId _ q
    by_cases hq : q = 0
    · subst hq
      exact List.not_mem_nil
    · rw [party_of_not_who (by simpa [Step.who] using hq)]
      exact List.not_mem_nil
  have hstart : ∀ row ∈ (scannedTables .accepted).media.rows, row.isOrphaned = false := by
    decide +kernel
  have hflight := single_flight (scannedTables .accepted) scannedOnce hrun
  exact ⟨hflight.1, hflight.2 (by decide +kernel) fun row hrow _ => hstart row hrow⟩

/-- Two requests for one library, each looking for a run before the other has committed its
    own, and the queue taking both jobs. -/
def clickedTwice : List Step :=
  [.call 0 (.triggerScan "l1" fullScan true), .call 1 (.triggerScan "l1" fullScan true)] ++
    turnsOf [(0, 0), (1, 1), (0, 2), (1, 3)] ++ [.enqueue 0 2, .enqueue 1 3] ++
      turnsOf [(2, 4), (3, 5)]

/-- A turn after which changes of its scan may be uncommitted: it has passed over a file, or
    indexed one whose row is not committed with the run, or evaluated the rules of one. -/
def leavesOpen (m : Moment) (t : Tables) : Party → Bool
  | .scanning _ _ options _ (.indexing context counts (file :: _)) =>
      let counts := { counts with filesSeen := counts.filesSeen + 1 }
      let disposition := context.dispositions (file.extension m.env.rt)
      exceeds options.maxFiles counts.filesSeen || disposition = some .ignore ||
        !(indexFile m.env context disposition counts file (m.session t)).2.committed.media.rows.any
          fun row => row.path = file.str && row.lastScanId = some context.runId
  | .scanning _ _ _ _ (.indexing _ _ []) => true
  | .scanning _ _ _ _ (.judgingEach _ (_ :: _)) => true
  | _ => false

/-- The run is cut at commits alone: where a scan may have left changes uncommitted, the next
    step is its own, so that the others find only what is committed. -/
def cutAtCommits (s : System) (busy : Option Nat) : List Step → Bool
  | [] => busy.isNone
  | .turn p m :: rest => busy.all (· = p) && cutAtCommits (next s (.turn p m))
      (if leavesOpen m s.tables (s.parties p) then some p else none) rest
  | step :: rest => busy.isNone && cutAtCommits (next s step) none rest

/-- A file with a hash, from an earlier scan. -/
def hashedFile : MediaFile :=
  { MediaFile.unprobed "f1" "l1" "/media/a.avi" "avi" with
    lastScanId := some "r0", hashSha256 := some "9f86d081" }

theorem hashedFile_alone : ([hashedFile].map MediaFile.id).Nodup :=
  List.nodup_singleton _

theorem hashedFile_path_alone : ([hashedFile].map MediaFile.path).Nodup :=
  List.nodup_singleton _

def virusTotal : Integration := ⟨"i1", "virustotal", "VirusTotal", true, .dict []⟩

theorem virusTotal_alone : ([virusTotal].map Integration.id).Nodup :=
  List.nodup_singleton _

/-- An enabled VirusTotal integration, and the file, which is enqueued, and with it the index
    committed. -/
def hashedTables : Tables :=
  { oneLibrary with
    media := ⟨[hashedFile], hashedFile_alone⟩
    media_path_unique := hashedFile_path_alone
    integrations := ⟨[virusTotal], virusTotal_alone⟩ }

/-- The scheduled job twice, the second beginning when the first has indexed the file. -/
def scheduledTwice : List Step :=
  [.call 0 (.runScanLibrary "l1" fullScan), .call 1 (.runScanLibrary "l1" fullScan)] ++
    turnsOf [(0, 0), (0, 1), (0, 2), (0, 3), (1, 4), (1, 5), (1, 6), (1, 7), (0, 8), (0, 9),
      (0, 10), (0, 11), (0, 12), (1, 13), (1, 14), (1, 15), (1, 16), (1, 17)]

theorem ends_scheduledTwice (p : Nat) :
    ((final next (atRest hashedTables) scheduledTwice).parties p).isEnded = true := by
  by_cases hp : p = 0 ∨ p = 1
  · rcases hp with rfl | rfl
    · decide +kernel
    · decide +kernel
  · have hall : ∀ step ∈ scheduledTwice, ∀ q ∈ step.who, q = 0 ∨ q = 1 := by decide +kernel
    have hended : ((final next (atRest hashedTables) scheduledTwice).parties p) = .ended := by
      apply final_invariant next (I := fun s => s.parties p = .ended) _ rfl
      intro step hstep s hs
      rw [party_of_not_who fun hwho => hp (hall step hstep p hwho)]
      exact hs
    rw [hended]
    rfl

/-- Two requests are both served, and the file is an orphan when both scheduled scans have
    completed, also in runs that are cut at commits alone. -/
theorem scans_overlap :
    (¬∀ (t : Tables) (steps : List Step), cutAtCommits (atRest t) none steps = true →
      ∀ s ∈ states next (atRest t) steps, Alone s) ∧
    ¬∀ (t : Tables) (steps : List Step), cutAtCommits (atRest t) none steps = true →
      (∀ row ∈ t.media, row.isOrphaned = false) →
      (∀ p, ((final next (atRest t) steps).parties p).isEnded = true) →
        ∀ row ∈ (final next (atRest t) steps).tables.media, There steps row.path →
          row.isOrphaned = false := by
  constructor
  · intro halone
    have hlast := halone oneLibrary clickedTwice (by decide +kernel) _
      ((mem_states next).mpr ⟨clickedTwice, [], (List.append_nil _).symm, rfl⟩)
    have hsame : (2 : Nat) = 3 := hlast 2 3 "l1" (by decide +kernel) (by decide +kernel)
    exact absurd hsame (by decide)
  · intro hkept
    have hrow : ∃ row ∈ (final next (atRest hashedTables) scheduledTwice).tables.media.rows,
        row.path = "/media/a.avi" ∧ row.isOrphaned = true := by
      decide +kernel
    rcases hrow with ⟨row, hrow, hpath, horphaned⟩
    have hstart : ∀ row ∈ hashedTables.media.rows, row.isOrphaned = false := by
      decide +kernel
    have hthere : There scheduledTwice row.path := by
      rw [hpath]
      intro p m hmem
      rcases List.mem_append.mp hmem with hcall | hturn
      · exact absurd hcall (by simp)
      · exact there_turnsOf _ p m hturn
    have hnot := hkept hashedTables scheduledTwice (by decide +kernel)
      (fun row hrow => hstart row hrow) ends_scheduledTwice row hrow hthere
    rw [hnot] at horphaned
    cases horphaned

end SingleFlight
