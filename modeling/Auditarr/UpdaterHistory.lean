/-
  Auditarr/UpdaterHistory.lean
  ============================
  **Outcomes of updates, from call to call** (`app/updater/service.py`).

  A row that has completed or failed is meant to stay as it is, but for a rollback, and its
  outcome is meant to be announced once.  Reaping, clearing and rolling back look at the
  status first.  The poll does not: it writes what the status file says, whatever the row
  has become, and announces it again (`settled_iff_polls_open`).
-/
import Auditarr.Updater
import Auditarr.Runs

namespace UpdaterHistory

open KeyedTable PyValues Updater Runs

/-! ### Histories -/

/-- What is called, and what the helper does to the status file. -/
inductive Step where
  | requestApply (o : Occasion) (toVersion : String) (user : Option String)
  | pollApplyStatus (o : Occasion)
  | reapStale (now : Timestamp)
  | forceClear (o : Occasion) (applyId : String)
  | rollback (o again : Occasion) (applyId : String)
  | helper (file : Option StatusFile)

section History

variable (settings : Settings)

def next (s : State) : Step → State
  | .requestApply o toVersion user => (requestApply settings o toVersion user s).2
  | .pollApplyStatus o => (pollApplyStatus o s).2
  | .reapStale now => { s with applies := reapStale settings now s.applies }
  | .forceClear o applyId => (forceClear settings o applyId s).2
  | .rollback o again applyId => (rollback settings o again applyId s).2
  | .helper file => { s with statusFile := file }

/-- A row that has an outcome keeps its status, or is rolled back if it completed. -/
def Follows (before after : ApplyStatus) : Prop :=
  after = before ∨ (before = .completed ∧ after = .rolledBack)

/-- Each row that has an outcome keeps it. -/
def OutcomesKept (s s' : State) : Prop :=
  ∀ id row, s.applies.find? id = some row → row.status.isOpen = false →
    ∃ row', s'.applies.find? id = some row' ∧ Follows row.status row'.status

/-- No row has two outcome events. -/
def AnnouncedOnce (s : State) : Prop := (s.emitted.map Outcome.applyId).Nodup

/-- The report that is polled finds its row open, or it repeats the outcome of a row about
    which nothing was announced. -/
def FindsOpen (s : State) : Step → Prop
  | .pollApplyStatus o => ∀ payload r row, s.statusFile = some (.json payload) →
      readReport payload = .ok (some r) → s.applies.find? r.applyId = some row →
      o.commitError = none → row.status.isOpen = false →
        r.status = row.status ∧ (o.bus = true → row.id ∉ s.emitted.map Outcome.applyId)
  | _ => True

/-! ### Kept outcomes -/

variable {settings} {s s' s'' : State}

theorem Follows.refl (status : ApplyStatus) : Follows status status := .inl rfl

theorem Follows.closed {before after : ApplyStatus} (h : Follows before after)
    (hclosed : before.isOpen = false) : after.isOpen = false := by
  rcases h with rfl | ⟨-, rfl⟩
  · exact hclosed
  · rfl

theorem Follows.trans {a b c : ApplyStatus} (h : Follows a b) (h' : Follows b c) : Follows a c := by
  rcases h with rfl | ⟨ha, hb⟩
  · exact h'
  · rcases h' with hc | ⟨hcompleted, -⟩
    · exact .inr ⟨ha, hc.trans hb⟩
    · rw [hb] at hcompleted
      cases hcompleted

theorem OutcomesKept.refl (s : State) : OutcomesKept s s :=
  fun _ row hrow _ => ⟨row, hrow, .refl _⟩

theorem OutcomesKept.trans (h : OutcomesKept s s') (h' : OutcomesKept s' s'') :
    OutcomesKept s s'' := by
  intro id row hrow hclosed
  obtain ⟨row', hrow', hfollows⟩ := h id row hrow hclosed
  obtain ⟨row'', hrow'', hfollows'⟩ := h' id row' hrow' (hfollows.closed hclosed)
  exact ⟨row'', hrow'', hfollows.trans hfollows'⟩

instance : IsTrans State OutcomesKept where
  trans _ _ _ h h' := h.trans h'

theorem OutcomesKept.of_applies (h : s'.applies = s.applies) : OutcomesKept s s' := by
  intro id row hrow _
  exact ⟨row, h ▸ hrow, .refl _⟩

theorem outcomesKept_reapStale (now : Timestamp)
    (h : s'.applies = reapStale settings now s.applies) : OutcomesKept s s' := by
  intro id row hrow hclosed
  refine ⟨row, ?_, .refl _⟩
  rw [h, find?_reapStale, hrow, Option.map_some, isStale, hclosed]
  rfl

theorem outcomesKept_addRow {row : UpdateApply} (h : addRow row s.applies = some s'.applies) :
    OutcomesKept s s' := by
  obtain ⟨hfree, happlies⟩ := addRow_eq_some.mp h
  intro id other hother _
  refine ⟨other, ?_, .refl _⟩
  rw [← happlies, Table.find?_upsert, if_neg, hother]
  rintro rfl
  rw [hfree] at hother
  cases hother

theorem outcomesKept_setRow_iff {f : UpdateApply → UpdateApply} {hf : ∀ row, (f row).id = row.id}
    {row : UpdateApply} (hrow : s.applies.find? row.id = some row)
    (happlies : s'.applies = (setRow row.id f hf s).applies) :
    OutcomesKept s s' ↔ (row.status.isOpen = false → Follows row.status (f row).status) := by
  constructor
  · intro h hclosed
    obtain ⟨row', hrow', hfollows⟩ := h row.id row hrow hclosed
    rw [happlies, find?_setRow, hrow, Option.map_some, if_pos rfl] at hrow'
    rw [Option.some.inj hrow']
    exact hfollows
  · intro h id other hother hclosed
    have hid := (Table.mem_of_find? hother).2
    by_cases hsame : other.id = row.id
    · have heq : other = row := by
        rw [hid] at hsame
        rw [hsame, hrow] at hother
        exact (Option.some.inj hother).symm
      refine ⟨f row, ?_, heq ▸ h (heq ▸ hclosed)⟩
      rw [happlies, find?_setRow, hother, Option.map_some, heq, if_pos rfl]
    · refine ⟨other, ?_, .refl _⟩
      rw [happlies, find?_setRow, hother, Option.map_some, if_neg hsame]

theorem requestApply_keeps (settings : Settings) (o : Occasion) (toVersion : String)
    (user : Option String) (s : State) :
    OutcomesKept s (requestApply settings o toVersion user s).2 ∧
      (requestApply settings o toVersion user s).2.emitted = s.emitted := by
  have hadded : ∀ applies sentinel,
      addRow (requestedRow settings o toVersion user) (reapStale settings o.now s.applies) = some applies →
      OutcomesKept s { s with applies := applies, sentinel := sentinel } := by
    intro applies sentinel hadd
    have hreaped : OutcomesKept s { s with applies := reapStale settings o.now s.applies } :=
      outcomesKept_reapStale o.now rfl
    exact hreaped.trans (outcomesKept_addRow hadd)
  unfold requestApply
  cases modeRefusal settings with
  | some text => exact ⟨.refl s, rfl⟩
  | none =>
    dsimp only
    split
    · exact ⟨.refl s, rfl⟩
    · cases o.commitError with
      | some text => exact ⟨.refl s, rfl⟩
      | none =>
        cases hadd : addRow (requestedRow settings o toVersion user)
            (reapStale settings o.now s.applies) with
        | none => exact ⟨.refl s, rfl⟩
        | some applies => cases o.sentinelError <;> exact ⟨hadded _ _ hadd, rfl⟩

theorem rollback_keeps (settings : Settings) (o again : Occasion) (applyId : String) (s : State) :
    OutcomesKept s (rollback settings o again applyId s).2 ∧
      (rollback settings o again applyId s).2.emitted = s.emitted := by
  unfold rollback
  cases hrow : s.applies.find? applyId with
  | none => exact ⟨.refl s, rfl⟩
  | some row =>
    dsimp only
    cases row.fromVersion with
    | none => exact ⟨.refl s, rfl⟩
    | some fromVersion =>
      dsimp only
      split
      · rename_i hcompleted
        cases o.commitError with
        | some text => exact ⟨.refl s, rfl⟩
        | none =>
          have hid := (Table.mem_of_find? hrow).2
          rw [← hid] at hrow
          have hmarked : OutcomesKept s (setRow row.id (rolledBackRow o.now) (rolledBackRow_id o.now) s) :=
            (outcomesKept_setRow_iff hrow rfl).mpr fun _ => .inr ⟨hcompleted, rfl⟩
          obtain ⟨hkept, hemitted⟩ := requestApply_keeps settings again fromVersion
            row.triggeredByUserId (setRow row.id (rolledBackRow o.now) (rolledBackRow_id o.now) s)
          exact ⟨hmarked.trans hkept, hemitted⟩
      · exact ⟨.refl s, rfl⟩

/-! ### One call -/

/-- Each row about which something was announced has an outcome, and none was announced twice. -/
structure Announced (s : State) : Prop where
  once : AnnouncedOnce s
  closed : ∀ outcome ∈ s.emitted, ∃ row, s.applies.find? outcome.applyId = some row ∧
    row.status.isOpen = false

theorem Announced.not_mem_of_open (h : Announced s) {row : UpdateApply}
    (hrow : s.applies.find? row.id = some row) (hopen : row.status.isOpen = true) :
    row.id ∉ s.emitted.map Outcome.applyId := by
  intro hmem
  obtain ⟨outcome, houtcome, hid⟩ := List.mem_map.mp hmem
  obtain ⟨row', hrow', hclosed⟩ := h.closed outcome houtcome
  rw [hid, hrow] at hrow'
  rw [← Option.some.inj hrow', hopen] at hclosed
  cases hclosed

theorem Announced.quiet (h : Announced s) (hkept : OutcomesKept s s')
    (hemitted : s'.emitted = s.emitted) : Announced s' := by
  constructor
  · rw [AnnouncedOnce, hemitted]
    exact h.once
  · rw [hemitted]
    intro outcome houtcome
    obtain ⟨row, hrow, hclosed⟩ := h.closed outcome houtcome
    obtain ⟨row', hrow', hfollows⟩ := hkept _ row hrow hclosed
    exact ⟨row', hrow', hfollows.closed hclosed⟩

theorem Announced.loud (h : Announced s) (hkept : OutcomesKept s s') (honce : AnnouncedOnce s')
    {outcomes : List Outcome} (hemitted : s'.emitted = s.emitted ++ outcomes)
    (hclosed : ∀ outcome ∈ outcomes, ∃ row, s'.applies.find? outcome.applyId = some row ∧
      row.status.isOpen = false) : Announced s' := by
  refine ⟨honce, ?_⟩
  rw [hemitted]
  intro outcome houtcome
  rcases List.mem_append.mp houtcome with hold | hnew
  · obtain ⟨row, hrow, hclosed⟩ := h.closed outcome hold
    obtain ⟨row', hrow', hfollows⟩ := hkept _ row hrow hclosed
    exact ⟨row', hrow', hfollows.closed hclosed⟩
  · exact hclosed outcome hnew

theorem announcedOnce_append (h : AnnouncedOnce s) {outcomes : List Outcome}
    (hemitted : s'.emitted = s.emitted ++ outcomes) (hone : outcomes.length ≤ 1) :
    AnnouncedOnce s' ↔ ∀ outcome ∈ outcomes, outcome.applyId ∉ s.emitted.map Outcome.applyId := by
  unfold AnnouncedOnce at h ⊢
  rw [hemitted, List.map_append]
  cases outcomes with
  | nil => simpa using h
  | cons outcome rest =>
    cases rest with
    | cons _ _ => simp at hone
    | nil =>
      rw [List.map_singleton, List.nodup_append_comm, List.singleton_append, List.nodup_cons,
        and_iff_left h]
      simp

theorem reportable_status {v : PyValue} {status : ApplyStatus} (h : reportable v = some status) :
    status = .running ∨ status = .completed ∨ status = .failed := by
  unfold reportable at h
  split at h <;> cases h <;> simp

theorem readReport_status {payload : PyValue} {r : Report} (h : readReport payload = .ok (some r)) :
    r.status = .running ∨ r.status = .completed ∨ r.status = .failed := by
  cases payload with
  | dict entries =>
    simp only [readReport, PyValue.get, bind, Except.bind, pure, Except.pure] at h
    split at h
    · split at h
      · split at h
        · cases h
        · rename_i status hstatus
          cases h
          exact reportable_status hstatus
      · cases h
    · cases h
  | _ => cases h

theorem reported_iff (h : Announced s) {o : Occasion} {r : Report} {row : UpdateApply}
    (hstatus : r.status = .running ∨ r.status = .completed ∨ r.status = .failed)
    (hrow : s.applies.find? row.id = some row)
    (happlies : s'.applies = (setRow row.id (r.apply o.now) (r.apply_id o.now) s).applies)
    (hemitted : s'.emitted = s.emitted ++ if o.bus then (outcomeOf (r.apply o.now row)).toList else []) :
    (OutcomesKept s s' ∧ AnnouncedOnce s') ↔ (row.status.isOpen = false →
      r.status = row.status ∧ (o.bus = true → row.id ∉ s.emitted.map Outcome.applyId)) := by
  have houtcome : ∀ outcome ∈ (outcomeOf (r.apply o.now row)).toList, outcome.applyId = row.id := by
    intro outcome hmem
    unfold outcomeOf at hmem
    split at hmem
    · rw [List.mem_singleton.mp hmem]
      rfl
    · rw [List.mem_singleton.mp hmem]
      rfl
    · cases hmem
  have hone : (if o.bus then (outcomeOf (r.apply o.now row)).toList else []).length ≤ 1 := by
    split
    · cases outcomeOf (r.apply o.now row) <;> simp
    · simp
  rw [outcomesKept_setRow_iff hrow happlies, announcedOnce_append h.once hemitted hone]
  cases hopen : row.status.isOpen with
  | true =>
    apply iff_of_true
    · refine ⟨fun hclosed => Bool.noConfusion hclosed, fun outcome hmem => ?_⟩
      split at hmem
      · rw [houtcome outcome hmem]
        exact h.not_mem_of_open hrow hopen
      · cases hmem
    · intro hclosed
      cases hclosed
  | false =>
    have hfollows : Follows row.status (r.apply o.now row).status ↔ r.status = row.status := by
      constructor
      · rintro (hsame | ⟨-, hrolledBack⟩)
        · exact hsame
        · have hreported : r.status = .rolledBack := hrolledBack
          rw [hreported] at hstatus
          simp at hstatus
      · exact .inl
    rw [hfollows]
    constructor
    · rintro ⟨hsame, hnew⟩ -
      refine ⟨hsame rfl, fun hbus => ?_⟩
      rw [if_pos hbus] at hnew
      have hmem : ∃ outcome, outcome ∈ (outcomeOf (r.apply o.now row)).toList := by
        rcases hstatus with hrunning | hcompleted | hfailed
        · rw [← hsame rfl, hrunning] at hopen
          cases hopen
        · refine ⟨.installed row.id row.toVersion, ?_⟩
          simp [outcomeOf, Report.apply, hcompleted]
        · refine ⟨.failed row.id row.toVersion (r.error <|> row.error), ?_⟩
          simp [outcomeOf, Report.apply, hfailed]
      obtain ⟨outcome, hmem⟩ := hmem
      rw [← houtcome outcome hmem]
      exact hnew outcome hmem
    · intro hfind
      obtain ⟨hsame, hnew⟩ := hfind rfl
      refine ⟨fun _ => hsame, fun outcome hmem => ?_⟩
      split at hmem
      · rename_i hbus
        rw [houtcome outcome hmem]
        exact hnew hbus
      · cases hmem

/-- What a poll leaves: the row that a report is about is changed and its outcome is
    announced, or nothing but the status file has changed. -/
theorem pollApplyStatus_cases (o : Occasion) (s : State) :
    (∃ payload r row, s.statusFile = some (.json payload) ∧ readReport payload = .ok (some r) ∧
      s.applies.find? r.applyId = some row ∧ o.commitError = none ∧
      (pollApplyStatus o s).2.applies =
        (setRow row.id (r.apply o.now) (r.apply_id o.now) s).applies ∧
      (pollApplyStatus o s).2.emitted = s.emitted ++
        if o.bus then (outcomeOf (r.apply o.now row)).toList else []) ∨
    ((pollApplyStatus o s).2.applies = s.applies ∧ (pollApplyStatus o s).2.emitted = s.emitted ∧
      ∀ payload r row, s.statusFile = some (.json payload) → readReport payload = .ok (some r) →
        s.applies.find? r.applyId = some row → o.commitError ≠ none) := by
  unfold pollApplyStatus
  cases hfile : s.statusFile with
  | none => exact .inr ⟨rfl, rfl, fun _ _ _ h => by cases h⟩
  | some file =>
    cases file with
    | unreadable => exact .inr ⟨rfl, rfl, fun _ _ _ h => by cases h⟩
    | json payload =>
      simp only [Option.some.injEq, StatusFile.json.injEq]
      cases hread : readReport payload with
      | error e =>
        refine .inr ⟨rfl, rfl, ?_⟩
        rintro _ r row rfl hr
        rw [hread] at hr
        cases hr
      | ok report =>
        cases report with
        | none =>
          refine .inr ⟨rfl, rfl, ?_⟩
          rintro _ r row rfl hr
          rw [hread] at hr
          cases hr
        | some r =>
          dsimp only
          cases hrow : s.applies.find? r.applyId with
          | none =>
            refine .inr ⟨unlink_applies o, unlink_emitted o, ?_⟩
            rintro _ r' row rfl hr hrow'
            rw [hread] at hr
            cases hr
            rw [hrow] at hrow'
            cases hrow'
          | some row =>
            dsimp only
            cases hcommit : o.commitError with
            | some text =>
              refine .inr ⟨rfl, rfl, ?_⟩
              intros
              simp
            | none =>
              refine .inl ⟨payload, r, row, rfl, hread, hrow, rfl, ?_, ?_⟩
              · simp
              · simp [emit_emitted, setRow]

theorem forceClear_cases (settings : Settings) (o : Occasion) (applyId : String) (s : State) :
    (∃ row, s.applies.find? row.id = some row ∧ row.status.isOpen = true ∧
      (forceClear settings o applyId s).2.applies =
        (setRow row.id (clearedRow o.now) (clearedRow_id o.now) s).applies ∧
      (forceClear settings o applyId s).2.emitted = s.emitted ++
        if o.bus then (outcomeOf (clearedRow o.now row)).toList else []) ∨
    (forceClear settings o applyId s).2 = s := by
  unfold forceClear
  cases hrow : s.applies.find? applyId with
  | none => exact .inr rfl
  | some row =>
    dsimp only
    split
    · rename_i hopen
      cases o.commitError with
      | some text => exact .inr rfl
      | none =>
        have hid := (Table.mem_of_find? hrow).2
        refine .inl ⟨row, hid.symm ▸ hrow, hopen, ?_, ?_⟩
        · simp
        · simp [emit_emitted, setRow, outcomeOf, clearedRow]
    · exact .inr rfl

theorem outcome_of_row {row : UpdateApply} {outcome : Outcome}
    (h : outcome ∈ (outcomeOf row).toList) : outcome.applyId = row.id ∧ row.status.isOpen = false := by
  unfold outcomeOf at h
  split at h
  · rename_i hstatus
    rw [List.mem_singleton.mp h, hstatus]
    exact ⟨rfl, rfl⟩
  · rename_i hstatus
    rw [List.mem_singleton.mp h, hstatus]
    exact ⟨rfl, rfl⟩
  · cases h

theorem forceClear_keeps (settings : Settings) (h : Announced s) (o : Occasion) (applyId : String) :
    OutcomesKept s (forceClear settings o applyId s).2 ∧
      AnnouncedOnce (forceClear settings o applyId s).2 := by
  rcases forceClear_cases settings o applyId s with ⟨row, hrow, hopen, happlies, hemitted⟩ | hsame
  · constructor
    · rw [outcomesKept_setRow_iff hrow happlies]
      intro hclosed
      rw [hopen] at hclosed
      cases hclosed
    · have hone : (if o.bus then (outcomeOf (clearedRow o.now row)).toList else []).length ≤ 1 := by
        cases o.bus <;> simp [outcomeOf, clearedRow]
      rw [announcedOnce_append h.once hemitted hone]
      intro outcome hmem
      split at hmem
      · rw [(outcome_of_row hmem).1, clearedRow_id]
        exact h.not_mem_of_open hrow hopen
      · cases hmem
  · rw [hsame]
    exact ⟨.refl s, h.once⟩

/-- One step keeps the outcomes, and each announced once, iff its report finds its row open
    or repeats an outcome that was not announced. -/
theorem kept_next_iff (s : State) (step : Step) (h : Announced s) :
    OutcomesKept s (next settings s step) ∧ AnnouncedOnce (next settings s step) ↔
      FindsOpen s step := by
  have hquiet : ∀ s' : State, OutcomesKept s s' → s'.emitted = s.emitted → AnnouncedOnce s' := by
    intro s' _ hemitted
    rw [AnnouncedOnce, hemitted]
    exact h.once
  cases step with
  | requestApply o toVersion user =>
    obtain ⟨hkept, hemitted⟩ := requestApply_keeps settings o toVersion user s
    exact iff_of_true ⟨hkept, hquiet _ hkept hemitted⟩ trivial
  | pollApplyStatus o =>
    rcases pollApplyStatus_cases o s with
      ⟨payload, r, row, hfile, hread, hrow, hcommit, happlies, hemitted⟩ | ⟨happlies, hemitted, hnone⟩
    · have hid := (Table.mem_of_find? hrow).2
      have hrow' : s.applies.find? row.id = some row := by
        rw [hid]
        exact hrow
      rw [next, reported_iff h (readReport_status hread) hrow' happlies hemitted]
      constructor
      · intro hfind payload' r' row'' hfile' hread' hrow'' _
        rw [hfile] at hfile'
        cases hfile'
        rw [hread] at hread'
        cases hread'
        rw [hrow] at hrow''
        cases hrow''
        exact hfind
      · intro hfind
        exact hfind payload r row hfile hread hrow hcommit
    · have hkept := OutcomesKept.of_applies happlies
      refine iff_of_true ⟨hkept, hquiet _ hkept hemitted⟩ ?_
      intro payload r row hfile hread hrow hcommit
      exact absurd hcommit (hnone payload r row hfile hread hrow)
  | reapStale now =>
    have hkept : OutcomesKept s (next settings s (.reapStale now)) := outcomesKept_reapStale now rfl
    exact iff_of_true ⟨hkept, hquiet _ hkept rfl⟩ trivial
  | forceClear o applyId => exact iff_of_true (forceClear_keeps settings h o applyId) trivial
  | rollback o again applyId =>
    obtain ⟨hkept, hemitted⟩ := rollback_keeps settings o again applyId s
    exact iff_of_true ⟨hkept, hquiet _ hkept hemitted⟩ trivial
  | helper file =>
    have hkept : OutcomesKept s (next settings s (.helper file)) := .of_applies rfl
    exact iff_of_true ⟨hkept, hquiet _ hkept rfl⟩ trivial

theorem announced_next (s : State) (step : Step) (h : Announced s)
    (hkept : OutcomesKept s (next settings s step)) (honce : AnnouncedOnce (next settings s step)) :
    Announced (next settings s step) := by
  have hclosed : ∀ (s' : State) (row : UpdateApply) (f : UpdateApply → UpdateApply)
      (hf : ∀ row, (f row).id = row.id), s.applies.find? row.id = some row →
      s'.applies = (setRow row.id f hf s).applies → ∀ bus : Bool,
      ∀ outcome ∈ (if bus then (outcomeOf (f row)).toList else []),
        ∃ row', s'.applies.find? outcome.applyId = some row' ∧ row'.status.isOpen = false := by
    intro s' row f hf hrow happlies bus outcome hmem
    split at hmem
    · obtain ⟨hid, hclosed⟩ := outcome_of_row hmem
      refine ⟨f row, ?_, hclosed⟩
      rw [happlies, find?_setRow, hid, hf, hrow, Option.map_some, if_pos rfl]
    · cases hmem
  cases step with
  | requestApply o toVersion user => exact h.quiet hkept (requestApply_keeps settings o toVersion user s).2
  | pollApplyStatus o =>
    rcases pollApplyStatus_cases o s with
      ⟨payload, r, row, -, -, hrow, -, happlies, hemitted⟩ | ⟨-, hemitted, -⟩
    · have hid := (Table.mem_of_find? hrow).2
      have hrow' : s.applies.find? row.id = some row := by
        rw [hid]
        exact hrow
      exact h.loud hkept honce hemitted (hclosed _ row _ (r.apply_id o.now) hrow' happlies o.bus)
    · exact h.quiet hkept hemitted
  | reapStale now => exact h.quiet hkept rfl
  | forceClear o applyId =>
    rcases forceClear_cases settings o applyId s with ⟨row, hrow, -, happlies, hemitted⟩ | hsame
    · exact h.loud hkept honce hemitted (hclosed _ row _ (clearedRow_id o.now) hrow happlies o.bus)
    · exact h.quiet hkept (congrArg State.emitted hsame)
  | rollback o again applyId => exact h.quiet hkept (rollback_keeps settings o again applyId s).2
  | helper file => exact h.quiet hkept rfl

/-- From rows on about which nothing was announced: along a run each row that has an outcome
    keeps it, but for a rollback, and no row has two outcome events, iff every report that is
    polled finds its row open, or repeats an outcome that was not announced. -/
theorem settled_iff_polls_open (settings : Settings) (applies : Applies) (sentinel : Option Sentinel)
    (file : Option StatusFile) (run : List Step) :
    (states (next settings) ⟨applies, sentinel, file, []⟩ run).Pairwise OutcomesKept ∧
        (∀ s ∈ states (next settings) ⟨applies, sentinel, file, []⟩ run, AnnouncedOnce s) ↔
      Throughout (next settings) FindsOpen ⟨applies, sentinel, file, []⟩ run := by
  apply pairwise_and_forall_iff (next settings) (I := Announced)
  · exact fun s h => h.once
  · exact kept_next_iff
  · exact announced_next
  · exact ⟨List.nodup_nil, fun outcome houtcome => absurd houtcome List.not_mem_nil⟩

end History

/-! ### A status file that stays -/

def bareMetal : Settings := ⟨.bareMetal, "1.0", 900, fun s => s⟩

/-- A call in which nothing raises, and the status file cannot be removed. -/
def readOnly (now : Timestamp) : Occasion := ⟨now, "a1", none, none, true, true⟩

/-- The helper reports that the update is complete. -/
def completedFile : StatusFile :=
  .json (.dict [("apply_id", .str "a1"), ("status", .str "completed")])

/-- An update is requested and completed, and its status file is read twice. -/
def rereadRun : List Step :=
  [.requestApply (readOnly 10) "1.1" none, .helper (some completedFile),
    .pollApplyStatus (readOnly 20), .pollApplyStatus (readOnly 30)]

/-- The update is announced twice. -/
theorem reread_status_announces_twice :
    ¬((states (next bareMetal) ⟨.empty, none, none, []⟩ rereadRun).Pairwise OutcomesKept ∧
      ∀ s ∈ states (next bareMetal) ⟨.empty, none, none, []⟩ rereadRun, AnnouncedOnce s) := by
  rintro ⟨-, honce⟩
  have hlast := honce _ ((mem_states _).mpr ⟨rereadRun, [], rfl, rfl⟩)
  have htwice : (final (next bareMetal) ⟨.empty, none, none, []⟩ rereadRun).emitted =
      [.installed "a1" "1.1", .installed "a1" "1.1"] := by
    decide +kernel
  rw [AnnouncedOnce, htwice] at hlast
  exact absurd hlast (by decide)

end UpdaterHistory
