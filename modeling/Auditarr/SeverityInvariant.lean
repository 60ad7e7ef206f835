/-
  Auditarr/SeverityInvariant.lean
  ===============================
  **The severity of a media row against its evaluation rows.**

  `evaluateFile` maintains both: the rows of the rules it runs, and the severity of
  the file, which it computes from those rules alone.  The rows of the other rules
  stay.  So the two agree exactly if no row that stays outranks the rules that ran
  (`Covered`), and they agree along every run whose passes find it so.
-/
import Auditarr.Runs
import Auditarr.RulesTotality

namespace SeverityInvariant

open Effects Transactions KeyedTable PyValues RuleSchema RuleEvaluator RuleAggregation
open Database RulesService RulesEffect RulesTotality

/-! ### The rank of the rows -/

/-- The highest rank among the evaluation rows of a file, and `ok` below that. -/
def storedRank (t : Tables) (id : String) : Nat :=
  ((t.evaluationsOf id).map (·.severityRank)).foldl max (SEVERITY_LEVELS .ok)

/-- The severity stored for the file is that of its rows. -/
def Agrees (id : String) (t : Tables) : Prop :=
  ∀ m ∈ t.media, m.id = id → m.severityRank = storedRank t id

/-- A row of a rule that is not run has at most the rank of `ok`, or of a
    `set_severity` of a rule that is run and matches the file. -/
def Covered (rt : PyRuntime) (rules : List (Rule × RuleDefinition)) (t : Tables)
    (m : MediaFile) : Prop :=
  ∀ e ∈ t.evaluationsOf m.id, e.ruleId ∉ rules.map (·.1.id) →
    e.severityRank ≤ SEVERITY_LEVELS .ok ∨
      ∃ entry ∈ matching rt (inputOf t m) rules, ∃ rank ∈ setSeverityRanks entry.2.actions,
        e.severityRank ≤ rank

theorem foldl_max_le {ranks : List Nat} {a x : Nat} :
    ranks.foldl max a ≤ x ↔ a ≤ x ∧ ∀ r ∈ ranks, r ≤ x := by
  induction ranks generalizing a with
  | nil => simp
  | cons r rest ih => simp only [List.foldl_cons, ih, max_le_iff, List.forall_mem_cons, and_assoc]

theorem le_foldl_max {ranks : List Nat} {a r : Nat} (hr : r ∈ ranks) : r ≤ ranks.foldl max a :=
  (foldl_max_le.mp le_rfl).2 r hr

theorem le_foldl_max_start (ranks : List Nat) (a : Nat) : a ≤ ranks.foldl max a :=
  (foldl_max_le.mp le_rfl).1

theorem le_foldl_max_iff {ranks : List Nat} {a x : Nat} :
    x ≤ ranks.foldl max a ↔ x ≤ a ∨ ∃ r ∈ ranks, x ≤ r := by
  induction ranks generalizing a with
  | nil => simp
  | cons r rest ih => simp only [List.foldl_cons, ih, le_max_iff, List.exists_mem_cons_iff, or_assoc]

theorem mem_evaluationsOf {t : Tables} {id : String} {e : RuleEvaluation} :
    e ∈ t.evaluationsOf id ↔ e ∈ t.evaluations ∧ e.mediaFileId = id := by
  simp [Tables.evaluationsOf, Table.mem_def]

theorem mem_matching {rt : PyRuntime} {input : EvaluationInput}
    {rules : List (Rule × RuleDefinition)} {entry : Rule × RuleDefinition} :
    entry ∈ matching rt input rules ↔ entry ∈ rules ∧ verdict rt input entry.2.match_ = true :=
  List.mem_filter

theorem outcome_severityRank {rt : PyRuntime} {input : EvaluationInput} {d : RuleDefinition}
    (hverdict : verdict rt input d.match_ = true) :
    (outcome rt d input).severityRank = (setSeverityRanks d.actions).foldl max 0 := by
  rw [outcome, if_pos hverdict, severityRank_applyActions]
  rfl

theorem mem_matchingRanks {rt : PyRuntime} {input : EvaluationInput}
    {rules : List (Rule × RuleDefinition)} {rank : Nat} :
    rank ∈ matchingRanks rt input (rules.map (·.2)) ↔
      ∃ entry ∈ matching rt input rules, rank ∈ setSeverityRanks entry.2.actions := by
  simp only [matchingRanks, List.mem_flatMap, List.mem_filter, List.mem_map, mem_matching]
  constructor
  · rintro ⟨d, ⟨⟨entry, hentry, rfl⟩, hverdict⟩, hrank⟩
    exact ⟨entry, ⟨hentry, hverdict⟩, hrank⟩
  · rintro ⟨entry, ⟨hentry, hverdict⟩, hrank⟩
    exact ⟨entry.2, ⟨⟨entry, hentry, rfl⟩, hverdict⟩, hrank⟩

/-! ### One evaluation -/

section Evaluation

variable {rt : PyRuntime} {rules : List (Rule × RuleDefinition)} {m : MediaFile} {now : Nat}
  {t t' : Tables}

theorem passRank_eq (input : EvaluationInput) :
    (progressAfter rt input rules).aggregate.severityRank =
      (matchingRanks rt input (rules.map (·.2))).foldl max (SEVERITY_LEVELS .ok) :=
  severityRank_foldl_absorb rt input _ aggregateStart

theorem outcome_le_passRank {input : EvaluationInput} {entry : Rule × RuleDefinition}
    (hentry : entry ∈ matching rt input rules) :
    (outcome rt entry.2 input).severityRank ≤
      (progressAfter rt input rules).aggregate.severityRank := by
  rw [passRank_eq, outcome_severityRank (mem_matching.mp hentry).2, foldl_max_le]
  exact ⟨Nat.zero_le _, fun r hr => le_foldl_max (mem_matchingRanks.mpr ⟨entry, hentry, hr⟩)⟩

theorem passRank_le_storedRank (heval : Evaluated rt m (inputOf t m) now rules t t')
    {m' : MediaFile} (hm' : m' ∈ t'.media) (hid : m'.id = m.id) :
    (progressAfter rt (inputOf t m) rules).aggregate.severityRank ≤ storedRank t' m.id := by
  rw [passRank_eq, foldl_max_le]
  refine ⟨le_foldl_max_start _ _, fun r hr => ?_⟩
  obtain ⟨entry, hentry, hrank⟩ := mem_matchingRanks.mp hr
  have hrow : evaluationRow m entry.1 (outcome rt entry.2 (inputOf t m)) now ∈
      t'.evaluationsOf m.id :=
    mem_evaluationsOf.mpr ⟨(heval.ownRows m' hm' hid _ rfl).mpr (.inl ⟨entry, hentry, rfl⟩), rfl⟩
  calc r ≤ (outcome rt entry.2 (inputOf t m)).severityRank := by
        rw [outcome_severityRank (mem_matching.mp hentry).2]
        exact le_foldl_max hrank
    _ ≤ storedRank t' m.id := le_foldl_max (List.mem_map_of_mem hrow)

theorem agrees_iff_covered (heval : Evaluated rt m (inputOf t m) now rules t t')
    {m' : MediaFile} (hm' : m' ∈ t'.media) (hid : m'.id = m.id) :
    Agrees m.id t' ↔ Covered rt rules t m := by
  have hrank : ∀ x ∈ t'.media, x.id = m.id →
      x.severityRank = (progressAfter rt (inputOf t m) rules).aggregate.severityRank := by
    intro x hx hxid
    obtain ⟨old, -, -, rfl⟩ := heval.ownMedia x hx hxid
    rfl
  have hle : storedRank t' m.id ≤ (progressAfter rt (inputOf t m) rules).aggregate.severityRank ↔
      Covered rt rules t m := by
    unfold storedRank Covered
    rw [foldl_max_le, passRank_eq]
    constructor
    · rintro ⟨-, hrows⟩ e he hkept
      obtain ⟨hmem, hfile⟩ := mem_evaluationsOf.mp he
      have hstays : e ∈ t'.evaluationsOf m.id :=
        mem_evaluationsOf.mpr ⟨(heval.ownRows m' hm' hid e hfile).mpr (.inr ⟨hmem, hkept⟩), hfile⟩
      refine (le_foldl_max_iff.mp (hrows _ (List.mem_map_of_mem hstays))).imp_right ?_
      rintro ⟨rank, hr, hle⟩
      obtain ⟨entry, hentry, hmem⟩ := mem_matchingRanks.mp hr
      exact ⟨entry, hentry, rank, hmem, hle⟩
    · intro hcovered
      refine ⟨le_foldl_max_start _ _, fun r hr => ?_⟩
      obtain ⟨e, he, rfl⟩ := List.mem_map.mp hr
      obtain ⟨hmem, hfile⟩ := mem_evaluationsOf.mp he
      rcases (heval.ownRows m' hm' hid e hfile).mp hmem with ⟨entry, hentry, rfl⟩ | ⟨hold, hkept⟩
      · rw [← passRank_eq]
        exact outcome_le_passRank hentry
      · refine le_foldl_max_iff.mpr
          ((hcovered e (mem_evaluationsOf.mpr ⟨hold, hfile⟩) hkept).imp_right ?_)
        rintro ⟨entry, hentry, rank, hrank, hle⟩
        exact ⟨rank, mem_matchingRanks.mpr ⟨entry, hentry, hrank⟩, hle⟩
  rw [← hle]
  constructor
  · intro hagrees
    rw [← hagrees m' hm' hid, hrank m' hm' hid]
  · intro hle x hx hxid
    rw [hrank x hx hxid]
    exact le_antisymm (passRank_le_storedRank heval hm' hid) hle

theorem agrees_of_covered (heval : Evaluated rt m (inputOf t m) now rules t t')
    (hcovered : Covered rt rules t m) : Agrees m.id t' := by
  intro m' hm' hid
  exact (agrees_iff_covered heval hm' hid).mpr hcovered m' hm' hid

theorem agrees_other (heval : Evaluated rt m (inputOf t m) now rules t t') {id : String}
    (hid : id ≠ m.id) (hagrees : Agrees id t) : Agrees id t' := by
  intro x hx hxid
  have hold : x ∈ t.media := (heval.otherMedia x (hxid ▸ hid)).mp hx
  rw [storedRank, heval.otherRows id hid]
  exact hagrees x hold hxid

theorem covered_other (heval : Evaluated rt m (inputOf t m) now rules t t') {m' : MediaFile}
    (hid : m'.id ≠ m.id) (hcovered : Covered rt rules t m') : Covered rt rules t' m' := by
  intro e he hkept
  rw [inputOf_congr (heval.otherTags m'.id hid)]
  rw [heval.otherRows m'.id hid] at he
  exact hcovered e he hkept

end Evaluation

/-! ### A pass over many files -/

theorem listMedia_untagged (t : Tables) (libraryId : String) :
    listMedia t libraryId [] =
      ((t.media.rows.filter fun m => libraryId = "" || m.libraryId = libraryId).insertionSort
        bySeverity).take PAGE_LIMIT := by
  simp [listMedia]

theorem mem_media_of_mem_listMedia {t : Tables} {library : Library} {m : MediaFile}
    (hm : m ∈ listMedia t library.id []) : m ∈ t.media ∧ m.libraryId = library.id := by
  rw [listMedia_untagged] at hm
  have hsorted := (List.mem_insertionSort bySeverity).mp (List.mem_of_mem_take hm)
  simpa [library.id_nonempty, Table.mem_def] using hsorted

theorem listMedia_other {rt : PyRuntime} {rules : List (Rule × RuleDefinition)} {m : MediaFile}
    {now : Nat} {t t' : Tables} {library : Library}
    (heval : Evaluated rt m (inputOf t m) now rules t t')
    (hother : ∀ old ∈ t.media, old.id = m.id → old.libraryId ≠ library.id) :
    listMedia t' library.id [] = listMedia t library.id [] := by
  rw [listMedia_untagged, listMedia_untagged, heval.selection]
  intro old hold hid severity severityRank
  simp [library.id_nonempty, hother old hold hid]

/-- What is known while a pass goes on, with some files and libraries to come, about
    the file `id`.  It agreed at the start if `A`, and has to agree at the end
    if `B`. -/
structure Pending (rt : PyRuntime) (rules : List (Rule × RuleDefinition)) (id : String)
    (A B : Prop) (later : List Library) (rest : List MediaFile) (t : Tables) : Prop where
  distinct : (rest.map (·.id)).Nodup
  covered : ∀ m ∈ rest, Covered rt rules t m
  libraries : (later.map Library.id).Nodup
  elsewhere : ∀ m ∈ rest, ∀ library ∈ later, ∀ old ∈ t.media, old.id = m.id →
    old.libraryId ≠ library.id
  coveredLater : ∀ library ∈ later, ∀ m ∈ listMedia t library.id [], Covered rt rules t m
  kept : A → Agrees id t
  reached : B → Agrees id t ∨ id ∈ rest.map (·.id) ∨
    ∃ library ∈ later, id ∈ (listMedia t library.id []).map (·.id)

section Passes

variable {rt : PyRuntime} {rules : List (Rule × RuleDefinition)} {id : String} {A B : Prop}
  {later : List Library} {rest : List MediaFile} {t t' : Tables}

theorem Pending.next {m : MediaFile} {now : Nat}
    (h : Pending rt rules id A B later (m :: rest) t)
    (heval : Evaluated rt m (inputOf t m) now rules t t') :
    Pending rt rules id A B later rest t' := by
  have hnot : ∀ m' ∈ rest, m'.id ≠ m.id := fun m' hm' heq =>
    (List.nodup_cons.mp h.distinct).1 (List.mem_map.mpr ⟨m', hm', heq⟩)
  have hlisting : ∀ library ∈ later, listMedia t' library.id [] = listMedia t library.id [] :=
    fun library hlibrary =>
      listMedia_other heval fun old hold hid => h.elsewhere m (by simp) library hlibrary old hold hid
  have hagrees : Agrees id t ∨ id = m.id → Agrees id t' := by
    intro hor
    by_cases hid : id = m.id
    · rw [hid]; exact agrees_of_covered heval (h.covered m (by simp))
    · exact agrees_other heval hid (hor.resolve_right hid)
  exact {
    distinct := (List.nodup_cons.mp h.distinct).2
    covered := fun m' hm' => covered_other heval (hnot m' hm') (h.covered m' (by simp [hm']))
    libraries := h.libraries
    elsewhere := fun m' hm' library hlibrary old hold hid =>
      h.elsewhere m' (by simp [hm']) library hlibrary old
        ((heval.otherMedia old (hid ▸ hnot m' hm')).mp hold) hid
    coveredLater := by
      intro library hlibrary m' hm'
      rw [hlisting library hlibrary] at hm'
      obtain ⟨hmem, hlib⟩ := mem_media_of_mem_listMedia hm'
      refine covered_other heval (fun heq => ?_) (h.coveredLater library hlibrary m' hm')
      exact h.elsewhere m (by simp) library hlibrary m' hmem heq hlib
    kept := fun ha => hagrees (.inl (h.kept ha))
    reached := by
      intro hb
      rcases h.reached hb with hagree | hrest | ⟨library, hlibrary, hlist⟩
      · exact .inl (hagrees (.inl hagree))
      · rcases List.mem_cons.mp hrest with heq | htail
        · exact .inl (hagrees (.inr heq))
        · exact .inr (.inl htail)
      · exact .inr (.inr ⟨library, hlibrary, by rw [hlisting library hlibrary]; exact hlist⟩) }

theorem Pending.turn {library : Library} (h : Pending rt rules id A B (library :: later) [] t) :
    Pending rt rules id A B later (listMedia t library.id []) t where
  distinct := listMedia_nodup t library.id []
  covered := h.coveredLater library (by simp)
  libraries := (List.nodup_cons.mp h.libraries).2
  elsewhere m hm library' hlibrary' old hold hid := by
    obtain ⟨hmem, hlib⟩ := mem_media_of_mem_listMedia hm
    rw [Table.eq_of_key_eq hold hmem hid, hlib]
    intro heq
    exact (List.nodup_cons.mp h.libraries).1 (List.mem_map.mpr ⟨library', hlibrary', heq.symm⟩)
  coveredLater library' hlibrary' := h.coveredLater library' (by simp [hlibrary'])
  kept := h.kept
  reached hb := by
    rcases h.reached hb with hagree | hnone | ⟨library', hlibrary', hlist⟩
    · exact .inl hagree
    · cases hnone
    · rcases List.mem_cons.mp hlibrary' with rfl | htail
      · exact .inr (.inl hlist)
      · exact .inr (.inr ⟨library', htail, hlist⟩)

theorem Pending.done (h : Pending rt rules id A B [] [] t) : B → Agrees id t := by
  intro hb
  rcases h.reached hb with hagree | hnone | ⟨_, hnone, -⟩
  · exact hagree
  · cases hnone
  · cases hnone

theorem agrees_of_core_eq (hcore : core t' = core t) (h : Agrees id t) : Agrees id t' := by
  simp only [core, Prod.mk.injEq] at hcore
  unfold Agrees storedRank Tables.evaluationsOf
  rw [hcore.1, hcore.2.1]
  exact h

/-- The committed tables still agree if they did. -/
abbrev KeptIf (A : Prop) (id : String) (t : Tables) : Prop := A → Agrees id t

theorem triple_pending {env : Env} (hnodup : (rules.map (·.1.id)).Nodup) (files : List MediaFile) :
    Triple (Standing (KeptIf A id) (Pending env.rt rules id A B later files))
      (evaluateEach env rules files)
      (fun _ => Standing (KeptIf A id) (Pending env.rt rules id A B later []))
      (fun _ s => KeptIf A id s.committed) :=
  triple_evaluateEach (I := Pending env.rt rules id A B later) hnodup
    (fun _ _ hcore h ha => agrees_of_core_eq hcore (h ha))
    (fun _ _ _ _ _ h heval => ⟨h.next heval, (h.next heval).kept⟩) files

theorem Pending.ofFiles {files : List MediaFile} (hdistinct : (files.map (·.id)).Nodup)
    (hcovered : ∀ m ∈ files, Covered rt rules t m) (hkept : A → Agrees id t) :
    Pending rt rules id A (A ∨ id ∈ files.map (·.id)) [] files t where
  distinct := hdistinct
  covered := hcovered
  libraries := List.nodup_nil
  elsewhere _ _ _ hnone := by cases hnone
  coveredLater _ hnone := by cases hnone
  kept := hkept
  reached hb := hb.imp hkept .inl

theorem Pending.ofLibraries {targets : List MediaFile}
    (hcovered : ∀ library ∈ t.libraries, ∀ m ∈ listMedia t library.id [], Covered rt rules t m)
    (hkept : A → Agrees id t)
    (htargets : targets = t.libraries.rows.flatMap fun library => listMedia t library.id []) :
    Pending rt rules id A (A ∨ id ∈ targets.map (·.id)) t.libraries.rows [] t where
  distinct := List.nodup_nil
  covered _ hnone := by cases hnone
  libraries := t.libraries.unique
  elsewhere _ hnone := by cases hnone
  coveredLater := hcovered
  kept := hkept
  reached hb := by
    refine hb.imp hkept fun hid => .inr ?_
    obtain ⟨m, hm, rfl⟩ := List.mem_map.mp hid
    rw [htargets, List.mem_flatMap] at hm
    obtain ⟨library, hlibrary, hm⟩ := hm
    exact ⟨library, hlibrary, List.mem_map_of_mem hm⟩

end Passes

/-! ### The calls -/

/-- A call of the service.  The rules and the files handed to it are distinct rows. -/
inductive PassCall where
  | file (m : MediaFile) (rules : List (Rule × RuleDefinition))
      (distinct : (rules.map (·.1.id)).Nodup) (persist : Bool)
  | files (files : List MediaFile) (distinct : (files.map (·.id)).Nodup)
  | library (libraryId : String) (tagsAny : List String)
  | rule (ruleId : String)

namespace PassCall

def run (env : Env) : PassCall → Service Unit
  | .file m rules _ persist => do let _ ← evaluateFile env m rules persist
  | .files chosen _ => do let _ ← evaluateFiles env chosen
  | .library libraryId tagsAny => do let _ ← evaluateLibrary env libraryId tagsAny
  | .rule ruleId => do let _ ← evaluateRule env ruleId

/-- The rule `evaluate_rule` runs, if it can be run. -/
def runnable (t : Tables) (ruleId : String) : Option (Rule × RuleDefinition) :=
  (t.rules.find? ruleId).bind fun rule =>
    if rule.enabled then rule.definition.map fun d => (rule, d) else none

/-- The rules a call runs. -/
def rules (t : Tables) : PassCall → List (Rule × RuleDefinition)
  | .file _ rules _ _ => rules
  | .files _ _ => loadEnabled t
  | .library _ _ => loadEnabled t
  | .rule ruleId => (runnable t ruleId).toList

/-- The files a call evaluates and writes to. -/
def targets (t : Tables) : PassCall → List MediaFile
  | .file m _ _ persist => if persist then [m] else []
  | .files chosen _ => chosen
  | .library libraryId tagsAny => listMedia t libraryId tagsAny
  | .rule ruleId =>
      if (runnable t ruleId).isSome then
        t.libraries.rows.flatMap fun library => listMedia t library.id []
      else []

end PassCall

section Calls

variable {env : Env} {id : String} {A : Prop} {D P : Tables → Prop}

theorem triple_preview (m : MediaFile) (rules : List (Rule × RuleDefinition)) :
    Triple (Standing D P) (evaluateFile env m rules false) (fun _ => Standing D P)
      (fun _ s => D s.committed) := by
  refine (standing_load _).bind fun _ => Triple.assuming fun _ => ?_
  refine Triple.bind (M := fun _ => Standing D P) ?_ fun input => ?_
  · exact (standing_select _).consequence (fun _ hs => hs)
      (fun _ _ hs => hs.imp fun _ h => h.1) fun _ _ hs => hs
  refine (standing_read _).bind fun now => Triple.bind (M := fun _ => Standing D P) ?_ fun _ => ?_
  · refine Triple.foldEach (I := fun _ _ => Standing D P) _ rules fun _ entry _ acc _ => ?_
    unfold evaluateOne
    cases hev : evaluate env.rt entry.2 input with
    | error e =>
      simp only [hev]
      exact fun s hs => hs.1
    | ok result =>
      simp only [hev]
      cases result.matched with
      | true =>
        refine (standing_load _).bind fun _ => Triple.assuming fun _ => ?_
        exact triple_pure _ fun _ hs => hs
      | false => exact triple_pure _ fun _ hs => hs
  · refine Triple.bind (M := fun _ => Standing D P) (fun _ hs => hs) fun _ => ?_
    exact (standing_load _).bind fun _ => Triple.assuming fun _ => triple_pure _ fun _ hs => hs

theorem keptIf_of_core_eq {C : Prop} {t t' : Tables} (hcore : core t' = core t)
    (h : KeptIf C id t) : KeptIf C id t' :=
  fun hc => agrees_of_core_eq hcore (h hc)

theorem triple_trackRules {C : Prop} (now : Nat) (rules : List Rule)
    (count : Rule → Tables → Nat) :
    Triple (Standing D (KeptIf C id))
      (Call.forEach (fun rule : Rule => trackRule env now rule.id (count rule)) rules)
      (fun _ => Standing D (KeptIf C id)) (fun _ s => D s.committed) := by
  refine Triple.forEach (I := fun _ => Standing D (KeptIf C id)) rules fun _ rule _ _ => ?_
  exact (standing_select _).bind fun _ => standing_edit fun t h => keptIf_of_core_eq rfl h.1

theorem triple_files (files : List MediaFile) (t : Tables)
    (hdistinct : (files.map (·.id)).Nodup)
    (hcovered : ∀ m ∈ files, Covered env.rt (loadEnabled t) t m) :
    Triple (Standing (KeptIf A id) fun t' => t' = t ∧ KeptIf A id t') (evaluateFiles env files)
      (fun _ => Standing (KeptIf A id) fun t' => A ∨ id ∈ files.map (·.id) → Agrees id t')
      (fun _ s => KeptIf A id s.committed) := by
  refine (standing_select _).bind fun rules => ?_
  intro s hs
  obtain ⟨hcommitted, hlive, ⟨rfl, hkept⟩, rfl⟩ := hs
  refine (triple_pending (loadEnabled_nodup _) files s ⟨hcommitted, hlive,
    .ofFiles hdistinct hcovered hkept⟩).imp (fun _ hs => ?_) fun _ hs => hs
  exact hs.imp fun _ h => h.done

theorem triple_library (libraryId : String) (tagsAny : List String) (t : Tables)
    (hcovered : ∀ m ∈ listMedia t libraryId tagsAny, Covered env.rt (loadEnabled t) t m) :
    Triple (Standing (KeptIf A id) fun t' => t' = t ∧ KeptIf A id t')
      (evaluateLibrary env libraryId tagsAny)
      (fun _ => Standing (KeptIf A id) fun t' =>
        A ∨ id ∈ (listMedia t libraryId tagsAny).map (·.id) → Agrees id t')
      (fun _ s => KeptIf A id s.committed) := by
  refine Triple.bind (M := fun files s => files = listMedia t libraryId tagsAny ∧
    Standing (KeptIf A id) (fun t' => t' = t ∧ KeptIf A id t') s) ?_ fun files =>
      Triple.assuming fun hfiles => ?_
  · refine (standing_select _).consequence (fun _ hs => hs) ?_ fun _ _ hs => hs
    rintro files s ⟨hcommitted, hlive, ⟨rfl, hkept⟩, rfl⟩
    exact ⟨rfl, hcommitted, hlive, rfl, hkept⟩
  subst hfiles
  refine (triple_files _ t (listMedia_nodup _ _ _) hcovered).bind fun _ => ?_
  refine (standing_select _).bind fun rules => (standing_read _).bind fun now => ?_
  refine Triple.bind (M := fun _ => Standing (KeptIf A id)
    (KeptIf (A ∨ id ∈ (listMedia t libraryId tagsAny).map (·.id)) id)) ?_
    fun _ => triple_pure _ fun _ hs => hs
  exact (triple_trackRules now rules _).consequence (fun _ hs => hs.imp fun _ h => h.1)
    (fun _ _ hs => hs) fun _ _ hs => hs

theorem triple_oneLibrary {rules : List (Rule × RuleDefinition)} {B : Prop}
    (hnodup : (rules.map (·.1.id)).Nodup) (acc : List FileOutcome) (library : Library)
    (later : List Library) :
    Triple (Standing (KeptIf A id) (Pending env.rt rules id A B (library :: later) []))
      (do let files ← select env.db fun t => listMedia t library.id []
          let more ← evaluateEach env rules files
          return acc ++ more)
      (fun _ => Standing (KeptIf A id) (Pending env.rt rules id A B later []))
      (fun _ s => KeptIf A id s.committed) := by
  refine Triple.bind (M := fun files => Standing (KeptIf A id)
    (Pending env.rt rules id A B later files)) ?_ fun files => ?_
  · refine (standing_select _).consequence (fun _ hs => hs) ?_ fun _ _ hs => hs
    exact fun files s hs => hs.imp fun t ht => ht.2 ▸ ht.1.turn
  · exact (triple_pending hnodup files).bind fun more => triple_pure _ fun s hs => hs

theorem triple_libraries {B : Prop} (rules : List (Rule × RuleDefinition))
    (hnodup : (rules.map (·.1.id)).Nodup) (libraries : List Library) :
    Triple (Standing (KeptIf A id) (Pending env.rt rules id A B libraries []))
      (Call.foldEach
        (fun (acc : List FileOutcome) (library : Library) => do
          let files ← select env.db fun t => listMedia t library.id []
          let more ← evaluateEach env rules files
          return acc ++ more) [] libraries)
      (fun _ => Standing (KeptIf A id) (KeptIf B id)) (fun _ s => KeptIf A id s.committed) := by
  refine (Triple.foldEach (I := fun done _ s => ∀ later, libraries = done ++ later →
    Standing (KeptIf A id) (Pending env.rt rules id A B later []) s) [] libraries ?_).consequence
    ?_ ?_ fun _ _ hs => hs
  · intro done library later acc hsplit s hs
    refine (triple_oneLibrary hnodup acc library later s (hs _ hsplit)).imp ?_ fun _ hs => hs
    intro _ hs later' hlater
    have heq : later' = later := by simpa [hsplit] using hlater.symm
    rw [heq]; exact hs
  · intro s hs later hlater
    have heq : later = libraries := by simpa using hlater.symm
    rw [heq]; exact hs
  · intro _ s hs
    exact (hs [] (by simp)).imp fun t ht => ht.done

theorem triple_rule (ruleId : String) (t : Tables)
    (hcovered : ∀ entry, PassCall.runnable t ruleId = some entry → ∀ library ∈ t.libraries,
      ∀ m ∈ listMedia t library.id [], Covered env.rt [entry] t m) :
    Triple (Standing (KeptIf A id) fun t' => t' = t ∧ KeptIf A id t') (evaluateRule env ruleId)
      (fun _ => Standing (KeptIf A id)
        (KeptIf (A ∨ id ∈ ((PassCall.rule ruleId).targets t).map (·.id)) id))
      (fun _ s => KeptIf A id s.committed) := by
  refine (standing_select _).bind fun found => ?_
  intro s hs
  obtain ⟨hcommitted, hlive, ⟨rfl, hkept⟩, rfl⟩ := hs
  cases hfind : s.working.rules.find? ruleId with
  | none => exact hcommitted
  | some rule =>
    simp only []
    cases henabled : rule.enabled with
    | false => exact hcommitted
    | true =>
      cases hdefinition : rule.definition with
      | none => exact hcommitted
      | some definition =>
        have hrunnable : PassCall.runnable s.working ruleId = some (rule, definition) := by
          simp [PassCall.runnable, hfind, henabled, hdefinition]
        have htargets : (PassCall.rule ruleId).targets s.working =
            s.working.libraries.rows.flatMap fun library => listMedia s.working library.id [] := by
          simp [PassCall.targets, hrunnable]
        refine (standing_select (D := KeptIf A id) (P := fun t => t = s.working ∧ KeptIf A id t) _ :
          Triple _ (select env.db fun t => t.libraries.rows) _ _).bind (fun libraries => ?_) s
          ⟨hcommitted, hlive, rfl, hkept⟩
        refine (standing_read _).bind fun now => ?_
        refine Triple.bind (M := fun _ => Standing (KeptIf A id)
          (KeptIf (A ∨ id ∈ ((PassCall.rule ruleId).targets s.working).map (·.id)) id)) ?_
          fun outcomes => ?_
        · intro s' hs'
          obtain ⟨hcommitted', hlive', ⟨hworking, hkept'⟩, rfl⟩ := hs'
          rw [hworking] at hkept' ⊢
          refine triple_libraries [(rule, definition)] (List.nodup_singleton _) _ s'
            ⟨hcommitted', hlive', ?_⟩
          rw [hworking]
          exact .ofLibraries (hcovered _ hrunnable) hkept htargets
        · refine (standing_edit fun t h => ?_).bind fun _ =>
            standing_flush.bind fun _ => triple_pure _ fun _ hs => hs
          exact keptIf_of_core_eq rfl h

/-- Every row the call leaves alone is covered by what it runs. -/
def PassCall.Covers (env : Env) (t : Tables) (call : PassCall) : Prop :=
  ∀ m ∈ call.targets t, Covered env.rt (call.rules t) t m

theorem triple_call (call : PassCall) (t : Tables) (hcovers : call.Covers env t) :
    Triple (Standing (KeptIf A id) fun t' => t' = t ∧ KeptIf A id t') (call.run env)
      (fun _ => Standing (KeptIf A id) (KeptIf (A ∨ id ∈ (call.targets t).map (·.id)) id))
      (fun _ s => KeptIf A id s.committed) := by
  cases call with
  | file m rules distinct persist =>
    cases persist with
    | false =>
      refine (triple_preview m rules).bind fun _ => triple_pure _ fun s hs => ?_
      refine hs.imp fun t h hb => h.2 (hb.resolve_right ?_)
      simp [PassCall.targets]
    | true =>
      refine Triple.bind (M := fun _ => Standing (KeptIf A id)
        (KeptIf (A ∨ id ∈ [m].map (·.id)) id)) ?_ fun _ => triple_pure _ fun _ hs => hs
      rintro s ⟨hcommitted, hlive, rfl, hkept⟩
      have hpending : Pending env.rt rules id A (A ∨ id ∈ [m].map (·.id)) [] [m] s.working :=
        .ofFiles (List.nodup_singleton _) hcovers hkept
      refine (triple_evaluateFile s.working distinct
        (fun _ _ hcore h => keptIf_of_core_eq hcore h) (fun now t heval => ?_) s
        ⟨hcommitted, fun _ => rfl⟩).imp ?_ fun _ hs => hs
      · exact (hpending.next heval).kept
      · rintro outcome ⟨⟨hcommitted', hlive', now, heval⟩, -⟩
        exact ⟨hcommitted', hlive', (hpending.next heval).done⟩
  | files chosen distinct =>
    exact (triple_files chosen t distinct hcovers).bind fun _ => triple_pure _ fun _ hs => hs
  | library libraryId tagsAny =>
    exact (triple_library libraryId tagsAny t hcovers).bind fun _ => triple_pure _ fun _ hs => hs
  | rule ruleId =>
    refine (triple_rule ruleId t fun entry hentry library hlibrary m hm => ?_).bind fun _ =>
      triple_pure _ fun _ hs => hs
    have hcovered := hcovers m (by
      simp only [PassCall.targets, hentry, Option.isSome_some, if_true]
      exact List.mem_flatMap.mpr ⟨library, hlibrary, hm⟩)
    simpa [PassCall.rules, hentry] using hcovered

end Calls

/-! ### Runs -/

/-- What a caller does with the service. -/
inductive PassStep where
  /-- A call in the current session; the caller rolls back when it raises. -/
  | call (call : PassCall)
  | commit
  /-- The scheduler's job: a session of its own, committed even if the pass raised. -/
  | job (libraryId : String) (tagsAny : List String)
  /-- Another part of the program commits a change to other tables. -/
  | elsewhere (change : Tables → Tables) (media : ∀ t, (change t).media = t.media)
      (evaluations : ∀ t, (change t).evaluations = t.evaluations)

/-- A new session on what is committed. -/
def reopened (s : Session Tables Outside) : Session Tables Outside :=
  .opened s.committed s.world s.calls

def orReopened : Except ServiceError Unit × Session Tables Outside → Session Tables Outside
  | (.ok _, s) => s
  | (.error _, s) => reopened s

def step (env : Env) (s : Session Tables Outside) : PassStep → Session Tables Outside
  | .call call => orReopened (call.run env s)
  | .commit => orReopened (commit env.db s)
  | .job libraryId tagsAny =>
      orReopened (commit env.db (evaluateLibrary env libraryId tagsAny (reopened s)).2)
  | .elsewhere change _ _ => .opened (change s.committed) s.world s.calls

/-- The calls find their files covered, and a job runs to its end. -/
def Meets (env : Env) (s : Session Tables Outside) : PassStep → Prop
  | .call call => call.Covers env s.working
  | .commit => True
  | .job libraryId tagsAny =>
      (PassCall.library libraryId tagsAny).Covers env s.committed ∧ Clean env ∧
        LibraryEvaluable env s.committed libraryId tagsAny
  | .elsewhere .. => True

section Steps

variable {env : Env} {id : String} {A : Prop} {s : Session Tables Outside}

theorem reopened_standing (h : KeptIf A id s.committed) :
    Standing (KeptIf A id) (KeptIf A id) (reopened s) :=
  ⟨h, ⟨rfl, rfl⟩, h⟩

theorem orReopened_standing {c : Service Unit}
    (hends : Ends (fun _ => Standing (KeptIf A id) (KeptIf A id) (c s).2)
      (fun _ => KeptIf A id (c s).2.committed) (c s).1) :
    Standing (KeptIf A id) (KeptIf A id) (orReopened (c s)) := by
  rcases hcs : c s with ⟨_ | _, s'⟩
  · rw [hcs] at hends
    exact reopened_standing hends
  · rw [hcs] at hends
    exact hends

theorem step_standing {i : PassStep} (hs : Standing (KeptIf A id) (KeptIf A id) s)
    (hmeets : Meets env s i) : Standing (KeptIf A id) (KeptIf A id) (step env s i) := by
  cases i with
  | call call =>
    refine orReopened_standing ((triple_call call s.working hmeets s
      ⟨hs.1, hs.2.1, rfl, hs.2.2⟩).imp (fun _ hs' => ?_) fun _ hs' => hs')
    exact hs'.imp fun t h ha => h (.inl ha)
  | commit => exact orReopened_standing (standing_commit (fun _ h => h) s hs)
  | job libraryId tagsAny =>
    obtain ⟨hcovers, hclean, hevaluable⟩ := hmeets
    have hreturns := triple_evaluateLibrary hevaluable (reopened s) ⟨rfl, rfl, rfl⟩
    have hagrees := triple_library libraryId tagsAny s.committed hcovers
      (reopened s) ⟨hs.1, ⟨rfl, rfl⟩, rfl, hs.1⟩
    rcases hrun : evaluateLibrary env libraryId tagsAny (reopened s) with ⟨e | n, s'⟩
    · rw [hrun] at hreturns
      exact absurd hclean hreturns.2
    · rw [hrun] at hagrees
      simp only [step, hrun]
      refine orReopened_standing (standing_commit (fun _ h => h) s' ?_)
      exact ⟨hagrees.1, hagrees.2.1, fun ha => hagrees.2.2 (.inl ha)⟩
  | elsewhere change media evaluations =>
    have hchanged : KeptIf A id (change s.committed) := by
      unfold KeptIf Agrees storedRank Tables.evaluationsOf
      rw [media, evaluations]
      exact hs.1
    exact ⟨hchanged, ⟨rfl, rfl⟩, hchanged⟩

theorem admitted_standing {start : Session Tables Outside}
    (hstart : Standing (KeptIf A id) (KeptIf A id) start)
    (h : Runs.Admitted (fun s i s' => s' = step env s i) (Meets env) start s) :
    Standing (KeptIf A id) (KeptIf A id) s := by
  refine h.invariant hstart fun s i s' hs hmeets hstep => ?_
  rw [hstep]; exact step_standing hs hmeets

end Steps

def aviIsCrit : RuleDefinition :=
  simpleRule .extension .eq (.str "avi") (.setSeverity .crit) eq_mem_opsForField_extension avi_allowed
    (setSeverity_lengthsAllowed .crit) (setSeverity_not_isDelete .crit)

def notMkvIsInfo : RuleDefinition :=
  simpleRule .extension .ne (.str "mkv") (.setSeverity .info) (by decide) rfl rfl rfl

def aviFile : MediaFile := .unprobed "f1" "l1" "/media/a.avi" "avi"

theorem movies_id_nonempty : "l1" ≠ "" := by
  decide

/-- The library that holds the file. -/
def movies : Library := ⟨"l1", "/media", movies_id_nonempty⟩

theorem movies_alone : ([movies].map Library.id).Nodup :=
  List.nodup_singleton _

theorem aviFile_alone : ([aviFile].map MediaFile.id).Nodup :=
  List.nodup_singleton _

theorem aviFile_path_alone : ([aviFile].map MediaFile.path).Nodup :=
  List.nodup_singleton _

/-- A library with one file, and two rules that match it. -/
def twoRuleTables : Tables :=
  { Tables.empty with
    libraries := ⟨[movies], movies_alone⟩
    media := ⟨[aviFile], aviFile_alone⟩
    media_path_unique := aviFile_path_alone
    rules := ⟨[storedRule "crit" aviIsCrit, storedRule "info" notMkvIsInfo], by decide⟩ }

/-- A pass with both rules. -/
def bothRules : PassCall := .library "l1" []

theorem bothRules_covers (env : Env) : bothRules.Covers env twoRuleTables := by
  intro m _ e he
  exact absurd (mem_evaluationsOf.mp he).1 (Table.not_mem_empty e)

theorem aviFile_agrees : Agrees "f1" twoRuleTables := by
  intro m hm _
  rw [List.mem_singleton.mp hm]
  rfl

end SeverityInvariant
