/-
  Auditarr/PassCoverage.lean
  ==========================
  **Which files a pass evaluates, and what it counts.**

  A pass lists a library once, before it evaluates anything, and evaluates what it listed.
  So it reaches each file of the first page exactly once, however the evaluations reorder
  the library or delete from it.  The counts are taken afterwards: by the passes over
  libraries from the evaluation rows, up to the limit, and by a pass of a single rule from
  the files it matched on the way.
-/
import Auditarr.RulesFrame
import Auditarr.RepeatedPass
import Auditarr.TrashDurability

namespace PassCoverage

open Effects Transactions KeyedTable PyValues RuleSchema RuleEvaluator RuleAggregation
open Database RulesService RulesEffect RulesTotality RulesFrame SeverityInvariant RepeatedPass

/-! ### The rules, but for their tracking -/

/-- A rule without its bookkeeping. -/
def untracked (rule : Rule) : Rule := { rule with lastEvaluatedAt := none, lastMatchCount := 0 }

def untrackedRules (t : Tables) : List Rule := t.rules.rows.map untracked

/-- Rules that were loaded, without their bookkeeping. -/
def documents (rules : List (Rule × RuleDefinition)) : List (Rule × RuleDefinition) :=
  rules.map fun entry => (untracked entry.1, entry.2)

theorem untrackedRules_trackRule (t : Tables) (ruleId : String) (now count : Nat) :
    untrackedRules (t.trackRule ruleId now count) = untrackedRules t := by
  simp only [untrackedRules, Tables.trackRule, Table.update, List.map_map]
  refine List.map_congr_left fun rule _ => ?_
  by_cases hid : rule.id = ruleId <;> simp [hid, untracked]

theorem survives_untrackedRules (rules : List Rule) :
    Survives fun t => untrackedRules t = rules where
  evaluation _ _ h := h
  stale _ _ _ _ h := h
  tag _ _ h := h
  item _ _ h := h
  window _ _ h := h
  vtItem _ _ h := h
  audit _ _ h := h
  track t ruleId now count h := (untrackedRules_trackRule t ruleId now count).trans h
  judge _ _ _ h := h
  delete _ _ _ h := h

theorem enabledRules_untracked (t : Tables) :
    (enabledRules t).map untracked =
      ((untrackedRules t).filter (·.enabled)).insertionSort byPriority := by
  unfold enabledRules untrackedRules
  rw [List.filter_map]
  exact List.map_insertionSort byPriority byPriority untracked _ fun _ _ _ _ => Iff.rfl

theorem documents_loadEnabled (t : Tables) :
    documents (loadEnabled t) =
      (((untrackedRules t).filter (·.enabled)).insertionSort byPriority).filterMap fun rule =>
        rule.definition.map fun d => (rule, d) := by
  rw [← enabledRules_untracked, documents, loadEnabled, List.map_filterMap, List.filterMap_map]
  refine List.filterMap_congr fun rule _ => ?_
  show Option.map _ (Option.map _ rule.definition) = Option.map _ rule.definition
  rw [Option.map_map]
  rfl

theorem documents_loadEnabled_congr {t t' : Tables} (h : untrackedRules t' = untrackedRules t) :
    documents (loadEnabled t') = documents (loadEnabled t) := by
  rw [documents_loadEnabled, documents_loadEnabled, h]

section Documents

variable {rt : PyRuntime} {input : EvaluationInput} {rules : List (Rule × RuleDefinition)}

theorem documents_ids : (documents rules).map (·.1.id) = rules.map (·.1.id) := by
  rw [documents, List.map_map]
  rfl

theorem documents_nodup (t : Tables) : ((documents (loadEnabled t)).map (·.1.id)).Nodup := by
  rw [documents_ids]
  exact loadEnabled_nodup t

theorem documents_alone (entry : Rule × RuleDefinition) :
    ((documents [entry]).map (·.1.id)).Nodup :=
  List.nodup_singleton _

theorem matching_documents :
    (matching rt input (documents rules)).map (·.1.id) =
      (matching rt input rules).map (·.1.id) := by
  rw [matching, documents, List.filter_map, List.map_map]
  rfl

theorem harmless_documents : Harmless (documents rules) ↔ Harmless rules := by
  constructor
  · intro h entry hentry
    exact h (untracked entry.1, entry.2) (List.mem_map_of_mem hentry)
  · intro h entry hentry
    obtain ⟨loaded, hloaded, rfl⟩ := List.mem_map.mp hentry
    exact h loaded hloaded

theorem evaluable_documents
    (h : ∀ entry ∈ documents rules, evaluable rt input entry.2.match_ = true) :
    ∀ entry ∈ rules, evaluable rt input entry.2.match_ = true := by
  intro entry hentry
  exact h (untracked entry.1, entry.2) (List.mem_map_of_mem hentry)

end Documents

/-! ### The evaluations of a pass -/

/-- From one session to the other a pass evaluates these files by these rules, in order and
    with these outcomes, and else only asks the database and keeps its books. -/
inductive Visits (env : Env) (rules : List (Rule × RuleDefinition)) :
    List (MediaFile × FileOutcome) → Session Tables Outside → Session Tables Outside → Prop where
  | done (s) : Visits env rules [] s s
  | asks {visits s s'} (rest : Visits env rules visits { s with calls := s.calls + 1 } s') :
      Visits env rules visits s s'
  | tracks {visits s s'} (ruleId : String) (now count : Nat)
      (rest : Visits env rules visits
        { s with working := s.working.trackRule ruleId now count } s') :
      Visits env rules visits s s'
  | evaluates {m outcome loaded visits s s₁ s'} (hloaded : documents loaded = rules)
      (hrun : evaluateFile env m loaded true s = (.ok outcome, s₁))
      (rest : Visits env rules visits s₁ s') : Visits env rules ((m, outcome) :: visits) s s'

/-- The rule has an evaluation row for the file. -/
def HasRowOf (t : Tables) (id ruleId : String) : Prop :=
  ∃ e ∈ t.evaluationsOf id, e.ruleId = ruleId

/-- What the evaluations of these files have to do with the tables.  Other files keep their
    tags, their rows and their place in the listing of another library. -/
structure Effect (rt : PyRuntime) (rules : List (Rule × RuleDefinition))
    (visits : List (MediaFile × FileOutcome)) (t t' : Tables) : Prop where
  sameRules : untrackedRules t' = untrackedRules t
  homes : ∀ m ∈ t'.media, ∃ old ∈ t.media, old.id = m.id ∧ old.libraryId = m.libraryId
  inputs : ∀ m : MediaFile, m.id ∉ visits.map (·.1.id) → inputOf t' m = inputOf t m
  rows : ∀ id, id ∉ visits.map (·.1.id) → t'.evaluationsOf id = t.evaluationsOf id
  listing : ∀ library : Library,
    (∀ old ∈ t.media, old.id ∈ visits.map (·.1.id) → old.libraryId ≠ library.id) →
    listMedia t' library.id [] = listMedia t library.id []
  matched : ∀ visit ∈ visits,
    visit.2.matchedRuleIds = (matching rt (inputOf t visit.1) rules).map (·.1.id)
  left : Harmless rules → ∀ visit ∈ visits, ∀ ruleId ∈ rules.map (·.1.id),
    (HasRowOf t' visit.1.id ruleId ↔ ruleId ∈ visit.2.matchedRuleIds)

section Visits

variable {env : Env} {rules : List (Rule × RuleDefinition)}
  {visits visits' : List (MediaFile × FileOutcome)} {s s' s'' : Session Tables Outside}

theorem Visits.trans (h : Visits env rules visits s s') (h' : Visits env rules visits' s' s'') :
    Visits env rules (visits ++ visits') s s'' := by
  induction h with
  | done s => exact h'
  | asks _ ih => exact .asks (ih h')
  | tracks ruleId now count _ ih => exact .tracks ruleId now count (ih h')
  | evaluates hloaded hrun _ ih => exact .evaluates hloaded hrun (ih h')

theorem Visits.live (hrules : (rules.map (·.1.id)).Nodup) (h : Visits env rules visits s s')
    (hlive : s.Live) : s'.Live := by
  induction h with
  | done s => exact hlive
  | asks _ ih => exact ih hlive
  | tracks ruleId now count _ ih => exact ih hlive
  | evaluates hloaded hrun _ ih =>
    subst hloaded
    rw [documents_ids] at hrules
    apply ih
    exact (evaluateFile_inputs hrules hrun).1

theorem Effect.refl (rt : PyRuntime) (rules : List (Rule × RuleDefinition)) (t : Tables) :
    Effect rt rules [] t t where
  sameRules := rfl
  homes m hm := ⟨m, hm, rfl, rfl⟩
  inputs _ _ := rfl
  rows _ _ := rfl
  listing _ _ := rfl
  matched _ hnone := by cases hnone
  left _ _ hnone := by cases hnone

theorem effect_evaluateFile {m : MediaFile} {loaded : List (Rule × RuleDefinition)}
    {result : FileOutcome} (hnodup : (loaded.map (·.1.id)).Nodup)
    (hrun : evaluateFile env m loaded true s = (.ok result, s')) :
    Effect env.rt (documents loaded) [(m, result)] s.working s'.working := by
  obtain ⟨⟨-, hlive, now, heval⟩, hmatched⟩ := (triple_evaluateFile (D := fun _ => True) s.working
    hnodup (fun _ _ _ _ => trivial) (fun _ _ _ => trivial)).of_ok ⟨trivial, fun _ => rfl⟩ hrun
  have hother : ∀ id, id ∉ [(m, result)].map (·.1.id) → id ≠ m.id := by
    intro id hid heq
    exact hid (by simp [heq])
  have hids : ∀ ruleId ∈ (documents loaded).map (·.1.id), ruleId ∈ loaded.map (·.1.id) := by
    intro ruleId hruleId
    rwa [documents_ids] at hruleId
  exact {
    sameRules := by
      have hcarried : Carried (fun t => untrackedRules t = untrackedRules s.working) s
          (evaluateFile env m loaded true s).2 :=
        (survives_untrackedRules _).evaluateFile framed_carried m loaded true s
      rw [hrun] at hcarried
      exact (hcarried hlive).2 rfl
    homes := by
      intro m' hm'
      by_cases hid : m'.id = m.id
      · obtain ⟨old, hold, holdId, rfl⟩ := heval.ownMedia m' hm' hid
        exact ⟨old, hold, rfl, rfl⟩
      · exact ⟨m', (heval.otherMedia m' hid).mp hm', rfl, rfl⟩
    inputs := fun m' hm' => inputOf_congr (heval.otherTags m'.id (hother _ hm'))
    rows := fun id hid => heval.otherRows id (hother id hid)
    listing := by
      intro library helsewhere
      refine listMedia_other heval fun old hold hid => helsewhere old hold ?_
      simp [hid]
    matched := by
      intro visit hvisit
      obtain rfl := List.mem_singleton.mp hvisit
      rw [matching_documents]
      exact hmatched
    left := by
      intro hharmless visit hvisit ruleId hruleId
      obtain rfl := List.mem_singleton.mp hvisit
      obtain ⟨-, now', hjudged⟩ := evaluateFile_judged hnodup (harmless_documents.mp hharmless) hrun
      show HasRowOf _ m.id ruleId ↔ ruleId ∈ result.matchedRuleIds
      rw [hmatched]
      constructor
      · rintro ⟨e, he, rfl⟩
        obtain ⟨hmem, hfile⟩ := mem_evaluationsOf.mp he
        rcases (hjudged.own e hfile).mp hmem with ⟨entry, hentry, rfl⟩ | ⟨-, hout⟩
        · exact List.mem_map_of_mem hentry
        · exact absurd (hids _ hruleId) hout
      · intro hmem
        obtain ⟨entry, hentry, rfl⟩ := List.mem_map.mp hmem
        refine ⟨evaluationRow m entry.1 (outcome env.rt entry.2 (inputOf s.working m)) now', ?_, rfl⟩
        exact mem_evaluationsOf.mpr ⟨(hjudged.own _ rfl).mpr (.inl ⟨entry, hentry, rfl⟩), rfl⟩ }

theorem Effect.cons {rt : PyRuntime} {t t' t'' : Tables} {visit : MediaFile × FileOutcome}
    (hfirst : Effect rt rules [visit] t t') (hrest : Effect rt rules visits t' t'')
    (hfresh : visit.1.id ∉ visits.map (·.1.id)) : Effect rt rules (visit :: visits) t t'' where
  sameRules := hrest.sameRules.trans hfirst.sameRules
  homes m hm := by
    obtain ⟨between, hbetween, hid, hlibrary⟩ := hrest.homes m hm
    obtain ⟨old, hold, hid', hlibrary'⟩ := hfirst.homes between hbetween
    exact ⟨old, hold, hid'.trans hid, hlibrary'.trans hlibrary⟩
  inputs m hm := by
    rw [List.map_cons, List.mem_cons, not_or] at hm
    rw [hrest.inputs m hm.2]
    exact hfirst.inputs m (by simpa using hm.1)
  rows id hid := by
    rw [List.map_cons, List.mem_cons, not_or] at hid
    rw [hrest.rows id hid.2]
    exact hfirst.rows id (by simpa using hid.1)
  listing library helsewhere := by
    rw [hrest.listing library, hfirst.listing library]
    · intro old hold hid
      apply helsewhere old hold
      rw [List.mem_singleton.mp hid]
      exact List.mem_cons_self
    · intro between hbetween hid
      obtain ⟨old, hold, hsame, hlibrary⟩ := hfirst.homes between hbetween
      rw [← hlibrary]
      exact helsewhere old hold (hsame ▸ List.mem_cons_of_mem _ hid)
  matched other hother := by
    rcases List.mem_cons.mp hother with rfl | hmem
    · exact hfirst.matched other (List.mem_singleton_self other)
    · have hne : other.1.id ∉ [visit].map (·.1.id) := by
        intro hsame
        have heq : other.1.id = visit.1.id := List.mem_singleton.mp hsame
        exact hfresh (heq ▸ List.mem_map_of_mem hmem)
      rw [hrest.matched other hmem, hfirst.inputs other.1 hne]
  left hharmless other hother ruleId hruleId := by
    rcases List.mem_cons.mp hother with rfl | hmem
    · rw [HasRowOf, hrest.rows _ hfresh]
      exact hfirst.left hharmless other (List.mem_singleton_self other) ruleId hruleId
    · exact hrest.left hharmless other hmem ruleId hruleId

theorem Visits.effect (hrules : (rules.map (·.1.id)).Nodup) (h : Visits env rules visits s s')
    (hfiles : (visits.map (·.1.id)).Nodup) :
    Effect env.rt rules visits s.working s'.working := by
  induction h with
  | done s => exact .refl env.rt rules s.working
  | asks _ ih => exact ih hfiles
  | tracks ruleId now count _ ih =>
    have hafter := ih hfiles
    exact { hafter with
      sameRules := hafter.sameRules.trans (untrackedRules_trackRule _ ruleId now count) }
  | evaluates hloaded hrun _ ih =>
    obtain ⟨hfresh, hdistinct⟩ := List.nodup_cons.mp hfiles
    subst hloaded
    refine Effect.cons (effect_evaluateFile ?_ hrun) (ih hdistinct) hfresh
    rwa [documents_ids] at hrules

end Visits

/-! ### Running a pass -/

/-- The evaluation rows of a rule. -/
def rowsOf (t : Tables) (ruleId : String) : List RuleEvaluation :=
  t.evaluations.rows.filter fun e => e.ruleId = ruleId

/-- The count of each enabled rule is that of its rows, up to the limit. -/
def Counted (t : Tables) : Prop :=
  ∀ rule ∈ t.rules, rule.enabled = true →
    rule.lastMatchCount = min PAGE_LIMIT (rowsOf t rule.id).length

section Runs

variable {env : Env} {rules loaded : List (Rule × RuleDefinition)} {s : Session Tables Outside}

theorem triple_ask {α : Type} (hlive : s.Live) (query : Tables → α) :
    Triple (· = s) (select env.db query)
      (fun a s' => a = query s.working ∧ s' = { s with calls := s.calls + 1 })
      (fun _ _ => ¬ Clean env) := by
  rintro s rfl
  rcases contact_run env false s with h | ⟨e, s', h, -, hwhy⟩
  · unfold select
    rw [Call.andThen_eq_bind, Call.run_bind_ok h]
    exact ⟨rfl, rfl⟩
  · unfold select
    rw [Call.andThen_eq_bind, Call.run_bind_error h]
    refine hwhy.resolve_left fun hfailed => ?_
    rw [hlive.1] at hfailed
    cases hfailed

theorem triple_evaluateEach_visits (hrules : (rules.map (·.1.id)).Nodup)
    (hloaded : documents loaded = rules) (files : List MediaFile)
    (hfiles : (files.map (·.id)).Nodup) (hlive : s.Live) :
    Triple (· = s) (evaluateEach env loaded files)
      (fun outcomes s' => outcomes.length = files.length ∧
        Visits env rules (files.zip outcomes) s s')
      (fun _ _ => ¬ (Clean env ∧ AllEvaluable env s.working rules files)) := by
  have hnodup : (loaded.map (·.1.id)).Nodup := by
    rwa [← hloaded, documents_ids] at hrules
  induction files generalizing s with
  | nil => exact triple_pure _ fun s' hs' => ⟨rfl, hs' ▸ .done s'⟩
  | cons m rest ih =>
    refine Triple.seq (M := fun outcome s₁ => evaluateFile env m loaded true s = (.ok outcome, s₁))
      ?_ fun outcome s₁ hrun => ?_
    · rintro s rfl
      rcases hrun : evaluateFile env m loaded true s with ⟨e | outcome, s₁⟩
      · rintro ⟨hclean, hall⟩
        have hreturns := triple_evaluateFile_benign true
          (evaluable_documents (hloaded ▸ hall m List.mem_cons_self)) s ⟨rfl, fun _ => hlive⟩
        rw [hrun] at hreturns
        exact hreturns.2 hclean
      · exact rfl
    · obtain ⟨hlive₁, hinputs⟩ := evaluateFile_inputs hnodup hrun
      refine Triple.bind ((ih (List.nodup_cons.mp hfiles).2 hlive₁).consequence (fun _ hs => hs)
        (fun _ _ hs => hs) fun _ _ hstop => ?_) fun outcomes => ?_
      · rintro ⟨hclean, hall⟩
        exact hstop ⟨hclean, hall.tail hinputs hfiles⟩
      · refine triple_pure _ fun s' hs' => ⟨by simp [hs'.1], ?_⟩
        exact .evaluates hloaded hrun hs'.2

theorem triple_evaluateFiles_visits (hloaded : documents (loadEnabled s.working) = rules)
    (files : List MediaFile) (hfiles : (files.map (·.id)).Nodup) (hlive : s.Live) :
    Triple (· = s) (evaluateFiles env files)
      (fun outcomes s' => outcomes.length = files.length ∧
        Visits env rules (files.zip outcomes) s s')
      (fun _ _ => ¬ (Clean env ∧ AllEvaluable env s.working rules files)) := by
  have hrules : (rules.map (·.1.id)).Nodup := hloaded ▸ documents_nodup s.working
  refine Triple.seq ((triple_ask hlive loadEnabled).consequence (fun _ hs => hs) (fun _ _ hs => hs)
    fun _ _ hdirty hgood => hdirty hgood.1) ?_
  rintro _ _ ⟨rfl, rfl⟩
  rintro _ rfl
  refine (triple_evaluateEach_visits (s := { s with calls := s.calls + 1 }) hrules hloaded files
    hfiles hlive _ rfl).imp (fun outcomes h => ⟨h.1, .asks h.2⟩) fun _ hstop => hstop

theorem mem_trackRule {t : Tables} {ruleId : String} {now count : Nat} {rule : Rule}
    (h : rule ∈ (t.trackRule ruleId now count).rules) :
    (rule.id = ruleId ∧ rule.lastMatchCount = count) ∨ (rule.id ≠ ruleId ∧ rule ∈ t.rules) := by
  obtain ⟨old, hold, rfl⟩ := List.mem_map.mp h
  by_cases hid : old.id = ruleId
  · simp [hid]
  · simp only [hid, decide_false, Bool.false_eq_true, if_false]
    exact .inr ⟨hid, hold⟩

theorem triple_trackRule (hlive : s.Live) (now : Nat) (ruleId : String) (count : Tables → Nat) :
    Triple (· = s) (trackRule env now ruleId count)
      (fun _ s' => s' = { s with
        working := s.working.trackRule ruleId now (count s.working)
        calls := s.calls + 1 })
      (fun _ _ => ¬ Clean env) := by
  refine Triple.seq (triple_ask hlive count) ?_
  rintro _ _ ⟨rfl, rfl⟩
  rintro _ rfl
  exact rfl

theorem triple_trackRules_counts (rules : List (Rule × RuleDefinition)) (now : Nat)
    (tracked : List Rule) (hlive : s.Live) :
    Triple (· = s)
      (Call.forEach (fun rule : Rule => trackRule env now rule.id fun t =>
        min PAGE_LIMIT (t.evaluations.rows.filter fun e => e.ruleId = rule.id).length) tracked)
      (fun _ s' => Visits env rules [] s s' ∧ ∀ rule ∈ s'.working.rules,
        rule.id ∈ tracked.map (·.id) →
          rule.lastMatchCount = min PAGE_LIMIT (rowsOf s'.working rule.id).length)
      (fun _ _ => ¬ Clean env) := by
  refine (Triple.forEach (I := fun done s' => s'.Live ∧ Visits env rules [] s s' ∧
    ∀ rule ∈ s'.working.rules, rule.id ∈ done.map (·.id) →
      rule.lastMatchCount = min PAGE_LIMIT (rowsOf s'.working rule.id).length) tracked ?_).consequence
    ?_ (fun _ _ hs => hs.2) fun _ _ hs => hs
  · rintro done rule rest - s₁ ⟨hlive₁, hvisits, hcounts⟩
    refine (triple_trackRule hlive₁ now rule.id _ s₁ rfl).imp ?_ fun _ hdirty => hdirty
    rintro _ hs'
    rw [hs']
    refine ⟨hlive₁, hvisits.trans (.asks (.tracks _ _ _ (.done _))), ?_⟩
    intro rule' hrule' hid
    rcases mem_trackRule hrule' with ⟨hsame, hcount⟩ | ⟨hother, hold⟩
    · rw [hcount, hsame]
      rfl
    · refine hcounts rule' hold ?_
      rw [List.map_append, List.mem_append] at hid
      exact hid.resolve_right fun hlast => hother (by simpa using hlast)
  · rintro _ rfl
    exact ⟨hlive, .done _, fun _ _ hnone => absurd hnone List.not_mem_nil⟩

theorem mem_enabledRules_ids {t t' : Tables} (hsame : untrackedRules t' = untrackedRules t)
    {rule : Rule} (hrule : rule ∈ t'.rules) (henabled : rule.enabled = true) :
    rule.id ∈ (enabledRules t).map (·.id) := by
  have hmem : untracked rule ∈ untrackedRules t := hsame ▸ List.mem_map_of_mem hrule
  obtain ⟨old, hold, heq⟩ := List.mem_map.mp hmem
  have hid : old.id = rule.id := (congrArg Rule.id heq :)
  have hon : old.enabled = true := (congrArg Rule.enabled heq :).trans henabled
  rw [← hid]
  refine List.mem_map_of_mem ((List.mem_insertionSort byPriority).mpr ?_)
  exact List.mem_filter.mpr ⟨hold, hon⟩

theorem map_fst_zip_outcomes {files : List MediaFile} {outcomes : List FileOutcome}
    (h : outcomes.length = files.length) : (files.zip outcomes).map (·.1) = files :=
  List.map_fst_zip (Nat.le_of_eq h.symm)

theorem visited_ids {visits : List (MediaFile × FileOutcome)} {files : List MediaFile}
    (h : visits.map (·.1) = files) : visits.map (·.1.id) = files.map (·.id) := by
  rw [← h, List.map_map]
  rfl

theorem triple_evaluateLibrary_visits (hloaded : documents (loadEnabled s.working) = rules)
    (libraryId : String) (tagsAny : List String) (hlive : s.Live) :
    Triple (· = s) (evaluateLibrary env libraryId tagsAny)
      (fun n s' => ∃ visits, visits.map (·.1) = listMedia s.working libraryId tagsAny ∧
        Visits env rules visits s s' ∧ n = visits.length ∧ Counted s'.working)
      (fun _ _ => ¬ (Clean env ∧
        AllEvaluable env s.working rules (listMedia s.working libraryId tagsAny))) := by
  have hrules : (rules.map (·.1.id)).Nodup := hloaded ▸ documents_nodup s.working
  have hfiles := listMedia_nodup s.working libraryId tagsAny
  refine Triple.seq ((triple_ask hlive _).consequence (fun _ hs => hs) (fun _ _ hs => hs)
    fun _ _ hdirty hgood => hdirty hgood.1) ?_
  rintro _ _ ⟨rfl, rfl⟩
  refine Triple.seq (triple_evaluateFiles_visits (s := { s with calls := s.calls + 1 }) hloaded _
    hfiles hlive) ?_
  rintro outcomes s₁ ⟨hlength, hvisits⟩
  have hmap := map_fst_zip_outcomes hlength
  have heffect := hvisits.effect hrules (visited_ids hmap ▸ hfiles)
  have hlive₁ := hvisits.live hrules hlive
  refine Triple.consequence (Triple.seq (triple_ask hlive₁ enabledRules) ?_) (fun _ hs => hs)
    (fun _ _ hs => hs) fun _ _ hdirty hgood => hdirty hgood.1
  rintro _ _ ⟨rfl, rfl⟩
  refine Triple.bind (M := fun _ s' => s' = { s₁ with calls := s₁.calls + 1 }) ?_ fun now => ?_
  · exact fun _ hs => hs
  refine Triple.bind (triple_trackRules_counts rules now (enabledRules s₁.working)
    (s := { s₁ with calls := s₁.calls + 1 }) hlive₁) fun _ => ?_
  refine triple_pure _ ?_
  rintro s' ⟨htracks, hcounts⟩
  have hall := hvisits.trans (.asks htracks)
  rw [List.append_nil] at hall
  refine ⟨_, hmap, .asks hall, ?_, ?_⟩
  · rw [← List.length_map (f := Prod.fst), hmap]
  · intro rule hrule henabled
    apply hcounts rule hrule
    exact mem_enabledRules_ids (htracks.effect hrules List.nodup_nil).sameRules hrule henabled

/-! ### Library after library -/

theorem mem_listing {t : Tables} {libraries : List Library} {m : MediaFile} :
    m ∈ libraries.flatMap (fun library => listMedia t library.id []) ↔
      ∃ library ∈ libraries, m ∈ listMedia t library.id [] :=
  List.mem_flatMap

theorem listing_nodup (t : Tables) {libraries : List Library}
    (hlibraries : (libraries.map Library.id).Nodup) :
    ((libraries.flatMap fun library => listMedia t library.id []).map (·.id)).Nodup := by
  induction libraries with
  | nil => exact List.nodup_nil
  | cons library later ih =>
    obtain ⟨hfresh, hlater⟩ := List.nodup_cons.mp hlibraries
    rw [List.flatMap_cons, List.map_append]
    refine List.nodup_append.mpr ⟨listMedia_nodup t library.id [], ih hlater, ?_⟩
    rintro id hid id' hid' rfl
    obtain ⟨m, hm, rfl⟩ := List.mem_map.mp hid
    obtain ⟨m', hm', heq⟩ := List.mem_map.mp hid'
    obtain ⟨library', hlibrary', hlisted⟩ := mem_listing.mp hm'
    obtain ⟨hrow, hhome⟩ := mem_media_of_mem_listMedia hm
    obtain ⟨hrow', hhome'⟩ := mem_media_of_mem_listMedia hlisted
    rw [Table.eq_of_key_eq hrow' hrow heq, hhome] at hhome'
    exact hfresh (hhome' ▸ List.mem_map_of_mem hlibrary')

/-- A turn of a loop over libraries that starts with these rules: it evaluates what is listed
    for its library, adds that to the accumulator and leaves tables that meet `C`. -/
def Turns {β : Type} (env : Env) (rules : List (Rule × RuleDefinition)) (untouched : List Rule)
    (turn : β → Library → Service β) (grow : β → List (MediaFile × FileOutcome) → β)
    (C : Tables → Prop) : Prop :=
  ∀ (s : Session Tables Outside) acc library, s.Live → untrackedRules s.working = untouched →
    Triple (· = s) (turn acc library)
      (fun acc' s' => ∃ visits, visits.map (·.1) = listMedia s.working library.id [] ∧
        Visits env rules visits s s' ∧ acc' = grow acc visits ∧ C s'.working)
      (fun _ _ => ¬ (Clean env ∧ AllEvaluable env s.working rules
        (listMedia s.working library.id [])))

theorem triple_turns {β : Type} {untouched : List Rule} {turn : β → Library → Service β}
    {grow : β → List (MediaFile × FileOutcome) → β} {C : Tables → Prop}
    (hrules : (rules.map (·.1.id)).Nodup) (hturn : Turns env rules untouched turn grow C)
    (hnil : ∀ acc, grow acc [] = acc)
    (hgrow : ∀ acc visits visits', grow (grow acc visits) visits' = grow acc (visits ++ visits'))
    (libraries : List Library) (hlibraries : (libraries.map Library.id).Nodup) (acc : β)
    (hlive : s.Live) (huntouched : untrackedRules s.working = untouched) :
    Triple (· = s) (Call.foldEach turn acc libraries)
      (fun acc' s' => ∃ visits,
        visits.map (·.1) = libraries.flatMap (fun library => listMedia s.working library.id []) ∧
        Visits env rules visits s s' ∧ acc' = grow acc visits ∧
        (C s.working ∨ libraries ≠ [] → C s'.working))
      (fun _ _ => ¬ (Clean env ∧ AllEvaluable env s.working rules
        (libraries.flatMap fun library => listMedia s.working library.id []))) := by
  induction libraries generalizing s acc with
  | nil =>
    refine triple_pure _ ?_
    rintro s rfl
    exact ⟨[], rfl, .done s, (hnil acc).symm, fun hC => hC.resolve_right fun hne => hne rfl⟩
  | cons library later ih =>
    obtain ⟨hfresh, hlater⟩ := List.nodup_cons.mp hlibraries
    have hdistinct := listing_nodup s.working hlibraries
    rw [Call.foldEach, Call.andThen_eq_bind]
    refine Triple.seq ((hturn s acc library hlive huntouched).consequence (fun _ hs => hs)
      (fun _ _ hs => hs) fun _ _ hstop hgood => hstop ⟨hgood.1, fun m hm => hgood.2 m ?_⟩) ?_
    · exact mem_listing.mpr ⟨library, List.mem_cons_self, hm⟩
    · rintro acc₁ s₁ ⟨visits, hvisited, hvisits, rfl, hC⟩
      have hids := visited_ids hvisited
      have heffect := hvisits.effect hrules (hids ▸ listMedia_nodup s.working library.id [])
      -- the files of this library are not listed for a later one
      have helsewhere : ∀ library' ∈ later, ∀ old ∈ s.working.media,
          old.id ∈ visits.map (·.1.id) → old.libraryId ≠ library'.id := by
        intro library' hlibrary' old hold hid heq
        rw [hids] at hid
        obtain ⟨m, hm, hsame⟩ := List.mem_map.mp hid
        obtain ⟨hrow, hhome⟩ := mem_media_of_mem_listMedia hm
        rw [Table.eq_of_key_eq hrow hold hsame, heq] at hhome
        exact hfresh (hhome ▸ List.mem_map_of_mem hlibrary')
      have hlisting : (later.flatMap fun library' => listMedia s₁.working library'.id []) =
          later.flatMap fun library' => listMedia s.working library'.id [] :=
        List.flatMap_congr fun library' hlibrary' =>
          heffect.listing library' (helsewhere library' hlibrary')
      refine (ih hlater (grow acc visits) (hvisits.live hrules hlive)
        (heffect.sameRules.trans huntouched)).consequence (fun _ hs => hs) ?_ ?_
      · rintro acc₂ s₂ ⟨visits', hvisited', hvisits', rfl, hC'⟩
        refine ⟨visits ++ visits', ?_, hvisits.trans hvisits', hgrow acc visits visits', fun _ => ?_⟩
        · rw [List.map_append, hvisited, hvisited', hlisting, List.flatMap_cons]
        · exact hC' (.inl hC)
      · rintro - - hstop ⟨hclean, hall⟩
        refine hstop ⟨hclean, fun m hm entry hentry => ?_⟩
        rw [hlisting] at hm
        have hother : m.id ∉ visits.map (·.1.id) := by
          intro hid
          rw [List.flatMap_cons, List.map_append] at hdistinct
          exact List.disjoint_of_nodup_append hdistinct (hids ▸ hid) (List.mem_map_of_mem hm)
        rw [heffect.inputs m hother]
        refine hall m ?_ entry hentry
        rw [List.flatMap_cons]
        exact List.mem_append_right _ hm

theorem turns_evaluateLibrary (t : Tables) :
    Turns env (documents (loadEnabled t)) (untrackedRules t)
      (fun (total : Nat) (library : Library) => do
        let n ← evaluateLibrary env library.id []
        return total + n)
      (fun total visits => total + visits.length) Counted := by
  intro s total library hlive huntouched
  refine (triple_evaluateLibrary_visits (documents_loadEnabled_congr huntouched) library.id []
    hlive).bind fun n => triple_pure _ ?_
  rintro s' ⟨visits, hvisited, hvisits, rfl, hcounted⟩
  exact ⟨visits, hvisited, hvisits, rfl, hcounted⟩

theorem triple_evaluateAllLibraries (hlive : s.Live) :
    Triple (· = s) (evaluateAllLibraries env)
      (fun n s' => ∃ visits, visits.map (·.1) =
          s.working.libraries.rows.flatMap (fun library => listMedia s.working library.id []) ∧
        Visits env (documents (loadEnabled s.working)) visits s s' ∧
        n = (s.working.libraries.rows.length, visits.length) ∧
        (s.working.libraries.rows ≠ [] → Counted s'.working))
      (fun _ _ => ¬ (Clean env ∧ AllEvaluable env s.working (documents (loadEnabled s.working))
        (s.working.libraries.rows.flatMap fun library => listMedia s.working library.id []))) := by
  have hrules := documents_nodup s.working
  refine Triple.seq ((triple_ask hlive _).consequence (fun _ hs => hs) (fun _ _ hs => hs)
    fun _ _ hdirty hgood => hdirty hgood.1) ?_
  rintro _ _ ⟨rfl, rfl⟩
  refine Triple.bind (triple_turns (s := { s with calls := s.calls + 1 }) hrules
    (turns_evaluateLibrary s.working) (fun _ => Nat.add_zero _) ?_ _ s.working.libraries.unique 0
    hlive rfl) fun total => triple_pure _ ?_
  · intro total visits visits'
    rw [List.length_append, Nat.add_assoc]
  · rintro s' ⟨visits, hvisited, hvisits, rfl, hcounted⟩
    exact ⟨visits, hvisited, .asks hvisits, by rw [Nat.zero_add], fun hsome => hcounted (.inr hsome)⟩

theorem turns_rule (untouched : List Rule) (entry : Rule × RuleDefinition) :
    Turns env (documents [entry]) untouched
      (fun (acc : List FileOutcome) (library : Library) => do
        let files ← select env.db fun t => listMedia t library.id []
        let more ← evaluateEach env [entry] files
        return acc ++ more)
      (fun acc visits => acc ++ visits.map (·.2)) (fun _ => True) := by
  intro s acc library hlive _
  refine Triple.seq ((triple_ask hlive _).consequence (fun _ hs => hs) (fun _ _ hs => hs)
    fun _ _ hdirty hgood => hdirty hgood.1) ?_
  rintro _ _ ⟨rfl, rfl⟩
  refine Triple.bind (triple_evaluateEach_visits (s := { s with calls := s.calls + 1 })
    (documents_alone entry) rfl _ (listMedia_nodup s.working library.id []) hlive) fun more =>
      triple_pure _ ?_
  rintro s' ⟨hlength, hvisits⟩
  refine ⟨_, map_fst_zip_outcomes hlength, .asks hvisits, ?_, trivial⟩
  show acc ++ more = acc ++ ((listMedia s.working library.id []).zip more).map Prod.snd
  rw [List.map_snd_zip (Nat.le_of_eq hlength)]

theorem mem_matching_documents {rt : PyRuntime} {input : EvaluationInput}
    {entry : Rule × RuleDefinition} :
    entry.1.id ∈ (matching rt input (documents [entry])).map (·.1.id) ↔
      verdict rt input entry.2.match_ = true := by
  rw [matching_documents]
  cases hverdict : verdict rt input entry.2.match_ <;> simp [matching, hverdict]

theorem triple_trackHits (hlive : s.Live) (ruleId : String) (now count files : Nat) :
    Triple (· = s)
      (do edit (·.trackRule ruleId now count)
          flush env.db
          return files : Service Nat)
      (fun n s' => n = files ∧ s' = { s with
        working := s.working.trackRule ruleId now count
        calls := s.calls + 1 })
      (fun _ _ => ¬ Clean env) := by
  rintro s rfl
  let tracked : Session Tables Outside :=
    { s with working := s.working.trackRule ruleId now count }
  have hedit : (edit (·.trackRule ruleId now count) : Service Unit) s = (.ok (), tracked) := rfl
  rw [Call.run_bind_ok hedit]
  rcases contact_run env true tracked with h | ⟨e, s', h, -, hwhy⟩
  · rw [Call.run_bind_ok (show flush env.db tracked = _ from h)]
    exact ⟨rfl, rfl⟩
  · rw [Call.run_bind_error (show flush env.db tracked = _ from h)]
    refine hwhy.resolve_left fun hfailed => ?_
    rw [show tracked.failed = false from hlive.1] at hfailed
    cases hfailed

/-- How many of the files a rule matches, as they are found in the tables. -/
def hits (rt : PyRuntime) (t : Tables) (entry : Rule × RuleDefinition) (files : List MediaFile) :
    Nat :=
  (files.filter fun m => verdict rt (inputOf t m) entry.2.match_).length

theorem matched_length {t t' : Tables} {entry : Rule × RuleDefinition}
    {visits : List (MediaFile × FileOutcome)} {files : List MediaFile}
    (h : Effect env.rt (documents [entry]) visits t t') (hvisited : visits.map (·.1) = files) :
    ((visits.map (·.2)).filter fun o => entry.1.id ∈ o.matchedRuleIds).length =
      hits env.rt t entry files := by
  rw [hits, ← hvisited, List.filter_map, List.filter_map, List.length_map, List.length_map]
  refine congrArg List.length (List.filter_congr fun visit hvisit => ?_)
  rw [Bool.eq_iff_iff]
  simp only [Function.comp_apply, decide_eq_true_eq]
  rw [h.matched visit hvisit, mem_matching_documents]

theorem triple_ruleLibraries (entry : Rule × RuleDefinition) (hlive : s.Live) :
    Triple (· = s)
      (Call.foldEach
        (fun (acc : List FileOutcome) (library : Library) => do
          let files ← select env.db fun t => listMedia t library.id []
          let more ← evaluateEach env [entry] files
          return acc ++ more) [] s.working.libraries.rows)
      (fun outcomes s' => ∃ visits, visits.map (·.1) =
          s.working.libraries.rows.flatMap (fun library => listMedia s.working library.id []) ∧
        Visits env (documents [entry]) visits s s' ∧ s'.Live ∧ outcomes.length = visits.length ∧
        (outcomes.filter fun o => entry.1.id ∈ o.matchedRuleIds).length =
          hits env.rt s.working entry (visits.map (·.1)))
      (fun _ _ => ¬ (Clean env ∧ AllEvaluable env s.working (documents [entry])
        (s.working.libraries.rows.flatMap fun library => listMedia s.working library.id []))) := by
  refine (triple_turns (documents_alone entry) (turns_rule (untrackedRules s.working) entry)
    (fun acc => List.append_nil acc) ?_ _ s.working.libraries.unique [] hlive rfl).consequence
    (fun _ hs => hs) ?_ fun _ _ hs => hs
  · intro acc visits visits'
    rw [List.map_append, List.append_assoc]
  · rintro outcomes s' ⟨visits, hvisited, hvisits, rfl, -⟩
    have heffect := hvisits.effect (documents_alone entry)
      (visited_ids hvisited ▸ listing_nodup s.working s.working.libraries.unique)
    exact ⟨visits, hvisited, hvisits, hvisits.live (documents_alone entry) hlive,
      by rw [List.nil_append, List.length_map], matched_length heffect rfl⟩

theorem runnable_eq {t : Tables} {ruleId : String} {rule : Rule}
    (hfind : t.rules.find? ruleId = some rule) :
    PassCall.runnable t ruleId =
      if rule.enabled then rule.definition.map fun d => (rule, d) else none := by
  rw [PassCall.runnable, hfind]
  rfl

theorem triple_evaluateRule (ruleId : String) (hlive : s.Live) :
    Triple (· = s) (evaluateRule env ruleId)
      (fun n s' => ∃ entry, PassCall.runnable s.working ruleId = some entry ∧ ∃ visits,
        visits.map (·.1) =
          s.working.libraries.rows.flatMap (fun library => listMedia s.working library.id []) ∧
        Visits env (documents [entry]) visits s s' ∧ n = visits.length ∧
        ∀ rule ∈ s'.working.rules, rule.id = entry.1.id → rule.lastMatchCount =
          hits env.rt s.working entry (visits.map (·.1)))
      (fun _ _ => ¬ (Clean env ∧ ∃ entry, PassCall.runnable s.working ruleId = some entry ∧
        AllEvaluable env s.working (documents [entry])
          (s.working.libraries.rows.flatMap fun library => listMedia s.working library.id []))) := by
  refine Triple.seq ((triple_ask hlive _).consequence (fun _ hs => hs) (fun _ _ hs => hs)
    fun _ _ hdirty hgood => hdirty hgood.1) ?_
  rintro _ _ ⟨rfl, rfl⟩
  cases hfind : s.working.rules.find? ruleId with
  | none =>
    rintro _ _ ⟨-, entry, hsome, -⟩
    rw [PassCall.runnable, hfind] at hsome
    cases hsome
  | some rule =>
    rw [runnable_eq hfind]
    simp only []
    cases henabled : rule.enabled with
    | false =>
      rintro _ _ ⟨-, entry, hsome, -⟩
      cases hsome
    | true =>
      cases hdefinition : rule.definition with
      | none =>
        rintro _ _ ⟨-, entry, hsome, -⟩
        cases hsome
      | some definition =>
        refine Triple.seq ((triple_ask (s := { s with calls := s.calls + 1 }) hlive _).consequence
          (fun _ hs => hs) (fun _ _ hs => hs) fun _ _ hdirty hgood => hdirty hgood.1) ?_
        rintro _ _ ⟨rfl, rfl⟩
        refine Triple.bind (M := fun _ s' => s' = { s with calls := s.calls + 1 + 1 }) ?_
          fun now => ?_
        · exact fun _ hs => hs
        refine Triple.seq ((triple_ruleLibraries (s := { s with calls := s.calls + 1 + 1 })
          (rule, definition) hlive).consequence (fun _ hs => hs) (fun _ _ hs => hs)
          fun _ _ hstop hgood => hstop ⟨hgood.1, ?_⟩) ?_
        · obtain ⟨-, entry, hsome, hall⟩ := hgood
          obtain rfl := Option.some.inj hsome
          exact hall
        · rintro outcomes s₁ ⟨visits, hvisited, hvisits, hlive₁, hlength, hmatched⟩
          rw [hmatched]
          refine (triple_trackHits hlive₁ rule.id now _ _).consequence (fun _ hs => hs) ?_
            fun _ _ hdirty hgood => hdirty hgood.1
          rintro _ _ ⟨rfl, rfl⟩
          refine ⟨(rule, definition), rfl, visits, hvisited, ?_, hlength, ?_⟩
          · have hall := hvisits.trans (.tracks rule.id now
              (hits env.rt s.working (rule, definition) (visits.map (·.1))) (.asks (.done _)))
            rw [List.append_nil] at hall
            exact .asks (.asks hall)
          · intro rule' hrule' hid
            rcases mem_trackRule hrule' with ⟨-, hcount⟩ | ⟨hother, -⟩
            · exact hcount
            · exact absurd hid hother

end Runs

/-! ### The rows of a rule that ran alone -/

theorem row_unique {t : Tables} {e e' : RuleEvaluation} (he : e ∈ t.evaluations)
    (he' : e' ∈ t.evaluations) (hfile : e.mediaFileId = e'.mediaFileId)
    (hrule : e.ruleId = e'.ruleId) : e = e' :=
  Table.eq_of_key_eq he he' (Prod.ext hfile hrule)

theorem mem_rowsOf {t : Tables} {ruleId : String} {e : RuleEvaluation} :
    e ∈ rowsOf t ruleId ↔ e ∈ t.evaluations ∧ e.ruleId = ruleId := by
  simp [rowsOf, Table.mem_def]

theorem rowsOf_files_nodup (t : Tables) (ruleId : String) :
    ((rowsOf t ruleId).map (·.mediaFileId)).Nodup := by
  refine (List.nodup_map_iff_inj_on ((t.evaluations.unique.of_map _).filter _)).mpr ?_
  intro e he e' he' hfile
  obtain ⟨hmem, hrule⟩ := mem_rowsOf.mp he
  obtain ⟨hmem', hrule'⟩ := mem_rowsOf.mp he'
  exact row_unique hmem hmem' hfile (hrule.trans hrule'.symm)

theorem mem_rowsOf_files {t : Tables} {ruleId id : String} :
    id ∈ (rowsOf t ruleId).map (·.mediaFileId) ↔ HasRowOf t id ruleId := by
  constructor
  · intro hid
    obtain ⟨e, he, rfl⟩ := List.mem_map.mp hid
    obtain ⟨hmem, hrule⟩ := mem_rowsOf.mp he
    exact ⟨e, mem_evaluationsOf.mpr ⟨hmem, rfl⟩, hrule⟩
  · rintro ⟨e, he, hrule⟩
    obtain ⟨hmem, rfl⟩ := mem_evaluationsOf.mp he
    exact List.mem_map_of_mem (mem_rowsOf.mpr ⟨hmem, hrule⟩)

/-- A rule that deletes nothing has a row for each file it matched, and no other unless it had
    one for a file that was not evaluated. -/
theorem rowsOf_length {rt : PyRuntime} {t t' : Tables} {entry : Rule × RuleDefinition}
    {visits : List (MediaFile × FileOutcome)} {files : List MediaFile}
    (h : Effect rt (documents [entry]) visits t t') (hvisited : visits.map (·.1) = files)
    (hfiles : (files.map (·.id)).Nodup) (hharmless : Harmless (documents [entry]))
    (hstray : ∀ e ∈ t.evaluations, e.ruleId = entry.1.id → e.mediaFileId ∈ files.map (·.id)) :
    (rowsOf t' entry.1.id).length = hits rt t entry files := by
  have hids := visited_ids hvisited
  have hperm : ((rowsOf t' entry.1.id).map (·.mediaFileId)).Perm
      ((files.filter fun m => verdict rt (inputOf t m) entry.2.match_).map (·.id)) := by
    refine (List.perm_ext_iff_of_nodup (rowsOf_files_nodup _ _)
      (hfiles.sublist (List.filter_sublist.map _))).mpr fun id => ?_
    rw [mem_rowsOf_files]
    by_cases hid : id ∈ files.map (·.id)
    · rw [← hids] at hid
      obtain ⟨visit, hvisit, rfl⟩ := List.mem_map.mp hid
      rw [h.left hharmless visit hvisit entry.1.id List.mem_cons_self, h.matched visit hvisit,
        mem_matching_documents]
      constructor
      · intro hverdict
        refine List.mem_map_of_mem (f := MediaFile.id) (List.mem_filter.mpr ⟨?_, hverdict⟩)
        exact hvisited ▸ List.mem_map_of_mem hvisit
      · intro hmem
        obtain ⟨m, hm, hsame⟩ := List.mem_map.mp hmem
        obtain ⟨hfile, hverdict⟩ := List.mem_filter.mp hm
        have hmem' : visit.1 ∈ files := hvisited ▸ List.mem_map_of_mem hvisit
        rwa [List.inj_on_of_nodup_map hfiles hfile hmem' hsame] at hverdict
    · constructor
      · intro hrow
        rw [HasRowOf, h.rows id (hids ▸ hid)] at hrow
        obtain ⟨e, he, hrule⟩ := hrow
        obtain ⟨hmem, rfl⟩ := mem_evaluationsOf.mp he
        exact absurd (hstray e hmem hrule) hid
      · intro hmem
        obtain ⟨m, hm, rfl⟩ := List.mem_map.mp hmem
        exact absurd (List.mem_map_of_mem (List.mem_of_mem_filter hm)) hid
  have hlength := hperm.length_eq
  rwa [List.length_map, List.length_map] at hlength

/-! ### The three passes -/

/-- A pass of the service. -/
inductive Pass where
  | library (libraryId : String) (tagsAny : List String)
  | all
  | rule (ruleId : String)
deriving DecidableEq

namespace Pass

/-- The number of files it returns. -/
def run (env : Env) : Pass → Service Nat
  | .library libraryId tagsAny => evaluateLibrary env libraryId tagsAny
  | .all => do
      let counts ← evaluateAllLibraries env
      return counts.2
  | .rule ruleId => evaluateRule env ruleId

/-- The rules it runs. -/
def rules (t : Tables) : Pass → List (Rule × RuleDefinition)
  | .library _ _ | .all => loadEnabled t
  | .rule ruleId => (PassCall.runnable t ruleId).toList

/-- The files in its scope, library by library. -/
def scopes (t : Tables) : Pass → List (List MediaFile)
  | .library libraryId tagsAny => [candidates t libraryId tagsAny]
  | .all | .rule _ => t.libraries.rows.map fun library => candidates t library.id []

/-- The first page of each. -/
def visited (t : Tables) (pass : Pass) : List MediaFile :=
  (pass.scopes t).flatMap fun scope => (scope.insertionSort bySeverity).take PAGE_LIMIT

/-- The `last_match_count` it gives a rule. -/
def count (rt : PyRuntime) (t t' : Tables) (entry : Rule × RuleDefinition) : Pass → Nat
  | .library _ _ | .all => min PAGE_LIMIT (rowsOf t' entry.1.id).length
  | .rule ruleId => hits rt t entry (Pass.rule ruleId |>.visited t)

/-- There is something to run, and it can be run on every file of the first pages. -/
def Evaluable (env : Env) (t : Tables) (pass : Pass) : Prop :=
  (∀ ruleId, pass = .rule ruleId → (PassCall.runnable t ruleId).isSome) ∧
    AllEvaluable env t (pass.rules t) (pass.visited t)

/-- What a pass has done that returned. -/
structure Done (env : Env) (pass : Pass) (s s' : Session Tables Outside) : Prop where
  visits : ∃ visits, visits.map (·.1) = pass.visited s.working ∧
    Visits env (documents (pass.rules s.working)) visits s s'
  counts : s.working.libraries.rows ≠ [] ∨ pass ≠ .all → ∀ entry ∈ pass.rules s.working,
    ∃ rule ∈ s'.working.rules, untracked rule = untracked entry.1 ∧
      rule.lastMatchCount = pass.count env.rt s.working s'.working entry
  rows : ∀ ruleId, pass = .rule ruleId → ∀ entry ∈ pass.rules s.working, Harmless [entry] →
    (∀ e ∈ s.working.evaluations, e.ruleId = ruleId →
      e.mediaFileId ∈ (pass.visited s.working).map (·.id)) →
    (rowsOf s'.working ruleId).length = pass.count env.rt s.working s'.working entry

theorem visited_library (t : Tables) (libraryId : String) (tagsAny : List String) :
    (Pass.library libraryId tagsAny).visited t = listMedia t libraryId tagsAny :=
  List.append_nil _

theorem visited_libraries {t : Tables} (pass : Pass)
    (h : pass.scopes t = t.libraries.rows.map fun library => candidates t library.id []) :
    pass.visited t = t.libraries.rows.flatMap fun library => listMedia t library.id [] := by
  rw [visited, h, List.flatMap_map]
  rfl

theorem visited_nodup (t : Tables) (pass : Pass) : ((pass.visited t).map (·.id)).Nodup := by
  cases pass with
  | library libraryId tagsAny =>
    rw [visited_library]
    exact listMedia_nodup t libraryId tagsAny
  | all =>
    rw [visited_libraries _ rfl]
    exact listing_nodup t t.libraries.unique
  | rule ruleId =>
    rw [visited_libraries _ rfl]
    exact listing_nodup t t.libraries.unique

theorem exists_candidates {t : Tables} {pass : Pass} {scope : List MediaFile}
    (h : scope ∈ pass.scopes t) :
    ∃ libraryId tagsAny, scope = candidates t libraryId tagsAny := by
  cases pass with
  | library libraryId tagsAny => exact ⟨libraryId, tagsAny, List.mem_singleton.mp h⟩
  | all | rule _ =>
    obtain ⟨library, -, rfl⟩ := List.mem_map.mp h
    exact ⟨library.id, [], rfl⟩

theorem mem_visited {t : Tables} {pass : Pass} {m : MediaFile} :
    m ∈ pass.visited t ↔
      ∃ scope ∈ pass.scopes t, m ∈ scope ∧ ahead bySeverity scope m < PAGE_LIMIT := by
  rw [visited, List.mem_flatMap]
  refine exists_congr fun scope => and_congr_right fun hscope => ?_
  obtain ⟨libraryId, tagsAny, rfl⟩ := exists_candidates hscope
  exact mem_listMedia

end Pass

theorem mem_loadEnabled {t : Tables} {entry : Rule × RuleDefinition} (h : entry ∈ loadEnabled t) :
    entry.1 ∈ t.rules ∧ entry.1.enabled = true := by
  obtain ⟨rule, hrule, hsome⟩ := List.mem_filterMap.mp h
  obtain ⟨d, -, rfl⟩ := Option.map_eq_some_iff.mp hsome
  exact List.mem_filter.mp ((List.mem_insertionSort byPriority).mp hrule)

theorem of_runnable {t : Tables} {ruleId : String} {entry : Rule × RuleDefinition}
    (h : PassCall.runnable t ruleId = some entry) : entry.1 ∈ t.rules ∧ entry.1.id = ruleId := by
  obtain ⟨rule, hfind, hrest⟩ := Option.bind_eq_some_iff.mp h
  split at hrest
  · obtain ⟨d, -, rfl⟩ := Option.map_eq_some_iff.mp hrest
    exact Table.mem_of_find? hfind
  · cases hrest

theorem exists_rule {t t' : Tables} (hsame : untrackedRules t' = untrackedRules t) {rule : Rule}
    (hrule : rule ∈ t.rules) : ∃ rule' ∈ t'.rules, untracked rule' = untracked rule := by
  have hmem : untracked rule ∈ untrackedRules t' := hsame ▸ List.mem_map_of_mem hrule
  exact List.mem_map.mp hmem

theorem Counted.of_loaded {t t' : Tables} (h : Counted t')
    (hsame : untrackedRules t' = untrackedRules t) {entry : Rule × RuleDefinition}
    (hentry : entry ∈ loadEnabled t) : ∃ rule ∈ t'.rules, untracked rule = untracked entry.1 ∧
      rule.lastMatchCount = min PAGE_LIMIT (rowsOf t' entry.1.id).length := by
  obtain ⟨hrule, henabled⟩ := mem_loadEnabled hentry
  obtain ⟨rule, hmem, heq⟩ := exists_rule hsame hrule
  have hid : rule.id = entry.1.id := (congrArg Rule.id heq :)
  have hon : rule.enabled = true := (congrArg Rule.enabled heq :).trans henabled
  refine ⟨rule, hmem, heq, ?_⟩
  rw [← hid]
  exact h rule hmem hon

theorem allEvaluable_documents {env : Env} {t : Tables} {rules : List (Rule × RuleDefinition)}
    {files : List MediaFile} (h : AllEvaluable env t rules files) :
    AllEvaluable env t (documents rules) files := by
  intro m hm entry hentry
  obtain ⟨loaded, hloaded, rfl⟩ := List.mem_map.mp hentry
  exact h m hm loaded hloaded

theorem triple_pass (env : Env) (pass : Pass) {s : Session Tables Outside} (hlive : s.Live) :
    Triple (· = s) (pass.run env)
      (fun n s' => n = (pass.visited s.working).length ∧ pass.Done env s s')
      (fun _ _ => ¬ (Clean env ∧ pass.Evaluable env s.working)) := by
  cases pass with
  | library libraryId tagsAny =>
    refine (triple_evaluateLibrary_visits rfl libraryId tagsAny hlive).consequence (fun _ hs => hs)
      ?_ ?_
    · rintro n s' ⟨visits, hvisited, hvisits, rfl, hcounted⟩
      rw [← Pass.visited_library] at hvisited
      have heffect := hvisits.effect (documents_nodup s.working)
        (visited_ids hvisited ▸ Pass.visited_nodup s.working (.library libraryId tagsAny))
      refine ⟨by rw [← hvisited, List.length_map], ⟨visits, hvisited, hvisits⟩, ?_, ?_⟩
      · exact fun _ entry hentry => hcounted.of_loaded heffect.sameRules hentry
      · intro ruleId hno
        cases hno
    · rintro - - hstop ⟨hclean, -, hall⟩
      rw [Pass.visited_library] at hall
      exact hstop ⟨hclean, allEvaluable_documents hall⟩
  | all =>
    refine Triple.bind ((triple_evaluateAllLibraries hlive).consequence (fun _ hs => hs)
      (fun _ _ hs => hs) ?_) fun counts => triple_pure _ ?_
    · rintro - - hstop ⟨hclean, -, hall⟩
      rw [Pass.visited_libraries .all rfl] at hall
      exact hstop ⟨hclean, allEvaluable_documents hall⟩
    · rintro s' ⟨visits, hvisited, hvisits, rfl, hcounted⟩
      rw [← Pass.visited_libraries .all rfl] at hvisited
      have heffect := hvisits.effect (documents_nodup s.working)
        (visited_ids hvisited ▸ Pass.visited_nodup s.working .all)
      refine ⟨by rw [← hvisited, List.length_map], ⟨visits, hvisited, hvisits⟩, ?_, ?_⟩
      · intro hsome entry hentry
        exact (hcounted (hsome.resolve_right fun hne => hne rfl)).of_loaded heffect.sameRules hentry
      · intro ruleId hno
        cases hno
  | rule ruleId =>
    refine (triple_evaluateRule ruleId hlive).consequence (fun _ hs => hs) ?_ ?_
    · rintro n s' ⟨entry, hrunnable, visits, hvisited, hvisits, rfl, hcounts⟩
      rw [← Pass.visited_libraries (.rule ruleId) rfl] at hvisited
      have hrules : (Pass.rule ruleId).rules s.working = [entry] := by
        rw [Pass.rules, hrunnable]
        rfl
      obtain ⟨hrule, hid⟩ := of_runnable hrunnable
      have hdistinct := Pass.visited_nodup s.working (.rule ruleId)
      have heffect := hvisits.effect (documents_alone entry) (visited_ids hvisited ▸ hdistinct)
      refine ⟨by rw [← hvisited, List.length_map], ⟨visits, hvisited, hrules ▸ hvisits⟩, ?_, ?_⟩
      · intro _ loaded hloaded
        rw [hrules, List.mem_singleton] at hloaded
        subst hloaded
        obtain ⟨rule, hmem, heq⟩ := exists_rule heffect.sameRules hrule
        refine ⟨rule, hmem, heq, ?_⟩
        rw [hcounts rule hmem (congrArg Rule.id heq :), hvisited]
        rfl
      · rintro _ ⟨⟩ loaded hloaded hharmless hstray
        rw [hrules, List.mem_singleton] at hloaded
        subst hloaded
        rw [← hid] at hstray ⊢
        exact rowsOf_length heffect hvisited hdistinct
          (harmless_documents.mpr hharmless) hstray
    · rintro - - hstop ⟨hclean, hsome, hall⟩
      obtain ⟨entry, hrunnable⟩ := Option.isSome_iff_exists.mp (hsome ruleId rfl)
      rw [Pass.visited_libraries (.rule ruleId) rfl, Pass.rules, hrunnable] at hall
      exact hstop ⟨hclean, entry, hrunnable, allEvaluable_documents hall⟩

/-- A pass that returns has evaluated every file in its scope. -/
def EvaluatesScope (pass : Pass) : Prop :=
  ∀ (env : Env) (s : Session Tables Outside), s.Live → ∀ n, (pass.run env s).1 = .ok n →
    ∀ scope ∈ pass.scopes s.working, ∀ m ∈ scope, m ∈ pass.visited s.working

/-- A pass that returns has counted the rows of each rule it ran. -/
def CountsRows (pass : Pass) : Prop :=
  ∀ (env : Env) (s : Session Tables Outside), s.Live → ∀ n, (pass.run env s).1 = .ok n →
    ∀ entry ∈ pass.rules s.working, ∀ rule ∈ (pass.run env s).2.working.rules,
      rule.id = entry.1.id →
        rule.lastMatchCount = (rowsOf (pass.run env s).2.working rule.id).length

def fileName (i : Nat) : String := String.ofList (List.replicate (i + 1) 'a')

def crowdFile (i : Nat) : MediaFile := .unprobed (fileName i) "l1" ("/media/" ++ fileName i) "avi"

def crowd (n : Nat) : List MediaFile := (List.range n).map crowdFile

def crowdRow (m : MediaFile) : RuleEvaluation := ⟨m.id, "crit", .crit, 100, ⟨[], [], []⟩, 0⟩

section Crowd

variable (n : Nat)

theorem crowd_ids : ((crowd n).map MediaFile.id).Nodup := by
  apply List.Nodup.of_map String.length
  have hlengths : ((crowd n).map MediaFile.id).map String.length = (List.range n).map (· + 1) := by
    rw [crowd, List.map_map, List.map_map]
    refine List.map_congr_left fun i _ => ?_
    simp [crowdFile, MediaFile.unprobed, fileName]
  rw [hlengths]
  exact List.nodup_range.map fun i j h => Nat.succ.inj h

theorem crowd_paths : ((crowd n).map MediaFile.path).Nodup := by
  apply List.Nodup.of_map String.length
  have hlengths : ((crowd n).map MediaFile.path).map String.length =
      (List.range n).map (7 + (· + 1)) := by
    rw [crowd, List.map_map, List.map_map]
    refine List.map_congr_left fun i _ => ?_
    show ("/media/" ++ fileName i).length = 7 + (i + 1)
    rw [String.length_append]
    simp only [fileName, String.length_ofList, List.length_replicate]
    rfl
  rw [hlengths]
  exact List.nodup_range.map fun i j h => Nat.succ.inj (Nat.add_left_cancel h)

theorem crowdRows_keys :
    (((crowd n).map crowdRow).map fun e => (e.mediaFileId, e.ruleId)).Nodup := by
  apply List.Nodup.of_map Prod.fst
  rw [List.map_map, List.map_map]
  exact crowd_ids n

/-- All the files match the rule and have a row of it. -/
def crowdedTables : Tables :=
  { Tables.empty with
    libraries := ⟨[movies], movies_alone⟩
    media := ⟨crowd n, crowd_ids n⟩
    media_path_unique := crowd_paths n
    rules := ⟨[storedRule "crit" aviIsCrit], List.nodup_singleton _⟩
    evaluations := ⟨(crowd n).map crowdRow, crowdRows_keys n⟩ }

theorem crowd_candidates : candidates (crowdedTables n) "l1" [] = crowd n := by
  refine List.filter_eq_self.mpr fun m hm => ?_
  obtain ⟨i, -, rfl⟩ := List.mem_map.mp (show m ∈ crowd n from hm)
  simp [crowdFile, MediaFile.unprobed]

theorem crowd_length : (crowd n).length = n := by
  rw [crowd, List.length_map, List.length_range]

theorem crowd_matches {m : MediaFile} (hm : m ∈ crowd n) (t : Tables) :
    evaluable calmEnv.rt (inputOf t m) aviIsCrit.match_ = true ∧
      verdict calmEnv.rt (inputOf t m) aviIsCrit.match_ = true := by
  obtain ⟨i, -, rfl⟩ := List.mem_map.mp hm
  exact ⟨rfl, rfl⟩

theorem crowd_rules : loadEnabled (crowdedTables n) = [(storedRule "crit" aviIsCrit, aviIsCrit)] :=
  rfl

end Crowd

/-- A pass over these files by the rule. -/
structure OverCrowd (pass : Pass) : Prop where
  scopes : ∀ n, pass.scopes (crowdedTables n) = [crowd n]
  rules : ∀ n, pass.rules (crowdedTables n) = [(storedRule "crit" aviIsCrit, aviIsCrit)]
  runnable : ∀ n ruleId, pass = .rule ruleId →
    (PassCall.runnable (crowdedTables n) ruleId).isSome

section OverCrowd

variable {n : Nat} {pass : Pass} (h : OverCrowd pass)

include h

theorem OverCrowd.visited (n : Nat) : pass.visited (crowdedTables n) =
    ((crowd n).insertionSort bySeverity).take PAGE_LIMIT := by
  rw [Pass.visited, h.scopes n]
  exact List.append_nil _

theorem OverCrowd.visited_length (n : Nat) :
    (pass.visited (crowdedTables n)).length ≤ PAGE_LIMIT := by
  rw [h.visited]
  exact List.length_take_le _ _

theorem OverCrowd.mem_crowd {m : MediaFile} (hm : m ∈ pass.visited (crowdedTables n)) :
    m ∈ crowd n := by
  rw [h.visited] at hm
  exact (List.mem_insertionSort bySeverity).mp (List.mem_of_mem_take hm)

theorem OverCrowd.returns (n : Nat) :
    ∃ files, (pass.run calmEnv (freshSession (crowdedTables n))).1 = .ok files := by
  have hends := triple_pass calmEnv pass (freshSession_live (crowdedTables n)) _ rfl
  rcases hrun : (pass.run calmEnv (freshSession (crowdedTables n))).1 with e | files
  · rw [hrun] at hends
    refine absurd ⟨⟨fun _ => rfl, fun _ => rfl⟩, h.runnable n, fun m hm entry hentry => ?_⟩ hends
    rw [show (freshSession (crowdedTables n)).working = crowdedTables n from rfl, h.rules,
      List.mem_singleton] at hentry
    subst hentry
    exact (crowd_matches n (h.mem_crowd hm) _).1
  · exact ⟨files, rfl⟩

theorem OverCrowd.rows {s : Session Tables Outside} {visits : List (MediaFile × FileOutcome)}
    (hvisited : visits.map (·.1) = pass.visited (crowdedTables n))
    (hvisits : Visits calmEnv (documents (pass.rules (crowdedTables n))) visits
      (freshSession (crowdedTables n)) s) : n ≤ (rowsOf s.working "crit").length := by
  rw [h.rules] at hvisits
  have heffect := hvisits.effect (documents_alone _)
    (visited_ids hvisited ▸ Pass.visited_nodup (crowdedTables n) pass)
  have hharmless : Harmless [(storedRule "crit" aviIsCrit, aviIsCrit)] := by
    intro entry hentry action haction
    rw [List.mem_singleton.mp hentry] at haction
    rw [List.mem_singleton.mp haction]
    rfl
  have hsub : (crowd n).map MediaFile.id ⊆ (rowsOf s.working "crit").map (·.mediaFileId) := by
    intro id hid
    rw [mem_rowsOf_files]
    by_cases hvisit : id ∈ visits.map (·.1.id)
    · obtain ⟨visit, hmem, rfl⟩ := List.mem_map.mp hvisit
      have hfile : visit.1 ∈ crowd n := h.mem_crowd (hvisited ▸ List.mem_map_of_mem hmem)
      refine (heffect.left (harmless_documents.mpr hharmless) visit hmem "crit"
        List.mem_cons_self).mpr ?_
      rw [heffect.matched visit hmem]
      exact mem_matching_documents.mpr (crowd_matches n hfile _).2
    · obtain ⟨m, hm, rfl⟩ := List.mem_map.mp hid
      rw [HasRowOf, heffect.rows _ hvisit]
      refine ⟨crowdRow m, mem_evaluationsOf.mpr ⟨?_, rfl⟩, rfl⟩
      exact List.mem_map_of_mem hm
  have hlength := ((crowd_ids n).subperm hsub).length_le
  rwa [List.length_map, List.length_map, crowd_length] at hlength

theorem OverCrowd.not_evaluatesScope : ¬ EvaluatesScope pass := by
  intro hall
  have hmore : ∀ n, PAGE_LIMIT < n → False := by
    intro n hn
    obtain ⟨files, hrun⟩ := h.returns n
    have hsub : crowd n ⊆ pass.visited (crowdedTables n) := by
      intro m hm
      refine hall calmEnv (freshSession (crowdedTables n)) (freshSession_live _) files hrun (crowd n)
        ?_ m hm
      rw [show (freshSession (crowdedTables n)).working = crowdedTables n from rfl, h.scopes]
      exact List.mem_singleton_self _
    have hlength := (((crowd_ids n).of_map _).subperm hsub).length_le
    rw [crowd_length] at hlength
    exact absurd (hlength.trans (h.visited_length n)) (Nat.not_le.mpr hn)
  exact hmore _ (Nat.lt_succ_self _)

theorem OverCrowd.not_countsRows : ¬ CountsRows pass := by
  intro hall
  have hmore : ∀ n, PAGE_LIMIT < n → False := by
    intro n hn
    let s := freshSession (crowdedTables n)
    have hlive : s.Live := freshSession_live _
    obtain ⟨files, hrun⟩ := h.returns n
    have hdone := (Ends.of_ok (triple_pass calmEnv pass hlive s rfl) hrun).2
    obtain ⟨visits, hvisited, hvisits⟩ := hdone.visits
    have hrows := h.rows hvisited hvisits
    have hentry : (storedRule "crit" aviIsCrit, aviIsCrit) ∈ pass.rules s.working := by
      rw [show s.working = crowdedTables n from rfl, h.rules]
      exact List.mem_singleton_self _
    obtain ⟨rule, hrule, heq, hcount⟩ := hdone.counts (.inl (List.cons_ne_nil _ _)) _ hentry
    have hid : rule.id = "crit" := (congrArg Rule.id heq :)
    have hclaimed := hall calmEnv s hlive files hrun _ hentry rule hrule hid
    rw [hid, hcount] at hclaimed
    have hle : pass.count calmEnv.rt s.working (pass.run calmEnv s).2.working
        (storedRule "crit" aviIsCrit, aviIsCrit) ≤ PAGE_LIMIT := by
      cases pass with
      | library _ _ | all => exact Nat.min_le_left _ _
      | rule ruleId => exact (List.length_filter_le _ _).trans (h.visited_length n)
    rw [hclaimed] at hle
    exact absurd (hrows.trans hle) (Nat.not_le.mpr hn)
  exact hmore _ (Nat.lt_succ_self _)

end OverCrowd

theorem overCrowd_library : OverCrowd (.library "l1" []) where
  scopes n := congrArg (fun scope => [scope]) (crowd_candidates n)
  rules n := crowd_rules n
  runnable _ _ hno := by cases hno

theorem overCrowd_all : OverCrowd .all where
  scopes n := congrArg (fun scope => [scope]) (crowd_candidates n)
  rules n := crowd_rules n
  runnable _ _ hno := by cases hno

theorem overCrowd_rule : OverCrowd (.rule "crit") where
  scopes n := congrArg (fun scope => [scope]) (crowd_candidates n)
  rules _ := rfl
  runnable _ _ heq := by
    cases heq
    rfl

theorem not_countsRows_delete : ¬ CountsRows (.rule "delete") := by
  intro hall
  have hreturns : ((Pass.rule "delete").run calmEnv
      (freshSession TrashDurability.deletingTables)).1 = .ok 2 := by
    decide +kernel
  have hrule : ∃ rule ∈ ((Pass.rule "delete").run calmEnv
      (freshSession TrashDurability.deletingTables)).2.working.rules.rows,
      rule.id = "delete" ∧ rule.lastMatchCount ≠ (rowsOf ((Pass.rule "delete").run calmEnv
        (freshSession TrashDurability.deletingTables)).2.working rule.id).length := by
    decide +kernel
  obtain ⟨rule, hmem, hid, hne⟩ := hrule
  exact hne (hall calmEnv (freshSession TrashDurability.deletingTables) (freshSession_live _) 2
    hreturns (storedRule "delete" TrashDurability.deleteAvi, TrashDurability.deleteAvi)
    List.mem_cons_self rule hmem hid)

end PassCoverage
