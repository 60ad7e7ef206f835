/-
  Auditarr/RuleBundles.lean
  =========================
  **Exporting rules and importing them again** (`app/api/v1/rules.py`: `export_rules`,
  `import_rules`).

  The entries of an exported bundle have different names, since those of the rules differ.  What
  importing such a bundle makes of the rule of a name then depends on the one entry with that name
  and on the rule that was there, so that a second import of the same bundle changes nothing, and
  an empty table exports what it imported.
-/
import Mathlib.Data.List.Sort
import Mathlib.Data.String.Basic
import Auditarr.RuleImport

namespace RuleBundles

open KeyedTable RuleDocument RuleImport

/-! ### The export -/

/-- `order_by(Rule.priority, Rule.name)`. -/
def byPriority (a b : Rule) : Prop :=
  a.body.priority < b.body.priority ∨ a.body.priority = b.body.priority ∧ a.name ≤ b.name

instance : DecidableRel byPriority := fun a b =>
  inferInstanceAs (Decidable (a.body.priority < b.body.priority ∨
    a.body.priority = b.body.priority ∧ a.name ≤ b.name))

instance : IsTrans Rule byPriority where
  trans a b c hab hbc := by
    rcases hab with hab | ⟨hab, hname⟩ <;> rcases hbc with hbc | ⟨hbc, hname'⟩
    · exact .inl (hab.trans hbc)
    · exact .inl (hbc ▸ hab)
    · exact .inl (hab ▸ hbc)
    · exact .inr ⟨hab.trans hbc, hname.trans hname'⟩

instance : Std.Total byPriority where
  total a b := by
    rcases lt_trichotomy a.body.priority b.body.priority with hlt | heq | hgt
    · exact .inl (.inl hlt)
    · rcases le_total a.name b.name with hle | hle
      · exact .inl (.inr ⟨heq, hle⟩)
      · exact .inr (.inr ⟨heq.symm, hle⟩)
    · exact .inr (.inl hgt)

/-- `RuleRepository.list_all`. -/
def listAll (rules : Table Rule.name) : List Rule := rules.rows.insertionSort byPriority

/-- `RuleExportEntry(…)`, which refuses a name or a priority out of its bounds. -/
def exportEntry (rule : Rule) : Option RuleExportEntry :=
  if h : (1 ≤ rule.name.length ∧ rule.name.length ≤ 120) ∧
      (0 ≤ rule.body.priority ∧ rule.body.priority ≤ 10000) then
    some ⟨rule.name, rule.body, h.1, h.2⟩
  else none

/-- `export_rules`. -/
def exportRules (includeBuiltins : Bool) (rules : Table Rule.name) :
    Option (List RuleExportEntry) :=
  ((listAll rules).filter fun rule => includeBuiltins || !rule.isBuiltin).mapM exportEntry

theorem exportEntry_some {rule : Rule} {entry : RuleExportEntry}
    (h : exportEntry rule = some entry) : entry.name = rule.name ∧ entry.body = rule.body := by
  unfold exportEntry at h
  split at h
  · cases h
    exact ⟨rfl, rfl⟩
  · cases h

theorem exportEntry_isSome {rule : Rule} {entry : RuleExportEntry} (hname : rule.name = entry.name)
    (hbody : rule.body = entry.body) : exportEntry rule = some entry := by
  have hbounds : (1 ≤ rule.name.length ∧ rule.name.length ≤ 120) ∧
      (0 ≤ rule.body.priority ∧ rule.body.priority ≤ 10000) := by
    rw [hname, hbody]
    exact ⟨entry.name_length, entry.priority_range⟩
  rw [exportEntry, dif_pos hbounds]
  cases entry
  cases hname
  cases hbody
  rfl

theorem mapM_exportEntry {listed : List Rule} {entries : List RuleExportEntry} :
    listed.mapM exportEntry = some entries ↔
      listed.Forall₂ (fun rule entry => exportEntry rule = some entry) entries := by
  induction listed generalizing entries with
  | nil => simp [eq_comm]
  | cons rule rest ih =>
    simp only [List.mapM_cons, Option.bind_eq_bind, Option.bind_eq_some_iff, Option.pure_def,
      Option.some.injEq, List.forall₂_cons_left_iff, ih]
    constructor
    · rintro ⟨entry, hentry, others, hothers, rfl⟩
      exact ⟨entry, others, hentry, hothers, rfl⟩
    · rintro ⟨entry, others, hentry, hothers, rfl⟩
      exact ⟨entry, hentry, others, hothers, rfl⟩

theorem mem_exported {listed : List Rule} {entries : List RuleExportEntry}
    (h : listed.Forall₂ (fun rule entry => exportEntry rule = some entry) entries)
    (entry : RuleExportEntry) :
    entry ∈ entries ↔ ∃ rule ∈ listed, exportEntry rule = some entry := by
  induction h with
  | nil => simp
  | cons hentry _ ih =>
    rw [List.mem_cons, ih, List.exists_mem_cons_iff, hentry, Option.some_inj, eq_comm]

theorem exportRules_nodup {includeBuiltins : Bool} {rules : Table Rule.name}
    {entries : List RuleExportEntry} (h : exportRules includeBuiltins rules = some entries) :
    (entries.map (·.name)).Nodup := by
  have hnames : ∀ {listed : List Rule} {entries : List RuleExportEntry},
      listed.Forall₂ (fun rule entry => exportEntry rule = some entry) entries →
        entries.map (·.name) = listed.map Rule.name := by
    intro listed entries hall
    induction hall with
    | nil => rfl
    | cons hentry _ ih => rw [List.map_cons, List.map_cons, ih, (exportEntry_some hentry).1]
  rw [hnames (mapM_exportEntry.mp h)]
  refine List.Nodup.sublist (List.filter_sublist.map Rule.name) ?_
  exact ((List.perm_insertionSort byPriority rules.rows).map Rule.name).nodup_iff.mpr rules.unique

/-! ### What an import makes of a name -/

/-- What an import sets, and whether the rule is a built-in one. -/
def contentOf (rules : Table Rule.name) (name : String) : Option (RuleBody × Bool) :=
  (rules.find? name).map fun rule => (rule.body, rule.isBuiltin)

/-- What becomes of the rule with the name of an entry. -/
def mergeEntry (onConflict : OnConflict) (entry : RuleExportEntry) :
    Option (RuleBody × Bool) → RuleBody × Bool
  | none => (entry.body, false)
  | some (body, builtin) =>
      if onConflict = .overwrite ∧ builtin = false then (entry.body, false) else (body, builtin)

/-- What a bundle makes of the rule with a name: the valid entry with the name decides. -/
def merged (env : Env) (onConflict : OnConflict) (entries : List RuleExportEntry)
    (content : String → Option (RuleBody × Bool)) (name : String) : Option (RuleBody × Bool) :=
  match entries.find? fun entry => entry.name = name && isValid env entry with
  | none => content name
  | some entry => some (mergeEntry onConflict entry (content name))

theorem mergeEntry_mergeEntry (onConflict : OnConflict) (entry : RuleExportEntry)
    (content : Option (RuleBody × Bool)) :
    mergeEntry onConflict entry (some (mergeEntry onConflict entry content)) =
      mergeEntry onConflict entry content := by
  rcases content with - | ⟨body, builtin⟩
  · simp [mergeEntry]
  · by_cases h : onConflict = .overwrite ∧ builtin = false
    · simp [mergeEntry, h]
    · simp [mergeEntry, if_neg h]

theorem merged_merged (env : Env) (onConflict : OnConflict) (entries : List RuleExportEntry)
    (content : String → Option (RuleBody × Bool)) :
    merged env onConflict entries (merged env onConflict entries content) =
      merged env onConflict entries content := by
  funext name
  cases hfind : entries.find? fun entry => entry.name = name && isValid env entry with
  | none => simp only [merged, hfind]
  | some entry => simp only [merged, hfind, mergeEntry_mergeEntry]

section Import

variable (env : Env) {onConflict : OnConflict}

theorem contentOf_addRule (index : Nat) {entry : RuleExportEntry} {b : Batch}
    (hfree : b.rules.find? entry.name = none) :
    ∃ b', addRule env index entry entry.name .created b = .ok b' ∧
      ∀ name, contentOf b'.rules name =
        if entry.name = name then some (entry.body, false) else contentOf b.rules name := by
  rcases addRule_cases env index entry entry.name .created b with
    ⟨hnamed, -⟩ | ⟨hunfit, -, -⟩ | ⟨b', rule, hname, hrun, hadds, -⟩
  · simpa [hfree] using named_iff_find.mp hnamed
  · rw [env.fits_short _ entry.name_length.2] at hunfit
    cases hunfit
  · refine ⟨b', hrun, fun name => ?_⟩
    simp only [contentOf, hadds.rules, Table.find?_upsert, hname]
    by_cases hsame : entry.name = name
    · simp [hsame, hadds.body, hadds.custom]
    · simp [hsame, Ne.symm hsame]

theorem contentOf_overwriteRule {entry : RuleExportEntry} {b : Batch} {existing : Rule}
    (hfind : b.rules.find? entry.name = some existing) (hcustom : existing.isBuiltin = false)
    (name : String) :
    contentOf (overwriteRule entry b).rules name =
      if entry.name = name then some (entry.body, false) else contentOf b.rules name := by
  simp only [contentOf, overwriteRule, Table.find?_update]
  by_cases hname : entry.name = name
  · subst hname
    simp [hfind, hcustom, (Table.mem_of_find? hfind).2]
  · rw [if_neg hname]
    cases hother : b.rules.find? name with
    | none => rfl
    | some rule =>
      have hkey : rule.name ≠ entry.name := by
        rw [(Table.mem_of_find? hother).2]
        exact Ne.symm hname
      simp [hkey]

theorem importEntry_merges (hstrategy : onConflict ≠ .rename) (index : Nat)
    (entry : RuleExportEntry) {b : Batch} (hflushed : Flushed b) :
    ∃ b', importEntry env onConflict index entry b = .ok b' ∧
      ∀ name, contentOf b'.rules name = merged env onConflict [entry] (contentOf b.rules) name := by
  unfold importEntry merged
  cases hvalid : isValid env entry with
  | false => exact ⟨_, if_neg Bool.false_ne_true, fun name => by simp [hvalid, Batch.report]⟩
  | true =>
    rw [if_pos rfl]
    simp only [List.find?_singleton, hvalid, Bool.and_true, decide_eq_true_eq]
    cases hfind : b.rules.find? entry.name with
    | none =>
      have hunminted : entry.name ∉ b.minted := by
        intro hmem
        simpa [hfind] using named_iff_find.mp (hflushed _ hmem)
      simp only [if_neg hunminted]
      obtain ⟨b', hrun, hcontent⟩ := contentOf_addRule env index hfind
      refine ⟨b', hrun, fun name => ?_⟩
      rw [hcontent]
      by_cases hname : entry.name = name
      · subst hname
        simp [contentOf, hfind, mergeEntry]
      · simp [hname]
    | some existing =>
      have hkept : ∀ outcome : RuleImportOutcome, ∀ name,
          contentOf (b.report outcome).rules name = contentOf b.rules name := fun _ _ => rfl
      have hsame : ¬(onConflict = .overwrite ∧ existing.isBuiltin = false) → ∀ name,
          contentOf b.rules name = match (if entry.name = name then some entry else none) with
            | none => contentOf b.rules name
            | some entry => some (mergeEntry onConflict entry (contentOf b.rules name)) := by
        intro hnot name
        by_cases hname : entry.name = name
        · subst hname
          simp [contentOf, hfind, mergeEntry, hnot]
        · simp [hname]
      cases onConflict with
      | rename => exact absurd rfl hstrategy
      | skip => exact ⟨_, rfl, fun name => (hkept _ name).trans (hsame (by simp) name)⟩
      | overwrite =>
        cases hbuiltin : existing.isBuiltin with
        | true =>
          exact ⟨_, if_pos hbuiltin, fun name =>
            (hkept _ name).trans (hsame (by simp [hbuiltin]) name)⟩
        | false =>
          refine ⟨_, if_neg (by simp [hbuiltin]), fun name => ?_⟩
          refine (contentOf_overwriteRule hfind hbuiltin name).trans ?_
          by_cases hname : entry.name = name
          · subst hname
            simp [contentOf, hfind, mergeEntry, hbuiltin]
          · simp [hname]

theorem merged_cons {entry : RuleExportEntry} {rest : List RuleExportEntry}
    (hdistinct : ∀ other ∈ rest, other.name ≠ entry.name)
    (content : String → Option (RuleBody × Bool)) :
    merged env onConflict rest (merged env onConflict [entry] content) =
      merged env onConflict (entry :: rest) content := by
  funext name
  by_cases hname : (decide (entry.name = name) && isValid env entry) = true
  · have hothers : rest.find? (fun other => other.name = name && isValid env other) = none := by
      rw [List.find?_eq_none]
      intro other hother
      have hne := hdistinct other hother
      simp only [Bool.and_eq_true, decide_eq_true_eq] at hname ⊢
      rw [← hname.1]
      exact fun h => hne h.1
    simp only [merged, hothers, List.find?_cons, hname]
  · simp only [merged, List.find?_cons, hname, List.find?_nil]

theorem importFrom_merges (hstrategy : onConflict ≠ .rename) {entries : List RuleExportEntry}
    (hdistinct : (entries.map (·.name)).Nodup) (index : Nat) {b : Batch} (hflushed : Flushed b) :
    ∃ b', importFrom env onConflict index entries b = .ok b' ∧
      contentOf b'.rules = merged env onConflict entries (contentOf b.rules) := by
  induction entries generalizing index b with
  | nil => exact ⟨b, rfl, rfl⟩
  | cons entry rest ih =>
    obtain ⟨hfresh, hrest⟩ := List.nodup_cons.mp hdistinct
    obtain ⟨mid, hentry, hmid⟩ := importEntry_merges env hstrategy index entry hflushed
    have hflushed' : Flushed mid := by
      rcases importEntry_cases env onConflict index entry hflushed with
        ⟨mid', hentry', hchange, -⟩ | ⟨hrename, -⟩
      · rw [hentry] at hentry'
        cases hentry'
        exact hchange.flushed hflushed
      · exact absurd hrename hstrategy
    obtain ⟨b', hrun, hcontent⟩ := ih hrest (index + 1) hflushed'
    refine ⟨b', ?_, ?_⟩
    · rw [importFrom_cons, hentry]
      exact hrun
    · rw [hcontent, funext hmid]
      apply merged_cons
      intro other hother heq
      exact hfresh (List.mem_map.mpr ⟨other, hother, heq⟩)

theorem importRules_merges (hstrategy : onConflict ≠ .rename) {entries : List RuleExportEntry}
    (hdistinct : (entries.map (·.name)).Nodup) (target : Table Rule.name) :
    ∃ response, importRules env ⟨"1", entries, onConflict⟩ target =
        .ok (response, rulesAfter env ⟨"1", entries, onConflict⟩ target) ∧
      contentOf (rulesAfter env ⟨"1", entries, onConflict⟩ target) =
        merged env onConflict entries (contentOf target) := by
  obtain ⟨b, hrun, hcontent⟩ := importFrom_merges env hstrategy hdistinct 0
    (flushed_start target)
  have himport : importRules env ⟨"1", entries, onConflict⟩ target =
      .ok (⟨b.tally .created, b.tally .skipped, b.tally .renamed, b.tally .overwritten,
        b.tally .error, b.outcomes⟩, b.rules) := by
    rw [importRules, if_pos rfl, hrun]
    rfl
  have hafter : rulesAfter env ⟨"1", entries, onConflict⟩ target = b.rules := by
    rw [rulesAfter, himport]
  rw [hafter]
  exact ⟨_, himport, hcontent⟩

end Import

/-! ### Copies -/

section Copies

/-- The key of the order, which a rule and its entry share. -/
def orderKey (name : String) (body : RuleBody) : Int × String := (body.priority, name)

def keyOrder (a b : Int × String) : Prop := a.1 < b.1 ∨ a.1 = b.1 ∧ a.2 ≤ b.2

theorem orderKeys_eq {listed : List Rule} {entries : List RuleExportEntry}
    (h : listed.Forall₂ (fun rule entry => exportEntry rule = some entry) entries) :
    entries.map (fun entry => orderKey entry.name entry.body) =
      listed.map fun rule => orderKey rule.name rule.body := by
  induction h with
  | nil => rfl
  | cons hentry _ ih =>
    obtain ⟨hname, hbody⟩ := exportEntry_some hentry
    rw [List.map_cons, List.map_cons, ih, hname, hbody]

theorem exportRules_sorted {includeBuiltins : Bool} {rules : Table Rule.name}
    {entries : List RuleExportEntry} (h : exportRules includeBuiltins rules = some entries) :
    (entries.map fun entry => orderKey entry.name entry.body).Pairwise keyOrder := by
  rw [orderKeys_eq (mapM_exportEntry.mp h), List.pairwise_map]
  exact (List.pairwise_insertionSort byPriority rules.rows).sublist List.filter_sublist

theorem eq_of_sorted {entries entries' : List RuleExportEntry}
    (hdistinct : (entries.map (·.name)).Nodup)
    (hsorted : (entries.map fun entry => orderKey entry.name entry.body).Pairwise keyOrder)
    (hdistinct' : (entries'.map (·.name)).Nodup)
    (hsorted' : (entries'.map fun entry => orderKey entry.name entry.body).Pairwise keyOrder)
    (hsame : ∀ entry, entry ∈ entries' ↔ entry ∈ entries) : entries' = entries := by
  have hperm : entries'.Perm entries :=
    (List.perm_ext_iff_of_nodup hdistinct'.of_map hdistinct.of_map).mpr hsame
  rw [List.pairwise_map] at hsorted hsorted'
  refine hperm.eq_of_pairwise ?_ hsorted' hsorted
  intro a b ha hb hab hba
  have hname : a.name = b.name := by
    rcases hab with hlt | ⟨heq, hle⟩
    · rcases hba with hlt' | ⟨heq', -⟩
      · exact absurd (hlt.trans hlt') (lt_irrefl _)
      · exact absurd heq'.symm hlt.ne
    · rcases hba with hlt' | ⟨-, hle'⟩
      · exact absurd heq.symm hlt'.ne
      · exact le_antisymm hle hle'
  exact List.inj_on_of_nodup_map hdistinct ((hsame a).mp ha) hb hname

theorem exportRules_of_content {entries : List RuleExportEntry} {copy : Table Rule.name}
    (hdistinct : (entries.map (·.name)).Nodup)
    (hsorted : (entries.map fun entry => orderKey entry.name entry.body).Pairwise keyOrder)
    (hcontent : ∀ name, contentOf copy name =
      (entries.find? fun entry => entry.name = name).map fun entry => (entry.body, false))
    (includeBuiltins : Bool) : exportRules includeBuiltins copy = some entries := by
  have hrule : ∀ rule ∈ copy, rule.isBuiltin = false ∧
      ∃ entry ∈ entries, exportEntry rule = some entry := by
    intro rule hmem
    have hfound := hcontent rule.name
    rw [contentOf, Table.find?_eq_some.mpr ⟨hmem, rfl⟩, Option.map_some, eq_comm,
      Option.map_eq_some_iff] at hfound
    obtain ⟨entry, hentry, heq⟩ := hfound
    have hname : entry.name = rule.name := by simpa using List.find?_some hentry
    obtain ⟨hbody, hcustom⟩ := Prod.mk.inj heq
    exact ⟨hcustom.symm, entry, List.mem_of_find?_eq_some hentry,
      exportEntry_isSome hname.symm hbody.symm⟩
  have hall : (listAll copy).filter (fun rule => includeBuiltins || !rule.isBuiltin) =
      listAll copy := by
    rw [List.filter_eq_self]
    intro rule hmem
    simp [(hrule rule (List.mem_insertionSort _ |>.mp hmem)).1]
  obtain ⟨entries', hexport⟩ : ∃ entries', (listAll copy).mapM exportEntry = some entries' := by
    have hlisted : ∀ listed : List Rule, (∀ rule ∈ listed, rule ∈ copy) →
        ∃ entries', listed.mapM exportEntry = some entries' := by
      intro listed hlisted
      induction listed with
      | nil => exact ⟨[], rfl⟩
      | cons rule rest ih =>
        obtain ⟨others, hothers⟩ := ih fun r hr => hlisted r (List.mem_cons_of_mem _ hr)
        obtain ⟨-, entry, -, hentry⟩ := hrule rule (hlisted rule (List.mem_cons_self ..))
        exact ⟨entry :: others, by simp [List.mapM_cons, hentry, hothers]⟩
    exact hlisted _ fun rule hmem => List.mem_insertionSort _ |>.mp hmem
  have hexport' : exportRules includeBuiltins copy = some entries' := by
    rw [exportRules, hall, hexport]
  rw [hexport', eq_of_sorted hdistinct hsorted (exportRules_nodup hexport')
    (exportRules_sorted hexport')]
  intro entry
  rw [mem_exported (mapM_exportEntry.mp hexport)]
  constructor
  · rintro ⟨rule, hlisted, hentry⟩
    obtain ⟨-, other, hother, hsame⟩ := hrule rule (List.mem_insertionSort _ |>.mp hlisted)
    rw [hentry] at hsame
    cases hsame
    exact hother
  · intro hmem
    have hfind : entries.find? (fun other => other.name = entry.name) = some entry :=
      find?_of_mem hdistinct hmem
    have hfound := hcontent entry.name
    rw [hfind, Option.map_some, contentOf, Option.map_eq_some_iff] at hfound
    obtain ⟨rule, hrow, heq⟩ := hfound
    obtain ⟨hcopy, hname⟩ := Table.mem_of_find? hrow
    exact ⟨rule, List.mem_insertionSort _ |>.mpr hcopy,
      exportEntry_isSome hname (Prod.mk.inj heq).1⟩

end Copies

/-- A table with one rule of an operator. -/
def flagRules : Table Rule.name :=
  ⟨[⟨"r9", "Flag AVI", ⟨none, true, 10, flagDefinition⟩, false⟩], List.nodup_singleton _⟩

end RuleBundles
