/-
  Auditarr/DashboardStats.lean
  ============================
  **The numbers of the dashboard** (`app/services/dashboard/stats.py`).

  The tiles, the badges of the sidebar and the list of libraries are answered by queries of their
  own.  One counts the files by the label of their severity, one by its rank, and one by library
  and label.  They agree in every state that scans and rules reach without giving a row a rank
  that is not of its label.
-/
import Auditarr.Grouping
import Auditarr.SeverityRank
import Auditarr.SqlJoin

namespace DashboardStats

open Database Grouping KeyedTable RuleSchema SeverityRank Transactions
open RulesService (Outside freshSession)
open Scanner (mediaLibrary oneFileEnv scannedTables)

/-! ### The queries -/

/-- `SELECT severity, count(id) … GROUP BY severity`. -/
def severityEntries (t : Tables) : List (Severity × Nat) :=
  t.media.rows.map fun m => (m.severity, 1)

/-- `SELECT status, count(id) … GROUP BY status`. -/
def statusEntries (t : Tables) : List (ItemStatus × Nat) := t.items.rows.map fun i => (i.status, 1)

/-- A library by its id and name, and a severity where it has files. -/
abbrev LibraryKey := String × String × Option Severity

/-- The libraries joined to their files, where `count` leaves out the `NULL` of a library without
    files.  `name` is the column of the libraries. -/
def libraryEntries (name : String → String) (t : Tables) : List (LibraryKey × Nat) :=
  (SqlJoin.leftOuter (fun (l : Library) (m : MediaFile) => m.libraryId = l.id) t.libraries.rows
    t.media.rows).map fun (l, m) => ((l.id, name l.id, m.map (·.severity)), m.toList.length)

/-- `_scalar_count`. -/
def scalarCount {ρ κ : Type} {key : ρ → κ} (table : Table key) (p : ρ → Bool) : Nat :=
  table.rows.countP p

/-! ### The views -/

structure SeverityCounts where
  ok : Nat
  info : Nat
  warn : Nat
  high : Nat
  error : Nat
  crit : Nat
  total : Nat
deriving DecidableEq

def SeverityCounts.zero : SeverityCounts := ⟨0, 0, 0, 0, 0, 0, 0⟩

/-- `getattr(counts, severity)`. -/
def SeverityCounts.get (c : SeverityCounts) : Severity → Nat
  | .ok => c.ok
  | .info => c.info
  | .warn => c.warn
  | .high => c.high
  | .error => c.error
  | .crit => c.crit

/-- Count files of one severity, and among the total. -/
def SeverityCounts.add (c : SeverityCounts) (severity : Severity) (count : Nat) : SeverityCounts :=
  let c := { c with total := c.total + count }
  match severity with
  | .ok => { c with ok := c.ok + count }
  | .info => { c with info := c.info + count }
  | .warn => { c with warn := c.warn + count }
  | .high => { c with high := c.high + count }
  | .error => { c with error := c.error + count }
  | .crit => { c with crit := c.crit + count }

/-- `_severity_counts`. -/
def severityCounts (rows : List (Severity × Nat)) : SeverityCounts :=
  rows.foldl (fun counts row => counts.add row.1 row.2) .zero

structure OptimizationCounts where
  queued : Nat
  running : Nat
  completed : Nat
  failed : Nat

def countStatus (out : OptimizationCounts) : ItemStatus × Nat → OptimizationCounts
  | (.queued, count) => { out with queued := count }
  | (.running, count) => { out with running := count }
  | (.completed, count) => { out with completed := count }
  | (.failed, count) => { out with failed := count }
  | _ => out

/-- `_optimization_counts`. -/
def optimizationCounts (rows : List (ItemStatus × Nat)) : OptimizationCounts :=
  rows.foldl countStatus ⟨0, 0, 0, 0⟩

structure DashboardOverview where
  fileCount : Nat
  libraryCount : Nat
  integrationCount : Nat
  integrationOkCount : Nat
  ruleCount : Nat
  ruleEnabledCount : Nat
  severityCounts : SeverityCounts
  issuesOpen : Nat
  optimizationCounts : OptimizationCounts
  lastScanAt : Option Nat
  totalSizeBytes : Int

/-- `overview`.  `healthy` is the column `health_status == "ok"` of the integrations. -/
def overview (healthy : Integration → Bool) (t : Tables) (issueMinRank : Option Nat)
    (severityRows : List (Severity × Nat)) (statusRows : List (ItemStatus × Nat)) :
    DashboardOverview :=
  let counts := severityCounts severityRows
  { fileCount := scalarCount t.media fun _ => true
    libraryCount := scalarCount t.libraries fun _ => true
    integrationCount := scalarCount t.integrations fun _ => true
    integrationOkCount := scalarCount t.integrations healthy
    ruleCount := scalarCount t.rules fun _ => true
    ruleEnabledCount := scalarCount t.rules (·.enabled)
    severityCounts := counts
    issuesOpen :=
      match issueMinRank with
      | none => counts.total - counts.ok
      | some rank => scalarCount t.media fun m => rank ≤ m.severityRank
    optimizationCounts := optimizationCounts statusRows
    lastScanAt := ((t.scanRuns.rows.filter (·.status = .completed)).filterMap (·.finishedAt)).max?
    totalSizeBytes := (t.media.rows.map (·.sizeBytes)).sum }

structure SidebarBadges where
  issuesOpen : Nat
  rulesEnabled : Nat
  activeOptimizations : Nat

/-- `sidebar_badges`. -/
def sidebarBadges (t : Tables) (issueMinRank : Option Nat) : SidebarBadges where
  issuesOpen := scalarCount t.media fun m => issueMinRank.getD 11 ≤ m.severityRank
  rulesEnabled := scalarCount t.rules (·.enabled)
  activeOptimizations := scalarCount t.items fun i => i.status = .queued || i.status = .running

structure LibrarySeverity where
  libraryId : String
  libraryName : String
  fileCount : Nat
  severity : SeverityCounts
deriving DecidableEq

/-- One row of the query, and the entry there is for its library. -/
def addRow (entry : Option LibrarySeverity) (row : LibraryKey × Nat) : Option LibrarySeverity :=
  let entry := entry.getD ⟨row.1.1, row.1.2.1, 0, .zero⟩
  match row.1.2.2 with
  | none => some entry
  | some severity => some { entry with
      fileCount := entry.fileCount + row.2
      severity := entry.severity.add severity row.2 }

/-- `library_severity`. -/
def librarySeverity (rows : List (LibraryKey × Nat)) : List LibrarySeverity :=
  (collect addRow none (rows.map fun row => (row.1.1, row))).rows.filterMap (·.2)

/-! ### Counts by severity -/

section Counts

@[simp] theorem SeverityCounts.get_zero (s : Severity) : SeverityCounts.zero.get s = 0 := by
  cases s <;> rfl

@[simp] theorem SeverityCounts.get_add (c : SeverityCounts) (s s' : Severity) (n : Nat) :
    (c.add s n).get s' = c.get s' + if s = s' then n else 0 := by
  cases s <;> cases s' <;> simp [SeverityCounts.add, SeverityCounts.get]

@[simp] theorem SeverityCounts.total_add (c : SeverityCounts) (s : Severity) (n : Nat) :
    (c.add s n).total = c.total + n := by
  cases s <;> rfl

theorem get_foldl_add (rows : List (Severity × Nat)) (c : SeverityCounts) (s : Severity) :
    (rows.foldl (fun counts row => counts.add row.1 row.2) c).get s =
      c.get s + (under rows s).sum := by
  induction rows generalizing c with
  | nil => simp
  | cons row rest ih =>
      rw [List.foldl_cons, ih, SeverityCounts.get_add, under_cons]
      split <;> simp [Nat.add_assoc]

theorem total_foldl_add (rows : List (Severity × Nat)) (c : SeverityCounts) :
    (rows.foldl (fun counts row => counts.add row.1 row.2) c).total =
      c.total + (rows.map (·.2)).sum := by
  induction rows generalizing c with
  | nil => simp
  | cons row rest ih => simp [ih, Nat.add_assoc]

variable {t : Tables} {rows : List (Severity × Nat)}

/-- The number of the files whose severity is chosen. -/
def filesAt (t : Tables) (p : Severity → Bool) : Nat := scalarCount t.media fun m => p m.severity

theorem get_severityCounts (h : Grouped List.sum (severityEntries t) rows) (s : Severity) :
    (severityCounts rows).get s = filesAt t (· = s) := by
  rw [severityCounts, get_foldl_add, SeverityCounts.get_zero, Nat.zero_add, h.sum_under_eq]
  exact sum_ones _ _ s

theorem total_severityCounts (h : Grouped List.sum (severityEntries t) rows) :
    (severityCounts rows).total = scalarCount t.media fun _ => true := by
  rw [severityCounts, total_foldl_add, h.total]
  simp [severityEntries, scalarCount, SeverityCounts.zero, Function.comp_def]

/-- The levels, each once. -/
def SEVERITY_LABELS : List Severity := [.ok, .info, .warn, .high, .error, .crit]

theorem filesAt_levels (t : Tables) (p : Severity → Bool) :
    filesAt t p = ((SEVERITY_LABELS.filter p).map fun s => filesAt t (· = s)).sum := by
  have hkeys : (SEVERITY_LABELS.filter p).Nodup := List.Nodup.filter _ (by decide)
  have hcover : ∀ m ∈ t.media.rows, p m.severity = true →
      m.severity ∈ SEVERITY_LABELS.filter p := by
    intro m _ hp
    refine List.mem_filter.mpr ⟨?_, hp⟩
    cases m.severity <;> decide
  rw [filesAt, scalarCount, ← countP_parts hkeys hcover]
  apply congrArg List.sum
  apply List.map_congr_left
  intro s hs
  apply List.countP_congr
  intro m _
  have hp := (List.mem_filter.mp hs).2
  by_cases heq : m.severity = s <;> simp [heq, hp]

theorem issues_levels (h : Ranked t) (rank : Nat) :
    (scalarCount t.media fun m => rank ≤ m.severityRank) =
      filesAt t fun s => rank ≤ SEVERITY_LEVELS s := by
  apply List.countP_congr
  intro m hm
  rw [h m hm]

end Counts

/-! ### Counts by library -/

section Libraries

variable {name : String → String} {t : Tables} {rows : List (LibraryKey × Nat)}

/-- The number of the files of a library whose severity is chosen. -/
def filesIn (t : Tables) (libraryId : String) (p : Severity → Bool) : Nat :=
  scalarCount t.media fun m => p m.severity && m.libraryId = libraryId

theorem sum_partners (media : List MediaFile) (l : Library) (p : LibraryKey → Bool) :
    ((((SqlJoin.partners (fun (l : Library) (m : MediaFile) => m.libraryId = l.id) media l).map
        fun m => ((l.id, name l.id, m.map (·.severity)), m.toList.length)).filter
          fun e => p e.1).map (·.2)).sum =
      media.countP fun m => m.libraryId = l.id && p (l.id, name l.id, some m.severity) := by
  unfold SqlJoin.partners
  split
  · rename_i hnone
    have hother : ∀ m ∈ media, m.libraryId ≠ l.id := by simpa using hnone
    have hzero : (media.countP fun m => m.libraryId = l.id &&
        p (l.id, name l.id, some m.severity)) = 0 := by
      rw [List.countP_eq_zero]
      intro m hm
      simp [hother m hm]
    rw [hzero]
    by_cases hp : p (l.id, name l.id, none) <;> simp [hp]
  · simp [List.filter_map, List.filter_filter, Function.comp_def, List.countP_eq_length_filter,
      Bool.and_comm]

theorem partners_ne_nil (media : List MediaFile) (l : Library) :
    SqlJoin.partners (fun (l : Library) (m : MediaFile) => m.libraryId = l.id) media l ≠ [] := by
  unfold SqlJoin.partners
  split
  · exact List.cons_ne_nil _ _
  · rename_i hsome
    rwa [Ne, List.map_eq_nil_iff]

theorem sum_libraryEntries (p : LibraryKey → Bool) :
    (((libraryEntries name t).filter fun e => p e.1).map (·.2)).sum =
      (t.libraries.rows.map fun l => t.media.rows.countP fun m =>
        m.libraryId = l.id && p (l.id, name l.id, some m.severity)).sum := by
  unfold libraryEntries SqlJoin.leftOuter
  generalize t.libraries.rows = libraries
  induction libraries with
  | nil => rfl
  | cons l rest ih =>
      rw [List.flatMap_cons, List.map_append, List.filter_append, List.map_append, List.sum_append,
        ih, List.map_cons, List.sum_cons, ← sum_partners]
      simp [Function.comp_def]

theorem sum_library (h : Grouped List.sum (libraryEntries name t) rows) {l : Library}
    (hl : l ∈ t.libraries.rows) (p : Severity → Bool) :
    ((rows.filter fun row => row.1.1 = l.id && row.1.2.2.any p).map (·.2)).sum =
      filesIn t l.id p := by
  have hids : (t.libraries.rows.map Library.id).Nodup := t.libraries.unique
  have hcover : ∀ m ∈ t.media.rows, (p m.severity && decide (m.libraryId = l.id)) = true →
      m.libraryId ∈ t.libraries.rows.map Library.id := by
    intro m _ hm
    simp only [Bool.and_eq_true, decide_eq_true_eq] at hm
    rw [hm.2]
    exact List.mem_map_of_mem hl
  rw [(h.filter fun key => key.1 = l.id && key.2.2.any p).total,
    sum_libraryEntries fun key => key.1 = l.id && key.2.2.any p, filesIn, scalarCount,
    ← countP_parts hids hcover, List.map_map]
  apply congrArg List.sum
  apply List.map_congr_left
  intro l' _
  apply List.countP_congr
  intro m _
  by_cases hl' : m.libraryId = l'.id
  · simp [hl', and_comm]
  · simp [hl']

/-- The rows that carry a severity. -/
def labelled (rows : List (LibraryKey × Nat)) : List (Severity × Nat) :=
  rows.filterMap fun row => row.1.2.2.map fun s => (s, row.2)

theorem sum_labelled (rows : List (LibraryKey × Nat)) (p : Severity → Bool) :
    (((labelled rows).filter fun e => p e.1).map (·.2)).sum =
      ((rows.filter fun row => row.1.2.2.any p).map (·.2)).sum := by
  induction rows with
  | nil => rfl
  | cons row rest ih =>
      rcases row with ⟨⟨id, name, _ | s⟩, n⟩
      · simpa [labelled] using ih
      · by_cases hp : p s <;> simpa [labelled, hp] using ih

theorem foldl_addRow (rows : List (LibraryKey × Nat)) (entry : LibrarySeverity) :
    rows.foldl addRow (some entry) = some { entry with
      fileCount := entry.fileCount + ((labelled rows).map (·.2)).sum
      severity := (labelled rows).foldl (fun counts row => counts.add row.1 row.2)
        entry.severity } := by
  induction rows generalizing entry with
  | nil => rfl
  | cons row rest ih =>
      rcases row with ⟨⟨id, name, _ | s⟩, n⟩
      · exact ih entry
      · refine (ih _).trans ?_
        simp [labelled, Nat.add_assoc]

/-- What an entry of the list says about its library. -/
structure Tells (name : String → String) (t : Tables) (e : LibrarySeverity) : Prop where
  libraryName : e.libraryName = name e.libraryId
  fileCount : e.fileCount = filesIn t e.libraryId fun _ => true
  total : e.severity.total = e.fileCount
  counts : ∀ s, e.severity.get s = filesIn t e.libraryId (· = s)

theorem row_library (h : Grouped List.sum (libraryEntries name t) rows) {row : LibraryKey × Nat}
    (hrow : row ∈ rows) : (∃ l ∈ t.libraries.rows, l.id = row.1.1) ∧ row.1.2.1 = name row.1.1 := by
  have hkey := under_ne_nil.mp (h.key.mp (List.mem_map_of_mem hrow))
  rcases List.mem_map.mp hkey with ⟨entry, hentry, heq⟩
  rcases List.mem_map.mp hentry with ⟨⟨l, m⟩, hjoined, rfl⟩
  rcases List.mem_flatMap.mp hjoined with ⟨l', hl', hpartner⟩
  rcases List.mem_map.mp hpartner with ⟨m', -, hpair⟩
  cases hpair
  rw [← heq]
  exact ⟨⟨l, hl', rfl⟩, rfl⟩

theorem sum_labelled_library (h : Grouped List.sum (libraryEntries name t) rows) {l : Library}
    (hl : l ∈ t.libraries.rows) (p : Severity → Bool) :
    (((labelled (rows.filter fun row => row.1.1 = l.id)).filter fun e => p e.1).map (·.2)).sum =
      filesIn t l.id p := by
  rw [sum_labelled, List.filter_filter, ← sum_library h hl]
  simp only [Bool.and_comm]

theorem tells_library (h : Grouped List.sum (libraryEntries name t) rows) {l : Library}
    (hl : l ∈ t.libraries.rows) {row : LibraryKey × Nat} (hrow : row ∈ rows)
    (hid : row.1.1 = l.id) :
    ∃ e, (rows.filter fun row => row.1.1 = l.id).foldl addRow none = some e ∧
      e.libraryId = l.id ∧ Tells name t e := by
  have htotal := sum_labelled_library h hl fun _ => true
  have hlevel := fun s => sum_labelled_library h hl (· = s)
  have hmember : ∀ row ∈ rows.filter fun row => row.1.1 = l.id,
      row.1.1 = l.id ∧ row.1.2.1 = name l.id := by
    intro row hrow
    have hid : row.1.1 = l.id := by simpa using List.of_mem_filter hrow
    exact ⟨hid, hid ▸ (row_library h (List.mem_of_mem_filter hrow)).2⟩
  have hsome : row ∈ rows.filter fun row => row.1.1 = l.id :=
    List.mem_filter.mpr ⟨hrow, by simpa using hid⟩
  rw [List.filter_true] at htotal
  generalize rows.filter (fun row => row.1.1 = l.id) = own at htotal hlevel hmember hsome
  -- the first of the rows names the entry
  rcases own with _ | ⟨first, rest⟩
  · cases hsome
  · have hfirst := hmember first List.mem_cons_self
    have hstart : addRow none first = addRow (some ⟨first.1.1, first.1.2.1, 0, .zero⟩) first := rfl
    rw [List.foldl_cons, hstart, ← List.foldl_cons, foldl_addRow]
    refine ⟨_, rfl, hfirst.1, ?_⟩
    constructor
    · simpa [hfirst.1] using hfirst.2
    · simpa [hfirst.1] using htotal
    · simp [total_foldl_add, SeverityCounts.zero]
    · intro s
      simpa [hfirst.1, get_foldl_add, under] using hlevel s

theorem under_rows (k : String) :
    under (rows.map fun row => (row.1.1, row)) k = rows.filter fun row => row.1.1 = k := by
  simp [under, List.filter_map, Function.comp_def]

theorem value_library (h : Grouped List.sum (libraryEntries name t) rows) {k : String}
    {o : Option LibrarySeverity}
    (hvalue : (k, o) ∈ (collect addRow none (rows.map fun row => (row.1.1, row))).rows) :
    ∃ e, o = some e ∧ e.libraryId = k ∧ Tells name t e := by
  rcases mem_collect.mp hvalue with ⟨hsome, rfl⟩
  rw [under_rows] at hsome ⊢
  rcases List.exists_mem_of_ne_nil _ hsome with ⟨row, hmem⟩
  have hid : row.1.1 = k := by simpa using List.of_mem_filter hmem
  have hrow : row ∈ rows := List.mem_of_mem_filter hmem
  rcases (row_library h hrow).1 with ⟨l, hl, hlid⟩
  have hk : l.id = k := hlid.trans hid
  subst hk
  exact tells_library h hl hrow hid

theorem tells_of_mem (h : Grouped List.sum (libraryEntries name t) rows) {e : LibrarySeverity}
    (he : e ∈ librarySeverity rows) : Tells name t e := by
  rcases List.mem_filterMap.mp he with ⟨⟨k, o⟩, hvalue, ho⟩
  rcases value_library h hvalue with ⟨e', rfl, -, htells⟩
  cases ho
  exact htells

theorem libraryIds_perm (h : Grouped List.sum (libraryEntries name t) rows) :
    ((librarySeverity rows).map (·.libraryId)).Perm (t.libraries.rows.map (·.id)) := by
  have hids : (librarySeverity rows).map (·.libraryId) =
      (collect addRow none (rows.map fun row => (row.1.1, row))).rows.map (·.1) := by
    rw [librarySeverity, List.map_filterMap]
    refine (List.filterMap_congr (g := fun e => some e.1) ?_).trans
      (congrFun List.filterMap_eq_map' _)
    rintro ⟨k, o⟩ hvalue
    rcases value_library h hvalue with ⟨e, rfl, hid, -⟩
    simp [hid]
  rw [hids]
  apply (List.perm_ext_iff_of_nodup (collect addRow none _).unique t.libraries.unique).mpr
  intro k
  rw [(grouped_collect _ _ _).key, under_ne_nil, List.map_map]
  constructor
  · intro hk
    rcases List.mem_map.mp hk with ⟨row, hrow, rfl⟩
    rcases (row_library h hrow).1 with ⟨l, hl, hid⟩
    exact List.mem_map.mpr ⟨l, hl, hid⟩
  · intro hk
    rcases List.mem_map.mp hk with ⟨l, hl, rfl⟩
    rcases List.exists_mem_of_ne_nil _ (partners_ne_nil t.media.rows l) with ⟨m, hm⟩
    have hentry : ((l.id, name l.id, m.map (·.severity)), m.toList.length) ∈
        libraryEntries name t :=
      List.mem_map.mpr ⟨(l, m), List.mem_flatMap.mpr ⟨l, hl, List.mem_map.mpr ⟨m, hm, rfl⟩⟩, rfl⟩
    have hrow := h.key.mpr (under_ne_nil.mpr (List.mem_map_of_mem hentry))
    rcases List.mem_map.mp hrow with ⟨row, hrow, heq⟩
    exact List.mem_map.mpr ⟨row, hrow, congrArg Prod.fst heq⟩

end Libraries

/-! ### The numbers together -/

/-- The levels whose files count as open issues, at a threshold or without one. -/
def openLevels (issueMinRank : Option Nat) : List Severity :=
  SEVERITY_LABELS.filter fun s => issueMinRank.getD 11 ≤ SEVERITY_LEVELS s

/-- What the views of one state have in common. -/
structure Agree (name : String → String) (t : Tables) (issueMinRank : Option Nat)
    (view : DashboardOverview) (badges : SidebarBadges) (libraries : List LibrarySeverity) :
    Prop where
  total : view.severityCounts.total = view.fileCount
  levels : (SEVERITY_LABELS.map view.severityCounts.get).sum = view.fileCount
  issues : view.issuesOpen = ((openLevels issueMinRank).map view.severityCounts.get).sum
  sidebar : badges.issuesOpen = view.issuesOpen
  active : badges.activeOptimizations =
    view.optimizationCounts.queued + view.optimizationCounts.running
  ids : (libraries.map (·.libraryId)).Perm (t.libraries.rows.map (·.id))
  library : ∀ e ∈ libraries, Tells name t e
  files : (libraries.map (·.fileCount)).sum = view.fileCount
  severities : ∀ s, (libraries.map (·.severity.get s)).sum = view.severityCounts.get s

section Agreement

variable {name : String → String} {healthy : Integration → Bool} {t : Tables}
  {severityRows : List (Severity × Nat)} {statusRows : List (ItemStatus × Nat)}
  {libraryRows : List (LibraryKey × Nat)}

theorem sum_filesIn (howned : ∀ m ∈ t.media.rows, m.libraryId ∈ t.libraries.rows.map (·.id))
    (h : Grouped List.sum (libraryEntries name t) libraryRows) (p : Severity → Bool) :
    ((librarySeverity libraryRows).map fun e => filesIn t e.libraryId p).sum = filesAt t p := by
  have hids := (libraryIds_perm h).map fun id => filesIn t id p
  rw [List.map_map] at hids
  rw [filesAt, scalarCount, ← countP_parts t.libraries.unique fun m hm _ => howned m hm]
  exact hids.sum_eq

theorem foldl_optimizationCounts (rows : List (ItemStatus × Nat)) (out : OptimizationCounts) :
    (rows.foldl countStatus out).queued =
        (under rows .queued).foldl (fun _ count => count) out.queued ∧
      (rows.foldl countStatus out).running =
        (under rows .running).foldl (fun _ count => count) out.running := by
  induction rows generalizing out with
  | nil => exact ⟨rfl, rfl⟩
  | cons row rest ih =>
      rw [List.foldl_cons, (ih _).1, (ih _).2, under_cons, under_cons]
      rcases row with ⟨status, count⟩
      cases status <;> simp [countStatus]

theorem optimizationCounts_eq (h : Grouped List.sum (statusEntries t) statusRows) :
    (optimizationCounts statusRows).queued = (scalarCount t.items fun i => i.status = .queued) ∧
      (optimizationCounts statusRows).running =
        scalarCount t.items fun i => i.status = .running := by
  have hvalue : ∀ status, (under statusRows status).foldl (fun _ count => count) 0 =
      scalarCount t.items fun i => i.status = status := by
    intro status
    have hsum := sum_ones t.items.rows (·.status) status
    rw [scalarCount, ← hsum, h.under_eq]
    split
    · rename_i hnone
      have hempty : under (t.items.rows.map fun i => (i.status, 1)) status = [] := hnone
      rw [hempty]
      rfl
    · rfl
  rw [optimizationCounts, (foldl_optimizationCounts _ _).1, (foldl_optimizationCounts _ _).2]
  exact ⟨hvalue .queued, hvalue .running⟩

theorem levels_eq (h : Grouped List.sum (severityEntries t) severityRows)
    (p : Severity → Bool) :
    ((SEVERITY_LABELS.filter p).map (severityCounts severityRows).get).sum = filesAt t p := by
  rw [filesAt_levels, List.map_congr_left fun s _ => get_severityCounts h s]

theorem issuesOpen_eq (hranked : Ranked t)
    (h : Grouped List.sum (severityEntries t) severityRows) (issueMinRank : Option Nat) :
    (overview healthy t issueMinRank severityRows statusRows).issuesOpen =
      filesAt t fun s => issueMinRank.getD 11 ≤ SEVERITY_LEVELS s := by
  cases issueMinRank with
  | some rank => exact issues_levels hranked rank
  | none =>
      have hall := levels_eq h fun _ => true
      have hopen := levels_eq h fun s => 11 ≤ SEVERITY_LEVELS s
      have hlevels : SEVERITY_LABELS.filter (fun s => 11 ≤ SEVERITY_LEVELS s) =
          [.info, .warn, .high, .error, .crit] := by decide
      have htotal : (severityCounts severityRows).total = filesAt t fun _ => true :=
        total_severityCounts h
      rw [hlevels] at hopen
      simp only [SEVERITY_LABELS, List.filter_true, List.map_cons, List.map_nil, List.sum_cons,
        List.sum_nil, SeverityCounts.get] at hall hopen
      show (severityCounts severityRows).total - (severityCounts severityRows).ok = _
      rw [Option.getD_none, htotal]
      omega

theorem active_eq (issueMinRank : Option Nat) :
    (sidebarBadges t issueMinRank).activeOptimizations =
      (scalarCount t.items fun i => i.status = .queued) +
        scalarCount t.items fun i => i.status = .running := by
  have hcover : ∀ i ∈ t.items.rows, (i.status = .queued || i.status = .running) = true →
      i.status ∈ [ItemStatus.queued, .running] := by
    intro i _ hi
    simpa using hi
  have hparts := countP_parts (by decide) hcover
  have hpart : ∀ status ∈ [ItemStatus.queued, .running],
      (t.items.rows.countP fun i => (i.status = .queued || i.status = .running) &&
        decide (i.status = status)) = scalarCount t.items fun i => i.status = status := by
    intro status hstatus
    apply List.countP_congr
    intro i _
    by_cases heq : i.status = status
    · simpa [heq] using hstatus
    · simp [heq]
  rw [List.map_congr_left hpart, List.map_cons, List.map_singleton, List.sum_cons,
    List.sum_singleton] at hparts
  exact hparts.symm

theorem agree (hranked : Ranked t)
    (howned : ∀ m ∈ t.media.rows, m.libraryId ∈ t.libraries.rows.map (·.id))
    (hseverity : Grouped List.sum (severityEntries t) severityRows)
    (hstatus : Grouped List.sum (statusEntries t) statusRows)
    (hlibrary : Grouped List.sum (libraryEntries name t) libraryRows) (issueMinRank : Option Nat) :
    Agree name t issueMinRank (overview healthy t issueMinRank severityRows statusRows)
      (sidebarBadges t issueMinRank) (librarySeverity libraryRows) := by
  have hissues := @issuesOpen_eq healthy _ _ statusRows hranked hseverity issueMinRank
  have htells : ∀ e ∈ librarySeverity libraryRows, Tells name t e :=
    fun _ he => tells_of_mem hlibrary he
  constructor
  · exact total_severityCounts hseverity
  · have hall := levels_eq hseverity fun _ => true
    rw [List.filter_true] at hall
    exact hall
  · rw [hissues]
    exact (levels_eq hseverity _).symm
  · rw [hissues]
    exact issues_levels hranked _
  · have hcounts := optimizationCounts_eq hstatus
    exact (active_eq issueMinRank).trans (congrArg₂ (· + ·) hcounts.1.symm hcounts.2.symm)
  · exact libraryIds_perm hlibrary
  · exact htells
  · rw [List.map_congr_left fun e he => (htells e he).fileCount, sum_filesIn howned hlibrary]
    rfl
  · intro s
    rw [List.map_congr_left fun e he => (htells e he).counts s, sum_filesIn howned hlibrary]
    exact (get_severityCounts hseverity s).symm

end Agreement

/-- In every run of scans and rule evaluations whose scans add no file with a disposition, the
    views of every state reached agree: the labels, the ranks, the libraries and the badges give
    the same numbers, if the ranks agree with the labels at first and each file has a library. -/
theorem dashboard_agrees (start : Session Tables Outside) (hstart : BothRanked start)
    (s : Session Tables Outside)
    (hs : Runs.Admitted (fun s activity s' => s' = next s activity) Meets start s)
    (howned : ∀ m ∈ s.committed.media.rows, m.libraryId ∈ s.committed.libraries.rows.map (·.id))
    (name : String → String) (healthy : Integration → Bool)
    (severityRows : List (Severity × Nat)) (statusRows : List (ItemStatus × Nat))
    (libraryRows : List (LibraryKey × Nat))
    (hseverity : Grouped List.sum (severityEntries s.committed) severityRows)
    (hstatus : Grouped List.sum (statusEntries s.committed) statusRows)
    (hlibrary : Grouped List.sum (libraryEntries name s.committed) libraryRows)
    (issueMinRank : Option Nat) :
    Agree name s.committed issueMinRank
      (overview healthy s.committed issueMinRank severityRows statusRows)
      (sidebarBadges s.committed issueMinRank) (librarySeverity libraryRows) := by
  have hranked : BothRanked s := hs.invariant hstart fun s activity s' h hmeets hstep => by
    rw [hstep]
    exact bothRanked_next h hmeets
  exact agree hranked.2 howned hseverity hstatus hlibrary issueMinRank

/-- The state after a scan of a library whose file is known. -/
def scannedTablesAfter : Tables :=
  (next (freshSession (scannedTables .malicious))
    (.scan oneFileEnv mediaLibrary .default none)).committed

def scannedView : DashboardOverview :=
  overview (fun _ => true) scannedTablesAfter (some 40)
    (collect (· + ·) 0 (severityEntries scannedTablesAfter)).rows
    (collect (· + ·) 0 (statusEntries scannedTablesAfter)).rows

theorem dashboard_agrees_avi :
    scannedView.fileCount = 1 ∧
      Agree id scannedTablesAfter (some 40) scannedView (sidebarBadges scannedTablesAfter (some 40))
        (librarySeverity (collect (· + ·) 0 (libraryEntries id scannedTablesAfter)).rows) :=
  ⟨by decide +kernel,
    dashboard_agrees (freshSession (scannedTables .malicious)) (scannedTables_ranked .malicious) _
      (.next .start (i := .scan oneFileEnv mediaLibrary .default none) scannedTables_plain rfl)
      (by decide +kernel) id (fun _ => true) _ _ _ (grouped_tally _) (grouped_tally _)
      (grouped_tally _) (some 40)⟩

end DashboardStats
