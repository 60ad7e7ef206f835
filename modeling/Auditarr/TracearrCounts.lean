/-
  Auditarr/TracearrCounts.lean
  ============================
  **What a run of the reconciler counts, and what it stores.**

  A source row does not see what an earlier one assigned, and pass B does not see what pass A
  did: an event that two of them match is counted twice, and the last one to assign wins.
  Where pass B finds no row the run ends without a commit.
-/
import Auditarr.TracearrReconciler

namespace TracearrReconciler

open KeyedTable PyValues PlaybackPoller TracearrPath

section Counts

variable (rt : ReconcilerRuntime) (db : Db) (o : Occasion)

/-- The source row matches the event, by its file or by its title. -/
def matched (s : Source) (row : EventRow) : Bool := samePlay db s row || sameTitle rt db s row

/-- No event is matched by two source rows, and none that pass A matched by its title is
    looked at in pass B. -/
structure MatchedOnce : Prop where
  sources : (sources db o.cutoff).Pairwise fun s s' =>
    ∀ row ∈ db.events, ¬(matched rt db s row = true ∧ matched rt db s' row = true)
  titles : ∀ s ∈ TracearrReconciler.sources db o.cutoff, ∀ row ∈ processedRows db o,
    sameTitle rt db s row = false

variable {rt db o} {s s' : Source} {row : EventRow} {a b : Assignment}

theorem samePlay_iff : samePlay db s row = true ↔
    inWindow db s row = true ∧ row.event.mediaFileId = some s.mediaFileId := by
  rw [samePlay, Bool.and_eq_true, decide_eq_true_eq]

theorem sameTitle_iff : sameTitle rt db s row = true ↔
    inWindow db s row = true ∧ row.event.mediaFileId = none ∧
      (parseTracearrPseudoPath row.event.sourcePath).any (accepts rt · s.filename) = true := by
  rw [sameTitle, Bool.and_eq_true, Bool.and_eq_true, Option.isNone_iff_eq_none, and_assoc]

theorem inWindow_of_matched (h : matched rt db s row = true) : inWindow db s row = true := by
  rcases Bool.or_eq_true_iff.mp h with hplay | htitle
  · exact (samePlay_iff.mp hplay).1
  · exact (sameTitle_iff.mp htitle).1

theorem not_samePlay_and_sameTitle (hplay : samePlay db s row = true) :
    sameTitle rt db s' row = false := by
  rw [Bool.eq_false_iff]
  intro htitle
  have hfile := (samePlay_iff.mp hplay).2
  rw [(sameTitle_iff.mp htitle).2.1] at hfile
  cases hfile

/-! ### The events that are counted -/

theorem mem_byStartDesc {rows : List EventRow} : row ∈ byStartDesc rows ↔ row ∈ rows :=
  List.mem_insertionSort _

theorem mem_shadowedBy : a ∈ shadowedBy rt db s ↔
    (∃ row ∈ db.events, samePlay db s row = true ∧ (⟨row.id, some s.id, none⟩ : Assignment) = a) ∨
      ∃ row ∈ db.events, sameTitle rt db s row = true ∧
        (⟨row.id, some s.id, some s.mediaFileId⟩ : Assignment) = a := by
  simp only [shadowedBy, List.mem_append, List.mem_map, mem_byStartDesc, List.mem_filter, and_assoc,
    Table.mem_def]

theorem mem_shadowedIds {id : String} : id ∈ (shadowedBy rt db s).map Assignment.eventId ↔
    ∃ row ∈ db.events, row.id = id ∧ matched rt db s row = true := by
  rw [List.mem_map]
  constructor
  · rintro ⟨a, ha, rfl⟩
    rcases mem_shadowedBy.mp ha with ⟨row, hrow, hplay, rfl⟩ | ⟨row, hrow, htitle, rfl⟩
    · exact ⟨row, hrow, rfl, Bool.or_eq_true_iff.mpr (.inl hplay)⟩
    · exact ⟨row, hrow, rfl, Bool.or_eq_true_iff.mpr (.inr htitle)⟩
  · rintro ⟨row, hrow, rfl, hmatched⟩
    rcases Bool.or_eq_true_iff.mp hmatched with hplay | htitle
    · exact ⟨_, mem_shadowedBy.mpr (.inl ⟨row, hrow, hplay, rfl⟩), rfl⟩
    · exact ⟨_, mem_shadowedBy.mpr (.inr ⟨row, hrow, htitle, rfl⟩), rfl⟩

theorem nodup_selected (p : EventRow → Bool) : ((db.events.rows.filter p).map EventRow.id).Nodup :=
  db.events.unique.sublist (List.filter_sublist.map _)

theorem nodup_shadowedIds (s : Source) : ((shadowedBy rt db s).map Assignment.eventId).Nodup := by
  rw [shadowedBy, List.map_append, List.map_map, List.map_map, List.nodup_append']
  refine ⟨?_, nodup_selected _, ?_⟩
  · exact ((List.perm_insertionSort _ _).map _).nodup_iff.mpr (nodup_selected _)
  · intro id hplay htitle
    obtain ⟨row, hrow, rfl⟩ := List.mem_map.mp hplay
    obtain ⟨row', hrow', hid⟩ := List.mem_map.mp htitle
    obtain ⟨hmem, hplay⟩ := List.mem_filter.mp (mem_byStartDesc.mp hrow)
    obtain ⟨hmem', htitle⟩ := List.mem_filter.mp hrow'
    rw [Table.eq_of_key_eq hmem' hmem hid, not_samePlay_and_sameTitle hplay] at htitle
    cases htitle

theorem withinBudget_sublist (exhausted : Nat → Bool) (n : Nat) (rows : List EventRow) :
    (withinBudget exhausted n rows).Sublist rows := by
  induction rows generalizing n with
  | nil => exact .slnil
  | cons row rest ih =>
    rw [withinBudget]
    split
    · exact List.nil_sublist _
    · exact (ih (n + 1)).cons_cons row

theorem processedRows_sublist : (processedRows db o).Sublist
    (byStartDesc (db.events.rows.filter (unresolved db o.cutoff))) :=
  (withinBudget_sublist ..).trans (List.take_sublist ..)

theorem mem_of_processed (h : row ∈ processedRows db o) :
    row ∈ db.events ∧ unresolved db o.cutoff row = true := by
  have hmem := mem_byStartDesc.mp (processedRows_sublist.subset h)
  exact List.mem_filter.mp hmem

theorem nodup_processedIds : ((processedRows db o).map EventRow.id).Nodup := by
  have hall : ((byStartDesc (db.events.rows.filter (unresolved db o.cutoff))).map EventRow.id).Nodup :=
    ((List.perm_insertionSort _ _).map _).nodup_iff.mpr (nodup_selected _)
  exact hall.sublist (processedRows_sublist.map _)

theorem nodup_shadowTracearr_iff : ((shadowTracearr rt db o.cutoff).map Assignment.eventId).Nodup ↔
    (sources db o.cutoff).Pairwise fun s s' =>
      ∀ row ∈ db.events, ¬(matched rt db s row = true ∧ matched rt db s' row = true) := by
  rw [shadowTracearr, List.map_flatMap, List.nodup_flatMap, and_iff_right fun s _ => nodup_shadowedIds s]
  apply List.Pairwise.iff
  intro s s'
  constructor
  · rintro hdisjoint row hrow ⟨hs, hs'⟩
    exact hdisjoint (mem_shadowedIds.mpr ⟨row, hrow, rfl, hs⟩) (mem_shadowedIds.mpr ⟨row, hrow, rfl, hs'⟩)
  · intro happart id hs hs'
    obtain ⟨row, hrow, rfl, hfirst⟩ := mem_shadowedIds.mp hs
    obtain ⟨row', hrow', hid, hsecond⟩ := mem_shadowedIds.mp hs'
    rw [Table.eq_of_key_eq hrow' hrow hid] at hsecond
    exact happart row hrow ⟨hfirst, hsecond⟩

theorem disjoint_processed_iff :
    (∀ id ∈ (shadowTracearr rt db o.cutoff).map Assignment.eventId,
      id ∉ (processedRows db o).map EventRow.id) ↔
      ∀ s ∈ sources db o.cutoff, ∀ row ∈ processedRows db o, sameTitle rt db s row = false := by
  rw [shadowTracearr, List.map_flatMap]
  constructor
  · intro hdisjoint s hs row hrow
    rw [Bool.eq_false_iff]
    intro htitle
    have hmatched : matched rt db s row = true := Bool.or_eq_true_iff.mpr (.inr htitle)
    exact hdisjoint row.id (List.mem_flatMap.mpr ⟨s, hs, mem_shadowedIds.mpr
      ⟨row, (mem_of_processed hrow).1, rfl, hmatched⟩⟩) (List.mem_map_of_mem hrow)
  · intro hnone id hid hprocessed
    obtain ⟨s, hs, hid⟩ := List.mem_flatMap.mp hid
    obtain ⟨row, hrow, rfl, hmatched⟩ := mem_shadowedIds.mp hid
    obtain ⟨row', hrow', heq⟩ := List.mem_map.mp hprocessed
    obtain ⟨hmem, hunresolved⟩ := mem_of_processed hrow'
    have hsame := Table.eq_of_key_eq hmem hrow heq
    subst hsame
    rcases Bool.or_eq_true_iff.mp hmatched with hplay | htitle
    · simp [unresolved, (samePlay_iff.mp hplay).2] at hunresolved
    · rw [hnone s hs row' hrow'] at htitle
      cases htitle

theorem length_countedEvents {r : Returned} (h : reconcileTracearrPlayback rt db o = some r) :
    r.outcome.matchedCrossSource + r.outcome.matchedTitleHeuristic + r.outcome.unmatched =
      (countedEvents rt db o).length := by
  have hmatched : (matchTitles rt db o).length ≤ (processedRows db o).length := List.length_filterMap_le ..
  simp only [countedEvents, List.length_append, List.length_map]
  simp only [reconcileTracearrPlayback] at h
  split at h
  · rename_i hrows
    cases h
    simp [processedRows, hrows, withinBudget]
  · split at h
    · cases h
    · cases h
      simp only
      omega

/-- The counts of a run are those of its counted events, and these differ iff no event is
    matched by two source rows and none that pass A matched by its title comes to pass B. -/
theorem countedOnce_iff (rt : ReconcilerRuntime) (db : Db) (o : Occasion) :
    (∀ r, reconcileTracearrPlayback rt db o = some r →
      r.outcome.matchedCrossSource + r.outcome.matchedTitleHeuristic + r.outcome.unmatched =
        (countedEvents rt db o).length) ∧
    ((countedEvents rt db o).Nodup ↔ MatchedOnce rt db o) := by
  refine ⟨fun r hr => length_countedEvents hr, ?_⟩
  rw [countedEvents, List.nodup_append', nodup_shadowTracearr_iff]
  constructor
  · rintro ⟨hsources, -, hdisjoint⟩
    exact ⟨hsources, disjoint_processed_iff.mp fun id hid hid' => hdisjoint hid hid'⟩
  · rintro ⟨hsources, htitles⟩
    exact ⟨hsources, nodup_processedIds, fun id hid hid' => disjoint_processed_iff.mpr htitles id hid hid'⟩

end Counts

/-! ### What is stored -/

section Stored

variable {rt : ReconcilerRuntime} {db : Db} {o : Occasion} {s s' : Source} {row : EventRow}
  {a b : Assignment} {t : Table EventRow.id}

/-- The row of the event has what was assigned. -/
def Stands (t : Table EventRow.id) (a : Assignment) : Prop :=
  ∃ row, t.find? a.eventId = some row ∧
    (∀ id, a.reconciledWithSessionId = some id → row.event.reconciledWithSessionId = some id) ∧
    ∀ id, a.mediaFileId = some id → row.event.mediaFileId = some id

/-- Two assignments do not set different values. -/
def Agrees (a b : Assignment) : Prop :=
  (∀ id, a.reconciledWithSessionId = some id → ∀ id', b.reconciledWithSessionId = some id' → id = id') ∧
    ∀ id, a.mediaFileId = some id → ∀ id', b.mediaFileId = some id' → id = id'

theorem find?_assign (id : String) : (assign t a).find? id =
    (t.find? id).map fun row => if row.id = a.eventId then a.apply row else row := by
  simp only [assign, Table.find?_update, decide_eq_true_eq]

theorem isSome_find?_assign (id : String) : ((assign t a).find? id).isSome = (t.find? id).isSome := by
  rw [find?_assign, Option.isSome_map]

theorem stands_assign_self (h : (t.find? a.eventId).isSome = true) : Stands (assign t a) a := by
  obtain ⟨row, hrow⟩ := Option.isSome_iff_exists.mp h
  refine ⟨a.apply row, ?_, ?_, ?_⟩
  · rw [find?_assign, hrow, Option.map_some, if_pos (Table.mem_of_find? hrow).2]
  · intro id hid
    simp [Assignment.apply, hid]
  · intro id hid
    simp [Assignment.apply, hid]

theorem Stands.after (h : Stands t a) (hagree : a.eventId = b.eventId → Agrees a b) :
    Stands (assign t b) a := by
  obtain ⟨row, hrow, hlink, hfile⟩ := h
  have hid := (Table.mem_of_find? hrow).2
  by_cases hsame : row.id = b.eventId
  · obtain ⟨hlinks, hfiles⟩ := hagree (hid.symm.trans hsame)
    refine ⟨b.apply row, ?_, ?_, ?_⟩
    · rw [find?_assign, hrow, Option.map_some, if_pos hsame]
    · intro id ha
      cases hb : b.reconciledWithSessionId with
      | none => simp [Assignment.apply, hb, hlink id ha]
      | some id' => simp [Assignment.apply, hb, hlinks id ha id' hb]
    · intro id ha
      cases hb : b.mediaFileId with
      | none => simp [Assignment.apply, hb, hfile id ha]
      | some id' => simp [Assignment.apply, hb, hfiles id ha id' hb]
  · refine ⟨row, ?_, hlink, hfile⟩
    rw [find?_assign, hrow, Option.map_some, if_neg hsame]

theorem Stands.afterAll {writes : List Assignment} (h : Stands t a)
    (hagree : ∀ b ∈ writes, a.eventId = b.eventId → Agrees a b) : Stands (writes.foldl assign t) a := by
  induction writes generalizing t with
  | nil => exact h
  | cons b rest ih =>
    apply ih
    · exact h.after (hagree b (List.mem_cons_self ..))
    · exact fun c hc => hagree c (List.mem_cons_of_mem _ hc)

theorem stands_foldl_iff {writes : List Assignment}
    (hrows : ∀ a ∈ writes, (t.find? a.eventId).isSome = true) :
    (∀ a ∈ writes, Stands (writes.foldl assign t) a) ↔
      ∀ a ∈ writes, ∀ b ∈ writes, a.eventId = b.eventId → Agrees a b := by
  constructor
  · intro hstands a ha b hb hid
    obtain ⟨row, hrow, hlink, hfile⟩ := hstands a ha
    obtain ⟨row', hrow', hlink', hfile'⟩ := hstands b hb
    rw [← hid, hrow] at hrow'
    cases hrow'
    constructor
    · intro id hid id' hid'
      exact Option.some.inj ((hlink id hid).symm.trans (hlink' id' hid'))
    · intro id hid id' hid'
      exact Option.some.inj ((hfile id hid).symm.trans (hfile' id' hid'))
  · intro hagree
    induction writes generalizing t with
    | nil => exact fun a ha => absurd ha List.not_mem_nil
    | cons b rest ih =>
      intro a ha
      rcases List.mem_cons.mp ha with rfl | hrest
      · apply (stands_assign_self (hrows a ha)).afterAll
        exact fun c hc => hagree a ha c (List.mem_cons_of_mem _ hc)
      · apply ih _ _ a hrest
        · intro c hc
          rw [isSome_find?_assign]
          exact hrows c (List.mem_cons_of_mem _ hc)
        · exact fun c hc d hd => hagree c (List.mem_cons_of_mem _ hc) d (List.mem_cons_of_mem _ hd)

theorem linked_foldl {writes : List Assignment} {id : String}
    (h : ∃ row, t.find? id = some row ∧ row.event.reconciledWithSessionId.isSome = true) :
    ∃ row, (writes.foldl assign t).find? id = some row ∧
      row.event.reconciledWithSessionId.isSome = true := by
  induction writes generalizing t with
  | nil => exact h
  | cons b rest ih =>
    apply ih
    obtain ⟨row, hrow, hlinked⟩ := h
    refine ⟨_, by rw [find?_assign, hrow, Option.map_some], ?_⟩
    split
    · simp [Assignment.apply, hlinked]
    · exact hlinked

theorem linked_foldl_of_mem {writes : List Assignment} (ha : a ∈ writes)
    (hrow : (t.find? a.eventId).isSome = true) (hlink : a.reconciledWithSessionId ≠ none) :
    ∃ row, (writes.foldl assign t).find? a.eventId = some row ∧
      row.event.reconciledWithSessionId.isSome = true := by
  induction writes generalizing t with
  | nil => exact absurd ha List.not_mem_nil
  | cons b rest ih =>
    rcases List.mem_cons.mp ha with rfl | hrest
    · rw [List.foldl_cons]
      apply linked_foldl
      obtain ⟨row, hrow, hstands, -⟩ := stands_assign_self hrow
      obtain ⟨id, hid⟩ := Option.ne_none_iff_exists'.mp hlink
      exact ⟨row, hrow, by rw [hstands id hid]; rfl⟩
    · apply ih hrest
      rw [isSome_find?_assign]
      exact hrow

/-! ### What a run commits -/

theorem mem_matchTitles : a ∈ matchTitles rt db o ↔ ∃ row ∈ processedRows db o,
    ∃ id, titleMatch rt db o row = some id ∧ (⟨row.id, none, some id⟩ : Assignment) = a := by
  simp only [matchTitles, List.mem_filterMap, Option.map_eq_some_iff]

theorem mem_shadowTracearr {cutoff : Timestamp} : a ∈ shadowTracearr rt db cutoff ↔
    ∃ s ∈ sources db cutoff, a ∈ shadowedBy rt db s := List.mem_flatMap

theorem isSome_find?_counted (h : a ∈ counted rt db o) : (db.events.find? a.eventId).isSome = true := by
  have hrow : ∃ row ∈ db.events, row.id = a.eventId := by
    rcases List.mem_append.mp h with hshadowed | hmatched
    · obtain ⟨s, -, hs⟩ := mem_shadowTracearr.mp hshadowed
      obtain ⟨row, hrow, hid, -⟩ := mem_shadowedIds.mp (List.mem_map_of_mem hs)
      exact ⟨row, hrow, hid⟩
    · obtain ⟨row, hrow, id, -, rfl⟩ := mem_matchTitles.mp hmatched
      exact ⟨row, (mem_of_processed hrow).1, rfl⟩
  obtain ⟨row, hrow, hid⟩ := hrow
  rw [Table.find?_eq_some.mpr ⟨hrow, hid⟩]
  rfl

variable (rt db o)

/-- No source row matches an event. -/
def NothingMatched : Prop :=
  ∀ s ∈ sources db o.cutoff, ∀ row ∈ db.events, matched rt db s row = false

/-- There is an event for pass B to look at. -/
def SomeUnresolved : Prop := ∃ row ∈ db.events, unresolved db o.cutoff row = true

/-- What matches one event assigns the same to it. -/
structure SameAssigned : Prop where
  links : ∀ s ∈ sources db o.cutoff, ∀ s' ∈ sources db o.cutoff, ∀ row ∈ db.events,
    matched rt db s row = true → matched rt db s' row = true → s.id = s'.id
  files : ∀ s ∈ sources db o.cutoff, ∀ s' ∈ sources db o.cutoff, ∀ row ∈ db.events,
    sameTitle rt db s row = true → sameTitle rt db s' row = true → s.mediaFileId = s'.mediaFileId
  titles : ∀ s ∈ sources db o.cutoff, ∀ row ∈ processedRows db o, sameTitle rt db s row = true →
    ∀ id, titleMatch rt db o row = some id → s.mediaFileId = id

variable {rt db o}

theorem shadowTracearr_eq_nil_iff : shadowTracearr rt db o.cutoff = [] ↔ NothingMatched rt db o := by
  rw [List.eq_nil_iff_forall_not_mem]
  constructor
  · intro hnone s hs row hrow
    rw [Bool.eq_false_iff]
    intro hmatched
    obtain ⟨a, ha, -⟩ := List.mem_map.mp (mem_shadowedIds.mpr ⟨row, hrow, rfl, hmatched⟩)
    exact hnone a (mem_shadowTracearr.mpr ⟨s, hs, ha⟩)
  · intro hnone a ha
    obtain ⟨s, hs, ha⟩ := mem_shadowTracearr.mp ha
    obtain ⟨row, hrow, -, hmatched⟩ := mem_shadowedIds.mp (List.mem_map_of_mem ha)
    rw [hnone s hs row hrow] at hmatched
    cases hmatched

theorem unresolvedRows_eq_nil_iff : unresolvedRows db o.cutoff = [] ↔ ¬SomeUnresolved db o := by
  rw [unresolvedRows, List.take_eq_nil_iff, or_iff_right (by decide), List.eq_nil_iff_forall_not_mem]
  constructor
  · rintro hnone ⟨row, hrow, hunresolved⟩
    exact hnone row (mem_byStartDesc.mpr (List.mem_filter.mpr ⟨hrow, hunresolved⟩))
  · intro hnone row hrow
    obtain ⟨hrow, hunresolved⟩ := List.mem_filter.mp (mem_byStartDesc.mp hrow)
    exact hnone ⟨row, hrow, hunresolved⟩

theorem link_counted_iff (hrow : row ∈ db.events) {id : String} :
    (∃ a ∈ counted rt db o, a.eventId = row.id ∧ a.reconciledWithSessionId = some id) ↔
      ∃ s ∈ sources db o.cutoff, matched rt db s row = true ∧ s.id = id := by
  constructor
  · rintro ⟨a, ha, hid, hlink⟩
    rcases List.mem_append.mp ha with hshadowed | hmatched
    · obtain ⟨s, hs, ha⟩ := mem_shadowTracearr.mp hshadowed
      obtain ⟨row', hrow', hid', hmatched⟩ := mem_shadowedIds.mp (List.mem_map_of_mem ha)
      rw [Table.eq_of_key_eq hrow' hrow (hid'.trans hid)] at hmatched
      refine ⟨s, hs, hmatched, ?_⟩
      rcases mem_shadowedBy.mp ha with ⟨_, _, _, rfl⟩ | ⟨_, _, _, rfl⟩
      · exact Option.some.inj hlink
      · exact Option.some.inj hlink
    · obtain ⟨row', -, id', -, rfl⟩ := mem_matchTitles.mp hmatched
      cases hlink
  · rintro ⟨s, hs, hmatched, rfl⟩
    rcases Bool.or_eq_true_iff.mp hmatched with hplay | htitle
    · exact ⟨_, List.mem_append_left _ (mem_shadowTracearr.mpr ⟨s, hs, mem_shadowedBy.mpr
        (.inl ⟨row, hrow, hplay, rfl⟩)⟩), rfl, rfl⟩
    · exact ⟨_, List.mem_append_left _ (mem_shadowTracearr.mpr ⟨s, hs, mem_shadowedBy.mpr
        (.inr ⟨row, hrow, htitle, rfl⟩)⟩), rfl, rfl⟩

theorem file_counted_iff (hrow : row ∈ db.events) {id : String} :
    (∃ a ∈ counted rt db o, a.eventId = row.id ∧ a.mediaFileId = some id) ↔
      (∃ s ∈ sources db o.cutoff, sameTitle rt db s row = true ∧ s.mediaFileId = id) ∨
        (row ∈ processedRows db o ∧ titleMatch rt db o row = some id) := by
  constructor
  · rintro ⟨a, ha, hid, hfile⟩
    rcases List.mem_append.mp ha with hshadowed | hmatched
    · obtain ⟨s, hs, ha⟩ := mem_shadowTracearr.mp hshadowed
      rcases mem_shadowedBy.mp ha with ⟨row', -, -, rfl⟩ | ⟨row', hrow', htitle, rfl⟩
      · cases hfile
      · rw [Table.eq_of_key_eq hrow' hrow hid] at htitle
        exact .inl ⟨s, hs, htitle, Option.some.inj hfile⟩
    · obtain ⟨row', hrow', id', hid', rfl⟩ := mem_matchTitles.mp hmatched
      cases hfile
      have hsame := Table.eq_of_key_eq (mem_of_processed hrow').1 hrow hid
      subst hsame
      exact .inr ⟨hrow', hid'⟩
  · rintro (⟨s, hs, htitle, rfl⟩ | ⟨hprocessed, hmatch⟩)
    · exact ⟨_, List.mem_append_left _ (mem_shadowTracearr.mpr ⟨s, hs, mem_shadowedBy.mpr
        (.inr ⟨row, hrow, htitle, rfl⟩)⟩), rfl, rfl⟩
    · exact ⟨_, List.mem_append_right _ (mem_matchTitles.mpr ⟨row, hprocessed, id, hmatch, rfl⟩), rfl, rfl⟩

theorem agrees_iff : (∀ a ∈ counted rt db o, ∀ b ∈ counted rt db o, a.eventId = b.eventId → Agrees a b) ↔
    SameAssigned rt db o := by
  constructor
  · intro hagree
    have hlinks : ∀ row ∈ db.events, ∀ id id', (∃ s ∈ sources db o.cutoff, matched rt db s row = true ∧
        s.id = id) → (∃ s ∈ sources db o.cutoff, matched rt db s row = true ∧ s.id = id') → id = id' := by
      intro row hrow id id' hid hid'
      obtain ⟨a, ha, hevent, hlink⟩ := (link_counted_iff hrow).mpr hid
      obtain ⟨b, hb, hevent', hlink'⟩ := (link_counted_iff hrow).mpr hid'
      exact (hagree a ha b hb (hevent.trans hevent'.symm)).1 id hlink id' hlink'
    have hfiles : ∀ row ∈ db.events, ∀ id id',
        ((∃ s ∈ sources db o.cutoff, sameTitle rt db s row = true ∧ s.mediaFileId = id) ∨
          (row ∈ processedRows db o ∧ titleMatch rt db o row = some id)) →
        ((∃ s ∈ sources db o.cutoff, sameTitle rt db s row = true ∧ s.mediaFileId = id') ∨
          (row ∈ processedRows db o ∧ titleMatch rt db o row = some id')) → id = id' := by
      intro row hrow id id' hid hid'
      obtain ⟨a, ha, hevent, hfile⟩ := (file_counted_iff hrow).mpr hid
      obtain ⟨b, hb, hevent', hfile'⟩ := (file_counted_iff hrow).mpr hid'
      exact (hagree a ha b hb (hevent.trans hevent'.symm)).2 id hfile id' hfile'
    constructor
    · intro s hs s' hs' row hrow hmatched hmatched'
      exact hlinks row hrow _ _ ⟨s, hs, hmatched, rfl⟩ ⟨s', hs', hmatched', rfl⟩
    · intro s hs s' hs' row hrow htitle htitle'
      exact hfiles row hrow _ _ (.inl ⟨s, hs, htitle, rfl⟩) (.inl ⟨s', hs', htitle', rfl⟩)
    · intro s hs row hrow htitle id hid
      exact hfiles row (mem_of_processed hrow).1 _ _ (.inl ⟨s, hs, htitle, rfl⟩) (.inr ⟨hrow, hid⟩)
  · rintro ⟨hlinks, hfiles, htitles⟩ a ha b hb hevent
    obtain ⟨row, hfound⟩ := Option.isSome_iff_exists.mp (isSome_find?_counted ha)
    obtain ⟨hrow, hid⟩ := Table.mem_of_find? hfound
    constructor
    · intro id hlink id' hlink'
      obtain ⟨s, hs, hmatched, rfl⟩ := (link_counted_iff hrow).mp ⟨a, ha, hid.symm, hlink⟩
      obtain ⟨s', hs', hmatched', rfl⟩ :=
        (link_counted_iff hrow).mp ⟨b, hb, hevent.symm.trans hid.symm, hlink'⟩
      exact hlinks s hs s' hs' row hrow hmatched hmatched'
    · intro id hfile id' hfile'
      have hfirst := (file_counted_iff hrow).mp ⟨a, ha, hid.symm, hfile⟩
      have hsecond := (file_counted_iff hrow).mp ⟨b, hb, hevent.symm.trans hid.symm, hfile'⟩
      rcases hfirst with ⟨s, hs, htitle, rfl⟩ | ⟨hprocessed, hmatch⟩
      · rcases hsecond with ⟨s', hs', htitle', rfl⟩ | ⟨hprocessed', hmatch'⟩
        · exact hfiles s hs s' hs' row hrow htitle htitle'
        · exact htitles s hs row hprocessed' htitle id' hmatch'
      · rcases hsecond with ⟨s', hs', htitle', rfl⟩ | ⟨-, hmatch'⟩
        · exact (htitles s' hs' row hprocessed htitle' id hmatch).symm
        · exact Option.some.inj (hmatch.symm.trans hmatch')

theorem returned_cases {r : Returned} (h : reconcileTracearrPlayback rt db o = some r) :
    r.outcome.matchedCrossSource + r.outcome.matchedTitleHeuristic = (counted rt db o).length ∧
      r.held = (counted rt db o).foldl assign db.events ∧
      (¬SomeUnresolved db o ∧ r.stored = db.events ∨ SomeUnresolved db o ∧ r.stored = r.held) := by
  simp only [reconcileTracearrPlayback] at h
  split at h
  · rename_i hrows
    have hmatches : matchTitles rt db o = [] := by simp [matchTitles, processedRows, hrows, withinBudget]
    cases h
    refine ⟨?_, ?_, .inl ⟨unresolvedRows_eq_nil_iff.mp hrows, rfl⟩⟩
    · simp [counted, hmatches]
    · simp [counted, hmatches]
  · rename_i hrows
    split at h
    · cases h
    · cases h
      refine ⟨?_, ?_, .inr ⟨?_, rfl⟩⟩
      · simp [counted]
      · simp [counted]
      · rw [unresolvedRows_eq_nil_iff, not_not] at hrows
        exact hrows

theorem counted_eq_nil (hmatched : NothingMatched rt db o) (hnone : ¬SomeUnresolved db o) :
    counted rt db o = [] := by
  simp [counted, shadowTracearr_eq_nil_iff.mpr hmatched, matchTitles, processedRows,
    unresolvedRows_eq_nil_iff.mpr hnone, withinBudget]

theorem unlinked_of_shadowed (h : a ∈ shadowTracearr rt db o.cutoff) :
    (∃ id, a.reconciledWithSessionId = some id) ∧ ∃ row, db.events.find? a.eventId = some row ∧
      row.event.reconciledWithSessionId = none := by
  obtain ⟨s, -, ha⟩ := mem_shadowTracearr.mp h
  have hlink : ∃ id, a.reconciledWithSessionId = some id := by
    rcases mem_shadowedBy.mp ha with ⟨_, _, _, rfl⟩ | ⟨_, _, _, rfl⟩
    · exact ⟨_, rfl⟩
    · exact ⟨_, rfl⟩
  obtain ⟨row, hrow, hid, hmatched⟩ := mem_shadowedIds.mp (List.mem_map_of_mem ha)
  refine ⟨hlink, row, Table.find?_eq_some.mpr ⟨hrow, hid⟩, ?_⟩
  have hwindow := inWindow_of_matched hmatched
  simp only [inWindow, Bool.and_eq_true, Option.isNone_iff_eq_none] at hwindow
  exact hwindow.1.2

theorem not_stored_of_shadowed (hmatched : ¬NothingMatched rt db o) : ∃ a ∈ counted rt db o,
    db.events.find? a.eventId ≠ ((counted rt db o).foldl assign db.events).find? a.eventId ∧
      ¬Stands db.events a := by
  rw [← shadowTracearr_eq_nil_iff] at hmatched
  obtain ⟨a, ha⟩ := List.exists_mem_of_ne_nil _ hmatched
  have hcounted : a ∈ counted rt db o := List.mem_append_left _ ha
  obtain ⟨⟨id, hid⟩, row, hrow, hunlinked⟩ := unlinked_of_shadowed ha
  refine ⟨a, hcounted, ?_, ?_⟩
  · obtain ⟨row', hrow', hlinked⟩ := linked_foldl_of_mem hcounted (isSome_find?_counted hcounted)
      (by rw [hid]; exact Option.some_ne_none id)
    rw [hrow, hrow']
    rintro ⟨⟩
    rw [hunlinked] at hlinked
    cases hlinked
  · rintro ⟨row', hrow', hlink, -⟩
    rw [hrow] at hrow'
    cases hrow'
    rw [hlink id hid] at hunlinked
    cases hunlinked

/-- A run stores the rows as the session holds them iff nothing was matched in pass A or pass B
    has a row to look at; it stores each counted assignment iff, besides, none of them is
    replaced. -/
theorem committed_iff {r : Returned} (hr : reconcileTracearrPlayback rt db o = some r) :
    r.outcome.matchedCrossSource + r.outcome.matchedTitleHeuristic = (counted rt db o).length ∧
    ((∀ a ∈ counted rt db o, r.stored.find? a.eventId = r.held.find? a.eventId) ↔
      NothingMatched rt db o ∨ SomeUnresolved db o) ∧
    ((∀ a ∈ counted rt db o, Stands r.stored a) ↔
      (NothingMatched rt db o ∨ SomeUnresolved db o) ∧ SameAssigned rt db o) := by
  obtain ⟨htotal, hheld, hcases⟩ := returned_cases hr
  rcases hcases with ⟨hnone, hstored⟩ | ⟨hsome, hstored⟩
  · -- no commit
    rw [or_iff_left hnone, hstored, hheld]
    by_cases hmatched : NothingMatched rt db o
    · have hempty := counted_eq_nil hmatched hnone
      have hsame : SameAssigned rt db o := by
        rw [← agrees_iff, hempty]
        exact fun a ha => absurd ha List.not_mem_nil
      rw [hempty]
      exact ⟨htotal.trans (by rw [hempty]), iff_of_true (fun a ha => absurd ha List.not_mem_nil) hmatched,
        iff_of_true (fun a ha => absurd ha List.not_mem_nil) ⟨hmatched, hsame⟩⟩
    · obtain ⟨a, ha, hdiffers, hmissing⟩ := not_stored_of_shadowed hmatched
      exact ⟨htotal, iff_of_false (fun hall => hdiffers (hall a ha)) hmatched,
        iff_of_false (fun hall => hmissing (hall a ha)) fun h => hmatched h.1⟩
  · rw [hstored, or_iff_right_of_imp fun _ => hsome, and_iff_right hsome, hheld]
    refine ⟨htotal, iff_of_true (fun _ _ => rfl) hsome, ?_⟩
    rw [stands_foldl_iff fun a ha => isSome_find?_counted ha, agrees_iff]

end Stored

/-! ### A play that two integrations saw -/

def plainEvent (integrationId upstreamId sourcePath : String) (mediaFileId : Option String)
    (startedAt : Timestamp) : PlaybackEvent where
  integrationId := integrationId
  upstreamId := upstreamId
  mediaFileId := mediaFileId
  sourcePath := sourcePath
  deviceKind := none
  deviceName := none
  decision := "direct_play"
  sourceCodec := none
  sourceBitrateKbps := none
  sourceWidth := none
  sourceHeight := none
  startedAt := startedAt

def kinds : String → Option String
  | "plex" => some "plex"
  | "jellyfin" => some "jellyfin"
  | "tracearr" => some "tracearr"
  | _ => none

def heat : Database.MediaFile :=
  { Database.MediaFile.unprobed "m1" "l1" "Heat.mkv" "mkv" with category := "media" }

theorem heat_unique : ([heat].map Database.MediaFile.id).Nodup := List.nodup_singleton _

theorem events_unique (mediaFileId : Option String) :
    ([(⟨"p1", plainEvent "plex" "u1" "/m/Heat.mkv" (some "m1") 0⟩ : EventRow),
      ⟨"j1", plainEvent "jellyfin" "u1" "/m/Heat.mkv" (some "m1") 1⟩,
      ⟨"t1", plainEvent "tracearr" "u1" "tracearr://s/movie/Heat" mediaFileId 2⟩].map
        EventRow.id).Nodup := by
  show ["p1", "j1", "t1"].Nodup
  decide

/-- Plex, Jellyfin and Tracearr report the same play. -/
def seenThrice (mediaFileId : Option String) : Db where
  events := ⟨[⟨"p1", plainEvent "plex" "u1" "/m/Heat.mkv" (some "m1") 0⟩,
    ⟨"j1", plainEvent "jellyfin" "u1" "/m/Heat.mkv" (some "m1") 1⟩,
    ⟨"t1", plainEvent "tracearr" "u1" "tracearr://s/movie/Heat" mediaFileId 2⟩], events_unique mediaFileId⟩
  sessions := .empty
  media := ⟨[heat], heat_unique⟩
  kindOf := kinds

/-- Letters are lower case already, and all texts are alike. -/
def simpleRuntime : ReconcilerRuntime := ⟨id, fun _ _ => .finite 1, fun _ _ => true⟩

def firstRun : Occasion := ⟨0, fun _ => false, fun _ => false, false⟩

/-- While the file of the event is not known, pass B has a row to look at. -/
theorem committed_iff_seenThrice : ∃ r,
    reconcileTracearrPlayback simpleRuntime (seenThrice none) firstRun = some r ∧
      ∀ a ∈ counted simpleRuntime (seenThrice none) firstRun,
        r.stored.find? a.eventId = r.held.find? a.eventId := by
  have hreturned : (reconcileTracearrPlayback simpleRuntime (seenThrice none) firstRun).isSome = true := by
    decide
  obtain ⟨r, hr⟩ := Option.isSome_iff_exists.mp hreturned
  have hsome : SomeUnresolved (seenThrice none) firstRun :=
    ⟨_, .tail _ (.tail _ (.head _)), by decide⟩
  exact ⟨r, hr, (committed_iff hr).2.1.mpr (.inr hsome)⟩

/-- The event of Tracearr is linked to both plays, and no link is stored. -/
theorem links_lost : ∃ r, reconcileTracearrPlayback simpleRuntime (seenThrice (some "m1")) firstRun = some r ∧
    r.outcome.matchedCrossSource = 2 ∧
      ¬∀ a ∈ counted simpleRuntime (seenThrice (some "m1")) firstRun, Stands r.stored a := by
  refine ⟨_, rfl, by decide, ?_⟩
  intro h
  have hlost := h ⟨"t1", some "p1", none⟩ (by decide)
  obtain ⟨row, hrow, hlink, -⟩ := hlost
  have hstored : (seenThrice (some "m1")).events.find? "t1" =
      some ⟨"t1", plainEvent "tracearr" "u1" "tracearr://s/movie/Heat" (some "m1") 2⟩ := by decide
  cases hstored.symm.trans hrow
  cases hlink "p1" rfl

/-- The event of Tracearr is counted for each of the two plays. -/
theorem event_counted_twice :
    ¬(countedEvents simpleRuntime (seenThrice (some "m1")) firstRun).Nodup := by
  have hcounted : countedEvents simpleRuntime (seenThrice (some "m1")) firstRun = ["t1", "t1"] := by decide
  rw [hcounted]
  decide

end TracearrReconciler
