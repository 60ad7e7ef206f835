/-
  Auditarr/PathPrefixes.lean
  ==========================
  **Which mapping a path is translated by** (`app/integrations/path_mapping.py`,
  `app/services/playback/poller.py`, `app/services/playback/session_manager.py`).

  `remap_path` takes the first mapping of its list that the path lies under.  The mappings of
  an integration come longest prefix first, so theirs is the longest; the global ones come in
  the order that the operator gives them, so theirs is the foremost
  (`remapPath_applies_in_order`).

  Where no prefix of a list lies under another, on either side, there is one mapping to apply,
  and the two directions undo each other (`remapPath_round_trip`).
-/
import Auditarr.PathTranslation

namespace PathPrefixes

open PyValues PathMappings PlaybackPoller SessionManager PathTranslation

/-! ### Paths under a directory -/

/-- The path is the directory, or in it. -/
def Under (directory path : String) : Prop :=
  ∃ rest, path = directory ++ rest ∧ (rest = "" ∨ ∃ name, rest = "/" ++ name)

theorem under_iff {directory path : String} : Under directory path ↔
    path = directory ∨ directory.toList ++ ['/'] <+: path.toList := by
  constructor
  · rintro ⟨rest, rfl, rfl | ⟨name, rfl⟩⟩
    · left
      exact String.append_empty
    · right
      exact ⟨name.toList, by simp⟩
  · rintro (rfl | ⟨name, hname⟩)
    · exact ⟨"", String.append_empty.symm, .inl rfl⟩
    · refine ⟨"/" ++ String.ofList name, ?_, .inr ⟨_, rfl⟩⟩
      rw [← String.toList_inj, ← hname]
      simp

theorem under_or_under {a b path : String} (ha : Under a path) (hb : Under b path) :
    Under a b ∨ Under b a := by
  wlog hle : a.length ≤ b.length generalizing a b
  · exact (this hb ha (by omega)).symm
  left
  obtain ⟨rest, hpath, hrest⟩ := ha
  obtain ⟨rest', hpath', -⟩ := hb
  have hprefix : a.toList <+: b.toList := by
    have hfront : a.toList <+: path.toList := by
      rw [hpath, String.toList_append]
      exact List.prefix_append ..
    have hfront' : b.toList <+: path.toList := by
      rw [hpath', String.toList_append]
      exact List.prefix_append ..
    apply List.prefix_of_prefix_length_le hfront hfront'
    simpa only [String.length_toList] using hle
  obtain ⟨between, hbetween⟩ := hprefix
  -- what is between them begins the rest of the path after the shorter one
  have hsplit : rest.toList = between ++ rest'.toList := by
    rw [hpath, ← String.toList_inj, String.toList_append, String.toList_append, ← hbetween,
      List.append_assoc] at hpath'
    exact List.append_cancel_left hpath'
  refine ⟨String.ofList between, ?_, ?_⟩
  · rw [← String.toList_inj, String.toList_append, String.toList_ofList, hbetween]
  · rcases between with _ | ⟨c, between⟩
    · exact .inl rfl
    · rcases hrest with rfl | ⟨name, rfl⟩
      · simp at hsplit
      · right
        have hslash : "/".toList = ['/'] := rfl
        rw [String.toList_append, hslash] at hsplit
        obtain ⟨rfl, -⟩ := List.cons.inj hsplit
        refine ⟨String.ofList between, ?_⟩
        rw [← String.toList_inj]
        simp

theorem applies_iff {m : PathMapping} {path : String} :
    m.applies path = true ↔ Under m.srcPrefix path := by
  rw [under_iff, PathMapping.applies, Bool.or_eq_true, decide_eq_true_eq, List.isPrefixOf_iff_prefix]

theorem appliesInverse_iff {m : PathMapping} {path : String} :
    m.appliesInverse path = true ↔ Under m.dstPrefix path := by
  rw [under_iff, PathMapping.appliesInverse, Bool.or_eq_true, decide_eq_true_eq,
    List.isPrefixOf_iff_prefix]

/-! ### The mapping that is applied -/

section Applied

variable {Row : Type} (mapping : Row → PathMapping) (foremost : Row → Row → Prop)

/-- A path is translated by a row that it lies under, one that is foremost of all such rows,
    and left alone where there is none. -/
structure AppliedBy (rows : List Row) (path out : String) : Prop where
  applied : ∀ row ∈ rows, Under (mapping row).srcPrefix path → ∃ best ∈ rows,
    Under (mapping best).srcPrefix path ∧ out = exchange (mapping best) path ∧
      ∀ other ∈ rows, Under (mapping other).srcPrefix path → foremost best other
  unchanged : (∀ row ∈ rows, ¬Under (mapping row).srcPrefix path) → out = path

variable {mapping foremost}

theorem appliedBy_of_pairwise {rows : List Row} (hsorted : rows.Pairwise foremost)
    (hrefl : ∀ row, foremost row row) (path : String) :
    AppliedBy mapping foremost rows path (remapPath path (rows.map mapping)) := by
  have hfind : (rows.map mapping).find? (·.applies path) =
      (rows.find? fun row => (mapping row).applies path).map mapping := by
    rw [List.find?_map]
    rfl
  cases hfirst : rows.find? fun row => (mapping row).applies path with
  | none =>
    have hnone : ∀ row ∈ rows, ¬Under (mapping row).srcPrefix path := by
      intro row hrow
      rw [← applies_iff]
      exact List.find?_eq_none.mp hfirst row hrow
    rw [hfirst, Option.map_none] at hfind
    constructor
    · intro row hrow hunder
      exact absurd hunder (hnone row hrow)
    · intro _
      exact remapPath_none hfind
  | some best =>
    obtain ⟨hbest, before, after, rfl, hbefore⟩ := List.find?_eq_some_iff_append.mp hfirst
    rw [hfirst, Option.map_some] at hfind
    have hunder := applies_iff.mp hbest
    have hmem : best ∈ before ++ best :: after := by simp
    constructor
    · intro _ _ _
      refine ⟨best, hmem, hunder, remapPath_some hfind, ?_⟩
      intro other hother happlies
      rw [← applies_iff] at happlies
      rcases List.mem_append.mp hother with hfront | hback
      · have hskipped := hbefore other hfront
        simp [happlies] at hskipped
      · rcases List.mem_cons.mp hback with rfl | hback
        · exact hrefl other
        · exact (List.pairwise_cons.mp (List.pairwise_append.mp hsorted).2.1).1 other hback
    · intro hnone
      exact absurd hunder (hnone best hmem)

theorem AppliedBy.of_mem_iff {rows rows' : List Row} {path out : String}
    (h : AppliedBy mapping foremost rows path out) (hmem : ∀ row, row ∈ rows' ↔ row ∈ rows) :
    AppliedBy mapping foremost rows' path out := by
  obtain ⟨happlied, hunchanged⟩ := h
  constructor
  · intro row hrow hunder
    obtain ⟨best, hbest, hbestUnder, hout, hforemost⟩ := happlied row ((hmem row).mp hrow) hunder
    refine ⟨best, (hmem best).mpr hbest, hbestUnder, hout, ?_⟩
    intro other hother
    exact hforemost other ((hmem other).mp hother)
  · intro hnone
    apply hunchanged
    intro row hrow
    exact hnone row ((hmem row).mpr hrow)

end Applied

/-- One prefix is at least as long as another. -/
def Longer (m m' : PathMapping) : Prop := m'.srcPrefix.length ≤ m.srcPrefix.length

/-- One row is before another in the order of the operator, or neither is. -/
def Precedes (r r' : GlobalPathMapping) : Prop :=
  r.priority < r'.priority ∨ r.priority = r'.priority ∧ r.createdAt ≤ r'.createdAt

/-- The rows that the poller translates by. -/
def polledRows (t : Tables) : List GlobalPathMapping :=
  t.globalMappings.filter fun r => r.enabled && decide (r.fromPath ≠ "" ∧ r.toPath ≠ "")

/-- The rows that the writer of live sessions translates by. -/
def streamedRows (t : Tables) : List GlobalPathMapping := t.globalMappings.filter (·.enabled)

def strippedMapping (r : GlobalPathMapping) : PathMapping :=
  ⟨rstripSlash r.fromPath, rstripSlash r.toPath⟩

def storedMapping (r : GlobalPathMapping) : PathMapping := ⟨r.fromPath, r.toPath⟩

theorem pairwise_parseMappings (v : PyValue) : (parseMappings v).Pairwise Longer := by
  unfold parseMappings
  split
  · refine (List.pairwise_mergeSort ?_ ?_ _).imp ?_
    · intro a b c hab hbc
      rw [decide_eq_true_eq] at hab hbc ⊢
      exact hbc.trans hab
    · intro a b
      rw [Bool.or_eq_true, decide_eq_true_eq, decide_eq_true_eq]
      exact Nat.le_total ..
    · intro a b hab
      rwa [decide_eq_true_eq] at hab
  · exact .nil

theorem Precedes.refl (r : GlobalPathMapping) : Precedes r r := .inr ⟨rfl, le_rfl⟩

theorem Precedes.trans {a b c : GlobalPathMapping} (hab : Precedes a b) (hbc : Precedes b c) :
    Precedes a c := by
  rcases hab with hlt | ⟨heq, hle⟩
  · rcases hbc with hlt' | ⟨heq', -⟩
    · exact .inl (hlt.trans hlt')
    · exact .inl (hlt.trans_eq heq')
  · rcases hbc with hlt' | ⟨heq', hle'⟩
    · exact .inl (heq.trans_lt hlt')
    · exact .inr ⟨heq.trans heq', hle.trans hle'⟩

theorem Precedes.total (a b : GlobalPathMapping) : Precedes a b ∨ Precedes b a := by
  rcases lt_trichotomy a.priority b.priority with hlt | heq | hgt
  · exact .inl (.inl hlt)
  · exact (le_total a.createdAt b.createdAt).imp (fun h => .inr ⟨heq, h⟩) fun h => .inr ⟨heq.symm, h⟩
  · exact .inr (.inl hgt)

theorem precedes_iff {r r' : GlobalPathMapping} :
    (decide (r.priority < r'.priority) ||
      (decide (r.priority = r'.priority) && decide (r.createdAt ≤ r'.createdAt))) = true ↔
        Precedes r r' := by
  rw [Bool.or_eq_true, Bool.and_eq_true, decide_eq_true_eq, decide_eq_true_eq, decide_eq_true_eq,
    Precedes]

theorem pairwise_enabledMappings (t : Tables) : (enabledMappings t).Pairwise Precedes := by
  refine (List.pairwise_mergeSort ?_ ?_ _).imp precedes_iff.mp
  · intro a b c hab hbc
    rw [precedes_iff] at hab hbc ⊢
    exact hab.trans hbc
  · intro a b
    rw [Bool.or_eq_true, precedes_iff, precedes_iff]
    exact Precedes.total a b

theorem mem_polledRows {t : Tables} {r : GlobalPathMapping} : r ∈ polledRows t ↔
    r ∈ (enabledMappings t).filter fun r => r.fromPath ≠ "" ∧ r.toPath ≠ "" := by
  simp only [polledRows, enabledMappings, List.mem_filter, List.mem_mergeSort, Bool.and_eq_true,
    and_assoc]

theorem mem_streamedRows {t : Tables} {r : GlobalPathMapping} :
    r ∈ streamedRows t ↔ r ∈ enabledMappings t := by
  rw [streamedRows, enabledMappings, List.mem_mergeSort]

/-- A path is translated by the longest prefix among the mappings of an integration, and by
    the foremost row among the global ones. -/
theorem remapPath_applies_in_order (path : String) :
    (∀ v, AppliedBy id Longer (parseMappings v) path (remapPath path (parseMappings v))) ∧
    (∀ t, AppliedBy strippedMapping Precedes (polledRows t) path
      (remapPath path (globalMappings t))) ∧
    ∀ t, AppliedBy storedMapping Precedes (streamedRows t) path
      (remapPath path (loadGlobalMappings t)) := by
  refine ⟨?_, ?_, ?_⟩
  · intro v
    have h : AppliedBy id Longer (parseMappings v) path
        (remapPath path ((parseMappings v).map id)) :=
      appliedBy_of_pairwise (pairwise_parseMappings v) (fun _ => le_rfl) path
    rwa [List.map_id] at h
  · intro t
    apply AppliedBy.of_mem_iff _ fun _ => mem_polledRows
    exact appliedBy_of_pairwise ((pairwise_enabledMappings t).filter _) Precedes.refl path
  · intro t
    apply AppliedBy.of_mem_iff _ fun _ => mem_streamedRows
    exact appliedBy_of_pairwise (pairwise_enabledMappings t) Precedes.refl path

/-- The directory of the series is inside the one of all media, which comes first. -/
def nestedTables : Tables :=
  { emptyTables with globalMappings :=
      [⟨"/media", "/mnt/a", true, 0, 0⟩, ⟨"/media/tv", "/mnt/tv", true, 0, 1⟩] }

theorem globalMappings_nested :
    globalMappings nestedTables = [⟨"/media", "/mnt/a"⟩, ⟨"/media/tv", "/mnt/tv"⟩] := by
  have hsorted : enabledMappings nestedTables = nestedTables.globalMappings :=
    List.mergeSort_of_pairwise (by decide)
  rw [globalMappings, hsorted]
  decide +kernel

/-- The shorter prefix is applied, which the operator has put first. -/
theorem longest_not_applied : remapPath "/media/tv/x.mkv" (globalMappings nestedTables) =
      "/mnt/a/tv/x.mkv" ∧
    ¬AppliedBy id Longer (globalMappings nestedTables) "/media/tv/x.mkv"
      (remapPath "/media/tv/x.mkv" (globalMappings nestedTables)) := by
  have hinner : Under "/media/tv" "/media/tv/x.mkv" := ⟨"/x.mkv", rfl, .inr ⟨"x.mkv", rfl⟩⟩
  have hout : remapPath "/media/tv/x.mkv" [⟨"/media", "/mnt/a"⟩, ⟨"/media/tv", "/mnt/tv"⟩] =
      "/mnt/a/tv/x.mkv" := by
    decide +kernel
  have hlonger : ¬Longer ⟨"/media", "/mnt/a"⟩ ⟨"/media/tv", "/mnt/tv"⟩ := by
    unfold Longer
    decide
  rw [globalMappings_nested, hout]
  refine ⟨rfl, ?_⟩
  intro happlied
  obtain ⟨best, hbest, -, hbestOut, hlongest⟩ :=
    happlied.applied ⟨"/media/tv", "/mnt/tv"⟩ (by simp) hinner
  rcases List.mem_cons.mp hbest with rfl | hbest
  · exact hlonger (hlongest ⟨"/media/tv", "/mnt/tv"⟩ (by simp) hinner)
  · rw [List.mem_singleton.mp hbest] at hbestOut
    exact absurd hbestOut (by decide +kernel)

/-! ### There and back -/

/-- The path with the prefixes of the mapping exchanged the other way. -/
def exchangeBack (m : PathMapping) (path : String) : String :=
  m.srcPrefix ++ String.ofList (path.toList.drop m.dstPrefix.length)

/-- No prefix is another one, or in it, on either side. -/
structure NonNested (mappings : List PathMapping) : Prop where
  src : ∀ m ∈ mappings, ∀ m' ∈ mappings, m ≠ m' → ¬Under m.srcPrefix m'.srcPrefix
  dst : ∀ m ∈ mappings, ∀ m' ∈ mappings, m ≠ m' → ¬Under m.dstPrefix m'.dstPrefix

theorem NonNested.src_unique {mappings : List PathMapping} (h : NonNested mappings)
    {m m' : PathMapping} (hm : m ∈ mappings) (hm' : m' ∈ mappings) {path : String}
    (hunder : Under m.srcPrefix path) (hunder' : Under m'.srcPrefix path) : m = m' := by
  by_contra hne
  rcases under_or_under hunder hunder' with hin | hin
  · exact h.src m hm m' hm' hne hin
  · exact h.src m' hm' m hm (Ne.symm hne) hin

theorem NonNested.dst_unique {mappings : List PathMapping} (h : NonNested mappings)
    {m m' : PathMapping} (hm : m ∈ mappings) (hm' : m' ∈ mappings) {path : String}
    (hunder : Under m.dstPrefix path) (hunder' : Under m'.dstPrefix path) : m = m' := by
  by_contra hne
  rcases under_or_under hunder hunder' with hin | hin
  · exact h.dst m hm m' hm' hne hin
  · exact h.dst m' hm' m hm (Ne.symm hne) hin

theorem find?_of_unique {α : Type} {p : α → Bool} {l : List α} {a : α} (hmem : a ∈ l)
    (ha : p a = true) (hunique : ∀ b ∈ l, p b = true → b = a) : l.find? p = some a := by
  cases hfind : l.find? p with
  | none => exact absurd ha (List.find?_eq_none.mp hfind a hmem)
  | some b => rw [hunique b (List.mem_of_find?_eq_some hfind) (List.find?_some hfind)]

theorem NonNested.remapPath_eq {mappings : List PathMapping} (h : NonNested mappings)
    {m : PathMapping} (hm : m ∈ mappings) {path : String} (hunder : Under m.srcPrefix path) :
    remapPath path mappings = exchange m path := by
  apply remapPath_some
  apply find?_of_unique hm (applies_iff.mpr hunder)
  intro m' hm' happlies
  exact h.src_unique hm' hm (applies_iff.mp happlies) hunder

theorem NonNested.remapPathInverse_eq {mappings : List PathMapping} (h : NonNested mappings)
    {m : PathMapping} (hm : m ∈ mappings) {path : String} (hunder : Under m.dstPrefix path) :
    remapPathInverse path mappings = exchangeBack m path := by
  have hfind : (mappings.mergeSort fun m m' => decide (m'.dstPrefix.length ≤ m.dstPrefix.length)).find?
      (·.appliesInverse path) = some m := by
    apply find?_of_unique (List.mem_mergeSort.mpr hm) (appliesInverse_iff.mpr hunder)
    intro m' hm' happlies
    exact h.dst_unique (List.mem_mergeSort.mp hm') hm (appliesInverse_iff.mp happlies) hunder
  simp only [remapPathInverse, hfind, exchangeBack]

theorem drop_append_string (a rest : String) :
    String.ofList ((a ++ rest).toList.drop a.length) = rest := by
  rw [String.toList_append, ← String.length_toList, List.drop_left, String.ofList_toList]

theorem exchange_under {m : PathMapping} {path : String} (h : Under m.srcPrefix path) :
    Under m.dstPrefix (exchange m path) ∧ exchangeBack m (exchange m path) = path := by
  obtain ⟨rest, rfl, hrest⟩ := h
  rw [exchange, drop_append_string, exchangeBack, drop_append_string]
  exact ⟨⟨rest, rfl, hrest⟩, rfl⟩

theorem exchangeBack_under {m : PathMapping} {path : String} (h : Under m.dstPrefix path) :
    Under m.srcPrefix (exchangeBack m path) ∧ exchange m (exchangeBack m path) = path := by
  obtain ⟨rest, rfl, hrest⟩ := h
  rw [exchangeBack, drop_append_string, exchange, drop_append_string]
  exact ⟨⟨rest, rfl, hrest⟩, rfl⟩

/-- Where the prefixes of an integration's mappings are not nested, on either side, the two
    directions undo each other. -/
theorem remapPath_round_trip (v : PyValue) (h : NonNested (parseMappings v)) :
    (∀ path, (∃ m ∈ parseMappings v, Under m.srcPrefix path) →
      remapPathInverse (remapPath path (parseMappings v)) (parseMappings v) = path) ∧
    ∀ path, (∃ m ∈ parseMappings v, Under m.dstPrefix path) →
      remapPath (remapPathInverse path (parseMappings v)) (parseMappings v) = path := by
  constructor
  · rintro path ⟨m, hm, hunder⟩
    obtain ⟨hthere, hback⟩ := exchange_under hunder
    rw [h.remapPath_eq hm hunder, h.remapPathInverse_eq hm hthere, hback]
  · rintro path ⟨m, hm, hunder⟩
    obtain ⟨hthere, hback⟩ := exchangeBack_under hunder
    rw [h.remapPathInverse_eq hm hunder, h.remapPath_eq hm hthere, hback]

/-- Two directories of an integration, and where the library has them. -/
def twoMappings : PyValue :=
  .list [.dict [("from", .str "/data/movies"), ("to", .str "/mnt/media/Movies")],
    .dict [("from", .str "/data/tv"), ("to", .str "/mnt/media/TV")]]

theorem mem_twoMappings {m : PathMapping} (hm : m ∈ parseMappings twoMappings) :
    m = ⟨"/data/movies", "/mnt/media/Movies"⟩ ∨ m = ⟨"/data/tv", "/mnt/media/TV"⟩ := by
  rw [twoMappings, parseMappings, List.mem_mergeSort] at hm
  have hparsed : [PyValue.dict [("from", .str "/data/movies"), ("to", .str "/mnt/media/Movies")],
      .dict [("from", .str "/data/tv"), ("to", .str "/mnt/media/TV")]].filterMap parseEntry =
        [⟨"/data/movies", "/mnt/media/Movies"⟩, ⟨"/data/tv", "/mnt/media/TV"⟩] := by
    decide +kernel
  rw [hparsed] at hm
  simpa using hm

instance (directory path : String) : Decidable (Under directory path) :=
  decidable_of_iff _ under_iff.symm

/-- Movies and series are apart, there and here. -/
theorem round_trip_twoMappings :
    (∀ path, (∃ m ∈ parseMappings twoMappings, Under m.srcPrefix path) →
      remapPathInverse (remapPath path (parseMappings twoMappings))
        (parseMappings twoMappings) = path) ∧
    ∀ path, (∃ m ∈ parseMappings twoMappings, Under m.dstPrefix path) →
      remapPath (remapPathInverse path (parseMappings twoMappings))
        (parseMappings twoMappings) = path := by
  apply remapPath_round_trip
  constructor
  · intro m hm m' hm' hne
    rcases mem_twoMappings hm with rfl | rfl <;> rcases mem_twoMappings hm' with rfl | rfl
    · exact absurd rfl hne
    · decide +kernel
    · decide +kernel
    · exact absurd rfl hne
  · intro m hm m' hm' hne
    rcases mem_twoMappings hm with rfl | rfl <;> rcases mem_twoMappings hm' with rfl | rfl
    · exact absurd rfl hne
    · decide +kernel
    · decide +kernel
    · exact absurd rfl hne

end PathPrefixes
