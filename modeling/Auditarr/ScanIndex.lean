/-
  Auditarr/ScanIndex.lean
  =======================
  **What the files found on disk do to the media table.**

  After some files of the walk, every media row is one the scan has written, for one of
  them, or a row of the table before the scan whose path none of them has (`Indexed`).
  Marking the orphans then touches rows of the second kind only (`Swept`).  A scan that
  returns a completed report has committed such a table, and then a rules pass over it.
-/
import Auditarr.Scanner
import Auditarr.SeverityInvariant

namespace ScanIndex

open Effects Transactions KeyedTable PyValues RuleSchema RuleEvaluator RuleAggregation
open Database RulesService RulesEffect RulesTotality RulesPass Ffprobe Scanner

/-! ### The row of a file -/

section Rows

variable {env : ScanEnv} {libraryId runId : String} {disposition : Option Disposition}
  {file : Found} {result : Option FfprobeResult}

/-- The columns no probe changes. -/
def unprobedColumns (m : MediaFile) :
    String × String × String × Option String × Bool × Option String × Option String :=
  (m.path, m.libraryId, m.extension, m.lastScanId, m.isOrphaned, m.hashSha256, m.vtStatus)

theorem unprobedColumns_withProbe {m m' : MediaFile} (h : withProbe env m result = .ok m') :
    unprobedColumns m' = unprobedColumns m := by
  unfold withProbe at h
  rcases result with _ | result
  · cases h
    rfl
  · by_cases hok : result.ok = true
    · simp only [hok, if_true] at h
      obtain ⟨videoCodec, -, h⟩ := bind_eq_ok.mp h
      obtain ⟨audioCodec, -, h⟩ := bind_eq_ok.mp h
      obtain ⟨subtitleCodec, -, h⟩ := bind_eq_ok.mp h
      cases h
      rfl
    · simp only [hok] at h
      cases h
      rfl

theorem buildMediaFile_columns {mf : MediaFile}
    (h : buildMediaFile env libraryId runId disposition file result = .ok mf) :
    unprobedColumns mf =
        (file.str, libraryId, file.extension env.rt, some runId, false, none, none) ∧
      (mf.severity, mf.severityRank) = initialSeverity disposition := by
  unfold buildMediaFile at h
  obtain ⟨m, hprobe, h⟩ := bind_eq_ok.mp h
  cases h
  exact ⟨unprobedColumns_withProbe hprobe, rfl⟩

theorem path_eq_of_str_eq {file' : Found} (h : file'.str = file.str) : file'.path = file.path :=
  PosixPath.render_injective (String.ofList_injective h)

end Rows

/-! ### The table while the files are gone through -/

section Index

variable (env : ScanEnv) (before : Tables) (libraryId runId : String)

/-- The row built for a file, and its id is still to come. -/
def Built (file : Found) (mf : MediaFile) : Prop :=
  ∃ result, probeFile env file = .ok result ∧
    buildMediaFile env libraryId runId (dispositionMap before (file.extension env.rt)) file result =
      .ok mf

/-- The row a scan writes for a file: a new one, or the one that was there refreshed. -/
def Written (file : Found) (m : MediaFile) : Prop :=
  ∃ mf, Built env before libraryId runId file mf ∧
    match before.mediaAt file.str with
    | none => m = { mf with id := m.id }
    | some old => m = refreshed mf old

/-- The tables after some files, seen from those before the first. -/
structure Indexed (done : List Found) (t : Tables) : Prop where
  rows : ∀ m ∈ t.media, (∃ file ∈ done, Written env before libraryId runId file m) ∨
    (m ∈ before.media ∧ ∀ file ∈ done, file.str ≠ m.path)
  kept : ∀ old ∈ before.media, ∃ m ∈ t.media, m.path = old.path
  written : ∀ file ∈ done, ∃ m ∈ t.media, m.path = file.str
  rules : t.rules = before.rules
  tags : t.tags = before.tags

variable {env before libraryId runId} {done : List Found} {file : Found} {mf m : MediaFile} {t t' : Tables}

theorem Written.columns (h : Written env before libraryId runId file m) :
    m.path = file.str ∧ m.libraryId = libraryId ∧ m.extension = file.extension env.rt ∧
      m.lastScanId = some runId ∧ m.isOrphaned = false := by
  obtain ⟨mf, ⟨result, -, hbuild⟩, hm⟩ := h
  obtain ⟨hcolumns, -⟩ := buildMediaFile_columns hbuild
  simp only [unprobedColumns, Prod.mk.injEq] at hcolumns
  obtain ⟨hpath, hlibrary, hextension, hscan, horphaned, -, -⟩ := hcolumns
  rcases hold : before.mediaAt file.str with _ | old
  · rw [hold] at hm
    rw [hm]
    exact ⟨hpath, hlibrary, hextension, hscan, horphaned⟩
  · rw [hold] at hm
    rw [hm]
    exact ⟨(Tables.mediaAt_eq_some.mp hold).2, hlibrary, hextension, hscan, horphaned⟩

theorem Built.path (h : Built env before libraryId runId file mf) : mf.path = file.str := by
  obtain ⟨result, -, hbuild⟩ := h
  exact congrArg Prod.fst (buildMediaFile_columns hbuild).1

theorem indexed_start (hmedia : t.media = before.media) (hrules : t.rules = before.rules)
    (htags : t.tags = before.tags) : Indexed env before libraryId runId [] t where
  rows m hm := .inr ⟨hmedia ▸ hm, fun _ hnone => by cases hnone⟩
  kept old hold := ⟨old, hmedia ▸ hold, rfl⟩
  written _ hnone := by cases hnone
  rules := hrules
  tags := htags

theorem Indexed.insert {id : String} (h : Indexed env before libraryId runId done t)
    (hbuilt : Built env before libraryId runId file mf) (hnone : t.mediaAt file.str = none)
    (hadd : t.addMedia { mf with id := id } = some t') :
    Indexed env before libraryId runId (done ++ [file]) t' := by
  obtain ⟨hmem, hrest⟩ := Tables.addMedia_eq_some hadd
  have hnew : before.mediaAt file.str = none := by
    apply Tables.mediaAt_eq_none.mpr
    intro old hold hpath
    obtain ⟨m, hm, hsame⟩ := h.kept old hold
    exact Tables.mediaAt_eq_none.mp hnone m hm (hsame.trans hpath)
  exact {
    rows := by
      intro m hm
      rcases (hmem m).mp hm with hold | rfl
      · rcases h.rows m hold with ⟨file', hfile', hwritten⟩ | ⟨hbefore, hother⟩
        · exact .inl ⟨file', List.mem_append_left _ hfile', hwritten⟩
        · refine .inr ⟨hbefore, fun file' hfile' => ?_⟩
          rcases List.mem_append.mp hfile' with hdone | hlast
          · exact hother file' hdone
          · rw [List.mem_singleton.mp hlast]
            exact Ne.symm (Tables.mediaAt_eq_none.mp hnone m hold)
      · refine .inl ⟨file, by simp, mf, hbuilt, ?_⟩
        rw [hnew]
    kept := by
      intro old hold
      obtain ⟨m, hm, hpath⟩ := h.kept old hold
      exact ⟨m, (hmem m).mpr (.inl hm), hpath⟩
    written := by
      intro file' hfile'
      rcases List.mem_append.mp hfile' with hdone | hlast
      · obtain ⟨m, hm, hpath⟩ := h.written file' hdone
        exact ⟨m, (hmem m).mpr (.inl hm), hpath⟩
      · rw [List.mem_singleton.mp hlast]
        exact ⟨{ mf with id := id }, (hmem _).mpr (.inr rfl), hbuilt.path⟩
    rules := by
      rw [hrest]
      exact h.rules
    tags := by
      rw [hrest]
      exact h.tags }

theorem Indexed.written_refreshed {old : MediaFile} (h : Indexed env before libraryId runId done t)
    (hbuilt : Built env before libraryId runId file mf) (hold : old ∈ t.media) (hpath : old.path = file.str) :
    Written env before libraryId runId file (refreshed mf old) := by
  obtain ⟨result, hprobe, hbuild⟩ := hbuilt
  refine ⟨mf, ⟨result, hprobe, hbuild⟩, ?_⟩
  rcases h.rows old hold with ⟨file', -, hwritten⟩ | ⟨hbefore, -⟩
  · -- the walk named the file before: its row was written for the same path
    have hstr : file'.str = file.str := hwritten.columns.1.symm.trans hpath
    obtain ⟨mf', ⟨result', -, hbuild'⟩, hm⟩ := hwritten
    rw [Found.extension, path_eq_of_str_eq hstr] at hbuild'
    obtain ⟨hcolumns, hseverity⟩ := buildMediaFile_columns hbuild
    obtain ⟨hcolumns', hseverity'⟩ := buildMediaFile_columns hbuild'
    simp only [unprobedColumns, Prod.mk.injEq] at hcolumns hcolumns'
    have hsame := Prod.mk.inj (hseverity.trans hseverity'.symm)
    rw [hstr] at hm
    rcases hfirst : before.mediaAt file.str with _ | first
    · rw [hfirst] at hm
      rw [hm]
      simp only [refreshed, MediaFile.mk.injEq]
      simp [hcolumns, hcolumns', hsame, hstr]
    · rw [hfirst] at hm
      rw [hm]
      rfl
  · rw [Tables.mediaAt_eq_some.mpr ⟨hbefore, hpath⟩]

theorem Indexed.refresh {old : MediaFile} (h : Indexed env before libraryId runId done t)
    (hbuilt : Built env before libraryId runId file mf) (hsome : t.mediaAt file.str = some old) :
    Indexed env before libraryId runId (done ++ [file]) (refreshRow mf old.id t) := by
  obtain ⟨hold, hpath⟩ := Tables.mediaAt_eq_some.mp hsome
  exact {
    rows := by
      intro m hm
      obtain ⟨x, hx, rfl⟩ := Tables.mem_updateMedia.mp hm
      by_cases hid : x.id = old.id
      · obtain rfl := Table.eq_of_key_eq hx hold hid
        rw [if_pos (by simp)]
        exact .inl ⟨file, by simp, h.written_refreshed hbuilt hold hpath⟩
      · rw [if_neg (by simpa using hid)]
        rcases h.rows x hx with ⟨file', hfile', hwritten⟩ | ⟨hbefore, hother⟩
        · exact .inl ⟨file', List.mem_append_left _ hfile', hwritten⟩
        · refine .inr ⟨hbefore, fun file' hfile' => ?_⟩
          rcases List.mem_append.mp hfile' with hdone | hlast
          · exact hother file' hdone
          · rw [List.mem_singleton.mp hlast, ← hpath]
            intro hsame
            exact hid (congrArg MediaFile.id (Tables.eq_of_path_eq hx hold hsame.symm))
    kept := by
      intro first hfirst
      obtain ⟨m, hm, hsame⟩ := h.kept first hfirst
      exact Tables.path_of_updateMedia hm hsame
    written := by
      intro file' hfile'
      rcases List.mem_append.mp hfile' with hdone | hlast
      · obtain ⟨m, hm, hsame⟩ := h.written file' hdone
        exact Tables.path_of_updateMedia hm hsame
      · rw [List.mem_singleton.mp hlast]
        exact Tables.path_of_updateMedia hold hpath
    rules := h.rules
    tags := h.tags }

theorem Indexed.putVtItem (item : VtQueueItem) (h : Indexed env before libraryId runId done t) :
    Indexed env before libraryId runId done (t.putVtItem item) :=
  ⟨h.rows, h.kept, h.written, h.rules, h.tags⟩

end Index

/-! ### The calls of the loop -/

section Calls

variable {α : Type} {env : ScanEnv} {context : ScanContext} {before : Tables} {done : List Found}
  {file : Found} {mf : MediaFile} {P : Tables → Prop}

/-- What is asserted of a scan: nothing about what is committed, `P` of the working tables
    of a live session. -/
abbrev Working (P : Tables → Prop) : Session Tables Outside → Prop := Holding (fun _ => True) P

/-- A call that leaves the tables alone. -/
def Still (c : Service α) : Prop :=
  Within (Keeps (fun t : Tables => t) fun _ : Outside => ()) c

theorem Still.triple {c : Service α} (hc : Still c) :
    Triple (Working P) c (fun _ => Working P) (fun _ _ => True) :=
  (triple_of_keeps hc fun _ _ hsame hP => hsame ▸ hP).consequence (fun _ hs => hs)
    (fun _ _ hs => hs) fun _ _ _ => trivial

theorem still_emit (event : Event) : Still (emit event) := keeps_outside fun _ => rfl

theorem still_emitProgress (filesSeen : Nat) : Still (emitProgress env context filesSeen) :=
  within_bind (keeps_load _) fun _ => within_bind (keeps_load _) fun _ => still_emit _

theorem triple_raising {A : Session Tables Outside → Prop} (r : Except ServiceError α) :
    Triple A (raising r) (fun a s => r = .ok a ∧ A s) (fun _ _ => True) := by
  rcases r with e | a
  · exact fun _ _ => trivial
  · exact fun _ hs => ⟨rfl, hs⟩

theorem triple_refusal {A : Session Tables Outside → Prop} {Q : α → Session Tables Outside → Prop}
    (e : ServiceError) : Triple A (refused env.db e) Q (fun _ _ => True) :=
  triple_refused (D := fun _ => True) e fun _ _ => trivial

theorem triple_readWorking (query : Tables → α) :
    Triple (Working P) (Call.read fun s => query s.working : Service α)
      (fun a => Working fun t => P t ∧ a = query t) (fun _ _ => True) :=
  fun _ hs => ⟨hs.1, fun hlive => ⟨hs.2 hlive, rfl⟩⟩

theorem triple_insertMedia {Q : Tables → Prop} (m : MediaFile)
    (hadd : ∀ t t', P t → t.addMedia m = some t' → Q t') :
    Triple (Working P) (insertMedia env m) (fun _ => Working Q) (fun _ _ => True) := by
  refine (triple_readWorking fun t => (t.addMedia m).isSome).bind fun fits => ?_
  rcases fits with _ | _
  · exact triple_refusal _
  · refine Triple.bind (M := fun _ => Working Q) (triple_edit fun t ht => ?_) fun _ =>
      Still.triple keeps_flush
    obtain ⟨t', ht'⟩ := Option.isSome_iff_exists.mp ht.2.symm
    rw [ht']
    exact hadd t t' ht.1 ht'

theorem triple_upsertByPath {row : Except DatabaseError MediaFile}
    (hrow : ∀ mf, row = .ok mf → Built env before context.libraryId context.runId file mf) :
    Triple (Working (Indexed env before context.libraryId context.runId done)) (upsertByPath env file.str row)
      (fun _ => Working (Indexed env before context.libraryId context.runId (done ++ [file]))) (fun _ _ => True) := by
  refine Triple.bind ((triple_select _).consequence (fun _ hs => hs) (fun _ _ hs => hs)
    fun _ _ _ => trivial) fun existing => ?_
  rcases row with e | mf
  · exact triple_refusal _
  · have hbuilt := hrow mf rfl
    rcases existing with _ | old
    · refine Triple.bind (M := fun _ => Working fun t =>
        Indexed env before context.libraryId context.runId done t ∧ none = t.mediaAt file.str) (fun _ hs => hs) fun id => ?_
      refine (triple_insertMedia _ fun t t' ht hadd => ?_).bind fun _ =>
        triple_pure _ fun _ hs => hs
      exact ht.1.insert hbuilt ht.2.symm hadd
    · refine (triple_edit fun t ht => ht.1.refresh hbuilt ht.2.symm).bind fun _ => ?_
      exact (Still.triple keeps_flush).bind fun _ => triple_pure _ fun _ hs => hs

theorem triple_enqueueSaved (vt : Option (Option PyValue)) (saved : MediaFile) :
    Triple (Working (Indexed env before context.libraryId context.runId done)) (enqueueSaved env vt saved)
      (fun _ => Working (Indexed env before context.libraryId context.runId done)) (fun _ _ => True) := by
  rcases vt with _ | options
  · exact triple_pure _ fun _ hs => hs
  refine triple_load_bind (fun _ _ _ => trivial) (Triple.when (fun _ => ?_) fun _ _ hs => hs.1)
  refine (triple_raising _).bind fun required => Triple.assuming fun _ => ?_
  refine Triple.bind (M := fun _ s => Working (Indexed env before context.libraryId context.runId done) s ∧
    s.expired = false) (Triple.when (fun _ _ _ => trivial) fun _ _ hs => hs) fun _ => ?_
  refine (triple_raising _).bind fun inScope => Triple.assuming fun _ => ?_
  refine Triple.when (fun _ => ?_) fun _ _ hs => hs.1
  refine Triple.bind ((triple_enqueueForVtLookup saved.id (fun _ _ => trivial)
    (fun _ item h => h.putVtItem item) fun _ _ _ => trivial).consequence (fun _ hs => hs)
      (fun _ _ hs => hs) fun _ _ _ => trivial) fun _ => triple_pure _ fun _ hs => hs

theorem triple_indexFile (counts : ScanCounts)
    (hdispositions : context.dispositions = dispositionMap before) :
    Triple (Working (Indexed env before context.libraryId context.runId done))
      (indexFile env context (context.dispositions (file.extension env.rt)) counts file)
      (fun counts' s => counts'.filesSeen = counts.filesSeen ∧
        Working (Indexed env before context.libraryId context.runId (done ++ [file])) s)
      (fun _ _ => True) := by
  refine (triple_raising _).bind fun result => Triple.assuming fun hresult => ?_
  have hprobe : probeFile env file = .ok result := by
    rcases hprobe : probeFile env file with e | found
    · rw [hprobe] at hresult
      cases hresult
    · rw [hprobe] at hresult
      cases hresult
      rfl
  refine triple_load_bind (fun _ _ _ => trivial) (triple_load_bind (fun _ _ _ => trivial) ?_)
  refine Triple.bind (M := fun _ => Working (Indexed env before context.libraryId context.runId done)) ?_ fun pre => ?_
  · exact (Still.triple (keeps_select _)).consequence (fun _ hs => hs.1.1) (fun _ _ hs => hs)
      fun _ _ hs => hs
  refine Triple.bind (triple_upsertByPath fun mf hmf => ⟨result, hprobe, ?_⟩) fun saved => ?_
  · rw [← hdispositions]
    exact hmf
  refine Triple.bind (M := fun _ => Working (Indexed env before context.libraryId context.runId (done ++ [file])))
    (Triple.when (fun _ => Still.triple (still_emit _)) fun _ _ hs => hs) fun _ => ?_
  refine (triple_enqueueSaved context.vt saved).bind fun _ => ?_
  refine Triple.bind (M := fun _ => Working (Indexed env before context.libraryId context.runId (done ++ [file])))
    (fun _ hs => hs) fun due => ?_
  exact Triple.bind (Triple.when (fun _ => Still.triple (still_emitProgress _)) fun _ _ hs => hs)
    fun _ => triple_pure _ fun _ hs => ⟨rfl, hs⟩

end Calls

/-! ### The loop -/

section Loop

variable (env : ScanEnv) (before : Tables) (maxFiles : Option Int)

/-- The files the loop comes to with so many behind it. -/
def withinCap (seen : Nat) (files : List Found) : List Found :=
  match maxFiles with
  | none => files
  | some limit => files.take (limit - seen).toNat

/-- The files the loop indexes: within the cap and not ignored. -/
def indexedFrom (seen : Nat) (files : List Found) : List Found :=
  (withinCap maxFiles seen files).filter fun file =>
    dispositionMap before (file.extension env.rt) ≠ some .ignore

variable {env before maxFiles} {context : ScanContext} {done : List Found} {file : Found}
  {rest : List Found} {seen : Nat}

theorem withinCap_stop (h : exceeds maxFiles (seen + 1) = true) (files : List Found) :
    withinCap maxFiles seen files = [] := by
  rcases maxFiles with _ | limit
  · cases h
  · have hlimit : (limit - seen).toNat = 0 := by
      simp [exceeds] at h
      omega
    simp only [withinCap, hlimit, List.take_zero]

theorem withinCap_next (h : exceeds maxFiles (seen + 1) = false) :
    withinCap maxFiles seen (file :: rest) = file :: withinCap maxFiles (seen + 1) rest := by
  rcases maxFiles with _ | limit
  · rfl
  · have hlimit : (limit - seen).toNat = (limit - (seen + 1 : Nat)).toNat + 1 := by
      simp [exceeds] at h
      omega
    simp only [withinCap, hlimit, List.take_succ_cons]

theorem triple_indexFiles (hdispositions : context.dispositions = dispositionMap before)
    (counts : ScanCounts) (files : List Found) :
    Triple (Working (Indexed env before context.libraryId context.runId done))
      (indexFiles env context maxFiles counts files)
      (fun _ => Working (Indexed env before context.libraryId context.runId
        (done ++ indexedFrom env before maxFiles counts.filesSeen files)))
      (fun _ _ => True) := by
  induction files generalizing counts done with
  | nil =>
    refine triple_pure _ fun s hs => ?_
    have hnone : indexedFrom env before maxFiles counts.filesSeen [] = [] := by
      unfold indexedFrom withinCap
      split <;> simp
    rw [hnone, List.append_nil]
    exact hs
  | cons file rest ih =>
    unfold indexFiles
    by_cases hstop : exceeds maxFiles (counts.filesSeen + 1) = true
    · rw [if_pos hstop]
      refine triple_pure _ fun s hs => ?_
      rw [indexedFrom, withinCap_stop hstop, List.filter_nil, List.append_nil]
      exact hs
    · rw [if_neg hstop]
      have hnext : withinCap maxFiles counts.filesSeen (file :: rest) = _ :=
        withinCap_next (Bool.eq_false_iff.mpr hstop)
      by_cases hignore : context.dispositions (file.extension env.rt) = some .ignore
      · have hskip : indexedFrom env before maxFiles counts.filesSeen (file :: rest) =
            indexedFrom env before maxFiles (counts.filesSeen + 1) rest := by
          rw [hdispositions] at hignore
          simp [indexedFrom, hnext, hignore]
        rw [hignore, hskip]
        exact ih _
      · have hkeep : indexedFrom env before maxFiles counts.filesSeen (file :: rest) =
            file :: indexedFrom env before maxFiles (counts.filesSeen + 1) rest := by
          rw [hdispositions] at hignore
          simp [indexedFrom, hnext, hignore]
        have hbody := @triple_indexFile env context before done file
          { counts with filesSeen := counts.filesSeen + 1 } hdispositions
        have hgo : Triple (Working (Indexed env before context.libraryId context.runId done))
            (indexFile env context (context.dispositions (file.extension env.rt))
                { counts with filesSeen := counts.filesSeen + 1 } file >>= fun counts =>
              indexFiles env context maxFiles counts rest)
            (fun _ => Working (Indexed env before context.libraryId context.runId
              (done ++ indexedFrom env before maxFiles counts.filesSeen (file :: rest))))
            (fun _ _ => True) := by
          refine hbody.bind fun counts' => Triple.assuming fun hcounts => ?_
          have hseen : counts'.filesSeen = counts.filesSeen + 1 := hcounts
          have hall : done ++ indexedFrom env before maxFiles counts.filesSeen (file :: rest) =
              done ++ [file] ++ indexedFrom env before maxFiles counts'.filesSeen rest := by
            simp [hkeep, hseen]
          rw [hall]
          exact ih _
        rcases hdisposition : context.dispositions (file.extension env.rt) with _ | disposition
        · rw [hdisposition] at hgo
          exact hgo
        · rw [hdisposition] at hgo hignore
          rcases disposition with _ | _ | _ | _
          · exact absurd rfl hignore
          · exact hgo
          · exact hgo
          · exact hgo

end Loop

/-! ### The sweep and the commit -/

section Sweep

variable (env : ScanEnv) (before : Tables) (libraryId runId : String)

/-- The tables once the orphans are marked. -/
structure Swept (done : List Found) (t : Tables) : Prop where
  rows : ∀ m ∈ t.media, (∃ file ∈ done, Written env before libraryId runId file m) ∨
    ∃ old ∈ before.media, (∀ file ∈ done, file.str ≠ old.path) ∧
      m = if untouched libraryId runId old then { old with isOrphaned := true } else old
  kept : ∀ old ∈ before.media, ∃ m ∈ t.media, m.path = old.path
  written : ∀ file ∈ done, ∃ m ∈ t.media, m.path = file.str
  rules : t.rules = before.rules
  tags : t.tags = before.tags

/-- What a scan has not touched when it comes to its files. -/
structure Begun (before t : Tables) : Prop where
  media : t.media = before.media
  rules : t.rules = before.rules
  tags : t.tags = before.tags
  extensionRules : t.extensionRules = before.extensionRules

/-- What `_enumerate` finds; nothing if it raises. -/
def foundIn (library : Library) (options : ScanOptions) : List Found :=
  (enumerate env library.rootPath options.followSymlinks).toOption.getD []

/-- The files of the library a scan indexes. -/
def indexed (library : Library) (options : ScanOptions) : List Found :=
  indexedFrom env before options.maxFiles 0 (foundIn env library options)

variable {env before libraryId runId} {done : List Found} {t : Tables}

theorem Indexed.swept (h : Indexed env before libraryId runId done t) :
    Swept env before libraryId runId done (markedOrphans libraryId runId t) where
  rows := by
    intro m hm
    obtain ⟨x, hx, rfl⟩ := Tables.mem_updateMedia.mp hm
    rcases h.rows x hx with ⟨file, hfile, hwritten⟩ | ⟨hbefore, hother⟩
    · have htouched : untouched libraryId runId x = false := by
        simp [untouched, hwritten.columns.2.2.2.1]
      rw [htouched]
      exact .inl ⟨file, hfile, hwritten⟩
    · exact .inr ⟨x, hbefore, hother, rfl⟩
  kept old hold := by
    obtain ⟨m, hm, hpath⟩ := h.kept old hold
    exact Tables.path_of_updateMedia hm hpath
  written file hfile := by
    obtain ⟨m, hm, hpath⟩ := h.written file hfile
    exact Tables.path_of_updateMedia hm hpath
  rules := h.rules
  tags := h.tags

theorem Swept.putScanRun (run : ScanRun) (h : Swept env before libraryId runId done t) :
    Swept env before libraryId runId done (t.putScanRun run) :=
  ⟨h.rows, h.kept, h.written, h.rules, h.tags⟩

theorem triple_commit_working {P : Tables → Prop} :
    Triple (fun s : Session Tables Outside => Working P s ∧ s.expired = false) (commit env.db)
      (fun _ s => s.Live ∧ P s.committed ∧ s.working = s.committed) (fun _ _ => True) :=
  triple_commit_of (D := fun _ => True) (fun _ _ hs => hs) (fun _ _ => trivial)
    fun _ hs hfailed => ⟨⟨hfailed, hs.2⟩, hs.1.2 ⟨hfailed, hs.2⟩, rfl⟩

theorem triple_markOrphans :
    Triple (fun s => Working (Indexed env before libraryId runId done) s ∧ s.expired = false)
      (markOrphans env libraryId runId)
      (fun _ s => Working (Swept env before libraryId runId done) s ∧ s.expired = false)
      (fun _ _ => True) := by
  refine Triple.bind ((triple_select_live _).consequence (fun _ hs => hs)
    (fun _ _ hs => hs.2) fun _ _ _ => trivial) fun marked => ?_
  refine Triple.bind (M := fun _ s =>
    Working (Swept env before libraryId runId done) s ∧ s.expired = false) ?_ fun _ =>
      triple_pure _ fun _ hs => hs
  exact fun s hs => ⟨⟨trivial, fun hlive => (hs.1.2 hlive).swept⟩, hs.2⟩

theorem triple_indexLibrary (library : Library) (options : ScanOptions) (run : ScanRun)
    (vt : Option (Option PyValue)) :
    Triple (Standing (fun _ => True) (Begun before))
      (indexLibrary env library options run vt (dispositionMap before))
      (fun _ s => s.Live ∧ s.working = s.committed ∧
        Swept env before library.id run.id (indexed env before library options) s.committed)
      (fun _ _ => True) := by
  refine (triple_raising _).bind fun found => Triple.assuming fun hfound => ?_
  have hindexed : indexed env before library options =
      indexedFrom env before options.maxFiles 0 found := by
    rw [indexed, foundIn, hfound]
    rfl
  rw [hindexed]
  refine Triple.bind (M := fun _ => Working (Indexed env before library.id run.id [])) ?_
    fun _ => ?_
  · refine (Still.triple (still_emitProgress _)).consequence ?_ (fun _ _ hs => hs) fun _ _ hs => hs
    exact fun s hs => ⟨trivial, fun _ =>
      indexed_start hs.2.2.media hs.2.2.rules hs.2.2.tags⟩
  refine (@triple_indexFiles env before options.maxFiles
    ⟨library.id, run.id, vt, dispositionMap before, _⟩ _ rfl _ found).bind fun counts => ?_
  refine (Still.triple (still_emitProgress _)).bind fun _ => ?_
  refine triple_load_bind (fun _ _ _ => trivial) (triple_load_bind (fun _ _ _ => trivial) ?_)
  refine Triple.bind (triple_markOrphans.consequence (fun _ hs => hs.1) (fun _ _ hs => hs)
    fun _ _ hs => hs) fun orphaned => ?_
  refine Triple.bind (M := fun _ s => Working (Swept env before library.id run.id
    (indexedFrom env before options.maxFiles 0 found)) s ∧ s.expired = false) (fun _ hs => hs)
    fun now => ?_
  refine Triple.bind (M := fun _ s => Working (Swept env before library.id run.id
    (indexedFrom env before options.maxFiles 0 found)) s ∧ s.expired = false) ?_ fun _ => ?_
  · exact fun s hs => ⟨⟨trivial, fun hlive => (hs.1.2 hlive).putScanRun _⟩, hs.2⟩
  · refine triple_commit_working.bind fun _ => triple_pure _ fun s hs => ?_
    exact ⟨hs.1, hs.2.2, hs.2.1⟩

end Sweep

/-! ### The rules over what was found -/

section Verdicts

variable (env : ScanEnv) (t : Tables) (libraryId : String)

/-- The row with the severity its rules give it. -/
def sentenced (m : MediaFile) : MediaFile :=
  { m with
    severity := (judged env.toEnv t (loadEnabled t) m).1
    severityRank := (judged env.toEnv t (loadEnabled t) m).2 }

/-- A row of `t` after the rules ran over the library. -/
def judgedRow (m : MediaFile) : MediaFile :=
  if m ∈ listMedia t libraryId [] then sentenced env t m else m

/-- The tables in the middle of a pass that began with `t`, some files still to come. -/
structure Judging (files rest : List MediaFile) (t' : Tables) : Prop where
  distinct : (rest.map (·.id)).Nodup
  listed : ∀ m ∈ rest, m ∈ files
  tags : ∀ m ∈ rest, t'.tagNames m.id = t.tagNames m.id
  rows : ∀ m ∈ t'.media, ∃ old ∈ t.media,
    (m = old ∧ (old ∈ files → old ∈ rest)) ∨ (old ∈ files ∧ old ∉ rest ∧ m = sentenced env t old)

variable {env t libraryId} {files rest : List MediaFile} {m : MediaFile} {t' t'' : Tables}

theorem Judging.next {now : Nat} (hfiles : ∀ m ∈ files, m ∈ t.media)
    (h : Judging env t files (m :: rest) t')
    (heval : Evaluated env.rt m (inputOf t' m) now (loadEnabled t) t' t'') :
    Judging env t files rest t'' := by
  obtain ⟨hfresh, hdistinct⟩ := List.nodup_cons.mp h.distinct
  have hne : ∀ m' ∈ rest, m'.id ≠ m.id := fun m' hm' heq =>
    hfresh (List.mem_map.mpr ⟨m', hm', heq⟩)
  have hm : m ∈ t.media := hfiles m (h.listed m (by simp))
  have hinput : inputOf t' m = inputOf t m := inputOf_congr (h.tags m (by simp))
  exact {
    distinct := hdistinct
    listed := fun m' hm' => h.listed m' (by simp [hm'])
    tags := fun m' hm' => (heval.otherTags m'.id (hne m' hm')).trans (h.tags m' (by simp [hm']))
    rows := by
      intro x hx
      by_cases hid : x.id = m.id
      · obtain ⟨old, hold, hoid, rfl⟩ := heval.ownMedia x hx hid
        obtain ⟨first, hfirst, hcase⟩ := h.rows old hold
        have hsame : first = m := by
          apply Table.eq_of_key_eq hfirst hm
          rcases hcase with ⟨rfl, -⟩ | ⟨-, -, rfl⟩
          · exact hoid
          · exact hoid
        subst hsame
        rcases hcase with ⟨rfl, -⟩ | ⟨-, hgone, -⟩
        · refine ⟨old, hfirst, .inr ⟨h.listed old (by simp), ?_, ?_⟩⟩
          · exact fun hrest => hne old hrest rfl
          · rw [hinput]
            rfl
        · exact absurd (List.mem_cons_self ..) hgone
      · obtain ⟨first, hfirst, hcase⟩ := h.rows x ((heval.otherMedia x hid).mp hx)
        refine ⟨first, hfirst, ?_⟩
        rcases hcase with ⟨rfl, hcome⟩ | ⟨hlisted, hgone, rfl⟩
        · refine .inl ⟨rfl, fun hlisted => ?_⟩
          rcases List.mem_cons.mp (hcome hlisted) with rfl | hrest
          · exact absurd rfl hid
          · exact hrest
        · exact .inr ⟨hlisted, fun hrest => hgone (List.mem_cons_of_mem _ hrest), rfl⟩ }

/-- Every row is one of `t`, judged if it was in the listing. -/
def Judged (env : ScanEnv) (libraryId : String) (t t' : Tables) : Prop :=
  ∀ m ∈ t'.media, ∃ old ∈ t.media, m = judgedRow env t libraryId old

theorem Judging.done (h : Judging env t (listMedia t libraryId []) [] t') :
    Judged env libraryId t t' := by
  intro m hm
  obtain ⟨old, hold, ⟨rfl, hnone⟩ | ⟨hlisted, -, rfl⟩⟩ := h.rows m hm
  · refine ⟨m, hold, ?_⟩
    rw [judgedRow, if_neg fun hlisted => List.not_mem_nil (hnone hlisted)]
  · refine ⟨old, hold, ?_⟩
    rw [judgedRow, if_pos hlisted]

theorem mem_media_of_listed {m : MediaFile} (hm : m ∈ listMedia t libraryId []) : m ∈ t.media :=
  List.mem_of_mem_filter ((List.mem_insertionSort bySeverity).mp (List.mem_of_mem_take hm))

theorem triple_judgeEach :
    Triple (Standing (fun _ => True) (· = t))
      (evaluateFiles env.toEnv (listMedia t libraryId []))
      (fun _ => Standing (fun _ => True) (Judged env libraryId t)) (fun _ _ => True) := by
  refine Triple.bind ((standing_select _).consequence (fun _ hs => hs) (fun _ _ hs => hs)
    fun _ _ _ => trivial) fun rules => ?_
  rintro s ⟨hcommitted, hlive, rfl, rfl⟩
  have hpass := triple_evaluateEach (D := fun _ => True)
    (I := Judging env s.working (listMedia s.working libraryId []))
    (loadEnabled_nodup s.working) (fun _ _ _ _ => trivial)
    (fun m rest now t t' hjudging heval =>
      ⟨hjudging.next (fun _ => mem_media_of_listed) heval, trivial⟩)
    (listMedia s.working libraryId [])
  refine (hpass s ⟨hcommitted, hlive, ?_⟩).imp (fun _ hs => hs.imp fun _ => Judging.done)
    fun _ _ => trivial
  exact {
    distinct := listMedia_nodup _ _ _
    listed := fun _ hm => hm
    tags := fun _ _ => rfl
    rows := fun m hm => ⟨m, hm, .inl ⟨rfl, fun h => h⟩⟩ }

theorem triple_judgeLibrary :
    Triple (Standing (fun _ => True) (· = t)) (evaluateLibrary env.toEnv libraryId [])
      (fun _ => Standing (fun _ => True) (Judged env libraryId t)) (fun _ _ => True) := by
  refine Triple.bind (M := fun files s => files = listMedia t libraryId [] ∧
    Standing (fun _ => True) (· = t) s) ?_ fun files => Triple.assuming fun hfiles => ?_
  · refine (standing_select _).consequence (fun _ hs => hs) ?_ fun _ _ _ => trivial
    rintro files s ⟨hcommitted, hlive, rfl, rfl⟩
    exact ⟨rfl, hcommitted, hlive, rfl⟩
  subst hfiles
  refine triple_judgeEach.bind fun _ => ?_
  refine Triple.bind (M := fun _ => Standing (fun _ => True) (Judged env libraryId t))
    ((standing_select _).consequence (fun _ hs => hs) (fun _ _ hs => hs.imp fun _ h => h.1)
      fun _ _ _ => trivial) fun rules => ?_
  refine Triple.bind (M := fun _ => Standing (fun _ => True) (Judged env libraryId t))
    (fun _ hs => hs) fun now => ?_
  refine Triple.bind (M := fun _ => Standing (fun _ => True) (Judged env libraryId t)) ?_
    fun _ => triple_pure _ fun _ hs => hs
  refine Triple.forEach (I := fun _ => Standing (fun _ => True) (Judged env libraryId t)) rules
    fun _ rule _ _ => ?_
  refine Triple.bind ((standing_select _).consequence (fun _ hs => hs)
    (fun _ _ hs => hs.imp fun _ h => h.1) fun _ _ _ => trivial) fun _ => ?_
  exact standing_edit fun t h => h

end Verdicts

/-! ### A whole scan -/

section Scan

variable (env : ScanEnv) (options : ScanOptions) (libraryId : String)

/-- A row of `t` after the rules, if the scan runs them. -/
def afterRules (t : Tables) (m : MediaFile) : MediaFile :=
  if options.runRules then judgedRow env t libraryId m else m

def Passed (t t' : Tables) : Prop := ∀ m ∈ t'.media, ∃ old ∈ t.media,
  m = afterRules env options libraryId t old

variable {env options} {before : Tables} {library : Library}

theorem triple_runRules (t : Tables) :
    Triple (fun s : Session Tables Outside => s.Live ∧ s.working = s.committed ∧ s.committed = t)
      (runRules env options libraryId)
      (fun _ s => s.expired = false → Passed env options libraryId t s.committed)
      (fun _ _ => True) := by
  unfold runRules
  by_cases hrules : options.runRules = true
  · rw [hrules]
    refine Triple.attempt (H := fun _ _ => True) ?_ fun _ => ?_
    · refine Triple.bind (M := fun id s => id = libraryId ∧
        Standing (fun _ => True) (· = t) s) ?_ fun id => Triple.assuming fun hid => ?_
      · refine (triple_load _).consequence (fun _ hs => hs) ?_ fun _ _ _ => trivial
        rintro id s ⟨⟨hlive, hworking, hcommitted⟩, hid, -⟩
        exact ⟨hid, trivial, hlive, hworking.trans hcommitted⟩
      · subst hid
        refine triple_judgeLibrary.bind fun evaluated => Triple.bind (M := fun _ s =>
          s.Live ∧ Judged env id t s.committed ∧ s.working = s.committed) ?_ fun _ => ?_
        · exact triple_commit_working.consequence
            (fun s hs => ⟨⟨trivial, fun _ => hs.2.2⟩, hs.2.1.2⟩) (fun _ _ hs => hs)
            fun _ _ hs => hs
        · refine triple_pure _ fun s hs _ m hm => ?_
          obtain ⟨old, hold, hjudged⟩ := hs.2.1 m hm
          exact ⟨old, hold, by rw [afterRules, if_pos hrules]; exact hjudged⟩
    · have hback : Triple (fun s : Session Tables Outside => True ∧ s.expired = false)
          (rollback : Service Unit) (fun _ s => s.expired = true) (fun _ _ => True) :=
        fun _ _ => rfl
      refine triple_load_bind (fun _ _ _ => trivial) (hback.bind fun _ =>
        triple_pure _ fun s hexpired hlive => ?_)
      rw [hexpired] at hlive
      cases hlive
  · rw [Bool.eq_false_iff.mpr hrules]
    refine triple_pure _ fun s hs _ m hm => ⟨m, hs.2.2 ▸ hm, ?_⟩
    rw [afterRules, if_neg hrules]

/-- What a completed report says of the committed tables. -/
def Completes (env : ScanEnv) (options : ScanOptions) (library : Library) (before : Tables)
    (report : ScanReport) (t : Tables) : Prop :=
  ∀ runId counts, report = .completed runId counts → ∃ found,
    Swept env before library.id runId (indexed env before library options) found ∧
      Passed env options library.id found t

theorem triple_scanLibrary (run : ScanRun) (vt : Option (Option PyValue)) :
    Triple (Standing (fun _ => True) (Begun before))
      (scanLibrary env library options run vt (dispositionMap before))
      (fun report s => Completes env options library before report s.committed)
      (fun _ _ => True) := by
  refine (triple_indexLibrary library options run vt).bind fun counts => ?_
  rintro s ⟨hlive, hworking, hswept⟩
  refine Triple.bind (Q := fun report s => Completes env options library before report s.committed)
    (E := fun _ _ => True) (triple_runRules library.id s.committed) (fun evaluated => ?_) s
    ⟨hlive, hworking, rfl⟩
  refine Triple.bind (M := fun id s' => id = run.id ∧
    Passed env options library.id s.committed s'.committed) ?_ fun id =>
      Triple.assuming fun hid => ?_
  · refine (triple_load _).consequence (fun _ hs => hs) ?_ fun _ _ _ => trivial
    rintro id s' ⟨hpassed, hid, hexpired⟩
    exact ⟨hid, hpassed hexpired⟩
  subst hid
  refine triple_load_bind (fun _ _ _ => trivial) ?_
  refine Triple.bind (M := fun _ (s' : Session Tables Outside) =>
    Passed env options library.id s.committed s'.committed) (fun _ hs => hs.1) fun _ =>
      triple_pure _ fun s' hs => ?_
  intro runId counts hreport
  cases hreport
  exact ⟨s.committed, hswept, hs⟩

theorem triple_failScan (run : ScanRun) (e : ServiceError) {A : Session Tables Outside → Prop} :
    Triple A (failScan env library run e)
      (fun report s => Completes env options library before report s.committed)
      (fun _ _ => True) := by
  have htrue : ∀ {α : Type} (c : Service α),
      Triple (fun _ => True) c (fun _ _ => True) fun _ _ => True := by
    intro α c s _
    exact ends_const trivial _
  refine Triple.bind (M := fun _ _ => True) ((htrue _).consequence (fun _ _ => trivial)
    (fun _ _ hs => hs) fun _ _ hs => hs) fun id => ?_
  refine (htrue _).bind fun now => (htrue _).bind fun _ => (htrue _).bind fun _ =>
    (htrue _).bind fun _ => triple_pure _ fun s _ runId counts hreport => ?_
  cases hreport

theorem triple_startRun (queued : Option ScanRun) :
    Triple (Standing (fun _ => True) (Begun before)) (startRun env library options queued)
      (fun _ => Standing (fun _ => True) (Begun before)) (fun _ _ => True) := by
  have hput : ∀ run t, Begun before t → Begun before (t.putScanRun run) :=
    fun run t h => ⟨h.media, h.rules, h.tags, h.extensionRules⟩
  rcases queued with _ | queued
  · refine (standing_read _).bind fun id => (standing_read _).bind fun now => ?_
    refine (standing_edit fun t h => hput _ t h).bind fun _ => ?_
    exact standing_flush.bind fun _ => triple_pure _ fun _ hs => hs
  · refine (standing_read _).bind fun now => ?_
    exact (standing_edit fun t h => hput _ t h).bind fun _ => triple_pure _ fun _ hs => hs

theorem triple_scan (queued : Option ScanRun) :
    Triple (Standing (fun _ => True) (Begun before)) (scan env library options queued)
      (fun report s => Completes env options library before report s.committed)
      (fun _ _ => True) := by
  refine (triple_startRun queued).bind fun run => ?_
  refine (standing_commit fun _ _ => trivial).bind fun _ => ?_
  refine Triple.bind (M := fun _ => Standing (fun _ => True) (Begun before)) (fun _ hs => hs)
    fun _ => ?_
  refine Triple.bind (M := fun _ => Standing (fun _ => True) (Begun before))
    ((standing_select _).consequence (fun _ hs => hs) (fun _ _ hs => hs.imp fun _ h => h.1)
      fun _ _ _ => trivial) fun vt => ?_
  refine Triple.bind (M := fun dispositions s => dispositions = dispositionMap before ∧
    Standing (fun _ => True) (Begun before) s) ?_ fun dispositions =>
      Triple.assuming fun hdispositions => ?_
  · refine (standing_select _).consequence (fun _ hs => hs) ?_ fun _ _ _ => trivial
    rintro dispositions s ⟨hcommitted, hlive, hbegun, rfl⟩
    refine ⟨?_, hcommitted, hlive, hbegun⟩
    unfold dispositionMap
    rw [hbegun.extensionRules]
  subst hdispositions
  exact Triple.attempt (H := fun _ _ => True) (triple_scanLibrary run vt) fun e =>
    triple_failScan run e

theorem scan_completed {queued : Option ScanRun} {world : Outside} {calls : Nat} {runId : String}
    {counts : ScanCounts} {s : Session Tables Outside}
    (hrun : scan env library options queued (.opened before world calls) =
      (.ok (.completed runId counts), s)) :
    ∃ found, Swept env before library.id runId (indexed env before library options) found ∧
      Passed env options library.id found s.committed :=
  (triple_scan queued).of_ok ⟨trivial, ⟨rfl, rfl⟩, ⟨rfl, rfl, rfl, rfl⟩⟩ hrun runId counts rfl

end Scan

end ScanIndex
