/-
  Auditarr/PluginPersistence.lean
  ===============================
  **Whether an installed plugin is found again.**

  The installation takes the manifest from the first of `manifest.yaml`, `manifest.yml`
  and `manifest.json` that the archive has.  Reloading and the discovery at the next
  start read `manifest.json` in the plugin's directory and nothing else, so the archive
  must have left one there that says the same.
-/
import Auditarr.PluginLoader
import Auditarr.PluginContainment

namespace PluginPersistence

open Effects FileTree PosixPath KeyedTable PluginContainment PluginLoader
open PluginInstall hiding installFromZip loadOrRollBack

/-! ### What the extraction leaves at a location -/

/-- Missing locations may become directories, and nothing else changes. -/
def OnlyDirs (h h' : Host) : Prop :=
  ∀ loc, h'.tree.node loc = h.tree.node loc ∨
    (h.tree.node loc = none ∧ h'.tree.node loc = some .dir)

instance : Std.Refl OnlyDirs := ⟨fun _ _ => .inl rfl⟩

instance : IsTrans Host OnlyDirs := by
  constructor
  intro a b c hab hbc loc
  rcases hab loc with h | ⟨hnone, hdir⟩
  · rcases hbc loc with h' | ⟨hnone', hdir'⟩
    · exact .inl (h'.trans h)
    · exact .inr ⟨h ▸ hnone', hdir'⟩
  · rcases hbc loc with h' | ⟨hnone', hdir'⟩
    · exact .inr ⟨hnone, h'.trans hdir⟩
    · exact .inr ⟨hnone, hdir'⟩

/-- Nothing but the location changes. -/
def OnlyAt (loc : Loc Chars) (h h' : Host) : Prop :=
  ∀ other, other ≠ loc → h'.tree.node other = h.tree.node other

instance (loc : Loc Chars) : Std.Refl (OnlyAt loc) := ⟨fun _ _ _ => rfl⟩

instance (loc : Loc Chars) : IsTrans Host (OnlyAt loc) :=
  ⟨fun _ _ _ hab hbc other hne => (hbc other hne).trans (hab other hne)⟩

section Extraction

variable {env : PluginInstall.Env} {id topLevel : Chars}

theorem onlyDirs_osMkdir (loc : Loc Chars) : Within OnlyDirs (osMkdir env loc) := by
  intro h
  cases loc with
  | nil => exact Std.Refl.refl h
  | cons name up =>
    have hout := osMkdir_outcome env name up h
    generalize osMkdir env (name :: up) h = r at hout
    cases hout with
    | made h' _ hfree _ hnode _ _ =>
      intro other
      rw [hnode]
      by_cases hsame : other = name :: up
      · rw [hsame, Function.update_self]
        exact .inr ⟨hfree, rfl⟩
      · rw [Function.update_of_ne hsame]
        exact .inl rfl
    | _ => intro other; exact .inl rfl

theorem onlyDirs_existOk (loc : Loc Chars) (exc : InstallError) :
    Within OnlyDirs (existOk loc exc) := by
  intro h
  unfold existOk
  split <;> exact Std.Refl.refl h

theorem onlyDirs_mkdirs (loc : Loc Chars) : Within OnlyDirs (mkdirs env loc) := by
  induction loc with
  | nil => exact within_attempt (onlyDirs_osMkdir _) fun exc => onlyDirs_existOk _ exc
  | cons name up ih =>
    apply within_attempt (onlyDirs_osMkdir _)
    intro exc
    split
    · apply within_bind ih
      intro _
      apply within_attempt (onlyDirs_osMkdir _)
      intro exc
      split
      · exact within_raise _
      · exact onlyDirs_existOk _ _
    · exact onlyDirs_existOk _ _

theorem onlyAt_openWrite (loc : Loc Chars) : Within (OnlyAt loc) (openWrite env loc) := by
  intro h other hne
  cases loc with
  | nil => rfl
  | cons name up =>
    simp only [openWrite]
    split
    · rfl
    · rfl
    · split
      · rfl
      · split
        · rfl
        · simp [hne]

theorem onlyAt_write (chunk : Bytes) (loc : Loc Chars) :
    Within (OnlyAt loc) (write env chunk loc) := by
  intro h other hne
  cases loc with
  | nil => rfl
  | cons name up =>
    simp only [write]
    split
    · split
      · split
        · rfl
        · simp [hne]
      · rfl
    · rfl

theorem onlyAt_copyMember (loc : Loc Chars) (count : Nat) (m : Member) :
    Within (OnlyAt loc) (copyMember env loc count m) :=
  within_copyMember (onlyAt_openWrite loc) (fun chunk => onlyAt_write chunk loc) count m

theorem triple_openWrite (loc : Loc Chars) :
    Triple (fun _ => True) (openWrite env loc)
      (fun _ h => h.tree.node loc = some (.file [])) (fun _ _ => True) := by
  intro h _
  cases loc with
  | nil => trivial
  | cons name up =>
    simp only [openWrite]
    split
    · trivial
    · trivial
    · split
      · trivial
      · split
        · trivial
        · simp [Ends]

theorem triple_write_content (loc : Loc Chars) (chunk content : Bytes) :
    Triple (fun h => h.tree.node loc = some (.file content)) (write env chunk loc)
      (fun _ h => h.tree.node loc = some (.file (content ++ chunk))) (fun _ _ => True) := by
  intro h hcontent
  cases loc with
  | nil => trivial
  | cons name up =>
    simp only [write]
    split
    · split
      · rename_i hfile
        split
        · trivial
        · rw [hcontent, Option.some.injEq, Node.file.injEq] at hfile
          simp [Ends, hfile]
      · trivial
    · trivial

theorem triple_copyMember_content (loc : Loc Chars) (count : Nat) (m : Member) :
    Triple (fun _ => True) (copyMember env loc count m)
      (fun _ h => h.tree.node loc = some (.file (contentOf m))) (fun _ _ => True) := by
  unfold copyMember
  cases m.openError with
  | some text => exact fun _ _ => trivial
  | none =>
    apply Triple.bind (triple_openWrite loc)
    intro _
    have hloop : Triple (fun h => h.tree.node loc = some (.file []))
        (Call.foldEach (copyChunk env loc) count (m.chunks.takeWhile (· ≠ [])))
        (fun _ h => h.tree.node loc = some (.file (contentOf m))) (fun _ _ => True) := by
      apply Triple.foldEach (I := fun (done : List Bytes) (_ : Nat) (h : Host) =>
        h.tree.node loc = some (.file done.flatten))
      intro done chunk rest acc _
      unfold copyChunk
      split
      · exact fun _ _ => trivial
      · apply Triple.bind (triple_write_content loc chunk done.flatten)
        intro _
        apply triple_pure
        intro h hcontent
        rw [hcontent]
        simp
    apply Triple.bind hloop
    intro total
    cases m.readError with
    | some text => exact fun _ _ => trivial
    | none => exact triple_pure _ fun _ h => h

variable (env id topLevel) in
/-- The bytes of the last file among the members that leads to the location. -/
def writtenAt (loc : Loc Chars) (members : List Member) : Option Bytes :=
  members.foldl (fun written m =>
    if !m.isDir && decide ((destOf env id topLevel m).locate = loc) then some (contentOf m)
    else written) none

theorem writtenAt_snoc (loc : Loc Chars) (done : List Member) (m : Member) :
    writtenAt env id topLevel loc (done ++ [m]) =
      if !m.isDir && decide ((destOf env id topLevel m).locate = loc) then some (contentOf m)
      else writtenAt env id topLevel loc done := by
  rw [writtenAt, List.foldl_append]
  rfl

/-- The location is a file with the bytes, or no file at all. -/
def Holds (loc : Loc Chars) (written : Option Bytes) (h : Host) : Prop :=
  match written with
  | some bytes => h.tree.node loc = some (.file bytes)
  | none => h.tree.node loc = none ∨ h.tree.node loc = some .dir

theorem Holds.onlyDirs {loc : Loc Chars} {written : Option Bytes} {h h' : Host}
    (hholds : Holds loc written h) (hdirs : OnlyDirs h h') : Holds loc written h' := by
  cases written with
  | some bytes =>
    rcases hdirs loc with hsame | ⟨hnone, -⟩
    · exact hsame.trans hholds
    · rw [show h.tree.node loc = some (.file bytes) from hholds] at hnone
      cases hnone
  | none =>
    rcases hdirs loc with hsame | ⟨-, hdir⟩
    · rw [Holds, hsame]
      exact hholds
    · exact .inr hdir

theorem Holds.onlyAt {loc other : Loc Chars} {written : Option Bytes} {h h' : Host}
    (hholds : Holds loc written h) (hat : OnlyAt other h h') (hne : loc ≠ other) :
    Holds loc written h' := by
  unfold Holds at hholds ⊢
  rw [hat loc hne]
  exact hholds

theorem triple_extractMember_holds (loc : Loc Chars) (written : Option Bytes) (count : Nat)
    (m : Member) :
    Triple (Holds loc written) (extractMember env id topLevel count m)
      (fun _ => Holds loc (if !m.isDir && decide ((destOf env id topLevel m).locate = loc) then
        some (contentOf m) else written))
      (fun _ _ => True) := by
  have hdirs : ∀ place : Loc Chars, Triple (Holds loc written) (mkdirs env place)
      (fun _ => Holds loc written) (fun _ _ => True) := by
    intro place h hholds
    exact (ends_const (hholds.onlyDirs (onlyDirs_mkdirs place h)) _).imp (fun _ h' => h')
      fun _ _ => trivial
  unfold extractMember
  cases hdir : m.isDir with
  | true =>
    apply Triple.bind (hdirs _)
    intro _
    exact triple_pure _ fun _ h => h
  | false =>
    apply Triple.bind (hdirs _)
    intro _
    by_cases hloc : (destOf env id topLevel m).locate = loc
    · rw [hloc]
      exact (triple_copyMember_content loc count m).consequence (fun _ _ => trivial)
        (fun _ _ h => by simpa [Holds] using h) fun _ _ h => h
    · intro h hholds
      simp only [hloc, decide_false, Bool.and_false, Bool.false_eq_true, if_false]
      exact (ends_const (hholds.onlyAt (onlyAt_copyMember _ count m h) (Ne.symm hloc)) _).imp
        (fun _ h' => h') fun _ _ => trivial

variable (env id topLevel) in
theorem triple_extractAll_holds (loc : Loc Chars) (members : List Member) :
    Triple (Holds loc none) (Call.foldEach (extractMember env id topLevel) 0 members)
      (fun _ => Holds loc (writtenAt env id topLevel loc members)) (fun _ _ => True) := by
  apply Triple.foldEach (I := fun done _ => Holds loc (writtenAt env id topLevel loc done))
  intro done m rest count _
  rw [writtenAt_snoc]
  exact triple_extractMember_holds loc (writtenAt env id topLevel loc done) count m

theorem triple_createTarget (members : List Member) (hslug : Slug id) :
    Triple (fun _ => True) (createTarget env members id topLevel)
      (fun _ h => h.tree.node (targetLoc env id) = some .dir ∧
        ∀ name, h.tree.node (name :: targetLoc env id) = none)
      (fun _ _ => True) := by
  unfold createTarget
  refine Triple.bind (M := fun _ _ => True) (fun h _ => ends_const trivial _) fun _ => ?_
  refine Triple.bind (M := fun _ _ => True) (fun h _ => ends_const trivial _) fun taken => ?_
  dsimp only
  split
  · exact fun _ _ => trivial
  · split
    · exact fun _ _ => trivial
    · intro h _
      rw [targetLoc_eq hslug]
      have hout := osMkdir_outcome env id env.pluginDir.path.locate h
      generalize osMkdir env (id :: env.pluginDir.path.locate) h = r at hout
      cases hout with
      | made h' _ hfree _ hnode _ _ =>
        refine ⟨by rw [hnode, Function.update_self], fun name => ?_⟩
        rw [hnode, Function.update_of_ne (by simp)]
        exact Tree.absent_below hfree (List.suffix_cons _ _)
      | _ => trivial

theorem rollBack_raises {α : Type} (target : Loc Chars) (exc : InstallError) (h : Host) :
    (rollBack target exc h : Except InstallError α × Host).1 = .error exc := by
  unfold rollBack
  split
  · cases target <;> rfl
  · rfl

/-- A finished extraction leaves the directory of the plugin, and in it the bytes of the
    last member that leads to a location there. -/
theorem triple_extract (members : List Member) (hslug : Slug id) (name : Chars) :
    Triple (fun _ => True) (extractZipToPluginDir env members id topLevel)
      (fun _ h => h.tree.node (targetLoc env id) = some .dir ∧
        Holds (name :: targetLoc env id) (writtenAt env id topLevel (name :: targetLoc env id)
          (inWrapper topLevel members)) h)
      (fun _ _ => True) := by
  apply Triple.bind (triple_createTarget members hslug)
  intro _ h hcreated
  have hloop := triple_extractAll_holds env id topLevel (name :: targetLoc env id)
    (inWrapper topLevel members) h (.inl (hcreated.2 name))
  have hgrows := grows_extractAll env id topLevel (inWrapper topLevel members) 0 h
  rw [Call.run_attempt, Call.run_bind]
  rcases hrun : Call.foldEach (extractMember env id topLevel) 0 (inWrapper topLevel members) h with
    ⟨exc | count, h'⟩
  · dsimp only
    rw [rollBack_raises]
    trivial
  · rw [hrun] at hloop hgrows
    exact ⟨hgrows.dirs _ hcreated.1, hloop⟩

end Extraction

/-! ### An accepted archive -/

section Loader

variable {env : LoaderEnv}

theorem of_onDisk_ok {α : Type} {c : Loader α} {a : α} {s s' : LoaderState}
    (h : onDisk c s = (.ok a, s')) :
    ∃ h', c s.host = (.ok a, h') ∧ s' = s.withDisk h' := by
  obtain ⟨hout, hstate⟩ := Prod.mk.inj h
  exact ⟨(c s.host).2, Call.run_of_outcome hout, hstate.symm⟩

theorem of_orRaise_ok {α : Type} {r : Except InstallError α} {a : α} {s s' : LoaderState}
    (h : onDisk (orRaise r) s = (.ok a, s')) : r = .ok a ∧ s' = s := by
  cases r with
  | error e => cases h
  | ok b => cases h; exact ⟨rfl, rfl⟩

theorem of_loadOrRollBack_ok {manifest : Manifest} {loaded : LoadedPlugin} {s s' : LoaderState}
    (h : loadOrRollBack env manifest s = (.ok loaded, s')) :
    loadOne env manifest (installDir env manifest.id) s = (.ok loaded, s') := by
  unfold loadOrRollBack at h
  rw [Call.run_attempt] at h
  rcases hload : loadOne env manifest (installDir env manifest.id) s with ⟨exc | loaded', s₁⟩
  · rw [hload] at h
    have hout : (rollBack (installDir env manifest.id) exc s₁.host :
        Except InstallError LoadedPlugin × Host).1 = .ok loaded := (Prod.mk.inj h).1
    rw [rollBack_raises] at hout
    cases hout
  · rw [hload] at h
    exact h

theorem of_mountRoutes_ok {manifest : Manifest} {s s' : LoaderState}
    (h : mountRoutes env manifest s = (.ok (), s')) :
    (if env.app && manifest.routes then env.includeRouter manifest else none) = none ∧ s' = s := by
  unfold mountRoutes at h
  cases hrouter : (if env.app && manifest.routes then env.includeRouter manifest else none) with
  | some exc => rw [hrouter] at h; cases h
  | none => rw [hrouter] at h; cases h; exact ⟨rfl, rfl⟩

theorem of_loadOne_ok {manifest : Manifest} {directory : Loc Chars} {loaded : LoadedPlugin}
    {s s' : LoaderState} (h : loadOne env manifest directory s = (.ok loaded, s')) :
    (env.load s.loads manifest directory s.tree).raised = none ∧
      loaded.manifest = manifest ∧ loaded.directory = directory ∧ loaded.load = s.loads ∧
      loaded.registered =
        entriesOf manifest s.loads (env.load s.loads manifest directory s.tree).calls ∧
      s' = { s with
        loads := s.loads + 1
        registry := registerAll s.registry
          (entriesOf manifest s.loads (env.load s.loads manifest directory s.tree).calls) } := by
  simp only [loadOne] at h
  split at h
  · cases h
  · rename_i hraised
    obtain ⟨hout, hstate⟩ := Prod.mk.inj h
    cases hout
    exact ⟨hraised, rfl, rfl, rfl, rfl, hstate.symm⟩

/-- What an accepted installation has found and left. -/
structure Installed (env : LoaderEnv) (members : List Member) (s s' : LoaderState)
    (manifest : Manifest) (topLevel : Chars) : Prop where
  found : ∃ m, findManifestInZip (env.installEnv 0) members = .ok (m, topLevel) ∧
    manifestOf env m = .ok manifest
  directory : s'.tree.node (installDir env manifest.id) = some .dir
  content : Holds (manifestName :: installDir env manifest.id)
    (writtenAt (env.installEnv 0) manifest.id topLevel
      (manifestName :: installDir env manifest.id) (inWrapper topLevel members)) s'.host
  loads : (env.load s.loads manifest (installDir env manifest.id) s'.tree).raised = none
  mounts : (if env.app && manifest.routes then env.includeRouter manifest else none) = none
  present : ∃ p ∈ s'.plugins, p.manifest = manifest ∧ p.directory = installDir env manifest.id

theorem of_installFromZip_ok {members : List Member} {id : Chars} {s s' : LoaderState}
    (h : installFromZip env (.ok members) s = (.ok id, s')) :
    ∃ manifest topLevel, id = manifest.id ∧ Installed env members s s' manifest topLevel := by
  obtain ⟨found, s₁, hfound, hrest₁⟩ := Call.of_bind_ok h
  obtain ⟨hfoundIn, rfl⟩ := of_orRaise_ok hfound
  obtain ⟨manifest, s₂, hmanifest, hrest₂⟩ := Call.of_bind_ok hrest₁
  obtain ⟨hparsed, rfl⟩ := of_orRaise_ok hmanifest
  obtain ⟨⟨⟩, s₃, hcollision, hrest₃⟩ := Call.of_bind_ok hrest₂
  obtain ⟨h₃, -, rfl⟩ := of_onDisk_ok hcollision
  obtain ⟨⟨⟩, s₄, hextract, hrest₄⟩ := Call.of_bind_ok hrest₃
  obtain ⟨h₄, hextracted, rfl⟩ := of_onDisk_ok hextract
  obtain ⟨loaded, s₅, hloaded, hrest₅⟩ := Call.of_bind_ok hrest₄
  obtain ⟨hraised, hof, hdirectory, -, -, rfl⟩ := of_loadOne_ok (of_loadOrRollBack_ok hloaded)
  obtain ⟨⟨⟩, s₆, hkeep, hrest₆⟩ := Call.of_bind_ok hrest₅
  cases hkeep
  obtain ⟨⟨⟩, s₇, hmount, hrest₇⟩ := Call.of_bind_ok hrest₆
  obtain ⟨hmounts, rfl⟩ := of_mountRoutes_ok hmount
  cases hrest₇
  obtain ⟨hnode, hcontent⟩ := (triple_extract members manifest.id_slug manifestName).of_ok trivial
    hextracted
  refine ⟨manifest, found.2, rfl, ⟨found.1, hfoundIn, hparsed⟩, hnode, hcontent, hraised, hmounts, ?_⟩
  exact ⟨loaded, Table.mem_upsert.mpr (.inl rfl), hof, hdirectory⟩

theorem readManifest_ok_iff {directory : Loc Chars} {written : Option Bytes} {s : LoaderState}
    (hcontent : Holds (manifestName :: directory) written s.host) {manifest : Manifest} :
    readManifest env s.tree directory = .ok manifest ↔
      ∃ bytes, written = some bytes ∧ env.fromJson bytes = .ok manifest := by
  unfold readManifest
  cases written with
  | some bytes =>
    have hfile : s.tree.node (manifestName :: directory) = some (.file bytes) := hcontent
    rw [hfile]
    simp
  | none =>
    rcases hcontent with hnone | hdir
    · rw [show s.tree.node (manifestName :: directory) = none from hnone]
      simp
    · rw [show s.tree.node (manifestName :: directory) = some .dir from hdir]
      simp

/-! ### Reloading it -/

/-- The code of a plugin ends a load on the same files in the same way. -/
def Repeatable (env : LoaderEnv) : Prop :=
  ∀ n n' manifest directory tree,
    (env.load n manifest directory tree).raised = (env.load n' manifest directory tree).raised

/-- The plugin is loaded after the reload, and no failure is on record. -/
def ReloadSucceeds (env : LoaderEnv) (id : Chars) (s : LoaderState) : Prop :=
  (reloadOne env id s).1 = .ok () ∧ (∃ p ∈ (reloadOne env id s).2.plugins, p.id = id) ∧
    (reloadOne env id s).2.failedLoads.find? id = none

theorem loadOne_returns {manifest : Manifest} {directory : Loc Chars} {s : LoaderState}
    (hload : (env.load s.loads manifest directory s.tree).raised = none) :
    ∃ loaded s', loadOne env manifest directory s = (.ok loaded, s') ∧
      loaded.manifest = manifest ∧ loaded.directory = directory ∧ s'.tree = s.tree ∧
      s'.plugins = s.plugins ∧ s'.failedLoads = s.failedLoads := by
  unfold loadOne
  simp only [hload]
  exact ⟨_, _, rfl, rfl, rfl, rfl, rfl, rfl⟩

theorem loadOne_raises {manifest : Manifest} {directory : Loc Chars} {s : LoaderState}
    {exc : InstallError}
    (hload : (env.load s.loads manifest directory s.tree).raised = some exc) :
    ∃ s', loadOne env manifest directory s = (.error exc, s') ∧ s'.tree = s.tree ∧
      s'.plugins = s.plugins := by
  unfold loadOne
  simp only [hload]
  exact ⟨_, rfl, rfl, rfl⟩

variable (env) in
theorem run_tearDown (p : LoadedPlugin) (s : LoaderState) :
    ∃ registry, tearDown env p s = (.ok (), { s with registry := registry }) := by
  unfold tearDown
  split
  · exact ⟨_, rfl⟩
  · exact ⟨s.registry, rfl⟩

theorem reloadSucceeds_of_read (hrepeat : Repeatable env) {manifest : Manifest}
    {directory : Loc Chars} {n : Nat} {s : LoaderState} {p : LoadedPlugin}
    (hfind : s.plugins.find? manifest.id = some p) (hdirectory : p.directory = directory)
    (hread : readManifest env s.tree directory = .ok manifest)
    (hload : (env.load n manifest directory s.tree).raised = none) :
    ReloadSucceeds env manifest.id s := by
  obtain ⟨registry, htear⟩ := run_tearDown env p s
  let s₁ : LoaderState :=
    { s with registry := registry, plugins := s.plugins.erase (·.id = manifest.id) }
  have hpop : popPlugin manifest.id { s with registry := registry } = (.ok (), s₁) := rfl
  have hload₁ : (env.load s₁.loads manifest directory s₁.tree).raised = none :=
    (hrepeat _ n _ _ _).trans hload
  obtain ⟨loaded, s₂, hout, hmanifest, -, -, -, -⟩ := loadOne_returns hload₁
  have hid : loaded.id = manifest.id := by rw [LoadedPlugin.id, hmanifest]
  have hrun : reloadOne env manifest.id s = keep loaded s₂ := by
    simp only [reloadOne, hfind]
    rw [Call.run_bind_ok htear, Call.run_bind_ok hpop, hdirectory, reloadFrom,
      Call.run_bind_ok (Call.run_read _ _), show s₁.tree = s.tree from rfl, hread]
    dsimp only
    rw [Call.run_attempt, Call.run_bind_ok hout]
    rfl
  unfold ReloadSucceeds
  rw [hrun]
  refine ⟨rfl, ⟨loaded, Table.mem_upsert.mpr (.inl rfl), hid⟩, ?_⟩
  rw [← hid]
  exact Table.find?_erase_self _

/-! ### Finding it at the next start -/

/-- A loader at the start. -/
def restarted (tree : Tree Chars Bytes) : LoaderState where
  tree := tree
  touched := []
  bytesWritten := 0
  calls := 0
  loads := 0
  plugins := .empty
  failedLoads := .empty
  registry := fun _ => []

/-- The discovery ends, and the plugin is loaded from its directory. -/
def FoundAgain (env : LoaderEnv) (tree : Tree Chars Bytes) (manifest : Manifest) : Prop :=
  (discoverAndLoad env (restarted tree)).1 = .ok () ∧
    ∃ p ∈ (discoverAndLoad env (restarted tree)).2.plugins,
      p.manifest = manifest ∧ p.directory = installDir env manifest.id

theorem gather_cons_eq_ok {α β : Type} {find : α → Except InstallError (List β)} {x : α}
    {rest : List α} {ys : List β} : gather find (x :: rest) = .ok ys ↔
      ∃ here, find x = .ok here ∧ ∃ others, gather find rest = .ok others ∧ here ++ others = ys := by
  rw [gather]
  cases find x with
  | error e => simp [bind, Except.bind]
  | ok here => cases gather find rest with
    | error e => simp [bind, Except.bind]
    | ok others => simp [bind, Except.bind, pure, Except.pure]

theorem of_gather_ok {α β : Type} {find : α → Except InstallError (List β)} {xs : List α}
    {ys : List β} (hgather : gather find xs = .ok ys) : ∀ x ∈ xs, ∃ here, find x = .ok here := by
  induction xs generalizing ys with
  | nil =>
    intro x hx
    cases hx
  | cons x rest ih =>
    obtain ⟨here, hhere, others, hothers, -⟩ := gather_cons_eq_ok.mp hgather
    intro y hy
    rcases List.mem_cons.mp hy with rfl | hrest
    · exact ⟨here, hhere⟩
    · exact ih hothers y hrest

theorem mem_gather {α β : Type} {find : α → Except InstallError (List β)} {xs : List α}
    {ys : List β} (hgather : gather find xs = .ok ys) {y : β} :
    y ∈ ys ↔ ∃ x ∈ xs, ∃ here, find x = .ok here ∧ y ∈ here := by
  induction xs generalizing ys with
  | nil =>
    cases hgather
    simp
  | cons x rest ih =>
    obtain ⟨here, hhere, others, hothers, rfl⟩ := gather_cons_eq_ok.mp hgather
    rw [List.mem_append, ih hothers]
    simp [hhere]

theorem of_discoverChild {tree : Tree Chars Bytes} {root : Loc Chars} {name : Chars}
    {item : Manifest × Loc Chars} (h : discoverChild env tree root name = .ok (some item)) :
    item.2 = name :: root ∧ readManifest env tree (name :: root) = .ok item.1 := by
  unfold discoverChild at h
  split at h
  · cases h
  · split at h
    · cases h
    · split at h
      · rename_i manifest hread
        cases h
        exact ⟨rfl, hread⟩
      · cases h
      · cases h

/-- The manifests in the plugin directories. -/
def discovered (env : LoaderEnv) (tree : Tree Chars Bytes) :
    Except InstallError (List (Manifest × Loc Chars)) :=
  gather (discoverManifests env tree) (pluginDirectories env)

theorem mem_discovered {tree : Tree Chars Bytes} {found : List (Manifest × Loc Chars)}
    (hfound : discovered env tree = .ok found) {item : Manifest × Loc Chars} :
    item ∈ found ↔ ∃ root ∈ pluginDirectories env, tree.node root = some .dir ∧
      ∃ name ∈ env.iterdir tree root, discoverChild env tree root name = .ok (some item) := by
  rw [mem_gather hfound]
  constructor
  · rintro ⟨root, hroot, here, hhere, hitem⟩
    unfold discoverManifests at hhere
    split at hhere
    · cases hhere
      cases hitem
    · cases hhere
    · rename_i hdir
      obtain ⟨name, hname, entry, hentry, hmem⟩ := (mem_gather hhere).mp hitem
      refine ⟨root, hroot, hdir, name, hname, ?_⟩
      cases hchild : discoverChild env tree root name with
      | error e => rw [hchild] at hentry; cases hentry
      | ok child =>
        rw [hchild] at hentry
        cases hentry
        rw [Option.mem_toList.mp hmem]
  · rintro ⟨root, hroot, hdir, name, hname, hchild⟩
    obtain ⟨here, hhere⟩ := of_gather_ok hfound root hroot
    refine ⟨root, hroot, here, hhere, ?_⟩
    rw [discoverManifests, hdir] at hhere
    exact (mem_gather hhere).mpr ⟨name, hname, [item], by rw [hchild]; rfl, by simp⟩

/-- No other directory has a manifest with the id. -/
def Unshared (env : LoaderEnv) (tree : Tree Chars Bytes) (id : Chars) : Prop :=
  ∀ root ∈ pluginDirectories env, ∀ name ∈ env.iterdir tree root,
    name :: root ≠ installDir env id →
    ∀ item, discoverChild env tree root name = .ok (some item) → item.1.id ≠ id

/-- The listing of the plugin directory has the plugin. -/
def Listed (env : LoaderEnv) (tree : Tree Chars Bytes) (id : Chars) : Prop :=
  id ∈ env.iterdir tree env.pluginDir.path.locate

theorem installDir_eq (manifest : Manifest) :
    installDir env manifest.id = manifest.id :: env.pluginDir.path.locate :=
  show targetLoc (env.installEnv 0) manifest.id = _ from targetLoc_eq manifest.id_slug

theorem pluginDir_mem : env.pluginDir.path.locate ∈ pluginDirectories env := by
  unfold pluginDirectories
  split
  · rename_i hsame
    rw [hsame]
    exact List.mem_singleton.mpr rfl
  · simp

theorem not_hidden (manifest : Manifest) : isHidden manifest.id = false := by
  obtain ⟨first, rest, hfirst, -, -, -, hid⟩ := manifest.id_slug
  have hdot : first ≠ '.' := by
    rintro rfl
    exact absurd hfirst.1 (by decide)
  have hunderscore : first ≠ '_' := by
    rintro rfl
    exact absurd hfirst.1 (by decide)
  rcases hid with hid | hid <;> simp [isHidden, hid, hdot, hunderscore]

/-- Where nobody else uses its id, a plugin is discovered in its directory exactly with
    the manifest that is read there. -/
theorem mem_discovered_iff {tree : Tree Chars Bytes} {found : List (Manifest × Loc Chars)}
    (hfound : discovered env tree = .ok found) {manifest : Manifest}
    (hlisted : Listed env tree manifest.id) (hdir : tree.node (installDir env manifest.id) = some .dir) :
    (manifest, installDir env manifest.id) ∈ found ↔
      readManifest env tree (installDir env manifest.id) = .ok manifest := by
  rw [mem_discovered hfound]
  constructor
  · rintro ⟨root, -, -, name, -, hchild⟩
    obtain ⟨hat, hread⟩ := of_discoverChild hchild
    rw [← hat] at hread
    exact hread
  · intro hread
    rw [installDir_eq] at hdir hread ⊢
    refine ⟨_, pluginDir_mem, tree.parent _ _ (by rw [hdir]; simp), manifest.id, hlisted, ?_⟩
    have hpresent : tree.node (manifestName :: manifest.id :: env.pluginDir.path.locate) ≠ none := by
      intro hnone
      rw [readManifest, hnone] at hread
      cases hread
    unfold discoverChild
    rw [if_neg (by simp [hdir, not_hidden]), if_neg hpresent, hread]

/-! ### The order -/

theorem of_mem_firstOfId {seenIds : List Chars} {items : List (Manifest × Loc Chars)}
    {item : Manifest × Loc Chars} (h : item ∈ firstOfId seenIds items) :
    item ∈ items ∧ item.1.id ∉ seenIds := by
  induction items generalizing seenIds with
  | nil => cases h
  | cons first rest ih =>
    rw [firstOfId] at h
    split at h
    · obtain ⟨hmem, hnew⟩ := ih h
      exact ⟨List.mem_cons_of_mem _ hmem, hnew⟩
    · rename_i hfirst
      rcases List.mem_cons.mp h with rfl | hrest
      · exact ⟨List.mem_cons_self .., hfirst⟩
      · obtain ⟨hmem, hnew⟩ := ih hrest
        exact ⟨List.mem_cons_of_mem _ hmem, fun hin => hnew (List.mem_cons_of_mem _ hin)⟩

theorem nodup_firstOfId (seenIds : List Chars) (items : List (Manifest × Loc Chars)) :
    ((firstOfId seenIds items).map (·.1.id)).Nodup := by
  induction items generalizing seenIds with
  | nil => exact List.nodup_nil
  | cons first rest ih =>
    rw [firstOfId]
    split
    · exact ih seenIds
    · rw [List.map_cons, List.nodup_cons]
      refine ⟨fun hmem => ?_, ih _⟩
      obtain ⟨item, hitem, hid⟩ := List.mem_map.mp hmem
      exact (of_mem_firstOfId hitem).2 (hid ▸ List.mem_cons_self ..)

theorem exists_firstOfId (seenIds : List Chars) {items : List (Manifest × Loc Chars)}
    {item : Manifest × Loc Chars} (hitem : item ∈ items) (hnew : item.1.id ∉ seenIds) :
    ∃ kept ∈ firstOfId seenIds items, kept.1.id = item.1.id := by
  induction items generalizing seenIds with
  | nil => cases hitem
  | cons first rest ih =>
    rw [firstOfId]
    split
    · rename_i hseen
      rcases List.mem_cons.mp hitem with rfl | hrest
      · exact absurd hseen hnew
      · exact ih seenIds hrest hnew
    · by_cases hsame : item.1.id = first.1.id
      · exact ⟨first, List.mem_cons_self .., hsame.symm⟩
      · rcases List.mem_cons.mp hitem with rfl | hrest
        · exact absurd rfl hsame
        · obtain ⟨kept, hkept, hid⟩ := ih (first.1.id :: seenIds) hrest
            (by simp [hsame, hnew])
          exact ⟨kept, List.mem_cons_of_mem _ hkept, hid⟩

section Order

variable {items : List (Manifest × Loc Chars)} (hunique : (items.map (·.1.id)).Nodup)

include hunique in
theorem byId_eq_some {id : Chars} {item : Manifest × Loc Chars} :
    byId items id = some item ↔ item ∈ items ∧ item.1.id = id := by
  constructor
  · intro h
    exact ⟨List.mem_of_find?_eq_some h, by simpa using List.find?_some h⟩
  · rintro ⟨hitem, rfl⟩
    exact find?_of_mem hunique hitem

theorem requiresOf_known (id : Chars) :
    requiresOf items id ≠ none ↔ id ∈ items.map (·.1.id) := by
  simp [requiresOf, byId]

include hunique in
theorem mem_topoSort_iff {item : Manifest × Loc Chars} :
    item ∈ topoSort items ↔
      item ∈ items ∧ ¬TopoSort.Cyclic (requiresOf items) item.1.id := by
  unfold topoSort
  rw [List.mem_filterMap]
  constructor
  · rintro ⟨id, hid, hby⟩
    obtain ⟨hitem, rfl⟩ := (byId_eq_some hunique).mp hby
    exact ⟨hitem, ((TopoSort.mem_topoSort requiresOf_known).mp hid).2⟩
  · rintro ⟨hitem, hacyclic⟩
    refine ⟨item.1.id, (TopoSort.mem_topoSort requiresOf_known).mpr ⟨?_, hacyclic⟩,
      (byId_eq_some hunique).mpr ⟨hitem, rfl⟩⟩
    exact List.mem_map_of_mem hitem

end Order

/-! ### Loading in order -/

/-- The exception that loading a discovered plugin ends in. -/
def endsIn (env : LoaderEnv) (tree : Tree Chars Bytes) (item : Manifest × Loc Chars) :
    Option InstallError :=
  match (env.load 0 item.1 item.2 tree).raised with
  | some exc => some exc
  | none => if env.app && item.1.routes then env.includeRouter item.1 else none

/-- Loading the plugin ends in an exception that the loader lets through. -/
def EndsDiscovery (env : LoaderEnv) (tree : Tree Chars Bytes) (item : Manifest × Loc Chars) :
    Prop :=
  ∃ exc, endsIn env tree item = some exc ∧ exc.isException = false

/-- The plugin is loaded from the directory. -/
def LoadedFrom (s : LoaderState) (item : Manifest × Loc Chars) : Prop :=
  ∃ p ∈ s.plugins, p.manifest = item.1 ∧ p.directory = item.2

/-- What loading one discovered plugin does. -/
structure LoadStep (env : LoaderEnv) (item : Manifest × Loc Chars) (s : LoaderState)
    (r : Except InstallError Unit × LoaderState) : Prop where
  tree : r.2.tree = s.tree
  ends : r.1 = .ok () ↔ ¬EndsDiscovery env s.tree item
  origin : ∀ p ∈ r.2.plugins, p ∈ s.plugins ∨ (p.manifest = item.1 ∧ p.directory = item.2)
  others : ∀ p ∈ s.plugins, p.id ≠ item.1.id → p ∈ r.2.plugins
  loaded : (env.load 0 item.1 item.2 s.tree).raised = none → LoadedFrom r.2 item

theorem recorded_ends (failed : FailedLoad) (exc : InstallError) (s : LoaderState) :
    ((recorded failed exc s).1 = .ok () ↔ exc.isException = true) ∧
      (recorded failed exc s).2.tree = s.tree ∧ (recorded failed exc s).2.plugins = s.plugins := by
  unfold recorded
  cases hexc : exc.isException with
  | true => exact ⟨⟨fun _ => rfl, fun _ => rfl⟩, rfl, rfl⟩
  | false => exact ⟨⟨fun h => (by cases h), fun h => (by cases h)⟩, rfl, rfl⟩

theorem endsDiscovery_iff {tree : Tree Chars Bytes} {item : Manifest × Loc Chars}
    {exc : InstallError} (hends : endsIn env tree item = some exc) :
    ¬EndsDiscovery env tree item ↔ exc.isException = true := by
  unfold EndsDiscovery
  rw [hends]
  simp

theorem loadStep (hrepeat : Repeatable env) (item : Manifest × Loc Chars) (s : LoaderState) :
    LoadStep env item s (loadDiscovered env item s) := by
  unfold loadDiscovered
  rw [Call.run_attempt]
  cases hraised : (env.load s.loads item.1 item.2 s.tree).raised with
  | some exc =>
    have hends : endsIn env s.tree item = some exc := by
      rw [endsIn, hrepeat 0 s.loads, hraised]
    obtain ⟨s₁, hload, htree, hplugins⟩ := loadOne_raises hraised
    rw [Call.run_bind_error hload]
    obtain ⟨hok, htree', hplugins'⟩ := recorded_ends ⟨item.1.id, some item.1, item.2⟩ exc s₁
    rw [htree] at htree'
    rw [hplugins] at hplugins'
    refine ⟨htree', hok.trans (endsDiscovery_iff hends).symm, ?_, ?_, ?_⟩
    · intro p hp
      rw [hplugins'] at hp
      exact .inl hp
    · intro p hp _
      rw [hplugins']
      exact hp
    · intro hloads
      rw [hrepeat 0 s.loads, hraised] at hloads
      cases hloads
  | none =>
    obtain ⟨loaded, s₁, hload, hmanifest, hdirectory, htree, hplugins, -⟩ := loadOne_returns hraised
    let s₂ : LoaderState := { s₁ with
      plugins := s₁.plugins.upsert loaded
      failedLoads := s₁.failedLoads.erase (·.pluginId = loaded.id) }
    have hkeep : keep loaded s₁ = (.ok (), s₂) := rfl
    have hid : loaded.id = item.1.id := by rw [LoadedPlugin.id, hmanifest]
    have horigin : ∀ p ∈ s₂.plugins, p ∈ s.plugins ∨
        (p.manifest = item.1 ∧ p.directory = item.2) := by
      intro p hp
      rcases Table.mem_upsert.mp hp with rfl | ⟨hold, -⟩
      · exact .inr ⟨hmanifest, hdirectory⟩
      · exact .inl (hplugins ▸ hold)
    have hothers : ∀ p ∈ s.plugins, p.id ≠ item.1.id → p ∈ s₂.plugins := by
      intro p hp hne
      exact Table.mem_upsert.mpr (.inr ⟨hplugins ▸ hp, hid ▸ hne⟩)
    have hloaded : LoadedFrom s₂ item :=
      ⟨loaded, Table.mem_upsert.mpr (.inl rfl), hmanifest, hdirectory⟩
    rw [Call.run_bind_ok hload, Call.run_bind_ok hkeep]
    cases hrouter : (if env.app && item.1.routes then env.includeRouter item.1 else none) with
    | none =>
      have hends : endsIn env s.tree item = none := by
        rw [endsIn, hrepeat 0 s.loads, hraised]
        exact hrouter
      simp only [mountRoutes, hrouter]
      refine ⟨htree, ?_, horigin, hothers, fun _ => hloaded⟩
      simp [EndsDiscovery, hends]
    | some exc =>
      have hends : endsIn env s.tree item = some exc := by
        rw [endsIn, hrepeat 0 s.loads, hraised]
        exact hrouter
      simp only [mountRoutes, hrouter]
      obtain ⟨hok, htree', hplugins'⟩ := recorded_ends ⟨item.1.id, some item.1, item.2⟩ exc s₂
      refine ⟨htree'.trans htree, hok.trans (endsDiscovery_iff hends).symm, ?_, ?_, ?_⟩
      · intro p hp
        exact horigin p (hplugins' ▸ hp)
      · intro p hp hne
        exact hplugins' ▸ hothers p hp hne
      · intro _
        obtain ⟨p, hp, hof⟩ := hloaded
        exact ⟨p, hplugins' ▸ hp, hof⟩

/-- The whole loop: it ends unless an exception is let through, what is loaded then comes
    from its items, and every item that loads is. -/
theorem loadAll_spec (hrepeat : Repeatable env) {items : List (Manifest × Loc Chars)}
    (hsame : ∀ a ∈ items, ∀ b ∈ items, a.1.id = b.1.id → a = b)
    {rest : List (Manifest × Loc Chars)} (hsub : ∀ item ∈ rest, item ∈ items) (s : LoaderState) :
    ((Call.forEach (loadDiscovered env) rest s).1 = .ok () ↔
      ∀ item ∈ rest, ¬EndsDiscovery env s.tree item) ∧
    ((Call.forEach (loadDiscovered env) rest s).1 = .ok () →
      (∀ p ∈ (Call.forEach (loadDiscovered env) rest s).2.plugins,
        p ∈ s.plugins ∨ ∃ item ∈ rest, p.manifest = item.1 ∧ p.directory = item.2) ∧
      ∀ item ∈ items, (env.load 0 item.1 item.2 s.tree).raised = none →
        LoadedFrom s item ∨ item ∈ rest →
        LoadedFrom (Call.forEach (loadDiscovered env) rest s).2 item) := by
  induction rest generalizing s with
  | nil =>
    refine ⟨by simp [Call.forEach], fun _ => ⟨fun p hp => .inl hp, ?_⟩⟩
    intro item _ _ hitem
    rcases hitem with h | h
    · exact h
    · cases h
  | cons first rest ih =>
    have hstep := loadStep hrepeat first s
    rw [Call.forEach, Call.andThen_eq_bind, Call.run_bind]
    rcases hrun : loadDiscovered env first s with ⟨exc | ⟨⟨⟩⟩, s₁⟩
    · rw [hrun] at hstep
      have hends : EndsDiscovery env s.tree first := by
        by_contra hnot
        cases hstep.ends.mpr hnot
      refine ⟨⟨fun h => (by cases h), fun h => absurd hends (h first (List.mem_cons_self ..))⟩, ?_⟩
      intro h
      cases h
    · rw [hrun] at hstep
      have hfirst : ¬EndsDiscovery env s.tree first := hstep.ends.mp rfl
      obtain ⟨hends, hafter⟩ := ih (fun item hitem => hsub item (List.mem_cons_of_mem _ hitem)) s₁
      rw [show s₁.tree = s.tree from hstep.tree] at hends hafter
      refine ⟨hends.trans ?_, fun hok => ?_⟩
      · rw [List.forall_mem_cons]
        exact (and_iff_right hfirst).symm
      · obtain ⟨horigin, hloaded⟩ := hafter hok
        constructor
        · intro p hp
          rcases horigin p hp with hmid | ⟨item, hitem, hof⟩
          · rcases hstep.origin p hmid with hold | hof
            · exact .inl hold
            · exact .inr ⟨first, List.mem_cons_self .., hof⟩
          · exact .inr ⟨item, List.mem_cons_of_mem _ hitem, hof⟩
        · intro item hitem hloads hthere
          apply hloaded item hitem hloads
          by_cases hself : item = first
          · subst hself
            exact .inl (hstep.loaded hloads)
          · rcases hthere with ⟨p, hp, hmanifest, hdirectory⟩ | hmem
            · have hne : p.id ≠ first.1.id := by
                rw [LoadedPlugin.id, hmanifest]
                exact fun hid => hself (hsame item hitem first (hsub _ (List.mem_cons_self ..)) hid)
              exact .inl ⟨p, hstep.others p hp hne, hmanifest, hdirectory⟩
            · exact .inr ((List.mem_cons.mp hmem).resolve_left hself)

/-- The discovery ends, and no plugin in a cycle is required by the one with the id. -/
def BootsWith (env : LoaderEnv) (tree : Tree Chars Bytes) (id : Chars) : Prop :=
  ∃ found, discovered env tree = .ok found ∧
    ¬TopoSort.Cyclic (requiresOf (firstOfId [] found)) id ∧
    ∀ item ∈ firstOfId [] found,
      ¬TopoSort.Cyclic (requiresOf (firstOfId [] found)) item.1.id → ¬EndsDiscovery env tree item

theorem run_discoverAndLoad {tree : Tree Chars Bytes} {found : List (Manifest × Loc Chars)}
    (hfound : discovered env tree = .ok found) :
    discoverAndLoad env (restarted tree) =
      Call.forEach (loadDiscovered env) (topoSort (firstOfId [] found)) (restarted tree) := by
  unfold discoverAndLoad
  rw [Call.run_bind_ok (Call.run_read _ _)]
  have htree : gather (discoverManifests env (restarted tree).tree) (pluginDirectories env) =
      .ok found := hfound
  rw [htree]

theorem eq_of_mem_topoSort {found a b} (ha : a ∈ topoSort (firstOfId [] found))
    (hb : b ∈ topoSort (firstOfId [] found)) (hid : a.1.id = b.1.id) : a = b :=
  List.inj_on_of_nodup_map (nodup_firstOfId [] found)
    ((mem_topoSort_iff (nodup_firstOfId [] found)).mp ha).1
    ((mem_topoSort_iff (nodup_firstOfId [] found)).mp hb).1 hid

/-- The next start finds a plugin whose directory has its manifest, unless the discovery
    breaks off or the plugin requires one in a cycle. -/
theorem foundAgain_iff (hrepeat : Repeatable env) {tree : Tree Chars Bytes} {manifest : Manifest}
    {n : Nat} (hlisted : Listed env tree manifest.id) (hunshared : Unshared env tree manifest.id)
    (hdir : tree.node (installDir env manifest.id) = some .dir)
    (hload : (env.load n manifest (installDir env manifest.id) tree).raised = none) :
    FoundAgain env tree manifest ↔
      readManifest env tree (installDir env manifest.id) = .ok manifest ∧
        BootsWith env tree manifest.id := by
  cases hfound : discovered env tree with
  | error exc =>
    have hraises : (discoverAndLoad env (restarted tree)).1 = .error exc := by
      have htree : gather (discoverManifests env (restarted tree).tree) (pluginDirectories env) =
          .error exc := hfound
      unfold discoverAndLoad
      rw [Call.run_bind_ok (Call.run_read _ _), htree]
      rfl
    constructor
    · rintro ⟨hok, -⟩
      rw [hraises] at hok
      cases hok
    · rintro ⟨-, found, hok, -⟩
      rw [hfound] at hok
      cases hok
  | ok found =>
    have hunique := nodup_firstOfId [] found
    obtain ⟨hends, hafter⟩ := loadAll_spec hrepeat (fun a ha b hb => eq_of_mem_topoSort ha hb)
      (fun _ h => h) (restarted tree)
    unfold FoundAgain
    rw [run_discoverAndLoad hfound]
    constructor
    · rintro ⟨hok, p, hp, hmanifest, hdirectory⟩
      obtain ⟨horigin, -⟩ := hafter hok
      rcases horigin p hp with hempty | ⟨item, hitem, hof, hat⟩
      · exact absurd hempty (Table.not_mem_empty p)
      · have hself : item = (manifest, installDir env manifest.id) :=
          Prod.ext (hof.symm.trans hmanifest) (hat.symm.trans hdirectory)
        rw [hself, mem_topoSort_iff hunique] at hitem
        refine ⟨?_, found, hfound, hitem.2, ?_⟩
        · exact (mem_discovered_iff hfound hlisted hdir).mp (of_mem_firstOfId hitem.1).1
        · intro item' hitem' hacyclic
          exact hends.mp hok item' ((mem_topoSort_iff hunique).mpr ⟨hitem', hacyclic⟩)
    · rintro ⟨hread, found', hfound', hacyclic, hlets⟩
      rw [hfound] at hfound'
      cases hfound'
      have hok : (Call.forEach (loadDiscovered env) (topoSort (firstOfId [] found))
          (restarted tree)).1 = .ok () := by
        rw [hends]
        intro item hitem
        obtain ⟨hmem, hnot⟩ := (mem_topoSort_iff hunique).mp hitem
        exact hlets item hmem hnot
      obtain ⟨kept, hkept, hid⟩ := exists_firstOfId []
        ((mem_discovered_iff hfound hlisted hdir).mpr hread) List.not_mem_nil
      -- the one that is kept lies in the directory of the plugin
      have hself : kept = (manifest, installDir env manifest.id) := by
        obtain ⟨root, hroot, -, name, hname, hchild⟩ :=
          (mem_discovered hfound).mp (of_mem_firstOfId hkept).1
        obtain ⟨hat, hreads⟩ := of_discoverChild hchild
        have hplace : name :: root = installDir env manifest.id := by
          by_contra hne
          exact hunshared root hroot name hname hne kept hchild hid
        rw [hplace, hread] at hreads
        exact Prod.ext (Except.ok.inj hreads).symm (hat.trans hplace)
      rw [hself] at hkept
      refine ⟨hok, (hafter hok).2 _ ((mem_topoSort_iff hunique).mpr ⟨hkept, hacyclic⟩) ?_ (.inr ?_)⟩
      · exact (hrepeat 0 n _ _ _).trans hload
      · exact (mem_topoSort_iff hunique).mpr ⟨hkept, hacyclic⟩

end Loader

/-! ### The archive -/

/-- The last file of the archive that leads to `manifest.json` in the directory of the
    plugin is the same manifest again, as JSON. -/
def KeepsManifest (env : LoaderEnv) (members : List Member) (manifest : Manifest)
    (topLevel : Chars) : Prop :=
  ∃ bytes, writtenAt (env.installEnv 0) manifest.id topLevel
      (manifestName :: installDir env manifest.id) (inWrapper topLevel members) = some bytes ∧
    env.fromJson bytes = .ok manifest

/-- An archive that is accepted stays installed exactly if the extraction leaves its
    manifest as JSON, and the discovery of the plugins on disk does not break off and is
    not kept from the plugin by a cycle among those it requires. -/
theorem stays_installed_iff (env : LoaderEnv) (hrepeat : Repeatable env) (members : List Member)
    (id : Chars) (s s' : LoaderState)
    (hinstall : installFromZip env (.ok members) s = (.ok id, s'))
    (hlisted : Listed env s'.tree id) (hunshared : Unshared env s'.tree id) :
    ∃ manifest topLevel, manifest.id = id ∧
      (∃ m, findManifestInZip (env.installEnv 0) members = .ok (m, topLevel) ∧
        manifestOf env m = .ok manifest) ∧
      (((∀ t : LoaderState, t.tree = s'.tree → t.plugins.find? id = s'.plugins.find? id →
            ReloadSucceeds env id t) ∧
          FoundAgain env s'.tree manifest) ↔
        KeepsManifest env members manifest topLevel ∧ BootsWith env s'.tree id) := by
  obtain ⟨manifest, topLevel, rfl, hinstalled⟩ := of_installFromZip_ok hinstall
  have hfound := foundAgain_iff hrepeat hlisted hunshared hinstalled.directory hinstalled.loads
  have hread : readManifest env s'.tree (installDir env manifest.id) = .ok manifest ↔
      KeepsManifest env members manifest topLevel := readManifest_ok_iff hinstalled.content
  refine ⟨manifest, topLevel, rfl, hinstalled.found, ?_⟩
  rw [hfound, hread]
  constructor
  · rintro ⟨-, hkeeps, hboots⟩
    exact ⟨hkeeps, hboots⟩
  · rintro ⟨hkeeps, hboots⟩
    refine ⟨fun t htree hsame => ?_, hkeeps, hboots⟩
    obtain ⟨p, hp, hmanifest, hdirectory⟩ := hinstalled.present
    have hfind : t.plugins.find? manifest.id = some p := by
      rw [hsame, Table.find?_eq_some]
      exact ⟨hp, by rw [LoadedPlugin.id, hmanifest]⟩
    apply reloadSucceeds_of_read hrepeat hfind hdirectory
    · rw [htree]
      exact hread.mpr hkeeps
    · rw [htree]
      exact hinstalled.loads

/-! ### An archive with one file -/

def demoNames : List Chars := ["demo".toList, "etc".toList, "plugins".toList]

/-- One plugin directory; every manifest is that of the demo plugin, and nothing fails. -/
def demoLoader : LoaderEnv where
  pluginDir := demoEnv.pluginDir
  builtinDir := demoEnv.pluginDir
  repr := demoEnv.repr
  fault _ := none
  iterdir tree loc := demoNames.filter fun name => (tree.node (name :: loc)).isSome
  fromJson bytes := if bytes = [1] then .ok demoManifest else .error (.decode "")
  fromYaml bytes := if bytes = [1] then .ok demoManifest else .error (.decode "")
  load _ _ _ _ := ⟨[], false, false, none⟩
  teardown _ := []
  app := false
  includeRouter _ := none

theorem demoLoader_repeatable : Repeatable demoLoader := fun _ _ _ _ _ => rfl

/-- The loader after the installation of an archive with one member. -/
def demoInstalled (name : String) : LoaderState :=
  (installFromZip demoLoader (.ok [textMember name]) (restarted twoDirectories)).2

theorem unshared_of_listed {name : String}
    (honly : demoLoader.iterdir (demoInstalled name).tree ["plugins".toList] = ["demo".toList]) :
    Unshared demoLoader (demoInstalled name).tree "demo".toList := by
  intro root hroot entry hentry hne
  have hplugins : root = ["plugins".toList] := List.mem_singleton.mp hroot
  rw [hplugins] at hentry hne
  rw [honly] at hentry
  rw [List.mem_singleton.mp hentry] at hne
  exact absurd (by decide +kernel) hne

theorem stays_installed_iff_json :
    ∃ manifest topLevel, manifest.id = "demo".toList ∧
      (((∀ t : LoaderState, t.tree = (demoInstalled "demo/manifest.json").tree →
            t.plugins.find? "demo".toList =
              (demoInstalled "demo/manifest.json").plugins.find? "demo".toList →
            ReloadSucceeds demoLoader "demo".toList t) ∧
          FoundAgain demoLoader (demoInstalled "demo/manifest.json").tree manifest) ↔
        KeepsManifest demoLoader [textMember "demo/manifest.json"] manifest topLevel ∧
          BootsWith demoLoader (demoInstalled "demo/manifest.json").tree "demo".toList) := by
  obtain ⟨manifest, topLevel, hid, -, hiff⟩ := stays_installed_iff demoLoader
    demoLoader_repeatable [textMember "demo/manifest.json"] "demo".toList
    (restarted twoDirectories) (demoInstalled "demo/manifest.json")
    (Call.run_of_outcome (by decide +kernel)) (by unfold Listed; decide +kernel)
    (unshared_of_listed (by decide +kernel))
  exact ⟨manifest, topLevel, hid, hiff⟩

/-- With `manifest.yaml` alone the plugin is installed, and not found again. -/
theorem yaml_plugin_not_found_again :
    ¬ ∀ (env : LoaderEnv) (members : List Member) (id : Chars) (s s' : LoaderState)
      (manifest : Manifest), Repeatable env →
      installFromZip env (.ok members) s = (.ok id, s') → Listed env s'.tree id →
      Unshared env s'.tree id →
      (∃ m topLevel, findManifestInZip (env.installEnv 0) members = .ok (m, topLevel) ∧
        manifestOf env m = .ok manifest) →
      ReloadSucceeds env id s' ∧ FoundAgain env s'.tree manifest := by
  intro hall
  obtain ⟨-, hfound⟩ := hall demoLoader [textMember "demo/manifest.yaml"] "demo".toList
    (restarted twoDirectories) (demoInstalled "demo/manifest.yaml") demoManifest
    demoLoader_repeatable (Call.run_of_outcome (by decide +kernel))
    (by unfold Listed; decide +kernel) (unshared_of_listed (by decide +kernel))
    ⟨textMember "demo/manifest.yaml", "demo".toList, by decide +kernel, by rfl⟩
  have hread := ((foundAgain_iff (n := 0) demoLoader_repeatable (by unfold Listed; decide +kernel)
    (unshared_of_listed (by decide +kernel)) (by decide +kernel) rfl).mp hfound).1
  have hmissing : (demoInstalled "demo/manifest.yaml").tree.node
      (manifestName :: installDir demoLoader demoManifest.id) = none := by decide +kernel
  rw [readManifest, hmissing] at hread
  cases hread

end PluginPersistence
