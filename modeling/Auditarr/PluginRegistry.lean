/-
  Auditarr/PluginRegistry.lean
  ============================
  **What the registry resolves while plugins come and go.**

  Loading a plugin lets its code put providers into the registry.  Nothing takes them
  out again: neither unloading, nor reloading, nor uninstalling, nor a load that raises.
  So the registry has exactly the providers of the loaded plugins as long as no plugin
  that has some is unloaded or replaced, and no load raises after it registered one.
-/
import Auditarr.PluginPersistence
import Auditarr.Runs

namespace PluginRegistry

open Effects FileTree PosixPath KeyedTable PluginLoader PluginPersistence
open PluginInstall hiding installFromZip loadOrRollBack
open PluginContainment (demoManifest textMember)

/-! ### Resolution -/

/-- The capability lookup has exactly the providers of the loaded plugins, and these are
    of the loads the plugins are from. -/
structure Resolves (s : LoaderState) : Prop where
  lookup : ∀ capability p, p ∈ providersFor s.registry capability ↔
    ∃ l ∈ s.plugins, (capability, p) ∈ l.registered
  current : ∀ l ∈ s.plugins, ∀ entry ∈ l.registered, entry.2.load = l.load

theorem load_of_mem_entriesOf {manifest : Manifest} {n : Nat} {calls : List RegisterCall}
    {entry : String × Provider} (h : entry ∈ entriesOf manifest n calls) : entry.2.load = n := by
  obtain ⟨call, -, hentry⟩ := List.mem_filterMap.mp h
  cases call with
  | registerCapability capability name =>
    rw [RegisterCall.entry, Option.ite_none_right_eq_some] at hentry
    obtain ⟨-, ⟨⟩⟩ := hentry
    rfl
  | registerIntegration kind name =>
    rw [RegisterCall.entry, Option.ite_none_right_eq_some] at hentry
    obtain ⟨-, ⟨⟩⟩ := hentry
    rfl
  | registerNotificationChannel name =>
    cases hentry
    rfl

theorem mem_registerAll {registry : Registry} {entries : List (String × Provider)}
    {capability : String} {p : Provider} :
    p ∈ registerAll registry entries capability ↔
      p ∈ registry capability ∨ (capability, p) ∈ entries := by
  induction entries generalizing registry with
  | nil => simp [registerAll]
  | cons entry rest ih =>
    have hstep : registerAll registry (entry :: rest) =
        registerAll (registerCapability registry entry) rest := rfl
    rw [hstep, ih, registerCapability]
    by_cases hsame : capability = entry.1
    · subst hsame
      simp [or_assoc, Prod.ext_iff]
    · rw [Function.update_of_ne hsame]
      simp [Prod.ext_iff, hsame]

theorem Resolves.of_providerFor {s : LoaderState} (hresolves : Resolves s) {kind : String}
    {p : Provider} (h : providerFor s.registry kind = some p) :
    ∃ l ∈ s.plugins, ("integration." ++ kind, p) ∈ l.registered ∧ p.load = l.load := by
  obtain ⟨l, hl, hentry⟩ := (hresolves.lookup _ p).mp (List.mem_of_head? h)
  exact ⟨l, hl, hentry, hresolves.current l hl _ hentry⟩

theorem Resolves.of_providerFor_none {s : LoaderState} (hresolves : Resolves s) {kind : String}
    (h : providerFor s.registry kind = none) :
    ∀ l ∈ s.plugins, ∀ p, ("integration." ++ kind, p) ∉ l.registered := by
  intro l hl p hp
  have hmem := (hresolves.lookup _ p).mpr ⟨l, hl, hp⟩
  rw [List.head?_eq_none_iff.mp h] at hmem
  cases hmem

/-! ### Steps that lose no provider -/

section Steps

variable (env : LoaderEnv)

/-- What the code of a plugin registers in the so-many-th load. -/
def registers (n : Nat) (manifest : Manifest) (directory : Loc Chars) (tree : Tree Chars Bytes) :
    List (String × Provider) :=
  entriesOf manifest n (env.load n manifest directory tree).calls

/-- No loaded plugin with the id has registered a provider. -/
def NoneOf (plugins : Table LoadedPlugin.id) (id : Chars) : Prop :=
  ∀ l ∈ plugins, l.id = id → l.registered = []

/-- A load that raises has registered nothing, and one that returns takes the place of
    no plugin that has providers. -/
def CleanLoad (n : Nat) (tree : Tree Chars Bytes) (plugins : Table LoadedPlugin.id)
    (manifest : Manifest) (directory : Loc Chars) : Prop :=
  match (env.load n manifest directory tree).raised with
  | some _ => registers env n manifest directory tree = []
  | none => NoneOf plugins manifest.id

/-- The load ends in an exception that the discovery lets through. -/
def Escapes (n : Nat) (tree : Tree Chars Bytes) (item : Manifest × Loc Chars) : Prop :=
  ∃ exc, exc.isException = false ∧
    ((env.load n item.1 item.2 tree).raised = some exc ∨
      ((env.load n item.1 item.2 tree).raised = none ∧
        (if env.app && item.1.routes then env.includeRouter item.1 else none) = some exc))

/-- The same for the loads of a discovery, up to one whose exception is let through. -/
def CleanLoads (tree : Tree Chars Bytes) (plugins : Table LoadedPlugin.id) :
    Nat → List (Manifest × Loc Chars) → Prop
  | _, [] => True
  | n, item :: rest =>
      CleanLoad env n tree plugins item.1 item.2 ∧
        (¬Escapes env n tree item → CleanLoads tree plugins (n + 1) rest)

/-- The plugin has registered nothing, and registers nothing when it is shut down. -/
def CleanTearDown (l : LoadedPlugin) : Prop :=
  l.registered = [] ∧ ((l.hasInstance && !l.lifecycleFailed) = true →
    entriesOf l.manifest l.load (env.teardown l) = [])

/-- Reading the manifest again and loading it loses no provider. -/
def CleanReload (s : LoaderState) (pluginId : Chars) (directory : Loc Chars) : Prop :=
  ∀ manifest, readManifest env s.tree directory = .ok manifest →
    CleanLoad env s.loads s.tree (s.plugins.erase (·.id = pluginId)) manifest directory

/-- An installation that gets as far as the load. -/
structure Extracted (members : List Member) (s : LoaderState) (manifest : Manifest)
    (tree : Tree Chars Bytes) : Prop where
  free : manifest.id ∉ s.host.plugins
  found : ∃ m topLevel, findManifestInZip (env.installEnv 0) members = .ok (m, topLevel) ∧
    manifestOf env m = .ok manifest ∧
    ∃ h, extractZipToPluginDir (env.installEnv 0) members manifest.id topLevel s.host = (.ok (), h) ∧
      h.tree = tree

/-- What is done to the loader: its four operations, and changes to the files by others. -/
inductive LoaderOp where
  | discoverAndLoad
  | installFromZip (upload : Except String (List Member))
  | reloadOne (pluginId : Chars)
  | uninstall (pluginId : Chars)
  | edit (tree : Tree Chars Bytes)

/-- The operation, whether it returns or raises. -/
def LoaderOp.run : LoaderOp → LoaderState → LoaderState
  | .discoverAndLoad, s => (PluginLoader.discoverAndLoad env s).2
  | .installFromZip upload, s => (PluginLoader.installFromZip env upload s).2
  | .reloadOne pluginId, s => (PluginLoader.reloadOne env pluginId s).2
  | .uninstall pluginId, s => (PluginLoader.uninstall env pluginId s).2
  | .edit tree, s => { s with tree := tree }

/-- The operation unloads and replaces no plugin that has providers, and no load that
    raises has registered one. -/
def Clean (s : LoaderState) : LoaderOp → Prop
  | .discoverAndLoad => ∀ found, discovered env s.tree = .ok found →
      CleanLoads env s.tree s.plugins s.loads (PluginLoader.topoSort (firstOfId [] found))
  | .installFromZip upload => ∀ members, upload = .ok members → ∀ manifest tree,
      Extracted env members s manifest tree →
        CleanLoad env s.loads tree s.plugins manifest (installDir env manifest.id)
  | .reloadOne pluginId => match s.plugins.find? pluginId, s.failedLoads.find? pluginId with
    | some l, _ => CleanTearDown env l ∧ CleanReload env s pluginId l.directory
    | none, some failed => CleanReload env s pluginId failed.directory
    | none, none => True
  | .uninstall pluginId => ∀ l, s.plugins.find? pluginId = some l → CleanTearDown env l
  | .edit _ => True

end Steps

/-! ### What a load does to the registry -/

section Loads

variable {env : LoaderEnv}

/-- Nothing of what the loader knows of its plugins changes, but the failures on record. -/
structure SameLoads (s s' : LoaderState) : Prop where
  loads : s'.loads = s.loads
  tree : s'.tree = s.tree
  registry : s'.registry = s.registry
  plugins : s'.plugins = s.plugins

/-- A load has been attempted, and the plugin kept if it returned. -/
structure Attempted (env : LoaderEnv) (manifest : Manifest) (directory : Loc Chars)
    (s s' : LoaderState) : Prop where
  loads : s'.loads = s.loads + 1
  tree : s'.tree = s.tree
  registry : s'.registry = registerAll s.registry (registers env s.loads manifest directory s.tree)
  raised : (env.load s.loads manifest directory s.tree).raised ≠ none → s'.plugins = s.plugins
  returned : (env.load s.loads manifest directory s.tree).raised = none →
    ∃ l : LoadedPlugin, l.id = manifest.id ∧ l.load = s.loads ∧
      l.registered = registers env s.loads manifest directory s.tree ∧
      s'.plugins = s.plugins.upsert l

theorem Attempted.same {manifest : Manifest} {directory : Loc Chars} {s s' s'' : LoaderState}
    (h : Attempted env manifest directory s s') (hsame : SameLoads s' s'') :
    Attempted env manifest directory s s'' := by
  constructor
  · rw [hsame.loads, h.loads]
  · rw [hsame.tree, h.tree]
  · rw [hsame.registry, h.registry]
  · intro hraised
    rw [hsame.plugins, h.raised hraised]
  · intro hreturned
    obtain ⟨l, hid, hload, hregistered, hplugins⟩ := h.returned hreturned
    exact ⟨l, hid, hload, hregistered, hsame.plugins.trans hplugins⟩

variable (env) in
theorem attempted_load (manifest : Manifest) (directory : Loc Chars) (s : LoaderState) :
    Attempted env manifest directory s
      ((loadOne env manifest directory >>= keep : LoaderCall Unit) s).2 := by
  rcases hload : loadOne env manifest directory s with ⟨exc | loaded, s₁⟩
  · rw [Call.run_bind_error hload]
    unfold loadOne at hload
    dsimp only at hload
    split at hload
    · rename_i hraised
      cases hload
      exact ⟨rfl, rfl, rfl, fun _ => rfl, fun hnone => by simp [hraised] at hnone⟩
    · cases hload
  · obtain ⟨hraised, hmanifest, -, hnumber, hregistered, rfl⟩ := of_loadOne_ok hload
    rw [Call.run_bind_ok hload]
    refine ⟨rfl, rfl, rfl, fun hsome => absurd hraised hsome, fun _ => ?_⟩
    exact ⟨loaded, by rw [LoadedPlugin.id, hmanifest], hnumber, hregistered, rfl⟩

theorem sameLoads_recorded (failed : FailedLoad) (exc : InstallError) (s : LoaderState) :
    SameLoads s (recorded failed exc s).2 := by
  unfold recorded
  split <;> exact ⟨rfl, rfl, rfl, rfl⟩

variable (env) in
theorem sameLoads_mountRoutes (manifest : Manifest) (s : LoaderState) :
    SameLoads s (mountRoutes env manifest s).2 := by
  unfold mountRoutes
  cases (if env.app && manifest.routes then env.includeRouter manifest else none) with
  | none => exact ⟨rfl, rfl, rfl, rfl⟩
  | some exc => exact ⟨rfl, rfl, rfl, rfl⟩

theorem resolves_upsert {s s' : LoaderState} (hresolves : Resolves s) {l : LoadedPlugin}
    (hregistry : s'.registry = registerAll s.registry l.registered)
    (hplugins : s'.plugins = s.plugins.upsert l) (hnone : NoneOf s.plugins l.id)
    (hcurrent : ∀ entry ∈ l.registered, entry.2.load = l.load) : Resolves s' := by
  constructor
  · intro capability p
    rw [hregistry, hplugins]
    have hold := hresolves.lookup capability p
    constructor
    · intro hp
      rcases mem_registerAll.mp hp with hbefore | hnew
      · obtain ⟨other, hother, hentry⟩ := hold.mp hbefore
        refine ⟨other, Table.mem_upsert.mpr (.inr ⟨hother, fun hid => ?_⟩), hentry⟩
        rw [hnone other hother hid] at hentry
        cases hentry
      · exact ⟨l, Table.mem_upsert.mpr (.inl rfl), hnew⟩
    · rintro ⟨other, hother, hentry⟩
      rcases Table.mem_upsert.mp hother with rfl | ⟨hbefore, -⟩
      · exact mem_registerAll.mpr (.inr hentry)
      · exact mem_registerAll.mpr (.inl (hold.mpr ⟨other, hbefore, hentry⟩))
  · intro other hother
    rw [hplugins] at hother
    rcases Table.mem_upsert.mp hother with rfl | ⟨hbefore, -⟩
    · exact hcurrent
    · exact hresolves.current other hbefore

theorem Attempted.resolves {manifest : Manifest} {directory : Loc Chars} {s s' : LoaderState}
    (h : Attempted env manifest directory s s')
    (hclean : CleanLoad env s.loads s.tree s.plugins manifest directory)
    (hresolves : Resolves s) : Resolves s' := by
  unfold CleanLoad at hclean
  cases hraised : (env.load s.loads manifest directory s.tree).raised with
  | some exc =>
    rw [hraised] at hclean
    have hregistry := h.registry
    rw [show registers env s.loads manifest directory s.tree = [] from hclean] at hregistry
    have hplugins := h.raised (by simp [hraised])
    constructor
    · intro capability p
      rw [hregistry, hplugins]
      exact hresolves.lookup capability p
    · rw [hplugins]
      exact hresolves.current
  | none =>
    rw [hraised] at hclean
    obtain ⟨l, hid, hload, hregistered, hplugins⟩ := h.returned hraised
    apply resolves_upsert hresolves _ hplugins
    · rw [hid]
      exact hclean
    · intro entry hentry
      rw [hregistered] at hentry
      rw [hload]
      exact load_of_mem_entriesOf hentry
    · rw [hregistered, h.registry]

theorem resolves_erase {s s' : LoaderState} (hresolves : Resolves s) {pluginId : Chars}
    (hnone : NoneOf s.plugins pluginId) (hregistry : s'.registry = s.registry)
    (hplugins : s'.plugins = s.plugins.erase (·.id = pluginId)) : Resolves s' := by
  constructor
  · intro capability p
    rw [hregistry, hplugins, hresolves.lookup capability p]
    constructor
    · rintro ⟨l, hl, hentry⟩
      refine ⟨l, Table.mem_erase.mpr ⟨hl, ?_⟩, hentry⟩
      rw [decide_eq_false_iff_not]
      intro hid
      rw [hnone l hl hid] at hentry
      cases hentry
    · rintro ⟨l, hl, hentry⟩
      exact ⟨l, (Table.mem_erase.mp hl).1, hentry⟩
  · intro l hl
    rw [hplugins] at hl
    exact hresolves.current l (Table.mem_erase.mp hl).1

theorem run_tearDown_clean {l : LoadedPlugin} (hclean : CleanTearDown env l) (s : LoaderState) :
    tearDown env l s = (.ok (), s) := by
  unfold tearDown
  split
  · rename_i hruns
    rw [hclean.2 hruns]
    rfl
  · rfl

theorem noneOf_of_find? {s : LoaderState} {pluginId : Chars} {l : LoadedPlugin}
    (hfind : s.plugins.find? pluginId = some l) (hnone : l.registered = []) :
    NoneOf s.plugins pluginId := by
  intro other hother hid
  obtain ⟨hl, hlid⟩ := Table.mem_of_find? hfind
  rw [Table.eq_of_key_eq hother hl (hid.trans hlid.symm)]
  exact hnone

/-! ### One operation -/

variable (env) in
theorem attempted_loadDiscovered (item : Manifest × Loc Chars) (s : LoaderState) :
    Attempted env item.1 item.2 s (loadDiscovered env item s).2 := by
  have hload := attempted_load env item.1 item.2 s
  unfold loadDiscovered
  rw [Call.run_attempt, ← Call.bind_assoc, Call.run_bind]
  rcases hkept : (loadOne env item.1 item.2 >>= keep : LoaderCall Unit) s with ⟨exc | ⟨⟨⟩⟩, s₁⟩
  · rw [hkept] at hload
    exact hload.same (sameLoads_recorded _ exc s₁)
  · rw [hkept] at hload
    dsimp only
    have hmount := sameLoads_mountRoutes env item.1 s₁
    rcases hrouter : mountRoutes env item.1 s₁ with ⟨exc | ⟨⟨⟩⟩, s₂⟩
    · rw [hrouter] at hmount
      exact (hload.same hmount).same (sameLoads_recorded _ exc s₂)
    · rw [hrouter] at hmount
      exact hload.same hmount

theorem not_escapes {item : Manifest × Loc Chars} {s s' : LoaderState}
    (h : loadDiscovered env item s = (.ok (), s')) : ¬Escapes env s.loads s.tree item := by
  rintro ⟨exc, hbase, hends⟩
  have hraises : ∀ (failed : FailedLoad) (t : LoaderState), recorded failed exc t = (.error exc, t) := by
    intro failed t
    rw [recorded, hbase]
    rfl
  unfold loadDiscovered at h
  rw [Call.run_attempt] at h
  rcases hends with hraised | ⟨hreturned, hrouter⟩
  · obtain ⟨s₁, hload, -, -⟩ := loadOne_raises hraised
    rw [Call.run_bind_error hload] at h
    dsimp only at h
    rw [hraises] at h
    cases h
  · obtain ⟨loaded, s₁, hload, -⟩ := loadOne_returns hreturned
    rcases hkept : (keep loaded : LoaderCall Unit) s₁ with ⟨exc' | ⟨⟨⟩⟩, s₂⟩
    · cases hkept
    · rw [Call.run_bind_ok hload, Call.run_bind_ok hkept] at h
      simp only [mountRoutes, hrouter, Call.run_raise, hraises] at h
      cases h

theorem resolves_loads {plugins : Table LoadedPlugin.id} {rest : List (Manifest × Loc Chars)}
    (hdistinct : (rest.map (·.1.id)).Nodup) {s : LoaderState}
    (hclean : CleanLoads env s.tree plugins s.loads rest)
    (hsame : ∀ l ∈ s.plugins, l.id ∈ rest.map (·.1.id) → l ∈ plugins)
    (hresolves : Resolves s) :
    Resolves (Call.forEach (loadDiscovered env) rest s).2 := by
  induction rest generalizing s with
  | nil => exact hresolves
  | cons item rest ih =>
    obtain ⟨hitem, hrest⟩ := hclean
    obtain ⟨hfresh, hothers⟩ := List.nodup_cons.mp hdistinct
    have hattempted := attempted_loadDiscovered env item s
    have hcleanItem : CleanLoad env s.loads s.tree s.plugins item.1 item.2 := by
      unfold CleanLoad at hitem ⊢
      cases hraised : (env.load s.loads item.1 item.2 s.tree).raised with
      | some exc => rw [hraised] at hitem; exact hitem
      | none =>
        rw [hraised] at hitem
        intro l hl hid
        exact hitem l (hsame l hl (by simp [hid])) hid
    have hresolves' := hattempted.resolves hcleanItem hresolves
    rw [Call.forEach, Call.andThen_eq_bind, Call.run_bind]
    rcases hrun : loadDiscovered env item s with ⟨exc | ⟨⟨⟩⟩, s₁⟩
    · rw [hrun] at hresolves'
      exact hresolves'
    · rw [hrun] at hresolves' hattempted
      apply ih hothers
      · rw [hattempted.tree, hattempted.loads]
        exact hrest (not_escapes hrun)
      · -- what has just been loaded does not come up again
        intro l hl hid
        cases hraised : (env.load s.loads item.1 item.2 s.tree).raised with
        | some exc =>
          rw [hattempted.raised (by simp [hraised])] at hl
          exact hsame l hl (List.mem_cons_of_mem _ hid)
        | none =>
          obtain ⟨loaded, hloaded, -, -, hplugins⟩ := hattempted.returned hraised
          rw [hplugins] at hl
          rcases Table.mem_upsert.mp hl with rfl | ⟨hbefore, -⟩
          · rw [hloaded] at hid
            exact absurd hid hfresh
          · exact hsame l hbefore (List.mem_cons_of_mem _ hid)
      · exact hresolves'

theorem map_filterMap_sublist {α β : Type} {f : α → Option β} {g : β → α}
    (hfinds : ∀ a b, f a = some b → g b = a) (l : List α) : ((l.filterMap f).map g).Sublist l := by
  induction l with
  | nil => exact List.Sublist.refl _
  | cons a rest ih =>
    cases hfound : f a with
    | none =>
      rw [List.filterMap_cons_none hfound]
      exact ih.cons a
    | some b =>
      rw [List.filterMap_cons_some hfound, List.map_cons, hfinds a b hfound]
      exact ih.cons_cons a

theorem nodup_ids_topoSort {items : List (Manifest × Loc Chars)}
    (hunique : (items.map (·.1.id)).Nodup) :
    ((PluginLoader.topoSort items).map (·.1.id)).Nodup := by
  apply List.Nodup.sublist (map_filterMap_sublist _ _) (TopoSort.nodup_topoSort requiresOf_known)
  intro id item hby
  exact ((byId_eq_some hunique).mp hby).2

theorem resolves_discoverAndLoad {s : LoaderState} (hclean : Clean env s .discoverAndLoad)
    (hresolves : Resolves s) : Resolves (discoverAndLoad env s).2 := by
  unfold discoverAndLoad
  rw [Call.run_bind_ok (Call.run_read _ _)]
  cases hfound : discovered env s.tree with
  | error exc =>
    rw [show gather (discoverManifests env s.tree) (pluginDirectories env) = .error exc from hfound]
    exact hresolves
  | ok found =>
    rw [show gather (discoverManifests env s.tree) (pluginDirectories env) = .ok found from hfound]
    exact resolves_loads (nodup_ids_topoSort (nodup_firstOfId [] found)) (hclean found hfound) (fun _ hl _ => hl) hresolves

theorem resolves_reloadFrom {s : LoaderState} {pluginId : Chars} {directory : Loc Chars}
    (hclean : ∀ manifest, readManifest env s.tree directory = .ok manifest →
      CleanLoad env s.loads s.tree s.plugins manifest directory)
    (hresolves : Resolves s) : Resolves (reloadFrom env pluginId directory s).2 := by
  unfold reloadFrom
  rw [Call.run_bind_ok (Call.run_read _ _)]
  cases hread : readManifest env s.tree directory with
  | error e => exact ⟨hresolves.lookup, hresolves.current⟩
  | ok manifest =>
    have hload := attempted_load env manifest directory s
    dsimp only
    rw [Call.run_attempt]
    rcases hkept : (loadOne env manifest directory >>= keep : LoaderCall Unit) s with
      ⟨exc | ⟨⟨⟩⟩, s₁⟩
    · rw [hkept] at hload
      exact (hload.same (sameLoads_recorded _ exc s₁)).resolves (hclean manifest hread) hresolves
    · rw [hkept] at hload
      exact hload.resolves (hclean manifest hread) hresolves

theorem resolves_reloadOne {s : LoaderState} {pluginId : Chars}
    (hclean : Clean env s (.reloadOne pluginId)) (hresolves : Resolves s) :
    Resolves (reloadOne env pluginId s).2 := by
  have hfrom : ∀ directory, NoneOf s.plugins pluginId → CleanReload env s pluginId directory →
      Resolves ((popPlugin pluginId >>= fun _ => reloadFrom env pluginId directory) s).2 := by
    intro directory hnone hreload
    have hpop : popPlugin pluginId s =
        (.ok (), { s with plugins := s.plugins.erase (·.id = pluginId) }) := rfl
    rw [Call.run_bind_ok hpop]
    apply resolves_reloadFrom
    · exact hreload
    · exact resolves_erase hresolves hnone rfl rfl
  unfold reloadOne
  cases hfind : s.plugins.find? pluginId with
  | some l =>
    simp only [Clean, hfind] at hclean
    dsimp only
    rw [Call.run_bind_ok (run_tearDown_clean hclean.1 s)]
    exact hfrom l.directory (noneOf_of_find? hfind hclean.1.1) hclean.2
  | none =>
    cases hfailed : s.failedLoads.find? pluginId with
    | none => exact hresolves
    | some failed =>
      simp only [Clean, hfind, hfailed] at hclean
      apply hfrom failed.directory _ hclean
      intro l hl hid
      exact absurd hid (Table.find?_eq_none.mp hfind l hl)

theorem resolves_uninstall {s : LoaderState} {pluginId : Chars}
    (hclean : Clean env s (.uninstall pluginId)) (hresolves : Resolves s) :
    Resolves (uninstall env pluginId s).2 := by
  have hremoved : ∀ directory, NoneOf s.plugins pluginId →
      Resolves ((do
        popPlugin pluginId
        popFailed pluginId
        onDisk (rmtree directory) : LoaderCall Unit) s).2 := by
    intro directory hnone
    exact resolves_erase hresolves hnone rfl rfl
  unfold uninstall
  cases hfind : s.plugins.find? pluginId with
  | some l =>
    have hl := hclean l hfind
    dsimp only
    rw [Call.run_bind_ok (run_tearDown_clean hl s)]
    exact hremoved l.directory (noneOf_of_find? hfind hl.1)
  | none =>
    cases hfailed : s.failedLoads.find? pluginId with
    | none => exact hresolves
    | some failed =>
      apply hremoved failed.directory
      intro l hl hid
      exact absurd hid (Table.find?_eq_none.mp hfind l hl)

theorem resolves_onDisk {α β : Type} {c : Loader α} {k : α → LoaderCall β} {s : LoaderState}
    (hresolves : Resolves s)
    (hrest : ∀ a s', onDisk c s = (.ok a, s') → Resolves s' → Resolves (k a s').2) :
    Resolves ((onDisk c >>= k) s).2 := by
  have hmid : Resolves (onDisk c s).2 := ⟨hresolves.lookup, hresolves.current⟩
  rw [Call.run_bind]
  rcases hrun : onDisk c s with ⟨exc | a, s'⟩
  · rw [hrun] at hmid
    exact hmid
  · rw [hrun] at hmid
    exact hrest a s' hrun hmid

theorem of_checkCollision_ok {env : PluginInstall.Env} {id : Chars} {h h' : Host}
    (hrun : checkCollision env id h = (.ok (), h')) : id ∉ h.plugins ∧ h' = h := by
  unfold checkCollision at hrun
  split at hrun
  · cases hrun
  · split at hrun
    · cases hrun
    · rename_i hfree _
      cases hrun
      exact ⟨hfree, rfl⟩

theorem resolves_loadInstalled {s : LoaderState} {manifest : Manifest}
    (hclean : CleanLoad env s.loads s.tree s.plugins manifest (installDir env manifest.id))
    (hresolves : Resolves s) :
    Resolves ((do
      let loaded ← loadOrRollBack env manifest
      keep loaded
      mountRoutes env manifest
      pure manifest.id : LoaderCall Chars) s).2 := by
  have hload := attempted_load env manifest (installDir env manifest.id) s
  rcases hone : loadOne env manifest (installDir env manifest.id) s with ⟨exc | loaded, s₁⟩
  · rw [Call.run_bind_error hone] at hload
    have hresolves₁ := hload.resolves hclean hresolves
    have hrolled : loadOrRollBack env manifest s =
        onDisk (rollBack (installDir env manifest.id) exc) s₁ := by
      rw [loadOrRollBack, Call.run_attempt, hone]
    rw [Call.run_bind, hrolled]
    have hraises := rollBack_raises (α := LoadedPlugin) (installDir env manifest.id) exc s₁.host
    rw [Call.run_of_outcome (show (onDisk (rollBack (installDir env manifest.id) exc) s₁).1 =
      (.error exc : Except InstallError LoadedPlugin) from hraises)]
    exact ⟨hresolves₁.lookup, hresolves₁.current⟩
  · rw [Call.run_bind_ok hone] at hload
    have hkept : loadOrRollBack env manifest s = (.ok loaded, s₁) := by
      rw [loadOrRollBack, Call.run_attempt, hone]
    rw [Call.run_bind_ok hkept]
    rcases hkeep : (keep loaded : LoaderCall Unit) s₁ with ⟨exc | ⟨⟨⟩⟩, s₂⟩
    · cases hkeep
    · rw [hkeep] at hload
      rw [Call.run_bind_ok hkeep]
      have hmount := sameLoads_mountRoutes env manifest s₂
      rcases hrouter : mountRoutes env manifest s₂ with ⟨exc | ⟨⟨⟩⟩, s₃⟩
      · rw [hrouter] at hmount
        rw [Call.run_bind_error hrouter]
        exact (hload.same hmount).resolves hclean hresolves
      · rw [hrouter] at hmount
        rw [Call.run_bind_ok hrouter]
        exact (hload.same hmount).resolves hclean hresolves

theorem resolves_installFromZip {s : LoaderState} {upload : Except String (List Member)}
    (hclean : Clean env s (.installFromZip upload)) (hresolves : Resolves s) :
    Resolves (installFromZip env upload s).2 := by
  cases upload with
  | error text => exact hresolves
  | ok members =>
    unfold installFromZip
    apply resolves_onDisk hresolves
    intro found s₁ hfound _
    obtain ⟨hfoundIn, rfl⟩ := of_orRaise_ok hfound
    apply resolves_onDisk hresolves
    intro manifest s₂ hmanifest _
    obtain ⟨hparsed, rfl⟩ := of_orRaise_ok hmanifest
    apply resolves_onDisk hresolves
    intro _ s₃ hcollision _
    obtain ⟨h₃, hfree, rfl⟩ := of_onDisk_ok hcollision
    obtain ⟨hidle, rfl⟩ := of_checkCollision_ok hfree
    apply resolves_onDisk hresolves
    intro _ s₄ hextract hresolves₄
    obtain ⟨h₄, hextracted, rfl⟩ := of_onDisk_ok hextract
    apply resolves_loadInstalled _ hresolves₄
    exact hclean members rfl manifest h₄.tree
      ⟨hidle, found.1, found.2, hfoundIn, hparsed, h₄, hextracted, rfl⟩

theorem resolves_run {s : LoaderState} {op : LoaderOp} (hclean : Clean env s op)
    (hresolves : Resolves s) : Resolves (op.run env s) := by
  cases op with
  | discoverAndLoad => exact resolves_discoverAndLoad hclean hresolves
  | installFromZip upload => exact resolves_installFromZip hclean hresolves
  | reloadOne pluginId => exact resolves_reloadOne hclean hresolves
  | uninstall pluginId => exact resolves_uninstall hclean hresolves
  | edit tree => exact ⟨hresolves.lookup, hresolves.current⟩

end Loads

theorem resolves_restarted (tree : Tree Chars Bytes) : Resolves (restarted tree) := by
  constructor
  · intro capability p
    constructor
    · intro hp
      cases hp
    · rintro ⟨l, hl, -⟩
      exact absurd hl (Table.not_mem_empty l)
  · intro l hl
    exact absurd hl (Table.not_mem_empty l)

/-! ### Runs of the loader -/

def step (env : LoaderEnv) (s : LoaderState) (op : LoaderOp) (s' : LoaderState) : Prop :=
  s' = op.run env s

/-- In a run whose steps unload and replace no plugin with providers, and in which no load
    raises after registering one, the lookups follow the loaded plugins. -/
theorem lookup_follows_loader (env : LoaderEnv) (tree : Tree Chars Bytes) (s : LoaderState)
    (hrun : Runs.Admitted (step env) (Clean env) (restarted tree) s) :
    (∀ capability p, p ∈ providersFor s.registry capability ↔
      ∃ l ∈ s.plugins, (capability, p) ∈ l.registered) ∧
    ∀ kind, (∀ p, providerFor s.registry kind = some p →
        ∃ l ∈ s.plugins, ("integration." ++ kind, p) ∈ l.registered ∧ p.load = l.load) ∧
      (providerFor s.registry kind = none →
        ∀ l ∈ s.plugins, ∀ p, ("integration." ++ kind, p) ∉ l.registered) := by
  have hresolves : Resolves s := by
    refine hrun.invariant (resolves_restarted tree) ?_
    intro s op s' hresolves hclean hstep
    rw [show s' = op.run env s from hstep]
    exact resolves_run hclean hresolves
  refine ⟨hresolves.lookup, fun kind => ⟨fun p hp => ?_, fun hnone => ?_⟩⟩
  · exact hresolves.of_providerFor hp
  · exact hresolves.of_providerFor_none hnone

/-- The demo plugin, whose code registers a provider for its integration. -/
def providingLoader : LoaderEnv :=
  { demoLoader with
    load := fun _ _ _ _ => ⟨[.registerIntegration "demo" "provider"], true, false, none⟩ }

/-- The files after the demo plugin was installed. -/
def demoTree : Tree Chars Bytes := (demoInstalled "demo/manifest.json").tree

/-- The loader after its start, and after a reload of the plugin it has. -/
def started : LoaderState := LoaderOp.discoverAndLoad.run providingLoader (restarted demoTree)

def reloaded : LoaderState := (LoaderOp.reloadOne "demo".toList).run providingLoader started

theorem cleanLoads_first {env : LoaderEnv}
    (hreturns : ∀ n manifest directory tree, (env.load n manifest directory tree).raised = none)
    (tree : Tree Chars Bytes) (n : Nat) (items : List (Manifest × Loc Chars)) :
    CleanLoads env tree .empty n items := by
  induction items generalizing n with
  | nil => trivial
  | cons item rest ih =>
    refine ⟨?_, fun _ => ih (n + 1)⟩
    rw [CleanLoad, hreturns]
    intro l hl
    exact absurd hl (Table.not_mem_empty l)

theorem clean_start {env : LoaderEnv}
    (hreturns : ∀ n manifest directory tree, (env.load n manifest directory tree).raised = none)
    (tree : Tree Chars Bytes) : Clean env (restarted tree) .discoverAndLoad := by
  intro found _
  exact cleanLoads_first hreturns tree 0 (PluginLoader.topoSort (firstOfId [] found))

/-- A plugin without providers. -/
def quietManifest : Manifest where
  id := "quiet".toList
  name := "Quiet"
  version := "1.0.0"
  id_slug := ⟨'q', "uiet".toList, by decide, by simp, by simp, by simp, .inl (by decide)⟩

/-- The code of the demo plugin registers a provider, that of the other does not. -/
def mixedLoader : LoaderEnv :=
  { demoLoader with
    fromJson := fun bytes =>
      if bytes = [1] then .ok demoManifest
      else if bytes = [2] then .ok quietManifest else .error (.decode "")
    load := fun _ manifest _ _ =>
      ⟨if manifest.id = "demo".toList then [.registerIntegration "demo" "provider"] else [], true,
        false, none⟩ }

def quietMember : Member := { textMember "quiet/manifest.json" with chunks := [[2]] }

/-- The loader after its start with the demo plugin, after the other is installed, and after
    that is reloaded. -/
@[irreducible]
def mixedStarted : LoaderState := LoaderOp.discoverAndLoad.run mixedLoader (restarted demoTree)

@[irreducible]
def quietInstalled : LoaderState :=
  (LoaderOp.installFromZip (.ok [quietMember])).run mixedLoader mixedStarted

@[irreducible]
def quietReloaded : LoaderState :=
  (LoaderOp.reloadOne "quiet".toList).run mixedLoader quietInstalled

theorem clean_reloadOne {env : LoaderEnv} {s : LoaderState} {pluginId : Chars}
    (directory : Loc Chars)
    (hreturns : ∀ n manifest directory tree, (env.load n manifest directory tree).raised = none)
    (hdown : ∀ l, env.teardown l = [])
    (hregistered : (s.plugins.find? pluginId).map (·.registered) = some [])
    (hdirectory : (s.plugins.find? pluginId).map (·.directory) = some directory)
    (hid : (readManifest env s.tree directory).toOption.map Manifest.id = some pluginId) :
    Clean env s (.reloadOne pluginId) := by
  obtain ⟨l, hfind, hl⟩ := Option.map_eq_some_iff.mp hregistered
  rw [hfind] at hdirectory
  obtain rfl : l.directory = directory := Option.some.inj hdirectory
  simp only [Clean, hfind]
  refine ⟨⟨hl, fun _ => by rw [hdown]; rfl⟩, fun manifest hread => ?_⟩
  rw [hread] at hid
  rw [CleanLoad, hreturns]
  intro other hother hsame
  exact absurd (hsame.trans (Option.some.inj hid))
    (of_decide_eq_false (Table.mem_erase.mp hother).2)

theorem clean_quietReload : Clean mixedLoader quietInstalled (.reloadOne "quiet".toList) :=
  clean_reloadOne (installDir mixedLoader "quiet".toList) (fun _ _ _ _ => rfl) (fun _ => rfl)
    (by decide +kernel) (by decide +kernel) (by decide +kernel)

theorem clean_quietInstall :
    Clean mixedLoader mixedStarted (.installFromZip (.ok [quietMember])) := by
  intro members hmembers manifest tree hextracted l hl hid
  exact absurd (List.mem_map.mpr ⟨l, hl, hid⟩) hextracted.free

theorem lookup_follows_loader_quietReloaded :
    (quietReloaded.plugins.find? "quiet".toList).map (·.load) = some 2 ∧
    (providerFor quietReloaded.registry "demo") = some ⟨0, "provider"⟩ ∧
    (∀ capability p, p ∈ providersFor quietReloaded.registry capability ↔
      ∃ l ∈ quietReloaded.plugins, (capability, p) ∈ l.registered) ∧
    ∀ kind, (∀ p, providerFor quietReloaded.registry kind = some p →
        ∃ l ∈ quietReloaded.plugins,
          ("integration." ++ kind, p) ∈ l.registered ∧ p.load = l.load) ∧
      (providerFor quietReloaded.registry kind = none →
        ∀ l ∈ quietReloaded.plugins, ∀ p, ("integration." ++ kind, p) ∉ l.registered) :=
  ⟨by decide +kernel, by decide +kernel,
    lookup_follows_loader mixedLoader demoTree quietReloaded
      (.next (.next (.next .start (clean_start (fun _ _ _ _ => rfl) demoTree)
        (by rw [step, mixedStarted]))
        clean_quietInstall (by rw [step, quietInstalled]))
        clean_quietReload (by rw [step, quietReloaded]))⟩

/-- After a reload the provider of the first load is still the one that is found. -/
theorem reload_keeps_old_provider :
    ¬ ∀ (env : LoaderEnv) (tree : Tree Chars Bytes) (s : LoaderState),
      Runs.Admitted (step env) (fun _ _ => True) (restarted tree) s →
      ∀ kind p, providerFor s.registry kind = some p →
        ∃ l ∈ s.plugins, ("integration." ++ kind, p) ∈ l.registered := by
  intro hall
  have hrun : Runs.Admitted (step providingLoader) (fun _ _ => True) (restarted demoTree)
      reloaded :=
    .next (i := .reloadOne "demo".toList) (.next (i := .discoverAndLoad) .start trivial rfl)
      trivial rfl
  have hold : providerFor reloaded.registry "demo" = some ⟨0, "provider"⟩ := by decide +kernel
  obtain ⟨l, hl, hentry⟩ := hall providingLoader demoTree reloaded hrun "demo" _ hold
  have hnew : ∀ l ∈ reloaded.plugins.rows,
      (("integration." ++ "demo", (⟨0, "provider"⟩ : Provider)) ∉ l.registered) := by
    decide +kernel
  exact hnew l hl hentry

end PluginRegistry
