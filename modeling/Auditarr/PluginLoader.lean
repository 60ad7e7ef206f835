/-
  Auditarr/PluginLoader.lean
  ==========================
  **The plugin loader over its lifetime** (`app/plugins/loader.py`): discovery at the
  start, reloading, installing and uninstalling, with the registry into which the code
  of a plugin puts its providers (`app/core/registry.py`).

  A provider carries the number of the load that registered it, so that one can tell
  the providers of a plugin that was loaded again from those of its earlier load.  What
  the code of a plugin does is the environment's.
-/
import Auditarr.KeyedTable
import Auditarr.PluginInstall
import Auditarr.TopoSort

namespace PluginLoader

open Effects FileTree PosixPath KeyedTable PluginInstall

/-! ### The registry -/

/-- A provider object, with the load whose code made it. -/
structure Provider where
  load : Nat
  name : String
deriving DecidableEq, Repr

/-- `_capabilities`, without the keys that have no providers. -/
abbrev Registry := String → List Provider

/-- `register_capability`. -/
def registerCapability (registry : Registry) (entry : String × Provider) : Registry :=
  Function.update registry entry.1 (registry entry.1 ++ [entry.2])

def registerAll (registry : Registry) (entries : List (String × Provider)) : Registry :=
  entries.foldl registerCapability registry

/-- `providers_for`. -/
def providersFor (registry : Registry) (capability : String) : List Provider := registry capability

/-- `IntegrationManager.provider_for`. -/
def providerFor (registry : Registry) (kind : String) : Option Provider :=
  (providersFor registry ("integration." ++ kind)).head?

/-- The calls by which the code of a plugin registers a provider. -/
inductive RegisterCall where
  | registerCapability (capability name : String)
  | registerIntegration (kind name : String)
  | registerNotificationChannel (name : String)
deriving DecidableEq, Repr

/-- What a call of the plugin's context registers; `none` where it raises instead. -/
def RegisterCall.entry (manifest : Manifest) (load : Nat) :
    RegisterCall → Option (String × Provider)
  | .registerCapability capability name =>
      if capability ∈ manifest.capabilities then some (capability, ⟨load, name⟩) else none
  | .registerIntegration kind name =>
      if kind.toList = manifest.id then some ("integration." ++ kind, ⟨load, name⟩) else none
  | .registerNotificationChannel name => some ("notifications.channel", ⟨load, name⟩)

/-! ### The loader -/

/-- A load of a plugin: the calls its code makes, whether `register` returned an
    instance, whether `on_load` failed, and the exception the load ended in. -/
structure LoadRun where
  calls : List RegisterCall
  hasInstance : Bool
  lifecycleFailed : Bool
  raised : Option InstallError

structure LoadedPlugin where
  manifest : Manifest
  directory : Loc Chars
  load : Nat
  hasInstance : Bool
  lifecycleFailed : Bool
  /-- What its code registered while it was loaded. -/
  registered : List (String × Provider)

def LoadedPlugin.id (p : LoadedPlugin) : Chars := p.manifest.id

structure FailedLoad where
  pluginId : Chars
  manifest : Option Manifest
  directory : Loc Chars

structure LoaderState where
  tree : Tree Chars Bytes
  touched : List (Loc Chars)
  bytesWritten : Nat
  calls : Nat
  /-- Loads so far. -/
  loads : Nat
  plugins : Table LoadedPlugin.id
  failedLoads : Table FailedLoad.pluginId
  registry : Registry

/-- The exceptions of reading a manifest. -/
inductive ManifestError where
  /-- `JSONDecodeError`. -/
  | decode (text : String)
  /-- `ValidationError`. -/
  | invalid (text : String)
  | other (text : String)
deriving DecidableEq

/-- The settings, the operating system and the code of the plugins. -/
structure LoaderEnv where
  pluginDir : PluginDir
  builtinDir : PluginDir
  /-- `repr` of a string. -/
  repr : Chars → String
  /-- The `OSError` that the so-many-th creation or write raises. -/
  fault : Nat → Option String
  /-- `sorted(root.iterdir())`, the names alone. -/
  iterdir : Tree Chars Bytes → Loc Chars → List Chars
  /-- `json.loads` of a text in UTF-8, validated. -/
  fromJson : Bytes → Except ManifestError Manifest
  /-- `yaml.safe_load` of a text in UTF-8, validated. -/
  fromYaml : Bytes → Except ManifestError Manifest
  /-- `_load_one`, for the so-many-th load. -/
  load : Nat → Manifest → Loc Chars → Tree Chars Bytes → LoadRun
  /-- The calls of `on_shutdown` and `on_unload`. -/
  teardown : LoadedPlugin → List RegisterCall
  /-- An application was passed to mount the routes on. -/
  app : Bool
  includeRouter : Manifest → Option InstallError

abbrev LoaderCall := Call LoaderState InstallError

/-- What the installation sees of the loader. -/
def LoaderState.host (s : LoaderState) : Host where
  tree := s.tree
  touched := s.touched
  bytesWritten := s.bytesWritten
  calls := s.calls
  plugins := s.plugins.rows.map LoadedPlugin.id
  failedLoads := s.failedLoads.rows.map FailedLoad.pluginId

def LoaderState.withDisk (s : LoaderState) (h : Host) : LoaderState :=
  { s with tree := h.tree, touched := h.touched, bytesWritten := h.bytesWritten, calls := h.calls }

/-- A call that changes files only. -/
def onDisk {α : Type} (c : Loader α) : LoaderCall α := fun s =>
  ((c s.host).1, s.withDisk (c s.host).2)

section Operations

variable (env : LoaderEnv)

/-- What some calls of a plugin's code register. -/
def entriesOf (manifest : Manifest) (load : Nat) (calls : List RegisterCall) :
    List (String × Provider) :=
  calls.filterMap (RegisterCall.entry manifest load)

/-- `_load_one`. -/
def loadOne (manifest : Manifest) (directory : Loc Chars) : LoaderCall LoadedPlugin := fun s =>
  let run := env.load s.loads manifest directory s.tree
  let registered := entriesOf manifest s.loads run.calls
  let s' := { s with loads := s.loads + 1, registry := registerAll s.registry registered }
  match run.raised with
  | some exc => (.error exc, s')
  | none => (.ok ⟨manifest, directory, s.loads, run.hasInstance, run.lifecycleFailed, registered⟩, s')

/-- `self._plugins[manifest.id] = loaded`, and the failure of an earlier attempt
    forgotten. -/
def keep (loaded : LoadedPlugin) : LoaderCall Unit :=
  Call.modify fun s => { s with
    plugins := s.plugins.upsert loaded
    failedLoads := s.failedLoads.erase (·.pluginId = loaded.id) }

def recordFailure (failed : FailedLoad) : LoaderCall Unit :=
  Call.modify fun s => { s with failedLoads := s.failedLoads.upsert failed }

/-- The routes of a plugin that has some are mounted on the application. -/
def mountRoutes (manifest : Manifest) : LoaderCall Unit :=
  match (if env.app && manifest.routes then env.includeRouter manifest else none) with
  | some exc => Call.raise exc
  | none => pure ()

/-- `except Exception: record; go on`. -/
def recorded (failed : FailedLoad) (exc : InstallError) : LoaderCall Unit :=
  if exc.isException then recordFailure failed else Call.raise exc

/-! ### Discovery -/

def manifestName : Chars := "manifest.json".toList

/-- `PluginManifest.model_validate(json.loads(manifest_path.read_text()))`. -/
def readManifest (tree : Tree Chars Bytes) (directory : Loc Chars) :
    Except ManifestError Manifest :=
  match tree.node (manifestName :: directory) with
  | none => .error (.other "[Errno 2] No such file or directory")
  | some .dir => .error (.other "[Errno 21] Is a directory")
  | some (.file bytes) => env.fromJson bytes

/-- `child.name.startswith((".", "_"))`. -/
def isHidden (name : Chars) : Bool := name.head?.any fun c => c = '.' || c = '_'

/-- One entry of a plugin directory: skipped, found, or an exception that ends the
    discovery. -/
def discoverChild (tree : Tree Chars Bytes) (root : Loc Chars) (name : Chars) :
    Except InstallError (Option (Manifest × Loc Chars)) :=
  if tree.node (name :: root) ≠ some .dir ∨ isHidden name = true then .ok none
  else if tree.node (manifestName :: name :: root) = none then .ok none
  else match readManifest env tree (name :: root) with
    | .ok manifest => .ok (some (manifest, name :: root))
    | .error (.other text) => .error (.other text)
    | .error _ => .ok none

/-- Go through a list, the found items in order. -/
def gather {α β : Type} (find : α → Except InstallError (List β)) :
    List α → Except InstallError (List β)
  | [] => .ok []
  | a :: rest => do
      let here ← find a
      let others ← gather find rest
      return here ++ others

/-- `_discover_manifests`, nothing for a directory that is not there. -/
def discoverManifests (tree : Tree Chars Bytes) (root : Loc Chars) :
    Except InstallError (List (Manifest × Loc Chars)) :=
  match tree.node root with
  | none => .ok []
  | some (.file _) => .error notADirectory
  | some .dir => gather (fun name => (discoverChild env tree root name).map Option.toList)
      (env.iterdir tree root)

/-- `plugin_directories`. -/
def pluginDirectories : List (Loc Chars) :=
  if env.builtinDir.path = env.pluginDir.path then [env.builtinDir.path.locate]
  else [env.builtinDir.path.locate, env.pluginDir.path.locate]

local instance lawfulBEqChars : LawfulBEq Chars :=
  inferInstance

/-- The first plugin of each id. -/
def firstOfId : List Chars → List (Manifest × Loc Chars) → List (Manifest × Loc Chars)
  | _, [] => []
  | seenIds, item :: rest =>
      if item.1.id ∈ seenIds then firstOfId seenIds rest
      else item :: firstOfId (item.1.id :: seenIds) rest

/-- `by_id`. -/
def byId (items : List (Manifest × Loc Chars)) (id : Chars) : Option (Manifest × Loc Chars) :=
  items.find? (·.1.id = id)

/-- The ids a discovered plugin requires. -/
def requiresOf (items : List (Manifest × Loc Chars)) (id : Chars) : Option (List Chars) :=
  (byId items id).map (·.1.requires)

/-- `_topo_sort`. -/
def topoSort (items : List (Manifest × Loc Chars)) : List (Manifest × Loc Chars) :=
  (TopoSort.topoSort (requiresOf items) (items.map (·.1.id))).filterMap (byId items)

/-- The loop of `discover_and_load`: an exception is recorded, and the next plugin is
    loaded. -/
def loadDiscovered (item : Manifest × Loc Chars) : LoaderCall Unit :=
  Call.attempt (do
      let loaded ← loadOne env item.1 item.2
      keep loaded
      mountRoutes env item.1)
    (recorded ⟨item.1.id, some item.1, item.2⟩)

/-- `discover_and_load`. -/
def discoverAndLoad : LoaderCall Unit := do
  let tree ← Call.read LoaderState.tree
  match gather (discoverManifests env tree) (pluginDirectories env) with
  | .error exc => Call.raise exc
  | .ok found => Call.forEach (loadDiscovered env) (topoSort (firstOfId [] found))

/-! ### Reloading and uninstalling -/

/-- `on_shutdown` and `on_unload` of an instance; after a failure they are skipped. -/
def tearDown (loaded : LoadedPlugin) : LoaderCall Unit :=
  if loaded.hasInstance && !loaded.lifecycleFailed then
    Call.modify fun s => { s with
      registry := registerAll s.registry
        (entriesOf loaded.manifest loaded.load (env.teardown loaded)) }
  else pure ()

/-- `self._plugins.pop(plugin_id, None)`. -/
def popPlugin (pluginId : Chars) : LoaderCall Unit :=
  Call.modify fun s => { s with plugins := s.plugins.erase (·.id = pluginId) }

def popFailed (pluginId : Chars) : LoaderCall Unit :=
  Call.modify fun s => { s with failedLoads := s.failedLoads.erase (·.pluginId = pluginId) }

/-- `_reload_one_locked` from the directory of the plugin on. -/
def reloadFrom (pluginId : Chars) (directory : Loc Chars) : LoaderCall Unit := do
  let tree ← Call.read LoaderState.tree
  match readManifest env tree directory with
  | .error _ => recordFailure ⟨pluginId, none, directory⟩
  | .ok manifest =>
      Call.attempt (do
          let loaded ← loadOne env manifest directory
          keep loaded)
        (recorded ⟨pluginId, some manifest, directory⟩)

/-- `_reload_one_locked`. -/
def reloadOne (pluginId : Chars) : LoaderCall Unit := fun s =>
  match s.plugins.find? pluginId, s.failedLoads.find? pluginId with
  | some existing, _ => (do
      tearDown env existing
      popPlugin pluginId
      reloadFrom env pluginId existing.directory) s
  | none, some failed => (do
      popPlugin pluginId
      reloadFrom env pluginId failed.directory) s
  | none, none => (.ok (), s)

/-- `uninstall`. -/
def uninstall (pluginId : Chars) : LoaderCall Unit := fun s =>
  match s.plugins.find? pluginId, s.failedLoads.find? pluginId with
  | some loaded, _ => (do
      tearDown env loaded
      popPlugin pluginId
      popFailed pluginId
      onDisk (rmtree loaded.directory)) s
  | none, some failed => (do
      popPlugin pluginId
      popFailed pluginId
      onDisk (rmtree failed.directory)) s
  | none, none => (.error (.other ("Plugin " ++ env.repr pluginId ++ " is not installed")), s)

/-! ### Installing -/

/-- The bytes of a member. -/
def contentOf (m : Member) : Bytes := (m.chunks.takeWhile (· ≠ [])).flatten

/-- `zf.read(name)`. -/
def zfRead (m : Member) : Except InstallError Bytes :=
  match m.openError, m.readError with
  | some text, _ => .error (.other text)
  | none, some text => .error (.other text)
  | none, none => .ok (contentOf m)

/-- `_parse_manifest_bytes`, and the validation of what it returns. -/
def parseManifestBytes (raw : Bytes) (filename : Chars) : Except ManifestError Manifest :=
  if ".json".toList.isSuffixOf filename then env.fromJson raw else env.fromYaml raw

/-- The manifest of an archive. -/
def manifestOf (m : Member) : Except InstallError Manifest := do
  let raw ← zfRead m
  match parseManifestBytes env raw m.filename with
  | .ok manifest => return manifest
  | .error (.invalid text) => .error (.validation ("Plugin manifest is invalid: " ++ text))
  | .error (.decode text) => .error (.other text)
  | .error (.other text) => .error (.other text)

/-- The environment of the installation that makes the so-many-th load. -/
def LoaderEnv.installEnv (n : Nat) : PluginInstall.Env where
  pluginDir := env.pluginDir
  repr := env.repr
  fault := env.fault
  parseManifest := manifestOf env
  loadOne manifest tree :=
    (env.load n manifest (env.pluginDir.path.join manifest.id).locate tree).raised
  app := env.app
  includeRouter := env.includeRouter

/-- Where a plugin is installed. -/
def installDir (id : Chars) : Loc Chars := (env.pluginDir.path.join id).locate

/-- `_load_one`, with the removal of the directory when it raises. -/
def loadOrRollBack (manifest : Manifest) : LoaderCall LoadedPlugin :=
  Call.attempt (loadOne env manifest (installDir env manifest.id)) fun exc =>
    onDisk (rollBack (installDir env manifest.id) exc)

/-- `install_from_zip`; the upload is what `zipfile.ZipFile` makes of its bytes. -/
def installFromZip (upload : Except String (List Member)) : LoaderCall Chars :=
  match upload with
  | .error text => Call.raise (.validation ("Uploaded file is not a valid zip archive: " ++ text))
  | .ok members => do
      let found ← onDisk (orRaise (findManifestInZip (env.installEnv 0) members))
      let manifest ← onDisk (orRaise (manifestOf env found.1))
      onDisk (checkCollision (env.installEnv 0) manifest.id)
      onDisk (extractZipToPluginDir (env.installEnv 0) members manifest.id found.2)
      let loaded ← loadOrRollBack env manifest
      keep loaded
      mountRoutes env manifest
      pure manifest.id

end Operations

end PluginLoader
