/-
  Auditarr/PluginInstall.lean
  ===========================
  **Installing a plugin from a zip archive** (`app/plugins/loader.py`).

  An archive is the list of its members in order, each with the name as stored, the
  size the archive claims for it and what reading it yields: chunks of bytes and
  perhaps an error after them.  The plugin directory is part of a directory tree, and
  every location the loader creates or writes is kept, with the bytes it wrote.

  Parsing and validating the manifest, the plugin's own code and the mounting of its
  routes are the environment's, as is which calls of the file system fail beyond
  those that the tree makes impossible.
-/
import Auditarr.Effects
import Auditarr.FileTree
import Auditarr.PosixPath
import Mathlib.Algebra.GroupWithZero.Nat

namespace PluginInstall

open Effects FileTree PosixPath

abbrev Bytes := List UInt8

/-- `ZipInfo` with what reading the member yields. -/
structure Member where
  filename : Chars
  /-- `file_size`, as the archive claims it. -/
  fileSize : Nat
  /-- `zf.open(member)` raises. -/
  openError : Option String
  chunks : List Bytes
  /-- A read raises after the chunks. -/
  readError : Option String
deriving DecidableEq

/-- `member.is_dir()`. -/
def Member.isDir (m : Member) : Bool := decide (m.filename.getLast? = some '/')

/-- What an accepted id looks like: `re.match(r"^[a-z][a-z0-9-]{1,47}$", id)`, whose `$`
    also matches before a final newline. -/
def Slug (id : Chars) : Prop :=
  ∃ first rest, ('a' ≤ first ∧ first ≤ 'z') ∧
    (∀ c ∈ rest, ('a' ≤ c ∧ c ≤ 'z') ∨ ('0' ≤ c ∧ c ≤ '9') ∨ c = '-') ∧
    1 ≤ rest.length ∧ rest.length ≤ 47 ∧
    (id = first :: rest ∨ id = first :: rest ++ ['\n'])

inductive PluginType where
  | integration | notification | optimization | rule | widget | docs | generic
deriving DecidableEq, Repr

/-- `PluginManifest`. -/
structure Manifest where
  id : Chars
  name : String
  version : String
  type : PluginType := .generic
  description : String := ""
  author : String := ""
  backendEntry : String := "backend.py"
  frontendEntry : Option String := none
  routes : Bool := false
  navigation : Bool := false
  settings : Bool := false
  permissions : List String := []
  capabilities : List String := []
  requires : List Chars := []
  id_slug : Slug id

inductive InstallError where
  | validation (message : String)
  | conflict (message : String)
  | fileNotFound
  | osError (text : String)
  | other (text : String)
  /-- What `except Exception` does not catch. -/
  | base (text : String)
deriving DecidableEq

def InstallError.isOsError : InstallError → Bool
  | fileNotFound | osError _ => true
  | _ => false

def InstallError.isException : InstallError → Bool
  | base _ => false
  | _ => true

/-- The plugin directory of the settings, which is resolved when they are read. -/
structure PluginDir where
  path : PosixPath
  absolute : path.isAbsolute = true
  resolved : dotdot ∉ path.parts

structure Env where
  pluginDir : PluginDir
  /-- `repr` of a string. -/
  repr : Chars → String
  /-- The `OSError` that the so-many-th creation or write raises. -/
  fault : Nat → Option String
  /-- `zf.read`, `_parse_manifest_bytes` and the validation of the manifest. -/
  parseManifest : Member → Except InstallError Manifest
  /-- `_load_one`: the exception it ends in, if any. -/
  loadOne : Manifest → Tree Chars Bytes → Option InstallError
  /-- An application was passed to mount the routes on. -/
  app : Bool
  includeRouter : Manifest → Option InstallError

structure Host where
  tree : Tree Chars Bytes
  /-- Every location created or written. -/
  touched : List (Loc Chars)
  bytesWritten : Nat
  /-- Creations and writes tried so far. -/
  calls : Nat
  plugins : List Chars
  failedLoads : List Chars

abbrev Loader := Call Host InstallError

section Install

variable (env : Env)

/-! ### The file system -/

def notADirectory : InstallError := .osError "[Errno 20] Not a directory"
def isADirectory : InstallError := .osError "[Errno 21] Is a directory"
def fileExists : InstallError := .osError "[Errno 17] File exists"

/-- `os.mkdir(loc)`. -/
def osMkdir : Loc Chars → Loader Unit
  | [] => Call.raise fileExists
  | name :: up => fun h =>
      match hup : h.tree.node up with
      | none => (.error .fileNotFound, h)
      | some (.file _) => (.error notADirectory, h)
      | some .dir => match h.tree.node (name :: up) with
        | some _ => (.error fileExists, h)
        | none => match env.fault h.calls with
          | some text => (.error (.osError text), { h with calls := h.calls + 1 })
          | none => (.ok (), { h with
              tree := h.tree.addDir name up hup
              touched := h.touched ++ [name :: up]
              calls := h.calls + 1 })

/-- `path.is_dir()` in the handler of `Path.mkdir`. -/
def existOk (loc : Loc Chars) (exc : InstallError) : Loader Unit := fun h =>
  if exc.isOsError && decide (h.tree.node loc = some .dir) then (.ok (), h) else (.error exc, h)

/-- `path.mkdir(exist_ok=True)`. -/
def mkdirExistOk (loc : Loc Chars) : Loader Unit :=
  Call.attempt (osMkdir env loc) fun
    | .fileNotFound => Call.raise .fileNotFound
    | exc => existOk loc exc

/-- `path.mkdir(parents=True, exist_ok=True)`. -/
def mkdirs : Loc Chars → Loader Unit
  | [] => Call.attempt (osMkdir env []) (existOk [])
  | name :: up => Call.attempt (osMkdir env (name :: up)) fun
      | .fileNotFound => do
          mkdirs up
          mkdirExistOk env (name :: up)
      | exc => existOk (name :: up) exc

/-- `path.open("wb")`. -/
def openWrite : Loc Chars → Loader Unit
  | [] => Call.raise isADirectory
  | name :: up => fun h =>
      match hup : h.tree.node up with
      | none => (.error .fileNotFound, h)
      | some (.file _) => (.error notADirectory, h)
      | some .dir =>
          if hdir : h.tree.node (name :: up) = some .dir then (.error isADirectory, h)
          else match env.fault h.calls with
            | some text => (.error (.osError text), { h with calls := h.calls + 1 })
            | none => (.ok (), { h with
                tree := h.tree.putFile name up [] hup hdir
                touched := h.touched ++ [name :: up]
                calls := h.calls + 1 })

/-- `out.write(chunk)` to the file opened at the location. -/
def write (chunk : Bytes) : Loc Chars → Loader Unit
  | [] => Call.raise isADirectory
  | name :: up => fun h =>
      match hup : h.tree.node up with
      | some .dir =>
          match hfile : h.tree.node (name :: up) with
          | some (.file content) => match env.fault h.calls with
            | some text => (.error (.osError text), { h with calls := h.calls + 1 })
            | none => (.ok (), { h with
                tree := h.tree.putFile name up (content ++ chunk) hup (by simp [hfile])
                touched := h.touched ++ [name :: up]
                bytesWritten := h.bytesWritten + chunk.length
                calls := h.calls + 1 })
          | _ => (.error .fileNotFound, h)
      | _ => (.error .fileNotFound, h)

/-- `shutil.rmtree(path, ignore_errors=True)`. -/
def rmtree : Loc Chars → Loader Unit
  | [] => pure ()
  | name :: up => Call.modify fun h => { h with tree := h.tree.removeTree name up }

/-- `except Exception:` with the removal of the directory and `raise`. -/
def rollBack {α : Type} (target : Loc Chars) (exc : InstallError) : Loader α :=
  if exc.isException then do
    rmtree target
    Call.raise exc
  else Call.raise exc

/-! ### The manifest of the archive -/

/-- The check against members that leave their directory. -/
def unsafePath (m : Member) : Bool :=
  let normalized := (PosixPath.parse m.filename).render
  decide (dotdot ∈ splitSlash normalized) || decide (normalized.head? = some '/')

/-- `{m.filename.split("/", 1)[0] for m in members if "/" in m.filename}`. -/
def topLevels (members : List Member) : List Chars :=
  ((members.filter fun m => decide ('/' ∈ m.filename)).map fun m =>
    m.filename.takeWhile (· ≠ '/')).dedup

/-- `zf.getinfo(name)`: the last member of that name. -/
def getInfo (members : List Member) (name : Chars) : Option Member :=
  members.reverse.find? fun m => m.filename = name

/-- `", ".join(sorted(names))`. -/
def sortedJoin (names : List Chars) : String :=
  ", ".intercalate ((names.map String.ofList).mergeSort (fun a b => decide (a ≤ b)))

/-- `_find_manifest_in_zip`. -/
def findManifestInZip (members : List Member) : Except InstallError (Member × Chars) :=
  if members = [] then .error (.validation "Plugin zip is empty")
  else match members.find? unsafePath with
    | some m => .error (.validation ("Plugin zip contains an unsafe path: " ++ env.repr m.filename))
    | none => match topLevels members with
      | [] => .error (.validation ("Plugin zip must contain a top-level directory " ++
          "(found only loose files)"))
      | [topLevel] =>
          let candidates := ["manifest.yaml", "manifest.yml", "manifest.json"].filterMap fun name =>
            getInfo members (topLevel ++ '/' :: name.toList)
          match candidates with
          | info :: _ => .ok (info, topLevel)
          | [] => .error (.validation ("Plugin zip " ++ env.repr topLevel ++
              " has no manifest.yaml or manifest.json at its root"))
      | many => .error (.validation ("Plugin zip must contain exactly one top-level directory; " ++
          "found " ++ toString many.length ++ ": " ++ sortedJoin many))

/-! ### Extraction -/

/-- `MAX_EXTRACTED_BYTES`. -/
def maxExtractedBytes : Nat := 128 * 1024 * 1024

/-- `target_root / plugin_id`. -/
def targetPath (id : Chars) : PosixPath := env.pluginDir.path.join id

def targetLoc (id : Chars) : Loc Chars := (targetPath env id).locate

/-- The members of the wrapper directory, the entry of the directory itself left out. -/
def inWrapper (topLevel : Chars) (members : List Member) : List Member :=
  members.filter fun m =>
    (topLevel ++ ['/']).isPrefixOf m.filename && decide (m.filename ≠ topLevel ++ ['/'])

/-- `member.filename[len(prefix):]`. -/
def relative (topLevel : Chars) (m : Member) : Chars := m.filename.drop (topLevel.length + 1)

/-- `target / relative`. -/
def destOf (id topLevel : Chars) (m : Member) : PosixPath :=
  (targetPath env id).join (relative topLevel m)

/-- One round of the copy loop, with the running count. -/
def copyChunk (loc : Loc Chars) (bytesWritten : Nat) (chunk : Bytes) : Loader Nat :=
  if maxExtractedBytes < bytesWritten + chunk.length then
    Call.raise (.validation ("Plugin zip exceeds the 128 MiB expansion cap during extraction " ++
      "(the archive's claimed size was smaller — likely a zip bomb)."))
  else do
    write env chunk loc
    pure (bytesWritten + chunk.length)

/-- The copy loop of one member. -/
def copyChunks (loc : Loc Chars) (bytesWritten : Nat) (m : Member) : Loader Nat := do
  let count ← Call.foldEach (copyChunk env loc) bytesWritten (m.chunks.takeWhile (· ≠ []))
  match m.readError with
  | some text => Call.raise (.other text)
  | none => pure count

/-- `with zf.open(member) as src, dest.open("wb") as out`. -/
def copyMember (loc : Loc Chars) (bytesWritten : Nat) (m : Member) : Loader Nat :=
  match m.openError with
  | some text => Call.raise (.other text)
  | none => do
      openWrite env loc
      copyChunks env loc bytesWritten m

/-- The body of the extraction loop. -/
def extractMember (id topLevel : Chars) (bytesWritten : Nat) (m : Member) : Loader Nat :=
  let dest := destOf env id topLevel m
  if m.isDir then do
    mkdirs env dest.locate
    pure bytesWritten
  else do
    mkdirs env dest.parent.locate
    copyMember env dest.locate bytesWritten m

/-- `_extract_zip_to_plugin_dir` up to the creation of the directory. -/
def createTarget (members : List Member) (id topLevel : Chars) : Loader Unit := do
  mkdirs env env.pluginDir.path.locate
  let taken ← Call.read fun h => (h.tree.node (targetLoc env id)).isSome
  let claimed := ((members.filter fun m => (topLevel ++ ['/']).isPrefixOf m.filename).map
    Member.fileSize).sum
  if taken then
    Call.raise (.conflict ("Plugin directory already exists at " ++
      String.ofList (targetPath env id).render ++
      ". Remove it manually or uninstall the plugin if it's loaded."))
  else if maxExtractedBytes < claimed then
    Call.raise (.validation ("Plugin zip would expand to " ++ toString (claimed / (1024 * 1024)) ++
      " MiB (cap: 128 MiB). Auditarr plugins are typically a few MiB; this archive is almost " ++
      "certainly a zip bomb or a wrong upload."))
  else osMkdir env (targetLoc env id)

/-- `_extract_zip_to_plugin_dir`. -/
def extractZipToPluginDir (members : List Member) (id topLevel : Chars) : Loader Unit := do
  createTarget env members id topLevel
  Call.attempt (do
      let _ ← Call.foldEach (extractMember env id topLevel) 0 (inWrapper topLevel members)
      pure ())
    (rollBack (targetLoc env id))

/-! ### The installation -/

/-- The value, or the exception raised. -/
def orRaise {α : Type} : Except InstallError α → Loader α
  | .ok a => pure a
  | .error exc => Call.raise exc

/-- The two checks against an id in use. -/
def checkCollision (id : Chars) : Loader Unit := fun h =>
  if id ∈ h.plugins then
    (.error (.conflict ("A plugin with id " ++ env.repr id ++ " is already installed. " ++
      "Uninstall it first, or use reload to swap files in place.")), h)
  else if id ∈ h.failedLoads then
    (.error (.conflict ("A plugin with id " ++ env.repr id ++ " previously failed to load. " ++
      "Uninstall it first (the uninstall endpoint accepts failed-load plugins).")), h)
  else (.ok (), h)

/-- `_load_one`, with the removal of the directory when it raises. -/
def loadOrRollBack (manifest : Manifest) : Loader Unit := do
  let raised ← Call.read fun h => env.loadOne manifest h.tree
  match raised with
  | some exc => rollBack (targetLoc env manifest.id) exc
  | none => pure ()

/-- `install_from_zip` from the registration of the loaded plugin on. -/
def registerPlugin (manifest : Manifest) : Loader Chars := do
  Call.modify fun h => { h with
    plugins := h.plugins ++ [manifest.id], failedLoads := h.failedLoads.erase manifest.id }
  match (if env.app && manifest.routes then env.includeRouter manifest else none) with
  | some exc => Call.raise exc
  | none => pure manifest.id

/-- `install_from_zip`; the upload is what `zipfile.ZipFile` makes of its bytes. -/
def installFromZip (upload : Except String (List Member)) : Loader Chars :=
  match upload with
  | .error text => Call.raise (.validation ("Uploaded file is not a valid zip archive: " ++ text))
  | .ok members => do
      let found ← orRaise (findManifestInZip env members)
      let manifest ← orRaise (env.parseManifest found.1)
      checkCollision env manifest.id
      extractZipToPluginDir env members manifest.id found.2
      loadOrRollBack env manifest
      registerPlugin env manifest

end Install

end PluginInstall
