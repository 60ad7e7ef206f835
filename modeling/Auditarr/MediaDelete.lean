/-
  Auditarr/MediaDelete.lean
  =========================
  **Deletions by an operator** (`app/services/media_delete_service.py`).

  The files of one deletion go to one new directory of the trash, each to its path relative
  to its library.  Files of different libraries can have the same one, and the path of one
  can be that of a directory another one needs: `shutil.move` replaces a file, and moves
  into a directory.
-/
import Auditarr.FileTree
import Auditarr.PosixPath

namespace MediaDelete

open FileTree PosixPath

variable {β : Type}

/-- A media row, as far as a deletion reads it.  The paths are those of a file below the root
    of a library. -/
structure MediaRow where
  id : String
  path : Chars
  relativePath : Chars
  relative : relativePath.head? ≠ some '/'
  inside : dotdot ∉ segments relativePath
  named : segments relativePath ≠ []
  filename : (parse path).name ≠ dotdot

/-- `DeleteResult`. -/
structure DeleteResult where
  mediaId : String
  path : Chars
  removedFromDisk : Bool
  trashPath : Option Chars
deriving DecidableEq

/-- The data directory of the settings, which is resolved when they are read. -/
structure DataDir where
  path : PosixPath
  absolute : path.isAbsolute = true
  resolved : dotdot ∉ path.parts

structure Env where
  dataDir : DataDir
  /-- `strftime("%Y-%m-%d")`. -/
  today : Chars
  /-- `str(uuid.uuid4())`. -/
  uuid : Chars
  /-- What raises while the bucket is made. -/
  bucketFault : Option String
  /-- What raises while a row is deleted: the file system, the audit, a handler of the event
      or the session. -/
  fault : MediaRow → Option String

section Delete

variable (env : Env)

def Env.bucket : PosixPath := ((env.dataDir.path.join "trash".toList).join env.today).join env.uuid

def notADirectory : String := "[Errno 20] Not a directory"

/-- `_allocate_bucket_dir`. -/
def allocateBucketDir (t : Tree Chars β) : Except String (PosixPath × Tree Chars β) :=
  match env.bucketFault, t.mkdirs env.bucket.locate with
  | some text, _ => .error text
  | none, none => .error notADirectory
  | none, some made => .ok (env.bucket, made.1)

/-- `os.path.isdir(path)`. -/
def isDir (t : Tree Chars β) (loc : Loc Chars) : Bool :=
  match t.node loc with
  | some .dir => true
  | _ => false

theorem isDir_iff {t : Tree Chars β} {loc : Loc Chars} : isDir t loc = true ↔ t.node loc = some .dir := by
  unfold isDir
  split
  · rename_i hdir
    exact iff_of_true rfl hdir
  · rename_i hother
    exact iff_of_false Bool.false_ne_true fun hdir => hother hdir

/-- `os.rename(src, dst)`, or the copy in its place; a directory does not replace a file. -/
def rename (src dst : Loc Chars) (t : Tree Chars β) : Except String (Tree Chars β) :=
  if hout : src <:+ dst then
    if src = dst then .ok t else .error "Cannot move a directory into itself"
  else match dst with
    | [] => .error "[Errno 17] File exists"
    | name :: loc => match hparent : t.node loc with
      | some .dir =>
          if isDir t src && (t.node (name :: loc)).isSome then .error "[Errno 17] File exists"
          else .ok (t.moveTree src name loc (fun h => hout (h ▸ List.nil_suffix)) hparent hout)
      | _ => .error notADirectory

/-- `shutil.move(src, dst)`. -/
def shutilMove (src dst : PosixPath) (t : Tree Chars β) : Except String (Tree Chars β) :=
  if isDir t dst.locate then
    if src.locate = dst.locate then .ok t
    else
      let into := (dst.join src.name).locate
      if (t.node into).isSome then .error "Destination path already exists"
      else rename src.locate into t
  else rename src.locate dst.locate t

/-- `bucket / (record.relative_path or src.name)`. -/
def destination (bucket : PosixPath) (row : MediaRow) : PosixPath :=
  bucket.join (if row.relativePath = [] then (parse row.path).name else row.relativePath)

/-- The part of `_delete_record` that moves the file: where it went, if it was there. -/
def moveToTrash (bucketDir : Option PosixPath) (row : MediaRow) (t : Tree Chars β) :
    Except String (Option PosixPath × Tree Chars β) := do
  let (bucket, t) ← match bucketDir with
    | some bucket => Except.ok (bucket, t)
    | none => allocateBucketDir env t
  let src := parse row.path
  if (t.node src.locate).isNone then return (none, t)
  else
    let dst := destination bucket row
    match t.mkdirs dst.parent.locate with
    | none => .error notADirectory
    | some made => do
        let moved ← shutilMove src dst made.1
        return (some dst, moved)

/-- `_delete_record`: what is returned, and the files. -/
def deleteRecord (removeFromDisk : Bool) (bucketDir : Option PosixPath) (row : MediaRow) (t : Tree Chars β) :
    Except String (DeleteResult × Tree Chars β) :=
  match env.fault row with
  | some text => .error text
  | none => do
      let (trashPath, t') ← if removeFromDisk then moveToTrash env bucketDir row t else .ok (none, t)
      return ({ mediaId := row.id
                path := row.path
                removedFromDisk := trashPath.isSome
                trashPath := trashPath.map render }, t')

/-- The loop of `bulk_delete`. -/
def deleteRecords (removeFromDisk : Bool) (bucketDir : Option PosixPath) :
    List MediaRow → Tree Chars β → Except String (List DeleteResult × Tree Chars β)
  | [], t => .ok ([], t)
  | row :: rest, t => do
      let (result, t) ← deleteRecord env removeFromDisk bucketDir row t
      let (results, t) ← deleteRecords removeFromDisk bucketDir rest t
      return (result :: results, t)

/-- `bulk_delete` of the rows that are found; an id that is not known is skipped. -/
def bulkDelete (removeFromDisk : Bool) (rows : List MediaRow) (t : Tree Chars β) :
    Except String (List DeleteResult × Tree Chars β) :=
  if removeFromDisk then do
    let (bucket, t) ← allocateBucketDir env t
    deleteRecords env true (some bucket) rows t
  else deleteRecords env false none rows t

end Delete

end MediaDelete
