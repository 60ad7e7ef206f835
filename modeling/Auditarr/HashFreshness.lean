/-
  Auditarr/HashFreshness.lean
  ===========================
  **When a stored hash is that of the file** (`app/services/file_hash.py`, `upsert_by_path` in
  `app/services/repositories/media.py`, `reprobe_one` in `app/services/media/scanner.py`).

  `should_rehash` compares the modification time that the last scan recorded, which is the file
  system's, with the time at which the hash was stored, which is the clock's.  The two say
  nothing of each other: a file may come with an earlier time than the one it replaces, and may
  change between the scan and the hash, or while it is hashed.
-/
import Auditarr.Runs
import Auditarr.ScanIndex
import Auditarr.WebhookReceiver

namespace HashFreshness

open Runs
open Database (MediaFile)
open Ffprobe (FfprobeResult)

abbrev Timestamp := Int

/-! ### Rows -/

/-- The libraries. -/
structure Env where
  /-- `datetime.fromtimestamp` of a modification time, none if it raises. -/
  fromTimestamp : Int → Option Timestamp
  /-- `hashlib.sha256(content).hexdigest()`. -/
  sha256 : List UInt8 → String
  columns : WebhookReceiver.WebhookEnv

structure Row where
  file : MediaFile
  mtime : Timestamp
  hashComputedAt : Option Timestamp

/-- A row that `_build_media_file` made. -/
structure Built where
  file : MediaFile
  unhashed : file.hashSha256 = none

/-- What `_build_media_file` returns is one. -/
def builtOf {scan : Scanner.ScanEnv} {libraryId runId : String} {disposition : Option Database.Disposition}
    {found : Scanner.Found} {result : Option FfprobeResult} {m : MediaFile}
    (h : Scanner.buildMediaFile scan libraryId runId disposition found result = .ok m) : Built where
  file := m
  unhashed := by
    have hcolumns := (ScanIndex.buildMediaFile_columns h).1
    simp only [ScanIndex.unprobedColumns, Prod.mk.injEq] at hcolumns
    exact hcolumns.2.2.2.2.2.1

section Operations

variable (env : Env)

/-- `should_rehash`. -/
def shouldRehash (row : Row) : Bool :=
  match row.file.hashSha256, row.hashComputedAt with
  | none, _ => true
  | some _, none => true
  | some _, some computedAt => decide (computedAt < row.mtime)

/-- `upsert_by_path`. -/
def upsertByPath (built : Built) (mtime : Timestamp) : Option Row → Row
  | none => { file := built.file, mtime := mtime, hashComputedAt := none }
  | some existing =>
      { file := Scanner.refreshed built.file existing.file
        mtime := mtime
        hashComputedAt := existing.hashComputedAt }

/-- `reprobe_one`; `present` says whether the path exists. -/
def reprobeOne (present : Bool) (result : FfprobeResult) (row : Row) : Row :=
  if present then match WebhookReceiver.withResult env.columns row.file result with
    | .ok file => { row with file := file }
    | .error _ => row
  else { row with file := { row.file with isOrphaned := true } }

/-- The hash of some bytes, and the time it is stored with. -/
def storeHash (bytes : List UInt8) (stamp : Timestamp) (row : Row) : Row :=
  { row with
    file := { row.file with hashSha256 := some (env.sha256 bytes) }
    hashComputedAt := some stamp }

end Operations

/-! ### Histories -/

/-- A file on disk. -/
structure Inode where
  content : List UInt8
  mtimeNs : Int

/-- What a scan found at the path and has not stored yet. -/
structure Seen where
  content : List UInt8
  mtimeNs : Int

/-- `_CHUNK_SIZE`. -/
def chunkSize : Nat := 1024 * 1024

/-- A running `_sha256_sync`: the file it has opened, and what it has read of it. -/
structure HashJob where
  inode : Nat
  read : List UInt8
  done : Bool

/-- One round of the loop of `_sha256_sync`. -/
def HashJob.readChunk (content : List UInt8) (job : HashJob) : HashJob :=
  if job.done then job
  else
    let chunk := (content.drop job.read.length).take chunkSize
    { job with read := job.read ++ chunk, done := chunk.isEmpty }

/-- The disk, the row of the path, and the scans and hashes under way.  `scanned` is the content
    that the path had when the recorded modification time was read, and `hashed` is what the stored
    hash was computed from. -/
structure World where
  inodes : Nat → Inode
  path : Option Nat
  row : Option Row
  seen : List Seen
  jobs : List HashJob
  scanned : List UInt8
  hashed : List UInt8

inductive Event where
  /-- A file is written, or given another modification time. -/
  | write (inode : Nat) (content : List UInt8) (mtimeNs : Int)
  /-- The path is given another file, or none. -/
  | name (inode : Option Nat)
  /-- The `stat` of a scan. -/
  | stat
  /-- A scan stores what it found. -/
  | upsert (index : Nat) (built : Built)
  | reprobe (result : FfprobeResult)
  | openFile
  | readChunk (index : Nat)
  /-- The hash of a job that has read all is stored, with a time that the writer chooses. -/
  | store (index : Nat) (stamp : Timestamp)

section Histories

variable (env : Env)

def next (w : World) : Event → World
  | .write inode content mtimeNs =>
      { w with
        inodes := fun n => if n = inode then { content := content, mtimeNs := mtimeNs } else w.inodes n }
  | .name inode => { w with path := inode }
  | .stat => match w.path with
    | none => w
    | some n =>
        { w with
          seen := w.seen ++ [{ content := (w.inodes n).content, mtimeNs := (w.inodes n).mtimeNs }] }
  | .upsert index built => match w.seen[index]? with
    | none => w
    | some found => match env.fromTimestamp found.mtimeNs with
      | none => { w with seen := w.seen.eraseIdx index }
      | some mtime =>
          { w with
            seen := w.seen.eraseIdx index
            row := some (upsertByPath built mtime w.row)
            scanned := found.content }
  | .reprobe result => { w with row := w.row.map (reprobeOne env w.path.isSome result) }
  | .openFile => match w.path with
    | none => w
    | some n => { w with jobs := w.jobs ++ [{ inode := n, read := [], done := false }] }
  | .readChunk index => match w.jobs[index]? with
    | none => w
    | some job => { w with jobs := w.jobs.set index (job.readChunk (w.inodes job.inode).content) }
  | .store index stamp => match w.jobs[index]?, w.row with
    | some job, some row =>
        if job.done then
          { w with
            jobs := w.jobs.eraseIdx index
            row := some (storeHash env job.read stamp row)
            hashed := job.read }
        else w
    | _, _ => w

/-- A disk of which nothing is known yet. -/
def World.start (inodes : Nat → Inode) (path : Option Nat) : World where
  inodes := inodes
  path := path
  row := none
  seen := []
  jobs := []
  scanned := []
  hashed := []

/-- Where a rehash is not asked for, the stored hash was computed from the content that the file
    had at the recorded modification time. -/
def Current (w : World) : Prop :=
  ∀ row, w.row = some row → shouldRehash row = false →
    row.file.hashSha256 = some (env.sha256 w.scanned) ∧ w.hashed = w.scanned

/-- A scan that records a modification time not later than the stored hash finds what was hashed;
    a hash that is stored with a time not before the recorded modification was computed from what
    the last scan found. -/
def Meets (w : World) : Event → Prop
  | .upsert index _ => ∀ found mtime row computedAt, w.seen[index]? = some found →
      env.fromTimestamp found.mtimeNs = some mtime → w.row = some row → row.file.hashSha256 ≠ none →
      row.hashComputedAt = some computedAt → mtime ≤ computedAt → found.content = w.hashed
  | .store index stamp => ∀ job row, w.jobs[index]? = some job → job.done = true → w.row = some row →
      row.mtime ≤ stamp → job.read = w.scanned
  | _ => True

end Histories

/-! ### What a step does to the row -/

section Steps

variable {env : Env} {w : World} {e : Event}

theorem shouldRehash_eq_false {row : Row} : shouldRehash row = false ↔ row.file.hashSha256 ≠ none ∧
    ∃ computedAt, row.hashComputedAt = some computedAt ∧ row.mtime ≤ computedAt := by
  unfold shouldRehash
  cases row.file.hashSha256 with
  | none => simp
  | some hash =>
    cases row.hashComputedAt with
    | none => simp
    | some computedAt => simp

theorem shouldRehash_upsertByPath {built : Built} {mtime : Timestamp} {existing : Option Row} :
    shouldRehash (upsertByPath built mtime existing) = false ↔ ∃ row, existing = some row ∧
      row.file.hashSha256 ≠ none ∧ ∃ computedAt, row.hashComputedAt = some computedAt ∧ mtime ≤ computedAt := by
  rw [shouldRehash_eq_false]
  cases existing with
  | none => simp [upsertByPath]
  | some row => simp [upsertByPath, Scanner.refreshed]

theorem shouldRehash_storeHash {bytes : List UInt8} {stamp : Timestamp} {row : Row} :
    shouldRehash (storeHash env bytes stamp row) = false ↔ row.mtime ≤ stamp := by
  simp [shouldRehash_eq_false, storeHash]

/-- The columns of the hash. -/
def hashColumns (row : Row) : Option String × Timestamp × Option Timestamp :=
  (row.file.hashSha256, row.mtime, row.hashComputedAt)

theorem shouldRehash_congr {row row' : Row} (h : hashColumns row = hashColumns row') :
    shouldRehash row' = shouldRehash row := by
  simp only [hashColumns, Prod.mk.injEq] at h
  simp only [shouldRehash, h]

theorem hash_withResult {file file' : MediaFile} {result : FfprobeResult}
    (h : WebhookReceiver.withResult env.columns file result = .ok file') :
    file'.hashSha256 = file.hashSha256 := by
  unfold WebhookReceiver.withResult at h
  split at h
  · obtain ⟨videoCodec, -, h⟩ := PyValues.bind_eq_ok.mp h
    obtain ⟨audioCodec, -, h⟩ := PyValues.bind_eq_ok.mp h
    obtain ⟨subtitleCodec, -, h⟩ := PyValues.bind_eq_ok.mp h
    cases h
    rfl
  · cases h
    rfl

theorem hashColumns_reprobeOne (present : Bool) (result : FfprobeResult) (row : Row) :
    hashColumns (reprobeOne env present result row) = hashColumns row := by
  cases present with
  | false => rfl
  | true =>
    rw [reprobeOne, if_pos rfl]
    cases hresult : WebhookReceiver.withResult env.columns row.file result with
    | error e => rfl
    | ok file => simp only [hashColumns, hash_withResult hresult]

/-- The row keeps the columns of the hash, and nothing is scanned or hashed. -/
structure Kept (w w' : World) : Prop where
  row : w'.row.map hashColumns = w.row.map hashColumns
  scanned : w'.scanned = w.scanned
  hashed : w'.hashed = w.hashed

/-- What a step does. -/
inductive Step (env : Env) (w : World) : Event → World → Prop where
  | kept {e : Event} {w' : World} (hkept : Kept w w') (hmeets : Meets env w e) : Step env w e w'
  | upserted {index : Nat} {built : Built} {found : Seen} {mtime : Timestamp} {w' : World}
      (hfound : w.seen[index]? = some found) (hmtime : env.fromTimestamp found.mtimeNs = some mtime)
      (hrow : w'.row = some (upsertByPath built mtime w.row)) (hscanned : w'.scanned = found.content)
      (hhashed : w'.hashed = w.hashed) : Step env w (.upsert index built) w'
  | stored {index : Nat} {stamp : Timestamp} {job : HashJob} {row : Row} {w' : World}
      (hjob : w.jobs[index]? = some job) (hdone : job.done = true) (hrow : w.row = some row)
      (hrow' : w'.row = some (storeHash env job.read stamp row)) (hscanned : w'.scanned = w.scanned)
      (hhashed : w'.hashed = job.read) : Step env w (.store index stamp) w'

theorem Kept.refl (w : World) : Kept w w := ⟨rfl, rfl, rfl⟩

theorem step_upsert (index : Nat) (built : Built) :
    Step env w (.upsert index built) (next env w (.upsert index built)) := by
  dsimp only [next]
  cases hfound : w.seen[index]? with
  | none =>
    refine .kept (.refl w) fun found _ _ _ hfound' => ?_
    rw [hfound] at hfound'
    cases hfound'
  | some found =>
    dsimp only
    cases hmtime : env.fromTimestamp found.mtimeNs with
    | none =>
      refine .kept ⟨rfl, rfl, rfl⟩ fun found' mtime _ _ hfound' hmtime' => ?_
      rw [hfound] at hfound'
      cases hfound'
      rw [hmtime] at hmtime'
      cases hmtime'
    | some mtime => exact .upserted hfound hmtime rfl rfl rfl

theorem step_store (index : Nat) (stamp : Timestamp) :
    Step env w (.store index stamp) (next env w (.store index stamp)) := by
  dsimp only [next]
  cases hjob : w.jobs[index]? with
  | none =>
    refine .kept (.refl w) fun job _ hjob' => ?_
    rw [hjob] at hjob'
    cases hjob'
  | some job =>
    cases hrow : w.row with
    | none =>
      refine .kept (.refl w) fun _ row _ _ hrow' => ?_
      rw [hrow] at hrow'
      cases hrow'
    | some row =>
      dsimp only
      split
      · rename_i hdone
        exact .stored hjob hdone hrow rfl rfl rfl
      · rename_i hdone
        refine .kept (.refl w) fun job' _ hjob' hdone' => ?_
        rw [hjob] at hjob'
        cases hjob'
        exact absurd hdone' hdone

theorem step_next (env : Env) (w : World) (e : Event) : Step env w e (next env w e) := by
  cases e with
  | write inode content mtimeNs => exact .kept ⟨rfl, rfl, rfl⟩ trivial
  | name inode => exact .kept ⟨rfl, rfl, rfl⟩ trivial
  | stat =>
    dsimp only [next]
    cases w.path with
    | none => exact .kept (.refl w) trivial
    | some n => exact .kept ⟨rfl, rfl, rfl⟩ trivial
  | upsert index built => exact step_upsert index built
  | reprobe result =>
    refine .kept ⟨?_, rfl, rfl⟩ trivial
    simp only [next, Option.map_map]
    congr 1
    funext row
    exact hashColumns_reprobeOne _ result row
  | openFile =>
    dsimp only [next]
    cases w.path with
    | none => exact .kept (.refl w) trivial
    | some n => exact .kept ⟨rfl, rfl, rfl⟩ trivial
  | readChunk index =>
    dsimp only [next]
    cases w.jobs[index]? with
    | none => exact .kept (.refl w) trivial
    | some job => exact .kept ⟨rfl, rfl, rfl⟩ trivial
  | store index stamp => exact step_store index stamp

/-! ### The law -/

/-- The stored hash is that of the bytes it was computed from. -/
def Digested (env : Env) (w : World) : Prop :=
  ∀ row, w.row = some row → ∀ hash, row.file.hashSha256 = some hash → hash = env.sha256 w.hashed

theorem Kept.row_eq {w' : World} {row' : Row} (h : Kept w w') (hrow' : w'.row = some row') :
    ∃ row, w.row = some row ∧ hashColumns row = hashColumns row' := by
  have hrow := h.row
  rw [hrow', Option.map_some, eq_comm, Option.map_eq_some_iff] at hrow
  exact hrow

theorem hash_upsertByPath {built : Built} {mtime : Timestamp} {existing : Option Row} {hash : String}
    (h : (upsertByPath built mtime existing).file.hashSha256 = some hash) :
    ∃ row, existing = some row ∧ row.file.hashSha256 = some hash := by
  cases existing with
  | none => exact absurd (built.unhashed.symm.trans h) (by simp)
  | some row => exact ⟨row, rfl, h⟩

theorem Digested.next (h : Digested env w) (e : Event) : Digested env (next env w e) := by
  have hstep := step_next env w e
  intro row' hrow' hash hhash
  cases hstep with
  | kept hkept hmeets =>
    obtain ⟨row, hrow, hcolumns⟩ := hkept.row_eq hrow'
    rw [hkept.hashed]
    exact h row hrow hash ((congrArg (·.1) hcolumns).trans hhash)
  | upserted hfound hmtime hrow hscanned hhashed =>
    rw [hrow] at hrow'
    cases hrow'
    obtain ⟨row, hrow, hhash⟩ := hash_upsertByPath hhash
    rw [hhashed]
    exact h row hrow hash hhash
  | stored hjob hdone hrow hstored hscanned hhashed =>
    rw [hstored] at hrow'
    cases hrow'
    rw [hhashed]
    exact (Option.some.inj hhash).symm

theorem current_iff (h : Digested env w) : Current env w ↔
    ∀ row, w.row = some row → shouldRehash row = false → w.hashed = w.scanned := by
  constructor
  · intro hcurrent row hrow hfalse
    exact (hcurrent row hrow hfalse).2
  · intro hsame row hrow hfalse
    obtain ⟨hash, hhash⟩ := Option.ne_none_iff_exists'.mp (shouldRehash_eq_false.mp hfalse).1
    have hscanned : w.hashed = w.scanned := hsame row hrow hfalse
    rw [hhash, h row hrow hash hhash, hscanned]
    exact ⟨rfl, rfl⟩

theorem current_next_iff (hdigested : Digested env w) (h : Current env w) (e : Event) :
    Current env (next env w e) ↔ Meets env w e := by
  rw [current_iff hdigested] at h
  rw [current_iff (hdigested.next e)]
  have hstep := step_next env w e
  generalize next env w e = w' at hstep
  cases hstep with
  | kept hkept hmeets =>
    refine iff_of_true (fun row' hrow' hfalse => ?_) hmeets
    obtain ⟨row, hrow, hcolumns⟩ := hkept.row_eq hrow'
    rw [shouldRehash_congr hcolumns] at hfalse
    rw [hkept.scanned, hkept.hashed]
    exact h row hrow hfalse
  | @upserted index built found mtime w' hfound hmtime hrow' hscanned hhashed =>
    rw [hrow', hscanned, hhashed]
    constructor
    · intro hsame found' mtime' row computedAt hfound' hmtime' hrow hhash hcomputed hle
      cases hfound.symm.trans hfound'
      cases hmtime.symm.trans hmtime'
      have hfalse : shouldRehash (upsertByPath built mtime w.row) = false :=
        shouldRehash_upsertByPath.mpr ⟨row, hrow, hhash, computedAt, hcomputed, hle⟩
      exact (hsame _ rfl hfalse).symm
    · rintro hmeets row' ⟨⟩ hfalse
      obtain ⟨row, hrow, hhash, computedAt, hcomputed, hle⟩ := shouldRehash_upsertByPath.mp hfalse
      exact (hmeets found mtime row computedAt hfound hmtime hrow hhash hcomputed hle).symm
  | @stored index stamp job row w' hjob hdone hrow hrow' hscanned hhashed =>
    rw [hrow', hscanned, hhashed]
    constructor
    · intro hsame job' row' hjob' hdone' hrow'' hle
      cases hjob.symm.trans hjob'
      cases hrow.symm.trans hrow''
      exact hsame _ rfl (shouldRehash_storeHash.mpr hle)
    · rintro hmeets row' ⟨⟩ hfalse
      exact hmeets job row hjob hdone hrow (shouldRehash_storeHash.mp hfalse)

end Steps

/-- Of a history, in every state that it reaches a rehash that is not asked for is not needed, iff
    every scan and every stored hash meets the condition. -/
theorem hash_current_iff (env : Env) (inodes : Nat → Inode) (path : Option Nat) (history : List Event) :
    (∀ w ∈ states (next env) (World.start inodes path) history, Current env w) ↔
      Throughout (next env) (Meets env) (World.start inodes path) history := by
  have hdigested : ∀ w ∈ states (next env) (World.start inodes path) history, Digested env w := by
    intro w hw
    obtain ⟨before, after, -, rfl⟩ := (mem_states (next env)).mp hw
    refine final_invariant (next env) (fun e _ w hw => hw.next e) ?_
    intro row hrow
    cases hrow
  have hstart : Digested env (World.start inodes path) ∧ Current env (World.start inodes path) := by
    constructor
    · intro row hrow
      cases hrow
    · intro row hrow
      cases hrow
  have hlaw := forall_states_iff (next env) (P := Meets env) (I := fun w => Digested env w ∧ Current env w)
    (fun w e hw => (and_iff_right (hw.1.next e)).trans (current_next_iff hw.1 hw.2 e)) hstart history
  rw [← hlaw]
  exact forall₂_congr fun w hw => (and_iff_right (hdigested w hw)).symm

/-- Two files, the second one older. -/
def releases (n : Nat) : Inode :=
  if n = 0 then { content := [1], mtimeNs := 60 } else { content := [2], mtimeNs := 40 }

/-- Times as they are, and a digest of the bytes in order. -/
def plainEnv : Env where
  fromTimestamp := some
  sha256 := fun bytes => String.ofList (bytes.map fun b => Char.ofNat b.toNat)
  columns := WebhookReceiver.sampleEnv

def builtMovie : Built := ⟨.unprobed "f1" "l1" "/media/a.mkv" "mkv", rfl⟩

/-- The first file is scanned and hashed; the second one takes its place, and is scanned. -/
def replacement : List Event :=
  [.stat, .upsert 0 builtMovie, .openFile, .readChunk 0, .readChunk 0, .store 0 100,
    .name (some 1), .stat, .upsert 0 builtMovie]

/-- The hash of a file that an older one replaced is taken for that of the older one. -/
theorem older_file_taken_as_hashed :
    ¬ ∀ w ∈ states (next plainEnv) (World.start releases (some 0)) replacement, Current plainEnv w := by
  intro h
  have hfinal := h _ ((mem_states (next plainEnv)).mpr ⟨replacement, [], by simp, rfl⟩) _ rfl rfl
  exact absurd hfinal.2 (by decide)

/-! ### A file whose bytes stay -/

section Unchanged

variable {env : Env} {content : List UInt8} {w : World}

/-- A file is written with the same bytes; its modification time may be any. -/
def Keeps (content : List UInt8) (_ : World) : Event → Prop
  | .write _ content' _ => content' = content
  | _ => True

/-- Every file has the bytes, and so has all that was read of one. -/
structure Unchanged (content : List UInt8) (w : World) : Prop where
  inodes : ∀ n, (w.inodes n).content = content
  seen : ∀ found ∈ w.seen, found.content = content
  jobs : ∀ job ∈ w.jobs, job.read <+: content ∧ (job.done = true → job.read = content)

/-- What is recorded of the file is of the bytes. -/
def Recorded (content : List UInt8) (w : World) : Prop :=
  ∀ row, w.row = some row → w.scanned = content ∧ (row.file.hashSha256 ≠ none → w.hashed = content)

theorem readChunk_reads {job : HashJob}
    (h : job.read <+: content ∧ (job.done = true → job.read = content)) :
    (job.readChunk content).read <+: content ∧
      ((job.readChunk content).done = true → (job.readChunk content).read = content) := by
  obtain ⟨⟨rest, rfl⟩, -⟩ := id h
  unfold HashJob.readChunk
  split
  · exact h
  · simp only [List.drop_left, List.isEmpty_iff]
    constructor
    · exact (List.prefix_append_right_inj job.read).mpr (List.take_prefix chunkSize rest)
    · intro hempty
      have hrest : rest = [] := by
        rcases List.take_eq_nil_iff.mp hempty with hsize | hrest
        · simp [chunkSize] at hsize
        · exact hrest
      simp [hrest]

theorem Unchanged.next (h : Unchanged content w) {e : Event} (hkeeps : Keeps content w e) :
    Unchanged content (next env w e) := by
  cases e with
  | write inode content' mtimeNs =>
    refine { h with inodes := fun n => ?_ }
    dsimp only [HashFreshness.next]
    split
    · exact hkeeps
    · exact h.inodes n
  | name inode => exact { h with }
  | stat =>
    dsimp only [HashFreshness.next]
    cases w.path with
    | none => exact h
    | some n =>
      refine { h with seen := fun found hfound => ?_ }
      rcases List.mem_append.mp hfound with hfound | hfound
      · exact h.seen found hfound
      · rw [List.mem_singleton.mp hfound]
        exact h.inodes n
  | upsert index built =>
    dsimp only [HashFreshness.next]
    cases w.seen[index]? with
    | none => exact h
    | some found =>
      have hseen : ∀ found' ∈ w.seen.eraseIdx index, found'.content = content := fun found' hfound' =>
        h.seen found' (List.mem_of_mem_eraseIdx hfound')
      dsimp only
      cases env.fromTimestamp found.mtimeNs with
      | none => exact { h with seen := hseen }
      | some mtime => exact { h with seen := hseen }
  | reprobe result => exact { h with }
  | openFile =>
    dsimp only [HashFreshness.next]
    cases w.path with
    | none => exact h
    | some n =>
      refine { h with jobs := fun job hjob => ?_ }
      rcases List.mem_append.mp hjob with hjob | hjob
      · exact h.jobs job hjob
      · rw [List.mem_singleton.mp hjob]
        exact ⟨List.nil_prefix, by simp⟩
  | readChunk index =>
    dsimp only [HashFreshness.next]
    cases hjob : w.jobs[index]? with
    | none => exact h
    | some job =>
      refine { h with jobs := fun job' hjob' => ?_ }
      rcases List.mem_or_eq_of_mem_set hjob' with hjob' | rfl
      · exact h.jobs job' hjob'
      · rw [h.inodes]
        exact readChunk_reads (h.jobs job (List.mem_of_getElem? hjob))
  | store index stamp =>
    dsimp only [HashFreshness.next]
    split
    · split
      · exact { h with jobs := fun job hjob => h.jobs job (List.mem_of_mem_eraseIdx hjob) }
      · exact h
    · exact h

theorem Recorded.next (h : Recorded content w) (hunchanged : Unchanged content w) (e : Event) :
    Recorded content (next env w e) := by
  have hstep := step_next env w e
  intro row' hrow'
  cases hstep with
  | kept hkept hmeets =>
    obtain ⟨row, hrow, hcolumns⟩ := hkept.row_eq hrow'
    have hhash : row.file.hashSha256 = row'.file.hashSha256 := congrArg (·.1) hcolumns
    rw [hkept.scanned, hkept.hashed, ← hhash]
    exact h row hrow
  | upserted hfound hmtime hrow hscanned hhashed =>
    rw [hrow] at hrow'
    cases hrow'
    rw [hscanned, hhashed]
    refine ⟨hunchanged.seen _ (List.mem_of_getElem? hfound), fun hhash => ?_⟩
    obtain ⟨hash, hhash⟩ := Option.ne_none_iff_exists'.mp hhash
    obtain ⟨row, hrow, hhash⟩ := hash_upsertByPath hhash
    exact (h row hrow).2 (by simp [hhash])
  | stored hjob hdone hrow hstored hscanned hhashed =>
    rw [hscanned, hhashed]
    exact ⟨(h _ hrow).1, fun _ => (hunchanged.jobs _ (List.mem_of_getElem? hjob)).2 hdone⟩

theorem meets_of_unchanged (hunchanged : Unchanged content w) (h : Recorded content w) (e : Event) :
    Meets env w e := by
  cases e with
  | upsert index built =>
    intro found mtime row computedAt hfound hmtime hrow hhash hcomputed hle
    rw [hunchanged.seen found (List.mem_of_getElem? hfound), (h row hrow).2 hhash]
  | store index stamp =>
    intro job row hjob hdone hrow hle
    rw [(hunchanged.jobs job (List.mem_of_getElem? hjob)).2 hdone, (h row hrow).1]
  | write inode content' mtimeNs => trivial
  | name inode => trivial
  | stat => trivial
  | reprobe result => trivial
  | openFile => trivial
  | readChunk index => trivial

theorem throughout_meets {inodes : Nat → Inode} (path : Option Nat) {history : List Event}
    (hinodes : ∀ n, (inodes n).content = content)
    (hkeeps : Throughout (next env) (Keeps content) (World.start inodes path) history) :
    Throughout (next env) (Meets env) (World.start inodes path) history := by
  have hstart : Unchanged content (World.start inodes path) ∧
      Recorded content (World.start inodes path) := by
    constructor
    · exact { inodes := hinodes, seen := by simp [World.start], jobs := by simp [World.start] }
    · intro row hrow
      cases hrow
  refine hkeeps.imp (next env) (I := fun w => Unchanged content w ∧ Recorded content w) ?_ hstart
  intro w e hw hkeep
  exact ⟨meets_of_unchanged hw.1 hw.2 e, hw.1.next hkeep, hw.2.next hw.1 e⟩

end Unchanged

end HashFreshness
