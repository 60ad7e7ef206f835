/-
  Auditarr/FactoryReset.lean
  ==========================
  **The factory reset** (`app/services/factory_reset_service.py`, `factory_reset` in
  `app/api/v1/system.py`, `session_dependency` in `app/api/dependencies.py`).

  The tables are emptied in one transaction; the trash directory is removed in its midst.
  What raises after that takes the transaction back and not the files, and what keeps the
  removal from its end does not take the transaction back.

  The file system and the database decide how far each of them comes.  A reset is all or
  nothing iff neither of the two happens (`reset_law`).
-/
import Auditarr.AuditedCalls
import Auditarr.FileTree

namespace FactoryReset

open Effects FileTree PyValues Transactions
open AuditedCalls (AuditLogEntry)
open AuthStore (Timestamp)

/-! ### Tables and failures -/

def CONFIRM_PHRASE : String := "reset auditarr"

/-- In the order of `sorted`. -/
def PRESERVED_TABLES : List String := ["alembic_version", "audit_log", "users"]

/-- `name in PRESERVED_TABLES`. -/
def preserved (name : String) : Bool := PRESERVED_TABLES.contains name

/-- The database: the rows of each table, those of `audit_log` apart. -/
structure Tables (ρ : Type) where
  rows : String → List ρ
  auditLog : List AuditLogEntry

inductive Failure where
  | valueError (message : String)
  | validation (message : String)
  /-- An exception of the database, the file system or the interpreter, by its name. -/
  | other (name : String)

variable {ρ β : Type}

abbrev Work (ρ β : Type) := Call (Session (Tables ρ) (Tree String β)) Failure

structure FactoryResetResult where
  tablesTruncated : Nat
  trashPurged : Bool

/-- `DELETE FROM "name"`. -/
def Tables.delete (t : Tables ρ) (name : String) : Tables ρ :=
  { t with rows := Function.update t.rows name [] }

/-- A turn of the loop over the tables, with the count of those that were emptied. -/
def truncate (env : Environment Failure) (count : Nat) (name : String) : Work ρ β Nat :=
  if preserved name then pure count
  else do
    statement env fun t => t.delete name
    return count + 1

/-! ### The trash directory -/

/-- How far `shutil.rmtree` comes: to its end, or to an exception, of which `OSError` is caught,
    after it has removed some of what is below the directory. -/
inductive Removal where
  | done
  | stopped (removed : List (String × Loc String))
  | escaped (removed : List (String × Loc String)) (error : Failure)

/-- What the file system decides. -/
structure FileSystem where
  /-- What `exists` raises. -/
  existsFault : Option Failure
  rmtree : Removal
  /-- `mkdir` raises `OSError`. -/
  mkdirFails : Bool

def trashDir (dataDir : Loc String) : Loc String := "trash" :: dataDir

/-- The locations of what is named from a directory. -/
def within (dir : Loc String) (names : List (String × Loc String)) : List (String × Loc String) :=
  names.map fun name => (name.1, name.2 ++ dir)

/-- The purge: whether the directory was cleared, and the tree that is left. -/
def purgeTrash (fs : FileSystem) (dataDir : Loc String) (t : Tree String β) :
    Except Failure Bool × Tree String β :=
  match fs.existsFault with
  | some e => (.error e, t)
  | none =>
    match htrash : t.node (trashDir dataDir) with
    | none => (.ok false, t)
    -- `rmtree` of a file raises `NotADirectoryError`
    | some (.file _) => (.ok false, t)
    | some .dir =>
      match fs.rmtree with
      | .stopped removed => (.ok false, t.removeTrees (within (trashDir dataDir) removed))
      | .escaped removed e => (.error e, t.removeTrees (within (trashDir dataDir) removed))
      | .done =>
        if fs.mkdirFails then (.ok false, t.removeTree "trash" dataDir)
        else (.ok true, (t.removeTree "trash" dataDir).addDir "trash" dataDir (by
          have hdata : t.node dataDir = some .dir := t.parent "trash" dataDir (by
            rw [trashDir] at htrash
            rw [htrash]
            simp)
          exact (if_neg fun h => absurd h.length_le (by simp)).trans hdata))

def purge (fs : FileSystem) (dataDir : Loc String) : Work ρ β Bool := fun s =>
  let (outcome, tree) := purgeTrash fs dataDir s.world
  (outcome, { s with world := tree })

/-! ### The reset -/

/-- A request: what the database and the file system do, the settings, and what the operator
    sent. -/
structure Request where
  rt : PyRuntime
  env : Environment Failure
  fs : FileSystem
  /-- `Base.metadata.sorted_tables`. -/
  sortedTables : List String
  dataDir : Loc String
  actorId : Option String
  confirmPhrase : String
  now : Timestamp

namespace Request

variable (r : Request)

def confirmed : Bool := r.rt.lower (strip r.confirmPhrase) == CONFIRM_PHRASE

/-- The audit entry of a reset. -/
def entry (tablesTruncated : Nat) (trashPurged : Bool) : AuditLogEntry where
  occurredAt := r.now
  actorId := r.actorId
  actorLabel := some "operator"
  action := "factory_reset"
  targetType := some "system"
  targetId := none
  ipAddress := none
  requestId := none
  metadata := some (.dict [
    ("confirm_phrase", .str r.confirmPhrase),
    ("tables_truncated", .int tablesTruncated),
    ("trash_purged", .bool trashPurged),
    ("preserved_tables", .list (PRESERVED_TABLES.map .str))])

/-- `AuditService.record`. -/
def record (e : AuditLogEntry) : Work ρ β Unit := do
  edit fun t => { t with auditLog := t.auditLog ++ [e] }
  flush r.env

/-- `FactoryResetService.reset`. -/
def reset : Work ρ β FactoryResetResult :=
  if r.confirmed then do
    let tablesTruncated ← Call.foldEach (truncate r.env) 0 r.sortedTables.reverse
    let trashPurged ← purge r.fs r.dataDir
    r.record (r.entry tablesTruncated trashPurged)
    return { tablesTruncated, trashPurged }
  else Call.raise (.valueError ("confirm_phrase must be exactly '" ++ CONFIRM_PHRASE ++ "'"))

/-- The route. -/
def factoryReset : Work ρ β FactoryResetResult := do
  let result ← Call.attempt r.reset fun
    | .valueError message => Call.raise (.validation message)
    | e => Call.raise e
  commit r.env
  return result

/-- `session_dependency`. -/
def sessionDependency {α : Type} (body : Work ρ β α) : Work ρ β α := fun s =>
  match body s with
  | (.error e, s') => (rollback >>= fun _ => Call.raise e) s'
  | (.ok a, s') => (commit r.env >>= fun _ => pure a) s'

/-- The session in which a request over these tables and files ends. -/
def served (tables : Tables ρ) (tree : Tree String β) : Session (Tables ρ) (Tree String β) :=
  (sessionDependency r r.factoryReset (Session.opened tables tree 0)).2

/-! ### All or nothing -/

/-- A location under the trash directory. -/
def UnderTrash (loc : Loc String) : Prop := ∃ name rest, loc = name :: (rest ++ trashDir r.dataDir)

/-- The tables are empty, the trash is purged, and there is one entry more. -/
def Done (tables : Tables ρ) (s : Session (Tables ρ) (Tree String β)) : Prop :=
  (∀ name ∈ r.sortedTables, preserved name = false → s.committed.rows name = []) ∧
  (∀ loc, r.UnderTrash loc → s.world.node loc = none) ∧
  ∃ e, e.action = "factory_reset" ∧ s.committed.auditLog = tables.auditLog ++ [e]

/-- The tables and the files under the trash directory are as they were. -/
def Untouched (tables : Tables ρ) (tree : Tree String β)
    (s : Session (Tables ρ) (Tree String β)) : Prop :=
  s.committed = tables ∧ ∀ loc, r.UnderTrash loc → s.world.node loc = tree.node loc

def AllOrNothing (tables : Tables ρ) (tree : Tree String β) : Prop :=
  r.Done tables (r.served tables tree) ∨ r.Untouched tables tree (r.served tables tree)

/-! ### The condition -/

/-- The tables that the reset empties. -/
def wiped : List String :=
  r.sortedTables.reverse.filter fun name => !preserved name

/-- The phrase is right, every `DELETE` goes through, and the trash directory can be looked for. -/
def Reaches : Prop :=
  r.confirmed = true ∧ (∀ i < r.wiped.length, r.env.faultAt i = none) ∧ r.fs.existsFault = none

/-- `rmtree` removes what is at a location under the trash directory. -/
def Removes (loc : Loc String) : Prop :=
  match r.fs.rmtree with
  | .done => True
  | .stopped removed | .escaped removed _ =>
      ∃ name ∈ within (trashDir r.dataDir) removed, name.1 :: name.2 <:+ loc

/-- `rmtree` raises what is not an `OSError`. -/
def Escapes (tree : Tree String β) : Prop :=
  tree.node (trashDir r.dataDir) = some .dir ∧ ∃ removed e, r.fs.rmtree = .escaped removed e

/-- The audit insert and the commit go through. -/
def Records (tree : Tree String β) : Prop :=
  ¬ r.Escapes tree ∧ r.env.faultAt r.wiped.length = none ∧
    r.env.faultAt (r.wiped.length + 1) = none

/-- A reset that gets as far as the trash directory and is recorded leaves nothing in it, and one
    that is not recorded removes nothing from it. -/
def Spared (tree : Tree String β) : Prop :=
  r.Reaches →
    (r.Records tree ∧ ∀ loc, r.UnderTrash loc → tree.node loc ≠ none → r.Removes loc) ∨
    (¬ r.Records tree ∧ ∀ loc, r.UnderTrash loc → tree.node loc ≠ none → ¬ r.Removes loc)

end Request

/-! ### What each part does -/

section Parts

variable {env : Environment Failure} {s : Session (Tables ρ) (Tree String β)}

/-- Tables of which some were emptied. -/
def Emptied (names : List String) (t t' : Tables ρ) : Prop :=
  t'.auditLog = t.auditLog ∧
    (∀ name ∈ names, preserved name = false → t'.rows name = []) ∧
    ∀ name, t.rows name = [] → t'.rows name = []

theorem truncate_pass {name : String} (count : Nat) (hs : s.failed = false)
    (hpreserved : preserved name = false) (h : env.faultAt s.calls = none) :
    truncate env count name s =
      (.ok (count + 1), { s with working := s.working.delete name, calls := s.calls + 1 }) := by
  unfold truncate statement
  rw [if_neg (by simp [hpreserved]), Call.andThen_eq_bind, Call.run_bind,
    Call.run_bind_ok (contact_ok false hs h)]
  rfl

theorem truncate_ok (env : Environment Failure) (names : List String) (count : Nat) (hs : s.failed = false)
    (h : ∀ i < (names.filter fun name => !preserved name).length,
      env.faultAt (s.calls + i) = none) :
    ∃ count' t', Emptied names s.working t' ∧
      Call.foldEach (truncate env) count names s =
        (.ok count', { s with
          working := t'
          calls := s.calls +
            (names.filter fun name => !preserved name).length }) := by
  induction names generalizing count s with
  | nil => exact ⟨count, s.working, ⟨rfl, by simp, fun _ h => h⟩, rfl⟩
  | cons name rest ih =>
    cases hpreserved : preserved name with
    | true =>
      rw [List.filter_cons_of_neg (by simp [hpreserved])] at h ⊢
      obtain ⟨count', t', ⟨hlog, hempty, hkeep⟩, hrun⟩ := ih count hs h
      refine ⟨count', t', ⟨hlog, ?_, hkeep⟩, ?_⟩
      · intro other hother hwiped
        rcases List.mem_cons.mp hother with rfl | hrest
        · rw [hpreserved] at hwiped
          cases hwiped
        · exact hempty other hrest hwiped
      · rw [Call.foldEach, Call.andThen_eq_bind, truncate, if_pos hpreserved]
        exact hrun
    | false =>
      rw [List.filter_cons_of_pos (by simp [hpreserved]), List.length_cons] at h ⊢
      have hdeleted := truncate_pass count hs hpreserved (h 0 (by omega))
      obtain ⟨count', t', ⟨hlog, hempty, hkeep⟩, hrun⟩ :=
        ih (s := { s with working := s.working.delete name, calls := s.calls + 1 }) (count + 1) hs
          (fun i hi => by
            rw [show s.calls + 1 + i = s.calls + (i + 1) by omega]
            exact h (i + 1) (by omega))
      refine ⟨count', t', ⟨hlog, ?_, ?_⟩, ?_⟩
      · intro other hother hwiped
        rcases List.mem_cons.mp hother with rfl | hrest
        · exact hkeep other (Function.update_self ..)
        · exact hempty other hrest hwiped
      · intro other hother
        apply hkeep
        show Function.update s.working.rows name [] other = []
        by_cases hname : other = name
        · rw [hname, Function.update_self]
        · rw [Function.update_of_ne hname, hother]
      · rw [Call.foldEach, Call.andThen_eq_bind, Call.run_bind_ok hdeleted, hrun]
        simp only [Prod.mk.injEq, true_and]
        congr 1
        omega

theorem truncate_fault (env : Environment Failure) (names : List String) (count : Nat) (hs : s.failed = false)
    (h : ¬ ∀ i < (names.filter fun name => !preserved name).length,
      env.faultAt (s.calls + i) = none) :
    ∃ e s', Call.foldEach (truncate env) count names s = (.error e, s') ∧
      s'.committed = s.committed ∧ s'.world = s.world := by
  induction names generalizing count s with
  | nil => exact absurd (fun i hi => absurd hi (Nat.not_lt_zero i)) h
  | cons name rest ih =>
    cases hpreserved : preserved name with
    | true =>
      rw [List.filter_cons_of_neg (by simp [hpreserved])] at h
      rw [Call.foldEach, Call.andThen_eq_bind, truncate, if_pos hpreserved]
      exact ih count hs h
    | false =>
      rw [List.filter_cons_of_pos (by simp [hpreserved]), List.length_cons] at h
      rw [Call.foldEach, Call.andThen_eq_bind]
      by_cases hfirst : env.faultAt s.calls = none
      · rw [Call.run_bind_ok (truncate_pass count hs hpreserved hfirst)]
        refine ih (s := { s with working := s.working.delete name, calls := s.calls + 1 })
          (count + 1) hs fun hrest => h fun i hi => ?_
        cases i with
        | zero => exact hfirst
        | succ i =>
          rw [show s.calls + (i + 1) = s.calls + 1 + i by omega]
          exact hrest i (by omega)
      · obtain ⟨e, s', hrun, hcommitted, hworld⟩ := contact_fault false hs hfirst
        refine ⟨e, s', Call.run_bind_error ?_, hcommitted, hworld⟩
        unfold truncate statement
        rw [if_neg (by simp [hpreserved]), Call.andThen_eq_bind]
        exact Call.run_bind_error (Call.run_bind_error hrun)

end Parts

/-! ### The purge -/

namespace Request

section Purge

variable (r : Request) {tree : Tree String β} {loc : Loc String}

theorem UnderTrash.below {r : Request} (h : r.UnderTrash loc) : trashDir r.dataDir <:+ loc := by
  obtain ⟨name, rest, rfl⟩ := h
  exact ⟨name :: rest, rfl⟩

theorem UnderTrash.ne {r : Request} (h : r.UnderTrash loc) : trashDir r.dataDir ≠ loc := by
  obtain ⟨name, rest, rfl⟩ := h
  intro heq
  have hlength := congrArg List.length heq
  simp only [List.length_cons, List.length_append] at hlength
  omega

theorem UnderTrash.dir {r : Request} (h : r.UnderTrash loc) (hnode : tree.node loc ≠ none) :
    tree.node (trashDir r.dataDir) = some .dir :=
  Tree.ancestor hnode h.below h.ne

theorem purge_absent (h : r.UnderTrash loc) (hnode : tree.node loc = none) :
    (purgeTrash r.fs r.dataDir tree).2.node loc = none := by
  unfold purgeTrash
  cases r.fs.existsFault with
  | some e => exact hnode
  | none =>
    dsimp only
    split
    · exact hnode
    · exact hnode
    · split
      · exact removeTrees_node_of_none hnode
      · exact removeTrees_node_of_none hnode
      · have hremoved : (tree.removeTree "trash" r.dataDir).node loc = none := if_pos h.below
        split
        · exact hremoved
        · exact (Function.update_of_ne h.ne.symm _ _).trans hremoved

theorem purge_removed (h : r.UnderTrash loc) (hexists : r.fs.existsFault = none)
    (hremoves : r.Removes loc) : (purgeTrash r.fs r.dataDir tree).2.node loc = none := by
  by_cases hnode : tree.node loc = none
  · exact r.purge_absent h hnode
  · have hdir := h.dir hnode
    unfold purgeTrash
    rw [hexists]
    dsimp only
    unfold Removes at hremoves
    split
    next hnone =>
      rw [hdir] at hnone
      cases hnone
    next hfile =>
      rw [hdir] at hfile
      cases hfile
    next =>
      cases hrmtree : r.fs.rmtree with
      | stopped removed =>
        rw [hrmtree] at hremoves
        obtain ⟨name, hname, hbelow⟩ := hremoves
        exact removeTrees_node_of_mem hname hbelow
      | escaped removed e =>
        rw [hrmtree] at hremoves
        obtain ⟨name, hname, hbelow⟩ := hremoves
        exact removeTrees_node_of_mem hname hbelow
      | done =>
        have hremoved : (tree.removeTree "trash" r.dataDir).node loc = none := if_pos h.below
        dsimp only
        split
        · exact hremoved
        · exact (Function.update_of_ne h.ne.symm _ _).trans hremoved

theorem purge_kept (hremoves : ¬ r.Removes loc) :
    (purgeTrash r.fs r.dataDir tree).2.node loc = tree.node loc := by
  unfold purgeTrash
  unfold Removes at hremoves
  cases r.fs.existsFault with
  | some e => rfl
  | none =>
    dsimp only
    split
    · rfl
    · rfl
    · cases hrmtree : r.fs.rmtree with
      | stopped removed =>
        rw [hrmtree] at hremoves
        exact removeTrees_node_of_forall fun name hname hbelow => hremoves ⟨name, hname, hbelow⟩
      | escaped removed e =>
        rw [hrmtree] at hremoves
        exact removeTrees_node_of_forall fun name hname hbelow => hremoves ⟨name, hname, hbelow⟩
      | done =>
        rw [hrmtree] at hremoves
        exact absurd trivial hremoves

theorem purge_outcome (hexists : r.fs.existsFault = none) :
    (r.Escapes tree → ∃ e, (purgeTrash r.fs r.dataDir tree).1 = .error e) ∧
    (¬ r.Escapes tree → ∃ b, (purgeTrash r.fs r.dataDir tree).1 = .ok b) := by
  unfold purgeTrash Escapes
  rw [hexists]
  dsimp only
  split
  next hnone => exact ⟨fun h => absurd (hnone.symm.trans h.1) (by simp), fun _ => ⟨false, rfl⟩⟩
  next hfile => exact ⟨fun h => absurd (hfile.symm.trans h.1) (by simp), fun _ => ⟨false, rfl⟩⟩
  next hdir =>
    cases hrmtree : r.fs.rmtree with
    | stopped removed => exact ⟨fun h => absurd h.2 (by simp), fun _ => ⟨false, rfl⟩⟩
    | escaped removed e => exact ⟨fun _ => ⟨e, rfl⟩, fun h => absurd ⟨hdir, removed, e, rfl⟩ h⟩
    | done =>
      refine ⟨fun h => absurd h.2 (by simp), fun _ => ?_⟩
      dsimp only
      split
      · exact ⟨false, rfl⟩
      · exact ⟨true, rfl⟩

end Purge

/-! ### The law -/

section Law

variable (r : Request) {tables : Tables ρ} {tree : Tree String β}

/-- The tree after the purge. -/
def purged (tree : Tree String β) : Tree String β := (purgeTrash r.fs r.dataDir tree).2

theorem served_error {e : Failure} {s : Session (Tables ρ) (Tree String β)}
    (h : r.factoryReset (Session.opened tables tree 0) = (.error e, s)) :
    (r.served tables tree).committed = s.committed ∧ (r.served tables tree).world = s.world := by
  unfold served sessionDependency
  rw [h]
  exact ⟨rfl, rfl⟩

theorem served_ok {result : FactoryResetResult} {s : Session (Tables ρ) (Tree String β)}
    (h : r.factoryReset (Session.opened tables tree 0) = (.ok result, s)) (hs : s.failed = false)
    (hcommitted : s.working = s.committed) :
    (r.served tables tree).committed = s.committed ∧ (r.served tables tree).world = s.world := by
  unfold served sessionDependency
  rw [h]
  by_cases hfault : r.env.faultAt s.calls = none
  · have hrun : (commit r.env >>= fun _ => pure result : Work ρ β FactoryResetResult) s = _ :=
      Call.run_bind_ok (commit_ok hs hfault)
    dsimp only
    rw [hrun]
    exact ⟨hcommitted, rfl⟩
  · obtain ⟨e, s', hcommit, hkeep⟩ := commit_fault hs hfault
    have hrun : (commit r.env >>= fun _ => pure result : Work ρ β FactoryResetResult) s = _ :=
      Call.run_bind_error hcommit
    dsimp only
    rw [hrun]
    exact hkeep

theorem factoryReset_error {e : Failure} {s s' : Session (Tables ρ) (Tree String β)}
    (h : r.reset s = (.error e, s')) : ∃ e', r.factoryReset s = (.error e', s') := by
  have hattempt : ∀ handler, Call.attempt r.reset handler s = handler e s' := by
    intro handler
    rw [Call.run_attempt, h]
  cases e with
  | valueError message => exact ⟨.validation message, Call.run_bind_error (hattempt _)⟩
  | validation message => exact ⟨.validation message, Call.run_bind_error (hattempt _)⟩
  | other name => exact ⟨.other name, Call.run_bind_error (hattempt _)⟩

theorem factoryReset_ok {result : FactoryResetResult} {s s' : Session (Tables ρ) (Tree String β)}
    (h : r.reset s = (.ok result, s')) :
    r.factoryReset s = (commit r.env >>= fun _ => pure result : Work ρ β _) s' := by
  unfold factoryReset
  apply Call.run_bind_ok
  rw [Call.run_attempt, h]

/-- The session over these tables and files in which the working tables are `t`. -/
def cleared (tables t : Tables ρ) (tree : Tree String β) : Session (Tables ρ) (Tree String β) where
  working := t
  committed := tables
  failed := false
  expired := false
  world := tree
  calls := r.wiped.length

theorem reset_of_deletes (tables : Tables ρ) (tree : Tree String β) (hconfirmed : r.confirmed = true)
    (h : ∀ i < r.wiped.length, r.env.faultAt i = none) :
    ∃ n t, Emptied r.sortedTables tables t ∧
      r.reset (Session.opened tables tree 0) =
        (purge r.fs r.dataDir >>= fun trashPurged => do
          r.record (r.entry n trashPurged)
          return { tablesTruncated := n, trashPurged }) (r.cleared tables t tree) := by
  obtain ⟨n, t, ⟨hlog, hempty, hkeep⟩, hrun⟩ := truncate_ok r.env
    (s := Session.opened tables tree 0) r.sortedTables.reverse 0 rfl
    (fun i hi => (congrArg r.env.faultAt (Nat.zero_add i)).trans (h i hi))
  refine ⟨n, t, ⟨hlog, fun name hname => hempty name (List.mem_reverse.mpr hname), hkeep⟩, ?_⟩
  have hcalls : 0 + r.wiped.length = r.wiped.length := Nat.zero_add _
  unfold reset cleared
  rw [hconfirmed, if_pos rfl, Call.run_bind_ok hrun, ← hcalls]
  rfl

theorem served_of_not_reaches (tables : Tables ρ) (tree : Tree String β) (h : ¬ r.Reaches) :
    (r.served tables tree).committed = tables ∧ (r.served tables tree).world = tree := by
  have hreset : ∃ e s', r.reset (Session.opened tables tree 0) = (.error e, s') ∧
      s'.committed = tables ∧ s'.world = tree := by
    by_cases hconfirmed : r.confirmed = true
    · by_cases hdeletes : ∀ i < r.wiped.length, r.env.faultAt i = none
      · obtain ⟨e, he⟩ := Option.ne_none_iff_exists'.mp fun hexists =>
          h ⟨hconfirmed, hdeletes, hexists⟩
        obtain ⟨n, t, -, hrun⟩ := r.reset_of_deletes tables tree hconfirmed
          hdeletes
        have hpurge : purge r.fs r.dataDir (r.cleared tables t tree) =
            (.error e, r.cleared tables t tree) := by
          unfold purge purgeTrash
          rw [he]
        exact ⟨e, _, hrun.trans (Call.run_bind_error hpurge), rfl, rfl⟩
      · obtain ⟨e, s', hrun, hkeep⟩ := truncate_fault r.env
          (s := Session.opened tables tree 0) r.sortedTables.reverse 0 rfl
          (fun hall => hdeletes fun i hi =>
            (congrArg r.env.faultAt (Nat.zero_add i)).symm.trans (hall i hi))
        refine ⟨e, s', ?_, hkeep⟩
        unfold reset
        rw [hconfirmed, if_pos rfl, Call.run_bind_error hrun]
    · unfold reset
      rw [if_neg hconfirmed]
      exact ⟨_, _, rfl, rfl, rfl⟩
  obtain ⟨e, s', hrun, hcommitted, hworld⟩ := hreset
  obtain ⟨e', hroute⟩ := r.factoryReset_error hrun
  obtain ⟨hc, hw⟩ := r.served_error hroute
  exact ⟨hc.trans hcommitted, hw.trans hworld⟩

theorem factoryReset_of_inserted (tables : Tables ρ) (h : r.Reaches) (hescapes : ¬ r.Escapes tree)
    (hinsert : r.env.faultAt r.wiped.length = none) :
    ∃ t e result, Emptied r.sortedTables tables t ∧ e.action = "factory_reset" ∧
      r.factoryReset (Session.opened tables tree 0) =
        (commit r.env >>= fun _ => pure result : Work ρ β _)
          { r.cleared tables { t with auditLog := t.auditLog ++ [e] } (r.purged tree) with
            calls := r.wiped.length + 1 } := by
  obtain ⟨hconfirmed, hdeletes, hexists⟩ := h
  obtain ⟨n, t, hemptied, hrun⟩ := r.reset_of_deletes tables tree hconfirmed
    hdeletes
  obtain ⟨b, hb⟩ := (r.purge_outcome hexists).2 hescapes
  have hpurge : purge r.fs r.dataDir (r.cleared tables t tree) =
      (.ok b, r.cleared tables t (r.purged tree)) := by
    rw [← hb]
    rfl
  have hrecord : r.record (r.entry n b) (r.cleared tables t (r.purged tree)) = _ :=
    contact_ok (s := { r.cleared tables t (r.purged tree) with
      working := { t with auditLog := t.auditLog ++ [r.entry n b] } }) true rfl hinsert
  have hreset : r.reset (Session.opened tables tree 0) = _ :=
    hrun.trans ((Call.run_bind_ok hpurge).trans (Call.run_bind_ok hrecord))
  exact ⟨t, r.entry n b, _, hemptied, rfl, r.factoryReset_ok hreset⟩

/-- A reset that reaches the trash directory and is not recorded leaves the tables as they were,
    and the files as the purge leaves them. -/
theorem served_of_not_records (tables : Tables ρ) (h : r.Reaches) (hrecords : ¬ r.Records tree) :
    (r.served tables tree).committed = tables ∧ (r.served tables tree).world = r.purged tree := by
  suffices hroute : ∃ e s', r.factoryReset (Session.opened tables tree 0) = (.error e, s') ∧
      s'.committed = tables ∧ s'.world = r.purged tree by
    obtain ⟨e, s', hroute, hcommitted, hworld⟩ := hroute
    obtain ⟨hc, hw⟩ := r.served_error hroute
    exact ⟨hc.trans hcommitted, hw.trans hworld⟩
  by_cases hinsert : ¬ r.Escapes tree ∧ r.env.faultAt r.wiped.length = none
  · obtain ⟨t, entry, result, -, -, hroute⟩ :=
      r.factoryReset_of_inserted tables h hinsert.1 hinsert.2
    have hcommit : r.env.faultAt (r.wiped.length + 1) ≠ none := fun hcommit =>
      hrecords ⟨hinsert.1, hinsert.2, hcommit⟩
    obtain ⟨e, s', hrun, hkeep⟩ := commit_fault
      (s := { r.cleared tables { t with auditLog := t.auditLog ++ [entry] } (r.purged tree) with
        calls := r.wiped.length + 1 }) rfl hcommit
    exact ⟨e, s', hroute.trans (Call.run_bind_error hrun), hkeep⟩
  · obtain ⟨hconfirmed, hdeletes, hexists⟩ := h
    obtain ⟨n, t, -, hrun⟩ := r.reset_of_deletes tables tree hconfirmed
      hdeletes
    have hpurge : purge r.fs r.dataDir (r.cleared tables t tree) =
        ((purgeTrash r.fs r.dataDir tree).1, r.cleared tables t (r.purged tree)) := rfl
    by_cases hescapes : r.Escapes tree
    · obtain ⟨e, he⟩ := (r.purge_outcome hexists).1 hescapes
      rw [he] at hpurge
      obtain ⟨e', hroute⟩ := r.factoryReset_error (hrun.trans (Call.run_bind_error hpurge))
      exact ⟨e', _, hroute, rfl, rfl⟩
    · obtain ⟨b, hb⟩ := (r.purge_outcome hexists).2 hescapes
      rw [hb] at hpurge
      obtain ⟨e, s', hflush, hkeep⟩ := contact_fault
        (s := { r.cleared tables t (r.purged tree) with
          working := { t with auditLog := t.auditLog ++ [r.entry n b] } }) true rfl
        (fun hfault => hinsert ⟨hescapes, hfault⟩)
      have hrecord : r.record (r.entry n b) (r.cleared tables t (r.purged tree)) = (.error e, s') :=
        hflush
      obtain ⟨e', hroute⟩ := r.factoryReset_error
        (hrun.trans ((Call.run_bind_ok hpurge).trans (Call.run_bind_error hrecord)))
      exact ⟨e', s', hroute, hkeep⟩

theorem served_of_records (tables : Tables ρ) (h : r.Reaches) (hrecords : r.Records tree) :
    ∃ t e, Emptied r.sortedTables tables t ∧ e.action = "factory_reset" ∧
      (r.served tables tree).committed = { t with auditLog := t.auditLog ++ [e] } ∧
      (r.served tables tree).world = r.purged tree := by
  obtain ⟨hescapes, hinsert, hcommit⟩ := hrecords
  obtain ⟨t, e, result, hemptied, haction, hroute⟩ :=
    r.factoryReset_of_inserted tables h hescapes hinsert
  have hrun := commit_ok
    (s := { r.cleared tables { t with auditLog := t.auditLog ++ [e] } (r.purged tree) with
      calls := r.wiped.length + 1 }) rfl hcommit
  obtain ⟨hc, hw⟩ := r.served_ok (hroute.trans (Call.run_bind_ok hrun)) rfl rfl
  exact ⟨t, e, hemptied, haction, hc, hw⟩

theorem purged_iff (h : r.Reaches) :
    (∀ loc, r.UnderTrash loc → (r.purged tree).node loc = none) ↔
      ∀ loc, r.UnderTrash loc → tree.node loc ≠ none → r.Removes loc := by
  constructor
  · intro hgone loc hloc hnode
    by_contra hremoves
    exact hnode ((r.purge_kept hremoves).symm.trans (hgone loc hloc))
  · intro hall loc hloc
    by_cases hnode : tree.node loc = none
    · exact r.purge_absent hloc hnode
    · exact r.purge_removed hloc h.2.2 (hall loc hloc hnode)

theorem kept_iff (h : r.Reaches) :
    (∀ loc, r.UnderTrash loc → (r.purged tree).node loc = tree.node loc) ↔
      ∀ loc, r.UnderTrash loc → tree.node loc ≠ none → ¬ r.Removes loc := by
  constructor
  · intro hsame loc hloc hnode hremoves
    exact hnode ((hsame loc hloc).symm.trans (r.purge_removed hloc h.2.2 hremoves))
  · intro hnone loc hloc
    by_cases hnode : tree.node loc = none
    · rw [hnode]
      exact r.purge_absent hloc hnode
    · exact r.purge_kept (hnone loc hloc hnode)

end Law

end Request

/-- A factory reset is all or nothing iff it does not reach the trash directory, or is recorded
    and removes all that is in it, or is not recorded and removes nothing. -/
theorem reset_law (r : Request) (tables : Tables ρ) (tree : Tree String β) :
    r.AllOrNothing tables tree ↔ r.Spared tree := by
  unfold Request.AllOrNothing Request.Spared
  by_cases hreaches : r.Reaches
  · rw [forall_prop_of_true hreaches, ← r.purged_iff hreaches, ← r.kept_iff hreaches]
    by_cases hrecords : r.Records tree
    · obtain ⟨t, e, ⟨hlog, hempty, -⟩, haction, hcommitted, hworld⟩ :=
        r.served_of_records tables hreaches hrecords
      unfold Request.Done Request.Untouched
      rw [hcommitted, hworld]
      constructor
      · rintro (⟨-, hgone, -⟩ | ⟨hsame, -⟩)
        · exact .inl ⟨hrecords, hgone⟩
        · have hlength := congrArg (fun t => t.auditLog.length) hsame
          simp [hlog] at hlength
      · rintro (⟨-, hgone⟩ | ⟨hnot, -⟩)
        · exact .inl ⟨hempty, hgone, e, haction, by rw [hlog]⟩
        · exact absurd hrecords hnot
    · obtain ⟨hcommitted, hworld⟩ := r.served_of_not_records tables hreaches hrecords
      unfold Request.Done Request.Untouched
      rw [hcommitted, hworld]
      constructor
      · rintro (⟨-, -, e, -, hlog⟩ | ⟨-, hsame⟩)
        · simp at hlog
        · exact .inr ⟨hrecords, hsame⟩
      · rintro (⟨hrec, -⟩ | ⟨-, hsame⟩)
        · exact absurd hrec hrecords
        · exact .inr ⟨rfl, hsame⟩
  · obtain ⟨hcommitted, hworld⟩ := r.served_of_not_reaches tables tree hreaches
    refine ⟨fun _ h => absurd h hreaches, fun _ => .inr ⟨hcommitted, fun loc _ => ?_⟩⟩
    rw [hworld]

/-- A trash directory with one file. -/
def oneTrashed : Tree String Nat :=
  ((Tree.bare.addDir "data" [] rfl).addDir "trash" ["data"] rfl).putFile "Heat.mkv"
    ["trash", "data"] 1 rfl (by decide)

/-- A reset of one table whose commit, the third round trip, fails. -/
def uncommitted : Request where
  rt := { lower := id, reSearch := fun _ _ => .notFound }
  env :=
    { faultAt := fun
        | 2 => some ⟨.other "OperationalError", true⟩
        | _ => none
      pendingRollback := .other "PendingRollbackError"
      missingGreenlet := .other "MissingGreenlet" }
  fs := { existsFault := none, rmtree := .done, mkdirFails := false }
  sortedTables := ["media_files", "users"]
  dataDir := ["data"]
  actorId := some "1"
  confirmPhrase := "reset auditarr"
  now := 0

/-- The tables come back, and the file does not. -/
theorem uncommitted_not_all_or_nothing :
    ¬ uncommitted.AllOrNothing (⟨fun _ => [1], []⟩ : Tables Nat) oneTrashed := by
  have hreaches : uncommitted.Reaches := ⟨by decide, by decide, rfl⟩
  have hrecords : ¬ uncommitted.Records oneTrashed := fun h => absurd h.2.2 (by decide)
  obtain ⟨hcommitted, hworld⟩ := uncommitted.served_of_not_records
    (⟨fun _ => [1], []⟩ : Tables Nat) hreaches hrecords
  have hunder : uncommitted.UnderTrash ["Heat.mkv", "trash", "data"] := ⟨"Heat.mkv", [], rfl⟩
  rintro (⟨-, -, e, -, hlog⟩ | ⟨-, hsame⟩)
  · rw [hcommitted] at hlog
    simp at hlog
  · have hfile := hsame _ hunder
    have hgone : (uncommitted.purged oneTrashed).node ["Heat.mkv", "trash", "data"] = none :=
      uncommitted.purge_removed hunder rfl trivial
    rw [hworld, hgone] at hfile
    exact absurd hfile.symm (by decide)

end FactoryReset
