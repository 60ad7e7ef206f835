/-
  Auditarr/VtScope.lean
  =====================
  **Which files a scan enqueues for VirusTotal** (`app/services/media/scanner.py`,
  `plugins/virustotal/backend.py`: `file_passes_vt_scan_scope`).

  The options of an integration are stored directly in `Integration.config`, and that is where
  `build_config` takes them from.  The scanner looks for them under a key `options` of the
  stored value.  It finds none there, and a scan without options has no scope.

  Where it does find some that require tags, it asks `MediaTag` for a column that is not
  there, and raises.  `scope_followed_iff` says for which configurations and files the scanner
  nevertheless decides as the scope does.
-/
import Auditarr.Scanner

namespace VtScope

open Effects Transactions PyValues Database RulesService Scanner

/-! ### The decision of the scanner -/

/-- The options under the key `options` of a stored configuration. -/
def nestedOptions (config : List (String × PyValue)) : Option (List (String × PyValue)) :=
  match config.lookup "options" with
  | some (.dict options) => some options
  | _ => none

/-- The scope requires tags. -/
def requiresTags (options : List (String × PyValue)) : Bool :=
  ((options.lookup "vt_scan_required_tags").getD .none).truthy

/-- Whether the scanner takes a file to be in scope. -/
def scannerVerdict (rt : PyRuntime) (config : List (String × PyValue)) (saved : MediaFile) :
    Except PyError Bool :=
  match nestedOptions config with
  | none => .ok true
  | some options =>
      if requiresTags options then .error (.other "AttributeError")
      else filePassesVtScanScope rt saved.extension saved.category [] (some (.dict options))

/-- The scope as it is stored, for the tags that the file carries. -/
def storedScope (rt : PyRuntime) (config : List (String × PyValue)) (saved : MediaFile)
    (tags : List String) : Except PyError Bool :=
  filePassesVtScanScope rt saved.extension saved.category tags (some (.dict config))

/-- Raise, enqueue the file, or leave it. -/
def actOn (env : ScanEnv) (saved : MediaFile) (verdict : Except PyError Bool) : Service Unit := do
  let inScope ← raising (verdict.mapError .python)
  Call.when inScope do
    let _ ← enqueueForVtLookup env.toEnv saved.id
    pure ()

theorem optionsOf_dict (config : List (String × PyValue)) :
    optionsOf (.dict config) = (nestedOptions config).map .dict := by
  cases config with
  | nil => rfl
  | cons entry rest =>
    show (match (entry :: rest).lookup "options" with
      | some (.dict options) => some (PyValue.dict options)
      | _ => none) = _
    unfold nestedOptions
    cases (entry :: rest).lookup "options" with
    | none => rfl
    | some value => cases value <;> rfl

theorem enqueueSaved_eq (env : ScanEnv) (config : List (String × PyValue)) (saved : MediaFile) :
    enqueueSaved env (some (optionsOf (.dict config))) saved =
      load env.db saved.id >>= fun _ =>
        Call.when (saved.hashSha256.isSome && saved.vtStatus.isNone)
          (actOn env saved (scannerVerdict env.rt config saved)) := by
  rw [optionsOf_dict, enqueueSaved, scannerVerdict]
  refine congrArg (load env.db saved.id >>= ·) (funext fun _ => congrArg (Call.when _) ?_)
  cases nestedOptions config with
  | none => rfl
  | some options =>
    show Call.when (requiresTags options) (Call.raise (.python (.other "AttributeError"))) >>= _ =
      actOn env saved (if requiresTags options then _ else _)
    cases requiresTags options with
    | true => rfl
    | false => rfl

/-! ### When it is the scope's -/

/-- A file is enqueued iff it passes the stored scope, and tags that are required do not make
    the scan raise. -/
structure FollowsScope (rt : PyRuntime) (config : List (String × PyValue)) (saved : MediaFile)
    (tags : List String) : Prop where
  enqueues_iff : scannerVerdict rt config saved = .ok true ↔
    storedScope rt config saved tags = .ok true
  never_raises : scannerVerdict rt config saved ≠ .error (.other "AttributeError")

/-- The configurations and files for which that is so. -/
def ReadsAsStored (rt : PyRuntime) (config : List (String × PyValue)) (saved : MediaFile)
    (tags : List String) : Prop :=
  match nestedOptions config with
  | none => storedScope rt config saved tags = .ok true
  | some options =>
      requiresTags options = false ∧
        (filePassesVtScanScope rt saved.extension saved.category [] (some (.dict options)) =
            .ok true ↔ storedScope rt config saved tags = .ok true)

theorem get_dict (options : List (String × PyValue)) (key : String) :
    (PyValue.dict options).get key = .ok ((options.lookup key).getD .none) :=
  rfl

theorem iterate_error {v : PyValue} {e : PyError} (h : v.iterate = .error e) : e = .typeError := by
  cases v <;> cases h <;> rfl

theorem iterate_bind_error {v : PyValue} {test : List PyValue → Bool} {e : PyError}
    (h : (v.iterate >>= fun values => .ok (test values)) = .error e) : e = .typeError := by
  cases hiterate : v.iterate with
  | error e' =>
    rw [hiterate] at h
    obtain rfl := Except.error.inj h
    exact iterate_error hiterate
  | ok values =>
    rw [hiterate] at h
    cases h

theorem allowedBy_error {options : List (String × PyValue)} {key : String}
    {normalize : String → String} {value : String} {e : PyError}
    (h : allowedBy (.dict options) key normalize value = .error e) : e = .typeError := by
  unfold allowedBy at h
  rw [get_dict] at h
  simp only [bind, Except.bind] at h
  split at h
  · cases h
  · exact iterate_bind_error h

theorem carriesRequired_error {options : List (String × PyValue)} {tags : List String}
    {e : PyError} (h : carriesRequired (.dict options) tags = .error e) : e = .typeError := by
  unfold carriesRequired at h
  rw [get_dict] at h
  simp only [bind, Except.bind] at h
  split at h
  · cases h
  · exact iterate_bind_error h

theorem filePassesVtScanScope_error {rt : PyRuntime} {extension category : String}
    {tags : List String} {options : List (String × PyValue)} {e : PyError}
    (h : filePassesVtScanScope rt extension category tags (some (.dict options)) = .error e) :
    e = .typeError := by
  unfold filePassesVtScanScope at h
  simp only [bind, Except.bind] at h
  split at h
  · cases h
  · split at h
    · next hextension =>
      obtain rfl := Except.error.inj h
      exact allowedBy_error hextension
    · split at h
      · cases h
      · split at h
        · next hcategory =>
          obtain rfl := Except.error.inj h
          exact allowedBy_error hcategory
        · split at h
          · cases h
          · exact carriesRequired_error h

/-- **The scope of a scan.**  The step enqueues, raises or does nothing as its verdict says;
    and the verdict is that of the stored scope exactly when the configuration has no
    dictionary of options in it and the file passes the stored scope, or it has one that
    requires no tags and passes the file iff the stored scope does. -/
theorem scope_followed_iff (env : ScanEnv) (config : List (String × PyValue)) (saved : MediaFile)
    (tags : List String) :
    enqueueSaved env (some (optionsOf (.dict config))) saved =
        (load env.db saved.id >>= fun _ =>
          Call.when (saved.hashSha256.isSome && saved.vtStatus.isNone)
            (actOn env saved (scannerVerdict env.rt config saved))) ∧
      (FollowsScope env.rt config saved tags ↔ ReadsAsStored env.rt config saved tags) := by
  refine ⟨enqueueSaved_eq env config saved, ?_⟩
  unfold ReadsAsStored
  cases hnested : nestedOptions config with
  | none =>
    have hverdict : scannerVerdict env.rt config saved = .ok true := by
      rw [scannerVerdict, hnested]
    constructor
    · exact fun h => h.enqueues_iff.mp hverdict
    · exact fun h => ⟨iff_of_true hverdict h, by rw [hverdict]; exact fun h' => nomatch h'⟩
  | some options =>
    have hverdict : scannerVerdict env.rt config saved =
        if requiresTags options then .error (.other "AttributeError")
        else filePassesVtScanScope env.rt saved.extension saved.category []
          (some (.dict options)) := by
      rw [scannerVerdict, hnested]
    cases hrequires : requiresTags options with
    | true =>
      rw [hrequires, if_pos rfl] at hverdict
      refine iff_of_false (fun h => h.never_raises hverdict) fun h => ?_
      cases hrequires.symm.trans h.1
    | false =>
      rw [hrequires, if_neg Bool.false_ne_true] at hverdict
      constructor
      · exact fun h => ⟨hrequires, by rw [← hverdict]; exact h.enqueues_iff⟩
      · intro h
        refine ⟨by rw [hverdict]; exact h.2, fun hraises => ?_⟩
        rw [hverdict] at hraises
        cases filePassesVtScanScope_error hraises

/-! A scope of one extension, and a file with another. -/

def mkvOnly : List (String × PyValue) := [("vt_scan_extensions", .list [.str "mkv"])]

def hashedFile : MediaFile :=
  { MediaFile.unprobed "f1" "l1" "/media/a.avi" "avi" with hashSha256 := some "ab" }

theorem out_of_scope_enqueued :
    scannerVerdict calmEnv.rt mkvOnly hashedFile = .ok true ∧
      storedScope calmEnv.rt mkvOnly hashedFile [] = .ok false ∧
      ¬FollowsScope calmEnv.rt mkvOnly hashedFile [] := by
  have hscope : storedScope calmEnv.rt mkvOnly hashedFile [] = .ok false := by decide +kernel
  refine ⟨rfl, hscope, fun h => ?_⟩
  have hpasses := h.enqueues_iff.mp rfl
  rw [hscope] at hpasses
  cases hpasses

end VtScope
