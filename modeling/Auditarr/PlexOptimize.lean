/-
  Auditarr/PlexOptimize.lean
  ==========================
  **The optimize queue of a Plex server** (`plugins/plex/backend.py`: `submit_transcode_job`,
  `get_transcode_job_status`, `verify_optimization_completed`).

  Plex has no status of a job.  Its queue names the media that are to be optimized, and a job
  counts as completed when the queue no longer names its media.  The answer is JSON or XML,
  and of either there are two shapes.

  The keys that are found go into one set, and the job is completed if its key is not in there.
  What is neither JSON nor XML leaves the set empty, like a queue without entries (`readKeys`).
  What an answer lists, if it is a listing at all, is `listed`.
-/
import Auditarr.OptimizationWorker
import Auditarr.PlexLive

namespace PlexOptimize

open PyValues
open JellyfinSessions (splitOnce)
open OptimizationWorker (JobSubmitResult)
open PlexHistory (getD)
open PlexLive (Entries field orElse)

/-! ### Element trees -/

/-- An element of `xml.etree.ElementTree`. -/
inductive Element where
  | mk (tag : String) (attributes : List (String × String)) (children : List Element)

namespace Element

def tag : Element → String
  | mk tag _ _ => tag

/-- `element.get(name)`. -/
def get (name : String) : Element → Option String
  | mk _ attributes _ => attributes.lookup name

mutual

/-- `element.iter()`: the element and all below it, in the order of the document. -/
def iter : Element → List Element
  | mk tag attributes children => mk tag attributes children :: iterAll children

def iterAll : List Element → List Element
  | [] => []
  | e :: rest => iter e ++ iterAll rest

end

end Element

/-! ### Requests -/

structure Response where
  status : Nat
  content : List UInt8
  /-- The charset that the headers name. -/
  charset : Option String

/-- What becomes of a request. -/
inductive Reply where
  /-- `httpx.HTTPError` of the transport, as text. -/
  | httpError (text : String)
  /-- The `ValueError` of `_client`, as text: the base URL or the token is missing. -/
  | refused (text : String)
  | response (r : Response)

/-- Library functions. -/
structure OptimizeRuntime where
  /-- `response.json()`. -/
  json : List UInt8 → Except PyError PyValue
  /-- `response.text`. -/
  text : Response → String
  /-- `ET.fromstring`. -/
  fromstring : String → Except PyError Element
  /-- `str(value)`. -/
  str : PyValue → String
  /-- `repr` of a string. -/
  repr : String → String
  /-- `str(exc)`. -/
  errorText : PyError → String
  /-- What the `HTTPStatusError` of `raise_for_status` says. -/
  statusText : Response → String

/-- `ET.ParseError`, which is no `ValueError`. -/
def parseError : PyError := .other "ParseError"

/-- `response.is_success`, without which `raise_for_status` raises. -/
def Response.isSuccess (r : Response) : Bool := decide (200 ≤ r.status) && decide (r.status ≤ 299)

/-! ### Jobs -/

/-- A job in the queue of a Plex server. -/
structure PlexJob where
  ratingKey : String
  targetId : String

/-- The synthetic id. -/
def PlexJob.id (job : PlexJob) : String := "plex:" ++ job.ratingKey ++ ":" ++ job.targetId

/-- The job that a spec asks for: its metadata, and what the lookup by path finds where that
    has no key. -/
def jobOf (metadata : Entries) (lookup : Except String String) : Except String PlexJob :=
  let ratingKey : Except String String := match field metadata "ratingKey" with
    | .str key => if key = "" then lookup else .ok key
    | _ => lookup
  match ratingKey with
  | .error lookupError =>
      .error ("Plex auto-lookup failed: " ++ lookupError ++ ". Either fix the integration's " ++
        "path_mappings configuration or pin a ratingKey explicitly on the profile.")
  | .ok ratingKey => match field metadata "provider_profile_id" with
    | .str targetId =>
        if targetId = "" then .error noTarget else .ok ⟨ratingKey, targetId⟩
    | _ => .error noTarget
where
  noTarget : String :=
    "Plex requires a transcode target id (one of '1' for Original, '2' for Mobile, '3' for TV, " ++
    "or a smart-playlist ratingKey). Edit the Auditarr profile and pick one from the list."

/-- `submit_transcode_job`, with the reply to its `PUT`. -/
def submitTranscodeJob (metadata : Entries) (lookup : Except String String) (reply : Reply) :
    JobSubmitResult :=
  match jobOf metadata lookup with
  | .error detail => ⟨.rejected, none, some detail⟩
  | .ok job => match reply with
    | .httpError text => ⟨.error, none, some ("Plex HTTP error: " ++ text)⟩
    | .refused text => ⟨.error, none, some text⟩
    | .response r =>
        let detail := "Plex returned " ++ toString r.status ++ " for /library/metadata/" ++
          job.ratingKey ++ "/optimize"
        if 400 ≤ r.status then
          if r.status < 500 ∧ r.status ≠ 401 ∧ r.status ≠ 429 then ⟨.rejected, none, some detail⟩
          else ⟨.error, none, some detail⟩
        else ⟨.accepted, some job.id, some ("queued in Plex for ratingKey=" ++ job.ratingKey)⟩

theorem exists_job_of_submitted {metadata : Entries} {lookup : Except String String}
    {reply : Reply} {id : String}
    (h : (submitTranscodeJob metadata lookup reply).upstreamJobId = some id) :
    ∃ job : PlexJob, job.id = id := by
  unfold submitTranscodeJob at h
  cases hjob : jobOf metadata lookup with
  | error detail => simp [hjob] at h
  | ok job =>
    rw [hjob] at h
    cases reply with
    | httpError text => simp at h
    | refused text => simp at h
    | response r =>
      simp only at h
      split at h
      · split at h <;> simp at h
      · exact ⟨job, Option.some.inj h⟩

/-- `text.split(sep, count)`. -/
def split (sep : Char) : Nat → List Char → List (List Char)
  | 0, text => [text]
  | count + 1, text => match splitOnce sep text with
    | none => [text]
    | some (head, rest) => head :: split sep count rest

theorem splitOnce_append (sep : Char) (head tail : List Char) :
    ∃ rest, splitOnce sep (head ++ sep :: tail) = some (head.takeWhile (· ≠ sep), rest) := by
  have hmem : sep ∈ head ++ sep :: tail := by simp
  have htake : (head ++ sep :: tail).takeWhile (· ≠ sep) = head.takeWhile (· ≠ sep) := by
    have hstop : (sep :: tail).takeWhile (· ≠ sep) = [] := by simp
    rw [List.takeWhile_append, hstop, List.append_nil]
    split
    · next hall => exact ((List.takeWhile_prefix _).eq_of_length hall).symm
    · rfl
  rw [splitOnce, if_pos hmem, htake]
  exact ⟨_, rfl⟩

/-- The text before the first colon. -/
def PlexJob.askedKey (job : PlexJob) : List Char := job.ratingKey.toList.takeWhile (· ≠ ':')

theorem split_id (job : PlexJob) :
    ∃ rest, split ':' 2 job.id.toList = ["plex".toList, job.askedKey, rest] := by
  have hid : job.id.toList = 'p' :: 'l' :: 'e' :: 'x' :: ':' ::
      (job.ratingKey.toList ++ ':' :: job.targetId.toList) := by
    simp [PlexJob.id]
  have hplex : splitOnce ':' job.id.toList =
      some ("plex".toList, job.ratingKey.toList ++ ':' :: job.targetId.toList) := by
    simp [hid, splitOnce]
  obtain ⟨rest, hkey⟩ := splitOnce_append ':' job.ratingKey.toList job.targetId.toList
  refine ⟨rest, ?_⟩
  rw [split, hplex]
  simp only
  rw [split, hkey]
  rfl

theorem isPrefixOf_id (job : PlexJob) : "plex:".toList.isPrefixOf job.id.toList = true := by
  rw [List.isPrefixOf_iff_prefix]
  exact ⟨job.ratingKey.toList ++ ':' :: job.targetId.toList, by simp [PlexJob.id]⟩

theorem PlexJob.id_ne_empty (job : PlexJob) : job.id ≠ "" := by
  intro h
  have hprefix := isPrefixOf_id job
  rw [h] at hprefix
  cases hprefix

/-! ### The keys in the queue -/

section Queue

variable (rt : OptimizeRuntime)

/-- The key of a dictionary: the first of the two fields that has one. -/
def keyNamed (first second : String) (entries : Entries) : Option String :=
  let key := orElse (field entries first) (field entries second)
  if key.truthy then some (rt.str key) else none

def itemKey : PyValue → Option String
  | .dict item => keyNamed rt "ratingKey" "sourceRatingKey" item
  | _ => none

/-- The keys that are found in the entries. -/
def entriesKeys : List PyValue → Except PyError (List String)
  | [] => .ok []
  | .dict entry :: rest => do
      let items ← (field entry "Item").orEmpty.iterate
      let others ← entriesKeys rest
      return items.filterMap (itemKey rt) ++
        (keyNamed rt "sourceRatingKey" "ratingKey" entry).toList ++ others
  | _ :: rest => entriesKeys rest

/-- The keys that are found in a JSON body. -/
def jsonKeys (body : PyValue) : Except PyError (List String) := do
  let container ← getD body "MediaContainer" (.dict [])
  let metadata ← getD container "Metadata" (.list [])
  let entries ← metadata.orEmpty.iterate
  entriesKeys rt entries

/-- The key of an element: the first of the two attributes that is not empty. -/
def Element.keyNamed (first second : String) (e : Element) : Option String :=
  ((e.get first).toList ++ (e.get second).toList).find? (· ≠ "")

/-- The keys that are found in a document: those of `Item` elements, or those of any if there
    are none. -/
def xmlKeys (root : Element) : List String :=
  let keys := (root.iter.filter (·.tag = "Item")).filterMap
    (Element.keyNamed "ratingKey" "sourceRatingKey")
  if keys.isEmpty then root.iter.filterMap (Element.keyNamed "sourceRatingKey" "ratingKey")
  else keys

/-- `rating_keys_in_queue`.  Nothing in the walk through a JSON body raises `ValueError`, so the
    set is empty when the document is tried. -/
def readKeys (r : Response) : Except PyError (List String) :=
  match rt.json r.content >>= jsonKeys rt with
  | .error .valueError => match rt.fromstring (rt.text r) with
    | .ok root => .ok (xmlKeys root)
    | .error e => if e = parseError then .ok [] else .error e
  | read => read

/-! ### The status of a job -/

inductive JobStatus where
  | pending | running | completed | failed | unknown
deriving DecidableEq, Repr

structure TranscodeJobStatus where
  status : JobStatus
  detail : Option String
  progressPct : Option Int

def unknown (detail : String) : TranscodeJobStatus := ⟨.unknown, some detail, none⟩

/-- What a queue with these keys says of a job. -/
def judge (keys : List String) (ratingKey : String) : TranscodeJobStatus :=
  if keys.contains ratingKey then
    ⟨.running, some "ratingKey still present in Plex optimize queue", none⟩
  else
    ⟨.completed, some ("ratingKey no longer in Plex optimize queue; Plex does not distinguish " ++
      "completion from cancellation, so the job is treated as completed"), none⟩

/-- The status by the reply to `GET /library/optimize`. -/
def queueStatus (ratingKey : String) : Reply → Except PyError TranscodeJobStatus
  | .httpError text => .ok (unknown ("Plex HTTP error: " ++ text))
  | .refused text => .ok (unknown text)
  | .response r =>
      if r.isSuccess then
        match readKeys rt r with
        | .ok keys => .ok (judge keys ratingKey)
        | .error .valueError => .ok (unknown (rt.errorText .valueError))
        | .error e => .error e
      else .ok (unknown ("Plex HTTP error: " ++ rt.statusText r))

def getTranscodeJobStatus (upstreamJobId : String) (reply : Reply) :
    Except PyError TranscodeJobStatus :=
  if "plex:".toList.isPrefixOf upstreamJobId.toList then
    match split ':' 2 upstreamJobId.toList with
    | [_, ratingKey, _] => queueStatus rt (String.ofList ratingKey) reply
    | _ => .ok (unknown ("malformed Plex job id " ++ rt.repr upstreamJobId ++
        "; expected 'plex:<ratingKey>:<targetID>'"))
  else .ok (unknown ("unrecognised job id format " ++ rt.repr upstreamJobId ++
    "; expected 'plex:<ratingKey>:<targetID>'"))

/-! ### The verification -/

/-- `_parse_synthetic_job_id`. -/
def parseSyntheticJobId (upstreamJobId : String) : Option String :=
  if "plex:".toList.isPrefixOf upstreamJobId.toList then
    match split ':' 2 upstreamJobId.toList with
    | _ :: ratingKey :: _ => if ratingKey.isEmpty then none else some (String.ofList ratingKey)
    | _ => none
  else none

def isItem (ratingKey : String) : PyValue → Bool
  | .dict item => rt.str (field item "ratingKey") == ratingKey
  | _ => false

/-- An `Item` of one of the entries has the key. -/
def stillQueued (ratingKey : String) : List PyValue → Except PyError Bool
  | [] => .ok false
  | .dict entry :: rest => do
      let items ← (field entry "Item").orEmpty.iterate
      if items.any (isItem rt ratingKey) then return true else stillQueued ratingKey rest
  | _ :: rest => stillQueued ratingKey rest

/-- No `Item` in a JSON body has the key. -/
def nothingQueued (ratingKey : String) (body : PyValue) : Except PyError Bool := do
  let container ← body.orDict.get "MediaContainer"
  let metadata ← container.orDict.get "Metadata"
  let entries ← metadata.orEmpty.iterate
  let queued ← stillQueued rt ratingKey entries
  return !queued

def verifyOptimizationCompleted (upstreamJobId : String) (reply : Reply) : Except PyError Bool :=
  match parseSyntheticJobId upstreamJobId with
  | none => .ok false
  | some ratingKey => match reply with
    | .httpError _ | .refused _ => .ok false
    | .response r =>
        if 400 ≤ r.status then .ok false
        else match rt.json r.content with
          | .error .valueError => .ok false
          | .error e => .error e
          | .ok body => nothingQueued rt ratingKey body

/-! ### What a listing is -/

/-- An entry of the queue: its fields, and those of its items. -/
structure QueueEntry where
  fields : Entries
  items : List Entries

/-- The elements of a list, none of a value that is absent or false. -/
def listOr (v : PyValue) : Option (List PyValue) :=
  if v.truthy then
    match v with
    | .list items => some items
    | _ => none
  else some []

def dicts (vs : List PyValue) : List Entries :=
  vs.filterMap fun
    | .dict entries => some entries
    | _ => none

def queueEntries : List PyValue → Option (List QueueEntry)
  | [] => some []
  | .dict fields :: rest => do
      let items ← listOr (field fields "Item")
      let others ← queueEntries rest
      return ⟨fields, dicts items⟩ :: others
  | _ :: rest => queueEntries rest

/-- The entries of a JSON body, `none` of a body that is no listing. -/
def jsonListing : PyValue → Option (List QueueEntry)
  | .dict body => match field body "MediaContainer" with
    | .dict container => listOr (field container "Metadata") >>= queueEntries
    | _ => none
  | _ => none

/-- The elements of a document, `none` of a document that is no listing. -/
def xmlListing (root : Element) : Option (List Element) :=
  if root.tag = "MediaContainer" then some root.iter else none

/-- One of the two fields is the key. -/
def Names (key : String) (fields : Entries) : Prop :=
  ∃ name ∈ ["ratingKey", "sourceRatingKey"],
    (field fields name).isNone = false ∧ rt.str (field fields name) = key

def QueueEntry.Mentions (key : String) (entry : QueueEntry) : Prop :=
  Names rt key entry.fields ∨ ∃ item ∈ entry.items, Names rt key item

def Element.Mentions (key : String) (e : Element) : Prop :=
  e.get "ratingKey" = some key ∨ e.get "sourceRatingKey" = some key

/-- The keys that an answer lists, `none` of an answer that is no listing of the queue. -/
def listed : Reply → Option (Set String)
  | .httpError _ | .refused _ => none
  | .response r =>
      if r.isSuccess then
        match rt.json r.content with
        | .ok body => (jsonListing body).map fun queue =>
            { key | ∃ entry ∈ queue, entry.Mentions rt key }
        | .error .valueError => match rt.fromstring (rt.text r) with
          | .ok root => (xmlListing root).map fun elements =>
              { key | ∃ e ∈ elements, e.Mentions key }
          | .error _ => none
        | .error _ => none
      else none

/-- The key of the entry, or of one of its items, is this one. -/
def QueueEntry.Carries (key : String) (entry : QueueEntry) : Prop :=
  keyNamed rt "sourceRatingKey" "ratingKey" entry.fields = some key ∨
    ∃ item ∈ entry.items, keyNamed rt "ratingKey" "sourceRatingKey" item = some key

/-- The key of an `Item` element is this one, or that of any element where no `Item` has a key. -/
def Carried (key : String) (elements : List Element) : Prop :=
  (∃ e ∈ elements, e.tag = "Item" ∧ e.keyNamed "ratingKey" "sourceRatingKey" = some key) ∨
    ((∀ e ∈ elements, e.tag = "Item" → e.keyNamed "ratingKey" "sourceRatingKey" = none) ∧
      ∃ e ∈ elements, e.keyNamed "sourceRatingKey" "ratingKey" = some key)

/-- What the verification takes for a queue in which no item has the key. -/
def Vacant (key : String) (body : PyValue) : Prop :=
  ∃ container metadata entries, body.orDict.get "MediaContainer" = .ok container ∧
    container.orDict.get "Metadata" = .ok metadata ∧ metadata.orEmpty.iterate = .ok entries ∧
    ∀ entry, .dict entry ∈ entries → ∃ items, (field entry "Item").orEmpty.iterate = .ok items ∧
      ∀ item, .dict item ∈ items → rt.str (field item "ratingKey") ≠ key

variable {rt}

/-! ### Reading a listing -/

theorem iterate_of_listOr {v : PyValue} {items : List PyValue} (h : listOr v = some items) :
    v.orEmpty.iterate = .ok items := by
  unfold listOr at h
  unfold PyValue.orEmpty
  split at h
  · next htruthy =>
    rw [if_pos htruthy]
    cases v with
    | list found =>
      cases h
      rfl
    | _ => cases h
  · next hfalsy =>
    rw [if_neg hfalsy]
    cases h
    rfl

theorem mem_dicts {fields : Entries} {vs : List PyValue} :
    fields ∈ dicts vs ↔ .dict fields ∈ vs := by
  rw [dicts, List.mem_filterMap]
  constructor
  · rintro ⟨v, hv, hfields⟩
    cases v with
    | dict entries =>
      cases hfields
      exact hv
    | _ => cases hfields
  · intro h
    exact ⟨_, h, rfl⟩

theorem mem_filterMap_itemKey {key : String} {items : List PyValue} :
    key ∈ items.filterMap (itemKey rt) ↔
      ∃ item ∈ dicts items, keyNamed rt "ratingKey" "sourceRatingKey" item = some key := by
  rw [List.mem_filterMap]
  constructor
  · rintro ⟨v, hv, hkey⟩
    cases v with
    | dict item => exact ⟨item, mem_dicts.mpr hv, hkey⟩
    | _ => cases hkey
  · rintro ⟨item, hitem, hkey⟩
    exact ⟨.dict item, mem_dicts.mp hitem, hkey⟩

variable (rt) in
theorem entriesKeys_of_queueEntries {vs : List PyValue} {queue : List QueueEntry}
    (h : queueEntries vs = some queue) :
    ∃ keys, entriesKeys rt vs = .ok keys ∧
      ∀ key, key ∈ keys ↔ ∃ entry ∈ queue, entry.Carries rt key := by
  induction vs generalizing queue with
  | nil =>
    cases h
    exact ⟨[], rfl, by simp⟩
  | cons v rest ih =>
    cases v with
    | dict fields =>
      rw [queueEntries, Option.bind_eq_bind, Option.bind_eq_some_iff] at h
      obtain ⟨items, hitems, h⟩ := h
      rw [Option.bind_eq_bind, Option.bind_eq_some_iff] at h
      obtain ⟨others, hothers, h⟩ := h
      obtain ⟨keys, hkeys, hmem⟩ := ih hothers
      cases h
      refine ⟨items.filterMap (itemKey rt) ++
        (keyNamed rt "sourceRatingKey" "ratingKey" fields).toList ++ keys, ?_, ?_⟩
      · rw [entriesKeys, iterate_of_listOr hitems, hkeys]
        rfl
      · intro key
        rw [List.mem_append, List.mem_append, mem_filterMap_itemKey, Option.mem_toList,
          hmem key]
        constructor
        · rintro ((hitem | hfield) | ⟨entry, hentry, hcarries⟩)
          · exact ⟨_, List.mem_cons_self, .inr hitem⟩
          · exact ⟨_, List.mem_cons_self, .inl hfield⟩
          · exact ⟨entry, List.mem_cons_of_mem _ hentry, hcarries⟩
        · rintro ⟨entry, hentry, hcarries⟩
          rcases List.mem_cons.mp hentry with rfl | hentry
          · exact .inl hcarries.symm
          · exact .inr ⟨entry, hentry, hcarries⟩
    | _ => exact ih h

theorem getD_of_field {entries : Entries} {key : String} {v default : PyValue}
    (h : field entries key = v) (hsome : v.isNone = false) :
    getD (.dict entries) key default = .ok v := by
  unfold field at h
  unfold getD
  cases hlookup : entries.lookup key with
  | none =>
    rw [hlookup, Option.getD_none] at h
    rw [← h] at hsome
    cases hsome
  | some found =>
    rw [hlookup, Option.getD_some] at h
    simp only [hlookup, Option.getD_some, h]

theorem getD_list (entries : Entries) (key : String) :
    ∃ v, getD (.dict entries) key (.list []) = .ok v ∧ v.orEmpty = (field entries key).orEmpty := by
  refine ⟨_, rfl, ?_⟩
  unfold field
  cases entries.lookup key <;> rfl

variable (rt) in
theorem jsonKeys_of_jsonListing {body : PyValue} {queue : List QueueEntry}
    (h : jsonListing body = some queue) :
    ∃ keys, jsonKeys rt body = .ok keys ∧
      ∀ key, key ∈ keys ↔ ∃ entry ∈ queue, entry.Carries rt key := by
  cases body with
  | dict body =>
    simp only [jsonListing] at h
    split at h
    · next container hcontainer =>
      obtain ⟨entries, hentries, hqueue⟩ := Option.bind_eq_some_iff.mp h
      obtain ⟨keys, hkeys, hmem⟩ := entriesKeys_of_queueEntries rt hqueue
      obtain ⟨metadata, hmetadata, hempty⟩ := getD_list container "Metadata"
      have hiterate : metadata.orEmpty.iterate = .ok entries := by
        rw [hempty, iterate_of_listOr hentries]
      exact ⟨keys, bind_eq_ok.mpr ⟨_, getD_of_field hcontainer rfl, bind_eq_ok.mpr ⟨_, hmetadata,
        bind_eq_ok.mpr ⟨_, hiterate, hkeys⟩⟩⟩, hmem⟩
    · cases h
  | _ => cases h

/-! ### What cannot be read -/

theorem bind_ne_valueError {α β : Type} {c : Except PyError α} {k : α → Except PyError β}
    (hc : c ≠ .error .valueError) (hk : ∀ a, k a ≠ .error .valueError) :
    (c >>= k) ≠ .error .valueError := by
  cases c with
  | error e => exact fun h => hc (congrArg _ (Except.error.inj h))
  | ok a => exact hk a

theorem getD_ne_valueError (v default : PyValue) (key : String) :
    getD v key default ≠ .error .valueError := by
  cases v <;> exact fun h => nomatch h

theorem iterate_ne_valueError (v : PyValue) : v.iterate ≠ .error .valueError := by
  cases v <;> exact fun h => nomatch h

theorem entriesKeys_ne_valueError (vs : List PyValue) :
    entriesKeys rt vs ≠ .error .valueError := by
  induction vs with
  | nil => exact fun h => nomatch h
  | cons v rest ih =>
    cases v with
    | dict fields =>
      exact bind_ne_valueError (iterate_ne_valueError _) fun items =>
        bind_ne_valueError ih fun others h => nomatch h
    | _ => exact ih

theorem jsonKeys_ne_valueError (body : PyValue) : jsonKeys rt body ≠ .error .valueError :=
  bind_ne_valueError (getD_ne_valueError _ _ _) fun _ =>
    bind_ne_valueError (getD_ne_valueError _ _ _) fun _ =>
      bind_ne_valueError (iterate_ne_valueError _) fun _ => entriesKeys_ne_valueError _

theorem readKeys_of_json {r : Response} {body : PyValue} (hjson : rt.json r.content = .ok body) :
    readKeys rt r = jsonKeys rt body := by
  unfold readKeys
  rw [hjson]
  change (match jsonKeys rt body with
    | .error .valueError => _
    | read => read) = _
  split
  · next h => exact absurd h (jsonKeys_ne_valueError body)
  · rfl

theorem mem_xmlKeys {key : String} {root : Element} :
    key ∈ xmlKeys root ↔ Carried key root.iter := by
  have hkeys : ∀ k, k ∈ (root.iter.filter (·.tag = "Item")).filterMap
      (Element.keyNamed "ratingKey" "sourceRatingKey") ↔
      ∃ e ∈ root.iter, e.tag = "Item" ∧ e.keyNamed "ratingKey" "sourceRatingKey" = some k := by
    intro k
    simp [List.mem_filterMap, and_assoc]
  unfold xmlKeys Carried
  simp only
  split
  · next hempty =>
    rw [List.isEmpty_iff] at hempty
    have hnone : ∀ e ∈ root.iter, e.tag = "Item" →
        e.keyNamed "ratingKey" "sourceRatingKey" = none := by
      intro e he htag
      rw [Option.eq_none_iff_forall_ne_some]
      intro k hk
      have := (hkeys k).mpr ⟨e, he, htag, hk⟩
      rw [hempty] at this
      cases this
    rw [List.mem_filterMap]
    constructor
    · intro h
      exact .inr ⟨hnone, h⟩
    · rintro (⟨e, he, htag, hk⟩ | ⟨-, h⟩)
      · rw [hnone e he htag] at hk
        cases hk
      · exact h
  · next hsome =>
    rw [hkeys]
    constructor
    · exact .inl
    · rintro (h | ⟨hnone, -⟩)
      · exact h
      · rw [List.isEmpty_iff, List.eq_nil_iff_forall_not_mem] at hsome
        push Not at hsome
        obtain ⟨k, hk⟩ := hsome
        obtain ⟨e, he, htag, hkey⟩ := (hkeys k).mp hk
        rw [hnone e he htag] at hkey
        cases hkey

/-! ### The verification -/

theorem not_any_isItem {key : String} {items : List PyValue} :
    items.any (isItem rt key) = false ↔
      ∀ item, .dict item ∈ items → rt.str (field item "ratingKey") ≠ key := by
  rw [List.any_eq_false]
  constructor
  · intro h item hitem hkey
    exact h _ hitem (beq_iff_eq.mpr hkey)
  · intro h v hv
    cases v with
    | dict item => exact fun hkey => h item hv (beq_iff_eq.mp hkey)
    | _ => exact Bool.false_ne_true

theorem stillQueued_eq_false {key : String} {vs : List PyValue} :
    stillQueued rt key vs = .ok false ↔
      ∀ entry, .dict entry ∈ vs → ∃ items, (field entry "Item").orEmpty.iterate = .ok items ∧
        ∀ item, .dict item ∈ items → rt.str (field item "ratingKey") ≠ key := by
  induction vs with
  | nil => simp [stillQueued]
  | cons v rest ih =>
    cases v with
    | dict fields =>
      rw [stillQueued, bind_eq_ok]
      constructor
      · rintro ⟨items, hitems, h⟩ entry hentry
        split at h
        · cases h
        · next hany =>
          rcases List.mem_cons.mp hentry with heq | hentry
          · cases heq
            exact ⟨items, hitems, not_any_isItem.mp (Bool.not_eq_true _ ▸ hany)⟩
          · exact ih.mp h entry hentry
      · intro h
        obtain ⟨items, hitems, hnone⟩ := h fields List.mem_cons_self
        refine ⟨items, hitems, ?_⟩
        rw [if_neg (by rw [not_any_isItem.mpr hnone]; exact Bool.false_ne_true)]
        exact ih.mpr fun entry hentry => h entry (List.mem_cons_of_mem _ hentry)
    | _ =>
      rw [stillQueued, ih]
      all_goals simp

theorem nothingQueued_eq_true {key : String} {body : PyValue} :
    nothingQueued rt key body = .ok true ↔ Vacant rt key body := by
  unfold nothingQueued Vacant
  simp only [bind_eq_ok]
  constructor
  · rintro ⟨container, hcontainer, metadata, hmetadata, entries, hentries, queued, hqueued, h⟩
    have hfalse : queued = false := by simpa using Except.ok.inj h
    rw [hfalse, stillQueued_eq_false] at hqueued
    exact ⟨container, metadata, entries, hcontainer, hmetadata, hentries, hqueued⟩
  · rintro ⟨container, metadata, entries, hcontainer, hmetadata, hentries, hnone⟩
    exact ⟨container, hcontainer, metadata, hmetadata, entries, hentries, false,
      stillQueued_eq_false.mpr hnone, rfl⟩

theorem parseSyntheticJobId_id (job : PlexJob) :
    parseSyntheticJobId job.id =
      if job.askedKey.isEmpty then none else some (String.ofList job.askedKey) := by
  obtain ⟨rest, hsplit⟩ := split_id job
  rw [parseSyntheticJobId, if_pos (isPrefixOf_id job), hsplit]

theorem verifyOptimizationCompleted_id {job : PlexJob} {reply : Reply} :
    verifyOptimizationCompleted rt job.id reply = .ok true ↔
      ∃ r body, reply = .response r ∧ r.status < 400 ∧ job.askedKey ≠ [] ∧
        rt.json r.content = .ok body ∧ Vacant rt (String.ofList job.askedKey) body := by
  rw [verifyOptimizationCompleted, parseSyntheticJobId_id]
  by_cases hempty : job.askedKey = []
  · simp [hempty]
  rw [if_neg (by rwa [List.isEmpty_iff])]
  cases reply with
  | httpError text => simp
  | refused text => simp
  | response r =>
    simp only
    by_cases hstatus : 400 ≤ r.status
    · rw [if_pos hstatus]
      constructor
      · intro h
        cases h
      · rintro ⟨r', body, hr, hlt, -⟩
        cases hr
        omega
    rw [if_neg hstatus]
    cases hjson : rt.json r.content with
    | error e =>
      constructor
      · intro h
        cases e <;> cases h
      · rintro ⟨r', body, hr, -, -, hbody, -⟩
        cases hr
        rw [hjson] at hbody
        cases hbody
    | ok body =>
      change nothingQueued rt _ body = .ok true ↔ _
      rw [nothingQueued_eq_true]
      constructor
      · intro h
        exact ⟨r, body, rfl, by omega, hempty, hjson, h⟩
      · rintro ⟨r', body', hr, -, -, hbody, h⟩
        cases hr
        rw [hjson] at hbody
        cases hbody
        exact h

theorem getTranscodeJobStatus_id (job : PlexJob) (reply : Reply) :
    getTranscodeJobStatus rt job.id reply = queueStatus rt (String.ofList job.askedKey) reply := by
  obtain ⟨rest, hsplit⟩ := split_id job
  rw [getTranscodeJobStatus, if_pos (isPrefixOf_id job), hsplit]

theorem queueStatus_of_raised {key : String} {r : Response} {e : PyError}
    (hsuccess : r.isSuccess = true) (hread : readKeys rt r = .error e) (he : e ≠ .valueError) :
    queueStatus rt key (.response r) = .error e := by
  rw [queueStatus, if_pos hsuccess, hread]
  cases e with
  | valueError => exact absurd rfl he
  | _ => rfl

theorem judge_status {keys : List String} {key : String} :
    (judge keys key).status = if key ∈ keys then .running else .completed := by
  unfold judge
  by_cases h : key ∈ keys
  · rw [if_pos h, if_pos (List.contains_iff_mem.mpr h)]
  · rw [if_neg h, if_neg fun hc => h (List.contains_iff_mem.mp hc)]

end Queue

end PlexOptimize
