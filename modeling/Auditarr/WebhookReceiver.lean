/-
  Auditarr/WebhookReceiver.lean
  =============================
  **The webhook receiver** (`app/api/v1/webhooks.py`, `app/services/webhook_dispatcher.py`,
  `Scanner.reprobe_one` in `app/services/media/scanner.py`).

  `receive_webhook` checks where a request comes from and its signature, decodes the body,
  and hands the paths it names to a handler.  Past the signature a request is to be answered
  whatever it holds: `handled_iff` says which requests are.

  `String` has no unpaired surrogates, and a decoded body may have some: characters that the
  body does not otherwise use stand for them, and `encodes` is false of a text with one.
  A commit and a subscriber of the bus do not raise.
-/
import Auditarr.PathTranslation
import Auditarr.Scanner

namespace WebhookReceiver

open Effects KeyedTable PyValues PathTranslation
open Database (MediaFile)
open Ffprobe (FfprobeResult)

/-! ### Rows, requests and the environment -/

/-- The columns of `Integration` that the receiver reads. -/
structure Integration where
  id : String
  kind : String
  config : PyValue
  webhookSecretCiphertext : Option String

structure Database where
  integrations : Table Integration.id
  media : Table MediaFile.path

structure Request where
  clientHost : Option String
  /-- `x-auditarr-signature`. -/
  signature : Option String
  body : List UInt8

/-- What `json.loads` ends in.  A body that is no text, or that nests too deep, raises
    something other than `JSONDecodeError`. -/
inductive Loaded where
  | value (v : PyValue)
  | jsonDecodeError
  | raised (e : PyError)

/-- The libraries, the disk, and what the database and the response accept. -/
structure WebhookEnv where
  rt : WebhookRuntime
  decryptDict : String → Except PyError PyValue
  /-- `hmac.new(secret, body, sha256).hexdigest()`. -/
  hmacSha256 : String → List UInt8 → String
  /-- `ipaddress.ip_address`, as the text of the address. -/
  ipAddress : String → Option String
  /-- `ipaddress.ip_network`, as the test for an address. -/
  ipNetwork : String → Option (String → Bool)
  /-- The addresses of a host, none if it is not found. -/
  getaddrinfo : String → List String
  loads : List UInt8 → Loaded
  /-- `Path.exists`. -/
  pathExists : String → Except PyError Bool
  /-- The exception of a query with this text. -/
  refuses : String → Option PyError
  /-- The text is valid in UTF-8. -/
  encodes : String → Bool
  /-- What is stored when a value other than a string is bound to a text column. -/
  bindText : PyValue → Except PyError String

/-! ### Up to the signature -/

/-- An `HTTPException`. -/
structure HttpError where
  statusCode : Nat
  detail : String
deriving DecidableEq

/-- `WEBHOOK_RECEIVER_KINDS`. -/
def WEBHOOK_RECEIVER_KINDS : List String := ["sonarr", "radarr", "plex", "jellyfin"]

section Admission

variable (env : WebhookEnv)

/-- One entry of the whitelist. -/
def matchesEntry (clientHost : String) (rawEntry : PyValue) : Bool :=
  let clientIp := env.ipAddress clientHost
  let entry := strip (if rawEntry.truthy then pyStr env.rt rawEntry else "")
  if entry = "" then false
  else if '/' ∈ entry.toList then
    match env.ipNetwork entry with
    | none => false
    | some contains => clientIp.any contains
  else
    match env.ipAddress entry with
    | some entryIp => clientIp = some entryIp
    | none => (env.getaddrinfo entry).any fun resolved =>
        clientIp.isSome && env.ipAddress resolved = clientIp

/-- `_matches_source_whitelist`. -/
def matchesSourceWhitelist (clientHost : String) (whitelist : PyValue) : Bool :=
  if !whitelist.truthy || clientHost = "" then false
  else
    match whitelist with
    | .list entries => entries.any (matchesEntry env clientHost)
    | _ => false

/-- `_decrypt_secret`. -/
def decryptSecret (ciphertext : String) : Except PyError String := do
  match ← env.decryptDict ciphertext with
  | .dict entries => return pyStr env.rt ((entries.lookup "value").getD (.str ""))
  | _ => throw (.other "AttributeError")

/-- `s.removeprefix("sha256=")`. -/
def bareHex (s : String) : String :=
  if "sha256=".toList.isPrefixOf s.toList then String.ofList (s.toList.drop 7) else s

/-- `_verify_signature`.  `compare_digest` takes ASCII texts only. -/
def verifySignature (rawBody : List UInt8) (secret : String) (header : Option String) :
    Except PyError Bool :=
  let sigHeader := header.getD ""
  if sigHeader = "" ∨ secret = "" then .ok false
  else
    let received := bareHex (strip sigHeader)
    if received.toList.all (·.toNat < 128) then
      .ok (received = env.hmacSha256 secret rawBody)
    else .error .typeError

/-- The request fails the whitelist of the integration, if there is one. -/
def sourceRejected (integration : Integration) (request : Request) : Except PyError Bool := do
  let whitelist ← integration.config.orDict.get "source_whitelist"
  return whitelist.truthy &&
    !matchesSourceWhitelist env (request.clientHost.getD "") whitelist

/-- The checks of `receive_webhook` up to the signature. -/
def admission (kind integrationId : String) (request : Request) (integrations : Table Integration.id) :
    Except PyError (Except HttpError Integration) :=
  if kind ∉ WEBHOOK_RECEIVER_KINDS then
    .ok (.error ⟨404, "Unsupported webhook kind " ++ env.rt.repr kind⟩)
  else
    match integrations.find? integrationId with
    | none => .ok (.error ⟨404, "Integration not found"⟩)
    | some integration =>
        if integration.kind ≠ kind then
          .ok (.error ⟨400, "Integration " ++ env.rt.repr integrationId ++ " is of kind " ++
            env.rt.repr integration.kind ++ ", not " ++ env.rt.repr kind⟩)
        else do
          if ← sourceRejected env integration request then
            return .error ⟨403, "Source not in this integration's whitelist."⟩
          let ciphertext := integration.webhookSecretCiphertext.getD ""
          if ciphertext = "" then
            return .error ⟨401, "No webhook secret configured for this integration. " ++
              "Generate one via POST /integrations/{id}/webhook-secret first."⟩
          let secret ← decryptSecret env ciphertext
          if ← verifySignature env request.body secret request.signature then
            return .ok integration
          else return .error ⟨401, "Invalid or missing signature"⟩

end Admission

/-! ### The handlers -/

inductive Published where
  | mediaReprobed (id : String) (ok orphaned : Bool)
  | mediaRemoved (mediaId path : String)
deriving DecidableEq

/-- The rows of a request, with what it has published, probed and scheduled so far. -/
structure World where
  media : Table MediaFile.path
  published : List Published
  probed : List String
  scheduled : List String

def World.opened (media : Table MediaFile.path) : World := ⟨media, [], [], []⟩

/-- The `ctx` of `dispatch`: what the caller injects, next to the bus and the registry. -/
structure Context where
  ffprobe : Option (String → Except PyError FfprobeResult)
  reprobePath : Option (String → Call World PyError Unit)
  removePath : Option (String → Call World PyError Unit)
  onReprobed : Bool

/-- The `ctx` of `receive_webhook`. -/
def routeContext : Context := ⟨none, none, none, false⟩

/-- A call that neither reads nor writes the state. -/
def lift {α : Type} (c : Except PyError α) : Call World PyError α := fun w => (c, w)

/-- `str(Path(path))`. -/
def absPath (path : String) : String := String.ofList (PosixPath.parse path.toList).render

section Handlers

variable (env : WebhookEnv) (ctx : Context)

def save (row : MediaFile) : Call World PyError Unit :=
  Call.modify fun w => { w with media := w.media.upsert row }

def publish (event : Published) : Call World PyError Unit :=
  Call.modify fun w => { w with published := w.published ++ [event] }

/-- A codec as the column stores it. -/
def codecText : Option PyValue → Except PyError (Option String)
  | none => .ok none
  | some (.str s) => .ok (some s)
  | some value => (env.bindText value).map some

/-- The row after a probe. -/
def withResult (file : MediaFile) (result : FfprobeResult) : Except PyError MediaFile :=
  if result.ok then do
    let videoCodec ← codecText env result.videoCodec
    let audioCodec ← codecText env result.audioCodec
    let subtitleCodec ← codecText env result.subtitleCodec
    return { file with
      isOrphaned := false
      probeFailed := false
      container := result.container
      durationSeconds := result.durationSeconds
      bitrateKbps := result.bitrateKbps
      videoCodec := videoCodec
      audioCodec := audioCodec
      subtitleCodec := subtitleCodec
      width := result.width
      height := result.height
      framerate := result.framerate
      hasSubtitles := result.hasSubtitles
      subtitleLanguages := Scanner.orNull result.subtitleLanguages
      audioLanguages := Scanner.orNull result.audioLanguages }
  else .ok { file with isOrphaned := false, probeFailed := true }

/-- `Scanner.reprobe_one`.  Without the service `self._ffprobe` is `None`. -/
def reprobeOne (file : MediaFile) : Call World PyError Unit := do
  if ← lift (env.pathExists (absPath file.path)) then
    match ctx.ffprobe with
    | none => Call.raise (.other "AttributeError")
    | some probe =>
        Call.modify fun w => { w with probed := w.probed ++ [file.path] }
        let result ← lift (probe (absPath file.path))
        save (← lift (withResult env file result))
        publish (.mediaReprobed file.id result.ok false)
  else
    save { file with isOrphaned := true }
    publish (.mediaReprobed file.id false true)

/-- `MediaRepository.get_by_path`. -/
def getByPath (path : String) : Call World PyError (Option MediaFile) :=
  match env.refuses path with
  | some e => Call.raise e
  | none => Call.read fun w => w.media.find? path

/-- `_noop_reprobe`. -/
def noopReprobe (path : String) : Call World PyError Unit := do
  match ← getByPath env path with
  | none => pure ()
  | some file =>
      reprobeOne env ctx file
      Call.when ctx.onReprobed
        (Call.modify fun w => { w with scheduled := w.scheduled ++ [file.id] })

/-- `_noop_remove`. -/
def noopRemove (path : String) : Call World PyError Unit := do
  match ← getByPath env path with
  | none => pure ()
  | some file =>
      save { file with isOrphaned := true }
      publish (.mediaRemoved file.id path)

/-- The handler of an action; nothing is done about an event that is ignored. -/
def handler : WebhookAction → String → Call World PyError Unit
  | .reprobe => ctx.reprobePath.getD (noopReprobe env ctx)
  | .remove => ctx.removePath.getD (noopRemove env)
  | .ignored => fun _ => pure ()

/-- `dispatch`, with its handlers. -/
def dispatchAll (kind : String) (payload pathMappings : PyValue) :
    Call World PyError WebhookOutcome := do
  let outcome ← lift (dispatch env.rt kind payload pathMappings)
  Call.forEach (handler env ctx outcome.action) outcome.paths
  return outcome

/-! ### The route -/

/-- `raw_body or b"{}"`. -/
def orBraces (rawBody : List UInt8) : List UInt8 := if rawBody = [] then [0x7b, 0x7d] else rawBody

/-- The payload: an empty one for a body that is no JSON document. -/
def payloadOf (rawBody : List UInt8) : Except PyError PyValue :=
  match env.loads (orBraces rawBody) with
  | .value v => .ok v
  | .jsonDecodeError => .ok (.dict [])
  | .raised e => .error e

/-- What the route does past the signature, up to the commit. -/
def processed (integration : Integration) (rawBody : List UInt8) :
    Call World PyError WebhookOutcome := do
  let payload ← lift (payloadOf env rawBody)
  -- does not raise: the checks have read the configuration in the same way
  let pathMappings ← lift (integration.config.orDict.get "path_mappings")
  dispatchAll env routeContext integration.kind payload pathMappings

/-- The response as bytes; its other texts are the receiver's own. -/
def rendered (outcome : WebhookOutcome) : Except PyError WebhookOutcome :=
  if (outcome.event :: outcome.paths).all env.encodes then .ok outcome
  else .error (.other "UnicodeEncodeError")

/-- `receive_webhook`.  The rows of a request that raises before the commit are rolled back. -/
def receiveWebhook (kind integrationId : String) (request : Request) (db : Database) :
    Except PyError (Except HttpError WebhookOutcome) × World :=
  let start := World.opened db.media
  match admission env kind integrationId request db.integrations with
  | .error e => (.error e, start)
  | .ok (.error rejection) => (.ok (.error rejection), start)
  | .ok (.ok integration) =>
      match processed env integration request.body start with
      | (.error e, w) => (.error e, { w with media := db.media })
      | (.ok outcome, w) => ((rendered env outcome).map .ok, w)

end Handlers

/-! ### What a payload has to look like -/

/-- `entries.get(key)`. -/
def field (entries : List (String × PyValue)) (key : String) : PyValue :=
  (entries.lookup key).getD .none

def isIterable : PyValue → Bool
  | .list _ | .dict _ | .str _ => true
  | _ => false

/-- `for item in v or []` does not raise. -/
def Loopable (v : PyValue) : Prop := v.truthy = true → isIterable v = true

/-- An entry of `Media`. -/
def MediaShaped (entry : PyValue) : Prop :=
  entry.truthy = true → ∃ fields, entry = .dict fields ∧ Loopable (field fields "Part")

/-- `Metadata` of a Plex payload. -/
def MetadataShaped (metadata : PyValue) : Prop :=
  metadata.truthy = true → ∃ fields, metadata = .dict fields ∧ Loopable (field fields "Media") ∧
    ∀ items, (field fields "Media").orEmpty.iterate = .ok items → ∀ entry ∈ items, MediaShaped entry

/-- A payload that the extractor of its kind gets through. -/
def WellShaped (kind : String) (payload : PyValue) : Prop :=
  ∃ entries, payload = .dict entries ∧
    (kind = "sonarr" → Loopable (field entries "episodeFiles")) ∧
    (kind = "plex" → MetadataShaped (field entries "Metadata"))

/-- The extractor of the kind finds this event and these paths. -/
def Names (rt : WebhookRuntime) (kind : String) (payload : PyValue) (event : String)
    (paths : List String) : Prop :=
  ∃ extract, extractor rt kind = some extract ∧ extract payload = .ok (event, paths)

section Shapes

variable {rt : WebhookRuntime}

theorem loopable_iff {v : PyValue} : (∃ items, v.orEmpty.iterate = .ok items) ↔ Loopable v := by
  unfold Loopable PyValue.orEmpty
  by_cases htruthy : v.truthy = true
  · rw [if_pos htruthy]
    cases v <;> simp [PyValue.iterate, isIterable, htruthy]
  · rw [if_neg htruthy]
    exact iff_of_true ⟨[], rfl⟩ fun h => absurd h htruthy

theorem get_eq_ok {v w : PyValue} {key : String} :
    v.get key = .ok w ↔ ∃ entries, v = .dict entries ∧ field entries key = w := by
  cases v <;> simp [PyValue.get, field]

theorem extractSonarr_ok_iff {payload : PyValue} : (∃ found, extractSonarr rt payload = .ok found) ↔
    ∃ entries, payload = .dict entries ∧ Loopable (field entries "episodeFiles") := by
  constructor
  · rintro ⟨found, h⟩
    obtain ⟨event, -, h⟩ := PyValues.bind_eq_ok.mp h
    obtain ⟨file, -, h⟩ := PyValues.bind_eq_ok.mp h
    obtain ⟨files, hfiles, h⟩ := PyValues.bind_eq_ok.mp h
    obtain ⟨items, hitems, -⟩ := PyValues.bind_eq_ok.mp h
    obtain ⟨entries, rfl, rfl⟩ := get_eq_ok.mp hfiles
    exact ⟨entries, rfl, loopable_iff.mp ⟨items, hitems⟩⟩
  · rintro ⟨entries, rfl, hloop⟩
    obtain ⟨items, hitems⟩ := loopable_iff.mpr hloop
    refine exists_bind_eq_ok.mpr ⟨_, rfl, exists_bind_eq_ok.mpr ⟨_, rfl, ?_⟩⟩
    exact exists_bind_eq_ok.mpr ⟨_, rfl, exists_bind_eq_ok.mpr ⟨items, hitems, _, rfl⟩⟩

theorem extractRadarr_ok_iff {payload : PyValue} :
    (∃ found, extractRadarr rt payload = .ok found) ↔ ∃ entries, payload = .dict entries := by
  constructor
  · rintro ⟨found, h⟩
    obtain ⟨event, -, h⟩ := PyValues.bind_eq_ok.mp h
    obtain ⟨file, hfile, -⟩ := PyValues.bind_eq_ok.mp h
    obtain ⟨entries, rfl, -⟩ := get_eq_ok.mp hfile
    exact ⟨entries, rfl⟩
  · rintro ⟨entries, rfl⟩
    exact ⟨_, rfl⟩

theorem extractJellyfin_ok_iff {payload : PyValue} :
    (∃ found, extractJellyfin rt payload = .ok found) ↔ ∃ entries, payload = .dict entries := by
  constructor
  · rintro ⟨found, h⟩
    obtain ⟨event, -, h⟩ := PyValues.bind_eq_ok.mp h
    obtain ⟨item, hitem, -⟩ := PyValues.bind_eq_ok.mp h
    obtain ⟨entries, rfl, -⟩ := get_eq_ok.mp hitem
    exact ⟨entries, rfl⟩
  · rintro ⟨entries, rfl⟩
    exact ⟨_, rfl⟩

theorem get_orDict_loop_iff (v : PyValue) (key : String) {P : List PyValue → Prop}
    (hempty : P []) :
    (∃ w, v.orDict.get key = .ok w ∧ ∃ items, w.orEmpty.iterate = .ok items ∧ P items) ↔
      (v.truthy = true → ∃ fields, v = .dict fields ∧ Loopable (field fields key) ∧
        ∀ items, (field fields key).orEmpty.iterate = .ok items → P items) := by
  unfold PyValue.orDict
  by_cases htruthy : v.truthy = true
  · rw [if_pos htruthy]
    constructor
    · rintro ⟨w, hw, items, hitems, hP⟩ -
      obtain ⟨fields, rfl, rfl⟩ := get_eq_ok.mp hw
      refine ⟨fields, rfl, loopable_iff.mp ⟨items, hitems⟩, fun items' hitems' => ?_⟩
      rw [hitems] at hitems'
      cases hitems'
      exact hP
    · intro h
      obtain ⟨fields, rfl, hloop, hP⟩ := h htruthy
      obtain ⟨items, hitems⟩ := loopable_iff.mpr hloop
      exact ⟨_, rfl, items, hitems, hP items hitems⟩
  · rw [if_neg htruthy]
    exact iff_of_true ⟨_, rfl, [], rfl, hempty⟩ fun h => absurd h htruthy

theorem partsOf_ok_iff {entry : PyValue} :
    (∃ parts, (do let part ← entry.orDict.get "Part"; part.orEmpty.iterate) = .ok parts) ↔
      MediaShaped entry := by
  have hloop := get_orDict_loop_iff entry "Part" (P := fun _ => True) trivial
  simp only [and_true, implies_true] at hloop
  exact exists_bind_eq_ok.trans hloop

theorem extractPlex_ok_iff {payload : PyValue} : (∃ found, extractPlex rt payload = .ok found) ↔
    ∃ entries, payload = .dict entries ∧ MetadataShaped (field entries "Metadata") := by
  have hshaped (metadata : PyValue) := get_orDict_loop_iff metadata "Media"
    (P := fun items => ∀ entry ∈ items, MediaShaped entry) (List.forall_mem_nil _)
  constructor
  · rintro ⟨found, h⟩
    obtain ⟨event, -, h⟩ := PyValues.bind_eq_ok.mp h
    obtain ⟨metadata, hmetadata, h⟩ := PyValues.bind_eq_ok.mp h
    obtain ⟨media, hmedia, h⟩ := PyValues.bind_eq_ok.mp h
    obtain ⟨items, hitems, h⟩ := PyValues.bind_eq_ok.mp h
    obtain ⟨parts, hparts, -⟩ := PyValues.bind_eq_ok.mp h
    obtain ⟨entries, rfl, rfl⟩ := get_eq_ok.mp hmetadata
    refine ⟨entries, rfl, (hshaped _).mp ⟨media, hmedia, items, hitems, fun entry hentry => ?_⟩⟩
    exact partsOf_ok_iff.mp (mapM_ok_iff.mp ⟨parts, hparts⟩ entry hentry)
  · rintro ⟨entries, rfl, h⟩
    obtain ⟨media, hmedia, items, hitems, hentries⟩ := (hshaped _).mpr h
    obtain ⟨parts, hparts⟩ := mapM_ok_iff.mpr fun entry hentry =>
      partsOf_ok_iff.mpr (hentries entry hentry)
    refine exists_bind_eq_ok.mpr ⟨_, rfl, exists_bind_eq_ok.mpr ⟨_, rfl, ?_⟩⟩
    refine exists_bind_eq_ok.mpr ⟨media, hmedia, exists_bind_eq_ok.mpr ⟨items, hitems, ?_⟩⟩
    exact exists_bind_eq_ok.mpr ⟨parts, hparts, _, rfl⟩

theorem names_iff {kind : String} {payload : PyValue} (hkind : kind ∈ WEBHOOK_RECEIVER_KINDS) :
    (∃ event paths, Names rt kind payload event paths) ↔ WellShaped kind payload := by
  have hfound {extract : PyValue → Except PyError (String × List String)}
      (hextract : extractor rt kind = some extract) :
      (∃ event paths, Names rt kind payload event paths) ↔ ∃ found, extract payload = .ok found := by
    simp [Names, hextract]
  simp only [WEBHOOK_RECEIVER_KINDS, List.mem_cons, List.not_mem_nil, or_false] at hkind
  rcases hkind with rfl | rfl | rfl | rfl
  · rw [hfound rfl, extractSonarr_ok_iff]
    simp [WellShaped]
  · rw [hfound rfl, extractRadarr_ok_iff]
    simp [WellShaped]
  · rw [hfound rfl, extractPlex_ok_iff]
    simp [WellShaped]
  · rw [hfound rfl, extractJellyfin_ok_iff]
    simp [WellShaped]

end Shapes

/-! ### What the dispatcher makes of it -/

/-- What is done about an event that names these paths. -/
def outcomeOf (kind : String) (pathMappings : PyValue) (event : String) (paths : List String) :
    WebhookOutcome :=
  if actionOf kind event = .ignored ∨ paths = [] then
    { kind := kind, event := event, action := .ignored, paths := paths }
  else { kind := kind, event := event, action := actionOf kind event,
         paths := paths.map (dispatchedPath pathMappings) }

/-- The path that is reported for one that an event names. -/
def reportedPath (kind : String) (pathMappings : PyValue) (event path : String) : String :=
  if actionOf kind event = .ignored then path else dispatchedPath pathMappings path

theorem dispatch_eq_ok {rt : WebhookRuntime} {kind : String} {payload pathMappings : PyValue}
    {outcome : WebhookOutcome} (hkind : kind ∈ WEBHOOK_RECEIVER_KINDS) :
    dispatch rt kind payload pathMappings = .ok outcome ↔
      ∃ event paths, Names rt kind payload event paths ∧
        outcomeOf kind pathMappings event paths = outcome := by
  obtain ⟨extract, hextract⟩ : ∃ extract, extractor rt kind = some extract := by
    simp only [WEBHOOK_RECEIVER_KINDS, List.mem_cons, List.not_mem_nil, or_false] at hkind
    rcases hkind with rfl | rfl | rfl | rfl <;> exact ⟨_, rfl⟩
  simp only [dispatch, hextract, Names, bind_eq_ok, Prod.exists, Option.some.injEq, exists_eq_left']
  refine exists_congr fun event => exists_congr fun paths => and_congr_right fun _ => ?_
  unfold outcomeOf
  split <;> simp [pure, Except.pure]

theorem event_outcomeOf {kind event : String} {pathMappings : PyValue} {paths : List String} :
    (outcomeOf kind pathMappings event paths).event = event := by
  unfold outcomeOf
  split <;> rfl

theorem paths_outcomeOf {kind event : String} {pathMappings : PyValue} {paths : List String} :
    (outcomeOf kind pathMappings event paths).paths =
      paths.map (reportedPath kind pathMappings event) := by
  unfold outcomeOf reportedPath
  by_cases hignored : actionOf kind event = .ignored
  · simp [hignored]
  · by_cases hpaths : paths = []
    · simp [hpaths]
    · simp [hignored, hpaths]

/-! ### The handlers of the route -/

section Route

variable (env : WebhookEnv)

def HasRow (media : Table MediaFile.path) (path : String) : Prop := ∃ row ∈ media, row.path = path

def OnDisk (path : String) : Prop := env.pathExists (absPath path) = .ok true

/-- The handler of the action gets through a path: the database takes it, and a file that is
    to be probed and has a row is found missing. -/
def Accepts (media : Table MediaFile.path) (path : String) : WebhookAction → Prop
  | .reprobe => env.refuses path = none ∧
      (HasRow media path → env.pathExists (absPath path) = .ok false)
  | .remove => env.refuses path = none
  | .ignored => True

/-- The same paths have rows, and nothing was probed. -/
structure Kept (w w' : World) : Prop where
  rows : ∀ path, HasRow w'.media path ↔ HasRow w.media path
  probed : w'.probed = w.probed

theorem Kept.refl (w : World) : Kept w w := ⟨fun _ => Iff.rfl, rfl⟩

instance : Std.Refl Kept := ⟨Kept.refl⟩

instance : IsTrans World Kept where
  trans _ _ _ hfirst hsecond :=
    ⟨fun path => (hsecond.rows path).trans (hfirst.rows path), hsecond.probed.trans hfirst.probed⟩

theorem hasRow_iff {media : Table MediaFile.path} {path : String} :
    HasRow media path ↔ ∃ file, media.find? path = some file := by
  simp only [Table.find?_eq_some]
  rfl

theorem kept_save {w : World} (row : MediaFile) (hrow : HasRow w.media row.path)
    (published : List Published) (scheduled : List String) :
    Kept w ⟨w.media.upsert row, published, w.probed, scheduled⟩ := by
  refine ⟨fun path => ?_, rfl⟩
  by_cases hpath : path = row.path
  · rw [hpath]
    exact iff_of_true ⟨row, Table.mem_upsert.mpr (.inl rfl), rfl⟩ hrow
  · rw [hasRow_iff, hasRow_iff, Table.find?_upsert, if_neg hpath]

theorem returns_getByPath_iff {path : String} {k : Option MediaFile → Call World PyError Unit}
    {w : World} : Returns (getByPath env path >>= k) w ↔
      env.refuses path = none ∧ Returns (k (w.media.find? path)) w := by
  rw [returns_bind, getByPath]
  cases env.refuses path <;> simp

theorem within_getByPath {path : String} {k : Option MediaFile → Call World PyError Unit}
    (hnone : Within Kept (k none))
    (hsome : ∀ file w, w.media.find? path = some file → Kept w (k (some file) w).2) :
    Within Kept (getByPath env path >>= k) := by
  intro w
  rw [Call.run_bind, getByPath]
  cases env.refuses path with
  | some e => exact Kept.refl w
  | none =>
    simp only [Call.run_read]
    cases hfind : w.media.find? path with
    | none => exact hnone w
    | some file => exact hsome file w hfind

theorem reprobeOne_returns_iff (file : MediaFile) (w : World) :
    Returns (reprobeOne env routeContext file) w ↔
      env.pathExists (absPath file.path) = .ok false := by
  unfold reprobeOne
  rw [returns_bind]
  simp only [lift]
  rcases env.pathExists (absPath file.path) with e | b
  · simp
  · cases b with
    | true => simp [routeContext, not_returns_raise]
    | false => simp [Returns, Call.run_bind, save, publish]

theorem reprobeOne_keeps {file : MediaFile} {w : World} (hrow : HasRow w.media file.path) :
    Kept w (reprobeOne env routeContext file w).2 := by
  unfold reprobeOne
  rw [Call.run_bind]
  simp only [lift]
  rcases env.pathExists (absPath file.path) with e | b
  · exact Kept.refl w
  · cases b with
    | true => exact Kept.refl w
    | false =>
      exact kept_save { file with isOrphaned := true } hrow _ _

theorem noopReprobe_returns_iff {path : String} {w : World} :
    Returns (noopReprobe env routeContext path) w ↔ Accepts env w.media path .reprobe := by
  unfold noopReprobe
  rw [returns_getByPath_iff, Accepts, hasRow_iff]
  apply and_congr_right'
  cases hfind : w.media.find? path with
  | none => simp [returns_pure]
  | some file =>
    have hpath : file.path = path := (Table.mem_of_find? hfind).2
    have hreprobe := reprobeOne_returns_iff env file w
    rw [hpath] at hreprobe
    simp only [Option.some.injEq, exists_eq', true_imp_iff, ← hreprobe]
    constructor
    · intro h
      obtain ⟨a, s', hrun, -⟩ := returns_bind.mp h
      exact ⟨a, s', hrun⟩
    · rintro ⟨a, s', hrun⟩
      exact returns_bind.mpr ⟨a, s', hrun, returns_pure _ _⟩

theorem noopReprobe_keeps (path : String) : Within Kept (noopReprobe env routeContext path) := by
  apply within_getByPath env (within_pure _)
  intro file w hfind
  have hrow : HasRow w.media file.path := ⟨file, (Table.mem_of_find? hfind).1, rfl⟩
  exact IsTrans.trans _ _ _ (reprobeOne_keeps env hrow) (within_rest (fun _ => within_ret _) w)

theorem noopRemove_returns_iff {path : String} {w : World} :
    Returns (noopRemove env path) w ↔ Accepts env w.media path .remove := by
  unfold noopRemove
  rw [returns_getByPath_iff, Accepts]
  apply and_iff_left
  cases w.media.find? path with
  | none => exact returns_pure _ w
  | some file => exact returns_bind.mpr ⟨_, _, rfl, returns_modify _ _⟩

theorem noopRemove_keeps (path : String) : Within Kept (noopRemove env path) := by
  apply within_getByPath env (within_pure _)
  intro file w hfind
  have hrow : HasRow w.media file.path := ⟨file, (Table.mem_of_find? hfind).1, rfl⟩
  exact kept_save { file with isOrphaned := true } hrow _ _

theorem handler_returns_iff {action : WebhookAction} {path : String} {w : World} :
    Returns (handler env routeContext action path) w ↔ Accepts env w.media path action := by
  cases action with
  | reprobe => exact noopReprobe_returns_iff env
  | remove => exact noopRemove_returns_iff env
  | ignored => exact iff_of_true (returns_pure _ w) trivial

theorem handler_keeps (action : WebhookAction) (path : String) :
    Within Kept (handler env routeContext action path) := by
  cases action with
  | reprobe => exact noopReprobe_keeps env path
  | remove => exact noopRemove_keeps env path
  | ignored => exact within_pure _

theorem accepts_kept {w w' : World} (h : Kept w w') (path : String) (action : WebhookAction) :
    Accepts env w'.media path action ↔ Accepts env w.media path action := by
  cases action with
  | reprobe => simp only [Accepts, h.rows]
  | remove => rfl
  | ignored => rfl

theorem handlers_return_iff {action : WebhookAction} {paths : List String} {w : World} :
    Returns (Call.forEach (handler env routeContext action) paths) w ↔
      ∀ path ∈ paths, Accepts env w.media path action :=
  returns_forEach (P := fun path w => Accepts env w.media path action)
    (fun _ _ => handler_returns_iff env)
    (fun path other w => accepts_kept env (handler_keeps env action path w) other action) paths w

theorem handlers_keep (action : WebhookAction) (paths : List String) :
    Within Kept (Call.forEach (handler env routeContext action) paths) :=
  within_forEach paths fun path _ => handler_keeps env action path

/-! ### Requests past the signature -/

/-- The payload of a body, which is empty if the body is no JSON document. -/
def Decodes (rawBody : List UInt8) (payload : PyValue) : Prop :=
  env.loads (orBraces rawBody) = .value payload ∨
    env.loads (orBraces rawBody) = .jsonDecodeError ∧ payload = .dict []

/-- `(config or {}).get("path_mappings")`. -/
def mappingsOf (integration : Integration) : PyValue :=
  match integration.config.orDict with
  | .dict entries => field entries "path_mappings"
  | _ => .none

/-- The payload has the shape of its kind, and what it names can be handled and reported. -/
structure Answerable (integration : Integration) (media : Table MediaFile.path)
    (payload : PyValue) : Prop where
  shaped : WellShaped integration.kind payload
  event : ∀ event paths, Names env.rt integration.kind payload event paths →
    env.encodes event = true
  reported : ∀ event paths, Names env.rt integration.kind payload event paths →
    ∀ path ∈ paths,
      env.encodes (reportedPath integration.kind (mappingsOf integration) event path) = true
  accepted : ∀ event paths, Names env.rt integration.kind payload event paths →
    ∀ path ∈ paths, Accepts env media (dispatchedPath (mappingsOf integration) path)
      (actionOf integration.kind event)

/-- The request is answered, and the files that its event asks to probe have been probed. -/
def Handled (kind integrationId : String) (request : Request) (db : Database) : Prop :=
  ∃ outcome w, receiveWebhook env kind integrationId request db = (.ok (.ok outcome), w) ∧
    (outcome.action = .reprobe → ∀ path ∈ outcome.paths, HasRow db.media path →
      OnDisk env path → path ∈ w.probed)

theorem lift_eq_ok {α : Type} {c : Except PyError α} {a : α} {w w' : World} :
    lift c w = (.ok a, w') ↔ c = .ok a ∧ w = w' := by
  simp [lift]

theorem payloadOf_eq_ok {rawBody : List UInt8} {payload : PyValue} :
    payloadOf env rawBody = .ok payload ↔ Decodes env rawBody payload := by
  unfold payloadOf Decodes
  cases env.loads (orBraces rawBody) <;> simp [eq_comm]

theorem names_unique {rt : WebhookRuntime} {kind : String} {payload : PyValue}
    {event event' : String} {paths paths' : List String} (h : Names rt kind payload event paths)
    (h' : Names rt kind payload event' paths') : event = event' ∧ paths = paths' := by
  obtain ⟨extract, hextract, hfound⟩ := h
  obtain ⟨extract', hextract', hfound'⟩ := h'
  rw [hextract] at hextract'
  cases hextract'
  rw [hfound] at hfound'
  cases hfound'
  exact ⟨rfl, rfl⟩

theorem admission_ok {kind integrationId : String} {request : Request}
    {integrations : Table Integration.id} {integration : Integration}
    (h : admission env kind integrationId request integrations = .ok (.ok integration)) :
    integration.kind ∈ WEBHOOK_RECEIVER_KINDS ∧
      integration.config.orDict.get "path_mappings" = .ok (mappingsOf integration) := by
  unfold admission at h
  split at h
  · cases h
  · rename_i hkind
    cases hfind : integrations.find? integrationId with
    | none =>
      rw [hfind] at h
      cases h
    | some found =>
      simp only [hfind] at h
      split at h
      · cases h
      · rename_i hsame
        obtain ⟨rejected, hsource, h⟩ := bind_eq_ok.mp h
        obtain ⟨whitelist, hwhitelist, -⟩ := bind_eq_ok.mp hsource
        obtain ⟨entries, hconfig, -⟩ := get_eq_ok.mp hwhitelist
        have hfound : found = integration := by
          split at h
          · cases h
          · split at h
            · cases h
            · obtain ⟨secret, -, h⟩ := bind_eq_ok.mp h
              obtain ⟨verified, -, h⟩ := bind_eq_ok.mp h
              cases verified <;> cases h
              rfl
        rw [← hfound]
        refine ⟨?_, ?_⟩
        · rw [not_not.mp hsame]
          exact not_not.mp hkind
        · rw [mappingsOf, hconfig]
          rfl

theorem accepts_outcomeOf {kind event : String} {pathMappings : PyValue} {paths : List String}
    {media : Table MediaFile.path} :
    (∀ path ∈ (outcomeOf kind pathMappings event paths).paths,
        Accepts env media path (outcomeOf kind pathMappings event paths).action) ↔
      ∀ path ∈ paths, Accepts env media (dispatchedPath pathMappings path) (actionOf kind event) := by
  unfold outcomeOf
  by_cases hignored : actionOf kind event = .ignored
  · simp [hignored, Accepts]
  · by_cases hpaths : paths = []
    · simp [hpaths]
    · simp [hignored, hpaths]

theorem dispatchAll_ok_iff {kind : String} {payload pathMappings : PyValue} {w : World}
    {outcome : WebhookOutcome} (hkind : kind ∈ WEBHOOK_RECEIVER_KINDS) :
    (∃ w', dispatchAll env routeContext kind payload pathMappings w = (.ok outcome, w')) ↔
      ∃ event paths, Names env.rt kind payload event paths ∧
        outcomeOf kind pathMappings event paths = outcome ∧
        ∀ path ∈ paths, Accepts env w.media (dispatchedPath pathMappings path)
          (actionOf kind event) := by
  constructor
  · rintro ⟨w', h⟩
    obtain ⟨found, mid, hlift, h⟩ := Call.of_bind_ok h
    obtain ⟨hdispatch, rfl⟩ := lift_eq_ok.mp hlift
    obtain ⟨⟨⟩, after, hhandlers, h⟩ := Call.of_bind_ok h
    cases h
    obtain ⟨event, paths, hnames, rfl⟩ := (dispatch_eq_ok hkind).mp hdispatch
    refine ⟨event, paths, hnames, rfl, ?_⟩
    exact (accepts_outcomeOf env).mp ((handlers_return_iff env).mp ⟨_, _, hhandlers⟩)
  · rintro ⟨event, paths, hnames, rfl, haccepts⟩
    obtain ⟨⟨⟩, after, hhandlers⟩ :=
      (handlers_return_iff env).mpr ((accepts_outcomeOf env).mpr haccepts)
    refine ⟨after, (Call.run_bind_ok (lift_eq_ok.mpr ⟨?_, rfl⟩)).trans (Call.run_bind_ok hhandlers)⟩
    exact (dispatch_eq_ok hkind).mpr ⟨event, paths, hnames, rfl⟩

theorem processed_ok_iff {integration : Integration} {rawBody : List UInt8} {w : World}
    {outcome : WebhookOutcome} (hkind : integration.kind ∈ WEBHOOK_RECEIVER_KINDS)
    (hconfig : integration.config.orDict.get "path_mappings" = .ok (mappingsOf integration)) :
    (∃ w', processed env integration rawBody w = (.ok outcome, w')) ↔
      ∃ payload, Decodes env rawBody payload ∧
        ∃ event paths, Names env.rt integration.kind payload event paths ∧
          outcomeOf integration.kind (mappingsOf integration) event paths = outcome ∧
          ∀ path ∈ paths, Accepts env w.media (dispatchedPath (mappingsOf integration) path)
            (actionOf integration.kind event) := by
  simp only [← dispatchAll_ok_iff env hkind, ← payloadOf_eq_ok]
  constructor
  · rintro ⟨w', h⟩
    obtain ⟨payload, mid, hlift, h⟩ := Call.of_bind_ok h
    obtain ⟨hpayload, rfl⟩ := lift_eq_ok.mp hlift
    obtain ⟨pathMappings, mid, hlift, h⟩ := Call.of_bind_ok h
    obtain ⟨hmappings, rfl⟩ := lift_eq_ok.mp hlift
    rw [hconfig] at hmappings
    cases hmappings
    exact ⟨payload, hpayload, w', h⟩
  · rintro ⟨payload, hpayload, w', h⟩
    exact ⟨w', (Call.run_bind_ok (lift_eq_ok.mpr ⟨hpayload, rfl⟩)).trans
      ((Call.run_bind_ok (lift_eq_ok.mpr ⟨hconfig, rfl⟩)).trans h)⟩

theorem rendered_eq_ok {outcome outcome' : WebhookOutcome} :
    rendered env outcome = .ok outcome' ↔ outcome = outcome' ∧ env.encodes outcome.event = true ∧
      ∀ path ∈ outcome.paths, env.encodes path = true := by
  unfold rendered
  split
  · rename_i h
    rw [List.all_cons, Bool.and_eq_true, List.all_eq_true] at h
    rw [Except.ok.injEq]
    exact (and_iff_left h).symm
  · rename_i h
    rw [List.all_cons, Bool.and_eq_true, List.all_eq_true] at h
    simp [h]

theorem receiveWebhook_ok_iff {kind integrationId : String} {request : Request} {db : Database}
    {integration : Integration} {outcome : WebhookOutcome} {w : World}
    (hpasses : admission env kind integrationId request db.integrations = .ok (.ok integration)) :
    receiveWebhook env kind integrationId request db = (.ok (.ok outcome), w) ↔
      processed env integration request.body (World.opened db.media) = (.ok outcome, w) ∧
        rendered env outcome = .ok outcome := by
  simp only [receiveWebhook, hpasses]
  rcases processed env integration request.body (World.opened db.media) with ⟨e | found, after⟩
  · simp
  · have hmap : (rendered env found).map Except.ok =
          .ok (.ok outcome : Except HttpError WebhookOutcome) ↔ rendered env found = .ok outcome := by
      cases rendered env found <;> simp [Except.map]
    simp only [Prod.mk.injEq, hmap, Except.ok.injEq]
    constructor
    · rintro ⟨hrendered, hafter⟩
      obtain ⟨rfl, -⟩ := (rendered_eq_ok env).mp hrendered
      exact ⟨⟨rfl, hafter⟩, hrendered⟩
    · rintro ⟨⟨rfl, hafter⟩, hrendered⟩
      exact ⟨hrendered, hafter⟩

theorem processed_keeps (integration : Integration) (rawBody : List UInt8) :
    Within Kept (processed env integration rawBody) := by
  have hlift {α : Type} (c : Except PyError α) : Within Kept (lift c) := Kept.refl
  refine within_bind (hlift _) fun payload => within_bind (hlift _) fun pathMappings => ?_
  refine within_bind (hlift _) fun outcome => within_bind ?_ fun _ => within_pure _
  exact handlers_keep env outcome.action outcome.paths

theorem probed_receiveWebhook (kind integrationId : String) (request : Request) (db : Database) :
    (receiveWebhook env kind integrationId request db).2.probed = [] := by
  unfold receiveWebhook
  rcases admission env kind integrationId request db.integrations with e | rejection | integration
  · rfl
  · rfl
  · have hkept := processed_keeps env integration request.body (World.opened db.media)
    simp only
    rcases hrun : processed env integration request.body (World.opened db.media) with
      ⟨e | outcome, w⟩
    all_goals
      rw [hrun] at hkept
      exact hkept.probed

/-- A request past the signature is handled iff its body decodes to a payload that is
    answerable; a file that has a row, is on disk and is to be probed again is not. -/
theorem handled_iff {kind integrationId : String} {request : Request} {db : Database}
    {integration : Integration}
    (hpasses : admission env kind integrationId request db.integrations = .ok (.ok integration)) :
    Handled env kind integrationId request db ↔
      ∃ payload, Decodes env request.body payload ∧
        Answerable env integration db.media payload := by
  obtain ⟨hkind, hconfig⟩ := admission_ok env hpasses
  simp only [Handled, receiveWebhook_ok_iff env hpasses]
  constructor
  · rintro ⟨outcome, w, ⟨hrun, hrendered⟩, -⟩
    obtain ⟨payload, hdecodes, event, paths, hnames, rfl, haccepts⟩ :=
      (processed_ok_iff env hkind hconfig).mp ⟨w, hrun⟩
    obtain ⟨-, hevent, hpaths⟩ := (rendered_eq_ok env).mp hrendered
    rw [event_outcomeOf] at hevent
    rw [paths_outcomeOf, List.forall_mem_map] at hpaths
    refine ⟨payload, hdecodes, (names_iff hkind).mp ⟨event, paths, hnames⟩, ?_, ?_, ?_⟩
    all_goals
      intro event' paths' hnames'
      obtain ⟨rfl, rfl⟩ := names_unique hnames hnames'
      assumption
  · rintro ⟨payload, hdecodes, hshaped, hevent, hreported, haccepted⟩
    obtain ⟨event, paths, hnames⟩ := (names_iff hkind).mpr hshaped
    have haccepts := haccepted event paths hnames
    obtain ⟨w, hrun⟩ := (processed_ok_iff env (w := World.opened db.media) hkind hconfig).mpr
      ⟨payload, hdecodes, event, paths, hnames, rfl, haccepts⟩
    refine ⟨_, w, ⟨hrun, (rendered_eq_ok env).mpr ⟨rfl, ?_, ?_⟩⟩, ?_⟩
    · rw [event_outcomeOf]
      exact hevent event paths hnames
    · rw [paths_outcomeOf, List.forall_mem_map]
      exact hreported event paths hnames
    · intro haction path hpath hrow hdisk
      have haccepted := (accepts_outcomeOf env).mpr haccepts path hpath
      rw [haction] at haccepted
      have hmissing := haccepted.2 hrow
      rw [hdisk] at hmissing
      cases hmissing

end Route

/-! ### Three requests -/

/-- The bytes of an ASCII text. -/
def ascii (s : String) : List UInt8 := s.toList.map fun c => UInt8.ofNat c.toNat

def downloadBody : List UInt8 := ascii
  "\x7b\"eventType\":\"Download\",\"episodeFile\":\x7b\"path\":\"/tv/a.mkv\"\x7d\x7d"

def downloadPayload : PyValue :=
  .dict [("eventType", .str "Download"), ("episodeFile", .dict [("path", .str "/tv/a.mkv")])]

/-- A disk that has every path, and one secret. -/
def sampleEnv : WebhookEnv where
  rt := ⟨fun _ => "None", id⟩
  decryptDict := fun _ => .ok (.dict [("value", .str "secret")])
  hmacSha256 := fun _ body =>
    if body = [] then "f9e66e179b6747ae54108f82f8ade8b3c25d76fd30afde6c395822c530196169"
    else if body = ascii "[]" then "53364a07fcc563e712f42cfc9de1e28e1e2d39f236cee430f112203e557aea3f"
    else "3260973403ab79d19bb44d04c01ef330136c013739edd8ad641b3a08969a5a73"
  ipAddress := fun _ => none
  ipNetwork := fun _ => none
  getaddrinfo := fun _ => []
  loads := fun body =>
    if body = ascii "\x7b\x7d" then .value (.dict [])
    else if body = ascii "[]" then .value (.list [])
    else if body = downloadBody then .value downloadPayload
    else .jsonDecodeError
  pathExists := fun _ => .ok true
  refuses := fun _ => none
  encodes := fun _ => true
  bindText := fun _ => .ok ""

def sonarr : Integration := ⟨"sonarr", "sonarr", .dict [], some "sealed"⟩

/-- One integration and one file. -/
def sampleDb : Database where
  integrations := ⟨[sonarr], List.nodup_singleton _⟩
  media := ⟨[.unprobed "file" "library" "/tv/a.mkv" "mkv"], List.nodup_singleton _⟩

/-- A signed request. -/
def posted (body : List UInt8) : Request :=
  ⟨some "127.0.0.1", some (sampleEnv.hmacSha256 "secret" body), body⟩

/-- Before the file is scanned for the first time. -/
def unscannedDb : Database := { sampleDb with media := .empty }

theorem names_download {event : String} {paths : List String}
    (h : Names sampleEnv.rt "sonarr" downloadPayload event paths) :
    event = "Download" ∧ paths = ["/tv/a.mkv"] :=
  names_unique h ⟨_, rfl, rfl⟩

/-- A body that names a file without a row is answered. -/
theorem handled_iff_download :
    Handled sampleEnv "sonarr" "sonarr" (posted downloadBody) unscannedDb := by
  have hpasses : admission sampleEnv "sonarr" "sonarr" (posted downloadBody)
      unscannedDb.integrations = .ok (.ok sonarr) := rfl
  refine (handled_iff sampleEnv hpasses).mpr
    ⟨downloadPayload, .inl rfl, ⟨_, rfl, ?_, ?_⟩, ?_, ?_, ?_⟩
  · exact fun _ h => absurd h (by decide)
  · exact fun h => absurd h (by decide)
  · exact fun _ _ _ => rfl
  · exact fun _ _ _ _ _ => rfl
  · intro event paths hnames path hpath
    obtain ⟨rfl, rfl⟩ := names_download hnames
    refine ⟨rfl, fun hrow => ?_⟩
    obtain ⟨row, hrow, -⟩ := hrow
    exact absurd hrow (Table.not_mem_empty row)

/-- A body that is a list raises, and so does one that names a file with a row. -/
theorem signed_request_raises :
    (receiveWebhook sampleEnv "sonarr" "sonarr" (posted (ascii "[]")) sampleDb).1 =
      .error (.other "AttributeError") ∧
    (receiveWebhook sampleEnv "sonarr" "sonarr" (posted downloadBody) sampleDb).1 =
      .error (.other "AttributeError") ∧
    ¬∀ env kind integrationId request db integration,
      admission env kind integrationId request db.integrations = .ok (.ok integration) →
        Handled env kind integrationId request db := by
  have hlist : admission sampleEnv "sonarr" "sonarr" (posted (ascii "[]")) sampleDb.integrations =
      .ok (.ok sonarr) := rfl
  have hdownload : admission sampleEnv "sonarr" "sonarr" (posted downloadBody)
      sampleDb.integrations = .ok (.ok sonarr) := rfl
  have hraised : (receiveWebhook sampleEnv "sonarr" "sonarr" (posted downloadBody) sampleDb).1 =
      .error (.other "AttributeError") := by
    simp only [receiveWebhook, hdownload]
    rfl
  refine ⟨?_, hraised, fun h => ?_⟩
  · simp only [receiveWebhook, hlist]
    rfl
  · obtain ⟨outcome, w, hrun, -⟩ :=
      h sampleEnv "sonarr" "sonarr" (posted downloadBody) sampleDb sonarr hdownload
    rw [hrun] at hraised
    cases hraised

end WebhookReceiver
