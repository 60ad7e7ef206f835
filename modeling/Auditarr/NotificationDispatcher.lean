/-
  Auditarr/NotificationDispatcher.lean
  ====================================
  **Where an alert goes** (`app/notifications/dispatcher.py`, `manager.py`).

  An alert is offered to every enabled channel in the order of their names.  A channel
  whose threshold the severity does not reach is logged as skipped, every other one is
  handed to the provider of its kind.  The channel that a rule names travels along in the
  context and decides nothing.

  Providers and the template engine come from outside; what they do is a parameter.
-/
import Auditarr.NotifyRequests

namespace NotificationDispatcher

open Effects Transactions KeyedTable RuleSchema RuleEvaluator Database RulesService

/-! ### Channels and deliveries -/

/-- The `config` of a channel. -/
structure ChannelOptions where
  subjectTemplate : Option String
  bodyTemplate : Option String
  options : List (String × String)
deriving DecidableEq

structure NotificationChannel where
  id : String
  name : String
  kind : String
  enabled : Bool
  config : ChannelOptions
  secretsCiphertext : Option String
  minSeverityRank : Int
  lastDeliveryStatus : Option String
  lastDeliveryAt : Option Nat
  lastDeliveryError : Option String
deriving DecidableEq

/-- The `context` of `dispatch`. -/
structure DispatchContext where
  path : String
  filename : String
  channel : String
  autoDelete : Bool
deriving DecidableEq

structure NotificationDelivery where
  id : String
  channelId : String
  channelName : String
  channelKind : String
  status : String
  severity : Severity
  subject : String
  body : String
  context : DispatchContext
  attemptedAt : Nat
  completedAt : Option Nat
  durationMs : Option Nat
  error : Option String
deriving DecidableEq

structure ChannelTables where
  channels : Table NotificationChannel.id
  name_unique : (channels.rows.map (·.name)).Nodup
  deliveries : List NotificationDelivery

def ChannelTables.addDelivery (t : ChannelTables) (delivery : NotificationDelivery) :
    ChannelTables :=
  { t with deliveries := t.deliveries ++ [delivery] }

/-- The attributes of a delivery that are set when it is over. -/
def ChannelTables.finishDelivery (t : ChannelTables) (delivery : NotificationDelivery) :
    ChannelTables :=
  { t with deliveries := t.deliveries.map fun d => if d.id = delivery.id then delivery else d }

def NotificationChannel.noted (status : String) (at_ : Nat) (error : Option String)
    (channel : NotificationChannel) : NotificationChannel :=
  { channel with
    lastDeliveryStatus := some status
    lastDeliveryAt := some at_
    lastDeliveryError := error }

/-- The latest delivery, mirrored onto the channel. -/
def ChannelTables.noteDelivery (t : ChannelTables) (channelId status : String) (at_ : Nat)
    (error : Option String) : ChannelTables :=
  { t with
    channels := t.channels.update (fun channel => channel.id = channelId)
      (·.noted status at_ error) fun _ => rfl
    name_unique := by
      have hsame : (fun channel : NotificationChannel => channel.name) ∘
          (fun channel => if decide (channel.id = channelId) then channel.noted status at_ error
            else channel) = (·.name) := by
        funext channel
        by_cases h : channel.id = channelId <;> simp [h, NotificationChannel.noted]
      simpa only [Table.update, List.map_map, hsame] using t.name_unique }

def byName (a b : NotificationChannel) : Prop := a.name ≤ b.name

instance : DecidableRel byName := fun a b => inferInstanceAs (Decidable (a.name ≤ b.name))

/-- `NotificationChannelRepository.list_all(enabled_only=True)`. -/
def enabledChannels (t : ChannelTables) : List NotificationChannel :=
  (t.channels.rows.filter (·.enabled)).insertionSort byName

/-! ### Messages -/

/-- The variables of a template. -/
structure Variables where
  severity : Severity
  severityRank : Nat
  ruleId : String
  ruleName : String
  mediaFileId : String
  path : String
  filename : String
  libraryName : String
  message : String
  time : Nat
  autoDelete : Bool
deriving DecidableEq

/-- `_variables`. -/
def variablesOf (request : DispatchRequest) (rank now : Nat) : Variables where
  severity := request.severity
  severityRank := rank
  ruleId := request.ruleId
  ruleName := if request.ruleName = "" then "(unnamed rule)" else request.ruleName
  mediaFileId := request.mediaFileId
  path := request.path
  filename := request.filename
  -- the rules service does not look the library up
  libraryName := ""
  message := request.messageOverride.getD ""
  time := now
  autoDelete := request.autoDelete

def contextOf (request : DispatchRequest) : DispatchContext where
  path := request.path
  filename := request.filename
  channel := request.channel
  autoDelete := request.autoDelete

structure NotificationMessage where
  subject : String
  body : String
  severity : Severity
  severityRank : Nat
  context : DispatchContext
deriving DecidableEq

structure ChannelConfig where
  channelId : String
  name : String
  kind : String
  options : ChannelOptions
  secrets : List (String × String)
deriving DecidableEq

structure DeliveryReport where
  status : String
  detail : Option String
deriving DecidableEq

/-- A provider; an exception of `send` is kept as its text. -/
structure ChannelProvider where
  kind : String
  send : ChannelConfig → NotificationMessage → Except String DeliveryReport

inductive RenderError where
  | template
  | other

/-- A call of a provider. -/
structure Contact where
  config : ChannelConfig
  message : NotificationMessage
deriving DecidableEq

structure DeliveryEvent where
  name : String
  deliveryId : String
  channelId : String
  channelKind : String
  status : String
  severity : Severity
  durationMs : Nat
deriving DecidableEq

/-- What a dispatch changes besides the database. -/
structure DispatchWorld where
  contacted : List Contact
  events : List DeliveryEvent

inductive DispatchError where
  | database (e : DatabaseError)
  | pendingRollback
  | missingGreenlet
  | render
  | secretBox

structure DispatchEnv where
  faultAt : Nat → Option (Fault DatabaseError)
  clock : Nat → Nat
  newId : Nat → String
  elapsedMs : Nat → Nat
  /-- Jinja2: a template over the variables. -/
  render : String → Variables → Except RenderError String
  /-- The built-in providers and those of plugins, in the order they are asked. -/
  providers : List ChannelProvider
  decrypt : String → Option (List (String × String))
  bus : Bool

def DispatchEnv.db (env : DispatchEnv) : Environment DispatchError where
  faultAt n := (env.faultAt n).map fun fault => ⟨.database fault.error, fault.aborts⟩
  pendingRollback := .pendingRollback
  missingGreenlet := .missingGreenlet

abbrev Dispatching (α : Type) := Call (Session ChannelTables DispatchWorld) DispatchError α

def DEFAULT_SUBJECT : String :=
  "[Auditarr] \x7b\x7b severity|upper \x7d\x7d · \x7b\x7b rule_name \x7d\x7d"

def DEFAULT_BODY : String :=
  "\x7b\x7b rule_name \x7d\x7d matched \x7b\x7b filename \x7d\x7d " ++
  "(severity \x7b\x7b severity \x7d\x7d).\n\n" ++
  "File: \x7b\x7b path \x7d\x7d\nLibrary: \x7b\x7b library_name \x7d\x7d\n" ++
  "\x7b% if auto_delete %\x7d\n\n" ++
  "[Auto-delete] No action required — the file is being deleted by this rule.\n" ++
  "\x7b% endif %\x7d\n\x7b% if message %\x7d\n\n" ++
  "\x7b\x7b message \x7d\x7d\n\x7b% endif %\x7d\n"

section Dispatch

variable (env : DispatchEnv)

/-- `render_subject` and `render_body`: a broken template falls back to the default. -/
def renderOr (default_ : String) (template : Option String) (vars : Variables) :
    Except RenderError String :=
  let source := match template with
    | some text => if text = "" then default_ else text
    | none => default_
  match env.render source vars with
  | .error .template => env.render default_ vars
  | rendered => rendered

def rendered (result : Except RenderError String) : Dispatching String :=
  match result with
  | .ok text => pure text
  | .error _ => Call.raise .render

/-- `text[:n]`. -/
def truncate (n : Nat) (text : String) : String := String.ofList (text.toList.take n)

def utcnow : Dispatching Nat := Call.read fun s => env.clock s.calls

/-- `NotificationDeliveryRepository.add`. -/
def addDelivery (delivery : NotificationDelivery) : Dispatching Unit := do
  edit (·.addDelivery delivery)
  flush env.db

def providerFor (kind : String) : Option ChannelProvider :=
  env.providers.find? fun provider => provider.kind = kind

/-- `build_config`. -/
def buildConfig (channel : NotificationChannel) : Dispatching ChannelConfig :=
  let config := ChannelConfig.mk channel.id channel.name channel.kind channel.config
  match channel.secretsCiphertext with
  | none => pure (config [])
  | some ciphertext =>
      if ciphertext = "" then pure (config [])
      else match env.decrypt ciphertext with
        | some secrets => pure (config secrets)
        | none => Call.raise .secretBox

/-- `NotificationManager.send`.  The configuration is built outside the `try`. -/
def send (channel : NotificationChannel) (message : NotificationMessage) :
    Dispatching DeliveryReport :=
  match providerFor env channel.kind with
  | none => pure ⟨"failed", some s!"No provider registered for kind='{channel.kind}'"⟩
  | some provider => do
      let config ← buildConfig env channel
      outside fun o => { o with contacted := o.contacted ++ [⟨config, message⟩] }
      match provider.send config message with
      | .ok report => return report
      | .error text => return ⟨"failed", some (truncate 500 text)⟩

/-- A delivery that has not been attempted yet. -/
def pendingDelivery (channel : NotificationChannel) (request : DispatchRequest)
    (id subject body : String) (now : Nat) : NotificationDelivery where
  id := id
  channelId := channel.id
  channelName := channel.name
  channelKind := channel.kind
  status := "pending"
  severity := request.severity
  subject := truncate 255 subject
  body := body
  context := contextOf request
  attemptedAt := now
  completedAt := none
  durationMs := none
  error := none

/-- `_deliver_one`. -/
def deliverOne (request : DispatchRequest) (rank now : Nat) (vars : Variables)
    (channel : NotificationChannel) : Dispatching NotificationDelivery := do
  let subject ← rendered (renderOr env DEFAULT_SUBJECT channel.config.subjectTemplate vars)
  let body ← rendered (renderOr env DEFAULT_BODY channel.config.bodyTemplate vars)
  let id ← Call.read fun s => env.newId s.calls
  let pending := pendingDelivery channel request id subject body now
  if (rank : Int) < channel.minSeverityRank then do
    let skipped :=
      { pending with status := "skipped", completedAt := some now, durationMs := some 0 }
    addDelivery env skipped
    return skipped
  else do
    addDelivery env pending
    let report ← send env channel
      ⟨pending.subject, pending.body, request.severity, rank, contextOf request⟩
    let elapsed ← Call.read fun s => env.elapsedMs s.calls
    let completedAt ← utcnow env
    let failure := if report.status = "failed" then report.detail else none
    let delivery :=
      { pending with
        status := report.status, completedAt := some completedAt, durationMs := some elapsed,
        error := failure }
    edit fun t =>
      (t.finishDelivery delivery).noteDelivery channel.id report.status completedAt failure
    flush env.db
    Call.when env.bus <| outside fun o =>
      { o with events := o.events ++
        [⟨if report.status = "sent" then "notification.sent" else "notification.failed",
          delivery.id, channel.id, channel.kind, report.status, request.severity, elapsed⟩] }
    return delivery

/-- What `dispatch` did across all channels. -/
structure DispatchReport where
  deliveryIds : List String
  sent : Nat
  failed : Nat
  skipped : Nat
deriving DecidableEq

def DispatchReport.count (report : DispatchReport) (delivery : NotificationDelivery) :
    DispatchReport where
  deliveryIds := report.deliveryIds ++ [delivery.id]
  sent := report.sent + if delivery.status = "sent" then 1 else 0
  failed := report.failed + if delivery.status = "failed" then 1 else 0
  skipped := report.skipped + if delivery.status = "skipped" then 1 else 0

/-- `NotificationDispatcher.dispatch`. -/
def dispatch (request : DispatchRequest) : Dispatching DispatchReport := do
  let rank := SEVERITY_LEVELS request.severity
  let now ← utcnow env
  let vars := variablesOf request rank now
  let channels ← select env.db enabledChannels
  Call.foldEach (fun (report : DispatchReport) channel => do
    let delivery ← deliverOne env request rank now vars channel
    return report.count delivery) ⟨[], 0, 0, 0⟩ channels

end Dispatch

/-! ### Who is reached -/

/-- The channels that an alert of this rank is handed to. -/
def addressed (env : DispatchEnv) (rank : Nat) (channels : List NotificationChannel) :
    List NotificationChannel :=
  channels.filter fun channel =>
    decide (channel.minSeverityRank ≤ rank) && (providerFor env channel.kind).isSome

/-- What was handed to providers since `base`: the request, once for each of these
    channels. -/
def Reaches (request : DispatchRequest) (base : List Contact) (ids : List String)
    (contacted : List Contact) : Prop :=
  ∃ new, contacted = base ++ new ∧ new.map (·.config.channelId) = ids ∧
    ∀ contact ∈ new, contact.message.severity = request.severity ∧
      contact.message.context = contextOf request

/-- The same for a part of the channels, from the first one on. -/
def ReachesUpTo (request : DispatchRequest) (base : List Contact) (ids : List String)
    (contacted : List Contact) : Prop :=
  ∃ part, part <+: ids ∧ Reaches request base part contacted

section Reached

variable {env : DispatchEnv} {request : DispatchRequest} {base contacted : List Contact}
  {ids ids' : List String} {α β : Type}

theorem Reaches.start : Reaches request base [] base :=
  ⟨[], by simp, rfl, List.forall_mem_nil _⟩

theorem Reaches.append {more : List Contact} (h : Reaches request base ids contacted)
    (h' : Reaches request contacted ids' more) : Reaches request base (ids ++ ids') more := by
  obtain ⟨new, hnew, hids, hmessages⟩ := h
  obtain ⟨new', hnew', hids', hmessages'⟩ := h'
  refine ⟨new ++ new', by rw [hnew', hnew, List.append_assoc],
    by rw [List.map_append, hids, hids'], fun contact hcontact => ?_⟩
  rcases List.mem_append.mp hcontact with hmem | hmem
  · exact hmessages contact hmem
  · exact hmessages' contact hmem

theorem Reaches.upTo (h : Reaches request base ids contacted) (hpart : ids <+: ids') :
    ReachesUpTo request base ids' contacted :=
  ⟨ids, hpart, h⟩

theorem ReachesUpTo.after {more : List Contact} (h : Reaches request base ids contacted)
    (h' : ReachesUpTo request contacted ids' more) : ReachesUpTo request base (ids ++ ids') more := by
  obtain ⟨part, hpart, hreaches⟩ := h'
  exact ⟨ids ++ part, (List.prefix_append_right_inj ids).mpr hpart, h.append hreaches⟩

theorem ReachesUpTo.mono (h : ReachesUpTo request base ids contacted) (hids : ids <+: ids') :
    ReachesUpTo request base ids' contacted := by
  obtain ⟨part, hpart, hreaches⟩ := h
  exact ⟨part, hpart.trans hids, hreaches⟩

/-- Nobody was contacted. -/
def SameContacts (s s' : Session ChannelTables DispatchWorld) : Prop :=
  s'.world.contacted = s.world.contacted

instance : Std.Refl SameContacts := ⟨fun _ => rfl⟩

instance : IsTrans (Session ChannelTables DispatchWorld) SameContacts :=
  ⟨fun _ _ _ hab hbc => hbc.trans hab⟩

/-- A call that contacts nobody. -/
def Still (c : Dispatching α) : Prop := Within SameContacts c

theorem Still.bind {c : Dispatching α} {k : α → Dispatching β} (hc : Still c)
    (hk : ∀ a, Still (k a)) : Still (c >>= k) :=
  within_bind hc hk

theorem still_pure (a : α) : Still (pure a : Dispatching α) := within_pure a

theorem still_read (f : Session ChannelTables DispatchWorld → α) : Still (Call.read f) :=
  within_read f

theorem still_contact (fatal : Bool) : Still (contact env.db fatal) := by
  intro s
  unfold SameContacts
  rcases contact_cases env.db fatal s with ⟨e, h⟩ | ⟨-, h⟩ | ⟨e, h⟩ | ⟨e, h⟩ <;>
    simp only [h, Session.reverted]

theorem still_select (env : DispatchEnv) (query : ChannelTables → α) : Still (select env.db query) :=
  (still_contact false).bind fun _ => still_read _

theorem still_edit (change : ChannelTables → ChannelTables) : Still (edit change) := fun _ => rfl

theorem still_addDelivery (delivery : NotificationDelivery) : Still (addDelivery env delivery) :=
  (still_edit _).bind fun _ => still_contact true

theorem still_rendered (result : Except RenderError String) : Still (rendered result) := by
  cases result with
  | ok text => exact still_pure text
  | error e => exact within_raise _

theorem Still.triple {c : Dispatching α} (hc : Still c) (K : List Contact → Prop) :
    Triple (fun s => K s.world.contacted) c (fun _ s => K s.world.contacted)
      fun _ s => K s.world.contacted := by
  intro s hs
  have hsame : (c s).2.world.contacted = s.world.contacted := hc s
  exact ends_const (by rw [hsame]; exact hs) _

theorem triple_buildConfig (channel : NotificationChannel) (K : List Contact → Prop) :
    Triple (fun s => K s.world.contacted) (buildConfig env channel)
      (fun config s => config.channelId = channel.id ∧ K s.world.contacted)
      fun _ s => K s.world.contacted := by
  unfold buildConfig
  cases channel.secretsCiphertext with
  | none => exact triple_pure _ fun _ hs => ⟨rfl, hs⟩
  | some ciphertext =>
    by_cases hempty : ciphertext = ""
    · simp only [hempty, if_true]
      exact triple_pure _ fun _ hs => ⟨rfl, hs⟩
    · simp only [hempty, if_false]
      cases env.decrypt ciphertext with
      | none => exact fun _ hs => hs
      | some secrets => exact triple_pure _ fun _ hs => ⟨rfl, hs⟩

theorem triple_send (channel : NotificationChannel) (message : NotificationMessage)
    (hseverity : message.severity = request.severity) (hcontext : message.context = contextOf request)
    (base : List Contact) :
    Triple (fun s => s.world.contacted = base) (send env channel message)
      (fun _ s => Reaches request base
        (if (providerFor env channel.kind).isSome then [channel.id] else []) s.world.contacted)
      fun _ s => s.world.contacted = base := by
  unfold send
  cases hprovider : providerFor env channel.kind with
  | none => exact triple_pure _ fun s hs => by rw [hs]; exact Reaches.start
  | some provider =>
    refine (triple_buildConfig channel (· = base)).bind fun config => Triple.assuming fun hid => ?_
    refine Triple.bind (M := fun _ s => Reaches request base [channel.id] s.world.contacted) ?_
      fun _ => ?_
    · intro s hs
      refine ⟨[⟨config, message⟩], by rw [← hs]; rfl, by simp [hid], fun contact hcontact => ?_⟩
      rw [List.mem_singleton.mp hcontact]
      exact ⟨hseverity, hcontext⟩
    · cases provider.send config message with
      | ok report => exact triple_pure _ fun _ hs => hs
      | error text => exact triple_pure _ fun _ hs => hs

theorem addressed_singleton (rank : Nat) (channel : NotificationChannel) :
    (addressed env rank [channel]).map (·.id) =
      if (rank : Int) < channel.minSeverityRank then []
      else if (providerFor env channel.kind).isSome then [channel.id] else [] := by
  by_cases hlow : (rank : Int) < channel.minSeverityRank
  · simp [addressed, hlow]
  · cases hprovider : (providerFor env channel.kind).isSome <;>
      simp [addressed, hlow, hprovider, not_lt.mp hlow]

theorem triple_deliverOne (env : DispatchEnv) (request : DispatchRequest) (rank now : Nat) (vars : Variables) (channel : NotificationChannel)
    (base : List Contact) :
    Triple (fun s => s.world.contacted = base) (deliverOne env request rank now vars channel)
      (fun _ s => Reaches request base ((addressed env rank [channel]).map (·.id)) s.world.contacted)
      fun _ s =>
        ReachesUpTo request base ((addressed env rank [channel]).map (·.id)) s.world.contacted := by
  rw [addressed_singleton]
  have hnobody : ∀ ids : List String, ReachesUpTo request base ids base := fun ids =>
    Reaches.start.upTo List.nil_prefix
  have hstill : ∀ {γ : Type} {c : Dispatching γ} {ids : List String}, Still c →
      Triple (fun s => s.world.contacted = base) c (fun _ s => s.world.contacted = base)
        fun _ s => ReachesUpTo request base ids s.world.contacted := by
    intro γ c ids hc
    refine (hc.triple (· = base)).consequence (fun _ hs => hs) (fun _ _ hs => hs) fun _ s hs => ?_
    rw [hs]
    exact hnobody ids
  refine (hstill (still_rendered _)).bind fun subject => ?_
  refine (hstill (still_rendered _)).bind fun body => (hstill (still_read _)).bind fun id => ?_
  by_cases hlow : (rank : Int) < channel.minSeverityRank
  · simp only [hlow, if_true]
    refine (hstill (still_addDelivery _)).bind fun _ => triple_pure _ fun s hs => ?_
    rw [hs]
    exact Reaches.start
  · simp only [hlow, if_false]
    refine (hstill (still_addDelivery _)).bind fun _ => ?_
    refine ((triple_send channel _ rfl rfl base).consequence (fun _ hs => hs) (fun _ _ hs => hs)
      fun _ s hs => by rw [hs]; exact hnobody _).bind fun report => ?_
    -- the rest writes down what happened
    refine ((Still.triple ?_ _).consequence (fun _ hs => hs) (fun _ _ hs => hs) fun _ _ hs =>
      hs.upTo List.prefix_rfl)
    refine (still_read _).bind fun elapsed => (still_read _).bind fun completedAt =>
      (still_edit _).bind fun _ => (still_contact true).bind fun _ =>
        Still.bind (within_when fun _ _ => rfl) fun _ => still_pure _

theorem addressed_append (env : DispatchEnv) (rank : Nat) (done rest : List NotificationChannel) :
    (addressed env rank (done ++ rest)).map (·.id) =
      (addressed env rank done).map (·.id) ++ (addressed env rank rest).map (·.id) := by
  rw [addressed, List.filter_append, List.map_append]
  rfl

theorem triple_fanOut (env : DispatchEnv) (request : DispatchRequest) (rank now : Nat)
    (vars : Variables) (channels : List NotificationChannel) (start : DispatchReport)
    (base : List Contact) :
    Triple (fun s => s.world.contacted = base)
      (Call.foldEach (fun (report : DispatchReport) channel => do
        let delivery ← deliverOne env request rank now vars channel
        return report.count delivery) start channels)
      (fun _ s => Reaches request base ((addressed env rank channels).map (·.id)) s.world.contacted)
      fun _ s =>
        ReachesUpTo request base ((addressed env rank channels).map (·.id)) s.world.contacted := by
  refine Triple.consequence (Triple.foldEach (I := fun done _ s =>
    Reaches request base ((addressed env rank done).map (·.id)) s.world.contacted) start channels ?_)
    (fun s hs => by rw [hs]; exact Reaches.start) (fun _ _ hs => hs) (fun _ _ hs => hs)
  intro done channel rest report hsplit s hs
  have hone := Triple.bind (Q := fun _ s' => Reaches request s.world.contacted
      ((addressed env rank [channel]).map (·.id)) s'.world.contacted)
    (triple_deliverOne env request rank now vars channel s.world.contacted)
    (fun delivery => triple_pure (report.count delivery) fun _ h => h) s rfl
  refine hone.imp (fun _ hreaches => ?_) fun _ hupTo => ?_
  · rw [addressed_append]
    exact hs.append hreaches
  · refine (hupTo.after hs).mono ?_
    rw [hsplit, List.append_cons, addressed_append env rank (done ++ [channel]) rest,
      addressed_append env rank done]
    exact List.prefix_append _ _

/-- An alert that is dispatched reaches the addressed channels in their order, and all of
    them if the dispatch returns. -/
theorem dispatch_reaches (env : DispatchEnv) (request : DispatchRequest)
    (s : Session ChannelTables DispatchWorld) :
    Ends
      (fun _ => Reaches request s.world.contacted
        ((addressed env (SEVERITY_LEVELS request.severity)
          (enabledChannels s.working)).map (·.id)) (dispatch env request s).2.world.contacted)
      (fun _ => ReachesUpTo request s.world.contacted
        ((addressed env (SEVERITY_LEVELS request.severity)
          (enabledChannels s.working)).map (·.id)) (dispatch env request s).2.world.contacted)
      (dispatch env request s).1 := by
  have hselect := still_select env enabledChannels s
  have hrun : dispatch env request s = (select env.db enabledChannels >>= fun channels =>
      Call.foldEach (fun (report : DispatchReport) channel => do
        let delivery ← deliverOne env request (SEVERITY_LEVELS request.severity) (env.clock s.calls)
          (variablesOf request (SEVERITY_LEVELS request.severity) (env.clock s.calls)) channel
        return report.count delivery) ⟨[], 0, 0, 0⟩ channels : Dispatching DispatchReport) s := rfl
  rw [hrun]
  rcases hchannels : select env.db enabledChannels s with ⟨e | channels, s'⟩
  · rw [Call.run_bind_error hchannels]
    rw [hchannels] at hselect
    refine Reaches.upTo ?_ List.nil_prefix
    rw [show s'.world.contacted = s.world.contacted from hselect]
    exact Reaches.start
  · rw [Call.run_bind_ok hchannels, (select_returned hchannels).1]
    rw [hchannels] at hselect
    exact triple_fanOut env request _ _ _ (enabledChannels s.working) _ s.world.contacted s' hselect

end Reached

/-! ### From the action to the channels -/

theorem messageIn_names {rt : PyValues.PyRuntime} {m : MediaFile} {input : EvaluationInput}
    {rules : List (Rule × RuleDefinition)} {request : DispatchRequest}
    (h : NotifyRequests.MessageIn rt m input rules request) :
    ∃ entry ∈ rules, NotifyRequests.Matches rt input entry.2 ∧
      ∃ notification ∈ NotifyRequests.notificationsOf entry.2.actions,
        request.ruleId = entry.1.id ∧ request.channel = notification.channel := by
  obtain ⟨done, entry, rest, rfl, -, hmatches, notification, hnotification, rfl⟩ := h
  rw [NotifyRequests.notifications_outcome hmatches] at hnotification
  exact ⟨entry, by simp, hmatches, notification, hnotification, rfl, rfl⟩

theorem addressed_spec (env : DispatchEnv) (rank : Nat) (t : ChannelTables) :
    ((addressed env rank (enabledChannels t)).map (·.id)).Nodup ∧
      ∀ channel, channel ∈ addressed env rank (enabledChannels t) ↔
        channel ∈ t.channels ∧ channel.enabled = true ∧ channel.minSeverityRank ≤ rank ∧
          (providerFor env channel.kind).isSome = true := by
  constructor
  · refine List.Nodup.sublist (List.Sublist.map _ List.filter_sublist) ?_
    refine ((List.perm_insertionSort byName _).map _).nodup_iff.mpr ?_
    exact t.channels.unique.sublist (List.Sublist.map _ List.filter_sublist)
  · intro channel
    simp [addressed, enabledChannels, Table.mem_def, and_assoc]

/-- A channel of a kind that always answers. -/
def echoChannel (id name : String) : NotificationChannel where
  id := id
  name := name
  kind := "echo"
  enabled := true
  config := ⟨none, none, []⟩
  secretsCiphertext := none
  minSeverityRank := 0
  lastDeliveryStatus := none
  lastDeliveryAt := none
  lastDeliveryError := none

def twoChannels : ChannelTables where
  channels := ⟨[echoChannel "c1" "ops", echoChannel "c2" "family"], by decide⟩
  name_unique := by decide
  deliveries := []

/-- Nothing fails and every template is rendered as it stands. -/
def echoEnv : DispatchEnv where
  faultAt _ := none
  clock := id
  newId n := toString n
  elapsedMs _ := 0
  render template _ := .ok template
  providers := [⟨"echo", fun _ _ => .ok ⟨"sent", none⟩⟩]
  decrypt _ := none
  bus := false

def freshDispatch (t : ChannelTables) : Session ChannelTables DispatchWorld :=
  .opened t ⟨[], []⟩ 0

/-- The message of the rule that announces every `avi` file on the channel `ops`. -/
def opsRequest : DispatchRequest :=
  NotifyRequests.requestOf NotifyRequests.aviFile (storedRule "r1" NotifyRequests.announceAvi)
    NotifyRequests.announceAvi .warn ⟨"ops", none, none⟩

end NotificationDispatcher
