/-
  Auditarr/RoutedPoller.lean
  ==========================
  **The poller of routed transcodes** (`app/optimization/poller.py`).

  Every item that was handed to a provider is asked after.  What the provider answers is the
  status of the item, and an exception leaves the item where it is.  The commits are taken to
  succeed.

  So an item of a Plex server is completed only when `get_transcode_job_status` says so
  (`completed_of_after`), and that says so of a body that is neither JSON nor XML.  `sound_iff`
  says which answers are read right.
-/
import Auditarr.PlexOptimize

namespace RoutedPoller

open PyValues Database PlexOptimize
open OptimizationWorker (orText)

/-! ### Items and providers -/

/-- An item, with the entries of `item_metadata` the poller writes. -/
structure RoutedItem extends OptimizationItem where
  completedAt : Option Nat
  completedDetail : Option String
  failedAt : Option Nat
  failedDetail : Option String

structure RoutedEvent where
  name : String
  itemId : String
  profile : String
  upstreamJobId : Option String
  integrationId : Option String
  /-- `detail`, or `error` where the job failed. -/
  detail : String

structure PollReport where
  checked : Nat
  completed : Nat
  failed : Nat
  stillRunning : Nat
  errored : Nat

/-- What a polled item is counted as. -/
inductive Tally where
  | completed | failed | stillRunning | errored

def PollReport.count (report : PollReport) : Tally → PollReport
  | .completed => { report with checked := report.checked + 1, completed := report.completed + 1 }
  | .failed => { report with checked := report.checked + 1, failed := report.failed + 1 }
  | .stillRunning =>
      { report with checked := report.checked + 1, stillRunning := report.stillRunning + 1 }
  | .errored => { report with checked := report.checked + 1, errored := report.errored + 1 }

structure JobProvider where
  /-- `get_transcode_job_status`, for a provider that has it: what it answers when it is asked
      for an item, by the id of the job. -/
  getTranscodeJobStatus : Option (String → String → Except PyError TranscodeJobStatus)

structure PollEnv where
  now : Nat
  eventBus : Bool
  /-- `repr` of a string. -/
  repr : String → String
  integration : String → Option Integration
  providerFor : String → Option JobProvider
  /-- `build_config`, which raises for secrets that cannot be decrypted. -/
  buildConfig : Integration → Except PyError Unit

/-- The Plex provider, with the replies it gets when it is asked for an item. -/
def plexProvider (rt : OptimizeRuntime) (replies : String → Reply) : JobProvider :=
  ⟨some fun itemId upstreamJobId => getTranscodeJobStatus rt upstreamJobId (replies itemId)⟩

/-! ### A poll -/

/-- What a poll makes of an item. -/
structure Polled where
  item : RoutedItem
  tally : Tally
  event : Option RoutedEvent

section Poll

variable (env : PollEnv) (item : RoutedItem)

def event (name detail : String) : Option RoutedEvent :=
  if env.eventBus then
    some ⟨name, item.id, item.profile, item.itemMetadata.upstreamJobId,
      item.itemMetadata.integrationId, detail⟩
  else none

def markCompleted (detail : String) : Polled where
  item :=
    { item with
      status := .completed
      finishedAt := some env.now
      progressPct := 100
      completedAt := some env.now
      completedDetail := some detail }
  tally := .completed
  event := event env item "optimization.routed_completed" detail

def markFailed (detail : String) : Polled where
  item :=
    { item with
      status := .failed
      finishedAt := some env.now
      error := some (String.ofList (detail.toList.take 2000))
      failedAt := some env.now
      failedDetail := some detail }
  tally := .failed
  event := event env item "optimization.routed_failed" detail

/-- The status of the job as that of the item. -/
def applyStatus (status : TranscodeJobStatus) : Polled :=
  match status.status with
  | .completed => markCompleted env item (orText status.detail "provider reports completed")
  | .failed => markFailed env item (orText status.detail "provider reports failed")
  | .running | .pending => match status.progressPct with
    | none => ⟨item, .stillRunning, none⟩
    | some pct => ⟨{ item with progressPct := (max 0 (min 100 pct)).toNat }, .stillRunning, none⟩
  | .unknown => ⟨item, .stillRunning, none⟩

/-- `_poll_one`. -/
def pollOne : Except PyError Polled :=
  match item.itemMetadata.upstreamJobId.filter (· ≠ ""),
      item.itemMetadata.integrationId.filter (· ≠ "") with
  | some upstreamJobId, some integrationId => match env.integration integrationId with
    | none => .ok (markFailed env item ("polled integration_id=" ++ env.repr integrationId ++
        " no longer exists; treating as failed"))
    | some integration =>
        match env.providerFor integration.kind >>= JobProvider.getTranscodeJobStatus with
        | none => .ok ⟨item, .errored, none⟩
        | some status => do
            env.buildConfig integration
            let status ← status item.id upstreamJobId
            return applyStatus env item status
  | _, _ => .ok ⟨item, .errored, none⟩

/-- A turn of the loop: what raises is counted, and leaves the item as it is. -/
def pollItem : Polled :=
  match pollOne env item with
  | .ok polled => polled
  | .error _ => ⟨item, .errored, none⟩

end Poll

/-! ### A pass -/

structure Pass where
  items : List RoutedItem
  report : PollReport
  events : List RoutedEvent

def Pass.start : Pass := ⟨[], ⟨0, 0, 0, 0, 0⟩, []⟩

section Pass

variable (env : PollEnv)

/-- The next row: one that is not routed is passed over. -/
def pollNext (pass : Pass) (item : RoutedItem) : Pass :=
  if item.status = .routed then
    { items := pass.items ++ [(pollItem env item).item]
      report := pass.report.count (pollItem env item).tally
      events := pass.events ++ (pollItem env item).event.toList }
  else { pass with items := pass.items ++ [item] }

def pollRoutedTranscodes (items : List RoutedItem) : Pass := items.foldl (pollNext env) .start

/-- The row after a pass. -/
def after (item : RoutedItem) : RoutedItem :=
  if item.status = .routed then (pollItem env item).item else item

variable {env}

theorem pollNext_items (pass : Pass) (item : RoutedItem) :
    (pollNext env pass item).items = pass.items ++ [after env item] := by
  unfold pollNext after
  split <;> rfl

theorem foldl_pollNext_items (items : List RoutedItem) (pass : Pass) :
    (items.foldl (pollNext env) pass).items = pass.items ++ items.map (after env) := by
  induction items generalizing pass with
  | nil => simp
  | cons item rest ih =>
    rw [List.foldl_cons, ih, pollNext_items, List.map_cons, List.append_assoc]
    rfl

theorem pollRoutedTranscodes_items (items : List RoutedItem) :
    (pollRoutedTranscodes env items).items = items.map (after env) := by
  rw [pollRoutedTranscodes, foldl_pollNext_items]
  rfl

/-- Every item that is checked is counted once. -/
def PollReport.Balanced (report : PollReport) : Prop :=
  report.checked = report.completed + report.failed + report.stillRunning + report.errored

theorem PollReport.Balanced.count {report : PollReport} (h : report.Balanced) (tally : Tally) :
    (report.count tally).Balanced := by
  unfold Balanced at *
  cases tally <;> simp only [PollReport.count] <;> omega

theorem pollRoutedTranscodes_balanced (items : List RoutedItem) :
    (pollRoutedTranscodes env items).report.Balanced := by
  have hfold : ∀ pass : Pass, pass.report.Balanced →
      (items.foldl (pollNext env) pass).report.Balanced := by
    induction items with
    | nil => exact fun pass h => h
    | cons item rest ih =>
      intro pass h
      apply ih
      unfold pollNext
      split
      · exact h.count _
      · exact h
  exact hfold .start rfl

end Pass

/-! ### The promise -/

section Promise

variable (rt : OptimizeRuntime) (job : PlexJob) (reply : Reply)

/-- The answer is a listing of the queue without the key of the job. -/
def Gone : Prop := ∃ keys, listed rt reply = some keys ∧ job.ratingKey ∉ keys

/-- The item is routed with this job, to a Plex server that replies this. -/
def Polls (env : PollEnv) (item : RoutedItem) : Prop :=
  item.status = .routed ∧ item.itemMetadata.upstreamJobId = some job.id ∧
    ∃ integrationId integration replies, item.itemMetadata.integrationId = some integrationId ∧
      env.integration integrationId = some integration ∧
      env.providerFor integration.kind = some (plexProvider rt replies) ∧ replies item.id = reply

/-- What is promised of a job and the reply to the request for the queue. -/
structure Sound : Prop where
  returns : ∃ status, getTranscodeJobStatus rt job.id reply = .ok status
  completed : ∀ status, getTranscodeJobStatus rt job.id reply = .ok status →
    status.status = .completed → Gone rt job reply
  unreadable : listed rt reply = none → ∀ status,
    getTranscodeJobStatus rt job.id reply = .ok status → status.status = .unknown
  verified : listed rt reply = none → verifyOptimizationCompleted rt job.id reply ≠ .ok true
  /-- In every pass over any rows. -/
  polled : ∀ (env : PollEnv) (items : List RoutedItem) (i : Nat) (item item' : RoutedItem),
    items[i]? = some item → Polls rt job reply env item →
    (pollRoutedTranscodes env items).items[i]? = some item' → item'.status = .completed →
    Gone rt job reply

/-- There is nothing to be read, or a listing is read, and the key of the job is found in it if
    it is there. -/
def Reads : Reply → Prop
  | .httpError _ | .refused _ => True
  | .response r =>
      if r.isSuccess then
        match rt.json r.content with
        | .ok body => ∃ queue, jsonListing body = some queue ∧
            ((∃ entry ∈ queue, entry.Mentions rt job.ratingKey) →
              ∃ entry ∈ queue, entry.Carries rt (String.ofList job.askedKey))
        | .error .valueError => match rt.fromstring (rt.text r) with
          | .ok root => ∃ elements, xmlListing root = some elements ∧
              ((∃ e ∈ elements, e.Mentions job.ratingKey) →
                Carried (String.ofList job.askedKey) elements)
          | .error e => e = .valueError
        | .error _ => False
      else 400 ≤ r.status ∨ job.askedKey = [] ∨
        ∀ body, rt.json r.content = .ok body → ¬Vacant rt (String.ofList job.askedKey) body

variable {rt job reply}

theorem applyStatus_completed {env : PollEnv} {item : RoutedItem} {status : TranscodeJobStatus}
    (h : (applyStatus env item status).item.status = .completed) :
    status.status = .completed ∨ item.status = .completed := by
  unfold applyStatus at h
  cases hstatus : status.status <;> rw [hstatus] at h
  case completed => exact .inl rfl
  case failed => cases h
  case unknown => exact .inr h
  all_goals
    cases hpct : status.progressPct <;> rw [hpct] at h
    all_goals exact .inr h

theorem completed_of_after {env : PollEnv} {item : RoutedItem} (h : Polls rt job reply env item)
    (hcompleted : (after env item).status = .completed) :
    ∃ status, getTranscodeJobStatus rt job.id reply = .ok status ∧
      status.status = .completed := by
  obtain ⟨hrouted, hjob, integrationId, integration, replies, hid, hfound, hprovider, hreply⟩ := h
  have hopen : item.status ≠ .completed := by
    rw [hrouted]
    exact fun h => nomatch h
  rw [after, if_pos hrouted, pollItem] at hcompleted
  cases hpoll : pollOne env item with
  | error e =>
    rw [hpoll] at hcompleted
    exact absurd hcompleted hopen
  | ok polled =>
    rw [hpoll] at hcompleted
    have hasked : item.itemMetadata.upstreamJobId.filter (· ≠ "") = some job.id := by
      rw [hjob]
      exact Option.filter_some_pos (by simpa using job.id_ne_empty)
    rw [pollOne, hasked, hid] at hpoll
    by_cases hempty : integrationId = ""
    · rw [hempty] at hpoll
      cases hpoll
      exact absurd hcompleted hopen
    · have hkept : (some integrationId).filter (· ≠ "") = some integrationId :=
        Option.filter_some_pos (by simpa using hempty)
      rw [hkept] at hpoll
      simp only [hfound, hprovider] at hpoll
      obtain ⟨_, -, hpoll⟩ := bind_eq_ok.mp hpoll
      obtain ⟨status, hstatus, hpoll⟩ := bind_eq_ok.mp hpoll
      cases hpoll
      rw [← hreply]
      exact ⟨status, hstatus, (applyStatus_completed hcompleted).resolve_right hopen⟩

theorem sound_iff_queueStatus :
    Sound rt job reply ↔
      ∃ status, queueStatus rt (String.ofList job.askedKey) reply = .ok status ∧
        (status.status = .completed → Gone rt job reply) ∧
        (listed rt reply = none → status.status = .unknown ∧
          verifyOptimizationCompleted rt job.id reply ≠ .ok true) := by
  constructor
  · rintro ⟨⟨status, hstatus⟩, hcompleted, hunreadable, hverified, -⟩
    refine ⟨status, ?_, hcompleted status hstatus, fun hnone =>
      ⟨hunreadable hnone status hstatus, hverified hnone⟩⟩
    rw [← getTranscodeJobStatus_id, hstatus]
  · rintro ⟨status, hstatus, hcompleted, hnone⟩
    rw [← getTranscodeJobStatus_id] at hstatus
    have hunique : ∀ status', getTranscodeJobStatus rt job.id reply = .ok status' →
        status' = status := by
      intro status' h
      rw [hstatus] at h
      exact (Except.ok.inj h).symm
    have hgone : ∀ status', getTranscodeJobStatus rt job.id reply = .ok status' →
        status'.status = .completed → Gone rt job reply := by
      intro status' h
      rw [hunique status' h]
      exact hcompleted
    refine ⟨⟨status, hstatus⟩, hgone, ?_, fun h => (hnone h).2, ?_⟩
    · intro h status' h'
      rw [hunique status' h']
      exact (hnone h).1
    · intro env items i item item' hitem hpolls hitem' hdone
      rw [pollRoutedTranscodes_items, List.getElem?_map, hitem, Option.map_some,
        Option.some.injEq] at hitem'
      rw [← hitem'] at hdone
      obtain ⟨status', h, hcompleted'⟩ := completed_of_after hpolls hdone
      exact hgone status' h hcompleted'

theorem sound_iff_of_unknown {status : TranscodeJobStatus}
    (hstatus : queueStatus rt (String.ofList job.askedKey) reply = .ok status)
    (hunknown : status.status = .unknown) (hnone : listed rt reply = none) :
    Sound rt job reply ↔ verifyOptimizationCompleted rt job.id reply ≠ .ok true := by
  rw [sound_iff_queueStatus]
  constructor
  · rintro ⟨status', -, -, h⟩
    exact (h hnone).2
  · intro h
    refine ⟨status, hstatus, ?_, fun _ => ⟨hunknown, h⟩⟩
    rw [hunknown]
    exact fun h => nomatch h

theorem sound_iff_of_judged {keys : List String}
    (hstatus : queueStatus rt (String.ofList job.askedKey) reply =
      .ok (judge keys (String.ofList job.askedKey))) :
    Sound rt job reply ↔ ∃ listing, listed rt reply = some listing ∧
      (job.ratingKey ∈ listing → String.ofList job.askedKey ∈ keys) := by
  rw [sound_iff_queueStatus]
  constructor
  · rintro ⟨status, hstatus', hcompleted, hnone⟩
    rw [hstatus] at hstatus'
    cases hstatus'
    cases hlisted : listed rt reply with
    | none =>
      have hunknown := (hnone hlisted).1
      rw [judge_status] at hunknown
      split at hunknown <;> cases hunknown
    | some listing =>
      refine ⟨listing, rfl, fun hlists => ?_⟩
      by_contra habsent
      obtain ⟨listing', hlisted', hgone⟩ := hcompleted (by rw [judge_status, if_neg habsent])
      rw [hlisted] at hlisted'
      cases hlisted'
      exact hgone hlists
  · rintro ⟨listing, hlisted, hfound⟩
    refine ⟨_, hstatus, ?_, ?_⟩
    · intro hcompleted
      refine ⟨listing, hlisted, fun hlists => ?_⟩
      rw [judge_status, if_pos (hfound hlists)] at hcompleted
      cases hcompleted
    · intro hnone
      rw [hlisted] at hnone
      cases hnone

theorem not_sound_of_raised {e : PyError}
    (hstatus : queueStatus rt (String.ofList job.askedKey) reply = .error e) :
    ¬Sound rt job reply := by
  rw [sound_iff_queueStatus]
  rintro ⟨status, h, -⟩
  rw [hstatus] at h
  cases h

theorem sound_iff_json {r : Response} {body : PyValue} (hsuccess : r.isSuccess = true)
    (hjson : rt.json r.content = .ok body) :
    Sound rt job (.response r) ↔ ∃ queue, jsonListing body = some queue ∧
      ((∃ entry ∈ queue, entry.Mentions rt job.ratingKey) →
        ∃ entry ∈ queue, entry.Carries rt (String.ofList job.askedKey)) := by
  have hlisted : listed rt (.response r) = (jsonListing body).map fun queue =>
      { key | ∃ entry ∈ queue, entry.Mentions rt key } := by
    simp only [listed, hsuccess, if_true, hjson]
  cases hkeys : jsonKeys rt body with
  | error e =>
    have hother : e ≠ .valueError := fun h => jsonKeys_ne_valueError body (h ▸ hkeys)
    have hread : readKeys rt r = .error e := (readKeys_of_json hjson).trans hkeys
    constructor
    · intro h
      exact absurd h (not_sound_of_raised (queueStatus_of_raised hsuccess hread hother))
    · rintro ⟨queue, hqueue, -⟩
      obtain ⟨keys, hok, -⟩ := jsonKeys_of_jsonListing rt hqueue
      rw [hkeys] at hok
      cases hok
  | ok keys =>
    have hstatus : queueStatus rt (String.ofList job.askedKey) (.response r) =
        .ok (judge keys (String.ofList job.askedKey)) := by
      simp only [queueStatus, hsuccess, if_true, readKeys_of_json hjson, hkeys]
    rw [sound_iff_of_judged hstatus, hlisted]
    cases hqueue : jsonListing body with
    | none => simp
    | some queue =>
      obtain ⟨keys', hok, hmem⟩ := jsonKeys_of_jsonListing rt hqueue
      rw [hkeys] at hok
      cases hok
      simp only [Option.map_some, Option.some.injEq, exists_eq_left', Set.mem_ofPred_eq, hmem]

theorem readKeys_of_xml {r : Response} (hjson : rt.json r.content = .error .valueError) :
    readKeys rt r = match rt.fromstring (rt.text r) with
      | .ok root => .ok (xmlKeys root)
      | .error e => if e = parseError then .ok [] else .error e := by
  unfold readKeys
  rw [hjson]
  rfl

theorem sound_iff_xml {r : Response} {root : Element} (hsuccess : r.isSuccess = true)
    (hjson : rt.json r.content = .error .valueError)
    (hxml : rt.fromstring (rt.text r) = .ok root) :
    Sound rt job (.response r) ↔ ∃ elements, xmlListing root = some elements ∧
      ((∃ e ∈ elements, e.Mentions job.ratingKey) →
        Carried (String.ofList job.askedKey) elements) := by
  have hstatus : queueStatus rt (String.ofList job.askedKey) (.response r) =
      .ok (judge (xmlKeys root) (String.ofList job.askedKey)) := by
    simp only [queueStatus, hsuccess, if_true, readKeys_of_xml hjson, hxml]
  have hlisted : listed rt (.response r) = (xmlListing root).map fun elements =>
      { key | ∃ e ∈ elements, e.Mentions key } := by
    simp only [listed, hsuccess, if_true, hjson, hxml]
  rw [sound_iff_of_judged hstatus, hlisted]
  cases helements : xmlListing root with
  | none => simp
  | some elements =>
    have hall : elements = root.iter := by
      unfold xmlListing at helements
      split at helements
      · exact (Option.some.inj helements).symm
      · cases helements
    simp only [Option.map_some, Option.some.injEq, exists_eq_left', Set.mem_ofPred_eq,
      mem_xmlKeys, hall]

theorem sound_iff_neither {r : Response} {e : PyError} (hsuccess : r.isSuccess = true)
    (hjson : rt.json r.content = .error .valueError)
    (hxml : rt.fromstring (rt.text r) = .error e) :
    Sound rt job (.response r) ↔ e = .valueError := by
  have hlisted : listed rt (.response r) = none := by
    simp only [listed, hsuccess, if_true, hjson, hxml]
  have hread := readKeys_of_xml hjson
  rw [hxml] at hread
  by_cases hparse : e = parseError
  · -- the set stays empty, and the job is completed
    have hstatus : queueStatus rt (String.ofList job.askedKey) (.response r) =
        .ok (judge [] (String.ofList job.askedKey)) := by
      simp only [queueStatus, hsuccess, if_true, hread, if_pos hparse]
    rw [sound_iff_of_judged hstatus, hlisted]
    simp [hparse, parseError]
  · simp only [if_neg hparse] at hread
    by_cases hvalue : e = .valueError
    · have hstatus : queueStatus rt (String.ofList job.askedKey) (.response r) =
          .ok (unknown (rt.errorText .valueError)) := by
        simp only [queueStatus, hsuccess, if_true, hread, hvalue]
      rw [sound_iff_of_unknown hstatus rfl hlisted]
      refine iff_of_true ?_ hvalue
      intro h
      obtain ⟨r', body, hr, -, -, hbody, -⟩ := verifyOptimizationCompleted_id.mp h
      cases hr
      rw [hjson] at hbody
      cases hbody
    · exact iff_of_false (not_sound_of_raised (queueStatus_of_raised hsuccess hread hvalue)) hvalue

theorem sound_iff_unsuccessful {r : Response} (hsuccess : r.isSuccess = false) :
    Sound rt job (.response r) ↔ 400 ≤ r.status ∨ job.askedKey = [] ∨
      ∀ body, rt.json r.content = .ok body → ¬Vacant rt (String.ofList job.askedKey) body := by
  have hstatus : queueStatus rt (String.ofList job.askedKey) (.response r) =
      .ok (unknown ("Plex HTTP error: " ++ rt.statusText r)) := by
    rw [queueStatus, hsuccess]
    rfl
  have hlisted : listed rt (.response r) = none := by
    rw [listed, hsuccess]
    rfl
  rw [sound_iff_of_unknown hstatus rfl hlisted, Ne, verifyOptimizationCompleted_id]
  constructor
  · intro h
    by_contra hnot
    push Not at hnot
    obtain ⟨hbelow, hkey, body, hjson, hvacant⟩ := hnot
    exact h ⟨r, body, rfl, hbelow, hkey, hjson, hvacant⟩
  · rintro h ⟨r', body, hr, hbelow, hkey, hjson, hvacant⟩
    cases hr
    rcases h with hstatus | hempty | hnone
    · omega
    · exact hkey hempty
    · exact hnone body hjson hvacant

theorem sound_of_no_response {status : TranscodeJobStatus}
    (hstatus : queueStatus rt (String.ofList job.askedKey) reply = .ok status)
    (hunknown : status.status = .unknown) (hnone : listed rt reply = none)
    (hreply : ∀ r, reply ≠ .response r) : Sound rt job reply := by
  rw [sound_iff_of_unknown hstatus hunknown hnone]
  intro h
  obtain ⟨r, -, hr, -⟩ := verifyOptimizationCompleted_id.mp h
  exact hreply r hr

variable (rt job reply) in
/-- The promise is kept exactly for the answers that are none to be read, or are read right. -/
theorem sound_iff : Sound rt job reply ↔ Reads rt job reply := by
  cases reply with
  | httpError text => exact iff_of_true (sound_of_no_response rfl rfl rfl fun r h => nomatch h) trivial
  | refused text => exact iff_of_true (sound_of_no_response rfl rfl rfl fun r h => nomatch h) trivial
  | response r =>
    cases hsuccess : r.isSuccess with
    | false =>
      rw [sound_iff_unsuccessful hsuccess, Reads, hsuccess]
      rfl
    | true =>
      rw [Reads, if_pos hsuccess]
      cases hjson : rt.json r.content with
      | ok body => exact sound_iff_json hsuccess hjson
      | error e =>
        by_cases hvalue : e = .valueError
        · rw [hvalue] at hjson
          rw [hvalue]
          cases hxml : rt.fromstring (rt.text r) with
          | ok root => exact sound_iff_xml hsuccess hjson hxml
          | error e' => exact sound_iff_neither hsuccess hjson hxml
        · have hread : readKeys rt r = .error e := by
            unfold readKeys
            rw [hjson]
            cases e with
            | valueError => exact absurd rfl hvalue
            | _ => rfl
          have hnot : ¬Sound rt job (.response r) :=
            not_sound_of_raised (queueStatus_of_raised hsuccess hread hvalue)
          cases e with
          | valueError => exact absurd rfl hvalue
          | _ => exact iff_of_false hnot id

end Promise

/-- Library functions, as they take an empty body. -/
def emptyBody : OptimizeRuntime where
  json _ := .error .valueError
  text _ := ""
  fromstring _ := .error parseError
  str _ := ""
  repr text := text
  errorText _ := ""
  statusText _ := ""

/-- A body that is neither JSON nor XML completes the job. -/
theorem unreadable_completes : ¬Sound emptyBody ⟨"12345", "2"⟩ (.response ⟨200, [], none⟩) := by
  rw [sound_iff_neither rfl rfl rfl]
  exact fun h => nomatch h

end RoutedPoller
