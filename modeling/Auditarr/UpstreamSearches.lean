/-
  Auditarr/UpstreamSearches.lean
  ==============================
  **Searches asked of other services, and what one of them failing does to the rest.**

  `_trigger_upstream_searches` goes through the integrations that the rules of a file
  named, each once.  A search that cannot be made leaves an audit entry and the next one is
  tried; only stored secrets that cannot be decrypted end the loop, since the configuration
  is built before the `try` that would have caught that.
-/
import Auditarr.RulesTotality

namespace UpstreamSearches

open Effects Transactions KeyedTable RuleSchema RuleEvaluator Database RulesService
open RulesTotality

/-! ### One request for each integration -/

/-- The first request that names an integration. -/
def firstFor (requests : List SearchRequest) (id : String) : Option SearchRequest :=
  requests.find? fun r => r.integrationId = id

/-- The requests that are gone through. -/
def distinctRequests (requests : List SearchRequest) : List SearchRequest :=
  uniqueRequests (requests.filter fun r => r.integrationId ≠ "")

theorem mem_of_mem_uniqueRequests {r : SearchRequest} {requests : List SearchRequest}
    (h : r ∈ uniqueRequests requests) : r ∈ requests := by
  induction requests with
  | nil => exact h
  | cons first rest ih =>
    rw [uniqueRequests] at h
    rcases List.mem_cons.mp h with rfl | hrest
    · exact List.mem_cons_self ..
    · exact List.mem_cons_of_mem _ (ih (List.mem_of_mem_filter hrest))

theorem uniqueRequests_nodup (requests : List SearchRequest) :
    ((uniqueRequests requests).map (·.integrationId)).Nodup := by
  induction requests with
  | nil => exact List.nodup_nil
  | cons first rest ih =>
    rw [uniqueRequests, List.map_cons, List.nodup_cons]
    constructor
    · intro hmem
      obtain ⟨r, hr, hid⟩ := List.mem_map.mp hmem
      have hne := (List.mem_filter.mp hr).2
      exact absurd hid (of_decide_eq_true hne)
    · exact ih.sublist (List.filter_sublist.map _)

theorem find?_filter_ne {requests : List SearchRequest} {id other : String} (h : id ≠ other) :
    (requests.filter fun r => r.integrationId ≠ other).find? (fun r => r.integrationId = id) =
      requests.find? fun r => r.integrationId = id := by
  rw [List.find?_filter]
  congr 1
  funext r
  by_cases hid : r.integrationId = id
  · simp [hid, h]
  · simp [hid]

theorem find?_uniqueRequests (requests : List SearchRequest) (id : String) :
    (uniqueRequests requests).find? (fun r => r.integrationId = id) =
      requests.find? fun r => r.integrationId = id := by
  induction requests with
  | nil => rfl
  | cons first rest ih =>
    by_cases hid : first.integrationId = id
    · simp [uniqueRequests, hid]
    · rw [uniqueRequests, List.find?_cons_of_neg (by simpa using hid),
        List.find?_cons_of_neg (by simpa using hid), find?_filter_ne (Ne.symm hid), ih]

theorem find?_distinctRequests (requests : List SearchRequest) {id : String} (h : id ≠ "") :
    (distinctRequests requests).find? (fun r => r.integrationId = id) = firstFor requests id := by
  rw [distinctRequests, find?_uniqueRequests, find?_filter_ne h, firstFor]

theorem mem_distinctRequests {requests : List SearchRequest} {r : SearchRequest} :
    r ∈ distinctRequests requests ↔
      r.integrationId ≠ "" ∧ firstFor requests r.integrationId = some r := by
  constructor
  · intro h
    have hne : r.integrationId ≠ "" := by
      have hmem := mem_of_mem_uniqueRequests h
      simpa using (List.mem_filter.mp hmem).2
    refine ⟨hne, ?_⟩
    rw [← find?_distinctRequests requests hne]
    exact find?_of_mem (uniqueRequests_nodup _) h
  · rintro ⟨hne, hfirst⟩
    rw [← find?_distinctRequests requests hne] at hfirst
    exact List.mem_of_find?_eq_some hfirst

theorem countP_distinctRequests (requests : List SearchRequest) (p : SearchRequest → Bool)
    (id : String) :
    ((distinctRequests requests).filter p).countP (fun r => r.integrationId = id) =
      if id ≠ "" ∧ (firstFor requests id).any p then 1 else 0 := by
  have hnodup : (((distinctRequests requests).filter p).map (·.integrationId)).Nodup :=
    (uniqueRequests_nodup _).sublist (List.filter_sublist.map _)
  have hcount : ((distinctRequests requests).filter p).countP (fun r => r.integrationId = id) =
      (((distinctRequests requests).filter p).map (·.integrationId)).count id := by
    rw [List.count, List.countP_map]
    rfl
  rw [hcount, hnodup.count]
  congr 1
  rw [eq_iff_iff]
  constructor
  · intro hmem
    obtain ⟨r, hr, rfl⟩ := List.mem_map.mp hmem
    obtain ⟨hr, hp⟩ := List.mem_filter.mp hr
    obtain ⟨hne, hfirst⟩ := mem_distinctRequests.mp hr
    exact ⟨hne, by rw [hfirst]; exact hp⟩
  · rintro ⟨hne, hany⟩
    cases hfirst : firstFor requests id with
    | none => rw [hfirst] at hany; cases hany
    | some r =>
      rw [hfirst] at hany
      have hid : r.integrationId = id := by simpa using List.find?_some hfirst
      subst hid
      exact List.mem_map_of_mem (List.mem_filter.mpr ⟨mem_distinctRequests.mpr ⟨hne, hfirst⟩, hany⟩)

/-! ### What becomes of a request -/

section Requests

variable (env : Env) (t : Tables)

/-- The integration of a request exists and is enabled. -/
def found (r : SearchRequest) : Bool :=
  (t.integrations.find? r.integrationId).any (·.enabled)

/-- It can be asked to search: the provider of its kind is the one the rule means, and can. -/
def eligible (r : SearchRequest) : Bool :=
  (t.integrations.find? r.integrationId).any fun integration =>
    integration.enabled && env.registry &&
      (resolveSearch env (targetKind r.target) integration).isOk

/-- Its stored secrets can be read. -/
def readable (r : SearchRequest) : Bool :=
  (t.integrations.find? r.integrationId).any fun integration => env.decrypts integration.id

/-- No registry to find a provider in. -/
def passedOver (r : SearchRequest) : Bool := found t r && !env.registry

/-- An audit entry about a search on this integration. -/
def isSearchOn (id : String) (entry : AuditLogEntry) : Bool :=
  entry.action = "rule.action.search_upstream" && match entry.metadata with
    | .searchUpstream integrationId _ _ _ _ _ => integrationId = id
    | _ => false

/-- As many entries about each integration as there are requests for it. -/
def Records (entries : List AuditLogEntry) (requests : List SearchRequest) : Prop :=
  ∀ id, entries.countP (isSearchOn id) = requests.countP fun r => r.integrationId = id

/-- What going through some requests leaves behind. -/
structure Handled (m : MediaFile) (requests : List SearchRequest)
    (s s' : Session Tables Outside) : Prop where
  live : s'.Live
  integrations : s'.working.integrations = s.working.integrations
  searched : s'.world.searched = s.world.searched ++
    (requests.filter fun r => eligible env t r && readable env t r).map fun r =>
      (r.integrationId, m.path)
  audited : ∃ entries, s'.working.auditLog = s.working.auditLog ++ entries ∧
    Records entries (requests.filter fun r => !passedOver env t r)

end Requests

section Runs

variable {env : Env} {m : MediaFile} {s : Session Tables Outside}

/-- No round trip to the database fails. -/
def Faultless (env : Env) : Prop := ∀ n, env.faultAt n = none

theorem contact_faultless (hdb : Faultless env) (fatal : Bool) (hlive : s.Live) :
    contact env.db fatal s = (.ok (), { s with calls := s.calls + 1 }) := by
  unfold contact
  simp [hlive.1, Env.db, hdb s.calls]

theorem select_faultless {α : Type} (hdb : Faultless env) (query : Tables → α) (hlive : s.Live) :
    select env.db query s = (.ok (query s.working), { s with calls := s.calls + 1 }) := by
  unfold select
  rw [Call.andThen_eq_bind, Call.run_bind_ok (contact_faultless hdb false hlive)]
  rfl

theorem emitSearchUpstreamAudit_run (hdb : Faultless env) (integrationId target : String)
    (result : SearchTriggerResult) (hlive : s.Live) :
    ∃ entry s', emitSearchUpstreamAudit env m integrationId target result s = (.ok (), s') ∧
      s'.Live ∧ s'.working = s.working.addAudit entry ∧ s'.world.searched = s.world.searched ∧
        ∀ id, isSearchOn id entry = decide (integrationId = id) := by
  let payload := AuditMetadata.searchUpstream integrationId m.path target result.status
    result.upstreamId result.detail
  let entry : AuditLogEntry :=
    { action := "rule.action.search_upstream", actorLabel := "rules", targetType := "media_file",
      targetId := m.id, metadata := payload }
  let added : Session Tables Outside := { s with working := s.working.addAudit entry }
  let flushed : Session Tables Outside := { added with calls := s.calls + 1 }
  have hrecord : recordAudit env entry s = (.ok (), flushed) := contact_faultless hdb true hlive
  refine ⟨entry, { flushed with world :=
    { s.world with events := s.world.events ++ [.searchUpstream m.id payload] } },
    ?_, hlive, rfl, rfl, fun id => by simp [isSearchOn, entry, payload]⟩
  refine (Call.run_bind_ok (load_live m.id hlive)).trans ?_
  have hattempt : Call.attempt (recordAudit env entry) (fun _ => do
      let _ ← load env.db m.id
      pure ()) s = (.ok (), flushed) := by rw [Call.run_attempt, hrecord]
  exact (Call.run_bind_ok hattempt).trans rfl

theorem found_of_eligible {t : Tables} {r : SearchRequest} (h : eligible env t r = true) :
    found t r = true := by
  unfold eligible at h
  unfold found
  cases hfind : t.integrations.find? r.integrationId with
  | none => rw [hfind] at h; cases h
  | some integration =>
    rw [hfind] at h
    simp only [Option.any_some, Bool.and_eq_true] at h ⊢
    exact h.1.1

theorem eligible_eq (env : Env) {t : Tables} {r : SearchRequest} {integration : Integration}
    (h : t.integrations.find? r.integrationId = some integration) :
    eligible env t r = (integration.enabled && env.registry &&
      (resolveSearch env (targetKind r.target) integration).isOk) := by
  simp [eligible, h]

theorem handled_of_audit {t : Tables} {r : SearchRequest} (s' : Session Tables Outside)
    {s'' : Session Tables Outside} {entry : AuditLogEntry} (hskip : passedOver env t r = false)
    (hintegrations : s'.working = s.working)
    (hsearched : s'.world.searched = s.world.searched ++
      if eligible env t r && readable env t r then [(r.integrationId, m.path)] else [])
    (hlive : s''.Live) (hworking : s''.working = s'.working.addAudit entry)
    (hsame : s''.world.searched = s'.world.searched)
    (hentry : ∀ id, isSearchOn id entry = decide (r.integrationId = id)) :
    Handled env t m [r] s s'' where
  live := hlive
  integrations := by rw [hworking, ← hintegrations]; rfl
  searched := by
    rw [hsame, hsearched]
    by_cases hcall : (eligible env t r && readable env t r) = true <;> simp [hcall]
  audited := by
    refine ⟨[entry], by rw [hworking, hintegrations]; rfl, fun id => ?_⟩
    simp [hskip, hentry, List.countP_cons]

theorem triggerUpstreamSearch_run (hdb : Faultless env) (r : SearchRequest) (t : Tables)
    (ht : t.integrations = s.working.integrations) (hlive : s.Live) :
    if eligible env t r && !readable env t r then
      ∃ e s', triggerUpstreamSearch env m r s = (.error e, s')
    else ∃ s', triggerUpstreamSearch env m r s = (.ok (), s') ∧ Handled env t m [r] s s' := by
  let queried : Session Tables Outside := { s with calls := s.calls + 1 }
  have hselect := select_faultless hdb (fun t => t.integrations.find? r.integrationId) hlive
  rw [← ht] at hselect
  unfold triggerUpstreamSearch
  simp only [Call.run_bind_ok hselect]
  have hrefused : ∀ result, passedOver env t r = false → eligible env t r = false →
      ∃ s', emitSearchUpstreamAudit env m r.integrationId (targetKind r.target) result queried =
        (.ok (), s') ∧ Handled env t m [r] s s' := by
    intro result hskip heligible
    obtain ⟨entry, s', hrun, hlive', hworking, hsame, hentry⟩ :=
      emitSearchUpstreamAudit_run (m := m) hdb r.integrationId (targetKind r.target) result
        (s := queried) hlive
    exact ⟨s', hrun, handled_of_audit queried hskip rfl (by simp [heligible, queried])
      hlive' hworking hsame hentry⟩
  cases hfind : t.integrations.find? r.integrationId with
  | none =>
    have heligible : eligible env t r = false := by simp [eligible, hfind]
    simp only [heligible, Bool.false_and, Bool.false_eq_true, if_false]
    exact hrefused _ (by simp [passedOver, found, hfind]) heligible
  | some integration =>
    have hkey : integration.id = r.integrationId := (Table.mem_of_find? hfind).2
    have hdecide := eligible_eq env hfind
    have hfound : found t r = integration.enabled := by simp [found, hfind]
    have hreadable : readable env t r = env.decrypts integration.id := by simp [readable, hfind]
    cases henabled : integration.enabled with
    | false =>
      have heligible : eligible env t r = false := by rw [hdecide, henabled]; rfl
      simp only [heligible, henabled, Bool.false_and, Bool.false_eq_true, if_false, Bool.not_false,
        if_true]
      exact hrefused _ (by simp [passedOver, hfound, henabled]) heligible
    | true =>
      cases hregistry : env.registry with
      | false =>
        have heligible : eligible env t r = false := by rw [hdecide, henabled, hregistry]; rfl
        simp only [heligible, henabled, Bool.false_and, Bool.false_eq_true, if_false, Bool.not_false,
          if_true, Bool.not_true]
        refine ⟨queried, rfl, hlive, rfl, by simp [heligible, queried], [], by simp [queried], ?_⟩
        intro id
        simp [passedOver, hfound, henabled, hregistry]
      | true =>
        have hskip : passedOver env t r = false := by simp [passedOver, hregistry]
        cases hresolve : resolveSearch env (targetKind r.target) integration with
        | error result =>
          have heligible : eligible env t r = false := by rw [hdecide, hresolve]; simp [Except.isOk, Except.toBool]
          simp only [heligible, henabled, hresolve, Bool.false_and, Bool.false_eq_true, if_false,
            Bool.not_true]
          exact hrefused result hskip heligible
        | ok trigger =>
          have heligible : eligible env t r = true := by
            rw [hdecide, henabled, hregistry, hresolve]; rfl
          cases hdecrypts : env.decrypts integration.id with
          | false =>
            simp only [heligible, henabled, hresolve, hreadable, hdecrypts, Bool.not_false, Bool.and_self, if_true,
              Bool.not_true, Bool.false_eq_true, if_false]
            exact ⟨_, _, rfl⟩
          | true =>
            simp only [heligible, henabled, hresolve, hreadable, hdecrypts, Bool.not_true, Bool.and_false,
              Bool.false_eq_true, if_false]
            let asked : Session Tables Outside := { queried with world :=
              { s.world with searched := s.world.searched ++ [(integration.id, m.path)] } }
            have haudited : ∀ result, ∃ s', emitSearchUpstreamAudit env m r.integrationId
                (targetKind r.target) result asked = (.ok (), s') ∧ Handled env t m [r] s s' := by
              intro result
              obtain ⟨entry, s', hrun, hlive', hworking, hsame, hentry⟩ :=
                emitSearchUpstreamAudit_run (m := m) hdb r.integrationId (targetKind r.target) result
                  (s := asked) hlive
              refine ⟨s', hrun, handled_of_audit asked hskip rfl ?_ hlive' hworking hsame hentry⟩
              have hcall : (eligible env t r && readable env t r) = true := by
                rw [heligible, hreadable, hdecrypts]; rfl
              rw [if_pos hcall, ← hkey]
            rw [Call.run_bind_ok (load_live m.path (s := queried) hlive)]
            exact haudited _

theorem Handled.start {t : Tables} (hlive : s.Live) : Handled env t m [] s s where
  live := hlive
  integrations := rfl
  searched := by simp
  audited := ⟨[], by simp, fun _ => rfl⟩

theorem Handled.append {t : Tables} {requests more : List SearchRequest}
    {s' s'' : Session Tables Outside} (h : Handled env t m requests s s')
    (h' : Handled env t m more s' s'') : Handled env t m (requests ++ more) s s'' where
  live := h'.live
  integrations := h'.integrations.trans h.integrations
  searched := by
    rw [h'.searched, h.searched, List.filter_append, List.map_append, List.append_assoc]
  audited := by
    obtain ⟨entries, hlog, hrecords⟩ := h.audited
    obtain ⟨entries', hlog', hrecords'⟩ := h'.audited
    refine ⟨entries ++ entries', by rw [hlog', hlog, List.append_assoc], fun id => ?_⟩
    rw [List.filter_append, List.countP_append, List.countP_append, hrecords, hrecords']

theorem triggerUpstreamSearches_run (hdb : Faultless env) (t : Tables)
    (requests : List SearchRequest) (ht : t.integrations = s.working.integrations)
    (hlive : s.Live) :
    if requests.any fun r => eligible env t r && !readable env t r then
      ∃ e s', Call.forEach (triggerUpstreamSearch env m) requests s = (.error e, s')
    else ∃ s', Call.forEach (triggerUpstreamSearch env m) requests s = (.ok (), s') ∧
      Handled env t m requests s s' := by
  induction requests generalizing s with
  | nil => exact ⟨s, rfl, Handled.start hlive⟩
  | cons r rest ih =>
    have hone := triggerUpstreamSearch_run (m := m) hdb r t ht hlive
    rw [List.any_cons, Call.forEach, Call.andThen_eq_bind]
    by_cases hstuck : (eligible env t r && !readable env t r) = true
    · rw [if_pos hstuck] at hone
      obtain ⟨e, s', hrun⟩ := hone
      rw [hstuck, Bool.true_or, if_pos rfl]
      exact ⟨e, s', Call.run_bind_error hrun⟩
    · rw [if_neg hstuck] at hone
      obtain ⟨s', hrun, hhandled⟩ := hone
      rw [Bool.not_eq_true] at hstuck
      rw [hstuck, Bool.false_or, Call.run_bind_ok hrun]
      have hrest := ih (ht.trans hhandled.integrations.symm) hhandled.live
      by_cases hlater : (rest.any fun r => eligible env t r && !readable env t r) = true
      · rw [if_pos hlater] at hrest ⊢
        exact hrest
      · rw [if_neg hlater] at hrest ⊢
        obtain ⟨s'', hrun', hhandled'⟩ := hrest
        exact ⟨s'', hrun', hhandled.append hhandled'⟩

end Runs

/-! ### One integration failing -/

/-- The searches are made whatever becomes of each: the call returns, every integration
    that can be asked and whose secrets can be read is asked once, and there is one audit
    entry for each integration that was named. -/
def Isolates (env : Env) (m : MediaFile) (requests : List SearchRequest)
    (s : Session Tables Outside) : Prop :=
  ∃ s', triggerUpstreamSearches env m requests s = (.ok (), s') ∧
    (∃ asked, s'.world.searched = s.world.searched ++ asked ∧ ∀ id,
      asked.countP (fun call => call.1 = id) =
        if id ≠ "" ∧ (firstFor requests id).any (fun r => eligible env s.working r &&
          readable env s.working r) then 1 else 0) ∧
    ∃ entries, s'.working.auditLog = s.working.auditLog ++ entries ∧ ∀ id,
      entries.countP (isSearchOn id) =
        if id ≠ "" ∧ (firstFor requests id).isSome then 1 else 0

/-- The searches are isolated from each other exactly where there is a registry for the
    integrations that are found and the secrets of those that can be asked can be read. -/
theorem searches_isolated_iff (env : Env) (hdb : Faultless env) (m : MediaFile)
    (requests : List SearchRequest) (s : Session Tables Outside) (hlive : s.Live) :
    Isolates env m requests s ↔ ∀ r, r.integrationId ≠ "" →
      firstFor requests r.integrationId = some r → found s.working r = true →
        env.registry = true ∧ (eligible env s.working r = true → readable env s.working r = true) := by
  have hloop := triggerUpstreamSearches_run (m := m) hdb s.working (distinctRequests requests) rfl
    hlive
  constructor
  · rintro ⟨s', hrun, -, entries, hlog, hcount⟩ r hne hfirst hfound
    have hmem : r ∈ distinctRequests requests := mem_distinctRequests.mpr ⟨hne, hfirst⟩
    by_cases hstuck : ((distinctRequests requests).any fun r =>
        eligible env s.working r && !readable env s.working r) = true
    · rw [if_pos hstuck] at hloop
      obtain ⟨e, s'', hrun'⟩ := hloop
      rw [triggerUpstreamSearches, ← distinctRequests, hrun'] at hrun
      cases hrun
    · rw [if_neg hstuck] at hloop
      obtain ⟨s'', hrun', hhandled⟩ := hloop
      rw [triggerUpstreamSearches, ← distinctRequests, hrun'] at hrun
      obtain rfl : s'' = s' := (Prod.mk.inj hrun).2
      obtain ⟨entries', hlog', hrecords⟩ := hhandled.audited
      obtain rfl : entries' = entries := List.append_cancel_left (hlog'.symm.trans hlog)
      constructor
      · -- without a registry there would be no entry about it
        by_contra hregistry
        have hone := hcount r.integrationId
        rw [Bool.not_eq_true] at hregistry
        have hskip : passedOver env s.working r = true := by
          simp [passedOver, hfound, hregistry]
        rw [hrecords, countP_distinctRequests, hfirst] at hone
        simp [hne, hskip] at hone
      · intro heligible
        by_contra hreadable
        rw [Bool.not_eq_true] at hreadable
        refine hstuck (List.any_eq_true.mpr ⟨r, hmem, ?_⟩)
        simp [heligible, hreadable]
  · intro hcalm
    have hstuck : ¬((distinctRequests requests).any fun r =>
        eligible env s.working r && !readable env s.working r) = true := by
      intro hany
      obtain ⟨r, hmem, hr⟩ := List.any_eq_true.mp hany
      obtain ⟨hne, hfirst⟩ := mem_distinctRequests.mp hmem
      obtain ⟨heligible, hreadable⟩ := Bool.and_eq_true_iff.mp hr
      rw [(hcalm r hne hfirst (found_of_eligible heligible)).2 heligible] at hreadable
      cases hreadable
    rw [if_neg hstuck] at hloop
    obtain ⟨s', hrun, hhandled⟩ := hloop
    refine ⟨s', hrun, ⟨_, hhandled.searched, fun id => ?_⟩, ?_⟩
    · rw [List.countP_map]
      exact countP_distinctRequests requests _ id
    · obtain ⟨entries, hlog, hrecords⟩ := hhandled.audited
      refine ⟨entries, hlog, fun id => ?_⟩
      rw [hrecords, countP_distinctRequests]
      congr 1
      rw [eq_iff_iff]
      refine and_congr_right fun hne => ?_
      cases hfirst : firstFor requests id with
      | none => simp
      | some r =>
        have hid : r.integrationId = id := by simpa using List.find?_some hfirst
        subst hid
        simp only [Option.any_some, Option.isSome_some, passedOver]
        cases hfound : found s.working r with
        | false => simp
        | true => simp [(hcalm r hne hfirst hfound).1]

/-! ### Two integrations -/

def sonarr (id : String) : Integration where
  id := id
  kind := "sonarr"
  name := id
  enabled := true
  config := .dict []

/-- A search provider that answers; the secrets of one integration cannot be read. -/
def sonarrEnv (broken : String) : Env :=
  { calmEnv with
    registry := true
    searchProvider := fun _ => some ⟨some fun _ _ => .ok ⟨"ok", none, none⟩⟩
    decrypts := fun id => id ≠ broken }

def twoSonarrs : Tables := { Tables.empty with integrations := ⟨[sonarr "a", sonarr "b"], by decide⟩ }

def bothSearches : List SearchRequest := [⟨.sonarr, "a"⟩, ⟨.sonarr, "b"⟩, ⟨.sonarr, "a"⟩]

/-- One integration whose secrets cannot be read aborts the searches. -/
theorem searches_not_isolated :
    ¬∀ (env : Env), Faultless env → env.registry = true → ∀ (m : MediaFile)
      (requests : List SearchRequest) (s : Session Tables Outside), s.Live →
      Isolates env m requests s := by
  intro hall
  obtain ⟨s', hrun, -⟩ := hall (sonarrEnv "a") (fun _ => rfl) rfl
    (.unprobed "f1" "l1" "/media/a.avi" "avi") bothSearches (freshSession twoSonarrs)
    (freshSession_live _)
  have hraise : (triggerUpstreamSearches (sonarrEnv "a")
      (.unprobed "f1" "l1" "/media/a.avi" "avi") bothSearches (freshSession twoSonarrs)).1.isOk =
        false := by decide +kernel
  rw [hrun] at hraise
  cases hraise

theorem searches_isolated_iff_sonarrs :
    Isolates (sonarrEnv "c") (.unprobed "f1" "l1" "/media/a.avi" "avi") bothSearches
      (freshSession twoSonarrs) := by
  refine (searches_isolated_iff (sonarrEnv "c") (fun _ => rfl) _ bothSearches _
    (freshSession_live _)).mpr ?_
  have hreadable : ∀ r ∈ bothSearches, readable (sonarrEnv "c") twoSonarrs r = true := by decide
  intro r _ hfirst _
  exact ⟨rfl, fun _ => hreadable r (List.mem_of_find?_eq_some hfirst)⟩

end UpstreamSearches
