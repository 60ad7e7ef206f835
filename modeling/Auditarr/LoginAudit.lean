/-
  Auditarr/LoginAudit.lean
  ========================
  **Which audit entries of the authentication calls are committed.**

  A login that is turned away records `auth.login_failed` and then raises: the entry goes with
  the transaction.  The other calls record when nothing is left to raise.
-/
import Auditarr.AuditedCalls

namespace LoginAudit

open Effects Transactions KeyedTable PyValues AuthStore Runs AuditedCalls
open AuthService (AuthRuntime Occasion hashPassword upgraded plainRuntime onlyAlice)

/-! ### Calls that record last -/

section Frames

variable {α β : Type} {X : Failure → Prop}

/-- A live session whose transaction wrote no entry of a failed login, and what was recorded. -/
def Before (D : Tables → Prop) (n : Nat) (recorded : List AuditLogEntry) (s : Session Tables Outside) : Prop :=
  Standing D (fun t => failedEntries t = n) s ∧ s.world.recorded = recorded

/-- What an exception leaves: the committed tables, and nothing that was recorded before it. -/
structure Undone (X : Failure → Prop) (D : Tables → Prop) (recorded : List AuditLogEntry) (e : Failure)
    (s : Session Tables Outside) : Prop where
  raised : X e
  committed : D s.committed
  recorded : s.world.recorded = recorded

/-- The call records nothing, and raises what meets `X`. -/
def Quiet (X : Failure → Prop) (c : Work α) : Prop :=
  ∀ D n recorded, Triple (Before D n recorded) c (fun _ => Before D n recorded) (Undone X D recorded)

/-- The call has recorded nothing when it raises, and returns with no entry of a failed login. -/
def Orderly (X : Failure → Prop) (c : Work α) : Prop :=
  ∀ D n recorded, Triple (Before D n recorded) c (fun _ => Standing D fun t => failedEntries t = n)
    (Undone X D recorded)

theorem Quiet.orderly {c : Work α} (h : Quiet X c) : Orderly X c := fun D n recorded =>
  (h D n recorded).consequence (fun _ hs => hs) (fun _ _ hs => hs.1) fun _ _ hs => hs

theorem quiet_bind {c : Work α} {k : α → Work β} (hc : Quiet X c) (hk : ∀ a, Quiet X (k a)) :
    Quiet X (c >>= k) :=
  fun D n recorded => (hc D n recorded).bind fun a => hk a D n recorded

theorem orderly_bind {c : Work α} {k : α → Work β} (hc : Quiet X c) (hk : ∀ a, Orderly X (k a)) :
    Orderly X (c >>= k) :=
  fun D n recorded => (hc D n recorded).bind fun a => hk a D n recorded

theorem orderly_then {c : Work α} {k : α → Work β} (hc : Orderly X c) (hk : ∀ a, ∃ b, k a = pure b) :
    Orderly X (c >>= k) := by
  intro D n recorded
  refine (hc D n recorded).bind fun a => ?_
  obtain ⟨b, hb⟩ := hk a
  rw [hb]
  exact triple_pure b fun _ hs => hs

theorem quiet_pure (a : α) : Quiet X (pure a : Work α) := fun _ _ _ => triple_pure a fun _ hs => hs

theorem quiet_raise {e : Failure} (he : X e) : Quiet X (Call.raise e : Work α) :=
  fun _ _ _ _ hs => ⟨he, hs.1.1, hs.2⟩

theorem quiet_read (f : Session Tables Outside → α) : Quiet X (Call.read f) := fun _ _ _ _ hs => hs

theorem quiet_lift {outcome : Except Raised α} (h : ∀ e, outcome = .error e → X (.service e)) :
    Quiet X (lift outcome) := by
  cases outcome with
  | error e => exact quiet_raise (h e rfl)
  | ok a => exact quiet_pure a

theorem quiet_edit {change : Tables → Tables} (h : ∀ t, (change t).auditLog = t.auditLog) :
    Quiet X (edit change) := by
  intro D n recorded s hs
  obtain ⟨⟨hcommitted, hlive, hn⟩, hrecorded⟩ := hs
  refine ⟨⟨hcommitted, hlive, ?_⟩, hrecorded⟩
  exact (congrArg (List.countP _) (h s.working)).trans hn

theorem quiet_refused {env : Environment Failure} {e : Failure} (he : X e) :
    Quiet X (refused env e : Work α) := by
  intro D n recorded s hs
  unfold refused
  rw [if_neg (by simp [hs.1.2.1.1])]
  exact ⟨he, hs.1.1, hs.2⟩

/-- The environment raises what meets `X`. -/
def Tolerated (X : Failure → Prop) (env : Environment Failure) : Prop :=
  ∀ n fault, env.faultAt n = some fault → X fault.error

variable {env : Environment Failure}

theorem contact_answered {s : Session Tables Outside} (hfailed : s.failed = false)
    (hfault : env.faultAt s.calls = none) (fatal : Bool) :
    (contact env fatal : Work Unit) s = (.ok (), { s with calls := s.calls + 1 }) := by
  simp [contact, hfailed, hfault]

theorem contact_faulted {s : Session Tables Outside} {fault : Fault Failure} (hfailed : s.failed = false)
    (hfault : env.faultAt s.calls = some fault) (fatal : Bool) :
    ∃ s', (contact env fatal : Work Unit) s = (.error fault.error, s') ∧ s'.committed = s.committed ∧
      s'.world = s.world := by
  unfold contact
  rw [hfault]
  simp only [hfailed, Bool.false_eq_true, if_false]
  refine ⟨_, rfl, ?_⟩
  split
  · exact ⟨rfl, rfl⟩
  · exact ⟨rfl, rfl⟩

theorem quiet_contact (hX : Tolerated X env) (fatal : Bool) : Quiet X (contact env fatal : Work Unit) := by
  intro D n recorded s hs
  cases hfault : env.faultAt s.calls with
  | none =>
    rw [contact_answered hs.1.2.1.1 hfault]
    exact hs
  | some fault =>
    obtain ⟨s', hrun, hcommitted, hworld⟩ := contact_faulted hs.1.2.1.1 hfault fatal
    rw [hrun]
    exact ⟨hX _ _ hfault, hcommitted ▸ hs.1.1, hworld ▸ hs.2⟩

theorem quiet_select (hX : Tolerated X env) (query : Tables → α) : Quiet X (select env query : Work α) :=
  quiet_bind (quiet_contact hX false) fun _ => quiet_read _

theorem quiet_statement (hX : Tolerated X env) {change : Tables → Tables}
    (h : ∀ t, (change t).auditLog = t.auditLog) : Quiet X (statement env change : Work Unit) :=
  quiet_bind (quiet_contact hX false) fun _ => quiet_edit h

variable {Token : Type} {svc : Service Token}

theorem quiet_write (hX : Tolerated X svc.env) {change : Database → Except Raised Database}
    (h : ∀ db e, change db = .error e → X (.service e)) : Quiet X (write svc change) := by
  intro D n recorded s hs
  unfold write
  rw [Call.run_bind_ok (Call.run_read _ s)]
  cases hchange : change s.working.db with
  | error e => exact quiet_refused (h _ e hchange) D n recorded s hs
  | ok db =>
    have hedit : Quiet X (edit fun t : Tables => { t with db := db }) := quiet_edit fun _ => rfl
    exact quiet_bind hedit (fun _ => quiet_contact hX true) D n recorded s hs

theorem orderly_record (hX : Tolerated X svc.env) {entry : AuditLogEntry}
    (hentry : entry.action ≠ "auth.login_failed") : Orderly X (record svc entry) := by
  intro D n recorded
  refine Triple.bind (M := fun _ => Before D n recorded) ?_ fun _ => ?_
  · intro s hs
    obtain ⟨⟨hcommitted, hlive, hn⟩, hrecorded⟩ := hs
    refine ⟨⟨hcommitted, hlive, ?_⟩, hrecorded⟩
    have hcount : failedEntries { s.working with auditLog := s.working.auditLog ++ [entry] } =
        failedEntries s.working := by
      simp [failedEntries, List.countP_append, hentry]
    exact hcount.trans hn
  · refine (quiet_contact hX true D n recorded).bind fun _ s hs => ?_
    exact hs.1

/-! ### The calls of the service -/

theorem quiet_revoke (hX : Tolerated X svc.env) (jti : String) : Quiet X (revoke svc jti) :=
  quiet_bind (quiet_read _) fun _ => quiet_bind (quiet_statement hX fun _ => rfl) fun _ => quiet_pure _

theorem quiet_revokeForUser (hX : Tolerated X svc.env) (userId : String) : Quiet X (revokeForUser svc userId) :=
  quiet_bind (quiet_read _) fun _ => quiet_bind (quiet_statement hX fun _ => rfl) fun _ => quiet_pure _

theorem decode_error {tokens : TokenService Token} {now : Timestamp} {token : Token} {e : Raised}
    (h : decode tokens now token .refresh = .error e) : e ≠ .authentication "Invalid credentials" := by
  unfold decode at h
  cases hpayload : tokens.payload token with
  | none =>
    rw [hpayload] at h
    cases h
    decide
  | some claims =>
    rw [hpayload] at h
    dsimp only at h
    split_ifs at h with himmature hexpired htype
    · cases h
      decide
    · cases h
      decide
    · cases h
      decide

theorem addSession_error {db : Database} {row : RefreshSession} {e : Raised} (h : db.addSession row = .error e) :
    e = .integrity := by
  unfold Database.addSession at h
  split_ifs at h with hthere
  cases h
  rfl

theorem upgraded_error {rt : AuthRuntime Token} {o : Occasion} {password : String} {user : User} {e : Raised}
    (h : upgraded rt o password user = .error e) : e = .emptyPassword := by
  unfold upgraded hashPassword at h
  split_ifs at h with hrehash hempty
  · cases h
    rfl
  · cases h

theorem quiet_issuePair (hX : Tolerated X svc.env)
    (hraised : ∀ e, e ≠ .authentication "Invalid credentials" → X (.service e)) (user : User) :
    Quiet X (issuePair svc user) := by
  apply quiet_bind
  · apply quiet_lift
    intro e he
    exact hraised e (decode_error he)
  intro claims
  apply quiet_bind
  · apply quiet_write hX
    intro db e he
    apply hraised
    rw [addSession_error he]
    decide
  intro _
  exact quiet_pure _

theorem orderly_loggedIn (hX : Tolerated X svc.env)
    (hraised : ∀ e, e ≠ .authentication "Invalid credentials" → X (.service e)) (password : String) (user : User) :
    Orderly X (loggedIn svc password user) := by
  apply orderly_bind
  · apply quiet_lift
    intro e he
    apply hraised
    rw [upgraded_error he]
    decide
  intro current
  apply orderly_bind
  · apply quiet_write hX
    intro db e he
    cases he
  intro _
  apply orderly_bind (quiet_issuePair hX hraised current)
  intro pair
  apply orderly_then
  · apply orderly_record hX
    simp [entryBy, entryOf]
  intro _
  exact ⟨_, rfl⟩

theorem record_answered {s : Session Tables Outside} (hfailed : s.failed = false)
    (hfault : svc.env.faultAt s.calls = none) (entry : AuditLogEntry) :
    record svc entry s = (.ok (), { s with
      working := { s.working with auditLog := s.working.auditLog ++ [entry] }
      calls := s.calls + 1
      world := { s.world with recorded := s.world.recorded ++ [entry] } }) := by
  have hcontact := @contact_answered svc.env { s with
    working := { s.working with auditLog := s.working.auditLog ++ [entry] } } hfailed hfault true
  exact Call.run_bind_ok hcontact

theorem turnAway_answered (svc : Service Token) {s : Session Tables Outside} (hfailed : s.failed = false)
    (hfault : svc.env.faultAt s.calls = none) (actorId actorLabel : Option String) (reason : String) :
    ∃ s' entry, turnAway svc actorId actorLabel reason s =
        (.error (.service (.authentication "Invalid credentials")), s') ∧
      entry.action = "auth.login_failed" ∧ s'.committed = s.committed ∧
      s'.world.recorded = s.world.recorded ++ [entry] := by
  refine ⟨_, _, Call.run_bind_ok (record_answered hfailed hfault _), rfl, rfl, rfl⟩

theorem turnAway_faulted (hX : Tolerated X svc.env) {D : Tables → Prop} {n : Nat}
    {recorded : List AuditLogEntry} {s : Session Tables Outside} (hs : Before D n recorded s)
    (hfault : svc.env.faultAt s.calls ≠ none) (actorId actorLabel : Option String) (reason : String) :
    ∃ e s', turnAway svc actorId actorLabel reason s = (.error e, s') ∧ Undone X D recorded e s' := by
  obtain ⟨fault, hfault⟩ := Option.ne_none_iff_exists'.mp hfault
  obtain ⟨s', hrun, hcommitted, hworld⟩ :=
    contact_faulted (s := { s with working := { s.working with auditLog := s.working.auditLog ++
      [entryOf svc "auth.login_failed" actorId actorLabel (some (.dict [("reason", .str reason)]))] } })
      hs.1.2.1.1 hfault true
  refine ⟨fault.error, s', ?_, hX _ _ hfault, hcommitted ▸ hs.1.1, hworld ▸ hs.2⟩
  apply Call.run_bind_error
  exact Call.run_bind_error (c := contact svc.env true) hrun

theorem loginAs_cases (name password : String) (found : Option User) :
    (rejected svc.rt password found = true ∧ ∃ actorId actorLabel reason,
      loginAs svc name password found = turnAway svc actorId actorLabel reason) ∨
    (rejected svc.rt password found = false ∧ ∃ user,
      loginAs svc name password found = loggedIn svc password user) := by
  cases found with
  | none => exact .inl ⟨rfl, _, _, _, rfl⟩
  | some user =>
    dsimp only [loginAs, rejected]
    cases user.isActive with
    | false => exact .inl ⟨rfl, _, _, _, rfl⟩
    | true =>
      cases svc.rt.verify password user.passwordHash with
      | false => exact .inl ⟨rfl, _, _, _, rfl⟩
      | true => exact .inr ⟨rfl, _, rfl⟩

theorem login_turnedAway (svc : Service Token) {s : Session Tables Outside} {name password : String}
    (hfailed : s.failed = false) (hlookup : svc.env.faultAt s.calls = none) (hentry : svc.env.faultAt (s.calls + 1) = none)
    (hrejects : rejects svc.rt name password s.working.db = true) :
    ∃ s' entry, login svc name password s =
        (.error (.service (.authentication "Invalid credentials")), s') ∧
      entry.action = "auth.login_failed" ∧ s'.committed = s.committed ∧
      s'.world.recorded = s.world.recorded ++ [entry] := by
  have hselect : (select svc.env fun t : Tables => findByLogin svc.rt.lower name t.db.users) s =
      (.ok (findByLogin svc.rt.lower name s.working.db.users), { s with calls := s.calls + 1 }) :=
    Call.run_bind_ok (contact_answered hfailed hlookup false)
  rcases loginAs_cases name password (findByLogin svc.rt.lower name s.working.db.users) with
    ⟨-, actorId, actorLabel, reason, hturn⟩ | ⟨haccepted, -⟩
  · obtain ⟨s', entry, hrun, haction, hcommitted, hrecorded⟩ :=
      turnAway_answered svc (s := { s with calls := s.calls + 1 }) hfailed hentry actorId actorLabel reason
    refine ⟨s', entry, ?_, haction, hcommitted, hrecorded⟩
    rw [login, Call.run_bind_ok hselect, hturn, hrun]
  · exact absurd (hrejects.symm.trans haccepted) (by decide)

theorem orderly_login (hX : Tolerated X svc.env)
    (hraised : ∀ e, e ≠ .authentication "Invalid credentials" → X (.service e)) (name password : String)
    (D : Tables → Prop) (n : Nat) (recorded : List AuditLogEntry) :
    Triple (fun s => Before D n recorded s ∧ (svc.env.faultAt s.calls = none →
        svc.env.faultAt (s.calls + 1) = none → rejects svc.rt name password s.working.db = false))
      (login svc name password) (fun _ => Standing D fun t => failedEntries t = n) (Undone X D recorded) := by
  rintro s ⟨hs, hmeets⟩
  cases hlookup : svc.env.faultAt s.calls with
  | some fault =>
    obtain ⟨s', hrun, hcommitted, hworld⟩ := contact_faulted hs.1.2.1.1 hlookup false
    have hselect : (select svc.env fun t : Tables => findByLogin svc.rt.lower name t.db.users) s =
        (.error fault.error, s') := Call.run_bind_error hrun
    rw [login, Call.run_bind_error hselect]
    exact ⟨hX _ _ hlookup, hcommitted ▸ hs.1.1, hworld ▸ hs.2⟩
  | none =>
    have hselect : (select svc.env fun t : Tables => findByLogin svc.rt.lower name t.db.users) s =
        (.ok (findByLogin svc.rt.lower name s.working.db.users), { s with calls := s.calls + 1 }) :=
      Call.run_bind_ok (contact_answered hs.1.2.1.1 hlookup false)
    rw [login, Call.run_bind_ok hselect]
    rcases loginAs_cases name password (findByLogin svc.rt.lower name s.working.db.users) with
      ⟨hrejected, actorId, actorLabel, reason, hturn⟩ | ⟨-, user, hlogged⟩
    · have hentry : svc.env.faultAt (s.calls + 1) ≠ none := by
        intro hentry
        exact absurd ((hmeets hlookup hentry).symm.trans hrejected) (by decide)
      obtain ⟨e, s', hrun, hundone⟩ := turnAway_faulted hX (s := { s with calls := s.calls + 1 }) hs hentry
        actorId actorLabel reason
      rw [hturn, hrun]
      exact hundone
    · rw [hlogged]
      exact orderly_loggedIn hX hraised password user D n recorded { s with calls := s.calls + 1 } hs

/-! The exceptions of the other calls do not matter. -/

theorem tolerated_all (env : Environment Failure) : Tolerated (fun _ => True) env := fun _ _ _ => trivial

abbrev Anything : Failure → Prop := fun _ => True

variable (svc)

theorem quiet_lift_all (outcome : Except Raised α) : Quiet Anything (lift outcome) :=
  quiet_lift fun _ _ => trivial

theorem quiet_select_all (query : Tables → α) : Quiet Anything (select svc.env query : Work α) :=
  quiet_select (tolerated_all _) query

theorem quiet_write_all (change : Database → Except Raised Database) : Quiet Anything (write svc change) :=
  quiet_write (tolerated_all _) fun _ _ _ => trivial

theorem orderly_record_all {entry : AuditLogEntry} (hentry : entry.action ≠ "auth.login_failed") :
    Orderly Anything (record svc entry) :=
  orderly_record (tolerated_all _) hentry

theorem orderly_register (email username password : String) (fullName : Option String) :
    Orderly Anything (register svc email username password fullName) := by
  apply orderly_bind (quiet_lift_all _)
  intro _
  apply orderly_bind (quiet_select_all svc _)
  intro sameEmail
  cases sameEmail with
  | some _ => exact (quiet_raise trivial).orderly
  | none =>
    apply orderly_bind (quiet_select_all svc _)
    intro sameName
    cases sameName with
    | some _ => exact (quiet_raise trivial).orderly
    | none =>
      apply orderly_bind (quiet_lift_all _)
      intro passwordHash
      apply orderly_bind
      · apply quiet_edit
        intro t
        rfl
      intro _
      apply orderly_bind (quiet_write_all svc _)
      intro _
      apply orderly_then
      · apply orderly_record_all
        simp [entryBy, entryOf]
      intro _
      exact ⟨_, rfl⟩

theorem orderly_refresh (token : Token) : Orderly Anything (refresh svc token) := by
  apply orderly_bind (quiet_select_all svc _)
  intro checked
  apply orderly_bind (quiet_lift_all _)
  rintro ⟨claims, row⟩
  apply orderly_bind (quiet_select_all svc _)
  intro found
  apply orderly_bind (quiet_lift_all _)
  intro user
  apply orderly_bind (quiet_revoke (tolerated_all _) _)
  intro _
  apply orderly_bind (quiet_issuePair (tolerated_all _) (fun _ _ => trivial) user)
  intro pair
  apply orderly_then
  · apply orderly_record_all
    simp [entryBy, entryOf]
  intro _
  exact ⟨_, rfl⟩

theorem orderly_logout (token : Option Token) : Orderly Anything (logout svc token) := by
  cases token with
  | none => exact (quiet_pure _).orderly
  | some token =>
    unfold logout
    dsimp only
    split
    · exact (quiet_pure _).orderly
    apply orderly_bind (quiet_revoke (tolerated_all _) _)
    intro revoked
    cases revoked with
    | false => exact (quiet_pure _).orderly
    | true =>
      apply orderly_record_all
      simp [entryOf]

theorem orderly_logoutAll (user : User) : Orderly Anything (logoutAll svc user) := by
  apply orderly_bind (quiet_revokeForUser (tolerated_all _) _)
  intro count
  apply orderly_record_all
  simp [entryBy, entryOf]

theorem orderly_changePassword (user : User) (currentPassword newPassword : String) :
    Orderly Anything (changePassword svc user currentPassword newPassword) := by
  unfold changePassword
  split
  · exact (quiet_raise trivial).orderly
  apply orderly_bind (quiet_lift_all _)
  intro _
  apply orderly_bind (quiet_lift_all _)
  intro passwordHash
  apply orderly_bind (quiet_write_all svc _)
  intro _
  apply orderly_bind (quiet_revokeForUser (tolerated_all _) _)
  intro _
  apply orderly_record_all
  simp [entryBy, entryOf]

theorem quiet_changedEmail (user : User) (email : Option String) : Quiet Anything (changedEmail svc user email) := by
  cases email with
  | none => exact quiet_pure _
  | some email =>
    unfold changedEmail
    dsimp only
    split
    · exact quiet_pure _
    apply quiet_bind (quiet_select_all svc _)
    intro existing
    split
    · exact quiet_raise trivial
    · exact quiet_pure _

theorem orderly_updateProfile (user : User) (email fullName : Option String) :
    Orderly Anything (updateProfile svc user email fullName) := by
  apply orderly_bind (quiet_changedEmail svc user email)
  intro newEmail
  apply orderly_bind (quiet_read _)
  intro newName
  dsimp only
  split
  · exact (quiet_pure _).orderly
  apply orderly_bind
  · apply quiet_edit
    intro t
    rfl
  intro _
  apply orderly_bind (quiet_write_all svc _)
  intro _
  apply orderly_then
  · apply orderly_record_all
    simp [entryBy, entryOf]
  intro _
  exact ⟨_, rfl⟩

theorem orderly_requestPasswordReset (email : String) : Orderly Anything (requestPasswordReset svc email) := by
  apply orderly_bind (quiet_select_all svc _)
  intro found
  split
  · apply orderly_record_all
    simp [entryOf]
  apply orderly_bind
  · apply quiet_statement (tolerated_all _)
    intro t
    rfl
  intro _
  apply orderly_bind (quiet_write_all svc _)
  intro _
  apply orderly_record_all
  simp [entryBy, entryOf]

theorem orderly_confirmPasswordReset (token newPassword : String) :
    Orderly Anything (confirmPasswordReset svc token newPassword) := by
  apply orderly_bind (quiet_lift_all _)
  intro _
  apply orderly_bind (quiet_select_all svc _)
  intro checked
  apply orderly_bind (quiet_lift_all _)
  intro row
  apply orderly_bind (quiet_select_all svc _)
  intro found
  apply orderly_bind (quiet_lift_all _)
  intro user
  apply orderly_bind (quiet_lift_all _)
  intro passwordHash
  apply orderly_bind (quiet_write_all svc _)
  intro _
  apply orderly_bind (quiet_revokeForUser (tolerated_all _) _)
  intro _
  apply orderly_bind (quiet_write_all svc _)
  intro _
  apply orderly_record_all
  simp [entryBy, entryOf]

theorem orderly_perform {call : AuthCall Token User} (hcall : ∀ name password, call ≠ .login name password) :
    Orderly Anything (perform svc call) := by
  cases call with
  | register email username password fullName =>
    exact orderly_then (orderly_register svc email username password fullName) fun _ => ⟨_, rfl⟩
  | login name password => exact absurd rfl (hcall name password)
  | refresh token => exact orderly_then (orderly_refresh svc token) fun _ => ⟨_, rfl⟩
  | logout token => exact orderly_then (orderly_logout svc token) fun _ => ⟨_, rfl⟩
  | logoutAll user => exact orderly_then (orderly_logoutAll svc user) fun _ => ⟨_, rfl⟩
  | me user => exact (quiet_pure _).orderly
  | updateProfile user email fullName =>
    exact orderly_then (orderly_updateProfile svc user email fullName) fun _ => ⟨_, rfl⟩
  | changePassword user currentPassword newPassword =>
    exact orderly_then (orderly_changePassword svc user currentPassword newPassword) fun _ => ⟨_, rfl⟩
  | requestPasswordReset email =>
    exact orderly_then (orderly_requestPasswordReset svc email) fun _ => ⟨_, rfl⟩
  | confirmPasswordReset token newPassword =>
    exact orderly_then (orderly_confirmPasswordReset svc token newPassword) fun _ => ⟨_, rfl⟩

end Frames

/-! ### A request and its transaction -/

section Served

variable {Token : Type} {rt : AuthRuntime Token} {limits : Limits} {request : Request Token} {w : World}

theorem tolerated_env (X : Failure → Prop) (hX : ∀ name, X (.database name)) : Tolerated X request.env := by
  intro n fault hfault
  obtain ⟨fault', -, rfl⟩ := Option.map_eq_some_iff.mp hfault
  exact hX _

theorem before_session {D : Tables → Prop} (hD : D w.tables) :
    Before D (failedEntries w.tables) [] w.session :=
  ⟨⟨hD, ⟨rfl, rfl⟩, rfl⟩, rfl⟩

theorem checkLimit_run (limits : Limits) (request : Request Token) (route : String) (s : Session Tables Outside) :
    ∃ buckets, checkLimit limits request route s =
      (if limits.admits request.monotonic (request.client, route) s.world then .ok () else .error .rateLimited,
        { s with world := { s.world with buckets := buckets } }) := by
  unfold checkLimit Limits.admits
  by_cases hoff : limits.attempts ≤ 0
  · exact ⟨s.world.buckets, by simp [hoff]⟩
  · cases hpasses : (limits.check request.monotonic (s.world.buckets (request.client, route))).1 with
    | true =>
      refine ⟨fun key => if key = (request.client, route) then
        (limits.check request.monotonic (s.world.buckets (request.client, route))).2 else s.world.buckets key, ?_⟩
      simp [hoff, hpasses, Call.run_bind, outside]
    | false =>
      refine ⟨fun key => if key = (request.client, route) then
        (limits.check request.monotonic (s.world.buckets (request.client, route))).2 else s.world.buckets key, ?_⟩
      simp [hoff, hpasses, Call.run_bind, outside]

theorem quiet_checkLimit (route : String) : Quiet Anything (checkLimit limits request route) := by
  intro D n recorded s hs
  obtain ⟨buckets, hrun⟩ := checkLimit_run limits request route s
  rw [hrun]
  cases limits.admits request.monotonic (request.client, route) s.world with
  | true => exact hs
  | false => exact ⟨trivial, hs.1.1, hs.2⟩

theorem quiet_currentUser (access : Option Token) : Quiet Anything (currentUser rt request access) := by
  cases access with
  | none => exact quiet_raise trivial
  | some token =>
    apply quiet_bind (quiet_lift_all _)
    intro claims
    refine quiet_bind ?_ fun found => quiet_lift_all _
    intro D n recorded
    refine Triple.attempt (quiet_select (tolerated_all _) _ D n recorded) fun e s hs => ?_
    exact ⟨trivial, hs.committed, hs.recorded⟩

theorem quiet_arrive (call : AuthCall Token (Option Token)) : Quiet Anything (arrive rt limits request call) := by
  cases call with
  | register email username password fullName => exact quiet_bind (quiet_checkLimit _) fun _ => quiet_pure _
  | login name password => exact quiet_bind (quiet_checkLimit _) fun _ => quiet_pure _
  | refresh token => exact quiet_pure _
  | logout token => exact quiet_pure _
  | logoutAll access => exact quiet_bind (quiet_currentUser access) fun _ => quiet_pure _
  | me access => exact quiet_bind (quiet_currentUser access) fun _ => quiet_pure _
  | updateProfile access email fullName => exact quiet_bind (quiet_currentUser access) fun _ => quiet_pure _
  | changePassword access currentPassword newPassword =>
    exact quiet_bind (quiet_currentUser access) fun _ => quiet_pure _
  | requestPasswordReset email => exact quiet_bind (quiet_checkLimit _) fun _ => quiet_pure _
  | confirmPasswordReset token newPassword => exact quiet_pure _

theorem login_returns (svc : Service Token) (name password : String) (D : Tables → Prop) (n : Nat)
    (recorded : List AuditLogEntry) :
    Triple (Before D n recorded) (login svc name password) (fun _ => Standing D fun t => failedEntries t = n)
      fun _ s => D s.committed := by
  intro s hs
  by_cases hturned : svc.env.faultAt s.calls = none ∧ svc.env.faultAt (s.calls + 1) = none ∧
      rejects svc.rt name password s.working.db = true
  · obtain ⟨hlookup, hentry, hrejects⟩ := hturned
    obtain ⟨s', entry, hrun, -, hcommitted, -⟩ := login_turnedAway svc hs.1.2.1.1 hlookup hentry hrejects
    rw [hrun]
    show D s'.committed
    rw [hcommitted]
    exact hs.1.1
  · have hmeets (hlookup : svc.env.faultAt s.calls = none) (hentry : svc.env.faultAt (s.calls + 1) = none) :
        rejects svc.rt name password s.working.db = false := by
      by_contra hrejects
      exact hturned ⟨hlookup, hentry, by simpa using hrejects⟩
    exact (orderly_login (X := Anything) (tolerated_all _) (fun _ _ => trivial) name password D n recorded s
      ⟨hs, hmeets⟩).imp
      (fun _ hs => hs) fun _ hs => hs.committed

theorem perform_returns (svc : Service Token) (call : AuthCall Token User) (D : Tables → Prop) (n : Nat)
    (recorded : List AuditLogEntry) :
    Triple (Before D n recorded) (perform svc call) (fun _ => Standing D fun t => failedEntries t = n)
      fun _ s => D s.committed := by
  by_cases hlogin : ∃ name password, call = .login name password
  · obtain ⟨name, password, rfl⟩ := hlogin
    refine (login_returns svc name password D n recorded).bind fun answer => ?_
    exact fun _ hs => hs
  · refine (orderly_perform svc (fun name password h => hlogin ⟨name, password, h⟩) D n recorded).consequence
      (fun _ hs => hs) (fun _ _ hs => hs) fun _ _ hs => hs.committed

theorem respond_returns (answer : Answer Token) {D P : Tables → Prop} :
    Triple (Standing D P) (respond answer) (fun _ => Standing D P) fun e s => e = .response ∧ D s.committed := by
  cases answer with
  | nothing => exact fun _ hs => hs
  | tokens user pair => exact fun _ hs => hs
  | user user =>
    intro s hs
    dsimp only [respond]
    split
    · exact hs
    · exact ⟨rfl, hs.1⟩

theorem sessionDependency_error {α : Type} {env : Environment Failure} {body : Work α} {s s' : Session Tables Outside}
    {e : Failure} (h : body s = (.error e, s')) :
    sessionDependency env body s = (.error e, { s'.reverted with failed := false }) := by
  unfold sessionDependency
  rw [h]
  rfl

theorem triple_sessionDependency {α : Type} {X : Failure → Prop} {env : Environment Failure}
    (hX : Tolerated X env) {body : Work α} {A : Session Tables Outside → Prop} {n : Nat}
    (h : Triple A body (fun _ => Standing (fun t => failedEntries t = n) fun t => failedEntries t = n)
      fun e s => X e ∧ failedEntries s.committed = n) :
    Triple A (sessionDependency env body) (fun _ s => failedEntries s.committed = n)
      fun e s => X e ∧ failedEntries s.committed = n := by
  intro s hs
  have hbody := h s hs
  unfold sessionDependency
  rcases hrun : body s with ⟨e | a, s'⟩
  · rw [hrun] at hbody
    exact hbody
  · rw [hrun] at hbody
    obtain ⟨hcommitted, hlive, hworking⟩ := hbody
    cases hfault : env.faultAt s'.calls with
    | none =>
      have hcommit : commit env s' = (.ok (), { s' with committed := s'.working, calls := s'.calls + 1 }) :=
        Call.run_bind_ok (contact_answered hlive.1 hfault true)
      dsimp only
      rw [Call.run_bind_ok hcommit]
      exact hworking
    | some fault =>
      obtain ⟨s'', hrun', hcommitted', -⟩ := contact_faulted hlive.1 hfault true
      have hcommit : commit env s' = (.error fault.error, s'') := Call.run_bind_error hrun'
      dsimp only
      rw [Call.run_bind_error hcommit]
      exact ⟨hX _ _ hfault, (congrArg failedEntries hcommitted').trans hcommitted⟩

theorem endpoint_returns (rt : AuthRuntime Token) (limits : Limits) (request : Request Token) (D : Tables → Prop)
    (n : Nat) (recorded : List AuditLogEntry) :
    Triple (Before D n recorded) (endpoint rt limits request) (fun _ => Standing D fun t => failedEntries t = n)
      fun _ s => D s.committed := by
  apply Triple.bind
  · exact (quiet_arrive request.call D n recorded).consequence (fun _ hs => hs) (fun _ _ hs => hs)
      fun _ _ hs => hs.committed
  intro call
  apply Triple.bind
  · exact perform_returns (request.service rt) call D n recorded
  intro answer
  exact (respond_returns answer).consequence (fun _ hs => hs) (fun _ _ hs => hs) fun _ _ hs => hs.2

theorem failedEntries_next : failedEntries (next rt limits w request).tables = failedEntries w.tables := by
  have hendpoint := endpoint_returns rt limits request (fun t => failedEntries t = failedEntries w.tables)
    (failedEntries w.tables) []
  have hserved := triple_sessionDependency (tolerated_all request.env)
    (hendpoint.consequence (fun _ hs => hs) (fun _ _ hs => hs) fun _ _ hs => ⟨trivial, hs⟩) w.session
    (before_session rfl)
  exact (hserved.imp (fun _ hs => hs) fun _ hs => hs.2).of_const

theorem arrive_login (rt : AuthRuntime Token) (limits : Limits) (request : Request Token) (w : World)
    (name password : String) : ∃ buckets, arrive rt limits request (.login name password) w.session =
    (if limits.admits request.monotonic (request.client, "login") w.session.world then .ok (.login name password)
      else .error .rateLimited, Session.opened w.tables ⟨buckets, []⟩ 0) := by
  obtain ⟨buckets, hrun⟩ := checkLimit_run limits request "login" w.session
  refine ⟨buckets, ?_⟩
  cases hpasses : limits.admits request.monotonic (request.client, "login") w.session.world with
  | true =>
    rw [hpasses] at hrun
    exact Call.run_bind_ok hrun
  | false =>
    rw [hpasses] at hrun
    exact Call.run_bind_error hrun

theorem arrived_login {name password : String} {call : AuthCall Token User} {s : Session Tables Outside}
    (h : arrive rt limits request (.login name password) w.session = (.ok call, s)) :
    call = .login name password ∧
      limits.admits request.monotonic (request.client, "login") w.session.world = true ∧
      ∃ buckets, s = (Session.opened w.tables ⟨buckets, []⟩ 0) := by
  obtain ⟨buckets, hrun⟩ := arrive_login rt limits request w name password
  rw [hrun] at h
  obtain ⟨houtcome, hstate⟩ := Prod.mk.inj h
  split_ifs at houtcome with hpasses
  exact ⟨(Except.ok.inj houtcome).symm, hpasses, buckets, hstate.symm⟩

theorem arrived_other {call : AuthCall Token User} {s s' : Session Tables Outside}
    {action : AuthCall Token (Option Token)} (haction : ∀ name password, action ≠ .login name password)
    (h : arrive rt limits request action s = (.ok call, s')) : ∀ name password, call ≠ .login name password := by
  intro name password hcall
  subst hcall
  cases action with
  | login name' password' => exact haction name' password' rfl
  | refresh token => cases h
  | logout token => cases h
  | confirmPasswordReset token newPassword => cases h
  | register email username password' fullName =>
    obtain ⟨_, _, -, hpure⟩ := Call.of_bind_ok h
    cases hpure
  | logoutAll access =>
    obtain ⟨_, _, -, hpure⟩ := Call.of_bind_ok h
    cases hpure
  | me access =>
    obtain ⟨_, _, -, hpure⟩ := Call.of_bind_ok h
    cases hpure
  | updateProfile access email fullName =>
    obtain ⟨_, _, -, hpure⟩ := Call.of_bind_ok h
    cases hpure
  | changePassword access currentPassword newPassword =>
    obtain ⟨_, _, -, hpure⟩ := Call.of_bind_ok h
    cases hpure
  | requestPasswordReset email =>
    obtain ⟨_, _, -, hpure⟩ := Call.of_bind_ok h
    cases hpure

/-- The exceptions but the one of invalid credentials. -/
def NotInvalid (e : Failure) : Prop := e ≠ .service (.authentication "Invalid credentials")

theorem tolerated_notInvalid (request : Request Token) : Tolerated NotInvalid request.env := by
  apply tolerated_env
  intro name h
  cases h

theorem perform_login {name password : String} (hcall : request.call = .login name password)
    (hmeets : Meets rt limits w request)
    (hadmits : limits.admits request.monotonic (request.client, "login") w.session.world = true)
    {D : Tables → Prop} (hD : D w.tables) (buckets : String × String → List Timestamp) :
    Triple (· = (Session.opened w.tables ⟨buckets, []⟩ 0))
      (perform (request.service rt) (.login name password))
      (fun _ => Standing D fun t => failedEntries t = failedEntries w.tables) (Undone NotInvalid D []) := by
  have htolerated : Tolerated NotInvalid (request.service rt).env := tolerated_notInvalid request
  have hraised (e : Raised) (he : e ≠ .authentication "Invalid credentials") :
      NotInvalid (.service e) := by
    intro h
    cases h
    exact he rfl
  have hlogin := orderly_login htolerated hraised name password D (failedEntries w.tables) []
  rintro s rfl
  refine (hlogin.bind fun answer => ?_) _ ⟨⟨⟨hD, ⟨rfl, rfl⟩, rfl⟩, rfl⟩, fun hlookup hentry => ?_⟩
  · exact fun _ hs => hs
  · unfold Meets at hmeets
    rw [hcall] at hmeets
    exact hmeets hadmits (Option.map_eq_none_iff.mp hlookup) (Option.map_eq_none_iff.mp hentry)

theorem next_of_raised {call : AuthCall Token User} {s s' : Session Tables Outside} {e : Failure}
    (harrive : arrive rt limits request request.call w.session = (.ok call, s))
    (hperform : perform (request.service rt) call s = (.error e, s')) :
    (served rt limits request w).1 = .error e ∧ (next rt limits w request).tables = s'.committed := by
  have hendpoint : endpoint rt limits request w.session = (.error e, s') := by
    unfold endpoint
    rw [Call.run_bind_ok harrive]
    exact Call.run_bind_error hperform
  have hserved : sessionDependency request.env (endpoint rt limits request) w.session = _ :=
    sessionDependency_error hendpoint
  constructor
  · exact congrArg Prod.fst hserved
  · exact congrArg (fun outcome => outcome.2.committed) hserved

theorem survives_of_meets (hmeets : Meets rt limits w request) : Survives rt limits w request := by
  intro call s e s' harrive hperform
  have hundone : (fun s : Session Tables Outside => s.committed = w.tables ∧ s.world.recorded = []) s' := by
    by_cases hlogin : ∃ name password, request.call = .login name password
    · obtain ⟨name, password, hcall⟩ := hlogin
      rw [hcall] at harrive
      obtain ⟨rfl, hadmits, buckets, rfl⟩ := arrived_login harrive
      have hundone := perform_login hcall hmeets hadmits (D := (· = w.tables)) rfl buckets _ rfl
      rw [hperform] at hundone
      exact ⟨hundone.committed, hundone.recorded⟩
    · have hother (name password : String) : request.call ≠ .login name password :=
        fun h => hlogin ⟨name, password, h⟩
      have hbefore := (quiet_arrive request.call (· = w.tables) _ []).of_ok (before_session rfl) harrive
      have hundone := orderly_perform (request.service rt) (arrived_other hother harrive) _ _ _ s hbefore
      rw [hperform] at hundone
      exact ⟨hundone.committed, hundone.recorded⟩
  rw [(next_of_raised harrive hperform).2, hundone.1, hundone.2, List.append_nil]

theorem not_meets_cases (h : ¬Meets rt limits w request) : ∃ name password,
    request.call = .login name password ∧ limits.admits request.monotonic (request.client, "login") w.session.world = true ∧
      request.faultAt 0 = none ∧ request.faultAt 1 = none ∧ rejects rt name password w.tables.db = true := by
  unfold Meets at h
  split at h
  · rename_i name password hcall
    simp only [Classical.not_imp, Bool.not_eq_false] at h
    exact ⟨name, password, hcall, h⟩
  · exact absurd trivial h

theorem lost_of_not_meets (hmeets : ¬Meets rt limits w request) :
    failedLogin rt limits w request = true ∧ ¬Survives rt limits w request := by
  obtain ⟨name, password, hcall, hadmits, hlookup, hentry, hrejects⟩ := not_meets_cases hmeets
  obtain ⟨buckets, harrive⟩ :=
    arrive_login rt limits request w name password
  rw [hadmits, if_pos rfl, ← hcall] at harrive
  obtain ⟨s', entry, hlogin, -, hcommitted, hrecorded⟩ := login_turnedAway (request.service rt)
    (s := (Session.opened w.tables ⟨buckets, []⟩ 0)) rfl
    (Option.map_eq_none_iff.mpr hlookup) (Option.map_eq_none_iff.mpr hentry) hrejects
  have hperform : perform (request.service rt) (.login name password)
      (Session.opened w.tables ⟨buckets, []⟩ 0) =
        (.error (.service (.authentication "Invalid credentials")), s') :=
    Call.run_bind_error hlogin
  obtain ⟨hanswer, htables⟩ := next_of_raised harrive hperform
  constructor
  · unfold failedLogin
    rw [hcall, hanswer]
    rfl
  · intro hsurvives
    have hlog := hsurvives _ _ _ _ harrive hperform
    rw [htables, hcommitted, hrecorded] at hlog
    have hlength := congrArg List.length hlog
    simp [Session.opened] at hlength

theorem endpoint_login {name password : String} (hcall : request.call = .login name password)
    (hmeets : Meets rt limits w request) : Triple (· = w.session) (endpoint rt limits request)
      (fun _ => Standing (fun t => failedEntries t = failedEntries w.tables)
        fun t => failedEntries t = failedEntries w.tables)
      fun e s => NotInvalid e ∧ failedEntries s.committed = failedEntries w.tables := by
  rintro s rfl
  obtain ⟨buckets, harrive⟩ :=
    arrive_login rt limits request w name password
  rw [← hcall] at harrive
  unfold endpoint
  cases hadmits : limits.admits request.monotonic (request.client, "login") w.session.world with
  | false =>
    rw [hadmits] at harrive
    rw [Call.run_bind_error harrive]
    refine ⟨?_, rfl⟩
    intro h
    cases h
  | true =>
    rw [hadmits] at harrive
    rw [Call.run_bind_ok harrive]
    have hperform := perform_login hcall hmeets hadmits (D := fun t => failedEntries t = failedEntries w.tables)
      rfl buckets
    have hresponse : NotInvalid .response := by
      intro h
      cases h
    have hresult : Triple (· = Session.opened w.tables ⟨buckets, []⟩ 0)
        (perform (request.service rt) (.login name password) >>= fun answer => respond answer)
        (fun _ => Standing (fun t => failedEntries t = failedEntries w.tables)
          fun t => failedEntries t = failedEntries w.tables)
        fun e s => NotInvalid e ∧ failedEntries s.committed = failedEntries w.tables := by
      apply Triple.bind
      · exact hperform.consequence (fun _ hs => hs) (fun _ _ hs => hs) fun _ _ hs => ⟨hs.raised, hs.committed⟩
      intro answer
      refine (respond_returns answer).consequence (fun _ hs => hs) (fun _ _ hs => hs) ?_
      rintro e s ⟨rfl, hs⟩
      exact ⟨hresponse, hs⟩
    exact hresult _ rfl

theorem not_failedLogin_of_meets (hmeets : Meets rt limits w request) :
    failedLogin rt limits w request = false := by
  unfold failedLogin
  split
  · rename_i name password message hcall hanswer
    have hserved := triple_sessionDependency (tolerated_notInvalid request)
      (endpoint_login hcall hmeets) w.session rfl
    unfold served at hanswer
    rw [hanswer] at hserved
    apply decide_eq_false
    intro hmessage
    exact hserved.1 (by rw [hmessage])
  · rfl

theorem meets_iff_not_failedLogin : failedLogin rt limits w request = false ↔ Meets rt limits w request := by
  constructor
  · intro h
    by_contra hmeets
    exact absurd ((lost_of_not_meets hmeets).1.symm.trans h) (by decide)
  · exact not_failedLogin_of_meets

theorem survives_iff_meets : Survives rt limits w request ↔ Meets rt limits w request := by
  constructor
  · intro h
    by_contra hmeets
    exact (lost_of_not_meets hmeets).2 h
  · exact survives_of_meets

end Served

/-! ### Runs -/

section Histories

variable {Token : Type} (rt : AuthRuntime Token) (limits : Limits)

theorem failedEntries_final (w : World) (run : List (Request Token)) :
    failedEntries (final (next rt limits) w run).tables = failedEntries w.tables :=
  final_invariant (next rt limits) (I := fun w' => failedEntries w'.tables = failedEntries w.tables)
    (fun _ _ _ hw => failedEntries_next.trans hw) rfl

theorem failedLogins_eq_zero_iff (w : World) (run : List (Request Token)) :
    failedLogins rt limits w run = 0 ↔ Throughout (next rt limits) (Meets rt limits) w run := by
  induction run generalizing w with
  | nil => simp [failedLogins, Throughout]
  | cons request rest ih =>
    rw [failedLogins, Throughout, Nat.add_eq_zero_iff, ih, ← meets_iff_not_failedLogin]
    cases failedLogin rt limits w request with
    | false => simp
    | true => simp

/-- Of a run, each failed login has left one entry in the committed database, and what was recorded
    by calls that raised is there, iff no login of the run got to the service with credentials of no
    active user, the database answering it. -/
theorem login_failures_audited_iff (w : World) (run : List (Request Token)) :
    (failedEntries (final (next rt limits) w run).tables =
        failedEntries w.tables + failedLogins rt limits w run ∧
      Throughout (next rt limits) (Survives rt limits) w run) ↔
    Throughout (next rt limits) (Meets rt limits) w run := by
  have hcount : failedEntries (final (next rt limits) w run).tables =
      failedEntries w.tables + failedLogins rt limits w run ↔
        Throughout (next rt limits) (Meets rt limits) w run := by
    rw [← failedLogins_eq_zero_iff, failedEntries_final]
    exact Nat.left_eq_add
  have hsurvive : Throughout (next rt limits) (Survives rt limits) w run ↔
      Throughout (next rt limits) (Meets rt limits) w run :=
    throughout_congr (next rt limits) (fun _ _ => survives_iff_meets) w run
  rw [hcount, hsurvive, and_self_iff]

end Histories

/-! ### One login -/

/-- A login as `alice`, with another password. -/
def wrongPassword : Request TokenClaims where
  o := { now := 0, salt := 0, accessJti := "a", refreshJti := "r", resetToken := "t" }
  ctx := { ipAddress := some "192.0.2.7", requestId := none }
  newUserId := "2"
  monotonic := 0
  client := "192.0.2.7"
  faultAt _ := none
  call := .login "alice" "a guess"

def aliceWorld : World where
  tables :=
    { db := { users := onlyAlice, refreshSessions := Table.empty, passwordResetTokens := Table.empty }
      fullNames := fun _ => none
      auditLog := [] }
  buckets _ := []

/-- The settings as they are by default. -/
def defaultLimits : Limits where
  attempts := 10
  windowSeconds := 300

/-- The login fails, and nothing of it is in the committed database. -/
theorem failed_login_unaudited :
    failedLogins plainRuntime defaultLimits aliceWorld [wrongPassword] = 1 ∧
      failedEntries (final (next plainRuntime defaultLimits) aliceWorld [wrongPassword]).tables ≠
        failedEntries aliceWorld.tables + failedLogins plainRuntime defaultLimits aliceWorld [wrongPassword] := by
  decide

end LoginAudit
