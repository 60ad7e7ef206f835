/-
  Auditarr/AuthRefinement.lean
  ============================
  **The audited calls do what the plain ones do.**

  Where the database answers every round trip, a request leaves the users, sessions and reset
  tokens that `CredentialRevocation.serve` leaves.
-/
import Auditarr.CredentialRevocation
import Auditarr.LoginAudit

namespace AuthRefinement

open Effects Transactions KeyedTable PyValues AuthStore Runs AuditedCalls LoginAudit
open AuthService (AuthRuntime Occasion TokenPair hashPassword validatePassword passwordChanged passwordReset
  refreshRecord refreshUser resetRecord resetUser resetTtl resolveUser upgraded)
open CredentialRevocation (Action)

/-! ### Following a pure function -/

section Rules

variable {Token α β ρ σ : Type} {svc : Service Token} {db : Database}

/-- The call has returned or raised as a pure function did; `R` compares what is returned. -/
def Agrees (R : ρ → α → Database → Prop) :
    Except Raised ρ → Except Failure α × Session Tables Outside → Prop
  | .error e, result => result.1 = .error (.service e)
  | .ok r, result => ∃ a, result.1 = .ok a ∧ result.2.failed = false ∧ R r a result.2.working.db

/-- From these rows the call does as a pure function. -/
def Follows (R : ρ → α → Database → Prop) (db : Database) (c : Work α) (outcome : Except Raised ρ) : Prop :=
  ∀ s, s.failed = false → s.working.db = db → Agrees R outcome (c s)

variable {R : ρ → α → Database → Prop} {Q : σ → β → Database → Prop}

theorem follows_pure {a : α} {r : ρ} (h : R r a db) : Follows R db (pure a) (.ok r) := by
  rintro s hfailed rfl
  exact ⟨a, rfl, hfailed, h⟩

theorem follows_raise (e : Raised) : Follows R db (Call.raise (.service e)) (.error e) := fun _ _ _ => rfl

theorem follows_bind {c : Work α} {k : α → Work β} {outcome : Except Raised ρ} {f : ρ → Except Raised σ}
    (hc : Follows R db c outcome) (hk : ∀ r a db', R r a db' → Follows Q db' (k a) (f r)) :
    Follows Q db (c >>= k) (outcome >>= f) := by
  intro s hfailed hdb
  have hagrees := hc s hfailed hdb
  rcases hrun : c s with ⟨result, s'⟩
  rw [hrun] at hagrees
  cases outcome with
  | error e =>
    obtain rfl : result = .error (.service e) := hagrees
    rw [Call.run_bind_error hrun]
    rfl
  | ok r =>
    obtain ⟨a, hresult, hfailed', hR⟩ := hagrees
    obtain rfl : result = .ok a := hresult
    rw [Call.run_bind_ok hrun]
    exact hk r a _ hR s' hfailed' rfl

theorem follows_then {c : Work α} {k : α → Work β} {r : ρ} {outcome : Except Raised σ}
    (hc : Follows R db c (.ok r)) (hk : ∀ a db', R r a db' → Follows Q db' (k a) outcome) :
    Follows Q db (c >>= k) outcome := by
  have hc' : Follows (fun (_ : ρ) a db' => R r a db') db c (.ok r) := hc
  exact follows_bind (f := fun _ => outcome) hc' fun _ => hk

theorem follows_lift {outcome : Except Raised α} {k : α → Work β} {f : α → Except Raised σ}
    (hk : ∀ a, Follows Q db (k a) (f a)) : Follows Q db (lift outcome >>= k) (outcome >>= f) := by
  cases outcome with
  | error e => exact follows_raise e
  | ok a => exact hk a

variable {outcome : Except Raised σ}

theorem follows_read (field : Session Tables Outside → α) {k : α → Work β}
    (h : ∀ a, Follows Q db (k a) outcome) : Follows Q db (Call.read field >>= k) outcome := by
  intro s hfailed hdb
  rw [Call.run_bind_ok (Call.run_read _ s)]
  exact h _ s hfailed hdb

variable (hquiet : ∀ n, svc.env.faultAt n = none)
include hquiet

theorem follows_select (query : Database → α) {k : α → Work β} (h : Follows Q db (k (query db)) outcome) :
    Follows Q db (select svc.env (fun t => query t.db) >>= k) outcome := by
  rintro s hfailed rfl
  have hselect : (select svc.env fun t : Tables => query t.db) s =
      (.ok (query s.working.db), { s with calls := s.calls + 1 }) :=
    Call.run_bind_ok (contact_answered hfailed (hquiet _) false)
  rw [Call.run_bind_ok hselect]
  exact h { s with calls := s.calls + 1 } hfailed rfl

variable {k : Unit → Work β}

theorem follows_statement (change : Database → Database) (h : Follows Q (change db) (k ()) outcome) :
    Follows Q db (statement svc.env (fun t => { t with db := change t.db }) >>= k) outcome := by
  rintro s hfailed rfl
  have hstatement : (statement svc.env fun t : Tables => { t with db := change t.db }) s =
      (.ok (), { s with working := { s.working with db := change s.working.db }, calls := s.calls + 1 }) :=
    Call.run_bind_ok (contact_answered hfailed (hquiet _) false)
  rw [Call.run_bind_ok hstatement]
  exact h { s with working := { s.working with db := change s.working.db }, calls := s.calls + 1 } hfailed rfl

theorem write_ok {change : Database → Except Raised Database} {s : Session Tables Outside} {db' : Database}
    (hfailed : s.failed = false) (hchange : change s.working.db = .ok db') : write svc change s =
      (.ok (), { s with working := { s.working with db := db' }, calls := s.calls + 1 }) := by
  unfold write
  rw [Call.run_bind_ok (Call.run_read _ s), hchange]
  exact @contact_answered svc.env { s with working := { s.working with db := db' } } hfailed (hquiet _) true

theorem follows_write {change : Database → Except Raised Database} {f : Database → Except Raised σ}
    (h : ∀ db', Follows Q db' (k ()) (f db')) : Follows Q db (write svc change >>= k) (change db >>= f) := by
  rintro s hfailed rfl
  cases hchange : change s.working.db with
  | error e =>
    have hwrite : write svc change s = refused svc.env (.service e) s := by
      unfold write
      rw [Call.run_bind_ok (Call.run_read _ s), hchange]
    unfold refused at hwrite
    rw [if_neg (by simp [hfailed])] at hwrite
    rw [Call.run_bind_error hwrite]
    rfl
  | ok db' =>
    rw [Call.run_bind_ok (write_ok hquiet hfailed hchange)]
    exact h db' { s with working := { s.working with db := db' }, calls := s.calls + 1 } hfailed rfl

theorem follows_flush {change : Database → Database} (h : Follows Q (change db) (k ()) outcome) :
    Follows Q db (write svc (fun db => .ok (change db)) >>= k) outcome := by
  rintro s hfailed rfl
  have hchange : (fun db => (.ok (change db) : Except Raised Database)) s.working.db =
      .ok (change s.working.db) := rfl
  rw [Call.run_bind_ok (write_ok hquiet hfailed hchange)]
  exact h { s with working := { s.working with db := change s.working.db }, calls := s.calls + 1 } hfailed rfl

theorem follows_record {entry : AuditLogEntry} (h : Follows Q db (k ()) outcome) :
    Follows Q db (record svc entry >>= k) outcome := by
  rintro s hfailed rfl
  rw [Call.run_bind_ok (record_answered hfailed (hquiet _) entry)]
  exact h { s with
    working := { s.working with auditLog := s.working.auditLog ++ [entry] }
    calls := s.calls + 1
    world := { s.world with recorded := s.world.recorded ++ [entry] } } hfailed rfl

end Rules

/-! ### The calls -/

section Calls

variable {Token : Type} {svc : Service Token} {db : Database}

/-- The value that is returned is that of the pure function, and so are the rows. -/
abbrev Same {α : Type} (r : α × Database) (a : α) (db : Database) : Prop := r = (a, db)

/-- The rows are those that the pure function returns. -/
abbrev SameRows (r : Database) (_ : Unit) (db : Database) : Prop := r = db

variable (hquiet : ∀ n, svc.env.faultAt n = none)
include hquiet

theorem follows_recordLast {entry : AuditLogEntry} : Follows SameRows db (record svc entry) (.ok db) := by
  rintro s hfailed rfl
  rw [record_answered hfailed (hquiet _) entry]
  exact ⟨(), rfl, hfailed, rfl⟩

theorem follows_writeLast {change : Database → Except Raised Database} {entry : AuditLogEntry} :
    Follows SameRows db (write svc change >>= fun _ => record svc entry) (change db) := by
  have hwrite : Follows SameRows db (write svc change >>= fun _ => record svc entry) (change db >>= Except.ok) :=
    follows_write hquiet fun _ => follows_recordLast hquiet
  rwa [show change db >>= Except.ok = change db from bind_pure _] at hwrite

theorem follows_revoke {β σ : Type} {Q : σ → β → Database → Prop} {outcome : Except Raised σ} {jti : String}
    {k : Bool → Work β} (h : ∀ matched, Follows Q (db.revoke svc.o.now jti).2 (k matched) outcome) :
    Follows Q db (revoke svc jti >>= k) outcome := by
  simp only [revoke, Call.bind_assoc, Call.bind_pure_left]
  apply follows_read
  intro matched
  apply follows_statement hquiet fun db => (db.revoke svc.o.now jti).2
  exact h matched

theorem follows_revokeForUser {β σ : Type} {Q : σ → β → Database → Prop} {outcome : Except Raised σ}
    {userId : String} {k : Nat → Work β}
    (h : ∀ count, Follows Q (db.revokeForUser svc.o.now userId) (k count) outcome) :
    Follows Q db (revokeForUser svc userId >>= k) outcome := by
  simp only [revokeForUser, Call.bind_assoc, Call.bind_pure_left]
  apply follows_read
  intro count
  apply follows_statement hquiet fun db => db.revokeForUser svc.o.now userId
  exact h count

theorem follows_issuePair (user : User) :
    Follows Same db (issuePair svc user) (AuthService.issuePair svc.rt svc.o user db) := by
  apply follows_lift
  intro claims
  apply follows_write hquiet
  intro db'
  exact follows_pure rfl

theorem follows_login (name password : String) :
    Follows Same db (login svc name password) (AuthService.login svc.rt svc.o name password db) := by
  apply follows_select hquiet fun db => findByLogin svc.rt.lower name db.users
  unfold AuthService.login
  cases findByLogin svc.rt.lower name db.users with
  | none => exact follows_record hquiet (follows_raise _)
  | some user =>
    dsimp only [loginAs]
    split
    · exact follows_record hquiet (follows_raise _)
    split
    · exact follows_record hquiet (follows_raise _)
    apply follows_lift
    intro current
    apply follows_flush hquiet
    apply follows_bind (follows_issuePair hquiet current)
    rintro _ pair db' rfl
    apply follows_record hquiet
    exact follows_pure rfl

theorem follows_refresh (token : Token) :
    Follows Same db (refresh svc token) (AuthService.refresh svc.rt svc.o token db) := by
  apply follows_select hquiet fun db => refreshRecord svc.rt svc.o token db
  apply follows_lift
  rintro ⟨claims, row⟩
  apply follows_select hquiet fun db => refreshUser claims db
  apply follows_lift
  intro user
  apply follows_revoke hquiet
  intro _
  apply follows_bind (follows_issuePair hquiet user)
  rintro _ pair db' rfl
  apply follows_record hquiet
  exact follows_pure rfl

theorem follows_logout (token : Option Token) :
    Follows SameRows db (logout svc token) (.ok (AuthService.logout svc.rt svc.o token db)) := by
  cases token with
  | none => exact follows_pure rfl
  | some token =>
    dsimp only [logout, AuthService.logout]
    cases decode svc.rt.tokens svc.o.now token .refresh with
    | error _ => exact follows_pure rfl
    | ok claims =>
      apply follows_revoke hquiet
      intro matched
      cases matched with
      | false => exact follows_pure rfl
      | true => exact follows_recordLast hquiet

theorem follows_logoutAll (user : User) :
    Follows SameRows db (logoutAll svc user) (.ok (AuthService.logoutAll svc.o user db)) := by
  apply follows_revokeForUser hquiet
  intro _
  exact follows_recordLast hquiet

theorem follows_changePassword (user : User) (currentPassword newPassword : String) :
    Follows SameRows db (changePassword svc user currentPassword newPassword)
      (AuthService.changePassword svc.rt svc.o user currentPassword newPassword db) := by
  unfold changePassword AuthService.changePassword
  split
  · exact follows_raise _
  apply follows_lift
  intro _
  apply follows_lift
  intro passwordHash
  apply follows_flush hquiet
  apply follows_revokeForUser hquiet
  intro _
  exact follows_recordLast hquiet

theorem follows_requestPasswordReset (email : String) :
    Follows SameRows db (requestPasswordReset svc email)
      (AuthService.requestPasswordReset svc.rt svc.o email db) := by
  apply follows_select hquiet fun db => userByEmail svc.rt.lower (svc.rt.lower (strip email)) db
  unfold AuthService.requestPasswordReset userByEmail
  cases db.users.rows.find? fun user => user.email = svc.rt.lower (svc.rt.lower (strip email)) with
  | none => exact follows_recordLast hquiet
  | some user =>
    cases hactive : user.isActive with
    | false =>
      simp only [Option.filter_some, hactive]
      exact follows_recordLast hquiet
    | true =>
      simp only [Option.filter_some, hactive, if_true, Bool.not_true, Bool.false_eq_true, if_false]
      apply follows_statement hquiet fun db => db.deleteForUser user.id
      exact follows_writeLast hquiet

theorem follows_confirmPasswordReset (token newPassword : String) :
    Follows SameRows db (confirmPasswordReset svc token newPassword)
      (AuthService.confirmPasswordReset svc.rt svc.o token newPassword db) := by
  apply follows_lift
  intro _
  apply follows_select hquiet fun db => resetRecord svc.rt svc.o token db
  apply follows_lift
  intro row
  apply follows_select hquiet fun db => resetUser row db
  apply follows_lift
  intro user
  apply follows_lift
  intro passwordHash
  apply follows_flush hquiet
  apply follows_revokeForUser hquiet
  intro _
  exact follows_writeLast hquiet

end Calls

/-! ### Requests -/

section Requests

variable {Token : Type} {rt : AuthRuntime Token} {limits : Limits} {request : Request Token} {db : Database}

/-- The request of an action. -/
def callOf : Action Token → AuthCall Token (Option Token)
  | .login name password => .login name password
  | .refresh token => .refresh token
  | .logout token => .logout token
  | .logoutAll access => .logoutAll access
  | .changePassword access currentPassword newPassword => .changePassword access currentPassword newPassword
  | .requestPasswordReset email => .requestPasswordReset email
  | .confirmPasswordReset token newPassword => .confirmPasswordReset token newPassword

/-- The tokens that an answer hands out. -/
def issued : Answer Token → List Token
  | .tokens _ pair => [pair.accessToken, pair.refreshToken]
  | _ => []

/-- The answer hands out the tokens that the plain function does, and leaves its rows. -/
abbrev SameAnswer (r : List Token × Database) (answer : Answer Token) (db : Database) : Prop :=
  r = (issued answer, db)

theorem follows_currentUser (hquiet : ∀ n, request.faultAt n = none) (access : Option Token) :
    Follows (fun user a db' => user = a ∧ db' = db) db (currentUser rt request access)
      (AuthService.currentUser rt request.o access db) := by
  cases access with
  | none => exact follows_raise _
  | some token =>
    apply follows_lift
    intro claims
    rintro s hfailed rfl
    have hselect : (select request.env fun t : Tables => resolveUser claims t.db) s =
        (.ok (resolveUser claims s.working.db), { s with calls := s.calls + 1 }) :=
      Call.run_bind_ok (contact_answered hfailed (Option.map_eq_none_iff.mpr (hquiet _)) false)
    have hattempt : Call.attempt (select request.env fun t : Tables => resolveUser claims t.db)
        (fun _ => Call.raise .unavailable) s =
          (.ok (resolveUser claims s.working.db), { s with calls := s.calls + 1 }) := by
      rw [Call.run_attempt, hselect]
    rw [Call.run_bind_ok hattempt]
    cases resolveUser claims s.working.db with
    | error e => rfl
    | ok user => exact ⟨user, rfl, hfailed, rfl, rfl⟩

theorem follows_endpoint (rt : AuthRuntime Token) (hquiet : ∀ n, request.faultAt n = none)
    (hlimits : limits.attempts ≤ 0) {action : Action Token} (hcall : request.call = callOf action) :
    Follows SameAnswer db (endpoint rt limits request) (CredentialRevocation.serve rt request.o action db) := by
  have hquiet' (n : Nat) : (request.service rt).env.faultAt n = none := Option.map_eq_none_iff.mpr (hquiet n)
  unfold endpoint
  rw [hcall]
  cases action with
  | login name password =>
    simp only [callOf, arrive, checkLimit, if_pos hlimits, Call.bind_pure_left, perform, Call.bind_assoc]
    apply follows_bind (follows_login hquiet' name password)
    rintro _ a db' rfl
    exact follows_pure rfl
  | refresh token =>
    simp only [callOf, arrive, Call.bind_pure_left, perform, Call.bind_assoc]
    apply follows_bind (follows_refresh hquiet' token)
    rintro _ a db' rfl
    exact follows_pure rfl
  | logout token =>
    simp only [callOf, arrive, Call.bind_pure_left, perform, Call.bind_assoc]
    apply follows_then (follows_logout hquiet' token)
    rintro a db' rfl
    exact follows_pure rfl
  | logoutAll access =>
    simp only [callOf, arrive, Call.bind_pure_left, perform, Call.bind_assoc]
    apply follows_bind (follows_currentUser hquiet access)
    rintro user a db' ⟨rfl, rfl⟩
    apply follows_then (follows_logoutAll hquiet' user)
    rintro a db rfl
    exact follows_pure rfl
  | changePassword access currentPassword newPassword =>
    simp only [callOf, arrive, Call.bind_pure_left, perform, Call.bind_assoc]
    apply follows_bind (follows_currentUser hquiet access)
    rintro user a db' ⟨rfl, rfl⟩
    apply follows_bind (follows_changePassword hquiet' user currentPassword newPassword)
    rintro _ a db' rfl
    exact follows_pure rfl
  | requestPasswordReset email =>
    simp only [callOf, arrive, checkLimit, if_pos hlimits, Call.bind_pure_left, perform, Call.bind_assoc]
    apply follows_bind (follows_requestPasswordReset hquiet' email)
    rintro _ a db' rfl
    exact follows_pure rfl
  | confirmPasswordReset token newPassword =>
    simp only [callOf, arrive, Call.bind_pure_left, perform, Call.bind_assoc]
    apply follows_bind (follows_confirmPasswordReset hquiet' token newPassword)
    rintro _ a db' rfl
    exact follows_pure rfl

theorem next_eq_serve (w : World) (hquiet : ∀ n, request.faultAt n = none) (hlimits : limits.attempts ≤ 0)
    {action : Action Token} (hcall : request.call = callOf action) :
    (next rt limits w request).tables.db =
      match CredentialRevocation.serve rt request.o action w.tables.db with
      | .error _ => w.tables.db
      | .ok (_, db) => db := by
  have hagrees := follows_endpoint rt hquiet hlimits hcall w.session rfl rfl
  have hreturns := endpoint_returns rt limits request (· = w.tables) (failedEntries w.tables) [] w.session
    (before_session rfl)
  rcases hrun : endpoint rt limits request w.session with ⟨result, s⟩
  rw [hrun] at hagrees hreturns
  cases hserve : CredentialRevocation.serve rt request.o action w.tables.db with
  | error e =>
    have hserve' : CredentialRevocation.serve rt request.o action w.session.working.db = .error e := hserve
    rw [hserve'] at hagrees
    obtain rfl : result = .error (.service e) := hagrees
    have hserved : sessionDependency request.env (endpoint rt limits request) w.session = _ :=
      sessionDependency_error hrun
    have htables : (next rt limits w request).tables = s.committed :=
      congrArg (fun outcome => outcome.2.committed) hserved
    rw [htables, show s.committed = w.tables from hreturns]
  | ok r =>
    have hserve' : CredentialRevocation.serve rt request.o action w.session.working.db = .ok r := hserve
    rw [hserve'] at hagrees
    obtain ⟨answer, hresult, hfailed, hrows⟩ := hagrees
    obtain rfl : result = .ok answer := hresult
    have hcommit : commit request.env s = (.ok (), { s with committed := s.working, calls := s.calls + 1 }) :=
      Call.run_bind_ok (contact_answered hfailed (Option.map_eq_none_iff.mpr (hquiet _)) true)
    have htables : (next rt limits w request).tables = s.working := by
      unfold next served sessionDependency
      rw [hrun]
      dsimp only
      rw [Call.run_bind_ok hcommit]
      rfl
    rw [htables, hrows]

end Requests

end AuthRefinement
