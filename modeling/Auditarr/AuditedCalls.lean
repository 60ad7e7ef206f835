/-
  Auditarr/AuditedCalls.lean
  ==========================
  **The authentication calls and their audit entries** (`app/services/auth_service.py`,
  `app/services/audit_service.py`, `session_dependency` in `app/api/dependencies.py`,
  `app/api/v1/auth.py`).

  Each call is a body over the session of its request, in which every round trip can fail.  An
  entry is written in that session, which `session_dependency` commits when the endpoint returns
  and rolls back when it raises.
-/
import Auditarr.AuthService
import Auditarr.Runs
import Auditarr.Transactions

namespace AuditedCalls

open Effects Transactions KeyedTable PyValues AuthStore AuthService Runs

/-! ### Rows and requests -/

/-- A row of `audit_log`. -/
structure AuditLogEntry where
  occurredAt : Timestamp
  actorId : Option String
  actorLabel : Option String
  action : String
  targetType : Option String
  targetId : Option String
  ipAddress : Option String
  requestId : Option String
  metadata : Option PyValue

/-- The tables of the calls; `fullNames` is a column of the users. -/
structure Tables where
  db : Database
  fullNames : String → Option String
  auditLog : List AuditLogEntry

/-- What a rollback does not touch: the buckets of the rate limiter, by client and route, and a
    note of the entries for which `AuditService.record` returned. -/
structure Outside where
  buckets : String × String → List Timestamp
  recorded : List AuditLogEntry

/-- What a request raises. -/
inductive Failure where
  | service (error : Raised)
  | conflict (message : String)
  | rateLimited
  | unavailable
  /-- `UserPublic` does not validate. -/
  | response
  /-- An exception of the database, by its name. -/
  | database (name : String)

abbrev Work := Call (Session Tables Outside) Failure

structure AuthContext where
  ipAddress : Option String
  requestId : Option String

/-- The settings of the rate limiter. -/
structure Limits where
  attempts : Int
  windowSeconds : Int

/-- The service of one request: its libraries, the database, and what is drawn during the call. -/
structure Service (Token : Type) where
  rt : AuthRuntime Token
  env : Environment Failure
  o : Occasion
  ctx : AuthContext
  newUserId : String

/-- The calls, made by a `Caller` where they need one. -/
inductive AuthCall (Token Caller : Type) where
  | register (email username password : String) (fullName : Option String)
  | login (name password : String)
  | refresh (token : Token)
  | logout (token : Option Token)
  | logoutAll (caller : Caller)
  | me (caller : Caller)
  | updateProfile (caller : Caller) (email fullName : Option String)
  | changePassword (caller : Caller) (currentPassword newPassword : String)
  | requestPasswordReset (email : String)
  | confirmPasswordReset (token newPassword : String)

inductive Answer (Token : Type) where
  | nothing
  | tokens (user : User) (pair : TokenPair Token)
  | user (user : User)

/-! ### Repositories -/

section Operations

variable {Token : Type} (svc : Service Token)

/-- What a pure function returns or raises. -/
def lift {α : Type} : Except Raised α → Work α
  | .ok a => pure a
  | .error e => Call.raise (.service e)

/-- A flush of changed rows, which the tables may refuse. -/
def write (change : Database → Except Raised Database) : Work Unit := do
  let outcome ← Call.read fun s => change s.working.db
  match outcome with
  | .error e => refused svc.env (.service e)
  | .ok db => do
      edit fun t => { t with db := db }
      flush svc.env

/-- `RefreshSessionRepository.revoke`. -/
def revoke (jti : String) : Work Bool := do
  let matched ← Call.read fun s => (s.working.db.revoke svc.o.now jti).1
  statement svc.env fun t => { t with db := (t.db.revoke svc.o.now jti).2 }
  return matched

/-- The rows that `revoke_for_user` updates. -/
def activeSessions (userId : String) (db : Database) : Nat :=
  db.refreshSessions.rows.countP fun record => record.userId = userId && !record.isRevoked

/-- `RefreshSessionRepository.revoke_for_user`. -/
def revokeForUser (userId : String) : Work Nat := do
  let count ← Call.read fun s => activeSessions userId s.working.db
  statement svc.env fun t => { t with db := t.db.revokeForUser svc.o.now userId }
  return count

/-- `UserRepository.get_by_email`. -/
def userByEmail (lower : String → String) (email : String) (db : Database) : Option User :=
  db.users.rows.find? fun user => user.email = lower email

/-- `UserRepository.get_by_username`. -/
def userByUsername (lower : String → String) (username : String) (db : Database) : Option User :=
  db.users.rows.find? fun user => user.username = lower username

/-- `UserRepository.add`. -/
def addUser (user : User) (db : Database) : Except Raised Database :=
  if db.users.rows.any fun row => row.id = user.id || row.email = user.email || row.username = user.username then
    .error .integrity
  else .ok { db with users := db.users.upsert user }

def withEmail (email : String) (row : User) : User := { row with email := email }

theorem withEmail_id (email : String) (row : User) : (withEmail email row).id = row.id := rfl

/-- The flush of a user whose email was changed. -/
def flushEmail (user : User) (email : String) (db : Database) : Except Raised Database :=
  if db.users.rows.any fun row => row.email = email && row.id ≠ user.id then .error .integrity
  else .ok { db with users := db.users.update (fun row => row.id = user.id) (withEmail email) (withEmail_id email) }

/-- The entry of a call about users, from its context. -/
def entryOf (action : String) (actorId actorLabel : Option String) (metadata : Option PyValue) : AuditLogEntry where
  occurredAt := svc.o.now
  actorId := actorId
  actorLabel := actorLabel
  action := action
  targetType := none
  targetId := none
  ipAddress := svc.ctx.ipAddress
  requestId := svc.ctx.requestId
  metadata := metadata

/-- The entry of a call of a user. -/
def entryBy (action : String) (user : User) (metadata : Option PyValue) : AuditLogEntry :=
  entryOf svc action (some user.id) (some user.username) metadata

/-- `AuditService.record`. -/
def record (entry : AuditLogEntry) : Work Unit := do
  edit fun t => { t with auditLog := t.auditLog ++ [entry] }
  flush svc.env
  outside fun o => { o with recorded := o.recorded ++ [entry] }

/-! ### The service -/

/-- `_issue_pair`. -/
def issuePair (user : User) : Work (TokenPair Token) := do
  let access :=
    svc.rt.tokens.encode (accessClaims svc.rt.tokens svc.o.now user.id user.tokenVersion svc.o.accessJti)
  let refresh :=
    svc.rt.tokens.encode (refreshClaims svc.rt.tokens svc.o.now user.id user.tokenVersion svc.o.refreshJti)
  let claims ← lift (decode svc.rt.tokens svc.o.now refresh .refresh)
  write svc fun db => db.addSession
    { jti := claims.tokenId, userId := user.id, expiresAt := claims.expiresAt, revokedAt := none }
  return { accessToken := access, refreshToken := refresh }

/-- `register`, with the role that the route passes. -/
def register (email username password : String) (fullName : Option String) : Work User := do
  let emailNorm := svc.rt.lower (strip email)
  let usernameNorm := svc.rt.lower (strip username)
  lift (validatePassword password)
  let sameEmail ← select svc.env fun t => userByEmail svc.rt.lower emailNorm t.db
  match sameEmail with
  | some _ => Call.raise (.conflict "A user with that email already exists")
  | none => do
      let sameName ← select svc.env fun t => userByUsername svc.rt.lower usernameNorm t.db
      match sameName with
      | some _ => Call.raise (.conflict "A user with that username already exists")
      | none => do
          let passwordHash ← lift (hashPassword svc.rt svc.o password)
          let user : User :=
            { id := svc.newUserId, email := emailNorm, username := usernameNorm, passwordHash := passwordHash,
              isActive := true, mustChangePassword := false, tokenVersion := 0 }
          edit fun t => { t with fullNames := fun id => if id = user.id then fullName else t.fullNames id }
          write svc (addUser user)
          record svc { entryBy svc "auth.register" user (some (.dict [("role", .str "user")])) with
            targetType := some "user", targetId := some user.id }
          return user

/-- The end of a login that is turned away. -/
def turnAway (actorId actorLabel : Option String) (reason : String) :
    Work (User × TokenPair Token) := do
  record svc (entryOf svc "auth.login_failed" actorId actorLabel (some (.dict [("reason", .str reason)])))
  Call.raise (.service (.authentication "Invalid credentials"))

/-- The end of a login whose password was verified. -/
def loggedIn (password : String) (user : User) : Work (User × TokenPair Token) := do
  let current ← lift (upgraded svc.rt svc.o password user)
  write svc fun db => .ok (db.flushUser user current)
  let pair ← issuePair svc current
  record svc (entryBy svc "auth.login" current none)
  return (current, pair)

/-- `login` from where the user was looked up. -/
def loginAs (name password : String) : Option User → Work (User × TokenPair Token)
  | none => turnAway svc none (some name) "unknown_or_inactive"
  | some user =>
      if !user.isActive then turnAway svc none (some name) "unknown_or_inactive"
      else if !svc.rt.verify password user.passwordHash then
        turnAway svc (some user.id) (some user.username) "bad_password"
      else loggedIn svc password user

/-- `login`. -/
def login (name password : String) : Work (User × TokenPair Token) := do
  let found ← select svc.env fun t => findByLogin svc.rt.lower name t.db.users
  loginAs svc name password found

/-- `refresh`. -/
def refresh (token : Token) : Work (User × TokenPair Token) := do
  let checked ← select svc.env fun t => refreshRecord svc.rt svc.o token t.db
  let (claims, row) ← lift checked
  let found ← select svc.env fun t => refreshUser claims t.db
  let user ← lift found
  let _ ← revoke svc row.jti
  let pair ← issuePair svc user
  record svc (entryBy svc "auth.refresh" user none)
  return (user, pair)

/-- `logout`. -/
def logout (token : Option Token) : Work Unit :=
  match token with
  | none => pure ()
  | some token => match decode svc.rt.tokens svc.o.now token .refresh with
    | .error _ => pure ()
    | .ok claims => do
        let revoked ← revoke svc claims.tokenId
        if revoked then record svc (entryOf svc "auth.logout" (some claims.subject) none none) else pure ()

/-- `logout_all`. -/
def logoutAll (user : User) : Work Unit := do
  let count ← revokeForUser svc user.id
  record svc (entryBy svc "auth.logout_all" user (some (.dict [("sessions_revoked", .int count)])))

/-- `change_password`. -/
def changePassword (user : User) (currentPassword newPassword : String) : Work Unit :=
  if !svc.rt.verify currentPassword user.passwordHash then
    Call.raise (.service (.authentication "Current password is incorrect"))
  else do
    lift (validatePassword newPassword)
    let passwordHash ← lift (hashPassword svc.rt svc.o newPassword)
    write svc fun db => .ok (db.flushUser user (passwordChanged passwordHash user))
    let _ ← revokeForUser svc user.id
    record svc (entryBy svc "auth.password_changed" user none)

/-- The new email of `update_profile`, if it is another one. -/
def changedEmail (user : User) : Option String → Work (Option String)
  | none => pure none
  | some email =>
      let emailNorm := svc.rt.lower (strip email)
      if emailNorm = user.email then pure none
      else do
        let existing ← select svc.env fun t => userByEmail svc.rt.lower emailNorm t.db
        if existing.any fun other => other.id ≠ user.id then
          Call.raise (.service (.validation "Another account is already using that email."))
        else return some emailNorm

/-- The new name of `update_profile`, if it is another one; the empty one clears it. -/
def changedName (current : Option String) : Option String → Option (Option String)
  | none => none
  | some fullName =>
      let newName := if strip fullName = "" then none else some (strip fullName)
      if newName = current then none else some newName

/-- `update_profile`. -/
def updateProfile (user : User) (email fullName : Option String) : Work User := do
  let newEmail ← changedEmail svc user email
  let newName ← Call.read fun s => changedName (s.working.fullNames user.id) fullName
  let fields := (newEmail.map fun _ => "email").toList ++ (newName.map fun _ => "full_name").toList
  if fields.isEmpty then return user
  else do
    let changed := withEmail (newEmail.getD user.email) user
    edit fun t => { t with
      fullNames := fun id => if id = user.id then newName.getD (t.fullNames id) else t.fullNames id }
    write svc (flushEmail user changed.email)
    record svc (entryBy svc "auth.profile_updated" changed (some (.dict [("fields", .list (fields.map .str))])))
    return changed

/-- `request_password_reset`; an email that cannot be sent is not reported. -/
def requestPasswordReset (email : String) : Work Unit := do
  let emailNorm := svc.rt.lower (strip email)
  let found ← select svc.env fun t => userByEmail svc.rt.lower emailNorm t.db
  match found.filter (·.isActive) with
  | none => record svc (entryOf svc "auth.password_reset_requested" none (some emailNorm)
      (some (.dict [("matched", .bool false)])))
  | some user => do
      statement svc.env fun t => { t with db := t.db.deleteForUser user.id }
      write svc fun db => db.addReset
        { tokenHash := svc.rt.hashResetToken svc.o.resetToken
          userId := user.id
          expiresAt := svc.o.now + resetTtl svc.rt
          usedAt := none
          mustChangeOnUse := !svc.rt.emailEnabled }
      record svc (entryBy svc "auth.password_reset_requested" user (some (.dict [("matched", .bool true),
        ("delivery", .str (if svc.rt.emailEnabled then "email" else "terminal_otp"))])))

/-- `confirm_password_reset`. -/
def confirmPasswordReset (token newPassword : String) : Work Unit := do
  lift (validatePassword newPassword)
  let checked ← select svc.env fun t => resetRecord svc.rt svc.o token t.db
  let row ← lift checked
  let found ← select svc.env fun t => resetUser row t.db
  let user ← lift found
  let passwordHash ← lift (hashPassword svc.rt svc.o newPassword)
  write svc fun db => .ok (db.flushUser user (passwordReset passwordHash row user))
  let _ ← revokeForUser svc user.id
  write svc fun db => db.markUsed svc.o.now row.tokenHash
  record svc (entryBy svc "auth.password_reset_confirmed" user
    (some (.dict [("must_change_on_use", .bool row.mustChangeOnUse)])))

/-- The call that a route makes of the service. -/
def perform : AuthCall Token User → Work (Answer Token)
  | .register email username password fullName => do
      let user ← register svc email username password fullName
      return .user user
  | .login name password => do
      let (user, pair) ← login svc name password
      return .tokens user pair
  | .refresh token => do
      let (user, pair) ← refresh svc token
      return .tokens user pair
  | .logout token => do
      logout svc token
      return .nothing
  | .logoutAll user => do
      logoutAll svc user
      return .nothing
  | .me user => return .user user
  | .updateProfile user email fullName => do
      let user ← updateProfile svc user email fullName
      return .user user
  | .changePassword user currentPassword newPassword => do
      changePassword svc user currentPassword newPassword
      return .nothing
  | .requestPasswordReset email => do
      requestPasswordReset svc email
      return .nothing
  | .confirmPasswordReset token newPassword => do
      confirmPasswordReset svc token newPassword
      return .nothing

end Operations

/-! ### Requests -/

/-- `RateLimiter.check` on a bucket: whether the attempt is let through, and the bucket. -/
def Limits.check (limits : Limits) (now : Timestamp) (bucket : List Timestamp) : Bool × List Timestamp :=
  let bucket := bucket.dropWhile fun t => t < now - seconds limits.windowSeconds
  if limits.attempts ≤ bucket.length then (false, bucket) else (true, bucket ++ [now])

/-- Whether the limiter lets a request of a client for a route through. -/
def Limits.admits (limits : Limits) (now : Timestamp) (key : String × String) (o : Outside) : Bool :=
  decide (limits.attempts ≤ 0) || (limits.check now (o.buckets key)).1

/-- `_PERMISSIVE_EMAIL_RE`, and no blanks around it. -/
def permissiveEmail (email : String) : Bool :=
  let alnum := fun c : Char => c.isAlpha || c.isDigit
  let before := email.toList.takeWhile (· ≠ '@')
  let host := (email.toList.dropWhile (· ≠ '@')).drop 1
  !before.isEmpty && before.all (fun c => !isSpace c) && host.head?.any alnum && host.getLast?.any alnum &&
    host.all fun c => alnum c || c = '.' || c = '_' || c = '-'

/-- A request: when and by whom it is made, what is drawn in it, and what the database refuses. -/
structure Request (Token : Type) where
  o : Occasion
  ctx : AuthContext
  newUserId : String
  /-- `time.monotonic`. -/
  monotonic : Timestamp
  client : String
  faultAt : Nat → Option (Fault String)
  call : AuthCall Token (Option Token)

section Requests

variable {Token : Type} (rt : AuthRuntime Token) (limits : Limits) (request : Request Token)

/-- The exceptions of the database are its own. -/
def Request.env : Environment Failure where
  faultAt n := (request.faultAt n).map fun fault => ⟨.database fault.error, fault.aborts⟩
  pendingRollback := .database "PendingRollbackError"
  missingGreenlet := .database "MissingGreenlet"

def Request.service : Service Token where
  rt := rt
  env := request.env
  o := request.o
  ctx := request.ctx
  newUserId := request.newUserId

/-- `RateLimiter.check`. -/
def checkLimit (route : String) : Work Unit :=
  if limits.attempts ≤ 0 then pure ()
  else do
    let bucket ← Call.read fun s => s.world.buckets (request.client, route)
    let (passes, bucket) := limits.check request.monotonic bucket
    outside fun o => { o with
      buckets := fun key => if key = (request.client, route) then bucket else o.buckets key }
    if passes then pure () else Call.raise .rateLimited

/-- `current_user`: what the database raises is reported as unavailable. -/
def currentUser (access : Option Token) : Work User :=
  match access with
  | none => Call.raise (.service (.authentication "Authentication required"))
  | some token => do
      let claims ← lift (decode rt.tokens request.o.now token .access)
      let found ← Call.attempt (select request.env fun t => resolveUser claims t.db) fun _ => Call.raise .unavailable
      lift found

/-- What a route does before it calls the service. -/
def arrive : AuthCall Token (Option Token) → Work (AuthCall Token User)
  | .register email username password fullName => do
      checkLimit limits request "register"
      return .register email username password fullName
  | .login name password => do
      checkLimit limits request "login"
      return .login name password
  | .refresh token => return .refresh token
  | .logout token => return .logout token
  | .logoutAll access => do
      let user ← currentUser rt request access
      return .logoutAll user
  | .me access => do
      let user ← currentUser rt request access
      return .me user
  | .updateProfile access email fullName => do
      let user ← currentUser rt request access
      return .updateProfile user email fullName
  | .changePassword access currentPassword newPassword => do
      let user ← currentUser rt request access
      return .changePassword user currentPassword newPassword
  | .requestPasswordReset email => do
      checkLimit limits request "password_reset"
      return .requestPasswordReset email
  | .confirmPasswordReset token newPassword => return .confirmPasswordReset token newPassword

/-- The answer of a route; a user is one that `UserPublic` accepts. -/
def respond : Answer Token → Work (Answer Token)
  | .user user => if permissiveEmail user.email then return .user user else Call.raise .response
  | answer => return answer

def endpoint : Work (Answer Token) := do
  let call ← arrive rt limits request request.call
  let answer ← perform (request.service rt) call
  respond answer

/-- `session_dependency`. -/
def sessionDependency {α : Type} (env : Environment Failure) (body : Work α) : Work α := fun s =>
  match body s with
  | (.error e, s') => (rollback >>= fun _ => Call.raise e) s'
  | (.ok a, s') => (commit env >>= fun _ => pure a) s'

/-- The committed tables, and the buckets. -/
structure World where
  tables : Tables
  buckets : String × String → List Timestamp

/-- The session of a request. -/
def World.session (w : World) : Session Tables Outside :=
  Session.opened w.tables { buckets := w.buckets, recorded := [] } 0

/-- A request from its first line to the end of `session_dependency`. -/
def served (w : World) : Except Failure (Answer Token) × Session Tables Outside :=
  sessionDependency request.env (endpoint rt limits request) w.session

def next (w : World) (request : Request Token) : World where
  tables := (served rt limits request w).2.committed
  buckets := (served rt limits request w).2.world.buckets

/-! ### What is said of a request -/

/-- Whether a request is a login that is answered with invalid credentials. -/
def failedLogin (w : World) (request : Request Token) : Bool :=
  match request.call, (served rt limits request w).1 with
  | .login _ _, .error (.service (.authentication message)) => message = "Invalid credentials"
  | _, _ => false

/-- What a call of the service recorded before it raised is in the committed database. -/
def Survives (w : World) (request : Request Token) : Prop :=
  ∀ call s e s', arrive rt limits request request.call w.session = (.ok call, s) →
    perform (request.service rt) call s = (.error e, s') →
    (next rt limits w request).tables.auditLog = w.tables.auditLog ++ s'.world.recorded

/-- The entries of failed logins. -/
def failedEntries (t : Tables) : Nat := t.auditLog.countP fun entry => entry.action = "auth.login_failed"

/-- How many logins of a run fail. -/
def failedLogins (w : World) : List (Request Token) → Nat
  | [] => 0
  | request :: rest =>
      (failedLogin rt limits w request).toNat + failedLogins (next rt limits w request) rest

/-- Whether a user that was looked up may not log in with a password. -/
def rejected (password : String) : Option User → Bool
  | none => true
  | some user => !user.isActive || !rt.verify password user.passwordHash

/-- Whether a name and a password are those of no active user. -/
def rejects (name password : String) (db : Database) : Bool :=
  rejected rt password (findByLogin rt.lower name db.users)

/-- The request is no login that reaches the service with credentials of no active user, while
    the database answers the lookup and takes the entry. -/
def Meets (w : World) (request : Request Token) : Prop :=
  match request.call with
  | .login name password =>
      limits.admits request.monotonic (request.client, "login") w.session.world = true →
        request.faultAt 0 = none → request.faultAt 1 = none → rejects rt name password w.tables.db = false
  | _ => True

end Requests

end AuditedCalls
