/-
  Auditarr/AuthService.lean
  =========================
  **Logins, refreshes and passwords** (`app/services/auth_service.py`), and what accepts an
  access token (`app/api/auth_deps.py`, `app/api/v1/ws.py`).

  A request runs in one transaction, which is rolled back when it raises: a call returns what
  it changed, or raises and leaves the rows as they were.
-/
import Auditarr.AuthStore

namespace AuthService

open KeyedTable PyValues AuthStore

/-- The settings, and the libraries behind the service. -/
structure AuthRuntime (Token : Type) where
  tokens : TokenService Token
  /-- `str.lower`. -/
  lower : String → String
  /-- `hash_password`, with its salt. -/
  hash : Nat → String → String
  /-- `verify_password`. -/
  verify : String → String → Bool
  /-- `needs_rehash`. -/
  needsRehash : String → Bool
  /-- `_hash_reset_token`. -/
  hashResetToken : String → String
  emailEnabled : Bool
  wsRequireAuth : Bool

/-- The clock and what is drawn at random during a call. -/
structure Occasion where
  now : Timestamp
  salt : Nat
  accessJti : String
  refreshJti : String
  resetToken : String

structure TokenPair (Token : Type) where
  accessToken : Token
  refreshToken : Token
deriving DecidableEq

section Service

variable {Token : Type} (rt : AuthRuntime Token) (o : Occasion)

def hashPassword (password : String) : Except Raised String :=
  if password = "" then .error .emptyPassword else .ok (rt.hash o.salt password)

/-- `_validate_password`. -/
def validatePassword (password : String) : Except Raised Unit :=
  if strip password = "" then .error (.validation "Password is required")
  else if password.length < 12 then .error (.validation "Password must be at least 12 characters")
  else .ok ()

/-- `_issue_pair`. -/
def issuePair (user : User) (db : Database) : Except Raised (TokenPair Token × Database) := do
  let access := rt.tokens.encode (accessClaims rt.tokens o.now user.id user.tokenVersion o.accessJti)
  let refresh := rt.tokens.encode (refreshClaims rt.tokens o.now user.id user.tokenVersion o.refreshJti)
  let claims ← decode rt.tokens o.now refresh .refresh
  let db ← db.addSession
    { jti := claims.tokenId, userId := user.id, expiresAt := claims.expiresAt, revokedAt := none }
  return ({ accessToken := access, refreshToken := refresh }, db)

/-- The user of a login, whose hash is replaced if it is outdated. -/
def upgraded (password : String) (user : User) : Except Raised User :=
  if rt.needsRehash user.passwordHash then do
    let passwordHash ← hashPassword rt o password
    return { user with passwordHash := passwordHash }
  else .ok user

/-- `login`. -/
def login (name password : String) (db : Database) : Except Raised ((User × TokenPair Token) × Database) :=
  match findByLogin rt.lower name db.users with
  | none => .error (.authentication "Invalid credentials")
  | some user =>
      if !user.isActive then .error (.authentication "Invalid credentials")
      else if !rt.verify password user.passwordHash then .error (.authentication "Invalid credentials")
      else do
        let current ← upgraded rt o password user
        let (pair, db) ← issuePair rt o current (db.flushUser user current)
        return ((current, pair), db)

/-! ### Refresh tokens -/

/-- The first check of `refresh`: the row of the token. -/
def refreshRecord (token : Token) (db : Database) : Except Raised (TokenClaims × RefreshSession) := do
  let claims ← decode rt.tokens o.now token .refresh
  match db.refreshSessions.find? claims.tokenId with
  | none => .error (.authentication "Refresh token is no longer valid")
  | some record =>
      if record.isRevoked || isPast o.now record.expiresAt then
        .error (.authentication "Refresh token is no longer valid")
      else .ok (claims, record)

/-- The user of a token, active and of its version. -/
def userOf (outdated : String) (claims : TokenClaims) (db : Database) : Except Raised User :=
  match db.users.find? claims.subject with
  | none => .error (.authentication "User is no longer active")
  | some user =>
      if !user.isActive then .error (.authentication "User is no longer active")
      else if user.tokenVersion ≠ claims.tokenVersion then .error (.authentication outdated)
      else .ok user

theorem userOf_eq_ok {outdated : String} {claims : TokenClaims} {db : Database} {user : User} :
    userOf outdated claims db = .ok user ↔ db.users.find? claims.subject = some user ∧
      user.isActive = true ∧ user.tokenVersion = claims.tokenVersion := by
  unfold userOf
  cases hfind : db.users.find? claims.subject with
  | none => simp
  | some found =>
    dsimp only
    constructor
    · intro h
      split_ifs at h with hinactive hversion
      cases h
      exact ⟨rfl, by simpa using hinactive, not_not.mp hversion⟩
    · rintro ⟨hsame, hactive, hversion⟩
      cases hsame
      rw [if_neg (by simp [hactive]), if_neg (not_not.mpr hversion)]

/-- The second check of `refresh`: the user of the token. -/
def refreshUser : TokenClaims → Database → Except Raised User := userOf "Refresh token has been invalidated"

/-- `refresh`. -/
def refresh (token : Token) (db : Database) : Except Raised ((User × TokenPair Token) × Database) := do
  let (claims, record) ← refreshRecord rt o token db
  let user ← refreshUser claims db
  let db := (db.revoke o.now record.jti).2
  let (pair, db) ← issuePair rt o user db
  return ((user, pair), db)

/-- `logout`. -/
def logout (token : Option Token) (db : Database) : Database :=
  match token with
  | none => db
  | some token => match decode rt.tokens o.now token .refresh with
    | .error _ => db
    | .ok claims => (db.revoke o.now claims.tokenId).2

/-- `logout_all`. -/
def logoutAll (user : User) (db : Database) : Database := db.revokeForUser o.now user.id

/-! ### Passwords -/

/-- The user after `change_password`. -/
def passwordChanged (passwordHash : String) (user : User) : User :=
  { user with
    passwordHash := passwordHash, mustChangePassword := false, tokenVersion := user.tokenVersion + 1 }

/-- `change_password`. -/
def changePassword (user : User) (currentPassword newPassword : String) (db : Database) :
    Except Raised Database :=
  if !rt.verify currentPassword user.passwordHash then
    .error (.authentication "Current password is incorrect")
  else do
    validatePassword newPassword
    let passwordHash ← hashPassword rt o newPassword
    return (db.flushUser user (passwordChanged passwordHash user)).revokeForUser o.now user.id

/-- `RESET_TOKEN_TTL_MINUTES`, or `TERMINAL_OTP_TTL_MINUTES`. -/
def resetTtl : Timestamp := if rt.emailEnabled then seconds (60 * 30) else seconds (60 * 15)

/-- `request_password_reset`; a user that is not found is not told so. -/
def requestPasswordReset (email : String) (db : Database) : Except Raised Database :=
  match db.users.rows.find? fun user => user.email = rt.lower (rt.lower (strip email)) with
  | none => .ok db
  | some user =>
      if !user.isActive then .ok db
      else (db.deleteForUser user.id).addReset
        { tokenHash := rt.hashResetToken o.resetToken
          userId := user.id
          expiresAt := o.now + resetTtl rt
          usedAt := none
          mustChangeOnUse := !rt.emailEnabled }

/-- The first check of `confirm_password_reset`: the row of the token. -/
def resetRecord (token : String) (db : Database) : Except Raised PasswordResetToken :=
  match db.passwordResetTokens.find? (rt.hashResetToken token) with
  | none => .error (.authentication "Reset token is invalid or has expired")
  | some record =>
      if record.isUsed || isPast o.now record.expiresAt then
        .error (.authentication "Reset token is invalid or has expired")
      else .ok record

/-- The second check of `confirm_password_reset`: the user of the token. -/
def resetUser (record : PasswordResetToken) (db : Database) : Except Raised User :=
  match db.users.find? record.userId with
  | none => .error (.notFound "User no longer exists")
  | some user => if !user.isActive then .error (.notFound "User no longer exists") else .ok user

/-- The user after `confirm_password_reset`. -/
def passwordReset (passwordHash : String) (record : PasswordResetToken) (user : User) : User :=
  { user with
    passwordHash := passwordHash
    mustChangePassword := record.mustChangeOnUse || user.mustChangePassword
    tokenVersion := user.tokenVersion + 1 }

/-- `confirm_password_reset`. -/
def confirmPasswordReset (token newPassword : String) (db : Database) : Except Raised Database := do
  validatePassword newPassword
  let record ← resetRecord rt o token db
  let user ← resetUser record db
  let passwordHash ← hashPassword rt o newPassword
  let db := db.flushUser user (passwordReset passwordHash record user)
  let db := db.revokeForUser o.now user.id
  db.markUsed o.now record.tokenHash

/-! ### Access tokens -/

/-- `_resolve_user`. -/
def resolveUser : TokenClaims → Database → Except Raised User := userOf "Token has been invalidated"

/-- `current_user`. -/
def currentUser (access : Option Token) (db : Database) : Except Raised User :=
  match access with
  | none => .error (.authentication "Authentication required")
  | some token => do
      let claims ← decode rt.tokens o.now token .access
      resolveUser claims db

/-- Whether `websocket_endpoint` lets a client connect by its token. -/
def admitsSocket (token : Option Token) : Bool :=
  match token with
  | none => false
  | some token => match decode rt.tokens o.now token .access with
    | .error _ => false
    | .ok _ => true

end Service

/-! ### When the checks pass -/

section Checks

variable {Token : Type} {rt : AuthRuntime Token} {o : Occasion} {db : Database}

theorem refreshRecord_eq_ok {token : Token} {claims : TokenClaims}
    {record : RefreshSession} : refreshRecord rt o token db = .ok (claims, record) ↔
      decode rt.tokens o.now token .refresh = .ok claims ∧
      db.refreshSessions.find? claims.tokenId = some record ∧ record.revokedAt = none ∧
        o.now ≤ record.expiresAt := by
  unfold refreshRecord
  rw [bind_eq_ok]
  constructor
  · rintro ⟨decoded, hdecode, h⟩
    cases hfind : db.refreshSessions.find? decoded.tokenId with
    | none =>
      rw [hfind] at h
      cases h
    | some found =>
      rw [hfind] at h
      dsimp only at h
      split_ifs at h with hdead
      cases h
      exact ⟨hdecode, hfind, by simpa [RefreshSession.isRevoked, isPast] using hdead⟩
  · rintro ⟨hdecode, hfind, hunrevoked, hexpires⟩
    refine ⟨claims, hdecode, ?_⟩
    rw [hfind]
    dsimp only
    rw [if_neg (by simp [RefreshSession.isRevoked, isPast, hunrevoked, hexpires])]

theorem resetRecord_eq_ok {token : String} {record : PasswordResetToken} :
    resetRecord rt o token db = .ok record ↔
      db.passwordResetTokens.find? (rt.hashResetToken token) = some record ∧ record.usedAt = none ∧
        o.now ≤ record.expiresAt := by
  unfold resetRecord
  cases hfind : db.passwordResetTokens.find? (rt.hashResetToken token) with
  | none => simp
  | some found =>
    dsimp only
    constructor
    · intro h
      split_ifs at h with hdead
      cases h
      simpa [PasswordResetToken.isUsed, isPast] using hdead
    · rintro ⟨hsame, hunused, hexpires⟩
      cases hsame
      rw [if_neg (by simp [PasswordResetToken.isUsed, isPast, hunused, hexpires])]

theorem resetUser_eq_ok {record : PasswordResetToken} {user : User} : resetUser record db = .ok user ↔
    db.users.find? record.userId = some user ∧ user.isActive = true := by
  unfold resetUser
  cases hfind : db.users.find? record.userId with
  | none => simp
  | some found =>
    dsimp only
    constructor
    · intro h
      split_ifs at h with hinactive
      cases h
      exact ⟨rfl, by simpa using hinactive⟩
    · rintro ⟨hsame, hactive⟩
      cases hsame
      rw [if_neg (by simp [hactive])]

theorem refresh_eq_ok {token : Token} {user : User} {pair : TokenPair Token} {db' : Database} :
    refresh rt o token db = .ok ((user, pair), db') ↔ ∃ claims record,
      refreshRecord rt o token db = .ok (claims, record) ∧ refreshUser claims db = .ok user ∧
        issuePair rt o user (db.revoke o.now record.jti).2 = .ok (pair, db') := by
  unfold refresh
  constructor
  · intro h
    obtain ⟨⟨claims, record⟩, hrecord, h⟩ := bind_eq_ok.mp h
    obtain ⟨found, hfound, h⟩ := bind_eq_ok.mp h
    obtain ⟨⟨pair', db''⟩, hpair, h⟩ := bind_eq_ok.mp h
    cases h
    exact ⟨claims, record, hrecord, hfound, hpair⟩
  · rintro ⟨claims, record, hrecord, hfound, hpair⟩
    exact bind_eq_ok.mpr ⟨_, hrecord, bind_eq_ok.mpr ⟨_, hfound, bind_eq_ok.mpr ⟨_, hpair, rfl⟩⟩⟩

theorem confirmPasswordReset_eq_ok {token newPassword : String} {db' : Database} :
    confirmPasswordReset rt o token newPassword db = .ok db' ↔ validatePassword newPassword = .ok () ∧
      ∃ record user passwordHash, resetRecord rt o token db = .ok record ∧ resetUser record db = .ok user ∧
        hashPassword rt o newPassword = .ok passwordHash ∧
        ((db.flushUser user (passwordReset passwordHash record user)).revokeForUser o.now user.id).markUsed
          o.now record.tokenHash = .ok db' := by
  unfold confirmPasswordReset
  constructor
  · intro h
    obtain ⟨valid, hvalid, h⟩ := bind_eq_ok.mp h
    obtain ⟨record, hrecord, h⟩ := bind_eq_ok.mp h
    obtain ⟨user, huser, h⟩ := bind_eq_ok.mp h
    obtain ⟨passwordHash, hhash, h⟩ := bind_eq_ok.mp h
    exact ⟨hvalid, record, user, passwordHash, hrecord, huser, hhash, h⟩
  · rintro ⟨hvalid, record, user, passwordHash, hrecord, huser, hhash, h⟩
    exact bind_eq_ok.mpr ⟨(), hvalid, bind_eq_ok.mpr ⟨_, hrecord, bind_eq_ok.mpr ⟨_, huser,
      bind_eq_ok.mpr ⟨_, hhash, h⟩⟩⟩⟩

end Checks

/-! ### One user -/

/-- Tokens are their claims, and hashes the texts. -/
def plainRuntime : AuthRuntime TokenClaims where
  tokens :=
    { encode := id, payload := some, payload_encode := fun _ => rfl, accessTokenTtlMinutes := 15,
      refreshTokenTtlDays := 14 }
  lower := id
  hash _ password := password
  verify password encoded := password = encoded
  needsRehash _ := false
  hashResetToken := id
  emailEnabled := true
  wsRequireAuth := false

def alice : User where
  id := "1"
  email := "alice@example.org"
  username := "alice"
  passwordHash := "an earlier password"
  isActive := true
  mustChangePassword := false
  tokenVersion := 0

def onlyAlice : Table User.id := ⟨[alice], by simp⟩

end AuthService
