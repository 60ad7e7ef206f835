/-
  Auditarr/AuthStore.lean
  =======================
  **Users, refresh sessions and reset tokens** (`app/models/user.py`, `session.py` and
  `password_reset.py`, their repositories, `app/security/tokens.py`).

  A signed token carries its claims; what a signature proves is `TokenService.payload`, which
  stands for the library that verifies it.  A refresh token has a row, found by its id, and a
  reset token one that is found by its hash.
-/
import Auditarr.KeyedTable
import Auditarr.PyValues

namespace AuthStore

open KeyedTable PyValues

abbrev Timestamp := Int

def seconds (n : Int) : Timestamp := n * 1000000

/-- `int(t.timestamp())`, as a time. -/
def wholeSeconds (t : Timestamp) : Timestamp := t - t % 1000000

theorem wholeSeconds_le (t : Timestamp) : wholeSeconds t ≤ t := by
  have hnonneg : 0 ≤ t % 1000000 := Int.emod_nonneg t (by decide)
  exact Int.sub_le_self t hnonneg

/-- What a call raises: an error of the application by its class and message, or what the
    database or the hasher raises. -/
inductive Raised where
  | authentication (message : String)
  | validation (message : String)
  | notFound (message : String)
  | integrity
  | staleData
  | emptyPassword
deriving DecidableEq

/-! ### Tokens -/

inductive TokenType where
  | access | refresh | reset
deriving DecidableEq

def TokenType.text : TokenType → String
  | access => "access"
  | refresh => "refresh"
  | reset => "reset"

structure TokenClaims where
  subject : String
  tokenType : TokenType
  tokenId : String
  tokenVersion : Nat
  issuedAt : Timestamp
  expiresAt : Timestamp
deriving DecidableEq

/-- `TokenService`, its settings, and the library that signs and verifies: a token that was
    encoded has the claims it was made of. -/
structure TokenService (Token : Type) where
  encode : TokenClaims → Token
  /-- The claims of a token with a valid signature. -/
  payload : Token → Option TokenClaims
  payload_encode : ∀ claims, payload (encode claims) = some claims
  accessTokenTtlMinutes : Nat
  refreshTokenTtlDays : Nat

section Tokens

variable {Token : Type} (tokens : TokenService Token)

/-- The claims of `TokenService._issue`; `jti` is what `secrets` returns. -/
def newClaims (now : Timestamp) (subject : String) (tokenType : TokenType) (ttl : Timestamp)
    (tokenVersion : Nat) (jti : String) : TokenClaims where
  subject := subject
  tokenType := tokenType
  tokenId := jti
  tokenVersion := tokenVersion
  issuedAt := wholeSeconds now
  expiresAt := wholeSeconds (now + ttl)

def accessClaims (now : Timestamp) (subject : String) (tokenVersion : Nat) (jti : String) : TokenClaims :=
  newClaims now subject .access (seconds (60 * tokens.accessTokenTtlMinutes)) tokenVersion jti

def refreshClaims (now : Timestamp) (subject : String) (tokenVersion : Nat) (jti : String) : TokenClaims :=
  newClaims now subject .refresh (seconds (24 * 3600 * tokens.refreshTokenTtlDays)) tokenVersion jti

/-- `TokenService.decode`. -/
def decode (now : Timestamp) (token : Token) (expected : TokenType) : Except Raised TokenClaims :=
  match tokens.payload token with
  | none => .error (.authentication "Invalid token")
  | some claims =>
      if now < claims.issuedAt then .error (.authentication "Invalid token")
      else if claims.expiresAt ≤ now then .error (.authentication "Token has expired")
      else if claims.tokenType ≠ expected then
        .error (.authentication s!"Wrong token type (expected {expected.text})")
      else .ok claims

variable {tokens}

theorem decode_eq_ok {now : Timestamp} {token : Token} {expected : TokenType} {claims : TokenClaims} :
    decode tokens now token expected = .ok claims ↔ tokens.payload token = some claims ∧
      claims.issuedAt ≤ now ∧ now < claims.expiresAt ∧ claims.tokenType = expected := by
  unfold decode
  cases hpayload : tokens.payload token with
  | none => simp
  | some found =>
    dsimp only
    constructor
    · intro h
      split_ifs at h with himmature hexpired htype
      cases h
      exact ⟨rfl, Int.not_lt.mp himmature, Int.not_le.mp hexpired, not_not.mp htype⟩
    · rintro ⟨hsame, hissued, hexpires, htype⟩
      cases hsame
      rw [if_neg (Int.not_lt.mpr hissued), if_neg (Int.not_le.mpr hexpires), if_neg (not_not.mpr htype)]

end Tokens

/-! ### Rows -/

structure User where
  id : String
  email : String
  username : String
  passwordHash : String
  isActive : Bool
  mustChangePassword : Bool
  tokenVersion : Nat
deriving DecidableEq

structure RefreshSession where
  jti : String
  userId : String
  expiresAt : Timestamp
  revokedAt : Option Timestamp
deriving DecidableEq

def RefreshSession.isRevoked (record : RefreshSession) : Bool := record.revokedAt.isSome

structure PasswordResetToken where
  tokenHash : String
  userId : String
  expiresAt : Timestamp
  usedAt : Option Timestamp
  mustChangeOnUse : Bool
deriving DecidableEq

def PasswordResetToken.isUsed (record : PasswordResetToken) : Bool := record.usedAt.isSome

/-- `is_past`. -/
def isPast (now expiresAt : Timestamp) : Bool := decide (expiresAt < now)

structure Database where
  users : Table User.id
  refreshSessions : Table RefreshSession.jti
  passwordResetTokens : Table PasswordResetToken.tokenHash

/-! ### Repositories -/

/-- `UserRepository.find_by_login`; `lower` is `str.lower`. -/
def findByLogin (lower : String → String) (login : String) (users : Table User.id) : Option User :=
  let login := lower (strip login)
  if '@' ∈ login.toList then users.rows.find? fun user => user.email = lower login
  else users.rows.find? fun user => user.username = lower login

/-- The columns of a user that were changed since it was loaded are written. -/
def writeBack (loaded changed row : User) : User :=
  { row with
    passwordHash := if changed.passwordHash = loaded.passwordHash then row.passwordHash else changed.passwordHash
    mustChangePassword :=
      if changed.mustChangePassword = loaded.mustChangePassword then row.mustChangePassword
      else changed.mustChangePassword
    tokenVersion := if changed.tokenVersion = loaded.tokenVersion then row.tokenVersion else changed.tokenVersion }

theorem writeBack_id (loaded changed row : User) : (writeBack loaded changed row).id = row.id := rfl

/-- `flush([user])`. -/
def Database.flushUser (db : Database) (loaded changed : User) : Database :=
  { db with
    users := db.users.update (fun row => row.id = loaded.id) (writeBack loaded changed) (writeBack_id loaded changed) }

/-- A session that is not revoked is. -/
def revoked (now : Timestamp) (record : RefreshSession) : RefreshSession := { record with revokedAt := some now }

theorem revoked_jti (now : Timestamp) (record : RefreshSession) : (revoked now record).jti = record.jti := rfl

/-- `RefreshSessionRepository.revoke`: what it returns, and the rows. -/
def Database.revoke (db : Database) (now : Timestamp) (jti : String) : Bool × Database :=
  (db.refreshSessions.rows.any fun record => record.jti = jti && !record.isRevoked,
    { db with
      refreshSessions := db.refreshSessions.update (fun record => record.jti = jti && !record.isRevoked)
        (revoked now) (revoked_jti now) })

/-- The rollback of a revocation that changed a row. -/
def unrevoked (record : RefreshSession) : RefreshSession := { record with revokedAt := none }

theorem unrevoked_jti (record : RefreshSession) : (unrevoked record).jti = record.jti := rfl

def Database.unrevoke (db : Database) (jti : String) : Database :=
  { db with refreshSessions := db.refreshSessions.update (fun record => record.jti = jti) unrevoked unrevoked_jti }

/-- `RefreshSessionRepository.revoke_for_user`. -/
def Database.revokeForUser (db : Database) (now : Timestamp) (userId : String) : Database :=
  { db with
    refreshSessions := db.refreshSessions.update (fun record => record.userId = userId && !record.isRevoked)
      (revoked now) (revoked_jti now) }

/-- `RefreshSessionRepository.add`. -/
def Database.addSession (db : Database) (record : RefreshSession) : Except Raised Database :=
  if (db.refreshSessions.find? record.jti).isSome then .error .integrity
  else .ok { db with refreshSessions := db.refreshSessions.upsert record }

/-- `PasswordResetRepository.add`. -/
def Database.addReset (db : Database) (record : PasswordResetToken) : Except Raised Database :=
  if (db.passwordResetTokens.find? record.tokenHash).isSome then .error .integrity
  else .ok { db with passwordResetTokens := db.passwordResetTokens.upsert record }

def used (now : Timestamp) (record : PasswordResetToken) : PasswordResetToken := { record with usedAt := some now }

theorem used_tokenHash (now : Timestamp) (record : PasswordResetToken) :
    (used now record).tokenHash = record.tokenHash := rfl

/-- `PasswordResetRepository.mark_used`. -/
def Database.markUsed (db : Database) (now : Timestamp) (tokenHash : String) : Except Raised Database :=
  if (db.passwordResetTokens.find? tokenHash).isNone then .error .staleData
  else .ok { db with
    passwordResetTokens :=
      db.passwordResetTokens.update (fun row => row.tokenHash = tokenHash) (used now) (used_tokenHash now) }

/-- `PasswordResetRepository.delete_for_user`. -/
def Database.deleteForUser (db : Database) (userId : String) : Database :=
  { db with passwordResetTokens := db.passwordResetTokens.erase fun row => row.userId = userId }

/-! ### What is found afterwards -/

section Lookups

variable {db db' : Database} {now : Timestamp}

theorem find?_flushUser {loaded changed : User} (id : String) : (db.flushUser loaded changed).users.find? id =
    (db.users.find? id).map fun row => if row.id = loaded.id then writeBack loaded changed row else row := by
  rw [Database.flushUser, Table.find?_update]
  simp only [decide_eq_true_eq]

theorem find?_flushUser_self {loaded changed : User} (hloaded : db.users.find? loaded.id = some loaded)
    (hid : changed.id = loaded.id) (hemail : changed.email = loaded.email)
    (hname : changed.username = loaded.username) (hactive : changed.isActive = loaded.isActive) :
    (db.flushUser loaded changed).users.find? loaded.id = some changed := by
  have hwritten {α : Type} [DecidableEq α] (old new : α) : (if new = old then old else new) = new := by
    split
    · rename_i hsame
      exact hsame.symm
    · rfl
  rw [find?_flushUser, hloaded, Option.map_some, if_pos rfl, writeBack, Option.some.injEq]
  simp only [hwritten, ← hid, ← hemail, ← hname, ← hactive]

theorem ite_error_eq_ok {α : Type} {c : Prop} [Decidable c] {e : Raised} {a b : α} :
    (if c then .error e else .ok a : Except Raised α) = .ok b ↔ ¬c ∧ b = a := by
  split
  · next h => simp [h]
  · next h => simp [h, eq_comm]

theorem markUsed_eq_ok {tokenHash : String} : db.markUsed now tokenHash = .ok db' ↔
    db.passwordResetTokens.find? tokenHash ≠ none ∧ db' = { db with
      passwordResetTokens := db.passwordResetTokens.update (fun row => row.tokenHash = tokenHash) (used now)
        (used_tokenHash now) } := by
  rw [Database.markUsed, ite_error_eq_ok]
  simp

theorem addSession_eq_ok {record : RefreshSession} : db.addSession record = .ok db' ↔
    db.refreshSessions.find? record.jti = none ∧
      db' = { db with refreshSessions := db.refreshSessions.upsert record } := by
  rw [Database.addSession, ite_error_eq_ok]
  simp

theorem addReset_eq_ok {record : PasswordResetToken} : db.addReset record = .ok db' ↔
    db.passwordResetTokens.find? record.tokenHash = none ∧
      db' = { db with passwordResetTokens := db.passwordResetTokens.upsert record } := by
  rw [Database.addReset, ite_error_eq_ok]
  simp

end Lookups

end AuthStore
