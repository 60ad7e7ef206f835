/-
  Auditarr/CredentialRevocation.lean
  ==================================
  **What a change of the password revokes** (`change_password` in
  `app/services/auth_service.py`).

  The change raises the version of the user's tokens and revokes the sessions: no earlier
  token is accepted by a request or by a refresh, whatever follows.  The reset tokens are left
  as they are, and the socket does not look at the version.
-/
import Auditarr.AuthService
import Auditarr.Runs

namespace CredentialRevocation

open KeyedTable PyValues AuthStore AuthService Runs

/-! ### Histories -/

inductive Action (Token : Type) where
  | login (name password : String)
  | refresh (token : Token)
  | logout (token : Option Token)
  | logoutAll (access : Option Token)
  | changePassword (access : Option Token) (currentPassword newPassword : String)
  | requestPasswordReset (email : String)
  | confirmPasswordReset (token newPassword : String)

/-- A request, and the time since the last one. -/
structure Request (Token : Type) where
  elapsed : Nat
  salt : Nat
  action : Action Token

/-- `secrets.token_urlsafe`, by the bytes asked for and the number of the draw: no two draws
    have one hash. -/
structure Randomness {Token : Type} (rt : AuthRuntime Token) where
  tokenUrlsafe : Nat → Nat → String
  distinct : ∀ bytes bytes' n n', rt.hashResetToken (tokenUrlsafe bytes n) =
    rt.hashResetToken (tokenUrlsafe bytes' n') → n = n'

/-- The rows, the clock, how often something was drawn at random, and the tokens that were
    handed out. -/
structure World (Token : Type) where
  db : Database
  clock : Timestamp
  drawn : Nat
  issued : List Token

section Histories

variable {Token : Type} (rt : AuthRuntime Token) (random : Randomness rt)

/-- What a request returns: the tokens it hands out, and the rows. -/
def serve (o : Occasion) (action : Action Token) (db : Database) : Except Raised (List Token × Database) :=
  match action with
  | .login name password => do
      let ((_, pair), db) ← login rt o name password db
      return ([pair.accessToken, pair.refreshToken], db)
  | .refresh token => do
      let ((_, pair), db) ← refresh rt o token db
      return ([pair.accessToken, pair.refreshToken], db)
  | .logout token => .ok ([], logout rt o token db)
  | .logoutAll access => do
      let user ← currentUser rt o access db
      return ([], logoutAll o user db)
  | .changePassword access currentPassword newPassword => do
      let user ← currentUser rt o access db
      let db ← changePassword rt o user currentPassword newPassword db
      return ([], db)
  | .requestPasswordReset email => do
      let db ← requestPasswordReset rt o email db
      return ([], db)
  | .confirmPasswordReset token newPassword => do
      let db ← confirmPasswordReset rt o token newPassword db
      return ([], db)

/-- The clock and the draws of a request. -/
def occasion (w : World Token) (request : Request Token) : Occasion where
  now := w.clock + request.elapsed
  salt := request.salt
  accessJti := random.tokenUrlsafe 16 w.drawn
  refreshJti := random.tokenUrlsafe 16 (w.drawn + 1)
  resetToken := random.tokenUrlsafe (if rt.emailEnabled then 48 else 9) (w.drawn + 2)

def next (w : World Token) (request : Request Token) : World Token :=
  let o := occasion rt random w request
  match serve rt o request.action w.db with
  | .error _ => { w with clock := o.now, drawn := w.drawn + 3 }
  | .ok (tokens, db) => { db := db, clock := o.now, drawn := w.drawn + 3, issued := tokens ++ w.issued }

/-- Some users, and nothing issued. -/
def World.start (users : Table User.id) (clock : Timestamp) : World Token where
  db := { users := users, refreshSessions := Table.empty, passwordResetTokens := Table.empty }
  clock := clock
  drawn := 0
  issued := []

end Histories

/-! ### What a request keeps -/

section Requests

variable {Token : Type} {rt : AuthRuntime Token} {o : Occasion} {db db' db'' : Database}

/-- The versions of the users do not go back; a reset token is an earlier one that expires when
    it did and stays used, or the one drawn. -/
structure Kept (rt : AuthRuntime Token) (o : Occasion) (db db' : Database) : Prop where
  users : ∀ id user, db.users.find? id = some user → ∃ user', db'.users.find? id = some user' ∧
    user.tokenVersion ≤ user'.tokenVersion
  resets : ∀ row' ∈ db'.passwordResetTokens, row'.tokenHash = rt.hashResetToken o.resetToken ∨
    ∃ row ∈ db.passwordResetTokens, row.tokenHash = row'.tokenHash ∧ row.expiresAt = row'.expiresAt ∧
      (row.usedAt ≠ none → row'.usedAt ≠ none)

theorem Kept.refl (db : Database) : Kept rt o db db where
  users _ user huser := ⟨user, huser, Nat.le_refl _⟩
  resets row hrow := .inr ⟨row, hrow, rfl, rfl, id⟩

theorem Kept.trans (h : Kept rt o db db') (h' : Kept rt o db' db'') : Kept rt o db db'' where
  users id user huser := by
    obtain ⟨user', huser', hle⟩ := h.users id user huser
    obtain ⟨user'', huser'', hle'⟩ := h'.users id user' huser'
    exact ⟨user'', huser'', hle.trans hle'⟩
  resets row'' hrow'' := by
    rcases h'.resets row'' hrow'' with hnew | ⟨row', hrow', hhash', hexpires', hused'⟩
    · exact .inl hnew
    · rcases h.resets row' hrow' with hnew | ⟨row, hrow, hhash, hexpires, hused⟩
      · exact .inl (hhash' ▸ hnew)
      · exact .inr ⟨row, hrow, hhash.trans hhash', hexpires.trans hexpires', fun h => hused' (hused h)⟩

theorem kept_of_sessions (husers : db'.users = db.users)
    (hresets : db'.passwordResetTokens = db.passwordResetTokens) : Kept rt o db db' where
  users _ user huser := ⟨user, husers ▸ huser, Nat.le_refl _⟩
  resets row hrow := .inr ⟨row, hresets ▸ hrow, rfl, rfl, id⟩

theorem kept_flushUser {loaded changed : User} (hloaded : db.users.find? loaded.id = some loaded)
    (hversion : loaded.tokenVersion ≤ changed.tokenVersion) : Kept rt o db (db.flushUser loaded changed) where
  users id user huser := by
    refine ⟨if user.id = loaded.id then writeBack loaded changed user else user, ?_, ?_⟩
    · rw [find?_flushUser, huser, Option.map_some]
    split
    · rename_i hid
      have hself : user = loaded := by
        rw [← (Table.mem_of_find? huser).2, hid, hloaded] at huser
        exact (Option.some.inj huser).symm
      rw [hself, writeBack]
      dsimp only
      split
      · exact Nat.le_refl _
      · exact hversion
    · exact Nat.le_refl _
  resets row hrow := .inr ⟨row, hrow, rfl, rfl, id⟩

theorem kept_addSession {record : RefreshSession} (h : db.addSession record = .ok db') : Kept rt o db db' := by
  obtain ⟨-, rfl⟩ := addSession_eq_ok.mp h
  exact kept_of_sessions rfl rfl

theorem kept_addReset {record : PasswordResetToken} (hhash : record.tokenHash = rt.hashResetToken o.resetToken)
    (h : db.addReset record = .ok db') : Kept rt o db db' := by
  obtain ⟨-, rfl⟩ := addReset_eq_ok.mp h
  refine ⟨fun _ user huser => ⟨user, huser, Nat.le_refl _⟩, fun row hrow => ?_⟩
  rcases Table.mem_upsert.mp hrow with rfl | ⟨hold, -⟩
  · exact .inl hhash
  · exact .inr ⟨row, hold, rfl, rfl, id⟩

theorem kept_deleteForUser (userId : String) : Kept rt o db (db.deleteForUser userId) where
  users _ user huser := ⟨user, huser, Nat.le_refl _⟩
  resets row hrow := .inr ⟨row, (Table.mem_erase.mp hrow).1, rfl, rfl, id⟩

theorem mem_markedUsed {t : Table PasswordResetToken.tokenHash} {now : Timestamp} {tokenHash : String}
    {row : PasswordResetToken}
    (h : row ∈ t.update (fun row => row.tokenHash = tokenHash) (used now) (used_tokenHash now)) :
    ∃ old ∈ t, (if old.tokenHash = tokenHash then used now old else old) = row := by
  simpa using Table.mem_update.mp h

theorem kept_markUsed {now : Timestamp} {tokenHash : String} (h : db.markUsed now tokenHash = .ok db') :
    Kept rt o db db' := by
  obtain ⟨-, rfl⟩ := markUsed_eq_ok.mp h
  refine ⟨fun _ user huser => ⟨user, huser, Nat.le_refl _⟩, fun row hrow => ?_⟩
  obtain ⟨old, hold, rfl⟩ := mem_markedUsed hrow
  refine .inr ⟨old, hold, ?_⟩
  split
  · exact ⟨rfl, rfl, fun _ => Option.some_ne_none _⟩
  · exact ⟨rfl, rfl, id⟩

/-- Each token handed out has the version that its user has then, or an earlier one. -/
def Versioned (rt : AuthRuntime Token) (now : Timestamp) (db : Database) (issued : List Token) : Prop :=
  ∀ token ∈ issued, ∃ claims, rt.tokens.payload token = some claims ∧ claims.issuedAt ≤ now ∧
    ∃ user, db.users.find? claims.subject = some user ∧ claims.tokenVersion ≤ user.tokenVersion

theorem issuePair_kept {user : User} {pair : TokenPair Token} (huser : db.users.find? user.id = some user)
    (h : issuePair rt o user db = .ok (pair, db')) :
    Kept rt o db db' ∧ Versioned rt o.now db' [pair.accessToken, pair.refreshToken] := by
  unfold issuePair at h
  obtain ⟨claims, -, h⟩ := bind_eq_ok.mp h
  obtain ⟨added, hadd, h⟩ := bind_eq_ok.mp h
  have hkept : Kept rt o db added := kept_addSession hadd
  cases h
  refine ⟨hkept, fun token htoken => ?_⟩
  obtain ⟨user', huser', hle⟩ := hkept.users user.id user huser
  rcases List.mem_cons.mp htoken with rfl | htoken
  · exact ⟨_, rt.tokens.payload_encode _, wholeSeconds_le _, user', huser', hle⟩
  · obtain rfl := List.mem_singleton.mp htoken
    exact ⟨_, rt.tokens.payload_encode _, wholeSeconds_le _, user', huser', hle⟩

theorem mem_of_findByLogin {lower : String → String} {name : String} {users : Table User.id} {user : User}
    (h : findByLogin lower name users = some user) : users.find? user.id = some user := by
  rw [Table.find?_eq_some]
  refine ⟨?_, rfl⟩
  unfold findByLogin at h
  dsimp only at h
  split at h
  · exact List.mem_of_find?_eq_some h
  · exact List.mem_of_find?_eq_some h

theorem upgraded_version {password : String} {user current : User}
    (h : upgraded rt o password user = .ok current) : current = { user with passwordHash := current.passwordHash } := by
  unfold upgraded at h
  split at h
  · obtain ⟨passwordHash, -, h⟩ := bind_eq_ok.mp h
    cases h
    rfl
  · cases h
    rfl

theorem login_kept {name password : String} {user : User} {pair : TokenPair Token}
    (h : login rt o name password db = .ok ((user, pair), db')) :
    Kept rt o db db' ∧ Versioned rt o.now db' [pair.accessToken, pair.refreshToken] := by
  unfold login at h
  split at h
  · cases h
  · rename_i found hfound
    split_ifs at h
    obtain ⟨current, hcurrent, h⟩ := bind_eq_ok.mp h
    obtain ⟨⟨pair', db''⟩, hpair, h⟩ := bind_eq_ok.mp h
    cases h
    have huser := mem_of_findByLogin hfound
    rw [upgraded_version hcurrent] at hpair
    have hflush : Kept rt o db (db.flushUser found { found with passwordHash := user.passwordHash }) :=
      kept_flushUser huser (Nat.le_refl _)
    have hself : (db.flushUser found { found with passwordHash := user.passwordHash }).users.find? found.id =
        some { found with passwordHash := user.passwordHash } := find?_flushUser_self huser rfl rfl rfl rfl
    obtain ⟨hkept, hversioned⟩ := issuePair_kept hself hpair
    exact ⟨hflush.trans hkept, hversioned⟩

theorem refresh_kept {token : Token} {user : User} {pair : TokenPair Token}
    (h : refresh rt o token db = .ok ((user, pair), db')) :
    Kept rt o db db' ∧ Versioned rt o.now db' [pair.accessToken, pair.refreshToken] := by
  obtain ⟨claims, record, -, hfound, hpair⟩ := refresh_eq_ok.mp h
  obtain ⟨hfind, -, -⟩ := userOf_eq_ok.mp hfound
  have huser : (db.revoke o.now record.jti).2.users.find? user.id = some user := by
    rw [(Table.mem_of_find? hfind).2]
    exact hfind
  have hrevoke : Kept rt o db (db.revoke o.now record.jti).2 := kept_of_sessions rfl rfl
  obtain ⟨hkept, hversioned⟩ := issuePair_kept huser hpair
  exact ⟨hrevoke.trans hkept, hversioned⟩

theorem logout_kept {token : Option Token} : Kept rt o db (logout rt o token db) := by
  unfold logout
  split
  · exact Kept.refl db
  · split
    · exact Kept.refl db
    · exact kept_of_sessions rfl rfl

theorem changePassword_kept {user : User} {currentPassword newPassword : String}
    (huser : db.users.find? user.id = some user)
    (h : changePassword rt o user currentPassword newPassword db = .ok db') : Kept rt o db db' := by
  unfold changePassword at h
  split at h
  · cases h
  · obtain ⟨-, -, h⟩ := bind_eq_ok.mp h
    obtain ⟨passwordHash, -, h⟩ := bind_eq_ok.mp h
    cases h
    have hflush : Kept rt o db (db.flushUser user (passwordChanged passwordHash user)) :=
      kept_flushUser huser (Nat.le_succ _)
    exact hflush.trans (kept_of_sessions rfl rfl)

theorem requestPasswordReset_kept {email : String} (h : requestPasswordReset rt o email db = .ok db') :
    Kept rt o db db' := by
  unfold requestPasswordReset at h
  split at h
  · cases h
    exact Kept.refl db
  · rename_i user _
    split at h
    · cases h
      exact Kept.refl db
    · exact (kept_deleteForUser user.id).trans (kept_addReset rfl h)

theorem confirmPasswordReset_kept {token newPassword : String}
    (h : confirmPasswordReset rt o token newPassword db = .ok db') : Kept rt o db db' := by
  obtain ⟨-, record, user, passwordHash, -, hfound, -, hmarked⟩ := confirmPasswordReset_eq_ok.mp h
  obtain ⟨hfind, -⟩ := resetUser_eq_ok.mp hfound
  have huser : db.users.find? user.id = some user := by rw [(Table.mem_of_find? hfind).2, hfind]
  have hflush : Kept rt o db (db.flushUser user (passwordReset passwordHash record user)) :=
    kept_flushUser huser (Nat.le_succ _)
  have hsessions : Kept rt o db
      ((db.flushUser user (passwordReset passwordHash record user)).revokeForUser o.now user.id) :=
    hflush.trans (kept_of_sessions rfl rfl)
  exact hsessions.trans (kept_markUsed hmarked)

theorem currentUser_eq_ok {access : Option Token} {user : User} : currentUser rt o access db = .ok user ↔
    ∃ token claims, access = some token ∧ decode rt.tokens o.now token .access = .ok claims ∧
      resolveUser claims db = .ok user := by
  unfold currentUser
  cases access with
  | none => simp
  | some token => simp [bind_eq_ok]

theorem currentUser_find {access : Option Token} {user : User} (h : currentUser rt o access db = .ok user) :
    db.users.find? user.id = some user ∧ user.isActive = true := by
  obtain ⟨token, claims, -, -, hresolve⟩ := currentUser_eq_ok.mp h
  obtain ⟨hfind, hactive, -⟩ := userOf_eq_ok.mp hresolve
  rw [(Table.mem_of_find? hfind).2]
  exact ⟨hfind, hactive⟩

/-- Every request keeps the versions and the reset tokens, and hands out tokens of the version
    of their user. -/
theorem serve_kept {action : Action Token} {tokens : List Token} (h : serve rt o action db = .ok (tokens, db')) :
    Kept rt o db db' ∧ Versioned rt o.now db' tokens := by
  have hnone : Versioned rt o.now db' [] := by
    intro token htoken
    cases htoken
  cases action with
  | login name password =>
    obtain ⟨⟨⟨user, pair⟩, changed⟩, hlogin, h⟩ := bind_eq_ok.mp h
    cases h
    exact login_kept hlogin
  | refresh token =>
    obtain ⟨⟨⟨user, pair⟩, changed⟩, hrefresh, h⟩ := bind_eq_ok.mp h
    cases h
    exact refresh_kept hrefresh
  | logout token =>
    cases h
    exact ⟨logout_kept, hnone⟩
  | logoutAll access =>
    obtain ⟨user, -, h⟩ := bind_eq_ok.mp h
    cases h
    exact ⟨kept_of_sessions rfl rfl, hnone⟩
  | changePassword access currentPassword newPassword =>
    obtain ⟨user, huser, h⟩ := bind_eq_ok.mp h
    obtain ⟨changed, hchange, h⟩ := bind_eq_ok.mp h
    cases h
    exact ⟨changePassword_kept (currentUser_find huser).1 hchange, hnone⟩
  | requestPasswordReset email =>
    obtain ⟨changed, hrequest, h⟩ := bind_eq_ok.mp h
    cases h
    exact ⟨requestPasswordReset_kept hrequest, hnone⟩
  | confirmPasswordReset token newPassword =>
    obtain ⟨changed, hconfirm, h⟩ := bind_eq_ok.mp h
    cases h
    exact ⟨confirmPasswordReset_kept hconfirm, hnone⟩

end Requests

/-! ### What a history keeps -/

section Worlds

variable {Token : Type} {rt : AuthRuntime Token} {random : Randomness rt} {w w' w'' : World Token}

/-- The tokens handed out have the version of their user or an earlier one, and the reset
    tokens were drawn. -/
structure Sound (random : Randomness rt) (w : World Token) : Prop where
  issued : Versioned rt w.clock w.db w.issued
  resets : ∀ row ∈ w.db.passwordResetTokens, ∃ bytes n, n < w.drawn ∧
    row.tokenHash = rt.hashResetToken (random.tokenUrlsafe bytes n)

/-- A later world: the versions have not gone back; a reset token is an earlier one that expires
    when it did and stays used, or was drawn since. -/
structure Later (random : Randomness rt) (w w' : World Token) : Prop where
  clock : w.clock ≤ w'.clock
  drawn : w.drawn ≤ w'.drawn
  users : ∀ id user, w.db.users.find? id = some user → ∃ user', w'.db.users.find? id = some user' ∧
    user.tokenVersion ≤ user'.tokenVersion
  resets : ∀ row' ∈ w'.db.passwordResetTokens,
    (∃ bytes n, w.drawn ≤ n ∧ row'.tokenHash = rt.hashResetToken (random.tokenUrlsafe bytes n)) ∨
    ∃ row ∈ w.db.passwordResetTokens, row.tokenHash = row'.tokenHash ∧ row.expiresAt = row'.expiresAt ∧
      (row.usedAt ≠ none → row'.usedAt ≠ none)

theorem Later.refl (w : World Token) : Later random w w where
  clock := le_refl _
  drawn := Nat.le_refl _
  users _ user huser := ⟨user, huser, Nat.le_refl _⟩
  resets row hrow := .inr ⟨row, hrow, rfl, rfl, id⟩

theorem Later.trans (h : Later random w w') (h' : Later random w' w'') : Later random w w'' where
  clock := h.clock.trans h'.clock
  drawn := h.drawn.trans h'.drawn
  users id user huser := by
    obtain ⟨user', huser', hle⟩ := h.users id user huser
    obtain ⟨user'', huser'', hle'⟩ := h'.users id user' huser'
    exact ⟨user'', huser'', hle.trans hle'⟩
  resets row'' hrow'' := by
    rcases h'.resets row'' hrow'' with ⟨bytes, n, hn, hnew⟩ | ⟨row', hrow', hhash', hexpires', hused'⟩
    · exact .inl ⟨bytes, n, h.drawn.trans hn, hnew⟩
    · rcases h.resets row' hrow' with ⟨bytes, n, hn, hnew⟩ | ⟨row, hrow, hhash, hexpires, hused⟩
      · exact .inl ⟨bytes, n, hn, hhash' ▸ hnew⟩
      · exact .inr ⟨row, hrow, hhash.trans hhash', hexpires.trans hexpires', fun h => hused' (hused h)⟩

theorem next_kept (random : Randomness rt) (w : World Token) (request : Request Token) :
    (next rt random w request).clock = w.clock + request.elapsed ∧
    (next rt random w request).drawn = w.drawn + 3 ∧
    Kept rt (occasion rt random w request) w.db (next rt random w request).db ∧
    ∃ tokens, (next rt random w request).issued = tokens ++ w.issued ∧
      Versioned rt (w.clock + request.elapsed) (next rt random w request).db tokens := by
  unfold next
  dsimp only
  split
  · refine ⟨rfl, rfl, Kept.refl w.db, [], rfl, fun token htoken => ?_⟩
    cases htoken
  · rename_i tokens db hserve
    obtain ⟨hkept, hversioned⟩ := serve_kept hserve
    exact ⟨rfl, rfl, hkept, tokens, rfl, hversioned⟩

theorem later_next (random : Randomness rt) (w : World Token) (request : Request Token) : Later random w (next rt random w request) := by
  obtain ⟨hclock, hdrawn, hkept, -⟩ := next_kept random w request
  refine ⟨by rw [hclock]; exact Int.le_add_of_nonneg_right (Int.natCast_nonneg _), by omega, hkept.users, ?_⟩
  intro row hrow
  rcases hkept.resets row hrow with hnew | hold
  · exact .inl ⟨_, w.drawn + 2, Nat.le_add_right _ _, hnew⟩
  · exact .inr hold

theorem later_final (random : Randomness rt) (w : World Token) (history : List (Request Token)) :
    Later random w (final (next rt random) w history) := by
  apply final_invariant
  · intro request _ w' hlater
    exact hlater.trans (later_next random w' request)
  · exact Later.refl w

theorem Versioned.later {issued : List Token} (h : Versioned rt w.clock w.db issued) (hlater : Later random w w') :
    Versioned rt w'.clock w'.db issued := by
  intro token htoken
  obtain ⟨claims, hpayload, hissued, user, huser, hversion⟩ := h token htoken
  obtain ⟨user', huser', hle⟩ := hlater.users _ user huser
  exact ⟨claims, hpayload, hissued.trans hlater.clock, user', huser', hversion.trans hle⟩

theorem Sound.next (hw : Sound random w) (request : Request Token) : Sound random (next rt random w request) := by
  have hlater := later_next random w request
  obtain ⟨hclock, hdrawn, hkept, tokens, hissued, hversioned⟩ := next_kept random w request
  constructor
  · intro token htoken
    rw [hissued] at htoken
    rcases List.mem_append.mp htoken with hnew | hold
    · rw [hclock]
      exact hversioned token hnew
    · exact hw.issued.later hlater token hold
  · intro row hrow
    rcases hkept.resets row hrow with hnew | ⟨old, hold, hhash, -⟩
    · exact ⟨_, w.drawn + 2, by omega, hnew⟩
    · obtain ⟨bytes, n, hn, hdrawnHash⟩ := hw.resets old hold
      exact ⟨bytes, n, by omega, hhash ▸ hdrawnHash⟩

theorem sound_start (users : Table User.id) (clock : Timestamp) : Sound random (World.start users clock) where
  issued token htoken := by cases htoken
  resets row hrow := absurd hrow (Table.not_mem_empty row)

theorem sound_final (users : Table User.id) (clock : Timestamp) (history : List (Request Token)) :
    Sound random (final (next rt random) (World.start users clock) history) := by
  apply final_invariant
  · intro request _ w hw
    exact hw.next request
  · exact sound_start users clock

end Worlds

/-! ### After a change of the password -/

section Changes

variable {Token : Type} (rt : AuthRuntime Token) (random : Randomness rt)

/-- The request changes the password of the user. -/
def Changes (w : World Token) (request : Request Token) (user : User) : Prop :=
  ∃ access currentPassword newPassword db,
    request.action = .changePassword access currentPassword newPassword ∧
    currentUser rt (occasion rt random w request) access w.db = .ok user ∧
    changePassword rt (occasion rt random w request) user currentPassword newPassword w.db = .ok db

/-- The token was handed out to the user before. -/
def Earlier (w : World Token) (user : User) (token : Token) (claims : TokenClaims) : Prop :=
  token ∈ w.issued ∧ rt.tokens.payload token = some claims ∧ claims.subject = user.id

/-- No credential that the user had in the first world is accepted in the second one, now or
    at a later time. -/
structure Rejected (w w' : World Token) (user : User) : Prop where
  access : ∀ o : Occasion, w'.clock ≤ o.now → ∀ token claims, Earlier rt w user token claims →
    ∀ other, currentUser rt o (some token) w'.db ≠ .ok other
  refresh : ∀ o : Occasion, w'.clock ≤ o.now → ∀ token claims, Earlier rt w user token claims →
    ∀ result, AuthService.refresh rt o token w'.db ≠ .ok result
  socket : rt.wsRequireAuth = true → ∀ o : Occasion, w'.clock ≤ o.now → ∀ token claims,
    Earlier rt w user token claims → admitsSocket rt o (some token) = false
  reset : ∀ o : Occasion, w'.clock ≤ o.now → ∀ row ∈ w.db.passwordResetTokens, row.userId = user.id →
    ∀ token, rt.hashResetToken token = row.tokenHash →
      ∀ newPassword db, confirmPasswordReset rt o token newPassword w'.db ≠ .ok db

/-- No credential of the user from before the request is ever accepted after it. -/
def NoneAccepted (w : World Token) (request : Request Token) (user : User) : Prop :=
  ∀ history, Rejected rt w (final (next rt random) (next rt random w request) history) user

variable {rt random} {w w' : World Token} {request : Request Token} {user : User}

theorem Changes.next_db (h : Changes rt random w request user) :
    w.db.users.find? user.id = some user ∧ user.isActive = true ∧
    (∃ passwordHash, (next rt random w request).db.users.find? user.id =
      some (passwordChanged passwordHash user)) ∧
    (next rt random w request).db.passwordResetTokens = w.db.passwordResetTokens := by
  obtain ⟨access, currentPassword, newPassword, db, haction, huser, hchange⟩ := h
  obtain ⟨hfind, hactive⟩ := currentUser_find huser
  have hserve : serve rt (occasion rt random w request) request.action w.db = .ok ([], db) := by
    rw [haction]
    refine bind_eq_ok.mpr ⟨user, huser, bind_eq_ok.mpr ⟨db, hchange, rfl⟩⟩
  have hnext : (next rt random w request).db = db := by
    unfold next
    dsimp only
    rw [hserve]
  rw [hnext]
  refine ⟨hfind, hactive, ?_⟩
  unfold changePassword at hchange
  split at hchange
  · cases hchange
  · obtain ⟨-, -, hchange⟩ := bind_eq_ok.mp hchange
    obtain ⟨passwordHash, -, hchange⟩ := bind_eq_ok.mp hchange
    cases hchange
    exact ⟨⟨passwordHash, find?_flushUser_self hfind rfl rfl rfl rfl⟩, rfl⟩

theorem Changes.outdated (h : Changes rt random w request user) (hw : Sound random w)
    (hlater : Later random (next rt random w request) w') {token : Token} {claims : TokenClaims}
    (hearlier : Earlier rt w user token claims) {other : User}
    (hother : w'.db.users.find? claims.subject = some other) : claims.tokenVersion < other.tokenVersion := by
  obtain ⟨hfind, -, ⟨passwordHash, hchanged⟩, -⟩ := h.next_db
  obtain ⟨hissued, hpayload, hsubject⟩ := hearlier
  obtain ⟨claims', hpayload', -, user', huser', hversion⟩ := hw.issued token hissued
  obtain rfl := Option.some.inj (hpayload.symm.trans hpayload')
  rw [hsubject, hfind] at huser'
  obtain rfl := Option.some.inj huser'
  obtain ⟨found, hfound, hle⟩ := hlater.users user.id _ hchanged
  rw [hsubject, hfound] at hother
  obtain rfl := Option.some.inj hother
  exact lt_of_le_of_lt hversion (Nat.lt_of_succ_le hle)

theorem Changes.userOf_rejects (h : Changes rt random w request user) (hw : Sound random w)
    (hlater : Later random (next rt random w request) w') {token : Token} {claims : TokenClaims}
    (hearlier : Earlier rt w user token claims) (outdated : String) (other : User) :
    userOf outdated claims w'.db ≠ .ok other := by
  intro hok
  obtain ⟨hother, -, hversion⟩ := userOf_eq_ok.mp hok
  have hless := h.outdated hw hlater hearlier hother
  omega

theorem Changes.access_rejected (h : Changes rt random w request user) (hw : Sound random w)
    (hlater : Later random (next rt random w request) w') (o : Occasion) {token : Token} {claims : TokenClaims}
    (hearlier : Earlier rt w user token claims) (other : User) :
    currentUser rt o (some token) w'.db ≠ .ok other := by
  intro hok
  obtain ⟨token', claims', htoken, hdecode, hresolve⟩ := currentUser_eq_ok.mp hok
  cases htoken
  have hpayload := (decode_eq_ok.mp hdecode).1
  obtain rfl := Option.some.inj (hearlier.2.1.symm.trans hpayload)
  exact h.userOf_rejects hw hlater hearlier _ other hresolve

theorem Changes.refresh_rejected (h : Changes rt random w request user) (hw : Sound random w)
    (hlater : Later random (next rt random w request) w') (o : Occasion) {token : Token} {claims : TokenClaims}
    (hearlier : Earlier rt w user token claims) (result : (User × TokenPair Token) × Database) :
    AuthService.refresh rt o token w'.db ≠ .ok result := by
  intro hok
  unfold AuthService.refresh at hok
  obtain ⟨⟨claims', record⟩, hrecord, hok⟩ := bind_eq_ok.mp hok
  obtain ⟨found, hfound, -⟩ := bind_eq_ok.mp hok
  have hpayload := (decode_eq_ok.mp (refreshRecord_eq_ok.mp hrecord).1).1
  obtain rfl := Option.some.inj (hearlier.2.1.symm.trans hpayload)
  exact h.userOf_rejects hw hlater hearlier _ found hfound

theorem admitsSocket_iff {o : Occasion} {token : Token} : admitsSocket rt o (some token) = true ↔
    ∃ claims, decode rt.tokens o.now token .access = .ok claims := by
  unfold admitsSocket
  dsimp only
  cases decode rt.tokens o.now token .access <;> simp

theorem Changes.reset_rejected (h : Changes rt random w request user) (hw : Sound random w)
    (hlater : Later random (next rt random w request) w') {o : Occasion} (ho : w'.clock ≤ o.now)
    {row : PasswordResetToken} (hrow : row ∈ w.db.passwordResetTokens)
    (hdead : row.usedAt ≠ none ∨ row.expiresAt < w.clock + request.elapsed) {token : String}
    (htoken : rt.hashResetToken token = row.tokenHash) (record : PasswordResetToken) :
    resetRecord rt o token w'.db ≠ .ok record := by
  intro hok
  obtain ⟨hfind, hunused, hexpires⟩ := resetRecord_eq_ok.mp hok
  obtain ⟨hmem, hhash⟩ := Table.mem_of_find? hfind
  obtain ⟨hclock, hdrawn, -⟩ := next_kept random w request
  rcases hlater.resets record hmem with ⟨bytes, n, hn, hnew⟩ | ⟨old, hold, hsame, hexpiry, hused⟩
  · obtain ⟨bytes', n', hn', hdrawnHash⟩ := hw.resets row hrow
    have heq : n = n' := random.distinct bytes bytes' n n' (by rw [← hnew, hhash, htoken, hdrawnHash])
    omega
  · rw [h.next_db.2.2.2] at hold
    obtain rfl := Table.eq_of_key_eq hold hrow (by rw [hsame, hhash, htoken])
    rcases hdead with hwasUsed | hpast
    · exact hused hwasUsed hunused
    · have hle := hlater.clock.trans ho
      rw [hclock] at hle
      rw [← hexpiry] at hexpires
      exact absurd hexpires (Int.not_le.mpr (Int.lt_of_lt_of_le hpast hle))

theorem confirmPasswordReset_ok {o : Occasion} {token newPassword : String} {db : Database}
    {record : PasswordResetToken} {user : User} (hpassword : validatePassword newPassword = .ok ())
    (hne : newPassword ≠ "") (hrecord : resetRecord rt o token db = .ok record)
    (huser : resetUser record db = .ok user) :
    ∃ db', confirmPasswordReset rt o token newPassword db = .ok db' := by
  have hfound : db.passwordResetTokens.find? record.tokenHash ≠ none := by
    obtain ⟨hfind, -⟩ := resetRecord_eq_ok.mp hrecord
    rw [(Table.mem_of_find? hfind).2, hfind]
    exact Option.some_ne_none _
  exact ⟨_, confirmPasswordReset_eq_ok.mpr ⟨hpassword, record, user, rt.hash o.salt newPassword, hrecord, huser,
    if_neg hne, markUsed_eq_ok.mpr ⟨hfound, rfl⟩⟩⟩

/-- No earlier credential is accepted after a change of the password iff no unused reset token
    of the user is still valid then and, where the socket asks for a token, no access token
    handed out to the user is. -/
theorem noneAccepted_iff (users : Table User.id) (clock : Timestamp) (history : List (Request Token))
    (hw : w = final (next rt random) (World.start users clock) history)
    (h : Changes rt random w request user) : NoneAccepted rt random w request user ↔
    (∀ row ∈ w.db.passwordResetTokens, row.userId = user.id →
      row.usedAt ≠ none ∨ row.expiresAt < w.clock + request.elapsed) ∧
    (rt.wsRequireAuth = true → ∀ token claims, Earlier rt w user token claims →
      claims.tokenType = .access → claims.expiresAt ≤ w.clock + request.elapsed) := by
  have hsound : Sound random w := by
    rw [hw]
    exact sound_final users clock history
  obtain ⟨hfind, hactive, ⟨passwordHash, hchanged⟩, hresets⟩ := h.next_db
  obtain ⟨hclock, -⟩ := next_kept random w request
  let o : Occasion := occasion rt random w request
  have ho : (next rt random w request).clock ≤ o.now := hclock.le
  constructor
  · intro hnone
    have hrejected := hnone []
    constructor
    · intro row hrow huserId
      by_contra halive
      rw [not_or, not_not, Int.not_lt] at halive
      obtain ⟨bytes, n, -, hhash⟩ := hsound.resets row hrow
      have hrecord : resetRecord rt o (random.tokenUrlsafe bytes n) (next rt random w request).db = .ok row := by
        rw [resetRecord_eq_ok, hresets, Table.find?_eq_some]
        exact ⟨⟨hrow, hhash⟩, halive.1, halive.2⟩
      have huser : resetUser row (next rt random w request).db = .ok (passwordChanged passwordHash user) := by
        rw [resetUser_eq_ok, huserId]
        exact ⟨hchanged, hactive⟩
      have hpassword : validatePassword "correct horse battery" = .ok () := by decide
      obtain ⟨db, hconfirm⟩ := confirmPasswordReset_ok hpassword (by decide) hrecord huser
      exact hrejected.reset o ho row hrow huserId _ hhash.symm _ db hconfirm
    · intro hsocket token claims hearlier haccess
      by_contra hvalid
      have hadmits : admitsSocket rt o (some token) = true := by
        obtain ⟨claims', hpayload, hissued, -⟩ := hsound.issued token hearlier.1
        obtain rfl := Option.some.inj (hearlier.2.1.symm.trans hpayload)
        rw [admitsSocket_iff]
        refine ⟨claims, decode_eq_ok.mpr ⟨hpayload, ?_, Int.not_le.mp hvalid, haccess⟩⟩
        exact hissued.trans (Int.le_add_of_nonneg_right (Int.natCast_nonneg _))
      rw [hrejected.socket hsocket o ho token claims hearlier] at hadmits
      cases hadmits
  · rintro ⟨hdead, hexpired⟩ later
    have hlater := later_final random (next rt random w request) later
    constructor
    · intro o _ token claims hearlier other
      exact h.access_rejected hsound hlater o hearlier other
    · intro o _ token claims hearlier result
      exact h.refresh_rejected hsound hlater o hearlier result
    · intro hsocket o ho token claims hearlier
      rw [Bool.eq_false_iff, Ne, admitsSocket_iff]
      rintro ⟨claims', hdecode⟩
      obtain ⟨hpayload, -, hexpires, haccess⟩ := decode_eq_ok.mp hdecode
      obtain rfl := Option.some.inj (hearlier.2.1.symm.trans hpayload)
      have hle := hlater.clock.trans ho
      rw [hclock] at hle
      exact absurd (hexpired hsocket token claims hearlier haccess) (Int.not_le.mpr (Int.lt_of_le_of_lt hle hexpires))
    · intro o ho row hrow huserId token htoken newPassword db hconfirm
      obtain ⟨-, record, -, -, hrecord, -⟩ := confirmPasswordReset_eq_ok.mp hconfirm
      exact h.reset_rejected hsound hlater ho hrow (hdead row hrow huserId) htoken record hrecord

end Changes

/-! ### A reset token that outlives the change -/

/-- The draws are told apart by their length. -/
def plainRandomness : Randomness plainRuntime where
  tokenUrlsafe _ n := String.ofList (List.replicate n 'x')
  distinct _ _ n n' h := by
    have hlength := congrArg (fun text : String => text.toList.length) h
    simpa [plainRuntime] using hlength

def aliceLogin : Request TokenClaims where
  elapsed := 0
  salt := 0
  action := .login "alice" "an earlier password"

def aliceReset : Request TokenClaims where
  elapsed := 0
  salt := 0
  action := .requestPasswordReset "alice@example.org"

/-- The access token of the login. -/
def aliceAccess : TokenClaims := accessClaims plainRuntime.tokens 0 "1" 0 ""

def aliceChange : Request TokenClaims where
  elapsed := 0
  salt := 0
  action := .changePassword (some aliceAccess) "an earlier password" "another password"

theorem alice_changes (history : List (Request TokenClaims))
    (h : history = [aliceLogin] ∨ history = [aliceLogin, aliceReset]) :
    Changes plainRuntime plainRandomness
      (final (next plainRuntime plainRandomness) (World.start onlyAlice 0) history) aliceChange alice := by
  rcases h with rfl | rfl
  · exact ⟨some aliceAccess, _, _, _, rfl, rfl, rfl⟩
  · exact ⟨some aliceAccess, _, _, _, rfl, rfl, rfl⟩

/-- A reset token asked for before the change sets a password after it. -/
theorem reset_token_outlives_change : ∃ w, w = final (next plainRuntime plainRandomness)
      (World.start onlyAlice 0) [aliceLogin, aliceReset] ∧
    Changes plainRuntime plainRandomness w aliceChange alice ∧
    ¬ NoneAccepted plainRuntime plainRandomness w aliceChange alice := by
  refine ⟨_, rfl, alice_changes _ (.inr rfl), fun hnone => ?_⟩
  let o : Occasion := { now := 0, salt := 0, accessJti := "", refreshJti := "", resetToken := "" }
  let row : PasswordResetToken :=
    { tokenHash := "xxxxx", userId := "1", expiresAt := seconds 1800, usedAt := none, mustChangeOnUse := false }
  exact (hnone []).reset o (by decide) row (List.mem_singleton.mpr rfl) rfl "xxxxx" rfl "a password of a thief" _ rfl

/-- Without one nothing from before is accepted. -/
theorem noneAccepted_iff_no_reset : ∃ w, w = final (next plainRuntime plainRandomness)
      (World.start onlyAlice 0) [aliceLogin] ∧
    Changes plainRuntime plainRandomness w aliceChange alice ∧
    NoneAccepted plainRuntime plainRandomness w aliceChange alice := by
  refine ⟨_, rfl, alice_changes _ (.inl rfl), ?_⟩
  refine (noneAccepted_iff onlyAlice 0 [aliceLogin] rfl (alice_changes _ (.inl rfl))).mpr ⟨?_, ?_⟩
  · intro row hrow
    exact absurd hrow (Table.not_mem_empty row)
  · intro hsocket
    cases hsocket

end CredentialRevocation
