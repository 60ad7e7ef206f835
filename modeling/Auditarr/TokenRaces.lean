/-
  Auditarr/TokenRaces.lean
  ========================
  **Calls that present one token at the same time** (`refresh` and `confirm_password_reset` in
  `app/services/auth_service.py`).

  Each reads the row of its token, then the user, and then writes.  The update that revokes a
  session matches a row that is not revoked yet, but nobody asks whether it matched; the one
  that marks a reset token as used matches it in any case.
-/
import Auditarr.AuthService
import Auditarr.SingleUse

namespace TokenRaces

open KeyedTable PyValues AuthStore AuthService Runs SingleUse

section Model

variable {Token : Type}

/-- What the first check of a refresh found: the claims of the token and the row of its id. -/
structure FoundSession (rt : AuthRuntime Token) (token : Token) where
  claims : TokenClaims
  record : RefreshSession
  payload : rt.tokens.payload token = some claims
  jti : record.jti = claims.tokenId

/-- What the first check of a confirmation found: the row of the hash of the token. -/
structure FoundReset (rt : AuthRuntime Token) (token : String) where
  record : PasswordResetToken
  hash : record.tokenHash = rt.hashResetToken token

inductive RefreshStage (rt : AuthRuntime Token) (token : Token) where
  | presented
  | recordRead (found : FoundSession rt token)
  | userRead (found : FoundSession rt token) (user : User)
  /-- After the update, which matched the row or not. -/
  | revoked (found : FoundSession rt token) (user : User) (matched : Bool)
  | returned (user : User) (pair : TokenPair Token)
  | raised (error : Raised)

inductive ConfirmStage (rt : AuthRuntime Token) (token : String) where
  | presented
  | recordRead (found : FoundReset rt token)
  | userRead (found : FoundReset rt token) (user : User)
  | userWritten (found : FoundReset rt token) (user : User)
  | sessionsRevoked (found : FoundReset rt token)
  | returned
  | raised (error : Raised)

/-- A call: what was presented, and how far it has come. -/
inductive Call (rt : AuthRuntime Token) where
  | refresh (token : Token) (stage : RefreshStage rt token)
  | confirm (token newPassword : String) (stage : ConfirmStage rt token)

variable {rt : AuthRuntime Token}

/-- What a refresh finds. -/
def foundSession {o : Occasion} {token : Token} {db : Database} {found : TokenClaims × RefreshSession}
    (h : refreshRecord rt o token db = .ok found) : FoundSession rt token where
  claims := found.1
  record := found.2
  payload := (decode_eq_ok.mp (refreshRecord_eq_ok.mp h).1).1
  jti := (Table.mem_of_find? (refreshRecord_eq_ok.mp h).2.1).2

/-- What a confirmation finds. -/
def foundReset {o : Occasion} {token : String} {db : Database} {record : PasswordResetToken}
    (h : resetRecord rt o token db = .ok record) : FoundReset rt token where
  record := record
  hash := (Table.mem_of_find? (resetRecord_eq_ok.mp h).1).2

/-! ### The steps -/

variable (rt) (o : Occasion)

/-- The first step of `refresh`. -/
def readSession (token : Token) (db : Database) : RefreshStage rt token :=
  match h : refreshRecord rt o token db with
  | .error error => .raised error
  | .ok _ => .recordRead (foundSession h)

/-- The first step of `confirm_password_reset`. -/
def readReset (token : String) (db : Database) : ConfirmStage rt token :=
  match h : resetRecord rt o token db with
  | .error error => .raised error
  | .ok _ => .recordRead (foundReset h)

theorem readSession_cases (token : Token) (db : Database) :
    (∃ error, refreshRecord rt o token db = .error error ∧ readSession rt o token db = .raised error) ∨
    ∃ found, ∃ h : refreshRecord rt o token db = .ok found,
      readSession rt o token db = .recordRead (foundSession h) := by
  unfold readSession
  split
  · rename_i error h
    exact .inl ⟨error, h, rfl⟩
  · rename_i found h
    exact .inr ⟨found, h, rfl⟩

theorem readReset_cases (token : String) (db : Database) :
    (∃ error, resetRecord rt o token db = .error error ∧ readReset rt o token db = .raised error) ∨
    ∃ record, ∃ h : resetRecord rt o token db = .ok record,
      readReset rt o token db = .recordRead (foundReset h) := by
  unfold readReset
  split
  · rename_i error h
    exact .inl ⟨error, h, rfl⟩
  · rename_i record h
    exact .inr ⟨record, h, rfl⟩

/-- One step of `refresh`.  An insert that fails rolls the update back. -/
def advanceRefresh {token : Token} (stage : RefreshStage rt token) (db : Database) :
    RefreshStage rt token × Database :=
  match stage with
  | .presented => (readSession rt o token db, db)
  | .recordRead found => match refreshUser found.claims db with
    | .error error => (.raised error, db)
    | .ok user => (.userRead found user, db)
  | .userRead found user =>
      (.revoked found user (db.revoke o.now found.record.jti).1, (db.revoke o.now found.record.jti).2)
  | .revoked found user matched => match issuePair rt o user db with
    | .error error => (.raised error, if matched then db.unrevoke found.record.jti else db)
    | .ok (pair, db) => (.returned user pair, db)
  | .returned user pair => (.returned user pair, db)
  | .raised error => (.raised error, db)

/-- One step of `confirm_password_reset`.  The row of the token is there to the end: none of the
    calls deletes one. -/
def advanceConfirm {token : String} (newPassword : String) (stage : ConfirmStage rt token) (db : Database) :
    ConfirmStage rt token × Database :=
  match stage with
  | .presented => match validatePassword newPassword with
    | .error error => (.raised error, db)
    | .ok () => (readReset rt o token db, db)
  | .recordRead found => match resetUser found.record db with
    | .error error => (.raised error, db)
    | .ok user => (.userRead found user, db)
  | .userRead found user => match hashPassword rt o newPassword with
    | .error error => (.raised error, db)
    | .ok passwordHash =>
        (.userWritten found user, db.flushUser user (passwordReset passwordHash found.record user))
  | .userWritten found user => (.sessionsRevoked found, db.revokeForUser o.now user.id)
  | .sessionsRevoked found => match db.markUsed o.now found.record.tokenHash with
    | .error error => (.raised error, db)
    | .ok db => (.returned, db)
  | .returned => (.returned, db)
  | .raised error => (.raised error, db)

/-- One step of a call. -/
def advance (call : Call rt) (db : Database) : Call rt × Database :=
  match call with
  | .refresh token stage =>
      (.refresh token (advanceRefresh rt o stage db).1, (advanceRefresh rt o stage db).2)
  | .confirm token newPassword stage =>
      (.confirm token newPassword (advanceConfirm rt o newPassword stage db).1,
        (advanceConfirm rt o newPassword stage db).2)

end Model

/-! ### What is used up -/

inductive Credential where
  | session (jti : String)
  | reset (tokenHash : String)
deriving DecidableEq

/-- The row of a credential says that it was used. -/
def UsedUp (db : Database) : Option Credential → Prop
  | none => False
  | some (.session jti) => ∃ record, db.refreshSessions.find? jti = some record ∧ record.revokedAt ≠ none
  | some (.reset tokenHash) => ∃ record, db.passwordResetTokens.find? tokenHash = some record ∧ record.usedAt ≠ none

section Rows

variable {db db' db'' : Database} {now : Timestamp} {jti : String}

/-- The rows of sessions stay, and what is used up stays so. -/
structure Keeps (db db' : Database) : Prop where
  rows : ∀ jti, db.refreshSessions.find? jti ≠ none → db'.refreshSessions.find? jti ≠ none
  used : ∀ k, UsedUp db k → UsedUp db' k

theorem Keeps.refl (db : Database) : Keeps db db where
  rows _ h := h
  used _ h := h

theorem keeps_update {p : RefreshSession → Bool}
    (hsessions : db'.refreshSessions = db.refreshSessions.update p (revoked now) (revoked_jti now))
    (hresets : db'.passwordResetTokens = db.passwordResetTokens) : Keeps db db' where
  rows jti h := by
    rw [hsessions, Table.find?_update, Ne, Option.map_eq_none_iff]
    exact h
  used k h := by
    match k with
    | some (.session jti) =>
      obtain ⟨record, hfind, hrevoked⟩ := h
      refine ⟨if p record then revoked now record else record, ?_, ?_⟩
      · rw [hsessions, Table.find?_update, hfind, Option.map_some]
      · split
        · exact Option.some_ne_none _
        · exact hrevoked
    | some (.reset tokenHash) =>
      obtain ⟨record, hfind, hused⟩ := h
      exact ⟨record, hresets ▸ hfind, hused⟩

theorem keeps_revoke : Keeps db (db.revoke now jti).2 := keeps_update rfl rfl

theorem keeps_revokeForUser {userId : String} : Keeps db (db.revokeForUser now userId) := keeps_update rfl rfl

theorem keeps_addSession {record : RefreshSession} (h : db.addSession record = .ok db') : Keeps db db' := by
  obtain ⟨hmissing, rfl⟩ := addSession_eq_ok.mp h
  have hfind : ∀ jti found, db.refreshSessions.find? jti = some found →
      (db.refreshSessions.upsert record).find? jti = some found := by
    intro jti found hfound
    have hne : jti ≠ record.jti := by
      rintro rfl
      rw [hmissing] at hfound
      cases hfound
    rw [Table.find?_upsert, if_neg hne, hfound]
  constructor
  · intro jti hrow
    obtain ⟨found, hfound⟩ := Option.ne_none_iff_exists'.mp hrow
    exact Option.ne_none_iff_exists'.mpr ⟨found, hfind jti found hfound⟩
  · intro k hused
    match k with
    | some (.session jti) =>
      obtain ⟨found, hfound, hrevoked⟩ := hused
      exact ⟨found, hfind jti found hfound, hrevoked⟩
    | some (.reset tokenHash) => exact hused

theorem keeps_markUsed {tokenHash : String} (h : db.markUsed now tokenHash = .ok db') :
    Keeps db db' ∧ UsedUp db' (some (.reset tokenHash)) := by
  obtain ⟨hfound, rfl⟩ := markUsed_eq_ok.mp h
  obtain ⟨found, hfind⟩ := Option.ne_none_iff_exists'.mp hfound
  refine ⟨⟨fun _ hrow => hrow, fun k hused => ?_⟩, used now found, ?_, Option.some_ne_none _⟩
  · match k with
    | some (.session jti) => exact hused
    | some (.reset other) =>
      obtain ⟨record, hrecord, hwas⟩ := hused
      refine ⟨if record.tokenHash = tokenHash then used now record else record, ?_, ?_⟩
      · simp [Table.find?_update, hrecord]
      · split
        · exact Option.some_ne_none _
        · exact hwas
  · simp [Table.find?_update, hfind, (Table.mem_of_find? hfind).2]

theorem usedUp_revoke (hrow : db.refreshSessions.find? jti ≠ none) :
    UsedUp (db.revoke now jti).2 (some (.session jti)) := by
  obtain ⟨found, hfind⟩ := Option.ne_none_iff_exists'.mp hrow
  have hjti := (Table.mem_of_find? hfind).2
  by_cases hrevoked : found.revokedAt = none
  · refine ⟨revoked now found, ?_, Option.some_ne_none _⟩
    simp [Database.revoke, Table.find?_update, hfind, hjti, RefreshSession.isRevoked, hrevoked]
  · exact keeps_revoke.used _ ⟨found, hfind, hrevoked⟩

theorem unrevoke_keeps (db : Database) (jti : String) : (∀ other, db.refreshSessions.find? other ≠ none →
      (db.unrevoke jti).refreshSessions.find? other ≠ none) ∧
    ∀ k, UsedUp db k → k ≠ some (.session jti) → UsedUp (db.unrevoke jti) k := by
  constructor
  · intro other hrow
    rw [Database.unrevoke, Table.find?_update, Ne, Option.map_eq_none_iff]
    exact hrow
  · intro k hused hne
    match k with
    | some (.session other) =>
      obtain ⟨record, hfind, hrevoked⟩ := hused
      have hother : record.jti ≠ jti := by
        intro heq
        rw [(Table.mem_of_find? hfind).2] at heq
        exact hne (by rw [heq])
      refine ⟨record, ?_, hrevoked⟩
      simp [Database.unrevoke, Table.find?_update, hfind, hother]
    | some (.reset tokenHash) => exact hused

end Rows

/-! ### The calls as parties -/

section Parties

variable {Token : Type} {rt : AuthRuntime Token}

def RefreshStage.phase {token : Token} : RefreshStage rt token → Phase
  | .presented => .before
  | .recordRead _ | .userRead _ _ => .inside
  | .revoked _ _ _ => .spent
  | .returned _ _ => .succeeded
  | .raised _ => .failed

def ConfirmStage.phase {token : String} : ConfirmStage rt token → Phase
  | .presented => .before
  | .recordRead _ | .userRead _ _ | .userWritten _ _ | .sessionsRevoked _ => .inside
  | .returned => .succeeded
  | .raised _ => .failed

def Call.phase : Call rt → Phase
  | .refresh _ stage => stage.phase
  | .confirm _ _ stage => stage.phase

/-- What a call presents; a text that is no token of the service is nothing. -/
def Call.key : Call rt → Option Credential
  | .refresh token _ => (rt.tokens.payload token).map fun claims => .session claims.tokenId
  | .confirm token _ _ => some (.reset (rt.hashResetToken token))

/-- The row that a refresh read is still there. -/
def Call.RowThere (db : Database) : Call rt → Prop
  | .refresh _ (.recordRead found) | .refresh _ (.userRead found _) =>
      db.refreshSessions.find? found.record.jti ≠ none
  | _ => True

/-- What a step of a call does. -/
structure Advances (call call' : Call rt) (db db' : Database) : Prop where
  key : call'.key = call.key
  enters : call'.phase = .inside → call.phase = .inside ∨ call.phase = .before ∧ ¬ UsedUp db call.key
  spends : call'.phase = .spent → call.phase = .spent ∨ call.phase = .inside ∧ UsedUp db' call.key
  succeeds : call'.phase = .succeeded →
    call.phase = .succeeded ∨ call.phase = .spent ∨ call.phase = .inside ∧ UsedUp db' call.key
  stays : ∀ k, UsedUp db k → UsedUp db' k ∨ call.phase = .spent ∧ call'.phase = .failed ∧ call.key = k
  rows : ∀ jti, db.refreshSessions.find? jti ≠ none → db'.refreshSessions.find? jti ≠ none
  there : call'.RowThere db'

variable {call call' : Call rt} {db db' : Database}

theorem Advances.of_keeps (hkey : call'.key = call.key)
    (hphase : call'.phase = call.phase ∨ call'.phase = .failed) (hkeeps : Keeps db db')
    (hthere : call'.RowThere db') : Advances call call' db db' := by
  have hwas : ∀ p, p ≠ .failed → call'.phase = p → call.phase = p := by
    intro p hp hp'
    rcases hphase with hsame | hfailed
    · rw [← hsame, hp']
    · exact absurd (hp'.symm.trans hfailed) hp
  exact {
    key := hkey
    enters := fun h => .inl (hwas _ (by decide) h)
    spends := fun h => .inl (hwas _ (by decide) h)
    succeeds := fun h => .inl (hwas _ (by decide) h)
    stays := fun k hused => .inl (hkeeps.used k hused)
    rows := hkeeps.rows
    there := hthere }

variable {o : Occasion}

theorem FoundSession.key {token : Token} (found : FoundSession rt token) (stage : RefreshStage rt token) :
    (Call.refresh token stage).key = some (.session found.record.jti) := by
  rw [Call.key, found.payload, found.jti]
  rfl

theorem FoundReset.key {token : String} (found : FoundReset rt token) (newPassword : String)
    (stage : ConfirmStage rt token) :
    (Call.confirm token newPassword stage).key = some (.reset found.record.tokenHash) := by
  rw [Call.key, found.hash]

theorem not_usedUp_of_refreshRecord {token : Token} {stage : RefreshStage rt token}
    {found : TokenClaims × RefreshSession} (h : refreshRecord rt o token db = .ok found) :
    ¬ UsedUp db (Call.refresh token stage).key := by
  obtain ⟨-, hfind, hunrevoked, -⟩ := refreshRecord_eq_ok.mp h
  rw [(foundSession h).key, (foundSession h).jti]
  rintro ⟨record, hrecord, hrevoked⟩
  obtain rfl := Option.some.inj (hfind.symm.trans hrecord)
  exact hrevoked hunrevoked

theorem not_usedUp_of_resetRecord {token newPassword : String} {stage : ConfirmStage rt token}
    {record : PasswordResetToken} (h : resetRecord rt o token db = .ok record) :
    ¬ UsedUp db (Call.confirm token newPassword stage).key := by
  obtain ⟨hfind, hunused, -⟩ := resetRecord_eq_ok.mp h
  rintro ⟨other, hother, hused⟩
  obtain rfl := Option.some.inj (hfind.symm.trans hother)
  exact hused hunused

theorem issuePair_keeps {user : User} {pair : TokenPair Token}
    (h : issuePair rt o user db = .ok (pair, db')) : Keeps db db' := by
  obtain ⟨claims, -, h⟩ := bind_eq_ok.mp h
  obtain ⟨added, hadd, h⟩ := bind_eq_ok.mp h
  have hkeeps := keeps_addSession hadd
  cases h
  exact hkeeps

theorem advanceRefresh_spec {token : Token} (stage : RefreshStage rt token)
    (hthere : (Call.refresh token stage).RowThere db) :
    Advances (.refresh token stage) (.refresh token (advanceRefresh rt o stage db).1) db
      (advanceRefresh rt o stage db).2 := by
  cases stage with
  | presented =>
    show Advances _ (.refresh token (readSession rt o token db)) db db
    rcases readSession_cases rt o token db with ⟨error, -, hread⟩ | ⟨found, hrecord, hread⟩
    · rw [hread]
      exact Advances.of_keeps rfl (.inr rfl) (Keeps.refl db) trivial
    · rw [hread]
      obtain ⟨-, hfind, -⟩ := refreshRecord_eq_ok.mp hrecord
      exact {
        key := rfl
        enters := fun _ => .inr ⟨rfl, not_usedUp_of_refreshRecord hrecord⟩
        spends := fun h => by cases h
        succeeds := fun h => by cases h
        stays := fun k hused => .inl hused
        rows := fun _ hrow => hrow
        there := by
          show db.refreshSessions.find? (foundSession hrecord).record.jti ≠ none
          rw [(foundSession hrecord).jti]
          exact Option.ne_none_iff_exists'.mpr ⟨_, hfind⟩ }
  | recordRead found =>
    unfold advanceRefresh
    dsimp only
    split
    · exact Advances.of_keeps rfl (.inr rfl) (Keeps.refl db) trivial
    · exact Advances.of_keeps rfl (.inl rfl) (Keeps.refl db) hthere
  | userRead found user =>
    have hused : UsedUp (db.revoke o.now found.record.jti).2 (Call.refresh token (.userRead found user)).key := by
      rw [found.key]
      exact usedUp_revoke hthere
    exact {
      key := rfl
      enters := fun h => by cases h
      spends := fun _ => .inr ⟨rfl, hused⟩
      succeeds := fun h => by cases h
      stays := fun k hwas => .inl (keeps_revoke.used k hwas)
      rows := keeps_revoke.rows
      there := trivial }
  | revoked found user matched =>
    unfold advanceRefresh
    dsimp only
    split
    · cases matched with
      | false => exact Advances.of_keeps rfl (.inr rfl) (Keeps.refl db) trivial
      | true =>
        obtain ⟨hrows, hothers⟩ := unrevoke_keeps db found.record.jti
        exact {
          key := rfl
          enters := fun h => by cases h
          spends := fun h => by cases h
          succeeds := fun h => by cases h
          stays := fun k hwas => by
            by_cases hk : k = some (.session found.record.jti)
            · exact .inr ⟨rfl, rfl, (found.key _).trans hk.symm⟩
            · exact .inl (hothers k hwas hk)
          rows := hrows
          there := trivial }
    · rename_i pair added hpair
      have hkeeps := issuePair_keeps hpair
      exact {
        key := rfl
        enters := fun h => by cases h
        spends := fun h => by cases h
        succeeds := fun _ => .inr (.inl rfl)
        stays := fun k hwas => .inl (hkeeps.used k hwas)
        rows := hkeeps.rows
        there := trivial }
  | returned user pair => exact Advances.of_keeps rfl (.inl rfl) (Keeps.refl db) trivial
  | raised error => exact Advances.of_keeps rfl (.inl rfl) (Keeps.refl db) trivial

theorem keeps_flushUser {loaded changed : User} : Keeps db (db.flushUser loaded changed) where
  rows _ h := h
  used
    | some (.session _), h => h
    | some (.reset _), h => h

theorem advanceConfirm_spec {token : String} (newPassword : String) (stage : ConfirmStage rt token) :
    Advances (.confirm token newPassword stage)
      (.confirm token newPassword (advanceConfirm rt o newPassword stage db).1) db
      (advanceConfirm rt o newPassword stage db).2 := by
  cases stage with
  | presented =>
    unfold advanceConfirm
    dsimp only
    split
    · exact Advances.of_keeps rfl (.inr rfl) (Keeps.refl db) trivial
    · rcases readReset_cases rt o token db with ⟨error, -, hread⟩ | ⟨record, hrecord, hread⟩
      · rw [hread]
        exact Advances.of_keeps rfl (.inr rfl) (Keeps.refl db) trivial
      · rw [hread]
        exact {
          key := rfl
          enters := fun _ => .inr ⟨rfl, not_usedUp_of_resetRecord hrecord⟩
          spends := fun h => by cases h
          succeeds := fun h => by cases h
          stays := fun k hused => .inl hused
          rows := fun _ hrow => hrow
          there := trivial }
  | recordRead found =>
    unfold advanceConfirm
    dsimp only
    split
    · exact Advances.of_keeps rfl (.inr rfl) (Keeps.refl db) trivial
    · exact Advances.of_keeps rfl (.inl rfl) (Keeps.refl db) trivial
  | userRead found user =>
    unfold advanceConfirm
    dsimp only
    split
    · exact Advances.of_keeps rfl (.inr rfl) (Keeps.refl db) trivial
    · exact Advances.of_keeps rfl (.inl rfl) keeps_flushUser trivial
  | userWritten found user => exact Advances.of_keeps rfl (.inl rfl) keeps_revokeForUser trivial
  | sessionsRevoked found =>
    unfold advanceConfirm
    dsimp only
    split
    · exact Advances.of_keeps rfl (.inr rfl) (Keeps.refl db) trivial
    · rename_i marked hmarked
      obtain ⟨hkeeps, hused⟩ := keeps_markUsed hmarked
      exact {
        key := rfl
        enters := fun h => by cases h
        spends := fun h => by cases h
        succeeds := fun _ => .inr (.inr ⟨rfl, by rw [found.key]; exact hused⟩)
        stays := fun k hwas => .inl (hkeeps.used k hwas)
        rows := hkeeps.rows
        there := trivial }
  | returned => exact Advances.of_keeps rfl (.inl rfl) (Keeps.refl db) trivial
  | raised error => exact Advances.of_keeps rfl (.inl rfl) (Keeps.refl db) trivial

theorem advance_spec (call : Call rt) (hthere : call.RowThere db) :
    Advances call (advance rt o call db).1 db (advance rt o call db).2 := by
  cases call with
  | refresh token stage => exact advanceRefresh_spec stage hthere
  | confirm token newPassword stage => exact advanceConfirm_spec newPassword stage

end Parties

/-! ### Interleavings -/

section Interleavings

variable {Token ι : Type} [DecidableEq ι] (rt : AuthRuntime Token)

structure State (ι : Type) where
  db : Database
  calls : ι → Call rt

/-- The call that takes its next step, and the clock and the draws of it. -/
structure Turn (ι : Type) where
  party : ι
  occasion : Occasion

def next (s : State rt ι) (turn : Turn ι) : State rt ι where
  db := (advance rt turn.occasion (s.calls turn.party) s.db).2
  calls := Function.update s.calls turn.party (advance rt turn.occasion (s.calls turn.party) s.db).1

/-- The calls, which use up what they present. -/
def calls : System (State rt ι) ι (Option Credential) where
  phase s i := (s.calls i).phase
  key s i := (s.calls i).key
  dead s k := UsedUp s.db k

/-- If the step is the read of a token's row that finds it valid, no other call that presents
    the token is between its own read and the write that uses the token up. -/
def ReadsAlone (s : State rt ι) (turn : Turn ι) : Prop := Alone (calls rt) turn.party s (next rt s turn)

/-- No two calls succeed with one token. -/
def SingleUse (s : State rt ι) : Prop := AtMostOnce (calls rt) s

def RowsThere (s : State rt ι) : Prop := ∀ i, (s.calls i).RowThere s.db

variable {rt}

theorem rowThere_mono {call : Call rt} {db db' : Database} (h : call.RowThere db)
    (hrows : ∀ jti, db.refreshSessions.find? jti ≠ none → db'.refreshSessions.find? jti ≠ none) :
    call.RowThere db' := by
  unfold Call.RowThere at *
  split
  · exact hrows _ h
  · exact hrows _ h
  · trivial

theorem step_next (s : State rt ι) (turn : Turn ι) (hthere : RowsThere rt s) :
    Step (calls rt) turn.party s (next rt s turn) ∧ RowsThere rt (next rt s turn) := by
  have hspec := advance_spec (o := turn.occasion) (s.calls turn.party) (hthere turn.party)
  have hself : (next rt s turn).calls turn.party = (advance rt turn.occasion (s.calls turn.party) s.db).1 :=
    Function.update_self ..
  have hother : ∀ j, j ≠ turn.party → (next rt s turn).calls j = s.calls j := fun j hj =>
    Function.update_of_ne hj ..
  constructor
  · constructor
    · intro j hj
      exact congrArg Call.phase (hother j hj)
    · intro j
      by_cases hj : j = turn.party
      · rw [hj]
        exact (congrArg Call.key hself).trans hspec.key
      · exact congrArg Call.key (hother j hj)
    · intro h
      exact hspec.enters ((congrArg Call.phase hself).symm.trans h)
    · intro h
      exact hspec.spends ((congrArg Call.phase hself).symm.trans h)
    · intro h
      exact hspec.succeeds ((congrArg Call.phase hself).symm.trans h)
    · intro k hused
      rcases hspec.stays k hused with hstill | ⟨hspent, hfailed, hkey⟩
      · exact .inl hstill
      · exact .inr ⟨hspent, (congrArg Call.phase hself).trans hfailed, hkey⟩
  · intro j
    by_cases hj : j = turn.party
    · rw [hj, hself]
      exact hspec.there
    · rw [hother j hj]
      exact rowThere_mono (hthere j) hspec.rows

/-- Calls that have not begun, on any rows. -/
def Begins (s : State rt ι) : Prop := ∀ i, (s.calls i).phase = .before

/-- In every interleaving whose reads are made alone, each token is used once. -/
theorem singleUse_of_readsAlone {s : State rt ι} (hs : Begins s) {run : List (Turn ι)}
    (hrun : Throughout (next rt) (ReadsAlone rt) s run) : ∀ s' ∈ states (next rt) s run, SingleUse rt s' := by
  have hthere : RowsThere rt s := by
    intro i
    have hbefore := hs i
    unfold Call.RowThere
    split
    · rename_i hcall
      rw [hcall] at hbefore
      cases hbefore
    · rename_i hcall
      rw [hcall] at hbefore
      cases hbefore
    · trivial
  exact atMostOnce_of_alone (fun s turn hkept => step_next s turn hkept) (exclusive_of_before hs) hthere hrun

end Interleavings

/-! ### A call on its own -/

section Alone

variable {Token : Type} {rt : AuthRuntime Token} {o : Occasion} {db db' : Database}

/-- Some steps of a refresh, one after the other. -/
def refreshSteps (rt : AuthRuntime Token) (o : Occasion) {token : Token} :
    Nat → RefreshStage rt token × Database → RefreshStage rt token × Database
  | 0, s => s
  | n + 1, s => refreshSteps rt o n (advanceRefresh rt o s.1 s.2)

def confirmSteps (rt : AuthRuntime Token) (o : Occasion) (newPassword : String) {token : String} :
    Nat → ConfirmStage rt token × Database → ConfirmStage rt token × Database
  | 0, s => s
  | n + 1, s => confirmSteps rt o newPassword n (advanceConfirm rt o newPassword s.1 s.2)

theorem refreshSteps_raised {token : Token} (error : Raised) (n : Nat) :
    refreshSteps rt o n ((.raised error : RefreshStage rt token), db) = (.raised error, db) := by
  induction n with
  | zero => rfl
  | succ n ih => exact ih

theorem confirmSteps_raised {token newPassword : String} (error : Raised) (n : Nat) :
    confirmSteps rt o newPassword n ((.raised error : ConfirmStage rt token), db) = (.raised error, db) := by
  induction n with
  | zero => rfl
  | succ n ih => exact ih

theorem refreshSteps_eq_iff {token : Token} {user : User} {pair : TokenPair Token} :
    refreshSteps rt o 4 ((.presented : RefreshStage rt token), db) = (.returned user pair, db') ↔
      refresh rt o token db = .ok ((user, pair), db') := by
  have hfirst : refreshSteps rt o 4 ((.presented : RefreshStage rt token), db) =
      refreshSteps rt o 3 (readSession rt o token db, db) := rfl
  rw [hfirst, refresh_eq_ok]
  rcases readSession_cases rt o token db with ⟨error, hrecord, hread⟩ | ⟨found, hrecord, hread⟩
  · rw [hread, refreshSteps_raised, hrecord]
    exact iff_of_false (fun h => by cases h) (fun ⟨_, _, h, _⟩ => by cases h)
  · have hsecond : refreshSteps rt o 3 (.recordRead (foundSession hrecord), db) =
        refreshSteps rt o 2 (match refreshUser found.1 db with
          | .error error => (.raised error, db)
          | .ok user => (.userRead (foundSession hrecord) user, db)) := rfl
    rw [hread, hsecond, hrecord]
    cases huser : refreshUser found.1 db with
    | error error =>
      dsimp only
      rw [refreshSteps_raised]
      refine iff_of_false (fun h => by cases h) ?_
      rintro ⟨claims, record, hfound, hok, -⟩
      cases hfound
      rw [huser] at hok
      cases hok
    | ok other =>
      have hthird : refreshSteps rt o 2 (.userRead (foundSession hrecord) other, db) =
          advanceRefresh rt o (.revoked (foundSession hrecord) other (db.revoke o.now found.2.jti).1)
            (db.revoke o.now found.2.jti).2 := rfl
      dsimp only
      rw [hthird]
      unfold advanceRefresh
      dsimp only
      constructor
      · intro h
        split at h
        · cases h
        · rename_i issued _ hpair
          cases h
          exact ⟨found.1, found.2, rfl, huser, hpair⟩
      · rintro ⟨claims, record, hfound, hok, hpair⟩
        cases hfound
        obtain rfl := Except.ok.inj (huser.symm.trans hok)
        rw [hpair]

theorem confirmSteps_eq_iff {token newPassword : String} :
    confirmSteps rt o newPassword 5 ((.presented : ConfirmStage rt token), db) = (.returned, db') ↔
      confirmPasswordReset rt o token newPassword db = .ok db' := by
  have hfirst : confirmSteps rt o newPassword 5 ((.presented : ConfirmStage rt token), db) =
      confirmSteps rt o newPassword 4 (match validatePassword newPassword with
        | .error error => (.raised error, db)
        | .ok () => (readReset rt o token db, db)) := rfl
  rw [hfirst, confirmPasswordReset_eq_ok]
  cases validatePassword newPassword with
  | error error =>
    dsimp only
    rw [confirmSteps_raised]
    exact iff_of_false (fun h => by cases h) (fun ⟨h, _⟩ => by cases h)
  | ok valid =>
    dsimp only
    rcases readReset_cases rt o token db with ⟨error, hrecord, hread⟩ | ⟨record, hrecord, hread⟩
    · rw [hread, confirmSteps_raised, hrecord]
      exact iff_of_false (fun h => by cases h) (fun ⟨_, _, _, _, h, _⟩ => by cases h)
    · have hsecond : confirmSteps rt o newPassword 4 (.recordRead (foundReset hrecord), db) =
          confirmSteps rt o newPassword 3 (match resetUser record db with
            | .error error => (.raised error, db)
            | .ok user => (.userRead (foundReset hrecord) user, db)) := rfl
      rw [hread, hsecond, hrecord]
      cases huser : resetUser record db with
      | error error =>
        dsimp only
        rw [confirmSteps_raised]
        refine iff_of_false (fun h => by cases h) ?_
        rintro ⟨-, found, user, passwordHash, hfound, hok, -⟩
        cases hfound
        rw [huser] at hok
        cases hok
      | ok user =>
        have hthird : confirmSteps rt o newPassword 3 (.userRead (foundReset hrecord) user, db) =
            confirmSteps rt o newPassword 2 (match hashPassword rt o newPassword with
              | .error error => (.raised error, db)
              | .ok passwordHash => (.userWritten (foundReset hrecord) user,
                  db.flushUser user (passwordReset passwordHash record user))) := rfl
        dsimp only
        rw [hthird]
        cases hhash : hashPassword rt o newPassword with
        | error error =>
          dsimp only
          rw [confirmSteps_raised]
          exact iff_of_false (fun h => by cases h) (fun ⟨_, _, _, _, _, _, h, _⟩ => by cases h)
        | ok passwordHash =>
          have hfourth : confirmSteps rt o newPassword 2 (.userWritten (foundReset hrecord) user,
                db.flushUser user (passwordReset passwordHash record user)) =
              advanceConfirm rt o newPassword (.sessionsRevoked (foundReset hrecord))
                ((db.flushUser user (passwordReset passwordHash record user)).revokeForUser o.now user.id) := rfl
          dsimp only
          rw [hfourth]
          unfold advanceConfirm
          dsimp only
          constructor
          · intro h
            split at h
            · cases h
            · rename_i marked hmarked
              cases h
              exact ⟨rfl, record, user, passwordHash, rfl, huser, rfl, hmarked⟩
          · rintro ⟨-, found, other, otherHash, hfound, hok, hsame, hmarked⟩
            cases hfound
            cases hsame
            obtain rfl := Except.ok.inj (huser.symm.trans hok)
            have hmarked' : (foundReset hrecord).record.tokenHash = record.tokenHash := rfl
            rw [hmarked', hmarked]

end Alone

/-! ### Two calls in turn -/

/-- A session of alice, and a reset token of hers. -/
def aliceRows : Database where
  users := onlyAlice
  refreshSessions := ⟨[{ jti := "r", userId := "1", expiresAt := seconds 3600, revokedAt := none }], by simp⟩
  passwordResetTokens :=
    ⟨[{ tokenHash := "t", userId := "1", expiresAt := seconds 1800, usedAt := none, mustChangeOnUse := false }],
      by simp⟩

/-- The refresh token of the session. -/
def aliceRefresh : TokenClaims where
  subject := "1"
  tokenType := .refresh
  tokenId := "r"
  tokenVersion := 0
  issuedAt := 0
  expiresAt := seconds 3600

/-- Two calls of a kind take their steps in turn, five each. -/
def inTurn : List (Turn Bool) :=
  [0, 1, 2, 3, 4].flatMap fun (_ : Nat) => [false, true].map fun party =>
    { party := party
      occasion :=
        { now := 0, salt := 0, accessJti := "a", refreshJti := if party then "r2" else "r1", resetToken := "" } }

/-- Both refreshes return a pair, and both confirmations set a password. -/
theorem both_calls_succeed :
    (¬ ∀ s' ∈ states (next plainRuntime)
      { db := aliceRows, calls := fun _ => .refresh aliceRefresh .presented } inTurn, SingleUse plainRuntime s') ∧
    ¬ ∀ s' ∈ states (next plainRuntime)
      { db := aliceRows, calls := fun _ => .confirm "t" "a new password" .presented } inTurn,
      SingleUse plainRuntime s' := by
  constructor
  · intro hall
    have hfinal := hall _ ((mem_states _).mpr ⟨inTurn, [], (List.append_nil _).symm, rfl⟩)
    exact absurd (hfinal false true rfl rfl rfl) (by decide)
  · intro hall
    have hfinal := hall _ ((mem_states _).mpr ⟨inTurn, [], (List.append_nil _).symm, rfl⟩)
    exact absurd (hfinal false true rfl rfl rfl) (by decide)

instance (s : State plainRuntime Bool) (turn : Turn Bool) : Decidable (ReadsAlone plainRuntime s turn) :=
  inferInstanceAs (Decidable (Alone (calls plainRuntime) turn.party s (next plainRuntime s turn)))

/-- The same calls, one after the other. -/
def oneByOne : List (Turn Bool) := inTurn.filter (fun turn => !turn.party) ++ inTurn.filter (·.party)

theorem singleUse_of_readsAlone_oneByOne : ∃ s : State plainRuntime Bool, Begins s ∧
    Throughout (next plainRuntime) (ReadsAlone plainRuntime) s oneByOne ∧
    ∀ s' ∈ states (next plainRuntime) s oneByOne, SingleUse plainRuntime s' := by
  have hrun : Throughout (next plainRuntime) (ReadsAlone plainRuntime)
      { db := aliceRows, calls := fun _ => .refresh aliceRefresh .presented } oneByOne := by decide
  exact ⟨_, fun _ => rfl, hrun, singleUse_of_readsAlone (fun _ => rfl) hrun⟩

end TokenRaces
