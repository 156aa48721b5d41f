/-
Saasmint/Users/Sessions.lean

The sessions of an account (RefreshView, LogoutView, LoginView,
ResetPasswordView and ChangePasswordView of apps/users/auth_views.py), each
request as its statements, any number of them interleaved.

A login, a reset and a change open a session with a refresh token of its own; a
rotation puts a new token in the place of the one that is presented.  Next to
the tables the state keeps a history that no request reads: which token has
followed which, which session a token belongs to, and a clock of steps.
`sessionAct_cases` says once what a step can do.
-/
import Mathlib.Logic.Relation
import Saasmint.Lib.Interleaving
import Saasmint.Users.Authentication

namespace Saasmint

variable {ι : Type*}

/-- A session: the request that opened it, when that request had checked its
credentials, and when it stored the first token. -/
structure Session (ι : Type*) where
  opener : Option ι
  checkedAt : Nat
  storedAt : Nat

/-- The tables with their history. -/
structure SessionDb (ι : Type*) where
  tables : AuthTables
  /-- Each rotation, with the old token and the new one. -/
  successors : List (Token × Token)
  sessionOf : Token → Session ι
  clock : Nat

/-- One token has followed another. -/
def SessionDb.Follows (db : SessionDb ι) (old new : Token) : Prop := (old, new) ∈ db.successors

/-- The token is in the chain of `root`. -/
def SessionDb.Chain (db : SessionDb ι) (root token : Token) : Prop :=
  Relation.ReflTransGen db.Follows root token

inductive SessionRequest
  | refresh (token : Token)
  | logout (token : Token)
  | login (email password : String)
  | resetPassword (token : Token) (password : String)
  /-- `user` is the one of the access token. -/
  | changePassword (user : UUID) (currentPassword newPassword : String)
  deriving DecidableEq, Repr

/-- Where a request is, with what it has read. -/
inductive SessionCall
  | start
  /-- A rotation has found its token live, or revoked. -/
  | checked (rt : RefreshToken)
  | reused (user : UUID)
  /-- A rotation has revoked its token. -/
  | rotated (rt : RefreshToken)
  /-- A reset has found its one-time token. -/
  | found (row : OneTimeToken) (user : Account)
  /-- The credentials of a login, a reset or a change are good. -/
  | authenticated (user : Account) (checkedAt : Nat)
  /-- A reset or a change has saved the password, and then revoked the tokens. -/
  | changed (user : Account) (checkedAt savedAt : Nat)
  | revoked (user : Account) (checkedAt savedAt : Nat)
  | refreshed (token : Token)
  | loggedIn (token : Token)
  | completed (user : Account) (savedAt : Nat) (token : Token)
  | loggedOut
  | failed (e : AuthError)
  deriving DecidableEq, Repr

/-- What a step gets from outside: the time, and the snapshot of the user in the
cache, where there is one. -/
structure SessionInput where
  now : Timestamp
  cached : Option Account

namespace SessionDb

variable (db : SessionDb ι)

/-- A statement that changes the tables. -/
def write (tables : AuthTables) : SessionDb ι := { db with tables, clock := db.clock + 1 }

/-- A statement that only reads. -/
def tick : SessionDb ι := { db with clock := db.clock + 1 }

/-- The INSERT of a rotation. -/
def insertSuccessor (rt : RefreshToken) (now : Timestamp) : SessionDb ι where
  tables := db.tables.createRefreshToken rt.user now
  successors := db.successors ++ [(rt.token, db.tables.nextToken)]
  sessionOf := Function.update db.sessionOf db.tables.nextToken (db.sessionOf rt.token)
  clock := db.clock + 1

/-- The INSERT that opens a session. -/
def insertFirst (i : ι) (user : UUID) (checkedAt : Nat) (now : Timestamp) : SessionDb ι where
  tables := db.tables.createRefreshToken user now
  successors := db.successors
  sessionOf := Function.update db.sessionOf db.tables.nextToken ⟨some i, checkedAt, db.clock⟩
  clock := db.clock + 1

end SessionDb

namespace AuthTables

variable (t : AuthTables)

/-- The SELECT of `rotate_refresh_token` and the checks on what it finds. -/
def checkRefreshToken (token : Token) (now : Timestamp) : SessionCall :=
  match t.refreshToken token with
  | none => .failed .invalidToken
  | some rt =>
    if rt.revokedAt.isSome then .reused rt.user
    else if rt.expiresAt ≤ now then .failed .tokenExpired
    else match t.account rt.user with
      | some user => if user.isActive then .checked rt else .failed .userNotFound
      | none => .failed .invalidToken

/-- `authenticate` with an email and a password, and the checks of LoginView. -/
def authenticate (email password : String) (clock : Nat) : SessionCall :=
  match t.accounts.find? fun a => a.email = email with
  | none => .failed .invalidCredentials
  | some user =>
    if user.checkPassword password && user.isActive && user.isVerified then
      .authenticated user clock
    else .failed .invalidCredentials

/-- The SELECT of `_consume_one_time_token` and the checks on what it finds. -/
def checkResetToken (token : Token) (now : Timestamp) : SessionCall :=
  match t.resetTokens.find? fun r => r.token = token with
  | none => .failed .invalidToken
  | some row =>
    match row.check now, t.account row.user with
    | .ok (), some user => .found row user
    | .error e, _ => .failed e
    | _, none => .failed .invalidToken

/-- The user of the access token, and `check_password`. -/
def checkCurrentPassword (user : UUID) (password : String) (cached : Option Account)
    (clock : Nat) : SessionCall :=
  match (cached.filter fun a => a.id = user).or ((t.account user).filter Account.isActive) with
  | none => .failed .userNotFound
  | some a => if a.checkPassword password then .authenticated a clock else .failed .invalidPassword

/-- The UPDATE that consumes a reset token, and the check of `is_active`. -/
def consumeResetToken (row : OneTimeToken) (user : Account) (now : Timestamp) (clock : Nat) :
    AuthTables × SessionCall :=
  match consume t.resetTokens row.token now with
  | none => (t, .failed .tokenUsed)
  | some rows => ({ t with resetTokens := rows },
      if user.isActive then .authenticated user clock else .failed .userNotFound)

/-- The save of a new password; a reset also verifies the account. -/
def savePassword (user : Account) (password : String) (verify : Bool) (now : Timestamp) :
    AuthTables :=
  t.saveAccount user.id fun a =>
    { a with password := some password, passwordChangedAt := some now,
             isVerified := a.isVerified || verify && !user.isVerified }

end AuthTables

/-- A step of the request `i`. -/
def sessionAct (requests : ι → SessionRequest) (i : ι) (db : SessionDb ι) (κ : SessionCall)
    (input : SessionInput) : Option (SessionDb ι × SessionCall) :=
  let t := db.tables
  let now := input.now
  match requests i, κ with
  | .refresh token, .start => some (db.tick, t.checkRefreshToken token now)
  | .refresh _, .reused user =>
    some (db.write (t.revokeAllRefreshTokens user now), .failed .tokenRevoked)
  | .refresh _, .checked rt => some (db.write (t.saveRevokedAt rt.token now), .rotated rt)
  | .refresh _, .rotated rt => some (db.insertSuccessor rt now, .refreshed t.nextToken)
  | .logout token, .start => some (db.write (t.revokeRefreshToken token now), .loggedOut)
  | .login email password, .start => some (db.tick, t.authenticate email password db.clock)
  | .login _ _, .authenticated user checkedAt =>
    some (db.insertFirst i user.id checkedAt now, .loggedIn t.nextToken)
  | .resetPassword token _, .start => some (db.tick, t.checkResetToken token now)
  | .resetPassword _ _, .found row user =>
    let (t', κ') := t.consumeResetToken row user now db.clock
    some (db.write t', κ')
  | .resetPassword _ password, .authenticated user checkedAt =>
    some (db.write (t.savePassword user password true now), .changed user checkedAt db.clock)
  | .changePassword user current _, .start =>
    some (db.tick, t.checkCurrentPassword user current input.cached db.clock)
  | .changePassword _ _ password, .authenticated user checkedAt =>
    some (db.write (t.savePassword user password false now), .changed user checkedAt db.clock)
  | .resetPassword _ _, .changed user checkedAt savedAt
  | .changePassword _ _ _, .changed user checkedAt savedAt =>
    some (db.write (t.revokeAllRefreshTokens user.id now), .revoked user checkedAt savedAt)
  | .resetPassword _ _, .revoked user checkedAt savedAt
  | .changePassword _ _ _, .revoked user checkedAt savedAt =>
    some (db.insertFirst i user.id checkedAt now, .completed user savedAt t.nextToken)
  | _, _ => none

abbrev SessionSystem (ι : Type*) := Interleaving.State ι (SessionDb ι) SessionCall

/-- The tables before any request; what sessions there are, are from before. -/
def SessionDb.init (ι : Type*) (tables : AuthTables) : SessionDb ι :=
  ⟨tables, [], fun _ => ⟨none, 0, 0⟩, 1⟩

def sessionInit (ι : Type*) (tables : AuthTables) : SessionSystem ι :=
  ⟨.init ι tables, fun _ => .start⟩

/-! ### What a step can do -/

/-- A step that leaves the refresh tokens and their history. -/
structure SessionDb.SameTokens (db db' : SessionDb ι) : Prop where
  refreshTokens : db'.tables.refreshTokens = db.tables.refreshTokens
  nextToken : db'.tables.nextToken = db.tables.nextToken
  successors : db'.successors = db.successors
  sessionOf : db'.sessionOf = db.sessionOf
  clock : db'.clock = db.clock + 1

/-- The request holds no refresh token and has no credentials checked. -/
def SessionCall.Quiet : SessionCall → Bool
  | reused _ | found _ _ | loggedOut | failed _ => true
  | _ => false

/-- The steps, by what they do to the refresh tokens. -/
inductive SessionStep (i : ι) (r : SessionRequest) (db db' : SessionDb ι) (κ κ' : SessionCall) :
    Prop
  | read (hdb : db.SameTokens db') (hκ' : κ'.Quiet = true)
  | check (rt : RefreshToken) (hr : r = .refresh rt.token) (hrt : rt ∈ db.tables.refreshTokens)
      (hlive : rt.revokedAt = none) (hdb : db.SameTokens db') (hκ' : κ' = .checked rt)
  | authenticate (user : Account) (hdb : db.SameTokens db')
      (hκ' : κ' = .authenticated user db.clock)
  | revoke (p : RefreshToken → Bool) (now : Timestamp)
      (hdb : db' = db.write (db.tables.revokeWhere p now)) (hκ' : κ'.Quiet = true)
  | rotate (rt : RefreshToken) (now : Timestamp) (hκ : κ = .checked rt)
      (hdb : db' = db.write (db.tables.saveRevokedAt rt.token now)) (hκ' : κ' = .rotated rt)
  | succeed (rt : RefreshToken) (now : Timestamp) (hκ : κ = .rotated rt)
      (hdb : db' = db.insertSuccessor rt now) (hκ' : κ' = .refreshed db.tables.nextToken)
  | login (user : Account) (checkedAt : Nat) (now : Timestamp)
      (hκ : κ = .authenticated user checkedAt) (hdb : db' = db.insertFirst i user.id checkedAt now)
      (hκ' : κ' = .loggedIn db.tables.nextToken)
  | save (user : Account) (checkedAt : Nat) (hκ : κ = .authenticated user checkedAt)
      (hdb : db.SameTokens db') (hκ' : κ' = .changed user checkedAt db.clock)
  | revokeAll (user : Account) (checkedAt savedAt : Nat) (now : Timestamp)
      (hκ : κ = .changed user checkedAt savedAt)
      (hdb : db' = db.write (db.tables.revokeAllRefreshTokens user.id now))
      (hκ' : κ' = .revoked user checkedAt savedAt)
  | complete (user : Account) (checkedAt savedAt : Nat) (now : Timestamp)
      (hκ : κ = .revoked user checkedAt savedAt)
      (hdb : db' = db.insertFirst i user.id checkedAt now)
      (hκ' : κ' = .completed user savedAt db.tables.nextToken)

variable {db db' : SessionDb ι}

theorem SessionDb.sameTokens_tick (db : SessionDb ι) : db.SameTokens db.tick :=
  ⟨rfl, rfl, rfl, rfl, rfl⟩

/-- What the SELECT of a rotation finds. -/
theorem checkRefreshToken_cases (t : AuthTables) (token : Token) (now : Timestamp) :
    (t.checkRefreshToken token now).Quiet = true ∨
      ∃ rt ∈ t.refreshTokens, rt.token = token ∧ rt.revokedAt = none ∧
        t.checkRefreshToken token now = .checked rt := by
  unfold AuthTables.checkRefreshToken
  split
  · exact Or.inl rfl
  · rename_i rt hfind
    obtain ⟨hrt, htoken⟩ := AuthTables.refreshToken_eq_some hfind
    split
    · exact Or.inl rfl
    · rename_i hlive
      split
      · exact Or.inl rfl
      · split
        · split
          · exact Or.inr ⟨rt, hrt, htoken, by simpa using hlive, rfl⟩
          · exact Or.inl rfl
        · exact Or.inl rfl

theorem authenticate_cases (t : AuthTables) (email password : String) (clock : Nat) :
    (t.authenticate email password clock).Quiet = true ∨
      ∃ user, t.authenticate email password clock = .authenticated user clock := by
  unfold AuthTables.authenticate
  split
  · exact Or.inl rfl
  · split
    · exact Or.inr ⟨_, rfl⟩
    · exact Or.inl rfl

theorem checkResetToken_quiet (t : AuthTables) (token : Token) (now : Timestamp) :
    (t.checkResetToken token now).Quiet = true := by
  unfold AuthTables.checkResetToken
  split
  · rfl
  · split <;> rfl

theorem checkCurrentPassword_cases (t : AuthTables) (user : UUID) (password : String)
    (cached : Option Account) (clock : Nat) :
    (t.checkCurrentPassword user password cached clock).Quiet = true ∨
      ∃ a, t.checkCurrentPassword user password cached clock = .authenticated a clock := by
  unfold AuthTables.checkCurrentPassword
  split
  · exact Or.inl rfl
  · split
    · exact Or.inr ⟨_, rfl⟩
    · exact Or.inl rfl

/-- A reset token is consumed without a change of the refresh tokens. -/
theorem consumeResetToken_cases (db : SessionDb ι) (row : OneTimeToken) (user : Account)
    (now : Timestamp) :
    let x := db.tables.consumeResetToken row user now db.clock
    db.SameTokens (db.write x.1) ∧ (x.2.Quiet = true ∨ x.2 = .authenticated user db.clock) := by
  unfold AuthTables.consumeResetToken
  split
  · exact ⟨⟨rfl, rfl, rfl, rfl, rfl⟩, Or.inl rfl⟩
  · refine ⟨⟨rfl, rfl, rfl, rfl, rfl⟩, ?_⟩
    dsimp only
    split
    · exact Or.inr rfl
    · exact Or.inl rfl

/-- What a step can do. -/
theorem sessionAct_cases {requests : ι → SessionRequest} {i : ι} {κ κ' : SessionCall}
    {input : SessionInput} (h : sessionAct requests i db κ input = some (db', κ')) :
    SessionStep i (requests i) db db' κ κ' := by
  unfold sessionAct at h
  dsimp only at h
  split at h
  · -- the SELECT of a rotation
    rename_i token hr
    obtain ⟨rfl, rfl⟩ := Prod.mk.inj (Option.some.inj h)
    rcases checkRefreshToken_cases db.tables token input.now with hq | ⟨rt, hrt, rfl, hlive, hκ'⟩
    · exact .read db.sameTokens_tick hq
    · exact .check rt hr hrt hlive db.sameTokens_tick hκ'
  · obtain ⟨rfl, rfl⟩ := Prod.mk.inj (Option.some.inj h)
    exact .revoke _ input.now rfl rfl
  · obtain ⟨rfl, rfl⟩ := Prod.mk.inj (Option.some.inj h)
    exact .rotate _ input.now rfl rfl rfl
  · obtain ⟨rfl, rfl⟩ := Prod.mk.inj (Option.some.inj h)
    exact .succeed _ input.now rfl rfl rfl
  · obtain ⟨rfl, rfl⟩ := Prod.mk.inj (Option.some.inj h)
    exact .revoke _ input.now rfl rfl
  · -- the credentials of a login
    rename_i email password hr
    obtain ⟨rfl, rfl⟩ := Prod.mk.inj (Option.some.inj h)
    rcases authenticate_cases db.tables email password db.clock with hq | ⟨user, hκ'⟩
    · exact .read db.sameTokens_tick hq
    · exact .authenticate user db.sameTokens_tick hκ'
  · obtain ⟨rfl, rfl⟩ := Prod.mk.inj (Option.some.inj h)
    exact .login _ _ input.now rfl rfl rfl
  · obtain ⟨rfl, rfl⟩ := Prod.mk.inj (Option.some.inj h)
    exact .read db.sameTokens_tick (checkResetToken_quiet _ _ _)
  · -- the reset token is consumed
    rename_i row user hr
    obtain ⟨rfl, rfl⟩ := Prod.mk.inj (Option.some.inj h)
    obtain ⟨hsame, hq | hκ'⟩ := consumeResetToken_cases db row user input.now
    · exact .read hsame hq
    · exact .authenticate user hsame hκ'
  · obtain ⟨rfl, rfl⟩ := Prod.mk.inj (Option.some.inj h)
    exact .save _ _ rfl ⟨rfl, rfl, rfl, rfl, rfl⟩ rfl
  · -- the current password of a change
    rename_i user password newPassword hr
    obtain ⟨rfl, rfl⟩ := Prod.mk.inj (Option.some.inj h)
    rcases checkCurrentPassword_cases db.tables user password input.cached db.clock
      with hq | ⟨a, hκ'⟩
    · exact .read db.sameTokens_tick hq
    · exact .authenticate a db.sameTokens_tick hκ'
  · obtain ⟨rfl, rfl⟩ := Prod.mk.inj (Option.some.inj h)
    exact .save _ _ rfl ⟨rfl, rfl, rfl, rfl, rfl⟩ rfl
  · obtain ⟨rfl, rfl⟩ := Prod.mk.inj (Option.some.inj h)
    exact .revokeAll _ _ _ input.now rfl rfl rfl
  · obtain ⟨rfl, rfl⟩ := Prod.mk.inj (Option.some.inj h)
    exact .revokeAll _ _ _ input.now rfl rfl rfl
  · obtain ⟨rfl, rfl⟩ := Prod.mk.inj (Option.some.inj h)
    exact .complete _ _ _ input.now rfl rfl rfl
  · obtain ⟨rfl, rfl⟩ := Prod.mk.inj (Option.some.inj h)
    exact .complete _ _ _ input.now rfl rfl rfl
  · cases h

/-! ### The step that leads to a state of a request -/

section Inversion

variable {i : ι} {r : SessionRequest} {κ : SessionCall}

theorem SessionStep.checked {rt : RefreshToken} (h : SessionStep i r db db' κ (.checked rt)) :
    r = .refresh rt.token ∧ rt ∈ db.tables.refreshTokens ∧ rt.revokedAt = none ∧
      db.SameTokens db' := by
  cases h with
  | check rt' hr hrt hlive hdb hκ' =>
    cases hκ'
    exact ⟨hr, hrt, hlive, hdb⟩
  | read hdb hκ' | revoke _ _ hdb hκ' => cases hκ'
  | authenticate _ _ hκ' | rotate _ _ _ _ hκ' | succeed _ _ _ _ hκ' | login _ _ _ _ _ hκ'
  | save _ _ _ _ hκ' | revokeAll _ _ _ _ _ _ hκ' | complete _ _ _ _ _ _ hκ' => cases hκ'

theorem SessionStep.rotated {rt : RefreshToken} (h : SessionStep i r db db' κ (.rotated rt)) :
    κ = .checked rt ∧ ∃ now, db' = db.write (db.tables.saveRevokedAt rt.token now) := by
  cases h with
  | rotate rt' now hκ hdb hκ' =>
    cases hκ'
    exact ⟨hκ, now, hdb⟩
  | read hdb hκ' | revoke _ _ hdb hκ' => cases hκ'
  | check _ _ _ _ _ hκ' | authenticate _ _ hκ' | succeed _ _ _ _ hκ' | login _ _ _ _ _ hκ'
  | save _ _ _ _ hκ' | revokeAll _ _ _ _ _ _ hκ' | complete _ _ _ _ _ _ hκ' => cases hκ'

theorem SessionStep.refreshed {a : Token} (h : SessionStep i r db db' κ (.refreshed a)) :
    a = db.tables.nextToken ∧ ∃ rt now, κ = .rotated rt ∧ db' = db.insertSuccessor rt now := by
  cases h with
  | succeed rt now hκ hdb hκ' =>
    cases hκ'
    exact ⟨rfl, rt, now, hκ, hdb⟩
  | read hdb hκ' | revoke _ _ hdb hκ' => cases hκ'
  | check _ _ _ _ _ hκ' | authenticate _ _ hκ' | rotate _ _ _ _ hκ' | login _ _ _ _ _ hκ'
  | save _ _ _ _ hκ' | revokeAll _ _ _ _ _ _ hκ' | complete _ _ _ _ _ _ hκ' => cases hκ'

theorem SessionStep.changed {user : Account} {checkedAt savedAt : Nat}
    (h : SessionStep i r db db' κ (.changed user checkedAt savedAt)) :
    κ = .authenticated user checkedAt ∧ savedAt = db.clock := by
  cases h with
  | save user' n hκ hdb hκ' =>
    cases hκ'
    exact ⟨hκ, rfl⟩
  | read hdb hκ' | revoke _ _ hdb hκ' => cases hκ'
  | check _ _ _ _ _ hκ' | authenticate _ _ hκ' | rotate _ _ _ _ hκ' | succeed _ _ _ _ hκ'
  | login _ _ _ _ _ hκ' | revokeAll _ _ _ _ _ _ hκ' | complete _ _ _ _ _ _ hκ' => cases hκ'

/-- The history grows by the inserts of rotations. -/
theorem SessionStep.follows {κ' : SessionCall} (h : SessionStep i r db db' κ κ') :
    db'.successors = db.successors ∨
      ∃ rt, κ = .rotated rt ∧ κ' = .refreshed db.tables.nextToken ∧
        db'.successors = db.successors ++ [(rt.token, db.tables.nextToken)] := by
  cases h with
  | read hdb _ | authenticate _ hdb _ | check _ _ _ _ hdb _ | save _ _ _ hdb _ =>
    exact Or.inl hdb.successors
  | revoke _ _ hdb _ | rotate _ _ _ hdb _ | login _ _ _ _ hdb _ | revokeAll _ _ _ _ _ hdb _
  | complete _ _ _ _ _ hdb _ =>
    rw [hdb]
    exact Or.inl rfl
  | succeed rt now hκ hdb hκ' =>
    rw [hdb]
    exact Or.inr ⟨rt, hκ, hκ', rfl⟩

end Inversion

/-- The step after the checks of a rotation is its save. -/
theorem sessionAct_checked {requests : ι → SessionRequest} {i : ι} {rt : RefreshToken}
    {κ' : SessionCall} {input : SessionInput}
    (h : sessionAct requests i db (.checked rt) input = some (db', κ')) : κ' = .rotated rt := by
  unfold sessionAct at h
  rcases hr : requests i <;> rw [hr] at h <;> cases h
  rfl

/-- The step after the save is the insert. -/
theorem sessionAct_rotated {requests : ι → SessionRequest} {i : ι} {rt : RefreshToken}
    {κ' : SessionCall} {input : SessionInput}
    (h : sessionAct requests i db (.rotated rt) input = some (db', κ')) :
    κ' = .refreshed db.tables.nextToken := by
  unfold sessionAct at h
  rcases hr : requests i <;> rw [hr] at h <;> cases h
  rfl

/-- A rotation that has its successor takes no step. -/
theorem sessionAct_refreshed {requests : ι → SessionRequest} {i : ι} {a : Token}
    {input : SessionInput} : sessionAct requests i db (.refreshed a) input = none := by
  unfold sessionAct
  rcases requests i <;> rfl

/-! ### The refresh tokens over a step -/

/-- A table where the tokens are unique and the next one is new. -/
structure AuthTables.FreshTokens (t : AuthTables) : Prop where
  unique : (t.refreshTokens.map RefreshToken.token).Nodup
  new : ∀ rt ∈ t.refreshTokens, rt.token < t.nextToken

theorem AuthTables.FreshTokens.createRefreshToken {t : AuthTables} (h : t.FreshTokens) (user : UUID)
    (now : Timestamp) : (t.createRefreshToken user now).FreshTokens where
  unique := by
    show (List.map RefreshToken.token (t.refreshTokens ++ [_])).Nodup
    rw [List.map_append, List.nodup_append']
    refine ⟨h.unique, List.nodup_singleton _, fun x hx hy => ?_⟩
    obtain ⟨rt, hrt, rfl⟩ := List.mem_map.mp hx
    have hlt := h.new rt hrt
    rw [List.mem_singleton.mp hy] at hlt
    exact Nat.lt_irrefl _ hlt
  new rt hrt := by
    show rt.token < t.nextToken + 1
    rcases mem_createRefreshToken.mp hrt with hrt | rfl
    · exact Nat.lt_succ_of_lt (h.new rt hrt)
    · exact Nat.lt_succ_self _

/-- Rows that an UPDATE has changed. -/
theorem AuthTables.FreshTokens.of_map {t t' : AuthTables} (h : t.FreshTokens)
    (hmap : t'.refreshTokens.map RefreshToken.token = t.refreshTokens.map RefreshToken.token)
    (hnext : t'.nextToken = t.nextToken) : t'.FreshTokens where
  unique := by
    rw [hmap]
    exact h.unique
  new rt hrt := by
    have : rt.token ∈ t.refreshTokens.map RefreshToken.token := by
      rw [← hmap]
      exact List.mem_map_of_mem hrt
    obtain ⟨r, hr, heq⟩ := List.mem_map.mp this
    rw [hnext, ← heq]
    exact h.new r hr

variable {i : ι} {r : SessionRequest} {κ κ' : SessionCall}

/-- A row after a step was there before, or is the new one. -/
def SessionDb.RowsFrom (db db' : SessionDb ι) : Prop :=
  ∀ rt ∈ db'.tables.refreshTokens,
    (∃ r ∈ db.tables.refreshTokens, r.Later rt) ∨ rt.token = db.tables.nextToken

theorem SessionStep.tokens (h : SessionStep i r db db' κ κ') (hf : db.tables.FreshTokens) :
    db'.tables.FreshTokens ∧ db.tables.nextToken ≤ db'.tables.nextToken ∧ db.RowsFrom db' ∧
      db'.clock = db.clock + 1 := by
  have hsame : db.SameTokens db' → db'.tables.FreshTokens ∧
      db.tables.nextToken ≤ db'.tables.nextToken ∧ db.RowsFrom db' ∧ db'.clock = db.clock + 1 := by
    intro hs
    refine ⟨hf.of_map (by rw [hs.refreshTokens]) hs.nextToken,
      Nat.le_of_eq hs.nextToken.symm, ?_, hs.clock⟩
    intro rt hrt
    rw [hs.refreshTokens] at hrt
    exact Or.inl ⟨rt, hrt, .refl rt⟩
  have hrevoke : ∀ p now, db' = db.write (db.tables.revokeWhere p now) →
      db'.tables.FreshTokens ∧ db.tables.nextToken ≤ db'.tables.nextToken ∧ db.RowsFrom db' ∧
        db'.clock = db.clock + 1 := by
    rintro p now rfl
    exact ⟨hf.of_map (AuthTables.map_token_revokeWhere p) rfl, Nat.le_refl _,
      fun rt hrt => Or.inl (AuthTables.later_of_revokeWhere hrt), rfl⟩
  have hinsert : ∀ user now, db'.tables = db.tables.createRefreshToken user now →
      db'.clock = db.clock + 1 →
      db'.tables.FreshTokens ∧ db.tables.nextToken ≤ db'.tables.nextToken ∧ db.RowsFrom db' ∧
        db'.clock = db.clock + 1 := by
    intro user now ht hclock
    refine ⟨?_, ?_, ?_, hclock⟩
    · rw [ht]
      exact hf.createRefreshToken user now
    · rw [ht]
      exact Nat.le_succ _
    · intro rt hrt
      rw [ht] at hrt
      rcases AuthTables.mem_createRefreshToken.mp hrt with hrt | rfl
      · exact Or.inl ⟨rt, hrt, .refl rt⟩
      · exact Or.inr rfl
  cases h with
  | read hdb hκ' => exact hsame hdb
  | check rt hr hrt hlive hdb hκ' => exact hsame hdb
  | authenticate user hdb hκ' => exact hsame hdb
  | revoke p now hdb hκ' => exact hrevoke p now hdb
  | rotate rt now hκ hdb hκ' =>
    subst hdb
    refine ⟨hf.of_map (AuthTables.map_token_saveRevokedAt rt.token) rfl, Nat.le_refl _, ?_, rfl⟩
    intro r hr
    obtain ⟨r₀, hr₀, hlater, -⟩ := AuthTables.later_of_saveRevokedAt hr
    exact Or.inl ⟨r₀, hr₀, hlater⟩
  | succeed rt now hκ hdb hκ' =>
    subst hdb
    exact hinsert rt.user now rfl rfl
  | login user checkedAt now hκ hdb hκ' =>
    subst hdb
    exact hinsert user.id now rfl rfl
  | save user checkedAt hκ hdb hκ' => exact hsame hdb
  | revokeAll user checkedAt savedAt now hκ hdb hκ' => exact hrevoke _ now hdb
  | complete user checkedAt savedAt now hκ hdb hκ' =>
    subst hdb
    exact hinsert user.id now rfl rfl

/-- A rotated token stays revoked. -/
theorem SessionDb.RowsFrom.revoked (h : db.RowsFrom db') {token : Token}
    (hlt : token < db.tables.nextToken)
    (hrevoked : ∀ r ∈ db.tables.refreshTokens, r.token = token → r.revokedAt ≠ none) :
    ∀ r ∈ db'.tables.refreshTokens, r.token = token → r.revokedAt ≠ none := by
  intro rt hrt htoken
  rcases h rt hrt with ⟨r, hr, hlater⟩ | hnew
  · exact hlater.2.2 (hrevoked r hr (hlater.1.symm.trans htoken))
  · rw [← htoken, hnew] at hlt
    exact absurd hlt (Nat.lt_irrefl _)

end Saasmint
