/-
Saasmint/Users/Authentication.lean

The statements of apps/users/authentication.py on the tables of tokens: what
each SELECT finds and what each INSERT and UPDATE leaves.

A rotation looks its token up, then revokes the row it has found whatever that
row has become, then inserts the successor; a one-time token is consumed by an
UPDATE that asks again whether it is still unused (`consume`).
-/
import Saasmint.Users.Models

namespace Saasmint

/-! ### Lifetimes, in seconds -/

def refreshTokenLifetime : Timestamp := 7 * 24 * 60 * 60

def emailVerificationLifetime : Timestamp := 24 * 60 * 60

def passwordResetLifetime : Timestamp := 10 * 60

def socialLinkLifetime : Timestamp := 15 * 60

/-! ### One-time tokens -/

/-- The checks of `_consume_one_time_token` on the row that it has read. -/
def OneTimeToken.check (row : OneTimeToken) (now : Timestamp) : Except AuthError Unit :=
  if row.usedAt.isSome then .error .tokenUsed
  else if row.expiresAt ≤ now then .error .tokenExpired
  else .ok ()

/-- The predicate of the conditional UPDATE. -/
def OneTimeToken.consumable (row : OneTimeToken) (token : Token) (now : Timestamp) : Bool :=
  row.token = token && row.usedAt.isNone && decide (now < row.expiresAt)

/-- The conditional UPDATE: the rows after it; `none` where it has matched none. -/
def consume (rows : List OneTimeToken) (token : Token) (now : Timestamp) :
    Option (List OneTimeToken) :=
  if rows.any fun r => r.consumable token now then
    some (rows.map fun r => if r.consumable token now then { r with usedAt := some now } else r)
  else none

namespace AuthTables

variable (t : AuthTables)

/-- `User.objects.get(id=...)`. -/
def account (id : UUID) : Option Account := t.accounts.find? fun a => a.id = id

/-- A save of some columns of an account. -/
def saveAccount (id : UUID) (f : Account → Account) : AuthTables :=
  { t with accounts := Table.update (fun a : Account => a.id) id f t.accounts }

/-! ### Refresh tokens -/

/-- `create_refresh_token`; the raw token is `nextToken`. -/
def createRefreshToken (user : UUID) (now : Timestamp) : AuthTables :=
  { t with
    refreshTokens := t.refreshTokens ++
      [{ token := t.nextToken, user, expiresAt := now + refreshTokenLifetime, revokedAt := none }]
    nextToken := t.nextToken + 1 }

/-- The row with the hash of a raw token. -/
def refreshToken (token : Token) : Option RefreshToken :=
  t.refreshTokens.find? fun rt => rt.token = token

/-- `rt.save(update_fields=["revoked_at"])`. -/
def saveRevokedAt (token : Token) (now : Timestamp) : AuthTables :=
  { t with
    refreshTokens :=
      Table.update RefreshToken.token token (fun rt => { rt with revokedAt := some now })
        t.refreshTokens }

/-- The UPDATE of `revoked_at` where it is NULL, on the rows that `p` picks. -/
def revokeWhere (p : RefreshToken → Bool) (now : Timestamp) : AuthTables :=
  { t with
    refreshTokens := t.refreshTokens.map fun rt =>
      if p rt && rt.revokedAt.isNone then { rt with revokedAt := some now } else rt }

/-- `revoke_refresh_token`. -/
def revokeRefreshToken (token : Token) (now : Timestamp) : AuthTables :=
  t.revokeWhere (fun rt => rt.token = token) now

/-- `revoke_all_refresh_tokens`. -/
def revokeAllRefreshTokens (user : UUID) (now : Timestamp) : AuthTables :=
  t.revokeWhere (fun rt => rt.user = user) now

/-! ### Accounts -/

/-- The account whose email equals another one under `iexact`. -/
def accountByEmail (p : Platform) (email : String) : Option Account :=
  t.accounts.find? fun a => p.upper a.email = p.upper email

/-- The account of `create_user`. -/
def newAccount (p : Platform) (email : String) (password : Option String) (isVerified : Bool) :
    Account where
  id := t.nextKey
  email := p.normalizeEmail email
  password := password.filter fun raw => raw ≠ ""
  isVerified
  isActive := true
  passwordChangedAt := none

/-- The INSERT of `create_user`, unless `uniq_users_lower_email` refuses it. -/
def insertAccount (p : Platform) (a : Account) : Option AuthTables :=
  if t.accounts.any fun b => p.lower b.email = p.lower a.email then none
  else some { t with accounts := t.accounts ++ [a], nextKey := t.nextKey + 1 }

/-- `user.is_verified = True` and its save, unless the user is verified. -/
def markVerified (user : Account) : AuthTables :=
  if user.isVerified then t else t.saveAccount user.id fun a => { a with isVerified := true }

/-! ### Tokens by mail -/

/-- The SELECT of `_consume_one_time_token`, with the user, and its checks. -/
def oneTimeToken (rows : List OneTimeToken) (token : Token) (now : Timestamp) :
    Except AuthError (OneTimeToken × Account) :=
  match rows.find? fun r => r.token = token with
  | none => .error .invalidToken
  | some row =>
    match row.check now, t.account row.user with
    | .ok (), some user => .ok (row, user)
    | .error e, _ => .error e
    | _, none => .error .invalidToken

/-- `create_email_verification_token`; the raw token is `nextToken`. -/
def createVerificationToken (user : UUID) (now : Timestamp) : AuthTables :=
  { t with
    verificationTokens := t.verificationTokens ++
      [{ token := t.nextToken, user, expiresAt := now + emailVerificationLifetime, usedAt := none }]
    nextToken := t.nextToken + 1 }

/-- `create_password_reset_token`; the raw token is `nextToken`. -/
def createResetToken (user : UUID) (now : Timestamp) : AuthTables :=
  { t with
    resetTokens := t.resetTokens ++
      [{ token := t.nextToken, user, expiresAt := now + passwordResetLifetime, usedAt := none }]
    nextToken := t.nextToken + 1 }

/-- The UPDATE of `used_at` on the unused verification tokens of a user. -/
def invalidateVerificationTokens (user : UUID) (now : Timestamp) : AuthTables :=
  { t with
    verificationTokens := t.verificationTokens.map fun r =>
      if r.user = user && r.usedAt.isNone then { r with usedAt := some now } else r }

/-! ### Provider identities -/

def socialAccount (identity : ProviderIdentity) : Option SocialAccount :=
  t.socialAccounts.find? fun s => s.identity = identity

def addSocialAccount (s : SocialAccount) : AuthTables :=
  { t with socialAccounts := t.socialAccounts ++ [s] }

/-- The INSERT of a SocialAccount, unless `uq_social_provider_uid` or
`uq_social_user_provider` refuses it. -/
def insertSocialAccount (s : SocialAccount) : Option AuthTables :=
  if t.socialAccounts.any fun x =>
      x.identity = s.identity || x.userProvider = s.userProvider then none
  else some (t.addSocialAccount s)

/-- The UPDATE of `used_at` on the pending link requests of a user. -/
def invalidateLinkRequests (user : UUID) (now : Timestamp) : AuthTables :=
  { t with
    linkRequests := t.linkRequests.map fun r =>
      if r.user = user && r.usedAt.isNone then { r with usedAt := some now } else r }

/-- `create_social_link_token`; the raw token is `nextToken`. -/
def createLinkRequest (user : UUID) (identity : ProviderIdentity) (now : Timestamp) : AuthTables :=
  { t with
    linkRequests := t.linkRequests ++
      [{ token := t.nextToken, user, expiresAt := now + socialLinkLifetime, usedAt := none
         identity }]
    nextToken := t.nextToken + 1 }

/-- The conditional UPDATE that consumes a link token. -/
def consumeLinkRequest (token : Token) (now : Timestamp) : Option AuthTables :=
  if t.linkRequests.any fun r => r.consumable token now then
    some { t with
      linkRequests := t.linkRequests.map fun r =>
        if r.consumable token now then { r with usedAt := some now } else r }
  else none

end AuthTables

/-! ### What the statements leave -/

variable {t : AuthTables} {now : Timestamp} {rt : RefreshToken}

theorem RefreshToken.isValid_iff : rt.isValid now = true
    ↔ rt.revokedAt = none ∧ now < rt.expiresAt := by
  unfold isValid
  rw [Bool.and_eq_true, Option.isNone_iff_eq_none, decide_eq_true_iff]

theorem AuthTables.mem_createRefreshToken {user : UUID} :
    rt ∈ (t.createRefreshToken user now).refreshTokens ↔
      rt ∈ t.refreshTokens ∨
        rt = { token := t.nextToken, user, expiresAt := now + refreshTokenLifetime,
               revokedAt := none } := by
  show rt ∈ t.refreshTokens ++ [_] ↔ _
  rw [List.mem_append, List.mem_singleton]

theorem AuthTables.refreshToken_eq_some {token : Token} (h : t.refreshToken token = some rt) :
    rt ∈ t.refreshTokens ∧ rt.token = token :=
  ⟨List.mem_of_find?_eq_some h, by simpa using List.find?_some h⟩

theorem AuthTables.mem_saveRevokedAt {token : Token} :
    rt ∈ (t.saveRevokedAt token now).refreshTokens ↔
      (rt ∈ t.refreshTokens ∧ rt.token ≠ token) ∨
        ∃ r ∈ t.refreshTokens, r.token = token ∧ rt = { r with revokedAt := some now } :=
  Table.mem_update

theorem AuthTables.mem_revokeWhere {p : RefreshToken → Bool} :
    rt ∈ (t.revokeWhere p now).refreshTokens ↔
      ∃ r ∈ t.refreshTokens,
        rt = if p r && r.revokedAt.isNone then { r with revokedAt := some now } else r := by
  show rt ∈ List.map _ _ ↔ _
  rw [List.mem_map]
  constructor
  · rintro ⟨r, hr, rfl⟩
    exact ⟨r, hr, rfl⟩
  · rintro ⟨r, hr, rfl⟩
    exact ⟨r, hr, rfl⟩

/-- What a revocation leaves unrevoked was unrevoked and not picked. -/
theorem AuthTables.unrevoked_of_revokeWhere {p : RefreshToken → Bool}
    (h : rt ∈ (t.revokeWhere p now).refreshTokens) (hrt : rt.revokedAt = none) :
    rt ∈ t.refreshTokens ∧ p rt = false := by
  obtain ⟨r, hr, rfl⟩ := mem_revokeWhere.mp h
  split at hrt
  · cases hrt
  · rename_i hnot
    rw [if_neg hnot]
    rw [hrt] at hnot
    exact ⟨hr, by simpa using hnot⟩

/-- The rows keep their tokens and users, and stay revoked, under every UPDATE. -/
def RefreshToken.Later (r rt : RefreshToken) : Prop :=
  rt.token = r.token ∧ rt.user = r.user ∧ (r.revokedAt ≠ none → rt.revokedAt ≠ none)

theorem RefreshToken.Later.refl (r : RefreshToken) : r.Later r := ⟨rfl, rfl, fun h => h⟩

theorem RefreshToken.Later.trans {r₁ r₂ r₃ : RefreshToken} (h : r₁.Later r₂) (h' : r₂.Later r₃) :
    r₁.Later r₃ :=
  ⟨h'.1.trans h.1, h'.2.1.trans h.2.1, fun hr => h'.2.2 (h.2.2 hr)⟩

theorem AuthTables.later_of_saveRevokedAt {token : Token}
    (h : rt ∈ (t.saveRevokedAt token now).refreshTokens) :
    ∃ r ∈ t.refreshTokens, r.Later rt ∧ (rt.token = token → rt.revokedAt ≠ none) := by
  rcases mem_saveRevokedAt.mp h with ⟨hr, hne⟩ | ⟨r, hr, -, rfl⟩
  · exact ⟨rt, hr, .refl rt, fun h => absurd h hne⟩
  · exact ⟨r, hr, ⟨rfl, rfl, fun _ => by simp⟩, fun _ => by simp⟩

theorem AuthTables.later_of_revokeWhere {p : RefreshToken → Bool}
    (h : rt ∈ (t.revokeWhere p now).refreshTokens) : ∃ r ∈ t.refreshTokens, r.Later rt := by
  obtain ⟨r, hr, rfl⟩ := mem_revokeWhere.mp h
  refine ⟨r, hr, ?_⟩
  split
  · exact ⟨rfl, rfl, fun _ => by simp⟩
  · exact .refl r

/-- An UPDATE keeps the tokens of the table. -/
theorem AuthTables.map_token_saveRevokedAt (token : Token) :
    (t.saveRevokedAt token now).refreshTokens.map RefreshToken.token
      = t.refreshTokens.map RefreshToken.token := by
  show (Table.update _ _ _ _).map _ = _
  rw [Table.update, List.map_map]
  apply List.map_congr_left
  intro r _
  simp only [Function.comp_apply]
  split <;> rfl

theorem AuthTables.map_token_revokeWhere (p : RefreshToken → Bool) :
    (t.revokeWhere p now).refreshTokens.map RefreshToken.token
      = t.refreshTokens.map RefreshToken.token := by
  show (List.map _ _).map _ = _
  rw [List.map_map]
  apply List.map_congr_left
  intro r _
  simp only [Function.comp_apply]
  split <;> rfl

end Saasmint
