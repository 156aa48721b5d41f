/-
Saasmint/Users/SocialSignIn.lean

Signing in through an OAuth provider (`resolve_oauth_user` of
apps/users/services.py, OAuthCallbackView and OAuthConfirmLinkView of
apps/users/auth_views.py), each request as its statements, any number of them
interleaved.

A callback starts where `exchange_code` has returned the provider's answer.
`get_or_create` is a SELECT, an INSERT and, where a unique constraint refuses
the INSERT, the SELECT again; it returns the row that it finds, whoever's it is.
What a transaction writes is written with its last statement: until then nobody
sees it, and a concurrent INSERT waits for it.  The account of a new user has
no provider yet, so its transaction is one step.
-/
import Saasmint.Lib.Interleaving
import Saasmint.Users.Authentication

namespace Saasmint

variable {ι : Type*}

/-- What the provider says of the user. -/
structure OAuthUserInfo where
  email : String
  providerUserId : String
  emailVerified : Bool
  deriving DecidableEq, Repr

def OAuthUserInfo.identity (info : OAuthUserInfo) (provider : String) : ProviderIdentity :=
  ⟨provider, info.providerUserId⟩

/-- `TRUSTED_FOR_AUTO_LINK`. -/
def trustedForAutoLink : List String := ["google", "github", "microsoft"]

inductive SocialRequest
  | callback (provider : String) (info : OAuthUserInfo)
  | confirmLink (token : Token)
  deriving DecidableEq, Repr

/-- The arguments of `get_or_create`, in a callback or in a confirm-link. -/
structure Link where
  user : Account
  identity : ProviderIdentity
  confirm : Bool
  deriving DecidableEq, Repr

/-- Where a request is, with what it has read. -/
inductive SocialCall
  | start
  /-- The identity has no SocialAccount. -/
  | unknown
  /-- The email, verified by the provider, has no account. -/
  | unregistered
  /-- The INSERT of the account has raised IntegrityError. -/
  | taken
  /-- `get_or_create`, before its SELECT, its INSERT, and its SELECT again. -/
  | looking (l : Link)
  | inserting (l : Link)
  | conflicted (l : Link)
  /-- A confirm-link has found the SocialAccount, and it is the user's. -/
  | owned (l : Link)
  | linked (l : Link)
  /-- A callback is to send a link email, and then has invalidated earlier ones. -/
  | collided (user : Account)
  | invalidated (user : Account)
  | linkSent
  /-- A confirm-link has found its token, and then consumed it. -/
  | found (row : SocialLinkRequest) (user : Account)
  | consumed (row : SocialLinkRequest) (user : Account)
  | signedIn (l : Link) (token : Token)
  | failed (e : AuthError)
  deriving DecidableEq, Repr

/-- `_link_or_request`, up to `get_or_create`. -/
def linkOrRequest (provider : String) (info : OAuthUserInfo) (existing : Account) : SocialCall :=
  if info.emailVerified && trustedForAutoLink.contains provider then
    .looking ⟨existing, info.identity provider, false⟩
  else if existing.isActive then .collided existing
  else .linkSent

/-- What follows `get_or_create` in the transaction of a confirm-link. -/
def Link.finish (l : Link) (t : AuthTables) : AuthTables :=
  if l.confirm then t.markVerified l.user else t

namespace AuthTables

variable (t : AuthTables)

/-- The SELECT of `resolve_oauth_user` by identity, with the user. -/
def resolveIdentity (identity : ProviderIdentity) : SocialCall :=
  match (t.socialAccount identity).bind fun s => t.account s.user with
  | some user => .linked ⟨user, identity, false⟩
  | none => .unknown

/-- The transaction that creates an account with its SocialAccount. -/
def createWithIdentity (p : Platform) (info : OAuthUserInfo) (identity : ProviderIdentity) :
    AuthTables × SocialCall :=
  if info.email = "" then (t, .failed .accountDeactivated)
  else
    let user := t.newAccount p info.email none true
    match t.insertAccount p user with
    | none => (t, .taken)
    | some t' =>
      (if (t'.socialAccount identity).isSome then t' else t'.addSocialAccount ⟨user.id, identity⟩,
        .linked ⟨user, identity, false⟩)

/-- The SELECT of `_consume_one_time_token`, with the user, and the checks. -/
def checkLinkToken (token : Token) (now : Timestamp) : SocialCall :=
  match t.linkRequests.find? fun r => r.token = token with
  | none => .failed .invalidToken
  | some row =>
    match row.check now, t.account row.user with
    | .ok (), some user => .found row user
    | .error e, _ => .failed e
    | _, none => .failed .invalidToken

/-- The SELECT of OAuthConfirmLinkView. -/
def checkCollision (row : SocialLinkRequest) (user : Account) : SocialCall :=
  match t.socialAccount row.identity with
  | none => .looking ⟨user, row.identity, true⟩
  | some s =>
    if s.user = user.id then .owned ⟨user, row.identity, true⟩ else .failed .socialAccountCollision

end AuthTables

/-- A step of the request `i`. -/
def socialAct (p : Platform) (requests : ι → SocialRequest) (i : ι) (t : AuthTables)
    (κ : SocialCall) (now : Timestamp) : Option (AuthTables × SocialCall) :=
  match requests i, κ with
  | .callback provider info, .start => some (t, t.resolveIdentity (info.identity provider))
  | .callback provider info, .unknown =>
    match t.accountByEmail p info.email with
    | some existing => some (t, linkOrRequest provider info existing)
    | none => some (t, if info.emailVerified then .unregistered else .failed .emailNotVerified)
  | .callback provider info, .unregistered =>
    some (t.createWithIdentity p info (info.identity provider))
  | .callback provider info, .taken =>
    match t.accountByEmail p info.email with
    | some existing => some (t, linkOrRequest provider info existing)
    | none => some (t, .failed .doesNotExist)
  | .callback _ _, .collided user => some (t.invalidateLinkRequests user.id now, .invalidated user)
  | .callback provider info, .invalidated user =>
    some (t.createLinkRequest user.id (info.identity provider) now, .linkSent)
  | .confirmLink token, .start => some (t, t.checkLinkToken token now)
  | .confirmLink _, .found row user =>
    match t.consumeLinkRequest row.token now with
    | none => some (t, .failed .tokenUsed)
    | some t' => some (t', if user.isActive then .consumed row user else .failed .userNotFound)
  | .confirmLink _, .consumed row user => some (t, t.checkCollision row user)
  | _, .looking l =>
    match t.socialAccount l.identity with
    | some _ => some (l.finish t, .linked l)
    | none => some (t, .inserting l)
  | _, .inserting l =>
    match t.insertSocialAccount ⟨l.user.id, l.identity⟩ with
    | some t' => some (l.finish t', .linked l)
    | none => some (t, .conflicted l)
  | _, .conflicted l =>
    match t.socialAccount l.identity with
    | some _ => some (l.finish t, .linked l)
    | none => some (t, .failed .integrityError)
  | _, .owned l => some (l.finish t, .linked l)
  | _, .linked l =>
    if l.confirm || l.user.isActive then
      some (t.createRefreshToken l.user.id now, .signedIn l t.nextToken)
    else some (t, .failed .accountDeactivated)
  | _, _ => none

abbrev SocialSystem (ι : Type*) := Interleaving.State ι AuthTables SocialCall

def socialInit (ι : Type*) (t : AuthTables) : SocialSystem ι := ⟨t, fun _ => .start⟩

/-! ### What is claimed -/

/-- Emails that `iexact` or `normalize_email` takes for the same. -/
def Platform.SameEmail (p : Platform) (a b : String) : Prop :=
  p.upper a = p.upper b ∨ a = p.normalizeEmail b

/-- Sessions are for the user that the identity belongs to, and no request fails
with a database error. -/
structure IdentityBound (requests : ι → SocialRequest) (s : SocialSystem ι) : Prop where
  callback : ∀ i provider info l token, requests i = .callback provider info →
    s.procs i = .signedIn l token →
    ⟨l.user.id, info.identity provider⟩ ∈ s.shared.socialAccounts
  confirmLink : ∀ i token l refresh, requests i = .confirmLink token →
    s.procs i = .signedIn l refresh →
    ∃ row ∈ s.shared.linkRequests, row.token = token ∧ row.user = l.user.id ∧
      ⟨l.user.id, row.identity⟩ ∈ s.shared.socialAccounts
  noIntegrityError : ∀ i, s.procs i ≠ .failed .integrityError

/-- A SocialAccount that a step creates is for the account with the email that
the provider has verified, or for the user and the identity of the link token. -/
def LinkJustified (p : Platform) (requests : ι → SocialRequest) (s : SocialSystem ι)
    (l : ι × Timestamp) (s' : SocialSystem ι) : Prop :=
  ∀ x ∈ s'.shared.socialAccounts, x ∈ s.shared.socialAccounts ∨
    (∃ provider info, requests l.1 = .callback provider info ∧ info.emailVerified = true ∧
      x.identity = info.identity provider ∧
      ∃ a ∈ s'.shared.accounts, a.id = x.user ∧ p.SameEmail a.email info.email) ∨
    ∃ token, requests l.1 = .confirmLink token ∧
      ∃ row ∈ s.shared.linkRequests, row.token = token ∧ row.user = x.user ∧
        row.identity = x.identity

/-- The identity is the user's, if it has a SocialAccount. -/
def AuthTables.Own (t : AuthTables) (user : UUID) (identity : ProviderIdentity) : Prop :=
  (∃ x ∈ t.socialAccounts, x.identity = identity) → ⟨user, identity⟩ ∈ t.socialAccounts

/-- `get_or_create` is called for the user of a session. -/
def Link.signsIn (l : Link) : Bool := l.confirm || l.user.isActive

/-- A SELECT of a `get_or_create` for a session finds no SocialAccount but the user's, and where
the INSERT has been refused there is one to find. -/
def FreeToLink (p : Platform) (r : SocialRequest) (t : AuthTables) (κ : SocialCall) : Prop :=
  match r, κ with
  -- in the transaction of a new account, if the account can be inserted
  | .callback provider info, .unregistered =>
    info.email ≠ "" → (t.insertAccount p (t.newAccount p info.email none true)).isSome = true →
      t.Own (t.newAccount p info.email none true).id (info.identity provider)
  | _, .looking l => l.signsIn = true → t.Own l.user.id l.identity
  -- else the user has another identity of the provider
  | _, .conflicted l => (∃ x ∈ t.socialAccounts, x.identity = l.identity) ∧
      (l.signsIn = true → t.Own l.user.id l.identity)
  | _, _ => True

instance (t : AuthTables) (user : UUID) (identity : ProviderIdentity) :
    Decidable (t.Own user identity) :=
  inferInstanceAs (Decidable ((∃ x ∈ t.socialAccounts, x.identity = identity) → _))

instance (p : Platform) (r : SocialRequest) (t : AuthTables) (κ : SocialCall) :
    Decidable (FreeToLink p r t κ) := by
  unfold FreeToLink
  split <;> infer_instance

end Saasmint
