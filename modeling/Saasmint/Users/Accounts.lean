/-
Saasmint/Users/Accounts.lean

Everything that opens an account: the endpoints that register, verify and sign
in (apps/users/auth_views.py) and `accept_invitation` (apps/orgs/services.py),
each request as its statements, any number of them interleaved.

Accepting an invitation is here what it does to the accounts; that it may be
refused for the invitation or the seats adds no run.  A mail is sent with the
INSERT of the token in it, which nobody can present before.  An access token is
known by the refresh token that it was issued with, and opens for good: that
it expires, or is from before a password change, only takes runs away.

Next to the tables the state keeps the mails, and a history that no request
reads: the accounts of invitations, the one-time tokens that each request has
consumed, and the credentials that have been given out.
-/
import Saasmint.Users.Sessions
import Saasmint.Users.SocialSignIn

namespace Saasmint

variable {ι : Type*}

/-! ### Requests -/

/-- What a request presents to be let into an account. -/
inductive Credential
  | password (raw : String)
  | refreshToken (token : Token)
  /-- The access token of the pair with this refresh token. -/
  | accessToken (token : Token)
  | identity (identity : ProviderIdentity)
  deriving DecidableEq, Repr

inductive AccountRequest
  /-- With the email of the invitation. -/
  | acceptInvitation (email : String)
  | register (email password : String)
  | verifyEmail (token : Token) (password : Option String)
  | resendVerification (email : String)
  | forgotPassword (email : String)
  | refresh (token : Token)
  | logout (token : Token)
  | login (email password : String)
  | resetPassword (token : Token) (password : String)
  /-- With the `sub` of the access token. -/
  | changePassword (sub : UUID) (accessToken : Token) (currentPassword newPassword : String)
  | social (r : SocialRequest)
  deriving DecidableEq, Repr

namespace AccountRequest

/-- The requests on sessions. -/
def session : AccountRequest → Option SessionRequest
  | refresh token => some (.refresh token)
  | logout token => some (.logout token)
  | login email password => some (.login email password)
  | resetPassword token password => some (.resetPassword token password)
  | changePassword sub _ currentPassword newPassword =>
    some (.changePassword sub currentPassword newPassword)
  | _ => none

/-- The one-time token that is presented. -/
def oneTimeToken : AccountRequest → Option Token
  | verifyEmail token _ | resetPassword token _ | social (.confirmLink token) => some token
  | _ => none

/-- The credential that is presented. -/
def credential : AccountRequest → Option Credential
  | refresh token => some (.refreshToken token)
  | login _ password => some (.password password)
  | changePassword _ accessToken _ _ => some (.accessToken accessToken)
  | social (.callback provider info) => some (.identity (info.identity provider))
  | _ => none

end AccountRequest

/-- Where a request is, with what it has read. -/
inductive AccountCall
  | start
  | session (κ : SessionCall)
  | social (κ : SocialCall)
  /-- The email of an invitation or a registration has no account. -/
  | unregistered
  | accepted (user : Account) (token : Token)
  /-- A registration has its account, and then has sent the verification email. -/
  | registered (user : Account)
  | welcomed (user : Account) (token : Token)
  /-- An account that is to get a mail, and then has no other verification token. -/
  | addressed (user : Account)
  | invalidated (user : Account)
  | mailed (user : Account) (token : Token)
  /-- A verification has found its token, then consumed it, then saved the user. -/
  | found (row : OneTimeToken) (user : Account)
  | consumed (row : OneTimeToken) (user : Account)
  | activated (user : Account)
  | signedIn (user : Account) (token : Token)
  /-- There is no account to send a mail to. -/
  | nothingToSend
  | failed (e : AuthError)
  deriving DecidableEq, Repr

/-- A request on sessions or of a provider starts as such. -/
def AccountRequest.initial : AccountRequest → AccountCall
  | .refresh _ | .logout _ | .login _ _ | .resetPassword _ _ | .changePassword _ _ _ _ =>
    .session .start
  | .social _ => .social .start
  | _ => .start

/-! ### Statements -/

namespace AuthTables

variable (t : AuthTables)

/-- The pair of an access token has been issued to the user. -/
def verifiesAccess (sub : UUID) (accessToken : Token) : Bool :=
  t.refreshTokens.any fun rt => rt.user = sub && rt.token = accessToken

/-- The SELECT of ResendVerificationView. -/
def toVerify (p : Platform) (email : String) : AccountCall :=
  match t.accounts.filter fun a =>
    p.upper a.email = p.upper email && a.isActive && !a.isVerified with
  | [] => .nothingToSend
  | [user] => .addressed user
  | _ => .failed .multipleObjectsReturned

/-- The SELECT of ForgotPasswordView. -/
def toReset (p : Platform) (email : String) : AccountCall :=
  match t.accounts.find? fun a => p.upper a.email = p.upper email && a.isActive with
  | some user => .addressed user
  | none => .nothingToSend

/-- `verify_email_token`, up to its UPDATE. -/
def checkVerificationToken (token : Token) (now : Timestamp) : AccountCall :=
  match t.oneTimeToken t.verificationTokens token now with
  | .ok (row, user) => .found row user
  | .error e => .failed e

/-- The UPDATE that consumes a verification token, and the check of `is_active`. -/
def consumeVerificationToken (row : OneTimeToken) (user : Account) (now : Timestamp) :
    AuthTables × AccountCall :=
  match consume t.verificationTokens row.token now with
  | none => (t, .failed .tokenUsed)
  | some rows => ({ t with verificationTokens := rows },
      if user.isActive then .consumed row user else .failed .userNotFound)

/-- What VerifyEmailView saves of the user. -/
def activate (user : Account) (password : Option String) : AuthTables × AccountCall :=
  if user.hasUsablePassword then (t.markVerified user, .activated user)
  else match password.filter fun raw => raw ≠ "" with
    | none => (t, .failed .passwordRequired)
    | some raw =>
      (t.saveAccount user.id fun a =>
        { a with password := some raw, isVerified := a.isVerified || !user.isVerified },
        .activated user)

/-- The transaction of `accept_invitation`, and the mail that follows its commit. -/
def admitInvitee (p : Platform) (email : String) (now : Timestamp) : AuthTables × AccountCall :=
  let user := t.newAccount p email none false
  match t.insertAccount p user with
  | none => (t, .failed .integrityError)
  | some t' => (t'.createVerificationToken user.id now, .accepted user t'.nextToken)

/-- The INSERT of `_register_user`. -/
def registerUser (p : Platform) (email password : String) : AuthTables × AccountCall :=
  let user := t.newAccount p email (some password) false
  match t.insertAccount p user with
  | none => (t, .failed .emailExists)
  | some t' => (t', .registered user)

end AuthTables

/-- A password change starts with its access token verified. -/
def AccountRequest.verified (t : AuthTables) : AccountRequest → SessionCall → Bool
  | .changePassword sub accessToken _ _, .start => t.verifiesAccess sub accessToken
  | _, _ => true

/-- A statement of the request `i`, which is `r`. -/
def accountStatement (p : Platform) (r : AccountRequest) (i : ι) (db : SessionDb ι)
    (κ : AccountCall) (input : SessionInput) : Option (SessionDb ι × AccountCall) :=
  let t := db.tables
  let now := input.now
  match r, κ with
  | _, .session κ =>
    if r.verified t κ then
      r.session.bind fun sr =>
        (sessionAct (fun _ => sr) i db κ input).map fun x => (x.1, .session x.2)
    else some (db.tick, .failed .invalidToken)
  | .social sr, .social κ =>
    (socialAct p (fun _ => sr) i t κ now).map fun x => (db.write x.1, .social x.2)
  | .acceptInvitation email, .start | .register email _, .start =>
    some (db.tick,
      if (t.accountByEmail p email).isSome then .failed .emailExists else .unregistered)
  | .acceptInvitation email, .unregistered =>
    let (t', κ') := t.admitInvitee p email now
    some (db.write t', κ')
  | .register email password, .unregistered =>
    let (t', κ') := t.registerUser p email password
    some (db.write t', κ')
  | .register _ _, .registered user =>
    some (db.write (t.createVerificationToken user.id now), .welcomed user t.nextToken)
  | .register _ _, .welcomed user _ =>
    some (db.write (t.createRefreshToken user.id now), .signedIn user t.nextToken)
  | .verifyEmail token _, .start => some (db.tick, t.checkVerificationToken token now)
  | .verifyEmail _ _, .found row user =>
    let (t', κ') := t.consumeVerificationToken row user now
    some (db.write t', κ')
  | .verifyEmail _ password, .consumed _ user =>
    let (t', κ') := t.activate user password
    some (db.write t', κ')
  | .verifyEmail _ _, .activated user =>
    some (db.write (t.createRefreshToken user.id now), .signedIn user t.nextToken)
  | .resendVerification email, .start => some (db.tick, t.toVerify p email)
  | .resendVerification _, .addressed user =>
    some (db.write (t.invalidateVerificationTokens user.id now), .invalidated user)
  | .resendVerification _, .invalidated user =>
    some (db.write (t.createVerificationToken user.id now), .mailed user t.nextToken)
  | .forgotPassword email, .start => some (db.tick, t.toReset p email)
  | .forgotPassword _, .addressed user =>
    some (db.write (t.createResetToken user.id now), .mailed user t.nextToken)
  | _, _ => none

/-! ### The history -/

/-- What lets requests into the accounts. -/
def AuthTables.credentials (t : AuthTables) : List (UUID × Credential) :=
  (t.accounts.filterMap fun a => a.password.map fun raw => (a.id, .password raw)) ++
    (t.refreshTokens.flatMap fun rt =>
      [(rt.user, .refreshToken rt.token), (rt.user, .accessToken rt.token)]) ++
    t.socialAccounts.map fun x => (x.user, .identity x.identity)

/-- The mail of a step: the address, and the token. -/
def mailOf (t : AuthTables) : AccountCall → AccountCall → Option (String × Token)
  | _, .accepted user token | _, .welcomed user token | _, .mailed user token =>
    some (user.email, token)
  | .social (.invalidated user), .social .linkSent => some (user.email, t.nextToken)
  | _, _ => none

/-- The account of an invitation. -/
def AccountCall.invitee : AccountCall → Option UUID
  | accepted user _ => some user.id
  | _ => none

/-- The one-time token that a step consumes for a user who is active. -/
def consumedBy : AccountCall → AccountCall → Option Token
  | .found row _, .consumed _ _ => some row.token
  | .session (.found row _), .session (.authenticated _ _) => some row.token
  | .social (.found row _), .social (.consumed _ _) => some row.token
  | _, _ => none

/-- The password that a step sets. -/
def passwordSet : AccountRequest → AccountCall → AccountCall → Option (UUID × String)
  | .register _ password, .unregistered, .registered user => some (user.id, password)
  | .verifyEmail _ (some password), .consumed _ user, .activated _ =>
    if user.hasUsablePassword then none else some (user.id, password)
  | .resetPassword _ password, .session (.authenticated user _), .session (.changed _ _ _)
  | .changePassword _ _ _ password, .session (.authenticated user _), .session (.changed _ _ _) =>
    some (user.id, password)
  | _, _, _ => none

/-- The credentials that a step gives out: the password that it sets, the pair
that it issues, the identity that it links. -/
def granted (r : AccountRequest) (t t' : AuthTables) (κ κ' : AccountCall) :
    List (UUID × Credential) :=
  ((passwordSet r κ κ').map fun x => (x.1, .password x.2)).toList ++
    t'.credentials.filter fun x => x ∉ t.credentials

/-- The tables and the mails, with their history. -/
structure AccountDb (ι : Type*) where
  sessions : SessionDb ι
  /-- Each mail: the address, and the token. -/
  mails : List (String × Token)
  invited : List UUID
  consumed : List (ι × Token)
  obtained : List (UUID × Credential)

namespace AccountDb

abbrev tables (σ : AccountDb ι) : AuthTables := σ.sessions.tables

/-- A statement of the request `i`, which is `r`, has led from `κ` to `κ'`. -/
def after (σ : AccountDb ι) (r : AccountRequest) (i : ι) (db : SessionDb ι) (κ κ' : AccountCall) :
    AccountDb ι where
  sessions := db
  mails := σ.mails ++ (mailOf σ.tables κ κ').toList
  invited := σ.invited ++ κ'.invitee.toList
  consumed := σ.consumed ++ ((consumedBy κ κ').map fun token => (i, token)).toList
  obtained := σ.obtained ++ granted r σ.tables db.tables κ κ'

end AccountDb

/-- A step of the request `i`. -/
def accountAct (p : Platform) (requests : ι → AccountRequest) (i : ι) (σ : AccountDb ι)
    (κ : AccountCall) (input : SessionInput) : Option (AccountDb ι × AccountCall) :=
  (accountStatement p (requests i) i σ.sessions κ input).map fun x =>
    (σ.after (requests i) i x.1 κ x.2, x.2)

abbrev AccountSystem (ι : Type*) := Interleaving.State ι (AccountDb ι) AccountCall

/-- The tables before any request. -/
def accountInit (requests : ι → AccountRequest) (t : AuthTables) : AccountSystem ι :=
  ⟨⟨.init ι t, [], [], [], []⟩, fun i => (requests i).initial⟩

/-! ### What is claimed -/

/-- The token has been sent to the mailbox of the account. -/
def AccountDb.Mailed (σ : AccountDb ι) (id : UUID) (token : Token) : Prop :=
  ∃ a ∈ σ.tables.accounts, a.id = id ∧ (a.email, token) ∈ σ.mails

/-- The request `i`, which is `r`, may open the account: it has consumed a
one-time token from its mailbox, or presents an identity with its email that
the provider has verified, or a credential that has been given out before. -/
inductive Entitled (p : Platform) (r : AccountRequest) (i : ι) (σ : AccountDb ι) (id : UUID) : Prop
  | mailbox (token : Token) (hr : r.oneTimeToken = some token) (hconsumed : (i, token) ∈ σ.consumed)
      (hmailed : σ.Mailed id token)
  | provider (provider : String) (info : OAuthUserInfo) (hr : r = .social (.callback provider info))
      (hverified : info.emailVerified = true)
      (hemail : ∃ a ∈ σ.tables.accounts, a.id = id ∧ p.SameEmail a.email info.email)
  | credential (c : Credential) (hr : r.credential = some c) (hobtained : (id, c) ∈ σ.obtained)

/-- A step that sets the password of an account of an invitation, issues a pair
for it or links an identity to it is of a request that may open the account. -/
def OpensWhatItMay (p : Platform) (requests : ι → AccountRequest) (s : AccountSystem ι)
    (l : ι × SessionInput) (s' : AccountSystem ι) : Prop :=
  ∀ id c, (id, c) ∈ granted (requests l.1) s.shared.tables s'.shared.tables (s.procs l.1)
  (s'.procs l.1) →
    id ∈ s'.shared.invited → Entitled p (requests l.1) l.1 s.shared id

/-- What lets into the account of an invitation has been given out since. -/
def AccountDb.Recorded (σ : AccountDb ι) : Prop :=
  ∀ id ∈ σ.invited, ∀ c, (id, c) ∈ σ.tables.credentials → (id, c) ∈ σ.obtained

end Saasmint
