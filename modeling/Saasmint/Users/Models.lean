/-
Saasmint/Users/Models.lean

The tables of accounts and their credentials (apps/users/models.py).

A token stands for its hash, which is what the tables hold: `secrets` gives out
tokens that are new, here the numbers in order, and SHA-256 keeps them apart.
A password stands for its hash as well, and `none` is an unusable one.
-/
import Saasmint.Orgs.Models

namespace Saasmint

/-- A raw token of `secrets.token_urlsafe`. -/
abbrev Token := Nat

/-- An account with what authentication reads of it. -/
structure Account extends User where
  password : Option String
  isVerified : Bool
  isActive : Bool
  passwordChangedAt : Option Timestamp
  deriving DecidableEq, Repr

/-- `has_usable_password`. -/
def Account.hasUsablePassword (a : Account) : Bool := a.password.isSome

/-- `check_password`, which an unusable password fails. -/
def Account.checkPassword (a : Account) (raw : String) : Bool := a.password = some raw

structure RefreshToken where
  token : Token
  user : UUID
  expiresAt : Timestamp
  revokedAt : Option Timestamp
  deriving DecidableEq, Repr

/-- `is_valid`: the token is live. -/
def RefreshToken.isValid (rt : RefreshToken) (now : Timestamp) : Bool :=
  rt.revokedAt.isNone && decide (now < rt.expiresAt)

/-- A row of `email_verification_tokens` or `password_reset_tokens`. -/
structure OneTimeToken where
  token : Token
  user : UUID
  expiresAt : Timestamp
  usedAt : Option Timestamp
  deriving DecidableEq, Repr

/-- The provider and its id of the user. -/
structure ProviderIdentity where
  provider : String
  providerUserId : String
  deriving DecidableEq, Repr

structure SocialAccount where
  user : UUID
  identity : ProviderIdentity
  deriving DecidableEq, Repr

structure SocialLinkRequest extends OneTimeToken where
  identity : ProviderIdentity
  deriving DecidableEq, Repr

/-- The columns under `uq_social_user_provider`. -/
def SocialAccount.userProvider (s : SocialAccount) : UUID × String := (s.user, s.identity.provider)

structure AuthTables where
  accounts : List Account
  refreshTokens : List RefreshToken
  verificationTokens : List OneTimeToken
  resetTokens : List OneTimeToken
  linkRequests : List SocialLinkRequest
  socialAccounts : List SocialAccount
  /-- The next key of `uuid4`. -/
  nextKey : UUID
  /-- The next token of `secrets`. -/
  nextToken : Token
  deriving DecidableEq, Repr

/-- What an authentication endpoint is refused with, or fails with. -/
inductive AuthError
  | invalidToken
  | tokenUsed
  | tokenRevoked
  | tokenExpired
  | userNotFound
  | invalidCredentials
  | invalidPassword
  | emailExists
  | passwordRequired
  | emailNotVerified
  | accountDeactivated
  | socialAccountCollision
  | integrityError
  /-- `User.DoesNotExist` where a row was to be found. -/
  | doesNotExist
  /-- `get` has matched several rows. -/
  | multipleObjectsReturned
  deriving DecidableEq, Repr

end Saasmint
