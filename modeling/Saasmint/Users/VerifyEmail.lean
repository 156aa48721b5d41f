/-
Saasmint/Users/VerifyEmail.lean

`VerifyEmailView.post` as a whole: the body, the token, the account.

The body is validated first and refused without a trace.  The token is consumed
next, by an UPDATE that is committed at once, and only then does the view ask
for the password that the account of an invitation still lacks: that refusal
takes the token with it, as does that of an inactive user
(`refusal_keeps_token_iff`).
-/
import Saasmint.Users.Mailbox

namespace Saasmint

open PyStr

variable (u : UnicodeTables)

/-! ### The body -/

/-- A key of a JSON body. -/
inductive JsonText
  | missing
  | null
  /-- A string, or a number as `str` writes it. -/
  | text (s : String)
  | other
  deriving DecidableEq, Repr

/-- A message of a serializer, with the field that it is filed under. -/
structure FieldError where
  field : String
  message : String
  deriving DecidableEq, Repr

/-- The arguments of a CharField. -/
structure CharField where
  name : String
  required : Bool
  minLength : Option Nat
  maxLength : Option Nat
  deriving DecidableEq, Repr

namespace CharField

variable (field : CharField)

def error (message : String) : FieldError := ⟨field.name, message⟩

/-- The validators of a CharField, all of which are run. -/
def validators (s : String) : List FieldError :=
  ((field.maxLength.filter fun n => n < s.length).toList.map fun n =>
      field.error s!"Ensure this field has no more than {n} characters.") ++
    ((field.minLength.filter fun n => s.length < n).toList.map fun n =>
      field.error s!"Ensure this field has at least {n} characters.") ++
    if s.toList.contains '\x00' then [field.error "Null characters are not allowed."] else []

/-- `run_validation`, where `none` is a field that is left out. -/
def run (value : JsonText) : Except (List FieldError) (Option String) :=
  match value with
  | .missing => if field.required then .error [field.error "This field is required."] else .ok none
  | .null => .error [field.error "This field may not be null."]
  | .other => .error [field.error "Not a valid string."]
  | .text s =>
    let s := strip u s
    if s = "" then .error [field.error "This field may not be blank."]
    else match field.validators s with
      | [] => .ok (some s)
      | errors => .error errors

end CharField

inductive VerifyBody
  /-- With the name of its type. -/
  | notObject (datatype : String)
  | object (token password : JsonText)
  deriving DecidableEq, Repr

def verifyTokenField : CharField := ⟨"token", true, none, none⟩

def verifyPasswordField : CharField := ⟨"password", false, some 10, some 128⟩

/-- What is outside the app: `AUTH_PASSWORD_VALIDATORS`, with their messages, and
the hash of a raw token. -/
structure VerifyEnv where
  passwordMessages : String → List String
  hashToken : String → Token

/-- `validate_password`, on a password that the field has taken. -/
def runPasswordValidators (env : VerifyEnv) (password : Option String) :
    Except (List FieldError) (Option String) :=
  match (password.elim [] env.passwordMessages).map verifyPasswordField.error with
  | [] => .ok password
  | errors => .error errors

/-- `VerifyEmailSerializer`: the errors of both fields are collected. -/
def verifyEmailSerializer (env : VerifyEnv) (body : VerifyBody) :
    Except (List FieldError) (String × Option String) :=
  match body with
  | .notObject datatype =>
    .error [⟨"non_field_errors", s!"Invalid data. Expected a dictionary, but got {datatype}."⟩]
  | .object token password =>
    match verifyTokenField.run u token,
      (verifyPasswordField.run u password).bind (runPasswordValidators env) with
    | .ok token, .ok password => .ok (token.getD "", password)
    | .error errors, .ok _ => .error errors
    | .ok _, .error errors => .error errors
    | .error errors, .error errors' => .error (errors ++ errors')

/-! ### The view -/

namespace AuthTables

variable (t : AuthTables)

/-- What follows `is_valid`: the statements of the request, one after the other. -/
def verifyEmailRun (token : Token) (password : Option String) (now : Timestamp) :
    AuthTables × AccountCall :=
  match t.checkVerificationToken token now with
  | .found row user =>
    match t.consumeVerificationToken row user now with
    | (t, .consumed _ user) =>
      match t.activate user password with
      | (t, .activated user) => (t.createRefreshToken user.id now, .signedIn user t.nextToken)
      | x => x
    | x => x
  | κ => (t, κ)

end AuthTables

inductive VerifyAnswer
  | invalid (errors : List FieldError)
  | call (κ : AccountCall)
  deriving DecidableEq, Repr

/-- `VerifyEmailView.post`. -/
def AuthTables.verifyEmailView (env : VerifyEnv) (t : AuthTables) (body : VerifyBody)
    (now : Timestamp) : AuthTables × VerifyAnswer :=
  match verifyEmailSerializer u env body with
  | .error errors => (t, .invalid errors)
  | .ok (token, password) =>
    let x := t.verifyEmailRun (env.hashToken token) password now
    (x.1, .call x.2)

/-- The body that `verifyEmail` of the app sends. -/
def appVerifyBody (token : String) : VerifyBody := .object (.text token) .missing

/-! ### What is claimed -/

/-- An error that is not about the token. -/
def VerifyAnswer.Refusal : VerifyAnswer → Prop
  | invalid _ => True
  | call (.failed e) => e ≠ .invalidToken ∧ e ≠ .tokenUsed ∧ e ≠ .tokenExpired
  | call _ => False

/-- A request with the text of a token and a valid password. -/
def ValidRetry (env : VerifyEnv) (text password : String) : Prop :=
  ∃ data, verifyEmailSerializer u env (.object (.text text) (.text password)) = .ok data

/-- The tables are as they were, and the token of the body, if it is live for an
active user at a later time, signs the user in with a password. -/
structure RefusalKept (env : VerifyEnv) (t t' : AuthTables) (body : VerifyBody) : Prop where
  tables : t' = t
  retry : ∀ text field password later row user, body = .object (.text text) field →
    ValidRetry u env text password →
    t.oneTimeToken t.verificationTokens (env.hashToken (strip u text)) later = .ok (row, user) →
    user.isActive = true →
      ∃ user' refresh, (t'.verifyEmailView u env (.object (.text text) (.text password)) later).2
        = .call (.signedIn user' refresh)

/-- The body carries a live token of a user who is not active, or who has no
password while the body has none either. -/
def TakesToken (env : VerifyEnv) (t : AuthTables) (body : VerifyBody) (now : Timestamp) : Prop :=
  ∃ token password row user, verifyEmailSerializer u env body = .ok (token, password) ∧
    t.oneTimeToken t.verificationTokens (env.hashToken token) now = .ok (row, user) ∧
    (user.isActive = false ∨ user.hasUsablePassword = false ∧ password = none)

variable {u} {env : VerifyEnv} {t : AuthTables} {now : Timestamp} {body : VerifyBody}

/-! ### What the body gives -/

theorem CharField.run_text {field : CharField} {s : String} {value : Option String}
    (h : field.run u (.text s) = .ok value) : value = some (strip u s) ∧ strip u s ≠ "" := by
  unfold run at h
  dsimp only at h
  split at h
  case isTrue => cases h
  case isFalse hblank =>
    split at h
    case h_1 =>
      obtain rfl := Except.ok.inj h
      exact ⟨rfl, hblank⟩
    case h_2 => cases h

/-- A field gives no blank. -/
theorem CharField.run_ne_blank {field : CharField} {value : JsonText} {s : String}
    (h : field.run u value = .ok (some s)) : s ≠ "" := by
  cases value with
  | missing =>
    unfold run at h
    dsimp only at h
    split at h <;> cases h
  | null => cases h
  | other => cases h
  | text s' =>
    obtain ⟨hs, hne⟩ := run_text h
    obtain rfl := Option.some.inj hs
    exact hne

theorem runPasswordValidators_ok {password password' : Option String}
    (h : runPasswordValidators env password = .ok password') : password' = password := by
  unfold runPasswordValidators at h
  split at h
  · exact (Except.ok.inj h).symm
  · cases h

/-- What a body that is taken has in its fields. -/
theorem verifyEmailSerializer_ok {token password : JsonText} {data : String × Option String}
    (h : verifyEmailSerializer u env (.object token password) = .ok data) :
    ∃ token', verifyTokenField.run u token = .ok token' ∧ data.1 = token'.getD "" ∧
      verifyPasswordField.run u password = .ok data.2 := by
  unfold verifyEmailSerializer at h
  dsimp only at h
  split at h
  case h_1 token' password' htoken hpassword =>
    obtain rfl := Except.ok.inj h
    refine ⟨token', htoken, rfl, ?_⟩
    rcases hrun : verifyPasswordField.run u password with errors | password₀
    · rw [hrun] at hpassword
      cases hpassword
    · rw [hrun] at hpassword
      rw [runPasswordValidators_ok hpassword]
  all_goals cases h

theorem verifyEmailSerializer_ne_blank {token : String} {password : String}
    (h : verifyEmailSerializer u env body = .ok (token, some password)) : password ≠ "" := by
  cases body with
  | notObject datatype => cases h
  | object token password =>
    obtain ⟨-, -, -, hpassword⟩ := verifyEmailSerializer_ok h
    exact CharField.run_ne_blank hpassword

/-- A retry has the token of its text, and a password. -/
theorem ValidRetry.serializer {text password : String} (h : ValidRetry u env text password) :
    ∃ raw, verifyEmailSerializer u env (.object (.text text) (.text password))
      = .ok (strip u text, some raw) := by
  obtain ⟨⟨token, value⟩, hdata⟩ := h
  obtain ⟨token', htoken, htoken', hpassword⟩ := verifyEmailSerializer_ok hdata
  obtain ⟨rfl, -⟩ := CharField.run_text htoken
  obtain ⟨hvalue, -⟩ := CharField.run_text hpassword
  dsimp only at htoken' hvalue
  subst htoken' hvalue
  exact ⟨_, hdata⟩

/-! ### What the request does with the token -/

/-- A token that is refused is invalid, used or expired. -/
theorem AuthTables.oneTimeToken_error {rows : List OneTimeToken} {token : Token} {e : AuthError}
    (h : t.oneTimeToken rows token now = .error e) :
    e = .invalidToken ∨ e = .tokenUsed ∨ e = .tokenExpired := by
  unfold oneTimeToken at h
  split at h
  case h_1 => exact Or.inl (Except.error.inj h).symm
  case h_2 row _ =>
    unfold OneTimeToken.check at h
    grind

/-- A token that is found is unused and not expired. -/
theorem AuthTables.oneTimeToken_live {rows : List OneTimeToken} {token : Token} {row : OneTimeToken}
    {user : Account} (h : t.oneTimeToken rows token now = .ok (row, user)) :
    row.usedAt = none ∧ now < row.expiresAt := by
  unfold oneTimeToken at h
  split at h
  case h_1 => cases h
  case h_2 row' _ =>
    split at h
    case h_1 user' hcheck _ =>
      obtain ⟨rfl, rfl⟩ := Prod.mk.inj (Except.ok.inj h)
      unfold OneTimeToken.check at hcheck
      split at hcheck
      case isTrue => cases hcheck
      case isFalse hunused =>
        split at hcheck
        case isTrue => cases hcheck
        case isFalse hexpires => exact ⟨by simpa using hunused, not_le.mp hexpires⟩
    case h_2 => cases h
    case h_3 => cases h

/-- A live token is consumed, which changes its row. -/
theorem AuthTables.consume_of_live {token : Token} {row : OneTimeToken} {user : Account}
    (h : t.oneTimeToken t.verificationTokens token now = .ok (row, user)) :
    ∃ rows, consume t.verificationTokens row.token now = some rows ∧
    rows ≠ t.verificationTokens := by
  obtain ⟨hrow, htoken, -⟩ := oneTimeToken_eq_ok h
  obtain ⟨hunused, hexpires⟩ := oneTimeToken_live h
  have hcons : row.consumable row.token now = true := by
    simp [OneTimeToken.consumable, hunused, hexpires]
  refine ⟨_, if_pos (List.any_eq_true.mpr ⟨row, hrow, hcons⟩), fun hsame => ?_⟩
  -- the row would have been used before
  have hself := List.map_inj_left.mp (hsame.trans (List.map_id _).symm) row hrow
  rw [if_pos hcons] at hself
  have hused : (some now : Option Timestamp) = row.usedAt := congrArg OneTimeToken.usedAt hself
  rw [hunused] at hused
  cases hused

/-- A request without a live token changes nothing and says so. -/
theorem AuthTables.verifyEmailRun_of_error {token : Token} {password : Option String}
    {e : AuthError}
    (h : t.oneTimeToken t.verificationTokens token now = .error e) :
    t.verifyEmailRun token password now = (t, .failed e) := by
  unfold verifyEmailRun checkVerificationToken
  rw [h]

/-- **A request with a live token consumes it**, and then is refused or signs
the user in. -/
theorem AuthTables.verifyEmailRun_of_live {token : Token} {password : Option String}
    {row : OneTimeToken} {user : Account} (hpassword : password ≠ some "")
    (h : t.oneTimeToken t.verificationTokens token now = .ok (row, user)) :
    (user.isActive = false → ∃ t', t'.verificationTokens ≠ t.verificationTokens ∧
      t.verifyEmailRun token password now = (t', .failed .userNotFound)) ∧
    (user.isActive = true → user.hasUsablePassword = false → password = none →
      ∃ t', t'.verificationTokens ≠ t.verificationTokens ∧
        t.verifyEmailRun token password now = (t', .failed .passwordRequired)) ∧
    (user.isActive = true → (user.hasUsablePassword = true ∨ password ≠ none) →
      ∃ t' user' refresh, t.verifyEmailRun token password now = (t', .signedIn user' refresh)) := by
  obtain ⟨rows, hconsume, hrows⟩ := consume_of_live h
  unfold verifyEmailRun checkVerificationToken
  rw [h]
  dsimp only
  unfold consumeVerificationToken
  rw [hconsume]
  dsimp only
  refine ⟨fun hinactive => ?_, fun hactive husable hnone => ?_, fun hactive hcan => ?_⟩
  · rw [if_neg (by simp [hinactive])]
    exact ⟨_, hrows, rfl⟩
  · subst hnone
    rw [if_pos hactive]
    dsimp only
    unfold activate
    rw [if_neg (by simp [husable])]
    exact ⟨_, hrows, rfl⟩
  · rw [if_pos hactive]
    dsimp only
    unfold activate
    by_cases husable : user.hasUsablePassword = true
    · rw [if_pos husable]
      exact ⟨_, _, _, rfl⟩
    · rw [if_neg husable]
      obtain ⟨raw, rfl⟩ := Option.ne_none_iff_exists'.mp (hcan.resolve_left husable)
      have hraw : raw ≠ "" := fun h => hpassword (congrArg some h)
      have hfilter : (some raw).filter (fun raw => raw ≠ "") = some raw := by simp [hraw]
      rw [hfilter]
      exact ⟨_, _, _, rfl⟩

theorem consumeVerificationToken_snd {t' : AuthTables} {κ : AccountCall} (row : OneTimeToken)
    (user : Account) (h : t.consumeVerificationToken row user now = (t', κ)) :
    (∃ e, κ = .failed e) ∨ κ = .consumed row user := by
  unfold AuthTables.consumeVerificationToken at h
  split at h
  · exact Or.inl ⟨_, (Prod.mk.inj h).2.symm⟩
  · rw [← (Prod.mk.inj h).2]
    split
    · exact Or.inr rfl
    · exact Or.inl ⟨_, rfl⟩

theorem activate_snd {t' : AuthTables} {κ : AccountCall} (user : Account)
    (password : Option String) (h : t.activate user password = (t', κ)) :
    (∃ e, κ = .failed e) ∨ κ = .activated user := by
  unfold AuthTables.activate at h
  split at h
  · exact Or.inr (Prod.mk.inj h).2.symm
  · split at h
    · exact Or.inl ⟨_, (Prod.mk.inj h).2.symm⟩
    · exact Or.inr (Prod.mk.inj h).2.symm

/-- A statement of a request that runs on its own. -/
def StatementAlone {ι : Type*} (p : Platform) (r : AccountRequest) (i : ι) (now : Timestamp)
    (x y : SessionDb ι × AccountCall) : Prop :=
  accountStatement p r i x.1 x.2 ⟨now, none⟩ = some y

/-- The request on its own is its statements, one after the other, to the last. -/
theorem verifyEmailRun_alone {ι : Type*} (p : Platform) (i : ι) (db : SessionDb ι) (token : Token)
    (password : Option String) :
    ∃ db', Relation.ReflTransGen (StatementAlone p (.verifyEmail token password) i now)
        (db, .start) (db', (db.tables.verifyEmailRun token password now).2) ∧
      db'.tables = (db.tables.verifyEmailRun token password now).1 ∧
      ∀ input, accountStatement p (.verifyEmail token password) i db'
        (db.tables.verifyEmailRun token password now).2 input = none := by
  have hcheck : StatementAlone p (.verifyEmail token password) i now (db, .start)
      (db.tick, db.tables.checkVerificationToken token now) := rfl
  unfold AuthTables.verifyEmailRun
  rcases hfound : db.tables.oneTimeToken db.tables.verificationTokens token now with
    e | ⟨row, user⟩
  · have hκ : db.tables.checkVerificationToken token now = .failed e := by
      rw [AuthTables.checkVerificationToken, hfound]
    rw [hκ] at hcheck ⊢
    exact ⟨db.tick, .single hcheck, rfl, fun _ => rfl⟩
  · have hκ : db.tables.checkVerificationToken token now = .found row user := by
      rw [AuthTables.checkVerificationToken, hfound]
    rw [hκ] at hcheck ⊢
    -- the UPDATE of the token
    have hconsume : StatementAlone p (.verifyEmail token password) i now
        (db.tick, .found row user)
        (db.tick.write (db.tables.consumeVerificationToken row user now).1,
          (db.tables.consumeVerificationToken row user now).2) := rfl
    dsimp only
    rcases hc : db.tables.consumeVerificationToken row user now with ⟨t₁, κ₁⟩
    rw [hc] at hconsume
    have hruns := Relation.ReflTransGen.tail (.single hcheck) hconsume
    rcases consumeVerificationToken_snd row user hc with ⟨e, rfl⟩ | rfl
    · exact ⟨_, hruns, rfl, fun _ => rfl⟩
    · -- the save of the user
      have hactivate : StatementAlone p (.verifyEmail token password) i now
          (db.tick.write t₁, .consumed row user)
          ((db.tick.write t₁).write (t₁.activate user password).1,
            (t₁.activate user password).2) := rfl
      dsimp only
      rcases ha : t₁.activate user password with ⟨t₂, κ₂⟩
      rw [ha] at hactivate
      have hruns := hruns.tail hactivate
      rcases activate_snd user password ha with ⟨e, rfl⟩ | rfl
      · exact ⟨_, hruns, rfl, fun _ => rfl⟩
      · exact ⟨_, hruns.tail rfl, rfl, fun _ => rfl⟩

/-- A retry with a password signs the user in, if the token is live and the user
active. -/
theorem verifyEmailView_retry {text password : String} {row : OneTimeToken} {user : Account}
    (hretry : ValidRetry u env text password)
    (hlive : t.oneTimeToken t.verificationTokens (env.hashToken (strip u text)) now
      = .ok (row, user))
    (hactive : user.isActive = true) :
    ∃ user' refresh, (t.verifyEmailView u env (.object (.text text) (.text password)) now).2
      = .call (.signedIn user' refresh) := by
  obtain ⟨raw, hdata⟩ := hretry.serializer
  have hraw := verifyEmailSerializer_ne_blank hdata
  obtain ⟨t', user', refresh, hrun⟩ :=
    (AuthTables.verifyEmailRun_of_live (fun h => hraw (Option.some.inj h)) hlive).2.2 hactive
      (Or.inr (Option.some_ne_none raw))
  refine ⟨user', refresh, ?_⟩
  unfold AuthTables.verifyEmailView
  rw [hdata]
  dsimp only
  rw [hrun]

/-- **Refused verifications.**  A request that is refused for another reason than
its token leaves the accounts and tokens as they are, and the token to be tried
again, exactly where it is not a live one of a user who is inactive, or who has
no password while the body has none either. -/
theorem refusal_keeps_token_iff (u : UnicodeTables) (env : VerifyEnv) (t : AuthTables)
    (body : VerifyBody) (now : Timestamp) :
    ((t.verifyEmailView u env body now).2.Refusal →
        RefusalKept u env t (t.verifyEmailView u env body now).1 body) ↔
      ¬ TakesToken u env t body now := by
  constructor
  · rintro hkept ⟨token, password, row, user, hdata, hlive, hcase⟩
    have hpassword : password ≠ some "" := by
      rintro rfl
      exact verifyEmailSerializer_ne_blank hdata rfl
    obtain ⟨hinactive, hmissing, -⟩ := AuthTables.verifyEmailRun_of_live hpassword hlive
    have hview : ∀ t' e, t.verifyEmailRun (env.hashToken token) password now = (t', .failed e) →
        t.verifyEmailView u env body now = (t', .call (.failed e)) := by
      intro t' e hrun
      unfold AuthTables.verifyEmailView
      rw [hdata]
      dsimp only
      rw [hrun]
    obtain ⟨t', htokens, e, hrefusal, hrun⟩ : ∃ t', t'.verificationTokens ≠ t.verificationTokens ∧
        ∃ e, (VerifyAnswer.call (.failed e)).Refusal ∧
          t.verifyEmailRun (env.hashToken token) password now = (t', .failed e) := by
      rcases Bool.eq_false_or_eq_true user.isActive with hactive | hactive
      · obtain ⟨husable, hnone⟩ := hcase.resolve_left (by simp [hactive])
        obtain ⟨t', htokens, hrun⟩ := hmissing hactive husable hnone
        exact ⟨t', htokens, _, by simp [VerifyAnswer.Refusal], hrun⟩
      · obtain ⟨t', htokens, hrun⟩ := hinactive hactive
        exact ⟨t', htokens, _, by simp [VerifyAnswer.Refusal], hrun⟩
    rw [hview t' e hrun] at hkept
    exact htokens (congrArg AuthTables.verificationTokens (hkept hrefusal).tables)
  · intro htakes hrefusal
    rcases hdata : verifyEmailSerializer u env body with errors | ⟨token, password⟩
    · -- the body
      have hview : t.verifyEmailView u env body now = (t, .invalid errors) := by
        unfold AuthTables.verifyEmailView
        rw [hdata]
      rw [hview]
      refine ⟨rfl, ?_⟩
      intro text field password later row user _ hretry hlive hactive
      exact verifyEmailView_retry hretry hlive hactive
    · have hview : (t.verifyEmailView u env body now).2
          = .call (t.verifyEmailRun (env.hashToken token) password now).2 := by
        unfold AuthTables.verifyEmailView
        rw [hdata]
      rw [hview] at hrefusal
      rcases hlive : t.oneTimeToken t.verificationTokens (env.hashToken token) now with
        e | ⟨row, user⟩
      · -- the token
        rw [AuthTables.verifyEmailRun_of_error hlive] at hrefusal
        obtain ⟨hinvalid, hused, hexpired⟩ := hrefusal
        rcases AuthTables.oneTimeToken_error hlive with h | h | h
        · exact absurd h hinvalid
        · exact absurd h hused
        · exact absurd h hexpired
      · -- the user is signed in
        have hcase : ¬ (user.isActive = false ∨ user.hasUsablePassword = false ∧ password = none) :=
          fun h => htakes ⟨token, password, row, user, hdata, hlive, h⟩
        have hpassword : password ≠ some "" := by
          rintro rfl
          exact verifyEmailSerializer_ne_blank hdata rfl
        have hactive : user.isActive = true := by
          simpa using fun h => hcase (Or.inl h)
        have hcan : user.hasUsablePassword = true ∨ password ≠ none := by
          by_contra hnot
          exact hcase (Or.inr (by simpa using hnot))
        obtain ⟨t', user', refresh, hrun⟩ :=
          (AuthTables.verifyEmailRun_of_live hpassword hlive).2.2 hactive hcan
        rw [hrun] at hrefusal
        exact absurd hrefusal id

/-! ### An invitee without a password -/

/-- Ann has accepted an invitation, and the mail is on its way. -/
def inviteeTables : AuthTables where
  accounts := [⟨⟨1, "ann@acme.io"⟩, none, false, true, none⟩]
  refreshTokens := []
  verificationTokens := [⟨9, 1, 86400, none⟩]
  resetTokens := []
  linkRequests := []
  socialAccounts := []
  nextKey := 2
  nextToken := 10

/-- No validator objects, and a token is known by its length. -/
def plainEnv : VerifyEnv where
  passwordMessages _ := []
  hashToken := String.length

/-- What the app sends is refused for the password, and then a retry with one is
refused for the token. -/
theorem verify_email_burns_token :
    (inviteeTables.verifyEmailView asciiTables plainEnv (appVerifyBody "from-mail") 100).2
      = .call (.failed .passwordRequired) ∧
    ¬ RefusalKept asciiTables plainEnv inviteeTables
      (inviteeTables.verifyEmailView asciiTables plainEnv (appVerifyBody "from-mail") 100).1
      (appVerifyBody "from-mail") ∧
    ((inviteeTables.verifyEmailView asciiTables plainEnv (appVerifyBody "from-mail") 100).1
        |>.verifyEmailView asciiTables plainEnv
          (.object (.text "from-mail") (.text "correct horse")) 200).2
      = .call (.failed .tokenUsed) := by
  refine ⟨by decide +kernel, fun h => ?_, by decide +kernel⟩
  exact absurd h.tables (by decide +kernel)

end Saasmint
