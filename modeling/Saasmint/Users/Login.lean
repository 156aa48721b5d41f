/-
Saasmint/Users/Login.lean

Which emails sign an account in.

`create_user` lower-cases the domain of an email and leaves the local part, the
unique index and every other lookup ignore the case, and `authenticate` compares
exactly.  The sign-in form of the app lower-cases all of it.  So LoginView finds
an account under the one spelling that is stored, and the form finds it where
that spelling has no capital (`login_finds_iff`).

The run lemma is that accounts keep their emails and come from requests that
open one, and that no two emails differ in their case alone (`EmailInv`).
-/
import Saasmint.Users.Mailbox

namespace Saasmint

open PyStr

variable {ι : Type*}

/-! ### The login -/

/-- What the fields of LoginSerializer and the form rest on: the validator of
EmailField, `String.prototype.trim` and `String.prototype.toLowerCase`. -/
structure LoginText where
  isEmail : String → Bool
  trim : String → String
  toLowerCase : String → String

/-- `LoginSerializer`: both fields are stripped, and neither may be blank. -/
def loginSerializer (u : UnicodeTables) (f : LoginText) (email password : String) :
    Option (String × String) :=
  let email := strip u email
  let password := strip u password
  if email ≠ "" ∧ f.isEmail email = true ∧ password ≠ "" then some (email, password) else none

/-- `LoginView.post`, up to the INSERT of its refresh token; `none` is a body
that is refused. -/
def AuthTables.loginView (t : AuthTables) (u : UnicodeTables) (f : LoginText)
    (email password : String) (clock : Nat) : Option SessionCall :=
  (loginSerializer u f email password).map fun data => t.authenticate data.1 data.2 clock

/-- `readCredentials` of the app. -/
def readCredentials (f : LoginText) (email password : String) : Option (String × String) :=
  if email ≠ "" ∧ password ≠ "" then some (f.toLowerCase (f.trim email), password) else none

/-- `signIn` of the app, up to what the API answers. -/
def AuthTables.signIn (t : AuthTables) (u : UnicodeTables) (f : LoginText)
    (email password : String) (clock : Nat) : Option SessionCall :=
  (readCredentials f email password).bind fun data => t.loginView u f data.1 data.2 clock

/-- The email that an account is opened with. -/
def AccountRequest.opens : AccountRequest → Option String
  | acceptInvitation email | register email _ => some email
  | social (.callback _ info) => some info.email
  | _ => none

/-! ### What is claimed -/

/-- EmailField takes the text for an email. -/
def LoginText.Accepts (f : LoginText) (email : String) : Prop :=
  email ≠ "" ∧ f.isEmail email = true

/-- LoginView finds the account under the email as it is stored and no other,
and so does the form under what it makes of an email.  Registration, reset,
resend and OAuth find an account under every spelling. -/
structure FoundBy (p : Platform) (u : UnicodeTables) (f : LoginText) (t : AuthTables) (a : Account)
    (email password : String) (clock : Nat) : Prop where
  view : t.loginView u f email password clock = some (.authenticated a clock) ↔
    f.Accepts (strip u email) ∧ strip u email = a.email
  form : t.signIn u f email password clock = some (.authenticated a clock) ↔
    email ≠ "" ∧ f.Accepts (strip u (f.toLowerCase (f.trim email))) ∧
      strip u (f.toLowerCase (f.trim email)) = a.email
  others : p.upper email = p.upper a.email → (t.accountByEmail p email).isSome = true

variable {p : Platform} {t t' : AuthTables} {now : Timestamp}

/-! ### What a statement does to the accounts -/

/-- The accounts after a statement of `r`: as they were but for passwords and
verification, or with one more. -/
inductive AccountsWritten (p : Platform) (r : AccountRequest) (t t' : AuthTables) : Prop
  | updated (f : Account → Account) (hf : ∀ a, (f a).email = a.email ∧ (f a).isActive = a.isActive)
      (ht : t'.accounts = t.accounts.map f)
  | opened (email : String) (password : Option String) (isVerified : Bool)
      (hr : r.opens = some email)
      (hfresh : ∀ b ∈ t.accounts, p.lower b.email ≠ p.lower (p.normalizeEmail email))
      (ht : t'.accounts = t.accounts ++ [t.newAccount p email password isVerified])

namespace AccountsWritten

variable {r : AccountRequest}

theorem same (h : t'.accounts = t.accounts) : AccountsWritten p r t t' :=
  .updated id (fun _ => ⟨rfl, rfl⟩) (by rw [List.map_id, h])

theorem saveAccount {t₁ : AuthTables} (h : t₁.accounts = t.accounts) (id : UUID)
    {f : Account → Account} (hf : ∀ a, (f a).email = a.email ∧ (f a).isActive = a.isActive) :
    AccountsWritten p r t (t₁.saveAccount id f) := by
  refine .updated (fun a => if a.id = id then f a else a) (fun a => ?_) ?_
  · split
    · exact hf a
    · exact ⟨rfl, rfl⟩
  · show t₁.accounts.map _ = _
    rw [h]

theorem markVerified {t₁ : AuthTables} (h : t₁.accounts = t.accounts) (user : Account) :
    AccountsWritten p r t (t₁.markVerified user) := by
  unfold AuthTables.markVerified
  split
  · exact same h
  · exact saveAccount h _ fun _ => ⟨rfl, rfl⟩

theorem finish {t₁ : AuthTables} (h : t₁.accounts = t.accounts) (l : Link) :
    AccountsWritten p r t (l.finish t₁) := by
  unfold Link.finish
  split
  · exact markVerified h l.user
  · exact same h

theorem insertAccount {email : String} {password : Option String} {isVerified : Bool}
    (hr : r.opens = some email)
    (h : t.insertAccount p (t.newAccount p email password isVerified) = some t') :
    AccountsWritten p r t t' := by
  unfold AuthTables.insertAccount at h
  split at h
  case isTrue => cases h
  case isFalse hnone =>
    obtain rfl := Option.some.inj h
    refine .opened email password isVerified hr (fun b hb heq => hnone ?_) rfl
    exact List.any_eq_true.mpr ⟨b, hb, decide_eq_true heq⟩

/-- Rows of other tables do not count. -/
theorem congr {t'' : AuthTables} (h : AccountsWritten p r t t') (ht : t''.accounts = t'.accounts) :
    AccountsWritten p r t t'' := by
  cases h with
  | updated f hf h => exact .updated f hf (ht.trans h)
  | opened email password isVerified hr hfresh h =>
    exact .opened email password isVerified hr hfresh (ht.trans h)

/-- A reset or a change saves a password, and what else there is in the
statements on sessions does not touch accounts. -/
theorem of_sessionAct {requests : ι → SessionRequest} {i : ι} {db db' : SessionDb ι}
    {κ κ' : SessionCall} {input : SessionInput}
    (h : sessionAct requests i db κ input = some (db', κ')) :
    AccountsWritten p r db.tables db'.tables := by
  unfold sessionAct at h
  dsimp only at h
  split at h
  case h_9 row user _ =>
    obtain ⟨rfl, rfl⟩ := Prod.mk.inj (Option.some.inj h)
    refine same ?_
    show (db.tables.consumeResetToken row user input.now db.clock).1.accounts = _
    unfold AuthTables.consumeResetToken
    split <;> rfl
  case h_10 | h_12 =>
    obtain ⟨rfl, rfl⟩ := Prod.mk.inj (Option.some.inj h)
    exact saveAccount rfl _ fun _ => ⟨rfl, rfl⟩
  case h_17 => cases h
  all_goals
    obtain ⟨rfl, rfl⟩ := Prod.mk.inj (Option.some.inj h)
    exact same rfl

theorem of_socialStep {sr : SocialRequest} {κ κ' : SocialCall}
    (h : SocialStep p sr now t t' κ κ') (hr : r = .social sr) : AccountsWritten p r t t' := by
  cases h with
  | read ht _ | verified _ _ _ _ ht _ | known _ _ _ _ _ ht _ | trust _ _ _ _ _ _ _ ht _
  | miss _ _ ht _ | conflict _ _ _ ht _ | raise _ _ _ ht _ | check _ _ _ _ _ _ _ ht _
  | unbound _ _ _ ht _ | own _ _ _ _ ht _ | collide _ _ ht _ =>
    exact same (by rw [ht])
  | create provider info t₁ hsr _ _ hinsert ht _ =>
    have hopens : r.opens = some info.email := by
      rw [hr, hsr]
      rfl
    have hwritten := insertAccount hopens hinsert
    rcases ht with ⟨rfl, -⟩ | rfl
    · exact hwritten
    · exact hwritten.congr rfl
  | find l _ _ ht _ | finish l _ ht _ =>
    subst ht
    exact finish rfl l
  | insert l _ ht _ =>
    subst ht
    refine finish ?_ l
    rfl
  | signIn l _ _ ht _ =>
    subst ht
    exact same rfl
  | invalidate user _ ht _ | request user identity _ ht _ =>
    subst ht
    exact same rfl
  | consume row user _ ht _ =>
    unfold AuthTables.consumeLinkRequest at ht
    split at ht
    case isTrue =>
      obtain rfl := Option.some.inj ht
      exact same rfl
    case isFalse => cases ht

theorem admitInvitee {email : String} (hr : r.opens = some email) :
    AccountsWritten p r t (t.admitInvitee p email now).1 := by
  unfold AuthTables.admitInvitee
  dsimp only
  split
  case h_1 => exact same rfl
  case h_2 t₁ h => exact (insertAccount hr h).congr rfl

theorem registerUser {email password : String} (hr : r.opens = some email) :
    AccountsWritten p r t (t.registerUser p email password).1 := by
  unfold AuthTables.registerUser
  dsimp only
  split
  case h_1 => exact same rfl
  case h_2 t₁ h => exact insertAccount hr h

theorem consumeVerificationToken_accounts (row : OneTimeToken) (user : Account) :
    (t.consumeVerificationToken row user now).1.accounts = t.accounts := by
  unfold AuthTables.consumeVerificationToken
  split <;> rfl

theorem activate (user : Account) (password : Option String) :
    AccountsWritten p r t (t.activate user password).1 := by
  unfold AuthTables.activate
  split
  · exact markVerified rfl user
  · split
    · exact same rfl
    · exact saveAccount rfl _ fun _ => ⟨rfl, rfl⟩

/-- **What a statement does to the accounts.** -/
theorem of_accountStatement {i : ι} {db db' : SessionDb ι} {κ κ' : AccountCall}
    {input : SessionInput} (h : accountStatement p r i db κ input = some (db', κ')) :
    AccountsWritten p r db.tables db'.tables := by
  unfold accountStatement at h
  dsimp only at h
  split at h
  · -- a session
    split at h
    · obtain ⟨sr, -, hmap⟩ := Option.bind_eq_some_iff.mp h
      obtain ⟨⟨db₁, κ₁⟩, hact, heq⟩ := Option.map_eq_some_iff.mp hmap
      obtain ⟨rfl, rfl⟩ := Prod.mk.inj heq
      exact of_sessionAct hact
    · obtain ⟨rfl, rfl⟩ := Prod.mk.inj (Option.some.inj h)
      exact same rfl
  · -- a provider
    obtain ⟨⟨t₁, κ₁⟩, hact, heq⟩ := Option.map_eq_some_iff.mp h
    obtain ⟨rfl, rfl⟩ := Prod.mk.inj heq
    exact of_socialStep (socialAct_cases hact) rfl
  · obtain ⟨rfl, rfl⟩ := Prod.mk.inj (Option.some.inj h)
    exact same rfl
  · obtain ⟨rfl, rfl⟩ := Prod.mk.inj (Option.some.inj h)
    exact same rfl
  · -- the account of an invitation
    obtain ⟨rfl, rfl⟩ := Prod.mk.inj (Option.some.inj h)
    exact admitInvitee rfl
  · -- the account of a registration
    obtain ⟨rfl, rfl⟩ := Prod.mk.inj (Option.some.inj h)
    exact registerUser rfl
  case h_10 =>
    obtain ⟨rfl, rfl⟩ := Prod.mk.inj (Option.some.inj h)
    exact same (consumeVerificationToken_accounts _ _)
  case h_11 =>
    obtain ⟨rfl, rfl⟩ := Prod.mk.inj (Option.some.inj h)
    exact activate _ _
  case h_18 => cases h
  all_goals
    obtain ⟨rfl, rfl⟩ := Prod.mk.inj (Option.some.inj h)
    exact same rfl

end AccountsWritten

/-! ### Emails over a run -/

/-- No two emails differ in their case alone, and an account is from before or
has been opened by a request and is active. -/
structure EmailInv (p : Platform) (requests : ι → AccountRequest) (t₀ t : AuthTables) : Prop where
  unique : (t.accounts.map fun a => p.lower a.email).Nodup
  origin : ∀ a ∈ t.accounts, (∃ a₀ ∈ t₀.accounts, a₀.email = a.email) ∨
    a.isActive = true ∧ ∃ i email, (requests i).opens = some email ∧
      a.email = p.normalizeEmail email

variable {requests : ι → AccountRequest} {t₀ : AuthTables}

theorem EmailInv.written {i : ι} (h : EmailInv p requests t₀ t)
    (hw : AccountsWritten p (requests i) t t') : EmailInv p requests t₀ t' := by
  cases hw with
  | updated f hf ht =>
    have hemails : t'.accounts.map (fun a => p.lower a.email)
        = t.accounts.map fun a => p.lower a.email := by
      rw [ht, List.map_map]
      exact List.map_congr_left fun a _ => congrArg p.lower (hf a).1
    refine ⟨hemails ▸ h.unique, fun a' ha' => ?_⟩
    rw [ht] at ha'
    obtain ⟨a, ha, rfl⟩ := List.mem_map.mp ha'
    rw [(hf a).1, (hf a).2]
    exact h.origin a ha
  | opened email password isVerified hr hfresh ht =>
    constructor
    case unique =>
      rw [ht, List.map_append, List.nodup_append']
      refine ⟨h.unique, List.nodup_singleton _, ?_⟩
      intro x hx hx'
      obtain ⟨b, hb, rfl⟩ := List.mem_map.mp hx
      exact hfresh b hb (List.mem_singleton.mp hx')
    case origin =>
      intro a ha
      rw [ht] at ha
      rcases List.mem_append.mp ha with ha | ha
      · exact h.origin a ha
      · obtain rfl := List.mem_singleton.mp ha
        exact Or.inr ⟨rfl, i, email, hr, rfl⟩

/-! ### Who is found -/

/-- The password that the account has, as PasswordField strips it. -/
def RightPassword (u : UnicodeTables) (a : Account) (password : String) : Prop :=
  strip u password ≠ "" ∧ a.checkPassword (strip u password) = true

/-- **`authenticate` compares exactly.** -/
theorem authenticate_iff (h : (t.accounts.map fun a => p.lower a.email).Nodup) {a : Account}
    (ha : a ∈ t.accounts) (hactive : a.isActive = true) (hverified : a.isVerified = true)
    {email password : String} (hpassword : a.checkPassword password = true) {clock : Nat} :
    t.authenticate email password clock = .authenticated a clock ↔ email = a.email := by
  unfold AuthTables.authenticate
  constructor
  · intro hauth
    split at hauth
    case h_1 => cases hauth
    case h_2 user hfind =>
      split at hauth
      · obtain rfl := (SessionCall.authenticated.inj hauth).1
        have hemail : user.email = email := by simpa using List.find?_some hfind
        exact hemail.symm
      · cases hauth
  · rintro rfl
    -- another account with the email would have it up to case as well
    rcases e : t.accounts.find? fun b => b.email = a.email with - | user
    · exact absurd (decide_eq_true rfl) (List.find?_eq_none.mp e a ha)
    · have hemail : user.email = a.email := by simpa using List.find?_some e
      obtain rfl := List.inj_on_of_nodup_map h (List.mem_of_find?_eq_some e) ha
        (congrArg p.lower hemail)
      rw [e]
      simp [hpassword, hactive, hverified]

theorem loginView_iff (u : UnicodeTables) (f : LoginText)
    (h : (t.accounts.map fun a => p.lower a.email).Nodup) {a : Account}
    (ha : a ∈ t.accounts) (hactive : a.isActive = true) (hverified : a.isVerified = true)
    {email password : String} (hpassword : RightPassword u a password) {clock : Nat} :
    t.loginView u f email password clock = some (.authenticated a clock) ↔
      f.Accepts (strip u email) ∧ strip u email = a.email := by
  unfold AuthTables.loginView loginSerializer LoginText.Accepts
  dsimp only
  by_cases haccepts : strip u email ≠ "" ∧ f.isEmail (strip u email) = true
  · rw [if_pos ⟨haccepts.1, haccepts.2, hpassword.1⟩, Option.map_some, Option.some.injEq,
      authenticate_iff h ha hactive hverified hpassword.2]
    exact ⟨fun hemail => ⟨haccepts, hemail⟩, fun hemail => hemail.2⟩
  · rw [if_neg fun hbody => haccepts ⟨hbody.1, hbody.2.1⟩]
    constructor
    · intro hnone
      cases hnone
    · exact fun hemail => absurd hemail.1 haccepts

theorem signIn_iff (u : UnicodeTables) (f : LoginText)
    (h : (t.accounts.map fun a => p.lower a.email).Nodup) {a : Account}
    (ha : a ∈ t.accounts) (hactive : a.isActive = true) (hverified : a.isVerified = true)
    {email password : String} (hpassword : RightPassword u a password) {clock : Nat} :
    t.signIn u f email password clock = some (.authenticated a clock) ↔
      email ≠ "" ∧ f.Accepts (strip u (f.toLowerCase (f.trim email))) ∧
        strip u (f.toLowerCase (f.trim email)) = a.email := by
  have hblank : password ≠ "" := by
    rintro rfl
    exact hpassword.1 rfl
  unfold AuthTables.signIn readCredentials
  by_cases hemail : email = ""
  · rw [if_neg fun h => h.1 hemail]
    constructor
    · intro hnone
      cases hnone
    · exact fun h => absurd hemail h.1
  · rw [if_pos ⟨hemail, hblank⟩, Option.bind_some,
      loginView_iff u f h ha hactive hverified hpassword]
    exact ⟨fun h => ⟨hemail, h⟩, fun h => h.2⟩

section Runs

variable [DecidableEq ι]

theorem emailInv_step (s : AccountSystem ι) (l : ι × SessionInput) (s' : AccountSystem ι)
    (hI : EmailInv p requests t₀ s.shared.tables)
    (h : Interleaving.step (accountAct p requests) s l = some s') :
    EmailInv p requests t₀ s'.shared.tables := by
  obtain ⟨i, input⟩ := l
  obtain ⟨σ', κ', hact, rfl⟩ := Interleaving.step_eq_some h
  obtain ⟨⟨db, κ₁⟩, hstatement, heq⟩ := Option.map_eq_some_iff.mp hact
  obtain ⟨rfl, rfl⟩ := Prod.mk.inj heq
  exact hI.written (AccountsWritten.of_accountStatement hstatement)

/-- **Who signs in under which email**, in every run: a verified account that a
request has opened is found by LoginView under exactly the spelling that is
stored, and by the form of the app where that is what it makes of the email;
elsewhere it is found under every spelling. -/
theorem login_finds_iff (p : Platform) (u : UnicodeTables) (f : LoginText)
    (requests : ι → AccountRequest) {t : AuthTables}
    (h : (t.accounts.map fun a => p.lower a.email).Nodup) (ls : List (ι × SessionInput)) :
    Runs.Always (Interleaving.step (accountAct p requests))
      (fun s => ∀ a ∈ s.shared.tables.accounts, (∃ a₀ ∈ t.accounts, a₀.email = a.email) ∨
        (∃ i email, (requests i).opens = some email ∧ a.email = p.normalizeEmail email) ∧
          (a.isVerified = true → ∀ password, RightPassword u a password → ∀ email clock,
            FoundBy p u f s.shared.tables a email password clock))
      (accountInit requests t) ls := by
  have hinit : EmailInv p requests t (accountInit requests t).shared.tables :=
    ⟨h, fun a ha => Or.inl ⟨a, ha, rfl⟩⟩
  refine (Runs.always_of_invariant emailInv_step hinit ls).mono ?_
  intro s hs a ha
  rcases hs.origin a ha with hold | ⟨hactive, hopened⟩
  · exact Or.inl hold
  · refine Or.inr ⟨hopened, fun hverified password hpassword email clock => ?_⟩
    constructor
    case view => exact loginView_iff u f hs.unique ha hactive hverified hpassword
    case form => exact signIn_iff u f hs.unique ha hactive hverified hpassword
    case others =>
      intro hupper
      unfold AuthTables.accountByEmail
      rw [List.find?_isSome]
      exact ⟨a, ha, decide_eq_true hupper.symm⟩

end Runs

/-! ### Ann is invited -/

/-- `normalize_email` on ASCII: the domain, after the last `@`, in lower case. -/
def asciiNormalizeEmail (email : String) : String :=
  match PyStr.splitChars (· = '@') (strip asciiTables email).toList with
  | [] | [_] => email
  | parts =>
    String.ofList (['@'].intercalate parts.dropLast ++ '@' :: (parts.getLastD []).map Char.toLower)

def mailPlatform : Platform := { wordPlatform with normalizeEmail := asciiNormalizeEmail }

/-- Text with an `@` is an email, and the form lower-cases ASCII. -/
def asciiLogin : LoginText where
  isEmail email := email.toList.contains '@'
  trim := strip asciiTables
  toLowerCase := asciiLower

/-- Ann accepts an invitation to `email`, and sets a password with the mail. -/
def annsRequests (email : String) : Fin 2 → AccountRequest
  | 0 => .acceptInvitation email
  | 1 => .verifyEmail 2 (some "swordfish")

def annsSteps : List (Fin 2 × SessionInput) := [0, 0, 1, 1, 1, 1].map fun i => (i, ⟨30, none⟩)

/-- The tables that the run leaves. -/
def annsTables (email : String) : Option AuthTables :=
  (Runs.run (Interleaving.step (accountAct mailPlatform (annsRequests email)))
    (accountInit (annsRequests email) bobsTables) annsSteps).map fun s => s.shared.tables

/-- In lower case she signs in, also under capitals through the form. -/
theorem login_finds_iff_ann :
    ∃ t ∈ annsTables "ann@acme.io", ∃ a ∈ t.accounts, a.email = "ann@acme.io" ∧
      t.loginView asciiTables asciiLogin "ann@acme.io" "swordfish" 9 = some (.authenticated a 9) ∧
      t.signIn asciiTables asciiLogin "Ann@Acme.io" "swordfish" 9 = some (.authenticated a 9) := by
  have hrun : (Runs.run (Interleaving.step (accountAct mailPlatform (annsRequests "ann@acme.io")))
      (accountInit (annsRequests "ann@acme.io") bobsTables) annsSteps).isSome = true := by
    decide +kernel
  obtain ⟨s, hs⟩ := Option.isSome_iff_exists.mp hrun
  have hlast := (login_finds_iff mailPlatform asciiTables asciiLogin (annsRequests "ann@acme.io")
    (t := bobsTables) (by decide +kernel) annsSteps).last hs
  set a : Account := ⟨⟨2, "ann@acme.io"⟩, some "swordfish", true, true, none⟩ with ha
  have htables : annsTables "ann@acme.io" = some s.shared.tables := congrArg (Option.map _) hs
  have hmem : ((annsTables "ann@acme.io").map fun t => decide (a ∈ t.accounts)) = some true := by
    decide +kernel
  rw [htables] at hmem
  have hmem' : a ∈ s.shared.tables.accounts := of_decide_eq_true (Option.some.inj hmem)
  rcases hlast a hmem' with hold | ⟨-, hfound⟩
  · exact absurd hold (by decide)
  · have h := fun email => hfound rfl "swordfish" (by unfold RightPassword; decide +kernel) email 9
    refine ⟨_, htables, a, hmem', rfl, (h _).view.mpr ?_, (h _).form.mpr ?_⟩
    · exact ⟨⟨by decide +kernel, by decide +kernel⟩, by decide +kernel⟩
    · exact ⟨by decide, ⟨by decide +kernel, by decide +kernel⟩, by decide +kernel⟩

/-- Invited as `Ann@Acme.io`, she is refused under that email by LoginView and
by the form, which finds her under no spelling. -/
theorem login_refuses_capitals :
    ((annsTables "Ann@Acme.io").map fun t => t.accounts.map fun a =>
        (a.email, a.password, a.isVerified))
      = some [("bob@acme.io", some "hunter2", true), ("Ann@acme.io", some "swordfish", true)] ∧
    ((annsTables "Ann@Acme.io").bind fun t =>
        (t.accountByEmail mailPlatform "Ann@Acme.io").map fun a => a.email) = some "Ann@acme.io" ∧
    ((annsTables "Ann@Acme.io").bind fun t =>
        t.loginView asciiTables asciiLogin "Ann@Acme.io" "swordfish" 9)
      = some (.failed .invalidCredentials) ∧
    ∀ email ∈ ["Ann@Acme.io", "Ann@acme.io", "ann@acme.io"],
      ((annsTables "Ann@Acme.io").bind fun t =>
          t.signIn asciiTables asciiLogin email "swordfish" 9)
        = some (.failed .invalidCredentials) := by
  decide +kernel

end Saasmint
