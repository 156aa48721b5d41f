/-
Saasmint/Users/AccountSteps.lean

What a step does to the accounts.  `AuthTables.Gives` says of a statement whom
it gives a credential to, and for whom it makes a one-time token; `AccountStep`
says of a step whom its request is about to let in after it, and on what ground
(`accountStatement_step`).
-/
import Saasmint.Users.Accounts
import Saasmint.Users.IdentityBinding

namespace Saasmint

variable {ι : Type*} {p : Platform} {t t' t'' : AuthTables} {now : Timestamp}

/-! ### Whom a statement gives what -/

/-- The one-time tokens, with their users. -/
def AuthTables.oneTimeTokens (t : AuthTables) : List (UUID × Token) :=
  (t.verificationTokens.map fun r => (r.user, r.token)) ++
    (t.resetTokens.map fun r => (r.user, r.token)) ++
    t.linkRequests.map fun r => (r.user, r.token)

/-- Accounts stay, with their emails; credentials are given to those in `O`, and
one-time tokens are made as `M` says. -/
structure AuthTables.Gives (t t' : AuthTables) (O : UUID → Prop) (M : UUID → Token → Prop) :
    Prop where
  nextKey : t.nextKey ≤ t'.nextKey
  accounts : ∀ a ∈ t.accounts, ∃ a' ∈ t'.accounts, a'.id = a.id ∧ a'.email = a.email
  passwords : ∀ a' ∈ t'.accounts,
    (∃ a ∈ t.accounts, a.id = a'.id ∧ (a'.password = a.password ∨ O a'.id)) ∨
      t.nextKey ≤ a'.id ∧ a'.id < t'.nextKey ∧ (a'.password = none ∨ O a'.id)
  pairs : ∀ rt' ∈ t'.refreshTokens,
    (∃ rt ∈ t.refreshTokens, rt.user = rt'.user ∧ rt.token = rt'.token) ∨ O rt'.user
  identities : ∀ x ∈ t'.socialAccounts, x ∈ t.socialAccounts ∨ O x.user
  tokens : ∀ x ∈ t'.oneTimeTokens, x ∈ t.oneTimeTokens ∨ M x.1 x.2

theorem AuthTables.mem_credentials {id : UUID} {c : Credential} :
    (id, c) ∈ t.credentials ↔
      (∃ a ∈ t.accounts, a.id = id ∧ ∃ raw, a.password = some raw ∧ c = .password raw) ∨
      (∃ rt ∈ t.refreshTokens, rt.user = id ∧
        (c = .refreshToken rt.token ∨ c = .accessToken rt.token)) ∨
      ∃ x ∈ t.socialAccounts, x.user = id ∧ c = .identity x.identity := by
  simp only [credentials, List.mem_append, List.mem_filterMap, List.mem_flatMap, List.mem_map,
    List.mem_cons, List.not_mem_nil, or_false, Option.map_eq_some_iff, Prod.mk.injEq, or_assoc]
  constructor
  · rintro (⟨a, ha, raw, hraw, hid, hc⟩ | ⟨rt, hrt, ⟨hid, hc⟩ | ⟨hid, hc⟩⟩ | ⟨x, hx, hid, hc⟩)
    · exact Or.inl ⟨a, ha, hid, raw, hraw, hc.symm⟩
    · exact Or.inr (Or.inl ⟨rt, hrt, hid.symm, Or.inl hc⟩)
    · exact Or.inr (Or.inl ⟨rt, hrt, hid.symm, Or.inr hc⟩)
    · exact Or.inr (Or.inr ⟨x, hx, hid, hc.symm⟩)
  · rintro (⟨a, ha, hid, raw, hraw, hc⟩ | ⟨rt, hrt, hid, hc | hc⟩ | ⟨x, hx, hid, hc⟩)
    · exact Or.inl ⟨a, ha, raw, hraw, hid, hc.symm⟩
    · exact Or.inr (Or.inl ⟨rt, hrt, Or.inl ⟨hid.symm, hc⟩⟩)
    · exact Or.inr (Or.inl ⟨rt, hrt, Or.inr ⟨hid.symm, hc⟩⟩)
    · exact Or.inr (Or.inr ⟨x, hx, hid, hc.symm⟩)

namespace AuthTables.Gives

variable {O : UUID → Prop} {M : UUID → Token → Prop}

theorem refl (t : AuthTables) : t.Gives t O M where
  nextKey := Nat.le_refl _
  accounts a ha := ⟨a, ha, rfl, rfl⟩
  passwords a ha := Or.inl ⟨a, ha, rfl, Or.inl rfl⟩
  pairs rt hrt := Or.inl ⟨rt, hrt, rfl, rfl⟩
  identities _ hx := Or.inl hx
  tokens _ hx := Or.inl hx

theorem trans (h : t.Gives t' O M) (h' : t'.Gives t'' O M) : t.Gives t'' O M where
  nextKey := Nat.le_trans h.nextKey h'.nextKey
  accounts a ha := by
    obtain ⟨a', ha', hid, hemail⟩ := h.accounts a ha
    obtain ⟨a'', ha'', hid', hemail'⟩ := h'.accounts a' ha'
    exact ⟨a'', ha'', hid'.trans hid, hemail'.trans hemail⟩
  passwords a'' ha'' := by
    rcases h'.passwords a'' ha'' with ⟨a', ha', hid', hpw'⟩ | ⟨hle, hlt, hpw'⟩
    · rcases h.passwords a' ha' with ⟨a, ha, hid, hpw⟩ | ⟨hle, hlt, hpw⟩
      · refine Or.inl ⟨a, ha, hid.trans hid', ?_⟩
        rcases hpw' with hpw' | hO
        · rcases hpw with hpw | hO
          · exact Or.inl (hpw'.trans hpw)
          · exact Or.inr (hid' ▸ hO)
        · exact Or.inr hO
      · refine Or.inr ⟨hid' ▸ hle, Nat.lt_of_lt_of_le (hid' ▸ hlt) h'.nextKey, ?_⟩
        rcases hpw' with hpw' | hO
        · rcases hpw with hpw | hO
          · exact Or.inl (hpw'.trans hpw)
          · exact Or.inr (hid' ▸ hO)
        · exact Or.inr hO
    · exact Or.inr ⟨Nat.le_trans h.nextKey hle, hlt, hpw'⟩
  pairs rt hrt := by
    rcases h'.pairs rt hrt with ⟨rt', hrt', huser', htoken'⟩ | hO
    · rcases h.pairs rt' hrt' with ⟨rt₀, hrt₀, huser, htoken⟩ | hO
      · exact Or.inl ⟨rt₀, hrt₀, huser.trans huser', htoken.trans htoken'⟩
      · exact Or.inr (huser' ▸ hO)
    · exact Or.inr hO
  identities x hx := (h'.identities x hx).elim (h.identities x) Or.inr
  tokens x hx := (h'.tokens x hx).elim (h.tokens x) Or.inr

/-- Whoever has a credential afterwards has had it before, or is given it. -/
theorem credentials (h : t.Gives t' O M) {id : UUID} {c : Credential}
    (hc : (id, c) ∈ t'.credentials) : (id, c) ∈ t.credentials ∨ O id := by
  rcases mem_credentials.mp hc with ⟨a', ha', rfl, raw, hraw, rfl⟩ | ⟨rt', hrt', rfl, hpair⟩ |
    ⟨x, hx, rfl, rfl⟩
  · rcases h.passwords a' ha' with ⟨a, ha, hid, hpw | hO⟩ | ⟨-, -, hpw | hO⟩
    · exact Or.inl (mem_credentials.mpr (Or.inl ⟨a, ha, hid, raw, hpw.symm.trans hraw, rfl⟩))
    · exact Or.inr hO
    · cases hpw.symm.trans hraw
    · exact Or.inr hO
  · rcases h.pairs rt' hrt' with ⟨rt, hrt, huser, htoken⟩ | hO
    · rw [← htoken] at hpair
      exact Or.inl (mem_credentials.mpr (Or.inr (Or.inl ⟨rt, hrt, huser, hpair⟩)))
    · exact Or.inr hO
  · rcases h.identities x hx with hx | hO
    · exact Or.inl (mem_credentials.mpr (Or.inr (Or.inr ⟨x, hx, rfl, rfl⟩)))
    · exact Or.inr hO

/-! #### Statements on refresh tokens -/

theorem createRefreshToken {user : UUID} (hO : O user) :
    t.Gives (t.createRefreshToken user now) O M :=
  { (refl t : t.Gives t O M) with
    pairs := fun rt hrt => by
      rcases mem_createRefreshToken.mp hrt with hrt | rfl
      · exact Or.inl ⟨rt, hrt, rfl, rfl⟩
      · exact Or.inr hO }

theorem revokeWhere (f : RefreshToken → Bool) : t.Gives (t.revokeWhere f now) O M :=
  { (refl t : t.Gives t O M) with
    pairs := fun rt hrt => by
      obtain ⟨r, hr, htoken, huser, -⟩ := later_of_revokeWhere hrt
      exact Or.inl ⟨r, hr, huser.symm, htoken.symm⟩ }

theorem saveRevokedAt (token : Token) : t.Gives (t.saveRevokedAt token now) O M :=
  { (refl t : t.Gives t O M) with
    pairs := fun rt hrt => by
      obtain ⟨r, hr, ⟨htoken, huser, -⟩, -⟩ := later_of_saveRevokedAt hrt
      exact Or.inl ⟨r, hr, huser.symm, htoken.symm⟩ }

/-! #### Statements on accounts -/

/-- A save keeps id and email, and the password of whom it does not let in. -/
theorem saveAccount {id : UUID} {f : Account → Account} (hid : ∀ a, (f a).id = a.id)
    (hemail : ∀ a, (f a).email = a.email) (hpassword : (∀ a, (f a).password = a.password) ∨ O id) :
    t.Gives (t.saveAccount id f) O M :=
  { (refl t : t.Gives t O M) with
    accounts := (t.grows_saveAccount id hid hemail).accounts
    passwords := fun a' ha' => by
      left
      rcases Table.mem_update.mp ha' with ⟨ha', -⟩ | ⟨a, ha, rfl, rfl⟩
      · exact ⟨a', ha', rfl, Or.inl rfl⟩
      · refine ⟨a, ha, (hid a).symm, ?_⟩
        rcases hpassword with hpw | hO
        · exact Or.inl (hpw a)
        · rw [hid a]
          exact Or.inr hO }

theorem markVerified (user : Account) : t.Gives (t.markVerified user) O M := by
  show t.Gives (if user.isVerified then t else _) O M
  split
  · exact refl t
  · apply saveAccount
    · exact fun _ => rfl
    · exact fun _ => rfl
    · exact Or.inl fun _ => rfl

theorem insertAccount {a : Account} (h : t.insertAccount p a = some t') (hid : a.id = t.nextKey)
    (hpassword : a.password = none ∨ O a.id) : t.Gives t' O M := by
  unfold AuthTables.insertAccount at h
  split at h
  · cases h
  · obtain rfl := Option.some.inj h
    exact { (refl t : t.Gives t O M) with
      nextKey := Nat.le_succ _
      accounts := fun b hb => ⟨b, List.mem_append_left _ hb, rfl, rfl⟩
      passwords := fun b hb => by
        rcases List.mem_append.mp hb with hb | hb
        · exact Or.inl ⟨b, hb, rfl, Or.inl rfl⟩
        · obtain rfl := List.mem_singleton.mp hb
          exact Or.inr ⟨Nat.le_of_eq hid.symm, by rw [hid]; exact Nat.lt_succ_self _, hpassword⟩ }

theorem addSocialAccount {x : SocialAccount} (hO : O x.user) : t.Gives (t.addSocialAccount x) O M :=
  { (refl t : t.Gives t O M) with
    identities := fun y hy => by
      rcases List.mem_append.mp hy with hy | hy
      · exact Or.inl hy
      · rw [List.mem_singleton.mp hy]
        exact Or.inr hO }

theorem finish (l : Link) : t.Gives (l.finish t) O M := by
  show t.Gives (if l.confirm then _ else t) O M
  split
  · exact markVerified l.user
  · exact refl t

/-! #### Statements on one-time tokens -/

/-- An UPDATE of one-time tokens keeps tokens and users. -/
theorem map_oneTimeToken {rows : List OneTimeToken} {f : OneTimeToken → OneTimeToken}
    (hf : ∀ r, (f r).user = r.user ∧ (f r).token = r.token) :
    ((rows.map f).map fun r => (r.user, r.token)) = rows.map fun r => (r.user, r.token) := by
  rw [List.map_map]
  apply List.map_congr_left
  intro r _
  show ((f r).user, (f r).token) = _
  rw [(hf r).1, (hf r).2]

theorem consume_map {rows rows' : List OneTimeToken} {token : Token}
    (h : consume rows token now = some rows') :
    (rows'.map fun r => (r.user, r.token)) = rows.map fun r => (r.user, r.token) := by
  unfold Saasmint.consume at h
  split at h
  · obtain rfl := Option.some.inj h
    apply map_oneTimeToken
    intro r
    split <;> exact ⟨rfl, rfl⟩
  · cases h

/-- The tables of one-time tokens may be rewritten. -/
theorem rewriteTokens {v r : List OneTimeToken} {l : List SocialLinkRequest}
    (hv : (v.map fun x => (x.user, x.token)) = t.verificationTokens.map fun x => (x.user, x.token))
    (hr : (r.map fun x => (x.user, x.token)) = t.resetTokens.map fun x => (x.user, x.token))
    (hl : (l.map fun x => (x.user, x.token)) = t.linkRequests.map fun x => (x.user, x.token)) :
    t.Gives { t with verificationTokens := v, resetTokens := r, linkRequests := l } O M :=
  { (refl t : t.Gives t O M) with
    tokens := fun x hx => by
      left
      show x ∈ t.oneTimeTokens
      have hx' : x ∈ (v.map fun x => (x.user, x.token)) ++ (r.map fun x => (x.user, x.token)) ++
        l.map fun x => (x.user, x.token) := hx
      rw [hv, hr, hl] at hx'
      exact hx' }

theorem invalidateVerificationTokens (user : UUID) :
    t.Gives (t.invalidateVerificationTokens user now) O M := by
  apply rewriteTokens
  · apply map_oneTimeToken
    intro r
    split <;> exact ⟨rfl, rfl⟩
  · rfl
  · rfl

theorem map_linkRequests {f : SocialLinkRequest → SocialLinkRequest}
    (hf : ∀ r, (f r).user = r.user ∧ (f r).token = r.token) :
    t.Gives { t with linkRequests := t.linkRequests.map f } O M := by
  apply rewriteTokens
  · rfl
  · rfl
  · rw [List.map_map]
    apply List.map_congr_left
    intro r _
    show ((f r).user, (f r).token) = _
    rw [(hf r).1, (hf r).2]

theorem invalidateLinkRequests (user : UUID) : t.Gives (t.invalidateLinkRequests user now) O M := by
  apply map_linkRequests
  intro r
  split <;> exact ⟨rfl, rfl⟩

theorem consumeLinkRequest {token : Token} (h : t.consumeLinkRequest token now = some t') :
    t.Gives t' O M := by
  unfold AuthTables.consumeLinkRequest at h
  split at h
  · obtain rfl := Option.some.inj h
    apply map_linkRequests
    intro r
    split <;> exact ⟨rfl, rfl⟩
  · cases h

theorem createVerificationToken {user : UUID} (hM : M user t.nextToken) :
    t.Gives (t.createVerificationToken user now) O M :=
  { (refl t : t.Gives t O M) with
    tokens := fun x hx => by
      simp only [oneTimeTokens, AuthTables.createVerificationToken, List.map_append,
        List.mem_append,
        List.map_cons, List.map_nil, List.mem_singleton] at hx ⊢
      rcases hx with ((hx | rfl) | hx) | hx
      · exact Or.inl (Or.inl (Or.inl hx))
      · exact Or.inr hM
      · exact Or.inl (Or.inl (Or.inr hx))
      · exact Or.inl (Or.inr hx) }

theorem createResetToken {user : UUID} (hM : M user t.nextToken) :
    t.Gives (t.createResetToken user now) O M :=
  { (refl t : t.Gives t O M) with
    tokens := fun x hx => by
      simp only [oneTimeTokens, AuthTables.createResetToken, List.map_append, List.mem_append,
        List.map_cons, List.map_nil, List.mem_singleton] at hx ⊢
      rcases hx with (hx | (hx | rfl)) | hx
      · exact Or.inl (Or.inl (Or.inl hx))
      · exact Or.inl (Or.inl (Or.inr hx))
      · exact Or.inr hM
      · exact Or.inl (Or.inr hx) }

theorem createLinkRequest {user : UUID} {identity : ProviderIdentity} (hM : M user t.nextToken) :
    t.Gives (t.createLinkRequest user identity now) O M :=
  { (refl t : t.Gives t O M) with
    tokens := fun x hx => by
      simp only [oneTimeTokens, AuthTables.createLinkRequest, List.map_append, List.mem_append,
        List.map_cons, List.map_nil, List.mem_singleton] at hx ⊢
      rcases hx with (hx | hx) | (hx | rfl)
      · exact Or.inl (Or.inl (Or.inl hx))
      · exact Or.inl (Or.inl (Or.inr hx))
      · exact Or.inl (Or.inr hx)
      · exact Or.inr hM }

end AuthTables.Gives

/-! ### Whom a request is about to let in -/

def SessionCall.opening : SessionCall → Option UUID
  | checked rt | rotated rt => some rt.user
  | authenticated user _ | changed user _ _ | revoked user _ _ => some user.id
  | _ => none

def SocialCall.opening : SocialCall → Option UUID
  | looking l | inserting l | conflicted l | owned l | linked l => some l.user.id
  | consumed _ user => some user.id
  | _ => none

namespace AccountCall

def opening : AccountCall → Option UUID
  | session κ => κ.opening
  | social κ => κ.opening
  | registered user | welcomed user _ | consumed _ user | activated user => some user.id
  | _ => none

/-- The account that a mail is about to be sent to. -/
def addressee : AccountCall → Option Account
  | registered user | addressed user | invalidated user
  | social (.collided user) | social (.invalidated user) => some user
  | _ => none

/-- The one-time token that is about to be consumed, and its user. -/
def foundToken : AccountCall → Option (UUID × Token)
  | found row user | session (.found row user) => some (user.id, row.token)
  | social (.found row user) => some (user.id, row.token)
  | _ => none

/-- The request waits for nothing that the invariant is about. -/
structure Closed (κ : AccountCall) : Prop where
  opening : κ.opening = none
  addressee : κ.addressee = none
  foundToken : κ.foundToken = none
  invitee : κ.invitee = none

end AccountCall

variable {r : AccountRequest} {κ κ' : AccountCall}

/-- The step is of a request that is about to let `id` in, or `id` is an account
that it creates for no invitation. -/
def MayOpen (t t' : AuthTables) (κ κ' : AccountCall) (id : UUID) : Prop :=
  κ.opening = some id ∨ id = t.nextKey ∧ t.nextKey < t'.nextKey ∧ κ'.invitee = none

/-- The step sends the token to the account. -/
def Sends (t t' : AuthTables) (κ κ' : AccountCall) (id : UUID) (token : Token) : Prop :=
  ∃ user : Account, user.id = id ∧ mailOf t κ κ' = some (user.email, token) ∧
    (κ.addressee = some user ∨ user ∈ t'.accounts)

/-- On what ground a request is about to let `id` in after a step. -/
inductive Ground (p : Platform) (r : AccountRequest) (t t' : AuthTables) (κ κ' : AccountCall)
    (id : UUID) : Prop
  | before (h : MayOpen t t' κ κ' id)
  | mailbox (token : Token) (hfound : κ.foundToken = some (id, token))
      (hconsumed : consumedBy κ κ' = some token)
  | provider (provider : String) (info : OAuthUserInfo) (hr : r = .social (.callback provider info))
      (hverified : info.emailVerified = true)
      (hemail : ∃ a ∈ t.accounts, a.id = id ∧ p.SameEmail a.email info.email)
  | credential (c : Credential) (hr : r.credential = some c) (hc : (id, c) ∈ t.credentials)

/-- What a step does, by whom its request lets in. -/
structure AccountStep (p : Platform) (r : AccountRequest) (t t' : AuthTables)
    (κ κ' : AccountCall) : Prop where
  gives : t.Gives t' (MayOpen t t' κ κ') (Sends t t' κ κ')
  password : ∀ x, passwordSet r κ κ' = some x → MayOpen t t' κ κ' x.1
  opening : ∀ id, κ'.opening = some id → Ground p r t t' κ κ' id
  addressee : ∀ user, κ'.addressee = some user → κ.addressee = some user ∨ user ∈ t'.accounts
  foundToken : ∀ id token, κ'.foundToken = some (id, token) →
    r.oneTimeToken = some token ∧ (id, token) ∈ t.oneTimeTokens
  invitee : ∀ id, κ'.invitee = some id → id = t.nextKey ∧ t.nextKey < t'.nextKey

/-- A password is set for whom the request is about to let in, or registers. -/
theorem passwordSet_cases {x : UUID × String} (h : passwordSet r κ κ' = some x) :
    κ.opening = some x.1 ∨ ∃ user, κ' = .registered user ∧ x.1 = user.id := by
  unfold passwordSet at h
  split at h
  · obtain rfl := Option.some.inj h
    exact Or.inr ⟨_, rfl, rfl⟩
  · split at h
    · cases h
    · obtain rfl := Option.some.inj h
      exact Or.inl rfl
  · obtain rfl := Option.some.inj h
    exact Or.inl rfl
  · obtain rfl := Option.some.inj h
    exact Or.inl rfl
  · cases h

namespace AccountStep

/-- A step after which the request is about to let somebody in. -/
theorem lets {id : UUID} (hg : t.Gives t' (MayOpen t t' κ κ') (Sends t t' κ κ'))
    (hopening : κ'.opening = some id) (hground : Ground p r t t' κ κ' id)
    (haddressee : κ'.addressee = none) (hfound : κ'.foundToken = none)
    (hinvitee : κ'.invitee = none) : AccountStep p r t t' κ κ' where
  gives := hg
  password x hx := by
    rcases passwordSet_cases hx with h | ⟨user, rfl, -⟩
    · exact Or.inl h
    · cases haddressee
  opening id' h := by
    obtain rfl := Option.some.inj (hopening.symm.trans h)
    exact hground
  addressee user h := by cases haddressee.symm.trans h
  foundToken id token h := by cases hfound.symm.trans h
  invitee id h := by cases hinvitee.symm.trans h

theorem keeps {id : UUID} (hg : t.Gives t' (MayOpen t t' κ κ') (Sends t t' κ κ'))
    (hκ : κ.opening = some id) (hopening : κ'.opening = some id)
    (haddressee : κ'.addressee = none) (hfound : κ'.foundToken = none)
    (hinvitee : κ'.invitee = none) : AccountStep p r t t' κ κ' :=
  lets hg hopening (.before (Or.inl hκ)) haddressee hfound hinvitee

theorem closes (hg : t.Gives t' (MayOpen t t' κ κ') (Sends t t' κ κ')) (hκ' : κ'.Closed) :
    AccountStep p r t t' κ κ' where
  gives := hg
  password x hx := by
    rcases passwordSet_cases hx with h | ⟨user, rfl, -⟩
    · exact Or.inl h
    · cases hκ'.addressee
  opening id h := by cases hκ'.opening.symm.trans h
  addressee user h := by cases hκ'.addressee.symm.trans h
  foundToken id token h := by cases hκ'.foundToken.symm.trans h
  invitee id h := by cases hκ'.invitee.symm.trans h

/-- A step that finds a one-time token. -/
theorem finds {id : UUID} {token : Token} (hopening : κ'.opening = none)
    (haddressee : κ'.addressee = none) (hfound : κ'.foundToken = some (id, token))
    (hinvitee : κ'.invitee = none) (hr : r.oneTimeToken = some token)
    (htoken : (id, token) ∈ t.oneTimeTokens) : AccountStep p r t t κ κ' where
  gives := .refl t
  password x hx := by
    rcases passwordSet_cases hx with h | ⟨user, rfl, -⟩
    · exact Or.inl h
    · cases haddressee
  opening id h := by cases hopening.symm.trans h
  addressee user h := by cases haddressee.symm.trans h
  foundToken id' token' h := by
    obtain ⟨rfl, rfl⟩ := Prod.mk.inj (Option.some.inj (hfound.symm.trans h))
    exact ⟨hr, htoken⟩
  invitee id h := by cases hinvitee.symm.trans h

end AccountStep

theorem AccountCall.closed_failed (e : AuthError) : (failed e).Closed := ⟨rfl, rfl, rfl, rfl⟩

theorem SessionCall.closed_failed (e : AuthError) : (AccountCall.session (.failed e)).Closed :=
  ⟨rfl, rfl, rfl, rfl⟩

/-! ### The endpoints on sessions -/

section Sessions

variable {i : ι} {db db' : SessionDb ι} {input : SessionInput}

theorem refresh_step {token : Token} {κ κ' : SessionCall}
    (h : sessionAct (fun _ => .refresh token) i db κ input = some (db', κ')) :
    AccountStep p (.refresh token) db.tables db'.tables (.session κ) (.session κ') := by
  cases κ with
  | start =>
    obtain ⟨rfl, rfl⟩ := Prod.mk.inj (Option.some.inj h)
    show AccountStep p _ db.tables db.tables _ _
    unfold AuthTables.checkRefreshToken
    split
    · exact .closes (.refl _) (SessionCall.closed_failed _)
    · rename_i rt hfind
      obtain ⟨hrt, htoken⟩ := AuthTables.refreshToken_eq_some hfind
      split
      · exact .closes (.refl _) ⟨rfl, rfl, rfl, rfl⟩
      · split
        · exact .closes (.refl _) (SessionCall.closed_failed _)
        · split
          · split
            · apply AccountStep.lets (.refl _) rfl _ rfl rfl rfl
              refine .credential (.refreshToken token) rfl ?_
              exact AuthTables.mem_credentials.mpr
                (Or.inr (Or.inl ⟨rt, hrt, rfl, Or.inl (by rw [htoken])⟩))
            · exact .closes (.refl _) (SessionCall.closed_failed _)
          · exact .closes (.refl _) (SessionCall.closed_failed _)
  | reused user =>
    obtain ⟨rfl, rfl⟩ := Prod.mk.inj (Option.some.inj h)
    exact .closes (.revokeWhere _) (SessionCall.closed_failed _)
  | checked rt =>
    obtain ⟨rfl, rfl⟩ := Prod.mk.inj (Option.some.inj h)
    exact .keeps (.saveRevokedAt _) rfl rfl rfl rfl rfl
  | rotated rt =>
    obtain ⟨rfl, rfl⟩ := Prod.mk.inj (Option.some.inj h)
    exact .closes (.createRefreshToken (Or.inl rfl)) ⟨rfl, rfl, rfl, rfl⟩
  | _ => cases h

theorem logout_step {token : Token} {κ κ' : SessionCall}
    (h : sessionAct (fun _ => .logout token) i db κ input = some (db', κ')) :
    AccountStep p (.logout token) db.tables db'.tables (.session κ) (.session κ') := by
  cases κ with
  | start =>
    obtain ⟨rfl, rfl⟩ := Prod.mk.inj (Option.some.inj h)
    exact .closes (.revokeWhere _) ⟨rfl, rfl, rfl, rfl⟩
  | _ => cases h

theorem login_step {email password : String} {κ κ' : SessionCall}
    (h : sessionAct (fun _ => .login email password) i db κ input = some (db', κ')) :
    AccountStep p (.login email password) db.tables db'.tables (.session κ) (.session κ') := by
  cases κ with
  | start =>
    obtain ⟨rfl, rfl⟩ := Prod.mk.inj (Option.some.inj h)
    show AccountStep p _ db.tables db.tables _ _
    unfold AuthTables.authenticate
    split
    · exact .closes (.refl _) (SessionCall.closed_failed _)
    · rename_i user hfind
      split
      · rename_i hok
        have hpassword : user.password = some password := by
          simp only [Bool.and_eq_true, Account.checkPassword, decide_eq_true_eq] at hok
          exact hok.1.1
        apply AccountStep.lets (.refl _) rfl _ rfl rfl rfl
        refine .credential (.password password) rfl ?_
        exact AuthTables.mem_credentials.mpr
          (Or.inl ⟨user, List.mem_of_find?_eq_some hfind, rfl, password, hpassword, rfl⟩)
      · exact .closes (.refl _) (SessionCall.closed_failed _)
  | authenticated user n =>
    obtain ⟨rfl, rfl⟩ := Prod.mk.inj (Option.some.inj h)
    exact .closes (.createRefreshToken (Or.inl rfl)) ⟨rfl, rfl, rfl, rfl⟩
  | _ => cases h

/-- The save of a reset or a change. -/
theorem AuthTables.Gives.savePassword {O : UUID → Prop} {M : UUID → Token → Prop} {user : Account}
    {password : String} {verify : Bool} (hO : O user.id) :
    t.Gives (t.savePassword user password verify now) O M := by
  apply saveAccount
  · exact fun _ => rfl
  · exact fun _ => rfl
  · exact Or.inr hO

/-- After the save, a reset and a change are the same. -/
theorem changed_step {sr : SessionRequest} {κ κ' : SessionCall} {user : Account} {n m : Nat}
    (hκ : κ = .changed user n m ∨ κ = .revoked user n m)
    (h : sessionAct (fun _ => sr) i db κ input = some (db', κ')) :
    AccountStep p r db.tables db'.tables (.session κ) (.session κ') := by
  rcases hκ with rfl | rfl
  · cases sr with
    | resetPassword _ _ | changePassword _ _ _ =>
      obtain ⟨rfl, rfl⟩ := Prod.mk.inj (Option.some.inj h)
      exact .keeps (.revokeWhere _) rfl rfl rfl rfl rfl
    | _ => cases h
  · cases sr with
    | resetPassword _ _ | changePassword _ _ _ =>
      obtain ⟨rfl, rfl⟩ := Prod.mk.inj (Option.some.inj h)
      exact .closes (.createRefreshToken (Or.inl rfl)) ⟨rfl, rfl, rfl, rfl⟩
    | _ => cases h

theorem AuthTables.mem_oneTimeTokens {x : UUID × Token} :
    x ∈ t.oneTimeTokens ↔
      (∃ row ∈ t.verificationTokens, (row.user, row.token) = x) ∨
      (∃ row ∈ t.resetTokens, (row.user, row.token) = x) ∨
      ∃ row ∈ t.linkRequests, (row.user, row.token) = x := by
  simp only [oneTimeTokens, List.mem_append, List.mem_map, or_assoc]

theorem resetPassword_step {token : Token} {password : String} {κ κ' : SessionCall}
    (h : sessionAct (fun _ => .resetPassword token password) i db κ input = some (db', κ')) :
    AccountStep p (.resetPassword token password) db.tables db'.tables (.session κ)
    (.session κ') := by
  cases κ with
  | start =>
    obtain ⟨rfl, rfl⟩ := Prod.mk.inj (Option.some.inj h)
    show AccountStep p _ db.tables db.tables _ _
    unfold AuthTables.checkResetToken
    split
    · exact .closes (.refl _) (SessionCall.closed_failed _)
    · rename_i row hfind
      have hrow := List.mem_of_find?_eq_some hfind
      have htoken : row.token = token := by simpa using List.find?_some hfind
      split
      · rename_i user _ huser
        apply AccountStep.finds rfl rfl rfl rfl
        · rw [htoken]
          rfl
        · rw [(AuthTables.account_eq_some huser).2]
          exact AuthTables.mem_oneTimeTokens.mpr (Or.inr (Or.inl ⟨row, hrow, rfl⟩))
      · exact .closes (.refl _) (SessionCall.closed_failed _)
      · exact .closes (.refl _) (SessionCall.closed_failed _)
  | found row user =>
    obtain ⟨rfl, rfl⟩ := Prod.mk.inj (Option.some.inj h)
    show AccountStep p _ db.tables (db.tables.consumeResetToken row user input.now db.clock).1 _ _
    unfold AuthTables.consumeResetToken
    split
    · exact .closes (.refl _) (SessionCall.closed_failed _)
    · rename_i rows hconsume
      have hg : ∀ {O M}, db.tables.Gives { db.tables with resetTokens := rows } O M :=
        .rewriteTokens rfl (AuthTables.Gives.consume_map hconsume) rfl
      dsimp only
      split
      · exact .lets hg rfl (.mailbox row.token rfl rfl) rfl rfl rfl
      · exact .closes hg (SessionCall.closed_failed _)
  | authenticated user n =>
    obtain ⟨rfl, rfl⟩ := Prod.mk.inj (Option.some.inj h)
    exact .keeps (.savePassword (Or.inl rfl)) rfl rfl rfl rfl rfl
  | changed user n m => exact changed_step (Or.inl rfl) h
  | revoked user n m => exact changed_step (Or.inr rfl) h
  | _ => cases h

theorem changePassword_step {sub : UUID} {accessToken : Token} {current password : String}
    {κ κ' : SessionCall}
    (hverified :
      (AccountRequest.changePassword sub accessToken current password).verified db.tables κ
      = true)
    (h : sessionAct (fun _ => .changePassword sub current password) i db κ input = some (db', κ')) :
    AccountStep p (.changePassword sub accessToken current password) db.tables db'.tables
      (.session κ) (.session κ') := by
  cases κ with
  | start =>
    obtain ⟨rfl, rfl⟩ := Prod.mk.inj (Option.some.inj h)
    show AccountStep p _ db.tables db.tables _ _
    unfold AuthTables.checkCurrentPassword
    split
    · exact .closes (.refl _) (SessionCall.closed_failed _)
    · rename_i user hfind
      -- the cache or the table has found the user of the access token
      have hid : user.id = sub := by
        rcases Option.or_eq_some_iff.mp hfind with hcached | ⟨-, hrow⟩
        · simpa using (Option.filter_eq_some_iff.mp hcached).2
        · exact (AuthTables.account_eq_some (Option.filter_eq_some_iff.mp hrow).1).2
      obtain ⟨rt, hrt, hpair⟩ := List.any_eq_true.mp hverified
      obtain ⟨huser, htoken⟩ : rt.user = sub ∧ rt.token = accessToken := by simpa using hpair
      split
      · apply AccountStep.lets (.refl _) rfl _ rfl rfl rfl
        refine .credential (.accessToken accessToken) rfl ?_
        rw [hid]
        exact AuthTables.mem_credentials.mpr
          (Or.inr (Or.inl ⟨rt, hrt, huser, Or.inr (by rw [htoken])⟩))
      · exact .closes (.refl _) (SessionCall.closed_failed _)
  | authenticated user n =>
    obtain ⟨rfl, rfl⟩ := Prod.mk.inj (Option.some.inj h)
    exact .keeps (.savePassword (Or.inl rfl)) rfl rfl rfl rfl rfl
  | changed user n m => exact changed_step (Or.inl rfl) h
  | revoked user n m => exact changed_step (Or.inr rfl) h
  | _ => cases h

theorem AccountStep.of_sessionAct {sr : SessionRequest} {κ κ' : SessionCall}
    (hr : r.session = some sr) (hverified : r.verified db.tables κ = true)
    (h : sessionAct (fun _ => sr) i db κ input = some (db', κ')) :
    AccountStep p r db.tables db'.tables (.session κ) (.session κ') := by
  cases r with
  | refresh token =>
    obtain rfl := Option.some.inj hr
    exact refresh_step h
  | logout token =>
    obtain rfl := Option.some.inj hr
    exact logout_step h
  | login email password =>
    obtain rfl := Option.some.inj hr
    exact login_step h
  | resetPassword token password =>
    obtain rfl := Option.some.inj hr
    exact resetPassword_step h
  | changePassword sub accessToken current password =>
    obtain rfl := Option.some.inj hr
    exact changePassword_step hverified h
  | _ => cases hr

end Sessions

/-! ### The endpoints of a provider -/

theorem SocialCall.closed_of_quiet {κ : SocialCall} (h : κ.Quiet = true) :
    (AccountCall.social κ).Closed := by
  cases κ with
  | unknown | taken | linkSent | failed _ => exact ⟨rfl, rfl, rfl, rfl⟩
  | start | unregistered | looking _ | inserting _ | conflicted _ | owned _ | linked _ | collided _
  | invalidated _ | found _ _ | consumed _ _ | signedIn _ _ => cases h

theorem AuthTables.insertAccount_nextKey {a : Account} (h : t.insertAccount p a = some t') :
    t.nextKey < t'.nextKey := by
  unfold insertAccount at h
  split at h
  · cases h
  · obtain rfl := Option.some.inj h
    exact Nat.lt_succ_self _

theorem AccountStep.of_socialStep {sr : SocialRequest} {κ κ' : SocialCall}
    (h : SocialStep p sr now t t' κ κ') : AccountStep p (.social sr) t t' (.social κ)
    (.social κ') := by
  cases h with
  | read ht hκ' =>
    subst ht
    exact .closes (.refl _) (SocialCall.closed_of_quiet hκ')
  | verified provider info _ _ ht hκ' =>
    subst ht hκ'
    exact .closes (.refl _) ⟨rfl, rfl, rfl, rfl⟩
  | known provider info user hr hx ht hκ' =>
    subst hr ht hκ'
    apply AccountStep.lets (.refl _) rfl _ rfl rfl rfl
    refine .credential (.identity (info.identity provider)) rfl ?_
    exact AuthTables.mem_credentials.mpr (Or.inr (Or.inr ⟨_, hx, rfl, rfl⟩))
  | trust provider info user hr hverified huser hemail ht hκ' =>
    subst hr ht hκ'
    apply AccountStep.lets (.refl _) rfl _ rfl rfl rfl
    exact .provider provider info rfl hverified ⟨user, huser, rfl, Or.inl hemail⟩
  | create provider info t₁ hr hκ _ hinsert ht hκ' =>
    subst hr hκ hκ'
    have hnext := AuthTables.insertAccount_nextKey hinsert
    have hg : ∀ {O M}, t.Gives t₁ O M := fun {O M} =>
      AuthTables.Gives.insertAccount hinsert rfl (Or.inl rfl)
    rcases ht with ⟨rfl, -⟩ | rfl
    · exact .lets hg rfl (.before (Or.inr ⟨rfl, hnext, rfl⟩)) rfl rfl rfl
    · exact .lets (hg.trans (.addSocialAccount (Or.inr ⟨rfl, hnext, rfl⟩))) rfl
        (.before (Or.inr ⟨rfl, hnext, rfl⟩)) rfl rfl rfl
  | find l hκ _ ht hκ' =>
    subst ht hκ'
    rcases hκ with rfl | rfl
    · exact .keeps (.finish l) rfl rfl rfl rfl rfl
    · exact .keeps (.finish l) rfl rfl rfl rfl rfl
  | miss l hκ ht hκ' | conflict l hκ _ ht hκ' =>
    subst hκ ht hκ'
    exact .keeps (.refl _) rfl rfl rfl rfl rfl
  | insert l hκ ht hκ' =>
    subst hκ ht hκ'
    exact .keeps (.trans (.addSocialAccount (Or.inl rfl)) (.finish l)) rfl rfl rfl rfl rfl
  | raise l _ _ ht hκ' =>
    subst ht hκ'
    exact .closes (.refl _) ⟨rfl, rfl, rfl, rfl⟩
  | finish l hκ ht hκ' =>
    subst hκ ht hκ'
    exact .keeps (.finish l) rfl rfl rfl rfl rfl
  | signIn l hκ _ ht hκ' =>
    subst hκ ht hκ'
    exact .closes (.createRefreshToken (Or.inl rfl)) ⟨rfl, rfl, rfl, rfl⟩
  | collide user huser ht hκ' =>
    subst ht hκ'
    exact {
      gives := .refl _
      password := nofun
      opening := nofun
      addressee := by
        rintro _ ⟨⟩
        exact Or.inr huser
      foundToken := nofun
      invitee := nofun }
  | invalidate user hκ ht hκ' =>
    subst hκ ht hκ'
    exact {
      gives := .invalidateLinkRequests _
      password := nofun
      opening := nofun
      addressee := fun _ h => Or.inl h
      foundToken := nofun
      invitee := nofun }
  | request user identity hκ ht hκ' =>
    subst hκ ht hκ'
    exact .closes (.createLinkRequest ⟨user, rfl, rfl, Or.inl rfl⟩) ⟨rfl, rfl, rfl, rfl⟩
  | check token row user hr hrow htoken huser ht hκ' =>
    subst hr ht hκ'
    apply AccountStep.finds rfl rfl rfl rfl
    · rw [htoken]
      rfl
    · rw [huser]
      exact AuthTables.mem_oneTimeTokens.mpr (Or.inr (Or.inr ⟨row, hrow, rfl⟩))
  | consume row user hκ ht hκ' =>
    subst hκ
    rcases hκ' with rfl | hq
    · exact .lets (.consumeLinkRequest ht) rfl (.mailbox row.token rfl rfl) rfl rfl rfl
    · exact .closes (.consumeLinkRequest ht) (SocialCall.closed_of_quiet hq)
  | unbound row user hκ ht hκ' | own row user hκ _ ht hκ' =>
    subst hκ ht hκ'
    exact .keeps (.refl _) rfl rfl rfl rfl rfl

/-! ### The endpoints on registration and mail -/

/-- A step that finds an account to send a mail to. -/
theorem AccountStep.addresses {user : Account} (hκ' : κ' = .addressed user)
    (huser : user ∈ t.accounts) : AccountStep p r t t κ κ' := by
  subst hκ'
  exact {
    gives := .refl t
    password := fun x hx => by
      rcases passwordSet_cases hx with h | ⟨_, h, -⟩
      · exact Or.inl h
      · cases h
    opening := nofun
    addressee := by
      rintro _ ⟨⟩
      exact Or.inr huser
    foundToken := nofun
    invitee := nofun }

theorem toVerify_step {email : String} :
    AccountStep p r t t κ (t.toVerify p email) := by
  unfold AuthTables.toVerify
  split
  · exact .closes (.refl t) ⟨rfl, rfl, rfl, rfl⟩
  · rename_i user hfilter
    apply AccountStep.addresses rfl
    have huser : user ∈ t.accounts.filter fun a =>
        p.upper a.email = p.upper email && a.isActive && !a.isVerified := by
      rw [hfilter]
      exact List.mem_singleton.mpr rfl
    exact (List.mem_filter.mp huser).1
  · exact .closes (.refl t) (AccountCall.closed_failed _)

theorem toReset_step {email : String} : AccountStep p r t t κ (t.toReset p email) := by
  unfold AuthTables.toReset
  split
  · rename_i user hfind
    exact .addresses rfl (List.mem_of_find?_eq_some hfind)
  · exact .closes (.refl t) ⟨rfl, rfl, rfl, rfl⟩

theorem admitInvitee_step {email : String} :
    AccountStep p (.acceptInvitation email) t (t.admitInvitee p email now).1 .unregistered
      (t.admitInvitee p email now).2 := by
  unfold AuthTables.admitInvitee
  dsimp only
  split
  · exact .closes (.refl t) (AccountCall.closed_failed _)
  · rename_i t₁ hinsert
    have hnext := AuthTables.insertAccount_nextKey hinsert
    have hmem := (AuthTables.socialAccounts_insertAccount hinsert).2
    exact {
      gives := (AuthTables.Gives.insertAccount hinsert rfl (Or.inl rfl)).trans
        (.createVerificationToken ⟨_, rfl, rfl, Or.inr hmem⟩)
      password := nofun
      opening := nofun
      addressee := nofun
      foundToken := nofun
      invitee := by
        rintro _ ⟨⟩
        exact ⟨rfl, hnext⟩ }

theorem registerUser_step {email password : String} :
    AccountStep p (.register email password) t (t.registerUser p email password).1 .unregistered
      (t.registerUser p email password).2 := by
  unfold AuthTables.registerUser
  dsimp only
  split
  · exact .closes (.refl t) (AccountCall.closed_failed _)
  · rename_i t₁ hinsert
    have hnew : ∀ {κ'}, κ'.invitee = none → MayOpen t t₁ .unregistered κ' t.nextKey := fun h =>
      Or.inr ⟨rfl, AuthTables.insertAccount_nextKey hinsert, h⟩
    exact {
      gives := .insertAccount hinsert rfl (Or.inr (hnew rfl))
      password := by
        rintro _ ⟨⟩
        exact hnew rfl
      opening := by
        rintro _ ⟨⟩
        exact .before (hnew rfl)
      addressee := by
        rintro _ ⟨⟩
        exact Or.inr (AuthTables.socialAccounts_insertAccount hinsert).2
      foundToken := nofun
      invitee := nofun }

theorem AuthTables.oneTimeToken_eq_ok {rows : List OneTimeToken} {token : Token}
    {row : OneTimeToken} {user : Account} (h : t.oneTimeToken rows token now = .ok (row, user)) :
    row ∈ rows ∧ row.token = token ∧ user.id = row.user := by
  unfold oneTimeToken at h
  split at h
  · cases h
  · rename_i row' hfind
    split at h
    · rename_i user' _ huser
      obtain ⟨rfl, rfl⟩ := Prod.mk.inj (Except.ok.inj h)
      exact ⟨List.mem_of_find?_eq_some hfind, by simpa using List.find?_some hfind,
        (account_eq_some huser).2⟩
    · cases h
    · cases h

theorem checkVerificationToken_step {token : Token} {password : Option String} :
    AccountStep p (.verifyEmail token password) t t κ (t.checkVerificationToken token now) := by
  unfold AuthTables.checkVerificationToken
  split
  · rename_i row user hok
    obtain ⟨hrow, htoken, huser⟩ := AuthTables.oneTimeToken_eq_ok hok
    apply AccountStep.finds rfl rfl rfl rfl
    · rw [htoken]
      rfl
    · rw [huser]
      exact AuthTables.mem_oneTimeTokens.mpr (Or.inl ⟨row, hrow, rfl⟩)
  · exact .closes (.refl t) (AccountCall.closed_failed _)

theorem consumeVerificationToken_step {row : OneTimeToken} {user : Account} :
    AccountStep p r t (t.consumeVerificationToken row user now).1 (.found row user)
      (t.consumeVerificationToken row user now).2 := by
  unfold AuthTables.consumeVerificationToken
  split
  · exact .closes (.refl t) (AccountCall.closed_failed _)
  · rename_i rows hconsume
    have hg : ∀ {O M}, t.Gives { t with verificationTokens := rows } O M :=
      .rewriteTokens (AuthTables.Gives.consume_map hconsume) rfl rfl
    dsimp only
    split
    · exact .lets hg rfl (.mailbox row.token rfl rfl) rfl rfl rfl
    · exact .closes hg (AccountCall.closed_failed _)

theorem activate_step {row : OneTimeToken} {user : Account} {password : Option String} :
    AccountStep p r t (t.activate user password).1 (.consumed row user)
      (t.activate user password).2 := by
  unfold AuthTables.activate
  split
  · exact .keeps (.markVerified user) rfl rfl rfl rfl rfl
  · split
    · exact .closes (.refl t) (AccountCall.closed_failed _)
    · refine .keeps (.saveAccount ?_ ?_ (Or.inr (Or.inl rfl))) rfl rfl rfl rfl rfl
      · exact fun _ => rfl
      · exact fun _ => rfl

/-- What a step can do. -/
theorem accountStatement_step {i : ι} {db db' : SessionDb ι} {input : SessionInput}
    (h : accountStatement p r i db κ input = some (db', κ')) :
    AccountStep p r db.tables db'.tables κ κ' := by
  unfold accountStatement at h
  dsimp only at h
  split at h
  · split at h
    · rename_i hverified
      obtain ⟨sr, hsr, hmap⟩ := Option.bind_eq_some_iff.mp h
      obtain ⟨⟨db₁, κ₁⟩, hact, heq⟩ := Option.map_eq_some_iff.mp hmap
      obtain ⟨rfl, rfl⟩ := Prod.mk.inj heq
      exact .of_sessionAct hsr hverified hact
    · obtain ⟨rfl, rfl⟩ := Prod.mk.inj (Option.some.inj h)
      exact .closes (.refl _) (AccountCall.closed_failed _)
  · obtain ⟨⟨t₁, κ₁⟩, hact, heq⟩ := Option.map_eq_some_iff.mp h
    obtain ⟨rfl, rfl⟩ := Prod.mk.inj heq
    exact .of_socialStep (socialAct_cases hact)
  · -- the email of an invitation
    obtain ⟨rfl, rfl⟩ := Prod.mk.inj (Option.some.inj h)
    refine .closes (.refl _) ?_
    split
    · exact AccountCall.closed_failed _
    · exact ⟨rfl, rfl, rfl, rfl⟩
  · -- the email of a registration
    obtain ⟨rfl, rfl⟩ := Prod.mk.inj (Option.some.inj h)
    refine .closes (.refl _) ?_
    split
    · exact AccountCall.closed_failed _
    · exact ⟨rfl, rfl, rfl, rfl⟩
  · obtain ⟨rfl, rfl⟩ := Prod.mk.inj (Option.some.inj h)
    exact admitInvitee_step
  · obtain ⟨rfl, rfl⟩ := Prod.mk.inj (Option.some.inj h)
    exact registerUser_step
  · -- the verification email of a registration
    obtain ⟨rfl, rfl⟩ := Prod.mk.inj (Option.some.inj h)
    exact .keeps (.createVerificationToken ⟨_, rfl, rfl, Or.inl rfl⟩) rfl rfl rfl rfl rfl
  · obtain ⟨rfl, rfl⟩ := Prod.mk.inj (Option.some.inj h)
    exact .closes (.createRefreshToken (Or.inl rfl)) ⟨rfl, rfl, rfl, rfl⟩
  · obtain ⟨rfl, rfl⟩ := Prod.mk.inj (Option.some.inj h)
    exact checkVerificationToken_step
  · obtain ⟨rfl, rfl⟩ := Prod.mk.inj (Option.some.inj h)
    exact consumeVerificationToken_step
  · obtain ⟨rfl, rfl⟩ := Prod.mk.inj (Option.some.inj h)
    exact activate_step
  · obtain ⟨rfl, rfl⟩ := Prod.mk.inj (Option.some.inj h)
    exact .closes (.createRefreshToken (Or.inl rfl)) ⟨rfl, rfl, rfl, rfl⟩
  · obtain ⟨rfl, rfl⟩ := Prod.mk.inj (Option.some.inj h)
    exact toVerify_step
  · -- the earlier verification tokens
    obtain ⟨rfl, rfl⟩ := Prod.mk.inj (Option.some.inj h)
    exact {
      gives := .invalidateVerificationTokens _
      password := nofun
      opening := nofun
      addressee := fun _ h => Or.inl h
      foundToken := nofun
      invitee := nofun }
  · obtain ⟨rfl, rfl⟩ := Prod.mk.inj (Option.some.inj h)
    exact .closes (.createVerificationToken ⟨_, rfl, rfl, Or.inl rfl⟩) ⟨rfl, rfl, rfl, rfl⟩
  · obtain ⟨rfl, rfl⟩ := Prod.mk.inj (Option.some.inj h)
    exact toReset_step
  · obtain ⟨rfl, rfl⟩ := Prod.mk.inj (Option.some.inj h)
    exact .closes (.createResetToken ⟨_, rfl, rfl, Or.inl rfl⟩) ⟨rfl, rfl, rfl, rfl⟩
  · cases h

end Saasmint
