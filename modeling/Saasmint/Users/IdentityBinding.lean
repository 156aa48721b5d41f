/-
Saasmint/Users/IdentityBinding.lean

Which provider identities sign which users in (`identity_binding`).

Where a SocialAccount comes from holds in every run: the assertion `Via` says
of a request under way what its identity and its user have to do with each
other.  That the row which a request has found or inserted is the user's
(`BoundAssertion`) needs `get_or_create` to find no other one (`FreeToLink`).
-/
import Saasmint.Users.SocialSignIn

namespace Saasmint

variable {ι : Type*} {p : Platform} {requests : ι → SocialRequest}

/-! ### The steps -/

/-- The request waits for nothing that binds a user. -/
def SocialCall.Quiet : SocialCall → Bool
  | .unknown | .taken | .linkSent => true
  | .failed e => e ≠ .integrityError
  | _ => false

/-- The steps, by what they do to the accounts, the identities and the links. -/
inductive SocialStep (p : Platform) (r : SocialRequest) (now : Timestamp) (t t' : AuthTables)
    (κ κ' : SocialCall) : Prop
  | read (ht : t' = t) (hκ' : κ'.Quiet = true)
  | verified (provider : String) (info : OAuthUserInfo) (hr : r = .callback provider info)
      (hverified : info.emailVerified = true) (ht : t' = t) (hκ' : κ' = .unregistered)
  | known (provider : String) (info : OAuthUserInfo) (user : Account)
      (hr : r = .callback provider info)
      (hx : ⟨user.id, info.identity provider⟩ ∈ t.socialAccounts) (ht : t' = t)
      (hκ' : κ' = .linked ⟨user, info.identity provider, false⟩)
  | trust (provider : String) (info : OAuthUserInfo) (user : Account)
      (hr : r = .callback provider info) (hverified : info.emailVerified = true)
      (huser : user ∈ t.accounts) (hemail : p.upper user.email = p.upper info.email) (ht : t' = t)
      (hκ' : κ' = .looking ⟨user, info.identity provider, false⟩)
  | create (provider : String) (info : OAuthUserInfo) (t₁ : AuthTables)
      (hr : r = .callback provider info) (hκ : κ = .unregistered)
      (hemail : info.email ≠ "")
      (hinsert : t.insertAccount p (t.newAccount p info.email none true) = some t₁)
      (ht : t' = t₁ ∧ (∃ x ∈ t.socialAccounts, x.identity = info.identity provider) ∨
        t' = t₁.addSocialAccount ⟨t.nextKey, info.identity provider⟩)
      (hκ' : κ' = .linked ⟨t.newAccount p info.email none true, info.identity provider, false⟩)
  | find (l : Link) (hκ : κ = .looking l ∨ κ = .conflicted l)
      (hx : ∃ x ∈ t.socialAccounts, x.identity = l.identity) (ht : t' = l.finish t)
      (hκ' : κ' = .linked l)
  | miss (l : Link) (hκ : κ = .looking l) (ht : t' = t) (hκ' : κ' = .inserting l)
  | insert (l : Link) (hκ : κ = .inserting l)
      (ht : t' = l.finish (t.addSocialAccount ⟨l.user.id, l.identity⟩)) (hκ' : κ' = .linked l)
  | conflict (l : Link) (hκ : κ = .inserting l)
      (hx : ∃ x ∈ t.socialAccounts, x.identity = l.identity ∨
        x.userProvider = (l.user.id, l.identity.provider))
      (ht : t' = t) (hκ' : κ' = .conflicted l)
  | raise (l : Link) (hκ : κ = .conflicted l) (hx : ∀ x ∈ t.socialAccounts, x.identity ≠ l.identity)
      (ht : t' = t) (hκ' : κ' = .failed .integrityError)
  | finish (l : Link) (hκ : κ = .owned l) (ht : t' = l.finish t) (hκ' : κ' = .linked l)
  | signIn (l : Link) (hκ : κ = .linked l) (hsigns : l.signsIn = true)
      (ht : t' = t.createRefreshToken l.user.id now)
      (hκ' : κ' = .signedIn l t.nextToken)
  | collide (user : Account) (huser : user ∈ t.accounts) (ht : t' = t) (hκ' : κ' = .collided user)
  | invalidate (user : Account) (hκ : κ = .collided user)
      (ht : t' = t.invalidateLinkRequests user.id now) (hκ' : κ' = .invalidated user)
  | request (user : Account) (identity : ProviderIdentity) (hκ : κ = .invalidated user)
      (ht : t' = t.createLinkRequest user.id identity now) (hκ' : κ' = .linkSent)
  | check (token : Token) (row : SocialLinkRequest) (user : Account) (hr : r = .confirmLink token)
      (hrow : row ∈ t.linkRequests) (htoken : row.token = token) (huser : user.id = row.user)
      (ht : t' = t) (hκ' : κ' = .found row user)
  | consume (row : SocialLinkRequest) (user : Account) (hκ : κ = .found row user)
      (ht : t.consumeLinkRequest row.token now = some t')
      (hκ' : κ' = .consumed row user ∨ κ'.Quiet = true)
  | unbound (row : SocialLinkRequest) (user : Account) (hκ : κ = .consumed row user)
      (ht : t' = t) (hκ' : κ' = .looking ⟨user, row.identity, true⟩)
  | own (row : SocialLinkRequest) (user : Account) (hκ : κ = .consumed row user)
      (hx : ⟨user.id, row.identity⟩ ∈ t.socialAccounts) (ht : t' = t)
      (hκ' : κ' = .owned ⟨user, row.identity, true⟩)

variable {t t' : AuthTables} {κ κ' : SocialCall} {now : Timestamp}

theorem AuthTables.socialAccount_eq_some {identity : ProviderIdentity} {x : SocialAccount}
    (h : t.socialAccount identity = some x) : x ∈ t.socialAccounts ∧ x.identity = identity :=
  ⟨List.mem_of_find?_eq_some h, by simpa using List.find?_some h⟩

theorem AuthTables.socialAccount_eq_none {identity : ProviderIdentity}
    (h : t.socialAccount identity = none) : ∀ x ∈ t.socialAccounts, x.identity ≠ identity := by
  intro x hx
  simpa using List.find?_eq_none.mp h x hx

theorem AuthTables.account_eq_some {id : UUID} {a : Account} (h : t.account id = some a) :
    a ∈ t.accounts ∧ a.id = id :=
  ⟨List.mem_of_find?_eq_some h, by simpa using List.find?_some h⟩

theorem AuthTables.accountByEmail_eq_some {email : String} {a : Account}
    (h : t.accountByEmail p email = some a) : a ∈ t.accounts ∧ p.upper a.email = p.upper email :=
  ⟨List.mem_of_find?_eq_some h, by simpa using List.find?_some h⟩

theorem AuthTables.resolveIdentity_cases (t : AuthTables) (identity : ProviderIdentity) :
    t.resolveIdentity identity = .unknown ∨
      ∃ user, ⟨user.id, identity⟩ ∈ t.socialAccounts ∧
        t.resolveIdentity identity = .linked ⟨user, identity, false⟩ := by
  unfold resolveIdentity
  split
  · rename_i user hfind
    obtain ⟨x, hx, huser⟩ := Option.bind_eq_some_iff.mp hfind
    obtain ⟨hmem, rfl⟩ := socialAccount_eq_some hx
    obtain ⟨-, hid⟩ := account_eq_some huser
    refine Or.inr ⟨user, ?_, rfl⟩
    rw [hid]
    exact hmem
  · exact Or.inl rfl

theorem linkOrRequest_cases (provider : String) (info : OAuthUserInfo) (existing : Account) :
    (linkOrRequest provider info existing).Quiet = true ∨
      linkOrRequest provider info existing = .collided existing ∨
        info.emailVerified = true ∧
          linkOrRequest provider info existing
            = .looking ⟨existing, info.identity provider, false⟩ := by
  unfold linkOrRequest
  split
  · rename_i h
    exact Or.inr (Or.inr ⟨(Bool.and_eq_true_iff.mp h).1, rfl⟩)
  · split
    · exact Or.inr (Or.inl rfl)
    · exact Or.inl rfl

/-- `_link_or_request` for the account that an email has found. -/
theorem SocialStep.of_linkOrRequest {provider : String} {info : OAuthUserInfo} {user : Account}
    (h : t.accountByEmail p info.email = some user) :
    SocialStep p (.callback provider info) now t t κ (linkOrRequest provider info user) := by
  obtain ⟨huser, hemail⟩ := AuthTables.accountByEmail_eq_some h
  rcases linkOrRequest_cases provider info user with hq | hκ' | ⟨hverified, hκ'⟩
  · exact .read rfl hq
  · exact .collide user huser rfl hκ'
  · exact .trust provider info user rfl hverified huser hemail rfl hκ'

theorem SocialStep.of_createWithIdentity {provider : String} {info : OAuthUserInfo} :
    SocialStep p (.callback provider info) now t
      (t.createWithIdentity p info (info.identity provider)).1 .unregistered
      (t.createWithIdentity p info (info.identity provider)).2 := by
  unfold AuthTables.createWithIdentity
  split
  · exact .read rfl rfl
  · rename_i hemail
    dsimp only
    split
    · exact .read rfl rfl
    · rename_i t₁ hinsert
      refine .create provider info t₁ rfl rfl hemail hinsert ?_ rfl
      have hsame : t₁.socialAccounts = t.socialAccounts := by
        unfold AuthTables.insertAccount at hinsert
        split at hinsert
        · cases hinsert
        · obtain rfl := Option.some.inj hinsert
          rfl
      rcases hx : t₁.socialAccount (info.identity provider) with - | x
      · exact Or.inr (by simp; rfl)
      · obtain ⟨hmem, hid⟩ := AuthTables.socialAccount_eq_some hx
        rw [hsame] at hmem
        exact Or.inl ⟨by simp, x, hmem, hid⟩

theorem AuthTables.checkLinkToken_cases (t : AuthTables) (token : Token) (now : Timestamp) :
    (t.checkLinkToken token now).Quiet = true ∨
      ∃ row ∈ t.linkRequests, ∃ user, row.token = token ∧ user.id = row.user ∧
        t.checkLinkToken token now = .found row user := by
  unfold checkLinkToken
  split
  · exact Or.inl rfl
  · rename_i row hfind
    have hrow := List.mem_of_find?_eq_some hfind
    have htoken : row.token = token := by simpa using List.find?_some hfind
    split
    · rename_i user _ huser
      exact Or.inr ⟨row, hrow, user, htoken, (account_eq_some huser).2, rfl⟩
    · rename_i e hcheck
      left
      unfold OneTimeToken.check at hcheck
      split at hcheck
      · cases hcheck
        rfl
      · split at hcheck <;> cases hcheck
        rfl
    · exact Or.inl rfl

/-- What a step can do. -/
theorem socialAct_cases {i : ι} (h : socialAct p requests i t κ now = some (t', κ')) :
    SocialStep p (requests i) now t t' κ κ' := by
  unfold socialAct at h
  split at h
  · -- the SELECT by identity
    rename_i provider info hr
    obtain ⟨rfl, rfl⟩ := Prod.mk.inj (Option.some.inj h)
    rcases t.resolveIdentity_cases (info.identity provider) with hκ' | ⟨user, hx, hκ'⟩
    · rw [hκ']
      exact .read rfl rfl
    · exact .known provider info user hr hx rfl hκ'
  · -- the SELECT by email
    rename_i provider info hr
    rw [hr]
    split at h
    · rename_i existing hfind
      obtain ⟨rfl, rfl⟩ := Prod.mk.inj (Option.some.inj h)
      exact .of_linkOrRequest hfind
    · obtain ⟨rfl, rfl⟩ := Prod.mk.inj (Option.some.inj h)
      split
      · rename_i hverified
        exact .verified provider info rfl hverified rfl rfl
      · exact .read rfl rfl
  · -- the transaction that creates the account
    rename_i provider info hr
    rw [hr]
    have hstep : SocialStep p (.callback provider info) now t
        (t.createWithIdentity p info (info.identity provider)).1 .unregistered
        (t.createWithIdentity p info (info.identity provider)).2 := .of_createWithIdentity
    rwa [Option.some.inj h] at hstep
  · -- the account was taken: the SELECT by email again
    rename_i provider info hr
    rw [hr]
    split at h
    · rename_i existing hfind
      obtain ⟨rfl, rfl⟩ := Prod.mk.inj (Option.some.inj h)
      exact .of_linkOrRequest hfind
    · obtain ⟨rfl, rfl⟩ := Prod.mk.inj (Option.some.inj h)
      exact .read rfl rfl
  · -- the UPDATE and the INSERT of the link requests
    obtain ⟨rfl, rfl⟩ := Prod.mk.inj (Option.some.inj h)
    exact .invalidate _ rfl rfl rfl
  · obtain ⟨rfl, rfl⟩ := Prod.mk.inj (Option.some.inj h)
    exact .request _ _ rfl rfl rfl
  · -- the SELECT of a link token
    rename_i token hr
    obtain ⟨rfl, rfl⟩ := Prod.mk.inj (Option.some.inj h)
    rcases t.checkLinkToken_cases token now with hq | ⟨row, hrow, user, htoken, huser, hκ'⟩
    · exact .read rfl hq
    · exact .check token row user hr hrow htoken huser rfl hκ'
  · -- the conditional UPDATE of a link token
    rename_i row user hr
    split at h
    · obtain ⟨rfl, rfl⟩ := Prod.mk.inj (Option.some.inj h)
      exact .read rfl rfl
    · rename_i t₁ hconsume
      obtain ⟨rfl, rfl⟩ := Prod.mk.inj (Option.some.inj h)
      refine .consume row user rfl hconsume ?_
      split
      · exact Or.inl rfl
      · exact Or.inr rfl
  · -- the SELECT of confirm-link
    rename_i row user hr
    obtain ⟨rfl, rfl⟩ := Prod.mk.inj (Option.some.inj h)
    rcases hx : t.socialAccount row.identity with - | x
    · refine .unbound row user rfl rfl ?_
      unfold AuthTables.checkCollision
      rw [hx]
    · obtain ⟨hmem, hid⟩ := AuthTables.socialAccount_eq_some hx
      by_cases huser : x.user = user.id
      · refine .own row user rfl ?_ rfl ?_
        · rw [← huser, ← hid]
          exact hmem
        · unfold AuthTables.checkCollision
          rw [hx]
          exact if_pos huser
      · refine .read rfl ?_
        unfold AuthTables.checkCollision
        rw [hx]
        dsimp only
        rw [if_neg huser]
        rfl
  · -- `get_or_create`: its SELECT, its INSERT, and its SELECT again
    split at h
    · rename_i l _ x hx
      obtain ⟨rfl, rfl⟩ := Prod.mk.inj (Option.some.inj h)
      exact .find l (Or.inl rfl) ⟨x, AuthTables.socialAccount_eq_some hx⟩ rfl rfl
    · obtain ⟨rfl, rfl⟩ := Prod.mk.inj (Option.some.inj h)
      exact .miss _ rfl rfl rfl
  · split at h
    · rename_i l _ t₁ hinsert
      obtain ⟨rfl, rfl⟩ := Prod.mk.inj (Option.some.inj h)
      unfold AuthTables.insertSocialAccount at hinsert
      split at hinsert
      · cases hinsert
      · obtain rfl := Option.some.inj hinsert
        exact .insert l rfl rfl rfl
    · rename_i l _ hinsert
      obtain ⟨rfl, rfl⟩ := Prod.mk.inj (Option.some.inj h)
      unfold AuthTables.insertSocialAccount at hinsert
      split at hinsert
      · -- the INSERT is refused over the identity, or over the provider of the user
        rename_i hany
        obtain ⟨x, hx, hor⟩ := List.any_eq_true.mp hany
        have hor' : x.identity = l.identity ∨
            x.userProvider = SocialAccount.userProvider ⟨l.user.id, l.identity⟩ := by
            simpa using hor
        exact .conflict l rfl ⟨x, hx, hor'⟩ rfl rfl
      · cases hinsert
  · split at h
    · rename_i l _ x hx
      obtain ⟨rfl, rfl⟩ := Prod.mk.inj (Option.some.inj h)
      exact .find l (Or.inr rfl) ⟨x, AuthTables.socialAccount_eq_some hx⟩ rfl rfl
    · rename_i l _ hx
      obtain ⟨rfl, rfl⟩ := Prod.mk.inj (Option.some.inj h)
      exact .raise l rfl (AuthTables.socialAccount_eq_none hx) rfl rfl
  · -- the rest of the transaction, and the session
    obtain ⟨rfl, rfl⟩ := Prod.mk.inj (Option.some.inj h)
    exact .finish _ rfl rfl rfl
  · split at h
    · rename_i hsigns
      obtain ⟨rfl, rfl⟩ := Prod.mk.inj (Option.some.inj h)
      exact .signIn _ rfl hsigns rfl rfl
    · obtain ⟨rfl, rfl⟩ := Prod.mk.inj (Option.some.inj h)
      exact .read rfl rfl
  · cases h

/-! ### What the steps leave -/

/-- The rows stay, with their identities, their users and their emails. -/
structure AuthTables.Grows (t t' : AuthTables) : Prop where
  accounts : ∀ a ∈ t.accounts, ∃ a' ∈ t'.accounts, a'.id = a.id ∧ a'.email = a.email
  identities : ∀ x ∈ t.socialAccounts, x ∈ t'.socialAccounts
  links : ∀ r ∈ t.linkRequests, ∃ r' ∈ t'.linkRequests,
    r'.token = r.token ∧ r'.user = r.user ∧ r'.identity = r.identity

namespace AuthTables

variable {t'' : AuthTables}

theorem Grows.refl (t : AuthTables) : t.Grows t :=
  ⟨fun a ha => ⟨a, ha, rfl, rfl⟩, fun _ hx => hx, fun r hr => ⟨r, hr, rfl, rfl, rfl⟩⟩

theorem Grows.trans (h : t.Grows t') (h' : t'.Grows t'') : t.Grows t'' where
  accounts a ha := by
    obtain ⟨a', ha', hid, hemail⟩ := h.accounts a ha
    obtain ⟨a'', ha'', hid', hemail'⟩ := h'.accounts a' ha'
    exact ⟨a'', ha'', hid'.trans hid, hemail'.trans hemail⟩
  identities x hx := h'.identities x (h.identities x hx)
  links r hr := by
    obtain ⟨r', hr', htoken, huser, hid⟩ := h.links r hr
    obtain ⟨r'', hr'', htoken', huser', hid'⟩ := h'.links r' hr'
    exact ⟨r'', hr'', htoken'.trans htoken, huser'.trans huser, hid'.trans hid⟩

theorem grows_saveAccount (t : AuthTables) (id : UUID) {f : Account → Account}
    (hid : ∀ a, (f a).id = a.id) (hemail : ∀ a, (f a).email = a.email) :
    t.Grows (t.saveAccount id f) where
  accounts a ha := by
    by_cases h : a.id = id
    · exact ⟨f a, Table.mem_update.mpr (Or.inr ⟨a, ha, h, rfl⟩), hid a, hemail a⟩
    · exact ⟨a, Table.mem_update.mpr (Or.inl ⟨ha, h⟩), rfl, rfl⟩
  identities _ hx := hx
  links r hr := ⟨r, hr, rfl, rfl, rfl⟩

theorem grows_markVerified (t : AuthTables) (user : Account) : t.Grows (t.markVerified user) := by
  unfold markVerified
  split
  · exact .refl t
  · apply grows_saveAccount
    · exact fun _ => rfl
    · exact fun _ => rfl

theorem grows_insertAccount {a : Account} (h : t.insertAccount p a = some t') : t.Grows t' := by
  unfold insertAccount at h
  split at h
  · cases h
  · obtain rfl := Option.some.inj h
    exact ⟨fun a ha => ⟨a, List.mem_append_left _ ha, rfl, rfl⟩, fun _ hx => hx,
      fun r hr => ⟨r, hr, rfl, rfl, rfl⟩⟩

theorem grows_addSocialAccount (t : AuthTables) (s : SocialAccount) :
    t.Grows (t.addSocialAccount s) :=
  ⟨fun a ha => ⟨a, ha, rfl, rfl⟩, fun _ hx => List.mem_append_left _ hx,
    fun r hr => ⟨r, hr, rfl, rfl, rfl⟩⟩

/-- An UPDATE of `used_at`. -/
theorem grows_useLinks (t : AuthTables) (f : SocialLinkRequest → SocialLinkRequest)
    (hf : ∀ r, (f r).token = r.token ∧ (f r).user = r.user ∧ (f r).identity = r.identity) :
    t.Grows { t with linkRequests := t.linkRequests.map f } :=
  ⟨fun a ha => ⟨a, ha, rfl, rfl⟩, fun _ hx => hx,
    fun r hr => ⟨f r, List.mem_map_of_mem hr, hf r⟩⟩

theorem grows_consumeLinkRequest {token : Token} (h : t.consumeLinkRequest token now = some t') :
    t.Grows t' := by
  unfold consumeLinkRequest at h
  split at h
  · obtain rfl := Option.some.inj h
    apply grows_useLinks
    intro r
    split <;> exact ⟨rfl, rfl, rfl⟩
  · cases h

end AuthTables

theorem Link.grows_finish (l : Link) (t : AuthTables) : t.Grows (l.finish t) := by
  unfold finish
  split
  · exact t.grows_markVerified l.user
  · exact .refl t

theorem SocialStep.grows {r : SocialRequest} (h : SocialStep p r now t t' κ κ') : t.Grows t' := by
  cases h with
  | read ht _ | verified _ _ _ _ ht _ | known _ _ _ _ _ ht _ | trust _ _ _ _ _ _ _ ht _
  | miss _ _ ht _
  | conflict _ _ _ ht _ | raise _ _ _ ht _ | check _ _ _ _ _ _ _ ht _ | unbound _ _ _ ht _
  | own _ _ _ _ ht _ | collide _ _ ht _ =>
    rw [ht]
    exact .refl t
  | create provider info t₁ _ _ _ hinsert ht _ =>
    have hgrows := AuthTables.grows_insertAccount hinsert
    rcases ht with ⟨rfl, -⟩ | rfl
    · exact hgrows
    · exact hgrows.trans (t₁.grows_addSocialAccount _)
  | find l _ _ ht _ | finish l _ ht _ =>
    subst ht
    exact l.grows_finish t
  | insert l _ ht _ =>
    subst ht
    exact (t.grows_addSocialAccount _).trans (l.grows_finish _)
  | signIn l _ _ ht _ =>
    subst ht
    exact ⟨fun a ha => ⟨a, ha, rfl, rfl⟩, fun _ hx => hx, fun r hr => ⟨r, hr, rfl, rfl, rfl⟩⟩
  | invalidate user _ ht _ =>
    subst ht
    apply t.grows_useLinks
    intro r
    split <;> exact ⟨rfl, rfl, rfl⟩
  | request user identity _ ht _ =>
    subst ht
    exact ⟨fun a ha => ⟨a, ha, rfl, rfl⟩, fun _ hx => hx,
      fun r hr => ⟨r, List.mem_append_left _ hr, rfl, rfl, rfl⟩⟩
  | consume row user _ ht _ => exact AuthTables.grows_consumeLinkRequest ht

/-! ### Where a link comes from -/

/-- The link token of a request was issued for the user and the identity. -/
def AuthTables.LinkIssued (t : AuthTables) (token : Token) (user : UUID)
    (identity : ProviderIdentity) : Prop :=
  ∃ row ∈ t.linkRequests, row.token = token ∧ row.user = user ∧ row.identity = identity

/-- The identity of a link under way is the one of the request. -/
def Via (r : SocialRequest) (t : AuthTables) (l : Link) : Prop :=
  match r with
  | .callback provider info => l.identity = info.identity provider
  | .confirmLink token => t.LinkIssued token l.user.id l.identity

/-- The user of a link that a callback is to create has the verified email. -/
def Trusted (p : Platform) (r : SocialRequest) (t : AuthTables) (user : UUID) : Prop :=
  match r with
  | .callback _ info => info.emailVerified = true ∧
    ∃ a ∈ t.accounts, a.id = user ∧ p.SameEmail a.email info.email
  | .confirmLink _ => True

/-- What the state of a request says of its link. -/
def ViaAssertion (p : Platform) (requests : ι → SocialRequest) (i : ι) (t : AuthTables) :
    SocialCall → Prop
  | .looking l | .inserting l | .conflicted l | .owned l =>
    Via (requests i) t l ∧ Trusted p (requests i) t l.user.id
  | .linked l | .signedIn l _ => Via (requests i) t l
  | .unregistered => ∀ provider info, requests i = .callback provider info →
      info.emailVerified = true
  | .found row user | .consumed row user =>
    ∃ token, requests i = .confirmLink token ∧ t.LinkIssued token user.id row.identity
  | _ => True

theorem Via.grows {r : SocialRequest} {l : Link} (h : Via r t l) (hg : t.Grows t') :
    Via r t' l := by
  cases r with
  | callback provider info => exact h
  | confirmLink token =>
    obtain ⟨row, hrow, rfl, huser, hid⟩ := h
    obtain ⟨row', hrow', htoken, huser', hid'⟩ := hg.links row hrow
    exact ⟨row', hrow', htoken, huser'.trans huser, hid'.trans hid⟩

theorem Trusted.grows {r : SocialRequest} {user : UUID} (h : Trusted p r t user)
    (hg : t.Grows t') : Trusted p r t' user := by
  cases r with
  | callback provider info =>
    obtain ⟨hverified, a, ha, rfl, hemail⟩ := h
    obtain ⟨a', ha', hid, hemail'⟩ := hg.accounts a ha
    refine ⟨hverified, a', ha', hid, ?_⟩
    rw [hemail']
    exact hemail
  | confirmLink token => trivial

theorem ViaAssertion.grows {i : ι} (h : ViaAssertion p requests i t κ) (hg : t.Grows t') :
    ViaAssertion p requests i t' κ := by
  cases κ with
  | looking l | inserting l | conflicted l | owned l => exact ⟨h.1.grows hg, h.2.grows hg⟩
  | linked l => exact Via.grows h hg
  | signedIn l token => exact Via.grows h hg
  | unregistered => exact h
  | found row user | consumed row user =>
    obtain ⟨token, hr, r, hr', htoken, huser, hid⟩ := h
    obtain ⟨r', hr'', htoken', huser', hid'⟩ := hg.links r hr'
    exact ⟨token, hr, r', hr'', htoken'.trans htoken, huser'.trans huser, hid'.trans hid⟩
  | start | unknown | taken | collided _ | invalidated _ | linkSent | failed _ => trivial

theorem SocialCall.via_of_quiet {i : ι} (h : κ.Quiet = true) : ViaAssertion p requests i t κ := by
  cases κ with
  | unknown | taken | linkSent | failed _ => trivial
  | start | unregistered | looking _ | inserting _ | conflicted _ | owned _ | linked _ | collided _
  | invalidated _ | found _ _ | consumed _ _ | signedIn _ _ => cases h

/-- A step keeps what the state of its own request says of its link. -/
theorem SocialStep.via {i : ι} (h : SocialStep p (requests i) now t t' κ κ')
    (hL : ViaAssertion p requests i t κ) : ViaAssertion p requests i t' κ' := by
  have hg := h.grows
  cases h with
  | read _ hκ' => exact SocialCall.via_of_quiet hκ'
  | verified provider info hr hverified _ hκ' =>
    subst hκ'
    intro provider' info' hr'
    obtain ⟨-, rfl⟩ := SocialRequest.callback.inj (hr.symm.trans hr')
    exact hverified
  | known provider info user hr _ _ hκ' =>
    subst hκ'
    show Via (requests i) _ _
    rw [hr]
    rfl
  | trust provider info user hr hverified huser hemail ht hκ' =>
    subst hκ'
    rw [ht]
    show Via (requests i) t _ ∧ Trusted p (requests i) t _
    rw [hr]
    exact ⟨rfl, hverified, user, huser, rfl, Or.inl hemail⟩
  | create provider info t₁ hr _ _ _ _ hκ' =>
    subst hκ'
    show Via (requests i) _ _
    rw [hr]
    rfl
  | find l hκ _ ht hκ' =>
    subst hκ'
    rcases hκ with rfl | rfl
    · exact hL.1.grows hg
    · exact hL.1.grows hg
  | miss l hκ ht hκ' =>
    subst hκ hκ'
    exact ⟨hL.1.grows hg, hL.2.grows hg⟩
  | insert l hκ _ hκ' =>
    subst hκ hκ'
    exact hL.1.grows hg
  | conflict l hκ _ ht hκ' =>
    subst hκ hκ'
    exact ⟨hL.1.grows hg, hL.2.grows hg⟩
  | raise l _ _ _ hκ' =>
    subst hκ'
    trivial
  | finish l hκ _ hκ' =>
    subst hκ hκ'
    exact hL.1.grows hg
  | signIn l hκ _ _ hκ' =>
    subst hκ hκ'
    exact Via.grows hL hg
  | collide _ _ _ hκ' | invalidate _ _ _ hκ' | request _ _ _ _ hκ' =>
    subst hκ'
    trivial
  | check token row user hr hrow htoken huser ht hκ' =>
    subst hκ'
    rw [ht]
    exact ⟨token, hr, row, hrow, htoken, huser.symm, rfl⟩
  | consume row user hκ _ hκ' =>
    subst hκ
    rcases hκ' with rfl | hq
    · exact ViaAssertion.grows hL hg
    · exact SocialCall.via_of_quiet hq
  | unbound row user hκ ht hκ' | own row user hκ _ ht hκ' =>
    subst hκ hκ'
    rw [ht]
    obtain ⟨token, hr, hissued⟩ := hL
    show Via (requests i) t _ ∧ Trusted p (requests i) t _
    rw [hr]
    exact ⟨hissued, trivial⟩

theorem Link.socialAccounts_finish (l : Link) (t : AuthTables) :
    (l.finish t).socialAccounts = t.socialAccounts := by
  unfold finish AuthTables.markVerified
  split
  · split <;> rfl
  · rfl

theorem AuthTables.socialAccounts_insertAccount {a : Account}
    (h : t.insertAccount p a = some t') :
    t'.socialAccounts = t.socialAccounts ∧ a ∈ t'.accounts := by
  unfold insertAccount at h
  split at h
  · cases h
  · obtain rfl := Option.some.inj h
    exact ⟨rfl, List.mem_append_right _ (List.mem_singleton.mpr rfl)⟩

/-- A step creates the SocialAccount of its link, or of the account that it creates. -/
theorem SocialStep.created {i : ι} (h : SocialStep p (requests i) now t t' κ κ')
    (hL : ViaAssertion p requests i t κ) {x : SocialAccount} (hx : x ∈ t'.socialAccounts) :
    x ∈ t.socialAccounts ∨
      (∃ l, Via (requests i) t l ∧ Trusted p (requests i) t l.user.id ∧
        x = ⟨l.user.id, l.identity⟩) ∨
      ∃ provider info, requests i = .callback provider info ∧ info.emailVerified = true ∧
        x.identity = info.identity provider ∧
        ∃ a ∈ t'.accounts, a.id = x.user ∧ p.SameEmail a.email info.email := by
  cases h with
  | read ht _ | verified _ _ _ _ ht _ | known _ _ _ _ _ ht _ | trust _ _ _ _ _ _ _ ht _
  | miss _ _ ht _ | conflict _ _ _ ht _ | raise _ _ _ ht _ | check _ _ _ _ _ _ _ ht _
  | unbound _ _ _ ht _ | own _ _ _ _ ht _ | collide _ _ ht _ =>
    rw [ht] at hx
    exact Or.inl hx
  | create provider info t₁ hr hκ _ hinsert ht _ =>
    subst hκ
    obtain ⟨hsame, hnew⟩ := AuthTables.socialAccounts_insertAccount hinsert
    rcases ht with ⟨rfl, -⟩ | rfl
    · rw [hsame] at hx
      exact Or.inl hx
    · rcases List.mem_append.mp hx with hx | hx
      · rw [hsame] at hx
        exact Or.inl hx
      · obtain rfl := List.mem_singleton.mp hx
        exact Or.inr (Or.inr ⟨provider, info, hr, hL provider info hr, rfl, _, hnew, rfl,
          Or.inr rfl⟩)
  | find l _ _ ht _ | finish l _ ht _ =>
    rw [ht, l.socialAccounts_finish] at hx
    exact Or.inl hx
  | insert l hκ ht _ =>
    subst hκ
    rw [ht, l.socialAccounts_finish] at hx
    rcases List.mem_append.mp hx with hx | hx
    · exact Or.inl hx
    · exact Or.inr (Or.inl ⟨l, hL.1, hL.2, List.mem_singleton.mp hx⟩)
  | signIn _ _ _ ht _ | invalidate _ _ ht _ | request _ _ _ ht _ =>
    rw [ht] at hx
    exact Or.inl hx
  | consume row user _ ht _ =>
    unfold AuthTables.consumeLinkRequest at ht
    split at ht
    · obtain rfl := Option.some.inj ht
      exact Or.inl hx
    · cases ht

/-! ### Whose the identity is -/

/-- The SocialAccount that a request has found or inserted for a session is its user's. -/
def BoundAssertion (t : AuthTables) : SocialCall → Prop
  | .owned l | .signedIn l _ => ⟨l.user.id, l.identity⟩ ∈ t.socialAccounts
  | .linked l => l.signsIn = true → ⟨l.user.id, l.identity⟩ ∈ t.socialAccounts
  | .failed e => e ≠ .integrityError
  | _ => True

theorem BoundAssertion.grows (h : BoundAssertion t κ) (hg : t.Grows t') : BoundAssertion t' κ := by
  cases κ with
  | owned l | signedIn l _ => exact hg.identities _ h
  | linked l => exact fun hsigns => hg.identities _ (h hsigns)
  | failed e => exact h
  | start | unknown | unregistered | taken | looking _ | inserting _ | conflicted _ | collided _
  | invalidated _ | linkSent | found _ _ | consumed _ _ => trivial

theorem SocialCall.bound_of_quiet (h : κ.Quiet = true) : BoundAssertion t κ := by
  cases κ with
  | failed e =>
    show e ≠ .integrityError
    simpa [Quiet] using h
  | unknown | taken | linkSent => trivial
  | start | unregistered | looking _ | inserting _ | conflicted _ | owned _ | linked _ | collided _
  | invalidated _ | found _ _ | consumed _ _ | signedIn _ _ => cases h

/-- A step that is free to link binds the identity to the user, and does not fail. -/
theorem SocialStep.bound {r : SocialRequest} (h : SocialStep p r now t t' κ κ')
    (hL : BoundAssertion t κ) (hC : FreeToLink p r t κ) : BoundAssertion t' κ' := by
  have hg := h.grows
  cases h with
  | read _ hκ' => exact SocialCall.bound_of_quiet hκ'
  | known provider info user _ hx ht hκ' =>
    subst hκ'
    exact fun _ => hg.identities _ hx
  | create provider info t₁ hr hκ hemail hinsert ht hκ' =>
    subst hr hκ hκ'
    intro _
    rcases ht with ⟨-, hx⟩ | rfl
    · exact hg.identities _ (hC hemail (by rw [hinsert]; rfl) hx)
    · exact List.mem_append_right _ (List.mem_singleton.mpr rfl)
  | find l hκ hx _ hκ' =>
    subst hκ'
    intro hsigns
    have hown : t.Own l.user.id l.identity := by
      rcases hκ with rfl | rfl
      · cases r <;> exact hC hsigns
      · cases r <;> exact hC.2 hsigns
    exact hg.identities _ (hown hx)
  | insert l hκ ht hκ' =>
    subst hκ'
    intro _
    rw [ht, l.socialAccounts_finish]
    exact List.mem_append_right _ (List.mem_singleton.mpr rfl)
  | raise l hκ hx _ _ =>
    subst hκ
    have hfind : ∃ x ∈ t.socialAccounts, x.identity = l.identity := by cases r <;> exact hC.1
    obtain ⟨x, hmem, hid⟩ := hfind
    exact absurd hid (hx x hmem)
  | finish l hκ _ hκ' =>
    subst hκ hκ'
    exact fun _ => hg.identities _ hL
  | signIn l hκ hsigns _ hκ' =>
    subst hκ hκ'
    exact hg.identities _ (hL hsigns)
  | consume row user _ _ hκ' =>
    rcases hκ' with rfl | hq
    · trivial
    · exact SocialCall.bound_of_quiet hq
  | own row user _ hx _ hκ' =>
    subst hκ'
    exact hg.identities _ hx
  | verified _ _ _ _ _ hκ' | trust _ _ _ _ _ _ _ _ hκ' | miss _ _ _ hκ' | conflict _ _ _ _ hκ'
  | invalidate _ _ _ hκ' | collide _ _ _ hκ' =>
    subst hκ'
    trivial
  | request _ _ _ _ hκ' | check _ _ _ _ _ _ _ _ hκ' | unbound _ _ _ _ hκ' =>
    subst hκ'
    trivial

/-! ### Runs -/

variable [DecidableEq ι]

abbrev ViaInv (p : Platform) (requests : ι → SocialRequest) : SocialSystem ι → Prop :=
  Interleaving.Inv (fun _ => True) (ViaAssertion p requests)

theorem viaInv_step (s : SocialSystem ι) (l : ι × Timestamp) (s' : SocialSystem ι)
    (hI : ViaInv p requests s) (h : Interleaving.step (socialAct p requests) s l = some s') :
    ViaInv p requests s' := by
  refine Interleaving.inv_step ?_ ?_ s l s' hI h
  · intro i t κ now t' κ' _ hL hact
    exact ⟨trivial, (socialAct_cases hact).via hL⟩
  · intro i t κ now t' κ' _ _ hact j κⱼ _ hj
    exact hj.grows (socialAct_cases hact).grows

theorem linkJustified_of_viaInv (s : SocialSystem ι) (l : ι × Timestamp) (s' : SocialSystem ι)
    (hI : ViaInv p requests s) (h : Interleaving.step (socialAct p requests) s l = some s') :
    LinkJustified p requests s l s' := by
  obtain ⟨i, now⟩ := l
  obtain ⟨t', κ', hact, rfl⟩ := Interleaving.step_eq_some h
  have hstep := socialAct_cases hact
  intro x hx
  rcases hstep.created (hI.procs i) hx with hold | ⟨link, hvia, htrusted, rfl⟩ | hnew
  · exact Or.inl hold
  · right
    rcases hr : requests i with ⟨provider, info⟩ | token
    · rw [hr] at hvia htrusted
      obtain ⟨hverified, a, ha, hid, hemail⟩ := htrusted.grows hstep.grows
      exact Or.inl ⟨provider, info, rfl, hverified, hvia, a, ha, hid, hemail⟩
    · rw [hr] at hvia
      exact Or.inr ⟨token, rfl, hvia⟩
  · exact Or.inr (Or.inl hnew)

omit [DecidableEq ι] in
/-- What the two assertions say of a session. -/
theorem identityBound_of_inv {s : SocialSystem ι} (hV : ViaInv p requests s)
    (hB : ∀ i, BoundAssertion s.shared (s.procs i)) : IdentityBound requests s where
  callback i provider info l token hr hi := by
    have hvia := hV.procs i
    have hbound := hB i
    rw [hi] at hvia hbound
    have hvia' : Via (requests i) s.shared l := hvia
    rw [hr] at hvia'
    rw [← show l.identity = info.identity provider from hvia']
    exact hbound
  confirmLink i token l refresh hr hi := by
    have hvia := hV.procs i
    have hbound := hB i
    rw [hi] at hvia hbound
    have hvia' : Via (requests i) s.shared l := hvia
    rw [hr] at hvia'
    obtain ⟨row, hrow, htoken, huser, hid⟩ := hvia'
    refine ⟨row, hrow, htoken, huser, ?_⟩
    rw [hid]
    exact hbound
  noIntegrityError i hi := by
    have hbound := hB i
    rw [hi] at hbound
    exact hbound rfl

/-- **A SocialAccount is created for the user with the verified email or by the
link token**, in every run; and where no `get_or_create` for a session finds a
SocialAccount of another user, and no INSERT is refused but over its identity,
sessions are for the user that the identity belongs to, and no request fails
with a database error. -/
theorem identity_binding (p : Platform) (requests : ι → SocialRequest) (t : AuthTables)
    (ls : List (ι × Timestamp)) :
    Runs.EachMove (Interleaving.step (socialAct p requests)) (LinkJustified p requests)
        (socialInit ι t) ls ∧
      (Runs.EachStep (Interleaving.step (socialAct p requests))
          (fun s l => FreeToLink p (requests l.1) s.shared (s.procs l.1)) (socialInit ι t) ls →
        Runs.Always (Interleaving.step (socialAct p requests)) (IdentityBound requests)
          (socialInit ι t) ls) := by
  have hinit : ViaInv p requests (socialInit ι t) := ⟨trivial, fun _ => trivial⟩
  refine ⟨Runs.eachMove_of_invariant viaInv_step linkJustified_of_viaInv hinit ls, fun hC => ?_⟩
  have hown : ∀ i t κ (now : Timestamp) t' κ', True → BoundAssertion t κ →
      FreeToLink p (requests i) t κ → socialAct p requests i t κ now = some (t', κ') →
      True ∧ BoundAssertion t' κ' :=
    fun i t κ now t' κ' _ hL hC hact => ⟨trivial, (socialAct_cases hact).bound hL hC⟩
  have hother : ∀ i t κ (now : Timestamp) t' κ', True → BoundAssertion t κ →
      FreeToLink p (requests i) t κ → socialAct p requests i t κ now = some (t', κ') →
      ∀ j κⱼ, j ≠ i → BoundAssertion t κⱼ → BoundAssertion t' κⱼ :=
    fun i t κ now t' κ' _ _ _ hact j κⱼ _ hj => hj.grows (socialAct_cases hact).grows
  have hstart : Interleaving.Inv (fun _ => True) (fun _ => BoundAssertion) (socialInit ι t) :=
    ⟨trivial, fun _ => trivial⟩
  have hbound := Interleaving.always_inv_of hown hother hstart hC
  have hvia := Runs.always_of_invariant viaInv_step hinit ls
  exact (hvia.and hbound).mono fun s hs => identityBound_of_inv hs.1 hs.2.procs

/-! ### A newcomer, a second account of the provider, and a link in between -/

/-- Ann has signed in with her account of the provider; Bob is to confirm a link. -/
def linkingTables : AuthTables where
  accounts :=
    [⟨⟨1, "ann@acme.io"⟩, none, true, true, none⟩, ⟨⟨2, "bob@acme.io"⟩, none, true, true, none⟩,
     ⟨⟨3, "eve@acme.io"⟩, none, true, true, none⟩]
  refreshTokens := []
  verificationTokens := []
  resetTokens := []
  linkRequests := [⟨⟨0, 2, 900, none⟩, ⟨"google", "sub-2"⟩⟩]
  socialAccounts := [⟨1, ⟨"google", "sub-1"⟩⟩]
  nextKey := 4
  nextToken := 1

/-- Two callbacks of a newcomer, while Bob confirms his link. -/
def newcomerTwice : Fin 3 → SocialRequest
  | 0 | 1 => .callback "google" ⟨"new@acme.io", "sub-9", true⟩
  | 2 => .confirmLink 0

/-- Both callbacks find no account; the second INSERT of it fails, and that callback goes on
with the account of the first. -/
def newcomerTwiceSteps : List (Fin 3 × Timestamp) :=
  [(0, 10), (1, 10), (0, 10), (2, 11), (1, 11), (0, 11), (2, 11), (1, 12), (2, 12),
    (1, 12), (1, 13),
    (0, 13), (1, 13), (2, 13), (2, 14), (2, 14)]

theorem identity_binding_newcomerTwice :
    ((Runs.run (Interleaving.step (socialAct wordPlatform newcomerTwice))
        (socialInit (Fin 3) linkingTables) newcomerTwiceSteps).map fun s =>
          s.shared.socialAccounts) =
      some [⟨1, ⟨"google", "sub-1"⟩⟩, ⟨4, ⟨"google", "sub-9"⟩⟩, ⟨2, ⟨"google", "sub-2"⟩⟩] ∧
    Runs.EachMove (Interleaving.step (socialAct wordPlatform newcomerTwice))
      (LinkJustified wordPlatform newcomerTwice) (socialInit (Fin 3) linkingTables)
      newcomerTwiceSteps ∧
    Runs.Always (Interleaving.step (socialAct wordPlatform newcomerTwice))
      (IdentityBound newcomerTwice) (socialInit (Fin 3) linkingTables) newcomerTwiceSteps := by
  have hrun : ((Runs.run (Interleaving.step (socialAct wordPlatform newcomerTwice))
        (socialInit (Fin 3) linkingTables) newcomerTwiceSteps).map fun s =>
          s.shared.socialAccounts) =
      some [⟨1, ⟨"google", "sub-1"⟩⟩, ⟨4, ⟨"google", "sub-9"⟩⟩,
        ⟨2, ⟨"google", "sub-2"⟩⟩] := by decide
  obtain ⟨hjustified, hbound⟩ :=
    identity_binding wordPlatform newcomerTwice linkingTables newcomerTwiceSteps
  exact ⟨hrun, hjustified, hbound (by decide)⟩

/-- Ann comes with another account of the provider and the same email. -/
def secondAccount : Fin 1 → SocialRequest := fun _ =>
  .callback "google" ⟨"ann@acme.io", "sub-3", true⟩

/-- Bob confirms the link with an account that now has Eve's email. -/
def linkAndCallback : Fin 2 → SocialRequest
  | 0 => .callback "google" ⟨"eve@acme.io", "sub-2", true⟩
  | 1 => .confirmLink 0

/-- The callback looks for the SocialAccount before the link and after it. -/
def linkAndCallbackSteps : List (Fin 2 × Timestamp) :=
  [(0, 10), (0, 10), (1, 10), (1, 11), (1, 11), (1, 12), (1, 12), (1, 13), (0, 14), (0, 15)]

/-- Eve is signed in through an identity that is Bob's; and the second account
of Ann's ends in a database error. -/
theorem get_or_create_ignores_the_user :
    (((Runs.run (Interleaving.step (socialAct wordPlatform linkAndCallback))
          (socialInit (Fin 2) linkingTables) linkAndCallbackSteps).map fun s =>
            (s.procs 0, s.shared.socialAccounts)) =
        some (.signedIn ⟨⟨⟨3, "eve@acme.io"⟩, none, true, true, none⟩,
          ⟨"google", "sub-2"⟩, false⟩ 2,
          [⟨1, ⟨"google", "sub-1"⟩⟩, ⟨2, ⟨"google", "sub-2"⟩⟩]) ∧
      ¬ Runs.Always (Interleaving.step (socialAct wordPlatform linkAndCallback))
        (IdentityBound linkAndCallback) (socialInit (Fin 2) linkingTables) linkAndCallbackSteps) ∧
    ¬ Runs.Always (Interleaving.step (socialAct wordPlatform secondAccount))
      (IdentityBound secondAccount) (socialInit (Fin 1) linkingTables)
      [(0, 10), (0, 10), (0, 11), (0, 11), (0, 12)] := by
  have hrun : ((Runs.run (Interleaving.step (socialAct wordPlatform linkAndCallback))
      (socialInit (Fin 2) linkingTables) linkAndCallbackSteps).map fun s =>
        (s.procs 0, s.shared.socialAccounts)) =
      some (.signedIn ⟨⟨⟨3, "eve@acme.io"⟩, none, true, true, none⟩, ⟨"google", "sub-2"⟩, false⟩ 2,
        [⟨1, ⟨"google", "sub-1"⟩⟩, ⟨2, ⟨"google", "sub-2"⟩⟩]) := by decide
  have hfail : (Runs.run (Interleaving.step (socialAct wordPlatform secondAccount))
      (socialInit (Fin 1) linkingTables)
      [(0, 10), (0, 10), (0, 11), (0, 11), (0, 12)]).map (fun s => s.procs 0) =
      some (.failed .integrityError) := by decide
  refine ⟨⟨hrun, fun h => ?_⟩, fun h => ?_⟩
  · obtain ⟨s, hs, hlast⟩ := Option.map_eq_some_iff.mp hrun
    obtain ⟨hproc, hrows⟩ := Prod.mk.inj hlast
    have hmem := (h.last hs).callback 0 "google" ⟨"eve@acme.io", "sub-2", true⟩ _ _ rfl hproc
    rw [hrows] at hmem
    simp [OAuthUserInfo.identity] at hmem
  · obtain ⟨s, hs, hlast⟩ := Option.map_eq_some_iff.mp hfail
    exact (h.last hs).noIntegrityError 0 hlast

end Saasmint
