/-
Saasmint/Users/DeletedRows.lean

The statements of the endpoints on tables that rows have been deleted from: each
is refused and writes nothing, or does what it does on all rows
(`matched_tableAct`).
-/
import Saasmint.Users.ExpiredRows

namespace Saasmint

variable {ι : Type*} {p : Platform} {t t' : AuthTables} {now : Timestamp}
  {d : TokenTable → List Token}

/-! ### Statements on what a deletion leaves -/

/-- The statement is refused where rows are deleted and writes nothing, or does
what it does where none are. -/
def Matched (now : Timestamp) (t : AuthTables) (d : TokenTable → List Token)
    (plain cleaned : Option (AuthTables × AccountCall)) : Prop :=
  ∀ t' κ', cleaned = some (t', κ') →
    t' = t.without d ∧ κ'.refused = true ∨
      ∃ t₁, plain = some (t₁, κ') ∧ t' = t₁.without d ∧ InsertsLater now t t₁

namespace Matched

variable {plain : Option (AuthTables × AccountCall)} {κ₁ κ₂ : AccountCall}

theorem none : Matched now t d plain Option.none := nofun

theorem write {f : AuthTables → AuthTables} (hf : Commutes now f) (hnew : ∀ k, t.nextToken ∉ d k) :
    Matched now t d (some (f t, κ₁)) (some (f (t.without d), κ₁)) := by
  rintro t' κ' ⟨⟩
  exact Or.inr ⟨f t, rfl, hf.without t d hnew, hf.inserts t⟩

theorem same : Matched now t d (some (t, κ₁)) (some (t.without d, κ₁)) := by
  rintro t' κ' ⟨⟩
  exact Or.inr ⟨t, rfl, rfl, .none (fun _ => rfl) rfl⟩

theorem refuse (h : κ₁.refused = true) : Matched now t d plain (some (t.without d, κ₁)) := by
  rintro t' κ' ⟨⟩
  exact Or.inl ⟨rfl, h⟩

/-- A SELECT that finds what it finds among all rows, or refuses. -/
theorem read {e : AuthError} (h : κ₁ = .failed e ∨ κ₁ = κ₂) :
    Matched now t d (some (t, κ₂)) (some (t.without d, κ₁)) := by
  rcases h with rfl | rfl
  · exact refuse rfl
  · exact same

theorem readSession {κ₁ κ₂ : SessionCall} {e : AuthError} (h : κ₁ = .failed e ∨ κ₁ = κ₂) :
    Matched now t d (some (t, .session κ₂)) (some (t.without d, .session κ₁)) := by
  rcases h with rfl | rfl
  · exact refuse rfl
  · exact same

theorem readSocial {κ₁ κ₂ : SocialCall} {e : AuthError} (h : κ₁ = .failed e ∨ κ₁ = κ₂) :
    Matched now t d (some (t, .social κ₂)) (some (t.without d, .social κ₁)) := by
  rcases h with rfl | rfl
  · exact refuse rfl
  · exact same

end Matched

/-! ### The sessions -/

theorem refreshToken_without (token : Token) :
    (t.without d).refreshToken token
      = if token ∈ d .refresh then none else t.refreshToken token :=
  find?_without RefreshToken.token _ _ _

theorem checkRefreshToken_without (token : Token) (now : Timestamp) :
    (t.without d).checkRefreshToken token now = .failed .invalidToken ∨
      (t.without d).checkRefreshToken token now = t.checkRefreshToken token now := by
  unfold AuthTables.checkRefreshToken
  rw [refreshToken_without]
  split_ifs
  · exact Or.inl rfl
  · exact Or.inr rfl

theorem checkResetToken_without (token : Token) (now : Timestamp) :
    (t.without d).checkResetToken token now = .failed .invalidToken ∨
      (t.without d).checkResetToken token now = t.checkResetToken token now := by
  have hfind : (t.without d).resetTokens.find? (fun r => r.token = token)
      = if token ∈ d (.oneTime .reset) then none else t.resetTokens.find? fun r =>
        r.token = token :=
    find?_without OneTimeToken.token _ _ _
  unfold AuthTables.checkResetToken
  rw [hfind]
  split_ifs
  · exact Or.inl rfl
  · exact Or.inr rfl

/-- The rows that an UPDATE consumes are not deleted ones. -/
theorem any_consumable_without (ids : List Token) (l : List OneTimeToken) (token : Token) :
    ((l.filter fun r => r.token ∉ ids).any fun r => r.consumable token now)
      = (decide (token ∉ ids) && l.any fun r => r.consumable token now) := by
  rw [List.any_filter]
  by_cases hmem : token ∈ ids
  · rw [decide_eq_false (not_not.mpr hmem), Bool.false_and, List.any_eq_false]
    intro r _ h
    simp only [OneTimeToken.consumable, Bool.and_eq_true, decide_eq_true_eq] at h
    exact h.1 (h.2.1.1 ▸ hmem)
  · rw [decide_eq_true hmem, Bool.true_and]
    congr 1
    funext r
    by_cases hr : r.token = token
    · simp [hr, hmem]
    · simp [OneTimeToken.consumable, hr]

theorem consume_without (ids : List Token) (l : List OneTimeToken) (token : Token)
    (now : Timestamp) :
    consume (l.filter fun r => r.token ∉ ids) token now = none ∨
      ∃ rows, consume l token now = some rows ∧
        consume (l.filter fun r => r.token ∉ ids) token now
          = some (rows.filter fun r => r.token ∉ ids) := by
  unfold consume
  rw [any_consumable_without]
  by_cases hmem : token ∈ ids
  · rw [decide_eq_false (not_not.mpr hmem)]
    exact Or.inl rfl
  · rw [decide_eq_true hmem, Bool.true_and]
    split
    · refine Or.inr ⟨_, rfl, ?_⟩
      rw [filter_map_of_token OneTimeToken.token]
      intro r
      split <;> rfl
    · exact Or.inl rfl

/-- The UPDATE of `used_at` that a redemption makes. -/
theorem inserts_consume {rows : List OneTimeToken} {token : Token} {now : Timestamp}
    {l : List OneTimeToken} (h : consume l token now = some rows) :
    rows.map (fun r => (r.token, r.expiresAt)) = l.map fun r => (r.token, r.expiresAt) := by
  unfold consume at h
  split at h
  · cases h
    exact Commutes.map_expiry_map (fun r => by split <;> exact ⟨rfl, rfl⟩) l
  · cases h

theorem matched_consumeResetToken (row : OneTimeToken) (user : Account) (now : Timestamp)
    (clock : Nat) :
    Matched now t d
      (some ((t.consumeResetToken row user now clock).1,
        .session (t.consumeResetToken row user now clock).2))
      (some (((t.without d).consumeResetToken row user now clock).1,
        .session ((t.without d).consumeResetToken row user now clock).2)) := by
  unfold AuthTables.consumeResetToken
  rcases consume_without (d (.oneTime .reset)) t.resetTokens row.token now with
    hnone | ⟨rows, hrows, hrows'⟩
  · have hnone : consume (t.without d).resetTokens row.token now = none := hnone
    rw [hnone]
    exact .refuse rfl
  · have hrows' : consume (t.without d).resetTokens row.token now = some _ := hrows'
    rw [hrows, hrows']
    rintro t' κ' ⟨⟩
    refine Or.inr ⟨_, rfl, rfl, .none (fun k => ?_) rfl⟩
    cases k with
    | refresh => rfl
    | oneTime k =>
      cases k with
      | reset => exact inserts_consume hrows
      | _ => rfl

/-- The statements of the endpoints on sessions. -/
theorem matched_sessionAct (i : ι) (sr : SessionRequest) (κ : SessionCall) (input : SessionInput)
    (hnew : ∀ k, t.nextToken ∉ d k) :
    Matched input.now t d
      ((sessionAct (fun _ => sr) i (.init ι t) κ input).map fun x => (x.1.tables, .session x.2))
      ((sessionAct (fun _ => sr) i (.init ι (t.without d)) κ input).map
        fun x => (x.1.tables, .session x.2)) := by
  cases κ with
  | start =>
    cases sr with
    | refresh token =>
      exact .readSession (checkRefreshToken_without token input.now)
    | logout token => exact .write (.revokeWhere _ _) hnew
    | login email password => exact .same
    | resetPassword token password =>
      exact .readSession (checkResetToken_without token input.now)
    | changePassword user current new => exact .same
  | checked rt =>
    cases sr with
    | refresh token => exact .write (.saveRevokedAt _ _) hnew
    | _ => exact .none
  | reused user =>
    cases sr with
    | refresh token => exact .write (.revokeWhere _ _) hnew
    | _ => exact .none
  | rotated rt =>
    cases sr with
    | refresh token => exact .write (.createRefreshToken _ _) hnew
    | _ => exact .none
  | found row user =>
    cases sr with
    | resetPassword token password => exact matched_consumeResetToken row user input.now 1
    | _ => exact .none
  | authenticated user checkedAt =>
    cases sr with
    | login email password => exact .write (.createRefreshToken _ _) hnew
    | resetPassword token password => exact .write (.saveAccount _ _) hnew
    | changePassword user' current new => exact .write (.saveAccount _ _) hnew
    | _ => exact .none
  | changed user checkedAt savedAt =>
    cases sr with
    | resetPassword token password => exact .write (.revokeWhere _ _) hnew
    | changePassword user' current new => exact .write (.revokeWhere _ _) hnew
    | _ => exact .none
  | revoked user checkedAt savedAt =>
    cases sr with
    | resetPassword token password => exact .write (.createRefreshToken _ _) hnew
    | changePassword user' current new => exact .write (.createRefreshToken _ _) hnew
    | _ => exact .none
  | _ => cases sr <;> exact .none

/-! ### The endpoints of a provider -/

theorem checkLinkToken_without (token : Token) (now : Timestamp) :
    (t.without d).checkLinkToken token now = .failed .invalidToken ∨
      (t.without d).checkLinkToken token now = t.checkLinkToken token now := by
  have hfind : (t.without d).linkRequests.find? (fun r => r.token = token)
      = if token ∈ d (.oneTime .link) then none else t.linkRequests.find? fun r =>
        r.token = token :=
    find?_without (fun r : SocialLinkRequest => r.token) _ _ _
  unfold AuthTables.checkLinkToken
  rw [hfind]
  split_ifs
  · exact Or.inl rfl
  · exact Or.inr rfl

theorem consumeLinkRequest_without (token : Token) (now : Timestamp) :
    (t.without d).consumeLinkRequest token now = none ∨
      ∃ t', t.consumeLinkRequest token now = some t' ∧
        (t.without d).consumeLinkRequest token now = some (t'.without d) ∧
        InsertsLater now t t' := by
  have hany : ((t.without d).linkRequests.any fun r => r.consumable token now)
      = (decide (token ∉ d (.oneTime .link)) &&
        t.linkRequests.any fun r => r.consumable token now) := by
    have := @any_consumable_without now (d (.oneTime .link))
      (t.linkRequests.map SocialLinkRequest.toOneTimeToken) token
    rw [List.filter_map, List.any_map, List.any_map] at this
    exact this
  unfold AuthTables.consumeLinkRequest
  rw [hany]
  by_cases hmem : token ∈ d (.oneTime .link)
  · rw [decide_eq_false (not_not.mpr hmem)]
    exact Or.inl rfl
  rw [decide_eq_true hmem, Bool.true_and]
  by_cases hlive : (t.linkRequests.any fun r => r.consumable token now) = true
  · rw [if_pos hlive, if_pos hlive]
    have hcommutes : Commutes now fun t => { t with
        linkRequests := t.linkRequests.map fun r =>
          if r.consumable token now then { r with usedAt := some now } else r } :=
      .mapLinkRequests fun r => by split <;> exact ⟨rfl, rfl⟩
    refine Or.inr ⟨_, rfl, ?_, hcommutes.inserts t⟩
    -- the UPDATE is of no column that a deletion reads
    have := filter_map_of_token (fun r : SocialLinkRequest => r.token)
      (f := fun r => if r.consumable token now then { r with usedAt := some now } else r)
      (fun r => by split <;> rfl) (d (.oneTime .link)) t.linkRequests
    unfold AuthTables.without
    dsimp only
    rw [this]
  · rw [if_neg hlive]
    exact Or.inl rfl

theorem Commutes.finish (l : Link) : Commutes now fun t => l.finish t := by
  unfold Link.finish
  split
  · exact .markVerified _
  · exact .id

/-- The tables of tokens are as they were, and so is the next token. -/
theorem insertsLater_of_eq (hr : t'.refreshTokens = t.refreshTokens)
    (hrows : ∀ k, t'.rowsOf k = t.rowsOf k)
    (hnext : t'.nextToken = t.nextToken) : InsertsLater now t t' := by
  refine .none (fun k => ?_) hnext
  cases k with
  | refresh => exact congrArg (List.map _) hr
  | oneTime k => exact congrArg (List.map _) (hrows k)

theorem insertAccount_without (p : Platform) (a : Account) :
    (t.without d).insertAccount p a = (t.insertAccount p a).map fun t' => t'.without d := by
  show (if t.accounts.any _ then none else _) = Option.map _ (if t.accounts.any _ then none else _)
  split <;> rfl

theorem insertAccount_tokens {a : Account} (h : t.insertAccount p a = some t') :
    t'.refreshTokens = t.refreshTokens ∧ (∀ k, t'.rowsOf k = t.rowsOf k) ∧
      t'.nextToken = t.nextToken := by
  unfold AuthTables.insertAccount at h
  split at h
  · cases h
  · cases h
    exact ⟨rfl, fun k => by cases k <;> rfl, rfl⟩

theorem createWithIdentity_without (p : Platform) (info : OAuthUserInfo)
    (identity : ProviderIdentity) :
    (t.without d).createWithIdentity p info identity
        = ((t.createWithIdentity p info identity).1.without d,
          (t.createWithIdentity p info identity).2) ∧
      InsertsLater now t (t.createWithIdentity p info identity).1 := by
  unfold AuthTables.createWithIdentity
  by_cases hemail : info.email = ""
  · rw [if_pos hemail, if_pos hemail]
    exact ⟨rfl, Commutes.id.inserts t⟩
  rw [if_neg hemail, if_neg hemail]
  dsimp only
  rw [insertAccount_without]
  have huser : (t.without d).newAccount p info.email none true
      = t.newAccount p info.email none true :=
    rfl
  rw [huser]
  rcases hinsert : t.insertAccount p (t.newAccount p info.email none true) with - | t₁
  · exact ⟨rfl, Commutes.id.inserts t⟩
  · rw [Option.map_some]
    dsimp only
    have hsocial : (t₁.without d).socialAccount identity = t₁.socialAccount identity := rfl
    rw [hsocial]
    obtain ⟨hrefresh, hrows, hnext⟩ := insertAccount_tokens hinsert
    split
    · exact ⟨rfl, insertsLater_of_eq hrefresh hrows hnext⟩
    · exact ⟨rfl, insertsLater_of_eq hrefresh (fun k => by rw [← hrows k]; cases k <;> rfl) hnext⟩

/-- `get_or_create`, and what follows it. -/
theorem matched_getOrCreate (i : ι) (p : Platform) (sr : SocialRequest) (l : Link)
    (now : Timestamp) (hnew : ∀ k, t.nextToken ∉ d k) {κ : SocialCall}
    (hκ : κ = .looking l ∨ κ = .inserting l ∨ κ = .conflicted l ∨ κ = .owned l ∨ κ = .linked l) :
    Matched now t d
      ((socialAct p (fun _ => sr) i t κ now).map fun x => (x.1, .social x.2))
      ((socialAct p (fun _ => sr) i (t.without d) κ now).map fun x => (x.1, .social x.2)) := by
  have hfinish : Matched now t d (some (l.finish t, .social (.linked l)))
      (some (l.finish (t.without d), .social (.linked l))) := .write (.finish l) hnew
  have hsocial : (t.without d).socialAccount l.identity = t.socialAccount l.identity := rfl
  rcases hκ with rfl | rfl | rfl | rfl | rfl
  · -- the SELECT
    unfold socialAct
    cases sr with
    | _ =>
      dsimp only
      rw [hsocial]
      cases t.socialAccount l.identity with
      | none => exact .same
      | some _ => exact hfinish
  · -- the INSERT
    have hinsert : (t.without d).insertSocialAccount ⟨l.user.id, l.identity⟩
        = (t.insertSocialAccount ⟨l.user.id, l.identity⟩).map fun t' => t'.without d := by
      show (if t.socialAccounts.any _ then none else _)
        = Option.map _ (if t.socialAccounts.any _ then none else _)
      split <;> rfl
    have hcommutes : Commutes now fun t => l.finish (t.addSocialAccount ⟨l.user.id, l.identity⟩) :=
      .comp (.finish l) (.addSocialAccount _) fun _ => rfl
    unfold socialAct
    cases sr with
    | _ =>
      dsimp only
      rw [hinsert]
      rcases h : t.insertSocialAccount ⟨l.user.id, l.identity⟩ with - | t'
      · exact .same
      · obtain rfl : t' = t.addSocialAccount ⟨l.user.id, l.identity⟩ := by
          unfold AuthTables.insertSocialAccount at h
          split at h
          · cases h
          · exact (Option.some.inj h).symm
        exact .write hcommutes hnew
  · -- the SELECT after an IntegrityError
    unfold socialAct
    cases sr with
    | _ =>
      dsimp only
      rw [hsocial]
      cases t.socialAccount l.identity with
      | none => exact .same
      | some _ => exact hfinish
  · cases sr with
    | _ => exact hfinish
  · -- the sign-in
    unfold socialAct
    cases sr with
    | _ =>
      dsimp only
      split
      · exact .write (.createRefreshToken _ _) hnew
      · exact .same

/-- The statements of the endpoints of a provider. -/
theorem matched_socialAct (i : ι) (p : Platform) (sr : SocialRequest) (κ : SocialCall)
    (now : Timestamp) (hnew : ∀ k, t.nextToken ∉ d k) :
    Matched now t d
      ((socialAct p (fun _ => sr) i t κ now).map fun x => (x.1, .social x.2))
      ((socialAct p (fun _ => sr) i (t.without d) κ now).map fun x => (x.1, .social x.2)) := by
  cases κ with
  | looking l => exact matched_getOrCreate i p sr l now hnew (Or.inl rfl)
  | inserting l => exact matched_getOrCreate i p sr l now hnew (Or.inr (Or.inl rfl))
  | conflicted l => exact matched_getOrCreate i p sr l now hnew (Or.inr (Or.inr (Or.inl rfl)))
  | owned l => exact matched_getOrCreate i p sr l now hnew (Or.inr (Or.inr (Or.inr (Or.inl rfl))))
  | linked l => exact matched_getOrCreate i p sr l now hnew (Or.inr (Or.inr (Or.inr (Or.inr rfl))))
  | start =>
    cases sr with
    | callback provider info => exact .same
    | confirmLink token => exact .readSocial (checkLinkToken_without token now)
  | unknown =>
    cases sr with
    | callback provider info =>
      unfold socialAct
      dsimp only
      have hemail : (t.without d).accountByEmail p info.email = t.accountByEmail p info.email := rfl
      rw [hemail]
      cases t.accountByEmail p info.email with
      | none => exact .same
      | some existing => exact .same
    | confirmLink token => exact .none
  | taken =>
    cases sr with
    | callback provider info =>
      unfold socialAct
      dsimp only
      have hemail : (t.without d).accountByEmail p info.email = t.accountByEmail p info.email := rfl
      rw [hemail]
      cases t.accountByEmail p info.email with
      | none => exact .same
      | some existing => exact .same
    | confirmLink token => exact .none
  | unregistered =>
    cases sr with
    | callback provider info =>
      obtain ⟨hwithout, hinserts⟩ :=
        createWithIdentity_without (t := t) (d := d) p info (info.identity provider)
      rintro t' κ' h
      obtain ⟨⟨t₁, κ₁⟩, hact, heq⟩ := Option.map_eq_some_iff.mp h
      cases hact.symm.trans (congrArg some hwithout)
      cases heq
      exact Or.inr ⟨_, rfl, rfl, hinserts⟩
    | confirmLink token => exact .none
  | collided user =>
    cases sr with
    | callback provider info => exact .write (.invalidateLinkRequests _ _) hnew
    | confirmLink token => exact .none
  | invalidated user =>
    cases sr with
    | callback provider info => exact .write (.createLinkRequest _ _ _) hnew
    | confirmLink token => exact .none
  | found row user =>
    cases sr with
    | callback provider info => exact .none
    | confirmLink token =>
      unfold socialAct
      dsimp only
      rcases consumeLinkRequest_without (t := t) (d := d) row.token now with
        hnone | ⟨t₁, ht₁, hsome, hinserts⟩
      · rw [hnone]
        exact .refuse rfl
      · rw [hsome, ht₁]
        rintro t' κ' ⟨⟩
        exact Or.inr ⟨t₁, rfl, rfl, hinserts⟩
  | consumed row user =>
    cases sr with
    | callback provider info => exact .none
    | confirmLink token => exact .same
  | _ => cases sr <;> exact .none

/-! ### The endpoints of accounts -/

theorem checkVerificationToken_without (token : Token) (now : Timestamp) :
    (t.without d).checkVerificationToken token now = .failed .invalidToken ∨
      (t.without d).checkVerificationToken token now = t.checkVerificationToken token now := by
  have hfind : (t.without d).verificationTokens.find? (fun r => r.token = token)
      = if token ∈ d (.oneTime .verification) then none
        else t.verificationTokens.find? fun r => r.token = token :=
    find?_without OneTimeToken.token _ _ _
  unfold AuthTables.checkVerificationToken AuthTables.oneTimeToken
  rw [hfind]
  split_ifs
  · exact Or.inl rfl
  · exact Or.inr rfl

theorem matched_consumeVerificationToken (row : OneTimeToken) (user : Account) (now : Timestamp) :
    Matched now t d (some (t.consumeVerificationToken row user now))
      (some ((t.without d).consumeVerificationToken row user now)) := by
  unfold AuthTables.consumeVerificationToken
  rcases consume_without (d (.oneTime .verification)) t.verificationTokens row.token now with
    hnone | ⟨rows, hrows, hrows'⟩
  · have hnone : consume (t.without d).verificationTokens row.token now = none := hnone
    rw [hnone]
    exact .refuse rfl
  · have hrows' : consume (t.without d).verificationTokens row.token now = some _ := hrows'
    rw [hrows, hrows']
    rintro t' κ' ⟨⟩
    refine Or.inr ⟨_, rfl, rfl, .none (fun k => ?_) rfl⟩
    cases k with
    | refresh => rfl
    | oneTime k =>
      cases k with
      | verification => exact inserts_consume hrows
      | _ => rfl

theorem matched_activate (user : Account) (password : Option String)
    (hnew : ∀ k, t.nextToken ∉ d k) :
    Matched now t d (some (t.activate user password))
    (some ((t.without d).activate user password)) := by
  unfold AuthTables.activate
  split
  · exact .write (.markVerified _) hnew
  split
  · exact .same
  · exact .write (.saveAccount _ _) hnew

theorem matched_admitInvitee (p : Platform) (email : String) (now : Timestamp)
    (hnew : ∀ k, t.nextToken ∉ d k) :
    Matched now t d (some (t.admitInvitee p email now))
    (some ((t.without d).admitInvitee p email now)) := by
  unfold AuthTables.admitInvitee
  have huser : (t.without d).newAccount p email none false = t.newAccount p email none false := rfl
  dsimp only
  rw [huser, insertAccount_without]
  rcases hinsert : t.insertAccount p (t.newAccount p email none false) with - | t₁
  · exact .same
  · obtain ⟨hrefresh, hrows, hnext⟩ := insertAccount_tokens hinsert
    have hkeys : ∀ k, t₁.expiries k = t.expiries k := by
      intro k
      cases k with
      | refresh => exact congrArg (List.map _) hrefresh
      | oneTime k => exact congrArg (List.map _) (hrows k)
    have hcreate := Commutes.createVerificationToken (t.newAccount p email none false).id now
    rintro t' κ' ⟨⟩
    refine Or.inr ⟨_, rfl, hcreate.without t₁ d fun k => hnext ▸ hnew k, ?_⟩
    cases hcreate.inserts t₁ with
    | none hrows' hnext' => exact .none (fun k => (hrows' k).trans (hkeys k)) (hnext'.trans hnext)
    | one k expires hrow hothers hnext' hexpires =>
      refine .one k expires ?_ (fun k' hk' => (hothers k' hk').trans (hkeys k')) ?_ hexpires
      · rw [hrow, hkeys, hnext]
      · rw [hnext', hnext]

theorem matched_registerUser (p : Platform) (email password : String) :
    Matched now t d (some (t.registerUser p email password))
      (some ((t.without d).registerUser p email password)) := by
  unfold AuthTables.registerUser
  have huser : (t.without d).newAccount p email (some password) false
      = t.newAccount p email (some password) false := rfl
  dsimp only
  rw [huser, insertAccount_without]
  rcases hinsert : t.insertAccount p (t.newAccount p email (some password) false) with - | t₁
  · exact .same
  · obtain ⟨hrefresh, hrows, hnext⟩ := insertAccount_tokens hinsert
    rintro t' κ' ⟨⟩
    exact Or.inr ⟨t₁, rfl, rfl, insertsLater_of_eq hrefresh hrows hnext⟩

/-- An access token that is verified among the rows that are left is verified
among all. -/
theorem verified_of_without {r : AccountRequest} {κ : SessionCall}
    (h : r.verified (t.without d) κ = true) : r.verified t κ = true := by
  unfold AccountRequest.verified at h ⊢
  split at h
  · obtain ⟨rt, hrt, hpair⟩ := List.any_eq_true.mp h
    exact List.any_eq_true.mpr ⟨rt, (List.mem_filter.mp hrt).1, hpair⟩
  · rfl

theorem matched_session (i : ι) (p : Platform) (requests : ι → AccountRequest) (κ : SessionCall)
    (input : SessionInput) (hnew : ∀ k, t.nextToken ∉ d k) :
    Matched input.now t d (tableAct p requests i t (.session κ) input)
      (tableAct p requests i (t.without d) (.session κ) input) := by
  have hact : ∀ t' : AuthTables, tableAct p requests i t' (.session κ) input
      = if (requests i).verified t' κ then
          (requests i).session.bind fun sr =>
            (sessionAct (fun _ => sr) i (.init ι t') κ input).map fun x =>
              (x.1.tables, .session x.2)
        else some (t', .failed .invalidToken) := by
    intro t'
    unfold tableAct accountStatement
    dsimp only
    by_cases h : (requests i).verified t' κ = true
    · have h' : (requests i).verified (SessionDb.init ι t').tables κ = true := h
      rw [if_pos h, if_pos h', Option.map_bind]
      congr 1
      funext sr
      rw [Function.comp_apply, Option.map_map]
      rfl
    · have h' : ¬ (requests i).verified (SessionDb.init ι t').tables κ = true := h
      rw [if_neg h, if_neg h']
      rfl
  rw [hact, hact]
  by_cases hverified : (requests i).verified (t.without d) κ = true
  · rw [if_pos hverified, if_pos (verified_of_without hverified)]
    cases (requests i).session with
    | none => exact .none
    | some sr => exact matched_sessionAct i sr κ input hnew
  · rw [if_neg hverified]
    exact .refuse rfl

/-- **A statement on what a deletion leaves** is refused and writes nothing, or
does what it does on all rows. -/
theorem matched_tableAct (i : ι) (p : Platform) (requests : ι → AccountRequest) (κ : AccountCall)
    (input : SessionInput) (hnew : ∀ k, t.nextToken ∉ d k) :
    Matched input.now t d (tableAct p requests i t κ input)
    (tableAct p requests i (t.without d) κ input) := by
  cases κ with
  | session κ => exact matched_session i p requests κ input hnew
  | social κ =>
    unfold tableAct accountStatement
    cases requests i with
    | social sr =>
      have := matched_socialAct i p sr κ input.now hnew
      dsimp only
      rw [Option.map_map, Option.map_map]
      exact this
    | _ => exact .none
  | start =>
    unfold tableAct accountStatement
    cases requests i with
    | acceptInvitation email => exact .same
    | register email password => exact .same
    | verifyEmail token password => exact .read (checkVerificationToken_without token input.now)
    | resendVerification email => exact .same
    | forgotPassword email => exact .same
    | _ => exact .none
  | unregistered =>
    unfold tableAct accountStatement
    cases requests i with
    | acceptInvitation email => exact matched_admitInvitee p email input.now hnew
    | register email password => exact matched_registerUser p email password
    | _ => exact .none
  | registered user =>
    unfold tableAct accountStatement
    cases requests i with
    | register email password => exact .write (.createVerificationToken _ _) hnew
    | _ => exact .none
  | welcomed user token =>
    unfold tableAct accountStatement
    cases requests i with
    | register email password => exact .write (.createRefreshToken _ _) hnew
    | _ => exact .none
  | found row user =>
    unfold tableAct accountStatement
    cases requests i with
    | verifyEmail token password => exact matched_consumeVerificationToken row user input.now
    | _ => exact .none
  | consumed row user =>
    unfold tableAct accountStatement
    cases requests i with
    | verifyEmail token password => exact matched_activate user password hnew
    | _ => exact .none
  | activated user =>
    unfold tableAct accountStatement
    cases requests i with
    | verifyEmail token password => exact .write (.createRefreshToken _ _) hnew
    | _ => exact .none
  | addressed user =>
    unfold tableAct accountStatement
    cases requests i with
    | resendVerification email => exact .write (.invalidateVerificationTokens _ _) hnew
    | forgotPassword email => exact .write (.createResetToken _ _) hnew
    | _ => exact .none
  | invalidated user =>
    unfold tableAct accountStatement
    cases requests i with
    | resendVerification email => exact .write (.createVerificationToken _ _) hnew
    | _ => exact .none
  | _ =>
    unfold tableAct accountStatement
    cases requests i <;> exact .none

/-- A request that was refused takes no step. -/
theorem tableAct_refused {i : ι} {requests : ι → AccountRequest} {κ : AccountCall}
    {input : SessionInput} (h : κ.refused = true) : tableAct p requests i t κ input = none := by
  unfold tableAct accountStatement
  cases κ with
  | failed e => cases requests i <;> rfl
  | session κ =>
    cases κ with
    | failed e => cases requests i <;> rfl
    | _ => cases h
  | social κ =>
    cases κ with
    | failed e =>
      cases requests i with
      | social sr => cases sr <;> rfl
      | _ => rfl
    | _ => cases h
  | _ => cases h

end Saasmint
