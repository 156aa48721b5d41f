/-
Saasmint/Users/TokenSteps.lean

What a step does to the one-time tokens: the tables of the three kinds are left
alone, or the unused tokens of a user are invalidated, or one is inserted, or
one is consumed by its conditional UPDATE (`accountStatement_tokens`).
-/
import Saasmint.Users.AccountSteps

namespace Saasmint

variable {ι : Type*} {p : Platform} {t t' t'' : AuthTables} {now : Timestamp}

/-! ### Kinds of tokens -/

inductive TokenKind
  | verification
  | reset
  | link
  deriving DecidableEq, Repr

instance TokenKind.decidableForall {P : TokenKind → Prop} [∀ k, Decidable (P k)] :
    Decidable (∀ k, P k) :=
  decidable_of_iff (P .verification ∧ P .reset ∧ P .link)
    ⟨fun h k => by cases k; exacts [h.1, h.2.1, h.2.2], fun h => ⟨h _, h _, h _⟩⟩

/-- The table of a kind, without what a link request carries. -/
def AuthTables.rowsOf (t : AuthTables) : TokenKind → List OneTimeToken
  | .verification => t.verificationTokens
  | .reset => t.resetTokens
  | .link => t.linkRequests.map SocialLinkRequest.toOneTimeToken

/-- The kind that the endpoint of a request redeems. -/
def AccountRequest.redeems : AccountRequest → Option TokenKind
  | verifyEmail _ _ => some .verification
  | resetPassword _ _ => some .reset
  | social (.confirmLink _) => some .link
  | _ => none

/-- The request has invalidated the tokens of the user, and not inserted one. -/
def AccountCall.invalidatedFor : AccountCall → Option (TokenKind × UUID)
  | invalidated user => some (.verification, user.id)
  | social (.invalidated user) => some (.link, user.id)
  | _ => none

/-- The INSERT that follows an invalidation. -/
def renewedBy : AccountCall → AccountCall → Option (TokenKind × UUID)
  | .invalidated user, .mailed _ _ => some (.verification, user.id)
  | .social (.invalidated user), .social .linkSent => some (.link, user.id)
  | _, _ => none

/-- The kind and the user of the token that a request is about to insert. -/
def AccountRequest.mints (r : AccountRequest) (t : AuthTables) :
    AccountCall → Option (TokenKind × UUID)
  | .registered user | .invalidated user => some (.verification, user.id)
  | .social (.invalidated user) => some (.link, user.id)
  | .unregistered =>
    match r with
    | acceptInvitation _ => some (.verification, t.nextKey)
    | _ => none
  | .addressed user =>
    match r with
    | forgotPassword _ => some (.reset, user.id)
    | _ => none
  | _ => none

/-- The UPDATE of `used_at` on the rows that `q` picks. -/
def OneTimeToken.mark (q : OneTimeToken → Bool) (now : Timestamp) (row : OneTimeToken) :
    OneTimeToken :=
  if q row then { row with usedAt := some now } else row

/-! ### What a step does -/

/-- The step consumes no token, and is no invalidation and no INSERT after one. -/
structure Idle (κ κ' : AccountCall) : Prop where
  consumed : consumedBy κ κ' = none
  renewed : renewedBy κ κ' = none
  invalidated : κ'.invalidatedFor = none

/-- What a step of the request, which is `r`, does to the one-time tokens. -/
inductive TokenStep (r : AccountRequest) (now : Timestamp) (t t' : AuthTables)
    (κ κ' : AccountCall) : Prop
  | keeps (hrows : ∀ k, t'.rowsOf k = t.rowsOf k) (hnext : t.nextToken ≤ t'.nextToken)
      (hidle : Idle κ κ')
  | invalidates (k : TokenKind) (user : UUID)
      (hrows : t'.rowsOf k =
        (t.rowsOf k).map (OneTimeToken.mark (fun x => x.user = user && x.usedAt.isNone) now))
      (hothers : ∀ k', k' ≠ k → t'.rowsOf k' = t.rowsOf k') (hnext : t'.nextToken = t.nextToken)
      (hconsumed : consumedBy κ κ' = none) (hrenewed : renewedBy κ κ' = none)
      (hκ' : κ'.invalidatedFor = some (k, user))
  | mints (k : TokenKind) (user : UUID) (lifetime : Timestamp)
      (hmints : r.mints t κ = some (k, user))
      (hrows : t'.rowsOf k = t.rowsOf k ++ [⟨t.nextToken, user, now + lifetime, none⟩])
      (hothers : ∀ k', k' ≠ k → t'.rowsOf k' = t.rowsOf k') (hnext : t'.nextToken = t.nextToken + 1)
      (hconsumed : consumedBy κ κ' = none)
      (hrenewed : ∀ x, renewedBy κ κ' = some x → x = (k, user))
      (hκ' : κ'.invalidatedFor = none)
  | consumes (k : TokenKind) (id : UUID) (token : Token) (hr : r.redeems = some k)
      (hfound : κ.foundToken = some (id, token))
      (hlive : ∃ row ∈ t.rowsOf k, row.consumable token now = true)
      (hrows : t'.rowsOf k =
        (t.rowsOf k).map (OneTimeToken.mark (fun x => x.consumable token now) now))
      (hothers : ∀ k', k' ≠ k → t'.rowsOf k' = t.rowsOf k') (hnext : t'.nextToken = t.nextToken)
      (hconsumed : ∀ x, consumedBy κ κ' = some x → x = token)
      (hrenewed : renewedBy κ κ' = none) (hκ' : κ'.invalidatedFor = none)

/-! ### Statements on other tables -/

/-- The tables of one-time tokens are as they were. -/
structure AuthTables.KeepsRows (t t' : AuthTables) : Prop where
  rows : ∀ k, t'.rowsOf k = t.rowsOf k
  next : t.nextToken ≤ t'.nextToken

namespace AuthTables.KeepsRows

theorem refl (t : AuthTables) : t.KeepsRows t := ⟨fun _ => rfl, Nat.le_refl _⟩

theorem trans (h : t.KeepsRows t') (h' : t'.KeepsRows t'') : t.KeepsRows t'' :=
  ⟨fun k => (h'.rows k).trans (h.rows k), Nat.le_trans h.next h'.next⟩

/-- Statements that leave the four columns. -/
theorem of_eq (hv : t'.verificationTokens = t.verificationTokens)
    (hr : t'.resetTokens = t.resetTokens) (hl : t'.linkRequests = t.linkRequests)
    (hn : t'.nextToken = t.nextToken) : t.KeepsRows t' where
  rows k := by
    cases k with
    | verification => exact hv
    | reset => exact hr
    | link =>
      show t'.linkRequests.map _ = _
      rw [hl]
      rfl
  next := Nat.le_of_eq hn.symm

theorem createRefreshToken {user : UUID} : t.KeepsRows (t.createRefreshToken user now) :=
  ⟨fun k => by cases k <;> rfl, Nat.le_succ _⟩

theorem markVerified (user : Account) : t.KeepsRows (t.markVerified user) := by
  show t.KeepsRows (if user.isVerified then t else _)
  split
  · exact refl t
  · exact of_eq rfl rfl rfl rfl

theorem insertAccount {a : Account} (h : t.insertAccount p a = some t') : t.KeepsRows t' := by
  unfold AuthTables.insertAccount at h
  split at h
  · cases h
  · obtain rfl := Option.some.inj h
    exact of_eq rfl rfl rfl rfl

theorem finish (l : Link) : t.KeepsRows (l.finish t) := by
  show t.KeepsRows (if l.confirm then _ else t)
  split
  · exact markVerified l.user
  · exact refl t

end AuthTables.KeepsRows

variable {r : AccountRequest} {κ κ' : AccountCall}

theorem TokenStep.keep (h : t.KeepsRows t') (hidle : Idle κ κ') : TokenStep r now t t' κ κ' :=
  .keeps h.rows h.next hidle

theorem TokenStep.same (hidle : Idle κ κ') : TokenStep r now t t κ κ' := .keep (.refl t) hidle

/-! ### The conditional UPDATE -/

theorem consume_eq_some {rows rows' : List OneTimeToken} {token : Token} :
    consume rows token now = some rows' ↔
      (∃ row ∈ rows, row.consumable token now = true) ∧
        rows' = rows.map (OneTimeToken.mark (fun x => x.consumable token now) now) := by
  unfold consume
  constructor
  · intro h
    split at h
    · rename_i hany
      exact ⟨List.any_eq_true.mp hany, (Option.some.inj h).symm⟩
    · cases h
  · rintro ⟨hany, rfl⟩
    exact if_pos (List.any_eq_true.mpr hany)

/-- The UPDATE of a link request is that of its columns. -/
theorem map_toOneTimeToken (q : OneTimeToken → Bool) (rows : List SocialLinkRequest) :
    (rows.map fun x => if q x.toOneTimeToken then { x with usedAt := some now } else x).map
        SocialLinkRequest.toOneTimeToken
      = (rows.map SocialLinkRequest.toOneTimeToken).map (OneTimeToken.mark q now) := by
  rw [List.map_map, List.map_map]
  apply List.map_congr_left
  intro x _
  show (if q x.toOneTimeToken then { x with usedAt := some now } else x).toOneTimeToken
    = if q x.toOneTimeToken then { x.toOneTimeToken with usedAt := some now } else x.toOneTimeToken
  split <;> rfl

theorem consumeLinkRequest_eq_some {token : Token} (h : t.consumeLinkRequest token now = some t') :
    (∃ row ∈ t.rowsOf .link, row.consumable token now = true) ∧
      t'.rowsOf .link =
        (t.rowsOf .link).map (OneTimeToken.mark (fun x => x.consumable token now) now) ∧
      (∀ k, k ≠ .link → t'.rowsOf k = t.rowsOf k) ∧ t'.nextToken = t.nextToken := by
  unfold AuthTables.consumeLinkRequest at h
  split at h
  · rename_i hany
    obtain rfl := Option.some.inj h
    refine ⟨?_, map_toOneTimeToken (fun x => x.consumable token now) _, fun k hk => ?_, rfl⟩
    · obtain ⟨row, hrow, hlive⟩ := List.any_eq_true.mp hany
      exact ⟨row.toOneTimeToken, List.mem_map_of_mem hrow, hlive⟩
    · cases k with
      | link => exact absurd rfl hk
      | verification => rfl
      | reset => rfl
  · cases h

/-! ### The endpoints -/

section Endpoints

variable {i : ι} {db db' : SessionDb ι} {input : SessionInput}

theorem TokenStep.of_sessionAct {sr : SessionRequest} {κ κ' : SessionCall}
    (hr : r.session = some sr) (h : sessionAct (fun _ => sr) i db κ input = some (db', κ')) :
    TokenStep r input.now db.tables db'.tables (.session κ) (.session κ') := by
  have hidle : (∀ row user, κ ≠ .found row user) → Idle (.session κ) (.session κ') := by
    intro hκ
    refine ⟨?_, rfl, rfl⟩
    cases κ with
    | found row user => exact absurd rfl (hκ row user)
    | _ => rfl
  unfold sessionAct at h
  dsimp only at h
  split at h
  case h_9 token _ row user =>
    -- the UPDATE of a reset
    have hreset : r.redeems = some .reset := by
      cases r with
      | resetPassword token' password => rfl
      | _ => cases hr
    obtain ⟨rfl, rfl⟩ := Prod.mk.inj (Option.some.inj h)
    show TokenStep r _ _ (db.tables.consumeResetToken row user input.now db.clock).1 _ _
    unfold AuthTables.consumeResetToken
    split
    · exact .same ⟨rfl, rfl, rfl⟩
    · rename_i rows hconsume
      obtain ⟨hlive, rfl⟩ := consume_eq_some.mp hconsume
      refine .consumes .reset user.id row.token hreset rfl hlive rfl ?_ rfl ?_ rfl rfl
      · intro k hk
        cases k with
        | reset => exact absurd rfl hk
        | verification => rfl
        | link => rfl
      · intro x hx
        dsimp only at hx
        split at hx
        · exact (Option.some.inj hx).symm
        · cases hx
  -- the other statements are on other tables
  all_goals first
    | obtain ⟨rfl, rfl⟩ := Prod.mk.inj (Option.some.inj h)
      refine TokenStep.keep ?_ (hidle fun _ _ hfound => by cases hfound)
      first
        | exact .refl _
        | exact .createRefreshToken
        | exact .of_eq rfl rfl rfl rfl
    | cases h

/-- A request of a provider that has found a token is a confirm-link. -/
theorem confirmLink_of_found {sr : SocialRequest} {row : SocialLinkRequest} {user : Account}
    {κ' : SocialCall} (h : socialAct p (fun _ => sr) i t (.found row user) now = some (t', κ')) :
    (AccountRequest.social sr).redeems = some .link := by
  cases sr with
  | confirmLink token => rfl
  | callback provider info => cases h

theorem TokenStep.of_socialAct {sr : SocialRequest} {κ κ' : SocialCall}
    (hact : socialAct p (fun _ => sr) i t κ now = some (t', κ')) :
    TokenStep (.social sr) now t t' (.social κ) (.social κ') := by
  by_cases hinvalidated : ∃ user, κ = .invalidated user
  · -- the INSERT of a callback
    obtain ⟨user, rfl⟩ := hinvalidated
    cases sr with
    | confirmLink token => cases hact
    | callback provider info =>
      obtain ⟨rfl, rfl⟩ := Prod.mk.inj (Option.some.inj hact)
      refine .mints .link user.id socialLinkLifetime rfl ?_ (fun k hk => ?_) rfl rfl ?_ rfl
      · exact List.map_append
      · cases k with
        | link => exact absurd rfl hk
        | verification => rfl
        | reset => rfl
      · exact fun x hx => (Option.some.inj hx).symm
  have hne : ∀ user, κ ≠ .invalidated user := fun user hκ => hinvalidated ⟨user, hκ⟩
  have hquiet : ∀ {κ' : SocialCall}, κ'.Quiet = true → Idle (.social κ) (.social κ') := by
    intro κ' hκ'
    refine ⟨?_, ?_, ?_⟩
    · cases κ' with
      | consumed row user => cases hκ'
      | _ => cases κ <;> rfl
    · cases κ with
      | invalidated user => exact absurd rfl (hne user)
      | _ => rfl
    · cases κ' with
      | invalidated user => cases hκ'
      | _ => rfl
  cases socialAct_cases hact with
  | read ht hκ' =>
    subst ht
    exact .same (hquiet hκ')
  | verified _ _ _ _ ht hκ' | known _ _ _ _ _ ht hκ' | trust _ _ _ _ _ _ _ ht hκ'
  | collide _ _ ht hκ' =>
    subst ht hκ'
    exact .same ⟨by cases κ <;> rfl, by cases κ <;> rfl, rfl⟩
  | create _ _ t₁ _ hκ _ hinsert ht hκ' =>
    subst hκ hκ'
    have hkeeps : t.KeepsRows t₁ := .insertAccount hinsert
    rcases ht with ⟨rfl, -⟩ | rfl
    · exact .keep hkeeps ⟨rfl, rfl, rfl⟩
    · exact .keep (hkeeps.trans (.of_eq rfl rfl rfl rfl)) ⟨rfl, rfl, rfl⟩
  | find l hκ _ ht hκ' =>
    subst ht hκ'
    rcases hκ with rfl | rfl
    · exact .keep (.finish l) ⟨rfl, rfl, rfl⟩
    · exact .keep (.finish l) ⟨rfl, rfl, rfl⟩
  | miss l hκ ht hκ' | conflict l hκ _ ht hκ' | raise l hκ _ ht hκ' =>
    subst hκ ht hκ'
    exact .same ⟨rfl, rfl, rfl⟩
  | insert l hκ ht hκ' =>
    subst hκ ht hκ'
    have hadd : t.KeepsRows (t.addSocialAccount ⟨l.user.id, l.identity⟩) :=
      .of_eq rfl rfl rfl rfl
    exact .keep (hadd.trans (.finish l)) ⟨rfl, rfl, rfl⟩
  | finish l hκ ht hκ' =>
    subst hκ ht hκ'
    exact .keep (.finish l) ⟨rfl, rfl, rfl⟩
  | signIn l hκ _ ht hκ' =>
    subst hκ ht hκ'
    exact .keep .createRefreshToken ⟨rfl, rfl, rfl⟩
  | invalidate user hκ ht hκ' =>
    subst hκ ht hκ'
    refine .invalidates .link user.id ?_ (fun k hk => ?_) rfl rfl rfl rfl
    · exact map_toOneTimeToken (fun x => x.user = user.id && x.usedAt.isNone) _
    · cases k with
      | link => exact absurd rfl hk
      | verification => rfl
      | reset => rfl
  | request user identity hκ ht hκ' => exact absurd hκ (hne user)
  | check token row user _ _ _ _ ht hκ' =>
    subst ht hκ'
    exact .same ⟨by cases κ <;> rfl, by cases κ <;> rfl, rfl⟩
  | consume row user hκ ht hκ' =>
    subst hκ
    obtain ⟨hlive, hrows, hothers, hnext⟩ := consumeLinkRequest_eq_some ht
    refine .consumes .link user.id row.token (confirmLink_of_found hact) rfl hlive
      hrows hothers hnext
      ?_ ?_ ?_
    · intro x hx
      rcases hκ' with rfl | hq
      · exact (Option.some.inj hx).symm
      · cases hx.symm.trans (hquiet hq).consumed
    · rfl
    · rcases hκ' with rfl | hq
      · rfl
      · exact (hquiet hq).invalidated
  | unbound row user hκ ht hκ' | own row user hκ _ ht hκ' =>
    subst hκ ht hκ'
    exact .same ⟨rfl, rfl, rfl⟩

/-- The INSERT of a verification token, in a table that has the rows of `t`. -/
theorem TokenStep.createVerificationToken {t₁ : AuthTables} {user : UUID}
    (hmints : r.mints t κ = some (.verification, user)) (hrows : ∀ k, t₁.rowsOf k = t.rowsOf k)
    (hnext : t₁.nextToken = t.nextToken) (hconsumed : consumedBy κ κ' = none)
    (hrenewed : ∀ x, renewedBy κ κ' = some x → x = (.verification, user))
    (hκ' : κ'.invalidatedFor = none) :
    TokenStep r now t (t₁.createVerificationToken user now) κ κ' := by
  refine .mints .verification user emailVerificationLifetime hmints ?_ (fun k hk => ?_) ?_ hconsumed
    hrenewed hκ'
  · show t₁.rowsOf .verification ++ [⟨t₁.nextToken, _, _, _⟩] = _
    rw [hrows, hnext]
  · cases k with
    | verification => exact absurd rfl hk
    | reset => exact hrows .reset
    | link => exact hrows .link
  · show t₁.nextToken + 1 = _
    rw [hnext]

theorem admitInvitee_tokens {email : String} :
    TokenStep (.acceptInvitation email) now t (t.admitInvitee p email now).1 .unregistered
      (t.admitInvitee p email now).2 := by
  unfold AuthTables.admitInvitee
  dsimp only
  split
  · exact .same ⟨rfl, rfl, rfl⟩
  · rename_i t₁ hinsert
    have hnext : t₁.nextToken = t.nextToken := by
      unfold AuthTables.insertAccount at hinsert
      split at hinsert
      · cases hinsert
      · cases hinsert
        rfl
    exact .createVerificationToken rfl (AuthTables.KeepsRows.insertAccount hinsert).rows hnext rfl
      nofun rfl

theorem registerUser_tokens {email password : String} :
    TokenStep r now t (t.registerUser p email password).1 .unregistered
      (t.registerUser p email password).2 := by
  unfold AuthTables.registerUser
  dsimp only
  split
  · exact .same ⟨rfl, rfl, rfl⟩
  · rename_i t₁ hinsert
    exact .keep (.insertAccount hinsert) ⟨rfl, rfl, rfl⟩

theorem consumeVerificationToken_tokens {row : OneTimeToken} {user : Account}
    (hr : r.redeems = some .verification) :
    TokenStep r now t (t.consumeVerificationToken row user now).1 (.found row user)
      (t.consumeVerificationToken row user now).2 := by
  unfold AuthTables.consumeVerificationToken
  split
  · exact .same ⟨rfl, rfl, rfl⟩
  · rename_i rows hconsume
    obtain ⟨hlive, rfl⟩ := consume_eq_some.mp hconsume
    refine .consumes .verification user.id row.token hr rfl hlive rfl (fun k hk => ?_) rfl ?_ rfl ?_
    · cases k with
      | verification => exact absurd rfl hk
      | reset => rfl
      | link => rfl
    · intro x hx
      dsimp only at hx
      split at hx
      · exact (Option.some.inj hx).symm
      · cases hx
    · dsimp only
      split <;> rfl

theorem activate_tokens {row : OneTimeToken} {user : Account} {password : Option String} :
    TokenStep r now t (t.activate user password).1 (.consumed row user)
      (t.activate user password).2 := by
  unfold AuthTables.activate
  split
  · exact .keep (.markVerified user) ⟨rfl, rfl, rfl⟩
  · split
    · exact .same ⟨rfl, rfl, rfl⟩
    · exact .keep (.of_eq rfl rfl rfl rfl) ⟨rfl, rfl, rfl⟩

/-- **What a step does to the one-time tokens.** -/
theorem accountStatement_tokens (h : accountStatement p r i db κ input = some (db', κ')) :
    TokenStep r input.now db.tables db'.tables κ κ' := by
  unfold accountStatement at h
  dsimp only at h
  split at h
  · -- the endpoints on sessions
    split at h
    · obtain ⟨sr, hsr, hmap⟩ := Option.bind_eq_some_iff.mp h
      obtain ⟨⟨db₁, κ₁⟩, hact, heq⟩ := Option.map_eq_some_iff.mp hmap
      obtain ⟨rfl, rfl⟩ := Prod.mk.inj heq
      exact .of_sessionAct hsr hact
    · obtain ⟨rfl, rfl⟩ := Prod.mk.inj (Option.some.inj h)
      exact .same ⟨by cases ‹SessionCall› <;> rfl, rfl, rfl⟩
  · -- the endpoints of a provider
    obtain ⟨⟨t₁, κ₁⟩, hact, heq⟩ := Option.map_eq_some_iff.mp h
    obtain ⟨rfl, rfl⟩ := Prod.mk.inj heq
    exact .of_socialAct hact
  · -- the email of an invitation
    obtain ⟨rfl, rfl⟩ := Prod.mk.inj (Option.some.inj h)
    apply TokenStep.same
    split <;> exact ⟨rfl, rfl, rfl⟩
  · -- the email of a registration
    obtain ⟨rfl, rfl⟩ := Prod.mk.inj (Option.some.inj h)
    apply TokenStep.same
    split <;> exact ⟨rfl, rfl, rfl⟩
  · obtain ⟨rfl, rfl⟩ := Prod.mk.inj (Option.some.inj h)
    exact admitInvitee_tokens
  · obtain ⟨rfl, rfl⟩ := Prod.mk.inj (Option.some.inj h)
    exact registerUser_tokens
  · -- the verification email of a registration
    obtain ⟨rfl, rfl⟩ := Prod.mk.inj (Option.some.inj h)
    exact .createVerificationToken rfl (fun _ => rfl) rfl rfl nofun rfl
  · obtain ⟨rfl, rfl⟩ := Prod.mk.inj (Option.some.inj h)
    exact .keep .createRefreshToken ⟨rfl, rfl, rfl⟩
  · obtain ⟨rfl, rfl⟩ := Prod.mk.inj (Option.some.inj h)
    apply TokenStep.same
    unfold AuthTables.checkVerificationToken
    split <;> exact ⟨rfl, rfl, rfl⟩
  · obtain ⟨rfl, rfl⟩ := Prod.mk.inj (Option.some.inj h)
    exact consumeVerificationToken_tokens rfl
  · obtain ⟨rfl, rfl⟩ := Prod.mk.inj (Option.some.inj h)
    exact activate_tokens
  · obtain ⟨rfl, rfl⟩ := Prod.mk.inj (Option.some.inj h)
    exact .keep .createRefreshToken ⟨rfl, rfl, rfl⟩
  · obtain ⟨rfl, rfl⟩ := Prod.mk.inj (Option.some.inj h)
    apply TokenStep.same
    unfold AuthTables.toVerify
    split <;> exact ⟨rfl, rfl, rfl⟩
  · -- the earlier verification tokens
    obtain ⟨rfl, rfl⟩ := Prod.mk.inj (Option.some.inj h)
    refine .invalidates .verification _ rfl (fun k hk => ?_) rfl rfl rfl rfl
    cases k with
    | verification => exact absurd rfl hk
    | reset => rfl
    | link => rfl
  · obtain ⟨rfl, rfl⟩ := Prod.mk.inj (Option.some.inj h)
    exact .createVerificationToken rfl (fun _ => rfl) rfl rfl
      (fun x hx => (Option.some.inj hx).symm) rfl
  · obtain ⟨rfl, rfl⟩ := Prod.mk.inj (Option.some.inj h)
    apply TokenStep.same
    unfold AuthTables.toReset
    split <;> exact ⟨rfl, rfl, rfl⟩
  · -- the INSERT of a reset token
    obtain ⟨rfl, rfl⟩ := Prod.mk.inj (Option.some.inj h)
    refine .mints .reset _ passwordResetLifetime rfl rfl (fun k hk => ?_) rfl rfl nofun rfl
    cases k with
    | reset => exact absurd rfl hk
    | verification => rfl
    | link => rfl
  · cases h

end Endpoints

/-! ### What becomes of the rows -/

/-- The row, with its token, user and expiry, and used if it was. -/
structure OneTimeToken.Later (row row' : OneTimeToken) : Prop where
  token : row'.token = row.token
  user : row'.user = row.user
  expiresAt : row'.expiresAt = row.expiresAt
  used : row.usedAt ≠ none → row'.usedAt ≠ none

theorem OneTimeToken.later_mark (q : OneTimeToken → Bool) (row : OneTimeToken) :
    row.Later (row.mark q now) := by
  unfold mark
  split
  · exact ⟨rfl, rfl, rfl, fun _ => by simp⟩
  · exact ⟨rfl, rfl, rfl, fun h => h⟩

theorem OneTimeToken.mark_used {q : OneTimeToken → Bool} {row : OneTimeToken} (h : q row = true) :
    (row.mark q now).usedAt ≠ none := by
  rw [mark, if_pos h]
  simp

/-- Each row of the table becomes a later one, or one more row is inserted. -/
theorem TokenStep.rows (h : TokenStep r now t t' κ κ') (k : TokenKind) :
    (∃ f : OneTimeToken → OneTimeToken, (∀ row : OneTimeToken, row.Later (f row)) ∧
      t'.rowsOf k = (t.rowsOf k).map f) ∨
    ∃ user expiresAt, t'.rowsOf k = t.rowsOf k ++ [⟨t.nextToken, user, expiresAt, none⟩] ∧
      t'.nextToken = t.nextToken + 1 ∧ r.mints t κ = some (k, user) ∧
      ∀ k', k' ≠ k → t'.rowsOf k' = t.rowsOf k' := by
  have hid : ∀ {rows : List OneTimeToken}, rows = rows.map id := by
    intro rows
    rw [List.map_id]
  have hlater : ∀ row : OneTimeToken, row.Later (id row) := fun _ => ⟨rfl, rfl, rfl, fun h => h⟩
  cases h with
  | keeps hrows =>
    left
    exact ⟨id, hlater, (hrows k).trans hid⟩
  | invalidates k₀ user hrows hothers =>
    left
    by_cases hk : k = k₀
    · subst hk
      exact ⟨_, fun row => row.later_mark _, hrows⟩
    · exact ⟨id, hlater, (hothers k hk).trans hid⟩
  | mints k₀ user lifetime hmints hrows hothers hnext =>
    by_cases hk : k = k₀
    · subst hk
      exact Or.inr ⟨user, now + lifetime, hrows, hnext, hmints, hothers⟩
    · left
      exact ⟨id, hlater, (hothers k hk).trans hid⟩
  | consumes k₀ id' token _ _ _ hrows hothers =>
    left
    by_cases hk : k = k₀
    · subst hk
      exact ⟨_, fun row => row.later_mark _, hrows⟩
    · exact ⟨id, hlater, (hothers k hk).trans hid⟩

theorem TokenStep.nextToken_le (h : TokenStep r now t t' κ κ') : t.nextToken ≤ t'.nextToken := by
  cases h with
  | keeps _ hnext => exact hnext
  | invalidates _ _ _ _ hnext => exact Nat.le_of_eq hnext.symm
  | mints _ _ _ _ _ _ hnext => exact hnext ▸ Nat.le_succ _
  | consumes _ _ _ _ _ _ _ _ hnext => exact Nat.le_of_eq hnext.symm

/-- A row stays, as a later one. -/
theorem TokenStep.to (h : TokenStep r now t t' κ κ') {k : TokenKind} {row : OneTimeToken}
    (hrow : row ∈ t.rowsOf k) : ∃ row' ∈ t'.rowsOf k, row.Later row' := by
  rcases h.rows k with ⟨f, hf, hrows⟩ | ⟨user, expiresAt, hrows, -⟩
  · rw [hrows]
    exact ⟨f row, List.mem_map_of_mem hrow, hf row⟩
  · rw [hrows]
    exact ⟨row, List.mem_append_left _ hrow, rfl, rfl, rfl, fun h => h⟩

/-- A row has been there before, or has the next token. -/
theorem TokenStep.from (h : TokenStep r now t t' κ κ') {k : TokenKind} {row' : OneTimeToken}
    (hrow' : row' ∈ t'.rowsOf k) :
    (∃ row ∈ t.rowsOf k, row.Later row') ∨
      row'.token = t.nextToken ∧ t'.nextToken = t.nextToken + 1 := by
  rcases h.rows k with ⟨f, hf, hrows⟩ | ⟨user, expiresAt, hrows, hnext, -⟩
  · rw [hrows] at hrow'
    obtain ⟨row, hrow, rfl⟩ := List.mem_map.mp hrow'
    exact Or.inl ⟨row, hrow, hf row⟩
  · rw [hrows] at hrow'
    rcases List.mem_append.mp hrow' with hrow' | hrow'
    · exact Or.inl ⟨row', hrow', rfl, rfl, rfl, fun h => h⟩
    · obtain rfl := List.mem_singleton.mp hrow'
      exact Or.inr ⟨rfl, hnext⟩

/-! ### Unique tokens -/

/-- The hashes of each table are unique, and no token is in two tables or still
to come. -/
structure AuthTables.TokensUnique (t : AuthTables) : Prop where
  fresh : ∀ k, ∀ row ∈ t.rowsOf k, row.token < t.nextToken
  nodup : ∀ k, ((t.rowsOf k).map OneTimeToken.token).Nodup
  kind : ∀ k, ∀ row ∈ t.rowsOf k, ∀ k', ∀ row' ∈ t.rowsOf k', row.token = row'.token → k = k'

theorem AuthTables.TokensUnique.row_eq (h : t.TokensUnique) {k k' : TokenKind}
    {row row' : OneTimeToken} (hrow : row ∈ t.rowsOf k) (hrow' : row' ∈ t.rowsOf k')
    (htoken : row.token = row'.token) : k = k' ∧ row = row' := by
  obtain rfl := h.kind k row hrow k' row' hrow' htoken
  exact ⟨rfl, List.inj_on_of_nodup_map (h.nodup k) hrow hrow' htoken⟩

theorem AuthTables.TokensUnique.step (hu : t.TokensUnique) (h : TokenStep r now t t' κ κ') :
    t'.TokensUnique where
  fresh k row' hrow' := by
    rcases h.from hrow' with ⟨row, hrow, hlater⟩ | ⟨htoken, hnext⟩
    · rw [hlater.token]
      exact Nat.lt_of_lt_of_le (hu.fresh k row hrow) h.nextToken_le
    · rw [htoken, hnext]
      exact Nat.lt_succ_self _
  nodup k := by
    rcases h.rows k with ⟨f, hf, hrows⟩ | ⟨user, expiresAt, hrows, -⟩
    · have htokens : ((t.rowsOf k).map f).map OneTimeToken.token
          = (t.rowsOf k).map OneTimeToken.token := by
        rw [List.map_map]
        exact List.map_congr_left fun row _ => (hf row).token
      rw [hrows, htokens]
      exact hu.nodup k
    · rw [hrows, List.map_append]
      refine List.nodup_append.mpr ⟨hu.nodup k, List.nodup_singleton _, ?_⟩
      intro token htoken new hnew
      obtain ⟨row, hrow, rfl⟩ := List.mem_map.mp htoken
      obtain rfl := List.mem_singleton.mp hnew
      exact Nat.ne_of_lt (hu.fresh k row hrow)
  kind k row₁' h₁ k₂ row₂' h₂ htoken := by
    rcases h.from h₁ with ⟨row₁, hrow₁, hlater₁⟩ | ⟨hnew₁, -⟩
    · rcases h.from h₂ with ⟨row₂, hrow₂, hlater₂⟩ | ⟨hnew₂, -⟩
      · apply hu.kind k row₁ hrow₁ k₂ row₂ hrow₂
        rw [← hlater₁.token, htoken, hlater₂.token]
      · have := hu.fresh k row₁ hrow₁
        rw [← hlater₁.token, htoken, hnew₂] at this
        exact absurd this (Nat.lt_irrefl _)
    · by_contra hne
      -- the row that is inserted is in one table only
      rcases h.rows k with ⟨f, hf, hrows⟩ | ⟨_, _, hrows, -, -, hothers⟩
      · rw [hrows] at h₁
        obtain ⟨row₁, hrow₁, rfl⟩ := List.mem_map.mp h₁
        have := hu.fresh k row₁ hrow₁
        rw [← (hf row₁).token, hnew₁] at this
        exact Nat.lt_irrefl _ this
      · rw [hothers k₂ (Ne.symm hne)] at h₂
        have := hu.fresh k₂ row₂' h₂
        rw [← htoken, hnew₁] at this
        exact Nat.lt_irrefl _ this

/-- What a redemption consumes was unused and in time, and is used after it,
wherever it is. -/
theorem AuthTables.TokensUnique.consumed (hu : t.TokensUnique) (h : TokenStep r now t t' κ κ')
    {token : Token} (hconsumed : consumedBy κ κ' = some token) :
    ∃ k id row, r.redeems = some k ∧ κ.foundToken = some (id, token) ∧ row ∈ t.rowsOf k ∧
      row.token = token ∧ row.usedAt = none ∧ now < row.expiresAt ∧
      ∀ k', ∀ row' ∈ t'.rowsOf k', row'.token = token → row'.usedAt ≠ none := by
  cases h with
  | keeps _ _ hidle => cases hidle.consumed.symm.trans hconsumed
  | invalidates _ _ _ _ _ hnone => cases hnone.symm.trans hconsumed
  | mints _ _ _ _ _ _ _ hnone => cases hnone.symm.trans hconsumed
  | consumes k id token' hr hfound hlive hrows hothers hnext hsame =>
    obtain rfl := hsame token hconsumed
    obtain ⟨row, hrow, hrowlive⟩ := hlive
    have hcols : (row.token = token ∧ row.usedAt = none) ∧ now < row.expiresAt := by
      simpa [OneTimeToken.consumable] using hrowlive
    refine ⟨k, id, row, hr, hfound, hrow, hcols.1.1, hcols.1.2, hcols.2, ?_⟩
    intro k' row' hrow' htoken
    by_cases hk : k' = k
    · subst hk
      rw [hrows] at hrow'
      obtain ⟨row₀, hrow₀, rfl⟩ := List.mem_map.mp hrow'
      rw [(row₀.later_mark _).token] at htoken
      obtain ⟨-, rfl⟩ := hu.row_eq hrow₀ hrow (htoken.trans hcols.1.1.symm)
      exact OneTimeToken.mark_used hrowlive
    · rw [hothers k' hk] at hrow'
      exact absurd (hu.kind k' row' hrow' k row hrow (htoken.trans hcols.1.1.symm)) hk

/-! ### Rows that can be redeemed -/

/-- The rows that the user can redeem. -/
def redeemableRows (rows : List OneTimeToken) (clock : Timestamp) (user : UUID) :
    List OneTimeToken :=
  rows.filter fun row => row.user = user && row.usedAt.isNone && decide (clock < row.expiresAt)

variable {rows : List OneTimeToken} {user : UUID}

theorem redeemableRows_wait {clock later : Timestamp} (h : clock ≤ later) :
    (redeemableRows rows later user).length ≤ (redeemableRows rows clock user).length := by
  apply List.Sublist.length_le
  apply List.monotone_filter_right
  intro row hrow
  simp only [Bool.and_eq_true, decide_eq_true_eq] at hrow ⊢
  exact ⟨hrow.1, lt_of_le_of_lt h hrow.2⟩

theorem redeemableRows_map {f : OneTimeToken → OneTimeToken}
    (hf : ∀ row : OneTimeToken, row.Later (f row)) {clock : Timestamp} :
    (redeemableRows (rows.map f) clock user).length ≤ (redeemableRows rows clock user).length := by
  unfold redeemableRows
  rw [List.filter_map, List.length_map]
  apply List.Sublist.length_le
  apply List.monotone_filter_right
  intro row hrow
  obtain ⟨-, huser, hexpires, hused⟩ := hf row
  simp only [Function.comp_apply, Bool.and_eq_true, decide_eq_true_eq, Option.isNone_iff_eq_none,
    huser, hexpires] at hrow ⊢
  refine ⟨⟨hrow.1.1, ?_⟩, hrow.2⟩
  by_contra hne
  exact hused hne hrow.1.2

/-- After an INSERT there is at most one, where there was none. -/
theorem redeemableRows_append {clock : Timestamp} (h : redeemableRows rows clock user = [])
    (new : OneTimeToken) : (redeemableRows (rows ++ [new]) clock user).length ≤ 1 := by
  unfold redeemableRows at h ⊢
  rw [List.filter_append, h, List.nil_append]
  exact List.length_filter_le _ [new]

theorem redeemableRows_append_of_ne {clock : Timestamp} {new : OneTimeToken} (h : new.user ≠ user) :
    redeemableRows (rows ++ [new]) clock user = redeemableRows rows clock user := by
  unfold redeemableRows
  rw [List.filter_append]
  simp [h]

/-- The INSERT after an invalidation is of a verification or a link token. -/
theorem TokenStep.renewed (h : TokenStep r now t t' κ κ') {k : TokenKind}
    (hrenewed : renewedBy κ κ' = some (k, user)) : r.mints t κ = some (k, user) ∧ k ≠ .reset := by
  constructor
  · cases h with
    | keeps _ _ hidle => cases hidle.renewed.symm.trans hrenewed
    | invalidates _ _ _ _ _ _ hnone => cases hnone.symm.trans hrenewed
    | mints _ _ _ hmints _ _ _ _ hsame =>
      rw [hsame _ hrenewed]
      exact hmints
    | consumes _ _ _ _ _ _ _ _ _ _ hnone => cases hnone.symm.trans hrenewed
  · unfold renewedBy at hrenewed
    split at hrenewed
    · cases hrenewed
      exact nofun
    · cases hrenewed
      exact nofun
    · cases hrenewed

/-- A user who can redeem at most one token can redeem at most one after a step
whose INSERT is where there is none. -/
theorem TokenStep.redeemable_le (h : TokenStep r now t t' κ κ') {k : TokenKind} {clock : Timestamp}
    (halone : r.mints t κ = some (k, user) → redeemableRows (t.rowsOf k) clock user = [])
    (hle : (redeemableRows (t.rowsOf k) clock user).length ≤ 1) :
    (redeemableRows (t'.rowsOf k) clock user).length ≤ 1 := by
  rcases h.rows k with ⟨f, hf, hrows⟩ | ⟨user', expiresAt, hrows, -, hmints, -⟩
  · rw [hrows]
    exact (redeemableRows_map hf).trans hle
  · rw [hrows]
    by_cases huser : user' = user
    · subst huser
      exact redeemableRows_append (halone hmints) _
    · rw [redeemableRows_append_of_ne huser]
      exact hle

end Saasmint
