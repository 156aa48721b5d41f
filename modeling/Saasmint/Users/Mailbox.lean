/-
Saasmint/Users/Mailbox.lean

The invitation link alone opens no account (`invitation_opens_nothing`).

The invariant is that whoever a request is about to let in, it may let in
(`Cleared`), that every credential of an invited account has been recorded, and
that every one-time token of an invited account has gone to its mailbox.
-/
import Saasmint.Users.AccountSteps

namespace Saasmint

variable {ι : Type*} {p : Platform} {r : AccountRequest} {κ κ' : AccountCall}

/-! ### The invariant -/

/-- No row is of a user that is still to come. -/
structure AuthTables.Keyed (t : AuthTables) : Prop where
  accounts : ∀ a ∈ t.accounts, a.id < t.nextKey
  credentials : ∀ x ∈ t.credentials, x.1 < t.nextKey
  oneTimeTokens : ∀ x ∈ t.oneTimeTokens, x.1 < t.nextKey

/-- Of the accounts that are there, no other is of an invitation, and nothing of
the history is lost. -/
structure AccountDb.Later (σ σ' : AccountDb ι) : Prop where
  nextKey : σ.tables.nextKey ≤ σ'.tables.nextKey
  accounts : ∀ a ∈ σ.tables.accounts, ∃ a' ∈ σ'.tables.accounts, a'.id = a.id ∧ a'.email = a.email
  invited : ∀ id ∈ σ'.invited, id < σ.tables.nextKey → id ∈ σ.invited
  mails : ∀ x ∈ σ.mails, x ∈ σ'.mails
  consumed : ∀ x ∈ σ.consumed, x ∈ σ'.consumed
  obtained : ∀ x ∈ σ.obtained, x ∈ σ'.obtained

/-- Whoever the request is about to let in, it may let in. -/
def Cleared (p : Platform) (r : AccountRequest) (i : ι) (σ : AccountDb ι) (id : UUID) : Prop :=
  id < σ.tables.nextKey ∧ (id ∈ σ.invited → Entitled p r i σ id)

structure AccountInv (σ : AccountDb ι) : Prop where
  keyed : σ.tables.Keyed
  invited : ∀ id ∈ σ.invited, id < σ.tables.nextKey
  recorded : σ.Recorded
  mailed : ∀ x ∈ σ.tables.oneTimeTokens, x.1 ∈ σ.invited → σ.Mailed x.1 x.2

/-- What the state of a request, which is `r`, says of its account. -/
structure AccountAssertion (p : Platform) (r : AccountRequest) (i : ι) (σ : AccountDb ι)
    (κ : AccountCall) : Prop where
  opening : ∀ id, κ.opening = some id → Cleared p r i σ id
  addressee : ∀ user, κ.addressee = some user →
    ∃ a ∈ σ.tables.accounts, a.id = user.id ∧ a.email = user.email
  foundToken : ∀ id token, κ.foundToken = some (id, token) → r.oneTimeToken = some token ∧
    id < σ.tables.nextKey ∧ (id ∈ σ.invited → σ.Mailed id token)

section Later

variable {σ σ' : AccountDb ι} {i : ι} {id : UUID}

theorem AccountDb.Mailed.later {token : Token} (h : σ.Mailed id token) (hl : σ.Later σ') :
    σ'.Mailed id token := by
  obtain ⟨a, ha, hid, hmail⟩ := h
  obtain ⟨a', ha', hid', hemail⟩ := hl.accounts a ha
  refine ⟨a', ha', hid'.trans hid, ?_⟩
  rw [hemail]
  exact hl.mails _ hmail

theorem Entitled.later (h : Entitled p r i σ id) (hl : σ.Later σ') : Entitled p r i σ' id := by
  cases h with
  | mailbox token hr hconsumed hmailed =>
    exact .mailbox token hr (hl.consumed _ hconsumed) (hmailed.later hl)
  | provider provider info hr hverified hemail =>
    obtain ⟨a, ha, hid, hsame⟩ := hemail
    obtain ⟨a', ha', hid', hemail'⟩ := hl.accounts a ha
    refine .provider provider info hr hverified ⟨a', ha', hid'.trans hid, ?_⟩
    rw [hemail']
    exact hsame
  | credential c hr hobtained => exact .credential c hr (hl.obtained _ hobtained)

theorem Cleared.later (h : Cleared p r i σ id) (hl : σ.Later σ') : Cleared p r i σ' id :=
  ⟨Nat.lt_of_lt_of_le h.1 hl.nextKey, fun hinv => (h.2 (hl.invited id hinv h.1)).later hl⟩

/-- The steps of other requests leave an assertion. -/
theorem AccountAssertion.later (h : AccountAssertion p r i σ κ) (hl : σ.Later σ') :
    AccountAssertion p r i σ' κ where
  opening id hid := (h.opening id hid).later hl
  addressee user huser := by
    obtain ⟨a, ha, hid, hemail⟩ := h.addressee user huser
    obtain ⟨a', ha', hid', hemail'⟩ := hl.accounts a ha
    exact ⟨a', ha', hid'.trans hid, hemail'.trans hemail⟩
  foundToken id token hfound := by
    obtain ⟨hr, hlt, hmailed⟩ := h.foundToken id token hfound
    exact ⟨hr, Nat.lt_of_lt_of_le hlt hl.nextKey,
      fun hinv => (hmailed (hl.invited id hinv hlt)).later hl⟩

end Later

/-! ### A step keeps the invariant -/

section Step

variable {σ : AccountDb ι} {i : ι} {db : SessionDb ι}

theorem AccountDb.mem_invited_after {id : UUID} :
    id ∈ (σ.after r i db κ κ').invited ↔ id ∈ σ.invited ∨ κ'.invitee = some id := by
  simp [after]

theorem AccountStep.later (h : AccountStep p r σ.tables db.tables κ κ') :
    σ.Later (σ.after r i db κ κ') where
  nextKey := h.gives.nextKey
  accounts := h.gives.accounts
  invited id hid hlt := by
    rcases AccountDb.mem_invited_after.mp hid with hid | hid
    · exact hid
    · rw [(h.invitee id hid).1] at hlt
      exact absurd hlt (Nat.lt_irrefl _)
  mails _ hx := List.mem_append_left _ hx
  consumed _ hx := List.mem_append_left _ hx
  obtained _ hx := List.mem_append_left _ hx

/-- Whom the step lets in, its request may let in. -/
theorem AccountStep.mayOpen (h : AccountStep p r σ.tables db.tables κ κ') (hI : AccountInv σ)
    (hA : AccountAssertion p r i σ κ) {id : UUID} (hO : MayOpen σ.tables db.tables κ κ' id) :
    id < db.tables.nextKey ∧
      (id ∈ (σ.after r i db κ κ').invited → Entitled p r i σ id) := by
  rcases hO with hopening | ⟨rfl, hlt, hnone⟩
  · obtain ⟨hlt, hentitled⟩ := hA.opening id hopening
    have hl : σ.Later (σ.after r i db κ κ') := h.later
    exact ⟨Nat.lt_of_lt_of_le hlt h.gives.nextKey, fun hinv => hentitled (hl.invited id hinv hlt)⟩
  · -- an account that the step creates, and not for an invitation
    refine ⟨hlt, fun hinv => ?_⟩
    rcases AccountDb.mem_invited_after.mp hinv with hinv | hinv
    · exact absurd (hI.invited _ hinv) (Nat.lt_irrefl _)
    · cases hnone.symm.trans hinv

theorem AccountStep.granted (h : AccountStep p r σ.tables db.tables κ κ') {id : UUID}
    {c : Credential} (hc : (id, c) ∈ granted r σ.tables db.tables κ κ') :
    MayOpen σ.tables db.tables κ κ' id := by
  rcases List.mem_append.mp hc with hpassword | hnew
  · obtain ⟨x, hx, heq⟩ := Option.map_eq_some_iff.mp (Option.mem_toList.mp hpassword)
    obtain ⟨rfl, -⟩ := Prod.mk.inj heq
    exact h.password x hx
  · obtain ⟨hmem, hnot⟩ := List.mem_filter.mp hnew
    exact (h.gives.credentials hmem).resolve_left (by simpa using hnot)

/-- Where a token is sent, there is the account. -/
theorem AccountStep.sends (h : AccountStep p r σ.tables db.tables κ κ')
    (hA : AccountAssertion p r i σ κ) {id : UUID} {token : Token}
    (hM : Sends σ.tables db.tables κ κ' id token) : (σ.after r i db κ κ').Mailed id token := by
  obtain ⟨user, rfl, hmail, huser⟩ := hM
  have hmem : (user.email, token) ∈ (σ.after r i db κ κ').mails :=
    List.mem_append_right _ (Option.mem_toList.mpr hmail)
  rcases huser with haddressee | huser
  · obtain ⟨a, ha, hid, hemail⟩ := hA.addressee user haddressee
    obtain ⟨a', ha', hid', hemail'⟩ := h.gives.accounts a ha
    refine ⟨a', ha', hid'.trans hid, ?_⟩
    rw [hemail', hemail]
    exact hmem
  · exact ⟨user, huser, rfl, hmem⟩

theorem AccountStep.keyed (h : AccountStep p r σ.tables db.tables κ κ') (hI : AccountInv σ)
    (hA : AccountAssertion p r i σ κ) : db.tables.Keyed := by
  have hle := h.gives.nextKey
  have haccounts : ∀ a ∈ db.tables.accounts, a.id < db.tables.nextKey := by
    intro a' ha'
    rcases h.gives.passwords a' ha' with ⟨a, ha, hid, -⟩ | ⟨-, hlt, -⟩
    · rw [← hid]
      exact Nat.lt_of_lt_of_le (hI.keyed.accounts a ha) hle
    · exact hlt
  refine ⟨haccounts, fun x hx => ?_, fun x hx => ?_⟩
  · rcases h.gives.credentials hx with hx | hO
    · exact Nat.lt_of_lt_of_le (hI.keyed.credentials x hx) hle
    · exact (h.mayOpen hI hA hO).1
  · rcases h.gives.tokens x hx with hx | hM
    · exact Nat.lt_of_lt_of_le (hI.keyed.oneTimeTokens x hx) hle
    · obtain ⟨a, ha, hid, -⟩ := h.sends hA hM
      rw [← hid]
      exact haccounts a ha

theorem AccountStep.inv (h : AccountStep p r σ.tables db.tables κ κ') (hI : AccountInv σ)
    (hA : AccountAssertion p r i σ κ) : AccountInv (σ.after r i db κ κ') where
  keyed := h.keyed hI hA
  invited id hid := by
    rcases AccountDb.mem_invited_after.mp hid with hid | hid
    · exact Nat.lt_of_lt_of_le (hI.invited id hid) h.gives.nextKey
    · rw [(h.invitee id hid).1]
      exact (h.invitee id hid).2
  recorded id hid c hc := by
    have hl : σ.Later (σ.after r i db κ κ') := h.later
    by_cases hold : (id, c) ∈ σ.tables.credentials
    · exact hl.obtained _ (hI.recorded id (hl.invited id hid (hI.keyed.credentials _ hold)) c hold)
    · apply List.mem_append_right
      apply List.mem_append_right
      exact List.mem_filter.mpr ⟨hc, by simpa using hold⟩
  mailed x hx hid := by
    have hl : σ.Later (σ.after r i db κ κ') := h.later
    rcases h.gives.tokens x hx with hold | hM
    · exact (hI.mailed x hold (hl.invited _ hid (hI.keyed.oneTimeTokens x hold))).later hl
    · exact h.sends hA hM

/-- The request may let in whom it is about to let in after its step. -/
theorem AccountStep.cleared (h : AccountStep p r σ.tables db.tables κ κ') (hI : AccountInv σ)
    (hA : AccountAssertion p r i σ κ) {id : UUID} (hopening : κ'.opening = some id) :
    Cleared p r i (σ.after r i db κ κ') id := by
  have hl : σ.Later (σ.after r i db κ κ') := h.later
  cases h.opening id hopening with
  | before hO =>
    obtain ⟨hlt, hentitled⟩ := h.mayOpen hI hA hO
    exact ⟨hlt, fun hinv => (hentitled hinv).later hl⟩
  | mailbox token hfound hconsumed =>
    obtain ⟨hr, hlt, hmailed⟩ := hA.foundToken id token hfound
    refine ⟨Nat.lt_of_lt_of_le hlt hl.nextKey, fun hinv => ?_⟩
    refine .mailbox token hr ?_ ((hmailed (hl.invited id hinv hlt)).later hl)
    apply List.mem_append_right
    rw [hconsumed]
    exact List.mem_singleton.mpr rfl
  | provider provider info hr hverified hemail =>
    obtain ⟨a, ha, hid, hsame⟩ := hemail
    have hlt : id < σ.tables.nextKey := hid ▸ hI.keyed.accounts a ha
    have hentitled : Entitled p r i σ id := .provider provider info hr hverified ⟨a, ha, hid, hsame⟩
    exact ⟨Nat.lt_of_lt_of_le hlt hl.nextKey, fun _ => hentitled.later hl⟩
  | credential c hr hc =>
    have hlt := hI.keyed.credentials _ hc
    refine ⟨Nat.lt_of_lt_of_le hlt hl.nextKey, fun hinv => ?_⟩
    exact (Entitled.credential c hr (hI.recorded id (hl.invited id hinv hlt) c hc)).later hl

theorem AccountStep.assertion (h : AccountStep p r σ.tables db.tables κ κ') (hI : AccountInv σ)
    (hA : AccountAssertion p r i σ κ) : AccountAssertion p r i (σ.after r i db κ κ') κ' where
  opening _ hid := h.cleared hI hA hid
  addressee user huser := by
    rcases h.addressee user huser with huser | huser
    · obtain ⟨a, ha, hid, hemail⟩ := hA.addressee user huser
      obtain ⟨a', ha', hid', hemail'⟩ := h.gives.accounts a ha
      exact ⟨a', ha', hid'.trans hid, hemail'.trans hemail⟩
    · exact ⟨user, huser, rfl, rfl⟩
  foundToken id token hfound := by
    obtain ⟨hr, htoken⟩ := h.foundToken id token hfound
    have hlt := hI.keyed.oneTimeTokens _ htoken
    have hl : σ.Later (σ.after r i db κ κ') := h.later
    exact ⟨hr, Nat.lt_of_lt_of_le hlt hl.nextKey,
      fun hinv => (hI.mailed _ htoken (hl.invited id hinv hlt)).later hl⟩

end Step

/-! ### Runs -/

variable {requests : ι → AccountRequest}

theorem accountAct_eq_some {i : ι} {σ σ' : AccountDb ι} {input : SessionInput}
    (h : accountAct p requests i σ κ input = some (σ', κ')) :
    ∃ db, σ' = σ.after (requests i) i db κ κ' ∧
      AccountStep p (requests i) σ.tables db.tables κ κ' := by
  obtain ⟨⟨db, κ₁⟩, hstatement, heq⟩ := Option.map_eq_some_iff.mp h
  obtain ⟨rfl, rfl⟩ := Prod.mk.inj heq
  exact ⟨db, rfl, accountStatement_step hstatement⟩

variable [DecidableEq ι]

abbrev AccountSystemInv (p : Platform) (requests : ι → AccountRequest) : AccountSystem ι → Prop :=
  Interleaving.Inv AccountInv fun i => AccountAssertion p (requests i) i

theorem accountInv_step (s : AccountSystem ι) (l : ι × SessionInput) (s' : AccountSystem ι)
    (hI : AccountSystemInv p requests s)
    (h : Interleaving.step (accountAct p requests) s l = some s') :
    AccountSystemInv p requests s' := by
  refine Interleaving.inv_step ?_ ?_ s l s' hI h
  · intro i σ κ input σ' κ' hG hL hact
    obtain ⟨db, rfl, hstep⟩ := accountAct_eq_some hact
    exact ⟨hstep.inv hG hL, hstep.assertion hG hL⟩
  · intro i σ κ input σ' κ' hG hL hact j κⱼ _ hj
    obtain ⟨db, rfl, hstep⟩ := accountAct_eq_some hact
    exact hj.later hstep.later

theorem opensWhatItMay_of_inv (s : AccountSystem ι) (l : ι × SessionInput) (s' : AccountSystem ι)
    (hI : AccountSystemInv p requests s)
    (h : Interleaving.step (accountAct p requests) s l = some s') :
    OpensWhatItMay p requests s l s' := by
  obtain ⟨i, input⟩ := l
  obtain ⟨σ', κ', hact, rfl⟩ := Interleaving.step_eq_some h
  obtain ⟨db, rfl, hstep⟩ := accountAct_eq_some hact
  intro id c hc hinv
  have hproc : Function.update s.procs i κ' i = κ' := Function.update_self ..
  dsimp only at hc
  rw [hproc] at hc
  exact (hstep.mayOpen hI.shared (hI.procs i) (hstep.granted hc)).2 hinv

omit [DecidableEq ι] in
theorem accountInv_init {t : AuthTables} (h : t.Keyed) :
    AccountSystemInv p requests (accountInit requests t) where
  shared := ⟨h, nofun, nofun, nofun⟩
  procs i := by
    have hclosed : (requests i).initial.Closed := by
      cases requests i <;> exact ⟨rfl, rfl, rfl, rfl⟩
    exact {
      opening := fun id hid => by cases hclosed.opening.symm.trans hid
      addressee := fun user huser => by cases hclosed.addressee.symm.trans huser
      foundToken := fun id token hfound => by cases hclosed.foundToken.symm.trans hfound }

/-- **The invitation alone opens no account**, in every run: whoever sets the
password of an account of an invitation, gets a pair for it or links an identity
to it has consumed a one-time token from its mailbox, or presents its email as
verified by a provider, or a credential that has been given out so before. -/
theorem invitation_opens_nothing (p : Platform) (requests : ι → AccountRequest) {t : AuthTables}
    (h : t.Keyed) (ls : List (ι × SessionInput)) :
    Runs.Always (Interleaving.step (accountAct p requests)) (fun s => s.shared.Recorded)
        (accountInit requests t) ls ∧
      Runs.EachMove (Interleaving.step (accountAct p requests)) (OpensWhatItMay p requests)
        (accountInit requests t) ls := by
  have hinit : AccountSystemInv p requests (accountInit requests t) := accountInv_init h
  constructor
  · exact (Runs.always_of_invariant accountInv_step hinit ls).mono fun s hs => hs.shared.recorded
  · exact Runs.eachMove_of_invariant accountInv_step opensWhatItMay_of_inv hinit ls

/-! ### Ann accepts an invitation, sets a password and signs in -/

/-- Bob has an account. -/
def bobsTables : AuthTables where
  accounts := [⟨⟨1, "bob@acme.io"⟩, some "hunter2", true, true, none⟩]
  refreshTokens := [⟨0, 1, 604800, none⟩]
  verificationTokens := []
  resetTokens := [⟨1, 1, 600, some 20⟩]
  linkRequests := []
  socialAccounts := []
  nextKey := 2
  nextToken := 2

/-- Somebody else with the link registers and tries the token of the invitation. -/
def inviteeRequests : Fin 5 → AccountRequest
  | 0 => .acceptInvitation "ann@acme.io"
  | 1 => .verifyEmail 2 (some "swordfish")
  | 2 => .login "ann@acme.io" "swordfish"
  | 3 => .register "ann@acme.io" "mine"
  | 4 => .verifyEmail 7 (some "mine")

def inviteeSteps : List (Fin 5 × SessionInput) :=
  [0, 0, 3, 4, 1, 1, 1, 1, 2, 2].map fun i => (i, ⟨30, none⟩)

theorem bobsTables_keyed : bobsTables.Keyed := ⟨by decide, by decide, by decide⟩

/-- Only the mail opens the account, and then the password in it. -/
theorem invitation_opens_nothing_ann :
    ((Runs.run (Interleaving.step (accountAct wordPlatform inviteeRequests))
        (accountInit inviteeRequests bobsTables) inviteeSteps).map fun s =>
          (s.shared.invited, s.shared.mails, s.shared.obtained)) =
      some ([2], [("ann@acme.io", 2)],
        [(2, .password "swordfish"), (2, .password "swordfish"),
         (2, .refreshToken 3), (2, .accessToken 3), (2, .refreshToken 4), (2, .accessToken 4)]) ∧
    Runs.Always (Interleaving.step (accountAct wordPlatform inviteeRequests))
        (fun s => s.shared.Recorded) (accountInit inviteeRequests bobsTables) inviteeSteps ∧
      Runs.EachMove (Interleaving.step (accountAct wordPlatform inviteeRequests))
        (OpensWhatItMay wordPlatform inviteeRequests) (accountInit inviteeRequests bobsTables)
        inviteeSteps :=
  ⟨by decide, invitation_opens_nothing wordPlatform inviteeRequests bobsTables_keyed inviteeSteps⟩

end Saasmint
