/-
Saasmint/Users/PasswordChange.lean

What a password change does to the sessions that are there (ResetPasswordView
and ChangePasswordView of apps/users/auth_views.py), over every interleaving of
the requests on the sessions.

A reset or a change saves the password and then revokes the refresh tokens that
it finds.  A rotation that has read its token before the revocation inserts the
successor after it, and the old session lives on; so does a login whose
password was checked before.  Where no such request is on its way when the
revocation runs, every earlier session has ended (`earlier_sessions_end`).
-/
import Mathlib.Data.Fintype.Basic
import Saasmint.Users.Sessions

namespace Saasmint

variable {ι : Type*} {requests : ι → SessionRequest}

/-- When a session has started: with its credentials checked, or with its first
token stored. -/
inductive SessionStart
  | checked | stored
  deriving DecidableEq, Repr

def Session.startedAt (σ : Session ι) : SessionStart → Nat
  | .checked => σ.checkedAt
  | .stored => σ.storedAt

/-! ### What is claimed -/

/-- No live token of the user descends from a session from before the save of a
completed reset or change, other than the one that it opened. -/
def EarlierSessionsEnded (start : SessionStart) (s : SessionSystem ι) : Prop :=
  ∀ i user savedAt token, s.procs i = .completed user savedAt token →
    ∀ now, ∀ rt ∈ s.shared.tables.refreshTokens, rt.user = user.id → rt.isValid now = true →
      ∀ root, s.shared.Chain root rt.token →
        (s.shared.sessionOf root).startedAt start < savedAt →
          (s.shared.sessionOf root).opener = some i

/-- The user and the session of the token that a request is about to store. -/
def SessionDb.pending (db : SessionDb ι) (i : ι) : SessionCall → Option (UUID × Session ι)
  | .checked rt | .rotated rt => some (rt.user, db.sessionOf rt.token)
  | .authenticated user checkedAt | .changed user checkedAt _ | .revoked user checkedAt _ =>
    some (user.id, ⟨some i, checkedAt, db.clock⟩)
  | _ => none

/-- While the revocation of a reset or a change runs, no other request is about
to store a token of the user for a session from before the save. -/
def RevokesAlone (start : SessionStart) (s : SessionSystem ι) (l : ι × SessionInput) : Prop :=
  ∀ user checkedAt savedAt, s.procs l.1 = .changed user checkedAt savedAt →
    ∀ j, j ≠ l.1 → ∀ σ, s.shared.pending j (s.procs j) = some (user.id, σ) →
      savedAt ≤ σ.startedAt start

instance [Fintype ι] [DecidableEq ι] (start : SessionStart) (s : SessionSystem ι)
    (l : ι × SessionInput) : Decidable (RevokesAlone start s l) :=
  match h : s.procs l.1 with
  | .changed user _ savedAt =>
    decidable_of_iff (∀ j, j ≠ l.1 → ∀ x ∈ s.shared.pending j (s.procs j), x.1 = user.id →
        savedAt ≤ x.2.startedAt start) (by
      constructor
      · intro hall user' n v hi j hj σ hσ
        obtain ⟨rfl, rfl, rfl⟩ := SessionCall.changed.inj (h.symm.trans hi)
        exact hall j hj _ hσ rfl
      · rintro hC j hj ⟨id, σ⟩ hσ rfl
        exact hC user _ savedAt h j hj σ hσ)
  | .start | .checked _ | .reused _ | .rotated _ | .found _ _ | .authenticated _ _
  | .revoked _ _ _ | .refreshed _ | .loggedIn _ | .completed _ _ _ | .loggedOut | .failed _ =>
    isTrue fun _ _ _ hi => by rw [h] at hi; cases hi

/-! ### The invariant -/

/-- The save of a reset or a change that has revoked the tokens. -/
def SessionCall.revocation : SessionCall → Option (Account × Nat)
  | revoked user _ savedAt | completed user savedAt _ => some (user, savedAt)
  | _ => none

/-- The clock is ahead of every time that a request holds, no request holds a
token that is not there, and a rotation stays in its session. -/
structure ClockInv (s : SessionSystem ι) : Prop where
  fresh : s.shared.tables.FreshTokens
  checked : ∀ i rt, s.procs i = .checked rt ∨ s.procs i = .rotated rt →
    rt.token < s.shared.tables.nextToken
  saved : ∀ i user checkedAt savedAt, s.procs i = .changed user checkedAt savedAt →
    savedAt < s.shared.clock
  revoked : ∀ i user savedAt, (s.procs i).revocation = some (user, savedAt) →
    savedAt < s.shared.clock
  follows : ∀ t a, s.shared.Follows t a → t < s.shared.tables.nextToken ∧
    a < s.shared.tables.nextToken ∧ s.shared.sessionOf a = s.shared.sessionOf t

/-- The tokens of a chain belong to one session. -/
theorem ClockInv.sessionOf_chain {s : SessionSystem ι} (hI : ClockInv s) {root token : Token}
    (h : s.shared.Chain root token) : s.shared.sessionOf token = s.shared.sessionOf root := by
  induction h with
  | refl => rfl
  | tail _ hstep ih => exact (hI.follows _ _ hstep).2.2.trans ih

/-- After the revocation of a reset or a change, what is unrevoked and what is
about to be stored is of a session from after the save, or of its own. -/
def EarlierRevoked (start : SessionStart) (s : SessionSystem ι) : Prop :=
  ∀ i user savedAt, (s.procs i).revocation = some (user, savedAt) →
    (∀ rt ∈ s.shared.tables.refreshTokens, rt.user = user.id → rt.revokedAt = none →
      savedAt ≤ (s.shared.sessionOf rt.token).startedAt start ∨
        (s.shared.sessionOf rt.token).opener = some i) ∧
      ∀ j, j ≠ i → ∀ σ, s.shared.pending j (s.procs j) = some (user.id, σ) →
        savedAt ≤ σ.startedAt start ∨ σ.opener = some i

theorem EarlierRevoked.ended {start : SessionStart} {s : SessionSystem ι} (hI : ClockInv s)
    (h : EarlierRevoked start s) : EarlierSessionsEnded start s := by
  intro i user savedAt token hi now rt hrt huser hlive root hchain hbefore
  rw [← hI.sessionOf_chain hchain] at hbefore ⊢
  have hrev : (s.procs i).revocation = some (user, savedAt) := by
    rw [hi]
    rfl
  rcases (h i user savedAt hrev).1 rt hrt huser (RefreshToken.isValid_iff.mp hlive).1
    with hle | hown
  · exact absurd hbefore (Nat.not_lt.mpr hle)
  · exact hown

/-- A request that has revoked the tokens stores one of its own session. -/
theorem pending_opener {db : SessionDb ι} {i : ι} {κ : SessionCall} {user : Account} {savedAt : Nat}
    {id : UUID} {σ : Session ι} (hrev : κ.revocation = some (user, savedAt))
    (h : db.pending i κ = some (id, σ)) : σ.opener = some i := by
  cases κ with
  | revoked a n v =>
    obtain ⟨-, rfl⟩ := Prod.mk.inj (Option.some.inj h)
    rfl
  | completed a v token => cases h
  | _ => cases hrev

/-! ### What a step does to sessions -/

section Step

variable {i : ι} {r : SessionRequest} {db db' : SessionDb ι} {κ κ' : SessionCall}

/-- The session of a token that is there stays. -/
theorem SessionStep.sessionOf (h : SessionStep i r db db' κ κ') {token : Token}
    (hlt : token < db.tables.nextToken) : db'.sessionOf token = db.sessionOf token := by
  have hne : token ≠ db.tables.nextToken := Nat.ne_of_lt hlt
  cases h with
  | read hdb _ | authenticate _ hdb _ | check _ _ _ _ hdb _ | save _ _ _ hdb _ =>
    rw [hdb.sessionOf]
  | revoke _ _ hdb _ | rotate _ _ _ hdb _ | revokeAll _ _ _ _ _ hdb _ =>
    rw [hdb]
    rfl
  | succeed _ _ _ hdb _ | login _ _ _ _ hdb _ | complete _ _ _ _ _ hdb _ =>
    rw [hdb]
    exact Function.update_of_ne hne _ _

/-- What another request is about to store can only get later. -/
theorem pending_later (start : SessionStart) {j : ι} {κj : SessionCall}
    (hsession : ∀ rt, κj = .checked rt ∨ κj = .rotated rt →
      db'.sessionOf rt.token = db.sessionOf rt.token)
    (hclock : db.clock ≤ db'.clock) {user : UUID} {σ' : Session ι}
    (h : db'.pending j κj = some (user, σ')) :
    ∃ σ, db.pending j κj = some (user, σ) ∧ σ.startedAt start ≤ σ'.startedAt start ∧
      σ.opener = σ'.opener := by
  have hown : ∀ (a : Account) (n : Nat),
      some (a.id, (⟨some j, n, db'.clock⟩ : Session ι)) = some (user, σ') →
      ∃ σ, some (a.id, (⟨some j, n, db.clock⟩ : Session ι)) = some (user, σ) ∧
        σ.startedAt start ≤ σ'.startedAt start ∧ σ.opener = σ'.opener := by
    intro a n he
    obtain ⟨rfl, rfl⟩ := Prod.mk.inj (Option.some.inj he)
    refine ⟨_, rfl, ?_, rfl⟩
    cases start
    · exact Nat.le_refl _
    · exact hclock
  cases κj with
  | checked rt =>
    obtain ⟨rfl, rfl⟩ := Prod.mk.inj (Option.some.inj h)
    have hsame := hsession rt (Or.inl rfl)
    exact ⟨_, rfl, Nat.le_of_eq (by rw [hsame]), by rw [hsame]⟩
  | rotated rt =>
    obtain ⟨rfl, rfl⟩ := Prod.mk.inj (Option.some.inj h)
    have hsame := hsession rt (Or.inr rfl)
    exact ⟨_, rfl, Nat.le_of_eq (by rw [hsame]), by rw [hsame]⟩
  | authenticated a n => exact hown a n h
  | changed a n v => exact hown a n h
  | revoked a n v => exact hown a n h
  | _ => cases h

/-- What the request of the step is about to store after it: as before, or it
has found a live token, or its session starts with this step. -/
theorem SessionStep.pending (start : SessionStart) (h : SessionStep i r db db' κ κ')
    (hκ : ∀ rt, κ = .checked rt → rt.token < db.tables.nextToken) {user : UUID} {σ' : Session ι}
    (hp : db'.pending i κ' = some (user, σ')) :
    (∃ σ, db.pending i κ = some (user, σ) ∧ σ.startedAt start ≤ σ'.startedAt start ∧
        σ.opener = σ'.opener) ∨
      (∃ rt ∈ db.tables.refreshTokens, rt.revokedAt = none ∧ rt.user = user ∧
        σ' = db'.sessionOf rt.token) ∨
      db.clock ≤ σ'.startedAt start := by
  have hown : ∀ (a : Account) (n : Nat), db'.clock = db.clock + 1 →
      some (a.id, (⟨some i, n, db'.clock⟩ : Session ι)) = some (user, σ') →
      ∃ σ, some (a.id, (⟨some i, n, db.clock⟩ : Session ι)) = some (user, σ) ∧
        σ.startedAt start ≤ σ'.startedAt start ∧ σ.opener = σ'.opener := by
    intro a n hclock he
    obtain ⟨rfl, rfl⟩ := Prod.mk.inj (Option.some.inj he)
    refine ⟨_, rfl, ?_, rfl⟩
    cases start
    · exact Nat.le_refl _
    · show db.clock ≤ db'.clock
      rw [hclock]
      exact Nat.le_succ _
  have hquiet : κ'.Quiet = true → db'.pending i κ' = none := by
    intro hq
    cases κ' <;> first | rfl | cases hq
  cases h with
  | read hdb hκ' | revoke p now hdb hκ' =>
    rw [hquiet hκ'] at hp
    cases hp
  | check rt hr hrt hlive hdb hκ' =>
    subst hκ'
    obtain ⟨rfl, rfl⟩ := Prod.mk.inj (Option.some.inj hp)
    exact Or.inr (Or.inl ⟨rt, hrt, hlive, rfl, rfl⟩)
  | authenticate a hdb hκ' =>
    subst hκ'
    obtain ⟨rfl, rfl⟩ := Prod.mk.inj (Option.some.inj hp)
    refine Or.inr (Or.inr ?_)
    cases start
    · exact Nat.le_refl _
    · exact Nat.le_of_lt (hdb.clock ▸ Nat.lt_succ_self _)
  | rotate rt now hκ₀ hdb hκ' =>
    subst hκ₀ hκ' hdb
    exact Or.inl ⟨σ', hp, Nat.le_refl _, rfl⟩
  | save a n hκ₀ hdb hκ' =>
    subst hκ₀ hκ'
    exact Or.inl (hown a n hdb.clock hp)
  | revokeAll a n v now hκ₀ hdb hκ' =>
    subst hκ₀ hκ' hdb
    exact Or.inl (hown a n rfl hp)
  | succeed rt now hκ₀ hdb hκ' | login a n now hκ₀ hdb hκ' | complete a n v now hκ₀ hdb hκ' =>
    subst hκ'
    cases hp

/-- A row that is unrevoked after a step was so before, or is what the request
was about to store. -/
theorem SessionStep.unrevoked (h : SessionStep i r db db' κ κ') {rt : RefreshToken}
    (hrt : rt ∈ db'.tables.refreshTokens) (hlive : rt.revokedAt = none) :
    rt ∈ db.tables.refreshTokens ∨
      ∃ σ, db.pending i κ = some (rt.user, σ) ∧ db'.sessionOf rt.token = σ := by
  cases h with
  | read hdb _ | authenticate _ hdb _ | check _ _ _ _ hdb _ | save _ _ _ hdb _ =>
    rw [hdb.refreshTokens] at hrt
    exact Or.inl hrt
  | revoke _ _ hdb _ | revokeAll _ _ _ _ _ hdb _ =>
    subst hdb
    exact Or.inl (AuthTables.unrevoked_of_revokeWhere hrt hlive).1
  | rotate rt₀ now _ hdb _ =>
    subst hdb
    rcases AuthTables.mem_saveRevokedAt.mp hrt with ⟨hrt, -⟩ | ⟨r, hr, -, rfl⟩
    · exact Or.inl hrt
    · cases hlive
  | succeed rt₀ now hκ hdb _ =>
    subst hdb hκ
    rcases AuthTables.mem_createRefreshToken.mp hrt with hrt | rfl
    · exact Or.inl hrt
    · exact Or.inr ⟨_, rfl, Function.update_self _ _ _⟩
  | login a n now hκ hdb _ =>
    subst hdb hκ
    rcases AuthTables.mem_createRefreshToken.mp hrt with hrt | rfl
    · exact Or.inl hrt
    · exact Or.inr ⟨_, rfl, Function.update_self _ _ _⟩
  | complete a n v now hκ hdb _ =>
    subst hdb hκ
    rcases AuthTables.mem_createRefreshToken.mp hrt with hrt | rfl
    · exact Or.inl hrt
    · exact Or.inr ⟨_, rfl, Function.update_self _ _ _⟩

/-- A request has revoked the tokens before the step, or does so in it. -/
theorem SessionStep.revocation (h : SessionStep i r db db' κ κ') {user : Account} {savedAt : Nat}
    (hrev : κ'.revocation = some (user, savedAt)) :
    κ.revocation = some (user, savedAt) ∨
      (∃ checkedAt, κ = .changed user checkedAt savedAt) ∧
        ∀ rt ∈ db'.tables.refreshTokens, rt.user = user.id → rt.revokedAt ≠ none := by
  have hquiet : κ'.Quiet = true → κ'.revocation = none := by
    intro hq
    cases κ' <;> first | rfl | cases hq
  cases h with
  | read hdb hκ' | revoke p now hdb hκ' =>
    rw [hquiet hκ'] at hrev
    cases hrev
  | check _ _ _ _ _ hκ' | authenticate _ _ hκ' | rotate _ _ _ _ hκ' | succeed _ _ _ _ hκ'
  | login _ _ _ _ _ hκ' | save _ _ _ _ hκ' =>
    subst hκ'
    cases hrev
  | revokeAll a n v now hκ hdb hκ' =>
    subst hκ' hdb
    obtain ⟨rfl, rfl⟩ := Prod.mk.inj (Option.some.inj hrev)
    refine Or.inr ⟨⟨n, hκ⟩, fun rt hrt huser hlive => ?_⟩
    have hnot := (AuthTables.unrevoked_of_revokeWhere hrt hlive).2
    simp [huser] at hnot
  | complete a n v now hκ hdb hκ' =>
    subst hκ hκ'
    exact Or.inl hrev

end Step

/-! ### Steps -/

theorem clockInv_init {t : AuthTables} (h : t.FreshTokens) : ClockInv (sessionInit ι t) where
  fresh := h
  checked i rt hi := by rcases hi with hi | hi <;> cases hi
  saved i user n v hi := by cases hi
  revoked i user v hi := by cases hi
  follows t a hta := by cases hta

variable [DecidableEq ι]

theorem clockInv_step (s : SessionSystem ι) (l : ι × SessionInput) (s' : SessionSystem ι)
    (hI : ClockInv s) (h : Interleaving.step (sessionAct requests) s l = some s') :
    ClockInv s' := by
  obtain ⟨i, input⟩ := l
  obtain ⟨db', κ', hact, rfl⟩ := Interleaving.step_eq_some h
  have hstep := sessionAct_cases hact
  obtain ⟨hfresh, hnext, -, hclock⟩ := hstep.tokens hI.fresh
  have hlt : s.shared.clock < db'.clock := hclock ▸ Nat.lt_succ_self _
  refine ⟨hfresh, ?_, ?_, ?_, ?_⟩
  · intro j rt hj
    refine Nat.lt_of_lt_of_le ?_ hnext
    by_cases hji : j = i
    · subst hji
      rcases hj with hj | hj
      · obtain rfl : κ' = .checked rt := by simpa using hj
        exact hI.fresh.new rt hstep.checked.2.1
      · obtain rfl : κ' = .rotated rt := by simpa using hj
        exact hI.checked j rt (Or.inl hstep.rotated.1)
    · exact hI.checked j rt (by simpa [hji] using hj)
  · intro j user n v hj
    by_cases hji : j = i
    · subst hji
      obtain rfl : κ' = .changed user n v := by simpa using hj
      rw [hstep.changed.2]
      exact hlt
    · exact Nat.lt_trans (hI.saved j user n v (by simpa [hji] using hj)) hlt
  · intro j user v hj
    refine Nat.lt_trans ?_ hlt
    by_cases hji : j = i
    · subst hji
      have hj' : κ'.revocation = some (user, v) := by simpa using hj
      rcases hstep.revocation hj' with hold | ⟨⟨n, hκ⟩, -⟩
      · exact hI.revoked j user v hold
      · exact hI.saved j user n v hκ
    · exact hI.revoked j user v (by simpa [hji] using hj)
  · intro t a hta
    have hold : s.shared.Follows t a → t < db'.tables.nextToken ∧ a < db'.tables.nextToken ∧
        db'.sessionOf a = db'.sessionOf t := by
      intro hta
      obtain ⟨ht, ha, hsession⟩ := hI.follows t a hta
      refine ⟨Nat.lt_of_lt_of_le ht hnext, Nat.lt_of_lt_of_le ha hnext, ?_⟩
      rw [hstep.sessionOf ht, hstep.sessionOf ha, hsession]
    rcases hstep.follows with he | ⟨rt, hκ, hκ', -⟩
    · exact hold (by rwa [SessionDb.Follows, ← he])
    · -- the successor takes over the session
      subst hκ'
      obtain ⟨-, rt', now, hκ', rfl⟩ := hstep.refreshed
      rcases List.mem_append.mp hta with hta | hta
      · exact hold hta
      · obtain ⟨rfl, rfl⟩ := Prod.mk.inj (List.mem_singleton.mp hta)
        have hrt := hI.checked i rt' (Or.inr hκ')
        refine ⟨Nat.lt_succ_of_lt hrt, Nat.lt_succ_self _, ?_⟩
        rw [hstep.sessionOf hrt]
        exact Function.update_self _ _ _

/-- A step keeps the earlier sessions revoked, where a revocation runs alone. -/
theorem earlierRevoked_step (start : SessionStart) (s : SessionSystem ι) (l : ι × SessionInput)
    (s' : SessionSystem ι) (hI : ClockInv s) (hP : EarlierRevoked start s)
    (h : Interleaving.step (sessionAct requests) s l = some s') (hC : RevokesAlone start s l) :
    EarlierRevoked start s' := by
  obtain ⟨i, input⟩ := l
  obtain ⟨db', κ', hact, rfl⟩ := Interleaving.step_eq_some h
  have hstep := sessionAct_cases hact
  obtain ⟨-, -, -, hclock⟩ := hstep.tokens hI.fresh
  have hold : ∀ rt ∈ s.shared.tables.refreshTokens,
      db'.sessionOf rt.token = s.shared.sessionOf rt.token := fun rt hrt =>
    hstep.sessionOf (hI.fresh.new rt hrt)
  -- what a request other than that of the step is about to store
  have hother : ∀ j, j ≠ i → ∀ user σ',
      db'.pending j (Function.update s.procs i κ' j) = some (user, σ') →
      ∃ σ, s.shared.pending j (s.procs j) = some (user, σ) ∧
        σ.startedAt start ≤ σ'.startedAt start ∧ σ.opener = σ'.opener := by
    intro j hji user σ' hσ'
    rw [Function.update_of_ne hji] at hσ'
    refine pending_later start ?_ ?_ hσ'
    · intro rt hrt
      exact hstep.sessionOf (hI.checked j rt hrt)
    · rw [hclock]
      exact Nat.le_succ _
  intro j user v hj
  -- what the request has revoked before the step stays revoked
  have hkeep : (s.procs j).revocation = some (user, v) →
      (∀ rt ∈ db'.tables.refreshTokens, rt.user = user.id → rt.revokedAt = none →
        v ≤ (db'.sessionOf rt.token).startedAt start ∨
          (db'.sessionOf rt.token).opener = some j) ∧
        ∀ k, k ≠ j → ∀ σ', db'.pending k (Function.update s.procs i κ' k) = some (user.id, σ') →
          v ≤ σ'.startedAt start ∨ σ'.opener = some j := by
    intro hrev
    obtain ⟨hrows, hpending⟩ := hP j user v hrev
    have hlive : ∀ rt ∈ s.shared.tables.refreshTokens, rt.user = user.id → rt.revokedAt = none →
        v ≤ (db'.sessionOf rt.token).startedAt start ∨
          (db'.sessionOf rt.token).opener = some j := by
      intro rt hrt huser hlive
      rw [hold rt hrt]
      exact hrows rt hrt huser hlive
    constructor
    · intro rt hrt huser hnone
      rcases hstep.unrevoked hrt hnone with hrt | ⟨σ, hσ, hsession⟩
      · exact hlive rt hrt huser hnone
      · rw [hsession]
        rw [huser] at hσ
        by_cases hij : i = j
        · -- its own pair
          subst hij
          exact Or.inr (pending_opener hrev hσ)
        · exact hpending i hij σ hσ
    · intro k hkj σ' hσ'
      by_cases hki : k = i
      · subst hki
        rw [Function.update_self] at hσ'
        rcases hstep.pending start (fun rt hrt => hI.checked k rt (Or.inl hrt)) hσ'
          with ⟨σ, hσ, hle, hopener⟩ | ⟨rt, hrt, hnone, huser, rfl⟩ | hlater
        · rw [← hopener]
          exact (hpending k hkj σ hσ).imp_left fun h => Nat.le_trans h hle
        · exact hlive rt hrt huser hnone
        · exact Or.inl (Nat.le_trans (Nat.le_of_lt (hI.revoked j user v hrev)) hlater)
      · obtain ⟨σ, hσ, hle, hopener⟩ := hother k hki user.id σ' hσ'
        rw [← hopener]
        exact (hpending k hkj σ hσ).imp_left fun h => Nat.le_trans h hle
  by_cases hji : j = i
  · subst hji
    have hj' : κ'.revocation = some (user, v) := by simpa using hj
    rcases hstep.revocation hj' with hrev | ⟨⟨n, hκ⟩, hrows⟩
    · exact hkeep hrev
    · -- the revocation itself: nothing else is on its way
      refine ⟨fun rt hrt huser hnone => absurd hnone (hrows rt hrt huser), ?_⟩
      intro k hkj σ' hσ'
      obtain ⟨σ, hσ, hle, -⟩ := hother k hkj user.id σ' hσ'
      exact Or.inl (Nat.le_trans (hC user n v hκ k hkj σ hσ) hle)
  · exact hkeep (by simpa [hji] using hj)

/-- **A password change ends the earlier sessions**, where no other request for
one of them is about to store a token when the revocation runs. -/
theorem earlier_sessions_end (start : SessionStart) {t : AuthTables} (h : t.FreshTokens)
    (ls : List (ι × SessionInput))
    (hC : Runs.EachStep (Interleaving.step (sessionAct requests)) (RevokesAlone start)
      (sessionInit ι t) ls) :
    Runs.Always (Interleaving.step (sessionAct requests)) (EarlierSessionsEnded start)
      (sessionInit ι t) ls := by
  have hinit : EarlierRevoked start (sessionInit ι t) := by
    intro i user v hi
    cases hi
  have hrevoked := Runs.always_of_eachStep clockInv_step
    (earlierRevoked_step start) (clockInv_init h) hinit hC
  have hinv : Runs.Always (Interleaving.step (sessionAct requests)) ClockInv (sessionInit ι t) ls :=
    Runs.always_of_invariant clockInv_step (clockInv_init h) ls
  exact (hinv.and hrevoked).mono fun s hs => hs.2.ended hs.1

/-! ### A rotation and a reset at once -/

/-- An account with one session and a reset link in its mailbox. -/
def resetReady : AuthTables where
  accounts := [⟨⟨1, "ann@acme.io"⟩, some "secret", true, true, none⟩]
  refreshTokens := [⟨0, 1, 604800, none⟩]
  verificationTokens := []
  resetTokens := [⟨1, 1, 600, none⟩]
  linkRequests := []
  socialAccounts := []
  nextKey := 2
  nextToken := 2

theorem resetReady_freshTokens : resetReady.FreshTokens := by
  refine ⟨by decide, ?_⟩
  intro rt hrt
  obtain rfl := List.mem_singleton.mp hrt
  exact Nat.two_pos

/-- The token of the session is presented, and the password reset. -/
def refreshAndReset : Fin 2 → SessionRequest
  | 0 => .refresh 0
  | 1 => .resetPassword 1 "changed"

/-- The rotation finds its token live, the reset runs from beginning to end,
the rotation saves and inserts. -/
def refreshAndResetSteps : List (Fin 2 × SessionInput) :=
  [(0, ⟨10, none⟩), (1, ⟨11, none⟩), (1, ⟨12, none⟩), (1, ⟨13, none⟩), (1, ⟨14, none⟩),
   (1, ⟨15, none⟩), (0, ⟨16, none⟩), (0, ⟨17, none⟩)]

/-- The reset alone. -/
def resetSteps : List (Fin 2 × SessionInput) :=
  [(1, ⟨11, none⟩), (1, ⟨12, none⟩), (1, ⟨13, none⟩), (1, ⟨14, none⟩), (1, ⟨15, none⟩)]

theorem earlier_sessions_end_reset :
    Runs.Always (Interleaving.step (sessionAct refreshAndReset)) (EarlierSessionsEnded .stored)
      (sessionInit (Fin 2) resetReady) resetSteps :=
  earlier_sessions_end .stored resetReady_freshTokens _ (by decide)

/-- The old session has a live token after the reset has completed. -/
theorem rotation_outlives_reset :
    ((Runs.run (Interleaving.step (sessionAct refreshAndReset)) (sessionInit (Fin 2) resetReady)
        refreshAndResetSteps).map fun s =>
          (s.procs 1, s.shared.tables.refreshTokens.map fun rt => (rt.token, rt.isValid 18))) =
      some (.completed ⟨⟨1, "ann@acme.io"⟩, some "secret", true, true, none⟩ 4 2,
        [(0, false), (2, true), (3, true)]) ∧
    ¬ Runs.Always (Interleaving.step (sessionAct refreshAndReset)) (EarlierSessionsEnded .checked)
        (sessionInit (Fin 2) resetReady) refreshAndResetSteps ∧
    ¬ Runs.Always (Interleaving.step (sessionAct refreshAndReset)) (EarlierSessionsEnded .stored)
        (sessionInit (Fin 2) resetReady) refreshAndResetSteps := by
  have hlast : (Runs.run (Interleaving.step (sessionAct refreshAndReset))
      (sessionInit (Fin 2) resetReady) refreshAndResetSteps).any (fun s =>
        decide (s.procs 1 =
            .completed ⟨⟨1, "ann@acme.io"⟩, some "secret", true, true, none⟩ 4 2 ∧
          (⟨3, 1, 604817, none⟩ : RefreshToken) ∈ s.shared.tables.refreshTokens ∧
          (s.shared.sessionOf 3).checkedAt = 0 ∧ (s.shared.sessionOf 3).storedAt = 0 ∧
          (s.shared.sessionOf 3).opener = none)) = true := by decide
  obtain ⟨s, hs, hfacts⟩ := (Option.any_eq_true _ _).mp hlast
  obtain ⟨hdone, hrow, hchecked, hstored, hopener⟩ := of_decide_eq_true hfacts
  refine ⟨by decide, fun h => ?_, fun h => ?_⟩
  · have := h.last hs 1 _ _ _ hdone 18 _ hrow rfl (by decide) 3 .refl
      (by show (s.shared.sessionOf 3).checkedAt < 4; rw [hchecked]; decide)
    rw [hopener] at this
    cases this
  · have := h.last hs 1 _ _ _ hdone 18 _ hrow rfl (by decide) 3 .refl
      (by show (s.shared.sessionOf 3).storedAt < 4; rw [hstored]; decide)
    rw [hopener] at this
    cases this

end Saasmint
