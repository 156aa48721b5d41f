/-
Saasmint/Users/Rotation.lean

Refresh-token rotation (`rotate_refresh_token` of apps/users/authentication.py)
over every interleaving of the requests on the sessions.

A rotation revokes the row that it has read with `rt.save(...)`, which does not
ask whether the row is still live.  Two calls that have both read one token
live therefore both insert a successor; the chain of a session stays a chain
exactly when no call saves a token that another call has saved
(`rotation_linear`).
-/
import Mathlib.Data.Fintype.Basic
import Saasmint.Users.Sessions

namespace Saasmint

variable {ι : Type*} {requests : ι → SessionRequest} {root : Token}

/-! ### What is claimed -/

/-- Rotation is linear: a token has one successor, one token of the chain is
live at any time, and one rotation of a token succeeds. -/
structure Linear (requests : ι → SessionRequest) (root : Token) (s : SessionSystem ι) : Prop where
  successor : ∀ t a b, s.shared.Follows t a → s.shared.Follows t b → a = b
  live : ∀ now, ∀ a ∈ s.shared.tables.refreshTokens, ∀ b ∈ s.shared.tables.refreshTokens,
    s.shared.Chain root a.token → s.shared.Chain root b.token →
    a.isValid now = true → b.isValid now = true → a.token = b.token
  winner : ∀ t i j a b, requests i = .refresh t → requests j = .refresh t →
    s.procs i = .refreshed a → s.procs j = .refreshed b → i = j

/-- A rotation has saved its token, and perhaps inserted the successor. -/
def SessionCall.Rotating : SessionCall → Bool
  | rotated _ | refreshed _ => true
  | _ => false

theorem SessionCall.rotating_iff {κ : SessionCall} :
    κ.Rotating = true ↔ (∃ rt, κ = .rotated rt) ∨ ∃ a, κ = .refreshed a := by
  cases κ <;> simp [Rotating]

/-- The live row that a rotation has found. -/
def SessionCall.checkedRow : SessionCall → Option RefreshToken
  | checked rt => some rt
  | _ => none

theorem SessionCall.isSome_checkedRow {κ : SessionCall} :
    κ.checkedRow.isSome = true ↔ ∃ rt, κ = .checked rt := by
  cases κ <;> simp [checkedRow]

/-- The save of a rotation comes before any other save of the same token. -/
def FirstToSave (requests : ι → SessionRequest) (s : SessionSystem ι) (l : ι × SessionInput) :
    Prop :=
  ∀ rt, s.procs l.1 = .checked rt →
    ∀ j, requests j = requests l.1 → (s.procs j).Rotating = false

instance [Fintype ι] (s : SessionSystem ι) (l : ι × SessionInput) :
    Decidable (FirstToSave requests s l) :=
  decidable_of_iff ((s.procs l.1).checkedRow.isSome = true →
      ∀ j, requests j = requests l.1 → (s.procs j).Rotating = false) (by
    rw [SessionCall.isSome_checkedRow]
    exact forall_exists_index)

/-- No rotation is between its save and its insert. -/
def NoneRotated (s : SessionSystem ι) : Prop := ∀ i rt, s.procs i ≠ .rotated rt

/-- What holds in every state: rotated tokens are revoked, and each rotation has
the token of its request. -/
structure RotationInv (requests : ι → SessionRequest) (s : SessionSystem ι) : Prop where
  fresh : s.shared.tables.FreshTokens
  checked : ∀ i rt, s.procs i = .checked rt →
    requests i = .refresh rt.token ∧ rt.token < s.shared.tables.nextToken
  rotated : ∀ i rt, s.procs i = .rotated rt →
    requests i = .refresh rt.token ∧ rt.token < s.shared.tables.nextToken ∧
      ∀ r ∈ s.shared.tables.refreshTokens, r.token = rt.token → r.revokedAt ≠ none
  refreshed : ∀ i a, s.procs i = .refreshed a →
    ∃ t, requests i = .refresh t ∧ s.shared.Follows t a
  follows : ∀ t a, s.shared.Follows t a →
    (∃ i, requests i = .refresh t ∧ s.procs i = .refreshed a) ∧ t < s.shared.tables.nextToken ∧
      ∀ r ∈ s.shared.tables.refreshTokens, r.token = t → r.revokedAt ≠ none

/-- Each token is saved by one rotation at most. -/
def OneRotation (requests : ι → SessionRequest) (s : SessionSystem ι) : Prop :=
  ∀ i j, (s.procs i).Rotating = true → (s.procs j).Rotating = true → requests i = requests j → i = j

/-! ### Steps -/

theorem rotationInv_init (requests : ι → SessionRequest) {t : AuthTables} (h : t.FreshTokens) :
    RotationInv requests (sessionInit ι t) where
  fresh := h
  checked i rt hi := by cases hi
  rotated i rt hi := by cases hi
  refreshed i a hi := by cases hi
  follows t a ha := by cases ha

variable [DecidableEq ι]

theorem rotationInv_step (s : SessionSystem ι) (l : ι × SessionInput) (s' : SessionSystem ι)
    (hI : RotationInv requests s) (h : Interleaving.step (sessionAct requests) s l = some s') :
    RotationInv requests s' := by
  obtain ⟨i, input⟩ := l
  obtain ⟨db', κ', hact, rfl⟩ := Interleaving.step_eq_some h
  have hstep := sessionAct_cases hact
  obtain ⟨hfresh, hnext, hrows, -⟩ := hstep.tokens hI.fresh
  have hsucc : ∀ t a, s.shared.Follows t a → db'.Follows t a := by
    intro t a hta
    unfold SessionDb.Follows
    rcases hstep.follows with he | ⟨rt, -, -, he⟩
    · rwa [he]
    · rw [he]
      exact List.mem_append_left _ hta
  have hbefore : ∀ a, s.procs i ≠ .refreshed a := by
    intro a ha
    rw [ha, sessionAct_refreshed] at hact
    cases hact
  refine ⟨hfresh, ?_, ?_, ?_, ?_⟩
  · intro j rt hj
    by_cases hji : j = i
    · subst hji
      obtain rfl : κ' = .checked rt := by simpa using hj
      obtain ⟨hr, hrt, -, -⟩ := hstep.checked
      exact ⟨hr, Nat.lt_of_lt_of_le (hI.fresh.new rt hrt) hnext⟩
    · obtain ⟨hr, hlt⟩ := hI.checked j rt (by simpa [hji] using hj)
      exact ⟨hr, Nat.lt_of_lt_of_le hlt hnext⟩
  · intro j rt hj
    by_cases hji : j = i
    · subst hji
      obtain rfl : κ' = .rotated rt := by simpa using hj
      obtain ⟨hκ, now, rfl⟩ := hstep.rotated
      obtain ⟨hr, hlt⟩ := hI.checked j rt hκ
      refine ⟨hr, Nat.lt_of_lt_of_le hlt hnext, fun r hr htoken => ?_⟩
      obtain ⟨-, -, -, hrevoked⟩ := AuthTables.later_of_saveRevokedAt hr
      exact hrevoked htoken
    · obtain ⟨hr, hlt, hrevoked⟩ := hI.rotated j rt (by simpa [hji] using hj)
      exact ⟨hr, Nat.lt_of_lt_of_le hlt hnext, hrows.revoked hlt hrevoked⟩
  · intro j a hj
    by_cases hji : j = i
    · subst hji
      obtain rfl : κ' = .refreshed a := by simpa using hj
      obtain ⟨rfl, rt, now, hκ, rfl⟩ := hstep.refreshed
      exact ⟨rt.token, (hI.rotated j rt hκ).1,
        List.mem_append_right _ (List.mem_singleton.mpr rfl)⟩
    · obtain ⟨t, hr, hta⟩ := hI.refreshed j a (by simpa [hji] using hj)
      exact ⟨t, hr, hsucc t a hta⟩
  · intro t a hta
    have hold : s.shared.Follows t a →
        (∃ j, requests j = .refresh t ∧ Function.update s.procs i κ' j = .refreshed a) ∧
          t < db'.tables.nextToken ∧
          ∀ r ∈ db'.tables.refreshTokens, r.token = t → r.revokedAt ≠ none := by
      intro hta
      obtain ⟨⟨j, hr, hj⟩, hlt, hrevoked⟩ := hI.follows t a hta
      have hji : j ≠ i := fun e => hbefore a (e ▸ hj)
      exact ⟨⟨j, hr, by rwa [Function.update_of_ne hji]⟩, Nat.lt_of_lt_of_le hlt hnext,
        hrows.revoked hlt hrevoked⟩
    rcases hstep.follows with he | ⟨rt, hκ, hκ', he⟩
    · exact hold (by rwa [SessionDb.Follows, ← he])
    · have hta' : (t, a) ∈ s.shared.successors ++ [(rt.token, s.shared.tables.nextToken)] := by
        rw [← he]
        exact hta
      rcases List.mem_append.mp hta' with hta' | hta'
      · exact hold hta'
      · -- the pair that the step inserts
        obtain ⟨rfl, rfl⟩ := Prod.mk.inj (List.mem_singleton.mp hta')
        obtain ⟨hr, hlt, hrevoked⟩ := hI.rotated i rt hκ
        exact ⟨⟨i, hr, by simpa using hκ'⟩, Nat.lt_of_lt_of_le hlt hnext,
          hrows.revoked hlt hrevoked⟩

/-- A step saves a token a second time exactly where it is not the first to save it. -/
theorem oneRotation_step (s : SessionSystem ι) (l : ι × SessionInput) (s' : SessionSystem ι)
    (_ : RotationInv requests s) (hP : OneRotation requests s)
    (h : Interleaving.step (sessionAct requests) s l = some s') :
    OneRotation requests s' ↔ FirstToSave requests s l := by
  obtain ⟨i, input⟩ := l
  obtain ⟨db', κ', hact, rfl⟩ := Interleaving.step_eq_some h
  have hstep := sessionAct_cases hact
  by_cases hκ : ∃ rt, s.procs i = .checked rt
  · obtain ⟨rt, hrt⟩ := hκ
    rw [hrt] at hact
    obtain rfl := sessionAct_checked hact
    constructor
    · -- a second save of the token would make two rotations of it
      intro hP' rt' _ j hj
      by_contra hrot
      have hrot' : (s.procs j).Rotating = true := by simpa using hrot
      have hji : j ≠ i := by
        rintro rfl
        rw [hrt] at hrot'
        cases hrot'
      refine hji (hP' j i ?_ ?_ hj)
      · simpa [hji] using hrot'
      · simp [SessionCall.Rotating]
    · intro hC
      have hother : ∀ j, j ≠ i →
          (Function.update s.procs i (.rotated rt) j).Rotating = true →
          requests j = requests i → False := by
        intro j hji hj hr
        rw [Function.update_of_ne hji, hC rt hrt j hr] at hj
        cases hj
      intro a b ha hb hab
      by_cases hai : a = i
      · by_contra hne
        subst hai
        exact hother b (Ne.symm hne) hb hab.symm
      · by_cases hbi : b = i
        · subst hbi
          exact (hother a hai ha hab).elim
        · refine hP a b ?_ ?_ hab
          · simpa [hai] using ha
          · simpa [hbi] using hb
  · -- no other step makes a rotation save its token
    have hkeep : ∀ j, (Function.update s.procs i κ' j).Rotating = true →
        (s.procs j).Rotating = true := by
      intro j hj
      by_cases hji : j = i
      · subst hji
        rw [Function.update_self] at hj
        rcases SessionCall.rotating_iff.mp hj with ⟨rt, rfl⟩ | ⟨a, rfl⟩
        · exact absurd ⟨rt, hstep.rotated.1⟩ hκ
        · obtain ⟨-, rt, now, hrt, -⟩ := hstep.refreshed
          rw [hrt]
          rfl
      · rwa [Function.update_of_ne hji] at hj
    refine iff_of_true ?_ fun rt hrt => absurd ⟨rt, hrt⟩ hκ
    intro a b ha hb
    exact hP a b (hkeep a ha) (hkeep b hb)

omit [DecidableEq ι] in
/-- Where each token is saved once, rotation is linear. -/
theorem RotationInv.linear {s : SessionSystem ι} (hI : RotationInv requests s)
    (hP : OneRotation requests s) (root : Token) : Linear requests root s := by
  have hwinner : ∀ t i j a b, requests i = .refresh t → requests j = .refresh t →
      s.procs i = .refreshed a → s.procs j = .refreshed b → i = j := by
    intro t i j a b hi hj ha hb
    refine hP i j ?_ ?_ (hi.trans hj.symm)
    · rw [ha]
      rfl
    · rw [hb]
      rfl
  have hsucc : ∀ t a b, s.shared.Follows t a → s.shared.Follows t b → a = b := by
    intro t a b ha hb
    obtain ⟨⟨i, hi, hia⟩, -⟩ := hI.follows t a ha
    obtain ⟨⟨j, hj, hjb⟩, -⟩ := hI.follows t b hb
    obtain rfl := hwinner t i j a b hi hj hia hjb
    rw [hia] at hjb
    exact SessionCall.refreshed.inj hjb
  refine ⟨hsucc, ?_, hwinner⟩
  intro now a ha b hb hchainA hchainB hliveA hliveB
  -- a live token is the last of the chain
  have hlast : ∀ r ∈ s.shared.tables.refreshTokens, r.isValid now = true →
      ∀ c, ¬ s.shared.Follows r.token c := by
    intro r hr hlive c hc
    exact (hI.follows _ c hc).2.2 r hr rfl (RefreshToken.isValid_iff.mp hlive).1
  have hend : ∀ {x y : Token}, (∀ c, ¬ s.shared.Follows x c) → s.shared.Chain x y → x = y := by
    intro x y hx hxy
    rcases Relation.ReflTransGen.cases_head hxy with rfl | ⟨c, hc, -⟩
    · rfl
    · exact absurd hc (hx c)
  rcases Relation.ReflTransGen.total_of_right_unique (fun t a b => hsucc t a b) hchainA hchainB
    with hab | hba
  · exact hend (hlast a ha hliveA) hab
  · exact (hend (hlast b hb hliveB) hba).symm

omit [DecidableEq ι] in
/-- Where rotation is linear and no rotation is half done, each token was saved once. -/
theorem Linear.oneRotation {s : SessionSystem ι} (hI : RotationInv requests s)
    (h : Linear requests root s) (hnone : NoneRotated s) : OneRotation requests s := by
  have hdone : ∀ i, (s.procs i).Rotating = true →
      ∃ t a, requests i = .refresh t ∧ s.procs i = .refreshed a := by
    intro i hi
    rcases SessionCall.rotating_iff.mp hi with ⟨rt, hrt⟩ | ⟨a, ha⟩
    · exact absurd hrt (hnone i rt)
    · obtain ⟨t, ht, -⟩ := hI.refreshed i a ha
      exact ⟨t, a, ht, ha⟩
  intro i j hi hj hij
  obtain ⟨t, a, ht, ha⟩ := hdone i hi
  obtain ⟨t', b, ht', hb⟩ := hdone j hj
  obtain rfl := SessionRequest.refresh.inj (ht.symm.trans (hij.trans ht'))
  exact h.winner t i j a b ht ht' ha hb

/-- A second save of a token is never undone. -/
theorem oneRotation_back (s : SessionSystem ι) (l : ι × SessionInput) (s' : SessionSystem ι)
    (_ : RotationInv requests s) (h : Interleaving.step (sessionAct requests) s l = some s')
    (hP : OneRotation requests s') : OneRotation requests s := by
  obtain ⟨i, input⟩ := l
  obtain ⟨db', κ', hact, rfl⟩ := Interleaving.step_eq_some h
  have hkeep : ∀ j, (s.procs j).Rotating = true →
      (Function.update s.procs i κ' j).Rotating = true := by
    intro j hj
    by_cases hji : j = i
    · subst hji
      rw [Function.update_self]
      rcases SessionCall.rotating_iff.mp hj with ⟨rt, hrt⟩ | ⟨a, ha⟩
      · rw [hrt] at hact
        rw [sessionAct_rotated hact]
        rfl
      · rw [ha, sessionAct_refreshed] at hact
        cases hact
    · rwa [Function.update_of_ne hji]
  intro a b ha hb
  exact hP a b (hkeep a ha) (hkeep b hb)

/-- **Rotation is linear**, over every interleaving of the requests on the
sessions, where no rotation saves a token that another one has saved; in a run
that leaves no rotation half done, exactly there. -/
theorem rotation_linear (root : Token) {t : AuthTables} (h : t.FreshTokens)
    (ls : List (ι × SessionInput)) :
    (Runs.EachStep (Interleaving.step (sessionAct requests)) (FirstToSave requests)
          (sessionInit ι t) ls →
        Runs.Always (Interleaving.step (sessionAct requests)) (Linear requests root)
          (sessionInit ι t) ls) ∧
      ∀ s, Runs.run (Interleaving.step (sessionAct requests)) (sessionInit ι t) ls = some s →
        NoneRotated s →
        (Runs.Always (Interleaving.step (sessionAct requests)) (Linear requests root)
            (sessionInit ι t) ls ↔
          Runs.EachStep (Interleaving.step (sessionAct requests)) (FirstToSave requests)
            (sessionInit ι t) ls) := by
  have hinit := rotationInv_init requests (ι := ι) h
  have hone : OneRotation requests (sessionInit ι t) := by
    intro i j hi
    cases hi
  have hinv := Runs.always_of_invariant rotationInv_step hinit ls
  have hiff : Runs.Always (Interleaving.step (sessionAct requests)) (OneRotation requests)
        (sessionInit ι t) ls ↔
      Runs.EachStep (Interleaving.step (sessionAct requests)) (FirstToSave requests)
        (sessionInit ι t) ls :=
    Runs.always_iff_eachStep rotationInv_step oneRotation_step hinit hone
  have hlinear : Runs.EachStep (Interleaving.step (sessionAct requests)) (FirstToSave requests)
        (sessionInit ι t) ls →
      Runs.Always (Interleaving.step (sessionAct requests)) (Linear requests root)
        (sessionInit ι t) ls := by
    intro hC
    exact (hinv.and (hiff.mpr hC)).mono fun s hs => hs.1.linear hs.2 root
  refine ⟨hlinear, fun s hr hnone => ⟨fun hL => ?_, hlinear⟩⟩
  have hlast := (hL.last hr).oneRotation (hinv.last hr) hnone
  exact hiff.mp (Runs.always_of_last rotationInv_step oneRotation_back hinit hr hlast)

/-! ### Two presentations of one token -/

/-- The tables after one login. -/
def oneLogin : AuthTables where
  accounts := [⟨⟨1, "ann@acme.io"⟩, some "secret", true, true, none⟩]
  refreshTokens := [⟨0, 1, 604800, none⟩]
  verificationTokens := []
  resetTokens := []
  linkRequests := []
  socialAccounts := []
  nextKey := 2
  nextToken := 1

theorem oneLogin_freshTokens : oneLogin.FreshTokens := by
  refine ⟨by decide, ?_⟩
  intro rt hrt
  obtain rfl := List.mem_singleton.mp hrt
  exact Nat.one_pos

/-- The token of the login is presented twice, and its successor once. -/
def presentChain : Fin 3 → SessionRequest
  | 0 | 2 => .refresh 0
  | 1 => .refresh 1

/-- The second call with the first token comes between the save and the insert of
the first, and revokes all tokens between the check and the save of the successor. -/
def presentChainSteps : List (Fin 3 × SessionInput) :=
  [(0, ⟨10, none⟩), (0, ⟨11, none⟩), (2, ⟨11, none⟩), (0, ⟨12, none⟩), (1, ⟨13, none⟩),
   (2, ⟨13, none⟩), (1, ⟨14, none⟩), (1, ⟨15, none⟩)]

theorem rotation_linear_chain :
    ∃ s, Runs.run (Interleaving.step (sessionAct presentChain)) (sessionInit (Fin 3) oneLogin)
          presentChainSteps = some s ∧
      s.shared.successors = [(0, 1), (1, 2)] ∧
      Runs.EachStep (Interleaving.step (sessionAct presentChain)) (FirstToSave presentChain)
        (sessionInit (Fin 3) oneLogin) presentChainSteps ∧
      Runs.Always (Interleaving.step (sessionAct presentChain)) (Linear presentChain 0)
        (sessionInit (Fin 3) oneLogin) presentChainSteps := by
  have hrun : (Runs.run (Interleaving.step (sessionAct presentChain))
      (sessionInit (Fin 3) oneLogin) presentChainSteps).map (fun s =>
        (s.shared.successors, s.procs 0, s.procs 1, s.procs 2)) =
      some ([(0, 1), (1, 2)], .refreshed 1, .refreshed 2, .failed .tokenRevoked) := by
    decide
  obtain ⟨s, hs, hlast⟩ := Option.map_eq_some_iff.mp hrun
  obtain ⟨hsucc, h0, h1, h2⟩ := by simpa only [Prod.mk.injEq] using hlast
  have hfirst : Runs.EachStep (Interleaving.step (sessionAct presentChain))
      (FirstToSave presentChain) (sessionInit (Fin 3) oneLogin) presentChainSteps := by
    decide
  have hnone : NoneRotated s := by
    intro i rt hi
    match i with
    | 0 =>
      rw [h0] at hi
      cases hi
    | 1 =>
      rw [h1] at hi
      cases hi
    | 2 =>
      rw [h2] at hi
      cases hi
  exact ⟨s, hs, hsucc, hfirst,
    ((rotation_linear 0 oneLogin_freshTokens presentChainSteps).2 s hs hnone).mpr hfirst⟩

/-- Two calls present the token of the login. -/
def presentTwice : Fin 2 → SessionRequest := fun _ => .refresh 0

/-- Both find the token live before either saves it. -/
def presentTwiceSteps : List (Fin 2 × SessionInput) :=
  [(0, ⟨10, none⟩), (1, ⟨10, none⟩), (0, ⟨11, none⟩), (1, ⟨11, none⟩), (0, ⟨12, none⟩),
   (1, ⟨12, none⟩)]

/-- The token gets two successors, both live. -/
theorem rotation_has_two_winners :
    ((Runs.run (Interleaving.step (sessionAct presentTwice)) (sessionInit (Fin 2) oneLogin)
        presentTwiceSteps).map fun s =>
          (s.shared.successors, s.shared.tables.refreshTokens.map fun rt =>
            (rt.token, rt.isValid 13))) =
      some ([(0, 1), (0, 2)], [(0, false), (1, true), (2, true)]) ∧
    ¬ Runs.Always (Interleaving.step (sessionAct presentTwice)) (Linear presentTwice 0)
      (sessionInit (Fin 2) oneLogin) presentTwiceSteps := by
  refine ⟨by decide, fun h => ?_⟩
  have hsucc : (Runs.run (Interleaving.step (sessionAct presentTwice))
      (sessionInit (Fin 2) oneLogin) presentTwiceSteps).map (fun s => s.shared.successors) =
        some [(0, 1), (0, 2)] := by decide
  obtain ⟨s, hs, hpairs⟩ := Option.map_eq_some_iff.mp hsucc
  have := (h.last hs).successor 0 1 2
    (by rw [SessionDb.Follows, hpairs]; simp) (by rw [SessionDb.Follows, hpairs]; simp)
  simp at this

end Saasmint
