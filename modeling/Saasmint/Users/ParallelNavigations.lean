/-
Saasmint/Users/ParallelNavigations.lean

When the navigations of a browser keep its session.

One token is live at any time.  It is in the jar (`Phase.kept`), or the backend
has rotated the token of the jar and the answer with the new one is on its way
(`Phase.replaced`).  A request that was sent with an older token finds that
another request has refreshed with it, so a session whose tokens are each
refreshed with once stays in these two phases.
-/
import Saasmint.Users.Navigations

namespace Saasmint

variable {ι : Type*} {pathname : ι → String}

/-! ### The steps -/

/-- The steps of a navigation. -/
inductive NavigationStep (pathname : String) (input : NavigationInput) (w w' : Web)
    (n n' : Navigation) : Prop
  | send (jar : Cookies) (hn : n = .idle) (hjar : jar.refresh = w.jar.refresh)
      (hw : w' = { w with jar, clock := input.now }) (hn' : n' = .sent jar)
  | begin (c : Cookies) (token : Token) (hn : n = .sent c)
      (htoken : tokenToRefresh pathname c input.now = some token)
      (hw : w' = { w with clock := input.now }) (hn' : n' = .refreshing c token)
  | pass (c : Cookies) (hn : n = .sent c) (htoken : tokenToRefresh pathname c input.now = none)
      (hw : w' = { w with clock := input.now }) (hn' : n' = .answered c none)
  | rotate (c : Cookies) (token : Token) (hn : n = .refreshing c token)
      (hw : w' = { w with
        tables := (w.tables.rotateRefreshToken token input.now).1, clock := input.now })
      (hn' : n' = .answered c (some (token,
        refreshResult input.now (w.tables.rotateRefreshToken token input.now).2)))
  | arrive (c : Cookies) (refresh : Option (Token × RefreshResult)) (redirected : Bool)
      (hn : n = .answered c refresh)
      (hw : w' = { w with
        jar := w.jar.apply
          (proxyResponse pathname c input.now (refresh.map Prod.snd)).cookies
        clock := input.now })
      (hn' : n' = .arrived (refresh.map Prod.fst) redirected)

theorem navigate_cases {i : ι} {w w' : Web} {n n' : Navigation} {input : NavigationInput}
    (h : navigate pathname i w n input = some (w', n')) :
    NavigationStep (pathname i) input w w' n n' := by
  unfold navigate at h
  dsimp only at h
  split at h
  · obtain ⟨rfl, rfl⟩ := Prod.mk.inj (Option.some.inj h)
    refine .send _ rfl ?_ rfl rfl
    split <;> rfl
  · split at h
    · rename_i token htoken
      obtain ⟨rfl, rfl⟩ := Prod.mk.inj (Option.some.inj h)
      exact .begin _ token rfl htoken rfl rfl
    · rename_i htoken
      obtain ⟨rfl, rfl⟩ := Prod.mk.inj (Option.some.inj h)
      exact .pass _ rfl htoken rfl rfl
  · obtain ⟨rfl, rfl⟩ := Prod.mk.inj (Option.some.inj h)
    exact .rotate _ _ rfl rfl rfl
  · obtain ⟨rfl, rfl⟩ := Prod.mk.inj (Option.some.inj h)
    exact .arrive _ _ _ rfl rfl rfl
  · cases h

/-- A token that is refreshed with is the one of the cookies. -/
theorem tokenToRefresh_eq_some {p : String} {c : Cookies} {now : Timestamp} {t : Token}
    (h : tokenToRefresh p c now = some t) : c.refresh = some t := by
  unfold tokenToRefresh at h
  split at h
  · exact h
  · cases h

section Steps

variable {input : NavigationInput} {w w' : Web} {n n' : Navigation} {p : String}

/-- A navigation presents a token from the step on that begins its refresh. -/
theorem NavigationStep.presented (h : NavigationStep p input w w' n n') :
    (n'.presented = n.presented ∧ ∀ c t, n = .sent c → tokenToRefresh p c input.now ≠ some t) ∨
      ∃ c token, n = .sent c ∧ tokenToRefresh p c input.now = some token ∧
        n' = .refreshing c token := by
  cases h with
  | begin c token hn htoken _ hn' => exact Or.inr ⟨c, token, hn, htoken, hn'⟩
  | pass c hn htoken _ hn' =>
    subst hn hn'
    refine Or.inl ⟨rfl, ?_⟩
    rintro _ t ⟨rfl⟩
    rw [htoken]
    exact (Option.some_ne_none t).symm
  | send _ hn _ _ hn' | rotate _ _ hn _ hn' | arrive _ _ _ hn _ hn' =>
    subst hn hn'
    exact Or.inl ⟨rfl, fun _ _ hn => by cases hn⟩

theorem NavigationStep.advance (h : NavigationStep p input w w' n n') :
    w.tables.Advance w'.tables := by
  cases h with
  | rotate c token _ hw _ =>
    subst hw
    exact AuthTables.advance_rotateRefreshToken w.tables token input.now
  | send _ _ _ hw _ | begin _ _ _ _ hw _ | pass _ _ _ hw _ | arrive _ _ _ _ hw _ =>
    subst hw
    exact .refl w.tables

theorem NavigationStep.clock (h : NavigationStep p input w w' n n') : w'.clock = input.now := by
  cases h with
  | send _ _ _ hw _ | begin _ _ _ _ hw _ | pass _ _ _ hw _ | rotate _ _ _ hw _
  | arrive _ _ _ _ hw _ => rw [hw]

end Steps

/-! ### Each token is refreshed with once -/

/-- No two navigations refresh with one token. -/
def OnePresents (s : Browser ι) : Prop :=
  ∀ i j t, (s.procs i).presented = some t → (s.procs j).presented = some t → i = j

variable [DecidableEq ι]

theorem onePresents_step (s : Browser ι) (l : ι × NavigationInput) (s' : Browser ι)
    (_ : True) (hP : OnePresents s) (h : Interleaving.step (navigate pathname) s l = some s') :
    OnePresents s' ↔ FirstRefresh pathname s l := by
  obtain ⟨i, input⟩ := l
  obtain ⟨w', n', hact, rfl⟩ := Interleaving.step_eq_some h
  rcases (navigate_cases hact).presented with ⟨hsame, hnone⟩ | ⟨c, token, hn, htoken, rfl⟩
  · -- nothing new is presented
    have hkeep := Interleaving.apply_update_eq (f := Navigation.presented) hsame
    refine iff_of_true ?_ fun c t hn htoken => absurd htoken (hnone c t hn)
    intro a b t ha hb
    exact hP a b t ((hkeep a).symm.trans ha) ((hkeep b).symm.trans hb)
  · have hself : (Function.update s.procs i (.refreshing c token) i).presented = some token := by
      rw [Function.update_self]
      rfl
    constructor
    · intro hP' c' t hn' ht j hj
      obtain rfl := Navigation.sent.inj (hn.symm.trans hn')
      obtain rfl := Option.some.inj (htoken.symm.trans ht)
      have hji : j ≠ i := by
        rintro rfl
        rw [hn] at hj
        cases hj
      refine hji (hP' j i token ?_ hself)
      rwa [← Function.update_of_ne hji (.refreshing c token) s.procs] at hj
    · intro hC
      -- another navigation with the token would have presented it before the step
      have hother : ∀ j t, j ≠ i → (Function.update s.procs i (.refreshing c token) j).presented
          = some t → t ≠ token := by
        rintro j t hji hj rfl
        rw [Function.update_of_ne hji] at hj
        exact hC c t hn htoken j hj
      intro a b t ha hb
      by_cases hai : a = i
      · subst hai
        by_contra hne
        exact hother b t (Ne.symm hne) hb (Option.some.inj (ha.symm.trans hself))
      · by_cases hbi : b = i
        · subst hbi
          exact absurd (Option.some.inj (hb.symm.trans hself)) (hother a t hai ha)
        · refine hP a b t ?_ ?_
          · simpa [hai] using ha
          · simpa [hbi] using hb

/-- What a navigation has presented, it has presented ever after. -/
theorem onePresents_back (s : Browser ι) (l : ι × NavigationInput) (s' : Browser ι) (_ : True)
    (h : Interleaving.step (navigate pathname) s l = some s') (hP : OnePresents s') :
    OnePresents s := by
  obtain ⟨i, input⟩ := l
  obtain ⟨w', n', hact, rfl⟩ := Interleaving.step_eq_some h
  have hkeep : ∀ j t, (s.procs j).presented = some t →
      (Function.update s.procs i n' j).presented = some t := by
    intro j t hj
    by_cases hji : j = i
    · subst hji
      rw [Function.update_self]
      rcases (navigate_cases hact).presented with ⟨hsame, -⟩ | ⟨c, token, hn, -, -⟩
      · rwa [hsame]
      · rw [hn] at hj
        cases hj
    · rwa [Function.update_of_ne hji]
  intro a b t ha hb
  exact hP a b t (hkeep a t ha) (hkeep b t hb)

/-! ### The two phases -/

/-- Where the live token is on the way from the backend to the jar. -/
inductive Phase (s : Browser ι) (token : Token) : Prop
  /-- The jar has it, and a refresh with it has not been answered. -/
  | kept (hjar : s.shared.jar.refresh = some token)
      (hbegun : ∀ i, (s.procs i).presented = some token → ∃ c, s.procs i = .refreshing c token)
      (hnone : ∀ i c r, s.procs i ≠ .answered c (some r))
  /-- The backend has put it in the place of the jar's token. -/
  | replaced (i : ι) (c : Cookies) (old : Token) (access : AccessToken)
      (hi : s.procs i = .answered c (some (old, .ok access token)))
      (hjar : s.shared.jar.refresh = some old)
      (hnew : ∀ j, (s.procs j).presented ≠ some token)
      (honly : ∀ j c' r, s.procs j = .answered c' (some r) → j = i)

/-- The session is kept with the live token of the row `rt`. -/
structure KeptWith (s : Browser ι) (rt : RefreshToken) : Prop where
  row : rt ∈ s.shared.tables.refreshTokens
  live : rt.isValid s.shared.clock = true
  active : ∃ a, s.shared.tables.account rt.user = some a ∧ a.isActive = true
  phase : Phase s rt.token
  /-- Older cookies have a token that was refreshed with. -/
  sent : ∀ i c t, s.procs i = .sent c → c.refresh = some t →
    s.shared.jar.refresh = some t ∨ ∃ j, (s.procs j).presented = some t
  refreshing : ∀ i c t, s.procs i = .refreshing c t → t = rt.token
  old : ∀ i t, (s.procs i).presented = some t → t < s.shared.tables.nextToken

structure Kept (s : Browser ι) : Prop where
  fresh : s.shared.tables.FreshTokens
  one : OnePresents s
  kept : ∃ rt, KeptWith s rt

omit [DecidableEq ι] in
theorem Phase.knows {s : Browser ι} {token : Token} (h : Phase s token) : s.Knows token := by
  cases h with
  | kept hjar _ _ => exact Or.inl hjar
  | replaced i c old access hi _ _ _ => exact Or.inr ⟨i, Or.inr (Or.inr ⟨c, old, access, hi⟩)⟩

omit [DecidableEq ι] in
theorem KeptWith.sessionKept {s : Browser ι} {rt : RefreshToken} (h : KeptWith s rt) :
    SessionKept s where
  noReuse i c t hi := by
    cases h.phase with
    | kept _ _ hnone => exact hnone i c _ hi
    | replaced j c' old access hj _ _ honly =>
      obtain rfl := honly i c _ hi
      rw [hj] at hi
      cases hi
  live hdone := by
    cases h.phase with
    | kept hjar _ _ => exact ⟨rt, h.row, hjar, h.live⟩
    | replaced j c old access hj _ _ _ =>
      have := hdone j
      rw [hj] at this
      cases this

/-- A step of a navigation that presents nothing, before or after, and leaves
the tables and the token of the jar. -/
theorem KeptWith.frame {s : Browser ι} {rt : RefreshToken} {i : ι} {w' : Web} {n' : Navigation}
    (h : KeptWith s rt) (htables : w'.tables = s.shared.tables)
    (hjar : w'.jar.refresh = s.shared.jar.refresh) (hlive : rt.isValid w'.clock = true)
    (hbefore : (s.procs i).presented = none) (hafter : n'.presented = none)
    (hsent : ∀ c, n' = .sent c → c.refresh = s.shared.jar.refresh) :
    KeptWith ⟨w', Function.update s.procs i n'⟩ rt := by
  have hkeep := Interleaving.apply_update_eq (f := Navigation.presented) (hafter.trans hbefore.symm)
  -- a navigation that presents something is another one
  have hsame : ∀ j m, m.presented ≠ none →
      (Function.update s.procs i n' j = m ↔ s.procs j = m) := by
    intro j m hm
    by_cases hji : j = i
    · subst hji
      rw [Function.update_self]
      refine iff_of_false ?_ ?_
      · rintro rfl
        exact hm hafter
      · rintro rfl
        exact hm hbefore
    · rw [Function.update_of_ne hji]
  refine ⟨?_, hlive, ?_, ?_, ?_, ?_, ?_⟩
  · show rt ∈ w'.tables.refreshTokens
    rw [htables]
    exact h.row
  · show ∃ a, w'.tables.account rt.user = some a ∧ _
    rw [htables]
    exact h.active
  · cases h.phase with
    | kept hj hbegun hnone =>
      refine .kept (hjar.trans hj) (fun j hp => ?_) (fun j c r hp => ?_)
      · obtain ⟨c, hc⟩ := hbegun j ((hkeep j).symm.trans hp)
        exact ⟨c, (hsame j _ (by simp [Navigation.presented])).mpr hc⟩
      · exact hnone j c r ((hsame j _ (by simp [Navigation.presented])).mp hp)
    | replaced k c old access hk hj hnew honly =>
      refine .replaced k c old access ?_ (hjar.trans hj) (fun j hp => ?_) (fun j c' r hp => ?_)
      · exact (hsame k _ (by simp [Navigation.presented])).mpr hk
      · exact hnew j ((hkeep j).symm.trans hp)
      · exact honly j c' r ((hsame j _ (by simp [Navigation.presented])).mp hp)
  · intro j c t hj hc
    show w'.jar.refresh = some t ∨ ∃ k, (Function.update s.procs i n' k).presented = some t
    simp only [hkeep, hjar]
    by_cases hji : j = i
    · subst hji
      left
      rw [← hsent c (by simpa using hj), hc]
    · exact h.sent j c t (by simpa [hji] using hj) hc
  · intro j c t hj
    exact h.refreshing j c t ((hsame j _ (by simp [Navigation.presented])).mp hj)
  · intro j t hj
    show t < w'.tables.nextToken
    rw [htables]
    exact h.old j t ((hkeep j).symm.trans hj)

/-- A navigation begins to refresh, with a token that none has refreshed with. -/
theorem KeptWith.begin {s : Browser ι} {rt : RefreshToken} {i : ι} {c : Cookies} {token : Token}
    {now : Timestamp} (h : KeptWith s rt) (hf : s.shared.tables.FreshTokens)
    (hlive : rt.isValid now = true) (hi : s.procs i = .sent c) (hc : c.refresh = some token)
    (hfirst : ∀ j, (s.procs j).presented ≠ some token) :
    KeptWith ⟨{ s.shared with clock := now }, Function.update s.procs i (.refreshing c token)⟩
      rt := by
  -- the cookies are the jar's, which has the live token
  have hjar : s.shared.jar.refresh = some token :=
    (h.sent i c token hi hc).resolve_right fun ⟨j, hj⟩ => hfirst j hj
  obtain ⟨rfl, hnone⟩ : token = rt.token ∧ ∀ j c r, s.procs j ≠ .answered c (some r) := by
    cases h.phase with
    | kept hj _ hnone => exact ⟨Option.some.inj (hjar.symm.trans hj), hnone⟩
    | replaced k c' old access hk hj _ _ =>
      obtain rfl := Option.some.inj (hjar.symm.trans hj)
      exact absurd (by rw [hk]; rfl) (hfirst k)
  have hother : ∀ {j m}, Function.update s.procs i (.refreshing c rt.token) j = m →
      m ≠ .refreshing c rt.token → s.procs j = m := by
    intro j m hj hm
    have hji : j ≠ i := by
      rintro rfl
      exact hm (by simpa using hj.symm)
    simpa [hji] using hj
  refine ⟨h.row, hlive, h.active, ?_, ?_, ?_, ?_⟩
  · refine .kept hjar (fun j hp => ?_) (fun j c' r hp => ?_)
    · by_cases hji : j = i
      · subst hji
        exact ⟨c, by simp⟩
      · exact absurd (by simpa [hji] using hp) (hfirst j)
    · exact hnone j c' r (hother hp nofun)
  · intro j c' t hj hc'
    rcases h.sent j c' t (hother hj nofun) hc' with hjar' | ⟨k, hk⟩
    · exact Or.inl hjar'
    · refine Or.inr ⟨k, ?_⟩
      have hki : k ≠ i := by
        rintro rfl
        rw [hi] at hk
        cases hk
      simpa [hki] using hk
  · intro j c' t hj
    by_cases hji : j = i
    · subst hji
      have hj' : Navigation.refreshing c rt.token = .refreshing c' t := by simpa using hj
      exact (Navigation.refreshing.inj hj').2.symm
    · exact h.refreshing j c' t (by simpa [hji] using hj)
  · intro j t hj
    by_cases hji : j = i
    · subst hji
      have hj' : some rt.token = some t := by simpa [Navigation.presented] using hj
      obtain rfl := Option.some.inj hj'
      exact hf.new rt h.row
    · exact h.old j t (by simpa [hji] using hj)

/-- The backend rotates the live token. -/
theorem KeptWith.rotate {s : Browser ι} {rt : RefreshToken} {i : ι} {c : Cookies} {token : Token}
    {now : Timestamp} (h : KeptWith s rt) (hf : s.shared.tables.FreshTokens) (hone : OnePresents s)
    (hlive : rt.isValid now = true) (hi : s.procs i = .refreshing c token) :
    ∃ rt', KeptWith
      ⟨{ s.shared with
          tables := (s.shared.tables.rotateRefreshToken token now).1, clock := now },
        Function.update s.procs i (.answered c (some (token,
          refreshResult now (s.shared.tables.rotateRefreshToken token now).2)))⟩ rt' := by
  obtain rfl := h.refreshing i c token hi
  have hpi : (s.procs i).presented = some rt.token := by
    rw [hi]
    rfl
  obtain ⟨hjar, hnone⟩ : s.shared.jar.refresh = some rt.token ∧
      ∀ j c r, s.procs j ≠ .answered c (some r) := by
    cases h.phase with
    | kept hj _ hnone => exact ⟨hj, hnone⟩
    | replaced k c' old access _ _ hnew _ => exact absurd hpi (hnew i)
  obtain ⟨a, ha, hactive⟩ := h.active
  rw [hf.rotate_live h.row hlive ha hactive]
  have hkeep : ∀ j, (Function.update s.procs i (.answered c (some (rt.token,
      refreshResult now (.ok s.shared.tables.nextToken)))) j).presented
        = (s.procs j).presented := by
    apply Interleaving.apply_update_eq
    rw [hpi]
    rfl
  refine ⟨⟨s.shared.tables.nextToken, rt.user, now + refreshTokenLifetime, none⟩, ?_, ?_, ?_, ?_,
    ?_, ?_, ?_⟩
  · exact AuthTables.mem_createRefreshToken.mpr (Or.inr rfl)
  · refine RefreshToken.isValid_iff.mpr ⟨rfl, ?_⟩
    show now < now + refreshTokenLifetime
    exact Int.lt_add_of_pos_right now (by decide)
  · exact ⟨a, ha, hactive⟩
  · refine .replaced i c rt.token _ (Function.update_self ..) hjar (fun j hj => ?_) ?_
    · exact Nat.lt_irrefl _ (h.old j _ ((hkeep j).symm.trans hj))
    · intro j c' r hj
      by_contra hji
      exact hnone j c' r (by simpa [hji] using hj)
  · intro j c' t hj hc'
    have hji : j ≠ i := by
      rintro rfl
      simp at hj
    rcases h.sent j c' t (by simpa [hji] using hj) hc' with hjar' | ⟨k, hk⟩
    · exact Or.inl hjar'
    · exact Or.inr ⟨k, (hkeep k).trans hk⟩
  · -- another refresh with the token would present it a second time
    intro j c' t hj
    have hji : j ≠ i := by
      rintro rfl
      simp at hj
    have hj' : s.procs j = .refreshing c' t := by simpa [hji] using hj
    obtain rfl := h.refreshing j c' t hj'
    refine absurd (hone j i rt.token ?_ hpi) hji
    rw [hj']
    rfl
  · intro j t hj
    exact Nat.lt_succ_of_lt (h.old j t ((hkeep j).symm.trans hj))

/-- The answer with the live token arrives. -/
theorem KeptWith.arrive {s : Browser ι} {rt : RefreshToken} {i : ι} {c : Cookies}
    {r : Token × RefreshResult} {now : Timestamp} {redirected : Bool} {p : String}
    (h : KeptWith s rt) (hlive : rt.isValid now = true)
    (hi : s.procs i = .answered c (some r)) :
    KeptWith
      ⟨{ s.shared with
          jar := s.shared.jar.apply (proxyResponse p c now (some r.2)).cookies, clock := now },
        Function.update s.procs i (.arrived (some r.1) redirected)⟩ rt := by
  obtain ⟨old, access, rfl, hjar, hnew, honly⟩ : ∃ old access, r = (old, .ok access rt.token) ∧
      s.shared.jar.refresh = some old ∧ (∀ j, (s.procs j).presented ≠ some rt.token) ∧
      ∀ j c' r', s.procs j = .answered c' (some r') → j = i := by
    cases h.phase with
    | kept _ _ hnone => exact absurd hi (hnone i c r)
    | replaced k c' old access hk hj hnew honly =>
      obtain rfl := honly i c r hi
      rw [hk] at hi
      obtain ⟨-, hr⟩ := Navigation.answered.inj hi
      exact ⟨old, access, (Option.some.inj hr).symm, hj, hnew, honly⟩
  have hkeep : ∀ j, (Function.update s.procs i (.arrived (some old) redirected) j).presented
      = (s.procs j).presented := by
    apply Interleaving.apply_update_eq
    rw [hi]
    rfl
  refine ⟨h.row, hlive, h.active, ?_, ?_, ?_, ?_⟩
  · refine .kept rfl (fun j hj => ?_) (fun j c' r hj => ?_)
    · exact absurd ((hkeep j).symm.trans hj) (hnew j)
    · by_cases hji : j = i
      · subst hji
        simp at hj
      · exact hji (honly j c' r (by simpa [hji] using hj))
  · intro j c' t hj hc'
    have hji : j ≠ i := by
      rintro rfl
      simp at hj
    right
    rcases h.sent j c' t (by simpa [hji] using hj) hc' with hjar' | ⟨k, hk⟩
    · -- cookies with the token that has been replaced
      obtain rfl := Option.some.inj (hjar.symm.trans hjar')
      refine ⟨i, (hkeep i).trans ?_⟩
      rw [hi]
      rfl
    · exact ⟨k, (hkeep k).trans hk⟩
  · intro j c' t hj
    have hji : j ≠ i := by
      rintro rfl
      simp at hj
    exact h.refreshing j c' t (by simpa [hji] using hj)
  · intro j t hj
    exact h.old j t ((hkeep j).symm.trans hj)

/-- A step that begins no second refresh with a token, in time, keeps the session. -/
theorem kept_step (s : Browser ι) (l : ι × NavigationInput) (s' : Browser ι) (_ : True)
    (hK : Kept s) (h : Interleaving.step (navigate pathname) s l = some s')
    (hC : FirstRefresh pathname s l ∧ InTime s l) : Kept s' := by
  have hone := (onePresents_step s l s' trivial hK.one h).mpr hC.1
  obtain ⟨i, input⟩ := l
  obtain ⟨w', n', hact, rfl⟩ := Interleaving.step_eq_some h
  have hstep := navigate_cases hact
  refine ⟨hstep.advance.fresh hK.fresh, hone, ?_⟩
  obtain ⟨rt, hrt⟩ := hK.kept
  have hnone := (RefreshToken.isValid_iff.mp hrt.live).1
  have hlive : rt.isValid input.now = true :=
    RefreshToken.isValid_iff.mpr ⟨hnone, hC.2 rt hrt.row hrt.phase.knows hnone⟩
  cases hstep with
  | send jar hn hjar hw hn' =>
    subst hw hn'
    refine ⟨rt, hrt.frame rfl hjar hlive ?_ rfl fun c hc => ?_⟩
    · rw [hn]
      rfl
    · obtain rfl := Navigation.sent.inj hc
      exact hjar
  | begin c token hn htoken hw hn' =>
    subst hw hn'
    exact ⟨rt, hrt.begin hK.fresh hlive hn (tokenToRefresh_eq_some htoken) (hC.1 c token hn htoken)⟩
  | pass c hn _ hw hn' =>
    subst hw hn'
    refine ⟨rt, hrt.frame rfl rfl hlive ?_ rfl fun c hc => by cases hc⟩
    rw [hn]
    rfl
  | rotate c token hn hw hn' =>
    subst hw hn'
    exact hrt.rotate hK.fresh hK.one hlive hn
  | arrive c refresh redirected hn hw hn' =>
    subst hw hn'
    cases refresh with
    | some r => exact ⟨rt, hrt.arrive hlive hn⟩
    | none =>
      refine ⟨rt, hrt.frame rfl ?_ hlive ?_ rfl fun c hc => by cases hc⟩
      · show (s.shared.jar.apply (proxyResponse _ _ _ none).cookies).refresh = _
        rw [proxyResponse_none]
        rfl
      · rw [hn]
        rfl

omit [DecidableEq ι] in
theorem kept_init {w : Web} (h : w.LiveSession) : Kept (browserInit ι w) where
  fresh := h.fresh
  one i j t hi := by cases hi
  kept := by
    obtain ⟨rt, hrt, hjar, hlive, hactive⟩ := h.live
    refine ⟨rt, hrt, hlive, hactive, ?_, nofun, nofun, nofun⟩
    exact .kept hjar nofun nofun

/-! ### A second refresh with a token is found out -/

/-- What holds along every run: the browser knows tokens that the backend knows. -/
structure Reads (s : Browser ι) : Prop where
  fresh : s.shared.tables.FreshTokens
  known : ∀ t, s.Knows t → ∃ rt ∈ s.shared.tables.refreshTokens, rt.token = t ∧
    ∃ a, s.shared.tables.account rt.user = some a ∧ a.isActive = true
  old : ∀ i t, (s.procs i).presented = some t → t < s.shared.tables.nextToken

/-- The refresh that the step answers is not with a revoked token. -/
def NotReused (s : Browser ι) (l : ι × NavigationInput) : Prop :=
  ∀ c t, s.procs l.1 = .refreshing c t →
    ∀ rt ∈ s.shared.tables.refreshTokens, rt.token = t → rt.revokedAt = none

/-- The token that the backend has rotated, or refused to. -/
def Navigation.rotated : Navigation → Option Token
  | .answered _ refresh => refresh.map Prod.fst
  | .arrived presented _ => presented
  | _ => none

/-- Rotated tokens are revoked, and were each rotated for one navigation. -/
structure RotatedOnce (s : Browser ι) : Prop where
  revoked : ∀ i t, (s.procs i).rotated = some t →
    ∀ rt ∈ s.shared.tables.refreshTokens, rt.token = t → rt.revokedAt ≠ none
  one : ∀ i j t, (s.procs i).rotated = some t → (s.procs j).rotated = some t → i = j

theorem Navigation.presented_of_rotated {n : Navigation} {t : Token} (h : n.rotated = some t) :
    n.presented = some t := by
  cases n with
  | answered _ _ | arrived _ _ => exact h
  | idle | sent _ | refreshing _ _ => cases h

/-- Where nothing is under way, what was presented was rotated. -/
theorem Navigation.rotated_of_done {n : Navigation} {t : Token} (hdone : n.Done = true)
    (h : n.presented = some t) : n.rotated = some t := by
  cases n with
  | arrived _ _ => exact h
  | idle => cases h
  | sent _ | refreshing _ _ | answered _ _ => cases hdone

section Steps

variable {input : NavigationInput} {w w' : Web} {n n' : Navigation} {p : String} {t : Token}

/-- A token that comes to the browser is one that the backend has made. -/
theorem NavigationStep.holds (h : NavigationStep p input w w' n n')
    (ht : w'.jar.refresh = some t ∨ n'.Holds t) :
    (w.jar.refresh = some t ∨ n.Holds t) ∨
      ∃ token, w'.tables = (w.tables.rotateRefreshToken token input.now).1 ∧
        (w.tables.rotateRefreshToken token input.now).2 = .ok t := by
  cases h with
  | send jar hn hjar hw hn' =>
    subst hw hn'
    left; left
    rcases ht with ht | ⟨c, hc, ht⟩ | ⟨c, hc⟩ | ⟨c, old, a, hc⟩
    · rw [← hjar, ← ht]
    · obtain rfl := Navigation.sent.inj hc
      rw [← hjar, ht]
    · cases hc
    · cases hc
  | begin c token hn htoken hw hn' =>
    subst hw hn'
    left
    rcases ht with ht | ⟨c', hc, ht⟩ | ⟨c', hc⟩ | ⟨c', old, a, hc⟩
    · exact Or.inl ht
    · cases hc
    · obtain ⟨rfl, rfl⟩ := Navigation.refreshing.inj hc
      exact Or.inr (Or.inl ⟨c, hn, tokenToRefresh_eq_some htoken⟩)
    · cases hc
  | pass c hn _ hw hn' =>
    subst hw hn'
    left
    rcases ht with ht | ⟨c', hc, ht⟩ | ⟨c', hc⟩ | ⟨c', old, a, hc⟩
    · exact Or.inl ht
    · cases hc
    · cases hc
    · cases hc
  | rotate c token hn hw hn' =>
    subst hw hn'
    rcases ht with ht | ⟨c', hc, ht⟩ | ⟨c', hc⟩ | ⟨c', old, a, hc⟩
    · exact Or.inl (Or.inl ht)
    · cases hc
    · cases hc
    · right
      refine ⟨token, rfl, ?_⟩
      have hresult := (Prod.mk.inj (Option.some.inj (Navigation.answered.inj hc).2)).2
      rcases hr : (w.tables.rotateRefreshToken token input.now).2 with e | new <;>
        rw [hr] at hresult
      · cases hresult
      · rw [(RefreshResult.ok.inj hresult).2]
  | arrive c refresh redirected hn hw hn' =>
    subst hw hn'
    left
    rcases ht with ht | ⟨c', hc, ht⟩ | ⟨c', hc⟩ | ⟨c', old, a, hc⟩
    · rcases Cookies.refresh_apply ht with ht | ⟨a, ha⟩
      · exact Or.inl ht
      · obtain ⟨⟨old, result⟩, rfl, rfl⟩ := Option.map_eq_some_iff.mp (proxyResponse_set ha)
        exact Or.inr (Or.inr (Or.inr ⟨c, old, a, hn⟩))
    · cases hc
    · cases hc
    · cases hc

/-- The backend has rotated a token from the step on that answers its refresh. -/
theorem NavigationStep.rotated (h : NavigationStep p input w w' n n') :
    n'.rotated = n.rotated ∨ ∃ c token, n = .refreshing c token ∧ n'.rotated = some token ∧
      w'.tables = (w.tables.rotateRefreshToken token input.now).1 := by
  cases h with
  | rotate c token hn hw hn' =>
    subst hw hn'
    exact Or.inr ⟨c, token, hn, rfl, rfl⟩
  | send _ hn _ _ hn' | begin _ _ hn _ _ hn' | pass _ hn _ _ hn' | arrive _ _ _ hn _ hn' =>
    subst hn hn'
    exact Or.inl rfl

end Steps

theorem reads_step (s : Browser ι) (l : ι × NavigationInput) (s' : Browser ι) (hR : Reads s)
    (h : Interleaving.step (navigate pathname) s l = some s') : Reads s' := by
  obtain ⟨i, input⟩ := l
  obtain ⟨w', n', hact, rfl⟩ := Interleaving.step_eq_some h
  have hstep := navigate_cases hact
  have hadv := hstep.advance
  -- the row of a token that was known stays
  have hrow : ∀ t, s.Knows t → ∃ rt ∈ w'.tables.refreshTokens, rt.token = t ∧
      ∃ a, w'.tables.account rt.user = some a ∧ a.isActive = true := by
    intro t ht
    obtain ⟨r, hr, rfl, a, ha, hactive⟩ := hR.known t ht
    obtain ⟨rt, hrt, htoken, huser, -⟩ := hadv.row r hr
    refine ⟨rt, hrt, htoken, a, ?_, hactive⟩
    rw [AuthTables.account, hadv.accounts, huser]
    exact ha
  refine ⟨hadv.fresh hR.fresh, ?_, ?_⟩
  · intro t ht
    have hfrom : (∃ j, j ≠ i ∧ (s.procs j).Holds t) ∨ w'.jar.refresh = some t ∨ n'.Holds t := by
      rcases ht with ht | ⟨j, hj⟩
      · exact Or.inr (Or.inl ht)
      · by_cases hji : j = i
        · subst hji
          exact Or.inr (Or.inr (by simpa using hj))
        · exact Or.inl ⟨j, hji, by simpa [hji] using hj⟩
    rcases hfrom with ⟨j, -, hj⟩ | hi
    · exact hrow t (Or.inr ⟨j, hj⟩)
    · rcases hstep.holds hi with (hjar | hi) | ⟨token, htables, hok⟩
      · exact hrow t (Or.inl hjar)
      · exact hrow t (Or.inr ⟨i, hi⟩)
      · show ∃ rt ∈ w'.tables.refreshTokens, _
        rw [htables]
        exact AuthTables.rotateRefreshToken_ok hok
  · intro j t hj
    have hbefore : (s.procs j).presented = some t → t < w'.tables.nextToken := fun hp =>
      Nat.lt_of_lt_of_le (hR.old j t hp) hadv.next
    by_cases hji : j = i
    · subst hji
      have hj' : n'.presented = some t := by simpa using hj
      rcases hstep.presented with ⟨hsame, -⟩ | ⟨c, token, hn, htoken, rfl⟩
      · exact hbefore (hsame.symm.trans hj')
      · obtain rfl := Option.some.inj hj'
        obtain ⟨rt, hrt, rfl, -⟩ :=
          hR.known token (Or.inr ⟨j, Or.inl ⟨c, hn, tokenToRefresh_eq_some htoken⟩⟩)
        exact Nat.lt_of_lt_of_le (hR.fresh.new rt hrt) hadv.next
    · exact hbefore (by simpa [hji] using hj)

/-- A refresh is answered as reuse exactly where its token is revoked. -/
theorem noReuse_step (s : Browser ι) (l : ι × NavigationInput) (s' : Browser ι) (hR : Reads s)
    (hP : ∀ i c t, s.procs i ≠ .answered c (some (t, .rejected .tokenRevoked)))
    (h : Interleaving.step (navigate pathname) s l = some s') :
    (∀ i c t, s'.procs i ≠ .answered c (some (t, .rejected .tokenRevoked))) ↔
      NotReused s l := by
  obtain ⟨i, input⟩ := l
  obtain ⟨w', n', hact, rfl⟩ := Interleaving.step_eq_some h
  have hiff : (∀ j c t, Function.update s.procs i n' j
        ≠ .answered c (some (t, .rejected .tokenRevoked))) ↔
      ∀ c t, n' ≠ .answered c (some (t, .rejected .tokenRevoked)) := by
    constructor
    · intro hall c t
      simpa using hall i c t
    · intro hn' j c t
      by_cases hji : j = i
      · subst hji
        simpa using hn' c t
      · simpa [hji] using hP j c t
  refine hiff.trans ?_
  cases navigate_cases hact with
  | rotate c token hn hw hn' =>
    subst hn'
    obtain ⟨rt, hrt, rfl, -⟩ := hR.known token (Or.inr ⟨i, Or.inr (Or.inl ⟨c, hn⟩)⟩)
    have hreuse : (s.shared.tables.rotateRefreshToken rt.token input.now).2
        = .error .tokenRevoked ↔ rt.revokedAt ≠ none := hR.fresh.rotate_reuse_iff hrt
    constructor
    · intro hne c' t hn' r hr htoken
      obtain ⟨-, rfl⟩ := Navigation.refreshing.inj (hn.symm.trans hn')
      obtain rfl : r = rt := by
        have := (hR.fresh.refreshToken_eq hr).symm
        rw [htoken, hR.fresh.refreshToken_eq hrt] at this
        exact Option.some.inj this
      by_contra hrevoked
      apply hne c r.token
      rw [hreuse.mpr hrevoked]
      rfl
    · intro hC c' t hc'
      have hlive := hC c rt.token hn rt hrt rfl
      have hresult := (Prod.mk.inj (Option.some.inj (Navigation.answered.inj hc').2)).2
      rcases hr : (s.shared.tables.rotateRefreshToken rt.token input.now).2 with e | new <;>
        rw [hr] at hresult
      · obtain rfl := RefreshResult.rejected.inj hresult
        exact hreuse.mp hr hlive
      · cases hresult
  | send _ hn _ _ hn' | begin _ _ hn _ _ hn' | pass _ hn _ _ hn' | arrive _ _ _ hn _ hn' =>
    subst hn'
    refine iff_of_true (fun c t hc => by cases hc) fun c t hn' => ?_
    exact absurd (hn.symm.trans hn') nofun

/-- A rotation in time of a token that is not revoked is the first of it. -/
theorem rotatedOnce_step (s : Browser ι) (l : ι × NavigationInput) (s' : Browser ι) (hR : Reads s)
    (hP : RotatedOnce s) (h : Interleaving.step (navigate pathname) s l = some s')
    (hC : NotReused s l ∧ InTime s l) : RotatedOnce s' := by
  obtain ⟨i, input⟩ := l
  obtain ⟨w', n', hact, rfl⟩ := Interleaving.step_eq_some h
  have hstep := navigate_cases hact
  -- revoked rows stay revoked
  have hrevoked : ∀ t, t < s.shared.tables.nextToken →
      (∀ rt ∈ s.shared.tables.refreshTokens, rt.token = t → rt.revokedAt ≠ none) →
      ∀ rt ∈ w'.tables.refreshTokens, rt.token = t → rt.revokedAt ≠ none := by
    rintro t hlt hall rt hrt rfl
    rcases hstep.advance.later rt hrt with ⟨r, hr, hlater⟩ | hnew
    · exact hlater.2.2 (hall r hr hlater.1.symm)
    · exact absurd hlt (Nat.not_lt.mpr hnew)
  have hkeep : ∀ j t, (s.procs j).rotated = some t →
      ∀ rt ∈ w'.tables.refreshTokens, rt.token = t → rt.revokedAt ≠ none := fun j t hj =>
    hrevoked t (hR.old j t (Navigation.presented_of_rotated hj)) (hP.revoked j t hj)
  rcases hstep.rotated with hsame | ⟨c, token, hn, hrot, htables⟩
  · have hsame' := Interleaving.apply_update_eq (f := Navigation.rotated) hsame
    refine ⟨fun j t hj => hkeep j t ((hsame' j).symm.trans hj), fun j k t hj hk => ?_⟩
    exact hP.one j k t ((hsame' j).symm.trans hj) ((hsame' k).symm.trans hk)
  · have hknown : s.Knows token := Or.inr ⟨i, Or.inr (Or.inl ⟨c, hn⟩)⟩
    obtain ⟨rt, hrt, rfl, a, ha, hactive⟩ := hR.known token hknown
    have hlive := hC.1 c rt.token hn rt hrt rfl
    have hvalid : rt.isValid input.now = true :=
      RefreshToken.isValid_iff.mpr ⟨hlive, hC.2 rt hrt hknown hlive⟩
    have hother : ∀ j, (s.procs j).rotated ≠ some rt.token := fun j hj =>
      hP.revoked j rt.token hj rt hrt rfl hlive
    have hcases : ∀ j t, (Function.update s.procs i n' j).rotated = some t →
        (j = i ∧ t = rt.token) ∨ (j ≠ i ∧ (s.procs j).rotated = some t) := by
      intro j t hj
      by_cases hji : j = i
      · subst hji
        rw [Function.update_self, hrot] at hj
        exact Or.inl ⟨rfl, (Option.some.inj hj).symm⟩
      · rw [Function.update_of_ne hji] at hj
        exact Or.inr ⟨hji, hj⟩
    refine ⟨?_, ?_⟩
    · intro j t hj
      rcases hcases j t hj with ⟨rfl, rfl⟩ | ⟨-, hj⟩
      · show ∀ r ∈ w'.tables.refreshTokens, _
        rw [htables, hR.fresh.rotate_live hrt hvalid ha hactive]
        intro r hr htoken
        rcases AuthTables.mem_createRefreshToken.mp hr with hr | rfl
        · obtain ⟨-, -, -, hsaved⟩ := AuthTables.later_of_saveRevokedAt hr
          exact hsaved htoken
        · exact absurd htoken (Nat.ne_of_gt (hR.fresh.new rt hrt))
      · exact hkeep j t hj
    · intro j k t hj hk
      rcases hcases j t hj with ⟨rfl, rfl⟩ | ⟨-, hj'⟩ <;>
        rcases hcases k _ hk with ⟨rfl, hkt⟩ | ⟨-, hk'⟩
      · rfl
      · exact absurd hk' (hother k)
      · rw [hkt] at hj'
        exact absurd hj' (hother j)
      · exact hP.one j k t hj' hk'

omit [DecidableEq ι] in
theorem reads_init {w : Web} (h : w.LiveSession) : Reads (browserInit ι w) where
  fresh := h.fresh
  known t ht := by
    obtain ⟨rt, hrt, hjar, -, hactive⟩ := h.live
    rcases ht with ht | ⟨i, ⟨c, hc, -⟩ | ⟨c, hc⟩ | ⟨c, old, a, hc⟩⟩
    · exact ⟨rt, hrt, Option.some.inj (hjar.symm.trans ht), hactive⟩
    · cases hc
    · cases hc
    · cases hc
  old := nofun

/-- **Parallel navigations keep the session** where no navigation refreshes with
a token that another one has refreshed with, as long as the tokens last; in a
run in time that leaves nothing under way, exactly there. -/
theorem parallel_navigations (pathname : ι → String) {w : Web} (h : w.LiveSession)
    (ls : List (ι × NavigationInput)) :
    (Runs.EachStep (Interleaving.step (navigate pathname))
          (fun s l => FirstRefresh pathname s l ∧ InTime s l) (browserInit ι w) ls →
        Runs.Always (Interleaving.step (navigate pathname)) SessionKept (browserInit ι w) ls) ∧
      ∀ s, Runs.run (Interleaving.step (navigate pathname)) (browserInit ι w) ls = some s →
        (∀ i, (s.procs i).Done = true) →
        Runs.EachStep (Interleaving.step (navigate pathname)) InTime (browserInit ι w) ls →
        (Runs.Always (Interleaving.step (navigate pathname)) SessionKept (browserInit ι w) ls ↔
          Runs.EachStep (Interleaving.step (navigate pathname)) (FirstRefresh pathname)
            (browserInit ι w) ls) := by
  have hkept : Runs.EachStep (Interleaving.step (navigate pathname))
        (fun s l => FirstRefresh pathname s l ∧ InTime s l) (browserInit ι w) ls →
      Runs.Always (Interleaving.step (navigate pathname)) SessionKept (browserInit ι w) ls := by
    intro hC
    have hK := Runs.always_of_eachStep (fun _ _ _ _ _ => trivial) kept_step trivial
      (kept_init h) hC
    exact hK.mono fun s hs => hs.kept.elim fun rt hrt => hrt.sessionKept
  refine ⟨hkept, fun s hr hdone hT => ⟨fun hS => ?_, fun hF => hkept (hF.and hT)⟩⟩
  -- no refresh is answered as reuse, so each token was rotated for one navigation
  have hN : Runs.EachStep (Interleaving.step (navigate pathname)) NotReused (browserInit ι w) ls :=
    (Runs.always_iff_eachStep reads_step noReuse_step (reads_init h) nofun).mp
      (hS.mono fun s hs => hs.noReuse)
  have hO := Runs.always_of_eachStep reads_step rotatedOnce_step (reads_init h)
    (⟨nofun, nofun⟩ : RotatedOnce (browserInit ι w)) (hN.and hT)
  -- and at the end it was presented by that one
  have hlast : OnePresents s := fun i j t hi hj =>
    (hO.last hr).one i j t (Navigation.rotated_of_done (hdone i) hi)
      (Navigation.rotated_of_done (hdone j) hj)
  have hone := Runs.always_of_last (fun _ _ _ _ _ => trivial) onePresents_back trivial hr hlast
  exact (Runs.always_iff_eachStep (fun _ _ _ _ _ => trivial) onePresents_step trivial nofun).mp hone

/-! ### Tabs -/

/-- A browser whose access token has expired. -/
def wokenBrowser : Web where
  tables :=
    { accounts := [⟨⟨1, "ann@acme.io"⟩, some "secret", true, true, none⟩]
      refreshTokens := [⟨0, 1, 604800, none⟩]
      verificationTokens := []
      resetTokens := []
      linkRequests := []
      socialAccounts := []
      nextKey := 2
      nextToken := 1 }
  jar := ⟨some ⟨some 900⟩, some 0⟩
  clock := 1000

theorem wokenBrowser_liveSession : wokenBrowser.LiveSession where
  fresh := by
    refine ⟨by decide, fun rt hrt => ?_⟩
    obtain rfl := List.mem_singleton.mp hrt
    exact Nat.one_pos
  live := ⟨⟨0, 1, 604800, none⟩, List.mem_singleton.mpr rfl, rfl, by decide, _, rfl, rfl⟩

/-- A tab loads the dashboard while another one loads the login page, and a third
loads the profile later. -/
def threeTabs : Fin 3 → String
  | 0 => "/en/dashboard"
  | 1 => "/en/login"
  | 2 => "/en/profile"

/-- The first two are under way at once with the expired token.  The third has the
tokens of the first, and refreshes again. -/
def tabsInTurn : List (Fin 3 × NavigationInput) :=
  [(0, ⟨1000, false⟩), (1, ⟨1000, false⟩), (0, ⟨1000, false⟩), (1, ⟨1001, false⟩),
   (0, ⟨1001, false⟩), (1, ⟨1002, false⟩), (0, ⟨1002, false⟩), (2, ⟨3000, false⟩),
   (2, ⟨3001, false⟩), (2, ⟨3002, false⟩), (2, ⟨3003, false⟩)]

theorem parallel_navigations_threeTabs :
    ∃ s, Runs.run (Interleaving.step (navigate threeTabs)) (browserInit (Fin 3) wokenBrowser)
          tabsInTurn = some s ∧
      s.shared.jar.refresh = some 2 ∧
      Runs.EachStep (Interleaving.step (navigate threeTabs)) (FirstRefresh threeTabs)
        (browserInit (Fin 3) wokenBrowser) tabsInTurn ∧
      Runs.Always (Interleaving.step (navigate threeTabs)) SessionKept
        (browserInit (Fin 3) wokenBrowser) tabsInTurn := by
  have hrun : (Runs.run (Interleaving.step (navigate threeTabs))
      (browserInit (Fin 3) wokenBrowser) tabsInTurn).map (fun s =>
        (s.shared.jar.refresh, decide (∀ i, (s.procs i).Done = true))) = some (some 2, true) := by
    decide
  obtain ⟨s, hs, hlast⟩ := Option.map_eq_some_iff.mp hrun
  obtain ⟨hjar, hdone⟩ := Prod.mk.inj hlast
  have hfirst : Runs.EachStep (Interleaving.step (navigate threeTabs)) (FirstRefresh threeTabs)
      (browserInit (Fin 3) wokenBrowser) tabsInTurn := by
    decide
  have hintime : Runs.EachStep (Interleaving.step (navigate threeTabs)) InTime
      (browserInit (Fin 3) wokenBrowser) tabsInTurn := by
    decide
  exact ⟨s, hs, hjar, hfirst,
    ((parallel_navigations threeTabs wokenBrowser_liveSession tabsInTurn).2 s hs
      (of_decide_eq_true hdone) hintime).mpr hfirst⟩

/-- Two tabs load the dashboard. -/
def twoTabs : Fin 2 → String := fun _ => "/en/dashboard"

/-- Both are sent before the first answer arrives. -/
def tabsAtOnce : List (Fin 2 × NavigationInput) :=
  [(0, ⟨1000, false⟩), (1, ⟨1000, false⟩), (0, ⟨1000, false⟩), (1, ⟨1000, false⟩),
   (0, ⟨1001, false⟩), (1, ⟨1001, false⟩), (0, ⟨1002, false⟩), (1, ⟨1002, false⟩)]

/-- The backend revokes every token, and the jar is left with a dead one. -/
theorem tabs_at_once_lose_session :
    ((Runs.run (Interleaving.step (navigate twoTabs)) (browserInit (Fin 2) wokenBrowser)
        tabsAtOnce).map fun s =>
          (s.shared.jar.refresh, s.shared.tables.refreshTokens.map fun rt =>
            (rt.token, rt.isValid s.shared.clock), (s.procs 0).Done && (s.procs 1).Done)) =
      some (some 1, [(0, false), (1, false)], true) ∧
    ¬ Runs.Always (Interleaving.step (navigate twoTabs)) SessionKept
      (browserInit (Fin 2) wokenBrowser) tabsAtOnce := by
  have hrun : (Runs.run (Interleaving.step (navigate twoTabs)) (browserInit (Fin 2) wokenBrowser)
      tabsAtOnce).map (fun s => (s.shared.jar.refresh, s.shared.tables.refreshTokens.map fun rt =>
        (rt.token, rt.isValid s.shared.clock), (s.procs 0).Done && (s.procs 1).Done)) =
      some (some 1, [(0, false), (1, false)], true) := by decide
  refine ⟨hrun, fun h => ?_⟩
  obtain ⟨s, hs, hlast⟩ := Option.map_eq_some_iff.mp hrun
  obtain ⟨-, hrows, hdone⟩ := (by simpa using hlast : _ ∧ _ ∧ (s.procs 0).Done ∧ (s.procs 1).Done)
  obtain ⟨rt, hrt, -, hlive⟩ := (h.last hs).live (Fin.forall_fin_two.mpr hdone)
  have hmem : (rt.token, true) ∈ [((0 : Token), false), (1, false)] := by
    rw [← hrows, ← hlive]
    exact List.mem_map_of_mem hrt
  simp at hmem

end Saasmint
