/-
Saasmint/Users/TokenInvariants.lean

What each step keeps of the redemptions by mail: in every run they are the only
ones of their tokens, at the endpoint of their kind and by requests that came in
time (`TokenInv`).  Under its condition a step also keeps that the UPDATEs are in
time (`updatedInTime_act`) and that a user whose tokens were renewed can redeem
at most one (`renewedAlone_act`).
-/
import Saasmint.Users.OneTimeTokens

namespace Saasmint

variable {ι : Type*} {p : Platform} {secrets : Secrets} {requests : ι → TokenRequest} {i : ι}
  {w w' : TokenWorld ι} {κ κ' : TokenCall} {input : TokenInput} {code code' : String}

/-! ### Redemptions -/

/-- What holds of the redemptions in every run. -/
structure TokenInv (secrets : Secrets) (requests : ι → TokenRequest) (w : TokenWorld ι) : Prop where
  unique : w.tables.TokensUnique
  redeemedOnce : RedeemedOnce secrets requests w
  /-- What was redeemed has been given out, and is used. -/
  used : ∀ x ∈ w.redeemed, x.token < w.tables.nextToken ∧
    ∀ k, ∀ row ∈ w.tables.rowsOf k, row.token = x.token → row.usedAt ≠ none
  codes : ∀ x ∈ w.codes, (∃ n, n < w.tables.nextToken ∧ x.1 = secrets.text n) ∧
    x.2 ≤ w.clock + oauthExchangeTtl
  stored : ∀ code refresh expires,
    w.cache (exchangeKey code) = some (.tokens refresh, expires) → (code, expires) ∈ w.codes

theorem TokenInv.wait (h : TokenInv secrets requests w) (elapsed : Nat) :
    TokenInv secrets requests (w.wait elapsed) where
  unique := h.unique
  redeemedOnce := ⟨h.redeemedOnce.once, h.redeemedOnce.endpoint, h.redeemedOnce.code,
    h.redeemedOnce.apart⟩
  used := h.used
  codes x hx := by
    obtain ⟨htext, hle⟩ := h.codes x hx
    refine ⟨htext, ?_⟩
    show x.2 ≤ w.clock + elapsed + oauthExchangeTtl
    apply hle.trans
    apply Int.add_le_add_right
    exact Int.le_add_of_nonneg_right (Int.natCast_nonneg _)
  stored := h.stored

/-- A statement of an endpoint. -/
theorem TokenInv.statement {r : AccountRequest} {κ₀ κ₁ : AccountCall} {askedAt : Timestamp}
    {accounts : AccountDb ι} (h : TokenInv secrets requests w) (hr : requests i = .account r)
    (hstep : TokenStep r (κ₀.timeOf askedAt w.clock) w.tables accounts.tables κ₀ κ₁) :
    TokenInv secrets requests (w.afterStatement i accounts κ₀ κ₁ askedAt) := by
  have hnext := hstep.nextToken_le
  have hmem : ∀ x, x ∈ (w.afterStatement i accounts κ₀ κ₁ askedAt).redeemed ↔
      x ∈ w.redeemed ∨ ∃ token, consumedBy κ₀ κ₁ = some token ∧
      x = ⟨i, token, askedAt, w.clock⟩ := by
    intro x
    show x ∈ w.redeemed ++ _ ↔ _
    simp [eq_comm]
  -- a token that is redeemed was unused, and so in no redemption before
  have hnew : ∀ token, consumedBy κ₀ κ₁ = some token → ∀ x ∈ w.redeemed, x.token ≠ token := by
    intro token hconsumed x hx htoken
    obtain ⟨k, id, row, -, -, hrow, hrowtoken, hunused, -⟩ := h.unique.consumed hstep hconsumed
    exact (h.used x hx).2 k row hrow (hrowtoken.trans htoken.symm) hunused
  refine
    { unique := h.unique.step hstep
      redeemedOnce := ⟨?_, ?_, h.redeemedOnce.code, ?_⟩
      used := ?_
      codes := ?_
      stored := h.stored }
  · show (List.map _ (w.redeemed ++ _)).Nodup
    rw [List.map_append]
    rcases hconsumed : consumedBy κ₀ κ₁ with - | token
    · simpa using h.redeemedOnce.once
    · refine List.nodup_append.mpr ⟨h.redeemedOnce.once, List.nodup_singleton _, ?_⟩
      intro token' htoken' new hnew'
      obtain ⟨x, hx, rfl⟩ := List.mem_map.mp htoken'
      obtain rfl := List.mem_singleton.mp hnew'
      exact hnew _ hconsumed x hx
  · intro x hx
    rcases (hmem x).mp hx with hx | ⟨token, hconsumed, rfl⟩
    · obtain ⟨k, hk, ⟨row, hrow, htoken, hlt⟩, -⟩ := h.redeemedOnce.endpoint x hx
      obtain ⟨row', hrow', hlater⟩ := hstep.to hrow
      refine ⟨k, hk, ⟨row', hrow', hlater.token.trans htoken, hlater.expiresAt ▸ hlt⟩, ?_⟩
      rintro k' ⟨row₂, hrow₂, htoken₂⟩
      exact (h.unique.step hstep).kind k' row₂ hrow₂ k row' hrow'
        (htoken₂.trans (hlater.token.trans htoken).symm)
    · obtain ⟨k, id, row, hredeems, hfound, hrow, htoken, -, hlt, -⟩ :=
        h.unique.consumed hstep hconsumed
      obtain ⟨row', hrow', hlater⟩ := hstep.to hrow
      have htime : κ₀.timeOf askedAt w.clock = askedAt := by
        rw [AccountCall.timeOf, hfound]
        rfl
      refine ⟨k, ?_, ⟨row', hrow', hlater.token.trans htoken, ?_⟩, ?_⟩
      · show (requests i).redeems = _
        rw [hr]
        exact hredeems
      · rw [hlater.expiresAt, ← htime]
        exact hlt
      · rintro k' ⟨row₂, hrow₂, htoken₂⟩
        exact (h.unique.step hstep).kind k' row₂ hrow₂ k row' hrow'
          (htoken₂.trans (hlater.token.trans htoken).symm)
  · intro n expires hcode k row' hrow' htoken
    rcases hstep.from hrow' with ⟨row, hrow, hlater⟩ | ⟨hnewtoken, -⟩
    · exact h.redeemedOnce.apart n expires hcode k row hrow (hlater.token.symm.trans htoken)
    · -- a code has been given out before
      obtain ⟨⟨m, hm, htext⟩, -⟩ := h.codes _ hcode
      obtain rfl := secrets.text_inj htext
      rw [← htoken, hnewtoken] at hm
      exact Nat.lt_irrefl _ hm
  · intro x hx
    rcases (hmem x).mp hx with hx | ⟨token, hconsumed, rfl⟩
    · obtain ⟨hlt, hused⟩ := h.used x hx
      refine ⟨Nat.lt_of_lt_of_le hlt hnext, fun k row' hrow' htoken => ?_⟩
      rcases hstep.from hrow' with ⟨row, hrow, hlater⟩ | ⟨hnewtoken, -⟩
      · exact hlater.used (hused k row hrow (hlater.token.symm.trans htoken))
      · rw [← htoken, hnewtoken] at hlt
        exact absurd hlt (Nat.lt_irrefl _)
    · obtain ⟨k, id, row, -, -, hrow, htoken, -, -, hused⟩ := h.unique.consumed hstep hconsumed
      refine ⟨?_, hused⟩
      show token < _
      rw [← htoken]
      exact Nat.lt_of_lt_of_le (h.unique.fresh k row hrow) hnext
  · intro x hx
    obtain ⟨⟨n, hn, htext⟩, hle⟩ := h.codes x hx
    exact ⟨⟨n, Nat.lt_of_lt_of_le hn hnext, htext⟩, hle⟩

/-- A callback stores its code. -/
theorem TokenInv.store (h : TokenInv secrets requests w) (refresh : Token) :
    TokenInv secrets requests (w.storeOauthExchange secrets refresh) := by
  have hmem : ∀ x, x ∈ (w.storeOauthExchange secrets refresh).codes ↔
      x ∈ w.codes ∨ x = (secrets.text w.tables.nextToken, w.clock + oauthExchangeTtl) := by
    intro x
    show x ∈ w.codes ++ [_] ↔ _
    rw [List.mem_append, List.mem_singleton]
  refine
    { unique := ⟨fun k row hrow => Nat.lt_succ_of_lt (h.unique.fresh k row hrow), h.unique.nodup,
        h.unique.kind⟩
      redeemedOnce := ⟨h.redeemedOnce.once, h.redeemedOnce.endpoint, ?_, ?_⟩
      used := fun x hx => ⟨Nat.lt_succ_of_lt (h.used x hx).1, (h.used x hx).2⟩
      codes := ?_
      stored := ?_ }
  · intro x hx
    obtain ⟨hr, expires, hcode, hlt⟩ := h.redeemedOnce.code x hx
    exact ⟨hr, expires, (hmem _).mpr (Or.inl hcode), hlt⟩
  · intro n expires hcode k row hrow
    rcases (hmem _).mp hcode with hcode | heq
    · exact h.redeemedOnce.apart n expires hcode k row hrow
    · obtain rfl := secrets.text_inj (Prod.mk.inj heq).1
      exact Nat.ne_of_lt (h.unique.fresh k row hrow)
  · intro x hx
    rcases (hmem x).mp hx with hx | rfl
    · obtain ⟨⟨n, hn, htext⟩, hle⟩ := h.codes x hx
      exact ⟨⟨n, Nat.lt_succ_of_lt hn, htext⟩, hle⟩
    · exact ⟨⟨_, Nat.lt_succ_self _, rfl⟩, le_refl _⟩
  · intro code refresh' expires hcache
    apply (hmem _).mpr
    by_cases hkey : exchangeKey code = exchangeKey (secrets.text w.tables.nextToken)
    · right
      have hself : some (CacheValue.tokens refresh, w.clock + oauthExchangeTtl)
          = some (.tokens refresh', expires) := by
        rw [← hcache, hkey]
        exact Cache.set_self.symm
      cases hself
      rw [exchangeKey_inj hkey]
    · left
      apply h.stored code refresh' expires
      rw [← hcache]
      exact (Cache.set_of_ne hkey).symm

/-- A change of the cache that brings no pair into it. -/
theorem TokenInv.recache {cache : Cache.Entries String CacheValue Timestamp}
    {marks : List (String × ι)} {exchanged : List (Exchange ι)} (h : TokenInv secrets requests w)
    (hcode : ∀ x ∈ exchanged, requests x.request = .exchange x.code ∧
      ∃ expires, (x.code, expires) ∈ w.codes ∧ x.time < expires)
    (hcache : ∀ code refresh expires, cache (exchangeKey code) = some (.tokens refresh, expires) →
      w.cache (exchangeKey code) = some (.tokens refresh, expires)) :
    TokenInv secrets requests { w with cache, marks, exchanged } where
  unique := h.unique
  redeemedOnce := ⟨h.redeemedOnce.once, h.redeemedOnce.endpoint, hcode, h.redeemedOnce.apart⟩
  used := h.used
  codes := h.codes
  stored code refresh expires hstored :=
    h.stored code refresh expires (hcache code refresh expires hstored)

/-- A call of the cache by an exchange. -/
theorem TokenInv.exchange {κ₀ κ₁ : ExchangeCall} (h : TokenInv secrets requests w)
    (hr : requests i = .exchange code) (hstep : ExchangeStep secrets i code w w' κ₀ κ₁) :
    TokenInv secrets requests w' := by
  cases hstep with
  | refused hw' | miss _ hw' =>
    subst hw'
    exact h
  | mark _ _ hw' =>
    subst hw'
    refine h.recache h.redeemedOnce.code fun code' refresh expires hcache => ?_
    by_cases hkey : exchangeKey code' = exchangeMark code
    · -- what is under the mark is no pair
      have hself : some (CacheValue.consumed, w.clock + oauthExchangeTtl)
          = some (.tokens refresh, expires) := by
        rw [← hcache, hkey]
        exact Cache.set_self.symm
      cases hself
    · rw [← hcache]
      exact (Cache.set_of_ne hkey).symm
  | read refresh hdata hw' =>
    subst hw'
    refine h.recache (fun x hx => ?_) fun _ _ _ hcache => hcache
    rcases List.mem_append.mp hx with hx | hx
    · exact h.redeemedOnce.code x hx
    · obtain rfl := List.mem_singleton.mp hx
      obtain ⟨expires, hcache, hlt⟩ := Cache.get_eq_some.mp hdata
      exact ⟨hr, expires, h.stored code refresh expires hcache, hlt⟩
  | delete _ _ _ hw' =>
    subst hw'
    refine h.recache h.redeemedOnce.code fun code' refresh expires hcache => ?_
    by_cases hkey : exchangeKey code' = exchangeKey code
    · have hself : none = some (CacheValue.tokens refresh, expires) := by
        rw [← hcache, hkey]
        exact Cache.delete_self.symm
      cases hself
    · rw [← hcache]
      exact (Cache.delete_of_ne hkey).symm

theorem TokenInv.act (h : TokenInv secrets requests w)
    (hact : tokenAct p secrets requests i w κ input = some (w', κ')) :
    TokenInv secrets requests w' := by
  have hwait := h.wait input.elapsed
  cases tokenAct_cases hact with
  | statement r κ₀ κ₁ askedAt accounts hr _ hstep hw' =>
    subst hw'
    exact hwait.statement hr hstep
  | store r refresh _ hw' =>
    subst hw'
    exact hwait.store refresh
  | exchange code κ₀ κ₁ hr _ hexchange => exact hwait.exchange hr (exchangeStep_cases hexchange)

/-! ### UPDATEs in time -/

theorem updatedInTime_act (h : TokenInv secrets requests w) (hP : UpdatedInTime w)
    (hact : tokenAct p secrets requests i w κ input = some (w', κ'))
    (hC : ∀ x ∈ κ.foundToken, ∀ k, ∀ row ∈ w.tables.rowsOf k, row.token = x.2 →
      row.usedAt = none → w.clock + input.elapsed < row.expiresAt) : UpdatedInTime w' := by
  cases tokenAct_cases hact with
  | statement r κ₀ κ₁ askedAt accounts hr hκ hstep hw' =>
    subst hw'
    intro x hx k row' hrow' htoken
    rcases List.mem_append.mp hx with hx | hx
    · rcases hstep.from hrow' with ⟨row, hrow, hlater⟩ | ⟨hnewtoken, -⟩
      · rw [hlater.expiresAt]
        exact hP x hx k row hrow (hlater.token.symm.trans htoken)
      · -- what was redeemed before is not the token of the INSERT
        have hlt := (h.used x hx).1
        rw [← htoken, hnewtoken] at hlt
        exact absurd hlt (Nat.lt_irrefl _)
    · obtain ⟨token, hconsumed, rfl⟩ := Option.map_eq_some_iff.mp (Option.mem_toList.mp hx)
      obtain ⟨k₀, id, row, -, hfound, hrow, hrowtoken, hunused, -⟩ :=
        h.unique.consumed hstep hconsumed
      obtain ⟨row₀, hrow₀, hlater⟩ := hstep.to hrow
      obtain ⟨-, rfl⟩ := (h.unique.step hstep).row_eq hrow₀ hrow'
        ((hlater.token.trans hrowtoken).trans htoken.symm)
      rw [hlater.expiresAt]
      subst hκ
      exact hC (id, token) hfound k₀ row hrow hrowtoken hunused
  | store _ _ _ hw' =>
    subst hw'
    exact hP
  | exchange code κ₀ κ₁ _ _ hexchange =>
    have hsame := (exchangeStep_cases hexchange).sameTables
    intro x hx k row hrow
    rw [TokenWorld.tables, hsame.accounts] at hrow
    rw [hsame.redeemed] at hx
    exact hP x hx k row hrow

/-! ### The newest links -/

/-- A user whose tokens were renewed can redeem at most one. -/
def RenewedAlone (w : TokenWorld ι) : Prop :=
  ∀ k user, (k, user) ∈ w.renewed → k ≠ .reset ∧ (w.redeemable k user).length ≤ 1

theorem RenewedAlone.wait (h : RenewedAlone w) (elapsed : Nat) : RenewedAlone (w.wait elapsed) := by
  intro k user hrenewed
  obtain ⟨hk, hle⟩ := h k user hrenewed
  refine ⟨hk, le_trans ?_ hle⟩
  apply redeemableRows_wait
  exact Int.le_add_of_nonneg_right (Int.natCast_nonneg _)

theorem renewedAlone_act (hP : RenewedAlone w)
    (hact : tokenAct p secrets requests i w κ input = some (w', κ'))
    (hC : ∀ x ∈ (requests i).mints w.tables κ, x.1 ≠ .reset →
      redeemableRows (w.tables.rowsOf x.1) (w.clock + input.elapsed) x.2 = []) :
    RenewedAlone w' := by
  have hwait := hP.wait input.elapsed
  cases tokenAct_cases hact with
  | statement r κ₀ κ₁ askedAt accounts hr hκ hstep hw' =>
    subst hw' hκ
    rw [hr] at hC
    intro k user hrenewed
    rcases List.mem_append.mp hrenewed with hrenewed | hrenewed
    · obtain ⟨hk, hle⟩ := hwait k user hrenewed
      exact ⟨hk, hstep.redeemable_le (fun hmints => hC (k, user) hmints hk) hle⟩
    · obtain ⟨hmints, hk⟩ := hstep.renewed (Option.mem_toList.mp hrenewed)
      have halone := hC (k, user) hmints hk
      refine ⟨hk, hstep.redeemable_le (fun _ => halone) ?_⟩
      show (redeemableRows (w.tables.rowsOf k) (w.clock + input.elapsed) user).length ≤ 1
      rw [halone]
      exact Nat.zero_le _
  | store _ _ _ hw' =>
    subst hw'
    exact hwait
  | exchange code κ₀ κ₁ _ _ hexchange =>
    have hsame := (exchangeStep_cases hexchange).sameTables
    intro k user hrenewed
    rw [hsame.renewed] at hrenewed
    rw [TokenWorld.redeemable, TokenWorld.tables, hsame.accounts, hsame.clock]
    exact hwait k user hrenewed

end Saasmint
