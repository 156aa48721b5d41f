/-
Saasmint/Users/ExchangeCodes.lean

While the pair of a code is stored, only one request has marked the code, and
its mark stays at least as long (`OneMark`).  So only that request can read the
pair, and it reads once.  The one thing that takes a mark away early is an
exchange whose text is the code with `:consumed` after it: the key that it
deletes is the mark.
-/
import Saasmint.Users.TokenInvariants

namespace Saasmint

variable {ι : Type*} {p : Platform} {secrets : Secrets} {requests : ι → TokenRequest} {i : ι}
  {w w' : TokenWorld ι} {κ κ' : TokenCall} {input : TokenInput} {code : String}
  {expires : Timestamp}

/-- One request at most has marked the code, and the mark is there until the
code expires. -/
structure OneMark (w : TokenWorld ι) (code : String) (expires : Timestamp) : Prop where
  unique : ∀ i j, (code, i) ∈ w.marks → (code, j) ∈ w.marks → i = j
  kept : ∀ i, (code, i) ∈ w.marks →
    ∃ later, w.cache (exchangeMark code) = some (.consumed, later) ∧ expires ≤ later

theorem OneMark.of_unmarked (h : ∀ i, (code, i) ∉ w.marks) : OneMark w code expires :=
  ⟨fun i _ hi => absurd hi (h i), fun i hi => absurd hi (h i)⟩

/-- Where a code is alive and its mark is not, no request has marked it. -/
theorem OneMark.unmarked (h : OneMark w code expires) (hlive : w.clock < expires)
    (hfree : Cache.get w.cache w.clock (exchangeMark code) = none) (i : ι) :
    (code, i) ∉ w.marks := by
  intro hi
  obtain ⟨later, hmark, hle⟩ := h.kept i hi
  have hget : Cache.get w.cache w.clock (exchangeMark code) = some .consumed :=
    Cache.get_eq_some.mpr ⟨later, hmark, lt_of_lt_of_le hlive hle⟩
  cases hfree.symm.trans hget

/-- A change that leaves the mark of the code, and who has marked it. -/
theorem OneMark.frame (h : OneMark w code expires)
    (hmarks : ∀ i, (code, i) ∈ w'.marks → (code, i) ∈ w.marks)
    (hcache : w'.cache (exchangeMark code) = w.cache (exchangeMark code)) :
    OneMark w' code expires where
  unique i j hi hj := h.unique i j (hmarks i hi) (hmarks j hj)
  kept i hi := by
    rw [hcache]
    exact h.kept i (hmarks i hi)

/-- What a run keeps of the codes, where no mark is deleted early. -/
structure CodeInv (secrets : Secrets) (w : TokenWorld ι) : Prop where
  once : CodesOnce w
  marked : ∀ x ∈ w.exchanged, (x.code, x.request) ∈ w.marks
  /-- What is marked is no code that is still to come. -/
  presentable : ∀ x ∈ w.marks, w.presentable secrets x.1 = true
  oneMark : ∀ code refresh expires,
    w.cache (exchangeKey code) = some (.tokens refresh, expires) → w.clock < expires →
      OneMark w code expires

/-- A request that has not read its pair. -/
def Unread (requests : ι → TokenRequest) (i : ι) (w : TokenWorld ι) : TokenCall → Prop
  | .exchange .start => ∀ x ∈ w.exchanged, x.request ≠ i
  | .exchange .marked =>
    (∀ x ∈ w.exchanged, x.request ≠ i) ∧ ∀ code, requests i = .exchange code → (code, i) ∈ w.marks
  | _ => True

theorem presentable_mono {code : String} (hnext : w.tables.nextToken ≤ w'.tables.nextToken)
    (h : w.presentable secrets code = true) : w'.presentable secrets code = true := by
  unfold TokenWorld.presentable at h ⊢
  rcases hindex : secrets.index code with - | n
  · rfl
  · rw [hindex] at h
    apply decide_eq_true
    exact Nat.lt_of_lt_of_le (of_decide_eq_true h) hnext

/-! ### Steps -/

theorem CodeInv.wait (h : CodeInv secrets w) (elapsed : Nat) :
    CodeInv secrets (w.wait elapsed) where
  once := h.once
  marked := h.marked
  presentable := h.presentable
  oneMark code refresh expires hstored hlive := by
    have hle : w.clock ≤ w.clock + elapsed := Int.le_add_of_nonneg_right (Int.natCast_nonneg _)
    have := h.oneMark code refresh expires hstored (lt_of_le_of_lt hle hlive)
    exact this.frame (fun _ hi => hi) rfl

theorem CodeInv.statement {accounts : AccountDb ι} {κ₀ κ₁ : AccountCall} {askedAt : Timestamp}
    (h : CodeInv secrets w) (hnext : w.tables.nextToken ≤ accounts.tables.nextToken) :
    CodeInv secrets (w.afterStatement i accounts κ₀ κ₁ askedAt) where
  once := h.once
  marked := h.marked
  presentable x hx := presentable_mono hnext (h.presentable x hx)
  oneMark code refresh expires hstored hlive :=
    (h.oneMark code refresh expires hstored hlive).frame (fun _ hi => hi) rfl

theorem CodeInv.store (h : CodeInv secrets w) (refresh : Token) :
    CodeInv secrets (w.storeOauthExchange secrets refresh) where
  once := h.once
  marked := h.marked
  presentable x hx := presentable_mono (Nat.le_succ _) (h.presentable x hx)
  oneMark code refresh' expires hstored hlive := by
    by_cases hkey : exchangeKey code = exchangeKey (secrets.text w.tables.nextToken)
    · -- nobody can have marked a code before it is given out
      obtain rfl := exchangeKey_inj hkey
      apply OneMark.of_unmarked
      intro i hi
      have hpresentable := h.presentable _ hi
      rw [TokenWorld.presentable, secrets.index_text] at hpresentable
      exact Nat.lt_irrefl _ (of_decide_eq_true hpresentable)
    · have hstored' : w.cache (exchangeKey code) = some (.tokens refresh', expires) := by
        rw [← hstored]
        exact (Cache.set_of_ne hkey).symm
      refine (h.oneMark code refresh' expires hstored' hlive).frame (fun _ hi => hi) ?_
      apply Cache.set_of_ne
      rw [exchangeMark_eq]
      intro hmark
      exact secrets.text_ne_consumed _ code (exchangeKey_inj hmark).symm

/-- A request marks a code. -/
theorem CodeInv.mark (h : CodeInv secrets w) (ht : TokenInv secrets requests w)
    (hpresentable : w.presentable secrets code = true)
    (hfree : Cache.get w.cache w.clock (exchangeMark code) = none) :
    CodeInv secrets { w with
      cache := Cache.set w.cache (exchangeMark code) .consumed (w.clock + oauthExchangeTtl)
      marks := w.marks ++ [(code, i)] } where
  once := h.once
  marked x hx := List.mem_append_left _ (h.marked x hx)
  presentable x hx := by
    rcases List.mem_append.mp hx with hx | hx
    · exact h.presentable x hx
    · obtain rfl := List.mem_singleton.mp hx
      exact hpresentable
  oneMark code' refresh expires hstored hlive := by
    have hkey : exchangeKey code' ≠ exchangeMark code := by
      intro hkey
      rw [hkey] at hstored
      cases Cache.set_self.symm.trans hstored
    have hstored' : w.cache (exchangeKey code') = some (.tokens refresh, expires) := by
      rw [← hstored]
      exact (Cache.set_of_ne hkey).symm
    have hone := h.oneMark code' refresh expires hstored' hlive
    by_cases hcode : code' = code
    · subst hcode
      have honly : ∀ j, (code', j) ∈ w.marks ++ [(code', i)] → j = i := by
        intro j hj
        rcases List.mem_append.mp hj with hj | hj
        · exact absurd hj (hone.unmarked hlive hfree j)
        · exact (Prod.mk.inj (List.mem_singleton.mp hj)).2
      refine ⟨fun j j' hj hj' => (honly j hj).trans (honly j' hj').symm, fun _ _ => ?_⟩
      -- the mark is later than the code
      have hcode' := ht.stored code' refresh expires hstored'
      exact ⟨_, Cache.set_self, (ht.codes _ hcode').2⟩
    · apply hone.frame
      · intro j hj
        rcases List.mem_append.mp hj with hj | hj
        · exact hj
        · exact absurd (Prod.mk.inj (List.mem_singleton.mp hj)).1 hcode
      · exact Cache.set_of_ne fun hmark => hcode (exchangeMark_inj hmark)

/-- The request that has marked a code reads its pair. -/
theorem CodeInv.read {refresh : Token} (h : CodeInv secrets w) (hmarked : (code, i) ∈ w.marks)
    (hunread : ∀ x ∈ w.exchanged, x.request ≠ i)
    (hdata : Cache.get w.cache w.clock (exchangeKey code) = some (.tokens refresh)) :
    CodeInv secrets { w with exchanged := w.exchanged ++ [⟨i, code, w.clock⟩] } where
  once := by
    obtain ⟨expires, hstored, hlive⟩ := Cache.get_eq_some.mp hdata
    have hone := h.oneMark code refresh expires hstored hlive
    show (List.map _ (w.exchanged ++ [_])).Nodup
    rw [List.map_append]
    refine List.nodup_append.mpr ⟨h.once, List.nodup_singleton _, ?_⟩
    intro code' hcode' new hnew heq
    obtain ⟨x, hx, rfl⟩ := List.mem_map.mp hcode'
    obtain rfl := List.mem_singleton.mp hnew
    -- who has redeemed the code has marked it
    have hx' := h.marked x hx
    rw [heq] at hx'
    exact hunread x hx (hone.unique _ _ hx' hmarked)
  marked x hx := by
    rcases List.mem_append.mp hx with hx | hx
    · exact h.marked x hx
    · obtain rfl := List.mem_singleton.mp hx
      exact hmarked
  presentable := h.presentable
  oneMark code' refresh' expires hstored hlive :=
    (h.oneMark code' refresh' expires hstored hlive).frame (fun _ hi => hi) rfl

/-- A request deletes the key of its code. -/
theorem CodeInv.delete (h : CodeInv secrets w)
    (hC : ∀ code', code = code' ++ ":consumed" →
      Cache.get w.cache w.clock (exchangeKey code') ≠ none →
        Cache.get w.cache w.clock (exchangeMark code') = none) :
    CodeInv secrets { w with cache := Cache.delete w.cache (exchangeKey code) } where
  once := h.once
  marked := h.marked
  presentable := h.presentable
  oneMark code' refresh expires hstored hlive := by
    have hkey : exchangeKey code' ≠ exchangeKey code := by
      intro hkey
      rw [hkey] at hstored
      cases Cache.delete_self.symm.trans hstored
    have hstored' : w.cache (exchangeKey code') = some (.tokens refresh, expires) := by
      rw [← hstored]
      exact (Cache.delete_of_ne hkey).symm
    have hone := h.oneMark code' refresh expires hstored' hlive
    by_cases hmark : exchangeMark code' = exchangeKey code
    · -- what is deleted is a mark: the code has none
      apply OneMark.of_unmarked
      apply hone.unmarked hlive
      rw [exchangeMark_eq] at hmark
      apply hC code' (exchangeKey_inj hmark).symm
      rw [Cache.get_eq_some.mpr ⟨expires, hstored', hlive⟩]
      exact Option.some_ne_none _
    · exact hone.frame (fun _ hi => hi) (Cache.delete_of_ne hmark)

/-! ### Requests -/

/-- A request keeps the invariant and its own assertion. -/
theorem codeInv_act (ht : TokenInv secrets requests w) (h : CodeInv secrets w)
    (hunread : Unread requests i w κ)
    (hC : ∀ code data, requests i = .exchange (code ++ ":consumed") → κ = .exchange (.read data) →
      Cache.get w.cache (w.clock + input.elapsed) (exchangeKey code) ≠ none →
        Cache.get w.cache (w.clock + input.elapsed) (exchangeMark code) = none)
    (hact : tokenAct p secrets requests i w κ input = some (w', κ')) :
    CodeInv secrets w' ∧ Unread requests i w' κ' := by
  have hwait := h.wait input.elapsed
  cases tokenAct_cases hact with
  | statement r κ₀ κ₁ askedAt accounts hr hκ hstep hw' hκ' =>
    subst hw' hκ'
    exact ⟨hwait.statement hstep.nextToken_le, trivial⟩
  | store r refresh _ hw' hκ' =>
    subst hw' hκ'
    exact ⟨hwait.store refresh, trivial⟩
  | exchange code κ₀ κ₁ hr hκ hexchange hκ' =>
    subst hκ hκ'
    cases exchangeStep_cases hexchange with
    | refused hw' | miss _ hw' =>
      subst hw'
      exact ⟨hwait, trivial⟩
    | mark hpresentable hfree hw' =>
      subst hw'
      refine ⟨hwait.mark (ht.wait input.elapsed) hpresentable hfree, hunread, fun code' hr' => ?_⟩
      cases hr.symm.trans hr'
      exact List.mem_append_right _ (List.mem_singleton_self _)
    | read refresh hdata hw' =>
      subst hw'
      exact ⟨hwait.read (hunread.2 code hr) hunread.1 hdata, trivial⟩
    | delete data _ hκ₁ hw' =>
      subst hw'
      refine ⟨hwait.delete fun code' hcode => ?_, ?_⟩
      · exact hC code' data (hcode ▸ hr) rfl
      · cases κ₁ with
        | start => exact absurd rfl hκ₁.1
        | marked => exact absurd rfl hκ₁.2
        | _ => trivial

/-- A request leaves the assertions of the others. -/
theorem unread_other (hact : tokenAct p secrets requests i w κ input = some (w', κ')) {j : ι}
    (hne : j ≠ i) {κⱼ : TokenCall} (h : Unread requests j w κⱼ) : Unread requests j w' κⱼ := by
  have hgrow : (∀ x ∈ w'.exchanged, x ∈ w.exchanged ∨ x.request = i) ∧ w.marks ⊆ w'.marks := by
    cases tokenAct_cases hact with
    | statement _ _ _ _ _ _ _ _ hw' | store _ _ _ hw' =>
      subst hw'
      exact ⟨fun x hx => Or.inl hx, List.Subset.refl _⟩
    | exchange code κ₀ κ₁ _ _ hexchange =>
      cases exchangeStep_cases hexchange with
      | refused hw' | miss _ hw' | delete _ _ _ hw' =>
        subst hw'
        exact ⟨fun x hx => Or.inl hx, List.Subset.refl _⟩
      | mark _ _ hw' =>
        subst hw'
        exact ⟨fun x hx => Or.inl hx, List.subset_append_left _ _⟩
      | read _ _ hw' =>
        subst hw'
        refine ⟨fun x hx => ?_, List.Subset.refl _⟩
        rcases List.mem_append.mp hx with hx | hx
        · exact Or.inl hx
        · obtain rfl := List.mem_singleton.mp hx
          exact Or.inr rfl
  have hfresh : (∀ x ∈ w.exchanged, x.request ≠ j) → ∀ x ∈ w'.exchanged, x.request ≠ j := by
    intro hunread x hx
    rcases hgrow.1 x hx with hx | hx
    · exact hunread x hx
    · exact fun hj => hne (hj.symm.trans hx)
  unfold Unread at h ⊢
  split
  · exact hfresh h
  · exact ⟨hfresh h.1, fun code hr => hgrow.2 (h.2 code hr)⟩
  · trivial

end Saasmint
