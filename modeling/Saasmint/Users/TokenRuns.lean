/-
Saasmint/Users/TokenRuns.lean

In every run a token is redeemed once, at the endpoint of its kind and by a
request that came in time.  That its UPDATE is in time as well, that a code is
redeemed once, and that the newest link is the only one holds in the runs whose
steps meet the condition of each (`one_time_tokens`).
-/
import Saasmint.Users.ExchangeCodes

namespace Saasmint

variable {ι : Type*} {p : Platform} {secrets : Secrets} {requests : ι → TokenRequest}
  {t : AuthTables} {clock : Timestamp}

/-! ### At the start -/

theorem tokenInv_init (h : t.TokensUnique) :
    TokenInv secrets requests (tokenInit requests t clock).shared where
  unique := h
  redeemedOnce := ⟨List.nodup_nil, nofun, nofun, nofun⟩
  used := nofun
  codes := nofun
  stored := nofun

theorem codeInv_init : CodeInv secrets (tokenInit requests t clock).shared where
  once := List.nodup_nil
  marked := nofun
  presentable := nofun
  oneMark := nofun

theorem unread_init (i : ι) :
    Unread requests i (tokenInit requests t clock).shared
    ((tokenInit requests t clock).procs i) := by
  show Unread requests i _ (requests i).initial
  cases requests i with
  | account r => trivial
  | exchange code => exact nofun

/-! ### Runs -/

section Runs

variable [DecidableEq ι] {s s' : TokenSystem ι} {l : ι × TokenInput} {ls : List (ι × TokenInput)}

theorem tokenInv_step (s : TokenSystem ι) (l : ι × TokenInput) (s' : TokenSystem ι)
    (h : TokenInv secrets requests s.shared)
    (hstep : Interleaving.step (tokenAct p secrets requests) s l = some s') :
    TokenInv secrets requests s'.shared := by
  obtain ⟨w', κ', hact, rfl⟩ := Interleaving.step_eq_some hstep
  exact h.act hact

theorem updatedInTime_always (h : t.TokensUnique)
    (hC : Runs.EachStep (Interleaving.step (tokenAct p secrets requests)) UpdatesInTime
      (tokenInit requests t clock) ls) :
    Runs.Always (Interleaving.step (tokenAct p secrets requests)) (fun s => UpdatedInTime s.shared)
      (tokenInit requests t clock) ls := by
  apply Runs.always_of_eachStep tokenInv_step _ (tokenInv_init h) nofun hC
  intro s l s' hinv hP hstep hc
  obtain ⟨w', κ', hact, rfl⟩ := Interleaving.step_eq_some hstep
  exact updatedInTime_act hinv hP hact hc

theorem codesOnce_always (h : t.TokensUnique)
    (hC : Runs.EachStep (Interleaving.step (tokenAct p secrets requests)) (LeavesMarks requests)
      (tokenInit requests t clock) ls) :
    Runs.Always (Interleaving.step (tokenAct p secrets requests)) (fun s => CodesOnce s.shared)
      (tokenInit requests t clock) ls := by
  -- each request that has not read its pair has marked its code alone
  have hinv := Interleaving.always_inv_of
    (G := fun w => TokenInv secrets requests w ∧ CodeInv secrets w) (L := Unread requests)
    (C := fun i w κ input => LeavesMarks requests ⟨w, fun _ => κ⟩ (i, input))
    (fun i w κ input w' κ' hG hL hc hact => by
      obtain ⟨hcode, hunread⟩ := codeInv_act hG.1 hG.2 hL hc hact
      exact ⟨⟨hG.1.act hact, hcode⟩, hunread⟩)
    (fun i w κ input w' κ' _ _ _ hact j κⱼ hj hL => unread_other hact hj hL)
    ⟨⟨tokenInv_init h, codeInv_init⟩, unread_init⟩ hC
  exact hinv.mono fun s hs => hs.shared.2.once

theorem newestOnly_always
    (hC : Runs.EachStep (Interleaving.step (tokenAct p secrets requests)) (MintsAlone requests)
      (tokenInit requests t clock) ls) :
    Runs.Always (Interleaving.step (tokenAct p secrets requests)) (NewestOnly requests)
      (tokenInit requests t clock) ls := by
  have halone : Runs.Always (Interleaving.step (tokenAct p secrets requests))
      (fun s => RenewedAlone s.shared) (tokenInit requests t clock) ls := by
    apply Runs.always_of_eachStep (I := fun _ => True) (fun _ _ _ _ _ => trivial) _ trivial nofun hC
    intro s l s' _ hP hstep hc
    obtain ⟨w', κ', hact, rfl⟩ := Interleaving.step_eq_some hstep
    exact renewedAlone_act hP hact hc
  exact halone.mono fun s hs k user hrenewed _ => (hs k user hrenewed).2

/-- **One-time tokens.**  In every run each token is redeemed at most once, at
the endpoint of its own kind and by a request from before its expiry, and each
code before its expiry.  In a run whose UPDATEs come before the expiry each is
redeemed before it; in a run that leaves the marks each code is redeemed at most
once; in a run whose INSERTs find no other that can be redeemed, the newest
verification and link tokens are the only ones. -/
theorem one_time_tokens (p : Platform) (secrets : Secrets) (requests : ι → TokenRequest)
    {t : AuthTables} (h : t.TokensUnique) (clock : Timestamp) (ls : List (ι × TokenInput)) :
    Runs.Always (Interleaving.step (tokenAct p secrets requests))
        (fun s => RedeemedOnce secrets requests s.shared) (tokenInit requests t clock) ls ∧
      (Runs.EachStep (Interleaving.step (tokenAct p secrets requests)) UpdatesInTime
          (tokenInit requests t clock) ls →
        Runs.Always (Interleaving.step (tokenAct p secrets requests))
          (fun s => UpdatedInTime s.shared) (tokenInit requests t clock) ls) ∧
      (Runs.EachStep (Interleaving.step (tokenAct p secrets requests)) (LeavesMarks requests)
          (tokenInit requests t clock) ls →
        Runs.Always (Interleaving.step (tokenAct p secrets requests))
          (fun s => CodesOnce s.shared) (tokenInit requests t clock) ls) ∧
      (Runs.EachStep (Interleaving.step (tokenAct p secrets requests)) (MintsAlone requests)
          (tokenInit requests t clock) ls →
        Runs.Always (Interleaving.step (tokenAct p secrets requests)) (NewestOnly requests)
          (tokenInit requests t clock) ls) := by
  refine ⟨?_, updatedInTime_always h, codesOnce_always h, newestOnly_always⟩
  have hinv : Runs.Always (Interleaving.step (tokenAct p secrets requests))
      (fun s => TokenInv secrets requests s.shared) (tokenInit requests t clock) ls :=
    Runs.always_of_invariant tokenInv_step (tokenInv_init h) ls
  exact hinv.mono fun s hs => hs.redeemedOnce

end Runs

/-! ### Two resends at once, and an exchange of a mark -/

/-- Texts of one letter. -/
def plainSecrets : Secrets where
  text n := String.ofList (List.replicate (n + 1) 'a')
  index s := if s.toList.all (· = 'a') then some (s.toList.length - 1) else none
  index_text n := by simp
  urlsafe n := by simp

/-- Ann is to verify her email, Bob signs in by a provider. -/
def unverifiedTables : AuthTables where
  accounts :=
    [⟨⟨1, "ann@acme.io"⟩, some "secret", false, true, none⟩,
      ⟨⟨2, "bob@acme.io"⟩, none, true, true, none⟩]
  refreshTokens := []
  verificationTokens := [⟨0, 1, 86400, none⟩]
  resetTokens := []
  linkRequests := []
  socialAccounts := [⟨2, ⟨"google", "sub-2"⟩⟩]
  nextKey := 3
  nextToken := 1

theorem unverifiedTables_tokensUnique : unverifiedTables.TokensUnique :=
  ⟨by decide, by decide, by decide⟩

/-- Ann asks for a new link and opens it; Bob signs in. -/
def annAndBob : Fin 4 → TokenRequest
  | 0 => .account (.resendVerification "ann@acme.io")
  | 1 => .account (.verifyEmail 3 none)
  | 2 => .account (.social (.callback "google" ⟨"bob@acme.io", "sub-2", true⟩))
  | 3 => .exchange "aaa"

/-- One request after the other, Bob's first. -/
def annAndBobSteps : List (Fin 4 × TokenInput) :=
  ((List.finRange 4).rotate 2).flatMap fun i =>
    List.replicate (if i.val = 1 then 4 else 3) (i, ⟨1, none⟩)

theorem leavesMarks_annAndBob (s : TokenSystem (Fin 4)) (l : Fin 4 × TokenInput) :
    LeavesMarks annAndBob s l := by
  intro code data hr
  match l.1, hr with
  | 3, hr =>
    -- the code is one that was given out
    have htext : plainSecrets.text 2 = code ++ ":consumed" := TokenRequest.exchange.inj hr
    exact absurd htext (plainSecrets.text_ne_consumed 2 code)

theorem one_time_tokens_annAndBob :
    Runs.Always (Interleaving.step (tokenAct wordPlatform plainSecrets annAndBob))
        (fun s => RedeemedOnce plainSecrets annAndBob s.shared)
        (tokenInit annAndBob unverifiedTables 0) annAndBobSteps ∧
      Runs.Always (Interleaving.step (tokenAct wordPlatform plainSecrets annAndBob))
        (fun s => UpdatedInTime s.shared) (tokenInit annAndBob unverifiedTables 0) annAndBobSteps ∧
      Runs.Always (Interleaving.step (tokenAct wordPlatform plainSecrets annAndBob))
        (fun s => CodesOnce s.shared) (tokenInit annAndBob unverifiedTables 0) annAndBobSteps ∧
      Runs.Always (Interleaving.step (tokenAct wordPlatform plainSecrets annAndBob))
        (NewestOnly annAndBob) (tokenInit annAndBob unverifiedTables 0) annAndBobSteps := by
  obtain ⟨honce, hupdates, hmarks, hmints⟩ := one_time_tokens wordPlatform plainSecrets annAndBob
    unverifiedTables_tokensUnique 0 annAndBobSteps
  refine ⟨honce, hupdates (by decide), hmarks ?_, hmints (by decide)⟩
  exact Runs.eachStep_of_step (fun s l _ _ => leavesMarks_annAndBob s l) _ _

/-- Ann asks for two links; two have Bob's code, and one presents its text with
`:consumed` after it. -/
def racingRequests : Fin 6 → TokenRequest
  | 0 | 1 => .account (.resendVerification "ann@acme.io")
  | 2 => .account (.social (.callback "google" ⟨"bob@acme.io", "sub-2", true⟩))
  | 3 | 4 => .exchange "aaa"
  | 5 => .exchange "aaa:consumed"

/-- Both resends invalidate, then both insert. -/
def resendRace : List (Fin 6 × TokenInput) := [0, 1, 0, 1, 0, 1].map fun i => (i, ⟨1, none⟩)

/-- The mark of the first exchange is deleted before it reads. -/
def exchangeRace : List (Fin 6 × TokenInput) :=
  [2, 2, 2, 3, 5, 5, 5, 4, 3, 4, 3, 4].map fun i => (i, ⟨1, none⟩)

/-- Both links can be opened after both resends have completed; and one code
hands out two pairs. -/
theorem two_links_and_two_pairs :
    ¬ Runs.Always (Interleaving.step (tokenAct wordPlatform plainSecrets racingRequests))
        (NewestOnly racingRequests) (tokenInit racingRequests unverifiedTables 0) resendRace ∧
    (Runs.run (Interleaving.step (tokenAct wordPlatform plainSecrets racingRequests))
        (tokenInit racingRequests unverifiedTables 0) exchangeRace).map
          (fun s => (s.procs 3, s.procs 4)) =
      some (.exchange (.exchanged 1), .exchange (.exchanged 1)) ∧
    ¬ Runs.Always (Interleaving.step (tokenAct wordPlatform plainSecrets racingRequests))
        (fun s => CodesOnce s.shared) (tokenInit racingRequests unverifiedTables 0)
        exchangeRace := by
  refine ⟨fun h => ?_, by decide, fun h => ?_⟩
  · have hlast : (Runs.run (Interleaving.step (tokenAct wordPlatform plainSecrets racingRequests))
        (tokenInit racingRequests unverifiedTables 0) resendRace).any (fun s =>
          decide ((.verification, 1) ∈ s.shared.renewed ∧
            (∀ i, TokenCall.renewing (racingRequests i) (s.procs i) ≠ some (.verification, 1)) ∧
            (s.shared.redeemable .verification 1).length = 2)) = true := by decide
    obtain ⟨s, hs, hfacts⟩ := (Option.any_eq_true _ _).mp hlast
    obtain ⟨hrenewed, hdone, hlength⟩ := of_decide_eq_true hfacts
    have hle := h.last hs .verification 1 hrenewed hdone
    rw [hlength] at hle
    exact absurd hle (by decide)
  · have hlast : (Runs.run (Interleaving.step (tokenAct wordPlatform plainSecrets racingRequests))
        (tokenInit racingRequests unverifiedTables 0) exchangeRace).map
          (fun s => s.shared.exchanged.map Exchange.code) = some ["aaa", "aaa"] := by decide
    obtain ⟨s, hs, hcodes⟩ := Option.map_eq_some_iff.mp hlast
    have honce : (s.shared.exchanged.map Exchange.code).Nodup := h.last hs
    rw [hcodes] at honce
    exact absurd honce (by decide)

end Saasmint
