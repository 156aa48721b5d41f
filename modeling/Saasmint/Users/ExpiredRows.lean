/-
Saasmint/Users/ExpiredRows.lean

The tasks that delete expired tokens (`_delete_expired_rows` of
apps/users/tasks.py), any number of them at a time, among the requests that
open and use accounts.

A task reads the clock once, then reads the ids of a batch of rows that had
expired by then and deletes them, until a batch is not full.  Nothing holds
between two of its statements, and a request may have read a row that is
deleted before its next one.  The tasks refine the system without them
(`cleanup_refines`): what the requests do among tasks, they do without tasks as
well, on tables that have the deleted rows too, but for requests that are
refused.
-/
import Saasmint.Users.TokenSteps

namespace Saasmint

variable {ι κ : Type*} {p : Platform} {t t' : AuthTables} {now : Timestamp}

/-! ### The tables of tokens -/

/-- The tables that have a task. -/
inductive TokenTable
  | refresh
  | oneTime (k : TokenKind)
  deriving DecidableEq, Repr

/-- The rows of a table, by their hash and their `expires_at`. -/
def AuthTables.expiries (t : AuthTables) : TokenTable → List (Token × Timestamp)
  | .refresh => t.refreshTokens.map fun rt => (rt.token, rt.expiresAt)
  | .oneTime k => (t.rowsOf k).map fun row => (row.token, row.expiresAt)

/-- The rows that are in none of the lists. -/
def AuthTables.without (t : AuthTables) (d : TokenTable → List Token) : AuthTables :=
  { t with
    refreshTokens := t.refreshTokens.filter fun rt => rt.token ∉ d .refresh
    verificationTokens := t.verificationTokens.filter fun r => r.token ∉ d (.oneTime .verification)
    resetTokens := t.resetTokens.filter fun r => r.token ∉ d (.oneTime .reset)
    linkRequests := t.linkRequests.filter fun r => r.token ∉ d (.oneTime .link) }

/-- `DELETE ... WHERE id IN ids`; a row is known by its hash. -/
def AuthTables.deleteRows (t : AuthTables) (k : TokenTable) (ids : List Token) : AuthTables :=
  t.without (Function.update (fun _ => []) k ids)

/-! ### A task -/

/-- Where a task is, with the time at its start. -/
inductive CleanupCall
  | start
  | selecting (now : Timestamp) (total : Nat)
  | deleting (now : Timestamp) (ids : List Token) (total : Nat)
  | done (now : Timestamp) (total : Nat)
  deriving DecidableEq, Repr

def CleanupCall.startedAt : CleanupCall → Option Timestamp
  | start => none
  | selecting now _ | deleting now _ _ | done now _ => some now

/-- The ids of the rows that had expired. -/
def AuthTables.expired (t : AuthTables) (k : TokenTable) (now : Timestamp) : List Token :=
  ((t.expiries k).filter fun x => x.2 < now).map Prod.fst

/-- The ids are a batch: the SELECT has no order, and a limit. -/
def AuthTables.Batch (t : AuthTables) (k : TokenTable) (now : Timestamp) (batch : Nat)
    (ids : List Token) : Prop :=
  ids.Nodup ∧ ids ⊆ t.expired k now ∧ ids.length = min batch (t.expired k now).length

instance (t : AuthTables) (k : TokenTable) (now : Timestamp) (batch : Nat) (ids : List Token) :
    Decidable (t.Batch k now batch ids) :=
  inferInstanceAs (Decidable (_ ∧ (∀ x ∈ ids, x ∈ t.expired k now) ∧ _))

/-- A statement of `_delete_expired_rows` on the table `k`, at the time `clock`;
`ids` is what a SELECT returns, `batch` of them (`_EXPIRED_ROW_DELETE_BATCH`) where
there are so many. -/
def deleteExpiredRows (batch : Nat) (k : TokenTable) (t : AuthTables) (clock : Timestamp)
    (ids : List Token) : CleanupCall → Option (AuthTables × CleanupCall)
  | .start => some (t, .selecting clock 0)
  | .selecting now total =>
    if t.Batch k now batch ids then
      some (t, if ids = [] then .done now total else .deleting now ids total)
    else none
  | .deleting now found total =>
    let deleted := (t.expiries k).countP fun x => x.1 ∈ found
    some (t.deleteRows k found,
      if deleted < batch then .done now (total + deleted) else .selecting now (total + deleted))
  | .done _ _ => none

/-! ### The system -/

/-- A step of the request `i` on the tables alone. -/
def tableAct (p : Platform) (requests : ι → AccountRequest) (i : ι) (t : AuthTables)
    (κ : AccountCall) (input : SessionInput) : Option (AuthTables × AccountCall) :=
  (accountStatement p (requests i) i (.init ι t) κ input).map fun x => (x.1.tables, x.2)

abbrev TableSystem (ι : Type*) := Interleaving.State ι AuthTables AccountCall

def tableInit (requests : ι → AccountRequest) (t : AuthTables) : TableSystem ι :=
  ⟨t, fun i => (requests i).initial⟩

/-- A request among tasks; `none` where it has raised DatabaseError. -/
abbrev CleanedCall := Option AccountCall

/-- `rt.save(update_fields=["revoked_at"])` raises DatabaseError where the row is
gone. -/
def savesDeleted (t : AuthTables) : AccountCall → Bool
  | .session (.checked rt) => (t.refreshToken rt.token).isNone
  | _ => false

/-- A step of the request `i` among tasks. -/
def cleanedAct (p : Platform) (requests : ι → AccountRequest) (i : ι) (t : AuthTables)
    (κ : AccountCall) (input : SessionInput) : Option (AuthTables × CleanedCall) :=
  if savesDeleted t κ then some (t, none)
  else (tableAct p requests i t κ input).map fun x => (x.1, some x.2)

/-- The requests and the tasks. -/
structure CleaningSystem (ι κ : Type*) where
  tables : AuthTables
  procs : ι → CleanedCall
  tasks : κ → CleanupCall

inductive CleaningLabel (ι κ : Type*)
  | request (i : ι) (input : SessionInput)
  | task (j : κ) (clock : Timestamp) (ids : List Token)

/-- The requests among the labels. -/
def CleaningLabel.request? : CleaningLabel ι κ → Option (ι × SessionInput)
  | request i input => some (i, input)
  | task _ _ _ => none

section System

variable [DecidableEq ι] [DecidableEq κ]

/-- A step of a request, or of a task; `table` says which table a task cleans. -/
def cleaningStep (p : Platform) (requests : ι → AccountRequest) (batch : Nat)
    (table : κ → TokenTable) (s : CleaningSystem ι κ) :
    CleaningLabel ι κ → Option (CleaningSystem ι κ)
  | .request i input =>
    (s.procs i).bind fun call =>
      (cleanedAct p requests i s.tables call input).map fun x =>
        { s with tables := x.1, procs := Function.update s.procs i x.2 }
  | .task j clock ids =>
    (deleteExpiredRows batch (table j) s.tables clock ids (s.tasks j)).map fun x =>
      { s with tables := x.1, tasks := Function.update s.tasks j x.2 }

end System

def cleaningInit (κ : Type*) (requests : ι → AccountRequest) (t : AuthTables) :
    CleaningSystem ι κ :=
  ⟨t, fun i => some (requests i).initial, fun _ => .start⟩

/-- A request that is over without having been let in. -/
def AccountCall.refused : AccountCall → Bool
  | failed _ | session (.failed _) | social (.failed _) => true
  | _ => false

/-- The hashes of a table are unique, and none is still to come. -/
structure AuthTables.UniqueHashes (t : AuthTables) : Prop where
  nodup : ∀ k, ((t.expiries k).map Prod.fst).Nodup
  new : ∀ k, ∀ x ∈ t.expiries k, x.1 < t.nextToken

variable {d : TokenTable → List Token}

/-! ### Writes and deletions -/

/-- The rows stay but for what is not their hash or expiry, and one row may be
new, which expires later. -/
inductive InsertsLater (now : Timestamp) (t t' : AuthTables) : Prop
  | none (hrows : ∀ k, t'.expiries k = t.expiries k) (hnext : t'.nextToken = t.nextToken)
  | one (k : TokenTable) (expires : Timestamp)
      (hrow : t'.expiries k = t.expiries k ++ [(t.nextToken, expires)])
      (hothers : ∀ k', k' ≠ k → t'.expiries k' = t.expiries k')
      (hnext : t'.nextToken = t.nextToken + 1) (hexpires : now ≤ expires)

/-- A write that does to what a deletion leaves what it does to all rows. -/
structure Commutes (now : Timestamp) (f : AuthTables → AuthTables) : Prop where
  without : ∀ t d, (∀ k, t.nextToken ∉ d k) → f (t.without d) = (f t).without d
  inserts : ∀ t, InsertsLater now t (f t)

theorem filter_map_of_token {α : Type*} (token : α → Token) {f : α → α}
    (hf : ∀ a, token (f a) = token a) (ids : List Token) (l : List α) :
    (l.filter fun a => token a ∉ ids).map f = (l.map f).filter fun a => token a ∉ ids := by
  rw [List.filter_map]
  congr 1
  apply List.filter_congr
  intro a _
  rw [Function.comp_apply, hf]

theorem filter_append_new {α : Type*} (token : α → Token) {ids : List Token} (l : List α) {new : α}
    (hnew : token new ∉ ids) :
    (l.filter fun a => token a ∉ ids) ++ [new] = (l ++ [new]).filter fun a => token a ∉ ids := by
  rw [List.filter_append]
  congr 1
  exact (List.filter_eq_self.mpr fun a ha => decide_eq_true (List.mem_singleton.mp ha ▸ hnew)).symm

/-- A row that is not deleted is found as before. -/
theorem find?_without {α : Type*} (token : α → Token) (ids : List Token) (l : List α) (x : Token) :
    (l.filter fun a => token a ∉ ids).find? (fun a => token a = x)
      = if x ∈ ids then none else l.find? fun a => token a = x := by
  split
  · rename_i hx
    rw [List.find?_eq_none]
    intro a ha heq
    have hmem := of_decide_eq_true (List.mem_filter.mp ha).2
    exact hmem (of_decide_eq_true heq ▸ hx)
  · rename_i hx
    rw [List.find?_filter]
    congr 1
    funext a
    by_cases hax : token a = x
    · simp [hax, hx]
    · simp [hax]

theorem le_add_lifetime {lifetime : Timestamp} (h : decide (0 ≤ lifetime) = true) :
    now ≤ now + lifetime :=
  Int.le_add_of_nonneg_right (of_decide_eq_true h)

namespace Commutes

theorem id : Commutes now fun t => t := ⟨fun _ _ _ => rfl, fun _ => .none (fun _ => rfl) rfl⟩

/-- A write that takes no token, after another one. -/
theorem comp {f g : AuthTables → AuthTables} (hf : Commutes now f) (hg : Commutes now g)
    (hnext : ∀ t, (g t).nextToken = t.nextToken) : Commutes now fun t => f (g t) where
  without t d hnew := by
    rw [hg.without t d hnew]
    exact hf.without (g t) d fun k => hnext t ▸ hnew k
  inserts t := by
    cases hg.inserts t with
    | none hrows _ =>
      cases hf.inserts (g t) with
      | none hrows' hnext' =>
        exact .none (fun k => (hrows' k).trans (hrows k)) (hnext'.trans (hnext t))
      | one k expires hrow hothers hnext' hexpires =>
        refine .one k expires ?_ (fun k' hk' => (hothers k' hk').trans (hrows k')) ?_ hexpires
        · rw [hrow, hrows, hnext]
        · rw [hnext', hnext]
    | one k expires hrow hothers hnext' _ =>
      rw [hnext t] at hnext'
      exact absurd hnext' (Nat.ne_of_lt (Nat.lt_succ_self _))

theorem saveAccount (i : UUID) (f : Account → Account) : Commutes now fun t => t.saveAccount i f :=
  ⟨fun _ _ _ => rfl, fun _ => .none (fun k => by cases k <;> rfl) rfl⟩

theorem markVerified (user : Account) : Commutes now fun t => t.markVerified user := by
  unfold AuthTables.markVerified
  split
  · exact id
  · exact saveAccount _ _

theorem addSocialAccount (x : SocialAccount) : Commutes now fun t => t.addSocialAccount x :=
  ⟨fun _ _ _ => rfl, fun _ => .none (fun k => by cases k <;> rfl) rfl⟩

/-- An UPDATE of a column of the refresh tokens. -/
theorem mapRefreshTokens {f : RefreshToken → RefreshToken}
    (hf : ∀ rt, (f rt).token = rt.token ∧ (f rt).expiresAt = rt.expiresAt) :
    Commutes now fun t => { t with refreshTokens := t.refreshTokens.map f } where
  without t d _ := by
    have := filter_map_of_token RefreshToken.token (fun rt => (hf rt).1) (d .refresh)
      t.refreshTokens
    unfold AuthTables.without
    dsimp only
    rw [this]
  inserts t := by
    refine .none (fun k => ?_) rfl
    cases k with
    | refresh =>
      show (t.refreshTokens.map f).map _ = t.refreshTokens.map _
      rw [List.map_map]
      apply List.map_congr_left
      intro rt _
      rw [Function.comp_apply, (hf rt).1, (hf rt).2]
    | oneTime k => cases k <;> rfl

theorem saveRevokedAt (token : Token) (now : Timestamp) :
    Commutes now fun t => t.saveRevokedAt token now :=
  mapRefreshTokens fun rt => by split <;> exact ⟨rfl, rfl⟩

theorem revokeWhere (q : RefreshToken → Bool) (now : Timestamp) :
    Commutes now fun t => t.revokeWhere q now :=
  mapRefreshTokens fun rt => by split <;> exact ⟨rfl, rfl⟩

theorem createRefreshToken (user : UUID) (now : Timestamp) :
    Commutes now fun t => t.createRefreshToken user now where
  without t d hnew := by
    unfold AuthTables.createRefreshToken AuthTables.without
    dsimp only
    rw [filter_append_new RefreshToken.token _ (hnew .refresh)]
  inserts t := by
    refine .one .refresh (now + refreshTokenLifetime) ?_ (fun k hk => ?_) rfl (le_add_lifetime rfl)
    · exact List.map_append
    · cases k with
      | refresh => exact absurd rfl hk
      | oneTime k => cases k <;> rfl

/-- An UPDATE keeps the hashes and the expiries of one-time tokens. -/
theorem map_expiry_map {f : OneTimeToken → OneTimeToken}
    (hf : ∀ r, (f r).token = r.token ∧ (f r).expiresAt = r.expiresAt) (l : List OneTimeToken) :
    (l.map f).map (fun r => (r.token, r.expiresAt)) = l.map fun r => (r.token, r.expiresAt) := by
  rw [List.map_map]
  apply List.map_congr_left
  intro r _
  rw [Function.comp_apply, (hf r).1, (hf r).2]

/-- An UPDATE of a column of the verification tokens. -/
theorem mapVerificationTokens {f : OneTimeToken → OneTimeToken}
    (hf : ∀ r, (f r).token = r.token ∧ (f r).expiresAt = r.expiresAt) :
    Commutes now fun t => { t with verificationTokens := t.verificationTokens.map f } where
  without t d _ := by
    have := filter_map_of_token (fun r : OneTimeToken => r.token) (fun r => (hf r).1)
      (d (.oneTime .verification)) t.verificationTokens
    unfold AuthTables.without
    dsimp only
    rw [this]
  inserts t := by
    refine .none (fun k' => ?_) rfl
    cases k' with
    | refresh => rfl
    | oneTime k' =>
      cases k' with
      | verification => exact map_expiry_map hf t.verificationTokens
      | _ => rfl

/-- An UPDATE of a column of the link requests. -/
theorem mapLinkRequests {f : SocialLinkRequest → SocialLinkRequest}
    (hf : ∀ r, (f r).token = r.token ∧ (f r).expiresAt = r.expiresAt) :
    Commutes now fun t => { t with linkRequests := t.linkRequests.map f } where
  without t d _ := by
    have := filter_map_of_token (fun r : SocialLinkRequest => r.token)
      (fun r => (hf r).1) (d (.oneTime .link)) t.linkRequests
    unfold AuthTables.without
    dsimp only
    rw [this]
  inserts t := by
    refine .none (fun k' => ?_) rfl
    cases k' with
    | refresh => rfl
    | oneTime k' =>
      cases k' with
      | link =>
        show ((t.linkRequests.map f).map _).map _ = (t.linkRequests.map _).map _
        rw [List.map_map, List.map_map, List.map_map]
        apply List.map_congr_left
        intro r _
        exact Prod.ext (hf r).1 (hf r).2
      | _ => rfl

theorem createVerificationToken (user : UUID) (now : Timestamp) :
    Commutes now fun t => t.createVerificationToken user now where
  without t d hnew := by
    unfold AuthTables.createVerificationToken AuthTables.without
    dsimp only
    rw [filter_append_new OneTimeToken.token _ (hnew (.oneTime .verification))]
  inserts t := by
    refine .one (.oneTime .verification) (now + emailVerificationLifetime) List.map_append
      (fun k hk => ?_) rfl (le_add_lifetime rfl)
    cases k with
    | refresh => rfl
    | oneTime k =>
      cases k with
      | verification => exact absurd rfl hk
      | _ => rfl

theorem createResetToken (user : UUID) (now : Timestamp) :
    Commutes now fun t => t.createResetToken user now where
  without t d hnew := by
    unfold AuthTables.createResetToken AuthTables.without
    dsimp only
    rw [filter_append_new OneTimeToken.token _ (hnew (.oneTime .reset))]
  inserts t := by
    refine .one (.oneTime .reset) (now + passwordResetLifetime) List.map_append
      (fun k hk => ?_) rfl (le_add_lifetime rfl)
    cases k with
    | refresh => rfl
    | oneTime k =>
      cases k with
      | reset => exact absurd rfl hk
      | _ => rfl

theorem createLinkRequest (user : UUID) (identity : ProviderIdentity) (now : Timestamp) :
    Commutes now fun t => t.createLinkRequest user identity now where
  without t d hnew := by
    unfold AuthTables.createLinkRequest AuthTables.without
    dsimp only
    rw [filter_append_new (fun r : SocialLinkRequest => r.token) _ (hnew (.oneTime .link))]
  inserts t := by
    refine .one (.oneTime .link) (now + socialLinkLifetime) ?_ (fun k hk => ?_) rfl
      (le_add_lifetime rfl)
    · show ((t.linkRequests ++ [_]).map _).map _ = _
      rw [List.map_append, List.map_append]
      rfl
    · cases k with
      | refresh => rfl
      | oneTime k =>
        cases k with
        | link => exact absurd rfl hk
        | _ => rfl

theorem invalidateVerificationTokens (user : UUID) (now : Timestamp) :
    Commutes now fun t => t.invalidateVerificationTokens user now :=
  mapVerificationTokens fun r => by split <;> exact ⟨rfl, rfl⟩

theorem invalidateLinkRequests (user : UUID) (now : Timestamp) :
    Commutes now fun t => t.invalidateLinkRequests user now :=
  mapLinkRequests fun r => by split <;> exact ⟨rfl, rfl⟩

end Commutes

/-! ### Deletions -/

theorem expiries_without (k : TokenTable) :
    (t.without d).expiries k = (t.expiries k).filter fun x => x.1 ∉ d k := by
  unfold AuthTables.expiries
  cases k with
  | refresh =>
    dsimp only
    rw [List.filter_map]
    rfl
  | oneTime k =>
    cases k with
    | link =>
      show ((t.linkRequests.filter _).map _).map _ = List.filter _ ((t.linkRequests.map _).map _)
      rw [List.map_map, List.map_map, List.filter_map]
      rfl
    | _ =>
      dsimp only
      rw [List.filter_map]
      rfl

theorem without_nil : t.without (fun _ => []) = t := by
  unfold AuthTables.without
  simp only [List.not_mem_nil, not_false_eq_true, decide_true, List.filter_true]

theorem without_without (e : TokenTable → List Token) :
    (t.without d).without e = t.without fun k => d k ++ e k := by
  have hfilter : ∀ {α : Type} (token : α → Token) (ids ids' : List Token) (l : List α),
      (l.filter fun a => token a ∉ ids).filter (fun a => token a ∉ ids')
        = l.filter fun a => token a ∉ ids ++ ids' := by
    intro α token ids ids' l
    rw [List.filter_filter]
    apply List.filter_congr
    intro a _
    rw [← Bool.decide_and]
    congr 1
    rw [List.mem_append, not_or, and_comm]
  unfold AuthTables.without
  dsimp only
  rw [hfilter RefreshToken.token, hfilter OneTimeToken.token, hfilter OneTimeToken.token,
    hfilter fun r : SocialLinkRequest => r.token]

theorem AuthTables.UniqueHashes.eq_of_fst (h : t.UniqueHashes) {k : TokenTable}
    {x y : Token × Timestamp} (hx : x ∈ t.expiries k) (hy : y ∈ t.expiries k) (heq : x.1 = y.1) :
    x = y :=
  List.inj_on_of_nodup_map (h.nodup k) hx hy heq

theorem InsertsLater.nextToken_le (h : InsertsLater now t t') : t.nextToken ≤ t'.nextToken := by
  cases h with
  | none _ hnext => exact le_of_eq hnext.symm
  | one _ _ _ _ hnext _ => exact hnext ▸ Nat.le_succ _

/-- A row after a write is one from before, or has the next token. -/
theorem InsertsLater.mem (h : InsertsLater now t t') {k : TokenTable} {x : Token × Timestamp}
    (hx : x ∈ t'.expiries k) : x ∈ t.expiries k ∨ x.1 = t.nextToken := by
  cases h with
  | none hrows _ => exact Or.inl (hrows k ▸ hx)
  | one k₁ expires hrow hothers _ _ =>
    by_cases hk : k = k₁
    · subst hk
      rw [hrow] at hx
      rcases List.mem_append.mp hx with hx | hx
      · exact Or.inl hx
      · exact Or.inr (congrArg Prod.fst (List.mem_singleton.mp hx))
    · exact Or.inl (hothers k hk ▸ hx)

theorem InsertsLater.uniqueHashes (h : InsertsLater now t t') (hu : t.UniqueHashes) :
    t'.UniqueHashes where
  nodup k := by
    cases h with
    | none hrows _ => exact hrows k ▸ hu.nodup k
    | one k₁ expires hrow hothers _ _ =>
      by_cases hk : k = k₁
      · subst hk
        rw [hrow, List.map_append, List.nodup_append']
        refine ⟨hu.nodup k, List.nodup_singleton _, fun token htoken hnew => ?_⟩
        obtain ⟨x, hx, rfl⟩ := List.mem_map.mp htoken
        have hlt := hu.new k x hx
        rw [List.mem_singleton.mp hnew] at hlt
        exact Nat.lt_irrefl _ hlt
      · exact hothers k hk ▸ hu.nodup k
  new k x hx := by
    rcases h.mem hx with hx' | heq
    · exact Nat.lt_of_lt_of_le (hu.new k x hx') h.nextToken_le
    · cases h with
      | none hrows _ =>
        exact absurd (heq ▸ hu.new k x (hrows k ▸ hx)) (Nat.lt_irrefl _)
      | one _ _ _ _ hnext _ =>
        rw [hnext, heq]
        exact Nat.lt_succ_self _

end Saasmint
