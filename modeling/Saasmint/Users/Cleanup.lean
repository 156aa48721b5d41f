/-
Saasmint/Users/Cleanup.lean

Runs of requests among the tasks that delete expired tokens.  The tasks refine
the system without them (`cleanup_refines`), and a task that is alone on its
table deletes all that had expired when it started (`cleanup_completes`).
-/
import Saasmint.Users.DeletedRows
import Saasmint.Users.Rotation

namespace Saasmint

variable {ι κ : Type*} {p : Platform} {t t' : AuthTables} {now : Timestamp}
  {d : TokenTable → List Token}

/-! ### The simulation -/

/-- The system among tasks stands for the one without them, where the rows in
`d` have been deleted. -/
structure StandsFor (table : κ → TokenTable) (s : CleaningSystem ι κ) (a : TableSystem ι)
    (d : TokenTable → List Token) : Prop where
  tables : s.tables = a.shared.without d
  procs : ∀ i, s.procs i = some (a.procs i) ∨ (s.procs i).all AccountCall.refused = true
  hashes : a.shared.UniqueHashes
  old : ∀ k, ∀ x ∈ d k, x < a.shared.nextToken
  /-- What is deleted had expired when some task started. -/
  expired : ∀ k, ∀ x ∈ a.shared.expiries k, x.1 ∈ d k →
    ∃ j now, table j = k ∧ (s.tasks j).startedAt = some now ∧ x.2 < now
  /-- And so has what a task is about to delete. -/
  found : ∀ j now ids total, s.tasks j = .deleting now ids total →
    (∀ id ∈ ids, id < a.shared.nextToken) ∧
      ∀ x ∈ a.shared.expiries (table j), x.1 ∈ ids → x.2 < now

section Simulation

variable {requests : ι → AccountRequest} {batch : Nat} {table : κ → TokenTable}
  {s s' : CleaningSystem ι κ} {a : TableSystem ι}

theorem standsFor_init (κ : Type*) (table : κ → TokenTable) (requests : ι → AccountRequest)
    (h : t.UniqueHashes) :
    StandsFor table (cleaningInit κ requests t) (tableInit requests t) fun _ => [] where
  tables := without_nil.symm
  procs _ := Or.inl rfl
  hashes := h
  old _ _ hx := by cases hx
  expired _ _ _ hx := by cases hx
  found _ _ _ _ h := by cases h

/-- A request of the system without tasks takes its step. -/
theorem StandsFor.insert [DecidableEq ι] (h : StandsFor table s a d) {i : ι} {t₁ : AuthTables}
    {κ' : AccountCall}
    (hins : InsertsLater now a.shared t₁) :
    StandsFor table { s with tables := t₁.without d, procs := Function.update s.procs i (some κ') }
      ⟨t₁, Function.update a.procs i κ'⟩ d where
  tables := rfl
  procs j := by
    dsimp only
    by_cases hj : j = i
    · subst hj
      rw [Function.update_self, Function.update_self]
      exact Or.inl rfl
    · rw [Function.update_of_ne hj, Function.update_of_ne hj]
      exact h.procs j
  hashes := hins.uniqueHashes h.hashes
  old k x hx := Nat.lt_of_lt_of_le (h.old k x hx) hins.nextToken_le
  expired k x hx hd := by
    rcases hins.mem hx with hx | heq
    · exact h.expired k x hx hd
    · exact absurd (heq ▸ h.old k x.1 hd) (Nat.lt_irrefl _)
  found j now ids total hj := by
    obtain ⟨hold, hexpired⟩ := h.found j now ids total hj
    refine ⟨fun id hid => Nat.lt_of_lt_of_le (hold id hid) hins.nextToken_le, fun x hx hid => ?_⟩
    rcases hins.mem hx with hx | heq
    · exact hexpired x hx hid
    · exact absurd (heq ▸ hold x.1 hid) (Nat.lt_irrefl _)

/-- A request that is refused leaves the tables; without tasks it waits. -/
theorem StandsFor.refuse [DecidableEq ι] (h : StandsFor table s a d) {i : ι} {call : CleanedCall}
    (hcall : call.all AccountCall.refused = true) :
    StandsFor table { s with procs := Function.update s.procs i call } a d where
  tables := h.tables
  procs j := by
    dsimp only
    by_cases hj : j = i
    · subst hj
      rw [Function.update_self]
      exact Or.inr hcall
    · rw [Function.update_of_ne hj]
      exact h.procs j
  hashes := h.hashes
  old := h.old
  expired := h.expired
  found := h.found

/-- A task that has not started, or has read its rows, goes on. -/
theorem StandsFor.task [DecidableEq κ] (h : StandsFor table s a d) {j : κ} {call : CleanupCall}
    (hnow : ∀ now, (s.tasks j).startedAt = some now → call.startedAt = some now)
    (hfound : ∀ now ids total, call = .deleting now ids total →
      (∀ id ∈ ids, id < a.shared.nextToken) ∧
        ∀ x ∈ a.shared.expiries (table j), x.1 ∈ ids → x.2 < now) :
    StandsFor table { s with tasks := Function.update s.tasks j call } a d where
  tables := h.tables
  procs := h.procs
  hashes := h.hashes
  old := h.old
  expired k x hx hd := by
    obtain ⟨j', now, htable, hstarted, hlt⟩ := h.expired k x hx hd
    refine ⟨j', now, htable, ?_, hlt⟩
    by_cases hj : j' = j
    · subst hj
      exact (congrArg _ (Function.update_self ..)).trans (hnow now hstarted)
    · exact (congrArg _ (Function.update_of_ne hj ..)).trans hstarted
  found j' now ids total hcall := by
    by_cases hj : j' = j
    · subst hj
      exact hfound now ids total ((Function.update_self ..).symm.trans hcall)
    · exact h.found j' now ids total ((Function.update_of_ne hj ..).symm.trans hcall)

/-- A task deletes the rows that it has read. -/
theorem StandsFor.delete (h : StandsFor table s a d) {j : κ} {now : Timestamp} {ids : List Token}
    {total : Nat} (hj : s.tasks j = .deleting now ids total) :
    StandsFor table { s with tables := s.tables.deleteRows (table j) ids } a
      (fun k => d k ++ Function.update (fun _ => []) (table j) ids k) where
  tables := by
    show s.tables.deleteRows (table j) ids = _
    rw [AuthTables.deleteRows, h.tables, without_without]
  procs := h.procs
  hashes := h.hashes
  old k x hx := by
    rcases List.mem_append.mp hx with hx | hx
    · exact h.old k x hx
    · by_cases hk : k = table j
      · subst hk
        rw [Function.update_self] at hx
        exact (h.found j now ids total hj).1 x hx
      · rw [Function.update_of_ne hk] at hx
        cases hx
  expired k x hx hd := by
    rcases List.mem_append.mp hd with hd | hd
    · exact h.expired k x hx hd
    · by_cases hk : k = table j
      · subst hk
        rw [Function.update_self] at hd
        exact ⟨j, now, rfl, by rw [hj]; rfl, (h.found j now ids total hj).2 x hx hd⟩
      · rw [Function.update_of_ne hk] at hd
        cases hd
  found := h.found

/-- What a SELECT of a task has read had expired, among all rows. -/
theorem StandsFor.batch_expired (h : StandsFor table s a d) {j : κ} {now : Timestamp}
    {ids : List Token} (hb : s.tables.Batch (table j) now batch ids) :
    (∀ id ∈ ids, id < a.shared.nextToken) ∧
      ∀ x ∈ a.shared.expiries (table j), x.1 ∈ ids → x.2 < now := by
  have hmem : ∀ id ∈ ids, ∃ y ∈ a.shared.expiries (table j), y.1 = id ∧ y.2 < now := by
    intro id hid
    obtain ⟨y, hy, rfl⟩ := List.mem_map.mp (hb.2.1 hid)
    obtain ⟨hy, hlt⟩ := List.mem_filter.mp hy
    rw [h.tables, expiries_without] at hy
    exact ⟨y, (List.mem_filter.mp hy).1, rfl, of_decide_eq_true hlt⟩
  constructor
  · intro id hid
    obtain ⟨y, hy, rfl, -⟩ := hmem id hid
    exact h.hashes.new _ y hy
  · intro x hx hid
    obtain ⟨y, hy, heq, hlt⟩ := hmem x.1 hid
    obtain rfl := h.hashes.eq_of_fst hy hx heq
    exact hlt

variable [DecidableEq ι] [DecidableEq κ]

/-- A step of a task is none without tasks. -/
theorem StandsFor.task_step (h : StandsFor table s a d) {j : κ} {clock : Timestamp}
    {ids : List Token}
    (hstep : cleaningStep p requests batch table s (.task j clock ids) = some s') :
    ∃ d', StandsFor table s' a d' := by
  obtain ⟨⟨t', call⟩, hcall, rfl⟩ := Option.map_eq_some_iff.mp hstep
  rcases hj : s.tasks j with - | ⟨now, total⟩ | ⟨now, found, total⟩ | ⟨now, total⟩
  · rw [hj] at hcall
    cases hcall
    refine ⟨d, h.task (fun now hnow => ?_) fun _ _ _ hκ => by cases hκ⟩
    rw [hj] at hnow
    cases hnow
  · rw [hj] at hcall
    obtain ⟨hbatch, heq⟩ := Option.ite_none_right_eq_some.mp hcall
    cases heq
    refine ⟨d, h.task (fun now' hnow => ?_) fun now' ids' total' hκ => ?_⟩
    · rw [hj] at hnow
      split
      · exact hnow
      · exact hnow
    · split at hκ
      · cases hκ
      · cases hκ
        exact h.batch_expired hbatch
  · rw [hj] at hcall
    cases hcall
    refine ⟨_, (h.delete hj).task (fun now' hnow => ?_) fun now' ids' total' hκ => ?_⟩
    · rw [hj] at hnow
      split
      · exact hnow
      · exact hnow
    · split at hκ
      · cases hκ
      · cases hκ
  · rw [hj] at hcall
    cases hcall

/-- A step of a request is the same one without tasks, or a refusal. -/
theorem StandsFor.request_step (h : StandsFor table s a d) {i : ι} {input : SessionInput}
    (hstep : cleaningStep p requests batch table s (.request i input) = some s') :
    StandsFor table s' a d ∨
      ∃ a', Interleaving.step (tableAct p requests) a (i, input) = some a' ∧
        StandsFor table s' a' d := by
  obtain ⟨call, hproc, hstep⟩ := Option.bind_eq_some_iff.mp hstep
  obtain ⟨⟨t', call'⟩, hact, rfl⟩ := Option.map_eq_some_iff.mp hstep
  unfold cleanedAct at hact
  split at hact
  · -- the row that it saves is gone
    cases hact
    exact Or.inl (h.refuse rfl)
  obtain ⟨⟨t', κ'⟩, hplain', heq⟩ := Option.map_eq_some_iff.mp hact
  cases heq
  rcases h.procs i with hsame | hrefused
  · obtain rfl := Option.some.inj (hproc.symm.trans hsame)
    have hnew : ∀ k, a.shared.nextToken ∉ d k :=
      fun k hmem => Nat.lt_irrefl _ (h.old k _ hmem)
    rw [h.tables] at hplain'
    rcases matched_tableAct i p requests (a.procs i) input hnew t' κ' hplain' with
      ⟨rfl, hκ'⟩ | ⟨t₁, hplain, rfl, hins⟩
    · rw [← h.tables]
      exact Or.inl (h.refuse hκ')
    · refine Or.inr ⟨⟨t₁, Function.update a.procs i κ'⟩, ?_, h.insert hins⟩
      show (tableAct p requests i a.shared (a.procs i) input).map _ = _
      rw [hplain]
      rfl
  · rw [hproc] at hrefused
    rw [tableAct_refused hrefused] at hplain'
    cases hplain'

/-- **The tasks refine the system without them.**  Whatever tasks run among the
requests, some of the steps of the requests lead without tasks to the same
tables, but for rows that had expired when a task of their table started, and
every request is where it is without tasks, or has been refused. -/
theorem cleanup_refines (h : t.UniqueHashes) {ls : List (CleaningLabel ι κ)}
    (hrun : Runs.run (cleaningStep p requests batch table) (cleaningInit κ requests t)
      ls = some s) :
    ∃ ls' a d, ls'.Sublist (ls.filterMap CleaningLabel.request?) ∧
      Runs.run (Interleaving.step (tableAct p requests)) (tableInit requests t) ls' = some a ∧
      s.tables = a.shared.without d ∧
      (∀ i, s.procs i = some (a.procs i) ∨ (s.procs i).all AccountCall.refused = true) ∧
      ∀ k, ∀ x ∈ a.shared.expiries k, x.1 ∈ d k →
        ∃ j now, table j = k ∧ (s.tasks j).startedAt = some now ∧ x.2 < now := by
  have hsim : ∀ s l s' (a : TableSystem ι), (∃ d, StandsFor table s a d) →
      cleaningStep p requests batch table s l = some s' →
      (∃ d, StandsFor table s' a d) ∨
        ∃ b a', l.request? = some b ∧ Interleaving.step (tableAct p requests) a b = some a' ∧
          ∃ d, StandsFor table s' a' d := by
    rintro s l s' a ⟨d, hs⟩ hstep
    cases l with
    | request i input =>
      rcases hs.request_step hstep with hs' | ⟨a', ha', hs'⟩
      · exact Or.inl ⟨d, hs'⟩
      · exact Or.inr ⟨_, a', rfl, ha', d, hs'⟩
    | task j clock ids => exact Or.inl (hs.task_step hstep)
  obtain ⟨ls', a, hsub, hrun', d, hs⟩ :=
    Runs.exists_run_of_simulation hsim ⟨_, standsFor_init κ table requests h⟩ hrun
  exact ⟨ls', a, d, hsub, hrun', hs.tables, hs.procs, hs.expired⟩

end Simulation

/-! ### A task alone on its table -/

section Alone

variable {requests : ι → AccountRequest} {batch : Nat} {table : κ → TokenTable}
  {s s' : CleaningSystem ι κ} {k : TokenTable} {clock : Timestamp} {ids : List Token}

/-- A statement of a request inserts what expires later, or nothing. -/
theorem cleanedAct_inserts {i : ι} {call : AccountCall} {call' : CleanedCall}
    {input : SessionInput} (h : cleanedAct p requests i t call input = some (t', call')) :
    InsertsLater input.now t t' := by
  unfold cleanedAct at h
  split at h
  · cases h
    exact .none (fun _ => rfl) rfl
  obtain ⟨⟨t₁, κ'⟩, hact, heq⟩ := Option.map_eq_some_iff.mp h
  cases heq
  have hmatched :=
    matched_tableAct (t := t) (d := fun _ => []) i p requests call input fun _ => nofun
  rw [without_nil] at hmatched
  rcases hmatched _ _ hact with ⟨ht', -⟩ | ⟨t₁, -, ht', hins⟩
  · rw [without_nil] at ht'
    subst ht'
    exact .none (fun _ => rfl) rfl
  · rw [without_nil] at ht'
    subst ht'
    exact hins

/-- What is inserted after a time has not expired by then. -/
theorem InsertsLater.expired_eq (h : InsertsLater now t t') (hclock : clock ≤ now) :
    t'.expired k clock = t.expired k clock := by
  unfold AuthTables.expired
  cases h with
  | none hrows _ => rw [hrows]
  | one k₁ expires hrow hothers _ hexpires =>
    by_cases hk : k = k₁
    · subst hk
      rw [hrow, List.filter_append]
      have hnew : [(t.nextToken, expires)].filter (fun x => x.2 < clock) = [] := by
        rw [List.filter_eq_nil_iff]
        intro x hx hlt
        rw [List.mem_singleton.mp hx] at hlt
        exact absurd (of_decide_eq_true hlt) (not_lt.mpr (hclock.trans hexpires))
      rw [hnew, List.append_nil]
    · rw [hothers k hk]

theorem InsertsLater.kept (h : InsertsLater now t t') {x : Token × Timestamp}
    (hx : x ∈ t.expiries k) :
    x ∈ t'.expiries k := by
  cases h with
  | none hrows _ => exact hrows k ▸ hx
  | one k₁ expires hrow hothers _ _ =>
    by_cases hk : k = k₁
    · subst hk
      rw [hrow]
      exact List.mem_append_left _ hx
    · exact hothers k hk ▸ hx

theorem expiries_deleteRows_self :
    (t.deleteRows k ids).expiries k = (t.expiries k).filter fun x => x.1 ∉ ids := by
  rw [AuthTables.deleteRows, expiries_without, Function.update_self]

theorem expiries_deleteRows_of_ne {k' : TokenTable} (hk : k' ≠ k) :
    (t.deleteRows k ids).expiries k' = t.expiries k' := by
  rw [AuthTables.deleteRows, expiries_without, Function.update_of_ne hk]
  simp only [List.not_mem_nil, not_false_eq_true, decide_true, List.filter_true]

theorem AuthTables.UniqueHashes.deleteRows (h : t.UniqueHashes) :
    (t.deleteRows k ids).UniqueHashes where
  nodup k' := by
    rw [AuthTables.deleteRows, expiries_without]
    exact (h.nodup k').sublist (List.filter_sublist.map _)
  new k' x hx := by
    rw [AuthTables.deleteRows, expiries_without] at hx
    exact h.new k' x (List.mem_filter.mp hx).1

theorem expired_deleteRows_self :
    (t.deleteRows k ids).expired k clock = (t.expired k clock).filter fun id => id ∉ ids := by
  unfold AuthTables.expired
  rw [expiries_deleteRows_self, List.filter_map, List.filter_filter, List.filter_filter]
  congr 1
  apply List.filter_congr
  intro x _
  rw [Function.comp_apply, Bool.and_comm]

theorem AuthTables.UniqueHashes.nodup_expired (h : t.UniqueHashes) : (t.expired k clock).Nodup :=
  (h.nodup k).sublist (List.filter_sublist.map _)

/-- The rows of a batch are all there, so as many are deleted. -/
theorem AuthTables.UniqueHashes.deleted (h : t.UniqueHashes) (hids : ids.Nodup)
    (hsub : ids ⊆ t.expired k clock) :
    (t.expiries k).countP (fun x => x.1 ∈ ids) = ids.length ∧
      ((t.deleteRows k ids).expired k clock).length + ids.length = (t.expired k clock).length := by
  have hcount : ∀ l : List Token, l.Nodup → ids ⊆ l → l.countP (· ∈ ids) = ids.length := by
    intro l hl hsub
    rw [List.countP_eq_length_filter]
    apply List.Perm.length_eq
    rw [List.perm_ext_iff_of_nodup (hl.filter _) hids]
    intro id
    rw [List.mem_filter, decide_eq_true_iff]
    exact ⟨fun hid => hid.2, fun hid => ⟨hsub hid, hid⟩⟩
  have hfirsts : ids ⊆ (t.expiries k).map Prod.fst := fun id hid => by
    obtain ⟨x, hx, rfl⟩ := List.mem_map.mp (hsub hid)
    exact List.mem_map_of_mem (List.mem_filter.mp hx).1
  constructor
  · have := hcount _ (h.nodup k) hfirsts
    rwa [List.countP_map] at this
  · have hrest : (t.expired k clock).countP (· ∈ ids)
        + ((t.expired k clock).filter fun id => id ∉ ids).length = (t.expired k clock).length := by
      rw [← List.countP_eq_length_filter]
      have := List.length_eq_countP_add_countP (l := t.expired k clock) (p := (· ∈ ids))
      simpa using this.symm
    rw [expired_deleteRows_self, ← hcount _ h.nodup_expired hsub]
    omega

/-- How far a task of a table is that `initial` rows had expired in when it
started, after `steps` statements. -/
inductive TaskProgress (batch : Nat) (t : AuthTables) (k : TokenTable) (clock : Timestamp)
    (initial steps : Nat) : CleanupCall → Prop
  | selecting (rounds : Nat) (hrest : batch * rounds + (t.expired k clock).length = initial)
      (hsteps : steps = 2 * rounds) :
      TaskProgress batch t k clock initial steps (.selecting clock (batch * rounds))
  | deleting (rounds : Nat) (ids : List Token) (hids : t.Batch k clock batch ids)
      (hrest : batch * rounds + (t.expired k clock).length = initial)
      (hsteps : steps = 2 * rounds + 1) :
      TaskProgress batch t k clock initial steps (.deleting clock ids (batch * rounds))
  | done (hrest : t.expired k clock = []) (hsteps : steps ≤ 2 * (initial / batch) + 2) :
      TaskProgress batch t k clock initial steps (.done clock initial)

variable {initial steps : Nat} {call call' : CleanupCall}

/-- A write that leaves the expired rows of the table leaves the task where it
is. -/
theorem TaskProgress.of_expired_eq (h : TaskProgress batch t k clock initial steps call)
    (heq : t'.expired k clock = t.expired k clock) :
    TaskProgress batch t' k clock initial steps call := by
  cases h with
  | selecting rounds hrest hsteps => exact .selecting rounds (heq ▸ hrest) hsteps
  | deleting rounds ids hids hrest hsteps =>
    refine .deleting rounds ids ?_ (heq ▸ hrest) hsteps
    unfold AuthTables.Batch
    rw [heq]
    exact hids
  | done hrest hsteps => exact .done (heq ▸ hrest) hsteps

theorem rounds_le (hbatch : 0 < batch) {rounds : Nat} (h : batch * rounds ≤ initial) :
    2 * rounds ≤ 2 * (initial / batch) :=
  Nat.mul_le_mul_left 2 ((Nat.le_div_iff_mul_le hbatch).mpr (by rw [Nat.mul_comm]; exact h))

/-- A statement of the task itself. -/
theorem TaskProgress.step (hbatch : 0 < batch) (hu : t.UniqueHashes)
    (h : TaskProgress batch t k clock initial steps call) {now : Timestamp}
    (hact : deleteExpiredRows batch k t now ids call = some (t', call')) :
    TaskProgress batch t' k clock initial (steps + 1) call' := by
  cases h with
  | selecting rounds hrest hsteps =>
    obtain ⟨hids, heq⟩ := Option.ite_none_right_eq_some.mp hact
    cases heq
    split
    · -- no row is left
      rename_i hnil
      have hlen := hids.2.2
      rw [hnil, List.length_nil] at hlen
      have hzero : (t.expired k clock).length = 0 := by omega
      rw [hzero, Nat.add_zero] at hrest
      rw [hrest]
      have := rounds_le hbatch (le_of_eq hrest)
      exact .done (List.eq_nil_of_length_eq_zero hzero) (by omega)
    · exact .deleting rounds ids hids hrest (by omega)
  | deleting rounds found hids hrest hsteps =>
    cases hact
    obtain ⟨hdeleted, hleft⟩ := hu.deleted hids.1 hids.2.1
    have hlen := hids.2.2
    rw [hdeleted]
    split
    · -- a batch that is not full is all there is
      have hzero : ((t.deleteRows k found).expired k clock).length = 0 := by omega
      have hall : batch * rounds + found.length = initial := by omega
      rw [hall]
      have hle : batch * rounds ≤ initial := by omega
      have := rounds_le hbatch hle
      exact .done (List.eq_nil_of_length_eq_zero hzero) (by omega)
    · have hfull : found.length = batch := by omega
      rw [hfull, ← Nat.mul_succ]
      refine .selecting (rounds + 1) ?_ (by omega)
      rw [Nat.mul_succ]
      omega
  | done hrest hsteps => cases hact

/-- A task changes its own table only. -/
theorem deleteExpiredRows_tables {call call' : CleanupCall}
    (h : deleteExpiredRows batch k t now ids call = some (t', call')) :
    t' = t ∨ ∃ found, t' = t.deleteRows k found := by
  cases call with
  | start =>
    cases h
    exact Or.inl rfl
  | selecting now total =>
    obtain ⟨-, heq⟩ := Option.ite_none_right_eq_some.mp h
    cases heq
    exact Or.inl rfl
  | deleting now found total =>
    cases h
    exact Or.inr ⟨found, rfl⟩
  | done now total => cases h

/-- A row that has not expired is in no batch. -/
theorem AuthTables.UniqueHashes.not_mem_batch (h : t.UniqueHashes)
    (hsub : ids ⊆ t.expired k clock) {x : Token × Timestamp} (hx : x ∈ t.expiries k)
    (hlive : clock ≤ x.2) : x.1 ∉ ids := by
  intro hid
  obtain ⟨y, hy, heq⟩ := List.mem_map.mp (hsub hid)
  obtain ⟨hy, hlt⟩ := List.mem_filter.mp hy
  obtain rfl := h.eq_of_fst hy hx heq
  exact absurd (of_decide_eq_true hlt) (not_lt.mpr hlive)

theorem TaskProgress.keeps (hu : t.UniqueHashes)
    (h : TaskProgress batch t k clock initial steps call)
    (hact : deleteExpiredRows batch k t now ids call = some (t', call')) {x : Token × Timestamp}
    (hx : x ∈ t.expiries k) (hlive : clock ≤ x.2) : x ∈ t'.expiries k := by
  cases h with
  | selecting rounds hrest hsteps =>
    obtain ⟨-, heq⟩ := Option.ite_none_right_eq_some.mp hact
    cases heq
    exact hx
  | deleting rounds found hids hrest hsteps =>
    cases hact
    rw [expiries_deleteRows_self, List.mem_filter]
    exact ⟨hx, decide_eq_true (hu.not_mem_batch hids.2.1 hx hlive)⟩
  | done hrest hsteps => cases hact

/-- The next statement of a task that is not over. -/
theorem TaskProgress.enabled (hu : t.UniqueHashes)
    (h : TaskProgress batch t k clock initial steps call) (now : Timestamp) :
    call = .done clock initial ∧ t.expired k clock = [] ∨
      ∃ ids x, deleteExpiredRows batch k t now ids call = some x := by
  cases h with
  | selecting rounds hrest hsteps =>
    have hbatch : t.Batch k clock batch ((t.expired k clock).take batch) :=
      ⟨hu.nodup_expired.sublist (List.take_sublist _ _), List.take_subset _ _, List.length_take⟩
    exact Or.inr ⟨_, _, if_pos hbatch⟩
  | deleting rounds found hids hrest hsteps => exact Or.inr ⟨[], _, rfl⟩
  | done hrest hsteps => exact Or.inl ⟨rfl, hrest⟩

theorem TaskProgress.steps_le (hbatch : 0 < batch)
    (h : TaskProgress batch t k clock initial steps call) : steps ≤ 2 * (initial / batch) + 2 := by
  cases h with
  | selecting rounds hrest hsteps =>
    have hle : batch * rounds ≤ initial := by omega
    have := rounds_le hbatch hle
    omega
  | deleting rounds found hids hrest hsteps =>
    have hle : batch * rounds ≤ initial := by omega
    have := rounds_le hbatch hle
    omega
  | done hrest hsteps => exact hsteps

/-- The statement is of the task `j`. -/
def CleaningLabel.isTask [DecidableEq κ] (j : κ) : CleaningLabel ι κ → Bool
  | task j' _ _ => j' = j
  | request _ _ => false

/-- No other task is on the table of `j`, and the clock does not go back. -/
def CleaningLabel.LeavesAlone (table : κ → TokenTable) (j : κ) (clock : Timestamp) :
    CleaningLabel ι κ → Prop
  | task j' _ _ => j' ≠ j → table j' ≠ table j
  | request _ input => clock ≤ input.now

variable [DecidableEq ι] [DecidableEq κ] {j : κ}

/-- A step of the system among which the task is alone on its table. -/
theorem TaskProgress.system_step (hbatch : 0 < batch) (hu : s.tables.UniqueHashes)
    (h : TaskProgress batch s.tables (table j) clock initial steps (s.tasks j))
    {l : CleaningLabel ι κ} (hl : l.LeavesAlone table j clock)
    (hstep : cleaningStep p requests batch table s l = some s') :
    s'.tables.UniqueHashes ∧
      TaskProgress batch s'.tables (table j) clock initial (steps + if l.isTask j then 1 else 0)
        (s'.tasks j) ∧
      ∀ x ∈ s.tables.expiries (table j), clock ≤ x.2 → x ∈ s'.tables.expiries (table j) := by
  cases l with
  | request i input =>
    obtain ⟨call, -, hstep⟩ := Option.bind_eq_some_iff.mp hstep
    obtain ⟨⟨t', call'⟩, hact, rfl⟩ := Option.map_eq_some_iff.mp hstep
    have hins := cleanedAct_inserts hact
    exact ⟨hins.uniqueHashes hu, h.of_expired_eq (hins.expired_eq hl), fun x hx _ => hins.kept hx⟩
  | task j' now ids =>
    obtain ⟨⟨t', call'⟩, hact, rfl⟩ := Option.map_eq_some_iff.mp hstep
    have hu' : t'.UniqueHashes := by
      rcases deleteExpiredRows_tables hact with rfl | ⟨found, rfl⟩
      · exact hu
      · exact hu.deleteRows
    refine ⟨hu', ?_⟩
    by_cases hj : j' = j
    · subst hj
      refine ⟨?_, fun x hx hlive => h.keeps hu hact hx hlive⟩
      show TaskProgress batch t' _ _ _ (steps + if decide (j' = j') = true then 1 else 0)
        (Function.update s.tasks j' call' j')
      rw [Function.update_self, if_pos (decide_eq_true rfl)]
      exact h.step hbatch hu hact
    · have hrows : t'.expiries (table j) = s.tables.expiries (table j) := by
        rcases deleteExpiredRows_tables hact with rfl | ⟨found, rfl⟩
        · rfl
        · exact expiries_deleteRows_of_ne (Ne.symm (hl hj))
      refine ⟨?_, fun x hx _ => hrows.symm ▸ hx⟩
      show TaskProgress batch t' _ _ _ (steps + if decide (j' = j) = true then 1 else 0)
        (Function.update s.tasks j' call' j)
      rw [Function.update_of_ne (Ne.symm hj), if_neg (by simpa using hj)]
      apply h.of_expired_eq
      unfold AuthTables.expired
      rw [hrows]

theorem progress_run (hbatch : 0 < batch) {ls : List (CleaningLabel ι κ)}
    (hu : s.tables.UniqueHashes)
    (h : TaskProgress batch s.tables (table j) clock initial steps (s.tasks j))
    (hls : ∀ l ∈ ls, l.LeavesAlone table j clock)
    (hrun : Runs.run (cleaningStep p requests batch table) s ls = some s') :
    s'.tables.UniqueHashes ∧
      TaskProgress batch s'.tables (table j) clock initial
      (steps + ls.countP (CleaningLabel.isTask j))
        (s'.tasks j) ∧
      ∀ x ∈ s.tables.expiries (table j), clock ≤ x.2 → x ∈ s'.tables.expiries (table j) := by
  induction ls generalizing s steps with
  | nil =>
    obtain rfl := Option.some.inj hrun
    exact ⟨hu, h, fun x hx _ => hx⟩
  | cons l ls ih =>
    rw [Runs.run_cons] at hrun
    obtain ⟨s₁, hstep, hrun⟩ := Option.bind_eq_some_iff.mp hrun
    obtain ⟨hu₁, h₁, hkept₁⟩ := h.system_step hbatch hu (hls l (List.mem_cons_self ..)) hstep
    obtain ⟨hu', h', hkept⟩ := ih hu₁ h₁ (fun l' hl' => hls l' (List.mem_cons_of_mem _ hl')) hrun
    refine ⟨hu', ?_, fun x hx hlive => hkept x (hkept₁ x hx hlive) hlive⟩
    rw [List.countP_cons, Nat.add_comm (ls.countP _), ← Nat.add_assoc]
    exact h'

/-- **A task alone on its table** is over after two statements for each batch of
rows that had expired when it started, and two more; until then it can go on.
When it is over those rows are gone, it has counted them, and the others are
there, those as well that were inserted meanwhile, whatever requests ran in between. -/
theorem cleanup_completes (hbatch : 0 < batch) (hu : s.tables.UniqueHashes)
    (hstart : s.tasks j = .start) {ls : List (CleaningLabel ι κ)}
    (hls : ∀ l ∈ ls, l.LeavesAlone table j clock)
    (hrun : Runs.run (cleaningStep p requests batch table) s (.task j clock ids :: ls) = some s') :
    ls.countP (CleaningLabel.isTask j)
        ≤ 2 * ((s.tables.expired (table j) clock).length / batch) + 2 ∧
      (∀ before after m, ls = before ++ after →
        Runs.run (cleaningStep p requests batch table) s (.task j clock ids :: before) = some m →
        ∀ x ∈ m.tables.expiries (table j), clock ≤ x.2 → x ∈ s'.tables.expiries (table j)) ∧
      (s'.tasks j = .done clock (s.tables.expired (table j) clock).length ∧
          s'.tables.expired (table j) clock = [] ∨
        ∃ now ids s'', cleaningStep p requests batch table s' (.task j now ids) = some s'') := by
  rw [Runs.run_cons] at hrun
  obtain ⟨s₁, hstep, hrun⟩ := Option.bind_eq_some_iff.mp hrun
  have hinit : s₁.tables.UniqueHashes ∧ TaskProgress batch s₁.tables (table j) clock
      (s.tables.expired (table j) clock).length 0 (s₁.tasks j) := by
    obtain ⟨⟨t₁, call⟩, hact, rfl⟩ := Option.map_eq_some_iff.mp hstep
    rw [hstart] at hact
    cases hact
    refine ⟨hu, ?_⟩
    dsimp only
    rw [Function.update_self]
    exact .selecting 0 (Nat.zero_add _) rfl
  obtain ⟨hu', h, -⟩ := progress_run hbatch hinit.1 hinit.2 hls hrun
  rw [Nat.zero_add] at h
  refine ⟨h.steps_le hbatch, ?_, ?_⟩
  · -- from any state of the run on
    intro before after m hsplit hbefore
    rw [Runs.run_cons, hstep, Option.bind_some] at hbefore
    rw [hsplit, Runs.run_append, hbefore, Option.bind_some] at hrun
    rw [hsplit] at hls
    obtain ⟨hum, hm, -⟩ := progress_run hbatch hinit.1 hinit.2
      (fun l hl => hls l (List.mem_append_left _ hl)) hbefore
    exact (progress_run hbatch hum hm (fun l hl => hls l (List.mem_append_right _ hl)) hrun).2.2
  · rcases h.enabled hu' clock with ⟨hdone, hrest⟩ | ⟨ids, x, hx⟩
    · exact Or.inl ⟨hdone, hrest⟩
    · exact Or.inr ⟨clock, ids, _, congrArg (Option.map _) hx⟩

end Alone

/-! ### A token that was rotated -/

/-- The tables long after a login and a rotation: the token of the login is
revoked, and has expired. -/
def rotatedLongAgo : AuthTables :=
  { oneLogin with
    refreshTokens := [⟨0, 1, 50, some 40⟩, ⟨1, 1, 1000, none⟩]
    nextToken := 2 }

theorem rotatedLongAgo_uniqueHashes : rotatedLongAgo.UniqueHashes := by
  constructor
  · intro k
    rcases k with - | k
    · decide
    · cases k <;> decide
  · intro k
    rcases k with - | k
    · decide
    · cases k <;> decide

/-- A task cleans the refresh tokens in batches of one, and then the token of the
login is presented once more. -/
def reuseAfterCleanup : List (CleaningLabel Unit Unit) :=
  [.task () 100 [], .task () 100 [0], .task () 100 [], .task () 100 [], .request () ⟨110, none⟩]

/-- Where the run ends. -/
def afterReuse : CleaningSystem Unit Unit :=
  ((Runs.run (cleaningStep wordPlatform (fun _ => .refresh 0) 1 fun _ => .refresh)
    (cleaningInit Unit (fun _ => .refresh 0) rotatedLongAgo) reuseAfterCleanup)).get (by decide)

theorem reuseAfterCleanup_run :
    Runs.run (cleaningStep wordPlatform (fun _ => .refresh 0) 1 fun _ => .refresh)
      (cleaningInit Unit (fun _ => .refresh 0) rotatedLongAgo) reuseAfterCleanup
      = some afterReuse := (Option.some_get _).symm

theorem cleanup_refines_reuse :
    ∃ ls' a d, ls'.Sublist (reuseAfterCleanup.filterMap CleaningLabel.request?) ∧
      Runs.run (Interleaving.step (tableAct wordPlatform fun _ : Unit => .refresh 0))
        (tableInit (fun _ => .refresh 0) rotatedLongAgo) ls' = some a ∧
      afterReuse.tables = a.shared.without d ∧
      (∀ i, afterReuse.procs i = some (a.procs i) ∨
        (afterReuse.procs i).all AccountCall.refused = true) ∧
      ∀ k, ∀ x ∈ a.shared.expiries k, x.1 ∈ d k →
        ∃ j now, .refresh = k ∧ (afterReuse.tasks j).startedAt = some now ∧ x.2 < now :=
  cleanup_refines rotatedLongAgo_uniqueHashes reuseAfterCleanup_run

theorem cleanup_completes_reuse :
    (reuseAfterCleanup.tail.countP (CleaningLabel.isTask ()))
        ≤ 2 * ((rotatedLongAgo.expired .refresh 100).length / 1) + 2 ∧
      (∀ before after m, reuseAfterCleanup.tail = before ++ after →
        Runs.run (cleaningStep wordPlatform (fun _ => .refresh 0) 1 fun _ => .refresh)
          (cleaningInit Unit (fun _ => .refresh 0) rotatedLongAgo)
          (.task () 100 [] :: before) = some m →
        ∀ x ∈ m.tables.expiries .refresh, 100 ≤ x.2 → x ∈ afterReuse.tables.expiries .refresh) ∧
      (afterReuse.tasks () = .done 100 (rotatedLongAgo.expired .refresh 100).length ∧
          afterReuse.tables.expired .refresh 100 = [] ∨
        ∃ now ids s'', cleaningStep wordPlatform (fun _ => .refresh 0) 1 (fun _ => .refresh)
          afterReuse (.task () now ids) = some s'') :=
  cleanup_completes (j := ()) Nat.one_pos rotatedLongAgo_uniqueHashes rfl
    (by
      intro l hl
      simp only [List.mem_cons, List.not_mem_nil, or_false] at hl
      rcases hl with rfl | rfl | rfl | rfl
      · exact fun h => absurd rfl h
      · exact fun h => absurd rfl h
      · exact fun h => absurd rfl h
      · show (100 : Timestamp) ≤ 110
        decide)
    reuseAfterCleanup_run

/-- Without the task the reuse of the token ends the session of its successor. -/
example :
    afterReuse.procs () = some (.session (.failed .invalidToken)) ∧
    (Runs.run (Interleaving.step (tableAct wordPlatform fun _ : Unit => .refresh 0))
      (tableInit (fun _ => .refresh 0) rotatedLongAgo)
      [((), ⟨110, none⟩), ((), ⟨111, none⟩)]).map (fun a =>
        (a.procs (), a.shared.refreshTokens.map RefreshToken.revokedAt))
      = some (.session (.failed .tokenRevoked), [some 40, some 111]) := by
  decide

end Saasmint
