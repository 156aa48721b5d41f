/-
Saasmint/Billing/FirstSync.lean

Concurrent first syncs of one Stripe subscription: the tasks of its created and
updated events, and the eager sync of the team checkout callback
(saasmint_core/services/webhooks.py, apps/orgs/services.py), under the retry
policy of `process_stripe_webhook` (apps/billing/tasks.py).

A sync looks the row up, builds it, under a key of its own where there is none,
and saves it.  The unique constraint on the Stripe id lets one insert through.
The others raise an `IntegrityError`, which the task does not retry.  So after
every interleaving there is exactly one row, and no event has failed exactly
when each insert found no row (`first_syncs_succeed_iff`).
-/
import Saasmint.Billing.Delivery
import Saasmint.Lib.Interleaving

namespace Saasmint

open PyStr

variable (u : UnicodeTables)

/-! ### The task -/

/-- The exceptions that a run of the task can end in. -/
inductive TaskError
  | handler (e : WebhookError)
  | stripeError | connectionError | operationalError
  deriving DecidableEq, Repr

/-- The exceptions that `process_stripe_webhook` retries. -/
def TaskError.isRetried : TaskError → Bool
  | handler _ => false
  | stripeError | connectionError | operationalError => true

/-- `max_retries`. -/
def maxRetries : Nat := 3

/-- Where the task of a sync is, after some number of retries. -/
inductive TaskState
  | waiting (retries : Nat)
  | built (row : Subscription) (retries : Nat)
  | processed
  | failed (e : TaskError)
  deriving DecidableEq, Repr

/-- A run of the task has raised: it is retried, or its event has failed. -/
def TaskState.afterError (retries : Nat) (e : TaskError) : TaskState :=
  if e.isRetried && retries < maxRetries then .waiting (retries + 1) else .failed e

def TaskState.settled : TaskState → Bool
  | processed | failed _ => true
  | _ => false

inductive TaskStep
  /-- The lookups, and the row built from them with `uuid` where there is none. -/
  | lookup (uuid : UUID) (now : Timestamp)
  | save (now : Timestamp)
  deriving DecidableEq, Repr

variable {u} {db : BillingDb} {sid : String}

/-- A sync of the subscription `sid`, with the version that its event or
`Subscription.retrieve` carries. -/
inductive SyncTask (u : UnicodeTables) (db : BillingDb) (sid : String)
  | subscriptionCreated (v : Version u db sid)
  | subscriptionUpdated (v : Version u db sid)
  /-- `_persist_team_subscription`. -/
  | teamCheckout (v : Version u db sid)

def SyncTask.version : SyncTask u db sid → Version u db sid
  | subscriptionCreated v | subscriptionUpdated v | teamCheckout v => v

/-- The database, and the keys that `uuid4` has given out. -/
structure SyncShared where
  db : BillingDb
  minted : List UUID

variable {ι : Type*}

/-- A step of a sync. -/
def syncAct (syncs : ι → SyncTask u db sid) (i : ι) (σ : SyncShared) :
    TaskState → TaskStep → Option (SyncShared × TaskState)
  | .waiting retries, .lookup uuid now =>
    if uuid ∈ σ.minted ∨ uuid ∈ σ.db.subscriptions.rows.map Subscription.id then none
    else
      let existing := σ.db.subscriptions.getByStripeId sid
      match syncRow u σ.db now (syncs i).version.data existing with
      | .error e => some (σ, .afterError retries (.handler e))
      | .ok row =>
        some ({ σ with minted := uuid :: σ.minted },
          .built { row with id := (existing.map Subscription.id).getD uuid } retries)
  | .built row retries, .save now =>
    match σ.db.saveSubscription now row with
    | .error e => some (σ, .afterError retries (.handler e))
    | .ok db' => some ({ σ with db := db' }, .processed)
  | _, _ => none

abbrev SyncSystem (ι : Type*) := Interleaving.State ι SyncShared TaskState

/-- There is exactly one row of the subscription. -/
def BillingDb.HasOneRow (db : BillingDb) (sid : String) : Prop :=
  ∃ row, db.subscriptions.rows.filter (fun s => s.stripeId = some sid) = [row]

/-- No event has failed. -/
def NoneFailed (s : SyncSystem ι) : Prop := ∀ i e, s.procs i ≠ .failed e

/-- A save that would insert a row finds none of the subscription: no other
sync has saved since the lookup of this one. -/
def InsertsFirst (sid : String) (s : SyncSystem ι) : ι × TaskStep → Prop
  | (i, .save _) => ∀ row retries, s.procs i = .built row retries →
      (∀ r ∈ s.shared.db.subscriptions.rows, r.id ≠ row.id) →
        s.shared.db.subscriptions.getByStripeId sid = none
  | _ => True

/-- A built row is the current one under its key, or has a key that no row and
no other sync has; the first save leaves a row, and nothing else can fail. -/
structure SyncsInv (db : BillingDb) (sid : String) (s : SyncSystem ι) : Prop where
  lookups : db.SameLookups s.shared.db
  built_stripeId : ∀ i row retries, s.procs i = .built row retries → row.stripeId = some sid
  built_key : ∀ i row retries, s.procs i = .built row retries →
    (∃ current, s.shared.db.subscriptions.getByStripeId sid = some current ∧
      row.id = current.id) ∨
    (row.id ∈ s.shared.minted ∧ (∀ r ∈ s.shared.db.subscriptions.rows, r.id ≠ row.id) ∧
      ∀ j row' retries', j ≠ i → s.procs j = .built row' retries' → row'.id ≠ row.id)
  settled_row : ∀ i, (s.procs i).settled = true →
    ∃ current, s.shared.db.subscriptions.getByStripeId sid = some current

/-- What a step can do. -/
theorem syncAct_cases {syncs : ι → SyncTask u db sid} {i : ι} {σ σ' : SyncShared}
    {κ κ' : TaskState} {a : TaskStep} (hs : db.SameLookups σ.db)
    (h : syncAct syncs i σ κ a = some (σ', κ')) :
    (∃ retries uuid now customer m, κ = .waiting retries ∧ a = .lookup uuid now ∧
      uuid ∉ σ.minted ∧ (∀ r ∈ σ.db.subscriptions.rows, r.id ≠ uuid) ∧
      σ' = { σ with minted := uuid :: σ.minted } ∧
      κ' = .built ((m : Mirrored).toRow sid customer
        (σ.db.subscriptions.getByStripeId sid) uuid now)
        retries) ∨
    ∃ row retries now, κ = .built row retries ∧ a = .save now ∧
      ((∃ e, σ.db.saveSubscription now row = .error e ∧ σ' = σ ∧ κ' = .failed (.handler e)) ∨
        ∃ db', σ.db.saveSubscription now row = .ok db' ∧ σ' = { σ with db := db' } ∧
          κ' = .processed) := by
  cases κ with
  | waiting retries =>
    cases a with
    | save now => cases h
    | lookup uuid now =>
      by_cases hfresh : uuid ∈ σ.minted ∨ uuid ∈ σ.db.subscriptions.rows.map Subscription.id
      · rw [syncAct, if_pos hfresh] at h
        cases h
      obtain ⟨⟨customer, m⟩, hm, -⟩ := Option.map_eq_some_iff.mp (syncs i).version.known
      have hrow : syncRow u σ.db now (syncs i).version.data
            (σ.db.subscriptions.getByStripeId sid) =
          .ok (m.toRow (syncs i).version.data.id customer
            (σ.db.subscriptions.getByStripeId sid) σ.db.subscriptions.uuid4 now) :=
        syncRow_ok_iff.mpr
          ⟨customer, m, (syncedFields_congr hs (syncs i).version.data).trans hm, rfl⟩
      rw [syncAct, if_neg hfresh] at h
      simp only [hrow] at h
      cases h
      refine Or.inl ⟨retries, uuid, now, customer, m, rfl, rfl, fun hu => hfresh (Or.inl hu),
        fun r hr hid => hfresh (Or.inr (List.mem_map.mpr ⟨r, hr, hid⟩)), rfl, ?_⟩
      rw [(syncs i).version.id_eq]
      rcases σ.db.subscriptions.getByStripeId sid with - | current <;> rfl
  | built row retries =>
    cases a with
    | lookup uuid now => cases h
    | save now =>
      refine Or.inr ⟨row, retries, now, rfl, rfl, ?_⟩
      rw [syncAct] at h
      rcases hsave : σ.db.saveSubscription now row with e | db' <;> rw [hsave] at h <;> cases h
      · exact Or.inl ⟨e, rfl, rfl, rfl⟩
      · exact Or.inr ⟨db', rfl, rfl, rfl⟩
  | processed => cases a <;> cases h
  | failed e => cases a <;> cases h

/-! ### Saves -/

/-- The key of a row under `sid`: that of the row that is there, or a new one. -/
def BillingDb.KeyFor (db : BillingDb) (sid : String) (key : UUID) : Prop :=
  (∃ current, db.subscriptions.getByStripeId sid = some current ∧ key = current.id) ∨
    ∀ r ∈ db.subscriptions.rows, r.id ≠ key

/-- What a successful save leaves. -/
structure SavedUnder (db : BillingDb) (sid : String) (key : UUID) (db' : BillingDb) : Prop where
  lookups : db.SameLookups db'
  found : ∃ current, db'.subscriptions.getByStripeId sid = some current ∧ current.id = key
  replaced : ∀ current, db.subscriptions.getByStripeId sid = some current → current.id = key
  ids : ∀ r ∈ db'.subscriptions.rows, r.id = key ∨ ∃ r₀ ∈ db.subscriptions.rows, r₀.id = r.id

/-- **A save** goes through unless it would insert a second row. -/
theorem saveSubscription_keyFor {row : Subscription} (now : Timestamp)
    (hs : row.stripeId = some sid) (hkey : db.KeyFor sid row.id) :
    (db.saveSubscription now row = .error .integrityError ∧
      (∀ r ∈ db.subscriptions.rows, r.id ≠ row.id) ∧
      ∃ current, db.subscriptions.getByStripeId sid = some current) ∨
    ∃ db', db.saveSubscription now row = .ok db' ∧ SavedUnder db sid row.id db' := by
  have hids : ∀ tbl', db.subscriptions.save now row = some tbl' → ∀ r ∈ tbl'.rows,
      r.id = row.id ∨ ∃ r₀ ∈ db.subscriptions.rows, r₀.id = r.id := by
    intro tbl' htbl r hr
    rcases (SubscriptionTable.mem_save htbl).mp hr with ⟨hr, -⟩ | ⟨a, -, -, rfl⟩ | ⟨-, rfl⟩
    · exact Or.inr ⟨r, hr, rfl⟩
    · exact Or.inl rfl
    · exact Or.inl rfl
  rcases hkey with ⟨current, hcurrent, hid⟩ | hfresh
  · obtain ⟨tbl', hsave, hfound, -⟩ := SubscriptionTable.save_existing now hcurrent hid hs
    refine Or.inr ⟨{ db with subscriptions := tbl' }, by simp [BillingDb.saveSubscription, hsave],
      ⟨rfl, rfl⟩, ⟨_, hfound, rfl⟩, fun c hc => ?_, hids tbl' hsave⟩
    obtain rfl := Option.some.inj (hcurrent.symm.trans hc)
    exact hid.symm
  · rcases hnone : db.subscriptions.getByStripeId sid with - | current
    · obtain ⟨tbl', hsave, hfound, -⟩ := SubscriptionTable.save_insert now hnone hfresh hs
      refine Or.inr ⟨{ db with subscriptions := tbl' },
        by simp [BillingDb.saveSubscription, hsave], ⟨rfl, rfl⟩, ⟨_, hfound, rfl⟩, ?_,
        hids tbl' hsave⟩
      intro c hc
      cases hc.symm.trans hnone
    · refine Or.inl ⟨?_, hfresh, current, rfl⟩
      simp [BillingDb.saveSubscription, SubscriptionTable.save_taken now hnone hfresh hs]

theorem SyncsInv.keyFor {s : SyncSystem ι} (hI : SyncsInv db sid s) {i : ι} {row : Subscription}
    {retries : Nat} (h : s.procs i = .built row retries) : s.shared.db.KeyFor sid row.id := by
  rcases hI.built_key i row retries h with hcurrent | ⟨-, hfresh, -⟩
  · exact Or.inl hcurrent
  · exact Or.inr hfresh

/-! ### Every interleaving -/

def syncsInit (ι : Type*) (db : BillingDb) : SyncSystem ι := ⟨⟨db, []⟩, fun _ => .waiting 0⟩

theorem syncsInv_init (db : BillingDb) (sid : String) : SyncsInv db sid (syncsInit ι db) where
  lookups := ⟨rfl, rfl⟩
  built_stripeId _ _ _ h := by cases h
  built_key _ _ _ h := by cases h
  settled_row _ h := by cases h

/-- Once a sync is settled, the subscription has its one row. -/
theorem SyncsInv.hasOneRow {s : SyncSystem ι} (hI : SyncsInv db sid s) {i : ι}
    (hi : (s.procs i).settled = true) : s.shared.db.HasOneRow sid := by
  obtain ⟨row, hrow⟩ := hI.settled_row i hi
  obtain ⟨hmem, hsid⟩ := SubscriptionTable.getByStripeId_eq_some_iff.mp hrow
  exact ⟨row, Table.filter_eq_singleton s.shared.db.subscriptions.uniq_stripe_id hmem hsid⟩

variable [DecidableEq ι] {syncs : ι → SyncTask u db sid}

/-- Every step keeps the invariant. -/
theorem syncsInv_step (s : SyncSystem ι) (l : ι × TaskStep) (s' : SyncSystem ι)
    (hI : SyncsInv db sid s) (h : Interleaving.step (syncAct syncs) s l = some s') :
    SyncsInv db sid s' := by
  obtain ⟨i, a⟩ := l
  obtain ⟨σ', κ', hact, rfl⟩ := Interleaving.step_eq_some h
  rcases syncAct_cases hI.lookups hact with
    ⟨retries, uuid, now, customer, m, hκ, -, hminted, hids, rfl, rfl⟩ |
    ⟨row, retries, now, hκ, -, ⟨e, herr, rfl, rfl⟩ | ⟨db', hok, rfl, rfl⟩⟩
  · -- the row is built
    obtain ⟨h₁, h₂, h₃, h₄⟩ := hI
    -- the new key is not that of another sync
    have hnew : ∀ k row₁ n, s.procs k = .built row₁ n → row₁.id ≠ uuid := by
      rintro k row₁ n hk rfl
      rcases h₃ k row₁ n hk with ⟨current, hcurrent, hid⟩ | ⟨hmem, -⟩
      · exact hids current (SubscriptionTable.getByStripeId_eq_some_iff.mp hcurrent).1 hid.symm
      · exact hminted hmem
    refine ⟨h₁, ?_, ?_, ?_⟩ <;> simp only [Function.update_apply]
    · intro j row₁ n hj
      split at hj
      · cases hj
        rfl
      · exact h₂ j row₁ n hj
    · intro j row₁ n hj
      split at hj
      · cases hj
        rcases hex : s.shared.db.subscriptions.getByStripeId sid with - | current
        · refine Or.inr ⟨List.mem_cons_self .., hids, fun k row₂ n₂ hk hkb => ?_⟩
          rw [if_neg (by grind)] at hkb
          exact hnew k row₂ n₂ hkb
        · exact Or.inl ⟨current, rfl, rfl⟩
      · rcases h₃ j row₁ n hj with hcurrent | ⟨hmem, hfresh, hother⟩
        · exact Or.inl hcurrent
        · refine Or.inr ⟨List.mem_cons_of_mem _ hmem, hfresh, fun k row₂ n₂ hk hkb => ?_⟩
          split at hkb
          · cases hkb
            rcases hex : s.shared.db.subscriptions.getByStripeId sid with - | current
            · exact (hnew j row₁ n hj).symm
            · exact hfresh current (SubscriptionTable.getByStripeId_eq_some_iff.mp hex).1
          · exact hother k row₂ n₂ hk hkb
    · intro j hj
      split at hj
      · cases hj
      · exact h₄ j hj
  · -- the insert is refused
    have hrow : ∃ current, s.shared.db.subscriptions.getByStripeId sid = some current := by
      rcases saveSubscription_keyFor now (hI.built_stripeId i row retries hκ) (hI.keyFor hκ) with
        ⟨-, -, hrow⟩ | ⟨db', hok, -⟩
      · exact hrow
      · cases herr.symm.trans hok
    obtain ⟨h₁, h₂, h₃, h₄⟩ := hI
    refine ⟨h₁, ?_, ?_, fun _ _ => hrow⟩ <;> simp only [Function.update_apply]
    · grind
    · grind
  · -- the row is saved
    have hsaved : SavedUnder s.shared.db sid row.id db' := by
      rcases saveSubscription_keyFor now (hI.built_stripeId i row retries hκ) (hI.keyFor hκ) with
        ⟨herr, -⟩ | ⟨db₁, hok₁, hsaved⟩
      · cases herr.symm.trans hok
      · cases hok.symm.trans hok₁
        exact hsaved
    obtain ⟨hlookups, ⟨current', hfound, hid⟩, hreplaced, hids⟩ := hsaved
    obtain ⟨h₁, h₂, h₃, h₄⟩ := hI
    refine ⟨⟨hlookups.1.trans h₁.1, hlookups.2.trans h₁.2⟩, ?_, ?_, fun _ _ =>
      ⟨current', hfound⟩⟩ <;>
      simp only [Function.update_apply]
    · grind
    · intro j row₁ n hj
      split at hj
      · cases hj
      rename_i hji
      rcases h₃ j row₁ n hj with ⟨current, hcurrent, hid₁⟩ | ⟨hmem, hfresh, hother⟩
      · exact Or.inl ⟨current', hfound, hid₁.trans ((hreplaced current hcurrent).trans hid.symm)⟩
      · refine Or.inr ⟨hmem, fun r hr hrid => ?_, by grind⟩
        rcases hids r hr with hr | ⟨r₀, hr₀, hr⟩
        · exact hother i row retries (Ne.symm hji) hκ (hr.symm.trans hrid)
        · exact hfresh r₀ hr₀ (hr.trans hrid)

/-- A step fails no event exactly when a save in it that inserts finds no row. -/
theorem noneFailed_step (s : SyncSystem ι) (l : ι × TaskStep) (s' : SyncSystem ι)
    (hI : SyncsInv db sid s) (hP : NoneFailed s)
    (h : Interleaving.step (syncAct syncs) s l = some s') :
    NoneFailed s' ↔ InsertsFirst sid s l := by
  obtain ⟨i, a⟩ := l
  obtain ⟨σ', κ', hact, rfl⟩ := Interleaving.step_eq_some h
  have hquiet : (∀ e, κ' ≠ .failed e) →
      NoneFailed (⟨σ', Function.update s.procs i κ'⟩ : SyncSystem ι) := by
    intro hκ' j e hj
    by_cases hji : j = i
    · subst hji
      exact hκ' e ((Function.update_self ..).symm.trans hj)
    · exact hP j e ((Function.update_of_ne hji ..).symm.trans hj)
  rcases syncAct_cases hI.lookups hact with
    ⟨retries, uuid, now, customer, m, -, rfl, -, -, -, rfl⟩ |
    ⟨row, retries, now, hκ, rfl, hsave⟩
  · exact iff_of_true (hquiet fun _ h => by cases h) trivial
  rcases saveSubscription_keyFor now (hI.built_stripeId i row retries hκ) (hI.keyFor hκ) with
    ⟨herr, hfresh, current, hcurrent⟩ | ⟨db', hok, hsaved⟩
  · rcases hsave with ⟨e, -, -, rfl⟩ | ⟨db', hok, -, -⟩
    · refine iff_of_false (fun hP' => hP' i _ (Function.update_self ..)) fun hfirst => ?_
      cases hcurrent.symm.trans (hfirst row retries hκ hfresh)
    · cases herr.symm.trans hok
  · rcases hsave with ⟨e, herr, -, -⟩ | ⟨-, -, -, rfl⟩
    · cases herr.symm.trans hok
    · refine iff_of_true (hquiet fun _ h => by cases h) ?_
      intro row₁ n hrow₁ hfresh
      cases hκ.symm.trans hrow₁
      -- a row that is there has the key of the saved one
      rcases hnone : s.shared.db.subscriptions.getByStripeId sid with - | current
      · rfl
      · exact absurd (hsaved.replaced current hnone)
          (hfresh current (SubscriptionTable.getByStripeId_eq_some_iff.mp hnone).1)

/-- An event that has failed stays so. -/
theorem noneFailed_back (s : SyncSystem ι) (l : ι × TaskStep) (s' : SyncSystem ι)
    (_ : SyncsInv db sid s) (h : Interleaving.step (syncAct syncs) s l = some s')
    (hP' : NoneFailed s') : NoneFailed s := by
  obtain ⟨i, a⟩ := l
  obtain ⟨σ', κ', hact, rfl⟩ := Interleaving.step_eq_some h
  intro j e hj
  have hji : j ≠ i := by
    rintro rfl
    rw [hj] at hact
    cases a <;> cases hact
  exact hP' j e ((Function.update_of_ne hji ..).trans hj)

theorem syncsInv_run {ls : List (ι × TaskStep)} {t : SyncSystem ι}
    (hr : Runs.run (Interleaving.step (syncAct syncs)) (syncsInit ι db) ls = some t) :
    SyncsInv db sid t :=
  (Runs.always_of_invariant syncsInv_step (syncsInv_init db sid) ls).last hr

/-- **Concurrent first syncs.**  When all are settled there is exactly one row,
and no event has failed exactly when each insert found no row. -/
theorem first_syncs_succeed_iff [Nonempty ι] {ls : List (ι × TaskStep)} {t : SyncSystem ι}
    (hr : Runs.run (Interleaving.step (syncAct syncs)) (syncsInit ι db) ls = some t)
    (hsettled : ∀ i, (t.procs i).settled = true) :
    (t.shared.db.HasOneRow sid ∧ NoneFailed t) ↔
      Runs.EachStep (Interleaving.step (syncAct syncs)) (InsertsFirst sid) (syncsInit ι db) ls := by
  have hiff : Runs.Always (Interleaving.step (syncAct syncs)) NoneFailed (syncsInit ι db) ls ↔
      Runs.EachStep (Interleaving.step (syncAct syncs)) (InsertsFirst sid) (syncsInit ι db) ls :=
    Runs.always_iff_eachStep syncsInv_step noneFailed_step (syncsInv_init db sid)
      fun _ _ h => by cases h
  rw [← hiff]
  constructor
  · rintro ⟨-, hnone⟩
    exact Runs.always_of_last syncsInv_step noneFailed_back (syncsInv_init db sid) hr hnone
  · intro hall
    obtain ⟨i⟩ := ‹Nonempty ι›
    exact ⟨(syncsInv_run hr).hasOneRow (hsettled i), hall.last hr⟩

/-! ### Two events of a new subscription -/

/-- The created event and the team checkout. -/
def sampleSyncs : Fin 2 → SyncTask asciiTables sampleDb "sub_1"
  | 0 => .subscriptionCreated sampleActive
  | 1 => .teamCheckout sampleActive

/-- One sync after the other. -/
def sampleSyncsInTurn : List (Fin 2 × TaskStep) :=
  [(0, .lookup 10 100), (0, .save 101), (1, .lookup 11 102), (1, .save 103)]

/-- Both syncs look the row up before either saves. -/
def sampleSyncsRace : List (Fin 2 × TaskStep) :=
  [(0, .lookup 10 100), (1, .lookup 11 100), (0, .save 101), (1, .save 101)]

theorem first_syncs_succeed_iff_sample :
    ∃ t, Runs.run (Interleaving.step (syncAct sampleSyncs)) (syncsInit (Fin 2) sampleDb)
        sampleSyncsInTurn = some t ∧
      ((t.shared.db.HasOneRow "sub_1" ∧ NoneFailed t) ↔
        Runs.EachStep (Interleaving.step (syncAct sampleSyncs)) (InsertsFirst "sub_1")
          (syncsInit (Fin 2) sampleDb) sampleSyncsInTurn) :=
  ⟨_, rfl, first_syncs_succeed_iff rfl (by decide)⟩

/-- The loser of the race fails for good. -/
theorem race_fails_event :
    ∃ t, Runs.run (Interleaving.step (syncAct sampleSyncs)) (syncsInit (Fin 2) sampleDb)
        sampleSyncsRace = some t ∧
      t.procs 0 = .processed ∧ t.procs 1 = .failed (.handler .integrityError) ∧
      ¬ (t.shared.db.HasOneRow "sub_1" ∧ NoneFailed t) := by
  have hrun : ∃ t, Runs.run (Interleaving.step (syncAct sampleSyncs)) (syncsInit (Fin 2) sampleDb)
      sampleSyncsRace = some t ∧ t.procs 0 = .processed ∧
        t.procs 1 = .failed (.handler .integrityError) := ⟨_, rfl, by decide, by decide⟩
  obtain ⟨t, hr, h₀, h₁⟩ := hrun
  exact ⟨t, hr, h₀, h₁, fun h => h.2 1 _ h₁⟩

end Saasmint
