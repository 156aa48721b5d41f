/-
Saasmint/Billing/MirrorRace.lean

Concurrent writers of one subscription row: the webhook handlers, and the
mirror writes of cancel, resume and seat changes
(saasmint_core/services/billing.py and subscriptions.py).

Each of them loads the row, may call Stripe, and saves.  A save writes every
column, those the writer only carries along from its load too.  So a run loses
no update exactly when at each save the columns that the writer carries are
still those of the row (`no_lost_update_iff`).
-/
import Saasmint.Billing.Webhooks
import Saasmint.Lib.Interleaving

namespace Saasmint

open PyStr

variable (u : UnicodeTables)

/-! ### Mirror writes -/

/-- What a Stripe call answers about cancellation. -/
structure StripeCancelState where
  cancelAt : Option Timestamp
  canceledAt : Option Timestamp
  /-- `none` when it is not a text. -/
  status : Option String
  deriving DecidableEq, Repr

/-- The status that the mirror takes over, if Stripe's is a known one. -/
def StripeCancelState.knownStatus (resp : StripeCancelState) : Option SubscriptionStatus :=
  resp.status.bind SubscriptionStatus.ofValue

/-- The update of `_mirror_cancel_state_from_stripe`. -/
def Subscription.mirrorCancelState (s : Subscription) (resp : StripeCancelState) : Subscription :=
  { s with
    cancelAt := resp.cancelAt
    canceledAt := resp.canceledAt
    status := resp.knownStatus.getD s.status }

/-! ### Writers -/

/-- The writers of the row of `sid`. -/
inductive Writer (sid : String)
  | sync (d : SubscriptionData) (hd : d.id = sid)
  | scheduleUpserted (d : ScheduleData) (hd : d.subscription = some sid)
  | scheduleCleared (d : ScheduleData) (hd : d.subscription = some sid)
  | cancelSubscription (atPeriodEnd : Bool)
  | resumeSubscription
  | updateSeatCount (quantity : Int)

/-- Where a writer is. -/
inductive WriterState
  | idle
  | loaded (row : Subscription)
  /-- After the Stripe step of cancel and resume. -/
  | answered (row : Subscription) (resp : StripeCancelState)
  /-- After the Stripe step of a seat change. -/
  | modified (row : Subscription)
  | finished
  deriving DecidableEq, Repr

/-- The steps of a writer. -/
inductive WriterStep
  | load
  | stripe (resp : StripeCancelState)
  | save (now : Timestamp)
  deriving DecidableEq, Repr

/-- The database, and the row as it would be if every save only wrote the
columns that are the writer's own. -/
structure RaceState where
  db : BillingDb
  intended : Subscription

variable {sid : String}

namespace Writer

/-- The row that a writer makes of a row: the columns it is meant to write. -/
def update (db : BillingDb) (now : Timestamp) :
    Writer sid → Option StripeCancelState → Subscription → Except WebhookError Subscription
  | sync d _, _, row => syncRow u db now d (some row)
  | scheduleUpserted d _, _, row =>
    .ok (match announcedChange db d with
      | some (planId, changeAt) => row.withPending (some planId) (some changeAt)
      | none => row)
  | scheduleCleared _ _, _, row => .ok (row.withPending none none)
  | cancelSubscription _, some resp, row => .ok (row.mirrorCancelState resp)
  | resumeSubscription, some resp, row => .ok (row.mirrorCancelState resp)
  | updateSeatCount quantity, _, row => .ok { row with seatLimit := quantity }
  | _, none, row => .ok row

/-- Whether a writer that loaded `row` has anything to save. -/
def hasUpdate (db : BillingDb) : Writer sid → Subscription → Bool
  | scheduleUpserted d _, row =>
    match announcedChange db d with
    | some (planId, changeAt) =>
      !(row.scheduledPlanId = some planId ∧ row.scheduledChangeAt = some changeAt)
    | none => false
  | scheduleCleared _ _, row => !(row.scheduledPlanId = none ∧ row.scheduledChangeAt = none)
  | updateSeatCount quantity, row => row.seatLimit ≠ quantity
  | _, _ => true

/-- Cancel, resume and seat changes only find an active row. -/
def needsActive : Writer sid → Bool
  | cancelSubscription _ | resumeSubscription | updateSeatCount _ => true
  | _ => false

/-- The row and the Stripe answer a writer has when its next step is the save. -/
def ready : Writer sid → WriterState → Option (Subscription × Option StripeCancelState)
  | sync _ _, .loaded row | scheduleUpserted _ _, .loaded row
  | scheduleCleared _ _, .loaded row => some (row, none)
  | cancelSubscription _, .answered row resp | resumeSubscription, .answered row resp =>
    some (row, some resp)
  | updateSeatCount _, .modified row => some (row, none)
  | _, _ => none

/-- The columns that a writer carries from the row it loaded are those of
`current`. -/
def Carries : Writer sid → Option StripeCancelState → Subscription → Subscription → Prop
  | sync _ _, _, row, current =>
    row.scheduledPlanId = current.scheduledPlanId ∧
      row.scheduledChangeAt = current.scheduledChangeAt
  | scheduleUpserted _ _, _, row, current | scheduleCleared _ _, _, row, current =>
    row.withPending current.scheduledPlanId current.scheduledChangeAt = current
  | cancelSubscription _, resp, row, current | resumeSubscription, resp, row, current =>
    { row with
      cancelAt := current.cancelAt
      canceledAt := current.canceledAt
      status := if (resp.bind StripeCancelState.knownStatus).isSome then current.status
        else row.status } = current
  | updateSeatCount _, _, row, current => { row with seatLimit := current.seatLimit } = current

instance : ∀ (a : Writer sid) (resp : Option StripeCancelState) (row current : Subscription),
    Decidable (a.Carries resp row current)
  | sync _ _, _, _, _ => inferInstanceAs (Decidable (_ ∧ _))
  | scheduleUpserted _ _, _, _, _ | scheduleCleared _ _, _, _, _ | cancelSubscription _, _, _, _
  | resumeSubscription, _, _, _ | updateSeatCount _, _, _, _ => inferInstanceAs (Decidable (_ = _))

end Writer

variable {ι : Type*} (writers : ι → Writer sid)

/-- The step of a writer. -/
def writerAct (i : ι) (σ : RaceState) : WriterState → WriterStep → Option (RaceState × WriterState)
  | .idle, .load =>
    (σ.db.subscriptions.getByStripeId sid).map fun row =>
      -- `SubscriptionNotFoundError` where the row is not active
      if (writers i).needsActive && !row.status.isActive then (σ, .finished) else (σ, .loaded row)
  | .loaded row, .stripe resp =>
    match writers i with
    | .cancelSubscription _ | .resumeSubscription => some (σ, .answered row resp)
    | .updateSeatCount quantity =>
      -- `ValueError` before any call
      if quantity < 1 then some (σ, .finished) else some (σ, .modified row)
    | _ => none
  | κ, .save now =>
    match (writers i).ready κ with
    | none => none
    | some (row, resp) =>
      if (writers i).hasUpdate σ.db row then
        match (writers i).update u σ.db now resp row with
        | .error _ => some (σ, .finished)
        | .ok new =>
          match σ.db.saveSubscription now new with
          | .error _ => some (σ, .finished)
          | .ok db' =>
            let own := ((writers i).update u σ.db now resp σ.intended).toOption
            some (⟨db', own.getD σ.intended⟩, .finished)
      else some (σ, .finished)
  | _, _ => none

abbrev RaceSystem (ι : Type*) := Interleaving.State ι RaceState WriterState

/-- The row holds, in every column, what the writers meant it to. -/
def NoLostUpdate (sid : String) (s : RaceSystem ι) : Prop :=
  s.shared.db.subscriptions.getByStripeId sid = some s.shared.intended

/-- If the step is a save, the columns that it carries are those of the row. -/
def CarriesCurrent (s : RaceSystem ι) (l : ι × WriterStep) : Prop :=
  ∀ now row resp new current, l.2 = .save now →
    (writers l.1).ready (s.procs l.1) = some (row, resp) →
    (writers l.1).hasUpdate s.shared.db row = true →
    (writers l.1).update u s.shared.db now resp row = .ok new →
    s.shared.db.subscriptions.getByStripeId sid = some current →
      (writers l.1).Carries resp row current

instance (s : RaceSystem ι) : ∀ l, Decidable (CarriesCurrent u writers s l)
  | (i, .save now) =>
    decidable_of_iff
      (∀ x ∈ (writers i).ready (s.procs i), (writers i).hasUpdate s.shared.db x.1 = true →
        ((writers i).update u s.shared.db now x.2 x.1).toOption.isSome = true →
        ∀ current ∈ s.shared.db.subscriptions.getByStripeId sid,
          (writers i).Carries x.2 x.1 current) (by
      constructor
      · rintro hC _ row resp new current ⟨⟩ hready hhas hup hcur
        exact hC (row, resp) hready hhas (by rw [hup]; rfl) current hcur
      · rintro hC ⟨row, resp⟩ hready hhas hup current hcur
        obtain ⟨new, hnew⟩ := Option.isSome_iff_exists.mp hup
        rcases hupdate : (writers i).update u s.shared.db now resp row with e | new'
        · rw [hupdate] at hnew
          cases hnew
        · exact hC now row resp new' current rfl hready hhas hupdate hcur)
  | (_, .load) | (_, .stripe _) => isTrue (by rintro _ _ _ _ _ ⟨⟩)

/-! ### Keys -/

/-- Two states of one row. -/
structure Subscription.SameKeys (a b : Subscription) : Prop where
  id : a.id = b.id
  stripeId : a.stripeId = b.stripeId
  createdAt : a.createdAt = b.createdAt

theorem Subscription.SameKeys.trans {a b c : Subscription} (h₁ : a.SameKeys b)
    (h₂ : b.SameKeys c) : a.SameKeys c :=
  ⟨h₁.id.trans h₂.id, h₁.stripeId.trans h₂.stripeId, h₁.createdAt.trans h₂.createdAt⟩

theorem Subscription.SameKeys.symm {a b : Subscription} (h : a.SameKeys b) : b.SameKeys a :=
  ⟨h.id.symm, h.stripeId.symm, h.createdAt.symm⟩

variable {u} {writers}

/-- No writer changes the keys of the row. -/
theorem Writer.update_sameKeys {w : Writer sid} {db : BillingDb} {now : Timestamp}
    {resp : Option StripeCancelState} {row new : Subscription} (hrow : row.stripeId = some sid)
    (h : w.update u db now resp row = .ok new) : new.SameKeys row := by
  cases w with
  | sync d hd =>
    obtain ⟨customer, m, -, rfl⟩ := syncRow_ok_iff.mp h
    exact ⟨rfl, by rw [hrow, ← hd]; rfl, rfl⟩
  | scheduleUpserted d hd =>
    cases h
    split
    · exact ⟨rfl, rfl, rfl⟩
    · exact ⟨rfl, rfl, rfl⟩
  | scheduleCleared d hd =>
    cases h
    exact ⟨rfl, rfl, rfl⟩
  | cancelSubscription p => cases resp <;> cases h <;> exact ⟨rfl, rfl, rfl⟩
  | resumeSubscription => cases resp <;> cases h <;> exact ⟨rfl, rfl, rfl⟩
  | updateSeatCount q =>
    cases h
    exact ⟨rfl, rfl, rfl⟩

/-- **One save.**  Where a writer saves, what it makes of the row it loaded is
what it makes of the current one exactly when the columns it carries agree. -/
theorem Writer.update_eq_iff {w : Writer sid} {κ : WriterState} {db : BillingDb}
    {now : Timestamp} {resp : Option StripeCancelState} {row new current : Subscription}
    (hready : w.ready κ = some (row, resp)) (hhas : w.hasUpdate db row = true)
    (h : w.update u db now resp row = .ok new) (hkeys : row.SameKeys current) :
    ∃ own, w.update u db now resp current = .ok own ∧
      (new = own ↔ w.Carries resp row current) := by
  obtain ⟨hid, hstripe, hcreated⟩ := hkeys
  cases w with
  | sync d hd =>
    obtain ⟨customer, m, hm, rfl⟩ := syncRow_ok_iff.mp h
    refine ⟨_, syncRow_ok_iff.mpr ⟨customer, m, hm, rfl⟩, ?_⟩
    simp [Mirrored.toRow, Carries, hid, hcreated]
  | scheduleUpserted d hd =>
    cases h
    refine ⟨_, rfl, ?_⟩
    simp only [hasUpdate] at hhas
    rcases ea : announcedChange db d with - | ⟨planId, changeAt⟩
    · simp [ea] at hhas
    · cases row
      cases current
      simp [Carries, Subscription.withPending]
  | scheduleCleared d hd =>
    cases h
    refine ⟨_, rfl, ?_⟩
    cases row
    cases current
    simp [Carries, Subscription.withPending]
  | cancelSubscription p =>
    rcases resp with - | resp
    · cases κ <;> simp [ready] at hready
    · cases h
      refine ⟨_, rfl, ?_⟩
      cases row
      cases current
      rcases hst : resp.knownStatus with - | st <;>
        simp [Carries, Subscription.mirrorCancelState, hst]
  | resumeSubscription =>
    rcases resp with - | resp
    · cases κ <;> simp [ready] at hready
    · cases h
      refine ⟨_, rfl, ?_⟩
      cases row
      cases current
      rcases hst : resp.knownStatus with - | st <;>
        simp [Carries, Subscription.mirrorCancelState, hst]
  | updateSeatCount q =>
    cases h
    refine ⟨_, rfl, ?_⟩
    cases row
    cases current
    simp [Carries]

/-! ### Steps -/

/-- The row that a writer has loaded. -/
def WriterState.row? : WriterState → Option Subscription
  | loaded row | answered row _ | modified row => some row
  | idle | finished => none

theorem Writer.row?_of_ready {w : Writer sid} {κ : WriterState} {row : Subscription}
    {resp : Option StripeCancelState} (h : w.ready κ = some (row, resp)) : κ.row? = some row := by
  cases w <;> cases κ <;> simp_all [Writer.ready, WriterState.row?]

/-- A save, wherever the writer is. -/
theorem writerAct_save (i : ι) (σ : RaceState) (κ : WriterState) (now : Timestamp) :
    writerAct u writers i σ κ (.save now) =
      match (writers i).ready κ with
      | none => none
      | some (row, resp) =>
        if (writers i).hasUpdate σ.db row then
          match (writers i).update u σ.db now resp row with
          | .error _ => some (σ, .finished)
          | .ok new =>
            match σ.db.saveSubscription now new with
            | .error _ => some (σ, .finished)
            | .ok db' =>
              let own := ((writers i).update u σ.db now resp σ.intended).toOption
              some (⟨db', own.getD σ.intended⟩, .finished)
        else some (σ, .finished) := by
  cases κ <;> rfl

/-- What a step of a writer can do: nothing to the row, or one save. -/
theorem writerAct_cases {i : ι} {σ σ' : RaceState} {κ κ' : WriterState} {a : WriterStep}
    (h : writerAct u writers i σ κ a = some (σ', κ')) :
    (σ' = σ ∧
      (∀ row, κ'.row? = some row →
        κ.row? = some row ∨ σ.db.subscriptions.getByStripeId sid = some row) ∧
      ∀ now row resp new, a = .save now → (writers i).ready κ = some (row, resp) →
        (writers i).hasUpdate σ.db row = true →
        (writers i).update u σ.db now resp row = .ok new →
        ∃ e, σ.db.saveSubscription now new = .error e) ∨
    ∃ now row resp new db', a = .save now ∧ (writers i).ready κ = some (row, resp) ∧
      (writers i).hasUpdate σ.db row = true ∧
      (writers i).update u σ.db now resp row = .ok new ∧
      σ.db.saveSubscription now new = .ok db' ∧ κ' = .finished ∧
      σ' = ⟨db', (((writers i).update u σ.db now resp σ.intended).toOption).getD σ.intended⟩ := by
  cases a with
  | load =>
    cases κ with
    | idle =>
      obtain ⟨row, hrow, heq⟩ := Option.map_eq_some_iff.mp h
      split at heq <;> cases heq <;> left
      · exact ⟨rfl, by simp [WriterState.row?], by simp⟩
      · refine ⟨rfl, fun r hr => Or.inr ?_, by simp⟩
        obtain rfl := Option.some.inj hr
        exact hrow
    | loaded row => cases h
    | answered row resp => cases h
    | modified row => cases h
    | finished => cases h
  | stripe resp =>
    left
    cases κ with
    | loaded row =>
      simp only [writerAct] at h
      split at h
      · cases h
        exact ⟨rfl, fun r hr => Or.inl hr, by simp⟩
      · cases h
        exact ⟨rfl, fun r hr => Or.inl hr, by simp⟩
      · split at h <;> cases h
        · exact ⟨rfl, by simp [WriterState.row?], by simp⟩
        · exact ⟨rfl, fun r hr => Or.inl hr, by simp⟩
      · cases h
    | idle => cases h
    | answered row resp => cases h
    | modified row => cases h
    | finished => cases h
  | save now =>
    rw [writerAct_save] at h
    rcases hready : (writers i).ready κ with - | ⟨row, resp⟩
    · rw [hready] at h
      cases h
    simp only [hready] at h
    have hfin : ∀ r, WriterState.finished.row? = some r →
        κ.row? = some r ∨ σ.db.subscriptions.getByStripeId sid = some r := by
      simp [WriterState.row?]
    split at h
    case isFalse hhas =>
      -- the writer has nothing to save
      cases h
      refine Or.inl ⟨rfl, hfin, fun now' row' resp' new _ hr hhas' _ => ?_⟩
      obtain ⟨rfl, -⟩ := Prod.mk.inj (Option.some.inj hr)
      exact absurd hhas' hhas
    case isTrue hhas =>
      rcases hup : (writers i).update u σ.db now resp row with e | new
      · -- the payload is refused before the save
        rw [hup] at h
        cases h
        refine Or.inl ⟨rfl, hfin, fun now' row' resp' new ha hr _ hup' => ?_⟩
        obtain ⟨rfl, rfl⟩ := Prod.mk.inj (Option.some.inj hr)
        cases ha
        rw [hup] at hup'
        cases hup'
      rcases hsv : σ.db.saveSubscription now new with e | db'
      · -- the database refuses the save
        simp only [hup, hsv] at h
        cases h
        refine Or.inl ⟨rfl, hfin, fun now' row' resp' new' ha hr _ hup' => ?_⟩
        obtain ⟨rfl, rfl⟩ := Prod.mk.inj (Option.some.inj hr)
        cases ha
        rw [hup] at hup'
        cases hup'
        exact ⟨e, hsv⟩
      · simp only [hup, hsv] at h
        cases h
        exact Or.inr ⟨now, row, resp, new, db', rfl, rfl, hhas, hup, hsv, rfl, rfl⟩

/-! ### Writers and handlers -/

/-- What a writer does when nothing interrupts it, as the services write it. -/
def Writer.handle (u : UnicodeTables) (db : BillingDb) (now : Timestamp) (row : Subscription) :
    Writer sid → Option StripeCancelState → Except WebhookError BillingDb
  | sync d _, _ => syncSubscriptionFromData u db now d
  | scheduleUpserted d _, _ => onSubscriptionScheduleUpserted db now d
  | scheduleCleared d _, _ => onSubscriptionScheduleCleared db now d
  | cancelSubscription _, some resp | resumeSubscription, some resp =>
    db.saveSubscription now (row.mirrorCancelState resp)
  | updateSeatCount quantity, _ =>
    if row.seatLimit = quantity then .ok db
    else db.saveSubscription now { row with seatLimit := quantity }
  | _, none => .ok db

/-- A writer whose loaded row is still the row of the database leaves what its
handler leaves. -/
theorem save_eq_handle {i : ι} {σ σ' : RaceState} {κ κ' : WriterState} {now : Timestamp}
    {row : Subscription} {resp : Option StripeCancelState} (hne : sid ≠ "")
    (hrow : σ.db.subscriptions.getByStripeId sid = some row)
    (hready : (writers i).ready κ = some (row, resp))
    (h : writerAct u writers i σ κ (.save now) = some (σ', κ')) :
    σ'.db = (((writers i).handle u σ.db now row resp).toOption).getD σ.db := by
  -- the save is an update followed by a save of the row, where there is one
  have hdb : σ'.db = (((if (writers i).hasUpdate σ.db row then
      ((writers i).update u σ.db now resp row).bind (σ.db.saveSubscription now)
      else .ok σ.db) : Except WebhookError BillingDb).toOption).getD σ.db := by
    rw [writerAct_save, hready] at h
    simp only at h
    split at h
    case isFalse hhas =>
      cases h
      simp [hhas, Except.toOption]
    case isTrue hhas =>
      rw [if_pos hhas]
      rcases hup : (writers i).update u σ.db now resp row with e | new
      · rw [hup] at h
        cases h
        rfl
      · rcases hsv : σ.db.saveSubscription now new with e | db'
        · simp only [hup, hsv] at h
          cases h
          simp [Except.bind, hsv, Except.toOption]
        · simp only [hup, hsv] at h
          cases h
          simp [Except.bind, hsv, Except.toOption]
  rw [hdb]
  have hf : ∀ d : ScheduleData, d.subscription = some sid →
      d.subscription.filter (fun x => decide (x ≠ "")) = some sid := by
    intro d hd
    rw [hd]
    exact Option.filter_some_pos (by simpa using hne)
  rcases hw : writers i with ⟨d, hd⟩ | ⟨d, hd⟩ | ⟨d, hd⟩ | p | - | q
  · simp [Writer.hasUpdate, Writer.update, Writer.handle, syncSubscriptionFromData, hd, hrow, bind]
  · simp only [Writer.hasUpdate, Writer.update, Writer.handle,
      onSubscriptionScheduleUpserted, hf d hd]
    rcases Option.eq_none_or_eq_some (announcedChange σ.db d) with ea | ⟨⟨planId, changeAt⟩, ea⟩
    · simp [ea]
    · by_cases hp : row.scheduledPlanId = some planId ∧ row.scheduledChangeAt = some changeAt <;>
        simp [ea, hrow, hp, Except.bind]
  · simp only [Writer.hasUpdate, Writer.update, Writer.handle,
      onSubscriptionScheduleCleared, hf d hd,
      hrow]
    by_cases hp : row.scheduledPlanId = none ∧ row.scheduledChangeAt = none <;>
      simp [hp, Except.bind]
  · rcases resp with - | resp
    · rw [hw] at hready
      cases κ <;> simp [Writer.ready] at hready
    · rfl
  · rcases resp with - | resp
    · rw [hw] at hready
      cases κ <;> simp [Writer.ready] at hready
    · rfl
  · simp only [Writer.hasUpdate, Writer.update, Writer.handle]
    by_cases hq : row.seatLimit = q <;> simp [hq, Except.bind]

/-! ### Invariant -/

/-- The row exists, and it and the intended one are states of one row. -/
def RowKnown (sid : String) (σ : RaceState) : Prop :=
  σ.intended.stripeId = some sid ∧
    ∃ row, σ.db.subscriptions.getByStripeId sid = some row ∧ row.SameKeys σ.intended

/-- A loaded row is a state of the same row. -/
def LoadedRow (σ : RaceState) (κ : WriterState) : Prop :=
  ∀ row, κ.row? = some row → row.SameKeys σ.intended

/-- The invariant of the race. -/
abbrev RaceInv (sid : String) : RaceSystem ι → Prop :=
  Interleaving.Inv (RowKnown sid) fun _ => LoadedRow

/-- Saving what a writer makes of its row succeeds. -/
theorem save_update {w : Writer sid} {σ : RaceState} {κ : WriterState} {now : Timestamp}
    {resp : Option StripeCancelState} {row new : Subscription} (hG : RowKnown sid σ)
    (hL : LoadedRow σ κ) (hready : w.ready κ = some (row, resp))
    (hup : w.update u σ.db now resp row = .ok new) :
    ∃ db', σ.db.saveSubscription now new = .ok db' ∧ σ.db.Sets sid new db' ∧
      new.SameKeys σ.intended := by
  obtain ⟨hint, current, hcur, hkeys⟩ := hG
  have hrow := hL row (Writer.row?_of_ready hready)
  have hnew := (Writer.update_sameKeys (hrow.stripeId.trans hint) hup).trans hrow
  have hnc := hnew.trans hkeys.symm
  obtain ⟨db', hsv, hsets⟩ :=
    saveSubscription_existing now _ hcur hnc.id hnc.stripeId hnc.createdAt
  exact ⟨db', hsv, hsets, hnew⟩

/-- The intended row after a save is a state of the same row. -/
theorem own_sameKeys (u : UnicodeTables) (w : Writer sid) {σ : RaceState} (now : Timestamp)
    (resp : Option StripeCancelState) (hint : σ.intended.stripeId = some sid) :
    (((w.update u σ.db now resp σ.intended).toOption).getD σ.intended).SameKeys σ.intended := by
  rcases h : w.update u σ.db now resp σ.intended with e | own
  · exact ⟨rfl, rfl, rfl⟩
  · exact Writer.update_sameKeys hint h

variable [DecidableEq ι]

theorem raceInv_step (s : RaceSystem ι) (l : ι × WriterStep) (s' : RaceSystem ι)
    (hI : RaceInv sid s) (h : Interleaving.step (writerAct u writers) s l = some s') :
    RaceInv sid s' := by
  refine Interleaving.inv_step (fun i σ κ a σ' κ' hG hL hact => ?_)
    (fun i σ κ a σ' κ' hG hL hact j κⱼ _ hLj => ?_) s l s' hI h
  · rcases writerAct_cases hact with ⟨rfl, hrow, -⟩ |
      ⟨now, row, resp, new, db', -, hready, -, hup, hsv, rfl, rfl⟩
    · refine ⟨hG, fun r hr => ?_⟩
      rcases hrow r hr with h | h
      · exact hL r h
      · obtain ⟨hint, current, hcur, hkeys⟩ := hG
        obtain rfl := Option.some.inj (hcur.symm.trans h)
        exact hkeys
    · obtain ⟨db₂, hsv₂, hsets, hnew⟩ := save_update hG hL hready hup
      obtain rfl := Except.ok.inj (hsv.symm.trans hsv₂)
      have hown := own_sameKeys u (writers i) now resp hG.1
      exact ⟨⟨hown.stripeId.trans hG.1, new, hsets.found, hnew.trans hown.symm⟩,
        by simp [LoadedRow, WriterState.row?]⟩
  · rcases writerAct_cases hact with ⟨rfl, -, -⟩ |
      ⟨now, row, resp, new, db', -, -, -, -, -, -, rfl⟩
    · exact hLj
    · have hown := own_sameKeys u (writers i) now resp hG.1
      exact fun r hr => (hLj r hr).trans hown.symm

/-- A step loses no update exactly when what it saves is current elsewhere. -/
theorem noLostUpdate_step (s : RaceSystem ι) (l : ι × WriterStep) (s' : RaceSystem ι)
    (hI : RaceInv sid s) (hP : NoLostUpdate sid s)
    (h : Interleaving.step (writerAct u writers) s l = some s') :
    NoLostUpdate sid s' ↔ CarriesCurrent u writers s l := by
  obtain ⟨i, a⟩ := l
  obtain ⟨σ', κ', hact, rfl⟩ := Interleaving.step_eq_some h
  have hG := hI.shared
  have hL := hI.procs i
  unfold NoLostUpdate at hP ⊢
  rcases writerAct_cases hact with ⟨rfl, -, hno⟩ |
    ⟨now, row, resp, new, db', rfl, hready, hhas, hup, hsv, rfl, rfl⟩
  · -- no save, because there was nothing to save
    refine iff_of_true hP fun now row resp new current ha hready hhas hup _ => ?_
    obtain ⟨e, he⟩ := hno now row resp new ha hready hhas hup
    obtain ⟨db', hsv, -⟩ := save_update hG hL hready hup
    rw [hsv] at he
    cases he
  · obtain ⟨db₂, hsv₂, hsets, -⟩ := save_update hG hL hready hup
    obtain rfl := Except.ok.inj (hsv.symm.trans hsv₂)
    have hkeys := hL row (Writer.row?_of_ready hready)
    obtain ⟨own, hown, hiff⟩ := Writer.update_eq_iff hready hhas hup hkeys
    have hleft : db'.subscriptions.getByStripeId sid
        = some ((((writers i).update u s.shared.db now resp s.shared.intended).toOption).getD
          s.shared.intended) ↔ new = own := by
      rw [hsets.found, hown]
      simp [Except.toOption]
    rw [hleft, hiff]
    constructor
    · intro hc now' row' resp' new' current' ha hready' _ _ hcur
      obtain ⟨rfl, rfl⟩ := Prod.mk.inj (Option.some.inj (hready.symm.trans hready'))
      obtain rfl := Option.some.inj (hP.symm.trans hcur)
      exact hc
    · intro hc
      exact hc now row resp new s.shared.intended rfl hready hhas hup hP

/-- The system before any writer has moved. -/
def raceInit (ι : Type*) (db : BillingDb) (row : Subscription) : RaceSystem ι :=
  ⟨⟨db, row⟩, fun _ => .idle⟩

/-- **No lost update.**  Over any interleaving of any number of writers of one
row, every column always holds what its writers last meant it to hold, exactly
when at each save the columns that the writer carries from its load are those
of the row. -/
theorem no_lost_update_iff {db : BillingDb} {row : Subscription}
    (hrow : db.subscriptions.getByStripeId sid = some row) (ls : List (ι × WriterStep)) :
    Runs.Always (Interleaving.step (writerAct u writers)) (NoLostUpdate sid)
        (raceInit ι db row) ls ↔
      Runs.EachStep (Interleaving.step (writerAct u writers)) (CarriesCurrent u writers)
        (raceInit ι db row) ls := by
  refine Runs.always_iff_eachStep raceInv_step noLostUpdate_step ⟨?_, fun _ => ?_⟩ hrow
  · exact ⟨(SubscriptionTable.getByStripeId_eq_some_iff.mp hrow).2, row, hrow, rfl, rfl, rfl⟩
  · simp [raceInit, LoadedRow, WriterState.row?]

/-! ### A sync and a schedule event -/

/-- The row of the sample subscription. -/
def sampleRow : Subscription where
  id := 7
  stripeId := some "sub_1"
  stripeCustomerId := some 3
  userId := some 4
  status := .active
  planId := 1
  seatLimit := 1
  trialEndsAt := none
  currentPeriodStart := 100
  currentPeriodEnd := 200
  canceledAt := none
  cancelAt := none
  scheduledPlanId := none
  scheduledChangeAt := none
  currency := "usd"
  createdAt := 0

def sampleRowDb : BillingDb :=
  { sampleDb with subscriptions := ⟨[sampleRow], by decide, by decide⟩ }

/-- Two events about the subscription, and a cancel. -/
def overlappingSyncs : Fin 3 → Writer "sub_1"
  | 0 => .sync (sampleSnapshot "past_due" none) rfl
  | 1 => .sync (sampleSnapshot "active" (some 90)) rfl
  | 2 => .cancelSubscription true

/-- Both events are read before either is saved; the cancel comes to a row that
they do not write any more. -/
def overlappingSteps : List (Fin 3 × WriterStep) :=
  [(0, .load), (1, .load), (0, .save 5), (1, .save 6), (2, .load),
    (2, .stripe ⟨some 200, some 95, some "active"⟩), (2, .save 7)]

theorem no_lost_update_iff_overlapping :
    ∃ s, Runs.run (Interleaving.step (writerAct asciiTables overlappingSyncs))
          (raceInit (Fin 3) sampleRowDb sampleRow) overlappingSteps = some s ∧
      s.shared.intended = { sampleRow with cancelAt := some 200, canceledAt := some 95 } ∧
      Runs.EachStep (Interleaving.step (writerAct asciiTables overlappingSyncs))
        (CarriesCurrent asciiTables overlappingSyncs) (raceInit (Fin 3) sampleRowDb sampleRow)
        overlappingSteps ∧
      NoLostUpdate "sub_1" s := by
  have hrun : (Runs.run (Interleaving.step (writerAct asciiTables overlappingSyncs))
      (raceInit (Fin 3) sampleRowDb sampleRow) overlappingSteps).map (fun s => s.shared.intended)
        = some { sampleRow with cancelAt := some 200, canceledAt := some 95 } := by
    decide
  obtain ⟨s, hs, hintended⟩ := Option.map_eq_some_iff.mp hrun
  have hcarries : Runs.EachStep (Interleaving.step (writerAct asciiTables overlappingSyncs))
      (CarriesCurrent asciiTables overlappingSyncs) (raceInit (Fin 3) sampleRowDb sampleRow)
      overlappingSteps := by
    decide
  exact ⟨s, hs, hintended, hcarries,
    ((no_lost_update_iff (by decide) overlappingSteps).mpr hcarries).last hs⟩

/-- The two events that Stripe sends together for one plan change, and a cancel. -/
def sampleWriters : Fin 3 → Writer "sub_1"
  | 0 => .sync (sampleSnapshot "past_due" none) rfl
  | 1 => .scheduleUpserted sampleSchedule rfl
  | 2 => .cancelSubscription true

/-- A sync that loads before the schedule event and saves after it takes the
pending change back; the other way round the new status is taken back. -/
theorem interleaved_saves_lose_updates :
    ((Runs.run (Interleaving.step (writerAct asciiTables sampleWriters))
        (raceInit (Fin 3) sampleRowDb sampleRow)
        [(0, .load), (1, .load), (1, .save 5), (0, .save 6)]).bind fun s =>
          s.shared.db.subscriptions.getByStripeId "sub_1")
      = some { sampleRow with status := .pastDue } ∧
    ((Runs.run (Interleaving.step (writerAct asciiTables sampleWriters))
        (raceInit (Fin 3) sampleRowDb sampleRow)
        [(1, .load), (0, .load), (0, .save 5), (1, .save 6)]).bind fun s =>
          s.shared.db.subscriptions.getByStripeId "sub_1")
      = some { sampleRow with scheduledPlanId := some 1, scheduledChangeAt := some 200 } ∧
    ¬ Runs.Always (Interleaving.step (writerAct asciiTables sampleWriters)) (NoLostUpdate "sub_1")
      (raceInit (Fin 3) sampleRowDb sampleRow)
      [(0, .load), (1, .load), (1, .save 5), (0, .save 6)] := by
  refine ⟨by decide, by decide, fun h => ?_⟩
  rcases hr : Runs.run (Interleaving.step (writerAct asciiTables sampleWriters))
      (raceInit (Fin 3) sampleRowDb sampleRow)
      [(0, .load), (1, .load), (1, .save 5), (0, .save 6)] with - | s
  · exact absurd (congrArg Option.isSome hr) (by decide)
  · have hlast := h.last hr
    have hlost : ((Runs.run (Interleaving.step (writerAct asciiTables sampleWriters))
        (raceInit (Fin 3) sampleRowDb sampleRow)
        [(0, .load), (1, .load), (1, .save 5), (0, .save 6)]).map fun s =>
          decide (s.shared.db.subscriptions.getByStripeId "sub_1" = some s.shared.intended))
        = some false := by decide
    rw [hr] at hlost
    simp only [Option.map_some, Option.some.injEq, decide_eq_false_iff_not] at hlost
    exact hlost hlast

end Saasmint
