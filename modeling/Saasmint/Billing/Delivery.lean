/-
Saasmint/Billing/Delivery.lean

What a sequence of webhook deliveries leaves of one subscription, in whatever
order Stripe's events arrive and however often each is repeated.

The handlers keep no version: a created or updated event rebuilds the mirrored
columns from its payload, a deletion marks the row, and the schedule events
write the pending change.  `effect` is that view of a delivery, an operation on
the columns of one row, and `row_deliverStep` says that dispatch refines it.
From there the final row is that of the last created or updated delivery, with
the deletion marked if one came after it (`row_run`), and the row converges to
the newest version exactly when the order of the deliveries says so
(`deliveries_converge_iff`).
-/
import Mathlib.Data.List.Induction
import Saasmint.Billing.Webhooks
import Saasmint.Lib.Runs

namespace Saasmint

open PyStr

variable (u : UnicodeTables) (db : BillingDb)

/-- The columns that a sync of `d` writes. -/
def mirroredOf (d : SubscriptionData) : Option Mirrored := (syncedFields u db d).map Prod.snd

/-- A version of the subscription `sid`: a snapshot with a known customer and
price, and the columns it stands for. -/
structure Version (sid : String) where
  data : SubscriptionData
  fields : Mirrored
  id_eq : data.id = sid
  known : mirroredOf u db data = some fields

/-- The successive versions of one subscription: those of its created and
updated events in order, and that of its deletion, if it is deleted. -/
structure History where
  sid : String
  updates : List (Version u db sid)
  deletion : Option (Version u db sid)
  sid_ne : sid ≠ ""
  updates_ne : updates ≠ []

/-- How a schedule ends. -/
inductive ScheduleEnd
  | released | canceled | aborted
  deriving DecidableEq, Repr

variable {u db}

/-- The delivery of an event at a time of the handler's clock: an event of one
of the versions, or of the one schedule of the subscription. -/
inductive Delivery (h : History u db)
  | synced (created : Bool) (v : Version u db h.sid) (hv : v ∈ h.updates) (now : Timestamp)
  | deleted (v : Version u db h.sid) (hv : h.deletion = some v) (now : Timestamp)
  | scheduleUpserted (created : Bool) (d : ScheduleData) (hd : d.subscription = some h.sid)
      (now : Timestamp)
  | scheduleCleared (how : ScheduleEnd) (d : ScheduleData) (hd : d.subscription = some h.sid)
      (now : Timestamp)

variable {h : History u db}

namespace Delivery

def now : Delivery h → Timestamp
  | synced _ _ _ now | deleted _ _ now | scheduleUpserted _ _ _ now
  | scheduleCleared _ _ _ now => now

/-- The event delivered. -/
def event : Delivery h → Event
  | synced true v _ _ => .customerSubscriptionCreated v.data
  | synced false v _ _ => .customerSubscriptionUpdated v.data
  | deleted v _ _ => .customerSubscriptionDeleted v.data
  | scheduleUpserted true d _ _ => .subscriptionScheduleCreated d
  | scheduleUpserted false d _ _ => .subscriptionScheduleUpdated d
  | scheduleCleared .released d _ _ => .subscriptionScheduleReleased d
  | scheduleCleared .canceled d _ _ => .subscriptionScheduleCanceled d
  | scheduleCleared .aborted d _ _ => .subscriptionScheduleAborted d

def isDeletion : Delivery h → Bool
  | deleted .. => true
  | _ => false

def endsSchedule : Delivery h → Bool
  | scheduleCleared .. => true
  | _ => false

end Delivery

/-! ### The columns of one row -/

/-- The columns of a row that webhooks write. -/
structure MirrorRow where
  fields : Mirrored
  scheduledPlanId : Option UUID
  scheduledChangeAt : Option Timestamp
  deriving DecidableEq, Repr

def Subscription.mirrorRow (s : Subscription) : MirrorRow where
  fields := s.mirrored
  scheduledPlanId := s.scheduledPlanId
  scheduledChangeAt := s.scheduledChangeAt

/-- The row of the subscription `sid`. -/
def BillingDb.row (db : BillingDb) (sid : String) : Option MirrorRow :=
  (db.subscriptions.getByStripeId sid).map Subscription.mirrorRow

/-- What a delivery does to the columns of the row. -/
def Delivery.effect : Delivery h → Option MirrorRow → Option MirrorRow
  | synced _ v _ _, r => some
      { fields := v.fields
        scheduledPlanId := r.bind MirrorRow.scheduledPlanId
        scheduledChangeAt := r.bind MirrorRow.scheduledChangeAt }
  | deleted _ _ now, r => r.map fun r =>
      { r with fields := { r.fields with status := .canceled, canceledAt := some now } }
  | scheduleUpserted _ d _ _, r =>
    match announcedChange db d with
    | none => r
    | some (planId, changeAt) => r.map fun r =>
        { r with scheduledPlanId := some planId, scheduledChangeAt := some changeAt }
  | scheduleCleared _ _ _ _, r => r.map fun r =>
      { r with scheduledPlanId := none, scheduledChangeAt := none }

/-- No delivery removes the row. -/
theorem Delivery.effect_isSome (d : Delivery h) {r : Option MirrorRow} (hr : r.isSome = true) :
    (d.effect r).isSome = true := by
  cases d with
  | synced created v hv now => rfl
  | deleted v hv now => simpa [effect] using hr
  | scheduleUpserted created d hd now =>
    simp only [effect]
    split
    · exact hr
    · simpa using hr
  | scheduleCleared how d hd now => simpa [effect] using hr

/-- The lookups of the handlers are those of `db`. -/
def BillingDb.SameLookups (db db' : BillingDb) : Prop :=
  db'.catalog = db.catalog ∧ db'.customers = db.customers

theorem syncedFields_congr {db' : BillingDb} (hs : db.SameLookups db') (d : SubscriptionData) :
    syncedFields u db' d = syncedFields u db d := by
  unfold syncedFields BillingDb.getCustomerByStripeId
  rw [hs.1, hs.2]

theorem announcedChange_congr {db' : BillingDb} (hs : db.SameLookups db') (d : ScheduleData) :
    announcedChange db' d = announcedChange db d := by
  unfold announcedChange
  rw [hs.1]

theorem BillingDb.Sets.row {db' : BillingDb} {sid : String} {s : Subscription}
    (h : db.Sets sid s db') : db'.row sid = some s.mirrorRow := by
  rw [BillingDb.row, h.found]
  rfl

theorem BillingDb.Sets.sameLookups {db₁ db₂ : BillingDb} {sid : String} {s : Subscription}
    (h : db₁.Sets sid s db₂) (hs : db.SameLookups db₁) : db.SameLookups db₂ :=
  ⟨h.catalog.trans hs.1, h.customers.trans hs.2⟩

/-- **Dispatch refines the effect.**  Every delivery is handled without an
error and has its effect on the row. -/
theorem dispatch_delivery {db₁ : BillingDb} (hs : db.SameLookups db₁) (d : Delivery h) :
    ∃ db₂ calls, dispatch u db₁ d.now d.event = .ok (db₂, calls) ∧ db.SameLookups db₂ ∧
      db₂.row h.sid = d.effect (db₁.row h.sid) := by
  cases d with
  | synced created v hv now =>
    obtain ⟨⟨customer, m⟩, hm, hfields⟩ := Option.map_eq_some_iff.mp v.known
    have hm' := (syncedFields_congr hs v.data).trans hm
    obtain ⟨db₂, hok, hsets⟩ := syncSubscriptionFromData_spec now hm'
    have hd : dispatch u db₁ now (Delivery.synced created v hv now : Delivery h).event
        = .ok (db₂, []) := by
      cases created <;> simp [Delivery.event, dispatch, hok, Except.map]
    rw [v.id_eq] at hsets
    refine ⟨db₂, [], hd, hsets.sameLookups hs, ?_⟩
    rw [hsets.row, Delivery.effect, ← hfields]
    rcases e : db₁.subscriptions.getByStripeId h.sid with - | existing
    · simp [BillingDb.row, e, Subscription.mirrorRow, Subscription.mirrored, Mirrored.toRow]
    · simp [BillingDb.row, e, Subscription.mirrorRow, Subscription.mirrored, Mirrored.toRow]
  | deleted v hv now =>
    obtain ⟨db₂, calls, hok, hsets⟩ := onSubscriptionDeleted_spec db₁ now v.data
    rw [v.id_eq] at hsets
    refine ⟨db₂, calls, hok, ?_⟩
    rcases e : db₁.subscriptions.getByStripeId h.sid with - | existing
    · -- a deletion before the row is there leaves nothing
      simp only [e] at hsets
      subst hsets
      exact ⟨hs, by simp [BillingDb.row, e, Delivery.effect]⟩
    · simp only [e] at hsets
      refine ⟨hsets.sameLookups hs, ?_⟩
      rw [hsets.row]
      simp [BillingDb.row, e, Delivery.effect, Subscription.mirrorRow, Subscription.mirrored,
        Subscription.markCanceled]
  | scheduleUpserted created d hd now =>
    obtain ⟨db₂, hok, hsets⟩ :=
      onSubscriptionScheduleUpserted_spec db₁ now hd h.sid_ne
    have hdisp : dispatch u db₁ now (Delivery.scheduleUpserted created d hd now : Delivery h).event
        = .ok (db₂, []) := by
      cases created <;> simp [Delivery.event, dispatch, hok, Except.map]
    refine ⟨db₂, [], hdisp, ?_⟩
    rw [announcedChange_congr hs] at hsets
    rcases ea : announcedChange db d with - | ⟨planId, changeAt⟩
    · -- the schedule announces no change to a known plan
      simp only [ea] at hsets
      subst hsets
      exact ⟨hs, by simp [Delivery.effect, ea]⟩
    rcases e : db₁.subscriptions.getByStripeId h.sid with - | existing
    · simp only [ea, e] at hsets
      subst hsets
      exact ⟨hs, by simp [BillingDb.row, e, Delivery.effect, ea]⟩
    · simp only [ea, e] at hsets
      refine ⟨hsets.sameLookups hs, ?_⟩
      rw [hsets.row]
      simp [BillingDb.row, e, Delivery.effect, ea, Subscription.mirrorRow, Subscription.mirrored,
        Subscription.withPending]
  | scheduleCleared how d hd now =>
    obtain ⟨db₂, hok, hsets⟩ :=
      onSubscriptionScheduleCleared_spec db₁ now hd h.sid_ne
    have hdisp : dispatch u db₁ now (Delivery.scheduleCleared how d hd now : Delivery h).event
        = .ok (db₂, []) := by
      cases how <;> simp [Delivery.event, dispatch, hok, Except.map]
    refine ⟨db₂, [], hdisp, ?_⟩
    rcases e : db₁.subscriptions.getByStripeId h.sid with - | existing
    · simp only [e] at hsets
      subst hsets
      exact ⟨hs, by simp [BillingDb.row, e, Delivery.effect]⟩
    · simp only [e] at hsets
      refine ⟨hsets.sameLookups hs, ?_⟩
      rw [hsets.row]
      simp [BillingDb.row, e, Delivery.effect, Subscription.mirrorRow, Subscription.mirrored,
        Subscription.withPending]

/-! ### Runs of deliveries -/

/-- The database between deliveries, and two marks of the past: whether a
deletion, or the end of the schedule, has been applied to an existing row. -/
structure DeliveryState where
  db : BillingDb
  deletionApplied : Bool
  clearApplied : Bool

def DeliveryState.init (db : BillingDb) : DeliveryState := ⟨db, false, false⟩

/-- Process one delivery.  An event whose handler raises is marked failed and
leaves the database as it was. -/
def deliverStep (s : DeliveryState) (d : Delivery h) : Option DeliveryState :=
  let applied := (s.db.row h.sid).isSome
  match dispatch u s.db d.now d.event with
  | .error _ => some s
  | .ok (db', _) => some
      { db := db'
        deletionApplied := s.deletionApplied || d.isDeletion && applied
        clearApplied := s.clearApplied || d.endsSchedule && applied }

/-- Once the deletion is applied the row stays canceled, and once the schedule
has ended nothing is pending. -/
def Settled (sid : String) (s : DeliveryState) : Prop :=
  ∀ r, s.db.row sid = some r →
    (s.deletionApplied = true → r.fields.status = .canceled) ∧
      (s.clearApplied = true → r.scheduledPlanId = none ∧ r.scheduledChangeAt = none)

/-- A delivery that does not revive the row: not a created or updated event with
another status than canceled after the deletion, nor a schedule event that
announces a change after the schedule's end. -/
def NoRevival (s : DeliveryState) : Delivery h → Prop
  | .synced _ v _ _ => s.deletionApplied = true → v.fields.status = .canceled
  | .scheduleUpserted _ d _ _ => s.clearApplied = true → announcedChange db d = none
  | _ => True

/-- What every run keeps: the lookups, and a row once an event was applied. -/
def DeliveryInv (db : BillingDb) (sid : String) (s : DeliveryState) : Prop :=
  db.SameLookups s.db ∧
    (s.deletionApplied = true ∨ s.clearApplied = true → (s.db.row sid).isSome = true)

/-- A step succeeds and has the effect of its delivery. -/
theorem deliverStep_spec {s s' : DeliveryState} {d : Delivery h} (hs : db.SameLookups s.db)
    (hstep : deliverStep s d = some s') :
    db.SameLookups s'.db ∧ s'.db.row h.sid = d.effect (s.db.row h.sid) ∧
      s'.deletionApplied
        = (s.deletionApplied || d.isDeletion && (s.db.row h.sid).isSome) ∧
      s'.clearApplied
        = (s.clearApplied || d.endsSchedule && (s.db.row h.sid).isSome) := by
  obtain ⟨db₂, calls, hok, hs₂, hrow⟩ := dispatch_delivery hs d
  simp only [deliverStep, hok, Option.some.injEq] at hstep
  subst hstep
  exact ⟨hs₂, hrow, rfl, rfl⟩

theorem deliverStep_inv (s : DeliveryState) (d : Delivery h) (s' : DeliveryState)
    (hI : DeliveryInv db h.sid s) (hstep : deliverStep s d = some s') :
    DeliveryInv db h.sid s' := by
  obtain ⟨hs, hrow⟩ := hI
  obtain ⟨hs', heff, hdel, hclr⟩ := deliverStep_spec hs hstep
  refine ⟨hs', fun happ => ?_⟩
  -- the row was there before the step, or this step saw it
  have hbefore : (s.db.row h.sid).isSome = true := by
    rw [hdel, hclr] at happ
    by_contra hne
    have hn : ¬ (s.deletionApplied = true ∨ s.clearApplied = true) := fun h => hne (hrow h)
    push Not at hn
    simp [hn.1, hn.2, hne] at happ
  rw [heff]
  exact d.effect_isSome hbefore

/-- A step keeps the row settled exactly when it does not revive it. -/
theorem deliverStep_settled (s : DeliveryState) (d : Delivery h) (s' : DeliveryState)
    (hI : DeliveryInv db h.sid s) (hP : Settled h.sid s) (hstep : deliverStep s d = some s') :
    Settled h.sid s' ↔ NoRevival s d := by
  obtain ⟨hs, hrow⟩ := hI
  obtain ⟨hs', heff, hdel, hclr⟩ := deliverStep_spec hs hstep
  unfold Settled at hP ⊢
  rw [heff, hdel, hclr]
  rcases hr : s.db.row h.sid with - | r
  · -- no row yet, so nothing was applied
    rw [hr] at hrow
    have hn : s.deletionApplied = false ∧ s.clearApplied = false := by simpa using hrow
    cases d with
    | synced created v hv now =>
      simp [Delivery.effect, Delivery.isDeletion, Delivery.endsSchedule, NoRevival, hn.1, hn.2]
    | deleted v hv now => simp [Delivery.effect, NoRevival]
    | scheduleUpserted created d hd now =>
      rcases ea : announcedChange db d with - | ⟨planId, changeAt⟩ <;>
        simp [Delivery.effect, NoRevival, ea, hn.2]
    | scheduleCleared how d hd now => simp [Delivery.effect, NoRevival]
  · obtain ⟨hPdel, hPclr⟩ := hP r hr
    cases d with
    | synced created v hv now =>
      simp only [Delivery.effect, Delivery.isDeletion, Delivery.endsSchedule, NoRevival]
      simpa using fun _ => hPclr
    | deleted v hv now =>
      simp only [Delivery.effect, Delivery.isDeletion, Delivery.endsSchedule, NoRevival]
      simpa using hPclr
    | scheduleUpserted created d hd now =>
      rcases ea : announcedChange db d with - | ⟨planId, changeAt⟩
      · simp only [Delivery.effect, Delivery.isDeletion, Delivery.endsSchedule, NoRevival, ea]
        simpa using ⟨hPdel, hPclr⟩
      · simp only [Delivery.effect, Delivery.isDeletion, Delivery.endsSchedule, NoRevival, ea]
        simpa using fun _ => hPdel
    | scheduleCleared how d hd now =>
      simp only [Delivery.effect, Delivery.isDeletion, Delivery.endsSchedule, NoRevival]
      simpa using hPdel

/-! ### The final row -/

/-- The last created or updated event delivered, with the time of the last
deletion delivered after it. -/
def lastSynced (ds : List (Delivery h)) : Option (Version u db h.sid × Option Timestamp) :=
  ds.foldl note none
where
  note : Option (Version u db h.sid × Option Timestamp) → Delivery h →
      Option (Version u db h.sid × Option Timestamp)
    | _, .synced _ v _ _ => some (v, none)
    | acc, .deleted _ _ now => acc.map fun (v, _) => (v, some now)
    | acc, _ => acc

/-- The columns of a payload, marked by a deletion after it. -/
def Mirrored.marked (m : Mirrored) : Option Timestamp → Mirrored
  | none => m
  | some now => { m with status := .canceled, canceledAt := some now }

/-- A deletion was delivered at a time. -/
def DeletedAt (ds : List (Delivery h)) (now : Timestamp) : Prop :=
  ∃ v hv, Delivery.deleted v hv now ∈ ds

/-- A run has the effects of its deliveries, one after the other. -/
theorem row_run (ds : List (Delivery h)) :
    ∀ s : DeliveryState, db.SameLookups s.db → ∃ s', Runs.run deliverStep s ds = some s' ∧
      s'.db.row h.sid = ds.foldl (fun r d => d.effect r) (s.db.row h.sid) := by
  induction ds with
  | nil => exact fun s _ => ⟨s, rfl, rfl⟩
  | cons d ds ih =>
    intro s hs
    obtain ⟨db₂, calls, hok, -, -⟩ := dispatch_delivery hs d
    obtain ⟨s₂, hstep⟩ : ∃ s₂, deliverStep s d = some s₂ := by
      simp [deliverStep, hok]
    obtain ⟨hs₂, heff, -, -⟩ := deliverStep_spec hs hstep
    obtain ⟨s', hrun, hrow⟩ := ih s₂ hs₂
    refine ⟨s', ?_, ?_⟩
    · rw [Runs.run_cons, hstep]
      exact hrun
    · rw [hrow, heff, List.foldl_cons]

/-- The last created or updated event decides the columns, and the last
deletion after it marks them. -/
theorem foldl_effect_fields (ds : List (Delivery h)) {v : Version u db h.sid}
    {after : Option Timestamp} (hlast : lastSynced ds = some (v, after)) (r : Option MirrorRow) :
    ∃ r', ds.foldl (fun r d => d.effect r) r = some r' ∧ r'.fields = v.fields.marked after := by
  -- the accumulator and the row agree along the fold
  have hfold : ∀ (ds : List (Delivery h)) acc r,
      (∀ v after, acc = some (v, after) →
        ∃ r', r = some r' ∧ r'.fields = v.fields.marked after) →
      ∀ v after, ds.foldl lastSynced.note acc = some (v, after) →
        ∃ r', ds.foldl (fun r d => d.effect r) r = some r' ∧
          r'.fields = v.fields.marked after := by
    intro ds
    induction ds with
    | nil => exact fun acc r hacc => hacc
    | cons d ds ih =>
      intro acc r hacc
      refine ih (lastSynced.note acc d) (d.effect r) fun v after hnote => ?_
      cases d with
      | synced created w hw now =>
        obtain ⟨rfl, rfl⟩ : w = v ∧ none = after := by simpa [lastSynced.note] using hnote
        exact ⟨_, rfl, rfl⟩
      | deleted w hw now =>
        obtain ⟨⟨w', after'⟩, rfl, heq⟩ := Option.map_eq_some_iff.mp hnote
        obtain ⟨rfl, rfl⟩ := Prod.mk.inj heq
        obtain ⟨r', rfl, hr'⟩ := hacc w' after' rfl
        refine ⟨_, rfl, ?_⟩
        cases after' <;> simp [hr', Mirrored.marked]
      | scheduleUpserted created d hd now =>
        obtain ⟨r', rfl, hr'⟩ := hacc v after hnote
        simp only [Delivery.effect]
        split
        · exact ⟨r', rfl, hr'⟩
        · exact ⟨_, rfl, hr'⟩
      | scheduleCleared how d hd now =>
        obtain ⟨r', rfl, hr'⟩ := hacc v after hnote
        exact ⟨_, rfl, hr'⟩
  exact hfold ds none r (by simp) v after hlast

theorem lastSynced_append (ds : List (Delivery h)) (d : Delivery h) :
    lastSynced (ds ++ [d]) = lastSynced.note (lastSynced ds) d := by
  simp [lastSynced]

/-- A created or updated event among the deliveries has a last one. -/
theorem lastSynced_isSome {ds : List (Delivery h)} {created : Bool} {v : Version u db h.sid}
    {hv : v ∈ h.updates} {now : Timestamp} (hmem : .synced created v hv now ∈ ds) :
    ∃ w after, lastSynced ds = some (w, after) := by
  induction ds using List.reverseRecOn with
  | nil => cases hmem
  | append_singleton ds d ih =>
    rw [lastSynced_append]
    cases d with
    | synced created' w hw now' => exact ⟨w, none, rfl⟩
    | deleted w hw now' =>
      obtain ⟨w', after, hl⟩ := ih (by simpa using hmem)
      exact ⟨w', some now', by rw [hl]; rfl⟩
    | scheduleUpserted created' d hd now' => exact ih (by simpa using hmem)
    | scheduleCleared how d hd now' => exact ih (by simpa using hmem)

/-- The mark comes from a deletion that was delivered. -/
theorem deletedAt_of_lastSynced {ds : List (Delivery h)} {v : Version u db h.sid}
    {now : Timestamp} (hlast : lastSynced ds = some (v, some now)) : DeletedAt ds now := by
  induction ds using List.reverseRecOn with
  | nil => cases hlast
  | append_singleton ds d ih =>
    rw [lastSynced_append] at hlast
    have hweaken : lastSynced ds = some (v, some now) → DeletedAt (ds ++ [d]) now := by
      intro hl
      obtain ⟨w, hw, hmem⟩ := ih hl
      exact ⟨w, hw, List.mem_append_left _ hmem⟩
    cases d with
    | synced created' w hw now' => simp [lastSynced.note] at hlast
    | deleted w hw now' =>
      obtain ⟨⟨w', after'⟩, -, heq⟩ := Option.map_eq_some_iff.mp hlast
      obtain ⟨-, hnow⟩ := Prod.mk.inj heq
      obtain rfl := Option.some.inj hnow
      exact ⟨w, hw, by simp⟩
    | scheduleUpserted created' d hd now' => exact hweaken hlast
    | scheduleCleared how d hd now' => exact hweaken hlast

/-- Plan, seats, period and scheduled cancellation. -/
def Mirrored.terms (m : Mirrored) : UUID × Int × Timestamp × Timestamp × Option Timestamp :=
  (m.planId, m.seatLimit, m.currentPeriodStart, m.currentPeriodEnd, m.cancelAt)

/-- The newest version of the subscription. -/
def History.newest (h : History u db) : Version u db h.sid :=
  h.deletion.getD (h.updates.getLast h.updates_ne)

/-- The row is that of the newest version.  After a deletion it is canceled, at
the time of the handler's clock. -/
def RowIsNewest (ds : List (Delivery h)) (db' : BillingDb) : Prop :=
  ∃ r, db'.row h.sid = some r ∧ r.fields.terms = h.newest.fields.terms ∧
    if h.deletion.isSome then
      r.fields.status = .canceled ∧ ∃ now, DeletedAt ds now ∧ r.fields.canceledAt = some now
    else
      r.fields.status = h.newest.fields.status ∧ r.fields.canceledAt = h.newest.fields.canceledAt

/-- The deliveries end on the newest version: the last created or updated one
says of the subscription what the newest version says, and where that is the
deletion, a deletion was delivered after it (or it already said canceled, at
the time of one). -/
def EndsOnNewest (ds : List (Delivery h)) : Prop :=
  ∃ v after, lastSynced ds = some (v, after) ∧ v.fields.terms = h.newest.fields.terms ∧
    if h.deletion.isSome then
      after.isSome ∨
        v.fields.status = .canceled ∧ ∃ now, DeletedAt ds now ∧ v.fields.canceledAt = some now
    else
      v.fields.status = h.newest.fields.status ∧ v.fields.canceledAt = h.newest.fields.canceledAt

/-- Every version is delivered at least once. -/
structure Complete (ds : List (Delivery h)) : Prop where
  updates : ∀ v ∈ h.updates, ∃ created hv now, .synced created v hv now ∈ ds
  deletion : ∀ v, h.deletion = some v → ∃ hv now, .deleted v hv now ∈ ds

theorem Mirrored.marked_terms (m : Mirrored) (after : Option Timestamp) :
    (m.marked after).terms = m.terms := by
  cases after <;> rfl

/-- The final row is the newest exactly when the deliveries end on it. -/
theorem rowIsNewest_iff {ds : List (Delivery h)} (hds : Complete ds) {s s' : DeliveryState}
    (hs : db.SameLookups s.db) (hrun : Runs.run deliverStep s ds = some s') :
    RowIsNewest ds s'.db ↔ EndsOnNewest ds := by
  obtain ⟨v₀, hv₀⟩ := List.exists_mem_of_ne_nil _ h.updates_ne
  obtain ⟨created, hv, now, hmem⟩ := hds.updates v₀ hv₀
  obtain ⟨v, after, hlast⟩ := lastSynced_isSome hmem
  obtain ⟨s₂, hrun₂, hrow⟩ := row_run ds s hs
  obtain rfl : s' = s₂ := Option.some.inj (hrun.symm.trans hrun₂)
  obtain ⟨r, hr, hfields⟩ := foldl_effect_fields ds hlast (s.db.row h.sid)
  rw [hr] at hrow
  have hleft : RowIsNewest ds s'.db ↔ v.fields.terms = h.newest.fields.terms ∧
      if h.deletion.isSome then
        (v.fields.marked after).status = .canceled ∧
          ∃ now, DeletedAt ds now ∧ (v.fields.marked after).canceledAt = some now
      else
        (v.fields.marked after).status = h.newest.fields.status ∧
          (v.fields.marked after).canceledAt = h.newest.fields.canceledAt := by
    unfold RowIsNewest
    rw [hrow]
    simp only [Option.some.injEq, exists_eq_left', hfields, Mirrored.marked_terms]
  have hright : EndsOnNewest ds ↔ v.fields.terms = h.newest.fields.terms ∧
      if h.deletion.isSome then
        after.isSome ∨
          v.fields.status = .canceled ∧ ∃ now, DeletedAt ds now ∧ v.fields.canceledAt = some now
      else
        v.fields.status = h.newest.fields.status ∧
          v.fields.canceledAt = h.newest.fields.canceledAt := by
    unfold EndsOnNewest
    simp [hlast]
  rw [hleft, hright]
  refine and_congr_right fun _ => ?_
  rcases after with - | τ
  · simp [Mirrored.marked]
  · -- a deletion came last, so there is one in the history
    have hat := deletedAt_of_lastSynced hlast
    obtain ⟨w, hw, -⟩ := hat
    simp only [hw, Option.isSome_some, if_true, true_or, iff_true]
    exact ⟨rfl, τ, deletedAt_of_lastSynced hlast, rfl⟩

/-- **Convergence.**  Over any order of deliveries with any repetitions, the
row ends as the newest version and nothing revives a deleted subscription or an
ended schedule, exactly when the deliveries end on the newest version and none
of them is a revival. -/
theorem deliveries_converge_iff (h : History u db) {ds : List (Delivery h)} (hds : Complete ds) :
    (Runs.Always deliverStep (Settled h.sid) (.init db) ds ∧
      ∃ s', Runs.run deliverStep (.init db) ds = some s' ∧ RowIsNewest ds s'.db) ↔
    Runs.EachStep deliverStep NoRevival (.init db) ds ∧ EndsOnNewest ds := by
  have hI : DeliveryInv db h.sid (.init db) := ⟨⟨rfl, rfl⟩, by simp [DeliveryState.init]⟩
  have hP : Settled h.sid (.init db) := by simp [Settled, DeliveryState.init]
  refine and_congr (Runs.always_iff_eachStep deliverStep_inv deliverStep_settled hI hP) ?_
  obtain ⟨s', hrun, -⟩ := row_run ds (.init db) hI.1
  constructor
  · rintro ⟨s₂, hrun₂, hnew⟩
    exact (rowIsNewest_iff hds hI.1 hrun₂).mp hnew
  · intro hend
    exact ⟨s', hrun, (rowIsNewest_iff hds hI.1 hrun).mpr hend⟩

/-! ### A subscription that is deleted -/

/-- The subscription while it is active. -/
def sampleActive : Version asciiTables sampleDb "sub_1" where
  data := sampleSnapshot "active" none
  fields := ⟨.active, 1, 1, none, 100, 200, none, none, "usd"⟩
  id_eq := rfl
  known := by decide

/-- The subscription when it is deleted. -/
def sampleDeleted : Version asciiTables sampleDb "sub_1" where
  data := sampleSnapshot "canceled" (some 150)
  fields := ⟨.canceled, 1, 1, none, 100, 200, some 150, none, "usd"⟩
  id_eq := rfl
  known := by decide

def sampleHistory : History asciiTables sampleDb :=
  ⟨"sub_1", [sampleActive], some sampleDeleted, by decide, by simp⟩

def sampleCreated (now : Timestamp) : Delivery sampleHistory :=
  .synced true sampleActive (List.mem_singleton.mpr rfl) now

def sampleDeletion (now : Timestamp) : Delivery sampleHistory := .deleted sampleDeleted rfl now

theorem sample_complete {ds : List (Delivery sampleHistory)} (t₁ t₂ : Timestamp)
    (h₁ : sampleCreated t₁ ∈ ds) (h₂ : sampleDeletion t₂ ∈ ds) : Complete ds where
  updates v hv := by
    obtain rfl := List.mem_singleton.mp hv
    exact ⟨true, hv, t₁, h₁⟩
  deletion v hv := by
    obtain rfl := Option.some.inj hv
    exact ⟨hv, t₂, h₂⟩

theorem deliveries_converge_iff_sample :
    (Runs.Always deliverStep (Settled "sub_1") (.init sampleDb)
        [sampleCreated 10, sampleDeletion 150] ∧
      ∃ s', Runs.run deliverStep (.init sampleDb) [sampleCreated 10, sampleDeletion 150] = some s' ∧
        RowIsNewest [sampleCreated 10, sampleDeletion 150] s'.db) ↔
    Runs.EachStep deliverStep NoRevival (.init sampleDb) [sampleCreated 10, sampleDeletion 150] ∧
      EndsOnNewest [sampleCreated 10, sampleDeletion 150] :=
  deliveries_converge_iff sampleHistory (sample_complete 10 150 (by simp) (by simp))

/-- A created event that is delivered again after the deletion leaves the row
active, and a schedule event that is delivered again after the release leaves
its change pending. -/
theorem redelivery_revives :
    let revived := [sampleCreated 10, sampleDeletion 150, sampleCreated 160]
    let pending := [sampleCreated 10, .scheduleUpserted true sampleSchedule rfl 20,
      .scheduleCleared .released sampleSchedule rfl 30,
      .scheduleUpserted true sampleSchedule rfl 40]
    Complete revived ∧
    (Runs.run deliverStep (.init sampleDb) revived).map
        (fun s => (s.deletionApplied, s.db.row "sub_1"))
      = some (true, some ⟨sampleActive.fields, none, none⟩) ∧
    (Runs.run deliverStep (.init sampleDb) pending).map
        (fun s => (s.clearApplied, s.db.row "sub_1"))
      = some (true, some ⟨sampleActive.fields, some 1, some 200⟩) ∧
    ¬ (Runs.Always deliverStep (Settled "sub_1") (.init sampleDb) revived ∧
      ∃ s', Runs.run deliverStep (.init sampleDb) revived = some s' ∧
      RowIsNewest revived s'.db) := by
  have hrun : (Runs.run deliverStep (.init sampleDb)
        [sampleCreated 10, sampleDeletion 150, sampleCreated 160]).map
        (fun s => (s.deletionApplied, s.db.row "sub_1"))
      = some (true, some ⟨sampleActive.fields, none, none⟩) := by decide
  refine ⟨sample_complete 10 150 (by simp) (by simp), hrun, by decide, ?_⟩
  rintro ⟨-, s', hs', r, hr, -, hnew⟩
  rw [hs'] at hrun
  simp only [Option.map_some, Option.some.injEq, Prod.mk.injEq] at hrun
  obtain rfl := Option.some.inj (hr.symm.trans hrun.2)
  exact absurd hnew.1 (by decide)

end Saasmint
