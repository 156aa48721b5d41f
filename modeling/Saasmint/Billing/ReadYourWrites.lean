/-
Saasmint/Billing/ReadYourWrites.lean

What a caller reads right after cancel, resume, a seat change or the release of
a pending change, before any webhook is processed.

A row *describes* a subscription at Stripe when its status, its cancellation,
its seats and its pending change are those of the subscription.  The four
requests keep that and touch nothing else, with one exception: a cancel that
releases a schedule mirrors the cancellation but leaves the pending change in
the row (`read_your_writes_iff`).
-/
import Saasmint.Billing.PinnedCalls

namespace Saasmint

open Programs PyStr

variable {u : UnicodeTables} {sb : StripeBehaviour} {now : Timestamp}

/-! ### What a row shows -/

/-- The schedule as events and retrieves show it. -/
def StripeSchedule.data (s : StripeSchedule) (sid : String) : ScheduleData where
  subscription := some sid
  phases := s.phases.map fun ph => ⟨[.ref (some ph.priceId)], ph.startDate, ph.endDate⟩

/-- The change that the live schedule of a subscription announces. -/
def StripeSubscription.pendingChange (db : BillingDb) (sid : String) (sub : StripeSubscription) :
    Option (UUID × Timestamp) :=
  (sub.schedule.filter StripeSchedule.isLive).bind fun s => announcedChange db (s.data sid)

/-- `int(item.get("quantity") or 1)`. -/
def StripeItem.seats (item : StripeItem) : Int :=
  match item.quantity with
  | none => 1
  | some q => if q = 0 then 1 else q

/-- The row shows what Stripe has. -/
structure Subscription.Describes (db : BillingDb) (sid : String) (row : Subscription)
    (sub : StripeSubscription) : Prop where
  status : row.status = sub.status
  cancelAt : row.cancelAt = sub.cancelAt
  canceledAt : row.canceledAt = sub.canceledAt
  seatLimit : row.seatLimit = sub.item.seats
  scheduledPlanId : row.scheduledPlanId = (sub.pendingChange db sid).map Prod.fst
  scheduledChangeAt : row.scheduledChangeAt = (sub.pendingChange db sid).map Prod.snd

/-- The columns that no request writes are the same. -/
def Subscription.SameOtherwise (row row' : Subscription) : Prop :=
  row' = { row with
    status := row'.status
    cancelAt := row'.cancelAt
    canceledAt := row'.canceledAt
    seatLimit := row'.seatLimit
    scheduledPlanId := row'.scheduledPlanId
    scheduledChangeAt := row'.scheduledChangeAt }

/-- The row under `sid` describes the subscription, and otherwise is as it was. -/
def ReadsWrites (sid : String) (row : Subscription) (w : BillingWorld) : Prop :=
  ∃ row' sub, w.db.subscriptions.getByStripeId sid = some row' ∧ w.stripe sid = some sub ∧
    row'.Describes w.db sid sub ∧ row.SameOtherwise row'

/-- The customer whose row a request writes back. -/
def BillingRequest.customer : BillingRequest → Option UUID
  | changePlan .. => none
  | updateSeatCount cid _ | cancelSubscription cid _ | resumeSubscription cid
  | releasePendingSchedule cid => some cid

/-- The request is a cancel. -/
def BillingRequest.isCancel : BillingRequest → Bool
  | cancelSubscription .. => true
  | _ => false

/-! ### Facts about rows -/

variable {db db' : BillingDb} {sid : String} {row : Subscription} {sub : StripeSubscription}

theorem pendingChange_congr (h : db'.catalog = db.catalog) :
    sub.pendingChange db' sid = sub.pendingChange db sid := by
  unfold StripeSubscription.pendingChange announcedChange
  rw [h]

theorem pendingChange_of_not_pinned (h : sub.pinned = false) : sub.pendingChange db sid = none := by
  unfold StripeSubscription.pinned at h
  unfold StripeSubscription.pendingChange
  rcases e : sub.schedule with - | s
  · rfl
  · rw [e, Option.any_some] at h
    simp [Option.filter_some, h]

theorem activeRow_found {cid : UUID} (h : db.activeRow cid = some (row, sid)) :
    db.subscriptions.getByStripeId sid = some row := by
  obtain ⟨active, hact, hrow⟩ := Option.bind_eq_some_iff.mp h
  obtain ⟨id, hid, heq⟩ := Option.map_eq_some_iff.mp hrow
  obtain ⟨rfl, rfl⟩ := Prod.mk.inj heq
  have hmem := Table.mem_of_latest? hact
  exact SubscriptionTable.getByStripeId_eq_some_iff.mpr ⟨(List.mem_filter.mp hmem).1, hid⟩

theorem mirrorCancelState_describes (h : row.Describes db sid sub) (hdb : db'.catalog = db.catalog)
    {sub' : StripeSubscription} (hitem : sub'.item = sub.item)
    (hpending : sub'.pendingChange db sid = sub.pendingChange db sid) :
    (row.mirrorCancelState sub'.cancelState).Describes db' sid sub' where
  status := by
    simp [Subscription.mirrorCancelState, StripeCancelState.knownStatus,
      StripeSubscription.cancelState]
  cancelAt := rfl
  canceledAt := rfl
  seatLimit := h.seatLimit.trans (by rw [hitem])
  scheduledPlanId := by
    rw [pendingChange_congr hdb, hpending]
    exact h.scheduledPlanId
  scheduledChangeAt := by
    rw [pendingChange_congr hdb, hpending]
    exact h.scheduledChangeAt

/-! ### What a request leaves -/

variable {w : BillingWorld}

/-- Saving an update of the row that was read does not raise. -/
theorem saveRow_spec (new : Subscription) (hrow : w.db.subscriptions.getByStripeId sid = some row)
    (hid : new.id = row.id) (hsid : new.stripeId = row.stripeId)
    (hcreated : new.createdAt = row.createdAt) :
    wp (saveRow now new) (fun _ w' => w'.stripe = w.stripe ∧ w.db.Sets sid new w'.db)
      (fun _ _ => False) w := by
  obtain ⟨db', hsave, hsets⟩ := saveSubscription_existing now new hrow hid hsid hcreated
  rw [wp_saveRow, hsave]
  exact ⟨rfl, hsets⟩

/-- A call that sets the cancellation, and its mirror. -/
theorem mirroredCall_spec {call : StripeCall}
    (hrow : w.db.subscriptions.getByStripeId sid = some row) (hsub : w.stripe sid = some sub) :
    wp (Stripe.change sb sid call (Stripe.setCancelState sb)
      >>= mirrorCancelStateFromStripe now row)
      (fun _ w' => ∃ sub', w'.stripe sid = some sub' ∧ sub'.item = sub.item ∧
        sub'.schedule = sub.schedule ∧
        w.db.Sets sid (row.mirrorCancelState sub'.cancelState) w'.db)
      (fun _ _ => True) w := by
  rw [wp_bind, Stripe.wp_change]
  split_ifs
  simp only [hsub, mirrorCancelStateFromStripe]
  refine wp_mono (saveRow_spec _ hrow rfl rfl rfl) ?_ fun _ _ h => h.elim
  rintro - w' ⟨hstripe, hsets⟩
  refine ⟨Stripe.setCancelState sb w.issued.length sub, ?_, rfl, rfl, hsets⟩
  rw [hstripe]
  exact Function.update_self ..

/-- A release leaves the subscription unpinned and otherwise as it was. -/
theorem releasePendingSchedule_leaves (hsub : w.stripe sid = some sub) :
    wp (releasePendingSchedule sb sid)
      (fun _ w' => w'.db = w.db ∧ ∃ sub', w'.stripe sid = some sub' ∧ sub'.pinned = false ∧
        sub' = { sub with schedule := sub'.schedule })
      (fun _ _ => True) w := by
  simp only [releasePendingSchedule, wp_bind, Stripe.wp_subscriptionRetrieve]
  split_ifs
  rw [hsub]
  rcases hsch : sub.schedule with - | schedule
  · simp only [hsch, wp_pure]
    exact ⟨rfl, sub, hsub, by simp [StripeSubscription.pinned, hsch], rfl⟩
  · simp only [hsch, Stripe.scheduleRetrieve, Stripe.attached, wp_bind, Stripe.wp_issue,
      Stripe.wp_lookup, BillingWorld.record_stripe, hsub, if_true, wp_pure]
    split_ifs with hfail hlive
    · simp only [Stripe.scheduleRelease, wp_bind, Stripe.wp_change, BillingWorld.record_stripe,
        hsub, wp_pure]
      split_ifs
      refine ⟨rfl, { sub with schedule := none }, Function.update_self .., ?_, rfl⟩
      simp [StripeSubscription.pinned]
    · -- a terminal schedule stays
      refine ⟨rfl, sub, hsub, ?_, rfl⟩
      simpa [StripeSubscription.pinned, hsch] using hlive

/-! ### The requests -/

/-- A mirrored call on a subscription whose schedule it leaves alone. -/
theorem mirroredCall_readsWrites {call : StripeCall}
    (hrow : w.db.subscriptions.getByStripeId sid = some row) (hsub : w.stripe sid = some sub)
    (h : row.Describes w.db sid sub) :
    wp (Stripe.change sb sid call (Stripe.setCancelState sb)
      >>= mirrorCancelStateFromStripe now row)
      (fun _ w' => ReadsWrites sid row w') (fun _ _ => True) w := by
  refine wp_mono (mirroredCall_spec hrow hsub) ?_ fun _ _ h => h
  rintro - w' ⟨sub', hsub', hitem, hsch, hsets⟩
  have hpending : sub'.pendingChange w.db sid = sub.pendingChange w.db sid := by
    rw [StripeSubscription.pendingChange, hsch]
    rfl
  exact ⟨_, sub', hsets.found, hsub', mirrorCancelState_describes h hsets.catalog hitem hpending,
    rfl⟩

theorem resumeSubscription_readsWrites {cid : UUID} (hact : w.db.activeRow cid = some (row, sid))
    (hsub : w.stripe sid = some sub) (h : row.Describes w.db sid sub) :
    wp (resumeSubscription sb now cid) (fun _ w' => ReadsWrites sid row w')
    (fun _ _ => True) w := by
  rw [resumeSubscription, wp_bind, wp_loadActive, hact]
  exact mirroredCall_readsWrites (activeRow_found hact) hsub h

/-- A cancel keeps the row in step unless the row shows a pending change. -/
theorem cancelSubscription_readsWrites {cid : UUID} {atPeriodEnd : Bool}
    (hact : w.db.activeRow cid = some (row, sid)) (hsub : w.stripe sid = some sub)
    (h : row.Describes w.db sid sub) (hpending : row.scheduledPlanId = none) :
    wp (cancelSubscription sb now cid atPeriodEnd) (fun _ w' => ReadsWrites sid row w')
      (fun _ _ => True) w := by
  rw [cancelSubscription, wp_bind, wp_loadActive, hact]
  simp only [hpending, Option.isSome_none, Bool.false_eq_true, if_false]
  split
  · exact mirroredCall_readsWrites (activeRow_found hact) hsub h
  · exact mirroredCall_readsWrites (activeRow_found hact) hsub h

/-- A cancel that releases the schedule leaves its change in the row. -/
theorem cancelSubscription_stale {cid planId : UUID} {atPeriodEnd : Bool}
    (hact : w.db.activeRow cid = some (row, sid)) (hsub : w.stripe sid = some sub)
    (hpending : row.scheduledPlanId = some planId) :
    wp (cancelSubscription sb now cid atPeriodEnd) (fun _ w' => ¬ ReadsWrites sid row w')
      (fun _ _ => True) w := by
  have hcall : ∀ (call : StripeCall) (w' : BillingWorld) (sub' : StripeSubscription),
      w'.db = w.db → w'.stripe sid = some sub' → sub'.pinned = false →
      wp (Stripe.change sb sid call (Stripe.setCancelState sb) >>=
          mirrorCancelStateFromStripe now row)
        (fun _ w'' => ¬ ReadsWrites sid row w'') (fun _ _ => True) w' := by
    intro call w' sub' hdb hsub' hp
    refine wp_mono (mirroredCall_spec (hdb ▸ activeRow_found hact) hsub') ?_ fun _ _ h => h
    rintro - w'' ⟨sub'', hsub'', -, hsch, hsets⟩ ⟨row₂, sub₂, hrow₂, hsub₂, hdesc, -⟩
    obtain rfl := Option.some.inj (hsets.found.symm.trans hrow₂)
    obtain rfl := Option.some.inj (hsub''.symm.trans hsub₂)
    have hnone : sub''.pendingChange w''.db sid = none :=
      pendingChange_of_not_pinned (by rw [StripeSubscription.pinned, hsch]; exact hp)
    have hplan := hdesc.scheduledPlanId
    rw [hnone] at hplan
    exact absurd (hpending.symm.trans hplan) (by simp)
  rw [cancelSubscription, wp_bind, wp_loadActive, hact]
  simp only [hpending, Option.isSome_some, if_true, wp_bind]
  refine wp_mono (releasePendingSchedule_leaves hsub) ?_ fun _ _ h => h
  rintro - w' ⟨hdb, sub', hsub', hp, -⟩
  split
  · exact hcall _ w' sub' hdb hsub' hp
  · exact hcall _ w' sub' hdb hsub' hp

theorem releasePendingScheduleForCustomer_readsWrites {cid : UUID}
    (hact : w.db.activeRow cid = some (row, sid)) (hsub : w.stripe sid = some sub)
    (h : row.Describes w.db sid sub) :
    wp (releasePendingScheduleForCustomer sb now cid) (fun _ w' => ReadsWrites sid row w')
      (fun _ _ => True) w := by
  rw [releasePendingScheduleForCustomer, wp_bind, wp_loadActive, hact]
  simp only [wp_bind]
  refine wp_mono (releasePendingSchedule_leaves hsub) ?_ fun _ _ h => h
  rintro - w' ⟨hdb, sub', hsub', hp, heq⟩
  have hnone : ∀ db, sub'.pendingChange db sid = none := fun db => pendingChange_of_not_pinned hp
  have hrow : w'.db.subscriptions.getByStripeId sid = some row := hdb ▸ activeRow_found hact
  have hcleared : ∀ db, (row.withPending none none).Describes db sid sub' := fun db =>
    { status := h.status.trans (by rw [heq])
      cancelAt := h.cancelAt.trans (by rw [heq])
      canceledAt := h.canceledAt.trans (by rw [heq])
      seatLimit := h.seatLimit.trans (by rw [heq])
      scheduledPlanId := by rw [hnone]; rfl
      scheduledChangeAt := by rw [hnone]; rfl }
  split
  case isTrue =>
    refine wp_mono (saveRow_spec _ hrow rfl rfl rfl) ?_ fun _ _ h => h.elim
    rintro - w'' ⟨hstripe, hsets⟩
    exact ⟨_, sub', hsets.found, hstripe ▸ hsub', hcleared _, rfl⟩
  case isFalse hno =>
    -- nothing was pending
    have hsame : row.withPending none none = row := by
      simp only [Bool.or_eq_true, not_or, Option.not_isSome_iff_eq_none] at hno
      rw [Subscription.withPending, ← hno.1, ← hno.2]
    exact ⟨row, sub', hrow, hsub', hsame ▸ hcleared _, rfl⟩

theorem updateSeatCount_readsWrites {quantity : Int}
    (hrow : w.db.subscriptions.getByStripeId sid = some row) (hsub : w.stripe sid = some sub)
    (h : row.Describes w.db sid sub) :
    wp (updateSeatCount sb now row quantity) (fun _ w' => ReadsWrites sid row w')
      (fun _ _ => True) w := by
  have hsid : row.stripeId = some sid := (SubscriptionTable.getByStripeId_eq_some_iff.mp hrow).2
  by_cases hq : quantity < 1
  · rw [updateSeatCount, if_pos hq]
    trivial
  rw [updateSeatCount_eq sb now hsid (by omega), changeSeats, wp_bind]
  refine Stripe.wp_subscriptionRetrieve_of trivial fun sub' hsub' => ?_
  obtain rfl := Option.some.inj (hsub.symm.trans hsub')
  rcases hquant : sub.item.quantity with - | current
  · trivial
  rw [wp_bind]
  refine Stripe.wp_change_of trivial fun n sub' hsub' => ?_
  obtain rfl := Option.some.inj (hsub.symm.trans hsub')
  have hseats : (Stripe.itemUpdate sub.item none quantity).seats = quantity := by
    have : quantity ≠ 0 := by omega
    simp [Stripe.itemUpdate, StripeItem.seats, this]
  have hdesc : ∀ db, db.catalog = w.db.catalog → ({ row with seatLimit := quantity }).Describes db
      sid { sub with item := Stripe.itemUpdate sub.item none quantity } := fun db hdb =>
    { h with
      seatLimit := hseats.symm
      scheduledPlanId := h.scheduledPlanId.trans (congrArg _ (pendingChange_congr hdb).symm)
      scheduledChangeAt := h.scheduledChangeAt.trans (congrArg _ (pendingChange_congr hdb).symm) }
  split
  case isTrue =>
    refine wp_mono (saveRow_spec _ hrow rfl rfl rfl) ?_ fun _ _ h => h.elim
    rintro - w' ⟨hstripe, hsets⟩
    refine ⟨_, _, hsets.found, ?_, hdesc _ hsets.catalog, rfl⟩
    rw [hstripe]
    exact Function.update_self ..
  case isFalse heq =>
    -- the row has these seats already
    have hsame : { row with seatLimit := quantity } = row := by
      rw [← not_ne_iff.mp heq]
    exact ⟨row, _, hrow, Function.update_self .., hsame ▸ hdesc _ rfl, rfl⟩

/-- **Read your writes.**  After a cancel, resume, seat change or release that
succeeded, the row describes Stripe and is otherwise as it was, exactly unless
the request was a cancel and the row showed a pending change. -/
theorem read_your_writes_iff {r : BillingRequest} {cid : UUID} {w' : BillingWorld}
    (hr : r.customer = some cid) (hact : w.db.activeRow cid = some (row, sid))
    (hsub : w.stripe sid = some sub) (h : row.Describes w.db sid sub)
    (hrun : r.service u sb now w = .ok ⟨⟩ w') :
    ReadsWrites sid row w' ↔ ¬ (r.isCancel = true ∧ row.scheduledPlanId.isSome = true) := by
  cases r with
  | changePlan sid new newPriceAmount prorate quantity => cases hr
  | updateSeatCount cid' quantity =>
    obtain rfl := Option.some.inj hr
    have hwp : wp ((BillingRequest.updateSeatCount cid' quantity).service u sb now)
        (fun _ w' => ReadsWrites sid row w') (fun _ _ => True) w := by
      show wp (loadActive cid' _ >>= _) _ _ w
      rw [wp_bind, wp_loadActive, hact]
      exact updateSeatCount_readsWrites (activeRow_found hact) hsub h
    have hreads := wp_ok hwp hrun
    exact iff_of_true hreads (by simp [BillingRequest.isCancel])
  | resumeSubscription cid' =>
    obtain rfl := Option.some.inj hr
    have hreads := wp_ok (resumeSubscription_readsWrites hact hsub h) hrun
    exact iff_of_true hreads (by simp [BillingRequest.isCancel])
  | releasePendingSchedule cid' =>
    obtain rfl := Option.some.inj hr
    have hreads := wp_ok (releasePendingScheduleForCustomer_readsWrites hact hsub h) hrun
    exact iff_of_true hreads (by simp [BillingRequest.isCancel])
  | cancelSubscription cid' atPeriodEnd =>
    obtain rfl := Option.some.inj hr
    rcases hpending : row.scheduledPlanId with - | planId
    · have hreads := wp_ok (cancelSubscription_readsWrites hact hsub h hpending) hrun
      exact iff_of_true hreads (by simp)
    · have hstale := wp_ok (cancelSubscription_stale hact hsub hpending) hrun
      exact iff_of_false hstale (by simp [BillingRequest.isCancel])

/-! ### A cancel with a pending change -/

/-- The sample subscription with a downgrade to the plan of its price at 200. -/
def samplePinned : StripeSubscription :=
  { sampleStripeSubscription with
    schedule := some
      { id := "sub_sched_1"
        status := .active
        phases :=
          [⟨"price_usd", 1, 1, some 100, some 200, []⟩, ⟨"price_usd", 1, 1, some 200, none, []⟩] } }

/-- The row that shows it. -/
def samplePendingRow : Subscription := sampleRow.withPending (some 1) (some 200)

def samplePinnedWorld : BillingWorld where
  stripe sid := if sid = "sub_1" then some samplePinned else none
  db := { sampleDb with subscriptions := ⟨[samplePendingRow], by decide, by decide⟩ }
  issued := []

theorem samplePendingRow_describes :
    samplePendingRow.Describes samplePinnedWorld.db "sub_1" samplePinned :=
  ⟨by decide, by decide, by decide, by decide, by decide, by decide⟩

/-- A run that ends in a world that satisfies what `final` says. -/
theorem eq_ok_final {m : Service PUnit} {w : BillingWorld}
    (h : (match m w with | .ok _ _ => true | .error _ _ => false) = true) :
    m w = .ok ⟨⟩ (final m w) := by
  unfold final
  rcases e : m w with ⟨a, w'⟩ | ⟨e', w'⟩
  · rfl
  · rw [e] at h
    cases h

theorem read_your_writes_iff_sample :
    ReadsWrites "sub_1" samplePendingRow
        (final ((BillingRequest.releasePendingSchedule 3).service asciiTables sampleBehaviour 120)
          samplePinnedWorld) ↔
      ¬ ((BillingRequest.releasePendingSchedule 3).isCancel = true ∧
        samplePendingRow.scheduledPlanId.isSome = true) :=
  read_your_writes_iff rfl (by decide) rfl samplePendingRow_describes (eq_ok_final (by decide))

/-- The cancel of the sample subscription releases its schedule, and the row
goes on to show the change. -/
theorem cancel_keeps_released_change :
    samplePendingRow.Describes samplePinnedWorld.db "sub_1" samplePinned ∧
    ∃ w', (BillingRequest.cancelSubscription 3 true).service asciiTables sampleBehaviour 120
        samplePinnedWorld = .ok ⟨⟩ w' ∧
      (w'.stripe "sub_1").map StripeSubscription.schedule = some none ∧
      (w'.db.subscriptions.getByStripeId "sub_1").map Subscription.scheduledPlanId
        = some (some 1) ∧
      ¬ ReadsWrites "sub_1" samplePendingRow w' := by
  refine ⟨samplePendingRow_describes, _, eq_ok_final (by decide), by decide, by decide, ?_⟩
  have hstale : wp (cancelSubscription sampleBehaviour 120 3 true)
      (fun _ w' => ¬ ReadsWrites "sub_1" samplePendingRow w') (fun _ _ => True)
      samplePinnedWorld := cancelSubscription_stale (by decide) rfl rfl
  exact wp_ok hstale (eq_ok_final (by decide))

end Saasmint
