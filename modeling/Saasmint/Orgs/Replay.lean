/-
Saasmint/Orgs/Replay.lean

An event that is processed again: the worker has died after the handler and
before the event was marked as processed (saasmint_core/services/webhooks.py,
apps/orgs/services.py, apps/billing/services.py).

Syncs and schedules write what is already there, a grant finds its session in
the ledger, and a team checkout finds its organization.  But the handler of a
deleted subscription reads the clock, so that `canceled_at` moves to the second
run; and a team checkout schedules the cancellation of the buyer's personal
subscription once more, and mirrors what Stripe answers then.
`replay_harmless_iff` says that nothing else goes wrong.
-/
import Saasmint.Orgs.CheckoutRuns

namespace Saasmint

open Programs PyStr

variable {p : Platform}

/-! ### What is claimed -/

/-- The same subscription rows, organizations, members and customers, the same
ledger and the same balances. -/
structure AppWorld.SameData (w w' : AppWorld p) : Prop where
  tables : w'.store.org.toOrgTables = w.store.org.toOrgTables
  ledger : w'.ledger = w.ledger
  balances : w'.balances = w.balances

/-- What Stripe answers when a cancellation is scheduled again. -/
structure CancelAnswer where
  status : SubscriptionStatus
  cancelAt : Option Timestamp
  canceledAt : Option Timestamp
  deriving DecidableEq, Repr

def CancelAnswer.state (a : CancelAnswer) : StripeCancelState :=
  ⟨a.cancelAt, a.canceledAt, some a.status.value⟩

/-- Stripe at the second run: any of its calls may fail. -/
def StripeBehaviour.answering (sb : StripeBehaviour) (a : CancelAnswer) (fails : Nat → Bool) :
    StripeBehaviour :=
  { sb with
    fails
    status := fun _ => a.status
    cancelAt := fun _ => a.cancelAt
    canceledAt := fun _ => a.canceledAt }

/-- `Subscription.retrieve` answers with the subscription that was asked for, and
that of a session belongs to the customer of the session. -/
structure Retrieves (event : Event) (retrieve : String → Option SubscriptionData) : Prop where
  id_eq : ∀ sid d, retrieve sid = some d → d.id = sid
  customer_eq : ∀ session, event = .checkoutSessionCompleted session → ∀ sid d,
    session.subscription = some sid → retrieve sid = some d → session.customer = some d.customer

section Statement

variable (u : UnicodeTables) (sb : StripeBehaviour) (a : CancelAnswer)
  (retrieve : String → Option SubscriptionData) (event : Event) (w : AppWorld p)

/-- **Processing the event again** later, with no other event in between, changes
nothing.  Stripe has the same subscriptions, if it answers. -/
def ReplayHarmless : Prop :=
  ∀ first w₁, processEvent u sb first retrieve event w = .ok ⟨⟩ w₁ →
    ∀ later fails retrieve', first ≤ later →
      (∀ sid, retrieve' sid = retrieve sid ∨ retrieve' sid = none) →
      w₁.SameData (final (processEvent u (sb.answering a fails) later retrieve' event) w₁)

/-- The buyer has no active personal subscription that Stripe has, or its row
says already what Stripe answers. -/
def AppWorld.RepeatsCancel (user : UUID) : Prop :=
  ∀ customer, w.store.org.customers.find? (fun c => decide (c.owner = .user user)) = some customer →
    ∀ active sid, w.store.billing.activeRow customer.id = some (active, sid) →
      (w.stripe sid).isSome = true → active.mirrorCancelState a.state = active

/-- The event is safe to process again. -/
def ReplaySafe : Prop :=
  match event with
  | .customerSubscriptionDeleted d => w.store.billing.subscriptions.getByStripeId d.id = none
  | .checkoutSessionCompleted session =>
    ∀ user orgName stripeCustomerId livemode subscriptionId,
      checkoutCallbacks session = .ok
        [.onTeamCheckoutCompleted user orgName stripeCustomerId livemode subscriptionId false] →
      ∀ first w₁, processEvent u sb first retrieve event w = .ok ⟨⟩ w₁ → w₁.RepeatsCancel a user
  | _ => True

end Statement

/-! ### Writes that change nothing -/

/-- A handler that finds its work done when it runs again. -/
def Idempotent (handler : BillingDb → Timestamp → Except WebhookError BillingDb) : Prop :=
  ∀ first later db db₁, handler db first = .ok db₁ →
    db₁.catalog = db.catalog ∧ db₁.customers = db.customers ∧ handler db₁ later = .ok db₁

section Rows

variable {u : UnicodeTables} {now : Timestamp} {db : BillingDb}

/-- Saving a row as it is. -/
theorem saveSubscription_self {row : Subscription} (h : row ∈ db.subscriptions.rows) :
    db.saveSubscription now row = .ok db := by
  have hrows : db.subscriptions.savedRows now row = db.subscriptions.rows := by
    unfold SubscriptionTable.savedRows Table.upsert Table.update
    rw [if_pos (List.any_eq_true.mpr ⟨row, h, by simp⟩)]
    conv_rhs => rw [← List.map_id db.subscriptions.rows]
    refine List.map_congr_left fun a ha => ?_
    by_cases hid : a.id = row.id
    · obtain rfl := db.subscriptions.pk.inj ha h (congrArg some hid) rfl
      rw [if_pos rfl]
      rfl
    · exact if_neg hid
  have hsave : db.subscriptions.save now row = some db.subscriptions := by
    unfold SubscriptionTable.save SubscriptionTable.commit
    rw [hrows]
    exact dif_pos ⟨db.subscriptions.pk, db.subscriptions.uniq_stripe_id⟩
  unfold BillingDb.saveSubscription
  rw [hsave]

variable (now) in
/-- A sync of a row that has its columns. -/
theorem sync_of_row {d : SubscriptionData} {customer : StripeCustomer} {m : Mirrored}
    {row : Subscription} (hfields : syncedFields u db d = some (customer, m))
    (hrow : db.subscriptions.getByStripeId d.id = some row) (hm : row.mirrored = m)
    (hcustomer : row.stripeCustomerId = some customer.id)
    (huser : row.userId = customer.owner.userId) :
    syncSubscriptionFromData u db now d = .ok db := by
  obtain ⟨hmem, hsid⟩ := SubscriptionTable.getByStripeId_eq_some_iff.mp hrow
  have hsame : m.toRow d.id customer (some row) db.subscriptions.uuid4 now = row := by
    subst hm
    unfold Mirrored.toRow
    rw [← hsid, ← hcustomer, ← huser]
    rfl
  have hsync : syncRow u db now d (some row) = .ok row :=
    syncRow_ok_iff.mpr ⟨customer, m, hfields, hsame.symm⟩
  unfold syncSubscriptionFromData
  rw [hrow, hsync]
  exact saveSubscription_self hmem

variable (u) in
/-- A sync that comes again. -/
theorem syncIdempotent (d : SubscriptionData) :
    Idempotent fun db now => syncSubscriptionFromData u db now d := by
  intro first later db db₁ h
  obtain ⟨customer, m, hfields⟩ := syncedFields_of_ok h
  obtain ⟨db', hok, hsets⟩ := syncSubscriptionFromData_spec first hfields
  obtain rfl := Except.ok.inj (h.symm.trans hok)
  have hfields' : syncedFields u db₁ d = some (customer, m) := by
    rw [← hfields]
    unfold syncedFields BillingDb.getCustomerByStripeId
    rw [hsets.catalog, hsets.customers]
  exact ⟨hsets.catalog, hsets.customers, sync_of_row later hfields' hsets.found rfl rfl rfl⟩

/-- A schedule that comes again announces what the row has. -/
theorem scheduleUpsertedIdempotent (d : ScheduleData) :
    Idempotent fun db now => onSubscriptionScheduleUpserted db now d := by
  intro first later db db₁ h
  rcases hsid : d.subscription.filter (fun x => decide (x ≠ "")) with - | sid
  · simp only [onSubscriptionScheduleUpserted, hsid] at h ⊢
    cases h
    exact ⟨rfl, rfl, trivial⟩
  obtain ⟨hsub, hne⟩ := Option.filter_eq_some_iff.mp hsid
  obtain ⟨db', hok, heffect⟩ :=
    onSubscriptionScheduleUpserted_spec db first hsub (by simpa using hne)
  obtain rfl := Except.ok.inj (h.symm.trans hok)
  simp only [onSubscriptionScheduleUpserted, hsid]
  rcases hannounced : announcedChange db d with - | ⟨planId, changeAt⟩
  · rw [hannounced] at heffect
    obtain rfl : db₁ = db := heffect
    rw [hannounced]
    exact ⟨rfl, rfl, rfl⟩
  rcases hrow : db.subscriptions.getByStripeId sid with - | existing <;>
    rw [hannounced, hrow] at heffect
  · obtain rfl : db₁ = db := heffect
    rw [hannounced, hrow]
    exact ⟨rfl, rfl, rfl⟩
  · have hsets : db.Sets sid (existing.withPending (some planId) (some changeAt)) db₁ := heffect
    have hannounced' : announcedChange db₁ d = some (planId, changeAt) := by
      unfold announcedChange
      rw [hsets.catalog]
      exact hannounced
    rw [hannounced', hsets.found]
    exact ⟨hsets.catalog, hsets.customers, if_pos ⟨rfl, rfl⟩⟩

theorem scheduleClearedIdempotent (d : ScheduleData) :
    Idempotent fun db now => onSubscriptionScheduleCleared db now d := by
  intro first later db db₁ h
  rcases hsid : d.subscription.filter (fun x => decide (x ≠ "")) with - | sid
  · simp only [onSubscriptionScheduleCleared, hsid] at h ⊢
    cases h
    exact ⟨rfl, rfl, trivial⟩
  obtain ⟨hsub, hne⟩ := Option.filter_eq_some_iff.mp hsid
  obtain ⟨db', hok, heffect⟩ :=
    onSubscriptionScheduleCleared_spec db first hsub (by simpa using hne)
  obtain rfl := Except.ok.inj (h.symm.trans hok)
  simp only [onSubscriptionScheduleCleared, hsid]
  rcases hrow : db.subscriptions.getByStripeId sid with - | existing <;> rw [hrow] at heffect
  · obtain rfl : db₁ = db := heffect
    rw [hrow]
    exact ⟨rfl, rfl, rfl⟩
  · have hsets : db.Sets sid (existing.withPending none none) db₁ := heffect
    rw [hsets.found]
    exact ⟨hsets.catalog, hsets.customers, if_pos ⟨rfl, rfl⟩⟩

end Rows

/-! ### Events without a checkout -/

section Events

variable {u : UnicodeTables} {sb : StripeBehaviour} {a : CancelAnswer}
  {retrieve : String → Option SubscriptionData} {w w₁ : AppWorld p} {now : Timestamp}

theorem AppWorld.SameData.refl (w : AppWorld p) : w.SameData w := ⟨rfl, rfl, rfl⟩

/-- The dispatch, and then the callbacks. -/
theorem processEvent_of_dispatch {event : Event} {db : BillingDb} {calls : List Callback}
    (h : dispatch u w.store.billing now event = .ok (db, calls)) :
    processEvent u sb now retrieve event w = runCallbacks u sb now retrieve calls
      { w with store := w.store.withSubscriptions db.subscriptions } := by
  unfold processEvent
  rw [h]

theorem processEvent_ok {event : Event} (h : processEvent u sb now retrieve event w = .ok ⟨⟩ w₁) :
    ∃ db calls, dispatch u w.store.billing now event = .ok (db, calls) ∧
      runCallbacks u sb now retrieve calls
        { w with store := w.store.withSubscriptions db.subscriptions } = .ok ⟨⟩ w₁ := by
  rcases hd : dispatch u w.store.billing now event with e | ⟨db, calls⟩
  · unfold processEvent at h
    rw [hd] at h
    cases h
  · rw [processEvent_of_dispatch hd] at h
    exact ⟨db, calls, rfl, h⟩

/-- A handler without callbacks that finds its work done. -/
theorem replayHarmless_of_handler {event : Event}
    (handler : BillingDb → Timestamp → Except WebhookError BillingDb)
    (hdispatch : ∀ db now, dispatch u db now event = (handler db now).map fun db' => (db', []))
    (h : Idempotent handler) : ReplayHarmless u sb a retrieve event w := by
  intro first w₁ hfirst later fails retrieve' _ _
  obtain ⟨db, calls, hd, hrun⟩ := processEvent_ok hfirst
  rw [hdispatch] at hd
  rcases hhandler : handler w.store.billing first with e | db' <;> rw [hhandler] at hd <;> cases hd
  cases hrun
  obtain ⟨hcatalog, hcustomers, hagain⟩ := h first later _ _ hhandler
  have hbilling : (w.store.withSubscriptions db.subscriptions).billing = db := by
    rw [Store.withSubscriptions_billing]
    show BillingDb.mk w.store.billing.catalog w.store.billing.customers db.subscriptions = db
    rw [← hcatalog, ← hcustomers]
  have hd' : dispatch u (w.store.withSubscriptions db.subscriptions).billing later event
      = .ok (db, []) := by
    rw [hdispatch, hbilling, hagain]
    rfl
  unfold final
  rw [processEvent_of_dispatch hd']
  exact ⟨rfl, rfl, rfl⟩

variable (u sb retrieve now) in
/-- The callback of a deletion only enqueues a task. -/
theorem runCallbacks_orgCanceled (db : BillingDb) (existing : Subscription) (w : AppWorld p) :
    ∃ w', runCallbacks u sb now retrieve (orgCanceledCallbacks db existing) w = .ok ⟨⟩ w' ∧
      w'.store = w.store := by
  unfold orgCanceledCallbacks
  split
  · exact ⟨w, rfl, rfl⟩
  · dsimp only
    split
    · exact ⟨_, rfl, rfl⟩
    · exact ⟨w, rfl, rfl⟩

variable (u sb retrieve) in
/-- The row of a deleted subscription has the time of the run. -/
theorem deleted_run {d : SubscriptionData} {existing : Subscription}
    (h : w.store.billing.subscriptions.getByStripeId d.id = some existing) (now : Timestamp) :
    ∃ w₁, processEvent u sb now retrieve (.customerSubscriptionDeleted d) w = .ok ⟨⟩ w₁ ∧
      w₁.store.billing.subscriptions.getByStripeId d.id = some (existing.markCanceled now) := by
  obtain ⟨db, hsave, hsets⟩ :=
    saveSubscription_existing now (existing.markCanceled now) h rfl rfl rfl
  have hd : dispatch u w.store.billing now (.customerSubscriptionDeleted d)
      = .ok (db, orgCanceledCallbacks w.store.billing existing) := by
    simp only [dispatch, onSubscriptionDeleted, h, hsave, bind, Except.bind, pure, Except.pure]
  obtain ⟨w₁, hrun, hstore⟩ := runCallbacks_orgCanceled u sb retrieve now w.store.billing
    existing { w with store := w.store.withSubscriptions db.subscriptions }
  refine ⟨w₁, (processEvent_of_dispatch hd).trans hrun, ?_⟩
  rw [hstore]
  exact hsets.found

/-- **A deletion** is harmless to repeat exactly when there is no row. -/
theorem replayHarmless_deleted_iff {d : SubscriptionData} :
    ReplayHarmless u sb a retrieve (.customerSubscriptionDeleted d) w ↔
      w.store.billing.subscriptions.getByStripeId d.id = none := by
  constructor
  · intro h
    rcases hrow : w.store.billing.subscriptions.getByStripeId d.id with - | existing
    · rfl
    · -- the second run writes its own time
      obtain ⟨w₁, hfirst, hrow₁⟩ := deleted_run u sb retrieve hrow 0
      obtain ⟨w₂, hsecond, hrow₂⟩ := deleted_run u (sb.answering a fun _ => false) retrieve
        hrow₁ 1
      have hsame :=
        (h 0 w₁ hfirst 1 (fun _ => false) retrieve (by decide) fun _ => Or.inl rfl).tables
      unfold final at hsame
      rw [hsecond] at hsame
      have hsubs : w₂.store.billing.subscriptions = w₁.store.billing.subscriptions :=
        SubscriptionTable.ext (congrArg OrgTables.subscriptions hsame)
      rw [hsubs, hrow₁] at hrow₂
      have hmoved := congrArg Subscription.canceledAt (Option.some.inj hrow₂)
      cases hmoved
  · intro hrow first w₁ hfirst later fails retrieve' _ _
    have hd : ∀ now, dispatch u w.store.billing now (.customerSubscriptionDeleted d)
        = .ok (w.store.billing, []) := fun now => by
      simp only [dispatch, onSubscriptionDeleted, hrow]
    rw [processEvent_of_dispatch (hd first)] at hfirst
    obtain rfl : w = w₁ := (EStateM.Result.ok.inj hfirst).2
    unfold final
    rw [processEvent_of_dispatch (hd later)]
    exact ⟨rfl, rfl, rfl⟩

/-- A grant that comes again finds its session. -/
theorem grantForSession_again {sessionId : String} {productId userId : UUID} {orgId : Option UUID}
    (h : grantForSession sessionId productId userId orgId w = .ok ⟨⟩ w₁) :
    grantForSession sessionId productId userId orgId w₁ = .ok ⟨⟩ w₁ := by
  have hfirst := h
  unfold grantForSession at h
  split at h
  case h_1 => cases h; exact hfirst
  case h_2 => cases h
  case h_3 g hg =>
    split at h
    case isTrue => cases h
    case isFalse hfits =>
      split at h
      case isTrue => cases h; exact hfirst
      case isFalse =>
        dsimp only at h
        split at h
        case isFalse => cases h
        case isTrue =>
          cases h
          unfold grantForSession
          split
          case h_1 hskip => cases hg.symm.trans hskip
          case h_2 hraise => cases hg.symm.trans hraise
          case h_3 g' hg' =>
            obtain rfl := GrantRequest.grant.inj (hg.symm.trans hg')
            rw [if_neg hfits]
            exact if_pos (List.any_eq_true.mpr
              ⟨_, List.mem_append_right _ (List.mem_singleton.mpr rfl), by simp⟩)

end Events

/-! ### Team checkouts -/

/-- The eager sync of a team checkout. -/
def eagerSync (u : UnicodeTables) (now : Timestamp) (retrieve : String → Option SubscriptionData)
    (subscriptionId : Option String) : App p PUnit :=
  match subscriptionId with
  | none => pure ⟨⟩
  | some sid => persistTeamSubscription u now retrieve sid

theorem eagerSync_some {u : UnicodeTables} {now : Timestamp}
    {retrieve : String → Option SubscriptionData} {sid : String} {d : SubscriptionData}
    (h : retrieve sid = some d) :
    (eagerSync u now retrieve (some sid) : App p PUnit) = syncIntoStore u now d := by
  show persistTeamSubscription u now retrieve sid = _
  unfold persistTeamSubscription
  rw [h]

theorem eagerSync_none {u : UnicodeTables} {now : Timestamp}
    {retrieve : String → Option SubscriptionData} {sid : String} (h : retrieve sid = none) :
    (eagerSync u now retrieve (some sid) : App p PUnit) = throw .stripeError := by
  show persistTeamSubscription u now retrieve sid = _
  unfold persistTeamSubscription
  rw [h]

/-- The last part of a team checkout. -/
def cancelUnlessKept (sb : StripeBehaviour) (now : Timestamp) (user : UUID) (keepPersonal : Bool) :
    App p PUnit :=
  if keepPersonal then pure ⟨⟩ else schedulePersonalCancelAtPeriodEnd sb now user

section Team

variable {u : UnicodeTables} {sb : StripeBehaviour} {a : CancelAnswer}
  {retrieve : String → Option SubscriptionData} {w w' w₁ : AppWorld p} {now : Timestamp}
  {user : UUID} {orgName stripeCustomerId : String} {subscriptionId : Option String}

/-- The parts of a team checkout. -/
theorem onTeamCheckoutCompleted_eq (keepPersonal : Bool) :
    (onTeamCheckoutCompleted u sb now retrieve user orgName stripeCustomerId subscriptionId
      keepPersonal : App p PUnit) = (do
        requireUser user
        createOrgForCheckout user orgName stripeCustomerId
        eagerSync u now retrieve subscriptionId
        cancelUnlessKept sb now user keepPersonal) := by
  cases subscriptionId <;> rfl

/-- What a team checkout has done once its eager sync is through. -/
structure TeamReady (u : UnicodeTables) (retrieve : String → Option SubscriptionData) (user : UUID)
    (stripeCustomerId : String) (subscriptionId : Option String) (w : AppWorld p) : Prop where
  user_exists : (w.store.org.users.any fun x => x.id = user) = true
  created : w.store.org.alreadyCreated stripeCustomerId user = true
  synced : ∀ sid, subscriptionId = some sid → ∃ d customer m row, retrieve sid = some d ∧
    syncedFields u w.store.billing d = some (customer, m) ∧
    w.store.billing.subscriptions.getByStripeId d.id = some row ∧ row.mirrored = m ∧
    row.stripeCustomerId = some customer.id ∧ row.userId = customer.owner.userId ∧
    customer ∈ w.store.org.customers ∧ customer.stripeId = stripeCustomerId

variable (sb now orgName) in
/-- A checkout of which everything is there repeats only its last part, or fails
at Stripe. -/
theorem TeamReady.again (h : TeamReady u retrieve user stripeCustomerId subscriptionId w)
    {retrieve' : String → Option SubscriptionData} (keepPersonal : Bool)
    (hagree : ∀ sid, retrieve' sid = retrieve sid ∨ retrieve' sid = none) :
    onTeamCheckoutCompleted u sb now retrieve' user orgName stripeCustomerId subscriptionId
        keepPersonal w = cancelUnlessKept sb now user keepPersonal w ∨
      (retrieve' ≠ retrieve ∧ onTeamCheckoutCompleted u sb now retrieve' user orgName
        stripeCustomerId subscriptionId keepPersonal w = .error .stripeError w) := by
  have huser : requireUser user w = .ok ⟨⟩ w := if_pos h.user_exists
  have hcreate : createOrgForCheckout user orgName stripeCustomerId w = .ok ⟨⟩ w :=
    if_pos h.created
  rw [onTeamCheckoutCompleted_eq, bind_of_ok huser, bind_of_ok hcreate]
  rcases hsub : subscriptionId with - | sid
  · exact Or.inl (bind_of_ok rfl)
  obtain ⟨d, customer, m, row, hd, hfields, hrow, hm, hcustomer, hrowUser, -⟩ := h.synced sid hsub
  rcases hagree sid with hsame | hnone
  · -- the sync writes what is there
    have hsync := sync_of_row now hfields hrow hm hcustomer hrowUser
    have heager : eagerSync u now retrieve' (some sid) w = .ok ⟨⟩ w := by
      rw [eagerSync_some (hsame.trans hd)]
      unfold syncIntoStore
      rw [hsync]
      rfl
    exact Or.inl (bind_of_ok heager)
  · refine Or.inr ⟨fun heq => ?_, ?_⟩
    · rw [heq, hd] at hnone
      cases hnone
    · have heager : eagerSync u now retrieve' (some sid) w = .error .stripeError w := by
        rw [eagerSync_none hnone]
        rfl
      exact bind_of_error heager

/-- The organization of a checkout that went on is there. -/
theorem createOrgForCheckout_created
    (h : createOrgForCheckout user orgName stripeCustomerId w = .ok ⟨⟩ w') :
    w'.store.org.alreadyCreated stripeCustomerId user = true ∧
      w'.store.org.users = w.store.org.users := by
  unfold createOrgForCheckout at h
  split at h
  case isTrue hcreated =>
    cases h
    exact ⟨hcreated, rfl⟩
  case isFalse =>
    unfold insertOrgForCheckout at h
    split at h
    case isTrue => cases h
    case isFalse =>
      rcases hcommit : w.store.commit
          (w.store.org.insertOrg user orgName (w.slugFor orgName)
            stripeCustomerId) with - | store <;>
        rw [hcommit] at h <;> cases h
      obtain ⟨htables, -⟩ := Store.commit_eq_some hcommit
      have husers : store.org.users = w.store.org.users := by
        rw [htables]
        rfl
      refine ⟨OrgDb.alreadyCreated_iff.mpr ?_, husers⟩
      refine ⟨⟨w.store.org.nextKey + 2, stripeCustomerId, .org w.store.org.nextKey⟩,
        ?_, rfl, _, rfl,
        ⟨⟨w.store.org.nextKey, orgName, w.slugFor orgName, some user⟩, ?_, rfl⟩,
        ⟨w.store.org.nextKey + 1, w.store.org.nextKey, user, .owner, true⟩, ?_, rfl, rfl⟩
      · exact congrArg OrgTables.customers htables ▸
          List.mem_append_right _ (List.mem_singleton.mpr rfl)
      · exact congrArg OrgTables.orgs htables ▸ List.mem_append_right _ (List.mem_singleton.mpr rfl)
      · exact congrArg OrgTables.members htables ▸
          List.mem_append_right _ (List.mem_singleton.mpr rfl)

/-- The eager sync leaves the row of what Stripe answered. -/
theorem eagerSync_ready (huser : (w.store.org.users.any fun x => x.id = user) = true)
    (hcreated : w.store.org.alreadyCreated stripeCustomerId user = true)
    (hcustomer : ∀ sid d, subscriptionId = some sid → retrieve sid = some d →
      d.customer = stripeCustomerId)
    (h : eagerSync u now retrieve subscriptionId w = .ok ⟨⟩ w') :
    TeamReady u retrieve user stripeCustomerId subscriptionId w' := by
  rcases hsub : subscriptionId with - | sid <;> rw [hsub] at h
  · cases h
    exact ⟨huser, hcreated, fun sid h => by cases h⟩
  rcases hd : retrieve sid with - | d
  · rw [eagerSync_none hd] at h
    cases h
  rw [eagerSync_some hd] at h
  unfold syncIntoStore at h
  rcases hsync : syncSubscriptionFromData u w.store.billing now d with e | db <;>
    rw [hsync] at h <;>
    cases h
  obtain ⟨customer, m, hfields⟩ := syncedFields_of_ok hsync
  obtain ⟨db', hok, hsets⟩ := syncSubscriptionFromData_spec now hfields
  obtain rfl := Except.ok.inj (hsync.symm.trans hok)
  refine ⟨huser, hcreated, fun sid' hsid' => ?_⟩
  obtain rfl := Option.some.inj hsid'
  have hfind : w.store.billing.getCustomerByStripeId d.customer = some customer := by
    rw [syncedFields_eq] at hfields
    obtain ⟨c, hc, hmap⟩ := Option.bind_eq_some_iff.mp hfields
    obtain ⟨m', -, heq⟩ := Option.map_eq_some_iff.mp hmap
    rw [hc, (Prod.mk.inj heq).1]
  have hid : customer.stripeId = d.customer := by simpa using List.find?_some hfind
  exact ⟨d, customer, m, _, hd, hfields, hsets.found, rfl, rfl, rfl,
    List.mem_of_find?_eq_some hfind,
    hid.trans (hcustomer sid d hsub hd)⟩

/-- The cancellation of the personal subscription leaves it. -/
theorem cancelUnlessKept_ready (h : TeamReady u retrieve user stripeCustomerId subscriptionId w)
    {keepPersonal : Bool} (hrun : cancelUnlessKept sb now user keepPersonal w = .ok ⟨⟩ w') :
    TeamReady u retrieve user stripeCustomerId subscriptionId w' := by
  unfold cancelUnlessKept at hrun
  split at hrun
  case isTrue =>
    cases hrun
    exact h
  case isFalse =>
    unfold schedulePersonalCancelAtPeriodEnd at hrun
    rcases hfind : w.store.org.customers.find? fun c => decide (c.owner = .user user) with
      - | personal <;> simp only [hfind] at hrun
    · cases hrun
      exact h
    have howner : personal.owner = .user user := by simpa using List.find?_some hfind
    have hafter : ∀ bw : BillingWorld, RowsOf personal.id w.billing.db bw.db →
        TeamReady u retrieve user stripeCustomerId subscriptionId (w.afterBilling bw) := by
      intro bw hbw
      refine ⟨h.user_exists, h.created, fun sid hsid => ?_⟩
      obtain ⟨d, customer, m, row, hd, hfields, hrow, hm, hcus, huser, hmem, hstripe⟩ :=
        h.synced sid hsid
      -- the customer of the checkout is not the personal one
      have hne : customer.id ≠ personal.id := by
        intro hid
        obtain ⟨c, hc, hcid, k, hk, -⟩ := OrgDb.alreadyCreated_iff.mp h.created
        obtain rfl := w.store.org.constraints.customer_pk.inj hmem (List.mem_of_find?_eq_some hfind)
          (congrArg some hid) rfl
        obtain rfl := w.store.org.constraints.customer_stripe_id.inj hc hmem (congrArg some hcid)
          (congrArg some hstripe)
        rw [hk] at howner
        cases howner
      obtain ⟨hrowMem, hrowSid⟩ := SubscriptionTable.getByStripeId_eq_some_iff.mp hrow
      have hrow' : row ∈ bw.db.subscriptions.rows := (hbw.rows row fun hr =>
        hne (Option.some.inj (hcus.symm.trans hr))).mpr hrowMem
      exact ⟨d, customer, m, row, hd, hfields,
        SubscriptionTable.getByStripeId_eq_some_iff.mpr ⟨hrow', hrowSid⟩, hm, hcus, huser,
        hmem, hstripe⟩
    have hcancel := cancelSubscription_rowsOf sb personal.id now true w.billing
    unfold wp at hcancel
    rcases hrun' : cancelSubscription sb now personal.id true w.billing with ⟨x, bw⟩ | ⟨e, bw⟩ <;>
      rw [hrun'] at hcancel <;> simp only [hrun'] at hrun
    · cases hrun
      exact hafter bw hcancel
    · cases e <;> cases hrun
      exact hafter bw hcancel

/-- A checkout that succeeds leaves everything there. -/
theorem teamReady_first {keepPersonal : Bool}
    (hcustomer : ∀ sid d, subscriptionId = some sid → retrieve sid = some d →
      d.customer = stripeCustomerId)
    (h : onTeamCheckoutCompleted u sb now retrieve user orgName stripeCustomerId subscriptionId
      keepPersonal w = .ok ⟨⟩ w₁) :
    TeamReady u retrieve user stripeCustomerId subscriptionId w₁ := by
  rw [onTeamCheckoutCompleted_eq] at h
  obtain ⟨_, wa, huser, h⟩ := bind_eq_ok h
  obtain ⟨_, wb, hcreate, h⟩ := bind_eq_ok h
  obtain ⟨_, wc, heager, hcancel⟩ := bind_eq_ok h
  have huser' : (w.store.org.users.any fun x => x.id = user) = true ∧ wa = w := by
    unfold requireUser at huser
    split at huser <;> cases huser
    exact ⟨‹_›, rfl⟩
  obtain ⟨hexists, rfl⟩ := huser'
  obtain ⟨hcreated, husers⟩ := createOrgForCheckout_created hcreate
  exact cancelUnlessKept_ready
    (eagerSync_ready (by rw [husers]; exact hexists) hcreated hcustomer heager) hcancel

end Team

/-! ### The second cancellation -/

section Cancel

variable {sb : StripeBehaviour} {a : CancelAnswer} {fails : Nat → Bool} {now : Timestamp}
  {cid : UUID} {w : BillingWorld} {active : Subscription} {sid : String}

/-- The active row of a customer. -/
theorem activeRow_spec {db : BillingDb} (h : db.activeRow cid = some (active, sid)) :
    active ∈ db.subscriptions.rows ∧ active.stripeId = some sid := by
  refine ⟨?_, BillingDb.activeRow_stripeId h⟩
  obtain ⟨row, hlatest, hrow⟩ := Option.bind_eq_some_iff.mp h
  obtain ⟨id, -, heq⟩ := Option.map_eq_some_iff.mp hrow
  obtain ⟨rfl, rfl⟩ := Prod.mk.inj heq
  exact (List.mem_filter.mp (Table.mem_of_latest? hlatest)).1

/-- The release of a schedule leaves the rows, and the subscription at Stripe where
it was. -/
theorem releasePendingSchedule_keeps :
    wp (releasePendingSchedule sb sid)
      (fun _ w' => w'.db = w.db ∧ (w'.stripe sid).isSome = (w.stripe sid).isSome)
      (fun _ w' => w'.db = w.db) w := by
  rw [releasePendingSchedule, wp_bind]
  refine Stripe.wp_subscriptionRetrieve_of rfl fun sub hsub => ?_
  rcases hsch : sub.schedule with - | ref
  · exact ⟨rfl, rfl⟩
  simp only [Stripe.scheduleRetrieve, Stripe.attached, wp_bind, Stripe.wp_issue,
    Stripe.wp_lookup, BillingWorld.record_stripe, hsub, hsch, if_true, wp_pure]
  split
  · rfl
  · split
    · rw [Stripe.scheduleRelease, wp_bind]
      refine Stripe.wp_change_of rfl fun n sub' _ => ⟨rfl, ?_⟩
      rw [BillingWorld.setStripe_self]
      rfl
    · exact ⟨rfl, by simp [hsub]⟩

variable (sb fails now) in
/-- A cancellation whose answer the row has already. -/
theorem cancelSubscription_keeps
    (h : ∀ active sid, w.db.activeRow cid = some (active, sid) → (w.stripe sid).isSome = true →
      active.mirrorCancelState a.state = active) :
    wp (cancelSubscription (sb.answering a fails) now cid true) (fun _ w' => w'.db = w.db)
      (fun _ w' => w'.db = w.db) w := by
  rw [cancelSubscription, wp_bind, wp_loadActive]
  rcases hact : w.db.activeRow cid with - | ⟨active, sid⟩
  · rfl
  have hmodify : ∀ w', w'.db = w.db → (w'.stripe sid).isSome = (w.stripe sid).isSome →
      wp (Stripe.subscriptionModifyCancelAt (sb.answering a fails) sid "min_period_end" >>=
        mirrorCancelStateFromStripe now active) (fun _ w' => w'.db = w.db)
        (fun _ w' => w'.db = w.db) w' := by
    intro w' hdb hstripe
    rw [Stripe.subscriptionModifyCancelAt, wp_bind]
    refine Stripe.wp_change_of hdb fun n sub hsub => ?_
    have hsame : active.mirrorCancelState a.state = active :=
      h active sid hact (by rw [← hstripe, hsub]; rfl)
    have hsaved : w'.db.saveSubscription now (active.mirrorCancelState a.state) = .ok w'.db := by
      rw [hsame]
      exact saveSubscription_self (hdb ▸ (activeRow_spec hact).1)
    show wp (saveRow now (active.mirrorCancelState a.state)) _ _ _
    refine (wp_saveRow_of_ok ?_).mpr hdb
    exact hsaved
  simp only [if_true]
  split
  · rw [wp_bind]
    exact wp_mono releasePendingSchedule_keeps (fun _ w' h => hmodify w' h.1 h.2) fun _ _ h => h
  · exact hmodify w rfl rfl

/-- Where no call fails, a schedule is released, and the subscription stays. -/
theorem releasePendingSchedule_succeeds {sub : StripeSubscription}
    (hsub : w.stripe sid = some sub) :
    wp (releasePendingSchedule (sb.answering a fun _ => false) sid)
      (fun _ w' => w'.db = w.db ∧ ∃ sub', w'.stripe sid = some sub') (fun _ _ => False) w := by
  have hfails : ∀ n, (sb.answering a fun _ => false).fails n = false := fun _ => rfl
  rw [releasePendingSchedule, wp_bind, Stripe.wp_subscriptionRetrieve, hfails, hsub]
  rcases hsch : sub.schedule with - | ref
  · simp only [Bool.false_eq_true, if_false, hsch, wp_pure]
    exact ⟨rfl, sub, hsub⟩
  simp only [Bool.false_eq_true, if_false, hsch, Stripe.scheduleRetrieve, Stripe.attached, wp_bind,
    Stripe.wp_issue, Stripe.wp_lookup, BillingWorld.record_stripe, hsub, hfails, if_true, wp_pure]
  split
  · rw [Stripe.scheduleRelease, wp_bind, Stripe.wp_change, hfails]
    simp only [Bool.false_eq_true, if_false, BillingWorld.record_stripe, hsub, wp_pure]
    exact ⟨rfl, _, BillingWorld.setStripe_self ..⟩
  · exact ⟨rfl, sub, hsub⟩

variable (sb a now) in
/-- Where no call fails, a cancellation leaves its answer in the row. -/
theorem cancelSubscription_mirrors (hact : w.db.activeRow cid = some (active, sid))
    (hstripe : (w.stripe sid).isSome = true) :
    wp (cancelSubscription (sb.answering a fun _ => false) now cid true)
      (fun _ w' => active.mirrorCancelState a.state ∈ w'.db.subscriptions.rows)
      (fun _ _ => False) w := by
  have hmodify : ∀ w', w'.db = w.db → (∃ sub, w'.stripe sid = some sub) →
      wp (Stripe.subscriptionModifyCancelAt (sb.answering a fun _ => false) sid "min_period_end" >>=
        mirrorCancelStateFromStripe now active)
        (fun _ w' => active.mirrorCancelState a.state ∈ w'.db.subscriptions.rows)
        (fun _ _ => False) w' := by
    rintro w' hdb ⟨sub, hsub⟩
    obtain ⟨hmem, hsid⟩ := activeRow_spec hact
    obtain ⟨db', hsaved, hsets⟩ := saveSubscription_existing now
      (active.mirrorCancelState a.state)
      (show w'.db.subscriptions.getByStripeId sid = some active from
        SubscriptionTable.getByStripeId_eq_some_iff.mpr ⟨hdb ▸ hmem, hsid⟩) rfl rfl rfl
    rw [Stripe.subscriptionModifyCancelAt, wp_bind, Stripe.wp_change, hsub]
    show wp (saveRow now (active.mirrorCancelState a.state)) _ _ _
    refine (wp_saveRow_of_ok ?_).mpr
      (SubscriptionTable.getByStripeId_eq_some_iff.mp hsets.found).1
    exact hsaved
  obtain ⟨sub, hsub⟩ := Option.isSome_iff_exists.mp hstripe
  rw [cancelSubscription, wp_bind, wp_loadActive, hact]
  simp only [if_true]
  split
  · rw [wp_bind]
    exact wp_mono (releasePendingSchedule_succeeds hsub) (fun _ w' h => hmodify w' h.1 h.2)
      fun _ _ h => h.elim
  · exact hmodify w rfl ⟨sub, hsub⟩

end Cancel

/-! ### Checkouts -/

section Checkouts

variable {u : UnicodeTables} {sb : StripeBehaviour} {a : CancelAnswer}
  {retrieve : String → Option SubscriptionData} {w w₁ : AppWorld p} {now : Timestamp}
  {session : SessionData} {user : UUID}

/-- The cancellation leaves the data alone when the row has its answer. -/
theorem schedulePersonalCancel_sameData {fails : Nat → Bool} (h : w.RepeatsCancel a user) :
    w.SameData (final (schedulePersonalCancelAtPeriodEnd (sb.answering a fails) now user) w) := by
  rw [← wp_final_iff (P := fun w' : AppWorld p => w.SameData w')]
  unfold wp schedulePersonalCancelAtPeriodEnd
  rcases hfind : w.store.org.customers.find? fun c =>
    decide (c.owner = .user user) with - | personal
  · simp only [hfind]
    exact .refl w
  simp only [hfind]
  have hafter : ∀ bw : BillingWorld, bw.db = w.billing.db → w.SameData (w.afterBilling bw) := by
    intro bw hbw
    refine ⟨?_, rfl, rfl⟩
    unfold AppWorld.afterBilling
    rw [hbw]
    rfl
  have hkeeps := cancelSubscription_keeps sb fails now (w := w.billing) (h personal hfind)
  unfold wp at hkeeps
  rcases hrun : cancelSubscription (sb.answering a fails) now personal.id true w.billing with
    ⟨x, bw⟩ | ⟨e, bw⟩ <;> rw [hrun] at hkeeps
  · exact hafter bw hkeeps
  · cases e <;> exact hafter bw hkeeps

/-- ... and only then, where no call fails. -/
theorem repeatsCancel_of_sameData
    (h : w.SameData
      (final (schedulePersonalCancelAtPeriodEnd (sb.answering a fun _ => false) now user) w)) :
    w.RepeatsCancel a user := by
  intro personal hfind active sid hact hstripe
  have hmirrors := cancelSubscription_mirrors sb a now (w := w.billing) hact hstripe
  unfold wp at hmirrors
  rcases hrun : cancelSubscription (sb.answering a fun _ => false) now personal.id true
    w.billing with
    ⟨x, bw⟩ | ⟨e, bw⟩ <;> rw [hrun] at hmirrors
  · have htables := h.tables
    unfold final schedulePersonalCancelAtPeriodEnd at htables
    simp only [hfind, hrun] at htables
    have hrows : bw.db.subscriptions.rows = w.store.org.subscriptions :=
      congrArg OrgTables.subscriptions htables
    have hmem : active.mirrorCancelState a.state ∈ w.store.org.subscriptions := hrows ▸ hmirrors
    exact w.store.org.constraints.subscription_pk.inj hmem (activeRow_spec hact).1 rfl rfl
  · exact hmirrors.elim

/-- What a checkout session is about. -/
theorem checkoutCallbacks_cases {calls : List Callback}
    (h : checkoutCallbacks session = .ok calls) :
    calls = [] ∨
      (∃ sessionId productId userId orgId,
        calls = [.onProductCheckoutCompleted sessionId productId userId orgId]) ∨
      ∃ user orgName stripeCustomerId keepPersonal,
        calls = [.onTeamCheckoutCompleted user orgName stripeCustomerId session.livemode
          session.subscription keepPersonal] ∧ session.customer = some stripeCustomerId := by
  unfold checkoutCallbacks at h
  split at h
  case isTrue =>
    cases h
    unfold productCheckoutCallbacks
    split
    · split
      · split
        · exact Or.inr (Or.inl ⟨_, _, _, _, rfl⟩)
        · split
          · exact Or.inr (Or.inl ⟨_, _, _, _, rfl⟩)
          · exact Or.inl rfl
      · exact Or.inl rfl
    · exact Or.inl rfl
  case isFalse =>
    split at h
    case h_1 =>
      split at h
      case h_1 => cases h
      case h_2 =>
        split at h <;> cases h
        case h_1 => exact Or.inl rfl
        case h_2 cus hcus =>
          exact Or.inr (Or.inr ⟨_, _, cus, _, rfl, (Option.filter_eq_some_iff.mp hcus).1⟩)
    case h_2 =>
      cases h
      exact Or.inl rfl

/-- A checkout event is its callbacks. -/
theorem processEvent_session {calls : List Callback} (h : checkoutCallbacks session = .ok calls) :
    processEvent u sb now retrieve (.checkoutSessionCompleted session) w
      = runCallbacks u sb now retrieve calls w := by
  have hd : dispatch u w.store.billing now (.checkoutSessionCompleted session)
      = .ok (w.store.billing, calls) := by
    rw [dispatch, h]
    rfl
  exact processEvent_of_dispatch hd

/-- One callback. -/
theorem runCallbacks_one (call : Callback) :
    (runCallbacks u sb now retrieve [call] : App p PUnit) = call.run u sb now retrieve := by
  rw [runCallbacks, runCallbacks, bind_pure_unit]

/-- A session that is not a team checkout without the personal subscription. -/
theorem replaySafe_of_other {calls : List Callback} (h : checkoutCallbacks session = .ok calls)
    (hother : ∀ user orgName cus livemode sid,
      calls ≠ [.onTeamCheckoutCompleted user orgName cus livemode sid false]) :
    ReplaySafe u sb a retrieve (.checkoutSessionCompleted session) w := by
  intro user orgName cus livemode sid hteam
  exact absurd (Except.ok.inj (h.symm.trans hteam)) (hother user orgName cus livemode sid)

/-- A callback that changes nothing when it comes again. -/
theorem replayHarmless_of_callback {call : Callback} (h : checkoutCallbacks session = .ok [call])
    (hagain : ∀ first w₁, call.run u sb first retrieve w = .ok ⟨⟩ w₁ →
      ∀ later fails retrieve', (∀ sid, retrieve' sid = retrieve sid ∨ retrieve' sid = none) →
        w₁.SameData (final (call.run u (sb.answering a fails) later retrieve') w₁)) :
    ReplayHarmless u sb a retrieve (.checkoutSessionCompleted session) w := by
  intro first w₁ hfirst later fails retrieve' _ hagree
  rw [processEvent_session h, runCallbacks_one] at hfirst
  unfold final
  rw [processEvent_session h, runCallbacks_one]
  exact hagain first w₁ hfirst later fails retrieve' hagree

/-- **A team checkout** is harmless to repeat exactly when the cancellation of the
buyer's personal subscription is. -/
theorem replayHarmless_team_iff {orgName stripeCustomerId : String} {keepPersonal : Bool}
    (hretrieve : Retrieves (.checkoutSessionCompleted session) retrieve)
    (hcalls : checkoutCallbacks session = .ok [.onTeamCheckoutCompleted user orgName
      stripeCustomerId session.livemode session.subscription keepPersonal])
    (hcustomer : session.customer = some stripeCustomerId) :
    ReplayHarmless u sb a retrieve (.checkoutSessionCompleted session) w ↔
      (keepPersonal = false → ∀ first w₁, processEvent u sb first retrieve
        (.checkoutSessionCompleted session) w = .ok ⟨⟩ w₁ → w₁.RepeatsCancel a user) := by
  have hready : ∀ first w₁, processEvent u sb first retrieve (.checkoutSessionCompleted session) w
      = .ok ⟨⟩ w₁ → TeamReady u retrieve user stripeCustomerId session.subscription w₁ := by
    intro first w₁ hfirst
    rw [processEvent_session hcalls, runCallbacks_one] at hfirst
    refine teamReady_first (fun sid d hsub hd => ?_) hfirst
    have := hretrieve.customer_eq session rfl sid d hsub hd
    exact (Option.some.inj (hcustomer.symm.trans this)).symm
  constructor
  · rintro h rfl first w₁ hfirst
    have hsame := h first w₁ hfirst first (fun _ => false) retrieve le_rfl fun _ => Or.inl rfl
    unfold final at hsame
    rw [processEvent_session hcalls, runCallbacks_one] at hsame
    rcases (hready first w₁ hfirst).again (sb.answering a fun _ => false) first orgName false
      (fun sid => (Or.inl rfl : retrieve sid = retrieve sid ∨ _)) with hagain | ⟨hne, -⟩
    · have hrun : (Callback.onTeamCheckoutCompleted user orgName stripeCustomerId session.livemode
          session.subscription false).run u (sb.answering a fun _ => false) first retrieve w₁
          = schedulePersonalCancelAtPeriodEnd (sb.answering a fun _ => false) first user w₁ :=
        hagain
      rw [hrun] at hsame
      exact repeatsCancel_of_sameData hsame
    · exact absurd rfl hne
  · intro h
    refine replayHarmless_of_callback hcalls fun first w₁ hfirst later fails retrieve' hagree => ?_
    have hfirst' : processEvent u sb first retrieve (.checkoutSessionCompleted session) w
        = .ok ⟨⟩ w₁ := by
      rw [processEvent_session hcalls, runCallbacks_one]
      exact hfirst
    unfold final
    rw [show (Callback.onTeamCheckoutCompleted user orgName stripeCustomerId session.livemode
      session.subscription keepPersonal).run u (sb.answering a fails) later retrieve' w₁ =
        onTeamCheckoutCompleted u (sb.answering a fails) later retrieve' user orgName
          stripeCustomerId session.subscription keepPersonal w₁ from rfl]
    rcases (hready first w₁ hfirst').again (sb.answering a fails) later orgName keepPersonal
      hagree with hagain | ⟨-, hfailed⟩
    · rw [hagain]
      cases keepPersonal with
      | true => exact .refl w₁
      | false => exact schedulePersonalCancel_sameData (h rfl first w₁ hfirst')
    · rw [hfailed]
      exact .refl w₁

/-- **A checkout** is harmless to repeat exactly when the cancellation of a
personal subscription is. -/
theorem replayHarmless_checkout_iff
    (hretrieve : Retrieves (.checkoutSessionCompleted session) retrieve) :
    ReplayHarmless u sb a retrieve (.checkoutSessionCompleted session) w ↔
      ReplaySafe u sb a retrieve (.checkoutSessionCompleted session) w := by
  rcases hcalls : checkoutCallbacks session with e | calls
  · -- the event fails, and is not processed
    refine iff_of_true (fun first w₁ hfirst => ?_) fun user orgName cus livemode sid hteam => ?_
    · obtain ⟨db, calls, hd, -⟩ := processEvent_ok hfirst
      rw [dispatch, hcalls] at hd
      cases hd
    · cases hcalls.symm.trans hteam
  rcases checkoutCallbacks_cases hcalls with rfl | ⟨sessionId, productId, userId, orgId, rfl⟩ |
    ⟨user, orgName, cus, keep, rfl, hcus⟩
  · refine iff_of_true (fun first w₁ hfirst later fails retrieve' _ _ => ?_)
      (replaySafe_of_other hcalls fun _ _ _ _ _ => by simp)
    unfold final
    rw [processEvent_session hcalls]
    exact .refl w₁
  · refine iff_of_true (replayHarmless_of_callback hcalls ?_)
      (replaySafe_of_other hcalls fun _ _ _ _ _ => by simp)
    intro first w₁ hfirst later fails retrieve' _
    have hagain : (Callback.onProductCheckoutCompleted sessionId productId userId orgId).run u
        (sb.answering a fails) later retrieve' w₁ = .ok ⟨⟩ w₁ := grantForSession_again hfirst
    unfold final
    rw [hagain]
    exact .refl w₁
  · rw [replayHarmless_team_iff hretrieve hcalls hcus]
    cases keep with
    | true =>
      refine iff_of_true (fun h => ?_) (replaySafe_of_other hcalls fun _ _ _ _ _ h => by simp at h)
      cases h
    | false =>
      refine ⟨fun h user' orgName' cus' livemode' sid' hteam => ?_, fun h _ => h _ _ _ _ _ hcalls⟩
      have heq := Except.ok.inj (hcalls.symm.trans hteam)
      simp only [List.cons.injEq, Callback.onTeamCheckoutCompleted.injEq, and_true] at heq
      exact heq.1 ▸ h rfl

end Checkouts

/-- **Event replay** changes nothing, for every event and every state in which it
succeeds, except that a deletion moves the time of the cancellation, and that a
team checkout mirrors Stripe's answer to the second cancellation of the buyer's
personal subscription. -/
theorem replay_harmless_iff {u : UnicodeTables} {sb : StripeBehaviour} {a : CancelAnswer}
    {retrieve : String → Option SubscriptionData} {event : Event} {w : AppWorld p}
    (hretrieve : Retrieves event retrieve) :
    ReplayHarmless u sb a retrieve event w ↔ ReplaySafe u sb a retrieve event w := by
  cases event with
  | checkoutSessionCompleted session => exact replayHarmless_checkout_iff hretrieve
  | customerSubscriptionDeleted d => exact replayHarmless_deleted_iff
  | customerSubscriptionCreated d | customerSubscriptionUpdated d =>
    exact iff_of_true (replayHarmless_of_handler _ (fun _ _ => rfl) (syncIdempotent u d)) trivial
  | subscriptionScheduleCreated d | subscriptionScheduleUpdated d =>
    exact iff_of_true (replayHarmless_of_handler _ (fun _ _ => rfl) (scheduleUpsertedIdempotent d))
      trivial
  | subscriptionScheduleReleased d | subscriptionScheduleCanceled d
  | subscriptionScheduleAborted d =>
    exact iff_of_true (replayHarmless_of_handler _ (fun _ _ => rfl) (scheduleClearedIdempotent d))
      trivial
  | invoicePaymentSucceeded | invoicePaymentFailed | unhandled =>
    exact iff_of_true (replayHarmless_of_handler (fun db _ => .ok db) (fun _ _ => rfl)
      fun _ _ _ _ h => ⟨by cases h; rfl, by cases h; rfl, rfl⟩) trivial

/-- What Stripe has of the sample checkout. -/
def sampleRetrieve (sid : String) : Option SubscriptionData :=
  if sid = "sub_1" then some sampleTeamVersion.data else none

theorem replay_harmless_iff_sample :
    ReplayHarmless asciiTables sampleBehaviour ⟨.active, some 300, some 200⟩ sampleRetrieve
        (.checkoutSessionCompleted (samplePurchase "acme" (by decide)).session)
        (sampleTeamWorld "acme") ↔
      ReplaySafe asciiTables sampleBehaviour ⟨.active, some 300, some 200⟩ sampleRetrieve
        (.checkoutSessionCompleted (samplePurchase "acme" (by decide)).session)
        (sampleTeamWorld "acme") := by
  refine replay_harmless_iff ⟨fun sid d h => ?_, fun session hs sid d _ h => ?_⟩
  · obtain ⟨rfl, hd⟩ := Option.ite_none_right_eq_some.mp h
    obtain rfl := Option.some.inj hd
    rfl
  · obtain ⟨-, hd⟩ := Option.ite_none_right_eq_some.mp h
    obtain rfl := Option.some.inj hd
    cases hs
    rfl

/-! ### A deletion that is processed twice -/

/-- An organization with the active subscription sub_1. -/
def sampleReplayWorld : AppWorld wordPlatform where
  store := sampleOrphanStore .active .canceled
  ledger := []
  balances := []
  orgDeletions := []
  stripe := fun _ => none
  issued := []

/-- The recorded time of the cancellation moves to the second run. -/
theorem replayed_deletion_moves_canceledAt :
    ¬ ReplayHarmless asciiTables sampleBehaviour ⟨.active, none, none⟩ (fun _ => none)
      (.customerSubscriptionDeleted (sampleSnapshot "canceled" none)) sampleReplayWorld := by
  rw [replayHarmless_deleted_iff]
  decide +kernel

end Saasmint
