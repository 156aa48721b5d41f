/-
Saasmint/Billing/PendingChange.lean

The pending change of a schedule, from the services that write its phases
(saasmint_core/services/subscriptions.py) to the handler that reads them
(saasmint_core/services/webhooks.py).

A deferred downgrade has two phases to send that meet at the end of the period.
Coming back in an event they would be read as the new price at that time, and
the handler would write its plan into the row and nothing else
(`downgradePhases_announced`).  It sends none: it raises before its first call
(`downgrade_never_announced`).

The handler always reads the boundary between the first two phases, whichever
phase is the current one.  On a schedule of any number of phases this is the
change to come exactly as long as the first phase is current and there is a
second one; of a single phase there is nothing to announce
(`pending_follows_current_iff`).
-/
import Saasmint.Billing.ReadYourWrites

namespace Saasmint

open Programs PyStr

variable {u : UnicodeTables} {sb : StripeBehaviour} {now : Timestamp} {w : BillingWorld}
  {db : BillingDb} {sid : String} {row : Subscription} {d : ScheduleData}

/-! ### The phases sent -/

/-- A schedule of `sid` was given these phases between `w` and `w'`. -/
def BillingWorld.PhasesSent (w w' : BillingWorld) (sid : String) (phases : List StripePhase) :
    Prop :=
  ∃ c ∈ w'.issued.drop w.issued.length, ∃ id, c.call = .scheduleModify sid id phases

/-! ### The event that comes back -/

/-- The event is about the schedule of `sid` with these phases: each with its
item, whose price is an id or an expanded object, and with the dates sent. -/
structure ScheduleData.Carries (d : ScheduleData) (sid : String) (phases : List StripePhase) :
    Prop where
  subscription : d.subscription = some sid
  phases : List.Forall₂ (fun shown ph =>
    (∃ price : PhasePrice, shown.items = [price] ∧ price.priceId = some ph.priceId) ∧
      (∀ t, ph.startDate = some t → shown.startDate = some t) ∧
      ∀ t, ph.endDate = some t → shown.endDate = some t) d.phases phases

/-- The phases of a schedule at Stripe, as an event shows them. -/
theorem StripeSchedule.data_carries (s : StripeSchedule) (sid : String) :
    (s.data sid).Carries sid s.phases where
  subscription := rfl
  phases := by
    show List.Forall₂ _ (s.phases.map _) s.phases
    induction s.phases with
    | nil => exact .nil
    | cons ph phases ih =>
      apply List.Forall₂.cons
      · exact ⟨⟨_, rfl, rfl⟩, fun _ h => h, fun _ h => h⟩
      · exact ih

/-- **The phases of a downgrade are read as the new price at the end of the
period.** -/
theorem parse_downgradePhases {sub : StripeSubscription} {new : PlanPriceRef} {quantity : Int}
    {periodStart periodEnd : Timestamp} (hnew : new.priceId ≠ "")
    (h : d.Carries sid (downgradePhases sub new quantity periodStart periodEnd)) :
    parseSchedulePendingChange d = some (new.priceId, periodEnd) := by
  obtain ⟨-, hphases⟩ := h
  rcases hd : d.phases with - | ⟨current, - | ⟨next, rest⟩⟩
  · rw [hd] at hphases
    cases hphases
  · rw [hd] at hphases
    obtain - | ⟨-, hrest⟩ := hphases
    cases hrest
  · rw [hd] at hphases
    obtain - | ⟨⟨-, -, hend⟩, hrest⟩ := hphases
    obtain - | ⟨⟨⟨price, hitems, hprice⟩, hstart, -⟩, -⟩ := hrest
    have hid : price.priceId.filter (fun x => decide (x ≠ "")) = some new.priceId := by
      rw [hprice]
      exact Option.filter_some_pos (by simpa using hnew)
    have hat : (truthyTimestamp current.endDate).or next.startDate = some periodEnd := by
      rw [hend _ rfl, hstart _ rfl]
      by_cases hzero : periodEnd = 0
      · simp [truthyTimestamp, Option.filter_some, hzero]
      · simp [truthyTimestamp, Option.filter_some, hzero]
    unfold parseSchedulePendingChange
    simp only [hd, hitems, hid, hat, Option.map_some]

/-- Both events go to the same handler. -/
theorem dispatch_upserted {db' : BillingDb}
    (hok : onSubscriptionScheduleUpserted db now d = .ok db')
    {e : Event} (he : e = .subscriptionScheduleCreated d ∨ e = .subscriptionScheduleUpdated d) :
    dispatch u db now e = .ok (db', []) := by
  have hboth : dispatch u db now e = (onSubscriptionScheduleUpserted db now d).map (·, []) := by
    rcases he with rfl | rfl <;> rfl
  rw [hboth, hok]
  rfl

/-- An event that announces a change writes it into the row, whatever the row
showed, and nothing else. -/
theorem dispatch_announced (hsid : sid ≠ "") (hd : d.subscription = some sid)
    (hrow : db.subscriptions.getByStripeId sid = some row) {planId : UUID} {changeAt : Timestamp}
    (hchange : announcedChange db d = some (planId, changeAt)) {e : Event}
    (he : e = .subscriptionScheduleCreated d ∨ e = .subscriptionScheduleUpdated d) :
    ∃ db', dispatch u db now e = .ok (db', []) ∧
      db.Sets sid (row.withPending (some planId) (some changeAt)) db' := by
  obtain ⟨db', hok, hsets⟩ := onSubscriptionScheduleUpserted_spec db now hd hsid
  rw [hchange, hrow] at hsets
  exact ⟨db', dispatch_upserted hok he, hsets⟩

/-- An event about phases of `sid` is read as this change, and leaves the row with
the plan of the price at that time and otherwise as it was. -/
def AnnouncesChange (u : UnicodeTables) (sid : String) (phases : List StripePhase)
    (priceId : String) (changeAt : Timestamp) : Prop :=
  ∀ d : ScheduleData, d.Carries sid phases →
    parseSchedulePendingChange d = some (priceId, changeAt) ∧
    ∀ (db : BillingDb) now pp row, db.catalog.getPriceByStripeId priceId = some pp →
      db.subscriptions.getByStripeId sid = some row →
      ∀ e, e = .subscriptionScheduleCreated d ∨ e = .subscriptionScheduleUpdated d →
        ∃ db', dispatch u db now e = .ok (db', []) ∧
          db.Sets sid (row.withPending (some pp.planId) (some changeAt)) db'

/-- **Encode then decode**, of the phases that a deferred downgrade has ready. -/
theorem downgradePhases_announced {sub : StripeSubscription} {new : PlanPriceRef} {quantity : Int}
    {periodStart periodEnd : Timestamp} (hsid : sid ≠ "") (hnew : new.priceId ≠ "") :
    AnnouncesChange u sid (downgradePhases sub new quantity periodStart periodEnd) new.priceId
      periodEnd := by
  intro d hd
  have hparse := parse_downgradePhases hnew hd
  refine ⟨hparse, ?_⟩
  intro db now pp row hpp hrow e he
  apply dispatch_announced hsid hd.subscription hrow _ he
  show (parseSchedulePendingChange d).bind _ = _
  rw [hparse]
  simp [hpp]

/-- What a deferred downgrade is to do, if neither Stripe nor the check of the
currencies refuses it: it returns, having sent phases that are read as the new
price at the end of the period. -/
def DowngradeAnnounced (u : UnicodeTables) (sb : StripeBehaviour) (w : BillingWorld) (sid : String)
    (sub : StripeSubscription) (new : PlanPriceRef) (quantity : Int) (periodEnd : Timestamp) :
    Prop :=
  wp (scheduleDowngradeAtPeriodEnd u sb sid sub new quantity)
    (fun _ w' => ∃ phases, w.PhasesSent w' sid phases ∧
      AnnouncesChange u sid phases new.priceId periodEnd)
    (fun e _ => e = .stripe ∨ ∃ message, e = .valueError message) w

/-- **No deferred downgrade is announced**: none of them gets as far as to send
its phases. -/
theorem downgrade_never_announced {sub : StripeSubscription} {new : PlanPriceRef} {quantity : Int}
    {periodStart periodEnd : Timestamp}
    (hend : readPeriodField sub.item.currentPeriodEnd sub.currentPeriodEnd = some periodEnd)
    (hstart : readPeriodField sub.item.currentPeriodStart sub.currentPeriodStart
      = some periodStart) :
    ¬ DowngradeAnnounced u sb w sid sub new quantity periodEnd := by
  unfold DowngradeAnnounced wp
  rw [scheduleDowngradeAtPeriodEnd_of_window u sb hend hstart]
  rintro (h | ⟨message, h⟩)
  · cases h
  · cases h

/-! ### Any number of phases -/

/-- A schedule as Stripe keeps it: every phase has an item with a known price,
and each phase ends, after it began, where the next one begins. -/
structure ScheduleData.WellFormed (db : BillingDb) (d : ScheduleData) : Prop where
  known : ∀ ph ∈ d.phases, ∃ price items id pp, ph.items = price :: items ∧
    price.priceId = some id ∧ id ≠ "" ∧ db.catalog.getPriceByStripeId id = some pp
  contiguous : ∀ k ph next, d.phases[k]? = some ph → d.phases[k + 1]? = some next →
    ∃ t, ph.endDate = some t ∧ next.startDate = some t
  positive : ∀ ph ∈ d.phases, ∀ s e, ph.startDate = some s → ph.endDate = some e → s < e

/-- The plan of a phase's first item. -/
def SchedulePhase.planId (db : BillingDb) (ph : SchedulePhase) : Option UUID :=
  (ph.items.head?.bind PhasePrice.priceId).bind fun id =>
    (db.catalog.getPriceByStripeId id).map PlanPrice.planId

/-- What is to come when the k-th phase is the current one: the plan of the
next phase, at the boundary between the two. -/
def ScheduleData.changeAfter (db : BillingDb) (d : ScheduleData) (k : Nat) :
    Option (UUID × Timestamp) :=
  d.phases[k + 1]?.bind fun next =>
    (next.planId db).bind fun planId => next.startDate.map fun changeAt => (planId, changeAt)

/-- The pending change on a row. -/
def Subscription.Pending (row : Subscription) (change : Option (UUID × Timestamp)) : Prop :=
  row.scheduledPlanId = change.map Prod.fst ∧ row.scheduledChangeAt = change.map Prod.snd

/-- There is a change to come exactly before the last phase. -/
theorem ScheduleData.WellFormed.changeAfter_eq_some (h : d.WellFormed db) {k : Nat}
    (hk : k + 1 < d.phases.length) :
    ∃ planId t, d.changeAfter db k = some (planId, t) ∧ d.phases[k + 1].startDate = some t := by
  obtain ⟨price, items, id, pp, hitems, hprice, -, hpp⟩ :=
    h.known d.phases[k + 1] (List.getElem_mem hk)
  have hph : d.phases[k]? = some d.phases[k] := List.getElem?_eq_getElem (by omega)
  have hnext : d.phases[k + 1]? = some d.phases[k + 1] := List.getElem?_eq_getElem hk
  obtain ⟨t, -, hstart⟩ := h.contiguous k _ _ hph hnext
  refine ⟨pp.planId, t, ?_, hstart⟩
  unfold ScheduleData.changeAfter SchedulePhase.planId
  simp [hnext, hitems, hprice, hpp, hstart]

theorem changeAfter_eq_none {k : Nat} (hk : d.phases.length ≤ k + 1) :
    d.changeAfter db k = none := by
  unfold ScheduleData.changeAfter
  rw [List.getElem?_eq_none hk]
  rfl

/-- A later phase begins later. -/
theorem ScheduleData.WellFormed.next_start_lt (h : d.WellFormed db) {k : Nat} {s : Timestamp}
    (hk : k + 1 < d.phases.length) (hs : d.phases[k].startDate = some s) :
    ∃ t, d.phases[k + 1].startDate = some t ∧ s < t := by
  have hph : d.phases[k]? = some d.phases[k] := List.getElem?_eq_getElem (by omega)
  obtain ⟨t, hend, hstart⟩ := h.contiguous k _ _ hph (List.getElem?_eq_getElem hk)
  exact ⟨t, hstart, h.positive _ (List.getElem_mem _) s t hs hend⟩

/-- The second phase begins before any later one. -/
theorem ScheduleData.WellFormed.second_start_lt (h : d.WellFormed db) {k : Nat} {first : Timestamp}
    (hone : 1 < d.phases.length) (hfirst : d.phases[1].startDate = some first)
    (hk : k + 2 < d.phases.length) :
    ∃ t, d.phases[k + 2].startDate = some t ∧ first < t := by
  induction k with
  | zero => exact h.next_start_lt hk hfirst
  | succ k ih =>
    obtain ⟨s, hs, hlt⟩ := ih (by omega)
    obtain ⟨t, ht, hlt'⟩ := h.next_start_lt hk hs
    exact ⟨t, ht, lt_trans hlt hlt'⟩

/-- Once the first phase is over, nothing is to come at the start of the second. -/
theorem ScheduleData.WellFormed.changeAt_succ_ne (h : d.WellFormed db) {first : Timestamp}
    (hone : 1 < d.phases.length) (hfirst : d.phases[1].startDate = some first) (k : Nat) :
    (d.changeAfter db (k + 1)).map Prod.snd ≠ some first := by
  by_cases hlast : k + 2 < d.phases.length
  · -- a later boundary
    obtain ⟨planId, t, hchange, hstart⟩ := h.changeAfter_eq_some (k := k + 1) hlast
    obtain ⟨t', hstart', hlt⟩ := h.second_start_lt hone hfirst hlast
    obtain rfl : t = t' := Option.some.inj (hstart.symm.trans hstart')
    rw [hchange]
    exact fun heq => absurd (Option.some.inj heq) hlt.ne'
  · -- the last phase is current
    rw [changeAfter_eq_none (by omega)]
    exact nofun

/-- The handler announces the change between the first two phases. -/
theorem ScheduleData.WellFormed.announcedChange_eq (h : d.WellFormed db) :
    announcedChange db d = d.changeAfter db 0 := by
  rcases hd : d.phases with - | ⟨current, - | ⟨next, rest⟩⟩
  · unfold announcedChange parseSchedulePendingChange ScheduleData.changeAfter
    simp [hd]
  · unfold announcedChange parseSchedulePendingChange ScheduleData.changeAfter
    simp [hd]
  · have hmem : next ∈ d.phases := by simp [hd]
    obtain ⟨price, items, id, pp, hitems, hprice, hid, hpp⟩ := h.known next hmem
    obtain ⟨t, hend, hstart⟩ := h.contiguous 0 current next (by simp [hd]) (by simp [hd])
    have hfilter : price.priceId.filter (fun x => decide (x ≠ "")) = some id := by
      rw [hprice]
      exact Option.filter_some_pos (by simpa using hid)
    have hat : (truthyTimestamp current.endDate).or next.startDate = some t := by
      rw [hend, hstart]
      by_cases hzero : t = 0
      · simp [truthyTimestamp, Option.filter_some, hzero]
      · simp [truthyTimestamp, Option.filter_some, hzero]
    unfold announcedChange parseSchedulePendingChange ScheduleData.changeAfter SchedulePhase.planId
    simp only [hd, hitems, hfilter, hat, Option.map_some, Option.bind_some]
    simp [hitems, hprice, hpp, hstart]

/-- **The pending change follows the current phase exactly** while the first of
several phases is the current one, or when the schedule has one phase and
nothing was pending. -/
theorem pending_follows_current_iff (hsid : sid ≠ "") (hd : d.subscription = some sid)
    (hrow : db.subscriptions.getByStripeId sid = some row) (hwf : d.WellFormed db) {k : Nat}
    (hk : k < d.phases.length) {e : Event}
    (he : e = .subscriptionScheduleCreated d ∨ e = .subscriptionScheduleUpdated d) :
    ∃ db' row', dispatch u db now e = .ok (db', []) ∧
      db'.subscriptions.getByStripeId sid = some row' ∧
      (row'.Pending (d.changeAfter db k) ↔
        (k = 0 ∧ 2 ≤ d.phases.length) ∨ (d.phases.length = 1 ∧ row.Pending none)) := by
  by_cases hone : d.phases.length = 1
  · -- nothing is announced, and the row stays
    have hnone : ∀ j, d.changeAfter db j = none := fun j => changeAfter_eq_none (by omega)
    obtain ⟨db', hok, hsets⟩ := onSubscriptionScheduleUpserted_spec db now hd hsid
    rw [hwf.announcedChange_eq, hnone 0] at hsets
    obtain rfl : db' = db := hsets
    refine ⟨db', row, dispatch_upserted hok he, hrow, ?_⟩
    rw [hnone k]
    constructor
    · exact fun h => Or.inr ⟨hone, h⟩
    · rintro (⟨-, htwo⟩ | ⟨-, h⟩)
      · omega
      · exact h
  · obtain ⟨planId, t, hchange, hstart⟩ := hwf.changeAfter_eq_some (k := 0) (by omega)
    obtain ⟨db', hok, hsets⟩ : ∃ db', dispatch u db now e = .ok (db', []) ∧
        db.Sets sid (row.withPending (some planId) (some t)) db' :=
      dispatch_announced hsid hd hrow (hwf.announcedChange_eq.trans hchange) he
    refine ⟨db', _, hok, hsets.found, ?_⟩
    rcases k with - | k
    · -- the first phase is current
      rw [hchange]
      apply iff_of_true
      · exact ⟨rfl, rfl⟩
      · exact Or.inl ⟨rfl, by omega⟩
    · apply iff_of_false
      · rintro ⟨-, hat⟩
        exact hwf.changeAt_succ_ne (by omega) hstart k hat.symm
      · rintro (⟨h, -⟩ | ⟨h, -⟩)
        · cases h
        · exact hone h

/-! ### A downgrade and its flip -/

/-- The sample tables with a second, cheaper plan. -/
def basicDb : BillingDb :=
  { sampleRowDb with
    catalog := { sampleDb.catalog with
      planPrices := [⟨2, 1, "price_usd", 1999⟩, ⟨6, 5, "price_basic", 999⟩] } }

/-- The schedule of a downgrade to it at 200. -/
def basicSchedule : ScheduleData :=
  ⟨some "sub_1", [⟨[.ref (some "price_usd")], some 100, some 200⟩,
    ⟨[.ref (some "price_basic")], some 200, some 300⟩]⟩

theorem basicSchedule_wellFormed : basicSchedule.WellFormed basicDb where
  known := by
    intro ph hph
    simp only [basicSchedule, List.mem_cons, List.not_mem_nil, or_false] at hph
    rcases hph with rfl | rfl
    · exact ⟨_, _, _, _, rfl, rfl, by decide, rfl⟩
    · exact ⟨_, _, _, _, rfl, rfl, by decide, rfl⟩
  contiguous := by
    intro k ph next hph hnext
    rcases k with - | k
    · obtain rfl := Option.some.inj hph
      obtain rfl := Option.some.inj hnext
      exact ⟨200, rfl, rfl⟩
    · have hlen : k + 1 + 1 < basicSchedule.phases.length :=
        (List.getElem?_eq_some_iff.mp hnext).1
      have htwo : basicSchedule.phases.length = 2 := rfl
      omega
  positive := by
    intro ph hph s e hs he
    simp only [basicSchedule, List.mem_cons, List.not_mem_nil, or_false] at hph
    rcases hph with rfl | rfl
    · obtain rfl := Option.some.inj hs
      obtain rfl := Option.some.inj he
      decide
    · obtain rfl := Option.some.inj hs
      obtain rfl := Option.some.inj he
      decide

/-- The sample downgrade: the price at 19.99 USD is asked for its currency, and no
call is issued. -/
theorem downgrade_raises_basic :
    scheduleDowngradeAtPeriodEnd asciiTables sampleBehaviour "sub_1" sampleStripeSubscription
        ⟨"price_basic", 5⟩ 1 sampleWorld = .error (.attributeError "get") sampleWorld ∧
      ¬ DowngradeAnnounced asciiTables sampleBehaviour sampleWorld "sub_1"
        sampleStripeSubscription ⟨"price_basic", 5⟩ 1 200 := by
  refine ⟨rfl, ?_⟩
  rintro (h | ⟨message, h⟩)
  · cases h
  · cases h

theorem downgrade_never_announced_sample :
    ¬ DowngradeAnnounced asciiTables sampleBehaviour pinnedWorld "sub_1"
      { sampleStripeSubscription with schedule := some liveSchedule } ⟨"price_basic", 5⟩ 3 200 :=
  by
  have hstart : readPeriodField sampleStripeSubscription.item.currentPeriodStart
      sampleStripeSubscription.currentPeriodStart = some 100 := rfl
  exact downgrade_never_announced rfl hstart

theorem pending_follows_current_iff_first :
    ∃ db' row', dispatch asciiTables basicDb 120 (.subscriptionScheduleUpdated basicSchedule)
        = .ok (db', []) ∧
      db'.subscriptions.getByStripeId "sub_1" = some row' ∧
      (row'.Pending (basicSchedule.changeAfter basicDb 0) ↔
        (0 = 0 ∧ 2 ≤ basicSchedule.phases.length) ∨
          (basicSchedule.phases.length = 1 ∧ sampleRow.Pending none)) :=
  pending_follows_current_iff (by decide) rfl rfl basicSchedule_wellFormed (by decide) (Or.inr rfl)

/-- After the flip the second phase is current and the last one: nothing is to
come, and an event announces the downgrade again. -/
theorem flipped_change_announced_again :
    basicSchedule.WellFormed basicDb ∧ 1 < basicSchedule.phases.length ∧
      basicSchedule.changeAfter basicDb 1 = none ∧
      ∃ db' row', dispatch asciiTables basicDb 250 (.subscriptionScheduleUpdated basicSchedule)
          = .ok (db', []) ∧
        db'.subscriptions.getByStripeId "sub_1" = some row' ∧
        row'.Pending (some (5, 200)) ∧ ¬ row'.Pending (basicSchedule.changeAfter basicDb 1) := by
  refine ⟨basicSchedule_wellFormed, by decide, rfl, ?_⟩
  have hrow : basicDb.subscriptions.getByStripeId "sub_1" = some sampleRow := rfl
  have hchange : announcedChange basicDb basicSchedule = some (5, 200) := rfl
  obtain ⟨db', hok, hsets⟩ : ∃ db', dispatch asciiTables basicDb 250
        (.subscriptionScheduleUpdated basicSchedule) = .ok (db', []) ∧
      basicDb.Sets "sub_1" (sampleRow.withPending (some 5) (some 200)) db' :=
    dispatch_announced (by decide) rfl hrow hchange (Or.inr rfl)
  refine ⟨db', _, hok, hsets.found, ⟨rfl, rfl⟩, ?_⟩
  rintro ⟨hplan, -⟩
  cases hplan

end Saasmint
