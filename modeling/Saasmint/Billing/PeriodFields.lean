/-
Saasmint/Billing/PeriodFields.lean

The two readers of the billing period of a subscription: the webhook's
`_extract_period_window` and the plan change's `_read_period_field`.

Both read the item first and the subscription where the item has no value.  For
the webhook a null on the item is a value, and one that it refuses; for the
plan change it is none.  So they agree unless the item has a null and the plan
change reads a period all the same (`period_readers_agree_iff`).
-/
import Saasmint.Billing.Lifecycle

namespace Saasmint

variable {d : SubscriptionData} {item : SubscriptionItem}

/-- `period_end` and `period_start` of `_schedule_downgrade_at_period_end`. -/
def readPeriodWindow (d : SubscriptionData) (item : SubscriptionItem) :
    Option (Timestamp × Timestamp) := do
  let periodEnd ← readPeriodField item.currentPeriodEnd d.currentPeriodEnd
  let periodStart ← readPeriodField item.currentPeriodStart d.currentPeriodStart
  return (periodStart, periodEnd)

/-- The item has an integer, or it has no value and the subscription has an integer. -/
def PeriodField.HasEpoch : PeriodField → PeriodField → Prop
  | .int _, _ | .missing, .int _ | .null, .int _ => True
  | _, _ => False

/-- A field of the item is null, and both fields have an integer where the item has no other
value. -/
structure NullOverEpoch (d : SubscriptionData) (item : SubscriptionItem) : Prop where
  null : item.currentPeriodStart = .null ∨ item.currentPeriodEnd = .null
  periodStart : item.currentPeriodStart.HasEpoch d.currentPeriodStart
  periodEnd : item.currentPeriodEnd.HasEpoch d.currentPeriodEnd

/-! ### One field -/

theorem readPeriodField_isSome_iff {f g : PeriodField} :
    (∃ t, readPeriodField f g = some t) ↔ f.HasEpoch g := by
  cases f <;> cases g <;> simp [readPeriodField, PeriodField.HasEpoch]

/-- The webhook reads what the plan change reads, except over a null. -/
theorem orDefault_eq_int_iff {f g : PeriodField} {t : Timestamp} :
    f.orDefault g = .int t ↔ readPeriodField f g = some t ∧ f ≠ .null := by
  cases f <;> cases g <;> simp [readPeriodField, PeriodField.orDefault]

/-! ### The window -/

theorem extractPeriodWindow_eq_ok_iff {s e : Timestamp} :
    extractPeriodWindow d item = .ok (s, e) ↔
      item.currentPeriodStart.orDefault d.currentPeriodStart = .int s ∧
        item.currentPeriodEnd.orDefault d.currentPeriodEnd = .int e := by
  unfold extractPeriodWindow
  dsimp only
  generalize item.currentPeriodStart.orDefault d.currentPeriodStart = start
  generalize item.currentPeriodEnd.orDefault d.currentPeriodEnd = stop
  cases start <;> cases stop <;> simp

theorem readPeriodWindow_eq_some_iff {s e : Timestamp} :
    readPeriodWindow d item = some (s, e) ↔
      readPeriodField item.currentPeriodStart d.currentPeriodStart = some s ∧
        readPeriodField item.currentPeriodEnd d.currentPeriodEnd = some e := by
  unfold readPeriodWindow
  constructor
  · intro h
    obtain ⟨periodEnd, hend, h⟩ := Option.bind_eq_some_iff.mp h
    obtain ⟨periodStart, hstart, h⟩ := Option.bind_eq_some_iff.mp h
    obtain ⟨rfl, rfl⟩ := Prod.mk.inj (Option.some.inj h)
    exact ⟨hstart, hend⟩
  · rintro ⟨hstart, hend⟩
    rw [hstart, hend]
    rfl

/-- What the webhook reads, the plan change reads too; and the webhook reads what the plan
change does unless the item has a null. -/
theorem extractPeriodWindow_toOption_iff {w : Timestamp × Timestamp} :
    (extractPeriodWindow d item).toOption = some w ↔ readPeriodWindow d item = some w ∧
      ¬ (item.currentPeriodStart = .null ∨ item.currentPeriodEnd = .null) := by
  obtain ⟨s, e⟩ := w
  have hok : (extractPeriodWindow d item).toOption = some (s, e) ↔
      extractPeriodWindow d item = .ok (s, e) := by
    rcases extractPeriodWindow d item with err | w <;> simp [Except.toOption]
  rw [hok, extractPeriodWindow_eq_ok_iff, readPeriodWindow_eq_some_iff, orDefault_eq_int_iff,
    orDefault_eq_int_iff, not_or]
  constructor
  · rintro ⟨⟨hs, hns⟩, he, hne⟩
    exact ⟨⟨hs, he⟩, hns, hne⟩
  · rintro ⟨⟨hs, he⟩, hns, hne⟩
    exact ⟨⟨hs, hns⟩, he, hne⟩

/-- **The readers of a period.**  The webhook and the plan change read the same window, or
both refuse the payload, exactly when the item does not have a null over a period
that the plan change reads. -/
theorem period_readers_agree_iff (d : SubscriptionData) (item : SubscriptionItem) :
    (extractPeriodWindow d item).toOption = readPeriodWindow d item ↔
      ¬ NullOverEpoch d item := by
  have hread : (∃ w, readPeriodWindow d item = some w) ↔
      item.currentPeriodStart.HasEpoch d.currentPeriodStart ∧
        item.currentPeriodEnd.HasEpoch d.currentPeriodEnd := by
    rw [← readPeriodField_isSome_iff, ← readPeriodField_isSome_iff]
    constructor
    · rintro ⟨⟨s, e⟩, h⟩
      obtain ⟨hs, he⟩ := readPeriodWindow_eq_some_iff.mp h
      exact ⟨⟨s, hs⟩, e, he⟩
    · rintro ⟨⟨s, hs⟩, e, he⟩
      exact ⟨(s, e), readPeriodWindow_eq_some_iff.mpr ⟨hs, he⟩⟩
  constructor
  · rintro heq ⟨hnull, hstart, hend⟩
    obtain ⟨w, hw⟩ := hread.mpr ⟨hstart, hend⟩
    exact (extractPeriodWindow_toOption_iff.mp (heq.trans hw)).2 hnull
  · intro hnot
    refine Option.ext fun w => ?_
    rw [extractPeriodWindow_toOption_iff]
    constructor
    · exact fun h => h.1
    · intro hw
      obtain ⟨hstart, hend⟩ := hread.mp ⟨w, hw⟩
      exact ⟨hw, fun hnull => hnot ⟨hnull, hstart, hend⟩⟩

/-- A subscription with its period in both places, null on the item. -/
def nullPeriodData : SubscriptionData where
  id := "sub_1"
  customer := "cus_1"
  status := "active"
  items := []
  currency := some "usd"
  trialEnd := none
  canceledAt := none
  cancelAt := none
  currentPeriodStart := .int 100
  currentPeriodEnd := .int 200

def nullPeriodItem : SubscriptionItem := ⟨"price_1", some "usd", some 1, .null, .null⟩

/-- The plan change reads the period of the subscription, the webhook refuses the
payload. -/
theorem null_period_read_by_one :
    (extractPeriodWindow nullPeriodData nullPeriodItem).toOption = none ∧
      readPeriodWindow nullPeriodData nullPeriodItem = some (100, 200) ∧
      (extractPeriodWindow nullPeriodData nullPeriodItem).toOption
        ≠ readPeriodWindow nullPeriodData nullPeriodItem := by
  decide

/-- The sync of a payload with a null on its item is refused. -/
theorem syncRow_of_null {u : PyStr.UnicodeTables} {db : BillingDb} {now : Timestamp}
    {items : List SubscriptionItem} {existing : Option Subscription}
    (hitems : d.items = item :: items)
    (hnull : item.currentPeriodStart = .null ∨ item.currentPeriodEnd = .null) :
    syncRow u db now d existing
      = .error (.webhookData s!"Subscription {d.id} missing current_period_start/end") := by
  have hrefused : extractPeriodWindow d item
      = .error (.webhookData s!"Subscription {d.id} missing current_period_start/end") := by
    unfold extractPeriodWindow
    rcases hnull with h | h <;> simp [h, PeriodField.orDefault]
  unfold syncRow
  rw [hitems]
  simp only [hrefused]
  rfl

end Saasmint
