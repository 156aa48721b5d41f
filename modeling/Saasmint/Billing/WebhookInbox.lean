/-
Saasmint/Billing/WebhookInbox.lean

The webhook endpoint (apps/billing/webhook.py): `stripe_webhook` verifies a
request, stores its event under the unique Stripe id and enqueues the task that
will process it, after the transaction has committed.

The enqueue can fail when the row is already there.  The request is then
answered with a 500 and Stripe delivers the event again, but the redelivery
finds the row, takes the event for a duplicate and answers 202 without an
enqueue.  `describes_run` says what a sequence of deliveries leaves, and from it
`accepted_events_enqueued_iff`: no accepted event is lost exactly when no event
whose first enqueue failed is delivered again.
-/
import Mathlib.Data.List.Induction
import Saasmint.Billing.Webhooks
import Saasmint.Lib.Runs
import Saasmint.Lib.Table

namespace Saasmint

/-! ### The endpoint -/

/-- A row of `StripeEvent`. -/
structure StripeEventRow where
  id : UUID
  stripeId : String
  type : String
  livemode : Bool
  payload : Event
  deriving DecidableEq, Repr

/-- What `stripe.Webhook.construct_event` says of a body. -/
inductive SignatureCheck
  | verified | badSignature | invalidJson
  deriving DecidableEq, Repr

/-- The JSON of a body with the keys that the endpoint reads. -/
structure EventData where
  id : String
  type : String
  livemode : Bool
  payload : Event
  deriving DecidableEq, Repr

structure WebhookRequest where
  /-- The `CONTENT_LENGTH` header, where it is an integer. -/
  contentLength : Option Int
  bodyLength : Nat
  signature : SignatureCheck
  /-- The body, where it has an id, a type and a livemode. -/
  event : Option EventData
  deriving DecidableEq, Repr

inductive WebhookResponse
  | accepted | badRequest | requestTooLarge
  /-- An exception reaches the server. -/
  | serverError
  deriving DecidableEq, Repr

def WebhookResponse.status : WebhookResponse → Nat
  | accepted => 202
  | badRequest => 400
  | requestTooLarge => 413
  | serverError => 500

/-- An answer after which Stripe does not deliver the event again. -/
def WebhookResponse.is2xx (r : WebhookResponse) : Bool := 200 ≤ r.status && r.status < 300

structure WebhookSettings where
  stripeSecretKey : String

/-- `key_is_live`. -/
def WebhookSettings.keyIsLive (s : WebhookSettings) : Bool :=
  ["sk_live_", "rk_live_"].any fun live => live.toList.isPrefixOf s.stripeSecretKey.toList

/-- `_MAX_WEBHOOK_BODY`. -/
def maxWebhookBody : Nat := 256 * 1024

def WebhookRequest.tooLarge (r : WebhookRequest) : Bool :=
  (maxWebhookBody : Int) < r.contentLength.getD 0 || maxWebhookBody < r.bodyLength

/-- The stored events, and the event rows that a task was enqueued for. -/
structure Inbox where
  rows : List StripeEventRow
  enqueued : List UUID
  pk : Table.Unique (fun r => some r.id) rows
  uniq_stripe_id : Table.Unique (fun r => some r.stripeId) rows
  enqueued_stored : ∀ rowId ∈ enqueued, rowId ∈ rows.map StripeEventRow.id

namespace Inbox

def empty : Inbox := ⟨[], [], by decide, by decide, by decide⟩

def getByStripeId (inbox : Inbox) (stripeId : String) : Option StripeEventRow :=
  inbox.rows.find? fun r => r.stripeId = stripeId

def newRow (inbox : Inbox) (e : EventData) : StripeEventRow where
  id := Table.freshKey (inbox.rows.map StripeEventRow.id)
  stripeId := e.id
  type := e.type
  livemode := e.livemode
  payload := e.payload

theorem newRow_id_ne {inbox : Inbox} (e : EventData) {r : StripeEventRow} (hr : r ∈ inbox.rows) :
    r.id ≠ (inbox.newRow e).id := fun h =>
  Table.freshKey_not_mem (inbox.rows.map StripeEventRow.id) (List.mem_map.mpr ⟨r, hr, h⟩)

theorem getByStripeId_eq_none_iff {inbox : Inbox} {stripeId : String} :
    inbox.getByStripeId stripeId = none ↔ ∀ r ∈ inbox.rows, r.stripeId ≠ stripeId := by
  simp [getByStripeId]

/-- The row that `get_or_create` inserts. -/
def insert (inbox : Inbox) (e : EventData) (hnone : inbox.getByStripeId e.id = none) : Inbox where
  rows := inbox.rows ++ [inbox.newRow e]
  enqueued := inbox.enqueued
  pk := Table.unique_append inbox.pk fun _ hb _ hv hw =>
    newRow_id_ne e hb (Option.some.inj (hw.trans hv.symm))
  uniq_stripe_id := Table.unique_append inbox.uniq_stripe_id fun b hb _ hv hw =>
    getByStripeId_eq_none_iff.mp hnone b hb (Option.some.inj (hw.trans hv.symm))
  enqueued_stored rowId h := by
    rw [List.map_append]
    exact List.mem_append_left _ (inbox.enqueued_stored rowId h)

/-- `process_stripe_webhook.delay(row_id)`. -/
def enqueue (inbox : Inbox) (row : StripeEventRow) (hrow : row ∈ inbox.rows) : Inbox where
  rows := inbox.rows
  enqueued := inbox.enqueued ++ [row.id]
  pk := inbox.pk
  uniq_stripe_id := inbox.uniq_stripe_id
  enqueued_stored rowId h := by
    rcases List.mem_append.mp h with h | h
    · exact inbox.enqueued_stored rowId h
    · exact List.mem_map.mpr ⟨row, hrow, (List.mem_singleton.mp h).symm⟩

theorem newRow_mem_insert {inbox : Inbox} {e : EventData}
    (hnone : inbox.getByStripeId e.id = none) : inbox.newRow e ∈ (inbox.insert e hnone).rows :=
  List.mem_append_right _ (List.mem_singleton.mpr rfl)

/-- The task of a row that was just inserted has not been enqueued. -/
theorem newRow_id_not_mem_enqueued (inbox : Inbox) (e : EventData) :
    (inbox.newRow e).id ∉ inbox.enqueued := fun h =>
  Table.freshKey_not_mem _ (inbox.enqueued_stored _ h)

/-- `StripeEvent.objects.get_or_create(stripe_id=..)` and the enqueue on commit. -/
def receive (inbox : Inbox) (enqueueFails : Bool) (e : EventData) : Inbox × WebhookResponse :=
  match hnone : inbox.getByStripeId e.id with
  | some _ => (inbox, .accepted)
  | none =>
    -- the row is committed when the enqueue raises
    if enqueueFails then (inbox.insert e hnone, .serverError)
    else ((inbox.insert e hnone).enqueue _ (newRow_mem_insert hnone), .accepted)

end Inbox

/-- `stripe_webhook`. -/
def stripeWebhook (settings : WebhookSettings) (inbox : Inbox) (enqueueFails : Bool)
    (r : WebhookRequest) : Inbox × WebhookResponse :=
  if r.tooLarge then (inbox, .requestTooLarge)
  else
    match r.signature, r.event with
    | .badSignature, _ | .invalidJson, _ | .verified, none => (inbox, .badRequest)
    | .verified, some e =>
      if e.livemode ≠ settings.keyIsLive then (inbox, .accepted)
      else inbox.receive enqueueFails e

/-- The event that a request brings to the database. -/
def WebhookRequest.brings (settings : WebhookSettings) (r : WebhookRequest) : Option EventData :=
  if r.tooLarge || r.signature ≠ .verified then none
  else r.event.filter fun e => e.livemode = settings.keyIsLive

variable {settings : WebhookSettings} {inbox : Inbox} {r : WebhookRequest} {e : EventData}

theorem WebhookRequest.brings_eq_some_iff :
    r.brings settings = some e ↔ r.tooLarge = false ∧ r.signature = .verified ∧
      r.event = some e ∧ e.livemode = settings.keyIsLive := by
  unfold WebhookRequest.brings
  by_cases h : (r.tooLarge || r.signature ≠ .verified) = true
  · rw [if_pos h]
    grind
  · rw [if_neg h, Option.filter_eq_some_iff]
    grind

/-- A request is refused, dropped because of its livemode, or reaches the
database. -/
theorem stripeWebhook_cases (settings : WebhookSettings) (inbox : Inbox) (enqueueFails : Bool)
    (r : WebhookRequest) :
    (∃ e, r.brings settings = some e ∧
      stripeWebhook settings inbox enqueueFails r = inbox.receive enqueueFails e) ∨
    (r.brings settings = none ∧ ∃ answer,
      stripeWebhook settings inbox enqueueFails r = (inbox, answer) ∧
      (answer.is2xx = true → ∀ e, r.event = some e → e.livemode ≠ settings.keyIsLive)) := by
  unfold stripeWebhook
  by_cases hlarge : r.tooLarge = true
  · refine Or.inr ⟨by simp [WebhookRequest.brings, hlarge], _, if_pos hlarge, fun h => ?_⟩
    cases h
  · rw [if_neg hlarge]
    rcases hsig : r.signature with - | - | -
    · rcases hev : r.event with - | e
      · exact Or.inr ⟨by simp [WebhookRequest.brings, hev], _, rfl, fun h => by cases h⟩
      · by_cases hlive : e.livemode = settings.keyIsLive
        · exact Or.inl ⟨e, WebhookRequest.brings_eq_some_iff.mpr
            ⟨by simpa using hlarge, hsig, hev, hlive⟩, if_neg (not_not.mpr hlive)⟩
        · refine Or.inr ⟨by simp [WebhookRequest.brings, hev, hlive], _, if_pos hlive, ?_⟩
          rintro - e' he'
          obtain rfl := Option.some.inj he'
          exact hlive
    · exact Or.inr ⟨by simp [WebhookRequest.brings, hsig], _, rfl, fun h => by cases h⟩
    · exact Or.inr ⟨by simp [WebhookRequest.brings, hsig], _, rfl, fun h => by cases h⟩

namespace Inbox

/-- A row that is there stays the one that is found. -/
theorem getByStripeId_insert {hnone : inbox.getByStripeId e.id = none} (stripeId : String) :
    (inbox.insert e hnone).getByStripeId stripeId =
      if e.id = stripeId then some (inbox.newRow e) else inbox.getByStripeId stripeId := by
  show List.find? _ (inbox.rows ++ [inbox.newRow e]) = _
  rw [List.find?_append]
  split
  case isTrue h =>
    subst h
    have hnone' : List.find? (fun r => decide (r.stripeId = e.id)) inbox.rows = none := hnone
    simp [hnone', newRow]
  case isFalse h => simp [h, newRow, getByStripeId]

theorem mem_enqueue {row : StripeEventRow} {hrow : row ∈ inbox.rows} {rowId : UUID} :
    rowId ∈ (inbox.enqueue row hrow).enqueued ↔ rowId ∈ inbox.enqueued ∨ rowId = row.id := by
  show rowId ∈ inbox.enqueued ++ [row.id] ↔ _
  simp

/-- What a delivery that reaches the database does: a stored event is a
duplicate, and a new one is stored, also when its enqueue fails. -/
theorem receive_cases (inbox : Inbox) (enqueueFails : Bool) (e : EventData) :
    (∃ row, inbox.getByStripeId e.id = some row ∧
      inbox.receive enqueueFails e = (inbox, .accepted)) ∨
    (inbox.getByStripeId e.id = none ∧ ∃ inbox' answer,
      inbox.receive enqueueFails e = (inbox', answer) ∧
      (answer.is2xx = true ↔ enqueueFails = false) ∧
      (∀ stripeId, inbox'.getByStripeId stripeId =
        if e.id = stripeId then some (inbox.newRow e) else inbox.getByStripeId stripeId) ∧
      ((inbox.newRow e).id ∈ inbox'.enqueued ↔ enqueueFails = false) ∧
      ∀ row ∈ inbox.rows, row.id ∈ inbox'.enqueued ↔ row.id ∈ inbox.enqueued) := by
  unfold receive
  split
  case h_1 row hrow => exact Or.inl ⟨row, hrow, rfl⟩
  case h_2 hnone =>
    have hnew := newRow_id_not_mem_enqueued inbox e
    refine Or.inr ⟨hnone, ?_⟩
    cases enqueueFails with
    | true =>
      refine ⟨_, _, rfl, by decide, getByStripeId_insert, ?_, fun _ _ => Iff.rfl⟩
      exact iff_of_false hnew (by decide)
    | false =>
      refine ⟨_, _, rfl, by decide, fun stripeId => ?_, ?_, fun row hrow => ?_⟩
      · exact (getByStripeId_insert stripeId : (inbox.insert e hnone).getByStripeId stripeId = _)
      · exact iff_of_true (mem_enqueue.mpr (Or.inr rfl)) rfl
      · exact mem_enqueue.trans (or_iff_left (newRow_id_ne e hrow))

end Inbox

/-! ### A sequence of deliveries -/

/-- A delivery of an event, and whether the broker refuses its task. -/
structure WebhookPost where
  request : WebhookRequest
  enqueueFails : Bool
  deriving DecidableEq, Repr

/-- The inbox, and the answers given so far. -/
structure Mailbox where
  inbox : Inbox
  answers : List (WebhookRequest × WebhookResponse)

def Mailbox.empty : Mailbox := ⟨.empty, []⟩

def deliver (settings : WebhookSettings) (s : Mailbox) (post : WebhookPost) : Mailbox :=
  let (inbox, answer) := stripeWebhook settings s.inbox post.enqueueFails post.request
  ⟨inbox, s.answers ++ [(post.request, answer)]⟩

/-- Every event of the mode of the key that was answered with a 2xx has a row,
and a task was enqueued for it. -/
def AcceptedEnqueued (settings : WebhookSettings) (s : Mailbox) : Prop :=
  ∀ r answer e, (r, answer) ∈ s.answers → answer.is2xx = true → r.event = some e →
    e.livemode = settings.keyIsLive →
    ∃ row, s.inbox.getByStripeId e.id = some row ∧ row.id ∈ s.inbox.enqueued

/-- The delivery brings the event `stripeId` to the database. -/
def WebhookPost.carries (settings : WebhookSettings) (stripeId : String) (post : WebhookPost) :
    Bool :=
  (post.request.brings settings).any (·.id = stripeId)

/-- No event is delivered again after the enqueue of its first delivery failed. -/
def NoneRedelivered (settings : WebhookSettings) (posts : List WebhookPost) : Prop :=
  ∀ stripeId post, posts.find? (·.carries settings stripeId) = some post →
    post.enqueueFails = true → posts.countP (·.carries settings stripeId) = 1

/-- An event was answered with a 2xx. -/
def Mailbox.Answered2xx (settings : WebhookSettings) (s : Mailbox) (stripeId : String) : Prop :=
  ∃ r answer e, (r, answer) ∈ s.answers ∧ answer.is2xx = true ∧ r.event = some e ∧
    e.livemode = settings.keyIsLive ∧ e.id = stripeId

/-- What the deliveries so far have left of the event `stripeId`: its row is
that of the first delivery, which alone can enqueue its task, and every later
delivery has been answered with a 2xx. -/
structure Describes (settings : WebhookSettings) (posts : List WebhookPost) (s : Mailbox)
    (stripeId : String) : Prop where
  absent : posts.find? (·.carries settings stripeId) = none →
    s.inbox.getByStripeId stripeId = none ∧ ¬ s.Answered2xx settings stripeId
  stored : ∀ post, posts.find? (·.carries settings stripeId) = some post →
    ∃ row, s.inbox.getByStripeId stripeId = some row ∧
      (row.id ∈ s.inbox.enqueued ↔ post.enqueueFails = false) ∧
      (s.Answered2xx settings stripeId ↔
        post.enqueueFails = false ∨ posts.countP (·.carries settings stripeId) ≠ 1)

variable {s : Mailbox} {posts : List WebhookPost} {post : WebhookPost} {stripeId : String}

theorem carries_of_none (h : post.request.brings settings = none) (stripeId : String) :
    post.carries settings stripeId = false := by
  simp [WebhookPost.carries, h]

theorem carries_of_some (h : post.request.brings settings = some e) (stripeId : String) :
    post.carries settings stripeId = decide (e.id = stripeId) := by
  simp [WebhookPost.carries, h]

/-- A further answer. -/
theorem answered2xx_append {inbox' : Inbox} {r : WebhookRequest} {answer : WebhookResponse} :
    Mailbox.Answered2xx settings ⟨inbox', s.answers ++ [(r, answer)]⟩ stripeId ↔
      s.Answered2xx settings stripeId ∨ (answer.is2xx = true ∧
        ∃ e, r.event = some e ∧ e.livemode = settings.keyIsLive ∧ e.id = stripeId) := by
  constructor
  · rintro ⟨r', answer', e, hmem, h2xx, hev, hlive, hid⟩
    rcases List.mem_append.mp hmem with hmem | hmem
    · exact Or.inl ⟨r', answer', e, hmem, h2xx, hev, hlive, hid⟩
    · cases List.mem_singleton.mp hmem
      exact Or.inr ⟨h2xx, e, hev, hlive, hid⟩
  · rintro (⟨r', answer', e, hmem, h⟩ | ⟨h2xx, e, h⟩)
    · exact ⟨r', answer', e, List.mem_append_left _ hmem, h⟩
    · exact ⟨r, answer, e, List.mem_append_right _ (List.mem_singleton.mpr rfl), h2xx, h⟩

/-- A delivery that does not carry the event leaves what is there of it. -/
theorem Describes.other {s' : Mailbox} (h : Describes settings posts s stripeId)
    (hcarries : post.carries settings stripeId = false)
    (hrow : s'.inbox.getByStripeId stripeId = s.inbox.getByStripeId stripeId)
    (henqueued : ∀ row ∈ s.inbox.rows, row.id ∈ s'.inbox.enqueued ↔ row.id ∈ s.inbox.enqueued)
    (hanswered : s'.Answered2xx settings stripeId ↔ s.Answered2xx settings stripeId) :
    Describes settings (posts ++ [post]) s' stripeId := by
  have hfind : (posts ++ [post]).find? (·.carries settings stripeId)
      = posts.find? (·.carries settings stripeId) := by
    simp [List.find?_append, hcarries]
  have hcount : (posts ++ [post]).countP (·.carries settings stripeId)
      = posts.countP (·.carries settings stripeId) := by
    simp [List.countP_append, hcarries]
  refine ⟨fun hnone => ?_, fun first hfirst => ?_⟩
  · rw [hrow, hanswered]
    exact h.absent (hfind ▸ hnone)
  · obtain ⟨row, hrow', htask, hans⟩ := h.stored first (hfind ▸ hfirst)
    rw [hrow, hanswered, hcount]
    exact ⟨row, hrow', (henqueued row (List.mem_of_find?_eq_some hrow')).trans htask, hans⟩

/-- **One delivery.** -/
theorem describes_deliver (h : ∀ stripeId, Describes settings posts s stripeId)
    (post : WebhookPost) (stripeId : String) :
    Describes settings (posts ++ [post]) (deliver settings s post) stripeId := by
  rcases stripeWebhook_cases settings s.inbox post.enqueueFails post.request with
    ⟨e, hbrings, hreceive⟩ | ⟨hbrings, answer, hanswer, hlive⟩
  case inr =>
    have hdeliver : deliver settings s post = ⟨s.inbox, s.answers ++ [(post.request, answer)]⟩ := by
      rw [deliver, hanswer]
    rw [hdeliver]
    refine (h stripeId).other (carries_of_none hbrings stripeId) rfl (fun _ _ => Iff.rfl) ?_
    rw [answered2xx_append]
    refine ⟨fun ha => ha.elim id ?_, Or.inl⟩
    rintro ⟨h2xx, e, hev, hmode, -⟩
    exact absurd hmode (hlive h2xx e hev)
  obtain ⟨-, -, hev, hmode⟩ := WebhookRequest.brings_eq_some_iff.mp hbrings
  have hanswered : ∀ answer : WebhookResponse, (answer.is2xx = true ∧
      ∃ e, post.request.event = some e ∧ e.livemode = settings.keyIsLive ∧ e.id = stripeId) ↔
        answer.is2xx = true ∧ e.id = stripeId := by
    grind
  have hcarries := carries_of_some hbrings stripeId
  rcases s.inbox.receive_cases post.enqueueFails e with ⟨row, hrow, hdup⟩ |
    ⟨hnone, inbox', answer, hfirst, h2xx, hrows, htask, htasks⟩
  · -- a redelivery
    have hdeliver : deliver settings s post
        = ⟨s.inbox, s.answers ++ [(post.request, .accepted)]⟩ := by
      rw [deliver, hreceive, hdup]
    rw [hdeliver]
    by_cases hid : e.id = stripeId
    · subst hid
      obtain ⟨first, hfound⟩ : ∃ first, posts.find? (·.carries settings e.id) = some first := by
        rcases hf : posts.find? (·.carries settings e.id) with - | first
        · rw [((h e.id).absent hf).1] at hrow
          cases hrow
        · exact ⟨first, hf⟩
      obtain ⟨row', hrow', htask, -⟩ := (h e.id).stored first hfound
      have hpos : 0 < posts.countP (·.carries settings e.id) :=
        List.countP_pos_iff.mpr ⟨first, List.mem_of_find?_eq_some hfound,
          List.find?_some hfound⟩
      refine ⟨fun habs => ?_, fun first' hfirst' => ⟨row', hrow', ?_, ?_⟩⟩
      · simp [List.find?_append, hfound] at habs
      · obtain rfl : first = first' := by simpa [List.find?_append, hfound] using hfirst'
        exact htask
      · refine iff_of_true (answered2xx_append.mpr (Or.inr ((hanswered _).mpr ⟨rfl, rfl⟩)))
          (Or.inr ?_)
        rw [List.countP_append, List.countP_singleton, if_pos (by simpa using hcarries)]
        omega
    · refine (h stripeId).other (by simp [hcarries, hid]) rfl (fun _ _ => Iff.rfl) ?_
      rw [answered2xx_append, hanswered]
      simp [hid]
  · -- the first delivery
    have hdeliver : deliver settings s post
        = ⟨inbox', s.answers ++ [(post.request, answer)]⟩ := by
      rw [deliver, hreceive, hfirst]
    rw [hdeliver]
    by_cases hid : e.id = stripeId
    · subst hid
      have habsent : posts.find? (·.carries settings e.id) = none := by
        rcases hf : posts.find? (·.carries settings e.id) with - | first
        · exact hf
        · obtain ⟨row, hrow, -⟩ := (h e.id).stored first hf
          rw [hnone] at hrow
          cases hrow
      have hfound : (posts ++ [post]).find? (·.carries settings e.id) = some post := by
        simp [List.find?_append, habsent, hcarries]
      have hcount : (posts ++ [post]).countP (·.carries settings e.id) = 1 := by
        have hzero : posts.countP (·.carries settings e.id) = 0 :=
          List.countP_eq_zero.mpr (List.find?_eq_none.mp habsent)
        rw [List.countP_append, hzero, List.countP_singleton, if_pos (by simpa using hcarries)]
      refine ⟨fun hnone' => ?_, fun first hfirst' => ⟨s.inbox.newRow e, ?_, ?_, ?_⟩⟩
      · rw [hfound] at hnone'
        cases hnone'
      · show inbox'.getByStripeId e.id = _
        rw [hrows, if_pos rfl]
      · obtain rfl : post = first := Option.some.inj (hfound.symm.trans hfirst')
        exact htask
      · obtain rfl : post = first := Option.some.inj (hfound.symm.trans hfirst')
        rw [answered2xx_append, hanswered, hcount, h2xx]
        simp [((h e.id).absent habsent).2]
    · refine (h stripeId).other (by simp [hcarries, hid]) ?_ htasks ?_
      · show inbox'.getByStripeId stripeId = _
        rw [hrows, if_neg hid]
      · rw [answered2xx_append, hanswered]
        simp [hid]

/-! ### Every sequence of deliveries -/

/-- The step of the system; every delivery is possible at any time. -/
def postStep (settings : WebhookSettings) (s : Mailbox) (post : WebhookPost) : Option Mailbox :=
  some (deliver settings s post)

theorem run_postStep (s : Mailbox) (posts : List WebhookPost) :
    Runs.run (postStep settings) s posts = some (posts.foldl (deliver settings) s) := by
  induction posts generalizing s with
  | nil => rfl
  | cons post posts ih => exact ih (deliver settings s post)

/-- **What a run leaves** of each event. -/
theorem describes_run (settings : WebhookSettings) (posts : List WebhookPost) (stripeId : String) :
    Describes settings posts (posts.foldl (deliver settings) .empty) stripeId := by
  induction posts using List.reverseRecOn generalizing stripeId with
  | nil =>
    refine ⟨fun _ => ⟨rfl, ?_⟩, fun _ h => by cases h⟩
    rintro ⟨r, answer, e, h, -⟩
    cases h
  | append_singleton posts post ih =>
    rw [List.foldl_append]
    exact describes_deliver ih post stripeId

/-- At the end of a run, an event is lost when its first enqueue failed and it
was delivered again. -/
theorem acceptedEnqueued_run_iff (settings : WebhookSettings) (posts : List WebhookPost) :
    AcceptedEnqueued settings (posts.foldl (deliver settings) .empty) ↔
      NoneRedelivered settings posts := by
  constructor
  · intro h stripeId post hfirst hfails
    obtain ⟨row, hrow, htask, hanswered⟩ := (describes_run settings posts stripeId).stored _ hfirst
    by_contra hagain
    obtain ⟨r, answer, e, hmem, h2xx, hev, hmode, rfl⟩ := hanswered.mpr (Or.inr hagain)
    obtain ⟨row', hrow', henq⟩ := h r answer e hmem h2xx hev hmode
    obtain rfl := Option.some.inj (hrow.symm.trans hrow')
    rw [htask.mp henq] at hfails
    cases hfails
  · intro h r answer e hmem h2xx hev hmode
    have hanswered : Mailbox.Answered2xx settings _ e.id :=
      ⟨r, answer, e, hmem, h2xx, hev, hmode, rfl⟩
    rcases hf : posts.find? (·.carries settings e.id) with - | post
    · exact absurd hanswered ((describes_run settings posts e.id).absent hf).2
    · obtain ⟨row, hrow, htask, hiff⟩ := (describes_run settings posts e.id).stored _ hf
      refine ⟨row, hrow, htask.mpr ?_⟩
      rcases hiff.mp hanswered with hok | hagain
      · exact hok
      · by_contra hfails
        exact hagain (h e.id post hf (by simpa using hfails))

/-- A prefix of a sequence without such a redelivery has none. -/
theorem NoneRedelivered.of_append {posts' : List WebhookPost}
    (h : NoneRedelivered settings (posts ++ posts')) : NoneRedelivered settings posts := by
  intro stripeId post hfirst hfails
  have hone := h stripeId post (by simp [List.find?_append, hfirst]) hfails
  have hpos : 0 < posts.countP (·.carries settings stripeId) :=
    List.countP_pos_iff.mpr ⟨post, List.mem_of_find?_eq_some hfirst, List.find?_some hfirst⟩
  rw [List.countP_append] at hone
  omega

/-- **No accepted event is lost** along a sequence of deliveries exactly when no
event whose first enqueue failed is delivered again. -/
theorem accepted_events_enqueued_iff (settings : WebhookSettings) (posts : List WebhookPost) :
    Runs.Always (postStep settings) (AcceptedEnqueued settings) .empty posts ↔
      NoneRedelivered settings posts := by
  rw [← acceptedEnqueued_run_iff]
  refine ⟨fun h => h.last (run_postStep _ _), fun h => ?_⟩
  rw [acceptedEnqueued_run_iff] at h
  refine Runs.always_of_prefix fun posts₁ t ⟨posts₂, happ⟩ hr => ?_
  obtain rfl := Option.some.inj ((run_postStep _ _).symm.trans hr)
  rw [acceptedEnqueued_run_iff]
  rw [← happ] at h
  exact h.of_append

/-! ### A broker that is down -/

def sampleWebhookSettings : WebhookSettings := ⟨"sk_live_1"⟩

/-- A signed event of the mode of the key. -/
def sampleWebhookRequest : WebhookRequest where
  contentLength := some 900
  bodyLength := 900
  signature := .verified
  event := some
    { id := "evt_1", type := "invoice.payment_failed", livemode := true
      payload := .invoicePaymentFailed }

/-- The broker refuses the first enqueue, and Stripe delivers the event again. -/
def sampleRedelivery : List WebhookPost :=
  [⟨sampleWebhookRequest, true⟩, ⟨sampleWebhookRequest, false⟩]

/-- The redelivery is accepted and nothing was ever enqueued. -/
theorem redelivery_loses_event :
    ∃ s, Runs.run (postStep sampleWebhookSettings) .empty sampleRedelivery = some s ∧
      s.answers.map (fun a => a.2.status) = [500, 202] ∧ s.inbox.rows.length = 1 ∧
      s.inbox.enqueued = [] ∧
      ¬ Runs.Always (postStep sampleWebhookSettings) (AcceptedEnqueued sampleWebhookSettings)
        .empty sampleRedelivery := by
  refine ⟨_, run_postStep _ _, by decide +kernel, by decide +kernel, by decide +kernel, fun h => ?_⟩
  have hnone := (acceptedEnqueued_run_iff _ _).mp (h.last (run_postStep _ _))
  have hone := hnone "evt_1" ⟨sampleWebhookRequest, true⟩ (by decide +kernel) rfl
  have htwo : sampleRedelivery.countP (·.carries sampleWebhookSettings "evt_1") = 2 := by
    decide +kernel
  omega

end Saasmint
