/-
Saasmint/Billing/Credits.lean

Granting credits for paid checkout sessions (apps/billing/services.py), by any
number of workers at once.

A grant is one database transaction: it inserts a ledger row, locks or creates
the owner's balance, writes the new balance and commits.  What the database
does is modelled to the level the code relies on:

* the unique index on the session id makes an insert wait for an uncommitted
  insert of the same id, and conflict with a committed one;
* a locked or uncommitted balance row makes others wait, and a read under the
  lock sees the last committed balance;
* a transaction that does not commit leaves no trace and gives up its locks.

`credits_run` is the result: balances always equal the sums of the ledger, no
session is in it twice, and only a step that grants changes anything.
-/
import Mathlib
import Saasmint.Billing.Models
import Saasmint.Lib.Interleaving
import Saasmint.Lib.Table

namespace Saasmint

structure CreditTransaction where
  owner : Owner
  amount : Int
  reason : String
  stripeSessionId : Option String
  deriving DecidableEq, Repr

structure CreditBalance where
  owner : Owner
  balance : Int
  deriving DecidableEq, Repr

/-- The tables that a grant reads and writes. -/
structure CreditDb where
  products : List Product
  users : List UUID
  orgs : List UUID
  ledger : List CreditTransaction
  balances : List CreditBalance
  deriving DecidableEq, Repr

namespace CreditDb

/-- The balance row of an owner. -/
def balanceOf (db : CreditDb) (owner : Owner) : Option Int :=
  (db.balances.find? fun b => some b.owner = some owner).map CreditBalance.balance

/-- The sum of an owner's ledger. -/
def ledgerSum (db : CreditDb) (owner : Owner) : Int :=
  ((db.ledger.filter fun t => t.owner = owner).map CreditTransaction.amount).sum

def hasSession (db : CreditDb) (sessionId : String) : Bool :=
  db.ledger.any fun t => t.stripeSessionId = some sessionId

/-- **The ledger invariant**: balances are sums of the ledger, there is one
balance row for an owner and one ledger row for a session. -/
structure Balanced (db : CreditDb) : Prop where
  session : Table.Unique CreditTransaction.stripeSessionId db.ledger
  owner : Table.Unique (fun b => some b.owner) db.balances
  balance : ∀ owner, (db.balanceOf owner).getD 0 = db.ledgerSum owner

end CreditDb

/-! ### Requests -/

/-- A grant whose arguments are in order. -/
structure Grant where
  owner : Owner
  amount : Int
  reason : String
  sessionId : String
  amount_pos : 0 < amount
  deriving DecidableEq, Repr

/-- A call: the webhook callback, or the service itself. -/
inductive GrantCall
  | onProductCheckoutCompleted (sessionId : String) (productId userId : UUID)
      (orgId : Option UUID)
  | grantCreditsForSession (sessionId : String) (amount : Int) (reason : String)
      (user org : Option UUID)
  deriving DecidableEq, Repr

/-- How a call begins. -/
inductive GrantRequest
  | grant (g : Grant)
  /-- Logged and dropped. -/
  | skip
  /-- `ValueError`. -/
  | raise
  deriving DecidableEq, Repr

/-- The checks of `grant_credits_for_session`. -/
def grantCreditsForSession (sessionId : String) (amount : Int) (reason : String)
    (user org : Option UUID) : GrantRequest :=
  match user, org with
  | some u, none =>
    if h : 0 < amount then .grant ⟨.user u, amount, reason, sessionId, h⟩ else .raise
  | none, some o =>
    if h : 0 < amount then .grant ⟨.org o, amount, reason, sessionId, h⟩ else .raise
  | _, _ => .raise

/-- The lookups of `on_product_checkout_completed`. -/
def onProductCheckoutCompleted (db : CreditDb) (sessionId : String) (productId userId : UUID)
    (orgId : Option UUID) : GrantRequest :=
  match db.products.find? fun p => p.id = productId with
  | none => .skip
  | some product =>
    if product.credits ≤ 0 then .skip
    else
      let reason := "purchase:" ++ product.name
      match orgId with
      | some org =>
        if org ∈ db.orgs then grantCreditsForSession sessionId product.credits reason
          none (some org)
        else .skip
      | none =>
        if userId ∈ db.users then
          grantCreditsForSession sessionId product.credits reason (some userId) none
        else .skip

def GrantCall.request (db : CreditDb) : GrantCall → GrantRequest
  | onProductCheckoutCompleted sessionId productId userId orgId =>
    Saasmint.onProductCheckoutCompleted db sessionId productId userId orgId
  | grantCreditsForSession sessionId amount reason user org =>
    Saasmint.grantCreditsForSession sessionId amount reason user org

/-! ### Transactions -/

variable {ι : Type*} [DecidableEq ι]

/-- The committed database, and who holds which uncommitted session id and
which balance row. -/
structure CreditShared (ι : Type*) where
  db : CreditDb
  sessionLock : String → Option ι
  balanceLock : Owner → Option ι

/-- Where a call is. -/
inductive GrantState
  | start
  | requested (g : Grant)
  /-- The ledger row is inserted, not committed. -/
  | inserted (g : Grant)
  /-- `get_or_create` found no balance row. -/
  | creating (g : Grant)
  /-- `get_or_create` met the row of another transaction and reads again. -/
  | retrying (g : Grant)
  /-- The balance row is locked, or created by this transaction. -/
  | locked (g : Grant) (balance : Int) (created : Bool)
  /-- The new balance is written, not committed. -/
  | updated (g : Grant) (balance : Int) (created : Bool)
  /-- Returned `True`. -/
  | granted
  /-- Returned `False`. -/
  | duplicate
  | skipped
  | failed
  deriving DecidableEq, Repr

inductive GrantStep
  | lookup | insertLedger | selectBalance | insertBalance | update | commit
  /-- The transaction fails: a lost connection, a deadlock, a crash. -/
  | abort
  /-- The task runs again. -/
  | retry
  deriving DecidableEq, Repr

/-- Give up the locks of a transaction. -/
def CreditShared.release (σ : CreditShared ι) (i : ι) : CreditShared ι where
  db := σ.db
  sessionLock x := if σ.sessionLock x = some i then none else σ.sessionLock x
  balanceLock x := if σ.balanceLock x = some i then none else σ.balanceLock x

/-- The database after a grant: its ledger row and the new balance. -/
def CreditDb.apply (db : CreditDb) (g : Grant) (balance : Int) (created : Bool) : CreditDb :=
  { db with
    ledger := db.ledger ++ [⟨g.owner, g.amount, g.reason, some g.sessionId⟩]
    balances :=
      if created then db.balances ++ [⟨g.owner, balance⟩]
      else Table.update CreditBalance.owner g.owner (fun b => { b with balance := balance })
        db.balances }

/-- The largest value of an `IntegerField`. -/
def maxInteger : Int := 2147483647

/-- `reason` is a `CharField(max_length=64)`. -/
def maxReason : Nat := 64

/-- The values of the ledger row fit their columns. -/
def Grant.fits (g : Grant) : Bool :=
  g.reason.length ≤ maxReason && g.sessionId.length ≤ 255 && g.amount ≤ maxInteger

/-- The step of a call. -/
def grantAct (calls : ι → GrantCall) (i : ι) (σ : CreditShared ι) :
    GrantState → GrantStep → Option (CreditShared ι × GrantState)
  | .start, .lookup =>
    match (calls i).request σ.db with
    | .grant g => some (σ, .requested g)
    | .skip => some (σ, .skipped)
    | .raise => some (σ, .failed)
  | .requested g, .insertLedger =>
    if !g.fits then some (σ, .failed)
    else match σ.sessionLock g.sessionId with
      | some _ => none
      | none =>
        -- the caught `IntegrityError` leaves a transaction that is rolled back
        if σ.db.hasSession g.sessionId then some (σ, .duplicate)
        else some ({ σ with sessionLock := Function.update σ.sessionLock g.sessionId (some i) },
          .inserted g)
  | .inserted g, .selectBalance =>
    match σ.db.balanceOf g.owner, σ.balanceLock g.owner with
    | none, _ => some (σ, .creating g)
    | some _, some _ => none
    | some b, none =>
      some ({ σ with balanceLock := Function.update σ.balanceLock g.owner (some i) },
        .locked g b false)
  | .creating g, .insertBalance =>
    match σ.db.balanceOf g.owner, σ.balanceLock g.owner with
    | _, some _ => none
    | some _, none => some (σ, .retrying g)
    | none, none => some ({ σ with balanceLock := Function.update σ.balanceLock g.owner (some i) },
        .locked g 0 true)
  | .retrying g, .selectBalance =>
    match σ.db.balanceOf g.owner, σ.balanceLock g.owner with
    | none, _ => some (σ.release i, .failed)
    | some _, some _ => none
    | some b, none =>
      some ({ σ with balanceLock := Function.update σ.balanceLock g.owner (some i) },
        .locked g b false)
  | .locked g b created, .update =>
    if 0 ≤ b + g.amount ∧ b + g.amount ≤ maxInteger then some (σ, .updated g (b + g.amount) created)
    else some (σ.release i, .failed)
  | .updated g b created, .commit =>
    some ({ σ.release i with db := σ.db.apply g b created }, .granted)
  | .inserted _, .abort | .creating _, .abort | .retrying _, .abort | .locked _ _ _, .abort
  | .updated _ _ _, .abort => some (σ.release i, .failed)
  | .start, .abort | .requested _, .abort => some (σ, .failed)
  | .failed, .retry => some (σ, .start)
  | _, _ => none

abbrev CreditSystem (ι : Type*) := Interleaving.State ι (CreditShared ι) GrantState

/-- No call has begun, and nothing is locked. -/
def creditInit (ι : Type*) (db : CreditDb) : CreditSystem ι :=
  ⟨⟨db, fun _ => none, fun _ => none⟩, fun _ => .start⟩

/-! ### What a step can do -/

/-- What a call may rely on between its steps: its session id is its own and
new to the ledger, and so is the balance row, once it has it. -/
def Holds (i : ι) (σ : CreditShared ι) : GrantState → Prop
  | .inserted g | .creating g | .retrying g =>
    σ.sessionLock g.sessionId = some i ∧ σ.db.hasSession g.sessionId = false
  | .locked g b created =>
    (σ.sessionLock g.sessionId = some i ∧ σ.db.hasSession g.sessionId = false) ∧
      σ.balanceLock g.owner = some i ∧
      σ.db.balanceOf g.owner = (if created then none else some b) ∧ (created = true → b = 0)
  | .updated g b created =>
    (σ.sessionLock g.sessionId = some i ∧ σ.db.hasSession g.sessionId = false) ∧
      σ.balanceLock g.owner = some i ∧
      σ.db.balanceOf g.owner = (if created then none else some (b - g.amount)) ∧
      (created = true → b = g.amount)
  | _ => True

/-- The kinds of step. -/
inductive GrantEffect (i : ι) (σ : CreditShared ι) (κ : GrantState) :
    CreditShared ι → GrantState → Prop
  | move (κ' : GrantState) (hκ : Holds i σ κ → Holds i σ κ') (hg : κ' ≠ .granted) :
      GrantEffect i σ κ σ κ'
  | giveUp : GrantEffect i σ κ (σ.release i) .failed
  | lockSession (g : Grant) (hfree : σ.sessionLock g.sessionId = none)
      (hnew : σ.db.hasSession g.sessionId = false) :
      GrantEffect i σ κ
        { σ with sessionLock := Function.update σ.sessionLock g.sessionId (some i) } (.inserted g)
  | lockBalance (g : Grant) (b : Int) (created : Bool) (hfree : σ.balanceLock g.owner = none)
      (hsession : Holds i σ κ → Holds i σ (.inserted g))
      (hrow : σ.db.balanceOf g.owner = if created then none else some b)
      (hzero : created = true → b = 0) :
      GrantEffect i σ κ
        { σ with balanceLock := Function.update σ.balanceLock g.owner (some i) }
        (.locked g b created)
  | commit (g : Grant) (b : Int) (created : Bool) (hκ : κ = .updated g b created) :
      GrantEffect i σ κ { σ.release i with db := σ.db.apply g b created } .granted

variable {calls : ι → GrantCall}

theorem grantAct_effect {i : ι} {σ σ' : CreditShared ι} {κ κ' : GrantState} {a : GrantStep}
    (h : grantAct calls i σ κ a = some (σ', κ')) : GrantEffect i σ κ σ' κ' ∧ κ ≠ .granted := by
  cases κ with
  | start =>
    refine ⟨?_, by simp⟩
    cases a <;> simp only [grantAct, reduceCtorEq, Option.some.injEq, Prod.mk.injEq] at h
    case lookup =>
      split at h <;> cases h <;> exact .move _ (fun _ => trivial) (by simp)
    case abort =>
      obtain ⟨rfl, rfl⟩ := h
      exact .move _ (fun _ => trivial) (by simp)
  | requested g =>
    refine ⟨?_, by simp⟩
    cases a <;> simp only [grantAct, reduceCtorEq, Option.some.injEq, Prod.mk.injEq] at h
    case insertLedger =>
      -- refused by the columns, waiting, refused by the ledger, or inserted
      split at h
      · cases h
        exact .move _ (fun _ => trivial) (by simp)
      · split at h
        · cases h
        · split at h
          case isTrue =>
            cases h
            exact .move _ (fun _ => trivial) (by simp)
          case isFalse hno =>
            cases h
            exact .lockSession g ‹_› (Bool.eq_false_iff.mpr hno)
    case abort =>
      obtain ⟨rfl, rfl⟩ := h
      exact .move _ (fun _ => trivial) (by simp)
  | inserted g =>
    refine ⟨?_, by simp⟩
    cases a <;> simp only [grantAct, reduceCtorEq, Option.some.injEq, Prod.mk.injEq] at h
    case selectBalance =>
      split at h <;> cases h
      · exact .move _ id (by simp)
      · exact .lockBalance g _ false ‹_› id (by simpa using ‹_›) (by simp)
    case abort =>
      obtain ⟨rfl, rfl⟩ := h
      exact .giveUp
  | creating g =>
    refine ⟨?_, by simp⟩
    cases a <;> simp only [grantAct, reduceCtorEq, Option.some.injEq, Prod.mk.injEq] at h
    case insertBalance =>
      split at h <;> cases h
      · exact .move _ id (by simp)
      · exact .lockBalance g 0 true ‹_› id (by simpa using ‹_›) (by simp)
    case abort =>
      obtain ⟨rfl, rfl⟩ := h
      exact .giveUp
  | retrying g =>
    refine ⟨?_, by simp⟩
    cases a <;> simp only [grantAct, reduceCtorEq, Option.some.injEq, Prod.mk.injEq] at h
    case selectBalance =>
      split at h <;> cases h
      · exact .giveUp
      · exact .lockBalance g _ false ‹_› id (by simpa using ‹_›) (by simp)
    case abort =>
      obtain ⟨rfl, rfl⟩ := h
      exact .giveUp
  | locked g b created =>
    refine ⟨?_, by simp⟩
    cases a <;> simp only [grantAct, reduceCtorEq, Option.some.injEq, Prod.mk.injEq] at h
    case update =>
      split at h <;> cases h
      · -- the committed balance is the new one without the credits
        refine .move _ (fun ⟨hs, hl, hb, hz⟩ => ⟨hs, hl, ?_, fun hc => ?_⟩) (by simp)
        · rw [hb, add_sub_cancel_right]
        · rw [hz hc, zero_add]
      · exact .giveUp
    case abort =>
      obtain ⟨rfl, rfl⟩ := h
      exact .giveUp
  | updated g b created =>
    refine ⟨?_, by simp⟩
    cases a <;> simp only [grantAct, reduceCtorEq, Option.some.injEq, Prod.mk.injEq] at h
    case commit =>
      obtain ⟨rfl, rfl⟩ := h
      exact .commit g b created rfl
    case abort =>
      obtain ⟨rfl, rfl⟩ := h
      exact .giveUp
  | failed =>
    refine ⟨?_, by simp⟩
    cases a <;> simp only [grantAct, reduceCtorEq, Option.some.injEq, Prod.mk.injEq] at h
    obtain ⟨rfl, rfl⟩ := h
    exact .move _ (fun _ => trivial) (by simp)
  | granted => cases a <;> cases h
  | duplicate => cases a <;> cases h
  | skipped => cases a <;> cases h

/-! ### The ledger invariant -/

namespace CreditDb

variable {db : CreditDb} {g : Grant} {b : Int} {created : Bool}

theorem hasSession_eq_true_iff {x : String} :
    db.hasSession x = true ↔ ∃ t ∈ db.ledger, t.stripeSessionId = some x := by
  simp [hasSession]

theorem hasSession_apply (x : String) :
    (db.apply g b created).hasSession x = (db.hasSession x || g.sessionId = x) := by
  simp [hasSession, apply]

theorem balanceOf_eq_some_iff (h : Table.Unique (fun b => some b.owner) db.balances)
    {owner : Owner} {b : Int} : db.balanceOf owner = some b ↔ ⟨owner, b⟩ ∈ db.balances := by
  unfold balanceOf
  rw [Option.map_eq_some_iff]
  constructor
  · rintro ⟨row, hrow, rfl⟩
    obtain ⟨hmem, howner⟩ := (Table.find?_eq_some_iff h).mp hrow
    obtain rfl := Option.some.inj howner
    exact hmem
  · intro hmem
    exact ⟨⟨owner, b⟩, (Table.find?_eq_some_iff h).mpr ⟨hmem, rfl⟩, rfl⟩

theorem balanceOf_eq_none_iff {owner : Owner} :
    db.balanceOf owner = none ↔ ∀ r ∈ db.balances, r.owner ≠ owner := by
  simp [balanceOf]

/-- Owners stay unique, when a row is only created where there is none. -/
theorem unique_owner_apply (h : Table.Unique (fun b => some b.owner) db.balances)
    (hnone : created = true → db.balanceOf g.owner = none) :
    Table.Unique (fun b => some b.owner) (db.apply g b created).balances := by
  cases created with
  | true =>
    refine Table.unique_append h fun r hr v hv hw => ?_
    refine balanceOf_eq_none_iff.mp (hnone rfl) r hr ?_
    simp only [Option.some.injEq] at hv hw
    exact hw.trans hv.symm
  | false =>
    refine Table.unique_update h h fun a ha hak r hr hrk v hv hw => hrk ?_
    simp only [Option.some.injEq] at hv hw
    rw [hw, ← hv]
    exact hak

/-- The balance of the owner after a grant is the one written. -/
theorem balanceOf_apply_self (h : Table.Unique (fun b => some b.owner) db.balances)
    {old : Int} (hrow : db.balanceOf g.owner = if created then none else some old) :
    (db.apply g b created).balanceOf g.owner = some b := by
  have hu : Table.Unique (fun b => some b.owner) (db.apply g b created).balances :=
    unique_owner_apply h fun hc => by rw [hrow, if_pos hc]
  rw [balanceOf_eq_some_iff hu]
  cases created with
  | true => exact List.mem_append_right _ (List.mem_singleton.mpr rfl)
  | false =>
    have hmem := (balanceOf_eq_some_iff h).mp hrow
    exact Table.mem_update.mpr (Or.inr ⟨_, hmem, rfl, rfl⟩)

/-- A grant leaves every other balance as it was. -/
theorem balanceOf_apply_other (h : Table.Unique (fun b => some b.owner) db.balances)
    (hnone : created = true → db.balanceOf g.owner = none) {owner : Owner} (hne : owner ≠ g.owner) :
    (db.apply g b created).balanceOf owner = db.balanceOf owner := by
  refine Option.ext fun c => ?_
  rw [balanceOf_eq_some_iff (unique_owner_apply h hnone), balanceOf_eq_some_iff h]
  cases created with
  | true =>
    simp only [apply, if_true, List.mem_append, List.mem_singleton, CreditBalance.mk.injEq]
    exact or_iff_left fun hc => hne hc.1
  | false =>
    simp only [apply, Bool.false_eq_true, if_false, Table.mem_update]
    constructor
    · rintro (⟨hmem, -⟩ | ⟨a, -, ha, heq⟩)
      · exact hmem
      · exact absurd ((congrArg CreditBalance.owner heq).trans ha) hne
    · exact fun hmem => Or.inl ⟨hmem, hne⟩

theorem ledgerSum_apply (owner : Owner) :
    (db.apply g b created).ledgerSum owner
      = db.ledgerSum owner + if g.owner = owner then g.amount else 0 := by
  by_cases h : g.owner = owner <;> simp [ledgerSum, apply, List.filter_append, h]

/-- **One grant keeps the books.** -/
theorem Balanced.apply (h : db.Balanced) (hsession : db.hasSession g.sessionId = false)
    (hrow : db.balanceOf g.owner = if created then none else some (b - g.amount))
    (hzero : created = true → b = g.amount) : (db.apply g b created).Balanced where
  session := by
    refine Table.unique_append h.session fun t ht v hv hw => ?_
    obtain rfl := Option.some.inj hv
    have := hasSession_eq_true_iff.mpr ⟨t, ht, hw⟩
    rw [hsession] at this
    cases this
  owner := unique_owner_apply h.owner fun hc => by rw [hrow, if_pos hc]
  balance := by
    intro owner
    rw [ledgerSum_apply, ← h.balance owner]
    by_cases ho : owner = g.owner
    · subst ho
      rw [balanceOf_apply_self h.owner hrow, hrow, if_pos rfl]
      cases created with
      | true => simp [hzero rfl]
      | false => simp
    · rw [balanceOf_apply_other h.owner (fun hc => by rw [hrow, if_pos hc]) ho,
        if_neg (Ne.symm ho), add_zero]

end CreditDb

/-- Giving up the locks of one call leaves those of the others. -/
theorem release_sessionLock {σ : CreditShared ι} {i j : ι} (hij : j ≠ i) {x : String}
    (h : σ.sessionLock x = some j) : (σ.release i).sessionLock x = some j := by
  simp [CreditShared.release, h, hij]

theorem release_balanceLock {σ : CreditShared ι} {i j : ι} (hij : j ≠ i) {x : Owner}
    (h : σ.balanceLock x = some j) : (σ.release i).balanceLock x = some j := by
  simp [CreditShared.release, h, hij]

omit [DecidableEq ι] in
/-- What a call relies on is about its session id and its owner only. -/
theorem Holds.congr {j : ι} {σ σ' : CreditShared ι} {κ : GrantState} (h : Holds j σ κ)
    (hs : ∀ x, σ.sessionLock x = some j → σ'.sessionLock x = some j ∧
      σ'.db.hasSession x = σ.db.hasSession x)
    (hb : ∀ x, σ.balanceLock x = some j → σ'.balanceLock x = some j ∧
      σ'.db.balanceOf x = σ.db.balanceOf x) : Holds j σ' κ := by
  have hsession : ∀ g : Grant,
      σ.sessionLock g.sessionId = some j ∧ σ.db.hasSession g.sessionId = false →
      σ'.sessionLock g.sessionId = some j ∧ σ'.db.hasSession g.sessionId = false :=
    fun g hg => ⟨(hs _ hg.1).1, (hs _ hg.1).2.trans hg.2⟩
  cases κ with
  | inserted g => exact hsession g h
  | creating g => exact hsession g h
  | retrying g => exact hsession g h
  | locked g b created =>
    obtain ⟨hg, hl, hrow, hz⟩ := h
    exact ⟨hsession g hg, (hb _ hl).1, (hb _ hl).2.trans hrow, hz⟩
  | updated g b created =>
    obtain ⟨hg, hl, hrow, hz⟩ := h
    exact ⟨hsession g hg, (hb _ hl).1, (hb _ hl).2.trans hrow, hz⟩
  | start | requested | granted | duplicate | skipped | failed => trivial

/-! ### Every interleaving -/

/-- The committed database of a system is in balance, and every call has what
it relies on. -/
abbrev CreditInv : CreditSystem ι → Prop :=
  Interleaving.Inv (fun σ => σ.db.Balanced) Holds

theorem creditInv_step (s : CreditSystem ι) (l : ι × GrantStep) (s' : CreditSystem ι)
    (hI : CreditInv s) (h : Interleaving.step (grantAct calls) s l = some s') : CreditInv s' := by
  refine Interleaving.inv_step (fun i σ κ a σ' κ' hG hL hact => ?_)
    (fun i σ κ a σ' κ' hG hL hact j κⱼ hj hLj => ?_) s l s' hI h
  · -- the call that acts
    cases (grantAct_effect hact).1 with
    | move κ' hκ hg => exact ⟨hG, hκ hL⟩
    | giveUp => exact ⟨hG, trivial⟩
    | lockSession g hfree hnew => exact ⟨hG, by simp [Holds, hnew]⟩
    | lockBalance g b created hfree hsession hrow hzero =>
      exact ⟨hG, hsession hL, by simp, hrow, hzero⟩
    | commit g b created hκ =>
      subst hκ
      obtain ⟨⟨-, hnew⟩, -, hrow, hzero⟩ := hL
      exact ⟨hG.apply hnew hrow hzero, trivial⟩
  · -- the others keep what they rely on
    cases (grantAct_effect hact).1 with
    | move κ' hκ hg => exact hLj
    | giveUp =>
      exact hLj.congr (fun x hx => ⟨release_sessionLock hj hx, rfl⟩)
        fun x hx => ⟨release_balanceLock hj hx, rfl⟩
    | lockSession g hfree hnew =>
      refine hLj.congr (fun x hx => ⟨?_, rfl⟩) fun x hx => ⟨hx, rfl⟩
      -- the id was free, so it is not one of theirs
      have hne : x ≠ g.sessionId := by
        rintro rfl
        rw [hfree] at hx
        cases hx
      simpa [hne] using hx
    | lockBalance g b created hfree hsession hrow hzero =>
      refine hLj.congr (fun x hx => ⟨hx, rfl⟩) fun x hx => ⟨?_, rfl⟩
      have hne : x ≠ g.owner := by
        rintro rfl
        rw [hfree] at hx
        cases hx
      simpa [hne] using hx
    | commit g b created hκ =>
      subst hκ
      obtain ⟨⟨hsl, -⟩, hbl, hrow, -⟩ := hL
      refine hLj.congr (fun x hx => ⟨release_sessionLock hj hx, ?_⟩)
        fun x hx => ⟨release_balanceLock hj hx, ?_⟩
      · have hne : g.sessionId ≠ x := by
          rintro rfl
          exact hj (Option.some.inj (hx.symm.trans hsl))
        simp [CreditDb.hasSession_apply, hne]
      · have hne : x ≠ g.owner := by
          rintro rfl
          exact hj (Option.some.inj (hx.symm.trans hbl))
        exact CreditDb.balanceOf_apply_other hG.owner (fun hc => by rw [hrow, if_pos hc]) hne

/-- Only a step that grants changes the committed tables, and a call that has
granted does nothing more: a call that fails, is dropped or is a duplicate has
left the balances and the ledger as they were at each of its steps. -/
def OnlyGrantsChange (calls : ι → GrantCall) (s : CreditSystem ι) (l : ι × GrantStep) : Prop :=
  s.procs l.1 ≠ .granted ∧
    ∀ s', Interleaving.step (grantAct calls) s l = some s' → s'.procs l.1 ≠ .granted →
      s'.shared.db = s.shared.db

theorem onlyGrantsChange {s s' : CreditSystem ι} {l : ι × GrantStep}
    (h : Interleaving.step (grantAct calls) s l = some s') : OnlyGrantsChange calls s l := by
  obtain ⟨i, a⟩ := l
  refine ⟨?_, fun s₂ h₂ hne => ?_⟩
  · obtain ⟨σ', κ', hact, -⟩ := Interleaving.step_eq_some h
    exact (grantAct_effect hact).2
  · obtain ⟨σ', κ', hact, rfl⟩ := Interleaving.step_eq_some h₂
    cases (grantAct_effect hact).1 with
    | move => rfl
    | giveUp => rfl
    | lockSession => rfl
    | lockBalance => rfl
    | commit g b created hκ => simp at hne

/-- **The credit ledger.**  From tables in balance, over any interleaving of any
number of calls, every state reached is in balance, and only granting steps
change the tables. -/
theorem credits_run {db : CreditDb} (hdb : db.Balanced) (ls : List (ι × GrantStep)) :
    Runs.Always (Interleaving.step (grantAct calls)) (fun s => s.shared.db.Balanced)
        (creditInit ι db) ls ∧
      Runs.EachStep (Interleaving.step (grantAct calls)) (OnlyGrantsChange calls)
        (creditInit ι db) ls := by
  have hI : CreditInv (creditInit ι db) := ⟨hdb, fun _ => trivial⟩
  constructor
  · exact (Runs.always_of_invariant creditInv_step hI ls).mono fun s hs => hs.shared
  · exact Runs.eachStep_of_step (fun s l s' h => onlyGrantsChange h) _ ls

/-- A product of 100 credits and a user who has bought nothing yet. -/
def sampleCreditDb : CreditDb where
  products := [⟨1, "Pack", 100, true⟩]
  users := [4]
  orgs := []
  ledger := []
  balances := []

/-- One session delivered twice, to two workers. -/
def sampleCalls : Fin 2 → GrantCall := fun _ => .onProductCheckoutCompleted "cs_1" 1 4 none

/-- Both workers start; the second waits for the first, and is a duplicate. -/
def sampleGrantRun : List (Fin 2 × GrantStep) :=
  [(0, .lookup), (1, .lookup), (0, .insertLedger), (0, .selectBalance), (0, .insertBalance),
    (0, .update), (0, .commit), (1, .insertLedger)]

theorem credits_run_sample :
    Runs.Always (Interleaving.step (grantAct sampleCalls)) (fun s => s.shared.db.Balanced)
        (creditInit (Fin 2) sampleCreditDb) sampleGrantRun ∧
      Runs.EachStep (Interleaving.step (grantAct sampleCalls)) (OnlyGrantsChange sampleCalls)
        (creditInit (Fin 2) sampleCreditDb) sampleGrantRun :=
  credits_run ⟨by decide, by decide, fun _ => rfl⟩ sampleGrantRun

example : (Runs.run (Interleaving.step (grantAct sampleCalls)) (creditInit (Fin 2) sampleCreditDb)
    sampleGrantRun).map (fun s => (s.procs 1, s.shared.db.balances))
      = some (.duplicate, [⟨.user 4, 100⟩]) := by decide

end Saasmint
