/-
Saasmint/Billing/PaidProducts.lean

What a paid product checkout leaves its buyer with: the session that
`ProductCheckoutSessionView` creates, the callback that its completed event
makes (apps/billing/views.py, services/webhooks.py) and the grant that the
callback runs to its end (apps/billing/services.py).

The reason on the ledger row is "purchase:" and the name of the product, in a
column of 64 characters, while a name may have 255.  So the buyer is credited
exactly when the name has at most 55 (`paid_checkout_credits_iff`); otherwise
the insert fails and nothing is granted.

A grant is taken from the interleaved model of `Credits`, as the run of one
call that nothing interrupts (`GrantCall.process`).
-/
import Saasmint.Billing.CheckoutSessions
import Saasmint.Billing.Credits

namespace Saasmint

open PyStr

/-! ### A grant on its own -/

/-- The step of a call that nothing interrupts. -/
def GrantState.next : GrantState → Option GrantStep
  | .start => some .lookup
  | .requested _ => some .insertLedger
  | .inserted _ | .retrying _ => some .selectBalance
  | .creating _ => some .insertBalance
  | .locked _ _ _ => some .update
  | .updated _ _ _ => some .commit
  | .granted | .duplicate | .skipped | .failed => none

/-- One more step of a call, if it has one. -/
def GrantCall.advance (call : GrantCall) (s : CreditShared Unit × GrantState) :
    CreditShared Unit × GrantState :=
  (s.2.next.bind (grantAct (fun _ => call) () s.1 s.2)).getD s

/-- No call has a lock. -/
def CreditDb.unlocked (db : CreditDb) : CreditShared Unit := ⟨db, fun _ => none, fun _ => none⟩

/-- A call on its own: six steps take it to its end. -/
def GrantCall.process (db : CreditDb) (call : GrantCall) : CreditShared Unit × GrantState :=
  call.advance^[6] (db.unlocked, .start)

variable {db : CreditDb} {call : GrantCall} {g : Grant} {σ : CreditShared Unit}

/-- What a call does on its own is a run of the credit system. -/
theorem GrantCall.iterate_run (call : GrantCall) (n : Nat) (s : CreditShared Unit × GrantState) :
    ∃ ls, Runs.run (Interleaving.step (grantAct fun _ => call)) ⟨s.1, fun _ => s.2⟩ ls
      = some ⟨(call.advance^[n] s).1, fun _ => (call.advance^[n] s).2⟩ := by
  induction n generalizing s with
  | zero => exact ⟨[], rfl⟩
  | succ n ih =>
    rw [Function.iterate_succ_apply]
    rcases hstep : s.2.next.bind (grantAct (fun _ => call) () s.1 s.2) with - | s'
    · -- no step, or a step that has to wait
      have hstay : call.advance s = s := by
        show (s.2.next.bind _).getD s = s
        rw [hstep]
        rfl
      rw [hstay]
      exact ih s
    · obtain ⟨a, -, hact⟩ := Option.bind_eq_some_iff.mp hstep
      have hmove : call.advance s = s' := by
        show (s.2.next.bind _).getD s = s'
        rw [hstep]
        rfl
      obtain ⟨ls, hls⟩ := ih s'
      refine ⟨((), a) :: ls, ?_⟩
      have hfirst : Interleaving.step (grantAct fun _ => call) ⟨s.1, fun _ => s.2⟩ ((), a)
          = some ⟨s'.1, fun _ => s'.2⟩ := by
        show Option.map _ (grantAct (fun _ => call) () s.1 s.2 a) = _
        rw [hact, Option.map_some]
        congr 2
      rw [Runs.run_cons, hfirst, Option.bind_some, hls, hmove]

/-- A call on its own keeps the books. -/
theorem GrantCall.process_balanced (h : db.Balanced) (call : GrantCall) :
    (call.process db).1.db.Balanced := by
  obtain ⟨ls, hls⟩ := GrantCall.iterate_run call 6 (db.unlocked, .start)
  have hI : CreditInv (creditInit Unit db) := ⟨h, fun _ => trivial⟩
  exact ((Runs.always_of_invariant creditInv_step hI ls).last hls).shared

/-! ### Its steps -/

theorem advance_start (h : call.request σ.db = .grant g) :
    call.advance (σ, .start) = (σ, .requested g) := by
  show (grantAct (fun _ => call) () σ .start .lookup).getD _ = _
  simp only [grantAct, h, Option.getD_some]

/-- A value that does not fit its column fails the insert. -/
theorem advance_requested_unfit (h : g.fits = false) :
    call.advance (σ, .requested g) = (σ, .failed) := by
  show (grantAct (fun _ => call) () σ (.requested g) .insertLedger).getD _ = _
  simp [grantAct, h]

theorem advance_requested (call : GrantCall) (hfits : g.fits = true)
    (hlock : σ.sessionLock g.sessionId = none)
    (hnew : σ.db.hasSession g.sessionId = false) :
    ∃ σ', call.advance (σ, .requested g) = (σ', .inserted g) ∧ σ'.db = σ.db ∧
      σ'.balanceLock = σ.balanceLock := by
  refine ⟨{ σ with sessionLock := Function.update σ.sessionLock g.sessionId (some ()) }, ?_, rfl,
    rfl⟩
  show (grantAct (fun _ => call) () σ (.requested g) .insertLedger).getD _ = _
  simp [grantAct, hfits, hlock, hnew]

/-- The balance row is locked in one step where there is one, else created in
two. -/
theorem advance_inserted (call : GrantCall) (hlock : σ.balanceLock g.owner = none) :
    ∃ σ', σ'.db = σ.db ∧
      ((σ.db.balanceOf g.owner).isNone = false ∧
          call.advance (σ, .inserted g)
            = (σ', .locked g ((σ.db.balanceOf g.owner).getD 0) false) ∨
        (σ.db.balanceOf g.owner).isNone = true ∧
          call.advance (call.advance (σ, .inserted g))
            = (σ', .locked g ((σ.db.balanceOf g.owner).getD 0) true)) := by
  refine ⟨{ σ with balanceLock := Function.update σ.balanceLock g.owner (some ()) }, rfl, ?_⟩
  rcases hrow : σ.db.balanceOf g.owner with - | b
  · right
    have hfirst : call.advance (σ, .inserted g) = (σ, .creating g) := by
      show (grantAct (fun _ => call) () σ (.inserted g) .selectBalance).getD _ = _
      simp [grantAct, hrow]
    refine ⟨rfl, ?_⟩
    rw [hfirst]
    show (grantAct (fun _ => call) () σ (.creating g) .insertBalance).getD _ = _
    simp [grantAct, hrow, hlock]
  · left
    refine ⟨rfl, ?_⟩
    show (grantAct (fun _ => call) () σ (.inserted g) .selectBalance).getD _ = _
    simp [grantAct, hrow, hlock]

theorem advance_locked {b : Int} {created : Bool} (hnonneg : 0 ≤ b + g.amount)
    (hmax : b + g.amount ≤ maxInteger) :
    call.advance (σ, .locked g b created) = (σ, .updated g (b + g.amount) created) := by
  show (grantAct (fun _ => call) () σ (.locked g b created) .update).getD _ = _
  simp [grantAct, hnonneg, hmax]

theorem advance_updated {b : Int} {created : Bool} :
    call.advance (σ, .updated g b created)
      = ({ σ.release () with db := σ.db.apply g b created }, .granted) := rfl

theorem advance_granted : call.advance (σ, .granted) = (σ, .granted) := rfl

theorem advance_failed : call.advance (σ, .failed) = (σ, .failed) := rfl

/-- A grant that does not fit fails and leaves the tables as they were. -/
theorem process_unfit (hrequest : call.request db = .grant g) (h : g.fits = false) :
    call.process db = (db.unlocked, .failed) := by
  have hstart : call.advance (db.unlocked, .start) = (db.unlocked, .requested g) :=
    advance_start hrequest
  show call.advance^[6] (db.unlocked, .start) = _
  simp only [Function.iterate_succ_apply, hstart, advance_requested_unfit h, advance_failed]
  rfl

/-- **A grant that fits is made**: its ledger row and the new balance are
committed. -/
theorem process_fit (hrequest : call.request db = .grant g) (hfits : g.fits = true)
    (hnew : db.hasSession g.sessionId = false)
    (hnonneg : 0 ≤ (db.balanceOf g.owner).getD 0 + g.amount)
    (hmax : (db.balanceOf g.owner).getD 0 + g.amount ≤ maxInteger) :
    (call.process db).2 = .granted ∧
      (call.process db).1.db
        = db.apply g ((db.balanceOf g.owner).getD 0 + g.amount) (db.balanceOf g.owner).isNone := by
  have hstart : call.advance (db.unlocked, .start) = (db.unlocked, .requested g) :=
    advance_start hrequest
  obtain ⟨σ₁, hinsert, hdb₁, hlock₁⟩ :=
    advance_requested (σ := db.unlocked) call hfits rfl hnew
  have hfree : σ₁.balanceLock g.owner = none := by
    rw [hlock₁]
    rfl
  have hprocess : call.process db = call.advance^[4] (σ₁, .inserted g) := by
    show call.advance^[6] (db.unlocked, .start) = _
    simp only [Function.iterate_succ_apply, hstart, hinsert]
  have hdb : σ₁.db = db := hdb₁
  obtain ⟨σ₂, hdb₂, hcase⟩ := advance_inserted call hfree
  rw [hdb] at hdb₂ hcase
  rcases hcase with ⟨hrow, hlocked⟩ | ⟨hrow, hlocked⟩
  · simp only [Function.iterate_succ_apply, hlocked, advance_locked hnonneg hmax, advance_updated,
      advance_granted, hdb₂] at hprocess
    rw [hprocess, hrow]
    exact ⟨rfl, rfl⟩
  · simp only [Function.iterate_succ_apply, hlocked, advance_locked hnonneg hmax, advance_updated,
      hdb₂] at hprocess
    rw [hprocess, hrow]
    exact ⟨rfl, rfl⟩

/-! ### A purchase -/

/-- Whose balance a product checkout is for. -/
def buyer (user : UUID) : Option UUID → Owner
  | none => .user user
  | some org => .org org

/-- The owner exists, and its balance has room for so many credits more. -/
structure CreditDb.RoomFor (db : CreditDb) (owner : Owner) (credits : Int) : Prop where
  user : ∀ u, owner = .user u → u ∈ db.users
  org : ∀ o, owner = .org o → o ∈ db.orgs
  nonneg : 0 ≤ (db.balanceOf owner).getD 0
  max : (db.balanceOf owner).getD 0 + credits ≤ maxInteger

/-- The values of the row fit their columns. -/
structure CreditTransaction.Fits (row : CreditTransaction) : Prop where
  reason : row.reason.length ≤ maxReason
  session : ∀ x, row.stripeSessionId = some x → x.length ≤ 255
  amount : row.amount ≤ maxInteger

/-- The owner has so many credits more, and every new row fits. -/
structure CreditDb.Credited (db db' : CreditDb) (owner : Owner) (credits : Int) : Prop where
  balance : db'.balanceOf owner = some ((db.balanceOf owner).getD 0 + credits)
  fits : ∀ row ∈ db'.ledger, row ∈ db.ledger ∨ row.Fits

/-- The grant of a purchase. -/
def Product.grant (product : Product) (hpos : 0 < product.credits) (owner : Owner)
    (sessionId : String) : Grant :=
  ⟨owner, product.credits, "purchase:" ++ product.name, sessionId, hpos⟩

variable {product : Product} {user : UUID} {org : Option UUID} {sessionId : String}

/-- The callback asks for the grant of the purchase. -/
theorem onProductCheckoutCompleted_request (hids : Table.Unique (fun p => some p.id) db.products)
    (hproduct : product ∈ db.products) (hpos : 0 < product.credits)
    (hroom : db.RoomFor (buyer user org) product.credits) :
    onProductCheckoutCompleted db sessionId product.id user org
      = .grant (product.grant hpos (buyer user org) sessionId) := by
  have hfind : db.products.find? (fun p => p.id = product.id) = some product := by
    have h := (Table.find?_eq_some_iff hids).mpr ⟨hproduct, rfl⟩
    simpa using h
  have hcredits : ¬ product.credits ≤ 0 := not_le.mpr hpos
  cases org with
  | none =>
    have huser := hroom.user user rfl
    simp only [onProductCheckoutCompleted, hfind, hcredits, huser, if_true, if_false,
      grantCreditsForSession, hpos, dite_true]
    rfl
  | some o =>
    have horg := hroom.org o rfl
    simp only [onProductCheckoutCompleted, hfind, hcredits, horg, if_true, if_false,
      grantCreditsForSession, hpos, dite_true]
    rfl

/-- "purchase:" takes 9 of the 64 characters. -/
theorem grant_fits_iff (hpos : 0 < product.credits) (owner : Owner)
    (hsession : sessionId.length ≤ 255) (hamount : product.credits ≤ maxInteger) :
    (product.grant hpos owner sessionId).fits = true ↔ product.name.length ≤ 55 := by
  have hlen : ("purchase:" ++ product.name).length = 9 + product.name.length := by
    rw [String.length_append]
    rfl
  simp only [Grant.fits, Product.grant, Bool.and_eq_true, decide_eq_true_eq, hlen, maxReason,
    hsession, hamount, and_true]
  omega

/-- A purchase is credited exactly when the name of the product leaves room for
the reason. -/
theorem process_purchase_iff (hids : Table.Unique (fun p => some p.id) db.products)
    (howners : Table.Unique (fun b => some b.owner) db.balances)
    (hproduct : product ∈ db.products) (hpos : 0 < product.credits)
    (hroom : db.RoomFor (buyer user org) product.credits)
    (hsession : sessionId.length ≤ 255) (hnew : db.hasSession sessionId = false) :
    let done := GrantCall.process db (.onProductCheckoutCompleted sessionId product.id user org)
    (done.2 = .granted ∧ db.Credited done.1.db (buyer user org) product.credits) ↔
      product.name.length ≤ 55 := by
  intro done
  have hrequest : GrantCall.request db (.onProductCheckoutCompleted sessionId product.id user org)
      = .grant (product.grant hpos (buyer user org) sessionId) :=
    onProductCheckoutCompleted_request hids hproduct hpos hroom
  have hamount : product.credits ≤ maxInteger := by
    have := hroom.nonneg
    have := hroom.max
    omega
  rw [← grant_fits_iff hpos (buyer user org) hsession hamount]
  constructor
  · rintro ⟨hgranted, -⟩
    by_contra hfits
    have hdone : done = (db.unlocked, .failed) :=
      process_unfit hrequest (Bool.eq_false_iff.mpr hfits)
    rw [hdone] at hgranted
    cases hgranted
  · intro hfits
    have hnonneg : 0 ≤ (db.balanceOf (buyer user org)).getD 0 + product.credits := by
      have := hroom.nonneg
      omega
    obtain ⟨hgranted, hdb⟩ := process_fit hrequest hfits hnew hnonneg hroom.max
    refine ⟨hgranted, ?_, ?_⟩
    · show (done.1.db).balanceOf _ = _
      rw [hdb]
      have hrow : ∀ o : Option Int, o = if o.isNone = true then none else some (o.getD 0) := by
        intro o
        cases o <;> rfl
      exact CreditDb.balanceOf_apply_self howners (hrow _)
    · intro row hrow
      rw [hdb] at hrow
      rcases List.mem_append.mp hrow with hrow | hrow
      · exact Or.inl hrow
      · right
        obtain rfl := List.mem_singleton.mp hrow
        simp only [Grant.fits, Bool.and_eq_true, decide_eq_true_eq] at hfits
        refine ⟨hfits.1.1, ?_, hfits.2⟩
        intro x hx
        obtain rfl := Option.some.inj hx
        exact hfits.1.2

variable {u : UnicodeTables} {t : CatalogTables} {st : Settings} {members : List OrgMember}

/-- **A paid product checkout credits its buyer exactly when the product's name
has at most 55 characters.** -/
theorem paid_checkout_credits_iff (huser : IsUuid user)
    (hproducts : ∀ pp ∈ t.productPrices, IsUuid pp.productId)
    (hmembers : ∀ m ∈ members, IsUuid m.org) {prefs : UserPreferences} {req : Request}
    {context : Option String} {body : ProductCheckoutBody} {customer : StripeId}
    {p : SessionParams}
    (h : ProductCheckoutSessionView.post u t st members user prefs req context body customer
      = .ok p)
    {id : StripeId} (hid : id.text.length ≤ 255) (subscription : Option String) (livemode : Bool)
    (hids : Table.Unique (fun p => some p.id) db.products)
    (howners : Table.Unique (fun b => some b.owner) db.balances)
    (hproduct : product ∈ db.products) (hpos : 0 < product.credits)
    (hbought : ∀ pp ∈ t.productPrices, pp.id = body.productPriceId → pp.productId = product.id)
    (hroom : ∀ c org, validateSubscriptionContext context = .ok c →
      resolveProductPurchaseContext members user c = .ok org →
      db.RoomFor (buyer user org) product.credits)
    (hnew : db.hasSession id.text = false) :
    ∃ org, checkoutCallbacks (p.completed id subscription livemode)
        = .ok [.onProductCheckoutCompleted id.text product.id user org] ∧
      let done := GrantCall.process db (.onProductCheckoutCompleted id.text product.id user org)
      ((done.2 = .granted ∧ db.Credited done.1.db (buyer user org) product.credits) ↔
        product.name.length ≤ 55) := by
  obtain ⟨pp, hpp, hppid, c, org, hc, horg, hcalls⟩ :=
    product_checkout_roundtrip huser hproducts hmembers h id subscription livemode
  rw [hbought pp hpp hppid] at hcalls
  exact ⟨org, hcalls,
    process_purchase_iff hids howners hproduct hpos (hroom c org hc horg) hid hnew⟩

/-- The tables of a shop that sells one product, under a name. -/
def boostNamed (name : String) : CreditDb where
  products := [⟨3, name, 50, true⟩]
  users := [6]
  orgs := [9]
  ledger := []
  balances := []

/-- The session that the shop's owner pays. -/
def boostSession : Except ServiceError SessionParams :=
  ProductCheckoutSessionView.post asciiTables shopCatalog.toCatalogTables eurSettings shopMembers 6
    shopPrefs ⟨none, none, none, none⟩ none ⟨4, shopLinks⟩ shopCustomer

theorem paid_checkout_credits_iff_boost :
    ∃ p, boostSession = .ok p ∧
      ∃ org, checkoutCallbacks (p.completed ⟨"cs_1", by decide⟩ none false)
          = .ok [.onProductCheckoutCompleted "cs_1" 3 6 org] ∧
        let done :=
          GrantCall.process (boostNamed "Boost") (.onProductCheckoutCompleted "cs_1" 3 6 org)
        ((done.2 = .granted ∧ (boostNamed "Boost").Credited done.1.db (buyer 6 org) 50) ↔
          "Boost".length ≤ 55) := by
  have huser : IsUuid 6 := by unfold IsUuid; decide
  have hproducts : ∀ pp ∈ shopCatalog.productPrices, IsUuid pp.productId := by
    unfold IsUuid
    decide
  have hmembers : ∀ m ∈ shopMembers, IsUuid m.org := by
    unfold IsUuid
    decide
  have hroom : ∀ c org, validateSubscriptionContext none = .ok c →
      resolveProductPurchaseContext shopMembers 6 c = .ok org →
      (boostNamed "Boost").RoomFor (buyer 6 org) 50 := by
    intro c org hc horg
    obtain rfl : c = none := (Except.ok.inj hc).symm
    obtain rfl : org = some 9 := (Except.ok.inj horg).symm
    refine ⟨?_, ?_, by decide, by decide⟩
    · rintro u ⟨⟩
    · rintro o ⟨⟩
      exact List.mem_singleton.mpr rfl
  have hproduct : (⟨3, "Boost", 50, true⟩ : Product) ∈ (boostNamed "Boost").products :=
    List.mem_singleton.mpr rfl
  have hbought : ∀ pp ∈ shopCatalog.productPrices, pp.id = 4 → pp.productId = 3 := by decide
  obtain ⟨p, hp⟩ : ∃ p, boostSession = .ok p := ⟨_, rfl⟩
  have hid : (⟨"cs_1", by decide⟩ : StripeId).text.length ≤ 255 := by decide
  exact ⟨p, hp, paid_checkout_credits_iff huser hproducts hmembers hp hid none false (by decide)
    (by decide) hproduct (by decide) hbought hroom rfl⟩

/-- A name of 57 characters: the customer has paid, the insert fails, and no
balance is raised. -/
theorem long_name_not_credited :
    let name := "Enterprise annual credit bundle for large research groups"
    ∃ p, boostSession = .ok p ∧
      checkoutCallbacks (p.completed ⟨"cs_1", by decide⟩ none false)
        = .ok [.onProductCheckoutCompleted "cs_1" 3 6 (some 9)] ∧
      let done :=
        GrantCall.process (boostNamed name) (.onProductCheckoutCompleted "cs_1" 3 6 (some 9))
      done.2 = .failed ∧ done.1.db.balances = [] ∧
        ¬ (boostNamed name).Credited done.1.db (.org 9) 50 := by
  refine ⟨_, rfl, rfl, rfl, rfl, ?_⟩
  rintro ⟨hbalance, -⟩
  cases hbalance

end Saasmint
