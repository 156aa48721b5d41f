/-
Saasmint/Billing/CatalogAudit.lean

The audit of the Stripe account against the local catalog
(management/commands/audit_stripe_catalog.py).  The products that are active are
read page by page and split by their metadata into those that belong to a local
row and strays; `--archive` sets every stray inactive on which it finds no
active subscription.

It looks for subscriptions on the active recurring prices of the product, and
for the status `active` only.  A product is treated as it should be exactly
where that view and the reading of the metadata are not deceived
(`audit_iff_sees`); on a product that the sync has written only the
subscriptions can deceive it (`sees_of_synced`).
-/
import Saasmint.Billing.Models
import Saasmint.Lib.Paging
import Saasmint.Lib.PyStr

namespace Saasmint

/-! ### The account -/

structure AuditProduct where
  id : String
  name : String
  active : Bool
  metadata : Option (List (String × String))
  deriving DecidableEq, Repr

structure AuditPrice where
  id : String
  product : String
  active : Bool
  /-- The interval of a recurring price. -/
  recurring : Option String
  deriving DecidableEq, Repr

/-- A subscription, with the prices of its items. -/
structure AuditSubscription where
  id : String
  status : SubscriptionStatus
  prices : List String
  deriving DecidableEq, Repr

/-- A Stripe account.  An id is the id of one object. -/
structure StripeAccount where
  products : List AuditProduct
  prices : List AuditPrice
  subscriptions : List AuditSubscription
  product_ids : (products.map AuditProduct.id).Nodup
  price_ids : (prices.map AuditPrice.id).Nodup

namespace StripeAccount

variable (a : StripeAccount)

/-- `stripe.Product.list(active=True, limit=100).auto_paging_iter()`. -/
def productList : List AuditProduct :=
  Paging.listAll AuditProduct.id (a.products.filter AuditProduct.active) 100

/-- `stripe.Price.list(product=..., active=True, limit=100).auto_paging_iter()`. -/
def priceList (product : String) : List AuditPrice :=
  Paging.listAll AuditPrice.id
    (a.prices.filter fun price => price.product = product && price.active) 100

/-- `stripe.Subscription.list(price=..., status=..., limit=...).data`: the first page. -/
def subscriptionList (price : String) (status : SubscriptionStatus) (limit : Nat) :
    List AuditSubscription :=
  (a.subscriptions.filter fun s => price ∈ s.prices && s.status = status).take limit

end StripeAccount

/-- A product after `stripe.Product.modify(id, active=...)`. -/
def AuditProduct.modified (id : String) (active : Bool) (p : AuditProduct) : AuditProduct :=
  if p.id = id then { p with active := active } else p

@[simp] theorem AuditProduct.modified_id (id : String) (active : Bool) (p : AuditProduct) :
    (p.modified id active).id = p.id := by
  unfold modified
  split
  · rfl
  · rfl

/-- `stripe.Product.modify(id, active=...)`. -/
def StripeAccount.productModify (a : StripeAccount) (id : String) (active : Bool) :
    StripeAccount :=
  { a with
    products := a.products.map (AuditProduct.modified id active)
    product_ids := by
      rw [List.map_map]
      simpa [Function.comp_def] using a.product_ids }

/-! ### The command -/

def productMetadata (sp : AuditProduct) : List (String × String) := sp.metadata.getD []

/-- `md.get("local_plan_id") or md.get("local_product_id")`. -/
def localId (md : List (String × String)) : Option String :=
  match md.lookup "local_plan_id" with
  | none | some "" => md.lookup "local_product_id"
  | some id => some id

/-- The product belongs to a local row. -/
def isOwned (localPlanIds localProductIds : List String) (sp : AuditProduct) : Bool :=
  let md := productMetadata sp
  let kind := md.lookup "kind"
  (kind = some "plan" && (localId md).any (· ∈ localPlanIds))
    || (kind = some "product" && (localId md).any (· ∈ localProductIds))

/-- The strays with their metadata, and the number of products that are owned. -/
def classifyProducts (a : StripeAccount) (localPlanIds localProductIds : List String) :
    List (AuditProduct × List (String × String)) × Nat :=
  a.productList.foldl
    (fun acc sp =>
      if isOwned localPlanIds localProductIds sp then (acc.1, acc.2 + 1)
      else (acc.1 ++ [(sp, productMetadata sp)], acc.2))
    ([], 0)

/-- The loop over the prices of a product, which ends at the first active
subscription. -/
def hasActiveSub (a : StripeAccount) : List AuditPrice → Bool
  | [] => false
  | price :: prices =>
    if price.recurring = none then hasActiveSub a prices
    else if a.subscriptionList price.id .active 1 ≠ [] then true
    else hasActiveSub a prices

/-- What the command prints. -/
inductive AuditLine
  | notConfigured
  | owned (count : Nat)
  | stray (count : Nat)
  | product (id name : String) (metadata : List (String × String))
  | runWithArchive
  | skipping (id : String)
  | archived (id : String)
  deriving DecidableEq, Repr

def archiveStrays : StripeAccount → List (AuditProduct × List (String × String)) →
    StripeAccount × List AuditLine
  | a, [] => (a, [])
  | a, (sp, _) :: strays =>
    if hasActiveSub a (a.priceList sp.id) then
      let result := archiveStrays a strays
      (result.1, .skipping sp.id :: result.2)
    else
      let result := archiveStrays (a.productModify sp.id false) strays
      (result.1, .archived sp.id :: result.2)

/-- `str(pid)` of every plan, and of every product. -/
def localPlanIds (t : CatalogTables) : List String := t.plans.map fun p => PyStr.uuidText p.id

def localProductIds (t : CatalogTables) : List String :=
  t.products.map fun p => PyStr.uuidText p.id

/-- `Command.handle`: the account after it, and what it prints. -/
def audit (apiKey : String) (archive : Bool) (t : CatalogTables) (a : StripeAccount) :
    StripeAccount × List AuditLine :=
  if apiKey = "" then (a, [.notConfigured])
  else
    let (strays, owned) := classifyProducts a (localPlanIds t) (localProductIds t)
    let lines := [.owned owned, .stray strays.length]
    if strays = [] then (a, lines)
    else
      let lines := lines ++ strays.map fun e => .product e.1.id e.1.name e.2
      if archive then
        let result := archiveStrays a strays
        (result.1, lines ++ result.2)
      else (a, lines ++ [.runWithArchive])

/-! ### What is read -/

theorem StripeAccount.productList_eq (a : StripeAccount) :
    a.productList = a.products.filter AuditProduct.active :=
  Paging.listAll_eq (a.product_ids.sublist (List.filter_sublist.map _)) (by decide)

theorem StripeAccount.priceList_eq (a : StripeAccount) (product : String) :
    a.priceList product
      = a.prices.filter fun price => price.product = product && price.active :=
  Paging.listAll_eq (a.price_ids.sublist (List.filter_sublist.map _)) (by decide)

/-- Asking for one subscription tells whether there is one. -/
theorem StripeAccount.subscriptionList_ne_nil_iff (a : StripeAccount) (price : String)
    (status : SubscriptionStatus) :
    a.subscriptionList price status 1 ≠ []
      ↔ ∃ s ∈ a.subscriptions, price ∈ s.prices ∧ s.status = status := by
  unfold subscriptionList
  rw [Ne, List.take_eq_nil_iff, not_or, List.filter_eq_nil_iff]
  simp

/-- The strays are the active products that are not owned. -/
theorem classifyProducts_eq (a : StripeAccount) (plans products : List String) :
    classifyProducts a plans products
      = (((a.products.filter AuditProduct.active).filter fun sp => !isOwned plans products sp).map
            fun sp => (sp, productMetadata sp),
          (a.products.filter AuditProduct.active).countP (isOwned plans products)) := by
  unfold classifyProducts
  rw [a.productList_eq]
  suffices h : ∀ (l : List AuditProduct) (acc : List (AuditProduct × List (String × String)) × Nat),
      l.foldl (fun acc sp =>
          if isOwned plans products sp then (acc.1, acc.2 + 1)
          else (acc.1 ++ [(sp, productMetadata sp)], acc.2)) acc
        = (acc.1 ++ (l.filter fun sp => !isOwned plans products sp).map
              fun sp => (sp, productMetadata sp),
            acc.2 + l.countP (isOwned plans products)) by
    rw [h, List.nil_append, Nat.zero_add]
  intro l
  induction l with
  | nil => intro acc; simp
  | cons sp l ih =>
    intro acc
    rw [List.foldl_cons, ih]
    rcases e : isOwned plans products sp with - | -
    · simp [e]
    · simp [e, Nat.add_assoc, Nat.add_comm 1]

/-- The view that the command has of the subscriptions on a product. -/
def SeesActiveSub (a : StripeAccount) (product : String) : Prop :=
  ∃ price ∈ a.prices, price.product = product ∧ price.active = true ∧ price.recurring ≠ none ∧
    ∃ s ∈ a.subscriptions, price.id ∈ s.prices ∧ s.status = .active

theorem hasActiveSub_iff (a : StripeAccount) (prices : List AuditPrice) :
    hasActiveSub a prices = true ↔ ∃ price ∈ prices, price.recurring ≠ none ∧
      ∃ s ∈ a.subscriptions, price.id ∈ s.prices ∧ s.status = .active := by
  induction prices with
  | nil => simp [hasActiveSub]
  | cons price prices ih =>
    rw [hasActiveSub, List.exists_mem_cons_iff, ← ih, ← a.subscriptionList_ne_nil_iff]
    split
    next h => simp [h]
    next h =>
      split
      next hs => simp [h, hs]
      next hs => simp [hs]

theorem hasActiveSub_priceList_iff (a : StripeAccount) (product : String) :
    hasActiveSub a (a.priceList product) = true ↔ SeesActiveSub a product := by
  rw [hasActiveSub_iff, a.priceList_eq]
  simp only [List.mem_filter, Bool.and_eq_true, decide_eq_true_eq, SeesActiveSub, and_assoc]

/-- The product after the archiving of the products with the ids `strays`. -/
def archivedIn (a : StripeAccount) (strays : List String) (p : AuditProduct) : AuditProduct :=
  if p.id ∈ strays && !hasActiveSub a (a.priceList p.id) then { p with active := false } else p

theorem archivedIn_id (a : StripeAccount) (strays : List String) (p : AuditProduct) :
    (archivedIn a strays p).id = p.id := by
  unfold archivedIn
  split
  · rfl
  · rfl

/-- Archiving one product does not change what is seen of the others. -/
theorem archivedIn_productModify (a : StripeAccount) (id : String) (active : Bool)
    (strays : List String) (p : AuditProduct) :
    archivedIn (a.productModify id active) strays p = archivedIn a strays p := by
  have hseen : hasActiveSub (a.productModify id active)
      ((a.productModify id active).priceList p.id) = hasActiveSub a (a.priceList p.id) := by
    rw [Bool.eq_iff_iff, hasActiveSub_priceList_iff, hasActiveSub_priceList_iff]
    exact Iff.rfl
  rw [archivedIn, archivedIn, hseen]

/-- The induction is on the strays: one round sets the product of its stray
inactive, or finds a subscription on it. -/
theorem archiveStrays_products (a : StripeAccount)
    (strays : List (AuditProduct × List (String × String))) :
    (archiveStrays a strays).1.products
      = a.products.map (archivedIn a (strays.map fun e => e.1.id)) := by
  induction strays generalizing a with
  | nil =>
    have hnone : ∀ p ∈ a.products, archivedIn a [] p = p := fun p _ => by simp [archivedIn]
    exact ((List.map_congr_left hnone).trans a.products.map_id).symm
  | cons e strays ih =>
    rw [archiveStrays]
    split
    next hseen =>
      show (archiveStrays a strays).1.products = _
      rw [ih]
      refine List.map_congr_left fun p _ => ?_
      by_cases hp : p.id = e.1.id
      · simp [archivedIn, hp, hseen]
      · simp only [archivedIn, List.map_cons, List.mem_cons, hp, false_or]
    next hseen =>
      show (archiveStrays (a.productModify e.1.id false) strays).1.products = _
      rw [ih]
      show (a.products.map (AuditProduct.modified e.1.id false)).map _ = _
      rw [List.map_map]
      refine List.map_congr_left fun p _ => ?_
      rw [Function.comp_apply, archivedIn_productModify]
      by_cases hp : p.id = e.1.id
      · simp [archivedIn, AuditProduct.modified, hp, hseen]
      · simp only [archivedIn, AuditProduct.modified, List.map_cons, List.mem_cons, hp, false_or,
          if_false]

/-- The command has set `active = False` on the product. -/
def Archives (after : StripeAccount) (p : AuditProduct) : Prop :=
  p.active = true ∧ { p with active := false } ∈ after.products

/-- Two products with one id are one product. -/
theorem StripeAccount.eq_of_id {a : StripeAccount} {p q : AuditProduct} (hp : p ∈ a.products)
    (hq : q ∈ a.products) (h : p.id = q.id) : p = q :=
  List.inj_on_of_nodup_map a.product_ids hp hq h

theorem audit_fst {apiKey : String} (hkey : apiKey ≠ "") (t : CatalogTables) (a : StripeAccount) :
    (audit apiKey true t a).1
      = (archiveStrays a (classifyProducts a (localPlanIds t) (localProductIds t)).1).1 := by
  unfold audit
  rw [if_neg hkey]
  rcases classifyProducts a (localPlanIds t) (localProductIds t) with ⟨strays, owned⟩
  by_cases h : strays = []
  · simp [h, archiveStrays]
  · simp [h]

/-- `--archive` archives the active products that are not owned and on which the
command sees no active subscription. -/
theorem archives_audit_iff {apiKey : String} (hkey : apiKey ≠ "") (t : CatalogTables)
    (a : StripeAccount) {p : AuditProduct} (hp : p ∈ a.products) :
    Archives (audit apiKey true t a).1 p
      ↔ p.active = true ∧ isOwned (localPlanIds t) (localProductIds t) p = false
          ∧ ¬ SeesActiveSub a p.id := by
  -- the ids of the strays
  let strays := (classifyProducts a (localPlanIds t) (localProductIds t)).1
  have hstray : p.id ∈ strays.map (fun e => e.1.id)
      ↔ p.active = true ∧ isOwned (localPlanIds t) (localProductIds t) p = false := by
    show p.id ∈ (classifyProducts a _ _).1.map _ ↔ _
    rw [classifyProducts_eq, List.map_map, List.mem_map]
    simp only [List.mem_filter, Function.comp_apply]
    constructor
    · rintro ⟨q, ⟨⟨hq, hactive⟩, howned⟩, hid⟩
      obtain rfl := a.eq_of_id hq hp hid
      exact ⟨hactive, by simpa using howned⟩
    · rintro ⟨hactive, howned⟩
      exact ⟨p, ⟨⟨hp, hactive⟩, by simp [howned]⟩, rfl⟩
  have hproducts : (audit apiKey true t a).1.products
      = a.products.map (archivedIn a (strays.map fun e => e.1.id)) := by
    rw [audit_fst hkey, archiveStrays_products]
  rw [Archives, hproducts, List.mem_map]
  constructor
  · rintro ⟨hactive, q, hq, hqp⟩
    have hid : q.id = p.id := by rw [← archivedIn_id a (strays.map fun e => e.1.id) q, hqp]
    obtain rfl := a.eq_of_id hq hp hid
    rw [archivedIn] at hqp
    split at hqp
    next h =>
      obtain ⟨hmem, hseen⟩ := (Bool.and_eq_true _ _).mp h
      refine ⟨hactive, (hstray.mp (of_decide_eq_true hmem)).2, fun hsees => ?_⟩
      rw [(hasActiveSub_priceList_iff a q.id).mpr hsees] at hseen
      exact absurd hseen Bool.false_ne_true
    next h =>
      rw [hqp] at hactive
      exact absurd hactive Bool.false_ne_true
  · rintro ⟨hactive, howned, hsees⟩
    refine ⟨hactive, p, hp, ?_⟩
    have hseen : hasActiveSub a (a.priceList p.id) = false := by
      rw [Bool.eq_false_iff, Ne, hasActiveSub_priceList_iff]
      exact hsees
    rw [archivedIn, hseen, decide_eq_true (hstray.mpr ⟨hactive, howned⟩)]
    rfl

/-! ### In use -/

/-- A subscription that can still bill. -/
def SubscriptionStatus.canBill : SubscriptionStatus → Bool
  | .canceled | .incompleteExpired => false
  | _ => true

/-- The metadata names a plan or a product of the local catalog. -/
def NamesLocalRow (t : CatalogTables) (p : AuditProduct) : Prop :=
  (∃ id ∈ localPlanIds t, (productMetadata p).lookup "local_plan_id" = some id) ∨
    ∃ id ∈ localProductIds t, (productMetadata p).lookup "local_product_id" = some id

/-- A subscription that can still bill is on one of the prices of the product. -/
def HasLiveSub (a : StripeAccount) (product : String) : Prop :=
  ∃ price ∈ a.prices, price.product = product ∧
    ∃ s ∈ a.subscriptions, price.id ∈ s.prices ∧ s.status.canBill = true

/-- The command is not deceived about a product: it counts it as owned only
where its metadata names a local row or it is in use, and where either is so it
counts it as owned or sees an active subscription on it. -/
def SeesRight (t : CatalogTables) (a : StripeAccount) (p : AuditProduct) : Prop :=
  (isOwned (localPlanIds t) (localProductIds t) p = true → NamesLocalRow t p ∨ HasLiveSub a p.id) ∧
    (NamesLocalRow t p →
      isOwned (localPlanIds t) (localProductIds t) p = true ∨ SeesActiveSub a p.id) ∧
    (HasLiveSub a p.id →
      isOwned (localPlanIds t) (localProductIds t) p = true ∨ SeesActiveSub a p.id)

/-- What the command sees is a subscription that can still bill. -/
theorem SeesActiveSub.hasLiveSub {a : StripeAccount} {product : String}
    (h : SeesActiveSub a product) : HasLiveSub a product := by
  obtain ⟨price, hprice, hproduct, -, -, s, hs, hitem, hstatus⟩ := h
  exact ⟨price, hprice, hproduct, s, hs, hitem, by rw [hstatus]; rfl⟩

/-- A product of the account is archived only where its metadata names no local
row and no subscription that can still bill is on it, and is archived where it is
active and both are so, exactly where the command is not deceived about it. -/
theorem audit_iff_sees {apiKey : String} (hkey : apiKey ≠ "") (t : CatalogTables)
    (a : StripeAccount) {p : AuditProduct} (hp : p ∈ a.products) :
    ((Archives (audit apiKey true t a).1 p → ¬ NamesLocalRow t p ∧ ¬ HasLiveSub a p.id) ∧
        (p.active = true → ¬ NamesLocalRow t p → ¬ HasLiveSub a p.id →
          Archives (audit apiKey true t a).1 p))
      ↔ (p.active = true → SeesRight t a p) := by
  rw [archives_audit_iff hkey t a hp]
  rcases e : isOwned (localPlanIds t) (localProductIds t) p with - | -
  · constructor
    · rintro ⟨honly, -⟩ hactive
      have hsees : NamesLocalRow t p ∨ HasLiveSub a p.id → SeesActiveSub a p.id := by
        intro huse
        by_contra hnot
        obtain ⟨hnames, hlive⟩ := honly ⟨hactive, rfl, hnot⟩
        exact huse.elim hnames hlive
      refine ⟨fun h => absurd (e.symm.trans h) Bool.false_ne_true, fun h => ?_, fun h => ?_⟩
      · exact Or.inr (hsees (Or.inl h))
      · exact Or.inr (hsees (Or.inr h))
    · intro hright
      constructor
      · rintro ⟨hactive, -, hnot⟩
        obtain ⟨-, hnames, hlive⟩ := hright hactive
        rw [e] at hnames hlive
        exact ⟨fun h => (hnames h).elim Bool.false_ne_true hnot,
          fun h => (hlive h).elim Bool.false_ne_true hnot⟩
      · exact fun hactive _ hlive => ⟨hactive, rfl, fun h => hlive h.hasLiveSub⟩
  · constructor
    · rintro ⟨-, hall⟩ hactive
      refine ⟨fun _ => ?_, fun _ => Or.inl e, fun _ => Or.inl e⟩
      by_contra hnot
      rw [not_or] at hnot
      exact absurd (hall hactive hnot.1 hnot.2).2.1 Bool.noConfusion
    · intro hright
      constructor
      · rintro ⟨-, h, -⟩
        exact absurd h Bool.noConfusion
      · intro hactive hnames hlive
        exact absurd ((hright hactive).1 e) (not_or.mpr ⟨hnames, hlive⟩)

theorem localId_of_plan {id : String} (hid : id ≠ "") (md : List (String × String)) :
    localId (("local_plan_id", id) :: md) = some id := by
  unfold localId
  rw [List.lookup_cons_self]
  split
  next h => exact absurd h (Option.some_ne_none id)
  next h => exact absurd (Option.some.inj h) hid
  next h => exact h.symm

/-- A product that the sync has written is read right: it is owned exactly where
its row is still there.  So only its subscriptions can deceive the command. -/
theorem sees_of_synced {t : CatalogTables} {a : StripeAccount} {p : AuditProduct} {id : String}
    (hid : id ≠ "") (hp : p.metadata = some [("local_plan_id", id), ("kind", "plan")]
      ∨ p.metadata = some [("local_product_id", id), ("kind", "product")]) :
    SeesRight t a p ↔ (HasLiveSub a p.id → NamesLocalRow t p ∨ SeesActiveSub a p.id) := by
  have howned : isOwned (localPlanIds t) (localProductIds t) p = true ↔ NamesLocalRow t p := by
    rcases hp with hp | hp
    · simp [isOwned, NamesLocalRow, productMetadata, hp, localId_of_plan hid, List.lookup_cons]
    · simp [isOwned, NamesLocalRow, productMetadata, hp, localId, List.lookup_cons]
  unfold SeesRight
  rw [howned]
  exact ⟨fun h => h.2.2, fun h => ⟨Or.inl, Or.inl, h⟩⟩

/-! ### A product in use -/

/-- No local rows. -/
def emptyCatalogTables : CatalogTables := ⟨[], [], [], [], [], []⟩

/-- An account with one product, one price of it and one subscription on that. -/
def oneProductAccount (status : SubscriptionStatus) : StripeAccount where
  products := [⟨"prod_1", "Pro", true, none⟩]
  prices := [⟨"price_1", "prod_1", true, some "month"⟩]
  subscriptions := [⟨"sub_1", status, ["price_1"]⟩]
  product_ids := by decide
  price_ids := by decide

theorem canceled_product_archived :
    Archives (audit "sk_test" true emptyCatalogTables (oneProductAccount .canceled)).1
      ⟨"prod_1", "Pro", true, none⟩ := by
  have hnames : ¬ NamesLocalRow emptyCatalogTables ⟨"prod_1", "Pro", true, none⟩ := by
    simp [NamesLocalRow, localPlanIds, localProductIds, emptyCatalogTables]
  have hlive : ¬ HasLiveSub (oneProductAccount .canceled) "prod_1" := by
    simp [HasLiveSub, oneProductAccount, SubscriptionStatus.canBill]
  refine ((audit_iff_sees (by decide) emptyCatalogTables (oneProductAccount .canceled)
    List.mem_cons_self).mpr fun _ => ⟨fun h => ?_, fun h => ?_, fun h => ?_⟩).2 rfl hnames hlive
  · exact absurd h (by decide)
  · exact absurd h hnames
  · exact absurd h hlive

/-- A product with a subscription in its trial is archived. -/
theorem trialing_product_archived :
    ¬ ∀ (t : CatalogTables) (a : StripeAccount) (p : AuditProduct), p ∈ a.products →
        Archives (audit "sk_test" true t a).1 p → ¬ HasLiveSub a p.id := by
  intro h
  refine h emptyCatalogTables (oneProductAccount .trialing) ⟨"prod_1", "Pro", true, none⟩
    List.mem_cons_self ⟨rfl, by decide⟩ ?_
  exact ⟨_, List.mem_cons_self, rfl, _, List.mem_cons_self, List.mem_cons_self, rfl⟩

end Saasmint
