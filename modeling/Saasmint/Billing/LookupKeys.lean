/-
Saasmint/Billing/LookupKeys.lean

The lookup keys of `sync_stripe_catalog`, and which rows share one.

A key is the base of a plan or of a product, followed by nothing for USD, by
`_{currency}` or by `_c_{country}`.  The bases of plans are a prefix code, and
the suffixes do not run into each other, since a currency has three letters and
a country two.  But the base of a product is the slug of its name, and a slug
may itself end like a suffix, or be that of another name: the keys are apart
exactly where the slugs are (`lookup_keys_iff`).
-/
import Saasmint.Billing.SyncCalls

namespace Saasmint

open PyStr Programs

variable (u : UnicodeTables)

/-! ### Rows and their keys -/

/-- A plan or a product. -/
inductive Offered
  | plan (plan : Plan)
  | product (product : Product)
  deriving DecidableEq, Repr

def Offered.baseKey : Offered → String
  | plan p => p.baseKey
  | product q => q.baseKey u

/-- What a price of a plan or a product is for. -/
inductive PriceTag
  | currency (code : String)
  | country (code : String)
  deriving DecidableEq, Repr

/-- A row that holds the id of a Stripe Price. -/
structure KeyedRow where
  offered : Offered
  tag : PriceTag
  deriving DecidableEq, Repr

/-- The lookup key of a row. -/
def KeyedRow.key (r : KeyedRow) : String :=
  match r.tag with
  | .currency code => lookupKey (r.offered.baseKey u) code
  | .country code => countryLookupKey u (r.offered.baseKey u) code

namespace CatalogTables

variable (t : CatalogTables)

/-- What is active. -/
def offered : List Offered := t.activePlans.map .plan ++ t.activeProducts.map .product

/-- The price of a plan or a product. -/
def Owns : Offered → PriceOwner → Prop
  | .plan p, .planPrice k => ∃ pp ∈ t.planPrices, pp.planId = p.id ∧ pp.id = k
  | .product q, .productPrice k => ∃ pp ∈ t.productPrices, pp.productId = q.id ∧ pp.id = k
  | _, _ => False

/-- The rows of a run: what is active, in the billing currencies and in the
countries that it has a row for. -/
def HasRow (currencies : List String) (r : KeyedRow) : Prop :=
  r.offered ∈ t.offered ∧
    match r.tag with
    | .currency code => code ∈ currencies
    | .country code => ∃ cp ∈ t.countryPrices, t.Owns r.offered cp.owner ∧ cp.country = code

/-- No two rows have the same lookup key. -/
def KeysApart (currencies : List String) : Prop :=
  ∀ r r', t.HasRow currencies r → t.HasRow currencies r' → r.key u = r'.key u → r = r'

/-- No slug is that of another product, or ends like the key of one, and no two
countries of an owner differ in their case alone. -/
structure SlugsApart (currencies : List String) : Prop where
  slugs : ∀ q ∈ t.activeProducts, ∀ q' ∈ t.activeProducts,
    slug u q.name = slug u q'.name → q = q'
  currency : ∀ q ∈ t.activeProducts, ∀ q' ∈ t.activeProducts, ∀ code ∈ currencies, code ≠ "usd" →
    slug u q'.name ≠ slug u q.name ++ ("_" ++ code)
  country : ∀ q ∈ t.activeProducts, ∀ q' ∈ t.activeProducts, ∀ code,
    t.HasRow currencies ⟨.product q, .country code⟩ →
      slug u q'.name ≠ slug u q.name ++ ("_c_" ++ lower u code)
  countries : ∀ o code code', t.HasRow currencies ⟨o, .country code⟩ →
    t.HasRow currencies ⟨o, .country code'⟩ → lower u code = lower u code' → code = code'

end CatalogTables

/-- An ISO 3166-1 alpha-2 code, in either case. -/
def IsCountryCode (code : String) : Prop :=
  code.toList.length = 2 ∧ ∀ c ∈ code.toList, isAscii c = true ∧ c.isAlpha = true

variable {u} {t : CatalogTables} {currencies : List String}

/-! ### The collected keys -/

theorem mem_soldPlans (hc : t.Constraints) {s : SoldItem} :
    s ∈ t.soldPlans.map Prod.fst ↔
      ∃ plan ∈ t.activePlans, ∃ pp ∈ t.planPrices, pp.planId = plan.id ∧ plan.item pp = s := by
  have hfind := fun (plan : Plan) (pp : PlanPrice) => Table.find?_eq_some_iff
    (Table.unique_some_iff.mpr hc.planPrice_plan) (v := plan.id) (a := pp)
  simp only [Option.some.injEq] at hfind
  simp only [CatalogTables.soldPlans, List.mem_map, List.mem_filterMap,
    Option.map_eq_some_iff, hfind]
  constructor
  · rintro ⟨-, ⟨plan, hplan, pp, ⟨hpp, hid⟩, rfl⟩, rfl⟩
    exact ⟨plan, hplan, pp, hpp, hid, rfl⟩
  · rintro ⟨plan, hplan, pp, hpp, hid, rfl⟩
    exact ⟨_, ⟨plan, hplan, pp, ⟨hpp, hid⟩, rfl⟩, rfl⟩

theorem mem_soldProducts (hc : t.Constraints) {s : SoldItem} :
    s ∈ (t.soldProducts u).map Prod.fst ↔
      ∃ product ∈ t.activeProducts, ∃ pp ∈ t.productPrices, pp.productId = product.id ∧
        product.item u pp = s := by
  have hfind := fun (product : Product) (pp : ProductPrice) => Table.find?_eq_some_iff
    (Table.unique_some_iff.mpr hc.productPrice_product) (v := product.id) (a := pp)
  simp only [Option.some.injEq] at hfind
  simp only [CatalogTables.soldProducts, List.mem_map, List.mem_filterMap, Option.map_eq_some_iff,
    hfind]
  constructor
  · rintro ⟨-, ⟨product, hproduct, pp, ⟨hpp, hid⟩, rfl⟩, rfl⟩
    exact ⟨product, hproduct, pp, hpp, hid, rfl⟩
  · rintro ⟨product, hproduct, pp, hpp, hid, rfl⟩
    exact ⟨_, ⟨product, hproduct, pp, ⟨hpp, hid⟩, rfl⟩, rfl⟩

theorem mem_offered {o : Offered} :
    o ∈ t.offered ↔ (∃ p ∈ t.activePlans, o = .plan p) ∨ ∃ q ∈ t.activeProducts,
    o = .product q := by
  simp only [CatalogTables.offered, List.mem_append, List.mem_map, eq_comm]

/-- What is sold is what is active and has a price. -/
theorem exists_sold_iff (hc : t.Constraints) {owner : PriceOwner} {base : String} :
    (∃ s ∈ t.sold u, s.owner = owner ∧ s.baseKey = base) ↔
      ∃ o ∈ t.offered, t.Owns o owner ∧ o.baseKey u = base := by
  unfold CatalogTables.sold
  simp only [List.map_append, List.mem_append, mem_soldPlans hc, mem_soldProducts hc, mem_offered]
  constructor
  · rintro ⟨s, ⟨plan, hplan, pp, hpp, hid, rfl⟩ | ⟨product, hproduct, pp, hpp, hid, rfl⟩, rfl, rfl⟩
    · exact ⟨.plan plan, Or.inl ⟨plan, hplan, rfl⟩, ⟨pp, hpp, hid, rfl⟩, rfl⟩
    · exact ⟨.product product, Or.inr ⟨product, hproduct, rfl⟩, ⟨pp, hpp, hid, rfl⟩, rfl⟩
  · rintro ⟨o, ⟨plan, hplan, rfl⟩ | ⟨product, hproduct, rfl⟩, howns, rfl⟩
    · rcases owner with k | k
      · obtain ⟨pp, hpp, hid, rfl⟩ := howns
        exact ⟨_, Or.inl ⟨plan, hplan, pp, hpp, hid, rfl⟩, rfl, rfl⟩
      · cases howns
    · rcases owner with k | k
      · cases howns
      · obtain ⟨pp, hpp, hid, rfl⟩ := howns
        exact ⟨_, Or.inr ⟨product, hproduct, pp, hpp, hid, rfl⟩, rfl, rfl⟩

/-- A price is of one plan or product. -/
theorem owns_unique (hc : t.Constraints) {o o' : Offered} {owner : PriceOwner} (ho : o ∈ t.offered)
    (ho' : o' ∈ t.offered) (h : t.Owns o owner) (h' : t.Owns o' owner) : o = o' := by
  rcases owner with k | k
  · rcases mem_offered.mp ho with ⟨p, hp, rfl⟩ | ⟨q, -, rfl⟩
    · rcases mem_offered.mp ho' with ⟨p', hp', rfl⟩ | ⟨q', -, rfl⟩
      · obtain ⟨pp, hpp, hid, rfl⟩ := h
        obtain ⟨pp', hpp', hid', hk⟩ := h'
        obtain rfl := List.inj_on_of_nodup_map hc.planPrice_pk hpp' hpp hk
        exact congrArg _ (List.inj_on_of_nodup_map hc.plan_pk (List.mem_of_mem_filter hp)
          (List.mem_of_mem_filter hp') (hid.symm.trans hid'))
      · cases h'
    · cases h
  · rcases mem_offered.mp ho with ⟨p, -, rfl⟩ | ⟨q, hq, rfl⟩
    · cases h
    · rcases mem_offered.mp ho' with ⟨p', -, rfl⟩ | ⟨q', hq', rfl⟩
      · cases h'
      · obtain ⟨pp, hpp, hid, rfl⟩ := h
        obtain ⟨pp', hpp', hid', hk⟩ := h'
        obtain rfl := List.inj_on_of_nodup_map hc.productPrice_pk hpp' hpp hk
        exact congrArg _ (List.inj_on_of_nodup_map hc.product_pk (List.mem_of_mem_filter hq)
          (List.mem_of_mem_filter hq') (hid.symm.trans hid'))

/-- The item of a price whose plan or product is active. -/
theorem soldItem_baseKey (hc : t.Constraints) {owner : PriceOwner} {base : String} :
    (t.soldItem u owner).map SoldItem.baseKey = some base ↔
      ∃ o ∈ t.offered, t.Owns o owner ∧ o.baseKey u = base := by
  unfold CatalogTables.soldItem
  rw [Option.map_eq_some_iff]
  constructor
  · rintro ⟨s, hs, rfl⟩
    refine (exists_sold_iff hc).mp ⟨s, List.mem_of_find?_eq_some hs, ?_, rfl⟩
    simpa using List.find?_some hs
  · rintro ⟨o, ho, howns, rfl⟩
    obtain ⟨s, hs, hown, hbase⟩ := (exists_sold_iff hc).mpr ⟨o, ho, howns, rfl⟩
    rcases e : (t.sold u).find? fun s => s.owner = owner with - | s'
    · exact absurd hown (by simpa using List.find?_eq_none.mp e s hs)
    · -- it is an item of the same plan or product
      have hown' : s'.owner = owner := by simpa using List.find?_some e
      obtain ⟨o', ho', howns', hbase'⟩ := (exists_sold_iff hc).mp
        ⟨s', List.mem_of_find?_eq_some e, hown', rfl⟩
      obtain rfl := owns_unique hc ho ho' howns howns'
      exact ⟨s', e, hbase'.symm⟩

theorem activeOwner_of_owns {o : Offered} {owner : PriceOwner} (ho : o ∈ t.offered)
    (h : t.Owns o owner) : t.activeOwner owner = true := by
  rcases owner with k | k
  · rcases mem_offered.mp ho with ⟨p, hp, rfl⟩ | ⟨q, -, rfl⟩
    · obtain ⟨pp, hpp, hid, rfl⟩ := h
      obtain ⟨hplan, hactive⟩ := List.mem_filter.mp hp
      have hany : ∃ x ∈ t.plans, x.id = pp.planId ∧ x.isActive = true :=
        ⟨p, hplan, hid.symm, hactive⟩
      simpa [CatalogTables.activeOwner] using ⟨pp, hpp, rfl, hany⟩
    · cases h
  · rcases mem_offered.mp ho with ⟨p, -, rfl⟩ | ⟨q, hq, rfl⟩
    · cases h
    · obtain ⟨pp, hpp, hid, rfl⟩ := h
      obtain ⟨hproduct, hactive⟩ := List.mem_filter.mp hq
      have hany : ∃ x ∈ t.products, x.id = pp.productId ∧ x.isActive = true :=
        ⟨q, hproduct, hid.symm, hactive⟩
      simpa [CatalogTables.activeOwner] using ⟨pp, hpp, rfl, hany⟩

/-- **The rows are those whose keys are fetched.** -/
theorem mem_collectLookupKeys (hc : t.Constraints) {key : String} :
    key ∈ t.collectLookupKeys u currencies ↔
      ∃ r, t.HasRow currencies r ∧ r.key u = key := by
  have hcountry : (∃ cp ∈ t.activeCountryPrices, ∃ s, t.soldItem u cp.owner = some s ∧
      countryLookupKey u s.baseKey cp.country = key) ↔
      ∃ o code, t.HasRow currencies ⟨o, .country code⟩ ∧
        countryLookupKey u (o.baseKey u) code = key := by
    simp only [CatalogTables.activeCountryPrices, List.mem_mergeSort, List.mem_filter]
    constructor
    · rintro ⟨cp, ⟨hcp, -⟩, s, hs, rfl⟩
      obtain ⟨o, ho, howns, hbase⟩ := (soldItem_baseKey hc).mp (by rw [hs]; rfl)
      exact ⟨o, cp.country, ⟨ho, cp, hcp, howns, rfl⟩, by rw [hbase]⟩
    · rintro ⟨o, code, ⟨ho, cp, hcp, howns, rfl⟩, rfl⟩
      obtain ⟨s, hs, hbase⟩ := Option.map_eq_some_iff.mp
        ((soldItem_baseKey (u := u) hc).mpr ⟨o, ho, howns, rfl⟩)
      exact ⟨cp, ⟨hcp, activeOwner_of_owns ho howns⟩, s, hs, by rw [hbase]⟩
  simp only [CatalogTables.collectLookupKeys, List.mem_append, List.mem_flatMap, List.mem_map,
    List.mem_filterMap, Option.map_eq_some_iff, hcountry]
  constructor
  · rintro ((⟨p, hp, code, hcode, rfl⟩ | ⟨q, hq, code, hcode, rfl⟩) | ⟨o, code, hrow, rfl⟩)
    · exact ⟨⟨.plan p, .currency code⟩, ⟨mem_offered.mpr (Or.inl ⟨p, hp, rfl⟩), hcode⟩, rfl⟩
    · exact ⟨⟨.product q, .currency code⟩, ⟨mem_offered.mpr (Or.inr ⟨q, hq, rfl⟩), hcode⟩, rfl⟩
    · exact ⟨⟨o, .country code⟩, hrow, rfl⟩
  · rintro ⟨⟨o, code | code⟩, hrow, rfl⟩
    · obtain ⟨ho, hcode⟩ := hrow
      rcases mem_offered.mp ho with ⟨p, hp, rfl⟩ | ⟨q, hq, rfl⟩
      · exact Or.inl (Or.inl ⟨p, hp, code, hcode, rfl⟩)
      · exact Or.inl (Or.inr ⟨q, hq, code, hcode, rfl⟩)
    · exact Or.inr ⟨o, code, hrow, rfl⟩

/-! ### Bases and suffixes -/

/-- Cut at the first separator. -/
theorem append_cons_inj_first {α : Type*} {a : α} {x y z w : List α} (hx : a ∉ x) (hy : a ∉ y)
    (h : x ++ a :: z = y ++ a :: w) : x = y ∧ z = w := by
  induction x generalizing y with
  | nil =>
    cases y with
    | nil => exact ⟨rfl, List.tail_eq_of_cons_eq h⟩
    | cons b y => exact absurd (List.head_eq_of_cons_eq h ▸ List.mem_cons_self ..) hy
  | cons b x ih =>
    cases y with
    | nil => exact absurd (List.head_eq_of_cons_eq h ▸ List.mem_cons_self ..) hx
    | cons c y =>
      obtain ⟨rfl, htail⟩ := List.cons_eq_cons.mp h
      obtain ⟨rfl, rfl⟩ := ih (List.not_mem_of_not_mem_cons hx) (List.not_mem_of_not_mem_cons hy)
        htail
      exact ⟨rfl, rfl⟩

/-- Cut at the last separator. -/
theorem append_cons_inj_last {α : Type*} {a : α} {x y z w : List α} (hz : a ∉ z) (hw : a ∉ w)
    (h : x ++ a :: z = y ++ a :: w) : x = y ∧ z = w := by
  have hrev : z.reverse ++ a :: x.reverse = w.reverse ++ a :: y.reverse := by
    simpa using congrArg List.reverse h
  obtain ⟨hzw, hxy⟩ := append_cons_inj_first (by simpa using hz) (by simpa using hw) hrev
  exact ⟨List.reverse_injective hxy, List.reverse_injective hzw⟩

/-- What a key has after the base of the plan or product. -/
def PriceTag.suffix (u : UnicodeTables) : PriceTag → String
  | currency code => if code = "usd" then "" else "_" ++ code
  | country code => "_c_" ++ lower u code

/-- A currency of three letters, or a country of two. -/
def PriceTag.WellFormed : PriceTag → Prop
  | currency code => code ∈ supportedCurrencies
  | country code => IsCountryCode code

theorem KeyedRow.key_eq (r : KeyedRow) : r.key u = r.offered.baseKey u ++ r.tag.suffix u := by
  rcases r with ⟨o, code | code⟩
  · show lookupKey _ code = _ ++ (if code = "usd" then "" else "_" ++ code)
    unfold lookupKey
    split
    · rw [String.append_empty]
    · rw [String.append_assoc]
  · show _ ++ "_c_" ++ lower u code = _
    rw [String.append_assoc]
    rfl

theorem HasRow.wellFormed (st : Settings)
    (hcodes : ∀ cp ∈ t.countryPrices, IsCountryCode cp.country)
    {r : KeyedRow} (h : t.HasRow st.billingCurrencies r) : r.tag.WellFormed := by
  rcases r with ⟨o, code | code⟩
  · exact st.supported code h.2
  · obtain ⟨-, cp, hcp, -, rfl⟩ := h
    exact hcodes cp hcp

/-- The letters of a country in lower case. -/
theorem IsCountryCode.lower {code : String} (h : IsCountryCode code) :
    (lower u code).toList.length = 2 ∧ '_' ∉ (lower u code).toList := by
  have hlower : (PyStr.lower u code).toList = code.toList.map Char.toLower := by
    rw [PyStr.lower, String.toList_ofList, List.map_eq_flatMap]
    exact List.flatMap_congr fun c hc => if_pos (h.2 c hc).1
  rw [hlower, List.length_map]
  refine ⟨h.1, fun hmem => ?_⟩
  obtain ⟨c, hc, hlow⟩ := List.mem_map.mp hmem
  obtain ⟨hascii, halpha⟩ := h.2 c hc
  have hletters : ∀ n < 128, (Char.ofNat n).isAlpha = true → (Char.ofNat n).toLower ≠ '_' := by
    decide
  have hne := hletters c.toNat (of_decide_eq_true hascii)
  rw [Char.ofNat_toNat] at hne
  exact hne halpha hlow

/-- A suffix is empty, or ends in three letters after an underscore, or in two
after `_c_`. -/
theorem PriceTag.suffix_cases {tag : PriceTag} (h : tag.WellFormed) :
    (tag.suffix u = "" ∧ tag = .currency "usd") ∨
      ∃ front last, (tag.suffix u).toList = front ++ '_' :: last ∧ '_' ∉ last ∧
        ((front = [] ∧ last.length = 3) ∨ (front = ['_', 'c'] ∧ last.length = 2)) := by
  rcases tag with code | code
  · by_cases husd : code = "usd"
    · subst husd
      exact Or.inl ⟨rfl, rfl⟩
    · have hletters : ∀ code ∈ supportedCurrencies, '_' ∉ code.toList ∧ code.toList.length = 3 := by
        decide
      obtain ⟨hmem, hlen⟩ := hletters code h
      refine Or.inr ⟨[], code.toList, ?_, hmem, Or.inl ⟨rfl, hlen⟩⟩
      show (if code = "usd" then "" else "_" ++ code).toList = _
      rw [if_neg husd, String.toList_append]
      rfl
  · obtain ⟨hlen, hmem⟩ := IsCountryCode.lower (u := u) h
    refine Or.inr ⟨['_', 'c'], (lower u code).toList, ?_, hmem, Or.inr ⟨rfl, hlen⟩⟩
    show ("_c_" ++ lower u code).toList = _
    rw [String.toList_append]
    rfl

/-- Two suffixes meet only where they are the same, or one is empty. -/
theorem suffix_append {σ τ : PriceTag} (hσ : σ.WellFormed) (hτ : τ.WellFormed) {a b : String}
    (h : a ++ σ.suffix u = b ++ τ.suffix u) :
    (a = b ∧ σ.suffix u = τ.suffix u) ∨ (σ = .currency "usd" ∧ a = b ++ τ.suffix u) ∨
      (τ = .currency "usd" ∧ b = a ++ σ.suffix u) := by
  rcases PriceTag.suffix_cases (u := u) hσ with ⟨hempty, rfl⟩ | ⟨front, last, hs, hlast, hcase⟩
  · rw [hempty, String.append_empty] at h
    exact Or.inr (Or.inl ⟨rfl, h⟩)
  · rcases PriceTag.suffix_cases (u := u) hτ with
      ⟨hempty, rfl⟩ | ⟨front', last', hs', hlast', hcase'⟩
    · rw [hempty, String.append_empty] at h
      exact Or.inr (Or.inr ⟨rfl, h.symm⟩)
    · -- the letters after the last underscore are the same, and so is what is before it
      have hlists := congrArg String.toList h
      rw [String.toList_append, String.toList_append, hs, hs', ← List.append_assoc,
        ← List.append_assoc] at hlists
      obtain ⟨hfront, rfl⟩ := append_cons_inj_last hlast hlast' hlists
      have hfronts : front = front' := by
        rcases hcase with ⟨rfl, hlen⟩ | ⟨rfl, hlen⟩ <;>
          rcases hcase' with ⟨rfl, hlen'⟩ | ⟨rfl, hlen'⟩ <;> first | rfl | omega
      subst hfronts
      have hab : a = b := String.toList_inj.mp (List.append_cancel_right hfront)
      subst hab
      exact Or.inl ⟨rfl, String.append_right_inj a |>.mp h⟩

/-- A currency is not the code of a country. -/
theorem currency_ne_country {code x : String} (h : code ∈ supportedCurrencies) :
    (PriceTag.currency code).suffix u ≠ "_c_" ++ x := by
  intro heq
  have hletters : ∀ code ∈ supportedCurrencies, '_' ∉ code.toList := by decide
  change (if code = "usd" then "" else "_" ++ code) = _ at heq
  split at heq
  · have hlists := congrArg String.toList heq
    rw [String.toList_append] at hlists
    cases hlists
  · have hlists := congrArg String.toList heq
    rw [String.toList_append, String.toList_append] at hlists
    have htail : code.toList = 'c' :: '_' :: x.toList := List.tail_eq_of_cons_eq hlists
    exact hletters code h (by rw [htail]; simp)

/-- The suffixes of one plan or product are apart, but for the case of a country. -/
theorem suffix_inj {σ τ : PriceTag} (hσ : σ.WellFormed) (hτ : τ.WellFormed)
    (h : σ.suffix u = τ.suffix u) :
    σ = τ ∨ ∃ code code', σ = .country code ∧ τ = .country code' ∧
    lower u code = lower u code' := by
  rcases σ with code | code <;> rcases τ with code' | code'
  · refine Or.inl (congrArg _ ?_)
    change (if code = "usd" then "" else "_" ++ code)
      = if code' = "usd" then "" else "_" ++ code' at h
    split at h <;> split at h
    · simp [*]
    · have hlists := congrArg String.toList h
      rw [String.toList_append] at hlists
      cases hlists
    · have hlists := congrArg String.toList h
      rw [String.toList_append] at hlists
      cases hlists
    · exact (String.append_right_inj _).mp h
  · exact absurd h (currency_ne_country hσ)
  · exact absurd h.symm (currency_ne_country hτ)
  · exact Or.inr ⟨code, code', rfl, rfl, (String.append_right_inj _).mp h⟩

theorem PlanContext.value_injective : Function.Injective PlanContext.value := by
  rintro (_ | _) (_ | _) h <;> first | rfl | exact absurd h (by decide)

theorem PlanTier.name_injective : Function.Injective PlanTier.name := by
  rintro (_ | _ | _) (_ | _ | _) h <;> first | rfl | exact absurd h (by decide)

/-- A month and a year differ in the first letter. -/
theorem PlanInterval.value_append_inj {i j : PlanInterval} {a b : List Char}
    (h : i.value.toList ++ a = j.value.toList ++ b) : i = j := by
  rcases i with - | - <;> rcases j with - | -
  · rfl
  · simp [PlanInterval.value] at h
  · simp [PlanInterval.value] at h
  · rfl

theorem Plan.toList_baseKey (p : Plan) :
    p.baseKey.toList = "plan_".toList ++ (p.context.value.toList ++ '_' ::
      (p.tier.name.toList ++ '_' :: p.interval.value.toList)) := by
  unfold Plan.baseKey
  simp

/-- **The bases of plans are a prefix code.** -/
theorem Plan.baseKey_append_inj {p p' : Plan} {a b : String}
    (h : p.baseKey ++ a = p'.baseKey ++ b) :
    (p.context, p.tier, p.interval) = (p'.context, p'.tier, p'.interval) ∧ a = b := by
  have hcontext : ∀ c : PlanContext, '_' ∉ c.value.toList := by rintro (_ | _) <;> decide
  have htier : ∀ c : PlanTier, '_' ∉ c.name.toList := by rintro (_ | _ | _) <;> decide
  have hlists := congrArg String.toList h
  rw [String.toList_append, String.toList_append, toList_baseKey, toList_baseKey] at hlists
  simp only [List.append_assoc, List.cons_append] at hlists
  obtain ⟨hc, hrest⟩ := append_cons_inj_first (hcontext _) (hcontext _)
    (List.append_cancel_left hlists)
  obtain ⟨ht, hrest⟩ := append_cons_inj_first (htier _) (htier _) hrest
  have hcontexts : p.context = p'.context := PlanContext.value_injective (String.toList_inj.mp hc)
  have htiers : p.tier = p'.tier := PlanTier.name_injective (String.toList_inj.mp ht)
  have hintervals : p.interval = p'.interval := PlanInterval.value_append_inj hrest
  rw [hcontexts, htiers, hintervals]
  rw [hintervals] at hrest
  exact ⟨rfl, String.toList_inj.mp (List.append_cancel_left hrest)⟩

/-- No key of a plan is that of a product. -/
theorem Plan.baseKey_append_ne {p : Plan} {q : Product} {a b : String} :
    p.baseKey ++ a ≠ q.baseKey u ++ b := by
  intro h
  have hlists := congrArg String.toList h
  unfold Product.baseKey at hlists
  rw [String.toList_append, String.toList_append, String.toList_append, toList_baseKey] at hlists
  have hsecond := congrArg (fun l => l[1]?) hlists
  simp at hsecond

/-! ### Which keys are apart -/

/-- The key of a product is not the key of another with something after it. -/
theorem CatalogTables.SlugsApart.ne_append (h : t.SlugsApart u currencies) {q q' : Product}
    (hq' : q' ∈ t.activeProducts) {tag : PriceTag}
    (hrow : t.HasRow currencies ⟨.product q, tag⟩) (htag : tag ≠ .currency "usd") :
    slug u q'.name ≠ slug u q.name ++ tag.suffix u := by
  have hq : q ∈ t.activeProducts := by
    rcases mem_offered.mp hrow.1 with ⟨p, -, hp⟩ | ⟨q₀, hq₀, hq⟩
    · cases hp
    · cases hq
      exact hq₀
  rcases tag with code | code
  · have husd : code ≠ "usd" := fun h => htag (congrArg _ h)
    show _ ≠ _ ++ (if code = "usd" then "" else "_" ++ code)
    rw [if_neg husd]
    exact h.currency q hq q' hq' code hrow.2 husd
  · exact h.country q hq q' hq' code hrow

theorem keysApart_of_slugsApart (st : Settings) (hc : t.Constraints)
    (hcodes : ∀ cp ∈ t.countryPrices, IsCountryCode cp.country)
    (h : t.SlugsApart u st.billingCurrencies) : t.KeysApart u st.billingCurrencies := by
  rintro ⟨o, σ⟩ ⟨o', τ⟩ hrow hrow' hkey
  have hσ : σ.WellFormed := HasRow.wellFormed st hcodes hrow
  have hτ : τ.WellFormed := HasRow.wellFormed st hcodes hrow'
  rw [KeyedRow.key_eq, KeyedRow.key_eq] at hkey
  -- it is enough that the plans or products are the same
  suffices hsame : o = o' ∧ σ.suffix u = τ.suffix u by
    obtain ⟨rfl, hsuffix⟩ := hsame
    rcases suffix_inj hσ hτ hsuffix with rfl | ⟨code, code', rfl, rfl, hlower⟩
    · rfl
    · rw [h.countries o code code' hrow hrow' hlower]
  rcases mem_offered.mp hrow.1 with ⟨p, hp, rfl⟩ | ⟨q, hq, rfl⟩ <;>
    rcases mem_offered.mp hrow'.1 with ⟨p', hp', rfl⟩ | ⟨q', hq', rfl⟩
  · obtain ⟨hplan, hsuffix⟩ := Plan.baseKey_append_inj hkey
    refine ⟨congrArg _ ?_, hsuffix⟩
    exact List.inj_on_of_nodup_map hc.uniq_active_plan_per_context_tier_interval hp hp' hplan
  · exact absurd hkey Plan.baseKey_append_ne
  · exact absurd hkey.symm Plan.baseKey_append_ne
  · change "product_" ++ slug u q.name ++ σ.suffix u = "product_" ++ slug u q'.name ++ τ.suffix u
      at hkey
    rw [String.append_assoc, String.append_assoc, String.append_right_inj] at hkey
    rcases suffix_append hσ hτ hkey with ⟨hslug, hsuffix⟩ | ⟨rfl, hslug⟩ | ⟨rfl, hslug⟩
    · exact ⟨congrArg _ (h.slugs q hq q' hq' hslug), hsuffix⟩
    · by_cases hτusd : τ = .currency "usd"
      · subst hτusd
        have hslugs : slug u q.name = slug u q'.name :=
          hslug.trans (String.append_empty)
        exact ⟨congrArg _ (h.slugs q hq q' hq' hslugs), rfl⟩
      · exact absurd hslug (h.ne_append hq hrow' hτusd)
    · by_cases hσusd : σ = .currency "usd"
      · subst hσusd
        have hslugs : slug u q'.name = slug u q.name :=
          hslug.trans (String.append_empty)
        exact ⟨congrArg _ (h.slugs q hq q' hq' hslugs.symm), rfl⟩
      · exact absurd hslug (h.ne_append hq' hrow hσusd)

theorem key_product_usd (q : Product) :
    (⟨.product q, .currency "usd"⟩ : KeyedRow).key u = "product_" ++ slug u q.name := by
  rw [KeyedRow.key_eq]
  exact String.append_empty

theorem hasRow_usd (st : Settings) {q : Product} (hq : q ∈ t.activeProducts) :
    t.HasRow st.billingCurrencies ⟨.product q, .currency "usd"⟩ :=
  ⟨mem_offered.mpr (Or.inr ⟨q, hq, rfl⟩), st.usd_mem⟩

theorem slugsApart_of_keysApart (st : Settings) (h : t.KeysApart u st.billingCurrencies) :
    t.SlugsApart u st.billingCurrencies := by
  -- a slug that is a slug and a suffix is the key in USD of its product
  have hne : ∀ q q' tag, q' ∈ t.activeProducts →
      t.HasRow st.billingCurrencies ⟨.product q, tag⟩ → tag ≠ .currency "usd" →
        slug u q'.name ≠ slug u q.name ++ tag.suffix u := by
    intro q q' tag hq' hrow htag hslug
    have hrows := h ⟨.product q', .currency "usd"⟩ ⟨.product q, tag⟩ (hasRow_usd st hq') hrow (by
      rw [key_product_usd, KeyedRow.key_eq, hslug, ← String.append_assoc]
      rfl)
    exact htag (congrArg KeyedRow.tag hrows).symm
  constructor
  case slugs =>
    intro q hq q' hq' hslug
    have hrows := h ⟨.product q, .currency "usd"⟩ ⟨.product q', .currency "usd"⟩ (hasRow_usd st hq)
      (hasRow_usd st hq') (by rw [key_product_usd, key_product_usd, hslug])
    exact Offered.product.inj (congrArg KeyedRow.offered hrows)
  case currency =>
    intro q hq q' hq' code hcode husd
    have hsuffix : (PriceTag.currency code).suffix u = "_" ++ code := if_neg husd
    rw [← hsuffix]
    refine hne q q' (.currency code) hq' ⟨mem_offered.mpr (Or.inr ⟨q, hq, rfl⟩), hcode⟩ ?_
    exact fun h => husd (PriceTag.currency.inj h)
  case country =>
    intro q _ q' hq' code hrow
    exact hne q q' (.country code) hq' hrow (by simp)
  case countries =>
    intro o code code' hrow hrow' hlower
    have hrows := h _ _ hrow hrow' (by
      rw [KeyedRow.key_eq, KeyedRow.key_eq]
      exact congrArg (fun s => o.baseKey u ++ ("_c_" ++ s)) hlower)
    exact PriceTag.country.inj (congrArg KeyedRow.tag hrows)

/-- An upsert for a row neither touches nor returns the price of another. -/
theorem upsertPrice_other (h : t.KeysApart u currencies) {env : SyncEnv} {w : SyncWorld}
    {existing : List (String × FetchedPrice)} {item : SoldItem} {currency : String}
    {unitAmount : Int} {r r' : KeyedRow} (hr : t.HasRow currencies r) (hr' : t.HasRow currencies r')
    (hne : r' ≠ r) (hw : w.stripe.WellFormed)
    (hfetched : (existing.lookup (r.key u)).map (fun f => f.core) = w.stripe.coreByKey (r.key u)) :
    wp (upsertPrice env existing (r.key u) unitAmount currency item)
      (fun id w' => w'.stripe.coreByKey (r'.key u) = w.stripe.coreByKey (r'.key u) ∧
        ∀ p, w'.stripe.priceByKey (r'.key u) = some p → p.id ≠ id) (fun _ _ => True) w := by
  have hkeys : r'.key u ≠ r.key u := fun hkey => hne (h r' r hr' hr hkey)
  refine wp_mono (upsertPrice_spec (E := fun _ _ => True) (fun _ _ => trivial) hw hfetched) ?_
    fun _ _ h => h
  intro id w' hup
  refine ⟨hup.others _ hkeys, fun p hp hid => ?_⟩
  obtain ⟨q, hq, hqid, -, -⟩ := hup.price
  obtain ⟨hpmem, hpkey⟩ := (StripeCatalog.priceByKey_eq_some_iff hup.wellFormed).mp hp
  obtain ⟨hqmem, hqkey⟩ := (StripeCatalog.priceByKey_eq_some_iff hup.wellFormed).mp hq
  -- an id is that of one price, and that price has one key
  obtain rfl := List.inj_on_of_nodup_map hup.wellFormed.ids hpmem hqmem (hid.trans hqid.symm)
  exact hkeys (Option.some.inj (hpkey.symm.trans hqkey))

/-- **Lookup keys.**  No two rows share a lookup key exactly where the slugs of
the products are apart; an upsert for a row then neither touches nor returns the
Stripe Price of another. -/
theorem lookup_keys_iff (u : UnicodeTables) (st : Settings) (hc : t.Constraints)
    (hcodes : ∀ cp ∈ t.countryPrices, IsCountryCode cp.country) :
    (t.KeysApart u st.billingCurrencies ↔ t.SlugsApart u st.billingCurrencies) ∧
    (t.SlugsApart u st.billingCurrencies →
      ∀ (env : SyncEnv) (w : SyncWorld) (existing : List (String × FetchedPrice)) (item : SoldItem)
        (currency : String) (unitAmount : Int) (r r' : KeyedRow),
        t.HasRow st.billingCurrencies r → t.HasRow st.billingCurrencies r' → r' ≠ r →
        w.stripe.WellFormed →
        (existing.lookup (r.key u)).map (fun f => f.core) = w.stripe.coreByKey (r.key u) →
        wp (upsertPrice env existing (r.key u) unitAmount currency item)
          (fun id w' => w'.stripe.coreByKey (r'.key u) = w.stripe.coreByKey (r'.key u) ∧
            ∀ p, w'.stripe.priceByKey (r'.key u) = some p → p.id ≠ id) (fun _ _ => True) w) := by
  have hapart := keysApart_of_slugsApart (u := u) st hc hcodes
  refine ⟨⟨slugsApart_of_keysApart st, hapart⟩, fun h => ?_⟩
  intro env w existing item currency unitAmount r r' hr hr' hne hw hfetched
  exact upsertPrice_other (hapart h) hr hr' hne hw hfetched

/-! ### Two credit packs -/

/-- Two products, and the amount of the first in euros. -/
def packCatalog (first second : String) : CatalogTables where
  plans := []
  planPrices := []
  products := [⟨1, first, 50, true⟩, ⟨2, second, 200, true⟩]
  productPrices := [⟨3, 1, "price_placeholder_1", 500⟩, ⟨4, 2, "price_placeholder_2", 1500⟩]
  localizedPrices :=
    [⟨.productPrice 3, "eur", 449, none, 0⟩, ⟨.productPrice 4, "eur", 1349, none, 0⟩]
  countryPrices := [⟨.productPrice 3, "FR", "eur", 499, 416, true, none⟩]

/-- No call fails. -/
def calm : SyncEnv where
  fails _ := false
  feed _ := ⟨0, none⟩

def packWorld : SyncWorld where
  catalog := ⟨packCatalog "Boost" "Boost EUR", by constructor <;> decide⟩
  stripe := ⟨[], []⟩
  writes := []
  fetches := 0
  clock := 0

/-- The tables and prices that a run leaves. -/
def afterHandle (w : SyncWorld) : SyncWorld :=
  match handle asciiTables calm eurSettings w with
  | .ok _ w' => w'
  | .error _ w' => w'

theorem lookup_keys_iff_packs :
    (packCatalog "Boost 50" "Boost 200").KeysApart asciiTables eurSettings.billingCurrencies := by
  have hc : (packCatalog "Boost 50" "Boost 200").Constraints := by constructor <;> decide
  have hfr : ∀ o code, (packCatalog "Boost 50" "Boost 200").HasRow eurSettings.billingCurrencies
      ⟨o, .country code⟩ → code = "FR" := by
    rintro o code ⟨-, cp, hcp, -, rfl⟩
    obtain rfl := List.mem_singleton.mp hcp
    rfl
  refine (lookup_keys_iff asciiTables eurSettings hc (by unfold IsCountryCode; decide)).1.mpr
    ⟨by decide +kernel, by decide +kernel, ?_, ?_⟩
  · intro q hq q' hq' code hrow
    obtain rfl := hfr _ _ hrow
    clear hrow
    revert q q'
    decide +kernel
  · intro o code code' hrow hrow' _
    rw [hfr _ _ hrow, hfr _ _ hrow']

/-- "Boost" in euros and "Boost EUR" in dollars share a key.  The second run
archives the price that "Boost" is sold at in euros, and keeps it on the row. -/
theorem boost_eur_shares_key :
    ((packCatalog "Boost" "Boost EUR").activeProducts.map Product.name).Nodup ∧
    ¬ (packCatalog "Boost" "Boost EUR").KeysApart asciiTables eurSettings.billingCurrencies ∧
    ((afterHandle (afterHandle packWorld)).tables.localizedRow (.productPrice 3) "eur").bind
      LocalizedPrice.stripePriceId = some "price_000" ∧
    ((afterHandle (afterHandle packWorld)).stripe.price "price_000").map StripePrice.active
      = some false := by
  refine ⟨by decide, fun h => ?_, by decide +kernel, by decide +kernel⟩
  have hrows := h ⟨.product ⟨1, "Boost", 50, true⟩, .currency "eur"⟩
    ⟨.product ⟨2, "Boost EUR", 200, true⟩, .currency "usd"⟩
    ⟨by decide, by decide⟩ ⟨by decide, by decide⟩ (by decide +kernel)
  cases hrows

end Saasmint
