/-
Saasmint/Billing/StampedIds.lean

The Stripe Price ids that `sync_stripe_catalog` has put on the plans, and
whether `get_price_by_stripe_id` still knows them.

A subscription stays on the price that it was bought at, and its webhooks are
resolved by that price.  A price row has one column for the id, so a run that
re-prices a plan replaces the id that the subscriptions bear.  An id goes on
resolving exactly as long as each later run finds it under the key of its plan,
at the amount of the plan (`stamped_resolve_iff`).
-/
import Saasmint.Billing.LookupKeys
import Saasmint.Billing.SyncPasses
import Saasmint.Lib.Runs

namespace Saasmint

open PyStr Programs

/-! ### Edits and runs -/

/-- The plans that are sold, each with the id on its USD price. -/
def CatalogTables.stampedPlans (t : CatalogTables) : List (UUID × String) :=
  t.activePlans.filterMap fun plan =>
    (t.planPrices.find? fun pp => pp.planId = plan.id).map fun pp => (plan.id, pp.stripePriceId)

/-- The catalog and Stripe, with the plans and ids that the runs have left. -/
structure StampedWorld where
  world : SyncWorld
  stamped : List (UUID × String)

/-- What changes the amount of a plan, and the run that follows it. -/
inductive AmountJob
  | seedCatalog (plans : List PlanSpec) (boosts : List BoostSpec)
  | editAmount (planPrice : UUID) (amount : Int)
  | syncStripeCatalog (env : SyncEnv)

/-- A job that completes. -/
def amountAct (u : UnicodeTables) (st : Settings) (s : StampedWorld) :
    AmountJob → Option StampedWorld
  | .seedCatalog plans boosts =>
    (seedCatalog u plans boosts s.world.catalog).toOption.map fun catalog =>
      { s with world := s.world.withCatalog catalog }
  | .editAmount k amount =>
    let t := s.world.tables
    (CatalogTables.commit { t with
      planPrices := Table.update PlanPrice.id k (PlanPrice.withAmount amount) t.planPrices
    }).toOption.map fun catalog => { s with world := s.world.withCatalog catalog }
  | .syncStripeCatalog env =>
    match handle u env st s.world with
    | .ok _ world => some ⟨world, s.stamped ++ world.tables.stampedPlans⟩
    | .error _ _ => none

/-- Each id that a run left on a plan resolves to the plan. -/
def StampedWorld.Resolves (s : StampedWorld) : Prop :=
  ∀ e ∈ s.stamped, ∃ pp, s.world.tables.getPriceByStripeId e.2 = some pp ∧ pp.planId = e.1

/-- The price under the key of a plan is the one with the id, and the plan costs
what it did. -/
def SyncWorld.StillCosts (w : SyncWorld) (e : UUID × String) : Prop :=
  ∀ plan ∈ w.tables.activePlans, plan.id = e.1 → ∀ pp ∈ w.tables.planPrices, pp.planId = e.1 →
    ∃ p, w.stripe.priceByKey plan.baseKey = some p ∧ p.id = e.2 ∧
      p.Matches ⟨plan.baseKey, pp.amount, "usd", some plan.interval⟩

instance (w : SyncWorld) (e : UUID × String) : Decidable (w.StillCosts e) :=
  decidable_of_iff (∀ plan ∈ w.tables.activePlans, plan.id = e.1 →
    ∀ pp ∈ w.tables.planPrices, pp.planId = e.1 →
      ∃ p ∈ w.stripe.priceByKey plan.baseKey, p.id = e.2 ∧
        priceMatches p pp.amount "usd" (some plan.interval) = true) Iff.rfl

/-- A run does not re-price a plan that has been stamped. -/
def KeepsStamped (s : StampedWorld) : AmountJob → Prop
  | .syncStripeCatalog _ => ∀ e ∈ s.stamped, s.world.StillCosts e
  | _ => True

instance (s : StampedWorld) : ∀ job, Decidable (KeepsStamped s job)
  | .syncStripeCatalog _ => inferInstanceAs (Decidable (∀ e ∈ s.stamped, s.world.StillCosts e))
  | .seedCatalog _ _ => isTrue trivial
  | .editAmount _ _ => isTrue trivial

variable {u : UnicodeTables} {st : Settings}

/-! ### A run and the price of a plan -/

section Run

variable {env : SyncEnv} {w w' : SyncWorld}

/-- The same price, with another id at most. -/
theorem CatalogTables.SameSold.exists_planPrice {t t' : CatalogTables} (h : t.SameSold t')
    {pp : PlanPrice} (hpp : pp ∈ t.planPrices) :
    ∃ pp' ∈ t'.planPrices, pp'.unstamped = pp.unstamped := by
  have hmem : pp.unstamped ∈ t'.planPrices.map PlanPrice.unstamped := by
    rw [h.planPrices]
    exact List.mem_map_of_mem hpp
  obtain ⟨pp', hpp', heq⟩ := List.mem_map.mp hmem
  exact ⟨pp', hpp', heq⟩

theorem storedId_planPrice {t : CatalogTables} (hc : t.Constraints) {pp : PlanPrice}
    (hpp : pp ∈ t.planPrices) : t.storedId (.usd (.planPrice pp.id)) = some pp.stripePriceId := by
  have hfind := (Table.find?_eq_some_iff (Table.unique_some_iff.mpr hc.planPrice_pk) (v := pp.id)
    (a := pp)).mpr ⟨hpp, rfl⟩
  simp only [Option.some.injEq] at hfind
  show (t.planPrices.find? fun pp' => pp'.id = pp.id).map _ = _
  rw [hfind]
  rfl

variable (u st) in
/-- The USD offer of a plan. -/
theorem planOffer_mem {t : CatalogTables} (hc : t.Constraints) {plan : Plan} {pp : PlanPrice}
    (hplan : plan ∈ t.activePlans) (hpp : pp ∈ t.planPrices) (hid : pp.planId = plan.id) :
    (⟨"usd", plan.item pp⟩ : Offer) ∈ t.offers u st := by
  refine mem_offers.mpr ⟨st.usd_mem, ?_⟩
  unfold CatalogTables.sold
  rw [List.map_append]
  exact List.mem_append_left _ ((mem_soldPlans hc).mpr ⟨plan, hplan, pp, hpp, hid, rfl⟩)

/-- The row of the price of a plan is the row of an offer only if the plan is active. -/
theorem active_of_rowKey {t : CatalogTables} (hc : t.Constraints) {o : Offer}
    (ho : o ∈ t.offers u st) {pp : PlanPrice} (hpp : pp ∈ t.planPrices)
    (h : o.rowKey = .usd (.planPrice pp.id)) : ∃ plan ∈ t.activePlans, plan.id = pp.planId := by
  unfold Offer.rowKey at h
  split at h
  · have howner := RowKey.usd.inj h
    have hsold := (mem_offers.mp ho).2
    unfold CatalogTables.sold at hsold
    rw [List.map_append] at hsold
    rcases List.mem_append.mp hsold with hsold | hsold
    · obtain ⟨plan, hplan, pp₀, hpp₀, hid, hitem⟩ := (mem_soldPlans hc).mp hsold
      rw [← hitem] at howner
      have heq : pp₀ = pp := (Table.unique_some_iff.mpr hc.planPrice_pk).inj hpp₀ hpp rfl
        (congrArg some (PriceOwner.planPrice.inj howner).symm)
      exact ⟨plan, hplan, by rw [← hid, heq]⟩
    · obtain ⟨product, -, pp₀, -, -, hitem⟩ := (mem_soldProducts hc).mp hsold
      rw [← hitem] at howner
      cases howner
  · cases h

/-- The id on the price of a plan after a run: a plan that is not active keeps
what it had, and another one has what the upsert returned. -/
inductive PlanStamped (w w' : SyncWorld) (pp pp' : PlanPrice) : Prop
  | inactive (hplan : ∀ plan ∈ w.tables.activePlans, plan.id ≠ pp.planId)
      (hid : pp'.stripePriceId = pp.stripePriceId)
  | active (plan : Plan) (existing : List (String × FetchedPrice))
      (hplan : plan ∈ w.tables.activePlans) (hid : plan.id = pp.planId)
      (hfetched : (existing.lookup plan.baseKey).map FetchedPrice.toStripePrice
        = w.stripe.priceByKey plan.baseKey)
      (hupserted : UpsertedAs existing w.stripe ⟨plan.baseKey, pp.amount, "usd", some plan.interval⟩
        pp'.stripePriceId)
      (hpriced : ∃ p ∈ w'.stripe.prices, p.id = pp'.stripePriceId)

theorem handle_planPrice (hw : w.stripe.WellFormed) (h : handle u env st w = .ok ⟨⟩ w')
    {pp pp' : PlanPrice} (hpp : pp ∈ w.tables.planPrices) (hpp' : pp' ∈ w'.tables.planPrices)
    (heq : pp'.unstamped = pp.unstamped) : PlanStamped w w' pp pp' := by
  obtain ⟨existing, w₀, w₁, hrun⟩ := handle_ok hw h
  have hc := w.catalog.constraints
  have hid : pp'.id = pp.id := by
    show pp'.unstamped.id = pp.unstamped.id
    rw [heq]
  have hstored : w'.tables.storedId (.usd (.planPrice pp.id)) = some pp'.stripePriceId := by
    rw [← hid]
    exact storedId_planPrice w'.catalog.constraints hpp'
  by_cases hactive : ∃ plan ∈ w.tables.activePlans, plan.id = pp.planId
  · obtain ⟨plan, hplan, hplanId⟩ := hactive
    have ho := planOffer_mem u st hc hplan hpp hplanId.symm
    obtain ⟨id, hid', hupserted, p, hp, hpid, -⟩ := hrun.sent hw (sent_usd ho rfl)
    have hsame : pp'.stripePriceId = id := Option.some.inj (hstored.symm.trans hid')
    rw [← hsame] at hupserted hpid
    exact .active plan existing hplan hplanId
      (hrun.prefetch.fetched _ (key_mem_collectLookupKeys ho)) hupserted ⟨p, hp, hpid⟩
  · push Not at hactive
    refine .inactive hactive ?_
    have hunsent : w'.tables.storedId (.usd (.planPrice pp.id)) = w.tables.storedId _ :=
      hrun.unsent hw (fun _ _ h => by cases h) fun o hsent hkey => ?_
    · rw [hstored, storedId_planPrice hc hpp] at hunsent
      exact Option.some.inj hunsent
    · obtain ⟨a, ha⟩ := Option.ne_none_iff_exists'.mp hsent
      obtain ⟨plan, hplan, hid⟩ := active_of_rowKey hc (mem_of_sent ha) hpp hkey
      exact hactive plan hplan hid

/-- **A run and an id.**  The price of a plan keeps the id of a Stripe Price
exactly if the plan still costs what that price does. -/
theorem PlanStamped.keeps_iff {pp pp' : PlanPrice} (hpp : pp ∈ w.tables.planPrices)
    (h : PlanStamped w w' pp pp') (hx : ∃ p ∈ w.stripe.prices, p.id = pp.stripePriceId) :
    pp'.stripePriceId = pp.stripePriceId ↔ w.StillCosts (pp.planId, pp.stripePriceId) := by
  have hc := w.catalog.constraints
  cases h with
  | inactive hplan hid =>
    exact iff_of_true hid fun plan hactive hplanId => absurd hplanId (hplan plan hactive)
  | active plan existing hplan hplanId hfetched hupserted _ =>
    rw [hupserted.id_eq_iff hfetched hx]
    constructor
    · rintro ⟨p, hp, hpid, hm⟩ plan' hplan' hid' pp₀ hpp₀ hid₀
      have hpp₀ : pp₀ = pp := (Table.unique_some_iff.mpr hc.planPrice_plan).inj hpp₀ hpp rfl
        (congrArg some hid₀.symm)
      have hplan₀ : plan' = plan := (Table.unique_some_iff.mpr hc.plan_pk).inj
        (List.mem_of_mem_filter hplan') (List.mem_of_mem_filter hplan) rfl
        (congrArg some (hplanId.trans hid'.symm))
      subst hpp₀ hplan₀
      exact ⟨p, hp, hpid, hm⟩
    · exact fun hcosts => hcosts plan hplan hplanId pp hpp rfl

end Run

/-! ### Steps -/

section Steps

variable {s s' : StampedWorld} {job : AmountJob}

theorem getPriceByStripeId_eq_some_iff {t : CatalogTables} (hc : t.Constraints) {x : String}
    {pp : PlanPrice} :
    t.getPriceByStripeId x = some pp ↔ pp ∈ t.planPrices ∧ pp.stripePriceId = x := by
  have hfind := Table.find?_eq_some_iff (Table.unique_some_iff.mpr hc.planPrice_stripe) (v := x)
    (a := pp)
  simpa [CatalogTables.getPriceByStripeId] using hfind

/-- A job edits amounts, or is a run. -/
theorem amountAct_cases (h : amountAct u st s job = some s') :
    (∃ catalog, s' = { s with world := s.world.withCatalog catalog } ∧ KeepsStamped s job ∧
      ∀ pp ∈ s.world.tables.planPrices, ∃ amount, pp.withAmount amount ∈ catalog.planPrices) ∨
    ∃ env world, job = .syncStripeCatalog env ∧ handle u env st s.world = .ok ⟨⟩ world ∧
      s' = ⟨world, s.stamped ++ world.tables.stampedPlans⟩ := by
  rcases job with ⟨plans, boosts⟩ | ⟨k, amount⟩ | env
  · obtain ⟨catalog, hcatalog, rfl⟩ := Option.map_eq_some_iff.mp h
    rcases hseed : seedCatalog u plans boosts s.world.catalog with e | catalog'
    · rw [hseed] at hcatalog
      cases hcatalog
    · rw [hseed] at hcatalog
      cases hcatalog
      exact Or.inl ⟨catalog, rfl, trivial, fun pp hpp => seedCatalog_planPrices hseed hpp⟩
  · obtain ⟨catalog, hcatalog, rfl⟩ := Option.map_eq_some_iff.mp h
    refine Or.inl ⟨catalog, rfl, trivial, fun pp hpp => ?_⟩
    have htables : catalog.toCatalogTables = { s.world.tables with
        planPrices := Table.update PlanPrice.id k (PlanPrice.withAmount amount)
          s.world.tables.planPrices } := by
      apply CatalogTables.commit_ok
      rcases hcommit : CatalogTables.commit _ with e | catalog'
      · rw [hcommit] at hcatalog
        cases hcatalog
      · rw [hcommit] at hcatalog
        cases hcatalog
        rfl
    rw [htables]
    by_cases hk : pp.id = k
    · exact ⟨amount, Table.mem_update.mpr (Or.inr ⟨pp, hpp, hk, rfl⟩)⟩
    · exact ⟨pp.amount, Table.mem_update.mpr (Or.inl ⟨hpp, hk⟩)⟩
  · unfold amountAct at h
    dsimp only at h
    split at h
    · rename_i world hhandle
      cases h
      exact Or.inr ⟨env, world, rfl, hhandle, rfl⟩
    · cases h

/-- The ids that runs have left are ids of Stripe Prices. -/
structure StampedWorld.Minted (s : StampedWorld) : Prop where
  wellFormed : s.world.stripe.WellFormed
  stamped : ∀ e ∈ s.stamped, ∃ p ∈ s.world.stripe.prices, p.id = e.2

/-- What a run leaves on the plans. -/
theorem mem_stampedPlans {t : CatalogTables} {e : UUID × String} (he : e ∈ t.stampedPlans) :
    ∃ plan ∈ t.activePlans, ∃ pp ∈ t.planPrices, pp.planId = plan.id ∧
      e = (plan.id, pp.stripePriceId) := by
  obtain ⟨plan, hplan, he⟩ := List.mem_filterMap.mp he
  obtain ⟨pp, hfind, rfl⟩ := Option.map_eq_some_iff.mp he
  exact ⟨plan, hplan, pp,
    List.mem_of_find?_eq_some hfind, by simpa using List.find?_some hfind, rfl⟩

theorem minted_step (hs : s.Minted) (h : amountAct u st s job = some s') : s'.Minted := by
  rcases amountAct_cases h with ⟨catalog, rfl, -, -⟩ | ⟨env, world, -, hhandle, rfl⟩
  · exact ⟨hs.wellFormed, hs.stamped⟩
  obtain ⟨existing, w₀, w₁, hrun⟩ := handle_ok hs.wellFormed hhandle
  have hgrows := hrun.grows hs.wellFormed
  have hsame := hrun.sameSold hs.wellFormed
  refine ⟨hgrows.wellFormed hs.wellFormed, fun e he => ?_⟩
  rcases List.mem_append.mp he with he | he
  · obtain ⟨p, hp, hid⟩ := hs.stamped e he
    obtain ⟨p', hp', hterms⟩ := hgrows.prices p hp
    exact ⟨p', hp', hterms.id.trans hid⟩
  · -- an id that this run has left
    obtain ⟨plan, hplan, pp', hpp', hplanId, rfl⟩ := mem_stampedPlans he
    obtain ⟨pp, hpp, heq⟩ := hsame.symm.exists_planPrice hpp'
    have hpp₀ : pp.planId = pp'.planId := by
      show pp.unstamped.planId = pp'.unstamped.planId
      rw [heq]
    have hplan : plan ∈ s.world.tables.activePlans := by
      unfold CatalogTables.activePlans at hplan ⊢
      rwa [hsame.plans] at hplan
    cases handle_planPrice hs.wellFormed hhandle hpp hpp' heq.symm with
    | inactive hnone _ => exact absurd (hplanId.symm.trans hpp₀.symm) (hnone plan hplan)
    | active plan existing _ _ _ _ hpriced => exact hpriced

/-- **One step.**  The ids go on resolving exactly if the step keeps them. -/
theorem resolves_step_iff (hs : s.Minted) (hr : s.Resolves) (h : amountAct u st s job = some s') :
    s'.Resolves ↔ KeepsStamped s job := by
  have hc := s.world.catalog.constraints
  have hc' := s'.world.catalog.constraints
  rcases amountAct_cases h with ⟨catalog, rfl, hkeeps, hamounts⟩ | ⟨env, world, rfl, hhandle, rfl⟩
  · refine iff_of_true (fun e he => ?_) hkeeps
    obtain ⟨pp, hresolved, hplan⟩ := hr e he
    obtain ⟨hpp, hid⟩ := (getPriceByStripeId_eq_some_iff hc).mp hresolved
    obtain ⟨amount, hamount⟩ := hamounts pp hpp
    exact ⟨_, (getPriceByStripeId_eq_some_iff hc').mpr ⟨hamount, hid⟩, hplan⟩
  obtain ⟨existing, w₀, w₁, hrun⟩ := handle_ok hs.wellFormed hhandle
  have hsame := hrun.sameSold hs.wellFormed
  -- the price that an id resolves to, before and after the run
  have hprice : ∀ e ∈ s.stamped, ∃ pp' ∈ world.tables.planPrices, pp'.planId = e.1 ∧
      (pp'.stripePriceId = e.2 ↔ s.world.StillCosts e) := by
    intro e he
    obtain ⟨pp, hresolved, hplan⟩ := hr e he
    obtain ⟨hpp, hid⟩ := (getPriceByStripeId_eq_some_iff hc).mp hresolved
    obtain ⟨pp', hpp', heq⟩ := hsame.exists_planPrice hpp
    have hplan' : pp'.planId = pp.planId := by
      show pp'.unstamped.planId = pp.unstamped.planId
      rw [heq]
    obtain ⟨plan, x⟩ := e
    dsimp only at hplan hid ⊢
    subst hplan hid
    exact ⟨pp', hpp', hplan', (handle_planPrice hs.wellFormed hhandle hpp hpp' heq).keeps_iff hpp
      (hs.stamped _ he)⟩
  constructor
  · intro hresolves e he
    obtain ⟨pp', hpp', hplan, hiff⟩ := hprice e he
    obtain ⟨pp'', hresolved, hplan''⟩ := hresolves e (List.mem_append_left _ he)
    obtain ⟨hpp'', hid⟩ := (getPriceByStripeId_eq_some_iff hc').mp hresolved
    have heq : pp'' = pp' := (Table.unique_some_iff.mpr hc'.planPrice_plan).inj hpp'' hpp' rfl
      (congrArg some (hplan.trans hplan''.symm))
    rw [heq] at hid
    exact hiff.mp hid
  · intro hcosts e he
    rcases List.mem_append.mp he with he | he
    · obtain ⟨pp', hpp', hplan, hiff⟩ := hprice e he
      exact ⟨pp', (getPriceByStripeId_eq_some_iff hc').mpr ⟨hpp', hiff.mpr (hcosts e he)⟩, hplan⟩
    · obtain ⟨plan, -, pp, hpp, hplanId, rfl⟩ := mem_stampedPlans he
      exact ⟨pp, (getPriceByStripeId_eq_some_iff hc').mpr ⟨hpp, rfl⟩, hplanId⟩

end Steps

/-- **The ids that runs have left on the plans resolve to them**, in every state,
exactly if no run re-prices a plan: at each run the price under the key of a
stamped plan is the one with the id, and charges what the plan costs. -/
theorem stamped_resolve_iff (u : UnicodeTables) (st : Settings) {w : SyncWorld}
    (hw : w.stripe.WellFormed) (jobs : List AmountJob) :
    Runs.Always (amountAct u st) StampedWorld.Resolves ⟨w, []⟩ jobs ↔
      Runs.EachStep (amountAct u st) KeepsStamped ⟨w, []⟩ jobs := by
  apply Runs.always_iff_eachStep (I := StampedWorld.Minted)
  · exact fun s job s' hs h => minted_step hs h
  · exact fun s job s' hs hr h => resolves_step_iff hs hr h
  · exact ⟨hw, nofun⟩
  · exact nofun

/-- A plan that no run has seen yet. -/
def newPlanWorld : SyncWorld where
  catalog := ⟨⟨[⟨1, "Personal Basic", "", .personal, .basic, .month, true⟩],
    [⟨2, 1, "price_placeholder_personal_basic_month", 1999⟩], [], [], [], []⟩,
    by constructor <;> decide⟩
  stripe := ⟨[], []⟩
  writes := []
  fetches := 0
  clock := 0

theorem stamped_resolve_iff_newPlan :
    Runs.Always (amountAct asciiTables eurSettings) StampedWorld.Resolves ⟨newPlanWorld, []⟩
      [.syncStripeCatalog calm, .syncStripeCatalog calm] :=
  (stamped_resolve_iff asciiTables eurSettings (by decide) _).mpr (by decide +kernel)

/-- The plan is sold, gets dearer and is sold again. -/
def repricing : List AmountJob :=
  [.syncStripeCatalog calm, .editAmount 2 2999, .syncStripeCatalog calm]

/-- The first price is on no row any more. -/
theorem repriced_id_unknown :
    ¬ Runs.Always (amountAct asciiTables eurSettings) StampedWorld.Resolves ⟨newPlanWorld, []⟩
      repricing := by
  intro h
  have hrun :
      (Runs.run (amountAct asciiTables eurSettings) ⟨newPlanWorld, []⟩ repricing).isSome := by
    decide +kernel
  have hend : ∀ hrun : (Runs.run (amountAct asciiTables eurSettings) ⟨newPlanWorld, []⟩
        repricing).isSome,
      (1, "price_0") ∈ (Option.get _ hrun).stamped ∧
        (Option.get _ hrun).world.tables.getPriceByStripeId "price_0" = none := by
    decide +kernel
  obtain ⟨hstamped, hnone⟩ := hend hrun
  obtain ⟨pp, hpp, -⟩ := h.last (Option.some_get hrun).symm (1, "price_0") hstamped
  rw [hnone] at hpp
  cases hpp

end Saasmint
