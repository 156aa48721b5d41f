/-
Saasmint/Billing/SyncCalls.lean

What the calls of `sync_stripe_catalog` do to the Stripe Prices.

A lookup key is on one price at most, so the prefetch knows the price under
each of its keys (`bulkFetchExisting_spec`).  An upsert either finds a match,
and then nobody can tell it from no call at all (`SyncWorld.Alike`), or it puts
a new price under its key and leaves the other keys alone.
-/
import Saasmint.Billing.StripeSync

namespace Saasmint

open PyStr Programs

/-! ### Prices under lookup keys -/

/-- The ids are unique, and so are the lookup keys. -/
structure StripeCatalog.WellFormed (s : StripeCatalog) : Prop where
  ids : (s.prices.map StripePrice.id).Nodup
  keys : Table.Unique StripePrice.lookupKey s.prices

instance (s : StripeCatalog) : Decidable s.WellFormed :=
  decidable_of_iff ((s.prices.map StripePrice.id).Nodup ∧
    Table.Unique StripePrice.lookupKey s.prices)
    ⟨fun h => ⟨h.1, h.2⟩, fun h => ⟨h.ids, h.keys⟩⟩

/-- A price but for its tax behavior. -/
def StripePrice.core (p : StripePrice) : StripePrice := { p with taxBehavior := .unspecified }

/-- What a row asks of its Stripe Price. -/
structure PriceSpec where
  key : String
  unitAmount : Int
  currency : String
  recurring : Option PlanInterval
  deriving DecidableEq, Repr

def SoldItem.spec (item : SoldItem) (key : String) (unitAmount : Int)
    (currency : String) : PriceSpec :=
  ⟨key, unitAmount, currency, item.recurring⟩

def StripePrice.Matches (p : StripePrice) (spec : PriceSpec) : Prop :=
  priceMatches p spec.unitAmount spec.currency spec.recurring = true

theorem priceMatches_iff {p : StripePrice} {unitAmount : Int} {currency : String}
    {recurring : Option PlanInterval} :
    priceMatches p unitAmount currency recurring = true ↔
      p.unitAmount = unitAmount ∧ p.currency = currency ∧ p.recurring = recurring := by
  unfold priceMatches
  by_cases h : p.unitAmount = unitAmount ∧ p.currency = currency
  · obtain ⟨rfl, rfl⟩ := h
    rcases recurring with - | i <;> rcases p.recurring with - | j <;> simp
  · have hne : (decide (p.unitAmount ≠ unitAmount) || decide (p.currency ≠ currency)) = true := by
      simp only [Bool.or_eq_true, decide_eq_true_eq]
      tauto
    rw [if_pos hne]
    constructor
    · intro hfalse
      cases hfalse
    · exact fun ⟨h₁, h₂, _⟩ => absurd ⟨h₁, h₂⟩ h

theorem StripePrice.matches_core {p q : StripePrice} (h : p.core = q.core) {spec : PriceSpec} :
    p.Matches spec ↔ q.Matches spec := by
  show priceMatches p _ _ _ = true ↔ priceMatches q _ _ _ = true
  have h₁ : p.core.unitAmount = q.core.unitAmount := by rw [h]
  have h₂ : p.core.currency = q.core.currency := by rw [h]
  have h₃ : p.core.recurring = q.core.recurring := by rw [h]
  dsimp only [core] at h₁ h₂ h₃
  rw [priceMatches_iff, priceMatches_iff, h₁, h₂, h₃]

namespace StripeCatalog

variable {s s' : StripeCatalog} {p q : StripePrice} {key : String}

theorem priceByKey_eq_some_iff (hs : s.WellFormed) :
    s.priceByKey key = some p ↔ p ∈ s.prices ∧ p.lookupKey = some key :=
  Table.find?_eq_some_iff hs.keys

theorem price_eq_some_iff (hs : s.WellFormed) {id : String} :
    s.price id = some p ↔ p ∈ s.prices ∧ p.id = id := by
  have h := Table.find?_eq_some_iff (Table.unique_some_iff.mpr hs.ids) (v := id) (a := p)
  simpa [price] using h

/-- The prices but for their tax behavior. -/
def cores (s : StripeCatalog) : List StripePrice := s.prices.map StripePrice.core

/-- The price under a key, but for its tax behavior. -/
def coreByKey (s : StripeCatalog) (key : String) : Option StripePrice :=
  (s.priceByKey key).map StripePrice.core

theorem coreByKey_eq (s : StripeCatalog) (key : String) :
    s.coreByKey key = s.cores.find? fun p => p.lookupKey = some key := by
  show Option.map _ (List.find? _ _) = List.find? _ (List.map _ _)
  rw [List.find?_map]
  rfl

theorem coreByKey_eq_some {c : StripePrice} (h : s.coreByKey key = some c) :
    ∃ p, s.priceByKey key = some p ∧ p.core = c :=
  Option.map_eq_some_iff.mp h

theorem WellFormed.of_cores (hs : s.WellFormed) (h : s'.cores = s.cores) : s'.WellFormed where
  ids := by
    have hids : ∀ s : StripeCatalog, s.prices.map StripePrice.id = s.cores.map StripePrice.id := by
      intro s
      rw [cores, List.map_map]
      rfl
    rw [hids, h, ← hids]
    exact hs.ids
  keys := by
    have hkeys : ∀ s : StripeCatalog,
        s.prices.filterMap StripePrice.lookupKey = s.cores.filterMap StripePrice.lookupKey := by
      intro s
      rw [cores, List.filterMap_map]
      rfl
    show (s'.prices.filterMap StripePrice.lookupKey).Nodup
    rw [hkeys, h, ← hkeys]
    exact hs.keys

/-! #### An UPDATE of the price under a key -/

theorem cores_setTaxBehavior (s : StripeCatalog) (id : String) (b : TaxBehavior) :
    (s.modifyPrice id fun p => { p with taxBehavior := b }).cores = s.cores := by
  show List.map _ (List.map _ _) = List.map _ _
  rw [List.map_map]
  apply List.map_congr_left
  intro p _
  show (if p.id = id then { p with taxBehavior := b } else p).core = p.core
  split <;> rfl

theorem WellFormed.modifyPrice (hs : s.WellFormed) (id : String) {f : StripePrice → StripePrice}
    (hid : ∀ p, (f p).id = p.id) (hkey : ∀ p, (f p).lookupKey = p.lookupKey) :
    (s.modifyPrice id f).WellFormed where
  ids := by
    have h : (s.modifyPrice id f).prices.map StripePrice.id = s.prices.map StripePrice.id := by
      show List.map _ (List.map _ _) = List.map _ _
      rw [List.map_map]
      apply List.map_congr_left
      intro p _
      show (if p.id = id then f p else p).id = p.id
      split
      · exact hid p
      · rfl
    rw [h]
    exact hs.ids
  keys := by
    apply hs.keys.map
    intro p
    left
    split
    · exact hkey p
    · rfl

/-- The prices under other keys are not touched. -/
theorem priceByKey_modifyPrice (hs : s.WellFormed) (hp : s.priceByKey key = some p)
    {f : StripePrice → StripePrice} (hid : ∀ p, (f p).id = p.id)
    (hkey : ∀ p, (f p).lookupKey = p.lookupKey) {key' : String} (hne : key' ≠ key) :
    (s.modifyPrice p.id f).priceByKey key' = s.priceByKey key' := by
  have hs' := hs.modifyPrice p.id hid hkey
  obtain ⟨hmem, hpk⟩ := (priceByKey_eq_some_iff hs).mp hp
  apply Option.ext
  intro q
  rw [priceByKey_eq_some_iff hs', priceByKey_eq_some_iff hs]
  constructor
  · rintro ⟨hq, hqk⟩
    rcases Table.mem_update.mp hq with ⟨hq, -⟩ | ⟨q₀, hq₀, hid₀, rfl⟩
    · exact ⟨hq, hqk⟩
    · -- the price that is changed is the one under `key`
      obtain rfl : q₀ = p :=
        (Table.unique_some_iff.mpr hs.ids).inj hq₀ hmem rfl (congrArg some hid₀.symm)
      rw [hkey, hpk] at hqk
      exact absurd (Option.some.inj hqk).symm hne
  · rintro ⟨hq, hqk⟩
    refine ⟨Table.mem_update.mpr (Or.inl ⟨hq, fun hid₀ => ?_⟩), hqk⟩
    obtain rfl : q = p :=
      (Table.unique_some_iff.mpr hs.ids).inj hq hmem rfl (congrArg some hid₀.symm)
    rw [hpk] at hqk
    exact hne (Option.some.inj hqk).symm

/-! #### A new price -/

theorem newObjectId_not_mem (kind : String) (ids : List String) : newObjectId kind ids ∉ ids := by
  intro h
  have hlen : (newObjectId kind ids).length - kind.length ∈ ids.map fun x =>
    x.length - kind.length :=
    List.mem_map_of_mem h
  have heq : (newObjectId kind ids).length - kind.length
      = Table.freshKey (ids.map fun x => x.length - kind.length) := by
    simp [newObjectId]
  rw [heq] at hlen
  exact Table.freshKey_not_mem _ hlen

/-- A price without its key, if it is the one that is transferred. -/
def released (key : Option String) (q : StripePrice) : StripePrice :=
  if q.lookupKey = key then { q with lookupKey := none } else q

theorem released_id (k : Option String) (q : StripePrice) : (released k q).id = q.id := by
  show (if _ then _ else _ : StripePrice).id = _
  split <;> rfl

theorem WellFormed.createPrice (hs : s.WellFormed) (hid : p.id ∉ s.prices.map StripePrice.id)
    (hkey : p.lookupKey = some key) : (s.createPrice p).WellFormed where
  ids := by
    show ((s.prices.map (released p.lookupKey) ++ [p]).map StripePrice.id).Nodup
    have h : (s.prices.map (released p.lookupKey)).map StripePrice.id
        = s.prices.map StripePrice.id := by
      rw [List.map_map]
      apply List.map_congr_left
      exact fun q _ => released_id _ q
    rw [List.map_append, h, List.map_singleton, List.nodup_append']
    refine ⟨hs.ids, List.nodup_singleton _, fun x hx hx' => ?_⟩
    rw [List.mem_singleton.mp hx'] at hx
    exact hid hx
  keys := by
    show Table.Unique StripePrice.lookupKey (s.prices.map (released p.lookupKey) ++ [p])
    apply Table.unique_append
    · apply hs.keys.map
      intro q
      show (if _ then _ else _ : StripePrice).lookupKey = _ ∨
          (if _ then _ else _ : StripePrice).lookupKey = _
      split
      · exact Or.inr rfl
      · exact Or.inl rfl
    · intro q hq v hv hqv
      obtain ⟨q₀, -, rfl⟩ := List.mem_map.mp hq
      have hreleased : (released p.lookupKey q₀).lookupKey ≠ p.lookupKey := by
        unfold released
        split
        · rw [hkey]
          exact nofun
        · assumption
      exact hreleased (hqv.trans hv.symm)

theorem priceByKey_createPrice_self (hs : s.WellFormed) (hid : p.id ∉ s.prices.map StripePrice.id)
    (hkey : p.lookupKey = some key) : (s.createPrice p).priceByKey key = some p :=
  (priceByKey_eq_some_iff (hs.createPrice hid hkey)).mpr
    ⟨List.mem_append_right _ (List.mem_singleton.mpr rfl), hkey⟩

theorem priceByKey_createPrice_of_ne (hs : s.WellFormed) (hid : p.id ∉ s.prices.map StripePrice.id)
    (hkey : p.lookupKey = some key) {key' : String} (hne : key' ≠ key) :
    (s.createPrice p).priceByKey key' = s.priceByKey key' := by
  apply Option.ext
  intro q
  rw [priceByKey_eq_some_iff (hs.createPrice hid hkey), priceByKey_eq_some_iff hs]
  constructor
  · rintro ⟨hq, hqk⟩
    rcases List.mem_append.mp hq with hq | hq
    · obtain ⟨q₀, hq₀, rfl⟩ := List.mem_map.mp hq
      split at hqk
      · cases hqk
      · rename_i hnot
        rw [if_neg hnot]
        exact ⟨hq₀, hqk⟩
    · rw [List.mem_singleton.mp hq, hkey] at hqk
      exact absurd (Option.some.inj hqk).symm hne
  · rintro ⟨hq, hqk⟩
    refine ⟨List.mem_append_left _ (List.mem_map.mpr ⟨q, hq, if_neg ?_⟩), hqk⟩
    rw [hqk, hkey]
    exact fun h => hne (Option.some.inj h)

/-- The price under the key of a row is active, if it is what the row asks for. -/
def Usable (s : StripeCatalog) (spec : PriceSpec) : Prop :=
  ∀ p, s.priceByKey spec.key = some p → p.Matches spec → p.active = true

theorem usable_congr {spec : PriceSpec} (h : s'.coreByKey spec.key = s.coreByKey spec.key) :
    s'.Usable spec ↔ s.Usable spec := by
  suffices hmain : ∀ {s s' : StripeCatalog}, s'.coreByKey spec.key = s.coreByKey spec.key →
      s.Usable spec → s'.Usable spec from ⟨hmain h.symm, hmain h⟩
  intro s s' h hs p hp hm
  have hcore : s.coreByKey spec.key = some p.core := by
    rw [← h, coreByKey, hp]
    rfl
  obtain ⟨q, hq, hpq⟩ := coreByKey_eq_some hcore
  have hactive : q.core.active = p.core.active := by rw [hpq]
  exact hactive.symm.trans (hs q hq ((StripePrice.matches_core hpq).mpr hm))

end StripeCatalog

/-! ### Calls -/

namespace SyncWorld

/-- Nobody can tell the worlds apart by their tables, or by the prices but for
their tax behavior. -/
structure Alike (w w' : SyncWorld) : Prop where
  catalog : w'.catalog = w.catalog
  writes : w'.writes = w.writes
  fetches : w'.fetches = w.fetches
  cores : w'.stripe.cores = w.stripe.cores

theorem Alike.refl (w : SyncWorld) : w.Alike w := ⟨rfl, rfl, rfl, rfl⟩

theorem Alike.trans {w w' w'' : SyncWorld} (h : w.Alike w') (h' : w'.Alike w'') : w.Alike w'' :=
  ⟨h'.catalog.trans h.catalog, h'.writes.trans h.writes, h'.fetches.trans h.fetches,
    h'.cores.trans h.cores⟩

theorem Alike.coreByKey {w w' : SyncWorld} (h : w.Alike w') (key : String) :
    w'.stripe.coreByKey key = w.stripe.coreByKey key := by
  rw [StripeCatalog.coreByKey_eq, h.cores, ← StripeCatalog.coreByKey_eq]

end SyncWorld

namespace Sync

variable {env : SyncEnv} {w : SyncWorld} {E : String → SyncWorld → Prop}

theorem wp_call {f : SyncWorld → SyncWorld} {Q : PUnit → SyncWorld → Prop}
    (hQ : Q ⟨⟩ (f { w with clock := w.clock + 1 }))
    (hE : E "StripeError" { w with clock := w.clock + 1 }) : wp (call env f) Q E w := by
  unfold wp call
  dsimp only
  split
  · rename_i h
    split at h
    · cases h
    · cases h
      exact hQ
  · rename_i h
    split at h
    · cases h
      exact hE
    · cases h

/-- A property that does not speak of the clock. -/
theorem keeps_call {P : SyncWorld → Prop} {f : SyncWorld → SyncWorld}
    (htick : ∀ w, P w → P { w with clock := w.clock + 1 }) (hf : ∀ w, P w → P (f w)) :
    Keeps P (call env f) := by
  intro w hw
  apply wp_call
  · exact hf _ (htick w hw)
  · exact htick w hw

theorem keeps_alike {f : SyncWorld → SyncWorld} (hf : ∀ w : SyncWorld, w.Alike (f w))
    (w : SyncWorld) :
    Keeps w.Alike (call env f) := by
  apply keeps_call
  · exact fun _ h => ⟨h.catalog, h.writes, h.fetches, h.cores⟩
  · exact fun w₁ h => h.trans (hf w₁)

end Sync

/-! ### The prefetch -/

/-- Every key is in a batch, and a batch has ten keys at most. -/
theorem exists_batch {keys : List String} {key : String} (h : key ∈ keys) :
    ∃ batch ∈ batches keys, key ∈ batch := by
  obtain ⟨j, hj, rfl⟩ := List.getElem_of_mem h
  refine ⟨(keys.drop (10 * (j / 10))).take 10, ?_, ?_⟩
  · apply List.mem_map.mpr
    exact ⟨j / 10, List.mem_range.mpr (by omega), rfl⟩
  · have hlt : j - 10 * (j / 10) < ((keys.drop (10 * (j / 10))).take 10).length := by
      rw [List.length_take, List.length_drop]
      omega
    have hget : ((keys.drop (10 * (j / 10))).take 10)[j - 10 * (j / 10)] = keys[j] := by
      rw [List.getElem_take, List.getElem_drop]
      congr 1
      omega
    rw [← hget]
    exact List.getElem_mem hlt

theorem length_le_of_mem_batches {keys batch : List String} (h : batch ∈ batches keys) :
    batch.length ≤ 10 := by
  obtain ⟨i, -, rfl⟩ := List.mem_map.mp h
  exact List.length_take_le ..

/-- A page of ten prices has all those under ten keys. -/
theorem StripeCatalog.WellFormed.take_ten {s : StripeCatalog} (hs : s.WellFormed)
    {batch : List String} (h : batch.length ≤ 10) :
    (s.prices.filter fun p => batch.any fun key => p.lookupKey = some key).take 10
      = s.prices.filter fun p => batch.any fun key => p.lookupKey = some key := by
  apply List.take_of_length_le
  set found := s.prices.filter fun p => batch.any fun key => p.lookupKey = some key with hfound
  have hkey : ∀ p ∈ found, ∃ key ∈ batch, p.lookupKey = some key := by
    intro p hp
    obtain ⟨-, hp⟩ := List.mem_filter.mp hp
    simpa using hp
  -- the keys of the page are different keys of the batch
  have hnodup : (found.filterMap StripePrice.lookupKey).Nodup :=
    hs.keys.of_sublist List.filter_sublist
  have hsub : found.filterMap StripePrice.lookupKey ⊆ batch := by
    intro key hk
    obtain ⟨p, hp, hpk⟩ := List.mem_filterMap.mp hk
    obtain ⟨key', hk', hpk'⟩ := hkey p hp
    rwa [Option.some.inj (hpk.symm.trans hpk')]
  have hlen : (found.filterMap StripePrice.lookupKey).length = found.length := by
    rw [List.length_filterMap_eq_countP, List.countP_eq_length]
    intro p hp
    obtain ⟨key, -, hpk⟩ := hkey p hp
    rw [hpk]
    rfl
  rw [← hlen]
  exact (List.subperm_of_subset hnodup hsub).length_le.trans h

/-- What the prefetch knows is what is there. -/
def Fetched (existing : List (String × FetchedPrice)) (keys : List String)
    (s : StripeCatalog) : Prop :=
  ∀ key ∈ keys, (existing.lookup key).map FetchedPrice.toStripePrice = s.priceByKey key

/-- A page, after the pages before it. -/
structure PageOf (result : List (String × FetchedPrice)) (keys : List String) (s : StripeCatalog) :
    Prop where
  sound : ∀ key f, (key, f) ∈ result → s.priceByKey key = some f.toStripePrice
  complete : ∀ key ∈ keys, ∀ p, s.priceByKey key = some p → ∃ f, (key, f) ∈ result

theorem PageOf.fetched {result : List (String × FetchedPrice)} {keys : List String}
    {s : StripeCatalog}
    (h : PageOf result keys s) : Fetched result keys s := by
  intro key hkey
  rcases hlookup : result.lookup key with - | f
  · symm
    show s.priceByKey key = none
    apply Option.eq_none_iff_forall_ne_some.mpr
    intro p hp
    obtain ⟨f, hf⟩ := h.complete key hkey p hp
    have hne := List.lookup_eq_none_iff.mp hlookup (key, f) hf
    simp at hne
  · obtain ⟨l₁, l₂, rfl, -⟩ := List.lookup_eq_some_iff.mp hlookup
    exact (h.sound key f (by simp)).symm

theorem wp_priceList {env : SyncEnv} {w : SyncWorld} (hw : w.stripe.WellFormed)
    {batch : List String}
    (hbatch : batch.length ≤ 10) :
    wp (Sync.priceList env batch) (fun page w' => w.Alike w' ∧ w'.stripe = w.stripe ∧
        ∀ p, (∃ f ∈ page, f.toStripePrice = p) ↔
          p ∈ w.stripe.prices ∧ ∃ key ∈ batch, p.lookupKey = some key)
      (fun _ w' => w.Alike w') w := by
  show wp (Sync.call env id >>= fun _ => _) _ _ w
  rw [wp_bind]
  apply Sync.wp_call
  · refine ⟨⟨rfl, rfl, rfl, rfl⟩, rfl, fun p => ?_⟩
    show (∃ f ∈ ((w.stripe.prices.filter _).take 10).map _, _) ↔ _
    rw [hw.take_ten hbatch]
    constructor
    · rintro ⟨f, hf, rfl⟩
      obtain ⟨q, hq, rfl⟩ := List.mem_map.mp hf
      simpa using List.mem_filter.mp hq
    · rintro ⟨hp, hkey⟩
      refine ⟨_, List.mem_map.mpr ⟨p, List.mem_filter.mpr ⟨hp, ?_⟩, rfl⟩, rfl⟩
      simpa using hkey
  · exact ⟨rfl, rfl, rfl, rfl⟩

/-- **The prefetch** changes nothing, and knows the price under each key. -/
theorem bulkFetchExisting_spec {env : SyncEnv} {w : SyncWorld} (hw : w.stripe.WellFormed)
    (keys : List String) :
    wp (bulkFetchExisting env keys)
      (fun existing w' => w.Alike w' ∧ w'.stripe = w.stripe ∧ PageOf existing keys w.stripe)
      (fun _ w' => w.Alike w') w := by
  -- the invariant: the pages so far are those of the batches so far
  have hloop := wp_foldlM (l := batches keys) (E := fun _ w' => w.Alike w')
    (f := fun result batch => do
      let page ← Sync.priceList env batch
      return (page.filterMap fun price : FetchedPrice =>
        price.lookupKey.map fun key => (key, price))
        ++ result)
    (I := fun done result w' => w.Alike w' ∧ w'.stripe = w.stripe ∧
      PageOf result done.flatten w.stripe)
    (b := []) (s := w) ?_ ⟨.refl w, rfl, nofun, nofun⟩
  · apply wp_mono hloop
    · rintro existing w' ⟨halike, hstripe, hpage⟩
      refine ⟨halike, hstripe, hpage.sound, fun key hkey p hp => ?_⟩
      obtain ⟨batch, hbatch, hmem⟩ := exists_batch hkey
      exact hpage.complete key (List.mem_flatten.mpr ⟨batch, hbatch, hmem⟩) p hp
    · exact fun _ _ h => h
  · intro done batch rest result w₁ hl ⟨halike, hstripe, hpage⟩
    have hmem : batch ∈ batches keys := by
      rw [hl]
      simp
    have hbatch := length_le_of_mem_batches hmem
    rw [wp_bind]
    apply wp_mono (wp_priceList (by rwa [hstripe]) hbatch)
    · rintro page w₂ ⟨h₂, hstripe₂, hmem⟩
      rw [hstripe] at hstripe₂ hmem
      refine ⟨halike.trans h₂, hstripe₂, ?_, ?_⟩
      · intro key f hf
        rcases List.mem_append.mp hf with hf | hf
        · obtain ⟨price, hprice, heq⟩ := List.mem_filterMap.mp hf
          obtain ⟨key', hkey', heq⟩ := Option.map_eq_some_iff.mp heq
          cases heq
          have hin := ((hmem f.toStripePrice).mp ⟨f, hprice, rfl⟩).1
          exact (StripeCatalog.priceByKey_eq_some_iff hw).mpr ⟨hin, hkey'⟩
        · exact hpage.sound key f hf
      · intro key hkey p hp
        rw [List.flatten_append, List.flatten_singleton, List.mem_append] at hkey
        rcases hkey with hkey | hkey
        · obtain ⟨f, hf⟩ := hpage.complete key hkey p hp
          exact ⟨f, List.mem_append_right _ hf⟩
        · obtain ⟨hin, hpk⟩ := (StripeCatalog.priceByKey_eq_some_iff hw).mp hp
          obtain ⟨f, hf, rfl⟩ := (hmem p).mpr ⟨hin, key, hkey, hpk⟩
          refine ⟨f, List.mem_append_left _ (List.mem_filterMap.mpr ⟨f, hf, ?_⟩)⟩
          rw [hpk]
          rfl
    · exact fun _ _ h => halike.trans h

/-! ### The upsert -/

section Upsert

variable {env : SyncEnv} {w : SyncWorld} {existing : List (String × FetchedPrice)} {item : SoldItem}
  {key currency : String} {unitAmount : Int}

theorem syncStripeProduct_alike (product : ProductRef) (w : SyncWorld) :
    Keeps w.Alike (syncStripeProduct env product item) := by
  have hmodify : ∀ id f, Keeps w.Alike (Sync.productModify env id f) := by
    intro id f
    apply Sync.keeps_alike
    exact fun _ => ⟨rfl, rfl, rfl, rfl⟩
  rcases product with p | id
  · exact Keeps.ite (hmodify _ _) (Keeps.pure _)
  · exact Keeps.ite (hmodify _ _) (Keeps.pure _)

theorem ensureTaxBehavior_alike (price : FetchedPrice) (w : SyncWorld) :
    Keeps w.Alike (ensureTaxBehavior env price) := by
  unfold ensureTaxBehavior
  split
  · apply Sync.keeps_alike
    exact fun w => ⟨rfl, rfl, rfl, w.stripe.cores_setTaxBehavior _ _⟩
  · exact Keeps.pure _

/-- A match is kept. -/
theorem upsertPrice_of_match {f : FetchedPrice} (hf : existing.lookup key = some f)
    (hm : f.Matches (item.spec key unitAmount currency)) :
    wp (upsertPrice env existing key unitAmount currency item)
      (fun id w' => w.Alike w' ∧ id = f.id) (fun _ w' => w.Alike w') w := by
  have hmatch : priceMatches f.toStripePrice unitAmount currency item.recurring = true := hm
  unfold upsertPrice
  rw [hf]
  dsimp only
  rw [if_pos hmatch, wp_bind]
  apply wp_mono (syncStripeProduct_alike _ w w (.refl w))
  · intro _ w₁ h₁
    rw [wp_bind]
    apply wp_mono (ensureTaxBehavior_alike f w w₁ h₁)
    · exact fun _ w₂ h₂ => ⟨h₂, rfl⟩
    · exact fun _ _ h => h
  · exact fun _ _ h => h

/-- What an upsert leaves: a price that matches, under its key, and the prices
under the other keys. -/
structure Upserted (w : SyncWorld) (spec : PriceSpec) (id : String) (w' : SyncWorld) : Prop where
  catalog : w'.catalog = w.catalog
  fetches : w'.fetches = w.fetches
  wellFormed : w'.stripe.WellFormed
  others : ∀ key, key ≠ spec.key → w'.stripe.coreByKey key = w.stripe.coreByKey key
  price : ∃ p, w'.stripe.priceByKey spec.key = some p ∧ p.id = id ∧ p.Matches spec ∧
    (p.active = true ↔ w.stripe.Usable spec)

/-- A new price, where no price under the key is a match. -/
theorem priceCreate_spec (spec : PriceSpec) {E : String → SyncWorld → Prop} {w₁ : SyncWorld}
    (hE : ∀ e w', E e w')
    (hw₁ : w₁.stripe.WellFormed) (hcatalog : w₁.catalog = w.catalog)
    (hfetches : w₁.fetches = w.fetches)
    (hothers : ∀ key, key ≠ spec.key → w₁.stripe.coreByKey key = w.stripe.coreByKey key)
    (hmiss : ∀ p, w.stripe.priceByKey spec.key = some p → ¬ p.Matches spec) (product : String) :
    wp (Sync.priceCreate env spec.key spec.unitAmount spec.currency spec.recurring product)
      (fun id w' => Upserted w spec id w') E w₁ := by
  set p : StripePrice := ⟨newObjectId "price_" (w₁.stripe.prices.map StripePrice.id), product,
    spec.unitAmount, spec.currency, spec.recurring, some spec.key, .exclusive, true⟩ with hp
  have hid : p.id ∉ w₁.stripe.prices.map StripePrice.id := StripeCatalog.newObjectId_not_mem _ _
  have hkey : p.lookupKey = some spec.key := rfl
  show wp (Sync.call env _ >>= fun _ => pure p.id) _ _ w₁
  rw [wp_bind]
  apply Sync.wp_call
  · refine ⟨hcatalog, hfetches, hw₁.createPrice hid hkey, fun key hne => ?_, p, ?_, rfl, ?_, ?_⟩
    · show (w₁.stripe.createPrice p).coreByKey key = _
      unfold StripeCatalog.coreByKey
      rw [StripeCatalog.priceByKey_createPrice_of_ne hw₁ hid hkey hne]
      exact hothers key hne
    · exact StripeCatalog.priceByKey_createPrice_self hw₁ hid hkey
    · exact priceMatches_iff.mpr ⟨rfl, rfl, rfl⟩
    · exact iff_of_true rfl fun q hq hm => absurd hm (hmiss q hq)
  · exact hE _ _

/-- **The upsert.**  It is told the price under its key. -/
theorem upsertPrice_spec {E : String → SyncWorld → Prop} (hE : ∀ e w', E e w')
    (hw : w.stripe.WellFormed)
    (hfetched : (existing.lookup key).map (fun f => f.core) = w.stripe.coreByKey key) :
    wp (upsertPrice env existing key unitAmount currency item)
      (fun id w' => Upserted w (item.spec key unitAmount currency) id w') E w := by
  rcases hf : existing.lookup key with - | f
  · -- no price under the key
    rw [hf] at hfetched
    have hnone : w.stripe.priceByKey key = none := Option.map_eq_none_iff.mp hfetched.symm
    unfold upsertPrice
    rw [hf]
    dsimp only
    show wp (Sync.productCreate env _ >>= fun product => _) _ _ _
    rw [wp_bind]
    show wp (Sync.call env _ >>= fun _ => pure _) _ _ w
    rw [wp_bind]
    apply Sync.wp_call
    · rw [wp_pure]
      apply priceCreate_spec (item.spec key unitAmount currency) hE
      · exact hw.of_cores rfl
      · rfl
      · rfl
      · exact fun key _ => rfl
      · intro p hp
        cases hnone.symm.trans hp
    · exact hE _ _
  · rw [hf] at hfetched
    obtain ⟨p, hp, hcore⟩ := StripeCatalog.coreByKey_eq_some hfetched.symm
    have hidf : p.core.id = f.core.id := by rw [hcore]
    by_cases hm : f.Matches (item.spec key unitAmount currency)
    · -- the price is kept
      apply wp_mono (upsertPrice_of_match hf hm)
      · rintro id w' ⟨h', rfl⟩
        have hkey' : w'.stripe.coreByKey key = some p.core := by
          rw [h'.coreByKey, StripeCatalog.coreByKey, hp]
          rfl
        obtain ⟨p', hp', hcore'⟩ := StripeCatalog.coreByKey_eq_some hkey'
        have hm' : p'.Matches (item.spec key unitAmount currency) :=
          (StripePrice.matches_core (hcore'.trans hcore)).mpr hm
        refine ⟨h'.catalog, h'.fetches, hw.of_cores h'.cores, fun key _ =>
          h'.coreByKey key, p', hp', ?_,
          hm', ?_⟩
        · have hid' : p'.core.id = p.core.id := by rw [hcore']
          exact hid'.trans hidf
        · rw [← StripeCatalog.usable_congr (h'.coreByKey key)]
          constructor
          · intro hactive q hq _
            rwa [Option.some.inj (hq.symm.trans hp')]
          · exact fun h => h p' hp' hm'
      · exact fun _ _ _ => hE _ _
    · -- the price is archived, and its product gets a new one
      have hmiss : ∀ q, w.stripe.priceByKey key = some q →
          ¬ q.Matches (item.spec key unitAmount currency) := by
        intro q hq hqm
        obtain rfl := Option.some.inj (hq.symm.trans hp)
        exact hm ((StripePrice.matches_core hcore).mp hqm)
      unfold upsertPrice
      rw [hf]
      dsimp only
      rw [if_neg (c := priceMatches f.toStripePrice unitAmount currency item.recurring
        = true) hm, wp_bind]
      apply Sync.wp_call
      · rw [wp_bind]
        set w₁ : SyncWorld := { w with
          clock := w.clock + 1
          stripe := w.stripe.modifyPrice f.id fun p => { p with active := false }
          writes := w.writes ++ [.archived f.id] } with hw₁
        have hw₁' : w₁.stripe.WellFormed := hw.modifyPrice f.id (fun _ => rfl) fun _ => rfl
        apply wp_mono (syncStripeProduct_alike _ w₁ w₁ (.refl w₁))
        · intro _ w₂ h₂
          apply priceCreate_spec (w := w) (item.spec key unitAmount currency) hE
            (hw₁'.of_cores h₂.cores) h₂.catalog h₂.fetches ?_ hmiss
          intro key hne
          rw [h₂.coreByKey]
          have hid : f.id = p.id := hidf.symm
          have hkeep := StripeCatalog.priceByKey_modifyPrice hw hp
            (f := fun p => { p with active := false }) (fun _ => rfl) (fun _ => rfl) hne
          show (w₁.stripe.priceByKey key).map _ = (w.stripe.priceByKey key).map _
          rw [← hkeep, hw₁, hid]
        · exact fun _ _ _ => hE _ _
      · exact hE _ _

end Upsert

end Saasmint
