/-
Saasmint/Lib/Table.lean

Tables as lists of rows, with lookups by a column and `UPDATE ... WHERE`.

A column is a function `g : α → Option κ`, where `none` is SQL's NULL; a
primary key is the column `fun a => some (key a)`.  `Unique g l` is the unique
constraint on a column: two rows never share a value, and any number of rows
may be NULL.  Under it a lookup by a value is decided by membership
(`find?_eq_some_iff`), so that the lemmas about `update` and `upsert` only
speak about which rows a table has.
-/
import Mathlib.Data.List.MinMax
import Mathlib.Data.List.Nodup
import Mathlib.Data.List.Pairwise

namespace Table

variable {α κ ν : Type*}

/-- The unique constraint on the column `g`. -/
def Unique (g : α → Option κ) (l : List α) : Prop := (l.filterMap g).Nodup

instance [DecidableEq κ] (g : α → Option κ) (l : List α) : Decidable (Unique g l) :=
  inferInstanceAs (Decidable (List.Nodup _))

/-- For a column without NULLs. -/
theorem unique_some_iff {f : α → κ} {l : List α} :
    Unique (fun a => some (f a)) l ↔ (l.map f).Nodup := by
  have h : l.filterMap (fun a => some (f a)) = l.map f := congrFun List.filterMap_eq_map l
  rw [Unique, h]

theorem unique_iff_pairwise {g : α → Option κ} {l : List α} :
    Unique g l ↔ l.Pairwise fun a b => ∀ v, g a = some v → g b ≠ some v := by
  unfold Unique List.Nodup
  rw [List.pairwise_filterMap]
  constructor
  · intro h
    refine h.imp fun hab v hv hw => ?_
    exact hab v hv v hw rfl
  · intro h
    refine h.imp fun hab v hv w hw hvw => ?_
    subst hvw
    exact hab v hv hw

/-- Two rows of a table that share a value of a unique column are the same. -/
theorem Unique.inj {g : α → Option κ} {l : List α} (h : Unique g l) {a b : α} {v : κ}
    (ha : a ∈ l) (hb : b ∈ l) (hga : g a = some v) (hgb : g b = some v) : a = b := by
  rw [unique_iff_pairwise] at h
  by_contra hne
  have : Std.Symm fun a b : α => ∀ v, g a = some v → g b ≠ some v :=
    ⟨fun _ _ hxy w hy hx => hxy w hx hy⟩
  exact h.forall ha hb hne v hga hgb

/-- Rows can be removed. -/
theorem Unique.of_sublist {g : α → Option κ} {l l' : List α} (h : Unique g l)
    (hl : l'.Sublist l) : Unique g l' :=
  List.Nodup.sublist (hl.filterMap g) h

/-- What a second column leaves of the values of a first, in their order. -/
theorem filterMap_sublist {g g' : α → Option κ} {l : List α}
    (h : ∀ a, g' a = g a ∨ g' a = none) : (l.filterMap g').Sublist (l.filterMap g) := by
  induction l with
  | nil => exact List.Sublist.slnil
  | cons a l ih =>
    rcases e : g' a with - | v
    · rw [List.filterMap_cons_none e]
      exact ih.trans ((List.sublist_cons_self a l).filterMap g)
    · have hg : g a = some v := by
        rcases h a with e' | e'
        · exact e'.symm.trans e
        · rw [e'] at e
          cases e
      rw [List.filterMap_cons_some e, List.filterMap_cons_some hg]
      exact ih.cons_cons v

/-- A selection that keeps the keys keeps their order. -/
theorem map_filterMap_sublist {β : Type*} {f : α → Option β} {key : α → κ} {key' : β → κ}
    (hf : ∀ a b, f a = some b → key' b = key a) (l : List α) :
    ((l.filterMap f).map key').Sublist (l.map key) := by
  induction l with
  | nil => exact List.Sublist.slnil
  | cons a l ih =>
    rcases h : f a with - | b
    · rw [List.filterMap_cons_none h]
      exact ih.cons _
    · rw [List.filterMap_cons_some h, List.map_cons, List.map_cons, hf a b h]
      exact ih.cons_cons _

/-- Rows can be rewritten as long as none gets a new value. -/
theorem Unique.map {g : α → Option κ} {l : List α} (h : Unique g l) {f : α → α}
    (hf : ∀ a, g (f a) = g a ∨ g (f a) = none) : Unique g (l.map f) := by
  unfold Unique
  rw [List.filterMap_map]
  exact List.Nodup.sublist (filterMap_sublist hf) h

/-- A lookup by a value of a unique column finds the row that has it. -/
theorem find?_eq_some_iff [DecidableEq κ] {g : α → Option κ} {l : List α} (h : Unique g l)
    {v : κ} {a : α} :
    (l.find? fun r => decide (g r = some v)) = some a ↔ a ∈ l ∧ g a = some v := by
  constructor
  · intro hf
    exact ⟨List.mem_of_find?_eq_some hf, by simpa using List.find?_some hf⟩
  · rintro ⟨hmem, hga⟩
    rcases e : l.find? fun r => decide (g r = some v) with - | b
    · have := List.find?_eq_none.mp e a hmem
      simp [hga] at this
    · have hb : g b = some v := by simpa using List.find?_some e
      rw [h.inj hmem (List.mem_of_find?_eq_some e) hga hb]

/-- The rows that have a value of a unique column are that one row. -/
theorem filter_eq_singleton [DecidableEq κ] {g : α → Option κ} {l : List α} (h : Unique g l)
    {v : κ} {a : α} (ha : a ∈ l) (hga : g a = some v) :
    l.filter (fun r => decide (g r = some v)) = [a] := by
  rw [unique_iff_pairwise] at h
  induction l with
  | nil => cases ha
  | cons b l ih =>
    obtain ⟨hb, hl⟩ := List.pairwise_cons.mp h
    rcases List.mem_cons.mp ha with rfl | ha
    · -- no later row has the value
      have hnone : l.filter (fun r => decide (g r = some v)) = [] :=
        List.filter_eq_nil_iff.mpr fun r hr hgr => hb r hr v hga (by simpa using hgr)
      rw [List.filter_cons, if_pos (by simpa using hga), hnone]
    · have hgb : g b ≠ some v := fun hgb => hb a ha v hgb hga
      rw [List.filter_cons, if_neg (by simpa using hgb), ih hl ha]

/-- Where a column is unique, a lookup by a value and a condition that is then
tested for a stronger one is a lookup by the stronger one. -/
theorem find?_filter_of_unique [DecidableEq κ] {f : α → κ} {l : List α}
    (hl : (l.map f).Nodup) (k : κ) (p q : α → Bool) (hqp : ∀ a, q a = true → p a = true) :
    (l.find? fun a => f a = k && p a).filter q = l.find? fun a => f a = k && q a := by
  induction l with
  | nil => rfl
  | cons a l ih =>
    obtain ⟨ha, hl'⟩ := List.nodup_cons.mp hl
    by_cases hk : f a = k
    · -- no later row has the key
      have hnone : ∀ r : α → Bool, (l.find? fun b => decide (f b = k) && r b) = none := by
        intro r
        refine List.find?_eq_none.mpr fun b hb hfb => ?_
        simp only [Bool.and_eq_true, decide_eq_true_eq] at hfb
        exact ha (List.mem_map.mpr ⟨b, hb, hfb.1.trans hk.symm⟩)
      have hp := hqp a
      simp only [List.find?_cons, hk, decide_true, Bool.true_and, hnone]
      rcases hpa : p a <;> rcases hqa : q a <;> simp_all
    · simpa [List.find?_cons, hk] using ih hl'

/-- `WHERE p ORDER BY f LIMIT 1`, where `f` is unique. -/
theorem argmin_filter_eq_some_iff [LinearOrder κ] {f : α → κ} {l : List α}
    (hl : Unique (fun a => some (f a)) l) {p : α → Bool} {a : α} :
    (l.filter p).argmin f = some a ↔
      a ∈ l ∧ p a = true ∧ ∀ b ∈ l, p b = true → f a ≤ f b := by
  constructor
  · intro h
    obtain ⟨ha, hp⟩ := List.mem_filter.mp (List.argmin_mem h)
    refine ⟨ha, hp, fun b hb hpb => ?_⟩
    exact List.le_of_mem_argmin (List.mem_filter.mpr ⟨hb, hpb⟩) h
  · rintro ⟨ha, hp, hle⟩
    have hmem : a ∈ l.filter p := List.mem_filter.mpr ⟨ha, hp⟩
    rcases h : (l.filter p).argmin f with - | b
    · rw [List.argmin_eq_none.mp h] at hmem
      cases hmem
    · obtain ⟨hb, hpb⟩ := List.mem_filter.mp (List.argmin_mem h)
      have hab : f b = f a := le_antisymm (List.le_of_mem_argmin hmem h) (hle b hb hpb)
      rw [hl.inj hb ha rfl (congrArg some hab.symm)]

/-- `ORDER BY f DESC LIMIT 1`. -/
def latest? (f : α → Int) : List α → Option α
  | [] => none
  | a :: l =>
    match latest? f l with
    | none => some a
    | some b => if f a < f b then some b else some a

theorem mem_of_latest? {f : α → Int} {l : List α} {a : α} (h : latest? f l = some a) : a ∈ l := by
  induction l with
  | nil => cases h
  | cons b l ih =>
    rw [latest?] at h
    rcases e : latest? f l with - | c
    · rw [e] at h
      obtain rfl := Option.some.inj h
      exact List.mem_cons_self ..
    · rw [e] at h
      dsimp only at h
      split at h
      · obtain rfl := Option.some.inj h
        exact List.mem_cons_of_mem _ (ih e)
      · obtain rfl := Option.some.inj h
        exact List.mem_cons_self ..

/-- A key above all those in use. -/
def freshKey (keys : List Nat) : Nat := keys.foldr max 0 + 1

theorem freshKey_not_mem (keys : List Nat) : freshKey keys ∉ keys := by
  have hle : ∀ x ∈ keys, x ≤ keys.foldr max 0 := by
    induction keys with
    | nil => simp
    | cons y keys ih =>
      intro x hx
      rcases List.mem_cons.mp hx with rfl | hx
      · exact Nat.le_max_left _ _
      · exact Nat.le_trans (ih x hx) (Nat.le_max_right _ _)
  intro h
  have := hle _ h
  unfold freshKey at this
  omega

/-! ### Writes -/

section Writes

variable [DecidableEq ν] (key : α → ν)

/-- `UPDATE ... WHERE key = k`. -/
def update (k : ν) (f : α → α) (l : List α) : List α :=
  l.map fun a => if key a = k then f a else a

/-- `update_or_create(key=k)`. -/
def upsert (k : ν) (new : α) (f : α → α) (l : List α) : List α :=
  if l.any (key · = k) then update key k f l else l ++ [new]

variable {key} {k : ν} {f : α → α} {l : List α} {new : α}

theorem mem_update {r : α} :
    r ∈ update key k f l ↔ (r ∈ l ∧ key r ≠ k) ∨ ∃ a ∈ l, key a = k ∧ r = f a := by
  simp only [update, List.mem_map]
  constructor
  · rintro ⟨a, ha, rfl⟩
    by_cases hk : key a = k
    · exact Or.inr ⟨a, ha, hk, by simp [hk]⟩
    · exact Or.inl (by simp [hk, ha])
  · rintro (⟨hr, hk⟩ | ⟨a, ha, hk, rfl⟩)
    · exact ⟨r, hr, by simp [hk]⟩
    · exact ⟨a, ha, by simp [hk]⟩

theorem mem_upsert {r : α} :
    r ∈ upsert key k new f l ↔
      (r ∈ l ∧ key r ≠ k) ∨ (∃ a ∈ l, key a = k ∧ r = f a) ∨
        ((∀ a ∈ l, key a ≠ k) ∧ r = new) := by
  unfold upsert
  split
  case isTrue h =>
    obtain ⟨a, ha, hk⟩ := by simpa using h
    rw [mem_update]
    constructor
    · rintro (h | h)
      · exact Or.inl h
      · exact Or.inr (Or.inl h)
    · rintro (h | h | ⟨h, -⟩)
      · exact Or.inl h
      · exact Or.inr h
      · exact absurd hk (h a ha)
  case isFalse h =>
    have hnone : ∀ a ∈ l, key a ≠ k := by simpa using h
    rw [List.mem_append, List.mem_singleton]
    constructor
    · rintro (h | h)
      · exact Or.inl ⟨h, hnone r h⟩
      · exact Or.inr (Or.inr ⟨hnone, h⟩)
    · rintro (h | ⟨a, ha, hk, -⟩ | ⟨-, h⟩)
      · exact Or.inl h.1
      · exact absurd hk (hnone a ha)
      · exact Or.inr h

/-- Writing one row keeps a column unique when the value that the row gets is
not the value of a row with another key. -/
theorem unique_update {g : α → Option κ} (hkey : Unique (fun a => some (key a)) l)
    (hg : Unique g l)
    (hnew : ∀ a ∈ l, key a = k → ∀ b ∈ l, key b ≠ k → ∀ v, g (f a) = some v → g b ≠ some v) :
    Unique g (update key k f l) := by
  rw [unique_iff_pairwise] at *
  unfold update
  rw [List.pairwise_map]
  refine (hkey.and hg).imp_of_mem fun {a b} ha hb hab v => ?_
  obtain ⟨hne, hgab⟩ := hab
  have hne' : key b ≠ key a := by simpa using hne (key a)
  by_cases hka : key a = k
  · have hkb : key b ≠ k := fun h => hne' (h.trans hka.symm)
    simpa [hka, hkb] using hnew a ha hka b hb hkb v
  · by_cases hkb : key b = k
    · intro hv hw
      simp only [hka, hkb, if_true, if_false] at hv hw
      exact hnew b hb hkb a ha hka v hw hv
    · simpa [hka, hkb] using hgab v

theorem unique_append {g : α → Option κ} (hg : Unique g l)
    (hnew : ∀ b ∈ l, ∀ v, g new = some v → g b ≠ some v) : Unique g (l ++ [new]) := by
  rw [unique_iff_pairwise] at *
  rw [List.pairwise_append]
  refine ⟨hg, List.pairwise_singleton _ _, fun a ha b hb v hv hw => ?_⟩
  rw [List.mem_singleton] at hb
  subst hb
  exact hnew a ha v hw hv

end Writes

end Table
