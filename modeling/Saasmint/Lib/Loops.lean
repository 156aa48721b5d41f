/-
Saasmint/Lib/Loops.lean

Loops whose body may raise, `List.foldlM` and `List.mapM` in `Except`, and loops that count.

* `foldlM_invariant`: the loop rule.  The invariant speaks of the items that
  the loop has done, so that it can say what holds of each of them.
* `mapM_ok_mem`: a comprehension that does not raise has one result for every
  item, and no other; it does not raise where no item does (`mapM_isOk`).
* `countWhile_eq_some`: a counting loop ends at the first number that ends it.  A
  search for a name that is not in a list ends after as many rounds as the list
  has entries (`exists_not_mem`).
-/
import Mathlib.Data.List.Basic
import Mathlib.Data.List.Perm.Subperm
import Mathlib.Data.List.Nodup

namespace Loops

variable {ε α β σ : Type*}

theorem bind_eq_ok {x : Except ε α} {f : α → Except ε β} {b : β} :
    x.bind f = .ok b ↔ ∃ a, x = .ok a ∧ f a = .ok b := by
  cases x with
  | error e => simp [Except.bind]
  | ok a => simp [Except.bind]

theorem bind_eq_error {x : Except ε α} {f : α → Except ε β} {e : ε} :
    x.bind f = .error e ↔ x = .error e ∨ ∃ a, x = .ok a ∧ f a = .error e := by
  cases x with
  | error e' => simp [Except.bind]
  | ok a => simp [Except.bind]

/-- **The loop rule.**  Each round of a loop over `l` that does not raise takes
the invariant from the items done before the round to those done after it. -/
theorem foldlM_invariant {f : σ → α → Except ε σ} {I : List α → σ → Prop} {l : List α}
    (hstep : ∀ done a rest s s', l = done ++ a :: rest → I done s → f s a = .ok s' →
      I (done ++ [a]) s')
    {s t : σ} (hs : I [] s) (h : l.foldlM f s = .ok t) : I l t := by
  suffices hmain : ∀ rest done s, l = done ++ rest → I done s → rest.foldlM f s = .ok t →
      I l t from hmain l [] s rfl hs h
  intro rest
  induction rest with
  | nil =>
    intro done s hl hI h
    rw [List.foldlM_nil] at h
    cases h
    rw [hl, List.append_nil]
    exact hI
  | cons a rest ih =>
    intro done s hl hI h
    rw [List.foldlM_cons] at h
    obtain ⟨s', hs', h'⟩ := bind_eq_ok.mp h
    exact ih (done ++ [a]) s' (by simp [hl]) (hstep done a rest s s' hl hI hs') h'

theorem mapM_ok_mem {f : α → Except ε β} {l : List α} {l' : List β} (h : l.mapM f = .ok l') :
    (∀ a ∈ l, ∃ b ∈ l', f a = .ok b) ∧ ∀ b ∈ l', ∃ a ∈ l, f a = .ok b := by
  induction l generalizing l' with
  | nil =>
    rw [List.mapM_nil] at h
    cases h
    simp
  | cons a l ih =>
    rw [List.mapM_cons] at h
    obtain ⟨b, hb, h⟩ := bind_eq_ok.mp h
    obtain ⟨bs, hbs, h⟩ := bind_eq_ok.mp h
    cases h
    obtain ⟨h₁, h₂⟩ := ih hbs
    constructor
    · intro x hx
      rcases List.mem_cons.mp hx with rfl | hx
      · exact ⟨b, List.mem_cons_self .., hb⟩
      · obtain ⟨y, hy, hfy⟩ := h₁ x hx
        exact ⟨y, List.mem_cons_of_mem _ hy, hfy⟩
    · intro y hy
      rcases List.mem_cons.mp hy with rfl | hy
      · exact ⟨a, List.mem_cons_self .., hb⟩
      · obtain ⟨x, hx, hfx⟩ := h₂ y hy
        exact ⟨x, List.mem_cons_of_mem _ hx, hfx⟩

/-- A comprehension raises only where an item does. -/
theorem mapM_isOk {f : α → Except ε β} {l : List α} (h : ∀ a ∈ l, ∃ b, f a = .ok b) :
    ∃ l', l.mapM f = .ok l' := by
  induction l with
  | nil => exact ⟨[], rfl⟩
  | cons a l ih =>
    obtain ⟨b, hb⟩ := h a (List.mem_cons_self ..)
    obtain ⟨bs, hbs⟩ := ih fun x hx => h x (List.mem_cons_of_mem _ hx)
    refine ⟨b :: bs, ?_⟩
    rw [List.mapM_cons, hb, hbs]
    rfl

/-- The results in order, where `g` gives each of them. -/
theorem mapM_ok_eq_map {f : α → Except ε β} {g : α → β} {l : List α} {l' : List β}
    (h : l.mapM f = .ok l') (hg : ∀ a ∈ l, ∀ b, f a = .ok b → g a = b) : l' = l.map g := by
  induction l generalizing l' with
  | nil =>
    rw [List.mapM_nil] at h
    cases h
    rfl
  | cons a l ih =>
    rw [List.mapM_cons] at h
    obtain ⟨b, hb, h⟩ := bind_eq_ok.mp h
    obtain ⟨bs, hbs, h⟩ := bind_eq_ok.mp h
    cases h
    rw [List.map_cons, hg a (List.mem_cons_self ..) b hb,
      ih hbs fun x hx => hg x (List.mem_cons_of_mem _ hx)]

/-! ### Counting -/

/-- `while c(n): n += 1`, cut off after so many rounds. -/
def countWhile (c : Nat → Bool) : Nat → Nat → Option Nat
  | 0, _ => none
  | fuel + 1, n => if c n then countWhile c fuel (n + 1) else some n

theorem countWhile_eq_some {c : Nat → Bool} {fuel start n : Nat} (hle : start ≤ n)
    (hfuel : n < start + fuel) (hbefore : ∀ k, start ≤ k → k < n → c k = true)
    (hn : c n = false) : countWhile c fuel start = some n := by
  induction fuel generalizing start with
  | zero => omega
  | succ fuel ih =>
    unfold countWhile
    by_cases hs : start = n
    · simp [hs, hn]
    · rw [if_pos (hbefore start (Nat.le_refl _) (by omega))]
      apply ih
      · omega
      · omega
      · exact fun k hk => hbefore k (by omega)

/-- Of the names `f 0`, `f 1`, ... one of the first is not on the list. -/
theorem exists_not_mem {f : Nat → α} (hf : Function.Injective f) (l : List α) :
    ∃ k ≤ l.length, f k ∉ l := by
  by_contra hnone
  -- otherwise the list has more entries than its length
  have hsub : (List.range (l.length + 1)).map f ⊆ l := by
    intro a ha
    obtain ⟨k, hk, rfl⟩ := List.mem_map.mp ha
    have hk' := List.mem_range.mp hk
    by_contra hmem
    exact hnone ⟨k, by omega, hmem⟩
  have hle := (List.subperm_of_subset (List.nodup_range.map hf) hsub).length_le
  simp only [List.length_map, List.length_range] at hle
  omega

end Loops
