/-
Saasmint/Lib/Runs.lean

Runs of a labelled transition system whose step function is executable and
partial: `step s a = none` says that the label `a` is not enabled in `s`.
A run is a list of labels.  Three predicates are read along a run:

* `Always step P s as`: every state of the run satisfies `P`;
* `EachStep step C s as`: every step of the run meets the condition `C`, a
  predicate on the state before the step and the label;
* `EachMove step R s as`: every step of the run is in the relation `R` between
  the state before it, its label and the state after it.

Main results: an invariant holds along every run (`always_of_invariant`), a
property that each step preserves under a condition holds along every run
whose steps meet it (`always_of_eachStep`), and where the condition is also
necessary for each step the two predicates agree (`always_iff_eachStep`, and
`always_and_eachMove_iff` where the moves count as well).  A system each of
whose steps another one matches, by a step of its own or by none, is matched
along every run (`exists_run_of_simulation`).  Where every step takes a measure
down, a run comes to its end (`exists_stuck_of_decreases`).
-/
import Mathlib.Logic.Function.Basic

namespace Runs

variable {σ α : Type*}

/-- Run the labels of a list in order. -/
def run (step : σ → α → Option σ) : σ → List α → Option σ
  | s, [] => some s
  | s, a :: as => (step s a).bind fun s' => run step s' as

/-- Every state of the run of `as` from `s` satisfies `P`.  A label that is
not enabled ends the run. -/
def Always (step : σ → α → Option σ) (P : σ → Prop) : σ → List α → Prop
  | s, [] => P s
  | s, a :: as => P s ∧ ∀ s', step s a = some s' → Always step P s' as

/-- Every step of the run of `as` from `s` meets `C`. -/
def EachStep (step : σ → α → Option σ) (C : σ → α → Prop) : σ → List α → Prop
  | _, [] => True
  | s, a :: as => ∀ s', step s a = some s' → C s a ∧ EachStep step C s' as

/-- Every step of the run of `as` from `s` is in `R`. -/
def EachMove (step : σ → α → Option σ) (R : σ → α → σ → Prop) : σ → List α → Prop
  | _, [] => True
  | s, a :: as => ∀ s', step s a = some s' → R s a s' ∧ EachMove step R s' as

variable {step : σ → α → Option σ} {P I : σ → Prop} {C : σ → α → Prop} {R : σ → α → σ → Prop}

/-- A condition that can be decided can be decided along a run. -/
instance decidableEachStep [∀ s a, Decidable (C s a)] :
    ∀ s as, Decidable (EachStep step C s as)
  | _, [] => isTrue trivial
  | s, a :: as =>
    match h : step s a with
    | none => isTrue fun s' hs => by rw [h] at hs; cases hs
    | some t =>
      have := decidableEachStep t as
      decidable_of_iff (C s a ∧ EachStep step C t as)
        ⟨fun hc s' hs => Option.some.inj (h.symm.trans hs) ▸ hc, fun hc => hc t h⟩

@[simp] theorem run_nil (s : σ) : run step s [] = some s := rfl

theorem run_cons (s : σ) (a : α) (as : List α) :
    run step s (a :: as) = (step s a).bind fun s' => run step s' as := rfl

theorem run_append (s : σ) (as bs : List α) :
    run step s (as ++ bs) = (run step s as).bind fun t => run step t bs := by
  induction as generalizing s with
  | nil => rfl
  | cons a as ih =>
    rw [List.cons_append, run_cons, run_cons]
    rcases e : step s a with - | s'
    · rfl
    · simp only [Option.bind_some, ih]

theorem Always.head {s : σ} {as : List α} (h : Always step P s as) : P s := by
  cases as with
  | nil => exact h
  | cons a as => exact h.1

/-- The state a run ends in is one of its states. -/
theorem Always.last {s t : σ} {as : List α} (h : Always step P s as)
    (hr : run step s as = some t) : P t := by
  induction as generalizing s with
  | nil =>
    obtain rfl := Option.some.inj hr
    exact h
  | cons a as ih =>
    rw [run_cons] at hr
    obtain ⟨s', hs, hr'⟩ := Option.bind_eq_some_iff.mp hr
    exact ih (h.2 s' hs) hr'

theorem Always.mono {Q : σ → Prop} (hPQ : ∀ s, P s → Q s) {s : σ} {as : List α}
    (h : Always step P s as) : Always step Q s as := by
  induction as generalizing s with
  | nil => exact hPQ s h
  | cons a as ih => exact ⟨hPQ s h.1, fun s' hs => ih (h.2 s' hs)⟩

theorem Always.and {Q : σ → Prop} {s : σ} {as : List α} (hP : Always step P s as)
    (hQ : Always step Q s as) : Always step (fun s => P s ∧ Q s) s as := by
  induction as generalizing s with
  | nil => exact ⟨hP, hQ⟩
  | cons a as ih => exact ⟨⟨hP.1, hQ.1⟩, fun s' hs => ih (hP.2 s' hs) (hQ.2 s' hs)⟩

theorem EachStep.and {D : σ → α → Prop} {s : σ} {as : List α} (hC : EachStep step C s as)
    (hD : EachStep step D s as) : EachStep step (fun s a => C s a ∧ D s a) s as := by
  induction as generalizing s with
  | nil => trivial
  | cons a as ih =>
    intro s' hs
    obtain ⟨hc, hC'⟩ := hC s' hs
    obtain ⟨hd, hD'⟩ := hD s' hs
    exact ⟨⟨hc, hd⟩, ih hC' hD'⟩

/-- The induction along a run, once and for all: a property that holds at the
start and that every step meeting `C` preserves holds along every run whose
steps meet `C`.  The invariant `I` is preserved by every step. -/
theorem always_of_eachStep
    (hI : ∀ s a s', I s → step s a = some s' → I s')
    (hP : ∀ s a s', I s → P s → step s a = some s' → C s a → P s')
    {s : σ} {as : List α} (hIs : I s) (hPs : P s)
    (hC : EachStep step C s as) : Always step P s as := by
  induction as generalizing s with
  | nil => exact hPs
  | cons a as ih =>
    refine ⟨hPs, fun s' hs => ?_⟩
    obtain ⟨hc, hrest⟩ := hC s' hs
    exact ih (hI s a s' hIs hs) (hP s a s' hIs hPs hs hc) hrest

/-- What every step meets, each step of a run meets. -/
theorem eachStep_of_step (hC : ∀ s a s', step s a = some s' → C s a) (s : σ) (as : List α) :
    EachStep step C s as := by
  induction as generalizing s with
  | nil => trivial
  | cons a as ih => exact fun s' hs => ⟨hC s a s' hs, ih s'⟩

/-- An invariant holds in every state of every run. -/
theorem always_of_invariant
    (hI : ∀ s a s', I s → step s a = some s' → I s')
    {s : σ} (hIs : I s) (as : List α) : Always step I s as := by
  induction as generalizing s with
  | nil => exact hIs
  | cons a as ih => exact ⟨hIs, fun s' hs => ih (hI s a s' hIs hs)⟩

/-- What every step from an invariant is in, every step of every run is in. -/
theorem eachMove_of_invariant
    (hI : ∀ s a s', I s → step s a = some s' → I s')
    (hR : ∀ s a s', I s → step s a = some s' → R s a s')
    {s : σ} (hIs : I s) (as : List α) : EachMove step R s as := by
  induction as generalizing s with
  | nil => trivial
  | cons a as ih => exact fun s' hs => ⟨hR s a s' hIs hs, ih (hI s a s' hIs hs)⟩

/-- Where a step preserves `P` exactly when it meets `C`, a run keeps `P`
exactly when each of its steps meets `C`. -/
theorem always_iff_eachStep
    (hI : ∀ s a s', I s → step s a = some s' → I s')
    (hP : ∀ s a s', I s → P s → step s a = some s' → (P s' ↔ C s a))
    {s : σ} {as : List α} (hIs : I s) (hPs : P s) :
    Always step P s as ↔ EachStep step C s as := by
  constructor
  · intro h
    induction as generalizing s with
    | nil => trivial
    | cons a as ih =>
      intro s' hs
      have hPs' : P s' := (h.2 s' hs).head
      exact ⟨(hP s a s' hIs hPs hs).mp hPs', ih (hI s a s' hIs hs) hPs' (h.2 s' hs)⟩
  · exact always_of_eachStep hI (fun s a s' hIs hPs hs hc => (hP s a s' hIs hPs hs).mpr hc)
      hIs hPs

/-- The same for a property of states and a relation of moves. -/
theorem always_and_eachMove_of_eachStep
    (hI : ∀ s a s', I s → step s a = some s' → I s')
    (hP : ∀ s a s', I s → P s → step s a = some s' → C s a → P s' ∧ R s a s')
    {s : σ} {as : List α} (hIs : I s) (hPs : P s) (hC : EachStep step C s as) :
    Always step P s as ∧ EachMove step R s as := by
  induction as generalizing s with
  | nil => exact ⟨hPs, trivial⟩
  | cons a as ih =>
    have hrest : ∀ s', step s a = some s' →
        R s a s' ∧ Always step P s' as ∧ EachMove step R s' as := by
      intro s' hs
      obtain ⟨hc, hC'⟩ := hC s' hs
      obtain ⟨hPs', hR⟩ := hP s a s' hIs hPs hs hc
      exact ⟨hR, ih (hI s a s' hIs hs) hPs' hC'⟩
    exact ⟨⟨hPs, fun s' hs => (hrest s' hs).2.1⟩, fun s' hs => ⟨(hrest s' hs).1, (hrest s' hs).2.2⟩⟩

/-- Where a step keeps `P` and is in `R` exactly when it meets `C`, a run does
exactly when each of its steps meets `C`. -/
theorem always_and_eachMove_iff
    (hI : ∀ s a s', I s → step s a = some s' → I s')
    (hP : ∀ s a s', I s → P s → step s a = some s' → (P s' ∧ R s a s' ↔ C s a))
    {s : σ} {as : List α} (hIs : I s) (hPs : P s) :
    Always step P s as ∧ EachMove step R s as ↔ EachStep step C s as := by
  constructor
  · rintro ⟨hA, hM⟩
    induction as generalizing s with
    | nil => trivial
    | cons a as ih =>
      intro s' hs
      have hPs' : P s' := (hA.2 s' hs).head
      obtain ⟨hR, hM'⟩ := hM s' hs
      exact ⟨(hP s a s' hIs hPs hs).mp ⟨hPs', hR⟩, ih (hI s a s' hIs hs) hPs' (hA.2 s' hs) hM'⟩
  · exact always_and_eachMove_of_eachStep hI
      (fun s a s' hIs hPs hs hc => (hP s a s' hIs hPs hs).mpr hc) hIs hPs

/-- A step of a run whose moves are all in `R` is in `R`. -/
theorem EachMove.of_run {s t t' : σ} {as bs : List α} {a : α}
    (h : EachMove step R s (as ++ a :: bs)) (hr : run step s as = some t)
    (ht : step t a = some t') : R t a t' := by
  induction as generalizing s with
  | nil =>
    obtain rfl := Option.some.inj hr
    exact (h t' ht).1
  | cons b as ih =>
    rw [run_cons] at hr
    obtain ⟨s', hs, hr'⟩ := Option.bind_eq_some_iff.mp hr
    exact ih (h s' hs).2 hr'

/-- A property that no step brings back holds along a run if it holds at the
end. -/
theorem always_of_last
    (hI : ∀ s a s', I s → step s a = some s' → I s')
    (hP : ∀ s a s', I s → step s a = some s' → P s' → P s)
    {s t : σ} {as : List α} (hIs : I s) (hr : run step s as = some t) (hPt : P t) :
    Always step P s as := by
  induction as generalizing s with
  | nil =>
    obtain rfl := Option.some.inj hr
    exact hPt
  | cons a as ih =>
    rw [run_cons] at hr
    obtain ⟨s₁, hs, hr'⟩ := Option.bind_eq_some_iff.mp hr
    have hrest := ih (hI s a s₁ hIs hs) hr'
    refine ⟨hP s a s₁ hIs hs hrest.head, fun s' hs' => ?_⟩
    obtain rfl := Option.some.inj (hs.symm.trans hs')
    exact hrest

/-- A property of the states that the prefixes of a run end in holds along it. -/
theorem always_of_prefix {s : σ} {as : List α}
    (h : ∀ bs t, bs <+: as → run step s bs = some t → P t) : Always step P s as := by
  induction as generalizing s with
  | nil => exact h [] s (List.prefix_refl _) rfl
  | cons a as ih =>
    refine ⟨h [] s List.nil_prefix rfl, fun s' hs => ih fun bs t hbs hr => ?_⟩
    refine h (a :: bs) t (List.cons_prefix_cons.mpr ⟨rfl, hbs⟩) ?_
    rw [run_cons, hs, Option.bind_some, hr]

/-- **Forward simulation with stuttering.**  Where a step leads to a state that
the other system's state still stands for, or the other system takes the step
that its label is seen as, a run is matched by some of its labels. -/
theorem exists_run_of_simulation {τ β : Type*} {step' : τ → β → Option τ} {R : σ → τ → Prop}
    {view : α → Option β}
    (hsim : ∀ s a s' t, R s t → step s a = some s' →
      R s' t ∨ ∃ b t', view a = some b ∧ step' t b = some t' ∧ R s' t')
    {s s' : σ} {t : τ} {as : List α} (hR : R s t) (h : run step s as = some s') :
    ∃ bs t', bs.Sublist (as.filterMap view) ∧ run step' t bs = some t' ∧ R s' t' := by
  induction as generalizing s t with
  | nil =>
    obtain rfl := Option.some.inj h
    exact ⟨[], t, List.nil_sublist _, rfl, hR⟩
  | cons a as ih =>
    rw [run_cons] at h
    obtain ⟨s₁, hs, h⟩ := Option.bind_eq_some_iff.mp h
    rcases hsim s a s₁ t hR hs with hR' | ⟨b, t₁, hview, ht, hR'⟩
    · -- the other system stays where it is
      obtain ⟨bs, t', hsub, hrun, hR''⟩ := ih hR' h
      refine ⟨bs, t', hsub.trans ?_, hrun, hR''⟩
      rw [List.filterMap_cons]
      split
      · exact List.Sublist.refl _
      · exact List.sublist_cons_self _ _
    · obtain ⟨bs, t', hsub, hrun, hR''⟩ := ih hR' h
      refine ⟨b :: bs, t', ?_, ?_, hR''⟩
      · rw [List.filterMap_cons_some hview]
        exact hsub.cons_cons b
      · rw [run_cons, ht, Option.bind_some, hrun]

/-- Where every step takes a measure down, a stream of labels comes to one that
is not enabled, within as many steps as the measure says. -/
theorem exists_stuck_of_decreases (V : σ → Nat) {f : Nat → α}
    (hV : ∀ s n s', step s (f n) = some s' → V s' < V s) (s : σ) :
    ∃ n ≤ V s, ∃ t, run step s ((List.range n).map f) = some t ∧ step t (f n) = none := by
  induction hv : V s using Nat.strongRecOn generalizing s f with
  | ind v ih =>
    rcases e : step s (f 0) with - | s'
    · exact ⟨0, Nat.zero_le v, s, rfl, e⟩
    · have hlt : V s' < v := hv ▸ hV s 0 s' e
      obtain ⟨n, hn, t, hrun, ht⟩ :=
        ih (V s') hlt (f := fun n => f (n + 1)) (fun s n => hV s (n + 1)) s' rfl
      refine ⟨n + 1, Nat.lt_of_le_of_lt hn hlt, t, ?_, ht⟩
      rw [List.range_succ_eq_map, List.map_cons, List.map_map, run_cons, e, Option.bind_some]
      exact hrun

end Runs
