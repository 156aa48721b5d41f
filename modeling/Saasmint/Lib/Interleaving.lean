/-
Saasmint/Lib/Interleaving.lean

Processes that share a state and take turns.  A process `i` acts by
`act i σ κ a`, from the shared state `σ` and its own local state `κ`; the label
of a step is the process and what it does.

An invariant of such a system has a part `G` about the shared state and, for
each process, an assertion `L` about the shared state and its own local state.
It holds along every run when each action keeps its own assertion and disturbs
no other process's (`inv_step`): two facts about single actions, whatever the
number of processes and the order of their steps.
-/
import Mathlib.Logic.Relation
import Saasmint.Lib.Runs

namespace Interleaving

variable {ι σ κ α : Type*}

/-- The processes of a system of two are `0` and `1`, those of one of three `0` to `2`. -/
instance neZero_two : @NeZero Nat Zero.ofOfNat0 2 := ⟨Nat.succ_ne_zero 1⟩

instance neZero_three : @NeZero Nat Zero.ofOfNat0 3 := ⟨Nat.succ_ne_zero 2⟩

/-- The shared state and the local state of every process. -/
structure State (ι σ κ : Type*) where
  shared : σ
  procs : ι → κ

variable [DecidableEq ι] (act : ι → σ → κ → α → Option (σ × κ))

/-- One process acts. -/
def step (s : State ι σ κ) (l : ι × α) : Option (State ι σ κ) :=
  (act l.1 s.shared (s.procs l.1) l.2).map fun p => ⟨p.1, Function.update s.procs l.1 p.2⟩

/-- The invariant with the shared part `G` and the local assertions `L`. -/
structure Inv (G : σ → Prop) (L : ι → σ → κ → Prop) (s : State ι σ κ) : Prop where
  shared : G s.shared
  procs : ∀ i, L i s.shared (s.procs i)

variable {act} {G : σ → Prop} {L : ι → σ → κ → Prop}

theorem step_eq_some {s s' : State ι σ κ} {i : ι} {a : α} (h : step act s (i, a) = some s') :
    ∃ σ' κ', act i s.shared (s.procs i) a = some (σ', κ') ∧
      s' = ⟨σ', Function.update s.procs i κ'⟩ := by
  obtain ⟨⟨σ', κ'⟩, hact, rfl⟩ := Option.map_eq_some_iff.mp h
  exact ⟨σ', κ', hact, rfl⟩

/-- What a step leaves of its own process, it leaves of every process. -/
theorem apply_update_eq {γ : Type*} {f : κ → γ} {procs : ι → κ} {i : ι} {n : κ}
    (h : f n = f (procs i)) (j : ι) : f (Function.update procs i n j) = f (procs j) := by
  by_cases hji : j = i
  · subst hji
    rw [Function.update_self, h]
  · rw [Function.update_of_ne hji]

/-- What one process does when no other acts is a run of the system. -/
theorem run_alone {i : ι} {a : α} (procs : ι → κ) {x y : σ × κ}
    (h : Relation.ReflTransGen (fun x y : σ × κ => act i x.1 x.2 a = some y) x y)
    (hx : procs i = x.2) :
    ∃ n, Runs.run (step act) ⟨x.1, procs⟩ (List.replicate n (i, a))
      = some ⟨y.1, Function.update procs i y.2⟩ := by
  induction h using Relation.ReflTransGen.head_induction_on generalizing procs with
  | refl => exact ⟨0, by rw [← hx, Function.update_eq_self]; rfl⟩
  | @head x z hstep hrest ih =>
    obtain ⟨n, hn⟩ := ih (Function.update procs i z.2) (Function.update_self ..)
    refine ⟨n + 1, ?_⟩
    have hfirst : step act ⟨x.1, procs⟩ (i, a) = some ⟨z.1, Function.update procs i z.2⟩ := by
      simp [step, hx, hstep]
    rw [List.replicate_succ, Runs.run_cons, hfirst, Option.bind_some, hn, Function.update_idem]

/-- Actions that meet `C`, keep their own assertion and disturb no other keep
the invariant. -/
theorem inv_step_of {C : ι → σ → κ → α → Prop}
    (hown : ∀ i σ κ a σ' κ', G σ → L i σ κ → C i σ κ a → act i σ κ a = some (σ', κ') →
      G σ' ∧ L i σ' κ')
    (hother : ∀ i σ κ a σ' κ', G σ → L i σ κ → C i σ κ a → act i σ κ a = some (σ', κ') →
      ∀ j κⱼ, j ≠ i → L j σ κⱼ → L j σ' κⱼ)
    (s : State ι σ κ) (l : ι × α) (s' : State ι σ κ) (hI : Inv G L s)
    (h : step act s l = some s') (hC : C l.1 s.shared (s.procs l.1) l.2) : Inv G L s' := by
  obtain ⟨σ', κ', hact, rfl⟩ := step_eq_some h
  obtain ⟨hG, hL⟩ := hown _ _ _ _ _ _ hI.shared (hI.procs l.1) hC hact
  refine ⟨hG, fun j => ?_⟩
  by_cases hj : j = l.1
  · subst hj
    simpa using hL
  · have := hother _ _ _ _ _ _ hI.shared (hI.procs l.1) hC hact j _ hj (hI.procs j)
    simpa [hj] using this

/-- Actions that keep their own assertion and disturb no other keep the
invariant. -/
theorem inv_step
    (hown : ∀ i σ κ a σ' κ', G σ → L i σ κ → act i σ κ a = some (σ', κ') → G σ' ∧ L i σ' κ')
    (hother : ∀ i σ κ a σ' κ', G σ → L i σ κ → act i σ κ a = some (σ', κ') →
      ∀ j κⱼ, j ≠ i → L j σ κⱼ → L j σ' κⱼ)
    (s : State ι σ κ) (l : ι × α) (s' : State ι σ κ) (hI : Inv G L s)
    (h : step act s l = some s') : Inv G L s' :=
  inv_step_of (C := fun _ _ _ _ => True) (fun i σ κ a σ' κ' hG hL _ => hown i σ κ a σ' κ' hG hL)
    (fun i σ κ a σ' κ' hG hL _ => hother i σ κ a σ' κ' hG hL) s l s' hI h trivial

/-- The invariant holds along every run whose actions meet `C`. -/
theorem always_inv_of {C : ι → σ → κ → α → Prop}
    (hown : ∀ i σ κ a σ' κ', G σ → L i σ κ → C i σ κ a → act i σ κ a = some (σ', κ') →
      G σ' ∧ L i σ' κ')
    (hother : ∀ i σ κ a σ' κ', G σ → L i σ κ → C i σ κ a → act i σ κ a = some (σ', κ') →
      ∀ j κⱼ, j ≠ i → L j σ κⱼ → L j σ' κⱼ)
    {s : State ι σ κ} (hI : Inv G L s) {ls : List (ι × α)}
    (hC : Runs.EachStep (step act) (fun s l => C l.1 s.shared (s.procs l.1) l.2) s ls) :
    Runs.Always (step act) (Inv G L) s ls :=
  Runs.always_of_eachStep (I := fun _ => True) (fun _ _ _ _ _ => trivial)
    (fun s l s' _ hP h hc => inv_step_of hown hother s l s' hP h hc) trivial hI hC

end Interleaving
