/-
Saasmint/Lib/Programs.lean

Programs that read and write a state and may raise (`EStateM`), where the state
that a program has reached when it raises is kept.

`wp m Q E s` says of the run of `m` from `s` that it returns a value and a
state in `Q`, or raises an exception in a state in `E`.  The rules below take it
through sequencing, branches, lookups and loops; `wp_bind` is what a proof
about a service walks along, one call at a time.
-/
import Mathlib.Logic.Basic

namespace Programs

universe v

variable {ε σ α β : Type v}

/-- The weakest precondition of `Q`, with `E` for exceptions. -/
def wp (m : EStateM ε σ α) (Q : α → σ → Prop) (E : ε → σ → Prop) (s : σ) : Prop :=
  match m s with
  | .ok a s' => Q a s'
  | .error e s' => E e s'

/-- The state that a run ends in. -/
def final (m : EStateM ε σ α) (s : σ) : σ :=
  match m s with
  | .ok _ s' => s'
  | .error _ s' => s'

variable {Q : α → σ → Prop} {R : β → σ → Prop} {E : ε → σ → Prop} {s : σ}

@[simp] theorem wp_pure (a : α) : wp (pure a : EStateM ε σ α) Q E s ↔ Q a s := Iff.rfl

@[simp] theorem wp_get {Q : σ → σ → Prop} : wp (get : EStateM ε σ σ) Q E s ↔ Q s s := Iff.rfl

@[simp] theorem wp_modify {Q : PUnit → σ → Prop} (f : σ → σ) :
    wp (modify f : EStateM ε σ PUnit) Q E s ↔ Q ⟨⟩ (f s) := Iff.rfl

@[simp] theorem wp_bind (m : EStateM ε σ α) (f : α → EStateM ε σ β) :
    wp (m >>= f) R E s ↔ wp m (fun a s' => wp (f a) R E s') E s := by
  show wp (EStateM.bind m f) R E s ↔ _
  unfold wp EStateM.bind
  rcases m s with ⟨a, s'⟩ | ⟨e, s'⟩ <;> rfl

@[simp] theorem wp_map (m : EStateM ε σ α) (f : α → β) :
    wp (f <$> m) R E s ↔ wp m (fun a s' => R (f a) s') E s := by
  show wp (EStateM.map f m) R E s ↔ _
  unfold wp EStateM.map
  rcases m s with ⟨a, s'⟩ | ⟨e, s'⟩ <;> rfl

/-- The rule of consequence. -/
theorem wp_mono {m : EStateM ε σ α} {Q' : α → σ → Prop} {E' : ε → σ → Prop}
    (h : wp m Q E s) (hQ : ∀ a s', Q a s' → Q' a s') (hE : ∀ e s', E e s' → E' e s') :
    wp m Q' E' s := by
  unfold wp at h ⊢
  rcases hm : m s with ⟨a, s'⟩ | ⟨e, s'⟩ <;> rw [hm] at h
  · exact hQ a s' h
  · exact hE e s' h

/-- A property of the final state, however the run ends. -/
theorem wp_final_iff {m : EStateM ε σ α} {P : σ → Prop} :
    wp m (fun _ s' => P s') (fun _ s' => P s') s ↔ P (final m s) := by
  unfold wp final
  rcases m s with ⟨a, s'⟩ | ⟨e, s'⟩ <;> rfl

/-- What holds of every result holds of the one that was returned. -/
theorem wp_ok {m : EStateM ε σ α} {a : α} {s' : σ} (h : wp m Q E s) (hm : m s = .ok a s') :
    Q a s' := by
  unfold wp at h
  rw [hm] at h
  exact h

/-! ### Loops -/

section Loops

variable {l : List α}

/-- **The loop rule.**  Each round of a loop over `l` takes the invariant from
the items done before the round to those done after it. -/
theorem wp_forM {f : α → EStateM ε σ PUnit} {I : List α → σ → Prop}
    (hstep : ∀ done a rest s, l = done ++ a :: rest → I done s →
      wp (f a) (fun _ s' => I (done ++ [a]) s') E s)
    (hs : I [] s) : wp (l.forM f) (fun _ s' => I l s') E s := by
  suffices hmain : ∀ rest done s, l = done ++ rest → I done s →
      wp (rest.forM f) (fun _ s' => I l s') E s from hmain l [] s rfl hs
  intro rest
  induction rest with
  | nil =>
    intro done s hl hI
    rw [List.append_nil] at hl
    rw [hl]
    exact hI
  | cons a rest ih =>
    intro done s hl hI
    show wp (f a >>= fun _ => rest.forM f) _ E s
    rw [wp_bind]
    apply wp_mono (hstep done a rest s hl hI)
    · exact fun _ s' hI' => ih (done ++ [a]) s' (by simp [hl]) hI'
    · exact fun _ _ h => h

/-- The loop rule for a loop that builds a result. -/
theorem wp_foldlM {f : β → α → EStateM ε σ β} {I : List α → β → σ → Prop}
    (hstep : ∀ done a rest b s, l = done ++ a :: rest → I done b s →
      wp (f b a) (fun b' s' => I (done ++ [a]) b' s') E s)
    {b : β} (hs : I [] b s) : wp (l.foldlM f b) (fun b' s' => I l b' s') E s := by
  suffices hmain : ∀ rest done b s, l = done ++ rest → I done b s →
      wp (rest.foldlM f b) (fun b' s' => I l b' s') E s from hmain l [] b s rfl hs
  intro rest
  induction rest with
  | nil =>
    intro done b s hl hI
    rw [List.append_nil] at hl
    rw [hl]
    exact hI
  | cons a rest ih =>
    intro done b s hl hI
    rw [List.foldlM_cons, wp_bind]
    apply wp_mono (hstep done a rest b s hl hI)
    · exact fun b' s' hI' => ih (done ++ [a]) b' s' (by simp [hl]) hI'
    · exact fun _ _ h => h

end Loops

/-! ### Runs of a sequence -/

section Sequence

variable {m : EStateM ε σ α} {f : α → EStateM ε σ β}

/-- A sequence that returns has gone through both parts. -/
theorem bind_eq_ok {b : β} {s₂ : σ} (h : (m >>= f) s = .ok b s₂) :
    ∃ a s₁, m s = .ok a s₁ ∧ f a s₁ = .ok b s₂ := by
  have h : EStateM.bind m f s = .ok b s₂ := h
  unfold EStateM.bind at h
  rcases hm : m s with ⟨a, s₁⟩ | ⟨e, s₁⟩ <;> rw [hm] at h
  · exact ⟨a, s₁, rfl, h⟩
  · cases h

theorem bind_of_ok {a : α} {s₁ : σ} (hm : m s = .ok a s₁) : (m >>= f) s = f a s₁ := by
  show EStateM.bind m f s = _
  unfold EStateM.bind
  rw [hm]

theorem bind_of_error {e : ε} {s₁ : σ} (hm : m s = .error e s₁) : (m >>= f) s = .error e s₁ := by
  show EStateM.bind m f s = _
  unfold EStateM.bind
  rw [hm]

end Sequence

/-! ### Loops as chains of rounds -/

/-- A chain of rounds: each item of the list takes one state to the next. -/
inductive Through {α σ : Type*} (R : α → σ → σ → Prop) : List α → σ → σ → Prop
  | nil (s : σ) : Through R [] s s
  | cons {a : α} {l : List α} {s s' s'' : σ} (h : R a s s') (hrest : Through R l s' s'') :
      Through R (a :: l) s s''

namespace Through

variable {α β σ : Type*} {R : α → σ → σ → Prop} {l l' : List α} {s s' s'' : σ}

theorem append (h : Through R l s s') (h' : Through R l' s' s'') : Through R (l ++ l') s s'' := by
  induction h with
  | nil s => exact h'
  | cons hround hrest ih => exact .cons hround (ih h')

/-- A loop in a loop. -/
theorem flatMap {f : β → List α} {bs : List β}
    (h : Through (fun b s s' => Through R (f b) s s') bs s s') : Through R (bs.flatMap f) s s' := by
  induction h with
  | nil s => exact .nil s
  | cons hround hrest ih =>
    rw [List.flatMap_cons]
    exact hround.append ih

/-- **The rule of rounds.**  An invariant of the items that are still to come
says what each round does. -/
theorem rounds {S : β → σ → σ → Prop} {g : α → β} {I : List α → σ → Prop}
    (hstep : ∀ a rest s s', I (a :: rest) s → R a s s' → S (g a) s s' ∧ I rest s')
    (h : Through R l s s') (hs : I l s) : Through S (l.map g) s s' ∧ I [] s' := by
  induction h with
  | nil s => exact ⟨.nil s, hs⟩
  | cons hround hrest ih =>
    obtain ⟨hS, hI⟩ := hstep _ _ _ _ hs hround
    obtain ⟨hchain, hend⟩ := ih hI
    exact ⟨.cons hS hchain, hend⟩

/-- An invariant of the items that are done. -/
theorem invariant {I : List α → σ → Prop} (h : Through R l s s')
    (hstep : ∀ done a rest s s', l = done ++ a :: rest → I done s → R a s s' → I (done ++ [a]) s')
    (hs : I [] s) : I l s' := by
  suffices hmain : ∀ done, I done s → (∀ d a rest t t', done ++ l = d ++ a :: rest → I d t →
      R a t t' → I (d ++ [a]) t') → I (done ++ l) s' from hmain [] hs hstep
  clear hstep hs
  induction h with
  | nil s =>
    intro done hI _
    rwa [List.append_nil]
  | @cons a l _ _ _ hround hrest ih =>
    intro done hI hstep
    have hI' := hstep done a l _ _ rfl hI hround
    have hl : done ++ a :: l = (done ++ [a]) ++ l := by simp
    rw [hl] at hstep ⊢
    exact ih (done ++ [a]) hI' hstep

end Through

/-- A loop that returns is a chain of rounds that return. -/
theorem forM_eq_ok {f : α → EStateM ε σ PUnit} {l : List α} {s s' : σ}
    (h : l.forM f s = .ok ⟨⟩ s') : Through (fun a s s' => f a s = .ok ⟨⟩ s') l s s' := by
  induction l generalizing s with
  | nil =>
    cases h
    exact .nil _
  | cons a l ih =>
    obtain ⟨_, s₁, hround, hrest⟩ := bind_eq_ok (show (f a >>= fun _ => l.forM f) s = _ from h)
    exact .cons hround (ih hrest)

/-! ### Programs that keep a property -/

/-- Whatever `m` does, `P` holds after it if it held before. -/
def Keeps (P : σ → Prop) (m : EStateM ε σ α) : Prop :=
  ∀ s, P s → wp m (fun _ s' => P s') (fun _ s' => P s') s

variable {P : σ → Prop}

theorem Keeps.pure (a : α) : Keeps P (Pure.pure a : EStateM ε σ α) := fun _ h => h

theorem Keeps.throw (e : ε) : Keeps P (MonadExcept.throw e : EStateM ε σ α) := fun _ h => h

theorem Keeps.bind {m : EStateM ε σ α} {f : α → EStateM ε σ β} (hm : Keeps P m)
    (hf : ∀ a, Keeps P (f a)) : Keeps P (m >>= f) := by
  intro s hs
  rw [wp_bind]
  exact wp_mono (hm s hs) (fun a s' h => hf a s' h) fun _ _ h => h

theorem Keeps.ite {c : Prop} [Decidable c] {m n : EStateM ε σ α} (hm : Keeps P m) (hn : Keeps P n) :
    Keeps P (if c then m else n) := by
  split
  · exact hm
  · exact hn

/-- A loop keeps what each round keeps. -/
theorem Keeps.forM {f : α → EStateM ε σ PUnit} {l : List α} (hf : ∀ a ∈ l, Keeps P (f a)) :
    Keeps P (l.forM f) := by
  intro s hs
  apply wp_forM (I := fun _ s' => P s')
  · intro done a rest s hl hs
    apply hf a
    · rw [hl]
      simp
    · exact hs
  · exact hs

theorem Keeps.foldlM {f : β → α → EStateM ε σ β} {l : List α} (hf : ∀ b, ∀ a ∈ l, Keeps P (f b a))
    (b : β) : Keeps P (l.foldlM f b) := by
  intro s hs
  apply wp_foldlM (I := fun _ _ s' => P s')
  · intro done a rest b s hl hs
    apply hf b a
    · rw [hl]
      simp
    · exact hs
  · exact hs

theorem Keeps.final {m : EStateM ε σ α} (hm : Keeps P m) {s : σ} (hs : P s) :
    P (Programs.final m s) :=
  wp_final_iff.mp (hm s hs)

end Programs
