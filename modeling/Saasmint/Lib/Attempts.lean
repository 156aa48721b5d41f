/-
Saasmint/Lib/Attempts.lean

A program of several steps, each of which may fail: before its effect, or after
it, when the effect is there but the program does not get past the step.  The
program is attempted again from the state that the last attempt has left.

What every attempt keeps, however it ends, holds after any number of them
(`repeated_of_keeps`).
-/
import Saasmint.Lib.Programs

namespace Attempts

open Programs

/-- How a step ends. -/
inductive Outcome
  | done
  /-- Without its effect. -/
  | failed
  /-- With its effect, but the program ends there. -/
  | lost
  deriving DecidableEq, Repr

/-- Why an attempt has ended early. -/
inductive Stop (κ ε : Type)
  | step (k : κ)
  | raised (e : ε)
  deriving DecidableEq, Repr

/-- A program with steps `κ`, exceptions `ε` and states `σ`. -/
abbrev Attempt (κ ε σ α : Type) := EStateM (Stop κ ε) σ α

variable {κ ε σ α : Type}

/-- An attempt in which no step fails. -/
def smooth : κ → Outcome := fun _ => .done

def perform (o : κ → Outcome) (k : κ) (f : σ → σ) : Attempt κ ε σ PUnit := fun s =>
  match o k with
  | .done => .ok ⟨⟩ (f s)
  | .failed => .error (.step k) s
  | .lost => .error (.step k) (f s)

/-- The state after the attempts with these outcomes, one after the other. -/
def repeated (m : (κ → Outcome) → Attempt κ ε σ α) (os : List (κ → Outcome)) (s : σ) : σ :=
  os.foldl (fun s o => final (m o) s) s

variable {o : κ → Outcome} {k : κ} {f : σ → σ} {s : σ} {Q : PUnit → σ → Prop}
  {E : Stop κ ε → σ → Prop}

theorem wp_perform (hdone : o k = .done → Q ⟨⟩ (f s))
    (hfailed : o k = .failed → E (.step k) s) (hlost : o k = .lost → E (.step k) (f s)) :
    wp (perform o k f) Q E s := by
  unfold wp perform
  rcases h : o k with - | - | -
  · exact hdone h
  · exact hfailed h
  · exact hlost h

theorem perform_of_done (h : o k = .done) :
    (perform o k f : Attempt κ ε σ PUnit) = modify f := by
  funext s
  show (match o k with | .done => _ | .failed => _ | .lost => _ : EStateM.Result _ _ _) = _
  rw [h]
  rfl

theorem repeated_of_keeps {m : (κ → Outcome) → Attempt κ ε σ α} {P : σ → Prop}
    (h : ∀ o, Keeps P (m o)) (hs : P s) (os : List (κ → Outcome)) : P (repeated m os s) := by
  induction os generalizing s with
  | nil => exact hs
  | cons o os ih => exact ih ((h o).final hs)

end Attempts
