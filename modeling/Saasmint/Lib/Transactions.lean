/-
Saasmint/Lib/Transactions.lean

Programs over a database connection: statements, any of which may fail, atomic
blocks, and hooks that are to run on commit.

A block that raises leaves neither its writes nor its hooks behind; the hooks
of a block that is not nested run when it ends.  `wp_execute`, `wp_query`,
`wp_onCommit` and `wp_atomic` are the rules.
-/
import Saasmint.Lib.Programs

namespace Transactions

open Programs

/-- A connection.  `fails` says which of its statements fail. -/
structure Connection (σ η : Type) where
  data : σ
  inBlock : Bool
  /-- Hooks that wait for the commit. -/
  hooks : List η
  /-- Hooks that have run. -/
  ran : List η
  statements : Nat
  fails : Nat → Bool

variable {σ η ε α : Type}

/-- A connection outside of any block. -/
def Connection.start (data : σ) (fails : Nat → Bool) : Connection σ η :=
  ⟨data, false, [], [], 0, fails⟩

inductive Failure (ε : Type)
  | database
  | raised (e : ε)
  deriving DecidableEq, Repr

abbrev Program (σ η ε : Type) := EStateM (Failure ε) (Connection σ η)

/-- The program raises an exception of its own. -/
def raise (e : ε) : Program σ η ε α := throw (.raised e)

def query (f : σ → α) : Program σ η ε α := fun c =>
  if c.fails c.statements then .error .database { c with statements := c.statements + 1 }
  else .ok (f c.data) { c with statements := c.statements + 1 }

def execute (f : σ → σ) : Program σ η ε PUnit := fun c =>
  if c.fails c.statements then .error .database { c with statements := c.statements + 1 }
  else .ok ⟨⟩ { c with data := f c.data, statements := c.statements + 1 }

/-- Outside of a block hooks run at once. -/
def Connection.register (c : Connection σ η) (hs : List η) : Connection σ η :=
  if c.inBlock then { c with hooks := c.hooks ++ hs } else { c with ran := c.ran ++ hs }

def onCommit (h : η) : Program σ η ε PUnit := modify fun c => c.register [h]

/-- The connection at the end of a block that `c` has entered. -/
def Connection.leave (c c' : Connection σ η) : Connection σ η :=
  if c.inBlock then c'
  else { c' with inBlock := false, hooks := [], ran := c'.ran ++ c'.hooks }

def atomic (m : Program σ η ε α) : Program σ η ε α := fun c =>
  match m { c with inBlock := true } with
  | .ok a c' => .ok a (c.leave c')
  | .error e c' => .error e { c with statements := c'.statements }

variable {c : Connection σ η}

@[simp] theorem Connection.register_nil : c.register [] = c := by
  unfold Connection.register
  rw [List.append_nil, List.append_nil]
  exact ite_self c

@[simp] theorem Connection.register_data {hs : List η} : (c.register hs).data = c.data := by
  unfold Connection.register
  split <;> rfl

/-- A block that only writes. -/
theorem Connection.leave_write {data : σ} {n : Nat} (hhooks : c.inBlock = false → c.hooks = []) :
    c.leave { c with inBlock := true, data, statements := n }
      = { c with data, statements := n } := by
  unfold Connection.leave
  rcases hb : c.inBlock with - | -
  · simp [hhooks hb]
  · rfl

/-- A block that registers hooks as well: they run when it ends. -/
theorem Connection.leave_register {data : σ} {n : Nat} {hs : List η} (hblock : c.inBlock = false)
    (hhooks : c.hooks = []) :
    c.leave (register { c with inBlock := true, data, statements := n } hs)
      = register { c with data, statements := n } hs := by
  unfold Connection.leave Connection.register
  simp only [hblock, hhooks, if_true, Bool.false_eq_true, if_false, List.nil_append]

section Rules

variable {Q : α → Connection σ η → Prop} {R : PUnit → Connection σ η → Prop}
  {E : Failure ε → Connection σ η → Prop}

theorem wp_query {f : σ → α}
    (hfail : ∀ n, c.fails c.statements = true → E .database { c with statements := n })
    (hok : ∀ n, Q (f c.data) { c with statements := n }) : wp (query f) Q E c := by
  unfold wp query
  rcases h : c.fails c.statements with - | -
  · exact hok _
  · exact hfail _ h

theorem wp_execute {f : σ → σ}
    (hfail : ∀ n, c.fails c.statements = true → E .database { c with statements := n })
    (hok : ∀ n, R ⟨⟩ { c with data := f c.data, statements := n }) : wp (execute f) R E c := by
  unfold wp execute
  rcases h : c.fails c.statements with - | -
  · exact hok _
  · exact hfail _ h

@[simp] theorem wp_onCommit {h : η} : wp (onCommit h) R E c ↔ R ⟨⟩ (c.register [h]) := Iff.rfl

theorem wp_atomic {m : Program σ η ε α}
    (h : wp m (fun a c' => Q a (c.leave c'))
      (fun e c' => E e { c with statements := c'.statements })
      { c with inBlock := true }) : wp (atomic m) Q E c := by
  unfold wp atomic at *
  rcases hm : m { c with inBlock := true } with ⟨a, c'⟩ | ⟨e, c'⟩ <;> rw [hm] at h <;> exact h

end Rules

end Transactions
