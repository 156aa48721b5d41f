/-
Saasmint/Lib/Utf8.lean

UTF-8 as the encoding standard of the web has it.  The encoder writes a
character in one to four bytes; the decoder reads a byte at a time and replaces
what is no character by U+FFFD, so that it never fails.  A text comes back from
its bytes (`decode_encode`).

Bytes are natural numbers.
-/
import Mathlib.Data.List.Basic

namespace Utf8

/-- The bytes of a character. -/
def encodeChar (c : Char) : List Nat :=
  if c.toNat < 0x80 then [c.toNat]
  else if c.toNat < 0x800 then [0xC0 + c.toNat / 64, 0x80 + c.toNat % 64]
  else if c.toNat < 0x10000 then
    [0xE0 + c.toNat / 4096, 0x80 + c.toNat / 64 % 64, 0x80 + c.toNat % 64]
  else
    [0xF0 + c.toNat / 262144, 0x80 + c.toNat / 4096 % 64, 0x80 + c.toNat / 64 % 64,
      0x80 + c.toNat % 64]

def encode (s : List Char) : List Nat := s.flatMap encodeChar

/-- The decoder between two bytes: how many bytes of the character are missing,
its code point so far, and the bounds of the next byte. -/
structure State where
  needed : Nat
  code : Nat
  lower : Nat
  upper : Nat

/-- Between two characters. -/
def State.start : State := ⟨0, 0, 0x80, 0xBF⟩

/-- The first byte of a character: what is emitted, and the state after it. -/
def first (b : Nat) : List Char × State :=
  if b < 0x80 then ([Char.ofNat b], .start)
  else if 0xC2 ≤ b ∧ b ≤ 0xDF then ([], ⟨1, b - 0xC0, 0x80, 0xBF⟩)
  else if 0xE0 ≤ b ∧ b ≤ 0xEF then
    ([], ⟨2, b - 0xE0, if b = 0xE0 then 0xA0 else 0x80, if b = 0xED then 0x9F else 0xBF⟩)
  else if 0xF0 ≤ b ∧ b ≤ 0xF4 then
    ([], ⟨3, b - 0xF0, if b = 0xF0 then 0x90 else 0x80, if b = 0xF4 then 0x8F else 0xBF⟩)
  else (['\uFFFD'], .start)

/-- One byte.  A byte out of its bounds ends the character and is read again as
a first byte. -/
def step (s : State) (b : Nat) : List Char × State :=
  if s.needed = 0 then first b
  else if s.lower ≤ b ∧ b ≤ s.upper then
    if s.needed = 1 then ([Char.ofNat (s.code * 64 + (b - 0x80))], .start)
    else ([], ⟨s.needed - 1, s.code * 64 + (b - 0x80), 0x80, 0xBF⟩)
  else ('\uFFFD' :: (first b).1, (first b).2)

def decodeFrom : State → List Nat → List Char
  | s, [] => if s.needed = 0 then [] else ['\uFFFD']
  | s, b :: bytes => (step s b).1 ++ decodeFrom (step s b).2 bytes

/-- Decode without looking for a byte order mark. -/
def decode (bytes : List Nat) : List Char := decodeFrom .start bytes

theorem decodeFrom_cons (s : State) (b : Nat) (bytes : List Nat) :
    decodeFrom s (b :: bytes) = (step s b).1 ++ decodeFrom (step s b).2 bytes := rfl

@[simp] theorem encode_nil : encode [] = [] := rfl

@[simp] theorem encode_cons (c : Char) (s : List Char) :
    encode (c :: s) = encodeChar c ++ encode s :=
  rfl

theorem encode_append (s t : List Char) : encode (s ++ t) = encode s ++ encode t :=
  List.flatMap_append

theorem encodeChar_of_ascii {c : Char} (h : c.toNat < 0x80) : encodeChar c = [c.toNat] := if_pos h

/-- The code points that a character can have. -/
theorem code_range (c : Char) : c.toNat < 0xD800 ∨ 0xDFFF < c.toNat ∧ c.toNat < 0x110000 :=
  c.valid

theorem encodeChar_lt (c : Char) : ∀ b ∈ encodeChar c, b < 256 := by
  have hc := code_range c
  intro b hb
  unfold encodeChar at hb
  split at hb
  · simp only [List.mem_singleton] at hb
    omega
  · split at hb
    · simp only [List.mem_cons, List.not_mem_nil, or_false] at hb
      omega
    · split at hb
      · simp only [List.mem_cons, List.not_mem_nil, or_false] at hb
        omega
      · simp only [List.mem_cons, List.not_mem_nil, or_false] at hb
        omega

/-! ### Decoding -/

theorem step_start (b : Nat) : step .start b = first b := if_pos rfl

/-- A byte within the bounds, not the last one of its character. -/
theorem step_next {s : State} {b : Nat} (hneeded : 1 < s.needed) (hb : s.lower ≤ b ∧ b ≤ s.upper) :
    step s b = ([], ⟨s.needed - 1, s.code * 64 + (b - 0x80), 0x80, 0xBF⟩) := by
  rw [step, if_neg (by omega), if_pos hb, if_neg (by omega)]

/-- The last byte of a character. -/
theorem step_last {s : State} {b : Nat} (hneeded : s.needed = 1) (hb : s.lower ≤ b ∧ b ≤ s.upper) :
    step s b = ([Char.ofNat (s.code * 64 + (b - 0x80))], .start) := by
  rw [step, if_neg (by omega), if_pos hb, if_pos hneeded]

theorem decode_two {b₁ b₂ n : Nat} (h₁ : 0xC2 ≤ b₁ ∧ b₁ ≤ 0xDF) (h₂ : 0x80 ≤ b₂ ∧ b₂ ≤ 0xBF)
    (hn : (b₁ - 0xC0) * 64 + (b₂ - 0x80) = n) (rest : List Nat) :
    decodeFrom .start (b₁ :: b₂ :: rest) = Char.ofNat n :: decodeFrom .start rest := by
  have hfirst : first b₁ = ([], ⟨1, b₁ - 0xC0, 0x80, 0xBF⟩) := by
    rw [first, if_neg (by omega), if_pos h₁]
  rw [decodeFrom_cons, step_start, hfirst, decodeFrom_cons, step_last rfl h₂]
  exact congrArg (fun m => Char.ofNat m :: decodeFrom .start rest) hn

theorem decode_three {b₁ b₂ b₃ n : Nat} (h₁ : 0xE0 ≤ b₁ ∧ b₁ ≤ 0xEF)
    (h₂ : (if b₁ = 0xE0 then 0xA0 else 0x80) ≤ b₂ ∧ b₂ ≤ if b₁ = 0xED then 0x9F else 0xBF)
    (h₃ : 0x80 ≤ b₃ ∧ b₃ ≤ 0xBF)
    (hn : ((b₁ - 0xE0) * 64 + (b₂ - 0x80)) * 64 + (b₃ - 0x80) = n) (rest : List Nat) :
    decodeFrom .start (b₁ :: b₂ :: b₃ :: rest) = Char.ofNat n :: decodeFrom .start rest := by
  have hfirst : first b₁ = ([], ⟨2, b₁ - 0xE0, if b₁ = 0xE0 then 0xA0 else 0x80,
      if b₁ = 0xED then 0x9F else 0xBF⟩) := by
    rw [first, if_neg (by omega), if_neg (by omega), if_pos h₁]
  rw [decodeFrom_cons, step_start, hfirst, decodeFrom_cons, step_next (show 1 < 2 by decide) h₂,
    decodeFrom_cons, step_last rfl h₃]
  exact congrArg (fun m => Char.ofNat m :: decodeFrom .start rest) hn

theorem decode_four {b₁ b₂ b₃ b₄ n : Nat} (h₁ : 0xF0 ≤ b₁ ∧ b₁ ≤ 0xF4)
    (h₂ : (if b₁ = 0xF0 then 0x90 else 0x80) ≤ b₂ ∧ b₂ ≤ if b₁ = 0xF4 then 0x8F else 0xBF)
    (h₃ : 0x80 ≤ b₃ ∧ b₃ ≤ 0xBF) (h₄ : 0x80 ≤ b₄ ∧ b₄ ≤ 0xBF)
    (hn : (((b₁ - 0xF0) * 64 + (b₂ - 0x80)) * 64 + (b₃ - 0x80)) * 64 + (b₄ - 0x80) = n)
    (rest : List Nat) :
    decodeFrom .start (b₁ :: b₂ :: b₃ :: b₄ :: rest) = Char.ofNat n :: decodeFrom .start rest := by
  have hfirst : first b₁ = ([], ⟨3, b₁ - 0xF0, if b₁ = 0xF0 then 0x90 else 0x80,
      if b₁ = 0xF4 then 0x8F else 0xBF⟩) := by
    rw [first, if_neg (by omega), if_neg (by omega), if_neg (by omega), if_pos h₁]
  rw [decodeFrom_cons, step_start, hfirst, decodeFrom_cons, step_next (show 1 < 3 by decide) h₂,
    decodeFrom_cons, step_next (show 1 < 2 by decide) h₃, decodeFrom_cons, step_last rfl h₄]
  exact congrArg (fun m => Char.ofNat m :: decodeFrom .start rest) hn

/-- The cases are the lengths of the encoding. -/
theorem decodeFrom_encodeChar (c : Char) (rest : List Nat) :
    decodeFrom .start (encodeChar c ++ rest) = c :: decodeFrom .start rest := by
  have hrange := code_range c
  have hc : Char.ofNat c.toNat = c := Char.ofNat_toNat c
  unfold encodeChar
  split
  next h =>
    rw [List.singleton_append, decodeFrom_cons, step_start, first, if_pos h, hc]
    rfl
  next h₁ =>
    split
    next h₂ =>
      rw [List.cons_append, List.singleton_append, decode_two (n := c.toNat) ?_ ?_ ?_, hc]
      all_goals omega
    next h₂ =>
      split
      next h₃ =>
        rw [List.cons_append, List.cons_append, List.singleton_append,
          decode_three (n := c.toNat) ?_ ?_ ?_ ?_, hc]
        · omega
        · split <;> split <;> omega
        · omega
        · omega
      next h₃ =>
        rw [List.cons_append, List.cons_append, List.cons_append, List.singleton_append,
          decode_four (n := c.toNat) ?_ ?_ ?_ ?_ ?_, hc]
        · omega
        · split <;> split <;> omega
        · omega
        · omega
        · omega

/-- A text comes back from its bytes. -/
theorem decode_encode (s : List Char) : decode (encode s) = s := by
  unfold decode
  induction s with
  | nil => rfl
  | cons c s ih => rw [encode_cons, decodeFrom_encodeChar, ih]

end Utf8
