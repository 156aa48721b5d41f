/-
Saasmint/Lib/Base64.lean

The encoding base64url without padding (RFC 4648) and the forgiving decoder of
the web platform, which reads the standard alphabet, white space and missing
padding.

Three bytes are four sextets, and what is left at the end of a byte sequence is
two sextets for one byte and three for two, so that the bytes come back
(`bytes_sextets`).  The two alphabets differ in "+" and "/" only: a text in the
one is read by the decoder of the other where these are replaced
(`forgivingDecode_toStandard`).

Bytes, sextets and the code points of a text are natural numbers.
-/
import Mathlib.Data.List.Basic

namespace Base64

/-! ### Sextets -/

/-- The sextets of a byte sequence. -/
def sextets : List Nat → List Nat
  | a :: b :: c :: bytes =>
    a / 4 :: (a % 4 * 16 + b / 16) :: (b % 16 * 4 + c / 64) :: c % 64 :: sextets bytes
  | [a, b] => [a / 4, a % 4 * 16 + b / 16, b % 16 * 4]
  | [a] => [a / 4, a % 4 * 16]
  | [] => []

/-- The bytes of a sextet sequence; bits that fill no byte are dropped. -/
def bytes : List Nat → List Nat
  | a :: b :: c :: d :: rest =>
    (a * 4 + b / 16) :: (b % 16 * 16 + c / 4) :: (c % 4 * 64 + d) :: bytes rest
  | [a, b, c] => [a * 4 + b / 16, b % 16 * 16 + c / 4]
  | [a, b] => [a * 4 + b / 16]
  | _ => []

theorem bytes_sextets (bs : List Nat) (h : ∀ b ∈ bs, b < 256) : bytes (sextets bs) = bs := by
  fun_induction sextets bs with
  | case1 a b c bs ih =>
    have ha := h a (by simp)
    have hb := h b (by simp)
    have hc := h c (by simp)
    rw [bytes, ih fun x hx => h x (by simp [hx])]
    have h₁ : a / 4 * 4 + (a % 4 * 16 + b / 16) / 16 = a := by omega
    have h₂ : (a % 4 * 16 + b / 16) % 16 * 16 + (b % 16 * 4 + c / 64) / 4 = b := by omega
    have h₃ : (b % 16 * 4 + c / 64) % 4 * 64 + c % 64 = c := by omega
    rw [h₁, h₂, h₃]
  | case2 a b =>
    have ha := h a (by simp)
    have hb := h b (by simp)
    have h₁ : a / 4 * 4 + (a % 4 * 16 + b / 16) / 16 = a := by omega
    have h₂ : (a % 4 * 16 + b / 16) % 16 * 16 + b % 16 * 4 / 4 = b := by omega
    rw [bytes, h₁, h₂]
  | case3 a =>
    have ha := h a (by simp)
    have h₁ : a / 4 * 4 + a % 4 * 16 / 16 = a := by omega
    rw [bytes, h₁]
  | case4 => rfl

theorem sextets_lt (bs : List Nat) (h : ∀ b ∈ bs, b < 256) : ∀ n ∈ sextets bs, n < 64 := by
  fun_induction sextets bs with
  | case1 a b c bs ih =>
    have ha := h a (by simp)
    have hb := h b (by simp)
    have hc := h c (by simp)
    intro n hn
    simp only [List.mem_cons] at hn
    rcases hn with rfl | rfl | rfl | rfl | hn
    · omega
    · omega
    · omega
    · omega
    · exact ih (fun x hx => h x (by simp [hx])) n hn
  | case2 a b =>
    have ha := h a (by simp)
    have hb := h b (by simp)
    intro n hn
    simp only [List.mem_cons, List.not_mem_nil, or_false] at hn
    omega
  | case3 a =>
    have ha := h a (by simp)
    intro n hn
    simp only [List.mem_cons, List.not_mem_nil, or_false] at hn
    omega
  | case4 => exact fun n hn => absurd hn List.not_mem_nil

/-- A sextet alone is at no end. -/
theorem length_sextets_mod (bs : List Nat) : (sextets bs).length % 4 ≠ 1 := by
  fun_induction sextets bs with
  | case1 a b c bs ih =>
    simp only [List.length_cons]
    omega
  | case2 a b => simp
  | case3 a => simp
  | case4 => simp

/-! ### Alphabets -/

/-- The code point of a sextet in the alphabet whose last two are `plus` and
`slash`. -/
def code (plus slash n : Nat) : Nat :=
  if n < 26 then 0x41 + n
  else if n < 52 then 0x61 + (n - 26)
  else if n < 62 then 0x30 + (n - 52)
  else if n = 62 then plus
  else slash

/-- base64url without padding. -/
def urlEncode (bs : List Nat) : List Nat := (sextets bs).map (code 0x2D 0x5F)

/-- The sextet of a code point, in the standard alphabet. -/
def sextet (c : Nat) : Option Nat :=
  if 0x41 ≤ c ∧ c ≤ 0x5A then some (c - 0x41)
  else if 0x61 ≤ c ∧ c ≤ 0x7A then some (c - 0x61 + 26)
  else if 0x30 ≤ c ∧ c ≤ 0x39 then some (c - 0x30 + 52)
  else if c = 0x2B then some 62
  else if c = 0x2F then some 63
  else none

def isWhitespace (c : Nat) : Bool := c = 0x09 || c = 0x0A || c = 0x0C || c = 0x0D || c = 0x20

/-- One or two "=" at the end are removed. -/
def withoutPadding (s : List Nat) : List Nat :=
  if [0x3D, 0x3D] <:+ s then s.take (s.length - 2)
  else if [0x3D] <:+ s then s.take (s.length - 1)
  else s

/-- The forgiving decoder: `none` is failure. -/
def forgivingDecode (data : List Nat) : Option (List Nat) :=
  let s := data.filter fun c => !isWhitespace c
  let s := if s.length % 4 = 0 then withoutPadding s else s
  if s.length % 4 = 1 then none else (s.mapM sextet).map bytes

/-- From base64url to the standard alphabet. -/
def toStandard (s : List Nat) : List Nat :=
  s.map fun c => if c = 0x2D then 0x2B else if c = 0x5F then 0x2F else c

theorem sextet_code : ∀ n < 64, sextet (code 0x2B 0x2F n) = some n := by decide

theorem code_url : ∀ n < 64,
    (if code 0x2D 0x5F n = 0x2D then 0x2B else if code 0x2D 0x5F n = 0x5F then 0x2F
      else code 0x2D 0x5F n) = code 0x2B 0x2F n := by decide

theorem code_standard : ∀ n < 64,
    isWhitespace (code 0x2B 0x2F n) = false ∧ code 0x2B 0x2F n ≠ 0x3D := by decide

/-- The characters of base64url are ASCII letters, digits, "-" and "_". -/
theorem code_url_range : ∀ n < 64, code 0x2D 0x5F n = 0x2D ∨ code 0x2D 0x5F n = 0x5F ∨
    0x30 ≤ code 0x2D 0x5F n ∧ code 0x2D 0x5F n ≤ 0x39 ∨
    0x41 ≤ code 0x2D 0x5F n ∧ code 0x2D 0x5F n ≤ 0x5A ∨
    0x61 ≤ code 0x2D 0x5F n ∧ code 0x2D 0x5F n ≤ 0x7A := by decide

theorem urlEncode_range {bs : List Nat} (h : ∀ b ∈ bs, b < 256) {c : Nat} (hc : c ∈ urlEncode bs) :
    c = 0x2D ∨ c = 0x5F ∨ 0x30 ≤ c ∧ c ≤ 0x39 ∨ 0x41 ≤ c ∧ c ≤ 0x5A ∨ 0x61 ≤ c ∧ c ≤ 0x7A := by
  obtain ⟨n, hn, rfl⟩ := List.mem_map.mp hc
  exact code_url_range n (sextets_lt bs h n hn)

theorem withoutPadding_of_not_mem {s : List Nat} (h : 0x3D ∉ s) : withoutPadding s = s := by
  have hone : ¬ [0x3D] <:+ s := fun hs => h (hs.subset (List.mem_singleton_self _))
  have htwo : ¬ [0x3D, 0x3D] <:+ s := fun hs => h (hs.subset List.mem_cons_self)
  rw [withoutPadding, if_neg htwo, if_neg hone]

theorem toStandard_urlEncode {bs : List Nat} (h : ∀ b ∈ bs, b < 256) :
    toStandard (urlEncode bs) = (sextets bs).map (code 0x2B 0x2F) := by
  rw [toStandard, urlEncode, List.map_map]
  apply List.map_congr_left
  intro n hn
  exact code_url n (sextets_lt bs h n hn)

theorem mapM_sextet {l : List Nat} (h : ∀ n ∈ l, n < 64) :
    (l.map (code 0x2B 0x2F)).mapM sextet = some l := by
  induction l with
  | nil => rfl
  | cons n l ih =>
    rw [List.map_cons, List.mapM_cons, sextet_code n (h n List.mem_cons_self),
      ih fun m hm => h m (List.mem_cons_of_mem _ hm)]
    rfl

/-- **The bytes come back**, whatever their number. -/
theorem forgivingDecode_toStandard {bs : List Nat} (h : ∀ b ∈ bs, b < 256) :
    forgivingDecode (toStandard (urlEncode bs)) = some bs := by
  have hlt := sextets_lt bs h
  rw [toStandard_urlEncode h]
  have hspace : ((sextets bs).map (code 0x2B 0x2F)).filter (fun c => !isWhitespace c)
      = (sextets bs).map (code 0x2B 0x2F) := by
    apply List.filter_eq_self.mpr
    intro c hc
    obtain ⟨n, hn, rfl⟩ := List.mem_map.mp hc
    rw [(code_standard n (hlt n hn)).1]
    rfl
  have hpad : 0x3D ∉ (sextets bs).map (code 0x2B 0x2F) := by
    intro hc
    obtain ⟨n, hn, heq⟩ := List.mem_map.mp hc
    exact (code_standard n (hlt n hn)).2 heq
  unfold forgivingDecode
  dsimp only
  rw [hspace, withoutPadding_of_not_mem hpad, ite_self, List.length_map,
    if_neg (length_sextets_mod bs), mapM_sextet hlt, Option.map_some, bytes_sextets bs h]

end Base64
