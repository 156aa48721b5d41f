/-
Saasmint/Lib/UrlEncoded.lean

Percent-encoding and the format application/x-www-form-urlencoded of the URL
standard: the lists of names and values that `URLSearchParams` reads from a
query and writes into one.

What is written has no separator in a name or a value, and each of them is read
back as it was (`decodeComponent_encodeComponent`), so that a list of pairs
comes back from its text (`parse_serialize`).
-/
import Saasmint.Lib.Utf8

namespace UrlEncoded

open Utf8

/-! ### Percent-encoding -/

/-- A hexadecimal digit, in upper case. -/
def hexDigit (d : Nat) : Char := Char.ofNat (if d < 10 then 0x30 + d else 0x37 + d)

def percentEncodeByte (b : Nat) : List Char := ['%', hexDigit (b / 16), hexDigit (b % 16)]

/-- Percent-encode a character that is in the set. -/
def utf8PercentEncode (set : Char → Bool) (c : Char) : List Char :=
  if set c then (encodeChar c).flatMap percentEncodeByte else [c]

/-- The value of a hexadecimal digit, given as a byte. -/
def hexValue (b : Nat) : Option Nat :=
  if 0x30 ≤ b ∧ b ≤ 0x39 then some (b - 0x30)
  else if 0x41 ≤ b ∧ b ≤ 0x46 then some (b - 0x37)
  else if 0x61 ≤ b ∧ b ≤ 0x66 then some (b - 0x57)
  else none

/-- Percent-decode a byte sequence.  A "%" without two digits behind it stays. -/
def percentDecode : List Nat → List Nat
  | 0x25 :: a :: b :: bytes =>
    match hexValue a, hexValue b with
    | some x, some y => (16 * x + y) :: percentDecode bytes
    | _, _ => 0x25 :: percentDecode (a :: b :: bytes)
  | b :: bytes => b :: percentDecode bytes
  | [] => []

theorem hexValue_hexDigit : ∀ d < 16, hexValue (hexDigit d).toNat = some d := by decide

theorem hexDigit_ascii : ∀ d < 16, (hexDigit d).toNat < 0x80 := by decide

/-- An encoded byte is read back. -/
theorem percentDecode_encodeByte {b : Nat} (hb : b < 256) (bytes : List Nat) :
    percentDecode (encode (percentEncodeByte b) ++ bytes) = b :: percentDecode bytes := by
  have hhigh : b / 16 < 16 := by omega
  have hlow : b % 16 < 16 := by omega
  have hbytes : encode (percentEncodeByte b)
      = [0x25, (hexDigit (b / 16)).toNat, (hexDigit (b % 16)).toNat] := by
    rw [percentEncodeByte, encode_cons, encode_cons, encode_cons, encode_nil,
      encodeChar_of_ascii (hexDigit_ascii _ hhigh), encodeChar_of_ascii (hexDigit_ascii _ hlow)]
    rfl
  rw [hbytes]
  simp only [List.cons_append, List.nil_append, percentDecode, hexValue_hexDigit _ hhigh,
    hexValue_hexDigit _ hlow, Nat.div_add_mod]

/-- A byte that is no "%" stays. -/
theorem percentDecode_cons_of_ne {b : Nat} (hb : b ≠ 0x25) (bytes : List Nat) :
    percentDecode (b :: bytes) = b :: percentDecode bytes := by
  rw [percentDecode]
  exact fun _ _ _ h _ => hb h

/-! ### Names and values -/

/-- The characters that stay as they are: ASCII letters and digits, "*", "-",
"." and "_". -/
def isUnreserved (c : Char) : Bool :=
  (0x30 ≤ c.toNat && c.toNat ≤ 0x39) || (0x41 ≤ c.toNat && c.toNat ≤ 0x5A)
    || (0x61 ≤ c.toNat && c.toNat ≤ 0x7A) || c = '*' || c = '-' || c = '.' || c = '_'

def encodeFormChar (c : Char) : List Char :=
  if c = ' ' then ['+'] else utf8PercentEncode (fun c => !isUnreserved c) c

def encodeComponent (s : List Char) : List Char := s.flatMap encodeFormChar

/-- "+" is read as a space. -/
def plusToSpace (bytes : List Nat) : List Nat := bytes.map fun b => if b = 0x2B then 0x20 else b

def decodeComponent (bytes : List Nat) : List Char := decode (percentDecode (plusToSpace bytes))

/-- The serializer. -/
def serialize (pairs : List (List Char × List Char)) : List Char :=
  ['&'].intercalate (pairs.map fun p => encodeComponent p.1 ++ '=' :: encodeComponent p.2)

/-- One sequence of the parser: what stands before the first "=", and behind it. -/
def parsePair (bytes : List Nat) : List Char × List Char :=
  (decodeComponent (bytes.takeWhile (· ≠ 0x3D)),
    decodeComponent (bytes.dropWhile (· ≠ 0x3D)).tail)

/-- The parser. -/
def parse (bytes : List Nat) : List (List Char × List Char) :=
  ((bytes.splitOn 0x26).filter (· ≠ [])).map parsePair

/-! ### What is written -/

/-- The characters of an encoded component. -/
def isFormChar (c : Char) : Bool := isUnreserved c || c = '%' || c = '+'

theorem hexDigit_unreserved : ∀ d < 16, isUnreserved (hexDigit d) = true := by decide

theorem isFormChar_percentEncodeByte {b : Nat} (hb : b < 256) :
    ∀ c ∈ percentEncodeByte b, isFormChar c = true := by
  intro c hc
  have hdigit : ∀ d < 16, isFormChar (hexDigit d) = true := fun d hd => by
    rw [isFormChar, hexDigit_unreserved d hd, Bool.true_or, Bool.true_or]
  simp only [percentEncodeByte, List.mem_cons, List.not_mem_nil, or_false] at hc
  rcases hc with rfl | rfl | rfl
  · decide
  · exact hdigit _ (by omega)
  · exact hdigit _ (by omega)

theorem isFormChar_encodeComponent (s : List Char) :
    ∀ c ∈ encodeComponent s, isFormChar c = true := by
  intro c hc
  obtain ⟨d, -, hc⟩ := List.mem_flatMap.mp hc
  unfold encodeFormChar utf8PercentEncode at hc
  split at hc
  next =>
    obtain rfl := List.mem_singleton.mp hc
    decide
  next =>
    split at hc
    next =>
      obtain ⟨b, hb, hc⟩ := List.mem_flatMap.mp hc
      exact isFormChar_percentEncodeByte (encodeChar_lt d b hb) c hc
    next h =>
      obtain rfl := List.mem_singleton.mp hc
      have hc : isUnreserved c = true := by simpa using h
      rw [isFormChar, hc, Bool.true_or, Bool.true_or]

theorem isUnreserved_code {c : Char} (h : isUnreserved c = true) :
    c.toNat = 0x2A ∨ c.toNat = 0x2D ∨ c.toNat = 0x2E ∨ 0x30 ≤ c.toNat ∧ c.toNat ≤ 0x39
      ∨ 0x41 ≤ c.toNat ∧ c.toNat ≤ 0x5A ∨ c.toNat = 0x5F ∨ 0x61 ≤ c.toNat ∧ c.toNat ≤ 0x7A := by
  simp only [isUnreserved, Bool.or_eq_true, Bool.and_eq_true, decide_eq_true_eq] at h
  rcases h with (((((h | h) | h) | rfl) | rfl) | rfl) | rfl
  · omega
  · omega
  · omega
  all_goals decide

/-- An encoded component is made of visible ASCII characters other than "&" and
"=". -/
theorem isFormChar_code {c : Char} (h : isFormChar c = true) :
    c.toNat = 0x25 ∨ c.toNat = 0x2A ∨ c.toNat = 0x2B ∨ c.toNat = 0x2D ∨ c.toNat = 0x2E
      ∨ 0x30 ≤ c.toNat ∧ c.toNat ≤ 0x39 ∨ 0x41 ≤ c.toNat ∧ c.toNat ≤ 0x5A ∨ c.toNat = 0x5F
      ∨ 0x61 ≤ c.toNat ∧ c.toNat ≤ 0x7A := by
  simp only [isFormChar, Bool.or_eq_true, decide_eq_true_eq] at h
  rcases h with (h | rfl) | rfl
  · have hcode := isUnreserved_code h
    omega
  · decide
  · decide

/-- A text of visible ASCII characters has their codes as its bytes. -/
theorem encode_of_ascii {s : List Char} (h : ∀ c ∈ s, c.toNat < 0x80) :
    encode s = s.map Char.toNat := by
  induction s with
  | nil => rfl
  | cons c s ih =>
    rw [encode_cons, encodeChar_of_ascii (h c List.mem_cons_self),
      ih fun d hd => h d (List.mem_cons_of_mem c hd), List.map_cons, List.singleton_append]

theorem encode_encodeComponent (s : List Char) :
    encode (encodeComponent s) = (encodeComponent s).map Char.toNat := by
  refine encode_of_ascii fun c hc => ?_
  have hcode := isFormChar_code (isFormChar_encodeComponent s c hc)
  omega

/-! ### Round trips -/

theorem plusToSpace_append (s t : List Nat) :
    plusToSpace (s ++ t) = plusToSpace s ++ plusToSpace t := List.map_append

theorem plusToSpace_of_ne {bytes : List Nat} (h : 0x2B ∉ bytes) : plusToSpace bytes = bytes := by
  have hmap : ∀ b ∈ bytes, (if b = 0x2B then 0x20 else b) = b := by
    intro b hb
    rw [if_neg]
    rintro rfl
    exact h hb
  exact (List.map_congr_left hmap).trans bytes.map_id

theorem hexDigit_ne_plus : ∀ d < 16, (hexDigit d).toNat ≠ 0x2B := by decide

theorem plusToSpace_encodeByte {b : Nat} (hb : b < 256) :
    plusToSpace (encode (percentEncodeByte b)) = encode (percentEncodeByte b) := by
  refine plusToSpace_of_ne ?_
  rw [encode_of_ascii fun c hc => by
    have hcode := isFormChar_code (isFormChar_percentEncodeByte hb c hc)
    omega]
  simp only [percentEncodeByte, List.map_cons, List.map_nil, List.mem_cons, List.not_mem_nil,
    or_false, not_or]
  exact ⟨by decide, (hexDigit_ne_plus _ (by omega)).symm, (hexDigit_ne_plus _ (by omega)).symm⟩

/-- Percent-encoded bytes are read back. -/
theorem decode_percentEncodeBytes {codes : List Nat} (hcodes : ∀ b ∈ codes, b < 256)
    (bytes : List Nat) :
    percentDecode (plusToSpace (encode (codes.flatMap percentEncodeByte) ++ bytes))
      = codes ++ percentDecode (plusToSpace bytes) := by
  induction codes with
  | nil => rfl
  | cons b codes ih =>
    have hb : b < 256 := hcodes b List.mem_cons_self
    rw [List.flatMap_cons, encode_append, List.append_assoc, plusToSpace_append,
      plusToSpace_encodeByte hb, percentDecode_encodeByte hb,
      ih fun c hc => hcodes c (List.mem_cons_of_mem b hc), List.cons_append]

/-- A character is read back as its bytes. -/
theorem decode_encodeFormChar (c : Char) (bytes : List Nat) :
    percentDecode (plusToSpace (encode (encodeFormChar c) ++ bytes))
      = encodeChar c ++ percentDecode (plusToSpace bytes) := by
  unfold encodeFormChar utf8PercentEncode
  split
  next h =>
    subst h
    rw [plusToSpace_append]
    exact percentDecode_cons_of_ne (by decide) _
  next =>
    split
    next => exact decode_percentEncodeBytes (encodeChar_lt c) bytes
    next h =>
      have hcode := isUnreserved_code (c := c) (by simpa using h)
      have hplus : plusToSpace [c.toNat] = [c.toNat] :=
        plusToSpace_of_ne fun hmem => by
          have := List.mem_singleton.mp hmem
          omega
      rw [encode_cons, encode_nil, List.append_nil, encodeChar_of_ascii (by omega),
        plusToSpace_append, hplus, List.singleton_append, percentDecode_cons_of_ne (by omega),
        List.singleton_append]

/-- A component is read back as it was. -/
theorem decodeComponent_encodeComponent (s : List Char) :
    decodeComponent (encode (encodeComponent s)) = s := by
  have hbytes : percentDecode (plusToSpace (encode (encodeComponent s))) = encode s := by
    induction s with
    | nil => rfl
    | cons c s ih =>
      rw [encodeComponent, List.flatMap_cons, encode_append, decode_encodeFormChar, encode_cons]
      exact congrArg _ ih
  rw [decodeComponent, hbytes, decode_encode]

/-- A pair is read back as it was. -/
theorem parsePair_encode (p : List Char × List Char) :
    parsePair (encode (encodeComponent p.1 ++ '=' :: encodeComponent p.2)) = p := by
  have hname : ∀ b ∈ encode (encodeComponent p.1), (b ≠ 0x3D : Bool) = true := by
    intro b hb
    rw [encode_encodeComponent] at hb
    obtain ⟨c, hc, rfl⟩ := List.mem_map.mp hb
    have hcode := isFormChar_code (isFormChar_encodeComponent p.1 c hc)
    exact decide_eq_true (by omega)
  have hsplit : encode (encodeComponent p.1 ++ '=' :: encodeComponent p.2)
      = encode (encodeComponent p.1) ++ 0x3D :: encode (encodeComponent p.2) := by
    rw [encode_append]
    rfl
  rw [parsePair, hsplit, List.takeWhile_append_of_pos hname, List.dropWhile_append_of_pos hname]
  simp only [List.takeWhile_cons, List.dropWhile_cons, ne_eq, not_true_eq_false, decide_false,
    Bool.false_eq_true, if_false, List.append_nil, List.tail_cons, decodeComponent_encodeComponent]

theorem encode_intercalate (parts : List (List Char)) :
    encode (['&'].intercalate parts) = [0x26].intercalate (parts.map encode) := by
  induction parts with
  | nil => rfl
  | cons part parts ih =>
    cases parts with
    | nil => simp
    | cons next parts =>
      rw [List.intercalate_cons_cons, encode_append, encode_append, ih]
      simp only [List.map_cons, List.intercalate_cons_cons]
      rfl

/-- The bytes of a pair have no separator of pairs. -/
theorem amp_not_mem_encode_pair (p : List Char × List Char) :
    0x26 ∉ encode (encodeComponent p.1 ++ '=' :: encodeComponent p.2) := by
  have hcomponent : ∀ s : List Char, 0x26 ∉ encode (encodeComponent s) := by
    intro s hmem
    rw [encode_encodeComponent] at hmem
    obtain ⟨c, hc, heq⟩ := List.mem_map.mp hmem
    have hcode := isFormChar_code (isFormChar_encodeComponent s c hc)
    omega
  rw [encode_append, encode_cons]
  simp only [List.mem_append, not_or]
  exact ⟨hcomponent p.1, by decide, hcomponent p.2⟩

/-- A list of pairs comes back from its text. -/
theorem parse_serialize (pairs : List (List Char × List Char)) :
    parse (encode (serialize pairs)) = pairs := by
  cases pairs with
  | nil => rfl
  | cons p pairs =>
    -- the bytes of the pairs
    have hparts : ∀ part ∈ ((p :: pairs).map fun p =>
        encodeComponent p.1 ++ '=' :: encodeComponent p.2).map encode, 0x26 ∉ part ∧ part ≠ [] := by
      intro part hpart
      rw [List.map_map] at hpart
      obtain ⟨q, -, rfl⟩ := List.mem_map.mp hpart
      refine ⟨amp_not_mem_encode_pair q, fun hnil => ?_⟩
      rw [Function.comp_apply, encode_append, encode_cons] at hnil
      exact absurd (List.append_eq_nil_iff.mp (List.append_eq_nil_iff.mp hnil).2).1 (by decide)
    unfold parse serialize
    rw [encode_intercalate,
      List.splitOn_intercalate 0x26 (fun part h => (hparts part h).1) (by simp),
      List.filter_eq_self.mpr fun part h => by simpa using (hparts part h).2, List.map_map,
      List.map_map]
    exact (List.map_congr_left fun q _ => parsePair_encode q).trans (p :: pairs).map_id

end UrlEncoded
