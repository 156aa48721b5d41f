/-
Saasmint/Lib/PyStr.lean

The string methods of Python that programs of this kind are written with:
`str.lower`, `str.upper`, `str.isalpha`, `str.strip` and `re.split` on a
character class.  On ASCII they are computed here.  What they do beyond ASCII
is read from the Unicode character database, which is a parameter
(`UnicodeTables`): a result proved for every table holds for Python's.
-/
import Mathlib.Data.List.Basic
import Mathlib.Data.List.DropRight
import Mathlib.Tactic.Ring

namespace PyStr

-- With the whole of Mathlib in scope a statement about the characters of a list is else
-- decided by going through every character there is.
instance (priority := 1100) decidableForallMem (p : Char → Prop) [DecidablePred p]
    (w : List Char) : Decidable (∀ c ∈ w, p c) :=
  List.decidableBAll p w

/-- The part of the Unicode character database that the string methods
consult for a character outside ASCII, and `repr` of a string, which escapes
what the database says is not printable. -/
structure UnicodeTables where
  lower : Char → List Char
  upper : Char → List Char
  isAlpha : Char → Bool
  isSpace : Char → Bool
  repr : String → String

/-- Tables that leave every character outside ASCII as it is. -/
def asciiTables : UnicodeTables where
  lower c := [c]
  upper c := [c]
  isAlpha _ := false
  isSpace _ := false
  repr s := "'" ++ s ++ "'"

/-- `c` is an ASCII character. -/
def isAscii (c : Char) : Bool := c.toNat < 128

/-- The whitespace characters that `str.strip` removes from ASCII text. -/
def isAsciiSpace (c : Char) : Bool :=
  c.toNat = 32 || (9 ≤ c.toNat && c.toNat ≤ 13) || (28 ≤ c.toNat && c.toNat ≤ 31)

variable (u : UnicodeTables)

/-- `str.lower`, one character at a time.  The one rule of Python that looks around,
for a capital sigma at the end of a word, is left out. -/
def lower (s : String) : String :=
  String.ofList (s.toList.flatMap fun c => if isAscii c then [c.toLower] else u.lower c)

/-- `str.upper`. -/
def upper (s : String) : String :=
  String.ofList (s.toList.flatMap fun c => if isAscii c then [c.toUpper] else u.upper c)

/-- `str.isalpha`: not empty, and letters only. -/
def isAlpha (s : String) : Bool :=
  !s.toList.isEmpty && s.toList.all fun c => if isAscii c then c.isAlpha else u.isAlpha c

def isSpace (c : Char) : Bool := if isAscii c then isAsciiSpace c else u.isSpace c

/-- `str.strip` without an argument. -/
def strip (s : String) : String :=
  String.ofList (((s.toList.dropWhile (isSpace u)).reverse.dropWhile (isSpace u)).reverse)

/-- Cut a list of characters at every character of a class. -/
def splitChars (p : Char → Bool) : List Char → List (List Char)
  | [] => [[]]
  | c :: cs =>
    if p c then [] :: splitChars p cs
    else match splitChars p cs with
      | w :: ws => (c :: w) :: ws
      | [] => [[c]]

/-- `re.split` on a character class, and `str.split` on one character. -/
def split (p : Char → Bool) (s : String) : List String :=
  (splitChars p s.toList).map String.ofList

/-- `str.lower` on text that is ASCII, as the codes in a catalog are. -/
def asciiLower (s : String) : String := String.ofList (s.toList.map Char.toLower)

/-- The truth value of a `str | None`: neither missing nor empty. -/
def truthy (s : Option String) : Bool := s.any (· ≠ "")

@[simp] theorem truthy_none : truthy none = false := rfl

theorem truthy_some (s : String) : truthy (some s) = decide (s ≠ "") := rfl

/-- `a or b` on optional strings. -/
def orElse (a b : Option String) : Option String := if truthy a then a else b

/-- `uuid.UUID(text)` as a number: 32 hexadecimal digits, where the URN prefix,
the braces and the hyphens are optional; `none` is the `ValueError`.  Spellings that
`str` never writes are read more strictly than in Python (which takes the prefix
anywhere, and underscores, a sign or `0x` among the 32 characters), but for braces
between the digits. -/
def uuidOfText (s : String) : Option Nat :=
  let body := (s.toList.dropPrefix? "urn:uuid:".toList).getD s.toList
  let digits := body.filter fun c => !(c = '\x7b' || c = '\x7d' || c = '-')
  let value (c : Char) : Option Nat :=
    if c.isDigit then some (c.toNat - 48)
    else if 'a' ≤ c.toLower && c.toLower ≤ 'f' then some (c.toLower.toNat - 87)
    else none
  if digits.length = 32 then
    digits.foldl (fun acc c => acc.bind fun n => (value c).map fun d => 16 * n + d) (some 0)
  else none

/-- The digits of a number to the base 16, with leading zeros. -/
def hexDigits : Nat → Nat → List Char
  | 0, _ => []
  | k + 1, n => hexDigits k (n / 16) ++ [hexDigit (n % 16)]
where
  hexDigit (d : Nat) : Char := if d < 10 then Char.ofNat (48 + d) else Char.ofNat (87 + d)

/-- `str(uuid)`: 32 lower-case hexadecimal digits in groups of 8, 4, 4, 4 and 12. -/
def uuidText (n : Nat) : String :=
  let digits := hexDigits 32 n
  String.ofList (digits.take 8 ++ '-' :: (digits.drop 8).take 4 ++ '-' :: (digits.drop 12).take 4
    ++ '-' :: (digits.drop 16).take 4 ++ '-' :: digits.drop 20)

/-- Text without a separator is one part. -/
theorem splitChars_of_forall {p : Char → Bool} {cs : List Char} (h : ∀ c ∈ cs, p c = false) :
    splitChars p cs = [cs] := by
  induction cs with
  | nil => rfl
  | cons c cs ih =>
    rw [splitChars, h c (List.mem_cons_self ..), ih fun x hx => h x (List.mem_cons_of_mem _ hx)]
    rfl

/-- The first part ends at the first separator. -/
theorem splitChars_append_cons {p : Char → Bool} {w : List Char} {c : Char} (cs : List Char)
    (h : ∀ c ∈ w, p c = false) (hc : p c = true) :
    splitChars p (w ++ c :: cs) = w :: splitChars p cs := by
  induction w with
  | nil =>
    show splitChars p (c :: cs) = _
    rw [splitChars, if_pos hc]
  | cons x w ih =>
    show splitChars p (x :: (w ++ c :: cs)) = _
    rw [splitChars, h x (List.mem_cons_self ..), ih fun y hy => h y (List.mem_cons_of_mem _ hy)]
    rfl

/-- Only the whitespace after text that ends in something else is stripped. -/
theorem strip_append_spaces {a b : Char} {cs spaces : List Char}
    (hfirst : cs.head? = some a) (ha : isSpace u a = false)
    (hlast : cs.getLast? = some b) (hb : isSpace u b = false)
    (hspaces : ∀ c ∈ spaces, isSpace u c = true) :
    strip u (String.ofList (cs ++ spaces)) = String.ofList cs := by
  obtain ⟨t, rfl⟩ := List.head?_eq_some_iff.mp hfirst
  obtain ⟨r, hr⟩ := List.getLast?_eq_some_iff.mp hlast
  have hleft : (a :: t ++ spaces).dropWhile (isSpace u) = a :: t ++ spaces := by
    simp [ha]
  have hright : ((a :: t ++ spaces).reverse).dropWhile (isSpace u) = (a :: t).reverse := by
    rw [List.reverse_append, List.dropWhile_append_of_pos fun c hc =>
      hspaces c (List.mem_reverse.mp hc), hr, List.reverse_append]
    simp [hb]
  unfold strip
  rw [String.toList_ofList, hleft, hright, List.reverse_reverse]

/-- The case of an ASCII character that has none stays. -/
theorem mem_lower {s : String} {c : Char} (hascii : isAscii c = true) (h : c ∈ s.toList) :
    c.toLower ∈ (lower u s).toList := by
  unfold lower
  rw [String.toList_ofList]
  exact List.mem_flatMap.mpr ⟨c, h, by simp [hascii]⟩

theorem length_lower {s : String} (h : ∀ c ∈ s.toList, isAscii c = true) :
    (lower u s).length = s.length := by
  have hone : ∀ cs : List Char, (∀ c ∈ cs, isAscii c = true) →
      (cs.flatMap fun c => if isAscii c then [c.toLower] else u.lower c).length = cs.length := by
    intro cs
    induction cs with
    | nil => exact fun _ => rfl
    | cons c cs ih =>
      intro hcs
      have hc := hcs c (List.mem_cons_self ..)
      simp [List.flatMap_cons, hc, ih fun x hx => hcs x (List.mem_cons_of_mem _ hx)]
  unfold lower
  rw [String.length_ofList, hone _ h, String.length_toList]

/-! ### Texts of UUIDs -/

theorem length_hexDigits (k n : Nat) : (hexDigits k n).length = k := by
  induction k generalizing n with
  | zero => rfl
  | succ k ih =>
    show (hexDigits k (n / 16) ++ [_]).length = k + 1
    rw [List.length_append, ih]
    rfl

theorem exists_of_mem_hexDigits {k n : Nat} {c : Char} (h : c ∈ hexDigits k n) :
    ∃ d < 16, c = hexDigits.hexDigit d := by
  induction k generalizing n with
  | zero => cases h
  | succ k ih =>
    rcases List.mem_append.mp h with h | h
    · exact ih h
    · exact ⟨n % 16, Nat.mod_lt _ (by decide), List.mem_singleton.mp h⟩

/-- Reading the digits one by one gives the number back. -/
theorem foldl_hexDigits {value : Char → Option Nat}
    (hvalue : ∀ d < 16, value (hexDigits.hexDigit d) = some d) (k n acc : Nat) :
    (hexDigits k n).foldl (fun acc c => acc.bind fun n => (value c).map fun d => 16 * n + d)
      (some acc) = some (16 ^ k * acc + n % 16 ^ k) := by
  induction k generalizing n with
  | zero =>
    show some acc = some (16 ^ 0 * acc + n % 16 ^ 0)
    rw [pow_zero, Nat.mod_one, one_mul, add_zero]
  | succ k ih =>
    show (hexDigits k (n / 16) ++ [_]).foldl _ _ = _
    rw [List.foldl_append, ih]
    have hlast : value (hexDigits.hexDigit (n % 16)) = some (n % 16) :=
      hvalue _ (Nat.mod_lt _ (by decide))
    show ((value (hexDigits.hexDigit (n % 16))).map _) = _
    rw [hlast, pow_succ', Nat.mod_mul]
    show some _ = some _
    congr 1
    ring

/-- **The text of a UUID reads back as the UUID.** -/
theorem uuidOfText_uuidText {n : Nat} (h : n < 2 ^ 128) : uuidOfText (uuidText n) = some n := by
  have hdigits : ∀ d < 16, hexDigits.hexDigit d ≠ 'u' ∧ hexDigits.hexDigit d ≠ '\x7b' ∧
      hexDigits.hexDigit d ≠ '\x7d' ∧ hexDigits.hexDigit d ≠ '-' := by decide
  have hvalue : ∀ d < 16, (fun c : Char => if c.isDigit then some (c.toNat - 48)
      else if 'a' ≤ c.toLower && c.toLower ≤ 'f' then some (c.toLower.toNat - 87)
      else none) (hexDigits.hexDigit d) = some d := by decide
  set digits := hexDigits 32 n with hn
  have hdigit : ∀ c ∈ digits, c ≠ 'u' ∧ c ≠ '\x7b' ∧ c ≠ '\x7d' ∧ c ≠ '-' := by
    intro c hc
    obtain ⟨d, hd, rfl⟩ := exists_of_mem_hexDigits hc
    exact hdigits d hd
  have htext : (uuidText n).toList = digits.take 8 ++ '-' :: (digits.drop 8).take 4
      ++ '-' :: (digits.drop 12).take 4 ++ '-' :: (digits.drop 16).take 4
      ++ '-' :: digits.drop 20 :=
    String.toList_ofList
  have hkeep : ∀ l : List Char, l.Sublist digits →
      l.filter (fun c => !(c = '\x7b' || c = '\x7d' || c = '-')) = l := by
    intro l hl
    apply List.filter_eq_self.mpr
    intro c hc
    obtain ⟨-, h₁, h₂, h₃⟩ := hdigit c (hl.subset hc)
    simp [h₁, h₂, h₃]
  have hsub : ∀ i j, ((digits.drop i).take j).Sublist digits := fun i j =>
    (List.take_sublist _ _).trans (List.drop_sublist _ _)
  -- no digit is a `u`, so the text does not begin with the URN prefix
  have hurn : (uuidText n).toList.dropPrefix? "urn:uuid:".toList = none := by
    apply Option.eq_none_iff_forall_ne_some.mpr
    intro rest hrest
    obtain ⟨pre, hpre, heq⟩ := List.dropPrefix?_eq_some_iff.mp hrest
    have hu : 'u' ∈ (uuidText n).toList := by
      rw [hpre, eq_of_beq heq]
      simp
    have hno : 'u' ∉ digits := fun hmem => (hdigit 'u' hmem).1 rfl
    rw [htext] at hu
    simp only [List.mem_append, List.mem_cons] at hu
    rcases hu with (((hu | hu | hu) | hu | hu) | hu | hu) | hu | hu
    · exact hno ((List.take_sublist _ _).subset hu)
    · cases hu
    · exact hno ((hsub _ _).subset hu)
    · cases hu
    · exact hno ((hsub _ _).subset hu)
    · cases hu
    · exact hno ((hsub _ _).subset hu)
    · cases hu
    · exact hno ((List.drop_sublist _ _).subset hu)
  have hbody : (uuidText n).toList.filter (fun c => !(c = '\x7b' || c = '\x7d' || c = '-'))
      = digits := by
    have hjoin : digits.take 8 ++ ((digits.drop 8).take 4 ++ ((digits.drop 12).take 4
        ++ ((digits.drop 16).take 4 ++ digits.drop 20))) = digits := by
      have hstep : ∀ i j, (digits.drop i).take j ++ digits.drop (i + j) = digits.drop i := by
        intro i j
        rw [← List.drop_drop, List.take_append_drop]
      rw [hstep 16 4, hstep 12 4, hstep 8 4, List.take_append_drop]
    rw [htext]
    simp only [List.filter_append, List.filter_cons, hkeep _ (List.take_sublist 8 digits),
      hkeep _ (hsub _ _), hkeep _ (List.drop_sublist 20 digits)]
    simpa using hjoin
  unfold uuidOfText
  rw [hurn]
  dsimp only [Option.getD_none]
  rw [hbody, if_pos (length_hexDigits 32 n), foldl_hexDigits hvalue, Nat.mul_zero, Nat.zero_add,
    Nat.mod_eq_of_lt]
  exact h

section

variable {u}

/-- Text without whitespace at its ends. -/
def Trimmed (u : UnicodeTables) (s : String) : Prop :=
  (∀ c, s.toList.head? = some c → isSpace u c = false) ∧
    ∀ c, s.toList.getLast? = some c → isSpace u c = false

theorem toList_strip (s : String) :
    (strip u s).toList = (s.toList.dropWhile (isSpace u)).rdropWhile (isSpace u) := by
  unfold strip
  rw [String.toList_ofList]
  rfl

/-- What `str.strip` keeps, with what it takes off. -/
theorem exists_strip (s : String) :
    ∃ pre post, s.toList = pre ++ ((strip u s).toList ++ post) := by
  obtain ⟨pre, hpre⟩ := List.dropWhile_suffix (isSpace u) (l := s.toList)
  obtain ⟨post, hpost⟩ := List.rdropWhile_prefix (isSpace u) (s.toList.dropWhile (isSpace u))
  exact ⟨pre, post, by rw [toList_strip, hpost, hpre]⟩

theorem trimmed_strip (s : String) : Trimmed u (strip u s) := by
  unfold Trimmed
  rw [toList_strip]
  set cs := s.toList.dropWhile (isSpace u) with hcs
  constructor
  · intro c hc
    obtain ⟨post, hpost⟩ := List.rdropWhile_prefix (isSpace u) cs
    obtain ⟨rest, hrest⟩ := List.head?_eq_some_iff.mp hc
    have hhead : cs.head? = some c := by
      rw [← hpost, hrest]
      rfl
    have hnot := List.head?_dropWhile_not (isSpace u) s.toList
    rw [← hcs, hhead] at hnot
    exact hnot
  · intro c hc
    have hne : cs.rdropWhile (isSpace u) ≠ [] := fun h => by rw [h] at hc; cases hc
    have hlast := List.rdropWhile_last_not (isSpace u) cs hne
    rw [List.getLast?_eq_some_getLast hne] at hc
    rw [Option.some.inj hc] at hlast
    exact Bool.eq_false_iff.mpr hlast

theorem strip_of_trimmed {s : String} (h : Trimmed u s) : strip u s = s := by
  apply String.toList_injective
  rw [toList_strip]
  have hfront : s.toList.dropWhile (isSpace u) = s.toList := by
    rcases e : s.toList with - | ⟨c, cs⟩
    · rfl
    · rw [List.dropWhile_cons_of_neg]
      rw [h.1 c (by rw [e]; rfl)]
      exact Bool.false_ne_true
  rw [hfront, List.rdropWhile_eq_self_iff]
  intro hne
  rw [h.2 _ (List.getLast?_eq_some_getLast hne)]
  exact Bool.false_ne_true

theorem strip_strip (s : String) : strip u (strip u s) = strip u s :=
  strip_of_trimmed (trimmed_strip s)

theorem mem_of_mem_strip {s : String} {c : Char} (h : c ∈ (strip u s).toList) : c ∈ s.toList := by
  obtain ⟨pre, post, hs⟩ := exists_strip (u := u) s
  rw [hs]
  exact List.mem_append_right pre (List.mem_append_left post h)

/-- ASCII text without whitespace has nothing to take off. -/
theorem strip_of_ascii {s : String}
    (h : ∀ c ∈ s.toList, isAscii c = true ∧ isAsciiSpace c = false) : strip u s = s := by
  have hspace : ∀ c ∈ s.toList, isSpace u c = false := by
    intro c hc
    unfold isSpace
    rw [if_pos (h c hc).1]
    exact (h c hc).2
  apply strip_of_trimmed
  exact ⟨fun c hc => hspace c (List.mem_of_head? hc), fun c hc =>
    hspace c (List.mem_of_getLast? hc)⟩

end

end PyStr
