/-
Saasmint/Lib/JsonText.lean

JSON texts from one language to the other: `json.dumps` of Python with the
separators "," and ":", and `JSON.parse` of JavaScript.

`dumps` writes ASCII, whatever the strings hold: a character outside of it
becomes its UTF-16 code units, each as "\u" and four digits.  A string and a
number are read back here (`string_quoted`, `numeral_intText`), any value in
Lib/JsonRoundTrip.lean.

Numbers are read by their numerals, and an object keeps the last entry of a key.
The parser takes fuel, which the length of the text bounds.
-/
import Saasmint.Lib.JsValue
import Saasmint.Lib.PyStr

/-- A value that `json.dumps` is given. -/
inductive PyJson where
  | null
  | bool (b : Bool)
  | int (n : Int)
  | str (s : List Char)
  | list (items : List PyJson)
  | dict (entries : List (List Char × PyJson))

/-- Induction over a value, with the items of a list and the values of a
dictionary as lists. -/
theorem PyJson.tree_induction {P : PyJson → Prop} (null : P .null) (bool : ∀ b, P (.bool b))
    (int : ∀ n, P (.int n)) (str : ∀ s, P (.str s))
    (list : ∀ items, (∀ v ∈ items, P v) → P (.list items))
    (dict : ∀ entries, (∀ e ∈ entries, P e.2) → P (.dict entries)) (v : PyJson) : P v :=
  @PyJson.rec P (fun items => ∀ v ∈ items, P v) (fun entries => ∀ e ∈ entries, P e.2)
    (fun e => P e.2) null bool int str list dict
    (fun _ h => absurd h List.not_mem_nil)
    (fun _ _ hv hitems => List.forall_mem_cons.mpr ⟨hv, hitems⟩)
    (fun _ h => absurd h List.not_mem_nil)
    (fun _ _ he hentries => List.forall_mem_cons.mpr ⟨he, hentries⟩)
    (fun _ _ hv => hv) v

namespace JsonText

open JsStr JsValue

/-! ### Writing -/

/-- What a character of a string is written as. -/
def escapeChar (c : Char) : List Char :=
  if c = '"' then ['\\', '"']
  else if c = '\\' then ['\\', '\\']
  else if c = '\n' then ['\\', 'n']
  else if c = '\r' then ['\\', 'r']
  else if c = '\t' then ['\\', 't']
  else if c = '\x0c' then ['\\', 'f']
  else if c = '\x08' then ['\\', 'b']
  else if 0x20 ≤ c.toNat ∧ c.toNat ≤ 0x7E then [c]
  else (units c).flatMap fun u => '\\' :: 'u' :: PyStr.hexDigits 4 u.toNat

def quoted (s : List Char) : List Char := '"' :: s.flatMap escapeChar ++ ['"']

def intText : Int → List Char
  | .ofNat n => Nat.toDigits 10 n
  | .negSucc n => '-' :: Nat.toDigits 10 (n + 1)

mutual

/-- `json.dumps(v, separators=(",", ":"))`. -/
def dumps : PyJson → List Char
  | .null => ['n', 'u', 'l', 'l']
  | .bool true => ['t', 'r', 'u', 'e']
  | .bool false => ['f', 'a', 'l', 's', 'e']
  | .int n => intText n
  | .str s => quoted s
  | .list [] => ['[', ']']
  | .list (v :: items) => '[' :: dumps v ++ moreItems items ++ [']']
  | .dict [] => ['\x7b', '\x7d']
  | .dict ((k, v) :: entries) =>
    '\x7b' :: quoted k ++ ':' :: dumps v ++ moreEntries entries ++ ['\x7d']

/-- The items behind the first one. -/
def moreItems : List PyJson → List Char
  | [] => []
  | v :: items => ',' :: dumps v ++ moreItems items

def moreEntries : List (List Char × PyJson) → List Char
  | [] => []
  | (k, v) :: entries => ',' :: quoted k ++ ':' :: dumps v ++ moreEntries entries

end

/-! ### Reading -/

def isWhitespace (u : UInt16) : Bool := u = 0x20 || u = 0x09 || u = 0x0A || u = 0x0D

def skip (s : JsStr) : JsStr := s.dropWhile isWhitespace

def hexValue (u : UInt16) : Option Nat :=
  if 0x30 ≤ u.toNat ∧ u.toNat ≤ 0x39 then some (u.toNat - 0x30)
  else if 0x41 ≤ u.toNat ∧ u.toNat ≤ 0x46 then some (u.toNat - 0x37)
  else if 0x61 ≤ u.toNat ∧ u.toNat ≤ 0x66 then some (u.toNat - 0x57)
  else none

/-- The code unit behind "\u". -/
def hexUnit (a b c d : UInt16) : Option UInt16 :=
  [a, b, c, d].foldl (fun acc u => acc.bind fun n => (hexValue u).map fun d => 16 * n + d) (some 0)
    |>.map UInt16.ofNat

/-- The code unit that a character behind a backslash stands for. -/
def simpleEscape (u : UInt16) : Option UInt16 :=
  if u = 0x22 ∨ u = 0x5C ∨ u = 0x2F then some u
  else if u = 0x62 then some 0x08
  else if u = 0x66 then some 0x0C
  else if u = 0x6E then some 0x0A
  else if u = 0x72 then some 0x0D
  else if u = 0x74 then some 0x09
  else none

/-- A string behind its opening quotation mark: its code units, and what follows
the closing one. -/
def string : JsStr → Option (JsStr × JsStr)
  | [] => none
  | u :: s =>
    if u = 0x22 then some ([], s)
    else if u = 0x5C then
      match s with
      | [] => none
      | e :: s =>
        if e = 0x75 then
          match s with
          | a :: b :: c :: d :: s =>
            (hexUnit a b c d).bind fun x => (string s).map fun y => (x :: y.1, y.2)
          | _ => none
        else (simpleEscape e).bind fun x => (string s).map fun y => (x :: y.1, y.2)
    else if u.toNat < 0x20 then none
    else (string s).map fun y => (u :: y.1, y.2)

def isDigit (u : UInt16) : Bool := 0x30 ≤ u.toNat && u.toNat ≤ 0x39

/-- One digit or more. -/
def digits (s : JsStr) : Option (JsStr × JsStr) :=
  if s.takeWhile isDigit = [] then none else some (s.takeWhile isDigit, s.dropWhile isDigit)

/-- No zero stands before another digit. -/
def intPart : JsStr → Option (JsStr × JsStr)
  | [] => none
  | u :: s => if u = 0x30 then some ([u], s) else digits (u :: s)

def fracPart : JsStr → Option (JsStr × JsStr)
  | [] => some ([], [])
  | u :: s => if u = 0x2E then (digits s).map fun x => (u :: x.1, x.2) else some ([], u :: s)

def expPart : JsStr → Option (JsStr × JsStr)
  | [] => some ([], [])
  | u :: s =>
    if u = 0x65 ∨ u = 0x45 then
      match s with
      | [] => none
      | v :: r =>
        if v = 0x2B ∨ v = 0x2D then (digits r).map fun x => (u :: v :: x.1, x.2)
        else (digits s).map fun x => (u :: x.1, x.2)
    else some ([], u :: s)

def unsigned (s : JsStr) : Option (JsStr × JsStr) :=
  (intPart s).bind fun i => (fracPart i.2).bind fun f => (expPart f.2).map fun e =>
    (i.1 ++ f.1 ++ e.1, e.2)

/-- A numeral, and what follows it. -/
def numeral : JsStr → Option (JsStr × JsStr)
  | [] => none
  | u :: s => if u = 0x2D then (unsigned s).map fun x => (u :: x.1, x.2) else unsigned (u :: s)

/-- The rest of a literal name. -/
def literal (name : List Char) (s : JsStr) : Option JsStr := s.dropPrefix? (utf16 name)

/-- A key, and the ":" behind it. -/
def memberKey (s : JsStr) : Option (JsStr × JsStr) :=
  match skip s with
  | [] => none
  | u :: s =>
    if u = 0x22 then
      (string s).bind fun x =>
        match skip x.2 with
        | [] => none
        | u :: s => if u = 0x3A then some (x.1, s) else none
    else none

variable {ν : Type} (toNumber : JsStr → ν)

/-- The object of the members, the last one of each key. -/
def objectOf (members : List (JsStr × JsValue ν)) : JsValue ν :=
  .object .ordinary (members.foldl (fun entries e => setEntry e.1 e.2 entries) [])

mutual

def value : Nat → JsStr → Option (JsValue ν × JsStr)
  | 0, _ => none
  | n + 1, s =>
    match skip s with
    | [] => none
    | u :: s =>
      if u = 0x22 then (string s).map fun x => (.string x.1, x.2)
      else if u = 0x5B then
        match skip s with
        | [] => none
        | v :: r =>
          if v = 0x5D then some (.array [], r)
          else (elements n s).map fun x => (.array x.1, x.2)
      else if u = 0x7B then
        match skip s with
        | [] => none
        | v :: r =>
          if v = 0x7D then some (objectOf [], r)
          else (members n s).map fun x => (objectOf x.1, x.2)
      else if u = 0x6E then (literal ['u', 'l', 'l'] s).map fun r => (.null, r)
      else if u = 0x74 then (literal ['r', 'u', 'e'] s).map fun r => (.bool true, r)
      else if u = 0x66 then (literal ['a', 'l', 's', 'e'] s).map fun r => (.bool false, r)
      else (numeral (u :: s)).map fun x => (.number (toNumber x.1), x.2)

/-- The items of an array up to its end. -/
def elements : Nat → JsStr → Option (List (JsValue ν) × JsStr)
  | 0, _ => none
  | n + 1, s =>
    (value n s).bind fun x =>
      match skip x.2 with
      | [] => none
      | u :: s =>
        if u = 0x2C then (elements n s).map fun y => (x.1 :: y.1, y.2)
        else if u = 0x5D then some ([x.1], s)
        else none

/-- The members of an object up to its end. -/
def members : Nat → JsStr → Option (List (JsStr × JsValue ν) × JsStr)
  | 0, _ => none
  | n + 1, s =>
    (memberKey s).bind fun k =>
      (value n k.2).bind fun x =>
        match skip x.2 with
        | [] => none
        | u :: s =>
          if u = 0x2C then (members n s).map fun y => ((k.1, x.1) :: y.1, y.2)
          else if u = 0x7D then some ([(k.1, x.1)], s)
          else none

end

/-- `JSON.parse`: `none` where it throws. -/
def parse (s : JsStr) : Option (JsValue ν) :=
  (value toNumber (2 * s.length + 1) s).bind fun x => if skip x.2 = [] then some x.1 else none

/-! ### The value that JavaScript has -/

mutual

def toJs : PyJson → JsValue ν
  | .null => .null
  | .bool b => .bool b
  | .int n => .number (toNumber (utf16 (intText n)))
  | .str s => .string (utf16 s)
  | .list items => .array (toJsItems items)
  | .dict entries => objectOf (toJsEntries entries)

def toJsItems : List PyJson → List (JsValue ν)
  | [] => []
  | v :: items => toJs v :: toJsItems items

def toJsEntries : List (List Char × PyJson) → List (JsStr × JsValue ν)
  | [] => []
  | (k, v) :: entries => (utf16 k, toJs v) :: toJsEntries entries

end

/-! ### Strings -/

theorem units_of_lt {c : Char} (h : c.toNat < 0x10000) : units c = [UInt16.ofNat c.toNat] :=
  if_pos h

theorem string_end (s : JsStr) : string (0x22 :: s) = some ([], s) := by
  rw [string.eq_def]
  rfl

theorem string_plain {u : UInt16} (hquote : u ≠ 0x22) (hslash : u ≠ 0x5C)
    (hcontrol : ¬ u.toNat < 0x20) (s : JsStr) :
    string (u :: s) = (string s).map fun y => (u :: y.1, y.2) := by
  rw [string.eq_def]
  show (if u = 0x22 then _ else if u = 0x5C then _ else if u.toNat < 0x20 then _ else _) = _
  rw [if_neg hquote, if_neg hslash, if_neg hcontrol]

theorem string_simple {e x : UInt16} (he : e ≠ 0x75) (hx : simpleEscape e = some x) (s : JsStr) :
    string (0x5C :: e :: s) = (string s).map fun y => (x :: y.1, y.2) := by
  rw [string.eq_def]
  show (if e = 0x75 then _ else (simpleEscape e).bind _) = _
  rw [if_neg he, hx]
  rfl

theorem string_hex {a b c d x : UInt16} (hx : hexUnit a b c d = some x) (s : JsStr) :
    string (0x5C :: 0x75 :: a :: b :: c :: d :: s) = (string s).map fun y => (x :: y.1, y.2) := by
  rw [string.eq_def]
  show (hexUnit a b c d).bind _ = _
  rw [hx]
  rfl

/-- The code unit of a character that has one. -/
def unit (c : Char) : UInt16 := UInt16.ofNat c.toNat

theorem utf16_eq_map {s : List Char} (h : ∀ c ∈ s, c.toNat < 0x10000) : utf16 s = s.map unit := by
  induction s with
  | nil => rfl
  | cons c s ih =>
    rw [utf16_cons, units_of_lt (h c List.mem_cons_self),
      ih fun d hd => h d (List.mem_cons_of_mem c hd)]
    rfl

theorem hexDigit_unit : ∀ d < 16,
    hexValue (unit (PyStr.hexDigits.hexDigit d)) = some d ∧
      (PyStr.hexDigits.hexDigit d).toNat < 0x10000 := by decide

/-- The digits of a code unit are read as it. -/
theorem string_unit (u : UInt16) (s : JsStr) :
    string (0x5C :: 0x75 :: (utf16 (PyStr.hexDigits 4 u.toNat) ++ s))
      = (string s).map fun y => (u :: y.1, y.2) := by
  have hascii : ∀ c ∈ PyStr.hexDigits 4 u.toNat, c.toNat < 0x10000 := by
    intro c hc
    obtain ⟨d, hd, rfl⟩ := PyStr.exists_of_mem_hexDigits hc
    exact (hexDigit_unit d hd).2
  have hvalue : ∀ d < 16, (hexValue ∘ unit) (PyStr.hexDigits.hexDigit d) = some d := fun d hd =>
    (hexDigit_unit d hd).1
  have hfold := PyStr.foldl_hexDigits hvalue 4 u.toNat 0
  have hlt := u.toNat_lt
  have hu : 16 ^ 4 * 0 + u.toNat % 16 ^ 4 = u.toNat := by omega
  rw [hu] at hfold
  rw [utf16_eq_map hascii]
  -- the four digits, one by one
  have hlen := PyStr.length_hexDigits 4 u.toNat
  generalize PyStr.hexDigits 4 u.toNat = ds at hfold hlen
  obtain ⟨a, b, c, d, rfl⟩ : ∃ a b c d, ds = [a, b, c, d] := List.length_eq_four.mp hlen
  refine string_hex ?_ s
  show Option.map UInt16.ofNat _ = _
  have hfold' : [unit a, unit b, unit c, unit d].foldl
      (fun acc u => acc.bind fun n => (hexValue u).map fun d => 16 * n + d) (some 0)
        = some u.toNat :=
    hfold
  rw [hfold', Option.map_some, UInt16.ofNat_toNat]

theorem string_escapes (us s : JsStr) :
    string (us.flatMap (fun u => 0x5C :: 0x75 :: utf16 (PyStr.hexDigits 4 u.toNat)) ++ s)
      = (string s).map fun y => (us ++ y.1, y.2) := by
  induction us with
  | nil =>
    show string s = (string s).map fun y => (y.1, y.2)
    exact Option.map_id'.symm
  | cons u us ih =>
    rw [List.flatMap_cons, List.append_assoc, List.cons_append, List.cons_append, string_unit, ih,
      Option.map_map]
    rfl

theorem utf16_flatMap {α : Type*} (f : α → List Char) (l : List α) :
    utf16 (l.flatMap f) = l.flatMap fun a => utf16 (f a) :=
  List.flatMap_assoc

/-- A character is read as its code units. -/
theorem string_escapeChar (c : Char) (s : JsStr) :
    string (utf16 (escapeChar c) ++ s) = (string s).map fun y => (units c ++ y.1, y.2) := by
  unfold escapeChar
  split_ifs with hquote hslash hn hr ht hf hb hplain
  · subst hquote
    exact string_simple (by decide) rfl s
  · subst hslash
    exact string_simple (by decide) rfl s
  · subst hn
    exact string_simple (by decide) rfl s
  · subst hr
    exact string_simple (by decide) rfl s
  · subst ht
    exact string_simple (by decide) rfl s
  · subst hf
    exact string_simple (by decide) rfl s
  · subst hb
    exact string_simple (by decide) rfl s
  · -- a visible ASCII character stands for itself
    have hunits := units_of_lt (show c.toNat < 0x10000 by omega)
    have hnat : (UInt16.ofNat c.toNat).toNat = c.toNat := by
      rw [UInt16.toNat_ofNat']
      omega
    have hinj : ∀ d : Char, d.toNat < 0x80 →
        UInt16.ofNat c.toNat = UInt16.ofNat d.toNat → c = d := by
      intro d hd heq
      have hcd := congrArg UInt16.toNat heq
      rw [UInt16.toNat_ofNat', UInt16.toNat_ofNat'] at hcd
      rw [← Char.ofNat_toNat c, ← Char.ofNat_toNat d]
      congr 1
      omega
    rw [utf16_cons, utf16_nil, List.append_nil, hunits]
    refine string_plain (fun heq => hquote (hinj '"' (by decide) heq))
      (fun heq => hslash (hinj '\\' (by decide) heq)) ?_ s
    rw [hnat]
    omega
  · rw [utf16_flatMap]
    exact string_escapes (units c) s

theorem string_quoted (w : List Char) (s : JsStr) :
    string (utf16 (w.flatMap escapeChar) ++ 0x22 :: s) = some (utf16 w, s) := by
  induction w with
  | nil => exact string_end s
  | cons c w ih =>
    rw [List.flatMap_cons, utf16_append, List.append_assoc, string_escapeChar, ih]
    rfl

/-! ### Numerals -/

/-- What follows ends a numeral. -/
def EndsNumeral (s : JsStr) : Prop :=
  ∀ u ∈ s.head?, isDigit u = false ∧ u ≠ 0x2E ∧ u ≠ 0x65 ∧ u ≠ 0x45

theorem endsNumeral_nil : EndsNumeral [] := fun _ h => by cases h

theorem endsNumeral_cons {u : UInt16} (hdigit : isDigit u = false)
    (hne : u ≠ 0x2E ∧ u ≠ 0x65 ∧ u ≠ 0x45) (s : JsStr) : EndsNumeral (u :: s) := by
  intro v hv
  obtain rfl := Option.some.inj hv
  exact ⟨hdigit, hne⟩

theorem digits_append {ds s : JsStr} (hds : ∀ u ∈ ds, isDigit u = true) (hne : ds ≠ [])
    (hs : EndsNumeral s) : digits (ds ++ s) = some (ds, s) := by
  have htake : s.takeWhile isDigit = [] ∧ s.dropWhile isDigit = s := by
    cases s with
    | nil => exact ⟨rfl, rfl⟩
    | cons u s =>
      have hu := (hs u rfl).1
      rw [List.takeWhile_cons, List.dropWhile_cons, hu]
      exact ⟨rfl, rfl⟩
  rw [digits, List.takeWhile_append_of_pos hds, List.dropWhile_append_of_pos hds, htake.1, htake.2,
    List.append_nil, if_neg hne]

theorem unsigned_append {ds s : JsStr} (hint : intPart (ds ++ s) = some (ds, s))
    (hs : EndsNumeral s) : unsigned (ds ++ s) = some (ds, s) := by
  have hfrac : fracPart s = some ([], s) := by
    cases s with
    | nil => rfl
    | cons u s => exact if_neg (hs u rfl).2.1
  have hexp : expPart s = some ([], s) := by
    cases s with
    | nil => rfl
    | cons u s => exact if_neg (not_or.mpr (hs u rfl).2.2)
  rw [unsigned, hint]
  show (fracPart s).bind _ = _
  rw [hfrac]
  show (expPart s).map _ = _
  rw [hexp]
  show some (ds ++ [] ++ [], s) = _
  rw [List.append_nil, List.append_nil]

theorem isDigit_unit {c : Char} (h : c.isDigit = true) :
    c.toNat < 0x10000 ∧ isDigit (unit c) = true ∧ (unit c = 0x30 → c = '0') := by
  have hc : 48 ≤ c.toNat ∧ c.toNat ≤ 57 := by
    simpa [Char.isDigit, UInt32.le_iff_toNat_le] using h
  have hnat : (unit c).toNat = c.toNat := by
    rw [unit, UInt16.toNat_ofNat']
    omega
  refine ⟨by omega, ?_, ?_⟩
  · rw [isDigit, hnat, Bool.and_eq_true, decide_eq_true_eq, decide_eq_true_eq]
    exact hc
  · intro heq
    rw [← Char.ofNat_toNat c, ← hnat, heq]
    rfl

/-- No zero stands at the beginning, but for the one of 0. -/
theorem toDigits_head {n : Nat} (h : 0 < n) : ∃ c ds, Nat.toDigits 10 n = c :: ds ∧ c ≠ '0' := by
  induction n using Nat.strong_induction_on with
  | _ n ih =>
    by_cases hn : n < 10
    · have hdigit : ∀ d < 10, 0 < d → d.digitChar ≠ '0' := by decide
      exact ⟨n.digitChar, [], Nat.toDigits_of_lt_base hn, hdigit n hn h⟩
    · obtain ⟨c, ds, hds, hc⟩ := ih (n / 10) (by omega) (by omega)
      refine ⟨c, ds ++ [(n % 10).digitChar], ?_, hc⟩
      rw [Nat.toDigits_of_base_le (by decide) (by omega), hds]
      rfl

theorem utf16_toDigits (n : Nat) :
    utf16 (Nat.toDigits 10 n) = (Nat.toDigits 10 n).map unit ∧
      ∀ u ∈ utf16 (Nat.toDigits 10 n), isDigit u = true := by
  have hdigit : ∀ c ∈ Nat.toDigits 10 n, c.isDigit = true := fun c hc =>
    Nat.isDigit_of_mem_toDigits (by decide) (by decide) hc
  have heq := utf16_eq_map fun c hc => (isDigit_unit (hdigit c hc)).1
  refine ⟨heq, ?_⟩
  rw [heq]
  intro u hu
  obtain ⟨c, hc, rfl⟩ := List.mem_map.mp hu
  exact (isDigit_unit (hdigit c hc)).2.1

theorem unsigned_toDigits (n : Nat) {s : JsStr} (hs : EndsNumeral s) :
    unsigned (utf16 (Nat.toDigits 10 n) ++ s) = some (utf16 (Nat.toDigits 10 n), s) := by
  apply unsigned_append _ hs
  obtain ⟨heq, hdigits⟩ := utf16_toDigits n
  rcases Nat.eq_zero_or_pos n with rfl | hpos
  · rfl
  · obtain ⟨c, ds, hds, hc⟩ := toDigits_head hpos
    have hdigit : c.isDigit = true :=
      Nat.isDigit_of_mem_toDigits (by decide) (by decide) (hds ▸ List.mem_cons_self)
    have happend := digits_append hdigits (by rw [heq, hds]; exact List.cons_ne_nil _ _) hs
    rw [heq, hds] at happend ⊢
    show (if unit c = 0x30 then _ else digits _) = _
    rw [if_neg fun h => hc ((isDigit_unit hdigit).2.2 h)]
    exact happend

/-- A number is written as a numeral. -/
theorem numeral_intText (n : Int) {s : JsStr} (hs : EndsNumeral s) :
    numeral (utf16 (intText n) ++ s) = some (utf16 (intText n), s) := by
  cases n with
  | ofNat n =>
    have hnat := unsigned_toDigits n hs
    obtain ⟨heq, hdigits⟩ := utf16_toDigits n
    show numeral (utf16 (Nat.toDigits 10 n) ++ s) = some (utf16 (Nat.toDigits 10 n), s)
    cases hds : utf16 (Nat.toDigits 10 n) with
    | nil => exact absurd (List.map_eq_nil_iff.mp (heq.symm.trans hds)) Nat.toDigits_ne_nil
    | cons u ds =>
      rw [hds] at hnat hdigits
      have hu : u ≠ 0x2D := by
        rintro rfl
        exact absurd (hdigits _ List.mem_cons_self) (by decide)
      show (if u = 0x2D then _ else unsigned _) = _
      rw [if_neg hu]
      exact hnat
  | negSucc n =>
    show (unsigned (utf16 (Nat.toDigits 10 (n + 1)) ++ s)).map _ = _
    rw [unsigned_toDigits (n + 1) hs]
    rfl

end JsonText
