/-
Saasmint/Lib/JsonRoundTrip.lean

`JSON.parse` on what `json.dumps` writes: every value comes back as the one that
JavaScript has for it (`parse_dumps`), and the text is ASCII (`dumps_ascii`), so
that it does not matter how its bytes are decoded.

The induction is over the value.  What it carries is `Reads`: the parser reads
the text of the value from the front of any text that does not go on with the
numeral.
-/
import Saasmint.Lib.JsonText

namespace JsonText

open JsStr JsValue

variable {ν : Type} (toNumber : JsStr → ν)

/-! ### Objects -/

theorem foldl_setEntry_of_nodup (members entries : List (JsStr × JsValue ν))
    (hkeys : (entries.map Prod.fst ++ members.map Prod.fst).Nodup) :
    members.foldl (fun entries e => setEntry e.1 e.2 entries) entries = entries ++ members := by
  induction members generalizing entries with
  | nil => rw [List.foldl_nil, List.append_nil]
  | cons e members ih =>
    have hnew : e.1 ∉ entries.map Prod.fst := fun hmem =>
      (List.nodup_append.mp hkeys).2.2 _ hmem _ List.mem_cons_self rfl
    rw [List.foldl_cons, setEntry_of_not_mem hnew, ih, List.append_assoc, List.singleton_append]
    simpa [List.append_assoc] using hkeys

/-- Different keys are entries one by one. -/
theorem objectOf_of_nodup {members : List (JsStr × JsValue ν)}
    (hkeys : (members.map Prod.fst).Nodup) : objectOf members = .object .ordinary members := by
  rw [objectOf, foldl_setEntry_of_nodup members [] hkeys, List.nil_append]

/-! ### Values -/

theorem skip_cons {u : UInt16} (h : isWhitespace u = false) (s : JsStr) :
    skip (u :: s) = u :: s := by
  rw [skip, List.dropWhile_cons, h]
  rfl

/-- A text that starts neither with white space nor with the end of an array or
object. -/
def StartsValue (s : JsStr) : Prop :=
  ∃ u t, s = u :: t ∧ isWhitespace u = false ∧ u ≠ 0x5D ∧ u ≠ 0x7D

theorem StartsValue.append {s : JsStr} (h : StartsValue s) (t : JsStr) : StartsValue (s ++ t) := by
  obtain ⟨u, s, rfl, hu⟩ := h
  exact ⟨u, s ++ t, rfl, hu⟩

theorem value_string (n : Nat) (s : JsStr) :
    value toNumber (n + 1) (0x22 :: s) = (string s).map fun x => (.string x.1, x.2) := by
  rw [value]
  rfl

theorem literal_append (name : List Char) (s : JsStr) : literal name (utf16 name ++ s) = some s :=
  List.dropPrefix?_eq_some_iff.mpr ⟨utf16 name, rfl, beq_self_eq_true _⟩

theorem value_null (n : Nat) (s : JsStr) :
    value toNumber (n + 1) (utf16 (dumps .null) ++ s) = some (.null, s) := by
  rw [value]
  show (literal ['u', 'l', 'l'] (utf16 ['u', 'l', 'l'] ++ s)).map _ = _
  rw [literal_append]
  rfl

theorem value_bool (n : Nat) (b : Bool) (s : JsStr) :
    value toNumber (n + 1) (utf16 (dumps (.bool b)) ++ s) = some (.bool b, s) := by
  rw [value]
  cases b with
  | true =>
    show (literal ['r', 'u', 'e'] (utf16 ['r', 'u', 'e'] ++ s)).map _ = _
    rw [literal_append]
    rfl
  | false =>
    show (literal ['a', 'l', 's', 'e'] (utf16 ['a', 'l', 's', 'e'] ++ s)).map _ = _
    rw [literal_append]
    rfl

theorem value_array (n : Nat) {s : JsStr} (hs : StartsValue s) :
    value toNumber (n + 1) (0x5B :: s)
      = (elements toNumber n s).map fun x => (.array x.1, x.2) := by
  obtain ⟨u, t, rfl, hspace, hend, -⟩ := hs
  rw [value, skip_cons (by decide)]
  dsimp only
  rw [if_neg (by decide), if_pos rfl, skip_cons hspace]
  exact if_neg hend

theorem value_object (n : Nat) {s : JsStr} (hs : StartsValue s) :
    value toNumber (n + 1) (0x7B :: s)
      = (members toNumber n s).map fun x => (objectOf x.1, x.2) := by
  obtain ⟨u, t, rfl, hspace, -, hend⟩ := hs
  rw [value, skip_cons (by decide)]
  dsimp only
  rw [if_neg (by decide), if_neg (by decide), if_pos rfl, skip_cons hspace]
  exact if_neg hend

theorem startsValue_intText (n : Int) :
    ∃ u t, utf16 (intText n) = u :: t ∧ (u = 0x2D ∨ isDigit u = true) := by
  cases n with
  | ofNat n =>
    obtain ⟨heq, hdigits⟩ := utf16_toDigits n
    cases hds : utf16 (Nat.toDigits 10 n) with
    | nil => exact absurd (List.map_eq_nil_iff.mp (heq.symm.trans hds)) Nat.toDigits_ne_nil
    | cons u t => exact ⟨u, t, hds, Or.inr (hdigits u (hds ▸ List.mem_cons_self))⟩
  | negSucc n => exact ⟨0x2D, _, rfl, Or.inl rfl⟩

theorem ne_of_startsNumeral {u v : UInt16} (hu : u = 0x2D ∨ isDigit u = true) (hv : v ≠ 0x2D)
    (hdigit : isDigit v = false) : u ≠ v := by
  rintro rfl
  rcases hu with rfl | hu
  · exact hv rfl
  · rw [hu] at hdigit
    cases hdigit

theorem isWhitespace_of_startsNumeral {u : UInt16} (hu : u = 0x2D ∨ isDigit u = true) :
    isWhitespace u = false := by
  have h₁ := ne_of_startsNumeral (v := 0x20) hu (by decide) (by decide)
  have h₂ := ne_of_startsNumeral (v := 0x09) hu (by decide) (by decide)
  have h₃ := ne_of_startsNumeral (v := 0x0A) hu (by decide) (by decide)
  have h₄ := ne_of_startsNumeral (v := 0x0D) hu (by decide) (by decide)
  simp [isWhitespace, h₁, h₂, h₃, h₄]

theorem value_numeral (n : Nat) {u : UInt16} (hu : u = 0x2D ∨ isDigit u = true) (s : JsStr) :
    value toNumber (n + 1) (u :: s)
      = (numeral (u :: s)).map fun x => (.number (toNumber x.1), x.2) := by
  have hne : ∀ v : UInt16, v ≠ 0x2D → isDigit v = false → u ≠ v := fun v => ne_of_startsNumeral hu
  rw [value, skip_cons (isWhitespace_of_startsNumeral hu)]
  show (if u = 0x22 then _ else if u = 0x5B then _ else if u = 0x7B then _ else if u = 0x6E then _
    else if u = 0x74 then _ else if u = 0x66 then _ else _) = _
  rw [if_neg (hne _ (by decide) (by decide)), if_neg (hne _ (by decide) (by decide)),
    if_neg (hne _ (by decide) (by decide)), if_neg (hne _ (by decide) (by decide)),
    if_neg (hne _ (by decide) (by decide)), if_neg (hne _ (by decide) (by decide))]

theorem memberKey_quoted (k : List Char) (s : JsStr) :
    memberKey (utf16 (quoted k) ++ 0x3A :: s) = some (utf16 k, s) := by
  have htext : utf16 (quoted k) ++ 0x3A :: s
      = 0x22 :: (utf16 (k.flatMap escapeChar) ++ 0x22 :: 0x3A :: s) := by
    rw [quoted, List.cons_append, utf16_cons, utf16_append, List.append_assoc, List.append_assoc]
    rfl
  rw [htext]
  show (string _).bind _ = _
  rw [string_quoted]
  rfl

theorem startsValue_dumps (v : PyJson) : StartsValue (utf16 (dumps v)) := by
  cases v with
  | null => exact ⟨0x6E, _, rfl, by decide⟩
  | bool b =>
    cases b with
    | true => exact ⟨0x74, _, rfl, by decide⟩
    | false => exact ⟨0x66, _, rfl, by decide⟩
  | int n =>
    obtain ⟨u, t, ht, hu⟩ := startsValue_intText n
    exact ⟨u, t, ht, isWhitespace_of_startsNumeral hu,
      ne_of_startsNumeral hu (by decide) (by decide),
      ne_of_startsNumeral hu (by decide) (by decide)⟩
  | str s => exact ⟨0x22, _, rfl, by decide⟩
  | list items =>
    cases items with
    | nil => exact ⟨0x5B, _, rfl, by decide⟩
    | cons v items => exact ⟨0x5B, _, rfl, by decide⟩
  | dict entries =>
    rcases entries with - | ⟨⟨k, v⟩, entries⟩
    · exact ⟨0x7B, _, rfl, by decide⟩
    · exact ⟨0x7B, _, rfl, by decide⟩

/-- The parser on the text of `v`, whatever follows it. -/
def Reads (v : PyJson) : Prop :=
  ∀ n s, 2 * (utf16 (dumps v)).length ≤ n → EndsNumeral s →
    value toNumber n (utf16 (dumps v) ++ s) = some (toJs toNumber v, s)

theorem endsNumeral_moreItems (items : List PyJson) (s : JsStr) :
    EndsNumeral (utf16 (moreItems items) ++ 0x5D :: s) := by
  cases items with
  | nil => exact endsNumeral_cons (by decide) (by decide) s
  | cons v items => exact endsNumeral_cons (by decide) (by decide) _

theorem endsNumeral_moreEntries (entries : List (List Char × PyJson)) (s : JsStr) :
    EndsNumeral (utf16 (moreEntries entries) ++ 0x7D :: s) := by
  rcases entries with - | ⟨⟨k, v⟩, entries⟩
  · exact endsNumeral_cons (by decide) (by decide) s
  · exact endsNumeral_cons (by decide) (by decide) _

variable {toNumber}

theorem elements_dumps {v : PyJson} {items : List PyJson} (hv : Reads toNumber v)
    (hitems : ∀ w ∈ items, Reads toNumber w) (n : Nat) (s : JsStr)
    (hn : 2 * (utf16 (dumps v) ++ utf16 (moreItems items)).length + 1 ≤ n) :
    elements toNumber n (utf16 (dumps v) ++ (utf16 (moreItems items) ++ 0x5D :: s))
      = some (toJsItems toNumber (v :: items), s) := by
  induction items generalizing v n with
  | nil =>
    rw [List.length_append] at hn
    obtain ⟨n, rfl⟩ := Nat.exists_eq_add_one_of_ne_zero (show n ≠ 0 by omega)
    rw [elements, hv n _ (by omega) (endsNumeral_moreItems [] s)]
    rfl
  | cons w items ih =>
    have htext : utf16 (moreItems (w :: items))
        = 0x2C :: (utf16 (dumps w) ++ utf16 (moreItems items)) := by
      rw [moreItems, List.cons_append, utf16_cons, utf16_append]
      rfl
    rw [List.length_append, htext, List.length_cons] at hn
    obtain ⟨n, rfl⟩ := Nat.exists_eq_add_one_of_ne_zero (show n ≠ 0 by omega)
    rw [elements, hv n _ (by omega) (endsNumeral_moreItems (w :: items) s), htext]
    show (elements toNumber n ((utf16 (dumps w) ++ utf16 (moreItems items)) ++ 0x5D :: s)).map _ = _
    rw [List.append_assoc, ih (hitems w List.mem_cons_self)
      (fun x hx => hitems x (List.mem_cons_of_mem w hx)) n (by omega)]
    rfl

theorem members_dumps {k : List Char} {v : PyJson} {entries : List (List Char × PyJson)}
    (hv : Reads toNumber v) (hentries : ∀ e ∈ entries, Reads toNumber e.2) (n : Nat) (s : JsStr)
    (hn : 2 * (utf16 (dumps v) ++ utf16 (moreEntries entries)).length + 1 ≤ n) :
    members toNumber n
        (utf16 (quoted k) ++ 0x3A ::
          (utf16 (dumps v) ++ (utf16 (moreEntries entries) ++ 0x7D :: s)))
      = some (toJsEntries toNumber ((k, v) :: entries), s) := by
  induction entries generalizing k v n with
  | nil =>
    rw [List.length_append] at hn
    obtain ⟨n, rfl⟩ := Nat.exists_eq_add_one_of_ne_zero (show n ≠ 0 by omega)
    rw [members, memberKey_quoted, Option.bind_some,
      hv n _ (by omega) (endsNumeral_moreEntries [] s)]
    rfl
  | cons e entries ih =>
    have htext : utf16 (moreEntries (e :: entries))
        = 0x2C :: (utf16 (quoted e.1) ++
          0x3A :: (utf16 (dumps e.2) ++ utf16 (moreEntries entries))) := by
      obtain ⟨k, v⟩ := e
      rw [moreEntries, List.cons_append, List.cons_append, utf16_cons, utf16_append, utf16_append,
        utf16_cons, List.append_assoc]
      rfl
    rw [List.length_append, htext, List.length_cons, List.length_append, List.length_cons] at hn
    obtain ⟨n, rfl⟩ := Nat.exists_eq_add_one_of_ne_zero (show n ≠ 0 by omega)
    rw [members, memberKey_quoted, Option.bind_some,
      hv n _ (by omega) (endsNumeral_moreEntries (e :: entries) s), htext]
    have hassoc : (utf16 (quoted e.1) ++ 0x3A :: (utf16 (dumps e.2) ++ utf16 (moreEntries entries)))
          ++ 0x7D :: s
        = utf16 (quoted e.1)
          ++ 0x3A :: (utf16 (dumps e.2) ++ (utf16 (moreEntries entries) ++ 0x7D :: s)) := by
      simp only [List.append_assoc, List.cons_append]
    show (members toNumber n ((utf16 (quoted e.1) ++
      0x3A :: (utf16 (dumps e.2) ++ utf16 (moreEntries entries))) ++ 0x7D :: s)).map _ = _
    rw [hassoc, ih (hentries e List.mem_cons_self)
      (fun x hx => hentries x (List.mem_cons_of_mem e hx)) n (by omega)]
    rfl

variable (toNumber)

theorem exists_fuel {v : PyJson} {n : Nat} (hn : 2 * (utf16 (dumps v)).length ≤ n) :
    ∃ m, n = m + 1 := by
  obtain ⟨u, t, ht, -⟩ := startsValue_dumps v
  rw [ht, List.length_cons] at hn
  exact Nat.exists_eq_add_one_of_ne_zero (by omega)

/-- What `dumps` writes is read as the value that JavaScript has. -/
theorem value_dumps (v : PyJson) : Reads toNumber v := by
  induction v using PyJson.tree_induction with
  | null =>
    intro n s hn _
    obtain ⟨n, rfl⟩ := exists_fuel hn
    exact value_null toNumber n s
  | bool b =>
    intro n s hn _
    obtain ⟨n, rfl⟩ := exists_fuel hn
    exact value_bool toNumber n b s
  | int i =>
    intro n s hn hs
    obtain ⟨n, rfl⟩ := exists_fuel hn
    obtain ⟨u, t, ht, hu⟩ := startsValue_intText i
    have htext : utf16 (dumps (.int i)) = u :: t := by rw [dumps, ht]
    rw [htext, List.cons_append, value_numeral toNumber n hu, ← List.cons_append, ← ht,
      numeral_intText i hs]
    rfl
  | str w =>
    intro n s hn _
    obtain ⟨n, rfl⟩ := exists_fuel hn
    have htext : utf16 (dumps (.str w)) ++ s
        = 0x22 :: (utf16 (w.flatMap escapeChar) ++ 0x22 :: s) := by
      rw [dumps, quoted, List.cons_append, utf16_cons, utf16_append, List.append_assoc,
        List.append_assoc]
      rfl
    rw [htext, value_string, string_quoted]
    rfl
  | list items ih =>
    intro n s hn _
    obtain ⟨n, rfl⟩ := exists_fuel hn
    cases items with
    | nil =>
      rw [value]
      rfl
    | cons v items =>
      have htext : utf16 (dumps (.list (v :: items)))
          = 0x5B :: (utf16 (dumps v) ++ utf16 (moreItems items) ++ [0x5D]) := by
        rw [dumps, List.cons_append, List.cons_append, utf16_cons, utf16_append, utf16_append]
        rfl
      rw [htext, List.length_cons, List.length_append] at hn
      rw [htext, List.cons_append, List.append_assoc, List.append_assoc, List.singleton_append,
        value_array toNumber n ((startsValue_dumps v).append _),
        elements_dumps (ih v List.mem_cons_self) (fun w hw => ih w (List.mem_cons_of_mem v hw)) n s
          (by omega)]
      rfl
  | dict entries ih =>
    intro n s hn _
    obtain ⟨n, rfl⟩ := exists_fuel hn
    rcases entries with - | ⟨⟨k, v⟩, entries⟩
    · rw [value]
      rfl
    · have htext : utf16 (dumps (.dict ((k, v) :: entries)))
          = 0x7B :: (utf16 (quoted k) ++
              0x3A :: (utf16 (dumps v) ++ utf16 (moreEntries entries)) ++ [0x7D]) := by
        rw [dumps]
        simp only [List.cons_append, List.append_assoc, utf16_cons, utf16_append]
        rfl
      have hstart : StartsValue (utf16 (quoted k)) := ⟨0x22, _, rfl, by decide⟩
      rw [htext, List.length_cons, List.length_append, List.length_append, List.length_cons] at hn
      rw [htext]
      simp only [List.cons_append, List.append_assoc, List.nil_append]
      have hv : Reads toNumber v := ih (k, v) List.mem_cons_self
      rw [value_object toNumber n (hstart.append _),
        members_dumps hv (fun e he => ih e (List.mem_cons_of_mem _ he)) n s (by omega)]
      rfl

/-- **A value comes back from its text.** -/
theorem parse_dumps (v : PyJson) : parse toNumber (utf16 (dumps v)) = some (toJs toNumber v) := by
  have h := value_dumps toNumber v (2 * (utf16 (dumps v)).length + 1) [] (Nat.le_succ _)
    endsNumeral_nil
  rw [List.append_nil] at h
  rw [parse, h]
  rfl

/-! ### ASCII -/

/-- A text of ASCII characters. -/
def Ascii (s : List Char) : Prop := ∀ c ∈ s, c.toNat < 0x80

instance (s : List Char) : Decidable (Ascii s) :=
  inferInstanceAs (Decidable (∀ c ∈ s, c.toNat < 0x80))

theorem ascii_cons {c : Char} {s : List Char} : Ascii (c :: s) ↔ c.toNat < 0x80 ∧ Ascii s :=
  List.forall_mem_cons

theorem ascii_append {s t : List Char} : Ascii (s ++ t) ↔ Ascii s ∧ Ascii t :=
  List.forall_mem_append

theorem hexDigits_ascii {k n : Nat} : ∀ c ∈ PyStr.hexDigits k n, c.toNat < 0x80 := by
  have hdigit : ∀ d < 16, (PyStr.hexDigits.hexDigit d).toNat < 0x80 := by decide
  intro c hc
  obtain ⟨d, hd, rfl⟩ := PyStr.exists_of_mem_hexDigits hc
  exact hdigit d hd

theorem escapeChar_ascii (c : Char) : Ascii (escapeChar c) := by
  unfold escapeChar
  split_ifs with h₁ h₂ h₃ h₄ h₅ h₆ h₇ hplain
  · decide
  · decide
  · decide
  · decide
  · decide
  · decide
  · decide
  · intro d hd
    obtain rfl := List.mem_singleton.mp hd
    omega
  · intro d hd
    obtain ⟨u, -, hd⟩ := List.mem_flatMap.mp hd
    rcases List.mem_cons.mp hd with rfl | hd
    · decide
    · rcases List.mem_cons.mp hd with rfl | hd
      · decide
      · exact hexDigits_ascii d hd

theorem quoted_ascii (w : List Char) : Ascii (quoted w) := by
  refine ascii_append.mpr ⟨ascii_cons.mpr ⟨by decide, fun c hc => ?_⟩, by decide⟩
  obtain ⟨d, -, hc⟩ := List.mem_flatMap.mp hc
  exact escapeChar_ascii d c hc

theorem toDigits_ascii (n : Nat) : Ascii (Nat.toDigits 10 n) := by
  intro c hc
  have h : c.isDigit = true := Nat.isDigit_of_mem_toDigits (by decide) (by decide) hc
  have hc : 48 ≤ c.toNat ∧ c.toNat ≤ 57 := by
    simpa [Char.isDigit, UInt32.le_iff_toNat_le] using h
  omega

theorem moreItems_ascii {items : List PyJson} (h : ∀ v ∈ items, Ascii (dumps v)) :
    Ascii (moreItems items) := by
  induction items with
  | nil => exact fun c hc => absurd hc List.not_mem_nil
  | cons v items ih =>
    rw [List.forall_mem_cons] at h
    exact ascii_append.mpr ⟨ascii_cons.mpr ⟨by decide, h.1⟩, ih h.2⟩

theorem moreEntries_ascii {entries : List (List Char × PyJson)}
    (h : ∀ e ∈ entries, Ascii (dumps e.2)) : Ascii (moreEntries entries) := by
  induction entries with
  | nil => exact fun c hc => absurd hc List.not_mem_nil
  | cons e entries ih =>
    obtain ⟨k, v⟩ := e
    rw [List.forall_mem_cons] at h
    rw [moreEntries]
    simp only [ascii_append, ascii_cons]
    exact ⟨⟨⟨by decide, quoted_ascii k⟩, by decide, h.1⟩, ih h.2⟩

/-- `dumps` writes ASCII. -/
theorem dumps_ascii (v : PyJson) : Ascii (dumps v) := by
  induction v using PyJson.tree_induction with
  | null => decide
  | bool b => cases b <;> decide
  | int n =>
    cases n with
    | ofNat n => exact toDigits_ascii n
    | negSucc n => exact ascii_cons.mpr ⟨by decide, toDigits_ascii (n + 1)⟩
  | str w => exact quoted_ascii w
  | list items ih =>
    cases items with
    | nil => decide
    | cons v items =>
      rw [List.forall_mem_cons] at ih
      rw [dumps]
      simp only [ascii_append, ascii_cons]
      exact ⟨⟨⟨by decide, ih.1⟩, moreItems_ascii ih.2⟩, by decide⟩
  | dict entries ih =>
    rcases entries with - | ⟨⟨k, v⟩, entries⟩
    · decide
    · rw [List.forall_mem_cons] at ih
      rw [dumps]
      simp only [ascii_append, ascii_cons]
      exact ⟨⟨⟨⟨by decide, quoted_ascii k⟩, by decide, ih.1⟩, moreEntries_ascii ih.2⟩, by decide⟩

end JsonText
