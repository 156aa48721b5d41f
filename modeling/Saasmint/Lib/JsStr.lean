/-
Saasmint/Lib/JsStr.lean

The strings of JavaScript: lists of 16-bit code units, any list.  A text of
characters has its UTF-16 code units (`utf16`); in the other direction a
surrogate without its partner becomes U+FFFD (`toUSVString`, the conversion that
the web platform makes at its interfaces), and a text comes back as it was
(`toUSVString_utf16`).

`split`, `join`, `startsWith` and `slice` of a one-unit separator are those of
lists: `List.splitOn`, `List.intercalate`, `List.isPrefixOf` and `List.drop`.
-/
import Mathlib.Data.List.Basic
import Mathlib.Order.Lattice

/-- A JavaScript string, by its code units. -/
abbrev JsStr := List UInt16

namespace JsStr

/-- The code units of a character: one, or a surrogate pair. -/
def units (c : Char) : JsStr :=
  if c.toNat < 0x10000 then [UInt16.ofNat c.toNat]
  else
    [UInt16.ofNat (0xD800 + (c.toNat - 0x10000) / 0x400),
      UInt16.ofNat (0xDC00 + (c.toNat - 0x10000) % 0x400)]

/-- The code units of a text. -/
def utf16 (s : List Char) : JsStr := s.flatMap units

/-- A string literal. -/
def js (s : String) : JsStr := utf16 s.toList

def isHighSurrogate (u : UInt16) : Bool := 0xD800 ≤ u.toNat && u.toNat < 0xDC00

def isLowSurrogate (u : UInt16) : Bool := 0xDC00 ≤ u.toNat && u.toNat < 0xE000

/-- The conversion to a text: a lone surrogate becomes U+FFFD. -/
def toUSVString : JsStr → List Char
  | [] => []
  | [u] =>
    if isHighSurrogate u || isLowSurrogate u then ['\uFFFD'] else [Char.ofNat u.toNat]
  | u :: v :: rest =>
    if isHighSurrogate u then
      if isLowSurrogate v then
        Char.ofNat (0x10000 + (u.toNat - 0xD800) * 0x400 + (v.toNat - 0xDC00)) :: toUSVString rest
      else '\uFFFD' :: toUSVString (v :: rest)
    else if isLowSurrogate u then '\uFFFD' :: toUSVString (v :: rest)
    else Char.ofNat u.toNat :: toUSVString (v :: rest)

/-! ### Texts -/

@[simp] theorem utf16_nil : utf16 [] = [] := rfl

@[simp] theorem utf16_cons (c : Char) (s : List Char) : utf16 (c :: s) = units c ++ utf16 s := rfl

theorem utf16_append (s t : List Char) : utf16 (s ++ t) = utf16 s ++ utf16 t :=
  List.flatMap_append

theorem units_ne_nil (c : Char) : units c ≠ [] := by
  unfold units
  split
  · exact List.cons_ne_nil _ _
  · exact List.cons_ne_nil _ _

/-- A code unit that is no surrogate is a character of its own. -/
theorem toUSVString_cons {u : UInt16} (hhigh : isHighSurrogate u = false)
    (hlow : isLowSurrogate u = false) (s : JsStr) :
    toUSVString (u :: s) = Char.ofNat u.toNat :: toUSVString s := by
  cases s with
  | nil => simp [toUSVString, hhigh, hlow]
  | cons v s => simp [toUSVString, hhigh, hlow]

theorem toUSVString_pair {u v : UInt16} (hu : isHighSurrogate u = true)
    (hv : isLowSurrogate v = true) (s : JsStr) :
    toUSVString (u :: v :: s)
      = Char.ofNat (0x10000 + (u.toNat - 0xD800) * 0x400 + (v.toNat - 0xDC00))
          :: toUSVString s := by
  rw [toUSVString, if_pos hu, if_pos hv]

/-- The code points that a character can have. -/
theorem char_range (c : Char) : c.toNat < 0xD800 ∨ 0xDFFF < c.toNat ∧ c.toNat < 0x110000 :=
  c.valid

theorem toUSVString_units (c : Char) (s : JsStr) :
    toUSVString (units c ++ s) = c :: toUSVString s := by
  have hrange := char_range c
  unfold units
  split
  next h =>
    have hnat : (UInt16.ofNat c.toNat).toNat = c.toNat := by
      rw [UInt16.toNat_ofNat']
      omega
    have hhigh : isHighSurrogate (UInt16.ofNat c.toNat) = false := by
      simp only [isHighSurrogate, hnat, Bool.and_eq_false_iff, decide_eq_false_iff_not]
      omega
    have hlow : isLowSurrogate (UInt16.ofNat c.toNat) = false := by
      simp only [isLowSurrogate, hnat, Bool.and_eq_false_iff, decide_eq_false_iff_not]
      omega
    rw [List.singleton_append, toUSVString_cons hhigh hlow, hnat, Char.ofNat_toNat]
  next h =>
    have hu : (UInt16.ofNat (0xD800 + (c.toNat - 0x10000) / 0x400)).toNat
        = 0xD800 + (c.toNat - 0x10000) / 0x400 := by
      rw [UInt16.toNat_ofNat']
      omega
    have hv : (UInt16.ofNat (0xDC00 + (c.toNat - 0x10000) % 0x400)).toNat
        = 0xDC00 + (c.toNat - 0x10000) % 0x400 := by
      rw [UInt16.toNat_ofNat']
      omega
    have hhigh : isHighSurrogate (UInt16.ofNat (0xD800 + (c.toNat - 0x10000) / 0x400)) = true := by
      simp only [isHighSurrogate, hu, Bool.and_eq_true, decide_eq_true_eq]
      omega
    have hlow : isLowSurrogate (UInt16.ofNat (0xDC00 + (c.toNat - 0x10000) % 0x400)) = true := by
      simp only [isLowSurrogate, hv, Bool.and_eq_true, decide_eq_true_eq]
      omega
    have hcode : 0x10000 + (0xD800 + (c.toNat - 0x10000) / 0x400 - 0xD800) * 0x400
        + (0xDC00 + (c.toNat - 0x10000) % 0x400 - 0xDC00) = c.toNat := by omega
    rw [List.cons_append, List.singleton_append, toUSVString_pair hhigh hlow, hu, hv, hcode,
      Char.ofNat_toNat]

/-- A text comes back from its code units. -/
@[simp] theorem toUSVString_utf16 (s : List Char) : toUSVString (utf16 s) = s := by
  induction s with
  | nil => rfl
  | cons c s ih => rw [utf16_cons, toUSVString_units, ih]

theorem utf16_injective : Function.Injective utf16 := by
  intro s t h
  rw [← toUSVString_utf16 s, h, toUSVString_utf16]

/-- A text starts with another as its code units do. -/
theorem utf16_isPrefix_iff (s t : List Char) : utf16 s <+: utf16 t ↔ s <+: t := by
  constructor
  · rintro ⟨r, hr⟩
    have h : s ++ toUSVString r = t := by
      have hs : ∀ w : List Char, toUSVString (utf16 w ++ r) = w ++ toUSVString r := by
        intro w
        induction w with
        | nil => rfl
        | cons c w ih => rw [utf16_cons, List.append_assoc, toUSVString_units, ih, List.cons_append]
      rw [← hs s, hr, toUSVString_utf16]
    exact ⟨_, h⟩
  · rintro ⟨r, rfl⟩
    exact ⟨utf16 r, (utf16_append s r).symm⟩

/-! ### Segments -/

section Segments

variable {α : Type*} [BEq α] [LawfulBEq α]

/-- The first part of a split: the whole, or what stands before the first
separator. -/
theorem splitOn_cases (sep : α) (s : List α) :
    (sep ∉ s ∧ s.splitOn sep = [s]) ∨
      ∃ seg rest, sep ∉ seg ∧ s = seg ++ sep :: rest ∧
        s.splitOn sep = seg :: rest.splitOn sep := by
  by_cases h : sep ∈ s
  · right
    obtain ⟨seg, rest, rfl, hseg⟩ := List.eq_append_cons_of_mem h
    exact ⟨seg, rest, hseg, rfl, List.splitOn_append_cons_self_of_not_mem hseg rest⟩
  · exact Or.inl ⟨h, List.splitOn_eq_singleton h⟩

/-- `l` is the first part of a split where `l` and a separator start the whole,
or `l` is the whole. -/
theorem prefix_or_eq_iff {sep : α} {l : List α} (hl : sep ∉ l) (s : List α) :
    l ++ [sep] <+: s ∨ s = l ↔ (s.splitOn sep).head? = some l := by
  rcases splitOn_cases sep s with ⟨hs, hsplit⟩ | ⟨seg, rest, hseg, rfl, hsplit⟩
  · rw [hsplit, List.head?_cons, Option.some.injEq]
    constructor
    · rintro (hpre | heq)
      · exact absurd (hpre.subset (List.mem_append_right l List.mem_cons_self)) hs
      · exact heq
    · exact Or.inr
  · rw [hsplit, List.head?_cons, Option.some.injEq]
    constructor
    · rintro (⟨t, ht⟩ | heq)
      · have hsplit' : (l ++ sep :: t).splitOn sep = seg :: rest.splitOn sep := by
          rw [← hsplit, ← ht, List.append_assoc, List.singleton_append]
        rw [List.splitOn_append_cons_self_of_not_mem hl t] at hsplit'
        exact (List.cons.inj hsplit').1.symm
      · exact absurd (heq ▸ List.mem_append_right seg List.mem_cons_self) hl
    · rintro rfl
      exact Or.inl ⟨rest, by rw [List.append_assoc, List.singleton_append]⟩

end Segments

end JsStr
