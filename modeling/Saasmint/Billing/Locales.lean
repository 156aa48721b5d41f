/-
Saasmint/Billing/Locales.lean

The country that a language range stands for, and the one that
`_country_from_locale` derives (apps/billing/views.py).

An Accept-Language value is a first language range, which may carry a weight,
and whatever follows its comma.  The region of a range is a subtag of two
letters after the language, its extensions and its script.  The function looks
at the second subtag alone, as it stands between two hyphens: it misses a
region behind a script, one that a weight follows, and the language of a bare
range with a weight (`country_from_locale_iff`).
-/
import Saasmint.Billing.Pricing

namespace Saasmint

open PyStr

variable (u : UnicodeTables)

/-! ### Language ranges -/

/-- `1*8ALPHA`. -/
def IsLanguage (w : List Char) : Prop :=
  1 ≤ w.length ∧ w.length ≤ 8 ∧ ∀ c ∈ w, c.isAlpha = true

/-- `1*8alphanum`. -/
def IsSubtag (w : List Char) : Prop :=
  1 ≤ w.length ∧ w.length ≤ 8 ∧ ∀ c ∈ w, c.isAlphanum = true

instance (w : List Char) : Decidable (IsLanguage w) := inferInstanceAs (Decidable (_ ∧ _))

instance (w : List Char) : Decidable (IsSubtag w) := inferInstanceAs (Decidable (_ ∧ _))

/-- A language with the subtags that follow it, or `*`. -/
structure LanguageRange where
  language : List Char
  subtags : List (List Char)
  wellFormed : language = ['*'] ∧ subtags = [] ∨
    IsLanguage language ∧ ∀ s ∈ subtags, IsSubtag s

/-- A weight, `;q=` with whitespace and a number. -/
structure Weight where
  before : List Char
  after : List Char
  q : Char
  value : List Char
  blank : ∀ c ∈ before ++ after, c = ' ' ∨ c = '\t'
  name : q = 'q' ∨ q = 'Q'
  value_ne : value ≠ []
  digits : ∀ c ∈ value, c.isDigit = true ∨ c = '.'

/-- A value of Accept-Language, or a tag by itself. -/
structure AcceptLanguage where
  first : LanguageRange
  weight : Option Weight
  spaces : List Char
  /-- What follows the first comma. -/
  others : Option (List Char)
  blank : ∀ c ∈ spaces, c = ' ' ∨ c = '\t'

def LanguageRange.text (r : LanguageRange) : List Char :=
  r.language ++ r.subtags.flatMap fun s => '-' :: s

def Weight.text (w : Weight) : List Char := w.before ++ ';' :: (w.after ++ w.q :: '=' :: w.value)

namespace AcceptLanguage

variable (v : AcceptLanguage)

/-- The text of the weight of the first range, if it has one. -/
def weightText : List Char := (v.weight.map Weight.text).getD []

def text : String :=
  String.ofList (v.first.text ++ v.weightText ++ v.spaces ++ (v.others.map (',' :: ·)).getD [])

end AcceptLanguage

/-! ### What is claimed -/

/-- The subtags after at most `n` language extensions. -/
def dropExtlangs : Nat → List (List Char) → List (List Char)
  | n + 1, s :: rest =>
    if s.length = 3 ∧ ∀ c ∈ s, c.isAlpha = true then dropExtlangs n rest else s :: rest
  | _, subtags => subtags

/-- The subtags after the script, if there is one. -/
def dropScript : List (List Char) → List (List Char)
  | s :: rest => if s.length = 4 ∧ ∀ c ∈ s, c.isAlpha = true then rest else s :: rest
  | [] => []

/-- A region of two letters. -/
def IsRegion (s : List Char) : Prop := s.length = 2 ∧ ∀ c ∈ s, c.isAlpha = true

instance (s : List Char) : Decidable (IsRegion s) := inferInstanceAs (Decidable (_ ∧ _))

namespace LanguageRange

variable (r : LanguageRange)

/-- The two-letter region subtag.  A language has at least two letters, one of two or three
may be extended. -/
def region : Option (List Char) :=
  if r.language.length < 2 then none
  else
    let rest := if r.language.length ≤ 3 then dropExtlangs 3 r.subtags else r.subtags
    (dropScript rest).head?.filter fun s => decide (IsRegion s)

/-- The default country of the language. -/
def defaultCountry : Option String :=
  langDefaultCountry.lookup (lower u (String.ofList r.language))

/-- The country that the range stands for. -/
def country : Option String :=
  match r.region with
  | some s => some (upper u (String.ofList s))
  | none => r.defaultCountry u

end LanguageRange

/-- The locale that `_resolve_pricing_country` reads. -/
def Request.locale (req : Request) (user : Option UserPreferences) : Option String :=
  orElse (user.bind fun p => if p.preferredLocale = "" then none else some p.preferredLocale)
    req.acceptLanguage

/-- The first range is read right, and nobody who picks no country is priced in another than
the range stands for. -/
structure AcceptLanguage.ReadRight (v : AcceptLanguage) : Prop where
  country : countryFromLocale u (some v.text) = v.first.country u
  priced : ∀ (req : Request) (user : Option UserPreferences) (c x : String),
    truthy req.queryCountry = false → req.locale user = some v.text →
      resolvePricingCountry u req user = .ok (some c) → v.first.country u = some x → c = x

/-- A bare language has no weight, or no default country; a second subtag of two letters,
which no weight follows, comes after a language; and otherwise the region, if there is
one, is in the default country of its language. -/
def AcceptLanguage.InPlace (v : AcceptLanguage) : Prop :=
  match v.first.subtags with
  | [] => v.weight = none ∨ v.first.defaultCountry u = none
  | s :: rest =>
    if IsRegion s ∧ (rest ≠ [] ∨ v.weight = none) then 2 ≤ v.first.language.length
    else ∀ region, v.first.region = some region →
      v.first.defaultCountry u = some (upper u (String.ofList region))

/-! ### Characters -/

/-- A character of a language or a subtag: no whitespace, and none that the function cuts at. -/
structure InWord (c : Char) : Prop where
  ascii : isAscii c = true
  not_space : isAsciiSpace c = false
  not_comma : c ≠ ','
  not_hyphen : c ≠ '-'
  not_underscore : c ≠ '_'

theorem inWord_of_isAlphanum {c : Char} (h : c.isAlphanum = true) : InWord c := by
  have hrange : ((65 ≤ c.toNat ∧ c.toNat ≤ 90) ∨ (97 ≤ c.toNat ∧ c.toNat ≤ 122)) ∨
      (48 ≤ c.toNat ∧ c.toNat ≤ 57) := by
    rcases (Bool.or_eq_true _ _).mp h with halpha | hdigit
    · left
      rcases (Bool.or_eq_true _ _).mp halpha with hupper | hlower
      · exact Or.inl (of_decide_eq_true hupper)
      · obtain ⟨hfirst, hlast⟩ := (Bool.and_eq_true _ _).mp hlower
        exact Or.inr ⟨of_decide_eq_true hfirst, of_decide_eq_true hlast⟩
    · obtain ⟨hfirst, hlast⟩ := (Bool.and_eq_true _ _).mp hdigit
      exact Or.inr ⟨of_decide_eq_true hfirst, of_decide_eq_true hlast⟩
  refine ⟨?_, ?_, ?_, ?_, ?_⟩
  · simp only [isAscii, decide_eq_true_eq]
    omega
  · simp only [isAsciiSpace, Bool.or_eq_false_iff, Bool.and_eq_false_iff,
      decide_eq_false_iff_not]
    omega
  · rintro rfl
    revert h
    decide
  · rintro rfl
    revert h
    decide
  · rintro rfl
    revert h
    decide

theorem inWord_of_isAlpha {c : Char} (h : c.isAlpha = true) : InWord c :=
  inWord_of_isAlphanum (by simp [Char.isAlphanum, h])

theorem InWord.isSpace {c : Char} (h : InWord c) : isSpace u c = false := by
  simp [PyStr.isSpace, h.ascii, h.not_space]

theorem isSpace_of_blank {c : Char} (h : c = ' ' ∨ c = '\t') : isSpace u c = true := by
  rcases h with rfl | rfl <;> rfl

/-- The test of the function for a region. -/
theorem isAlpha_and_length_iff {s : List Char} (h : ∀ c ∈ s, isAscii c = true) :
    (decide ((String.ofList s).length = 2) && isAlpha u (String.ofList s)) = true ↔
      IsRegion s := by
  rw [Bool.and_eq_true, decide_eq_true_eq, String.length_ofList]
  refine and_congr_right fun hlength => ?_
  have hne : s ≠ [] := by
    rintro rfl
    simp at hlength
  have hcongr : ∀ c ∈ s, ((if isAscii c then c.isAlpha else u.isAlpha c) = true ↔
      c.isAlpha = true) := by
    intro c hc
    rw [h c hc]
    simp
  simp only [isAlpha, String.toList_ofList, Bool.and_eq_true, Bool.not_eq_true',
    List.isEmpty_eq_false_iff, List.all_eq_true]
  constructor
  · exact fun hall c hc => (hcongr c hc).mp (hall.2 c hc)
  · exact fun hall => ⟨hne, fun c hc => (hcongr c hc).mpr (hall c hc)⟩

/-! ### Words -/

namespace LanguageRange

variable (r : LanguageRange)

theorem language_inWord : ∀ c ∈ r.language, InWord c := by
  intro c hc
  rcases r.wellFormed with ⟨hstar, -⟩ | ⟨⟨-, -, halpha⟩, -⟩
  · rw [hstar] at hc
    obtain rfl := List.mem_singleton.mp hc
    constructor <;> decide
  · exact inWord_of_isAlpha (halpha c hc)

theorem language_ne_nil : r.language ≠ [] := by
  rcases r.wellFormed with ⟨hstar, -⟩ | ⟨⟨hlength, -⟩, -⟩
  · simp [hstar]
  · exact List.ne_nil_of_length_pos hlength

theorem subtags_isSubtag : ∀ s ∈ r.subtags, IsSubtag s := by
  rcases r.wellFormed with ⟨-, hnil⟩ | ⟨-, h⟩
  · simp [hnil]
  · exact h

theorem subtag_inWord {s : List Char} (hs : s ∈ r.subtags) : ∀ c ∈ s, InWord c := fun c hc =>
  inWord_of_isAlphanum ((r.subtags_isSubtag s hs).2.2 c hc)

theorem text_not_comma : ∀ c ∈ r.text, c ≠ ',' := by
  intro c hc
  rcases List.mem_append.mp hc with hc | hc
  · exact (r.language_inWord c hc).not_comma
  · obtain ⟨s, hs, hc⟩ := List.mem_flatMap.mp hc
    rcases List.mem_cons.mp hc with rfl | hc
    · decide
    · exact (r.subtag_inWord hs c hc).not_comma

/-- The text of a range begins and ends in a word. -/
theorem text_head : ∃ a, r.text.head? = some a ∧ InWord a := by
  obtain ⟨a, w, hw⟩ := List.exists_cons_of_ne_nil r.language_ne_nil
  refine ⟨a, by simp [text, hw], r.language_inWord a ?_⟩
  rw [hw]
  exact List.mem_cons_self ..

theorem text_getLast : ∃ b, r.text.getLast? = some b ∧ InWord b := by
  rcases List.eq_nil_or_concat' r.subtags with hnil | ⟨init, s, hs⟩
  · refine ⟨r.language.getLast r.language_ne_nil, ?_, r.language_inWord _ (List.getLast_mem _)⟩
    simp [text, hnil, List.getLast?_eq_getLast_of_ne_nil r.language_ne_nil]
  · have hmem : s ∈ r.subtags := by
      rw [hs]
      exact List.mem_append_right _ (List.mem_singleton.mpr rfl)
    have hne : s ≠ [] := List.ne_nil_of_length_pos (r.subtags_isSubtag s hmem).1
    refine ⟨s.getLast hne, ?_, r.subtag_inWord hmem _ (List.getLast_mem _)⟩
    have htext : r.text
        = (r.language ++ (init.flatMap fun s => '-' :: s) ++ ['-']) ++ s := by
      simp [text, hs]
    rw [htext, List.getLast?_append_of_ne_nil _ hne, List.getLast?_eq_getLast_of_ne_nil hne]

end LanguageRange

namespace Weight

variable (w : Weight)

theorem mem_text {c : Char} (hc : c ∈ w.text) :
    (c = ' ' ∨ c = '\t') ∨ c = ';' ∨ c = 'q' ∨ c = 'Q' ∨ c = '=' ∨ c.isDigit = true ∨ c = '.' := by
  have hname := w.name
  simp only [text, List.mem_append, List.mem_cons] at hc
  rcases hc with hc | rfl | hc | rfl | rfl | hc
  · exact Or.inl (w.blank c (List.mem_append_left _ hc))
  · simp
  · exact Or.inl (w.blank c (List.mem_append_right _ hc))
  · tauto
  · simp
  · have := w.digits c hc
    tauto

/-- The function cuts nothing off a weight. -/
theorem text_chars {c : Char} (hc : c ∈ w.text) :
    isAscii c = true ∧ c ≠ ',' ∧ c ≠ '-' ∧ c ≠ '_' := by
  rcases w.mem_text hc with (rfl | rfl) | rfl | rfl | rfl | rfl | hdigit | rfl
  · decide
  · decide
  · decide
  · decide
  · decide
  · decide
  · have hword := inWord_of_isAlphanum (c := c) (by simp [Char.isAlphanum, hdigit])
    exact ⟨hword.ascii, hword.not_comma, hword.not_hyphen, hword.not_underscore⟩
  · decide

theorem semicolon_mem : ';' ∈ w.text := by
  simp [text]

theorem text_getLast : ∃ b, w.text.getLast? = some b ∧ isSpace u b = false := by
  refine ⟨w.value.getLast w.value_ne, ?_, ?_⟩
  · have htext : w.text = (w.before ++ ';' :: (w.after ++ [w.q, '='])) ++ w.value := by
      simp [text]
    rw [htext, List.getLast?_append_of_ne_nil _ w.value_ne,
      List.getLast?_eq_getLast_of_ne_nil w.value_ne]
  · rcases w.digits _ (List.getLast_mem w.value_ne) with h | h
    · exact (inWord_of_isAlphanum (by simp [Char.isAlphanum, h])).isSpace u
    · rw [h]
      rfl

end Weight

/-! ### What the function reads -/

/-- The parts of a range: the text after it goes with its last subtag. -/
def rangeParts : List Char → List (List Char) → List Char → List (List Char)
  | w, [], rest => [w ++ rest]
  | w, s :: subtags, rest => w :: rangeParts s subtags rest

theorem splitChars_range {w rest : List Char} {subtags : List (List Char)}
    (hw : ∀ c ∈ w, c ≠ '-' ∧ c ≠ '_') (hsubtags : ∀ s ∈ subtags, ∀ c ∈ s, c ≠ '-' ∧ c ≠ '_')
    (hrest : ∀ c ∈ rest, c ≠ '-' ∧ c ≠ '_') :
    splitChars (fun c => c = '-' || c = '_') (w ++ (subtags.flatMap fun s => '-' :: s) ++ rest)
      = rangeParts w subtags rest := by
  induction subtags generalizing w with
  | nil =>
    rw [List.flatMap_nil, List.append_nil]
    refine splitChars_of_forall fun c hc => ?_
    have hc' := (List.mem_append.mp hc).elim (hw c) (hrest c)
    simp [hc'.1, hc'.2]
  | cons s subtags ih =>
    have htext : w ++ ((s :: subtags).flatMap fun s => '-' :: s) ++ rest
        = w ++ '-' :: (s ++ (subtags.flatMap fun s => '-' :: s) ++ rest) := by
      simp
    rw [htext, splitChars_append_cons _ (fun c hc => ?_) (by simp),
      ih (hsubtags s (List.mem_cons_self ..)) fun x hx => hsubtags x (List.mem_cons_of_mem _ hx)]
    · rfl
    · simp [(hw c hc).1, (hw c hc).2]

namespace AcceptLanguage

variable (v : AcceptLanguage)

theorem weightText_chars {c : Char} (hc : c ∈ v.weightText) :
    isAscii c = true ∧ c ≠ ',' ∧ c ≠ '-' ∧ c ≠ '_' := by
  unfold weightText at hc
  rcases hw : v.weight with - | w <;> rw [hw] at hc
  · cases hc
  · exact w.text_chars hc

/-- The range up to its comma. -/
theorem split_text :
    (split (· = ',') v.text).headD ""
      = String.ofList (v.first.text ++ v.weightText ++ v.spaces) := by
  have hcomma : ∀ c ∈ v.first.text ++ v.weightText ++ v.spaces, decide (c = ',') = false := by
    intro c hc
    rw [decide_eq_false_iff_not]
    rcases List.mem_append.mp hc with hc | hc
    · rcases List.mem_append.mp hc with hc | hc
      · exact v.first.text_not_comma c hc
      · exact (v.weightText_chars hc).2.1
    · rcases v.blank c hc with rfl | rfl <;> decide
  unfold split text
  rw [String.toList_ofList]
  rcases v.others with - | others
  · rw [Option.map_none, Option.getD_none, List.append_nil, splitChars_of_forall hcomma]
    rfl
  · rw [Option.map_some, Option.getD_some, splitChars_append_cons _ hcomma (by simp)]
    rfl

/-- The range as it is when it has been stripped. -/
theorem strip_range :
    strip u (String.ofList (v.first.text ++ v.weightText ++ v.spaces))
      = String.ofList (v.first.text ++ v.weightText) := by
  obtain ⟨a, ha, hword⟩ := v.first.text_head
  have hhead : (v.first.text ++ v.weightText).head? = some a := by
    rw [List.head?_append, ha]
    rfl
  have hlast : ∃ b, (v.first.text ++ v.weightText).getLast? = some b ∧ isSpace u b = false := by
    obtain ⟨b, hb, hwordb⟩ := v.first.text_getLast
    unfold weightText
    rcases v.weight with - | w
    · exact ⟨b, by simpa using hb, hwordb.isSpace u⟩
    · obtain ⟨x, hx, hspace⟩ := w.text_getLast u
      refine ⟨x, ?_, hspace⟩
      rw [Option.map_some, Option.getD_some, List.getLast?_append, hx]
      rfl
  obtain ⟨b, hb, hspace⟩ := hlast
  exact strip_append_spaces u hhead (hword.isSpace u) hb hspace fun c hc =>
    isSpace_of_blank u (v.blank c hc)

theorem split_range :
    split (fun c => c = '-' || c = '_') (String.ofList (v.first.text ++ v.weightText))
      = (rangeParts v.first.language v.first.subtags v.weightText).map String.ofList := by
  unfold split LanguageRange.text
  rw [String.toList_ofList, splitChars_range]
  · exact fun c hc => ⟨(v.first.language_inWord c hc).not_hyphen,
      (v.first.language_inWord c hc).not_underscore⟩
  · exact fun s hs c hc => ⟨(v.first.subtag_inWord hs c hc).not_hyphen,
      (v.first.subtag_inWord hs c hc).not_underscore⟩
  · exact fun c hc => (v.weightText_chars hc).2.2

theorem text_ne_empty : v.text ≠ "" := by
  obtain ⟨a, w, hw⟩ := List.exists_cons_of_ne_nil v.first.language_ne_nil
  intro h
  have := congrArg String.toList h
  simp [text, LanguageRange.text, hw] at this

end AcceptLanguage

/-- The end of `_country_from_locale`, from `parts` on. -/
def countryOfParts : List String → Option String
  | lang :: region :: _ =>
    if region.length = 2 && isAlpha u region then some (upper u region)
    else langDefaultCountry.lookup (lower u lang)
  | [lang] => langDefaultCountry.lookup (lower u lang)
  | [] => none

theorem countryFromLocale_some {l : String} (h : l ≠ "") :
    countryFromLocale u (some l) = countryOfParts u
      (split (fun c => c = '-' || c = '_') (strip u ((split (· = ',') l).headD ""))) := by
  unfold countryFromLocale
  split
  case h_1 heq => cases heq
  case h_2 heq => exact absurd (Option.some.inj heq) h
  case h_3 heq =>
    obtain rfl := Option.some.inj heq
    dsimp only
    generalize split (fun c => c = '-' || c = '_') (strip u ((split (· = ',') l).headD "")) = parts
    rcases parts with - | ⟨lang, - | ⟨region, rest⟩⟩
    · rfl
    · rfl
    · rfl

theorem AcceptLanguage.countryFromLocale_text (v : AcceptLanguage) :
    countryFromLocale u (some v.text) = countryOfParts u
      ((rangeParts v.first.language v.first.subtags v.weightText).map String.ofList) := by
  rw [countryFromLocale_some u v.text_ne_empty, v.split_text, v.strip_range, v.split_range]

/-! ### Default countries -/

/-- The languages that have a default country. -/
theorem lookup_langDefaultCountry {lang country : String}
    (h : langDefaultCountry.lookup lang = some country) :
    lang.length = 2 ∧ ';' ∉ lang.toList ∧ country ≠ "" := by
  obtain ⟨l₁, l₂, heq, -⟩ := List.lookup_eq_some_iff.mp h
  have hmem : (lang, country) ∈ langDefaultCountry := by
    rw [heq]
    exact List.mem_append_right _ (List.mem_cons_self ..)
  have hall : ∀ entry ∈ langDefaultCountry,
      entry.1.length = 2 ∧ ';' ∉ entry.1.toList ∧ entry.2 ≠ "" := by decide
  exact hall _ hmem

/-- A language with a weight behind it is in no table. -/
theorem lookup_weighted {cs : List Char} (h : ';' ∈ cs) :
    langDefaultCountry.lookup (lower u (String.ofList cs)) = none := by
  refine Option.eq_none_iff_forall_ne_some.mpr fun country hcountry => ?_
  refine (lookup_langDefaultCountry hcountry).2.1 ?_
  have hmem : ';' ∈ (String.ofList cs).toList := by rwa [String.toList_ofList]
  exact mem_lower u (c := ';') (by decide) hmem

theorem LanguageRange.length_of_defaultCountry {r : LanguageRange} {country : String}
    (h : r.defaultCountry u = some country) : r.language.length = 2 := by
  have hlength := (lookup_langDefaultCountry h).1
  rw [length_lower, String.length_ofList] at hlength
  · exact hlength
  · intro c hc
    rw [String.toList_ofList] at hc
    exact (r.language_inWord c hc).ascii

/-! ### The region -/

theorem dropExtlangs_of_isRegion {s : List Char} {rest : List (List Char)} (h : IsRegion s)
    (n : Nat) : dropExtlangs n (s :: rest) = s :: rest := by
  cases n with
  | zero => rfl
  | succ n => simp [dropExtlangs, h.1]

/-- A second subtag of two letters is the region. -/
theorem LanguageRange.region_of_isRegion {r : LanguageRange} {s : List Char}
    {rest : List (List Char)} (hsubtags : r.subtags = s :: rest) (hs : IsRegion s)
    (hlanguage : 2 ≤ r.language.length) : r.region = some s := by
  unfold region
  rw [if_neg (by omega), hsubtags, dropExtlangs_of_isRegion hs]
  simp [dropScript, hs.1, hs]

theorem LanguageRange.country_of_short {r : LanguageRange} (h : r.language.length < 2) :
    r.country u = none := by
  unfold country region
  rw [if_pos h]
  refine Option.eq_none_iff_forall_ne_some.mpr fun x hx => ?_
  have := length_of_defaultCountry u hx
  omega

/-! ### What is read -/

namespace AcceptLanguage

variable (v : AcceptLanguage)

theorem weightText_of_none {v : AcceptLanguage} (h : v.weight = none) : v.weightText = [] := by
  simp [weightText, h]

theorem semicolon_mem_weightText {v : AcceptLanguage} (h : v.weight ≠ none) :
    ';' ∈ v.weightText := by
  obtain ⟨w, hw⟩ := Option.ne_none_iff_exists'.mp h
  simpa [weightText, hw] using w.semicolon_mem

/-- A subtag with a weight behind it is no region. -/
theorem not_isRegion_weighted {v : AcceptLanguage} (h : v.weight ≠ none) (s : List Char) :
    ¬ IsRegion (s ++ v.weightText) := by
  rintro ⟨-, halpha⟩
  have := halpha ';' (List.mem_append_right _ (semicolon_mem_weightText h))
  revert this
  decide

theorem countryFromLocale_bare (h : v.first.subtags = []) :
    countryFromLocale u (some v.text)
      = if v.weight = none then v.first.defaultCountry u else none := by
  rw [v.countryFromLocale_text, h]
  show langDefaultCountry.lookup (lower u (String.ofList (v.first.language ++ v.weightText))) = _
  split
  case isTrue hnone =>
    rw [weightText_of_none hnone, List.append_nil]
    rfl
  case isFalse hsome =>
    exact lookup_weighted u (List.mem_append_right _ (semicolon_mem_weightText hsome))

/-- The subtag that the function looks at, and what it makes of it. -/
theorem countryFromLocale_cons {s : List Char} {rest : List (List Char)}
    (h : v.first.subtags = s :: rest) :
    countryFromLocale u (some v.text)
      = if IsRegion s ∧ (rest ≠ [] ∨ v.weight = none) then some (upper u (String.ofList s))
        else v.first.defaultCountry u := by
  have hs : s ∈ v.first.subtags := h ▸ List.mem_cons_self ..
  have hascii : ∀ c ∈ s, isAscii c = true := fun c hc => (v.first.subtag_inWord hs c hc).ascii
  rw [v.countryFromLocale_text, h]
  rcases rest with - | ⟨s', rest⟩
  · -- the weight goes with the subtag
    show (if decide ((String.ofList (s ++ v.weightText)).length = 2)
      && isAlpha u (String.ofList (s ++ v.weightText)) then _ else _) = _
    have hasciiW : ∀ c ∈ s ++ v.weightText, isAscii c = true := fun c hc =>
      (List.mem_append.mp hc).elim (hascii c) fun hc => (v.weightText_chars hc).1
    rw [if_congr (isAlpha_and_length_iff u hasciiW) rfl rfl]
    by_cases hw : v.weight = none
    · simp only [weightText_of_none hw, List.append_nil, hw, or_true, and_true]
      rfl
    · rw [if_neg (not_isRegion_weighted hw s), if_neg (by simp [hw])]
      rfl
  · show (if decide ((String.ofList s).length = 2) && isAlpha u (String.ofList s) then _ else _) = _
    rw [if_congr (isAlpha_and_length_iff u hascii) rfl rfl]
    simp only [ne_eq, reduceCtorEq, not_false_eq_true, true_or, and_true]
    rfl

/-- The function reads the country of the first range exactly when it is in place. -/
theorem countryFromLocale_eq_iff :
    countryFromLocale u (some v.text) = v.first.country u ↔ v.InPlace u := by
  unfold InPlace
  split
  case h_1 hnil =>
    have hcountry : v.first.country u = v.first.defaultCountry u := by
      have hregion : v.first.region = none := by
        unfold LanguageRange.region
        rw [hnil]
        split
        · rfl
        · split <;> rfl
      simp [LanguageRange.country, hregion]
    rw [v.countryFromLocale_bare u hnil, hcountry]
    split
    case isTrue hw => exact iff_of_true rfl (Or.inl hw)
    case isFalse hw =>
      constructor
      · exact fun h => Or.inr h.symm
      · exact fun h => (h.resolve_left hw).symm
  case h_2 s rest hcons =>
    rw [v.countryFromLocale_cons u hcons]
    split
    case isTrue hread =>
      by_cases hlanguage : 2 ≤ v.first.language.length
      · refine iff_of_true ?_ hlanguage
        simp [LanguageRange.country, LanguageRange.region_of_isRegion hcons hread.1 hlanguage]
      · refine iff_of_false ?_ hlanguage
        rw [LanguageRange.country_of_short u (by omega)]
        simp
    case isFalse hread =>
      unfold LanguageRange.country
      rcases hregion : v.first.region with - | region
      · exact iff_of_true rfl fun region h => by cases h
      · constructor
        · rintro h region' hregion'
          cases hregion'
          exact h
        · exact fun h => h region rfl

end AcceptLanguage

/-! ### What is priced -/

/-- A range stands for no country without a name. -/
theorem LanguageRange.country_ne_empty {r : LanguageRange} {x : String}
    (h : r.country u = some x) : x ≠ "" := by
  unfold country at h
  rcases hregion : r.region with - | s <;> rw [hregion] at h
  · exact (lookup_langDefaultCountry h).2.2
  · obtain rfl := Option.some.inj h
    have hs : IsRegion s := by
      unfold region at hregion
      split at hregion
      · cases hregion
      · exact of_decide_eq_true (Option.filter_eq_some_iff.mp hregion).2
    obtain ⟨c, t, rfl⟩ : ∃ c t, s = c :: t := by
      rcases s with - | ⟨c, t⟩
      · simp [IsRegion] at hs
      · exact ⟨c, t, rfl⟩
    have hc := (inWord_of_isAlpha (hs.2 c (List.mem_cons_self ..))).ascii
    intro hempty
    have := congrArg String.toList hempty
    simp [upper, hc] at this

/-- Where no country is picked, the country of the locale is priced. -/
theorem resolvePricingCountry_of_locale {req : Request} {user : Option UserPreferences} {x : String}
    (hquery : truthy req.queryCountry = false)
    (h : countryFromLocale u (req.locale user) = some x) (hx : x ≠ "") :
    resolvePricingCountry u req user = .ok (some x) := by
  have htruthy : truthy (some x) = true := by
    rw [truthy_some]
    exact decide_eq_true hx
  unfold Request.locale at h
  unfold resolvePricingCountry
  simp [hquery, h, htruthy]

/-- **The country of a locale.**  The country of the first language range is derived, and
no visitor is priced in another, exactly when the range is in place. -/
theorem country_from_locale_iff (u : UnicodeTables) (v : AcceptLanguage) :
    v.ReadRight u ↔ v.InPlace u := by
  rw [← v.countryFromLocale_eq_iff u]
  constructor
  · exact fun h => h.country
  · intro hread
    refine ⟨hread, fun req user c x hquery hlocale hpriced hx => ?_⟩
    have hderived : countryFromLocale u (req.locale user) = some x := by
      rw [hlocale, hread, hx]
    rw [resolvePricingCountry_of_locale u hquery hderived
      (LanguageRange.country_ne_empty u hx)] at hpriced
    exact (Option.some.inj (Except.ok.inj hpriced)).symm

/-- Chinese in traditional script as in Taiwan. -/
def zhHantTW : AcceptLanguage where
  first := ⟨"zh".toList, ["Hant".toList, "TW".toList], Or.inr (by decide)⟩
  weight := none
  spaces := []
  others := none
  blank _ h := by cases h

/-- The weight 0.9. -/
def ninety : Weight where
  before := []
  after := []
  q := 'q'
  value := "0.9".toList
  blank _ h := by cases h
  name := Or.inl rfl
  value_ne := by decide
  digits := by decide

/-- Spanish as in Mexico, with a weight, and then English. -/
def esMX : AcceptLanguage where
  first := ⟨"es".toList, ["MX".toList], Or.inr (by decide)⟩
  weight := some ninety
  spaces := []
  others := some "en;q=0.8".toList
  blank _ h := by cases h

/-- A region behind a script, or before a weight, is not read, and another country is
priced. -/
theorem region_not_read :
    (zhHantTW.text = "zh-Hant-TW" ∧ zhHantTW.first.country asciiTables = some "TW" ∧
      resolvePricingCountry asciiTables ⟨none, none, some "zh-Hant-TW", none⟩ none
        = .ok (some "CN") ∧ ¬ zhHantTW.ReadRight asciiTables) ∧
    (esMX.text = "es-MX;q=0.9,en;q=0.8" ∧ esMX.first.country asciiTables = some "MX" ∧
      resolvePricingCountry asciiTables ⟨none, none, some "es-MX;q=0.9,en;q=0.8", none⟩ none
        = .ok (some "ES") ∧ ¬ esMX.ReadRight asciiTables) := by
  refine ⟨⟨by decide, by decide, by decide, fun h => ?_⟩, by decide, by decide, by decide,
    fun h => ?_⟩
  · have := h.country
    revert this
    decide
  · have := h.country
    revert this
    decide

end Saasmint
