/-
Saasmint/Orgs/Slugs.lean

`generate_unique_slug` (apps/orgs/services.py), with its scan for the variants
of a base that are in use and the loop over the suffixes.

The loop ends at the first free suffix, whatever slugs there are
(`generateUniqueSlugLoop_eq`), and what it returns is free and has the form of a
slug.  Nothing bounds its length: the framework's `slugify` may lengthen a name
and a suffix lengthens its base.  The slug fits its column exactly when one of
the form that the function tries fits and is free (`unique_slug_iff`).
-/
import Mathlib.Data.List.DropRight
import Saasmint.Orgs.Events

namespace Saasmint

open PyStr

/-! ### The framework's `slugify` -/

/-- The characters that `re.sub(r"[^\w\s-]", "", value)` leaves of ASCII text. -/
def isSlugText (c : Char) : Bool := c.isAlphanum || c = '_' || isAsciiSpace c || c = '-'

/-- `re.sub(r"[-\s]+", "-", value)`; `inRun` says that the run has its hyphen. -/
def collapseRuns : Bool → List Char → List Char
  | _, [] => []
  | inRun, c :: cs =>
    if c = '-' || isAsciiSpace c then
      if inRun then collapseRuns true cs else '-' :: collapseRuns true cs
    else c :: collapseRuns false cs

/-- `value.strip("-_")`. -/
def stripHyphens (cs : List Char) : List Char :=
  let cut (c : Char) : Bool := c = '-' || c = '_'
  ((cs.dropWhile cut).reverse.dropWhile cut).reverse

/-- `slugify(value)` of the framework; `nfkd` is `unicodedata.normalize`. -/
def frameworkSlugify (nfkd : String → String) (value : String) : String :=
  let ascii := ((nfkd value).toList.filter isAscii).map Char.toLower
  String.ofList (stripHyphens (collapseRuns false (ascii.filter isSlugText)))

/-! ### The scan and the loop -/

/-- `(?:-\d+)?`; `digit` is `\d`. -/
def isSuffix (digit : Char → Bool) : List Char → Bool
  | [] => true
  | c :: cs => c = '-' && !cs.isEmpty && cs.all digit

/-- `_suffix_re.match(slug)`; its `$` also matches before a last newline. -/
def isVariant (digit : Char → Bool) (base slug : String) : Bool :=
  let rest := slug.toList.drop base.length
  base.toList.isPrefixOf slug.toList &&
    (isSuffix digit rest || rest.getLast? = some '\n' && isSuffix digit rest.dropLast)

/-- The set `existing`, of the slugs in use. -/
def existingVariants (digit : Char → Bool) (base : String) (taken : List String) : List String :=
  -- `slug__startswith`
  (taken.filter fun slug => base.toList.isPrefixOf slug.toList).filter (isVariant digit base)

/-- `generate_unique_slug`, its loop cut off after `fuel` rounds. -/
def generateUniqueSlugLoop (slugify : String → String) (digit : Char → Bool) (taken : List String)
    (name : String) (fuel : Nat) : Option String :=
  let base := slugBase slugify name
  let existing := existingVariants digit base taken
  if base ∉ existing then some base
  else (Loops.countWhile (fun n => suffixedSlug base n ∈ existing) fuel 2).map (suffixedSlug base)

/-! ### What is claimed -/

/-- `[a-z0-9]`. -/
def isSlugChar (c : Char) : Bool := ('a' ≤ c && c ≤ 'z') || ('0' ≤ c && c ≤ '9')

/-- The text matches `[a-z0-9][a-z0-9-]*[a-z0-9]`. -/
def IsSlug (s : String) : Prop :=
  ∃ first middle last, s.toList = first :: (middle ++ [last]) ∧ isSlugChar first = true ∧
    isSlugChar last = true ∧ ∀ c ∈ middle, isSlugChar c = true ∨ c = '-'

/-- However long the loop may run, it ends with a slug that is not in use. -/
def EndsFresh (slugify : String → String) (digit : Char → Bool) (taken : List String)
    (name slug : String) : Prop :=
  (∃ rounds, ∀ fuel ≥ rounds, generateUniqueSlugLoop slugify digit taken name fuel = some slug) ∧
    slug ∉ taken ∧ IsSlug slug

/-- One of the slugs that are tried for the name fits the column and is not in use: the
base where it is free, the base with some number from 2 on where it is not. -/
def SlugFits (slugify : String → String) (taken : List String) (name : String) : Prop :=
  if slugBase slugify name ∈ taken then
    ∃ n ≥ 2, suffixedSlug (slugBase slugify name) n ∉ taken ∧
      (suffixedSlug (slugBase slugify name) n).length ≤ maxOrgText
  else (slugBase slugify name).length ≤ maxOrgText

/-! ### The loop ends -/

variable {slugify : String → String} {digit : Char → Bool} {taken : List String} {name : String}

theorem toList_suffixedSlug (base : String) (n : Nat) :
    (suffixedSlug base n).toList = base.toList ++ '-' :: Nat.toDigits 10 n := by
  simp [suffixedSlug, Nat.toString_eq_repr, Nat.toList_repr]

theorem isVariant_base (digit : Char → Bool) (base : String) :
    isVariant digit base base = true := by
  have hdrop : base.toList.drop base.length = [] := by
    rw [← String.length_toList, List.drop_length]
  simp [isVariant, hdrop, isSuffix]

theorem isVariant_suffixedSlug (hdigit : ∀ c, c.isDigit = true → digit c = true) (base : String)
    (n : Nat) : isVariant digit base (suffixedSlug base n) = true := by
  have hall : (Nat.toDigits 10 n).all digit = true := by
    refine List.all_eq_true.mpr fun c hc => hdigit c ?_
    exact Nat.isDigit_of_mem_toDigits (by decide) (by decide) hc
  have hdrop : (suffixedSlug base n).toList.drop base.length = '-' :: Nat.toDigits 10 n := by
    rw [toList_suffixedSlug, ← String.length_toList, List.drop_left]
  have hinit : base.toList.isPrefixOf (suffixedSlug base n).toList = true := by
    rw [toList_suffixedSlug, List.isPrefixOf_iff_prefix]
    exact List.prefix_append _ _
  simp only [isVariant, hinit, hdrop]
  simp [isSuffix, hall, Nat.toDigits_ne_nil]

/-- The scan misses none of the slugs that the function tries. -/
theorem mem_existingVariants {base slug : String} (h : isVariant digit base slug = true) :
    slug ∈ existingVariants digit base taken ↔ slug ∈ taken := by
  have hinit : base.toList.isPrefixOf slug.toList = true := by
    unfold isVariant at h
    simp only [Bool.and_eq_true] at h
    exact h.1
  unfold existingVariants
  simp [h, hinit]

/-- The loop ends with the slug that the search over the first numbers finds. -/
theorem generateUniqueSlugLoop_eq (hdigit : ∀ c, c.isDigit = true → digit c = true) {fuel : Nat}
    (hfuel : taken.length < fuel) :
    generateUniqueSlugLoop slugify digit taken name fuel
      = some (generateUniqueSlug slugify taken name) := by
  unfold generateUniqueSlugLoop
  simp only [mem_existingVariants (isVariant_base digit _),
    mem_existingVariants (isVariant_suffixedSlug hdigit _ _)]
  by_cases h : slugBase slugify name ∈ taken
  · obtain ⟨k, hk, heq, hfree, hbefore⟩ := generateUniqueSlug_of_taken h
    have hloop : Loops.countWhile
        (fun n => decide (suffixedSlug (slugBase slugify name) n ∈ taken)) fuel 2
          = some (k + 2) := by
      refine Loops.countWhile_eq_some (by omega) (by omega) (fun n hn hlt => ?_) (by simpa)
      have := hbefore (n - 2) (by omega)
      rw [Nat.sub_add_cancel hn] at this
      exact decide_eq_true this
    rw [if_neg (not_not_intro h), hloop, heq]
    rfl
  · rw [if_pos h, generateUniqueSlug_of_free h]

/-! ### The form of a slug -/

theorem isSlugChar_of_isDigit {c : Char} (h : c.isDigit = true) : isSlugChar c = true := by
  have hrange : '0' ≤ c ∧ c ≤ '9' := by simpa [Char.isDigit, Char.le_def] using h
  simp [isSlugChar, hrange]

/-- The base has the form of a slug. -/
theorem isSlug_slugBase (slugify : String → String) (name : String) :
    IsSlug (slugBase slugify name) := by
  unfold slugBase
  dsimp only
  generalize hchars : List.filter _ (slugify name).toList = chars
  split
  case isTrue => exact ⟨'o', ['r'], 'g', rfl, rfl, rfl, by simp [isSlugChar]⟩
  case isFalse hlong =>
    set hyphen : Char → Bool := fun c => decide (c = '-')
    -- `strip` cuts the hyphens off at both ends
    have hstrip : ((chars.dropWhile hyphen).reverse.dropWhile hyphen).reverse
        = (chars.dropWhile hyphen).rdropWhile hyphen := rfl
    rw [hstrip] at hlong ⊢
    generalize hbase : (chars.dropWhile hyphen).rdropWhile hyphen = base at hlong
    have hinit : base <+: chars.dropWhile hyphen := hbase ▸ List.rdropWhile_prefix hyphen _
    have hallowed : ∀ c ∈ base, isSlugChar c = true ∨ c = '-' := by
      intro c hc
      have hmem : c ∈ chars := (List.dropWhile_sublist hyphen).subset (hinit.subset hc)
      rw [← hchars, List.mem_filter] at hmem
      simpa [isSlugChar, or_assoc] using hmem.2
    have hne : base ≠ [] := by
      rintro rfl
      simp at hlong
    have hlast : base.getLast hne ≠ '-' := by
      have := List.rdropWhile_last_not hyphen (chars.dropWhile hyphen) (hbase ▸ hne)
      simpa [hbase, hyphen] using this
    have hfirst : base.head hne ≠ '-' := by
      have hne' : chars.dropWhile hyphen ≠ [] := by
        intro h
        exact hne (List.prefix_nil.mp (h ▸ hinit))
      have := List.head_dropWhile_not hyphen hne'
      rw [← hinit.head hne] at this
      simpa [hyphen] using this
    obtain ⟨first, rest, rfl⟩ := List.exists_cons_of_ne_nil hne
    have hrest : rest ≠ [] := by
      rintro rfl
      simp at hlong
    refine ⟨first, rest.dropLast, rest.getLast hrest, ?_, ?_, ?_, ?_⟩
    · rw [String.toList_ofList, List.dropLast_append_getLast hrest]
    · exact (hallowed first (List.mem_cons_self ..)).resolve_right hfirst
    · rw [List.getLast_cons hrest] at hlast
      exact (hallowed _ (List.mem_cons_of_mem _ (List.getLast_mem hrest))).resolve_right hlast
    · exact fun c hc => hallowed c (List.mem_cons_of_mem _ (List.dropLast_subset rest hc))

/-- A suffix keeps the form. -/
theorem IsSlug.suffixed {base : String} (h : IsSlug base) (n : Nat) :
    IsSlug (suffixedSlug base n) := by
  obtain ⟨first, middle, last, hbase, hfirst, hlast, hmiddle⟩ := h
  have hne : Nat.toDigits 10 n ≠ [] := Nat.toDigits_ne_nil
  have hdigits : ∀ c ∈ Nat.toDigits 10 n, isSlugChar c = true := fun c hc =>
    isSlugChar_of_isDigit (Nat.isDigit_of_mem_toDigits (by decide) (by decide) hc)
  refine ⟨first, middle ++ last :: '-' :: (Nat.toDigits 10 n).dropLast,
    (Nat.toDigits 10 n).getLast hne, ?_, hfirst, hdigits _ (List.getLast_mem hne), ?_⟩
  · rw [toList_suffixedSlug, hbase]
    simp [List.dropLast_append_getLast hne]
  · intro c hc
    simp only [List.mem_append, List.mem_cons] at hc
    rcases hc with hc | rfl | rfl | hc
    · exact hmiddle c hc
    · exact Or.inl hlast
    · exact Or.inr rfl
    · exact Or.inl (hdigits c (List.dropLast_subset _ hc))

/-- What the function returns is one of the slugs that it tries. -/
theorem isSlug_generateUniqueSlug (slugify : String → String) (taken : List String)
    (name : String) : IsSlug (generateUniqueSlug slugify taken name) := by
  by_cases h : slugBase slugify name ∈ taken
  · obtain ⟨k, -, heq, -, -⟩ := generateUniqueSlug_of_taken h
    rw [heq]
    exact (isSlug_slugBase slugify name).suffixed _
  · rw [generateUniqueSlug_of_free h]
    exact isSlug_slugBase slugify name

/-! ### The length of a slug -/

theorem length_suffixedSlug_eq (base : String) (n : Nat) :
    (suffixedSlug base n).length = base.length + 1 + (Nat.toDigits 10 n).length := by
  rw [← String.length_toList, toList_suffixedSlug, List.length_append, List.length_cons,
    String.length_toList]
  omega

/-- A smaller number has no more digits. -/
theorem length_toDigits_mono {m n : Nat} (h : m ≤ n) :
    (Nat.toDigits 10 m).length ≤ (Nat.toDigits 10 n).length := by
  have hpos : 0 < (Nat.toDigits 10 n).length := Nat.length_toDigits_pos
  have hn := (Nat.length_toDigits_le_iff (b := 10) (by decide) hpos).mp (Nat.le_refl _)
  exact (Nat.length_toDigits_le_iff (by decide) hpos).mpr (h.trans_lt hn)

/-- The slug fits exactly when one of those that are tried does. -/
theorem length_generateUniqueSlug_le_iff (slugify : String → String) (taken : List String)
    (name : String) :
    (generateUniqueSlug slugify taken name).length ≤ maxOrgText ↔ SlugFits slugify taken name := by
  unfold SlugFits
  split
  case isTrue h =>
    obtain ⟨k, -, heq, hfree, hbefore⟩ := generateUniqueSlug_of_taken h
    rw [heq]
    constructor
    · exact fun hle => ⟨k + 2, by omega, hfree, hle⟩
    · rintro ⟨n, hn, hnfree, hle⟩
      -- the first free number is no longer than another
      have hfirst : k + 2 ≤ n := by
        by_contra hlt
        have := hbefore (n - 2) (by omega)
        rw [Nat.sub_add_cancel hn] at this
        exact hnfree this
      have hdigits := length_toDigits_mono hfirst
      rw [length_suffixedSlug_eq] at hle ⊢
      omega
  case isFalse h => rw [generateUniqueSlug_of_free h]

/-- The loop ends, and at one slug. -/
theorem endsFresh_iff (hdigit : ∀ c, c.isDigit = true → digit c = true) {slug : String} :
    EndsFresh slugify digit taken name slug ↔ slug = generateUniqueSlug slugify taken name := by
  constructor
  · rintro ⟨⟨rounds, hloop⟩, -, -⟩
    have hmax := hloop (max rounds (taken.length + 1)) (le_max_left _ _)
    have hlong : taken.length < max rounds (taken.length + 1) := by omega
    rw [generateUniqueSlugLoop_eq hdigit hlong] at hmax
    exact (Option.some.inj hmax).symm
  · rintro rfl
    exact ⟨⟨taken.length + 1, fun fuel h => generateUniqueSlugLoop_eq hdigit (by omega)⟩,
      generateUniqueSlug_not_mem slugify taken name, isSlug_generateUniqueSlug slugify taken name⟩

/-- **The slug of a new organization.**  For every name and all slugs in use the loop ends
with a free slug of the right form, which fits its column exactly when one of those
that are tried fits and is free. -/
theorem unique_slug_iff (slugify : String → String) {digit : Char → Bool}
    (hdigit : ∀ c, c.isDigit = true → digit c = true) (taken : List String) (name : String) :
    (∃ slug, EndsFresh slugify digit taken name slug) ∧
      ((∃ slug, EndsFresh slugify digit taken name slug ∧ slug.length ≤ maxOrgText) ↔
        SlugFits slugify taken name) := by
  refine ⟨⟨_, (endsFresh_iff hdigit).mpr rfl⟩, ?_⟩
  rw [← length_generateUniqueSlug_le_iff]
  constructor
  · rintro ⟨slug, hends, hle⟩
    rwa [(endsFresh_iff hdigit).mp hends] at hle
  · exact fun hle => ⟨_, (endsFresh_iff hdigit).mpr rfl, hle⟩

theorem unique_slug_iff_acme :
    (∃ slug, EndsFresh (frameworkSlugify id) Char.isDigit ["acme"] "Acme" slug) ∧
      ((∃ slug, EndsFresh (frameworkSlugify id) Char.isDigit ["acme"] "Acme" slug ∧
          slug.length ≤ maxOrgText) ↔
        SlugFits (frameworkSlugify id) ["acme"] "Acme") :=
  unique_slug_iff _ (fun _ h => h) _ _

/-! ### Names that are too long for their slug -/

/-- A character that is left where it is. -/
structure IsPlain (c : Char) : Prop where
  ascii : isAscii c = true
  lower : c.toLower = c
  text : isSlugText c = true
  not_hyphen : c ≠ '-'
  not_underscore : c ≠ '_'
  not_space : isAsciiSpace c = false
  slug : isSlugChar c = true

theorem collapseRuns_of_plain {cs : List Char} (h : ∀ c ∈ cs, IsPlain c) (inRun : Bool) :
    collapseRuns inRun cs = cs := by
  induction cs generalizing inRun with
  | nil => rfl
  | cons c cs ih =>
    have hc := h c (List.mem_cons_self ..)
    unfold collapseRuns
    simp [hc.not_hyphen, hc.not_space, ih fun x hx => h x (List.mem_cons_of_mem _ hx)]

/-- What is plain is its own slug. -/
theorem frameworkSlugify_of_plain {nfkd : String → String} {value : String} {cs : List Char}
    (hvalue : (nfkd value).toList = cs) (h : ∀ c ∈ cs, IsPlain c) :
    frameworkSlugify nfkd value = String.ofList cs := by
  have hascii : cs.filter isAscii = cs := List.filter_eq_self.mpr fun c hc => (h c hc).ascii
  have hlower : cs.map Char.toLower = cs :=
    (List.map_congr_left fun c hc => (h c hc).lower).trans (List.map_id cs)
  have htext : cs.filter isSlugText = cs := List.filter_eq_self.mpr fun c hc => (h c hc).text
  have hcut : ∀ c ∈ cs, (decide (c = '-') || decide (c = '_')) = false := by
    intro c hc
    simp [(h c hc).not_hyphen, (h c hc).not_underscore]
  unfold frameworkSlugify
  simp only [hvalue, hascii, hlower, htext, collapseRuns_of_plain h, stripHyphens]
  rw [dropWhile_of_forall hcut, dropWhile_of_forall fun c hc => hcut c (List.mem_reverse.mp hc),
    List.reverse_reverse]

theorem slugBase_of_plain {nfkd : String → String} {value : String} {cs : List Char}
    (hvalue : (nfkd value).toList = cs) (h : ∀ c ∈ cs, IsPlain c) (hlength : 2 ≤ cs.length) :
    slugBase (frameworkSlugify nfkd) value = String.ofList cs :=
  slugBase_of_text (frameworkSlugify_of_plain hvalue h) (fun c hc => (h c hc).slug)
    (fun c hc => (h c hc).not_hyphen) hlength

/-- The ligature of f and i. -/
def fiLigature : Char := Char.ofNat 0xFB01

/-- NFKD of text whose other characters stay. -/
def ligatureNfkd (s : String) : String :=
  String.ofList (s.toList.flatMap fun c => if c = fiLigature then ['f', 'i'] else [c])

def ligatures (n : Nat) : String := String.ofList (List.replicate n fiLigature)

def letters (n : Nat) : String := String.ofList (List.replicate n 'a')

theorem slugBase_ligatures {n : Nat} (hn : 1 ≤ n) :
    slugBase (frameworkSlugify ligatureNfkd) (ligatures n)
      = String.ofList (List.replicate n ['f', 'i']).flatten := by
  refine slugBase_of_plain ?_ ?_ ?_
  · simp [ligatureNfkd, ligatures, List.flatMap_replicate]
  · intro c hc
    have hmem : c = 'f' ∨ c = 'i' := by
      obtain ⟨l, hl, hc⟩ := List.mem_flatten.mp hc
      rw [List.eq_of_mem_replicate hl] at hc
      simpa using hc
    rcases hmem with rfl | rfl
    · constructor <;> decide
    · constructor <;> decide
  · rw [List.length_flatten, List.map_replicate, List.sum_replicate]
    show 2 ≤ n * 2
    omega

theorem slugBase_letters {n : Nat} (hn : 2 ≤ n) :
    slugBase (frameworkSlugify id) (letters n) = letters n := by
  refine slugBase_of_plain (String.toList_ofList ..) ?_ (by rwa [List.length_replicate])
  intro c hc
  rw [List.eq_of_mem_replicate hc]
  constructor <;> decide

/-- The slug of 128 ligatures has 256 letters; that of 255 letters, in use, gets a suffix. -/
theorem slug_outgrows_column :
    ((ligatures 128).length ≤ 255 ∧ ¬ ∃ slug,
      EndsFresh (frameworkSlugify ligatureNfkd) Char.isDigit [] (ligatures 128) slug ∧
        slug.length ≤ maxOrgText) ∧
    ((letters 255).length ≤ 255 ∧ ¬ ∃ slug,
      EndsFresh (frameworkSlugify id) Char.isDigit [letters 255] (letters 255) slug ∧
        slug.length ≤ maxOrgText) := by
  have hligatures : (ligatures 128).length = 128 := by
    rw [ligatures, String.length_ofList, List.length_replicate]
  have hletters : (letters 255).length = 255 := by
    rw [letters, String.length_ofList, List.length_replicate]
  refine ⟨⟨by omega, ?_⟩, by omega, ?_⟩
  · rintro ⟨slug, hends, hle⟩
    rw [(endsFresh_iff fun _ h => h).mp hends, length_generateUniqueSlug_le_iff, SlugFits,
      if_neg List.not_mem_nil, slugBase_ligatures (by decide), String.length_ofList,
      List.length_flatten, List.map_replicate, List.sum_replicate] at hle
    exact absurd hle (by decide)
  · rintro ⟨slug, hends, hle⟩
    rw [(endsFresh_iff fun _ h => h).mp hends, length_generateUniqueSlug_le_iff, SlugFits,
      slugBase_letters (by decide), if_pos (List.mem_singleton.mpr rfl)] at hle
    obtain ⟨n, -, -, hlength⟩ := hle
    rw [length_suffixedSlug_eq, hletters, maxOrgText] at hlength
    omega

end Saasmint
