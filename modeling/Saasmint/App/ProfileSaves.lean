/-
Saasmint/App/ProfileSaves.lean

What a save of the profile form does to the row, and what the form shows after
it.

A save is refused, or it writes the texts that were submitted with the whitespace
taken off their ends, and clears what was left empty (`save_eq_ok_iff`).  What
is in the row then is what the controls of the form leave alone (`Kept`), but
for the timezone, which has to be in the list of the browser.
-/
import Mathlib.Logic.Relation
import Saasmint.App.ProfileForm

namespace Saasmint

namespace Profiles

open JsStr JsValue PyStr HtmlForms

variable {ν : Type} {u : UnicodeTables} {pyStr : ν → String}

/-! ### The request -/

/-- What the request has of an input: a text that was not submitted is left out,
or is `null`. -/
structure Sends (entries : Entries ν) (input : UpdateProfileInput) : Prop where
  fullName : entryOf entries "full_name" = some (.string (js input.fullName))
  preferredLocale : entryOf entries "preferred_locale"
    = input.preferredLocale.map fun s => .string (js s)
  preferredCurrency : entryOf entries "preferred_currency"
    = input.preferredCurrency.map fun s => .string (js s)
  phone : entryOf entries "phone" = some (phonePayload input)
  timezone : entryOf entries "timezone" = some (stringOrNull input.timezone)
  jobTitle : entryOf entries "job_title" = some (stringOrNull input.jobTitle)
  pronouns : entryOf entries "pronouns" = some (stringOrNull input.pronouns)
  bio : entryOf entries "bio" = some (stringOrNull input.bio)

theorem gatewayPayload_sends (input : UpdateProfileInput) :
    Sends (gatewayPayload (ν := ν) input) input := by
  have hkeys : ∀ s, some (keysToSnake (ν := ν) (stringOrNull s)) = some (stringOrNull s) :=
    fun s => congrArg some (keysTo_stringOrNull toSnakeCase s)
  obtain ⟨_, preferredLocale, preferredCurrency, _, _, timezone, jobTitle, pronouns, bio⟩ := input
  cases preferredLocale <;> cases preferredCurrency <;>
    exact ⟨rfl, rfl, rfl, rfl, hkeys timezone, hkeys jobTitle, hkeys pronouns, hkeys bio⟩

/-! ### The row after a save -/

/-- What a text is stored as: nothing, where it was left empty. -/
def storedText (u : UnicodeTables) (value : Option String) : Option String :=
  (nonEmpty value).map (strip u)

/-- What the backend asks of a form. -/
structure Storable (u : UnicodeTables) (zones : List String) (form : FormData) : Prop where
  fullName : CharField.Fits { minLength := 3, maxLength := 255 }
    (strip u ((form .fullName).getD ""))
  preferredLocale : ∀ s, nonEmpty (form .preferredLocale) = some s →
    CharField.Fits { maxLength := 10 } (strip u s) ∧ strip u s ∈ supportedLocales
  preferredCurrency : ∀ s, nonEmpty (form .preferredCurrency) = some s →
    CharField.Fits { maxLength := 3 } (strip u s) ∧ strip u s ∈ supportedCurrencies
  phonePrefix : ∀ s, nonEmpty (form .phonePrefix) = some s →
    CharField.Fits { maxLength := 5 } (strip u s) ∧ strip u s ∈ supportedPhonePrefixes
  phone : ∀ s, nonEmpty (form .phone) = some s →
    CharField.Fits { minLength := 4, maxLength := 15 } (strip u s)
  timezone : ∀ s, nonEmpty (form .timezone) = some s →
    CharField.Fits { maxLength := 50 } (strip u s) ∧ strip u s ∈ zones
  jobTitle : ∀ s, nonEmpty (form .jobTitle) = some s →
    CharField.Fits { maxLength := 100 } (strip u s)
  pronouns : ∀ s, nonEmpty (form .pronouns) = some s →
    CharField.Fits { maxLength := 50 } (strip u s)
  bio : ∀ s, nonEmpty (form .bio) = some s → CharField.Fits { maxLength := 500 } (strip u s)

/-- The row after a form is saved. -/
def Profile.saved (u : UnicodeTables) (p : Profile) (form : FormData) : Profile where
  fullName := strip u ((form .fullName).getD "")
  preferredLocale := (storedText u (form .preferredLocale)).getD p.preferredLocale
  preferredCurrency := (storedText u (form .preferredCurrency)).getD p.preferredCurrency
  phonePrefix := storedText u (form .phonePrefix)
  phone := storedText u (form .phone)
  timezone := storedText u (form .timezone)
  jobTitle := storedText u (form .jobTitle)
  pronouns := storedText u (form .pronouns)
  bio := storedText u (form .bio)

theorem nonEmpty_nonEmpty (value : Option String) : nonEmpty (nonEmpty value) = nonEmpty value := by
  unfold nonEmpty
  rw [Option.filter_filter]
  simp

/-- The phone of a form is stored as its two halves, or not at all. -/
theorem phoneWrite_eq_ok {form : FormData} {x : Option (String × String)}
    (hform : (nonEmpty (form .phonePrefix)).isSome = (nonEmpty (form .phone)).isSome) :
    nullable (phoneWriteSerializer u pyStr) (phonePayload (inputOf form)) = .ok x ↔
      (∀ s, nonEmpty (form .phonePrefix) = some s →
        CharField.Fits { maxLength := 5 } (strip u s) ∧ strip u s ∈ supportedPhonePrefixes) ∧
      (∀ s, nonEmpty (form .phone) = some s →
        CharField.Fits { minLength := 4, maxLength := 15 } (strip u s)) ∧
      x.map Prod.fst = storedText u (form .phonePrefix) ∧
      x.map Prod.snd = storedText u (form .phone) := by
  unfold phonePayload inputOf storedText
  dsimp only
  rw [nonEmpty_nonEmpty, nonEmpty_nonEmpty]
  rcases e₁ : nonEmpty (form .phonePrefix) with - | phonePrefix
  · rcases e₂ : nonEmpty (form .phone) with - | number
    · cases x with
      | none => simp [nullable]
      | some x => simp [nullable]
    · rw [e₁, e₂] at hform
      cases hform
  · rcases e₂ : nonEmpty (form .phone) with - | number
    · rw [e₁, e₂] at hform
      cases hform
    · dsimp only
      unfold nullable
      dsimp only
      rw [map_eq_ok]
      constructor
      · rintro ⟨a, ha, rfl⟩
        obtain ⟨hcode, hnumber, rfl⟩ := (phoneWriteSerializer_eq_ok rfl rfl).mp ha
        exact ⟨fun s hs => Option.some.inj hs ▸ hcode, fun s hs => Option.some.inj hs ▸ hnumber,
          rfl, rfl⟩
      · rintro ⟨hcode, hnumber, hfst, hsnd⟩
        refine ⟨_, (phoneWriteSerializer_eq_ok rfl rfl).mpr
          ⟨hcode phonePrefix rfl, hnumber number rfl, rfl⟩, ?_⟩
        cases x with
        | none => cases hfst
        | some x =>
          have hx : x = (strip u phonePrefix, strip u number) :=
            Prod.ext (Option.some.inj hfst) (Option.some.inj hsnd)
          exact congrArg some hx.symm

theorem exists_pair {α β : Type} {a : Option α} {b : Option β} (h : a.isSome = b.isSome) :
    ∃ x : Option (α × β), x.map Prod.fst = a ∧ x.map Prod.snd = b := by
  cases a with
  | none =>
    cases b with
    | none => exact ⟨none, rfl, rfl⟩
    | some b => cases h
  | some a =>
    cases b with
    | none => cases h
    | some b => exact ⟨some (a, b), rfl, rfl⟩

/-- The backend takes what it asks for. -/
theorem accountPatch_eq_ok {zones : List String} {p p' : Profile} {form : FormData}
    (hform : (nonEmpty (form .phonePrefix)).isSome = (nonEmpty (form .phone)).isSome) :
    accountPatch u pyStr zones p (gatewayPayload (inputOf form)) = .ok p' ↔
      Storable u zones form ∧ p' = p.saved u form := by
  have hsends := gatewayPayload_sends (ν := ν) (inputOf form)
  have hfullName : entryOf (gatewayPayload (ν := ν) (inputOf form)) "full_name"
      = (some ((form .fullName).getD "")).map fun s => .string (js s) := hsends.fullName
  unfold accountPatch
  simp only [map_eq_ok, updateUserSerializer_eq_ok,
    (CharField.checksText _).optionalField hfullName,
    ((CharField.checksText _).oneOf _).optionalField hsends.preferredLocale,
    ((CharField.checksText _).oneOf _).optionalField hsends.preferredCurrency,
    optionalField_eq_ok hsends.phone, phoneWrite_eq_ok hform,
    ((CharField.checksText _).oneOf _).clearable hsends.timezone,
    (CharField.checksText _).clearable hsends.jobTitle,
    (CharField.checksText _).clearable hsends.pronouns,
    (CharField.checksText _).clearable hsends.bio]
  constructor
  · rintro ⟨⟨_, _, _, phone, _, _, _, _⟩, ⟨⟨hname, rfl⟩, ⟨hlocale, rfl⟩, ⟨hcurrency, rfl⟩,
      ⟨a, ⟨hcode, hnumber, hfst, hsnd⟩, rfl⟩, ⟨hzone, rfl⟩, ⟨hjobTitle, rfl⟩, ⟨hpronouns, rfl⟩,
      ⟨hbio, rfl⟩⟩, rfl⟩
    refine ⟨⟨hname _ rfl, hlocale, hcurrency, hcode, hnumber, hzone, hjobTitle, hpronouns, hbio⟩,
      ?_⟩
    show Profile.mk _ _ _ (a.map Prod.fst) (a.map Prod.snd) _ _ _ _ = _
    rw [hfst, hsnd]
    rfl
  · rintro ⟨⟨hname, hlocale, hcurrency, hcode, hnumber, hzone, hjobTitle, hpronouns, hbio⟩, rfl⟩
    obtain ⟨a, hfst, hsnd⟩ := exists_pair (a := storedText u (form .phonePrefix))
      (b := storedText u (form .phone)) (by simpa [storedText] using hform)
    refine ⟨⟨_, _, _, some a, _, _, _, _⟩, ⟨⟨fun s hs => Option.some.inj hs ▸ hname, rfl⟩,
      ⟨hlocale, rfl⟩, ⟨hcurrency, rfl⟩, ⟨a, ⟨hcode, hnumber, hfst, hsnd⟩, rfl⟩, ⟨hzone, rfl⟩,
      ⟨hjobTitle, rfl⟩, ⟨hpronouns, rfl⟩, ⟨hbio, rfl⟩⟩, ?_⟩
    show Profile.mk _ _ _ (a.map Prod.fst) (a.map Prod.snd) _ _ _ _ = _
    rw [hfst, hsnd]
    rfl

/-- **What a save comes to.**  It writes the form where the app and the backend
both take it. -/
theorem save_eq_ok_iff {zones : Timezones u} {p p' : Profile} {form : FormData} :
    save (ν := ν) u pyStr zones p form = .ok p' ↔
      Submittable zones.app form ∧ Storable u zones.backend form ∧ p' = p.saved u form := by
  unfold save
  constructor
  · intro h
    split at h
    · cases h
    next input hinput =>
      obtain ⟨hform, rfl⟩ := updateProfile_eq_ok_iff.mp hinput
      split at h
      · cases h
      next p'' hpatch =>
        rw [parseUser_userSerializer] at h
        cases h
        exact ⟨hform, (accountPatch_eq_ok hform.phone).mp hpatch⟩
  · rintro ⟨hform, hstored⟩
    rw [updateProfile_eq_ok_iff.mpr ⟨hform, rfl⟩]
    dsimp only
    rw [(accountPatch_eq_ok hform.phone).mpr hstored]
    dsimp only
    rw [parseUser_userSerializer]

/-! ### What a save leaves alone -/

/-- The column of a field. -/
def Profile.column (p : Profile) : ProfileField → Option String
  | .fullName => some p.fullName
  | .preferredLocale => some p.preferredLocale
  | .preferredCurrency => some p.preferredCurrency
  | .phonePrefix => p.phonePrefix
  | .phone => p.phone
  | .timezone => p.timezone
  | .jobTitle => p.jobTitle
  | .pronouns => p.pronouns
  | .bio => p.bio

theorem Profile.eq_of_column {p p' : Profile} (h : ∀ f, p.column f = p'.column f) : p = p' := by
  obtain ⟨_, _, _, _, _, _, _, _, _⟩ := p
  obtain ⟨_, _, _, _, _, _, _, _, _⟩ := p'
  have hfullName := Option.some.inj (h .fullName)
  have hlocale := Option.some.inj (h .preferredLocale)
  have hcurrency := Option.some.inj (h .preferredCurrency)
  have hphonePrefix := h .phonePrefix
  have hphone := h .phone
  have htimezone := h .timezone
  have hjobTitle := h .jobTitle
  have hpronouns := h .pronouns
  have hbio := h .bio
  simp only [column] at *
  subst_vars
  rfl

/-- A text that a field stores as it is. -/
structure Settled (u : UnicodeTables) (f : CharField) (s : String) : Prop where
  strip_eq : strip u s = s
  fits : f.Fits s

/-- A row that was saved from the form. -/
structure Profile.Kept (zones : Timezones u) (p : Profile) : Prop where
  fullName : Settled u { minLength := 3, maxLength := 255 } p.fullName ∧ OneLine p.fullName ∧
    jsLength p.fullName ≤ 255
  preferredLocale : p.preferredLocale ∈ locales
  preferredCurrency : p.preferredCurrency ∈ supportedCurrencies
  phone_isSome : p.phonePrefix.isSome = p.phone.isSome
  phonePrefix : ∀ s, p.phonePrefix = some s → Settled u { maxLength := 5 } s ∧
    s ∈ supportedPhonePrefixes
  phone : ∀ s, p.phone = some s → Settled u { minLength := 4, maxLength := 15 } s ∧ OneLine s
  timezone : ∀ s, p.timezone = some s → Settled u { maxLength := 50 } s ∧ s ∈ zones.app ∧
    s ∈ zones.backend
  jobTitle : ∀ s, p.jobTitle = some s → Settled u { maxLength := 100 } s ∧ OneLine s ∧
    jsLength s ≤ 255
  pronouns : ∀ s, p.pronouns = some s → Settled u { maxLength := 50 } s ∧ OneLine s ∧
    jsLength s ≤ 50
  bio : ∀ s, p.bio = some s → Settled u { maxLength := 500 } s ∧ Crlf s ∧ jsLength s ≤ 500

def ProfileField.isLine : ProfileField → Bool
  | .fullName | .phone | .jobTitle | .pronouns => true
  | _ => false

/-- The texts that the controls of the form submit. -/
structure FromBrowser (form : FormData) : Prop where
  line : ∀ f, f.isLine = true → ∀ s, form f = some s → OneLine s
  bio : ∀ s, form .bio = some s → Crlf s

theorem length_le_jsLength (s : String) : s.toList.length ≤ jsLength s := by
  unfold jsLength js utf16
  rw [List.length_flatMap]
  calc s.toList.length = (s.toList.map fun _ => 1).sum := by simp
    _ ≤ (s.toList.map fun c => (units c).length).sum :=
      List.sum_le_sum fun c _ => List.length_pos_iff.mpr (units_ne_nil c)

theorem jsLength_strip_le (s : String) : jsLength (strip u s) ≤ jsLength s := by
  obtain ⟨pre, post, hs⟩ := exists_strip (u := u) s
  unfold jsLength js
  rw [hs, utf16_append, utf16_append, List.length_append, List.length_append]
  omega

theorem nonEmpty_eq_some {value : Option String} {s : String} :
    nonEmpty value = some s ↔ value = some s ∧ s ≠ "" := by
  unfold nonEmpty
  rw [Option.filter_eq_some_iff]
  simp

/-- What is stored of a text has what its stripping has. -/
theorem of_storedText {value : Option String} {P : String → Prop}
    (h : ∀ s, nonEmpty value = some s → value = some s → P (strip u s)) :
    ∀ t, storedText u value = some t → P t := by
  intro t ht
  obtain ⟨s, hs, rfl⟩ := Option.map_eq_some_iff.mp ht
  exact h s hs (nonEmpty_eq_some.mp hs).1

/-- A row that is saved from the form of a browser is kept. -/
theorem kept_of_save {zones : Timezones u} {p p' : Profile} {form : FormData}
    (hlocale : p.preferredLocale ∈ locales) (hcurrency : p.preferredCurrency ∈ supportedCurrencies)
    (hbrowser : FromBrowser form) (hsave : save (ν := ν) u pyStr zones p form = .ok p') :
    p'.Kept zones := by
  obtain ⟨hform, hstored, rfl⟩ := save_eq_ok_iff.mp hsave
  have hsettled : ∀ {f : CharField} {s : String}, f.Fits (strip u s) → Settled u f (strip u s) :=
    fun hfits => ⟨strip_strip _, hfits⟩
  have hline : ∀ {f : ProfileField} {s : String}, f.isLine = true → form f = some s →
      OneLine (strip u s) := fun hf hs => OneLine.strip (hbrowser.line _ hf _ hs)
  have hgetD : ∀ {allowed : List String} {value : Option String} {old : String}, old ∈ allowed →
      (∀ s, nonEmpty value = some s → strip u s ∈ allowed) →
      (storedText u value).getD old ∈ allowed := by
    intro allowed value old hold hvalue
    rcases e : storedText u value with - | t
    · exact hold
    · exact of_storedText (fun s hs _ => hvalue s hs) t e
  exact {
    fullName := by
      obtain ⟨name, hname, -, hle⟩ := hform.fullName
      have hfits := hstored.fullName
      unfold Profile.saved
      rw [hname] at hfits ⊢
      exact ⟨hsettled hfits, hline rfl hname, (jsLength_strip_le name).trans hle⟩
    preferredLocale := hgetD hlocale fun s hs => (hstored.preferredLocale s hs).2
    preferredCurrency := hgetD hcurrency fun s hs => (hstored.preferredCurrency s hs).2
    phone_isSome := by
      show (storedText u _).isSome = (storedText u _).isSome
      unfold storedText
      rw [Option.isSome_map, Option.isSome_map, hform.phone]
    phonePrefix := of_storedText fun s hs _ =>
      ⟨hsettled (hstored.phonePrefix s hs).1, (hstored.phonePrefix s hs).2⟩
    phone := of_storedText fun s hs hvalue => ⟨hsettled (hstored.phone s hs), hline rfl hvalue⟩
    timezone := of_storedText fun s hs _ =>
      ⟨hsettled (hstored.timezone s hs).1, by
        rw [zones.trimmed s (hform.timezone s hs)]
        exact hform.timezone s hs, (hstored.timezone s hs).2⟩
    jobTitle := of_storedText fun s hs hvalue =>
      ⟨hsettled (hstored.jobTitle s hs), hline rfl hvalue,
        (jsLength_strip_le s).trans (hform.jobTitle s hs)⟩
    pronouns := of_storedText fun s hs hvalue =>
      ⟨hsettled (hstored.pronouns s hs), hline rfl hvalue,
        (jsLength_strip_le s).trans (hform.pronouns s hs)⟩
    bio := of_storedText fun s hs hvalue =>
      ⟨hsettled (hstored.bio s hs), Crlf.strip (hbrowser.bio s hvalue),
        (jsLength_strip_le s).trans (hform.bio s hs)⟩ }

/-! ### The form after a save -/

/-- The browser has the timezone of the row in its list. -/
def Listed (b : Browser) (p : Profile) : Prop := ∃ zone ∈ b.timezones, p.timezone = some zone

/-- A name of visible ASCII characters that the field takes. -/
def CharField.isName (f : CharField) (s : String) : Bool :=
  f.codes s = [] && s ≠ "" && s.toList.all fun c => isAscii c && !isAsciiSpace c

theorem CharField.settled_of_mem {f : CharField} {names : List String} {s : String}
    (h : names.all f.isName = true) (hs : s ∈ names) : Settled u f s := by
  have hname := List.all_eq_true.mp h s hs
  unfold isName at hname
  simp only [Bool.and_eq_true, decide_eq_true_eq] at hname
  obtain ⟨⟨hcodes, hne⟩, hall⟩ := hname
  obtain ⟨hmin, hmax, hnull⟩ := (f.codes_eq_nil_iff s).mp hcodes
  refine ⟨strip_of_ascii fun c hc => ?_, hne, hmin, hmax, hnull⟩
  simpa using List.all_eq_true.mp hall c hc

theorem settled_locale {s : String} (hs : s ∈ locales) : Settled u { maxLength := 10 } s :=
  CharField.settled_of_mem (by decide) hs

theorem settled_currency {s : String} (hs : s ∈ supportedCurrencies) :
    Settled u { maxLength := 3 } s :=
  CharField.settled_of_mem (by decide) hs

/-- What is in a column is a text that is stored as it is. -/
theorem Profile.Kept.column {zones : Timezones u} {p : Profile} (hp : p.Kept zones)
    (f : ProfileField) {s : String} (h : p.column f = some s) : strip u s = s ∧ s ≠ "" := by
  cases f with
  | fullName =>
    cases h
    exact ⟨hp.fullName.1.strip_eq, hp.fullName.1.fits.ne_empty⟩
  | preferredLocale =>
    cases h
    have hs := settled_locale (u := u) hp.preferredLocale
    exact ⟨hs.strip_eq, hs.fits.ne_empty⟩
  | preferredCurrency =>
    cases h
    have hs := settled_currency (u := u) hp.preferredCurrency
    exact ⟨hs.strip_eq, hs.fits.ne_empty⟩
  | phonePrefix =>
    obtain ⟨hs, -⟩ := hp.phonePrefix s h
    exact ⟨hs.strip_eq, hs.fits.ne_empty⟩
  | phone =>
    obtain ⟨hs, -⟩ := hp.phone s h
    exact ⟨hs.strip_eq, hs.fits.ne_empty⟩
  | timezone =>
    obtain ⟨hs, -⟩ := hp.timezone s h
    exact ⟨hs.strip_eq, hs.fits.ne_empty⟩
  | jobTitle =>
    obtain ⟨hs, -⟩ := hp.jobTitle s h
    exact ⟨hs.strip_eq, hs.fits.ne_empty⟩
  | pronouns =>
    obtain ⟨hs, -⟩ := hp.pronouns s h
    exact ⟨hs.strip_eq, hs.fits.ne_empty⟩
  | bio =>
    obtain ⟨hs, -⟩ := hp.bio s h
    exact ⟨hs.strip_eq, hs.fits.ne_empty⟩

/-- The app and the backend list the same currencies. -/
theorem mem_supportedCurrencyCodes {s : String} :
    s ∈ supportedCurrencyCodes ↔ s ∈ supportedCurrencies := by
  have hperm : supportedCurrencyCodes.Perm supportedCurrencies := by decide
  exact hperm.mem_iff

theorem nonEmpty_getD {value : Option String} (h : ∀ s, value = some s → s ≠ "") :
    nonEmpty (some (value.getD "")) = value := by
  cases value with
  | none => rfl
  | some s => exact nonEmpty_eq_some.mpr ⟨rfl, h s rfl⟩

section

variable {zones : Timezones u} {b : Browser} {p p' : Profile}

/-- The controls of the form leave a kept row alone. -/
theorem profileForm_of_kept (hp : p.Kept zones) {f : ProfileField}
    (hf : f = .timezone → Listed b p) : profileForm b p f = some ((p.column f).getD "") := by
  have hline : ∀ {value : Option String}, (∀ s, value = some s → OneLine s) →
      some (lineValue (value.getD "")) = some (value.getD "") := by
    intro value h
    cases value with
    | none => rfl
    | some s => exact congrArg some (h s rfl)
  cases f with
  | fullName => exact congrArg some hp.fullName.2.1
  | preferredLocale => exact optionValue_eq_self_iff.mpr hp.preferredLocale
  | preferredCurrency =>
    exact optionValue_eq_self_iff.mpr (mem_supportedCurrencyCodes.mpr hp.preferredCurrency)
  | phonePrefix =>
    apply optionValue_eq_self_iff.mpr
    rcases e : p.phonePrefix with - | s
    · exact List.mem_cons_self
    · exact List.mem_cons_of_mem _ (hp.phonePrefix s e).2
  | phone => exact hline fun s hs => (hp.phone s hs).2
  | timezone =>
    obtain ⟨zone, hzone, htimezone⟩ := hf rfl
    show optionValue _ (p.timezone.getD _) = some (p.timezone.getD _)
    rw [htimezone]
    exact optionValue_eq_self_iff.mpr hzone
  | jobTitle => exact hline fun s hs => (hp.jobTitle s hs).2.1
  | pronouns => exact hline fun s hs => (hp.pronouns s hs).2.1
  | bio =>
    show some (areaValue (p.bio.getD "")) = some (p.bio.getD "")
    rcases e : p.bio with - | s
    · rfl
    · exact congrArg some (hp.bio s e).2.1

/-- A field that is submitted as the form shows it keeps its column. -/
theorem column_saved (hp : p.Kept zones) {form : FormData} {f : ProfileField}
    (hf : form f = some ((p.column f).getD "")) : (p.saved u form).column f = p.column f := by
  have hcolumn := fun s => hp.column f (s := s)
  have hstored : storedText u (form f) = p.column f := by
    unfold storedText
    rw [hf, nonEmpty_getD fun s hs => (hcolumn s hs).2]
    rcases e : p.column f with - | s
    · rfl
    · exact congrArg some (hcolumn s e).1
  cases f with
  | fullName =>
    show some (strip u ((form .fullName).getD "")) = some p.fullName
    rw [hf]
    exact congrArg some (hcolumn p.fullName rfl).1
  | preferredLocale =>
    show some ((storedText u (form .preferredLocale)).getD _) = _
    rw [hstored]
    rfl
  | preferredCurrency =>
    show some ((storedText u (form .preferredCurrency)).getD _) = _
    rw [hstored]
    rfl
  | phonePrefix | phone | timezone | jobTitle | pronouns | bio => exact hstored

/-- A kept row is saved again as it is, where the browser has its timezone. -/
theorem save_profileForm (hp : p.Kept zones) (hlisted : Listed b p) :
    save (ν := ν) u pyStr zones p (profileForm b p) = .ok p := by
  have hshown : ∀ f, profileForm b p f = some ((p.column f).getD "") :=
    fun f => profileForm_of_kept hp fun _ => hlisted
  have hcolumn : ∀ {f : ProfileField} {s : String}, nonEmpty (profileForm b p f) = some s →
      p.column f = some s := by
    intro f s hs
    rwa [hshown, nonEmpty_getD fun s hs => (hp.column f hs).2] at hs
  have hmin : ∀ {f : CharField} {s : String}, f.Fits s → f.minLength ≤ jsLength s :=
    fun hfits => hfits.min_le.trans (length_le_jsLength _)
  have hstrip : ∀ {f : CharField} {s : String}, Settled u f s → f.Fits (strip u s) := by
    intro f s hs
    rw [hs.strip_eq]
    exact hs.fits
  have hmem : ∀ {allowed : List String} {f : CharField} {s : String}, Settled u f s →
      s ∈ allowed → f.Fits (strip u s) ∧ strip u s ∈ allowed := by
    intro allowed f s hs hallowed
    rw [hs.strip_eq]
    exact ⟨hs.fits, hallowed⟩
  have hform : Submittable zones.app (profileForm b p) := {
    fullName := ⟨p.fullName, hshown .fullName, hmin hp.fullName.1.fits, hp.fullName.2.2⟩
    phone := by
      rw [hshown, hshown, nonEmpty_getD fun s hs => (hp.column .phonePrefix hs).2,
        nonEmpty_getD fun s hs => (hp.column .phone hs).2]
      exact hp.phone_isSome
    phone_length := fun s hs => hmin (hp.phone s (hcolumn hs)).1.fits
    preferredLocale := fun s hs => by
      cases hcolumn hs
      exact hp.preferredLocale
    preferredCurrency := fun s hs => by
      cases hcolumn hs
      exact mem_supportedCurrencyCodes.mpr hp.preferredCurrency
    timezone := fun s hs => (hp.timezone s (hcolumn hs)).2.1
    jobTitle := fun s hs => (hp.jobTitle s (hcolumn hs)).2.2
    pronouns := fun s hs => (hp.pronouns s (hcolumn hs)).2.2
    bio := fun s hs => (hp.bio s (hcolumn hs)).2.2 }
  have hstored : Storable u zones.backend (profileForm b p) := {
    fullName := by
      rw [hshown]
      exact hstrip hp.fullName.1
    preferredLocale := fun s hs => by
      cases hcolumn hs
      exact hmem (settled_locale hp.preferredLocale) hp.preferredLocale
    preferredCurrency := fun s hs => by
      cases hcolumn hs
      exact hmem (settled_currency hp.preferredCurrency) hp.preferredCurrency
    phonePrefix := fun s hs => hmem (hp.phonePrefix s (hcolumn hs)).1
      (hp.phonePrefix s (hcolumn hs)).2
    phone := fun s hs => hstrip (hp.phone s (hcolumn hs)).1
    timezone := fun s hs => hmem (hp.timezone s (hcolumn hs)).1 (hp.timezone s (hcolumn hs)).2.2
    jobTitle := fun s hs => hstrip (hp.jobTitle s (hcolumn hs)).1
    pronouns := fun s hs => hstrip (hp.pronouns s (hcolumn hs)).1
    bio := fun s hs => hstrip (hp.bio s (hcolumn hs)).1 }
  refine save_eq_ok_iff.mpr ⟨hform, hstored, Profile.eq_of_column fun f => ?_⟩
  exact (column_saved hp (hshown f)).symm

/-- A form that leaves the timezone as it is shown stores one of the browser's. -/
theorem listed_of_save {form : FormData} {p'' : Profile}
    (hform : form .timezone = profileForm b p' .timezone)
    (hsave : save (ν := ν) u pyStr zones p' form = .ok p'') : Listed b p'' := by
  obtain ⟨hsubmittable, -, rfl⟩ := save_eq_ok_iff.mp hsave
  obtain ⟨zone, hshown, hzone⟩ :=
    exists_optionValue b.ne_nil (p'.timezone.getD b.timezone)
  have hentry : nonEmpty (form .timezone) = some zone := by
    rw [hform]
    exact nonEmpty_eq_some.mpr ⟨hshown, fun h => b.named (h ▸ hzone)⟩
  refine ⟨zone, hzone, ?_⟩
  show storedText u (form .timezone) = some zone
  unfold storedText
  rw [hentry, Option.map_some, zones.trimmed zone (hsubmittable.timezone zone hentry)]

end

/-! ### Runs of saves -/

/-- A save of the form of a browser. -/
def SavesTo (pyStr : ν → String) (zones : Timezones u) (p p' : Profile) : Prop :=
  ∃ form, FromBrowser form ∧ save u pyStr zones p form = .ok p'

theorem kept_of_saves {zones : Timezones u} {p p' : Profile} (hlocale : p.preferredLocale ∈ locales)
    (hcurrency : p.preferredCurrency ∈ supportedCurrencies)
    (hsaves : Relation.TransGen (SavesTo pyStr zones) p p') : p'.Kept zones := by
  induction hsaves with
  | single h =>
    obtain ⟨form, hbrowser, hsave⟩ := h
    exact kept_of_save hlocale hcurrency hbrowser hsave
  | tail _ h ih =>
    obtain ⟨form, hbrowser, hsave⟩ := h
    exact kept_of_save ih.preferredLocale ih.preferredCurrency hbrowser hsave

/-- **What the form shows after saves is what is in the row.**  A field that is
left as it is shown keeps its column at the next save.  The timezone does so
only where the browser has it in its list; otherwise one of the browser's takes
its place, and the form cannot be saved without that. -/
theorem saved_profile_stays {zones : Timezones u} {p p' : Profile}
    (hlocale : p.preferredLocale ∈ locales) (hcurrency : p.preferredCurrency ∈ supportedCurrencies)
    (hsaves : Relation.TransGen (SavesTo pyStr zones) p p') (b : Browser) :
    ∃ again, shownForm ν b p' = some again ∧
      (save u pyStr zones p' again = .ok p' ↔ Listed b p') ∧
      ∀ edited p'', save u pyStr zones p' edited = .ok p'' →
        (edited .timezone = again .timezone → Listed b p'') ∧
        ∀ f, (f = .timezone → Listed b p') → edited f = again f → p''.column f = p'.column f := by
  have hkept := kept_of_saves hlocale hcurrency hsaves
  refine ⟨profileForm b p', ?_, ⟨listed_of_save rfl, save_profileForm hkept⟩, ?_⟩
  · unfold shownForm
    rw [parseUser_userSerializer]
    rfl
  · intro edited p'' hsave
    refine ⟨fun hform => listed_of_save hform hsave, fun f hf hedited => ?_⟩
    obtain ⟨-, -, rfl⟩ := save_eq_ok_iff.mp hsave
    exact column_saved hkept (hedited.trans (profileForm_of_kept hkept hf))

/-- A row, and a form that is saved to it. -/
def ada : Profile where
  fullName := "Ada Lovelace"
  preferredLocale := "en"
  preferredCurrency := "gbp"
  phonePrefix := none
  phone := none
  timezone := none
  jobTitle := none
  pronouns := none
  bio := none

def adaForm : FormData
  | .fullName => some " Ada King "
  | .preferredLocale => some "en"
  | .preferredCurrency => some "gbp"
  | .phonePrefix => some "+44"
  | .phone => some "20 7946 0958"
  | .timezone => some "Asia/Kolkata"
  | .jobTitle | .pronouns => some ""
  | .bio => some "Notes\r\nA to G"

def adaSaved : Profile :=
  { ada with
    fullName := "Ada King", phonePrefix := some "+44", phone := some "20 7946 0958",
    timezone := some "Asia/Kolkata", bio := some "Notes\r\nA to G" }

def indianZones : Timezones asciiTables where
  app := ["Asia/Kolkata", "Europe/London"]
  backend := ["Asia/Calcutta", "Asia/Kolkata", "Europe/London"]
  trimmed := by decide

/-- A browser with the old name of a timezone. -/
def oldBrowser : Browser where
  timezones := ["Asia/Calcutta", "Europe/London"]
  timezone := "Asia/Calcutta"
  ne_nil := by decide
  named := by decide

theorem fromBrowser_adaForm : FromBrowser adaForm where
  line := by
    intro f hf s hs
    cases f with
    | fullName | phone | jobTitle | pronouns =>
      cases hs
      decide
    | preferredLocale | preferredCurrency | phonePrefix | timezone | bio => cases hf
  bio := by
    intro s hs
    cases hs
    decide

set_option maxRecDepth 4000 in
theorem save_adaForm :
    save (ν := Nat) asciiTables toString indianZones ada adaForm = .ok adaSaved := rfl

/-- A row with a timezone that the browser has under another name: the form that
shows it does not save it as it is, and keeps the bio. -/
theorem ada_from_old_browser :
    ∃ again, shownForm Nat oldBrowser adaSaved = some again ∧
      save (ν := Nat) asciiTables toString indianZones adaSaved again ≠ .ok adaSaved ∧
      ∀ edited p'', save (ν := Nat) asciiTables toString indianZones adaSaved edited = .ok p'' →
        edited .bio = again .bio → p''.bio = some "Notes\r\nA to G" := by
  obtain ⟨again, hshown, hagain, hedited⟩ :=
    saved_profile_stays (p := ada) (by decide) (by decide)
      (.single ⟨adaForm, fromBrowser_adaForm, save_adaForm⟩) oldBrowser
  refine ⟨again, hshown, fun hsave => ?_, fun edited p'' hsave hbio => ?_⟩
  · obtain ⟨zone, hzone, htimezone⟩ := hagain.mp hsave
    cases htimezone
    exact absurd hzone (by decide)
  · exact (hedited edited p'' hsave).2 .bio (fun h => by cases h) hbio

end Profiles

end Saasmint
