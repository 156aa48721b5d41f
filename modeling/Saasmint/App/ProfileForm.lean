/-
Saasmint/App/ProfileForm.lean

The profile form of the app: what it shows of a user (ProfileForm.tsx), what the
action makes of what is submitted (`updateProfile` in src/app/actions/user.ts),
how the gateway sends it and reads the answer (DjangoApiUserGateway.ts,
parsers.ts), and the write on the backend between the two.
-/
import Saasmint.App.CaseTransform
import Saasmint.Lib.HtmlForms
import Saasmint.Lib.Loops
import Saasmint.Users.ProfileWrites

namespace Saasmint

namespace Profiles

open JsStr JsValue PyStr HtmlForms

/-! ### The form -/

/-- The entries of the form that are sent. -/
inductive ProfileField
  | fullName
  | preferredLocale
  | preferredCurrency
  | phonePrefix
  | phone
  | timezone
  | jobTitle
  | pronouns
  | bio
  deriving DecidableEq, Repr

/-- `FormData.get`. -/
abbrev FormData := ProfileField → Option String

/-- The timezones that a browser knows, and its own. -/
structure Browser where
  timezones : List String
  timezone : String
  ne_nil : timezones ≠ []
  named : "" ∉ timezones

def supportedCurrencyCodes : List String :=
  ["usd", "eur", "gbp", "cad", "aud", "chf", "jpy", "cny", "twd", "krw", "brl", "sek", "nok", "dkk",
   "pln", "try", "idr", "rub", "sar", "aed"]

/-- `PHONE_PREFIXES`, which is generated from the table of the backend. -/
def phonePrefixes : List String := supportedPhonePrefixes

/-- What the form submits that shows the user, with nothing touched.  The
pronouns are an option, or a line of text where they are none of the options;
either way the value is theirs. -/
def profileForm (b : Browser) (user : Profile) : FormData
  | .fullName => some (lineValue user.fullName)
  | .jobTitle => some (lineValue (user.jobTitle.getD ""))
  | .pronouns => some (lineValue (user.pronouns.getD ""))
  | .phonePrefix => optionValue ("" :: phonePrefixes) (user.phonePrefix.getD "")
  | .phone => some (lineValue (user.phone.getD ""))
  | .preferredLocale => optionValue locales user.preferredLocale
  | .preferredCurrency => optionValue supportedCurrencyCodes user.preferredCurrency
  | .timezone => optionValue b.timezones (user.timezone.getD b.timezone)
  | .bio => some (areaValue (user.bio.getD ""))

/-! ### The action -/

/-- A failure of the action: its code, and the field with the error of it. -/
structure ActionError where
  code : String
  fieldError : Option (ProfileField × String)
  deriving DecidableEq, Repr

structure UpdateProfileInput where
  fullName : String
  preferredLocale : Option String
  preferredCurrency : Option String
  phonePrefix : Option String
  phone : Option String
  timezone : Option String
  jobTitle : Option String
  pronouns : Option String
  bio : Option String
  deriving DecidableEq, Repr

/-- The length that JavaScript gives a text. -/
def jsLength (s : String) : Nat := (js s).length

def validateFullName (name : Option String) : Option String :=
  if name.all fun name => name = "" ∨ jsLength name < 3 ∨ jsLength name > 255 then
    some "full_name_invalid"
  else none

/-- `return fail(...)`, where the condition holds. -/
def failIf {ε : Type} (c : Prop) [Decidable c] (e : ε) : Except ε Unit :=
  if c then .error e else .ok ()

def invalidInput (field : ProfileField) (error : String) : ActionError :=
  ⟨"invalid_input", some (field, error)⟩

/-- `getString(...) || null`. -/
def nonEmpty (value : Option String) : Option String := value.filter (· ≠ "")

def tooShort (min : Nat) (value : Option String) : Bool := value.any fun s => jsLength s < min

def tooLong (max : Nat) (value : Option String) : Bool := value.any fun s => max < jsLength s

def notAmong (allowed : List String) (value : Option String) : Bool := value.any (· ∉ allowed)

def updateProfile (supportedTimezones : List String) (formData : FormData) :
    Except ActionError UpdateProfileInput := do
  let fullName := formData .fullName
  failIf (validateFullName fullName).isSome ⟨"full_name_invalid", none⟩
  let phonePrefix := nonEmpty (formData .phonePrefix)
  let phone := nonEmpty (formData .phone)
  failIf (phonePrefix.isSome ≠ phone.isSome) <| invalidInput .phone <|
    if phonePrefix.isSome then "phoneNumberRequired" else "phonePrefixRequired"
  failIf (tooShort 4 phone) (invalidInput .phone "phoneTooShort")
  let preferredLocale := nonEmpty (formData .preferredLocale)
  let preferredCurrency := nonEmpty (formData .preferredCurrency)
  let timezone := nonEmpty (formData .timezone)
  let jobTitle := nonEmpty (formData .jobTitle)
  let pronouns := nonEmpty (formData .pronouns)
  let bio := nonEmpty (formData .bio)
  failIf (notAmong locales preferredLocale) (invalidInput .preferredLocale "invalid")
  failIf (notAmong supportedCurrencyCodes preferredCurrency)
    (invalidInput .preferredCurrency "invalid")
  failIf (notAmong supportedTimezones timezone) (invalidInput .timezone "invalid")
  failIf (tooLong 255 jobTitle) (invalidInput .jobTitle "tooLong")
  failIf (tooLong 50 pronouns) (invalidInput .pronouns "tooLong")
  failIf (tooLong 500 bio) (invalidInput .bio "tooLong")
  return ⟨fullName.getD "", preferredLocale, preferredCurrency, phonePrefix, phone, timezone,
    jobTitle, pronouns, bio⟩

/-! ### The gateway -/

variable {ν : Type}

/-- The entries of the input but the phone; locale and currency are there where
they were submitted. -/
def inputEntries (input : UpdateProfileInput) : Entries ν :=
  (js "fullName", .string (js input.fullName))
    :: (input.preferredLocale.map fun s => (js "preferredLocale", JsValue.string (js s))).toList
    ++ (input.preferredCurrency.map fun s => (js "preferredCurrency", JsValue.string (js s))).toList
    ++ [(js "timezone", stringOrNull input.timezone), (js "jobTitle", stringOrNull input.jobTitle),
        (js "pronouns", stringOrNull input.pronouns), (js "bio", stringOrNull input.bio)]

def phonePayload (input : UpdateProfileInput) : JsValue ν :=
  match nonEmpty input.phonePrefix, nonEmpty input.phone with
  | some phonePrefix, some phone =>
    .object .ordinary [(js "prefix", .string (js phonePrefix)), (js "number", .string (js phone))]
  | _, _ => .null

/-- The body of the request. -/
def gatewayPayload (input : UpdateProfileInput) : Entries ν :=
  match keysToSnake (.object .ordinary (inputEntries input)) with
  | .object _ payload => setEntry (js "phone") (phonePayload input) payload
  | _ => []

/-- `flattenPhone`, on the entries of the answer and on the same in camel case. -/
def flattenPhone (raw user : Entries ν) : Entries ν :=
  let parts := match entryOf raw "phone" with
    | some (.object proto phoneData) =>
      if isRecordProto proto then
        (entryOf phoneData "prefix").bind fun p => (entryOf phoneData "number").map fun n => (p, n)
      else none
    | _ => none
  let phone := parts.getD (.null, .null)
  setEntry (js "phone") phone.2 (setEntry (js "phonePrefix") phone.1 user)

def textOf (s : JsStr) : String := String.ofList (toUSVString s)

/-- `z.string()`. -/
def stringField (user : Entries ν) (name : String) : Option String :=
  match entryOf user name with
  | some (.string s) => some (textOf s)
  | _ => none

/-- `z.string().nullable()`. -/
def nullableString (user : Entries ν) (name : String) : Option (Option String) :=
  match entryOf user name with
  | some (.string s) => some (some (textOf s))
  | some .null => some none
  | _ => none

/-- The entries of the answer in camel case, the phone in two of them. -/
def camelUser (raw : Entries ν) : Entries ν :=
  match keysToCamel (.object .ordinary raw) with
  | .object _ camel => flattenPhone raw camel
  | _ => []

/-- `parseUser`, with the profile fields of `UserSchema`. -/
def parseUser (raw : Entries ν) : Option Profile := do
  let user := camelUser raw
  return {
    fullName := ← stringField user "fullName"
    preferredLocale := ← stringField user "preferredLocale"
    preferredCurrency := ← stringField user "preferredCurrency"
    phonePrefix := ← nullableString user "phonePrefix"
    phone := ← nullableString user "phone"
    timezone := ← nullableString user "timezone"
    jobTitle := ← nullableString user "jobTitle"
    pronouns := ← nullableString user "pronouns"
    bio := ← nullableString user "bio" }

/-! ### A save -/

/-- The timezones that the app and the backend accept.  No name of the app's has
whitespace at its ends. -/
structure Timezones (u : UnicodeTables) where
  app : List String
  backend : List String
  trimmed : ∀ zone ∈ app, strip u zone = zone

inductive SaveError
  | action (error : ActionError)
  | fields (errors : List FieldError)
  /-- The answer of the backend is not a user. -/
  | response
  deriving DecidableEq, Repr

variable (u : UnicodeTables) (pyStr : ν → String)

/-- The form is submitted: the row after it. -/
def save (zones : Timezones u) (p : Profile) (form : FormData) : Except SaveError Profile :=
  match updateProfile zones.app form with
  | .error e => .error (.action e)
  | .ok input =>
    match accountPatch u pyStr zones.backend p (gatewayPayload input) with
    | .error errors => .error (.fields errors)
    | .ok p' =>
      match parseUser (userSerializer (ν := ν) p') with
      | none => .error .response
      | some _ => .ok p'

/-- The form that the profile page shows after a save. -/
def shownForm (ν : Type) (b : Browser) (p : Profile) : Option FormData :=
  (parseUser (userSerializer (ν := ν) p)).map (profileForm b)

theorem textOf_js (s : String) : textOf (js s) = s := by
  unfold textOf
  rw [show js s = utf16 s.toList from rfl, toUSVString_utf16, String.ofList_toList]

theorem stringField_of_entry {user : Entries ν} {name s : String}
    (h : entryOf user name = some (.string (js s))) : stringField user name = some s := by
  unfold stringField
  rw [h]
  exact congrArg some (textOf_js s)

theorem nullableString_of_entry {user : Entries ν} {name : String} {s : Option String}
    (h : entryOf user name = some (stringOrNull s)) : nullableString user name = some s := by
  unfold nullableString
  rw [h]
  cases s with
  | none => rfl
  | some s => exact congrArg (fun s => some (some s)) (textOf_js s)

@[simp] theorem keysTo_stringOrNull (f : JsStr → JsStr) (s : Option String) :
    keysTo f (stringOrNull (ν := ν) s) = stringOrNull s := by
  cases s <;> rfl

/-- The two halves of the phone are there under their own names. -/
theorem entryOf_camelUser_phone (p : Profile) :
    entryOf (camelUser (userSerializer (ν := ν) p)) "phonePrefix"
        = some (stringOrNull p.phonePrefix) ∧
      entryOf (camelUser (userSerializer (ν := ν) p)) "phone" = some (stringOrNull p.phone) := by
  obtain ⟨_, _, _, phonePrefix, phone, _, _, _, _⟩ := p
  cases phonePrefix <;> cases phone <;> exact ⟨rfl, rfl⟩

/-- The app reads a user as the backend has it. -/
theorem parseUser_userSerializer (p : Profile) :
    parseUser (userSerializer (ν := ν) p) = some p := by
  obtain ⟨hphonePrefix, hphone⟩ := entryOf_camelUser_phone (ν := ν) p
  set user := camelUser (userSerializer (ν := ν) p) with huser
  have hfullName : stringField user "fullName" = some p.fullName := stringField_of_entry rfl
  have hlocale : stringField user "preferredLocale" = some p.preferredLocale :=
    stringField_of_entry rfl
  have hcurrency : stringField user "preferredCurrency" = some p.preferredCurrency :=
    stringField_of_entry rfl
  have htimezone : entryOf user "timezone" = some (keysToCamel (stringOrNull p.timezone)) := rfl
  have hjobTitle : entryOf user "jobTitle" = some (keysToCamel (stringOrNull p.jobTitle)) := rfl
  have hpronouns : entryOf user "pronouns" = some (keysToCamel (stringOrNull p.pronouns)) := rfl
  have hbio : entryOf user "bio" = some (keysToCamel (stringOrNull p.bio)) := rfl
  rw [keysToCamel, keysTo_stringOrNull] at htimezone hjobTitle hpronouns hbio
  unfold parseUser
  rw [← huser]
  simp only [hfullName, hlocale, hcurrency, nullableString_of_entry hphonePrefix,
    nullableString_of_entry hphone, nullableString_of_entry htimezone,
    nullableString_of_entry hjobTitle, nullableString_of_entry hpronouns,
    nullableString_of_entry hbio]
  rfl

/-! ### What a save comes to -/

theorem failIf_eq_ok {ε : Type} {c : Prop} [Decidable c] {e : ε} {x : Unit} :
    failIf c e = .ok x ↔ ¬ c := by
  unfold failIf
  split
  next hc => exact ⟨fun h => (by cases h), fun h => absurd hc h⟩
  next hc => exact ⟨fun _ => hc, fun _ => rfl⟩

/-- What the action asks of a form. -/
structure Submittable (zones : List String) (form : FormData) : Prop where
  fullName : ∃ name, form .fullName = some name ∧ 3 ≤ jsLength name ∧ jsLength name ≤ 255
  phone : (nonEmpty (form .phonePrefix)).isSome = (nonEmpty (form .phone)).isSome
  phone_length : ∀ s, nonEmpty (form .phone) = some s → 4 ≤ jsLength s
  preferredLocale : ∀ s, nonEmpty (form .preferredLocale) = some s → s ∈ locales
  preferredCurrency : ∀ s, nonEmpty (form .preferredCurrency) = some s → s ∈ supportedCurrencyCodes
  timezone : ∀ s, nonEmpty (form .timezone) = some s → s ∈ zones
  jobTitle : ∀ s, nonEmpty (form .jobTitle) = some s → jsLength s ≤ 255
  pronouns : ∀ s, nonEmpty (form .pronouns) = some s → jsLength s ≤ 50
  bio : ∀ s, nonEmpty (form .bio) = some s → jsLength s ≤ 500

/-- The input that the action makes of a form. -/
def inputOf (form : FormData) : UpdateProfileInput where
  fullName := (form .fullName).getD ""
  preferredLocale := nonEmpty (form .preferredLocale)
  preferredCurrency := nonEmpty (form .preferredCurrency)
  phonePrefix := nonEmpty (form .phonePrefix)
  phone := nonEmpty (form .phone)
  timezone := nonEmpty (form .timezone)
  jobTitle := nonEmpty (form .jobTitle)
  pronouns := nonEmpty (form .pronouns)
  bio := nonEmpty (form .bio)

theorem not_any_iff {test : String → Bool} {value : Option String} :
    ¬ value.any test = true ↔ ∀ s, value = some s → test s = false := by
  cases value with
  | none => simp
  | some s => simp

theorem not_tooShort_iff {min : Nat} {value : Option String} :
    ¬ tooShort min value = true ↔ ∀ s, value = some s → min ≤ jsLength s :=
  not_any_iff.trans (by simp)

theorem not_tooLong_iff {max : Nat} {value : Option String} :
    ¬ tooLong max value = true ↔ ∀ s, value = some s → jsLength s ≤ max :=
  not_any_iff.trans (by simp)

theorem not_notAmong_iff {allowed : List String} {value : Option String} :
    ¬ notAmong allowed value = true ↔ ∀ s, value = some s → s ∈ allowed :=
  not_any_iff.trans (by simp)

theorem not_validateFullName_iff {name : Option String} :
    ¬ (validateFullName name).isSome = true ↔
      ∃ s, name = some s ∧ 3 ≤ jsLength s ∧ jsLength s ≤ 255 := by
  have hempty : jsLength "" = 0 := rfl
  unfold validateFullName
  cases name with
  | none => simp
  | some s =>
    by_cases hs : s = "" ∨ jsLength s < 3 ∨ jsLength s > 255
    · have hnot : ¬ (3 ≤ jsLength s ∧ jsLength s ≤ 255) := by
        rcases hs with rfl | hs
        · rw [hempty]
          omega
        · omega
      simp [hs, hnot]
    · push Not at hs
      have hlen : 3 ≤ jsLength s ∧ jsLength s ≤ 255 := ⟨hs.2.1, hs.2.2⟩
      simp [hs.1, hlen, Nat.not_lt.mpr hlen.1, Nat.not_lt.mpr hlen.2]

theorem updateProfile_eq_ok_iff {zones : List String} {form : FormData}
    {input : UpdateProfileInput} :
    updateProfile zones form = .ok input ↔ Submittable zones form ∧ input = inputOf form := by
  constructor
  · intro h
    obtain ⟨_, hname, h⟩ := Loops.bind_eq_ok.mp h
    obtain ⟨_, hphone, h⟩ := Loops.bind_eq_ok.mp h
    obtain ⟨_, hlength, h⟩ := Loops.bind_eq_ok.mp h
    obtain ⟨_, hlocale, h⟩ := Loops.bind_eq_ok.mp h
    obtain ⟨_, hcurrency, h⟩ := Loops.bind_eq_ok.mp h
    obtain ⟨_, htimezone, h⟩ := Loops.bind_eq_ok.mp h
    obtain ⟨_, hjobTitle, h⟩ := Loops.bind_eq_ok.mp h
    obtain ⟨_, hpronouns, h⟩ := Loops.bind_eq_ok.mp h
    obtain ⟨_, hbio, h⟩ := Loops.bind_eq_ok.mp h
    cases h
    exact ⟨⟨not_validateFullName_iff.mp (failIf_eq_ok.mp hname),
      not_not.mp (failIf_eq_ok.mp hphone), not_tooShort_iff.mp (failIf_eq_ok.mp hlength),
      not_notAmong_iff.mp (failIf_eq_ok.mp hlocale),
      not_notAmong_iff.mp (failIf_eq_ok.mp hcurrency),
      not_notAmong_iff.mp (failIf_eq_ok.mp htimezone),
      not_tooLong_iff.mp (failIf_eq_ok.mp hjobTitle),
      not_tooLong_iff.mp (failIf_eq_ok.mp hpronouns), not_tooLong_iff.mp (failIf_eq_ok.mp hbio)⟩,
      rfl⟩
  · rintro ⟨hform, rfl⟩
    obtain ⟨hname, hphone, hlength, hlocale, hcurrency, htimezone, hjobTitle, hpronouns, hbio⟩ :=
      hform
    unfold updateProfile
    refine Loops.bind_eq_ok.mpr ⟨(), failIf_eq_ok.mpr (not_validateFullName_iff.mpr hname), ?_⟩
    refine Loops.bind_eq_ok.mpr ⟨(), failIf_eq_ok.mpr (not_not.mpr hphone), ?_⟩
    refine Loops.bind_eq_ok.mpr ⟨(), failIf_eq_ok.mpr (not_tooShort_iff.mpr hlength), ?_⟩
    refine Loops.bind_eq_ok.mpr ⟨(), failIf_eq_ok.mpr (not_notAmong_iff.mpr hlocale), ?_⟩
    refine Loops.bind_eq_ok.mpr ⟨(), failIf_eq_ok.mpr (not_notAmong_iff.mpr hcurrency), ?_⟩
    refine Loops.bind_eq_ok.mpr ⟨(), failIf_eq_ok.mpr (not_notAmong_iff.mpr htimezone), ?_⟩
    refine Loops.bind_eq_ok.mpr ⟨(), failIf_eq_ok.mpr (not_tooLong_iff.mpr hjobTitle), ?_⟩
    refine Loops.bind_eq_ok.mpr ⟨(), failIf_eq_ok.mpr (not_tooLong_iff.mpr hpronouns), ?_⟩
    refine Loops.bind_eq_ok.mpr ⟨(), failIf_eq_ok.mpr (not_tooLong_iff.mpr hbio), ?_⟩
    rfl

end Profiles

end Saasmint
