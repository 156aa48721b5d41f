/-
Saasmint/Users/ProfileWrites.lean

The profile of a user on the backend: what `AccountView.patch` accepts and
writes (apps/users/views.py, `UpdateUserSerializer` in
apps/users/serializers.py), and what `UserSerializer` answers.

A text is stripped before it is measured, and one that is blank is refused.  A
field that is missing keeps its column, `null` clears it where it may.  The
phone is one object on the wire and two columns in the table.
-/
import Saasmint.Billing.Currency
import Saasmint.Lib.JsValue
import Saasmint.Lib.Loops
import Saasmint.Users.Navigations

namespace Saasmint

namespace Profiles

open JsStr JsValue PyStr

/-! ### Fields of a serializer -/

inductive FieldCode
  | required
  | null
  | invalid
  | blank
  | minLength
  | maxLength
  | nullCharacters
  | surrogateCharacters
  | unsupported
  deriving DecidableEq, Repr

/-- An error and the field that it stands at. -/
structure FieldError where
  path : List String
  code : FieldCode
  deriving DecidableEq, Repr

/-- What the validation of a value comes to. -/
abbrev Checked := Except (List FieldError)

variable {α β ν : Type}

def fail (code : FieldCode) : Checked α := .error [⟨[], code⟩]

/-- Errors of both are collected. -/
def both : Checked α → Checked β → Checked (α × β)
  | .ok a, .ok b => .ok (a, b)
  | .error e, .error e' => .error (e ++ e')
  | .error e, .ok _ => .error e
  | .ok _, .error e => .error e

abbrev Entries (ν : Type) := List (JsStr × JsValue ν)

def entryOf (entries : Entries ν) (name : String) : Option (JsValue ν) :=
  (entries.find? fun e => e.1 = js name).map Prod.snd

/-- A field with `required=False`. -/
def optionalField (entries : Entries ν) (name : String) (run : JsValue ν → Checked α) :
    Checked (Option α) :=
  match entryOf entries name with
  | none => .ok none
  | some v =>
    match run v with
    | .ok a => .ok (some a)
    | .error errors => .error (errors.map fun e => { e with path := name :: e.path })

def requiredField (entries : Entries ν) (name : String) (run : JsValue ν → Checked α) :
    Checked α :=
  match optionalField entries name run with
  | .ok (some a) => .ok a
  | .ok none => .error [⟨[name], .required⟩]
  | .error errors => .error errors

/-- `allow_null=True`. -/
def nullable (run : JsValue ν → Checked α) : JsValue ν → Checked (Option α)
  | .null => .ok none
  | v => (run v).map some

/-- `CharField`, with its bounds in characters. -/
structure CharField where
  minLength : Nat := 0
  maxLength : Nat
  deriving DecidableEq, Repr

/-- The codes of the validators that refuse a text. -/
def CharField.codes (f : CharField) (value : String) : List FieldCode :=
  (if f.maxLength < value.toList.length then [.maxLength] else [])
    ++ (if value.toList.length < f.minLength then [.minLength] else [])
    ++ if '\x00' ∈ value.toList then [.nullCharacters] else []

section

variable (u : UnicodeTables) (pyStr : ν → String)

def CharField.ofText (f : CharField) (raw : String) : Checked String :=
  let value := strip u raw
  if value = "" then fail .blank
  else if f.codes value = [] then .ok value
  else .error ((f.codes value).map fun code => ⟨[], code⟩)

/-- A number is taken as its text. -/
def CharField.run (f : CharField) : JsValue ν → Checked String
  | .null => fail .null
  | .string s =>
    let raw := toUSVString s
    if utf16 raw = s then f.ofText u (String.ofList raw) else fail .surrogateCharacters
  | .number n => f.ofText u (pyStr n)
  | .bool _ | .array _ | .object _ _ => fail .invalid

end

def oneOf (allowed : List String) (value : String) : Checked String :=
  if value ∈ allowed then .ok value else fail .unsupported

/-! ### The serializers -/

def supportedLocales : List String :=
  ["en", "es", "fr", "de", "pt-BR", "it", "ja", "zh-CN", "nl", "ar", "ko", "ru", "pl", "tr", "sv",
   "id", "zh-TW", "da", "nb", "pt-PT"]

def supportedPhonePrefixes : List String :=
  ["+1", "+7", "+20", "+27", "+30", "+31", "+32", "+33", "+34", "+36", "+39", "+40", "+41", "+43",
   "+44", "+45", "+46", "+47", "+48", "+49", "+51", "+52", "+53", "+54", "+55", "+56", "+57",
   "+58", "+60", "+61", "+62", "+63", "+64", "+65", "+66", "+81", "+82", "+84", "+86", "+90",
   "+91", "+92", "+93", "+94", "+95", "+212", "+213", "+216", "+218", "+220", "+221", "+234",
   "+249", "+251", "+254", "+255", "+256", "+260", "+263", "+351", "+352", "+353", "+354", "+355",
   "+356", "+358", "+359", "+370", "+371", "+372", "+380", "+381", "+385", "+386", "+387", "+420",
   "+421", "+852", "+853", "+855", "+856", "+880", "+886", "+960", "+961", "+962", "+963", "+964",
   "+965", "+966", "+967", "+968", "+970", "+971", "+972", "+973", "+974", "+975", "+976", "+977",
   "+992", "+993", "+994", "+995", "+996", "+998"]

/-- The profile columns of a user. -/
structure Profile where
  fullName : String
  preferredLocale : String
  preferredCurrency : String
  phonePrefix : Option String
  phone : Option String
  timezone : Option String
  jobTitle : Option String
  pronouns : Option String
  bio : Option String
  deriving DecidableEq, Repr

/-- The validated data of a request: what is missing is `none`. -/
structure Patch where
  fullName : Option String
  preferredLocale : Option String
  preferredCurrency : Option String
  /-- The prefix and the number. -/
  phone : Option (Option (String × String))
  timezone : Option (Option String)
  jobTitle : Option (Option String)
  pronouns : Option (Option String)
  bio : Option (Option String)
  deriving DecidableEq, Repr

section

variable (u : UnicodeTables) (pyStr : ν → String) (availableTimezones : List String)

/-- `_PhoneWriteSerializer`. -/
def phoneWriteSerializer : JsValue ν → Checked (String × String)
  | .object _ entries =>
    both
      (requiredField entries "prefix" fun v =>
        (CharField.run u pyStr { maxLength := 5 } v).bind (oneOf supportedPhonePrefixes))
      (requiredField entries "number" (CharField.run u pyStr { minLength := 4, maxLength := 15 }))
  | _ => fail .invalid

def updateUserSerializer (data : Entries ν) : Checked Patch :=
  let text := CharField.run u pyStr
  (both (optionalField data "full_name" (text { minLength := 3, maxLength := 255 }))
    (both (optionalField data "preferred_locale" fun v =>
        (text { maxLength := 10 } v).bind (oneOf supportedLocales))
      (both (optionalField data "preferred_currency" fun v =>
          (text { maxLength := 3 } v).bind (oneOf supportedCurrencies))
        (both (optionalField data "phone" (nullable (phoneWriteSerializer u pyStr)))
          (both (optionalField data "timezone" (nullable fun v =>
              (text { maxLength := 50 } v).bind (oneOf availableTimezones)))
            (both (optionalField data "job_title" (nullable (text { maxLength := 100 })))
              (both (optionalField data "pronouns" (nullable (text { maxLength := 50 })))
                (optionalField data "bio" (nullable (text { maxLength := 500 })))))))))).map
    fun ⟨fullName, preferredLocale, preferredCurrency, phone, timezone, jobTitle, pronouns, bio⟩ =>
      { fullName, preferredLocale, preferredCurrency, phone, timezone, jobTitle, pronouns, bio }

/-- `setattr` of what is there. -/
def Profile.update (p : Profile) (attrs : Patch) : Profile where
  fullName := attrs.fullName.getD p.fullName
  preferredLocale := attrs.preferredLocale.getD p.preferredLocale
  preferredCurrency := attrs.preferredCurrency.getD p.preferredCurrency
  phonePrefix := (attrs.phone.map fun phone => phone.map Prod.fst).getD p.phonePrefix
  phone := (attrs.phone.map fun phone => phone.map Prod.snd).getD p.phone
  timezone := attrs.timezone.getD p.timezone
  jobTitle := attrs.jobTitle.getD p.jobTitle
  pronouns := attrs.pronouns.getD p.pronouns
  bio := attrs.bio.getD p.bio

/-- `AccountView.patch`. -/
def accountPatch (p : Profile) (data : Entries ν) : Checked Profile :=
  (updateUserSerializer u pyStr availableTimezones data).map p.update

end

def stringOrNull : Option String → JsValue ν
  | none => .null
  | some s => .string (js s)

/-- `UserSerializer`, the profile fields. -/
def userSerializer (p : Profile) : Entries ν :=
  [(js "full_name", .string (js p.fullName)),
   (js "preferred_locale", .string (js p.preferredLocale)),
   (js "preferred_currency", .string (js p.preferredCurrency)),
   (js "phone",
    if p.phonePrefix = none ∧ p.phone = none then .null
    else .object .ordinary
      [(js "prefix", stringOrNull p.phonePrefix), (js "number", stringOrNull p.phone)]),
   (js "timezone", stringOrNull p.timezone),
   (js "job_title", stringOrNull p.jobTitle),
   (js "pronouns", stringOrNull p.pronouns),
   (js "bio", stringOrNull p.bio)]

/-! ### What is accepted -/

theorem map_eq_ok {x : Checked α} {f : α → β} {y : β} :
    x.map f = .ok y ↔ ∃ a, x = .ok a ∧ f a = y := by
  cases x with
  | ok a => simp [Except.map]
  | error e => simp [Except.map]

theorem both_eq_ok {a : Checked α} {b : Checked β} {x : α} {y : β} :
    both a b = .ok (x, y) ↔ a = .ok x ∧ b = .ok y := by
  cases a with
  | ok a' => cases b <;> simp [both]
  | error e => cases b <;> simp [both]

/-- The text passes the field. -/
structure CharField.Fits (f : CharField) (value : String) : Prop where
  ne_empty : value ≠ ""
  min_le : f.minLength ≤ value.toList.length
  le_max : value.toList.length ≤ f.maxLength
  no_null : '\x00' ∉ value.toList

theorem CharField.codes_eq_nil_iff (f : CharField) (value : String) :
    f.codes value = [] ↔ f.minLength ≤ value.toList.length ∧
      value.toList.length ≤ f.maxLength ∧ '\x00' ∉ value.toList := by
  unfold codes
  rw [List.append_eq_nil_iff, List.append_eq_nil_iff]
  constructor
  · rintro ⟨⟨hmax, hmin⟩, hnull⟩
    refine ⟨?_, ?_, ?_⟩
    · by_contra h
      rw [if_pos (Nat.lt_of_not_le h)] at hmin
      cases hmin
    · by_contra h
      rw [if_pos (Nat.lt_of_not_le h)] at hmax
      cases hmax
    · intro h
      rw [if_pos h] at hnull
      cases hnull
  · rintro ⟨hmin, hmax, hnull⟩
    rw [if_neg (Nat.not_lt_of_le hmax), if_neg (Nat.not_lt_of_le hmin), if_neg hnull]
    exact ⟨⟨rfl, rfl⟩, rfl⟩

section

variable {u : UnicodeTables} {pyStr : ν → String} {availableTimezones : List String}

theorem CharField.ofText_eq_ok {f : CharField} {raw value : String} :
    f.ofText u raw = .ok value ↔ value = strip u raw ∧ f.Fits value := by
  unfold ofText
  dsimp only
  constructor
  · intro h
    split at h
    · cases h
    next hne =>
      split at h
      next hcodes =>
        cases h
        obtain ⟨hmin, hmax, hnull⟩ := (f.codes_eq_nil_iff _).mp hcodes
        exact ⟨rfl, hne, hmin, hmax, hnull⟩
      · cases h
  · rintro ⟨rfl, hne, hmin, hmax, hnull⟩
    rw [if_neg hne, if_pos ((f.codes_eq_nil_iff _).mpr ⟨hmin, hmax, hnull⟩)]

theorem CharField.run_string (f : CharField) (s : String) :
    f.run u pyStr (.string (js s)) = f.ofText u s := by
  have hback : toUSVString (js s) = s.toList := toUSVString_utf16 s.toList
  unfold run
  dsimp only
  rw [hback, String.ofList_toList]
  exact if_pos rfl

/-- The check of a text: which texts pass, and what they are stored as. -/
def ChecksText (run : JsValue ν → Checked α) (Passes : String → Prop) (stored : String → α) :
    Prop :=
  ∀ (s : String) (x : α), run (.string (js s)) = .ok x ↔ Passes s ∧ x = stored s

theorem CharField.checksText (f : CharField) :
    ChecksText (f.run u pyStr) (fun s => f.Fits (strip u s)) (strip u) := by
  intro s x
  rw [f.run_string, f.ofText_eq_ok]
  constructor
  · rintro ⟨rfl, hfits⟩
    exact ⟨hfits, rfl⟩
  · rintro ⟨hfits, rfl⟩
    exact ⟨rfl, hfits⟩

theorem ChecksText.oneOf {run : JsValue ν → Checked String} {P : String → Prop}
    {g : String → String} (h : ChecksText run P g) (allowed : List String) :
    ChecksText (fun v => (run v).bind (oneOf allowed)) (fun s => P s ∧ g s ∈ allowed) g := by
  intro s x
  rw [Loops.bind_eq_ok]
  unfold Profiles.oneOf
  constructor
  · rintro ⟨value, hvalue, hx⟩
    obtain ⟨hs, rfl⟩ := (h s value).mp hvalue
    split at hx
    next hmem =>
      cases hx
      exact ⟨⟨hs, hmem⟩, rfl⟩
    next => cases hx
  · rintro ⟨⟨hs, hmem⟩, rfl⟩
    exact ⟨g s, (h s _).mpr ⟨hs, rfl⟩, if_pos hmem⟩

theorem ChecksText.nullable {run : JsValue ν → Checked α} {P : String → Prop} {g : String → α}
    (h : ChecksText run P g) {value : Option String} {x : Option α} :
    nullable run (stringOrNull value) = .ok x ↔
      (∀ s, value = some s → P s) ∧ x = value.map g := by
  cases value with
  | none =>
    constructor
    · intro hx
      cases hx
      exact ⟨fun s hs => (by cases hs), rfl⟩
    · rintro ⟨-, rfl⟩
      rfl
  | some s =>
    show (run (.string (js s))).map some = .ok x ↔ _
    constructor
    · intro hx
      rcases e : run (.string (js s)) with errors | a
      · rw [e] at hx
        cases hx
      · rw [e] at hx
        cases hx
        obtain ⟨hs, rfl⟩ := (h s a).mp e
        refine ⟨fun t ht => ?_, rfl⟩
        cases ht
        exact hs
    · rintro ⟨hs, rfl⟩
      rw [(h s _).mpr ⟨hs s rfl, rfl⟩]
      rfl

section

variable {entries : Entries ν} {name : String} {run : JsValue ν → Checked α}

theorem optionalField_eq_ok {v : JsValue ν} {x : Option α}
    (h : entryOf entries name = some v) :
    optionalField entries name run = .ok x ↔ ∃ a, run v = .ok a ∧ x = some a := by
  unfold optionalField
  rw [h]
  rcases e : run v with errors | a
  · simp [e]
  · simp [e, eq_comm]

theorem optionalField_of_none (h : entryOf entries name = none) :
    optionalField entries name run = .ok none := by
  unfold optionalField
  rw [h]

theorem requiredField_eq_ok {v : JsValue ν} {a : α} (h : entryOf entries name = some v) :
    requiredField entries name run = .ok a ↔ run v = .ok a := by
  unfold requiredField optionalField
  rw [h]
  rcases e : run v with errors | b
  · simp [e]
  · simp [e]

/-- A text that may be left out. -/
theorem ChecksText.optionalField {P : String → Prop} {g : String → α} (hrun : ChecksText run P g)
    {value : Option String} {x : Option α}
    (h : entryOf entries name = value.map fun s => .string (js s)) :
    optionalField entries name run = .ok x ↔
      (∀ s, value = some s → P s) ∧ x = value.map g := by
  cases value with
  | none =>
    rw [optionalField_of_none h]
    constructor
    · intro hx
      cases hx
      exact ⟨fun s hs => (by cases hs), rfl⟩
    · rintro ⟨-, rfl⟩
      rfl
  | some s =>
    rw [optionalField_eq_ok h]
    constructor
    · rintro ⟨a, ha, rfl⟩
      obtain ⟨hs, rfl⟩ := (hrun s a).mp ha
      refine ⟨fun t ht => ?_, rfl⟩
      cases ht
      exact hs
    · rintro ⟨hs, rfl⟩
      exact ⟨g s, (hrun s _).mpr ⟨hs s rfl, rfl⟩, rfl⟩

/-- A text that may be cleared. -/
theorem ChecksText.clearable {P : String → Prop} {g : String → α} (hrun : ChecksText run P g)
    {value : Option String} {x : Option (Option α)}
    (h : entryOf entries name = some (stringOrNull value)) :
    Profiles.optionalField entries name (Profiles.nullable run) = .ok x ↔
      (∀ s, value = some s → P s) ∧ x = some (value.map g) := by
  rw [optionalField_eq_ok h]
  constructor
  · rintro ⟨a, ha, rfl⟩
    obtain ⟨hs, rfl⟩ := hrun.nullable.mp ha
    exact ⟨hs, rfl⟩
  · rintro ⟨hs, rfl⟩
    exact ⟨value.map g, hrun.nullable.mpr ⟨hs, rfl⟩, rfl⟩

end

/-- The prefix and the number are checked one by one. -/
theorem phoneWriteSerializer_eq_ok {proto : JsProto} {entries : Entries ν}
    {phonePrefix number : String} {x : String × String}
    (hcode : entryOf entries "prefix" = some (.string (js phonePrefix)))
    (hnumber : entryOf entries "number" = some (.string (js number))) :
    phoneWriteSerializer u pyStr (.object proto entries) = .ok x ↔
      (CharField.Fits { maxLength := 5 } (strip u phonePrefix) ∧
        strip u phonePrefix ∈ supportedPhonePrefixes) ∧
      CharField.Fits { minLength := 4, maxLength := 15 } (strip u number) ∧
      x = (strip u phonePrefix, strip u number) := by
  obtain ⟨x₁, x₂⟩ := x
  unfold phoneWriteSerializer
  dsimp only
  rw [both_eq_ok, requiredField_eq_ok hcode, requiredField_eq_ok hnumber,
    (CharField.checksText _).oneOf supportedPhonePrefixes, CharField.checksText, Prod.mk.injEq]
  tauto

/-- The fields are checked one by one. -/
theorem updateUserSerializer_eq_ok {data : Entries ν} {patch : Patch} :
    updateUserSerializer u pyStr availableTimezones data = .ok patch ↔
      optionalField data "full_name" (CharField.run u pyStr { minLength := 3, maxLength := 255 })
          = .ok patch.fullName ∧
      (optionalField data "preferred_locale" fun v =>
          (CharField.run u pyStr { maxLength := 10 } v).bind (oneOf supportedLocales))
          = .ok patch.preferredLocale ∧
      (optionalField data "preferred_currency" fun v =>
          (CharField.run u pyStr { maxLength := 3 } v).bind (oneOf supportedCurrencies))
          = .ok patch.preferredCurrency ∧
      optionalField data "phone" (nullable (phoneWriteSerializer u pyStr)) = .ok patch.phone ∧
      optionalField data "timezone" (nullable fun v =>
          (CharField.run u pyStr { maxLength := 50 } v).bind (oneOf availableTimezones))
          = .ok patch.timezone ∧
      optionalField data "job_title" (nullable (CharField.run u pyStr { maxLength := 100 }))
          = .ok patch.jobTitle ∧
      optionalField data "pronouns" (nullable (CharField.run u pyStr { maxLength := 50 }))
          = .ok patch.pronouns ∧
      optionalField data "bio" (nullable (CharField.run u pyStr { maxLength := 500 }))
          = .ok patch.bio := by
  obtain ⟨fullName, preferredLocale, preferredCurrency, phone, timezone, jobTitle, pronouns, bio⟩ :=
    patch
  dsimp only
  rw [← both_eq_ok, ← both_eq_ok, ← both_eq_ok, ← both_eq_ok, ← both_eq_ok, ← both_eq_ok,
    ← both_eq_ok]
  unfold updateUserSerializer
  dsimp only
  rw [map_eq_ok]
  constructor
  · rintro ⟨a, ha, h⟩
    cases h
    exact ha
  · intro h
    exact ⟨_, h, rfl⟩

end

end Profiles

end Saasmint
