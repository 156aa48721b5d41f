/-
Saasmint/App/JwtDecode.lean

What the app reads of an access token (`decodeJwtPayload` of src/lib/jwtDecode.ts,
`isTokenExpired` of src/proxy.ts, `getCurrentUserIdFromCookie` of src/lib/jwt.ts)
against what the backend writes into it (`create_access_token` of
apps/users/authentication.py).

The JWT library signs the JSON of the payload; the app reads it with nothing but
string functions, `atob` and `JSON.parse`, and verifies nothing.  Every token that
the backend issues is read as it was written, and a token that the proxy lets
through passes for half a minute what the backend checks of the token itself
(`app_reads_issued`); the user and the time of the last password change, which the
backend reads after that, are not the app's to know.

The arithmetic of JavaScript is a parameter (`JsNumbers`), exact on integers below
2^53 (`JsNumbers.Exact`).
-/
import Saasmint.App.LocalePaths
import Saasmint.Lib.Base64
import Saasmint.Lib.JsonRoundTrip
import Saasmint.Lib.Utf8
import Saasmint.Users.AccessTokens
import Saasmint.Users.Navigations

namespace Saasmint

namespace JwtDecode

open JsStr JsValue JsonText

/-! ### The backend -/

/-- The payload of `create_access_token` as the JWT library serializes it. -/
def payloadJson (p : AccessPayload) : PyJson :=
  .dict
    [("sub".toList, .str (PyStr.uuidText p.sub).toList),
     ("email".toList, .str p.email.toList),
     ("type".toList, .str p.type.toList),
     ("iat".toList, .int p.iat),
     ("exp".toList, .int p.exp),
     ("pwd_iat".toList, .int p.pwdIat)]

/-- `create_access_token`. -/
def createAccessToken (jwt : Jwt (List Char)) (user : User) (passwordChangedAt : Option Micros)
    (now : Micros) : List Char :=
  jwt.encode (accessPayload user passwordChangedAt now)

/-- A segment of the compact serialization. -/
def segment (bytes : List Nat) : List Char := (Base64.urlEncode bytes).map Char.ofNat

/-- The library encodes the payload as three segments with "." between them. -/
def Compact (jwt : Jwt (List Char)) (p : AccessPayload) : Prop :=
  ∃ header signature : List Nat, (∀ b ∈ header, b < 256) ∧ (∀ b ∈ signature, b < 256) ∧
    jwt.encode p = segment header ++ '.' :: (segment (Utf8.encode (dumps (payloadJson p)))
      ++ '.' :: segment signature)

/-- The library accepts the payload from its `iat` until its `exp`. -/
def Accepts (jwt : Jwt (List Char)) (p : AccessPayload) : Prop :=
  ∀ now, p.iat ≤ second now → now < p.exp * 1000000 →
    jwt.decode (jwt.encode p) now = .ok p.claims

/-- The last microsecond that `datetime` has. -/
def maxDatetime : Micros := 253402300799999999

/-! ### The app -/

/-- The numbers of JavaScript. -/
structure JsNumbers (ν : Type) where
  ofNumeral : JsStr → ν
  ofNat : Nat → ν
  mul : ν → ν → ν
  add : ν → ν → ν
  lt : ν → ν → Bool

/-- They are exact on integers below 2^53. -/
structure JsNumbers.Exact {ν : Type} (N : JsNumbers ν) : Prop where
  ofNumeral_eq : ∀ n < 2 ^ 53, N.ofNumeral (utf16 (Nat.toDigits 10 n)) = N.ofNat n
  mul_eq : ∀ m n, m < 2 ^ 53 → n < 2 ^ 53 → m * n < 2 ^ 53 →
    N.mul (N.ofNat m) (N.ofNat n) = N.ofNat (m * n)
  add_eq : ∀ m n, m + n < 2 ^ 53 → N.add (N.ofNat m) (N.ofNat n) = N.ofNat (m + n)
  lt_eq : ∀ m n, m < 2 ^ 53 → n < 2 ^ 53 → N.lt (N.ofNat m) (N.ofNat n) = decide (m < n)

/-- The last time that `Date` has, in milliseconds. -/
def maxDate : Nat := 8640000000000000

/-- `atob`: a code unit for each byte, `none` where it throws. -/
def atob (data : JsStr) : Option JsStr :=
  (Base64.forgivingDecode (data.map UInt16.toNat)).map fun bytes => bytes.map UInt16.ofNat

variable {ν : Type} (N : JsNumbers ν)

/-- `isRecord`: the entries of a plain object. -/
def isRecord : JsValue ν → Option (List (JsStr × JsValue ν))
  | .object .ordinary entries | .object .null entries => some entries
  | _ => none

def decodeJwtPayload (token : JsStr) : Option (List (JsStr × JsValue ν)) :=
  match token.splitOn 0x2E with
  | [_, part, _] =>
    if part = [] then none
    else
      let base64 := part.map fun u => if u = 0x2D then 0x2B else if u = 0x5F then 0x2F else u
      (atob base64).bind fun text => (parse N.ofNumeral text).bind isRecord
  | _ => none

/-- `payload[key]`. -/
def claim (payload : List (JsStr × JsValue ν)) (key : JsStr) : Option (JsValue ν) :=
  (payload.find? fun e => e.1 = key).map Prod.snd

/-- The user of the access token cookie. -/
def getCurrentUserIdFromCookie (token : Option JsStr) : Option JsStr :=
  (token.filter (· ≠ [])).bind fun token =>
    (decodeJwtPayload N token).bind fun payload =>
      match claim payload (js "sub") with
      | some (.string sub) => some sub
      | _ => none

/-- `now` is `Date.now()`. -/
def isTokenExpired (now : Nat) (token : JsStr) : Bool :=
  match decodeJwtPayload N token with
  | none => true
  | some payload =>
    match claim payload (js "exp") with
    | some (.number exp) => N.lt (N.mul exp (N.ofNat 1000)) (N.add (N.ofNat now) (N.ofNat 30000))
    | _ => true

/-! ### The segments -/

theorem toNat_ofNat_ascii : ∀ c < 0x80, (Char.ofNat c).toNat = c := by decide

/-- A segment as code units. -/
theorem utf16_segment {bytes : List Nat} (h : ∀ b ∈ bytes, b < 256) :
    utf16 (segment bytes) = (Base64.urlEncode bytes).map UInt16.ofNat := by
  have hcode : ∀ c ∈ Base64.urlEncode bytes, c < 0x80 := by
    intro c hc
    have := Base64.urlEncode_range h hc
    omega
  rw [segment, utf16_eq_map, List.map_map]
  · apply List.map_congr_left
    intro c hc
    rw [Function.comp_apply, unit, toNat_ofNat_ascii c (hcode c hc)]
  · intro d hd
    obtain ⟨c, hc, rfl⟩ := List.mem_map.mp hd
    rw [toNat_ofNat_ascii c (hcode c hc)]
    have := hcode c hc
    omega

theorem urlEncode_unit {bytes : List Nat} (h : ∀ b ∈ bytes, b < 256) {c : Nat}
    (hc : c ∈ Base64.urlEncode bytes) : (UInt16.ofNat c).toNat = c ∧ c ≠ 0x2E := by
  have := Base64.urlEncode_range h hc
  rw [UInt16.toNat_ofNat']
  omega

theorem dot_not_mem {bytes : List Nat} (h : ∀ b ∈ bytes, b < 256) :
    (0x2E : UInt16) ∉ utf16 (segment bytes) := by
  rw [utf16_segment h]
  intro hmem
  obtain ⟨c, hc, heq⟩ := List.mem_map.mp hmem
  obtain ⟨hnat, hne⟩ := urlEncode_unit h hc
  rw [heq] at hnat
  exact hne hnat.symm

/-- The app reads a segment as the library has written it. -/
theorem atob_segment {bytes : List Nat} (h : ∀ b ∈ bytes, b < 256) :
    atob ((utf16 (segment bytes)).map fun u =>
        if u = 0x2D then 0x2B else if u = 0x5F then 0x2F else u)
      = some (bytes.map UInt16.ofNat) := by
  have hstandard : (((utf16 (segment bytes)).map fun u : UInt16 =>
      if u = 0x2D then 0x2B else if u = 0x5F then 0x2F else u).map UInt16.toNat)
      = Base64.toStandard (Base64.urlEncode bytes) := by
    rw [utf16_segment h, List.map_map, List.map_map, Base64.toStandard]
    apply List.map_congr_left
    intro c hc
    have hnat := (urlEncode_unit h hc).1
    have hiff : ∀ d < 2 ^ 16, UInt16.ofNat c = UInt16.ofNat d ↔ c = d := by
      intro d hd
      rw [← UInt16.toNat_inj, hnat, UInt16.toNat_ofNat', Nat.mod_eq_of_lt hd]
    show UInt16.toNat (if UInt16.ofNat c = UInt16.ofNat 0x2D then 0x2B
      else if UInt16.ofNat c = UInt16.ofNat 0x5F then 0x2F else UInt16.ofNat c) = _
    simp only [hiff 0x2D (by decide), hiff 0x5F (by decide)]
    split_ifs
    · rfl
    · rfl
    · exact hnat
  rw [atob, hstandard, Base64.forgivingDecode_toStandard h]
  rfl

/-- The bytes of an ASCII text, taken for code units, are the text. -/
theorem encode_of_ascii {s : List Char} (h : Ascii s) :
    (Utf8.encode s).map UInt16.ofNat = utf16 s ∧ ∀ b ∈ Utf8.encode s, b < 256 := by
  induction s with
  | nil => exact ⟨rfl, fun b hb => absurd hb List.not_mem_nil⟩
  | cons c s ih =>
    obtain ⟨hc, hs⟩ := ascii_cons.mp h
    obtain ⟨heq, hlt⟩ := ih hs
    rw [Utf8.encode_cons, Utf8.encodeChar_of_ascii hc, utf16_cons, units_of_lt (by omega)]
    refine ⟨by rw [List.map_append, heq]; rfl, fun b hb => ?_⟩
    rcases List.mem_cons.mp hb with rfl | hb
    · omega
    · exact hlt b hb

/-- A byte is in some segment. -/
theorem utf16_segment_ne_nil {bytes : List Nat} (h : bytes ≠ []) : utf16 (segment bytes) ≠ [] := by
  rcases bytes with - | ⟨b, - | ⟨c, - | ⟨d, bytes⟩⟩⟩
  · exact absurd rfl h
  all_goals
    rw [segment, Base64.urlEncode, Base64.sextets, List.map_cons, List.map_cons, utf16_cons]
    exact fun hnil => units_ne_nil _ (List.append_eq_nil_iff.mp hnil).1

/-! ### What the app reads -/

/-- The payload as an object of JavaScript. -/
def payloadEntries (p : AccessPayload) : List (JsStr × JsValue ν) :=
  [(js "sub", .string (js (PyStr.uuidText p.sub))),
   (js "email", .string (js p.email)),
   (js "type", .string (js p.type)),
   (js "iat", .number (N.ofNumeral (utf16 (Nat.toDigits 10 p.iat)))),
   (js "exp", .number (N.ofNumeral (utf16 (Nat.toDigits 10 p.exp)))),
   (js "pwd_iat", .number (N.ofNumeral (utf16 (Nat.toDigits 10 p.pwdIat))))]

theorem toJs_payloadJson (p : AccessPayload) :
    toJs N.ofNumeral (payloadJson p) = .object .ordinary (payloadEntries N p) := by
  have hkeys : ((payloadEntries N p).map Prod.fst).Nodup := by
    show [js "sub", js "email", js "type", js "iat", js "exp", js "pwd_iat"].Nodup
    decide
  rw [payloadJson, toJs]
  exact objectOf_of_nodup hkeys

/-- **A token is read as it was written.** -/
theorem decodeJwtPayload_encode {jwt : Jwt (List Char)} {p : AccessPayload} (h : Compact jwt p) :
    decodeJwtPayload N (utf16 (jwt.encode p)) = some (payloadEntries N p) := by
  obtain ⟨header, signature, hheader, hsignature, henc⟩ := h
  obtain ⟨htext, hbytes⟩ := encode_of_ascii (dumps_ascii (payloadJson p))
  have hsplit : (utf16 (jwt.encode p)).splitOn 0x2E
      = [utf16 (segment header), utf16 (segment (Utf8.encode (dumps (payloadJson p)))),
        utf16 (segment signature)] := by
    rw [henc, utf16_append, utf16_cons, utf16_append, utf16_cons]
    show (utf16 (segment header) ++
      0x2E :: (utf16 (segment _) ++ 0x2E :: utf16 (segment signature))).splitOn
      0x2E = _
    rw [List.splitOn_append_cons_self_of_not_mem (dot_not_mem hheader),
      List.splitOn_append_cons_self_of_not_mem (dot_not_mem hbytes),
      List.splitOn_eq_singleton (dot_not_mem hsignature)]
  have hne : utf16 (segment (Utf8.encode (dumps (payloadJson p)))) ≠ [] := by
    apply utf16_segment_ne_nil
    rw [payloadJson, dumps]
    exact List.cons_ne_nil _ _
  unfold decodeJwtPayload
  rw [hsplit]
  dsimp only
  rw [if_neg hne, atob_segment hbytes, htext, Option.bind_some, parse_dumps, Option.bind_some,
    toJs_payloadJson]
  rfl

theorem claim_sub (p : AccessPayload) :
    claim (payloadEntries N p) (js "sub") = some (.string (js (PyStr.uuidText p.sub))) := rfl

theorem claim_exp (p : AccessPayload) :
    claim (payloadEntries N p) (js "exp")
      = some (.number (N.ofNumeral (utf16 (Nat.toDigits 10 p.exp)))) := by
  have hne : js "sub" ≠ js "exp" ∧ js "email" ≠ js "exp" ∧ js "type" ≠ js "exp" ∧
      js "iat" ≠ js "exp" := by decide
  simp [claim, payloadEntries, hne.1, hne.2.1, hne.2.2.1, hne.2.2.2]

theorem encode_ne_nil {jwt : Jwt (List Char)} {p : AccessPayload} (h : Compact jwt p) :
    utf16 (jwt.encode p) ≠ [] := by
  obtain ⟨header, signature, -, -, henc⟩ := h
  rw [henc, utf16_append, utf16_cons]
  intro hnil
  exact units_ne_nil '.' (List.append_eq_nil_iff.mp (List.append_eq_nil_iff.mp hnil).2).1

theorem getCurrentUserIdFromCookie_encode {jwt : Jwt (List Char)} {p : AccessPayload}
    (h : Compact jwt p) :
    getCurrentUserIdFromCookie N (some (utf16 (jwt.encode p)))
      = some (js (PyStr.uuidText p.sub)) := by
  unfold getCurrentUserIdFromCookie
  rw [Option.filter_some, if_pos (by simpa using encode_ne_nil h), Option.bind_some,
    decodeJwtPayload_encode N h, Option.bind_some, claim_sub]

variable {N}

theorem isTokenExpired_encode (hN : N.Exact) {jwt : Jwt (List Char)} {p : AccessPayload}
    (h : Compact jwt p) (hexp : p.exp * 1000 < 2 ^ 53) {now : Nat} (hnow : now ≤ maxDate) :
    isTokenExpired N now (utf16 (jwt.encode p)) = decide (p.exp * 1000 < now + 30000) := by
  have hsum : now + 30000 < 2 ^ 53 := by
    unfold maxDate at hnow
    omega
  unfold isTokenExpired
  rw [decodeJwtPayload_encode N h]
  dsimp only
  rw [claim_exp]
  dsimp only
  rw [hN.ofNumeral_eq _ (by omega), hN.mul_eq _ _ (by omega) (by omega) hexp, hN.add_eq _ _ hsum,
    hN.lt_eq _ _ hexp hsum]

/-- In whole seconds the proxy reads a token as its `exp`. -/
theorem isTokenExpired_navigations (hN : N.Exact) {jwt : Jwt (List Char)} {p : AccessPayload}
    (h : Compact jwt p) (hexp : p.exp * 1000 < 2 ^ 53) {now : Nat} (hnow : now * 1000 ≤ maxDate) :
    isTokenExpired N (now * 1000) (utf16 (jwt.encode p))
      = Saasmint.isTokenExpired now ⟨some p.exp⟩ := by
  rw [isTokenExpired_encode hN h hexp hnow]
  have hiff : p.exp * 1000 < now * 1000 + 30000 ↔ (p.exp : Int) < now + 30 := by omega
  exact decide_eq_decide.mpr hiff

theorem exp_le {user : User} {passwordChangedAt : Option Micros} {issued : Micros}
    (h : issued + accessTokenMicros ≤ maxDatetime) :
    (accessPayload user passwordChangedAt issued).exp * 1000 < 2 ^ 53 := by
  have hlast : ∀ last : Nat, last ≤ 253402300799999999 → last / 1000000 * 1000 < 2 ^ 53 := by omega
  exact hlast _ h

theorem lt_exp_of_not_expired {exp now time : Nat} (hlive : ¬ exp * 1000 < now + 30000)
    (htime : time < (now + 30000) * 1000) : time < exp * 1000000 := by
  calc
    time < (now + 30000) * 1000 := htime
    _ ≤ exp * 1000 * 1000 := Nat.mul_le_mul_right 1000 (Nat.not_lt.mp hlive)
    _ = exp * 1000000 := Nat.mul_assoc exp 1000 1000

theorem checkToken_of_decode {jwt : Jwt (List Char)} {user : User}
    {passwordChangedAt : Option Micros} {issued now : Micros}
    (h : jwt.decode (createAccessToken jwt user passwordChangedAt issued) now
      = .ok (accessPayload user passwordChangedAt issued).claims) :
    checkToken jwt user (createAccessToken jwt user passwordChangedAt issued) now
      = .ok (accessPayload user passwordChangedAt issued).claims := by
  unfold checkToken
  rw [h]
  simp [AccessPayload.claims, accessPayload]

/-- **Every access token that the backend issues is read by the app as it was
written**, whatever the address of the user is: the payload has the six claims,
the id is that of the user and of no other, and the token counts as expired from
thirty seconds before its `exp`.  What counts as not expired passes, for thirty
seconds from then, the checks that the backend makes on the token itself. -/
theorem app_reads_issued (hN : N.Exact) {jwt : Jwt (List Char)} {user : User}
    {passwordChangedAt : Option Micros} {issued : Micros} (huser : user.id < 2 ^ 128)
    (hissued : issued + accessTokenMicros ≤ maxDatetime)
    (hcompact : Compact jwt (accessPayload user passwordChangedAt issued))
    (haccepts : Accepts jwt (accessPayload user passwordChangedAt issued)) :
    let token := createAccessToken jwt user passwordChangedAt issued
    let payload := accessPayload user passwordChangedAt issued
    decodeJwtPayload N (utf16 token) = some (payloadEntries N payload) ∧
      (∀ id < 2 ^ 128, getCurrentUserIdFromCookie N (some (utf16 token))
        = some (js (PyStr.uuidText id)) ↔ id = user.id) ∧
      (∀ now ≤ maxDate,
        isTokenExpired N now (utf16 token) = true ↔ payload.exp * 1000 < now + 30000) ∧
      ∀ now ≤ maxDate, isTokenExpired N now (utf16 token) = false →
        ∀ t, payload.iat ≤ second t → t < (now + 30000) * 1000 →
          checkToken jwt user token t = .ok payload.claims := by
  have hexp : (accessPayload user passwordChangedAt issued).exp * 1000 < 2 ^ 53 := exp_le hissued
  intro token payload
  refine ⟨decodeJwtPayload_encode N hcompact, ?_, ?_, ?_⟩
  · intro id hid
    have hread : getCurrentUserIdFromCookie N (some (utf16 token))
        = some (js (PyStr.uuidText user.id)) := getCurrentUserIdFromCookie_encode N hcompact
    rw [hread, Option.some.injEq]
    constructor
    · intro heq
      have htext := congrArg PyStr.uuidOfText (js_injective heq)
      rw [PyStr.uuidOfText_uuidText hid, PyStr.uuidOfText_uuidText huser] at htext
      exact (Option.some.inj htext).symm
    · rintro rfl
      rfl
  · intro now hnow
    rw [show isTokenExpired N now (utf16 token) = _ from
      isTokenExpired_encode hN hcompact hexp hnow]
    exact decide_eq_true_iff
  · intro now hnow hlive t hiat ht
    rw [show isTokenExpired N now (utf16 token) = _ from
      isTokenExpired_encode hN hcompact hexp hnow]
      at hlive
    apply checkToken_of_decode
    apply haccepts t hiat
    exact lt_exp_of_not_expired (of_decide_eq_false hlive) ht

/-! ### A token -/

/-- Numbers that are exact everywhere. -/
def exactNumbers : JsNumbers Nat where
  ofNumeral s := Nat.ofDigitChars 10 (toUSVString s) 0
  ofNat n := n
  mul m n := m * n
  add m n := m + n
  lt m n := decide (m < n)

theorem exactNumbers_exact : exactNumbers.Exact where
  ofNumeral_eq n _ := by
    show Nat.ofDigitChars 10 (toUSVString (utf16 (Nat.toDigits 10 n))) 0 = n
    rw [toUSVString_utf16, Nat.ofDigitChars_ten_toDigits]
  mul_eq _ _ _ _ _ := rfl
  add_eq _ _ _ := rfl
  lt_eq _ _ _ _ := rfl

/-- The header `{"alg":"HS256","typ":"JWT"}`, and 32 bytes for a signature. -/
def compactText (p : AccessPayload) : List Char :=
  segment (Utf8.encode (dumps (.dict [("alg".toList, .str "HS256".toList),
      ("typ".toList, .str "JWT".toList)])))
    ++ '.' :: (segment (Utf8.encode (dumps (payloadJson p))) ++ '.' :: segment
      (List.replicate 32 251))

/-- A library that knows one token. -/
def knownJwt (p : AccessPayload) : Jwt (List Char) where
  encode := compactText
  decode token now :=
    if token = compactText p then plainJwt.decode p now else .error .invalidToken

theorem knownJwt_compact (p : AccessPayload) : Compact (knownJwt p) p :=
  ⟨_, List.replicate 32 251, (encode_of_ascii (dumps_ascii _)).2, by decide, rfl⟩

theorem knownJwt_accepts (p : AccessPayload) : Accepts (knownJwt p) p := by
  intro now hiat hexp
  have hdecode : (knownJwt p).decode ((knownJwt p).encode p) now = plainJwt.decode p now := by
    simp only [knownJwt, if_true]
  rw [hdecode]
  exact plainJwt_verifies.decode_ok p now hiat hexp

/-- A user whose address is not ASCII. -/
def umlautUser : User := ⟨7, "ann@müller.de"⟩

def umlautPayload : AccessPayload := accessPayload umlautUser none 1700000000000000

/-- The token of the user. -/
def umlautToken : List Char :=
  createAccessToken (knownJwt umlautPayload) umlautUser none 1700000000000000

theorem app_reads_issued_umlaut :
    decodeJwtPayload exactNumbers (utf16 umlautToken)
        = some (payloadEntries exactNumbers umlautPayload) ∧
      (∀ id < 2 ^ 128, getCurrentUserIdFromCookie exactNumbers (some (utf16 umlautToken))
        = some (js (PyStr.uuidText id)) ↔ id = umlautUser.id) ∧
      (∀ now ≤ maxDate, isTokenExpired exactNumbers now (utf16 umlautToken) = true ↔
        umlautPayload.exp * 1000 < now + 30000) ∧
      ∀ now ≤ maxDate, isTokenExpired exactNumbers now (utf16 umlautToken) = false →
        ∀ t, umlautPayload.iat ≤ second t → t < (now + 30000) * 1000 →
          checkToken (knownJwt umlautPayload) umlautUser umlautToken t = .ok umlautPayload.claims :=
  app_reads_issued exactNumbers_exact (by decide) (by decide) (knownJwt_compact umlautPayload)
    (knownJwt_accepts umlautPayload)

end JwtDecode

end Saasmint
