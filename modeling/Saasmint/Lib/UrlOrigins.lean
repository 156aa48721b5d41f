/-
Saasmint/Lib/UrlOrigins.lean

Two readers of an absolute http or https URL: `urllib.parse` of Python, which
takes it apart as it is written (`urlsplit`, `hostname`), and the URL standard,
by which a browser finds the host that it goes to (`browserOrigin`).

They differ.  To a browser any number of slashes and backslashes is the start of
the authority and a backslash ends it, the host is decoded and encoded by a host
parser, and a port is a number.  On a URL that is written plainly they agree
(`browserOrigin_eq`, `urlsplit_urlText`, `hostname_eq`).

The host parser is a parameter, and so is what Python's reader looks up: the
character database, the normal form NFKC, and which bracketed addresses it
takes.
-/
import Saasmint.Lib.PyStr
import Saasmint.Lib.WhatwgUrl

namespace UrlOrigins

open Whatwg

/-! ### Schemes -/

def isAlpha (c : Char) : Bool :=
  (0x41 ≤ c.toNat && c.toNat ≤ 0x5A) || (0x61 ≤ c.toNat && c.toNat ≤ 0x7A)

def isDigit (c : Char) : Bool := 0x30 ≤ c.toNat && c.toNat ≤ 0x39

def isSchemeChar (c : Char) : Bool :=
  isAlpha c || isDigit c || c = '+' || c = '-' || c = '.'

/-- The scheme, in lower case, and what stands behind its colon. -/
def splitScheme (url : List Char) : Option (List Char × List Char) :=
  let scheme := url.takeWhile (· ≠ ':')
  match url.dropWhile (· ≠ ':') with
  | [] => none
  | _ :: rest =>
    if scheme.head?.any isAlpha && scheme.all isSchemeChar then some (scheme.map Char.toLower, rest)
    else none

/-- What stands behind the last `c`, or everything. -/
def afterLast (c : Char) (s : List Char) : List Char := (s.reverse.takeWhile (· ≠ c)).reverse

/-! ### Python's reader -/

structure PyTables where
  unicode : PyStr.UnicodeTables
  nfkc : List Char → List Char
  /-- The authorities with brackets that are taken. -/
  bracketed : List Char → Bool

/-- Tables that suffice for ASCII without brackets. -/
def asciiPyTables : PyTables where
  unicode := PyStr.asciiTables
  nfkc s := s
  bracketed _ := false

structure Split where
  scheme : List Char
  netloc : List Char
  deriving DecidableEq, Repr

/-- `_checknetloc`: no character that NFKC turns into a delimiter. -/
def checkNetloc (t : PyTables) (netloc : List Char) : Bool :=
  let n := netloc.filter fun c => c ≠ '@' && c ≠ ':' && c ≠ '#' && c ≠ '?'
  netloc.all PyStr.isAscii || t.nfkc n = n ||
    !(t.nfkc n).any fun c => c = '/' || c = '?' || c = '#' || c = '@' || c = ':'

/-- `urlsplit`; `none` is the `ValueError`. -/
def urlsplit (t : PyTables) (url : List Char) : Option Split :=
  let url := (url.dropWhile isC0OrSpace).filter fun c => !isTabOrNewline c
  let parts := (splitScheme url).getD ([], url)
  let netloc :=
    if "//".toList.isPrefixOf parts.2 then
      (parts.2.drop 2).takeWhile fun c => !(c = '/' || c = '?' || c = '#')
    else []
  if netloc.contains '[' != netloc.contains ']' then none
  else if netloc.contains '[' && !t.bracketed netloc then none
  else if checkNetloc t netloc then some ⟨parts.1, netloc⟩
  else none

/-- `parsed.hostname or ""`. -/
def hostname (t : PyTables) (netloc : List Char) : List Char :=
  let hostinfo := afterLast '@' netloc
  let host :=
    if hostinfo.contains '[' then
      ((hostinfo.dropWhile (· ≠ '[')).drop 1).takeWhile (· ≠ ']')
    else hostinfo.takeWhile (· ≠ ':')
  -- a zone keeps its case
  (PyStr.lower t.unicode (String.ofList (host.takeWhile (· ≠ '%')))).toList
    ++ host.dropWhile (· ≠ '%')

/-! ### The standard's reader -/

/-- The origin of an http or https URL, with the port that it is written with. -/
structure Origin where
  scheme : List Char
  host : List Char
  port : Option Nat
  deriving DecidableEq, Repr

def isHttp (scheme : List Char) : Bool := scheme = "http".toList || scheme = "https".toList

def defaultPort (scheme : List Char) : Nat := if scheme = "http".toList then 80 else 443

/-- The host state: the text of the host, and of the port if there is a colon
outside of brackets. -/
def splitPort : Bool → List Char → List Char × Option (List Char)
  | _, [] => ([], none)
  | inside, c :: rest =>
    if c = ':' && !inside then ([], some rest)
    else
      let result := splitPort (if c = '[' then true else if c = ']' then false else inside) rest
      (c :: result.1, result.2)

/-- The port state; `none` is a failure. -/
def readPort : Option (List Char) → Option (Option Nat)
  | none | some [] => some none
  | some digits =>
    let value := Nat.ofDigitChars 10 digits 0
    if digits.all isDigit && value ≤ 0xFFFF then some (some value) else none

/-- The origin that a browser finds; `none` where it is no http or https URL. -/
def browserOrigin (hosts : List Char → Option (List Char)) (url : List Char) : Option Origin :=
  (splitScheme (clean url)).bind fun parts =>
    if isHttp parts.1 then
      let authority := (parts.2.dropWhile isSlash).takeWhile fun c => !endsAuthority c
      let result := splitPort false (afterLast '@' authority)
      if result.1 = [] then none
      else
        (hosts result.1).bind fun host =>
          (readPort result.2).map fun port => ⟨parts.1, host, port⟩
    else none

/-- What a browser finds an origin in is an http or https URL. -/
theorem isHttp_of_browserOrigin {hosts : List Char → Option (List Char)} {url : List Char}
    {o : Origin} (h : browserOrigin hosts url = some o) : isHttp o.scheme = true := by
  obtain ⟨parts, -, h⟩ := Option.bind_eq_some_iff.mp h
  dsimp only at h
  split at h
  next hhttp =>
    split at h
    next => cases h
    next =>
      obtain ⟨host, -, h⟩ := Option.bind_eq_some_iff.mp h
      obtain ⟨port, -, rfl⟩ := Option.map_eq_some_iff.mp h
      exact hhttp
  next => cases h

/-! ### Plain URLs -/

/-- A lower-case letter, a digit, a hyphen or a dot. -/
def isHostChar (c : Char) : Bool :=
  (0x61 ≤ c.toNat && c.toNat ≤ 0x7A) || isDigit c || c = '-' || c = '.'

/-- The text of a port, with its colon. -/
def portText : Option Nat → List Char
  | none => []
  | some port => ':' :: (toString port).toList

/-- An http or https URL of an origin: the scheme, two slashes, the host, and the
port if there is one.  The tail is what follows. -/
def urlText (o : Origin) (tail : List Char) : List Char :=
  o.scheme ++ "://".toList ++ (o.host ++ portText o.port) ++ tail

/-- An origin that is written plainly: with a scheme in lower case and a host of
plain characters. -/
structure PlainOrigin (o : Origin) : Prop where
  scheme : isHttp o.scheme = true
  host : ∀ c ∈ o.host, isHostChar c = true
  host_ne : o.host ≠ []
  port : ∀ p ∈ o.port, p ≤ 0xFFFF

/-- A path, a query or a fragment of visible characters, or nothing. -/
structure PlainTail (tail : List Char) : Prop where
  visible : ∀ c ∈ tail, 0x20 < c.toNat
  head : ∀ c, tail.head? = some c → c = '/' ∨ c = '?' ∨ c = '#'

variable {tail : List Char} {o : Origin}

/-- The characters of a plain authority, with or without a port. -/
def isAuthorityChar (c : Char) : Bool := isHostChar c || c = ':'

/-- A port is written in digits. -/
theorem isDigit_toString {port : Nat} {c : Char} (h : c ∈ (toString port).toList) :
    isDigit c = true := by
  rw [Nat.toString_eq_repr, Nat.toList_repr] at h
  have hdigit := Nat.isDigit_of_mem_toDigits (by decide) (by decide) h
  obtain ⟨hle, hge⟩ := Char.isDigit_iff_toNat.mp hdigit
  rw [isDigit, Bool.and_eq_true, decide_eq_true_eq, decide_eq_true_eq]
  exact ⟨hle, hge⟩

theorem PlainOrigin.isAuthorityChar (h : PlainOrigin o) :
    ∀ c ∈ o.host ++ portText o.port, UrlOrigins.isAuthorityChar c = true := by
  intro c hc
  rw [UrlOrigins.isAuthorityChar, Bool.or_eq_true]
  rcases List.mem_append.mp hc with hc | hc
  · exact Or.inl (h.host c hc)
  · cases hport : o.port with
    | none =>
      rw [hport] at hc
      cases hc
    | some port =>
      rw [hport] at hc
      rcases List.mem_cons.mp hc with rfl | hc
      · exact Or.inr (by decide)
      · left
        simp [isHostChar, isDigit_toString hc]

theorem isAuthorityChar_code {c : Char} (h : isAuthorityChar c = true) :
    0x20 < c.toNat ∧ c.toNat < 128 := by
  simp only [isAuthorityChar, isHostChar, isDigit, Bool.or_eq_true, Bool.and_eq_true,
    decide_eq_true_eq] at h
  rcases h with (((h | h) | h) | h) | h
  · omega
  · omega
  all_goals
    subst h
    decide

/-- No character of a plain authority is another one's. -/
theorem ne_of_isAuthorityChar {s : List Char} (h : ∀ c ∈ s, isAuthorityChar c = true) {d : Char}
    (hd : isAuthorityChar d = false) : ∀ c ∈ s, c ≠ d := by
  rintro c hc rfl
  exact absurd (h c hc) (Bool.eq_false_iff.mp hd)

/-! ### Parts -/

/-- What is taken ends at a border. -/
theorem takeWhile_border {p : Char → Bool} {s rest : List Char} (hs : ∀ c ∈ s, p c = true)
    (hrest : ∀ c, rest.head? = some c → p c = false) : (s ++ rest).takeWhile p = s := by
  rw [List.takeWhile_append_of_pos hs]
  cases rest with
  | nil => simp
  | cons c rest => rw [List.takeWhile_cons_of_neg (by simp [hrest c rfl]), List.append_nil]

theorem splitScheme_http {scheme : List Char} (h : isHttp scheme = true) (rest : List Char) :
    splitScheme (scheme ++ ':' :: rest) = some (scheme, rest) := by
  rcases (Bool.or_eq_true _ _).mp h with h | h
  · rw [of_decide_eq_true h]
    rfl
  · rw [of_decide_eq_true h]
    rfl

theorem afterLast_of_forall_ne {c : Char} {s : List Char} (h : ∀ d ∈ s, d ≠ c) :
    afterLast c s = s := by
  have hall : s.reverse.takeWhile (· ≠ c) = s.reverse :=
    List.takeWhile_eq_self_iff.mpr fun d hd => decide_eq_true (h d (List.mem_reverse.mp hd))
  rw [afterLast, hall, List.reverse_reverse]

theorem splitPort_plain {host : List Char} (h : ∀ c ∈ host, isHostChar c = true)
    (port : Option Nat) :
    splitPort false (host ++ portText port)
      = (host, port.map fun port => (toString port).toList) := by
  induction host with
  | nil =>
    cases port with
    | none => rfl
    | some port => rfl
  | cons c host ih =>
    have hc : isHostChar c = true := h c List.mem_cons_self
    have hne : ∀ d : Char, isHostChar d = false → c ≠ d := by
      rintro d hd rfl
      exact absurd hc (Bool.eq_false_iff.mp hd)
    rw [List.cons_append, splitPort, if_neg (by simp [hne ':' (by decide)]),
      if_neg (hne '[' (by decide)), if_neg (hne ']' (by decide)),
      ih fun d hd => h d (List.mem_cons_of_mem c hd)]

/-- A port is read back from its digits. -/
theorem readPort_toString {port : Nat} (h : port ≤ 0xFFFF) :
    readPort (some (toString port).toList) = some (some port) := by
  have hvalue : Nat.ofDigitChars 10 (toString port).toList 0 = port := by
    rw [Nat.toString_eq_repr, Nat.toList_repr, Nat.ofDigitChars_ten_toDigits]
  have hdigits : (toString port).toList.all isDigit = true :=
    List.all_eq_true.mpr fun c hc => isDigit_toString hc
  have hne : (toString port).toList ≠ [] := by
    rw [Nat.toString_eq_repr, Nat.toList_repr]
    exact Nat.toDigits_ne_nil
  obtain ⟨d, digits, htext⟩ := List.exists_cons_of_ne_nil hne
  rw [htext] at hvalue hdigits ⊢
  simp [readPort, hvalue, hdigits, h]

/-- A plain host is in lower case. -/
theorem lower_plain (u : PyStr.UnicodeTables) {host : List Char}
    (h : ∀ c ∈ host, isHostChar c = true) :
    (PyStr.lower u (String.ofList host)).toList = host := by
  rw [PyStr.lower, String.toList_ofList, String.toList_ofList]
  have hchar : ∀ c ∈ host, (if PyStr.isAscii c then [c.toLower] else u.lower c) = [c] := by
    intro c hc
    have hcode := (isAuthorityChar_code (by rw [isAuthorityChar, h c hc]; rfl)).2
    have hcase : ∀ n < 128, isHostChar (Char.ofNat n) = true →
        (Char.ofNat n).toLower = Char.ofNat n := by decide
    have hlower := hcase c.toNat hcode
    rw [Char.ofNat_toNat] at hlower
    have hascii : PyStr.isAscii c = true := decide_eq_true hcode
    rw [if_pos hascii, hlower (h c hc)]
  rw [List.flatMap_congr hchar, List.flatMap_singleton']

theorem afterLast_append {c : Char} (s : List Char) {rest : List Char} (h : ∀ d ∈ rest, d ≠ c) :
    afterLast c (s ++ c :: rest) = rest := by
  have hback : ∀ d ∈ rest.reverse, decide (d ≠ c) = true := fun d hd =>
    decide_eq_true (h d (List.mem_reverse.mp hd))
  rw [afterLast, List.reverse_append, List.reverse_cons, List.append_assoc,
    List.takeWhile_append_of_pos hback, List.singleton_append,
    List.takeWhile_cons_of_neg (by simp), List.append_nil, List.reverse_reverse]

theorem visible_scheme {scheme : List Char} (h : isHttp scheme = true) :
    ∀ c ∈ scheme ++ "://".toList, 0x20 < c.toNat := by
  rcases (Bool.or_eq_true _ _).mp h with h | h
  · rw [of_decide_eq_true h]
    decide
  · rw [of_decide_eq_true h]
    decide

/-! ### How a browser reads a URL -/

/-- **A browser finds the origin that the URL begins with**, whatever stands
behind the end of its authority. -/
theorem browserOrigin_eq {hosts : List Char → Option (List Char)} (h : PlainOrigin o)
    (hhost : hosts o.host = some o.host) (hvisible : ∀ c ∈ tail, 0x20 < c.toNat)
    (hend : ∀ c, tail.head? = some c → endsAuthority c = true) :
    browserOrigin hosts (urlText o tail) = some o := by
  have hchars := h.isAuthorityChar
  have hclean : clean (urlText o tail) = urlText o tail := by
    refine clean_visible ?_
    refine List.forall_mem_append.mpr
      ⟨List.forall_mem_append.mpr ⟨visible_scheme h.scheme, ?_⟩, hvisible⟩
    exact fun c hc => (isAuthorityChar_code (hchars c hc)).1
  have hscheme : splitScheme (urlText o tail)
      = some (o.scheme, '/' :: '/' :: (o.host ++ portText o.port ++ tail)) := by
    rw [← splitScheme_http h.scheme]
    simp [urlText]
  -- the slashes end where the host begins
  have hslash : ('/' :: '/' :: (o.host ++ portText o.port ++ tail)).dropWhile isSlash
      = o.host ++ portText o.port ++ tail := by
    obtain ⟨c, host, hcons⟩ := List.exists_cons_of_ne_nil h.host_ne
    have hc : isSlash c = false := by
      have hmem : c ∈ o.host ++ portText o.port := by simp [hcons]
      simp [isSlash, ne_of_isAuthorityChar hchars (d := '/') (by decide) c hmem,
        ne_of_isAuthorityChar hchars (d := '\\') (by decide) c hmem]
    rw [List.dropWhile_cons_of_pos (by decide), List.dropWhile_cons_of_pos (by decide), hcons]
    exact List.dropWhile_cons_of_neg (by simp [hc])
  have hauthority : (o.host ++ portText o.port ++ tail).takeWhile (fun c => !endsAuthority c)
      = o.host ++ portText o.port := by
    refine takeWhile_border ?_ fun c hc => by rw [hend c hc]; rfl
    intro c hc
    have hne : ∀ d : Char, isAuthorityChar d = false → c ≠ d := fun d hd =>
      ne_of_isAuthorityChar hchars hd c hc
    simp [endsAuthority, isSlash, hne '/' (by decide), hne '\\' (by decide),
      hne '?' (by decide), hne '#' (by decide)]
  have hlast : afterLast '@' (o.host ++ portText o.port) = o.host ++ portText o.port :=
    afterLast_of_forall_ne (ne_of_isAuthorityChar hchars (by decide))
  have hport : readPort (o.port.map fun port => (toString port).toList) = some o.port := by
    cases hp : o.port with
    | none => rfl
    | some port => exact readPort_toString (h.port port hp)
  unfold browserOrigin
  rw [hclean, hscheme]
  simp only [Option.bind_some, if_pos h.scheme, hslash, hauthority, hlast,
    splitPort_plain h.host, if_neg h.host_ne, hhost, hport, Option.map_some]

theorem PlainTail.endsAuthority (h : PlainTail tail) :
    ∀ c, tail.head? = some c → Whatwg.endsAuthority c = true := by
  intro c hc
  rcases h.head c hc with rfl | rfl | rfl
  all_goals rfl

/-! ### How Python reads a URL -/

/-- A visible ASCII character that neither ends an authority nor is a bracket. -/
def isNetlocChar (c : Char) : Bool :=
  0x20 < c.toNat && c.toNat < 128 &&
    !(c = '/' || c = '?' || c = '#' || c = '[' || c = ']')

theorem isNetlocChar_of_isAuthorityChar {c : Char} (h : isAuthorityChar c = true) :
    isNetlocChar c = true := by
  obtain ⟨hlow, hhigh⟩ := isAuthorityChar_code h
  have hne : ∀ d : Char, isAuthorityChar d = false → c ≠ d := by
    rintro d hd rfl
    exact absurd h (Bool.eq_false_iff.mp hd)
  simp [isNetlocChar, hlow, hhigh, hne '/' (by decide), hne '?' (by decide), hne '#' (by decide),
    hne '[' (by decide), hne ']' (by decide)]

/-- **Python takes the authority as it stands**, up to a slash, a question mark or
a number sign. -/
theorem urlsplit_eq (t : PyTables) {scheme netloc : List Char} (hscheme : isHttp scheme = true)
    (hnetloc : ∀ c ∈ netloc, isNetlocChar c = true) (htail : PlainTail tail) :
    urlsplit t (scheme ++ "://".toList ++ netloc ++ tail) = some ⟨scheme, netloc⟩ := by
  have hchar : ∀ c ∈ netloc, (0x20 < c.toNat ∧ c.toNat < 128) ∧
      (((c ≠ '/' ∧ c ≠ '?') ∧ c ≠ '#') ∧ c ≠ '[') ∧ c ≠ ']' := by
    intro c hc
    simpa [isNetlocChar] using hnetloc c hc
  have hvisible : ∀ c ∈ scheme ++ "://".toList ++ netloc ++ tail, 0x20 < c.toNat :=
    List.forall_mem_append.mpr ⟨List.forall_mem_append.mpr
      ⟨visible_scheme hscheme, fun c hc => (hchar c hc).1.1⟩, htail.visible⟩
  have hclean : ((scheme ++ "://".toList ++ netloc ++ tail).dropWhile isC0OrSpace).filter
      (fun c => !isTabOrNewline c) = scheme ++ "://".toList ++ netloc ++ tail := by
    rw [dropWhile_visible hvisible, filter_visible hvisible]
  have hparts : splitScheme (scheme ++ "://".toList ++ netloc ++ tail)
      = some (scheme, '/' :: '/' :: (netloc ++ tail)) := by
    rw [← splitScheme_http hscheme]
    simp
  have hslashes : "//".toList.isPrefixOf ('/' :: '/' :: (netloc ++ tail)) = true := rfl
  have htake : (netloc ++ tail).takeWhile (fun c => !(c = '/' || c = '?' || c = '#')) = netloc := by
    refine takeWhile_border ?_ ?_
    · intro c hc
      simp [(hchar c hc).2]
    · intro c hc
      rcases htail.head c hc with rfl | rfl | rfl
      all_goals rfl
  have hopen : netloc.contains '[' = false := by
    rw [← Bool.not_eq_true, List.contains_iff_mem]
    exact fun hmem => (hchar _ hmem).2.1.2 rfl
  have hclose : netloc.contains ']' = false := by
    rw [← Bool.not_eq_true, List.contains_iff_mem]
    exact fun hmem => (hchar _ hmem).2.2 rfl
  have hcheck : checkNetloc t netloc = true := by
    have hascii : netloc.all PyStr.isAscii = true :=
      List.all_eq_true.mpr fun c hc => decide_eq_true (hchar c hc).1.2
    rw [checkNetloc, hascii]
    rfl
  unfold urlsplit
  simp only [hclean, hparts, Option.getD_some, hslashes, if_true, List.drop_succ_cons,
    List.drop_zero, htake, hopen, hclose, hcheck]
  rfl

theorem urlsplit_urlText (t : PyTables) (h : PlainOrigin o) (htail : PlainTail tail) :
    urlsplit t (urlText o tail) = some ⟨o.scheme, o.host ++ portText o.port⟩ :=
  urlsplit_eq t h.scheme (fun c hc => isNetlocChar_of_isAuthorityChar (h.isAuthorityChar c hc))
    htail

/-- **Python finds the host behind the last `@`.** -/
theorem hostname_eq (t : PyTables) {netloc : List Char} (h : PlainOrigin o)
    (hlast : afterLast '@' netloc = o.host ++ portText o.port) : hostname t netloc = o.host := by
  have hbracket : (o.host ++ portText o.port).contains '[' = false := by
    rw [← Bool.not_eq_true, List.contains_iff_mem]
    exact fun hmem => ne_of_isAuthorityChar h.isAuthorityChar (by decide) _ hmem rfl
  have hhost : (o.host ++ portText o.port).takeWhile (· ≠ ':') = o.host := by
    refine takeWhile_border ?_ ?_
    · intro c hc
      refine decide_eq_true ?_
      rintro rfl
      exact absurd (h.host _ hc) (by decide)
    · intro c hc
      cases hport : o.port with
      | none =>
        rw [hport] at hc
        cases hc
      | some port =>
        rw [hport] at hc
        obtain rfl := Option.some.inj hc
        rfl
  have hzone : ∀ c ∈ o.host, decide (c ≠ '%') = true := by
    intro c hc
    refine decide_eq_true ?_
    rintro rfl
    exact absurd (h.host _ hc) (by decide)
  unfold hostname
  simp only [hlast, hbracket, hhost, Bool.false_eq_true, if_false]
  rw [List.takeWhile_eq_self_iff.mpr hzone, lower_plain t.unicode h.host,
    List.dropWhile_eq_nil_iff.mpr hzone, List.append_nil]

theorem hostname_plain (t : PyTables) (h : PlainOrigin o) :
    hostname t (o.host ++ portText o.port) = o.host :=
  hostname_eq t h (afterLast_of_forall_ne (ne_of_isAuthorityChar h.isAuthorityChar (by decide)))

end UrlOrigins
