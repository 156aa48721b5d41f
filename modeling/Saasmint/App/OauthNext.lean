/-
Saasmint/App/OauthNext.lean

The path that a visitor is sent to after an OAuth sign-in
(src/lib/oauthNext.ts).  `validateNext` takes any string and returns a path of
the allowlist, with or without a locale and a trailing slash, and with at most
the parameter `plan` behind it.

What it returns is in the normal form of the URL parser (`newUrl_emitted`), so
that it is read back as it stands: it stays on its origin, and validating it
once more changes nothing (`validateNext_safe`).
-/
import Saasmint.App.LocalePaths
import Saasmint.Lib.WhatwgUrl

namespace Saasmint

open JsStr UrlEncoded Whatwg

namespace OauthNext

/-! ### The validation -/

def oauthNextAllowlist : List JsStr :=
  [js "/dashboard", js "/subscription/checkout", js "/subscription/team-checkout"]

def oauthNextFallback : JsStr := js "/dashboard"

def planKey : List Char := "plan".toList

/-- `ALLOWED_QUERY_PARAMS[pathname]`. -/
def allowedQueryParams (pathname : JsStr) : Option (List (List Char)) :=
  if pathname = js "/subscription/checkout" then some [planKey]
  else if pathname = js "/subscription/team-checkout" then some [planKey]
  else none

def normalizeTrailingSlash (pathname : JsStr) : JsStr :=
  if 1 < pathname.length ∧ pathname.getLast? = some slash then pathname.dropLast else pathname

/-- The parameters that are taken over. -/
def safeParams (params : List (List Char × List Char)) (allowed : List (List Char)) :
    List (List Char × List Char) :=
  allowed.foldl
    (fun safe key =>
      match searchParamsGet key params with
      | some value => searchParamsSet key value safe
      | none => safe)
    []

def buildSafeSearch (url : Url) (pathname : JsStr) : List Char :=
  match allowedQueryParams pathname with
  | none => []
  | some allowed =>
    let search := serialize (safeParams url.searchParams allowed)
    if search = [] then [] else '?' :: search

/-- `validateNext`; `none` is `undefined` or `null`. -/
def validateNext (hosts : Hosts) (candidate : Option JsStr) (origin : JsStr) : JsStr :=
  match candidate with
  | none => oauthNextFallback
  | some candidate =>
    if candidate = [] then oauthNextFallback
    else if !(js "/").isPrefixOf candidate || (js "//").isPrefixOf candidate
        || (js "/\\").isPrefixOf candidate then
      oauthNextFallback
    else
      match newUrl hosts candidate origin with
      | none => oauthNextFallback
      | some url =>
        if url.origin ≠ origin then oauthNextFallback
        else
          let normalisedPath :=
            normalizeTrailingSlash (stripLocale Routing.locales (utf16 url.pathname))
          if !oauthNextAllowlist.contains normalisedPath then oauthNextFallback
          else utf16 (url.pathname ++ buildSafeSearch url normalisedPath)

/-! ### The query -/

/-- The query that is emitted for a value of `plan`. -/
def planQuery (value : Option (List Char)) : Option (List Char) :=
  value.map fun v => serialize [(planKey, v)]

/-- The value of `plan` that is kept for a path. -/
def keptPlan (pathname : JsStr) (params : List (List Char × List Char)) : Option (List Char) :=
  if pathname = js "/subscription/checkout" ∨ pathname = js "/subscription/team-checkout" then
    searchParamsGet planKey params
  else none

theorem serialize_ne_nil (p : List Char × List Char) : serialize [p] ≠ [] := by
  simp [serialize]

theorem safeParams_singleton (params : List (List Char × List Char)) (key : List Char) :
    safeParams params [key] = ((searchParamsGet key params).map fun v => [(key, v)]).getD [] := by
  show (match searchParamsGet key params with
    | some value => searchParamsSet key value []
    | none => []) = _
  cases searchParamsGet key params with
  | none => rfl
  | some v => rfl

theorem buildSafeSearch_eq (url : Url) (pathname : JsStr) :
    buildSafeSearch url pathname = searchText (planQuery (keptPlan pathname url.searchParams)) := by
  have hplan : (if serialize (safeParams url.searchParams [planKey]) = [] then []
      else '?' :: serialize (safeParams url.searchParams [planKey]))
        = searchText (planQuery (searchParamsGet planKey url.searchParams)) := by
    rw [safeParams_singleton]
    cases searchParamsGet planKey url.searchParams with
    | none => rfl
    | some v => exact if_neg (serialize_ne_nil _)
  unfold buildSafeSearch allowedQueryParams keptPlan
  by_cases h₁ : pathname = js "/subscription/checkout"
  · rw [if_pos h₁, if_pos (Or.inl h₁)]
    exact hplan
  · by_cases h₂ : pathname = js "/subscription/team-checkout"
    · rw [if_neg h₁, if_pos h₂, if_pos (Or.inr h₂)]
      exact hplan
    · rw [if_neg h₁, if_neg h₂, if_neg (not_or.mpr ⟨h₁, h₂⟩)]
      rfl

/-! ### The path -/

/-- The path of the allowlist that a path is, once its locale and a trailing
slash are taken off. -/
def normalised (pathname : List Char) : JsStr :=
  normalizeTrailingSlash (stripLocale Routing.locales (utf16 pathname))

theorem notAllowed_iff {pathname : JsStr} :
    (!oauthNextAllowlist.contains pathname) = true ↔ pathname ∉ oauthNextAllowlist := by
  rw [Bool.not_eq_true', ← Bool.not_eq_true, List.contains_iff_mem]

theorem eq_of_normalizeTrailingSlash (pathname : JsStr) :
    pathname = normalizeTrailingSlash pathname
      ∨ pathname = normalizeTrailingSlash pathname ++ [slash] := by
  unfold normalizeTrailingSlash
  split
  next h =>
    right
    exact (List.dropLast_append_getLast? slash h.2).symm
  next => exact Or.inl rfl

/-- What `stripLocale` takes off is a locale, and all of the path with it or up
to the next slash. -/
theorem eq_of_stripLocale {locales : List JsStr} (pathname : JsStr)
    (hpath : pathname.head? = some slash) :
    stripLocale locales pathname = pathname ∨ stripLocale locales pathname = [slash]
      ∨ ∃ locale ∈ locales, pathname = slash :: locale ++ stripLocale locales pathname := by
  obtain ⟨t, rfl⟩ := List.head?_eq_some_iff.mp hpath
  unfold stripLocale
  simp only [splitOn_slash_cons]
  rcases splitOn_cases slash t with ⟨-, hsplit⟩ | ⟨seg, rest, -, rfl, hsplit⟩
  · rw [hsplit]
    by_cases hmem : t ≠ [] ∧ t ∈ locales
    · exact Or.inr (Or.inl (by simp [hmem]))
    · exact Or.inl (if_neg hmem)
  · rw [hsplit]
    by_cases hmem : seg ≠ [] ∧ seg ∈ locales
    · refine Or.inr (Or.inr ⟨seg, hmem.2, ?_⟩)
      simp [hmem]
    · exact Or.inl (if_neg hmem)

/-- The allowlist as texts. -/
def allowedTexts : List (List Char) :=
  ["/dashboard".toList, "/subscription/checkout".toList, "/subscription/team-checkout".toList]

/-- A path that is accepted is a locale or none, a path of the allowlist, and a
slash or none. -/
theorem eq_of_normalised {pathname : List Char} (hhead : pathname.head? = some '/')
    (h : normalised pathname ∈ oauthNextAllowlist) :
    ∃ locale ∈ [] :: Saasmint.locales.map (fun l => '/' :: l.toList),
      ∃ path ∈ allowedTexts, ∃ tail ∈ [[], ['/']], pathname = locale ++ (path ++ tail) := by
  obtain ⟨path, hpath, hnorm⟩ : ∃ path ∈ allowedTexts, utf16 path = normalised pathname :=
    List.mem_map.mp h
  obtain ⟨tail, htail, hstrip⟩ : ∃ tail ∈ [[], ['/']],
      stripLocale Routing.locales (utf16 pathname) = utf16 (path ++ tail) := by
    rcases eq_of_normalizeTrailingSlash (stripLocale Routing.locales (utf16 pathname)) with e | e
    · exact ⟨[], List.mem_cons_self, by rw [List.append_nil, hnorm]; exact e⟩
    · refine ⟨['/'], List.mem_cons_of_mem _ List.mem_cons_self, ?_⟩
      rw [utf16_append, hnorm]
      exact e
  have hslash : (utf16 pathname).head? = some slash := by
    obtain ⟨t, rfl⟩ := List.head?_eq_some_iff.mp hhead
    rfl
  have hlong : ∀ path ∈ allowedTexts, ∀ tail ∈ [[], ['/']], utf16 (path ++ tail) ≠ [slash] := by
    decide
  rcases eq_of_stripLocale (utf16 pathname) hslash with e | e | ⟨locale, hlocale, e⟩
  · refine ⟨[], List.mem_cons_self, path, hpath, tail, htail, utf16_injective ?_⟩
    rw [List.nil_append, ← hstrip, e]
  · exact absurd (hstrip.symm.trans e) (hlong path hpath tail htail)
  · obtain ⟨l, hl, rfl⟩ := List.mem_map.mp hlocale
    refine ⟨'/' :: l.toList, List.mem_cons_of_mem _ (List.mem_map_of_mem hl), path, hpath, tail,
      htail, utf16_injective ?_⟩
    rw [utf16_append, ← hstrip]
    exact e

/-- A path in normal form, with one slash in front. -/
structure PlainPath (pathname : List Char) : Prop where
  plain : ∀ c ∈ pathname, isPlain c = true
  slash : pathname.head? = some '/'
  one : (pathname.drop 1).head?.any (· ≠ '/') = true

/-- The paths that are accepted are in normal form. -/
theorem plainPath_of_normalised {pathname : List Char} (hhead : pathname.head? = some '/')
    (h : normalised pathname ∈ oauthNextAllowlist) : PlainPath pathname := by
  have hlocales : ∀ locale ∈ [] :: Saasmint.locales.map (fun l => '/' :: l.toList),
      locale.all isPlain = true
        ∧ (locale = [] ∨ (locale.drop 1).head?.any (· ≠ '/') = true) := by decide
  have hpaths : ∀ path ∈ allowedTexts,
      path.all isPlain = true ∧ (path.drop 1).head?.any (· ≠ '/') = true := by decide
  have htails : ∀ tail ∈ [[], ['/']], tail.all isPlain = true := by decide
  obtain ⟨locale, hlocale, path, hpath, tail, htail, rfl⟩ := eq_of_normalised hhead h
  refine ⟨?_, hhead, ?_⟩
  · refine List.all_eq_true.mp ?_
    rw [List.all_append, List.all_append, (hlocales locale hlocale).1, (hpaths path hpath).1,
      htails tail htail]
    rfl
  · -- the second character is one of the locale, or of the path where there is none
    have hsecond : ∀ front back : List Char, (front.drop 1).head?.any (· ≠ '/') = true →
        ((front ++ back).drop 1).head?.any (· ≠ '/') = true := by
      intro front back hfront
      cases front with
      | nil => cases hfront
      | cons c front =>
        cases front with
        | nil => cases hfront
        | cons d front => exact hfront
    rcases (hlocales locale hlocale).2 with rfl | hlocale
    · exact hsecond path tail (hpaths path hpath).2
    · exact hsecond locale _ hlocale

/-! ### What is emitted -/

section Emitted

variable {hosts : Hosts} {origin : JsStr} {https : Bool} {pathname : List Char}

/-- A path in normal form with a value of `plan` is read as it stands. -/
theorem newUrl_emitted (hbase : hosts.base origin = some ⟨https, origin⟩)
    (hpath : PlainPath pathname) (value : Option (List Char)) :
    newUrl hosts (utf16 (pathname ++ searchText (planQuery value))) origin
      = some ⟨origin, (pathname.drop 1).splitOn '/', planQuery value⟩ := by
  obtain ⟨input, rfl⟩ := List.head?_eq_some_iff.mp hpath.slash
  have hinput : ∀ c ∈ input, isPlain c = true := fun c hc =>
    hpath.plain c (List.mem_cons_of_mem _ hc)
  have hslash : input.head? ≠ some '/' := by
    intro h
    have hone := hpath.one
    rw [List.drop_one, List.tail_cons, h] at hone
    exact absurd hone (by decide)
  have hquery : ∀ q ∈ planQuery value, ∀ c ∈ q, isPlainQuery c = true := by
    intro q hq
    obtain ⟨v, -, rfl⟩ := Option.map_eq_some_iff.mp hq
    exact isPlainQuery_serialize _
  unfold newUrl
  rw [hbase, Option.bind_some, toUSVString_utf16]
  exact parseReference_plain hosts _ hinput hslash hquery

/-- Its only parameter is the value. -/
theorem searchParams_emitted (segments : List (List Char)) (value : Option (List Char)) :
    (Url.mk origin segments (planQuery value)).searchParams
      = (value.map fun v => [(planKey, v)]).getD [] := by
  cases value with
  | none => rfl
  | some v => exact parse_serialize [(planKey, v)]

/-- It starts with one slash. -/
theorem isPrefixOf_emitted (hpath : PlainPath pathname) (text : List Char) :
    (js "/").isPrefixOf (utf16 (pathname ++ text)) = true
      ∧ (js "//").isPrefixOf (utf16 (pathname ++ text)) = false
      ∧ (js "/\\").isPrefixOf (utf16 (pathname ++ text)) = false := by
  obtain ⟨c, rest, rfl⟩ : ∃ c rest, pathname = '/' :: c :: rest := by
    obtain ⟨input, rfl⟩ := List.head?_eq_some_iff.mp hpath.slash
    cases input with
    | nil => exact absurd hpath.one (by decide)
    | cons c rest => exact ⟨c, rest, rfl⟩
  have hc : isPlain c = true := hpath.plain c (by simp)
  have hne : c ≠ '/' := by
    have hone := hpath.one
    simpa using hone
  have hback : c ≠ '\\' := by
    rintro rfl
    exact absurd hc (by decide)
  have hpre : ∀ s : String, (js s).isPrefixOf (utf16 ('/' :: c :: rest ++ text)) = true
      ↔ s.toList <+: '/' :: c :: (rest ++ text) := by
    intro s
    rw [List.isPrefixOf_iff_prefix]
    exact utf16_isPrefix_iff _ _
  refine ⟨(hpre "/").mpr ⟨_, rfl⟩, ?_, ?_⟩
  · rw [Bool.eq_false_iff, Ne, hpre]
    rintro ⟨t, ht⟩
    exact hne (List.cons.inj (List.cons.inj ht).2).1.symm
  · rw [Bool.eq_false_iff, Ne, hpre]
    rintro ⟨t, ht⟩
    exact hback (List.cons.inj (List.cons.inj ht).2).1.symm

/-- Validating it once more keeps the value where the path may have one. -/
theorem validateNext_emitted (hbase : hosts.base origin = some ⟨https, origin⟩)
    (hpath : PlainPath pathname) (h : normalised pathname ∈ oauthNextAllowlist)
    (value : Option (List Char)) :
    validateNext hosts (some (utf16 (pathname ++ searchText (planQuery value)))) origin
      = utf16 (pathname ++ searchText (planQuery (keptPlan (normalised pathname)
          ((value.map fun v => [(planKey, v)]).getD [])))) := by
  obtain ⟨hone, htwo, hback⟩ := isPrefixOf_emitted hpath (searchText (planQuery value))
  have hne : utf16 (pathname ++ searchText (planQuery value)) ≠ [] := by
    intro hnil
    rw [hnil] at hone
    exact absurd hone (by decide)
  have hpathname : (Url.mk origin ((pathname.drop 1).splitOn '/') (planQuery value)).pathname
      = pathname := by
    obtain ⟨input, rfl⟩ := List.head?_eq_some_iff.mp hpath.slash
    exact pathname_plain origin input _
  unfold validateNext
  simp only [hne, if_false, hone, htwo, hback, Bool.not_true, Bool.or_self, Bool.false_eq_true,
    newUrl_emitted hbase hpath value, ne_eq, not_true_eq_false, hpathname, buildSafeSearch_eq,
    searchParams_emitted]
  exact if_neg (mt notAllowed_iff.mp (not_not.mpr h))

end Emitted

/-- What is returned is the fallback, or the path of the candidate's URL with the
value of `plan` that is kept. -/
theorem validateNext_cases (hosts : Hosts) (candidate : Option JsStr) (origin : JsStr) :
    validateNext hosts candidate origin = oauthNextFallback
      ∨ ∃ reference url, candidate = some reference ∧ newUrl hosts reference origin = some url
          ∧ url.origin = origin ∧ normalised url.pathname ∈ oauthNextAllowlist
          ∧ validateNext hosts candidate origin
            = utf16 (url.pathname ++
                searchText (planQuery (keptPlan (normalised url.pathname) url.searchParams))) := by
  cases candidate with
  | none => exact Or.inl rfl
  | some reference =>
    unfold validateNext
    simp only [buildSafeSearch_eq]
    split
    · exact Or.inl rfl
    · split
      · exact Or.inl rfl
      · rcases e : newUrl hosts reference origin with - | url
        · exact Or.inl rfl
        · by_cases horigin : url.origin = origin
          · by_cases hpath : normalised url.pathname ∈ oauthNextAllowlist
            · refine Or.inr ⟨reference, url, rfl, e, horigin, hpath, ?_⟩
              simp only [ne_eq, horigin, not_true_eq_false, if_false]
              exact if_neg (mt notAllowed_iff.mp (not_not.mpr hpath))
            · left
              simp only [ne_eq, horigin, not_true_eq_false, if_false]
              exact if_pos (notAllowed_iff.mpr hpath)
          · exact Or.inl (if_pos horigin)

/-- What `validateNext` may return for a candidate. -/
structure SafeNext (hosts : Hosts) (candidate : Option JsStr) (origin result : JsStr) : Prop where
  /-- The fallback, or the path of the candidate's URL on this origin, which is in
  the allowlist, with the candidate's first `plan` on the checkout paths. -/
  value : result = oauthNextFallback
    ∨ ∃ reference url, candidate = some reference ∧ newUrl hosts reference origin = some url
        ∧ url.origin = origin ∧ normalised url.pathname ∈ oauthNextAllowlist
        ∧ result = utf16 (url.pathname ++
            searchText (planQuery (keptPlan (normalised url.pathname) url.searchParams)))
  /-- It is read back as a path of the allowlist on this origin, with no parameter
  or one. -/
  sameOrigin : ∃ url, newUrl hosts result origin = some url ∧ url.origin = origin
    ∧ normalised url.pathname ∈ oauthNextAllowlist
    ∧ (url.searchParams = [] ∨ ∃ v, url.searchParams = [(planKey, v)])
  noFragment : '#' ∉ toUSVString result
  oneSlash : (js "/").isPrefixOf result = true ∧ (js "//").isPrefixOf result = false
    ∧ (js "/\\").isPrefixOf result = false
  idempotent : validateNext hosts (some result) origin = result

/-- The safety of one emitted path, with a value only where it is kept. -/
theorem safeNext_emitted {hosts : Hosts} {origin : JsStr} {https : Bool}
    (hbase : hosts.base origin = some ⟨https, origin⟩) (pathname : List Char)
    (value : Option (List Char)) (hpath : PlainPath pathname)
    (h : normalised pathname ∈ oauthNextAllowlist)
    (hvalue : keptPlan (normalised pathname) ((value.map fun v => [(planKey, v)]).getD []) = value)
    {candidate : Option JsStr}
    (hcases : utf16 (pathname ++ searchText (planQuery value)) = oauthNextFallback
      ∨ ∃ reference url, candidate = some reference ∧ newUrl hosts reference origin = some url
        ∧ url.origin = origin ∧ normalised url.pathname ∈ oauthNextAllowlist
        ∧ utf16 (pathname ++ searchText (planQuery value)) = utf16 (url.pathname ++
            searchText (planQuery (keptPlan (normalised url.pathname) url.searchParams)))) :
    SafeNext hosts candidate origin (utf16 (pathname ++ searchText (planQuery value))) where
  value := hcases
  sameOrigin := by
    refine ⟨_, newUrl_emitted hbase hpath value, rfl, ?_, ?_⟩
    · obtain ⟨input, rfl⟩ := List.head?_eq_some_iff.mp hpath.slash
      rw [List.drop_one, List.tail_cons, pathname_plain]
      exact h
    · rw [searchParams_emitted]
      cases value with
      | none => exact Or.inl rfl
      | some v => exact Or.inr ⟨v, rfl⟩
  noFragment := by
    rw [toUSVString_utf16]
    intro hmem
    rcases List.mem_append.mp hmem with hmem | hmem
    · exact absurd (hpath.plain _ hmem) (by decide)
    · cases value with
      | none => cases hmem
      | some v =>
        rcases List.mem_cons.mp hmem with hmem | hmem
        · exact absurd hmem (by decide)
        · exact absurd (isPlainQuery_serialize _ _ hmem) (by decide)
  oneSlash := isPrefixOf_emitted hpath _
  idempotent := by rw [validateNext_emitted hbase hpath h value, hvalue]

/-- A value that is kept is kept again. -/
theorem keptPlan_keptPlan (pathname : JsStr) (params : List (List Char × List Char)) :
    keptPlan pathname (((keptPlan pathname params).map fun v => [(planKey, v)]).getD [])
      = keptPlan pathname params := by
  unfold keptPlan
  split
  · cases searchParamsGet planKey params with
    | none => rfl
    | some v => rfl
  · rfl

/-- For every candidate and every http or https origin, `validateNext` returns a
safe path. -/
theorem validateNext_safe (hosts : Hosts) (candidate : Option JsStr) (origin : JsStr)
    (https : Bool) (hbase : hosts.base origin = some ⟨https, origin⟩) :
    SafeNext hosts candidate origin (validateNext hosts candidate origin) := by
  rcases validateNext_cases hosts candidate origin with e | ⟨reference, url, hc, hurl, ho, hn, e⟩
  · rw [e]
    have hallowed : normalised "/dashboard".toList ∈ oauthNextAllowlist := by decide
    exact safeNext_emitted hbase "/dashboard".toList none
      (plainPath_of_normalised (by decide) hallowed) hallowed (by decide) (Or.inl rfl)
  · have hhead : url.pathname.head? = some '/' := by
      obtain ⟨base, -, hparse⟩ := Option.bind_eq_some_iff.mp hurl
      exact parseReference_pathname hparse
    rw [e]
    exact safeNext_emitted hbase url.pathname _ (plainPath_of_normalised hhead hn) hn
      (keptPlan_keptPlan _ _) (Or.inr ⟨reference, url, hc, hurl, ho, hn, rfl⟩)

/-- Hosts as in the tests: one origin, and no authority. -/
def exampleHosts : Hosts where
  base s := if s = js "https://app.example.com" then some ⟨true, s⟩ else none
  authority _ _ := none

theorem validateNext_checkout :
    SafeNext exampleHosts (some (js "/es/subscription/checkout/?utm=1&plan=pro#top"))
      (js "https://app.example.com")
      (validateNext exampleHosts (some (js "/es/subscription/checkout/?utm=1&plan=pro#top"))
        (js "https://app.example.com")) :=
  validateNext_safe exampleHosts _ _ true (by decide)

example : validateNext exampleHosts (some (js "/es/subscription/checkout/?utm=1&plan=pro#top"))
    (js "https://app.example.com") = js "/es/subscription/checkout/?plan=pro" := by decide

end OauthNext
end Saasmint
