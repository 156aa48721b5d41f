/-
Saasmint/App/LocalePaths.lean

The locale of a path.  Two functions take it off: `stripLocale` of the OAuth
next validation (src/lib/oauthNext.ts) works on the segments between slashes,
`stripLocalePrefix` of the routing and the proxy (src/lib/i18n/routing.ts) looks
for the longest locale that the path starts with.

They return the same string for every path and every list of locales without a
slash (`stripLocale_eq_stripLocalePrefix`): a locale followed by a slash, or by
the end, is the first segment.
-/
import Saasmint.Lib.JsStr
import Saasmint.Users.Navigations

namespace Saasmint

open JsStr

/-- The code unit of "/". -/
def slash : UInt16 := 0x2F

/-! ### The two functions -/

namespace OauthNext

def stripLocale (locales : List JsStr) (pathname : JsStr) : JsStr :=
  let segments := pathname.splitOn slash
  match segments[1]? with
  | none => pathname
  | some candidate =>
    -- the empty string is falsy
    if candidate ≠ [] ∧ candidate ∈ locales then slash :: [slash].intercalate (segments.drop 2)
    else pathname

end OauthNext

namespace Routing

/-- The locales, the longest first; the sort is stable. -/
def localesByLengthDesc (locales : List JsStr) : List JsStr :=
  locales.insertionSort fun a b => b.length ≤ a.length

def stripLocalePrefix (locales : List JsStr) (pathname : JsStr) : JsStr :=
  match (localesByLengthDesc locales).find? fun l =>
      (slash :: l ++ [slash]).isPrefixOf pathname || pathname = slash :: l with
  | none => pathname
  | some locale =>
    if locale = [] then pathname
    else
      let stripped := pathname.drop (locale.length + 1)
      if stripped = [] then [slash] else stripped

end Routing

/-! ### The first segment -/

theorem mem_localesByLengthDesc {locales : List JsStr} {l : JsStr} :
    l ∈ Routing.localesByLengthDesc locales ↔ l ∈ locales :=
  (List.perm_insertionSort _ locales).mem_iff

/-- What the search of `stripLocalePrefix` looks for is the first segment. -/
theorem matches_iff {l : JsStr} (hl : slash ∉ l) (t : JsStr) :
    ((slash :: l ++ [slash]).isPrefixOf (slash :: t) || slash :: t = slash :: l) = true
      ↔ (t.splitOn slash).head? = some l := by
  rw [← prefix_or_eq_iff hl t, Bool.or_eq_true, List.isPrefixOf_iff_prefix, decide_eq_true_eq,
    List.cons_append, List.cons_prefix_cons, List.cons.injEq]
  simp

/-- It finds the first segment where that is a locale, and else nothing. -/
theorem find_locale {locales : List JsStr} (hlocales : ∀ l ∈ locales, slash ∉ l) {t seg : JsStr}
    (hseg : (t.splitOn slash).head? = some seg) :
    ((Routing.localesByLengthDesc locales).find? fun l =>
        (slash :: l ++ [slash]).isPrefixOf (slash :: t) || slash :: t = slash :: l)
      = if seg ∈ locales then some seg else none := by
  have hmatch : ∀ l ∈ locales,
      ((slash :: l ++ [slash]).isPrefixOf (slash :: t) || slash :: t = slash :: l) = true
        ↔ l = seg := by
    intro l hl
    rw [matches_iff (hlocales l hl), hseg, Option.some.injEq, eq_comm]
  split
  next hmem =>
    rcases e : (Routing.localesByLengthDesc locales).find? _ with - | l
    · have hnone := List.find?_eq_none.mp e seg (mem_localesByLengthDesc.mpr hmem)
      exact absurd ((hmatch seg hmem).mpr rfl) hnone
    · have hl : l ∈ locales := mem_localesByLengthDesc.mp (List.mem_of_find?_eq_some e)
      have hfound := List.find?_some e
      rw [(hmatch l hl).mp hfound]
  next hmem =>
    refine List.find?_eq_none.mpr fun l hl h => hmem ?_
    have hl' : l ∈ locales := mem_localesByLengthDesc.mp hl
    exact (hmatch l hl').mp h ▸ hl'

/-! ### The agreement -/

theorem splitOn_slash_cons (t : JsStr) : (slash :: t).splitOn slash = [] :: t.splitOn slash :=
  List.splitOn_append_cons_self_of_not_mem List.not_mem_nil t

/-- `stripLocale` and `stripLocalePrefix` return the same string. -/
theorem stripLocale_eq_stripLocalePrefix (locales : List JsStr)
    (hlocales : ∀ l ∈ locales, slash ∉ l) (pathname : JsStr)
    (hpath : pathname.head? = some slash) :
    OauthNext.stripLocale locales pathname = Routing.stripLocalePrefix locales pathname := by
  obtain ⟨t, rfl⟩ := List.head?_eq_some_iff.mp hpath
  unfold OauthNext.stripLocale Routing.stripLocalePrefix
  simp only [splitOn_slash_cons]
  rcases splitOn_cases slash t with ⟨-, hsplit⟩ | ⟨seg, rest, -, rfl, hsplit⟩
  · -- one segment: the whole path behind the slash
    rw [find_locale hlocales (by rw [hsplit, List.head?_cons]), hsplit]
    by_cases hmem : t ∈ locales
    · simp [hmem]
    · simp [hmem]
  · -- a first segment, a slash and the rest
    rw [find_locale hlocales (by rw [hsplit, List.head?_cons]), hsplit]
    by_cases hmem : seg ∈ locales
    · simp [hmem]
    · simp [hmem]

/-- The locales of `routing`. -/
def Routing.locales : List JsStr := Saasmint.locales.map js

theorem stripLocale_eq_routing :
    OauthNext.stripLocale Routing.locales (js "/pt-BR/dashboard")
      = Routing.stripLocalePrefix Routing.locales (js "/pt-BR/dashboard") :=
  stripLocale_eq_stripLocalePrefix _ (by decide) _ (by decide)

/-- A locale that is a prefix of another does not hide it. -/
example : Routing.stripLocalePrefix [js "pt", js "pt-BR"] (js "/pt-BR/pt") = js "/pt" := by decide

/-! ### The proxy's strings -/

theorem js_append (s t : String) : js (s ++ t) = js s ++ js t := by
  unfold js
  rw [String.toList_append, utf16_append]

theorem js_injective : Function.Injective js := fun _ _ h =>
  String.toList_injective (utf16_injective h)

theorem js_slash : js "/" = [slash] := by decide

/-- The proxy's test for a locale, on characters and on code units. -/
theorem js_matches (pathname l : String) :
    ((slash :: js l ++ [slash]).isPrefixOf (js pathname) || js pathname = slash :: js l)
      = (startsWith pathname ("/" ++ l ++ "/") || pathname = "/" ++ l) := by
  have hopen : slash :: js l = js ("/" ++ l) := by rw [js_append, js_slash, List.singleton_append]
  have hclosed : slash :: js l ++ [slash] = js ("/" ++ l ++ "/") := by
    rw [hopen, js_append _ "/", js_slash]
  rw [Bool.eq_iff_iff, Bool.or_eq_true, Bool.or_eq_true, decide_eq_true_eq, decide_eq_true_eq,
    hclosed, hopen, js_injective.eq_iff, List.isPrefixOf_iff_prefix, startsWith,
    List.isPrefixOf_iff_prefix]
  exact or_congr_left (utf16_isPrefix_iff _ _)

/-- The proxy of the app strips the same locales off its paths. -/
theorem js_stripLocalePrefix (pathname : String) :
    js (Saasmint.stripLocalePrefix pathname)
      = Routing.stripLocalePrefix Routing.locales (js pathname) := by
  have hsort : Routing.localesByLengthDesc Routing.locales
      = Saasmint.localesByLengthDesc.map js := by decide
  have hlength : ∀ l ∈ Saasmint.localesByLengthDesc, (js l).length = l.length ∧ js l ≠ [] := by
    decide
  unfold Saasmint.stripLocalePrefix Routing.stripLocalePrefix
  rw [hsort, List.find?_map]
  simp only [Function.comp_def, js_matches]
  rcases e : Saasmint.localesByLengthDesc.find? _ with - | l
  · rfl
  · obtain ⟨hlen, hne⟩ := hlength l (List.mem_of_find?_eq_some e)
    have hfound := List.find?_some e
    obtain ⟨r, hr⟩ : ∃ r, pathname.toList = ("/" ++ l).toList ++ r := by
      rcases Bool.or_eq_true_iff.mp hfound with hpre | heq
      · obtain ⟨r, hr⟩ := List.isPrefixOf_iff_prefix.mp hpre
        exact ⟨"/".toList ++ r, by simp only [← hr, String.toList_append, List.append_assoc]⟩
      · exact ⟨[], by rw [of_decide_eq_true heq, List.append_nil]⟩
    have hjs : js pathname = (slash :: js l) ++ utf16 r := by
      show utf16 pathname.toList = _
      rw [hr, utf16_append]
      show js ("/" ++ l) ++ _ = _
      rw [js_append, js_slash, List.singleton_append]
    have hdrop : pathname.toList.drop (l.length + 1) = r := by
      rw [hr, String.toList_append]
      exact List.drop_left' (by simp [Nat.add_comm, String.length_toList])
    have hdrop' : (js pathname).drop ((js l).length + 1) = utf16 r := by
      rw [hjs]
      exact List.drop_left' (List.length_cons)
    simp only [Option.map_some, hne, if_false, hdrop, hdrop']
    cases r with
    | nil => exact js_slash
    | cons c r =>
      have hunits : utf16 (c :: r) ≠ [] := by
        rw [utf16_cons]
        exact List.append_ne_nil_of_left_ne_nil (units_ne_nil c) _
      rw [if_neg (List.cons_ne_nil c r), if_neg hunits]
      show utf16 (String.ofList _).toList = _
      rw [String.toList_ofList]

end Saasmint
