/-
Saasmint/Lib/WhatwgUrl.lean

The URL parser of the web for references that start with "/", against an http
or https base: `new URL(reference, base)`.  Such a reference is a path on the
host of the base, or, where a second slash or a backslash follows, names a host
of its own.

Computed here are the states that read the slashes, the path (with its dot
segments and percent-encoding) and the query.  What hosts are is a parameter
(`Hosts`): a base and an authority have an origin, or are refused.

A path of plain characters is read as it stands (`pathState_plain`), so that a
path and a query that are already in their normal form come back
(`parseReference_plain`).
-/
import Mathlib.Data.List.TakeWhile
import Saasmint.Lib.JsStr
import Saasmint.Lib.UrlEncoded

namespace Whatwg

open JsStr UrlEncoded

/-! ### Characters -/

/-- A slash, or a backslash, which counts as one in http and https URLs. -/
def isSlash (c : Char) : Bool := c = '/' || c = '\\'

/-- The end of an authority. -/
def endsAuthority (c : Char) : Bool := isSlash c || c = '?' || c = '#'

def isC0OrSpace (c : Char) : Bool := c.toNat ≤ 0x20

def isTabOrNewline (c : Char) : Bool := c = '\t' || c = '\n' || c = '\r'

/-- The C0 control percent-encode set. -/
def c0Set (c : Char) : Bool := c.toNat ≤ 0x1F || 0x7E < c.toNat

def querySet (c : Char) : Bool :=
  c0Set c || c = ' ' || c = '"' || c = '#' || c = '<' || c = '>'

def specialQuerySet (c : Char) : Bool := querySet c || c = '\''

def pathSet (c : Char) : Bool :=
  querySet c || c = '?' || c = '^' || c = '`' || c = '\x7b' || c = '\x7d'

/-- The segments that stand for the same directory. -/
def singleDots : List (List Char) := [".".toList, "%2e".toList, "%2E".toList]

/-- The segments that stand for the directory above. -/
def doubleDots : List (List Char) :=
  ["..".toList, ".%2e".toList, ".%2E".toList, "%2e.".toList, "%2E.".toList, "%2e%2e".toList,
    "%2e%2E".toList, "%2E%2e".toList, "%2E%2E".toList]

/-! ### Parsing -/

/-- A segment is complete; `more` says that a slash has ended it. -/
def closeSegment (path : List (List Char)) (segment : List Char) (more : Bool) :
    List (List Char) :=
  if segment ∈ doubleDots then if more then path.dropLast else path.dropLast ++ [[]]
  else if segment ∈ singleDots then if more then path else path ++ [[]]
  else path ++ [segment]

/-- The path state: the segments before, the segment so far, and the input.  It
ends before a query or a fragment. -/
def pathState : List (List Char) → List Char → List Char → List (List Char) × List Char
  | path, segment, [] => (closeSegment path segment false, [])
  | path, segment, c :: input =>
    if isSlash c then pathState (closeSegment path segment true) [] input
    else if c = '?' || c = '#' then (closeSegment path segment false, c :: input)
    else pathState path (segment ++ utf8PercentEncode pathSet c) input

/-- The query state.  A fragment ends the query. -/
def queryState (input : List Char) : List Char :=
  (input.takeWhile (· ≠ '#')).flatMap (utf8PercentEncode specialQuerySet)

/-- A URL: its origin, path and query.  The fragment is left out. -/
structure Url where
  origin : JsStr
  path : List (List Char)
  query : Option (List Char)
  deriving DecidableEq, Repr

/-- `url.pathname`. -/
def Url.pathname (url : Url) : List Char := url.path.flatMap fun segment => '/' :: segment

/-- `url.searchParams`. -/
def Url.searchParams (url : Url) : List (List Char × List Char) :=
  parse (Utf8.encode (url.query.getD []))

/-- `params.get(name)`: the first value. -/
def searchParamsGet (name : List Char) (params : List (List Char × List Char)) :
    Option (List Char) :=
  params.lookup name

/-- `params.set(name, value)`: the first pair of the name gets the value and the
others go, or a new pair comes last. -/
def searchParamsSet (name value : List Char) :
    List (List Char × List Char) → List (List Char × List Char)
  | [] => [(name, value)]
  | p :: params =>
    if p.1 = name then (name, value) :: params.filter (·.1 ≠ name)
    else p :: searchParamsSet name value params

/-- An http or https base. -/
structure Base where
  https : Bool
  origin : JsStr
  deriving DecidableEq, Repr

/-- What the standard does with hosts: the base that a string is, and the origin
of an authority in a URL of a scheme. -/
structure Hosts where
  base : JsStr → Option Base
  authority : Bool → List Char → Option JsStr

/-- From the path on. -/
def fromPath (origin : JsStr) (input : List Char) : Url :=
  let result := pathState [] [] input
  { origin := origin
    path := result.1
    query :=
      match result.2 with
      | '?' :: input => some (queryState input)
      | _ => none }

/-- What is left of the input before it is read. -/
def clean (input : List Char) : List Char :=
  (((input.dropWhile isC0OrSpace).reverse.dropWhile isC0OrSpace).reverse).filter
    fun c => !isTabOrNewline c

/-- Parse a reference that starts with "/"; for others it is not defined. -/
def parseReference (hosts : Hosts) (base : Base) (reference : List Char) : Option Url :=
  match clean reference with
  | '/' :: input =>
    if input.head?.any isSlash then
      let input := input.dropWhile isSlash
      let tail := input.dropWhile fun c => !endsAuthority c
      (hosts.authority base.https (input.takeWhile fun c => !endsAuthority c)).map fun origin =>
        fromPath origin (if tail.head?.any isSlash then tail.tail else tail)
    else some (fromPath base.origin input)
  | _ => none

/-- `new URL(reference, base)`; `none` is the `TypeError`. -/
def newUrl (hosts : Hosts) (reference base : JsStr) : Option Url :=
  (hosts.base base).bind fun base => parseReference hosts base (toUSVString reference)

/-! ### Paths -/

theorem closeSegment_false_ne_nil (path : List (List Char)) (segment : List Char) :
    closeSegment path segment false ≠ [] := by
  unfold closeSegment
  split
  · exact List.append_ne_nil_of_right_ne_nil _ (List.cons_ne_nil _ _)
  · split
    · exact List.append_ne_nil_of_right_ne_nil _ (List.cons_ne_nil _ _)
    · exact List.append_ne_nil_of_right_ne_nil _ (List.cons_ne_nil _ _)

theorem pathState_ne_nil (path : List (List Char)) (segment input : List Char) :
    (pathState path segment input).1 ≠ [] := by
  induction input generalizing path segment with
  | nil => exact closeSegment_false_ne_nil path segment
  | cons c input ih =>
    rw [pathState]
    split
    · exact ih _ _
    · split
      · exact closeSegment_false_ne_nil path segment
      · exact ih _ _

/-- A pathname starts with a slash. -/
theorem parseReference_pathname {hosts : Hosts} {base : Base} {reference : List Char} {url : Url}
    (h : parseReference hosts base reference = some url) : url.pathname.head? = some '/' := by
  have hpath : ∀ origin input, (fromPath origin input).pathname.head? = some '/' := by
    intro origin input
    obtain ⟨segment, path, hpath⟩ := List.exists_cons_of_ne_nil (pathState_ne_nil [] [] input)
    show ((pathState [] [] input).1.flatMap _).head? = _
    rw [hpath]
    rfl
  unfold parseReference at h
  split at h
  next =>
    split at h
    · obtain ⟨origin, -, rfl⟩ := Option.map_eq_some_iff.mp h
      exact hpath _ _
    · obtain rfl := Option.some.inj h
      exact hpath _ _
  next => cases h

/-- A character that the path state leaves as it is and that is in no dot
segment. -/
def isPlain (c : Char) : Bool := !pathSet c && c ≠ '\\' && c ≠ '.' && c ≠ '%'

theorem not_mem_dots {segment : List Char} (h : ∀ c ∈ segment, isPlain c = true) :
    segment ∉ doubleDots ∧ segment ∉ singleDots := by
  have hdots : ∀ dots ∈ doubleDots ++ singleDots, (dots.all isPlain) = false := by decide
  have hsegment : segment.all isPlain = true := List.all_eq_true.mpr h
  constructor
  · intro hmem
    exact absurd hsegment (Bool.eq_false_iff.mp (hdots _ (List.mem_append_left _ hmem)))
  · intro hmem
    exact absurd hsegment (Bool.eq_false_iff.mp (hdots _ (List.mem_append_right _ hmem)))

theorem closeSegment_plain (path : List (List Char)) {segment : List Char}
    (h : ∀ c ∈ segment, isPlain c = true) (more : Bool) :
    closeSegment path segment more = path ++ [segment] := by
  obtain ⟨hdouble, hsingle⟩ := not_mem_dots h
  rw [closeSegment, if_neg hdouble, if_neg hsingle]

/-- A path of plain characters is split at its slashes. -/
theorem pathState_plain {tail : List Char} (htail : ∀ c, tail.head? = some c → c = '?' ∨ c = '#')
    (input : List Char) (hinput : ∀ c ∈ input, isPlain c = true) :
    ∀ (path : List (List Char)) (segment : List Char), (∀ c ∈ segment, isPlain c = true) →
      pathState path segment (input ++ tail)
        = (path ++ (input.splitOn '/').modifyHead (segment ++ ·), tail) := by
  induction input with
  | nil =>
    intro path segment hsegment
    rw [List.nil_append, List.splitOn_nil, List.modifyHead_cons, List.append_nil]
    cases tail with
    | nil => rw [pathState, closeSegment_plain path hsegment]
    | cons c tail =>
      rw [pathState]
      rcases htail c rfl with rfl | rfl
      · rw [if_neg (by decide), if_pos (by decide), closeSegment_plain path hsegment]
      · rw [if_neg (by decide), if_pos (by decide), closeSegment_plain path hsegment]
  | cons c input ih =>
    intro path segment hsegment
    have hc : isPlain c = true := hinput c List.mem_cons_self
    have hrest : ∀ c ∈ input, isPlain c = true := fun d hd => hinput d (List.mem_cons_of_mem c hd)
    rw [List.cons_append, pathState, List.splitOn_cons_eq_if_modifyHead]
    by_cases hslash : c = '/'
    · subst hslash
      rw [if_pos (by decide), closeSegment_plain path hsegment, ih hrest _ [] (by simp)]
      obtain ⟨first, segments, hsplit⟩ := List.exists_cons_of_ne_nil (List.splitOn_ne_nil '/' input)
      simp [hsplit]
    · have hends : isSlash c = false ∧ (c = '?' || c = '#') = false ∧ pathSet c = false := by
        simp only [isPlain, pathSet, querySet, Bool.and_eq_true, Bool.not_eq_true',
          Bool.or_eq_false_iff, decide_eq_true_eq, decide_eq_false_iff_not] at hc
        simp only [isSlash, pathSet, querySet, Bool.or_eq_false_iff, decide_eq_false_iff_not]
        tauto
      obtain ⟨hnot, hend, hset⟩ := hends
      have hencode : utf8PercentEncode pathSet c = [c] := by
        rw [utf8PercentEncode, hset]
        rfl
      have hsegment' : ∀ d ∈ segment ++ [c], isPlain d = true := by
        intro d hd
        rcases List.mem_append.mp hd with hd | hd
        · exact hsegment d hd
        · exact List.mem_singleton.mp hd ▸ hc
      rw [hnot, hend, hencode, if_neg Bool.false_ne_true, if_neg Bool.false_ne_true,
        ih hrest _ _ hsegment', if_neg (by simpa using hslash)]
      obtain ⟨first, segments, hsplit⟩ := List.exists_cons_of_ne_nil (List.splitOn_ne_nil '/' input)
      simp [hsplit]

/-- Segments with a slash before each are their text with slashes between. -/
theorem flatMap_slash {segments : List (List Char)} (h : segments ≠ []) :
    (segments.flatMap fun segment => '/' :: segment) = '/' :: ['/'].intercalate segments := by
  induction segments with
  | nil => exact absurd rfl h
  | cons segment segments ih =>
    cases segments with
    | nil => simp
    | cons next segments =>
      rw [List.flatMap_cons, ih (List.cons_ne_nil _ _), List.intercalate_cons_cons]
      simp

/-! ### References in normal form -/

/-- A character that the query state leaves as it is. -/
def isPlainQuery (c : Char) : Bool := !specialQuerySet c

/-- A query with its question mark. -/
def searchText : Option (List Char) → List Char
  | none => []
  | some query => '?' :: query

theorem lt_of_not_querySet {c : Char} (h : querySet c = false) : 0x20 < c.toNat := by
  simp only [querySet, c0Set, Bool.or_eq_false_iff, decide_eq_false_iff_not] at h
  have hspace : c.toNat ≠ 0x20 := fun heq => h.1.1.1.1.2 (Char.toNat_inj.mp heq)
  omega

theorem lt_of_isPlainQuery {c : Char} (h : isPlainQuery c = true) : 0x20 < c.toNat := by
  simp only [isPlainQuery, specialQuerySet, Bool.not_eq_true', Bool.or_eq_false_iff] at h
  exact lt_of_not_querySet h.1

/-- What the serializer of parameters writes is a plain query. -/
theorem isPlainQuery_of_isFormChar {c : Char} (h : isFormChar c = true) :
    isPlainQuery c = true := by
  have hcode := isFormChar_code h
  have hne : ∀ d : Char, isFormChar d = false → c ≠ d := by
    rintro d hd rfl
    exact absurd h (Bool.eq_false_iff.mp hd)
  simp only [isPlainQuery, specialQuerySet, querySet, c0Set, Bool.not_eq_true',
    Bool.or_eq_false_iff, decide_eq_false_iff_not]
  refine ⟨⟨⟨⟨⟨⟨⟨?_, ?_⟩, hne ' ' (by decide)⟩, hne '"' (by decide)⟩, hne '#' (by decide)⟩,
    hne '<' (by decide)⟩, hne '>' (by decide)⟩, hne '\'' (by decide)⟩
  · omega
  · omega

theorem isPlainQuery_serialize (p : List Char × List Char) :
    ∀ c ∈ serialize [p], isPlainQuery c = true := by
  have hcomponent : ∀ s : List Char, ∀ c ∈ encodeComponent s, isPlainQuery c = true :=
    fun s c hc => isPlainQuery_of_isFormChar (isFormChar_encodeComponent s c hc)
  have htext : serialize [p] = encodeComponent p.1 ++ '=' :: encodeComponent p.2 := by
    simp [serialize]
  rw [htext]
  exact List.forall_mem_append.mpr
    ⟨hcomponent p.1, List.forall_mem_cons.mpr ⟨by decide, hcomponent p.2⟩⟩

theorem lt_of_isPlain {c : Char} (h : isPlain c = true) : 0x20 < c.toNat := by
  simp only [isPlain, pathSet, Bool.and_eq_true, Bool.not_eq_true', Bool.or_eq_false_iff] at h
  exact lt_of_not_querySet h.1.1.1.1.1.1.1.1

theorem queryState_plain {query : List Char} (h : ∀ c ∈ query, isPlainQuery c = true) :
    queryState query = query := by
  have hset : ∀ c ∈ query, specialQuerySet c = false := fun c hc => by
    simpa [isPlainQuery] using h c hc
  have hend : query.takeWhile (· ≠ '#') = query := by
    refine List.takeWhile_eq_self_iff.mpr fun c hc => decide_eq_true ?_
    rintro rfl
    exact absurd (hset _ hc) (by decide)
  have hencode : ∀ c ∈ query, utf8PercentEncode specialQuerySet c = [c] := fun c hc => by
    rw [utf8PercentEncode, hset c hc]
    rfl
  rw [queryState, hend, List.flatMap_congr hencode, List.flatMap_singleton']

theorem dropWhile_visible {input : List Char} (h : ∀ c ∈ input, 0x20 < c.toNat) :
    input.dropWhile isC0OrSpace = input := by
  cases input with
  | nil => rfl
  | cons c input =>
    refine List.dropWhile_cons_of_neg ?_
    have hc := h c List.mem_cons_self
    simp only [isC0OrSpace, decide_eq_true_eq]
    omega

theorem filter_visible {input : List Char} (h : ∀ c ∈ input, 0x20 < c.toNat) :
    input.filter (fun c => !isTabOrNewline c) = input := by
  refine List.filter_eq_self.mpr fun c hc => ?_
  have hc := h c hc
  simp only [isTabOrNewline, Bool.not_eq_true', Bool.or_eq_false_iff, decide_eq_false_iff_not]
  refine ⟨⟨?_, ?_⟩, ?_⟩
  all_goals
    rintro rfl
    exact absurd hc (by decide)

/-- Nothing is left out of visible characters. -/
theorem clean_visible {input : List Char} (h : ∀ c ∈ input, 0x20 < c.toNat) :
    clean input = input := by
  have hback : ∀ c ∈ input.reverse, 0x20 < c.toNat := fun c hc => h c (List.mem_reverse.mp hc)
  rw [clean, dropWhile_visible h, dropWhile_visible hback, List.reverse_reverse, filter_visible h]

/-- A plain path, with a plain query or none, is read as it stands. -/
theorem parseReference_plain (hosts : Hosts) (base : Base) {input : List Char}
    (hinput : ∀ c ∈ input, isPlain c = true) (hslash : input.head? ≠ some '/')
    {query : Option (List Char)} (hquery : ∀ q ∈ query, ∀ c ∈ q, isPlainQuery c = true) :
    parseReference hosts base ('/' :: (input ++ searchText query))
      = some ⟨base.origin, input.splitOn '/', query⟩ := by
  have hsearch : ∀ c ∈ searchText query, 0x20 < c.toNat := by
    cases query with
    | none => simp [searchText]
    | some q =>
      exact List.forall_mem_cons.mpr
        ⟨by decide, fun c hc => lt_of_isPlainQuery (hquery q rfl c hc)⟩
  have hvisible : ∀ c ∈ '/' :: (input ++ searchText query), 0x20 < c.toNat := by
    refine List.forall_mem_cons.mpr ⟨by decide, List.forall_mem_append.mpr ⟨?_, hsearch⟩⟩
    exact fun c hc => lt_of_isPlain (hinput c hc)
  have hhead : (input ++ searchText query).head?.any isSlash = false := by
    cases input with
    | nil =>
      cases query with
      | none => rfl
      | some q => rfl
    | cons c input =>
      have hc : isPlain c = true := hinput c List.mem_cons_self
      have hne : c ≠ '/' := fun heq => hslash (congrArg some heq)
      have hback : c ≠ '\\' := by
        rintro rfl
        exact absurd hc (by decide)
      simp [isSlash, hne, hback]
  have htail : ∀ c, (searchText query).head? = some c → c = '?' ∨ c = '#' := by
    intro c hc
    cases query with
    | none => cases hc
    | some q => exact Or.inl (Option.some.inj hc).symm
  have hpath : pathState [] [] (input ++ searchText query)
      = (input.splitOn '/', searchText query) := by
    rw [pathState_plain htail input hinput [] [] (by simp)]
    obtain ⟨first, segments, hsplit⟩ := List.exists_cons_of_ne_nil (List.splitOn_ne_nil '/' input)
    simp [hsplit]
  have hparse : parseReference hosts base ('/' :: (input ++ searchText query))
      = some (fromPath base.origin (input ++ searchText query)) := by
    unfold parseReference
    rw [clean_visible hvisible]
    show (if (input ++ searchText query).head?.any isSlash = true then _ else _) = _
    rw [hhead, if_neg Bool.false_ne_true]
  rw [hparse, fromPath, hpath]
  cases query with
  | none => rfl
  | some q => exact congrArg (fun q => some (Url.mk _ _ (some q))) (queryState_plain (hquery q rfl))

/-- Its pathname is the path. -/
theorem pathname_plain (origin : JsStr) (input : List Char) (query : Option (List Char)) :
    (Url.mk origin (input.splitOn '/') query).pathname = '/' :: input := by
  show (input.splitOn '/').flatMap _ = _
  rw [flatMap_slash (List.splitOn_ne_nil _ _), List.intercalate_splitOn]

end Whatwg
