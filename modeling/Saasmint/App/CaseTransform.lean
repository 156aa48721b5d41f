/-
Saasmint/App/CaseTransform.lean

The key-case transforms between the API and the app
(src/infrastructure/api/caseTransform.ts): `keysToCamel` on what comes in,
`keysToSnake` on what goes out.

On keys, each of `toSnakeCase` and `toCamelCase` is the left inverse of the
other where the other has something to do everywhere (`toSnakeCase_toCamelCase`,
`toCamelCase_toSnakeCase`).  On values the walk renames the keys of every object
and keeps the rest (`keysTo_eq_mapKeys`), unless a new key is `__proto__`: that
entry is lost.  No key in snake case becomes `__proto__`, and one in camel case
does, `_Proto__` (`keysTo_inverse_iff`).
-/
import Mathlib.Algebra.Order.Group.Nat
import Mathlib.Data.List.Nodup
import Saasmint.Lib.JsValue

namespace Saasmint

open JsStr JsValue

/-! ### Keys -/

/-- The code unit of "_". -/
def underscore : UInt16 := 0x5F

/-- `[A-Z]`. -/
def isUpper (u : UInt16) : Bool := 0x41 ≤ u.toNat && u.toNat ≤ 0x5A

/-- `[a-z]`. -/
def isLower (u : UInt16) : Bool := 0x61 ≤ u.toNat && u.toNat ≤ 0x7A

/-- `toLowerCase` of an upper-case letter. -/
def toLower (u : UInt16) : UInt16 := u + 0x20

/-- `toUpperCase` of a lower-case letter. -/
def toUpper (u : UInt16) : UInt16 := u - 0x20

/-- Every match of `[A-Z]` is replaced. -/
def toSnakeCase (key : JsStr) : JsStr :=
  key.flatMap fun ch => if isUpper ch then [underscore, toLower ch] else [ch]

/-- Every match of `_([a-z])` is replaced, from the left and without overlaps. -/
def toCamelCase : JsStr → JsStr
  | [] => []
  | [c] => [c]
  | c :: d :: rest =>
    if c = underscore && isLower d then toUpper d :: toCamelCase rest
    else c :: toCamelCase (d :: rest)

/-- The key has an upper-case letter. -/
def hasUpper (key : JsStr) : Bool := key.any isUpper

/-- The key has an underscore with a lower-case letter behind it. -/
def hasUnderscoreLower : JsStr → Bool
  | c :: d :: rest => (c = underscore && isLower d) || hasUnderscoreLower (d :: rest)
  | _ => false

theorem isUpper_toUpper {u : UInt16} (h : isLower u = true) : isUpper (toUpper u) = true := by
  unfold isLower at h
  unfold isUpper toUpper
  simp only [Bool.and_eq_true, decide_eq_true_eq] at h ⊢
  have hsub : (u - 0x20).toNat = u.toNat - 0x20 := by
    rw [UInt16.toNat_sub_of_le u 0x20 (UInt16.le_iff_toNat_le.mpr (by
      show 0x20 ≤ u.toNat
      omega))]
    rfl
  omega

theorem isLower_toLower {u : UInt16} (h : isUpper u = true) : isLower (toLower u) = true := by
  unfold isUpper at h
  unfold isLower toLower
  simp only [Bool.and_eq_true, decide_eq_true_eq] at h ⊢
  have hadd : (u + 0x20).toNat = u.toNat + 0x20 := by
    rw [UInt16.toNat_add]
    show (u.toNat + 0x20) % 2 ^ 16 = _
    omega
  omega

theorem toLower_toUpper (u : UInt16) : toLower (toUpper u) = u := UInt16.sub_add_cancel u 0x20

theorem toUpper_toLower (u : UInt16) : toUpper (toLower u) = u := UInt16.add_sub_cancel u 0x20

theorem toSnakeCase_cons_upper {c : UInt16} (h : isUpper c = true) (key : JsStr) :
    toSnakeCase (c :: key) = underscore :: toLower c :: toSnakeCase key := by
  simp [toSnakeCase, h]

theorem toSnakeCase_cons_of_not {c : UInt16} (h : isUpper c = false) (key : JsStr) :
    toSnakeCase (c :: key) = c :: toSnakeCase key := by
  simp [toSnakeCase, h]

theorem toCamelCase_cons_lower {d : UInt16} (h : isLower d = true) (key : JsStr) :
    toCamelCase (underscore :: d :: key) = toUpper d :: toCamelCase key := by
  simp [toCamelCase, h]

/-- A code unit that starts no match stays. -/
theorem toCamelCase_cons_of_not {c : UInt16} {key : JsStr}
    (h : c = underscore → key.head?.any isLower = false) :
    toCamelCase (c :: key) = c :: toCamelCase key := by
  cases key with
  | nil => rfl
  | cons d key =>
    rw [toCamelCase, if_neg]
    rw [Bool.and_eq_true, decide_eq_true_eq]
    rintro ⟨hc, hd⟩
    exact absurd (h hc) (by simp [hd])

/-- `toSnakeCase` undoes `toCamelCase` on a key in snake case.  The induction is
that of `toCamelCase`. -/
theorem toSnakeCase_toCamelCase {key : JsStr} (h : hasUpper key = false) :
    toSnakeCase (toCamelCase key) = key := by
  induction key using toCamelCase.induct with
  | case1 => rfl
  | case2 c =>
    have hc : isUpper c = false := by simpa [hasUpper] using h
    exact toSnakeCase_cons_of_not hc []
  | case3 c d rest hmatch ih =>
    obtain ⟨hc, hd⟩ := (Bool.and_eq_true _ _).mp hmatch
    have hrest : hasUpper rest = false := by
      simp only [hasUpper, List.any_cons, Bool.or_eq_false_iff] at h
      exact h.2.2
    obtain rfl : c = underscore := of_decide_eq_true hc
    rw [toCamelCase_cons_lower hd, toSnakeCase_cons_upper (isUpper_toUpper hd), toLower_toUpper,
      ih hrest]
  | case4 c d rest hmatch ih =>
    simp only [hasUpper, List.any_cons, Bool.or_eq_false_iff] at h
    have hrest : hasUpper (d :: rest) = false := by
      simp only [hasUpper, List.any_cons, Bool.or_eq_false_iff]
      exact h.2
    rw [toCamelCase, if_neg hmatch, toSnakeCase_cons_of_not h.1, ih hrest]

/-- `toSnakeCase` makes no underscore with a lower-case letter behind it out of
an underscore of the key. -/
theorem head?_toSnakeCase_not_lower {c : UInt16} {key : JsStr}
    (h : hasUnderscoreLower (c :: key) = false) (hc : c = underscore) :
    (toSnakeCase key).head?.any isLower = false := by
  cases key with
  | nil => rfl
  | cons d key =>
    rcases e : isUpper d with - | -
    · rw [toSnakeCase_cons_of_not e]
      simp only [hasUnderscoreLower, hc, decide_true, Bool.true_and, Bool.or_eq_false_iff] at h
      simp [h.1]
    · rw [toSnakeCase_cons_upper e]
      rfl

/-- `toCamelCase` undoes `toSnakeCase` on a key in camel case. -/
theorem toCamelCase_toSnakeCase {key : JsStr} (h : hasUnderscoreLower key = false) :
    toCamelCase (toSnakeCase key) = key := by
  induction key with
  | nil => rfl
  | cons c key ih =>
    have hkey : hasUnderscoreLower key = false := by
      cases key with
      | nil => rfl
      | cons d key =>
        simp only [hasUnderscoreLower, Bool.or_eq_false_iff] at h
        exact h.2
    rcases e : isUpper c with - | -
    · rw [toSnakeCase_cons_of_not e,
        toCamelCase_cons_of_not (head?_toSnakeCase_not_lower h), ih hkey]
    · rw [toSnakeCase_cons_upper e, toCamelCase_cons_lower (isLower_toLower e), toUpper_toLower,
        ih hkey]

/-! ### Values -/

variable {ν : Type}

/-- `isRecord`, for an object: its prototype is `null` or `Object.prototype`. -/
def isRecordProto : JsProto → Bool
  | .ordinary | .null => true
  | .other _ => false

mutual

/-- `keysToSnake` and `keysToCamel`, by what they do to a key. -/
def keysTo (f : JsStr → JsStr) : JsValue ν → JsValue ν
  | .array items => .array (keysToItems f items)
  | .object proto entries =>
    if isRecordProto proto then fromEntries (keysToEntries f entries) else .object proto entries
  | v => v

def keysToItems (f : JsStr → JsStr) : List (JsValue ν) → List (JsValue ν)
  | [] => []
  | v :: items => keysTo f v :: keysToItems f items

def keysToEntries (f : JsStr → JsStr) : List (JsStr × JsValue ν) → List (JsStr × JsValue ν)
  | [] => []
  | (k, v) :: entries => (f k, keysTo f v) :: keysToEntries f entries

end

def keysToSnake (value : JsValue ν) : JsValue ν := keysTo toSnakeCase value

def keysToCamel (value : JsValue ν) : JsValue ν := keysTo toCamelCase value

theorem keysToItems_eq (f : JsStr → JsStr) (items : List (JsValue ν)) :
    keysToItems f items = items.map (keysTo f) := by
  induction items with
  | nil => rfl
  | cons v items ih => rw [keysToItems, ih, List.map_cons]

theorem keysToEntries_eq (f : JsStr → JsStr) (entries : List (JsStr × JsValue ν)) :
    keysToEntries f entries = entries.map fun e => (f e.1, keysTo f e.2) := by
  induction entries with
  | nil => rfl
  | cons e entries ih => rw [keysToEntries, ih, List.map_cons]

theorem keys_keysToEntries (f : JsStr → JsStr) (entries : List (JsStr × JsValue ν)) :
    (keysToEntries f entries).map Prod.fst = (entries.map Prod.fst).map f := by
  rw [keysToEntries_eq, List.map_map, List.map_map]
  rfl

/-- Where the new keys of every object are different and not `__proto__`, the
walk renames the keys and keeps the rest. -/
theorem keysTo_eq_mapKeys {f : JsStr → JsStr} (v : JsValue ν)
    (h : v.EveryObject fun proto keys =>
      proto = .ordinary ∧ (keys.map f).Nodup ∧ protoKey ∉ keys.map f) :
    keysTo f v = v.mapKeys f := by
  induction v using tree_induction with
  | array items ih =>
    rw [everyObject_array] at h
    rw [keysTo, keysToItems_eq, mapKeys, mapKeysItems_eq]
    exact congrArg array (List.map_congr_left fun v hv => ih v hv (h v hv))
  | object proto entries ih =>
    rw [everyObject_object] at h
    obtain ⟨⟨rfl, hnodup, hproto⟩, hvalues⟩ := h
    have hentries : keysToEntries f entries = mapKeysEntries f entries := by
      rw [keysToEntries_eq, mapKeysEntries_eq]
      exact List.map_congr_left fun e he =>
        congrArg (Prod.mk (f e.1)) (ih e he (hvalues e he))
    rw [← keys_keysToEntries] at hnodup hproto
    rw [keysTo, isRecordProto, if_pos rfl, fromEntries_of_ne hproto hnodup, hentries, mapKeys]
  | _ => rfl

/-- There and back, where `g` undoes `f` on the keys and neither meets
`__proto__`. -/
theorem keysTo_keysTo {f g : JsStr → JsStr} {v : JsValue ν} (hv : v.IsJson)
    (hinverse : v.EveryKey fun k => g (f k) = k) (hproto : v.EveryKey (· ≠ protoKey))
    (himage : v.EveryKey fun k => f k ≠ protoKey) :
    keysTo f v = v.mapKeys f ∧ keysTo g (keysTo f v) = v := by
  have hall := ((hv.and v hinverse).and v hproto).and v himage
  have hf : keysTo f v = v.mapKeys f := by
    refine keysTo_eq_mapKeys v (EveryObject.mono ?_ v hall)
    rintro proto keys ⟨⟨⟨⟨hord, hnodup⟩, hinv⟩, -⟩, himg⟩
    refine ⟨hord, List.Nodup.map_on (fun k hk l hl hkl => ?_) hnodup, fun hmem => ?_⟩
    · rw [← hinv k hk, hkl, hinv l hl]
    · obtain ⟨k, hk, hkproto⟩ := List.mem_map.mp hmem
      exact himg k hk hkproto
  have hg : keysTo g (v.mapKeys f) = (v.mapKeys f).mapKeys g := by
    refine keysTo_eq_mapKeys _ ((everyObject_mapKeys_iff f v).mpr (EveryObject.mono ?_ v hall))
    rintro proto keys ⟨⟨⟨⟨hord, hnodup⟩, hinv⟩, hne⟩, -⟩
    have hback : (keys.map f).map g = keys := by
      rw [List.map_map]
      exact (List.map_congr_left hinv).trans keys.map_id
    rw [hback]
    exact ⟨hord, hnodup, fun hmem => hne _ hmem rfl⟩
  exact ⟨hf, by rw [hf, hg, mapKeys_mapKeys_of_key v hinverse]⟩

/-! ### The key that is lost -/

theorem entryCount_fromEntries_le (entries : List (JsStr × JsValue ν)) :
    (fromEntries entries).entryCount ≤ entryCountEntries entries := by
  have h := entryCount_foldl_assign_le entries (.ordinary, [])
  exact h.trans_eq (Nat.zero_add _)

theorem entryCountEntries_keysToEntries (f : JsStr → JsStr) (entries : List (JsStr × JsValue ν)) :
    entryCountEntries (keysToEntries f entries)
      = (entries.map fun e => 1 + (keysTo f e.2).entryCount).sum := by
  rw [entryCountEntries_eq, keysToEntries_eq, List.map_map]
  rfl

/-- The walk adds no entries. -/
theorem entryCount_keysTo_le (f : JsStr → JsStr) (v : JsValue ν) :
    (keysTo f v).entryCount ≤ v.entryCount := by
  induction v using tree_induction with
  | array items ih =>
    rw [keysTo, keysToItems_eq, entryCount, entryCountItems_eq, entryCount, entryCountItems_eq,
      List.map_map]
    exact List.sum_le_sum ih
  | object proto entries ih =>
    rw [keysTo]
    split
    · have hentries : entryCountEntries (keysToEntries f entries) ≤ entryCountEntries entries := by
        rw [entryCountEntries_keysToEntries, entryCountEntries_eq]
        exact List.sum_le_sum fun e he => Nat.add_le_add_left (ih e he) 1
      exact (entryCount_fromEntries_le _).trans hentries
    · exact Nat.le_refl _
  | _ => exact Nat.le_refl _

/-- A key that becomes `__proto__` is lost, wherever its object stands. -/
theorem entryCount_keysTo_lt {f : JsStr → JsStr} {v : JsValue ν} (hv : v.IsJson)
    (h : ¬ v.EveryKey fun k => f k ≠ protoKey) : (keysTo f v).entryCount < v.entryCount := by
  induction v using tree_induction with
  | array items ih =>
    rw [EveryKey, everyObject_array] at h
    rw [IsJson, everyObject_array] at hv
    push Not at h
    obtain ⟨v, hmem, hkey⟩ := h
    rw [keysTo, keysToItems_eq, entryCount, entryCountItems_eq, entryCount, entryCountItems_eq,
      List.map_map]
    exact List.sum_lt_sum _ _ (fun v _ => entryCount_keysTo_le f v)
      ⟨v, hmem, ih v hmem (hv v hmem) hkey⟩
  | object proto entries ih =>
    rw [IsJson, everyObject_object] at hv
    obtain ⟨⟨rfl, -⟩, hvalues⟩ := hv
    rw [EveryKey, everyObject_object, not_and_or] at h
    rw [keysTo, isRecordProto, if_pos rfl]
    have hle : ∀ e ∈ entries, 1 + (keysTo f e.2).entryCount ≤ 1 + e.2.entryCount := fun e _ =>
      Nat.add_le_add_left (entryCount_keysTo_le f e.2) 1
    rcases h with hown | hinner
    · -- one of its own keys
      push Not at hown
      obtain ⟨k, hk, hkproto⟩ := hown
      have hmem : protoKey ∈ (keysToEntries f entries).map Prod.fst := by
        rw [keys_keysToEntries]
        exact List.mem_map.mpr ⟨k, hk, hkproto⟩
      have hlost := entryCount_foldl_assign_lt (keysToEntries f entries) (.ordinary, []) rfl hmem
      have hrest : entryCountEntries (keysToEntries f entries) ≤ entryCountEntries entries := by
        rw [entryCountEntries_keysToEntries, entryCountEntries_eq]
        exact List.sum_le_sum hle
      exact lt_of_lt_of_le (hlost.trans_eq (Nat.zero_add _)) hrest
    · -- a key of an object inside
      push Not at hinner
      obtain ⟨e, he, hkey⟩ := hinner
      have hlost : entryCountEntries (keysToEntries f entries) < entryCountEntries entries := by
        rw [entryCountEntries_keysToEntries, entryCountEntries_eq]
        exact List.sum_lt_sum _ _ hle
          ⟨e, he, Nat.add_lt_add_left (ih e he (hvalues e he) hkey) 1⟩
      exact lt_of_le_of_lt (entryCount_fromEntries_le _) hlost
  | _ => exact absurd trivial h

/-! ### The inverse -/

/-- The walk renames the keys and keeps the rest, and no two keys of an object
become one. -/
def KeepsAll (f : JsStr → JsStr) (v : JsValue ν) : Prop :=
  keysTo f v = v.mapKeys f ∧
    v.EveryObject fun _ keys => ∀ k ∈ keys, ∀ l ∈ keys, f k = f l → k = l

/-- Keys with a left inverse do not collide. -/
theorem everyObject_inj {f g : JsStr → JsStr} {v : JsValue ν}
    (h : v.EveryKey fun k => g (f k) = k) :
    v.EveryObject fun _ keys => ∀ k ∈ keys, ∀ l ∈ keys, f k = f l → k = l := by
  refine EveryObject.mono (fun _ keys hkeys k hk l hl hkl => ?_) v h
  rw [← hkeys k hk, hkl, hkeys l hl]

/-- A key in snake case that becomes `__proto__` in camel case would be
`__proto__` itself. -/
theorem toCamelCase_ne_proto {k : JsStr} (hk : hasUpper k = false) (hne : k ≠ protoKey) :
    toCamelCase k ≠ protoKey := by
  intro h
  have hback : toSnakeCase protoKey = k := h ▸ toSnakeCase_toCamelCase hk
  have hproto : toSnakeCase protoKey = protoKey := by decide
  exact hne (hback.symm.trans hproto)

/-- `_Proto__` is the key in camel case that becomes `__proto__`. -/
theorem toSnakeCase_eq_proto_iff {k : JsStr} (hk : hasUnderscoreLower k = false) :
    toSnakeCase k = protoKey ↔ k = js "_Proto__" := by
  constructor
  · intro h
    have hback : toCamelCase protoKey = k := h ▸ toCamelCase_toSnakeCase hk
    have hproto : toCamelCase protoKey = js "_Proto__" := by decide
    exact hback.symm.trans hproto
  · rintro rfl
    decide

/-- On keys in snake case `keysToSnake` undoes `keysToCamel`; on keys in camel
case `keysToCamel` undoes `keysToSnake` exactly where no key is `_Proto__`. -/
theorem keysTo_inverse_iff (v : JsValue ν) (hv : v.IsJson) (hproto : v.EveryKey (· ≠ protoKey)) :
    (v.EveryKey (hasUpper · = false) →
        keysToSnake (keysToCamel v) = v ∧ KeepsAll toCamelCase v)
      ∧ (v.EveryKey (hasUnderscoreLower · = false) →
        (keysToCamel (keysToSnake v) = v ∧ KeepsAll toSnakeCase v
          ↔ v.EveryKey (· ≠ js "_Proto__"))) := by
  constructor
  · intro hsnake
    have hinverse : v.EveryKey fun k => toSnakeCase (toCamelCase k) = k :=
      hsnake.imp fun _ => toSnakeCase_toCamelCase
    have himage : v.EveryKey fun k => toCamelCase k ≠ protoKey :=
      EveryObject.mono (fun _ _ h k hk => toCamelCase_ne_proto (h.1 k hk) (h.2 k hk)) v
        (hsnake.and v hproto)
    obtain ⟨hkeeps, hback⟩ := keysTo_keysTo hv hinverse hproto himage
    exact ⟨hback, hkeeps, everyObject_inj hinverse⟩
  · intro hcamel
    constructor
    · rintro ⟨hback, -⟩
      by_contra h
      have himage : ¬ v.EveryKey fun k => toSnakeCase k ≠ protoKey := fun hne =>
        h (EveryObject.mono (fun _ _ hk k hmem heq =>
          hk.1 k hmem ((toSnakeCase_eq_proto_iff (hk.2 k hmem)).mpr heq)) v (hne.and v hcamel))
      have hlost := entryCount_keysTo_lt hv himage
      have hle : v.entryCount ≤ (keysToSnake v).entryCount := by
        have := entryCount_keysTo_le toCamelCase (keysToSnake v)
        rwa [show keysTo toCamelCase (keysToSnake v) = v from hback] at this
      exact absurd hlost (Nat.not_lt.mpr hle)
    · intro hne
      have hinverse : v.EveryKey fun k => toCamelCase (toSnakeCase k) = k :=
        hcamel.imp fun _ => toCamelCase_toSnakeCase
      have himage : v.EveryKey fun k => toSnakeCase k ≠ protoKey :=
        EveryObject.mono (fun _ _ h k hk heq =>
          h.1 k hk ((toSnakeCase_eq_proto_iff (h.2 k hk)).mp heq)) v (hne.and v hcamel)
      obtain ⟨hkeeps, hback⟩ := keysTo_keysTo hv hinverse hproto himage
      exact ⟨hback, hkeeps, everyObject_inj hinverse⟩

/-- A plan with its prices, as the API sends it. -/
def samplePayload : JsValue Int :=
  .object .ordinary
    [(js "display_name", .string (js "Pro")),
      (js "prices", .array [.object .ordinary [(js "tax_inclusive", .bool true)], .null])]

/-- A form, as the app sends it. -/
def sampleForm : JsValue Int :=
  .object .ordinary
    [(js "planPriceId", .string (js "2")),
      (js "phone", .object .ordinary [(js "phonePrefix", .string (js "+49"))]),
      (js "keepPersonalSubscription", .bool false)]

theorem samplePayload_inverse :
    (keysToSnake (keysToCamel samplePayload) = samplePayload ∧
      KeepsAll toCamelCase samplePayload) ∧
    (keysToCamel (keysToSnake sampleForm) = sampleForm ∧ KeepsAll toSnakeCase sampleForm) :=
  ⟨(keysTo_inverse_iff samplePayload (by decide) (by decide)).1 (by decide),
    ((keysTo_inverse_iff sampleForm (by decide) (by decide)).2 (by decide)).mpr (by decide)⟩

/-- `{ _Proto__: 1 }` comes back as `{}`. -/
theorem proto_key_lost :
    ¬ ∀ v : JsValue Int, v.IsJson → v.EveryKey (· ≠ protoKey) →
      v.EveryKey (hasUnderscoreLower · = false) → keysToCamel (keysToSnake v) = v := by
  intro h
  have hback := h (.object .ordinary [(js "_Proto__", .number 1)]) (by decide) (by decide)
    (by decide)
  have hlost : keysToCamel (keysToSnake
      (.object .ordinary [(js "_Proto__", .number 1)] : JsValue Int)) = .object .ordinary [] := rfl
  rw [hlost] at hback
  cases hback

end Saasmint
