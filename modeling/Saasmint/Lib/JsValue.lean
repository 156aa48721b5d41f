/-
Saasmint/Lib/JsValue.lean

The values of JavaScript that JSON can be made into, and what an assignment
`out[k] = v` does to a fresh object.

An object is its prototype and its own entries, in their order.  The prototype
counts for one key: `__proto__` is an accessor of `Object.prototype`, so that an
assignment to it changes the prototype, or does nothing, and adds no entry.
Entries with other keys that are all different are added one by one
(`foldl_assign_of_ne`); an entry with the key `__proto__` is lost
(`entryCount_foldl_assign_lt`).
-/
import Mathlib.Algebra.GroupWithZero.Nat
import Mathlib.Algebra.Order.BigOperators.Group.List
import Saasmint.Lib.JsStr

/-- The prototype of an object, as far as assignments can tell: `other` is an
object whose chain ends in `Object.prototype` where `setter` says so. -/
inductive JsProto
  | ordinary
  | null
  | other (setter : Bool)
  deriving DecidableEq, Repr

/-- The chain ends in `Object.prototype`, which has the accessor `__proto__`. -/
def JsProto.hasSetter : JsProto → Bool
  | .ordinary => true
  | .null => false
  | .other setter => setter

/-- A value.  `ν` are the numbers. -/
inductive JsValue (ν : Type) where
  | null
  | bool (b : Bool)
  | number (n : ν)
  | string (s : JsStr)
  | array (items : List (JsValue ν))
  | object (proto : JsProto) (entries : List (JsStr × JsValue ν))

namespace JsValue

open JsStr

variable {ν : Type}

/-! ### Assignments -/

def protoKey : JsStr := js "__proto__"

/-- The prototype after an assignment of a value to `__proto__`. -/
def setProto (proto : JsProto) : JsValue ν → JsProto
  | .null => .null
  | .array _ => .other true
  | .object p _ => .other p.hasSetter
  | _ => proto

/-- An own entry is replaced where it stands, or added at the end. -/
def setEntry (k : JsStr) (v : JsValue ν) : List (JsStr × JsValue ν) → List (JsStr × JsValue ν)
  | [] => [(k, v)]
  | e :: entries => if e.1 = k then (k, v) :: entries else e :: setEntry k v entries

/-- `out[k] = v`. -/
def assign (out : JsProto × List (JsStr × JsValue ν)) (e : JsStr × JsValue ν) :
    JsProto × List (JsStr × JsValue ν) :=
  if e.1 = protoKey ∧ out.1.hasSetter then (setProto out.1 e.2, out.2)
  else (out.1, setEntry e.1 e.2 out.2)

/-- `const out = {}`, and an assignment for every entry. -/
def fromEntries (entries : List (JsStr × JsValue ν)) : JsValue ν :=
  let out := entries.foldl assign (.ordinary, [])
  .object out.1 out.2

theorem setEntry_of_not_mem {k : JsStr} {entries : List (JsStr × JsValue ν)}
    (h : k ∉ entries.map Prod.fst) (v : JsValue ν) : setEntry k v entries
      = entries ++ [(k, v)] := by
  induction entries with
  | nil => rfl
  | cons e entries ih =>
    rw [List.map_cons, List.mem_cons, not_or] at h
    rw [setEntry, if_neg (Ne.symm h.1), ih h.2, List.cons_append]

/-- An assignment to another key keeps the prototype. -/
theorem assign_of_ne {e : JsStr × JsValue ν} (h : e.1 ≠ protoKey)
    (out : JsProto × List (JsStr × JsValue ν)) :
    assign out e = (out.1, setEntry e.1 e.2 out.2) :=
  if_neg fun hproto => h hproto.1

/-- Different keys, none of them `__proto__`, are added one by one. -/
theorem foldl_assign_of_ne (entries : List (JsStr × JsValue ν))
    (out : JsProto × List (JsStr × JsValue ν)) (hproto : protoKey ∉ entries.map Prod.fst)
    (hkeys : (out.2.map Prod.fst ++ entries.map Prod.fst).Nodup) :
    entries.foldl assign out = (out.1, out.2 ++ entries) := by
  induction entries generalizing out with
  | nil => rw [List.append_nil, List.foldl_nil]
  | cons e entries ih =>
    rw [List.map_cons, List.mem_cons, not_or] at hproto
    have hfresh : e.1 ∉ out.2.map Prod.fst := fun hmem =>
      (List.nodup_append.mp hkeys).2.2 _ hmem _ List.mem_cons_self rfl
    rw [List.foldl_cons, assign_of_ne (Ne.symm hproto.1), setEntry_of_not_mem hfresh,
      ih _ hproto.2 (by simpa [List.append_assoc] using hkeys), List.append_assoc,
      List.singleton_append]

theorem fromEntries_of_ne {entries : List (JsStr × JsValue ν)}
    (hproto : protoKey ∉ entries.map Prod.fst) (hkeys : (entries.map Prod.fst).Nodup) :
    fromEntries entries = .object .ordinary entries := by
  show object (entries.foldl assign (.ordinary, [])).1 (entries.foldl assign (.ordinary, [])).2 = _
  rw [foldl_assign_of_ne entries (.ordinary, []) hproto hkeys, List.nil_append]

/-! ### Trees -/

/-- Induction over a value, with the items of an array and the values of an
object as lists. -/
theorem tree_induction {P : JsValue ν → Prop} (null : P .null) (bool : ∀ b, P (.bool b))
    (number : ∀ n, P (.number n)) (string : ∀ s, P (.string s))
    (array : ∀ items, (∀ v ∈ items, P v) → P (.array items))
    (object : ∀ proto entries, (∀ e ∈ entries, P e.2) → P (.object proto entries))
    (v : JsValue ν) : P v :=
  @JsValue.rec ν P (fun items => ∀ v ∈ items, P v) (fun entries => ∀ e ∈ entries, P e.2)
    (fun e => P e.2) null bool number string array object
    (fun _ h => absurd h List.not_mem_nil)
    (fun _ _ hv hitems => List.forall_mem_cons.mpr ⟨hv, hitems⟩)
    (fun _ h => absurd h List.not_mem_nil)
    (fun _ _ he hentries => List.forall_mem_cons.mpr ⟨he, hentries⟩)
    (fun _ _ hv => hv) v

mutual

/-- Rename the keys of every object; nothing else changes. -/
def mapKeys (f : JsStr → JsStr) : JsValue ν → JsValue ν
  | .array items => .array (mapKeysItems f items)
  | .object proto entries => .object proto (mapKeysEntries f entries)
  | v => v

def mapKeysItems (f : JsStr → JsStr) : List (JsValue ν) → List (JsValue ν)
  | [] => []
  | v :: items => mapKeys f v :: mapKeysItems f items

def mapKeysEntries (f : JsStr → JsStr) : List (JsStr × JsValue ν) → List (JsStr × JsValue ν)
  | [] => []
  | (k, v) :: entries => (f k, mapKeys f v) :: mapKeysEntries f entries

end

mutual

/-- Every object of the tree, by its prototype and its keys, is in `P`. -/
def EveryObject (P : JsProto → List JsStr → Prop) : JsValue ν → Prop
  | .array items => EveryObjectItems P items
  | .object proto entries => P proto (entries.map Prod.fst) ∧ EveryObjectEntries P entries
  | _ => True

def EveryObjectItems (P : JsProto → List JsStr → Prop) : List (JsValue ν) → Prop
  | [] => True
  | v :: items => EveryObject P v ∧ EveryObjectItems P items

def EveryObjectEntries (P : JsProto → List JsStr → Prop) : List (JsStr × JsValue ν) → Prop
  | [] => True
  | (_, v) :: entries => EveryObject P v ∧ EveryObjectEntries P entries

end

section Decidable

variable (P : JsProto → List JsStr → Prop) [∀ proto keys, Decidable (P proto keys)]

mutual

/-- What can be decided of one object can be decided of all. -/
def decidableEveryObject : ∀ v : JsValue ν, Decidable (v.EveryObject P)
  | .array items => decidableEveryObjectItems items
  | .object proto entries =>
    have := decidableEveryObjectEntries entries
    inferInstanceAs (Decidable (P proto (entries.map Prod.fst) ∧ EveryObjectEntries P entries))
  | .null | .bool _ | .number _ | .string _ => isTrue trivial

def decidableEveryObjectItems : ∀ items : List (JsValue ν), Decidable (EveryObjectItems P items)
  | [] => isTrue trivial
  | v :: items =>
    have := decidableEveryObject v
    have := decidableEveryObjectItems items
    inferInstanceAs (Decidable (v.EveryObject P ∧ EveryObjectItems P items))

def decidableEveryObjectEntries :
    ∀ entries : List (JsStr × JsValue ν), Decidable (EveryObjectEntries P entries)
  | [] => isTrue trivial
  | (_, v) :: entries =>
    have := decidableEveryObject v
    have := decidableEveryObjectEntries entries
    inferInstanceAs (Decidable (v.EveryObject P ∧ EveryObjectEntries P entries))

end

instance (v : JsValue ν) : Decidable (v.EveryObject P) := decidableEveryObject P v

end Decidable

mutual

/-- The number of entries that the objects of the tree have. -/
def entryCount : JsValue ν → Nat
  | .array items => entryCountItems items
  | .object _ entries => entryCountEntries entries
  | _ => 0

def entryCountItems : List (JsValue ν) → Nat
  | [] => 0
  | v :: items => entryCount v + entryCountItems items

def entryCountEntries : List (JsStr × JsValue ν) → Nat
  | [] => 0
  | (_, v) :: entries => 1 + entryCount v + entryCountEntries entries

end

/-- A value that JSON text can be parsed to: every object is an ordinary one,
and has each of its keys once. -/
def IsJson (v : JsValue ν) : Prop :=
  v.EveryObject fun proto keys => proto = .ordinary ∧ keys.Nodup

instance (v : JsValue ν) : Decidable v.IsJson := inferInstanceAs (Decidable (v.EveryObject _))

/-- Every key of every object is in `p`. -/
def EveryKey (p : JsStr → Prop) (v : JsValue ν) : Prop :=
  v.EveryObject fun _ keys => ∀ k ∈ keys, p k

instance (p : JsStr → Prop) [DecidablePred p] (v : JsValue ν) : Decidable (v.EveryKey p) :=
  inferInstanceAs (Decidable (v.EveryObject _))

theorem mapKeysItems_eq (f : JsStr → JsStr) (items : List (JsValue ν)) :
    mapKeysItems f items = items.map (mapKeys f) := by
  induction items with
  | nil => rfl
  | cons v items ih => rw [mapKeysItems, ih, List.map_cons]

theorem mapKeysEntries_eq (f : JsStr → JsStr) (entries : List (JsStr × JsValue ν)) :
    mapKeysEntries f entries = entries.map fun e => (f e.1, mapKeys f e.2) := by
  induction entries with
  | nil => rfl
  | cons e entries ih => rw [mapKeysEntries, ih, List.map_cons]

theorem everyObjectItems_iff {P : JsProto → List JsStr → Prop} {items : List (JsValue ν)} :
    EveryObjectItems P items ↔ ∀ v ∈ items, v.EveryObject P := by
  induction items with
  | nil => simp [EveryObjectItems]
  | cons v items ih => rw [EveryObjectItems, ih, List.forall_mem_cons]

theorem everyObjectEntries_iff {P : JsProto → List JsStr → Prop}
    {entries : List (JsStr × JsValue ν)} :
    EveryObjectEntries P entries ↔ ∀ e ∈ entries, e.2.EveryObject P := by
  induction entries with
  | nil => simp [EveryObjectEntries]
  | cons e entries ih => rw [EveryObjectEntries, ih, List.forall_mem_cons]

theorem entryCountItems_eq (items : List (JsValue ν)) :
    entryCountItems items = (items.map entryCount).sum := by
  induction items with
  | nil => rfl
  | cons v items ih => rw [entryCountItems, ih, List.map_cons, List.sum_cons]

theorem entryCountEntries_eq (entries : List (JsStr × JsValue ν)) :
    entryCountEntries entries = (entries.map fun e => 1 + entryCount e.2).sum := by
  induction entries with
  | nil => rfl
  | cons e entries ih => rw [entryCountEntries, ih, List.map_cons, List.sum_cons]

@[simp] theorem everyObject_array {P : JsProto → List JsStr → Prop} {items : List (JsValue ν)} :
    (array items).EveryObject P ↔ ∀ v ∈ items, v.EveryObject P :=
  everyObjectItems_iff

@[simp] theorem everyObject_object {P : JsProto → List JsStr → Prop} {proto : JsProto}
    {entries : List (JsStr × JsValue ν)} :
    (object proto entries).EveryObject P
      ↔ P proto (entries.map Prod.fst) ∧ ∀ e ∈ entries, e.2.EveryObject P :=
  and_congr_right fun _ => everyObjectEntries_iff

/-- What one object of `P` after the other is in, every object is in. -/
theorem EveryObject.mono {P Q : JsProto → List JsStr → Prop}
    (hPQ : ∀ proto keys, P proto keys → Q proto keys) (v : JsValue ν) (h : v.EveryObject P) :
    v.EveryObject Q := by
  induction v using tree_induction with
  | array items ih =>
    rw [everyObject_array] at h ⊢
    exact fun v hv => ih v hv (h v hv)
  | object proto entries ih =>
    rw [everyObject_object] at h ⊢
    exact ⟨hPQ _ _ h.1, fun e he => ih e he (h.2 e he)⟩
  | _ => trivial

theorem EveryKey.imp {p q : JsStr → Prop} (hpq : ∀ k, p k → q k) {v : JsValue ν}
    (h : v.EveryKey p) : v.EveryKey q :=
  EveryObject.mono (fun _ _ hp k hk => hpq k (hp k hk)) v h

theorem EveryObject.and {P Q : JsProto → List JsStr → Prop} (v : JsValue ν)
    (hP : v.EveryObject P) (hQ : v.EveryObject Q) :
    v.EveryObject fun proto keys => P proto keys ∧ Q proto keys := by
  induction v using tree_induction with
  | array items ih =>
    rw [everyObject_array] at hP hQ ⊢
    exact fun v hv => ih v hv (hP v hv) (hQ v hv)
  | object proto entries ih =>
    rw [everyObject_object] at hP hQ ⊢
    exact ⟨⟨hP.1, hQ.1⟩, fun e he => ih e he (hP.2 e he) (hQ.2 e he)⟩
  | _ => trivial

theorem everyObject_mapKeys_iff {P : JsProto → List JsStr → Prop} (f : JsStr → JsStr)
    (v : JsValue ν) :
    (v.mapKeys f).EveryObject P ↔ v.EveryObject fun proto keys => P proto (keys.map f) := by
  induction v using tree_induction with
  | array items ih =>
    rw [mapKeys, mapKeysItems_eq, everyObject_array, everyObject_array, List.forall_mem_map]
    exact forall₂_congr ih
  | object proto entries ih =>
    rw [mapKeys, mapKeysEntries_eq, everyObject_object, everyObject_object, List.map_map,
      List.map_map, List.forall_mem_map]
    exact and_congr Iff.rfl (forall₂_congr ih)
  | _ => exact Iff.rfl

/-- Renaming there and back is the identity where it is on every key. -/
theorem mapKeys_mapKeys_of_key {f g : JsStr → JsStr} (v : JsValue ν)
    (h : v.EveryKey fun k => g (f k) = k) : (v.mapKeys f).mapKeys g = v := by
  induction v using tree_induction with
  | array items ih =>
    rw [EveryKey, everyObject_array] at h
    have hitems : ∀ v ∈ items, mapKeys g (mapKeys f v) = v := fun v hv => ih v hv (h v hv)
    rw [mapKeys, mapKeysItems_eq, mapKeys, mapKeysItems_eq, List.map_map]
    exact congrArg array ((List.map_congr_left hitems).trans items.map_id)
  | object proto entries ih =>
    rw [EveryKey, everyObject_object] at h
    rw [mapKeys, mapKeysEntries_eq, mapKeys, mapKeysEntries_eq, List.map_map]
    have hentries : ∀ e ∈ entries, (g (f e.1), mapKeys g (mapKeys f e.2)) = e := fun e he =>
      Prod.ext (h.1 e.1 (List.mem_map_of_mem he)) (ih e he (h.2 e he))
    refine congrArg (object proto) ?_
    exact (List.map_congr_left hentries).trans entries.map_id
  | _ => rfl

/-! ### Entries that are lost -/

theorem entryCountEntries_setEntry_le (k : JsStr) (v : JsValue ν)
    (entries : List (JsStr × JsValue ν)) :
    entryCountEntries (setEntry k v entries) ≤ entryCountEntries entries + (1 + v.entryCount) := by
  induction entries with
  | nil => simp [setEntry, entryCountEntries]
  | cons e entries ih =>
    rw [setEntry]
    split
    · simp only [entryCountEntries]
      omega
    · simp only [entryCountEntries]
      omega

theorem entryCountEntries_assign_le (out : JsProto × List (JsStr × JsValue ν))
    (e : JsStr × JsValue ν) :
    entryCountEntries (assign out e).2 ≤ entryCountEntries out.2 + (1 + e.2.entryCount) := by
  unfold assign
  split
  · exact Nat.le_add_right _ _
  · exact entryCountEntries_setEntry_le e.1 e.2 out.2

/-- Assignments add no more entries than there are. -/
theorem entryCount_foldl_assign_le (entries : List (JsStr × JsValue ν))
    (out : JsProto × List (JsStr × JsValue ν)) :
    entryCountEntries (entries.foldl assign out).2
      ≤ entryCountEntries out.2 + entryCountEntries entries := by
  induction entries generalizing out with
  | nil => exact Nat.le_refl _
  | cons e entries ih =>
    have hstep := entryCountEntries_assign_le out e
    have hrest := ih (assign out e)
    rw [List.foldl_cons, entryCountEntries]
    omega

/-- An entry with the key `__proto__` is lost. -/
theorem entryCount_foldl_assign_lt (entries : List (JsStr × JsValue ν))
    (out : JsProto × List (JsStr × JsValue ν)) (hsetter : out.1.hasSetter = true)
    (hmem : protoKey ∈ entries.map Prod.fst) :
    entryCountEntries (entries.foldl assign out).2
      < entryCountEntries out.2 + entryCountEntries entries := by
  induction entries generalizing out with
  | nil => exact absurd hmem List.not_mem_nil
  | cons e entries ih =>
    rw [List.foldl_cons, entryCountEntries]
    by_cases hkey : e.1 = protoKey
    · have hassign : (assign out e).2 = out.2 := by rw [assign, if_pos ⟨hkey, hsetter⟩]
      have hrest := entryCount_foldl_assign_le entries (assign out e)
      rw [hassign] at hrest
      omega
    · have hassign : (assign out e).1 = out.1 := by rw [assign_of_ne hkey]
      have hmem' : protoKey ∈ entries.map Prod.fst :=
        (List.mem_cons.mp hmem).resolve_left (Ne.symm hkey)
      have hstep := entryCountEntries_assign_le out e
      have hrest := ih (assign out e) (hassign ▸ hsetter) hmem'
      omega

end JsValue
