/-
Saasmint/Lib/HtmlForms.lean

What a browser submits of a form: the controls of HTML and the encoding of their
values.  A line of text has no newlines, a text area has every newline as a
carriage return and a line feed, and a list of options has one of them selected.

A text that a control leaves alone is `OneLine`, or `Crlf`.  Both are kept when
whitespace is taken off the ends (`OneLine.strip`, `Crlf.strip`), as a server
does with what it gets.
-/
import Mathlib.Data.List.DropRight
import Saasmint.Lib.PyStr

namespace HtmlForms

open PyStr

/-! ### The controls -/

def isNewline (c : Char) : Bool := c = '\n' || c = '\r'

/-- A line of text: the newlines are stripped from its value. -/
def lineValue (value : String) : String :=
  String.ofList (value.toList.filter fun c => !isNewline c)

/-- A newline of any kind is submitted as a carriage return and a line feed. -/
def crlf : Bool → List Char → List Char
  | _, [] => []
  | afterReturn, c :: cs =>
    if c = '\r' then '\r' :: '\n' :: crlf true cs
    else if c = '\n' then if afterReturn then crlf false cs else '\r' :: '\n' :: crlf false cs
    else c :: crlf false cs

/-- A text area. -/
def areaValue (value : String) : String := String.ofList (crlf false value.toList)

/-- A list of options: the one with the value, else the first one. -/
def optionValue (options : List String) (value : String) : Option String :=
  if value ∈ options then some value else options.head?

/-- A line of text leaves the value alone. -/
def OneLine (value : String) : Prop := lineValue value = value

/-- A text area leaves the value alone. -/
def Crlf (value : String) : Prop := areaValue value = value

instance (value : String) : Decidable (OneLine value) :=
  inferInstanceAs (Decidable (lineValue value = value))

instance (value : String) : Decidable (Crlf value) :=
  inferInstanceAs (Decidable (areaValue value = value))

theorem optionValue_eq_self_iff {options : List String} {value : String} :
    optionValue options value = some value ↔ value ∈ options := by
  unfold optionValue
  constructor
  · intro h
    split at h
    next hmem => exact hmem
    next => exact List.mem_of_head? h
  · intro h
    rw [if_pos h]

/-- One of the options is selected, where there are any. -/
theorem exists_optionValue {options : List String} (hne : options ≠ []) (value : String) :
    ∃ selected, optionValue options value = some selected ∧ selected ∈ options := by
  unfold optionValue
  split
  next hmem => exact ⟨value, rfl, hmem⟩
  next =>
    obtain ⟨first, rest, rfl⟩ := List.exists_cons_of_ne_nil hne
    exact ⟨first, rfl, List.mem_cons_self⟩

/-! ### Newlines -/

theorem oneLine_iff {value : String} :
    OneLine value ↔ ∀ c ∈ value.toList, isNewline c = false := by
  unfold OneLine lineValue
  rw [← String.toList_inj, String.toList_ofList, List.filter_eq_self]
  simp

/-- What follows a text only matters to a carriage return at its end. -/
theorem crlf_append {b : Bool} {xs ys : List Char} (hne : xs ≠ [])
    (hlast : xs.getLast? ≠ some '\r') : crlf b (xs ++ ys) = crlf b xs ++ crlf false ys := by
  induction xs generalizing b with
  | nil => exact absurd rfl hne
  | cons c cs ih =>
    rcases cs with - | ⟨d, cs⟩
    · have hc : c ≠ '\r' := fun h => hlast (by rw [h]; rfl)
      by_cases hfeed : c = '\n'
      · cases b <;> simp [crlf, hfeed]
      · simp [crlf, hc, hfeed]
    · have hrest : (d :: cs).getLast? ≠ some '\r' := by
        rw [List.getLast?_cons_cons] at hlast
        exact hlast
      have hcons : ∀ b, crlf b (d :: cs ++ ys) = crlf b (d :: cs) ++ crlf false ys :=
        fun b => ih (List.cons_ne_nil d cs) hrest
      rw [List.cons_append]
      show (if c = '\r' then _ else _) = (if c = '\r' then _ else _) ++ _
      split
      · rw [hcons]
        rfl
      · split
        · cases b with
          | false => exact congrArg (fun zs => '\r' :: '\n' :: zs) (hcons false)
          | true => exact hcons false
        · rw [hcons]
          rfl

/-- A text that starts with no line feed does not ask what stands before it. -/
theorem crlf_of_head {b : Bool} {xs : List Char} (h : xs.head? ≠ some '\n') :
    crlf b xs = crlf false xs := by
  cases xs with
  | nil => rfl
  | cons c cs =>
    have hc : c ≠ '\n' := fun heq => h (by rw [heq]; rfl)
    simp [crlf, hc]

theorem length_le_crlf (b : Bool) (xs : List Char) :
    xs.length ≤ (crlf b xs).length + b.toNat := by
  induction xs generalizing b with
  | nil => exact Nat.zero_le _
  | cons c cs ih =>
    have htrue := ih true
    have hfalse := ih false
    simp only [Bool.toNat_true, Bool.toNat_false] at htrue hfalse
    unfold crlf
    split
    · simp only [List.length_cons]
      omega
    · split
      · cases b <;> simp <;> omega
      · simp only [List.length_cons]
        omega

theorem exists_crlf_append (b : Bool) (xs ys : List Char) :
    ∃ b', crlf b (xs ++ ys) = crlf b xs ++ crlf b' ys := by
  induction xs generalizing b with
  | nil => exact ⟨b, rfl⟩
  | cons c cs ih =>
    obtain ⟨b₁, htrue⟩ := ih true
    obtain ⟨b₂, hfalse⟩ := ih false
    by_cases hreturn : c = '\r'
    · exact ⟨b₁, by simp [crlf, hreturn, htrue]⟩
    · by_cases hfeed : c = '\n'
      · refine ⟨b₂, ?_⟩
        cases b <;> simp [crlf, hfeed, hfalse]
      · exact ⟨b₂, by simp [crlf, hreturn, hfeed, hfalse]⟩

/-- The middle of a text that a text area leaves alone is left alone, where it
starts and ends within no newline: nothing gets shorter, so each part has its
length. -/
theorem crlf_middle {pre xs post : List Char}
    (h : crlf false (pre ++ (xs ++ post)) = pre ++ (xs ++ post))
    (hfirst : ∀ c, xs.head? = some c → isNewline c = false)
    (hlast : ∀ c, xs.getLast? = some c → isNewline c = false) : crlf false xs = xs := by
  rcases eq_or_ne xs [] with rfl | hne
  · rfl
  · have hhead : xs.head? ≠ some '\n' := fun heq => absurd (hfirst _ heq) (by decide)
    have hend : xs.getLast? ≠ some '\r' := fun heq => absurd (hlast _ heq) (by decide)
    obtain ⟨b, hpre⟩ := exists_crlf_append false pre (xs ++ post)
    rw [hpre, crlf_append hne hend, crlf_of_head hhead] at h
    have hlen := congrArg List.length h
    simp only [List.length_append] at hlen
    have h₁ := length_le_crlf false pre
    have h₂ := length_le_crlf false xs
    have h₃ := length_le_crlf false post
    simp only [Bool.toNat_false, Nat.add_zero] at h₁ h₂ h₃
    have htail := List.append_inj_right h (by omega)
    exact List.append_inj_left htail (by omega)

/-! ### Whitespace at the ends -/

variable {u : UnicodeTables} {value : String}

theorem isSpace_of_isNewline {c : Char} (h : isNewline c = true) : isSpace u c = true := by
  rcases Bool.or_eq_true_iff.mp h with hfeed | hreturn
  · rw [of_decide_eq_true hfeed]
    rfl
  · rw [of_decide_eq_true hreturn]
    rfl

theorem OneLine.strip (h : OneLine value) : OneLine (strip u value) :=
  oneLine_iff.mpr fun c hc => oneLine_iff.mp h c (mem_of_mem_strip hc)

theorem isNewline_of_not_isSpace {c : Char} (h : isSpace u c = false) : isNewline c = false := by
  by_contra hnewline
  rw [isSpace_of_isNewline (Bool.not_eq_false _ ▸ hnewline)] at h
  cases h

theorem crlf_iff : Crlf value ↔ crlf false value.toList = value.toList := by
  unfold Crlf areaValue
  rw [← String.toList_inj, String.toList_ofList]

theorem Crlf.strip (h : Crlf value) : Crlf (strip u value) := by
  obtain ⟨pre, post, hvalue⟩ := exists_strip (u := u) value
  have hends : Trimmed u (PyStr.strip u value) := trimmed_strip value
  rw [crlf_iff, hvalue] at h
  apply crlf_iff.mpr
  exact crlf_middle h (fun c hc => isNewline_of_not_isSpace (hends.1 c hc))
    fun c hc => isNewline_of_not_isSpace (hends.2 c hc)

end HtmlForms
