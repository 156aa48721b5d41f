/-
Saasmint/Lib/Paging.lean

Lists that are read a page at a time.  A page has at most `limit` items and
says whether there are more; the next page is asked for by the key of the last
item (`starting_after`).  Reading page after page gives every item once, in the
order of the list, whatever the size of the pages (`listAll_eq`).
-/
import Mathlib.Data.List.Basic

namespace Paging

variable {α κ : Type*} [DecidableEq κ]

structure Page (α : Type*) where
  data : List α
  hasMore : Bool

/-- The items behind the one with a key, or all of them. -/
def after (key : α → κ) (items : List α) : Option κ → List α
  | none => items
  | some cursor => (items.dropWhile fun x => key x ≠ cursor).tail

/-- The page of a list endpoint. -/
def list (key : α → κ) (items : List α) (limit : Nat) (cursor : Option κ) : Page α where
  data := (after key items cursor).take limit
  hasMore := limit < (after key items cursor).length

/-- Page after page, until one says that there are no more.  `fuel` bounds the
number of pages. -/
def autoPagingIter (key : α → κ) (fetch : Option κ → Page α) : Nat → Option κ → List α
  | 0, _ => []
  | fuel + 1, cursor =>
    let page := fetch cursor
    if page.hasMore then
      page.data ++
        (page.data.getLast?.map fun x => autoPagingIter key fetch fuel (some (key x))).getD []
    else page.data

/-- All the items of an endpoint. -/
def listAll (key : α → κ) (items : List α) (limit : Nat) : List α :=
  autoPagingIter key (list key items limit) (items.length + 1) none

theorem after_append_cons {key : α → κ} {x : α} {front : List α}
    (hx : ∀ y ∈ front, key y ≠ key x) (rest : List α) :
    after key (front ++ x :: rest) (some (key x)) = rest := by
  have hdrop : (front ++ x :: rest).dropWhile (fun y => key y ≠ key x) = x :: rest := by
    rw [List.dropWhile_append_of_pos fun y hy => by simpa using hx y hy]
    exact List.dropWhile_cons_of_neg (by simp)
  rw [after, hdrop, List.tail_cons]

/-- The induction is on the pages: `front` has been read, `rest` has not, and
the cursor is at the border. -/
theorem autoPagingIter_of_after {key : α → κ} {items : List α} (hkeys : (items.map key).Nodup)
    {limit : Nat} (hlimit : 0 < limit) (fuel : Nat) :
    ∀ (cursor : Option κ) (front rest : List α), items = front ++ rest →
      after key items cursor = rest → rest.length < fuel →
      autoPagingIter key (list key items limit) fuel cursor = rest := by
  induction fuel with
  | zero => exact fun _ _ _ _ _ h => absurd h (Nat.not_lt_zero _)
  | succ fuel ih =>
    intro cursor front rest hitems hafter hfuel
    rw [autoPagingIter]
    show (if (list key items limit cursor).hasMore = true then _ else _) = _
    simp only [list, hafter, decide_eq_true_eq]
    split
    next hmore =>
      have hne : rest.take limit ≠ [] := by
        rw [Ne, List.take_eq_nil_iff]
        rintro (h | h)
        · exact absurd h (Nat.pos_iff_ne_zero.mp hlimit)
        · rw [h] at hmore
          exact absurd hmore (Nat.not_lt_zero _)
      obtain ⟨page, x, hpage⟩ := (List.eq_nil_or_concat (rest.take limit)).resolve_left hne
      have hsplit : items = (front ++ page) ++ x :: rest.drop limit := by
        rw [hitems, List.append_assoc, ← List.singleton_append, ← List.append_assoc page,
          ← List.concat_eq_append, ← hpage, List.take_append_drop]
      have hfresh : ∀ y ∈ front ++ page, key y ≠ key x := by
        intro y hy hyx
        rw [hsplit, List.map_append, List.map_cons] at hkeys
        refine (List.nodup_append.mp hkeys).2.2 _ (List.mem_map_of_mem hy) _ ?_ hyx
        exact List.mem_cons_self
      have hnext : after key items (some (key x)) = rest.drop limit := by
        rw [hsplit]
        exact after_append_cons hfresh _
      have hread : items = (front ++ rest.take limit) ++ rest.drop limit := by
        rw [List.append_assoc, List.take_append_drop, hitems]
      have hrest := ih (some (key x)) _ _ hread hnext (by rw [List.length_drop]; omega)
      rw [hpage, List.concat_eq_append, List.getLast?_concat, Option.map_some, Option.getD_some,
        hrest, ← List.concat_eq_append, ← hpage, List.take_append_drop]
    next hmore =>
      exact List.take_of_length_le (Nat.le_of_not_lt hmore)

/-- Reading page after page gives every item once, in order. -/
theorem listAll_eq {key : α → κ} {items : List α} (hkeys : (items.map key).Nodup) {limit : Nat}
    (hlimit : 0 < limit) : listAll key items limit = items :=
  autoPagingIter_of_after hkeys hlimit _ none [] items rfl rfl (Nat.lt_succ_self _)

end Paging
