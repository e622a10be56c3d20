import Mathlib.Data.List.Basic
import Mathlib.Data.List.Perm.Basic

/-!
# Removal by swapping with the last element

`swapRemove` takes one element out of a list and puts the last one in its place,
so every other element keeps its position. `moved` is the position an element
has afterwards.
-/

namespace SwapRemove

universe u
variable {α : Type u}

/-- The last element takes the place of the removed one. -/
def swapRemove (values : List α) (index : Nat) : List α :=
  match values.getLast? with
  | none => []
  | some last => (values.set index last).dropLast

/-- Where the element at a position ends up; `last` is the length afterwards. -/
def moved (index last position : Nat) : Nat := if position = last then index else position

@[simp]
theorem length_swapRemove (values : List α) (index : Nat) :
    (swapRemove values index).length = values.length - 1 := by
  unfold swapRemove
  cases values with
  | nil => rfl
  | cons head tail => simp [List.getLast?_cons]

/-- What is left was there before. -/
theorem mem_of_mem_swapRemove {values : List α} {index : Nat} {value : α}
    (left : value ∈ swapRemove values index) : value ∈ values := by
  unfold swapRemove at left
  cases final : values.getLast? with
  | none =>
    rw [final] at left
    exact absurd left List.not_mem_nil
  | some last =>
    rw [final] at left
    rcases List.mem_or_eq_of_mem_set (List.dropLast_subset _ left) with stays | rfl
    · exact stays
    · exact List.mem_of_getLast? final

/-- Removal rearranges what is left and repeats nothing. -/
theorem nodup_map_swapRemove {β : Type*} (key : α → β) {values : List α}
    (distinct : (values.map key).Nodup) (index : Nat) :
    ((swapRemove values index).map key).Nodup := by
  rcases List.eq_nil_or_concat values with rfl | ⟨front, last, rfl⟩
  · exact distinct
  · rw [List.concat_eq_append] at distinct ⊢
    have final : (front ++ [last]).getLast? = some last := List.getLast?_concat
    unfold swapRemove
    rw [final]
    simp only
    rw [List.map_append, List.nodup_append] at distinct
    rcases Nat.lt_or_ge index front.length with inside | beyond
    · rw [List.set_append_left _ _ inside, List.dropLast_concat]
      apply ((List.set_perm_cons_eraseIdx inside last).map key).nodup_iff.mpr
      rw [List.map_cons, List.nodup_cons]
      have smaller := (List.eraseIdx_sublist front index).map key
      refine ⟨?_, distinct.1.sublist smaller⟩
      intro repeated
      exact distinct.2.2 _ (smaller.subset repeated) _ (List.mem_singleton_self _) rfl
    · rw [List.set_append_right _ _ beyond, List.dropLast_append_of_ne_nil (by
        rw [ne_eq, List.set_eq_nil_iff]
        exact List.cons_ne_nil last [])]
      cases index - front.length <;> simp [distinct.1]

/-- The element at a position after the removal. -/
theorem getElem?_swapRemove {values : List α} {index : Nat} (inside : index < values.length)
    (position : Nat) (bounded : position < values.length - 1) :
    (swapRemove values index)[position]? =
      if position = index then values[values.length - 1]? else values[position]? := by
  have nonempty : values ≠ [] := List.ne_nil_of_length_pos (by omega)
  have final : values.getLast? = some (values.getLast nonempty) :=
    List.getLast?_eq_some_getLast nonempty
  have found : values[values.length - 1]? = some (values.getLast nonempty) := by
    rw [← List.getLast?_eq_getElem?, final]
  unfold swapRemove
  rw [final]
  simp only [List.getElem?_dropLast, List.length_set, bounded, if_true]
  by_cases same : position = index
  · rw [if_pos same, same, List.getElem?_set_self inside, found]
  · rw [if_neg same, List.getElem?_set_ne (Ne.symm same)]

/-- An element that stays is found at the position it moved to. -/
theorem getElem?_moved {values : List α} {index : Nat} (inside : index < values.length)
    {position : Nat} (present : position < values.length) (stays : position ≠ index) :
    (swapRemove values index)[moved index (values.length - 1) position]? = values[position]? := by
  unfold moved
  by_cases final : position = values.length - 1
  · rw [if_pos final, getElem?_swapRemove inside index (by omega), if_pos rfl, final]
  · rw [if_neg final, getElem?_swapRemove inside position (by omega), if_neg stays]

/-- Every position afterwards is the one some staying element moved to. -/
theorem exists_moved {length index : Nat} (inside : index < length) {position : Nat}
    (bounded : position < length - 1) :
    ∃ before, before < length ∧ before ≠ index ∧ moved index (length - 1) before = position := by
  by_cases same : position = index
  · refine ⟨length - 1, by omega, by omega, ?_⟩
    rw [same]
    exact if_pos rfl
  · exact ⟨position, by omega, same, if_neg (by omega)⟩

/-- Staying elements move to different positions. -/
theorem moved_injective {length index left right : Nat}
    (staysLeft : left ≠ index) (staysRight : right ≠ index)
    (same : moved index (length - 1) left = moved index (length - 1) right) : left = right := by
  unfold moved at same
  split at same <;> split at same <;> omega

/-- A staying element moves inside the shorter list. -/
theorem moved_lt {length index position : Nat} (inside : index < length)
    (present : position < length) (stays : position ≠ index) :
    moved index (length - 1) position < length - 1 := by
  unfold moved
  split <;> omega

end SwapRemove
