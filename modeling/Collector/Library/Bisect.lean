import Mathlib.Data.List.Basic
import Mathlib.Order.Lattice

/-!
# Binary search in a sorted list

The search halves an interval until it is empty. Where the test holds up to some index and
not from there on, the search ends at that index, so it cuts a sorted list where the values
below a bound end.
-/

namespace Bisect

universe u

/-- Halve the interval from `low` to `high`, above the middle where the test holds. -/
def search (below : Nat → Bool) (low high : Nat) : Nat :=
  if low < high then
    let middle := (low + high) / 2
    if below middle then search below (middle + 1) high else search below low middle
  else low
termination_by high - low

/-- The test holds for an index if it holds for a later one. -/
def Closed (below : Nat → Bool) : Prop :=
  ∀ index later, index ≤ later → below later = true → below index = true

/-- What holds of the interval at first holds of the result: the test holds below it, and not
from there on. -/
theorem search_spec {below : Nat → Bool} (closed : Closed below) {low high : Nat}
    (ordered : low ≤ high) (inside : ∀ index < low, below index = true)
    (outside : ∀ index, high ≤ index → below index = false) :
    search below low high ≤ high ∧ (∀ index < search below low high, below index = true) ∧
      ∀ index, search below low high ≤ index → below index = false := by
  induction low, high using search.induct below with
  | case1 low high apart middle holds inductionHypothesis =>
    rw [search, if_pos apart, if_pos holds]
    have lower : low ≤ middle := by omega
    have upper : middle + 1 ≤ high := by omega
    refine inductionHypothesis upper ?_ outside
    intro index isBelow
    exact closed index middle (Nat.le_of_lt_succ isBelow) holds
  | case2 low high apart middle fails inductionHypothesis =>
    rw [search, if_pos apart, if_neg fails]
    have lower : low ≤ middle := by omega
    have upper : middle ≤ high := by omega
    obtain ⟨bounded, holds, stops⟩ := inductionHypothesis lower inside (by
      intro index beyond
      by_contra still
      have holds : below index = true := by simpa using still
      exact fails (closed middle index beyond holds))
    exact ⟨Nat.le_trans bounded upper, holds, stops⟩
  | case3 low high together =>
    rw [search, if_neg together]
    have same : low = high := by omega
    rw [same] at inside ⊢
    exact ⟨Nat.le_refl high, inside, outside⟩

variable {α : Type u} [LinearOrder α]

/-- The value at an index is below the bound. -/
def isBelow (values : List α) (bound : α) (index : Nat) : Bool :=
  (values[index]?).any fun value => decide (value < bound)

theorem isBelow_iff {values : List α} {bound : α} {index : Nat} :
    isBelow values bound index = true ↔ ∃ value, values[index]? = some value ∧ value < bound := by
  simp [isBelow, Option.any_eq_true]

/-- `bisect_left`: the first place with nothing below the bound from there on. -/
def left (values : List α) (bound : α) : Nat :=
  search (isBelow values bound) 0 values.length

/-- In a sorted list, what is before a value below the bound is below it. -/
theorem closed_isBelow {values : List α} (sorted : values.Pairwise (· ≤ ·)) (bound : α) :
    Closed (isBelow values bound) := by
  intro index later ordered holds
  obtain ⟨value, there, small⟩ := isBelow_iff.mp holds
  obtain ⟨inside, rfl⟩ := List.getElem?_eq_some_iff.mp there
  have before : index < values.length := Nat.lt_of_le_of_lt ordered inside
  refine isBelow_iff.mpr ⟨values[index], List.getElem?_eq_getElem before, ?_⟩
  obtain same | earlier := Nat.eq_or_lt_of_le ordered
  · subst same
    exact small
  · exact lt_of_le_of_lt (List.pairwise_iff_getElem.mp sorted index later before inside earlier)
      small

/-- The values before the cut are below the bound, and no later one is. -/
theorem left_spec {values : List α} (sorted : values.Pairwise (· ≤ ·)) (bound : α) :
    left values bound ≤ values.length ∧
      (∀ index < left values bound, isBelow values bound index = true) ∧
      ∀ index, left values bound ≤ index → isBelow values bound index = false := by
  refine search_spec (closed_isBelow sorted bound) (Nat.zero_le _) ?_ ?_
  · exact fun _ impossible => absurd impossible (Nat.not_lt_zero _)
  · intro index beyond
    rw [isBelow, List.getElem?_eq_none beyond]
    rfl

/-- A sorted list is cut where the values below the bound end. -/
theorem drop_left {values : List α} (sorted : values.Pairwise (· ≤ ·)) (bound : α) :
    values.drop (left values bound) = values.filter fun value => decide (bound ≤ value) := by
  obtain ⟨bounded, holds, stops⟩ := left_spec sorted bound
  have before : (values.take (left values bound)).filter (fun value => decide (bound ≤ value)) =
      [] := by
    rw [List.filter_eq_nil_iff]
    intro value member
    obtain ⟨index, inside, rfl⟩ := List.mem_take_iff_getElem.mp member
    obtain ⟨found, there, small⟩ := isBelow_iff.mp (holds index (by omega))
    rw [List.getElem?_eq_getElem (by omega)] at there
    simp [Option.some.inj there, small]
  have after : (values.drop (left values bound)).filter (fun value => decide (bound ≤ value)) =
      values.drop (left values bound) := by
    rw [List.filter_eq_self]
    intro value member
    obtain ⟨index, inside, rfl⟩ := List.mem_drop_iff_getElem.mp member
    by_contra small
    have isSmall : values[left values bound + index] < bound := by simpa using small
    have within : left values bound + index < values.length := by omega
    have holds := isBelow_iff.mpr ⟨_, List.getElem?_eq_getElem within, isSmall⟩
    rw [stops _ (Nat.le_add_right _ _)] at holds
    cases holds
  calc values.drop (left values bound)
      = (values.take (left values bound) ++ values.drop (left values bound)).filter
          fun value => decide (bound ≤ value) := by
        rw [List.filter_append, before, after, List.nil_append]
    _ = values.filter fun value => decide (bound ≤ value) := by rw [List.take_append_drop]

end Bisect
