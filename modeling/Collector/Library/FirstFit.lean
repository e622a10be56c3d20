import Mathlib.Algebra.BigOperators.Intervals
import Mathlib.Algebra.Order.BigOperators.Group.Finset
import Mathlib.Logic.Function.Basic

/-!
# First fit

Items of size one go into the first allowed bin with room. The bins below a
given one fill up before it is used: while it is untouched, every item went
below it. Counting those items against the room below shows that it is reached.
-/

namespace FirstFit

open Finset

/-- The first allowed bin with room for one more item. -/
def choose (capacity count : Nat) (allowed : Nat → Bool) (load : Nat → Nat) : Option Nat :=
  (List.range count).find? fun bin => allowed bin && decide (load bin + 1 ≤ capacity)

/-- The loads after one more item in a bin. -/
def put (load : Nat → Nat) (bin : Nat) : Nat → Nat := Function.update load bin (load bin + 1)

variable {capacity count : Nat} {allowed : Nat → Bool} {load base : Nat → Nat}

/-- A chosen bin exists, is allowed and has room, and no allowed bin before it has. -/
theorem choose_some {bin : Nat} (chosen : choose capacity count allowed load = some bin) :
    bin < count ∧ allowed bin = true ∧ load bin < capacity ∧
      ∀ earlier < bin, allowed earlier = true → capacity ≤ load earlier := by
  obtain ⟨fits, inside, firstFit⟩ := List.find?_range_eq_some.mp chosen
  simp only [Bool.and_eq_true, decide_eq_true_eq] at fits
  refine ⟨List.mem_range.mp inside, fits.1, by omega, ?_⟩
  intro earlier before isAllowed
  have refused := firstFit earlier before
  simp only [isAllowed, Bool.true_and, Bool.not_eq_true', decide_eq_false_iff_not] at refused
  omega

/-- An allowed bin with room that no other one precedes is chosen. -/
theorem choose_of_first {bin : Nat} (inside : bin < count) (isAllowed : allowed bin = true)
    (room : load bin < capacity)
    (full : ∀ earlier < bin, allowed earlier = true → capacity ≤ load earlier) :
    choose capacity count allowed load = some bin := by
  refine List.find?_range_eq_some.mpr ⟨?_, List.mem_range.mpr inside, ?_⟩
  · simp only [isAllowed, Bool.true_and, decide_eq_true_eq]
    omega
  · intro earlier before
    cases isAllowed : allowed earlier with
    | false => simp
    | true =>
      have := full earlier before isAllowed
      simp only [Bool.true_and, Bool.not_eq_true', decide_eq_false_iff_not]
      omega

/-- No bin is chosen when every allowed one is full. -/
theorem choose_of_full
    (full : ∀ bin < count, allowed bin = true → capacity ≤ load bin) :
    choose capacity count allowed load = none := by
  cases chosen : choose capacity count allowed load with
  | none => rfl
  | some bin =>
    obtain ⟨inside, isAllowed, room, _⟩ := choose_some chosen
    have := full bin inside isAllowed
    omega

/-- When no bin is chosen, every allowed bin is full. -/
theorem choose_none (refused : choose capacity count allowed load = none) (bin : Nat)
    (inside : bin < count) (isAllowed : allowed bin = true) : capacity ≤ load bin := by
  have full := List.find?_range_eq_none.mp refused bin inside
  simp only [isAllowed, Bool.true_and, Bool.not_eq_true', decide_eq_false_iff_not] at full
  omega

/-- How the loads stand after some placements, seen from one bin: no bin lost
items or went over both its start and the capacity, and while the bin is
untouched all items are below it. -/
structure Filling (capacity bin : Nat) (base load : Nat → Nat) (placed : Nat) : Prop where
  kept : ∀ other, base other ≤ load other
  bounded : ∀ other, load other ≤ max capacity (base other)
  below : load bin = base bin →
    ∑ other ∈ range bin, load other = ∑ other ∈ range bin, base other + placed

theorem Filling.start (capacity bin : Nat) (base : Nat → Nat) : Filling capacity bin base base 0 where
  kept := fun _ => le_refl _
  bounded := fun other => le_max_right capacity (base other)
  below := fun _ => by omega

/-- A bin is out of reach of the choice, or it is used or a candidate. -/
def Watched (capacity count : Nat) (allowed : Nat → Bool) (base load : Nat → Nat) (bin : Nat) :
    Prop :=
  count ≤ bin ∨ (base bin < capacity ∧ (allowed bin = true ∨ base bin < load bin))

/-- A placement keeps the picture. -/
theorem Filling.put {bin chosen placed : Nat} (filling : Filling capacity bin base load placed)
    (watched : Watched capacity count allowed base load bin)
    (picked : choose capacity count allowed load = some chosen) :
    Filling capacity bin base (put load chosen) (placed + 1) := by
  obtain ⟨inside, _, room, full⟩ := choose_some picked
  constructor
  · intro other
    by_cases same : other = chosen
    · subst same
      have before := filling.kept other
      simp only [FirstFit.put, Function.update_self]
      omega
    · rw [FirstFit.put, Function.update_of_ne same]
      exact filling.kept other
  · intro other
    by_cases same : other = chosen
    · subst same
      simp only [FirstFit.put, Function.update_self]
      exact le_max_of_le_left (by omega)
    · rw [FirstFit.put, Function.update_of_ne same]
      exact filling.bounded other
  · intro untouched
    have other : chosen ≠ bin := by
      intro same
      subst same
      have before := filling.kept chosen
      simp only [FirstFit.put, Function.update_self] at untouched
      omega
    rw [FirstFit.put, Function.update_of_ne (Ne.symm other)] at untouched
    have lower : chosen < bin := by
      rcases watched with outside | ⟨roomy, isAllowed | used⟩
      · omega
      · by_contra notLower
        have := full bin (by omega) isAllowed
        omega
      · omega
    have before := filling.below untouched
    have member : chosen ∈ range bin := mem_range.mpr lower
    rw [FirstFit.put, sum_update_of_mem member, ← erase_eq]
    have split := sum_erase_add (range bin) load member
    omega

/-- A refused item keeps the picture: the bin is used. -/
theorem Filling.skip {bin placed : Nat} (filling : Filling capacity bin base load placed)
    (inside : bin < count) (watched : Watched capacity count allowed base load bin)
    (refused : choose capacity count allowed load = none) :
    Filling capacity bin base load (placed + 1) := by
  refine ⟨filling.kept, filling.bounded, ?_⟩
  intro untouched
  rcases watched with outside | ⟨roomy, isAllowed | used⟩
  · omega
  · have full := choose_none refused bin inside isAllowed
    omega
  · omega

/-- More items than room below a bin reach it. -/
theorem Filling.reached {bin placed : Nat} (filling : Filling capacity bin base load placed)
    (many : ∑ other ∈ range bin, (capacity - base other) < placed) : base bin < load bin := by
  by_contra untouched
  have same : load bin = base bin := le_antisymm (not_lt.mp untouched) (filling.kept bin)
  have counted := filling.below same
  have room : ∑ other ∈ range bin, load other ≤
      ∑ other ∈ range bin, (base other + (capacity - base other)) := by
    apply sum_le_sum
    intro other _
    have := filling.bounded other
    omega
  rw [sum_add_distrib] at room
  omega

/-- Fewer items than room leave a bin to choose when all bins are allowed. -/
theorem Filling.chooses {placed : Nat} (filling : Filling capacity count base load placed)
    (outside : load count = base count)
    (roomy : placed < ∑ other ∈ range count, (capacity - base other)) :
    ∃ bin, choose capacity count (fun _ => true) load = some bin := by
  cases chosen : choose capacity count (fun _ => true) load with
  | some bin => exact ⟨bin, rfl⟩
  | none =>
    have counted := filling.below outside
    have full : ∑ other ∈ range count, (base other + (capacity - base other)) ≤
        ∑ other ∈ range count, load other := by
      apply sum_le_sum
      intro other member
      have := choose_none chosen other (mem_range.mp member) rfl
      have := filling.kept other
      omega
    rw [sum_add_distrib] at full
    omega

/-- When every bin but one is full, all room left is in that one. -/
theorem Filling.last_room {placed excluded : Nat}
    (filling : Filling capacity count base load placed) (outside : load count = base count)
    (full : ∀ bin < count, bin ≠ excluded → capacity ≤ load bin) :
    ∑ other ∈ range count, (capacity - base other) ≤ placed + (capacity - load excluded) := by
  have counted := filling.below outside
  have left : ∑ other ∈ range count, (if other = excluded then capacity - load excluded else 0) ≤
      capacity - load excluded := by
    rw [sum_ite_eq']
    split <;> omega
  have room : ∑ other ∈ range count, (base other + (capacity - base other)) ≤
      ∑ other ∈ range count,
        (load other + if other = excluded then capacity - load excluded else 0) := by
    apply sum_le_sum
    intro other member
    have kept := filling.kept other
    by_cases same : other = excluded
    · subst same
      simp only [if_true]
      omega
    · have isFull := full other (mem_range.mp member) same
      simp only [if_neg same]
      omega
  rw [sum_add_distrib, sum_add_distrib] at room
  omega

end FirstFit
