import Mathlib.Data.Finset.Basic
import Mathlib.Data.Finset.Union

/-!
# Items spread over bins

Items are sets of elements, known by a key, and each lies as a whole in some bin.
The bins hold nothing else. An element that only one item has is in one bin only, so
taking the elements of some items out of all bins takes out just these items, as long
as they have no element in common with another item.
-/

namespace Bins

universe u v
variable {κ : Type u} {α : Type v}

/-- No two items have the element in common. -/
def Unshared (held : κ → Option (Finset α)) (element : α) : Prop :=
  ∀ left right leftItem rightItem, held left = some leftItem → held right = some rightItem →
    element ∈ leftItem → element ∈ rightItem → left = right

/-- Every item lies in a bin, the bins hold only elements of items, and two bins
share an element only if two items do. -/
structure Packed (held : κ → Option (Finset α)) (bins : List (Finset α)) : Prop where
  whole : ∀ key item, held key = some item → ∃ bin ∈ bins, item ⊆ bin
  only : ∀ bin ∈ bins, ∀ element ∈ bin, ∃ key item, held key = some item ∧ element ∈ item
  single : ∀ element, Unshared held element →
    bins.Pairwise fun left right => element ∈ left → element ∉ right

variable {held after : κ → Option (Finset α)} {bins other : List (Finset α)}

theorem packed_nil (none : ∀ key, held key = none) : Packed held [] where
  whole := by
    intro key item found
    rw [none] at found
    cases found
  only := fun bin member => absurd member List.not_mem_nil
  single := fun _ _ => List.Pairwise.nil

/-- The elements in the bins are those of the items. -/
theorem Packed.mem_iff (packed : Packed held bins) (element : α) :
    (∃ bin ∈ bins, element ∈ bin) ↔ ∃ key item, held key = some item ∧ element ∈ item := by
  constructor
  · rintro ⟨bin, member, inside⟩
    exact packed.only bin member element inside
  · rintro ⟨key, item, found, inside⟩
    obtain ⟨bin, member, contained⟩ := packed.whole key item found
    exact ⟨bin, member, contained inside⟩

/-- The order of the bins does not matter. -/
theorem Packed.perm (packed : Packed held bins) (same : bins.Perm other) :
    Packed held other where
  whole := by
    intro key item found
    obtain ⟨bin, member, contained⟩ := packed.whole key item found
    exact ⟨bin, same.mem_iff.mp member, contained⟩
  only := fun bin member => packed.only bin (same.mem_iff.mpr member)
  single := by
    intro element unshared
    have symmetric : ∀ {left right : Finset α}, (element ∈ left → element ∉ right) →
        element ∈ right → element ∉ left := fun apart inRight inLeft => apart inLeft inRight
    exact (same.pairwise_iff symmetric).mp (packed.single element unshared)

/-- One more empty bin holds nothing. -/
theorem Packed.cons_empty (packed : Packed held bins) : Packed held (∅ :: bins) where
  whole := by
    intro key item found
    obtain ⟨bin, member, contained⟩ := packed.whole key item found
    exact ⟨bin, List.mem_cons_of_mem ∅ member, contained⟩
  only := by
    intro bin member element inside
    rcases List.mem_cons.mp member with rfl | old
    · exact absurd inside (Finset.notMem_empty element)
    · exact packed.only bin old element inside
  single := fun element unshared => List.pairwise_cons.mpr
    ⟨fun _ _ inside => absurd inside (Finset.notMem_empty element),
      packed.single element unshared⟩

/-- Empty bins may be dropped if no item is empty. -/
theorem Packed.sublist (packed : Packed held bins) (fewer : other.Sublist bins)
    (dropped : ∀ bin ∈ bins, bin ∈ other ∨ bin = ∅)
    (nonempty : ∀ key item, held key = some item → item.Nonempty) : Packed held other where
  whole := by
    intro key item found
    obtain ⟨bin, member, contained⟩ := packed.whole key item found
    rcases dropped bin member with kept | rfl
    · exact ⟨bin, kept, contained⟩
    · obtain ⟨element, inside⟩ := nonempty key item found
      exact absurd (contained inside) (Finset.notMem_empty element)
  only := fun bin member => packed.only bin (fewer.subset member)
  single := fun element unshared => (packed.single element unshared).sublist fewer

variable [DecidableEq α]

/-- Taking the elements of some items out of all bins takes out these items, if they
have no element in common with another one. -/
theorem Packed.remove {gone : Finset α} (packed : Packed held bins)
    (unshared : ∀ element ∈ gone, Unshared held element)
    (fewer : ∀ key item, after key = some item → held key = some item)
    (removed : ∀ element, element ∈ gone ↔
      ∃ key item, held key = some item ∧ after key = none ∧ element ∈ item) :
    Packed after (bins.map (· \ gone)) := by
  constructor
  · intro key item found
    obtain ⟨bin, member, contained⟩ := packed.whole key item (fewer key item found)
    refine ⟨bin \ gone, List.mem_map_of_mem member, ?_⟩
    intro element inside
    refine Finset.mem_sdiff.mpr ⟨contained inside, ?_⟩
    intro isGone
    obtain ⟨other, old, foundOld, dropped, alsoInside⟩ := (removed element).mp isGone
    obtain rfl := unshared element isGone key other item old (fewer key item found) foundOld
      inside alsoInside
    rw [found] at dropped
    cases dropped
  · intro bin member element inside
    obtain ⟨whole, inBins, rfl⟩ := List.mem_map.mp member
    obtain ⟨isIn, stays⟩ := Finset.mem_sdiff.mp inside
    obtain ⟨key, item, found, ofItem⟩ := packed.only whole inBins element isIn
    cases kept : after key with
    | none => exact absurd ((removed element).mpr ⟨key, item, found, kept, ofItem⟩) stays
    | some same =>
      obtain rfl := Option.some.inj (found.symm.trans (fewer key same kept))
      exact ⟨key, item, kept, ofItem⟩
  · intro element unsharedAfter
    rw [List.pairwise_map]
    by_cases isGone : element ∈ gone
    · exact List.pairwise_of_forall fun left right inside =>
        absurd isGone (Finset.mem_sdiff.mp inside).2
    · -- the items that have this element all stay
      have stays : ∀ key item, held key = some item → element ∈ item →
          after key = some item := by
        intro key item found inside
        cases kept : after key with
        | none => exact absurd ((removed element).mpr ⟨key, item, found, kept, inside⟩) isGone
        | some same => rw [← fewer key same kept, found]
      have before : Unshared held element := by
        intro left right leftItem rightItem leftFound rightFound inLeft inRight
        exact unsharedAfter left right leftItem rightItem (stays left leftItem leftFound inLeft)
          (stays right rightItem rightFound inRight) inLeft inRight
      refine (packed.single element before).imp ?_
      intro left right apart inLeft inRight
      exact apart (Finset.mem_sdiff.mp inLeft).1 (Finset.mem_sdiff.mp inRight).1

/-- A new item may be put into any bin. -/
theorem Packed.add [DecidableEq κ] {left right : List (Finset α)} {bin item : Finset α} {key : κ}
    (packed : Packed held (left ++ bin :: right)) (fresh : held key = none)
    (added : ∀ other, after other = if other = key then some item else held other) :
    Packed after (left ++ (bin ∪ item) :: right) := by
  have front := packed.perm List.perm_middle
  have kept : ∀ other old, held other = some old → after other = some old := by
    intro other old found
    have different : other ≠ key := by
      rintro rfl
      rw [fresh] at found
      cases found
    rw [added, if_neg different, found]
  apply Packed.perm _ List.perm_middle.symm
  constructor
  · intro other old found
    rw [added] at found
    split at found
    · obtain rfl := Option.some.inj found
      exact ⟨bin ∪ item, List.mem_cons_self, Finset.subset_union_right⟩
    · obtain ⟨holder, member, contained⟩ := front.whole other old found
      rcases List.mem_cons.mp member with rfl | later
      · exact ⟨_, List.mem_cons_self, contained.trans Finset.subset_union_left⟩
      · exact ⟨holder, List.mem_cons_of_mem _ later, contained⟩
  · have before : ∀ holder ∈ bin :: (left ++ right), ∀ element ∈ holder,
        ∃ other old, after other = some old ∧ element ∈ old := by
      intro holder member element inside
      obtain ⟨other, old, found, isIn⟩ := front.only holder member element inside
      exact ⟨other, old, kept other old found, isIn⟩
    intro holder member element inside
    rcases List.mem_cons.mp member with rfl | later
    · rcases Finset.mem_union.mp inside with old | new
      · exact before bin List.mem_cons_self element old
      · exact ⟨key, item, by rw [added, if_pos rfl], new⟩
    · exact before holder (List.mem_cons_of_mem bin later) element inside
  · intro element unsharedAfter
    have before : Unshared held element := by
      intro first second firstItem secondItem firstFound secondFound
      exact unsharedAfter first second firstItem secondItem (kept _ _ firstFound)
        (kept _ _ secondFound)
    obtain ⟨fromBin, rest⟩ := List.pairwise_cons.mp (front.single element before)
    refine List.pairwise_cons.mpr ⟨?_, rest⟩
    intro holder member inside
    rcases Finset.mem_union.mp inside with old | new
    · exact fromBin holder member old
    · -- what the other bins hold belongs to other items
      intro elsewhere
      obtain ⟨other, item', found, isIn⟩ :=
        front.only holder (List.mem_cons_of_mem bin member) element elsewhere
      obtain rfl := unsharedAfter key other item item' (by rw [added, if_pos rfl])
        (kept other item' found) new isIn
      rw [fresh] at found
      cases found

end Bins
