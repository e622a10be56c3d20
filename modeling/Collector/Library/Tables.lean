import Mathlib.Algebra.BigOperators.Group.Finset.Basic
import Mathlib.Data.Multiset.Bind

/-!
# Tables without order

A table is a multiset of rows. Rows are grouped by keys, and a missing value in a key groups
like any other. They are joined on equal keys, and a key with a missing value joins with none;
the test `known` says which keys have no missing value. Joining the groups of two tables
outwards lists each key of either with its counts in both, but a key that is not known stands
alone on its side.
-/

namespace Tables

universe u v w
variable {κ : Type u} [DecidableEq κ]

/-- `SELECT key, count(*) … GROUP BY key` -/
def groupCount (rows : Multiset κ) : Multiset (κ × Nat) :=
  rows.dedup.map fun key => (key, rows.count key)

section Joins

variable {β : Type v} {γ : Type w} (known : κ → Bool)

/-- What a key joins with. -/
def matching (key : κ) (rows : Multiset (κ × γ)) : Multiset (κ × γ) :=
  rows.filter fun row => known key ∧ row.1 = key

/-- `JOIN … USING (key)` -/
def innerJoin (left : Multiset (κ × β)) (right : Multiset (κ × γ)) : Multiset (κ × β × γ) :=
  left.bind fun row => (matching known row.1 right).map fun other => (row.1, row.2, other.2)

/-- `FULL OUTER JOIN … USING (key)`, with the key from whichever side has it. -/
def fullJoin (left : Multiset (κ × β)) (right : Multiset (κ × γ)) :
    Multiset (κ × Option β × Option γ) :=
  (innerJoin known left right).map (fun row => (row.1, some row.2.1, some row.2.2)) +
    (left.filter fun row : κ × β => (matching known row.1 right).card = 0).map
      (fun row => (row.1, some row.2, none)) +
    (right.filter fun row : κ × γ => (matching known row.1 left).card = 0).map fun row =>
      (row.1, none, some row.2)

end Joins

section Groups

variable (known : κ → Bool)

/-- A known key joins with its own group. -/
theorem matching_groupCount (key : κ) (rows : Multiset κ) :
    matching known key (groupCount rows) =
      if known key ∧ key ∈ rows then {(key, rows.count key)} else 0 := by
  have picked : rows.dedup.filter (fun other => other = key) =
      Multiset.replicate (if key ∈ rows then 1 else 0) key := by
    rw [Multiset.filter_eq', Multiset.count_dedup]
  rw [matching, groupCount, Multiset.filter_map]
  by_cases isKnown : known key = true
  · have same : rows.dedup.filter ((fun row : κ × Nat => known key ∧ row.1 = key) ∘
        fun other => (other, rows.count other)) = rows.dedup.filter fun other => other = key :=
      Multiset.filter_congr fun other _ => by simp [isKnown]
    rw [same, picked]
    by_cases member : key ∈ rows <;> simp [isKnown, member]
  · simp [isKnown]

/-- What a key joins with, at most once. -/
theorem bind_ite {α : Type v} {β : Type w} (test : α → Prop) [DecidablePred test] (image : α → β)
    (rows : Multiset α) : (rows.bind fun row => if test row then {image row} else 0) =
      (rows.filter test).map image := by
  induction rows using Multiset.induction with
  | empty => rfl
  | cons row rows inductionHypothesis =>
    rw [Multiset.cons_bind, inductionHypothesis]
    by_cases holds : test row
    · rw [if_pos holds, Multiset.filter_cons_of_pos _ holds, Multiset.map_cons,
        Multiset.singleton_add]
    · rw [if_neg holds, Multiset.filter_cons_of_neg _ holds, zero_add]

/-- The rows that pass a test and those that do not make up the table. -/
theorem map_filter_add {α : Type v} {β : Type w} (test : α → Prop) [DecidablePred test]
    (passed failed : α → β) (rows : Multiset α) :
    (rows.filter test).map passed + (rows.filter fun row => ¬ test row).map failed =
      rows.map fun row => if test row then passed row else failed row := by
  have onPassed : (rows.filter test).map passed =
      (rows.filter test).map fun row => if test row then passed row else failed row :=
    Multiset.map_congr rfl fun row member => (if_pos (Multiset.mem_filter.mp member).2).symm
  have onFailed : (rows.filter fun row => ¬ test row).map failed =
      (rows.filter fun row => ¬ test row).map
        fun row => if test row then passed row else failed row :=
    Multiset.map_congr rfl fun row member => (if_neg (Multiset.mem_filter.mp member).2).symm
  rw [onPassed, onFailed, ← Multiset.map_add, Multiset.filter_add_not]

/-- The joined groups of two tables. -/
theorem innerJoin_groupCount (left right : Multiset κ) :
    innerJoin known (groupCount left) (groupCount right) =
      (left.dedup.filter fun key => known key ∧ key ∈ right).map fun key =>
        (key, left.count key, right.count key) := by
  rw [innerJoin, groupCount, Multiset.bind_map, ← bind_ite]
  refine Multiset.bind_congr fun key _ => ?_
  rw [matching_groupCount]
  split <;> simp

/-- A group has no partner if its key is unknown or not in the other table. -/
theorem filter_alone (left right : Multiset κ) :
    (groupCount left).filter (fun row => (matching known row.1 (groupCount right)).card = 0) =
      (left.dedup.filter fun key => ¬ (known key ∧ key ∈ right)).map fun key =>
        (key, left.count key) := by
  have spelled : groupCount left = left.dedup.map fun key => (key, left.count key) := rfl
  rw [spelled, Multiset.filter_map]
  congr 1
  refine Multiset.filter_congr fun key _ => ?_
  rw [Function.comp_apply, matching_groupCount]
  split
  · rename_i partner
    simp [partner]
  · rename_i alone
    simp [alone]

/-- The rows whose keys are known. -/
def joinable (rows : Multiset κ) : Multiset κ := rows.filter fun key => known key

/-- Each key of two tables with its counts, as an outer join of their groups lists them. -/
def countBoth (left right : Multiset κ) : Multiset (κ × Nat × Nat) :=
  (fullJoin known (groupCount left) (groupCount right)).map fun row =>
    (row.1, row.2.1.getD 0, row.2.2.getD 0)

/-- The list has each key of the left table with its counts, and each key of the right table that
has not joined. -/
theorem countBoth_eq (left right : Multiset κ) :
    countBoth known left right =
      left.dedup.map (fun key => (key, left.count key, (joinable known right).count key)) +
        (right.dedup.filter fun key => ¬ (known key ∧ key ∈ left)).map fun key =>
          (key, 0, right.count key) := by
  have counted (key : κ) : (if known key ∧ key ∈ right then
        (key, left.count key, right.count key) else (key, left.count key, 0)) =
      (key, left.count key, (joinable known right).count key) := by
    rw [joinable, Multiset.count_filter]
    by_cases member : key ∈ right
    · by_cases isKnown : known key = true <;> simp [member, isKnown]
    · simp [member]
  rw [countBoth, fullJoin, innerJoin_groupCount, filter_alone, filter_alone, Multiset.map_add,
    Multiset.map_add]
  simp only [Multiset.map_map, Function.comp_def, Option.getD_some, Option.getD_none]
  rw [map_filter_add]
  simp only [counted]

/-- It is the same list from either side. -/
theorem countBoth_swap (left right : Multiset κ) :
    (countBoth known left right).map (fun row => (row.1, row.2.2, row.2.1)) =
      countBoth known right left := by
  have joined : left.dedup.filter (fun key => known key ∧ key ∈ right) =
      right.dedup.filter fun key => known key ∧ key ∈ left := by
    refine (Multiset.Nodup.ext ((Multiset.nodup_dedup _).filter _)
      ((Multiset.nodup_dedup _).filter _)).mpr fun key => ?_
    simp only [Multiset.mem_filter, Multiset.mem_dedup]
    tauto
  rw [countBoth, countBoth, fullJoin, fullJoin, innerJoin_groupCount, innerJoin_groupCount,
    filter_alone, filter_alone, joined]
  simp only [Multiset.map_add, Multiset.map_map, Function.comp_def, Option.getD_some,
    Option.getD_none]
  rw [add_right_comm]

/-- Counts of the keys of a table add up to the rows of any table of its keys. -/
theorem sum_count {left rows : Multiset κ} (inLeft : ∀ key ∈ rows, key ∈ left) :
    (left.dedup.map fun key => rows.count key).sum = rows.card :=
  Multiset.sum_count_eq_card (s := left.toFinset) fun key member =>
    Multiset.mem_toFinset.mpr (inLeft key member)

/-- The lesser counts add up to what the tables share, as far as its keys are known. -/
theorem sum_shared (left right : Multiset κ) :
    ((countBoth known left right).map fun row => min row.2.1 row.2.2).sum =
      (left ∩ joinable known right).card := by
  have shared : (left.dedup.map fun key => (left ∩ joinable known right).count key).sum =
      (left ∩ joinable known right).card :=
    sum_count fun key member => (Multiset.mem_inter.mp member).1
  rw [← shared, countBoth_eq]
  simp [Multiset.count_inter]

/-- The excess on one side adds up to what the other side, as far as its keys are known, does not
make up for. -/
theorem sum_excess (left right : Multiset κ) :
    ((countBoth known left right).map fun row => row.2.1 - row.2.2).sum =
      (left - joinable known right).card := by
  have excess : (left.dedup.map fun key => (left - joinable known right).count key).sum =
      (left - joinable known right).card :=
    sum_count fun key member => Multiset.mem_of_le (Multiset.sub_le_self _ _) member
  rw [← excess, countBoth_eq]
  simp [Multiset.count_sub]

/-- The keys in excess on one side are listed once each. -/
theorem excess_keys (left right : Multiset κ) :
    ((countBoth known left right).filter fun row => row.2.2 < row.2.1).map Prod.fst =
      (left - joinable known right).dedup := by
  have none : ((right.dedup.filter fun key => ¬ (known key ∧ key ∈ left)).map
      fun key => (key, 0, right.count key)).filter (fun row => row.2.2 < row.2.1) = 0 := by
    rw [Multiset.filter_eq_nil]
    intro row member
    obtain ⟨key, _, rfl⟩ := Multiset.mem_map.mp member
    exact Nat.not_lt_zero _
  rw [countBoth_eq, Multiset.filter_add, none, add_zero, Multiset.filter_map, Multiset.map_map]
  simp only [Function.comp_def, Multiset.map_id']
  refine (Multiset.Nodup.ext ((Multiset.nodup_dedup _).filter _)
    (Multiset.nodup_dedup _)).mpr fun key => ?_
  rw [Multiset.mem_filter, Multiset.mem_dedup, Multiset.mem_dedup, Multiset.mem_sub]
  constructor
  · exact fun excess => excess.2
  · intro excess
    exact ⟨Multiset.count_pos.mp (Nat.zero_lt_of_lt excess), excess⟩

end Groups

omit [DecidableEq κ] in
/-- Tables are the same if their keys are, and rows of one key are. -/
theorem eq_of_map_eq {α : Type v} {key : α → κ} {left right : Multiset α}
    (agree : ∀ row ∈ left, ∀ other ∈ right, key row = key other → row = other)
    (same : left.map key = right.map key) : left = right := by
  induction left using Multiset.induction generalizing right with
  | empty =>
    rw [Multiset.map_zero] at same
    exact (Multiset.map_eq_zero.mp same.symm).symm
  | cons row rows inductionHypothesis =>
    have there : key row ∈ right.map key := by
      rw [← same]
      exact Multiset.mem_map_of_mem key (Multiset.mem_cons_self row rows)
    obtain ⟨other, member, equal⟩ := Multiset.mem_map.mp there
    obtain rfl := agree row (Multiset.mem_cons_self row rows) other member equal.symm
    obtain ⟨rest, rfl⟩ := Multiset.exists_cons_of_mem member
    rw [Multiset.map_cons, Multiset.map_cons, Multiset.cons_inj_right] at same
    rw [inductionHypothesis (fun first inRows second inRest =>
      agree first (Multiset.mem_cons_of_mem inRows) second (Multiset.mem_cons_of_mem inRest)) same]

end Tables
