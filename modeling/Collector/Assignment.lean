import Collector.Pool

/-!
# The three passes of a subscription

Each new asset gets two different connections: the first pass fixes one, the
second pass another one or the overflow list, the third pass the overflow
connection. `Assigned` says how pending lists, first connections and the reverse
index belong together; each placement keeps it. First-fit counting shows that
the first pass always finds room and that no connection in front of others is
left empty.
-/

namespace Collector.Pool

open Finset

/-- The pending lists hold each new asset at its first connection and at the
second one recorded in the reverse index. -/
structure Assigned (old : AssetConns) (newAssets : List String) (count : Nat)
    (assignment : Assignment) : Prop where
  pending_iff : ∀ asset idx, asset ∈ assignment.pending idx ↔ asset ∈ newAssets ∧
    (assignment.firstConn.lookup asset = some idx ∨
      ∃ c1, assignment.assetToConns.lookup asset = some (c1, idx))
  nodup : ∀ idx, (assignment.pending idx).Nodup
  first : ∀ asset idx, assignment.firstConn.lookup asset = some idx →
    asset ∈ newAssets ∧ idx < count
  entry : ∀ asset ∈ newAssets, ∀ c1 c2, assignment.assetToConns.lookup asset = some (c1, c2) →
    assignment.firstConn.lookup asset = some c1 ∧ c1 ≠ c2 ∧ c2 < count
  untouched : ∀ asset, asset ∉ newAssets →
    assignment.assetToConns.lookup asset = old.lookup asset

/-- The same without a word about repetitions in the pending lists. -/
structure Placed (old : AssetConns) (newAssets : List String) (count : Nat)
    (assignment : Assignment) : Prop where
  pending_iff : ∀ asset idx, asset ∈ assignment.pending idx ↔ asset ∈ newAssets ∧
    (assignment.firstConn.lookup asset = some idx ∨
      ∃ c1, assignment.assetToConns.lookup asset = some (c1, idx))
  first : ∀ asset idx, assignment.firstConn.lookup asset = some idx →
    asset ∈ newAssets ∧ idx < count
  entry : ∀ asset ∈ newAssets, ∀ c1 c2, assignment.assetToConns.lookup asset = some (c1, c2) →
    assignment.firstConn.lookup asset = some c1 ∧ c1 ≠ c2 ∧ c2 < count
  untouched : ∀ asset, asset ∉ newAssets →
    assignment.assetToConns.lookup asset = old.lookup asset

variable {old : AssetConns} {newAssets : List String} {count : Nat} {assignment : Assignment}

theorem Assigned.placed (assigned : Assigned old newAssets count assignment) :
    Placed old newAssets count assignment :=
  ⟨assigned.pending_iff, assigned.first, assigned.entry, assigned.untouched⟩

theorem Pending.mem_push (pending : Pending) (idx other : Nat) (asset tested : String) :
    tested ∈ pending.push idx asset other ↔
      tested ∈ pending other ∨ (other = idx ∧ tested = asset) := by
  unfold Pending.push
  by_cases same : other = idx
  · subst same
    simp [Function.update_self]
  · simp [same]

theorem Pending.nodup_push {pending : Pending} {idx : Nat} {asset : String}
    (nodup : ∀ other, (pending other).Nodup) (absent : asset ∉ pending idx) (other : Nat) :
    (pending.push idx asset other).Nodup := by
  unfold Pending.push
  by_cases same : other = idx
  · subst same
    rw [Function.update_self]
    exact List.Nodup.append (nodup other) (List.nodup_singleton asset)
      (List.disjoint_singleton.mpr absent)
  · rw [Function.update_of_ne same]
    exact nodup other

/-- Fixing the first connection of a new asset keeps the assignment. -/
theorem Assigned.placeFirst (assigned : Assigned old newAssets count assignment) {asset : String}
    {idx : Nat} (isNew : asset ∈ newAssets) (unplaced : assignment.firstConn.lookup asset = none)
    (unsettled : assignment.assetToConns.lookup asset = none) (inside : idx < count) :
    Assigned old newAssets count { assignment with
      pending := assignment.pending.push idx asset
      firstConn := assignment.firstConn.insert asset idx } := by
  have absent : asset ∉ assignment.pending idx := by
    intro present
    rcases ((assigned.pending_iff asset idx).mp present).2 with placed | ⟨c1, settled⟩
    · rw [unplaced] at placed
      exact absurd placed (by simp)
    · rw [unsettled] at settled
      exact absurd settled (by simp)
  refine ⟨?_, Pending.nodup_push assigned.nodup absent, ?_, ?_, assigned.untouched⟩
  · intro tested other
    rw [Pending.mem_push, assigned.pending_iff]
    by_cases same : tested = asset
    · subst same
      simp [AList.lookup_insert, isNew, unplaced, unsettled, eq_comm]
    · simp [AList.lookup_insert_ne same, same]
  · intro tested other found
    by_cases same : tested = asset
    · subst same
      simp only [AList.lookup_insert, Option.some.injEq] at found
      exact ⟨isNew, found ▸ inside⟩
    · simp only [AList.lookup_insert_ne same] at found
      exact assigned.first tested other found
  · intro tested member c1 c2 found
    have different : tested ≠ asset := by
      intro same
      subst same
      rw [unsettled] at found
      exact absurd found (by simp)
    simp only [AList.lookup_insert_ne different]
    exact assigned.entry tested member c1 c2 found

/-- Settling the second connection of a new asset keeps the assignment. -/
theorem Assigned.settle (assigned : Assigned old newAssets count assignment) {asset : String}
    {c1 idx : Nat} (placed : assignment.firstConn.lookup asset = some c1)
    (unsettled : assignment.assetToConns.lookup asset = none) (different : c1 ≠ idx)
    (inside : idx < count) :
    Assigned old newAssets count { assignment with
      pending := assignment.pending.push idx asset
      assetToConns := assignment.assetToConns.insert asset (c1, idx) } := by
  have isNew : asset ∈ newAssets := (assigned.first asset c1 placed).1
  have absent : asset ∉ assignment.pending idx := by
    intro present
    rcases ((assigned.pending_iff asset idx).mp present).2 with found | ⟨other, settled⟩
    · exact different (Option.some.inj (placed.symm.trans found))
    · rw [unsettled] at settled
      exact absurd settled (by simp)
  refine ⟨?_, Pending.nodup_push assigned.nodup absent, assigned.first, ?_, ?_⟩
  · intro tested other
    rw [Pending.mem_push, assigned.pending_iff]
    by_cases same : tested = asset
    · subst same
      simp [AList.lookup_insert, isNew, unsettled, eq_comm]
    · simp [AList.lookup_insert_ne same, same]
  · intro tested member first second found
    by_cases same : tested = asset
    · subst same
      simp only [AList.lookup_insert, Option.some.injEq, Prod.mk.injEq] at found
      obtain ⟨rfl, rfl⟩ := found
      exact ⟨placed, different, inside⟩
    · simp only [AList.lookup_insert_ne same] at found
      exact assigned.entry tested member first second found
  · intro tested notNew
    have other : tested ≠ asset := fun same => notNew (same ▸ isNew)
    simp only [AList.lookup_insert_ne other]
    exact assigned.untouched tested notNew

/-- More connections keep the assignment. -/
theorem Assigned.more (assigned : Assigned old newAssets count assignment) {larger : Nat}
    (grown : count ≤ larger) : Assigned old newAssets larger assignment where
  pending_iff := assigned.pending_iff
  nodup := assigned.nodup
  first := fun asset idx found =>
    ⟨(assigned.first asset idx found).1, (assigned.first asset idx found).2.trans_le grown⟩
  entry := fun asset member c1 c2 found =>
    ⟨(assigned.entry asset member c1 c2 found).1, (assigned.entry asset member c1 c2 found).2.1,
      (assigned.entry asset member c1 c2 found).2.2.trans_le grown⟩
  untouched := assigned.untouched

/-- A pending list is not longer than the list of new assets. -/
theorem Assigned.length_le (assigned : Assigned old newAssets count assignment) (idx : Nat) :
    (assignment.pending idx).length ≤ newAssets.length := by
  apply List.Subperm.length_le
  apply List.subperm_of_subset (assigned.nodup idx)
  intro asset present
  exact ((assigned.pending_iff asset idx).mp present).1

/-- One pending asset more is one item more in its bin. -/
theorem load_push (pool : Pool) (pending : Pending) (idx : Nat) (asset : String) :
    pool.load (pending.push idx asset) = FirstFit.put (pool.load pending) idx := by
  funext other
  unfold load FirstFit.put Pending.push
  by_cases same : other = idx
  · subst same
    simp only [Function.update_self, List.length_append, List.length_singleton]
    omega
  · simp only [Function.update_of_ne same]

/-- The assets a connection holds before the passes. -/
def held (pool : Pool) : Nat → Nat := pool.load fun _ => []

theorem load_eq (pool : Pool) (pending : Pending) (idx : Nat) :
    pool.load pending idx = pool.held idx + (pending idx).length := by
  simp [load, held]

/-- First-fit counting for the bin `bin` after a number of placements. -/
def Fills (pool : Pool) (pending : Pending) (bin placed : Nat) : Prop :=
  FirstFit.Filling pool.maxAssetsPerConn bin pool.held (pool.load pending) placed

theorem Fills.put {pool : Pool} {pending : Pending} {bin placed : Nat}
    (fills : pool.Fills pending bin placed) {exclude : Option Nat} {idx : Nat} (asset : String)
    (watched : pool.connections.length ≤ bin ∨
      (pool.held bin < pool.maxAssetsPerConn ∧ (some bin ≠ exclude ∨ pending bin ≠ [])))
    (found : pool.findConnWithCapacity pending exclude = some idx) :
    pool.Fills (pending.push idx asset) bin (placed + 1) := by
  unfold Fills
  rw [load_push]
  refine FirstFit.Filling.put fills ?_ found
  rcases watched with outside | ⟨roomy, allowed | used⟩
  · exact Or.inl outside
  · exact Or.inr ⟨roomy, Or.inl (by simpa using allowed)⟩
  · refine Or.inr ⟨roomy, Or.inr ?_⟩
    have := List.length_pos_of_ne_nil used
    rw [load_eq]
    omega

theorem Fills.skip {pool : Pool} {pending : Pending} {bin placed : Nat}
    (fills : pool.Fills pending bin placed) {exclude : Option Nat}
    (inside : bin < pool.connections.length) (roomy : pool.held bin < pool.maxAssetsPerConn)
    (watched : some bin ≠ exclude ∨ pending bin ≠ [])
    (refused : pool.findConnWithCapacity pending exclude = none) :
    pool.Fills pending bin (placed + 1) := by
  refine FirstFit.Filling.skip fills inside (Or.inr ⟨roomy, ?_⟩) refused
  rcases watched with allowed | used
  · exact Or.inl (by simpa using allowed)
  · refine Or.inr ?_
    have := List.length_pos_of_ne_nil used
    rw [load_eq]
    omega

/-- While a connection stays without pending assets, all placements went to
connections before it. -/
theorem Fills.below {pool : Pool} {pending : Pending} {bin placed : Nat}
    (fills : pool.Fills pending bin placed) (untouched : pending bin = []) :
    ∑ other ∈ range bin, (pending other).length = placed := by
  have counted := FirstFit.Filling.below fills (by rw [load_eq, untouched]; rfl)
  simp only [load_eq, sum_add_distrib] at counted
  omega

/-- No connection is filled beyond its room. -/
theorem Fills.length_le {pool : Pool} {pending : Pending} {bin placed : Nat}
    (fills : pool.Fills pending bin placed) (other : Nat) :
    (pending other).length ≤ pool.maxAssetsPerConn - pool.held other := by
  have bounded := FirstFit.Filling.bounded fills other
  rw [load_eq] at bounded
  omega

/-- A found connection exists and is not the excluded one. -/
theorem findConnWithCapacity_some {pool : Pool} {pending : Pending} {exclude : Option Nat}
    {idx : Nat} (found : pool.findConnWithCapacity pending exclude = some idx) :
    idx < pool.connections.length ∧ some idx ≠ exclude := by
  obtain ⟨inside, allowed, -, -⟩ := FirstFit.choose_some found
  exact ⟨inside, by simpa using allowed⟩

/-- The second pass at an asset for which another connection has room. -/
theorem placeSecond_found {pool : Pool} {asset : String} {c1 idx : Nat}
    (placed : assignment.firstConn.lookup asset = some c1)
    (chosen : pool.findConnWithCapacity assignment.pending (some c1) = some idx) :
    pool.placeSecond assignment asset = some { assignment with
      pending := assignment.pending.push idx asset
      assetToConns := assignment.assetToConns.insert asset (c1, idx) } := by
  rw [placeSecond, placed]
  simp only [Option.bind_eq_bind, Option.bind_some, chosen]

/-- The second pass at an asset for which no other connection has room. -/
theorem placeSecond_full {pool : Pool} {asset : String} {c1 : Nat}
    (placed : assignment.firstConn.lookup asset = some c1)
    (refused : pool.findConnWithCapacity assignment.pending (some c1) = none) :
    pool.placeSecond assignment asset =
      some { assignment with overflow := assignment.overflow ++ [asset] } := by
  rw [placeSecond, placed]
  simp only [Option.bind_eq_bind, Option.bind_some, refused]

/-- The third pass at an asset with a first connection. -/
theorem placeOverflow_placed {asset : String} {c1 : Nat} (overflowIdx : Nat)
    (placed : assignment.firstConn.lookup asset = some c1) :
    placeOverflow overflowIdx assignment asset = some { assignment with
      pending := assignment.pending.push overflowIdx asset
      assetToConns := assignment.assetToConns.insert asset (c1, overflowIdx) } := by
  rw [placeOverflow, placed]
  rfl

section Passes

variable (pool : Pool) (newAssets : List String)

/-- What holds while the first pass has some assets still to place. -/
structure FirstPass (remaining : List String) (assignment : Assignment) : Prop where
  assigned : Assigned pool.assetToConns newAssets pool.connections.length assignment
  unsettled : assignment.assetToConns = pool.assetToConns
  noOverflow : assignment.overflow = []
  toPlace : ∀ asset ∈ newAssets,
    (assignment.firstConn.lookup asset = none ↔ asset ∈ remaining)
  inside : remaining ⊆ newAssets
  nodup : remaining.Nodup
  fits : remaining.length ≤ newAssets.length
  fills : ∀ bin, pool.connections.length ≤ bin ∨ pool.held bin < pool.maxAssetsPerConn →
    pool.Fills assignment.pending bin (newAssets.length - remaining.length)

/-- What holds while the second pass has some assets still to settle. -/
structure SecondPass (remaining : List String) (assignment : Assignment) : Prop where
  assigned : Assigned pool.assetToConns newAssets pool.connections.length assignment
  placed : ∀ asset ∈ newAssets, ∃ idx, assignment.firstConn.lookup asset = some idx
  toSettle : ∀ asset ∈ newAssets, (assignment.assetToConns.lookup asset = none ↔
    asset ∈ remaining ∨ asset ∈ assignment.overflow)
  inside : remaining ⊆ newAssets
  overflowInside : assignment.overflow ⊆ newAssets
  nodup : (remaining ++ assignment.overflow).Nodup
  fits : remaining.length ≤ newAssets.length
  fills : ∀ bin < pool.connections.length, pool.held bin < pool.maxAssetsPerConn →
    pool.Fills assignment.pending bin (2 * newAssets.length - remaining.length)

/-- What holds while the third pass has some assets still to settle. -/
structure ThirdPass (settled : Assignment) (remaining : List String) (assignment : Assignment) :
    Prop where
  assigned : Assigned pool.assetToConns newAssets (pool.connections.length + 1) assignment
  placed : ∀ asset ∈ newAssets, ∃ idx, assignment.firstConn.lookup asset = some idx ∧
    idx < pool.connections.length
  toSettle : ∀ asset ∈ newAssets,
    (assignment.assetToConns.lookup asset = none ↔ asset ∈ remaining)
  inside : remaining ⊆ newAssets
  nodup : remaining.Nodup
  below : ∀ bin < pool.connections.length, assignment.pending bin = settled.pending bin
  reached : ∀ asset ∈ settled.overflow, asset ∈ remaining ∨
    asset ∈ assignment.pending pool.connections.length

end Passes

variable {pool : Pool}

/-- The first pass finds room for every asset. -/
theorem FirstPass.goes {asset : String} {rest : List String}
    (fresh : ∀ asset ∈ newAssets, pool.assetToConns.lookup asset = none)
    (roomy : newAssets.length ≤
      ∑ bin ∈ range pool.connections.length, (pool.maxAssetsPerConn - pool.held bin))
    (holds : FirstPass pool newAssets (asset :: rest) assignment) :
    ∃ next, pool.placeFirst assignment asset = some next ∧ FirstPass pool newAssets rest next := by
  have isNew : asset ∈ newAssets := holds.inside List.mem_cons_self
  have fits := holds.fits
  rw [List.length_cons] at fits
  have outside : assignment.pending pool.connections.length = [] := by
    apply List.eq_nil_iff_forall_not_mem.mpr
    intro tested present
    obtain ⟨member, placed | ⟨c1, settled⟩⟩ := (holds.assigned.pending_iff tested _).mp present
    · exact absurd (holds.assigned.first tested _ placed).2 (lt_irrefl _)
    · rw [holds.unsettled, fresh tested member] at settled
      exact absurd settled (by simp)
  have counting := holds.fills pool.connections.length (Or.inl le_rfl)
  obtain ⟨idx, found⟩ := FirstFit.Filling.chooses counting (by rw [load_eq, outside]; rfl) (by
    rw [List.length_cons]
    omega)
  have chosen : pool.findConnWithCapacity assignment.pending none = some idx := by
    simpa [findConnWithCapacity] using found
  refine ⟨_, by rw [placeFirst, chosen]; rfl, ?_⟩
  have inside := (findConnWithCapacity_some chosen).1
  have unplaced := (holds.toPlace asset isNew).mpr List.mem_cons_self
  have unsettled : assignment.assetToConns.lookup asset = none := by
    rw [holds.unsettled]
    exact fresh asset isNew
  refine ⟨holds.assigned.placeFirst isNew unplaced unsettled inside, holds.unsettled,
    holds.noOverflow, ?_, (List.cons_subset.mp holds.inside).2, (List.nodup_cons.mp holds.nodup).2,
    by omega, ?_⟩
  · intro tested member
    by_cases same : tested = asset
    · subst same
      simp only [AList.lookup_insert]
      exact ⟨fun found => absurd found (by simp),
        fun again => absurd again (List.nodup_cons.mp holds.nodup).1⟩
    · simp only [AList.lookup_insert_ne same]
      rw [holds.toPlace tested member, List.mem_cons]
      exact ⟨fun either => either.resolve_left same, Or.inr⟩
  · intro bin watched
    have counted := (holds.fills bin watched).put asset
      (watched.imp_right fun room => ⟨room, Or.inl (by simp)⟩) chosen
    have placed : newAssets.length - (asset :: rest).length + 1 = newAssets.length - rest.length := by
      rw [List.length_cons]
      omega
    exact placed ▸ counted

/-- The second pass settles an asset or leaves it to the overflow. -/
theorem SecondPass.goes {asset : String} {rest : List String}
    (holds : SecondPass pool newAssets (asset :: rest) assignment) :
    ∃ next, pool.placeSecond assignment asset = some next ∧
      SecondPass pool newAssets rest next := by
  have isNew : asset ∈ newAssets := holds.inside List.mem_cons_self
  have fits := holds.fits
  rw [List.length_cons] at fits
  obtain ⟨c1, placed⟩ := holds.placed asset isNew
  obtain ⟨notAgain, restNodup⟩ := List.nodup_cons.mp holds.nodup
  have unsettled : assignment.assetToConns.lookup asset = none :=
    (holds.toSettle asset isNew).mpr (Or.inl List.mem_cons_self)
  have watched : ∀ bin, some bin ≠ some c1 ∨ assignment.pending bin ≠ [] := by
    intro bin
    by_cases same : bin = c1
    · right
      apply List.ne_nil_of_mem
      exact (holds.assigned.pending_iff asset bin).mpr ⟨isNew, Or.inl (same ▸ placed)⟩
    · exact Or.inl (by simpa using same)
  have counts : 2 * newAssets.length - (asset :: rest).length + 1 =
      2 * newAssets.length - rest.length := by
    rw [List.length_cons]
    omega
  cases chosen : pool.findConnWithCapacity assignment.pending (some c1) with
  | some idx =>
    obtain ⟨inside, different⟩ := findConnWithCapacity_some chosen
    have apart : c1 ≠ idx := fun same => different (by rw [same])
    refine ⟨_, placeSecond_found placed chosen, ?_⟩
    refine ⟨holds.assigned.settle placed unsettled apart inside, holds.placed, ?_,
      (List.cons_subset.mp holds.inside).2, holds.overflowInside, restNodup, by omega, ?_⟩
    · intro tested member
      by_cases same : tested = asset
      · subst same
        simp only [AList.lookup_insert]
        exact ⟨fun found => absurd found (by simp),
          fun again => absurd (List.mem_append.mpr again) notAgain⟩
      · simp only [AList.lookup_insert_ne same]
        rw [holds.toSettle tested member, List.mem_cons]
        simp [same]
    · intro bin insideBin roomy
      have counted := (holds.fills bin insideBin roomy).put asset
        (Or.inr ⟨roomy, watched bin⟩) chosen
      exact counts ▸ counted
  | none =>
    refine ⟨_, placeSecond_full placed chosen, ?_⟩
    refine ⟨⟨holds.assigned.pending_iff, holds.assigned.nodup, holds.assigned.first,
      holds.assigned.entry, holds.assigned.untouched⟩, holds.placed, ?_,
      (List.cons_subset.mp holds.inside).2, ?_, ?_, by omega, ?_⟩
    · intro tested member
      rw [holds.toSettle tested member]
      simp only [List.mem_cons, List.mem_append, List.not_mem_nil, or_false]
      tauto
    · intro tested member
      rcases List.mem_append.mp member with old | new
      · exact holds.overflowInside old
      · exact List.mem_singleton.mp new ▸ isNew
    · have moved : (rest ++ (assignment.overflow ++ [asset])).Perm
          (asset :: rest ++ assignment.overflow) := by
        rw [← List.append_assoc]
        exact List.perm_append_singleton asset (rest ++ assignment.overflow)
      exact moved.nodup_iff.mpr holds.nodup
    · intro bin insideBin roomy
      exact counts ▸ (holds.fills bin insideBin roomy).skip insideBin roomy (watched bin) chosen

/-- The third pass settles every asset at the overflow connection. -/
theorem ThirdPass.goes {settled : Assignment} {asset : String} {rest : List String}
    (holds : ThirdPass pool newAssets settled (asset :: rest) assignment) :
    ∃ next, placeOverflow pool.connections.length assignment asset = some next ∧
      ThirdPass pool newAssets settled rest next := by
  have isNew : asset ∈ newAssets := holds.inside List.mem_cons_self
  obtain ⟨c1, placed, lower⟩ := holds.placed asset isNew
  obtain ⟨notAgain, restNodup⟩ := List.nodup_cons.mp holds.nodup
  have unsettled := (holds.toSettle asset isNew).mpr List.mem_cons_self
  refine ⟨_, placeOverflow_placed _ placed, ?_⟩
  refine ⟨holds.assigned.settle placed unsettled (by omega) (Nat.lt_succ_self _), holds.placed, ?_,
    (List.cons_subset.mp holds.inside).2, restNodup, ?_, ?_⟩
  · intro tested member
    by_cases same : tested = asset
    · subst same
      simp only [AList.lookup_insert]
      exact ⟨fun found => absurd found (by simp), fun again => absurd again notAgain⟩
    · simp only [AList.lookup_insert_ne same]
      rw [holds.toSettle tested member, List.mem_cons]
      exact ⟨fun either => either.resolve_left same, Or.inr⟩
  · intro bin inside
    simp only [Pending.push, Function.update_of_ne (ne_of_lt inside)]
    exact holds.below bin inside
  · intro tested member
    simp only [Pending.mem_push, true_and]
    rcases holds.reached tested member with waiting | done
    · rcases List.mem_cons.mp waiting with isAsset | later
      · exact Or.inr (Or.inr isAsset)
      · exact Or.inl later
    · exact Or.inr (Or.inl done)

/-- What the passes leave behind, in the pool after a possible third pass. -/
structure Settled (pool : Pool) (newAssets : List String) (final : Pool) (assignment : Assignment) :
    Prop where
  spawned : final = pool ∨
    (final = pool.spawnConnection ∧ assignment.pending pool.connections.length ≠ [])
  assigned : Assigned pool.assetToConns newAssets final.connections.length assignment
  complete : ∀ asset ∈ newAssets, asset ∈ assignment.assetToConns
  short : ∀ bin < pool.connections.length, pool.held bin < pool.maxAssetsPerConn →
    assignment.pending bin = [] →
      ∑ other ∈ range bin, (assignment.pending other).length = 2 * newAssets.length ∧
        ∀ other < bin,
          (assignment.pending other).length ≤ pool.maxAssetsPerConn - pool.held other

/-- Nothing is placed before the first pass. -/
theorem FirstPass.start {shuffled : List String} (shuffle : shuffled.Perm newAssets)
    (nodup : newAssets.Nodup)
    (fresh : ∀ asset ∈ newAssets, pool.assetToConns.lookup asset = none) :
    FirstPass pool newAssets shuffled ⟨fun _ => [], ∅, pool.assetToConns, []⟩ where
  assigned := {
    pending_iff := by
      intro asset idx
      refine ⟨fun present => absurd present List.not_mem_nil, ?_⟩
      rintro ⟨member, placed | ⟨c1, settled⟩⟩
      · exact absurd placed (by simp)
      · rw [fresh asset member] at settled
        exact absurd settled (by simp)
    nodup := fun _ => List.nodup_nil
    first := fun asset idx placed => absurd placed (by simp)
    entry := by
      intro asset member c1 c2 settled
      rw [fresh asset member] at settled
      exact absurd settled (by simp)
    untouched := fun _ _ => rfl }
  unsettled := rfl
  noOverflow := rfl
  toPlace := by
    intro asset member
    refine ⟨fun _ => shuffle.mem_iff.mpr member, fun _ => ?_⟩
    exact AList.lookup_empty asset
  inside := shuffle.subset
  nodup := shuffle.nodup_iff.mpr nodup
  fits := shuffle.length_eq.le
  fills := by
    intro bin _
    rw [shuffle.length_eq, Nat.sub_self]
    exact FirstFit.Filling.start pool.maxAssetsPerConn bin pool.held

/-- The end of the first pass is the start of the second. -/
theorem SecondPass.start {shuffled : List String} (shuffle : shuffled.Perm newAssets)
    (nodup : newAssets.Nodup)
    (fresh : ∀ asset ∈ newAssets, pool.assetToConns.lookup asset = none)
    (placed : FirstPass pool newAssets [] assignment) :
    SecondPass pool newAssets shuffled assignment where
  assigned := placed.assigned
  placed := by
    intro asset member
    apply Option.ne_none_iff_exists'.mp
    intro unplaced
    exact List.not_mem_nil ((placed.toPlace asset member).mp unplaced)
  toSettle := by
    intro asset member
    rw [placed.unsettled]
    exact ⟨fun _ => Or.inl (shuffle.mem_iff.mpr member), fun _ => fresh asset member⟩
  inside := shuffle.subset
  overflowInside := by
    rw [placed.noOverflow]
    exact List.nil_subset _
  nodup := by
    rw [placed.noOverflow, List.append_nil]
    exact shuffle.nodup_iff.mpr nodup
  fits := shuffle.length_eq.le
  fills := by
    intro bin inside roomy
    have counted := placed.fills bin (Or.inr roomy)
    have both : newAssets.length - ([] : List String).length =
        2 * newAssets.length - shuffled.length := by
      rw [shuffle.length_eq, List.length_nil]
      omega
    exact both ▸ counted

/-- The end of the second pass is the start of the third. -/
theorem ThirdPass.start (settled : SecondPass pool newAssets [] assignment) :
    ThirdPass pool newAssets assignment assignment.overflow assignment where
  assigned := settled.assigned.more (Nat.le_succ _)
  placed := by
    intro asset member
    obtain ⟨idx, found⟩ := settled.placed asset member
    exact ⟨idx, found, (settled.assigned.first asset idx found).2⟩
  toSettle := by
    intro asset member
    rw [settled.toSettle asset member]
    exact ⟨fun either => either.resolve_left List.not_mem_nil, Or.inr⟩
  inside := settled.overflowInside
  nodup := settled.nodup
  below := fun _ _ => rfl
  reached := fun _ waiting => Or.inl waiting

/-- While a connection stays without pending assets after the second pass, all
assets went to connections before it, within their room. -/
theorem SecondPass.short (settled : SecondPass pool newAssets [] assignment) {bin : Nat}
    (inside : bin < pool.connections.length) (roomy : pool.held bin < pool.maxAssetsPerConn)
    (untouched : assignment.pending bin = []) :
    ∑ other ∈ range bin, (assignment.pending other).length = 2 * newAssets.length ∧
      ∀ other < bin,
        (assignment.pending other).length ≤ pool.maxAssetsPerConn - pool.held other := by
  have counted := settled.fills bin inside roomy
  exact ⟨counted.below untouched, fun other _ => counted.length_le other⟩

section Passes

variable {first second : Shuffle} {placed settled final : Assignment}

/-- Two passes that leave no asset over are the whole assignment. -/
theorem assign_of_noOverflow
    (firstRun : Runs.run pool.placeFirst ⟨fun _ => [], ∅, pool.assetToConns, []⟩
      (first.outcome newAssets) = some placed)
    (secondRun : Runs.run pool.placeSecond placed (second.outcome (first.outcome newAssets)) =
      some settled)
    (noOverflow : settled.overflow = []) :
    pool.assign newAssets first second = some (pool, settled) := by
  rw [assign, firstRun]
  simp [secondRun, noOverflow]

/-- What two passes leave over goes to one more connection. -/
theorem assign_of_overflow
    (firstRun : Runs.run pool.placeFirst ⟨fun _ => [], ∅, pool.assetToConns, []⟩
      (first.outcome newAssets) = some placed)
    (secondRun : Runs.run pool.placeSecond placed (second.outcome (first.outcome newAssets)) =
      some settled)
    (someOverflow : settled.overflow ≠ [])
    (thirdRun : Runs.run (placeOverflow pool.connections.length) settled settled.overflow =
      some final) :
    pool.assign newAssets first second = some (pool.spawnConnection, final) := by
  have overflowIdx : pool.spawnConnection.connections.length - 1 = pool.connections.length := by
    simp [spawnConnection]
  rw [assign, firstRun]
  simp only [Option.bind_eq_bind, Option.bind_some, secondRun, overflowIdx, thirdRun]
  rw [if_neg (by simpa using someOverflow)]

end Passes

/-- The passes complete and leave every new asset on two different connections. -/
theorem assign_settles (first second : Shuffle) (nodup : newAssets.Nodup)
    (fresh : ∀ asset ∈ newAssets, pool.assetToConns.lookup asset = none)
    (roomy : newAssets.length ≤
      ∑ bin ∈ range pool.connections.length, (pool.maxAssetsPerConn - pool.held bin)) :
    ∃ final assignment, pool.assign newAssets first second = some (final, assignment) ∧
      Settled pool newAssets final assignment := by
  have shuffledOnce := first.permutes newAssets
  have shuffledTwice := (second.permutes (first.outcome newAssets)).trans shuffledOnce
  obtain ⟨placed, firstRun, afterFirst⟩ := Runs.completes
    (fun _ _ _ (holds : FirstPass pool newAssets _ _) => holds.goes fresh roomy)
    (FirstPass.start shuffledOnce nodup fresh)
  obtain ⟨settled, secondRun, afterSecond⟩ := Runs.completes
    (fun _ _ _ (holds : SecondPass pool newAssets _ _) => holds.goes)
    (SecondPass.start shuffledTwice nodup fresh afterFirst)
  by_cases noOverflow : settled.overflow = []
  · refine ⟨pool, settled, assign_of_noOverflow firstRun secondRun noOverflow, ?_⟩
    refine ⟨Or.inl rfl, afterSecond.assigned, ?_, fun bin => afterSecond.short⟩
    intro asset member
    rw [Maps.mem_iff_lookup]
    apply Option.ne_none_iff_exists'.mp
    intro unsettled
    rcases (afterSecond.toSettle asset member).mp unsettled with waiting | overflowing
    · exact List.not_mem_nil waiting
    · rw [noOverflow] at overflowing
      exact List.not_mem_nil overflowing
  · obtain ⟨final, thirdRun, afterThird⟩ := Runs.completes
      (fun _ _ _ (holds : ThirdPass pool newAssets settled _ _) => holds.goes)
      (ThirdPass.start afterSecond)
    refine ⟨pool.spawnConnection, final,
      assign_of_overflow firstRun secondRun noOverflow thirdRun, ?_⟩
    refine ⟨Or.inr ⟨rfl, ?_⟩, ?_, ?_, ?_⟩
    · obtain ⟨asset, member⟩ := List.exists_mem_of_ne_nil _ noOverflow
      exact List.ne_nil_of_mem ((afterThird.reached asset member).resolve_left List.not_mem_nil)
    · simpa [spawnConnection] using afterThird.assigned
    · intro asset member
      rw [Maps.mem_iff_lookup]
      apply Option.ne_none_iff_exists'.mp
      intro unsettled
      exact List.not_mem_nil ((afterThird.toSettle asset member).mp unsettled)
    · intro bin inside room untouched
      rw [afterThird.below bin inside] at untouched
      obtain ⟨total, bounded⟩ := afterSecond.short inside room untouched
      constructor
      · rw [← total]
        apply sum_congr rfl
        intro other member
        rw [afterThird.below other ((mem_range.mp member).trans inside)]
      · intro other lower
        rw [afterThird.below other (lower.trans inside)]
        exact bounded other lower

end Collector.Pool
