import Collector.Routing

/-!
# No connection is filled beyond its maximum

This needs nothing of the callers: hashes may repeat within a batch, assets may
belong to several markets. The first pass finds room for every asset, since the
connections were spawned for twice as many. The second pass leaves an asset out
only when every other connection is full, so all the room that is left is in the
one it excludes, and what is still to settle fits there. The overflow connection
therefore gets no more assets than one connection may hold.
-/

namespace Collector.Pool

open Finset

/-- No connection holds more than the maximum. -/
structure Capped (limit : Nat) (pool : Pool) : Prop where
  maximum : pool.maxAssetsPerConn = limit
  within : ∀ handle ∈ pool.connections, handle.assets.card ≤ limit

theorem capped_new (limit : Nat) : Capped limit (new limit) :=
  ⟨rfl, fun _ member => absurd member List.not_mem_nil⟩

/-- A number of assets is pending, all at connections that exist. -/
structure Packed (pool : Pool) (pending : Pending) (placed : Nat) : Prop where
  fills : pool.Fills pending pool.connections.length placed
  inside : ∀ idx, pool.connections.length ≤ idx → pending idx = []

variable {pool : Pool} {newAssets : List String} {assignment : Assignment}

theorem Pending.push_of_ne (pending : Pending) {idx other : Nat} (asset : String)
    (different : other ≠ idx) : pending.push idx asset other = pending other :=
  Function.update_of_ne different _ _

theorem Packed.put {pending : Pending} {placed idx : Nat} {exclude : Option Nat}
    (packed : Packed pool pending placed) (asset : String)
    (found : pool.findConnWithCapacity pending exclude = some idx) :
    Packed pool (pending.push idx asset) (placed + 1) := by
  refine ⟨packed.fills.put asset (Or.inl le_rfl) found, ?_⟩
  intro other beyond
  have inside := (findConnWithCapacity_some found).1
  rw [Pending.push_of_ne pending asset (by omega)]
  exact packed.inside other beyond

/-- The loads beyond the connections are untouched. -/
theorem Packed.outside {pending : Pending} {placed : Nat} (packed : Packed pool pending placed) :
    pool.load pending pool.connections.length = pool.held pool.connections.length := by
  rw [load_eq, packed.inside _ le_rfl]
  rfl

/-- With room for one more asset than is placed the first pass finds it. -/
theorem Packed.chooses {pending : Pending} {placed : Nat} (packed : Packed pool pending placed)
    (roomy : placed < pool.roomBelow pool.connections.length) :
    ∃ idx, pool.findConnWithCapacity pending none = some idx := by
  obtain ⟨idx, found⟩ := FirstFit.Filling.chooses packed.fills packed.outside roomy
  exact ⟨idx, by simpa [findConnWithCapacity] using found⟩

/-- When an asset is left out, the assets still to settle fit in one connection. -/
theorem Packed.refused {pending : Pending} {placed excluded remaining : Nat}
    (packed : Packed pool pending placed)
    (full : pool.findConnWithCapacity pending (some excluded) = none)
    (enough : placed + remaining ≤ pool.roomBelow pool.connections.length) :
    remaining ≤ pool.maxAssetsPerConn := by
  have others : ∀ bin < pool.connections.length, bin ≠ excluded →
      pool.maxAssetsPerConn ≤ pool.load pending bin := by
    intro bin inside different
    exact FirstFit.choose_none full bin inside (by simpa using different)
  have left := packed.fills.last_room packed.outside others
  unfold roomBelow at enough
  omega

section Passes

variable (pool : Pool) (newAssets : List String)

/-- While the first pass has some assets still to place, room is left for each. -/
structure Placing (remaining : List String) (assignment : Assignment) : Prop where
  packed : ∃ placed, Packed pool assignment.pending placed ∧
    placed + remaining.length = newAssets.length
  noOverflow : assignment.overflow = []
  placed : ∀ asset ∈ newAssets, asset ∈ remaining ∨
    ∃ idx, assignment.firstConn.lookup asset = some idx

/-- While the second pass has some assets still to settle, nothing is left out, or
what is left out and what is still to settle fit in one connection. -/
structure Settling (remaining : List String) (assignment : Assignment) : Prop where
  packed : ∃ placed, Packed pool assignment.pending placed ∧
    ((assignment.overflow = [] ∧ placed + remaining.length = 2 * newAssets.length) ∨
      assignment.overflow.length + remaining.length ≤ pool.maxAssetsPerConn)
  placed : ∀ asset ∈ newAssets, ∃ idx, assignment.firstConn.lookup asset = some idx
  inside : remaining ⊆ newAssets
  overflowInside : assignment.overflow ⊆ newAssets

/-- The third pass fills the overflow connection and no other. -/
structure Overflowing (settled : Assignment) (remaining : List String)
    (assignment : Assignment) : Prop where
  placed : ∀ asset ∈ newAssets, ∃ idx, assignment.firstConn.lookup asset = some idx
  inside : remaining ⊆ newAssets
  below : ∀ idx < pool.connections.length, assignment.pending idx = settled.pending idx
  last : (assignment.pending pool.connections.length).length + remaining.length ≤
    pool.maxAssetsPerConn

end Passes

theorem Placing.goes {asset : String} {rest : List String}
    (roomy : newAssets.length ≤ pool.roomBelow pool.connections.length)
    (holds : Placing pool newAssets (asset :: rest) assignment) :
    ∃ next, pool.placeFirst assignment asset = some next ∧ Placing pool newAssets rest next := by
  obtain ⟨placed, packed, counted⟩ := holds.packed
  rw [List.length_cons] at counted
  obtain ⟨idx, chosen⟩ := packed.chooses (by omega)
  refine ⟨_, by rw [placeFirst, chosen]; rfl, ?_⟩
  refine ⟨⟨placed + 1, packed.put asset chosen, by omega⟩, holds.noOverflow, ?_⟩
  intro tested member
  by_cases same : tested = asset
  · subst same
    exact Or.inr ⟨idx, AList.lookup_insert _⟩
  · simp only [AList.lookup_insert_ne same]
    rcases holds.placed tested member with waiting | found
    · exact Or.inl ((List.mem_cons.mp waiting).resolve_left same)
    · exact Or.inr found

theorem Settling.goes {asset : String} {rest : List String}
    (roomy : 2 * newAssets.length ≤ pool.roomBelow pool.connections.length)
    (holds : Settling pool newAssets (asset :: rest) assignment) :
    ∃ next, pool.placeSecond assignment asset = some next ∧
      Settling pool newAssets rest next := by
  have isNew : asset ∈ newAssets := holds.inside List.mem_cons_self
  have restInside := (List.cons_subset.mp holds.inside).2
  obtain ⟨c1, first⟩ := holds.placed asset isNew
  obtain ⟨placed, packed, balance⟩ := holds.packed
  rw [List.length_cons] at balance
  cases chosen : pool.findConnWithCapacity assignment.pending (some c1) with
  | some idx =>
    refine ⟨_, placeSecond_found first chosen, ⟨placed + 1, packed.put asset chosen, ?_⟩,
      holds.placed, restInside, holds.overflowInside⟩
    rcases balance with ⟨noOverflow, counted⟩ | fits
    · exact Or.inl ⟨noOverflow, by omega⟩
    · exact Or.inr (by simp only; omega)
  | none =>
    refine ⟨_, placeSecond_full first chosen, ⟨placed, packed, Or.inr ?_⟩, holds.placed,
      restInside, ?_⟩
    · simp only [List.length_append, List.length_singleton]
      rcases balance with ⟨noOverflow, counted⟩ | fits
      · -- the first asset left out: everything still to settle fits where there is room
        have fits : rest.length + 1 ≤ pool.maxAssetsPerConn := packed.refused chosen (by omega)
        rw [noOverflow, List.length_nil]
        omega
      · omega
    · intro tested member
      rcases List.mem_append.mp member with old | new
      · exact holds.overflowInside old
      · exact List.mem_singleton.mp new ▸ isNew

theorem Overflowing.goes {settled : Assignment} {asset : String} {rest : List String}
    (holds : Overflowing pool newAssets settled (asset :: rest) assignment) :
    ∃ next, placeOverflow pool.connections.length assignment asset = some next ∧
      Overflowing pool newAssets settled rest next := by
  obtain ⟨c1, first⟩ := holds.placed asset (holds.inside List.mem_cons_self)
  have last := holds.last
  rw [List.length_cons] at last
  refine ⟨_, placeOverflow_placed _ first, holds.placed, (List.cons_subset.mp holds.inside).2,
    ?_, ?_⟩
  · intro idx inside
    rw [← holds.below idx inside]
    exact Pending.push_of_ne _ asset (by omega)
  · simp only [Pending.push, Function.update_self, List.length_append, List.length_singleton]
    omega

/-- What the passes leave pending fits in every connection. -/
def Fitting (pool final : Pool) (assignment : Assignment) : Prop :=
  (final = pool ∨ final = pool.spawnConnection ∧
      (assignment.pending pool.connections.length).length ≤ pool.maxAssetsPerConn) ∧
    ∀ idx < pool.connections.length,
      (assignment.pending idx).length ≤ pool.maxAssetsPerConn - pool.held idx

/-- The passes complete, whatever the assets and the shuffles are. -/
theorem assign_fits (newAssets : List String) (first second : Shuffle)
    (roomy : 2 * newAssets.length ≤ pool.roomBelow pool.connections.length) :
    ∃ final assignment, pool.assign newAssets first second = some (final, assignment) ∧
      Fitting pool final assignment := by
  have shuffledOnce := first.permutes newAssets
  have shuffledTwice := (second.permutes (first.outcome newAssets)).trans shuffledOnce
  have initially : Placing pool newAssets (first.outcome newAssets)
      ⟨fun _ => [], ∅, pool.assetToConns, []⟩ := by
    refine ⟨⟨0, ⟨FirstFit.Filling.start _ _ pool.held, fun _ _ => rfl⟩, ?_⟩, rfl, ?_⟩
    · rw [shuffledOnce.length_eq, Nat.zero_add]
    · exact fun asset member => Or.inl (shuffledOnce.mem_iff.mpr member)
  obtain ⟨placed, firstRun, afterFirst⟩ := Runs.completes
    (fun _ _ _ (holds : Placing pool newAssets _ _) => holds.goes (by omega)) initially
  have middle : Settling pool newAssets (second.outcome (first.outcome newAssets)) placed := by
    obtain ⟨count, packed, counted⟩ := afterFirst.packed
    refine ⟨⟨count, packed, Or.inl ⟨afterFirst.noOverflow, ?_⟩⟩, ?_, shuffledTwice.subset, ?_⟩
    · rw [shuffledTwice.length_eq]
      rw [List.length_nil] at counted
      omega
    · exact fun asset member => (afterFirst.placed asset member).resolve_left List.not_mem_nil
    · rw [afterFirst.noOverflow]
      exact List.nil_subset _
  obtain ⟨settled, secondRun, afterSecond⟩ := Runs.completes
    (fun _ _ _ (holds : Settling pool newAssets _ _) => holds.goes roomy) middle
  obtain ⟨count, packed, balance⟩ := afterSecond.packed
  by_cases noOverflow : settled.overflow = []
  · refine ⟨pool, settled, assign_of_noOverflow firstRun secondRun noOverflow, Or.inl rfl, ?_⟩
    exact fun idx _ => packed.fills.length_le idx
  · have last : Overflowing pool newAssets settled settled.overflow settled := by
      refine ⟨afterSecond.placed, afterSecond.overflowInside, fun _ _ => rfl, ?_⟩
      rw [packed.inside _ le_rfl, List.length_nil]
      rcases balance with ⟨none, _⟩ | fits
      · exact absurd none noOverflow
      · rw [List.length_nil] at fits
        omega
    obtain ⟨final, thirdRun, afterThird⟩ := Runs.completes
      (fun _ _ _ (holds : Overflowing pool newAssets settled _ _) => holds.goes) last
    refine ⟨pool.spawnConnection, final,
      assign_of_overflow firstRun secondRun noOverflow thirdRun, Or.inr ⟨rfl, ?_⟩, ?_⟩
    · have fits := afterThird.last
      rw [List.length_nil] at fits
      omega
    · intro idx inside
      rw [afterThird.below idx inside]
      exact packed.fills.length_le idx

/-- A connection is dispatched what it holds and what is pending for it. -/
theorem card_dispatchSubscribe {connections : List ConnHandle} {pending : Pending} {idx : Nat}
    {handle : ConnHandle} (present : (dispatchSubscribe connections pending)[idx]? = some handle) :
    ∃ before, connections[idx]? = some before ∧
      handle.assets.card ≤ before.assets.card + (pending idx).length := by
  obtain ⟨before, found, _, assets⟩ := getElem?_dispatchSubscribe present
  refine ⟨before, found, ?_⟩
  rw [assets]
  exact (Finset.card_union_le _ _).trans
    (Nat.add_le_add_left (List.toFinset_card_le _) before.assets.card)

/-- Dispatching what fits leaves every connection within the maximum. -/
theorem Fitting.capped {limit : Nat} {final : Pool} (fitting : Fitting pool final assignment)
    (capped : Capped limit pool) : Capped limit (final.dispatched assignment) := by
  obtain ⟨spawned, fits⟩ := fitting
  constructor
  · rcases spawned with rfl | ⟨rfl, _⟩ <;> exact capped.maximum
  intro handle member
  obtain ⟨idx, present⟩ := List.mem_iff_getElem?.mp member
  obtain ⟨before, found, bounded⟩ := card_dispatchSubscribe present
  have old (here : pool.connections[idx]? = some before) : handle.assets.card ≤ limit := by
    have inside : idx < pool.connections.length := (List.getElem?_eq_some_iff.mp here).1
    have before_within := capped.within before (List.mem_of_getElem? here)
    have fitsHere := fits idx inside
    have holds : pool.held idx = before.assets.card := by simp [held, load, here]
    rw [capped.maximum, holds] at fitsHere
    omega
  rcases spawned with rfl | ⟨rfl, overflow⟩
  · exact old found
  · rcases Nat.lt_or_ge idx pool.connections.length with inside | beyond
    · exact old (by rwa [spawnConnection, List.getElem?_append_left inside] at found)
    · rw [spawnConnection, List.getElem?_append_right beyond] at found
      rw [List.getElem?_singleton, Option.ite_none_right_eq_some] at found
      obtain ⟨first, same⟩ := found
      obtain rfl := Option.some.inj same
      obtain rfl : idx = pool.connections.length := by omega
      rw [capped.maximum] at overflow
      rw [Finset.card_empty, Nat.zero_add] at bounded
      exact bounded.trans overflow

/-- A subscription completes and leaves every connection within the maximum,
whatever is in the batch. -/
theorem Capped.subscribe {limit : Nat} (positive : 1 ≤ limit) (capped : Capped limit pool)
    (markets : List Market) (first second : Shuffle) :
    ∃ next, pool.subscribeMarkets markets first second = some next ∧ Capped limit next := by
  by_cases nothing : ((pool.unregistered markets).flatMap Market.assets).isEmpty
  · refine ⟨pool, ?_, capped⟩
    simp only [subscribeMarkets, nothing, if_true]
  obtain ⟨count, counted, added, growth⟩ := exists_grown pool
    (by rw [capped.maximum]; exact positive) (pool.unregistered markets)
  have cappedGrown : Capped limit
      (spawnConnections count (pool.register (pool.unregistered markets))) := by
    refine ⟨growth.capacity.trans capped.maximum, ?_⟩
    rw [growth.connections]
    intro handle member
    rcases List.mem_append.mp member with old | new
    · exact capped.within handle old
    · rw [growth.empty handle new, Finset.card_empty]
      exact Nat.zero_le limit
  obtain ⟨final, assignment, assigned, fitting⟩ := assign_fits
    ((pool.unregistered markets).flatMap Market.assets) first second growth.enough
  refine ⟨final.dispatched assignment, ?_, fitting.capped cappedGrown⟩
  simp only [subscribeMarkets, nothing, Option.bind_eq_bind, counted, Option.bind_some, assigned]
  rfl

/-- A connection only loses assets when others are unsubscribed, and connections
are only removed. -/
theorem Capped.unsubscribe {limit : Nat} (capped : Capped limit pool) (hashes : List String) :
    Capped limit (pool.unsubscribeMarkets hashes) := by
  have shrunk (connUnsubs : Pending) : ∀ handle ∈ dispatchUnsubscribe pool.connections connUnsubs,
      handle.assets.card ≤ limit := by
    intro handle member
    obtain ⟨idx, present⟩ := List.mem_iff_getElem?.mp member
    obtain ⟨before, found, _, assets⟩ := getElem?_dispatchUnsubscribe present
    rw [assets]
    exact (Finset.card_le_card Finset.sdiff_subset).trans
      (capped.within before (List.mem_of_getElem? found))
  have collected (remaining : List Nat) (state : List ConnHandle × AssetConns)
      (within : ∀ handle ∈ state.1, handle.assets.card ≤ limit) :
      ∀ handle ∈ (remaining.foldl removeConnection state).1, handle.assets.card ≤ limit := by
    induction remaining generalizing state with
    | nil => exact within
    | cons idx rest inductionHypothesis =>
      apply inductionHypothesis
      exact fun handle member => within handle (SwapRemove.mem_of_mem_swapRemove member)
  unfold unsubscribeMarkets
  simp only
  split <;> exact ⟨capped.maximum, collected _ _ (shrunk _)⟩

theorem Capped.step {limit : Nat} (positive : 1 ≤ limit) (pool : Pool) (call : Action)
    (capped : Capped limit pool) : ∃ next, Pool.step pool call = some next ∧ Capped limit next := by
  cases call with
  | subscribe markets first second => exact capped.subscribe positive markets first second
  | unsubscribe hashes => exact ⟨_, rfl, capped.unsubscribe hashes⟩

/-- Every sequence of calls leads to a pool in which a subscription to any batch,
with any outcome of its shuffles, completes and leaves no connection with more
assets than the maximum. -/
theorem subscriptions_stay_within_capacity (maxAssetsPerConn : Nat)
    (positive : 1 ≤ maxAssetsPerConn) (calls : List Action) :
    ∃ pool, Runs.run Pool.step (new maxAssetsPerConn) calls = some pool ∧
      ∀ (markets : List Market) (first second : Shuffle),
        ∃ next, pool.subscribeMarkets markets first second = some next ∧
          ∀ handle ∈ next.connections, handle.assets.card ≤ maxAssetsPerConn := by
  have completes : ∃ pool, Runs.run Pool.step (new maxAssetsPerConn) calls = some pool ∧
      Capped maxAssetsPerConn pool :=
    Runs.completes_of_forall
      (fun state call (_ : True) holds => Capped.step positive state call holds)
      (fun _ _ => trivial) (capped_new maxAssetsPerConn)
  obtain ⟨pool, reached, capped⟩ := completes
  refine ⟨pool, reached, ?_⟩
  intro markets first second
  obtain ⟨next, completed, cappedNext⟩ := capped.subscribe positive markets first second
  exact ⟨next, completed, cappedNext.within⟩

theorem repeated_market_stays_within_capacity :
    ∃ pool, Runs.run Pool.step (new 2)
        [.subscribe [firstMarket, firstMarket] .unchanged .unchanged] = some pool ∧
      ∀ (markets : List Market) (first second : Shuffle),
        ∃ next, pool.subscribeMarkets markets first second = some next ∧
          ∀ handle ∈ next.connections, handle.assets.card ≤ 2 :=
  subscriptions_stay_within_capacity 2 (by decide) _

end Collector.Pool
