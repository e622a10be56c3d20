import Collector.Assignment

/-!
# The routing invariant of the pool

In every reachable pool each registered asset stands on exactly two different
connections, the ones its reverse index entry names; no connection is empty; and
the monitor has the current mapping. A subscription keeps this through the
passes. An unsubscription keeps it through the removal of assets and then
through the garbage collection, one swap at a time.

The owner of an asset is the market it belongs to.
-/

namespace Collector.Pool

open Finset

/-- Both assets belong to the market and differ. -/
structure Owned (owner : String → String) (market : Market) : Prop where
  yes : owner market.yes = market.hash
  no : owner market.no = market.hash
  differ : market.yes ≠ market.no

theorem Owned.asset {owner : String → String} {market : Market} (owned : Owned owner market)
    {asset : String} (member : asset ∈ market.assets) : owner asset = market.hash := by
  simp only [Market.assets, List.mem_cons, List.not_mem_nil, or_false] at member
  rcases member with rfl | rfl
  · exact owned.yes
  · exact owned.no

/-- The reverse index names two different connections for each asset, and each
connection carries exactly the assets whose entry names it. -/
structure Wired (connections : List ConnHandle) (assetToConns : AssetConns) : Prop where
  valid : ∀ asset c1 c2, assetToConns.lookup asset = some (c1, c2) →
    c1 ≠ c2 ∧ c1 < connections.length ∧ c2 < connections.length
  carries : ∀ idx handle, connections[idx]? = some handle → ∀ asset, asset ∈ handle.assets ↔
    ∃ c1 c2, assetToConns.lookup asset = some (c1, c2) ∧ (idx = c1 ∨ idx = c2)

/-- The invariant of the pool between calls. -/
structure Routed (owner : String → String) (pool : Pool) : Prop where
  capacity : 1 ≤ pool.maxAssetsPerConn
  registered : ∀ hash market, pool.markets.lookup hash = some market →
    market.hash = hash ∧ Owned owner market
  tracked : ∀ asset, asset ∈ pool.assetToConns ↔
    ∃ hash market, pool.markets.lookup hash = some market ∧ asset ∈ market.assets
  wired : Wired pool.connections pool.assetToConns
  nonempty : ∀ handle ∈ pool.connections, handle.assets.Nonempty
  published : pool.assetConnsTx = pool.assetToConns

theorem routed_new (owner : String → String) {maxAssetsPerConn : Nat}
    (positive : 1 ≤ maxAssetsPerConn) : Routed owner (new maxAssetsPerConn) where
  capacity := positive
  registered := fun hash market found => absurd found (by simp [new])
  tracked := by simp [new]
  wired := ⟨fun asset c1 c2 found => absurd found (by simp [new]), by simp [new]⟩
  nonempty := by simp [new]
  published := rfl

section Subscribing

/-- Connections spawned at the end. -/
theorem spawnConnections_spec (count : Nat) (pool : Pool) :
    ∃ fresh : List ConnHandle, fresh.length = count ∧ (∀ handle ∈ fresh, handle.assets = ∅) ∧
      (∀ idx handle, fresh[idx]? = some handle → handle.connId = pool.nextConnId + idx) ∧
      spawnConnections count pool = { pool with
        connections := pool.connections ++ fresh
        nextConnId := pool.nextConnId + count } := by
  induction count generalizing pool with
  | zero => exact ⟨[], rfl, by simp, by simp, by simp [spawnConnections]⟩
  | succ count inductionHypothesis =>
    obtain ⟨fresh, length, empty, numbered, spawned⟩ := inductionHypothesis pool.spawnConnection
    refine ⟨⟨pool.nextConnId, ∅, []⟩ :: fresh, by simp [length], ?_, ?_, ?_⟩
    · intro handle member
      rcases List.mem_cons.mp member with rfl | later
      · rfl
      · exact empty handle later
    · intro idx handle present
      cases idx with
      | zero =>
        obtain rfl := Option.some.inj present
        rfl
      | succ idx =>
        rw [List.getElem?_cons_succ] at present
        rw [numbered idx handle present]
        simp only [spawnConnection]
        omega
    · rw [spawnConnections, spawned]
      simp [spawnConnection, Nat.add_assoc, Nat.add_comm 1 count]

/-- Connections without assets at the end change nothing about the wiring. -/
theorem Wired.append {connections fresh : List ConnHandle} {assetToConns : AssetConns}
    (wired : Wired connections assetToConns) (empty : ∀ handle ∈ fresh, handle.assets = ∅) :
    Wired (connections ++ fresh) assetToConns where
  valid := by
    intro asset c1 c2 found
    obtain ⟨different, first, second⟩ := wired.valid asset c1 c2 found
    rw [List.length_append]
    omega
  carries := by
    intro idx handle present asset
    by_cases inside : idx < connections.length
    · rw [List.getElem?_append_left inside] at present
      exact wired.carries idx handle present asset
    · rw [List.getElem?_append_right (by omega)] at present
      have isEmpty := empty handle (List.mem_of_getElem? present)
      rw [isEmpty]
      refine ⟨fun member => absurd member (Finset.notMem_empty asset), ?_⟩
      rintro ⟨c1, c2, found, either⟩
      obtain ⟨-, first, second⟩ := wired.valid asset c1 c2 found
      omega

/-- A dispatched connection keeps its id and holds what it held and its pending
assets. -/
theorem getElem?_dispatchSubscribe {connections : List ConnHandle} {pending : Pending} {idx : Nat}
    {handle : ConnHandle} (present : (dispatchSubscribe connections pending)[idx]? = some handle) :
    ∃ before, connections[idx]? = some before ∧ handle.connId = before.connId ∧
      handle.assets = before.assets ∪ (pending idx).toFinset := by
  rw [dispatchSubscribe, List.getElem?_mapIdx, Option.map_eq_some_iff] at present
  obtain ⟨before, found, rfl⟩ := present
  refine ⟨before, found, ?_⟩
  split
  · rename_i isEmpty
    rw [List.isEmpty_iff.mp isEmpty]
    simp
  · exact ⟨rfl, rfl⟩

@[simp]
theorem length_dispatchSubscribe (connections : List ConnHandle) (pending : Pending) :
    (dispatchSubscribe connections pending).length = connections.length := by
  simp [dispatchSubscribe]

/-- Dispatching a complete assignment wires the new assets. -/
theorem Wired.subscribe {connections : List ConnHandle} {old : AssetConns}
    {newAssets : List String} {assignment : Assignment} (wired : Wired connections old)
    (fresh : ∀ asset ∈ newAssets, old.lookup asset = none)
    (assigned : Placed old newAssets connections.length assignment)
    (complete : ∀ asset ∈ newAssets, asset ∈ assignment.assetToConns) :
    Wired (dispatchSubscribe connections assignment.pending) assignment.assetToConns where
  valid := by
    intro asset c1 c2 found
    rw [length_dispatchSubscribe]
    by_cases isNew : asset ∈ newAssets
    · obtain ⟨placed, different, second⟩ := assigned.entry asset isNew c1 c2 found
      exact ⟨different, (assigned.first asset c1 placed).2, second⟩
    · rw [assigned.untouched asset isNew] at found
      exact wired.valid asset c1 c2 found
  carries := by
    intro idx handle present asset
    obtain ⟨before, found, -, assets⟩ := getElem?_dispatchSubscribe present
    rw [assets, Finset.mem_union, List.mem_toFinset, wired.carries idx before found,
      assigned.pending_iff]
    by_cases isNew : asset ∈ newAssets
    · obtain ⟨⟨c1, c2⟩, settled⟩ := (Maps.mem_iff_lookup _ asset).mp (complete asset isNew)
      obtain ⟨placed, -, -⟩ := assigned.entry asset isNew c1 c2 settled
      simp only [fresh asset isNew, isNew, placed, settled, Option.some.injEq, Prod.mk.injEq]
      constructor
      · rintro (⟨_, _, impossible, -⟩ | ⟨-, isFirst | ⟨_, -, isSecond⟩⟩)
        · exact absurd impossible (by simp)
        · exact ⟨c1, c2, ⟨rfl, rfl⟩, Or.inl isFirst.symm⟩
        · exact ⟨c1, c2, ⟨rfl, rfl⟩, Or.inr isSecond.symm⟩
      · rintro ⟨_, _, ⟨rfl, rfl⟩, isFirst | isSecond⟩
        · exact Or.inr ⟨trivial, Or.inl isFirst.symm⟩
        · exact Or.inr ⟨trivial, Or.inr ⟨c1, rfl, isSecond.symm⟩⟩
    · rw [assigned.untouched asset isNew]
      simp [isNew]

/-- The room below a position, summed over the connections there. -/
def roomBelow (pool : Pool) (bound : Nat) : Nat :=
  ∑ bin ∈ range bound, (pool.maxAssetsPerConn - pool.held bin)

/-- The free slots of the existing connections are the room below their number. -/
theorem roomBelow_length (pool : Pool) : pool.roomBelow pool.connections.length =
    pool.existingFree := by
  have summed : ∀ connections : List ConnHandle,
      ∑ bin ∈ range connections.length, (pool.maxAssetsPerConn -
          ((connections[bin]?.map fun handle => handle.assets.card).getD 0)) =
        (connections.map fun handle => pool.maxAssetsPerConn - handle.assets.card).sum := by
    intro connections
    induction connections with
    | nil => rfl
    | cons handle rest inductionHypothesis =>
      rw [List.length_cons, sum_range_succ', List.map_cons, List.sum_cons, add_comm]
      simpa using inductionHypothesis
  simpa [roomBelow, held, load, existingFree] using summed pool.connections

/-- Spawned connections add their whole capacity to the room. -/
theorem roomBelow_spawned (pool : Pool) {fresh : List ConnHandle} (nextConnId : Nat)
    (empty : ∀ handle ∈ fresh, handle.assets = ∅) {extra : Nat} (bounded : extra ≤ fresh.length) :
    roomBelow { pool with
        connections := pool.connections ++ fresh
        nextConnId := nextConnId } (pool.connections.length + extra) =
      pool.existingFree + extra * pool.maxAssetsPerConn := by
  induction extra with
  | zero =>
    rw [← roomBelow_length, Nat.zero_mul, Nat.add_zero, Nat.add_zero]
    apply sum_congr rfl
    intro bin member
    simp only [held, load, List.getElem?_append_left (mem_range.mp member)]
  | succ extra inductionHypothesis =>
    have previous := inductionHypothesis (by omega)
    unfold roomBelow at previous ⊢
    rw [← Nat.add_assoc, sum_range_succ, previous]
    have isEmpty := empty fresh[extra] (List.getElem_mem (by omega))
    have atEnd : (pool.connections ++ fresh)[pool.connections.length + extra]? =
        some fresh[extra] := by
      rw [List.getElem?_append_right (by omega), Nat.add_sub_cancel_left]
      exact List.getElem?_eq_getElem (by omega)
    simp only [held, load, atEnd, Option.map_some, isEmpty, Finset.card_empty, Option.getD_some,
      List.length_nil, Nat.add_zero, Nat.sub_zero, Nat.add_mul, Nat.one_mul]
    omega

/-- The number of connections to spawn: enough room for two slots each, at least
two connections, and none to spare beyond the second. -/
theorem newConnCount_spec (pool : Pool) (positive : 1 ≤ pool.maxAssetsPerConn) (newAssets : Nat) :
    ∃ count, pool.newConnCount newAssets = some count ∧
      2 ≤ pool.connections.length + count ∧
      newAssets * 2 ≤ pool.existingFree + count * pool.maxAssetsPerConn ∧
      (3 ≤ pool.connections.length + count → 1 ≤ count →
        pool.existingFree + (count - 1) * pool.maxAssetsPerConn < newAssets * 2) := by
  generalize free : pool.existingFree = existingFree
  generalize size : pool.connections.length = length
  by_cases short : existingFree < newAssets * 2
  · -- the quotient rounded up
    generalize quotient : (newAssets * 2 - existingFree + pool.maxAssetsPerConn - 1) /
      pool.maxAssetsPerConn = newConns
    have division := Nat.div_add_mod (newAssets * 2 - existingFree + pool.maxAssetsPerConn - 1)
      pool.maxAssetsPerConn
    have remainder := Nat.mod_lt (newAssets * 2 - existingFree + pool.maxAssetsPerConn - 1) positive
    rw [quotient, Nat.mul_comm] at division
    have someConns : 1 ≤ newConns := by
      by_contra zero
      have isZero : newConns = 0 := by omega
      rw [isZero, Nat.zero_mul] at division
      omega
    have oneLess : (newConns - 1) * pool.maxAssetsPerConn =
        newConns * pool.maxAssetsPerConn - pool.maxAssetsPerConn := by
      rw [Nat.sub_mul, Nat.one_mul]
    by_cases few : length + newConns < 2
    · refine ⟨newConns + (2 - (length + newConns)), ?_, by omega, ?_, by omega⟩
      · simp only [newConnCount, free, size, short, if_true, Nat.ne_of_gt positive, if_false,
          quotient, Option.bind_eq_bind, Option.bind_some, few]
      · rw [Nat.add_mul]
        omega
    · refine ⟨newConns, ?_, by omega, by omega, fun _ _ => by omega⟩
      simp only [newConnCount, free, size, short, if_true, Nat.ne_of_gt positive, if_false,
        quotient, Option.bind_eq_bind, Option.bind_some, few]
  · by_cases few : length < 2
    · refine ⟨2 - length, ?_, by omega, by omega, by omega⟩
      simp [newConnCount, free, size, short]
      omega
    · refine ⟨0, ?_, by omega, by omega, by omega⟩
      simp [newConnCount, free, size, short]
      omega

/-- A connection that was empty before the passes gets assets: otherwise all
placements went below it, more than there is room for. -/
theorem Settled.reaches {pool final : Pool} {newAssets : List String} {assignment : Assignment}
    (settled : Settled pool newAssets final assignment) (several : 1 ≤ newAssets.length) {bin : Nat}
    (inside : bin < pool.connections.length) (empty : pool.held bin < pool.maxAssetsPerConn)
    (narrow : 2 ≤ bin → pool.roomBelow bin < 2 * newAssets.length) :
    assignment.pending bin ≠ [] := by
  intro untouched
  obtain ⟨total, bounded⟩ := settled.short bin inside empty untouched
  rcases Nat.lt_or_ge bin 2 with low | high
  · rcases Nat.lt_or_ge bin 1 with zero | one
    · obtain rfl : bin = 0 := by omega
      rw [range_zero, sum_empty] at total
      omega
    · -- both connections of an asset differ, so the first one alone holds half at most
      obtain rfl : bin = 1 := by omega
      rw [sum_range_one] at total
      have half := settled.assigned.length_le 0
      omega
  · have below : ∑ other ∈ range bin, (assignment.pending other).length ≤ pool.roomBelow bin :=
      sum_le_sum fun other member => bounded other (mem_range.mp member)
    have few := narrow high
    omega

/-- A batch as its callers hand it over: no hash twice, and every market with
two different assets of its own. -/
structure Batch (owner : String → String) (markets : List Market) : Prop where
  distinct : (markets.map Market.hash).Nodup
  owned : ∀ market ∈ markets, Owned owner market

/-- The markets still to register form a batch again. -/
theorem Batch.unregistered {owner : String → String} {markets : List Market}
    (batch : Batch owner markets) (pool : Pool) : Batch owner (pool.unregistered markets) where
  distinct := batch.distinct.sublist (List.filter_sublist.map Market.hash)
  owned := fun market member => batch.owned market (List.mem_of_mem_filter member)

/-- The assets of a batch are all different. -/
theorem Batch.nodup {owner : String → String} {markets : List Market}
    (batch : Batch owner markets) : (markets.flatMap Market.assets).Nodup := by
  obtain ⟨distinct, owned⟩ := batch
  induction markets with
  | nil => exact List.nodup_nil
  | cons market rest inductionHypothesis =>
    obtain ⟨notAgain, distinctRest⟩ := List.nodup_cons.mp distinct
    have ownedRest := fun other member => owned other (List.mem_cons_of_mem market member)
    have mine := owned market List.mem_cons_self
    rw [List.flatMap_cons]
    refine List.Nodup.append (by simp [Market.assets, mine.differ])
      (inductionHypothesis distinctRest ownedRest) ?_
    intro asset here there
    obtain ⟨other, member, inside⟩ := List.mem_flatMap.mp there
    have sameHash : other.hash = market.hash := by
      rw [← (ownedRest other member).asset inside, mine.asset here]
    exact notAgain (sameHash ▸ List.mem_map_of_mem member)

/-- Assets of unregistered markets are not tracked yet. -/
theorem Routed.fresh {owner : String → String} {pool : Pool} (routed : Routed owner pool)
    {markets : List Market} (owned : ∀ market ∈ markets, Owned owner market) :
    ∀ asset ∈ (pool.unregistered markets).flatMap Market.assets,
      pool.assetToConns.lookup asset = none := by
  intro asset member
  obtain ⟨market, inside, carried⟩ := List.mem_flatMap.mp member
  obtain ⟨inBatch, notYet⟩ := List.mem_filter.mp inside
  apply AList.lookup_eq_none.mpr
  intro present
  obtain ⟨hash, other, found, alsoCarried⟩ := (routed.tracked asset).mp present
  obtain ⟨keyed, otherOwned⟩ := routed.registered hash other found
  have sameHash : market.hash = hash := by
    rw [← (owned market inBatch).asset carried, otherOwned.asset alsoCarried, keyed]
  have registered : market.hash ∈ pool.markets := by
    rw [sameHash, Maps.mem_iff_lookup]
    exact ⟨other, found⟩
  simp [registered] at notYet

/-- After the dispatch of settled passes no connection is empty. -/
theorem nonempty_subscribed {pool final : Pool} {connections fresh : List ConnHandle}
    {newAssets : List String} {assignment : Assignment}
    (settled : Settled pool newAssets final assignment)
    (spawned : pool.connections = connections ++ fresh)
    (old : ∀ handle ∈ connections, handle.assets.Nonempty)
    (reached : ∀ bin, connections.length ≤ bin → bin < pool.connections.length →
      assignment.pending bin ≠ []) :
    ∀ handle ∈ dispatchSubscribe final.connections assignment.pending, handle.assets.Nonempty := by
  intro handle member
  obtain ⟨idx, present⟩ := List.mem_iff_getElem?.mp member
  obtain ⟨before, found, -, assets⟩ := getElem?_dispatchSubscribe present
  have bounded : idx < final.connections.length := (List.getElem?_eq_some_iff.mp found).1
  have ofPending : assignment.pending idx ≠ [] → handle.assets.Nonempty := by
    intro used
    obtain ⟨asset, waiting⟩ := List.exists_mem_of_ne_nil _ used
    rw [assets]
    exact ⟨asset, Finset.mem_union_right _ (List.mem_toFinset.mpr waiting)⟩
  rcases Nat.lt_or_ge idx connections.length with isOld | notOld
  · have kept : final.connections[idx]? = connections[idx]? := by
      rcases settled.spawned with rfl | ⟨rfl, -⟩
      · rw [spawned, List.getElem?_append_left isOld]
      · rw [spawnConnection, spawned, List.append_assoc, List.getElem?_append_left isOld]
    rw [kept] at found
    rw [assets]
    exact (old before (List.mem_of_getElem? found)).mono Finset.subset_union_left
  · apply ofPending
    rcases Nat.lt_or_ge idx pool.connections.length with isFresh | beyond
    · exact reached idx notOld isFresh
    · rcases settled.spawned with rfl | ⟨rfl, overflow⟩
      · omega
      · have last : idx = pool.connections.length := by
          simp only [spawnConnection, List.length_append, List.length_singleton] at bounded
          omega
        exact last ▸ overflow

/-- Registering markets that are equal whenever their hashes are adds them to the
registered ones. -/
theorem lookup_register {pool : Pool} {markets : List Market}
    (agree : ∀ market ∈ pool.unregistered markets, ∀ other ∈ pool.unregistered markets,
      market.hash = other.hash → market = other) (hash : String) (market : Market) :
    (pool.register (pool.unregistered markets)).markets.lookup hash = some market ↔
      (market ∈ pool.unregistered markets ∧ market.hash = hash) ∨
        pool.markets.lookup hash = some market := by
  refine (Maps.lookup_foldl_insert Market.hash (fun market => market) _ agree pool.markets hash
    market).trans ?_
  constructor
  · rintro (⟨other, member, keyed, rfl⟩ | ⟨-, found⟩)
    · exact Or.inl ⟨member, keyed⟩
    · exact Or.inr found
  · rintro (⟨member, keyed⟩ | found)
    · exact Or.inl ⟨market, member, keyed, rfl⟩
    · refine Or.inr ⟨?_, found⟩
      intro again
      obtain ⟨other, member, rfl⟩ := List.mem_map.mp again
      have present : other.hash ∈ pool.markets := (Maps.mem_iff_lookup _ _).mpr ⟨market, found⟩
      have notYet := List.of_mem_filter member
      simp [present] at notYet

/-- Markets of a batch with one hash are one market. -/
theorem Batch.agree {owner : String → String} {markets : List Market}
    (batch : Batch owner markets) :
    ∀ market ∈ markets, ∀ other ∈ markets, market.hash = other.hash → market = other :=
  fun _ member _ alsoMember same => List.inj_on_of_nodup_map batch.distinct member alsoMember same

/-- A pool with the new markets registered and connections spawned for them. -/
structure Grown (pool : Pool) (toRegister : List Market) (grown : Pool) (added : List ConnHandle) :
    Prop where
  markets : grown.markets = (pool.register toRegister).markets
  capacity : grown.maxAssetsPerConn = pool.maxAssetsPerConn
  index : grown.assetToConns = pool.assetToConns
  connections : grown.connections = pool.connections ++ added
  empty : ∀ handle ∈ added, handle.assets = ∅
  enough : 2 * ((toRegister.flatMap Market.assets).length) ≤ grown.roomBelow grown.connections.length
  narrow : ∀ bin, pool.connections.length ≤ bin → bin < grown.connections.length → 2 ≤ bin →
    grown.roomBelow bin < 2 * (toRegister.flatMap Market.assets).length

/-- The connections are counted and spawned. -/
theorem exists_grown (pool : Pool) (positive : 1 ≤ pool.maxAssetsPerConn)
    (toRegister : List Market) :
    ∃ count, (pool.register toRegister).newConnCount (toRegister.flatMap Market.assets).length =
        some count ∧
      ∃ added, Grown pool toRegister (spawnConnections count (pool.register toRegister)) added := by
  obtain ⟨count, counted, two, enough, tight⟩ := newConnCount_spec (pool.register toRegister)
    positive (toRegister.flatMap Market.assets).length
  obtain ⟨added, length, empty, -, spawned⟩ := spawnConnections_spec count (pool.register toRegister)
  have room : ∀ extra ≤ count, roomBelow (spawnConnections count (pool.register toRegister))
      (pool.connections.length + extra) =
        pool.existingFree + extra * pool.maxAssetsPerConn := by
    intro extra bounded
    rw [spawned]
    exact roomBelow_spawned (pool.register toRegister) _ empty (by omega)
  have total : (spawnConnections count (pool.register toRegister)).connections.length =
      pool.connections.length + count := by
    rw [spawned, List.length_append, length]
    rfl
  refine ⟨count, counted, added, ⟨by rw [spawned], by rw [spawned]; rfl, by rw [spawned]; rfl,
    by rw [spawned]; rfl, empty, ?_, ?_⟩⟩
  · rw [total, room count le_rfl, Nat.mul_comm]
    exact enough
  · intro bin notOld inside high
    rw [total] at inside
    obtain ⟨extra, rfl⟩ := Nat.exists_eq_add_of_le notOld
    rw [room extra (by omega), Nat.mul_comm 2]
    have few := tight (by change 3 ≤ pool.connections.length + count; omega) (by omega)
    have less : extra * pool.maxAssetsPerConn ≤ (count - 1) * pool.maxAssetsPerConn :=
      Nat.mul_le_mul_right _ (by omega)
    change pool.existingFree + (count - 1) * pool.maxAssetsPerConn < _ at few
    omega

/-- The pool after a dispatched subscription. -/
def dispatched (final : Pool) (assignment : Assignment) : Pool :=
  { final with
    connections := dispatchSubscribe final.connections assignment.pending
    assetToConns := assignment.assetToConns }.updateMonitorMappings

/-- Placed assets of newly registered markets keep the routing. -/
theorem Routed.registers {owner : String → String} {pool final : Pool}
    (routed : Routed owner pool) {toRegister : List Market}
    (owned : ∀ market ∈ toRegister, Owned owner market)
    (capacity : final.maxAssetsPerConn = pool.maxAssetsPerConn)
    (found : ∀ hash market, final.markets.lookup hash = some market ↔
      (market ∈ toRegister ∧ market.hash = hash) ∨ pool.markets.lookup hash = some market)
    {assignment : Assignment}
    (untouched : ∀ asset, asset ∉ toRegister.flatMap Market.assets →
      assignment.assetToConns.lookup asset = pool.assetToConns.lookup asset)
    (complete : ∀ asset ∈ toRegister.flatMap Market.assets, asset ∈ assignment.assetToConns)
    (wired : Wired (final.dispatched assignment).connections assignment.assetToConns)
    (nonempty : ∀ handle ∈ (final.dispatched assignment).connections, handle.assets.Nonempty) :
    Routed owner (final.dispatched assignment) := by
  refine ⟨?capacity, ?registered, ?tracked, wired, nonempty, rfl⟩
  case capacity =>
    change 1 ≤ final.maxAssetsPerConn
    rw [capacity]
    exact routed.capacity
  case registered =>
    intro hash market present
    change final.markets.lookup hash = _ at present
    rw [found] at present
    rcases present with ⟨member, keyed⟩ | old
    · exact ⟨keyed, owned market member⟩
    · exact routed.registered hash market old
  case tracked =>
    intro asset
    change asset ∈ assignment.assetToConns ↔
      ∃ hash market, final.markets.lookup hash = some market ∧ asset ∈ market.assets
    by_cases isNew : asset ∈ toRegister.flatMap Market.assets
    · refine ⟨fun _ => ?_, fun _ => complete asset isNew⟩
      obtain ⟨market, member, carried⟩ := List.mem_flatMap.mp isNew
      exact ⟨market.hash, market, (found _ _).mpr (Or.inl ⟨member, rfl⟩), carried⟩
    · rw [← AList.lookup_isSome, untouched asset isNew, AList.lookup_isSome, routed.tracked asset]
      constructor
      · rintro ⟨hash, market, old, carried⟩
        exact ⟨hash, market, (found _ _).mpr (Or.inr old), carried⟩
      · rintro ⟨hash, market, present, carried⟩
        rcases (found _ _).mp present with ⟨member, -⟩ | old
        · exact absurd (List.mem_flatMap.mpr ⟨market, member, carried⟩) isNew
        · exact ⟨hash, market, old, carried⟩

/-- A connection spawned for a batch has room and nothing else. -/
theorem Grown.held_added {pool grown : Pool} {toRegister : List Market} {added : List ConnHandle}
    (growth : Grown pool toRegister grown added) {bin : Nat}
    (notOld : pool.connections.length ≤ bin) (inside : bin < grown.connections.length) :
    grown.held bin = 0 := by
  have present : grown.connections[bin]? = added[bin - pool.connections.length]? := by
    rw [growth.connections, List.getElem?_append_right notOld]
  have bounded : bin - pool.connections.length < added.length := by
    have := congrArg List.length growth.connections
    rw [List.length_append] at this
    omega
  rw [held, load, present, List.getElem?_eq_getElem bounded]
  simp [growth.empty _ (List.getElem_mem bounded)]

/-- Spawned connections leave the index wired. -/
theorem Grown.wired {pool grown : Pool} {toRegister : List Market} {added : List ConnHandle}
    (growth : Grown pool toRegister grown added) (wired : Wired pool.connections pool.assetToConns)
    {final : Pool} (spawned : final = grown ∨ final = grown.spawnConnection) :
    Wired final.connections pool.assetToConns := by
  have wiredGrown : Wired grown.connections pool.assetToConns := by
    rw [growth.connections]
    exact wired.append growth.empty
  rcases spawned with rfl | rfl
  · exact wiredGrown
  · exact wiredGrown.append (by simp)

/-- What the last spawn leaves as it was. -/
theorem Grown.lookup {pool grown : Pool} {markets : List Market} {added : List ConnHandle}
    (growth : Grown pool (pool.unregistered markets) grown added) {final : Pool}
    (spawned : final = grown ∨ final = grown.spawnConnection)
    (agree : ∀ market ∈ pool.unregistered markets, ∀ other ∈ pool.unregistered markets,
      market.hash = other.hash → market = other) (hash : String) (market : Market) :
    final.markets.lookup hash = some market ↔
      (market ∈ pool.unregistered markets ∧ market.hash = hash) ∨
        pool.markets.lookup hash = some market := by
  have sameMarkets : final.markets = grown.markets := by
    rcases spawned with rfl | rfl <;> rfl
  rw [sameMarkets, growth.markets]
  exact lookup_register agree hash market

theorem Grown.capacity_final {pool grown : Pool} {toRegister : List Market}
    {added : List ConnHandle} (growth : Grown pool toRegister grown added) {final : Pool}
    (spawned : final = grown ∨ final = grown.spawnConnection) :
    final.maxAssetsPerConn = pool.maxAssetsPerConn := by
  rcases spawned with rfl | rfl <;> exact growth.capacity

/-- Settled passes over a grown pool keep the routing. -/
theorem Routed.dispatched {owner : String → String} {pool grown final : Pool}
    (routed : Routed owner pool) {markets : List Market} (batch : Batch owner markets)
    {added : List ConnHandle} (growth : Grown pool (pool.unregistered markets) grown added)
    {assignment : Assignment}
    (settled : Settled grown ((pool.unregistered markets).flatMap Market.assets) final assignment)
    (several : 1 ≤ ((pool.unregistered markets).flatMap Market.assets).length) :
    Routed owner (final.dispatched assignment) := by
  have spawned : final = grown ∨ final = grown.spawnConnection :=
    settled.spawned.imp id And.left
  have placed := settled.assigned.placed
  rw [growth.index] at placed
  have unregistered := batch.unregistered pool
  refine routed.registers unregistered.owned (growth.capacity_final spawned)
    (growth.lookup spawned unregistered.agree) placed.untouched settled.complete
    ((growth.wired routed.wired spawned).subscribe (routed.fresh batch.owned) placed
      settled.complete) ?_
  apply nonempty_subscribed settled growth.connections routed.nonempty
  intro bin notOld inside
  apply settled.reaches several inside
  · rw [growth.held_added notOld inside, growth.capacity]
    exact routed.capacity
  · exact growth.narrow bin notOld inside

/-- A subscription completes and keeps the routing. -/
theorem Routed.subscribe {owner : String → String} {pool : Pool} (routed : Routed owner pool)
    {markets : List Market} (batch : Batch owner markets) (first second : Shuffle) :
    ∃ next, pool.subscribeMarkets markets first second = some next ∧ Routed owner next := by
  by_cases nothing : ((pool.unregistered markets).flatMap Market.assets).isEmpty
  · refine ⟨pool, ?_, routed⟩
    simp only [subscribeMarkets, nothing, if_true]
  have several : 1 ≤ ((pool.unregistered markets).flatMap Market.assets).length := by
    apply List.length_pos_of_ne_nil
    simpa using nothing
  obtain ⟨count, counted, added, growth⟩ := exists_grown pool routed.capacity
    (pool.unregistered markets)
  obtain ⟨final, assignment, assigned, settled⟩ := assign_settles first second
    (batch.unregistered pool).nodup (by rw [growth.index]; exact routed.fresh batch.owned)
    (by have enough := growth.enough; unfold roomBelow at enough; omega)
  refine ⟨final.dispatched assignment, ?_, routed.dispatched batch growth settled several⟩
  simp only [subscribeMarkets, nothing, Option.bind_eq_bind, counted, Option.bind_some,
    assigned]
  rfl

end Subscribing

section Unsubscribing

/-- The reverse index after one asset is removed. -/
theorem lookup_removeAsset (removal : Removal) (asset tested : String) :
    (removeAsset removal asset).assetToConns.lookup tested =
      if tested = asset then none else removal.assetToConns.lookup tested := by
  unfold removeAsset
  split
  · rename_i absent
    by_cases same : tested = asset
    · rw [if_pos same, same, absent]
    · rw [if_neg same]
  · by_cases same : tested = asset
    · rw [if_pos same, same, AList.lookup_erase]
    · rw [if_neg same, AList.lookup_erase_ne same]

/-- The noted removals after one asset is removed. -/
theorem mem_connUnsubs_removeAsset (removal : Removal) (asset tested : String) (idx : Nat) :
    tested ∈ (removeAsset removal asset).connUnsubs idx ↔ tested ∈ removal.connUnsubs idx ∨
      (tested = asset ∧ ∃ c1 c2, removal.assetToConns.lookup asset = some (c1, c2) ∧
        (idx = c1 ∨ idx = c2)) := by
  unfold removeAsset
  split
  · rename_i absent
    simp [absent]
  · rename_i c1 c2 present
    simp only [Pending.mem_push, present, Option.some.injEq, Prod.mk.injEq]
    constructor
    · rintro ((before | ⟨isFirst, same⟩) | ⟨isSecond, same⟩)
      · exact Or.inl before
      · exact Or.inr ⟨same, c1, c2, ⟨rfl, rfl⟩, Or.inl isFirst⟩
      · exact Or.inr ⟨same, c1, c2, ⟨rfl, rfl⟩, Or.inr isSecond⟩
    · rintro (before | ⟨same, _, _, ⟨rfl, rfl⟩, isFirst | isSecond⟩)
      · exact Or.inl (Or.inl before)
      · exact Or.inl (Or.inr ⟨isFirst, same⟩)
      · exact Or.inr ⟨isSecond, same⟩

@[simp]
theorem removeAsset_markets (removal : Removal) (asset : String) :
    (removeAsset removal asset).markets = removal.markets := by
  unfold removeAsset
  split <;> rfl

@[simp]
theorem removeAsset_removedCount (removal : Removal) (asset : String) :
    (removeAsset removal asset).removedCount = removal.removedCount := by
  unfold removeAsset
  split <;> rfl

/-- Removing assets removes no market. -/
theorem foldl_removeAsset_markets (assets : List String) (removal : Removal) :
    (assets.foldl removeAsset removal).markets = removal.markets := by
  induction assets generalizing removal with
  | nil => rfl
  | cons asset rest inductionHypothesis =>
    exact (inductionHypothesis _).trans (removeAsset_markets removal asset)

theorem mem_removeMarket (removal : Removal) (hash tested : String) :
    tested ∈ (removeMarket removal hash).markets ↔ tested ∈ removal.markets ∧ tested ≠ hash := by
  unfold removeMarket
  split
  · rename_i absent
    refine ⟨fun present => ⟨present, ?_⟩, And.left⟩
    rintro rfl
    exact AList.lookup_eq_none.mp absent present
  · rw [foldl_removeAsset_markets, AList.mem_erase]
    exact and_comm

/-- An unsubscription takes out the markets it names and no others. -/
theorem mem_unsubscribeMarkets (pool : Pool) (hashes : List String) (tested : String) :
    tested ∈ (pool.unsubscribeMarkets hashes).markets ↔ tested ∈ pool.markets ∧ tested ∉ hashes := by
  have folded : ∀ removal : Removal, tested ∈ (hashes.foldl removeMarket removal).markets ↔
      tested ∈ removal.markets ∧ tested ∉ hashes := by
    induction hashes with
    | nil => simp
    | cons hash rest inductionHypothesis =>
      intro removal
      rw [List.foldl_cons, inductionHypothesis, mem_removeMarket, List.mem_cons, not_or, and_assoc]
  unfold unsubscribeMarkets
  simp only
  split <;> exact folded _

/-- The reverse index lost exactly the noted assets. -/
structure Noted (old : AssetConns) (removal : Removal) : Prop where
  kept : ∀ asset conns, removal.assetToConns.lookup asset = some conns →
    old.lookup asset = some conns
  unsubs_iff : ∀ asset idx, asset ∈ removal.connUnsubs idx ↔
    removal.assetToConns.lookup asset = none ∧
      ∃ c1 c2, old.lookup asset = some (c1, c2) ∧ (idx = c1 ∨ idx = c2)

/-- Removing one asset notes it. -/
theorem Noted.removeAsset {old : AssetConns} {removal : Removal} (noted : Noted old removal)
    (asset : String) : Noted old (Pool.removeAsset removal asset) where
  kept := by
    intro tested conns present
    rw [lookup_removeAsset] at present
    split at present
    · exact absurd present (by simp)
    · exact noted.kept tested conns present
  unsubs_iff := by
    intro tested idx
    rw [mem_connUnsubs_removeAsset, lookup_removeAsset, noted.unsubs_iff]
    by_cases same : tested = asset
    · subst same
      simp only [if_true, true_and]
      constructor
      · rintro (⟨-, entry⟩ | ⟨c1, c2, present, either⟩)
        · exact entry
        · exact ⟨c1, c2, noted.kept tested _ present, either⟩
      · rintro ⟨c1, c2, present, either⟩
        cases found : removal.assetToConns.lookup tested with
        | none => exact Or.inl ⟨rfl, c1, c2, present, either⟩
        | some conns =>
          have sameConns := (noted.kept tested conns found).symm.trans present
          obtain rfl := Option.some.inj sameConns
          exact Or.inr ⟨c1, c2, rfl, either⟩
    · simp [same]

/-- The running removal agrees with its own markets. -/
structure Removing (owner : String → String) (pool : Pool) (removal : Removal) : Prop where
  noted : Noted pool.assetToConns removal
  registered : ∀ hash market, removal.markets.lookup hash = some market →
    market.hash = hash ∧ Owned owner market
  tracked : ∀ asset, asset ∈ removal.assetToConns ↔
    ∃ hash market, removal.markets.lookup hash = some market ∧ asset ∈ market.assets
  idle : removal.removedCount = 0 →
    removal.assetToConns = pool.assetToConns ∧ removal.connUnsubs = fun _ => []

/-- Removing one market keeps the agreement. -/
theorem Removing.removeMarket {owner : String → String} {pool : Pool} {removal : Removal}
    (removing : Removing owner pool removal) (hash : String) :
    Removing owner pool (Pool.removeMarket removal hash) := by
  unfold Pool.removeMarket
  split
  · exact removing
  · rename_i market found
    obtain ⟨keyed, owned⟩ := removing.registered hash market found
    have erased : Noted pool.assetToConns { removal with
        markets := removal.markets.erase hash
        removedCount := removal.removedCount + 1 } :=
      ⟨removing.noted.kept, removing.noted.unsubs_iff⟩
    simp only [Market.assets, List.foldl_cons, List.foldl_nil]
    refine ⟨(erased.removeAsset _).removeAsset _, ?_, ?_, ?_⟩
    · intro other candidate present
      simp only [removeAsset_markets] at present
      have different : other ≠ hash := by
        intro same
        rw [same, AList.lookup_erase] at present
        exact absurd present (by simp)
      rw [AList.lookup_erase_ne different] at present
      exact removing.registered other candidate present
    · intro asset
      rw [← AList.lookup_isSome, lookup_removeAsset, lookup_removeAsset]
      simp only [removeAsset_markets]
      by_cases mine : asset ∈ market.assets
      · -- no other market has this asset
        have gone : (if asset = market.no then none else
            if asset = market.yes then none else removal.assetToConns.lookup asset) = none := by
          simp only [Market.assets, List.mem_cons, List.not_mem_nil, or_false] at mine
          rcases mine with rfl | rfl <;> simp
        rw [gone]
        refine ⟨fun impossible => absurd impossible (by simp), ?_⟩
        rintro ⟨other, candidate, present, carried⟩
        have different : other ≠ hash := by
          intro same
          rw [same, AList.lookup_erase] at present
          exact absurd present (by simp)
        rw [AList.lookup_erase_ne different] at present
        obtain ⟨otherKeyed, otherOwned⟩ := removing.registered other candidate present
        refine absurd ?_ different
        rw [← otherKeyed, ← otherOwned.asset carried, owned.asset mine, keyed]
      · have notEither : asset ≠ market.yes ∧ asset ≠ market.no := by
          simpa [Market.assets, not_or] using mine
        rw [if_neg notEither.2, if_neg notEither.1, AList.lookup_isSome, removing.tracked]
        constructor
        · rintro ⟨other, candidate, present, carried⟩
          have different : other ≠ hash := by
            intro same
            rw [same, found] at present
            exact mine (Option.some.inj present ▸ carried)
          exact ⟨other, candidate, by rw [AList.lookup_erase_ne different]; exact present, carried⟩
        · rintro ⟨other, candidate, present, carried⟩
          have different : other ≠ hash := by
            intro same
            rw [same, AList.lookup_erase] at present
            exact absurd present (by simp)
          rw [AList.lookup_erase_ne different] at present
          exact ⟨other, candidate, present, carried⟩
    · intro none
      simp only [removeAsset_removedCount] at none
      omega

/-- Removing a list of markets keeps the agreement. -/
theorem Routed.removing {owner : String → String} {pool : Pool} (routed : Routed owner pool)
    (hashes : List String) : Removing owner pool
      (hashes.foldl removeMarket ⟨pool.markets, pool.assetToConns, fun _ => [], 0⟩) := by
  have initially : Removing owner pool ⟨pool.markets, pool.assetToConns, fun _ => [], 0⟩ := by
    refine ⟨⟨fun _ _ found => found, ?_⟩, routed.registered, routed.tracked, fun _ => ⟨rfl, rfl⟩⟩
    intro asset idx
    refine ⟨fun present => absurd present List.not_mem_nil, ?_⟩
    rintro ⟨absent, c1, c2, present, -⟩
    rw [absent] at present
    exact absurd present (by simp)
  generalize (⟨pool.markets, pool.assetToConns, fun _ => [], 0⟩ : Removal) = removal at *
  induction hashes generalizing removal with
  | nil => exact initially
  | cons hash rest inductionHypothesis => exact inductionHypothesis _ (initially.removeMarket hash)

/-- A dispatched connection keeps its id and what it held without the noted
assets. -/
theorem getElem?_dispatchUnsubscribe {connections : List ConnHandle} {connUnsubs : Pending}
    {idx : Nat} {handle : ConnHandle}
    (present : (dispatchUnsubscribe connections connUnsubs)[idx]? = some handle) :
    ∃ before, connections[idx]? = some before ∧ handle.connId = before.connId ∧
      handle.assets = before.assets \ (connUnsubs idx).toFinset := by
  rw [dispatchUnsubscribe, List.getElem?_mapIdx, Option.map_eq_some_iff] at present
  obtain ⟨before, found, rfl⟩ := present
  refine ⟨before, found, ?_⟩
  split
  · rename_i isEmpty
    rw [List.isEmpty_iff.mp isEmpty]
    simp
  · exact ⟨rfl, rfl⟩

@[simp]
theorem length_dispatchUnsubscribe (connections : List ConnHandle) (connUnsubs : Pending) :
    (dispatchUnsubscribe connections connUnsubs).length = connections.length := by
  simp [dispatchUnsubscribe]

/-- Dispatching the noted removals wires the remaining assets. -/
theorem Wired.unsubscribe {connections : List ConnHandle} {old : AssetConns} {removal : Removal}
    (wired : Wired connections old) (noted : Noted old removal) :
    Wired (dispatchUnsubscribe connections removal.connUnsubs) removal.assetToConns where
  valid := by
    intro asset c1 c2 found
    rw [length_dispatchUnsubscribe]
    exact wired.valid asset c1 c2 (noted.kept asset _ found)
  carries := by
    intro idx handle present asset
    obtain ⟨before, found, -, assets⟩ := getElem?_dispatchUnsubscribe present
    rw [assets, Finset.mem_sdiff, List.mem_toFinset, wired.carries idx before found,
      noted.unsubs_iff]
    cases left : removal.assetToConns.lookup asset with
    | none =>
      refine ⟨?_, by rintro ⟨_, _, impossible, -⟩; exact absurd impossible (by simp)⟩
      rintro ⟨entry, notNoted⟩
      exact absurd ⟨rfl, entry⟩ notNoted
    | some conns =>
      rw [noted.kept asset conns left]
      simp

end Unsubscribing

section Collecting

/-- Where an entry points after a connection is removed. -/
theorem lookup_removeConnection {connections : List ConnHandle} {assetToConns : AssetConns}
    (wired : Wired connections assetToConns) {idx : Nat} (inside : idx < connections.length)
    (asset : String) :
    (removeConnection (connections, assetToConns) idx).2.lookup asset =
      (assetToConns.lookup asset).map fun conns =>
        (SwapRemove.moved idx (connections.length - 1) conns.1,
          SwapRemove.moved idx (connections.length - 1) conns.2) := by
  simp only [removeConnection]
  split
  · exact Maps.lookup_mapValues _ assetToConns asset
  · -- the last connection is removed: no entry points beyond it
    rename_i last
    cases found : assetToConns.lookup asset with
    | none => rfl
    | some conns =>
      obtain ⟨c1, c2⟩ := conns
      obtain ⟨-, first, second⟩ := wired.valid asset c1 c2 found
      have unmoved : ∀ position < connections.length,
          SwapRemove.moved idx (connections.length - 1) position = position := by
        intro position bounded
        unfold SwapRemove.moved
        split <;> omega
      rw [Option.map_some, unmoved c1 first, unmoved c2 second]

/-- Removing an empty connection keeps the wiring. -/
theorem Wired.removeConnection {connections : List ConnHandle} {assetToConns : AssetConns}
    (wired : Wired connections assetToConns) {idx : Nat} {handle : ConnHandle}
    (present : connections[idx]? = some handle) (empty : handle.assets = ∅) :
    Wired (Pool.removeConnection (connections, assetToConns) idx).1
      (Pool.removeConnection (connections, assetToConns) idx).2 := by
  have inside : idx < connections.length := (List.getElem?_eq_some_iff.mp present).1
  have avoided : ∀ asset c1 c2, assetToConns.lookup asset = some (c1, c2) → c1 ≠ idx ∧ c2 ≠ idx := by
    intro asset c1 c2 found
    have notHere : asset ∉ handle.assets := by
      rw [empty]
      exact Finset.notMem_empty asset
    rw [wired.carries idx handle present] at notHere
    exact ⟨fun same => notHere ⟨c1, c2, found, Or.inl same.symm⟩,
      fun same => notHere ⟨c1, c2, found, Or.inr same.symm⟩⟩
  have length : (Pool.removeConnection (connections, assetToConns) idx).1.length =
      connections.length - 1 := SwapRemove.length_swapRemove connections idx
  constructor
  · intro asset c1 c2 found
    rw [lookup_removeConnection wired inside, Option.map_eq_some_iff] at found
    obtain ⟨⟨b1, b2⟩, before, moved⟩ := found
    obtain ⟨rfl, rfl⟩ := Prod.mk.inj moved
    obtain ⟨different, first, second⟩ := wired.valid asset b1 b2 before
    obtain ⟨stays1, stays2⟩ := avoided asset b1 b2 before
    rw [length]
    refine ⟨fun same => different (SwapRemove.moved_injective stays1 stays2 same),
      SwapRemove.moved_lt inside first stays1, SwapRemove.moved_lt inside second stays2⟩
  · intro position other found asset
    have bounded : position < connections.length - 1 :=
      length ▸ (List.getElem?_eq_some_iff.mp found).1
    obtain ⟨before, was, stays, rfl⟩ := SwapRemove.exists_moved inside bounded
    have same : connections[before]? = some other := by
      rw [← SwapRemove.getElem?_moved inside was stays]
      exact found
    rw [wired.carries before other same asset, lookup_removeConnection wired inside]
    constructor
    · rintro ⟨c1, c2, entry, either⟩
      refine ⟨_, _, by rw [entry]; rfl, ?_⟩
      rcases either with rfl | rfl
      · exact Or.inl rfl
      · exact Or.inr rfl
    · rintro ⟨c1, c2, entry, either⟩
      obtain ⟨⟨b1, b2⟩, entryBefore, moved⟩ := Option.map_eq_some_iff.mp entry
      obtain ⟨rfl, rfl⟩ := Prod.mk.inj moved
      obtain ⟨stays1, stays2⟩ := avoided asset b1 b2 entryBefore
      refine ⟨b1, b2, entryBefore, ?_⟩
      exact either.imp (SwapRemove.moved_injective stays stays1)
        (SwapRemove.moved_injective stays stays2)

/-- What holds while some empty connections are still to be removed, the ones
further back first. -/
structure Collecting (old : AssetConns) (remaining : List Nat)
    (state : List ConnHandle × AssetConns) : Prop where
  wired : Wired state.1 state.2
  descending : remaining.Pairwise (· > ·)
  inside : ∀ idx ∈ remaining, idx < state.1.length
  empty_iff : ∀ idx handle, state.1[idx]? = some handle →
    (handle.assets = ∅ ↔ idx ∈ remaining)
  tracked : ∀ asset, asset ∈ state.2 ↔ asset ∈ old

/-- Removing the last of the empty connections keeps the others in place. -/
theorem Collecting.removeConnection {old : AssetConns} {idx : Nat} {rest : List Nat}
    {state : List ConnHandle × AssetConns} (collecting : Collecting old (idx :: rest) state) :
    Collecting old rest (Pool.removeConnection state idx) := by
  obtain ⟨connections, assetToConns⟩ := state
  have inside : idx < connections.length := collecting.inside idx List.mem_cons_self
  obtain ⟨lower, descending⟩ := List.pairwise_cons.mp collecting.descending
  have present := List.getElem?_eq_getElem inside
  have empty := (collecting.empty_iff idx _ present).mpr List.mem_cons_self
  have length : (Pool.removeConnection (connections, assetToConns) idx).1.length =
      connections.length - 1 := SwapRemove.length_swapRemove connections idx
  refine ⟨collecting.wired.removeConnection present empty, descending, ?_, ?_, ?_⟩
  · intro other member
    have before := lower other member
    rw [length]
    omega
  · intro position handle found
    have bounded : position < connections.length - 1 :=
      length ▸ (List.getElem?_eq_some_iff.mp found).1
    change (SwapRemove.swapRemove connections idx)[position]? = some handle at found
    rw [SwapRemove.getElem?_swapRemove inside position bounded] at found
    split at found
    · -- the connection swapped in stood behind all empty ones
      rename_i same
      rw [collecting.empty_iff _ handle found]
      constructor
      · intro member
        rcases List.mem_cons.mp member with isIdx | later
        · omega
        · have before := lower _ later
          omega
      · intro member
        have before := lower _ member
        omega
    · rename_i different
      rw [collecting.empty_iff position handle found, List.mem_cons]
      exact ⟨fun either => either.resolve_left different, Or.inr⟩
  · intro asset
    rw [← AList.lookup_isSome, lookup_removeConnection collecting.wired inside, Option.isSome_map,
      AList.lookup_isSome]
    exact collecting.tracked asset

/-- The positions to collect are those of the empty connections, last first. -/
theorem collecting_toGc {connections : List ConnHandle} {assetToConns : AssetConns}
    (wired : Wired connections assetToConns) :
    Collecting assetToConns (toGc connections) (connections, assetToConns) where
  wired := wired
  descending := by
    rw [toGc, List.pairwise_reverse]
    exact List.Pairwise.filter _ List.pairwise_lt_range
  inside := by
    intro idx member
    simp only [toGc, List.mem_reverse, List.mem_filter, List.mem_range] at member
    exact member.1
  empty_iff := by
    intro idx handle present
    have inside : idx < connections.length := (List.getElem?_eq_some_iff.mp present).1
    simp only [toGc, List.mem_reverse, List.mem_filter, List.mem_range, inside, true_and]
    change connections[idx]? = some handle at present
    simp [present]
  tracked := fun _ => Iff.rfl

/-- After the collection the assets are wired and no connection is empty. -/
theorem collect_spec {connections : List ConnHandle} {assetToConns : AssetConns}
    (wired : Wired connections assetToConns) :
    Collecting assetToConns []
      ((toGc connections).foldl removeConnection (connections, assetToConns)) := by
  have collecting := collecting_toGc wired
  generalize toGc connections = remaining at *
  generalize (connections, assetToConns) = state at *
  induction remaining generalizing state with
  | nil => exact collecting
  | cons idx rest inductionHypothesis =>
    exact inductionHypothesis _ collecting.removeConnection

end Collecting

/-- An unsubscription keeps the routing. -/
theorem Routed.unsubscribe {owner : String → String} {pool : Pool} (routed : Routed owner pool)
    (hashes : List String) : Routed owner (pool.unsubscribeMarkets hashes) := by
  have removing := routed.removing hashes
  unfold unsubscribeMarkets
  generalize hashes.foldl removeMarket ⟨pool.markets, pool.assetToConns, fun _ => [], 0⟩ =
    removal at *
  have collected := collect_spec (routed.wired.unsubscribe removing.noted)
  have nonempty : ∀ handle ∈ ((toGc (dispatchUnsubscribe pool.connections removal.connUnsubs)).foldl
      removeConnection (dispatchUnsubscribe pool.connections removal.connUnsubs,
        removal.assetToConns)).1, handle.assets.Nonempty := by
    intro handle member
    obtain ⟨idx, present⟩ := List.mem_iff_getElem?.mp member
    apply Finset.nonempty_iff_ne_empty.mpr
    intro empty
    exact List.not_mem_nil ((collected.empty_iff idx handle present).mp empty)
  have tracked : ∀ asset, asset ∈ ((toGc (dispatchUnsubscribe pool.connections
      removal.connUnsubs)).foldl removeConnection (dispatchUnsubscribe pool.connections
        removal.connUnsubs, removal.assetToConns)).2 ↔
      ∃ hash market, removal.markets.lookup hash = some market ∧ asset ∈ market.assets :=
    fun asset => (collected.tracked asset).trans (removing.tracked asset)
  simp only
  split
  · exact ⟨routed.capacity, removing.registered, tracked, collected.wired, nonempty, rfl⟩
  · -- nothing was removed, so nothing is collected
    rename_i none
    obtain ⟨sameIndex, noneNoted⟩ := removing.idle (by omega)
    have unchanged : dispatchUnsubscribe pool.connections removal.connUnsubs = pool.connections := by
      apply List.ext_getElem?
      intro idx
      rw [dispatchUnsubscribe, List.getElem?_mapIdx, noneNoted]
      simp
    have noGc : toGc pool.connections = [] := by
      apply List.eq_nil_iff_forall_not_mem.mpr
      intro idx member
      have collecting := collecting_toGc routed.wired
      have inside := collecting.inside idx member
      have present := List.getElem?_eq_getElem inside
      have empty := (collecting.empty_iff idx _ present).mpr member
      exact (routed.nonempty _ (List.getElem_mem inside)).ne_empty empty
    refine ⟨routed.capacity, removing.registered, tracked, collected.wired, nonempty, ?_⟩
    rw [unchanged, noGc, sameIndex]
    exact routed.published

/-- The calls made to a pool, with the outcomes of their shuffles. -/
inductive Action where
  | subscribe (markets : List Market) (first second : Shuffle)
  | unsubscribe (marketHashes : List String)

/-- One call. -/
def step (pool : Pool) : Action → Option Pool
  | .subscribe markets first second => pool.subscribeMarkets markets first second
  | .unsubscribe marketHashes => some (pool.unsubscribeMarkets marketHashes)

/-- What the callers and the market data guarantee about a call. -/
def Action.Proper (owner : String → String) : Action → Prop
  | .subscribe markets _ _ => Batch owner markets
  | .unsubscribe _ => True

/-- Every call completes and keeps the routing. -/
theorem Routed.step {owner : String → String} (pool : Pool) (call : Action)
    (proper : call.Proper owner) (routed : Routed owner pool) :
    ∃ next, Pool.step pool call = some next ∧ Routed owner next := by
  cases call with
  | subscribe markets first second => exact routed.subscribe proper first second
  | unsubscribe hashes => exact ⟨_, rfl, routed.unsubscribe hashes⟩

/-- Two markets with their assets. -/
def firstMarket : Market := ⟨"m1", "y1", "n1"⟩

def secondMarket : Market := ⟨"m2", "y2", "n2"⟩

/-- The market each of the four assets belongs to. -/
def sampleOwner (asset : String) : String := if asset ∈ firstMarket.assets then "m1" else "m2"

theorem sample_batch : Batch sampleOwner [firstMarket, secondMarket] where
  distinct := by decide
  owned := by
    intro market inBatch
    simp only [List.mem_cons, List.not_mem_nil, or_false] at inBatch
    rcases inBatch with rfl | rfl
    · exact ⟨by decide, by decide, by decide⟩
    · exact ⟨by decide, by decide, by decide⟩

end Collector.Pool
