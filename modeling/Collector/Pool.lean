import Collector.Events
import Collector.Library.FirstFit
import Collector.Library.Maps
import Collector.Library.Runs
import Collector.Library.SwapRemove
import Mathlib.Data.Finset.Union

/-!
# The connection pool

The pool keeps a vector of connections, the registered markets and, for each
asset, the positions of the two connections that carry it. Subscribing packs new
assets in two shuffled passes and spawns connections for what does not fit.
Unsubscribing garbage-collects empty connections by swapping in the last one.

The outcome of a shuffle is a parameter that carries its own proof of being a
permutation. `none` is a panic: a failed `expect`, a missing map entry or a
division by zero. The commands sent to a connection are kept in order in its
handle.
-/

namespace Collector

/-- What the pool tells a connection. -/
inductive Command where
  | subscribe (assets : List String)
  | unsubscribe (assets : List String)
deriving DecidableEq

/-- The pool's side of a connection, with the commands sent so far. -/
structure ConnHandle where
  connId : Nat
  assets : Finset String
  cmdTx : List Command
deriving DecidableEq

/-- For each asset the positions of its two connections. -/
abbrev AssetConns := AList (fun _ : String => Nat × Nat)

/-- Assets by connection position; an absent entry is the empty list. -/
abbrev Pending := Nat → List String

/-- Append an asset to the entry of a connection. -/
def Pending.push (pending : Pending) (idx : Nat) (asset : String) : Pending :=
  Function.update pending idx (pending idx ++ [asset])

/-- The outcome of shuffling a list. -/
structure Shuffle where
  outcome : List String → List String
  permutes : ∀ assets, (outcome assets).Perm assets

/-- The shuffle that happens to change nothing. -/
def Shuffle.unchanged : Shuffle where
  outcome := id
  permutes := fun assets => List.Perm.refl assets

/-- The pool and the mapping it last pushed to the health monitor, with the
version the watch channel counts. -/
structure Pool where
  maxAssetsPerConn : Nat
  connections : List ConnHandle
  markets : AList (fun _ : String => Market)
  assetToConns : AssetConns
  nextConnId : Nat
  assetConnsTx : AssetConns
  assetConnsVersion : Nat

namespace Pool

/-- A pool without connections. -/
def new (maxAssetsPerConn : Nat) : Pool where
  maxAssetsPerConn := maxAssetsPerConn
  connections := []
  markets := ∅
  assetToConns := ∅
  nextConnId := 0
  assetConnsTx := ∅
  assetConnsVersion := 0

/-- Push the current mapping to the monitor. -/
def updateMonitorMappings (pool : Pool) : Pool :=
  { pool with
    assetConnsTx := pool.assetToConns
    assetConnsVersion := pool.assetConnsVersion + 1 }

/-- Append a connection without assets. -/
def spawnConnection (pool : Pool) : Pool :=
  { pool with
    connections := pool.connections ++ [⟨pool.nextConnId, ∅, []⟩]
    nextConnId := pool.nextConnId + 1 }

/-- Spawn a number of connections. -/
def spawnConnections : Nat → Pool → Pool
  | 0, pool => pool
  | count + 1, pool => spawnConnections count pool.spawnConnection

/-- The last connection of several may as well be spawned after the others. -/
theorem spawnConnections_succ (count : Nat) (pool : Pool) :
    spawnConnections (count + 1) pool = (spawnConnections count pool).spawnConnection := by
  induction count generalizing pool with
  | zero => rfl
  | succ count inductionHypothesis => exact inductionHypothesis pool.spawnConnection

/-- Assets a connection holds, the pending ones included. -/
def load (pool : Pool) (pending : Pending) (idx : Nat) : Nat :=
  (pool.connections[idx]?.map fun handle => handle.assets.card).getD 0 + (pending idx).length

/-- The first connection with room for one more asset, except the excluded one. -/
def findConnWithCapacity (pool : Pool) (pending : Pending) (exclude : Option Nat) : Option Nat :=
  FirstFit.choose pool.maxAssetsPerConn pool.connections.length (fun idx => some idx ≠ exclude)
    (pool.load pending)

/-- Slots left in the existing connections. -/
def existingFree (pool : Pool) : Nat :=
  (pool.connections.map fun handle => pool.maxAssetsPerConn - handle.assets.card).sum

/-- How many connections to spawn before the passes: enough for two slots for
each new asset, and at least two connections in total. -/
def newConnCount (pool : Pool) (newAssets : Nat) : Option Nat := do
  let totalDemand := newAssets * 2
  let newConns ←
    if pool.existingFree < totalDemand then
      if pool.maxAssetsPerConn = 0 then none
      else some ((totalDemand - pool.existingFree + pool.maxAssetsPerConn - 1) /
        pool.maxAssetsPerConn)
    else some 0
  let totalAfter := pool.connections.length + newConns
  if totalAfter < 2 then some (newConns + (2 - totalAfter)) else some newConns

/-- The running state of the passes. -/
structure Assignment where
  pending : Pending
  firstConn : AList (fun _ : String => Nat)
  assetToConns : AssetConns
  overflow : List String

/-- First pass, one asset: any connection with room. -/
def placeFirst (pool : Pool) (assignment : Assignment) (asset : String) : Option Assignment := do
  let idx ← pool.findConnWithCapacity assignment.pending none
  some { assignment with
    pending := assignment.pending.push idx asset
    firstConn := assignment.firstConn.insert asset idx }

/-- Second pass, one asset: a connection with room other than its first one, or
the overflow list. -/
def placeSecond (pool : Pool) (assignment : Assignment) (asset : String) : Option Assignment := do
  let exclude ← assignment.firstConn.lookup asset
  match pool.findConnWithCapacity assignment.pending (some exclude) with
  | some idx => some { assignment with
      pending := assignment.pending.push idx asset
      assetToConns := assignment.assetToConns.insert asset (exclude, idx) }
  | none => some { assignment with overflow := assignment.overflow ++ [asset] }

/-- Third pass, one asset: the overflow connection. -/
def placeOverflow (overflowIdx : Nat) (assignment : Assignment) (asset : String) :
    Option Assignment := do
  let first ← assignment.firstConn.lookup asset
  some { assignment with
    pending := assignment.pending.push overflowIdx asset
    assetToConns := assignment.assetToConns.insert asset (first, overflowIdx) }

/-- Send every connection its pending assets. Each connection gets at most one
command, so the order of the map does not matter. -/
def dispatchSubscribe (connections : List ConnHandle) (pending : Pending) : List ConnHandle :=
  connections.mapIdx fun idx handle =>
    if (pending idx).isEmpty then handle
    else { handle with
      assets := handle.assets ∪ (pending idx).toFinset
      cmdTx := handle.cmdTx ++ [.subscribe (pending idx)] }

/-- The markets of a batch that are not registered yet. -/
def unregistered (pool : Pool) (markets : List Market) : List Market :=
  markets.filter fun market => market.hash ∉ pool.markets

/-- Register markets under their hashes. -/
def register (pool : Pool) (toRegister : List Market) : Pool :=
  { pool with
    markets := toRegister.foldl (fun markets market => markets.insert market.hash market)
      pool.markets }

/-- The three passes over the new assets, with the pool after the last spawn. -/
def assign (pool : Pool) (newAssets : List String) (first second : Shuffle) :
    Option (Pool × Assignment) := do
  let shuffled := first.outcome newAssets
  let placed ← Runs.run pool.placeFirst ⟨fun _ => [], ∅, pool.assetToConns, []⟩ shuffled
  let settled ← Runs.run pool.placeSecond placed (second.outcome shuffled)
  if settled.overflow.isEmpty then some (pool, settled)
  else
    let pool := pool.spawnConnection
    let final ← Runs.run (placeOverflow (pool.connections.length - 1)) settled settled.overflow
    some (pool, final)

/-- Subscribe to a batch of markets. -/
def subscribeMarkets (pool : Pool) (markets : List Market) (first second : Shuffle) :
    Option Pool := do
  let toRegister := pool.unregistered markets
  let newAssets := toRegister.flatMap Market.assets
  if newAssets.isEmpty then some pool
  else
    let pool := pool.register toRegister
    let newConns ← pool.newConnCount newAssets.length
    let (pool, assignment) ← (spawnConnections newConns pool).assign newAssets first second
    some { pool with
      connections := dispatchSubscribe pool.connections assignment.pending
      assetToConns := assignment.assetToConns }.updateMonitorMappings

/-- The running state of an unsubscription. -/
structure Removal where
  markets : AList (fun _ : String => Market)
  assetToConns : AssetConns
  connUnsubs : Pending
  removedCount : Nat

/-- Forget the connections of one asset and note it for both. -/
def removeAsset (removal : Removal) (asset : String) : Removal :=
  match removal.assetToConns.lookup asset with
  | none => removal
  | some (c1, c2) => { removal with
      assetToConns := removal.assetToConns.erase asset
      connUnsubs := (removal.connUnsubs.push c1 asset).push c2 asset }

/-- Forget one market, if it is registered, and its assets. -/
def removeMarket (removal : Removal) (hash : String) : Removal :=
  match removal.markets.lookup hash with
  | none => removal
  | some market => market.assets.foldl removeAsset { removal with
      markets := removal.markets.erase hash
      removedCount := removal.removedCount + 1 }

/-- Tell every connection which assets it loses, one command at most. -/
def dispatchUnsubscribe (connections : List ConnHandle) (connUnsubs : Pending) : List ConnHandle :=
  connections.mapIdx fun idx handle =>
    if (connUnsubs idx).isEmpty then handle
    else { handle with
      assets := handle.assets \ (connUnsubs idx).toFinset
      cmdTx := handle.cmdTx ++ [.unsubscribe (connUnsubs idx)] }

/-- The positions of connections without assets, last one first. -/
def toGc (connections : List ConnHandle) : List Nat :=
  ((List.range connections.length).filter fun idx =>
    connections[idx]?.any fun handle => handle.assets = ∅).reverse

/-- Remove one connection and rewrite the positions of the one that takes its
place. -/
def removeConnection (state : List ConnHandle × AssetConns) (idx : Nat) :
    List ConnHandle × AssetConns :=
  let oldLast := state.1.length - 1
  (SwapRemove.swapRemove state.1 idx,
    if idx < oldLast then
      Maps.mapValues (fun conns =>
        (SwapRemove.moved idx oldLast conns.1, SwapRemove.moved idx oldLast conns.2)) state.2
    else state.2)

/-- Unsubscribe from markets by hash and collect the connections left empty. -/
def unsubscribeMarkets (pool : Pool) (marketHashes : List String) : Pool :=
  let removal := marketHashes.foldl removeMarket
    ⟨pool.markets, pool.assetToConns, fun _ => [], 0⟩
  let connections := dispatchUnsubscribe pool.connections removal.connUnsubs
  let collected := (toGc connections).foldl removeConnection (connections, removal.assetToConns)
  let pool := { pool with
    connections := collected.1
    markets := removal.markets
    assetToConns := collected.2 }
  if 0 < removal.removedCount then pool.updateMonitorMappings else pool

/-- A subscription that completes and is not empty registers its new markets,
spawns some connections and dispatches an assignment. -/
theorem subscribeMarkets_some {pool next : Pool} {markets : List Market} {first second : Shuffle}
    (completed : pool.subscribeMarkets markets first second = some next) :
    (((pool.unregistered markets).flatMap Market.assets).isEmpty ∧ next = pool) ∨
      ∃ (count : Nat) (assignment : Assignment),
        next = { spawnConnections count (pool.register (pool.unregistered markets)) with
          connections := dispatchSubscribe
            (spawnConnections count (pool.register (pool.unregistered markets))).connections
            assignment.pending
          assetToConns := assignment.assetToConns }.updateMonitorMappings := by
  simp only [subscribeMarkets] at completed
  split at completed
  · rename_i nothing
    exact Or.inl ⟨nothing, (Option.some.inj completed).symm⟩
  · obtain ⟨count, -, assigning⟩ := Option.bind_eq_some_iff.mp completed
    obtain ⟨⟨final, assignment⟩, assigned, same⟩ := Option.bind_eq_some_iff.mp assigning
    obtain rfl := Option.some.inj same
    obtain ⟨placed, -, settling⟩ := Option.bind_eq_some_iff.mp assigned
    obtain ⟨settled, -, overflowing⟩ := Option.bind_eq_some_iff.mp settling
    split at overflowing
    · obtain ⟨rfl, rfl⟩ := Prod.mk.inj (Option.some.inj overflowing)
      exact Or.inr ⟨count, settled, rfl⟩
    · obtain ⟨last, -, ended⟩ := Option.bind_eq_some_iff.mp overflowing
      obtain ⟨rfl, rfl⟩ := Prod.mk.inj (Option.some.inj ended)
      refine Or.inr ⟨count + 1, last, ?_⟩
      rw [spawnConnections_succ]

end Pool

end Collector
