import Collector.Library.Bins
import Collector.OrderBookClient

/-!
# The registry of the Python client under failures

Both calls change the registry before their first await and the connections after
it. What is on its way lies in lists that only the call knows: the assets still to be
added to a connection, the slots without a connection, the assets still to be taken
out. With them the connections hold the registered markets and nothing else. A call
that raises drops its lists, and the registry stays as the call had already set it.

A market is taken out of the first connection that holds its yes asset, so what a
removal does is known only if that market shares no asset with another one.
-/

namespace Collector.OrderBookClient

/-- The assets of a registered market. -/
def held (markets : AList (fun _ : String => MarketSubscription)) (market : String) :
    Option (Finset String) :=
  (markets.lookup market).map fun sub => sub.assets.toFinset

/-- The assets of the registered markets are those of the connections. -/
def Client.Matches (client : Client) : Prop :=
  ∀ asset, (∃ market sub, client.markets.lookup market = some sub ∧ asset ∈ sub.assets) ↔
    ∃ conn ∈ client.connections, asset ∈ conn.desiredAssets

/-- No connection fails to start, no market is taken out that shares an asset with
another registered one, and only the last message of an unsubscription may fail. -/
def Harmless (client : Client) : Action → Prop
  | .startFails _ => False
  | .unsubscribeMarkets markets =>
    ∀ market ∈ markets, ∀ item, held client.markets market = some item →
      ∀ asset ∈ item, Bins.Unshared (held client.markets) asset
  | .unsubscribeNext sent =>
    match client.call with
    | .unsubscribing (_ :: rest) _ => sent = true ∨ rest = []
    | _ => True
  | _ => True

/-- The assets that a call still adds to connections. -/
def Call.pending : Call → AssetLists
  | .subscribing existingPending _ => existingPending
  | _ => []

/-- The slots whose connections a call has still to start. -/
def Call.slots : Call → List (List String)
  | .subscribing _ newSlots => newSlots
  | .connecting _ newSlots => newSlots
  | _ => []

/-- The assets that a call still takes out of connections. -/
def Call.leaving : Call → AssetLists
  | .unsubscribing affectedConns _ => affectedConns
  | _ => []

/-- What a connection will hold after the call. -/
def Call.bin (call : Call) (conn : WebSocketConnection) : Finset String :=
  (conn.desiredAssets ∪ (call.pending.get conn.connId).toFinset) \
    (call.leaving.get conn.connId).toFinset

/-- What the connections, those being started and those to be started will hold. -/
def Client.bins (client : Client) : List (Finset String) :=
  client.connections.map client.call.bin ++
    (client.starting.map Prod.snd ++ client.call.slots).map List.toFinset

/-- Assets still to be taken out are in their connection, and not all registered. -/
def Client.Stale (client : Client) (entry : Nat × List String) : Prop :=
  ∃ conn ∈ client.connections, conn.connId = entry.1 ∧ ∃ asset ∈ entry.2,
    asset ∈ conn.desiredAssets ∧
      ∀ market sub, client.markets.lookup market = some sub → asset ∉ sub.assets

/-- Connections are being started only for the batch that a call awaits. -/
def Call.Awaits (call : Call) (started : List Nat) : Prop :=
  match call with
  | .connecting batch _ => ∀ connId, connId ∈ started ↔ connId ∈ batch
  | _ => started = []

/-- What holds between any two steps of a run without harm. -/
structure Sound (maxAssets : Nat) (client : Client) : Prop where
  packed : Bins.Packed (held client.markets) client.bins
  distinct : (client.connections.map WebSocketConnection.connId ++
    client.starting.map Prod.fst).Nodup
  numbered : ∀ connId ∈ client.connections.map WebSocketConnection.connId ++
    client.starting.map Prod.fst, connId < client.nextConnId
  awaits : client.call.Awaits (client.starting.map Prod.fst)
  pendingDistinct : (client.call.pending.map Prod.fst).Nodup
  pendingFits : ∀ entry ∈ client.call.pending, entry.2.length ≤ maxAssets
  slotsFit : ∀ slot ∈ client.starting.map Prod.snd ++ client.call.slots,
    slot ≠ [] ∧ slot.length ≤ maxAssets
  leavingDistinct : (client.call.leaving.map Prod.fst).Nodup
  leavingStale : ∀ entry ∈ client.call.leaving, client.Stale entry

section Held

variable {markets : AList (fun _ : String => MarketSubscription)}

theorem held_eq_some {market : String} {item : Finset String} :
    held markets market = some item ↔
      ∃ sub, markets.lookup market = some sub ∧ sub.assets.toFinset = item := by
  rw [held, Option.map_eq_some_iff]

/-- An asset of an item is an asset of a registered market. -/
theorem held_iff (asset : String) :
    (∃ market item, held markets market = some item ∧ asset ∈ item) ↔
      ∃ market sub, markets.lookup market = some sub ∧ asset ∈ sub.assets := by
  constructor
  · rintro ⟨market, item, found, inside⟩
    obtain ⟨sub, registered, rfl⟩ := held_eq_some.mp found
    exact ⟨market, sub, registered, List.mem_toFinset.mp inside⟩
  · rintro ⟨market, sub, registered, inside⟩
    exact ⟨market, _, held_eq_some.mpr ⟨sub, registered, rfl⟩, List.mem_toFinset.mpr inside⟩

theorem held_nonempty (market : String) (item : Finset String)
    (found : held markets market = some item) : item.Nonempty := by
  obtain ⟨sub, -, rfl⟩ := held_eq_some.mp found
  exact ⟨sub.yesAssetId, List.mem_toFinset.mpr List.mem_cons_self⟩

theorem held_insert (markets : AList (fun _ : String => MarketSubscription))
    (sub : MarketSubscription) (other : String) :
    held (markets.insert sub.market sub) other =
      if other = sub.market then some sub.assets.toFinset else held markets other := by
  unfold held
  split
  · next same =>
    rw [same, AList.lookup_insert, Option.map_some]
  · next different => rw [AList.lookup_insert_ne different]

theorem held_eq_none {market : String} (absent : market ∉ markets) :
    held markets market = none := by
  rw [held, AList.lookup_eq_none.mpr absent, Option.map_none]

end Held

/-- The connections of a list are told apart by their ids. -/
theorem connId_ne_of_nodup {left right : List WebSocketConnection} {conn : WebSocketConnection}
    (distinct : ((left ++ conn :: right).map WebSocketConnection.connId).Nodup) :
    (∀ other ∈ left, other.connId ≠ conn.connId) ∧
      ∀ other ∈ right, other.connId ≠ conn.connId := by
  rw [List.map_append, List.map_cons, List.nodup_append] at distinct
  obtain ⟨-, later, apart⟩ := distinct
  constructor
  · intro other member
    exact apart _ (List.mem_map_of_mem member) _ List.mem_cons_self
  · intro other member same
    exact (List.nodup_cons.mp later).1 (same ▸ List.mem_map_of_mem member)

section Allocate

variable {maxAssets : Nat} {connections : List WebSocketConnection} {allocation : Allocation}

/-- What a connection will hold with the assets pending for it. -/
def AssetLists.withPending (pending : AssetLists) (conn : WebSocketConnection) : Finset String :=
  conn.desiredAssets ∪ (pending.get conn.connId).toFinset

/-- What holds while markets are being allocated. -/
structure Allocating (maxAssets : Nat) (connections : List WebSocketConnection)
    (allocation : Allocation) : Prop where
  packed : Bins.Packed (held allocation.markets)
    (connections.map allocation.existingPending.withPending ++
      (allocation.newSlots.map List.toFinset ++ [allocation.currentSlot.toFinset]))
  pendingDistinct : (allocation.existingPending.map Prod.fst).Nodup
  pendingFits : ∀ entry ∈ allocation.existingPending, entry.2.length ≤ maxAssets
  slotsFit : ∀ slot ∈ allocation.newSlots, slot ≠ [] ∧ slot.length ≤ maxAssets
  currentFits : allocation.currentSlot.length ≤ maxAssets

/-- A connection that is found has room for the assets of a market. -/
theorem findConnectionWithCapacity_some {pending : AssetLists} {connId : Nat}
    (found : findConnectionWithCapacity maxAssets connections pending = some connId) :
    ∃ left conn right, connections = left ++ conn :: right ∧ conn.connId = connId ∧
      (pending.get connId).length + 2 ≤ maxAssets := by
  obtain ⟨conn, first, rfl⟩ := Option.map_eq_some_iff.mp found
  obtain ⟨roomy, left, right, split, -⟩ := List.find?_eq_some_iff_append.mp first
  have room := of_decide_eq_true roomy
  exact ⟨left, conn, right, split, rfl, by omega⟩

/-- Extending the list of one connection adds the assets to that connection only. -/
theorem map_withPending_extend {left right : List WebSocketConnection}
    {conn : WebSocketConnection} {pending : AssetLists} {assets : List String}
    (distinct : ((left ++ conn :: right).map WebSocketConnection.connId).Nodup) :
    (left ++ conn :: right).map (pending.extend conn.connId assets).withPending =
      left.map pending.withPending ++
        (pending.withPending conn ∪ assets.toFinset) :: right.map pending.withPending := by
  obtain ⟨before, after⟩ := connId_ne_of_nodup distinct
  have others : ∀ other : WebSocketConnection, other.connId ≠ conn.connId →
      (pending.extend conn.connId assets).withPending other = pending.withPending other := by
    intro other different
    rw [AssetLists.withPending, AssetLists.get_extend, if_neg different, AssetLists.withPending]
  rw [List.map_append, List.map_cons]
  congr 1
  · exact List.map_congr_left fun other member => others other (before other member)
  · congr 1
    · rw [AssetLists.withPending, AssetLists.get_extend, if_pos rfl, List.toFinset_append,
        AssetLists.withPending, Finset.union_assoc]
    · exact List.map_congr_left fun other member => others other (after other member)

/-- Allocating one market keeps the account. -/
theorem Allocating.allocate (allocating : Allocating maxAssets connections allocation)
    (room : 2 ≤ maxAssets) (distinct : (connections.map WebSocketConnection.connId).Nodup)
    (sub : MarketSubscription) :
    Allocating maxAssets connections (allocate maxAssets connections allocation sub) := by
  obtain ⟨packed, pendingDistinct, pendingFits, slotsFit, currentFits⟩ := allocating
  unfold OrderBookClient.allocate
  split
  · exact ⟨packed, pendingDistinct, pendingFits, slotsFit, currentFits⟩
  next fresh =>
  have unheld := held_eq_none fresh
  have added := held_insert allocation.markets sub
  simp only
  split
  · next connId found =>
    obtain ⟨left, conn, right, rfl, rfl, roomy⟩ := findConnectionWithCapacity_some found
    refine ⟨?_, AssetLists.nodup_extend pendingDistinct _ _, ?_, slotsFit, currentFits⟩
    · rw [map_withPending_extend distinct, List.append_assoc, List.cons_append]
      rw [List.map_append, List.map_cons, List.append_assoc, List.cons_append] at packed
      exact packed.add unheld added
    · intro entry member
      rcases AssetLists.mem_extend member with old | ⟨-, extended⟩
      · exact pendingFits entry old
      · rw [extended, List.length_append]
        exact roomy
  · split
    · next full =>
      refine ⟨?_, pendingDistinct, pendingFits, ?_, room⟩
      · -- the new slot is an empty bin until the assets are in it
        have opened := (packed.cons_empty.perm (List.perm_append_singleton ∅ _).symm).add
          unheld added
        simpa only [List.map_append, List.map_cons, List.map_nil, List.append_assoc,
          Finset.empty_union] using opened
      · intro slot member
        rcases List.mem_append.mp member with old | new
        · exact slotsFit slot old
        · rw [List.mem_singleton.mp new]
          refine ⟨?_, currentFits⟩
          intro empty
          rw [empty, List.length_nil] at full
          omega
    · next notFull =>
      refine ⟨?_, pendingDistinct, pendingFits, slotsFit, ?_⟩
      · rw [← List.append_assoc] at packed
        rw [← List.append_assoc, List.toFinset_append]
        exact packed.add unheld added
      · rw [List.length_append]
        exact Nat.not_lt.mp notFull

/-- Allocating all markets keeps the account. -/
theorem Allocating.foldl (allocating : Allocating maxAssets connections allocation)
    (room : 2 ≤ maxAssets) (distinct : (connections.map WebSocketConnection.connId).Nodup)
    (markets : List MarketSubscription) : Allocating maxAssets connections
      (markets.foldl (OrderBookClient.allocate maxAssets connections) allocation) := by
  induction markets generalizing allocation with
  | nil => exact allocating
  | cons sub rest inductionHypothesis =>
    exact inductionHypothesis (allocating.allocate room distinct sub)

/-- All slots of an allocation, the one being filled included, can be opened. -/
theorem Allocating.slots (allocating : Allocating maxAssets connections allocation) :
    Bins.Packed (held allocation.markets)
        (connections.map allocation.existingPending.withPending ++
          allocation.slots.map List.toFinset) ∧
      ∀ slot ∈ allocation.slots, slot ≠ [] ∧ slot.length ≤ maxAssets := by
  obtain ⟨packed, -, -, slotsFit, currentFits⟩ := allocating
  unfold Allocation.slots
  split
  · next empty =>
    refine ⟨packed.sublist ?_ ?_ held_nonempty, slotsFit⟩
    · exact (List.sublist_append_left _ _).append_left _
    · intro bin member
      rw [List.isEmpty_iff.mp empty, List.toFinset_nil, ← List.append_assoc, List.mem_append,
        List.mem_singleton] at member
      exact member
  · next filled =>
    rw [List.map_append, List.map_singleton]
    refine ⟨packed, ?_⟩
    intro slot member
    rcases List.mem_append.mp member with old | current
    · exact slotsFit slot old
    · rw [List.mem_singleton.mp current]
      exact ⟨fun empty => filled (List.isEmpty_iff.mpr empty), currentFits⟩

end Allocate

section Remove

variable {connections : List WebSocketConnection}
  {markets : AList (fun _ : String => MarketSubscription)}

/-- An asset that no two markets share is in one connection only. -/
theorem holder_unique
    (packed : Bins.Packed (held markets) (connections.map WebSocketConnection.desiredAssets))
    {asset : String} (unshared : Bins.Unshared (held markets) asset)
    {left right : WebSocketConnection} (leftIn : left ∈ connections)
    (rightIn : right ∈ connections) (inLeft : asset ∈ left.desiredAssets)
    (inRight : asset ∈ right.desiredAssets) : left = right := by
  have apart := List.pairwise_map.mp (packed.single asset unshared)
  by_contra different
  have symmetric : Std.Symm fun left right : WebSocketConnection =>
      asset ∈ left.desiredAssets → asset ∉ right.desiredAssets :=
    ⟨fun left right apart inRight inLeft => apart inLeft inRight⟩
  exact apart.forall leftIn rightIn different inLeft inRight

/-- A market that shares no asset lies in one connection, and its yes asset finds it. -/
theorem find_holder
    (packed : Bins.Packed (held markets) (connections.map WebSocketConnection.desiredAssets))
    {market : String} {sub : MarketSubscription} (registered : markets.lookup market = some sub)
    (unshared : ∀ asset ∈ sub.assets, Bins.Unshared (held markets) asset) :
    ∃ conn ∈ connections,
      connections.find? (fun conn => sub.yesAssetId ∈ conn.desiredAssets) = some conn ∧
      (∀ asset ∈ sub.assets, asset ∈ conn.desiredAssets) ∧
      ∀ other ∈ connections, ∀ asset ∈ sub.assets, asset ∈ other.desiredAssets →
        other = conn := by
  obtain ⟨bin, binned, contained⟩ :=
    packed.whole market _ (held_eq_some.mpr ⟨sub, registered, rfl⟩)
  obtain ⟨conn, member, rfl⟩ := List.mem_map.mp binned
  have inside : ∀ asset ∈ sub.assets, asset ∈ conn.desiredAssets :=
    fun asset ofSub => contained (List.mem_toFinset.mpr ofSub)
  have only : ∀ other ∈ connections, ∀ asset ∈ sub.assets, asset ∈ other.desiredAssets →
      other = conn := by
    intro other otherIn asset ofSub present
    exact holder_unique packed (unshared asset ofSub) otherIn member present (inside asset ofSub)
  refine ⟨conn, member, ?_, inside, only⟩
  have yes : sub.yesAssetId ∈ sub.assets := List.mem_cons_self
  cases search : connections.find? (fun conn => sub.yesAssetId ∈ conn.desiredAssets) with
  | none =>
    exact absurd (decide_eq_true (inside _ yes)) (List.find?_eq_none.mp search conn member)
  | some first =>
    have holds := List.find?_some search
    rw [only first (List.mem_of_find?_eq_some search) _ yes (of_decide_eq_true holds)]

/-- What holds while markets are being taken out. -/
structure Removing (markets : AList (fun _ : String => MarketSubscription))
    (connections : List WebSocketConnection) (removal : Removal) : Prop where
  fewer : ∀ market sub, removal.markets.lookup market = some sub →
    markets.lookup market = some sub
  gone : ∀ asset, asset ∈ removal.affectedConns.all ↔ ∃ market sub,
    markets.lookup market = some sub ∧ removal.markets.lookup market = none ∧ asset ∈ sub.assets
  placed : ∀ conn ∈ connections, ∀ asset ∈ conn.desiredAssets,
    asset ∈ removal.affectedConns.all → asset ∈ removal.affectedConns.get conn.connId
  distinct : (removal.affectedConns.map Prod.fst).Nodup
  unshared : ∀ asset ∈ removal.affectedConns.all, Bins.Unshared (held markets) asset
  present : ∀ entry ∈ removal.affectedConns, ∃ conn ∈ connections, conn.connId = entry.1 ∧
    ∃ asset ∈ entry.2, asset ∈ conn.desiredAssets

/-- Taking one more market out drops its assets. -/
theorem dropped_erase {left : AList (fun _ : String => MarketSubscription)}
    (fewer : ∀ market sub, left.lookup market = some sub → markets.lookup market = some sub)
    {market : String} {sub : MarketSubscription} (registered : left.lookup market = some sub)
    (asset : String) :
    (∃ other old, markets.lookup other = some old ∧ (left.erase market).lookup other = none ∧
        asset ∈ old.assets) ↔
      (∃ other old, markets.lookup other = some old ∧ left.lookup other = none ∧
        asset ∈ old.assets) ∨ asset ∈ sub.assets := by
  constructor
  · rintro ⟨other, old, was, dropped, ofOld⟩
    by_cases same : other = market
    · subst same
      obtain rfl := Option.some.inj (was.symm.trans (fewer other sub registered))
      exact Or.inr ofOld
    · rw [AList.lookup_erase_ne same] at dropped
      exact Or.inl ⟨other, old, was, dropped, ofOld⟩
  · rintro (⟨other, old, was, dropped, ofOld⟩ | ofSub)
    · have different : other ≠ market := by
        rintro rfl
        rw [registered] at dropped
        cases dropped
      exact ⟨other, old, was, by rw [AList.lookup_erase_ne different, dropped], ofOld⟩
    · exact ⟨market, sub, fewer market sub registered, AList.lookup_erase _ _, ofSub⟩

/-- Taking one market out keeps the account. -/
theorem Removing.removeMarket {removal : Removal} (removing : Removing markets connections removal)
    (packed : Bins.Packed (held markets) (connections.map WebSocketConnection.desiredAssets))
    (market : String)
    (alone : ∀ item, held markets market = some item →
      ∀ asset ∈ item, Bins.Unshared (held markets) asset) :
    Removing markets connections (removeMarket connections removal market) := by
  obtain ⟨fewer, gone, placed, distinct, unshared, present⟩ := removing
  unfold OrderBookClient.removeMarket
  cases registered : removal.markets.lookup market with
  | none => exact ⟨fewer, gone, placed, distinct, unshared, present⟩
  | some sub =>
    have before := held_eq_some.mpr ⟨sub, fewer market sub registered, rfl⟩
    have notShared : ∀ asset ∈ sub.assets, Bins.Unshared (held markets) asset := by
      intro asset ofSub
      exact alone _ before asset (List.mem_toFinset.mpr ofSub)
    obtain ⟨conn, member, found, inside, only⟩ :=
      find_holder packed (fewer market sub registered) notShared
    simp only [found]
    refine ⟨?_, ?_, ?_, AssetLists.nodup_extend distinct _ _, ?_, ?_⟩
    · intro other old kept
      by_cases same : other = market
      · rw [same, AList.lookup_erase] at kept
        cases kept
      · rw [AList.lookup_erase_ne same] at kept
        exact fewer other old kept
    · intro asset
      rw [AssetLists.mem_all_extend, gone]
      exact (dropped_erase fewer registered asset).symm
    · intro other otherIn asset held leaves
      rw [AssetLists.get_extend]
      rcases (AssetLists.mem_all_extend _ _ _ _).mp leaves with old | ofSub
      · have listed := placed other otherIn asset held old
        split
        · exact List.mem_append_left _ listed
        · exact listed
      · rw [if_pos (congrArg _ (only other otherIn asset ofSub held))]
        exact List.mem_append_right _ ofSub
    · intro asset leaves
      rcases (AssetLists.mem_all_extend _ _ _ _).mp leaves with old | ofSub
      · exact unshared asset old
      · exact notShared asset ofSub
    · intro entry listed
      rcases AssetLists.mem_extend listed with old | ⟨sameId, extended⟩
      · exact present entry old
      · have yes : sub.yesAssetId ∈ sub.assets := List.mem_cons_self
        refine ⟨conn, member, sameId.symm, sub.yesAssetId, ?_, inside _ yes⟩
        rw [extended]
        exact List.mem_append_right _ yes

/-- Taking out all markets of a call keeps the account. -/
theorem Removing.foldl {removal : Removal} (removing : Removing markets connections removal)
    (packed : Bins.Packed (held markets) (connections.map WebSocketConnection.desiredAssets))
    {leaving : List String}
    (alone : ∀ market ∈ leaving, ∀ item, held markets market = some item →
      ∀ asset ∈ item, Bins.Unshared (held markets) asset) :
    Removing markets connections
      (leaving.foldl (OrderBookClient.removeMarket connections) removal) := by
  induction leaving generalizing removal with
  | nil => exact removing
  | cons market rest inductionHypothesis =>
    exact inductionHypothesis
      (removing.removeMarket packed market (alone market List.mem_cons_self))
      fun other member => alone other (List.mem_cons_of_mem market member)

/-- What is left when the markets are out. -/
theorem Removing.packed {removal : Removal} (removing : Removing markets connections removal)
    (packed : Bins.Packed (held markets) (connections.map WebSocketConnection.desiredAssets)) :
    Bins.Packed (held removal.markets) (connections.map fun conn =>
      conn.desiredAssets \ (removal.affectedConns.get conn.connId).toFinset) := by
  have fewer : ∀ market item, held removal.markets market = some item →
      held markets market = some item := by
    intro market item found
    obtain ⟨sub, kept, rfl⟩ := held_eq_some.mp found
    exact held_eq_some.mpr ⟨sub, removing.fewer market sub kept, rfl⟩
  have gone : ∀ asset, asset ∈ removal.affectedConns.all.toFinset ↔ ∃ market item,
      held markets market = some item ∧ held removal.markets market = none ∧ asset ∈ item := by
    intro asset
    rw [List.mem_toFinset, removing.gone]
    constructor
    · rintro ⟨market, sub, was, dropped, ofSub⟩
      exact ⟨market, _, held_eq_some.mpr ⟨sub, was, rfl⟩, by rw [held, dropped, Option.map_none],
        List.mem_toFinset.mpr ofSub⟩
    · rintro ⟨market, item, found, dropped, inItem⟩
      obtain ⟨sub, was, rfl⟩ := held_eq_some.mp found
      exact ⟨market, sub, was, Option.map_eq_none_iff.mp dropped, List.mem_toFinset.mp inItem⟩
  have unshared : ∀ asset ∈ removal.affectedConns.all.toFinset,
      Bins.Unshared (held markets) asset :=
    fun asset member => removing.unshared asset (List.mem_toFinset.mp member)
  have left := packed.remove unshared fewer gone
  rw [List.map_map] at left
  convert left using 1
  apply List.map_congr_left
  intro conn member
  ext asset
  simp only [Function.comp_apply, Finset.mem_sdiff, List.mem_toFinset, and_congr_right_iff,
    not_iff_not]
  intro held
  exact ⟨fun listed => AssetLists.get_subset_all _ _ listed,
    removing.placed conn member asset held⟩

/-- An asset that is still to be taken out belongs to no market any more. -/
theorem Removing.unregistered {removal : Removal}
    (removing : Removing markets connections removal) {asset : String}
    (leaves : asset ∈ removal.affectedConns.all) (market : String) (sub : MarketSubscription)
    (kept : removal.markets.lookup market = some sub) : asset ∉ sub.assets := by
  intro ofSub
  obtain ⟨other, old, was, dropped, ofOld⟩ := (removing.gone asset).mp leaves
  obtain rfl := removing.unshared asset leaves market other _ _
    (held_eq_some.mpr ⟨sub, removing.fewer market sub kept, rfl⟩)
    (held_eq_some.mpr ⟨old, was, rfl⟩) (List.mem_toFinset.mpr ofSub) (List.mem_toFinset.mpr ofOld)
  rw [kept] at dropped
  cases dropped

end Remove

theorem withPending_nil : AssetLists.withPending [] = WebSocketConnection.desiredAssets := by
  funext conn
  exact Finset.union_empty _

section Bin

theorem bin_idle : Call.idle.bin = WebSocketConnection.desiredAssets := by
  funext conn
  exact (Finset.sdiff_empty ..).trans (Finset.union_empty _)

theorem bin_connecting (batch : List Nat) (newSlots : List (List String)) :
    (Call.connecting batch newSlots).bin = WebSocketConnection.desiredAssets := by
  funext conn
  exact (Finset.sdiff_empty ..).trans (Finset.union_empty _)

theorem bin_subscribing (existingPending : AssetLists) (newSlots : List (List String)) :
    (Call.subscribing existingPending newSlots).bin = existingPending.withPending := by
  funext conn
  exact Finset.sdiff_empty ..

theorem bin_unsubscribing (affectedConns : AssetLists) (connIds : List Nat) :
    (Call.unsubscribing affectedConns connIds).bin = fun conn =>
      conn.desiredAssets \ (affectedConns.get conn.connId).toFinset := by
  funext conn
  exact congrArg (· \ _) (Finset.union_empty _)

/-- What one connection becomes may make up for what is awaited. -/
theorem map_updateConn {β : Type} {connId : Nat} {change : WebSocketConnection → WebSocketConnection}
    {connections : List WebSocketConnection} {before after : WebSocketConnection → β}
    (here : ∀ conn : WebSocketConnection, conn.connId = connId → after (change conn) = before conn)
    (elsewhere : ∀ conn : WebSocketConnection, conn.connId ≠ connId → after conn = before conn) :
    (updateConn connId change connections).map after = connections.map before := by
  rw [updateConn, List.map_map]
  apply List.map_congr_left
  intro conn _
  rw [Function.comp_apply]
  split
  · next same => exact here conn same
  · next different => exact elsewhere conn different

/-- A connection keeps its id. -/
theorem map_connId_updateConn (connId : Nat) (change : WebSocketConnection → WebSocketConnection)
    (connections : List WebSocketConnection)
    (keeps : ∀ conn : WebSocketConnection, (change conn).connId = conn.connId) :
    (updateConn connId change connections).map WebSocketConnection.connId =
      connections.map WebSocketConnection.connId :=
  map_updateConn (fun conn _ => keeps conn) fun _ _ => rfl

end Bin

section Steps

variable {maxAssets : Nat} {markets : AList (fun _ : String => MarketSubscription)}
  {connections : List WebSocketConnection} {nextConnId : Nat} {starting : List (Nat × List String)}

/-- Between two calls the connections hold the registered markets. -/
theorem Sound.idle (sound : Sound maxAssets ⟨markets, connections, nextConnId, starting, .idle⟩) :
    starting = [] ∧
      Bins.Packed (held markets) (connections.map WebSocketConnection.desiredAssets) := by
  obtain rfl := List.map_eq_nil_iff.mp sound.awaits
  have packed := sound.packed
  simp only [Client.bins, bin_idle, Call.slots, List.map_nil, List.append_nil] at packed
  exact ⟨rfl, packed⟩

/-- Registering markets assigns them to connections with room and to slots. -/
theorem Sound.subscribeMarkets (room : 2 ≤ maxAssets)
    (sound : Sound maxAssets ⟨markets, connections, nextConnId, starting, .idle⟩)
    {allocation : Allocation} {added : List MarketSubscription}
    (allocated : added.foldl (allocate maxAssets connections) ⟨markets, [], [], []⟩ = allocation) :
    Sound maxAssets ⟨allocation.markets, connections, nextConnId, starting,
      .subscribing allocation.existingPending allocation.slots⟩ := by
  obtain ⟨rfl, packed⟩ := sound.idle
  have distinct := sound.distinct
  rw [List.map_nil, List.append_nil] at distinct
  have opened : Allocating maxAssets connections ⟨markets, [], [], []⟩ := by
    refine ⟨?_, List.nodup_nil, nofun, nofun, Nat.zero_le maxAssets⟩
    rw [withPending_nil]
    exact packed.cons_empty.perm (List.perm_append_singleton ∅ _).symm
  have filled := opened.foldl room distinct added
  rw [allocated] at filled
  obtain ⟨inBins, slotsFit⟩ := filled.slots
  refine ⟨?_, sound.distinct, sound.numbered, rfl, filled.pendingDistinct, filled.pendingFits,
    slotsFit, List.nodup_nil, nofun⟩
  simp only [Client.bins, bin_subscribing]
  exact inBins

/-- Telling a connection moves its assets from the call to the connection. -/
theorem Sound.subscribeNext {connId : Nat} {assets : List String} {rest : AssetLists}
    {newSlots : List (List String)}
    (sound : Sound maxAssets ⟨markets, connections, nextConnId, starting,
      .subscribing ((connId, assets) :: rest) newSlots⟩) :
    Sound maxAssets ⟨markets, updateConn connId (·.subscribe maxAssets assets) connections,
      nextConnId, starting, .subscribing rest newSlots⟩ := by
  obtain ⟨packed, distinct, numbered, awaits, pendingDistinct, pendingFits, slotsFit, -, -⟩ := sound
  obtain ⟨last, restDistinct⟩ := List.nodup_cons.mp pendingDistinct
  have fits : assets.take maxAssets = assets :=
    List.take_of_length_le (pendingFits (connId, assets) List.mem_cons_self)
  have ids := map_connId_updateConn connId (·.subscribe maxAssets assets) connections fun _ => rfl
  refine ⟨?_, ids ▸ distinct, ids ▸ numbered, awaits, restDistinct,
    fun entry member => pendingFits entry (List.mem_cons_of_mem _ member), slotsFit,
    List.nodup_nil, nofun⟩
  have moved : (updateConn connId (·.subscribe maxAssets assets) connections).map
      rest.withPending = connections.map (AssetLists.withPending ((connId, assets) :: rest)) := by
    apply map_updateConn
    · intro conn same
      simp only [WebSocketConnection.subscribe, AssetLists.withPending, AssetLists.get, fits, same,
        AssetLists.get_of_notMem last, if_pos, List.toFinset_nil, Finset.union_empty]
    · intro conn different
      simp only [AssetLists.withPending, AssetLists.get, if_neg (Ne.symm different)]
  simp only [Client.bins, bin_subscribing, moved] at packed ⊢
  exact packed

/-- The next slots get their connections, and without any the call is over. -/
theorem Sound.nextBatch {call : Call}
    (sound : Sound maxAssets ⟨markets, connections, nextConnId, [], call⟩)
    (told : call.bin = WebSocketConnection.desiredAssets) {newSlots : List (List String)}
    (later : call.slots = newSlots) :
    Sound maxAssets (Client.nextBatch ⟨markets, connections, nextConnId, [], call⟩ newSlots) := by
  obtain ⟨packed, distinct, numbered, -, -, -, slotsFit, -, -⟩ := sound
  simp only [Client.bins, told, later, List.map_nil, List.nil_append] at packed slotsFit
  rw [List.map_nil, List.append_nil] at distinct numbered
  unfold Client.nextBatch
  split
  · next none =>
    obtain rfl := List.isEmpty_iff.mp none
    refine ⟨?_, ?_, ?_, rfl, List.nodup_nil, nofun, nofun, List.nodup_nil, nofun⟩
    · simp only [Client.bins, bin_idle]
      exact packed
    · rw [List.map_nil, List.append_nil]
      exact distinct
    · rw [List.map_nil, List.append_nil]
      exact numbered
  · have slots : ((List.range' nextConnId (newSlots.take startupBatchSize).length).zip
        (newSlots.take startupBatchSize)).map Prod.snd = newSlots.take startupBatchSize :=
      List.map_snd_zip (by rw [List.length_range'])
    have ids : ((List.range' nextConnId (newSlots.take startupBatchSize).length).zip
        (newSlots.take startupBatchSize)).map Prod.fst =
          List.range' nextConnId (newSlots.take startupBatchSize).length :=
      List.map_fst_zip (by rw [List.length_range'])
    dsimp only
    refine ⟨?_, ?_, ?_, ?_, List.nodup_nil, nofun, ?_, List.nodup_nil, nofun⟩
    · simp only [Client.bins, bin_connecting, Call.slots, List.nil_append, slots,
        List.take_append_drop]
      exact packed
    · rw [List.nil_append, ids]
      refine List.nodup_append.mpr ⟨distinct, List.nodup_range', ?_⟩
      rintro old isOld new isNew rfl
      exact absurd (List.mem_range'_1.mp isNew).1 (Nat.not_le.mpr (numbered old isOld))
    · rw [List.nil_append, ids]
      intro connId member
      rcases List.mem_append.mp member with old | new
      · exact Nat.lt_add_right _ (numbered connId old)
      · exact (List.mem_range'_1.mp new).2
    · rw [List.nil_append, ids]
      exact fun connId => Iff.rfl
    · simp only [Call.slots, List.nil_append, slots, List.take_append_drop]
      exact slotsFit

/-- The next slots are taken when all connections are told, or a batch is there. -/
theorem Sound.nextSlots {call : Call} {next : Client}
    (sound : Sound maxAssets ⟨markets, connections, nextConnId, starting, call⟩)
    (moved : step maxAssets ⟨markets, connections, nextConnId, starting, call⟩ .nextSlots =
      some next) : Sound maxAssets next := by
  cases call with
  | subscribing existingPending newSlots =>
    cases existingPending with
    | nil =>
      cases moved
      obtain rfl := List.map_eq_nil_iff.mp sound.awaits
      exact sound.nextBatch ((bin_subscribing _ _).trans withPending_nil) rfl
    | cons => cases moved
  | connecting batch newSlots =>
    cases batch with
    | nil =>
      cases moved
      have none : starting.map Prod.fst = [] :=
        List.eq_nil_iff_forall_not_mem.mpr fun connId started =>
          List.not_mem_nil ((sound.awaits connId).mp started)
      obtain rfl := List.map_eq_nil_iff.mp none
      exact sound.nextBatch (bin_connecting _ _) rfl
    | cons => cases moved
  | idle | unsubscribing => cases moved

/-- The task that starts a connection is one of those that do. -/
theorem find_task {connId : Nat} {task : Nat × List String}
    (found : starting.find? (fun task => task.1 = connId) = some task)
    (distinct : (starting.map Prod.fst).Nodup) :
    task.1 = connId ∧
      starting.Perm (task :: starting.filter fun other => other.1 ≠ connId) := by
  obtain ⟨mine, left, right, rfl, others⟩ := List.find?_eq_some_iff_append.mp found
  obtain rfl := of_decide_eq_true mine
  refine ⟨rfl, ?_⟩
  have before : left.filter (fun other => other.1 ≠ task.1) = left := by
    refine List.filter_eq_self.mpr fun other member => ?_
    have different := others other member
    simpa using different
  have after : right.filter (fun other => other.1 ≠ task.1) = right := by
    refine List.filter_eq_self.mpr fun other member => decide_eq_true ?_
    rw [List.map_append, List.map_cons] at distinct
    have tail := (List.nodup_cons.mp (List.nodup_append.mp distinct).2.1).1
    exact fun same => tail (same ▸ List.mem_map_of_mem member)
  rw [List.filter_append, List.filter_cons_of_neg (by simp), before, after]
  exact List.perm_middle

/-- A connection that is there takes its slot. -/
theorem Sound.connected {connId : Nat} {task : Nat × List String} {call : Call}
    (sound : Sound maxAssets ⟨markets, connections, nextConnId, starting, call⟩)
    (found : starting.find? (fun task => task.1 = connId) = some task) :
    Sound maxAssets ⟨markets,
      connections ++ [WebSocketConnection.subscribe maxAssets task.2 ⟨connId, ∅⟩], nextConnId,
      starting.filter fun other => other.1 ≠ connId, call.finish connId⟩ := by
  obtain ⟨packed, distinct, numbered, awaits, -, -, slotsFit, -, -⟩ := sound
  cases call with
  | connecting batch newSlots =>
    obtain ⟨rfl, same⟩ := find_task found (List.nodup_append.mp distinct).2.1
    have fits : task.2.take maxAssets = task.2 := by
      refine List.take_of_length_le (slotsFit task.2 ?_).2
      exact List.mem_append_left _ (List.mem_map_of_mem (List.mem_of_find?_eq_some found))
    have holding : (connections ++
        [WebSocketConnection.subscribe maxAssets task.2 ⟨task.1, ∅⟩]).map
          WebSocketConnection.desiredAssets =
        connections.map WebSocketConnection.desiredAssets ++ [task.2.toFinset] := by
      rw [List.map_append, List.map_singleton, WebSocketConnection.subscribe, fits,
        Finset.empty_union]
    refine ⟨?_, ?_, ?_, ?_, List.nodup_nil, nofun, ?_, List.nodup_nil, nofun⟩
    · simp only [Client.bins, bin_connecting, Call.finish, holding] at packed ⊢
      refine packed.perm ?_
      rw [List.append_assoc]
      refine List.Perm.append_left _ ?_
      exact ((same.map Prod.snd).append_right newSlots).map List.toFinset
    · refine List.Perm.nodup ?_ distinct
      rw [List.map_append, List.append_assoc]
      exact List.Perm.append_left _ (same.map Prod.fst)
    · intro connId member
      refine numbered connId ?_
      rw [List.map_append, List.append_assoc] at member
      exact (List.Perm.append_left _ (same.map Prod.fst)).mem_iff.mpr member
    · intro connId
      rw [List.mem_filter, ← awaits connId]
      constructor
      · intro member
        obtain ⟨other, kept, rfl⟩ := List.mem_map.mp member
        obtain ⟨isOther, different⟩ := List.mem_filter.mp kept
        exact ⟨List.mem_map_of_mem isOther, different⟩
      · rintro ⟨member, different⟩
        obtain ⟨other, isOther, rfl⟩ := List.mem_map.mp member
        exact List.mem_map_of_mem (List.mem_filter.mpr ⟨isOther, different⟩)
    · intro slot member
      refine slotsFit slot ?_
      exact ((same.map Prod.snd).append_right newSlots).mem_iff.mpr
        (List.mem_cons_of_mem _ member)
  | idle | subscribing | unsubscribing =>
    obtain rfl := List.map_eq_nil_iff.mp awaits
    cases found

/-- Taking markets out leaves their assets in the connections until the call gets to
them. -/
theorem Sound.unsubscribeMarkets
    (sound : Sound maxAssets ⟨markets, connections, nextConnId, starting, .idle⟩)
    {removal : Removal} {leaving : List String}
    (alone : ∀ market ∈ leaving, ∀ item, held markets market = some item →
      ∀ asset ∈ item, Bins.Unshared (held markets) asset)
    (removed : leaving.foldl (removeMarket connections) ⟨markets, []⟩ = removal) :
    Sound maxAssets ⟨removal.markets, connections, nextConnId, starting,
      .unsubscribing removal.affectedConns (removal.affectedConns.map Prod.fst)⟩ := by
  obtain ⟨rfl, packed⟩ := sound.idle
  have opened : Removing markets connections ⟨markets, []⟩ := by
    refine ⟨fun _ _ kept => kept, ?_, nofun, List.nodup_nil, nofun, nofun⟩
    intro asset
    constructor
    · nofun
    · rintro ⟨market, sub, registered, dropped, -⟩
      rw [registered] at dropped
      cases dropped
  have removing := opened.foldl packed alone
  rw [removed] at removing
  refine ⟨?_, sound.distinct, sound.numbered, rfl, List.nodup_nil, nofun, nofun,
    removing.distinct, ?_⟩
  · simp only [Client.bins, bin_unsubscribing, Call.slots, List.map_nil, List.append_nil]
    exact removing.packed packed
  · intro entry member
    obtain ⟨conn, isConn, sameId, asset, listed, present⟩ := removing.present entry member
    have leaves : asset ∈ removal.affectedConns.all := List.mem_flatMap_of_mem member listed
    exact ⟨conn, isConn, sameId, asset, listed, present, removing.unregistered leaves⟩

/-- Telling a connection takes the assets out of it. -/
theorem Sound.unsubscribeNext {connId : Nat} {assets : List String} {rest : AssetLists}
    {connIds : List Nat}
    (sound : Sound maxAssets ⟨markets, connections, nextConnId, starting,
      .unsubscribing ((connId, assets) :: rest) connIds⟩) :
    Sound maxAssets ⟨markets, updateConn connId (·.unsubscribe assets) connections, nextConnId,
      starting, .unsubscribing rest connIds⟩ := by
  obtain ⟨packed, distinct, numbered, awaits, -, -, slotsFit, leavingDistinct, leavingStale⟩ := sound
  obtain ⟨last, restDistinct⟩ := List.nodup_cons.mp leavingDistinct
  have ids := map_connId_updateConn connId (·.unsubscribe assets) connections fun _ => rfl
  refine ⟨?_, ids ▸ distinct, ids ▸ numbered, awaits, List.nodup_nil, nofun, slotsFit,
    restDistinct, ?_⟩
  · have moved : (updateConn connId (·.unsubscribe assets) connections).map
        (fun conn => conn.desiredAssets \ (rest.get conn.connId).toFinset) =
      connections.map fun conn => conn.desiredAssets \
        (AssetLists.get conn.connId ((connId, assets) :: rest)).toFinset := by
      apply map_updateConn
      · intro conn same
        simp only [WebSocketConnection.unsubscribe, AssetLists.get, same,
          AssetLists.get_of_notMem last, if_pos, List.toFinset_nil, Finset.sdiff_empty]
      · intro conn different
        simp only [AssetLists.get, if_neg (Ne.symm different)]
    simp only [Client.bins, bin_unsubscribing, moved] at packed ⊢
    exact packed
  · intro entry member
    obtain ⟨conn, isConn, sameId, stale⟩ := leavingStale entry (List.mem_cons_of_mem _ member)
    have different : conn.connId ≠ connId := by
      intro same
      exact last (List.mem_map.mpr ⟨entry, member, sameId.symm.trans same⟩)
    refine ⟨conn, ?_, sameId, stale⟩
    exact List.mem_map.mpr ⟨conn, isConn, if_neg different⟩

/-- When all assets are out, the call may end. -/
theorem Sound.unsubscribed {connIds : List Nat}
    (sound : Sound maxAssets ⟨markets, connections, nextConnId, starting,
      .unsubscribing [] connIds⟩) :
    Sound maxAssets ⟨markets, connections, nextConnId, starting, .idle⟩ :=
  ⟨sound.packed, sound.distinct, sound.numbered, sound.awaits, List.nodup_nil, nofun,
    sound.slotsFit, List.nodup_nil, nofun⟩

/-- A connection that holds nothing may go. -/
theorem Sound.collectNext {connId : Nat} {rest : List Nat}
    (sound : Sound maxAssets ⟨markets, connections, nextConnId, starting,
      .unsubscribing [] (connId :: rest)⟩) :
    Sound maxAssets ⟨markets, connections.filter fun conn =>
        ¬ (conn.connId = connId ∧ conn.desiredAssets = ∅), nextConnId, starting,
      .unsubscribing [] rest⟩ := by
  obtain ⟨rfl, packed⟩ := sound.unsubscribed.idle
  have fewer : (connections.filter fun conn =>
      ¬ (conn.connId = connId ∧ conn.desiredAssets = ∅)).Sublist connections :=
    List.filter_sublist
  have ids := (fewer.map WebSocketConnection.connId).append_right
    (([] : List (Nat × List String)).map Prod.fst)
  refine ⟨?_, sound.distinct.sublist ids, fun id member => sound.numbered id (ids.subset member),
    rfl, List.nodup_nil, nofun, nofun, List.nodup_nil, nofun⟩
  have kept := packed.sublist (fewer.map WebSocketConnection.desiredAssets) ?_ held_nonempty
  · simp only [Client.bins, bin_unsubscribing, AssetLists.get, List.toFinset_nil,
      Finset.sdiff_empty, Call.slots, List.map_nil, List.append_nil]
    exact kept
  · intro bin member
    obtain ⟨conn, isConn, rfl⟩ := List.mem_map.mp member
    by_cases empty : conn.desiredAssets = ∅
    · exact Or.inr empty
    · refine Or.inl (List.mem_map_of_mem (List.mem_filter.mpr ⟨isConn, decide_eq_true ?_⟩))
      exact fun drops => empty drops.2

end Steps

section Registry

variable {maxAssets : Nat} {client next final : Client} {actions : List Action}

/-- A step without harm keeps the account. -/
theorem Sound.step (room : 2 ≤ maxAssets) (sound : Sound maxAssets client) {action : Action}
    (harmless : Harmless client action) (moved : step maxAssets client action = some next) :
    Sound maxAssets next := by
  obtain ⟨markets, connections, nextConnId, starting, call⟩ := client
  cases action with
  | subscribeMarkets added =>
    cases call with
    | idle =>
      cases moved
      exact sound.subscribeMarkets room rfl
    | subscribing | connecting | unsubscribing => cases moved
  | subscribeNext sent =>
    cases call with
    | subscribing existingPending newSlots =>
      cases existingPending with
      | nil => cases moved
      | cons entry rest =>
        cases moved
        exact sound.subscribeNext
    | idle | connecting | unsubscribing => cases moved
  | nextSlots => exact sound.nextSlots moved
  | connected connId sent =>
    cases found : starting.find? fun task => task.1 = connId with
    | none =>
      simp only [OrderBookClient.step, found] at moved
      cases moved
    | some task =>
      simp only [OrderBookClient.step, found] at moved
      cases moved
      exact sound.connected found
  | startFails => exact harmless.elim
  | unsubscribeMarkets leaving =>
    cases call with
    | idle =>
      cases moved
      exact sound.unsubscribeMarkets harmless rfl
    | subscribing | connecting | unsubscribing => cases moved
  | unsubscribeNext sent =>
    cases call with
    | unsubscribing affectedConns connIds =>
      cases affectedConns with
      | nil => cases moved
      | cons entry rest =>
        have told := sound.unsubscribeNext
        cases moved
        dsimp only
        split
        · next raised =>
          -- the message that failed was the last one
          rw [Bool.and_eq_true, Bool.not_eq_true'] at raised
          rcases harmless with isSent | rfl
          · rw [raised.2] at isSent
            cases isSent
          · exact told.unsubscribed
        · exact told
    | idle | subscribing | connecting => cases moved
  | collectNext =>
    cases call with
    | unsubscribing affectedConns connIds =>
      cases affectedConns with
      | nil =>
        cases connIds with
        | nil =>
          cases moved
          exact sound.unsubscribed
        | cons connId rest =>
          cases moved
          exact sound.collectNext
      | cons => cases moved
    | idle | subscribing | connecting => cases moved

/-- After a call the connections hold the assets of the registered markets. -/
theorem Sound.matches (sound : Sound maxAssets client) (ended : client.call = .idle) :
    client.Matches := by
  obtain ⟨markets, connections, nextConnId, starting, call⟩ := client
  cases ended
  obtain ⟨-, packed⟩ := sound.idle
  intro asset
  rw [← held_iff, ← packed.mem_iff]
  constructor
  · rintro ⟨bin, member, inside⟩
    obtain ⟨conn, isConn, rfl⟩ := List.mem_map.mp member
    exact ⟨conn, isConn, inside⟩
  · rintro ⟨conn, isConn, inside⟩
    exact ⟨conn.desiredAssets, List.mem_map_of_mem isConn, inside⟩

/-- A start that fails leaves the markets of its slot without a connection. -/
theorem Sound.startFails {connId : Nat} (sound : Sound maxAssets client)
    (separate : ∀ asset, Bins.Unshared (held client.markets) asset)
    (moved : OrderBookClient.step maxAssets client (.startFails connId) = some next) :
    next.call = .idle ∧ ¬ next.Matches := by
  obtain ⟨markets, connections, nextConnId, starting, call⟩ := client
  cases found : starting.find? fun task => task.1 = connId with
  | none =>
    simp only [OrderBookClient.step, found] at moved
    cases moved
  | some task =>
    simp only [OrderBookClient.step, found] at moved
    cases moved
    have isTask := List.mem_of_find?_eq_some found
    obtain ⟨packed, -, -, awaits, -, -, slotsFit, -, -⟩ := sound
    cases call with
    | connecting batch newSlots =>
      have mine := List.find?_some found
      obtain rfl := of_decide_eq_true mine
      have inBatch := (awaits task.1).mp (List.mem_map_of_mem isTask)
      refine ⟨if_pos inBatch, ?_⟩
      intro agrees
      have isSlot : task.2 ∈ starting.map Prod.snd ++ newSlots :=
        List.mem_append_left _ (List.mem_map_of_mem isTask)
      obtain ⟨asset, inSlot⟩ := List.exists_mem_of_ne_nil _ (slotsFit task.2 isSlot).1
      have inBin := List.mem_toFinset.mpr inSlot
      simp only [Client.bins, bin_connecting] at packed
      -- the asset is registered, and only the slot has it
      have registered := (held_iff asset).mp (packed.only _
        (List.mem_append_right _ (List.mem_map_of_mem isSlot)) asset inBin)
      obtain ⟨conn, isConn, inConn⟩ := (agrees asset).mp registered
      exact (List.pairwise_append.mp (packed.single asset (separate asset))).2.2
        conn.desiredAssets (List.mem_map_of_mem isConn) _ (List.mem_map_of_mem isSlot)
        inConn inBin
    | idle | subscribing | unsubscribing =>
      obtain rfl := List.map_eq_nil_iff.mp awaits
      cases found

/-- A message that fails leaves the assets of the next connection in it. -/
theorem Sound.unsubscribeFails {sent : Bool} (sound : Sound maxAssets client)
    (moved : OrderBookClient.step maxAssets client (.unsubscribeNext sent) = some next)
    (harm : ¬ Harmless client (.unsubscribeNext sent)) :
    next.call = .idle ∧ ¬ next.Matches := by
  obtain ⟨markets, connections, nextConnId, starting, call⟩ := client
  cases call with
  | unsubscribing affectedConns connIds =>
    cases affectedConns with
    | nil => cases moved
    | cons entry rest =>
      obtain ⟨failed, others⟩ := not_or.mp harm
      obtain ⟨conn, isConn, sameId, asset, listed, present, -⟩ :=
        sound.leavingStale entry List.mem_cons_self
      have removes : connections.any (fun conn =>
          conn.connId = entry.1 ∧ ∃ asset ∈ entry.2, asset ∈ conn.desiredAssets) = true :=
        List.any_eq_true.mpr
          ⟨conn, isConn, decide_eq_true ⟨sameId, asset, listed, present⟩⟩
      obtain ⟨later, isLater⟩ := List.exists_mem_of_ne_nil _ others
      obtain ⟨keeper, isKeeper, -, stale, -, inKeeper, unregistered⟩ :=
        sound.unsubscribeNext.leavingStale later isLater
      cases moved
      refine ⟨?_, ?_⟩
      · rw [Bool.not_eq_true] at failed
        exact if_pos (by rw [removes, failed]; rfl)
      · intro agrees
        obtain ⟨market, sub, registered, ofSub⟩ := (agrees stale).mpr ⟨keeper, isKeeper, inKeeper⟩
        exact unregistered market sub registered ofSub
  | idle | subscribing | connecting => cases moved

/-- While every step is without harm, the connections hold just the assets of the
registered markets after each call. As long as no two registered markets share an
asset, the first step with harm ends its call, and they do not. -/
theorem registry_matches (room : 2 ≤ maxAssets)
    (completed : Runs.run (step maxAssets) new actions = some final)
    (along : Runs.Along (step maxAssets) Harmless new actions) :
    (final.call = .idle → final.Matches) ∧
      ((∀ asset, Bins.Unshared (held final.markets) asset) →
        ∀ action next, step maxAssets final action = some next → ¬ Harmless final action →
          next.call = .idle ∧ ¬ next.Matches) := by
  have initially : Sound maxAssets new :=
    ⟨Bins.packed_nil fun _ => rfl, List.nodup_nil, nofun, rfl, List.nodup_nil, nofun, nofun,
      List.nodup_nil, nofun⟩
  have sound : Sound maxAssets final :=
    Runs.invariant_along (fun _ _ _ harmless moved holds => holds.step room harmless moved)
      along completed initially
  refine ⟨sound.matches, ?_⟩
  intro separate action next moved harm
  cases action with
  | startFails => exact sound.startFails separate moved
  | unsubscribeNext => exact sound.unsubscribeFails moved harm
  | unsubscribeMarkets => exact absurd (fun _ _ _ _ asset _ => separate asset) harm
  | subscribeMarkets | subscribeNext | nextSlots | connected | collectNext =>
    exact absurd trivial harm

/-- Two markets are subscribed and one is taken out, and the only message of that fails. -/
def failedUnsubscription : List Action :=
  [.subscribeMarkets [⟨"m1", "yes1", "no1"⟩, ⟨"m2", "yes2", "no2"⟩], .nextSlots,
    .connected 0 true, .nextSlots, .unsubscribeMarkets ["m1"], .unsubscribeNext false]

/-- The registry after their subscription. -/
def twoRegistered : AList (fun _ : String => MarketSubscription) :=
  AList.insert "m2" ⟨"m2", "yes2", "no2"⟩ (AList.insert "m1" ⟨"m1", "yes1", "no1"⟩ ∅)

/-- The two markets share no asset. -/
theorem unshared_twoRegistered (asset : String) :
    Bins.Unshared (OrderBookClient.held twoRegistered) asset := by
  have known : ∀ market item, OrderBookClient.held twoRegistered market = some item →
      market ∈ ["m2", "m1"] := by
    intro market item found
    obtain ⟨sub, registered, -⟩ := Option.map_eq_some_iff.mp found
    have isSome : (twoRegistered.lookup market).isSome := Option.isSome_of_eq_some registered
    exact AList.mem_keys.mp (AList.lookup_isSome.mp isSome)
  have apart : Disjoint (["yes1", "no1"].toFinset) (["yes2", "no2"].toFinset) := by decide
  intro left right leftItem rightItem leftFound rightFound inLeft inRight
  rcases List.mem_pair.mp (known left leftItem leftFound) with rfl | rfl <;>
    rcases List.mem_pair.mp (known right rightItem rightFound) with rfl | rfl
  · rfl
  · obtain rfl := Option.some.inj leftFound
    obtain rfl := Option.some.inj rightFound
    exact absurd inLeft (Finset.disjoint_left.mp apart inRight)
  · obtain rfl := Option.some.inj leftFound
    obtain rfl := Option.some.inj rightFound
    exact absurd inRight (Finset.disjoint_left.mp apart inLeft)
  · rfl

theorem failed_unsubscription_matches :
    ∃ final, Runs.run (step 500) new failedUnsubscription = some final ∧
      final.connections = [⟨0, {"yes2", "no2"}⟩] ∧ final.markets.keys = ["m2"] ∧
      final.Matches := by
  obtain ⟨final, completed, ended, held, registered⟩ : ∃ final,
      Runs.run (step 500) new failedUnsubscription = some final ∧ final.call = .idle ∧
        final.connections = [⟨0, {"yes2", "no2"}⟩] ∧ final.markets.keys = ["m2"] := by
    exact ⟨_, rfl, rfl, by decide, rfl⟩
  refine ⟨final, completed, held, registered, (registry_matches (by decide) completed ?_).1 ended⟩
  refine .cons trivial rfl (.cons trivial rfl (.cons trivial rfl (.cons trivial rfl
    (.cons ?_ rfl (.cons (Or.inr rfl) rfl trivial)))))
  exact fun _ _ _ _ asset _ => unshared_twoRegistered asset

/-- Its connection fails to start, and the market stays registered without one. -/
theorem failed_start_keeps_market :
    ∃ final, Runs.run (step 500) new
        [.subscribeMarkets [⟨"m1", "yes1", "no1"⟩], .nextSlots, .startFails 0] = some final ∧
      final.call = .idle ∧ ¬ final.Matches := by
  refine ⟨_, rfl, rfl, ?_⟩
  intro agrees
  obtain ⟨conn, isConn, -⟩ := (agrees "yes1").mp ⟨"m1", ⟨"m1", "yes1", "no1"⟩, rfl, List.mem_cons_self⟩
  exact List.not_mem_nil isConn

end Registry

end Collector.OrderBookClient
