import Collector.Registry

/-!
# What the connections of the Python client hold

The client looks for a connection with room before its first await, with what the call has already
given each connection counted in. Starts may fail and messages may be lost in between; whatever
does, no connection ends up with more than one subscribe call takes, and no id is given out twice.
-/

namespace Collector.OrderBookClient

/-- Whatever fails, no connection is given more than it may hold, what a call still gives it
included, and an id names one connection or one start. -/
structure Bounded (maxAssets : Nat) (client : Client) : Prop where
  distinct : (client.connections.map WebSocketConnection.connId ++
    client.starting.map Prod.fst).Nodup
  numbered : ∀ connId ∈ client.connections.map WebSocketConnection.connId ++
    client.starting.map Prod.fst, connId < client.nextConnId
  pendingDistinct : (client.call.pending.map Prod.fst).Nodup
  pendingHeld : ∀ connId ∈ client.call.pending.map Prod.fst,
    connId ∈ client.connections.map WebSocketConnection.connId
  fits : ∀ conn ∈ client.connections,
    conn.desiredAssets.card + (client.call.pending.get conn.connId).length ≤ maxAssets

theorem bounded_new (maxAssets : Nat) : Bounded maxAssets new where
  distinct := List.nodup_nil
  numbered := nofun
  pendingDistinct := List.nodup_nil
  pendingHeld := nofun
  fits := nofun

section Bounds

variable {maxAssets : Nat} {client : Client}

/-- Allocating keeps the connections within their bounds. -/
structure Filled (maxAssets : Nat) (connections : List WebSocketConnection)
    (pending : AssetLists) : Prop where
  distinct : (pending.map Prod.fst).Nodup
  held : ∀ connId ∈ pending.map Prod.fst,
    connId ∈ connections.map WebSocketConnection.connId
  fits : ∀ conn ∈ connections,
    conn.desiredAssets.card + (pending.get conn.connId).length ≤ maxAssets

/-- A market goes to a connection with room for it. -/
theorem Filled.allocate {connections : List WebSocketConnection} {allocation : Allocation}
    (distinct : (connections.map WebSocketConnection.connId).Nodup)
    (filled : Filled maxAssets connections allocation.existingPending)
    (sub : MarketSubscription) :
    Filled maxAssets connections
      (OrderBookClient.allocate maxAssets connections allocation sub).existingPending := by
  unfold OrderBookClient.allocate
  split
  · exact filled
  simp only
  split
  · rename_i connId found
    obtain ⟨roomy, first, rfl⟩ := Option.map_eq_some_iff.mp found
    have member := List.mem_of_find?_eq_some first
    have room : roomy.desiredAssets.card +
        (allocation.existingPending.get roomy.connId).length + 2 ≤ maxAssets := by
      simpa using List.find?_some first
    refine ⟨AssetLists.nodup_extend filled.distinct _ _, ?_, ?_⟩
    · intro connId isKey
      rw [AssetLists.keys_extend] at isKey
      split at isKey
      · exact filled.held connId isKey
      · cases List.mem_append.mp isKey with
        | inl old => exact filled.held connId old
        | inr new =>
          rw [List.mem_singleton.mp new]
          exact List.mem_map_of_mem member
    · intro conn isConn
      rw [AssetLists.get_extend]
      split
      · rename_i same
        obtain rfl := List.inj_on_of_nodup_map distinct isConn member same
        rw [List.length_append]
        exact room
      · exact filled.fits conn isConn
  · split <;> exact filled

theorem Filled.foldl {connections : List WebSocketConnection} {allocation : Allocation}
    (distinct : (connections.map WebSocketConnection.connId).Nodup)
    (filled : Filled maxAssets connections allocation.existingPending)
    (markets : List MarketSubscription) :
    Filled maxAssets connections (markets.foldl (OrderBookClient.allocate maxAssets connections)
      allocation).existingPending := by
  induction markets generalizing allocation with
  | nil => exact filled
  | cons sub rest inductionHypothesis => exact inductionHypothesis (filled.allocate distinct sub)

/-- A call starts with nothing given yet. -/
theorem Bounded.filled (bounded : Bounded maxAssets client) :
    Filled maxAssets client.connections [] where
  distinct := List.nodup_nil
  held := nofun
  fits := fun conn member => (Nat.le_add_right _ _).trans (bounded.fits conn member)

/-- A call may end, or drop connections, with nothing more to give. -/
theorem Bounded.settled {next : Client} (bounded : Bounded maxAssets client)
    (fewer : next.connections.Sublist client.connections)
    (starting : next.starting = client.starting) (ids : next.nextConnId = client.nextConnId)
    (nothing : next.call.pending = []) : Bounded maxAssets next := by
  have kept := (fewer.map WebSocketConnection.connId).append
    (List.Sublist.refl (client.starting.map Prod.fst))
  constructor
  · rw [starting]
    exact bounded.distinct.sublist kept
  · rw [starting, ids]
    exact fun connId member => bounded.numbered connId (kept.subset member)
  · rw [nothing]
    exact List.nodup_nil
  · rw [nothing]
    exact nofun
  · intro conn member
    rw [nothing]
    exact (Nat.le_add_right _ _).trans (bounded.fits conn (fewer.subset member))

/-- The next starts get ids that were never given out. -/
theorem Bounded.nextBatch (bounded : Bounded maxAssets client) (newSlots : List (List String)) :
    Bounded maxAssets (client.nextBatch newSlots) := by
  unfold Client.nextBatch
  split
  · exact bounded.settled (List.Sublist.refl _) rfl rfl rfl
  simp only
  generalize newSlots.take startupBatchSize = batch
  have ids : (client.starting ++ (List.range' client.nextConnId batch.length).zip batch).map
      Prod.fst = client.starting.map Prod.fst ++ List.range' client.nextConnId batch.length := by
    rw [List.map_append, List.map_fst_zip (by rw [List.length_range'])]
  constructor
  · rw [ids, ← List.append_assoc, List.nodup_append]
    refine ⟨bounded.distinct, List.nodup_range', ?_⟩
    rintro old isOld new isNew rfl
    exact absurd (List.mem_range'_1.mp isNew).1 (Nat.not_le.mpr (bounded.numbered old isOld))
  · rw [ids, ← List.append_assoc]
    intro connId member
    cases List.mem_append.mp member with
    | inl old => exact Nat.lt_add_right _ (bounded.numbered connId old)
    | inr new => exact (List.mem_range'_1.mp new).2
  · exact List.nodup_nil
  · exact nofun
  · exact fun conn member => (Nat.le_add_right _ _).trans (bounded.fits conn member)

/-- A start that has connected is a connection with its slot. -/
theorem Bounded.connected (bounded : Bounded maxAssets client) {connId : Nat}
    {task : Nat × List String}
    (found : client.starting.find? (fun task => task.1 = connId) = some task) :
    Bounded maxAssets { client with
      connections := client.connections ++
        [WebSocketConnection.subscribe maxAssets task.2 ⟨connId, ∅⟩]
      starting := client.starting.filter fun other => other.1 ≠ connId
      call := client.call.finish connId } := by
  have mine : task.1 = connId := by simpa using List.find?_some found
  have started : connId ∈ client.starting.map Prod.fst :=
    mine ▸ List.mem_map_of_mem (List.mem_of_find?_eq_some found)
  have pending : (client.call.finish connId).pending = client.call.pending := by
    cases client.call <;> rfl
  obtain ⟨conns, starts, apart⟩ := List.nodup_append.mp bounded.distinct
  have fresh : connId ∉ client.call.pending.map Prod.fst := by
    intro isKey
    exact apart connId (bounded.pendingHeld connId isKey) connId started rfl
  constructor
  · rw [List.map_append, List.map_singleton, List.append_assoc]
    have order : (client.connections.map WebSocketConnection.connId ++
        (connId :: (client.starting.filter fun other => other.1 ≠ connId).map Prod.fst)).Perm
        (client.connections.map WebSocketConnection.connId ++
          client.starting.map Prod.fst) := by
      obtain ⟨-, same⟩ := find_task found starts
      exact List.Perm.append_left _ (mine ▸ (same.map Prod.fst).symm)
    exact order.nodup_iff.mpr bounded.distinct
  · intro other member
    rw [List.map_append, List.map_singleton, List.append_assoc] at member
    apply bounded.numbered
    cases List.mem_append.mp member with
    | inl old => exact List.mem_append_left _ old
    | inr new =>
      apply List.mem_append_right
      cases List.mem_cons.mp new with
      | inl isIt => exact isIt ▸ started
      | inr isStart =>
        obtain ⟨entry, kept, rfl⟩ := List.mem_map.mp isStart
        exact List.mem_map_of_mem (List.mem_of_mem_filter kept)
  · rw [pending]
    exact bounded.pendingDistinct
  · rw [pending, List.map_append]
    exact fun other isKey => List.mem_append_left _ (bounded.pendingHeld other isKey)
  · rw [pending]
    intro conn member
    cases List.mem_append.mp member with
    | inl old => exact bounded.fits conn old
    | inr new =>
      rw [List.mem_singleton.mp new]
      change ((∅ : Finset String) ∪ (task.2.take maxAssets).toFinset).card +
        (client.call.pending.get connId).length ≤ maxAssets
      rw [AssetLists.get_of_notMem fresh, Finset.empty_union, List.length_nil, Nat.add_zero]
      exact (List.toFinset_card_le _).trans (List.length_take_le _ _)

/-- A start that fails takes its slot along. -/
theorem Bounded.startFails (bounded : Bounded maxAssets client) (connId : Nat) :
    Bounded maxAssets { client with
      starting := client.starting.filter fun other => other.1 ≠ connId
      call := client.call.fail connId } := by
  have pending : (client.call.fail connId).pending = client.call.pending := by
    cases client.call with
    | connecting batch newSlots =>
      simp only [Call.fail]
      split <;> rfl
    | _ => rfl
  have fewer : (client.connections.map WebSocketConnection.connId ++
      (client.starting.filter fun other => other.1 ≠ connId).map Prod.fst).Sublist
      (client.connections.map WebSocketConnection.connId ++ client.starting.map Prod.fst) :=
    (List.Sublist.refl _).append (List.filter_sublist.map Prod.fst)
  refine ⟨bounded.distinct.sublist fewer, ?_, ?_, ?_, ?_⟩
  · exact fun other member => bounded.numbered other (fewer.subset member)
  · rw [pending]
    exact bounded.pendingDistinct
  · rw [pending]
    exact bounded.pendingHeld
  · rw [pending]
    exact bounded.fits

/-- Telling a connection moves what it is given from the call to the connection. -/
theorem Bounded.subscribeNext {connId : Nat} {assets : List String} {rest : AssetLists}
    {newSlots : List (List String)} (bounded : Bounded maxAssets client)
    (calling : client.call = .subscribing ((connId, assets) :: rest) newSlots) :
    Bounded maxAssets { client with
      connections := updateConn connId (·.subscribe maxAssets assets)
        client.connections
      call := .subscribing rest newSlots } := by
  obtain ⟨distinct, numbered, pendingDistinct, pendingHeld, fits⟩ := bounded
  rw [calling] at pendingDistinct pendingHeld fits
  obtain ⟨last, restDistinct⟩ := List.nodup_cons.mp pendingDistinct
  have ids := map_connId_updateConn connId (·.subscribe maxAssets assets)
    client.connections fun _ => rfl
  refine ⟨ids ▸ distinct, ids ▸ numbered, restDistinct, ?_, ?_⟩
  · rw [ids]
    exact fun other isKey => pendingHeld other (List.mem_cons_of_mem _ isKey)
  · intro conn member
    obtain ⟨before, wasThere, rfl⟩ := List.mem_map.mp member
    have room := fits before wasThere
    split
    · rename_i same
      change (before.desiredAssets ∪ (assets.take maxAssets).toFinset).card +
        (rest.get before.connId).length ≤ maxAssets
      rw [same, AssetLists.get_of_notMem last, List.length_nil, Nat.add_zero]
      simp only [Call.pending, AssetLists.get, same, if_pos] at room
      calc (before.desiredAssets ∪ (assets.take maxAssets).toFinset).card
          ≤ before.desiredAssets.card + (assets.take maxAssets).toFinset.card :=
            Finset.card_union_le _ _
        _ ≤ before.desiredAssets.card + assets.length := Nat.add_le_add_left
            ((List.toFinset_card_le _).trans (List.length_take_le' _ _)) _
        _ ≤ maxAssets := room
    · rename_i different
      simp only [Call.pending, AssetLists.get, if_neg (Ne.symm different)] at room
      exact room

/-- A connection that is told to drop assets holds no more than before. -/
theorem Bounded.unsubscribeNext (bounded : Bounded maxAssets client) {connId : Nat}
    {assets : List String} {call : Call} (nothing : call.pending = []) :
    Bounded maxAssets { client with
      connections := updateConn connId (·.unsubscribe assets) client.connections
      call := call } := by
  have settled : Bounded maxAssets { client with call := call } :=
    bounded.settled (List.Sublist.refl _) rfl rfl nothing
  obtain ⟨distinct, numbered, pendingDistinct, pendingHeld, fits⟩ := settled
  have ids := map_connId_updateConn connId (·.unsubscribe assets)
    client.connections fun _ => rfl
  refine ⟨ids ▸ distinct, ids ▸ numbered, pendingDistinct, ids ▸ pendingHeld, ?_⟩
  intro conn member
  obtain ⟨before, wasThere, rfl⟩ := List.mem_map.mp member
  have room := fits before wasThere
  split
  · exact (Nat.add_le_add_right (Finset.card_le_card Finset.sdiff_subset) _).trans room
  · exact room

/-- Whatever happens in a step of the client. -/
theorem Bounded.step (bounded : Bounded maxAssets client) {next : Client}
    {action : Action}
    (taken : OrderBookClient.step maxAssets client action = some next) :
    Bounded maxAssets next := by
  cases action with
  | subscribeMarkets markets =>
    simp only [OrderBookClient.step] at taken
    split at taken
    · rename_i calling
      obtain rfl := Option.some.inj taken
      have conns := (List.nodup_append.mp bounded.distinct).1
      have filled : Filled maxAssets client.connections
          (client.allocation maxAssets markets).existingPending :=
        Filled.foldl conns bounded.filled markets
      exact ⟨bounded.distinct, bounded.numbered, filled.distinct, filled.held, filled.fits⟩
    · cases taken
  | subscribeNext sent =>
    simp only [OrderBookClient.step] at taken
    split at taken
    · rename_i connId assets rest newSlots calling
      obtain rfl := Option.some.inj taken
      exact bounded.subscribeNext calling
    · cases taken
  | nextSlots =>
    simp only [OrderBookClient.step] at taken
    split at taken
    · obtain rfl := Option.some.inj taken
      exact bounded.nextBatch _
    · obtain rfl := Option.some.inj taken
      exact bounded.nextBatch _
    · cases taken
  | connected connId sent =>
    simp only [OrderBookClient.step] at taken
    split at taken
    · rename_i task found
      obtain rfl := Option.some.inj taken
      exact bounded.connected found
    · cases taken
  | startFails connId =>
    simp only [OrderBookClient.step] at taken
    split at taken
    · obtain rfl := Option.some.inj taken
      exact bounded.startFails connId
    · cases taken
  | unsubscribeMarkets markets =>
    simp only [OrderBookClient.step] at taken
    split at taken
    · obtain rfl := Option.some.inj taken
      exact bounded.settled (List.Sublist.refl _) rfl rfl rfl
    · cases taken
  | unsubscribeNext sent =>
    simp only [OrderBookClient.step] at taken
    split at taken
    · obtain rfl := Option.some.inj taken
      apply bounded.unsubscribeNext
      split <;> rfl
    · cases taken
  | collectNext =>
    simp only [OrderBookClient.step] at taken
    split at taken
    · rename_i connId rest calling
      obtain rfl := Option.some.inj taken
      exact bounded.settled List.filter_sublist rfl rfl rfl
    · obtain rfl := Option.some.inj taken
      exact bounded.settled (List.Sublist.refl _) rfl rfl rfl
    · cases taken

end Bounds

end Collector.OrderBookClient
