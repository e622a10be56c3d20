import Mathlib.Data.Finset.Card
import Mathlib.Data.List.AList
import Collector.Library.Runs

/-!
# The client of the Python services

The client spreads markets over connections, two assets for each. `subscribe_markets`
registers all new markets and assigns them to connections with room or to new slots
before its first await; then it tells the connections, and starts one for each slot
in batches. `unsubscribe_markets` takes markets out of the registry, and then tells
the connections that hold their assets and drops those left empty.

A step is what happens between two awaits. Starting a connection may fail and ends
the call, while the rest of its batch goes on. Sending may fail: `subscribe` of a
connection catches that, `unsubscribe` does not, and the call ends. Calls follow one
another. Counters, log lines and the sockets are left out.
-/

namespace Collector.OrderBookClient

/-- A market and its two assets. -/
structure MarketSubscription where
  market : String
  yesAssetId : String
  noAssetId : String
deriving DecidableEq

/-- The assets in the order they are subscribed in. -/
def MarketSubscription.assets (sub : MarketSubscription) : List String :=
  [sub.yesAssetId, sub.noAssetId]

/-- A connection by its id, with the assets it should be subscribed to. -/
structure WebSocketConnection where
  connId : Nat
  desiredAssets : Finset String
deriving DecidableEq

/-- Lists of assets by connection id, in the order the ids were first used. -/
abbrev AssetLists := List (Nat × List String)

/-- `lists.setdefault(conn_id, []).extend(assets)` -/
def AssetLists.extend (connId : Nat) (assets : List String) : AssetLists → AssetLists
  | [] => [(connId, assets)]
  | (other, held) :: rest =>
    if other = connId then (other, held ++ assets) :: rest
    else (other, held) :: extend connId assets rest

/-- The list of an id, empty if there is none. -/
def AssetLists.get (connId : Nat) : AssetLists → List String
  | [] => []
  | (other, held) :: rest => if other = connId then held else get connId rest

/-- The assets of all lists. -/
def AssetLists.all (lists : AssetLists) : List String := lists.flatMap Prod.snd

/-- Where a call awaits: at the connections that get more assets, at a batch of
connections being started, or at those that lose assets and then may be dropped. -/
inductive Call where
  | idle
  | subscribing (existingPending : AssetLists) (newSlots : List (List String))
  | connecting (batch : List Nat) (newSlots : List (List String))
  | unsubscribing (affectedConns : AssetLists) (connIds : List Nat)

/-- The client, and the tasks that await the start of a connection for a slot. -/
structure Client where
  markets : AList (fun _ : String => MarketSubscription)
  connections : List WebSocketConnection
  nextConnId : Nat
  starting : List (Nat × List String)
  call : Call

/-- A client before its first call. -/
def new : Client where
  markets := ∅
  connections := []
  nextConnId := 0
  starting := []
  call := .idle

/-- `subscribe` of a connection takes no more assets than one may hold. -/
def WebSocketConnection.subscribe (maxAssets : Nat) (assets : List String)
    (conn : WebSocketConnection) : WebSocketConnection :=
  { conn with desiredAssets := conn.desiredAssets ∪ (assets.take maxAssets).toFinset }

/-- What `unsubscribe` of a connection has done before it sends. -/
def WebSocketConnection.unsubscribe (assets : List String) (conn : WebSocketConnection) :
    WebSocketConnection :=
  { conn with desiredAssets := conn.desiredAssets \ assets.toFinset }

/-- The first connection with room for two more assets. -/
def findConnectionWithCapacity (maxAssets : Nat) (connections : List WebSocketConnection)
    (pending : AssetLists) : Option Nat :=
  (connections.find? fun conn => conn.desiredAssets.card +
    (pending.get conn.connId).length + 2 ≤ maxAssets).map WebSocketConnection.connId

/-- The running state of the allocation. -/
structure Allocation where
  markets : AList (fun _ : String => MarketSubscription)
  existingPending : AssetLists
  newSlots : List (List String)
  currentSlot : List String

/-- Allocate one market, unless it is registered. -/
def allocate (maxAssets : Nat) (connections : List WebSocketConnection) (allocation : Allocation)
    (sub : MarketSubscription) : Allocation :=
  if sub.market ∈ allocation.markets then allocation
  else
    let markets := allocation.markets.insert sub.market sub
    match findConnectionWithCapacity maxAssets connections allocation.existingPending with
    | some connId => { allocation with
        markets := markets
        existingPending := allocation.existingPending.extend connId sub.assets }
    | none =>
      if maxAssets < allocation.currentSlot.length + 2 then { allocation with
        markets := markets
        newSlots := allocation.newSlots ++ [allocation.currentSlot]
        currentSlot := sub.assets }
      else { allocation with
        markets := markets
        currentSlot := allocation.currentSlot ++ sub.assets }

/-- The slots of an allocation, the one being filled included. -/
def Allocation.slots (allocation : Allocation) : List (List String) :=
  if allocation.currentSlot.isEmpty then allocation.newSlots
  else allocation.newSlots ++ [allocation.currentSlot]

/-- The allocation of some markets. -/
def Client.allocation (client : Client) (maxAssets : Nat) (markets : List MarketSubscription) :
    Allocation :=
  markets.foldl (allocate maxAssets client.connections) ⟨client.markets, [], [], []⟩

/-- How many connections are started together. -/
def startupBatchSize : Nat := 50

/-- Start the connections of the next slots; without any the call is over. -/
def Client.nextBatch (client : Client) (newSlots : List (List String)) : Client :=
  if newSlots.isEmpty then { client with call := .idle }
  else
    let batch := newSlots.take startupBatchSize
    let ids := List.range' client.nextConnId batch.length
    { client with
      nextConnId := client.nextConnId + batch.length
      starting := client.starting ++ ids.zip batch
      call := .connecting ids (newSlots.drop startupBatchSize) }

/-- The running state of taking markets out. -/
structure Removal where
  markets : AList (fun _ : String => MarketSubscription)
  affectedConns : AssetLists

/-- Take one market out, if it is registered, and note its assets for the first
connection that holds its yes asset. -/
def removeMarket (connections : List WebSocketConnection) (removal : Removal) (market : String) :
    Removal :=
  match removal.markets.lookup market with
  | none => removal
  | some sub => {
      markets := removal.markets.erase market
      affectedConns :=
        match connections.find? fun conn => sub.yesAssetId ∈ conn.desiredAssets with
        | none => removal.affectedConns
        | some conn => removal.affectedConns.extend conn.connId sub.assets }

/-- What `unsubscribe_markets` does before its first await. -/
def Client.removal (client : Client) (markets : List String) : Removal :=
  markets.foldl (removeMarket client.connections) ⟨client.markets, []⟩

/-- The calls and what happens at their awaits. `sent` tells whether a message could
be sent. -/
inductive Action where
  | subscribeMarkets (markets : List MarketSubscription)
  | subscribeNext (sent : Bool)
  | nextSlots
  | connected (connId : Nat) (sent : Bool)
  | startFails (connId : Nat)
  | unsubscribeMarkets (markets : List String)
  | unsubscribeNext (sent : Bool)
  | collectNext

/-- Change the connection with an id. -/
def updateConn (connId : Nat) (change : WebSocketConnection → WebSocketConnection)
    (connections : List WebSocketConnection) : List WebSocketConnection :=
  connections.map fun conn => if conn.connId = connId then change conn else conn

/-- The call after one of the connections of a batch is there. -/
def Call.finish (connId : Nat) : Call → Call
  | .connecting batch newSlots => .connecting (batch.filter (· ≠ connId)) newSlots
  | call => call

/-- The call after a start has failed: it is over if it awaits this start. -/
def Call.fail (connId : Nat) : Call → Call
  | .connecting batch newSlots =>
    if connId ∈ batch then .idle else .connecting batch newSlots
  | call => call

/-- One step. -/
def step (maxAssets : Nat) (client : Client) : Action → Option Client
  | .subscribeMarkets markets =>
    match client.call with
    | .idle =>
      let allocation := client.allocation maxAssets markets
      some { client with
        markets := allocation.markets
        call := .subscribing allocation.existingPending allocation.slots }
    | _ => none
  | .subscribeNext _ =>
    match client.call with
    | .subscribing ((connId, assets) :: rest) newSlots => some { client with
        connections := updateConn connId (·.subscribe maxAssets assets) client.connections
        call := .subscribing rest newSlots }
    | _ => none
  | .nextSlots =>
    match client.call with
    | .subscribing [] newSlots => some (client.nextBatch newSlots)
    | .connecting [] newSlots => some (client.nextBatch newSlots)
    | _ => none
  | .connected connId _ =>
    match client.starting.find? fun task => task.1 = connId with
    | some task => some { client with
        connections := client.connections ++
          [WebSocketConnection.subscribe maxAssets task.2 ⟨connId, ∅⟩]
        starting := client.starting.filter fun other => other.1 ≠ connId
        call := client.call.finish connId }
    | none => none
  | .startFails connId =>
    match client.starting.find? fun task => task.1 = connId with
    | some _ => some { client with
        starting := client.starting.filter fun other => other.1 ≠ connId
        call := client.call.fail connId }
    | none => none
  | .unsubscribeMarkets markets =>
    match client.call with
    | .idle =>
      let removal := client.removal markets
      some { client with
        markets := removal.markets
        call := .unsubscribing removal.affectedConns (removal.affectedConns.map Prod.fst) }
    | _ => none
  | .unsubscribeNext sent =>
    match client.call with
    | .unsubscribing ((connId, assets) :: rest) connIds =>
      let removes := client.connections.any fun conn =>
        conn.connId = connId ∧ ∃ asset ∈ assets, asset ∈ conn.desiredAssets
      some { client with
        connections := updateConn connId (·.unsubscribe assets) client.connections
        call := if removes && !sent then .idle else .unsubscribing rest connIds }
    | _ => none
  | .collectNext =>
    match client.call with
    | .unsubscribing [] (connId :: rest) => some { client with
        connections := client.connections.filter fun conn =>
          ¬ (conn.connId = connId ∧ conn.desiredAssets = ∅)
        call := .unsubscribing [] rest }
    | .unsubscribing [] [] => some { client with call := .idle }
    | _ => none

namespace AssetLists

/-- An extended list has the new assets at its end, and the others are as before. -/
theorem get_extend (connId tested : Nat) (assets : List String) (lists : AssetLists) :
    (lists.extend connId assets).get tested =
      if tested = connId then lists.get tested ++ assets else lists.get tested := by
  induction lists with
  | nil =>
    simp only [extend, get, List.nil_append]
    by_cases same : tested = connId
    · rw [if_pos same, if_pos same.symm]
    · rw [if_neg same, if_neg (Ne.symm same)]
  | cons entry rest inductionHypothesis =>
    obtain ⟨other, held⟩ := entry
    by_cases here : other = connId
    · subst here
      by_cases same : tested = other
      · simp [extend, get, same]
      · simp [extend, get, same, Ne.symm same]
    · simp only [extend, if_neg here, get, inductionHypothesis]
      by_cases found : other = tested
      · subst found
        simp [here]
      · simp [found]

/-- The ids of the lists. -/
theorem keys_extend (connId : Nat) (assets : List String) (lists : AssetLists) :
    (lists.extend connId assets).map Prod.fst =
      if connId ∈ lists.map Prod.fst then lists.map Prod.fst
      else lists.map Prod.fst ++ [connId] := by
  induction lists with
  | nil => rfl
  | cons entry rest inductionHypothesis =>
    obtain ⟨other, held⟩ := entry
    by_cases here : other = connId
    · subst here
      simp [extend]
    · simp only [extend, if_neg here, List.map_cons, inductionHypothesis, List.mem_cons,
        Ne.symm here, false_or]
      split <;> rfl

theorem nodup_extend {lists : AssetLists} (distinct : (lists.map Prod.fst).Nodup) (connId : Nat)
    (assets : List String) : ((lists.extend connId assets).map Prod.fst).Nodup := by
  rw [keys_extend]
  split
  · exact distinct
  · next absent =>
    rw [List.nodup_append_comm]
    exact List.nodup_cons.mpr ⟨absent, distinct⟩

/-- An entry of the extended lists is an old one or the extended one. -/
theorem mem_extend {connId : Nat} {assets : List String} {lists : AssetLists}
    {entry : Nat × List String} (member : entry ∈ lists.extend connId assets) :
    entry ∈ lists ∨ entry.1 = connId ∧ entry.2 = lists.get connId ++ assets := by
  induction lists with
  | nil =>
    obtain rfl := List.mem_singleton.mp member
    exact Or.inr ⟨rfl, rfl⟩
  | cons first rest inductionHypothesis =>
    obtain ⟨other, held⟩ := first
    by_cases here : other = connId
    · rw [extend, if_pos here] at member
      rcases List.mem_cons.mp member with rfl | later
      · exact Or.inr ⟨here, by rw [get, if_pos here]⟩
      · exact Or.inl (List.mem_cons_of_mem _ later)
    · rw [extend, if_neg here] at member
      rcases List.mem_cons.mp member with rfl | later
      · exact Or.inl List.mem_cons_self
      · rcases inductionHypothesis later with old | ⟨same, extended⟩
        · exact Or.inl (List.mem_cons_of_mem _ old)
        · exact Or.inr ⟨same, by rw [get, if_neg here, extended]⟩

/-- All assets after an extension. -/
theorem mem_all_extend (connId : Nat) (assets : List String) (lists : AssetLists)
    (asset : String) :
    asset ∈ (lists.extend connId assets).all ↔ asset ∈ lists.all ∨ asset ∈ assets := by
  induction lists with
  | nil => simp [extend, all]
  | cons first rest inductionHypothesis =>
    obtain ⟨other, held⟩ := first
    simp only [all] at inductionHypothesis ⊢
    by_cases here : other = connId
    · simp only [extend, if_pos here, List.flatMap_cons, List.mem_append]
      tauto
    · simp only [extend, if_neg here, List.flatMap_cons, List.mem_append, inductionHypothesis]
      tauto

/-- An id that is not used has no list. -/
theorem get_of_notMem {connId : Nat} {lists : AssetLists}
    (absent : connId ∉ lists.map Prod.fst) : lists.get connId = [] := by
  induction lists with
  | nil => rfl
  | cons first rest inductionHypothesis =>
    obtain ⟨other, held⟩ := first
    rw [List.map_cons, List.mem_cons, not_or] at absent
    rw [get, if_neg (Ne.symm absent.1), inductionHypothesis absent.2]

/-- A list is one of the entries. -/
theorem get_subset_all (connId : Nat) (lists : AssetLists) : lists.get connId ⊆ lists.all := by
  induction lists with
  | nil => exact List.Subset.refl []
  | cons first rest inductionHypothesis =>
    obtain ⟨other, held⟩ := first
    intro asset member
    rw [get] at member
    rw [all, List.flatMap_cons, List.mem_append]
    split at member
    · exact Or.inl member
    · exact Or.inr (inductionHypothesis member)

end AssetLists

end Collector.OrderBookClient
