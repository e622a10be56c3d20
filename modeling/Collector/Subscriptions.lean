import Collector.Connection

/-!
# The subscriptions of one Python connection

The Python connection keeps two sets: what it should be subscribed to, and what it has sent to
the server since it last connected. Its client adds to both and takes out of both whenever it
likes; a message goes out only while the socket is open. The task that listens connects again when
the socket has closed, forgets what was sent and subscribes to everything that is wanted.

A step is what happens between two awaits. A message stands behind those that are still being
sent, and is lost with them when the socket closes. The messages have the form of those of the
Rust connection. Books, the lengths of delays, the heartbeat and the counters are left out.
-/

namespace Collector.Subscriptions

open Connection (Frame Introduced MarketFirst introduced_nil)
open Replay (replay)

/-- Where `run` awaits. -/
inductive Run where
  | listening
  | sleeping
  | connecting
  | subscribing
deriving DecidableEq

/-- The connection, with the messages being sent and those the server has got in this session. -/
structure WebSocketConnection where
  desiredAssets : Finset String
  subscribedAssets : Finset String
  hasInitialSubscription : Bool
  isConnected : Bool
  run : Run
  writing : List Frame
  frames : List Frame
deriving DecidableEq

/-- The steps of the client, of the socket and of `run`. A reconnect carries the order in which
the assets come out of the set. -/
inductive Action where
  | subscribe (assetIds : List String)
  | unsubscribe (assetIds : List String)
  | written
  | closed
  | listenEnds (pongTimedOut : Bool)
  | delayEnds
  | connectSucceeds (assetIds : List String)
  | connectFails
  | subscribed
deriving DecidableEq

namespace WebSocketConnection

/-- A connection that `start` has connected. -/
def started : WebSocketConnection where
  desiredAssets := ∅
  subscribedAssets := ∅
  hasInitialSubscription := false
  isConnected := true
  run := .listening
  writing := []
  frames := []

/-- `_send_subscription`: the first message of a session has its own form. -/
def sendSubscription (assetIds : List String) (conn : WebSocketConnection) : WebSocketConnection :=
  if conn.isConnected = false then conn
  else if conn.hasInitialSubscription = false then
    { conn with
      hasInitialSubscription := true
      writing := conn.writing ++ [.market assetIds] }
  else { conn with writing := conn.writing ++ [.subscribe assetIds] }

/-- `_send_unsubscription` -/
def sendUnsubscription (assetIds : List String) (conn : WebSocketConnection) :
    WebSocketConnection :=
  if conn.isConnected = false then conn
  else { conn with writing := conn.writing ++ [.unsubscribe assetIds] }

/-- `subscribe` takes no more assets than one connection may hold and sends those that were not
sent yet. -/
def subscribe (maxAssets : Nat) (assetIds : List String) (conn : WebSocketConnection) :
    WebSocketConnection :=
  let assetIds := assetIds.take maxAssets
  let newAssets := assetIds.filter fun asset => asset ∉ conn.subscribedAssets
  let conn := { conn with desiredAssets := conn.desiredAssets ∪ assetIds.toFinset }
  if newAssets.isEmpty then conn
  else sendSubscription newAssets
    { conn with subscribedAssets := conn.subscribedAssets ∪ newAssets.toFinset }

/-- One asset of `unsubscribe`, with the assets removed so far. -/
def unsubscribeAsset (state : WebSocketConnection × List String) (aid : String) :
    WebSocketConnection × List String :=
  if aid ∈ state.1.desiredAssets then
    ({ state.1 with
        desiredAssets := state.1.desiredAssets.erase aid
        subscribedAssets := state.1.subscribedAssets.erase aid },
      state.2 ++ [aid])
  else state

/-- `unsubscribe` sends the assets that were wanted. -/
def unsubscribe (assetIds : List String) (conn : WebSocketConnection) : WebSocketConnection :=
  let (conn, removed) := assetIds.foldl unsubscribeAsset (conn, [])
  if removed.isEmpty then conn else conn.sendUnsubscription removed

/-- The socket closes, and what was being sent is lost. -/
def close (conn : WebSocketConnection) : WebSocketConnection :=
  { conn with
    isConnected := false
    writing := [] }

/-- `connect` inside `run`, and the subscription after it. -/
def reconnect (maxAssets : Nat) (assetIds : List String) (conn : WebSocketConnection) :
    WebSocketConnection :=
  let conn := { conn with
    subscribedAssets := ∅
    hasInitialSubscription := false
    isConnected := true
    writing := []
    frames := [] }
  if conn.desiredAssets = ∅ then { conn with run := .listening }
  else { conn.subscribe maxAssets assetIds with run := .subscribing }

/-- One step. `run` goes on listening when its subscription, the first message of the session, is
sent or lost; listening to a closed socket ends at once. -/
def step (maxAssets : Nat) (conn : WebSocketConnection) : Action → Option WebSocketConnection
  | .subscribe assetIds => some (conn.subscribe maxAssets assetIds)
  | .unsubscribe assetIds => some (conn.unsubscribe assetIds)
  | .written =>
    match conn.writing with
    | [] => none
    | frame :: rest => some { conn with
        writing := rest
        frames := conn.frames ++ [frame] }
  | .closed => if conn.isConnected = true then some conn.close else none
  | .listenEnds pongTimedOut =>
    if conn.run = .listening ∧ conn.isConnected = false then
      some { conn with run := if pongTimedOut then .connecting else .sleeping }
    else none
  | .delayEnds =>
    if conn.run = .sleeping then some { conn with run := .connecting } else none
  | .connectSucceeds assetIds =>
    if conn.run = .connecting ∧ assetIds.Nodup ∧ assetIds.toFinset = conn.desiredAssets then
      some (conn.reconnect maxAssets assetIds)
    else none
  | .connectFails =>
    if conn.run = .connecting then some { conn with run := .listening } else none
  | .subscribed =>
    if conn.run = .subscribing ∧ (conn.frames ≠ [] ∨ conn.isConnected = false) then
      some { conn with run := .listening }
    else none

section Sending

variable (conn : WebSocketConnection) (assetIds : List String)

@[simp]
theorem sendSubscription_desiredAssets :
    (conn.sendSubscription assetIds).desiredAssets = conn.desiredAssets := by
  unfold sendSubscription
  split
  · rfl
  · split <;> rfl

@[simp]
theorem sendSubscription_subscribedAssets :
    (conn.sendSubscription assetIds).subscribedAssets = conn.subscribedAssets := by
  unfold sendSubscription
  split
  · rfl
  · split <;> rfl

@[simp]
theorem sendSubscription_isConnected :
    (conn.sendSubscription assetIds).isConnected = conn.isConnected := by
  unfold sendSubscription
  split
  · rfl
  · split <;> rfl

/-- `unsubscribe` removes the assets of its list that are wanted. -/
theorem foldl_unsubscribeAsset (removed : List String) :
    ∃ dropped, assetIds.foldl unsubscribeAsset (conn, removed) =
        ({ conn with
          desiredAssets := conn.desiredAssets \ assetIds.toFinset
          subscribedAssets := conn.subscribedAssets \ dropped.toFinset }, removed ++ dropped) ∧
      dropped.toFinset = conn.desiredAssets ∩ assetIds.toFinset := by
  induction assetIds generalizing conn removed with
  | nil => exact ⟨[], by simp, by simp⟩
  | cons aid rest inductionHypothesis =>
    rw [List.foldl_cons, unsubscribeAsset]
    split
    · rename_i wanted
      obtain ⟨dropped, folded, covered⟩ := inductionHypothesis { conn with
        desiredAssets := conn.desiredAssets.erase aid
        subscribedAssets := conn.subscribedAssets.erase aid } (removed ++ [aid])
      refine ⟨aid :: dropped, ?_, ?_⟩
      · rw [folded]
        simp [Finset.sdiff_insert, Finset.erase_sdiff_comm]
      · rw [List.toFinset_cons, covered, List.toFinset_cons, Finset.inter_insert_of_mem wanted,
          Finset.erase_inter]
        ext asset
        rw [Finset.mem_insert, Finset.mem_erase, Finset.mem_insert]
        tauto
    · rename_i unwanted
      obtain ⟨dropped, folded, covered⟩ := inductionHypothesis conn removed
      refine ⟨dropped, ?_, ?_⟩
      · rw [folded, List.toFinset_cons, Finset.sdiff_insert, Finset.erase_eq_of_notMem]
        exact fun member => unwanted (Finset.mem_sdiff.mp member).1
      · rw [covered, List.toFinset_cons, Finset.inter_insert_of_notMem unwanted]

end Sending

end WebSocketConnection

open WebSocketConnection

/-- While the socket is open, the messages of the session add up to what the connection takes for
sent, the first subscription among them has the introducing form, and nothing unwanted is sent. -/
structure Announced (conn : WebSocketConnection) : Prop where
  within : conn.subscribedAssets ⊆ conn.desiredAssets
  silent : conn.isConnected = false → conn.writing = []
  replayed : conn.isConnected = true →
    replay ∅ ((conn.frames ++ conn.writing).map Frame.delta) = conn.subscribedAssets
  introduced : conn.isConnected = true →
    Introduced (conn.frames ++ conn.writing) conn.hasInitialSubscription

/-- While the socket is open, everything wanted is sent. -/
def Complete (conn : WebSocketConnection) : Prop :=
  conn.isConnected = true → conn.desiredAssets ⊆ conn.subscribedAssets

theorem announced_started : Announced started where
  within := Finset.Subset.refl _
  silent := nofun
  replayed := fun _ => rfl
  introduced := fun _ => introduced_nil

section Steps

variable {conn : WebSocketConnection} {assetIds : List String}

/-- An open connection sends a subscription in the form that is due. -/
theorem sendSubscription_of_open (isOpen : conn.isConnected = true) (assetIds : List String) :
    ∃ frame : Frame, frame.delta = .add assetIds ∧
      conn.sendSubscription assetIds = { conn with
        hasInitialSubscription := true
        writing := conn.writing ++ [frame] } ∧
      ∀ frames, Introduced frames conn.hasInitialSubscription →
        Introduced (frames ++ [frame]) true := by
  let sub : Connection.SubState :=
    ⟨conn.desiredAssets, conn.subscribedAssets, conn.hasInitialSubscription⟩
  refine ⟨(sub.sendSubscribe assetIds).2, sub.sendSubscribe_delta assetIds, ?_, ?_⟩
  · cases first : conn.hasInitialSubscription with
    | false => simp [sendSubscription, Connection.SubState.sendSubscribe, sub, isOpen, first]
    | true => simp [sendSubscription, Connection.SubState.sendSubscribe, sub, isOpen, first]
  · intro frames introduced
    have before : Introduced frames sub.initialSent := introduced
    have marked : (sub.sendSubscribe assetIds).1.initialSent = true := by
      cases first : conn.hasInitialSubscription with
      | false => simp [Connection.SubState.sendSubscribe, sub, first]
      | true => simp [Connection.SubState.sendSubscribe, sub, first]
    exact marked ▸ before.sendSubscribe assetIds

/-- A connection that has marked some assets as sent announces them. -/
theorem announced_sendSubscription {newAssets : List String}
    (within : conn.subscribedAssets ⊆ conn.desiredAssets)
    (silent : conn.isConnected = false → conn.writing = [])
    (replayed : conn.isConnected = true →
      replay ∅ ((conn.frames ++ conn.writing).map Frame.delta) ∪ newAssets.toFinset =
        conn.subscribedAssets)
    (introduced : conn.isConnected = true →
      Introduced (conn.frames ++ conn.writing) conn.hasInitialSubscription) :
    Announced (conn.sendSubscription newAssets) := by
  cases isOpen : conn.isConnected with
  | false =>
    have closed (impossible : conn.isConnected = true) : False :=
      Bool.false_ne_true (isOpen.symm.trans impossible)
    rw [sendSubscription, if_pos isOpen]
    exact ⟨within, silent, fun opened => (closed opened).elim, fun opened => (closed opened).elim⟩
  | true =>
    obtain ⟨frame, adds, sent, introduces⟩ := sendSubscription_of_open isOpen newAssets
    rw [sent]
    refine ⟨within, fun closed => absurd (isOpen.symm.trans closed) nofun, ?_, ?_⟩
    · intro opened
      rw [← List.append_assoc, List.map_append, Replay.replay_append, List.map_singleton, adds]
      exact replayed opened
    · intro opened
      rw [← List.append_assoc]
      exact introduces _ (introduced opened)

/-- `subscribe` marks the assets that were not sent yet and sends them, if there are any. -/
theorem subscribe_cases (conn : WebSocketConnection) (maxAssets : Nat) (assetIds : List String) :
    ∃ newAssets : List String,
      conn.subscribedAssets ∪ newAssets.toFinset =
        conn.subscribedAssets ∪ (assetIds.take maxAssets).toFinset ∧
      (newAssets = [] ∧ conn.subscribe maxAssets assetIds = { conn with
          desiredAssets := conn.desiredAssets ∪ (assetIds.take maxAssets).toFinset } ∨
        conn.subscribe maxAssets assetIds = sendSubscription newAssets { conn with
          desiredAssets := conn.desiredAssets ∪ (assetIds.take maxAssets).toFinset
          subscribedAssets := conn.subscribedAssets ∪ newAssets.toFinset }) := by
  refine ⟨(assetIds.take maxAssets).filter fun asset => asset ∉ conn.subscribedAssets, ?_, ?_⟩
  · ext asset
    simp only [Finset.mem_union, List.mem_toFinset, List.mem_filter, decide_eq_true_eq]
    tauto
  · simp only [WebSocketConnection.subscribe]
    split
    · rename_i nothing
      exact .inl ⟨List.isEmpty_iff.mp nothing, rfl⟩
    · exact .inr rfl

/-- What `subscribe` does to both sets, and that it announces it. -/
structure Subscribed (conn next : WebSocketConnection) (listed : Finset String) : Prop where
  announced : Announced next
  desiredAssets : next.desiredAssets = conn.desiredAssets ∪ listed
  subscribedAssets : next.subscribedAssets = conn.subscribedAssets ∪ listed
  isConnected : next.isConnected = conn.isConnected

theorem Announced.subscribe (announced : Announced conn) (maxAssets : Nat)
    (assetIds : List String) :
    Subscribed conn (conn.subscribe maxAssets assetIds) (assetIds.take maxAssets).toFinset := by
  obtain ⟨newAssets, covered, nothing | something⟩ := subscribe_cases conn maxAssets assetIds
  · obtain ⟨rfl, same⟩ := nothing
    rw [List.toFinset_nil, Finset.union_empty] at covered
    have within : conn.subscribedAssets ⊆
        conn.desiredAssets ∪ (assetIds.take maxAssets).toFinset :=
      announced.within.trans Finset.subset_union_left
    rw [same]
    exact ⟨⟨within, announced.silent, announced.replayed, announced.introduced⟩, rfl, covered, rfl⟩
  · rw [something]
    refine ⟨announced_sendSubscription ?_ announced.silent ?_ announced.introduced,
      sendSubscription_desiredAssets _ _, ?_, sendSubscription_isConnected _ _⟩
    · simp only
      rw [covered]
      exact Finset.union_subset_union_left announced.within
    · exact fun opened => congrArg (· ∪ newAssets.toFinset) (announced.replayed opened)
    · rw [sendSubscription_subscribedAssets, covered]

/-- What `unsubscribe` does to both sets, and that it announces it. -/
structure Unsubscribed (conn next : WebSocketConnection) (listed : Finset String) : Prop where
  announced : Announced next
  desiredAssets : next.desiredAssets = conn.desiredAssets \ listed
  subscribedAssets : next.subscribedAssets = conn.subscribedAssets \ listed
  isConnected : next.isConnected = conn.isConnected

theorem Announced.unsubscribe (announced : Announced conn) (assetIds : List String) :
    Unsubscribed conn (conn.unsubscribe assetIds) assetIds.toFinset := by
  obtain ⟨dropped, folded, covered⟩ := foldl_unsubscribeAsset conn assetIds []
  have gone : conn.subscribedAssets \ dropped.toFinset =
      conn.subscribedAssets \ assetIds.toFinset := by
    ext asset
    rw [covered, Finset.mem_sdiff, Finset.mem_inter, Finset.mem_sdiff]
    have within := @announced.within asset
    tauto
  have within : conn.subscribedAssets \ dropped.toFinset ⊆
      conn.desiredAssets \ assetIds.toFinset := by
    rw [gone]
    exact Finset.sdiff_subset_sdiff announced.within (Finset.Subset.refl _)
  simp only [WebSocketConnection.unsubscribe, folded, List.nil_append]
  split
  · rename_i nothing
    have kept : conn.subscribedAssets \ dropped.toFinset = conn.subscribedAssets := by
      rw [List.isEmpty_iff.mp nothing, List.toFinset_nil, Finset.sdiff_empty]
    refine ⟨⟨within, announced.silent, ?_, announced.introduced⟩, rfl, gone, rfl⟩
    intro opened
    rw [announced.replayed opened, kept]
  · unfold sendUnsubscription
    split
    · rename_i closed
      exact ⟨⟨within, announced.silent, fun opened => absurd (closed.symm.trans opened) nofun,
        fun opened => absurd (closed.symm.trans opened) nofun⟩, rfl, gone, rfl⟩
    · rename_i isOpen
      refine ⟨⟨within, fun closed => absurd closed isOpen, ?_, ?_⟩, rfl, gone, rfl⟩
      · intro opened
        rw [← List.append_assoc, List.map_append, Replay.replay_append, announced.replayed opened]
        rfl
      · intro opened
        rw [← List.append_assoc]
        exact (announced.introduced opened).unsubscribe dropped

/-- A reconnect announces as much of what is wanted as goes into one call. -/
theorem Announced.reconnect (maxAssets : Nat) (order : assetIds.toFinset = conn.desiredAssets) :
    Announced (conn.reconnect maxAssets assetIds) ∧
      (conn.reconnect maxAssets assetIds).desiredAssets = conn.desiredAssets ∧
      (conn.reconnect maxAssets assetIds).subscribedAssets =
        (assetIds.take maxAssets).toFinset := by
  have fresh : Announced { conn with
      subscribedAssets := ∅
      hasInitialSubscription := false
      isConnected := true
      writing := []
      frames := [] } :=
    ⟨Finset.empty_subset _, nofun, fun _ => rfl, fun _ => introduced_nil⟩
  have taken : (assetIds.take maxAssets).toFinset ⊆ conn.desiredAssets := by
    intro asset member
    rw [← order, List.mem_toFinset]
    exact List.mem_of_mem_take (List.mem_toFinset.mp member)
  unfold WebSocketConnection.reconnect
  simp only
  split
  · rename_i nothing
    refine ⟨⟨fresh.within, fresh.silent, fresh.replayed, fresh.introduced⟩, rfl, ?_⟩
    exact (Finset.subset_empty.mp (nothing ▸ taken)).symm
  · obtain ⟨announced, desired, subscribed, -⟩ := fresh.subscribe maxAssets assetIds
    refine ⟨⟨announced.within, announced.silent, announced.replayed, announced.introduced⟩, ?_, ?_⟩
    · exact desired.trans (Finset.union_eq_left.mpr taken)
    · exact subscribed.trans (Finset.empty_union _)

/-- Every step keeps to what is announced. -/
theorem Announced.step {maxAssets : Nat} {next : WebSocketConnection} {action : Action}
    (taken : conn.step maxAssets action = some next) (announced : Announced conn) :
    Announced next := by
  cases action with
  | subscribe assetIds =>
    obtain rfl := Option.some.inj taken
    exact (announced.subscribe maxAssets assetIds).announced
  | unsubscribe assetIds =>
    obtain rfl := Option.some.inj taken
    exact (announced.unsubscribe assetIds).announced
  | written =>
    simp only [WebSocketConnection.step] at taken
    split at taken
    · exact absurd taken nofun
    · rename_i frame rest waiting
      obtain rfl := Option.some.inj taken
      have same : conn.frames ++ [frame] ++ rest = conn.frames ++ conn.writing := by
        rw [waiting, List.append_assoc, List.singleton_append]
      refine ⟨announced.within, ?_, ?_, ?_⟩
      · exact fun closed => absurd (waiting.symm.trans (announced.silent closed)) nofun
      · intro opened
        rw [same]
        exact announced.replayed opened
      · intro opened
        rw [same]
        exact announced.introduced opened
  | closed =>
    obtain ⟨-, rfl⟩ := Runs.guarded taken
    exact ⟨announced.within, fun _ => rfl, nofun, nofun⟩
  | listenEnds pongTimedOut =>
    obtain ⟨-, rfl⟩ := Runs.guarded taken
    exact ⟨announced.within, announced.silent, announced.replayed, announced.introduced⟩
  | delayEnds =>
    obtain ⟨-, rfl⟩ := Runs.guarded taken
    exact ⟨announced.within, announced.silent, announced.replayed, announced.introduced⟩
  | connectSucceeds assetIds =>
    obtain ⟨⟨-, -, order⟩, rfl⟩ := Runs.guarded taken
    exact (Announced.reconnect maxAssets order).1
  | connectFails =>
    obtain ⟨-, rfl⟩ := Runs.guarded taken
    exact ⟨announced.within, announced.silent, announced.replayed, announced.introduced⟩
  | subscribed =>
    obtain ⟨-, rfl⟩ := Runs.guarded taken
    exact ⟨announced.within, announced.silent, announced.replayed, announced.introduced⟩

theorem Complete.subscribe (complete : Complete conn) (announced : Announced conn)
    (maxAssets : Nat) (assetIds : List String) : Complete (conn.subscribe maxAssets assetIds) := by
  obtain ⟨-, desired, subscribed, isConnected⟩ := announced.subscribe maxAssets assetIds
  intro opened
  rw [desired, subscribed]
  exact Finset.union_subset_union_left (complete (isConnected.symm.trans opened))

theorem Complete.unsubscribe (complete : Complete conn) (announced : Announced conn)
    (assetIds : List String) : Complete (conn.unsubscribe assetIds) := by
  obtain ⟨-, desired, subscribed, isConnected⟩ := announced.unsubscribe assetIds
  intro opened
  rw [desired, subscribed]
  exact Finset.sdiff_subset_sdiff (complete (isConnected.symm.trans opened))
    (Finset.Subset.refl _)

/-- A reconnect can name everything wanted in one message. -/
def Fits (maxAssets : Nat) (conn : WebSocketConnection) : Action → Prop
  | .connectSucceeds _ => conn.desiredAssets.card ≤ maxAssets
  | _ => True

/-- Every step sends what it wants as long as reconnects fit. -/
theorem Complete.step {maxAssets : Nat} {next : WebSocketConnection} {action : Action}
    (fits : Fits maxAssets conn action) (taken : conn.step maxAssets action = some next)
    (announced : Announced conn) (complete : Complete conn) : Complete next := by
  cases action with
  | subscribe assetIds =>
    obtain rfl := Option.some.inj taken
    exact complete.subscribe announced maxAssets assetIds
  | unsubscribe assetIds =>
    obtain rfl := Option.some.inj taken
    exact complete.unsubscribe announced assetIds
  | written =>
    simp only [WebSocketConnection.step] at taken
    split at taken
    · exact absurd taken nofun
    · obtain rfl := Option.some.inj taken
      exact complete
  | closed =>
    obtain ⟨-, rfl⟩ := Runs.guarded taken
    exact nofun
  | listenEnds pongTimedOut =>
    obtain ⟨-, rfl⟩ := Runs.guarded taken
    exact complete
  | delayEnds =>
    obtain ⟨-, rfl⟩ := Runs.guarded taken
    exact complete
  | connectSucceeds assetIds =>
    obtain ⟨⟨-, distinct, order⟩, rfl⟩ := Runs.guarded taken
    obtain ⟨-, desired, subscribed⟩ := Announced.reconnect maxAssets order
    have short : assetIds.length ≤ maxAssets := by
      rw [← List.toFinset_card_of_nodup distinct, order]
      exact fits
    intro _
    rw [desired, subscribed, List.take_of_length_le short, order]
  | connectFails =>
    obtain ⟨-, rfl⟩ := Runs.guarded taken
    exact complete
  | subscribed =>
    obtain ⟨-, rfl⟩ := Runs.guarded taken
    exact complete

/-- A reconnect is complete just when it fits. -/
theorem reconnect_complete_iff {maxAssets : Nat} {next : WebSocketConnection}
    (taken : conn.step maxAssets (.connectSucceeds assetIds) = some next) :
    next.subscribedAssets = next.desiredAssets ↔ conn.desiredAssets.card ≤ maxAssets := by
  obtain ⟨⟨-, distinct, order⟩, rfl⟩ := Runs.guarded taken
  obtain ⟨-, desired, subscribed⟩ := Announced.reconnect maxAssets order
  rw [desired, subscribed, ← order, List.toFinset_card_of_nodup distinct]
  constructor
  · intro same
    have sizes := congrArg Finset.card same
    have shorter : (assetIds.take maxAssets).Nodup := distinct.sublist (List.take_sublist _ _)
    rw [List.toFinset_card_of_nodup shorter, List.toFinset_card_of_nodup distinct,
      List.length_take] at sizes
    omega
  · intro fits
    rw [List.take_of_length_le fits]

end Steps

/-- Through any calls, closed sockets, messages that are lost and reconnects: the messages of an
open session add up to what the connection takes for sent, the first subscription has the
introducing form, and nothing unwanted is sent. Everything wanted is sent as long as no reconnect
finds more wanted than one call takes, and a reconnect that does leaves something out. -/
theorem desired_assets_survive {maxAssets : Nat} {actions : List Action}
    {conn : WebSocketConnection}
    (completed : Runs.run (WebSocketConnection.step maxAssets) started actions = some conn) :
    (conn.isConnected = true →
      MarketFirst (conn.frames ++ conn.writing) ∧
        replay ∅ ((conn.frames ++ conn.writing).map Frame.delta) = conn.subscribedAssets ∧
        conn.subscribedAssets ⊆ conn.desiredAssets ∧
        (Runs.Along (WebSocketConnection.step maxAssets) (Fits maxAssets) started actions →
          conn.subscribedAssets = conn.desiredAssets)) ∧
      ∀ assetIds next, conn.step maxAssets (.connectSucceeds assetIds) = some next →
        (next.subscribedAssets = next.desiredAssets ↔ conn.desiredAssets.card ≤ maxAssets) := by
  have announced : Announced conn := Runs.invariant
    (fun _ _ _ taken before => Announced.step taken before) completed announced_started
  refine ⟨?_, fun assetIds next taken => reconnect_complete_iff taken⟩
  intro isOpen
  refine ⟨(announced.introduced isOpen).marketFirst, announced.replayed isOpen, announced.within,
    ?_⟩
  intro along
  have initially : Announced started ∧ Complete started :=
    ⟨announced_started, fun _ => Finset.Subset.refl _⟩
  have kept (state : WebSocketConnection) (action : Action) (next : WebSocketConnection)
      (fits : Fits maxAssets state action) (taken : state.step maxAssets action = some next)
      (before : Announced state ∧ Complete state) : Announced next ∧ Complete next :=
    ⟨before.1.step taken, before.2.step fits taken before.1⟩
  obtain ⟨-, complete⟩ := Runs.invariant_along kept along completed initially
  exact announced.within.antisymm (complete isOpen)

/-- Two assets are subscribed to, the socket closes while one of them is dropped, and the other
one is announced again. -/
def sampleActions : List Action :=
  [.subscribe ["a", "b"], .written, .closed, .unsubscribe ["a"], .listenEnds false, .delayEnds,
    .connectFails, .listenEnds true, .connectSucceeds ["b"], .written, .subscribed]

/-- Where those steps end. -/
def sampleConnection : WebSocketConnection where
  desiredAssets := {"b"}
  subscribedAssets := {"b"}
  hasInitialSubscription := true
  isConnected := true
  run := .listening
  writing := []
  frames := [.market ["b"]]

theorem sample_assets_survive :
    replay ∅ (sampleConnection.frames.map Frame.delta) = sampleConnection.subscribedAssets := by
  have completed : Runs.run (WebSocketConnection.step 2) started sampleActions =
      some sampleConnection := by
    decide +kernel
  obtain ⟨survives, -⟩ := desired_assets_survive completed
  obtain ⟨-, announced, -⟩ := survives rfl
  exact announced

end Collector.Subscriptions
