import Collector.ClientBounds
import Collector.Subscriptions

/-!
# The Python client and the sessions of its connections

The client decides which connection gets the assets of a market and tells the connections one
after another. Each of them has a socket that closes when it likes and a task that connects again.
How many assets a connection is given is decided from what the client knows before its first
await, and a reconnect can only name so many of them.

A start that has connected is a connection with a session already, before the client knows it. The
client is told in advance whether the message of a step will be sent; the message itself is one
of those that its connection has under way.
-/

namespace Collector.ClientSessions

open Connection (Frame MarketFirst)
open OrderBookClient (AssetLists Bounded Client Harmless)
open Replay (replay)
open Subscriptions (Announced Complete WebSocketConnection)

/-- The client, and the connections by id as their sockets know them. -/
structure System where
  client : Client
  sessions : Nat → Option WebSocketConnection

/-- A start has connected; the client takes a step; something happens in a session. -/
inductive Action where
  | opened (connId : Nat)
  | client (action : OrderBookClient.Action)
  | session (connId : Nat) (action : Subscriptions.Action)

/-- A client before its first call. -/
def new : System where
  client := OrderBookClient.new
  sessions := fun _ => none

/-- What `run`, the socket and the server do, the client aside. -/
def own : Subscriptions.Action → Bool
  | .subscribe _ | .unsubscribe _ => false
  | _ => true

namespace System

/-- Change the session of a connection. -/
def update (sessions : Nat → Option WebSocketConnection) (connId : Nat)
    (change : WebSocketConnection → WebSocketConnection) : Nat → Option WebSocketConnection :=
  Function.update sessions connId ((sessions connId).map change)

/-- What a step of the client makes its connections do. Starting a connection ends after it has
connected or never did; a connection that is dropped is closed. -/
def tell (maxAssets : Nat) (system : System) :
    OrderBookClient.Action → Option (Nat → Option WebSocketConnection)
  | .subscribeNext _ =>
    match system.client.call with
    | .subscribing ((connId, assets) :: _) _ =>
      some (update system.sessions connId (·.subscribe maxAssets assets))
    | _ => some system.sessions
  | .connected connId _ => do
    let task ← system.client.starting.find? fun task => task.1 = connId
    if (system.sessions connId).isSome then
      some (update system.sessions connId (·.subscribe maxAssets task.2))
    else none
  | .startFails connId => if (system.sessions connId).isNone then some system.sessions else none
  | .unsubscribeNext _ =>
    match system.client.call with
    | .unsubscribing ((connId, assets) :: _) _ =>
      some (update system.sessions connId (·.unsubscribe assets))
    | _ => some system.sessions
  | .collectNext =>
    match system.client.call with
    | .unsubscribing [] (connId :: _) =>
      if system.client.connections.any fun conn =>
          conn.connId = connId ∧ conn.desiredAssets = ∅ then
        some (Function.update system.sessions connId none)
      else some system.sessions
    | _ => some system.sessions
  | _ => some system.sessions

def step (maxAssets : Nat) (system : System) : Action → Option System
  | .opened connId =>
    if connId ∈ system.client.starting.map Prod.fst ∧ system.sessions connId = none then
      some { system with sessions := Function.update system.sessions connId (some .started) }
    else none
  | .client action => do
    let client ← OrderBookClient.step maxAssets system.client action
    let sessions ← system.tell maxAssets action
    some ⟨client, sessions⟩
  | .session connId action =>
    if own action then do
      let session ← system.sessions connId
      let next ← session.step maxAssets action
      some { system with sessions := Function.update system.sessions connId (some next) }
    else none

end System

/-- The ids of the connections and of those being started. -/
def ids (client : Client) : List Nat :=
  client.connections.map OrderBookClient.WebSocketConnection.connId ++
    client.starting.map Prod.fst

/-- The client and the session with an id agree on what is wanted, and the session announces it
while it is open. -/
structure Agrees (client : Client) (connId : Nat) (present : Option WebSocketConnection) :
    Prop where
  held : ∀ conn ∈ client.connections, conn.connId = connId →
    ∃ session, present = some session ∧ session.desiredAssets = conn.desiredAssets
  starting : connId ∈ client.starting.map Prod.fst → ∀ session, present = some session →
    session.desiredAssets = ∅
  known : ∀ session, present = some session → connId ∈ ids client
  announced : ∀ session, present = some session → Announced session ∧ Complete session

/-- Without a session, there is no connection either. -/
theorem agrees_absent {client : Client} {connId : Nat}
    (gone : ∀ conn ∈ client.connections, conn.connId ≠ connId) : Agrees client connId none where
  held := fun conn member same => absurd same (gone conn member)
  starting := nofun
  known := nofun
  announced := nofun

/-- What holds between any two steps. -/
structure Coupled (maxAssets : Nat) (system : System) : Prop where
  bounded : Bounded maxAssets system.client
  agrees : ∀ connId, Agrees system.client connId (system.sessions connId)

theorem coupled_new (maxAssets : Nat) : Coupled maxAssets new where
  bounded := OrderBookClient.bounded_new maxAssets
  agrees := fun _ => agrees_absent nofun

section Coupling

variable {maxAssets : Nat} {system : System} {client next : Client} {connId : Nat}

/-- What the client changes elsewhere is no concern of a session. -/
theorem Agrees.elsewhere {present : Option WebSocketConnection}
    (agrees : Agrees client connId present)
    (conns : ∀ conn ∈ next.connections, conn.connId = connId → conn ∈ client.connections)
    (starts : connId ∈ next.starting.map Prod.fst →
      connId ∈ client.starting.map Prod.fst ∨ present = none)
    (kept : connId ∈ ids client → connId ∈ ids next ∨ present = none) :
    Agrees next connId present where
  held := fun conn member same => agrees.held conn (conns conn member same) same
  starting := by
    intro isStart session isPresent
    cases starts isStart with
    | inl wasStart => exact agrees.starting wasStart session isPresent
    | inr absent => cases absent.symm.trans isPresent
  known := by
    intro session isPresent
    cases kept (agrees.known session isPresent) with
    | inl given => exact given
    | inr absent => cases absent.symm.trans isPresent
  announced := agrees.announced

/-- One session changes, and the client may with it. -/
theorem Coupled.change {present : Option WebSocketConnection}
    (bounded : Bounded maxAssets next) (here : Agrees next connId present)
    (elsewhere : ∀ other, other ≠ connId → Agrees next other (system.sessions other)) :
    Coupled maxAssets ⟨next, Function.update system.sessions connId present⟩ where
  bounded := bounded
  agrees := by
    intro other
    change Agrees next other (Function.update system.sessions connId present other)
    by_cases same : other = connId
    · rw [same, Function.update_self]
      exact here
    · rw [Function.update_of_ne same]
      exact elsewhere other same

/-- An id names a connection or a start, not both. -/
theorem Coupled.apart (coupled : Coupled maxAssets system)
    (isConn : connId ∈ system.client.connections.map OrderBookClient.WebSocketConnection.connId)
    (isStart : connId ∈ system.client.starting.map Prod.fst) : False :=
  (List.nodup_append.mp coupled.bounded.distinct).2.2 connId isConn connId isStart rfl

/-- What the client does not do leaves the wanted assets alone. -/
theorem own_desiredAssets {session after : WebSocketConnection} {action : Subscriptions.Action}
    (isOwn : own action = true) (taken : session.step maxAssets action = some after) :
    after.desiredAssets = session.desiredAssets := by
  cases action with
  | subscribe assetIds => cases isOwn
  | unsubscribe assetIds => cases isOwn
  | written =>
    simp only [WebSocketConnection.step] at taken
    split at taken
    · cases taken
    · obtain rfl := Option.some.inj taken
      rfl
  | connectSucceeds assetIds =>
    obtain ⟨⟨-, -, order⟩, rfl⟩ := Runs.guarded taken
    exact (Announced.reconnect maxAssets order).2.1
  | closed | listenEnds | delayEnds | connectFails | subscribed =>
    obtain ⟨-, rfl⟩ := Runs.guarded taken
    rfl

/-- A connection wants no more than it may hold. -/
theorem Coupled.fits (coupled : Coupled maxAssets system) {session : WebSocketConnection}
    (present : system.sessions connId = some session) :
    session.desiredAssets.card ≤ maxAssets := by
  have agrees := coupled.agrees connId
  cases List.mem_append.mp (agrees.known session present) with
  | inl isConn =>
    obtain ⟨conn, member, sameId⟩ := List.mem_map.mp isConn
    obtain ⟨same, isSame, wants⟩ := agrees.held conn member sameId
    obtain rfl := Option.some.inj (isSame.symm.trans present)
    rw [wants]
    exact (Nat.le_add_right _ _).trans (coupled.bounded.fits conn member)
  | inr isStart =>
    rw [agrees.starting isStart session present]
    exact Nat.zero_le _

theorem Coupled.opened (coupled : Coupled maxAssets system)
    (isStart : connId ∈ system.client.starting.map Prod.fst) :
    Coupled maxAssets
      ⟨system.client, Function.update system.sessions connId (some .started)⟩ := by
  apply Coupled.change coupled.bounded _ fun other _ => coupled.agrees other
  constructor
  · intro conn member same
    exact (coupled.apart (List.mem_map_of_mem member) (same ▸ isStart)).elim
  · intro _ session isStarted
    obtain rfl := Option.some.inj isStarted
    rfl
  · exact fun _ _ => List.mem_append_right _ isStart
  · intro session isStarted
    obtain rfl := Option.some.inj isStarted
    exact ⟨Subscriptions.announced_started, fun _ => Finset.Subset.refl _⟩

theorem Coupled.session (coupled : Coupled maxAssets system) {session after : WebSocketConnection}
    {action : Subscriptions.Action} (isOwn : own action = true)
    (present : system.sessions connId = some session)
    (taken : session.step maxAssets action = some after) :
    Coupled maxAssets
      ⟨system.client, Function.update system.sessions connId (some after)⟩ := by
  have wants := own_desiredAssets isOwn taken
  have fits : Subscriptions.Fits maxAssets session action := by
    cases action with
    | connectSucceeds assetIds => exact coupled.fits present
    | _ => trivial
  have agrees := coupled.agrees connId
  obtain ⟨announced, complete⟩ := agrees.announced session present
  apply Coupled.change coupled.bounded _ fun other _ => coupled.agrees other
  constructor
  · intro conn member same
    obtain ⟨before, wasPresent, desired⟩ := agrees.held conn member same
    obtain rfl := Option.some.inj (present.symm.trans wasPresent)
    exact ⟨after, rfl, wants.trans desired⟩
  · intro isStart other isAfter
    obtain rfl := Option.some.inj isAfter
    exact wants.trans (agrees.starting isStart session present)
  · exact fun _ _ => agrees.known session present
  · intro other isAfter
    obtain rfl := Option.some.inj isAfter
    exact ⟨announced.step taken, complete.step fits taken announced⟩

/-- What the client tells a connection reaches its session. -/
theorem Agrees.told {present : Option WebSocketConnection} (agrees : Agrees client connId present)
    {change : WebSocketConnection → WebSocketConnection}
    {changeConn : OrderBookClient.WebSocketConnection → OrderBookClient.WebSocketConnection}
    (wants : ∀ session conn, Announced session → session.desiredAssets = conn.desiredAssets →
      (change session).desiredAssets = (changeConn conn).desiredAssets)
    (keeps : ∀ conn, (changeConn conn).connId = conn.connId)
    (announces : ∀ session, Announced session → Complete session →
      Announced (change session) ∧ Complete (change session))
    (starts : connId ∈ client.starting.map Prod.fst → ∀ session, Announced session →
      session.desiredAssets = ∅ → (change session).desiredAssets = ∅)
    (call : OrderBookClient.Call) :
    Agrees { client with
      connections := OrderBookClient.updateConn connId changeConn client.connections
      call := call } connId (present.map change) where
  held := by
    intro conn member isIt
    obtain ⟨before, wasThere, rfl⟩ := List.mem_map.mp member
    split
    · rename_i same
      obtain ⟨session, isPresent, desired⟩ := agrees.held before wasThere same
      refine ⟨change session, ?_, ?_⟩
      · rw [isPresent, Option.map_some]
      · exact wants session before (agrees.announced session isPresent).1 desired
    · rename_i different
      rw [if_neg different] at isIt
      exact absurd isIt different
  starting := by
    intro isStart after isAfter
    obtain ⟨session, isPresent, rfl⟩ := Option.map_eq_some_iff.mp isAfter
    exact starts isStart session (agrees.announced session isPresent).1
      (agrees.starting isStart session isPresent)
  known := by
    intro after isAfter
    obtain ⟨session, isPresent, rfl⟩ := Option.map_eq_some_iff.mp isAfter
    rw [ids, OrderBookClient.map_connId_updateConn connId changeConn client.connections keeps]
    exact agrees.known session isPresent
  announced := by
    intro after isAfter
    obtain ⟨session, isPresent, rfl⟩ := Option.map_eq_some_iff.mp isAfter
    obtain ⟨announced, complete⟩ := agrees.announced session isPresent
    exact announces session announced complete

/-- Telling one connection leaves the other sessions alone. -/
theorem Agrees.untold {other : Nat} (agrees : Agrees client other (system.sessions other))
    (different : other ≠ connId)
    (changeConn : OrderBookClient.WebSocketConnection → OrderBookClient.WebSocketConnection)
    (keeps : ∀ conn, (changeConn conn).connId = conn.connId) (call : OrderBookClient.Call) :
    Agrees { client with
      connections := OrderBookClient.updateConn connId changeConn client.connections
      call := call } other (system.sessions other) := by
  apply agrees.elsewhere
  · intro conn member isIt
    obtain ⟨before, wasThere, rfl⟩ := List.mem_map.mp member
    split
    · rename_i same
      rw [if_pos same, keeps] at isIt
      exact absurd (isIt.symm.trans same) different
    · exact wasThere
  · exact .inl
  · intro given
    rw [ids, OrderBookClient.map_connId_updateConn connId changeConn client.connections keeps]
    exact .inl given

theorem Coupled.subscribeNext (coupled : Coupled maxAssets system) {assets : List String}
    {rest : AssetLists} {newSlots : List (List String)}
    (calling : system.client.call = .subscribing ((connId, assets) :: rest) newSlots) :
    Coupled maxAssets ⟨{ system.client with
        connections := OrderBookClient.updateConn connId (·.subscribe maxAssets assets)
          system.client.connections
        call := .subscribing rest newSlots },
      System.update system.sessions connId (·.subscribe maxAssets assets)⟩ := by
  have isConn : connId ∈
      system.client.connections.map OrderBookClient.WebSocketConnection.connId := by
    apply coupled.bounded.pendingHeld
    rw [calling]
    exact List.mem_cons_self
  apply Coupled.change (coupled.bounded.subscribeNext calling)
  · apply (coupled.agrees connId).told
    · intro session conn announced same
      rw [(announced.subscribe maxAssets assets).desiredAssets, same]
      rfl
    · exact fun _ => rfl
    · intro session announced complete
      exact ⟨(announced.subscribe maxAssets assets).announced,
        complete.subscribe announced maxAssets assets⟩
    · exact fun isStart => (coupled.apart isConn isStart).elim
  · exact fun other different => (coupled.agrees other).untold different
      (·.subscribe maxAssets assets) (fun _ => rfl) _

theorem Coupled.unsubscribeNext (coupled : Coupled maxAssets system) (assets : List String)
    {call : OrderBookClient.Call} (nothing : call.pending = []) :
    Coupled maxAssets ⟨{ system.client with
        connections := OrderBookClient.updateConn connId (·.unsubscribe assets)
          system.client.connections
        call := call },
      System.update system.sessions connId (·.unsubscribe assets)⟩ := by
  apply Coupled.change (coupled.bounded.unsubscribeNext nothing)
  · apply (coupled.agrees connId).told
    · intro session conn announced same
      rw [(announced.unsubscribe assets).desiredAssets, same]
      rfl
    · exact fun _ => rfl
    · intro session announced complete
      exact ⟨(announced.unsubscribe assets).announced, complete.unsubscribe announced assets⟩
    · intro _ session announced nothingWanted
      rw [(announced.unsubscribe assets).desiredAssets, nothingWanted, Finset.empty_sdiff]
  · exact fun other different => (coupled.agrees other).untold different
      (·.unsubscribe assets) (fun _ => rfl) _

/-- A start that has connected takes its slot. -/
theorem Coupled.connected (coupled : Coupled maxAssets system) {task : Nat × List String}
    (found : system.client.starting.find? (fun task => task.1 = connId) = some task)
    {session : WebSocketConnection} (present : system.sessions connId = some session) :
    Coupled maxAssets ⟨{ system.client with
        connections := system.client.connections ++
          [OrderBookClient.WebSocketConnection.subscribe maxAssets task.2 ⟨connId, ∅⟩]
        starting := system.client.starting.filter fun other => other.1 ≠ connId
        call := system.client.call.finish connId },
      System.update system.sessions connId (·.subscribe maxAssets task.2)⟩ := by
  have mine : task.1 = connId := by simpa using List.find?_some found
  have isStart : connId ∈ system.client.starting.map Prod.fst :=
    mine ▸ List.mem_map_of_mem (List.mem_of_find?_eq_some found)
  have agrees := coupled.agrees connId
  obtain ⟨announced, complete⟩ := agrees.announced session present
  have told := announced.subscribe maxAssets task.2
  apply Coupled.change (coupled.bounded.connected found)
  · rw [present, Option.map_some]
    constructor
    · intro conn member same
      cases List.mem_append.mp member with
      | inl old => exact (coupled.apart (same ▸ List.mem_map_of_mem old) isStart).elim
      | inr new =>
        refine ⟨_, rfl, ?_⟩
        rw [List.mem_singleton.mp new, told.desiredAssets,
          agrees.starting isStart session present]
        rfl
    · intro again
      obtain ⟨entry, kept, isIt⟩ := List.mem_map.mp again
      exact absurd isIt (of_decide_eq_true (List.mem_filter.mp kept).2)
    · intro after _
      rw [ids, List.map_append]
      exact List.mem_append_left _ (List.mem_append_right _ List.mem_cons_self)
    · intro after isAfter
      obtain rfl := Option.some.inj isAfter
      exact ⟨told.announced, complete.subscribe announced maxAssets task.2⟩
  · intro other different
    apply (coupled.agrees other).elsewhere
    · intro conn member isIt
      cases List.mem_append.mp member with
      | inl old => exact old
      | inr new =>
        rw [List.mem_singleton.mp new] at isIt
        exact absurd isIt.symm different
    · intro still
      obtain ⟨entry, kept, rfl⟩ := List.mem_map.mp still
      exact .inl (List.mem_map_of_mem (List.mem_of_mem_filter kept))
    · intro given
      rw [ids, List.map_append]
      cases List.mem_append.mp given with
      | inl isConn => exact .inl (List.mem_append_left _ (List.mem_append_left _ isConn))
      | inr start =>
        obtain ⟨entry, member, rfl⟩ := List.mem_map.mp start
        exact .inl (List.mem_append_right _
          (List.mem_map_of_mem (List.mem_filter.mpr ⟨member, decide_eq_true different⟩)))

/-- Starts that are over without a session, and starts to come, concern no session. -/
theorem Coupled.silent (coupled : Coupled maxAssets system) (bounded : Bounded maxAssets next)
    (conns : next.connections = system.client.connections)
    (starts : ∀ connId ∈ next.starting.map Prod.fst,
      connId ∈ system.client.starting.map Prod.fst ∨ system.sessions connId = none)
    (kept : ∀ connId ∈ system.client.starting.map Prod.fst,
      connId ∈ next.starting.map Prod.fst ∨ system.sessions connId = none) :
    Coupled maxAssets ⟨next, system.sessions⟩ where
  bounded := bounded
  agrees := by
    intro connId
    apply (coupled.agrees connId).elsewhere
    · intro conn member _
      exact conns ▸ member
    · exact starts connId
    · intro given
      cases List.mem_append.mp given with
      | inl isConn => exact .inl (List.mem_append_left _ (conns ▸ isConn))
      | inr isStart => exact (kept connId isStart).imp (List.mem_append_right _) id

/-- No id that is still to be given out has a session. -/
theorem Coupled.unused (coupled : Coupled maxAssets system)
    (later : system.client.nextConnId ≤ connId) : system.sessions connId = none := by
  cases present : system.sessions connId with
  | none => rfl
  | some session =>
    have given := (coupled.agrees connId).known session present
    exact absurd (coupled.bounded.numbered connId given) (Nat.not_lt.mpr later)

theorem Coupled.nextBatch (coupled : Coupled maxAssets system) (newSlots : List (List String)) :
    Coupled maxAssets ⟨system.client.nextBatch newSlots, system.sessions⟩ := by
  have bounded := coupled.bounded.nextBatch newSlots
  unfold Client.nextBatch at bounded ⊢
  split
  · rename_i nothing
    rw [if_pos nothing] at bounded
    exact coupled.silent bounded rfl (fun _ => .inl) fun _ => .inl
  · rename_i something
    rw [if_neg something] at bounded
    apply coupled.silent bounded rfl
    · intro connId isStart
      rw [List.map_append] at isStart
      cases List.mem_append.mp isStart with
      | inl old => exact .inl old
      | inr new =>
        obtain ⟨entry, zipped, rfl⟩ := List.mem_map.mp new
        have inRange := (List.of_mem_zip zipped).1
        exact .inr (coupled.unused (List.mem_range'_1.mp inRange).1)
    · intro connId isStart
      rw [List.map_append]
      exact .inl (List.mem_append_left _ isStart)

/-- Dropping a connection without assets closes its session. -/
theorem Coupled.collectNext (coupled : Coupled maxAssets system)
    (taken : OrderBookClient.step maxAssets system.client .collectNext = some next)
    {sessions : Nat → Option WebSocketConnection}
    (told : system.tell maxAssets .collectNext = some sessions) :
    Coupled maxAssets ⟨next, sessions⟩ := by
  have bounded := coupled.bounded.step taken
  simp only [OrderBookClient.step, System.tell] at taken told
  split at taken
  · rename_i connId rest calling
    obtain rfl := Option.some.inj taken
    rw [calling] at told
    simp only at told
    split at told
    · rename_i dropped
      obtain rfl := Option.some.inj told
      obtain ⟨gone, wasConn, isGone⟩ := List.any_eq_true.mp dropped
      obtain ⟨sameId, empty⟩ := of_decide_eq_true isGone
      apply Coupled.change bounded
      · apply agrees_absent
        intro conn member isIt
        obtain ⟨wasThere, kept⟩ := List.mem_filter.mp member
        have distinct := (List.nodup_append.mp coupled.bounded.distinct).1
        obtain rfl := List.inj_on_of_nodup_map distinct wasThere wasConn (isIt.trans sameId.symm)
        exact absurd ⟨sameId, empty⟩ (of_decide_eq_true kept)
      · intro other different
        apply (coupled.agrees other).elsewhere
        · exact fun conn member _ => List.mem_of_mem_filter member
        · exact fun isStart => .inl isStart
        · intro given
          cases List.mem_append.mp given with
          | inl isConn =>
            obtain ⟨conn, member, rfl⟩ := List.mem_map.mp isConn
            refine .inl (List.mem_append_left _ (List.mem_map_of_mem ?_))
            exact List.mem_filter.mpr ⟨member, decide_eq_true fun both => different both.1⟩
          | inr isStart => exact .inl (List.mem_append_right _ isStart)
    · rename_i nobody
      obtain rfl := Option.some.inj told
      apply coupled.silent bounded _ (fun _ => .inl) fun _ => .inl
      refine List.filter_eq_self.mpr fun conn member => decide_eq_true fun both => nobody ?_
      exact List.any_eq_true.mpr ⟨conn, member, decide_eq_true both⟩
  · rename_i calling
    obtain rfl := Option.some.inj taken
    rw [calling] at told
    obtain rfl := Option.some.inj told
    exact coupled.silent bounded rfl (fun _ => .inl) fun _ => .inl
  · cases taken

/-- Every step keeps the client and the sessions together. -/
theorem Coupled.step {after : System} {action : Action}
    (taken : system.step maxAssets action = some after) (coupled : Coupled maxAssets system) :
    Coupled maxAssets after := by
  cases action with
  | opened connId =>
    obtain ⟨⟨isStart, -⟩, rfl⟩ := Runs.guarded taken
    exact coupled.opened isStart
  | session connId action =>
    obtain ⟨isOwn, taken⟩ := Option.ite_none_right_eq_some.mp taken
    obtain ⟨session, present, taken⟩ := Option.bind_eq_some_iff.mp taken
    obtain ⟨next, stepped, same⟩ := Option.bind_eq_some_iff.mp taken
    obtain rfl := Option.some.inj same
    exact coupled.session isOwn present stepped
  | client action =>
    obtain ⟨next, moved, rest⟩ := Option.bind_eq_some_iff.mp taken
    obtain ⟨sessions, told, same⟩ := Option.bind_eq_some_iff.mp rest
    obtain rfl := Option.some.inj same
    have bounded := coupled.bounded.step moved
    cases action with
    | collectNext => exact coupled.collectNext moved told
    | subscribeMarkets markets | unsubscribeMarkets markets =>
      obtain rfl := Option.some.inj told
      simp only [OrderBookClient.step] at moved
      split at moved
      · obtain rfl := Option.some.inj moved
        exact coupled.silent bounded rfl (fun _ => .inl) fun _ => .inl
      · cases moved
    | nextSlots =>
      obtain rfl := Option.some.inj told
      simp only [OrderBookClient.step] at moved
      split at moved
      · obtain rfl := Option.some.inj moved
        exact coupled.nextBatch _
      · obtain rfl := Option.some.inj moved
        exact coupled.nextBatch _
      · cases moved
    | subscribeNext sent =>
      simp only [OrderBookClient.step, System.tell] at moved told
      split at moved
      · rename_i connId assets rest newSlots calling
        obtain rfl := Option.some.inj moved
        rw [calling] at told
        obtain rfl := Option.some.inj told
        exact coupled.subscribeNext calling
      · cases moved
    | unsubscribeNext sent =>
      simp only [OrderBookClient.step, System.tell] at moved told
      split at moved
      · rename_i connId assets rest connIds calling
        obtain rfl := Option.some.inj moved
        rw [calling] at told
        obtain rfl := Option.some.inj told
        apply coupled.unsubscribeNext assets
        split <;> rfl
      · cases moved
    | connected connId sent =>
      simp only [OrderBookClient.step] at moved
      split at moved
      · rename_i task found
        obtain rfl := Option.some.inj moved
        obtain ⟨again, alsoFound, told⟩ := Option.bind_eq_some_iff.mp told
        obtain rfl := Option.some.inj (found.symm.trans alsoFound)
        obtain ⟨there, rfl⟩ := Runs.guarded told
        obtain ⟨session, present⟩ := Option.isSome_iff_exists.mp there
        exact coupled.connected found present
      · cases moved
    | startFails connId =>
      obtain ⟨nowhere, rfl⟩ := Runs.guarded told
      have absent := Option.isNone_iff_eq_none.mp nowhere
      simp only [OrderBookClient.step] at moved
      split at moved
      · obtain rfl := Option.some.inj moved
        apply coupled.silent bounded rfl
        · intro other still
          obtain ⟨entry, kept, rfl⟩ := List.mem_map.mp still
          exact .inl (List.mem_map_of_mem (List.mem_of_mem_filter kept))
        · intro other isStart
          obtain ⟨entry, member, rfl⟩ := List.mem_map.mp isStart
          by_cases same : entry.1 = connId
          · exact .inr (same ▸ absent)
          · exact .inl (List.mem_map_of_mem (List.mem_filter.mpr ⟨member, decide_eq_true same⟩))
      · cases moved

end Coupling

/-- What a session has announced to the server, with what is still being sent. -/
def announced (session : WebSocketConnection) : Finset String :=
  replay ∅ ((session.frames ++ session.writing).map Frame.delta)

/-- The client's part of a step is without harm. -/
def WithoutHarm (system : System) : Action → Prop
  | .client action => Harmless system.client action
  | _ => True

/-- An open session announces what its connection wants. -/
theorem Coupled.announces {maxAssets : Nat} {system : System} (coupled : Coupled maxAssets system)
    {connId : Nat} {session : WebSocketConnection}
    (present : system.sessions connId = some session) (isOpen : session.isConnected = true) :
    announced session = session.desiredAssets := by
  obtain ⟨told, complete⟩ := (coupled.agrees connId).announced session present
  exact (told.replayed isOpen).trans (told.within.antisymm (complete isOpen))

/-- A run of the whole without harm is one of the client. -/
theorem sound_of_run {maxAssets : Nat} (room : 2 ≤ maxAssets) {actions : List Action}
    {system : System} (completed : Runs.run (System.step maxAssets) new actions = some system)
    (along : Runs.Along (System.step maxAssets) WithoutHarm new actions) :
    OrderBookClient.Sound maxAssets system.client := by
  have initially : OrderBookClient.Sound maxAssets new.client :=
    ⟨Bins.packed_nil fun _ => rfl, List.nodup_nil, nofun, rfl, List.nodup_nil, nofun, nofun,
      List.nodup_nil, nofun⟩
  have kept (before : System) (action : Action) (after : System)
      (harmless : WithoutHarm before action)
      (taken : before.step maxAssets action = some after)
      (sound : OrderBookClient.Sound maxAssets before.client) :
      OrderBookClient.Sound maxAssets after.client := by
    cases action with
    | client action =>
      obtain ⟨next, moved, rest⟩ := Option.bind_eq_some_iff.mp taken
      obtain ⟨sessions, -, same⟩ := Option.bind_eq_some_iff.mp rest
      obtain rfl := Option.some.inj same
      exact sound.step room harmless moved
    | opened connId =>
      obtain ⟨-, rfl⟩ := Runs.guarded taken
      exact sound
    | session connId action =>
      obtain ⟨-, taken⟩ := Option.ite_none_right_eq_some.mp taken
      obtain ⟨session, -, taken⟩ := Option.bind_eq_some_iff.mp taken
      obtain ⟨next, -, same⟩ := Option.bind_eq_some_iff.mp taken
      obtain rfl := Option.some.inj same
      exact sound
  exact Runs.invariant_along kept along completed initially

/-- Whatever fails in the client and in the sockets, every connection has a session that wants
what the client wants of it, which goes into one call; when it is open it announces just that,
after an introduction, and a session that the client does not know yet announces nothing. In a run
without harm, between two calls and with all sockets open, the sessions announce the assets of the
registered markets and no others. -/
theorem sessions_announce_registry {maxAssets : Nat} {actions : List Action} {system : System}
    (completed : Runs.run (System.step maxAssets) new actions = some system) :
    (∀ conn ∈ system.client.connections, ∃ session,
      system.sessions conn.connId = some session ∧
        session.desiredAssets = conn.desiredAssets ∧ conn.desiredAssets.card ≤ maxAssets ∧
        (session.isConnected = true → announced session = conn.desiredAssets ∧
          MarketFirst (session.frames ++ session.writing))) ∧
      (∀ connId session, system.sessions connId = some session →
        connId ∉ system.client.connections.map OrderBookClient.WebSocketConnection.connId →
          session.isConnected = true → announced session = ∅) ∧
      (2 ≤ maxAssets → Runs.Along (System.step maxAssets) WithoutHarm new actions →
        system.client.call = .idle →
        (∀ conn ∈ system.client.connections, ∀ session,
          system.sessions conn.connId = some session → session.isConnected = true) →
        ∀ asset,
          (∃ market sub, system.client.markets.lookup market = some sub ∧ asset ∈ sub.assets) ↔
            ∃ connId session, system.sessions connId = some session ∧
              session.isConnected = true ∧ asset ∈ announced session) := by
  have coupled : Coupled maxAssets system :=
    Runs.invariant (fun _ _ _ taken before => Coupled.step taken before) completed
      (coupled_new maxAssets)
  have held := fun conn member => (coupled.agrees conn.connId).held conn member rfl
  have unknown (connId : Nat) (session : WebSocketConnection)
      (present : system.sessions connId = some session) (isUnknown : connId ∉
        system.client.connections.map OrderBookClient.WebSocketConnection.connId)
      (isOpen : session.isConnected = true) : announced session = ∅ := by
    have agrees := coupled.agrees connId
    have isStart := (List.mem_append.mp (agrees.known session present)).resolve_left isUnknown
    exact (coupled.announces present isOpen).trans (agrees.starting isStart session present)
  refine ⟨?_, unknown, ?_⟩
  · intro conn member
    obtain ⟨session, present, wants⟩ := held conn member
    refine ⟨session, present, wants, ?_, ?_⟩
    · rw [← wants]
      exact coupled.fits present
    · intro isOpen
      obtain ⟨told, -⟩ := (coupled.agrees conn.connId).announced session present
      exact ⟨(coupled.announces present isOpen).trans wants, (told.introduced isOpen).marketFirst⟩
  · intro room along idle allOpen asset
    have agree := (sound_of_run room completed along).matches idle asset
    rw [agree]
    constructor
    · rintro ⟨conn, member, wanted⟩
      obtain ⟨session, present, wants⟩ := held conn member
      have isOpen := allOpen conn member session present
      refine ⟨conn.connId, session, present, isOpen, ?_⟩
      rw [coupled.announces present isOpen, wants]
      exact wanted
    · rintro ⟨connId, session, present, isOpen, told⟩
      by_cases isConn : connId ∈
          system.client.connections.map OrderBookClient.WebSocketConnection.connId
      · obtain ⟨conn, member, rfl⟩ := List.mem_map.mp isConn
        obtain ⟨same, alsoPresent, wants⟩ := held conn member
        obtain rfl := Option.some.inj (present.symm.trans alsoPresent)
        rw [coupled.announces present isOpen, wants] at told
        exact ⟨conn, member, told⟩
      · rw [unknown connId session present isConn isOpen] at told
        exact absurd told (Finset.notMem_empty asset)

/-- A connection for one market loses its first socket before the client knows it, and its second
one afterwards. -/
def sampleActions : List Action :=
  [.client (.subscribeMarkets [⟨"m1", "yes1", "no1"⟩]), .client .nextSlots, .opened 0,
    .session 0 .closed, .session 0 (.listenEnds false), .session 0 .delayEnds,
    .session 0 (.connectSucceeds []), .client (.connected 0 true), .session 0 .written,
    .client .nextSlots, .session 0 .closed, .session 0 (.listenEnds true),
    .session 0 (.connectSucceeds ["no1", "yes1"]), .session 0 .written, .session 0 .subscribed]

theorem sample_sessions_announce :
    ∃ system, Runs.run (System.step 4) new sampleActions = some system ∧
      ∃ connId session, system.sessions connId = some session ∧ session.isConnected = true ∧
        "yes1" ∈ announced session := by
  have ended : (Runs.run (System.step 4) new sampleActions).map (·.client.call) = some .idle := rfl
  obtain ⟨system, completed, idle⟩ := Option.map_eq_some_iff.mp ended
  have reached : (Runs.run (System.step 4) new sampleActions).all (fun system =>
      system.client.markets.lookup "m1" = some ⟨"m1", "yes1", "no1"⟩ ∧
        system.client.connections.map OrderBookClient.WebSocketConnection.connId = [0] ∧
        (system.sessions 0).all fun session => session.isConnected) = true := by
    decide +kernel
  rw [completed] at reached
  obtain ⟨known, connIds, isOpen⟩ := of_decide_eq_true reached
  have along : Runs.Along (System.step 4) WithoutHarm new sampleActions := by
    apply Runs.along_of_forall
    simp [sampleActions, WithoutHarm, Harmless]
  refine ⟨system, completed, ?_⟩
  obtain ⟨-, -, agree⟩ := sessions_announce_registry completed
  apply (agree (by decide) along idle ?_ "yes1").mp
  · exact ⟨"m1", _, known, List.mem_cons_self⟩
  · intro conn member session present
    have isZero : conn.connId ∈ [0] := connIds ▸ List.mem_map_of_mem member
    rw [List.mem_singleton.mp isZero] at present
    rw [present] at isOpen
    exact isOpen

end Collector.ClientSessions
