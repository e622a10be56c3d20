import Collector.Ingest
import Collector.Transport

/-!
# From the frames to the store

The connections of the publishing service, its sink, Redis and the storing service
put together: what a connection is the first to push goes into the channel that the
sink of the publisher reads. The process of the publisher may end at any time by an
overflow or a panic; what it has written by then goes on without it. The shutdown is
the subject of `Shutdown`, so the channel of the events stays open here.

Each part of a run of the whole is a run of the part by itself.
-/

namespace Collector.Services

open Dedup PubSub
open Forwarding (Call)

variable {δ : Type} [Decimal δ]

/-- The connections with their forwarder, and everything behind them. -/
structure System (δ : Type) where
  ingest : Ingest.State δ
  relay : Relay δ

/-- A step of the connections up to the channel, an event put into it, and a step of
what is behind it. -/
inductive Action (δ : Type) where
  | ingest (action : Ingest.Action)
  | send (index : Nat)
  | relay (action : RelayAction δ)

/-- The sizes of the two channels, the hash function, and the numbers that JSON takes. -/
structure Setting where
  publisherQueue : Nat
  sinkQueue : Nat
  hasher : List UInt8 → UInt64
  finite : String → Bool

namespace System

/-- Both services as they start. -/
def start (ttl now : Nat) (publisher : PubSubSinkConfig) (sink : SinkConfig) : System δ where
  ingest := .initial ttl now
  relay := Relay.start publisher sink

/-- Whether there is room in the channel of the events. -/
def room (setting : Setting) (system : System δ) : Bool :=
  system.relay.publisher.channel.queue.length < setting.publisherQueue

/-- The steps of the connections that do not touch the channel. -/
def apart : Ingest.Action → Bool
  | .enqueue .. | .closeChannel => false
  | .connection .. | .text .. | .push .. => true

/-- The steps behind the channel: nobody else sends or closes, and the publisher does
nothing once its process has ended. -/
def behind (system : System δ) : RelayAction δ → Bool
  | .publisher (.send _) | .publisher .close => false
  | .publisher _ => !system.ingest.forwarding.exited
  | _ => true

/-- One step. -/
def step (setting : Setting) (system : System δ) : Action δ → Option (System δ)
  | .ingest action =>
    if apart action then
      (Ingest.step setting.hasher setting.finite system.ingest action).map fun ingest =>
        { system with ingest := ingest }
    else none
  | .send index => do
    let event ← system.ingest.forwarding.inFlight index
    let ingest ← Ingest.step setting.hasher setting.finite system.ingest
      (.enqueue index (system.room setting))
    if system.room setting then
      let relay ← system.relay.step setting.sinkQueue (.publisher (.send event))
      some ⟨ingest, relay⟩
    else some { system with ingest := ingest }
  | .relay action =>
    if system.behind action then
      (system.relay.step setting.sinkQueue action).map fun relay => { system with relay := relay }
    else none

/-- The channel of the events is open, and is what the connections have put into it. -/
structure Joined (system : System δ) : Prop where
  entered : system.ingest.forwarding.forwarder.globalTx =
    system.relay.publisher.received ++ system.relay.publisher.channel.queue
  ingest : system.ingest.forwarding.channelClosed = false
  relay : system.relay.publisher.channel.closed = false

/-- What a step does to the two parts. -/
inductive Moves (setting : Setting) (system : System δ) : Action δ → System δ → Prop where
  | ingest (action : Ingest.Action) (ingest : Ingest.State δ) (inside : apart action = true)
      (taken : Ingest.step setting.hasher setting.finite system.ingest action = some ingest) :
      Moves setting system (.ingest action) { system with ingest := ingest }
  | entered (index : Nat) (event : Event δ) (ingest : Ingest.State δ) (relay : Relay δ)
      (carried : system.ingest.forwarding.inFlight index = some event)
      (taken : Ingest.step setting.hasher setting.finite system.ingest (.enqueue index true) =
        some ingest)
      (sent : system.relay.step setting.sinkQueue (.publisher (.send event)) = some relay) :
      Moves setting system (.send index) ⟨ingest, relay⟩
  | overflow (index : Nat) (ingest : Ingest.State δ)
      (taken : Ingest.step setting.hasher setting.finite system.ingest (.enqueue index false) =
        some ingest) :
      Moves setting system (.send index) { system with ingest := ingest }
  | relay (action : RelayAction δ) (relay : Relay δ) (beyond : system.behind action = true)
      (taken : system.relay.step setting.sinkQueue action = some relay) :
      Moves setting system (.relay action) { system with relay := relay }

theorem moves_of_step {setting : Setting} {system next : System δ} {action : Action δ}
    (taken : step setting system action = some next) : Moves setting system action next := by
  cases action with
  | ingest action =>
    obtain ⟨inside, taken⟩ := Option.ite_none_right_eq_some.mp taken
    obtain ⟨ingest, stepped, rfl⟩ := Option.map_eq_some_iff.mp taken
    exact .ingest action ingest inside stepped
  | send index =>
    obtain ⟨event, carried, taken⟩ := Option.bind_eq_some_iff.mp taken
    obtain ⟨ingest, stepped, taken⟩ := Option.bind_eq_some_iff.mp taken
    cases room : system.room setting with
    | true =>
      rw [room] at stepped taken
      obtain ⟨relay, sent, same⟩ := Option.bind_eq_some_iff.mp taken
      obtain rfl := Option.some.inj same
      exact .entered index event ingest relay carried stepped sent
    | false =>
      rw [room] at stepped taken
      obtain rfl := Option.some.inj taken
      exact .overflow index ingest stepped
  | relay action =>
    obtain ⟨beyond, taken⟩ := Option.ite_none_right_eq_some.mp taken
    obtain ⟨relay, stepped, rfl⟩ := Option.map_eq_some_iff.mp taken
    exact .relay action relay beyond stepped

/-- Nothing goes wrong behind the channel. -/
def Steady (system : System δ) : Action δ → Prop
  | .relay action => Relay.Steady system.relay action
  | _ => True

/-- The connections make a run of their own. -/
theorem ingest_runs {setting : Setting} {ttl now : Nat} {publisher : PubSubSinkConfig}
    {sink : SinkConfig} {actions : List (Action δ)} {system : System δ}
    (completed : Runs.run (step setting) (start ttl now publisher sink) actions = some system) :
    ∃ owns, Runs.run (Ingest.step setting.hasher setting.finite) (.initial ttl now) owns =
      some system.ingest := by
  have always : Runs.Along (step setting) (fun _ _ => True) (start ttl now publisher sink)
      actions := Runs.along_of_forall _ actions fun _ _ _ => trivial
  refine (Runs.run_projects System.ingest (Ingest.step setting.hasher setting.finite)
    (fun _ _ => True) ?_ always completed).imp fun _ found => found.2
  intro system action next _ taken
  cases moves_of_step taken with
  | ingest action ingest inside stepped => exact Or.inr ⟨action, trivial, stepped⟩
  | entered index event ingest relay carried stepped sent =>
    exact Or.inr ⟨.enqueue index true, trivial, stepped⟩
  | overflow index ingest stepped => exact Or.inr ⟨.enqueue index false, trivial, stepped⟩
  | relay => exact Or.inl rfl

/-- What is behind the channel makes a run of its own, a steady one if nothing goes
wrong there. -/
theorem relay_runs {setting : Setting} {ttl now : Nat} {publisher : PubSubSinkConfig}
    {sink : SinkConfig} {actions : List (Action δ)} {system : System δ}
    {condition : System δ → Action δ → Prop} (conditionPart : Relay δ → RelayAction δ → Prop)
    (sends : ∀ relay event, conditionPart relay (.publisher (.send event)))
    (carries : ∀ (system : System δ) action, condition system (.relay action) →
      conditionPart system.relay action)
    (along : Runs.Along (step setting) condition (start ttl now publisher sink) actions)
    (completed : Runs.run (step setting) (start ttl now publisher sink) actions = some system) :
    ∃ owns, Runs.Along (Relay.step setting.sinkQueue) conditionPart
        (Relay.start publisher sink) owns ∧
      Runs.run (Relay.step setting.sinkQueue) (Relay.start publisher sink) owns =
        some system.relay := by
  refine Runs.run_projects System.relay _ conditionPart ?_ along completed
  intro system action next met taken
  cases moves_of_step taken with
  | ingest => exact Or.inl rfl
  | entered index event ingest relay carried stepped sent =>
    exact Or.inr ⟨.publisher (.send event), sends _ event, sent⟩
  | overflow => exact Or.inl rfl
  | relay action relay beyond stepped => exact Or.inr ⟨action, carries system action met, stepped⟩

/-- The forwarder's copy of the channel after the enqueue of an event. -/
theorem enqueue_effect {setting : Setting} {state next : Ingest.State δ} {index : Nat} {room : Bool}
    (taken : Ingest.step setting.hasher setting.finite state (.enqueue index room) = some next)
    (opened : state.forwarding.channelClosed = false) :
    next.forwarding.channelClosed = false ∧
      ∃ event, state.forwarding.inFlight index = some event ∧
        next.forwarding.forwarder.globalTx = state.forwarding.forwarder.globalTx ++
          if room then [event] else [] := by
  obtain ⟨_, taken⟩ := Option.ite_none_right_eq_some.mp taken
  obtain ⟨event, carried, rfl⟩ := Option.map_eq_some_iff.mp taken
  unfold Ingest.State.finish
  cases room <;> simp [Forwarding.State.answer, opened, Forwarding.State.enqueue,
    DedupForwarder.enqueue, carried]

/-- Away from the channel, the forwarder's copy of it stays. -/
theorem apart_effect {setting : Setting} {state next : Ingest.State δ} {action : Ingest.Action}
    (inside : apart action = true)
    (taken : Ingest.step setting.hasher setting.finite state action = some next) :
    next.forwarding.channelClosed = state.forwarding.channelClosed ∧
      next.forwarding.forwarder.globalTx = state.forwarding.forwarder.globalTx := by
  cases action with
  | connection index action =>
    obtain ⟨_, taken⟩ := Option.ite_none_right_eq_some.mp taken
    obtain ⟨task, _, rfl⟩ := Option.map_eq_some_iff.mp taken
    exact ⟨rfl, rfl⟩
  | text index source =>
    obtain ⟨_, rfl⟩ := Runs.guarded taken
    unfold Ingest.State.read
    simp only
    split <;> exact ⟨rfl, rfl⟩
  | push index checked rotated =>
    obtain ⟨event, rest, _, rfl | ⟨key, _, _, rfl⟩⟩ := Ingest.push_cases taken
    · exact ⟨rfl, rfl⟩
    · exact ⟨rfl, Forwarding.lock_globalTx state.forwarding index event key checked rotated⟩
  | enqueue index room => cases inside
  | closeChannel => cases inside

theorem Joined.step {setting : Setting} (system : System δ) (action : Action δ)
    (next : System δ) (taken : step setting system action = some next) (joined : Joined system) :
    Joined next := by
  obtain ⟨entered, ingestOpen, relayOpen⟩ := joined
  cases moves_of_step taken with
  | ingest action ingest inside stepped =>
    obtain ⟨closed, same⟩ := apart_effect inside stepped
    exact ⟨same.trans entered, closed.trans ingestOpen, relayOpen⟩
  | entered index event ingest relay carried stepped sent =>
    obtain ⟨stays, other, found, grown⟩ := enqueue_effect stepped ingestOpen
    obtain rfl := Option.some.inj (carried.symm.trans found)
    simp only [Relay.step] at sent
    obtain ⟨_, moved⟩ := Option.ite_none_right_eq_some.mp sent
    obtain ⟨publisher, given, rfl⟩ := Option.map_eq_some_iff.mp moved
    obtain ⟨channel, accepted, rfl⟩ := Option.map_eq_some_iff.mp given
    obtain rfl := Channel.sent accepted
    refine ⟨?_, stays, relayOpen⟩
    rw [grown, entered, List.append_assoc]
    rfl
  | overflow index ingest stepped =>
    obtain ⟨stays, other, found, grown⟩ := enqueue_effect stepped ingestOpen
    refine ⟨?_, stays, relayOpen⟩
    rw [grown, entered]
    exact List.append_nil _
  | relay action relay beyond stepped =>
    cases Relay.moves_of_step stepped with
    | publisher action publisher answerable moved =>
      have inner : (∀ event, action ≠ .send event) ∧ action ≠ .close := by
        constructor
        · rintro event rfl
          cases beyond
        · rintro rfl
          cases beyond
      obtain ⟨closed, kept⟩ := PubSubTask.step_inner inner moved
      exact ⟨entered.trans kept.symm, ingestOpen, closed.trans relayOpen⟩
    | execute command rest accepted head =>
      cases accepted <;> exact ⟨entered, ingestOpen, relayOpen⟩
    | late connection command rest accepted head =>
      cases accepted <;> exact ⟨entered, ingestOpen, relayOpen⟩
    | reconnect | vanish | subscribed | ended | cutOff | read | forward | resume | abort | close
    | giveUp | sink => exact ⟨entered, ingestOpen, relayOpen⟩

/-- What the connections were the first to push, in order. -/
def firsts (system : System δ) : List (Event δ) :=
  (system.ingest.forwarding.calls.filter Call.accepted).map Call.event

omit [Decimal δ] in
/-- A pair occurs as often as its second component occurs under the first. -/
theorem count_pair [DecidableEq δ] (pairs : List (Nat × Event δ)) (index : Nat)
    (event : Event δ) :
    pairs.count (index, event) = (pairs.filterMap fun (connection, event) =>
      if connection = index then some event else none).count event := by
  induction pairs with
  | nil => rfl
  | cons pair rest inductionHypothesis =>
    obtain ⟨connection, other⟩ := pair
    by_cases same : connection = index
    · by_cases equal : other = event <;>
        simp [same, equal, inductionHypothesis]
    · simp [same, inductionHypothesis]

omit [Decimal δ] in
/-- Pairs that are in order for each first component are among each other. -/
theorem subperm_of_each {left right : List (Nat × Event δ)}
    (each : ∀ index, (left.filterMap fun (connection, event) =>
        if connection = index then some event else none).Sublist
      (right.filterMap fun (connection, event) =>
        if connection = index then some event else none)) : left.Subperm right := by
  classical
  apply List.subperm_ext_iff.mpr
  rintro ⟨index, event⟩ _
  rw [count_pair, count_pair]
  exact (each index).count_le event

omit [Decimal δ] in
/-- Pairs that are the same for each first component are the same but for their order. -/
theorem perm_of_each {left right : List (Nat × Event δ)}
    (each : ∀ index, (left.filterMap fun (connection, event) =>
        if connection = index then some event else none) =
      right.filterMap fun (connection, event) =>
        if connection = index then some event else none) : left.Perm right := by
  classical
  apply List.perm_iff_count.mpr
  rintro ⟨index, event⟩
  rw [count_pair, count_pair, each]

/-- What was pushed first, with the connections that did. -/
def acceptedPairs (system : System δ) : List (Nat × Event δ) :=
  (system.ingest.forwarding.calls.filter Call.accepted).map fun call =>
    (call.connection, call.event)

omit [Decimal δ] in
theorem acceptedOf_eq (system : System δ) (index : Nat) :
    system.ingest.acceptedOf index = system.acceptedPairs.filterMap fun (connection, event) =>
      if connection = index then some event else none := by
  simp only [acceptedPairs, Ingest.State.acceptedOf, List.filterMap_map, List.filterMap_filter]
  congr 1
  funext call
  cases call.accepted <;> simp

omit [Decimal δ] in
theorem firsts_eq (system : System δ) : system.firsts = system.acceptedPairs.map Prod.snd := by
  rw [firsts, acceptedPairs, List.map_map]
  rfl

/-- What is in the channel is among what was pushed first. -/
theorem entered_subperm {finite : String → Bool} {system : System δ}
    (traced : Ingest.Traced finite system.ingest) (joined : Joined system) :
    (system.relay.publisher.received ++ system.relay.publisher.channel.queue).Subperm
      system.firsts := by
  have pairs : system.ingest.enqueued.Subperm system.acceptedPairs := by
    apply subperm_of_each
    intro index
    obtain ⟨lost, sent, _⟩ := traced.sent index
    rw [← acceptedOf_eq, ← sent, List.append_assoc]
    exact List.sublist_append_left _ _
  have events := Relay.subperm_filterMap pairs (some ∘ Prod.snd)
  rw [List.filterMap_eq_map, ← firsts_eq] at events
  rw [← joined.entered, traced.channel]
  exact events

/-- While the process runs and no connection has anything left to push, what is in the channel is
what was pushed first. -/
theorem entered_perm {finite : String → Bool} {system : System δ}
    (traced : Ingest.Traced finite system.ingest) (joined : Joined system)
    (running : system.ingest.forwarding.exited = false)
    (idle : ∀ index, system.ingest.idle index = true) :
    (system.relay.publisher.received ++ system.relay.publisher.channel.queue).Perm
      system.firsts := by
  rw [← joined.entered, traced.channel, firsts_eq]
  refine List.Perm.map Prod.snd (perm_of_each ?_)
  intro index
  have alive : system.ingest.forwarding.stopped index = false := by
    by_contra stopped
    have closed := (traced.stopped index (Bool.not_eq_false _ ▸ stopped)).2.2.2
    rw [joined.ingest] at closed
    cases closed
  obtain ⟨lost, sent, nothing⟩ := traced.sent index
  rw [nothing alive running, (Ingest.of_idle (idle index)).2, Option.toList_none, List.append_nil,
    List.append_nil] at sent
  rw [← acceptedOf_eq, ← sent]
  rfl

/-- Whatever fails, what the store is given is part of what the forwarder accepted, and that comes
from frames, for assets that their connection wanted. Of one key there are no more copies than
windows of the deduplication begin within the run. -/
theorem stored_events_come_from_frames (setting : Setting) (ttl now : Nat)
    (publisher : PubSubSinkConfig) (sink : SinkConfig) (actions : List (Action δ))
    (system : System δ)
    (completed : Runs.run (step setting) (start ttl now publisher sink) actions = some system) :
    system.relay.forwarded.Subperm (system.firsts.filter fun event => QuotesPresent event) ∧
      (∀ event ∈ system.firsts, ∃ arrival ∈ system.ingest.arrivals,
        event ∈ arrival.events setting.finite ∧ event.assetId ∈ arrival.sub.desired) ∧
      ∀ key, (system.relay.forwarded.countP (fun event =>
          dedupKey setting.hasher event = some key) - 1) * (ttl / 2) ≤
        system.ingest.forwarding.clock - now := by
  obtain ⟨owns, reached⟩ := ingest_runs completed
  have traced : Ingest.Traced setting.finite system.ingest :=
    Runs.invariant Ingest.Traced.step reached (Ingest.traced_initial setting.finite ttl now)
  have sound : Forwarding.Sound (ttl / 2) system.ingest.forwarding :=
    Runs.invariant Ingest.sound_step reached (Forwarding.sound_initial ttl now)
  have keyed : Ingest.Keyed setting.hasher system.ingest :=
    Runs.invariant Ingest.keyed_step reached nofun
  have since : Ingest.Since now system.ingest :=
    Runs.invariant Ingest.since_step reached ⟨Nat.le_refl now, nofun⟩
  have joined : Joined system := Runs.invariant Joined.step completed ⟨rfl, rfl, rfl⟩
  have always : Runs.Along (step setting) (fun _ _ => True) (start ttl now publisher sink)
      actions := Runs.along_of_forall _ actions fun _ _ _ => trivial
  obtain ⟨others, _, moved⟩ := relay_runs (fun _ _ => True) (fun _ _ => trivial)
    (fun _ _ _ => trivial) always completed
  have entered : system.relay.publisher.received.Subperm system.firsts :=
    (List.sublist_append_left _ _).subperm.trans (entered_subperm traced joined)
  have stored : system.relay.forwarded.Subperm
      (system.firsts.filter fun event => QuotesPresent event) :=
    (Relay.forwarded_subperm moved).trans (entered.filter _)
  refine ⟨stored, ?_, ?_⟩
  · intro event member
    obtain ⟨call, called, rfl⟩ := List.mem_map.mp member
    obtain ⟨inCalls, accepted⟩ := List.mem_filter.mp called
    have here : call.event ∈ system.ingest.acceptedOf call.connection :=
      List.mem_filterMap.mpr ⟨call, inCalls, if_pos ⟨rfl, accepted⟩⟩
    have wanted := (traced.ordered call.connection).2.subset here
    obtain ⟨arrival, arrived, inside⟩ := List.mem_flatMap.mp wanted
    exact ⟨arrival, (List.mem_filter.mp arrived).1, inside, Ingest.assetId_mem_of_mem_events inside⟩
  · intro key
    have room := sound.spaced.count_mul_le since.2 sound.past key
    have copies := (stored.trans List.filter_sublist.subperm).countP_le fun event =>
      dedupKey setting.hasher event = some key
    rw [firsts, List.countP_map, List.countP_filter] at copies
    have same : system.ingest.forwarding.calls.countP (fun call =>
        ((fun event => decide (dedupKey setting.hasher event = some key)) ∘ Call.event) call &&
          call.accepted) =
        system.ingest.forwarding.calls.countP fun call =>
          call.accepted = true ∧ call.key = key := by
      apply List.countP_congr
      intro call member
      simp [keyed call member, and_comm]
    rw [same] at copies
    exact (Nat.mul_le_mul_right _ (Nat.sub_le_sub_right copies 1)).trans room

/-- Nothing is on its way any more. -/
structure AtRest (system : System δ) : Prop where
  running : system.ingest.forwarding.exited = false
  idle : ∀ index, system.ingest.idle index = true
  queue : system.relay.publisher.channel.queue = []
  batch : system.relay.publisher.batch = []
  wire : system.relay.wire = []
  pending : system.relay.pending = []
  held : system.relay.subscriber.stage.held = none

/-- As long as nothing goes wrong behind the channel, and once nothing is on its way any more, the
store was given exactly the events that were the first of their key and lack no quote, each
once for each time it was the first; and every event that a frame had for its connection has
such a first of its key. -/
theorem frames_reach_the_store (setting : Setting) (ttl now : Nat)
    (publisher : PubSubSinkConfig) (sink : SinkConfig) (actions : List (Action δ))
    (system : System δ)
    (steady : Runs.Along (step setting) Steady (start ttl now publisher sink) actions)
    (completed : Runs.run (step setting) (start ttl now publisher sink) actions = some system)
    (atRest : AtRest system) :
    system.relay.forwarded.Perm (system.firsts.filter fun event => QuotesPresent event) ∧
      ∀ arrival ∈ system.ingest.arrivals, ∀ event : Event δ,
        event ∈ arrival.events setting.finite →
          ∃ twin ∈ system.firsts, dedupKey setting.hasher twin = dedupKey setting.hasher event ∧
            (QuotesPresent twin → twin ∈ system.relay.forwarded) := by
  obtain ⟨owns, reached⟩ := ingest_runs completed
  have traced : Ingest.Traced setting.finite system.ingest :=
    Runs.invariant Ingest.Traced.step reached (Ingest.traced_initial setting.finite ttl now)
  have sound : Forwarding.Sound (ttl / 2) system.ingest.forwarding :=
    Runs.invariant Ingest.sound_step reached (Forwarding.sound_initial ttl now)
  have keyed : Ingest.Keyed setting.hasher system.ingest :=
    Runs.invariant Ingest.keyed_step reached nofun
  have joined : Joined system := Runs.invariant Joined.step completed ⟨rfl, rfl, rfl⟩
  obtain ⟨others, quiet, moved⟩ := relay_runs Relay.Steady (fun _ _ => trivial)
    (fun _ _ met => met) steady completed
  have entered := entered_perm traced joined atRest.running atRest.idle
  rw [atRest.queue, List.append_nil] at entered
  have stored := Relay.representable_of_steady quiet moved
  rw [atRest.held, atRest.pending, atRest.wire, atRest.batch] at stored
  simp only [Option.toList_none, List.append_nil] at stored
  have given : system.relay.forwarded.Perm
      (system.firsts.filter fun event => QuotesPresent event) := by
    have kept := entered.filter fun event => decide (QuotesPresent event)
    rw [stored] at kept
    simpa using kept
  refine ⟨given, ?_⟩
  intro arrival member event wanted
  cases traced.covers sound keyed atRest.running joined.ingest member wanted with
  | inl buffered =>
    rw [(Ingest.of_idle (atRest.idle arrival.connection)).1] at buffered
    cases buffered
  | inr represented =>
    obtain ⟨twin, same, inChannel | ⟨index, carried⟩⟩ := represented
    · rw [joined.entered, atRest.queue, List.append_nil] at inChannel
      have first := entered.subset inChannel
      refine ⟨twin, first, same, ?_⟩
      intro quotes
      exact given.symm.subset (List.mem_filter.mpr ⟨first, decide_eq_true quotes⟩)
    · rw [(Ingest.of_idle (atRest.idle index)).2] at carried
      cases carried

/-- Room for four events in both channels, and any number. -/
def setting : Setting := ⟨4, 4, fun _ => 7, fun _ => true⟩

/-- A connection subscribes and the storing service listens. -/
def opening : List (Action PlainDecimal) :=
  Ingest.subscribing.map .ingest ++ [.relay .subscribed]

/-- A frame comes, and its event is put into the channel. -/
def entering : List (Action PlainDecimal) :=
  [.ingest (.text 1 (tickOf "a1").text), .ingest (.push 1 2 3), .send 1]

/-- It is published, executed, read, and handed to the sink. -/
def relaying : List (Action PlainDecimal) :=
  [.publisher (.first 10), .publisher (.check 20), .execute true, .publisher (.replied true), .read,
    .forward].map .relay

/-- The storing service while it listens, with some events before the publisher's sink. -/
def offered (events : List (Event PlainDecimal)) : Relay PlainDecimal :=
  { Relay.start ⟨3, 5⟩ SinkTask.typedPairs with
    publisher := { PubSubTask.start ⟨3, 5⟩ with channel := ⟨events, false⟩ }
    live := true
    subscriber := ⟨⟨0, 0, 0, 0⟩, .streaming⟩ }

theorem relaying_completes (ingest : Ingest.State PlainDecimal)
    (running : ingest.forwarding.exited = false) (event : Event PlainDecimal)
    (quotes : QuotesPresent event) :
    ∃ relay, Runs.run (step setting) ⟨ingest, offered [event]⟩ relaying = some ⟨ingest, relay⟩ ∧
      Runs.Along (step setting) Steady ⟨ingest, offered [event]⟩ relaying ∧
      relay.forwarded = [event] ∧ relay.publisher.channel.queue = [] ∧
      relay.publisher.batch = [] ∧ relay.wire = [] ∧ relay.pending = [] ∧
      relay.subscriber.stage.held = none := by
  have read (task : SubscriberTask PlainDecimal) := Relay.read_payload task event quotes
  simp [relaying, offered, setting, Runs.run, Runs.Along, Steady, step, behind, running, Relay.step,
    Relay.Steady, Relay.answerable, Relay.acknowledged, Relay.written, Relay.serve, read,
    Relay.start, Relay.serialize, Relay.forwarded, SubscriberTask.forwarded, SubscriberStage.held,
    PubSubTask.step, PubSubTask.start, PubSubTask.push, PubSubTask.flush, PubSubTask.payload?,
    PubSubTask.inFlight, PubSubTask.reply, PubSubTask.stageAfter, Channel.send, Channel.empty,
    Channel.recv, Except.toOption, SinkTask.start, Sink.connect, SinkTask.typedPairs]

theorem step_ingest {setting : Setting} {system : System δ} {action : Ingest.Action}
    {ingest : Ingest.State δ} (inside : apart action = true)
    (taken : Ingest.step setting.hasher setting.finite system.ingest action = some ingest) :
    step setting system (.ingest action) = some { system with ingest := ingest } := by
  simp [step, inside, taken]

theorem entering_completes :
    ∃ ingest, Runs.run (step setting) (start 10 0 ⟨3, 5⟩ SinkTask.typedPairs)
        (opening ++ entering) = some ⟨ingest, offered [Ingest.tickEvent]⟩ ∧
      ingest.forwarding.exited = false ∧ (∀ index, ingest.idle index = true) ∧
      ∃ arrival ∈ ingest.arrivals, Ingest.tickEvent ∈ arrival.events setting.finite := by
  obtain ⟨⟨⟨_, readers, arrivals, _⟩, _⟩, reached, rfl, rfl, listening, empty, wants, rfl⟩ :
      ∃ middle : System PlainDecimal,
        Runs.run (step setting) (start 10 0 ⟨3, 5⟩ SinkTask.typedPairs) opening = some middle ∧
          middle.ingest.forwarding = Forwarding.initial 10 0 ∧ middle.relay = offered [] ∧
          (middle.ingest.readers 1).task.phase = .listening ∧
          (∀ index, (middle.ingest.readers index).eventsBuf = []) ∧
          Collector.wanted (middle.ingest.readers 1).task.sub [Ingest.tick] =
            explode Ingest.tick ∧
          middle.ingest.enqueued = [] := by
    refine ⟨_, rfl, rfl, rfl, rfl, ?_, by decide, rfl⟩
    intro index
    by_cases same : index = 1
    · subst same
      rfl
    · simp [Ingest.State.setReader, Function.update_of_ne same, Ingest.State.initial, start]
  change ∀ index, (readers index).eventsBuf = [] at empty
  have idle : (⟨Forwarding.initial 10 0, readers, arrivals, []⟩ : Ingest.State PlainDecimal).idle
      1 = true := by
    simp [Ingest.State.idle, empty, Forwarding.initial]
  have text : step setting ⟨⟨Forwarding.initial 10 0, readers, arrivals, []⟩, offered []⟩
      (.ingest (.text 1 (tickOf "a1").text)) =
        some ⟨Ingest.tickRead readers arrivals, offered []⟩ :=
    step_ingest rfl (Ingest.step_tick _ rfl listening idle wants)
  obtain ⟨pushed, carried⟩ := Ingest.tick_carried readers arrivals
  have push : step setting ⟨Ingest.tickRead readers arrivals, offered []⟩
      (.ingest (.push 1 2 3)) =
        some ⟨(Ingest.tickRead readers arrivals).lock 1 Ingest.tickEvent [] 7 2 3, offered []⟩ :=
    step_ingest rfl pushed
  have sent : step setting
      ⟨(Ingest.tickRead readers arrivals).lock 1 Ingest.tickEvent [] 7 2 3, offered []⟩ (.send 1) =
        some ⟨Ingest.tickSent readers arrivals, offered [Ingest.tickEvent]⟩ := by
    have entered : Ingest.step setting.hasher setting.finite _ (.enqueue 1 true) =
        some (Ingest.tickSent readers arrivals) := Ingest.step_enqueue rfl carried true
    have vacant (ingest : Ingest.State PlainDecimal) :
        room setting ⟨ingest, offered []⟩ = true := rfl
    simp only [step, carried, vacant, Option.bind_eq_bind, Option.bind_some]
    rw [entered]
    rfl
  refine ⟨Ingest.tickSent readers arrivals, ?_, rfl, Ingest.tickSent_idle empty, ?_⟩
  · rw [Runs.run_append reached, entering, Runs.run_cons, text, Option.bind_some, Runs.run_cons,
      push, Option.bind_some, Runs.run_cons, sent]
    rfl
  · refine ⟨⟨1, (readers 1).task.sub, (readers 1).stats, (tickOf "a1").text⟩, ?_, ?_⟩
    · exact List.mem_append_right arrivals (List.mem_singleton_self _)
    · have handled := Ingest.onText_message Ingest.readable_tick Ingest.accepted_tick
        (readers 1).task.sub (readers 1).stats
      rw [wants] at handled
      have events := Ingest.Arrival.events_of_handled
        ⟨1, (readers 1).task.sub, (readers 1).stats, (tickOf "a1").text⟩ handled
      exact events ▸ List.mem_singleton_self Ingest.tickEvent

/-- A whole run, from the frame to the sink of the storing service. -/
theorem relayed_tick_reaches_the_store :
    ∃ system, Runs.run (step setting) (start 10 0 ⟨3, 5⟩ SinkTask.typedPairs)
        (opening ++ entering ++ relaying) = some system ∧
      system.relay.forwarded = [Ingest.tickEvent] ∧
      system.relay.forwarded.Perm (system.firsts.filter fun event => QuotesPresent event) ∧
      ∃ twin ∈ system.firsts,
        dedupKey setting.hasher twin = dedupKey setting.hasher Ingest.tickEvent ∧
          (QuotesPresent twin → twin ∈ system.relay.forwarded) := by
  obtain ⟨ingest, entered, running, idle, arrival, member, wanted⟩ := entering_completes
  obtain ⟨relay, relayed, steady, forwarded, queue, batch, wire, pending, held⟩ :=
    relaying_completes ingest running Ingest.tickEvent trivial
  have completed := (Runs.run_append entered relaying).trans relayed
  have along : Runs.Along (step setting) Steady (start 10 0 ⟨3, 5⟩ SinkTask.typedPairs)
      (opening ++ entering ++ relaying) := by
    refine Runs.Along.append ?_ entered steady
    apply Runs.along_of_forall
    intro action member system
    simp only [opening, entering, Ingest.subscribing, List.map_cons, List.map_nil, List.cons_append,
      List.nil_append, List.mem_cons, List.not_mem_nil, or_false] at member
    rcases member with rfl | rfl | rfl | rfl | rfl | rfl | rfl | rfl | rfl | rfl <;> trivial
  obtain ⟨given, represented⟩ := frames_reach_the_store setting 10 0 _ _ _ _ along completed
    ⟨running, idle, queue, batch, wire, pending, held⟩
  exact ⟨_, completed, forwarded, given, represented arrival member Ingest.tickEvent wanted⟩

/-- The same run hands one copy to the sink. -/
theorem relayed_tick_comes_from_a_frame :
    ∃ system, Runs.run (step setting) (start 10 0 ⟨3, 5⟩ SinkTask.typedPairs)
        (opening ++ entering ++ relaying) = some system ∧
      system.relay.forwarded = [Ingest.tickEvent] ∧
      system.relay.forwarded.Subperm (system.firsts.filter fun event => QuotesPresent event) := by
  obtain ⟨ingest, entered, running, _⟩ := entering_completes
  obtain ⟨relay, relayed, _, forwarded, _⟩ :=
    relaying_completes ingest running Ingest.tickEvent trivial
  have completed := (Runs.run_append entered relaying).trans relayed
  exact ⟨_, completed, forwarded,
    (stored_events_come_from_frames setting 10 0 _ _ _ _ completed).1⟩

end System

end Collector.Services
