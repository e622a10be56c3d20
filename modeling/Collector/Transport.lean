import Collector.Relay

/-!
# What the transport keeps

Two things can separate what the store is given from what the publisher received:
messages that are lost, and messages that overtake each other. The second needs a
connection that the client gives up while commands are still on it. Without that
the order is kept, also when pipelines fail and messages are lost. If in
addition no message is lost on its way, the store is given every event that the
subscriber can decode, also when the publisher counts some of them as dropped.
-/

namespace Collector.PubSub

open Serde

variable {δ : Type} [Decimal δ]

namespace Relay

/-- The client gives up a connection only when the server has taken everything from
it. -/
def KeepsOrder (relay : Relay δ) (action : RelayAction δ) : Prop :=
  action = .reconnect → relay.wire = []

/-- No connection was given up with commands on it, and the one in use carries them in
the order in which they were written. -/
structure Ordered (relay : Relay δ) : Prop where
  leftover : relay.leftover.flatten = []
  written : ((relay.executed ++ relay.wire).map Command.payload).Sublist (sent relay.publisher)

omit [Decimal δ] in
/-- The connections that were given up have no first command. -/
theorem head_of_leftover {relay : Relay δ} (nothing : relay.leftover.flatten = [])
    {connection : Nat} {command : Command} {rest : List Command} :
    relay.leftover[connection]? ≠ some (command :: rest) := by
  intro head
  have member := List.mem_of_getElem? head
  have empty := List.flatten_eq_nil_iff.mp nothing _ member
  cases empty

theorem Ordered.step {queueSize : Nat} {relay next : Relay δ} {action : RelayAction δ}
    (keeps : KeepsOrder relay action) (taken : step queueSize relay action = some next)
    (ordered : Ordered relay) : Ordered next := by
  obtain ⟨nothing, written⟩ := ordered
  cases moves_of_step taken with
  | publisher action publisher answerable stepped =>
    refine ⟨nothing, ?_⟩
    rw [sent_of_step stepped]
    simp only [← List.append_assoc, List.map_append] at written ⊢
    exact written.append (List.Sublist.refl _)
  | reconnect idle =>
    have empty := keeps rfl
    refine ⟨by simp [nothing, empty], ?_⟩
    rw [empty] at written
    exact written
  | execute command rest accepted head =>
    rw [head] at written
    cases accepted with
    | false =>
      refine ⟨nothing, List.Sublist.trans (List.Sublist.map _ ?_) written⟩
      exact (List.Sublist.refl _).append (List.sublist_cons_self _ _)
    | true =>
      refine ⟨nothing, ?_⟩
      simpa [serve] using written
  | late connection command rest accepted head => exact absurd head (head_of_leftover nothing)
  | vanish connection =>
    refine ⟨?_, written⟩
    have fewer := (List.eraseIdx_sublist relay.leftover connection).flatten
    rw [nothing] at fewer
    exact List.sublist_nil.mp fewer
  | subscribed | ended | cutOff | read | forward | resume | abort | close | giveUp | sink =>
    exact ⟨nothing, written⟩

/-- As long as the client gives up only connections with nothing on them, what the
sink was given is in the order in which the publisher received it, pipelines that
failed included. -/
theorem stored_events_are_in_order (publisherConfig : PubSubSinkConfig)
    (sinkConfig : SinkConfig) (queueSize : Nat) (actions : List (RelayAction δ)) (relay : Relay δ)
    (keeps : Runs.Along (step queueSize) KeepsOrder (start publisherConfig sinkConfig) actions)
    (reached : Runs.run (step queueSize) (start publisherConfig sinkConfig) actions = some relay) :
    relay.forwarded.Sublist (relay.publisher.received.filter fun event => QuotesPresent event) := by
  have published : relay.publisher.Accounted serialize :=
    Runs.invariant (fun _ _ _ taken => published_accounted_step taken) reached
      (PubSubTask.accounted_start publisherConfig)
  have delivered : Delivered relay :=
    Runs.invariant (fun _ _ _ taken => Delivered.step taken) reached (List.Sublist.refl _)
  have reading : Reading relay :=
    Runs.invariant (fun _ _ _ taken => Reading.step taken) reached ⟨rfl, rfl, rfl, rfl⟩
  have ordered : Ordered relay :=
    Runs.invariant_along (fun _ _ _ kept taken => Ordered.step kept taken) keeps reached
      ⟨rfl, List.Sublist.refl _⟩
  have read : relay.read.Sublist (relay.publisher.received.map payload) := by
    rw [← sent_append_batch published]
    have first := (List.sublist_append_left _ _).trans delivered
    have executed := (List.sublist_append_left relay.executed relay.wire).map Command.payload
    exact (first.trans executed).trans (ordered.written.trans (List.sublist_append_left _ _))
  have events := read.filterMap (SubscriberTask.decode (δ := δ))
  rw [filterMap_decode, ← reading.decoded] at events
  exact (List.sublist_append_left _ _).trans events

/-- A lost reply does not disturb the order. -/
theorem lost_reply_keeps_order :
    ∃ relay, Runs.run (step 4) (start ⟨3, 5⟩ SinkTask.typedPairs)
        (lostReply PubSubTask.oneShare) = some relay ∧
      relay.sink.sink.buffer = [PubSubTask.oneShare] ∧
      relay.forwarded.Sublist
        (relay.publisher.received.filter fun event => QuotesPresent event) := by
  obtain ⟨relay, reached, _, buffered, _⟩ := lostReply_completes PubSubTask.oneShare trivial
  have keeps : Runs.Along (step 4) KeepsOrder (start ⟨3, 5⟩ SinkTask.typedPairs)
      (lostReply PubSubTask.oneShare) := by
    refine Runs.along_of_forall _ _ ?_
    rintro action member relay rfl
    simp [lostReply] at member
  exact ⟨relay, reached, buffered,
    stored_events_are_in_order ⟨3, 5⟩ SinkTask.typedPairs 4 _ relay keeps reached⟩

/-- The subscriber's subscription is up, or was until it noticed otherwise. -/
def Listening : SubscriberStage δ → Prop
  | .streaming | .sending _ => True
  | _ => False

/-- Nothing is sent to a subscriber that does not listen. -/
def Quiet (relay : Relay δ) : Prop :=
  Listening relay.subscriber.stage ∨ relay.pending = [] ∧ relay.live = false

omit [Decimal δ] in
theorem Quiet.serve {relay : Relay δ} (quiet : Quiet relay) (command : Command)
    (accepted : Bool) : Quiet (relay.serve command accepted) := by
  rcases quiet with listening | ⟨nothing, down⟩
  · cases accepted <;> exact Or.inl listening
  · right
    cases accepted <;> simp [Relay.serve, nothing, down]

theorem Quiet.step {queueSize : Nat} {relay next : Relay δ} {action : RelayAction δ}
    (taken : step queueSize relay action = some next) (quiet : Quiet relay) : Quiet next := by
  cases moves_of_step taken with
  | publisher | reconnect | vanish | close | giveUp | sink => exact quiet
  | execute command rest accepted head => exact Quiet.serve (by exact quiet) _ _
  | late connection command rest accepted head => exact Quiet.serve (by exact quiet) _ _
  | subscribed connecting => exact Or.inl trivial
  | ended action empty silent =>
    right
    rcases silent with connecting | silent
    · rcases quiet with listening | silent
      · rw [connecting] at listening
        cases listening
      · exact silent
    · exact silent
  | cutOff arrived =>
    rcases quiet with listening | ⟨nothing, _⟩
    · exact Or.inl listening
    · right
      simp [nothing]
  | read source rest streaming first =>
    left
    simp only [SubscriberTask.read]
    split
    · simp [streaming, Listening]
    · trivial
  | forward event channel sending room sent => exact Or.inl trivial
  | resume pausing =>
    rcases quiet with listening | silent
    · rw [pausing] at listening
      cases listening
    · exact Or.inr silent
  | abort => exact Or.inr ⟨rfl, rfl⟩

/-- Nothing goes wrong between the two services: the server refuses no command and executes
none while nobody is subscribed, the client gives up no connection with
commands on it, and no message is lost when the subscription ends. -/
def Steady (relay : Relay δ) : RelayAction δ → Prop
  | .reconnect => relay.wire = []
  | .execute accepted => accepted = true ∧ relay.live = true
  | .cutOff arrived => relay.pending.length ≤ arrived
  | .abort => relay.pending = []
  | _ => True

/-- Everything written was executed or is on the connection in use, and everything
executed was read or is pending. -/
structure Lossless (relay : Relay δ) : Prop where
  leftover : relay.leftover.flatten = []
  written : (relay.executed ++ relay.wire).map Command.payload = sent relay.publisher
  arrived : relay.read ++ relay.pending = relay.executed.map Command.payload
  quiet : Quiet relay

theorem Lossless.step {queueSize : Nat} {relay next : Relay δ} {action : RelayAction δ}
    (steady : Steady relay action) (taken : step queueSize relay action = some next)
    (lossless : Lossless relay) : Lossless next := by
  have quiet := Quiet.step taken lossless.quiet
  obtain ⟨nothing, written, arrived, before⟩ := lossless
  cases moves_of_step taken with
  | publisher action publisher answerable stepped =>
    refine ⟨nothing, ?_, arrived, quiet⟩
    rw [sent_of_step stepped, ← written]
    simp
  | reconnect idle =>
    have empty : relay.wire = [] := steady
    refine ⟨by simp [nothing, empty], ?_, arrived, quiet⟩
    rw [empty] at written
    exact written
  | execute command rest accepted head =>
    obtain ⟨rfl, live⟩ := steady
    rw [head] at written
    refine ⟨nothing, ?_, ?_, quiet⟩
    · simpa [serve] using written
    · simp [serve, live, ← arrived]
  | late connection command rest accepted head => exact absurd head (head_of_leftover nothing)
  | vanish connection =>
    refine ⟨?_, written, arrived, quiet⟩
    have fewer := (List.eraseIdx_sublist relay.leftover connection).flatten
    rw [nothing] at fewer
    exact List.sublist_nil.mp fewer
  | subscribed connecting =>
    refine ⟨nothing, written, ?_, quiet⟩
    rcases before with listening | ⟨empty, _⟩
    · rw [connecting] at listening
      cases listening
    · rw [empty] at arrived
      exact arrived
  | cutOff arrived' =>
    refine ⟨nothing, written, ?_, quiet⟩
    rw [List.take_of_length_le steady]
    exact arrived
  | read source rest streaming first =>
    refine ⟨nothing, written, ?_, quiet⟩
    rw [first] at arrived
    rw [List.append_assoc]
    exact arrived
  | abort =>
    refine ⟨nothing, written, ?_, quiet⟩
    have empty : relay.pending = [] := steady
    rw [empty] at arrived
    exact arrived
  | ended | forward | resume | close | giveUp | sink => exact ⟨nothing, written, arrived, quiet⟩

/-- As long as nothing goes wrong between the two services, what was received is what was read,
what is still to be read, and the publisher's batch. -/
theorem received_of_steady {publisherConfig : PubSubSinkConfig} {sinkConfig : SinkConfig}
    {queueSize : Nat} {actions : List (RelayAction δ)} {relay : Relay δ}
    (steady : Runs.Along (step queueSize) Steady (start publisherConfig sinkConfig) actions)
    (reached : Runs.run (step queueSize) (start publisherConfig sinkConfig) actions = some relay) :
    relay.publisher.received.map payload =
      relay.read ++ (relay.pending ++ relay.wire.map Command.payload) ++
        relay.publisher.batch.map payload := by
  have published : relay.publisher.Accounted serialize :=
    Runs.invariant (fun _ _ _ taken => published_accounted_step taken) reached
      (PubSubTask.accounted_start publisherConfig)
  have lossless : Lossless relay :=
    Runs.invariant_along (fun _ _ _ kept taken => Lossless.step kept taken) steady reached
      ⟨rfl, rfl, rfl, Or.inr ⟨rfl, rfl⟩⟩
  rw [← sent_append_batch published, ← lossless.written, List.map_append, ← lossless.arrived,
    List.append_assoc relay.read]

/-- So the events with both quotes are those that the sink was given, the one that the subscriber
holds, those on their way, and those of the batch. -/
theorem representable_of_steady {publisherConfig : PubSubSinkConfig} {sinkConfig : SinkConfig}
    {queueSize : Nat} {actions : List (RelayAction δ)} {relay : Relay δ}
    (steady : Runs.Along (step queueSize) Steady (start publisherConfig sinkConfig) actions)
    (reached : Runs.run (step queueSize) (start publisherConfig sinkConfig) actions = some relay) :
    (relay.publisher.received.filter fun event => QuotesPresent event) =
      relay.forwarded ++ relay.subscriber.stage.held.toList ++
        (relay.pending ++ relay.wire.map Command.payload).filterMap SubscriberTask.decode ++
        relay.publisher.batch.filter (fun event => QuotesPresent event) := by
  have reading : Reading relay :=
    Runs.invariant (fun _ _ _ taken => Reading.step taken) reached ⟨rfl, rfl, rfl, rfl⟩
  rw [← filterMap_decode, received_of_steady steady reached, List.filterMap_append,
    List.filterMap_append, filterMap_decode, reading.decoded]

/-- As long as nothing goes wrong between the two services, the events with both quotes
that the publisher received are, in their order, those that the sink was given, the one that the
subscriber holds, those that wait for the subscriber or the server, and those in the
publisher's batch, whatever the publisher was told about its pipelines. When nothing
waits any more the sink was given all of them, and the parse failures are the
events without both quotes. -/
theorem steady_relay_loses_nothing (publisherConfig : PubSubSinkConfig)
    (sinkConfig : SinkConfig) (queueSize : Nat) (actions : List (RelayAction δ)) (relay : Relay δ)
    (steady : Runs.Along (step queueSize) Steady (start publisherConfig sinkConfig) actions)
    (reached : Runs.run (step queueSize) (start publisherConfig sinkConfig) actions = some relay) :
    (relay.publisher.received.filter fun event => QuotesPresent event) =
        relay.forwarded ++ relay.subscriber.stage.held.toList ++
          (relay.pending ++ relay.wire.map Command.payload).filterMap SubscriberTask.decode ++
          relay.publisher.batch.filter (fun event => QuotesPresent event) ∧
      (relay.publisher.batch = [] → relay.wire = [] → relay.pending = [] →
        relay.subscriber.stats.parseFailures =
          relay.publisher.received.countP fun event => ¬ QuotesPresent event) := by
  have reading : Reading relay :=
    Runs.invariant (fun _ _ _ taken => Reading.step taken) reached ⟨rfl, rfl, rfl, rfl⟩
  have whole := received_of_steady steady reached
  constructor
  · exact representable_of_steady steady reached
  · intro noBatch noWire noPending
    rw [noBatch, noWire, noPending] at whole
    have read : relay.read = relay.publisher.received.map payload := by simpa using whole.symm
    rw [reading.failures, read, List.countP_map]
    congr 1
    funext event
    by_cases quotes : QuotesPresent event <;> simp [decode_payload, quotes]

/-- The lost reply loses no event: the sink has all that was received. -/
theorem lost_reply_loses_nothing :
    ∃ relay, Runs.run (step 4) (start ⟨3, 5⟩ SinkTask.typedPairs)
        (lostReply PubSubTask.oneShare) = some relay ∧
      relay.publisher.sink.totalDropped = 1 ∧
      relay.subscriber.stats.parseFailures =
        relay.publisher.received.countP fun event => ¬ QuotesPresent event := by
  obtain ⟨relay, reached, dropped, _, batch, wire, pending⟩ :=
    lostReply_completes PubSubTask.oneShare trivial
  have steady : Runs.Along (step 4) Steady (start ⟨3, 5⟩ SinkTask.typedPairs)
      (lostReply PubSubTask.oneShare) := by
    simp [lostReply, Runs.Along, step, Steady, answerable, written, serve, start, stepSink,
      serialize, SubscriberTask.forwarded, PubSubTask.step, PubSubTask.start, PubSubTask.push,
      PubSubTask.flush, PubSubTask.payload?, PubSubTask.inFlight, PubSubTask.reply,
      PubSubTask.stageAfter, Channel.send, Channel.empty, Channel.recv, Except.toOption,
      SinkTask.start, SinkTask.step, SinkTask.push, Sink.connect, SinkTask.typedPairs]
  have kept := steady_relay_loses_nothing ⟨3, 5⟩ SinkTask.typedPairs 4 _ relay steady reached
  exact ⟨relay, reached, dropped, kept.2 batch wire pending⟩

end Relay

end Collector.PubSub
