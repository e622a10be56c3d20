import Collector.Publisher
import Collector.Sink
import Mathlib.Data.List.Flatten
import Mathlib.Data.List.Perm.Subperm

/-!
# From the publisher to the store

The publishing service hands its pipelines to one Redis client, which replaces
its connection after a failure and never sends a pipeline again. The server
reads the commands of a connection in their order, and may still find some on a
connection that the client has given up. A command that is executed reaches the
subscription if there is one at that moment, and nobody otherwise.

The storing service reads its subscription in a loop. It decodes one message at
a time, waits for room in the channel of its sink, and subscribes again after a
pause when the subscription ends. At shutdown the reader is aborted wherever it
waits, and the sink may take what is left in the channel until its time is over.

The channel has this one publisher.
-/

namespace Collector.PubSub

open Serde

variable {δ : Type} [Decimal δ]

/-- One `PUBLISH`, with the number of its pipeline. -/
structure Command where
  pipeline : Nat
  payload : String
deriving DecidableEq

/-- The subscriber's counters. -/
structure SubscriberStats where
  eventsReceived : Nat
  eventsForwarded : Nat
  parseFailures : Nat
  reconnects : Nat

/-- Where the subscriber waits: for its subscription, for a message, for room in
the channel, for the end of its pause, or not at all any more. An abort loses an
event that waits for room. -/
inductive SubscriberStage (δ : Type) where
  | connecting
  | streaming
  | sending (event : Event δ)
  | pausing
  | aborted (lost : Option (Event δ))

/-- The event that is decoded and not forwarded. -/
def SubscriberStage.held : SubscriberStage δ → Option (Event δ)
  | .sending event => some event
  | .aborted lost => lost
  | _ => none

/-- The subscriber's task. -/
structure SubscriberTask (δ : Type) where
  stats : SubscriberStats
  stage : SubscriberStage δ

instance (event : Event δ) : Decidable (QuotesPresent event) :=
  match event with
  | .priceChange _ _ _ bestBid bestAsk _ _ _ _ =>
    inferInstanceAs (Decidable (bestBid.isSome ∧ bestAsk.isSome))
  | .book .. | .lastTradePrice .. | .tickSizeChange .. => isTrue trivial

namespace SubscriberTask

/-- The event of a payload, if it is one. -/
def decode (source : String) : Option (Event δ) := (fromStr Event.deserialize source).toOption

/-- Read one message; `none` is a payload that is not a string. -/
def read (task : SubscriberTask δ) (message : Option String) : SubscriberTask δ :=
  let received := { task.stats with eventsReceived := task.stats.eventsReceived + 1 }
  let failed := { received with parseFailures := received.parseFailures + 1 }
  match message with
  | none => { task with stats := failed }
  | some source =>
    match fromStr Event.deserialize source with
    | .error _ => { task with stats := failed }
    | .ok event => { stats := received, stage := .sending event }

/-- The send of a decoded event has found room. -/
def forwarded (task : SubscriberTask δ) : SubscriberTask δ := {
  stats := { task.stats with eventsForwarded := task.stats.eventsForwarded + 1 }
  stage := .streaming }

/-- `subscribe_once` has returned, with or without an error. -/
def ended (task : SubscriberTask δ) : SubscriberTask δ := {
  stats := { task.stats with reconnects := task.stats.reconnects + 1 }
  stage := .pausing }

/-- The task as the subscriber of a channel that never fills up. -/
def unbounded (task : SubscriberTask δ) (inbound : List (Event δ)) : Subscriber δ := {
  eventsReceived := task.stats.eventsReceived
  eventsForwarded := task.stats.eventsForwarded
  parseFailures := task.stats.parseFailures
  inbound := inbound
  sinkOpen := true }

/-- With room for every event, reading a message and forwarding its event is one step of
`subscribe_once`. -/
theorem subscribeMessage_unbounded (task : SubscriberTask δ) (inbound : List (Event δ))
    (message : Option String) (streaming : task.stage = .streaming) :
    subscribeMessage (task.unbounded inbound) message =
      match (task.read message).stage with
      | .sending event => some ((task.read message).forwarded.unbounded (inbound ++ [event]))
      | _ => some ((task.read message).unbounded inbound) := by
  cases message with
  | none => simp [subscribeMessage, read, streaming, unbounded]
  | some source =>
    cases parsed : (fromStr Event.deserialize source : Except Error (Event δ)) <;>
      simp [subscribeMessage, read, parsed, streaming, unbounded, forwarded]

end SubscriberTask

/-- Both services and what is between them. `wire` is the client's connection and
`leftover` are those it gave up; `pending` was sent to the subscription and has not
been read, and `live` tells whether the subscription stands. `executed` and `read`
are the history. -/
structure Relay (δ : Type) where
  publisher : PubSubTask δ
  wire : List Command
  leftover : List (List Command)
  executed : List Command
  live : Bool
  pending : List String
  read : List String
  subscriber : SubscriberTask δ
  sink : SinkTask δ
  sinkAborted : Bool

/-- What can happen: a step of the publishing service; a new connection; the
server executes or refuses the next command of a connection, or loses a
connection that was given up; the subscription begins, fails, is cut off after
`arrived` more messages, or ends; the subscriber reads, forwards, or ends its pause;
the shutdown aborts it, closes the channel, or gives up the sink; a step of the
sink. -/
inductive RelayAction (δ : Type) where
  | publisher (action : PubSubAction δ)
  | reconnect
  | execute (accepted : Bool)
  | late (connection : Nat) (accepted : Bool)
  | vanish (connection : Nat)
  | subscribed
  | unreachable
  | cutOff (arrived : Nat)
  | streamEnded
  | read
  | forward
  | resume
  | abort
  | close
  | giveUp
  | receive
  | tick
  | inserted (success : Bool)

namespace Relay

/-- The serializer of `flush`, which never fails. -/
def serialize (event : Event δ) : Except String String := .ok (payload event)

/-- Both services as they start. -/
def start (publisher : PubSubSinkConfig) (sink : SinkConfig) : Relay δ := {
  publisher := .start publisher
  wire := []
  leftover := []
  executed := []
  live := false
  pending := []
  read := []
  subscriber := ⟨⟨0, 0, 0, 0⟩, .connecting⟩
  sink := .start sink
  sinkAborted := false }

/-- The commands that a step of the publisher writes: those of a pipeline that was
not in flight before. -/
def written (before after : PubSubTask δ) : List Command :=
  if before.inFlight = [] then after.inFlight.map (Command.mk after.pipelines.length) else []

/-- The server has executed the whole pipeline in flight. -/
def acknowledged (relay : Relay δ) : Prop :=
  relay.publisher.inFlight.length =
    relay.executed.countP (fun command => command.pipeline = relay.publisher.pipelines.length)

instance (relay : Relay δ) : Decidable relay.acknowledged := Nat.decEq _ _

/-- A pipeline succeeds only when the server has answered all of it. -/
def answerable (relay : Relay δ) : PubSubAction δ → Prop
  | .replied true => relay.acknowledged
  | _ => True

instance (relay : Relay δ) (action : PubSubAction δ) : Decidable (relay.answerable action) := by
  unfold answerable
  split <;> infer_instance

/-- The server takes a command. -/
def serve (relay : Relay δ) (command : Command) (accepted : Bool) : Relay δ :=
  if accepted then
    { relay with
      executed := relay.executed ++ [command]
      pending := if relay.live then relay.pending ++ [command.payload] else relay.pending }
  else relay

/-- A step of the sink, unless it was given up. -/
def stepSink (relay : Relay δ) (action : SinkAction δ) : Option (Relay δ) :=
  if relay.sinkAborted then none
  else (relay.sink.step serializeBatch action).map fun sink => { relay with sink := sink }

/-- One step. -/
def step (queueSize : Nat) (relay : Relay δ) : RelayAction δ → Option (Relay δ)
  | .publisher action =>
    if relay.answerable action then
      (relay.publisher.step serialize action).map fun publisher =>
        { relay with
          publisher := publisher
          wire := relay.wire ++ written relay.publisher publisher }
    else none
  | .reconnect =>
    -- the client connects again after the request that noticed the failure
    if relay.publisher.inFlight = [] then
      some { relay with leftover := relay.leftover ++ [relay.wire], wire := [] }
    else none
  | .execute accepted =>
    match relay.wire with
    | command :: rest => some ({ relay with wire := rest }.serve command accepted)
    | [] => none
  | .late connection accepted =>
    match relay.leftover[connection]? with
    | some (command :: rest) =>
      some ({ relay with leftover := relay.leftover.set connection rest }.serve command accepted)
    | _ => none
  | .vanish connection => some { relay with leftover := relay.leftover.eraseIdx connection }
  | .subscribed =>
    match relay.subscriber.stage with
    | .connecting => some { relay with
        live := true
        pending := []
        subscriber := { relay.subscriber with stage := .streaming } }
    | _ => none
  | .unreachable =>
    match relay.subscriber.stage with
    | .connecting => some { relay with subscriber := relay.subscriber.ended }
    | _ => none
  | .cutOff arrived =>
    some { relay with live := false, pending := relay.pending.take arrived }
  | .streamEnded =>
    match relay.subscriber.stage with
    | .streaming =>
      if relay.pending = [] ∧ relay.live = false then
        some { relay with subscriber := relay.subscriber.ended }
      else none
    | _ => none
  | .read =>
    match relay.subscriber.stage, relay.pending with
    | .streaming, source :: rest => some { relay with
        pending := rest
        read := relay.read ++ [source]
        subscriber := relay.subscriber.read (some source) }
    | _, _ => none
  | .forward =>
    match relay.subscriber.stage with
    | .sending event =>
      if relay.sink.channel.queue.length < queueSize then
        (relay.sink.channel.send event).map fun channel =>
          { relay with
            sink := { relay.sink with channel := channel }
            subscriber := relay.subscriber.forwarded }
      else none
    | _ => none
  | .resume =>
    match relay.subscriber.stage with
    | .pausing => some { relay with subscriber := { relay.subscriber with stage := .connecting } }
    | _ => none
  | .abort => some { relay with
      live := false
      pending := []
      subscriber := { relay.subscriber with stage := .aborted relay.subscriber.stage.held } }
  | .close =>
    match relay.subscriber.stage with
    | .aborted _ =>
      some { relay with sink := { relay.sink with channel := relay.sink.channel.close } }
    | _ => none
  | .giveUp =>
    if relay.sink.channel.closed then some { relay with sinkAborted := true } else none
  | .receive => relay.stepSink .receive
  | .tick => relay.stepSink .tick
  | .inserted success => relay.stepSink (.inserted success)

/-- What a step does, by the part that it concerns. -/
inductive Moves (queueSize : Nat) (relay : Relay δ) : RelayAction δ → Relay δ → Prop where
  | publisher (action : PubSubAction δ) (publisher : PubSubTask δ)
      (answerable : relay.answerable action)
      (taken : relay.publisher.step serialize action = some publisher) :
      Moves queueSize relay (.publisher action) { relay with
        publisher := publisher
        wire := relay.wire ++ written relay.publisher publisher }
  | reconnect (nothing : relay.publisher.inFlight = []) :
      Moves queueSize relay .reconnect { relay with
        leftover := relay.leftover ++ [relay.wire]
        wire := [] }
  | execute (command : Command) (rest : List Command) (accepted : Bool)
      (head : relay.wire = command :: rest) :
      Moves queueSize relay (.execute accepted) ({ relay with wire := rest }.serve command accepted)
  | late (connection : Nat) (command : Command) (rest : List Command) (accepted : Bool)
      (head : relay.leftover[connection]? = some (command :: rest)) :
      Moves queueSize relay (.late connection accepted)
        ({ relay with leftover := relay.leftover.set connection rest }.serve command accepted)
  | vanish (connection : Nat) :
      Moves queueSize relay (.vanish connection)
        { relay with leftover := relay.leftover.eraseIdx connection }
  | subscribed (connecting : relay.subscriber.stage = .connecting) :
      Moves queueSize relay .subscribed { relay with
        live := true
        pending := []
        subscriber := { relay.subscriber with stage := .streaming } }
  | ended (action : RelayAction δ) (empty : relay.subscriber.stage.held = none)
      (quiet : relay.subscriber.stage = .connecting ∨ relay.pending = [] ∧ relay.live = false) :
      Moves queueSize relay action { relay with subscriber := relay.subscriber.ended }
  | cutOff (arrived : Nat) :
      Moves queueSize relay (.cutOff arrived)
        { relay with live := false, pending := relay.pending.take arrived }
  | read (source : String) (rest : List String) (streaming : relay.subscriber.stage = .streaming)
      (first : relay.pending = source :: rest) :
      Moves queueSize relay .read { relay with
        pending := rest
        read := relay.read ++ [source]
        subscriber := relay.subscriber.read (some source) }
  | forward (event : Event δ) (channel : Channel (Event δ))
      (sending : relay.subscriber.stage = .sending event)
      (room : relay.sink.channel.queue.length < queueSize)
      (sent : relay.sink.channel.send event = some channel) :
      Moves queueSize relay .forward { relay with
        sink := { relay.sink with channel := channel }
        subscriber := relay.subscriber.forwarded }
  | resume (pausing : relay.subscriber.stage = .pausing) :
      Moves queueSize relay .resume { relay with
        subscriber := { relay.subscriber with stage := .connecting } }
  | abort :
      Moves queueSize relay .abort { relay with
        live := false
        pending := []
        subscriber := { relay.subscriber with stage := .aborted relay.subscriber.stage.held } }
  | close (lost : Option (Event δ)) (aborted : relay.subscriber.stage = .aborted lost) :
      Moves queueSize relay .close
        { relay with sink := { relay.sink with channel := relay.sink.channel.close } }
  | giveUp (closed : relay.sink.channel.closed = true) :
      Moves queueSize relay .giveUp { relay with sinkAborted := true }
  | sink (outer : RelayAction δ) (action : SinkAction δ) (sink : SinkTask δ)
      (inner : ∀ event, action ≠ .send event)
      (taken : relay.sink.step serializeBatch action = some sink) :
      Moves queueSize relay outer { relay with sink := sink }

theorem moves_of_stepSink {queueSize : Nat} {relay next : Relay δ} {action : SinkAction δ}
    (inner : ∀ event, action ≠ .send event) (outer : RelayAction δ)
    (taken : relay.stepSink action = some next) :
    Moves queueSize relay outer next := by
  unfold stepSink at taken
  split at taken
  case isTrue => cases taken
  case isFalse =>
    obtain ⟨sink, stepped, rfl⟩ := Option.map_eq_some_iff.mp taken
    exact .sink outer action sink inner stepped

theorem moves_of_step {queueSize : Nat} {relay next : Relay δ} {action : RelayAction δ}
    (taken : step queueSize relay action = some next) : Moves queueSize relay action next := by
  cases action with
  | publisher action =>
    obtain ⟨answerable, taken⟩ := Option.ite_none_right_eq_some.mp taken
    obtain ⟨publisher, stepped, rfl⟩ := Option.map_eq_some_iff.mp taken
    exact .publisher action publisher answerable stepped
  | reconnect =>
    obtain ⟨nothing, rfl⟩ := Runs.guarded taken
    exact .reconnect nothing
  | execute accepted =>
    simp only [step] at taken
    split at taken
    case h_1 command rest head =>
      obtain rfl := Option.some.inj taken
      exact .execute command rest accepted head
    case h_2 => cases taken
  | late connection accepted =>
    simp only [step] at taken
    split at taken
    case h_1 command rest head =>
      obtain rfl := Option.some.inj taken
      exact .late connection command rest accepted head
    case h_2 => cases taken
  | vanish connection =>
    obtain rfl := Option.some.inj taken
    exact .vanish connection
  | subscribed =>
    simp only [step] at taken
    split at taken
    case h_1 connecting =>
      obtain rfl := Option.some.inj taken
      exact .subscribed connecting
    case h_2 => cases taken
  | unreachable =>
    simp only [step] at taken
    split at taken
    case h_1 connecting =>
      obtain rfl := Option.some.inj taken
      exact .ended _ (by rw [connecting]; rfl) (Or.inl connecting)
    case h_2 => cases taken
  | cutOff arrived =>
    obtain rfl := Option.some.inj taken
    exact .cutOff arrived
  | streamEnded =>
    simp only [step] at taken
    split at taken
    case h_1 streaming =>
      obtain ⟨quiet, rfl⟩ := Runs.guarded taken
      exact .ended _ (by rw [streaming]; rfl) (Or.inr quiet)
    case h_2 => cases taken
  | read =>
    simp only [step] at taken
    split at taken
    case h_1 source rest streaming first =>
      obtain rfl := Option.some.inj taken
      exact .read source rest streaming first
    case h_2 => cases taken
  | forward =>
    simp only [step] at taken
    split at taken
    case h_1 event sending =>
      obtain ⟨room, taken⟩ := Option.ite_none_right_eq_some.mp taken
      obtain ⟨channel, sent, rfl⟩ := Option.map_eq_some_iff.mp taken
      exact .forward event channel sending room sent
    case h_2 => cases taken
  | resume =>
    simp only [step] at taken
    split at taken
    case h_1 pausing =>
      obtain rfl := Option.some.inj taken
      exact .resume pausing
    case h_2 => cases taken
  | abort =>
    obtain rfl := Option.some.inj taken
    exact .abort
  | close =>
    simp only [step] at taken
    split at taken
    case h_1 lost aborted =>
      obtain rfl := Option.some.inj taken
      exact .close lost aborted
    case h_2 => cases taken
  | giveUp =>
    obtain ⟨closed, rfl⟩ := Runs.guarded taken
    exact .giveUp closed
  | receive => exact moves_of_stepSink (by simp) _ taken
  | tick => exact moves_of_stepSink (by simp) _ taken
  | inserted success => exact moves_of_stepSink (by simp) _ taken

/-- The payloads of every pipeline that was written, in their order. -/
def sent (task : PubSubTask δ) : List String :=
  task.pipelines.flatMap PubSub.Pipeline.payloads ++ task.inFlight

/-- What the server has executed, and what waits on some connection. -/
def carried (relay : Relay δ) : List Command :=
  relay.executed ++ relay.wire ++ relay.leftover.flatten

/-- What the subscriber has put into the channel of the sink. -/
def forwarded (relay : Relay δ) : List (Event δ) :=
  relay.sink.received ++ relay.sink.channel.queue

omit [Decimal δ] in
theorem executed_sublist (relay : Relay δ) : relay.executed.Sublist relay.carried := by
  rw [carried, List.append_assoc]
  exact List.sublist_append_left _ _

omit [Decimal δ] in
/-- The payloads that a step writes. -/
theorem map_written (before after : PubSubTask δ) :
    (written before after).map Command.payload =
      if before.inFlight = [] then after.inFlight else [] := by
  unfold written
  split <;> simp [Function.comp_def]

omit [Decimal δ] in
/-- A step writes the payloads of a pipeline once, when it goes in flight. -/
theorem sent_of_step {serializer : Event δ → Except String String} {task next : PubSubTask δ}
    {action : PubSubAction δ} (taken : task.step serializer action = some next) :
    sent next = sent task ++ (written task next).map Command.payload := by
  rw [map_written]
  cases PubSubTask.moves_of_step taken with
  | senders channel stays =>
    cases flying : task.inFlight <;> simp_all [sent, PubSubTask.inFlight]
  | finish blocking received =>
    simp [sent, PubSubTask.inFlight, blocking]
  | first event rest deadline blocking =>
    simp [sent, PubSubTask.push, PubSubTask.inFlight, blocking]
  | more event rest deadline draining =>
    simp [sent, PubSubTask.push, PubSubTask.inFlight, draining]
  | drain deadline lingering room =>
    simp [sent, PubSubTask.inFlight, lingering]
  | flush channelClosed nothing drained =>
    obtain ⟨_, pipelines, _⟩ := PubSubTask.flush_fields serializer task channelClosed
    simp [sent, pipelines, nothing]
  | reply payloads channelClosed success publishing =>
    have flying : task.inFlight = payloads := by simp [PubSubTask.inFlight, publishing]
    have landed : (task.reply payloads channelClosed success).inFlight = [] := by
      cases channelClosed <;> rfl
    have settled : (task.reply payloads channelClosed success).pipelines =
        task.pipelines ++ [⟨payloads, success⟩] := rfl
    simp [sent, flying, landed, settled]

omit [Decimal δ] in
/-- Only the reply to a pipeline counts anything as published. -/
theorem published_of_step {serializer : Event δ → Except String String}
    {task next : PubSubTask δ} {action : PubSubAction δ}
    (taken : task.step serializer action = some next) :
    (next.sink.totalPublished = task.sink.totalPublished ∧
        task.pipelines.length ≤ next.pipelines.length) ∨
      (action = .replied true ∧
        next.sink.totalPublished = task.sink.totalPublished + task.inFlight.length ∧
        next.pipelines.length = task.pipelines.length + 1) := by
  have flushed (channelClosed : Bool) :
      (task.flush serializer channelClosed).sink.totalPublished = task.sink.totalPublished ∧
        task.pipelines.length ≤ (task.flush serializer channelClosed).pipelines.length := by
    obtain ⟨_, pipelines, _, _, sink⟩ := PubSubTask.flush_fields serializer task channelClosed
    rw [pipelines, sink]
    exact ⟨rfl, Nat.le_refl _⟩
  cases action with
  | send event =>
    obtain ⟨channel, _, rfl⟩ := Option.map_eq_some_iff.mp taken
    exact Or.inl ⟨rfl, Nat.le_refl _⟩
  | close =>
    obtain rfl := Option.some.inj taken
    exact Or.inl ⟨rfl, Nat.le_refl _⟩
  | first now =>
    simp only [PubSubTask.step] at taken
    split at taken <;> try contradiction
    split at taken <;> cases taken <;> exact Or.inl ⟨rfl, Nat.le_refl _⟩
  | check now =>
    simp only [PubSubTask.step] at taken
    split at taken <;> try contradiction
    split at taken
    case isTrue =>
      split at taken <;> cases taken
      · exact Or.inl (flushed false)
      · exact Or.inl ⟨rfl, Nat.le_refl _⟩
    case isFalse =>
      cases taken
      exact Or.inl (flushed false)
  | more =>
    simp only [PubSubTask.step] at taken
    split at taken <;> try contradiction
    split at taken <;> cases taken
    · exact Or.inl ⟨rfl, Nat.le_refl _⟩
    · exact Or.inl (flushed true)
  | elapsed =>
    simp only [PubSubTask.step] at taken
    split at taken <;> cases taken
    exact Or.inl (flushed false)
  | replied success =>
    simp only [PubSubTask.step] at taken
    split at taken <;> cases taken
    case h_1 payloads channelClosed publishing =>
      have flying : task.inFlight = payloads := by simp [PubSubTask.inFlight, publishing]
      cases success with
      | false => exact Or.inl ⟨rfl, by simp [PubSubTask.reply]⟩
      | true => exact Or.inr ⟨rfl, by simp [PubSubTask.reply, flying], by simp [PubSubTask.reply]⟩

/-- A part of a list has a part of its images. -/
theorem subperm_filterMap {α β : Type} {left right : List α} (part : left.Subperm right)
    (f : α → Option β) : (left.filterMap f).Subperm (right.filterMap f) := by
  obtain ⟨middle, arranged, kept⟩ := part
  exact ⟨middle.filterMap f, arranged.filterMap f, kept.filterMap f⟩

/-- A command of a connection that was given up is among those left over. -/
theorem flatten_set {leftover : List (List Command)} {connection : Nat} {command : Command}
    {rest : List Command} (head : leftover[connection]? = some (command :: rest)) :
    leftover.flatten.Perm (command :: (leftover.set connection rest).flatten) := by
  induction leftover generalizing connection with
  | nil => cases head
  | cons first others inductionHypothesis =>
    cases connection with
    | zero =>
      obtain rfl : first = command :: rest := Option.some.inj head
      exact .refl _
    | succ connection =>
      simp only [List.flatten_cons, List.set_cons_succ]
      exact ((inductionHypothesis head).append_left first).trans List.perm_middle

/-- What the server executed and what it may still execute was written, each
command once. -/
def Once (relay : Relay δ) : Prop :=
  (relay.carried.map Command.payload).Subperm (sent relay.publisher)

omit [Decimal δ] in
theorem Once.of_carried {relay next : Relay δ} (once : Once relay)
    (carried : next.carried.Subperm relay.carried)
    (same : next.publisher = relay.publisher) : Once next := by
  unfold Once at once ⊢
  rw [← List.filterMap_eq_map] at once ⊢
  rw [same]
  exact (subperm_filterMap carried (some ∘ Command.payload)).trans once

omit [Decimal δ] in
/-- A served command was carried before. -/
theorem carried_serve (relay : Relay δ) (command : Command) (accepted : Bool) :
    (relay.serve command accepted).carried.Subperm
        (relay.executed ++ command :: (relay.wire ++ relay.leftover.flatten)) := by
  cases accepted with
  | false =>
    simp only [serve, carried, List.append_assoc, Bool.false_eq_true, if_false]
    exact ((List.Sublist.refl _).append (List.sublist_cons_self _ _)).subperm
  | true =>
    simp only [serve, carried, List.append_assoc, if_true, List.singleton_append]
    exact List.Subperm.refl _

theorem Once.step {queueSize : Nat} {relay next : Relay δ} {action : RelayAction δ}
    (taken : step queueSize relay action = some next) (once : Once relay) : Once next := by
  cases moves_of_step taken with
  | publisher action publisher answerable stepped =>
    unfold Once
    rw [sent_of_step stepped]
    have moved : Relay.carried
        { relay with
          publisher := publisher
          wire := relay.wire ++ written relay.publisher publisher } =
        relay.executed ++ relay.wire ++ (written relay.publisher publisher ++
          relay.leftover.flatten) := by
      simp [carried]
    have swapped : (relay.executed ++ relay.wire ++ (written relay.publisher publisher ++
        relay.leftover.flatten)).Perm (relay.carried ++ written relay.publisher publisher) := by
      rw [carried, List.append_assoc _ relay.leftover.flatten]
      exact List.perm_append_comm.append_left _
    rw [moved]
    refine (swapped.map Command.payload).subperm.trans ?_
    rw [List.map_append]
    exact (List.subperm_append_right _).mpr once
  | reconnect nothing =>
    refine once.of_carried (List.Perm.subperm ?_) rfl
    simp only [carried, List.append_nil, List.flatten_append, List.flatten_singleton,
      List.append_assoc]
    exact List.perm_append_comm.append_left _
  | execute command rest accepted head =>
    refine once.of_carried ((carried_serve _ command accepted).trans (List.Perm.subperm ?_)) ?_
    · simp [carried, head]
    · cases accepted <;> rfl
  | late connection command rest accepted head =>
    refine once.of_carried ((carried_serve _ command accepted).trans (List.Perm.subperm ?_)) ?_
    · rw [carried, List.append_assoc]
      refine List.Perm.append_left _ (List.perm_middle.symm.trans ?_)
      exact (flatten_set head).symm.append_left _
    · cases accepted <;> rfl
  | vanish connection =>
    refine once.of_carried (List.Sublist.subperm ?_) rfl
    exact (List.Sublist.refl _).append (List.eraseIdx_sublist _ _).flatten
  | subscribed connecting => exact once
  | ended action empty quiet => exact once
  | cutOff arrived => exact once
  | read source rest streaming first => exact once
  | forward event channel sending room sent => exact once
  | resume pausing => exact once
  | abort => exact once
  | close lost aborted => exact once
  | giveUp closed => exact once
  | sink outer action sink inner stepped => exact once

/-- What was read and what waits to be read was executed, in this order. -/
def Delivered (relay : Relay δ) : Prop :=
  (relay.read ++ relay.pending).Sublist (relay.executed.map Command.payload)

omit [Decimal δ] in
/-- A served command reaches a subscription that stands. -/
theorem Delivered.serve {relay : Relay δ} (delivered : Delivered relay) (command : Command)
    (accepted : Bool) : Delivered (relay.serve command accepted) := by
  unfold Delivered at delivered ⊢
  cases accepted with
  | false => exact delivered
  | true =>
    simp only [Relay.serve, if_true, List.map_append, List.map_singleton]
    split
    · rw [← List.append_assoc]
      exact delivered.append (List.Sublist.refl _)
    · exact delivered.trans (List.sublist_append_left _ _)

omit [Decimal δ] in
/-- Less may be pending than before. -/
theorem Delivered.of_pending {relay next : Relay δ} (delivered : Delivered relay)
    (read : next.read = relay.read) (executed : next.executed = relay.executed)
    (fewer : next.pending.Sublist relay.pending) : Delivered next := by
  unfold Delivered at delivered ⊢
  rw [read, executed]
  exact ((List.Sublist.refl _).append fewer).trans delivered

theorem Delivered.step {queueSize : Nat} {relay next : Relay δ} {action : RelayAction δ}
    (taken : step queueSize relay action = some next) (delivered : Delivered relay) :
    Delivered next := by
  cases moves_of_step taken with
  | publisher action publisher answerable stepped => exact delivered
  | reconnect nothing => exact delivered
  | execute command rest accepted head => exact Delivered.serve (by exact delivered) _ _
  | late connection command rest accepted head => exact Delivered.serve (by exact delivered) _ _
  | vanish connection => exact delivered
  | subscribed connecting => exact delivered.of_pending rfl rfl (List.nil_sublist _)
  | ended action empty quiet => exact delivered
  | cutOff arrived => exact delivered.of_pending rfl rfl (List.take_sublist _ _)
  | read source rest streaming first =>
    unfold Delivered at delivered ⊢
    rw [first] at delivered
    rw [List.append_assoc]
    exact delivered
  | forward event channel sending room sent => exact delivered
  | resume pausing => exact delivered
  | abort => exact delivered.of_pending rfl rfl (List.nil_sublist _)
  | close lost aborted => exact delivered
  | giveUp closed => exact delivered
  | sink outer action sink inner stepped => exact delivered

/-- The sink takes from its channel in order, and nothing else puts anything in. -/
theorem forwarded_of_sink {task next : SinkTask δ} {action : SinkAction δ}
    (inner : ∀ event, action ≠ .send event)
    (taken : task.step serializeBatch action = some next) :
    next.received ++ next.channel.queue = task.received ++ task.channel.queue := by
  have flushed (task : SinkTask δ) (draining : Bool) :
      (task.flush serializeBatch draining).received = task.received ∧
        (task.flush serializeBatch draining).channel = task.channel := by
    rcases SinkTask.flush_cases serializeBatch task draining with
      ⟨_, ended⟩ | ⟨_, _, _, waits⟩ | ⟨_, _, _, failed⟩
    · rw [ended]
      exact ⟨rfl, rfl⟩
    · rw [waits]
      exact ⟨rfl, rfl⟩
    · rw [failed]
      exact ⟨rfl, rfl⟩
  cases action with
  | send event => exact absurd rfl (inner event)
  | close =>
    obtain rfl := Option.some.inj taken
    rfl
  | receive =>
    simp only [SinkTask.step] at taken
    split at taken <;> try contradiction
    split at taken
    case h_1 event rest received =>
      obtain ⟨head, _⟩ := Channel.of_recv received
      have pushed : task.received ++ [event] ++ rest.queue =
          task.received ++ task.channel.queue := by
        rw [head, List.append_assoc, List.singleton_append]
      split at taken <;> cases taken
      · obtain ⟨sameReceived, sameChannel⟩ := flushed (task.push event rest) false
        rw [sameReceived, sameChannel]
        exact pushed
      · exact pushed
    case h_2 =>
      cases taken
      obtain ⟨sameReceived, sameChannel⟩ := flushed task true
      rw [sameReceived, sameChannel]
    case h_3 => cases taken
  | tick =>
    simp only [SinkTask.step] at taken
    split at taken <;> cases taken
    · rfl
    · obtain ⟨sameReceived, sameChannel⟩ := flushed task false
      rw [sameReceived, sameChannel]
  | inserted success =>
    simp only [SinkTask.step] at taken
    split at taken <;> cases taken
    rfl

/-- Every read message was forwarded, is held, or could not be decoded, and the
counters say so. -/
structure Reading (relay : Relay δ) : Prop where
  decoded : relay.forwarded ++ relay.subscriber.stage.held.toList =
    relay.read.filterMap SubscriberTask.decode
  received : relay.subscriber.stats.eventsReceived = relay.read.length
  forwarded : relay.subscriber.stats.eventsForwarded = relay.forwarded.length
  failures : relay.subscriber.stats.parseFailures =
    relay.read.countP fun source => (SubscriberTask.decode source : Option (Event δ)).isNone

/-- Another stage that holds the same event, and other reconnects. -/
theorem Reading.of_same {relay next : Relay δ} (reading : Reading relay)
    (held : next.subscriber.stage.held = relay.subscriber.stage.held)
    (read : next.read = relay.read) (forwarded : next.forwarded = relay.forwarded)
    (stats : next.subscriber.stats =
      { relay.subscriber.stats with reconnects := next.subscriber.stats.reconnects }) :
    Reading next := by
  constructor
  · rw [held, read, forwarded]
    exact reading.decoded
  · rw [stats, read]
    exact reading.received
  · rw [stats, forwarded]
    exact reading.forwarded
  · rw [stats, read]
    exact reading.failures

/-- A message that was read is held, or counts as a parse failure. -/
theorem Reading.read {relay : Relay δ} {source : String} (reading : Reading relay)
    (streaming : relay.subscriber.stage = .streaming) (rest : List String) :
    Reading { relay with
      pending := rest
      read := relay.read ++ [source]
      subscriber := relay.subscriber.read (some source) } := by
  have decoded := reading.decoded
  have received := reading.received
  have failures := reading.failures
  rw [streaming] at decoded
  cases parsed : (fromStr Event.deserialize source : Except Error (Event δ)) with
  | error reason =>
    have nothing : (SubscriberTask.decode source : Option (Event δ)) = none := by
      simp [SubscriberTask.decode, parsed, Except.toOption]
    constructor
    · simpa [Relay.forwarded, SubscriberTask.read, parsed, nothing, streaming] using decoded
    · simp [SubscriberTask.read, parsed, received]
    · simpa [Relay.forwarded, SubscriberTask.read, parsed] using reading.forwarded
    · simp [SubscriberTask.read, parsed, nothing, failures]
  | ok event =>
    have some : SubscriberTask.decode source = some event := by
      simp [SubscriberTask.decode, parsed, Except.toOption]
    constructor
    · have before : relay.forwarded = relay.read.filterMap SubscriberTask.decode := by
        simpa [SubscriberStage.held] using decoded
      simp only [SubscriberTask.read, parsed, SubscriberStage.held, Option.toList_some,
        List.filterMap_append, List.filterMap_cons, some, List.filterMap_nil, ← before]
      rfl
    · simp [SubscriberTask.read, parsed, received]
    · simpa [Relay.forwarded, SubscriberTask.read, parsed] using reading.forwarded
    · simp [SubscriberTask.read, parsed, some, failures]

theorem Reading.step {queueSize : Nat} {relay next : Relay δ} {action : RelayAction δ}
    (taken : step queueSize relay action = some next) (reading : Reading relay) :
    Reading next := by
  cases moves_of_step taken with
  | publisher action publisher answerable stepped => exact reading.of_same rfl rfl rfl rfl
  | reconnect nothing => exact reading.of_same rfl rfl rfl rfl
  | execute command rest accepted head =>
    cases accepted <;> exact reading.of_same rfl rfl rfl rfl
  | late connection command rest accepted head =>
    cases accepted <;> exact reading.of_same rfl rfl rfl rfl
  | vanish connection => exact reading.of_same rfl rfl rfl rfl
  | subscribed connecting =>
    exact reading.of_same (by rw [connecting]; rfl) rfl rfl rfl
  | ended action empty quiet => exact reading.of_same empty.symm rfl rfl rfl
  | cutOff arrived => exact reading.of_same rfl rfl rfl rfl
  | read source rest streaming first => exact reading.read streaming rest
  | forward event channel sending room sent =>
    have decoded := reading.decoded
    have forwarded := reading.forwarded
    have queued := Channel.queue_of_send sent
    rw [sending] at decoded
    constructor
    · simpa [Relay.forwarded, queued, SubscriberTask.forwarded, SubscriberStage.held] using decoded
    · exact reading.received
    · simp only [Relay.forwarded, queued, SubscriberTask.forwarded, List.length_append,
        List.length_singleton] at forwarded ⊢
      omega
    · exact reading.failures
  | resume pausing => exact reading.of_same (by rw [pausing]; rfl) rfl rfl rfl
  | abort => exact reading.of_same rfl rfl rfl rfl
  | close lost aborted => exact reading.of_same rfl rfl rfl rfl
  | giveUp closed => exact reading.of_same rfl rfl rfl rfl
  | sink outer action sink inner stepped =>
    exact reading.of_same rfl rfl (forwarded_of_sink inner stepped) rfl

/-- Nothing counts as published that the server did not execute. -/
def Confirmed (relay : Relay δ) : Prop :=
  relay.publisher.sink.totalPublished ≤
    relay.executed.countP fun command => command.pipeline < relay.publisher.pipelines.length

/-- The commands of the pipelines up to one of them. -/
theorem countP_succ (commands : List Command) (bound : Nat) :
    commands.countP (fun command => command.pipeline < bound + 1) =
      commands.countP (fun command => command.pipeline < bound) +
        commands.countP (fun command => command.pipeline = bound) := by
  induction commands with
  | nil => rfl
  | cons command rest inductionHypothesis =>
    simp only [List.countP_cons, inductionHypothesis, decide_eq_true_eq]
    split <;> split <;> split <;> omega

omit [Decimal δ] in
/-- A served command is one more executed or none. -/
theorem Confirmed.serve {relay : Relay δ} (confirmed : Confirmed relay) (command : Command)
    (accepted : Bool) : Confirmed (relay.serve command accepted) := by
  cases accepted with
  | false => exact confirmed
  | true =>
    unfold Confirmed at confirmed ⊢
    simp only [Relay.serve, if_true, List.countP_append]
    omega

theorem Confirmed.step {queueSize : Nat} {relay next : Relay δ} {action : RelayAction δ}
    (taken : step queueSize relay action = some next) (confirmed : Confirmed relay) :
    Confirmed next := by
  cases moves_of_step taken with
  | publisher action publisher answerable stepped =>
    unfold Confirmed at confirmed ⊢
    show publisher.sink.totalPublished ≤
      relay.executed.countP fun command => command.pipeline < publisher.pipelines.length
    rcases published_of_step stepped with ⟨same, more⟩ | ⟨rfl, counted, settled⟩
    · rw [same]
      refine Nat.le_trans confirmed (List.countP_mono_left ?_)
      intro command _ earlier
      simp only [decide_eq_true_eq] at earlier ⊢
      omega
    · -- the whole pipeline was executed, and it is the last one
      have acknowledged : relay.publisher.inFlight.length = _ := answerable
      rw [counted, settled, countP_succ, acknowledged]
      omega
  | reconnect nothing => exact confirmed
  | execute command rest accepted head => exact Confirmed.serve (by exact confirmed) _ _
  | late connection command rest accepted head => exact Confirmed.serve (by exact confirmed) _ _
  | vanish connection => exact confirmed
  | subscribed connecting => exact confirmed
  | ended action empty quiet => exact confirmed
  | cutOff arrived => exact confirmed
  | read source rest streaming first => exact confirmed
  | forward event channel sending room sent => exact confirmed
  | resume pausing => exact confirmed
  | abort => exact confirmed
  | close lost aborted => exact confirmed
  | giveUp closed => exact confirmed
  | sink outer action sink inner stepped => exact confirmed

/-- A payload is decoded to its event, unless a quote is missing. -/
theorem decode_payload (event : Event δ) :
    SubscriberTask.decode (payload event) = if QuotesPresent event then some event else none := by
  unfold SubscriberTask.decode
  rw [fromStr_payload]
  split
  case isTrue quotes =>
    rw [deserialize_serialize event quotes]
    rfl
  case isFalse missing =>
    obtain ⟨name, refused⟩ := deserialize_without_quote event missing
    rw [refused]
    rfl

/-- What the subscriber makes of the payloads of some events. -/
theorem filterMap_decode (events : List (Event δ)) :
    (events.map payload).filterMap SubscriberTask.decode =
      events.filter fun event => QuotesPresent event := by
  rw [List.filterMap_map, ← List.filterMap_eq_filter]
  congr 1
  funext event
  simp [decode_payload, Option.guard]

theorem published_accounted_step {queueSize : Nat} {relay next : Relay δ}
    {action : RelayAction δ} (taken : step queueSize relay action = some next)
    (accounted : relay.publisher.Accounted serialize) : next.publisher.Accounted serialize := by
  cases moves_of_step taken with
  | publisher action publisher answerable stepped =>
    exact PubSubTask.Accounted.step stepped accounted
  | execute command rest accepted head => cases accepted <;> exact accounted
  | late connection command rest accepted head => cases accepted <;> exact accounted
  | reconnect | vanish | subscribed | ended | cutOff | read | forward | resume | abort | close
  | giveUp | sink => exact accounted

theorem stored_accounted_step {queueSize : Nat} {relay next : Relay δ}
    {action : RelayAction δ} (taken : step queueSize relay action = some next)
    (accounted : relay.sink.Accounted) : next.sink.Accounted := by
  cases moves_of_step taken with
  | sink outer action sink inner stepped => exact SinkTask.Accounted.step stepped accounted
  | execute command rest accepted head => cases accepted <;> exact accounted
  | late connection command rest accepted head => cases accepted <;> exact accounted
  | forward event channel sending room sent =>
    exact ⟨accounted.ordered, accounted.flushed, accounted.dropped⟩
  | close lost aborted => exact ⟨accounted.ordered, accounted.flushed, accounted.dropped⟩
  | publisher | reconnect | vanish | subscribed | ended | cutOff | read | resume | abort
  | giveUp => exact accounted

/-- Without a batch in hand, and with a serializer that never fails, what was
received was written. -/
theorem sent_append_batch {task : PubSubTask δ} (accounted : task.Accounted serialize) :
    sent task ++ task.batch.map payload = task.received.map payload := by
  have each : PubSubTask.payload? serialize = fun event : Event δ => some (payload event) := rfl
  have ordered := accounted.ordered
  rw [each] at ordered
  simpa [sent] using ordered

/-- Every payload that was written counts once, or is in flight. -/
theorem sent_length {task : PubSubTask δ} (accounted : task.Accounted serialize) :
    (sent task).length =
      task.sink.totalPublished + task.sink.totalDropped + task.inFlight.length := by
  have each (events : List (Event δ)) :
      events.countP (fun event => (PubSubTask.payload? serialize event).isNone) = 0 :=
    List.countP_eq_zero.mpr fun _ _ => Bool.false_ne_true
  have dropped := accounted.dropped
  rw [each, each] at dropped
  have counts := PubSubTask.counts_of_pipelines task.pipelines
  rw [sent, List.length_append, ← counts, accounted.published]
  omega

/-- Reading the payload of an event with both quotes. -/
theorem read_payload (task : SubscriberTask δ) (event : Event δ) (quotes : QuotesPresent event) :
    task.read (some (payload event)) = {
      stats := { task.stats with eventsReceived := task.stats.eventsReceived + 1 }
      stage := .sending event } := by
  simp only [SubscriberTask.read, fromStr_payload, deserialize_serialize event quotes]

/-- One event is published, and the reply to its pipeline is lost. -/
def lostReply (event : Event PlainDecimal) : List (RelayAction PlainDecimal) :=
  [.publisher (.send event), .publisher (.first 10), .subscribed, .publisher (.check 20),
    .execute true, .publisher (.replied false), .read, .forward, .tick, .receive]

/-- It is dropped by the publisher's count, and buffered by the sink. -/
theorem lostReply_completes (event : Event PlainDecimal) (quotes : QuotesPresent event) :
    ∃ relay, Runs.run (step 4) (start ⟨3, 5⟩ SinkTask.typedPairs) (lostReply event) = some relay ∧
      relay.publisher.sink.totalDropped = 1 ∧ relay.sink.sink.buffer = [event] ∧
      relay.publisher.batch = [] ∧ relay.wire = [] ∧ relay.pending = [] := by
  have read (task : SubscriberTask PlainDecimal) := read_payload task event quotes
  simp [lostReply, Runs.run, step, answerable, written, serve, read, start, stepSink, serialize,
    SubscriberTask.forwarded, PubSubTask.step, PubSubTask.start, PubSubTask.push,
    PubSubTask.flush, PubSubTask.payload?, PubSubTask.inFlight, PubSubTask.reply,
    PubSubTask.stageAfter, Channel.send, Channel.empty, Channel.recv, Except.toOption,
    SinkTask.start, SinkTask.step, SinkTask.push, Sink.connect, SinkTask.typedPairs]

/-- What the sink was given is part of what the publisher received with both quotes, each
event as often as it was received at most. -/
theorem forwarded_subperm {publisherConfig : PubSubSinkConfig} {sinkConfig : SinkConfig}
    {queueSize : Nat} {actions : List (RelayAction δ)} {relay : Relay δ}
    (reached : Runs.run (step queueSize) (start publisherConfig sinkConfig) actions = some relay) :
    relay.forwarded.Subperm (relay.publisher.received.filter fun event => QuotesPresent event) := by
  have published : relay.publisher.Accounted serialize :=
    Runs.invariant (fun _ _ _ taken => published_accounted_step taken) reached
      (PubSubTask.accounted_start publisherConfig)
  have once : Once relay :=
    Runs.invariant (fun _ _ _ taken => Once.step taken) reached (List.Perm.refl _).subperm
  have delivered : Delivered relay :=
    Runs.invariant (fun _ _ _ taken => Delivered.step taken) reached (List.Sublist.refl _)
  have reading : Reading relay :=
    Runs.invariant (fun _ _ _ taken => Reading.step taken) reached ⟨rfl, rfl, rfl, rfl⟩
  have read : relay.read.Subperm (relay.publisher.received.map payload) := by
    rw [← sent_append_batch published]
    have first := (List.sublist_append_left _ _).trans delivered
    exact (first.trans (relay.executed_sublist.map _)).subperm.trans
      (once.trans (List.sublist_append_left _ _).subperm)
  have events := subperm_filterMap read (SubscriberTask.decode (δ := δ))
  rw [filterMap_decode, ← reading.decoded] at events
  exact (List.sublist_append_left _ _).subperm.trans events

/-- What the sink was given is part of what the publisher received with both
quotes, each event as often as it was received at most. It flushes a part of it,
in the order in which it was given. The subscriber's counters account for all it has
read. What the publisher counts as published was executed by the server, and what was
executed counts as published or dropped, or its pipeline is in flight. -/
theorem stored_events_were_received_once (publisherConfig : PubSubSinkConfig)
    (sinkConfig : SinkConfig) (queueSize : Nat) (actions : List (RelayAction δ)) (relay : Relay δ)
    (reached : Runs.run (step queueSize) (start publisherConfig sinkConfig) actions = some relay) :
    relay.forwarded.Subperm (relay.publisher.received.filter fun event => QuotesPresent event) ∧
      relay.sink.flushes.flatMap Flushed.batch ++ relay.sink.sink.buffer ++
        relay.sink.channel.queue = relay.forwarded ∧
      relay.subscriber.stats.eventsReceived =
        relay.subscriber.stats.eventsForwarded + relay.subscriber.stats.parseFailures +
          relay.subscriber.stage.held.toList.length ∧
      relay.subscriber.stats.eventsReceived + relay.pending.length ≤ relay.executed.length ∧
      relay.publisher.sink.totalPublished ≤ relay.executed.length ∧
      relay.executed.length ≤ relay.publisher.sink.totalPublished +
        relay.publisher.sink.totalDropped + relay.publisher.inFlight.length := by
  have published : relay.publisher.Accounted serialize :=
    Runs.invariant (fun _ _ _ taken => published_accounted_step taken) reached
      (PubSubTask.accounted_start publisherConfig)
  have stored : relay.sink.Accounted :=
    Runs.invariant (fun _ _ _ taken => stored_accounted_step taken) reached
      (SinkTask.accounted_start sinkConfig)
  have once : Once relay :=
    Runs.invariant (fun _ _ _ taken => Once.step taken) reached (List.Perm.refl _).subperm
  have delivered : Delivered relay :=
    Runs.invariant (fun _ _ _ taken => Delivered.step taken) reached (List.Sublist.refl _)
  have reading : Reading relay :=
    Runs.invariant (fun _ _ _ taken => Reading.step taken) reached ⟨rfl, rfl, rfl, rfl⟩
  have confirmed : Confirmed relay :=
    Runs.invariant (fun _ _ _ taken => Confirmed.step taken) reached (Nat.le_refl _)
  refine ⟨forwarded_subperm reached, ?_, ?_, ?_, ?_, ?_⟩
  · rw [stored.ordered]
    rfl
  · have parts := congrArg List.length reading.decoded
    have decodable : ∀ sources : List String,
        sources.length = (sources.filterMap (SubscriberTask.decode (δ := δ))).length +
          sources.countP fun source =>
            (SubscriberTask.decode source : Option (Event δ)).isNone := by
      intro sources
      rw [List.length_filterMap_eq_countP, List.length_eq_countP_add_countP]
      congr 2
      funext source
      cases (SubscriberTask.decode source : Option (Event δ)) <;> rfl
    rw [List.length_append, ← reading.forwarded] at parts
    rw [reading.received, reading.failures, decodable, ← parts]
    omega
  · have bound := delivered.length_le
    simp only [List.length_append, List.length_map] at bound
    rw [reading.received]
    exact bound
  · exact Nat.le_trans confirmed List.countP_le_length
  · have bound := once.length_le
    rw [List.length_map, sent_length published] at bound
    exact Nat.le_trans relay.executed_sublist.length_le bound

/-- A lost reply does not make the trade twice. -/
theorem lost_reply_is_stored_once :
    ∃ relay, Runs.run (step 4) (start ⟨3, 5⟩ SinkTask.typedPairs)
        (lostReply PubSubTask.oneShare) = some relay ∧
      relay.sink.sink.buffer = [PubSubTask.oneShare] ∧
      relay.forwarded.Subperm
        (relay.publisher.received.filter fun event => QuotesPresent event) := by
  obtain ⟨relay, reached, _, buffered, _⟩ := lostReply_completes PubSubTask.oneShare trivial
  have accounts := stored_events_were_received_once ⟨3, 5⟩ SinkTask.typedPairs 4
    (lostReply PubSubTask.oneShare) relay reached
  exact ⟨relay, reached, buffered, accounts.1⟩

end Relay

end Collector.PubSub
