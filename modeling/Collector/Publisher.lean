import Collector.PubSub
import Collector.Library.Channel
import Collector.Library.Runs
import Mathlib.Algebra.GroupWithZero.Nat

/-!
# The pub/sub sink

`PubSubSink::run` blocks for a first event, then drains the channel until the
batch is full, the linger time is over, or the channel is closed, and publishes
the batch as one pipeline. The close is seen either between two batches or
within a linger, in which case the task returns after the flush.

A reading of the clock comes with the action that makes it. A timeout may end
the wait at any moment, so that nothing depends on how the runtime orders a
timer and an arrival.
-/

namespace Collector.PubSub

variable {δ : Type}

/-- What `run` reads from the configuration. -/
structure PubSubSinkConfig where
  batchMax : Nat
  linger : Nat

/-- The sink's counters. -/
structure PubSubSink where
  config : PubSubSinkConfig
  totalPublished : Nat
  totalDropped : Nat

/-- Where the task waits: for a first event, at the head of the linger loop, for
one more event, for the reply to a pipeline, or not at all any more. -/
inductive PubSubStage where
  | blocking
  | lingering (deadline : Nat)
  | draining (deadline : Nat)
  | publishing (payloads : List String) (channelClosed : Bool)
  | done

/-- A pipeline that was sent, and its reply. -/
structure Pipeline where
  payloads : List String
  success : Bool

/-- The task, its channel, and the history of both. -/
structure PubSubTask (δ : Type) where
  sink : PubSubSink
  channel : Channel (Event δ)
  batch : List (Event δ)
  stage : PubSubStage
  received : List (Event δ)
  pipelines : List Pipeline

/-- What can happen to the task. -/
inductive PubSubAction (δ : Type) where
  | send (event : Event δ)
  | close
  | first (now : Nat)
  | check (now : Nat)
  | more
  | elapsed
  | replied (success : Bool)

namespace PubSubTask

/-- The task as it starts. -/
def start (config : PubSubSinkConfig) : PubSubTask δ := {
  sink := { config := config, totalPublished := 0, totalDropped := 0 }
  channel := .empty
  batch := []
  stage := .blocking
  received := []
  pipelines := [] }

/-- The payload of an event, if it can be serialized. -/
def payload? (serialize : Event δ → Except String String) (event : Event δ) : Option String :=
  (serialize event).toOption

/-- The loop goes on after a flush unless it has seen the close. -/
def stageAfter (channelClosed : Bool) : PubSubStage := if channelClosed then .done else .blocking

/-- `PubSubSink::flush` up to its pipeline: events that cannot be serialized are
dropped one by one, and without any other event there is no pipeline. The program
serializes an event as its `payload`; here any serializer will do. -/
def flush (serialize : Event δ → Except String String) (task : PubSubTask δ)
    (channelClosed : Bool) : PubSubTask δ :=
  let payloads := task.batch.filterMap (payload? serialize)
  let failed := task.batch.countP fun event => (payload? serialize event).isNone
  let drained := { task with
    sink := { task.sink with totalDropped := task.sink.totalDropped + failed }
    batch := [] }
  if payloads.isEmpty then { drained with stage := stageAfter channelClosed }
  else { drained with stage := .publishing payloads channelClosed }

/-- The reply to a pipeline counts all of it as published or dropped. -/
def reply (task : PubSubTask δ) (payloads : List String) (channelClosed success : Bool) :
    PubSubTask δ :=
  { task with
    sink :=
      if success then
        { task.sink with totalPublished := task.sink.totalPublished + payloads.length }
      else { task.sink with totalDropped := task.sink.totalDropped + payloads.length }
    stage := stageAfter channelClosed
    pipelines := task.pipelines ++ [⟨payloads, success⟩] }

/-- Push a received event and go to the head of the linger loop. -/
def push (task : PubSubTask δ) (event : Event δ) (rest : Channel (Event δ)) (deadline : Nat) :
    PubSubTask δ :=
  { task with
    channel := rest
    batch := task.batch ++ [event]
    stage := .lingering deadline
    received := task.received ++ [event] }

/-- One step of the task or of its surroundings. -/
def step (serialize : Event δ → Except String String) (task : PubSubTask δ) :
    PubSubAction δ → Option (PubSubTask δ)
  | .send event => (task.channel.send event).map fun channel => { task with channel := channel }
  | .close => some { task with channel := task.channel.close }
  | .first now =>
    match task.stage with
    | .blocking =>
      match task.channel.recv with
      | some (.item event rest) => some (task.push event rest (now + task.sink.config.linger))
      | some .closed => some { task with stage := .done }
      | none => none
    | _ => none
  | .check now =>
    match task.stage with
    | .lingering deadline =>
      if task.batch.length < task.sink.config.batchMax then
        -- the remaining time saturates at zero
        if deadline - now = 0 then some (task.flush serialize false)
        else some { task with stage := .draining deadline }
      else some (task.flush serialize false)
    | _ => none
  | .more =>
    match task.stage with
    | .draining deadline =>
      match task.channel.recv with
      | some (.item event rest) => some (task.push event rest deadline)
      | some .closed => some (task.flush serialize true)
      | none => none
    | _ => none
  | .elapsed =>
    match task.stage with
    | .draining _ => some (task.flush serialize false)
    | _ => none
  | .replied success =>
    match task.stage with
    | .publishing payloads channelClosed => some (task.reply payloads channelClosed success)
    | _ => none

/-- The payloads of a pipeline that has no reply yet. -/
def inFlight (task : PubSubTask δ) : List String :=
  match task.stage with
  | .publishing payloads _ => payloads
  | _ => []

/-- The events that a pipeline's reply counted as published. -/
def publishedCount (pipeline : Pipeline) : Nat :=
  if pipeline.success then pipeline.payloads.length else 0

/-- The events that a pipeline's reply counted as dropped. -/
def droppedCount (pipeline : Pipeline) : Nat :=
  if pipeline.success then 0 else pipeline.payloads.length

/-- The pipelines, the one in flight and the batch make up what was received, and
the counters agree with them. -/
structure Accounted (serialize : Event δ → Except String String) (task : PubSubTask δ) :
    Prop where
  ordered : task.pipelines.flatMap Pipeline.payloads ++ task.inFlight ++
    task.batch.filterMap (payload? serialize) = task.received.filterMap (payload? serialize)
  published : task.sink.totalPublished = (task.pipelines.map publishedCount).sum
  dropped : task.sink.totalDropped +
      task.batch.countP (fun event => (payload? serialize event).isNone) =
    (task.pipelines.map droppedCount).sum +
      task.received.countP fun event => (payload? serialize event).isNone

/-- No batch outgrows its bound, and none is left between two batches or after
the last. The close is seen only on an empty channel. -/
structure Bounded (config : PubSubSinkConfig) (task : PubSubTask δ) : Prop where
  configured : task.sink.config = config
  full : task.batch.length ≤ max config.batchMax 1
  blocking : task.stage = .blocking → task.batch = []
  draining : ∀ deadline, task.stage = .draining deadline → task.batch.length < config.batchMax
  publishing : ∀ payloads channelClosed, task.stage = .publishing payloads channelClosed →
    task.batch = [] ∧ payloads.length ≤ max config.batchMax 1 ∧
      (channelClosed = true → task.channel.queue = [] ∧ task.channel.closed = true)
  done : task.stage = .done →
    task.batch = [] ∧ task.channel.queue = [] ∧ task.channel.closed = true
  pipelines : ∀ pipeline ∈ task.pipelines, pipeline.payloads.length ≤ max config.batchMax 1

section Serializing

variable {serialize : Event δ → Except String String}

/-- What a step does: the senders change the channel, or the task ends at the
close, pushes an event, waits for one more, flushes, or settles a pipeline. -/
inductive Moves (serialize : Event δ → Except String String) (task : PubSubTask δ) :
    PubSubTask δ → Prop where
  | senders (channel : Channel (Event δ)) (stays : task.channel.closed = true →
      channel = task.channel) : Moves serialize task { task with channel := channel }
  | finish (blocking : task.stage = .blocking) (received : task.channel.recv = some .closed) :
      Moves serialize task { task with stage := .done }
  | first (event : Event δ) (rest : Channel (Event δ)) (deadline : Nat)
      (blocking : task.stage = .blocking) : Moves serialize task (task.push event rest deadline)
  | more (event : Event δ) (rest : Channel (Event δ)) (deadline : Nat)
      (draining : task.stage = .draining deadline) :
      Moves serialize task (task.push event rest deadline)
  | drain (deadline : Nat) (lingering : task.stage = .lingering deadline)
      (room : task.batch.length < task.sink.config.batchMax) :
      Moves serialize task { task with stage := .draining deadline }
  | flush (channelClosed : Bool) (nothing : task.inFlight = [])
      (drained : channelClosed = true → task.channel.recv = some .closed) :
      Moves serialize task (task.flush serialize channelClosed)
  | reply (payloads : List String) (channelClosed success : Bool)
      (publishing : task.stage = .publishing payloads channelClosed) :
      Moves serialize task (task.reply payloads channelClosed success)

theorem moves_of_step {task next : PubSubTask δ} {action : PubSubAction δ}
    (taken : step serialize task action = some next) : Moves serialize task next := by
  cases action with
  | send event =>
    obtain ⟨channel, sent, rfl⟩ := Option.map_eq_some_iff.mp taken
    refine .senders channel ?_
    intro closed
    exact absurd closed (Bool.eq_false_iff.mp (Channel.send_open sent))
  | close =>
    obtain rfl := Option.some.inj taken
    exact .senders task.channel.close Channel.close_of_closed
  | first now =>
    simp only [step] at taken
    split at taken <;> try contradiction
    case h_1 blocking =>
      split at taken
      case h_1 event rest _ =>
        obtain rfl := Option.some.inj taken
        exact .first event rest _ blocking
      case h_2 received =>
        obtain rfl := Option.some.inj taken
        exact .finish blocking received
      case h_3 => cases taken
  | check now =>
    simp only [step] at taken
    split at taken <;> try contradiction
    case h_1 deadline lingering =>
      have nothing : task.inFlight = [] := by simp [inFlight, lingering]
      split at taken
      case isTrue room =>
        split at taken
        case isTrue =>
          obtain rfl := Option.some.inj taken
          exact .flush false nothing nofun
        case isFalse =>
          obtain rfl := Option.some.inj taken
          exact .drain deadline lingering room
      case isFalse =>
        obtain rfl := Option.some.inj taken
        exact .flush false nothing nofun
  | more =>
    simp only [step] at taken
    split at taken <;> try contradiction
    case h_1 deadline draining =>
      split at taken
      case h_1 event rest _ =>
        obtain rfl := Option.some.inj taken
        exact .more event rest deadline draining
      case h_2 received =>
        obtain rfl := Option.some.inj taken
        exact .flush true (by simp [inFlight, draining]) fun _ => received
      case h_3 => cases taken
  | elapsed =>
    simp only [step] at taken
    split at taken <;> try contradiction
    case h_1 deadline draining =>
      obtain rfl := Option.some.inj taken
      exact .flush false (by simp [inFlight, draining]) nofun
  | replied success =>
    simp only [step] at taken
    split at taken <;> try contradiction
    case h_1 payloads channelClosed publishing =>
      obtain rfl := Option.some.inj taken
      exact .reply payloads channelClosed success publishing

/-- A flush puts the payloads of its batch in flight, unless there are none. -/
theorem flush_inFlight (serialize : Event δ → Except String String) (task : PubSubTask δ)
    (channelClosed : Bool) :
    (task.flush serialize channelClosed).inFlight =
      task.batch.filterMap (payload? serialize) := by
  unfold flush
  by_cases none : task.batch.filterMap (payload? serialize) = []
  · cases channelClosed <;> simp [none, inFlight, stageAfter]
  · simp [none, inFlight]

/-- What else a flush changes. -/
theorem flush_fields (serialize : Event δ → Except String String) (task : PubSubTask δ)
    (channelClosed : Bool) :
    (task.flush serialize channelClosed).batch = [] ∧
      (task.flush serialize channelClosed).pipelines = task.pipelines ∧
      (task.flush serialize channelClosed).received = task.received ∧
      (task.flush serialize channelClosed).channel = task.channel ∧
      (task.flush serialize channelClosed).sink = { task.sink with
        totalDropped := task.sink.totalDropped +
          task.batch.countP fun event => (payload? serialize event).isNone } := by
  unfold flush
  by_cases none : task.batch.filterMap (payload? serialize) = [] <;> simp [none]

/-- A flush waits for its pipeline, or the loop goes on. -/
theorem flush_stage (serialize : Event δ → Except String String) (task : PubSubTask δ)
    (channelClosed : Bool) :
    (task.flush serialize channelClosed).stage = stageAfter channelClosed ∨
      (task.flush serialize channelClosed).stage =
        .publishing (task.batch.filterMap (payload? serialize)) channelClosed := by
  unfold flush
  by_cases none : task.batch.filterMap (payload? serialize) = [] <;> simp [none]

/-- The sink takes from its channel in order, and nothing else changes the channel. -/
theorem step_inner {task next : PubSubTask δ} {action : PubSubAction δ}
    (inner : (∀ event, action ≠ .send event) ∧ action ≠ .close)
    (taken : task.step serialize action = some next) :
    next.channel.closed = task.channel.closed ∧
      next.received ++ next.channel.queue = task.received ++ task.channel.queue := by
  have flushed (channelClosed : Bool) :
      (task.flush serialize channelClosed).channel.closed = task.channel.closed ∧
        (task.flush serialize channelClosed).received ++
          (task.flush serialize channelClosed).channel.queue =
            task.received ++ task.channel.queue := by
    obtain ⟨_, _, received, channel, _⟩ := flush_fields serialize task channelClosed
    rw [received, channel]
    exact ⟨rfl, rfl⟩
  have pushed {event : Event δ} {rest : Channel (Event δ)} (deadline : Nat)
      (head : task.channel.recv = some (.item event rest)) :
      (task.push event rest deadline).channel.closed = task.channel.closed ∧
        (task.push event rest deadline).received ++
          (task.push event rest deadline).channel.queue = task.received ++ task.channel.queue := by
    obtain ⟨queued, closed⟩ := Channel.of_recv head
    refine ⟨closed, ?_⟩
    simp [push, queued]
  cases action with
  | send event => exact absurd rfl (inner.1 event)
  | close => exact absurd rfl inner.2
  | first now =>
    simp only [step] at taken
    split at taken <;> try contradiction
    split at taken
    case h_1 event rest head =>
      cases taken
      exact pushed _ head
    case h_2 =>
      cases taken
      exact ⟨rfl, rfl⟩
    case h_3 => cases taken
  | check now =>
    simp only [step] at taken
    split at taken <;> try contradiction
    split at taken
    case isTrue =>
      split at taken <;> cases taken
      · exact flushed false
      · exact ⟨rfl, rfl⟩
    case isFalse =>
      cases taken
      exact flushed false
  | more =>
    simp only [step] at taken
    split at taken <;> try contradiction
    split at taken
    case h_1 event rest head =>
      cases taken
      exact pushed _ head
    case h_2 =>
      cases taken
      exact flushed true
    case h_3 => cases taken
  | elapsed =>
    simp only [step] at taken
    split at taken <;> cases taken
    exact flushed false
  | replied success =>
    simp only [step] at taken
    split at taken <;> cases taken
    exact ⟨rfl, rfl⟩

theorem Accounted.flush {task : PubSubTask δ} (accounted : Accounted serialize task)
    (nothing : task.inFlight = []) (channelClosed : Bool) :
    Accounted serialize (task.flush serialize channelClosed) := by
  obtain ⟨batch, pipelines, received, _, sink⟩ :=
    flush_fields serialize task channelClosed
  constructor
  · rw [flush_inFlight, batch, pipelines, received, ← accounted.ordered, nothing]
    simp
  · rw [sink, pipelines]
    exact accounted.published
  · rw [sink, pipelines, batch, received]
    exact accounted.dropped

theorem Accounted.push {task : PubSubTask δ} (accounted : Accounted serialize task)
    (nothing : task.inFlight = []) (event : Event δ) (rest : Channel (Event δ))
    (deadline : Nat) : Accounted serialize (task.push event rest deadline) := by
  refine ⟨?_, accounted.published, ?_⟩
  · have ordered := accounted.ordered
    rw [nothing] at ordered
    simp only [PubSubTask.push, inFlight, List.filterMap_append, ← ordered, List.append_nil,
      List.append_assoc]
  · have dropped := accounted.dropped
    simp only [PubSubTask.push, List.countP_append]
    omega

theorem Accounted.reply {task : PubSubTask δ} (accounted : Accounted serialize task)
    {payloads : List String} {channelClosed : Bool}
    (publishing : task.stage = .publishing payloads channelClosed) (success : Bool) :
    Accounted serialize (task.reply payloads channelClosed success) := by
  have ordered := accounted.ordered
  have flying : task.inFlight = payloads := by simp [inFlight, publishing]
  have landed : (task.reply payloads channelClosed success).inFlight = [] := by
    cases channelClosed <;> rfl
  constructor
  · rw [landed]
    rw [flying] at ordered
    simpa [PubSubTask.reply] using ordered
  · have published := accounted.published
    cases success <;> simp [PubSubTask.reply, publishedCount, published]
  · have dropped := accounted.dropped
    cases success <;> simp [PubSubTask.reply, droppedCount] <;> omega

/-- A flush keeps the bounds of whatever batch it starts from. -/
theorem Bounded.flush {config : PubSubSinkConfig} {task : PubSubTask δ} {channelClosed : Bool}
    (bounded : Bounded config task)
    (drained : channelClosed = true → task.channel.recv = some .closed) :
    Bounded config (task.flush serialize channelClosed) := by
  obtain ⟨batch, pipelines, _, channel, sink⟩ :=
    flush_fields serialize task channelClosed
  have stage := flush_stage serialize task channelClosed
  have short : (task.batch.filterMap (payload? serialize)).length ≤ max config.batchMax 1 :=
    Nat.le_trans (List.length_filterMap_le _ _) bounded.full
  constructor
  · rw [sink]
    exact bounded.configured
  · simp [batch]
  · exact fun _ => batch
  · intro deadline draining
    rcases stage with ended | publishing
    · cases channelClosed <;> cases ended.symm.trans draining
    · cases publishing.symm.trans draining
  · intro payloads closed waiting
    rcases stage with ended | publishing
    · cases channelClosed <;> cases ended.symm.trans waiting
    · obtain ⟨rfl, rfl⟩ := PubSubStage.publishing.inj (publishing.symm.trans waiting)
      rw [channel]
      exact ⟨batch, short, fun last => Channel.recv_closed (drained last)⟩
  · intro done
    rcases stage with ended | publishing
    · cases channelClosed with
      | false => cases ended.symm.trans done
      | true =>
        rw [channel]
        exact ⟨batch, Channel.recv_closed (drained rfl)⟩
    · cases publishing.symm.trans done
  · rw [pipelines]
    exact bounded.pipelines

/-- A settled pipeline is one of those within the bound. -/
theorem Bounded.reply {config : PubSubSinkConfig} {task : PubSubTask δ} {payloads : List String}
    {channelClosed : Bool} (bounded : Bounded config task)
    (publishing : task.stage = .publishing payloads channelClosed) (success : Bool) :
    Bounded config (task.reply payloads channelClosed success) := by
  obtain ⟨empty, short, drained⟩ := bounded.publishing payloads channelClosed publishing
  constructor
  · cases success <;> exact bounded.configured
  · exact bounded.full
  · exact fun _ => empty
  · intro deadline draining
    cases channelClosed <;> cases draining
  · intro others closed waiting
    cases channelClosed <;> cases waiting
  · intro done
    cases channelClosed with
    | false => cases done
    | true => exact ⟨empty, drained rfl⟩
  · intro pipeline member
    rcases List.mem_append.mp member with earlier | last
    · exact bounded.pipelines pipeline earlier
    · obtain rfl := List.mem_singleton.mp last
      exact short

theorem Accounted.step {task next : PubSubTask δ} {action : PubSubAction δ}
    (taken : step serialize task action = some next) (accounted : Accounted serialize task) :
    Accounted serialize next := by
  cases moves_of_step taken with
  | senders channel stays => exact ⟨accounted.ordered, accounted.published, accounted.dropped⟩
  | finish blocking received =>
    have ordered := accounted.ordered
    refine ⟨?_, accounted.published, accounted.dropped⟩
    simpa [inFlight, blocking] using ordered
  | first event rest deadline blocking =>
    exact accounted.push (by simp [inFlight, blocking]) event rest deadline
  | more event rest deadline draining =>
    exact accounted.push (by simp [inFlight, draining]) event rest deadline
  | drain deadline lingering room =>
    have ordered := accounted.ordered
    refine ⟨?_, accounted.published, accounted.dropped⟩
    simpa [inFlight, lingering] using ordered
  | flush channelClosed nothing drained => exact accounted.flush nothing channelClosed
  | reply payloads channelClosed success publishing => exact accounted.reply publishing success

/-- Each step keeps the bounds: the loop receives one more event only below the
bound, and a first one into an empty batch. -/
theorem Bounded.step {config : PubSubSinkConfig} {task next : PubSubTask δ}
    {action : PubSubAction δ} (taken : step serialize task action = some next)
    (bounded : Bounded config task) : Bounded config next := by
  cases moves_of_step taken with
  | senders channel stays =>
    refine ⟨bounded.configured, bounded.full, bounded.blocking, bounded.draining, ?_, ?_,
      bounded.pipelines⟩
    · intro payloads channelClosed publishing
      obtain ⟨empty, short, drained⟩ := bounded.publishing payloads channelClosed publishing
      refine ⟨empty, short, ?_⟩
      intro last
      rw [stays (drained last).2]
      exact drained last
    · intro done
      obtain ⟨empty, drained, closed⟩ := bounded.done done
      rw [stays closed]
      exact ⟨empty, drained, closed⟩
  | finish blocking received =>
    have empty := bounded.blocking blocking
    exact ⟨bounded.configured, bounded.full, fun _ => empty, nofun, nofun,
      fun _ => ⟨empty, Channel.recv_closed received⟩, bounded.pipelines⟩
  | first event rest deadline blocking =>
    refine ⟨bounded.configured, ?_, nofun, nofun, nofun, nofun, bounded.pipelines⟩
    simp only [push, List.length_append, List.length_singleton]
    rw [bounded.blocking blocking, List.length_nil]
    omega
  | more event rest deadline draining =>
    refine ⟨bounded.configured, ?_, nofun, nofun, nofun, nofun, bounded.pipelines⟩
    simp only [push, List.length_append, List.length_singleton]
    have room := bounded.draining deadline draining
    omega
  | drain deadline lingering room =>
    have below : task.batch.length < config.batchMax := bounded.configured ▸ room
    exact ⟨bounded.configured, bounded.full, nofun, fun _ _ => below, nofun, nofun,
      bounded.pipelines⟩
  | flush channelClosed nothing drained => exact bounded.flush drained
  | reply payloads channelClosed success publishing => exact bounded.reply publishing success

/-- Every payload is counted once. -/
theorem counts_of_pipelines (pipelines : List Pipeline) :
    (pipelines.map publishedCount).sum + (pipelines.map droppedCount).sum =
      (pipelines.flatMap Pipeline.payloads).length := by
  induction pipelines with
  | nil => rfl
  | cons pipeline rest inductionHypothesis =>
    have each : publishedCount pipeline + droppedCount pipeline = pipeline.payloads.length := by
      unfold publishedCount droppedCount
      split <;> omega
    simp only [List.map_cons, List.sum_cons, List.flatMap_cons, List.length_append]
    omega

/-- An event has a payload or counts as one without. -/
theorem payloads_add_failed (serialize : Event δ → Except String String)
    (events : List (Event δ)) :
    (events.filterMap (payload? serialize)).length +
      events.countP (fun event => (payload? serialize event).isNone) = events.length := by
  induction events with
  | nil => rfl
  | cons event rest inductionHypothesis =>
    cases payload : payload? serialize event <;> simp [payload] <;> omega

/-- The accounts of a task without a batch and without a pipeline in flight. -/
theorem Accounted.settled {task : PubSubTask δ} (accounted : Accounted serialize task)
    (nothing : task.inFlight = []) (empty : task.batch = []) :
    task.sink.totalPublished + task.sink.totalDropped = task.received.length ∧
      task.pipelines.flatMap Pipeline.payloads =
        task.received.filterMap (payload? serialize) := by
  have ordered := accounted.ordered
  have published := accounted.published
  have dropped := accounted.dropped
  simp only [nothing, empty, List.append_nil, List.filterMap_nil] at ordered
  simp only [empty, List.countP_nil, Nat.add_zero] at dropped
  have counts := counts_of_pipelines task.pipelines
  have parts := payloads_add_failed serialize task.received
  rw [ordered] at counts
  exact ⟨by omega, ordered⟩

theorem accounted_start (config : PubSubSinkConfig) :
    Accounted serialize (start config : PubSubTask δ) :=
  ⟨rfl, rfl, rfl⟩

theorem bounded_start (config : PubSubSinkConfig) :
    Bounded config (start config : PubSubTask δ) :=
  ⟨rfl, Nat.zero_le _, fun _ => rfl, nofun, nofun, nofun, nofun⟩

/-- After every run of the task no pipeline is larger than its bound, and
wherever the task blocks for a first event or has returned, each received event
was counted once and the pipelines carry what could be serialized, in the order
of receipt. A task that has returned has left nothing in its channel. -/
theorem received_events_are_published_or_dropped
    (serialize : Event δ → Except String String) (config : PubSubSinkConfig)
    (actions : List (PubSubAction δ)) (task : PubSubTask δ)
    (reached : Runs.run (step serialize) (start config) actions = some task) :
    (∀ pipeline ∈ task.pipelines, pipeline.payloads.length ≤ max config.batchMax 1) ∧
      (∀ payloads channelClosed, task.stage = .publishing payloads channelClosed →
        payloads.length ≤ max config.batchMax 1) ∧
      (task.stage = .blocking ∨ task.stage = .done →
        task.sink.totalPublished + task.sink.totalDropped = task.received.length ∧
          task.sink.totalPublished = (task.pipelines.map publishedCount).sum ∧
          task.pipelines.flatMap Pipeline.payloads =
            task.received.filterMap (payload? serialize) ∧
          task.batch = []) ∧
      (task.stage = .done → task.channel.queue = [] ∧ task.channel.closed = true) := by
  have accounted : Accounted serialize task :=
    Runs.invariant (fun _ _ _ taken => Accounted.step taken) reached (accounted_start config)
  have bounded : Bounded config task :=
    Runs.invariant (fun _ _ _ taken => Bounded.step taken) reached (bounded_start config)
  refine ⟨bounded.pipelines, ?_, ?_, fun done => (bounded.done done).2⟩
  · exact fun payloads closed publishing => (bounded.publishing payloads closed publishing).2.1
  · rintro (blocking | done)
    · have empty := bounded.blocking blocking
      obtain ⟨total, ordered⟩ := accounted.settled (by simp [inFlight, blocking]) empty
      exact ⟨total, accounted.published, ordered, empty⟩
    · have empty := (bounded.done done).1
      obtain ⟨total, ordered⟩ := accounted.settled (by simp [inFlight, done]) empty
      exact ⟨total, accounted.published, ordered, empty⟩

end Serializing

/-- A serializer that refuses trades. -/
def withoutTrades : Event PlainDecimal → Except String String
  | .lastTradePrice .. => .error "refused"
  | event => .ok (payload event)

/-- A trade of one share. -/
def oneShare : Event PlainDecimal :=
  .lastTradePrice "0xm" "a1" "1" ⟨"0.57", by decide⟩ ⟨"1", by decide⟩ "BUY" "0" "0xt"

/-- A smaller tick. -/
def smallerTick : Event PlainDecimal :=
  .tickSizeChange "0xm" "a1" "2" .cent .tenthOfCent

/-- The channel is closed within the linger, after a second event. -/
def closedWithinLinger : List (PubSubAction PlainDecimal) :=
  [.send oneShare, .first 10, .check 11, .send smallerTick, .close, .more, .check 12, .more,
    .replied true]

theorem close_within_linger_is_accounted :
    ∃ task, Runs.run (step withoutTrades) (start ⟨3, 5⟩) closedWithinLinger = some task ∧
      task.stage = .done ∧ task.sink.totalDropped = 1 ∧
      task.sink.totalPublished + task.sink.totalDropped = task.received.length ∧
      task.channel.queue = [] :=
  let accounts := received_events_are_published_or_dropped withoutTrades ⟨3, 5⟩
    closedWithinLinger _ rfl
  ⟨_, rfl, rfl, rfl, (accounts.2.2.1 (Or.inr rfl)).1, (accounts.2.2.2 rfl).1⟩

end PubSubTask

end Collector.PubSub
