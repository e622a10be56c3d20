import Collector.Rows
import Collector.Library.Channel
import Collector.Library.Runs

/-!
# The ClickHouse sink

`Sink::run` is one task over a channel and a ticker. It pushes what it receives
into a buffer and flushes the buffer when it is full, at every tick, and once
more when the channel is closed. A flush gives its batch up when it cannot be
serialized, otherwise it waits for the insert, and counts the batch as flushed
or dropped as a whole. While it waits the task neither receives nor ticks.

The task is a step function: an action is one event of its surroundings, and a
state in which an action cannot happen refuses it. `received` and `flushes` are
the history against which the counters are checked.
-/

namespace Collector

variable {δ : Type}

/-- The sink's buffer and its counters. -/
structure Sink (δ : Type) where
  config : SinkConfig
  buffer : List (Event δ)
  totalFlushed : Nat
  totalDropped : Nat
  totalFailures : Nat

/-- How the flush of a batch ended. -/
inductive FlushOutcome where
  | sent
  | insertFailed
  | serializeFailed
deriving DecidableEq

namespace Sink

/-- A connected sink. -/
def connect (config : SinkConfig) : Sink δ := {
  config := config
  buffer := []
  totalFlushed := 0
  totalDropped := 0
  totalFailures := 0 }

/-- Count the buffered batch and clear the buffer. -/
def settle (sink : Sink δ) : FlushOutcome → Sink δ
  | .sent => { sink with
      totalFlushed := sink.totalFlushed + sink.buffer.length
      buffer := [] }
  | .insertFailed | .serializeFailed => { sink with
      totalFailures := sink.totalFailures + 1
      totalDropped := sink.totalDropped + sink.buffer.length
      buffer := [] }

@[simp]
theorem settle_buffer (sink : Sink δ) (outcome : FlushOutcome) :
    (sink.settle outcome).buffer = [] := by
  cases outcome <;> rfl

@[simp]
theorem settle_config (sink : Sink δ) (outcome : FlushOutcome) :
    (sink.settle outcome).config = sink.config := by
  cases outcome <;> rfl

end Sink

/-- Where the task waits: for the first tick, which it skips, in its `select!`,
for the reply to an insert, or not at all any more. An insert remembers whether
it is the one after the channel was closed. -/
inductive SinkStage where
  | starting
  | selecting
  | inserting (body : List String) (draining : Bool)
  | done

/-- A batch that a flush took, and how that ended. -/
structure Flushed (δ : Type) where
  batch : List (Event δ)
  outcome : FlushOutcome

/-- The task, its channel, and the history of both. -/
structure SinkTask (δ : Type) where
  sink : Sink δ
  channel : Channel (Event δ)
  stage : SinkStage
  received : List (Event δ)
  flushes : List (Flushed δ)

/-- What can happen to the task: an event is sent to it, its last sender goes, it
receives, its ticker fires, or its insert is answered. -/
inductive SinkAction (δ : Type) where
  | send (event : Event δ)
  | close
  | receive
  | tick
  | inserted (success : Bool)

namespace SinkTask

/-- The task as it starts. -/
def start (config : SinkConfig) : SinkTask δ := {
  sink := .connect config
  channel := .empty
  stage := .starting
  received := []
  flushes := [] }

/-- The loop goes on after a flush, and `run` returns after the last one. -/
def stageAfter (draining : Bool) : SinkStage := if draining then .done else .selecting

/-- A flush has ended. -/
def settle (task : SinkTask δ) (outcome : FlushOutcome) (draining : Bool) : SinkTask δ :=
  { task with
    sink := task.sink.settle outcome
    stage := stageAfter draining
    flushes := task.flushes ++ [⟨task.sink.buffer, outcome⟩] }

/-- `Sink::flush` up to its insert. The program serializes with
`serializeBatch`; here any serializer will do. -/
def flush (serialize : SinkConfig → List (Event δ) → Except String (List String))
    (task : SinkTask δ) (draining : Bool) : SinkTask δ :=
  if task.sink.buffer.isEmpty then { task with stage := stageAfter draining }
  else
    match serialize task.sink.config task.sink.buffer with
    | .ok body => { task with stage := .inserting body draining }
    | .error _ => task.settle .serializeFailed draining

/-- Push a received event. -/
def push (task : SinkTask δ) (event : Event δ) (rest : Channel (Event δ)) : SinkTask δ :=
  { task with
    sink := { task.sink with buffer := task.sink.buffer ++ [event] }
    channel := rest
    received := task.received ++ [event] }

/-- One step of the task or of its surroundings. -/
def step (serialize : SinkConfig → List (Event δ) → Except String (List String))
    (task : SinkTask δ) : SinkAction δ → Option (SinkTask δ)
  | .send event => (task.channel.send event).map fun channel => { task with channel := channel }
  | .close => some { task with channel := task.channel.close }
  | .receive =>
    match task.stage with
    | .selecting =>
      match task.channel.recv with
      | some (.item event rest) =>
        let pushed := task.push event rest
        if task.sink.config.batchSize ≤ pushed.sink.buffer.length then
          some (pushed.flush serialize false)
        else some pushed
      | some .closed => some (task.flush serialize true)
      | none => none
    | _ => none
  | .tick =>
    match task.stage with
    | .starting => some { task with stage := .selecting }
    | .selecting => some (task.flush serialize false)
    | _ => none
  | .inserted success =>
    match task.stage with
    | .inserting _ draining =>
      some (task.settle (if success then .sent else .insertFailed) draining)
    | _ => none

/-- The events that a settled flush counted as flushed. -/
def sentCount (flushed : Flushed δ) : Nat :=
  match flushed.outcome with
  | .sent => flushed.batch.length
  | _ => 0

/-- The events that a settled flush counted as dropped. -/
def droppedCount (flushed : Flushed δ) : Nat :=
  match flushed.outcome with
  | .sent => 0
  | _ => flushed.batch.length

/-- The counters agree with the history, and the buffer is what was received
after the last flush. -/
structure Accounted (task : SinkTask δ) : Prop where
  ordered : task.flushes.flatMap Flushed.batch ++ task.sink.buffer = task.received
  flushed : task.sink.totalFlushed = (task.flushes.map sentCount).sum
  dropped : task.sink.totalDropped = (task.flushes.map droppedCount).sum

/-- The buffer is within its bound, below the batch size while the task selects,
and empty once it has returned. An insert is the one of the buffered batch. -/
structure Bounded (serialize : SinkConfig → List (Event δ) → Except String (List String))
    (config : SinkConfig) (task : SinkTask δ) : Prop where
  configured : task.sink.config = config
  full : task.sink.buffer.length ≤ max config.batchSize 1
  starting : task.stage = .starting → task.sink.buffer = []
  selecting : task.stage = .selecting → task.sink.buffer.length < max config.batchSize 1
  inserting : ∀ body draining, task.stage = .inserting body draining →
    serialize config task.sink.buffer = .ok body ∧ task.sink.buffer ≠ [] ∧
      (draining = true → task.channel.queue = [] ∧ task.channel.closed = true)
  done : task.stage = .done →
    task.sink.buffer = [] ∧ task.channel.queue = [] ∧ task.channel.closed = true

/-- Every event of a flush is counted once. -/
theorem sentCount_add_droppedCount (flushed : Flushed δ) :
    sentCount flushed + droppedCount flushed = flushed.batch.length := by
  cases flushed with
  | mk batch outcome => cases outcome <;> simp [sentCount, droppedCount]

/-- The two counters together are the length of all flushed batches. -/
theorem counts_of_flushes (flushes : List (Flushed δ)) :
    (flushes.map sentCount).sum + (flushes.map droppedCount).sum =
      (flushes.flatMap Flushed.batch).length := by
  induction flushes with
  | nil => rfl
  | cons flushed rest inductionHypothesis =>
    have each := sentCount_add_droppedCount flushed
    simp only [List.map_cons, List.sum_cons, List.flatMap_cons, List.length_append]
    omega

/-- What was received is counted or still buffered. -/
theorem Accounted.total {task : SinkTask δ} (accounted : Accounted task) :
    task.sink.totalFlushed + task.sink.totalDropped + task.sink.buffer.length =
      task.received.length := by
  rw [accounted.flushed, accounted.dropped, counts_of_flushes, ← accounted.ordered,
    List.length_append]

/-- Settling moves the buffer into the history. -/
theorem Accounted.settle {task : SinkTask δ} (accounted : Accounted task)
    (outcome : FlushOutcome) (draining : Bool) : Accounted (task.settle outcome draining) := by
  constructor
  · simpa [SinkTask.settle, List.flatMap_append] using accounted.ordered
  · have flushed := accounted.flushed
    cases outcome <;> simp [SinkTask.settle, Sink.settle, sentCount, flushed]
  · have dropped := accounted.dropped
    cases outcome <;> simp [SinkTask.settle, Sink.settle, droppedCount, dropped]

/-- A stage is no part of the accounts. -/
theorem Accounted.withStage {task : SinkTask δ} (accounted : Accounted task) (stage : SinkStage) :
    Accounted { task with stage := stage } :=
  ⟨accounted.ordered, accounted.flushed, accounted.dropped⟩

/-- A pushed event is received and buffered. -/
theorem Accounted.push {task : SinkTask δ} (accounted : Accounted task) (event : Event δ)
    (rest : Channel (Event δ)) : Accounted (task.push event rest) := by
  refine ⟨?_, accounted.flushed, accounted.dropped⟩
  have ordered := accounted.ordered
  simp only [SinkTask.push, ← List.append_assoc, ordered]

section Serializing

variable {serialize : SinkConfig → List (Event δ) → Except String (List String)}

/-- A flush is over at once or waits for its insert. -/
theorem flush_cases
    (serialize : SinkConfig → List (Event δ) → Except String (List String))
    (task : SinkTask δ) (draining : Bool) :
    (task.sink.buffer = [] ∧
        task.flush serialize draining = { task with stage := stageAfter draining }) ∨
      (task.sink.buffer ≠ [] ∧ ∃ body, serialize task.sink.config task.sink.buffer = .ok body ∧
        task.flush serialize draining = { task with stage := .inserting body draining }) ∨
      (task.sink.buffer ≠ [] ∧ ∃ reason,
        serialize task.sink.config task.sink.buffer = .error reason ∧
        task.flush serialize draining = task.settle .serializeFailed draining) := by
  unfold flush
  by_cases none : task.sink.buffer = []
  · exact Or.inl ⟨none, by simp [none]⟩
  · cases serialized : serialize task.sink.config task.sink.buffer with
    | ok body => exact Or.inr (Or.inl ⟨none, body, rfl, by simp [none]⟩)
    | error reason => exact Or.inr (Or.inr ⟨none, reason, rfl, by simp [none]⟩)

theorem Accounted.flush {task : SinkTask δ} (accounted : Accounted task) (draining : Bool) :
    Accounted (task.flush serialize draining) := by
  rcases flush_cases serialize task draining with
    ⟨_, ended⟩ | ⟨_, _, _, waits⟩ | ⟨_, _, _, failed⟩
  · exact ended ▸ accounted.withStage _
  · exact waits ▸ accounted.withStage _
  · exact failed ▸ accounted.settle _ _

/-- What a step does: the senders change the channel, or the task skips the first
tick, pushes an event, flushes, or settles a flush. -/
inductive Moves (serialize : SinkConfig → List (Event δ) → Except String (List String))
    (task : SinkTask δ) : SinkTask δ → Prop where
  | senders (channel : Channel (Event δ)) (stays : task.channel.closed = true →
      channel = task.channel) : Moves serialize task { task with channel := channel }
  | skip (starting : task.stage = .starting) : Moves serialize task { task with stage := .selecting }
  | push (event : Event δ) (rest : Channel (Event δ)) (selecting : task.stage = .selecting)
      (room : (task.push event rest).sink.buffer.length < task.sink.config.batchSize) :
      Moves serialize task (task.push event rest)
  | full (event : Event δ) (rest : Channel (Event δ)) (selecting : task.stage = .selecting) :
      Moves serialize task ((task.push event rest).flush serialize false)
  | flush (selecting : task.stage = .selecting) :
      Moves serialize task (task.flush serialize false)
  | last (received : task.channel.recv = some .closed) :
      Moves serialize task (task.flush serialize true)
  | settle (body : List String) (draining : Bool) (outcome : FlushOutcome)
      (waiting : task.stage = .inserting body draining) :
      Moves serialize task (task.settle outcome draining)

theorem moves_of_step {task next : SinkTask δ} {action : SinkAction δ}
    (taken : step serialize task action = some next) : Moves serialize task next := by
  cases action with
  | send event =>
    obtain ⟨channel, sent, rfl⟩ := Option.map_eq_some_iff.mp taken
    refine .senders channel ?_
    intro closed
    exact absurd closed (Bool.eq_false_iff.mp (Channel.send_open sent))
  | close =>
    obtain rfl := Option.some.inj taken
    exact .senders task.channel.close Channel.close_of_closed
  | receive =>
    simp only [step] at taken
    split at taken <;> try contradiction
    case h_1 selecting =>
      split at taken
      case h_1 event rest _ =>
        split at taken
        case isTrue full =>
          obtain rfl := Option.some.inj taken
          exact .full event rest selecting
        case isFalse room =>
          obtain rfl := Option.some.inj taken
          exact .push event rest selecting (Nat.lt_of_not_le room)
      case h_2 received =>
        obtain rfl := Option.some.inj taken
        exact .last received
      case h_3 => cases taken
  | tick =>
    simp only [step] at taken
    split at taken
    case h_1 starting =>
      obtain rfl := Option.some.inj taken
      exact .skip starting
    case h_2 selecting =>
      obtain rfl := Option.some.inj taken
      exact .flush selecting
    case h_3 => cases taken
  | inserted success =>
    simp only [step] at taken
    split at taken
    case h_1 body draining waiting =>
      obtain rfl := Option.some.inj taken
      exact .settle body draining _ waiting
    case h_2 => cases taken

theorem Accounted.step {task next : SinkTask δ} {action : SinkAction δ}
    (taken : step serialize task action = some next) (accounted : Accounted task) :
    Accounted next := by
  cases moves_of_step taken with
  | senders channel stays => exact ⟨accounted.ordered, accounted.flushed, accounted.dropped⟩
  | skip starting => exact accounted.withStage _
  | push event rest selecting room => exact accounted.push event rest
  | full event rest selecting => exact (accounted.push event rest).flush _
  | flush selecting => exact accounted.flush _
  | last received => exact accounted.flush _
  | settle body draining outcome waiting => exact accounted.settle _ _

/-- A settled flush leaves an empty buffer, and the task returns only from a
closed channel. -/
theorem Bounded.settle {config : SinkConfig} {task : SinkTask δ} (outcome : FlushOutcome)
    {draining : Bool} (configured : task.sink.config = config)
    (drained : draining = true → task.channel.queue = [] ∧ task.channel.closed = true) :
    Bounded serialize config (task.settle outcome draining) := by
  have empty : (task.settle outcome draining).sink.buffer = [] := Sink.settle_buffer _ _
  constructor
  · rw [← configured]
    exact Sink.settle_config _ _
  · simp [empty]
  · exact fun _ => empty
  · intro _
    simp only [empty, List.length_nil]
    omega
  · intro body other waiting
    cases draining <;> cases waiting
  · intro done
    cases draining with
    | false => cases done
    | true => exact ⟨empty, drained rfl⟩

/-- A flush keeps the bounds of whatever buffer it starts from. -/
theorem Bounded.flush {config : SinkConfig} {task : SinkTask δ} {draining : Bool}
    (configured : task.sink.config = config)
    (full : task.sink.buffer.length ≤ max config.batchSize 1)
    (drained : draining = true → task.channel.queue = [] ∧ task.channel.closed = true) :
    Bounded serialize config (task.flush serialize draining) := by
  rcases flush_cases serialize task draining with
    ⟨empty, ended⟩ | ⟨some, body, serialized, waits⟩ | ⟨_, _, _, failed⟩
  · rw [ended]
    refine ⟨configured, full, fun _ => empty, ?_, ?_, ?_⟩
    · intro _
      simp only [empty, List.length_nil]
      omega
    · intro body other waiting
      cases draining <;> cases waiting
    · intro done
      cases draining with
      | false => cases done
      | true => exact ⟨empty, drained rfl⟩
  · rw [waits]
    refine ⟨configured, full, nofun, nofun, ?_, nofun⟩
    intro other draining' waiting
    obtain ⟨rfl, rfl⟩ := SinkStage.inserting.inj waiting
    exact ⟨configured ▸ serialized, some, drained⟩
  · rw [failed]
    exact Bounded.settle _ configured drained

/-- Each step keeps the bounds. A received event is pushed below the bound, and a
full buffer is flushed before the task selects again. -/
theorem Bounded.step {config : SinkConfig} {task next : SinkTask δ} {action : SinkAction δ}
    (taken : step serialize task action = some next) (bounded : Bounded serialize config task) :
    Bounded serialize config next := by
  cases moves_of_step taken with
  | senders channel stays =>
    refine ⟨bounded.configured, bounded.full, bounded.starting, bounded.selecting, ?_, ?_⟩
    · intro body draining waiting
      obtain ⟨serialized, some, drained⟩ := bounded.inserting body draining waiting
      refine ⟨serialized, some, ?_⟩
      intro last
      rw [stays (drained last).2]
      exact drained last
    · intro done
      obtain ⟨empty, drained, closed⟩ := bounded.done done
      rw [stays closed]
      exact ⟨empty, drained, closed⟩
  | skip starting =>
    have empty := bounded.starting starting
    refine ⟨bounded.configured, bounded.full, nofun, ?_, nofun, nofun⟩
    intro _
    simp only [empty, List.length_nil]
    omega
  | push event rest selecting room =>
    have below : (task.push event rest).sink.buffer.length < config.batchSize :=
      bounded.configured ▸ room
    refine ⟨bounded.configured, by omega, ?_, fun _ => by omega, ?_, ?_⟩
    · exact fun starting => SinkStage.noConfusion (selecting.symm.trans starting)
    · exact fun _ _ waiting => SinkStage.noConfusion (selecting.symm.trans waiting)
    · exact fun done => SinkStage.noConfusion (selecting.symm.trans done)
  | full event rest selecting =>
    have below := bounded.selecting selecting
    refine Bounded.flush bounded.configured ?_ nofun
    simp only [push, List.length_append, List.length_singleton]
    omega
  | flush selecting => exact Bounded.flush bounded.configured bounded.full nofun
  | last received =>
    exact Bounded.flush bounded.configured bounded.full fun _ => Channel.recv_closed received
  | settle body draining outcome waiting =>
    have drained := (bounded.inserting body draining waiting).2.2
    exact Bounded.settle outcome bounded.configured drained

/-- A started task has received nothing. -/
theorem accounted_start (config : SinkConfig) : Accounted (start config : SinkTask δ) :=
  ⟨rfl, rfl, rfl⟩

theorem bounded_start (config : SinkConfig) :
    Bounded serialize config (start config : SinkTask δ) :=
  ⟨rfl, Nat.zero_le _, fun _ => rfl, nofun, nofun, nofun⟩

/-- After every run of the task: each received event was counted once or is
buffered, the batches of the flushes and the buffer make up what was received in
its order, the buffer is within its bound, and the counters are those of the
flushes. A task that has returned has an empty buffer and has left nothing in
its channel. -/
theorem received_events_are_accounted
    (serialize : SinkConfig → List (Event δ) → Except String (List String))
    (config : SinkConfig) (actions : List (SinkAction δ)) (task : SinkTask δ)
    (reached : Runs.run (step serialize) (start config) actions = some task) :
    task.sink.totalFlushed + task.sink.totalDropped + task.sink.buffer.length =
        task.received.length ∧
      task.sink.buffer.length ≤ max config.batchSize 1 ∧
      task.flushes.flatMap Flushed.batch ++ task.sink.buffer = task.received ∧
      task.sink.totalFlushed = (task.flushes.map sentCount).sum ∧
      task.sink.totalDropped = (task.flushes.map droppedCount).sum ∧
      (task.stage = .done → task.sink.buffer = [] ∧ task.channel.queue = []) := by
  have accounted : Accounted task :=
    Runs.invariant (fun _ _ _ taken => Accounted.step taken) reached (accounted_start config)
  have bounded : Bounded serialize config task :=
    Runs.invariant (fun _ _ _ taken => Bounded.step taken) reached (bounded_start config)
  refine ⟨accounted.total, bounded.full, accounted.ordered, accounted.flushed,
    accounted.dropped, ?_⟩
  intro done
  obtain ⟨empty, drained, _⟩ := bounded.done done
  exact ⟨empty, drained⟩

end Serializing

/-- A tick size change at a time given as a text. -/
def changeAt (timestamp : String) : Event PlainDecimal :=
  .tickSizeChange "0xm" "a1" timestamp .cent .tenthOfCent

/-- Typed rows, two a batch. -/
def typedPairs : SinkConfig := { excludeHash := false, batchSize := 2, schema := .typed }

/-- A full batch whose insert fails, a batch that cannot be serialized, and one
that is sent after the close. -/
def threeFlushes : List (SinkAction PlainDecimal) :=
  [.tick, .send (changeAt "1"), .receive, .send (changeAt "2"), .receive, .inserted false,
    .send (changeAt "soon"), .receive, .tick, .send (changeAt "3"), .receive, .close, .receive,
    .inserted true]

theorem three_flushes_are_accounted :
    ∃ task, Runs.run (step serializeBatch) (start typedPairs) threeFlushes = some task ∧
      task.sink.totalFlushed = 1 ∧ task.sink.totalDropped = 3 ∧
      task.sink.totalFlushed + task.sink.totalDropped + task.sink.buffer.length =
        task.received.length ∧
      task.sink.buffer = [] :=
  let accounts := received_events_are_accounted serializeBatch typedPairs threeFlushes _ rfl
  ⟨_, rfl, rfl, rfl, accounts.1, (accounts.2.2.2.2.2 rfl).1⟩

section BadRows

variable [Decimal δ]

/-- The row of an event whose timestamp is a number. -/
def row? (config : SinkConfig) (event : Event δ) : Option String :=
  (parseI64 event.timestamp).map (writeRow config event)

/-- The body that a flush hands to its insert, if it gets that far. -/
def handed (task : SinkTask δ) : Option (List String) :=
  match (task.flush serializeBatch false).stage with
  | .inserting body _ => some body
  | _ => none

/-- The task after a flush whose insert, if there is one, succeeds. -/
def flushed (task : SinkTask δ) : SinkTask δ :=
  let begun := task.flush serializeBatch false
  match begun.stage with
  | .inserting _ draining => begun.settle .sent draining
  | _ => begun

/-- Bad rows cost only themselves: the rows of all other events are in the body,
in their order, and only the events without a row are counted as dropped. -/
def BadRowsIsolated (task : SinkTask δ) : Prop :=
  (task.sink.buffer.filterMap (row? task.sink.config)).Sublist ((handed task).getD []) ∧
    (flushed task).sink.totalDropped = task.sink.totalDropped +
      task.sink.buffer.countP (fun event => (row? task.sink.config event).isNone)

/-- A batch is serialized when every event has a row, and its lines are those rows. -/
theorem serializeBatch_ok (config : SinkConfig) (events : List (Event δ))
    (rows : ∀ event ∈ events, (row? config event).isSome) :
    serializeBatch config events = .ok (events.filterMap (row? config)) := by
  induction events with
  | nil => rfl
  | cons event rest inductionHypothesis =>
    have first := rows event List.mem_cons_self
    have others := inductionHypothesis fun later member =>
      rows later (List.mem_cons_of_mem event member)
    cases parsed : parseI64 event.timestamp with
    | none => simp [row?, parsed] at first
    | some timestampMs => simp [serializeBatch, row?, parsed, others, Except.map]

/-- One event without a row is enough to give the batch up. -/
theorem serializeBatch_error (config : SinkConfig) (events : List (Event δ)) (bad : Event δ)
    (member : bad ∈ events) (noRow : row? config bad = none) :
    ∃ reason, serializeBatch config events = .error reason := by
  induction events with
  | nil => cases member
  | cons event rest inductionHypothesis =>
    cases parsed : parseI64 event.timestamp with
    | none => exact ⟨event.timestamp, by simp [serializeBatch, parsed]⟩
    | some timestampMs =>
      rcases List.mem_cons.mp member with rfl | later
      · simp [row?, parsed] at noRow
      · obtain ⟨reason, failed⟩ := inductionHypothesis later
        exact ⟨reason, by simp [serializeBatch, parsed, failed, Except.map]⟩

/-- With a row for every event the flush keeps them all. -/
theorem isolated_of_all (task : SinkTask δ)
    (rows : ∀ event ∈ task.sink.buffer, (row? task.sink.config event).isSome) :
    BadRowsIsolated task := by
  have noneBad :
      task.sink.buffer.countP (fun event => (row? task.sink.config event).isNone) = 0 := by
    rw [List.countP_eq_zero]
    intro event member bad
    have good := rows event member
    rw [Option.isNone_iff_eq_none.mp bad] at good
    cases good
  rcases flush_cases serializeBatch task false with
    ⟨empty, ended⟩ | ⟨_, body, serialized, waits⟩ | ⟨_, reason, serialized, _⟩
  · refine ⟨by simp [empty], ?_⟩
    rw [noneBad]
    simp [flushed, ended, stageAfter]
  · rw [serializeBatch_ok _ _ rows] at serialized
    constructor
    · simp [handed, waits, Except.ok.inj serialized]
    · rw [noneBad]
      simp [flushed, waits, SinkTask.settle, Sink.settle]
  · rw [serializeBatch_ok _ _ rows] at serialized
    cases serialized

/-- A bad event gives up the whole batch. -/
theorem dropped_of_bad (task : SinkTask δ) (bad : Event δ) (member : bad ∈ task.sink.buffer)
    (noRow : row? task.sink.config bad = none) :
    handed task = none ∧
      (flushed task).sink.totalDropped = task.sink.totalDropped + task.sink.buffer.length := by
  obtain ⟨reason, failed⟩ := serializeBatch_error task.sink.config _ bad member noRow
  rcases flush_cases serializeBatch task false with
    ⟨empty, _⟩ | ⟨_, body, serialized, _⟩ | ⟨_, _, _, givenUp⟩
  · rw [empty] at member
    cases member
  · rw [failed] at serialized
    cases serialized
  · simp [handed, flushed, givenUp, SinkTask.settle, Sink.settle, stageAfter]

/-- A flush isolates its bad rows exactly when every buffered event has a
timestamp that is a number, or none has. -/
theorem bad_rows_isolated_iff (task : SinkTask δ) :
    BadRowsIsolated task ↔
      (∀ event ∈ task.sink.buffer, (parseI64 event.timestamp).isSome) ∨
        ∀ event ∈ task.sink.buffer, parseI64 event.timestamp = none := by
  constructor
  · rintro ⟨kept, _⟩
    by_contra mixed
    push Not at mixed
    obtain ⟨⟨bad, badMember, unparsable⟩, good, goodMember, parsable⟩ := mixed
    have noRow : row? task.sink.config bad = none := by
      simpa [row?] using unparsable
    obtain ⟨nothing, _⟩ := dropped_of_bad task bad badMember noRow
    obtain ⟨timestampMs, parsed⟩ := Option.ne_none_iff_exists'.mp parsable
    have rowMember : writeRow task.sink.config good timestampMs ∈
        task.sink.buffer.filterMap (row? task.sink.config) :=
      List.mem_filterMap.mpr ⟨good, goodMember, by simp [row?, parsed]⟩
    rw [nothing] at kept
    cases kept.subset rowMember
  · rintro (all | none)
    · exact isolated_of_all task fun event member => by simpa [row?] using all event member
    · have noRows : task.sink.buffer.filterMap (row? task.sink.config) = [] :=
        List.filterMap_eq_nil_iff.mpr fun event member => by simp [row?, none event member]
      cases listed : task.sink.buffer with
      | nil => exact isolated_of_all task (by simp [listed])
      | cons first rest =>
        have member : first ∈ task.sink.buffer := listed ▸ List.mem_cons_self
        obtain ⟨_, counted⟩ := dropped_of_bad task first member (by simp [row?, none first member])
        refine ⟨noRows ▸ List.nil_sublist _, ?_⟩
        rw [counted, List.countP_eq_length.mpr]
        intro event member
        simp [row?, none event member]

end BadRows

/-- A good event is buffered with one that has no time. -/
def mixedBatch : SinkTask PlainDecimal :=
  ((start typedPairs).push (changeAt "1") .empty).push (changeAt "soon") .empty

/-- It is dropped with it. -/
theorem good_row_is_dropped : ¬ BadRowsIsolated mixedBatch := by
  rintro ⟨_, counted⟩
  have dropped : (flushed mixedBatch).sink.totalDropped = 2 := rfl
  rw [dropped] at counted
  exact absurd counted (by decide)

end SinkTask

end Collector
