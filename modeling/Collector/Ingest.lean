import Collector.Forwarding
import Collector.Snippets

/-!
# From the frames to the channel

Every connection reads text frames between its other work. What a frame has for
the assets that the connection wants goes into a buffer, and the buffer is
pushed into the forwarder that all connections share, event by event, before
anything else. A full channel, a hash without a key and a log snippet that ends
inside a character end the process; a closed channel ends the connection.

Beside the state stand the frames that arrived and what each connection put into
the channel.
-/

namespace Collector.Ingest

open Dedup Snippets
open Connection (SubState SessionOutcome)
open Forwarding (Call)

variable {δ : Type}

/-- A text frame, with what its connection wanted and had counted when it came. -/
structure Arrival where
  connection : Nat
  sub : SubState
  stats : ConnStats
  source : String

/-- The task of a connection, its counters, and what it has left of its last frame. -/
structure Reader (δ : Type) where
  task : Connection.State
  stats : ConnStats
  eventsBuf : List (Event δ)

/-- The connections with the forwarder, and the history. -/
structure State (δ : Type) where
  forwarding : Forwarding.State δ
  readers : Nat → Reader δ
  arrivals : List Arrival
  enqueued : List (Nat × Event δ)

/-- What can happen: a step of a connection that is none of the others, a text frame,
the two halves of a `try_send`, and the end of the receiver. -/
inductive Action where
  | connection (index : Nat) (action : Connection.Action)
  | text (index : Nat) (source : String)
  | push (index : Nat) (checked rotated : Nat)
  | enqueue (index : Nat) (room : Bool)
  | closeChannel

namespace State

/-- No frame, no event and no subscription so far. -/
def initial (ttl now : Nat) : State δ where
  forwarding := Forwarding.initial ttl now
  readers := fun index => ⟨Connection.initial index, ⟨0, 0, 0, 0⟩, []⟩
  arrivals := []
  enqueued := []

/-- The connection is at its `select!`, with nothing left to push. -/
def idle (state : State δ) (index : Nat) : Bool :=
  (state.readers index).eventsBuf.isEmpty && (state.forwarding.inFlight index).isNone

/-- The pool acts at any time, the task only between two frames. The end of a session for
want of a receiver is left to `try_send`. -/
def permits (state : State δ) (index : Nat) : Connection.Action → Bool
  | .dispatch _ | .enqueue | .dropSender => true
  | .endSession .channelClosed => false
  | .attempt | .connect _ | .recv | .written _ | .endSession _ => state.idle index

/-- A panic aborts the process. -/
def abort (state : State δ) : State δ :=
  { state with forwarding := { state.forwarding with exited := true } }

/-- Replace what is known of one connection. -/
def setReader (state : State δ) (index : Nat) (reader : Reader δ) : State δ :=
  { state with readers := Function.update state.readers index reader }

end State

section System

variable [Decimal δ]

/-- What a frame leaves in the buffer of its connection. -/
def Arrival.events (finite : String → Bool) (arrival : Arrival) : List (Event δ) :=
  match onText finite arrival.sub arrival.stats [] arrival.source with
  | some (.events _ eventsBuf) => eventsBuf
  | _ => []

theorem Arrival.events_of_handled {finite : String → Bool} (arrival : Arrival)
    {stats : ConnStats} {eventsBuf : List (Event δ)}
    (handled : onText finite arrival.sub arrival.stats [] arrival.source =
      some (.events stats eventsBuf)) : arrival.events finite = eventsBuf := by
  rw [Arrival.events, handled]

/-- A text frame is read. -/
def State.read (finite : String → Bool) (state : State δ) (index : Nat) (source : String) :
    State δ :=
  let reader := state.readers index
  let arrived := { state with
    arrivals := state.arrivals ++ [⟨index, reader.task.sub, reader.stats, source⟩] }
  match onText finite reader.task.sub reader.stats [] source with
  | none => arrived.abort
  | some (.events stats eventsBuf) =>
    arrived.setReader index { reader with stats := stats, eventsBuf := eventsBuf }
  | some _ => arrived

/-- The locked section of a `try_send`, for the first event of the buffer. -/
def State.lock (state : State δ) (index : Nat) (event : Event δ) (rest : List (Event δ))
    (key : UInt64) (checked rotated : Nat) : State δ :=
  { state with forwarding := state.forwarding.lock index event key checked rotated }.setReader index
    { state.readers index with eventsBuf := rest }

/-- The end of a `try_send`, by what the channel answers. -/
def State.finish (state : State δ) (index : Nat) (event : Event δ) (room : Bool) : State δ :=
  let reader := state.readers index
  let after := { state with forwarding := state.forwarding.enqueue index event room }
  match state.forwarding.answer room with
  | .ok => { after with enqueued := state.enqueued ++ [(index, event)] }
  | .full => after
  | .closed => after.setReader index { reader with
      task := reader.task.endSession .channelClosed
      eventsBuf := [] }

/-- One step. -/
def step (hasher : List UInt8 → UInt64) (finite : String → Bool) (state : State δ) :
    Action → Option (State δ)
  | .connection index action =>
    if state.forwarding.exited = false ∧ state.permits index action then
      (Connection.step (state.readers index).task action).map fun task =>
        state.setReader index { state.readers index with task := task }
    else none
  | .text index source =>
    if state.forwarding.exited = false ∧ (state.readers index).task.phase = .listening ∧
        state.idle index then
      some (state.read finite index source)
    else none
  | .push index checked rotated =>
    match (state.readers index).eventsBuf with
    | [] => none
    | event :: rest =>
      match dedupKey hasher event with
      | none => if state.forwarding.exited = false ∧ (state.forwarding.inFlight index).isNone then
          some state.abort else none
      | some _ =>
        (Forwarding.step hasher state.forwarding (.lock index event checked rotated)).map
          fun forwarding =>
            { state with forwarding := forwarding }.setReader index
              { state.readers index with eventsBuf := rest }
  | .enqueue index room =>
    if state.forwarding.exited = false then
      (state.forwarding.inFlight index).map fun event => state.finish index event room
    else none
  | .closeChannel =>
    some { state with forwarding := { state.forwarding with channelClosed := true } }

/-- What a step does. -/
inductive Moves (hasher : List UInt8 → UInt64) (finite : String → Bool) (state : State δ) :
    State δ → Prop where
  | task (index : Nat) (action : Connection.Action) (task : Connection.State)
      (permitted : state.permits index action = true)
      (taken : Connection.step (state.readers index).task action = some task) :
      Moves hasher finite state (state.setReader index { state.readers index with task := task })
  | read (index : Nat) (source : String)
      (listening : (state.readers index).task.phase = .listening)
      (idle : state.idle index = true) :
      Moves hasher finite state (state.read finite index source)
  | abort : Moves hasher finite state state.abort
  | push (index : Nat) (event : Event δ) (rest : List (Event δ)) (key : UInt64)
      (checked rotated : Nat) (next : (state.readers index).eventsBuf = event :: rest)
      (keyed : dedupKey hasher event = some key)
      (taken : Forwarding.step hasher state.forwarding (.lock index event checked rotated) =
        some (state.forwarding.lock index event key checked rotated)) :
      Moves hasher finite state (state.lock index event rest key checked rotated)
  | finish (index : Nat) (event : Event δ) (room : Bool)
      (running : state.forwarding.exited = false)
      (carried : state.forwarding.inFlight index = some event) :
      Moves hasher finite state (state.finish index event room)
  | close : Moves hasher finite state
      { state with forwarding := { state.forwarding with channelClosed := true } }

/-- A push takes the first event of the buffer. Without a key for it the process ends. -/
theorem push_cases {hasher : List UInt8 → UInt64} {finite : String → Bool} {state next : State δ}
    {index checked rotated : Nat}
    (taken : step hasher finite state (.push index checked rotated) = some next) :
    ∃ event rest, (state.readers index).eventsBuf = event :: rest ∧ (next = state.abort ∨
      ∃ key, dedupKey hasher event = some key ∧
        Forwarding.step hasher state.forwarding (.lock index event checked rotated) =
          some (state.forwarding.lock index event key checked rotated) ∧
        next = state.lock index event rest key checked rotated) := by
  simp only [step] at taken
  split at taken
  case h_1 => cases taken
  case h_2 event rest buffered =>
    refine ⟨event, rest, buffered, ?_⟩
    split at taken
    case h_1 =>
      obtain ⟨_, rfl⟩ := Runs.guarded taken
      exact Or.inl rfl
    case h_2 =>
      obtain ⟨forwarding, locked, rfl⟩ := Option.map_eq_some_iff.mp taken
      obtain ⟨key, _, _, _, keyed, rfl⟩ := Forwarding.step_lock locked
      exact Or.inr ⟨key, keyed, locked, rfl⟩

theorem moves_of_step {hasher : List UInt8 → UInt64} {finite : String → Bool}
    {state next : State δ} {action : Action} (taken : step hasher finite state action = some next) :
    Moves hasher finite state next := by
  cases action with
  | connection index action =>
    obtain ⟨⟨_, permitted⟩, taken⟩ := Option.ite_none_right_eq_some.mp taken
    obtain ⟨task, stepped, rfl⟩ := Option.map_eq_some_iff.mp taken
    exact .task index action task permitted stepped
  | text index source =>
    obtain ⟨⟨_, listening, idle⟩, rfl⟩ := Runs.guarded taken
    exact .read index source listening idle
  | push index checked rotated =>
    obtain ⟨event, rest, buffered, rfl | ⟨key, keyed, locked, rfl⟩⟩ := push_cases taken
    · exact .abort
    · exact .push index event rest key checked rotated buffered keyed locked
  | enqueue index room =>
    obtain ⟨running, taken⟩ := Option.ite_none_right_eq_some.mp taken
    obtain ⟨event, carried, rfl⟩ := Option.map_eq_some_iff.mp taken
    exact .finish index event room running carried
  | closeChannel =>
    obtain rfl := Option.some.inj taken
    exact .close

/-- A push that nothing keeps from its locked section. -/
theorem step_push {hasher : List UInt8 → UInt64} {finite : String → Bool} {state : State δ}
    {index checked rotated : Nat} {event : Event δ} {rest : List (Event δ)} {key : UInt64}
    (running : state.forwarding.exited = false) (going : state.forwarding.stopped index = false)
    (vacant : state.forwarding.inFlight index = none) (later : state.forwarding.clock ≤ checked)
    (ordered : checked ≤ rotated) (buffered : (state.readers index).eventsBuf = event :: rest)
    (keyed : dedupKey hasher event = some key) :
    step hasher finite state (.push index checked rotated) =
      some (state.lock index event rest key checked rotated) := by
  simp [step, buffered, keyed, Forwarding.step, running, going, vacant, later, ordered, State.lock]

/-- The enqueue of what is in flight. -/
theorem step_enqueue {hasher : List UInt8 → UInt64} {finite : String → Bool} {state : State δ}
    {index : Nat} {event : Event δ} (running : state.forwarding.exited = false)
    (carried : state.forwarding.inFlight index = some event) (room : Bool) :
    step hasher finite state (.enqueue index room) = some (state.finish index event room) := by
  simp [step, running, carried]

/-- The cache and the history of calls agree, whatever the connections do. -/
theorem sound_step {hasher : List UInt8 → UInt64} {finite : String → Bool} {interval : Nat}
    (state : State δ) (action : Action) (next : State δ)
    (taken : step hasher finite state action = some next)
    (sound : Forwarding.Sound interval state.forwarding) :
    Forwarding.Sound interval next.forwarding := by
  cases moves_of_step taken with
  | task => exact sound
  | read index source =>
    unfold State.read
    simp only
    split
    · exact ⟨sound.rotates, sound.past, sound.held, sound.remembered, sound.spaced, sound.sourced⟩
    · exact sound
    · exact sound
  | abort =>
    exact ⟨sound.rotates, sound.past, sound.held, sound.remembered, sound.spaced, sound.sourced⟩
  | push index event rest key checked rotated buffered keyed locked =>
    exact Forwarding.sound_step _ _ _ locked sound
  | finish index event room running carried =>
    have stepped : Forwarding.step hasher state.forwarding (.enqueue index room) =
        some (state.forwarding.enqueue index event room) := by
      simp [Forwarding.step, running, carried]
    have enqueued := Forwarding.sound_step _ _ _ stepped sound
    unfold State.finish
    simp only
    split <;> exact enqueued
  | close =>
    exact ⟨sound.rotates, sound.past, sound.held, sound.remembered, sound.spaced, sound.sourced⟩

namespace State

/-- What the frames of a connection had for it, in order. -/
def wantedOf (finite : String → Bool) (state : State δ) (index : Nat) : List (Event δ) :=
  (state.arrivals.filter fun arrival => arrival.connection = index).flatMap
    (Arrival.events finite)

omit [Decimal δ]

/-- What a connection has pushed, in order. -/
def pushedOf (state : State δ) (index : Nat) : List (Event δ) :=
  state.forwarding.calls.filterMap fun call =>
    if call.connection = index then some call.event else none

/-- What a connection was the first to push, in order. -/
def acceptedOf (state : State δ) (index : Nat) : List (Event δ) :=
  state.forwarding.calls.filterMap fun call =>
    if call.connection = index ∧ call.accepted = true then some call.event else none

/-- What a connection has put into the channel, in order. -/
def enqueuedOf (state : State δ) (index : Nat) : List (Event δ) :=
  state.enqueued.filterMap fun (connection, event) =>
    if connection = index then some event else none

end State

omit [Decimal δ] in
/-- What was accepted of a connection was pushed by it. -/
theorem acceptedOf_sublist (state : State δ) (index : Nat) :
    (state.acceptedOf index).Sublist (state.pushedOf index) := by
  unfold State.acceptedOf State.pushedOf
  induction state.forwarding.calls with
  | nil => exact List.Sublist.refl []
  | cons call rest inductionHypothesis =>
    by_cases same : call.connection = index
    · cases accepted : call.accepted with
      | true => simpa [same, accepted] using inductionHypothesis
      | false =>
        simp only [List.filterMap_cons, same, accepted, Bool.false_eq_true, and_false, if_false,
          if_true]
        exact inductionHypothesis.cons call.event
    · simpa [same] using inductionHypothesis

/-- Each connection has pushed what its frames had for it, up to what is in its buffer, and
put into the channel what it was the first to push, up to the event in flight. A connection
that was stopped, and in the second case the process, may have lost the rest. -/
structure Traced (finite : String → Bool) (state : State δ) : Prop where
  channel : state.forwarding.forwarder.globalTx = state.enqueued.map Prod.snd
  pushed : ∀ index, ∃ lost, state.pushedOf index ++ (state.readers index).eventsBuf ++ lost =
    state.wantedOf finite index ∧ (state.forwarding.stopped index = false → lost = [])
  sent : ∀ index, ∃ lost, state.enqueuedOf index ++ (state.forwarding.inFlight index).toList ++
    lost = state.acceptedOf index ∧
      (state.forwarding.stopped index = false → state.forwarding.exited = false → lost = [])
  stopped : ∀ index, state.forwarding.stopped index = true →
    (state.readers index).task.phase = .returned ∧ (state.readers index).eventsBuf = [] ∧
      state.forwarding.inFlight index = none ∧ state.forwarding.channelClosed = true

theorem traced_initial (finite : String → Bool) (ttl now : Nat) :
    Traced finite (State.initial ttl now : State δ) where
  channel := rfl
  pushed := fun _ => ⟨[], rfl, fun _ => rfl⟩
  sent := fun _ => ⟨[], rfl, fun _ _ => rfl⟩
  stopped := fun _ => nofun

omit [Decimal δ] in
theorem setReader_same (state : State δ) (index : Nat) (reader : Reader δ) :
    (state.setReader index reader).readers index = reader := by
  simp [State.setReader]

omit [Decimal δ] in
theorem setReader_other (state : State δ) {index other : Nat} (reader : Reader δ)
    (different : other ≠ index) :
    (state.setReader index reader).readers other = state.readers other := by
  simp [State.setReader, different]

omit [Decimal δ] in
/-- An idle connection has nothing to push and nothing in flight. -/
theorem of_idle {state : State δ} {index : Nat} (idle : state.idle index = true) :
    (state.readers index).eventsBuf = [] ∧ state.forwarding.inFlight index = none := by
  obtain ⟨nothing, vacant⟩ := Bool.and_eq_true_iff.mp idle
  exact ⟨List.isEmpty_iff.mp nothing, Option.isNone_iff_eq_none.mp vacant⟩

/-- A step of the task or of the pool touches neither buffer nor channel. -/
theorem Traced.task {finite : String → Bool} {state : State δ} (traced : Traced finite state)
    {index : Nat} {action : Connection.Action} {task : Connection.State}
    (taken : Connection.step (state.readers index).task action = some task) :
    Traced finite (state.setReader index { state.readers index with task := task }) where
  channel := traced.channel
  pushed := by
    intro other
    by_cases same : other = index
    · subst same
      rw [setReader_same]
      exact traced.pushed other
    · rw [setReader_other state _ same]
      exact traced.pushed other
  sent := traced.sent
  stopped := by
    intro other stopped
    obtain ⟨returned, rest⟩ := traced.stopped other stopped
    by_cases same : other = index
    · subst same
      rw [setReader_same]
      exact ⟨Connection.step_returned taken returned, rest⟩
    · rw [setReader_other state _ same]
      exact ⟨returned, rest⟩

/-- A frame fills the buffer of its connection, which was empty. -/
theorem Traced.read {finite : String → Bool} {state : State δ} (traced : Traced finite state)
    {index : Nat} (source : String) (listening : (state.readers index).task.phase = .listening)
    (idle : state.idle index = true) : Traced finite (state.read finite index source) := by
  have notStopped : state.forwarding.stopped index = false := by
    apply Bool.eq_false_iff.mpr
    intro stopped
    have returned := (traced.stopped index stopped).1
    rw [listening] at returned
    cases returned
  have nothing := (of_idle idle).1
  let arrival : Arrival :=
    ⟨index, (state.readers index).task.sub, (state.readers index).stats, source⟩
  have wanted (other : Nat) (after : State δ)
      (arrived : after.arrivals = state.arrivals ++ [arrival]) :
      after.wantedOf finite other = state.wantedOf finite other ++
        if other = index then arrival.events finite else [] := by
    unfold State.wantedOf
    rw [arrived, List.filter_append, List.flatMap_append]
    by_cases same : other = index
    · simp [same, arrival]
    · simp [same, Ne.symm same, arrival]
  have before (other : Nat) := traced.pushed other
  -- a frame without events, or one that ends the process, leaves the buffer empty
  have quiet (after : State δ) (arrived : after.arrivals = state.arrivals ++ [arrival])
      (none : arrival.events (δ := δ) finite = []) (other : Nat) :
      after.wantedOf finite other = state.wantedOf finite other := by
    rw [wanted other after arrived, none, ite_self, List.append_nil]
  unfold State.read
  simp only
  split
  case h_1 panics =>
    have none : arrival.events (δ := δ) finite = [] := by
      simp only [arrival, Arrival.events, panics]
    constructor
    · exact traced.channel
    · intro other
      rw [quiet _ rfl none other]
      exact before other
    · intro other
      obtain ⟨lost, tiles, _⟩ := traced.sent other
      exact ⟨lost, tiles, fun _ => nofun⟩
    · exact traced.stopped
  case h_2 stats eventsBuf handled =>
    have events : arrival.events finite = eventsBuf := by
      simp only [arrival, Arrival.events, handled]
    constructor
    · exact traced.channel
    · intro other
      rw [wanted other _ rfl, events]
      obtain ⟨lost, tiles, whole⟩ := before other
      by_cases same : other = index
      · subst same
        rw [setReader_same, if_pos rfl]
        rw [nothing, whole notStopped, List.append_nil, List.append_nil] at tiles
        exact ⟨[], by rw [List.append_nil, ← tiles]; rfl, fun _ => rfl⟩
      · rw [setReader_other _ _ same, if_neg same, List.append_nil]
        exact ⟨lost, tiles, whole⟩
    · exact traced.sent
    · intro other stopped
      have different : other ≠ index := by
        intro same
        rw [same] at stopped
        exact absurd (stopped.symm.trans notStopped) (by decide)
      rw [setReader_other _ _ different]
      exact traced.stopped other stopped
  case h_3 handled other quietly =>
    have none : arrival.events (δ := δ) finite = [] := by
      simp only [arrival, Arrival.events]
      split
      case h_1 stats eventsBuf also =>
        exact absurd (Option.some.inj (quietly.symm.trans also)) (other stats eventsBuf)
      case h_2 => rfl
    constructor
    · exact traced.channel
    · intro other
      rw [quiet _ rfl none other]
      exact before other
    · exact traced.sent
    · exact traced.stopped

/-- An event leaves the buffer for its locked section, and is in flight when it is accepted. -/
theorem Traced.push {hasher : List UInt8 → UInt64} {finite : String → Bool} {state : State δ}
    (traced : Traced finite state) {index : Nat} {event : Event δ} {rest : List (Event δ)}
    {key : UInt64} {checked rotated : Nat}
    (next : (state.readers index).eventsBuf = event :: rest)
    (taken : Forwarding.step hasher state.forwarding (.lock index event checked rotated) =
      some (state.forwarding.lock index event key checked rotated)) :
    Traced finite (state.lock index event rest key checked rotated) := by
  obtain ⟨_, vacant, _⟩ := Forwarding.step_lock taken
  obtain ⟨running, notStopped, _⟩ := (Option.ite_none_right_eq_some.mp taken).1
  have calls : (state.forwarding.lock index event key checked rotated).calls =
      state.forwarding.calls ++
        [⟨index, event, key, checked, state.forwarding.verdict key checked rotated⟩] := rfl
  constructor
  · exact (Forwarding.lock_globalTx state.forwarding index event key checked rotated).trans
      traced.channel
  · intro other
    obtain ⟨lost, tiles, whole⟩ := traced.pushed other
    refine ⟨lost, ?_, whole⟩
    by_cases same : other = index
    · subst same
      rw [next] at tiles
      rw [State.lock, setReader_same]
      simpa [State.pushedOf, State.setReader, State.wantedOf, calls] using tiles
    · rw [State.lock, setReader_other _ _ same]
      simpa [State.pushedOf, State.setReader, State.wantedOf, calls, Ne.symm same] using tiles
  · intro other
    obtain ⟨lost, tiles, whole⟩ := traced.sent other
    refine ⟨lost, ?_, whole⟩
    by_cases same : other = index
    · subst same
      rw [whole notStopped running, vacant] at tiles
      rw [whole notStopped running]
      cases verdict : state.forwarding.verdict key checked rotated with
      | true =>
        have carried : (state.forwarding.lock other event key checked rotated).inFlight other =
            some event := Forwarding.inFlight_lock_self event verdict
        simpa [State.enqueuedOf, State.acceptedOf, State.lock, State.setReader, calls, verdict,
          carried] using tiles
      | false =>
        have kept : (state.forwarding.lock other event key checked rotated).inFlight other =
            none := by
          rw [Forwarding.lock_inFlight, verdict, if_neg Bool.false_ne_true, vacant]
        simpa [State.enqueuedOf, State.acceptedOf, State.lock, State.setReader, calls, verdict,
          kept] using tiles
    · have kept : (state.forwarding.lock index event key checked rotated).inFlight other =
          state.forwarding.inFlight other :=
        Forwarding.inFlight_lock_of_ne event key checked rotated same
      simpa [State.enqueuedOf, State.acceptedOf, State.lock, State.setReader, calls, kept,
        Ne.symm same] using tiles
  · intro other stopped
    have different : other ≠ index := by
      intro same
      rw [same] at stopped
      exact absurd (stopped.symm.trans notStopped) (by decide)
    rw [State.lock, setReader_other _ _ different]
    obtain ⟨returned, nothing, idle, closed⟩ := traced.stopped other stopped
    have kept : (state.forwarding.lock index event key checked rotated).inFlight other =
        state.forwarding.inFlight other :=
      Forwarding.inFlight_lock_of_ne event key checked rotated different
    exact ⟨returned, nothing, kept.trans idle, closed⟩

/-- A task that carries an event has not been told to stop. -/
theorem Traced.notStopped {finite : String → Bool} {state : State δ}
    (traced : Traced finite state) {index : Nat} {event : Event δ}
    (carried : state.forwarding.inFlight index = some event) :
    state.forwarding.stopped index = false := by
  apply Bool.eq_false_iff.mpr
  intro stopped
  rw [(traced.stopped index stopped).2.2.1] at carried
  cases carried

section Finishing

variable {finite : String → Bool} {state : State δ} {index : Nat} {event : Event δ}
  {room : Bool}

/-- What a task that was told to stop carries is nothing, also after another one's `try_send`. -/
theorem Traced.stillStopped (traced : Traced finite state)
    (carried : state.forwarding.inFlight index = some event) {other : Nat}
    (wasStopped : state.forwarding.stopped other = true) :
    (state.readers other).task.phase = .returned ∧ (state.readers other).eventsBuf = [] ∧
      (state.forwarding.enqueue index event room).inFlight other = none ∧
      state.forwarding.channelClosed = true := by
  have different : other ≠ index := by
    intro same
    rw [same, traced.notStopped carried] at wasStopped
    cases wasStopped
  obtain ⟨returned, nothing, idle, closed⟩ := traced.stopped other wasStopped
  exact ⟨returned, nothing,
    (Forwarding.inFlight_enqueue_of_ne state.forwarding event room different).trans idle, closed⟩

/-- The channel takes the event. -/
theorem Traced.accepted (traced : Traced finite state) (running : state.forwarding.exited = false)
    (carried : state.forwarding.inFlight index = some event)
    (reached : state.forwarding.answer room = .ok) :
    Traced finite { state with
      forwarding := state.forwarding.enqueue index event room
      enqueued := state.enqueued ++ [(index, event)] } := by
  have vacated : (state.forwarding.enqueue index event room).inFlight index = none := by
    simp [Forwarding.State.enqueue]
  have stopped : (state.forwarding.enqueue index event room).stopped =
      state.forwarding.stopped := by
    simp [Forwarding.State.enqueue, reached]
  constructor
  · simp [Forwarding.enqueue_globalTx, reached, traced.channel]
  · intro other
    rw [stopped]
    exact traced.pushed other
  · intro other
    obtain ⟨lost, tiles, whole⟩ := traced.sent other
    refine ⟨lost, ?_, ?_⟩
    · by_cases same : other = index
      · subst same
        rw [carried] at tiles
        simpa [State.enqueuedOf, State.acceptedOf, vacated] using tiles
      · have kept := Forwarding.inFlight_enqueue_of_ne state.forwarding event room same
        simpa [State.enqueuedOf, State.acceptedOf, kept, Ne.symm same] using tiles
    · intro notStopped _
      exact whole (stopped ▸ notStopped) running
  · intro other wasStopped
    rw [stopped] at wasStopped
    exact traced.stillStopped carried wasStopped

/-- A full channel ends the process, and the event is lost. -/
theorem Traced.overflowed (traced : Traced finite state)
    (carried : state.forwarding.inFlight index = some event)
    (full : state.forwarding.answer room = .full) :
    Traced finite { state with forwarding := state.forwarding.enqueue index event room } := by
  have vacated : (state.forwarding.enqueue index event room).inFlight index = none := by
    simp [Forwarding.State.enqueue]
  have exited : (state.forwarding.enqueue index event room).exited = true := by
    simp [Forwarding.State.enqueue, full]
  have stopped : (state.forwarding.enqueue index event room).stopped =
      state.forwarding.stopped := by
    simp [Forwarding.State.enqueue, full]
  constructor
  · simp [Forwarding.enqueue_globalTx, full, traced.channel]
  · intro other
    rw [stopped]
    exact traced.pushed other
  · intro other
    obtain ⟨lost, tiles, whole⟩ := traced.sent other
    by_cases same : other = index
    · subst same
      refine ⟨event :: lost, ?_, fun _ still => absurd (exited.symm.trans still) (by decide)⟩
      rw [carried] at tiles
      simpa [State.enqueuedOf, State.acceptedOf, vacated] using tiles
    · have kept := Forwarding.inFlight_enqueue_of_ne state.forwarding event room same
      refine ⟨lost, ?_, fun _ still => absurd (exited.symm.trans still) (by decide)⟩
      simpa [State.enqueuedOf, State.acceptedOf, kept] using tiles
  · intro other wasStopped
    rw [stopped] at wasStopped
    exact traced.stillStopped carried wasStopped

/-- A closed channel ends the task, and its events are lost. -/
theorem Traced.refused (traced : Traced finite state) (running : state.forwarding.exited = false)
    (carried : state.forwarding.inFlight index = some event)
    (closed : state.forwarding.answer room = .closed) :
    Traced finite (State.setReader
      { state with forwarding := state.forwarding.enqueue index event room } index
      { state.readers index with
        task := (state.readers index).task.endSession .channelClosed
        eventsBuf := [] }) := by
  have vacated : (state.forwarding.enqueue index event room).inFlight index = none := by
    simp [Forwarding.State.enqueue]
  have kept {other : Nat} (different : other ≠ index) :
      (state.forwarding.enqueue index event room).inFlight other =
        state.forwarding.inFlight other :=
    Forwarding.inFlight_enqueue_of_ne state.forwarding event room different
  have stopped (other : Nat) : (state.forwarding.enqueue index event room).stopped other =
      if other = index then true else state.forwarding.stopped other := by
    simp [Forwarding.State.enqueue, closed, Function.update_apply]
  have channelClosed : state.forwarding.channelClosed = true := by
    unfold Forwarding.State.answer at closed
    split at closed
    case isTrue channelClosed => exact channelClosed
    case isFalse => split at closed <;> cases closed
  constructor
  · simp [State.setReader, Forwarding.enqueue_globalTx, closed, traced.channel]
  · intro other
    obtain ⟨lost, tiles, whole⟩ := traced.pushed other
    by_cases same : other = index
    · subst same
      rw [setReader_same]
      refine ⟨(state.readers other).eventsBuf ++ lost, ?_, fun running => ?_⟩
      · simpa [State.pushedOf, State.wantedOf, State.setReader] using tiles
      · simp [State.setReader, stopped] at running
    · rw [setReader_other _ _ same]
      refine ⟨lost, tiles, fun running => whole ?_⟩
      simpa [State.setReader, stopped, same] using running
  · intro other
    obtain ⟨lost, tiles, whole⟩ := traced.sent other
    by_cases same : other = index
    · subst same
      refine ⟨event :: lost, ?_, fun running => ?_⟩
      · rw [carried] at tiles
        simpa [State.enqueuedOf, State.acceptedOf, State.setReader, vacated] using tiles
      · simp [State.setReader, stopped] at running
    · refine ⟨lost, ?_, fun notStopped _ => whole ?_ running⟩
      · simpa [State.enqueuedOf, State.acceptedOf, State.setReader, kept same] using tiles
      · simpa [State.setReader, stopped, same] using notStopped
  · intro other wasStopped
    by_cases same : other = index
    · subst same
      rw [setReader_same]
      exact ⟨rfl, rfl, vacated, channelClosed⟩
    · rw [setReader_other _ _ same]
      have before : state.forwarding.stopped other = true := by
        simpa [State.setReader, stopped, same] using wasStopped
      obtain ⟨returned, nothing, idle, closed⟩ := traced.stopped other before
      exact ⟨returned, nothing, (kept same).trans idle, closed⟩

end Finishing

/-- The answer of the channel puts the event in flight into it, or ends the process or the
connection. -/
theorem Traced.finish {finite : String → Bool} {state : State δ} (traced : Traced finite state)
    {index : Nat} {event : Event δ} (room : Bool) (running : state.forwarding.exited = false)
    (carried : state.forwarding.inFlight index = some event) :
    Traced finite (state.finish index event room) := by
  unfold State.finish
  simp only
  split
  case h_1 reached => exact traced.accepted running carried reached
  case h_2 full => exact traced.overflowed carried full
  case h_3 closed => exact traced.refused running carried closed

theorem Traced.step {hasher : List UInt8 → UInt64} {finite : String → Bool}
    (state : State δ) (action : Action) (next : State δ)
    (taken : step hasher finite state action = some next) (traced : Traced finite state) :
    Traced finite next := by
  cases moves_of_step taken with
  | task index action task permitted stepped => exact traced.task stepped
  | read index source listening idle => exact traced.read source listening idle
  | abort =>
    refine ⟨traced.channel, traced.pushed, ?_, traced.stopped⟩
    intro index
    obtain ⟨lost, tiles, _⟩ := traced.sent index
    exact ⟨lost, tiles, fun _ => nofun⟩
  | push index event rest key checked rotated buffered keyed locked =>
    exact traced.push buffered locked
  | finish index event room running carried => exact traced.finish room running carried
  | close =>
    refine ⟨traced.channel, traced.pushed, traced.sent, ?_⟩
    intro index stopped
    obtain ⟨returned, nothing, idle, _⟩ := traced.stopped index stopped
    exact ⟨returned, nothing, idle, rfl⟩

/-- The key of a call is the key of its event. -/
def Keyed (hasher : List UInt8 → UInt64) (state : State δ) : Prop :=
  ∀ call ∈ state.forwarding.calls, dedupKey hasher call.event = some call.key

theorem keyed_step {hasher : List UInt8 → UInt64} {finite : String → Bool}
    (state : State δ) (action : Action) (next : State δ)
    (taken : step hasher finite state action = some next) (keyed : Keyed hasher state) :
    Keyed hasher next := by
  cases moves_of_step taken with
  | task => exact keyed
  | read index source =>
    unfold State.read
    simp only
    split <;> exact keyed
  | abort => exact keyed
  | push index event rest key checked rotated buffered isKey locked =>
    intro call member
    cases List.mem_append.mp member with
    | inl before => exact keyed call before
    | inr new =>
      rw [List.mem_singleton.mp new]
      exact isKey
  | finish index event room =>
    unfold State.finish
    simp only
    split <;> exact keyed
  | close => exact keyed

/-- Nothing was pushed before the start. -/
def Since (start : Nat) (state : State δ) : Prop :=
  start ≤ state.forwarding.clock ∧ ∀ call ∈ state.forwarding.calls, start ≤ call.time

theorem since_step {hasher : List UInt8 → UInt64} {finite : String → Bool} {start : Nat}
    (state : State δ) (action : Action) (next : State δ)
    (taken : step hasher finite state action = some next) (since : Since start state) :
    Since start next := by
  cases moves_of_step taken with
  | task => exact since
  | read index source =>
    unfold State.read
    simp only
    split <;> exact since
  | abort => exact since
  | push index event rest key checked rotated buffered keyed locked =>
    obtain ⟨_, _, later, ordered, _⟩ := Forwarding.step_lock locked
    obtain ⟨clock, times⟩ := since
    refine ⟨clock.trans (later.trans ordered), ?_⟩
    intro call member
    cases List.mem_append.mp member with
    | inl before => exact times call before
    | inr new =>
      rw [List.mem_singleton.mp new]
      exact clock.trans later
  | finish index event room =>
    unfold State.finish
    simp only
    split <;> exact since
  | close => exact since

/-- A frame that is taken leaves what it has for the wanted assets. -/
theorem wanted_of_handleText {finite : String → Bool} {source : String} {sub : SubState}
    {stats after : ConnStats} {eventsBuf left : List (Event δ)}
    (handled : handleText finite source sub stats eventsBuf = .ok (after, left)) :
    ∃ messages : List (WireMessage δ), left = eventsBuf ++ wanted sub messages := by
  unfold handleText at handled
  cases decoded : (readFrame finite source : Except Serde.Error (WireFrame δ)) with
  | error error =>
    rw [decoded] at handled
    cases handled
  | ok frame =>
    rw [decoded] at handled
    obtain ⟨_, same⟩ := Prod.mk.inj (Except.ok.inj handled)
    exact ⟨frame.messages, same.symm⟩

/-- What is in the buffer of a connection is wanted by it. -/
theorem assetId_mem_of_mem_events {finite : String → Bool} {arrival : Arrival} {event : Event δ}
    (member : event ∈ arrival.events finite) : event.assetId ∈ arrival.sub.desired := by
  unfold Arrival.events onText at member
  simp only at member
  split at member
  case h_2 => cases member
  case h_1 stats eventsBuf handled =>
    split at handled
    · cases handled
    · split at handled
      · cases handled
      · split at handled
        case h_2 =>
          obtain ⟨_, _, impossible⟩ := Option.map_eq_some_iff.mp handled
          cases impossible
        case h_1 decoded =>
          obtain ⟨rfl, rfl⟩ := Handled.events.inj (Option.some.inj handled)
          obtain ⟨messages, rfl⟩ := wanted_of_handleText decoded
          exact of_decide_eq_true (List.mem_filter.mp member).2

/-- What a connection has put into the channel comes from its frames, in their order. -/
theorem Traced.ordered {finite : String → Bool} {state : State δ} (traced : Traced finite state)
    (index : Nat) : (state.enqueuedOf index).Sublist (state.acceptedOf index) ∧
      (state.acceptedOf index).Sublist (state.wantedOf finite index) := by
  obtain ⟨_, sent, _⟩ := traced.sent index
  obtain ⟨_, pushed, _⟩ := traced.pushed index
  constructor
  · rw [← sent, List.append_assoc]
    exact List.sublist_append_left _ _
  · rw [← pushed, List.append_assoc]
    exact (acceptedOf_sublist state index).trans (List.sublist_append_left _ _)

/-- As long as the channel takes what it is given, an event that a frame had for its connection
is in the buffer, or an event of the same key is in the channel or on its way there. -/
theorem Traced.covers {hasher : List UInt8 → UInt64} {finite : String → Bool} {interval : Nat}
    {state : State δ} (traced : Traced finite state)
    (sound : Forwarding.Sound interval state.forwarding) (keyed : Keyed hasher state)
    (running : state.forwarding.exited = false) (opened : state.forwarding.channelClosed = false)
    {arrival : Arrival} (member : arrival ∈ state.arrivals) {event : Event δ}
    (wanted : event ∈ arrival.events finite) :
    event ∈ (state.readers arrival.connection).eventsBuf ∨
      ∃ twin, dedupKey hasher twin = dedupKey hasher event ∧
        (twin ∈ state.forwarding.forwarder.globalTx ∨
          ∃ index, state.forwarding.inFlight index = some twin) := by
  have going (index : Nat) : state.forwarding.stopped index = false := by
    apply Bool.eq_false_iff.mpr
    intro stopped
    exact absurd ((traced.stopped index stopped).2.2.2.symm.trans opened) (by decide)
  have here : event ∈ state.pushedOf arrival.connection ++
      (state.readers arrival.connection).eventsBuf := by
    obtain ⟨lost, tiles, whole⟩ := traced.pushed arrival.connection
    rw [whole (going _), List.append_nil] at tiles
    rw [tiles]
    apply List.mem_flatMap.mpr
    exact ⟨arrival, List.mem_filter.mpr ⟨member, decide_eq_true rfl⟩, wanted⟩
  cases List.mem_append.mp here with
  | inr left => exact Or.inl left
  | inl pushed =>
    obtain ⟨call, called, same⟩ := List.mem_filterMap.mp pushed
    obtain ⟨_, rfl⟩ := Runs.guarded same
    obtain ⟨source, found, accepted, sameKey⟩ := sound.accepted_of_call called
    have key : dedupKey hasher source.event = dedupKey hasher call.event := by
      rw [keyed source found, keyed call called, sameKey]
    have twin : source.event ∈ state.acceptedOf source.connection := by
      apply List.mem_filterMap.mpr
      exact ⟨source, found, if_pos ⟨rfl, accepted⟩⟩
    obtain ⟨lost, tiles, whole⟩ := traced.sent source.connection
    rw [whole (going _) running, List.append_nil] at tiles
    rw [← tiles] at twin
    right
    cases List.mem_append.mp twin with
    | inl enqueued =>
      obtain ⟨⟨connection, event⟩, entered, same⟩ := List.mem_filterMap.mp enqueued
      obtain ⟨_, rfl⟩ := Runs.guarded same
      refine ⟨source.event, key, Or.inl ?_⟩
      rw [traced.channel]
      exact List.mem_map_of_mem entered
    | inr carried =>
      exact ⟨source.event, key, Or.inr ⟨source.connection, Option.mem_toList.mp carried⟩⟩

/-- In every run, whatever the connections do and in whatever order: each connection's events
stand in the channel in the order of its frames, none that no frame had or that was not
wanted; and as long as the channel takes what it is given, every event that a frame had for
its connection is still in the buffer, or an event of the same key is in the channel or on
its way there. -/
theorem wanted_events_are_represented (hasher : List UInt8 → UInt64) (finite : String → Bool)
    (ttl start : Nat) (actions : List Action) (final : State δ)
    (completed : Runs.run (step hasher finite) (State.initial ttl start) actions = some final) :
    final.forwarding.forwarder.globalTx = final.enqueued.map Prod.snd ∧
      (∀ index, (final.enqueuedOf index).Sublist (final.wantedOf finite index)) ∧
      (∀ arrival ∈ final.arrivals, ∀ event ∈ (arrival.events finite : List (Event δ)),
        event.assetId ∈ arrival.sub.desired) ∧
      (final.forwarding.exited = false → final.forwarding.channelClosed = false →
        ∀ arrival ∈ final.arrivals, ∀ event ∈ arrival.events finite,
          event ∈ (final.readers arrival.connection).eventsBuf ∨
            ∃ twin, dedupKey hasher twin = dedupKey hasher event ∧
              (twin ∈ final.forwarding.forwarder.globalTx ∨
                ∃ index, final.forwarding.inFlight index = some twin)) := by
  have traced : Traced finite final :=
    Runs.invariant Traced.step completed (traced_initial finite ttl start)
  have sound : Forwarding.Sound (ttl / 2) final.forwarding :=
    Runs.invariant sound_step completed (Forwarding.sound_initial ttl start)
  have keyed : Keyed hasher final := Runs.invariant keyed_step completed nofun
  refine ⟨traced.channel, ?_, fun arrival _ event => assetId_mem_of_mem_events, ?_⟩
  · intro index
    exact (traced.ordered index).1.trans (traced.ordered index).2
  · intro running opened arrival member event wanted
    exact traced.covers sound keyed running opened member wanted

/-- The members after the first end with the closing brace. -/
theorem writeMembers_ends (members : List (String × Json)) :
    ∃ front, Json.writeMembers members = front ++ ['}'] := by
  induction members with
  | nil => exact ⟨[], rfl⟩
  | cons member rest inductionHypothesis =>
    obtain ⟨front, same⟩ := inductionHypothesis
    refine ⟨',' :: (Json.writeString member.1 ++ ':' :: (Json.write member.2 ++ front)), ?_⟩
    simp [Json.writeMembers, same]

/-- The text of an object begins and ends with a brace. -/
theorem text_object (members : List (String × Json)) :
    ∃ middle, (Json.object members).text.toList = '{' :: middle ++ ['}'] := by
  cases members with
  | nil => exact ⟨[], rfl⟩
  | cons member rest =>
    obtain ⟨front, same⟩ := writeMembers_ends rest
    refine ⟨Json.writeString member.1 ++ ':' :: (Json.write member.2 ++ front), ?_⟩
    simp [Json.text, Json.write, same]

/-- So nothing of it is trimmed. -/
theorem trim_object (members : List (String × Json)) :
    trim (Json.object members).text = (Json.object members).text := by
  obtain ⟨middle, ends⟩ := text_object members
  have first : (Json.object members).text.toList.dropWhile isWhiteSpace =
      '{' :: middle ++ ['}'] := by
    rw [ends]
    rfl
  rw [trim, first, List.rdropWhile_concat_neg isWhiteSpace _ _ (by decide), ← ends,
    String.ofList_toList]

/-- What a frame that is one message leaves in the buffer. -/
theorem onText_message {finite : String → Bool} {members : List (String × Json)} {depth : Nat}
    {message : WireMessage δ} (readable : Json.Readable depth (.object members))
    (accepted : Accepted finite (.object members) message) (sub : SubState) (stats : ConnStats) :
    onText finite sub stats [] (Json.object members).text =
      some (.events (stats.count message) (wanted sub [message])) := by
  obtain ⟨within, decoded⟩ := accepted
  obtain ⟨shallow, numbers⟩ := (withinLimits_iff finite _).mp within
  have parsed := (reads_text readable).parse Serde.recursionLimit
  rw [if_pos shallow] at parsed
  have frame : readFrame finite (Json.object members).text = .ok (.one message) := by
    rw [readFrame, parsed]
    simp only [numbers, if_true]
    exact deserialize_one decoded
  have handled : handleText finite (Json.object members).text sub stats [] =
      .ok (stats.count message, wanted sub [message]) := by
    rw [handleText, frame]
    rfl
  obtain ⟨middle, ends⟩ := text_object members
  have notBlank : (Json.object members).text ≠ "" := by
    intro blank
    rw [blank] at ends
    cases ends
  have notPong : (Json.object members).text ≠ "PONG" := by
    intro pong
    rw [pong] at ends
    exact absurd (List.cons.inj ends).1 (by decide)
  simp only [onText, trim_object, notBlank, notPong, if_false, handled]

end System

/-- The message of `tickOf "a1"`. -/
def tick : WireMessage PlainDecimal :=
  .tickSizeChange ⟨"0xm", "a1", "1", PlainDecimal.cent, PlainDecimal.tenthOfCent⟩

theorem accepted_tick : Accepted (fun _ => true) (tickOf "a1") tick :=
  ⟨⟨by decide, by decide⟩, tickOf_decoded "a1"⟩

theorem readable_tick : Json.Readable 1 (tickOf "a1") := by
  simp [tickOf, Json.Readable, Json.ReadableMembers]

/-- The frame of a tick size change fills the buffer of the connection. -/
theorem step_tick (state : State PlainDecimal) (running : state.forwarding.exited = false)
    (listening : (state.readers 1).task.phase = .listening) (idle : state.idle 1 = true)
    (wants : wanted (state.readers 1).task.sub [tick] = explode tick) :
    step (fun _ => 7) (fun _ => true) state (.text 1 (tickOf "a1").text) =
      some ({ state with
        arrivals := state.arrivals ++ [(⟨1, (state.readers 1).task.sub,
          (state.readers 1).stats, (tickOf "a1").text⟩ : Arrival)] }.setReader 1
        { state.readers 1 with
          stats := (state.readers 1).stats.count tick
          eventsBuf := explode tick }) := by
  have taken : step (fun _ => 7) (fun _ => true) state (.text 1 (tickOf "a1").text) =
      some (state.read (fun _ => true) 1 (tickOf "a1").text) := if_pos ⟨running, listening, idle⟩
  have handled : onText (fun _ => true) (state.readers 1).task.sub (state.readers 1).stats []
      (tickOf "a1").text = some (.events ((state.readers 1).stats.count tick) (explode tick)) := by
    rw [← wants]
    exact onText_message readable_tick accepted_tick _ _
  rw [taken, State.read, handled]

/-- A connection is told to subscribe, connects, and subscribes. -/
def subscribing : List Action :=
  [.dispatch (.subscribe ["a1"]), .enqueue, .attempt, .connect (some []), .recv,
    .written true].map (.connection 1)

/-- A frame comes, and its event is pushed and put into the channel. -/
def delivering : List Action := [.text 1 (tickOf "a1").text, .push 1 2 3, .enqueue 1 true]

/-- The event of the tick. -/
def tickEvent : Event PlainDecimal :=
  .tickSizeChange "0xm" "a1" "1" PlainDecimal.cent PlainDecimal.tenthOfCent

/-- The connection has read the tick. -/
def tickRead (readers : Nat → Reader PlainDecimal) (arrivals : List Arrival) :
    State PlainDecimal where
  forwarding := Forwarding.initial 10 0
  readers := Function.update readers 1
    ⟨(readers 1).task, (readers 1).stats.count tick, [tickEvent]⟩
  arrivals := arrivals ++ [⟨1, (readers 1).task.sub, (readers 1).stats, (tickOf "a1").text⟩]
  enqueued := []

/-- It has put the tick into the channel. -/
def tickSent (readers : Nat → Reader PlainDecimal) (arrivals : List Arrival) :
    State PlainDecimal :=
  ((tickRead readers arrivals).lock 1 tickEvent [] 7 2 3).finish 1 tickEvent true

theorem tick_carried (readers : Nat → Reader PlainDecimal) (arrivals : List Arrival) :
    step (fun _ => 7) (fun _ => true) (tickRead readers arrivals) (.push 1 2 3) =
        some ((tickRead readers arrivals).lock 1 tickEvent [] 7 2 3) ∧
      ((tickRead readers arrivals).lock 1 tickEvent [] 7 2 3).forwarding.inFlight 1 =
        some tickEvent := by
  have keyed : dedupKey (fun _ => 7) tickEvent = some 7 := by
    simp only [dedupKey, tickEvent]
  have fresh : (Forwarding.initial 10 0 : Forwarding.State PlainDecimal).verdict 7 2 3 = true := by
    rw [Forwarding.verdict_iff]
    simp [Forwarding.initial, DedupForwarder.new, DedupCache.new, DedupCache.maybeRotate,
      DedupCache.Holds]
  constructor
  · exact step_push rfl rfl rfl (Nat.zero_le 2) (by decide) rfl keyed
  · exact Forwarding.inFlight_lock_self tickEvent fresh

/-- Nothing is left to push and nothing is in flight. -/
theorem tickSent_idle {readers : Nat → Reader PlainDecimal} {arrivals : List Arrival}
    (empty : ∀ index, (readers index).eventsBuf = []) (index : Nat) :
    (tickSent readers arrivals).idle index = true := by
  have others : (tickSent readers arrivals).readers = Function.update readers 1
      ⟨(readers 1).task, (readers 1).stats.count tick, []⟩ :=
    Function.update_idem _ _ readers
  have flight : (tickSent readers arrivals).forwarding.inFlight index = none := by
    by_contra other
    obtain ⟨event, carried⟩ := Option.ne_none_iff_exists'.mp other
    obtain ⟨different, locked⟩ :=
      Forwarding.inFlight_enqueue carried
    have kept (state : Forwarding.State PlainDecimal) :
        (state.lock 1 tickEvent 7 2 3).inFlight index = state.inFlight index :=
      Forwarding.inFlight_lock_of_ne tickEvent 7 2 3 different
    cases locked.symm.trans (kept (Forwarding.initial 10 0))
  by_cases same : index = 1
  · subst same
    simp [State.idle, others, flight]
  · simp [State.idle, others, flight, same, empty]

theorem delivering_completes :
    ∃ final : State PlainDecimal,
      Runs.run (step (fun _ => 7) fun _ => true) (State.initial 10 0) (subscribing ++ delivering) =
        some final ∧ final.enqueued = [(1, tickEvent)] := by
  obtain ⟨⟨_, readers, arrivals, _⟩, reached, rfl, listening, idle, wants, rfl⟩ :
      ∃ middle : State PlainDecimal,
        Runs.run (step (fun _ => 7) fun _ => true) (State.initial 10 0) subscribing = some middle ∧
          middle.forwarding = Forwarding.initial 10 0 ∧
          (middle.readers 1).task.phase = .listening ∧ middle.idle 1 = true ∧
          wanted (middle.readers 1).task.sub [tick] = explode tick ∧ middle.enqueued = [] :=
    ⟨_, rfl, rfl, rfl, rfl, by decide, rfl⟩
  have text : step (fun _ => 7) (fun _ => true) ⟨Forwarding.initial 10 0, readers, arrivals, []⟩
      (.text 1 (tickOf "a1").text) = some (tickRead readers arrivals) :=
    step_tick ⟨Forwarding.initial 10 0, readers, arrivals, []⟩ rfl listening idle wants
  obtain ⟨pushed, carried⟩ := tick_carried readers arrivals
  refine ⟨tickSent readers arrivals, ?_, rfl⟩
  rw [Runs.run_append reached, delivering, Runs.run_cons, text, Option.bind_some, Runs.run_cons,
    pushed, Option.bind_some, Runs.run_cons, step_enqueue rfl carried]
  rfl

/-- A connection gets one event into the channel. -/
theorem one_tick_is_represented :
    ∃ final : State PlainDecimal,
      Runs.run (step (fun _ => 7) fun _ => true) (State.initial 10 0) (subscribing ++ delivering) =
        some final ∧
      final.forwarding.forwarder.globalTx = [tickEvent] ∧
      (∀ index, (final.enqueuedOf index).Sublist (final.wantedOf (fun _ => true) index)) := by
  obtain ⟨final, completed, entered⟩ := delivering_completes
  obtain ⟨channel, ordered, _⟩ := wanted_events_are_represented _ _ _ _ _ final completed
  rw [entered] at channel
  exact ⟨final, completed, channel, ordered⟩

end Collector.Ingest
