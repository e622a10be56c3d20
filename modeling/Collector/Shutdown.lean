import Collector.Connection
import Collector.Relay

/-!
# The shutdown of the publishing service

After a signal `main` stops the stream listener and the stats loop, drops its own
sender of the event channel, takes the pool out of its lock and shuts it down: one
connection after the other loses its command channel and is awaited. Connections
that the pool had dropped before are awaited by nobody. They hold senders of
the event channel as well, so that the sink, which `main` awaits last, ends only
after all of them.

The steps of the tasks interleave freely. Operations on the pool belong to the
stream listener, those of the preload included.
-/

namespace Collector.Shutdown

open PubSub

variable {δ : Type} [Decimal δ]

/-- Where `main` is: waiting for a signal, for the stream listener, for the stats loop,
before it takes the pool out of its lock, at a connection of the pool, which
it has cut off or not, waiting for the sink, or returned, perhaps with a warning about a
leaked pool. -/
inductive MainStage where
  | serving
  | stoppingStream
  | stoppingStats
  | unwrapping
  | joining (index : Nat) (cut : Bool)
  | awaitingSink
  | returned (leaked : Bool)

/-- The service: `main`, whether the other holders of the pool are there, the
connections of the pool and those it has dropped, the sink, and what was accepted into
the event channel. -/
structure Service (δ : Type) where
  main : MainStage
  stream : Bool
  stats : Bool
  pooled : List Connection.State
  detached : List Connection.State
  publisher : PubSubTask δ
  accepted : List (Event δ)
  exited : Bool

/-- What can happen: the signal; the stream listener or the stats loop ends; `main`
goes on; the pool spawns or drops a connection; a step of a connection; a
connection forwards an event; the last sender goes; a step of the sink. -/
inductive Action (δ : Type) where
  | signal
  | streamEnded
  | statsEnded
  | main
  | spawn (connId : Nat)
  | collect (index : Nat)
  | pooled (index : Nat) (action : Connection.Action)
  | detached (index : Nat) (action : Connection.Action)
  | forwardPooled (index : Nat) (event : Event δ)
  | forwardDetached (index : Nat) (event : Event δ)
  | lastSender
  | sink (action : PubSubAction δ)

namespace Service

/-- The service when it has started. -/
def start (config : PubSubSinkConfig) : Service δ := {
  main := .serving
  stream := true
  stats := true
  pooled := []
  detached := []
  publisher := .start config
  accepted := []
  exited := false }

/-- A connection task that has returned. -/
def returned (connection : Connection.State) : Bool := connection.phase = .returned

/-- Nobody holds a sender of the event channel: `main`, the stats loop, the pool and
every connection have let go. -/
def noSender (service : Service δ) : Bool :=
  match service.main with
  | .awaitingSink | .returned _ =>
    !service.stats && service.pooled.all returned && service.detached.all returned
  | _ => false

/-- An aborted pool operation no longer waits for room in a command channel. -/
def abandon (connection : Connection.State) : Connection.State :=
  { connection with waiting := none }

/-- The command channel of a connection loses its sender. -/
def cutOff (connection : Connection.State) : Connection.State :=
  { connection with senderDropped := true }

/-- Whether a step of a connection is one of the pool's. -/
def ofPool : Connection.Action → Bool
  | .dispatch _ | .enqueue => true
  | _ => false

/-- The steps a connection takes in this service: the pool's only while there is somebody to
operate it, and no end of a session for want of a sink that is there. The drop of the
sender has steps of its own. -/
def allowed (service : Service δ) (action : Connection.Action) : Bool :=
  match action with
  | .dispatch _ | .enqueue => service.stream
  | .dropSender => false
  | .endSession .channelClosed => match service.publisher.stage with | .done => true | _ => false
  | _ => true

/-- `try_send`: a full channel ends the process. -/
def forward (queueSize : Nat) (service : Service δ) (event : Event δ) : Option (Service δ) :=
  if service.publisher.channel.queue.length < queueSize then
    (service.publisher.channel.send event).map fun channel =>
      { service with
        publisher := { service.publisher with channel := channel }
        accepted := service.accepted ++ [event] }
  else some { service with exited := true }

/-- A step of the sink's task. -/
def stepSink (service : Service δ) (action : PubSubAction δ) : Option (Service δ) :=
  match action with
  | .send _ | .close => none
  | action => (service.publisher.step Relay.serialize action).map fun publisher =>
    { service with publisher := publisher }

/-- What `main` does next. -/
def stepMain (service : Service δ) : Option (Service δ) :=
  match service.main with
  | .serving => none
  | .stoppingStream =>
    if service.stream then none else some { service with main := .stoppingStats }
  | .stoppingStats =>
    if service.stats then none else some { service with main := .unwrapping }
  | .unwrapping =>
    if service.stream || service.stats then some { service with main := .returned true }
    else some { service with main := .joining 0 false }
  | .joining index false =>
    match service.pooled[index]? with
    | some connection => some { service with
        main := .joining index true
        pooled := service.pooled.set index (cutOff connection) }
    | none => some { service with main := .awaitingSink }
  | .joining index true =>
    match service.pooled[index]? with
    | some connection =>
      if returned connection then some { service with main := .joining (index + 1) false }
      else none
    | none => none
  | .awaitingSink =>
    match service.publisher.stage with
    | .done => some { service with main := .returned false }
    | _ => none
  | .returned _ => none

/-- One step. Nothing happens after the process has exited. -/
def step (queueSize : Nat) (service : Service δ) (action : Action δ) : Option (Service δ) :=
  if service.exited then none
  else match action with
  | .signal =>
    match service.main with
    | .serving => some { service with main := .stoppingStream }
    | _ => none
  | .streamEnded => some { service with
      stream := false
      pooled := service.pooled.map abandon }
  | .statsEnded =>
    -- the stats loop has no end of its own
    match service.main with
    | .stoppingStats => some { service with stats := false }
    | _ => none
  | .main => service.stepMain
  | .spawn connId =>
    if service.stream then
      some { service with pooled := service.pooled ++ [Connection.initial connId] }
    else none
  | .collect index =>
    match service.pooled[index]? with
    | some connection =>
      if service.stream ∧ connection.waiting = none ∧ connection.handle.assets = ∅ then
        some { service with
          pooled := SwapRemove.swapRemove service.pooled index
          detached := service.detached ++ [cutOff connection] }
      else none
    | none => none
  | .pooled index action =>
    match service.pooled[index]? with
    | some connection =>
      if service.allowed action then
        (Connection.step connection action).map fun next =>
          { service with pooled := service.pooled.set index next }
      else none
    | none => none
  | .detached index action =>
    match service.detached[index]? with
    | some connection =>
      if service.allowed action ∧ ofPool action = false then
        (Connection.step connection action).map fun next =>
          { service with detached := service.detached.set index next }
      else none
    | none => none
  | .forwardPooled index event =>
    match service.pooled[index]? with
    | some connection =>
      if connection.phase = .listening then service.forward queueSize event else none
    | none => none
  | .forwardDetached index event =>
    match service.detached[index]? with
    | some connection =>
      if connection.phase = .listening then service.forward queueSize event else none
    | none => none
  | .lastSender =>
    if service.noSender then
      some { service with
        publisher := { service.publisher with channel := service.publisher.channel.close } }
    else none
  | .sink action => service.stepSink action

omit [Decimal δ] in
/-- A step of a connection leaves a returned task returned and a dropped sender
dropped, and only the pool waits for room. -/
theorem connection_step {connection next : Connection.State} {action : Connection.Action}
    (taken : Connection.step connection action = some next) :
    (connection.phase = .returned → next.phase = .returned) ∧
      (connection.senderDropped = true → next.senderDropped = true) ∧
      (ofPool action = false → connection.waiting = none → next.waiting = none) := by
  refine ⟨Connection.step_returned taken, ?_⟩
  cases action with
  | dispatch command =>
    obtain ⟨⟨present, _⟩, rfl⟩ := Runs.guarded taken
    refine ⟨?_, nofun⟩
    intro dropped
    exact absurd (dropped.symm.trans present) (by decide)
  | enqueue =>
    obtain ⟨command, _, taken⟩ := Option.bind_eq_some_iff.mp taken
    obtain ⟨_, rfl⟩ := Runs.guarded taken
    exact ⟨id, nofun⟩
  | dropSender =>
    obtain ⟨_, rfl⟩ := Runs.guarded taken
    exact ⟨fun _ => rfl, fun _ => id⟩
  | attempt =>
    obtain ⟨_, rfl⟩ := Runs.guarded taken
    exact ⟨id, fun _ => id⟩
  | connect outcome =>
    cases outcome with
    | none =>
      obtain ⟨_, rfl⟩ := Runs.guarded taken
      exact ⟨id, fun _ => id⟩
    | some assets =>
      obtain ⟨_, rfl⟩ := Runs.guarded taken
      simp only [Connection.State.startSession]
      split <;> exact ⟨id, fun _ => id⟩
  | recv =>
    obtain ⟨_, taken⟩ := Option.ite_none_right_eq_some.mp taken
    split at taken
    case h_1 =>
      obtain rfl := Option.some.inj taken
      exact ⟨id, fun _ => id⟩
    case h_2 =>
      obtain ⟨_, rfl⟩ := Runs.guarded taken
      exact ⟨id, fun _ => id⟩
  | written sent =>
    simp only [Connection.step] at taken
    split at taken <;> try contradiction
    case h_1 => cases sent <;> cases taken <;> exact ⟨id, fun _ => id⟩
    case h_2 => cases sent <;> cases taken <;> exact ⟨id, fun _ => id⟩
  | endSession outcome =>
    obtain ⟨_, rfl⟩ := Runs.guarded taken
    exact ⟨id, fun _ => id⟩

/-- How far `main` has come. -/
def rank : MainStage → Nat
  | .serving => 0
  | .stoppingStream => 1
  | .stoppingStats => 2
  | .unwrapping => 3
  | .joining _ _ => 4
  | .awaitingSink => 5
  | .returned _ => 6

/-- What `main` has waited for is gone, and connections without a pool have lost
their senders. -/
structure Orderly (service : Service δ) : Prop where
  stream : 2 ≤ rank service.main → service.stream = false
  stats : 3 ≤ rank service.main → service.stats = false
  idle : service.stream = false → ∀ connection ∈ service.pooled, connection.waiting = none
  joined : ∀ index cut, service.main = .joining index cut →
    index ≤ service.pooled.length ∧
      (∀ earlier < index, ∀ connection, service.pooled[earlier]? = some connection →
        connection.phase = .returned) ∧
      (cut = true → ∃ connection, service.pooled[index]? = some connection ∧
        connection.senderDropped = true)
  pooled : 5 ≤ rank service.main → ∀ connection ∈ service.pooled, connection.phase = .returned
  detached : ∀ connection ∈ service.detached,
    connection.senderDropped = true ∧ connection.waiting = none
  kept : service.main ≠ .returned true

omit [Decimal δ] in
theorem orderly_start (config : PubSubSinkConfig) : Orderly (start config : Service δ) where
  stream := nofun
  stats := nofun
  idle := nofun
  joined := nofun
  pooled _ _ member := absurd member List.not_mem_nil
  detached _ member := absurd member List.not_mem_nil
  kept := nofun

omit [Decimal δ] in
theorem Orderly.stepMain {service next : Service δ} (orderly : Orderly service)
    (taken : service.stepMain = some next) : Orderly next := by
  unfold Service.stepMain at taken
  split at taken
  case h_1 => cases taken
  case h_2 stage =>
    split at taken <;> cases taken
    case isFalse gone =>
      exact ⟨fun _ => by simpa using gone, nofun, orderly.idle, nofun,
        fun far => absurd far (by simp [rank]), orderly.detached, nofun⟩
  case h_3 stage =>
    split at taken <;> cases taken
    case isFalse gone =>
      have stream := orderly.stream (by simp [stage, rank])
      exact ⟨fun _ => stream, fun _ => by simpa using gone, orderly.idle, nofun,
        fun far => absurd far (by simp [rank]), orderly.detached, nofun⟩
  case h_4 stage =>
    have stream := orderly.stream (by simp [stage, rank])
    have stats := orderly.stats (by simp [stage, rank])
    split at taken <;> cases taken
    case isTrue holder => simp [stream, stats] at holder
    case isFalse =>
      refine ⟨fun _ => stream, fun _ => stats, orderly.idle, ?_,
        fun far => absurd far (by simp [rank]), orderly.detached, nofun⟩
      rintro index cut ⟨⟩
      exact ⟨Nat.zero_le _, fun _ below => absurd below (Nat.not_lt_zero _), nofun⟩
  case h_5 index stage =>
    have stream := orderly.stream (by simp [stage, rank])
    have stats := orderly.stats (by simp [stage, rank])
    obtain ⟨inside, earlier, _⟩ := orderly.joined index false stage
    split at taken <;> cases taken
    case h_1 connection found =>
      have here := (List.getElem?_eq_some_iff.mp found).1
      refine ⟨fun _ => stream, fun _ => stats, ?_, ?_, ?_, orderly.detached, nofun⟩
      · intro _ other member
        rcases List.mem_or_eq_of_mem_set member with before | rfl
        · exact orderly.idle stream other before
        · exact orderly.idle stream connection (List.mem_of_getElem? found)
      · rintro other cut ⟨⟩
        refine ⟨by simpa using inside, ?_, fun _ => ⟨_, List.getElem?_set_self here, rfl⟩⟩
        intro position before other at'
        rw [List.getElem?_set_ne (Nat.ne_of_gt before)] at at'
        exact earlier position before other at'
      · exact fun far => absurd far (by simp [rank])
    case h_2 found =>
      refine ⟨fun _ => stream, fun _ => stats, orderly.idle, nofun, ?_, orderly.detached, nofun⟩
      intro _ connection member
      obtain ⟨position, at'⟩ := List.mem_iff_getElem?.mp member
      have beyond := List.getElem?_eq_none_iff.mp found
      have within : position < service.pooled.length := (List.getElem?_eq_some_iff.mp at').1
      exact earlier position (by omega) connection at'
  case h_6 index stage =>
    have stream := orderly.stream (by simp [stage, rank])
    have stats := orderly.stats (by simp [stage, rank])
    obtain ⟨_, earlier, _⟩ := orderly.joined index true stage
    split at taken
    case h_1 connection found =>
      obtain ⟨atEnd, rfl⟩ := Runs.guarded taken
      refine ⟨fun _ => stream, fun _ => stats, orderly.idle, ?_, ?_, orderly.detached, nofun⟩
      · rintro other cut ⟨⟩
        refine ⟨(List.getElem?_eq_some_iff.mp found).1, ?_, nofun⟩
        intro position before other at'
        rcases Nat.lt_succ_iff_lt_or_eq.mp before with lower | rfl
        · exact earlier position lower other at'
        · obtain rfl := Option.some.inj (found.symm.trans at')
          simpa [returned] using atEnd
      · exact fun far => absurd far (by simp [rank])
    case h_2 => cases taken
  case h_7 stage =>
    split at taken <;> cases taken
    case h_1 =>
      have stream := orderly.stream (by simp [stage, rank])
      have stats := orderly.stats (by simp [stage, rank])
      have pooled := orderly.pooled (by simp [stage, rank])
      exact ⟨fun _ => stream, fun _ => stats, orderly.idle, nofun, fun _ => pooled,
        orderly.detached, nofun⟩
  case h_8 => cases taken

omit [Decimal δ] in
/-- The pool is operated only before `main` has stopped the stream listener. -/
theorem Orderly.early {service : Service δ} (orderly : Orderly service)
    (stream : service.stream = true) : rank service.main < 2 := by
  by_contra late
  rw [orderly.stream (Nat.le_of_not_lt late)] at stream
  cases stream

omit [Decimal δ] in
/-- As long as the pool is operated its connections may be changed. -/
theorem Orderly.operated {service : Service δ} (orderly : Orderly service)
    (stream : service.stream = true) (pooled : List Connection.State)
    {detached : List Connection.State}
    (lost : ∀ connection ∈ detached, connection.senderDropped = true ∧ connection.waiting = none) :
    Orderly { service with pooled := pooled, detached := detached } := by
  have early := orderly.early stream
  refine ⟨orderly.stream, orderly.stats, ?_, ?_, ?_, lost, orderly.kept⟩
  · intro gone
    cases stream.symm.trans gone
  · intro index cut stage
    replace stage : service.main = .joining index cut := stage
    simp [stage, rank] at early
  · intro far
    exact absurd far (Nat.not_le.mpr (Nat.lt_trans early (by decide)))

omit [Decimal δ] in
/-- A connection of the pool has taken a step, which may be one of the pool's only while
the stream listener is there. -/
theorem Orderly.setPooled {service : Service δ} (orderly : Orderly service) {index : Nat}
    {connection next : Connection.State} (found : service.pooled[index]? = some connection)
    (atEnd : connection.phase = .returned → next.phase = .returned)
    (dropped : connection.senderDropped = true → next.senderDropped = true)
    (idle : service.stream = false → connection.waiting = none → next.waiting = none) :
    Orderly { service with pooled := service.pooled.set index next } := by
  have member := List.mem_of_getElem? found
  have here := (List.getElem?_eq_some_iff.mp found).1
  refine ⟨orderly.stream, orderly.stats, ?_, ?_, ?_, orderly.detached, orderly.kept⟩
  · intro gone other inside
    rcases List.mem_or_eq_of_mem_set inside with before | rfl
    · exact orderly.idle gone other before
    · exact idle gone (orderly.idle gone connection member)
  · intro position cut stage
    obtain ⟨inside, earlier, last⟩ := orderly.joined position cut stage
    refine ⟨by simpa using inside, ?_, ?_⟩
    · intro before below other at'
      by_cases same : index = before
      · subst same
        obtain rfl := Option.some.inj ((List.getElem?_set_self here).symm.trans at')
        exact atEnd (earlier index below connection found)
      · rw [List.getElem?_set_ne same] at at'
        exact earlier before below other at'
    · intro wasCut
      obtain ⟨other, at', gone⟩ := last wasCut
      by_cases same : index = position
      · subst same
        obtain rfl := Option.some.inj (found.symm.trans at')
        exact ⟨next, List.getElem?_set_self here, dropped gone⟩
      · exact ⟨other, by rw [List.getElem?_set_ne same]; exact at', gone⟩
  · intro far other inside
    rcases List.mem_or_eq_of_mem_set inside with before | rfl
    · exact orderly.pooled far other before
    · exact atEnd (orderly.pooled far connection member)

omit [Decimal δ] in
/-- What forwarding an event does: it goes into the channel, or the process exits. -/
theorem forward_cases {queueSize : Nat} {service next : Service δ} {event : Event δ}
    (taken : service.forward queueSize event = some next) :
    (∃ channel, service.publisher.channel.send event = some channel ∧
        next = { service with
          publisher := { service.publisher with channel := channel }
          accepted := service.accepted ++ [event] }) ∨
      next = { service with exited := true } := by
  unfold forward at taken
  split at taken
  case isTrue =>
    obtain ⟨channel, sent, rfl⟩ := Option.map_eq_some_iff.mp taken
    exact Or.inl ⟨channel, sent, rfl⟩
  case isFalse => exact Or.inr (Option.some.inj taken).symm

/-- A step of the sink is one of its own. -/
theorem sink_cases {service next : Service δ} {action : PubSubAction δ}
    (taken : service.stepSink action = some next) :
    ∃ publisher, ((∀ event, action ≠ .send event) ∧ action ≠ .close) ∧
      service.publisher.step Relay.serialize action = some publisher ∧
      next = { service with publisher := publisher } := by
  unfold stepSink at taken
  split at taken <;> try contradiction
  case h_3 notSend notClose =>
    obtain ⟨publisher, stepped, rfl⟩ := Option.map_eq_some_iff.mp taken
    exact ⟨publisher, ⟨notSend, notClose⟩, stepped, rfl⟩

omit [Decimal δ] in
theorem Orderly.forward {queueSize : Nat} {service next : Service δ} {event : Event δ}
    (taken : service.forward queueSize event = some next) (orderly : Orderly service) :
    Orderly next := by
  obtain ⟨stream, stats, idle, joined, pooled, detached, kept⟩ := orderly
  rcases forward_cases taken with ⟨channel, _, rfl⟩ | rfl <;>
    exact ⟨stream, stats, idle, joined, pooled, detached, kept⟩

theorem Orderly.step {queueSize : Nat} {service next : Service δ} {action : Action δ}
    (taken : step queueSize service action = some next) (orderly : Orderly service) :
    Orderly next := by
  obtain ⟨running, taken⟩ := Option.ite_none_left_eq_some.mp taken
  cases action with
  | signal =>
    simp only at taken
    split at taken <;> cases taken
    exact ⟨nofun, nofun, orderly.idle, nofun, fun far => absurd far (by simp [rank]),
      orderly.detached, nofun⟩
  | streamEnded =>
    cases taken
    refine ⟨fun _ => rfl, orderly.stats, ?_, ?_, ?_, orderly.detached, orderly.kept⟩
    · intro _ connection member
      obtain ⟨before, _, rfl⟩ := List.mem_map.mp member
      rfl
    · intro index cut stage
      obtain ⟨inside, earlier, last⟩ := orderly.joined index cut stage
      refine ⟨by simpa using inside, ?_, ?_⟩
      · intro position below connection found
        rw [List.getElem?_map] at found
        obtain ⟨before, at', rfl⟩ := Option.map_eq_some_iff.mp found
        exact earlier position below before at'
      · intro wasCut
        obtain ⟨before, at', gone⟩ := last wasCut
        exact ⟨abandon before, by rw [List.getElem?_map, at']; rfl, gone⟩
    · intro far connection member
      obtain ⟨before, inside, rfl⟩ := List.mem_map.mp member
      exact orderly.pooled far before inside
  | statsEnded =>
    simp only at taken
    split at taken <;> cases taken
    exact ⟨orderly.stream, fun _ => rfl, orderly.idle, orderly.joined, orderly.pooled,
      orderly.detached, orderly.kept⟩
  | main => exact orderly.stepMain taken
  | spawn connId =>
    obtain ⟨stream, rfl⟩ := Runs.guarded taken
    exact orderly.operated stream _ orderly.detached
  | collect index =>
    simp only at taken
    split at taken <;> try contradiction
    case h_1 connection found =>
      obtain ⟨⟨stream, waits, _⟩, rfl⟩ := Runs.guarded taken
      refine orderly.operated stream _ ?_
      intro other member
      rcases List.mem_append.mp member with before | last
      · exact orderly.detached other before
      · obtain rfl := List.mem_singleton.mp last
        exact ⟨rfl, waits⟩
  | pooled index action =>
    simp only at taken
    split at taken <;> try contradiction
    case h_1 connection found =>
      obtain ⟨allowed, taken⟩ := Option.ite_none_right_eq_some.mp taken
      obtain ⟨after, stepped, rfl⟩ := Option.map_eq_some_iff.mp taken
      obtain ⟨atEnd, dropped, idle⟩ := connection_step stepped
      refine orderly.setPooled found atEnd dropped ?_
      intro gone
      apply idle
      cases action <;> simp_all [Service.allowed, ofPool]
  | detached index action =>
    simp only at taken
    split at taken <;> try contradiction
    case h_1 connection found =>
      obtain ⟨⟨_, own⟩, taken⟩ := Option.ite_none_right_eq_some.mp taken
      obtain ⟨after, stepped, rfl⟩ := Option.map_eq_some_iff.mp taken
      obtain ⟨_, dropped, idle⟩ := connection_step stepped
      refine ⟨orderly.stream, orderly.stats, orderly.idle, orderly.joined, orderly.pooled, ?_,
        orderly.kept⟩
      intro other member
      rcases List.mem_or_eq_of_mem_set member with before | rfl
      · exact orderly.detached other before
      · obtain ⟨gone, waits⟩ := orderly.detached connection (List.mem_of_getElem? found)
        exact ⟨dropped gone, idle own waits⟩
  | forwardPooled index event =>
    simp only at taken
    split at taken <;> try contradiction
    exact orderly.forward (Option.ite_none_right_eq_some.mp taken).2
  | forwardDetached index event =>
    simp only at taken
    split at taken <;> try contradiction
    exact orderly.forward (Option.ite_none_right_eq_some.mp taken).2
  | lastSender =>
    obtain ⟨_, rfl⟩ := Runs.guarded taken
    exact ⟨orderly.stream, orderly.stats, orderly.idle, orderly.joined, orderly.pooled,
      orderly.detached, orderly.kept⟩
  | sink action =>
    obtain ⟨publisher, _, _, rfl⟩ := sink_cases taken
    exact ⟨orderly.stream, orderly.stats, orderly.idle, orderly.joined, orderly.pooled,
      orderly.detached, orderly.kept⟩

/-- Every accepted event was received by the sink or is in the channel. The channel is
closed only after the last holder of a sender is gone, and `main` has not
returned before the sink. -/
structure Settled (config : PubSubSinkConfig) (service : Service δ) : Prop where
  accounted : service.publisher.Accounted Relay.serialize
  bounded : service.publisher.Bounded config
  accepted : service.publisher.received ++ service.publisher.channel.queue = service.accepted
  closed : service.publisher.channel.closed = true →
    5 ≤ rank service.main ∧ ∀ connection ∈ service.detached, connection.phase = .returned
  finished : service.main = .returned false → service.publisher.stage = .done

theorem settled_start (config : PubSubSinkConfig) :
    Settled config (start config : Service δ) where
  accounted := PubSubTask.accounted_start config
  bounded := PubSubTask.bounded_start config
  accepted := rfl
  closed := nofun
  finished := nofun

/-- The publisher does not look at its surroundings. -/
theorem Settled.outside {config : PubSubSinkConfig} {service next : Service δ}
    (settled : Settled config service) (publisher : next.publisher = service.publisher)
    (accepted : next.accepted = service.accepted)
    (closed : service.publisher.channel.closed = true →
      5 ≤ rank next.main ∧ ∀ connection ∈ next.detached, connection.phase = .returned)
    (finished : next.main = .returned false → service.publisher.stage = .done) :
    Settled config next where
  accounted := publisher ▸ settled.accounted
  bounded := publisher ▸ settled.bounded
  accepted := by rw [publisher, accepted, settled.accepted]
  closed := publisher ▸ closed
  finished := publisher ▸ finished

theorem Settled.forward {config : PubSubSinkConfig} {queueSize : Nat} {service next : Service δ}
    {event : Event δ} (taken : service.forward queueSize event = some next)
    (settled : Settled config service) : Settled config next := by
  rcases forward_cases taken with ⟨channel, sent, rfl⟩ | rfl
  · have stepped : service.publisher.step Relay.serialize (.send event) =
        some { service.publisher with channel := channel } := by simp [PubSubTask.step, sent]
    refine ⟨settled.accounted.step stepped, settled.bounded.step stepped, ?_, ?_,
      settled.finished⟩
    · rw [← settled.accepted, List.append_assoc]
      exact congrArg _ (Channel.queue_of_send sent)
    · intro closed
      have opened := Channel.send_open sent
      obtain rfl := Channel.sent sent
      exact absurd (opened.symm.trans closed) (by decide)
  · exact settled.outside rfl rfl settled.closed settled.finished

omit [Decimal δ] in
/-- `main` never goes back, and it returns after the sink. -/
theorem stepMain_rank {service next : Service δ} (taken : service.stepMain = some next) :
    rank service.main ≤ rank next.main ∧ next.publisher = service.publisher ∧
      next.accepted = service.accepted ∧ next.detached = service.detached ∧
      (next.main = .returned false → service.publisher.stage = .done) := by
  unfold Service.stepMain at taken
  split at taken
  case h_1 => cases taken
  case h_2 stage =>
    split at taken <;> cases taken
    exact ⟨by simp [stage, rank], rfl, rfl, rfl, nofun⟩
  case h_3 stage =>
    split at taken <;> cases taken
    exact ⟨by simp [stage, rank], rfl, rfl, rfl, nofun⟩
  case h_4 stage =>
    split at taken <;> cases taken <;> exact ⟨by simp [stage, rank], rfl, rfl, rfl, nofun⟩
  case h_5 index stage =>
    split at taken <;> cases taken <;> exact ⟨by simp [stage, rank], rfl, rfl, rfl, nofun⟩
  case h_6 index stage =>
    split at taken <;> try contradiction
    obtain ⟨_, rfl⟩ := Runs.guarded taken
    exact ⟨by simp [stage, rank], rfl, rfl, rfl, nofun⟩
  case h_7 stage =>
    split at taken <;> cases taken
    case h_1 done => exact ⟨by simp [stage, rank], rfl, rfl, rfl, fun _ => done⟩
  case h_8 => cases taken

theorem Settled.step {config : PubSubSinkConfig} {queueSize : Nat} {service next : Service δ}
    {action : Action δ} (taken : step queueSize service action = some next)
    (orderly : Orderly service) (settled : Settled config service) : Settled config next := by
  obtain ⟨running, taken⟩ := Option.ite_none_left_eq_some.mp taken
  cases action with
  | signal =>
    simp only at taken
    split at taken <;> cases taken
    case h_1 serving =>
      refine settled.outside rfl rfl ?_ nofun
      intro closed
      have late := (settled.closed closed).1
      simp [serving, rank] at late
  | streamEnded =>
    cases taken
    exact settled.outside rfl rfl settled.closed settled.finished
  | statsEnded =>
    simp only at taken
    split at taken <;> cases taken
    exact settled.outside rfl rfl settled.closed settled.finished
  | main =>
    obtain ⟨further, publisher, accepted, detached, finished⟩ := stepMain_rank taken
    refine settled.outside publisher accepted ?_ finished
    intro closed
    obtain ⟨late, gone⟩ := settled.closed closed
    exact ⟨Nat.le_trans late further, detached ▸ gone⟩
  | spawn connId =>
    obtain ⟨stream, rfl⟩ := Runs.guarded taken
    exact settled.outside rfl rfl settled.closed settled.finished
  | collect index =>
    simp only at taken
    split at taken <;> try contradiction
    case h_1 connection found =>
      obtain ⟨⟨stream, _⟩, rfl⟩ := Runs.guarded taken
      refine settled.outside rfl rfl ?_ settled.finished
      intro closed
      have early := orderly.early stream
      have late := (settled.closed closed).1
      omega
  | pooled index action =>
    simp only at taken
    split at taken <;> try contradiction
    case h_1 connection found =>
      obtain ⟨allowed, taken⟩ := Option.ite_none_right_eq_some.mp taken
      obtain ⟨after, stepped, rfl⟩ := Option.map_eq_some_iff.mp taken
      exact settled.outside rfl rfl settled.closed settled.finished
  | detached index action =>
    simp only at taken
    split at taken <;> try contradiction
    case h_1 connection found =>
      obtain ⟨_, taken⟩ := Option.ite_none_right_eq_some.mp taken
      obtain ⟨after, stepped, rfl⟩ := Option.map_eq_some_iff.mp taken
      refine settled.outside rfl rfl ?_ settled.finished
      intro closed
      obtain ⟨late, gone⟩ := settled.closed closed
      refine ⟨late, ?_⟩
      intro other member
      rcases List.mem_or_eq_of_mem_set member with before | rfl
      · exact gone other before
      · exact (connection_step stepped).1 (gone connection (List.mem_of_getElem? found))
  | forwardPooled index event =>
    simp only at taken
    split at taken <;> try contradiction
    exact settled.forward (Option.ite_none_right_eq_some.mp taken).2
  | forwardDetached index event =>
    simp only at taken
    split at taken <;> try contradiction
    exact settled.forward (Option.ite_none_right_eq_some.mp taken).2
  | lastSender =>
    obtain ⟨noSender, rfl⟩ := Runs.guarded taken
    have stepped : service.publisher.step Relay.serialize .close =
        some { service.publisher with channel := service.publisher.channel.close } := rfl
    refine ⟨settled.accounted.step stepped, settled.bounded.step stepped, settled.accepted, ?_,
      settled.finished⟩
    intro _
    unfold Service.noSender at noSender
    split at noSender <;> try contradiction
    all_goals
      rename_i stage
      simp only [Bool.and_eq_true, List.all_eq_true] at noSender
      exact ⟨by simp [stage, rank], fun connection member =>
        of_decide_eq_true (noSender.2 connection member)⟩
  | sink action =>
    obtain ⟨publisher, inner, stepped, rfl⟩ := sink_cases taken
    obtain ⟨closed, received⟩ := PubSubTask.step_inner inner stepped
    refine ⟨settled.accounted.step stepped, settled.bounded.step stepped,
      received.trans settled.accepted, closed ▸ settled.closed, ?_⟩
    intro atEnd
    have done := settled.finished atEnd
    cases action <;> simp_all [PubSubTask.step]

/-- Both invariants hold after every run. -/
theorem sound_of_run {config : PubSubSinkConfig} {queueSize : Nat} {actions : List (Action δ)}
    {service : Service δ}
    (reached : Runs.run (step queueSize) (start config) actions = some service) :
    Orderly service ∧ Settled config service :=
  have kept (before : Service δ) (action : Action δ) (after : Service δ)
      (taken : step queueSize before action = some after)
      (held : Orderly before ∧ Settled config before) : Orderly after ∧ Settled config after :=
    ⟨held.1.step taken, held.2.step taken held.1⟩
  Runs.invariant kept reached ⟨orderly_start config, settled_start config⟩

/-- After every run: where `main` has returned the pool was not leaked, every connection
has returned, the sink has returned, and each event that was accepted into the channel
was counted as published or dropped, and was in a pipeline, in the order of acceptance. -/
theorem shutdown_drains (config : PubSubSinkConfig) (queueSize : Nat)
    (actions : List (Action δ)) (service : Service δ) (leaked : Bool)
    (reached : Runs.run (step queueSize) (start config) actions = some service)
    (atEnd : service.main = .returned leaked) :
    leaked = false ∧
      (∀ connection ∈ service.pooled ++ service.detached, connection.phase = .returned) ∧
      service.publisher.stage = .done ∧
      service.publisher.sink.totalPublished + service.publisher.sink.totalDropped =
        service.accepted.length ∧
      service.publisher.pipelines.flatMap PubSub.Pipeline.payloads =
        service.accepted.map payload := by
  obtain ⟨orderly, settled⟩ := sound_of_run reached
  cases leaked with
  | true => exact absurd atEnd orderly.kept
  | false =>
    have done := settled.finished atEnd
    obtain ⟨noBatch, drained, closed⟩ := settled.bounded.done done
    obtain ⟨total, ordered⟩ :=
      settled.accounted.settled (by simp [PubSubTask.inFlight, done]) noBatch
    have accepted := settled.accepted
    rw [drained, List.append_nil] at accepted
    have each : PubSubTask.payload? Relay.serialize = fun event : Event δ => some (payload event) :=
      rfl
    refine ⟨rfl, ?_, done, accepted ▸ total, ?_⟩
    · intro connection member
      rcases List.mem_append.mp member with inPool | alone
      · exact orderly.pooled (by simp [atEnd, rank]) connection inPool
      · exact (settled.closed closed).2 connection alone
    · rw [ordered, accepted, each]
      exact List.filterMap_eq_map ▸ rfl

/-- A connection forwards a trade, and the signal finds the trade in the channel. -/
def untilSignal : List (Action PlainDecimal) :=
  [.spawn 0, .pooled 0 .attempt, .pooled 0 (.connect (some [])),
    .forwardPooled 0 PubSubTask.oneShare, .signal]

/-- The rest of the shutdown. -/
def untilReturn : List (Action PlainDecimal) :=
  [.streamEnded, .main, .statsEnded, .main, .main, .main, .pooled 0 .recv, .main, .main,
    .lastSender, .sink (.first 1), .sink (.check 9), .sink (.replied true), .sink (.first 9), .main]

theorem one_trade_is_drained :
    ∃ service, Runs.run (step 4) (start ⟨3, 5⟩) (untilSignal ++ untilReturn) = some service ∧
      service.main = .returned false ∧
      service.publisher.sink.totalPublished + service.publisher.sink.totalDropped =
        service.accepted.length :=
  let drained := shutdown_drains ⟨3, 5⟩ 4 (untilSignal ++ untilReturn) _ false rfl rfl
  ⟨_, rfl, rfl, drained.2.2.2.1⟩

/-- What is left to do for a connection without a sender. -/
def work (connection : Connection.State) : Nat :=
  match connection.phase with
  | .returned => 0
  | .listening => 2 * connection.commands.length + 1
  | .sending _ | .resubscribing _ => 2 * connection.commands.length + 2
  | .connecting => 2 * connection.commands.length + 3
  | .disconnected => 2 * connection.commands.length + 4

/-- The steps of a connection whose socket does what it is asked. -/
def Willing : Connection.Action → Prop
  | .attempt | .connect _ | .recv | .written _ => True
  | _ => False

/-- A set has a list of its elements. -/
theorem exists_list_toFinset (values : Finset String) :
    ∃ list : List String, list.Nodup ∧ list.toFinset = values :=
  ⟨values.toList, values.nodup_toList, values.toList_toFinset⟩

/-- A connection without a sender comes closer to its return. -/
theorem work_decreases (connection : Connection.State) (dropped : connection.senderDropped = true)
    (present : connection.phase ≠ .returned) :
    ∃ action next, Willing action ∧ Connection.step connection action = some next ∧
      work next < work connection := by
  cases phase : connection.phase with
  | returned => exact absurd phase present
  | disconnected =>
    refine ⟨.attempt, { connection with
      phase := if connection.commands.isEmpty then .returned else .connecting }, trivial, ?_, ?_⟩
    · simp [Connection.step, phase, dropped]
    · cases queued : connection.commands <;> simp [work, phase, queued]
  | connecting =>
    obtain ⟨assets, distinct, all⟩ := exists_list_toFinset connection.sub.desired
    refine ⟨.connect (some assets), _, trivial, if_pos ⟨phase, distinct, all⟩, ?_⟩
    by_cases nothing : connection.sub.resetSession.desired = ∅ <;>
      simp [work, phase, Connection.State.startSession, nothing]
  | resubscribing frame =>
    refine ⟨.written true, connection.resubscribed frame, trivial, ?_, ?_⟩
    · simp [Connection.step, phase]
    · simp [work, phase, Connection.State.resubscribed]
  | sending frame =>
    refine ⟨.written true, connection.sent frame, trivial, ?_, ?_⟩
    · simp [Connection.step, phase]
    · simp [work, phase, Connection.State.sent]
  | listening =>
    cases queued : connection.commands with
    | nil =>
      refine ⟨.recv, connection.endSession .shutdown, trivial, ?_, ?_⟩
      · simp [Connection.step, phase, queued, dropped]
      · simp [work, phase, Connection.State.endSession, Connection.SessionOutcome.next]
    | cons command rest =>
      refine ⟨.recv, connection.process command rest, trivial, ?_, ?_⟩
      · simp [Connection.step, phase, queued]
      · simp only [work, phase, queued, Connection.State.process, List.length_cons]
        cases (connection.sub.process command).2 with
        | none =>
          dsimp only
          omega
        | some frame =>
          dsimp only
          omega

/-- What is left to do for a sink with a closed channel. -/
def sinkWork (task : PubSubTask δ) : Nat :=
  5 * task.channel.queue.length +
    match task.stage with
    | .done => 0
    | .blocking => 1
    | .publishing _ _ => 2
    | .draining _ => 3
    | .lingering _ => 4

omit [Decimal δ] in
/-- A sink with a closed channel comes closer to its return. -/
theorem sinkWork_decreases (serializer : Event δ → Except String String) (task : PubSubTask δ)
    (closed : task.channel.closed = true) (present : task.stage ≠ .done) :
    ∃ action next, ((∀ event, action ≠ .send event) ∧ action ≠ .close) ∧
      task.step serializer action = some next ∧ sinkWork next < sinkWork task := by
  have flushed (rank : Nat) (above : 2 < rank) :
      sinkWork (task.flush serializer false) < 5 * task.channel.queue.length + rank := by
    obtain ⟨_, _, _, channel, _⟩ := PubSubTask.flush_fields serializer task false
    rcases PubSubTask.flush_stage serializer task false with stage | stage <;>
      · rw [sinkWork, stage, channel]
        simp only [PubSubTask.stageAfter, Bool.false_eq_true, if_false]
        omega
  cases stage : task.stage with
  | done => exact absurd stage present
  | blocking =>
    cases queued : task.channel.queue with
    | nil =>
      refine ⟨.first 0, { task with stage := .done }, by simp, ?_, ?_⟩
      · simp [PubSubTask.step, stage, Channel.recv, queued, closed]
      · simp [sinkWork, stage]
    | cons event rest =>
      refine ⟨.first 0, task.push event { task.channel with queue := rest }
        (0 + task.sink.config.linger), by simp, ?_, ?_⟩
      · simp only [PubSubTask.step, stage, Channel.recv, queued]
      · simp only [sinkWork, stage, queued, PubSubTask.push, List.length_cons]
        omega
  | lingering deadline =>
    refine ⟨.check deadline, task.flush serializer false, by simp, ?_, ?_⟩
    · simp [PubSubTask.step, stage]
    · simpa only [sinkWork, stage] using flushed 4 (by decide)
  | draining deadline =>
    refine ⟨.elapsed, task.flush serializer false, by simp, ?_, ?_⟩
    · simp [PubSubTask.step, stage]
    · simpa only [sinkWork, stage] using flushed 3 (by decide)
  | publishing payloads channelClosed =>
    refine ⟨.replied true, task.reply payloads channelClosed true, by simp, ?_, ?_⟩
    · simp [PubSubTask.step, stage]
    · cases channelClosed <;> simp [sinkWork, stage, PubSubTask.reply, PubSubTask.stageAfter]

/-- What is left to do for `main` itself, with so many connections in its pool. -/
def mainWork (connections : Nat) : MainStage → Nat
  | .serving => 2 * connections + 8
  | .stoppingStream => 2 * connections + 7
  | .stoppingStats => 2 * connections + 6
  | .unwrapping => 2 * connections + 5
  | .joining index cut => 2 * (connections - index) + if cut then 2 else 3
  | .awaitingSink => 1
  | .returned _ => 0

/-- What is left to do for the whole service. -/
def remaining (service : Service δ) : Nat :=
  mainWork service.pooled.length service.main + service.stream.toNat + service.stats.toNat +
    (service.pooled.map work).sum + (service.detached.map work).sum +
    sinkWork service.publisher + (!service.publisher.channel.closed).toNat

/-- Nothing new arrives, and every peer does what it is asked. -/
def Cooperates : Action δ → Prop
  | .streamEnded | .statsEnded | .main | .lastSender | .sink _ => True
  | .pooled _ action | .detached _ action => Willing action
  | _ => False

/-- One element of a list made smaller. -/
theorem sum_map_set_lt {α : Type} (size : α → Nat) {values : List α} {index : Nat} {value : α}
    (found : values[index]? = some value) {smaller : α} (less : size smaller < size value) :
    ((values.set index smaller).map size).sum < (values.map size).sum := by
  induction values generalizing index with
  | nil => cases found
  | cons first rest inductionHypothesis =>
    cases index with
    | zero =>
      obtain rfl : first = value := Option.some.inj found
      simpa using less
    | succ index => simpa using inductionHypothesis found

/-- The loss of its sender does not change what is left for a connection. -/
theorem map_work_cutOff {connections : List Connection.State} {index : Nat}
    {connection : Connection.State} (found : connections[index]? = some connection) :
    (connections.set index (cutOff connection)).map work = connections.map work := by
  have here := (List.getElem?_eq_some_iff.mp found).1
  rw [List.map_set]
  apply List.ext_getElem?
  intro position
  by_cases same : index = position
  · subst same
    rw [List.getElem?_set_self (by simpa using here), List.getElem?_map, found]
    rfl
  · rw [List.getElem?_set_ne same]

omit [Decimal δ] in
/-- A connection's own steps are allowed at any time. -/
theorem allowed_of_willing (service : Service δ) {action : Connection.Action}
    (willing : Willing action) : service.allowed action = true ∧ ofPool action = false := by
  cases action <;> first | exact absurd willing id | exact ⟨rfl, rfl⟩

/-- A connection of the pool that has lost its sender can go on. -/
theorem pooled_decreases (queueSize : Nat) {service : Service δ} (running : service.exited = false)
    {index : Nat} {connection : Connection.State}
    (found : service.pooled[index]? = some connection) (dropped : connection.senderDropped = true)
    (present : connection.phase ≠ .returned) :
    ∃ action next, Cooperates action ∧ step queueSize service action = some next ∧
      next.main = service.main ∧ next.exited = false ∧ remaining next < remaining service := by
  obtain ⟨action, next, willing, stepped, less⟩ := work_decreases connection dropped present
  have allowed := (allowed_of_willing service willing).1
  refine ⟨.pooled index action, { service with pooled := service.pooled.set index next }, willing,
    ?_, rfl, running, ?_⟩
  · simp [step, running, found, allowed, stepped]
  · have smaller := sum_map_set_lt work found less
    simp only [remaining, List.length_set]
    omega

/-- So can a connection that the pool has dropped. -/
theorem detached_decreases (queueSize : Nat) {service : Service δ}
    (running : service.exited = false) {index : Nat} {connection : Connection.State}
    (found : service.detached[index]? = some connection)
    (dropped : connection.senderDropped = true) (present : connection.phase ≠ .returned) :
    ∃ action next, Cooperates action ∧ step queueSize service action = some next ∧
      next.main = service.main ∧ next.exited = false ∧ remaining next < remaining service := by
  obtain ⟨action, next, willing, stepped, less⟩ := work_decreases connection dropped present
  obtain ⟨allowed, own⟩ := allowed_of_willing service willing
  refine ⟨.detached index action, { service with detached := service.detached.set index next },
    willing, ?_, rfl, running, ?_⟩
  · simp [step, running, found, allowed, own, stepped]
  · have smaller := sum_map_set_lt work found less
    simp only [remaining]
    omega

/-- Some step that needs nothing new brings the end of the service closer. -/
def Advances (queueSize : Nat) (service : Service δ) : Prop :=
  ∃ action next, Cooperates action ∧ step queueSize service action = some next ∧
    next.main ≠ .serving ∧ next.exited = false ∧ remaining next < remaining service

/-- A step of `main` that leaves it less to do. -/
theorem advances_main {queueSize : Nat} {service : Service δ} (next : Service δ)
    (running : service.exited = false) (taken : service.stepMain = some next)
    (signalled : next.main ≠ .serving) (still : next.exited = false)
    (less : remaining next < remaining service) : Advances queueSize service := by
  refine ⟨.main, next, trivial, ?_, signalled, still, less⟩
  simpa [step, running] using taken

/-- `main` joins the connections of the pool one after the other. -/
theorem joining_advances (queueSize : Nat) {service : Service δ} (orderly : Orderly service)
    (running : service.exited = false) {index : Nat} {cut : Bool}
    (stage : service.main = .joining index cut) : Advances queueSize service := by
  obtain ⟨inside, _, last⟩ := orderly.joined index cut stage
  cases cut with
  | false =>
    cases found : service.pooled[index]? with
    | none =>
      refine advances_main ({ service with main := .awaitingSink }) running ?_ (by simp)
        running ?_
      · simp [Service.stepMain, stage, found]
      · simp only [remaining, stage, mainWork]
        simp
    | some connection =>
      refine advances_main ({ service with
        main := .joining index true
        pooled := service.pooled.set index (cutOff connection) }) running ?_ (by simp) running ?_
      · simp [Service.stepMain, stage, found]
      · have same := map_work_cutOff found
        simp only [remaining, stage, mainWork, same, List.length_set]
        simp
  | true =>
    obtain ⟨connection, found, dropped⟩ := last rfl
    by_cases atEnd : connection.phase = .returned
    · refine advances_main ({ service with main := .joining (index + 1) false }) running
        ?_ (by simp) running ?_
      · simp [Service.stepMain, stage, found, returned, atEnd]
      · have here : index < service.pooled.length := (List.getElem?_eq_some_iff.mp found).1
        simp only [remaining, stage, mainWork]
        simp
        omega
    · obtain ⟨action, next, cooperates, taken, same, still, less⟩ :=
        pooled_decreases queueSize running found dropped atEnd
      exact ⟨action, next, cooperates, taken, by simp [same, stage], still, less⟩

/-- Once the pool is joined, the connections it had dropped end, their senders close the channel,
and the sink empties it. -/
theorem awaitingSink_advances (queueSize : Nat) {service : Service δ} (orderly : Orderly service)
    (running : service.exited = false) (stage : service.main = .awaitingSink) :
    Advances queueSize service := by
  by_cases alone : ∃ connection ∈ service.detached, connection.phase ≠ .returned
  · obtain ⟨connection, member, present⟩ := alone
    obtain ⟨index, found⟩ := List.mem_iff_getElem?.mp member
    obtain ⟨action, next, cooperates, taken, same, still, less⟩ :=
      detached_decreases queueSize running found (orderly.detached connection member).1 present
    exact ⟨action, next, cooperates, taken, by simp [same, stage], still, less⟩
  · have gone : ∀ connection ∈ service.detached, connection.phase = .returned := by
      intro connection member
      by_contra present
      exact alone ⟨connection, member, present⟩
    cases closed : service.publisher.channel.closed with
    | false =>
      have stats := orderly.stats (by simp [stage, rank])
      have pooled := orderly.pooled (by simp [stage, rank])
      refine ⟨.lastSender, { service with
        publisher := { service.publisher with channel := service.publisher.channel.close } },
        trivial, ?_, by simp [stage], running, ?_⟩
      · have noSender : service.noSender = true := by
          simp only [noSender, stage, stats, Bool.not_false, Bool.true_and, Bool.and_eq_true,
            List.all_eq_true, returned, decide_eq_true_eq]
          exact ⟨pooled, gone⟩
        simp [step, running, noSender]
      · simp [remaining, closed, Channel.close, sinkWork]
    | true =>
      by_cases done : service.publisher.stage = .done
      · refine advances_main ({ service with main := .returned false }) running ?_
          (by simp) running ?_
        · simp [Service.stepMain, stage, done]
        · simp [remaining, stage, mainWork]
      · obtain ⟨action, next, inner, taken, less⟩ :=
          sinkWork_decreases Relay.serialize service.publisher closed done
        have kept := (PubSubTask.step_inner inner taken).1
        refine ⟨.sink action, { service with publisher := next }, trivial, ?_, by simp [stage],
          running, ?_⟩
        · have stepped : service.stepSink action = some { service with publisher := next } := by
            cases action <;> simp_all [stepSink]
          simp [step, running, stepped]
        · simp only [remaining, kept]
          omega

/-- As long as `main` has not returned, the service advances. -/
theorem advances (queueSize : Nat) {service : Service δ} (orderly : Orderly service)
    (signalled : service.main ≠ .serving) (running : service.exited = false)
    (unfinished : service.main ≠ .returned false) : Advances queueSize service := by
  cases stage : service.main with
  | serving => exact absurd stage signalled
  | returned leaked =>
    cases leaked with
    | false => exact absurd stage unfinished
    | true => exact absurd stage orderly.kept
  | stoppingStream =>
    cases stream : service.stream with
    | true =>
      refine ⟨.streamEnded, { service with
        stream := false
        pooled := service.pooled.map abandon }, trivial, by simp [step, running],
        by simp [stage], running, ?_⟩
      have same : (service.pooled.map abandon).map work = service.pooled.map work := by
        rw [List.map_map]
        rfl
      simp only [remaining, same, stream, List.length_map, Bool.toNat_true, Bool.toNat_false]
      omega
    | false =>
      refine advances_main ({ service with main := .stoppingStats }) running ?_ (by simp)
        running ?_
      · simp [Service.stepMain, stage, stream]
      · simp only [remaining, stage, mainWork]
        omega
  | stoppingStats =>
    cases stats : service.stats with
    | true =>
      refine ⟨.statsEnded, { service with stats := false }, trivial, ?_, by simp [stage],
        running, ?_⟩
      · simp [step, running, stage]
      · simp only [remaining, stats, Bool.toNat_true, Bool.toNat_false]
        omega
    | false =>
      refine advances_main ({ service with main := .unwrapping }) running ?_ (by simp)
        running ?_
      · simp [Service.stepMain, stage, stats]
      · simp only [remaining, stage, mainWork]
        omega
  | unwrapping =>
    have stream := orderly.stream (by simp [stage, rank])
    have stats := orderly.stats (by simp [stage, rank])
    refine advances_main ({ service with main := .joining 0 false }) running ?_ (by simp)
      running ?_
    · simp [Service.stepMain, stage, stream, stats]
    · simp only [remaining, stage, mainWork]
      simp
  | joining index cut => exact joining_advances queueSize orderly running stage
  | awaitingSink => exact awaitingSink_advances queueSize orderly running stage

/-- From wherever a signal finds the service, unless its queue has overflowed, some run in which
nothing new arrives and every peer does what it is asked ends it. -/
theorem shutdown_can_finish (config : PubSubSinkConfig) (queueSize : Nat)
    (actions : List (Action δ)) (service : Service δ)
    (reached : Runs.run (step queueSize) (start config) actions = some service)
    (signalled : service.main ≠ .serving) (running : service.exited = false) :
    Runs.Leads (step queueSize) Cooperates (fun final => final.main = .returned false) service := by
  have goes (service : Service δ)
      (held : (Orderly service ∧ Settled config service) ∧ service.main ≠ .serving ∧
        service.exited = false) :
      service.main = .returned false ∨ ∃ action next, Cooperates action ∧
        step queueSize service action = some next ∧
        ((Orderly next ∧ Settled config next) ∧ next.main ≠ .serving ∧ next.exited = false) ∧
        remaining next < remaining service := by
    obtain ⟨⟨orderly, settled⟩, signalled, running⟩ := held
    by_cases finished : service.main = .returned false
    · exact Or.inl finished
    · obtain ⟨action, next, cooperates, taken, later, still, less⟩ :=
        advances queueSize orderly signalled running finished
      exact Or.inr ⟨action, next, cooperates, taken,
        ⟨⟨orderly.step taken, settled.step taken orderly⟩, later, still⟩, less⟩
  exact Runs.Leads.of_measure remaining goes ⟨sound_of_run reached, signalled, running⟩

/-- The signal finds a connection in its session and a trade in the channel. -/
theorem one_trade_can_be_drained :
    ∃ service, Runs.run (step 4) (start ⟨3, 5⟩) untilSignal = some service ∧
      service.publisher.channel.queue = [PubSubTask.oneShare] ∧
      Runs.Leads (step 4) Cooperates (fun final => final.main = .returned false) service :=
  ⟨_, rfl, rfl, shutdown_can_finish ⟨3, 5⟩ 4 untilSignal _ rfl nofun rfl⟩

end Service

end Collector.Shutdown
