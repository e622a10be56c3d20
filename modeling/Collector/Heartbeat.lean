import Mathlib.Algebra.GroupWithZero.Nat
import Collector.Library.Runs

/-!
# The heartbeat and the reconnecting task

The Python connection runs two tasks. One listens, and when the session has ended
waits for a growing delay and connects again. The other sends PING and, when no PONG
has come after a while, sets a flag and closes the session; the flag tells the first
one to connect at once. A successful connect replaces the second task and leaves the
flag alone.

The wait for a PONG goes on when the session has ended in the meantime, and what it
then sets belongs to no session. It also takes an old clock reading for no PONG.

A step is what a task does between two awaits, or something the server does. Beside
the tasks stand how each session ended, how often was waited since the last
successful reconnect, and what was decided after each session.
-/

namespace Collector.Heartbeat

/-- How a session ended: closed by the ping loop because no PONG had arrived since
its PING, or in any other way. -/
inductive Ending where
  | dead
  | other
deriving DecidableEq

inductive Session where
  | opened
  | ended (ending : Ending)
deriving DecidableEq

/-- Where the ping loop awaits: its interval, the sending of a PING, or the wait for
the PONG. It keeps the time of the last PONG before the PING. Whether one has
arrived since is noted beside it. -/
inductive PingLoop where
  | interval
  | sending (pongTimeBeforePing : Int) (answered : Bool)
  | waiting (pongTimeBeforePing : Int) (answered : Bool)
  | stopped
deriving DecidableEq

/-- Where `run` awaits. -/
inductive Run where
  | listening
  | sleeping
  | connecting
  | subscribing
deriving DecidableEq

/-- A decision of `run` after a session: how the session had ended, the delay that
is waited if any, and how many delays were waited since the last reconnect. -/
structure Decision where
  ending : Ending
  delay : Option Nat
  attempts : Nat
deriving DecidableEq

structure WebSocketConnection where
  session : Session
  lastPongTime : Int
  pongTimedOut : Bool
  reconnectDelay : Nat
  run : Run
  pingLoop : PingLoop
  attempts : Nat
  decisions : List Decision
deriving DecidableEq

/-- What the server does, and the steps of the two tasks. Those that read the clock
carry the reading. -/
inductive Action where
  | sessionEnds
  | pong (now : Int)
  | intervalEnds
  | pingSent
  | pingFails
  | pongWaitEnds
  | listenEnds
  | delayEnds
  | connectSucceeds (now : Int)
  | connectFails
  | subscribed
deriving DecidableEq

namespace WebSocketConnection

/-- A connection that `start` has connected at some time, when `run` begins. -/
def start (connected : Int) : WebSocketConnection where
  session := .opened
  lastPongTime := connected
  pongTimedOut := false
  reconnectDelay := 1
  run := .listening
  pingLoop := .interval
  attempts := 0
  decisions := []

/-- A PONG since the last PING is noted. -/
def answer : PingLoop → PingLoop
  | .sending before _ => .sending before true
  | .waiting before _ => .waiting before true
  | pingLoop => pingLoop

/-- The ping loop closes a session that is open. -/
def close (answered : Bool) : Session → Session
  | .opened => .ended (if answered then .other else .dead)
  | .ended ending => .ended ending

/-- `run` after a session: consume the flag, or wait. -/
def afterSession (connection : WebSocketConnection) (ending : Ending) : WebSocketConnection :=
  if connection.pongTimedOut then { connection with
    pongTimedOut := false
    run := .connecting
    decisions := connection.decisions ++ [⟨ending, none, connection.attempts⟩] }
  else { connection with
    run := .sleeping
    decisions := connection.decisions ++
      [⟨ending, some connection.reconnectDelay, connection.attempts⟩] }

/-- One step. A PONG may still be read after the session has ended. After a failed
connect `run` listens to the session that has ended. -/
def step (connection : WebSocketConnection) : Action → Option WebSocketConnection
  | .sessionEnds =>
    if connection.session = .opened then some { connection with session := .ended .other }
    else none
  | .pong now =>
    if connection.run = .listening then some { connection with
      lastPongTime := now
      pingLoop := answer connection.pingLoop }
    else none
  | .intervalEnds =>
    if connection.pingLoop = .interval then some { connection with
      pingLoop :=
        if connection.session = .opened then .sending connection.lastPongTime false
        else .stopped }
    else none
  | .pingSent =>
    match connection.pingLoop with
    | .sending before answered => some { connection with pingLoop := .waiting before answered }
    | _ => none
  | .pingFails =>
    match connection.pingLoop with
    | .sending _ _ => some { connection with pingLoop := .stopped }
    | _ => none
  | .pongWaitEnds =>
    match connection.pingLoop with
    | .waiting before answered =>
      if connection.lastPongTime ≤ before then some { connection with
        pongTimedOut := true
        session := close answered connection.session
        pingLoop := .stopped }
      else some { connection with
        pingLoop := if connection.session = .opened then .interval else .stopped }
    | _ => none
  | .listenEnds =>
    match connection.run, connection.session with
    | .listening, .ended ending => some (connection.afterSession ending)
    | _, _ => none
  | .delayEnds =>
    if connection.run = .sleeping then some { connection with
      run := .connecting
      reconnectDelay := min (connection.reconnectDelay * 2) 60
      attempts := connection.attempts + 1 }
    else none
  | .connectSucceeds now =>
    if connection.run = .connecting then some { connection with
      session := .opened
      lastPongTime := now
      pingLoop := .interval
      run := .subscribing }
    else none
  | .connectFails =>
    if connection.run = .connecting then some { connection with run := .listening }
    else none
  | .subscribed =>
    if connection.run = .subscribing then some { connection with
      run := .listening
      reconnectDelay := 1
      attempts := 0 }
    else none

/-- Without a delay only after a session that the ping loop closed because no PONG
arrived, and with the exponential delay otherwise. -/
def Decision.Lawful (decision : Decision) : Prop :=
  match decision.delay with
  | none => decision.ending = .dead
  | some delay => delay = min (2 ^ decision.attempts) 60

/-- All decisions so far were lawful. -/
def Lawful (connection : WebSocketConnection) : Prop :=
  ∀ decision ∈ connection.decisions, Decision.Lawful decision

/-- A wait that finds no newer PONG ends while the session is open, and none has
arrived during it. -/
def Timely (connection : WebSocketConnection) : Action → Prop
  | .pongWaitEnds =>
    match connection.pingLoop with
    | .waiting before answered =>
      connection.lastPongTime ≤ before → connection.session = .opened ∧ answered = false
    | _ => True
  | _ => True

/-- What holds in every state: an open session is listened to or being subscribed,
a session that the ping loop closed has no ping loop, and the delay is exponential. -/
structure Consistent (connection : WebSocketConnection) : Prop where
  attended : connection.session = .opened →
    connection.run = .listening ∨ connection.run = .subscribing
  stopped : connection.session = .ended .dead → connection.pingLoop = .stopped
  delay : connection.reconnectDelay = min (2 ^ connection.attempts) 60
  delays : ∀ decision ∈ connection.decisions, ∀ delay ∈ decision.delay,
    delay = min (2 ^ decision.attempts) 60

/-- While the flag is set, the session that the ping loop closed waits to be
noticed, and no decision before was made on a flag that was out of date. -/
structure Marked (connection : WebSocketConnection) : Prop where
  consistent : Consistent connection
  flagged : connection.pongTimedOut = true →
    connection.session = .ended .dead ∧
      (connection.run = .listening ∨ connection.run = .subscribing)
  skips : ∀ decision ∈ connection.decisions, decision.delay = none → decision.ending = .dead

section Steps

variable {connection next : WebSocketConnection}

theorem pingSent_cases (taken : connection.step .pingSent = some next) :
    ∃ before answered, connection.pingLoop = .sending before answered ∧
      next = { connection with pingLoop := .waiting before answered } := by
  simp only [step] at taken
  split at taken
  · next before answered sending =>
    exact ⟨before, answered, sending, (Option.some.inj taken).symm⟩
  · cases taken

theorem pingFails_cases (taken : connection.step .pingFails = some next) :
    connection.pingLoop ≠ .stopped ∧ next = { connection with pingLoop := .stopped } := by
  simp only [step] at taken
  split at taken
  · next before answered sending =>
    refine ⟨?_, (Option.some.inj taken).symm⟩
    rw [sending]
    exact PingLoop.noConfusion
  · cases taken

/-- The end of a wait for a PONG: it closes the session, or goes on. -/
theorem pongWaitEnds_cases (taken : connection.step .pongWaitEnds = some next) :
    ∃ before answered, connection.pingLoop = .waiting before answered ∧
      ((connection.lastPongTime ≤ before ∧ next = { connection with
          pongTimedOut := true
          session := close answered connection.session
          pingLoop := .stopped }) ∨
        (before < connection.lastPongTime ∧ next = { connection with
          pingLoop := if connection.session = .opened then .interval else .stopped })) := by
  simp only [step] at taken
  split at taken
  · next before answered waiting =>
    refine ⟨before, answered, waiting, ?_⟩
    split at taken
    · next late => exact Or.inl ⟨late, (Option.some.inj taken).symm⟩
    · next newer => exact Or.inr ⟨Int.not_le.mp newer, (Option.some.inj taken).symm⟩
  · cases taken

theorem listenEnds_cases (taken : connection.step .listenEnds = some next) :
    ∃ ending, connection.run = .listening ∧ connection.session = .ended ending ∧
      next = connection.afterSession ending := by
  simp only [step] at taken
  split at taken
  · next ending listening ended =>
    exact ⟨ending, listening, ended, (Option.some.inj taken).symm⟩
  · cases taken

/-- A decision is made on the flag and changes neither the session nor the other task. -/
theorem afterSession_cases (connection : WebSocketConnection) (ending : Ending) :
    (connection.pongTimedOut = true ∧ connection.afterSession ending = { connection with
        pongTimedOut := false
        run := .connecting
        decisions := connection.decisions ++ [⟨ending, none, connection.attempts⟩] }) ∨
      (connection.pongTimedOut = false ∧ connection.afterSession ending = { connection with
        run := .sleeping
        decisions := connection.decisions ++
          [⟨ending, some connection.reconnectDelay, connection.attempts⟩] }) := by
  unfold afterSession
  cases connection.pongTimedOut with
  | true => exact Or.inl ⟨rfl, rfl⟩
  | false => exact Or.inr ⟨rfl, rfl⟩

/-- One more delay doubles the next one, up to a minute. -/
theorem double_delay (attempts : Nat) :
    min (min (2 ^ attempts) 60 * 2) 60 = min (2 ^ (attempts + 1)) 60 := by
  rw [Nat.pow_succ]
  omega

theorem answer_stopped {pingLoop : PingLoop} (stopped : pingLoop = .stopped) :
    answer pingLoop = .stopped := by
  rw [stopped]
  rfl

theorem consistent_start (connected : Int) : Consistent (start connected) where
  attended := fun _ => Or.inl rfl
  stopped := nofun
  delay := rfl
  delays := nofun

/-- A decision notes the delay that is waited, if any. -/
theorem Consistent.listenEnds (consistent : Consistent connection)
    (taken : connection.step .listenEnds = some next) : Consistent next := by
  obtain ⟨-, stopped, delay, delays⟩ := consistent
  obtain ⟨ending, listening, ended, rfl⟩ := listenEnds_cases taken
  have closed : connection.session ≠ .opened := by
    rw [ended]
    exact Session.noConfusion
  rcases connection.afterSession_cases ending with ⟨-, decided⟩ | ⟨-, decided⟩
  · rw [decided]
    refine ⟨fun opened => absurd opened closed, stopped, delay, ?_⟩
    intro decision member
    rcases List.mem_append.mp member with old | new
    · exact delays decision old
    · rw [List.mem_singleton.mp new]
      exact nofun
  · rw [decided]
    refine ⟨fun opened => absurd opened closed, stopped, delay, ?_⟩
    intro decision member
    rcases List.mem_append.mp member with old | new
    · exact delays decision old
    · rw [List.mem_singleton.mp new]
      intro waited isDelay
      obtain rfl := Option.some.inj isDelay
      exact delay

/-- Every step keeps a connection consistent. -/
theorem consistent_step (connection : WebSocketConnection) (action : Action)
    (next : WebSocketConnection) (taken : connection.step action = some next)
    (consistent : Consistent connection) : Consistent next := by
  obtain ⟨attended, stopped, delay, delays⟩ := consistent
  cases action with
  | sessionEnds =>
    obtain ⟨-, rfl⟩ := Runs.guarded taken
    exact ⟨nofun, nofun, delay, delays⟩
  | pong now =>
    obtain ⟨-, rfl⟩ := Runs.guarded taken
    exact ⟨attended, fun dead => answer_stopped (stopped dead), delay, delays⟩
  | intervalEnds =>
    obtain ⟨interval, rfl⟩ := Runs.guarded taken
    refine ⟨attended, ?_, delay, delays⟩
    intro dead
    exact absurd ((stopped dead).symm.trans interval) PingLoop.noConfusion
  | pingSent =>
    obtain ⟨before, answered, sending, rfl⟩ := pingSent_cases taken
    refine ⟨attended, ?_, delay, delays⟩
    intro dead
    exact absurd ((stopped dead).symm.trans sending) PingLoop.noConfusion
  | pingFails =>
    obtain ⟨-, rfl⟩ := pingFails_cases taken
    exact ⟨attended, fun _ => rfl, delay, delays⟩
  | pongWaitEnds =>
    obtain ⟨before, answered, waiting, ⟨-, rfl⟩ | ⟨-, rfl⟩⟩ := pongWaitEnds_cases taken
    · refine ⟨?_, fun _ => rfl, delay, delays⟩
      intro opened
      cases ended : connection.session with
      | opened => exact attended ended
      | ended ending =>
        simp only [ended, close] at opened
        cases opened
    · refine ⟨attended, ?_, delay, delays⟩
      intro dead
      exact absurd ((stopped dead).symm.trans waiting) PingLoop.noConfusion
  | listenEnds => exact Consistent.listenEnds ⟨attended, stopped, delay, delays⟩ taken
  | delayEnds =>
    obtain ⟨sleeping, rfl⟩ := Runs.guarded taken
    refine ⟨?_, stopped, ?_, delays⟩
    · intro opened
      rcases attended opened with listening | subscribing
      · exact absurd (sleeping.symm.trans listening) Run.noConfusion
      · exact absurd (sleeping.symm.trans subscribing) Run.noConfusion
    · simp only [delay]
      exact double_delay connection.attempts
  | connectSucceeds now =>
    obtain ⟨-, rfl⟩ := Runs.guarded taken
    exact ⟨fun _ => Or.inr rfl, nofun, delay, delays⟩
  | connectFails =>
    obtain ⟨connecting, rfl⟩ := Runs.guarded taken
    exact ⟨fun _ => Or.inl rfl, stopped, delay, delays⟩
  | subscribed =>
    obtain ⟨-, rfl⟩ := Runs.guarded taken
    exact ⟨fun _ => Or.inl rfl, stopped, rfl, delays⟩

theorem marked_start (connected : Int) : Marked (start connected) where
  consistent := consistent_start connected
  flagged := nofun
  skips := nofun

/-- A decision on a flag that is up to date skips the delay after a dead session only. -/
theorem Marked.listenEnds (marked : Marked connection)
    (taken : connection.step .listenEnds = some next) : Marked next := by
  obtain ⟨ending, listening, ended, rfl⟩ := listenEnds_cases taken
  have consistent := consistent_step connection .listenEnds _ taken marked.consistent
  rcases connection.afterSession_cases ending with ⟨flag, decided⟩ | ⟨noFlag, decided⟩
  · rw [decided] at consistent ⊢
    refine ⟨consistent, nofun, ?_⟩
    intro decision member skipped
    rcases List.mem_append.mp member with old | new
    · exact marked.skips decision old skipped
    · rw [List.mem_singleton.mp new]
      exact Session.ended.inj (ended.symm.trans (marked.flagged flag).1)
  · rw [decided] at consistent ⊢
    refine ⟨consistent, fun flag => absurd (noFlag.symm.trans flag) Bool.noConfusion, ?_⟩
    intro decision member skipped
    rcases List.mem_append.mp member with old | new
    · exact marked.skips decision old skipped
    · rw [List.mem_singleton.mp new] at skipped
      cases skipped

/-- Timely steps keep the flag up to date. -/
theorem marked_step (connection : WebSocketConnection) (action : Action)
    (next : WebSocketConnection) (timely : Timely connection action)
    (taken : connection.step action = some next) (marked : Marked connection) :
    Marked next := by
  have consistent := consistent_step connection action next taken marked.consistent
  -- in all states but these two the flag is not set
  have unset : connection.run ≠ .listening → connection.run ≠ .subscribing →
      connection.pongTimedOut = false := by
    intro notListening notSubscribing
    rw [Bool.eq_false_iff]
    intro flag
    rcases (marked.flagged flag).2 with listening | subscribing
    · exact notListening listening
    · exact notSubscribing subscribing
  cases action with
  | sessionEnds =>
    obtain ⟨opened, rfl⟩ := Runs.guarded taken
    refine ⟨consistent, ?_, marked.skips⟩
    intro flag
    exact absurd (opened.symm.trans (marked.flagged flag).1) Session.noConfusion
  | pong now =>
    obtain ⟨-, rfl⟩ := Runs.guarded taken
    exact ⟨consistent, marked.flagged, marked.skips⟩
  | intervalEnds =>
    obtain ⟨-, rfl⟩ := Runs.guarded taken
    exact ⟨consistent, marked.flagged, marked.skips⟩
  | pingSent =>
    obtain ⟨before, answered, -, rfl⟩ := pingSent_cases taken
    exact ⟨consistent, marked.flagged, marked.skips⟩
  | pingFails =>
    obtain ⟨-, rfl⟩ := pingFails_cases taken
    exact ⟨consistent, marked.flagged, marked.skips⟩
  | pongWaitEnds =>
    obtain ⟨before, answered, waiting, ⟨late, rfl⟩ | ⟨-, rfl⟩⟩ := pongWaitEnds_cases taken
    · simp only [Timely, waiting] at timely
      obtain ⟨opened, unanswered⟩ := timely late
      refine ⟨consistent, ?_, marked.skips⟩
      intro _
      refine ⟨?_, marked.consistent.attended opened⟩
      simp [opened, unanswered, close]
    · exact ⟨consistent, marked.flagged, marked.skips⟩
  | listenEnds => exact marked.listenEnds taken
  | delayEnds =>
    obtain ⟨sleeping, rfl⟩ := Runs.guarded taken
    have noFlag := unset (by simp [sleeping]) (by simp [sleeping])
    exact ⟨consistent, fun flag => absurd (noFlag.symm.trans flag) Bool.noConfusion, marked.skips⟩
  | connectSucceeds now =>
    obtain ⟨connecting, rfl⟩ := Runs.guarded taken
    have noFlag := unset (by simp [connecting]) (by simp [connecting])
    exact ⟨consistent, fun flag => absurd (noFlag.symm.trans flag) Bool.noConfusion, marked.skips⟩
  | connectFails =>
    obtain ⟨connecting, rfl⟩ := Runs.guarded taken
    have noFlag := unset (by simp [connecting]) (by simp [connecting])
    exact ⟨consistent, fun flag => absurd (noFlag.symm.trans flag) Bool.noConfusion, marked.skips⟩
  | subscribed =>
    obtain ⟨-, rfl⟩ := Runs.guarded taken
    exact ⟨consistent, fun flag => ⟨(marked.flagged flag).1, Or.inl rfl⟩, marked.skips⟩

/-- Decisions on a flag that is up to date are lawful. -/
theorem Marked.lawful (marked : Marked connection) : Lawful connection := by
  intro decision member
  unfold Decision.Lawful
  split
  · next skipped => exact marked.skips decision member skipped
  · next delay waited => exact marked.consistent.delays decision member delay waited

end Steps

section Stale

variable {connection next : WebSocketConnection}

/-- A set flag and a session that ended otherwise: the next decision is not lawful. -/
theorem misled_of_listening (flag : connection.pongTimedOut = true)
    (ended : connection.session = .ended .other) (listening : connection.run = .listening) :
    ∃ last, connection.step .listenEnds = some last ∧ ¬ Lawful last := by
  refine ⟨connection.afterSession .other, by simp [step, listening, ended], ?_⟩
  intro lawful
  rcases connection.afterSession_cases .other with ⟨-, decided⟩ | ⟨noFlag, -⟩
  · rw [decided] at lawful
    have dead := lawful ⟨.other, none, connection.attempts⟩
      (List.mem_append_right _ (List.mem_singleton_self _))
    exact Ending.noConfusion dead
  · exact Bool.noConfusion (noFlag.symm.trans flag)

/-- A continuation after one more step is a continuation. -/
theorem misled_cons {middle : WebSocketConnection} {action : Action}
    (taken : connection.step action = some middle)
    (later : ∃ more last, Runs.run step middle more = some last ∧ ¬ Lawful last) :
    ∃ more last, Runs.run step connection more = some last ∧ ¬ Lawful last := by
  obtain ⟨more, last, continued, unlawful⟩ := later
  refine ⟨action :: more, last, ?_, unlawful⟩
  rw [Runs.run_cons, taken]
  exact continued

/-- Wherever `run` is, it can come to that decision. -/
theorem misled (flag : connection.pongTimedOut = true)
    (ended : connection.session = .ended .other) :
    ∃ more last, Runs.run step connection more = some last ∧ ¬ Lawful last := by
  have listens : ∀ state : WebSocketConnection, state.pongTimedOut = true →
      state.session = .ended .other → state.run = .listening →
      ∃ more last, Runs.run step state more = some last ∧ ¬ Lawful last := by
    intro state flag ended listening
    obtain ⟨last, taken, unlawful⟩ := misled_of_listening flag ended listening
    exact misled_cons taken ⟨[], last, rfl, unlawful⟩
  have connects : ∀ state : WebSocketConnection, state.pongTimedOut = true →
      state.session = .ended .other → state.run = .connecting →
      ∃ more last, Runs.run step state more = some last ∧ ¬ Lawful last := by
    intro state flag ended connecting
    have failed : state.step .connectFails = some { state with run := .listening } :=
      if_pos connecting
    exact misled_cons failed (listens _ flag ended rfl)
  cases phase : connection.run with
  | listening => exact listens connection flag ended phase
  | sleeping =>
    have woken : connection.step .delayEnds = some { connection with
        run := .connecting
        reconnectDelay := min (connection.reconnectDelay * 2) 60
        attempts := connection.attempts + 1 } := if_pos phase
    exact misled_cons woken (connects _ flag ended rfl)
  | connecting => exact connects connection flag ended phase
  | subscribing =>
    have subscribed : connection.step .subscribed = some { connection with
        run := .listening
        reconnectDelay := 1
        attempts := 0 } := if_pos phase
    exact misled_cons subscribed (listens _ flag ended rfl)

/-- A wait that ends out of time sets the flag for a session that ended otherwise. -/
theorem untimely_cases {action : Action} (consistent : Consistent connection)
    (taken : connection.step action = some next) (untimely : ¬ Timely connection action) :
    next.pongTimedOut = true ∧ next.session = .ended .other := by
  cases action with
  | pongWaitEnds =>
    obtain ⟨before, answered, waiting, ⟨late, rfl⟩ | ⟨newer, -⟩⟩ := pongWaitEnds_cases taken
    · refine ⟨rfl, ?_⟩
      simp only [Timely, waiting] at untimely
      cases ended : connection.session with
      | opened =>
        cases answered with
        | true => rfl
        | false => exact absurd (fun _ => ⟨ended, rfl⟩) untimely
      | ended ending =>
        cases ending with
        | other => rfl
        | dead =>
          exact absurd ((consistent.stopped ended).symm.trans waiting) PingLoop.noConfusion
    · simp only [Timely, waiting] at untimely
      exact absurd (fun late => absurd late (Int.not_le.mpr newer)) untimely
  | _ => exact absurd trivial untimely

end Stale

/-- In every interleaving whose waits for a PONG end in time, `run` skips the delay
only after a session that the ping loop closed because no PONG arrived, and waits
the exponential delay otherwise. Once a wait ends out of time, some continuation
skips a delay after a session that ended otherwise. -/
theorem backoff_skipped_after_timeouts (connected : Int) (actions : List Action)
    (final : WebSocketConnection)
    (completed : Runs.run step (start connected) actions = some final) :
    (Runs.Along step Timely (start connected) actions → Lawful final) ∧
      ∀ action next, final.step action = some next → ¬ Timely final action →
        ∃ more last, Runs.run step next more = some last ∧ ¬ Lawful last := by
  constructor
  · intro timely
    exact (Runs.invariant_along marked_step timely completed (marked_start connected)).lawful
  · intro action next taken untimely
    have consistent := Runs.invariant consistent_step completed (consistent_start connected)
    obtain ⟨flag, ended⟩ := untimely_cases consistent taken untimely
    exact misled flag ended

/-- A PING without a PONG, and a connect that succeeds at once. -/
def deadSession : List Action :=
  [.intervalEnds, .pingSent, .pongWaitEnds, .listenEnds, .connectSucceeds 12, .subscribed]

theorem dead_session_is_replaced :
    ∃ final, Runs.run step (start 0) deadSession = some final ∧
      final.decisions = [⟨.dead, none, 0⟩] ∧ Lawful final := by
  obtain ⟨final, completed, decisions⟩ : ∃ final,
      Runs.run step (start 0) deadSession = some final ∧ final.decisions = [⟨.dead, none, 0⟩] :=
    ⟨_, rfl, rfl⟩
  refine ⟨final, completed, decisions, ?_⟩
  apply (backoff_skipped_after_timeouts 0 deadSession final completed).1
  refine .cons trivial rfl (.cons trivial rfl (.cons ?_ rfl ?_))
  · exact fun _ => ⟨rfl, rfl⟩
  · exact .cons trivial rfl (.cons trivial rfl (.cons trivial rfl trivial))

/-- The server ends the session during the wait for a PONG, and the wait ends during
the delay. The next session, which the server ends too, is replaced without one. -/
theorem stale_flag_skips_delay :
    ∃ final, Runs.run step (start 0)
        [.intervalEnds, .pingSent, .sessionEnds, .listenEnds, .pongWaitEnds, .delayEnds,
          .connectSucceeds 12, .subscribed, .sessionEnds, .listenEnds] = some final ∧
      final.decisions = [⟨.other, some 1, 0⟩, ⟨.other, none, 0⟩] ∧ ¬ Lawful final := by
  refine ⟨_, rfl, rfl, ?_⟩
  intro lawful
  exact Ending.noConfusion (lawful ⟨.other, none, 0⟩ (List.mem_cons_of_mem _ List.mem_cons_self))

end WebSocketConnection

end Collector.Heartbeat
