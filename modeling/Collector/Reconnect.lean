import Collector.Connection
import Collector.Snippets
import Collector.Library.CallLog

/-!
# The delays and the heartbeat of a connection task

`Connection` leaves the clock out. Here is the rest of the task: the delay before it
connects again, the sessions it opens, and in a session the ticker that writes a PING and
looks whether the one before was answered. All times are milliseconds.

An action carries the readings of the clock that it makes. The ticker puts its next tick
somewhere between an interval after the tick was due and an interval after it came.
Beside the state stands a log of what happened; the laws of the delays and of the
heartbeat are laws of the log.
-/

namespace Collector.Reconnect

open Connection (SessionOutcome)

def initialBackoff : Nat := 1000
def pingInterval : Nat := 10000
def pongTimeout : Nat := 5000
def reconnectDelayMax : Nat := 60000

/-- When the ticker of a session is due, and the times it compares. -/
structure Heartbeat where
  deadline : Nat
  lastPong : Nat
  lastPingSent : Option Nat
deriving DecidableEq

/-- Where the task is. A session begins with the subscription to everything wanted. -/
inductive Phase where
  | top
  | sleeping (wakes : Nat)
  | connecting
  | subscribing
  | listening (heartbeat : Heartbeat)
  | returned
deriving DecidableEq

/-- What happened. An attempt carries the delay before it, if there was one. -/
inductive Entry where
  | attempt (time : Nat) (delay : Option Nat)
  | opened (time : Nat)
  | listening (time : Nat)
  | text (pong : Bool) (time : Nat)
  | ping (time : Nat)
  | ended (outcome : SessionOutcome) (time : Nat)
deriving DecidableEq

structure State where
  clock : Nat
  firstAttempt : Bool
  pongTimedOut : Bool
  backoff : Nat
  lastMessageTime : Option Nat
  reconnects : Nat
  phase : Phase
  log : List Entry

/-- Whether the command channel is closed and empty comes with the actions that ask. A
tick that does not end in time ends with the session. What else is handled in a session
takes time only. -/
inductive Action where
  | begin (now : Nat) (shutdown : Bool)
  | wake (now : Nat) (shutdown : Bool)
  | connect (now : Nat) (opened : Bool)
  | subscribeFails (now : Nat)
  | listen (created now next : Nat)
  | text (source : String) (received now : Nat)
  | tick (ticked next now : Nat) (sent : Bool)
  | handled (now : Nat)
  | finish (outcome : SessionOutcome) (now : Nat)

namespace State

/-- A task just spawned. -/
def initial (start : Nat) : State where
  clock := start
  firstAttempt := true
  pongTimedOut := false
  backoff := initialBackoff
  lastMessageTime := none
  reconnects := 0
  phase := .top
  log := []

/-- Return if the pool is done, and connect otherwise. -/
def attempt (state : State) (now : Nat) (delay : Option Nat) (shutdown : Bool) : State :=
  if shutdown then { state with
    clock := now
    phase := .returned }
  else { state with
    clock := now
    phase := .connecting
    log := state.log ++ [.attempt now delay] }

/-- What `run` makes of the outcome of a session. -/
def afterSession (state : State) (now : Nat) (outcome : SessionOutcome) : State :=
  let ended : State := { state with
    clock := now
    log := state.log ++ [.ended outcome now] }
  match outcome with
  | .pongTimeout => { ended with
      pongTimedOut := true
      backoff := initialBackoff
      phase := .top }
  | .closed => { ended with
      backoff := initialBackoff
      phase := .top }
  | .channelClosed => { ended with phase := .returned }
  | .shutdown => { ended with phase := .returned }
  | .error => { ended with phase := .top }

/-- A session goes on. -/
def goOn (state : State) (now : Nat) (heartbeat : Heartbeat) (entry : Entry) : State :=
  { state with
    clock := now
    phase := .listening heartbeat
    log := state.log ++ [entry] }

end State

/-- The last PING has no PONG after the timeout. -/
def Heartbeat.dead (heartbeat : Heartbeat) (now : Nat) : Bool :=
  heartbeat.lastPingSent.any fun sentAt =>
    heartbeat.lastPong < sentAt && sentAt + pongTimeout ≤ now

/-- One step. -/
def step (state : State) : Action → Option State
  | .begin now shutdown =>
    if state.phase = .top ∧ state.clock ≤ now then
      some (
        if state.firstAttempt then
          { state with firstAttempt := false }.attempt now none shutdown
        else if state.pongTimedOut then
          { state with pongTimedOut := false }.attempt now none shutdown
        else { state with
          clock := now
          phase := .sleeping (now + state.backoff) })
    else none
  | .wake now shutdown =>
    match state.phase with
    | .sleeping wakes =>
      if wakes ≤ now then
        some ({ state with backoff := min (state.backoff * 2) reconnectDelayMax }.attempt now
          (some state.backoff) shutdown)
      else none
    | _ => none
  | .connect now opened =>
    if state.phase = .connecting ∧ state.clock ≤ now then
      some (
        if opened then { state with
          clock := now
          phase := .subscribing
          reconnects := state.reconnects + if state.lastMessageTime.isSome then 1 else 0
          log := state.log ++ [.opened now] }
        else { state with
          clock := now
          phase := .top })
    else none
  | .subscribeFails now =>
    if state.phase = .subscribing ∧ state.clock ≤ now then some (state.afterSession now .error)
    else none
  | .listen created now next =>
    if state.phase = .subscribing ∧ state.clock ≤ created ∧ created ≤ now ∧
        created + pingInterval ≤ next ∧ next ≤ now + pingInterval then
      some (state.goOn now ⟨next, now, none⟩ (.listening now))
    else none
  | .text source received now =>
    match state.phase with
    | .listening heartbeat =>
      if state.clock ≤ received ∧ received ≤ now then
        let pong := Snippets.trim source = "PONG"
        some ({ state with lastMessageTime := some received }.goOn now
          { heartbeat with lastPong := if pong then now else heartbeat.lastPong }
          (.text pong now))
      else none
    | _ => none
  | .tick ticked next now sent =>
    match state.phase with
    | .listening heartbeat =>
      if state.clock ≤ ticked ∧ heartbeat.deadline ≤ ticked ∧ ticked ≤ now ∧
          heartbeat.deadline + pingInterval ≤ next ∧ next ≤ ticked + pingInterval then
        some (
          if heartbeat.dead ticked then state.afterSession now .pongTimeout
          else if sent then
            state.goOn now ⟨next, heartbeat.lastPong, some now⟩ (.ping now)
          else state.afterSession now .closed)
      else none
    | _ => none
  | .handled now =>
    match state.phase with
    | .listening _ => if state.clock ≤ now then some { state with clock := now } else none
    | _ => none
  | .finish outcome now =>
    match state.phase with
    | .listening _ =>
      if state.clock ≤ now ∧ outcome ∈ [.closed, .channelClosed, .shutdown] then
        some (state.afterSession now outcome)
      else none
    | _ => none

/-- What a step does. -/
inductive Moves (state : State) : Action → State → Prop where
  | first (now : Nat) (shutdown : Bool) (atTop : state.phase = .top) (later : state.clock ≤ now)
      (first : state.firstAttempt = true) :
      Moves state (.begin now shutdown)
        ({ state with firstAttempt := false }.attempt now none shutdown)
  | again (now : Nat) (shutdown : Bool) (atTop : state.phase = .top) (later : state.clock ≤ now)
      (notFirst : state.firstAttempt = false) (flag : state.pongTimedOut = true) :
      Moves state (.begin now shutdown)
        ({ state with pongTimedOut := false }.attempt now none shutdown)
  | sleep (now : Nat) (shutdown : Bool) (atTop : state.phase = .top) (later : state.clock ≤ now)
      (notFirst : state.firstAttempt = false) (noFlag : state.pongTimedOut = false) :
      Moves state (.begin now shutdown)
        { state with
          clock := now
          phase := .sleeping (now + state.backoff) }
  | wake (wakes now : Nat) (shutdown : Bool) (asleep : state.phase = .sleeping wakes)
      (later : wakes ≤ now) :
      Moves state (.wake now shutdown)
        ({ state with backoff := min (state.backoff * 2) reconnectDelayMax }.attempt now
          (some state.backoff) shutdown)
  | opened (now : Nat) (connecting : state.phase = .connecting) (later : state.clock ≤ now) :
      Moves state (.connect now true)
        { state with
          clock := now
          phase := .subscribing
          reconnects := state.reconnects + if state.lastMessageTime.isSome then 1 else 0
          log := state.log ++ [.opened now] }
  | refused (now : Nat) (connecting : state.phase = .connecting) (later : state.clock ≤ now) :
      Moves state (.connect now false)
        { state with
          clock := now
          phase := .top }
  | unsubscribed (now : Nat) (subscribing : state.phase = .subscribing)
      (later : state.clock ≤ now) :
      Moves state (.subscribeFails now) (state.afterSession now .error)
  | listen (created now next : Nat) (subscribing : state.phase = .subscribing)
      (later : state.clock ≤ created) (ordered : created ≤ now)
      (after : created + pingInterval ≤ next) (soon : next ≤ now + pingInterval) :
      Moves state (.listen created now next)
        (state.goOn now ⟨next, now, none⟩ (.listening now))
  | text (heartbeat : Heartbeat) (source : String) (received now : Nat)
      (listening : state.phase = .listening heartbeat) (later : state.clock ≤ received)
      (ordered : received ≤ now) :
      Moves state (.text source received now)
        ({ state with lastMessageTime := some received }.goOn now
          { heartbeat with
            lastPong := if Snippets.trim source = "PONG" then now else heartbeat.lastPong }
          (.text (Snippets.trim source = "PONG") now))
  | timedOut (heartbeat : Heartbeat) (ticked next now : Nat) (sent : Bool)
      (listening : state.phase = .listening heartbeat) (later : state.clock ≤ ticked)
      (due : heartbeat.deadline ≤ ticked) (ordered : ticked ≤ now)
      (dead : heartbeat.dead ticked = true) :
      Moves state (.tick ticked next now sent) (state.afterSession now .pongTimeout)
  | pinged (heartbeat : Heartbeat) (ticked next now : Nat)
      (listening : state.phase = .listening heartbeat) (later : state.clock ≤ ticked)
      (due : heartbeat.deadline ≤ ticked) (ordered : ticked ≤ now)
      (after : heartbeat.deadline + pingInterval ≤ next) (soon : next ≤ ticked + pingInterval)
      (alive : heartbeat.dead ticked = false) :
      Moves state (.tick ticked next now true)
        (state.goOn now ⟨next, heartbeat.lastPong, some now⟩ (.ping now))
  | pingFails (heartbeat : Heartbeat) (ticked next now : Nat)
      (listening : state.phase = .listening heartbeat) (later : state.clock ≤ ticked)
      (ordered : ticked ≤ now) :
      Moves state (.tick ticked next now false) (state.afterSession now .closed)
  | handled (heartbeat : Heartbeat) (now : Nat) (listening : state.phase = .listening heartbeat)
      (later : state.clock ≤ now) :
      Moves state (.handled now) { state with clock := now }
  | finish (heartbeat : Heartbeat) (outcome : SessionOutcome) (now : Nat)
      (listening : state.phase = .listening heartbeat) (later : state.clock ≤ now)
      (way : outcome ∈ [.closed, .channelClosed, .shutdown]) :
      Moves state (.finish outcome now) (state.afterSession now outcome)

theorem moves_of_step {state next : State} {action : Action}
    (taken : step state action = some next) : Moves state action next := by
  cases action with
  | begin now shutdown =>
    obtain ⟨⟨atTop, later⟩, rfl⟩ := Runs.guarded taken
    split
    · rename_i first
      exact .first now shutdown atTop later first
    · rename_i notFirst
      split
      · rename_i flag
        exact .again now shutdown atTop later (Bool.eq_false_iff.mpr notFirst) flag
      · rename_i noFlag
        exact .sleep now shutdown atTop later (Bool.eq_false_iff.mpr notFirst)
          (Bool.eq_false_iff.mpr noFlag)
  | wake now shutdown =>
    simp only [step] at taken
    split at taken
    · rename_i wakes asleep
      obtain ⟨later, rfl⟩ := Runs.guarded taken
      exact .wake wakes now shutdown asleep later
    · cases taken
  | connect now opened =>
    obtain ⟨⟨connecting, later⟩, rfl⟩ := Runs.guarded taken
    cases opened with
    | true => exact .opened now connecting later
    | false => exact .refused now connecting later
  | subscribeFails now =>
    obtain ⟨⟨subscribing, later⟩, rfl⟩ := Runs.guarded taken
    exact .unsubscribed now subscribing later
  | listen created now next =>
    obtain ⟨⟨subscribing, later, ordered, after, soon⟩, rfl⟩ := Runs.guarded taken
    exact .listen created now next subscribing later ordered after soon
  | text source received now =>
    simp only [step] at taken
    split at taken
    · rename_i heartbeat listening
      obtain ⟨⟨later, ordered⟩, rfl⟩ := Runs.guarded taken
      exact .text heartbeat source received now listening later ordered
    · cases taken
  | tick ticked next now sent =>
    simp only [step] at taken
    split at taken
    · rename_i heartbeat listening
      obtain ⟨⟨later, due, ordered, after, soon⟩, rfl⟩ := Runs.guarded taken
      cases dead : heartbeat.dead ticked with
      | true => exact .timedOut heartbeat ticked next now sent listening later due ordered dead
      | false =>
        cases sent with
        | true =>
          exact .pinged heartbeat ticked next now listening later due ordered after soon dead
        | false => exact .pingFails heartbeat ticked next now listening later ordered
    · cases taken
  | handled now =>
    simp only [step] at taken
    split at taken
    · rename_i heartbeat listening
      obtain ⟨later, rfl⟩ := Runs.guarded taken
      exact .handled heartbeat now listening later
    · cases taken
  | finish outcome now =>
    simp only [step] at taken
    split at taken
    · rename_i heartbeat listening
      obtain ⟨⟨later, way⟩, rfl⟩ := Runs.guarded taken
      exact .finish heartbeat outcome now listening later way
    · cases taken

/-- The attempts of a log, with the delays before them. -/
def attempts (log : List Entry) : List (Nat × Option Nat) :=
  log.filterMap fun
    | .attempt time delay => some (time, delay)
    | _ => none

/-- The delays waited since the last session that set the delay back. -/
def wait (count : Nat) : Entry → Nat
  | .attempt _ (some _) => count + 1
  | .ended .pongTimeout _ => 0
  | .ended .closed _ => 0
  | _ => count

def waits (log : List Entry) : Nat := log.foldl wait 0

/-- The last PING of a session, while no PONG has come since. -/
def pend (pending : Option Nat) : Entry → Option Nat
  | .ping time => some time
  | .text true _ => none
  | .ended _ _ => none
  | _ => pending

def unanswered (log : List Entry) : Option Nat := log.foldl pend none

/-- The task connects without a delay at first, and after a session that a PING without a
PONG ended; otherwise it waits for the exponential delay. -/
def Lawful (before : List Entry) : Entry → Prop
  | .attempt _ none =>
    before = [] ∨ ∃ time, before.getLast? = some (.ended .pongTimeout time)
  | .attempt _ (some delay) =>
    before ≠ [] ∧ delay = min (initialBackoff * 2 ^ waits before) reconnectDelayMax
  | .ended .pongTimeout time => ∃ sent, unanswered before = some sent ∧ sent + pongTimeout ≤ time
  | _ => True

/-- Between two attempts lies the delay, or the two intervals that a session takes to find out
that it is dead. -/
def Apart (earlier later : Nat × Option Nat) : Prop :=
  earlier.1 + later.2.getD (2 * pingInterval) ≤ later.1

/-- A log of lawful entries, its attempts apart and between the start and now. -/
structure Booked (start clock : Nat) (log : List Entry) : Prop where
  lawful : CallLog.Justified Lawful log
  apart : (attempts log).Pairwise Apart
  started : start ≤ clock
  bounds : ∀ attempt ∈ attempts log, start ≤ attempt.1 ∧ attempt.1 ≤ clock

/-- The heartbeat of a session. -/
structure Beating (clock : Nat) (log : List Entry) (heartbeat : Heartbeat) : Prop where
  sent : ∀ sent, heartbeat.lastPingSent = some sent → sent ≤ clock
  pending : ∀ sent, heartbeat.lastPingSent = some sent → heartbeat.lastPong < sent →
    unanswered log = some sent
  room : ∀ attempt ∈ attempts log,
    attempt.1 + (if heartbeat.lastPingSent.isSome then 2 * pingInterval else pingInterval) ≤
      heartbeat.deadline

/-- What holds in every state. -/
structure Paced (start : Nat) (state : State) : Prop where
  booked : Booked start state.clock state.log
  fresh : state.firstAttempt = true → state.log = [] ∧ state.phase = .top
  begun : state.firstAttempt = false → state.phase ≠ .returned → state.log ≠ []
  flagged : state.pongTimedOut = true → state.phase = .top ∧
    (∃ time, state.log.getLast? = some (.ended .pongTimeout time)) ∧
    ∀ attempt ∈ attempts state.log, attempt.1 + 2 * pingInterval ≤ state.clock
  backoff : state.phase ≠ .returned →
    state.backoff = min (initialBackoff * 2 ^ waits state.log) reconnectDelayMax
  asleep : ∀ wakes, state.phase = .sleeping wakes → wakes = state.clock + state.backoff
  beats : ∀ heartbeat, state.phase = .listening heartbeat →
    Beating state.clock state.log heartbeat

theorem attempts_concat (log : List Entry) (entry : Entry) :
    attempts (log ++ [entry]) = attempts log ++ attempts [entry] :=
  List.filterMap_append

theorem attempts_append {log : List Entry} {entry : Entry} (none : attempts [entry] = []) :
    attempts (log ++ [entry]) = attempts log := by
  rw [attempts_concat, none, List.append_nil]

theorem unanswered_concat (log : List Entry) (entry : Entry) :
    unanswered (log ++ [entry]) = pend (unanswered log) entry :=
  List.foldl_append

theorem waits_concat (log : List Entry) (entry : Entry) :
    waits (log ++ [entry]) = wait (waits log) entry :=
  List.foldl_append

theorem Booked.later {start clock now : Nat} {log : List Entry} (booked : Booked start clock log)
    (later : clock ≤ now) : Booked start now log where
  lawful := booked.lawful
  apart := booked.apart
  started := booked.started.trans later
  bounds := fun attempt member =>
    ⟨(booked.bounds attempt member).1, (booked.bounds attempt member).2.trans later⟩

/-- One more entry that is no attempt. -/
theorem Booked.append {start clock : Nat} {log : List Entry} {entry : Entry}
    (booked : Booked start clock log) (allowed : Lawful log entry)
    (none : attempts [entry] = []) : Booked start clock (log ++ [entry]) := by
  have same : attempts (log ++ [entry]) = attempts log := attempts_append none
  constructor
  · exact CallLog.justified_concat booked.lawful allowed
  · rw [same]
    exact booked.apart
  · exact booked.started
  · rw [same]
    exact booked.bounds

/-- One more attempt. -/
theorem Booked.attempt {start clock : Nat} {log : List Entry} {delay : Option Nat}
    (booked : Booked start clock log) (allowed : Lawful log (.attempt clock delay))
    (apart : ∀ earlier ∈ attempts log, earlier.1 + delay.getD (2 * pingInterval) ≤ clock) :
    Booked start clock (log ++ [.attempt clock delay]) := by
  have grown : attempts (log ++ [.attempt clock delay]) = attempts log ++ [(clock, delay)] :=
    attempts_concat log _
  constructor
  · exact CallLog.justified_concat booked.lawful allowed
  · rw [grown]
    apply List.pairwise_append.mpr
    refine ⟨booked.apart, List.pairwise_singleton _ _, ?_⟩
    intro earlier member later isNew
    obtain rfl := List.mem_singleton.mp isNew
    exact apart earlier member
  · exact booked.started
  · rw [grown]
    intro attempt member
    cases List.mem_append.mp member with
    | inl old => exact booked.bounds attempt old
    | inr new =>
      obtain rfl := List.mem_singleton.mp new
      exact ⟨booked.started, Nat.le_refl clock⟩

theorem Paced.attempt {start now : Nat} {state base : State} {delay : Option Nat}
    (paced : Paced start state) (later : state.clock ≤ now) (shutdown : Bool)
    (allowed : Lawful state.log (.attempt now delay))
    (apart : ∀ earlier ∈ attempts state.log, earlier.1 + delay.getD (2 * pingInterval) ≤ now)
    (sameLog : base.log = state.log) (begun : base.firstAttempt ≠ true)
    (noFlag : base.pongTimedOut ≠ true)
    (backoff : base.backoff =
      min (initialBackoff * 2 ^ wait (waits state.log) (.attempt now delay)) reconnectDelayMax) :
    Paced start (base.attempt now delay shutdown) := by
  have booked := paced.booked.later later
  cases shutdown with
  | true =>
    constructor
    · exact sameLog ▸ booked
    · exact fun first => absurd first begun
    · exact fun _ going => absurd rfl going
    · exact fun flag => absurd flag noFlag
    · exact fun going => absurd rfl going
    · exact fun wakes asleep => nomatch asleep
    · exact fun heartbeat listening => nomatch listening
  | false =>
    have grown : (base.attempt now delay false).log = state.log ++ [.attempt now delay] :=
      congrArg (· ++ [_]) sameLog
    constructor
    · rw [grown]
      exact booked.attempt allowed apart
    · exact fun first => absurd first begun
    · rw [grown]
      exact fun _ _ => List.append_ne_nil_of_right_ne_nil _ (List.cons_ne_nil _ _)
    · exact fun flag => absurd flag noFlag
    · rw [grown, waits_concat]
      exact fun _ => backoff
    · exact fun wakes asleep => nomatch asleep
    · exact fun heartbeat listening => nomatch listening

namespace State

variable (state : State) (now : Nat) (outcome : SessionOutcome)

@[simp]
theorem afterSession_clock : (state.afterSession now outcome).clock = now := by
  cases outcome <;> rfl

@[simp]
theorem afterSession_log :
    (state.afterSession now outcome).log = state.log ++ [.ended outcome now] := by
  cases outcome <;> rfl

@[simp]
theorem afterSession_firstAttempt :
    (state.afterSession now outcome).firstAttempt = state.firstAttempt := by
  cases outcome <;> rfl

/-- The task goes to the top of its loop or returns. -/
theorem afterSession_phase : (state.afterSession now outcome).phase = .top ∨
    (state.afterSession now outcome).phase = .returned := by
  cases outcome <;> simp [afterSession]

end State

/-- A session ends. -/
theorem Paced.ended {start now : Nat} {state : State} {outcome : SessionOutcome}
    (paced : Paced start state) (later : state.clock ≤ now)
    (inSession : state.phase = .subscribing ∨ ∃ heartbeat, state.phase = .listening heartbeat)
    (allowed : Lawful state.log (.ended outcome now))
    (room : outcome = .pongTimeout →
      ∀ attempt ∈ attempts state.log, attempt.1 + 2 * pingInterval ≤ now) :
    Paced start (state.afterSession now outcome) := by
  have going : state.phase ≠ .returned ∧ state.phase ≠ .top := by
    obtain subscribing | ⟨heartbeat, listening⟩ := inSession
    · simp [subscribing]
    · simp [listening]
  have same : attempts (state.log ++ [.ended outcome now]) = attempts state.log :=
    attempts_append rfl
  constructor
  · rw [State.afterSession_log, State.afterSession_clock]
    exact (paced.booked.later later).append allowed rfl
  · rw [State.afterSession_firstAttempt]
    exact fun first => absurd (paced.fresh first).2 going.2
  · rw [State.afterSession_log]
    exact fun _ _ => List.append_ne_nil_of_right_ne_nil _ (List.cons_ne_nil _ _)
  · rw [State.afterSession_log, State.afterSession_clock, List.getLast?_concat, same]
    intro flag
    cases outcome with
    | pongTimeout => exact ⟨rfl, ⟨now, rfl⟩, room rfl⟩
    | closed | channelClosed | shutdown | error => exact absurd (paced.flagged flag).1 going.2
  · rw [State.afterSession_log, waits_concat]
    intro unreturned
    cases outcome with
    | pongTimeout | closed => rfl
    | error => exact paced.backoff going.1
    | channelClosed | shutdown => exact absurd rfl unreturned
  · intro wakes asleep
    cases (state.afterSession_phase now outcome) with
    | inl atTop => cases atTop.symm.trans asleep
    | inr returned => cases returned.symm.trans asleep
  · intro heartbeat listening
    cases (state.afterSession_phase now outcome) with
    | inl atTop => cases atTop.symm.trans listening
    | inr returned => cases returned.symm.trans listening

/-- A session goes on. -/
theorem Paced.goOn {start now : Nat} {state : State} {heartbeat : Heartbeat} {entry : Entry}
    (paced : Paced start state) (later : state.clock ≤ now)
    (inSession : state.phase = .subscribing ∨ ∃ heartbeat, state.phase = .listening heartbeat)
    (allowed : Lawful state.log entry) (none : attempts [entry] = [])
    (quiet : wait (waits state.log) entry = waits state.log)
    (beats : Beating now (state.log ++ [entry]) heartbeat) :
    Paced start (state.goOn now heartbeat entry) := by
  have going : state.phase ≠ .returned ∧ state.phase ≠ .top := by
    obtain subscribing | ⟨heartbeat, listening⟩ := inSession
    · simp [subscribing]
    · simp [listening]
  constructor
  · exact (paced.booked.later later).append allowed none
  · exact fun first => absurd (paced.fresh first).2 going.2
  · exact fun _ _ => List.append_ne_nil_of_right_ne_nil _ (List.cons_ne_nil _ _)
  · exact fun flag => absurd (paced.flagged flag).1 going.2
  · intro _
    change state.backoff = min (initialBackoff * 2 ^ waits (state.log ++ [entry])) _
    rw [waits_concat, quiet]
    exact paced.backoff going.1
  · exact fun wakes asleep => nomatch asleep
  · intro other listening
    obtain rfl := Phase.listening.inj listening
    exact beats

/-- A text frame in a session. -/
theorem Beating.text {clock now : Nat} {log : List Entry} {heartbeat : Heartbeat} (pong : Bool)
    (beating : Beating clock log heartbeat) (later : clock ≤ now) :
    Beating now (log ++ [.text pong now])
      { heartbeat with lastPong := if pong then now else heartbeat.lastPong } where
  sent := fun sent sentAt => (beating.sent sent sentAt).trans later
  pending := by
    intro sent sentAt older
    have before := beating.sent sent sentAt
    cases pong with
    | true => exact absurd (older.trans_le (before.trans later)) (Nat.lt_irrefl now)
    | false =>
      rw [unanswered_concat]
      exact beating.pending sent sentAt older
  room := by
    rw [attempts_append rfl]
    exact beating.room

/-- A dead heartbeat has an old PING without a PONG. -/
theorem Beating.dead {clock ticked : Nat} {log : List Entry} {heartbeat : Heartbeat}
    (beating : Beating clock log heartbeat) (dead : heartbeat.dead ticked = true) :
    ∃ sent, heartbeat.lastPingSent = some sent ∧ unanswered log = some sent ∧
      sent + pongTimeout ≤ ticked := by
  obtain ⟨sent, sentAt, late⟩ := (Option.any_eq_true _ _).mp dead
  obtain ⟨older, timeout⟩ := Bool.and_eq_true_iff.mp late
  exact ⟨sent, sentAt, beating.pending sent sentAt (of_decide_eq_true older),
    of_decide_eq_true timeout⟩

/-- The delay doubles up to its bound. -/
theorem double_backoff (count : Nat) :
    min (min (initialBackoff * 2 ^ count) reconnectDelayMax * 2) reconnectDelayMax =
      min (initialBackoff * 2 ^ (count + 1)) reconnectDelayMax := by
  simp only [initialBackoff, reconnectDelayMax, Nat.pow_succ]
  omega

theorem Paced.left {start : Nat} {state : State} (paced : Paced start state)
    (left : state.phase ≠ .top) : state.firstAttempt ≠ true ∧ state.pongTimedOut ≠ true :=
  ⟨fun first => left (paced.fresh first).2, fun flag => left (paced.flagged flag).1⟩

/-- Time goes by without an entry. -/
theorem Paced.quiet {start now : Nat} {state : State} {phase : Phase} (paced : Paced start state)
    (later : state.clock ≤ now) (going : state.phase ≠ .returned)
    (begun : state.firstAttempt ≠ true) (noFlag : state.pongTimedOut ≠ true)
    (asleep : ∀ wakes, phase = .sleeping wakes → wakes = now + state.backoff)
    (beats : ∀ heartbeat, phase = .listening heartbeat → Beating now state.log heartbeat) :
    Paced start { state with
      clock := now
      phase := phase } where
  booked := paced.booked.later later
  fresh := fun first => absurd first begun
  begun := fun notFirst _ => paced.begun notFirst going
  flagged := fun flag => absurd flag noFlag
  backoff := fun _ => paced.backoff going
  asleep := asleep
  beats := beats

/-- The task connects for the first time. -/
theorem Paced.first {start now : Nat} {state : State} (paced : Paced start state) (shutdown : Bool)
    (atTop : state.phase = .top) (later : state.clock ≤ now) (first : state.firstAttempt = true) :
    Paced start ({ state with firstAttempt := false }.attempt now none shutdown) := by
  obtain ⟨empty, _⟩ := paced.fresh first
  have allowed : Lawful state.log (.attempt now none) := Or.inl empty
  refine paced.attempt later shutdown allowed ?_ rfl Bool.false_ne_true ?_ ?_
  · rw [empty]
    exact nofun
  · intro flag
    obtain ⟨_, ⟨time, last⟩, _⟩ := paced.flagged flag
    rw [empty] at last
    cases last
  · exact paced.backoff (by simp [atTop])

/-- The task connects after its delay, and the next one is twice as long. -/
theorem Paced.wake {start wakes now : Nat} {state : State} (paced : Paced start state)
    (shutdown : Bool) (asleep : state.phase = .sleeping wakes) (later : wakes ≤ now) :
    Paced start ({ state with backoff := min (state.backoff * 2) reconnectDelayMax }.attempt now
      (some state.backoff) shutdown) := by
  have wakesAt := paced.asleep wakes asleep
  have going : state.phase ≠ .returned := by simp [asleep]
  obtain ⟨notFirst, noFlag⟩ := paced.left (by simp [asleep])
  have delay := paced.backoff going
  have allowed : Lawful state.log (.attempt now (some state.backoff)) :=
    ⟨paced.begun (Bool.eq_false_iff.mpr notFirst) going, delay⟩
  refine paced.attempt (by omega) shutdown allowed ?_ rfl notFirst noFlag ?_
  · intro attempt member
    have past := (paced.booked.bounds attempt member).2
    simp only [Option.getD_some]
    omega
  · change min (state.backoff * 2) _ = _
    rw [delay]
    exact double_backoff _

theorem Paced.opened {start now : Nat} {state : State} (paced : Paced start state)
    (connecting : state.phase = .connecting) (later : state.clock ≤ now) :
    Paced start { state with
      clock := now
      phase := .subscribing
      reconnects := state.reconnects + if state.lastMessageTime.isSome then 1 else 0
      log := state.log ++ [.opened now] } := by
  obtain ⟨notFirst, noFlag⟩ := paced.left (by simp [connecting])
  constructor
  · exact (paced.booked.later later).append trivial rfl
  · exact fun first => absurd first notFirst
  · exact fun _ _ => List.append_ne_nil_of_right_ne_nil _ (List.cons_ne_nil _ _)
  · exact fun flag => absurd flag noFlag
  · intro _
    rw [waits_concat]
    exact paced.backoff (by simp [connecting])
  · exact fun wakes asleep => nomatch asleep
  · exact fun heartbeat listening => nomatch listening

/-- A PING that is answered by nothing yet. -/
theorem Beating.pinged {clock next now : Nat} {log : List Entry} {heartbeat : Heartbeat}
    (beating : Beating clock log heartbeat) (after : heartbeat.deadline + pingInterval ≤ next) :
    Beating now (log ++ [.ping now]) ⟨next, heartbeat.lastPong, some now⟩ where
  sent := by
    intro sent same
    exact (Option.some.inj same).ge
  pending := by
    intro sent same _
    obtain rfl := Option.some.inj same
    exact unanswered_concat _ _
  room := by
    rw [attempts_append rfl]
    intro attempt member
    have room := beating.room attempt member
    simp only [Option.isSome_some, if_true]
    split at room <;> omega

theorem Paced.step {start : Nat} (state : State) (action : Action) (next : State)
    (taken : step state action = some next) (paced : Paced start state) : Paced start next := by
  cases moves_of_step taken with
  | first now shutdown atTop later first => exact paced.first shutdown atTop later first
  | again now shutdown atTop later notFirst flag =>
    obtain ⟨_, last, room⟩ := paced.flagged flag
    have allowed : Lawful state.log (.attempt now none) := Or.inr last
    refine paced.attempt later shutdown allowed ?_ rfl (Bool.eq_false_iff.mp notFirst)
      Bool.false_ne_true ?_
    · exact fun attempt member => (room attempt member).trans later
    · exact paced.backoff (by simp [atTop])
  | sleep now shutdown atTop later notFirst noFlag =>
    refine paced.quiet later (by simp [atTop]) (Bool.eq_false_iff.mp notFirst)
      (Bool.eq_false_iff.mp noFlag) ?_ fun heartbeat listening => nomatch listening
    intro wakes asleep
    exact (Phase.sleeping.inj asleep).symm
  | wake wakes now shutdown asleep later => exact paced.wake shutdown asleep later
  | opened now connecting later => exact paced.opened connecting later
  | refused now connecting later =>
    obtain ⟨notFirst, noFlag⟩ := paced.left (by simp [connecting])
    exact paced.quiet later (by simp [connecting]) notFirst noFlag
      (fun wakes asleep => nomatch asleep) fun heartbeat listening => nomatch listening
  | unsubscribed now subscribing later =>
    exact paced.ended later (Or.inl subscribing) trivial nofun
  | listen created now due subscribing later ordered after soon =>
    refine paced.goOn (later.trans ordered) (Or.inl subscribing) trivial rfl rfl ?_
    constructor
    · exact nofun
    · exact nofun
    · rw [attempts_append rfl]
      intro attempt member
      have past := (paced.booked.bounds attempt member).2
      simp only [Option.isSome_none, Bool.false_eq_true, if_false]
      omega
  | text heartbeat source received now listening later ordered =>
    have base : Paced start { state with lastMessageTime := some received } :=
      ⟨paced.booked, paced.fresh, paced.begun, paced.flagged, paced.backoff, paced.asleep,
        paced.beats⟩
    have beats := (paced.beats heartbeat listening).text
      (decide (Snippets.trim source = "PONG")) (later.trans ordered)
    simp only [decide_eq_true_eq] at beats
    exact base.goOn (later.trans ordered) (Or.inr ⟨heartbeat, listening⟩) trivial rfl rfl beats
  | timedOut heartbeat ticked due now sent listening later deadline ordered dead =>
    have beating := paced.beats heartbeat listening
    obtain ⟨sentAt, found, pending, timeout⟩ := beating.dead dead
    have allowed : Lawful state.log (.ended .pongTimeout now) :=
      ⟨sentAt, pending, timeout.trans ordered⟩
    refine paced.ended (later.trans ordered) (Or.inr ⟨heartbeat, listening⟩) allowed ?_
    intro _ attempt member
    have room := beating.room attempt member
    rw [found] at room
    exact room.trans (deadline.trans ordered)
  | pinged heartbeat ticked due now listening later deadline ordered after soon alive =>
    exact paced.goOn (later.trans ordered) (Or.inr ⟨heartbeat, listening⟩) trivial rfl rfl
      ((paced.beats heartbeat listening).pinged after)
  | pingFails heartbeat ticked due now listening later ordered =>
    exact paced.ended (later.trans ordered) (Or.inr ⟨heartbeat, listening⟩) trivial nofun
  | handled heartbeat now listening later =>
    obtain ⟨notFirst, noFlag⟩ := paced.left (by simp [listening])
    refine paced.quiet later (by simp [listening]) notFirst noFlag ?_ ?_
    · intro wakes asleep
      cases listening.symm.trans asleep
    · intro other same
      obtain ⟨sent, pending, room⟩ := paced.beats other same
      exact ⟨fun time found => (sent time found).trans later, pending, room⟩
  | finish heartbeat outcome now listening later way =>
    have other : outcome ≠ .pongTimeout := by
      rintro rfl
      simp at way
    apply paced.ended later (Or.inr ⟨heartbeat, listening⟩) _ fun same => absurd same other
    cases outcome with
    | pongTimeout => exact absurd rfl other
    | closed | channelClosed | shutdown | error => trivial

theorem paced_initial (start : Nat) : Paced start (State.initial start) where
  booked := ⟨CallLog.justified_nil Lawful, List.Pairwise.nil, Nat.le_refl start, nofun⟩
  fresh := fun _ => ⟨rfl, rfl⟩
  begun := nofun
  flagged := nofun
  backoff := fun _ => rfl
  asleep := nofun
  beats := nofun

/-- No delay is shorter than the first. -/
theorem delay_of_lawful {log : List Entry} (lawful : CallLog.Justified Lawful log)
    {attempt : Nat × Option Nat} (member : attempt ∈ attempts log) :
    initialBackoff ≤ attempt.2.getD (2 * pingInterval) := by
  obtain ⟨entry, inLog, found⟩ := List.mem_filterMap.mp member
  obtain ⟨before, after, split⟩ := List.append_of_mem inLog
  have allowed := lawful before entry after split
  cases entry with
  | attempt time delay =>
    obtain rfl := Option.some.inj found
    cases delay with
    | none => exact (by decide : initialBackoff ≤ 2 * pingInterval)
    | some delay =>
      obtain ⟨_, rfl⟩ := allowed
      have grows : 1 ≤ 2 ^ waits before := Nat.one_le_two_pow
      simp only [Option.getD_some, initialBackoff, reconnectDelayMax]
      omega
  | opened | listening | text | ping | ended => cases found

/-- In every run, whatever fails and whenever: the task connects without a delay only at first
and after a session that a PING without a PONG ended, and otherwise after 1, 2, 4 and so on up
to 60 seconds, where failed connects and failed subscriptions count on and every session that
was closed starts anew. The delay passes before the attempt, and without one the session took
two intervals; so there are never more attempts than seconds. -/
theorem attempts_are_paced (start : Nat) (actions : List Action) (state : State)
    (completed : Runs.run step (State.initial start) actions = some state) :
    CallLog.Justified Lawful state.log ∧ (attempts state.log).Pairwise Apart ∧
      ((attempts state.log).length - 1) * initialBackoff ≤ state.clock - start := by
  obtain ⟨lawful, apart, _, bounds⟩ :=
    (Runs.invariant Paced.step completed (paced_initial start)).booked
  refine ⟨lawful, apart, ?_⟩
  have seconds : (attempts state.log).Pairwise
      fun earlier later => earlier.1 + initialBackoff ≤ later.1 := by
    apply apart.imp_of_mem
    intro earlier later _ member passed
    have delay := delay_of_lawful lawful member
    exact (Nat.add_le_add_left delay earlier.1).trans passed
  cases all : attempts state.log with
  | nil => simp
  | cons first rest =>
    rw [all] at seconds bounds
    have room := CallLog.length_mul_le seconds fun attempt member => (bounds attempt member).2
    have begun := (bounds first List.mem_cons_self).1
    rw [List.length_cons, Nat.add_sub_cancel]
    omega

/-- A session and its first PING. -/
def pingedSession : List Action :=
  [.begin 0 false, .connect 100 true, .listen 200 200 10200, .tick 10200 20200 10300 true]

/-- The PING is not answered, and then the server refuses. -/
def deadSession : List Action :=
  pingedSession ++ [.tick 20200 30200 20300 true, .begin 20400 false, .connect 20500 false,
    .begin 20600 false, .wake 21600 false]

theorem dead_session_is_left :
    ∃ state, Runs.run step (State.initial 0) deadSession = some state ∧
      attempts state.log = [(0, none), (20400, none), (21600, some 1000)] ∧
      CallLog.Justified Lawful state.log ∧
      ((attempts state.log).length - 1) * initialBackoff ≤ state.clock := by
  obtain ⟨state, completed, found⟩ : ∃ state,
      Runs.run step (State.initial 0) deadSession = some state ∧
        attempts state.log = [(0, none), (20400, none), (21600, some 1000)] := ⟨_, rfl, rfl⟩
  obtain ⟨lawful, _, room⟩ := attempts_are_paced 0 deadSession state completed
  exact ⟨state, completed, found, lawful, room⟩

/-- When the server was last heard in a session: when the session began to listen, or by the
last PONG. -/
def hear (heard : Option Nat) : Entry → Option Nat
  | .listening time => some time
  | .text true time => some time
  | .ended _ _ => none
  | _ => heard

def lastHeard (log : List Entry) : Option Nat := log.foldl hear none

/-- No PING follows another that was not answered. -/
def Answered (before : List Entry) : Entry → Prop
  | .ping _ => unanswered before = none
  | _ => True

/-- At most five seconds after the ticker was due. -/
def State.Due (state : State) (now : Nat) : Prop :=
  match state.phase with
  | .listening heartbeat => now ≤ heartbeat.deadline + pongTimeout
  | _ => True

/-- Later than the last PONG, or than the beginning of a session without one. -/
def State.AfterPong (state : State) (now : Nat) : Prop :=
  match state.phase with
  | .listening heartbeat => heartbeat.lastPong < now
  | _ => True

/-- The steps of a session end in time, and a PING is not written at the instant of a PONG. -/
def Timely (state : State) : Action → Prop
  | .listen _ now next => now ≤ next + pongTimeout
  | .text _ _ now => state.Due now
  | .tick _ _ now _ => state.AfterPong now ∧ state.Due now
  | .handled now => state.Due now
  | _ => True

/-- The heartbeat of a session whose steps end in time. -/
structure Watching (clock : Nat) (log : List Entry) (heartbeat : Heartbeat) : Prop where
  heard : lastHeard log = some heartbeat.lastPong
  past : heartbeat.lastPong ≤ clock
  pending : ∀ sent, unanswered log = some sent →
    heartbeat.lastPingSent = some sent ∧ heartbeat.lastPong < sent ∧
      sent + pongTimeout ≤ heartbeat.deadline
  near : heartbeat.deadline ≤ clock + pingInterval
  first : unanswered log = none → heartbeat.deadline ≤ heartbeat.lastPong + pingInterval
  second : heartbeat.deadline ≤ heartbeat.lastPong + (2 * pingInterval + pongTimeout)
  inTime : clock ≤ heartbeat.deadline + pongTimeout

/-- What holds while all steps end in time. -/
structure Watched (state : State) : Prop where
  answered : CallLog.Justified Answered state.log
  outside : (∀ heartbeat, state.phase ≠ .listening heartbeat) →
    unanswered state.log = none ∧ lastHeard state.log = none
  inside : ∀ heartbeat, state.phase = .listening heartbeat →
    Watching state.clock state.log heartbeat

theorem lastHeard_concat (log : List Entry) (entry : Entry) :
    lastHeard (log ++ [entry]) = hear (lastHeard log) entry :=
  List.foldl_append

theorem Watched.attempt {state base : State} (watched : Watched state)
    (outside : ∀ heartbeat, state.phase ≠ .listening heartbeat) (sameLog : base.log = state.log)
    (now : Nat) (delay : Option Nat) (shutdown : Bool) :
    Watched (base.attempt now delay shutdown) := by
  obtain ⟨pending, heard⟩ := watched.outside outside
  cases shutdown with
  | true =>
    constructor
    · exact sameLog ▸ watched.answered
    · exact fun _ => sameLog ▸ ⟨pending, heard⟩
    · exact fun heartbeat listening => nomatch listening
  | false =>
    have grown : (base.attempt now delay false).log = state.log ++ [.attempt now delay] :=
      congrArg (· ++ [_]) sameLog
    constructor
    · rw [grown]
      exact CallLog.justified_concat watched.answered trivial
    · rw [grown, unanswered_concat, lastHeard_concat]
      exact fun _ => ⟨pending, heard⟩
    · exact fun heartbeat listening => nomatch listening

theorem Watched.ended {state : State} (watched : Watched state) (now : Nat)
    (outcome : SessionOutcome) : Watched (state.afterSession now outcome) := by
  constructor
  · rw [State.afterSession_log]
    exact CallLog.justified_concat watched.answered trivial
  · rw [State.afterSession_log, unanswered_concat, lastHeard_concat]
    exact fun _ => ⟨rfl, rfl⟩
  · intro heartbeat listening
    cases state.afterSession_phase now outcome with
    | inl atTop => cases atTop.symm.trans listening
    | inr returned => cases returned.symm.trans listening

theorem Watched.goOn {state : State} {now : Nat} {heartbeat : Heartbeat} {entry : Entry}
    (watched : Watched state) (allowed : Answered state.log entry)
    (watching : Watching now (state.log ++ [entry]) heartbeat) :
    Watched (state.goOn now heartbeat entry) where
  answered := CallLog.justified_concat watched.answered allowed
  outside := fun outside => absurd rfl (outside heartbeat)
  inside := by
    intro other listening
    obtain rfl := Phase.listening.inj listening
    exact watching

/-- A text frame in a session. -/
theorem Watching.text {clock now : Nat} {log : List Entry} {heartbeat : Heartbeat} (pong : Bool)
    (watching : Watching clock log heartbeat) (later : clock ≤ now)
    (due : now ≤ heartbeat.deadline + pongTimeout) :
    Watching now (log ++ [.text pong now])
      { heartbeat with lastPong := if pong then now else heartbeat.lastPong } := by
  obtain ⟨heard, past, pending, near, first, second, _⟩ := watching
  cases pong with
  | true =>
    have soon : heartbeat.deadline ≤ now + pingInterval := near.trans (Nat.add_le_add_right later _)
    constructor
    · rw [lastHeard_concat]
      rfl
    · exact Nat.le_refl now
    · rw [unanswered_concat]
      exact nofun
    · exact soon
    · exact fun _ => soon
    · exact soon.trans (Nat.add_le_add_left (by decide) now)
    · exact due
  | false =>
    constructor
    · rw [lastHeard_concat]
      exact heard
    · exact past.trans later
    · rw [unanswered_concat]
      exact pending
    · exact near.trans (Nat.add_le_add_right later _)
    · rw [unanswered_concat]
      exact first
    · exact second
    · exact due

/-- While the steps end in time, a PING that was not answered is followed by the end of the
session. -/
theorem Watching.answered {clock ticked : Nat} {log : List Entry} {heartbeat : Heartbeat}
    (watching : Watching clock log heartbeat) (due : heartbeat.deadline ≤ ticked)
    (alive : heartbeat.dead ticked = false) : unanswered log = none := by
  cases found : unanswered log with
  | none => rfl
  | some sent =>
    obtain ⟨sentAt, older, timeout⟩ := watching.pending sent found
    simp [Heartbeat.dead, sentAt, older, timeout.trans due] at alive

/-- A PING in a session. -/
theorem Watching.pinged {clock ticked next now : Nat} {log : List Entry} {heartbeat : Heartbeat}
    (watching : Watching clock log heartbeat) (due : heartbeat.deadline ≤ ticked)
    (ordered : ticked ≤ now) (after : heartbeat.deadline + pingInterval ≤ next)
    (soon : next ≤ ticked + pingInterval) (alive : heartbeat.dead ticked = false)
    (afterPong : heartbeat.lastPong < now) (inTime : now ≤ heartbeat.deadline + pongTimeout) :
    Watching now (log ++ [.ping now]) ⟨next, heartbeat.lastPong, some now⟩ := by
  have none := watching.answered due alive
  have first := watching.first none
  have timeouts : pongTimeout + pongTimeout = pingInterval := rfl
  constructor
  · rw [lastHeard_concat]
    exact watching.heard
  · exact afterPong.le
  · rw [unanswered_concat]
    intro sent same
    obtain rfl := Option.some.inj same
    exact ⟨rfl, afterPong, by simp only; omega⟩
  · exact soon.trans (Nat.add_le_add_right ordered _)
  · rw [unanswered_concat]
    exact nofun
  · simp only
    omega
  · simp only
    omega

theorem Watched.step (state : State) (action : Action) (next : State)
    (timely : Timely state action) (taken : step state action = some next)
    (watched : Watched state) : Watched next := by
  cases moves_of_step taken with
  | first now shutdown atTop | again now shutdown atTop =>
    refine watched.attempt (by simp [atTop]) ?_ now none shutdown
    rfl
  | wake wakes now shutdown asleep =>
    refine watched.attempt (by simp [asleep]) ?_ now _ shutdown
    rfl
  | sleep now shutdown atTop =>
    constructor
    · exact watched.answered
    · exact fun _ => watched.outside (by simp [atTop])
    · exact fun heartbeat listening => nomatch listening
  | opened now connecting =>
    constructor
    · exact CallLog.justified_concat watched.answered trivial
    · rw [unanswered_concat, lastHeard_concat]
      exact fun _ => watched.outside (by simp [connecting])
    · exact fun heartbeat listening => nomatch listening
  | refused now connecting =>
    constructor
    · exact watched.answered
    · exact fun _ => watched.outside (by simp [connecting])
    · exact fun heartbeat listening => nomatch listening
  | unsubscribed now => exact watched.ended now .error
  | listen created now due subscribing later ordered after soon =>
    obtain ⟨pending, _⟩ := watched.outside (by simp [subscribing])
    refine watched.goOn trivial ?_
    constructor
    · rw [lastHeard_concat]
      rfl
    · exact Nat.le_refl now
    · rw [unanswered_concat]
      change ∀ sent, unanswered state.log = some sent → _
      rw [pending]
      exact nofun
    · exact soon
    · exact fun _ => soon
    · exact soon.trans (Nat.add_le_add_left (by decide) now)
    · exact timely
  | text heartbeat source received now listening later ordered =>
    simp only [Timely, State.Due, listening] at timely
    have base : Watched { state with lastMessageTime := some received } :=
      ⟨watched.answered, watched.outside, watched.inside⟩
    have watching := (watched.inside heartbeat listening).text
      (decide (Snippets.trim source = "PONG")) (later.trans ordered) timely
    simp only [decide_eq_true_eq] at watching
    exact base.goOn trivial watching
  | timedOut heartbeat ticked due now sent => exact watched.ended now .pongTimeout
  | pinged heartbeat ticked due now listening later deadline ordered after soon alive =>
    simp only [Timely, State.AfterPong, State.Due, listening] at timely
    have watching := watched.inside heartbeat listening
    exact watched.goOn (watching.answered deadline alive)
      (watching.pinged deadline ordered after soon alive timely.1 timely.2)
  | pingFails heartbeat ticked due now => exact watched.ended now .closed
  | handled heartbeat now listening later =>
    simp only [Timely, State.Due, listening] at timely
    obtain ⟨heard, past, pending, near, first, second, _⟩ := watched.inside heartbeat listening
    constructor
    · exact watched.answered
    · exact fun outside => absurd listening (outside heartbeat)
    · intro other same
      obtain rfl := Phase.listening.inj (listening.symm.trans same)
      exact ⟨heard, past.trans later, pending, near.trans (Nat.add_le_add_right later _), first,
        second, timely⟩
  | finish heartbeat outcome now => exact watched.ended now outcome

theorem watched_initial (start : Nat) : Watched (State.initial start) where
  answered := CallLog.justified_nil Answered
  outside := fun _ => ⟨rfl, rfl⟩
  inside := nofun

/-- As long as the steps of a session end within five seconds of its ticker, and no PING is
written at the instant of a PONG: between two PINGs there is a PONG or the end of the
session, and no session goes on for more than thirty seconds after it was last heard,
whatever else arrives. -/
theorem silent_server_is_left (start : Nat) (actions : List Action) (state : State)
    (timely : Runs.Along step Timely (State.initial start) actions)
    (completed : Runs.run step (State.initial start) actions = some state) :
    CallLog.Justified Answered state.log ∧
      ∀ heard, lastHeard state.log = some heard → state.clock ≤ heard + 3 * pingInterval := by
  have watched := Runs.invariant_along Watched.step timely completed (watched_initial start)
  refine ⟨watched.answered, ?_⟩
  intro heard last
  cases phase : state.phase with
  | listening heartbeat =>
    obtain ⟨same, _, _, _, _, second, inTime⟩ := watched.inside heartbeat phase
    obtain rfl := Option.some.inj (same.symm.trans last)
    simp only [pingInterval, pongTimeout] at *
    omega
  | top | sleeping | connecting | subscribing | returned =>
    obtain ⟨_, none⟩ := watched.outside (by simp [phase])
    cases none.symm.trans last

/-- A session of two PINGs with a PONG for each, and a last one that is not answered. -/
def answeredSession : List Action :=
  pingedSession ++ [.text "PONG" 10400 10400, .tick 20200 30200 20300 true,
    .text "[]" 20350 20350, .text " PONG " 20400 20400, .tick 30200 40200 30300 true]

theorem pinged_session_was_heard :
    ∃ state, Runs.run step (State.initial 0) answeredSession = some state ∧
      lastHeard state.log = some 20400 ∧ unanswered state.log = some 30300 ∧
      CallLog.Justified Answered state.log ∧ state.clock ≤ 20400 + 3 * pingInterval := by
  have timely : Runs.Along step Timely (State.initial 0) answeredSession := by
    refine .cons trivial rfl (.cons trivial rfl (.cons ?_ rfl (.cons ?_ rfl (.cons ?_ rfl
      (.cons ?_ rfl (.cons ?_ rfl (.cons ?_ rfl (.cons ?_ rfl trivial))))))))
    · exact (by decide : 200 ≤ 10200 + pongTimeout)
    · exact ⟨(by decide : 200 < 10300), (by decide : 10300 ≤ 10200 + pongTimeout)⟩
    · exact (by decide : 10400 ≤ 20200 + pongTimeout)
    · exact ⟨(by decide : 10400 < 20300), (by decide : 20300 ≤ 20200 + pongTimeout)⟩
    · exact (by decide : 20350 ≤ 30200 + pongTimeout)
    · exact (by decide : 20400 ≤ 30200 + pongTimeout)
    · exact ⟨(by decide : 20400 < 30300), (by decide : 30300 ≤ 30200 + pongTimeout)⟩
  obtain ⟨state, completed, heard, pending⟩ : ∃ state,
      Runs.run step (State.initial 0) answeredSession = some state ∧
        lastHeard state.log = some 20400 ∧ unanswered state.log = some 30300 := by
    exact ⟨_, rfl, by decide, by decide⟩
  obtain ⟨answered, soon⟩ := silent_server_is_left 0 answeredSession state timely completed
  exact ⟨state, completed, heard, pending, answered, soon 20400 heard⟩

end Collector.Reconnect
