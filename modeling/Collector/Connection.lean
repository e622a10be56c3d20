import Collector.Library.Json
import Collector.Library.Replay
import Collector.Routing

/-!
# One connection across reconnects

The pool records the assets of a connection in its handle and sends the changes
as commands through a bounded channel. The connection task takes commands only
inside a session. It keeps the assets it wants across sessions, starts every
session by subscribing to all of them, and after that sends the server only
what a command changes.

A dispatch and the end of its send are two steps, since a full channel makes the
pool wait. Taking a command and the end of the write it causes are two steps as
well. A write that fails ends the session. Delays and incoming messages leave
the subscriptions alone and are left out, except for the ways they end a
session.
-/

namespace Collector

open Replay (Delta replay)

/-- The change a command asks for. -/
def Command.delta : Command → Delta String
  | .subscribe assets => .add assets
  | .unsubscribe assets => .remove assets

/-- Record a command in the handle and send it. -/
def ConnHandle.tell (handle : ConnHandle) (command : Command) : ConnHandle :=
  { handle with
    assets := command.delta.apply handle.assets
    cmdTx := handle.cmdTx ++ [command] }

namespace Connection

/-- Mailbox capacity of the command channel. -/
def commandChannelSize : Nat := 64

/-- What the connection writes to its socket about subscriptions. -/
inductive Frame where
  | market (assetsIds : List String)
  | subscribe (assetsIds : List String)
  | unsubscribe (assetsIds : List String)
deriving DecidableEq

namespace Frame

/-- The text message of a frame. -/
def payload : Frame → Json
  | .market assetsIds =>
    .object [("assets_ids", .array (assetsIds.map .string)), ("type", .string "market")]
  | .subscribe assetsIds =>
    .object [("assets_ids", .array (assetsIds.map .string)), ("operation", .string "subscribe")]
  | .unsubscribe assetsIds =>
    .object [("assets_ids", .array (assetsIds.map .string)), ("operation", .string "unsubscribe")]

/-- What the server makes of a frame. -/
def delta : Frame → Delta String
  | .market assetsIds => .add assetsIds
  | .subscribe assetsIds => .add assetsIds
  | .unsubscribe assetsIds => .remove assetsIds

/-- Whether a frame subscribes to something. -/
def isSubscribe : Frame → Bool
  | .market _ => true
  | .subscribe _ => true
  | .unsubscribe _ => false

/-- Whether a frame is the kind that introduces a session. -/
def isMarket : Frame → Bool
  | .market _ => true
  | .subscribe _ => false
  | .unsubscribe _ => false

/-- Different frames are different messages. -/
theorem payload_injective : Function.Injective payload := by
  have strings : Function.Injective (List.map Json.string) :=
    List.map_injective_iff.mpr fun _ _ same => Json.string.inj same
  intro left right same
  cases left <;> cases right <;> simp [payload] at same <;> simpa using strings same

end Frame

/-- What a task wants, what it has subscribed to in this session, and whether the
session has been introduced. -/
@[ext]
structure SubState where
  desired : Finset String
  subscribed : Finset String
  initialSent : Bool
deriving DecidableEq

namespace SubState

/-- The state of a new task. -/
def default : SubState where
  desired := ∅
  subscribed := ∅
  initialSent := false

/-- A new socket knows of no subscription. -/
def resetSession (sub : SubState) : SubState :=
  { sub with
    subscribed := ∅
    initialSent := false }

/-- `send_subscribe`: the first message of a session has its own form. -/
def sendSubscribe (sub : SubState) (assets : List String) : SubState × Frame :=
  if sub.initialSent = false then ({ sub with initialSent := true }, .market assets)
  else (sub, .subscribe assets)

/-- One asset of a subscribe command, with the assets new in this session. -/
def subscribeAsset (state : SubState × List String) (asset : String) : SubState × List String :=
  ({ state.1 with
      desired := insert asset state.1.desired
      subscribed := insert asset state.1.subscribed },
    if asset ∈ state.1.subscribed then state.2 else state.2 ++ [asset])

/-- One asset of an unsubscribe command, with the assets removed. -/
def unsubscribeAsset (state : SubState × List String) (asset : String) : SubState × List String :=
  if asset ∈ state.1.desired then
    ({ state.1 with
        desired := state.1.desired.erase asset
        subscribed := state.1.subscribed.erase asset },
      state.2 ++ [asset])
  else state

/-- Process a command; the frame is what must be written for it. -/
def process (sub : SubState) : Command → SubState × Option Frame
  | .subscribe assets =>
    if assets.isEmpty then (sub, none)
    else
      let (sub, newInSession) := assets.foldl subscribeAsset (sub, [])
      if newInSession.isEmpty then (sub, none)
      else ((sub.sendSubscribe newInSession).1, some (sub.sendSubscribe newInSession).2)
  | .unsubscribe assets =>
    if assets.isEmpty then (sub, none)
    else
      let (sub, removed) := assets.foldl unsubscribeAsset (sub, [])
      if removed.isEmpty then (sub, none) else (sub, some (.unsubscribe removed))

end SubState

/-- Why a session ended. -/
inductive SessionOutcome where
  | pongTimeout
  | closed
  | channelClosed
  | shutdown
  | error
deriving DecidableEq

/-- Where the task is: in the reconnect delay, connecting, in a write, waiting for
the next thing to happen in a session, or returned. -/
inductive Phase where
  | disconnected
  | connecting
  | resubscribing (frame : Frame)
  | sending (frame : Frame)
  | listening
  | returned
deriving DecidableEq

/-- Where the task goes when its session has ended. -/
def SessionOutcome.next : SessionOutcome → Phase
  | .pongTimeout => .disconnected
  | .closed => .disconnected
  | .channelClosed => .returned
  | .shutdown => .returned
  | .error => .disconnected

/-- The pool's handle, the command it waits to send, the channel, and the task
with the commands it has processed and the frames of its session. -/
structure State where
  handle : ConnHandle
  waiting : Option Command
  senderDropped : Bool
  commands : List Command
  processed : List Command
  sub : SubState
  phase : Phase
  frames : List Frame
deriving DecidableEq

/-- A connection just spawned. -/
def initial (connId : Nat) : State where
  handle := ⟨connId, ∅, []⟩
  waiting := none
  senderDropped := false
  commands := []
  processed := []
  sub := .default
  phase := .disconnected
  frames := []

/-- The steps of the pool and of the task. A connect carries the order in which
the assets come out of the set, or nothing when it fails. -/
inductive Action where
  | dispatch (command : Command)
  | enqueue
  | dropSender
  | attempt
  | connect (outcome : Option (List String))
  | recv
  | written (sent : Bool)
  | endSession (outcome : SessionOutcome)

namespace State

/-- A send that has found room, or that fails because nobody receives. -/
def enqueue (state : State) (command : Command) : State :=
  { state with
    waiting := none
    commands := if state.phase = .returned then state.commands else state.commands ++ [command] }

/-- A fresh socket: everything wanted is subscribed to again. -/
def startSession (state : State) (assets : List String) : State :=
  let sub := state.sub.resetSession
  if sub.desired = ∅ then
    { state with
      sub := sub
      phase := .listening
      frames := [] }
  else
    { state with
      sub := (sub.sendSubscribe assets).1
      phase := .resubscribing (sub.sendSubscribe assets).2
      frames := [] }

/-- Take the next command and begin to write what it needs. -/
def process (state : State) (command : Command) (rest : List Command) : State :=
  { state with
    commands := rest
    processed := state.processed ++ [command]
    sub := (state.sub.process command).1
    phase := match (state.sub.process command).2 with
      | none => .listening
      | some frame => .sending frame }

/-- The initial subscription is written: it covers everything wanted. -/
def resubscribed (state : State) (frame : Frame) : State :=
  { state with
    sub := { state.sub with subscribed := state.sub.subscribed ∪ state.sub.desired }
    phase := .listening
    frames := state.frames ++ [frame] }

/-- The frame of a command is written. -/
def sent (state : State) (frame : Frame) : State :=
  { state with
    phase := .listening
    frames := state.frames ++ [frame] }

/-- The session is over. -/
def endSession (state : State) (outcome : SessionOutcome) : State :=
  { state with phase := outcome.next }

end State

/-- One step. The pool waits while its send waits; the channel takes a command
while it has room; the task returns once the channel is closed and empty. -/
def step (state : State) : Action → Option State
  | .dispatch command =>
    if state.senderDropped = false ∧ state.waiting = none then
      some { state with
        handle := state.handle.tell command
        waiting := some command }
    else none
  | .enqueue => do
    let command ← state.waiting
    if state.phase = .returned ∨ state.commands.length < commandChannelSize then
      some (state.enqueue command)
    else none
  | .dropSender =>
    if state.waiting = none then some { state with senderDropped := true } else none
  | .attempt =>
    if state.phase = .disconnected then
      some { state with
        phase := if state.senderDropped ∧ state.commands.isEmpty then .returned else .connecting }
    else none
  | .connect none =>
    if state.phase = .connecting then some { state with phase := .disconnected } else none
  | .connect (some assets) =>
    if state.phase = .connecting ∧ assets.Nodup ∧ assets.toFinset = state.sub.desired then
      some (state.startSession assets)
    else none
  | .recv =>
    if state.phase = .listening then
      match state.commands with
      | command :: rest => some (state.process command rest)
      | [] => if state.senderDropped then some (state.endSession .shutdown) else none
    else none
  | .written sent =>
    match state.phase with
    | .resubscribing frame =>
      some (if sent then state.resubscribed frame else state.endSession .error)
    | .sending frame => some (if sent then state.sent frame else state.endSession .error)
    | _ => none
  | .endSession outcome =>
    if state.phase = .listening ∧ outcome ∈ [.pongTimeout, .closed, .channelClosed] then
      some (state.endSession outcome)
    else none

/-- A task that has returned stays returned, whatever the pool still does. -/
theorem step_returned {state next : State} {action : Action} (taken : step state action = some next)
    (atEnd : state.phase = .returned) : next.phase = .returned := by
  cases action with
  | dispatch command =>
    obtain ⟨_, rfl⟩ := Runs.guarded taken
    exact atEnd
  | enqueue =>
    obtain ⟨command, _, taken⟩ := Option.bind_eq_some_iff.mp taken
    obtain ⟨_, rfl⟩ := Runs.guarded taken
    exact atEnd
  | dropSender =>
    obtain ⟨_, rfl⟩ := Runs.guarded taken
    exact atEnd
  | attempt => simp [step, atEnd] at taken
  | connect outcome => cases outcome <;> simp [step, atEnd] at taken
  | recv => simp [step, atEnd] at taken
  | written sent => simp [step, atEnd] at taken
  | endSession outcome => simp [step, atEnd] at taken

/-! ## Processing a command -/

namespace SubState

/-- What the assets of a subscribe command do to both sets. -/
theorem foldl_subscribeAsset (assets : List String) (sub : SubState) (newInSession : List String) :
    ∃ added, assets.foldl subscribeAsset (sub, newInSession) =
        ({ sub with
          desired := sub.desired ∪ assets.toFinset
          subscribed := sub.subscribed ∪ assets.toFinset }, newInSession ++ added) ∧
      sub.subscribed ∪ added.toFinset = sub.subscribed ∪ assets.toFinset := by
  induction assets generalizing sub newInSession with
  | nil =>
    refine ⟨[], ?_, rfl⟩
    simp
  | cons asset rest inductionHypothesis =>
    obtain ⟨added, folded, covered⟩ := inductionHypothesis
      (subscribeAsset (sub, newInSession) asset).1 (subscribeAsset (sub, newInSession) asset).2
    have subscribed : (subscribeAsset (sub, newInSession) asset).1.subscribed =
        insert asset sub.subscribed := rfl
    rw [subscribed] at covered
    refine ⟨(if asset ∈ sub.subscribed then [] else [asset]) ++ added, ?_, ?_⟩
    · rw [List.foldl_cons, folded]
      simp only [subscribeAsset, List.toFinset_cons, Finset.insert_union, Finset.union_insert]
      split <;> simp
    · rw [List.toFinset_append, List.toFinset_cons, Finset.union_insert, ← Finset.insert_union,
        ← covered]
      split
      · rename_i known
        rw [Finset.insert_eq_of_mem known]
        rfl
      · simp

/-- What the assets of an unsubscribe command do to both sets. -/
theorem foldl_unsubscribeAsset (assets : List String) (sub : SubState) (removed : List String) :
    ∃ dropped, assets.foldl unsubscribeAsset (sub, removed) =
        ({ sub with
          desired := sub.desired \ assets.toFinset
          subscribed := sub.subscribed \ dropped.toFinset }, removed ++ dropped) ∧
      sub.desired \ dropped.toFinset = sub.desired \ assets.toFinset := by
  induction assets generalizing sub removed with
  | nil =>
    refine ⟨[], ?_, rfl⟩
    simp
  | cons asset rest inductionHypothesis =>
    rw [List.foldl_cons, unsubscribeAsset]
    split
    · rename_i wanted
      obtain ⟨dropped, folded, covered⟩ := inductionHypothesis
        { sub with
          desired := sub.desired.erase asset
          subscribed := sub.subscribed.erase asset } (removed ++ [asset])
      refine ⟨asset :: dropped, ?_, ?_⟩
      · rw [folded]
        simp [Finset.sdiff_insert, Finset.erase_sdiff_comm]
      · rw [List.toFinset_cons, List.toFinset_cons, Finset.sdiff_insert, Finset.sdiff_insert,
          ← Finset.erase_sdiff_comm, ← Finset.erase_sdiff_comm]
        exact covered
    · rename_i unwanted
      obtain ⟨dropped, folded, covered⟩ := inductionHypothesis sub removed
      have ignored : sub.desired \ (asset :: rest).toFinset = sub.desired \ rest.toFinset := by
        rw [List.toFinset_cons, Finset.sdiff_insert, Finset.erase_eq_of_notMem]
        exact fun member => unwanted (Finset.mem_sdiff.mp member).1
      refine ⟨dropped, ?_, ?_⟩
      · rw [folded, ignored]
      · rw [covered, ignored]

end SubState

/-- Of the frames that subscribe to something, the first one is the kind that
introduces a session and no other is. -/
def MarketFirst (frames : List Frame) : Prop :=
  ∀ (idx : Nat) (frame : Frame), (frames.filter Frame.isSubscribe)[idx]? = some frame →
    (frame.isMarket = true ↔ idx = 0)

/-- The frames of a session and whether the task takes it for introduced. -/
structure Introduced (frames : List Frame) (initialSent : Bool) : Prop where
  marketFirst : MarketFirst frames
  sent_iff : initialSent = true ↔ frames.filter Frame.isSubscribe ≠ []

theorem introduced_nil : Introduced [] false where
  marketFirst := by
    intro idx frame present
    simp at present
  sent_iff := by simp

/-- A subscription keeps the introduction at the front. -/
theorem Introduced.sendSubscribe {frames : List Frame} {sub : SubState}
    (introduced : Introduced frames sub.initialSent) (assets : List String) :
    Introduced (frames ++ [(sub.sendSubscribe assets).2])
      (sub.sendSubscribe assets).1.initialSent := by
  have subscribes : (sub.sendSubscribe assets).2.isSubscribe = true := by
    unfold SubState.sendSubscribe
    split <;> rfl
  have market : (sub.sendSubscribe assets).2.isMarket = true ↔ sub.initialSent = false := by
    unfold SubState.sendSubscribe
    split
    · rename_i unsent
      exact iff_of_true rfl unsent
    · rename_i sent
      exact iff_of_false (by simp [Frame.isMarket]) sent
  have marked : (sub.sendSubscribe assets).1.initialSent = true := by
    unfold SubState.sendSubscribe
    split
    · rfl
    · rename_i sent
      exact Bool.not_eq_false _ ▸ sent
  have extended : (frames ++ [(sub.sendSubscribe assets).2]).filter Frame.isSubscribe =
      frames.filter Frame.isSubscribe ++ [(sub.sendSubscribe assets).2] := by
    rw [List.filter_append, List.filter_singleton, subscribes]
    rfl
  constructor
  · intro idx frame present
    rw [extended] at present
    by_cases old : idx < (frames.filter Frame.isSubscribe).length
    · rw [List.getElem?_append_left old] at present
      exact introduced.marketFirst idx frame present
    · -- the new frame introduces the session only when there was none before it
      rw [List.getElem?_append_right (Nat.le_of_not_lt old),
        List.getElem?_singleton] at present
      split at present
      · rename_i last
        obtain rfl := Option.some.inj present
        rw [market, ← Bool.not_eq_true, introduced.sent_iff, not_not, ← List.length_eq_zero_iff]
        omega
      · exact absurd present (by simp)
  · rw [extended, marked]
    simp

/-- An unsubscription does not touch the introduction. -/
theorem Introduced.unsubscribe {frames : List Frame} {initialSent : Bool}
    (introduced : Introduced frames initialSent) (assets : List String) :
    Introduced (frames ++ [.unsubscribe assets]) initialSent := by
  have same : (frames ++ [Frame.unsubscribe assets]).filter Frame.isSubscribe =
      frames.filter Frame.isSubscribe := by
    rw [List.filter_append, List.filter_singleton]
    exact List.append_nil _
  constructor
  · intro idx frame present
    rw [same] at present
    exact introduced.marketFirst idx frame present
  · rw [same]
    exact introduced.sent_iff

/-- What processing a command leaves behind when everything wanted was
subscribed to. -/
structure Processed (sub : SubState) (command : Command) (result : SubState × Option Frame) :
    Prop where
  desired : result.1.desired = command.delta.apply sub.desired
  subscribed : result.1.subscribed = result.1.desired
  announced : replay sub.desired (result.2.toList.map Frame.delta) = result.1.desired
  introduced : ∀ frames, Introduced frames sub.initialSent →
    Introduced (frames ++ result.2.toList) result.1.initialSent

/-- A command that asks for nothing new. -/
theorem processed_unchanged {sub : SubState} {command : Command}
    (synced : sub.subscribed = sub.desired) (same : command.delta.apply sub.desired = sub.desired) :
    Processed sub command (sub, none) where
  desired := same.symm
  subscribed := synced
  announced := rfl
  introduced := by
    intro frames introduced
    rw [Option.toList_none, List.append_nil]
    exact introduced

/-- Sending a subscription leaves both sets alone. -/
@[simp]
theorem SubState.sendSubscribe_desired (sub : SubState) (assets : List String) :
    (sub.sendSubscribe assets).1.desired = sub.desired := by
  unfold SubState.sendSubscribe
  split <;> rfl

@[simp]
theorem SubState.sendSubscribe_subscribed (sub : SubState) (assets : List String) :
    (sub.sendSubscribe assets).1.subscribed = sub.subscribed := by
  unfold SubState.sendSubscribe
  split <;> rfl

/-- A frame that subscribes adds its assets. -/
@[simp]
theorem SubState.sendSubscribe_delta (sub : SubState) (assets : List String) :
    (sub.sendSubscribe assets).2.delta = .add assets := by
  unfold SubState.sendSubscribe
  split <;> rfl

/-- A subscribe command leaves both sets with the assets and sends the new ones. -/
theorem processed_subscribe {sub : SubState} (synced : sub.subscribed = sub.desired)
    (assets : List String) : Processed sub (.subscribe assets) (sub.process (.subscribe assets)) := by
  simp only [SubState.process]
  split
  · rename_i isEmpty
    apply processed_unchanged synced
    rw [List.isEmpty_iff.mp isEmpty]
    exact Replay.Delta.apply_add_of_subset (Finset.empty_subset _)
  · obtain ⟨added, folded, covered⟩ := SubState.foldl_subscribeAsset assets sub []
    rw [synced] at covered
    simp only [folded, List.nil_append]
    split
    · -- nothing is new in the session: the sets already hold the assets
      rename_i isEmpty
      rw [List.isEmpty_iff.mp isEmpty, List.toFinset_nil, Finset.union_empty] at covered
      have same : ({ sub with
          desired := sub.desired ∪ assets.toFinset
          subscribed := sub.subscribed ∪ assets.toFinset } : SubState) = sub := by
        rw [synced, ← covered]
        exact SubState.ext rfl synced.symm rfl
      rw [same]
      exact processed_unchanged synced covered.symm
    · constructor
      · rw [SubState.sendSubscribe_desired]
        rfl
      · rw [SubState.sendSubscribe_desired, SubState.sendSubscribe_subscribed, synced]
      · rw [SubState.sendSubscribe_desired, Option.toList_some, List.map_singleton,
          SubState.sendSubscribe_delta]
        exact covered
      · intro frames introduced
        apply Introduced.sendSubscribe
        exact introduced

/-- An unsubscribe command leaves both sets without the assets and sends those
that were wanted. -/
theorem processed_unsubscribe {sub : SubState} (synced : sub.subscribed = sub.desired)
    (assets : List String) :
    Processed sub (.unsubscribe assets) (sub.process (.unsubscribe assets)) := by
  simp only [SubState.process]
  split
  · rename_i isEmpty
    apply processed_unchanged synced
    rw [List.isEmpty_iff.mp isEmpty]
    exact Finset.sdiff_empty
  · obtain ⟨dropped, folded, covered⟩ := SubState.foldl_unsubscribeAsset assets sub []
    simp only [folded, List.nil_append]
    split
    · rename_i isEmpty
      rw [List.isEmpty_iff.mp isEmpty, List.toFinset_nil, Finset.sdiff_empty] at covered
      rw [← covered, List.isEmpty_iff.mp isEmpty, List.toFinset_nil, Finset.sdiff_empty]
      exact processed_unchanged synced covered.symm
    · refine ⟨rfl, ?_, covered, ?_⟩
      · simp only
        rw [synced, covered]
      · intro frames introduced
        exact introduced.unsubscribe dropped

/-- Processing keeps what is wanted and what is subscribed to together. -/
theorem processed_process {sub : SubState} (synced : sub.subscribed = sub.desired)
    (command : Command) : Processed sub command (sub.process command) := by
  cases command with
  | subscribe assets => exact processed_subscribe synced assets
  | unsubscribe assets => exact processed_unsubscribe synced assets

/-! ## Runs -/

/-- The server knows of everything wanted, and the session is introduced. -/
structure Announced (sub : SubState) (frames : List Frame) : Prop where
  replayed : replay ∅ (frames.map Frame.delta) = sub.desired
  introduced : Introduced frames sub.initialSent

/-- What holds inside a session, the frame being written included. -/
def InSession (sub : SubState) (frames : List Frame) : Phase → Prop
  | .disconnected => True
  | .connecting => True
  | .resubscribing frame => sub.subscribed = ∅ ∧ Announced sub (frames ++ [frame])
  | .sending frame => sub.subscribed = sub.desired ∧ Announced sub (frames ++ [frame])
  | .listening => sub.subscribed = sub.desired ∧ Announced sub frames
  | .returned => True

/-- Commands reach the task in order and once, the task wants what they ask for,
and inside a session the server knows of it. -/
structure Synced (state : State) : Prop where
  recorded : state.handle.assets = replay ∅ (state.handle.cmdTx.map Command.delta)
  delivered : state.phase ≠ .returned →
    state.handle.cmdTx = state.processed ++ state.commands ++ state.waiting.toList
  applied : state.sub.desired = replay ∅ (state.processed.map Command.delta)
  session : InSession state.sub state.frames state.phase

theorem synced_initial (connId : Nat) : Synced (initial connId) where
  recorded := rfl
  delivered := fun _ => rfl
  applied := rfl
  session := trivial

/-- A command the pool records is a command it waits to send. -/
theorem Synced.dispatch {state : State} (synced : Synced state) (idle : state.waiting = none)
    (command : Command) :
    Synced { state with
      handle := state.handle.tell command
      waiting := some command } where
  recorded := by
    simp only [ConnHandle.tell, List.map_append, List.map_singleton, Replay.replay_append]
    rw [← synced.recorded]
    rfl
  delivered := by
    intro running
    have before := synced.delivered running
    rw [idle, Option.toList_none, List.append_nil] at before
    simp only [ConnHandle.tell, before, Option.toList_some]
  applied := synced.applied
  session := synced.session

/-- A sent command is the last one in the channel. -/
theorem Synced.enqueue {state : State} {command : Command} (synced : Synced state)
    (awaited : state.waiting = some command) : Synced (state.enqueue command) where
  recorded := synced.recorded
  delivered := by
    intro running
    have before := synced.delivered running
    rw [awaited, Option.toList_some] at before
    change state.phase ≠ .returned at running
    simp only [State.enqueue, if_neg running, Option.toList_none, List.append_nil]
    rw [before, List.append_assoc]
  applied := synced.applied
  session := synced.session

/-- A step outside of sessions changes neither the sets nor the channel. -/
theorem Synced.outside {state : State} (synced : Synced state) {phase : Phase}
    (running : phase ≠ .returned → state.phase ≠ .returned)
    (outside : ∀ sub frames, InSession sub frames phase) : Synced { state with phase := phase } where
  recorded := synced.recorded
  delivered := fun still => synced.delivered (running still)
  applied := synced.applied
  session := outside _ _

/-- The initial subscription of a session covers everything wanted. -/
theorem Synced.startSession {state : State} {assets : List String} (synced : Synced state)
    (running : state.phase ≠ .returned) (covers : assets.toFinset = state.sub.desired) :
    Synced (state.startSession assets) := by
  have delivered := synced.delivered running
  unfold State.startSession
  simp only
  split
  · rename_i empty
    refine ⟨synced.recorded, fun _ => delivered, synced.applied, empty.symm, empty.symm, ?_⟩
    exact introduced_nil
  · refine ⟨synced.recorded, fun _ => delivered, ?_, ?_, ?_, ?_⟩
    · rw [SubState.sendSubscribe_desired]
      exact synced.applied
    · rw [SubState.sendSubscribe_subscribed]
      rfl
    · rw [SubState.sendSubscribe_desired, List.nil_append, List.map_singleton,
        SubState.sendSubscribe_delta]
      exact (Finset.empty_union _).trans covers
    · apply Introduced.sendSubscribe
      exact introduced_nil

/-- A command taken from the channel is applied and announced. -/
theorem Synced.process {state : State} {command : Command} {rest : List Command}
    (synced : Synced state) (listening : state.phase = .listening)
    (next : state.commands = command :: rest) : Synced (state.process command rest) := by
  obtain ⟨recorded, delivered, applied, session⟩ := synced
  rw [listening] at session delivered
  obtain ⟨subscribed, replayed, introduced⟩ := session
  have processed := processed_process subscribed command
  have told : Announced (state.sub.process command).1
      (state.frames ++ (state.sub.process command).2.toList) := by
    constructor
    · rw [List.map_append, Replay.replay_append, replayed]
      exact processed.announced
    · exact processed.introduced state.frames introduced
  refine ⟨recorded, ?_, ?_, ?_⟩
  · intro _
    have before := delivered (by simp)
    rw [next] at before
    simpa [State.process] using before
  · simp only [State.process, List.map_append, List.map_singleton, Replay.replay_append]
    rw [← applied]
    exact processed.desired
  · simp only [State.process]
    cases written : (state.sub.process command).2 with
    | none =>
      rw [written, Option.toList_none, List.append_nil] at told
      exact ⟨processed.subscribed, told⟩
    | some frame =>
      rw [written] at told
      exact ⟨processed.subscribed, told⟩

/-- Once the initial subscription is written, everything wanted is subscribed to. -/
theorem Synced.resubscribed {state : State} {frame : Frame} (synced : Synced state)
    (writing : state.phase = .resubscribing frame) : Synced (state.resubscribed frame) := by
  obtain ⟨recorded, delivered, applied, session⟩ := synced
  rw [writing] at session delivered
  obtain ⟨empty, announced⟩ := session
  refine ⟨recorded, fun _ => delivered (by simp), applied, ?_, announced.replayed,
    announced.introduced⟩
  simp only [State.resubscribed]
  rw [empty, Finset.empty_union]

/-- Once the frame of a command is written, the server knows of it. -/
theorem Synced.sent {state : State} {frame : Frame} (synced : Synced state)
    (writing : state.phase = .sending frame) : Synced (state.sent frame) := by
  obtain ⟨recorded, delivered, applied, session⟩ := synced
  rw [writing] at session delivered
  exact ⟨recorded, fun _ => delivered (by simp), applied, session.1, session.2⟩

/-- The end of a session loses only what belonged to it. -/
theorem Synced.endSession {state : State} (synced : Synced state)
    (running : state.phase ≠ .returned) (outcome : SessionOutcome) :
    Synced (state.endSession outcome) := by
  apply synced.outside
  · exact fun _ => running
  · intro sub frames
    cases outcome <;> trivial

/-- Every step keeps the pool, the task and the server together. -/
theorem Synced.step {state next : State} {action : Action}
    (taken : Connection.step state action = some next) (synced : Synced state) : Synced next := by
  cases action with
  | dispatch command =>
    obtain ⟨guards, rfl⟩ := Runs.guarded taken
    exact synced.dispatch guards.2 command
  | enqueue =>
    obtain ⟨command, awaited, accepted⟩ := Option.bind_eq_some_iff.mp taken
    obtain ⟨-, rfl⟩ := Runs.guarded accepted
    exact synced.enqueue awaited
  | dropSender =>
    obtain ⟨-, rfl⟩ := Runs.guarded taken
    exact ⟨synced.recorded, synced.delivered, synced.applied, synced.session⟩
  | attempt =>
    obtain ⟨delaying, rfl⟩ := Runs.guarded taken
    apply synced.outside
    · intro _
      rw [delaying]
      exact Phase.noConfusion
    · intro sub frames
      split <;> trivial
  | connect outcome =>
    cases outcome with
    | none =>
      obtain ⟨connecting, rfl⟩ := Runs.guarded taken
      apply synced.outside
      · intro _
        rw [connecting]
        exact Phase.noConfusion
      · exact fun _ _ => trivial
    | some assets =>
      obtain ⟨⟨connecting, -, covers⟩, rfl⟩ := Runs.guarded taken
      apply synced.startSession _ covers
      rw [connecting]
      exact Phase.noConfusion
  | recv =>
    obtain ⟨listening, received⟩ := Option.ite_none_right_eq_some.mp taken
    cases buffered : state.commands with
    | nil =>
      rw [buffered] at received
      obtain ⟨-, rfl⟩ := Runs.guarded received
      apply synced.endSession
      rw [listening]
      exact Phase.noConfusion
    | cons command rest =>
      rw [buffered] at received
      obtain rfl := Option.some.inj received
      exact synced.process listening buffered
  | written sent =>
    simp only [Connection.step] at taken
    split at taken
    · rename_i frame writing
      obtain rfl := Option.some.inj taken
      cases sent with
      | true => exact synced.resubscribed writing
      | false =>
        apply synced.endSession
        rw [writing]
        exact Phase.noConfusion
    · rename_i frame writing
      obtain rfl := Option.some.inj taken
      cases sent with
      | true => exact synced.sent writing
      | false =>
        apply synced.endSession
        rw [writing]
        exact Phase.noConfusion
    · exact absurd taken (by simp)
  | endSession outcome =>
    obtain ⟨⟨listening, -⟩, rfl⟩ := Runs.guarded taken
    apply synced.endSession
    rw [listening]
    exact Phase.noConfusion

/-- No command is in the channel or on its way into it. -/
def State.Drained (state : State) : Prop := state.commands = [] ∧ state.waiting = none

/-- After every run of a task that has not returned, the commands sent are those
processed, followed by those buffered and the one being sent. Once they are all
processed, the task wants what the pool records. Between the writes of a session
the task has subscribed to all it wants, and so has the server by the frames of
the session, the first subscription of which has the introducing form. -/
theorem subscriptions_survive {connId : Nat} {actions : List Action} {state : State}
    (completed : Runs.run step (initial connId) actions = some state)
    (running : state.phase ≠ .returned) :
    state.handle.cmdTx = state.processed ++ state.commands ++ state.waiting.toList ∧
      state.sub.desired = replay ∅ (state.processed.map Command.delta) ∧
      (state.Drained → state.sub.desired = state.handle.assets) ∧
      (state.phase = .listening →
        state.sub.subscribed = state.sub.desired ∧
          replay ∅ (state.frames.map Frame.delta) = state.sub.desired ∧
          MarketFirst state.frames) := by
  have synced : Synced state := Runs.invariant
    (fun _ _ _ taken before => Synced.step taken before) completed (synced_initial connId)
  have delivered := synced.delivered running
  refine ⟨delivered, synced.applied, ?_, ?_⟩
  · rintro ⟨empty, idle⟩
    rw [empty, idle, Option.toList_none, List.append_nil, List.append_nil] at delivered
    rw [synced.applied, synced.recorded, delivered]
  · intro listening
    have session := synced.session
    rw [listening] at session
    exact ⟨session.1, session.2.replayed, session.2.introduced.marketFirst⟩

/-- Two assets arrive before the first connect succeeds, and one is dropped
between two sessions. -/
def sampleActions : List Action :=
  [.dispatch (.subscribe ["a", "b"]), .enqueue, .attempt, .connect none, .attempt,
    .connect (some []), .recv, .written true, .endSession .closed,
    .dispatch (.unsubscribe ["a"]), .enqueue, .attempt, .connect (some ["b", "a"]),
    .written true, .recv, .written true]

/-- Where those steps end. -/
def sampleState : State where
  handle := ⟨0, {"b"}, [.subscribe ["a", "b"], .unsubscribe ["a"]]⟩
  waiting := none
  senderDropped := false
  commands := []
  processed := [.subscribe ["a", "b"], .unsubscribe ["a"]]
  sub := ⟨{"b"}, {"b"}, true⟩
  phase := .listening
  frames := [.market ["b", "a"], .unsubscribe ["a"]]

theorem sample_subscriptions_survive :
    sampleState.sub.desired = sampleState.handle.assets ∧
      replay ∅ (sampleState.frames.map Frame.delta) = sampleState.sub.desired := by
  have completed : Runs.run step (initial 0) sampleActions = some sampleState := by
    decide +kernel
  obtain ⟨-, -, agrees, session⟩ := subscriptions_survive completed (by decide)
  exact ⟨agrees ⟨rfl, rfl⟩, (session rfl).2.1⟩

end Connection

/-! ## The pool's side -/

namespace Pool

/-- Every connection holds what the commands sent to it add up to. -/
def Told (connections : List ConnHandle) : Prop :=
  ∀ handle ∈ connections, handle.assets = replay ∅ (handle.cmdTx.map Command.delta)

/-- Commands told to some of the connections keep them told. -/
theorem Told.tell {connections : List ConnHandle} (told : Told connections)
    (command : Nat → Option Command) :
    Told (connections.mapIdx fun idx handle => (command idx).elim handle handle.tell) := by
  intro handle member
  obtain ⟨idx, inside, rfl⟩ := List.mem_mapIdx.mp member
  have before := told connections[idx] (List.getElem_mem inside)
  cases command idx with
  | none => exact before
  | some command =>
    simp only [Option.elim_some, ConnHandle.tell, List.map_append, List.map_singleton,
      Replay.replay_append]
    rw [← before]
    rfl

/-- Dispatching a subscription tells every connection its pending assets. -/
theorem Told.dispatchSubscribe {connections : List ConnHandle} (told : Told connections)
    (pending : Pending) : Told (dispatchSubscribe connections pending) := by
  have same : Pool.dispatchSubscribe connections pending = connections.mapIdx fun idx handle =>
      (if (pending idx).isEmpty then none else some (Command.subscribe (pending idx))).elim
        handle handle.tell := by
    unfold Pool.dispatchSubscribe
    congr 1
    funext idx handle
    split <;> rfl
  rw [same]
  exact told.tell fun idx =>
    if (pending idx).isEmpty then none else some (.subscribe (pending idx))

/-- Dispatching an unsubscription tells every connection the assets it loses. -/
theorem Told.dispatchUnsubscribe {connections : List ConnHandle} (told : Told connections)
    (connUnsubs : Pending) : Told (dispatchUnsubscribe connections connUnsubs) := by
  have same : Pool.dispatchUnsubscribe connections connUnsubs =
      connections.mapIdx fun idx handle =>
        (if (connUnsubs idx).isEmpty then none
          else some (Command.unsubscribe (connUnsubs idx))).elim handle handle.tell := by
    unfold Pool.dispatchUnsubscribe
    congr 1
    funext idx handle
    split <;> rfl
  rw [same]
  exact told.tell fun idx =>
    if (connUnsubs idx).isEmpty then none else some (.unsubscribe (connUnsubs idx))

/-- A new connection holds nothing and has been told nothing. -/
theorem Told.spawnConnections {pool : Pool} (told : Told pool.connections) (count : Nat) :
    Told (spawnConnections count pool).connections := by
  induction count generalizing pool with
  | zero => exact told
  | succ count inductionHypothesis =>
    apply inductionHypothesis
    intro handle member
    rcases List.mem_append.mp member with old | new
    · exact told handle old
    · rw [List.mem_singleton.mp new]
      rfl

/-- Removing empty connections leaves the others as they are. -/
theorem Told.collect {connections : List ConnHandle} (told : Told connections) (idxs : List Nat)
    (assetToConns : AssetConns) :
    Told (idxs.foldl removeConnection (connections, assetToConns)).1 := by
  induction idxs generalizing connections assetToConns with
  | nil => exact told
  | cons idx rest inductionHypothesis =>
    apply inductionHypothesis
    intro handle member
    exact told handle (SwapRemove.mem_of_mem_swapRemove member)

/-- Every call tells the connections what it changes about them. -/
theorem Told.step {pool next : Pool} {call : Action} (taken : Pool.step pool call = some next)
    (told : Told pool.connections) : Told next.connections := by
  cases call with
  | subscribe markets first second =>
    rcases subscribeMarkets_some taken with ⟨-, rfl⟩ | ⟨count, assignment, rfl⟩
    · exact told
    · apply Told.dispatchSubscribe
      apply Told.spawnConnections
      exact told
  | unsubscribe marketHashes =>
    obtain rfl := Option.some.inj taken
    have collected := (told.dispatchUnsubscribe (marketHashes.foldl removeMarket
      ⟨pool.markets, pool.assetToConns, fun _ => [], 0⟩).connUnsubs).collect
    unfold unsubscribeMarkets
    simp only
    split
    · exact collected _ _
    · exact collected _ _

/-- After every sequence of calls the assets a handle records are what the
commands sent to its connection add up to. -/
theorem connections_told {maxAssetsPerConn : Nat} {calls : List Action} {pool : Pool}
    (completed : Runs.run Pool.step (new maxAssetsPerConn) calls = some pool) :
    Told pool.connections := by
  apply Runs.invariant (fun _ _ _ taken told => Told.step taken told) completed
  intro handle member
  exact absurd member List.not_mem_nil

end Pool

end Collector
