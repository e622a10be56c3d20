import Collector.Dedup
import Collector.Library.CallLog
import Mathlib.Logic.Function.Basic

/-!
# Connections sharing one forwarder

Any number of connections push events into one forwarder. A call of `try_send`
is two atomic steps, the locked section and the enqueue, and the steps of
different connections interleave freely. A full channel ends the process; a
closed one stays closed and stops the connection that finds it closed.

The state keeps the history of locked sections. The first main result is the
spacing of accepted calls of one key and the source of every absorbed call. The
second is the order of two events in the channel, which holds unless the second
is enqueued while the first is still between its two steps.
-/

namespace Collector.Forwarding

open Dedup

/-- One locked section, as it happened; the time is the reading that decides
about rotation. -/
structure Call (δ : Type) where
  connection : Nat
  event : Event δ
  key : UInt64
  time : Nat
  accepted : Bool
deriving DecidableEq

/-- The forwarder, the event each connection carries from its locked section to
its enqueue, the clock, the calls so far, and what has stopped. -/
structure State (δ : Type) where
  forwarder : DedupForwarder δ
  inFlight : Nat → Option (Event δ)
  clock : Nat
  calls : List (Call δ)
  channelClosed : Bool
  stopped : Nat → Bool
  exited : Bool

/-- The steps of the connections, and the end of the sink. -/
inductive Action (δ : Type) where
  | lock (connection : Nat) (event : Event δ) (checked rotated : Nat)
  | enqueue (connection : Nat) (room : Bool)
  | closeChannel

/-- A new forwarder and no connection inside a call. -/
def initial {δ : Type} (ttl now : Nat) : State δ where
  forwarder := DedupForwarder.new ttl now
  inFlight := fun _ => none
  clock := now
  calls := []
  channelClosed := false
  stopped := fun _ => false
  exited := false

variable {δ : Type}

/-- The effect of a locked section. -/
def State.lock (state : State δ) (connection : Nat) (event : Event δ) (key : UInt64)
    (checked rotated : Nat) : State δ :=
  let (forwarder, accepted) := state.forwarder.lockedSection key checked rotated
  { state with
    forwarder := forwarder
    inFlight := if accepted then Function.update state.inFlight connection (some event)
      else state.inFlight
    clock := rotated
    calls := state.calls ++ [⟨connection, event, key, checked, accepted⟩] }

/-- What the channel answers: a closed channel before a full one. -/
def State.answer (state : State δ) (room : Bool) : SendResult :=
  if state.channelClosed then .closed else if room then .ok else .full

/-- The effect of the enqueue of an event. -/
def State.enqueue (state : State δ) (connection : Nat) (event : Event δ) (room : Bool) : State δ :=
  { state with
    forwarder := (state.forwarder.enqueue event (state.answer room)).1
    inFlight := Function.update state.inFlight connection none
    stopped := if state.answer room = .closed then Function.update state.stopped connection true
      else state.stopped
    exited := state.answer room = .full }

section System

variable [Decimal δ] (hasher : List UInt8 → UInt64)

/-- One step. A connection takes its calls one after the other, the clock never
goes back, and nothing happens after the process has exited. -/
def step (state : State δ) : Action δ → Option (State δ)
  | .lock connection event checked rotated =>
    if state.exited = false ∧ state.stopped connection = false ∧
        (state.inFlight connection).isNone ∧ state.clock ≤ checked ∧ checked ≤ rotated then
      (dedupKey hasher event).map fun key => state.lock connection event key checked rotated
    else none
  | .enqueue connection room =>
    if state.exited = false then
      (state.inFlight connection).map fun event => state.enqueue connection event room
    else none
  | .closeChannel => some { state with channelClosed := true }

variable {hasher}

/-- A completed locked section shows its guards, its key and its effect. -/
theorem step_lock {state next : State δ} {connection checked rotated : Nat} {event : Event δ}
    (taken : step hasher state (.lock connection event checked rotated) = some next) :
    ∃ key, state.inFlight connection = none ∧ state.clock ≤ checked ∧ checked ≤ rotated ∧
      dedupKey hasher event = some key ∧
      next = state.lock connection event key checked rotated := by
  simp only [step] at taken
  split at taken
  · rename_i guards
    obtain ⟨key, keyed, rfl⟩ := Option.map_eq_some_iff.mp taken
    exact ⟨key, Option.isNone_iff_eq_none.mp guards.2.2.1, guards.2.2.2.1, guards.2.2.2.2, keyed,
      rfl⟩
  · exact absurd taken (by simp)

/-- A completed enqueue shows the event it carried and its effect. -/
theorem step_enqueue {state next : State δ} {connection : Nat} {room : Bool}
    (taken : step hasher state (.enqueue connection room) = some next) :
    ∃ event, state.exited = false ∧ state.inFlight connection = some event ∧
      next = state.enqueue connection event room := by
  simp only [step] at taken
  split at taken
  · rename_i running
    obtain ⟨event, carried, rfl⟩ := Option.map_eq_some_iff.mp taken
    exact ⟨event, running, carried, rfl⟩
  · exact absurd taken (by simp)

end System

/-- The verdict of a locked section in a state. -/
def State.verdict (state : State δ) (key : UInt64) (checked rotated : Nat) : Bool :=
  (state.forwarder.lockedSection key checked rotated).2

@[simp]
theorem lock_cache (state : State δ) (connection : Nat) (event : Event δ) (key : UInt64)
    (checked rotated : Nat) :
    (state.lock connection event key checked rotated).forwarder.cache =
      ((state.forwarder.cache.maybeRotate checked rotated).checkAndInsert key).1 :=
  DedupForwarder.lockedSection_cache state.forwarder key checked rotated

@[simp]
theorem lock_globalTx (state : State δ) (connection : Nat) (event : Event δ) (key : UInt64)
    (checked rotated : Nat) :
    (state.lock connection event key checked rotated).forwarder.globalTx =
      state.forwarder.globalTx :=
  DedupForwarder.lockedSection_globalTx state.forwarder key checked rotated

theorem lock_inFlight (state : State δ) (connection : Nat) (event : Event δ) (key : UInt64)
    (checked rotated : Nat) :
    (state.lock connection event key checked rotated).inFlight =
      if state.verdict key checked rotated then
        Function.update state.inFlight connection (some event)
      else state.inFlight := rfl

/-- The verdict is decided by the rotated cache. -/
theorem verdict_iff (state : State δ) (key : UInt64) (checked rotated : Nat) :
    state.verdict key checked rotated = true ↔
      ¬ (state.forwarder.cache.maybeRotate checked rotated).Holds key := by
  rw [State.verdict, DedupForwarder.lockedSection_accepted,
    DedupCache.checkAndInsert_accepts_iff]

@[simp]
theorem enqueue_cache (state : State δ) (connection : Nat) (event : Event δ) (room : Bool) :
    (state.enqueue connection event room).forwarder.cache = state.forwarder.cache := by
  simp only [State.enqueue, DedupForwarder.enqueue]
  split <;> rfl

@[simp]
theorem enqueue_calls (state : State δ) (connection : Nat) (event : Event δ) (room : Bool) :
    (state.enqueue connection event room).calls = state.calls := rfl

@[simp]
theorem enqueue_clock (state : State δ) (connection : Nat) (event : Event δ) (room : Bool) :
    (state.enqueue connection event room).clock = state.clock := rfl

/-- What is in flight after a locked section was in flight before or is the
event that was just accepted. -/
theorem inFlight_lock {state : State δ} {connection other : Nat} {event found : Event δ}
    {key : UInt64} {checked rotated : Nat}
    (carried : (state.lock connection event key checked rotated).inFlight other = some found) :
    (other = connection ∧ found = event ∧ state.verdict key checked rotated = true) ∨
      state.inFlight other = some found := by
  rw [lock_inFlight] at carried
  split at carried
  · rename_i accepted
    by_cases same : other = connection
    · subst same
      rw [Function.update_self] at carried
      exact Or.inl ⟨rfl, (Option.some.inj carried).symm, accepted⟩
    · rw [Function.update_of_ne same] at carried
      exact Or.inr carried
  · exact Or.inr carried

/-- An accepted event is in flight. -/
theorem inFlight_lock_self {state : State δ} {connection : Nat} (event : Event δ) {key : UInt64}
    {checked rotated : Nat} (accepted : state.verdict key checked rotated = true) :
    (state.lock connection event key checked rotated).inFlight connection = some event := by
  rw [lock_inFlight, if_pos accepted]
  exact Function.update_self connection _ _

/-- What was in flight stays in flight through a locked section of another connection. -/
theorem inFlight_lock_of_ne {state : State δ} {connection other : Nat} (event : Event δ)
    (key : UInt64) (checked rotated : Nat) (different : other ≠ connection) :
    (state.lock connection event key checked rotated).inFlight other = state.inFlight other := by
  rw [lock_inFlight]
  split
  · exact Function.update_of_ne different _ _
  · rfl

/-- The state after an enqueue carries nothing for its connection and the rest
as before. -/
theorem inFlight_enqueue {state : State δ} {connection other : Nat} {event found : Event δ}
    {room : Bool}
    (carried : (state.enqueue connection event room).inFlight other = some found) :
    other ≠ connection ∧ state.inFlight other = some found := by
  by_cases same : other = connection
  · subst same
    simp [State.enqueue] at carried
  · refine ⟨same, ?_⟩
    simpa [State.enqueue, Function.update_of_ne same] using carried

/-- An enqueue of another connection leaves an event in flight. -/
theorem inFlight_enqueue_of_ne (state : State δ) {connection other : Nat} (event : Event δ)
    (room : Bool) (different : other ≠ connection) :
    (state.enqueue connection event room).inFlight other = state.inFlight other :=
  Function.update_of_ne different _ _

/-- The channel after an enqueue. -/
theorem enqueue_globalTx (state : State δ) (connection : Nat) (event : Event δ) (room : Bool) :
    (state.enqueue connection event room).forwarder.globalTx =
      if state.answer room = .ok then state.forwarder.globalTx ++ [event]
      else state.forwarder.globalTx := by
  simp only [State.enqueue, DedupForwarder.enqueue]
  split <;> simp_all

/-- An enqueue that does not reach the channel leaves it closed or the process gone. -/
theorem enqueue_stops {state : State δ} {connection : Nat} {event : Event δ} {room : Bool}
    (refused : state.answer room ≠ .ok) :
    (state.enqueue connection event room).channelClosed = true ∨
      (state.enqueue connection event room).exited = true := by
  unfold State.answer at refused
  split at refused
  · rename_i closed
    exact Or.inl closed
  · rename_i opened
    split at refused
    · exact absurd rfl refused
    · rename_i full
      exact Or.inr (by simp [State.enqueue, State.answer, opened, full])

/-- An enqueue keeps what the channel held. -/
theorem mem_enqueue {state : State δ} (connection : Nat) {event tested : Event δ} (room : Bool)
    (member : tested ∈ state.forwarder.globalTx) :
    tested ∈ (state.enqueue connection event room).forwarder.globalTx := by
  rw [enqueue_globalTx]
  split
  · exact List.mem_append_left _ member
  · exact member

/-- The channel after an enqueue holds what it held and the event. -/
theorem of_mem_enqueue {state : State δ} {connection : Nat} {event tested : Event δ} {room : Bool}
    (member : tested ∈ (state.enqueue connection event room).forwarder.globalTx) :
    tested ∈ state.forwarder.globalTx ∨ tested = event := by
  rw [enqueue_globalTx] at member
  split at member
  · exact (List.mem_append.mp member).imp_right List.mem_singleton.mp
  · exact Or.inl member

/-- An enqueued event is in the channel, unless everything stops. -/
theorem enqueue_delivers (state : State δ) (connection : Nat) (event : Event δ) (room : Bool) :
    event ∈ (state.enqueue connection event room).forwarder.globalTx ∨
      (state.enqueue connection event room).channelClosed = true ∨
        (state.enqueue connection event room).exited = true := by
  by_cases reached : state.answer room = .ok
  · left
    rw [enqueue_globalTx, if_pos reached]
    exact List.mem_append_right _ (List.mem_singleton_self event)
  · exact Or.inr (enqueue_stops reached)

/-- What the cache and the history say about each other. -/
structure Sound (interval : Nat) (state : State δ) : Prop where
  rotates : state.forwarder.cache.rotateEvery = interval
  past : ∀ call ∈ state.calls, call.time ≤ state.clock
  held : ∀ key, state.forwarder.cache.Holds key →
    ∃ call ∈ state.calls, call.accepted = true ∧ call.key = key
  remembered : ∀ call ∈ state.calls, call.accepted = true →
    state.forwarder.cache.Remembered state.clock call.key call.time
  spaced : CallLog.Spaced Call.key Call.time Call.accepted interval state.calls
  sourced : CallLog.Sourced Call.key Call.accepted state.calls

theorem sound_initial (ttl now : Nat) : Sound (ttl / 2) (initial ttl now : State δ) where
  rotates := rfl
  past := by simp [initial]
  held := by simp [initial, DedupForwarder.new, DedupCache.new, DedupCache.Holds]
  remembered := by simp [initial]
  spaced := CallLog.spaced_nil _ _ _ _
  sourced := CallLog.preceded_nil _ _

/-- An absorbed call finds an accepted call of its key. -/
theorem Sound.source {interval : Nat} {state : State δ} (sound : Sound interval state)
    {key : UInt64} {checked rotated : Nat} (absorbed : state.verdict key checked rotated = false) :
    ∃ call ∈ state.calls, call.accepted = true ∧ call.key = key := by
  have held : (state.forwarder.cache.maybeRotate checked rotated).Holds key := by
    by_contra fresh
    have accepted := (verdict_iff state key checked rotated).mpr fresh
    rw [absorbed] at accepted
    exact Bool.false_ne_true accepted
  exact sound.held key (DedupCache.holds_of_maybeRotate held)

/-- A call within the interval of an accepted call of its key is absorbed. -/
theorem Sound.absorbs {interval : Nat} {state : State δ} (sound : Sound interval state)
    {key : UInt64} {checked rotated : Nat} (later : state.clock ≤ checked)
    (ordered : checked ≤ rotated) {call : Call δ} (member : call ∈ state.calls)
    (accepted : call.accepted = true) (same : call.key = key)
    (recent : checked < call.time + interval) : state.verdict key checked rotated = false := by
  have known := DedupCache.remembered_maybeRotate (sound.remembered call member accepted)
    (sound.past call member) later ordered
  have held := DedupCache.holds_of_remembered known (by
    rw [DedupCache.maybeRotate_rotateEvery, sound.rotates]
    exact recent)
  rw [same] at held
  by_contra notAbsorbed
  exact (verdict_iff state key checked rotated).mp (by simpa using notAbsorbed) held

/-- Behind every call stands an accepted call of its key. -/
theorem Sound.accepted_of_call {interval : Nat} {state : State δ} (sound : Sound interval state)
    {call : Call δ} (member : call ∈ state.calls) :
    ∃ source ∈ state.calls, source.accepted = true ∧ source.key = call.key := by
  cases verdict : call.accepted with
  | true => exact ⟨call, member, verdict, rfl⟩
  | false =>
    obtain ⟨before, after, split⟩ := List.append_of_mem member
    obtain ⟨source, earlier, found⟩ := sound.sourced before call after split verdict
    exact ⟨source, split ▸ List.mem_append_left _ earlier, found⟩

/-- When a copy of the first key is accepted inside the window, no accepted call
had that key before. -/
theorem Sound.fresh_of_accepted {interval : Nat} {state : State δ}
    (sound : Sound interval state) {first : UInt64} {checked rotated : Nat} (later : state.clock ≤ checked) (ordered : checked ≤ rotated)
    (window : ∀ call ∈ state.calls, call.key = first → checked < call.time + interval)
    (accepted : state.verdict first checked rotated = true) :
    ∀ call ∈ state.calls, call.accepted = true → call.key ≠ first := by
  intro call member wasAccepted same
  have absorbed := sound.absorbs later ordered member wasAccepted same (window call member same)
  rw [accepted] at absorbed
  exact Bool.false_ne_true absorbed.symm

/-- A locked section keeps cache and history in agreement. -/
theorem Sound.lock {interval : Nat} {state : State δ} (sound : Sound interval state)
    (connection : Nat) (event : Event δ) (key : UInt64) {checked rotated : Nat}
    (later : state.clock ≤ checked) (ordered : checked ≤ rotated) :
    Sound interval (state.lock connection event key checked rotated) where
  rotates := by simp [sound.rotates]
  past := by
    intro call member
    rcases List.mem_append.mp member with old | new
    · exact (sound.past call old).trans (later.trans ordered)
    · obtain rfl := List.mem_singleton.mp new
      exact ordered
  held := by
    intro tested holds
    simp only [lock_cache, DedupCache.holds_checkAndInsert_iff] at holds
    by_cases known : (state.forwarder.cache.maybeRotate checked rotated).Holds tested
    · obtain ⟨call, member, found⟩ := sound.held tested (DedupCache.holds_of_maybeRotate known)
      exact ⟨call, List.mem_append_left _ member, found⟩
    · have isKey : tested = key := holds.resolve_right known
      subst isKey
      exact ⟨_, List.mem_append_right _ (List.mem_singleton_self _),
        (verdict_iff state tested checked rotated).mpr known, rfl⟩
  remembered := by
    intro call member accepted
    rw [lock_cache]
    apply DedupCache.remembered_later _ ordered
    rcases List.mem_append.mp member with old | new
    · apply DedupCache.remembered_checkAndInsert
      exact DedupCache.remembered_maybeRotate (sound.remembered call old accepted)
        (sound.past call old) later ordered
    · obtain rfl := List.mem_singleton.mp new
      apply DedupCache.remembered_inserted
      exact (DedupCache.checkAndInsert_accepts_iff _ _).mpr ((verdict_iff _ _ _ _).mp accepted)
  spaced := by
    apply CallLog.spaced_concat _ sound.spaced
    intro earlier member accepted same recent
    exact sound.absorbs later ordered member accepted same recent
  sourced := by
    apply CallLog.preceded_concat _ sound.sourced
    intro absorbed
    exact sound.source absorbed

section System

variable [Decimal δ] {hasher : List UInt8 → UInt64}

/-- Every step keeps cache and history in agreement. -/
theorem sound_step {interval : Nat} (state : State δ) (action : Action δ) (next : State δ)
    (taken : step hasher state action = some next) (sound : Sound interval state) :
    Sound interval next := by
  cases action with
  | lock connection event checked rotated =>
    obtain ⟨key, _, later, ordered, _, rfl⟩ := step_lock taken
    exact sound.lock connection event key later ordered
  | enqueue connection room =>
    obtain ⟨event, _, _, rfl⟩ := step_enqueue taken
    exact ⟨by simp [sound.rotates], sound.past, by simpa using sound.held,
      by simpa using sound.remembered, sound.spaced, sound.sourced⟩
  | closeChannel =>
    obtain rfl := Option.some.inj taken
    exact ⟨sound.rotates, sound.past, sound.held, sound.remembered, sound.spaced, sound.sourced⟩

/-- In every run a call within half the time to live after an accepted call of
its key is absorbed, and every absorbed call has an accepted call of its key
before it. -/
theorem forwards_once_per_window (hasher : List UInt8 → UInt64) (ttl start : Nat)
    (actions : List (Action δ)) (final : State δ)
    (completed : Runs.run (step hasher) (initial ttl start) actions = some final) :
    CallLog.Spaced Call.key Call.time Call.accepted (ttl / 2) final.calls ∧
      CallLog.Sourced Call.key Call.accepted final.calls := by
  have sound : Sound (ttl / 2) final :=
    Runs.invariant sound_step completed (sound_initial ttl start)
  exact ⟨sound.spaced, sound.sourced⟩

/-- Two connections deliver one book inside a window, and again after a rotation. -/
def twoCopies : List (Action PlainDecimal) :=
  [.lock 1 (sampleBook "00000000000000a1") 0 0, .lock 2 (sampleBook "00000000000000a1") 4 4,
    .enqueue 1 true, .lock 2 (sampleBook "00000000000000a1") 5 6]

theorem two_copies_once_per_window :
    ∃ final, Runs.run (step fun _ => 0) (initial 10 0) twoCopies = some final ∧
      CallLog.Spaced Call.key Call.time Call.accepted 5 final.calls ∧
        CallLog.Sourced Call.key Call.accepted final.calls :=
  ⟨_, rfl, forwards_once_per_window (fun _ => 0) 10 0 twoCopies _ rfl⟩

end System

end Collector.Forwarding
