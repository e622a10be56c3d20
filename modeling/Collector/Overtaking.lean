import Collector.Forwarding

/-!
# Order of two events in the global channel

The cache knows a key before the event is in the channel. A connection whose
copy of an event was absorbed can therefore enqueue a successor first. Outside
that schedule the order is kept: an invariant says where the accepted copy of
the first event is while the second is on its way.
-/

namespace Collector.Forwarding

open Dedup

variable {δ : Type} [Decimal δ]

section Order

variable (hasher : List UInt8 → UInt64) (first : UInt64) (second : Event δ)

/-- An event with the first key stands before the second event, and none after. -/
def Precedes (channel : List (Event δ)) : Prop :=
  ∀ before after, channel = before ++ second :: after →
    (∃ event ∈ before, dedupKey hasher event = some first) ∧
      ∀ event ∈ after, dedupKey hasher event ≠ some first

/-- A connection delivers the second event only after the predecessor, and the
copies of the predecessor come within the window of each other. -/
def DeliversInOrder (ttl : Nat) (predecessor : Event δ) (state : State δ) : Action δ → Prop
  | .lock connection event checked _ =>
    (event = second →
      ∃ call ∈ state.calls, call.connection = connection ∧ call.event = predecessor) ∧
    (dedupKey hasher event = some first →
      ∀ call ∈ state.calls, call.key = first → checked < call.time + ttl / 2)
  | _ => True

/-- The second event does not enter the channel while another connection carries
an event with the first key from its locked section to its enqueue. -/
def NotOvertaken (state : State δ) : Action δ → Prop
  | .enqueue connection room =>
    state.inFlight connection = some second → state.answer room = .ok →
      ∀ other, other ≠ connection → ∀ event, state.inFlight other = some event →
        dedupKey hasher event ≠ some first
  | _ => True

/-- Where accepted events are, and where the first key is while the second event
is on its way. -/
structure Placed (state : State δ) : Prop where
  keyed : ∀ call ∈ state.calls, dedupKey hasher call.event = some call.key
  carried : ∀ call ∈ state.calls, call.accepted = true →
    state.inFlight call.connection = some call.event ∨ call.event ∈ state.forwarder.globalTx ∨
      state.channelClosed = true ∨ state.exited = true
  pending : ∀ connection event, state.inFlight connection = some event →
    ∃ call ∈ state.calls, call.event = event ∧ call.accepted = true
  sent : ∀ event ∈ state.forwarder.globalTx,
    ∃ call ∈ state.calls, call.event = event ∧ call.accepted = true
  apart : ∀ event ∈ state.forwarder.globalTx, dedupKey hasher event = some first →
    ∀ connection other, state.inFlight connection = some other →
      dedupKey hasher other ≠ some first
  alone : ∀ left right leftEvent rightEvent, state.inFlight left = some leftEvent →
    state.inFlight right = some rightEvent → dedupKey hasher leftEvent = some first →
      dedupKey hasher rightEvent = some first → left = right
  once : state.forwarder.globalTx.Pairwise fun earlier later =>
    dedupKey hasher earlier = some first → dedupKey hasher later ≠ some first
  ready : ∀ connection, state.inFlight connection = some second →
    (state.channelClosed = true ∨ state.exited = true) ∨
      (∃ event ∈ state.forwarder.globalTx, dedupKey hasher event = some first) ∨
        ∃ other, other ≠ connection ∧ ∃ event, state.inFlight other = some event ∧
          dedupKey hasher event = some first

end Order

variable {hasher : List UInt8 → UInt64} {first : UInt64} {second : Event δ}

theorem placed_initial (ttl now : Nat) : Placed hasher first second (initial ttl now : State δ) where
  keyed := by simp [initial]
  carried := by simp [initial]
  pending := by simp [initial]
  sent := by simp [initial, DedupForwarder.new]
  apart := by simp [initial]
  alone := by simp [initial]
  once := List.Pairwise.nil
  ready := by simp [initial]

/-- While a copy of the first key is being accepted, no call of that key has been
accepted: the accepted copy is the first one. -/
theorem Placed.fresh {ttl : Nat} {predecessor : Event δ} {state : State δ}
    (placed : Placed hasher first second state) (sound : Sound (ttl / 2) state)
    {connection : Nat} {event : Event δ} {key : UInt64} {checked rotated : Nat}
    (later : state.clock ≤ checked) (ordered : checked ≤ rotated)
    (keyed : dedupKey hasher event = some key)
    (delivered : DeliversInOrder hasher first second ttl predecessor state
      (.lock connection event checked rotated))
    (isFirst : dedupKey hasher event = some first)
    (accepted : state.verdict key checked rotated = true) :
    ∀ call ∈ state.calls, call.accepted = true → dedupKey hasher call.event ≠ some first := by
  intro call member wasAccepted sameKey
  have same : key = first := Option.some.inj (keyed.symm.trans isFirst)
  subst same
  apply sound.fresh_of_accepted later ordered (delivered.2 isFirst) accepted call member
    wasAccepted
  exact Option.some.inj ((placed.keyed call member).symm.trans sameKey)

/-- Once the predecessor has been called, an event of the first key is in the
channel or on its way there, unless the channel is lost. -/
theorem Placed.located {width : Nat} {predecessor : Event δ} {state : State δ}
    (placed : Placed hasher first second state) (sound : Sound width state)
    (keyedFirst : dedupKey hasher predecessor = some first) {call : Call δ}
    (inside : call ∈ state.calls) (isPredecessor : call.event = predecessor) :
    (state.channelClosed = true ∨ state.exited = true) ∨
      (∃ event ∈ state.forwarder.globalTx, dedupKey hasher event = some first) ∨
        ∃ connection event, state.inFlight connection = some event ∧
          dedupKey hasher event = some first := by
  obtain ⟨source, member, accepted, sameKey⟩ := sound.accepted_of_call inside
  have isFirst : dedupKey hasher source.event = some first := by
    rw [placed.keyed source member, sameKey, ← placed.keyed call inside, isPredecessor]
    exact keyedFirst
  rcases placed.carried source member accepted with flying | sentAlready | stopped
  · exact Or.inr (Or.inr ⟨source.connection, source.event, flying, isFirst⟩)
  · exact Or.inr (Or.inl ⟨source.event, sentAlready, isFirst⟩)
  · exact Or.inl stopped

/-- A locked section keeps the places. -/
theorem Placed.lock {ttl : Nat} {predecessor : Event δ} {state : State δ}
    (placed : Placed hasher first second state) (sound : Sound (ttl / 2) state)
    (keyedFirst : dedupKey hasher predecessor = some first)
    {connection : Nat} {event : Event δ} {key : UInt64} {checked rotated : Nat}
    (idle : state.inFlight connection = none) (later : state.clock ≤ checked)
    (ordered : checked ≤ rotated) (keyed : dedupKey hasher event = some key)
    (delivered : DeliversInOrder hasher first second ttl predecessor state
      (.lock connection event checked rotated)) :
    Placed hasher first second (state.lock connection event key checked rotated) := by
  have fresh := placed.fresh sound later ordered keyed delivered
  have elsewhere : ∀ other carried, state.inFlight other = some carried → other ≠ connection := by
    intro other carried inside same
    subst same
    rw [idle] at inside
    exact absurd inside (by simp)
  have stays : ∀ other carried, state.inFlight other = some carried →
      (state.lock connection event key checked rotated).inFlight other = some carried := by
    intro other carried inside
    rw [inFlight_lock_of_ne _ _ _ _ (elsewhere other carried inside)]
    exact inside
  have noneFlying : dedupKey hasher event = some first →
      state.verdict key checked rotated = true → ∀ other found,
      state.inFlight other = some found → dedupKey hasher found ≠ some first := by
    intro isFirst accepted other found flying
    obtain ⟨call, inside, rfl, wasAccepted⟩ := placed.pending other found flying
    exact fresh isFirst accepted call inside wasAccepted
  refine ⟨?keyed, ?carried, ?pending, ?sent, ?apart, ?alone, ?once, ?ready⟩
  case keyed =>
    intro call member
    rcases List.mem_append.mp member with old | new
    · exact placed.keyed call old
    · obtain rfl := List.mem_singleton.mp new
      exact keyed
  case carried =>
    intro call member accepted
    rw [lock_globalTx]
    rcases List.mem_append.mp member with old | new
    · exact (placed.carried call old accepted).imp_left (stays _ _)
    · obtain rfl := List.mem_singleton.mp new
      exact Or.inl (inFlight_lock_self event accepted)
  case pending =>
    intro other found carried
    rcases inFlight_lock carried with ⟨rfl, rfl, accepted⟩ | old
    · exact ⟨_, List.mem_append_right _ (List.mem_singleton_self _), rfl, accepted⟩
    · obtain ⟨call, member, source⟩ := placed.pending other found old
      exact ⟨call, List.mem_append_left _ member, source⟩
  case sent =>
    intro found member
    rw [lock_globalTx] at member
    obtain ⟨call, inside, source⟩ := placed.sent found member
    exact ⟨call, List.mem_append_left _ inside, source⟩
  case apart =>
    intro found member isFirst other carriedEvent carried alsoFirst
    rw [lock_globalTx] at member
    rcases inFlight_lock carried with ⟨rfl, rfl, accepted⟩ | old
    · obtain ⟨call, inside, rfl, wasAccepted⟩ := placed.sent found member
      exact fresh alsoFirst accepted call inside wasAccepted isFirst
    · exact placed.apart found member isFirst other carriedEvent old alsoFirst
  case alone =>
    intro left right leftEvent rightEvent carriedLeft carriedRight isFirst alsoFirst
    rcases inFlight_lock carriedLeft with ⟨rfl, rfl, accepted⟩ | oldLeft
    · rcases inFlight_lock carriedRight with ⟨rfl, -, -⟩ | oldRight
      · rfl
      · exact absurd alsoFirst (noneFlying isFirst accepted right rightEvent oldRight)
    · rcases inFlight_lock carriedRight with ⟨rfl, rfl, accepted⟩ | oldRight
      · exact absurd isFirst (noneFlying alsoFirst accepted left leftEvent oldLeft)
      · exact placed.alone left right leftEvent rightEvent oldLeft oldRight isFirst alsoFirst
  case once =>
    rw [lock_globalTx]
    exact placed.once
  case ready =>
    intro other carried
    rw [lock_globalTx]
    rcases inFlight_lock carried with ⟨rfl, rfl, -⟩ | old
    · obtain ⟨call, inside, -, isPredecessor⟩ := delivered.1 rfl
      rcases placed.located sound keyedFirst inside isPredecessor with
        stopped | sentAlready | ⟨holder, found, flying, isFirst⟩
      · exact Or.inl stopped
      · exact Or.inr (Or.inl sentAlready)
      · exact Or.inr (Or.inr ⟨holder, elsewhere holder found flying, found,
          stays holder found flying, isFirst⟩)
    · rcases placed.ready other old with
        stopped | sentAlready | ⟨holder, different, found, flying, isFirst⟩
      · exact Or.inl stopped
      · exact Or.inr (Or.inl sentAlready)
      · exact Or.inr (Or.inr ⟨holder, different, found, stays holder found flying, isFirst⟩)

/-- An enqueue keeps the places. -/
theorem Placed.enqueue {state : State δ} (placed : Placed hasher first second state)
    {connection : Nat} {event : Event δ} (room : Bool) (running : state.exited = false)
    (flying : state.inFlight connection = some event) :
    Placed hasher first second (state.enqueue connection event room) := by
  refine ⟨placed.keyed, ?carried, ?pending, ?sent, ?apart, ?alone, ?once, ?ready⟩
  case carried =>
    intro call member accepted
    rcases placed.carried call member accepted with inside | sentAlready | closed | exited
    · by_cases same : call.connection = connection
      · have isEvent : call.event = event := by
          rw [same, flying] at inside
          exact (Option.some.inj inside).symm
        rw [isEvent]
        exact Or.inr (enqueue_delivers state connection event room)
      · left
        rw [inFlight_enqueue_of_ne state event room same]
        exact inside
    · exact Or.inr (Or.inl (mem_enqueue connection room sentAlready))
    · exact Or.inr (Or.inr (Or.inl closed))
    · rw [running] at exited
      exact absurd exited Bool.false_ne_true
  case pending =>
    intro other found carried
    exact placed.pending other found (inFlight_enqueue carried).2
  case sent =>
    intro found member
    rcases of_mem_enqueue member with old | rfl
    · exact placed.sent found old
    · exact placed.pending connection found flying
  case apart =>
    intro found member isFirst other carriedEvent carried alsoFirst
    obtain ⟨different, old⟩ := inFlight_enqueue carried
    rcases of_mem_enqueue member with inside | rfl
    · exact placed.apart found inside isFirst other carriedEvent old alsoFirst
    · exact different (placed.alone other connection carriedEvent found old flying alsoFirst isFirst)
  case alone =>
    intro left right leftEvent rightEvent carriedLeft carriedRight isFirst alsoFirst
    exact placed.alone left right leftEvent rightEvent (inFlight_enqueue carriedLeft).2
      (inFlight_enqueue carriedRight).2 isFirst alsoFirst
  case once =>
    rw [enqueue_globalTx]
    split
    · apply List.pairwise_append.mpr
      refine ⟨placed.once, List.pairwise_singleton _ _, ?_⟩
      intro earlier member later isEvent isFirst
      obtain rfl := List.mem_singleton.mp isEvent
      exact placed.apart earlier member isFirst connection later flying
    · exact placed.once
  case ready =>
    intro other carried
    obtain ⟨different, old⟩ := inFlight_enqueue carried
    rcases placed.ready other old with stopped | sentAlready | ⟨holder, apart, found, inside,
      isFirst⟩
    · rcases stopped with closed | exited
      · exact Or.inl (Or.inl closed)
      · rw [running] at exited
        exact absurd exited Bool.false_ne_true
    · obtain ⟨found, member, isFirst⟩ := sentAlready
      exact Or.inr (Or.inl ⟨found, mem_enqueue connection room member, isFirst⟩)
    · by_cases same : holder = connection
      · have isEvent : found = event := by
          rw [same, flying] at inside
          exact (Option.some.inj inside).symm
        rcases enqueue_delivers state connection event room with reached | stops
        · exact Or.inr (Or.inl ⟨event, reached, isEvent ▸ isFirst⟩)
        · exact Or.inl stops
      · right
        right
        refine ⟨holder, apart, found, ?_, isFirst⟩
        rw [inFlight_enqueue_of_ne state event room same]
        exact inside

/-- Every occurrence of the second event in the channel has the first key before it. -/
def Led (hasher : List UInt8 → UInt64) (first : UInt64) (second : Event δ) (state : State δ) :
    Prop :=
  CallLog.Preceded (fun event => event = second)
    (fun earlier _ => dedupKey hasher earlier = some first) state.forwarder.globalTx

/-- An enqueue that does not overtake keeps the channel led. -/
theorem Led.enqueue {state : State δ} (led : Led hasher first second state)
    (placed : Placed hasher first second state) {connection : Nat} {event : Event δ} {room : Bool}
    (running : state.exited = false) (flying : state.inFlight connection = some event)
    (undisturbed : NotOvertaken hasher first second state (.enqueue connection room)) :
    Led hasher first second (state.enqueue connection event room) := by
  unfold Led
  rw [enqueue_globalTx]
  split
  · rename_i reached
    apply CallLog.preceded_concat event led
    rintro rfl
    rcases placed.ready connection flying with (closed | exited) | sentAlready | ⟨other, different,
      found, inside, isFirst⟩
    · simp [State.answer, closed] at reached
    · rw [running] at exited
      exact absurd exited Bool.false_ne_true
    · exact sentAlready
    · exact absurd isFirst (undisturbed flying reached other different found inside)
  · exact led

/-- Led and once in the channel: the first key precedes the second event. -/
theorem precedes_of_led {state : State δ} (placed : Placed hasher first second state)
    (led : Led hasher first second state) :
    Precedes hasher first second state.forwarder.globalTx := by
  intro before after split
  obtain ⟨event, member, isFirst⟩ := led before second after split rfl
  refine ⟨⟨event, member, isFirst⟩, ?_⟩
  intro later follows
  have apart := placed.once
  rw [split] at apart
  exact (List.pairwise_append.mp apart).2.2 event member later
    (List.mem_cons_of_mem second follows) isFirst

/-- Every step of connections that deliver in order keeps the places. -/
theorem placed_step {ttl : Nat} {predecessor : Event δ}
    (keyed : dedupKey hasher predecessor = some first) (state : State δ) (action : Action δ)
    (next : State δ) (delivered : DeliversInOrder hasher first second ttl predecessor state action)
    (taken : step hasher state action = some next)
    (holds : Sound (ttl / 2) state ∧ Placed hasher first second state) :
    Sound (ttl / 2) next ∧ Placed hasher first second next := by
  refine ⟨sound_step state action next taken holds.1, ?_⟩
  obtain ⟨sound, placed⟩ := holds
  cases action with
  | lock connection event checked rotated =>
    obtain ⟨key, idle, later, ordered, keyedEvent, rfl⟩ := step_lock taken
    exact placed.lock sound keyed idle later ordered keyedEvent delivered
  | enqueue connection room =>
    obtain ⟨event, running, flying, rfl⟩ := step_enqueue taken
    exact placed.enqueue room running flying
  | closeChannel =>
    obtain rfl := Option.some.inj taken
    exact ⟨placed.keyed, fun _ _ _ => Or.inr (Or.inr (Or.inl rfl)), placed.pending, placed.sent,
      placed.apart, placed.alone, placed.once, fun _ _ => Or.inl (Or.inl rfl)⟩

/-- Every step that does not overtake keeps the channel led. -/
theorem led_step (state : State δ) (action : Action δ) (next : State δ)
    (undisturbed : NotOvertaken hasher first second state action)
    (taken : step hasher state action = some next)
    (placed : Placed hasher first second state) (led : Led hasher first second state) :
    Led hasher first second next := by
  cases action with
  | lock connection event checked rotated =>
    obtain ⟨key, _, _, _, _, rfl⟩ := step_lock taken
    unfold Led
    rw [lock_globalTx]
    exact led
  | enqueue connection room =>
    obtain ⟨event, running, flying, rfl⟩ := step_enqueue taken
    exact led.enqueue placed running flying undisturbed
  | closeChannel =>
    obtain rfl := Option.some.inj taken
    exact led

/-- The channel only grows at its end. -/
theorem globalTx_grows (state : State δ) (action : Action δ) (next : State δ)
    (taken : step hasher state action = some next) :
    state.forwarder.globalTx <+: next.forwarder.globalTx := by
  cases action with
  | lock connection event checked rotated =>
    obtain ⟨key, _, _, _, _, rfl⟩ := step_lock taken
    rw [lock_globalTx]
  | enqueue connection room =>
    obtain ⟨event, _, _, rfl⟩ := step_enqueue taken
    rw [enqueue_globalTx]
    split
    · exact List.prefix_append _ _
    · exact List.prefix_rfl
  | closeChannel =>
    obtain rfl := Option.some.inj taken
    exact List.prefix_rfl

/-- An overtaking enqueue leaves the second event without the first key before it
in every later channel. -/
theorem notOvertaken_of_precedes {state next : State δ} {action : Action δ}
    {channel : List (Event δ)} (placed : Placed hasher first second state)
    (taken : step hasher state action = some next) (grown : next.forwarder.globalTx <+: channel)
    (precedes : Precedes hasher first second channel) :
    NotOvertaken hasher first second state action := by
  cases action with
  | lock connection event checked rotated => trivial
  | closeChannel => trivial
  | enqueue connection room =>
    intro flying reached other different found inside isFirst
    obtain ⟨event, _, carried, rfl⟩ := step_enqueue taken
    obtain rfl : second = event := Option.some.inj (flying.symm.trans carried)
    obtain ⟨after, split⟩ := grown
    rw [enqueue_globalTx, if_pos reached, List.append_assoc] at split
    obtain ⟨earlier, member, alsoFirst⟩ := (precedes _ after split.symm).1
    exact placed.apart earlier member alsoFirst other found inside isFirst

/-- Along a run of connections that deliver in order, the first key precedes the
second event in the channel exactly when no step overtakes. -/
theorem forwarded_in_order_iff (hasher : List UInt8 → UInt64) (ttl start : Nat)
    (predecessor successor : Event δ) (key : UInt64)
    (keyed : dedupKey hasher predecessor = some key) (actions : List (Action δ)) (final : State δ)
    (delivered : Runs.Along (step hasher)
      (DeliversInOrder hasher key successor ttl predecessor) (initial ttl start) actions)
    (completed : Runs.run (step hasher) (initial ttl start) actions = some final) :
    Precedes hasher key successor final.forwarder.globalTx ↔
      Runs.Along (step hasher) (NotOvertaken hasher key successor) (initial ttl start) actions := by
  have initially : Sound (ttl / 2) (initial ttl start : State δ) ∧
      Placed hasher key successor (initial ttl start : State δ) :=
    ⟨sound_initial ttl start, placed_initial ttl start⟩
  have grows : ∀ {state : State δ} {rest : List (Action δ)},
      Runs.run (step hasher) state rest = some final →
        state.forwarder.globalTx <+: final.forwarder.globalTx := by
    intro state rest continued
    have kept : ∀ middle action next, step hasher middle action = some next →
        state.forwarder.globalTx <+: middle.forwarder.globalTx →
          state.forwarder.globalTx <+: next.forwarder.globalTx := by
      intro middle action next taken reached
      exact reached.trans (globalTx_grows middle action next taken)
    exact Runs.invariant kept continued List.prefix_rfl
  constructor
  · intro precedes
    apply Runs.along_of_completed (placed_step keyed) _ delivered completed initially
    intro state action next rest holds taken continued
    exact notOvertaken_of_precedes holds.2 taken (grows continued) precedes
  · intro undisturbed
    have atEnd : (Sound (ttl / 2) final ∧ Placed hasher key successor final) ∧
        Led hasher key successor final := by
      apply Runs.invariant_along _ (delivered.and undisturbed) completed
        ⟨initially, CallLog.preceded_nil _ _⟩
      intro state action next conditions taken holds
      exact ⟨placed_step keyed state action next conditions.1 taken holds.1,
        led_step state action next conditions.2 taken holds.1.2 holds.2⟩
    exact precedes_of_led atEnd.1.2 atEnd.2

/-- Both connections deliver the first book and then the second, and no copy is
absorbed before the first copy is in the channel. -/
def orderly : List (Action PlainDecimal) :=
  [.lock 1 (sampleBook "00000000000000a1") 0 0, .enqueue 1 true,
    .lock 2 (sampleBook "00000000000000a1") 1 1, .lock 2 (sampleBook "00000000000000a2") 2 2,
    .enqueue 2 true, .lock 1 (sampleBook "00000000000000a2") 3 3]

theorem orderly_in_order :
    ∃ final, Runs.run (step fun _ => 0) (initial 10 0) orderly = some final ∧
      (Precedes (fun _ => 0) 0xa1 (sampleBook "00000000000000a2") final.forwarder.globalTx ↔
        Runs.Along (step fun _ => 0)
          (NotOvertaken (fun _ => 0) 0xa1 (sampleBook "00000000000000a2"))
          (initial 10 0) orderly) := by
  refine ⟨_, rfl, forwarded_in_order_iff _ 10 0 (sampleBook "00000000000000a1") _ _ (by decide) _ _
    ?_ rfl⟩
  exact .cons ⟨by decide, by decide⟩ rfl <| .cons trivial rfl <| .cons ⟨by decide, by decide⟩ rfl <|
    .cons ⟨by decide, by decide⟩ rfl <| .cons trivial rfl <| .cons ⟨by decide, by decide⟩ rfl trivial

/-- The first connection is suspended between its two steps. The second one has
its copy absorbed and enqueues the successor. -/
def overtaking : List (Action PlainDecimal) :=
  [.lock 1 (sampleBook "00000000000000a1") 0 0, .lock 2 (sampleBook "00000000000000a1") 0 0,
    .lock 2 (sampleBook "00000000000000a2") 0 0, .enqueue 2 true, .enqueue 1 true,
    .lock 1 (sampleBook "00000000000000a2") 0 0]

/-- Both connections deliver the first book before the second, all at one
instant, and the channel has them the other way round. -/
theorem successor_overtakes :
    ∃ final, Runs.run (step fun _ => 0) (initial 10 0) overtaking = some final ∧
      final.calls.map (fun call => (call.connection, call.event, call.time)) =
        [(1, sampleBook "00000000000000a1", 0), (2, sampleBook "00000000000000a1", 0),
          (2, sampleBook "00000000000000a2", 0), (1, sampleBook "00000000000000a2", 0)] ∧
      final.forwarder.globalTx =
        [sampleBook "00000000000000a2", sampleBook "00000000000000a1"] :=
  ⟨_, rfl, by decide, by decide⟩

end Collector.Forwarding
