import Collector.Forwarding

/-!
# When the cache forgets a key

The cache is aged by the calls alone, and a call ages it by one generation at
most. So an accepted key is forgotten with the second rotation after it, however
long that takes: after an idle gap the first call finds the key in the previous
generation. Which calls rotate is decided by their clock readings.
-/

namespace Collector.Forwarding

open Dedup

variable {δ : Type}

/-- The two clock readings of every locked section, in order. -/
def readings (actions : List (Action δ)) : List (Nat × Nat) :=
  actions.filterMap fun
    | .lock _ _ checked rotated => some (checked, rotated)
    | _ => none

/-- The time of the last rotation after some readings. -/
def lastRotation (interval : Nat) : Nat → List (Nat × Nat) → Nat
  | last, [] => last
  | last, (checked, rotated) :: rest =>
    lastRotation interval (if interval ≤ checked - last then rotated else last) rest

/-- Which readings rotate: those an interval or more after the rotation before. -/
def rotations (interval : Nat) : Nat → List (Nat × Nat) → List Bool
  | _, [] => []
  | last, (checked, rotated) :: rest =>
    decide (interval ≤ checked - last) ::
      rotations interval (if interval ≤ checked - last then rotated else last) rest

/-- A call and whether it rotates the cache. -/
abbrev Entry (δ : Type) := Call δ × Bool

/-- The calls of a run, each with whether it rotates. -/
def callLog (ttl start : Nat) (actions : List (Action δ)) (state : State δ) : List (Entry δ) :=
  state.calls.zip (rotations (ttl / 2) start (readings actions))

/-- The entry is the last accepted call before a call with the same key. -/
structure Latest (entry : Entry δ) (between : List (Entry δ)) (call : Entry δ) : Prop where
  accepted : entry.1.accepted = true
  same : entry.1.key = call.1.key
  refused : ∀ other ∈ between, other.1.key = call.1.key → other.1.accepted = false

/-- A call made the time to live after the last accepted call of its key is accepted. -/
def Expires (ttl : Nat) (log : List (Entry δ)) : Prop :=
  ∀ before entry between call after, log = before ++ entry :: (between ++ call :: after) →
    Latest entry between call → entry.1.time + ttl ≤ call.1.time → call.1.accepted = true

/-- Of the calls after the last accepted one of a key, up to a call made the time
to live later, at least two rotate. -/
def RotatesTwice (ttl : Nat) (log : List (Entry δ)) : Prop :=
  ∀ before entry between call after, log = before ++ entry :: (between ++ call :: after) →
    Latest entry between call → entry.1.time + ttl ≤ call.1.time →
      2 ≤ (between ++ [call]).countP fun other => other.2

/-- A call of the key was accepted that many rotations ago. -/
def AcceptedAt (log : List (Entry δ)) (key : UInt64) (count : Nat) : Prop :=
  ∃ before entry after, log = before ++ entry :: after ∧ entry.1.accepted = true ∧
    entry.1.key = key ∧ after.countP (fun other => other.2) = count

/-- A call is accepted when every accepted call of its key lies two rotations back. -/
def Generational (log : List (Entry δ)) : Prop :=
  ∀ before call after, log = before ++ call :: after →
    (call.1.accepted = true ↔
      ∀ count, AcceptedAt before call.1.key count → 2 ≤ count + call.2.toNat)

section Readings

/-- One more reading rotates or not, and leaves the others as they were. -/
theorem rotations_concat (interval last checked rotated : Nat) (times : List (Nat × Nat)) :
    rotations interval last (times ++ [(checked, rotated)]) = rotations interval last times ++
      [decide (interval ≤ checked - lastRotation interval last times)] := by
  induction times generalizing last with
  | nil => rfl
  | cons reading rest inductionHypothesis =>
    rw [List.cons_append, rotations, inductionHypothesis, rotations, lastRotation,
      List.cons_append]

theorem lastRotation_concat (interval last checked rotated : Nat) (times : List (Nat × Nat)) :
    lastRotation interval last (times ++ [(checked, rotated)]) =
      if interval ≤ checked - lastRotation interval last times then rotated
      else lastRotation interval last times := by
  induction times generalizing last with
  | nil => rfl
  | cons reading rest inductionHypothesis =>
    rw [List.cons_append, lastRotation, inductionHypothesis, lastRotation]

end Readings

theorem countP_concat (after : List (Entry δ)) (call : Entry δ) :
    (after ++ [call]).countP (fun other => other.2) =
      after.countP (fun other => other.2) + call.2.toNat := by
  rw [List.countP_append]
  cases rotates : call.2 <;> simp [rotates]

/-- One more call: it was accepted just now, or its key before it. -/
theorem acceptedAt_concat (log : List (Entry δ)) (call : Entry δ) (key : UInt64) (count : Nat) :
    AcceptedAt (log ++ [call]) key count ↔
      (call.1.accepted = true ∧ call.1.key = key ∧ count = 0) ∨
        ∃ earlier, AcceptedAt log key earlier ∧ earlier + call.2.toNat = count := by
  constructor
  · rintro ⟨before, entry, after, split, accepted, same, rfl⟩
    rcases CallLog.split_concat split with ⟨rfl, rfl, rfl⟩ | ⟨front, inside, rfl⟩
    · exact Or.inl ⟨accepted, same, rfl⟩
    · refine Or.inr ⟨_, ⟨before, entry, front, inside, accepted, same, rfl⟩, ?_⟩
      rw [countP_concat]
  · rintro (⟨accepted, same, rfl⟩ |
      ⟨earlier, ⟨before, entry, after, rfl, accepted, same, rfl⟩, rfl⟩)
    · exact ⟨log, call, [], rfl, accepted, same, rfl⟩
    · refine ⟨before, entry, after ++ [call], ?_, accepted, same, countP_concat after call⟩
      rw [List.append_assoc, List.cons_append]

/-- What the cache holds, in terms of the calls and their rotations. -/
structure Aged (ttl start : Nat) (actions : List (Action δ)) (state : State δ) : Prop where
  rotates : state.forwarder.cache.rotateEvery = ttl / 2
  lastRotate : state.forwarder.cache.lastRotate = lastRotation (ttl / 2) start (readings actions)
  lengths : state.calls.length = (rotations (ttl / 2) start (readings actions)).length
  current : ∀ key, key ∈ state.forwarder.cache.current ↔
    AcceptedAt (callLog ttl start actions state) key 0
  previous : ∀ key, key ∈ state.forwarder.cache.previous ↔
    AcceptedAt (callLog ttl start actions state) key 1
  verdicts : Generational (callLog ttl start actions state)

theorem aged_initial (ttl start : Nat) : Aged ttl start [] (initial ttl start : State δ) where
  rotates := rfl
  lastRotate := rfl
  lengths := rfl
  current := by simp [initial, DedupForwarder.new, DedupCache.new, AcceptedAt, callLog]
  previous := by simp [initial, DedupForwarder.new, DedupCache.new, AcceptedAt, callLog]
  verdicts := by
    intro before call after split
    exact absurd split.symm (by simp [callLog, initial])

section Step

variable {ttl start : Nat} {actions : List (Action δ)} {state : State δ}

/-- Whether a reading rotates the cache of a state. -/
def rotatesNow (state : State δ) (checked : Nat) : Bool :=
  decide (state.forwarder.cache.rotateEvery ≤ checked - state.forwarder.cache.lastRotate)

/-- The generations after a possible rotation. -/
theorem Aged.maybeRotate (aged : Aged ttl start actions state) (checked rotated : Nat)
    (key : UInt64) :
    (key ∈ (state.forwarder.cache.maybeRotate checked rotated).current ↔
      ∃ earlier, AcceptedAt (callLog ttl start actions state) key earlier ∧
        earlier + (rotatesNow state checked).toNat = 0) ∧
    (key ∈ (state.forwarder.cache.maybeRotate checked rotated).previous ↔
      ∃ earlier, AcceptedAt (callLog ttl start actions state) key earlier ∧
        earlier + (rotatesNow state checked).toNat = 1) := by
  unfold DedupCache.maybeRotate rotatesNow
  split
  · rename_i elapsed
    simp [elapsed, aged.current key]
  · rename_i recent
    simp [recent, aged.current key, aged.previous key]

/-- A call is accepted when no accepted call of its key is less than two rotations back. -/
theorem Aged.verdict (aged : Aged ttl start actions state) (key : UInt64)
    (checked rotated : Nat) :
    state.verdict key checked rotated = true ↔
      ∀ count, AcceptedAt (callLog ttl start actions state) key count →
        2 ≤ count + (rotatesNow state checked).toNat := by
  obtain ⟨current, previous⟩ := aged.maybeRotate checked rotated key
  rw [verdict_iff, DedupCache.Holds, current, previous]
  constructor
  · intro fresh count accepted
    by_contra few
    apply fresh
    rcases Nat.eq_zero_or_pos (count + (rotatesNow state checked).toNat) with none | some
    · exact Or.inl ⟨count, accepted, none⟩
    · exact Or.inr ⟨count, accepted, by omega⟩
  · rintro all (⟨count, accepted, few⟩ | ⟨count, accepted, few⟩)
    · have many := all count accepted
      omega
    · have many := all count accepted
      omega

theorem readings_lock (actions : List (Action δ)) (connection : Nat) (event : Event δ)
    (checked rotated : Nat) :
    readings (actions ++ [.lock connection event checked rotated]) =
      readings actions ++ [(checked, rotated)] := by
  rw [readings, List.filterMap_append]
  rfl

/-- The log after a locked section. -/
theorem Aged.callLog_lock (aged : Aged ttl start actions state) (connection : Nat)
    (event : Event δ) (key : UInt64) (checked rotated : Nat) :
    callLog ttl start (actions ++ [.lock connection event checked rotated])
        (state.lock connection event key checked rotated) =
      callLog ttl start actions state ++
        [(⟨connection, event, key, checked, state.verdict key checked rotated⟩,
          rotatesNow state checked)] := by
  have calls : (state.lock connection event key checked rotated).calls = state.calls ++
      [⟨connection, event, key, checked, state.verdict key checked rotated⟩] := rfl
  rw [callLog, readings_lock, rotations_concat, calls, List.zip_append aged.lengths, rotatesNow,
    aged.rotates, aged.lastRotate]
  rfl

/-- A locked section keeps the cache aged. -/
theorem Aged.lock (aged : Aged ttl start actions state) (connection : Nat) (event : Event δ)
    (key : UInt64) (checked rotated : Nat) :
    Aged ttl start (actions ++ [.lock connection event checked rotated])
      (state.lock connection event key checked rotated) := by
  have generations := aged.maybeRotate checked rotated
  have held := verdict_iff state key checked rotated
  refine ⟨by simp [aged.rotates], ?_, ?_, ?_, ?_, ?_⟩
  · rw [readings_lock, lastRotation_concat, lock_cache, DedupCache.checkAndInsert_lastRotate,
      DedupCache.maybeRotate_lastRotate, aged.rotates, aged.lastRotate]
  · rw [readings_lock, rotations_concat, List.length_append, ← aged.lengths]
    exact List.length_append
  · intro tested
    rw [aged.callLog_lock, acceptedAt_concat, ← (generations tested).1, lock_cache]
    simp only [and_true]
    by_cases fresh : (state.forwarder.cache.maybeRotate checked rotated).Holds key
    · have refused : ¬ state.verdict key checked rotated = true := fun accepted =>
        held.mp accepted fresh
      rw [DedupCache.checkAndInsert_held fresh]
      simp [refused]
    · rw [DedupCache.checkAndInsert_fresh fresh]
      simp [held.mpr fresh, eq_comm]
  · intro tested
    rw [aged.callLog_lock, acceptedAt_concat, ← (generations tested).2, lock_cache]
    simp
  · rw [aged.callLog_lock]
    intro before call after split
    rcases CallLog.split_concat split with ⟨rfl, rfl, -⟩ | ⟨front, inside, -⟩
    · exact aged.verdict key checked rotated
    · exact aged.verdicts before call front inside

/-- An action that neither calls nor reads the clock keeps the cache aged. -/
theorem Aged.silent (aged : Aged ttl start actions state) {action : Action δ} {next : State δ}
    (reads : readings [action] = []) (calls : next.calls = state.calls)
    (cache : next.forwarder.cache = state.forwarder.cache) :
    Aged ttl start (actions ++ [action]) next := by
  have read : readings (actions ++ [action]) = readings actions := by
    rw [readings, List.filterMap_append]
    exact (congrArg (readings actions ++ ·) reads).trans (List.append_nil _)
  have log : callLog ttl start (actions ++ [action]) next = callLog ttl start actions state := by
    rw [callLog, callLog, read, calls]
  constructor
  · rw [cache, aged.rotates]
  · rw [cache, read, aged.lastRotate]
  · rw [calls, read, aged.lengths]
  · rw [cache, log]
    exact aged.current
  · rw [cache, log]
    exact aged.previous
  · rw [log]
    exact aged.verdicts

end Step

section System

variable [Decimal δ] {hasher : List UInt8 → UInt64} {ttl start : Nat}

/-- Every step keeps the cache aged. -/
theorem aged_step (before : List (Action δ)) (state : State δ) (action : Action δ)
    (next : State δ) (taken : step hasher state action = some next)
    (aged : Aged ttl start before state) : Aged ttl start (before ++ [action]) next := by
  cases action with
  | lock connection event checked rotated =>
    obtain ⟨key, -, -, -, -, rfl⟩ := step_lock taken
    exact aged.lock connection event key checked rotated
  | enqueue connection room =>
    obtain ⟨event, -, -, rfl⟩ := step_enqueue taken
    exact aged.silent rfl (enqueue_calls ..) (enqueue_cache ..)
  | closeChannel =>
    obtain rfl := Option.some.inj taken
    exact aged.silent rfl rfl rfl

end System

/-- A call after the last accepted one of its key is accepted just when two of the
calls since then rotate. -/
theorem Generational.accepted_iff {log before between after : List (Entry δ)}
    {entry call : Entry δ} (generational : Generational log)
    (split : log = before ++ entry :: (between ++ call :: after))
    (latest : Latest entry between call) :
    call.1.accepted = true ↔ 2 ≤ (between ++ [call]).countP fun other => other.2 := by
  rw [countP_concat, generational (before ++ entry :: between) call after
    (by rw [split, List.append_assoc, List.cons_append])]
  constructor
  · intro all
    exact all _ ⟨before, entry, between, rfl, latest.accepted, latest.same, rfl⟩
  · rintro many count ⟨front, found, rest, same, accepted, isKey, rfl⟩
    -- the accepted call that was found is the last one or lies before it
    have fewer : between.countP (fun other => other.2) ≤ rest.countP fun other => other.2 := by
      rcases List.append_eq_append_iff.mp same with
        ⟨middle, rfl, isRest⟩ | ⟨middle, rfl, isRest⟩
      · cases middle with
        | nil =>
          obtain ⟨rfl, rfl⟩ := List.cons.inj isRest
          exact le_rfl
        | cons first middle =>
          obtain ⟨rfl, rfl⟩ := List.cons.inj isRest
          have refused := latest.refused found (List.mem_append_right _ List.mem_cons_self) isKey
          rw [accepted] at refused
          exact absurd refused nofun
      · cases middle with
        | nil =>
          obtain ⟨rfl, rfl⟩ := List.cons.inj isRest
          exact le_rfl
        | cons first middle =>
          obtain ⟨rfl, rfl⟩ := List.cons.inj isRest
          change _ ≤ (middle ++ entry :: between).countP fun other => other.2
          rw [List.countP_append, List.countP_cons]
          omega
    omega

section System

variable [Decimal δ]

/-- In every run, a call made the time to live after the last accepted call of its
key is always accepted just when at least two of the calls since then rotate, the
late one included. -/
theorem keys_expire_iff_two_rotations (hasher : List UInt8 → UInt64) (ttl start : Nat)
    (actions : List (Action δ)) (final : State δ)
    (completed : Runs.run (step hasher) (initial ttl start) actions = some final) :
    Expires ttl (callLog ttl start actions final) ↔
      RotatesTwice ttl (callLog ttl start actions final) := by
  have aged : Aged ttl start actions final :=
    Runs.invariant_history aged_step completed (aged_initial ttl start)
  refine forall₅_congr fun before entry between call after => ?_
  refine forall_congr' fun split => forall_congr' fun latest => forall_congr' fun _ => ?_
  exact aged.verdicts.accepted_iff split latest

/-- A book comes again after an idle gap of twice the time to live. -/
def idleGap : List (Action PlainDecimal) :=
  [.lock 1 (sampleBook "00000000000000a1") 0 0, .enqueue 1 true,
    .lock 2 (sampleBook "00000000000000a1") 20 20]

theorem idle_gap_two_rotations :
    ∃ final, Runs.run (step fun _ => 0) (initial 10 0) idleGap = some final ∧
      (Expires 10 (callLog 10 0 idleGap final) ↔ RotatesTwice 10 (callLog 10 0 idleGap final)) :=
  ⟨_, rfl, keys_expire_iff_two_rotations (fun _ => 0) 10 0 idleGap _ rfl⟩

/-- After the gap the key is still in the previous generation. -/
theorem idle_gap_absorbs_new_event :
    ∃ final, Runs.run (step fun _ => 0) (initial 10 0) idleGap = some final ∧
      ¬ Expires 10 (callLog 10 0 idleGap final) := by
  refine ⟨_, rfl, ?_⟩
  intro expires
  have accepted := expires [] _ [] _ [] rfl ⟨rfl, rfl, nofun⟩ (by decide)
  exact absurd accepted (by decide)

end System

end Collector.Forwarding
