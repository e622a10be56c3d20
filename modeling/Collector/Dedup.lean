import Collector.Events
import Collector.Library.Runs
import Collector.Library.Terminated
import Mathlib.Data.Finset.Insert

/-!
# Deduplication

A two-generation cache of 64-bit keys behind a mutex, the key of an event, and
the forwarder that every connection pushes its events into. Times are counted in
nanoseconds. `maybe_rotate` reads the clock twice, once for the age of the cache
and once for the new rotation time, so a locked section carries two readings.

The hash of the standard library is a parameter: a function of the bytes fed to
it. A string feeds its UTF-8 bytes and a closing 255.
-/

namespace Collector.Dedup

/-- The two generations, the rotation interval and the last rotation time. -/
structure DedupCache where
  current : Finset UInt64
  previous : Finset UInt64
  rotateEvery : Nat
  lastRotate : Nat

namespace DedupCache

/-- An empty cache that rotates every half of the time to live. -/
def new (ttl now : Nat) : DedupCache where
  current := ∅
  previous := ∅
  rotateEvery := ttl / 2
  lastRotate := now

/-- True for a first sighting, which is recorded in the current generation. -/
def checkAndInsert (cache : DedupCache) (key : UInt64) : DedupCache × Bool :=
  if key ∈ cache.current ∨ key ∈ cache.previous then (cache, false)
  else ({ cache with current := insert key cache.current }, true)

/-- Drop the previous generation when the interval has elapsed at the first
reading; the second reading becomes the rotation time. -/
def maybeRotate (cache : DedupCache) (checked rotated : Nat) : DedupCache :=
  if cache.rotateEvery ≤ checked - cache.lastRotate then
    { cache with previous := cache.current, current := ∅, lastRotate := rotated }
  else cache

/-- The keys the cache would refuse. -/
def Holds (cache : DedupCache) (key : UInt64) : Prop := key ∈ cache.current ∨ key ∈ cache.previous

/-- What a cache still knows at an instant about a key inserted at a time: it is
in the current generation, or in the previous one since a rotation not before
the insertion, or one rotation interval has passed. -/
def Remembered (cache : DedupCache) (now : Nat) (key : UInt64) (inserted : Nat) : Prop :=
  key ∈ cache.current ∨ (key ∈ cache.previous ∧ inserted ≤ cache.lastRotate) ∨
    inserted + cache.rotateEvery ≤ now

@[simp]
theorem maybeRotate_rotateEvery (cache : DedupCache) (checked rotated : Nat) :
    (cache.maybeRotate checked rotated).rotateEvery = cache.rotateEvery := by
  unfold maybeRotate
  split <;> rfl

/-- A held key changes nothing and is refused. -/
theorem checkAndInsert_held {cache : DedupCache} {key : UInt64} (held : cache.Holds key) :
    cache.checkAndInsert key = (cache, false) := if_pos held

/-- A fresh key joins the current generation and is accepted. -/
theorem checkAndInsert_fresh {cache : DedupCache} {key : UInt64} (fresh : ¬ cache.Holds key) :
    cache.checkAndInsert key = ({ cache with current := insert key cache.current }, true) :=
  if_neg fresh

@[simp]
theorem checkAndInsert_rotateEvery (cache : DedupCache) (key : UInt64) :
    (cache.checkAndInsert key).1.rotateEvery = cache.rotateEvery := by
  unfold checkAndInsert
  split <;> rfl

@[simp]
theorem maybeRotate_lastRotate (cache : DedupCache) (checked rotated : Nat) :
    (cache.maybeRotate checked rotated).lastRotate =
      if cache.rotateEvery ≤ checked - cache.lastRotate then rotated else cache.lastRotate := by
  unfold maybeRotate
  split <;> rfl

@[simp]
theorem checkAndInsert_lastRotate (cache : DedupCache) (key : UInt64) :
    (cache.checkAndInsert key).1.lastRotate = cache.lastRotate := by
  unfold checkAndInsert
  split <;> rfl

@[simp]
theorem checkAndInsert_previous (cache : DedupCache) (key : UInt64) :
    (cache.checkAndInsert key).1.previous = cache.previous := by
  unfold checkAndInsert
  split <;> rfl

/-- A rotation only forgets keys. -/
theorem holds_of_maybeRotate {cache : DedupCache} {checked rotated : Nat} {key : UInt64}
    (held : (cache.maybeRotate checked rotated).Holds key) : cache.Holds key := by
  unfold maybeRotate at held
  split at held
  · rcases held with current | previous
    · exact absurd current (Finset.notMem_empty key)
    · exact Or.inl previous
  · exact held

/-- A key is accepted exactly when neither generation holds it. -/
theorem checkAndInsert_accepts_iff (cache : DedupCache) (key : UInt64) :
    (cache.checkAndInsert key).2 = true ↔ ¬ cache.Holds key := by
  by_cases held : cache.Holds key
  · simp [checkAndInsert_held held, held]
  · simp [checkAndInsert_fresh held, held]

/-- After the check the cache holds the tested key and what it held before. -/
theorem holds_checkAndInsert_iff (cache : DedupCache) (key tested : UInt64) :
    (cache.checkAndInsert key).1.Holds tested ↔ tested = key ∨ cache.Holds tested := by
  by_cases held : cache.Holds key
  · rw [checkAndInsert_held held]
    refine ⟨Or.inr, ?_⟩
    rintro (rfl | known)
    · exact held
    · exact known
  · rw [checkAndInsert_fresh held]
    simp only [Holds, Finset.mem_insert, or_assoc]

/-- A rotation keeps what is known: a key can only leave the cache one interval
after the rotation that followed its insertion. -/
theorem remembered_maybeRotate {cache : DedupCache} {now checked rotated : Nat} {key : UInt64}
    {inserted : Nat} (known : cache.Remembered now key inserted) (past : inserted ≤ now)
    (later : now ≤ checked) (ordered : checked ≤ rotated) :
    (cache.maybeRotate checked rotated).Remembered checked key inserted := by
  unfold maybeRotate
  split
  · rename_i elapsed
    rcases known with current | ⟨_, before⟩ | expired
    · exact Or.inr (Or.inl ⟨current, by simp only; omega⟩)
    · exact Or.inr (Or.inr (by simp only; omega))
    · exact Or.inr (Or.inr (by simp only; omega))
  · rcases known with current | previous | expired
    · exact Or.inl current
    · exact Or.inr (Or.inl previous)
    · exact Or.inr (Or.inr (by omega))

/-- The check keeps what is known. -/
theorem remembered_checkAndInsert {cache : DedupCache} {now : Nat} {key tested : UInt64}
    {inserted : Nat} (known : cache.Remembered now tested inserted) :
    (cache.checkAndInsert key).1.Remembered now tested inserted := by
  unfold checkAndInsert
  split
  · exact known
  · rcases known with current | previous | expired
    · exact Or.inl (Finset.mem_insert_of_mem current)
    · exact Or.inr (Or.inl previous)
    · exact Or.inr (Or.inr expired)

/-- An accepted key is in the current generation. -/
theorem remembered_inserted {cache : DedupCache} {key : UInt64} (now inserted : Nat)
    (accepted : (cache.checkAndInsert key).2 = true) :
    (cache.checkAndInsert key).1.Remembered now key inserted := by
  have fresh := (checkAndInsert_accepts_iff cache key).mp accepted
  rw [checkAndInsert_fresh fresh]
  exact Or.inl (Finset.mem_insert_self key cache.current)

/-- What is known stays known as time passes. -/
theorem remembered_later {cache : DedupCache} {now next : Nat} {key : UInt64} {inserted : Nat}
    (known : cache.Remembered now key inserted) (later : now ≤ next) :
    cache.Remembered next key inserted := by
  rcases known with current | previous | expired
  · exact Or.inl current
  · exact Or.inr (Or.inl previous)
  · exact Or.inr (Or.inr (by omega))

/-- Within one interval of its insertion a remembered key is held. -/
theorem holds_of_remembered {cache : DedupCache} {now : Nat} {key : UInt64} {inserted : Nat}
    (known : cache.Remembered now key inserted) (recent : now < inserted + cache.rotateEvery) :
    cache.Holds key := by
  rcases known with current | ⟨previous, _⟩ | expired
  · exact Or.inl current
  · exact Or.inr previous
  · omega

end DedupCache

/-- One hexadecimal digit of either case. -/
def hexDigit (char : Char) : Option Nat :=
  if '0' ≤ char ∧ char ≤ '9' then some (char.toNat - 48)
  else if 'a' ≤ char ∧ char ≤ 'f' then some (char.toNat - 87)
  else if 'A' ≤ char ∧ char ≤ 'F' then some (char.toNat - 55)
  else none

/-- Accumulate hexadecimal digits, refusing a value beyond 64 bits. -/
def hexDigits : List Char → Nat → Option Nat
  | [], value => some value
  | char :: rest, value => do
    let digit ← hexDigit char
    if value * 16 + digit < 2 ^ 64 then hexDigits rest (value * 16 + digit) else none

/-- `u64::from_str_radix(_, 16)`: at least one digit after an optional plus. -/
def fromStrRadix16 : List Char → Option UInt64
  | [] => none
  | ['+'] => none
  | '+' :: digits => (hexDigits digits 0).map UInt64.ofNat
  | digits => (hexDigits digits 0).map UInt64.ofNat

/-- `str::get(..count)`: the prefix of exactly that many bytes, if it ends on a
character boundary. -/
def bytePrefix : Nat → List Char → Option (List Char)
  | 0, _ => some []
  | _ + 1, [] => none
  | count + 1, char :: rest =>
    if char.utf8Size ≤ count + 1 then
      (bytePrefix (count + 1 - char.utf8Size) rest).map (char :: ·)
    else none
termination_by structural _ chars => chars

/-- The first sixteen hexadecimal digits of a hash, after an optional `0x`.
`none` is the panic of the source. -/
def hexPrefixU64 (hash : String) : Option UInt64 :=
  let digits := match hash.toList with
    | '0' :: 'x' :: rest => rest
    | chars => chars
  (bytePrefix 16 digits).bind fromStrRadix16

/-- The bytes a tuple of strings feeds to the hasher. -/
def hashInput (fields : List String) : List UInt8 :=
  Terminated.join 0xFF (fields.map Terminated.utf8)

section Key

variable {δ : Type} [Decimal δ]

/-- The tuple hashed for a trade or a tick size change. The two kinds with a
content hash feed nothing to the hasher. -/
def hashedFields : Event δ → List String
  | .book .. => []
  | .priceChange .. => []
  | .lastTradePrice market assetId timestamp price size side feeRateBps transactionHash =>
    ["last_trade_price", market, assetId, timestamp, Decimal.toString price, Decimal.toString size,
      side, feeRateBps, transactionHash]
  | .tickSizeChange market assetId timestamp oldTickSize newTickSize =>
    ["tick_size_change", market, assetId, timestamp, Decimal.toString oldTickSize,
      Decimal.toString newTickSize]

/-- The key of an event; `none` is a panic on a missing or malformed hash. -/
def dedupKey (hasher : List UInt8 → UInt64) (event : Event δ) : Option UInt64 :=
  match event with
  | .book _ _ _ _ _ hash => hash.bind hexPrefixU64
  | .priceChange _ _ _ _ _ hash _ _ _ => hash.bind hexPrefixU64
  | .lastTradePrice .. => some (hasher (hashInput (hashedFields event)))
  | .tickSizeChange .. => some (hasher (hashInput (hashedFields event)))

end Key

/-- A book of one asset with a given content hash. -/
def sampleBook (hash : String) : Event PlainDecimal :=
  .book "0xm" "asset" "1700000000000" [] [] (some hash)

/-- What the global channel answers to one `try_send`. -/
inductive SendResult where
  | ok
  | full
  | closed
deriving DecidableEq

/-- The cache, the events enqueued on the global channel in order, and the two
counters. -/
structure DedupForwarder (δ : Type) where
  cache : DedupCache
  globalTx : List (Event δ)
  dropped : Nat
  forwarded : Nat

namespace DedupForwarder

variable {δ : Type}

def new (ttl now : Nat) : DedupForwarder δ where
  cache := DedupCache.new ttl now
  globalTx := []
  dropped := 0
  forwarded := 0

/-- The part of `try_send` under the mutex; false means absorbed. -/
def lockedSection (forwarder : DedupForwarder δ) (key : UInt64) (checked rotated : Nat) :
    DedupForwarder δ × Bool :=
  let (cache, first) := (forwarder.cache.maybeRotate checked rotated).checkAndInsert key
  if first then ({ forwarder with cache := cache }, true)
  else ({ forwarder with cache := cache, dropped := forwarder.dropped + 1 }, false)

@[simp]
theorem lockedSection_cache (forwarder : DedupForwarder δ) (key : UInt64) (checked rotated : Nat) :
    (forwarder.lockedSection key checked rotated).1.cache =
      ((forwarder.cache.maybeRotate checked rotated).checkAndInsert key).1 := by
  unfold lockedSection
  simp only
  split <;> rfl

@[simp]
theorem lockedSection_accepted (forwarder : DedupForwarder δ) (key : UInt64)
    (checked rotated : Nat) :
    (forwarder.lockedSection key checked rotated).2 =
      ((forwarder.cache.maybeRotate checked rotated).checkAndInsert key).2 := by
  unfold lockedSection
  simp only
  split <;> simp_all

@[simp]
theorem lockedSection_globalTx (forwarder : DedupForwarder δ) (key : UInt64)
    (checked rotated : Nat) :
    (forwarder.lockedSection key checked rotated).1.globalTx = forwarder.globalTx := by
  unfold lockedSection
  simp only
  split <;> rfl

/-- The part of `try_send` after the mutex is released. -/
def enqueue (forwarder : DedupForwarder δ) (event : Event δ) (channel : SendResult) :
    DedupForwarder δ × SendResult :=
  match channel with
  | .ok => ({ forwarder with
      globalTx := forwarder.globalTx ++ [event]
      forwarded := forwarder.forwarded + 1 }, .ok)
  | refused => (forwarder, refused)

/-- `try_send` without interruption; `none` is the panic of the key. -/
def trySend [Decimal δ] (hasher : List UInt8 → UInt64) (forwarder : DedupForwarder δ)
    (event : Event δ) (checked rotated : Nat) (channel : SendResult) :
    Option (DedupForwarder δ × SendResult) :=
  (dedupKey hasher event).map fun key =>
    let (locked, first) := forwarder.lockedSection key checked rotated
    if first then locked.enqueue event channel else (locked, .ok)

end DedupForwarder

end Collector.Dedup
