import Collector.Dedup

/-!
# What an absorbed event stands for

Calls of `try_send` one after the other, with room in the channel. An absorbed
event finds a forwarded event of its key. For trades and tick size changes the
key stands for every field. The raw prefix of the other two kinds says nothing
about kind and asset, so there the two events agree only as far as kind and
asset do.
-/

namespace Collector.Dedup

variable {δ : Type}

/-- The kinds whose key is hashed from all fields. -/
def Hashed (event : Event δ) : Prop :=
  event.kind = .lastTradePrice ∨ event.kind = .tickSizeChange

/-- The kinds whose key is the prefix of their content hash. -/
def RawKeyed (event : Event δ) : Prop := event.kind = .book ∨ event.kind = .priceChange

theorem rawKeyed_or_hashed (event : Event δ) : RawKeyed event ∨ Hashed event := by
  cases event with
  | book => exact Or.inl (Or.inl rfl)
  | priceChange => exact Or.inl (Or.inr rfl)
  | lastTradePrice => exact Or.inr (Or.inl rfl)
  | tickSizeChange => exact Or.inr (Or.inr rfl)

/-- The two families share no kind. -/
theorem kind_ne {raw hashed : Event δ} (isRaw : RawKeyed raw) (isHashed : Hashed hashed) :
    raw.kind ≠ hashed.kind := by
  intro same
  rcases isRaw with book | change <;> rcases isHashed with trade | tick <;> simp_all

/-- The first sixteen digits of the content hash, by value. -/
def hashPrefix : Event δ → Option UInt64
  | .book _ _ _ _ _ hash => hash.bind hexPrefixU64
  | .priceChange _ _ _ _ _ hash _ _ _ => hash.bind hexPrefixU64
  | _ => none

/-- Among these events, those of one kind and asset with equal hash prefixes are equal. -/
def ContentKeyed (events : List (Event δ)) : Prop :=
  ∀ left ∈ events, ∀ right ∈ events, RawKeyed left → left.kind = right.kind →
    left.assetId = right.assetId → hashPrefix left = hashPrefix right → left = right

variable [Decimal δ]

/-- Among these events the hasher has no collision. -/
def CollisionFree (hasher : List UInt8 → UInt64) (events : List (Event δ)) : Prop :=
  ∀ left ∈ events, ∀ right ∈ events, Hashed left → Hashed right →
    hasher (hashInput (hashedFields left)) = hasher (hashInput (hashedFields right)) →
      hashInput (hashedFields left) = hashInput (hashedFields right)

/-- A decimal is determined by its printed form. -/
theorem toString_injective {left right : δ}
    (same : Decimal.toString left = Decimal.toString right) : left = right := by
  have parsed := Decimal.fromStr_toString left
  rw [same, Decimal.fromStr_toString right] at parsed
  exact (Option.some.inj parsed).symm

/-- A hashed event is determined by the fields it is hashed from. -/
theorem hashedFields_injective {left right : Event δ} (hashedLeft : Hashed left)
    (hashedRight : Hashed right) (same : hashedFields left = hashedFields right) :
    left = right := by
  cases left with
  | book => simp [Hashed, Event.kind] at hashedLeft
  | priceChange => simp [Hashed, Event.kind] at hashedLeft
  | lastTradePrice market assetId timestamp price size side feeRateBps transactionHash =>
    cases right with
    | book => simp [Hashed, Event.kind] at hashedRight
    | priceChange => simp [Hashed, Event.kind] at hashedRight
    | tickSizeChange => simp [hashedFields] at same
    | lastTradePrice =>
      simp only [hashedFields, List.cons.injEq, and_true, true_and] at same
      obtain ⟨rfl, rfl, rfl, samePrice, sameSize, rfl, rfl, rfl⟩ := same
      rw [toString_injective samePrice, toString_injective sameSize]
  | tickSizeChange market assetId timestamp oldTickSize newTickSize =>
    cases right with
    | book => simp [Hashed, Event.kind] at hashedRight
    | priceChange => simp [Hashed, Event.kind] at hashedRight
    | lastTradePrice => simp [hashedFields] at same
    | tickSizeChange =>
      simp only [hashedFields, List.cons.injEq, and_true, true_and] at same
      obtain ⟨rfl, rfl, rfl, sameOld, sameNew⟩ := same
      rw [toString_injective sameOld, toString_injective sameNew]

/-- The key of a hashed event is the hash of its fields. -/
theorem dedupKey_of_hashed {hasher : List UInt8 → UInt64} {event : Event δ}
    (hashed : Hashed event) :
    dedupKey hasher event = some (hasher (hashInput (hashedFields event))) := by
  cases event with
  | book => simp [Hashed, Event.kind] at hashed
  | priceChange => simp [Hashed, Event.kind] at hashed
  | lastTradePrice => rfl
  | tickSizeChange => rfl

/-- The key of a raw keyed event is its hash prefix. -/
theorem dedupKey_of_rawKeyed {hasher : List UInt8 → UInt64} {event : Event δ}
    (raw : RawKeyed event) : dedupKey hasher event = hashPrefix event := by
  cases event with
  | book => rfl
  | priceChange => rfl
  | lastTradePrice => simp [RawKeyed, Event.kind] at raw
  | tickSizeChange => simp [RawKeyed, Event.kind] at raw

/-- Two events of one key are equal, unless one of them is raw keyed and they
differ in kind or asset. -/
theorem eq_or_apart_of_dedupKey {hasher : List UInt8 → UInt64} {events : List (Event δ)}
    (collisionFree : CollisionFree hasher events) (contentKeyed : ContentKeyed events)
    {left right : Event δ} (inLeft : left ∈ events) (inRight : right ∈ events)
    (same : dedupKey hasher left = dedupKey hasher right) :
    left = right ∨ ((RawKeyed left ∨ RawKeyed right) ∧
      (left.kind ≠ right.kind ∨ left.assetId ≠ right.assetId)) := by
  rcases rawKeyed_or_hashed left with rawLeft | hashedLeft
  · by_cases agree : left.kind = right.kind ∧ left.assetId = right.assetId
    · left
      have rawRight : RawKeyed right := by
        unfold RawKeyed
        rw [← agree.1]
        exact rawLeft
      rw [dedupKey_of_rawKeyed rawLeft, dedupKey_of_rawKeyed rawRight] at same
      exact contentKeyed left inLeft right inRight rawLeft agree.1 agree.2 same
    · exact Or.inr ⟨Or.inl rawLeft, not_and_or.mp agree⟩
  · rcases rawKeyed_or_hashed right with rawRight | hashedRight
    · exact Or.inr ⟨Or.inr rawRight, Or.inl (kind_ne rawRight hashedLeft).symm⟩
    · left
      rw [dedupKey_of_hashed hashedLeft, dedupKey_of_hashed hashedRight] at same
      have inputs := collisionFree left inLeft right inRight hashedLeft hashedRight
        (Option.some.inj same)
      exact hashedFields_injective hashedLeft hashedRight
        (Terminated.join_utf8_injective _ _ inputs)

/-- One event fed to the forwarder with the two clock readings of the call. -/
structure Feed (δ : Type) where
  event : Event δ
  checked : Nat
  rotated : Nat

/-- One call with room in an open channel; `none` is the panic of the key. -/
def feed (hasher : List UInt8 → UInt64) (forwarder : DedupForwarder δ) (call : Feed δ) :
    Option (DedupForwarder δ) :=
  (forwarder.trySend hasher call.event call.checked call.rotated .ok).map Prod.fst

/-- The call counts the event as a duplicate. -/
def Absorbs (hasher : List UInt8 → UInt64) (forwarder : DedupForwarder δ) (call : Feed δ) : Prop :=
  ∃ next, feed hasher forwarder call = some next ∧ next.dropped = forwarder.dropped + 1

/-- A call absorbs the event of a held key and forwards any other event. -/
theorem feed_cases {hasher : List UInt8 → UInt64} {forwarder next : DedupForwarder δ}
    {call : Feed δ} (fed : feed hasher forwarder call = some next) :
    ∃ key, dedupKey hasher call.event = some key ∧
      next.cache = ((forwarder.cache.maybeRotate call.checked call.rotated).checkAndInsert key).1 ∧
      (((forwarder.cache.maybeRotate call.checked call.rotated).Holds key ∧
          next.globalTx = forwarder.globalTx ∧ next.dropped = forwarder.dropped + 1) ∨
        (next.globalTx = forwarder.globalTx ++ [call.event] ∧
          next.dropped = forwarder.dropped)) := by
  obtain ⟨⟨reached, result⟩, sent, rfl⟩ := Option.map_eq_some_iff.mp fed
  obtain ⟨key, keyed, same⟩ := Option.map_eq_some_iff.mp sent
  refine ⟨key, keyed, ?_⟩
  by_cases held : (forwarder.cache.maybeRotate call.checked call.rotated).Holds key
  · simp only [DedupForwarder.lockedSection, DedupCache.checkAndInsert_held held,
      Bool.false_eq_true, if_false, Prod.mk.injEq] at same
    obtain ⟨rfl, -⟩ := same
    exact ⟨by rw [DedupCache.checkAndInsert_held held], Or.inl ⟨held, rfl, rfl⟩⟩
  · simp only [DedupForwarder.lockedSection, DedupCache.checkAndInsert_fresh held, if_true,
      DedupForwarder.enqueue, Prod.mk.injEq] at same
    obtain ⟨rfl, -⟩ := same
    exact ⟨by rw [DedupCache.checkAndInsert_fresh held], Or.inr ⟨rfl, rfl⟩⟩

/-- Every held key belongs to a forwarded event, and forwarded events were fed. -/
structure Represented (hasher : List UInt8 → UInt64) (events : List (Event δ))
    (forwarder : DedupForwarder δ) : Prop where
  held : ∀ key, forwarder.cache.Holds key →
    ∃ event ∈ forwarder.globalTx, dedupKey hasher event = some key
  fed : ∀ event ∈ forwarder.globalTx, event ∈ events

/-- Feeding an event of the list keeps the representation. -/
theorem Represented.feed {hasher : List UInt8 → UInt64} {events : List (Event δ)}
    {forwarder next : DedupForwarder δ} {call : Feed δ} (inside : call.event ∈ events)
    (fed : Dedup.feed hasher forwarder call = some next)
    (represented : Represented hasher events forwarder) : Represented hasher events next := by
  obtain ⟨key, keyed, cache, outcome⟩ := feed_cases fed
  have holds : ∀ tested, next.cache.Holds tested → tested = key ∨ forwarder.cache.Holds tested := by
    intro tested known
    rw [cache, DedupCache.holds_checkAndInsert_iff] at known
    exact known.imp_right DedupCache.holds_of_maybeRotate
  rcases outcome with ⟨held, sameChannel, -⟩ | ⟨grown, -⟩
  · refine ⟨?_, by rw [sameChannel]; exact represented.fed⟩
    intro tested known
    rw [sameChannel]
    rcases holds tested known with rfl | before
    · exact represented.held tested (DedupCache.holds_of_maybeRotate held)
    · exact represented.held tested before
  · constructor
    · intro tested known
      rw [grown]
      rcases holds tested known with rfl | before
      · exact ⟨call.event, List.mem_append_right _ (List.mem_singleton_self _), keyed⟩
      · obtain ⟨event, member, found⟩ := represented.held tested before
        exact ⟨event, List.mem_append_left _ member, found⟩
    · intro event member
      rw [grown] at member
      rcases List.mem_append.mp member with old | new
      · exact represented.fed event old
      · obtain rfl := List.mem_singleton.mp new
        exact inside

/-- After every run the held keys belong to forwarded events. -/
theorem represented_run {hasher : List UInt8 → UInt64} (ttl start : Nat) {calls : List (Feed δ)}
    {events : List (Event δ)} {forwarder : DedupForwarder δ}
    (inside : ∀ call ∈ calls, call.event ∈ events)
    (completed : Runs.run (feed hasher) (DedupForwarder.new ttl start) calls = some forwarder) :
    Represented hasher events forwarder := by
  have along : Runs.Along (feed hasher) (fun _ call => call.event ∈ events)
      (DedupForwarder.new ttl start) calls :=
    Runs.along_of_forall _ calls (fun call member _ => inside call member)
  apply Runs.invariant_along _ along completed
  · exact ⟨by simp [DedupForwarder.new, DedupCache.new, DedupCache.Holds],
      by simp [DedupForwarder.new]⟩
  · intro state call next member taken represented
    exact represented.feed member taken

/-- An absorbed event has a forwarded event of its key before it. The two are
equal, unless one of them is keyed by the raw hash prefix and they differ in
kind or asset. -/
theorem absorbed_has_forwarded_twin (hasher : List UInt8 → UInt64) (ttl start : Nat)
    (calls : List (Feed δ)) (last : Feed δ) (forwarder : DedupForwarder δ)
    (collisionFree : CollisionFree hasher ((calls ++ [last]).map Feed.event))
    (contentKeyed : ContentKeyed ((calls ++ [last]).map Feed.event))
    (completed : Runs.run (feed hasher) (DedupForwarder.new ttl start) calls = some forwarder)
    (absorbed : Absorbs hasher forwarder last) :
    ∃ earlier ∈ forwarder.globalTx, earlier = last.event ∨
      ((RawKeyed earlier ∨ RawKeyed last.event) ∧
        dedupKey hasher earlier = dedupKey hasher last.event ∧
        (earlier.kind ≠ last.event.kind ∨ earlier.assetId ≠ last.event.assetId)) := by
  have inside : ∀ call ∈ calls, call.event ∈ (calls ++ [last]).map Feed.event :=
    fun call member => List.mem_map_of_mem (List.mem_append_left _ member)
  have represented := represented_run ttl start inside completed
  obtain ⟨next, fed, counted⟩ := absorbed
  obtain ⟨key, keyed, _, ⟨held, _, _⟩ | ⟨_, uncounted⟩⟩ := feed_cases fed
  · obtain ⟨earlier, member, sameKey⟩ :=
      represented.held key (DedupCache.holds_of_maybeRotate held)
    have same : dedupKey hasher earlier = dedupKey hasher last.event := sameKey.trans keyed.symm
    refine ⟨earlier, member, ?_⟩
    rcases eq_or_apart_of_dedupKey collisionFree contentKeyed (represented.fed earlier member)
      (List.mem_map_of_mem (List.mem_append_right _ (List.mem_singleton_self last))) same with
      equal | ⟨raw, differ⟩
    · exact Or.inl equal
    · exact Or.inr ⟨raw, same, differ⟩
  · omega

/-- A trade as two connections deliver it. -/
def sampleTrade : Feed PlainDecimal where
  event := .lastTradePrice "0xm" "asset" "1700000000000" ⟨"0.42", rfl⟩ ⟨"10", rfl⟩ "BUY" "0" "0xt"
  checked := 1
  rotated := 1

theorem second_trade_has_twin :
    ∃ forwarder, Runs.run (feed fun _ => 7) (DedupForwarder.new 10 0) [sampleTrade] =
        some forwarder ∧
      ∃ earlier ∈ forwarder.globalTx, earlier = sampleTrade.event ∨
        ((RawKeyed earlier ∨ RawKeyed sampleTrade.event) ∧
          dedupKey (fun _ => 7) earlier = dedupKey (fun _ => 7) sampleTrade.event ∧
          (earlier.kind ≠ sampleTrade.event.kind ∨
            earlier.assetId ≠ sampleTrade.event.assetId)) := by
  have single : ∀ event ∈ ([sampleTrade] ++ [sampleTrade]).map Feed.event,
      event = sampleTrade.event := by
    intro event member
    simpa using member
  refine ⟨_, rfl, absorbed_has_forwarded_twin (fun _ => 7) 10 0 [sampleTrade] sampleTrade _ ?_ ?_
    rfl ⟨_, rfl, rfl⟩⟩
  · intro left inLeft right inRight _ _ _
    rw [single left inLeft, single right inRight]
  · intro left inLeft right inRight _ _ _ _
    rw [single left inLeft, single right inRight]

/-- A price change of the asset of `sampleBook` with a given content hash. -/
def sampleChange (hash : String) : Event PlainDecimal :=
  .priceChange "0xm" "asset" "1700000000001" (some ⟨"0.41", rfl⟩) (some ⟨"0.42", rfl⟩) (some hash)
    ⟨"0.41", rfl⟩ ⟨"25", rfl⟩ "BUY"

/-- A price change is absorbed by a book with the same hash prefix: nothing
equal to it was forwarded. -/
theorem change_absorbed_by_book :
    CollisionFree (fun _ => 0) [sampleBook "00000000000000a1", sampleChange "00000000000000a1"] ∧
    ContentKeyed [sampleBook "00000000000000a1", sampleChange "00000000000000a1"] ∧
    ∃ forwarder, Runs.run (feed fun _ => 0) (DedupForwarder.new 10 0)
        [⟨sampleBook "00000000000000a1", 0, 0⟩] = some forwarder ∧
      Absorbs (fun _ => 0) forwarder ⟨sampleChange "00000000000000a1", 1, 1⟩ ∧
      ∀ earlier ∈ forwarder.globalTx, earlier ≠ sampleChange "00000000000000a1" := by
  refine ⟨?_, ?_, _, rfl, ⟨_, rfl, rfl⟩, by decide⟩
  · intro left inLeft right _ hashed
    simp only [List.mem_cons, List.not_mem_nil, or_false] at inLeft
    rcases inLeft with rfl | rfl <;> simp [Hashed, Event.kind, sampleBook, sampleChange] at hashed
  · intro left inLeft right inRight _ sameKind
    simp only [List.mem_cons, List.not_mem_nil, or_false] at inLeft inRight
    rcases inLeft with rfl | rfl <;> rcases inRight with rfl | rfl <;>
      simp [Event.kind, sampleBook, sampleChange] at sameKind ⊢

end Collector.Dedup
