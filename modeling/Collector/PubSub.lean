import Collector.Events
import Collector.Library.JsonRoundTrip

/-!
# From the pub/sub sink to the pub/sub subscriber

`PubSubSink::flush` publishes the compact text of each event, and
`subscribe_once` decodes each payload it receives and forwards the event, or
counts a parse failure and goes on. The question is whether the second undoes
the first for every event that `explode` can produce.
-/

namespace Collector.PubSub

open Serde

variable {δ : Type} [Decimal δ]

/-- The payload `flush` publishes for one event. -/
def payload (event : Event δ) : String := event.serialize.text

/-- The subscriber's counters, the events it has forwarded, and whether the sink
still holds the receiving end of its channel. -/
structure Subscriber (δ : Type) where
  eventsReceived : Nat
  eventsForwarded : Nat
  parseFailures : Nat
  inbound : List (Event δ)
  sinkOpen : Bool

/-- One message of `subscribe_once`; `none` is a payload that is not a string.
The subscriber exits, without a successor, only when the sink is gone. -/
def subscribeMessage (subscriber : Subscriber δ) (message : Option String) :
    Option (Subscriber δ) :=
  let received := { subscriber with eventsReceived := subscriber.eventsReceived + 1 }
  match message with
  | none => some { received with parseFailures := received.parseFailures + 1 }
  | some source =>
    match fromStr Event.deserialize source with
    | .error _ => some { received with parseFailures := received.parseFailures + 1 }
    | .ok event =>
      if received.sinkOpen then
        some { received with
          inbound := received.inbound ++ [event]
          eventsForwarded := received.eventsForwarded + 1 }
      else none

@[simp]
theorem decodeDecimal_encodeDecimal (value : δ) :
    decodeDecimal (encodeDecimal value) = .ok value := by
  simp [decodeDecimal, encodeDecimal, string, Decimal.fromStr_toString, bind, Except.bind]

@[simp]
theorem level_round_trip (level : Level δ) : Level.deserialize level.serialize = .ok level := by
  simp [Level.deserialize, Level.serialize, string, Decimal.fromStr_toString, bind, Except.bind]

@[simp]
theorem levels_round_trip (levels : List (Level δ)) :
    list Level.deserialize (.array (levels.map Level.serialize)) = .ok levels :=
  list_map Level.serialize Level.deserialize level_round_trip levels

/-- Both quotes of a price change are present; other events have no quotes. -/
def QuotesPresent : Event δ → Prop
  | .priceChange _ _ _ bestBid bestAsk _ _ _ _ => bestBid.isSome ∧ bestAsk.isSome
  | _ => True

/-- A decimal is not printed as the empty string, which is how a quote is absent. -/
theorem toString_ne_empty (value : δ) : Decimal.toString value ≠ "" := by
  intro empty
  have back := Decimal.fromStr_toString value
  rw [empty, Decimal.fromStr_empty] at back
  cases back

/-- A present quote is written as a string and read back as itself. -/
theorem decodeOptionalDecimal_encodeDecimal (value : δ) :
    decodeOptionalDecimal (encodeDecimal value) = .ok (some value) := by
  have back := decodeDecimal_encodeDecimal value
  unfold encodeDecimal at back ⊢
  simp only [decodeOptionalDecimal, string, bind, Except.bind, toString_ne_empty value, if_false,
    back]
  rfl

/-- An event without a missing quote is decoded from its own encoding. Each
variant is read field by field under the names it was written with. -/
theorem deserialize_serialize (event : Event δ) (quotes : QuotesPresent event) :
    Event.deserialize event.serialize = .ok event := by
  cases event with
  | book market assetId timestamp bids asks hash =>
    cases hash <;>
      simp [Event.serialize, Event.deserialize, tagged, lookup, skipNone, requiredField,
        optionField, closed, string, Event.kind, Kind.tag, bind, Except.bind]
  | priceChange market assetId timestamp bestBid bestAsk hash price size side =>
    obtain ⟨bid, rfl⟩ := Option.isSome_iff_exists.mp quotes.1
    obtain ⟨ask, rfl⟩ := Option.isSome_iff_exists.mp quotes.2
    cases hash <;>
      simp [Event.serialize, Event.deserialize, tagged, lookup, skipNone, requiredField,
        optionField, decodeOptionalDecimal_encodeDecimal, closed, string, Event.kind, Kind.tag,
        bind, Except.bind]
  | lastTradePrice market assetId timestamp price size side feeRateBps transactionHash =>
    simp [Event.serialize, Event.deserialize, tagged, lookup, requiredField, closed, string,
      Event.kind, Kind.tag, bind, Except.bind]
  | tickSizeChange market assetId timestamp oldTickSize newTickSize =>
    simp [Event.serialize, Event.deserialize, tagged, lookup, requiredField, closed, string,
      Event.kind, Kind.tag, bind, Except.bind]

/-- An absent quote is left out by the encoder, and the decoder refuses its
absence: its custom decoder has no default to fall back on. -/
theorem deserialize_without_quote (event : Event δ) (missing : ¬ QuotesPresent event) :
    ∃ name, (Event.deserialize event.serialize : Except Error (Event δ)) =
      .error (.missingField name) := by
  cases event with
  | book => exact absurd trivial missing
  | lastTradePrice => exact absurd trivial missing
  | tickSizeChange => exact absurd trivial missing
  | priceChange market assetId timestamp bestBid bestAsk hash price size side =>
    cases bestBid with
    | none =>
      refine ⟨"best_bid", ?_⟩
      cases bestAsk <;> cases hash <;>
        simp [Event.serialize, Event.deserialize, tagged, lookup, skipNone, requiredField, string,
          Event.kind, Kind.tag, bind, Except.bind]
    | some bid =>
      cases bestAsk with
      | none =>
        refine ⟨"best_ask", ?_⟩
        cases hash <;>
          simp [Event.serialize, Event.deserialize, tagged, lookup, skipNone, requiredField,
            decodeOptionalDecimal_encodeDecimal, string, Event.kind, Kind.tag, bind, Except.bind]
      | some ask => exact absurd ⟨rfl, rfl⟩ missing

/-- Every encoded event is within the reader's limits: it has no numbers, and
its deepest values are the strings of its levels. -/
theorem readable_serialize (event : Event δ) :
    Json.Readable recursionLimit event.serialize := by
  have level (levels : List (Level δ)) :
      Json.ReadableItems 125 (levels.map Level.serialize) := by
    rw [Json.readableItems_iff]
    intro item member
    obtain ⟨level, _, rfl⟩ := List.mem_map.mp member
    simp [Level.serialize, Json.Readable, Json.ReadableItems]
  cases event with
  | book market assetId timestamp bids asks hash =>
    cases hash <;>
      simp [Event.serialize, recursionLimit, skipNone, Json.Readable, Json.ReadableMembers, level]
  | priceChange market assetId timestamp bestBid bestAsk hash price size side =>
    cases bestBid <;> cases bestAsk <;> cases hash <;>
      simp [Event.serialize, recursionLimit, skipNone, encodeDecimal, Json.Readable,
        Json.ReadableMembers]
  | lastTradePrice market assetId timestamp price size side feeRateBps transactionHash =>
    simp [Event.serialize, recursionLimit, encodeDecimal, Json.Readable, Json.ReadableMembers]
  | tickSizeChange market assetId timestamp oldTickSize newTickSize =>
    simp [Event.serialize, recursionLimit, encodeDecimal, Json.Readable, Json.ReadableMembers]

/-- Decoding a published text is decoding the encoded value. -/
theorem fromStr_payload (event : Event δ) :
    (fromStr Event.deserialize (payload event) : Except Error (Event δ)) =
      Event.deserialize event.serialize := by
  simp only [fromStr, payload, Json.parse_text recursionLimit event.serialize (readable_serialize event)]

/-- The consumer rebuilds the published event: its payload decodes to the event
itself, and a subscriber with an open sink forwards it without counting a parse
failure. -/
def Delivered (event : Event δ) : Prop :=
  fromStr Event.deserialize (payload event) = .ok event ∧
    ∀ subscriber : Subscriber δ, subscriber.sinkOpen = true →
      ∃ after, subscribeMessage subscriber (some (payload event)) = some after ∧
        after.parseFailures = subscriber.parseFailures ∧
        after.inbound = subscriber.inbound ++ [event]

/-- An event is delivered exactly when it lacks no quote. A missing quote makes
its payload undecodable, so nothing is forwarded. -/
theorem delivered_iff (event : Event δ) : Delivered event ↔ QuotesPresent event := by
  constructor
  · rintro ⟨decoded, _⟩
    by_contra missing
    obtain ⟨name, refused⟩ := deserialize_without_quote event missing
    rw [fromStr_payload, refused] at decoded
    cases decoded
  · intro quotes
    have decoded : fromStr Event.deserialize (payload event) = .ok event := by
      rw [fromStr_payload, deserialize_serialize event quotes]
    refine ⟨decoded, ?_⟩
    intro subscriber sinkOpen
    refine ⟨{ subscriber with
      eventsReceived := subscriber.eventsReceived + 1
      inbound := subscriber.inbound ++ [event]
      eventsForwarded := subscriber.eventsForwarded + 1 }, ?_, rfl, rfl⟩
    simp only [subscribeMessage, decoded, sinkOpen, if_true]

/-- Every entry of a price change carries both quotes. -/
def Quoted : WireMessage δ → Prop
  | .priceChange pc => ∀ entry ∈ pc.priceChanges, entry.bestBid.isSome ∧ entry.bestAsk.isSome
  | _ => True

omit [Decimal δ] in
/-- The quotes of the events are the quotes of the message's entries. -/
theorem quoted_iff (message : WireMessage δ) :
    (∀ event ∈ explode message, QuotesPresent event) ↔ Quoted message := by
  cases message with
  | book message => simp [explode, QuotesPresent, Quoted]
  | priceChange message => simp [explode, QuotesPresent, Quoted]
  | lastTradePrice message => simp [explode, QuotesPresent, Quoted]
  | tickSizeChange message => simp [explode, QuotesPresent, Quoted]

/-- Whatever message the parser accepted, each of its events is delivered exactly
when it lacks no quote, and all of them are delivered exactly when every entry
of a price change carries both quotes. -/
theorem exploded_events_delivered_iff (message : WireMessage δ) :
    (∀ event ∈ explode message, Delivered event ↔ QuotesPresent event) ∧
      ((∀ event ∈ explode message, Delivered event) ↔ Quoted message) := by
  refine ⟨fun event _ => delivered_iff event, ?_⟩
  rw [← quoted_iff]
  exact forall₂_congr fun event _ => delivered_iff event

/-- A price change of one entry with an ask and no bid. -/
def oneSidedChange : WireMessage PlainDecimal :=
  .priceChange {
    market := "0xm"
    timestamp := "1757908892351"
    priceChanges := [{
      assetId := "a1"
      price := ⟨"0.41", by decide⟩
      size := ⟨"100", by decide⟩
      side := "BUY"
      bestBid := none
      bestAsk := some ⟨"0.42", by decide⟩
      hash := "56621a121a47ed9333273e21c83b660cff37ae50" }] }

/-- Its event is published and cannot be decoded. -/
theorem one_sided_change_is_lost : ¬ ∀ event ∈ explode oneSidedChange, Delivered event := by
  intro delivered
  have quotes := (delivered_iff _).mp (delivered _ List.mem_cons_self)
  exact absurd quotes.1 (by decide)

end Collector.PubSub
