import Collector.PubSub
import Collector.Rows
import Collector.Library.JsonLines
import Collector.Library.Terminated
import Mathlib.Algebra.Ring.Int.Defs

/-!
# Bodies of raw rows

An insert sends its rows in one body, each closed by a line break. A row of the
raw schema holds the event as a JSON text within a JSON string, so it is decoded
twice. The writer escapes line breaks in both texts, so the body is cut at the
row ends and nowhere else.

One derived encoder writes the data column and the pub/sub payload. The payload
needs the timestamp, and the data column was meant to leave it out.
-/

namespace Collector.Framing

open Serde

variable {δ : Type} [Decimal δ]

/-- The loop of `serialize_batch` with the body it has written so far. -/
def serializeBody (config : SinkConfig) : String → List (Event δ) → Except String String
  | body, [] => .ok body
  | body, event :: rest =>
    match parseI64 event.timestamp with
    | some timestampMs =>
      serializeBody config (body ++ writeRow config event timestampMs ++ "\n") rest
    | none => .error event.timestamp

/-- The text of the data column. -/
def dataJson (config : SinkConfig) (event : Event δ) : String :=
  (if config.excludeHash then event.stripHash else event).serialize.text

/-- A body is its rows, each closed by a line break. -/
theorem serializeBody_ok {config : SinkConfig} {events : List (Event δ)} {rows : List String}
    (serialized : serializeBatch config events = .ok rows) (body : String) :
    ∃ whole, serializeBody config body events = .ok whole ∧
      whole.toList = body.toList ++ Terminated.join '\n' (rows.map String.toList) := by
  induction events generalizing body rows with
  | nil =>
    obtain rfl := Except.ok.inj serialized
    exact ⟨body, rfl, (List.append_nil _).symm⟩
  | cons event rest inductionHypothesis =>
    simp only [serializeBatch] at serialized
    cases parsed : parseI64 event.timestamp with
    | none =>
      rw [parsed] at serialized
      cases serialized
    | some timestampMs =>
      cases others : serializeBatch config rest with
      | error reason =>
        rw [parsed, others] at serialized
        cases serialized
      | ok later =>
        rw [parsed, others] at serialized
        obtain rfl := Except.ok.inj serialized
        obtain ⟨whole, written, spelled⟩ := inductionHypothesis others
          (body ++ writeRow config event timestampMs ++ "\n")
        refine ⟨whole, ?_, ?_⟩
        · simp only [serializeBody, parsed, written]
        · rw [spelled, List.map_cons, Terminated.join_cons, String.toList_append,
            String.toList_append, List.append_assoc, List.append_assoc]
          rfl

section Numbers

/-- The digits of a number denote it. -/
theorem parseDigits_repr (number : Nat) : parseDigits number.repr.toList = some number := by
  have valid : parseDigits.validDigits number.repr.toList = true := by
    rw [parseDigits.validDigits, Bool.and_eq_true, List.all_eq_true]
    refine ⟨?_, fun char member => Json.isDigit_of_mem_repr member⟩
    rw [Nat.toList_repr]
    simp
  rw [parseDigits, if_pos valid, Nat.toList_repr]
  exact congrArg some Nat.ofDigitChars_ten_toDigits

/-- A parsed timestamp is within 64 bits. -/
theorem parseI64_bounds {source : String} {value : Int} (parsed : parseI64 source = some value) :
    -2 ^ 63 ≤ value ∧ value < 2 ^ 63 := by
  unfold parseI64 at parsed
  split at parsed
  all_goals
    obtain ⟨number, -, within⟩ := Option.bind_eq_some_iff.mp parsed
    split at within
    · have same := Option.some.inj within
      omega
    · exact absurd within nofun

/-- A 64 bit number is read back from its text. -/
theorem parseI64_toString {value : Int} (lower : -2 ^ 63 ≤ value) (upper : value < 2 ^ 63) :
    parseI64 (toString value) = some value := by
  cases value with
  | ofNat number =>
    have digits := parseDigits_repr number
    have small : number < 2 ^ 63 := by
      change (number : Int) < 2 ^ 63 at upper
      omega
    have notSign : ∀ char ∈ number.repr.toList, char ≠ '-' ∧ char ≠ '+' := by
      intro char member
      have digit := Json.isDigit_of_mem_repr member
      constructor <;> (rintro rfl; exact absurd digit (by decide))
    change parseI64 number.repr = _
    unfold parseI64
    split
    · rename_i rest spelled
      exact absurd rfl (notSign '-' (spelled ▸ List.mem_cons_self)).1
    · rename_i rest spelled
      exact absurd rfl (notSign '+' (spelled ▸ List.mem_cons_self)).2
    · rw [digits, Option.bind_some, if_pos small]
      rfl
  | negSucc number =>
    have digits := parseDigits_repr (number + 1)
    have small : number + 1 ≤ 2 ^ 63 := by omega
    have spelled : (toString (Int.negSucc number)).toList = '-' :: (number + 1).repr.toList := by
      change ("-" ++ (number + 1).repr).toList = _
      rw [String.toList_append]
      rfl
    unfold parseI64
    rw [spelled]
    simp only [digits, Option.bind_some, if_pos small, Option.some.injEq]
    omega

end Numbers

/-- An encoded event, without its hash where that is excluded. -/
def withoutHash (excluded : Bool) : Json → Json
  | .object members =>
    .object (if excluded then members.filter fun member => member.1 ≠ "hash" else members)
  | value => value

/-- The members of an object are the fields of the event. An absent option has no member, and
only the order book hash is ever left out. -/
def Carries (excluded : Bool) (event : Event δ) (members : List (String × Json)) : Prop :=
  let member (name : String) (value : Option Json) := lookup name members = .ok value
  member "event_type" (some (.string event.kind.tag)) ∧
    member "market" (some (.string event.market)) ∧
    member "asset_id" (some (.string event.assetId)) ∧
    member "timestamp" (some (.string event.timestamp)) ∧
    match event with
    | .book _ _ _ bids asks hash =>
      member "bids" (some (.array (bids.map Level.serialize))) ∧
        member "asks" (some (.array (asks.map Level.serialize))) ∧
        member "hash" (if excluded then none else hash.map .string)
    | .priceChange _ _ _ bestBid bestAsk hash price size side =>
      member "best_bid" (bestBid.map encodeDecimal) ∧
        member "best_ask" (bestAsk.map encodeDecimal) ∧
        member "hash" (if excluded then none else hash.map .string) ∧
        member "price" (some (encodeDecimal price)) ∧
        member "size" (some (encodeDecimal size)) ∧ member "side" (some (.string side))
    | .lastTradePrice _ _ _ price size side feeRateBps transactionHash =>
      member "price" (some (encodeDecimal price)) ∧ member "size" (some (encodeDecimal size)) ∧
        member "side" (some (.string side)) ∧
        member "fee_rate_bps" (some (.string feeRateBps)) ∧
        member "transaction_hash" (some (.string transactionHash))
    | .tickSizeChange _ _ _ oldTickSize newTickSize =>
      member "old_tick_size" (some (encodeDecimal oldTickSize)) ∧
        member "new_tick_size" (some (encodeDecimal newTickSize))

/-- A row decodes to its columns, and its data column decodes to the event. Only
the order book hash is ever left out. -/
def DecodesTo (config : SinkConfig) (event : Event δ) (row : String) : Prop :=
  ∃ members lexeme data stored, Json.parse recursionLimit row = some (.object members) ∧
    lookup "timestamp" members = .ok (some (.number lexeme)) ∧
    parseI64 lexeme = parseI64 event.timestamp ∧
    lookup "market" members = .ok (some (.string event.market)) ∧
    lookup "event_type" members = .ok (some (.string event.kind.tag)) ∧
    lookup "data" members = .ok (some (.string data)) ∧
    Json.parse recursionLimit data = some (.object stored) ∧
    .object stored = withoutHash config.excludeHash event.serialize ∧
    Carries config.excludeHash event stored

/-- The encoding of an event has its fields as members, the hash if it is not excluded. -/
theorem carries_serialize (excluded : Bool) (event : Event δ) :
    ∃ stored, withoutHash excluded event.serialize = .object stored ∧
      Carries excluded event stored := by
  cases event with
  | book market assetId timestamp bids asks hash =>
    cases excluded <;> cases hash <;> exact ⟨_, rfl, rfl, rfl, rfl, rfl, rfl, rfl, rfl⟩
  | priceChange market assetId timestamp bestBid bestAsk hash price size side =>
    cases excluded <;> cases bestBid <;> cases bestAsk <;> cases hash <;>
      exact ⟨_, rfl, rfl, rfl, rfl, rfl, rfl, rfl, rfl, rfl, rfl, rfl⟩
  | lastTradePrice =>
    cases excluded <;> exact ⟨_, rfl, rfl, rfl, rfl, rfl, rfl, rfl, rfl, rfl, rfl⟩
  | tickSizeChange => cases excluded <;> exact ⟨_, rfl, rfl, rfl, rfl, rfl, rfl, rfl⟩

/-- Stripping the hash of an event takes its member out of the encoding, and no other. -/
theorem serialize_stripHash (event : Event δ) :
    event.stripHash.serialize = withoutHash true event.serialize := by
  cases event with
  | book market assetId timestamp bids asks hash =>
    cases hash <;> simp [Event.stripHash, Event.serialize, withoutHash, skipNone, Event.kind]
  | priceChange market assetId timestamp bestBid bestAsk hash price size side =>
    cases bestBid <;> cases bestAsk <;> cases hash <;>
      simp [Event.stripHash, Event.serialize, withoutHash, skipNone, Event.kind]
  | lastTradePrice market assetId timestamp price size side feeRateBps transactionHash =>
    simp [Event.stripHash, Event.serialize, withoutHash, Event.kind]
  | tickSizeChange market assetId timestamp oldTickSize newTickSize =>
    simp [Event.stripHash, Event.serialize, withoutHash, Event.kind]

/-- The data column decodes to the event without its hash, if that is excluded. -/
theorem parse_dataJson (config : SinkConfig) (event : Event δ) :
    Json.parse recursionLimit (dataJson config event) =
      some (withoutHash config.excludeHash event.serialize) := by
  unfold dataJson
  rw [Json.parse_text recursionLimit _ (PubSub.readable_serialize _)]
  split
  · rename_i excluded
    rw [excluded, serialize_stripHash]
  · rename_i kept
    rw [Bool.not_eq_true] at kept
    rw [kept]
    cases event <;> rfl

/-- A raw row is one line, and it decodes to its event. -/
theorem writeRawRow_decodesTo (config : SinkConfig) {event : Event δ} {timestampMs : Int}
    (parsed : parseI64 event.timestamp = some timestampMs) :
    '\n' ∉ (writeRawRow config event timestampMs).toList ∧
      DecodesTo config event (writeRawRow config event timestampMs) := by
  obtain ⟨lower, upper⟩ := parseI64_bounds parsed
  have readable : Json.Readable recursionLimit (.object [
      ("timestamp", .number (toString timestampMs)), ("market", .string event.market),
      ("event_type", .string event.kind.tag), ("data", .string (dataJson config event))]) := by
    simp only [recursionLimit, Json.Readable, Json.ReadableMembers, and_true]
    exact Json.readable_integer 126 timestampMs
  constructor
  · rw [writeRawRow, Json.text, String.toList_ofList]
    exact Json.newline_notMem_write _ recursionLimit readable
  · obtain ⟨stored, encoded, carries⟩ := carries_serialize config.excludeHash event
    refine ⟨_, toString timestampMs, dataJson config event, stored,
      Json.parse_text recursionLimit _ readable, rfl, ?_, rfl, rfl, rfl, ?_, encoded.symm, carries⟩
    · rw [parseI64_toString lower upper, parsed]
    · rw [parse_dataJson, encoded]

/-- The rows of a raw batch, one for each event. -/
theorem serializeBatch_raw {config : SinkConfig} (raw : config.schema = .raw)
    (buffer : List (Event δ)) (numbered : ∀ event ∈ buffer, (parseI64 event.timestamp).isSome) :
    ∃ rows, serializeBatch config buffer = .ok rows ∧
      (∀ row ∈ rows, '\n' ∉ row.toList) ∧ List.Forall₂ (DecodesTo config) buffer rows := by
  induction buffer with
  | nil => exact ⟨[], rfl, nofun, .nil⟩
  | cons event rest inductionHypothesis =>
    obtain ⟨rows, serialized, lines, decoded⟩ := inductionHypothesis fun later member =>
      numbered later (List.mem_cons_of_mem event member)
    obtain ⟨timestampMs, parsed⟩ :=
      Option.isSome_iff_exists.mp (numbered event List.mem_cons_self)
    obtain ⟨line, first⟩ := writeRawRow_decodesTo config parsed
    refine ⟨writeRawRow config event timestampMs :: rows, ?_, ?_, .cons first decoded⟩
    · simp only [serializeBatch, parsed, serialized, writeRow, raw]
      rfl
    · intro row member
      rcases List.mem_cons.mp member with rfl | later
      · exact line
      · exact lines row later

/-- The body of a raw batch splits at its line breaks into one row for each event,
in order, and nothing after the last. -/
theorem raw_body_splits_into_rows (config : SinkConfig) (raw : config.schema = .raw)
    (buffer : List (Event δ)) (numbered : ∀ event ∈ buffer, (parseI64 event.timestamp).isSome) :
    ∃ body rows, serializeBody config "" buffer = .ok body ∧
      body.toList.splitOn '\n' = rows.map String.toList ++ [[]] ∧
      List.Forall₂ (DecodesTo config) buffer rows := by
  obtain ⟨rows, serialized, lines, decoded⟩ := serializeBatch_raw raw buffer numbered
  obtain ⟨body, written, spelled⟩ := serializeBody_ok serialized "" 
  refine ⟨body, rows, written, ?_, decoded⟩
  have clean : ∀ segment ∈ rows.map String.toList, '\n' ∉ segment := by
    intro segment member
    obtain ⟨row, inRows, rfl⟩ := List.mem_map.mp member
    exact lines row inRows
  rw [spelled]
  exact Terminated.splitOn_join '\n' _ clean

/-- A market whose name has quotes, a backslash and a line break. -/
def awkwardTick : Event PlainDecimal :=
  .tickSizeChange "0x\"m\\\n" "a1" "-5" .cent .tenthOfCent

theorem awkward_tick_is_framed :
    ∃ body rows, serializeBody ⟨true, 10, .raw⟩ "" [awkwardTick, awkwardTick] = .ok body ∧
      body.toList.splitOn '\n' = rows.map String.toList ++ [[]] ∧
      List.Forall₂ (DecodesTo ⟨true, 10, .raw⟩) [awkwardTick, awkwardTick] rows :=
  raw_body_splits_into_rows ⟨true, 10, .raw⟩ rfl [awkwardTick, awkwardTick] (by decide)

section Shapes

/-- The stored text decodes to an object without a timestamp. -/
def StoredWithoutTimestamp (config : SinkConfig) (event : Event δ) : Prop :=
  ∃ members, Json.parse recursionLimit (dataJson config event) = some (.object members) ∧
    lookup "timestamp" members = .ok none

/-- The published text decodes to an object with the timestamp, and so does the
event that a consumer rebuilds from it. -/
def TransportedWithTimestamp (event : Event δ) : Prop :=
  (∃ members, Json.parse recursionLimit (PubSub.payload event) = some (.object members) ∧
    lookup "timestamp" members = .ok (some (.string event.timestamp))) ∧
  ∀ rebuilt : Event δ, fromStr Event.deserialize (PubSub.payload event) = .ok rebuilt →
    rebuilt.timestamp = event.timestamp

/-- Storage leaves the timestamp out and transport carries it. -/
def ShapesFit (config : SinkConfig) (event : Event δ) : Prop :=
  StoredWithoutTimestamp config event ∧ TransportedWithTimestamp event

/-- The encoder writes the timestamp of every event. -/
theorem serialize_timestamp (event : Event δ) :
    ∃ members, event.serialize = .object members ∧
      lookup "timestamp" members = .ok (some (.string event.timestamp)) := by
  cases event with
  | book market assetId timestamp bids asks hash => cases hash <;> exact ⟨_, rfl, rfl⟩
  | priceChange market assetId timestamp bestBid bestAsk hash price size side =>
    cases bestBid <;> cases bestAsk <;> cases hash <;> exact ⟨_, rfl, rfl⟩
  | lastTradePrice => exact ⟨_, rfl, rfl⟩
  | tickSizeChange => exact ⟨_, rfl, rfl⟩

/-- What a consumer rebuilds is the event itself. -/
theorem eq_of_rebuilt {event rebuilt : Event δ}
    (decoded : fromStr Event.deserialize (PubSub.payload event) = .ok rebuilt) :
    rebuilt = event := by
  rw [PubSub.fromStr_payload] at decoded
  by_cases quotes : PubSub.QuotesPresent event
  · rw [PubSub.deserialize_serialize event quotes] at decoded
    exact (Except.ok.inj decoded).symm
  · obtain ⟨name, refused⟩ := PubSub.deserialize_without_quote event quotes
    rw [refused] at decoded
    cases decoded

theorem transported_withTimestamp (event : Event δ) : TransportedWithTimestamp event := by
  obtain ⟨members, encoded, stamped⟩ := serialize_timestamp event
  refine ⟨⟨members, ?_, stamped⟩, ?_⟩
  · rw [PubSub.payload, Json.parse_text recursionLimit _ (PubSub.readable_serialize event), encoded]
  · intro rebuilt decoded
    rw [eq_of_rebuilt decoded]

/-- Whatever is stored, its text has the timestamp. -/
theorem not_stored_withoutTimestamp (config : SinkConfig) (event : Event δ) :
    ¬ StoredWithoutTimestamp config event := by
  rintro ⟨members, decoded, absent⟩
  obtain ⟨all, encoded, stamped⟩ :=
    serialize_timestamp (if config.excludeHash then event.stripHash else event)
  rw [dataJson, Json.parse_text recursionLimit _ (PubSub.readable_serialize _), encoded] at decoded
  obtain rfl := Json.object.inj (Option.some.inj decoded)
  rw [stamped] at absent
  cases absent

/-- Every event is transported with its timestamp and stored with it, so storage
and transport never have the shapes they should have. -/
theorem data_column_keeps_timestamp (config : SinkConfig) (event : Event δ) :
    ¬ ShapesFit config event ∧ TransportedWithTimestamp event :=
  ⟨fun fits => not_stored_withoutTimestamp config event fits.1, transported_withTimestamp event⟩

/-- The tick size change of the shape test. -/
def sampleTick : Event PlainDecimal := .tickSizeChange "0xm" "a1" "1" .cent .tenthOfCent

theorem sample_tick_stores_timestamp : ¬ ShapesFit ⟨false, 10, .raw⟩ sampleTick := by
  rintro ⟨⟨members, decoded, absent⟩, -⟩
  rw [dataJson, Json.parse_text recursionLimit _ (PubSub.readable_serialize _)] at decoded
  obtain rfl := Json.object.inj (Option.some.inj decoded)
  cases absent

end Shapes

end Collector.Framing
