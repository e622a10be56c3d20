import Collector.Framing
import Collector.Library.Lossy

/-!
# What typed rows keep

A row of the typed schema has a column for each field of the four kinds of events, and defaults
in the columns that a kind does not have. It is written without the hash, with zero for a quote
that is absent, and with numbers for the timestamp and the fee rate. Nothing else is lost: a
reader that looks at the columns of the row's kind finds the rest of the event.

Rows name the columns that the insert names.
-/

namespace Collector.TypedRows

open Serde Framing

/-- The columns of the insert, by schema. -/
def insertColumns : SinkSchema → List String
  | .raw => ["timestamp", "market", "event_type", "data"]
  | .typed => ["timestamp", "market", "event_type", "asset_id", "bids", "asks", "price", "size",
      "side", "best_bid", "best_ask", "fee_rate_bps", "transaction_hash", "old_tick_size",
      "new_tick_size"]

section Reading

variable {δ : Type} [Decimal δ]

abbrev Columns := List (String × Json)

/-- The columns of a row. -/
def columnsOf (row : String) : Option Columns :=
  match Json.parse recursionLimit row with
  | some (.object columns) => some columns
  | _ => none

def readText (name : String) (columns : Columns) : Option String :=
  match lookup name columns with
  | .ok (some (.string text)) => some text
  | _ => none

/-- The digits of a number. -/
def readNumber (name : String) (columns : Columns) : Option String :=
  match lookup name columns with
  | .ok (some (.number lexeme)) => some lexeme
  | _ => none

def readDecimal (name : String) (columns : Columns) : Option δ :=
  (readText name columns).bind Decimal.fromStr

def readLevels (name : String) (columns : Columns) : Option (List (Level δ)) :=
  match lookup name columns with
  | .ok (some levels) => (list Level.deserialize levels).toOption
  | _ => none

/-- The event of a row, from the columns of its kind. -/
def readColumns (columns : Columns) : Option (Event δ) := do
  let timestamp ← readNumber "timestamp" columns
  let market ← readText "market" columns
  let tag ← readText "event_type" columns
  let assetId ← readText "asset_id" columns
  if tag = Kind.book.tag then do
    let bids ← readLevels "bids" columns
    let asks ← readLevels "asks" columns
    some (.book market assetId timestamp bids asks none)
  else if tag = Kind.priceChange.tag then do
    let bestBid ← readDecimal "best_bid" columns
    let bestAsk ← readDecimal "best_ask" columns
    let price ← readDecimal "price" columns
    let size ← readDecimal "size" columns
    let side ← readText "side" columns
    some (.priceChange market assetId timestamp (some bestBid) (some bestAsk) none price size side)
  else if tag = Kind.lastTradePrice.tag then do
    let price ← readDecimal "price" columns
    let size ← readDecimal "size" columns
    let side ← readText "side" columns
    let feeRateBps ← readNumber "fee_rate_bps" columns
    let transactionHash ← readText "transaction_hash" columns
    some (.lastTradePrice market assetId timestamp price size side feeRateBps transactionHash)
  else if tag = Kind.tickSizeChange.tag then do
    let oldTickSize ← readDecimal "old_tick_size" columns
    let newTickSize ← readDecimal "new_tick_size" columns
    some (.tickSizeChange market assetId timestamp oldTickSize newTickSize)
  else none

def readRow (row : String) : Option (Event δ) := (columnsOf row).bind readColumns

/-- A number as its digits. -/
def plainTimestamp (timestamp : String) : String :=
  ((parseI64 timestamp).map toString).getD timestamp

def plainFee (feeRateBps : String) : String := toString ((parseU16 feeRateBps).getD 0)

/-- What a typed row keeps of an event. -/
def kept (zero : δ) : Event δ → Event δ
  | .book market assetId timestamp bids asks _ =>
    .book market assetId (plainTimestamp timestamp) bids asks none
  | .priceChange market assetId timestamp bestBid bestAsk _ price size side =>
    .priceChange market assetId (plainTimestamp timestamp) (some (bestBid.getD zero))
      (some (bestAsk.getD zero)) none price size side
  | .lastTradePrice market assetId timestamp price size side feeRateBps transactionHash =>
    .lastTradePrice market assetId (plainTimestamp timestamp) price size side
      (plainFee feeRateBps) transactionHash
  | .tickSizeChange market assetId timestamp oldTickSize newTickSize =>
    .tickSizeChange market assetId (plainTimestamp timestamp) oldTickSize newTickSize

/-- The line that a typed batch has for an event with a number for its timestamp. -/
def typedLine (event : Event δ) : String :=
  (typedRowValue event ((parseI64 event.timestamp).getD 0)).value.text

/-- The timestamp is a number. -/
def Numbered (event : Event δ) : Prop := (parseI64 event.timestamp).isSome

instance (event : Event δ) : Decidable (Numbered event) :=
  inferInstanceAs (Decidable ((parseI64 event.timestamp).isSome = true))

end Reading

section Numbers

theorem parseU16_bound {source : String} {value : Nat} (parsed : parseU16 source = some value) :
    value < 2 ^ 16 := by
  unfold parseU16 at parsed
  split at parsed
  all_goals
    obtain ⟨number, -, within⟩ := Option.bind_eq_some_iff.mp parsed
    obtain ⟨small, same⟩ := Option.ite_none_right_eq_some.mp within
    rw [← Option.some.inj same]
    exact small

/-- A 16 bit number is read back from its digits. -/
theorem parseU16_toString {value : Nat} (small : value < 2 ^ 16) :
    parseU16 (toString value) = some value := by
  have digits := parseDigits_repr value
  change parseU16 value.repr = _
  unfold parseU16
  split
  · rename_i rest spelled
    have digit := Json.isDigit_of_mem_repr (spelled ▸ List.mem_cons_self : '+' ∈ value.repr.toList)
    exact absurd digit (by decide)
  · rw [digits, Option.bind_some, if_pos small]

/-- The digits of a fee rate stand for themselves. -/
theorem plainFee_again (feeRateBps : String) :
    (parseU16 (plainFee feeRateBps)).getD 0 = (parseU16 feeRateBps).getD 0 := by
  have small : (parseU16 feeRateBps).getD 0 < 2 ^ 16 := by
    cases parsed : parseU16 feeRateBps with
    | none => decide
    | some value => exact parseU16_bound parsed
  rw [plainFee, parseU16_toString small, Option.getD_some]

/-- So do those of a timestamp. -/
theorem plainTimestamp_again {timestamp : String} {value : Int}
    (parsed : parseI64 timestamp = some value) :
    plainTimestamp timestamp = toString value ∧
      parseI64 (plainTimestamp timestamp) = some value := by
  have spelled : plainTimestamp timestamp = toString value := by
    rw [plainTimestamp, parsed]
    rfl
  obtain ⟨lower, upper⟩ := parseI64_bounds parsed
  refine ⟨spelled, ?_⟩
  rw [spelled, parseI64_toString lower upper]

end Numbers

section Rows

variable {δ : Type} [Decimal δ]

/-- A row is within the reader's limits if its levels are. -/
theorem readable_value {row : TypedRow} (bids : Json.ReadableItems 125 row.bids)
    (asks : Json.ReadableItems 125 row.asks) : Json.Readable recursionLimit row.value := by
  have fee := Json.readable_integer 126 row.feeRateBps
  have stamp := Json.readable_integer 126 row.timestamp
  simp only [TypedRow.value, recursionLimit, Json.Readable, Json.ReadableMembers, and_true,
    true_and]
  exact ⟨asks, bids, fee, stamp⟩

/-- The row of an event is. -/
theorem readable_typedRow (event : Event δ) (timestampMs : Int) :
    Json.Readable recursionLimit (typedRowValue event timestampMs).value := by
  have levels (levels : List (Level δ)) :
      Json.ReadableItems 125 (levels.map Level.serialize) := by
    rw [Json.readableItems_iff]
    intro item member
    obtain ⟨level, _, rfl⟩ := List.mem_map.mp member
    simp [Level.serialize, Json.Readable, Json.ReadableItems]
  cases event with
  | book market assetId timestamp bids asks hash =>
    exact readable_value (levels bids) (levels asks)
  | priceChange | lastTradePrice | tickSizeChange =>
    exact readable_value (levels []) (levels [])

/-- A text is read with the columns it was written with. -/
theorem columnsOf_text {columns : Columns}
    (readable : Json.Readable recursionLimit (.object columns)) :
    columnsOf (Json.text (.object columns)) = some columns := by
  rw [columnsOf, Json.parse_text recursionLimit _ readable]

/-- The columns of a row as it is written. -/
def columns (row : TypedRow) : Columns :=
  match row.value with
  | .object columns => columns
  | _ => []

theorem columnsOf_typedLine (event : Event δ) :
    columnsOf (typedLine event) =
      some (columns (typedRowValue event ((parseI64 event.timestamp).getD 0))) :=
  columnsOf_text (readable_typedRow event _)

/-- Rows of either schema have the columns of its insert, each once. -/
theorem row_columns (config : SinkConfig) (event : Event δ) (timestampMs : Int) :
    ∃ columns, columnsOf (writeRow config event timestampMs) = some columns ∧
      (columns.map Prod.fst).Perm (insertColumns config.schema) := by
  cases schema : config.schema with
  | raw =>
    have readable : Json.Readable recursionLimit (.object [
        ("timestamp", .number (toString timestampMs)), ("market", .string event.market),
        ("event_type", .string event.kind.tag), ("data", .string (dataJson config event))]) := by
      simp only [recursionLimit, Json.Readable, Json.ReadableMembers, and_true]
      exact Json.readable_integer 126 timestampMs
    rw [writeRow, schema]
    exact ⟨_, columnsOf_text readable, List.Perm.refl _⟩
  | typed =>
    rw [writeRow, schema]
    refine ⟨columns (typedRowValue event timestampMs),
      columnsOf_text (readable_typedRow event timestampMs), ?_⟩
    change ["asks", "asset_id", "best_ask", "best_bid", "bids", "event_type", "fee_rate_bps",
      "market", "new_tick_size", "old_tick_size", "price", "side", "size", "timestamp",
      "transaction_hash"].Perm (insertColumns .typed)
    decide

/-- An absent quote is written as zero is. -/
theorem quoteOrZero_getD {zero : δ} (isZero : Decimal.toString zero = "0") (quote : Option δ) :
    quoteOrZero (some (quote.getD zero)) = quoteOrZero quote := by
  cases quote with
  | none => exact isZero
  | some value => rfl

/-- What is kept of an event has the same row. -/
theorem typedRowValue_kept {zero : δ} (isZero : Decimal.toString zero = "0") (event : Event δ)
    (timestampMs : Int) :
    typedRowValue (kept zero event) timestampMs = typedRowValue event timestampMs := by
  cases event with
  | book | tickSizeChange => rfl
  | priceChange => simp only [kept, typedRowValue, quoteOrZero_getD isZero]
  | lastTradePrice => simp only [kept, typedRowValue, plainFee_again]

omit [Decimal δ] in
theorem timestamp_kept (zero : δ) (event : Event δ) :
    (kept zero event).timestamp = plainTimestamp event.timestamp := by
  cases event <;> rfl

/-- A quote is read back, zero for an absent one. -/
theorem fromStr_quoteOrZero {zero : δ} (isZero : Decimal.toString zero = "0")
    (quote : Option δ) : Decimal.fromStr (quoteOrZero quote) = some (quote.getD zero) := by
  rw [← quoteOrZero_getD isZero]
  exact Decimal.fromStr_toString _

/-- The columns of a row are read as what is kept of the event. -/
theorem readColumns_typedRow {zero : δ} (isZero : Decimal.toString zero = "0") {event : Event δ}
    {timestampMs : Int} (parsed : parseI64 event.timestamp = some timestampMs) :
    readColumns (columns (typedRowValue event timestampMs)) = some (kept zero event) := by
  obtain ⟨spelled, _⟩ := plainTimestamp_again parsed
  cases event with
  | book market assetId timestamp bids asks hash =>
    rw [Event.timestamp] at spelled
    simp [readColumns, columns, TypedRow.value, typedRowValue, readNumber, readText, readLevels,
      lookup, Kind.tag, kept, spelled, bind, Except.bind, Except.toOption]
  | priceChange market assetId timestamp bestBid bestAsk hash price size side =>
    rw [Event.timestamp] at spelled
    simp [readColumns, columns, TypedRow.value, typedRowValue, readNumber, readText, readDecimal,
      lookup, Kind.tag, kept, spelled, fromStr_quoteOrZero isZero, Decimal.fromStr_toString, bind,
      Except.bind]
  | lastTradePrice market assetId timestamp price size side feeRateBps transactionHash =>
    rw [Event.timestamp] at spelled
    simp [readColumns, columns, TypedRow.value, typedRowValue, readNumber, readText, readDecimal,
      lookup, Kind.tag, kept, spelled, plainFee, Decimal.fromStr_toString, bind, Except.bind]
  | tickSizeChange market assetId timestamp oldTickSize newTickSize =>
    rw [Event.timestamp] at spelled
    simp [readColumns, columns, TypedRow.value, typedRowValue, readNumber, readText, readDecimal,
      lookup, Kind.tag, kept, spelled, Decimal.fromStr_toString, bind, Except.bind]

/-- A typed row keeps of an event what its kind has columns for. -/
theorem keeps {zero : δ} (isZero : Decimal.toString zero = "0") :
    Lossy.Keeps Numbered typedLine readRow (kept zero) where
  stays := by
    intro event numbered
    obtain ⟨value, parsed⟩ := Option.isSome_iff_exists.mp numbered
    rw [Numbered, timestamp_kept, (plainTimestamp_again parsed).2]
    rfl
  written := by
    intro event numbered
    obtain ⟨value, parsed⟩ := Option.isSome_iff_exists.mp numbered
    rw [typedLine, typedLine, timestamp_kept, (plainTimestamp_again parsed).2, parsed,
      Option.getD_some, typedRowValue_kept isZero]
  read := by
    intro event numbered
    obtain ⟨value, parsed⟩ := Option.isSome_iff_exists.mp numbered
    rw [readRow, columnsOf_typedLine, parsed, Option.getD_some, Option.bind_some]
    exact readColumns_typedRow isZero parsed

end Rows

section Bodies

variable {δ : Type} [Decimal δ]

/-- The lines of a typed batch. -/
theorem serializeBatch_typed {config : SinkConfig} (typed : config.schema = .typed)
    {buffer : List (Event δ)} (numbered : ∀ event ∈ buffer, Numbered event) :
    serializeBatch config buffer = .ok (buffer.map typedLine) := by
  induction buffer with
  | nil => rfl
  | cons event rest inductionHypothesis =>
    have later := inductionHypothesis fun event member =>
      numbered event (List.mem_cons_of_mem _ member)
    obtain ⟨value, parsed⟩ := Option.isSome_iff_exists.mp (numbered event List.mem_cons_self)
    rw [serializeBatch, later, parsed, List.map_cons, typedLine, parsed]
    simp only [writeRow, typed, Except.map, Option.getD_some]

/-- A row is one line. -/
theorem newline_notMem_typedLine (event : Event δ) : '\n' ∉ (typedLine event).toList := by
  rw [typedLine, Json.text, String.toList_ofList]
  exact Json.newline_notMem_write _ recursionLimit (readable_typedRow event _)

/-- The body of a typed batch. -/
theorem serializeBody_typed {config : SinkConfig} (typed : config.schema = .typed)
    {buffer : List (Event δ)} (numbered : ∀ event ∈ buffer, Numbered event) :
    ∃ body, serializeBody config "" buffer = .ok body ∧
      body.toList = Terminated.join '\n' ((buffer.map typedLine).map String.toList) :=
  serializeBody_ok (serializeBatch_typed typed numbered) ""

/-- The lines of a batch have no line break. -/
theorem clean_lines (buffer : List (Event δ)) :
    ∀ segment ∈ (buffer.map typedLine).map String.toList, '\n' ∉ segment := by
  intro segment member
  obtain ⟨row, inRows, rfl⟩ := List.mem_map.mp member
  obtain ⟨event, _, rfl⟩ := List.mem_map.mp inRows
  exact newline_notMem_typedLine event

/-- The body of a typed batch splits at its line breaks into one row for each event, in order,
with the columns of the insert, from which all that is kept of the event is read. What is kept is
all: two batches have the same body just if the same is kept of their events. -/
theorem typed_body_keeps_events (config : SinkConfig) (typed : config.schema = .typed) {zero : δ}
    (isZero : Decimal.toString zero = "0") {buffer : List (Event δ)}
    (numbered : ∀ event ∈ buffer, Numbered event) :
    (∃ body rows, serializeBody config "" buffer = .ok body ∧
      body.toList.splitOn '\n' = rows.map String.toList ++ [[]] ∧
      List.Forall₂ (fun event row => ∃ columns, columnsOf row = some columns ∧
        (columns.map Prod.fst).Perm (insertColumns config.schema) ∧
        readColumns columns = some (kept zero event)) buffer rows) ∧
    ∀ other : List (Event δ), (∀ event ∈ other, Numbered event) →
      (serializeBody config "" buffer = serializeBody config "" other ↔
        buffer.map (kept zero) = other.map (kept zero)) := by
  obtain ⟨body, written, spelled⟩ := serializeBody_typed typed numbered
  constructor
  · refine ⟨body, buffer.map typedLine, written, ?_, ?_⟩
    · rw [spelled]
      exact Terminated.splitOn_join '\n' _ (clean_lines buffer)
    · rw [List.forall₂_map_right_iff, List.forall₂_same]
      intro event member
      obtain ⟨value, parsed⟩ := Option.isSome_iff_exists.mp (numbered event member)
      obtain ⟨columns, found, named⟩ := row_columns config event value
      have line : writeRow config event value = typedLine event := by
        rw [writeRow, typed, typedLine, parsed]
        rfl
      rw [line] at found
      refine ⟨columns, found, named, ?_⟩
      have read := (keeps isZero).read event (numbered event member)
      rw [readRow, found] at read
      exact read
  · intro other numberedOther
    obtain ⟨otherBody, otherWritten, otherSpelled⟩ := serializeBody_typed typed numberedOther
    rw [written, otherWritten, Except.ok.injEq,
      ← (keeps isZero).map_eq_iff numbered numberedOther]
    constructor
    · intro same
      have joined := Terminated.join_injective '\n' _ _ (clean_lines buffer) (clean_lines other)
        (by rw [← spelled, ← otherSpelled, same])
      exact List.map_injective_iff.mpr (fun _ _ => String.toList_inj.mp) joined
    · intro same
      apply String.toList_inj.mp
      rw [spelled, otherSpelled, same]

/-- A one-sided change and a trade with a fee that is no number. -/
def sampleBatch : List (Event PlainDecimal) :=
  [.priceChange "0xm" "a1" "+7" none (some .cent) (some "h1") .cent .cent "BUY",
    .lastTradePrice "0xm" "a1" "008" .cent .cent "SELL" "none" "0xt"]

theorem numbered_sampleBatch : ∀ event ∈ sampleBatch, Numbered event := by
  decide

theorem sample_batch_is_kept :
    (∃ body rows, serializeBody ⟨false, 2, .typed⟩ "" sampleBatch = .ok body ∧
      body.toList.splitOn '\n' = rows.map String.toList ++ [[]] ∧
      List.Forall₂ (fun event row => ∃ columns, columnsOf row = some columns ∧
        (columns.map Prod.fst).Perm (insertColumns .typed) ∧
        readColumns columns = some (kept ⟨"0", by decide⟩ event)) sampleBatch rows) ∧
    ∀ other : List (Event PlainDecimal), (∀ event ∈ other, Numbered event) →
      (serializeBody ⟨false, 2, .typed⟩ "" sampleBatch =
          serializeBody ⟨false, 2, .typed⟩ "" other ↔
        sampleBatch.map (kept ⟨"0", by decide⟩) = other.map (kept ⟨"0", by decide⟩)) :=
  typed_body_keeps_events ⟨false, 2, .typed⟩ rfl rfl numbered_sampleBatch

end Bodies

end Collector.TypedRows
