import Collector.Events
import Mathlib.Algebra.GroupWithZero.Nat

/-!
# Rows of the ClickHouse sink

One event becomes one line of a `JSONEachRow` body, in one of two schemas: the raw
one keeps the event as a JSON text in its `data` column, the typed one has a
column for each field and fills the others with defaults. Both need the timestamp
as a number, and the batch is given up at the first event whose timestamp is not
one. A fee rate that is not a number becomes zero instead.
-/

namespace Collector

open Serde

variable {δ : Type}

/-- The value of a nonempty run of digits. -/
def parseDigits (chars : List Char) : Option Nat :=
  if validDigits chars then
    some (chars.foldl (fun value digit => 10 * value + (digit.toNat - '0'.toNat)) 0)
  else none
where
  validDigits (chars : List Char) : Bool := !chars.isEmpty && chars.all Char.isDigit

/-- `str::parse::<i64>`: an optional sign and digits, within 64 bits. -/
def parseI64 (source : String) : Option Int :=
  match source.toList with
  | '-' :: digits =>
    (parseDigits digits).bind fun value => if value ≤ 2 ^ 63 then some (-value) else none
  | '+' :: digits =>
    (parseDigits digits).bind fun value => if value < 2 ^ 63 then some value else none
  | digits => (parseDigits digits).bind fun value => if value < 2 ^ 63 then some value else none

/-- `str::parse::<u16>`: an optional plus and digits, within 16 bits. -/
def parseU16 (source : String) : Option Nat :=
  match source.toList with
  | '+' :: digits => (parseDigits digits).bind fun value => if value < 2 ^ 16 then some value else none
  | digits => (parseDigits digits).bind fun value => if value < 2 ^ 16 then some value else none

example : parseI64 "-9223372036854775808" = some (-9223372036854775808) := by decide

/-- The on-disk schema. -/
inductive SinkSchema where
  | raw
  | typed
deriving DecidableEq

/-- What the configuration says about batches and rows. -/
structure SinkConfig where
  excludeHash : Bool
  batchSize : Nat
  schema : SinkSchema

/-- Null out the order book hash; a transaction hash stays. -/
def Event.stripHash : Event δ → Event δ
  | .book market assetId timestamp bids asks _ => .book market assetId timestamp bids asks none
  | .priceChange market assetId timestamp bestBid bestAsk _ price size side =>
    .priceChange market assetId timestamp bestBid bestAsk none price size side
  | event => event

section Encoding

variable [Decimal δ]

/-- The raw row: the event as a text within the row's own JSON. -/
def writeRawRow (config : SinkConfig) (event : Event δ) (timestampMs : Int) : String :=
  let stored := if config.excludeHash then event.stripHash else event
  Json.text (.object [("timestamp", .number (toString timestampMs)),
    ("market", .string event.market), ("event_type", .string event.kind.tag),
    ("data", .string stored.serialize.text)])

/-- The columns of a typed row, with the defaults of those an event does not
have. -/
structure TypedRow where
  timestamp : Int
  market : String
  eventType : String
  assetId : String
  bids : List Json := []
  asks : List Json := []
  price : String := "0"
  size : String := "0"
  side : String := ""
  bestBid : String := "0"
  bestAsk : String := "0"
  feeRateBps : Nat := 0
  transactionHash : String := ""
  oldTickSize : String := "0"
  newTickSize : String := "0"

/-- The row as a value. A map keeps its members in the order of their names. -/
def TypedRow.value (row : TypedRow) : Json :=
  .object [("asks", .array row.asks), ("asset_id", .string row.assetId),
    ("best_ask", .string row.bestAsk), ("best_bid", .string row.bestBid),
    ("bids", .array row.bids), ("event_type", .string row.eventType),
    ("fee_rate_bps", .number (toString row.feeRateBps)), ("market", .string row.market),
    ("new_tick_size", .string row.newTickSize), ("old_tick_size", .string row.oldTickSize),
    ("price", .string row.price), ("side", .string row.side), ("size", .string row.size),
    ("timestamp", .number (toString row.timestamp)),
    ("transaction_hash", .string row.transactionHash)]

/-- An optional quote, or the default of its column. -/
def quoteOrZero (quote : Option δ) : String := (quote.map Decimal.toString).getD "0"

/-- The typed row of an event. -/
def typedRowValue (event : Event δ) (timestampMs : Int) : TypedRow :=
  match event with
  | .book market assetId _ bids asks _ => {
      timestamp := timestampMs
      market := market
      eventType := "book"
      assetId := assetId
      bids := bids.map Level.serialize
      asks := asks.map Level.serialize }
  | .priceChange market assetId _ bestBid bestAsk _ price size side => {
      timestamp := timestampMs
      market := market
      eventType := "price_change"
      assetId := assetId
      price := Decimal.toString price
      size := Decimal.toString size
      side := side
      bestBid := quoteOrZero bestBid
      bestAsk := quoteOrZero bestAsk }
  | .lastTradePrice market assetId _ price size side feeRateBps transactionHash => {
      timestamp := timestampMs
      market := market
      eventType := "last_trade_price"
      assetId := assetId
      price := Decimal.toString price
      size := Decimal.toString size
      side := side
      -- a bad fee rate does not cost the batch
      feeRateBps := (parseU16 feeRateBps).getD 0
      transactionHash := transactionHash }
  | .tickSizeChange market assetId _ oldTickSize newTickSize => {
      timestamp := timestampMs
      market := market
      eventType := "tick_size_change"
      assetId := assetId
      oldTickSize := Decimal.toString oldTickSize
      newTickSize := Decimal.toString newTickSize }

/-- The line of one event. -/
def writeRow (config : SinkConfig) (event : Event δ) (timestampMs : Int) : String :=
  match config.schema with
  | .raw => writeRawRow config event timestampMs
  | .typed => (typedRowValue event timestampMs).value.text

/-- The lines of a body, or the timestamp at which the batch was given up. -/
def serializeBatch (config : SinkConfig) : List (Event δ) → Except String (List String)
  | [] => .ok []
  | event :: rest =>
    match parseI64 event.timestamp with
    | some timestampMs =>
      (serializeBatch config rest).map fun body => writeRow config event timestampMs :: body
    | none => .error event.timestamp

end Encoding

end Collector
