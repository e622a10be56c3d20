import Collector.Library.Serde

/-!
# Event types and the wire shapes they come from

A wire message is what the websocket parser accepts; `explode` turns it into the
events that travel through the pipeline, one for each entry of a price change
and one for every other message. An event is encoded as an internally tagged
object and decoded by its derived decoder. Encoder and decoder are written field
by field after the attributes of the source.

Decimals are a parameter: a type with the crate's printing and parsing, and its
documented round trip.
-/

namespace Collector

open Serde

/-- The decimal crate as far as events use it. A decimal printed with
`to_string` parses back to itself, and the empty string is no decimal. -/
class Decimal (δ : Type) where
  toString : δ → String
  fromStr : String → Option δ
  fromScientific : String → Option δ
  fromStr_toString : ∀ value, fromStr (toString value) = some value
  fromStr_empty : fromStr "" = none

/-- Plain notation as the crate prints it: an optional sign, an integer without
redundant zeros, and optionally a point with further digits. -/
def plainNotation (source : String) : Bool :=
  let unsigned := match source.toList with
    | '-' :: rest => rest
    | chars => chars
  let whole := unsigned.takeWhile Char.isDigit
  let fraction := match unsigned.dropWhile Char.isDigit with
    | [] => true
    | '.' :: digits => !digits.isEmpty && digits.all Char.isDigit
    | _ => false
  (whole = ['0'] || (!whole.isEmpty && whole.head? ≠ some '0')) && fraction

/-- A decimal given by its printed form, which keeps its sign and its scale. -/
structure PlainDecimal where
  source : String
  plain : plainNotation source = true
deriving DecidableEq

instance : Decimal PlainDecimal where
  toString value := value.source
  fromStr source := if plain : plainNotation source = true then some ⟨source, plain⟩ else none
  fromScientific _ := none
  fromStr_toString value := dif_pos value.plain
  fromStr_empty := dif_neg (by decide)

/-- The usual tick size and the one near the ends of the price range. -/
def PlainDecimal.cent : PlainDecimal := ⟨"0.01", by decide⟩

def PlainDecimal.tenthOfCent : PlainDecimal := ⟨"0.001", by decide⟩

variable {δ : Type}

/-- A price level as the websocket sends it. -/
structure WireLevel (δ : Type) where
  price : δ
  size : δ

/-- A book snapshot as the websocket sends it. -/
structure WireBook (δ : Type) where
  market : String
  assetId : String
  timestamp : String
  bids : List (WireLevel δ)
  asks : List (WireLevel δ)
  hash : String

/-- One entry of a price change. -/
structure WirePriceChangeEntry (δ : Type) where
  assetId : String
  price : δ
  size : δ
  side : String
  bestBid : Option δ
  bestAsk : Option δ
  hash : String

/-- A price change with its entries. -/
structure WirePriceChange (δ : Type) where
  market : String
  timestamp : String
  priceChanges : List (WirePriceChangeEntry δ)

/-- A trade. -/
structure WireLastTradePrice (δ : Type) where
  market : String
  assetId : String
  timestamp : String
  price : δ
  size : δ
  side : String
  feeRateBps : String
  transactionHash : String

/-- A change of tick size. -/
structure WireTickSizeChange (δ : Type) where
  market : String
  assetId : String
  timestamp : String
  oldTickSize : δ
  newTickSize : δ

/-- A message the websocket parser accepts. -/
inductive WireMessage (δ : Type) where
  | book (message : WireBook δ)
  | priceChange (message : WirePriceChange δ)
  | lastTradePrice (message : WireLastTradePrice δ)
  | tickSizeChange (message : WireTickSizeChange δ)

/-- A price level of an event. -/
structure Level (δ : Type) where
  price : δ
  size : δ
deriving DecidableEq

/-- The event that reaches the sinks, one row each. -/
inductive Event (δ : Type) where
  | book (market assetId timestamp : String) (bids asks : List (Level δ)) (hash : Option String)
  | priceChange (market assetId timestamp : String) (bestBid bestAsk : Option δ)
      (hash : Option String) (price size : δ) (side : String)
  | lastTradePrice (market assetId timestamp : String) (price size : δ)
      (side feeRateBps transactionHash : String)
  | tickSizeChange (market assetId timestamp : String) (oldTickSize newTickSize : δ)
deriving DecidableEq

/-- The four kinds of event. -/
inductive Kind where
  | book
  | priceChange
  | lastTradePrice
  | tickSizeChange
deriving DecidableEq

/-- The `event_type` value of a kind. -/
def Kind.tag : Kind → String
  | .book => "book"
  | .priceChange => "price_change"
  | .lastTradePrice => "last_trade_price"
  | .tickSizeChange => "tick_size_change"

namespace Event

def kind : Event δ → Kind
  | .book .. => .book
  | .priceChange .. => .priceChange
  | .lastTradePrice .. => .lastTradePrice
  | .tickSizeChange .. => .tickSizeChange

def assetId : Event δ → String
  | .book _ assetId _ _ _ _ => assetId
  | .priceChange _ assetId _ _ _ _ _ _ _ => assetId
  | .lastTradePrice _ assetId _ _ _ _ _ _ => assetId
  | .tickSizeChange _ assetId _ _ _ => assetId

def market : Event δ → String
  | .book market _ _ _ _ _ => market
  | .priceChange market _ _ _ _ _ _ _ _ => market
  | .lastTradePrice market _ _ _ _ _ _ _ => market
  | .tickSizeChange market _ _ _ _ => market

def timestamp : Event δ → String
  | .book _ _ timestamp _ _ _ => timestamp
  | .priceChange _ _ timestamp _ _ _ _ _ _ => timestamp
  | .lastTradePrice _ _ timestamp _ _ _ _ _ => timestamp
  | .tickSizeChange _ _ timestamp _ _ => timestamp

end Event

/-- A wire level becomes an event level field by field. -/
def Level.ofWire (level : WireLevel δ) : Level δ := ⟨level.price, level.size⟩

/-- The events of one message. A price change fans out into one event for each
entry, with the market and timestamp of the message. -/
def explode : WireMessage δ → List (Event δ)
  | .book b =>
    [.book b.market b.assetId b.timestamp (b.bids.map Level.ofWire) (b.asks.map Level.ofWire)
      (some b.hash)]
  | .priceChange pc => pc.priceChanges.map fun e =>
    .priceChange pc.market e.assetId pc.timestamp e.bestBid e.bestAsk (some e.hash) e.price e.size
      e.side
  | .lastTradePrice t =>
    [.lastTradePrice t.market t.assetId t.timestamp t.price t.size t.side t.feeRateBps
      t.transactionHash]
  | .tickSizeChange c =>
    [.tickSizeChange c.market c.assetId c.timestamp c.oldTickSize c.newTickSize]

/-- A binary market: its condition id and its two outcome assets. -/
structure Market where
  hash : String
  yes : String
  no : String
deriving DecidableEq

/-- The two assets in order. -/
def Market.assets (market : Market) : List String := [market.yes, market.no]

section Encoding

variable [Decimal δ]

/-- `rust_decimal::serde::str`: a decimal as its string. -/
def encodeDecimal (value : δ) : Json := .string (Decimal.toString value)

/-- `rust_decimal::serde::str`: plain notation first, then scientific. -/
def decodeDecimal (value : Json) : Except Error δ := do
  let source ← string value
  match Decimal.fromStr source <|> Decimal.fromScientific source with
  | some decimal => .ok decimal
  | none => .error (.custom "invalid decimal")

/-- `rust_decimal::serde::str_option` over a buffered value: an empty string is an
absent decimal, and null, which is no string, is refused. -/
def decodeOptionalDecimal (value : Json) : Except Error (Option δ) := do
  let source ← string value
  if source = "" then .ok none else (decodeDecimal value).map some

/-- A level is written as a pair of strings. -/
def Level.serialize (level : Level δ) : Json :=
  .array [.string (Decimal.toString level.price), .string (Decimal.toString level.size)]

/-- A level is read from an array of exactly two strings in plain notation. -/
def Level.deserialize : Json → Except Error (Level δ)
  | .array [first, second] => do
    let priceSource ← string first
    let sizeSource ← string second
    let some price := Decimal.fromStr priceSource | .error (.custom "invalid decimal")
    let some size := Decimal.fromStr sizeSource | .error (.custom "invalid decimal")
    .ok ⟨price, size⟩
  | .array _ => .error (.invalidLength 2)
  | _ => .error (.invalidType "an array of length 2")

/-- The derived encoder: the tag, then the fields in declaration order, without
the options that are absent. -/
def Event.serialize (event : Event δ) : Json :=
  let tag := ("event_type", Json.string event.kind.tag)
  match event with
  | .book market assetId timestamp bids asks hash =>
    .object (tag :: ("market", .string market) :: ("asset_id", .string assetId) ::
      ("timestamp", .string timestamp) :: ("bids", .array (bids.map Level.serialize)) ::
      ("asks", .array (asks.map Level.serialize)) :: skipNone "hash" (hash.map .string))
  | .priceChange market assetId timestamp bestBid bestAsk hash price size side =>
    .object (tag :: ("market", .string market) :: ("asset_id", .string assetId) ::
      ("timestamp", .string timestamp) :: (skipNone "best_bid" (bestBid.map encodeDecimal) ++
      skipNone "best_ask" (bestAsk.map encodeDecimal) ++ skipNone "hash" (hash.map .string) ++
      [("price", encodeDecimal price), ("size", encodeDecimal size), ("side", .string side)]))
  | .lastTradePrice market assetId timestamp price size side feeRateBps transactionHash =>
    .object [tag, ("market", .string market), ("asset_id", .string assetId),
      ("timestamp", .string timestamp), ("price", encodeDecimal price),
      ("size", encodeDecimal size), ("side", .string side),
      ("fee_rate_bps", .string feeRateBps), ("transaction_hash", .string transactionHash)]
  | .tickSizeChange market assetId timestamp oldTickSize newTickSize =>
    .object [tag, ("market", .string market), ("asset_id", .string assetId),
      ("timestamp", .string timestamp), ("old_tick_size", encodeDecimal oldTickSize),
      ("new_tick_size", encodeDecimal newTickSize)]

/-- The derived decoder. `hash` is a plain option; `best_bid` and `best_ask` have
a custom decoder and no default. -/
def Event.deserialize : Json → Except Error (Event δ) :=
  tagged "event_type" fun tag fields =>
    if tag = Kind.book.tag then do
      let market ← requiredField 0 "market" string fields
      let assetId ← requiredField 1 "asset_id" string fields
      let timestamp ← requiredField 2 "timestamp" string fields
      let bids ← requiredField 3 "bids" (list Level.deserialize) fields
      let asks ← requiredField 4 "asks" (list Level.deserialize) fields
      let hash ← optionField 5 "hash" string fields
      closed 6 fields
      .ok (.book market assetId timestamp bids asks hash)
    else if tag = Kind.priceChange.tag then do
      let market ← requiredField 0 "market" string fields
      let assetId ← requiredField 1 "asset_id" string fields
      let timestamp ← requiredField 2 "timestamp" string fields
      let bestBid ← requiredField 3 "best_bid" decodeOptionalDecimal fields
      let bestAsk ← requiredField 4 "best_ask" decodeOptionalDecimal fields
      let hash ← optionField 5 "hash" string fields
      let price ← requiredField 6 "price" decodeDecimal fields
      let size ← requiredField 7 "size" decodeDecimal fields
      let side ← requiredField 8 "side" string fields
      closed 9 fields
      .ok (.priceChange market assetId timestamp bestBid bestAsk hash price size side)
    else if tag = Kind.lastTradePrice.tag then do
      let market ← requiredField 0 "market" string fields
      let assetId ← requiredField 1 "asset_id" string fields
      let timestamp ← requiredField 2 "timestamp" string fields
      let price ← requiredField 3 "price" decodeDecimal fields
      let size ← requiredField 4 "size" decodeDecimal fields
      let side ← requiredField 5 "side" string fields
      let feeRateBps ← requiredField 6 "fee_rate_bps" string fields
      let transactionHash ← requiredField 7 "transaction_hash" string fields
      closed 8 fields
      .ok (.lastTradePrice market assetId timestamp price size side feeRateBps transactionHash)
    else if tag = Kind.tickSizeChange.tag then do
      let market ← requiredField 0 "market" string fields
      let assetId ← requiredField 1 "asset_id" string fields
      let timestamp ← requiredField 2 "timestamp" string fields
      let oldTickSize ← requiredField 3 "old_tick_size" decodeDecimal fields
      let newTickSize ← requiredField 4 "new_tick_size" decodeDecimal fields
      closed 5 fields
      .ok (.tickSizeChange market assetId timestamp oldTickSize newTickSize)
    else .error (.unknownVariant tag)

end Encoding

end Collector
