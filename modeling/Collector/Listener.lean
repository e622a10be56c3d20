import Collector.Library.PyJson
import Collector.Snippets
import Mathlib.Data.List.AList

/-!
# The listener of the Python connection

What `_handle_message` makes of a text: it reads the JSON, takes the items of an array one by
one, and hands what is wanted to the callbacks of its kind. A handler that raises is logged;
what it has handed over by then stays. The values of a message are taken as they come, only
prices and sizes are made decimals.

The connection that the Rust task ports reads the same frames. `Heard` says that a callback
got what an event of the Rust connection carries.
-/

namespace Collector.Listener

open PyValue (points get ofString ofJson)

variable {π : Type}

/-- The parts of Python's library that the listener uses: `json.loads`, `str`, `Decimal` of a
string, and whether a number is zero. -/
structure Library (π : Type) where
  loads : String → Option PyValue
  str : PyValue → PyValue
  decimal : PyValue → Option π
  isZero : String → Bool

structure OrderBookSnapshot (π : Type) where
  assetId : String
  market : PyValue
  bids : List (Level π)
  asks : List (Level π)
  timestamp : PyValue
  hash : PyValue

structure PriceChange (π : Type) where
  assetId : String
  market : PyValue
  price : π
  size : π
  side : PyValue
  bestBid : Option π
  bestAsk : Option π
  timestamp : PyValue
  hash : Option PyValue

structure LastTradePrice (π : Type) where
  assetId : String
  market : PyValue
  price : π
  size : π
  side : PyValue
  feeRateBps : PyValue
  transactionHash : PyValue
  timestamp : PyValue

structure TickSizeChange (π : Type) where
  assetId : String
  market : PyValue
  oldTickSize : π
  newTickSize : π
  timestamp : PyValue

/-- A call of one of the four callbacks. -/
inductive Callback (π : Type) where
  | book (snapshot : OrderBookSnapshot π)
  | priceChange (change : PriceChange π)
  | lastTradePrice (trade : LastTradePrice π)
  | tickSizeChange (change : TickSizeChange π)

abbrev Members := List (List Nat × PyValue)

/-- `data.get(name, default)` -/
def getD (name default : String) (data : Members) : PyValue :=
  (get name data).getD (ofString default)

/-- `value in desired`, with the asset if it is. A list or a dictionary cannot be hashed. -/
def contains (desired : Finset String) : PyValue → Option (Option String)
  | .list _ | .dict _ => none
  | .str codes => some ((PyValue.textOf codes).filter fun asset => asset ∈ desired)
  | _ => some none

/-- `for item in value` -/
def iterate : PyValue → Option (List PyValue)
  | .list items => some items
  | .str codes => some (codes.map fun code => .str [code])
  | .dict members => some (members.map fun member => .str member.1)
  | _ => none

/-- `bool(value)` -/
def truthy (python : Library π) : PyValue → Bool
  | .null => false
  | .bool value => value
  | .number lexeme => !python.isZero lexeme
  | .nonFinite => true
  | .str codes => !codes.isEmpty
  | .list items => !items.isEmpty
  | .dict members => !members.isEmpty

section Handlers

variable (python : Library π) (desired : Finset String)

/-- `Decimal(str(value))` -/
def decimal (value : PyValue) : Option π := python.decimal (python.str value)

def level : PyValue → Option (Level π)
  | .dict members => do
    let price ← decimal python (getD "price" "0" members)
    let size ← decimal python (getD "size" "0" members)
    some ⟨price, size⟩
  | _ => none

/-- The levels of one side, none if there is no such side. -/
def levels (name : String) (data : Members) : Option (List (Level π)) := do
  let items ← iterate ((get name data).getD (.list []))
  items.mapM (level python)

/-- A quote, absent if there is nothing in its place. -/
def quote (name : String) (change : Members) : Option (Option π) :=
  let value := (get name change).getD .null
  if truthy python value then (decimal python value).map some else some none

/-- `_handle_book`; `none` if the asset is not wanted or the handler raises. -/
def handleBook (data : Members) : Option (OrderBookSnapshot π) := do
  let asset ← contains desired (getD "asset_id" "" data)
  let assetId ← asset
  let bids ← levels python "bids" data
  let asks ← levels python "asks" data
  some {
    assetId := assetId
    market := getD "market" "" data
    bids := bids
    asks := asks
    timestamp := getD "timestamp" "" data
    hash := getD "hash" "" data }

/-- One entry of a price change: nothing if it raises, and no change if its asset is not
wanted. -/
def priceChange (market timestamp : PyValue) : PyValue → Option (Option (PriceChange π))
  | .dict change => do
    match ← contains desired (getD "asset_id" "" change) with
    | none => some none
    | some assetId =>
      let price ← decimal python (getD "price" "0" change)
      let size ← decimal python (getD "size" "0" change)
      let bestBid ← quote python "best_bid" change
      let bestAsk ← quote python "best_ask" change
      let hash := (get "hash" change).getD .null
      some (some {
        assetId := assetId
        market := market
        price := price
        size := size
        side := getD "side" "" change
        bestBid := bestBid
        bestAsk := bestAsk
        timestamp := timestamp
        hash := if truthy python hash then some hash else none })
  | _ => none

/-- The entries up to the first that raises. -/
def priceChanges (market timestamp : PyValue) : List PyValue → List (PriceChange π)
  | [] => []
  | entry :: rest =>
    match priceChange python desired market timestamp entry with
    | none => []
    | some none => priceChanges market timestamp rest
    | some (some change) => change :: priceChanges market timestamp rest

/-- `_handle_price_change` -/
def handlePriceChange (data : Members) : List (PriceChange π) :=
  match iterate ((get "price_changes" data).getD (.list [])) with
  | none => []
  | some entries =>
    priceChanges python desired (getD "market" "" data) (getD "timestamp" "" data) entries

/-- `_handle_last_trade_price` -/
def handleLastTradePrice (data : Members) : Option (LastTradePrice π) := do
  let asset ← contains desired (getD "asset_id" "" data)
  let assetId ← asset
  let price ← decimal python (getD "price" "0" data)
  let size ← decimal python (getD "size" "0" data)
  some {
    assetId := assetId
    market := getD "market" "" data
    price := price
    size := size
    side := getD "side" "" data
    feeRateBps := python.str (getD "fee_rate_bps" "" data)
    transactionHash := getD "transaction_hash" "" data
    timestamp := getD "timestamp" "" data }

/-- `_handle_tick_size_change` -/
def handleTickSizeChange (data : Members) : Option (TickSizeChange π) := do
  let asset ← contains desired (getD "asset_id" "" data)
  let assetId ← asset
  let oldTickSize ← decimal python (getD "old_tick_size" "0" data)
  let newTickSize ← decimal python (getD "new_tick_size" "0" data)
  some {
    assetId := assetId
    market := getD "market" "" data
    oldTickSize := oldTickSize
    newTickSize := newTickSize
    timestamp := getD "timestamp" "" data }

/-- `_process_event` -/
def processEvent : PyValue → List (Callback π)
  | .dict data =>
    let eventType := (get "event_type" data).getD .null
    if eventType.isText Kind.book.tag then
      (handleBook python desired data).toList.map .book
    else if eventType.isText Kind.priceChange.tag then
      (handlePriceChange python desired data).map .priceChange
    else if eventType.isText Kind.lastTradePrice.tag then
      (handleLastTradePrice python desired data).toList.map .lastTradePrice
    else if eventType.isText Kind.tickSizeChange.tag then
      (handleTickSizeChange python desired data).toList.map .tickSizeChange
    else []
  | _ => []

/-- The events of a message that has been read. -/
def processData : PyValue → List (Callback π)
  | .list items => items.flatMap (processEvent python desired)
  | data => processEvent python desired data

end Handlers

/-- The white space that `strip` removes. -/
def isSpace (char : Char) : Bool :=
  Snippets.isWhiteSpace char || (0x1C ≤ char.toNat && char.toNat ≤ 0x1F)

def strip (source : String) : List Char := (source.toList.dropWhile isSpace).rdropWhile isSpace

structure PeriodStats where
  bookEvents : Nat
  priceChanges : Nat
  lastTradePrices : Nat
  tickSizeChanges : Nat

/-- One more event of its kind. -/
def PeriodStats.count (stats : PeriodStats) : Callback π → PeriodStats
  | .book _ => { stats with bookEvents := stats.bookEvents + 1 }
  | .priceChange _ => { stats with priceChanges := stats.priceChanges + 1 }
  | .lastTradePrice _ => { stats with lastTradePrices := stats.lastTradePrices + 1 }
  | .tickSizeChange _ => { stats with tickSizeChanges := stats.tickSizeChanges + 1 }

/-- What a connection wants, the books it knows, its counters, and what its callbacks were
given. -/
structure WebSocketConnection (π : Type) where
  desiredAssets : Finset String
  orderbooks : AList fun _ : String => OrderBookSnapshot π
  messageCount : Nat
  pongCount : Nat
  period : PeriodStats
  delivered : List (Callback π)

namespace WebSocketConnection

/-- A new connection. -/
def new : WebSocketConnection π where
  desiredAssets := ∅
  orderbooks := ∅
  messageCount := 0
  pongCount := 0
  period := ⟨0, 0, 0, 0⟩
  delivered := []

/-- Remember a book, count, and call. -/
def deliver (conn : WebSocketConnection π) (callback : Callback π) : WebSocketConnection π :=
  { conn with
    orderbooks := match callback with
      | .book snapshot => conn.orderbooks.insert snapshot.assetId snapshot
      | _ => conn.orderbooks
    period := conn.period.count callback
    delivered := conn.delivered ++ [callback] }

/-- `_handle_message` -/
def handleMessage (python : Library π) (conn : WebSocketConnection π) (source : String) :
    WebSocketConnection π :=
  let counted := { conn with messageCount := conn.messageCount + 1 }
  if strip source = [] then counted
  else if strip source = "PONG".toList then { counted with pongCount := conn.pongCount + 1 }
  else match python.loads source with
    | none => counted
    | some data => (processData python conn.desiredAssets data).foldl deliver counted

/-- What `subscribe` wants from now on, at most so many of the assets. -/
def subscribe (maxAssets : Nat) (conn : WebSocketConnection π) (assets : List String) :
    WebSocketConnection π :=
  { conn with desiredAssets := conn.desiredAssets ∪ (assets.take maxAssets).toFinset }

/-- What `unsubscribe` forgets before it sends. -/
def unsubscribe (conn : WebSocketConnection π) (assets : List String) : WebSocketConnection π :=
  assets.foldl (fun conn asset =>
    if asset ∈ conn.desiredAssets then { conn with
      desiredAssets := conn.desiredAssets.erase asset
      orderbooks := conn.orderbooks.erase asset }
    else conn) conn

end WebSocketConnection

section Agreement

variable {δ : Type} [Decimal δ]

/-- What the documentation of the two libraries says: within the limits both read the same
JSON, `str` leaves a string alone, and a text of a decimal is one for both. -/
structure Library.Documented (δ : Type) [Decimal δ] (finite : String → Bool)
    (python : Library π) : Prop where
  loads : ∀ source value, Json.Reads source value → WithinLimits finite value →
    python.loads source = some (ofJson value)
  str : ∀ text, python.str (ofString text) = ofString text
  decimal : ∀ text (value : δ), decodeDecimal (.string text) = .ok value →
    ∃ number, python.decimal (ofString text) = some number

/-- Both numbers are read from one text. -/
def Same (python : Library π) (value : δ) (number : π) : Prop :=
  ∃ text, decodeDecimal (.string text) = .ok value ∧
    python.decimal (ofString text) = some number

def SameLevel (python : Library π) (level : Level δ) (heard : Level π) : Prop :=
  Same python level.price heard.price ∧ Same python level.size heard.size

/-- The callback is given what the event carries. An empty hash of a price change counts as
none. -/
def Heard (python : Library π) : Event δ → Callback π → Prop
  | .book market assetId timestamp bids asks hash, .book snapshot =>
    snapshot.assetId = assetId ∧ snapshot.market = ofString market ∧
      snapshot.timestamp = ofString timestamp ∧ hash.map ofString = some snapshot.hash ∧
      List.Forall₂ (SameLevel python) bids snapshot.bids ∧
      List.Forall₂ (SameLevel python) asks snapshot.asks
  | .priceChange market assetId timestamp bestBid bestAsk hash price size side,
      .priceChange change =>
    change.assetId = assetId ∧ change.market = ofString market ∧
      change.timestamp = ofString timestamp ∧ change.side = ofString side ∧
      change.hash = (hash.filter (· ≠ "")).map ofString ∧
      Same python price change.price ∧ Same python size change.size ∧
      Option.Rel (Same python) bestBid change.bestBid ∧
      Option.Rel (Same python) bestAsk change.bestAsk
  | .lastTradePrice market assetId timestamp price size side feeRateBps transactionHash,
      .lastTradePrice trade =>
    trade.assetId = assetId ∧ trade.market = ofString market ∧
      trade.timestamp = ofString timestamp ∧ trade.side = ofString side ∧
      trade.feeRateBps = ofString feeRateBps ∧
      trade.transactionHash = ofString transactionHash ∧
      Same python price trade.price ∧ Same python size trade.size
  | .tickSizeChange market assetId timestamp oldTickSize newTickSize, .tickSizeChange change =>
    change.assetId = assetId ∧ change.market = ofString market ∧
      change.timestamp = ofString timestamp ∧
      Same python oldTickSize change.oldTickSize ∧ Same python newTickSize change.newTickSize
  | _, _ => False

/-- The arrays under a name hold objects only. -/
def HoldsObjects (name : String) (members : List (String × Json)) : Prop :=
  ∀ items, (name, Json.array items) ∈ members → ∀ item ∈ items, ∃ inner, item = .object inner

/-- A message as the exchange documents it: an object with its type by name, whose levels and
entries are objects. The Rust decoder takes arrays in their place as well. -/
def Plain (value : Json) : Prop :=
  ∃ members, value = .object members ∧
    (∀ tag, ("event_type", tag) ∈ members → ∃ text, tag = .string text) ∧
    HoldsObjects "bids" members ∧ HoldsObjects "asks" members ∧
    HoldsObjects "price_changes" members

/-- A frame of such messages. -/
def PlainFrame : Json → Prop
  | .array items => ∀ item ∈ items, Plain item
  | value => Plain value

/-- The dictionary has what a decoder finds, the tag aside. -/
def Mirrors (members : List (String × Json)) (data : Members) : Prop :=
  ∀ name found, name ≠ "event_type" → Serde.lookup name members = .ok found →
    get name data = found.map ofJson

theorem mirrors_ofMembers (members : List (String × Json)) :
    Mirrors members (PyValue.ofMembers members) :=
  fun _ _ _ looked => PyValue.get_ofMembers looked

theorem mirrors_filter (members : List (String × Json)) :
    Mirrors (members.filter fun member => member.1 ≠ "event_type")
      (PyValue.ofMembers members) := by
  intro name found different looked
  rw [Serde.lookup_filter different] at looked
  exact PyValue.get_ofMembers looked

theorem truthy_ofString (python : Library π) (text : String) :
    truthy python (ofString text) = decide (text ≠ "") := by
  by_cases empty : text = ""
  · subst empty
    rfl
  · simp [truthy, ofString, points, empty]

section Fields

variable {members : List (String × Json)} {data : Members} {position : Nat} {name : String}
  {python : Library π} {finite : String → Bool}

/-- A text field is the same string. -/
theorem getD_text (mirrors : Mirrors members data) (different : name ≠ "event_type")
    {text : String}
    (decoded : Serde.requiredField position name Serde.string (.named members) = .ok text)
    (default : String) : getD name default data = ofString text := by
  obtain ⟨json, looked, isText⟩ := Serde.named_field decoded
  obtain rfl := (Serde.string_ok_iff json text).mp isText
  rw [getD, mirrors name _ different looked]
  rfl

theorem decimal_string (documented : python.Documented δ finite) {json : Json} {value : δ}
    (decoded : decodeDecimal json = .ok value) :
    ∃ text number, json = .string text ∧ decimal python (ofJson json) = some number ∧
      Same python value number := by
  obtain ⟨text, isText, _⟩ := Serde.of_bind decoded
  obtain rfl := (Serde.string_ok_iff json text).mp isText
  obtain ⟨number, read⟩ := documented.decimal text value decoded
  refine ⟨text, number, rfl, ?_, text, decoded, read⟩
  rw [decimal, PyValue.ofJson, documented.str, read]

/-- A number field is the same number. -/
theorem decimal_field (documented : python.Documented δ finite) (mirrors : Mirrors members data)
    (different : name ≠ "event_type") {value : δ}
    (decoded : Serde.requiredField position name decodeDecimal (.named members) = .ok value)
    (default : String) :
    ∃ number, decimal python (getD name default data) = some number ∧
      Same python value number := by
  obtain ⟨json, looked, isDecimal⟩ := Serde.named_field decoded
  obtain ⟨text, number, _, read, same⟩ := decimal_string documented isDecimal
  refine ⟨number, ?_, same⟩
  rw [getD, mirrors name _ different looked]
  exact read

/-- A quote is the same number, or absent in both. -/
theorem quote_field (documented : python.Documented δ finite) (mirrors : Mirrors members data)
    (different : name ≠ "event_type") {value : Option δ}
    (decoded : Serde.defaultField position name none decodeOptionalDecimal
      (.named members) = .ok value) :
    ∃ heard, quote python name data = some heard ∧ Option.Rel (Same python) value heard := by
  obtain ⟨looked, rfl⟩ | ⟨json, looked, isQuote⟩ := Serde.named_default decoded
  · refine ⟨none, ?_, .none⟩
    rw [quote, mirrors name _ different looked]
    rfl
  · obtain ⟨text, isText, isQuote⟩ := Serde.of_bind isQuote
    obtain rfl := (Serde.string_ok_iff json text).mp isText
    by_cases empty : text = ""
    · -- The empty text is absence to the one decoder and falsy to the other.
      subst empty
      obtain rfl := Except.ok.inj isQuote
      refine ⟨none, ?_, .none⟩
      rw [quote, mirrors name _ different looked]
      rfl
    · rw [if_neg empty] at isQuote
      obtain ⟨value, isDecimal, rfl⟩ := Serde.of_map isQuote
      obtain ⟨_, number, _, read, same⟩ := decimal_string documented isDecimal
      have nonempty : truthy python (ofString text) = true := by
        rw [truthy_ofString]
        exact decide_eq_true empty
      refine ⟨some number, ?_, .some same⟩
      rw [quote, mirrors name _ different looked]
      simp only [Option.map_some, Option.getD_some, PyValue.ofJson, nonempty, if_true]
      rw [PyValue.ofJson] at read
      rw [read]
      rfl

/-- A level is the same level. -/
theorem level_heard (documented : python.Documented δ finite)
    {inner : List (String × Json)} {wire : WireLevel δ}
    (decoded : WireLevel.deserialize (.object inner) = .ok wire) :
    ∃ heard, level python (ofJson (.object inner)) = some heard ∧
      SameLevel python (Level.ofWire wire) heard := by
  have mirrors := mirrors_ofMembers inner
  obtain ⟨fields, isNamed, decoded⟩ := Serde.of_bind decoded
  obtain rfl := Except.ok.inj isNamed
  obtain ⟨price, readPrice, decoded⟩ := Serde.of_bind decoded
  obtain ⟨size, readSize, decoded⟩ := Serde.of_bind decoded
  obtain rfl := Except.ok.inj decoded
  obtain ⟨heardPrice, givesPrice, samePrice⟩ :=
    decimal_field documented mirrors (by decide) readPrice "0"
  obtain ⟨heardSize, givesSize, sameSize⟩ :=
    decimal_field documented mirrors (by decide) readSize "0"
  refine ⟨⟨heardPrice, heardSize⟩, ?_, samePrice, sameSize⟩
  rw [PyValue.ofJson, level, givesPrice, givesSize]
  rfl

/-- The levels of a side are the same levels. -/
theorem levels_field (documented : python.Documented δ finite) (mirrors : Mirrors members data)
    (different : name ≠ "event_type") (objects : HoldsObjects name members)
    {wire : List (WireLevel δ)}
    (decoded : Serde.requiredField position name (Serde.list WireLevel.deserialize)
      (.named members) = .ok wire) :
    ∃ heard, levels python name data = some heard ∧
      List.Forall₂ (SameLevel python) (wire.map Level.ofWire) heard := by
  obtain ⟨json, looked, isList⟩ := Serde.named_field decoded
  cases json with
  | null | bool | number | string | object => cases isList
  | array items =>
    have each := (Serde.mapM_ok_iff _ _ _).mp isList
    have plain := objects items (Serde.mem_of_lookup looked)
    obtain ⟨heard, read, same⟩ : ∃ heard,
        (items.map ofJson).mapM (level python) = some heard ∧
          List.Forall₂ (SameLevel python) (wire.map Level.ofWire) heard := by
      clear looked isList decoded
      induction each with
      | nil => exact ⟨[], rfl, .nil⟩
      | @cons item first items wire decoded _ inductionHypothesis =>
        obtain ⟨inner, rfl⟩ := plain item List.mem_cons_self
        obtain ⟨level, givesLevel, sameLevel⟩ := level_heard documented decoded
        obtain ⟨rest, givesRest, sameRest⟩ := inductionHypothesis fun item member =>
          plain item (List.mem_cons_of_mem _ member)
        refine ⟨level :: rest, ?_, .cons sameLevel sameRest⟩
        rw [List.map_cons, List.mapM_cons, givesLevel, givesRest]
        rfl
    refine ⟨heard, ?_, same⟩
    rw [levels, mirrors name _ different looked, Option.map_some, Option.getD_some,
      PyValue.ofJson, PyValue.ofItems_eq]
    exact read

end Fields

theorem contains_ofString (desired : Finset String) (asset : String) :
    contains desired (ofString asset) = some (if asset ∈ desired then some asset else none) := by
  simp [contains, ofString, Option.filter_some]

section Messages

variable {python : Library π} {finite : String → Bool} {members : List (String × Json)}

/-- The wanted events of a message and the calls it leads to. -/
def Echoes (python : Library π) (desired : Finset String) (events : List (Event δ))
    (calls : List (Callback π)) : Prop :=
  List.Forall₂ (Heard python) (events.filter fun event => event.assetId ∈ desired) calls

theorem book_heard (documented : python.Documented δ finite) (desired : Finset String)
    {fields : List (String × Json)} {data : Members} (mirrors : Mirrors fields data)
    (bids : HoldsObjects "bids" fields) (asks : HoldsObjects "asks" fields) {wire : WireBook δ}
    (decoded : WireBook.deserialize (.named fields) = .ok wire) :
    Echoes python desired (explode (.book wire))
      ((handleBook python desired data).toList.map .book) := by
  obtain ⟨market, readMarket, decoded⟩ := Serde.of_bind decoded
  obtain ⟨assetId, readAsset, decoded⟩ := Serde.of_bind decoded
  obtain ⟨timestamp, readTimestamp, decoded⟩ := Serde.of_bind decoded
  obtain ⟨wireBids, readBids, decoded⟩ := Serde.of_bind decoded
  obtain ⟨wireAsks, readAsks, decoded⟩ := Serde.of_bind decoded
  obtain ⟨hash, readHash, decoded⟩ := Serde.of_bind decoded
  obtain rfl := Except.ok.inj decoded
  have asset := getD_text mirrors (by decide) readAsset ""
  obtain ⟨heardBids, givesBids, sameBids⟩ :=
    levels_field documented mirrors (by decide) bids readBids
  obtain ⟨heardAsks, givesAsks, sameAsks⟩ :=
    levels_field documented mirrors (by decide) asks readAsks
  by_cases wanted : assetId ∈ desired
  · have made : handleBook python desired data = some ⟨assetId, ofString market, heardBids,
        heardAsks, ofString timestamp, ofString hash⟩ := by
      simp [handleBook, asset, contains_ofString, wanted, givesBids, givesAsks,
        getD_text mirrors (by decide) readMarket, getD_text mirrors (by decide) readTimestamp,
        getD_text mirrors (by decide) readHash]
    simp only [Echoes, explode, made, Event.assetId, wanted, decide_true, List.filter_cons_of_pos,
      List.filter_nil, Option.toList_some, List.map_cons, List.map_nil]
    exact .cons ⟨rfl, rfl, rfl, rfl, sameBids, sameAsks⟩ .nil
  · have none : handleBook python desired data = none := by
      simp [handleBook, asset, contains_ofString, wanted]
    simp [Echoes, explode, none, Event.assetId, wanted]

/-- One entry of a price change. -/
theorem entry_heard (documented : python.Documented δ finite) (desired : Finset String)
    (market timestamp : String) {inner : List (String × Json)} {wire : WirePriceChangeEntry δ}
    (decoded : WirePriceChangeEntry.deserialize (.object inner) = .ok wire) :
    ∃ heard, priceChange python desired (ofString market) (ofString timestamp)
        (ofJson (.object inner)) = some heard ∧
      Echoes python desired [Event.priceChange market wire.assetId timestamp wire.bestBid
        wire.bestAsk (some wire.hash) wire.price wire.size wire.side]
        (heard.toList.map .priceChange) := by
  have mirrors := mirrors_ofMembers inner
  obtain ⟨fields, isNamed, decoded⟩ := Serde.of_bind decoded
  obtain rfl := Except.ok.inj isNamed
  obtain ⟨assetId, readAsset, decoded⟩ := Serde.of_bind decoded
  obtain ⟨price, readPrice, decoded⟩ := Serde.of_bind decoded
  obtain ⟨size, readSize, decoded⟩ := Serde.of_bind decoded
  obtain ⟨side, readSide, decoded⟩ := Serde.of_bind decoded
  obtain ⟨bestBid, readBid, decoded⟩ := Serde.of_bind decoded
  obtain ⟨bestAsk, readAsk, decoded⟩ := Serde.of_bind decoded
  obtain ⟨hash, readHash, decoded⟩ := Serde.of_bind decoded
  obtain rfl := Except.ok.inj decoded
  have asset := getD_text mirrors (by decide) readAsset ""
  by_cases wanted : assetId ∈ desired
  · obtain ⟨heardPrice, givesPrice, samePrice⟩ :=
      decimal_field documented mirrors (by decide) readPrice "0"
    obtain ⟨heardSize, givesSize, sameSize⟩ :=
      decimal_field documented mirrors (by decide) readSize "0"
    obtain ⟨heardBid, givesBid, sameBid⟩ := quote_field documented mirrors (by decide) readBid
    obtain ⟨heardAsk, givesAsk, sameAsk⟩ := quote_field documented mirrors (by decide) readAsk
    obtain ⟨json, looked, isText⟩ := Serde.named_field readHash
    obtain rfl := (Serde.string_ok_iff json hash).mp isText
    have hashed := mirrors "hash" _ (by decide) looked
    let change : PriceChange π :=
      { assetId := assetId
        market := ofString market
        price := heardPrice
        size := heardSize
        side := ofString side
        bestBid := heardBid
        bestAsk := heardAsk
        timestamp := ofString timestamp
        hash := ((some hash).filter (· ≠ "")).map ofString }
    have made : priceChange python desired (ofString market) (ofString timestamp)
        (ofJson (.object inner)) = some (some change) := by
      by_cases empty : hash = "" <;>
        simp [priceChange, PyValue.ofJson, asset, contains_ofString, wanted, givesPrice, givesSize,
          givesBid, givesAsk, getD_text mirrors (by decide) readSide, hashed, truthy_ofString,
          change, empty]
    refine ⟨some change, made, ?_⟩
    simp only [Echoes, Event.assetId, wanted, decide_true, List.filter_cons_of_pos,
      List.filter_nil, Option.toList_some, List.map_cons, List.map_nil]
    exact .cons ⟨rfl, rfl, rfl, rfl, rfl, samePrice, sameSize, sameBid, sameAsk⟩ .nil
  · refine ⟨none, ?_, ?_⟩
    · simp [priceChange, PyValue.ofJson, asset, contains_ofString, wanted]
    · simp [Echoes, Event.assetId, wanted]

/-- The entries of a price change, of which none raises. -/
theorem entries_heard (documented : python.Documented δ finite) (desired : Finset String)
    (market timestamp : String) {items : List Json} {entries : List (WirePriceChangeEntry δ)}
    (plain : ∀ item ∈ items, ∃ inner, item = .object inner)
    (each : List.Forall₂ (fun item entry => WirePriceChangeEntry.deserialize item = .ok entry)
      items entries) :
    Echoes python desired (explode (.priceChange ⟨market, timestamp, entries⟩))
      ((priceChanges python desired (ofString market) (ofString timestamp)
        (items.map ofJson)).map .priceChange) := by
  induction each with
  | nil => exact .nil
  | @cons item first items entries decoded _ inductionHypothesis =>
    obtain ⟨inner, rfl⟩ := plain item List.mem_cons_self
    obtain ⟨heard, given, same⟩ := entry_heard documented desired market timestamp decoded
    have rest := inductionHypothesis fun item member => plain item (List.mem_cons_of_mem _ member)
    have calls : (priceChanges python desired (ofString market) (ofString timestamp)
        ((Json.object inner :: items).map ofJson)).map Callback.priceChange =
        heard.toList.map .priceChange ++ (priceChanges python desired (ofString market)
          (ofString timestamp) (items.map ofJson)).map .priceChange := by
      rw [List.map_cons, priceChanges, given]
      cases heard <;> rfl
    rw [calls, Echoes, explode, List.map_cons, ← List.singleton_append, List.filter_append]
    exact List.rel_append same rest

theorem priceChange_heard (documented : python.Documented δ finite) (desired : Finset String)
    {fields : List (String × Json)} {data : Members} (mirrors : Mirrors fields data)
    (objects : HoldsObjects "price_changes" fields) {wire : WirePriceChange δ}
    (decoded : WirePriceChange.deserialize (.named fields) = .ok wire) :
    Echoes python desired (explode (.priceChange wire))
      ((handlePriceChange python desired data).map .priceChange) := by
  obtain ⟨market, readMarket, decoded⟩ := Serde.of_bind decoded
  obtain ⟨timestamp, readTimestamp, decoded⟩ := Serde.of_bind decoded
  obtain ⟨entries, readEntries, decoded⟩ := Serde.of_bind decoded
  obtain rfl := Except.ok.inj decoded
  obtain ⟨json, looked, isList⟩ := Serde.named_field readEntries
  cases json with
  | null | bool | number | string | object => cases isList
  | array items =>
    have handled : handlePriceChange python desired data = priceChanges python desired
        (ofString market) (ofString timestamp) (items.map ofJson) := by
      simp only [handlePriceChange, mirrors "price_changes" _ (by decide) looked, Option.map_some,
        Option.getD_some, PyValue.ofJson, PyValue.ofItems_eq, iterate,
        getD_text mirrors (by decide) readMarket, getD_text mirrors (by decide) readTimestamp]
    rw [handled]
    exact entries_heard documented desired market timestamp
      (objects items (Serde.mem_of_lookup looked)) ((Serde.mapM_ok_iff _ _ _).mp isList)

theorem trade_heard (documented : python.Documented δ finite) (desired : Finset String)
    {fields : List (String × Json)} {data : Members} (mirrors : Mirrors fields data)
    {wire : WireLastTradePrice δ}
    (decoded : WireLastTradePrice.deserialize (.named fields) = .ok wire) :
    Echoes python desired (explode (.lastTradePrice wire))
      ((handleLastTradePrice python desired data).toList.map .lastTradePrice) := by
  obtain ⟨market, readMarket, decoded⟩ := Serde.of_bind decoded
  obtain ⟨assetId, readAsset, decoded⟩ := Serde.of_bind decoded
  obtain ⟨timestamp, readTimestamp, decoded⟩ := Serde.of_bind decoded
  obtain ⟨price, readPrice, decoded⟩ := Serde.of_bind decoded
  obtain ⟨size, readSize, decoded⟩ := Serde.of_bind decoded
  obtain ⟨side, readSide, decoded⟩ := Serde.of_bind decoded
  obtain ⟨feeRateBps, readFee, decoded⟩ := Serde.of_bind decoded
  obtain ⟨transactionHash, readTransaction, decoded⟩ := Serde.of_bind decoded
  obtain rfl := Except.ok.inj decoded
  have asset := getD_text mirrors (by decide) readAsset ""
  by_cases wanted : assetId ∈ desired
  · obtain ⟨heardPrice, givesPrice, samePrice⟩ :=
      decimal_field documented mirrors (by decide) readPrice "0"
    obtain ⟨heardSize, givesSize, sameSize⟩ :=
      decimal_field documented mirrors (by decide) readSize "0"
    have made : handleLastTradePrice python desired data = some ⟨assetId, ofString market,
        heardPrice, heardSize, ofString side, ofString feeRateBps, ofString transactionHash,
        ofString timestamp⟩ := by
      simp [handleLastTradePrice, asset, contains_ofString, wanted, givesPrice, givesSize,
        getD_text mirrors (by decide) readMarket, getD_text mirrors (by decide) readTimestamp,
        getD_text mirrors (by decide) readSide, getD_text mirrors (by decide) readFee,
        getD_text mirrors (by decide) readTransaction, documented.str]
    simp only [Echoes, explode, made, Event.assetId, wanted, decide_true, List.filter_cons_of_pos,
      List.filter_nil, Option.toList_some, List.map_cons, List.map_nil]
    exact .cons ⟨rfl, rfl, rfl, rfl, rfl, rfl, samePrice, sameSize⟩ .nil
  · have none : handleLastTradePrice python desired data = none := by
      simp [handleLastTradePrice, asset, contains_ofString, wanted]
    simp [Echoes, explode, none, Event.assetId, wanted]

theorem tick_heard (documented : python.Documented δ finite) (desired : Finset String)
    {fields : List (String × Json)} {data : Members} (mirrors : Mirrors fields data)
    {wire : WireTickSizeChange δ}
    (decoded : WireTickSizeChange.deserialize (.named fields) = .ok wire) :
    Echoes python desired (explode (.tickSizeChange wire))
      ((handleTickSizeChange python desired data).toList.map .tickSizeChange) := by
  obtain ⟨market, readMarket, decoded⟩ := Serde.of_bind decoded
  obtain ⟨assetId, readAsset, decoded⟩ := Serde.of_bind decoded
  obtain ⟨timestamp, readTimestamp, decoded⟩ := Serde.of_bind decoded
  obtain ⟨oldTickSize, readOld, decoded⟩ := Serde.of_bind decoded
  obtain ⟨newTickSize, readNew, decoded⟩ := Serde.of_bind decoded
  obtain rfl := Except.ok.inj decoded
  have asset := getD_text mirrors (by decide) readAsset ""
  by_cases wanted : assetId ∈ desired
  · obtain ⟨heardOld, givesOld, sameOld⟩ :=
      decimal_field documented mirrors (by decide) readOld "0"
    obtain ⟨heardNew, givesNew, sameNew⟩ :=
      decimal_field documented mirrors (by decide) readNew "0"
    have made : handleTickSizeChange python desired data = some ⟨assetId, ofString market,
        heardOld, heardNew, ofString timestamp⟩ := by
      simp [handleTickSizeChange, asset, contains_ofString, wanted, givesOld, givesNew,
        getD_text mirrors (by decide) readMarket, getD_text mirrors (by decide) readTimestamp]
    simp only [Echoes, explode, made, Event.assetId, wanted, decide_true, List.filter_cons_of_pos,
      List.filter_nil, Option.toList_some, List.map_cons, List.map_nil]
    exact .cons ⟨rfl, rfl, rfl, sameOld, sameNew⟩ .nil
  · have none : handleTickSizeChange python desired data = none := by
      simp [handleTickSizeChange, asset, contains_ofString, wanted]
    simp [Echoes, explode, none, Event.assetId, wanted]

/-- A plain message that the Rust decoder accepts leads to the calls for its wanted events. -/
theorem message_heard (documented : python.Documented δ finite) (desired : Finset String)
    {value : Json} {message : WireMessage δ} (plain : Plain value)
    (decoded : WireMessage.deserialize value = .ok message) :
    Echoes python desired (explode message) (processEvent python desired (ofJson value)) := by
  obtain ⟨members, rfl, byName, bids, asks, entries⟩ := plain
  obtain ⟨found, looked, decoded⟩ := Serde.of_bind decoded
  cases found with
  | none => cases decoded
  | some tag =>
    obtain ⟨name, rfl⟩ := byName tag (Serde.mem_of_lookup looked)
    have mirrors := mirrors_filter members
    have inside {name : String} (objects : HoldsObjects name members) :
        HoldsObjects name (members.filter fun member => member.1 ≠ "event_type") :=
      fun items member => objects items (List.mem_filter.mp member).1
    have eventType : get "event_type" (PyValue.ofMembers members) = some (ofString name) :=
      PyValue.get_ofMembers looked
    simp only [Serde.variantName, bind, Except.bind] at decoded
    simp only [PyValue.ofJson, processEvent, eventType, Option.getD_some,
      PyValue.isText_ofString, decide_eq_true_eq]
    split at decoded
    · rename_i isBook
      obtain ⟨wire, read, rfl⟩ := Serde.of_map decoded
      rw [if_pos isBook]
      exact book_heard documented desired mirrors (inside bids) (inside asks) read
    · rename_i notBook
      rw [if_neg notBook]
      split at decoded
      · rename_i isChange
        obtain ⟨wire, read, rfl⟩ := Serde.of_map decoded
        rw [if_pos isChange]
        exact priceChange_heard documented desired mirrors (inside entries) read
      · rename_i notChange
        rw [if_neg notChange]
        split at decoded
        · rename_i isTrade
          obtain ⟨wire, read, rfl⟩ := Serde.of_map decoded
          rw [if_pos isTrade]
          exact trade_heard documented desired mirrors read
        · rename_i notTrade
          rw [if_neg notTrade]
          split at decoded
          · rename_i isTick
            obtain ⟨wire, read, rfl⟩ := Serde.of_map decoded
            rw [if_pos isTick]
            exact tick_heard documented desired mirrors read
          · cases decoded

/-- Plain messages one after the other. -/
theorem messages_heard (documented : python.Documented δ finite) (desired : Finset String)
    {items : List Json} {messages : List (WireMessage δ)} (plain : ∀ item ∈ items, Plain item)
    (each : List.Forall₂ (fun item message => WireMessage.deserialize item = .ok message)
      items messages) :
    Echoes python desired (messages.flatMap explode)
      ((items.map ofJson).flatMap (processEvent python desired)) := by
  induction each with
  | nil => exact .nil
  | @cons item first items messages decoded _ inductionHypothesis =>
    have heard := message_heard documented desired (plain item List.mem_cons_self) decoded
    have rest := inductionHypothesis fun item member => plain item (List.mem_cons_of_mem _ member)
    rw [List.map_cons, List.flatMap_cons, List.flatMap_cons, Echoes, List.filter_append]
    exact List.rel_append heard rest

/-- A plain frame that the Rust connection accepts. -/
theorem frame_heard (documented : python.Documented δ finite) (desired : Finset String)
    {value : Json} {frame : WireFrame δ} (plain : PlainFrame value)
    (decoded : WireFrame.deserialize value = .ok frame) :
    Echoes python desired (frame.messages.flatMap explode)
      (processData python desired (ofJson value)) := by
  cases value with
  | null | bool | number | string => obtain ⟨members, same, _⟩ := plain; cases same
  | object members =>
    have notMany : (Serde.list WireMessage.deserialize (.object members) :
        Except Serde.Error (List (WireMessage δ))) = .error _ := rfl
    rw [WireFrame.deserialize, notMany] at decoded
    simp only at decoded
    split at decoded
    · rename_i message read
      obtain rfl := Except.ok.inj decoded
      have heard := message_heard documented desired plain read
      simpa [WireFrame.messages, processData, PyValue.ofJson] using heard
    · cases decoded
  | array items =>
    rw [WireFrame.deserialize] at decoded
    split at decoded
    · rename_i messages read
      obtain rfl := Except.ok.inj decoded
      have each := (Serde.mapM_ok_iff _ _ _).mp read
      simp only [WireFrame.messages, processData, PyValue.ofJson, PyValue.ofItems_eq]
      exact messages_heard documented desired plain each
    · rename_i notMany
      split at decoded
      · rename_i message read
        cases items with
        | nil => cases notMany
        | cons first rest =>
          obtain ⟨members, rfl, _⟩ := plain first List.mem_cons_self
          cases read
      · cases decoded

end Messages

/-- What begins a value is no white space. -/
theorem isSpace_of_begins {char : Char} (begins : Json.begins char = true) :
    isSpace char = false := by
  cases Bool.or_eq_true_iff.mp begins with
  | inl listed =>
    have known := of_decide_eq_true listed
    simp only [List.mem_cons, List.not_mem_nil, or_false] at known
    obtain rfl | rfl | rfl | rfl | rfl | rfl | rfl := known <;> decide
  | inr digit =>
    have bounds : 48 ≤ char.toNat ∧ char.toNat ≤ 57 := by
      simpa [Char.isDigit, UInt32.le_iff_toNat_le] using digit
    have other : char.toNat ∉
        [0x20, 0x85, 0xA0, 0x1680, 0x2028, 0x2029, 0x202F, 0x205F, 0x3000] := by
      simp only [List.mem_cons, List.not_mem_nil, or_false]
      omega
    simp only [isSpace, Snippets.isWhiteSpace, other, decide_false, Bool.or_eq_false_iff,
      Bool.and_eq_false_iff, decide_eq_false_iff_not, and_true]
    omega

/-- White space of JSON is white space. -/
theorem isSpace_of_json {char : Char} (space : Json.isSpace char = true) :
    isSpace char = true := by
  simp only [Json.isSpace, Bool.or_eq_true, decide_eq_true_eq] at space
  obtain ((rfl | rfl) | rfl) | rfl := space <;> decide

/-- A wider test drops no more where it does not hold next. -/
theorem dropWhile_of_imp {narrow wide : Char → Bool}
    (wider : ∀ char, narrow char = true → wide char = true) {chars tail : List Char} {char : Char}
    (token : chars.dropWhile narrow = char :: tail) (solid : wide char = false) :
    chars.dropWhile wide = char :: tail := by
  induction chars with
  | nil => cases token
  | cons first rest inductionHypothesis =>
    by_cases space : narrow first = true
    · rw [List.dropWhile_cons_of_pos space] at token
      rw [List.dropWhile_cons_of_pos (wider first space)]
      exact inductionHypothesis token
    · rw [List.dropWhile_cons_of_neg space] at token
      obtain ⟨rfl, rfl⟩ := List.cons.inj token
      exact List.dropWhile_cons_of_neg (by simp [solid])

/-- A text that is read as JSON is neither blank nor PONG. -/
theorem strip_of_reads {source : String} {value : Json} (reads : Json.Reads source value) :
    strip source ≠ [] ∧ strip source ≠ "PONG".toList := by
  obtain ⟨char, tail, token, begins⟩ := reads.begins
  have solid := isSpace_of_begins begins
  have dropped : source.toList.dropWhile isSpace = char :: tail := by
    exact dropWhile_of_imp (fun _ => isSpace_of_json) token solid
  have nonempty : strip source ≠ [] := by
    intro blank
    rw [strip, dropped, List.rdropWhile_eq_nil_iff] at blank
    exact absurd (blank char List.mem_cons_self) (by simp [solid])
  refine ⟨nonempty, ?_⟩
  intro pong
  have start : strip source <+: char :: tail := by
    rw [strip, dropped]
    exact List.rdropWhile_prefix isSpace _
  rw [pong] at start
  obtain ⟨rest, same⟩ := start
  obtain ⟨rfl, _⟩ := List.cons.inj same
  cases begins

/-! ## Both connections side by side -/

/-- A frame of the exchange, or a command. -/
inductive Input where
  | frame (source : String)
  | command (command : Command)

/-- The Rust task in a session, with the events it has forwarded and the assets it has dropped
in between. -/
structure Task (δ : Type) where
  sub : Connection.SubState
  trace : List (Event δ ⊕ String)

namespace Task

/-- A task that wants nothing yet. -/
def new : Task δ where
  sub := .default
  trace := []

/-- What the task makes of an input; the counters are of no account. -/
def step (finite : String → Bool) (task : Task δ) : Input → Task δ
  | .frame source => { task with
      trace := task.trace ++ (eventsAfter finite task.sub ⟨0, 0, 0, 0⟩ [] source).map .inl }
  | .command (.subscribe assets) => { task with
      sub := (task.sub.process (.subscribe assets)).1 }
  | .command (.unsubscribe assets) => { task with
      sub := (task.sub.process (.unsubscribe assets)).1
      trace := task.trace ++ (assets.filter (· ∈ task.sub.desired)).map .inr }

omit [Decimal δ] in
/-- The forwarded events. -/
def events (task : Task δ) : List (Event δ) := task.trace.filterMap Sum.getLeft?

end Task

/-- What the connection makes of an input. -/
def WebSocketConnection.step (python : Library π) (maxAssets : Nat)
    (conn : WebSocketConnection π) : Input → WebSocketConnection π
  | .frame source => conn.handleMessage python source
  | .command (.subscribe assets) => conn.subscribe maxAssets assets
  | .command (.unsubscribe assets) => conn.unsubscribe assets

omit [Decimal δ] in
/-- The last book of an asset, unless the asset was dropped since. -/
def see (asset : String) (found : Option (Event δ)) : Event δ ⊕ String → Option (Event δ)
  | .inl event => if event.kind = .book ∧ event.assetId = asset then some event else found
  | .inr dropped => if dropped = asset then none else found

def lastBook (asset : String) (trace : List (Event δ ⊕ String)) : Option (Event δ) :=
  trace.foldl (see asset) none

/-- The frames are blank, a PONG, or plain ones that the Rust connection accepts, and no command
asks for more than a connection may hold. -/
def Fair (δ : Type) [Decimal δ] (finite : String → Bool) (maxAssets : Nat) : Input → Prop
  | .frame source => strip source = [] ∨ strip source = "PONG".toList ∨
      ∃ value, Json.Reads source value ∧ WithinLimits finite value ∧
        PlainFrame value ∧ ∃ frame : WireFrame δ, WireFrame.deserialize value = .ok frame
  | .command (.subscribe assets) => assets.length ≤ maxAssets
  | .command (.unsubscribe _) => True

/-- Both want the same, have told the same, and know the same books. -/
structure Twins (python : Library π) (task : Task δ) (conn : WebSocketConnection π) : Prop where
  synced : task.sub.subscribed = task.sub.desired
  wanted : conn.desiredAssets = task.sub.desired
  heard : List.Forall₂ (Heard python) task.events conn.delivered
  books : ∀ asset, Option.Rel (fun event snapshot => Heard python event (.book snapshot))
    (lastBook asset task.trace) (conn.orderbooks.lookup asset)

omit [Decimal δ] in
theorem lastBook_append (asset : String) (trace more : List (Event δ ⊕ String)) :
    lastBook asset (trace ++ more) = more.foldl (see asset) (lastBook asset trace) :=
  List.foldl_append

omit [Decimal δ] in
/-- After some assets were dropped, their books are gone. -/
theorem lastBook_dropped (asset : String) (trace : List (Event δ ⊕ String))
    (dropped : List String) :
    lastBook asset (trace ++ dropped.map .inr) =
      if asset ∈ dropped then none else lastBook asset trace := by
  induction dropped generalizing trace with
  | nil => simp
  | cons first rest inductionHypothesis =>
    rw [List.map_cons, List.append_cons, inductionHypothesis, lastBook_append]
    by_cases same : first = asset
    · simp [see, same]
    · simp [see, same, Ne.symm same]

namespace WebSocketConnection

/-- What a connection wants after it unsubscribed, and which books it forgot. -/
theorem unsubscribe_spec (conn : WebSocketConnection π) (assets : List String) :
    (conn.unsubscribe assets).desiredAssets = conn.desiredAssets \ assets.toFinset ∧
      (conn.unsubscribe assets).delivered = conn.delivered ∧
      ∀ asset, (conn.unsubscribe assets).orderbooks.lookup asset =
        if asset ∈ assets ∧ asset ∈ conn.desiredAssets then none
        else conn.orderbooks.lookup asset := by
  induction assets generalizing conn with
  | nil => simp [unsubscribe]
  | cons first rest inductionHypothesis =>
    by_cases wanted : first ∈ conn.desiredAssets
    · obtain ⟨desired, delivered, books⟩ := inductionHypothesis { conn with
        desiredAssets := conn.desiredAssets.erase first
        orderbooks := conn.orderbooks.erase first }
      have begun : conn.unsubscribe (first :: rest) = unsubscribe { conn with
          desiredAssets := conn.desiredAssets.erase first
          orderbooks := conn.orderbooks.erase first } rest := by
        simp [unsubscribe, wanted]
      rw [begun]
      refine ⟨?_, delivered, ?_⟩
      · rw [desired, List.toFinset_cons, Finset.sdiff_insert, Finset.erase_sdiff_comm]
      · intro asset
        rw [books]
        by_cases same : asset = first
        · subst same
          simp [wanted]
        · simp [same, AList.lookup_erase_ne]
    · have begun : conn.unsubscribe (first :: rest) = conn.unsubscribe rest := by
        simp [unsubscribe, wanted]
      obtain ⟨desired, delivered, books⟩ := inductionHypothesis conn
      rw [begun]
      refine ⟨?_, delivered, ?_⟩
      · rw [desired, List.toFinset_cons, Finset.sdiff_insert, Finset.erase_eq_of_notMem]
        exact fun member => wanted (Finset.mem_sdiff.mp member).1
      · intro asset
        rw [books]
        by_cases same : asset = first
        · subst same
          simp [wanted]
        · simp [same]

end WebSocketConnection

namespace Twins

variable {python : Library π} {finite : String → Bool} {task : Task δ}
  {conn : WebSocketConnection π}

theorem start (python : Library π) : Twins python (Task.new : Task δ) .new where
  synced := rfl
  wanted := rfl
  heard := .nil
  books := fun _ => .none

/-- One more event and its call. -/
theorem deliver (twins : Twins python task conn) {event : Event δ} {call : Callback π}
    (heard : Heard python event call) :
    Twins python { task with trace := task.trace ++ [.inl event] } (conn.deliver call) where
  synced := twins.synced
  wanted := twins.wanted
  heard := by
    have grown : Task.events { task with trace := task.trace ++ [.inl event] } =
        task.events ++ [event] := List.filterMap_append
    rw [grown]
    exact List.rel_append twins.heard (.cons heard .nil)
  books := by
    intro asset
    have before := twins.books asset
    rw [lastBook_append]
    cases event with
    | book market assetId timestamp bids asks hash =>
      cases call with
      | priceChange | lastTradePrice | tickSizeChange => cases heard
      | book snapshot =>
        have isOf : snapshot.assetId = assetId := heard.1
        by_cases isAsset : assetId = asset
        · subst isAsset
          simp only [WebSocketConnection.deliver, isOf, AList.lookup_insert]
          simp only [List.foldl_cons, List.foldl_nil, see, Event.kind, Event.assetId, and_self,
            if_true]
          exact .some heard
        · have other : asset ≠ snapshot.assetId := by
            rw [isOf]
            exact Ne.symm isAsset
          simp only [WebSocketConnection.deliver, AList.lookup_insert_ne other]
          simp only [List.foldl_cons, List.foldl_nil, see, Event.assetId, isAsset, and_false,
            if_false]
          exact before
    | priceChange | lastTradePrice | tickSizeChange =>
      cases call with
      | book => cases heard
      | priceChange | lastTradePrice | tickSizeChange =>
        simpa [see, Event.kind, WebSocketConnection.deliver] using before

/-- A frame's events and their calls. -/
theorem deliver_all (twins : Twins python task conn) {events : List (Event δ)}
    {calls : List (Callback π)} (heard : List.Forall₂ (Heard python) events calls) :
    Twins python { task with trace := task.trace ++ events.map .inl }
      (calls.foldl WebSocketConnection.deliver conn) := by
  induction heard generalizing task conn with
  | nil =>
    rw [List.map_nil, List.append_nil]
    exact twins
  | @cons event call events calls first _ inductionHypothesis =>
    rw [List.map_cons, List.append_cons, List.foldl_cons]
    exact inductionHypothesis (twins.deliver first)

/-- The counters are of no account. -/
theorem counted (twins : Twins python task conn) (messages pongs : Nat) :
    Twins python task { conn with messageCount := messages, pongCount := pongs } :=
  ⟨twins.synced, twins.wanted, twins.heard, twins.books⟩

/-- Both pass over a blank text and a PONG. -/
theorem quiet (twins : Twins python task conn) {source : String}
    (notJson : strip source = [] ∨ strip source = "PONG".toList) :
    Twins python (task.step finite (.frame source)) (conn.handleMessage python source) := by
  have unread : Json.parse Serde.recursionLimit source = none := by
    by_contra read
    obtain ⟨value, parsed⟩ := Option.ne_none_iff_exists'.mp read
    obtain ⟨nonempty, notPong⟩ := strip_of_reads ⟨_, parsed⟩
    exact notJson.elim nonempty notPong
  have silent : task.step finite (.frame source) = task := by
    rw [Task.step, eventsAfter, handleText, readFrame, unread]
    simp [bind, Except.bind]
  rw [silent, WebSocketConnection.handleMessage]
  split
  · exact twins.counted _ _
  · rename_i nonempty
    rw [if_pos (notJson.resolve_left nonempty)]
    exact twins.counted _ _

/-- Both make the same of a frame. -/
theorem frame (twins : Twins python task conn) (documented : python.Documented δ finite)
    {source : String} {maxAssets : Nat} (fair : Fair δ finite maxAssets (.frame source)) :
    Twins python (task.step finite (.frame source)) (conn.handleMessage python source) := by
  obtain blank | pong | ⟨value, reads, within, plain, frame, decoded⟩ := fair
  · exact twins.quiet (.inl blank)
  · exact twins.quiet (.inr pong)
  · have heard := frame_heard documented task.sub.desired plain decoded
    obtain ⟨nonempty, notPong⟩ := strip_of_reads reads
    have events : eventsAfter finite task.sub ⟨0, 0, 0, 0⟩ [] source =
        (frame.messages.flatMap explode).filter fun event =>
          event.assetId ∈ task.sub.desired := by
      rw [eventsAfter_eq reads, messagesOf, if_pos ((withinLimits_iff _ _).mp within), decoded]
      rfl
    rw [← twins.wanted] at heard
    rw [Task.step, events, WebSocketConnection.handleMessage, if_neg nonempty, if_neg notPong,
      documented.loads source value reads within, ← twins.wanted]
    exact (twins.counted _ conn.pongCount).deliver_all heard

/-- Both want more. -/
theorem subscribe (twins : Twins python task conn) {assets : List String} {maxAssets : Nat}
    (fair : Fair δ finite maxAssets (.command (.subscribe assets))) :
    Twins python (task.step finite (.command (.subscribe assets)))
      (conn.subscribe maxAssets assets) where
  synced := (Connection.processed_process twins.synced _).subscribed
  wanted := by
    rw [WebSocketConnection.subscribe, List.take_of_length_le fair, twins.wanted]
    exact (Connection.processed_process twins.synced (.subscribe assets)).desired.symm
  heard := twins.heard
  books := twins.books

/-- Both drop what they wanted of the assets, and what they knew of it. -/
theorem unsubscribe (twins : Twins python task conn) (assets : List String) :
    Twins python (task.step finite (.command (.unsubscribe assets)))
      (conn.unsubscribe assets) where
  synced := (Connection.processed_process twins.synced _).subscribed
  wanted := by
    rw [(conn.unsubscribe_spec assets).1, twins.wanted]
    exact (Connection.processed_process twins.synced (.unsubscribe assets)).desired.symm
  heard := by
    rw [(conn.unsubscribe_spec assets).2.1, Task.events, Task.step, List.filterMap_append,
      List.filterMap_map]
    have silent (dropped : List String) : dropped.filterMap (Sum.getLeft? ∘ Sum.inr) =
        ([] : List (Event δ)) := List.filterMap_eq_nil_iff.mpr fun _ _ => rfl
    rw [silent, List.append_nil]
    exact twins.heard
  books := by
    intro asset
    rw [(conn.unsubscribe_spec assets).2.2, Task.step, lastBook_dropped, twins.wanted]
    simp only [List.mem_filter, decide_eq_true_eq]
    split
    · exact .none
    · exact twins.books asset

/-- Both make the same of an input. -/
theorem step (twins : Twins python task conn) (documented : python.Documented δ finite)
    {maxAssets : Nat} {input : Input} (fair : Fair δ finite maxAssets input) :
    Twins python (task.step finite input) (conn.step python maxAssets input) := by
  cases input with
  | frame source => exact twins.frame documented fair
  | command command =>
    cases command with
    | subscribe assets => exact twins.subscribe fair
    | unsubscribe assets => exact twins.unsubscribe assets

/-- Both make the same of a run. -/
theorem run (twins : Twins python task conn) (documented : python.Documented δ finite)
    {maxAssets : Nat} {inputs : List Input}
    (fair : ∀ input ∈ inputs, Fair δ finite maxAssets input) :
    Twins python (inputs.foldl (Task.step finite) task)
      (inputs.foldl (WebSocketConnection.step python maxAssets) conn) := by
  induction inputs generalizing task conn with
  | nil => exact twins
  | cons input inputs inductionHypothesis =>
    have next := twins.step documented (fair input List.mem_cons_self)
    exact inductionHypothesis next fun input member => fair input (List.mem_cons_of_mem _ member)

end Twins

end Agreement

/-- A library whose decimals are those of the Rust side. -/
def plainPython : Library PlainDecimal where
  loads source := (Json.parse Serde.recursionLimit source).map ofJson
  str := id
  decimal
    | .str codes => (PyValue.textOf codes).bind Decimal.fromStr
    | _ => none
  isZero lexeme := lexeme = "0"

theorem plainPython_documented : plainPython.Documented PlainDecimal (fun _ => true) where
  loads := by
    intro source value reads within
    change (Json.parse Serde.recursionLimit source).map ofJson = _
    rw [reads.parse, if_pos within.1]
    rfl
  str := fun _ => rfl
  decimal := by
    intro text value decoded
    cases found : (Decimal.fromStr text : Option PlainDecimal) with
    | none =>
      simp [decodeDecimal, Serde.string, bind, Except.bind, found, Decimal.fromScientific]
        at decoded
    | some number =>
      refine ⟨number, ?_⟩
      change (PyValue.textOf (points text)).bind Decimal.fromStr = _
      rw [PyValue.textOf_points]
      exact found

/-- A book on the wire. -/
def bookOf (asset : String) (bids asks : List Json) : Json :=
  .object [("event_type", .string "book"), ("market", .string "0xm"), ("asset_id", .string asset),
    ("timestamp", .string "1"), ("bids", .array bids), ("asks", .array asks), ("hash", .string "h1")]

/-- A price change on the wire. -/
def changeOf (entries : List Json) : Json :=
  .object [("event_type", .string "price_change"), ("market", .string "0xm"),
    ("timestamp", .string "2"), ("price_changes", .array entries)]

theorem plain_bookOf {asset : String} {bids asks : List Json}
    (bidObjects : ∀ item ∈ bids, ∃ inner, item = .object inner)
    (askObjects : ∀ item ∈ asks, ∃ inner, item = .object inner) :
    Plain (bookOf asset bids asks) := by
  refine ⟨_, rfl, ?_, ?_, ?_, ?_⟩
  · intro tag isTag
    exact ⟨"book", by simpa using isTag⟩
  · intro items isItems
    obtain rfl : items = bids := by simpa using isItems
    exact bidObjects
  · intro items isItems
    obtain rfl : items = asks := by simpa using isItems
    exact askObjects
  · intro items isItems
    simp at isItems

theorem plain_changeOf {entries : List Json}
    (objects : ∀ item ∈ entries, ∃ inner, item = .object inner) : Plain (changeOf entries) := by
  refine ⟨_, rfl, ?_, ?_, ?_, ?_⟩
  · intro tag isTag
    exact ⟨"price_change", by simpa using isTag⟩
  · intro items isItems
    simp at isItems
  · intro items isItems
    simp at isItems
  · intro items isItems
    obtain rfl : items = entries := by simpa using isItems
    exact objects

/-- One bid. -/
def sampleBid : Json := .object [("price", .string "0.41"), ("size", .string "100")]

/-- An entry with a best bid and an empty best ask. -/
def sampleEntry (asset : String) : Json :=
  .object [("asset_id", .string asset), ("price", .string "0.41"), ("size", .string "100"),
    ("side", .string "BUY"), ("best_bid", .string "0.41"), ("best_ask", .string ""),
    ("hash", .string "h2")]

/-- Two books, and a price change with an entry for an asset that nobody wants. -/
def sampleFrame : Json :=
  .array [bookOf "a1" [sampleBid] [], changeOf [sampleEntry "a1", sampleEntry "a3"],
    bookOf "a2" [] [sampleBid]]

/-- Subscribe, hear the frame, and drop one of the assets. -/
def frameArrives : List Input :=
  [.command (.subscribe ["a1", "a2"]), .frame sampleFrame.text, .command (.unsubscribe ["a1"])]

theorem readable_sampleFrame : Json.Readable 4 sampleFrame := by
  simp [sampleFrame, bookOf, changeOf, sampleEntry, sampleBid, Json.Readable, Json.ReadableMembers,
    Json.ReadableItems]

theorem plain_sampleFrame : PlainFrame sampleFrame := by
  intro item member
  simp only [List.mem_cons, List.not_mem_nil, or_false] at member
  rcases member with rfl | rfl | rfl
  · exact plain_bookOf (by simp [sampleBid]) (by simp)
  · exact plain_changeOf (by simp [sampleEntry])
  · exact plain_bookOf (by simp) (by simp [sampleBid])

theorem fair_frameArrives :
    ∀ input ∈ frameArrives, Fair PlainDecimal (fun _ => true) 200 input := by
  intro input member
  simp only [frameArrives, List.mem_cons, List.not_mem_nil, or_false] at member
  rcases member with rfl | rfl | rfl
  · exact Nat.le_of_ble_eq_true rfl
  · exact .inr (.inr ⟨_, reads_text readable_sampleFrame, ⟨by decide, by decide⟩,
      plain_sampleFrame, _, rfl⟩)
  · trivial

theorem plain_price : plainNotation "0.41" = true := by decide

theorem plain_size : plainNotation "100" = true := by decide

def samplePrice : PlainDecimal := ⟨"0.41", plain_price⟩

def sampleSize : PlainDecimal := ⟨"100", plain_size⟩

/-- What the task forwards of the frame. -/
def sampleEvents : List (Event PlainDecimal) :=
  [.book "0xm" "a1" "1" [⟨samplePrice, sampleSize⟩] [] (some "h1"),
    .priceChange "0xm" "a1" "2" (some samplePrice) none (some "h2") samplePrice sampleSize "BUY",
    .book "0xm" "a2" "1" [] [⟨samplePrice, sampleSize⟩] (some "h1")]

theorem trace_frameArrives :
    (frameArrives.foldl (Task.step (fun _ => true)) (Task.new : Task PlainDecimal)).trace =
      sampleEvents.map .inl ++ [.inr "a1"] := by
  change ([] ++ (eventsAfter _ _ _ [] sampleFrame.text).map Sum.inl) ++ _ = _
  rw [eventsAfter_eq (reads_text readable_sampleFrame)]
  rfl

end Collector.Listener
