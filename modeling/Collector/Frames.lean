import Collector.Connection
import Collector.Library.JsonNesting
import Collector.Library.JsonRoundTrip
import Mathlib.Tactic.IntervalCases

/-!
# Frames of the websocket

A text frame is one wire message or an array of them. `handle_text` decodes the
whole frame before it explodes any message, so an array is accepted or refused
at once. The frame's enumeration is untagged: an array is first tried as a list
of messages, then as one message in its positional form.

The reader refuses a number that a double cannot hold. Which lexemes those are
is a parameter.
-/

namespace Collector

open Serde

variable {δ : Type}

section Decoding

variable [Decimal δ]

/-- The variants of a wire message in declaration order. -/
def WireMessage.variants : List String :=
  [Kind.book.tag, Kind.priceChange.tag, Kind.lastTradePrice.tag, Kind.tickSizeChange.tag]

def WireLevel.deserialize (value : Json) : Except Error (WireLevel δ) := do
  let fields ← fields "struct WireLevel" value
  let price ← requiredField 0 "price" decodeDecimal fields
  let size ← requiredField 1 "size" decodeDecimal fields
  closed 2 fields
  .ok ⟨price, size⟩

def WireBook.deserialize (fields : Fields) : Except Error (WireBook δ) := do
  let market ← requiredField 0 "market" string fields
  let assetId ← requiredField 1 "asset_id" string fields
  let timestamp ← requiredField 2 "timestamp" string fields
  let bids ← requiredField 3 "bids" (list WireLevel.deserialize) fields
  let asks ← requiredField 4 "asks" (list WireLevel.deserialize) fields
  let hash ← requiredField 5 "hash" string fields
  closed 6 fields
  .ok ⟨market, assetId, timestamp, bids, asks, hash⟩

/-- The quotes of an entry have a default. -/
def WirePriceChangeEntry.deserialize (value : Json) : Except Error (WirePriceChangeEntry δ) := do
  let fields ← fields "struct WirePriceChangeEntry" value
  let assetId ← requiredField 0 "asset_id" string fields
  let price ← requiredField 1 "price" decodeDecimal fields
  let size ← requiredField 2 "size" decodeDecimal fields
  let side ← requiredField 3 "side" string fields
  let bestBid ← defaultField 4 "best_bid" none decodeOptionalDecimal fields
  let bestAsk ← defaultField 5 "best_ask" none decodeOptionalDecimal fields
  let hash ← requiredField 6 "hash" string fields
  closed 7 fields
  .ok ⟨assetId, price, size, side, bestBid, bestAsk, hash⟩

def WirePriceChange.deserialize (fields : Fields) : Except Error (WirePriceChange δ) := do
  let market ← requiredField 0 "market" string fields
  let timestamp ← requiredField 1 "timestamp" string fields
  let priceChanges ← requiredField 2 "price_changes" (list WirePriceChangeEntry.deserialize) fields
  closed 3 fields
  .ok ⟨market, timestamp, priceChanges⟩

def WireLastTradePrice.deserialize (fields : Fields) : Except Error (WireLastTradePrice δ) := do
  let market ← requiredField 0 "market" string fields
  let assetId ← requiredField 1 "asset_id" string fields
  let timestamp ← requiredField 2 "timestamp" string fields
  let price ← requiredField 3 "price" decodeDecimal fields
  let size ← requiredField 4 "size" decodeDecimal fields
  let side ← requiredField 5 "side" string fields
  let feeRateBps ← requiredField 6 "fee_rate_bps" string fields
  let transactionHash ← requiredField 7 "transaction_hash" string fields
  closed 8 fields
  .ok ⟨market, assetId, timestamp, price, size, side, feeRateBps, transactionHash⟩

def WireTickSizeChange.deserialize (fields : Fields) : Except Error (WireTickSizeChange δ) := do
  let market ← requiredField 0 "market" string fields
  let assetId ← requiredField 1 "asset_id" string fields
  let timestamp ← requiredField 2 "timestamp" string fields
  let oldTickSize ← requiredField 3 "old_tick_size" decodeDecimal fields
  let newTickSize ← requiredField 4 "new_tick_size" decodeDecimal fields
  closed 5 fields
  .ok ⟨market, assetId, timestamp, oldTickSize, newTickSize⟩

/-- A wire message is decoded from the buffered value of its frame. -/
def WireMessage.deserialize : Json → Except Error (WireMessage δ) :=
  taggedBuffered "event_type" WireMessage.variants fun tag fields =>
    if tag = Kind.book.tag then (WireBook.deserialize fields).map .book
    else if tag = Kind.priceChange.tag then (WirePriceChange.deserialize fields).map .priceChange
    else if tag = Kind.lastTradePrice.tag then
      (WireLastTradePrice.deserialize fields).map .lastTradePrice
    else if tag = Kind.tickSizeChange.tag then
      (WireTickSizeChange.deserialize fields).map .tickSizeChange
    else .error (.unknownVariant tag)

/-- One text frame. -/
inductive WireFrame (δ : Type) where
  | many (messages : List (WireMessage δ))
  | one (message : WireMessage δ)

/-- The messages of a frame. -/
def WireFrame.messages : WireFrame δ → List (WireMessage δ)
  | .many messages => messages
  | .one message => [message]

/-- The untagged decoder takes the first variant that accepts the value. -/
def WireFrame.deserialize (value : Json) : Except Error (WireFrame δ) :=
  match list WireMessage.deserialize value with
  | .ok messages => .ok (.many messages)
  | .error _ =>
    match WireMessage.deserialize value with
    | .ok message => .ok (.one message)
    | .error _ => .error (.custom "data did not match any variant of untagged enum WireFrame")

/-- `serde_json::from_str` for a frame, which is buffered as a whole. -/
def readFrame (finite : String → Bool) (source : String) : Except Error (WireFrame δ) :=
  match Json.parse recursionLimit source with
  | some value =>
    if value.numbers.all finite then WireFrame.deserialize value else .error .malformed
  | none => .error .malformed

end Decoding

/-- The per-period counters of a connection. -/
structure ConnStats where
  books : Nat
  priceChanges : Nat
  trades : Nat
  tickChanges : Nat

/-- A wire message counts as one arrival, a price change as one for each entry. -/
def ConnStats.count (stats : ConnStats) : WireMessage δ → ConnStats
  | .book _ => { stats with books := stats.books + 1 }
  | .priceChange pc => { stats with priceChanges := stats.priceChanges + pc.priceChanges.length }
  | .lastTradePrice _ => { stats with trades := stats.trades + 1 }
  | .tickSizeChange _ => { stats with tickChanges := stats.tickChanges + 1 }

open Connection (SubState)

section Handling

variable [Decimal δ]

/-- Parse, explode, filter by the wanted assets, and append what is left. -/
def handleText (finite : String → Bool) (source : String) (sub : SubState) (stats : ConnStats)
    (eventsBuf : List (Event δ)) : Except Error (ConnStats × List (Event δ)) := do
  let frame ← readFrame finite source
  let staged := frame.messages.flatMap explode
  .ok (frame.messages.foldl ConnStats.count stats,
    eventsBuf ++ staged.filter fun event => event.assetId ∈ sub.desired)

/-- The buffer after a frame. The caller logs a refused frame and goes on. -/
def eventsAfter (finite : String → Bool) (sub : SubState) (stats : ConnStats)
    (eventsBuf : List (Event δ)) (source : String) : List (Event δ) :=
  match handleText finite source sub stats eventsBuf with
  | .ok (_, appended) => appended
  | .error _ => eventsBuf

/-- An array frame appends what its elements append as frames of their own. -/
def ElementsIndependent (δ : Type) [Decimal δ] (finite : String → Bool) (sub : SubState)
    (source : String) (elements : List String) : Prop :=
  ∀ (stats : ConnStats) (eventsBuf : List (Event δ)),
    eventsAfter finite sub stats eventsBuf source =
      eventsBuf ++ elements.flatMap (eventsAfter finite sub stats [])

/-- The reader accepts the value of a text. -/
def WithinLimits (finite : String → Bool) (value : Json) : Prop :=
  value.nesting ≤ recursionLimit ∧ ∀ lexeme ∈ value.numbers, finite lexeme = true

/-- The value is one message within the reader's limits. -/
def Accepted (finite : String → Bool) (value : Json) (message : WireMessage δ) : Prop :=
  WithinLimits finite value ∧ WireMessage.deserialize value = .ok message

/-- The events of some messages that the connection wants. -/
def wanted (sub : SubState) (messages : List (WireMessage δ)) : List (Event δ) :=
  (messages.flatMap explode).filter fun event => event.assetId ∈ sub.desired

/-- The assets a message is about. -/
def WireMessage.assets : WireMessage δ → List String
  | .book b => [b.assetId]
  | .priceChange pc => pc.priceChanges.map (·.assetId)
  | .lastTradePrice t => [t.assetId]
  | .tickSizeChange c => [c.assetId]

/-- The connection wants none of the assets a message is about. -/
def Unwanted (sub : SubState) (message : WireMessage δ) : Prop :=
  ∀ asset ∈ message.assets, asset ∉ sub.desired

/-- The entries of a message for wanted assets. -/
def wantedEntries (sub : SubState) : WireMessage δ → List (WirePriceChangeEntry δ)
  | .priceChange pc => pc.priceChanges.filter fun entry => entry.assetId ∈ sub.desired
  | _ => []

/-- The messages of a value as a frame of its own; a refused one has none. -/
def messagesOf (finite : String → Bool) (value : Json) : List (WireMessage δ) :=
  if value.nesting ≤ recursionLimit ∧ value.numbers.all finite then
    match WireFrame.deserialize value with
    | .ok frame => frame.messages
    | .error _ => []
  else []

omit [Decimal δ] in
@[simp]
theorem wanted_nil (sub : SubState) : wanted sub ([] : List (WireMessage δ)) = [] := rfl

omit [Decimal δ] in
theorem wanted_append (sub : SubState) (messages more : List (WireMessage δ)) :
    wanted sub (messages ++ more) = wanted sub messages ++ wanted sub more := by
  rw [wanted, List.flatMap_append, List.filter_append]
  rfl

omit [Decimal δ] in
theorem wanted_cons (sub : SubState) (message : WireMessage δ)
    (messages : List (WireMessage δ)) :
    wanted sub (message :: messages) = wanted sub [message] ++ wanted sub messages :=
  wanted_append sub [message] messages

omit [Decimal δ] in
theorem wanted_flatMap (sub : SubState) (items : List Json)
    (messages : Json → List (WireMessage δ)) :
    wanted sub (items.flatMap messages) = items.flatMap fun item => wanted sub (messages item) := by
  induction items with
  | nil => rfl
  | cons item items inductionHypothesis =>
    rw [List.flatMap_cons, List.flatMap_cons, wanted_append, inductionHypothesis]

omit [Decimal δ] in
theorem explode_assets (message : WireMessage δ) :
    (explode message).map Event.assetId = message.assets := by
  cases message with
  | priceChange pc => simp [explode, WireMessage.assets, Event.assetId]
  | book | lastTradePrice | tickSizeChange => rfl

omit [Decimal δ] in
/-- No event of some messages is wanted exactly when none of their assets is. -/
theorem wanted_eq_nil_iff (sub : SubState) (messages : List (WireMessage δ)) :
    wanted sub messages = [] ↔ ∀ message ∈ messages, Unwanted sub message := by
  simp only [wanted, List.filter_eq_nil_iff, List.mem_flatMap, decide_eq_true_eq, Unwanted,
    ← explode_assets, List.mem_map, forall_exists_index, and_imp, forall_apply_eq_imp_iff₂]
  exact ⟨fun none message member event inside => none event message member inside,
    fun none event message member inside => none message member event inside⟩

/-- What a frame appends is read off the value of its text. -/
theorem eventsAfter_eq {source : String} {value : Json} (reads : Json.Reads source value)
    (finite : String → Bool) (sub : SubState) (stats : ConnStats) (eventsBuf : List (Event δ)) :
    eventsAfter finite sub stats eventsBuf source =
      eventsBuf ++ wanted sub (messagesOf finite value) := by
  unfold eventsAfter handleText readFrame messagesOf
  rw [reads.parse recursionLimit]
  by_cases shallow : value.nesting ≤ recursionLimit
  · simp only [shallow, if_true, true_and]
    by_cases numbers : value.numbers.all finite = true
    · simp only [numbers, if_true]
      cases (WireFrame.deserialize value : Except Error (WireFrame δ)) with
      | error error => simp [bind, Except.bind]
      | ok frame => simp [bind, Except.bind, wanted]
    · simp [numbers, bind, Except.bind]
  · simp [shallow, bind, Except.bind]

theorem withinLimits_iff (finite : String → Bool) (value : Json) :
    WithinLimits finite value ↔
      value.nesting ≤ recursionLimit ∧ value.numbers.all finite = true := by
  rw [WithinLimits, List.all_eq_true]

/-- The items of an array within the limits are within them. -/
theorem WithinLimits.item {finite : String → Bool} {items : List Json} {item : Json}
    (within : WithinLimits finite (.array items)) (member : item ∈ items) :
    WithinLimits finite item := by
  obtain ⟨shallow, numbers⟩ := within
  have below := Json.nesting_le_nestingItems member
  simp only [Json.nesting] at shallow
  refine ⟨by omega, ?_⟩
  intro lexeme inItem
  exact numbers lexeme (Json.mem_numbersItems.mpr ⟨item, member, inItem⟩)

/-- A value that is one message is a frame of one message, its array form
included. -/
theorem deserialize_one {value : Json} {message : WireMessage δ}
    (decoded : WireMessage.deserialize value = .ok message) :
    WireFrame.deserialize value = .ok (.one message) := by
  have notList : ∀ messages : List (WireMessage δ),
      list WireMessage.deserialize value ≠ .ok messages := by
    intro messages
    cases value with
    | array items => exact taggedBuffered_exclusive decoded messages
    | null => exact nofun
    | bool => exact nofun
    | number => exact nofun
    | string => exact nofun
    | object => exact nofun
  cases listed : (list WireMessage.deserialize value : Except Error (List (WireMessage δ))) with
  | ok messages => exact absurd listed (notList messages)
  | error error => simp only [WireFrame.deserialize, listed, decoded]

/-- An accepted message is the only one of its frame. -/
theorem Accepted.messagesOf {finite : String → Bool} {value : Json} {message : WireMessage δ}
    (accepted : Accepted finite value message) : messagesOf finite value = [message] := by
  obtain ⟨within, decoded⟩ := accepted
  rw [Collector.messagesOf, if_pos ((withinLimits_iff finite value).mp within),
    deserialize_one decoded]
  rfl

/-- Messages decoded from the items are those of the items as frames. -/
theorem flatMap_messagesOf {finite : String → Bool} {items : List Json}
    {messages : List (WireMessage δ)} (within : ∀ item ∈ items, WithinLimits finite item)
    (decoded : List.Forall₂ (fun item message => WireMessage.deserialize item = .ok message)
      items messages) :
    items.flatMap (messagesOf finite) = messages := by
  induction decoded with
  | nil => rfl
  | @cons item message items messages first rest inductionHypothesis =>
    have one : messagesOf finite item = [message] :=
      Accepted.messagesOf ⟨within item List.mem_cons_self, first⟩
    rw [List.flatMap_cons, one, inductionHypothesis fun later member =>
      within later (List.mem_cons_of_mem item member)]
    rfl

/-- Every item of the array is a message. -/
def AllMessages (δ : Type) [Decimal δ] (items : List Json) : Prop :=
  ∀ item ∈ items, ∃ message : WireMessage δ, WireMessage.deserialize item = .ok message

/-- The messages of an array of messages. -/
theorem allMessages_iff (items : List Json) :
    AllMessages δ items ↔ ∃ messages : List (WireMessage δ),
      List.Forall₂ (fun item message => WireMessage.deserialize item = .ok message)
        items messages := by
  induction items with
  | nil => exact ⟨fun _ => ⟨[], .nil⟩, fun _ => nofun⟩
  | cons item items inductionHypothesis =>
    constructor
    · intro all
      obtain ⟨message, first⟩ := all item List.mem_cons_self
      obtain ⟨messages, rest⟩ := inductionHypothesis.mp fun later member =>
        all later (List.mem_cons_of_mem item member)
      exact ⟨message :: messages, .cons first rest⟩
    · rintro ⟨_, _ | ⟨first, rest⟩⟩ later member
      rcases List.mem_cons.mp member with rfl | inRest
      · exact ⟨_, first⟩
      · exact inductionHypothesis.mpr ⟨_, rest⟩ later inRest

/-- An array of messages within the limits has the messages of its items. -/
theorem messagesOf_all {finite : String → Bool} {items : List Json}
    (within : WithinLimits finite (.array items)) (all : AllMessages δ items) :
    messagesOf finite (.array items) = items.flatMap (messagesOf (δ := δ) finite) := by
  obtain ⟨messages, decoded⟩ := (allMessages_iff items).mp all
  rw [flatMap_messagesOf (fun item member => within.item member) decoded]
  have listed : list WireMessage.deserialize (.array items) = .ok messages :=
    (mapM_ok_iff _ _ _).mpr decoded
  rw [messagesOf, if_pos ((withinLimits_iff finite _).mp within), WireFrame.deserialize, listed]
  rfl

/-- Any other array has no messages, unless it is one message itself. -/
theorem messagesOf_refused {finite : String → Bool} {items : List Json}
    (refused : ¬ (WithinLimits finite (.array items) ∧ AllMessages δ items))
    (noMessage : ∀ message : WireMessage δ, ¬ Accepted finite (.array items) message) :
    messagesOf (δ := δ) finite (.array items) = [] := by
  unfold messagesOf
  split
  case isFalse => rfl
  case isTrue limits =>
    have within := (withinLimits_iff finite _).mpr limits
    unfold WireFrame.deserialize
    cases listed : (list WireMessage.deserialize (.array items) :
        Except Error (List (WireMessage δ))) with
    | ok messages =>
      have decoded := (mapM_ok_iff _ _ _).mp listed
      exact absurd ⟨within, (allMessages_iff items).mpr ⟨messages, decoded⟩⟩ refused
    | error error =>
      cases decoded : (WireMessage.deserialize (.array items) :
          Except Error (WireMessage δ)) with
      | ok message => exact absurd ⟨within, decoded⟩ (noMessage message)
      | error error => rfl

/-- What the elements append as frames of their own. -/
theorem flatMap_eventsAfter {elements : List String} {items : List Json}
    (texts : List.Forall₂ Json.Reads elements items) (finite : String → Bool) (sub : SubState)
    (stats : ConnStats) :
    elements.flatMap (eventsAfter (δ := δ) finite sub stats []) =
      items.flatMap fun item => wanted sub (messagesOf finite item) := by
  induction texts with
  | nil => rfl
  | cons reads _ inductionHypothesis =>
    rw [List.flatMap_cons, List.flatMap_cons, eventsAfter_eq reads, inductionHypothesis]
    rfl

/-! ### One message in array form

Such an array is no list of messages, but its elements may contain some: what a side of a
book or the entries of a price change hold may be messages in their own right. -/

omit [Decimal δ] in
/-- A wire level is its event level. -/
theorem Level.ofWire_injective : Function.Injective (Level.ofWire (δ := δ)) := by
  rintro ⟨price, size⟩ ⟨otherPrice, otherSize⟩ same
  cases same
  rfl

omit [Decimal δ] in
/-- The event of a book is an event of this book only. -/
theorem book_of_explode {book : WireBook δ} {message : WireMessage δ} {event : Event δ}
    (ofBook : event ∈ explode (.book book)) (member : event ∈ explode message) :
    message = .book book := by
  obtain rfl := List.mem_singleton.mp ofBook
  cases message with
  | book other =>
    have same := List.mem_singleton.mp member
    simp only [Event.book.injEq, Option.some.injEq] at same
    obtain ⟨market, assetId, timestamp, bids, asks, hash⟩ := same
    cases book
    cases other
    simp_all [List.map_inj_right Level.ofWire_injective]
  | priceChange other =>
    obtain ⟨_, _, other⟩ := List.mem_map.mp member
    cases other
  | lastTradePrice | tickSizeChange => cases List.mem_singleton.mp member

omit [Decimal δ] in
theorem wanted_book (sub : SubState) (book : WireBook δ) :
    wanted sub [.book book] = if book.assetId ∈ sub.desired then explode (.book book) else [] := by
  split <;> rename_i desired <;> simp [wanted, explode, Event.assetId, desired]

omit [Decimal δ] in
/-- The wanted events are that of one book exactly when this book is among the messages and
nothing else in them is wanted. -/
theorem wanted_eq_book_iff {sub : SubState} {book : WireBook δ}
    (desired : book.assetId ∈ sub.desired) (nested : List (WireMessage δ)) :
    wanted sub nested = explode (.book book) ↔
      ∃ before after, nested = before ++ .book book :: after ∧
        ∀ message ∈ before ++ after, Unwanted sub message := by
  constructor
  · intro same
    induction nested with
    | nil => cases same
    | cons message nested inductionHypothesis =>
      rw [wanted_cons] at same
      obtain ⟨nothing, rest⟩ | ⟨first, nothing⟩ := List.append_eq_singleton_iff.mp same
      · obtain ⟨before, after, rfl, unwanted⟩ := inductionHypothesis rest
        refine ⟨message :: before, after, rfl, ?_⟩
        intro other member
        rcases List.mem_cons.mp member with rfl | inRest
        · exact (wanted_eq_nil_iff sub _).mp nothing other List.mem_cons_self
        · exact unwanted other inRest
      · have member : explode (.book book) ⊆ explode message := by
          intro event inBook
          have inFirst : event ∈ wanted sub [message] := first ▸ inBook
          simpa [wanted] using (List.mem_filter.mp inFirst).1
        obtain rfl := book_of_explode List.mem_cons_self (member List.mem_cons_self)
        exact ⟨[], nested, rfl, (wanted_eq_nil_iff sub nested).mp nothing⟩
  · rintro ⟨before, after, rfl, unwanted⟩
    have none := (wanted_eq_nil_iff sub (before ++ after)).mpr unwanted
    rw [wanted_append, List.append_eq_nil_iff] at none
    rw [wanted_append, wanted_cons, none.1, none.2, List.nil_append, List.append_nil, wanted_book,
      if_pos desired]

/-- The event of an entry. -/
def entryEvent (market timestamp : String) (entry : WirePriceChangeEntry δ) : Event δ :=
  .priceChange market entry.assetId timestamp entry.bestBid entry.bestAsk (some entry.hash)
    entry.price entry.size entry.side

omit [Decimal δ] in
theorem entryEvent_injective (market timestamp : String) :
    Function.Injective (entryEvent (δ := δ) market timestamp) := by
  rintro ⟨⟩ ⟨⟩ same
  cases same
  rfl

/-- A message of no wanted asset, or a price change of the market at that time. -/
def OfChange (sub : SubState) (market timestamp : String) (message : WireMessage δ) : Prop :=
  Unwanted sub message ∨ ∃ entries, message = .priceChange ⟨market, timestamp, entries⟩

omit [Decimal δ] in
theorem wantedEntries_of_unwanted {sub : SubState} {message : WireMessage δ}
    (unwanted : Unwanted sub message) : wantedEntries sub message = [] := by
  cases message with
  | priceChange pc =>
    rw [wantedEntries, List.filter_eq_nil_iff]
    intro entry member
    simpa using unwanted _ (List.mem_map_of_mem member)
  | book | lastTradePrice | tickSizeChange => rfl

omit [Decimal δ] in
theorem wanted_priceChange (sub : SubState) (pc : WirePriceChange δ) :
    wanted sub [.priceChange pc] =
      (wantedEntries sub (.priceChange pc)).map (entryEvent pc.market pc.timestamp) := by
  rw [wanted, List.flatMap_singleton, wantedEntries, explode, List.filter_map]
  rfl

omit [Decimal δ] in
/-- The wanted events of one message are those of some entries. -/
theorem wanted_eq_entries_iff (sub : SubState) (market timestamp : String)
    (message : WireMessage δ) (entries : List (WirePriceChangeEntry δ)) :
    wanted sub [message] = entries.map (entryEvent market timestamp) ↔
      OfChange sub market timestamp message ∧ wantedEntries sub message = entries := by
  constructor
  · intro same
    by_cases unwanted : Unwanted sub message
    · have nothing := (wanted_eq_nil_iff sub [message]).mpr (by simpa using unwanted)
      rw [nothing, eq_comm, List.map_eq_nil_iff] at same
      subst same
      exact ⟨Or.inl unwanted, wantedEntries_of_unwanted unwanted⟩
    · have some : wanted sub [message] ≠ [] := by
        rw [ne_eq, wanted_eq_nil_iff]
        simpa using unwanted
      obtain ⟨event, member⟩ := List.exists_mem_of_ne_nil _ some
      have inMessage : event ∈ explode message := by
        simpa [wanted] using (List.mem_filter.mp member).1
      rw [same] at member
      obtain ⟨entry, _, rfl⟩ := List.mem_map.mp member
      cases message with
      | priceChange pc =>
        obtain ⟨other, _, isEvent⟩ := List.mem_map.mp inMessage
        obtain ⟨pcMarket, pcTimestamp, priceChanges⟩ := pc
        simp only [entryEvent, Event.priceChange.injEq] at isEvent
        obtain ⟨rfl, _, rfl, _⟩ := isEvent
        rw [wanted_priceChange] at same
        exact ⟨Or.inr ⟨priceChanges, rfl⟩,
          List.map_injective_iff.mpr (entryEvent_injective _ _) same⟩
      | book | lastTradePrice | tickSizeChange => cases List.mem_singleton.mp inMessage
  · rintro ⟨unwanted | ⟨priceChanges, rfl⟩, rfl⟩
    · rw [wantedEntries_of_unwanted unwanted, List.map_nil, wanted_eq_nil_iff]
      simpa using unwanted
    · exact wanted_priceChange sub _

omit [Decimal δ] in
/-- The wanted events of some messages are those of some entries. -/
theorem wanted_eq_change_iff (sub : SubState) (market timestamp : String)
    (nested : List (WireMessage δ)) (entries : List (WirePriceChangeEntry δ)) :
    wanted sub nested = entries.map (entryEvent market timestamp) ↔
      (∀ message ∈ nested, OfChange sub market timestamp message) ∧
        nested.flatMap (wantedEntries sub) = entries := by
  induction nested generalizing entries with
  | nil => simp [eq_comm]
  | cons message nested inductionHypothesis =>
    rw [wanted_cons, eq_comm, List.map_eq_append_iff]
    constructor
    · rintro ⟨first, rest, rfl, ofFirst, ofRest⟩
      obtain ⟨change, rfl⟩ := (wanted_eq_entries_iff sub market timestamp _ _).mp ofFirst.symm
      obtain ⟨changes, rfl⟩ := (inductionHypothesis _).mp ofRest.symm
      exact ⟨List.forall_mem_cons.mpr ⟨change, changes⟩, List.flatMap_cons⟩
    · rintro ⟨changes, rfl⟩
      obtain ⟨change, changes⟩ := List.forall_mem_cons.mp changes
      exact ⟨_, _, List.flatMap_cons,
        ((wanted_eq_entries_iff sub market timestamp _ _).mpr ⟨change, rfl⟩).symm,
        ((inductionHypothesis _).mpr ⟨changes, rfl⟩).symm⟩

/-- A string or a number, which is a message in no form. -/
def Scalar : Json → Prop
  | .string _ => True
  | .number _ => True
  | _ => False

theorem messagesOf_scalar (finite : String → Bool) {value : Json} (scalar : Scalar value) :
    messagesOf (δ := δ) finite value = [] := by
  unfold messagesOf
  split
  case isFalse => rfl
  case isTrue =>
    cases value with
    | string | number => rfl
    | null | bool | array | object => cases scalar

/-- The fields are those of the message's kind. -/
def DecodedFrom (fields : Fields) : WireMessage δ → Prop
  | .book b => WireBook.deserialize fields = .ok b
  | .priceChange pc => WirePriceChange.deserialize fields = .ok pc
  | .lastTradePrice t => WireLastTradePrice.deserialize fields = .ok t
  | .tickSizeChange c => WireTickSizeChange.deserialize fields = .ok c

/-- What an array form is made of: a tag, and the fields of its kind. -/
theorem deserialize_positional {items : List Json} {message : WireMessage δ}
    (decoded : WireMessage.deserialize (.array items) = .ok message) :
    ∃ tag rest, items = tag :: rest ∧ Scalar tag ∧
      DecodedFrom (.positional rest) message := by
  cases items with
  | nil => cases decoded
  | cons tag rest =>
    obtain ⟨name, named, decoded⟩ := of_bind decoded
    have scalar : Scalar tag := by
      cases tag with
      | string | number => trivial
      | null | bool | array | object => cases named
    refine ⟨tag, rest, rfl, scalar, ?_⟩
    beta_reduce at decoded
    split at decoded
    · obtain ⟨_, read, rfl⟩ := of_map decoded
      exact read
    · split at decoded
      · obtain ⟨_, read, rfl⟩ := of_map decoded
        exact read
      · split at decoded
        · obtain ⟨_, read, rfl⟩ := of_map decoded
          exact read
        · split at decoded
          · obtain ⟨_, read, rfl⟩ := of_map decoded
            exact read
          · cases decoded

/-- A field that is a string or a decimal is a string at its position. -/
theorem string_at {position : Nat} {name text : String} {items : List Json}
    (decoded : requiredField position name string (.positional items) = .ok text) :
    ∃ item, items[position]? = some item ∧ Scalar item := by
  obtain ⟨item, found, isText⟩ := positional_field decoded
  obtain rfl := (string_ok_iff item text).mp isText
  exact ⟨_, found, trivial⟩

theorem decimal_at {position : Nat} {name : String} {items : List Json} {value : δ}
    (decoded : requiredField position name decodeDecimal (.positional items) = .ok value) :
    ∃ item, items[position]? = some item ∧ Scalar item := by
  obtain ⟨item, found, isDecimal⟩ := positional_field decoded
  obtain ⟨text, isText, _⟩ := of_bind isDecimal
  obtain rfl := (string_ok_iff item text).mp isText
  exact ⟨_, found, trivial⟩

/-- An array of so many items, each a string or a number by its position. -/
theorem all_scalars {items : List Json} {count : Nat} (short : items.length ≤ count)
    (each : ∀ position < count, ∃ item, items[position]? = some item ∧ Scalar item) :
    ∀ item ∈ items, Scalar item := by
  intro item member
  obtain ⟨position, inside, rfl⟩ := List.getElem_of_mem member
  obtain ⟨found, isFound, scalar⟩ := each position (by omega)
  rw [List.getElem?_eq_getElem inside] at isFound
  rwa [Option.some.inj isFound]

theorem trade_scalars {items : List Json} {trade : WireLastTradePrice δ}
    (decoded : WireLastTradePrice.deserialize (.positional items) = .ok trade) :
    ∀ item ∈ items, Scalar item := by
  obtain ⟨_, market, decoded⟩ := of_bind decoded
  obtain ⟨_, assetId, decoded⟩ := of_bind decoded
  obtain ⟨_, timestamp, decoded⟩ := of_bind decoded
  obtain ⟨_, price, decoded⟩ := of_bind decoded
  obtain ⟨_, size, decoded⟩ := of_bind decoded
  obtain ⟨_, side, decoded⟩ := of_bind decoded
  obtain ⟨_, feeRateBps, decoded⟩ := of_bind decoded
  obtain ⟨_, transactionHash, decoded⟩ := of_bind decoded
  obtain ⟨_, short, _⟩ := of_bind decoded
  refine all_scalars (closed_positional short) ?_
  intro position inside
  interval_cases position
  · exact string_at market
  · exact string_at assetId
  · exact string_at timestamp
  · exact decimal_at price
  · exact decimal_at size
  · exact string_at side
  · exact string_at feeRateBps
  · exact string_at transactionHash

theorem tick_scalars {items : List Json} {change : WireTickSizeChange δ}
    (decoded : WireTickSizeChange.deserialize (.positional items) = .ok change) :
    ∀ item ∈ items, Scalar item := by
  obtain ⟨_, market, decoded⟩ := of_bind decoded
  obtain ⟨_, assetId, decoded⟩ := of_bind decoded
  obtain ⟨_, timestamp, decoded⟩ := of_bind decoded
  obtain ⟨_, oldTickSize, decoded⟩ := of_bind decoded
  obtain ⟨_, newTickSize, decoded⟩ := of_bind decoded
  obtain ⟨_, short, _⟩ := of_bind decoded
  refine all_scalars (closed_positional short) ?_
  intro position inside
  interval_cases position
  · exact string_at market
  · exact string_at assetId
  · exact string_at timestamp
  · exact decimal_at oldTickSize
  · exact decimal_at newTickSize

/-- The elements of a trade or a tick size change in array form contain no message. -/
theorem no_nested {finite : String → Bool} {items rest : List Json} {tag : Json}
    (parts : items = tag :: rest) (scalar : Scalar tag) (scalars : ∀ item ∈ rest, Scalar item) :
    items.flatMap (messagesOf (δ := δ) finite) = [] := by
  subst parts
  rw [List.flatMap_eq_nil_iff, List.forall_mem_cons]
  exact ⟨messagesOf_scalar finite scalar,
    fun item member => messagesOf_scalar finite (scalars item member)⟩

/-- The messages `nested` among the elements of a message in array form repeat what is wanted
of it. The elements of a trade or a tick size change contain no message; those of a book have
to contain the book itself, and those of a price change its own entries. -/
def Repeats (sub : SubState) (nested : List (WireMessage δ)) : WireMessage δ → Prop
  | .book b =>
    if b.assetId ∈ sub.desired then
      ∃ before after, nested = before ++ .book b :: after ∧
        ∀ message ∈ before ++ after, Unwanted sub message
    else ∀ message ∈ nested, Unwanted sub message
  | .priceChange pc =>
    (∀ message ∈ nested, OfChange sub pc.market pc.timestamp message) ∧
      nested.flatMap (wantedEntries sub) = wantedEntries sub (.priceChange pc)
  | .lastTradePrice t => t.assetId ∉ sub.desired
  | .tickSizeChange c => c.assetId ∉ sub.desired

/-- When the elements of an array frame are independent: the reader takes the
frame and each element is one message, or the frame is refused and no element
is about a wanted asset, or the frame is itself one message in array form and
the messages among its elements repeat it. -/
def Separable (δ : Type) [Decimal δ] (finite : String → Bool) (sub : SubState)
    (items : List Json) : Prop :=
  (WithinLimits finite (.array items) ∧ AllMessages δ items) ∨
    ((∀ message : WireMessage δ, ¬ Accepted finite (.array items) message) ∧
      ∀ item ∈ items, ∀ message ∈ messagesOf (δ := δ) finite item, Unwanted sub message) ∨
    ∃ message : WireMessage δ, Accepted finite (.array items) message ∧
      Repeats sub (items.flatMap (messagesOf finite)) message

/-- The elements of a message in array form have its wanted events exactly when
they repeat it. -/
theorem repeats_iff {finite : String → Bool} (sub : SubState) {items : List Json}
    {message : WireMessage δ} (accepted : Accepted finite (.array items) message) :
    wanted sub [message] = wanted sub (items.flatMap (messagesOf finite)) ↔
      Repeats sub (items.flatMap (messagesOf finite)) message := by
  obtain ⟨tag, rest, parts, scalar, fields⟩ := deserialize_positional accepted.2
  cases message with
  | book b =>
    rw [wanted_book, Repeats]
    by_cases desired : b.assetId ∈ sub.desired
    · rw [if_pos desired, if_pos desired, eq_comm, wanted_eq_book_iff desired]
    · rw [if_neg desired, if_neg desired, eq_comm, wanted_eq_nil_iff]
  | priceChange pc =>
    rw [wanted_priceChange, eq_comm, wanted_eq_change_iff, Repeats]
  | lastTradePrice t =>
    rw [no_nested parts scalar (trade_scalars fields), wanted_nil, wanted_eq_nil_iff]
    simp [Unwanted, WireMessage.assets, Repeats]
  | tickSizeChange c =>
    rw [no_nested parts scalar (tick_scalars fields), wanted_nil, wanted_eq_nil_iff]
    simp [Unwanted, WireMessage.assets, Repeats]

/-- For every array, every set of wanted assets and every state of the counters:
the elements are independent exactly when they are separable. -/
theorem elements_independent_iff (finite : String → Bool) (sub : SubState) (source : String)
    (items : List Json) (elements : List String)
    (frame : Json.Reads source (.array items)) (texts : List.Forall₂ Json.Reads elements items) :
    ElementsIndependent δ finite sub source elements ↔ Separable δ finite sub items := by
  have values : ElementsIndependent δ finite sub source elements ↔
      wanted (δ := δ) sub (messagesOf finite (.array items)) =
        wanted sub (items.flatMap (messagesOf finite)) := by
    rw [wanted_flatMap]
    constructor
    · intro independent
      have once := independent ⟨0, 0, 0, 0⟩ []
      rwa [eventsAfter_eq frame, flatMap_eventsAfter texts, List.nil_append,
        List.nil_append] at once
    · intro same stats eventsBuf
      rw [eventsAfter_eq frame, flatMap_eventsAfter texts, same]
  have nothing : wanted (δ := δ) sub (items.flatMap (messagesOf finite)) = [] ↔
      ∀ item ∈ items, ∀ message ∈ messagesOf (δ := δ) finite item, Unwanted sub message := by
    rw [wanted_flatMap, List.flatMap_eq_nil_iff]
    exact forall₂_congr fun item _ => wanted_eq_nil_iff sub _
  rw [values]
  constructor
  · intro same
    by_cases taken : WithinLimits finite (.array items) ∧ AllMessages δ items
    · exact Or.inl taken
    · by_cases message : ∃ message : WireMessage δ, Accepted finite (.array items) message
      · obtain ⟨message, accepted⟩ := message
        rw [accepted.messagesOf] at same
        exact Or.inr (Or.inr ⟨message, accepted, (repeats_iff sub accepted).mp same⟩)
      · have noMessage := not_exists.mp message
        rw [messagesOf_refused taken noMessage, wanted_nil] at same
        exact Or.inr (Or.inl ⟨noMessage, nothing.mp same.symm⟩)
  · rintro (⟨within, all⟩ | ⟨noMessage, unwanted⟩ | ⟨message, accepted, repeated⟩)
    · rw [messagesOf_all within all]
    · by_cases taken : WithinLimits finite (.array items) ∧ AllMessages δ items
      · rw [messagesOf_all taken.1 taken.2]
      · rw [messagesOf_refused taken noMessage, wanted_nil, nothing.mpr unwanted]
    · rw [accepted.messagesOf, (repeats_iff sub accepted).mpr repeated]

end Handling

/-- The text of a readable value is JSON for it. -/
theorem reads_text {depth : Nat} {value : Json} (readable : Json.Readable depth value) :
    Json.Reads value.text value :=
  ⟨depth, Json.parse_text depth value readable⟩

/-- A tick size change on the wire. -/
def tickOf (asset : String) : Json :=
  .object [("event_type", .string "tick_size_change"), ("market", .string "0xm"),
    ("asset_id", .string asset), ("timestamp", .string "1"), ("old_tick_size", .string "0.01"),
    ("new_tick_size", .string "0.001")]

/-- A message of a kind the parser does not know. -/
def unknownKind : Json := .object [("event_type", .string "new_market")]

/-- A connection that wants one asset. -/
def wantsFirst : SubState := { SubState.default with desired := {"a1"} }

theorem readable_ticks : Json.Readable 2 (.array [tickOf "a1", tickOf "a2"]) := by
  simp [tickOf, Json.Readable, Json.ReadableItems, Json.ReadableMembers]

theorem readable_with_unknown : Json.Readable 2 (.array [tickOf "a1", unknownKind]) := by
  simp [tickOf, unknownKind, Json.Readable, Json.ReadableItems, Json.ReadableMembers]

/-- The texts of an array's items are JSON for them. -/
theorem texts_of_items {depth : Nat} {items : List Json}
    (readable : Json.Readable (depth + 1) (.array items)) :
    List.Forall₂ Json.Reads (items.map Json.text) items := by
  have each := (Json.readableItems_iff depth items).mp readable
  rw [List.forall₂_map_left_iff, List.forall₂_same]
  exact fun item member => reads_text (each item member)

/-- A wanted tick size change is one message. -/
theorem tickOf_decoded (asset : String) :
    WireMessage.deserialize (tickOf asset) = .ok (.tickSizeChange
      ⟨"0xm", asset, "1", PlainDecimal.cent, PlainDecimal.tenthOfCent⟩) :=
  rfl

theorem two_ticks_are_independent :
    ElementsIndependent PlainDecimal (fun _ => true) wantsFirst
      (Json.array [tickOf "a1", tickOf "a2"]).text [(tickOf "a1").text, (tickOf "a2").text] := by
  refine (elements_independent_iff _ _ _ _ _ (reads_text readable_ticks)
    (texts_of_items readable_ticks)).mpr (Or.inl ⟨⟨by decide, by decide⟩, ?_⟩)
  intro item member
  rcases List.mem_pair.mp member with rfl | rfl
  · exact ⟨_, tickOf_decoded "a1"⟩
  · exact ⟨_, tickOf_decoded "a2"⟩

/-- An unknown message costs the frame a message that is wanted. -/
theorem unknown_message_suppresses_the_other :
    Json.Reads (Json.array [tickOf "a1", unknownKind]).text
        (.array [tickOf "a1", unknownKind]) ∧
      List.Forall₂ Json.Reads [(tickOf "a1").text, unknownKind.text]
        [tickOf "a1", unknownKind] ∧
      ¬ ElementsIndependent PlainDecimal (fun _ => true) wantsFirst
        (Json.array [tickOf "a1", unknownKind]).text [(tickOf "a1").text, unknownKind.text] := by
  have frame := reads_text readable_with_unknown
  have texts := texts_of_items readable_with_unknown
  refine ⟨frame, texts, ?_⟩
  intro independent
  have once := independent ⟨0, 0, 0, 0⟩ []
  have refused : messagesOf (δ := PlainDecimal) (fun _ => true)
      (.array [tickOf "a1", unknownKind]) = [] := rfl
  have accepted : Accepted (fun _ => true) (tickOf "a1") (.tickSizeChange
      ⟨"0xm", "a1", "1", PlainDecimal.cent, PlainDecimal.tenthOfCent⟩) :=
    ⟨⟨by decide, by decide⟩, tickOf_decoded "a1"⟩
  rw [eventsAfter_eq frame, refused, wanted_nil, List.nil_append, List.nil_append] at once
  have first := List.flatMap_eq_nil_iff.mp once.symm (tickOf "a1").text List.mem_cons_self
  rw [eventsAfter_eq (reads_text ((Json.readableItems_iff _ _).mp readable_with_unknown
    (tickOf "a1") List.mem_cons_self)), accepted.messagesOf] at first
  exact absurd first (by decide)

end Collector
