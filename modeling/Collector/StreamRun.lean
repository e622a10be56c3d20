import Collector.Consumer
import Collector.Library.GroupReader
import Collector.Library.Serde

/-!
# The task that consumes the stream

`stream::run` reads raw entries: a map of fields in which anything may stand. An
entry names its event type and carries a JSON payload. `dispatch` fails on a
payload that its type does not decode and ignores a type it does not know. The
task logs a failure and acknowledges the entry all the same. The listener of the
Python clients acknowledges an entry after it was processed.

The text reader of the JSON library is a parameter.
-/

namespace Collector.StreamRun

open Serde
open StreamGroup (Group Handled Handler Reader)

/-- The fields of a stream entry; `none` is a value that is not a UTF-8 string. -/
structure StreamId where
  map : AList (fun _ : String => Option String)

/-- The fields of an entry that are strings. -/
def streamEntryToMap (entry : StreamId) (field : String) : Option String :=
  (entry.map.lookup field).join

/-- `serde_json::from_str` over a text reader. -/
def decodeText {α : Type} (read : String → Option Json) (decode : Json → Except Error α)
    (source : String) : Except Error α :=
  match read source with
  | some value => decode value
  | none => .error .malformed

/-- Every field has a default. The question is decoded for the log. -/
def decodeNewMarketPayload (value : Json) : Except Error NewMarketPayload := do
  let fields ← fields "struct NewMarketPayload" value
  let market ← defaultField 0 "market" "" string fields
  let assetsIds ← defaultField 1 "assets_ids" [] (list string) fields
  let outcomes ← defaultField 2 "outcomes" [] (list string) fields
  let _question ← defaultField 3 "question" none (nullable string) fields
  closed 4 fields
  .ok ⟨market, assetsIds, outcomes⟩

/-- Every field has a default. The winner is decoded for the log. -/
def decodeMarketResolvedPayload (value : Json) : Except Error MarketResolvedPayload := do
  let fields ← fields "struct MarketResolvedPayload" value
  let market ← defaultField 0 "market" "" string fields
  let _winningOutcome ← defaultField 1 "winning_outcome" none (nullable string) fields
  closed 2 fields
  .ok ⟨market⟩

section Dispatch

variable (read : String → Option Json)

/-- Dispatch the fields of an entry. A panic of the pool has no outcome. -/
def dispatch (pool : Pool) (data : String → Option String) (choice : Shuffle × Shuffle) :
    Option (Pool × Except Error Unit) :=
  let eventType := (data "event_type").getD ""
  let payloadRaw := (data "payload").getD "\x7b\x7d"
  if eventType = "new_market" then
    match decodeText read decodeNewMarketPayload payloadRaw with
    | .error error => some (pool, .error error)
    | .ok payload =>
      match binaryMarketFromOutcomes payload.market payload.outcomes payload.assetsIds with
      | none => some (pool, .ok ())
      | some market =>
        (pool.subscribeMarkets [market] choice.1 choice.2).map fun pool => (pool, .ok ())
  else if eventType = "market_resolved" then
    match decodeText read decodeMarketResolvedPayload payloadRaw with
    | .error error => some (pool, .error error)
    | .ok payload =>
      if payload.market = "" then some (pool, .ok ())
      else some (pool.unsubscribeMarkets [payload.market], .ok ())
  else some (pool, .ok ())

/-- `stream::run`: failures are logged, and every entry is acknowledged. -/
def run : Handler StreamId Pool (Shuffle × Shuffle) where
  readCount := Consumer.readCount
  readsSome := by decide
  handle := fun pool entry choice =>
    (dispatch read pool (streamEntryToMap entry) choice).map fun (pool, result) =>
      (pool, result.isOk)
  acksFailures := true

/-- `stream_listener`: an entry is acknowledged when processing it raised nothing. -/
def streamListener {σ ε : Type} (process : σ → StreamId → ε → Option (σ × Bool)) :
    Handler StreamId σ ε where
  readCount := 10
  readsSome := by decide
  handle := process
  acksFailures := false

/-- The entry has a type that `dispatch` ignores, or a payload of its type. -/
def Decodable (entry : StreamId) : Prop :=
  let data := streamEntryToMap entry
  (data "event_type" = some "new_market" →
      (decodeText read decodeNewMarketPayload ((data "payload").getD "\x7b\x7d")).isOk) ∧
    (data "event_type" = some "market_resolved" →
      (decodeText read decodeMarketResolvedPayload ((data "payload").getD "\x7b\x7d")).isOk)

end Dispatch

/-- An entry that decodes does to the pool what its payload says. -/
theorem dispatch_newMarket {read : String → Option Json} {pool : Pool}
    {data : String → Option String} (isNew : data "event_type" = some "new_market")
    {payload : NewMarketPayload} (decoded : decodeText read decodeNewMarketPayload
      ((data "payload").getD "\x7b\x7d") = .ok payload) (choice : Shuffle × Shuffle) :
    dispatch read pool data choice =
      (Consumer.dispatch pool (.newMarket payload) choice.1 choice.2).map fun pool =>
        (pool, .ok ()) := by
  simp only [dispatch, Consumer.dispatch, isNew, Option.getD_some, decoded, if_true]
  split <;> rename_i parsed <;> rw [parsed]
  rfl

theorem dispatch_marketResolved {read : String → Option Json} {pool : Pool}
    {data : String → Option String} (isResolved : data "event_type" = some "market_resolved")
    {payload : MarketResolvedPayload} (decoded : decodeText read decodeMarketResolvedPayload
      ((data "payload").getD "\x7b\x7d") = .ok payload) (choice : Shuffle × Shuffle) :
    dispatch read pool data choice =
      (Consumer.dispatch pool (.marketResolved payload) choice.1 choice.2).map fun pool =>
        (pool, .ok ()) := by
  have other : "market_resolved" ≠ "new_market" := by decide
  simp only [dispatch, Consumer.dispatch, isResolved, Option.getD_some, decoded, if_true,
    if_neg other]
  split <;> rfl

/-- `dispatch` returns an error exactly for an entry that does not decode. -/
theorem dispatch_isOk_iff {read : String → Option Json} {pool next : Pool} {entry : StreamId}
    {choice : Shuffle × Shuffle} {result : Except Error Unit}
    (returned : dispatch read pool (streamEntryToMap entry) choice = some (next, result)) :
    result.isOk ↔ Decodable read entry := by
  have other : "market_resolved" ≠ "new_market" := by decide
  unfold Decodable
  simp only
  by_cases isNew : streamEntryToMap entry "event_type" = some "new_market"
  · cases decoded : decodeText read decodeNewMarketPayload
        ((streamEntryToMap entry "payload").getD "\x7b\x7d") with
    | error error =>
      simp only [dispatch, isNew, Option.getD_some, decoded, if_true] at returned
      obtain ⟨-, rfl⟩ := Prod.mk.inj (Option.some.inj returned)
      simp [isNew, Except.isOk, Except.toBool]
    | ok payload =>
      rw [dispatch_newMarket isNew decoded] at returned
      obtain ⟨pool, -, same⟩ := Option.map_eq_some_iff.mp returned
      obtain ⟨-, rfl⟩ := Prod.mk.inj same
      simp [isNew, Except.isOk, Except.toBool]
  · by_cases isResolved : streamEntryToMap entry "event_type" = some "market_resolved"
    · cases decoded : decodeText read decodeMarketResolvedPayload
          ((streamEntryToMap entry "payload").getD "\x7b\x7d") with
      | error error =>
        simp only [dispatch, isResolved, Option.getD_some, decoded, if_true, if_neg other]
          at returned
        obtain ⟨-, rfl⟩ := Prod.mk.inj (Option.some.inj returned)
        simp [isResolved, Except.isOk, Except.toBool]
      | ok payload =>
        rw [dispatch_marketResolved isResolved decoded] at returned
        obtain ⟨pool, -, same⟩ := Option.map_eq_some_iff.mp returned
        obtain ⟨-, rfl⟩ := Prod.mk.inj same
        simp [isResolved, Except.isOk, Except.toBool]
    · -- an absent type and an unknown one are ignored
      have ignored : dispatch read pool (streamEntryToMap entry) choice = some (pool, .ok ()) := by
        have typed : ∀ name : String, name ≠ "" → streamEntryToMap entry "event_type" ≠ some name →
            (streamEntryToMap entry "event_type").getD "" ≠ name := by
          intro name named different same
          cases found : streamEntryToMap entry "event_type" with
          | none => exact named (by rw [← same, found]; rfl)
          | some type => exact different (by rw [found, ← same, found]; rfl)
        simp only [dispatch, if_neg (typed _ (by decide) isNew),
          if_neg (typed _ (by decide) isResolved)]
      rw [ignored] at returned
      obtain ⟨-, rfl⟩ := Prod.mk.inj (Option.some.inj returned)
      simp [isNew, isResolved, Except.isOk, Except.toBool]

/-- In every run only processed entries are acknowledged, and the others stay
pending, exactly when every entry the task dispatched and left behind decodes. -/
theorem acks_processed_iff (read : String → Option Json) (log : List StreamId) (group : Group)
    (pool : Pool) (actions : List (Reader.Action StreamId (Shuffle × Shuffle)))
    (final : Reader StreamId Pool)
    (completed : Runs.run (Reader.step (run read)) (Reader.start log group pool) actions =
      some final) :
    Reader.Lawful final ↔ ∀ handled ∈ final.settled, Decodable read handled.entry := by
  have outcome : ∀ handled ∈ final.dispatched,
      (handled.success = true ↔ Decodable read handled.entry) := by
    have each : ∀ (pool : Pool) (entry : StreamId) (choice : Shuffle × Shuffle) (next : Pool)
        (success : Bool), (run read).handle pool entry choice = some (next, success) →
          (success = true ↔ Decodable read entry) := by
      intro pool entry choice next success handled
      obtain ⟨⟨after, result⟩, returned, same⟩ := Option.map_eq_some_iff.mp handled
      obtain ⟨-, rfl⟩ := Prod.mk.inj same
      exact dispatch_isOk_iff returned
    exact Reader.outcomes each completed
  rw [Reader.lawful_iff rfl completed]
  exact forall₂_congr fun handled member => outcome handled (List.mem_append_left _ member)

/-- The listener of the Python clients keeps the law, whatever processing does. -/
theorem streamListener_lawful {σ ε : Type} (process : σ → StreamId → ε → Option (σ × Bool))
    {log : List StreamId} {group : Group} {client : σ}
    (known : ∀ id ∈ group.pending, id ≤ group.delivered) (inside : group.delivered ≤ log.length)
    {actions : List (Reader.Action StreamId ε)} {final : Reader StreamId σ}
    (completed : Runs.run (Reader.step (streamListener process)) (Reader.start log group client)
      actions = some final) : Reader.Lawful final :=
  Reader.lawful_of_acks_successes rfl known inside completed

/-- An entry with an event type and a payload. -/
def entryOf (eventType payload : String) : StreamId :=
  ⟨⟨[⟨"event_type", some eventType⟩, ⟨"payload", some payload⟩], by simp [List.NodupKeys]⟩⟩

/-- A task with nothing pending reads an entry, dispatches it and settles it. -/
def oneEntry : List (Reader.Action StreamId (Shuffle × Shuffle)) :=
  [.read, .read, .dispatch (.unchanged, .unchanged), .settle true]

theorem unknown_type_is_acknowledged :
    ∃ final, Runs.run (Reader.step (run (Json.parse recursionLimit)))
        (Reader.start [entryOf "listed" ""] ⟨0, []⟩ (Pool.new 4)) oneEntry = some final ∧
      (Reader.Lawful final ↔
        ∀ handled ∈ final.settled, Decodable (Json.parse recursionLimit) handled.entry) := by
  obtain ⟨final, completed⟩ : ∃ final, Runs.run (Reader.step (run (Json.parse recursionLimit)))
      (Reader.start [entryOf "listed" ""] ⟨0, []⟩ (Pool.new 4)) oneEntry = some final := ⟨_, rfl⟩
  exact ⟨final, completed, acks_processed_iff _ _ _ _ oneEntry final completed⟩

/-- An entry without a JSON payload fails, is acknowledged, and is lost. -/
theorem failure_is_acknowledged :
    ∃ final, Runs.run (Reader.step (run (Json.parse recursionLimit)))
        (Reader.start [entryOf "new_market" "oops"] ⟨0, []⟩ (Pool.new 4)) oneEntry = some final ∧
      (final.acks.map fun handled => (handled.id, handled.success)) = [(1, false)] ∧
      final.group.pending = [] ∧ ¬ Reader.Lawful final := by
  refine ⟨_, rfl, rfl, rfl, ?_⟩
  intro lawful
  exact absurd (lawful.1 _ List.mem_cons_self) (by decide)

end Collector.StreamRun
