import Collector.Gamma
import Collector.Library.Keyset

/-!
# Two readers of Gamma's pages

Gamma lists the active markets in pages. The Python client follows the cursors of one endpoint,
and the Rust fallback counts offsets at another one. Markets are created and closed between two
requests, so each page is one of what is listed by then.

A request that fails ends the fetch without a result; a fetch that returns is a run of its pages.
A cursor stands for a position in Gamma's order, which the client does not know.
-/

namespace Collector.Gamma

open Serde (recursionLimit)

section Keyset

/-- A body of `/markets/keyset`; what is missing or no object has no markets. -/
structure KeysetBody where
  markets : List RawMarket
  nextCursor : Option String

/-- `fetch_active_markets_from_gamma` between two requests. -/
structure KeysetFetch where
  rawMarkets : List RawMarket
  cursor : Option String
  ended : Bool

def KeysetFetch.start : KeysetFetch := ⟨[], none, false⟩

/-- The loop body. An empty page ends the loop, as does a missing or empty cursor. -/
def KeysetFetch.read (fetch : KeysetFetch) (body : KeysetBody) : Option KeysetFetch :=
  if fetch.ended then none
  else if body.markets.isEmpty then some { fetch with ended := true }
  else some {
    rawMarkets := fetch.rawMarkets ++ body.markets
    cursor := body.nextCursor
    ended := body.nextCursor.getD "" = "" }

/-- The markets listed at a request, and the body that answers it. -/
structure KeysetReply where
  listing : List RawMarket
  body : KeysetBody

def KeysetFetch.step (fetch : KeysetFetch) (reply : KeysetReply) : Option KeysetFetch :=
  fetch.read reply.body

variable {κ : Type} [LinearOrder κ]

/-- Gamma answers with a page of what it lists in order, behind the cursor that it was sent. -/
structure Served (key : RawMarket → κ) (position : String → κ) (fetch : KeysetFetch)
    (reply : KeysetReply) : Prop where
  ordered : reply.listing.Pairwise (key · < key ·)
  named : ∀ cursor, reply.body.nextCursor = some cursor → cursor ≠ ""
  page : Keyset.Page key reply.listing (fetch.cursor.map position) reply.body.markets
    (reply.body.nextCursor.map position)

/-- What holds between two requests. -/
structure Ordered (key : RawMarket → κ) (position : String → κ) (fetch : KeysetFetch) : Prop where
  ordered : fetch.rawMarkets.Pairwise (key · < key ·)
  reading : fetch.ended = false →
    Keyset.Collected key fetch.rawMarkets (fetch.cursor.map position)

/-- A market is read already, or it is behind the cursor. -/
def Reached (key : RawMarket → κ) (position : String → κ) (raw : RawMarket)
    (fetch : KeysetFetch) : Prop :=
  raw ∈ fetch.rawMarkets ∨
    fetch.ended = false ∧ ∀ last ∈ fetch.cursor.map position, last < key raw

variable {key : RawMarket → κ} {position : String → κ} {fetch next : KeysetFetch}
  {reply : KeysetReply}

/-- What a page does: the first empty one ends the fetch, any other one is kept. -/
theorem KeysetFetch.step_cases (taken : fetch.step reply = some next) :
    fetch.ended = false ∧
      (reply.body.markets = [] ∧ next = { fetch with ended := true } ∨
        reply.body.markets ≠ [] ∧
          next.rawMarkets = fetch.rawMarkets ++ reply.body.markets ∧
          next.cursor = reply.body.nextCursor ∧
          (next.ended = true ↔ reply.body.nextCursor.getD "" = "")) := by
  unfold KeysetFetch.step KeysetFetch.read at taken
  split at taken
  · cases taken
  rename_i goesOn
  refine ⟨eq_false_of_ne_true goesOn, ?_⟩
  split at taken
  · rename_i nothing
    obtain rfl := Option.some.inj taken
    exact .inl ⟨List.isEmpty_iff.mp nothing, rfl⟩
  · rename_i something
    obtain rfl := Option.some.inj taken
    refine .inr ⟨fun nothing => something (List.isEmpty_iff.mpr nothing), rfl, rfl, ?_⟩
    exact decide_eq_true_iff

/-- A page that is kept ends the fetch just when it names no cursor. -/
theorem Served.ended_iff (served : Served key position fetch reply) :
    reply.body.nextCursor.getD "" = "" ↔ reply.body.nextCursor.map position = none := by
  cases named : reply.body.nextCursor with
  | none => simp
  | some cursor =>
    have nonempty := served.named cursor named
    simp [nonempty]

theorem Ordered.step (ordered : Ordered key position fetch)
    (served : Served key position fetch reply) (taken : fetch.step reply = some next) :
    Ordered key position next := by
  obtain ⟨goesOn, ⟨-, rfl⟩ | ⟨-, kept, current, ends⟩⟩ := KeysetFetch.step_cases taken
  · exact ⟨ordered.ordered, nofun⟩
  have read := ordered.reading goesOn
  constructor
  · rw [kept]
    exact read.ordered_append served.page served.ordered
  · intro reading
    rw [kept, current]
    apply read.append served.page served.ordered
    by_contra nowhere
    have last := served.ended_iff.mpr (Option.not_isSome_iff_eq_none.mp nowhere)
    exact Bool.false_ne_true (reading.symm.trans (ends.mpr last))

/-- A market that is listed at a request is not passed over. -/
theorem Reached.step {raw : RawMarket} (reached : Reached key position raw fetch)
    (served : Served key position fetch reply) (listed : raw ∈ reply.listing)
    (taken : fetch.step reply = some next) : Reached key position raw next := by
  obtain ⟨goesOn, ⟨empty, rfl⟩ | ⟨-, kept, current, ends⟩⟩ := KeysetFetch.step_cases taken
  · cases reached with
    | inl found => exact .inl found
    | inr ahead =>
      cases served.page.reaches served.ordered listed ahead.2 with
      | inl onPage =>
        rw [empty] at onPage
        cases onPage
      | inr further =>
        obtain ⟨cursor, isNext, -⟩ := further
        obtain ⟨row, isLast, -⟩ := served.page.last cursor isNext
        rw [empty] at isLast
        cases isLast
  · cases reached with
    | inl found =>
      refine .inl ?_
      rw [kept]
      exact List.mem_append_left _ found
    | inr ahead =>
      cases served.page.reaches served.ordered listed ahead.2 with
      | inl onPage =>
        refine .inl ?_
        rw [kept]
        exact List.mem_append_right _ onPage
      | inr further =>
        obtain ⟨cursor, isNext, before⟩ := further
        refine .inr ⟨?_, ?_⟩
        · cases isEnded : next.ended with
          | false => rfl
          | true =>
            rw [served.ended_iff.mp (ends.mp isEnded)] at isNext
            cases isNext
        · intro last isLast
          rw [current, isNext] at isLast
          obtain rfl := Option.some.inj isLast
          exact before

/-- Every request but the last one adds a market. -/
theorem KeysetFetch.requests_le {replies : List KeysetReply}
    (completed : Runs.run KeysetFetch.step .start replies = some fetch) :
    replies.length ≤ fetch.rawMarkets.length + 1 := by
  let few (replies : List KeysetReply) (fetch : KeysetFetch) : Prop :=
    replies.length ≤ fetch.rawMarkets.length + fetch.ended.toNat
  have counted : few replies fetch := by
    refine Runs.invariant_history ?_ completed (Nat.zero_le _)
    intro before fetch reply next taken (counted : before.length ≤ _)
    change (before ++ [reply]).length ≤ next.rawMarkets.length + next.ended.toNat
    obtain ⟨goesOn, ⟨-, rfl⟩ | ⟨something, kept, -, -⟩⟩ := KeysetFetch.step_cases taken
    · rw [goesOn] at counted
      rw [List.length_append]
      exact Nat.add_le_add_right counted 1
    · have one := List.length_pos_iff.mpr something
      rw [goesOn, Bool.toNat_false, Nat.add_zero] at counted
      rw [kept, List.length_append, List.length_append, List.length_singleton]
      omega
  exact counted.trans (Nat.add_le_add_left (Bool.toNat_le fetch.ended) _)

/-- What a page shows was listed at its request. -/
theorem came_from_a_listing {replies : List KeysetReply}
    (completed : Runs.run KeysetFetch.step .start replies = some fetch)
    (served : Runs.Along KeysetFetch.step (Served key position) .start replies) :
    ∀ raw ∈ fetch.rawMarkets, ∃ reply ∈ replies, raw ∈ reply.listing := by
  have among : Runs.Along KeysetFetch.step (fun _ reply => reply ∈ replies) .start replies :=
    Runs.along_of_forall _ replies fun _ isReply _ => isReply
  let came (fetch : KeysetFetch) : Prop :=
    ∀ raw ∈ fetch.rawMarkets, ∃ reply ∈ replies, raw ∈ reply.listing
  have kept (before : KeysetFetch) (reply : KeysetReply) (after : KeysetFetch)
      (answered : Served key position before reply ∧ reply ∈ replies)
      (taken : before.step reply = some after) (known : came before) : came after := by
    obtain ⟨served, isReply⟩ := answered
    intro raw member
    obtain ⟨-, ⟨-, rfl⟩ | ⟨-, kept, -, -⟩⟩ := KeysetFetch.step_cases taken
    · exact known raw member
    · rw [kept] at member
      cases List.mem_append.mp member with
      | inl old => exact known raw old
      | inr new => exact ⟨reply, isReply, (served.page.mem new).1⟩
  exact Runs.invariant_along kept (served.and among) completed nofun

/-- A market that is listed at every request is read when the fetch ends. -/
theorem standing_market_is_read {replies : List KeysetReply}
    (completed : Runs.run KeysetFetch.step .start replies = some fetch)
    (served : Runs.Along KeysetFetch.step (Served key position) .start replies)
    (ended : fetch.ended = true) {raw : RawMarket}
    (listed : ∀ reply ∈ replies, raw ∈ reply.listing) : raw ∈ fetch.rawMarkets := by
  have among : Runs.Along KeysetFetch.step (fun _ reply => raw ∈ reply.listing) .start replies :=
    Runs.along_of_forall _ replies fun reply isReply _ => listed reply isReply
  have reached : Reached key position raw fetch :=
    Runs.invariant_along (fun _ _ _ answered taken before =>
      before.step answered.1 answered.2 taken) (served.and among) completed
      (.inr ⟨rfl, nofun⟩)
  cases reached with
  | inl found => exact found
  | inr ahead => exact absurd (ahead.1.symm.trans ended) Bool.false_ne_true

theorem ordered_of_run {replies : List KeysetReply}
    (completed : Runs.run KeysetFetch.step .start replies = some fetch)
    (served : Runs.Along KeysetFetch.step (Served key position) .start replies) :
    fetch.rawMarkets.Pairwise (key · < key ·) := by
  have ordered : Ordered key position fetch :=
    Runs.invariant_along (fun _ _ _ answered taken before => before.step answered taken) served
      completed ⟨.nil, fun _ => Keyset.collected_nil⟩
  exact ordered.ordered

/-- While nothing changes, the fetch reads just what is listed. -/
theorem unchanged_listing_is_read {replies : List KeysetReply}
    (completed : Runs.run KeysetFetch.step .start replies = some fetch)
    (served : Runs.Along KeysetFetch.step (Served key position) .start replies)
    (ended : fetch.ended = true) {listing : List RawMarket}
    (unchanged : ∀ reply ∈ replies, reply.listing = listing) : fetch.rawMarkets = listing := by
  cases replies with
  | nil =>
    obtain rfl := Option.some.inj completed
    cases ended
  | cons first rest =>
    have same := unchanged first List.mem_cons_self
    refine Keyset.eq_of_ordered (ordered_of_run completed served)
      (same ▸ served.1.ordered) fun raw => ?_
    constructor
    · intro member
      obtain ⟨reply, isReply, listed⟩ := came_from_a_listing completed served raw member
      exact unchanged reply isReply ▸ listed
    · intro listed
      apply standing_market_is_read completed served ended
      intro reply isReply
      rw [unchanged reply isReply]
      exact listed

/-- Whatever is created and closed during the fetch, a market that is listed at every request is
among those read, all of which were listed at some request. None is read twice, there is at most
one request more than markets, and what the parser makes of them has every market that stood. -/
theorem standing_markets_are_fetched (python : Library) {replies : List KeysetReply}
    (completed : Runs.run KeysetFetch.step .start replies = some fetch)
    (served : Runs.Along KeysetFetch.step (Served key position) .start replies)
    (ended : fetch.ended = true) :
    (∀ raw, (∀ reply ∈ replies, raw ∈ reply.listing) → raw ∈ fetch.rawMarkets) ∧
      (∀ raw ∈ fetch.rawMarkets, ∃ reply ∈ replies, raw ∈ reply.listing) ∧
      fetch.rawMarkets.Pairwise (key · < key ·) ∧
      replies.length ≤ fetch.rawMarkets.length + 1 ∧
      ∀ active, parseMarkets python fetch.rawMarkets = some active →
        (∀ raw subscription, (∀ reply ∈ replies, raw ∈ reply.listing) →
          parseRecord python raw = some (some subscription) → subscription ∈ active.markets) ∧
        ∀ subscription ∈ active.markets, ∃ reply ∈ replies, ∃ raw ∈ reply.listing,
          parseRecord python raw = some (some subscription) := by
  have stands (raw : RawMarket) (listed : ∀ reply ∈ replies, raw ∈ reply.listing) :
      raw ∈ fetch.rawMarkets := standing_market_is_read completed served ended listed
  have came := came_from_a_listing completed served
  refine ⟨stands, came, ordered_of_run completed served, KeysetFetch.requests_le completed, ?_⟩
  intro active parsed
  have markets := (markets_of_run parsed).2
  rw [List.nil_append] at markets
  rw [markets]
  constructor
  · intro raw subscription listed isMarket
    refine List.mem_filterMap.mpr ⟨raw, stands raw listed, ?_⟩
    rw [isMarket]
    rfl
  · intro subscription member
    obtain ⟨raw, isRead, isMarket⟩ := List.mem_filterMap.mp member
    obtain ⟨reply, isReply, listed⟩ := came raw isRead
    exact ⟨reply, isReply, raw, listed, Option.join_eq_some_iff.mp isMarket⟩

end Keyset

/-- A binary market. -/
def sampleMarket (conditionId : String) : RawMarket :=
  ⟨some conditionId, .array ["1", "2"], .array ["Yes", "No"], none, none⟩

/-- Gamma's order of the markets; a cursor is the id of the last one. -/
def samplePosition (cursor : String) : Nat := ["0xa", "0xb", "0xc", "0xd"].idxOf cursor

/-- The first market is closed and the last one created between both requests. -/
def sampleReplies : List KeysetReply :=
  [⟨[sampleMarket "0xa", sampleMarket "0xb", sampleMarket "0xc"],
      ⟨[sampleMarket "0xa", sampleMarket "0xb"], some "0xb"⟩⟩,
    ⟨[sampleMarket "0xb", sampleMarket "0xc", sampleMarket "0xd"],
      ⟨[sampleMarket "0xc", sampleMarket "0xd"], none⟩⟩]

theorem sample_standing_markets :
    ∃ fetch active, Runs.run KeysetFetch.step .start sampleReplies = some fetch ∧
      fetch.ended = true ∧ parseMarkets sampleLibrary fetch.rawMarkets = some active ∧
      ⟨"0xc", .ofString "1", .ofString "2"⟩ ∈ active.markets := by
  refine ⟨_, _, rfl, rfl, rfl, ?_⟩
  have served : Runs.Along KeysetFetch.step
      (Served (fun raw => samplePosition raw.id) samplePosition) .start sampleReplies := by
    refine .cons ⟨by decide, ?_, ⟨⟨[sampleMarket "0xc"], rfl⟩, ?_, nofun⟩⟩ rfl
      (.cons ⟨by decide, nofun, ⟨⟨[], rfl⟩, nofun, fun _ => rfl⟩⟩ rfl trivial)
    · rintro cursor ⟨⟩
      decide
    · rintro last ⟨⟩
      exact ⟨sampleMarket "0xb", rfl, rfl⟩
  have fetched := standing_markets_are_fetched sampleLibrary rfl served rfl
  apply (fetched.2.2.2.2 _ rfl).1 (sampleMarket "0xc") _ _ rfl
  intro reply member
  rcases List.mem_pair.mp member with rfl | rfl
  · exact .tail _ (.tail _ (.head _))
  · exact .tail _ (.head _)

section Offsets

/-- `FETCH_BATCH_SIZE` of the Rust fallback. -/
def fetchBatchSize : Nat := 500

/-- `MAX_OFFSET` -/
def maxOffset : Nat := 60000

/-- `fetch_active_markets` between two requests. -/
structure OffsetFetch where
  all : List Market
  offset : Nat
  ended : Bool

def OffsetFetch.start : OffsetFetch := ⟨[], 0, false⟩

variable (read : String → Option Json)

/-- The loop body: a page with fewer markets than asked for is the last one. -/
def OffsetFetch.step (fetch : OffsetFetch) (raw : List RawMarket) : Option OffsetFetch :=
  if fetch.ended then none
  else
    let all := fetch.all ++ raw.filterMap (parseMarket read)
    if raw.length < fetchBatchSize then some { fetch with
      all := all
      ended := true }
    else some {
      all := all
      offset := fetch.offset + fetchBatchSize
      ended := maxOffset ≤ fetch.offset + fetchBatchSize }

/-- Gamma answers a request with what it lists behind the offset, no more than asked for. -/
def OffsetFetch.request (fetch : OffsetFetch) (listing : List RawMarket) : Option OffsetFetch :=
  fetch.step read ((listing.drop fetch.offset).take fetchBatchSize)

variable {read} {fetch next : OffsetFetch} {page listing : List RawMarket}

/-- What a page does: a short one is the last, and so is one that reaches the largest offset. -/
theorem OffsetFetch.step_cases (taken : fetch.step read page = some next) :
    fetch.ended = false ∧ next.all = fetch.all ++ page.filterMap (parseMarket read) ∧
      (page.length < fetchBatchSize ∧ next.ended = true ∨
        fetchBatchSize ≤ page.length ∧ next.offset = fetch.offset + fetchBatchSize ∧
          (next.ended = true ↔ maxOffset ≤ fetch.offset + fetchBatchSize)) := by
  unfold OffsetFetch.step at taken
  split at taken
  · cases taken
  rename_i goesOn
  refine ⟨eq_false_of_ne_true goesOn, ?_⟩
  simp only at taken
  split at taken
  · rename_i short
    obtain rfl := Option.some.inj taken
    exact ⟨rfl, .inl ⟨short, rfl⟩⟩
  · rename_i full
    obtain rfl := Option.some.inj taken
    refine ⟨rfl, .inr ⟨Nat.le_of_not_lt full, rfl, ?_⟩⟩
    dsimp only
    rw [decide_eq_true_iff]

/-- How far a fetch is after some requests. -/
structure Counted (requests : Nat) (fetch : OffsetFetch) : Prop where
  reading : fetch.ended = false →
    fetch.offset = requests * fetchBatchSize ∧ fetch.offset < maxOffset
  bounded : requests * fetchBatchSize ≤ maxOffset

/-- The largest offset is a number of whole pages. -/
theorem Counted.step {requests : Nat} (counted : Counted requests fetch)
    (taken : fetch.step read page = some next) : Counted (requests + 1) next := by
  obtain ⟨goesOn, -, ends⟩ := OffsetFetch.step_cases taken
  obtain ⟨here, below⟩ := counted.reading goesOn
  have nextPage : (requests + 1) * fetchBatchSize = fetch.offset + fetchBatchSize := by
    rw [here, Nat.succ_mul]
  have room : fetch.offset + fetchBatchSize ≤ maxOffset := by
    rw [here] at below ⊢
    simp only [fetchBatchSize, maxOffset] at below ⊢
    omega
  refine ⟨?_, nextPage ▸ room⟩
  intro reading
  obtain ⟨-, isEnded⟩ | ⟨-, moved, reaches⟩ := ends
  · exact absurd (reading.symm.trans isEnded) Bool.false_ne_true
  · refine ⟨moved.trans nextPage.symm, ?_⟩
    rw [moved]
    by_contra tooFar
    exact Bool.false_ne_true (reading.symm.trans (reaches.mpr (Nat.le_of_not_lt tooFar)))

/-- What some pages have given. -/
structure Gathered (read : String → Option Json) (pages : List (List RawMarket))
    (fetch : OffsetFetch) : Prop where
  counted : Counted pages.length fetch
  all : fetch.all = pages.flatten.filterMap (parseMarket read)

/-- Whatever Gamma answers, the fetch is short and keeps the markets of all its pages. -/
theorem gathered_of_run {pages : List (List RawMarket)}
    (completed : Runs.run (OffsetFetch.step read) .start pages = some fetch) :
    Gathered read pages fetch := by
  refine Runs.invariant_history ?_ completed
    ⟨⟨fun _ => ⟨rfl, by decide⟩, Nat.zero_le _⟩, rfl⟩
  rintro before fetch page next taken ⟨counted, kept⟩
  constructor
  · rw [List.length_append, List.length_singleton]
    exact counted.step taken
  · obtain ⟨-, all, -⟩ := OffsetFetch.step_cases taken
    rw [all, kept, List.flatten_concat, List.filterMap_append]

/-- What an unchanged listing has given. -/
structure Scanned (read : String → Option Json) (listing : List RawMarket) (fetch : OffsetFetch) :
    Prop where
  counted : ∃ requests, Counted requests fetch
  reading : fetch.ended = false →
    fetch.all = (listing.take fetch.offset).filterMap (parseMarket read)
  ended : fetch.ended = true → fetch.all = (listing.take maxOffset).filterMap (parseMarket read)

theorem Scanned.request (scanned : Scanned read listing fetch)
    (taken : fetch.request read listing = some next) : Scanned read listing next := by
  obtain ⟨requests, counted⟩ := scanned.counted
  have after := counted.step taken
  obtain ⟨goesOn, all, ends⟩ := OffsetFetch.step_cases taken
  obtain ⟨here, -⟩ := counted.reading goesOn
  have whole : next.all =
      (listing.take (fetch.offset + fetchBatchSize)).filterMap (parseMarket read) := by
    rw [all, scanned.reading goesOn, List.take_add, List.filterMap_append]
  have room : fetch.offset + fetchBatchSize ≤ maxOffset := by
    rw [here, ← Nat.succ_mul]
    exact after.bounded
  obtain ⟨short, isEnded⟩ | ⟨-, moved, reaches⟩ := ends
  · refine ⟨⟨_, after⟩, fun reading => absurd (reading.symm.trans isEnded) Bool.false_ne_true, ?_⟩
    intro _
    rw [List.length_take, List.length_drop] at short
    rw [whole, List.take_of_length_le (by omega), List.take_of_length_le (by omega)]
  · refine ⟨⟨_, after⟩, fun _ => moved ▸ whole, ?_⟩
    intro isEnded
    rw [whole, Nat.le_antisymm room (reaches.mp isEnded)]

theorem unchanged_listing_is_scanned {listings : List (List RawMarket)}
    (completed : Runs.run (OffsetFetch.request read) .start listings = some fetch)
    (ended : fetch.ended = true) (unchanged : ∀ other ∈ listings, other = listing) :
    fetch.all = (listing.take maxOffset).filterMap (parseMarket read) := by
  have along : Runs.Along (OffsetFetch.request read) (fun _ other => other = listing) .start
      listings := Runs.along_of_forall _ listings fun other isListing _ => unchanged other isListing
  have scanned : Scanned read listing fetch := by
    refine Runs.invariant_along ?_ along completed ⟨⟨0, fun _ => ⟨rfl, by decide⟩, Nat.zero_le _⟩,
      fun _ => rfl, nofun⟩
    rintro before other after rfl taken scanned
    exact scanned.request taken
  exact scanned.ended ended

/-- The first part of a list gives all of its markets when the rest has none. -/
theorem filterMap_take_eq_iff (count : Nat) :
    (listing.take count).filterMap (parseMarket read) = listing.filterMap (parseMarket read) ↔
      ∀ raw ∈ listing.drop count, parseMarket read raw = none := by
  conv_lhs => rw [← List.take_append_drop count listing, List.filterMap_append]
  rw [List.take_append_drop, List.self_eq_append_right, List.filterMap_eq_nil_iff]

/-- Whatever Gamma answers, the fallback asks at most 120 times and returns the binary markets of
all its pages. Of a listing that does not change it returns those among the first 60000, all of
them just when there are no others. A market that leaves between two requests costs another one
that stays. -/
theorem first_markets_are_fetched (read : String → Option Json) :
    (∀ pages fetch, Runs.run (OffsetFetch.step read) .start pages = some fetch →
      pages.length ≤ 120 ∧ fetch.all = pages.flatten.filterMap (parseMarket read)) ∧
    (∀ listing listings fetch,
      Runs.run (OffsetFetch.request read) .start listings = some fetch →
        fetch.ended = true → (∀ other ∈ listings, other = listing) →
          fetch.all = (listing.take maxOffset).filterMap (parseMarket read) ∧
          (fetch.all = listing.filterMap (parseMarket read) ↔
            ∀ raw ∈ listing.drop maxOffset, parseMarket read raw = none)) ∧
    ∀ first rest, rest.length = fetchBatchSize → ∃ fetch,
      Runs.run (OffsetFetch.request read) .start [first :: rest, rest] = some fetch ∧
        fetch.ended = true ∧
        fetch.all = (first :: rest).dropLast.filterMap (parseMarket read) := by
  refine ⟨?_, ?_, ?_⟩
  · intro pages fetch completed
    obtain ⟨counted, all⟩ := gathered_of_run completed
    refine ⟨?_, all⟩
    have bounded := counted.bounded
    simp only [fetchBatchSize, maxOffset] at bounded
    omega
  · intro listing listings fetch completed ended unchanged
    have all := unchanged_listing_is_scanned completed ended unchanged
    refine ⟨all, ?_⟩
    rw [all]
    exact filterMap_take_eq_iff maxOffset
  · intro first rest full
    have kept : (first :: rest).take fetchBatchSize = (first :: rest).dropLast := by
      rw [List.dropLast_eq_take, List.length_cons, full, Nat.add_sub_cancel]
    have whole : ¬ (first :: rest).dropLast.length < fetchBatchSize := by
      rw [List.length_dropLast, List.length_cons, full, Nat.add_sub_cancel]
      exact lt_irrefl _
    have nothing : rest.drop fetchBatchSize = [] := List.drop_of_length_le full.le
    have goesOn : ¬ maxOffset ≤ fetchBatchSize := by decide
    have positive : 0 < fetchBatchSize := by decide
    let all := (first :: rest).dropLast.filterMap (parseMarket read)
    have one : OffsetFetch.request read .start (first :: rest) =
        some ⟨all, fetchBatchSize, false⟩ := by
      simp only [OffsetFetch.request, OffsetFetch.start, List.drop_zero, kept, OffsetFetch.step,
        if_neg whole, goesOn, decide_false, Bool.false_eq_true, if_false, List.nil_append,
        Nat.zero_add, all]
    have other : OffsetFetch.request read ⟨all, fetchBatchSize, false⟩ rest =
        some ⟨all, fetchBatchSize, true⟩ := by
      simp only [OffsetFetch.request, nothing, List.take_nil, OffsetFetch.step, List.length_nil,
        if_pos positive, Bool.false_eq_true, if_false, List.filterMap_nil, List.append_nil]
    refine ⟨⟨all, fetchBatchSize, true⟩, ?_, rfl, rfl⟩
    rw [Runs.run_cons, one, Option.bind_some, Runs.run_cons, other]
    rfl

/-- A full page and what is left, of a listing that does not change. -/
theorem two_requests {first rest : List RawMarket} (full : first.length = fetchBatchSize)
    (short : rest.length < fetchBatchSize) :
    Runs.run (OffsetFetch.request read) .start [first ++ rest, first ++ rest] =
      some ⟨(first ++ rest).filterMap (parseMarket read), fetchBatchSize, true⟩ := by
  have goesOn : ¬ maxOffset ≤ fetchBatchSize := by decide
  have one : OffsetFetch.request read .start (first ++ rest) =
      some ⟨first.filterMap (parseMarket read), fetchBatchSize, false⟩ := by
    simp [OffsetFetch.request, OffsetFetch.start, OffsetFetch.step, ← full, full ▸ goesOn]
  have other : OffsetFetch.request read
      ⟨first.filterMap (parseMarket read), fetchBatchSize, false⟩ (first ++ rest) =
        some ⟨(first ++ rest).filterMap (parseMarket read), fetchBatchSize, true⟩ := by
    rw [← full] at short ⊢
    simp [OffsetFetch.request, OffsetFetch.step, ← full, short, List.take_of_length_le short.le]
  rw [Runs.run_cons, one, Option.bind_some, Runs.run_cons, other]
  rfl

/-- An id for each number, longer than those before it. -/
def sampleId (index : Nat) : String := String.ofList (List.replicate (index + 1) '0')

/-- As many markets as fit into a page, and one more. -/
def sampleIds : List String := (List.range fetchBatchSize).map sampleId

def lastId : String := sampleId fetchBatchSize

/-- A market as the Rust fallback keeps it. -/
def sampleParsed (conditionId : String) : Market := ⟨conditionId, "1", "2"⟩

theorem parse_sampleMarkets (conditionIds : List String) :
    (conditionIds.map sampleMarket).filterMap (parseMarket (Json.parse recursionLimit)) =
      conditionIds.map sampleParsed := by
  rw [List.filterMap_map, ← List.filterMap_eq_map]
  rfl

theorem length_sampleIds : sampleIds.length = fetchBatchSize := by
  rw [sampleIds, List.length_map, List.length_range]

theorem sample_first_markets :
    ∃ fetch, Runs.run (OffsetFetch.request (Json.parse recursionLimit)) .start
        [sampleIds.map sampleMarket ++ [sampleMarket lastId],
          sampleIds.map sampleMarket ++ [sampleMarket lastId]] = some fetch ∧
      fetch.all = sampleIds.map sampleParsed ++ [sampleParsed lastId] := by
  let listing := sampleIds.map sampleMarket ++ [sampleMarket lastId]
  have full : (sampleIds.map sampleMarket).length = fetchBatchSize := by
    rw [List.length_map, length_sampleIds]
  have short : [sampleMarket lastId].length < fetchBatchSize := by decide
  have completed : Runs.run (OffsetFetch.request (Json.parse recursionLimit)) .start
      [listing, listing] = some _ := two_requests full short
  refine ⟨_, completed, ?_⟩
  have fetched := (first_markets_are_fetched (Json.parse recursionLimit)).2.1
  have all := (fetched listing [listing, listing] _ completed rfl ?_).1
  · rw [all, List.take_of_length_le, List.filterMap_append, parse_sampleMarkets]
    · rfl
    · rw [List.length_append, full]
      decide
  · exact fun other member => (List.mem_pair.mp member).elim id id

end Offsets

/-- Both fetches of an unchanged listing of no more than 60000 markets bring the same markets,
where the parsers agree on it. -/
theorem fetches_alike {κ : Type} [LinearOrder κ] {key : RawMarket → κ} {position : String → κ}
    {read : String → Option Json} {python : Library} {listing : List RawMarket}
    (few : listing.length ≤ maxOffset) (agrees : Agrees read python listing)
    {replies : List KeysetReply} {keyset : KeysetFetch}
    (followed : Runs.run KeysetFetch.step .start replies = some keyset)
    (served : Runs.Along KeysetFetch.step (Served key position) .start replies)
    (keysetEnded : keyset.ended = true) (unchanged : ∀ reply ∈ replies, reply.listing = listing)
    {listings : List (List RawMarket)} {fetch : OffsetFetch}
    (counted : Runs.run (OffsetFetch.request read) .start listings = some fetch)
    (ended : fetch.ended = true) (same : ∀ other ∈ listings, other = listing) :
    ∃ active, parseMarkets python keyset.rawMarkets = some active ∧
      active.markets = fetch.all.map .ofMarket := by
  rw [unchanged_listing_is_read followed served keysetEnded unchanged,
    unchanged_listing_is_scanned counted ended same, List.take_of_length_le few]
  exact agrees

/-- What the Python client makes of sample markets. -/
theorem run_sampleMarkets (conditionIds : List String) (known : List MarketSubscription) :
    Runs.run (parseNext sampleLibrary) ⟨known, none, none⟩ (conditionIds.map sampleMarket) =
      some ⟨known ++ (conditionIds.map sampleParsed).map .ofMarket, none, none⟩ := by
  induction conditionIds generalizing known with
  | nil => simp [Runs.run]
  | cons conditionId conditionIds inductionHypothesis =>
    have one : parseNext sampleLibrary ⟨known, none, none⟩ (sampleMarket conditionId) =
        some ⟨known ++ [.ofMarket (sampleParsed conditionId)], none, none⟩ := rfl
    rw [List.map_cons, Runs.run_cons, one, Option.bind_some, inductionHypothesis, List.map_cons,
      List.map_cons, List.append_assoc, List.singleton_append]

theorem agrees_sampleMarkets (conditionIds : List String) :
    Agrees (Json.parse recursionLimit) sampleLibrary (conditionIds.map sampleMarket) := by
  refine ⟨_, run_sampleMarkets conditionIds [], ?_⟩
  rw [parse_sampleMarkets, List.nil_append]

/-- Two pages of a listing that does not change, the second one with its last market. -/
def twoPages (first : List RawMarket) (last : RawMarket) (cursor : String) : List KeysetReply :=
  [⟨first ++ [last], ⟨first, some cursor⟩⟩, ⟨first ++ [last], ⟨[last], none⟩⟩]

theorem run_twoPages {first : List RawMarket} {last : RawMarket} {cursor : String}
    (something : first ≠ []) (named : cursor ≠ "") :
    Runs.run KeysetFetch.step .start (twoPages first last cursor) =
      some ⟨first ++ [last], none, true⟩ := by
  simp [twoPages, Runs.run, KeysetFetch.step, KeysetFetch.read, KeysetFetch.start, something, named]

/-- Behind the first page there is one market. -/
theorem behind_first {κ : Type} [LinearOrder κ] {key : RawMarket → κ} {first : List RawMarket}
    {row last : RawMarket} (ordered : (first ++ [row] ++ [last]).Pairwise (key · < key ·)) :
    Keyset.behind key (some (key row)) (first ++ [row] ++ [last]) = [last] := by
  obtain ⟨before, -, later⟩ := List.pairwise_append.mp ordered
  have earlier := (List.pairwise_append.mp before).2.2
  have passed : ∀ raw ∈ first ++ [row], ¬ key row < key raw := by
    intro raw member
    rcases List.mem_append.mp member with isEarlier | isRow
    · exact (earlier raw isEarlier row (List.mem_singleton_self row)).asymm
    · rw [List.mem_singleton.mp isRow]
      exact lt_irrefl _
  have ahead : key row < key last :=
    later row (List.mem_append_right first (List.mem_singleton_self row)) last
      (List.mem_singleton_self last)
  rw [Keyset.behind, List.filter_append, List.filter_eq_nil_iff.mpr (by simpa using passed)]
  simpa using ahead

theorem served_twoPages {κ : Type} [LinearOrder κ] {key : RawMarket → κ} {position : String → κ}
    {first : List RawMarket} {row last : RawMarket} {cursor : String} (named : cursor ≠ "")
    (ordered : (first ++ [row] ++ [last]).Pairwise (key · < key ·))
    (stands : position cursor = key row) :
    Runs.Along KeysetFetch.step (Served key position) .start
      (twoPages (first ++ [row]) last cursor) := by
  have whole : Keyset.behind key none (first ++ [row] ++ [last]) = first ++ [row] ++ [last] := by
    simp [Keyset.behind]
  have rest := behind_first ordered
  rw [← stands] at rest
  have one : KeysetFetch.step .start ⟨first ++ [row] ++ [last], ⟨first ++ [row], some cursor⟩⟩ =
      some ⟨first ++ [row], some cursor, false⟩ := by
    simp [KeysetFetch.step, KeysetFetch.read, KeysetFetch.start, named]
  have other : KeysetFetch.step ⟨first ++ [row], some cursor, false⟩
      ⟨first ++ [row] ++ [last], ⟨[last], none⟩⟩ =
        some ⟨first ++ [row] ++ [last], none, true⟩ := by
    simp [KeysetFetch.step, KeysetFetch.read]
  refine .cons ⟨ordered, ?_, ⟨?_, ?_, ?_⟩⟩ one
    (.cons ⟨ordered, ?_, ⟨?_, ?_, ?_⟩⟩ other trivial)
  · intro _ isCursor
    obtain rfl := Option.some.inj isCursor
    exact named
  · change _ <+: Keyset.behind key none (first ++ [row] ++ [last])
    rw [whole]
    exact List.prefix_append _ _
  · intro _ isCursor
    obtain rfl := Option.some.inj isCursor
    exact ⟨row, List.getLast?_concat, stands.symm⟩
  · intro ended
    exact absurd ended (Option.some_ne_none _)
  · intro _ isCursor
    exact absurd isCursor.symm (Option.some_ne_none _)
  · exact (show [last] = _ from rest.symm) ▸ List.prefix_rfl
  · intro _ isCursor
    exact absurd isCursor.symm (Option.some_ne_none _)
  · exact fun _ => rest.symm

/-- How the keyset endpoint orders the sample; a cursor is the id of the last market. -/
def idLength (raw : RawMarket) : Nat := raw.id.length

theorem idLength_sample (index : Nat) : idLength (sampleMarket (sampleId index)) = index + 1 := by
  change (sampleId index).length = index + 1
  rw [sampleId, String.length_ofList, List.length_replicate]

/-- The markets of the first page, the last one by itself. -/
theorem sampleMarkets_eq : sampleIds.map sampleMarket =
    ((List.range (fetchBatchSize - 1)).map sampleId).map sampleMarket ++
      [sampleMarket (sampleId (fetchBatchSize - 1))] := by
  have size : fetchBatchSize = fetchBatchSize - 1 + 1 := rfl
  conv_lhs => rw [sampleIds, size, List.range_succ, List.map_append, List.map_append]
  rfl

theorem sampleListing_ordered :
    (sampleIds.map sampleMarket ++ [sampleMarket lastId]).Pairwise (idLength · < idLength ·) := by
  have whole : sampleIds.map sampleMarket ++ [sampleMarket lastId] =
      (List.range (fetchBatchSize + 1)).map fun index => sampleMarket (sampleId index) := by
    rw [List.range_succ, List.map_append, sampleIds, List.map_map]
    rfl
  rw [whole, List.pairwise_map]
  refine List.pairwise_lt_range.imp ?_
  intro left right before
  rw [idLength_sample, idLength_sample]
  exact Nat.succ_lt_succ before

/-- The keyset endpoint gives the listing in two pages, as the other one does. -/
theorem sample_fetches_alike :
    ∃ keyset fetch active,
      Runs.run KeysetFetch.step .start (twoPages (sampleIds.map sampleMarket)
        (sampleMarket lastId) (sampleId (fetchBatchSize - 1))) = some keyset ∧
      Runs.run (OffsetFetch.request (Json.parse recursionLimit)) .start
        [sampleIds.map sampleMarket ++ [sampleMarket lastId],
          sampleIds.map sampleMarket ++ [sampleMarket lastId]] = some fetch ∧
      parseMarkets sampleLibrary keyset.rawMarkets = some active ∧
      active.markets = fetch.all.map .ofMarket := by
  let listing := sampleIds.map sampleMarket ++ [sampleMarket lastId]
  have full : (sampleIds.map sampleMarket).length = fetchBatchSize := by
    rw [List.length_map, length_sampleIds]
  have named : sampleId (fetchBatchSize - 1) ≠ "" := by
    intro empty
    have length := congrArg String.length empty
    rw [sampleId, String.length_ofList, List.length_replicate] at length
    cases length
  have served : Runs.Along KeysetFetch.step (Served idLength String.length) .start
      (twoPages (sampleIds.map sampleMarket) (sampleMarket lastId)
        (sampleId (fetchBatchSize - 1))) := by
    have ordered := sampleListing_ordered
    rw [sampleMarkets_eq] at ordered ⊢
    exact served_twoPages named ordered rfl
  have something : sampleIds.map sampleMarket ≠ [] := by
    rw [sampleMarkets_eq]
    exact List.append_ne_nil_of_right_ne_nil _ (List.cons_ne_nil _ _)
  have followed : Runs.run KeysetFetch.step .start (twoPages (sampleIds.map sampleMarket)
      (sampleMarket lastId) (sampleId (fetchBatchSize - 1))) = some _ :=
    run_twoPages something named
  have short : [sampleMarket lastId].length < fetchBatchSize := by decide
  have counted : Runs.run (OffsetFetch.request (Json.parse recursionLimit)) .start
      [listing, listing] = some _ := two_requests full short
  have few : listing.length ≤ maxOffset := by
    rw [List.length_append, full]
    decide
  have agrees : Agrees (Json.parse recursionLimit) sampleLibrary listing := by
    have all := agrees_sampleMarkets (sampleIds ++ [lastId])
    rwa [List.map_append] at all
  have unchanged : ∀ reply ∈ twoPages (sampleIds.map sampleMarket) (sampleMarket lastId)
      (sampleId (fetchBatchSize - 1)), reply.listing = listing := by
    intro reply member
    rcases List.mem_pair.mp member with rfl | rfl <;> rfl
  have same : ∀ other ∈ [listing, listing], other = listing :=
    fun other member => (List.mem_pair.mp member).elim id id
  obtain ⟨active, parsed, alike⟩ :=
    fetches_alike few agrees followed served rfl unchanged counted rfl same
  exact ⟨_, _, active, followed, counted, parsed, alike⟩

end Collector.Gamma
