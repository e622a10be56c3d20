import Collector.Capacity

/-!
# A market that is repeated within a batch

A subscription skips markets that are registered already, but it registers a
batch only after it has looked for them, so a market that the batch repeats is
subscribed once for each repetition. The passes then place the same asset
several times, and both the first connection and the entry of the reverse index
keep the last place only. All is well when every repetition lands on the same
two connections, which no shuffle can prevent exactly if the first two
connections with room have room for all new assets.

The owner of an asset is the market it belongs to, and a hash stands for one
market, however often it occurs.
-/

namespace Collector.Pool

open Finset

/-- Markets as the callers hand them over, repetitions included. -/
structure Offer (owner : String → String) (markets : List Market) : Prop where
  owned : ∀ market ∈ markets, Owned owner market
  agree : ∀ market ∈ markets, ∀ other ∈ markets, market.hash = other.hash → market = other

/-- The assets that a batch subscribes to, with their repetitions. -/
def newAssets (pool : Pool) (markets : List Market) : List String :=
  (pool.unregistered markets).flatMap Market.assets

/-- No unregistered market is repeated. -/
def Distinct (pool : Pool) (markets : List Market) : Prop :=
  ((pool.unregistered markets).map Market.hash).Nodup

/-- Free slots of a connection. -/
def room (pool : Pool) (idx : Nat) : Nat := pool.maxAssetsPerConn - pool.held idx

/-- A number of assets fits in an empty connection, in the first connection with
room, and in the first one with room besides that. -/
def Fits (pool : Pool) (count : Nat) : Prop :=
  count ≤ pool.maxAssetsPerConn ∧
    ∀ first, pool.findConnWithCapacity (fun _ => []) none = some first →
      count ≤ pool.room first ∧
        ∀ second, pool.findConnWithCapacity (fun _ => []) (some first) = some second →
          count ≤ pool.room second

/-- Each new asset is carried by the two connections of its entry and by no
other, and by none after its market is unsubscribed. -/
structure Once (pool next : Pool) (markets : List Market) : Prop where
  carried : ∀ asset ∈ pool.newAssets markets, ∃ c1 c2,
    next.assetToConns.lookup asset = some (c1, c2) ∧ c1 ≠ c2 ∧
      ∀ idx, (∃ handle, next.connections[idx]? = some handle ∧ asset ∈ handle.assets) ↔
        idx = c1 ∨ idx = c2
  dropped : ∀ market ∈ pool.unregistered markets, ∀ hashes, market.hash ∈ hashes →
    ∀ handle ∈ (next.unsubscribeMarkets hashes).connections, ∀ asset ∈ market.assets,
      asset ∉ handle.assets

theorem Offer.unregistered {owner : String → String} {markets : List Market}
    (offer : Offer owner markets) (pool : Pool) : Offer owner (pool.unregistered markets) where
  owned := fun market member => offer.owned market (List.mem_of_mem_filter member)
  agree := fun market member other alsoMember =>
    offer.agree market (List.mem_of_mem_filter member) other (List.mem_of_mem_filter alsoMember)

/-- The markets of a batch without repetitions form a proper batch. -/
theorem Offer.batch {owner : String → String} {pool : Pool} {markets : List Market}
    (offer : Offer owner markets) (distinct : Distinct pool markets) :
    Batch owner (pool.unregistered markets) :=
  ⟨distinct, (offer.unregistered pool).owned⟩

/-- The registered markets of a batch play no part. -/
theorem subscribeMarkets_unregistered (pool : Pool) (markets : List Market)
    (first second : Shuffle) :
    pool.subscribeMarkets (pool.unregistered markets) first second =
      pool.subscribeMarkets markets first second := by
  have again : pool.unregistered (pool.unregistered markets) = pool.unregistered markets := by
    simp [unregistered, List.filter_filter]
  simp only [subscribeMarkets, again]

/-- The new markets are registered by the subscription. -/
theorem registered_subscribeMarkets {pool next : Pool} {markets : List Market}
    {first second : Shuffle} {owner : String → String} (offer : Offer owner markets)
    (completed : pool.subscribeMarkets markets first second = some next) :
    ∀ market ∈ pool.unregistered markets, next.markets.lookup market.hash = some market := by
  intro market member
  rcases subscribeMarkets_some completed with ⟨nothing, _⟩ | ⟨count, assignment, rfl⟩
  · have none := List.flatMap_eq_nil_iff.mp (List.isEmpty_iff.mp nothing) market member
    simp [Market.assets] at none
  · obtain ⟨_, _, _, _, spawned⟩ := spawnConnections_spec count
      (pool.register (pool.unregistered markets))
    change (spawnConnections count (pool.register (pool.unregistered markets))).markets.lookup _ = _
    rw [spawned]
    exact (lookup_register (offer.unregistered pool).agree _ _).mpr (Or.inl ⟨member, rfl⟩)

/-- In a routed pool the new assets are subscribed once. -/
theorem Routed.once {owner : String → String} {pool next : Pool} (routed : Routed owner next)
    {markets : List Market} (offer : Offer owner markets)
    (registered : ∀ market ∈ pool.unregistered markets,
      next.markets.lookup market.hash = some market) : Once pool next markets where
  carried := by
    intro asset member
    obtain ⟨market, inside, carried⟩ := List.mem_flatMap.mp member
    have tracked := (routed.tracked asset).mpr
      ⟨market.hash, market, registered market inside, carried⟩
    obtain ⟨⟨c1, c2⟩, entry⟩ := (Maps.mem_iff_lookup _ asset).mp tracked
    obtain ⟨different, first, second⟩ := routed.wired.valid asset c1 c2 entry
    refine ⟨c1, c2, entry, different, ?_⟩
    intro idx
    constructor
    · rintro ⟨handle, present, holds⟩
      obtain ⟨d1, d2, sameEntry, either⟩ := (routed.wired.carries idx handle present asset).mp holds
      obtain ⟨rfl, rfl⟩ := Prod.mk.inj (Option.some.inj (entry.symm.trans sameEntry))
      exact either
    · intro either
      have bounded : idx < next.connections.length := by
        rcases either with rfl | rfl <;> assumption
      have present := List.getElem?_eq_getElem bounded
      exact ⟨_, present, (routed.wired.carries idx _ present asset).mpr ⟨c1, c2, entry, either⟩⟩
  dropped := by
    intro market member hashes named handle present asset carried holds
    have after := routed.unsubscribe hashes
    obtain ⟨idx, found⟩ := List.mem_iff_getElem?.mp present
    obtain ⟨c1, c2, entry, _⟩ := (after.wired.carries idx handle found asset).mp holds
    obtain ⟨hash, other, stays, alsoCarried⟩ :=
      (after.tracked asset).mp ((Maps.mem_iff_lookup _ asset).mpr ⟨_, entry⟩)
    obtain ⟨keyed, owned⟩ := after.registered hash other stays
    have sameHash : market.hash = hash := by
      rw [← ((offer.unregistered pool).owned market member).asset carried,
        owned.asset alsoCarried, keyed]
    have left := (mem_unsubscribeMarkets next hashes hash).mp
      ((Maps.mem_iff_lookup _ hash).mpr ⟨other, stays⟩)
    exact left.2 (sameHash ▸ named)

section Gathering

variable {pool : Pool} {old : AssetConns} {c1 c2 : Nat} {firsts seconds : List String}
  {assignment : Assignment}

/-- Nothing is pending. -/
def nothing : Pending := fun _ => []

/-- All first places are at one connection and all second places at another. -/
structure Gathered (old : AssetConns) (c1 c2 : Nat) (firsts seconds : List String)
    (assignment : Assignment) : Prop where
  different : c1 ≠ c2
  pending : ∀ idx, assignment.pending idx =
    if idx = c1 then firsts else if idx = c2 then seconds else []
  first : ∀ asset, assignment.firstConn.lookup asset = if asset ∈ firsts then some c1 else none
  index : ∀ asset, assignment.assetToConns.lookup asset =
    if asset ∈ seconds then some (c1, c2) else old.lookup asset

theorem Gathered.start {pool : Pool} (different : c1 ≠ c2) :
    Gathered pool.assetToConns c1 c2 [] [] ⟨fun _ => [], ∅, pool.assetToConns, []⟩ :=
  ⟨different, fun _ => by simp, fun _ => by simp, fun _ => by simp⟩

/-- One more first place. -/
theorem Gathered.place (gathered : Gathered old c1 c2 firsts [] assignment) (asset : String) :
    Gathered old c1 c2 (firsts ++ [asset]) [] { assignment with
      pending := assignment.pending.push c1 asset
      firstConn := assignment.firstConn.insert asset c1 } := by
  refine ⟨gathered.different, ?_, ?_, gathered.index⟩
  · intro idx
    by_cases here : idx = c1
    · subst here
      simp [Pending.push, gathered.pending]
    · simp [Pending.push_of_ne _ asset here, gathered.pending, here]
  · intro tested
    by_cases same : tested = asset
    · subst same
      simp [AList.lookup_insert]
    · simp [AList.lookup_insert_ne same, gathered.first, same]

/-- One more second place. -/
theorem Gathered.settle (gathered : Gathered old c1 c2 firsts seconds assignment)
    (asset : String) : Gathered old c1 c2 firsts (seconds ++ [asset]) { assignment with
      pending := assignment.pending.push c2 asset
      assetToConns := assignment.assetToConns.insert asset (c1, c2) } := by
  refine ⟨gathered.different, ?_, gathered.first, ?_⟩
  · intro idx
    by_cases here : idx = c2
    · subst here
      simp [Pending.push, gathered.pending, Ne.symm gathered.different]
    · simp [Pending.push_of_ne _ asset here, gathered.pending, here]
  · intro tested
    by_cases same : tested = asset
    · subst same
      simp [AList.lookup_insert]
    · simp [AList.lookup_insert_ne same, gathered.index, same]

theorem Gathered.load (gathered : Gathered old c1 c2 firsts seconds assignment) (idx : Nat) :
    pool.load assignment.pending idx = pool.held idx +
      (if idx = c1 then firsts else if idx = c2 then seconds else []).length := by
  rw [load_eq, gathered.pending]

/-- The first pass goes on at the first connection with room. -/
theorem Gathered.findFirst (gathered : Gathered old c1 c2 firsts [] assignment)
    (target : pool.findConnWithCapacity nothing none = some c1)
    (fits : firsts.length < pool.room c1) :
    pool.findConnWithCapacity assignment.pending none = some c1 := by
  obtain ⟨inside, isAllowed, _, full⟩ := FirstFit.choose_some target
  refine FirstFit.choose_of_first inside isAllowed ?_ ?_
  · rw [gathered.load, if_pos rfl]
    unfold room at fits
    omega
  · intro earlier before allowed
    have held := full earlier before allowed
    rw [gathered.load]
    exact Nat.le_add_right_of_le held

/-- The second pass goes on at the first other connection with room. -/
theorem Gathered.findSecond (gathered : Gathered old c1 c2 firsts seconds assignment)
    (target : pool.findConnWithCapacity nothing (some c1) = some c2)
    (fits : seconds.length < pool.room c2) :
    pool.findConnWithCapacity assignment.pending (some c1) = some c2 := by
  obtain ⟨inside, isAllowed, _, full⟩ := FirstFit.choose_some target
  refine FirstFit.choose_of_first inside isAllowed ?_ ?_
  · rw [gathered.load, if_neg (Ne.symm gathered.different), if_pos rfl]
    unfold room at fits
    omega
  · intro earlier before allowed
    have held := full earlier before allowed
    rw [gathered.load]
    exact Nat.le_add_right_of_le held

/-- Without another connection with room the second pass finds none. -/
theorem Gathered.findNone (gathered : Gathered old c1 c2 firsts seconds assignment)
    (target : pool.findConnWithCapacity nothing (some c1) = none) :
    pool.findConnWithCapacity assignment.pending (some c1) = none := by
  refine FirstFit.choose_of_full ?_
  intro bin inside allowed
  have held := FirstFit.choose_none target bin inside allowed
  rw [gathered.load]
  exact Nat.le_add_right_of_le held

/-- The first pass over assets for which the first connection has room. -/
theorem Gathered.firstRun (gathered : Gathered old c1 c2 firsts [] assignment)
    (target : pool.findConnWithCapacity nothing none = some c1) (items : List String)
    (fits : firsts.length + items.length ≤ pool.room c1) :
    ∃ next, Runs.run pool.placeFirst assignment items = some next ∧
      Gathered old c1 c2 (firsts ++ items) [] next ∧ next.overflow = assignment.overflow := by
  induction items generalizing firsts assignment with
  | nil => exact ⟨assignment, rfl, by rwa [List.append_nil], rfl⟩
  | cons asset rest inductionHypothesis =>
    rw [List.length_cons] at fits
    have chosen := gathered.findFirst target (by omega)
    have taken : pool.placeFirst assignment asset = some { assignment with
        pending := assignment.pending.push c1 asset
        firstConn := assignment.firstConn.insert asset c1 } := by
      rw [placeFirst, chosen]
      rfl
    obtain ⟨next, completed, after, overflow⟩ := inductionHypothesis (gathered.place asset) (by
      rw [List.length_append, List.length_singleton]
      omega)
    refine ⟨next, by rw [Runs.run_cons, taken]; exact completed, ?_, overflow⟩
    rwa [List.append_assoc] at after

/-- The second pass over assets for which the second connection has room. -/
theorem Gathered.secondRun (gathered : Gathered old c1 c2 firsts seconds assignment)
    (target : pool.findConnWithCapacity nothing (some c1) = some c2) (items : List String)
    (placed : items ⊆ firsts) (fits : seconds.length + items.length ≤ pool.room c2) :
    ∃ next, Runs.run pool.placeSecond assignment items = some next ∧
      Gathered old c1 c2 firsts (seconds ++ items) next ∧
      next.overflow = assignment.overflow := by
  induction items generalizing seconds assignment with
  | nil => exact ⟨assignment, rfl, by rwa [List.append_nil], rfl⟩
  | cons asset rest inductionHypothesis =>
    rw [List.length_cons] at fits
    obtain ⟨here, later⟩ := List.cons_subset.mp placed
    have first : assignment.firstConn.lookup asset = some c1 := by
      rw [gathered.first, if_pos here]
    have taken := placeSecond_found first (gathered.findSecond target (by omega))
    obtain ⟨next, completed, after, overflow⟩ :=
      inductionHypothesis (gathered.settle asset) later (by
        rw [List.length_append, List.length_singleton]
        omega)
    refine ⟨next, by rw [Runs.run_cons, taken]; exact completed, ?_, overflow⟩
    rwa [List.append_assoc] at after

/-- The second pass when no other connection has room leaves all assets out. -/
theorem Gathered.leaveOut (gathered : Gathered old c1 c2 firsts seconds assignment)
    (target : pool.findConnWithCapacity nothing (some c1) = none) (items : List String)
    (placed : items ⊆ firsts) :
    ∃ next, Runs.run pool.placeSecond assignment items = some next ∧
      Gathered old c1 c2 firsts seconds next ∧ next.overflow = assignment.overflow ++ items := by
  induction items generalizing assignment with
  | nil => exact ⟨assignment, rfl, gathered, (List.append_nil _).symm⟩
  | cons asset rest inductionHypothesis =>
    obtain ⟨here, later⟩ := List.cons_subset.mp placed
    have first : assignment.firstConn.lookup asset = some c1 := by
      rw [gathered.first, if_pos here]
    have taken := placeSecond_full first (gathered.findNone target)
    have kept : Gathered old c1 c2 firsts seconds
        { assignment with overflow := assignment.overflow ++ [asset] } :=
      ⟨gathered.different, gathered.pending, gathered.first, gathered.index⟩
    obtain ⟨next, completed, after, overflow⟩ := inductionHypothesis kept later
    refine ⟨next, by rw [Runs.run_cons, taken]; exact completed, after, ?_⟩
    rw [overflow, List.append_assoc, List.singleton_append]

/-- The third pass settles its assets at the overflow connection. -/
theorem Gathered.overflowRun (gathered : Gathered old c1 c2 firsts seconds assignment)
    (items : List String) (placed : items ⊆ firsts) :
    ∃ next, Runs.run (placeOverflow c2) assignment items = some next ∧
      Gathered old c1 c2 firsts (seconds ++ items) next := by
  induction items generalizing seconds assignment with
  | nil => exact ⟨assignment, rfl, by rwa [List.append_nil]⟩
  | cons asset rest inductionHypothesis =>
    obtain ⟨here, later⟩ := List.cons_subset.mp placed
    have first : assignment.firstConn.lookup asset = some c1 := by
      rw [gathered.first, if_pos here]
    have taken := placeOverflow_placed c2 first
    obtain ⟨next, completed, after⟩ := inductionHypothesis (gathered.settle asset) later
    refine ⟨next, by rw [Runs.run_cons, taken]; exact completed, ?_⟩
    rwa [List.append_assoc] at after

/-- The first connection with room, and the first one besides, have room for a
number of assets. -/
def Spare (pool : Pool) (count : Nat) : Prop :=
  ∀ first, pool.findConnWithCapacity nothing none = some first → count ≤ pool.room first ∧
    ∀ second, pool.findConnWithCapacity nothing (some first) = some second →
      count ≤ pool.room second

/-- What the passes leave when the assets gather at two connections. -/
structure Paired (pool : Pool) (assets : List String) (final : Pool) (assignment : Assignment)
    (c1 c2 : Nat) : Prop where
  gathered : ∃ firsts seconds, Gathered pool.assetToConns c1 c2 firsts seconds assignment ∧
    firsts.Perm assets ∧ seconds.Perm assets
  first : pool.findConnWithCapacity nothing none = some c1
  second : (final = pool ∧ pool.findConnWithCapacity nothing (some c1) = some c2) ∨
    (final = pool.spawnConnection ∧ pool.findConnWithCapacity nothing (some c1) = none ∧
      c2 = pool.connections.length)

/-- With spare room all repetitions of an asset go to the same two connections. -/
theorem assign_pairs {assets : List String} (several : 1 ≤ assets.length)
    (spare : Spare pool assets.length)
    (target : pool.findConnWithCapacity nothing none = some c1) (first second : Shuffle) :
    ∃ final assignment c2, pool.assign assets first second = some (final, assignment) ∧
      Paired pool assets final assignment c1 c2 := by
  obtain ⟨fitsFirst, fitsSecond⟩ := spare c1 target
  have inside := (findConnWithCapacity_some target).1
  have shuffledOnce := first.permutes assets
  have shuffledTwice := (second.permutes (first.outcome assets)).trans shuffledOnce
  have placed : second.outcome (first.outcome assets) ⊆ first.outcome assets :=
    (second.permutes _).subset
  cases other : pool.findConnWithCapacity nothing (some c1) with
  | some c2 =>
    have different : c1 ≠ c2 := by
      intro same
      exact (findConnWithCapacity_some other).2 (by rw [same])
    obtain ⟨afterFirst, firstRun, gathered, noOverflow⟩ :=
      (Gathered.start different).firstRun target (first.outcome assets)
        (by rw [List.length_nil, shuffledOnce.length_eq]; omega)
    obtain ⟨settled, secondRun, paired, stillNone⟩ := gathered.secondRun other _ placed (by
      rw [List.length_nil, shuffledTwice.length_eq]
      have := fitsSecond c2 other
      omega)
    have noneLeft : settled.overflow = [] := stillNone.trans noOverflow
    exact ⟨pool, settled, c2, assign_of_noOverflow firstRun secondRun noneLeft,
      ⟨_, _, paired, shuffledOnce, shuffledTwice⟩, target, Or.inl ⟨rfl, other⟩⟩
  | none =>
    have different : c1 ≠ pool.connections.length := by omega
    obtain ⟨afterFirst, firstRun, gathered, noOverflow⟩ :=
      (Gathered.start different).firstRun target (first.outcome assets)
        (by rw [List.length_nil, shuffledOnce.length_eq]; omega)
    obtain ⟨settled, secondRun, leftOut, overflow⟩ := gathered.leaveOut other _ placed
    rw [noOverflow, List.nil_append] at overflow
    obtain ⟨final, thirdRun, paired⟩ := leftOut.overflowRun settled.overflow (by
      rw [overflow]
      exact placed)
    have someLeft : settled.overflow ≠ [] := by
      rw [overflow]
      intro none
      have length := shuffledTwice.length_eq
      rw [none, List.length_nil] at length
      omega
    rw [List.nil_append, overflow] at paired
    exact ⟨pool.spawnConnection, final, pool.connections.length,
      assign_of_overflow firstRun secondRun someLeft thirdRun,
      ⟨_, _, paired, shuffledOnce, shuffledTwice⟩, target, Or.inr ⟨rfl, other, rfl⟩⟩

/-- The two connections exist in the end. -/
theorem Paired.inside {assets : List String} {final : Pool}
    (paired : Paired pool assets final assignment c1 c2) :
    c1 < final.connections.length ∧ c2 < final.connections.length := by
  have first := (findConnWithCapacity_some paired.first).1
  rcases paired.second with ⟨rfl, second⟩ | ⟨rfl, _, rfl⟩
  · exact ⟨first, (findConnWithCapacity_some second).1⟩
  · simp only [spawnConnection, List.length_append, List.length_singleton]
    omega

/-- What is pending at the two connections is exactly the new assets. -/
theorem Paired.placed {assets : List String} {final : Pool}
    (paired : Paired pool assets final assignment c1 c2) :
    Placed pool.assetToConns assets final.connections.length assignment ∧
      ∀ asset ∈ assets, asset ∈ assignment.assetToConns := by
  obtain ⟨firstInside, secondInside⟩ := paired.inside
  obtain ⟨firsts, seconds, gathered, firstPerm, secondPerm⟩ := paired.gathered
  refine ⟨⟨?_, ?_, ?_, ?_⟩, ?_⟩
  · intro asset idx
    simp only [gathered.pending, gathered.first, gathered.index, firstPerm.mem_iff,
      secondPerm.mem_iff]
    by_cases isNew : asset ∈ assets
    · by_cases here : idx = c1
      · simp [here, isNew, firstPerm.mem_iff]
      · by_cases there : idx = c2
        · simp [there, isNew, secondPerm.mem_iff, Ne.symm gathered.different]
        · simp [here, there, isNew, Ne.symm here, Ne.symm there]
    · simp only [isNew, false_and, iff_false]
      split
      · exact fun member => isNew (firstPerm.mem_iff.mp member)
      · split
        · exact fun member => isNew (secondPerm.mem_iff.mp member)
        · exact List.not_mem_nil
  · intro asset idx found
    rw [gathered.first, Option.ite_none_right_eq_some] at found
    obtain ⟨member, same⟩ := found
    exact ⟨firstPerm.mem_iff.mp member, Option.some.inj same ▸ firstInside⟩
  · intro asset member d1 d2 entry
    rw [gathered.index, if_pos (secondPerm.mem_iff.mpr member)] at entry
    obtain ⟨rfl, rfl⟩ := Prod.mk.inj (Option.some.inj entry)
    exact ⟨by rw [gathered.first, if_pos (firstPerm.mem_iff.mpr member)], gathered.different,
      secondInside⟩
  · intro asset notNew
    rw [gathered.index, if_neg fun member => notNew (secondPerm.mem_iff.mp member)]
  · intro asset member
    rw [Maps.mem_iff_lookup]
    exact ⟨(c1, c2), by rw [gathered.index, if_pos (secondPerm.mem_iff.mpr member)]⟩

/-- The last spawn of a pairing. -/
theorem Paired.spawned {assets : List String} {final : Pool}
    (paired : Paired pool assets final assignment c1 c2) :
    final = pool ∨ final = pool.spawnConnection :=
  paired.second.imp And.left And.left

/-- Assets are pending at both connections. -/
theorem Paired.pending_ne_nil {assets : List String} {final : Pool}
    (several : 1 ≤ assets.length) (paired : Paired pool assets final assignment c1 c2) :
    assignment.pending c1 ≠ [] ∧ assignment.pending c2 ≠ [] := by
  obtain ⟨firsts, seconds, gathered, firstPerm, secondPerm⟩ := paired.gathered
  rw [gathered.pending, gathered.pending, if_pos rfl, if_neg (Ne.symm gathered.different),
    if_pos rfl]
  constructor
  · apply List.ne_nil_of_length_pos
    rw [firstPerm.length_eq]
    exact several
  · apply List.ne_nil_of_length_pos
    rw [secondPerm.length_eq]
    exact several

/-- No spawned connection is left empty: the two that are used have room for all
places, so the room below a third one would have been enough. -/
theorem Paired.reaches {grown final : Pool} {toRegister : List Market} {added : List ConnHandle}
    (growth : Grown pool toRegister grown added) (positive : 1 ≤ pool.maxAssetsPerConn)
    (spare : Spare grown (toRegister.flatMap Market.assets).length)
    (paired : Paired grown (toRegister.flatMap Market.assets) final assignment c1 c2) {bin : Nat}
    (notOld : pool.connections.length ≤ bin) (inside : bin < grown.connections.length) :
    bin = c1 ∨ bin = c2 := by
  by_contra neither
  obtain ⟨notFirst, notSecond⟩ := not_or.mp neither
  have empty : grown.held bin < grown.maxAssetsPerConn := by
    rw [growth.held_added notOld inside, growth.capacity]
    exact positive
  obtain ⟨_, _, _, fullFirst⟩ := FirstFit.choose_some paired.first
  have afterFirst : c1 < bin := by
    by_contra before
    have full := fullFirst bin (by omega) (by simp)
    exact absurd empty (Nat.not_lt.mpr full)
  rcases paired.second with ⟨_, second⟩ | ⟨_, noSecond, _⟩
  · obtain ⟨_, allowed, _, fullSecond⟩ := FirstFit.choose_some second
    have different : c1 ≠ c2 := fun same => by simp [same] at allowed
    have afterSecond : c2 < bin := by
      by_contra before
      have full := fullSecond bin (by omega) (by simpa using notFirst)
      exact absurd empty (Nat.not_lt.mpr full)
    obtain ⟨fitsFirst, fitsSecond⟩ := spare c1 paired.first
    have both : grown.room c1 + grown.room c2 ≤ grown.roomBelow bin := by
      have pair : ∑ other ∈ ({c1, c2} : Finset Nat), grown.room other ≤
          ∑ other ∈ range bin, grown.room other := by
        apply Finset.sum_le_sum_of_subset
        intro other member
        rcases Finset.mem_insert.mp member with rfl | isSecond
        · exact mem_range.mpr afterFirst
        · exact mem_range.mpr (Finset.mem_singleton.mp isSecond ▸ afterSecond)
      rwa [Finset.sum_pair different] at pair
    have narrow := growth.narrow bin notOld inside (by omega)
    have fits := fitsSecond c2 second
    omega
  · have full := FirstFit.choose_none noSecond bin inside (by simpa using notFirst)
    exact absurd empty (Nat.not_lt.mpr full)

/-- After the dispatch of a pairing no connection is empty. -/
theorem Paired.nonempty {grown final : Pool} {toRegister : List Market} {added : List ConnHandle}
    (growth : Grown pool toRegister grown added) (positive : 1 ≤ pool.maxAssetsPerConn)
    (old : ∀ handle ∈ pool.connections, handle.assets.Nonempty)
    (several : 1 ≤ (toRegister.flatMap Market.assets).length)
    (spare : Spare grown (toRegister.flatMap Market.assets).length)
    (paired : Paired grown (toRegister.flatMap Market.assets) final assignment c1 c2) :
    ∀ handle ∈ (final.dispatched assignment).connections, handle.assets.Nonempty := by
  intro handle member
  obtain ⟨idx, present⟩ := List.mem_iff_getElem?.mp member
  obtain ⟨before, found, _, assets⟩ := getElem?_dispatchSubscribe present
  have bounded : idx < final.connections.length := (List.getElem?_eq_some_iff.mp found).1
  have used : idx = c1 ∨ idx = c2 → handle.assets.Nonempty := by
    intro either
    have some : assignment.pending idx ≠ [] := by
      rcases either with rfl | rfl
      · exact (paired.pending_ne_nil several).1
      · exact (paired.pending_ne_nil several).2
    obtain ⟨asset, waiting⟩ := List.exists_mem_of_ne_nil _ some
    rw [assets]
    exact ⟨asset, Finset.mem_union_right _ (List.mem_toFinset.mpr waiting)⟩
  rcases Nat.lt_or_ge idx pool.connections.length with isOld | notOld
  · have kept : final.connections[idx]? = pool.connections[idx]? := by
      rcases paired.spawned with rfl | rfl
      · rw [growth.connections, List.getElem?_append_left isOld]
      · rw [spawnConnection, growth.connections, List.append_assoc,
          List.getElem?_append_left isOld]
    rw [kept] at found
    rw [assets]
    exact (old before (List.mem_of_getElem? found)).mono Finset.subset_union_left
  · apply used
    rcases Nat.lt_or_ge idx grown.connections.length with isFresh | beyond
    · exact paired.reaches growth positive spare notOld isFresh
    · rcases paired.second with ⟨rfl, _⟩ | ⟨rfl, _, rfl⟩
      · omega
      · simp only [spawnConnection, List.length_append, List.length_singleton] at bounded
        omega

end Gathering

/-- The connections of the pool before hold what they held. -/
theorem Grown.held_old {pool grown : Pool} {toRegister : List Market} {added : List ConnHandle}
    (growth : Grown pool toRegister grown added) {bin : Nat}
    (inside : bin < pool.connections.length) : grown.held bin = pool.held bin := by
  simp only [held, load, growth.connections, List.getElem?_append_left inside]

theorem Grown.length_le {pool grown : Pool} {toRegister : List Market} {added : List ConnHandle}
    (growth : Grown pool toRegister grown added) :
    pool.connections.length ≤ grown.connections.length := by
  rw [growth.connections, List.length_append]
  omega

/-- A choice in the pool before is a choice in the grown pool. -/
theorem Grown.choice_kept {pool grown : Pool} {toRegister : List Market}
    {added : List ConnHandle} (growth : Grown pool toRegister grown added)
    {exclude : Option Nat} {idx : Nat}
    (found : pool.findConnWithCapacity nothing exclude = some idx) :
    grown.findConnWithCapacity nothing exclude = some idx ∧ grown.room idx = pool.room idx := by
  obtain ⟨inside, allowed, roomy, full⟩ := FirstFit.choose_some found
  have more := growth.length_le
  refine ⟨FirstFit.choose_of_first (by omega) allowed ?_ ?_, ?_⟩
  · rw [growth.capacity]
    exact (growth.held_old inside).trans_lt roomy
  · intro earlier before isAllowed
    rw [growth.capacity]
    exact (full earlier before isAllowed).trans_eq (growth.held_old (before.trans inside)).symm
  · rw [room, room, growth.capacity, growth.held_old inside]

/-- A choice in the grown pool is one in the pool before, or an empty connection. -/
theorem Grown.choice_cases {pool grown : Pool} {toRegister : List Market}
    {added : List ConnHandle} (growth : Grown pool toRegister grown added)
    {exclude : Option Nat} {idx : Nat}
    (found : grown.findConnWithCapacity nothing exclude = some idx) :
    (pool.findConnWithCapacity nothing exclude = some idx ∧ grown.room idx = pool.room idx) ∨
      (pool.connections.length ≤ idx ∧ grown.room idx = pool.maxAssetsPerConn) := by
  obtain ⟨inside, allowed, roomy, full⟩ := FirstFit.choose_some found
  rcases Nat.lt_or_ge idx pool.connections.length with isOld | notOld
  · left
    refine ⟨FirstFit.choose_of_first isOld allowed ?_ ?_, ?_⟩
    · rw [growth.capacity] at roomy
      exact (growth.held_old isOld).symm.trans_lt roomy
    · intro earlier before isAllowed
      rw [growth.capacity] at full
      exact (full earlier before isAllowed).trans_eq (growth.held_old (before.trans isOld))
    · rw [room, room, growth.capacity, growth.held_old isOld]
  · right
    refine ⟨notOld, ?_⟩
    rw [room, growth.held_added notOld inside, growth.capacity, Nat.sub_zero]

/-- A grown pool has a connection with room. -/
theorem Grown.exists_first {pool grown : Pool} {toRegister : List Market}
    {added : List ConnHandle} (growth : Grown pool toRegister grown added)
    (several : 1 ≤ (toRegister.flatMap Market.assets).length) :
    ∃ first, grown.findConnWithCapacity nothing none = some first := by
  have enough := growth.enough
  have start : Packed grown nothing 0 := ⟨FirstFit.Filling.start _ _ grown.held, fun _ _ => rfl⟩
  exact start.chooses (by omega)

/-- The batch fits in the pool before exactly when the grown pool has room to
spare for it. -/
theorem Grown.fits_iff {pool grown : Pool} {toRegister : List Market} {added : List ConnHandle}
    (growth : Grown pool toRegister grown added)
    (several : 1 ≤ (toRegister.flatMap Market.assets).length) (count : Nat) :
    Fits pool count ↔ Spare grown count := by
  constructor
  · rintro ⟨small, fits⟩ first found
    rcases growth.choice_cases found with ⟨before, same⟩ | ⟨beyond, empty⟩
    · obtain ⟨fitsFirst, fitsSecond⟩ := fits first before
      refine ⟨same ▸ fitsFirst, ?_⟩
      intro second foundSecond
      rcases growth.choice_cases foundSecond with ⟨secondBefore, sameSecond⟩ | ⟨_, empty⟩
      · exact sameSecond ▸ fitsSecond second secondBefore
      · exact empty ▸ small
    · refine ⟨empty ▸ small, ?_⟩
      intro second foundSecond
      rcases growth.choice_cases foundSecond with ⟨secondBefore, _⟩ | ⟨_, emptySecond⟩
      · -- a connection of the pool before would have come first
        obtain ⟨_, _, roomy, _⟩ := FirstFit.choose_some foundSecond
        obtain ⟨_, _, _, full⟩ := FirstFit.choose_some found
        have isOld := (findConnWithCapacity_some secondBefore).1
        exact absurd roomy (Nat.not_lt.mpr (full second (by omega) (by simp)))
      · exact emptySecond ▸ small
  · intro spare
    constructor
    · obtain ⟨first, found⟩ := growth.exists_first several
      have fitsFirst := (spare first found).1
      rw [room, growth.capacity] at fitsFirst
      omega
    · intro first before
      obtain ⟨found, same⟩ := growth.choice_kept before
      obtain ⟨fitsFirst, fitsSecond⟩ := spare first found
      refine ⟨same ▸ fitsFirst, ?_⟩
      intro second secondBefore
      obtain ⟨foundSecond, sameSecond⟩ := growth.choice_kept secondBefore
      exact sameSecond ▸ fitsSecond second foundSecond

/-- A batch that fits keeps the routing, repetitions included. -/
theorem Routed.subscribeFitting {owner : String → String} {pool : Pool}
    (routed : Routed owner pool) {markets : List Market} (offer : Offer owner markets)
    (fits : Fits pool (pool.newAssets markets).length) (first second : Shuffle) :
    ∃ next, pool.subscribeMarkets markets first second = some next ∧ Routed owner next := by
  by_cases noneNew : ((pool.unregistered markets).flatMap Market.assets).isEmpty
  · refine ⟨pool, ?_, routed⟩
    simp only [subscribeMarkets, noneNew, if_true]
  have several : 1 ≤ ((pool.unregistered markets).flatMap Market.assets).length := by
    apply List.length_pos_of_ne_nil
    simpa using noneNew
  obtain ⟨count, counted, added, growth⟩ := exists_grown pool routed.capacity
    (pool.unregistered markets)
  have spare := (growth.fits_iff several _).mp fits
  obtain ⟨c1, target⟩ := growth.exists_first several
  obtain ⟨final, assignment, c2, assigned, paired⟩ :=
    assign_pairs several spare target first second
  obtain ⟨placed, complete⟩ := paired.placed
  rw [growth.index] at placed
  have unregistered := offer.unregistered pool
  refine ⟨final.dispatched assignment, ?_, ?_⟩
  · simp only [subscribeMarkets, noneNew, Option.bind_eq_bind, counted, Option.bind_some,
      assigned]
    rfl
  · exact routed.registers unregistered.owned (growth.capacity_final paired.spawned)
      (growth.lookup paired.spawned unregistered.agree) placed.untouched complete
      ((growth.wired routed.wired paired.spawned).subscribe (routed.fresh offer.owned) placed
        complete)
      (paired.nonempty growth routed.capacity routed.nonempty several spare)

section Straying

variable {pool : Pool} {assignment next : Assignment} {bin : Nat} {asset : String}

/-- An asset is pending at a full connection that is neither its first one nor in
its entry, unless the entry is still to be written. -/
structure Stray (pool : Pool) (bin : Nat) (asset : String) (waiting : List String)
    (assignment : Assignment) : Prop where
  carried : asset ∈ assignment.pending bin
  full : pool.maxAssetsPerConn ≤ pool.load assignment.pending bin
  first : ∃ c1, assignment.firstConn.lookup asset = some c1 ∧ c1 ≠ bin
  second : asset ∈ waiting ∨
    ∀ c1 c2, assignment.assetToConns.lookup asset = some (c1, c2) → c1 ≠ bin ∧ c2 ≠ bin

/-- More pending assets leave a full connection full. -/
theorem full_push {pending : Pending} (full : pool.maxAssetsPerConn ≤ pool.load pending bin)
    (idx : Nat) (placed : String) :
    pool.maxAssetsPerConn ≤ pool.load (pending.push idx placed) bin := by
  rw [load_push, FirstFit.put]
  by_cases same : bin = idx
  · subst same
    rw [Function.update_self]
    omega
  · rwa [Function.update_of_ne same]

/-- A full connection is not chosen. -/
theorem ne_of_full {pending : Pending} {exclude : Option Nat} {idx : Nat}
    (full : pool.maxAssetsPerConn ≤ pool.load pending bin)
    (found : pool.findConnWithCapacity pending exclude = some idx) : idx ≠ bin := by
  rintro rfl
  obtain ⟨_, _, roomy, _⟩ := FirstFit.choose_some found
  exact absurd roomy (Nat.not_lt.mpr full)

theorem Stray.placeFirst {waiting : List String} (placed : String)
    (stray : Stray pool bin asset waiting assignment)
    (taken : pool.placeFirst assignment placed = some next) :
    Stray pool bin asset waiting next := by
  obtain ⟨idx, found, same⟩ := Option.bind_eq_some_iff.mp taken
  obtain rfl := Option.some.inj same
  refine ⟨(Pending.mem_push _ _ _ _ _).mpr (Or.inl stray.carried), full_push stray.full _ _, ?_,
    stray.second⟩
  by_cases isAsset : asset = placed
  · subst isAsset
    exact ⟨idx, AList.lookup_insert _, ne_of_full stray.full found⟩
  · obtain ⟨c1, first, different⟩ := stray.first
    exact ⟨c1, (AList.lookup_insert_ne isAsset).trans first, different⟩

theorem Stray.placeSecond (placed : String)
    (stray : Stray pool bin asset assignment.overflow assignment)
    (taken : pool.placeSecond assignment placed = some next) :
    Stray pool bin asset next.overflow next := by
  obtain ⟨exclude, first, rest⟩ := Option.bind_eq_some_iff.mp taken
  split at rest
  case h_1 idx found =>
    obtain rfl := Option.some.inj rest
    refine ⟨(Pending.mem_push _ _ _ _ _).mpr (Or.inl stray.carried), full_push stray.full _ _,
      stray.first, ?_⟩
    by_cases isAsset : asset = placed
    · subst isAsset
      right
      intro c1 c2 entry
      rw [AList.lookup_insert] at entry
      obtain ⟨rfl, rfl⟩ := Prod.mk.inj (Option.some.inj entry)
      obtain ⟨c1, itsFirst, different⟩ := stray.first
      obtain rfl := Option.some.inj (first.symm.trans itsFirst)
      exact ⟨different, ne_of_full stray.full found⟩
    · refine stray.second.imp_right fun unnamed c1 c2 entry => unnamed c1 c2 ?_
      rwa [AList.lookup_insert_ne isAsset] at entry
  case h_2 =>
    obtain rfl := Option.some.inj rest
    exact ⟨stray.carried, stray.full, stray.first,
      stray.second.imp_left (List.mem_append_left _)⟩

/-- The second pass keeps an asset stray. -/
theorem Stray.secondRun {items : List String}
    (stray : Stray pool bin asset assignment.overflow assignment)
    (completed : Runs.run pool.placeSecond assignment items = some next) :
    Stray pool bin asset next.overflow next := by
  have kept : ∀ state item after, pool.placeSecond state item = some after →
      Stray pool bin asset state.overflow state → Stray pool bin asset after.overflow after :=
    fun _ item _ taken holds => Stray.placeSecond item holds taken
  exact Runs.invariant kept completed stray

/-- The overflow connection is none of those that were there. -/
theorem Stray.placeOverflow {overflowIdx : Nat} (beyond : overflowIdx ≠ bin) (placed : String)
    (rest : List String) (stray : Stray pool bin asset (placed :: rest) assignment)
    (taken : Pool.placeOverflow overflowIdx assignment placed = some next) :
    Stray pool bin asset rest next := by
  obtain ⟨c1, first, same⟩ := Option.bind_eq_some_iff.mp taken
  obtain rfl := Option.some.inj same
  refine ⟨(Pending.mem_push _ _ _ _ _).mpr (Or.inl stray.carried), full_push stray.full _ _,
    stray.first, ?_⟩
  by_cases isAsset : asset = placed
  · subst isAsset
    right
    intro d1 d2 entry
    rw [AList.lookup_insert] at entry
    obtain ⟨rfl, rfl⟩ := Prod.mk.inj (Option.some.inj entry)
    obtain ⟨d1, itsFirst, different⟩ := stray.first
    obtain rfl := Option.some.inj (first.symm.trans itsFirst)
    exact ⟨different, beyond⟩
  · rcases stray.second with waits | unnamed
    · exact Or.inl ((List.mem_cons.mp waits).resolve_left isAsset)
    · refine Or.inr fun d1 d2 entry => unnamed d1 d2 ?_
      rwa [AList.lookup_insert_ne isAsset] at entry

/-- What a completed assignment has gone through. -/
theorem assign_some {assets : List String} {first second : Shuffle} {final : Pool}
    (assigned : pool.assign assets first second = some (final, assignment)) :
    ∃ placed settled,
      Runs.run pool.placeFirst ⟨nothing, ∅, pool.assetToConns, []⟩ (first.outcome assets) =
        some placed ∧
      Runs.run pool.placeSecond placed (second.outcome (first.outcome assets)) = some settled ∧
      ((settled.overflow = [] ∧ final = pool ∧ assignment = settled) ∨
        (final = pool.spawnConnection ∧
          Runs.run (Pool.placeOverflow pool.connections.length) settled settled.overflow =
            some assignment)) := by
  obtain ⟨placed, firstRun, rest⟩ := Option.bind_eq_some_iff.mp assigned
  obtain ⟨settled, secondRun, rest⟩ := Option.bind_eq_some_iff.mp rest
  refine ⟨placed, settled, firstRun, secondRun, ?_⟩
  split at rest
  case isTrue noOverflow =>
    obtain ⟨rfl, rfl⟩ := Prod.mk.inj (Option.some.inj rest)
    exact Or.inl ⟨List.isEmpty_iff.mp noOverflow, rfl, rfl⟩
  case isFalse =>
    obtain ⟨last, thirdRun, rest⟩ := Option.bind_eq_some_iff.mp rest
    obtain ⟨rfl, rfl⟩ := Prod.mk.inj (Option.some.inj rest)
    have overflowIdx : pool.spawnConnection.connections.length - 1 = pool.connections.length := by
      simp [spawnConnection]
    rw [overflowIdx] at thirdRun
    exact Or.inr ⟨rfl, thirdRun⟩

/-- A stray asset of the second pass is a stray asset in the end. -/
theorem Stray.final {settled : Assignment} {final : Pool} (inside : bin < pool.connections.length)
    (stray : Stray pool bin asset settled.overflow settled)
    (ended : (settled.overflow = [] ∧ final = pool ∧ assignment = settled) ∨
      (final = pool.spawnConnection ∧
        Runs.run (Pool.placeOverflow pool.connections.length) settled settled.overflow =
          some assignment)) :
    Stray pool bin asset [] assignment ∧ bin < final.connections.length := by
  rcases ended with ⟨noOverflow, rfl, rfl⟩ | ⟨rfl, thirdRun⟩
  · exact ⟨noOverflow ▸ stray, inside⟩
  · have carried : ∀ (items : List String) (begun : Assignment),
        Runs.run (Pool.placeOverflow pool.connections.length) begun items = some assignment →
          Stray pool bin asset items begun → Stray pool bin asset [] assignment := by
      intro items
      induction items with
      | nil =>
        intro begun completed strayed
        exact Option.some.inj completed ▸ strayed
      | cons item rest inductionHypothesis =>
        intro begun completed strayed
        obtain ⟨after, taken, continued⟩ := Runs.run_cons_some completed
        exact inductionHypothesis after continued
          (strayed.placeOverflow (by omega) item rest taken)
    refine ⟨carried _ settled thirdRun stray, ?_⟩
    simp only [spawnConnection, List.length_append, List.length_singleton]
    omega

/-- A stray asset is carried by a connection that its entry does not name. -/
theorem Stray.not_once {final : Pool} {markets : List Market} {before : Pool}
    (stray : Stray pool bin asset [] assignment) (inside : bin < final.connections.length)
    (isNew : asset ∈ before.newAssets markets) :
    ¬ Once before (final.dispatched assignment) markets := by
  intro once
  obtain ⟨c1, c2, entry, _, carried⟩ := once.carried asset isNew
  have unnamed := stray.second.resolve_left List.not_mem_nil
  obtain ⟨notFirst, notSecond⟩ := unnamed c1 c2 entry
  have bounded : bin < (dispatchSubscribe final.connections assignment.pending).length := by
    rwa [length_dispatchSubscribe]
  have present := List.getElem?_eq_getElem bounded
  obtain ⟨_, _, _, assets⟩ := getElem?_dispatchSubscribe present
  have holds := (carried bin).mp ⟨_, present, by
    rw [assets]
    exact Finset.mem_union_right _ (List.mem_toFinset.mpr stray.carried)⟩
  exact holds.elim (Ne.symm notFirst) (Ne.symm notSecond)

end Straying

section Crowding

/-- The shuffle that has a given outcome for a list it is a permutation of. -/
def Shuffle.to (target : List String) : Shuffle where
  outcome := fun assets => if target.Perm assets then target else assets
  permutes := by
    intro assets
    split
    · assumption
    · exact List.Perm.refl assets

theorem Shuffle.to_outcome {target assets : List String} (permuted : target.Perm assets) :
    (Shuffle.to target).outcome assets = target :=
  if_pos permuted

/-- A list with a repetition has an order in which both copies stand on the two
sides of a given border. -/
theorem exists_straddling {assets : List String} (repeated : ¬ assets.Nodup) {border : Nat}
    (positive : 1 ≤ border) (inside : border < assets.length) :
    ∃ ahead asset rest, (ahead ++ [asset] ++ asset :: rest).Perm assets ∧
      (ahead ++ [asset]).length = border ∧ asset ∈ assets := by
  rw [List.nodup_iff_sublist] at repeated
  push Not at repeated
  obtain ⟨asset, twice⟩ := repeated
  obtain ⟨others, permuted⟩ := twice.exists_perm_append
  have length := permuted.length_eq
  simp only [List.cons_append, List.nil_append, List.length_cons] at length
  refine ⟨others.take (border - 1), asset, others.drop (border - 1), ?_, ?_, ?_⟩
  · refine List.Perm.trans ?_ permuted.symm
    simp only [List.append_assoc, List.cons_append, List.nil_append]
    refine List.perm_middle.trans (List.Perm.cons asset ?_)
    exact List.perm_middle.trans (List.Perm.cons asset (by rw [List.take_append_drop]))
  · rw [List.length_append, List.length_take, List.length_singleton]
    omega
  · exact twice.subset List.mem_cons_self

/-- A repeated market repeats its assets. -/
theorem Offer.not_nodup {owner : String → String} {pool : Pool} {markets : List Market}
    (offer : Offer owner markets) (repeated : ¬ Distinct pool markets) :
    ¬ (pool.newAssets markets).Nodup := by
  intro nodup
  apply repeated
  obtain ⟨_, apart⟩ := List.nodup_flatMap.mp nodup
  rw [Distinct, List.Nodup, List.pairwise_map]
  refine List.Pairwise.imp_of_mem ?_ apart
  intro market other member alsoMember disjoint same
  obtain rfl := (offer.unregistered pool).agree market member other alsoMember same
  exact disjoint (show market.yes ∈ market.assets from List.mem_cons_self) List.mem_cons_self

variable {pool : Pool} {assignment next : Assignment} {old : AssetConns} {c1 c2 : Nat}
  {firsts seconds : List String} {asset : String}

/-- A second first place of an asset whose connection is full makes it stray. -/
theorem Gathered.strayFirst (gathered : Gathered old c1 c2 firsts [] assignment)
    (full : pool.room c1 ≤ firsts.length) (placed : asset ∈ firsts)
    (fresh : old.lookup asset = none) (taken : pool.placeFirst assignment asset = some next) :
    Stray pool c1 asset [] next := by
  have isFull : pool.maxAssetsPerConn ≤ pool.load assignment.pending c1 := by
    rw [gathered.load, if_pos rfl]
    unfold room at full
    omega
  obtain ⟨idx, found, same⟩ := Option.bind_eq_some_iff.mp taken
  obtain rfl := Option.some.inj same
  refine ⟨(Pending.mem_push _ _ _ _ _).mpr (Or.inl ?_), full_push isFull _ _,
    ⟨idx, AList.lookup_insert _, ne_of_full isFull found⟩, Or.inr ?_⟩
  · rw [gathered.pending, if_pos rfl]
    exact placed
  · intro d1 d2 entry
    simp only [gathered.index, List.not_mem_nil, if_false, fresh] at entry
    cases entry

/-- A second second place of an asset whose connection is full makes it stray. -/
theorem Gathered.straySecond (gathered : Gathered old c1 c2 firsts seconds assignment)
    (full : pool.room c2 ≤ seconds.length) (first : asset ∈ firsts) (settled : asset ∈ seconds)
    (taken : pool.placeSecond assignment asset = some next) :
    Stray pool c2 asset next.overflow next := by
  have isFull : pool.maxAssetsPerConn ≤ pool.load assignment.pending c2 := by
    rw [gathered.load, if_neg (Ne.symm gathered.different), if_pos rfl]
    unfold room at full
    omega
  have carried : asset ∈ assignment.pending c2 := by
    rw [gathered.pending, if_neg (Ne.symm gathered.different), if_pos rfl]
    exact settled
  have itsFirst : assignment.firstConn.lookup asset = some c1 := by
    rw [gathered.first, if_pos first]
  cases chosen : pool.findConnWithCapacity assignment.pending (some c1) with
  | some idx =>
    obtain rfl := Option.some.inj ((placeSecond_found itsFirst chosen).symm.trans taken)
    refine ⟨(Pending.mem_push _ _ _ _ _).mpr (Or.inl carried), full_push isFull _ _,
      ⟨c1, itsFirst, gathered.different⟩, Or.inr ?_⟩
    intro d1 d2 entry
    rw [AList.lookup_insert] at entry
    obtain ⟨rfl, rfl⟩ := Prod.mk.inj (Option.some.inj entry)
    exact ⟨gathered.different, ne_of_full isFull chosen⟩
  | none =>
    obtain rfl := Option.some.inj ((placeSecond_full itsFirst chosen).symm.trans taken)
    exact ⟨carried, isFull, ⟨c1, itsFirst, gathered.different⟩,
      Or.inl (List.mem_append_right _ (List.mem_singleton_self asset))⟩

/-- A run over a list goes through the end of its first part. -/
theorem run_split {step : Assignment → String → Option Assignment} {start middle final : Assignment}
    {left rest : List String} (completed : Runs.run step start (left ++ asset :: rest) = some final)
    (reached : Runs.run step start left = some middle) :
    ∃ after, step middle asset = some after ∧ Runs.run step after rest = some final := by
  rw [Runs.run_append reached] at completed
  exact Runs.run_cons_some completed

/-- A first connection that is too small strays an asset in the first pass. -/
theorem stray_of_smallFirst {assets : List String} (repeated : ¬ assets.Nodup)
    (fresh : ∀ asset ∈ assets, pool.assetToConns.lookup asset = none)
    (target : pool.findConnWithCapacity nothing none = some c1)
    (small : pool.room c1 < assets.length) :
    ∃ first second, ∀ final assignment, pool.assign assets first second = some (final, assignment) →
      ∃ bin asset, asset ∈ assets ∧ Stray pool bin asset [] assignment ∧
        bin < final.connections.length := by
  obtain ⟨inside, _, roomy, _⟩ := FirstFit.choose_some target
  have positive : 1 ≤ pool.room c1 := by
    change pool.held c1 < _ at roomy
    unfold room
    omega
  obtain ⟨ahead, asset, rest, permuted, border, member⟩ :=
    exists_straddling repeated positive small
  refine ⟨Shuffle.to (ahead ++ [asset] ++ asset :: rest), .unchanged, ?_⟩
  intro final assignment assigned
  obtain ⟨placed, settled, firstRun, secondRun, ended⟩ := assign_some assigned
  rw [Shuffle.to_outcome permuted] at firstRun
  obtain ⟨middle, reached, gathered, _⟩ :=
    (Gathered.start (Nat.ne_of_lt (Nat.lt_succ_self c1))).firstRun target (ahead ++ [asset])
      (by rw [List.length_nil]; omega)
  obtain ⟨after, taken, continued⟩ := run_split firstRun reached
  have stray : Stray pool c1 asset [] after :=
    gathered.strayFirst (by rw [List.nil_append]; omega) (by simp) (fresh asset member) taken
  have afterFirst : Stray pool c1 asset [] placed :=
    Runs.invariant (fun _ item _ taken holds => Stray.placeFirst item holds taken) continued stray
  have beforeSecond : Stray pool c1 asset placed.overflow placed :=
    ⟨afterFirst.carried, afterFirst.full, afterFirst.first,
      Or.inr (afterFirst.second.resolve_left List.not_mem_nil)⟩
  exact ⟨c1, asset, member, (beforeSecond.secondRun secondRun).final inside ended⟩

/-- A second connection that is too small strays an asset in the second pass. -/
theorem stray_of_smallSecond {assets : List String} (repeated : ¬ assets.Nodup)
    (target : pool.findConnWithCapacity nothing none = some c1)
    (fits : assets.length ≤ pool.room c1)
    (other : pool.findConnWithCapacity nothing (some c1) = some c2)
    (small : pool.room c2 < assets.length) :
    ∃ first second, ∀ final assignment, pool.assign assets first second = some (final, assignment) →
      ∃ bin asset, asset ∈ assets ∧ Stray pool bin asset [] assignment ∧
        bin < final.connections.length := by
  obtain ⟨inside, allowed, roomy, _⟩ := FirstFit.choose_some other
  have different : c1 ≠ c2 := fun same => by simp [same] at allowed
  have positive : 1 ≤ pool.room c2 := by
    change pool.held c2 < _ at roomy
    unfold room
    omega
  obtain ⟨ahead, asset, rest, permuted, border, member⟩ :=
    exists_straddling repeated positive small
  refine ⟨.unchanged, Shuffle.to (ahead ++ [asset] ++ asset :: rest), ?_⟩
  intro final assignment assigned
  obtain ⟨placed, settled, firstRun, secondRun, ended⟩ := assign_some assigned
  change Runs.run pool.placeSecond placed
    ((Shuffle.to (ahead ++ [asset] ++ asset :: rest)).outcome assets) = some settled at secondRun
  rw [Shuffle.to_outcome permuted] at secondRun
  obtain ⟨gatheredFirst, sameRun, gathered, _⟩ :=
    (Gathered.start different).firstRun target assets (by rw [List.length_nil]; omega)
  obtain rfl := Option.some.inj (sameRun.symm.trans firstRun)
  rw [List.nil_append] at gathered
  have aheadPlaced : ahead ++ [asset] ⊆ assets := fun item isAhead =>
    permuted.subset (List.mem_append_left _ isAhead)
  obtain ⟨middle, reached, paired, _⟩ := gathered.secondRun other (ahead ++ [asset]) aheadPlaced
    (by rw [List.length_nil]; omega)
  obtain ⟨after, taken, continued⟩ := run_split secondRun reached
  have stray : Stray pool c2 asset after.overflow after :=
    paired.straySecond (by rw [List.nil_append]; omega) member (by simp) taken
  exact ⟨c2, asset, member, (stray.secondRun continued).final inside ended⟩

/-- Without spare room some shuffles stray an asset of a repeated market. -/
theorem exists_stray {assets : List String} (repeated : ¬ assets.Nodup)
    (fresh : ∀ asset ∈ assets, pool.assetToConns.lookup asset = none)
    (crowded : ¬ Spare pool assets.length) :
    ∃ first second, ∀ final assignment, pool.assign assets first second = some (final, assignment) →
      ∃ bin asset, asset ∈ assets ∧ Stray pool bin asset [] assignment ∧
        bin < final.connections.length := by
  unfold Spare at crowded
  push Not at crowded
  obtain ⟨c1, target, tooSmall⟩ := crowded
  rcases Nat.lt_or_ge (pool.room c1) assets.length with small | fits
  · exact stray_of_smallFirst repeated fresh target small
  · obtain ⟨c2, other, small⟩ := tooSmall fits
    exact stray_of_smallSecond repeated target fits other small

end Crowding

/-- Shuffles can separate the repetitions of a market in a crowded pool. -/
theorem Routed.exists_not_once {owner : String → String} {pool : Pool}
    (routed : Routed owner pool) {markets : List Market} (offer : Offer owner markets)
    (repeated : ¬ Distinct pool markets)
    (crowded : ¬ Fits pool (pool.newAssets markets).length) :
    ∃ first second, ∀ next, pool.subscribeMarkets markets first second = some next →
      ¬ Once pool next markets := by
  have notNodup := offer.not_nodup repeated
  have several : 1 ≤ (pool.newAssets markets).length := by
    apply List.length_pos_of_ne_nil
    intro none
    exact notNodup (none ▸ List.nodup_nil)
  obtain ⟨count, counted, added, growth⟩ := exists_grown pool routed.capacity
    (pool.unregistered markets)
  obtain ⟨first, second, strays⟩ := exists_stray notNodup
    (by rw [growth.index]; exact routed.fresh offer.owned)
    (fun spare => crowded ((growth.fits_iff several _).mpr spare))
  refine ⟨first, second, ?_⟩
  intro next completed
  have noneNew : ¬ ((pool.unregistered markets).flatMap Market.assets).isEmpty := by
    simpa [newAssets] using List.ne_nil_of_length_pos several
  simp only [subscribeMarkets, noneNew, Option.bind_eq_bind, counted, Option.bind_some] at completed
  obtain ⟨⟨final, assignment⟩, assigned, same⟩ := Option.bind_eq_some_iff.mp completed
  obtain rfl := Option.some.inj same
  obtain ⟨bin, asset, member, stray, inside⟩ := strays final assignment assigned
  exact stray.not_once inside member

/-- A call under which repetitions do no harm: no unregistered market is repeated,
or all new assets fit in the first two connections with room. -/
def Tidy (owner : String → String) (pool : Pool) : Action → Prop
  | .subscribe markets _ _ => Offer owner markets ∧
      (Distinct pool markets ∨ Fits pool (pool.newAssets markets).length)
  | .unsubscribe _ => True

/-- Such a subscription keeps the routing. -/
theorem Routed.subscribeTidy {owner : String → String} {pool : Pool} (routed : Routed owner pool)
    {markets : List Market} (offer : Offer owner markets)
    (tidy : Distinct pool markets ∨ Fits pool (pool.newAssets markets).length)
    (first second : Shuffle) :
    ∃ next, pool.subscribeMarkets markets first second = some next ∧ Routed owner next := by
  rcases tidy with distinct | fits
  · rw [← subscribeMarkets_unregistered]
    exact routed.subscribe (offer.batch distinct) first second
  · exact routed.subscribeFitting offer fits first second

theorem Routed.tidyStep {owner : String → String} (pool : Pool) (call : Action) (next : Pool)
    (tidy : Tidy owner pool call) (taken : Pool.step pool call = some next)
    (routed : Routed owner pool) : Routed owner next := by
  cases call with
  | subscribe markets first second =>
    obtain ⟨after, completed, stays⟩ := routed.subscribeTidy tidy.1 tidy.2 first second
    obtain rfl := Option.some.inj (completed.symm.trans taken)
    exact stays
  | unsubscribe hashes =>
    obtain rfl := Option.some.inj taken
    exact routed.unsubscribe hashes

/-- After every run of calls under which repetitions do no harm, a batch is
subscribed once by all outcomes of its shuffles exactly when its own repetitions
do no harm: no unregistered market is repeated, or all new assets fit in the
first two connections with room. -/
theorem subscribed_once_iff (maxAssetsPerConn : Nat) (positive : 1 ≤ maxAssetsPerConn)
    (owner : String → String) (calls : List Action) (pool : Pool)
    (tidy : Runs.Along Pool.step (Tidy owner) (new maxAssetsPerConn) calls)
    (reached : Runs.run Pool.step (new maxAssetsPerConn) calls = some pool)
    (markets : List Market) (offer : Offer owner markets) :
    (∀ first second, ∃ next, pool.subscribeMarkets markets first second = some next ∧
        Once pool next markets) ↔
      Distinct pool markets ∨ Fits pool (pool.newAssets markets).length := by
  have routed : Routed owner pool :=
    Runs.invariant_along Routed.tidyStep tidy reached (routed_new owner positive)
  constructor
  · intro always
    by_contra harmful
    obtain ⟨repeated, crowded⟩ := not_or.mp harmful
    obtain ⟨first, second, fails⟩ := routed.exists_not_once offer repeated crowded
    obtain ⟨next, completed, once⟩ := always first second
    exact fails next completed once
  · intro harmless first second
    obtain ⟨next, completed, stays⟩ := routed.subscribeTidy offer harmless first second
    exact ⟨next, completed, stays.once offer (registered_subscribeMarkets offer completed)⟩

theorem sample_offer : Offer sampleOwner [firstMarket, firstMarket] where
  owned := by
    intro market member
    have inBatch : market ∈ [firstMarket, secondMarket] := by
      simp only [List.mem_cons, List.not_mem_nil, or_false, or_self] at member
      exact member ▸ List.mem_cons_self
    exact sample_batch.owned market inBatch
  agree := by
    intro market member other alsoMember _
    simp only [List.mem_cons, List.not_mem_nil, or_false, or_self] at member alsoMember
    rw [member, alsoMember]

/-- A repeated market fits in an empty pool whose connections hold four assets. -/
theorem repeated_market_fits_four :
    ∃ next, (new 4).subscribeMarkets [firstMarket, firstMarket] .unchanged .unchanged = some next ∧
      Once (new 4) next [firstMarket, firstMarket] := by
  have fits : Fits (new 4) ((new 4).newAssets [firstMarket, firstMarket]).length := by
    refine ⟨by decide, ?_⟩
    intro first found
    exact absurd found (by simp [findConnWithCapacity, FirstFit.choose, new])
  exact (subscribed_once_iff 4 (by decide) sampleOwner [] (new 4) trivial rfl _ sample_offer).mpr
    (Or.inr fits) .unchanged .unchanged

/-- In connections of two assets a repeated market ends on four of them. -/
theorem repeated_market_is_carried_four_times :
    Offer sampleOwner [firstMarket, firstMarket] ∧
      ∃ next, (new 2).subscribeMarkets [firstMarket, firstMarket] .unchanged .unchanged =
          some next ∧ ¬ Once (new 2) next [firstMarket, firstMarket] := by
  refine ⟨sample_offer, _, rfl, ?_⟩
  intro once
  obtain ⟨c1, c2, _, _, carried⟩ := once.carried "y1" (by decide)
  have first := (carried 0).mp ⟨_, rfl, by decide⟩
  have second := (carried 1).mp ⟨_, rfl, by decide⟩
  have third := (carried 2).mp ⟨_, rfl, by decide⟩
  omega

end Collector.Pool
