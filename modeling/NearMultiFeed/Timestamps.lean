import NearMultiFeed.Reads

/-!
# Timestamps over whole runs

Accepted timestamps ascend under every feed id, stay within a minute of the
block second they were written at, and so never shut out an honest reporter.
-/
namespace NearMultiFeed

namespace MultiFeed

section Stored
variable {Feeds Roles Callers AccountId : Type} [LookupMap Feeds UInt32 StoredFeed]
  {s : MultiFeed Feeds Roles Callers AccountId} {past : List (Receipt AccountId)}

/-- The two timestamps of a stored feed. -/
theorem FeedHistory.stored_bounds (h : FeedHistory s past) {id : UInt32} {feed : StoredFeed}
    (there : LookupMap.get s.feeds id = some feed) :
    1 ≤ feed.aggTs.toNat ∧ feed.aggTs.toNat < feed.onchainTs.toNat + 60 ∧
      feed.onchainTs.toNat < 2 ^ 35 := by
  obtain ⟨w, last, shape⟩ := h.stored_write there
  have member := (KeyedLog.latest_mem _ last).1
  obtain ⟨version, second⟩ := h.persisted_exact member
  have positive : 0 < w.feed.aggTs.toNat := h.ascending.base_lt member
  have near : w.feed.aggTs.toNat < w.feed.onchainTs.toNat + 60 := h.near w member
  have early := h.early w member
  rw [shape, version, second]
  exact ⟨positive, near, early⟩

/-- The timestamp the next report of a feed has to exceed. -/
theorem FeedHistory.prevVersion_lt (h : FeedHistory s past) {id : UInt32} {bound : ℕ}
    (positive : 0 < bound)
    (late : ∀ feed, LookupMap.get s.feeds id = some feed → feed.onchainTs.toNat + 60 ≤ bound) :
    prevVersion s.feeds id < bound := by
  rw [prevVersion, prevAggTs]
  cases there : LookupMap.get s.feeds id with
  | none => exact positive
  | some feed =>
      have bounds := h.stored_bounds there
      have behind := late feed there
      simp only [Option.map_some, Option.getD_some]
      omega

end Stored

variable {Feeds Roles Callers AccountId : Type} [DecidableEq AccountId]
  [LookupMap Feeds UInt32 StoredFeed] [LookupSet Roles AccountId]
  [IterableSet Callers AccountId]

theorem Reachable.history {s : MultiFeed Feeds Roles Callers AccountId} (h : Reachable s) :
    ∃ past, FeedHistory s past := by
  obtain ⟨s₀, log₀, txs, deployed, rfl⟩ := h
  exact ⟨s₀.receipts txs, FeedHistory.of_run deployed txs⟩

/-- A batch that went through is among the writes of every later history, and
its first entry is then too old. -/
theorem resubmission_refused {s : MultiFeed Feeds Roles Callers AccountId}
    {log : List (ContractEvent AccountId)} (deployed : Deployed s log)
    (before after : List (Transaction AccountId)) {ctx ctx' : VMContext AccountId}
    {us : List FeedUpdate} {value : Value AccountId} {events : List (ContractEvent AccountId)}
    (accepted : ((s.run before).step ⟨ctx, .f us⟩).2 = .success value events) :
    ∃ message, ((s.run (before ++ ⟨ctx, .f us⟩ :: after)).step ⟨ctx', .f us⟩).2 =
      .failure message := by
  have history := FeedHistory.of_run deployed (before ++ ⟨ctx, .f us⟩ :: after)
  cases again : ((s.run (before ++ ⟨ctx, .f us⟩ :: after)).step ⟨ctx', .f us⟩).2 with
  | failure message => exact ⟨message, rfl⟩
  | success value' events' =>
      exfalso
      obtain ⟨-, -, some_updates, -, -, reported⟩ := step_f.mp accepted
      obtain ⟨-, -, -, good, -, -⟩ := step_f.mp again
      cases us with
      | nil => exact some_updates rfl
      | cons u us =>
          have fresh := (accepts_cons.mp good).1.1
          let w := u.write (blockSecond ctx)
          have written : w ∈ writesOf (s.receipts (before ++ ⟨ctx, .f (u :: us)⟩ :: after)) := by
            apply mem_writesOf.mpr
            refine ⟨(⟨ctx, .f (u :: us)⟩, ((s.run before).step ⟨ctx, .f (u :: us)⟩).2), ?_, ?_, rfl⟩
            · rw [receipts, Machine.trace_append]
              exact List.mem_append_right _ List.mem_cons_self
            · rw [accepted]
              simp only [Outcome.events, reported, feedEntries, List.flatMap_singleton, entries_f]
              exact List.mem_cons_self
          have known := history.ascending.le_current written
          rw [← history.prevVersion_eq] at known
          exact absurd fresh (Nat.not_lt.mpr known)

/-- Over a run, whatever the callers, the batches and the clock: the accepted
timestamps of a feed ascend from 1, the stored one is the last and the greatest,
no timestamp of a feed is accepted twice and no batch goes through twice. -/
theorem no_replay {s : MultiFeed Feeds Roles Callers AccountId}
    {log : List (ContractEvent AccountId)} (deployed : Deployed s log)
    (txs : List (Transaction AccountId)) :
    let entries := feedEntries (log ++ eventsOf (s.receipts txs))
    (∀ id, ((KeyedLog.entriesOf FeedUpdate.feedId id entries).map (·.aggTs)).Pairwise (· < ·)) ∧
    (∀ u ∈ entries, 1 ≤ u.aggTs) ∧
    (∀ id, (LookupMap.get (s.run txs).feeds id).map (·.aggTs) =
      (KeyedLog.latest FeedUpdate.feedId id entries).map (·.aggTs)) ∧
    (∀ id feed, LookupMap.get (s.run txs).feeds id = some feed →
      ∀ u ∈ entries, u.feedId = id → u.aggTs ≤ feed.aggTs) ∧
    (entries.map fun u => (u.feedId, u.aggTs)).Nodup ∧
    (∀ before after ctx us value events, txs = before ++ ⟨ctx, .f us⟩ :: after →
      ((s.run before).step ⟨ctx, .f us⟩).2 = .success value events →
      ∀ ctx', ∃ message, ((s.run txs).step ⟨ctx', .f us⟩).2 = .failure message) := by
  intro entries
  have history := FeedHistory.of_run deployed txs
  have logged : entries = (writesOf (s.receipts txs)).map Write.update := by
    change feedEntries (log ++ eventsOf (s.receipts txs)) = _
    rw [feedEntries_append, deployed.no_entries, List.nil_append, map_update_writesOf]
  have ascending : KeyedLog.Chained FeedUpdate.feedId FeedUpdate.version (· < ·) (fun _ => 0)
      entries := by
    rw [logged, map_update_writesOf]
    exact history.entries_ascending
  have stored (id : UInt32) : (LookupMap.get (s.run txs).feeds id).map (·.aggTs) =
      (KeyedLog.latest FeedUpdate.feedId id entries).map (·.aggTs) := by
    have renamed := KeyedLog.latest_map FeedUpdate.feedId Write.update id
      (writesOf (s.receipts txs))
    rw [history.stored id, logged, renamed, Option.map_map, Option.map_map]
    apply Option.map_congr
    intro w last
    exact (history.persisted_exact (KeyedLog.latest_mem _ last).1).1
  refine ⟨?_, ?_, stored, ?_, ?_, ?_⟩
  · intro id
    have ordered := (List.pairwise_cons.mp (ascending.pairwise id)).2
    rw [List.pairwise_map] at ordered ⊢
    apply ordered.imp
    intro u v h
    exact UInt64.lt_iff_toNat_lt.mpr h
  · intro u hu
    apply UInt64.le_iff_toNat_le.mpr
    exact ascending.base_lt hu
  · intro id feed there u hu same
    have greatest := ascending.le_current hu
    have last := stored id
    rw [there, Option.map_some] at last
    obtain ⟨v, found, version⟩ := Option.map_eq_some_iff.mp last.symm
    rw [same, KeyedLog.current, found, Option.map_some, Option.getD_some] at greatest
    rw [← version]
    exact UInt64.le_iff_toNat_le.mpr greatest
  · have distinct := ascending.nodup
    have keys : entries.map (fun u => (u.feedId, u.version)) =
        (entries.map fun u => (u.feedId, u.aggTs)).map (Prod.map id UInt64.toNat) := by
      rw [List.map_map]
      rfl
    rw [keys] at distinct
    exact distinct.of_map _
  · intro before after ctx us value events split accepted ctx'
    subst split
    exact resubmission_refused deployed before after accepted

theorem no_replay_sample :
    ∃ message, ((sample.run [reportAt 100 [⟨42, 7, 100⟩, ⟨42, 8, 101⟩],
      reportAt 90 [⟨1, 5, 2⟩]]).step (reportAt 200 [⟨42, 7, 100⟩, ⟨42, 8, 101⟩])).2 =
        .failure message := by
  have once : ((sample.run []).step (reportAt 100 [⟨42, 7, 100⟩, ⟨42, 8, 101⟩])).2 =
      .success .unit [.f [42, 42] [7, 8] [100, 101]] := rfl
  obtain ⟨-, -, -, -, -, refused⟩ := no_replay sample_deployed
    [reportAt 100 [⟨42, 7, 100⟩, ⟨42, 8, 101⟩], reportAt 90 [⟨1, 5, 2⟩]]
  exact refused [] [reportAt 90 [⟨1, 5, 2⟩]] _ _ _ _ rfl once (reportAt 200 []).ctx

/-- Every stored feed in a run with a monotone clock. -/
theorem stored_timestamps {s : MultiFeed Feeds Roles Callers AccountId}
    {log : List (ContractEvent AccountId)} (deployed : Deployed s log)
    (txs : List (Transaction AccountId)) (clock : ClockMonotone txs) {id : UInt32}
    {feed : StoredFeed} (there : LookupMap.get (s.run txs).feeds id = some feed) :
    1 ≤ feed.aggTs.toNat ∧ feed.aggTs.toNat ≤ feed.onchainTs.toNat + 59 ∧
    (∃ last, txs.getLast? = some last ∧
      feed.onchainTs.toNat ≤ last.ctx.blockTimestamp.toNat / 10 ^ 9) ∧
    feed.aggTs.toNat < 2 ^ 48 ∧ feed.onchainTs.toNat < 2 ^ 48 ∧
    (∃ r ∈ s.receipts txs, ∃ u ∈ feedEntries r.2.events,
      u.feedId = id ∧ u.aggTs = feed.aggTs) ∧
    (∀ r ∈ s.receipts txs, ∀ u ∈ feedEntries r.2.events, u.feedId = id →
      u.aggTs = feed.aggTs → feed.onchainTs = blockSecond r.1.ctx) := by
  have history := FeedHistory.of_run deployed txs
  obtain ⟨positive, near, early⟩ := history.stored_bounds there
  obtain ⟨w, last, shape⟩ := history.stored_write there
  obtain ⟨member, key⟩ := KeyedLog.latest_mem _ last
  obtain ⟨version, second⟩ := history.persisted_exact member
  have near_int : feed.aggTs.toNat ≤ feed.onchainTs.toNat + 59 := by omega
  have agg_fits : feed.aggTs.toNat < 2 ^ 48 := by omega
  have onchain_fits : feed.onchainTs.toNat < 2 ^ 48 := by omega
  refine ⟨positive, near_int, ?_, agg_fits, onchain_fits, ?_, ?_⟩
  · obtain ⟨tx, call, time⟩ := time_of_write member
    have nonempty : txs ≠ [] := List.ne_nil_of_mem call
    refine ⟨txs.getLast nonempty, List.getLast?_eq_some_getLast nonempty, ?_⟩
    have stamps := List.Pairwise.rel_getLast clock (List.mem_map_of_mem call)
    rw [List.getLast_map] at stamps
    rw [shape, second, time, blockSecond_toNat]
    apply Nat.div_le_div_right
    exact UInt64.le_iff_toNat_le.mp stamps
  · obtain ⟨r, hr, reported, -⟩ := mem_writesOf.mp member
    refine ⟨r, hr, w.update, reported, key, ?_⟩
    rw [shape, version]
    rfl
  · intro r hr u hu same_id same_ts
    have written : u.write (blockSecond r.1.ctx) ∈ writesOf (s.receipts txs) :=
      mem_writesOf.mpr ⟨r, hr, hu, rfl⟩
    have same_version : (u.write (blockSecond r.1.ctx)).version = w.version := by
      rw [shape, version] at same_ts
      exact congrArg UInt64.toNat same_ts
    have same_write := history.ascending.eq_of_val_eq written member (same_id.trans key.symm)
      same_version
    rw [shape, second, ← same_write]
    rfl

theorem stored_timestamps_sample :
    let txs := [reportAt 100 [⟨42, 7, 100⟩], reportAt 160 [⟨42, 8, 105⟩]]
    ∃ feed, LookupMap.get (sample.run txs).feeds 42 = some feed ∧
      feed.aggTs.toNat ≤ feed.onchainTs.toNat + 59 ∧
      ∀ r ∈ sample.receipts txs, ∀ u ∈ feedEntries r.2.events, u.feedId = 42 →
        u.aggTs = feed.aggTs → feed.onchainTs = blockSecond r.1.ctx := by
  intro txs
  have there : LookupMap.get (sample.run txs).feeds 42 = some ⟨8, 105, 160⟩ := rfl
  have clock : ClockMonotone txs := by decide
  obtain ⟨-, near, -, -, -, -, linked⟩ := stored_timestamps sample_deployed txs clock there
  exact ⟨_, there, near, linked⟩

/-- Once the last report of every feed of a batch is a minute old, a reporter who
stamps the batch with the current second gets it through; and a feed always has
an acceptable timestamp from the second after its last report. -/
theorem reporter_not_jammed {s : MultiFeed Feeds Roles Callers AccountId} (h : Reachable s) :
    (∀ (ctx : VMContext AccountId) (caller : AccountId) (us : List FeedUpdate),
      ctx.predecessor = some caller → s.isPriceReporter caller = true → ctx.deposit = 0 →
      us ≠ [] → (us.map (·.feedId)).Nodup → (∀ u ∈ us, u.aggTs = blockSecond ctx) →
      1 ≤ (blockSecond ctx).toNat →
      (∀ u ∈ us, ∀ feed, LookupMap.get s.feeds u.feedId = some feed →
        feed.onchainTs.toNat + 60 ≤ (blockSecond ctx).toNat) →
      ∃ events, (s.step ⟨ctx, .f us⟩).2 = .success .unit events) ∧
    (∀ (ctx : VMContext AccountId) (id : UInt32) (feed : StoredFeed),
      LookupMap.get s.feeds id = some feed → feed.onchainTs < blockSecond ctx →
      ∃ aggTs, ∀ price, ∃ batch,
        fEntry (blockSecond ctx) ⟨s.feeds, [], [], []⟩ ⟨id, price, aggTs⟩ = .ok batch) := by
  obtain ⟨past, history⟩ := h.history
  constructor
  · intro ctx caller us called member zero some_updates distinct current_second positive late
    have accepted : Accepts s.feeds (blockSecond ctx) us := by
      constructor
      · apply KeyedLog.chained_of_nodup _ _ _ distinct
        intro u hu
        have version : u.version = (blockSecond ctx).toNat := by
          rw [FeedUpdate.version, current_second u hu]
        rw [version]
        exact history.prevVersion_lt positive (late u hu)
      · intro u hu
        rw [current_second u hu]
        omega
    exact ⟨_, step_f.mpr ⟨⟨caller, called, member⟩, zero, some_updates, accepted, rfl, rfl⟩⟩
  · intro ctx id feed there later
    have early := blockSecond_lt ctx
    have fits : (blockSecond ctx).toNat + 60 < 2 ^ 64 := by omega
    have bounds := history.stored_bounds there
    have seconds := UInt64.lt_iff_toNat_lt.mp later
    have sum : (blockSecond ctx + 59).toNat = (blockSecond ctx).toNat + 59 := by
      rw [UInt64.toNat_add]
      apply Nat.mod_eq_of_lt
      change (blockSecond ctx).toNat + 59 < 2 ^ 64
      omega
    refine ⟨blockSecond ctx + 59, ?_⟩
    intro price
    refine ⟨_, (fEntry_eq fits _ _).trans (if_pos ⟨?_, ?_⟩)⟩
    · rw [FeedUpdate.version, sum, prevVersion, prevAggTs, there]
      simp only [Option.map_some, Option.getD_some]
      omega
    · rw [sum]
      omega

theorem reporter_not_jammed_sample :
    (∃ events, ((sample.run [reportAt 100 [⟨42, 7, 159⟩]]).step
      (reportAt 160 [⟨42, 8, 160⟩, ⟨43, 9, 160⟩])).2 = .success .unit events) ∧
    ∃ aggTs, ∀ price, ∃ batch, fEntry 101
      ⟨(sample.run [reportAt 100 [⟨42, 7, 159⟩]]).feeds, [], [], []⟩ ⟨42, price, aggTs⟩ =
        .ok batch := by
  have reachable : Reachable (sample.run [reportAt 100 [⟨42, 7, 159⟩]]) :=
    ⟨sample, sampleLog, _, sample_deployed, rfl⟩
  obtain ⟨goes_through, room⟩ := reporter_not_jammed reachable
  constructor
  · apply goes_through (reportAt 160 []).ctx "reporter.near" [⟨42, 8, 160⟩, ⟨43, 9, 160⟩]
      rfl rfl rfl (by decide) (by decide) (by decide) (by decide)
    decide
  · exact room (reportAt 101 []).ctx 42 ⟨7, 159, 100⟩ rfl (by decide)

end MultiFeed

end NearMultiFeed
