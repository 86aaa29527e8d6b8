import NearMultiFeed.Deployment

/-!
# The feeds and the history behind them

The `F` events of a history, with the block second of the call that emitted
them, are the writes the feeds went through. Between two calls a feed is what
the codec kept of its last write, and the timestamps of its writes ascend.
-/
namespace NearMultiFeed

/-- The writes a history reports, in emission and then array order. -/
def writesOf {AccountId : Type} (past : List (Receipt AccountId)) : List Write :=
  past.flatMap fun r =>
    (feedEntries r.2.events).map (FeedUpdate.write (MultiFeed.blockSecond r.1.ctx))

/-- The entry of an `F` event that reports a write. -/
def Write.update (w : Write) : FeedUpdate := ⟨w.feedId, w.feed.price, w.feed.aggTs⟩

section Entries
variable {AccountId : Type}

@[simp] theorem update_write (now : UInt64) (u : FeedUpdate) : (u.write now).update = u := rfl

theorem writesOf_append (past later : List (Receipt AccountId)) :
    writesOf (past ++ later) = writesOf past ++ writesOf later :=
  List.flatMap_append

theorem writesOf_singleton (r : Receipt AccountId) :
    writesOf [r] =
      (feedEntries r.2.events).map (FeedUpdate.write (MultiFeed.blockSecond r.1.ctx)) :=
  List.flatMap_singleton _ r

/-- Forgetting the block seconds leaves the entries of the event log. -/
theorem map_update_writesOf (past : List (Receipt AccountId)) :
    (writesOf past).map Write.update = feedEntries (eventsOf past) := by
  induction past with
  | nil => rfl
  | cons r past ih =>
      have here : (writesOf [r]).map Write.update = feedEntries (eventsOf [r]) := by
        rw [writesOf_singleton, List.map_map]
        have same : Write.update ∘ FeedUpdate.write (MultiFeed.blockSecond r.1.ctx) = id := by
          funext u
          exact update_write _ u
        rw [same, List.map_id, eventsOf, List.flatMap_singleton]
      have whole : r :: past = [r] ++ past := rfl
      rw [whole, writesOf_append, eventsOf_append, List.map_append, here, ih, feedEntries_append]

theorem mem_writesOf {past : List (Receipt AccountId)} {w : Write} :
    w ∈ writesOf past ↔ ∃ r ∈ past, w.update ∈ feedEntries r.2.events ∧
      w.feed.onchainTs = MultiFeed.blockSecond r.1.ctx := by
  simp only [writesOf, List.mem_flatMap, List.mem_map]
  constructor
  · intro h
    obtain ⟨r, hr, u, hu, same⟩ := h
    subst same
    exact ⟨r, hr, hu, rfl⟩
  · intro h
    obtain ⟨r, hr, hu, time⟩ := h
    refine ⟨r, hr, w.update, hu, ?_⟩
    rw [FeedUpdate.write, ← time]
    rfl

/-- Block timestamps never decrease along a list of calls. -/
def ClockMonotone (txs : List (Transaction AccountId)) : Prop :=
  (txs.map fun tx => tx.ctx.blockTimestamp).Pairwise (· ≤ ·)

instance (txs : List (Transaction AccountId)) : Decidable (ClockMonotone txs) :=
  inferInstanceAs (Decidable ((txs.map fun tx => tx.ctx.blockTimestamp).Pairwise (· ≤ ·)))

theorem feedEntries_eq_nil {log : List (ContractEvent AccountId)}
    (h : ∀ e ∈ log, e.entries = []) : feedEntries log = [] :=
  List.flatMap_eq_nil_iff.mpr h

@[simp] theorem feedEntries_roleLog (r : Role) (us : List (RoleUpdate AccountId)) :
    feedEntries (roleLog r us) = [] := by
  apply feedEntries_eq_nil
  intro e he
  obtain ⟨u, -, same⟩ := List.mem_map.mp he
  subst same
  cases r <;> rfl

end Entries

namespace MultiFeed

section History
variable {Feeds Roles Callers AccountId : Type} [LookupMap Feeds UInt32 StoredFeed]

/-- The feeds of a state are accounted for by its history. -/
structure FeedHistory (s : MultiFeed Feeds Roles Callers AccountId)
    (past : List (Receipt AccountId)) : Prop where
  settled : LookupMap.flush s.feeds = s.feeds
  stored : ∀ id, LookupMap.get s.feeds id =
    (KeyedLog.latest Write.feedId id (writesOf past)).map fun w => w.feed.persisted
  ascending : KeyedLog.Chained Write.feedId Write.version (· < ·) (fun _ => 0) (writesOf past)
  near : ∀ w ∈ writesOf past, w.version < w.feed.onchainTs.toNat + 60
  early : ∀ w ∈ writesOf past, w.feed.onchainTs.toNat < 2 ^ 35

namespace FeedHistory

variable {s : MultiFeed Feeds Roles Callers AccountId} {past : List (Receipt AccountId)}

/-- The codec keeps the timestamps of every accepted write. -/
theorem persisted_exact (h : FeedHistory s past) {w : Write} (hw : w ∈ writesOf past) :
    w.feed.persisted.aggTs = w.feed.aggTs ∧ w.feed.persisted.onchainTs = w.feed.onchainTs := by
  have close : w.feed.aggTs.toNat < w.feed.onchainTs.toNat + 60 := h.near w hw
  have low := h.early w hw
  constructor
  · apply StoredFeed.persisted_aggTs_eq
    omega
  · apply StoredFeed.persisted_onchainTs_eq
    omega

/-- The timestamp `f` compares with is the last one written. -/
theorem prevVersion_eq (h : FeedHistory s past) :
    prevVersion s.feeds =
      KeyedLog.current Write.feedId Write.version (fun _ => 0) (writesOf past) := by
  funext id
  rw [prevVersion, prevAggTs, h.stored id, KeyedLog.current]
  cases last : KeyedLog.latest Write.feedId id (writesOf past) with
  | none => rfl
  | some w =>
      have exact_ts := (h.persisted_exact (KeyedLog.latest_mem _ last).1).1
      simp only [Option.map_some, Option.getD_some, exact_ts]
      rfl

/-- The history after an accepted batch. -/
theorem batch (h : FeedHistory s past) {r : Receipt AccountId} {us : List FeedUpdate}
    {next : MultiFeed Feeds Roles Callers AccountId}
    (accepted : Accepts s.feeds (blockSecond r.1.ctx) us)
    (reported : feedEntries r.2.events = us)
    (written : next.feeds = LookupMap.flush
      (insertAll s.feeds (us.map (FeedUpdate.write (blockSecond r.1.ctx))))) :
    FeedHistory next (past ++ [r]) := by
  have added : writesOf [r] = us.map (FeedUpdate.write (blockSecond r.1.ctx)) := by
    rw [writesOf_singleton, reported]
  have all : writesOf (past ++ [r]) =
      writesOf past ++ us.map (FeedUpdate.write (blockSecond r.1.ctx)) := by
    rw [writesOf_append, added]
  refine ⟨?_, ?_, ?_, ?_, ?_⟩
  · rw [written]
    exact LookupMap.flush_flush _
  · intro id
    rw [written, get_flush_insertAll, h.settled, h.stored id, all, KeyedLog.latest_append]
    cases KeyedLog.latest Write.feedId id (us.map (FeedUpdate.write (blockSecond r.1.ctx))) <;> rfl
  · rw [all, KeyedLog.chained_append, ← h.prevVersion_eq]
    refine ⟨h.ascending, ?_⟩
    intro id
    rw [KeyedLog.entriesOf_map, List.map_map]
    exact accepted.ascending id
  · intro w hw
    rw [all] at hw
    rcases List.mem_append.mp hw with earlier | here
    · exact h.near w earlier
    · obtain ⟨u, hu, same⟩ := List.mem_map.mp here
      subst same
      exact accepted.drift u hu
  · intro w hw
    rw [all] at hw
    rcases List.mem_append.mp hw with earlier | here
    · exact h.early w earlier
    · obtain ⟨u, hu, same⟩ := List.mem_map.mp here
      subst same
      exact blockSecond_lt r.1.ctx

/-- A call that reports no entry leaves the account as it was. -/
theorem quiet (h : FeedHistory s past) {r : Receipt AccountId}
    {next : MultiFeed Feeds Roles Callers AccountId}
    (reported : feedEntries r.2.events = []) (same : next.feeds = s.feeds) :
    FeedHistory next (past ++ [r]) := by
  have all : writesOf (past ++ [r]) = writesOf past := by
    rw [writesOf_append, writesOf_singleton, reported, List.map_nil, List.append_nil]
  constructor
  · rw [same]
    exact h.settled
  · intro id
    rw [same, all]
    exact h.stored id
  · rw [all]
    exact h.ascending
  · rw [all]
    exact h.near
  · rw [all]
    exact h.early

/-- A stored feed is the codec's image of the last write of its id. -/
theorem stored_write (h : FeedHistory s past) {id : UInt32} {feed : StoredFeed}
    (there : LookupMap.get s.feeds id = some feed) :
    ∃ w, KeyedLog.latest Write.feedId id (writesOf past) = some w ∧ feed = w.feed.persisted := by
  rw [h.stored id] at there
  cases last : KeyedLog.latest Write.feedId id (writesOf past) with
  | none =>
      rw [last] at there
      cases there
  | some w =>
      rw [last] at there
      cases there
      exact ⟨w, rfl, rfl⟩

/-- The entries of the log ascend as the writes do. -/
theorem entries_ascending (h : FeedHistory s past) :
    KeyedLog.Chained FeedUpdate.feedId FeedUpdate.version (· < ·) (fun _ => 0)
      (feedEntries (eventsOf past)) := by
  intro id
  rw [← map_update_writesOf, KeyedLog.entriesOf_map, List.map_map]
  exact h.ascending id

end FeedHistory

end History

section Runs
variable {Feeds Roles Callers AccountId : Type} [DecidableEq AccountId]
  [LookupMap Feeds UInt32 StoredFeed] [LookupSet Roles AccountId]
  [IterableSet Callers AccountId]

/-- The entries of a deployment log are none. -/
theorem Deployed.no_entries {s : MultiFeed Feeds Roles Callers AccountId}
    {log : List (ContractEvent AccountId)} (h : Deployed s log) :
    feedEntries log = [] := by
  obtain ⟨openRead, granted, initial⟩ := h.initialised
  rw [initial.events]
  simp only [feedEntries_append, feedEntries_roleLog, List.append_nil]
  rfl

/-- Only `f` reports entries or touches a feed. -/
theorem Effect.feeds_cases {s next : MultiFeed Feeds Roles Callers AccountId}
    {ctx : VMContext AccountId} {call : Call AccountId} {log : List (ContractEvent AccountId)}
    (effect : Effect s ctx call next log) (settled : LookupMap.flush s.feeds = s.feeds) :
    (∃ us, call = .f us ∧ us ≠ [] ∧ Accepts s.feeds (blockSecond ctx) us ∧
      feedEntries log = us ∧
      next.feeds = LookupMap.flush
        (insertAll s.feeds (us.map (FeedUpdate.write (blockSecond ctx))))) ∨
    (feedEntries log = [] ∧ next.feeds = s.feeds) := by
  cases effect with
  | read => exact .inr ⟨feedEntries_nil, rfl⟩
  | @f _ us _ _ _ some_updates accepted =>
      refine .inl ⟨us, rfl, some_updates, accepted, ?_, rfl⟩
      rw [feedEntries, List.flatMap_singleton, entries_f]
  | transferOwnership => exact .inr ⟨rfl, settled⟩
  | @setRole r us =>
      refine .inr ⟨feedEntries_roleLog r.role us, ?_⟩
      cases r <;> exact settled
  | setAuthorizedCallers =>
      refine .inr ⟨?_, settled⟩
      rw [updateAuthorizedCallers_log]
      exact feedEntries_roleLog .authorizedCaller _
  | setPaused => exact .inr ⟨rfl, settled⟩
  | setOpenReadStatus => exact .inr ⟨rfl, settled⟩

namespace FeedHistory

variable {s : MultiFeed Feeds Roles Callers AccountId} {past : List (Receipt AccountId)}

theorem of_deployed {log : List (ContractEvent AccountId)} (h : Deployed s log) :
    FeedHistory s [] := by
  obtain ⟨openRead, granted, initial⟩ := h.initialised
  refine ⟨h.wellFormed.flushed, ?_, KeyedLog.chained_nil _ _ _ _, ?_, ?_⟩
  · intro id
    rw [initial.feeds, LookupMap.get_new]
    rfl
  · intro w hw
    cases hw
  · intro w hw
    cases hw

theorem step (h : FeedHistory s past) (tx : Transaction AccountId) :
    FeedHistory (s.step tx).1 (past ++ [(tx, (s.step tx).2)]) := by
  rcases s.step_cases tx with ⟨next, value, log, same, effect⟩ | ⟨panic, -, same⟩
  · rw [same]
    rcases effect.feeds_cases h.settled with ⟨us, -, -, accepted, reported, written⟩ | ⟨none, kept⟩
    · exact h.batch accepted reported written
    · exact h.quiet none kept
  · rw [same]
    exact h.quiet feedEntries_nil rfl

/-- The run lemma, from any state with a history. -/
theorem run (h : FeedHistory s past) (txs : List (Transaction AccountId)) :
    FeedHistory (s.run txs) (past ++ s.receipts txs) :=
  Machine.history_invariant MultiFeed.step (fun _ _ tx hs => hs.step tx) h txs

theorem of_run {log : List (ContractEvent AccountId)} (deployed : Deployed s log)
    (txs : List (Transaction AccountId)) : FeedHistory (s.run txs) (s.receipts txs) :=
  (of_deployed deployed).run txs

end FeedHistory

/-- Every write of a run carries the block second of one of its calls. -/
theorem time_of_write {s : MultiFeed Feeds Roles Callers AccountId}
    {txs : List (Transaction AccountId)} {w : Write} (hw : w ∈ writesOf (s.receipts txs)) :
    ∃ tx ∈ txs, w.feed.onchainTs = blockSecond tx.ctx := by
  obtain ⟨r, hr, -, time⟩ := mem_writesOf.mp hw
  refine ⟨r.1, ?_, time⟩
  have inputs := Machine.map_fst_trace MultiFeed.step s txs
  rw [← inputs]
  exact List.mem_map.mpr ⟨r, hr, rfl⟩

end Runs

end MultiFeed

end NearMultiFeed
