import NearMultiFeed.Timestamps

/-!
# Convergence

Acceptance forces the order of a feed's updates, so the feeds at the end of a
run depend on which updates went through and not on how they were delivered.
-/
namespace NearMultiFeed

section Accepted
variable {AccountId : Type}

/-- The updates of an `f` call that succeeded; any other call accepts none. -/
def acceptedOf : Receipt AccountId → List FeedUpdate
  | (⟨_, .f updates⟩, .success _ _) => updates
  | _ => []

/-- The updates a history accepted, in order. -/
def acceptedUpdates (past : List (Receipt AccountId)) : List FeedUpdate :=
  past.flatMap acceptedOf

end Accepted

namespace MultiFeed

section Stored
variable {Feeds Roles Callers AccountId : Type} [LookupMap Feeds UInt32 StoredFeed]
  {s : MultiFeed Feeds Roles Callers AccountId} {past : List (Receipt AccountId)}

/-- The price and timestamp stored for a feed are those of its last entry. -/
theorem FeedHistory.stored_entry (h : FeedHistory s past) (id : UInt32) :
    (LookupMap.get s.feeds id).map (fun feed => (feed.price, feed.aggTs)) =
      (KeyedLog.latest FeedUpdate.feedId id (feedEntries (eventsOf past))).map fun u =>
        ((u.write 0).feed.persisted.price, (u.write 0).feed.persisted.aggTs) := by
  have renamed := KeyedLog.latest_map FeedUpdate.feedId Write.update id (writesOf past)
  rw [h.stored id, ← map_update_writesOf, renamed, Option.map_map, Option.map_map]
  rfl

end Stored

/-! Two batches that list the entries of every feed in the same order. -/

section Batch
variable {Feeds : Type} [LookupMap Feeds UInt32 StoredFeed] {us us' : List FeedUpdate}
  (same : ∀ id, KeyedLog.entriesOf FeedUpdate.feedId id us =
    KeyedLog.entriesOf FeedUpdate.feedId id us')
include same

/-- Acceptance looks at each feed's entries on their own. -/
theorem accepts_congr {feeds : Feeds} {now : UInt64} (h : Accepts feeds now us) :
    Accepts feeds now us' := by
  have same' (id : UInt32) := (same id).symm
  constructor
  · intro id
    rw [← same id]
    exact h.ascending id
  · intro u hu
    exact h.drift u (KeyedLog.mem_of_entriesOf_eq FeedUpdate.feedId same' hu)

theorem ne_nil_congr (h : us ≠ []) : us' ≠ [] := by
  have first := KeyedLog.mem_of_entriesOf_eq FeedUpdate.feedId same (List.head_mem h)
  exact List.ne_nil_of_mem first

/-- The last write of a feed is that of its last entry. -/
theorem latest_write_congr (now : UInt64) (id : UInt32) :
    KeyedLog.latest Write.feedId id (us.map (FeedUpdate.write now)) =
      KeyedLog.latest Write.feedId id (us'.map (FeedUpdate.write now)) := by
  rw [latest_writes, latest_writes, KeyedLog.latest, KeyedLog.latest, same]

end Batch

variable {Feeds Roles Callers AccountId : Type} [DecidableEq AccountId]
  [LookupMap Feeds UInt32 StoredFeed] [LookupSet Roles AccountId]
  [IterableSet Callers AccountId]

section Call
variable {s : MultiFeed Feeds Roles Callers AccountId} {ctx : VMContext AccountId}
  {us us' : List FeedUpdate}
  (same : ∀ id, KeyedLog.entriesOf FeedUpdate.feedId id us =
    KeyedLog.entriesOf FeedUpdate.feedId id us')
include same

omit [DecidableEq AccountId] [IterableSet Callers AccountId] in
/-- They leave the same feeds. -/
theorem f_congr {next : MultiFeed Feeds Roles Callers AccountId}
    {log : List (ContractEvent AccountId)} (accepted : s.f ctx us = .ok (next, log)) :
    ∃ next' log', s.f ctx us' = .ok (next', log') ∧
      ∀ id, LookupMap.get next.feeds id = LookupMap.get next'.feeds id := by
  obtain ⟨caller, some_updates, good, rfl, rfl⟩ := f_eq_ok.mp accepted
  refine ⟨_, _, f_eq_ok.mpr ⟨caller, ne_nil_congr same some_updates, accepts_congr same good, rfl,
    rfl⟩, ?_⟩
  intro id
  rw [get_insertAll, get_insertAll, latest_write_congr same]

theorem step_f_congr {value : Value AccountId} {events : List (ContractEvent AccountId)}
    (accepted : (s.step ⟨ctx, .f us⟩).2 = .success value events) :
    ∃ value' events', (s.step ⟨ctx, .f us'⟩).2 = .success value' events' := by
  obtain ⟨caller, zero, some_updates, good, -, -⟩ := step_f.mp accepted
  exact ⟨_, _, step_f.mpr ⟨caller, zero, ne_nil_congr same some_updates,
    accepts_congr same good, rfl, rfl⟩⟩

end Call

/-- A call accepts exactly the updates it reports. -/
theorem acceptedOf_step (s : MultiFeed Feeds Roles Callers AccountId)
    (tx : Transaction AccountId) :
    acceptedOf (tx, (s.step tx).2) = feedEntries (s.step tx).2.events := by
  rcases s.step_cases tx with ⟨next, value, log, same, effect⟩ | ⟨panic, -, same⟩
  · rw [same]
    obtain ⟨ctx, call⟩ := tx
    cases effect with
    | @read call reading =>
        cases call with
        | f => cases reading
        | _ => rfl
    | f =>
        simp only [acceptedOf, Outcome.events, feedEntries, List.flatMap_singleton, entries_f]
    | transferOwnership | setPaused | setOpenReadStatus => rfl
    | @setRole r us =>
        have none : feedEntries (us.map fun u => r.role.event u.account u.status) = [] :=
          feedEntries_roleLog r.role us
        cases r <;> exact none.symm
    | setAuthorizedCallers =>
        rw [updateAuthorizedCallers_log]
        exact (feedEntries_roleLog .authorizedCaller _).symm
  · rw [same]
    obtain ⟨ctx, call⟩ := tx
    cases call <;> rfl

theorem acceptedUpdates_receipts (s : MultiFeed Feeds Roles Callers AccountId)
    (txs : List (Transaction AccountId)) :
    acceptedUpdates (s.receipts txs) = feedEntries (eventsOf (s.receipts txs)) := by
  induction txs generalizing s with
  | nil => rfl
  | cons tx txs ih =>
      have rest := ih (s.step tx).1
      simp only [acceptedUpdates, eventsOf, receipts, Machine.trace, List.flatMap_cons,
        feedEntries_append, acceptedOf_step] at rest ⊢
      rw [rest]

/-- Two runs from one state that accepted the same updates, in any order and any
batches, leave every feed with the same price and timestamp. Within one call,
only the order of the entries of each feed matters. -/
theorem runs_converge {s : MultiFeed Feeds Roles Callers AccountId} (h : Reachable s) :
    (∀ txs₁ txs₂ : List (Transaction AccountId),
      (acceptedUpdates (s.receipts txs₁)).Perm (acceptedUpdates (s.receipts txs₂)) →
      ∀ id, (LookupMap.get (s.run txs₁).feeds id).map (fun feed => (feed.price, feed.aggTs)) =
        (LookupMap.get (s.run txs₂).feeds id).map (fun feed => (feed.price, feed.aggTs))) ∧
    (∀ (ctx : VMContext AccountId) (us us' : List FeedUpdate),
      (∀ id, KeyedLog.entriesOf FeedUpdate.feedId id us =
        KeyedLog.entriesOf FeedUpdate.feedId id us') →
      ((∃ value events, (s.step ⟨ctx, .f us⟩).2 = .success value events) ↔
        ∃ value events, (s.step ⟨ctx, .f us'⟩).2 = .success value events) ∧
      (∀ next log, s.f ctx us = .ok (next, log) → ∃ next' log',
        s.f ctx us' = .ok (next', log') ∧
        ∀ id, LookupMap.get next.feeds id = LookupMap.get next'.feeds id) ∧
      ∀ id, LookupMap.get (s.step ⟨ctx, .f us⟩).1.feeds id =
        LookupMap.get (s.step ⟨ctx, .f us'⟩).1.feeds id) := by
  obtain ⟨past, history⟩ := h.history
  constructor
  · intro txs₁ txs₂ same id
    have history₁ := history.run txs₁
    have history₂ := history.run txs₂
    have reported : (feedEntries (eventsOf (past ++ s.receipts txs₁))).Perm
        (feedEntries (eventsOf (past ++ s.receipts txs₂))) := by
      rw [eventsOf_append, eventsOf_append, feedEntries_append, feedEntries_append,
        ← acceptedUpdates_receipts, ← acceptedUpdates_receipts]
      exact same.append_left _
    -- the timestamps of a feed ascend in both logs, which leaves one order only
    have entries := history₁.entries_ascending.entriesOf_eq history₂.entries_ascending reported id
    rw [history₁.stored_entry, history₂.stored_entry, KeyedLog.latest, KeyedLog.latest, entries]
  · intro ctx us us' same
    have same' (id : UInt32) := (same id).symm
    refine ⟨?_, fun next log accepted => f_congr same accepted, ?_⟩
    · constructor
      · rintro ⟨value, events, accepted⟩
        exact step_f_congr same accepted
      · rintro ⟨value, events, accepted⟩
        exact step_f_congr same' accepted
    · intro id
      cases first : (s.step ⟨ctx, .f us⟩).2 with
      | success value events =>
          obtain ⟨value', events', second⟩ := step_f_congr same first
          rw [step_f_next first, step_f_next second, get_flush_insertAll, get_flush_insertAll,
            latest_write_congr same]
      | failure message =>
          cases second : (s.step ⟨ctx, .f us'⟩).2 with
          | success value events =>
              obtain ⟨value', events', again⟩ := step_f_congr same' second
              rw [first] at again
              cases again
          | failure message' => rw [step_refused first, step_refused second]

theorem runs_converge_sample :
    (∀ id, (LookupMap.get (sample.run
        [reportAt 100 [⟨42, 7, 100⟩, ⟨43, 1, 50⟩, ⟨42, 8, 101⟩]]).feeds id).map
          (fun feed => (feed.price, feed.aggTs)) =
      (LookupMap.get (sample.run [reportAt 60 [⟨43, 1, 50⟩], reportAt 90 [⟨42, 7, 100⟩],
        reportAt 99 [⟨42, 8, 101⟩]]).feeds id).map (fun feed => (feed.price, feed.aggTs))) ∧
    ∀ id, LookupMap.get (sample.step (reportAt 100 [⟨42, 7, 100⟩, ⟨43, 1, 50⟩])).1.feeds id =
      LookupMap.get (sample.step (reportAt 100 [⟨43, 1, 50⟩, ⟨42, 7, 100⟩])).1.feeds id := by
  have reachable : Reachable sample := ⟨sample, sampleLog, [], sample_deployed, rfl⟩
  obtain ⟨converge, within⟩ := runs_converge reachable
  constructor
  · exact converge [reportAt 100 [⟨42, 7, 100⟩, ⟨43, 1, 50⟩, ⟨42, 8, 101⟩]]
      [reportAt 60 [⟨43, 1, 50⟩], reportAt 90 [⟨42, 7, 100⟩], reportAt 99 [⟨42, 8, 101⟩]]
      (by decide +kernel)
  · refine (within (reportAt 100 []).ctx [⟨42, 7, 100⟩, ⟨43, 1, 50⟩]
      [⟨43, 1, 50⟩, ⟨42, 7, 100⟩] ?_).2.2
    intro id
    by_cases first : (42 : UInt32) = id
    · subst first
      rfl
    · simp only [KeyedLog.entriesOf, List.filter_cons, first, decide_false, Bool.false_eq_true,
        if_false]

end MultiFeed

end NearMultiFeed
