import NearMultiFeed.Deployment

/-!
# Batches of reports

What `f` accepts, position by position, what it leaves and how it fails; and why
a batch may be cut in two without any reader noticing.
-/
namespace NearMultiFeed

section Positions
variable {Feeds : Type} [LookupMap Feeds UInt32 StoredFeed]

/-- The timestamp an entry of a feed is compared with after the earlier entries
of its batch: the last of theirs for that feed, else the stored one, else 0. -/
def prevIn (feeds : Feeds) (earlier : List FeedUpdate) : UInt32 → UInt64 :=
  KeyedLog.current FeedUpdate.feedId FeedUpdate.aggTs (prevAggTs feeds) earlier

/-- The entry at a position is newer than what precedes it and not too far ahead. -/
def InBounds (feeds : Feeds) (now : UInt64) (us : List FeedUpdate) (i : Fin us.length) : Prop :=
  prevIn feeds (us.take i) (us.get i).feedId < (us.get i).aggTs ∧
    (us.get i).aggTs.toNat < now.toNat + 60

instance (feeds : Feeds) (now : UInt64) (us : List FeedUpdate) (i : Fin us.length) :
    Decidable (InBounds feeds now us i) :=
  inferInstanceAs (Decidable (_ ∧ _))

/-- The loop reads back what the earlier entries wrote. -/
theorem prevAggTs_insertAll (feeds : Feeds) (now : UInt64) (us : List FeedUpdate) :
    prevAggTs (insertAll feeds (us.map (FeedUpdate.write now))) = prevIn feeds us := by
  funext id
  rw [prevAggTs, get_insertAll, latest_writes, prevIn, KeyedLog.current]
  cases KeyedLog.latest FeedUpdate.feedId id us <;> rfl

theorem current_version (feeds : Feeds) (us : List FeedUpdate) (id : UInt32) :
    KeyedLog.current FeedUpdate.feedId FeedUpdate.version (prevVersion feeds) us id =
      (prevIn feeds us id).toNat := by
  rw [prevIn, KeyedLog.current, KeyedLog.current]
  cases KeyedLog.latest FeedUpdate.feedId id us <;> rfl

/-- Acceptance, position by position. -/
theorem accepts_iff (feeds : Feeds) (now : UInt64) (us : List FeedUpdate) :
    Accepts feeds now us ↔ ∀ i, InBounds feeds now us i := by
  constructor
  · rintro ⟨ascending, drift⟩ i
    have newer := (KeyedLog.chained_iff_get _ _ _ _ us).mp ascending i
    rw [current_version] at newer
    exact ⟨UInt64.lt_iff_toNat_lt.mpr newer, drift _ (List.get_mem us i)⟩
  · intro bounds
    constructor
    · apply (KeyedLog.chained_iff_get _ _ _ _ us).mpr
      intro i
      rw [current_version]
      exact UInt64.lt_iff_toNat_lt.mp (bounds i).1
    · intro u hu
      obtain ⟨i, rfl⟩ := List.get_of_mem hu
      exact (bounds i).2

/-- The entries before a position make a batch that is accepted if they are. -/
theorem accepts_take {feeds : Feeds} {now : UInt64} {us : List FeedUpdate} {i : Fin us.length}
    (bounds : ∀ j < i, InBounds feeds now us j) : Accepts feeds now (us.take i) := by
  apply (accepts_iff feeds now _).mpr
  intro j
  have below : j.val < i := j.isLt.trans_le (List.length_take_le _ _)
  have here := bounds ⟨j, below.trans i.isLt⟩ below
  have entry : (us.take i).get j = us.get ⟨j, below.trans i.isLt⟩ := by
    rw [List.get_eq_getElem, List.get_eq_getElem, List.getElem_take]
  rw [InBounds, entry, List.take_take, Nat.min_eq_left below.le]
  exact here

/-- The loop fails at the first entry out of bounds. -/
theorem foldlM_fEntry_eq_error {now : UInt64} (h : now.toNat + 60 < 2 ^ 64) {feeds : Feeds}
    {us : List FeedUpdate} {i : Fin us.length} (bounds : ∀ j < i, InBounds feeds now us j)
    (out : ¬ InBounds feeds now us i) :
    us.foldlM (MultiFeed.fEntry now) ⟨feeds, [], [], []⟩ =
      .error (.timestampOutOfBounds (us.get i).feedId
        (prevIn feeds (us.take i) (us.get i).feedId) now) := by
  let start : FeedBatch Feeds := ⟨feeds, [], [], []⟩
  have before : (us.take i).foldlM (MultiFeed.fEntry now) start =
      .ok (start.pushAll now (us.take i)) :=
    (foldlM_fEntry_eq_ok h _ _ _).mpr ⟨accepts_take bounds, rfl⟩
  have compared : prevAggTs (start.pushAll now (us.take i)).feeds = prevIn feeds (us.take i) :=
    prevAggTs_insertAll feeds now (us.take i)
  apply Abort.foldlM_eq_error before
  rw [fEntry_eq h, if_neg, compared]
  rintro ⟨newer, near⟩
  rw [prevVersion, compared] at newer
  exact out ⟨UInt64.lt_iff_toNat_lt.mpr newer, near⟩

end Positions

namespace MultiFeed

/-! ## How a report fails -/

section Failures
variable {Feeds Roles Callers AccountId : Type} [LookupMap Feeds UInt32 StoredFeed]
  [LookupSet Roles AccountId] {s : MultiFeed Feeds Roles Callers AccountId}
  {ctx : VMContext AccountId} {caller : AccountId} {us : List FeedUpdate}

theorem f_of_stranger (called : ctx.predecessor = some caller)
    (stranger : LookupSet.contains s.priceReporters caller = false) :
    s.f ctx us = .error .onlyPriceReporter := by
  rw [f, predecessorAccountId_eq_ok.mpr called, Abort.ok_bind, stranger]
  rfl

theorem f_of_empty (called : ctx.predecessor = some caller)
    (member : LookupSet.contains s.priceReporters caller = true) :
    s.f ctx [] = .error .emptyFeedData := by
  rw [f, predecessorAccountId_eq_ok.mpr called, Abort.ok_bind, member]
  rfl

theorem f_of_out_of_bounds (called : ctx.predecessor = some caller)
    (member : LookupSet.contains s.priceReporters caller = true) {i : Fin us.length}
    (bounds : ∀ j < i, InBounds s.feeds (blockSecond ctx) us j)
    (out : ¬ InBounds s.feeds (blockSecond ctx) us i) :
    s.f ctx us = .error (.timestampOutOfBounds (us.get i).feedId
      (prevIn s.feeds (us.take i) (us.get i).feedId) (blockSecond ctx)) := by
  have fits : (blockSecond ctx).toNat + 60 < 2 ^ 64 := by
    have := blockSecond_lt ctx
    omega
  have some_updates : us.isEmpty = false := by
    apply List.isEmpty_eq_false_iff.mpr
    exact List.ne_nil_of_length_pos i.pos
  rw [f, predecessorAccountId_eq_ok.mpr called, Abort.ok_bind, member, some_updates]
  have loop := foldlM_fEntry_eq_error fits bounds out
  simp only [require, if_true, Abort.ok_bind, Bool.false_eq_true, if_false, Abort.pure_eq_ok, loop,
    Abort.error_bind]

end Failures

variable {Feeds Roles Callers AccountId : Type} [DecidableEq AccountId]
  [LookupMap Feeds UInt32 StoredFeed] [LookupSet Roles AccountId]
  [IterableSet Callers AccountId]

/-- A report that panics leaves the state and emits nothing. -/
theorem step_f_error {s : MultiFeed Feeds Roles Callers AccountId} {ctx : VMContext AccountId}
    {us : List FeedUpdate} {panic : Panic} (free : ctx.deposit = 0)
    (failed : s.f ctx us = .error panic) :
    s.step ⟨ctx, .f us⟩ = (s, .failure panic.message) := by
  have guard : denyDeposit ctx "f" = .ok () := denyDeposit_eq_ok.mpr fun _ => free
  rw [step, dispatch, guard, Abort.ok_bind, failed]
  rfl

/-- What a feed holds after a batch, given how a written value is kept. -/
theorem get_batch {s : MultiFeed Feeds Roles Callers AccountId} (h : Reachable s)
    (now : UInt64) (us : List FeedUpdate) (id : UInt32) :
    LookupMap.get (LookupMap.flush (insertAll s.feeds (us.map (FeedUpdate.write now)))) id =
      ((KeyedLog.latest FeedUpdate.feedId id us).map fun u => (u.write now).feed.persisted).or
        (LookupMap.get s.feeds id) := by
  rw [get_flush_insertAll, h.wellFormed.flushed, latest_writes, Option.map_map]
  rfl

/-- When a report goes through, what it leaves, in the call and in storage, and
which panic ends it otherwise. -/
theorem f_exact {s : MultiFeed Feeds Roles Callers AccountId} (h : Reachable s)
    {ctx : VMContext AccountId} {caller : AccountId} (called : ctx.predecessor = some caller)
    (free : ctx.deposit = 0) (us : List FeedUpdate) :
    (blockSecond ctx).toNat = ctx.blockTimestamp.toNat / 10 ^ 9 ∧
    ((∃ value events, (s.step ⟨ctx, .f us⟩).2 = .success value events) ↔
      s.isPriceReporter caller = true ∧ us ≠ [] ∧
        ∀ i, InBounds s.feeds (blockSecond ctx) us i) ∧
    (∀ value events, (s.step ⟨ctx, .f us⟩).2 = .success value events →
      value = .unit ∧
      events = [.f (us.map (·.feedId)) (us.map (·.price)) (us.map (·.aggTs))] ∧
      ∃ next, s.f ctx us = .ok (next, events) ∧ next = { s with feeds := next.feeds } ∧
        (∀ id, LookupMap.get next.feeds id =
          ((KeyedLog.latest FeedUpdate.feedId id us).map fun u =>
            ⟨u.price, u.aggTs, blockSecond ctx⟩).or (LookupMap.get s.feeds id)) ∧
        (s.step ⟨ctx, .f us⟩).1 = next.persist ∧
        (∀ id, LookupMap.get next.persist.feeds id =
          ((KeyedLog.latest FeedUpdate.feedId id us).map fun u =>
            StoredFeed.persisted ⟨u.price, u.aggTs, blockSecond ctx⟩).or
              (LookupMap.get s.feeds id))) ∧
    (s.isPriceReporter caller = false →
      s.step ⟨ctx, .f us⟩ = (s, .failure Panic.onlyPriceReporter.message)) ∧
    (s.isPriceReporter caller = true → us = [] →
      s.step ⟨ctx, .f us⟩ = (s, .failure Panic.emptyFeedData.message)) ∧
    (s.isPriceReporter caller = true → ∀ i : Fin us.length,
      (∀ j < i, InBounds s.feeds (blockSecond ctx) us j) →
      ¬ InBounds s.feeds (blockSecond ctx) us i →
      s.step ⟨ctx, .f us⟩ = (s, .failure (Panic.timestampOutOfBounds (us.get i).feedId
        (prevIn s.feeds (us.take i) (us.get i).feedId) (blockSecond ctx)).message)) := by
  refine ⟨blockSecond_toNat ctx, ?_, ?_, ?_, ?_, ?_⟩
  · constructor
    · rintro ⟨value, events, accepted⟩
      obtain ⟨⟨caller', called', member⟩, -, some_updates, good, -, -⟩ := step_f.mp accepted
      rw [called, Option.some.injEq] at called'
      subst called'
      exact ⟨member, some_updates, (accepts_iff _ _ us).mp good⟩
    · rintro ⟨member, some_updates, bounds⟩
      have good := (accepts_iff s.feeds (blockSecond ctx) us).mpr bounds
      exact ⟨_, _, step_f.mpr ⟨⟨caller, called, member⟩, free, some_updates, good, rfl, rfl⟩⟩
  · intro value events accepted
    obtain ⟨reporter, -, some_updates, good, unit, reported⟩ := step_f.mp accepted
    refine ⟨unit, reported, _, f_eq_ok.mpr ⟨reporter, some_updates, good, rfl, reported⟩, rfl,
      ?_, step_f_next accepted, get_batch h (blockSecond ctx) us⟩
    intro id
    rw [get_insertAll, latest_writes, Option.map_map]
    rfl
  · intro stranger
    exact step_f_error free (f_of_stranger called stranger)
  · rintro member rfl
    exact step_f_error free (f_of_empty called member)
  · intro member i bounds out
    exact step_f_error free (f_of_out_of_bounds called member bounds out)

theorem f_exact_sample :
    let s := sample.run [reportAt 100 [⟨42, 7, 100⟩]]
    (∃ value events, (s.step (reportAt 110 [⟨42, 8, 101⟩, ⟨43, 1, 5⟩, ⟨42, 9, 102⟩])).2 =
      .success value events) ∧
    s.step (reportAt 110 [⟨42, 8, 101⟩, ⟨42, 9, 101⟩]) = (s, .failure
      "Report timestamp out of bounds: feed_id=42, prev_agg_ts=101, now=110") := by
  intro s
  have reachable : Reachable s := ⟨sample, sampleLog, _, sample_deployed, rfl⟩
  have called : (reportAt 110 []).ctx.predecessor = some "reporter.near" := rfl
  constructor
  · obtain ⟨-, exactly, -⟩ := f_exact reachable called rfl
      [⟨42, 8, 101⟩, ⟨43, 1, 5⟩, ⟨42, 9, 102⟩]
    exact exactly.mpr ⟨rfl, List.cons_ne_nil _ _, by decide +kernel⟩
  · obtain ⟨-, -, -, -, -, first⟩ := f_exact reachable called rfl
      [⟨42, 8, 101⟩, ⟨42, 9, 101⟩]
    have failed := first rfl 1 (by decide +kernel) (by decide +kernel)
    refine failed.trans (congrArg (fun message => (s, Outcome.failure message)) ?_)
    decide +kernel

/-! ## Cutting a batch -/

/-- The next call compares with the timestamps the first part of a batch wrote. -/
theorem prevVersion_batch {s : MultiFeed Feeds Roles Callers AccountId} (h : Reachable s)
    {now : UInt64} (early : now.toNat < 2 ^ 35) {us : List FeedUpdate}
    (accepted : Accepts s.feeds now us) :
    prevVersion (LookupMap.flush (insertAll s.feeds (us.map (FeedUpdate.write now)))) =
      KeyedLog.current FeedUpdate.feedId FeedUpdate.version (prevVersion s.feeds) us := by
  funext id
  rw [prevVersion, prevAggTs, get_batch h, KeyedLog.current]
  cases last : KeyedLog.latest FeedUpdate.feedId id us with
  | none => rfl
  | some u =>
      have near := accepted.drift u (KeyedLog.latest_mem _ last).1
      have kept : (u.write now).feed.persisted.aggTs = u.aggTs := by
        apply StoredFeed.persisted_aggTs_eq
        change u.aggTs.toNat < 2 ^ 48
        omega
      simp only [Option.map_some, Option.some_or, Option.getD_some, kept]
      rfl

/-- The second part is accepted in the batch exactly if it is accepted on its own. -/
theorem accepts_append {s : MultiFeed Feeds Roles Callers AccountId} (h : Reachable s)
    {now : UInt64} (early : now.toNat < 2 ^ 35) (us vs : List FeedUpdate) :
    Accepts s.feeds now (us ++ vs) ↔ Accepts s.feeds now us ∧
      Accepts (LookupMap.flush (insertAll s.feeds (us.map (FeedUpdate.write now)))) now vs := by
  constructor
  · rintro ⟨ascending, drift⟩
    have parts := (KeyedLog.chained_append _ _ _ _ us vs).mp ascending
    have first : Accepts s.feeds now us :=
      ⟨parts.1, fun u hu => drift u (List.mem_append_left vs hu)⟩
    refine ⟨first, ?_, fun v hv => drift v (List.mem_append_right us hv)⟩
    rw [prevVersion_batch h early first]
    exact parts.2
  · rintro ⟨first, second⟩
    have later := second.ascending
    rw [prevVersion_batch h early first] at later
    refine ⟨(KeyedLog.chained_append _ _ _ _ us vs).mpr ⟨first.ascending, later⟩, ?_⟩
    intro u hu
    rcases List.mem_append.mp hu with hu | hv
    · exact first.drift u hu
    · exact second.drift u hv

/-- One report or two at the same block timestamp: they go through alike, leave
the same feeds, and the arrays of the one event are those of the two, joined. -/
theorem f_append {s : MultiFeed Feeds Roles Callers AccountId} (h : Reachable s)
    (ctx : VMContext AccountId) {us vs : List FeedUpdate} (some_us : us ≠ []) (some_vs : vs ≠ []) :
    ((∃ value events, (s.step ⟨ctx, .f (us ++ vs)⟩).2 = .success value events) ↔
      (∃ value events, (s.step ⟨ctx, .f us⟩).2 = .success value events) ∧
      ∃ value events, ((s.step ⟨ctx, .f us⟩).1.step ⟨ctx, .f vs⟩).2 = .success value events) ∧
    (∀ value events, (s.step ⟨ctx, .f (us ++ vs)⟩).2 = .success value events →
      (∀ id, LookupMap.get (s.step ⟨ctx, .f (us ++ vs)⟩).1.feeds id =
        LookupMap.get ((s.step ⟨ctx, .f us⟩).1.step ⟨ctx, .f vs⟩).1.feeds id) ∧
      ∃ ids prices stamps ids' prices' stamps',
        (s.step ⟨ctx, .f us⟩).2 = .success .unit [.f ids prices stamps] ∧
        ((s.step ⟨ctx, .f us⟩).1.step ⟨ctx, .f vs⟩).2 =
          .success .unit [.f ids' prices' stamps'] ∧
        events = [.f (ids ++ ids') (prices ++ prices') (stamps ++ stamps')]) := by
  have early := blockSecond_lt ctx
  have joined : us ++ vs ≠ [] := List.append_ne_nil_of_left_ne_nil some_us vs
  have cut {value : Value AccountId} {events : List (ContractEvent AccountId)}
      (accepted : (s.step ⟨ctx, .f (us ++ vs)⟩).2 = .success value events) :
      (s.step ⟨ctx, .f us⟩).2 = .success .unit
        [.f (us.map (·.feedId)) (us.map (·.price)) (us.map (·.aggTs))] ∧
      ((s.step ⟨ctx, .f us⟩).1.step ⟨ctx, .f vs⟩).2 = .success .unit
        [.f (vs.map (·.feedId)) (vs.map (·.price)) (vs.map (·.aggTs))] := by
    obtain ⟨reporter, free, -, good, -, -⟩ := step_f.mp accepted
    obtain ⟨first, second⟩ := (accepts_append h early us vs).mp good
    have one := step_f.mpr ⟨reporter, free, some_us, first, rfl, rfl⟩
    refine ⟨one, ?_⟩
    rw [step_f_next one]
    exact step_f.mpr ⟨reporter, free, some_vs, second, rfl, rfl⟩
  constructor
  · constructor
    · rintro ⟨value, events, accepted⟩
      exact ⟨⟨_, _, (cut accepted).1⟩, _, _, (cut accepted).2⟩
    · rintro ⟨⟨value, events, one⟩, value', events', two⟩
      obtain ⟨reporter, free, -, first, -, -⟩ := step_f.mp one
      rw [step_f_next one] at two
      obtain ⟨-, -, -, second, -, -⟩ := step_f.mp two
      have good := (accepts_append h early us vs).mpr ⟨first, second⟩
      exact ⟨_, _, step_f.mpr ⟨reporter, free, joined, good, rfl, rfl⟩⟩
  · intro value events accepted
    obtain ⟨one, two⟩ := cut accepted
    have reached : Reachable (s.step ⟨ctx, .f us⟩).1 := h.run [⟨ctx, .f us⟩]
    refine ⟨?_, _, _, _, _, _, _, one, two, ?_⟩
    · intro id
      rw [step_f_next accepted, step_f_next two]
      simp only [get_batch h, get_batch reached, KeyedLog.latest_append, Option.map_or,
        Option.or_assoc]
      rw [step_f_next one]
      simp only [get_batch h]
    · obtain ⟨-, -, -, -, -, reported⟩ := step_f.mp accepted
      rw [reported, List.map_append, List.map_append, List.map_append]

theorem f_append_sample :
    let s := sample.run [reportAt 100 [⟨42, 7, 100⟩]]
    let us : List FeedUpdate := [⟨42, 8, 101⟩, ⟨43, 1208925819614629174706177, 5⟩]
    let vs : List FeedUpdate := [⟨42, 9, 102⟩]
    LookupMap.get (s.step (reportAt 110 (us ++ vs))).1.feeds 42 =
      LookupMap.get ((s.step (reportAt 110 us)).1.step (reportAt 110 vs)).1.feeds 42 := by
  intro s us vs
  have reachable : Reachable s := ⟨sample, sampleLog, _, sample_deployed, rfl⟩
  have accepted : (s.step (reportAt 110 (us ++ vs))).2 = .success .unit
      [.f [42, 43, 42] [8, 1208925819614629174706177, 9] [101, 5, 102]] := by decide +kernel
  have some_us : us ≠ [] := List.cons_ne_nil _ _
  have some_vs : vs ≠ [] := List.cons_ne_nil _ _
  obtain ⟨-, same⟩ := f_append reachable (reportAt 110 []).ctx some_us some_vs
  exact (same _ _ accepted).1 42

end MultiFeed

end NearMultiFeed
