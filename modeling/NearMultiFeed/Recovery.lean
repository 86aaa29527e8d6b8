import NearMultiFeed.Timestamps

/-!
# Recovery from bad reporters

A bad reporter can put any price into a feed, and a timestamp up to 59 seconds ahead
that no honest report passes at once; nothing stops it from doing so again. This is
over once the owner has removed it: from then on all new values are honest, whatever
removed accounts call, and after a minute no honest report is refused.
-/
namespace NearMultiFeed

/-- What a member of `good` calls: reports no time past the block, and neither roles
nor ownership for others. -/
def Call.WellBehaved {AccountId : Type} (good : Set AccountId) (now : UInt64) :
    Call AccountId → Prop
  | .f us => ∀ u ∈ us, u.aggTs ≤ now
  | .setPriceReporters us => ∀ u ∈ us, u.status = true → u.account ∈ good
  | .transferOwnership newOwner => newOwner ∈ good
  | _ => True

/-- Members of `good` behave; other accounts may call what they like. -/
def Transaction.Behaved {AccountId : Type} (tx : Transaction AccountId) (good : Set AccountId) :
    Prop :=
  ∀ a ∈ good, tx.ctx.predecessor = some a →
    tx.call.WellBehaved good (MultiFeed.blockSecond tx.ctx)

namespace MultiFeed

/-- The call was an accepted report by a member of `good` of this value for the feed,
at a time not past the block. -/
def Vouches {AccountId : Type} (good : Set AccountId) (r : Receipt AccountId) (id : UInt32)
    (feed : StoredFeed) : Prop :=
  ∃ a ∈ good, r.1.ctx.predecessor = some a ∧ ∃ u ∈ feedEntries r.2.events, u.feedId = id ∧
    u.aggTs ≤ blockSecond r.1.ctx ∧ (u.write (blockSecond r.1.ctx)).feed.persisted = feed

variable {Feeds Roles Callers AccountId : Type} [DecidableEq AccountId]
  [LookupMap Feeds UInt32 StoredFeed] [LookupSet Roles AccountId]
  [IterableSet Callers AccountId]

/-- Owner and reporters are in `good`, and a feed is as it was in `s` or holds what one
of the calls since then vouches for. -/
structure InGoodHands (good : Set AccountId) (s : MultiFeed Feeds Roles Callers AccountId)
    (past : List (Receipt AccountId)) (t : MultiFeed Feeds Roles Callers AccountId) : Prop where
  wellFormed : WellFormed t
  owner : t.owner ∈ good
  reporters : ∀ a, t.isPriceReporter a = true → a ∈ good
  feeds : ∀ id, LookupMap.get t.feeds id = LookupMap.get s.feeds id ∨
    ∃ r ∈ past, ∃ feed, Vouches good r id feed ∧ LookupMap.get t.feeds id = some feed

section Steps
variable {good : Set AccountId} {s t next : MultiFeed Feeds Roles Callers AccountId}
  {past : List (Receipt AccountId)} {tx : Transaction AccountId} {value : Value AccountId}
  {log : List (ContractEvent AccountId)}

omit [LookupMap Feeds UInt32 StoredFeed] [IterableSet Callers AccountId] in
/-- Reporters after a batch were reporters or are appointed by it. -/
theorem appointed_or_reporter {us : List (RoleUpdate AccountId)} {a : AccountId}
    (has : LookupSet.contains (setMembers t.priceReporters us) a = true) :
    t.isPriceReporter a = true ∨ ∃ u ∈ us, u.status = true ∧ u.account = a := by
  rw [contains_setMembers, membership, KeyedLog.current] at has
  cases last : KeyedLog.latest RoleUpdate.account a us with
  | none =>
      rw [last] at has
      exact .inl has
  | some u =>
      rw [last] at has
      obtain ⟨listed, same⟩ := KeyedLog.latest_mem RoleUpdate.account last
      exact .inr ⟨u, listed, has, same⟩

theorem Effect.ownerIn (effect : Effect t tx.ctx tx.call next log) (owner : t.owner ∈ good)
    (behaved : tx.Behaved good) : next.owner ∈ good := by
  obtain ⟨ctx, call⟩ := tx
  cases effect with
  | transferOwnership called => exact behaved t.owner owner called
  | @setRole r us => cases r <;> exact owner
  | _ => exact owner

theorem Effect.reportersIn (effect : Effect t tx.ctx tx.call next log) (owner : t.owner ∈ good)
    (reporters : ∀ a, t.isPriceReporter a = true → a ∈ good) (behaved : tx.Behaved good)
    (a : AccountId) (has : next.isPriceReporter a = true) : a ∈ good := by
  obtain ⟨ctx, call⟩ := tx
  cases effect with
  | @setRole r us called =>
      have allowed := behaved t.owner owner called
      cases r with
      | admin | product => exact reporters a has
      | priceReporter =>
          rcases appointed_or_reporter has with before | ⟨u, hu, granted, rfl⟩
          · exact reporters a before
          · exact allowed u hu granted
  | _ => exact reporters a has

/-- A feed is left, or a member of `good` vouches for what it holds. -/
theorem Effect.feedsIn (effect : Effect t tx.ctx tx.call next log)
    (settled : LookupMap.flush t.feeds = t.feeds)
    (reporters : ∀ a, t.isPriceReporter a = true → a ∈ good) (behaved : tx.Behaved good)
    (id : UInt32) : LookupMap.get next.feeds id = LookupMap.get t.feeds id ∨
      ∃ feed, Vouches good (tx, .success value log) id feed ∧
        LookupMap.get next.feeds id = some feed := by
  obtain ⟨ctx, call⟩ := tx
  have same {feeds : Feeds} (h : feeds = t.feeds) :
      LookupMap.get feeds id = LookupMap.get t.feeds id := by rw [h]
  cases effect with
  | read => exact .inl rfl
  | @f caller us called reporter =>
      have member := reporters caller reporter
      have near := behaved caller member called
      change LookupMap.get (LookupMap.flush (insertAll _ _)) id = _ ∨ ∃ feed, _ ∧
        LookupMap.get (LookupMap.flush (insertAll _ _)) id = some feed
      rw [get_flush_insertAll, latest_writes, settled]
      cases last : KeyedLog.latest FeedUpdate.feedId id us with
      | none => exact .inl rfl
      | some u =>
          obtain ⟨listed, own⟩ := KeyedLog.latest_mem FeedUpdate.feedId last
          have entry : u ∈ feedEntries ([.f (us.map (·.feedId)) (us.map (·.price)) (us.map (·.aggTs))] :
              List (ContractEvent AccountId)) := by
            rw [feedEntries, List.flatMap_singleton, entries_f]
            exact listed
          exact .inr ⟨_, ⟨caller, member, called, u, entry, own, near u listed, rfl⟩, rfl⟩
  | @setRole r us => cases r <;> exact .inl (same settled)
  | _ => exact .inl (same settled)

theorem InGoodHands.step (h : InGoodHands good s past t) (behaved : tx.Behaved good) :
    InGoodHands good s (past ++ [(tx, (t.step tx).2)]) (t.step tx).1 := by
  have settled := h.wellFormed.step tx
  have before {last : Receipt AccountId} (id : UInt32) :
      LookupMap.get t.feeds id = LookupMap.get s.feeds id ∨ ∃ r ∈ past ++ [last],
        ∃ feed, Vouches good r id feed ∧ LookupMap.get t.feeds id = some feed := by
    apply (h.feeds id).imp_right
    intro vouched
    obtain ⟨r, earlier, rest⟩ := vouched
    exact ⟨r, List.mem_append_left _ earlier, rest⟩
  rcases t.step_cases tx with ⟨next, value, log, result, effect⟩ | ⟨panic, -, result⟩
  · rw [result] at settled ⊢
    refine ⟨settled, effect.ownerIn h.owner behaved,
      effect.reportersIn h.owner h.reporters behaved, ?_⟩
    intro id
    rcases effect.feedsIn h.wellFormed.flushed h.reporters behaved id with same | vouched
    · rw [same]
      exact before id
    · exact .inr ⟨_, List.mem_append_right _ (List.mem_singleton.mpr rfl), vouched⟩
  · rw [result]
    exact ⟨h.wellFormed, h.owner, h.reporters, before⟩

theorem InGoodHands.run (wf : WellFormed s) (owner : s.owner ∈ good)
    (reporters : ∀ a, s.isPriceReporter a = true → a ∈ good)
    {txs : List (Transaction AccountId)} (behaved : ∀ tx ∈ txs, tx.Behaved good) :
    InGoodHands good s (s.receipts txs) (s.run txs) := by
  induction txs using List.reverseRecOn with
  | nil => exact ⟨wf, owner, reporters, fun _ => .inl rfl⟩
  | append_singleton txs tx ih =>
      have before := ih fun tx' earlier => behaved tx' (List.mem_append_left _ earlier)
      have last := behaved tx (List.mem_append_right _ (List.mem_singleton.mpr rfl))
      rw [MultiFeed.run, MultiFeed.receipts, Machine.run_append, Machine.trace_append]
      exact before.step last

omit [DecidableEq AccountId] [IterableSet Callers AccountId] in
/-- A later second passes what the feeds hold. -/
theorem InGoodHands.passes (h : InGoodHands good s past t) {earlier : List (Receipt AccountId)}
    (history : FeedHistory s earlier) {now : UInt64} (positive : 1 ≤ now.toNat)
    (after : ∀ r ∈ past, blockSecond r.1.ctx < now) {id : UInt32}
    (late : ∀ feed, LookupMap.get s.feeds id = some feed →
      feed.onchainTs.toNat + 60 ≤ now.toNat) :
    prevVersion t.feeds id < now.toNat := by
  rcases h.feeds id with same | ⟨r, hr, feed, vouched, held⟩
  · have before := history.prevVersion_lt positive late
    rw [prevVersion, prevAggTs] at before ⊢
    rw [same]
    exact before
  · obtain ⟨-, -, -, u, -, -, near, kept⟩ := vouched
    have early := blockSecond_lt r.1.ctx
    have upTo := UInt64.le_iff_toNat_le.mp near
    have past := UInt64.lt_iff_toNat_lt.mp (after r hr)
    have exact_time : (u.write (blockSecond r.1.ctx)).feed.persisted.aggTs = u.aggTs :=
      StoredFeed.persisted_aggTs_eq (by change u.aggTs.toNat < 2 ^ 48; omega)
    rw [prevVersion, prevAggTs, held, ← kept]
    change (u.write (blockSecond r.1.ctx)).feed.persisted.aggTs.toNat < now.toNat
    rw [exact_time]
    omega

end Steps

/-- Once the owner and all reporters are good, they stay so; a feed keeps what it held
until a good reporter vouches for another value; and from a minute past the last bad
report on, a report of the current second by a good reporter goes through, whatever
the other accounts call. -/
theorem good_reporters_prevail {s : MultiFeed Feeds Roles Callers AccountId}
    (reachable : Reachable s) {good : Set AccountId} (owner : s.owner ∈ good)
    (reporters : ∀ a, s.isPriceReporter a = true → a ∈ good)
    {txs : List (Transaction AccountId)} (behaved : ∀ tx ∈ txs, tx.Behaved good) :
    let t := s.run txs
    t.owner ∈ good ∧ (∀ a, t.isPriceReporter a = true → a ∈ good) ∧
    (∀ id, LookupMap.get t.feeds id = LookupMap.get s.feeds id ∨
      ∃ r ∈ s.receipts txs, ∃ feed, Vouches good r id feed ∧
        LookupMap.get t.feeds id = some feed) ∧
    ∀ (ctx : VMContext AccountId) (caller : AccountId) (us : List FeedUpdate),
      ctx.predecessor = some caller → t.isPriceReporter caller = true → ctx.deposit = 0 →
      us ≠ [] → (us.map (·.feedId)).Nodup → (∀ u ∈ us, u.aggTs = blockSecond ctx) →
      1 ≤ (blockSecond ctx).toNat →
      (∀ u ∈ us, ∀ feed, LookupMap.get s.feeds u.feedId = some feed →
        feed.onchainTs.toNat + 60 ≤ (blockSecond ctx).toNat) →
      (∀ tx ∈ txs, blockSecond tx.ctx < blockSecond ctx) →
      ∃ events, (t.step ⟨ctx, .f us⟩).2 = .success .unit events := by
  intro t
  have hands : InGoodHands good s (s.receipts txs) t :=
    InGoodHands.run reachable.wellFormed owner reporters behaved
  obtain ⟨past, history⟩ := reachable.history
  refine ⟨hands.owner, hands.reporters, hands.feeds, ?_⟩
  intro ctx caller us called member free some_updates distinct current positive late after
  have earlier : ∀ r ∈ s.receipts txs, blockSecond r.1.ctx < blockSecond ctx := by
    intro r hr
    apply after r.1
    rw [← Machine.map_fst_trace MultiFeed.step s txs]
    exact List.mem_map_of_mem hr
  have accepted : Accepts t.feeds (blockSecond ctx) us := by
    apply (accepts_iff_of_nodup distinct).mpr
    intro u hu
    rw [FeedUpdate.version, current u hu]
    exact ⟨hands.passes history positive earlier (late u hu), by omega⟩
  exact ⟨_, step_f.mpr ⟨⟨caller, called, member⟩, free, some_updates, accepted, rfl, rfl⟩⟩

/-- The sample after a report from far ahead and the replacement of its reporter. -/
def sampleRecovered : StoredContract :=
  sample.run [reportAt 100 [⟨42, 7, 159⟩], ⟨⟨some "owner.near", 1, 101000000000⟩,
    .setPriceReporters [⟨"reporter.near", false⟩, ⟨"good.near", true⟩]⟩]

theorem sampleRecovered_reporters (a : String) (has : sampleRecovered.isPriceReporter a = true) :
    a = "good.near" := by
  change Function.update (Function.update (Function.update (fun _ => false) "reporter.near" true)
    "reporter.near" false) "good.near" true a = true at has
  by_contra other
  rw [Function.update_of_ne other, Function.update_idem] at has
  by_cases old : a = "reporter.near"
  · rw [old, Function.update_self] at has
    cases has
  · rw [Function.update_of_ne old] at has
    cases has

theorem good_reporters_prevail_sample :
    let txs := [reportAt 130 [⟨42, 9, 160⟩],
      ⟨⟨some "good.near", 0, 140000000000⟩, .f [⟨43, 5, 140⟩]⟩]
    ((sampleRecovered.run txs).owner = "owner.near" ∨
      (sampleRecovered.run txs).owner = "good.near") ∧
    ∃ events, ((sampleRecovered.run txs).step
      ⟨⟨some "good.near", 0, 160000000000⟩, .f [⟨42, 8, 160⟩, ⟨43, 6, 160⟩]⟩).2 =
        .success .unit events := by
  intro txs
  have reachable : Reachable sampleRecovered := ⟨sample, sampleLog, _, sample_deployed, rfl⟩
  have behaved : ∀ tx ∈ txs, tx.Behaved {"owner.near", "good.near"} := by
    intro tx htx a member called
    rcases List.mem_cons.mp htx with rfl | last
    · have caller : "reporter.near" = a := Option.some.inj called
      rcases member with rfl | rfl <;> exact absurd caller (by decide)
    · rw [List.mem_singleton.mp last]
      intro u hu
      rw [List.mem_singleton.mp hu]
      decide
  obtain ⟨owner, -, -, goes_through⟩ := good_reporters_prevail reachable
    (Set.mem_insert "owner.near" {"good.near"})
    (fun a has => Set.mem_insert_of_mem _ (sampleRecovered_reporters a has)) behaved
  refine ⟨owner, ?_⟩
  apply goes_through ⟨some "good.near", 0, 160000000000⟩ "good.near" [⟨42, 8, 160⟩, ⟨43, 6, 160⟩]
    rfl rfl rfl (by decide) (by decide) (by decide) (by decide)
  · decide
  · decide

end MultiFeed

end NearMultiFeed
