import NearMultiFeed.FeedHistory

/-!
# What readers see

A successful read returns the feed as it is stored. Over a run this ties the
answer to the event log, and two answers to each other.
-/
namespace NearMultiFeed

namespace MultiFeed

section Methods
variable {Feeds Roles Callers AccountId : Type} [LookupMap Feeds UInt32 StoredFeed]
  [LookupSet Roles AccountId] [IterableSet Callers AccountId]
  {s : MultiFeed Feeds Roles Callers AccountId} {ctx : VMContext AccountId}

/-- What a reader is shown of a feed id. -/
def shown (s : MultiFeed Feeds Roles Callers AccountId) (id : UInt32) : Option FeedData :=
  (LookupMap.get s.feeds id).map FeedData.from

omit [LookupSet Roles AccountId] in
theorem fetch_eq_ok {feedId : String} {data : Option FeedData} :
    s.fetch ctx feedId = .ok data ↔ s.onlyReadAccess ctx = .ok () ∧
      ∃ id, parseFeedId feedId = .ok id ∧ data = s.shown id := by
  simp only [fetch, Abort.bind_eq_ok, Abort.pure_eq_ok, Except.ok.injEq]
  constructor
  · intro h
    obtain ⟨_, gate, id, parsed, same⟩ := h
    exact ⟨gate, id, parsed, same.symm⟩
  · intro h
    obtain ⟨gate, id, parsed, same⟩ := h
    exact ⟨(), gate, id, parsed, same.symm⟩

omit [LookupSet Roles AccountId] in
theorem fetchBatch_eq_ok {feedIds : List String} {data : List (Option FeedData)} :
    s.fetchBatch ctx feedIds = .ok data ↔ s.onlyReadAccess ctx = .ok () ∧
      List.Forall₂ (fun feedId d => ∃ id, parseFeedId feedId = .ok id ∧ d = s.shown id)
        feedIds data := by
  have entry (feedId : String) (d : Option FeedData) :
      (do
        let id ← parseFeedId feedId
        return (LookupMap.get s.feeds id).map FeedData.from : Except Panic _) = .ok d ↔
        ∃ id, parseFeedId feedId = .ok id ∧ d = s.shown id := by
    simp only [Abort.bind_eq_ok, Abort.pure_eq_ok, Except.ok.injEq, @eq_comm _ _ d]
    rfl
  simp only [fetchBatch, Abort.bind_eq_ok, Abort.mapM_eq_ok, entry]
  constructor
  · intro h
    obtain ⟨_, gate, rest⟩ := h
    exact ⟨gate, rest⟩
  · intro h
    exact ⟨(), h⟩

omit [LookupSet Roles AccountId] in
/-- Past the gate a batch is one `fetch` after the other. -/
theorem fetchBatch_of_admitted (admitted : s.onlyReadAccess ctx = .ok ()) (feedIds : List String) :
    s.fetchBatch ctx feedIds = feedIds.mapM (s.fetch ctx) := by
  have each : s.fetch ctx = fun feedId => (do
      let id ← parseFeedId feedId
      return (LookupMap.get s.feeds id).map FeedData.from) := by
    funext feedId
    rw [fetch, admitted, Abort.ok_bind]
  rw [fetchBatch, admitted, Abort.ok_bind, each]

omit [LookupSet Roles AccountId] in
theorem fetch_of_refused {panic : Panic} (refused : s.onlyReadAccess ctx = .error panic)
    (feedId : String) : s.fetch ctx feedId = .error panic := by
  rw [fetch, refused, Abort.error_bind]

omit [LookupSet Roles AccountId] in
theorem fetchBatch_of_refused {panic : Panic} (refused : s.onlyReadAccess ctx = .error panic)
    (feedIds : List String) : s.fetchBatch ctx feedIds = .error panic := by
  rw [fetchBatch, refused, Abort.error_bind]

omit [LookupSet Roles AccountId] in
/-- A batch fails as the first of its ids does. -/
theorem fetchBatch_eq_error {feedIds : List String} (some_ids : feedIds ≠ []) {panic : Panic} :
    s.fetchBatch ctx feedIds = .error panic ↔
      ∃ i : Fin feedIds.length, s.fetch ctx (feedIds.get i) = .error panic ∧
        ∀ j < i, ∃ data, s.fetch ctx (feedIds.get j) = .ok data := by
  cases gate : s.onlyReadAccess ctx with
  | ok _ => rw [fetchBatch_of_admitted gate, Abort.mapM_eq_error]
  | error refusal =>
      simp only [fetchBatch_of_refused gate, fetch_of_refused gate, Except.error.injEq,
        reduceCtorEq, exists_false]
      have room : 0 < feedIds.length := List.length_pos_iff.mpr some_ids
      constructor
      · intro same
        exact ⟨⟨0, room⟩, same, fun j hj => absurd hj (Nat.not_lt_zero j)⟩
      · rintro ⟨i, same, -⟩
        exact same

variable [DecidableEq AccountId]

theorem step_fetch {feedId : String} {value : Value AccountId}
    {events : List (ContractEvent AccountId)} :
    (s.step ⟨ctx, .fetch feedId⟩).2 = .success value events ↔
      ∃ data, s.fetch ctx feedId = .ok data ∧ value = .feed data ∧ events = [] := by
  simp only [step_success, dispatch, Abort.map_eq_ok, answer, Prod.mk.injEq]
  constructor
  · intro h
    obtain ⟨_, data, read, -, shape, quiet⟩ := h
    exact ⟨data, read, shape.symm, quiet.symm⟩
  · intro h
    obtain ⟨data, read, shape, quiet⟩ := h
    exact ⟨s, data, read, rfl, shape.symm, quiet.symm⟩

theorem step_fetchBatch {feedIds : List String} {value : Value AccountId}
    {events : List (ContractEvent AccountId)} :
    (s.step ⟨ctx, .fetchBatch feedIds⟩).2 = .success value events ↔
      ∃ data, s.fetchBatch ctx feedIds = .ok data ∧ value = .feeds data ∧ events = [] := by
  simp only [step_success, dispatch, Abort.map_eq_ok, answer, Prod.mk.injEq]
  constructor
  · intro h
    obtain ⟨_, data, read, -, shape, quiet⟩ := h
    exact ⟨data, read, shape.symm, quiet.symm⟩
  · intro h
    obtain ⟨data, read, shape, quiet⟩ := h
    exact ⟨s, data, read, rfl, shape.symm, quiet.symm⟩

theorem step_fetch_failure {feedId : String} {message : String} :
    (s.step ⟨ctx, .fetch feedId⟩).2 = .failure message ↔
      ∃ panic, s.fetch ctx feedId = .error panic ∧ panic.message = message := by
  simp only [step_failure, dispatch, Abort.map_eq_error]

theorem step_fetchBatch_failure {feedIds : List String} {message : String} :
    (s.step ⟨ctx, .fetchBatch feedIds⟩).2 = .failure message ↔
      ∃ panic, s.fetchBatch ctx feedIds = .error panic ∧ panic.message = message := by
  simp only [step_failure, dispatch, Abort.map_eq_error]

/-- A read changes nothing and emits nothing. -/
theorem step_of_reads {tx : Transaction AccountId} (h : tx.call.reads = true) :
    (s.step tx).1 = s ∧ (s.step tx).2.events = [] := by
  rcases s.step_cases tx with ⟨next, value, log, same, effect⟩ | ⟨panic, -, same⟩
  · rw [same]
    obtain ⟨ctx, call⟩ := tx
    cases effect with
    | read => exact ⟨rfl, rfl⟩
    | @setRole r => cases r <;> cases h
    | _ => cases h
  · rw [same]
    exact ⟨rfl, rfl⟩

/-- `fetch_batch` against `fetch`, id by id, in any state and for any caller. -/
theorem fetchBatch_agrees (s : MultiFeed Feeds Roles Callers AccountId)
    (ctx : VMContext AccountId) (feedIds : List String) :
    let batch := s.step ⟨ctx, .fetchBatch feedIds⟩
    let single (feedId : String) := s.step ⟨ctx, .fetch feedId⟩
    ((∃ data, batch.2 = .success (.feeds data) []) ↔
      s.onlyReadAccess ctx = .ok () ∧ ∀ feedId ∈ feedIds, ∃ id, parseFeedId feedId = .ok id) ∧
    (∀ data, batch.2 = .success (.feeds data) [] → ∃ same : data.length = feedIds.length,
      ∀ i : Fin feedIds.length,
        (single (feedIds.get i)).2 = .success (.feed (data.get (i.cast same.symm))) []) ∧
    (feedIds ≠ [] → ∀ message, batch.2 = .failure message ↔
      ∃ i : Fin feedIds.length, (single (feedIds.get i)).2 = .failure message ∧
        ∀ j < i, ∃ data, (single (feedIds.get j)).2 = .success (.feed data) []) ∧
    (∀ panic, s.onlyReadAccess ctx = .error panic → batch.2 = .failure panic.message) ∧
    (batch.1 = s ∧ batch.2.events = []) ∧
    ∀ feedId, (single feedId).1 = s ∧ (single feedId).2.events = [] := by
  intro batch single
  have batch_ok (data : List (Option FeedData)) : batch.2 = .success (.feeds data) [] ↔
      s.fetchBatch ctx feedIds = .ok data := by
    rw [step_fetchBatch]
    simp only [Value.feeds.injEq, and_true, exists_eq_right']
  have single_ok (feedId : String) (data : Option FeedData) :
      (single feedId).2 = .success (.feed data) [] ↔ s.fetch ctx feedId = .ok data := by
    rw [step_fetch]
    simp only [Value.feed.injEq, and_true, exists_eq_right']
  refine ⟨?_, ?_, ?_, ?_, ?_, ?_⟩
  · simp only [batch_ok, fetchBatch_eq_ok]
    constructor
    · rintro ⟨data, gate, parsed⟩
      refine ⟨gate, ?_⟩
      intro feedId asked
      obtain ⟨i, same⟩ := List.get_of_mem asked
      have here := parsed.get i.isLt (parsed.length_eq ▸ i.isLt)
      obtain ⟨id, parsed_here, -⟩ := here
      rw [Fin.eta, same] at parsed_here
      exact ⟨id, parsed_here⟩
    · rintro ⟨gate, parsed⟩
      choose! id each using parsed
      refine ⟨feedIds.map fun feedId => s.shown (id feedId), gate, ?_⟩
      rw [List.forall₂_map_right_iff, List.forall₂_same]
      intro feedId asked
      exact ⟨id feedId, each feedId asked, rfl⟩
  · intro data answered
    obtain ⟨gate, parsed⟩ := fetchBatch_eq_ok.mp ((batch_ok data).mp answered)
    refine ⟨parsed.length_eq.symm, ?_⟩
    intro i
    apply (single_ok _ _).mpr
    exact fetch_eq_ok.mpr ⟨gate, parsed.get i.isLt (parsed.length_eq ▸ i.isLt)⟩
  · intro some_ids message
    rw [step_fetchBatch_failure]
    simp only [fetchBatch_eq_error some_ids, single_ok]
    constructor
    · rintro ⟨panic, ⟨i, failed, earlier⟩, text⟩
      exact ⟨i, step_fetch_failure.mpr ⟨panic, failed, text⟩, earlier⟩
    · rintro ⟨i, failed, earlier⟩
      obtain ⟨panic, refused, text⟩ := step_fetch_failure.mp failed
      exact ⟨panic, ⟨i, refused, earlier⟩, text⟩
  · intro panic refused
    exact step_fetchBatch_failure.mpr ⟨panic, fetchBatch_of_refused refused feedIds, rfl⟩
  · exact step_of_reads rfl
  · intro feedId
    exact step_of_reads rfl

end Methods

section Reads
variable {Feeds Roles Callers AccountId : Type} [DecidableEq AccountId]
  [LookupMap Feeds UInt32 StoredFeed] [LookupSet Roles AccountId]
  [IterableSet Callers AccountId]

/-- Some call made in state `s` is answered, for the feed `id`, with `data`. -/
inductive ReadsAs (s : MultiFeed Feeds Roles Callers AccountId) (id : UInt32)
    (data : Option FeedData) : Prop
  | fetch {ctx : VMContext AccountId} {feedId : String} :
      parseFeedId feedId = .ok id →
      (s.step ⟨ctx, .fetch feedId⟩).2 = .success (.feed data) [] → ReadsAs s id data
  | fetchBatch {ctx : VMContext AccountId} {feedIds : List String} {feedId : String}
      {answers : List (Option FeedData)} {position : ℕ} :
      feedIds[position]? = some feedId → parseFeedId feedId = .ok id →
      (s.step ⟨ctx, .fetchBatch feedIds⟩).2 = .success (.feeds answers) [] →
      answers[position]? = some data → ReadsAs s id data

theorem ReadsAs.eq_shown {s : MultiFeed Feeds Roles Callers AccountId} {id : UInt32}
    {data : Option FeedData} (h : ReadsAs s id data) : data = s.shown id := by
  cases h with
  | fetch parsed answered =>
      obtain ⟨_, read, same, -⟩ := step_fetch.mp answered
      cases same
      obtain ⟨-, id', parsed', shown⟩ := fetch_eq_ok.mp read
      rw [parsed] at parsed'
      cases parsed'
      exact shown
  | fetchBatch asked parsed answered at_position =>
      obtain ⟨_, read, same, -⟩ := step_fetchBatch.mp answered
      cases same
      obtain ⟨-, positions⟩ := fetchBatch_eq_ok.mp read
      obtain ⟨before, asked_eq⟩ := List.getElem?_eq_some_iff.mp asked
      obtain ⟨before', answer_eq⟩ := List.getElem?_eq_some_iff.mp at_position
      obtain ⟨id', parsed', shown⟩ := positions.get before before'
      rw [List.get_eq_getElem, asked_eq, parsed] at parsed'
      cases parsed'
      rw [List.get_eq_getElem, answer_eq] at shown
      exact shown

omit [DecidableEq AccountId] [LookupSet Roles AccountId] [IterableSet Callers AccountId] in
theorem FeedHistory.shown_eq {s : MultiFeed Feeds Roles Callers AccountId}
    {past : List (Receipt AccountId)} (h : FeedHistory s past) (id : UInt32) :
    s.shown id = (KeyedLog.latest Write.feedId id (writesOf past)).map
      fun w => FeedData.from w.feed.persisted := by
  rw [shown, h.stored id, Option.map_map]
  rfl

/-- A reader is shown the last entry the event log has for the id: its timestamp,
and the low 80 bits of its price. Without an entry there is nothing to show. -/
theorem fetch_last_entry {s : MultiFeed Feeds Roles Callers AccountId}
    {log : List (ContractEvent AccountId)} (deployed : Deployed s log)
    (txs : List (Transaction AccountId)) {ctx : VMContext AccountId} {feedId : String}
    {id : UInt32} (parsed : parseFeedId feedId = .ok id)
    (admitted : (s.run txs).onlyReadAccess ctx = .ok ()) :
    let entries := feedEntries (log ++ eventsOf (s.receipts txs))
    let answer := ((s.run txs).step ⟨ctx, .fetch feedId⟩).2
    ((∃ e ∈ entries, e.feedId = id) →
      ∃ u d, KeyedLog.latest FeedUpdate.feedId id entries = some u ∧
        answer = .success (.feed (some d)) [] ∧
        d.price.toNat = u.price.toNat % 2 ^ 80 ∧ d.aggTs = u.aggTs) ∧
    ((∀ e ∈ entries, e.feedId ≠ id) → answer = .success (.feed none) []) := by
  intro entries answer
  have history := FeedHistory.of_run deployed txs
  have logged : entries = (writesOf (s.receipts txs)).map Write.update := by
    change feedEntries (log ++ eventsOf (s.receipts txs)) = _
    rw [feedEntries_append, deployed.no_entries, List.nil_append, map_update_writesOf]
  have last : KeyedLog.latest FeedUpdate.feedId id entries =
      (KeyedLog.latest Write.feedId id (writesOf (s.receipts txs))).map Write.update := by
    rw [logged, KeyedLog.latest_map]
    rfl
  have answered : answer = .success (.feed ((s.run txs).shown id)) [] :=
    step_fetch.mpr ⟨_, fetch_eq_ok.mpr ⟨admitted, id, parsed, rfl⟩, rfl, rfl⟩
  rw [history.shown_eq id] at answered
  constructor
  · intro reported
    obtain ⟨e, he, same⟩ := reported
    obtain ⟨u, found⟩ := KeyedLog.latest_isSome FeedUpdate.feedId he
    rw [same, last] at found
    obtain ⟨w, written, shape⟩ := Option.map_eq_some_iff.mp found
    have member := (KeyedLog.latest_mem _ written).1
    rw [written, Option.map_some] at answered
    refine ⟨u, FeedData.from w.feed.persisted, last.trans found, answered, ?_, ?_⟩
    · rw [← shape]
      exact StoredFeed.persisted_price w.feed
    · rw [← shape]
      exact (history.persisted_exact member).1
  · intro absent
    have none_written : KeyedLog.latest Write.feedId id (writesOf (s.receipts txs)) = none := by
      have nothing := (KeyedLog.latest_eq_none_iff FeedUpdate.feedId).mpr absent
      rw [last] at nothing
      exact Option.map_eq_none_iff.mp nothing
    rw [answered, none_written]
    rfl

theorem fetch_last_entry_sample :
    let txs := [reportAt 100 [⟨42, 7, 100⟩]]
    ∃ u d, KeyedLog.latest FeedUpdate.feedId 42
        (feedEntries (sampleLog ++ eventsOf (sample.receipts txs))) = some u ∧
      ((sample.run txs).step ⟨⟨some "reader.near", 0, 0⟩, .fetch "0x0000002a"⟩).2 =
        .success (.feed (some d)) [] ∧
      d.price.toNat = u.price.toNat % 2 ^ 80 ∧ d.aggTs = u.aggTs := by
  intro txs
  have parsed : parseFeedId "0x0000002a" = .ok 42 := rfl
  have admitted : (sample.run txs).onlyReadAccess ⟨some "reader.near", 0, 0⟩ = .ok () := rfl
  have answered := (fetch_last_entry sample_deployed txs parsed admitted).1
  exact answered ⟨⟨42, 7, 100⟩, List.mem_cons_self, rfl⟩

/-- The price itself need not survive: `f` accepts any `u128`, and a price of
2^80 + 7 is read back as 7. -/
theorem fetch_price_truncated :
    ¬ ∀ (s : StoredContract) (log : List (ContractEvent String)), Deployed s log →
      ∀ (txs : List (Transaction String)) (ctx : VMContext String) (feedId : String) (id : UInt32),
      parseFeedId feedId = .ok id → (s.run txs).onlyReadAccess ctx = .ok () →
      (∃ e ∈ feedEntries (log ++ eventsOf (s.receipts txs)), e.feedId = id) →
      ∃ u d, KeyedLog.latest FeedUpdate.feedId id
          (feedEntries (log ++ eventsOf (s.receipts txs))) = some u ∧
        ((s.run txs).step ⟨ctx, .fetch feedId⟩).2 = .success (.feed (some d)) [] ∧
        d.price = u.price ∧ d.aggTs = u.aggTs := by
  intro claimed
  let wide : Transaction String := reportAt 100 [⟨42, 0x100000000000000000007, 100⟩]
  let reader : VMContext String := ⟨some "reader.near", 0, 0⟩
  have last : KeyedLog.latest FeedUpdate.feedId 42
      (feedEntries (sampleLog ++ eventsOf (sample.receipts [wide]))) =
        some ⟨42, 0x100000000000000000007, 100⟩ := by decide +kernel
  have answer : ((sample.run [wide]).step ⟨reader, .fetch "0x0000002a"⟩).2 =
      .success (.feed (some ⟨7, 100, 100⟩)) [] := by decide +kernel
  have admitted : (sample.run [wide]).onlyReadAccess reader = .ok () := by decide +kernel
  have reported : ∃ e ∈ feedEntries (sampleLog ++ eventsOf (sample.receipts [wide])),
      e.feedId = 42 := ⟨_, (KeyedLog.latest_mem _ last).1, rfl⟩
  obtain ⟨u, d, last', answer', price, -⟩ := claimed sample sampleLog sample_deployed [wide] reader
    "0x0000002a" 42 rfl admitted reported
  rw [last] at last'
  cases last'
  rw [answer] at answer'
  cases answer'
  exact absurd price (by decide)

/-- Two reads of one feed in one run, the later one after more calls: the feed is
still there, its version did not go back, and one version has one content. -/
theorem reads_monotone {s : MultiFeed Feeds Roles Callers AccountId}
    {log : List (ContractEvent AccountId)} (deployed : Deployed s log)
    (earlier later : List (Transaction AccountId)) {id : UInt32} {d₁ : FeedData}
    {data₂ : Option FeedData} (first : ReadsAs (s.run earlier) id (some d₁))
    (second : ReadsAs (s.run (earlier ++ later)) id data₂) :
    ∃ d₂, data₂ = some d₂ ∧ d₁.aggTs ≤ d₂.aggTs ∧ (d₁.aggTs = d₂.aggTs → d₁ = d₂) ∧
      (ClockMonotone (earlier ++ later) → d₁.onchainTs ≤ d₂.onchainTs) := by
  have before := FeedHistory.of_run deployed earlier
  have after := FeedHistory.of_run deployed (earlier ++ later)
  have trace : s.receipts (earlier ++ later) =
      s.receipts earlier ++ (s.run earlier).receipts later :=
    Machine.trace_append MultiFeed.step s earlier later
  have all : writesOf (s.receipts (earlier ++ later)) =
      writesOf (s.receipts earlier) ++ writesOf ((s.run earlier).receipts later) := by
    rw [trace, writesOf_append]
  have seen₁ := first.eq_shown
  have seen₂ := second.eq_shown
  rw [before.shown_eq id] at seen₁
  rw [after.shown_eq id, all, KeyedLog.latest_append] at seen₂
  obtain ⟨w₁, last₁, shape₁⟩ := Option.map_eq_some_iff.mp seen₁.symm
  rw [last₁] at seen₂
  obtain ⟨member₁, id₁⟩ := KeyedLog.latest_mem _ last₁
  cases last₂ : KeyedLog.latest Write.feedId id (writesOf ((s.run earlier).receipts later)) with
  | none =>
      -- nothing was written in between: both reads see the same write
      rw [last₂, Option.none_or, Option.map_some, shape₁] at seen₂
      exact ⟨d₁, seen₂, UInt64.le_refl _, fun _ => rfl, fun _ => UInt64.le_refl _⟩
  | some w₂ =>
      rw [last₂, Option.some_or, Option.map_some] at seen₂
      obtain ⟨member₂, id₂⟩ := KeyedLog.latest_mem _ last₂
      have newer : d₁.aggTs < (FeedData.from w₂.feed.persisted).aggTs := by
        have chain := after.ascending
        rw [all, KeyedLog.chained_append] at chain
        have lower := chain.2.base_lt member₂
        have current₁ : KeyedLog.current Write.feedId Write.version (fun _ => 0)
            (writesOf (s.receipts earlier)) w₂.feedId = w₁.version := by
          rw [KeyedLog.current, id₂, last₁]
          rfl
        rw [current₁] at lower
        have exact₁ := (before.persisted_exact member₁).1
        have exact₂ := (after.persisted_exact (all ▸ List.mem_append_right _ member₂)).1
        rw [← shape₁]
        change w₁.feed.persisted.aggTs < w₂.feed.persisted.aggTs
        rw [exact₁, exact₂]
        exact UInt64.lt_iff_toNat_lt.mpr lower
      refine ⟨_, seen₂, UInt64.le_of_lt newer, ?_, ?_⟩
      · intro same
        rw [same] at newer
        exact absurd newer (UInt64.lt_irrefl _)
      · intro clock
        obtain ⟨tx₁, call₁, time₁⟩ := time_of_write member₁
        obtain ⟨tx₂, call₂, time₂⟩ := time_of_write member₂
        have exact₁ := (before.persisted_exact member₁).2
        have exact₂ := (after.persisted_exact (all ▸ List.mem_append_right _ member₂)).2
        rw [ClockMonotone, List.map_append, List.pairwise_append] at clock
        have ordered := clock.2.2 _ (List.mem_map_of_mem call₁) _ (List.mem_map_of_mem call₂)
        rw [← shape₁]
        change w₁.feed.persisted.onchainTs ≤ w₂.feed.persisted.onchainTs
        rw [exact₁, exact₂, time₁, time₂]
        exact blockSecond_mono ordered

theorem reads_monotone_sample :
    let earlier := [reportAt 100 [⟨42, 7, 100⟩]]
    let later := [reportAt 160 [⟨42, 8, 105⟩]]
    ∃ d₁ d₂, ReadsAs (sample.run earlier) 42 (some d₁) ∧
      ReadsAs (sample.run (earlier ++ later)) 42 (some d₂) ∧
      d₁.aggTs ≤ d₂.aggTs ∧ d₁.onchainTs ≤ d₂.onchainTs := by
  intro earlier later
  have first : ReadsAs (sample.run earlier) 42 (some ⟨7, 100, 100⟩) := by
    have answered : ((sample.run earlier).step
        ⟨⟨some "reader.near", 0, 0⟩, .fetch "0x0000002a"⟩).2 =
          .success (.feed (some ⟨7, 100, 100⟩)) [] := rfl
    exact .fetch rfl answered
  have second : ReadsAs (sample.run (earlier ++ later)) 42 (some ⟨8, 105, 160⟩) := by
    have asked : ["0x00000001", "0x0000002a"][1]? = some "0x0000002a" := rfl
    have answered : ((sample.run (earlier ++ later)).step
        ⟨⟨some "reader.near", 0, 0⟩, .fetchBatch ["0x00000001", "0x0000002a"]⟩).2 =
          .success (.feeds [none, some ⟨8, 105, 160⟩]) [] := rfl
    exact .fetchBatch asked rfl answered rfl
  have clock : ClockMonotone (earlier ++ later) := by decide
  obtain ⟨d₂, same, version, -, time⟩ := reads_monotone sample_deployed _ _ first second
  cases same
  exact ⟨_, _, first, second, version, time clock⟩

end Reads

end MultiFeed

end NearMultiFeed
