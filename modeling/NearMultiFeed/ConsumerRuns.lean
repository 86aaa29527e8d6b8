import NearMultiFeed.Consumer
import NearMultiFeed.Timestamps

/-!
# What a consumer is told

The consumer and its oracle over whole runs. Between a request and its answer
reports arrive, roles change and other requests overtake. An answer is still one
read of the oracle, made after the request and before the answer.
-/
namespace NearMultiFeed

namespace MultiFeed

section Views
variable {Feeds Roles Callers AccountId : Type} [LookupMap Feeds UInt32 StoredFeed]
  {s : MultiFeed Feeds Roles Callers AccountId}

/-- What a consumer makes of a feed. -/
def view (s : MultiFeed Feeds Roles Callers AccountId) (id : UInt32) : Option FeedDataView :=
  (s.shown id).map FeedDataView.from

/-- Past the gate only a malformed id stops a batch. -/
theorem fetchBatch_of_wellFormed [IterableSet Callers AccountId] {ctx : VMContext AccountId}
    (gate : s.onlyReadAccess ctx = .ok ()) {feedIds : List String}
    (parsed : ∀ feedId ∈ feedIds, ∃ id, parseFeedId feedId = .ok id) :
    ∃ data, s.fetchBatch ctx feedIds = .ok data := by
  choose! id each using parsed
  refine ⟨feedIds.map fun feedId => s.shown (id feedId), fetchBatch_eq_ok.mpr ⟨gate, ?_⟩⟩
  rw [List.forall₂_map_right_iff, List.forall₂_same]
  intro feedId asked
  exact ⟨id feedId, each feedId asked, rfl⟩

end Views

section Runs
variable {Feeds Roles Callers AccountId : Type} [DecidableEq AccountId]
  [LookupMap Feeds UInt32 StoredFeed] [LookupSet Roles AccountId]
  [IterableSet Callers AccountId] {s : MultiFeed Feeds Roles Callers AccountId}

end Runs

end MultiFeed

namespace Site

open MultiFeed

variable {Feeds Roles Callers AccountId : Type} [DecidableEq AccountId]
  [LookupMap Feeds UInt32 StoredFeed] [LookupSet Roles AccountId]
  [IterableSet Callers AccountId] (site : Site AccountId)
  (s : MultiFeed Feeds Roles Callers AccountId)

/-! ## The oracle's side -/

/-- The oracle is where the calls of others take it. -/
theorem after_server (moves : Moves AccountId) :
    (site.after s moves).server = s.run (moves.filterMap Promises.servedInput) :=
  (Promises.served_calls site.protocol (execute_leaves site) (Promises.start s) moves).1

variable {s} in
theorem reachable_after (reachable : Reachable s) (moves : Moves AccountId) :
    Reachable (site.after s moves).server := by
  rw [after_server]
  exact reachable.run _

/-- The promises the methods make, sent to the oracle. -/
structure Asks (p : Promise AccountId) : Prop where
  receiver : p.receiver = site.oracle
  paired : (∃ feedId, p.call = .fetch feedId ∧ p.callback = .onPrice) ∨
    ∃ feedIds, p.call = .fetchBatch feedIds ∧ p.callback = .onPrices

/-- A call whose ids parse, and whose result can be encoded. -/
def Readable : ExtMultiFeed → Prop
  | .fetch feedId => ∃ id, parseFeedId feedId = .ok id
  | .fetchBatch feedIds =>
    feedIds.length < 2 ^ 32 ∧ ∀ feedId ∈ feedIds, ∃ id, parseFeedId feedId = .ok id

variable {site s} in
/-- When a request gets a result. -/
theorem Asks.succeeded_iff {p : Promise AccountId} (asks : site.Asks p) {e e' : Circumstances} :
    (site.callback p (site.execute s p e).2 e').succeeded = true ↔
      e.exhausted = false ∧ e'.exhausted = false ∧
        s.onlyReadAccess (site.context e) = .ok () ∧ Readable p.call := by
  rcases asks.paired with ⟨feedId, call, back⟩ | ⟨feedIds, call, back⟩
  · obtain ⟨result, form⟩ := site.callback_onPrice back (site.execute s p e).2 e'
    have each := price_answer asks.receiver call back form
    simp only [form, Answer.succeeded_price, each, fetch_eq_ok, call, Readable]
    constructor
    · intro h
      obtain ⟨_, gas, gas', _, ⟨gate, id, parsed, -⟩, -⟩ := h
      exact ⟨gas, gas', gate, id, parsed⟩
    · intro h
      obtain ⟨gas, gas', gate, id, parsed⟩ := h
      exact ⟨_, gas, gas', _, ⟨gate, id, parsed, rfl⟩, rfl⟩
  · obtain ⟨result, form⟩ := site.callback_onPrices back (site.execute s p e).2 e'
    have each := prices_answer asks.receiver call back form
    simp only [form, Answer.succeeded_prices, each, call, Readable]
    constructor
    · intro h
      obtain ⟨_, gas, gas', data, fetched, counted, -⟩ := h
      obtain ⟨gate, positions⟩ := fetchBatch_eq_ok.mp fetched
      have each_parses : List.Forall₂ (fun feedId d => (∃ id, parseFeedId feedId = .ok id) ∧ True)
          feedIds data := by
        apply positions.imp
        intro _ _ found
        obtain ⟨id, parsed, -⟩ := found
        exact ⟨⟨id, parsed⟩, trivial⟩
      have parsed := ((List.forall₂_and_left feedIds data).mp each_parses).1
      exact ⟨gas, gas', gate, positions.length_eq ▸ counted, parsed⟩
    · intro h
      obtain ⟨gas, gas', gate, counted, parsed⟩ := h
      obtain ⟨data, fetched⟩ := fetchBatch_of_wellFormed gate parsed
      have length := (fetchBatch_eq_ok.mp fetched).2.length_eq
      exact ⟨_, gas, gas', data, fetched, length ▸ counted, rfl⟩

/-! A run of the sample's oracle and a whitelisted consumer. -/

def sampleSite : Site String := ⟨"oracle.near", "reader.near", .new "oracle.near"⟩

def calm : Circumstances := ⟨200000000000, false, .failed⟩

def askedPrice : Promise String := ⟨"oracle.near", .fetch "0x0000002a", .onPrice⟩

theorem sampleSite_ours : sampleSite.consumer.multiFeed = sampleSite.oracle := rfl

section Runs
variable {site} {s} {moves : Moves AccountId} {u : ℕ} {p : Promise AccountId} {answer : Answer}

/-- The request under a number. -/
theorem asks_of_sent (ours : site.consumer.multiFeed = site.oracle)
    (sent : (site.after s moves).requests[u]? = some (.sent p)) : site.Asks p := by
  obtain ⟨asking, tx, -, asked, -⟩ := Promises.sent_origin site.protocol sent
  obtain ⟨receiver, paired⟩ := ask_eq_ok asked
  exact ⟨receiver.trans ours, paired⟩

/-- The moment an answer was read at. -/
theorem answer_origin (ours : site.consumer.multiFeed = site.oracle)
    (answered : (site.after s moves).requests[u]? = some (.answered p answer)) :
    ∃ running answering e e', running ++ [.execute u e] <+: answering ∧
      answering ++ [.callback u e'] <+: moves ∧
      (site.after s running).requests[u]? = some (.sent p) ∧ site.Asks p ∧
      answer = site.callback p (site.execute (site.after s running).server p e).2 e' := by
  obtain ⟨running, answering, e, e', -, middle, last, pending, shape⟩ :=
    Promises.execution_after site.protocol List.nil_prefix (Nat.zero_le u) answered
  exact ⟨running, answering, e, e', middle, last, pending, asks_of_sent ours pending, shape⟩

end Runs

end Site

end NearMultiFeed
