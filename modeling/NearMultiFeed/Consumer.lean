import NearMultiFeed.Lib.Promises
import NearMultiFeed.Wire

/-!
# The consumer

`examples/consumer`: a contract that reads the oracle through promises. A method
sends one call of `fetch` or `fetch_batch`, made by the contract's own account;
when that call has ended the runtime calls the contract back with its result.
Gas is not counted: whether the attached gas suffices is left open.
-/
namespace NearMultiFeed

/-- JSON view of a fetched feed. -/
structure FeedDataView where
  price : U128
  aggTs : UInt64
  onchainTs : UInt64
  deriving DecidableEq, Repr

/-- `impl From<FeedData> for FeedDataView`. -/
def FeedDataView.from (f : FeedData) : FeedDataView :=
  { price := f.price, aggTs := f.aggTs, onchainTs := f.onchainTs }

/-- A call through `ext_multi_feed`. -/
inductive ExtMultiFeed where
  | fetch (feedId : String)
  | fetchBatch (feedIds : List String)
  deriving DecidableEq, Repr

/-- The method of the oracle it names. -/
def ExtMultiFeed.method {AccountId : Type} : ExtMultiFeed → Call AccountId
  | .fetch feedId => .fetch feedId
  | .fetchBatch feedIds => .fetchBatch feedIds

/-- The method `.then(..)` names. -/
inductive ConsumerCallback where
  | onPrice
  | onPrices
  deriving DecidableEq, Repr

/-- A call of another contract, and the method its result is brought back to. -/
structure Promise (AccountId : Type) where
  receiver : AccountId
  call : ExtMultiFeed
  callback : ConsumerCallback
  deriving DecidableEq, Repr

/-- The ways a consumer call aborts. -/
inductive ConsumerPanic where
  | prohibitedInView (method : String)
  /-- The guard near-sdk puts before a `#[private]` method. -/
  | privateMethod (method : String)
  /-- The host knows no promise result of that index. -/
  | noPromiseResult (index : ℕ)
  /-- `#[callback_unwrap]` of a call that did not succeed. -/
  | promiseFailed (index : ℕ)
  /-- `#[callback_unwrap]` of bytes it cannot read. -/
  | malformedResult (error : BorshError)
  | outOfGas
  deriving DecidableEq, Repr

/-- The contract state. -/
structure MultiFeedConsumer (AccountId : Type) where
  multiFeed : AccountId
  deriving DecidableEq, Repr

/-- `env::predecessor_account_id`, which the host refuses in a view call. -/
def consumerCaller {AccountId : Type} (ctx : VMContext AccountId) :
    Except ConsumerPanic AccountId :=
  match ctx.predecessor with
  | some account => .ok account
  | none => .error (.prohibitedInView "predecessor_account_id")

/-- The bytes of a promise that succeeded. -/
def promiseResultBytes (promiseResults : List PromiseResult) (index : ℕ) :
    Except ConsumerPanic (List UInt8) :=
  match promiseResults[index]? with
  | none => .error (.noPromiseResult index)
  | some .failed => .error (.promiseFailed index)
  | some (.successful bytes) => .ok bytes

/-- What near-sdk puts before a `#[private]` method with one `#[callback_unwrap]`
argument: the caller is the contract itself, the call succeeded, its bytes decode. -/
def callbackUnwrap {AccountId α : Type} [DecidableEq AccountId]
    (argument : PrefixCodec BorshError α) (method : String) (currentAccountId : AccountId)
    (ctx : VMContext AccountId) (promiseResults : List PromiseResult) : Except ConsumerPanic α := do
  let predecessor ← consumerCaller ctx
  if predecessor ≠ currentAccountId then throw (.privateMethod method)
  let bytes ← promiseResultBytes promiseResults 0
  (argument.decode .notAllBytesRead bytes).mapError .malformedResult

theorem promiseResultBytes_eq_ok {results : List PromiseResult} {index : ℕ} {bytes : List UInt8} :
    promiseResultBytes results index = .ok bytes ↔ results[index]? = some (.successful bytes) := by
  rw [promiseResultBytes]
  cases results[index]? with
  | none => simp only [reduceCtorEq]
  | some result =>
      cases result with
      | failed => simp only [reduceCtorEq, Option.some.injEq]
      | successful found =>
          simp only [Except.ok.injEq, Option.some.injEq, PromiseResult.successful.injEq]

theorem callbackUnwrap_eq_ok {AccountId α : Type} [DecidableEq AccountId]
    {argument : PrefixCodec BorshError α} {method : String} {current : AccountId}
    {ctx : VMContext AccountId} {results : List PromiseResult} {a : α} :
    callbackUnwrap argument method current ctx results = .ok a ↔
      ctx.predecessor = some current ∧ ∃ bytes, results[0]? = some (.successful bytes) ∧
        argument.decode .notAllBytesRead bytes = .ok a := by
  have read (bytes : List UInt8) :
      (argument.decode .notAllBytesRead bytes).mapError ConsumerPanic.malformedResult = .ok a ↔
        argument.decode .notAllBytesRead bytes = .ok a := by
    cases argument.decode .notAllBytesRead bytes with
    | ok b => simp only [Except.mapError, Except.ok.injEq]
    | error e => simp only [Except.mapError, reduceCtorEq]
  cases called : ctx.predecessor with
  | none =>
      simp only [callbackUnwrap, consumerCaller, called, Abort.error_bind, reduceCtorEq, false_and]
  | some caller =>
      by_cases own : caller = current
      · simp only [callbackUnwrap, consumerCaller, called, own, Abort.ok_bind, ne_eq,
          not_true_eq_false, if_false, Abort.bind_eq_ok, promiseResultBytes_eq_ok, read, true_and]
      · simp only [callbackUnwrap, consumerCaller, called, own, Abort.ok_bind, ne_eq,
          not_false_eq_true, if_true, Abort.throw_eq_error, Abort.error_bind, reduceCtorEq,
          Option.some.injEq, false_and]

namespace MultiFeedConsumer

variable {AccountId : Type}

def new (multiFeed : AccountId) : MultiFeedConsumer AccountId := { multiFeed }

def getMultiFeed (self : MultiFeedConsumer AccountId) : AccountId := self.multiFeed

/-- `ext(receiver).call(..).then(..)`; the host creates no promise in a view call. -/
def promise (ctx : VMContext AccountId) (receiver : AccountId) (call : ExtMultiFeed)
    (callback : ConsumerCallback) : Except ConsumerPanic (Promise AccountId) :=
  match ctx.predecessor with
  | some _ => .ok { receiver, call, callback }
  | none => .error (.prohibitedInView "promise_batch_create")

def getPrice (self : MultiFeedConsumer AccountId) (ctx : VMContext AccountId) (feedId : String) :
    Except ConsumerPanic (Promise AccountId) :=
  promise ctx self.multiFeed (.fetch feedId) .onPrice

def getPrices (self : MultiFeedConsumer AccountId) (ctx : VMContext AccountId)
    (feedIds : List String) : Except ConsumerPanic (Promise AccountId) :=
  promise ctx self.multiFeed (.fetchBatch feedIds) .onPrices

variable [DecidableEq AccountId]

def onPrice (_ : MultiFeedConsumer AccountId) (currentAccountId : AccountId)
    (ctx : VMContext AccountId) (promiseResults : List PromiseResult) :
    Except ConsumerPanic (Option FeedDataView) := do
  let feed ← callbackUnwrap Wire.feed "on_price" currentAccountId ctx promiseResults
  return feed.map FeedDataView.from

def onPrices (_ : MultiFeedConsumer AccountId) (currentAccountId : AccountId)
    (ctx : VMContext AccountId) (promiseResults : List PromiseResult) :
    Except ConsumerPanic (List (Option FeedDataView)) := do
  let feeds ← callbackUnwrap Wire.feeds "on_prices" currentAccountId ctx promiseResults
  return feeds.map fun feed => feed.map FeedDataView.from

theorem onPrice_eq_ok {self : MultiFeedConsumer AccountId} {current : AccountId}
    {ctx : VMContext AccountId} {results : List PromiseResult} {view : Option FeedDataView} :
    self.onPrice current ctx results = .ok view ↔
      ctx.predecessor = some current ∧ ∃ bytes data, results[0]? = some (.successful bytes) ∧
        Wire.feed.decode .notAllBytesRead bytes = .ok data ∧
        view = data.map FeedDataView.from := by
  simp only [onPrice, Abort.bind_eq_ok, callbackUnwrap_eq_ok, Abort.pure_eq_ok,
    Except.ok.injEq]
  constructor
  · intro h
    obtain ⟨data, ⟨own, bytes, back, decoded⟩, shape⟩ := h
    exact ⟨own, bytes, data, back, decoded, shape.symm⟩
  · intro h
    obtain ⟨own, bytes, data, back, decoded, shape⟩ := h
    exact ⟨data, ⟨own, bytes, back, decoded⟩, shape.symm⟩

theorem onPrices_eq_ok {self : MultiFeedConsumer AccountId} {current : AccountId}
    {ctx : VMContext AccountId} {results : List PromiseResult}
    {views : List (Option FeedDataView)} :
    self.onPrices current ctx results = .ok views ↔
      ctx.predecessor = some current ∧ ∃ bytes data, results[0]? = some (.successful bytes) ∧
        Wire.feeds.decode .notAllBytesRead bytes = .ok data ∧
        views = data.map fun feed => feed.map FeedDataView.from := by
  simp only [onPrices, Abort.bind_eq_ok, callbackUnwrap_eq_ok, Abort.pure_eq_ok,
    Except.ok.injEq]
  constructor
  · intro h
    obtain ⟨data, ⟨own, bytes, back, decoded⟩, shape⟩ := h
    exact ⟨own, bytes, data, back, decoded, shape.symm⟩
  · intro h
    obtain ⟨own, bytes, data, back, decoded, shape⟩ := h
    exact ⟨data, ⟨own, bytes, back, decoded⟩, shape.symm⟩

end MultiFeedConsumer

/-! ## The two contracts together -/

/-- A call of the consumer. -/
inductive ConsumerCall where
  | getPrice (feedId : String)
  | getPrices (feedIds : List String)
  deriving DecidableEq, Repr

/-- What a request resolves to. -/
inductive Answer where
  | price (result : Except ConsumerPanic (Option FeedDataView))
  | prices (result : Except ConsumerPanic (List (Option FeedDataView)))

def Answer.succeeded : Answer → Bool
  | .price (.ok _) | .prices (.ok _) => true
  | _ => false

theorem Answer.succeeded_price {result : Except ConsumerPanic (Option FeedDataView)} :
    (Answer.price result).succeeded = true ↔ ∃ v, result = .ok v := by
  cases result with
  | ok v => exact ⟨fun _ => ⟨v, rfl⟩, fun _ => rfl⟩
  | error panic => simp only [succeeded, Bool.false_eq_true, reduceCtorEq, exists_false]

theorem Answer.succeeded_prices {result : Except ConsumerPanic (List (Option FeedDataView))} :
    (Answer.prices result).succeeded = true ↔ ∃ vs, result = .ok vs := by
  cases result with
  | ok vs => exact ⟨fun _ => ⟨vs, rfl⟩, fun _ => rfl⟩
  | error panic => simp only [succeeded, Bool.false_eq_true, reduceCtorEq, exists_false]

/-- What the execution of a receipt meets. -/
structure Circumstances where
  blockTimestamp : UInt64
  /-- The attached gas did not suffice. -/
  exhausted : Bool
  /-- What a contract other than the oracle returns. -/
  foreign : PromiseResult

/-- The oracle's account, and a consumer under its account. -/
structure Site (AccountId : Type) where
  oracle : AccountId
  account : AccountId
  consumer : MultiFeedConsumer AccountId

namespace Site

section Definitions
variable {Feeds Roles Callers AccountId : Type} [DecidableEq AccountId]
  [LookupMap Feeds UInt32 StoredFeed] [LookupSet Roles AccountId]
  [IterableSet Callers AccountId] (site : Site AccountId)

/-- Receipts of the consumer, its callbacks included, are calls by its own account. -/
def context (e : Circumstances) : VMContext AccountId := ⟨some site.account, 0, e.blockTimestamp⟩

def ask (tx : VMContext AccountId × ConsumerCall) : Except ConsumerPanic (Promise AccountId) :=
  match tx.2 with
  | .getPrice feedId => site.consumer.getPrice tx.1 feedId
  | .getPrices feedIds => site.consumer.getPrices tx.1 feedIds

/-- The call of a promise at its receiver. -/
def execute (s : MultiFeed Feeds Roles Callers AccountId) (p : Promise AccountId)
    (e : Circumstances) : MultiFeed Feeds Roles Callers AccountId × PromiseResult :=
  if e.exhausted then (s, .failed)
  else if p.receiver = site.oracle then
    let done := s.step ⟨site.context e, p.call.method⟩
    (done.1, done.2.promiseResult)
  else (s, e.foreign)

/-- The callback of a promise, with the result of its call. -/
def callback (p : Promise AccountId) (result : PromiseResult) (e : Circumstances) : Answer :=
  match p.callback with
  | .onPrice =>
    .price (if e.exhausted then .error .outOfGas
      else site.consumer.onPrice site.account (site.context e) [result])
  | .onPrices =>
    .prices (if e.exhausted then .error .outOfGas
      else site.consumer.onPrices site.account (site.context e) [result])

/-- Anyone calls the oracle, anyone calls the consumer, and receipts are executed,
in any order. -/
def protocol : Promises.Protocol (MultiFeed Feeds Roles Callers AccountId)
    (Transaction AccountId) (Outcome AccountId) (VMContext AccountId × ConsumerCall)
    ConsumerPanic (Promise AccountId) Circumstances PromiseResult Answer where
  serve := MultiFeed.step
  ask := site.ask
  execute := site.execute
  callback := site.callback

abbrev Moves (AccountId : Type) : Type :=
  List (Promises.Move (Transaction AccountId) (VMContext AccountId × ConsumerCall) Circumstances)

abbrev World (Feeds Roles Callers AccountId : Type) : Type :=
  Promises.System (MultiFeed Feeds Roles Callers AccountId) (Promise AccountId) PromiseResult Answer

/-- The world after some moves, from an oracle in state `s` and no request. -/
def after (s : MultiFeed Feeds Roles Callers AccountId) (moves : Moves AccountId) :
    World Feeds Roles Callers AccountId :=
  Promises.run site.protocol (Promises.start s) moves

end Definitions

section Asking
variable {AccountId : Type}

/-- A method of the consumer asks its oracle, and pairs each call with its callback. -/
theorem ask_eq_ok {site : Site AccountId} {tx : VMContext AccountId × ConsumerCall}
    {p : Promise AccountId} (asked : site.ask tx = .ok p) :
    p.receiver = site.consumer.multiFeed ∧
      ((∃ feedId, p.call = .fetch feedId ∧ p.callback = .onPrice) ∨
        ∃ feedIds, p.call = .fetchBatch feedIds ∧ p.callback = .onPrices) := by
  obtain ⟨ctx, call⟩ := tx
  cases call with
  | getPrice feedId =>
      simp only [ask, MultiFeedConsumer.getPrice, MultiFeedConsumer.promise] at asked
      cases caller : ctx.predecessor with
      | none => simp [caller] at asked
      | some account =>
          rw [caller] at asked
          cases asked
          exact ⟨rfl, .inl ⟨feedId, rfl, rfl⟩⟩
  | getPrices feedIds =>
      simp only [ask, MultiFeedConsumer.getPrices, MultiFeedConsumer.promise] at asked
      cases caller : ctx.predecessor with
      | none => simp [caller] at asked
      | some account =>
          rw [caller] at asked
          cases asked
          exact ⟨rfl, .inr ⟨feedIds, rfl, rfl⟩⟩

variable [DecidableEq AccountId]

/-- The kind of the answer is the one the method asked for. -/
theorem callback_onPrice (site : Site AccountId) {p : Promise AccountId}
    (back : p.callback = .onPrice) (returned : PromiseResult) (e : Circumstances) :
    ∃ result, site.callback p returned e = .price result := by
  rw [callback, back]
  exact ⟨_, rfl⟩

theorem callback_onPrices (site : Site AccountId) {p : Promise AccountId}
    (back : p.callback = .onPrices) (returned : PromiseResult) (e : Circumstances) :
    ∃ result, site.callback p returned e = .prices result := by
  rw [callback, back]
  exact ⟨_, rfl⟩

end Asking

section Execution
variable {Feeds Roles Callers AccountId : Type} [DecidableEq AccountId]
  [LookupMap Feeds UInt32 StoredFeed] [LookupSet Roles AccountId]
  [IterableSet Callers AccountId] {site : Site AccountId}
  {s : MultiFeed Feeds Roles Callers AccountId} {p : Promise AccountId} {e e' : Circumstances}

/-- A request changes nothing at the oracle. -/
theorem execute_leaves (site : Site AccountId) (s : MultiFeed Feeds Roles Callers AccountId)
    (p : Promise AccountId) (e : Circumstances) : (site.execute s p e).1 = s := by
  rw [execute]
  by_cases exhausted : e.exhausted = true
  · rw [if_pos exhausted]
  · rw [if_neg exhausted]
    by_cases ours : p.receiver = site.oracle
    · rw [if_pos ours]
      have reads : (p.call.method : Call AccountId).reads = true := by cases p.call <;> rfl
      exact (MultiFeed.step_of_reads reads).1
    · rw [if_neg ours]

/-- The answer to a `get_price` executed in state `s`. -/
theorem price_answer (ours : p.receiver = site.oracle) {feedId : String}
    (call : p.call = .fetch feedId) (back : p.callback = .onPrice)
    {result : Except ConsumerPanic (Option FeedDataView)}
    (given : site.callback p (site.execute s p e).2 e' = .price result)
    (view : Option FeedDataView) :
    result = .ok view ↔ e.exhausted = false ∧ e'.exhausted = false ∧
      ∃ data, s.fetch (site.context e) feedId = .ok data ∧ view = data.map FeedDataView.from := by
  rw [← Answer.price.injEq, ← given]
  have decoded (data : Option FeedData) :
      Wire.feed.decode .notAllBytesRead (Wire.feed.write data) = .ok data :=
    Wire.feed.decode_eq_ok.mpr ⟨Wire.fits_feed data, rfl⟩
  cases spent : e.exhausted <;> cases spent' : e'.exhausted <;>
    simp only [callback, back, execute, ours, call, spent, spent', if_true, if_false,
      Bool.false_eq_true, Answer.price.injEq, reduceCtorEq, false_and, true_and, and_false,
      MultiFeedConsumer.onPrice_eq_ok, context, List.getElem?_cons_zero, Option.some.injEq,
      exists_false]
  constructor
  · intro h
    obtain ⟨bytes, data, returned, read, shape⟩ := h
    obtain ⟨data', fetched, whole⟩ := (s.fetchResult_eq (site.context e)).mp returned
    rw [← whole, decoded] at read
    cases read
    exact ⟨data, fetched, shape⟩
  · intro h
    obtain ⟨data, fetched, shape⟩ := h
    exact ⟨_, data, (s.fetchResult_eq (site.context e)).mpr ⟨data, fetched, rfl⟩, decoded data,
      shape⟩

/-- The answer to a `get_prices` executed in state `s`. -/
theorem prices_answer (ours : p.receiver = site.oracle) {feedIds : List String}
    (call : p.call = .fetchBatch feedIds) (back : p.callback = .onPrices)
    {result : Except ConsumerPanic (List (Option FeedDataView))}
    (given : site.callback p (site.execute s p e).2 e' = .prices result)
    (views : List (Option FeedDataView)) :
    result = .ok views ↔ e.exhausted = false ∧ e'.exhausted = false ∧
      ∃ data, s.fetchBatch (site.context e) feedIds = .ok data ∧ data.length < 2 ^ 32 ∧
        views = data.map fun feed => feed.map FeedDataView.from := by
  rw [← Answer.prices.injEq, ← given]
  have decoded {data : List (Option FeedData)} (counted : data.length < 2 ^ 32) :
      Wire.feeds.decode .notAllBytesRead (Wire.feeds.write data) = .ok data :=
    Wire.feeds.decode_eq_ok.mpr ⟨Wire.fits_feeds.mpr counted, rfl⟩
  cases spent : e.exhausted <;> cases spent' : e'.exhausted <;>
    simp only [callback, back, execute, ours, call, spent, spent', if_true, if_false,
      Bool.false_eq_true, Answer.prices.injEq, reduceCtorEq, false_and, true_and, and_false,
      MultiFeedConsumer.onPrices_eq_ok, context, List.getElem?_cons_zero, Option.some.injEq,
      exists_false]
  constructor
  · intro h
    obtain ⟨bytes, data, returned, read, shape⟩ := h
    obtain ⟨data', fetched, counted, whole⟩ := (s.fetchBatchResult_eq (site.context e)).mp returned
    rw [← whole, decoded counted] at read
    cases read
    exact ⟨data, fetched, counted, shape⟩
  · intro h
    obtain ⟨data, fetched, counted, shape⟩ := h
    exact ⟨_, data, (s.fetchBatchResult_eq (site.context e)).mpr ⟨data, fetched, counted, rfl⟩,
      decoded counted, shape⟩

end Execution

end Site

end NearMultiFeed
