import NearMultiFeed.Lib.PrefixCodec
import NearMultiFeed.Reads

/-!
# The wire format

Standard Borsh, as reporters and readers speak it: the fields of a record in
declaration order and little-endian, a tag byte in front of an optional value, a
`u32` count in front of a vector. Arguments and results are whole inputs, so
leftover bytes are an error. What two parties exchange is then the value itself.
-/
namespace NearMultiFeed

/-- Why a standard Borsh reader stops. -/
inductive BorshError where
  | unexpectedLength
  | invalidOption (tag : UInt8)
  | notAllBytesRead
  deriving DecidableEq, Repr

namespace Wire

def count : PrefixCodec BorshError ℕ := .word .unexpectedLength 4

def u32 : PrefixCodec BorshError UInt32 :=
  (PrefixCodec.word .unexpectedLength 4).rename UInt32.ofNat UInt32.toNat
    (fun _ fits => UInt32.toNat_ofNat_of_lt' fits) (fun _ => UInt32.ofNat_toNat)

def u64 : PrefixCodec BorshError UInt64 :=
  (PrefixCodec.word .unexpectedLength 8).rename UInt64.ofNat UInt64.toNat
    (fun _ fits => UInt64.toNat_ofNat_of_lt' fits) (fun _ => UInt64.ofNat_toNat)

def u128 : PrefixCodec BorshError U128 :=
  (PrefixCodec.word .unexpectedLength 16).rename (BitVec.ofNat 128) BitVec.toNat
    (fun _ fits => Nat.mod_eq_of_lt fits) (fun v => BitVec.ofNat_toNat 128 v)

/-- The derived format of `FeedData`, and of its mirror in a consumer. -/
def feedData : PrefixCodec BorshError FeedData :=
  (u128.pair (u64.pair u64)).rename (fun v => ⟨v.1, v.2.1, v.2.2⟩)
    (fun d => (d.price, d.aggTs, d.onchainTs)) (fun _ _ => rfl) (fun _ => rfl)

/-- The derived format of `FeedUpdate`. -/
def feedUpdate : PrefixCodec BorshError FeedUpdate :=
  (u32.pair (u128.pair u64)).rename (fun v => ⟨v.1, v.2.1, v.2.2⟩)
    (fun u => (u.feedId, u.price, u.aggTs)) (fun _ _ => rfl) (fun _ => rfl)

/-- `Option<FeedData>`, the result of `fetch`. -/
def feed : PrefixCodec BorshError (Option FeedData) :=
  feedData.option .unexpectedLength .invalidOption

/-- `Vec<Option<FeedData>>`, the result of `fetch_batch`. -/
def feeds : PrefixCodec BorshError (List (Option FeedData)) := feed.counted count

/-- `Vec<FeedUpdate>`, the argument of `f`. -/
def updates : PrefixCodec BorshError (List FeedUpdate) := feedUpdate.counted count

section Layout

theorem fits_feedData (d : FeedData) : feedData.Fits d :=
  ⟨d.price.isLt, d.aggTs.toNat_lt, d.onchainTs.toNat_lt⟩

theorem fits_feedUpdate (u : FeedUpdate) : feedUpdate.Fits u :=
  ⟨u.feedId.toNat_lt, u.price.isLt, u.aggTs.toNat_lt⟩

theorem fits_feed (data : Option FeedData) : feed.Fits data := fun d _ => fits_feedData d

theorem fits_count {n : ℕ} : count.Fits n ↔ n < 2 ^ 32 := by
  change n < 256 ^ 4 ↔ n < 2 ^ 32
  have same : 256 ^ 4 = 2 ^ 32 := by decide
  rw [same]

/-- A vector has an encoding exactly if a `u32` can count it. -/
theorem fits_feeds {data : List (Option FeedData)} : feeds.Fits data ↔ data.length < 2 ^ 32 := by
  rw [← fits_count]
  exact and_iff_left fun d _ => fits_feed d

theorem fits_updates {us : List FeedUpdate} : updates.Fits us ↔ us.length < 2 ^ 32 := by
  rw [← fits_count]
  exact and_iff_left fun u _ => fits_feedUpdate u

theorem write_u32 (v : UInt32) : u32.write v = PrefixCodec.littleEndian 4 v.toNat := by
  rw [u32, PrefixCodec.write_rename, PrefixCodec.write_word]

theorem write_u64 (v : UInt64) : u64.write v = PrefixCodec.littleEndian 8 v.toNat := by
  rw [u64, PrefixCodec.write_rename, PrefixCodec.write_word]

theorem write_u128 (v : U128) : u128.write v = PrefixCodec.littleEndian 16 v.toNat := by
  rw [u128, PrefixCodec.write_rename, PrefixCodec.write_word]

/-- The field order and the widths of a feed. -/
theorem write_feedData (d : FeedData) : feedData.write d =
    PrefixCodec.littleEndian 16 d.price.toNat ++ (PrefixCodec.littleEndian 8 d.aggTs.toNat ++
      PrefixCodec.littleEndian 8 d.onchainTs.toNat) := by
  rw [feedData, PrefixCodec.write_rename, PrefixCodec.write_pair, PrefixCodec.write_pair,
    write_u128, write_u64, write_u64]

theorem write_feedUpdate (u : FeedUpdate) : feedUpdate.write u =
    PrefixCodec.littleEndian 4 u.feedId.toNat ++ (PrefixCodec.littleEndian 16 u.price.toNat ++
      PrefixCodec.littleEndian 8 u.aggTs.toNat) := by
  rw [feedUpdate, PrefixCodec.write_rename, PrefixCodec.write_pair, PrefixCodec.write_pair,
    write_u32, write_u128, write_u64]

theorem length_write_feedUpdate (u : FeedUpdate) : (feedUpdate.write u).length = 28 := by
  rw [write_feedUpdate, List.length_append, List.length_append, PrefixCodec.length_littleEndian,
    PrefixCodec.length_littleEndian, PrefixCodec.length_littleEndian]

theorem length_write_updates (us : List FeedUpdate) :
    (updates.write us).length = 4 + 28 * us.length :=
  feedUpdate.length_write_counted (PrefixCodec.length_littleEndian 4) length_write_feedUpdate us

theorem write_feed_none : feed.write none = [0] := by
  rw [feed, PrefixCodec.write_none]

theorem write_feed_some (d : FeedData) : feed.write (some d) = 1 :: feedData.write d := by
  rw [feed, PrefixCodec.write_some]

theorem write_feeds (data : List (Option FeedData)) : feeds.write data =
    PrefixCodec.littleEndian 4 data.length ++ data.flatMap feed.write := by
  rw [feeds, PrefixCodec.write_counted, count, PrefixCodec.write_word]

end Layout

end Wire

/-- `near_sdk::PromiseResult`: how a call ended, for the contract that waits for it. -/
inductive PromiseResult where
  | successful (bytes : List UInt8)
  | failed
  deriving DecidableEq, Repr

/-- What a caller gets back from a method under `#[result_serializer(borsh)]`: the
bytes of its result. A vector past `u32::MAX` has no encoding, and the call aborts. -/
def Outcome.promiseResult {AccountId : Type} : Outcome AccountId → PromiseResult
  | .success (.feed data) _ => .successful (Wire.feed.write data)
  | .success (.feeds data) _ =>
    if data.length < 2 ^ 32 then .successful (Wire.feeds.write data) else .failed
  | _ => .failed

/-- How a call of `f` with raw argument bytes ends. -/
inductive RawOutcome (AccountId : Type) where
  /-- near-sdk could not read the arguments. -/
  | malformed (error : BorshError)
  | ran (outcome : Outcome AccountId)
  deriving DecidableEq, Repr

/-- The events that reach the log. -/
def RawOutcome.events {AccountId : Type} : RawOutcome AccountId → List (ContractEvent AccountId)
  | .malformed _ => []
  | .ran outcome => outcome.events

namespace MultiFeed

variable {Feeds Roles Callers AccountId : Type} [DecidableEq AccountId]
  [LookupMap Feeds UInt32 StoredFeed] [LookupSet Roles AccountId]
  [IterableSet Callers AccountId]

/-- What `fetch` returns to its caller. -/
def fetchResult (self : MultiFeed Feeds Roles Callers AccountId) (ctx : VMContext AccountId)
    (feedId : String) : PromiseResult :=
  (self.step ⟨ctx, .fetch feedId⟩).2.promiseResult

/-- What `fetch_batch` returns to its caller. -/
def fetchBatchResult (self : MultiFeed Feeds Roles Callers AccountId) (ctx : VMContext AccountId)
    (feedIds : List String) : PromiseResult :=
  (self.step ⟨ctx, .fetchBatch feedIds⟩).2.promiseResult

/-- A call of `f` as the host delivers it: near-sdk refuses a deposit, reads the
argument off the input, and runs the method. -/
def callF (self : MultiFeed Feeds Roles Callers AccountId) (ctx : VMContext AccountId)
    (input : List UInt8) : MultiFeed Feeds Roles Callers AccountId × RawOutcome AccountId :=
  match denyDeposit ctx "f" with
  | .error panic => (self, .ran (.failure panic.message))
  | .ok _ =>
    match Wire.updates.decode .notAllBytesRead input with
    | .error e => (self, .malformed e)
    | .ok updates =>
      let done := self.step ⟨ctx, .f updates⟩
      (done.1, .ran done.2)

section Results
variable (s : MultiFeed Feeds Roles Callers AccountId) (ctx : VMContext AccountId)

theorem fetchResult_eq {feedId : String} {bytes : List UInt8} :
    s.fetchResult ctx feedId = .successful bytes ↔
      ∃ data, s.fetch ctx feedId = .ok data ∧ Wire.feed.write data = bytes := by
  rw [fetchResult]
  cases outcome : (s.step ⟨ctx, .fetch feedId⟩).2 with
  | failure message =>
      obtain ⟨panic, refused, -⟩ := step_fetch_failure.mp outcome
      simp only [Outcome.promiseResult, refused, reduceCtorEq, false_and, exists_false]
  | success value events =>
      obtain ⟨data, read, rfl, -⟩ := step_fetch.mp outcome
      simp only [Outcome.promiseResult, read, PromiseResult.successful.injEq, Except.ok.injEq,
        exists_eq_left']

theorem fetchBatchResult_eq {feedIds : List String} {bytes : List UInt8} :
    s.fetchBatchResult ctx feedIds = .successful bytes ↔
      ∃ data, s.fetchBatch ctx feedIds = .ok data ∧ data.length < 2 ^ 32 ∧
        Wire.feeds.write data = bytes := by
  rw [fetchBatchResult]
  cases outcome : (s.step ⟨ctx, .fetchBatch feedIds⟩).2 with
  | failure message =>
      obtain ⟨panic, refused, -⟩ := step_fetchBatch_failure.mp outcome
      simp only [Outcome.promiseResult, refused, reduceCtorEq, false_and, exists_false]
  | success value events =>
      obtain ⟨data, read, rfl, -⟩ := step_fetchBatch.mp outcome
      simp only [Outcome.promiseResult, read, Except.ok.injEq, exists_eq_left']
      by_cases counted : data.length < 2 ^ 32
      · simp only [counted, if_true, PromiseResult.successful.injEq, true_and]
      · simp only [counted, if_false, reduceCtorEq, false_and]

/-- A reader of the bytes gets the result of the method, and nothing from bytes that
were cut short or continued; the bytes of a batch are the count and then what `fetch`
returns for each of its ids. -/
theorem read_bytes_exact :
    (∀ feedId bytes, s.fetchResult ctx feedId = .successful bytes ↔
      ∃ data, s.fetch ctx feedId = .ok data ∧
        Wire.feed.decode .notAllBytesRead bytes = .ok data) ∧
    (∀ feedIds bytes, s.fetchBatchResult ctx feedIds = .successful bytes ↔
      ∃ data, s.fetchBatch ctx feedIds = .ok data ∧
        Wire.feeds.decode .notAllBytesRead bytes = .ok data) ∧
    (∀ feedIds bytes, s.fetchBatchResult ctx feedIds = .successful bytes ↔
      s.onlyReadAccess ctx = .ok () ∧ feedIds.length < 2 ^ 32 ∧
      ∃ parts, List.Forall₂ (fun feedId part => s.fetchResult ctx feedId = .successful part)
          feedIds parts ∧
        bytes = PrefixCodec.littleEndian 4 feedIds.length ++ parts.flatten) ∧
    (∀ feedId bytes, s.fetchResult ctx feedId = .successful bytes ↔
      (s.fetch ctx feedId = .ok none ∧ bytes = [0]) ∨
      ∃ d, s.fetch ctx feedId = .ok (some d) ∧
        bytes = 1 :: (PrefixCodec.littleEndian 16 d.price.toNat ++
          (PrefixCodec.littleEndian 8 d.aggTs.toNat ++
            PrefixCodec.littleEndian 8 d.onchainTs.toNat))) ∧
    (∀ feedId bytes, s.fetchResult ctx feedId = .successful bytes →
      ∀ other, other ≠ bytes → other <+: bytes ∨ bytes <+: other →
        ∃ e, Wire.feed.decode .notAllBytesRead other = .error e) ∧
    (∀ feedIds bytes, s.fetchBatchResult ctx feedIds = .successful bytes →
      ∀ other, other ≠ bytes → other <+: bytes ∨ bytes <+: other →
        ∃ e, Wire.feeds.decode .notAllBytesRead other = .error e) := by
  refine ⟨?_, ?_, ?_, ?_, ?_, ?_⟩
  · intro feedId bytes
    simp only [fetchResult_eq, PrefixCodec.decode_eq_ok, Wire.fits_feed, true_and]
    simp only [@eq_comm _ bytes]
  · intro feedIds bytes
    simp only [fetchBatchResult_eq, PrefixCodec.decode_eq_ok, Wire.fits_feeds]
    simp only [@eq_comm _ bytes]
  · intro feedIds bytes
    rw [fetchBatchResult_eq]
    constructor
    · intro h
      obtain ⟨data, read, counted, whole⟩ := h
      obtain ⟨gate, positions⟩ := fetchBatch_eq_ok.mp read
      have length := positions.length_eq
      refine ⟨gate, length ▸ counted, data.map Wire.feed.write, ?_, ?_⟩
      · rw [List.forall₂_map_right_iff]
        apply positions.imp
        intro feedId d shown
        exact (s.fetchResult_eq ctx).mpr ⟨d, fetch_eq_ok.mpr ⟨gate, shown⟩, rfl⟩
      · rw [← whole, Wire.write_feeds, length, List.flatMap_def]
    · intro h
      obtain ⟨gate, counted, parts, each, whole⟩ := h
      have found : ∃ data, List.Forall₂ (fun feedId d => s.fetch ctx feedId = .ok d) feedIds data ∧
          parts = data.map Wire.feed.write := by
        clear whole counted
        induction each with
        | nil => exact ⟨[], .nil, rfl⟩
        | cons here rest ih =>
            obtain ⟨d, read, part⟩ := (s.fetchResult_eq ctx).mp here
            obtain ⟨data, others, same⟩ := ih
            exact ⟨d :: data, .cons read others, by rw [List.map_cons, part, same]⟩
      obtain ⟨data, reads, same⟩ := found
      have length := reads.length_eq
      refine ⟨data, ?_, length ▸ counted, ?_⟩
      · rw [fetchBatch_of_admitted gate]
        exact Abort.mapM_eq_ok.mpr reads
      · rw [whole, Wire.write_feeds, length, same, List.flatMap_def]
  · intro feedId bytes
    rw [fetchResult_eq, Option.exists, Wire.write_feed_none]
    simp only [Wire.write_feed_some, Wire.write_feedData, @eq_comm _ bytes]
  · intro feedId bytes returned other
    obtain ⟨data, -, whole⟩ := (s.fetchResult_eq ctx).mp returned
    exact Wire.feed.decode_of_prefix .notAllBytesRead (Wire.fits_feed data) whole.symm
  · intro feedIds bytes returned other
    obtain ⟨data, -, counted, whole⟩ := (s.fetchBatchResult_eq ctx).mp returned
    exact Wire.feeds.decode_of_prefix .notAllBytesRead (Wire.fits_feeds.mpr counted) whole.symm

end Results

section Reports
variable (s : MultiFeed Feeds Roles Callers AccountId) (ctx : VMContext AccountId)

/-- When a raw report goes through. -/
theorem callF_success {input : List UInt8} {value : Value AccountId}
    {events : List (ContractEvent AccountId)} :
    (s.callF ctx input).2 = .ran (.success value events) ↔
      ∃ us, us.length < 2 ^ 32 ∧ input = Wire.updates.write us ∧
        (s.step ⟨ctx, .f us⟩).2 = .success value events := by
  rw [callF]
  cases denied : denyDeposit ctx "f" with
  | error panic =>
      simp only [RawOutcome.ran.injEq, reduceCtorEq, false_iff, not_exists, not_and]
      intro us _ _ accepted
      obtain ⟨-, zero, -⟩ := step_f.mp accepted
      have passed : denyDeposit ctx "f" = .ok () := denyDeposit_eq_ok.mpr fun _ => zero
      rw [passed] at denied
      cases denied
  | ok _ =>
      have written (us : List FeedUpdate) : Wire.updates.decode .notAllBytesRead input = .ok us ↔
          us.length < 2 ^ 32 ∧ input = Wire.updates.write us := by
        rw [PrefixCodec.decode_eq_ok, Wire.fits_updates]
      cases decoded : Wire.updates.decode .notAllBytesRead input with
      | error e =>
          simp only [reduceCtorEq, false_iff, not_exists, not_and]
          intro us counted whole
          have read := (written us).mpr ⟨counted, whole⟩
          rw [decoded] at read
          cases read
      | ok us =>
          simp only [RawOutcome.ran.injEq]
          obtain ⟨counted, whole⟩ := (written us).mp decoded
          constructor
          · intro accepted
            exact ⟨us, counted, whole, accepted⟩
          · intro h
            obtain ⟨vs, counted', whole', accepted⟩ := h
            have read := (written vs).mpr ⟨counted', whole'⟩
            rw [decoded] at read
            cases read
            exact accepted

theorem callF_next {us : List FeedUpdate} (counted : us.length < 2 ^ 32) {value : Value AccountId}
    {events : List (ContractEvent AccountId)}
    (accepted : (s.step ⟨ctx, .f us⟩).2 = .success value events) :
    (s.callF ctx (Wire.updates.write us)).1 = (s.step ⟨ctx, .f us⟩).1 := by
  obtain ⟨-, zero, -⟩ := step_f.mp accepted
  have passed : denyDeposit ctx "f" = .ok () := denyDeposit_eq_ok.mpr fun _ => zero
  have decoded : Wire.updates.decode .notAllBytesRead (Wire.updates.write us) = .ok us :=
    Wire.updates.decode_eq_ok.mpr ⟨Wire.fits_updates.mpr counted, rfl⟩
  simp only [callF, passed, decoded]

/-- A raw report that does not go through leaves the state and says nothing. -/
theorem callF_refused {input : List UInt8}
    (refused : ∀ value events, (s.callF ctx input).2 ≠ .ran (.success value events)) :
    (s.callF ctx input).1 = s ∧ (s.callF ctx input).2.events = [] := by
  rw [callF] at refused ⊢
  cases denied : denyDeposit ctx "f" with
  | error panic => exact ⟨rfl, rfl⟩
  | ok _ =>
      simp only [denied] at refused ⊢
      cases decoded : Wire.updates.decode .notAllBytesRead input with
      | error e => exact ⟨rfl, rfl⟩
      | ok us =>
          simp only [decoded] at refused ⊢
          cases ran : (s.step ⟨ctx, .f us⟩).2 with
          | success value events =>
              exact absurd (congrArg RawOutcome.ran ran) (refused value events)
          | failure message => exact ⟨step_refused ran, rfl⟩

/-- The input of `f`, byte for byte: a report goes through exactly if the input is
the encoding of a batch that does; the log then holds the input, and no longer or
shorter input goes through in its place. -/
theorem f_bytes_exact (input : List UInt8) :
    (∀ events, (s.callF ctx input).2 = .ran (.success .unit events) ↔
      ∃ us, us.length < 2 ^ 32 ∧ input = Wire.updates.write us ∧
        (s.step ⟨ctx, .f us⟩).2 = .success .unit events) ∧
    (∀ events, (s.callF ctx input).2 = .ran (.success .unit events) →
      input = Wire.updates.write (feedEntries events) ∧
      input.length = 4 + 28 * (feedEntries events).length ∧
      (s.callF ctx input).1 = (s.step ⟨ctx, .f (feedEntries events)⟩).1 ∧
      ∀ other, other ≠ input → other <+: input ∨ input <+: other →
        (s.callF ctx other).1 = s ∧ ∃ e, (s.callF ctx other).2 = .malformed e) ∧
    ((∀ events, (s.callF ctx input).2 ≠ .ran (.success .unit events)) →
      (s.callF ctx input).1 = s ∧ (s.callF ctx input).2.events = []) := by
  refine ⟨fun events => s.callF_success ctx, ?_, ?_⟩
  · intro events went
    obtain ⟨us, counted, whole, accepted⟩ := (s.callF_success ctx).mp went
    obtain ⟨-, zero, -, -, -, report⟩ := step_f.mp accepted
    have logged : feedEntries events = us := by
      rw [report, feedEntries, List.flatMap_singleton, entries_f]
    have passed : denyDeposit ctx "f" = .ok () := denyDeposit_eq_ok.mpr fun _ => zero
    have fits : Wire.updates.Fits us := Wire.fits_updates.mpr counted
    rw [logged]
    refine ⟨whole, ?_, ?_, ?_⟩
    · rw [whole, Wire.length_write_updates]
    · rw [whole]
      exact s.callF_next ctx counted accepted
    · intro other different related
      obtain ⟨e, unread⟩ :=
        Wire.updates.decode_of_prefix .notAllBytesRead fits whole different related
      simp only [callF, passed, unread]
      exact ⟨trivial, e, rfl⟩
  · intro refused
    apply s.callF_refused ctx
    intro value events went
    obtain ⟨us, -, -, accepted⟩ := (s.callF_success ctx).mp went
    obtain ⟨-, -, -, -, unit, -⟩ := step_f.mp accepted
    rw [unit] at went
    exact refused events went

end Reports

end MultiFeed

end NearMultiFeed
