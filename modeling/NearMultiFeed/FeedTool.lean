import NearMultiFeed.Footprints
import NearMultiFeed.Lib.Decimal
import NearMultiFeed.Lib.JsonCodec
import NearMultiFeed.Wire

/-!
# The feed script

`scripts/src/bin/feed.rs` reports feeds 1 to `count`: a hundred times the feed id,
as of one second before the clock of the machine it runs on. What the contract holds
after any number of its runs, and which runs go through, is decided by their clocks.
The script runs in the dev profile, which checks its arithmetic. Whether the host stops
a call at one of its limits, the gas it was given or the size of a log, is left open.
-/
namespace NearMultiFeed

/-- Why the script stops before it sends anything. -/
inductive FeedToolExit where
  | flagRequired (flag : String)
  | invalidCount
  | noClient (reason : String)
  | invalidAccount
  | multiplyOverflow
  | subtractOverflow
  deriving DecidableEq, Repr

/-- The transaction the script sends: one call without a deposit. -/
structure FunctionCall (AccountId : Type) where
  receiver : AccountId
  signer : AccountId
  methodName : String
  args : List UInt8

/-- One run of the script: its arguments, what `load_feed_client` gives, its clock, and
the time of the block that executes its transaction, if one does and the host does not
stop it at a limit. -/
structure FeedJob (AccountId : Type) where
  args : List String
  client : Except String AccountId
  now : UInt64
  executed : Option UInt64

inductive FeedJobOutcome (AccountId : Type) where
  | exited (why : FeedToolExit)
  /-- No block executes the transaction, or the host stops it. -/
  | notExecuted
  /-- The account given is not the one of the oracle. -/
  | elsewhere
  | executed (outcome : RawOutcome AccountId)
  deriving DecidableEq, Repr

/-- `assert_success` passes. -/
def FeedJobOutcome.succeeded {AccountId : Type} : FeedJobOutcome AccountId → Bool
  | .executed (.ran (.success ..)) => true
  | _ => false

namespace FeedTool

/-! ## The script -/

/-- `config::parse_flag`. -/
def parseFlag (args : List String) (flag : String) : Except FeedToolExit String :=
  match (args.findIdx? (· == flag)).bind fun i => args[i + 1]? with
  | some value => .ok value
  | none => .error (.flagRequired flag)

/-- `u32::from_str`. -/
def parseCount (value : String) : Except FeedToolExit UInt32 :=
  match Decimal.parse (2 ^ 32) value with
  | some count => .ok (UInt32.ofNat count)
  | none => .error .invalidCount

def checkedMul (a b : UInt32) : Except FeedToolExit UInt32 :=
  if a.toNat * b.toNat < 2 ^ 32 then .ok (a * b) else .error .multiplyOverflow

def checkedSub (a b : UInt64) : Except FeedToolExit UInt64 :=
  if b ≤ a then .ok (a - b) else .error .subtractOverflow

/-- The body of the loop; the product is taken as a `u32`. -/
def feedUpdate (now : UInt64) (feedId : UInt32) : Except FeedToolExit FeedUpdate := do
  let price ← checkedMul 100 feedId
  let aggTs ← checkedSub now 1
  return { feedId, price := BitVec.ofNat 128 price.toNat, aggTs }

/-- `1..=count`. -/
def feedIds (count : UInt32) : List UInt32 := (List.range' 1 count.toNat).map UInt32.ofNat

def updates (count : UInt32) (now : UInt64) : Except FeedToolExit (List FeedUpdate) :=
  (feedIds count).mapM (feedUpdate now)

variable {AccountId : Type} (accounts : Spelling AccountId)

/-- `AccountId::from_str`. -/
def parseAccount (value : String) : Except FeedToolExit AccountId :=
  match accounts.parsed value with
  | some account => .ok account
  | none => .error .invalidAccount

/-- The script up to the transaction it sends. -/
def request (job : FeedJob AccountId) : Except FeedToolExit (FunctionCall AccountId) := do
  let account ← parseFlag job.args "--account"
  let count ← parseCount (← parseFlag job.args "--count")
  let reporter ← job.client.mapError .noClient
  let account ← parseAccount accounts account
  let updates ← updates count job.now
  return ⟨account, reporter, "f", Wire.updates.write updates⟩

/-! ## What it sends -/

section Batch
variable {count : UInt32} {now : UInt64} {id : UInt32}

/-- What the script reports about a feed. -/
def entry (now : UInt64) (feedId : UInt32) : FeedUpdate :=
  ⟨feedId, BitVec.ofNat 128 (100 * feedId.toNat), now - 1⟩

theorem feedIds_toNat : (feedIds count).map UInt32.toNat = List.range' 1 count.toNat := by
  have same : ∀ n ∈ List.range' 1 count.toNat, (UInt32.toNat ∘ UInt32.ofNat) n = id n := by
    intro n listed
    have bounds := List.mem_range'_1.mp listed
    have width := count.toNat_lt
    exact UInt32.toNat_ofNat_of_lt' (by change n < 2 ^ 32; omega)
  rw [feedIds, List.map_map, List.map_congr_left same, List.map_id]

theorem mem_feedIds : id ∈ feedIds count ↔ 0 < id ∧ id ≤ count := by
  have listed : id ∈ feedIds count ↔ id.toNat ∈ List.range' 1 count.toNat := by
    rw [← feedIds_toNat]
    exact (List.mem_map_of_injective fun _ _ => UInt32.toNat_inj.mp).symm
  rw [listed, List.mem_range'_1, UInt32.lt_iff_toNat_lt, UInt32.le_iff_toNat_le, UInt32.toNat_zero]
  omega

theorem feedIds_nodup : (feedIds count).Nodup := by
  apply List.Nodup.of_map UInt32.toNat
  rw [feedIds_toNat]
  exact List.nodup_range'

theorem feedUpdate_eq_ok {u : FeedUpdate} :
    feedUpdate now id = .ok u ↔ (100 * id.toNat < 2 ^ 32 ∧ 1 ≤ now) ∧ entry now id = u := by
  have factor : (100 : UInt32).toNat = 100 := rfl
  rw [feedUpdate, checkedMul, checkedSub, factor]
  by_cases fits : 100 * id.toNat < 2 ^ 32
  · have product : (100 * id : UInt32).toNat = 100 * id.toNat := by
      rw [UInt32.toNat_mul, factor, Nat.mod_eq_of_lt fits]
    by_cases later : 1 ≤ now
    · simp only [fits, later, if_true, Abort.ok_bind, Abort.pure_eq_ok, Except.ok.injEq, product,
        true_and, and_self, entry]
    · simp only [fits, later, if_true, if_false, Abort.ok_bind, Abort.error_bind, reduceCtorEq,
        and_false, false_and]
  · simp only [fits, if_false, Abort.error_bind, reduceCtorEq, false_and]

/-- The batch is built if no product overflows and the clock is past 0. -/
theorem updates_eq_ok {us : List FeedUpdate} : updates count now = .ok us ↔
    (∀ id ∈ feedIds count, 100 * id.toNat < 2 ^ 32 ∧ 1 ≤ now) ∧
      (feedIds count).map (entry now) = us := by
  simp only [updates, Abort.mapM_eq_ok, feedUpdate_eq_ok, List.forall₂_and_left,
    ← List.forall₂_eq_eq_eq, List.forall₂_map_left_iff]

end Batch


section Request
variable {AccountId : Type} {accounts : Spelling AccountId} {job : FeedJob AccountId}

theorem request_eq_ok {call : FunctionCall AccountId} : request accounts job = .ok call ↔
    ∃ (text countText : String) (count : UInt32) (us : List FeedUpdate),
      parseFlag job.args "--account" = .ok text ∧ accounts.parsed text = some call.receiver ∧
      parseFlag job.args "--count" = .ok countText ∧ parseCount countText = .ok count ∧
      job.client = .ok call.signer ∧ updates count job.now = .ok us ∧ call.methodName = "f" ∧
      call.args = Wire.updates.write us := by
  have spelled {text : String} {account : AccountId} :
      parseAccount accounts text = .ok account ↔ accounts.parsed text = some account := by
    rw [parseAccount]
    cases accounts.parsed text <;> simp
  have loaded {reporter : AccountId} :
      job.client.mapError FeedToolExit.noClient = .ok reporter ↔ job.client = .ok reporter := by
    cases job.client <;> simp [Except.mapError]
  obtain ⟨receiver, signer, methodName, args⟩ := call
  simp only [request, Abort.bind_eq_ok, Abort.pure_eq_ok, Except.ok.injEq, FunctionCall.mk.injEq,
    spelled, loaded]
  constructor
  · intro h
    obtain ⟨text, given, countText, counted, count, parsed, reporter, client, account, named, us,
      built, rfl, rfl, rfl, rfl⟩ := h
    exact ⟨text, countText, count, us, given, named, counted, parsed, client, built, rfl, rfl⟩
  · intro h
    obtain ⟨text, countText, count, us, given, named, counted, parsed, client, built, rfl, rfl⟩ := h
    exact ⟨text, given, countText, counted, count, parsed, signer, client, receiver, named, us,
      built, rfl, rfl, rfl, rfl⟩

end Request

/-! ## What becomes of it -/

/-- What one run of the script delivers. -/
structure Round where
  count : UInt32
  now : UInt64
  second : UInt64
  deriving DecidableEq, Repr

def Round.Covers (round : Round) (id : UInt32) : Prop := 0 < id ∧ id ≤ round.count

instance (round : Round) (id : UInt32) : Decidable (round.Covers id) :=
  inferInstanceAs (Decidable (_ ∧ _))

/-- What a feed holds after it. -/
def Round.feed (round : Round) (id : UInt32) : StoredFeed :=
  ⟨BitVec.ofNat 128 (100 * id.toNat), round.now - 1, round.second⟩

/-- What it reports. -/
def Round.batch (round : Round) : List FeedUpdate := (feedIds round.count).map (entry round.now)

/-- The last of some rounds that covers a feed. -/
def lastRound (rounds : List Round) (id : UInt32) : Option Round :=
  (rounds.filter fun round => round.Covers id).getLast?

section Runs
variable {Feeds Roles Callers AccountId : Type} [DecidableEq AccountId]
  [LookupMap Feeds UInt32 StoredFeed] [LookupSet Roles AccountId]
  [IterableSet Callers AccountId] (accounts : Spelling AccountId) (oracle : AccountId)

/-- A run of the script, up to `assert_success`. -/
def runJob (self : MultiFeed Feeds Roles Callers AccountId) (job : FeedJob AccountId) :
    MultiFeed Feeds Roles Callers AccountId × FeedJobOutcome AccountId :=
  match request accounts job with
  | .error why => (self, .exited why)
  | .ok call =>
    if call.receiver = oracle ∧ call.methodName = "f" then
      match job.executed with
      | none => (self, .notExecuted)
      | some blockTimestamp =>
        let done := self.callF ⟨some call.signer, 0, blockTimestamp⟩ call.args
        (done.1, .executed done.2)
    else (self, .elsewhere)

/-- The round a run delivers if it succeeds. -/
def roundOf (job : FeedJob AccountId) : Option Round :=
  match parseFlag job.args "--count" >>= parseCount, job.executed with
  | .ok count, some blockTimestamp => some ⟨count, job.now, blockTimestamp / nanosPerSec⟩
  | _, _ => none

/-- A run that sends a well-timed report of a round from a reporter, and is executed. -/
structure Ready (reporters : AccountId → Bool) (job : FeedJob AccountId) (round : Round) :
    Prop where
  account : ∃ text, parseFlag job.args "--account" = .ok text ∧ accounts.parsed text = some oracle
  made : roundOf job = some round
  reporter : ∃ reporter, job.client = .ok reporter ∧ reporters reporter = true
  counted : 0 < round.count
  small : 100 * round.count.toNat < 2 ^ 32
  near : round.now.toNat ≤ round.second.toNat + 60

end Runs

/-! ### One run -/

section Single
variable {Feeds Roles Callers AccountId : Type} [DecidableEq AccountId]
  [LookupMap Feeds UInt32 StoredFeed] [LookupSet Roles AccountId]
  [IterableSet Callers AccountId] {accounts : Spelling AccountId} {oracle : AccountId}
  {t : MultiFeed Feeds Roles Callers AccountId} {job : FeedJob AccountId} {round : Round}

omit [DecidableEq AccountId] in
theorem roundOf_eq_some : roundOf job = some round ↔
    ∃ text time, parseFlag job.args "--count" = .ok text ∧ parseCount text = .ok round.count ∧
      job.now = round.now ∧ job.executed = some time ∧ time / nanosPerSec = round.second := by
  obtain ⟨count, now, second⟩ := round
  rw [roundOf]
  cases counted : parseFlag job.args "--count" >>= parseCount with
  | error why =>
      simp only [reduceCtorEq, false_iff, not_exists, not_and]
      intro text time given parsed
      rw [Abort.bind_eq_ok.mpr ⟨text, given, parsed⟩] at counted
      cases counted
  | ok count' =>
      obtain ⟨text, given, parsed⟩ := Abort.bind_eq_ok.mp counted
      cases ran : job.executed with
      | none => simp only [reduceCtorEq, false_and, and_false, exists_false]
      | some time =>
          simp only [given, Except.ok.injEq, Option.some.injEq, Round.mk.injEq]
          constructor
          · intro same
            obtain ⟨rfl, same⟩ := same
            exact ⟨text, time, rfl, parsed, same.1, rfl, same.2⟩
          · intro h
            obtain ⟨text', time', rfl, parsed', clock, rfl, second'⟩ := h
            rw [parsed, Except.ok.injEq] at parsed'
            exact ⟨parsed', clock, second'⟩

theorem runJob_succeeded : (runJob accounts oracle t job).2.succeeded = true ↔
    ∃ call time value events, request accounts job = .ok call ∧
      (call.receiver = oracle ∧ call.methodName = "f") ∧ job.executed = some time ∧
      (t.callF ⟨some call.signer, 0, time⟩ call.args).2 = .ran (.success value events) ∧
      (t.callF ⟨some call.signer, 0, time⟩ call.args).1 = (runJob accounts oracle t job).1 := by
  have passed {outcome : RawOutcome AccountId} :
      (FeedJobOutcome.executed outcome).succeeded = true ↔
        ∃ value events, outcome = .ran (.success value events) := by
    cases outcome with
    | malformed error => simp [FeedJobOutcome.succeeded]
    | ran outcome => cases outcome <;> simp [FeedJobOutcome.succeeded]
  rw [runJob]
  cases asked : request accounts job with
  | error why => simp [FeedJobOutcome.succeeded]
  | ok call =>
      by_cases ours : call.receiver = oracle ∧ call.methodName = "f"
      · cases ran : job.executed with
        | none => simp [ours, FeedJobOutcome.succeeded]
        | some time => simp [ours, passed]
      · simp [ours, FeedJobOutcome.succeeded]

/-- A run that does not succeed leaves the contract. -/
theorem runJob_idle (failed : (runJob accounts oracle t job).2.succeeded ≠ true) :
    (runJob accounts oracle t job).1 = t := by
  rw [runJob] at failed ⊢
  cases asked : request accounts job with
  | error why => rfl
  | ok call =>
      simp only [asked] at failed ⊢
      split at failed
      · rw [if_pos ‹_›]
        cases ran : job.executed with
        | none => rfl
        | some time =>
            simp only [ran] at failed ⊢
            apply (t.callF_refused _ _).1
            intro value events went
            rw [went] at failed
            exact failed rfl
      · rw [if_neg ‹_›]

theorem length_batch : round.batch.length = round.count.toNat := by
  rw [Round.batch, List.length_map, feedIds, List.length_map, List.length_range']

/-- The script's batch is accepted if its clock is past every feed it covers. -/
theorem accepts_batch {feeds : Feeds} {second : UInt64} (later : 1 ≤ round.now) :
    Accepts feeds second round.batch ↔ ∀ id, round.Covers id →
      prevVersion feeds id + 1 < round.now.toNat ∧ round.now.toNat ≤ second.toNat + 60 := by
  have apart : (round.batch.map FeedUpdate.feedId).Nodup := by
    rw [Round.batch, List.map_map]
    exact feedIds_nodup.map fun _ _ same => same
  have before : (round.now - 1).toNat = round.now.toNat - 1 := UInt64.toNat_sub_of_le _ _ later
  have positive : 1 ≤ round.now.toNat := UInt64.le_iff_toNat_le.mp later
  rw [accepts_iff_of_nodup apart, Round.batch, List.forall_mem_map]
  simp only [mem_feedIds, entry, FeedUpdate.version, before, Round.Covers]
  apply forall_congr'
  intro id
  apply imp_congr_right
  intro _
  omega

/-- A run that succeeds is a call of `f` with its batch. -/
theorem delivered (went : (runJob accounts oracle t job).2.succeeded = true) :
    ∃ round reporter time events, roundOf job = some round ∧ time / nanosPerSec = round.second ∧
      (∃ text, parseFlag job.args "--account" = .ok text ∧ accounts.parsed text = some oracle) ∧
      job.client = .ok reporter ∧
      (∀ id, round.Covers id → 100 * id.toNat < 2 ^ 32 ∧ 1 ≤ round.now) ∧
      (t.step ⟨⟨some reporter, 0, time⟩, .f round.batch⟩).2 = .success .unit events ∧
      (t.step ⟨⟨some reporter, 0, time⟩, .f round.batch⟩).1 = (runJob accounts oracle t job).1 := by
  obtain ⟨call, time, value, events, asked, ⟨here, -⟩, ran, success, next⟩ :=
    runJob_succeeded.mp went
  obtain ⟨text, countText, count, us, given, named, counted, parsed, client, built, -, input⟩ :=
    request_eq_ok.mp asked
  let round : Round := ⟨count, job.now, time / nanosPerSec⟩
  obtain ⟨fits, made⟩ : _ ∧ round.batch = us := updates_eq_ok.mp built
  obtain ⟨us', short, same, accepted⟩ := (t.callF_success _).mp success
  have length : us.length < 2 ^ 32 := by
    rw [← made, length_batch]
    exact count.toNat_lt
  have equal : us' = us := by
    apply Wire.updates.write_inj (Wire.fits_updates.mpr short) (Wire.fits_updates.mpr length)
    rw [← same, input]
  subst equal
  have unit : value = .unit := (MultiFeed.step_f.mp accepted).2.2.2.2.1
  subst unit
  rw [← made] at accepted
  refine ⟨round, call.signer, time, events, ?_, rfl, ⟨text, given, here ▸ named⟩, client, ?_,
    accepted, ?_⟩
  · exact roundOf_eq_some.mpr ⟨countText, time, counted, parsed, rfl, ran, rfl⟩
  · intro id covered
    exact fits id (mem_feedIds.mpr covered)
  · rw [← next, input, ← made]
    rw [← made] at length
    exact (t.callF_next _ length accepted).symm

/-- The last feed of a round is covered, unless there is none. -/
theorem covers_count (counted : 0 < round.count) : round.Covers round.count :=
  ⟨counted, UInt32.le_refl round.count⟩

/-- A run that is ready and late enough goes through. -/
theorem Ready.succeeds (ready : Ready accounts oracle t.isPriceReporter job round)
    (newer : ∀ id, round.Covers id → prevVersion t.feeds id + 1 < round.now.toNat) :
    (runJob accounts oracle t job).2.succeeded = true := by
  obtain ⟨reporter, client, member⟩ := ready.reporter
  obtain ⟨text, given, named⟩ := ready.account
  obtain ⟨countText, time, counted, parsed, clock, ran, second⟩ := roundOf_eq_some.mp ready.made
  have last := newer _ (covers_count ready.counted)
  have later : 1 ≤ round.now := by
    rw [UInt64.le_iff_toNat_le]
    exact Nat.le_of_lt (Nat.lt_of_le_of_lt (Nat.le_add_left 1 _) last)
  have built : updates round.count job.now = .ok round.batch := by
    rw [clock]
    apply updates_eq_ok.mpr
    refine ⟨?_, rfl⟩
    intro id listed
    have below := UInt32.le_iff_toNat_le.mp (mem_feedIds.mp listed).2
    have small := ready.small
    exact ⟨by omega, later⟩
  have asked : request accounts job =
      .ok ⟨oracle, reporter, "f", Wire.updates.write round.batch⟩ :=
    request_eq_ok.mpr ⟨text, countText, round.count, round.batch, given, named, counted, parsed,
      client, built, rfl, rfl⟩
  have some_updates : round.batch ≠ [] := by
    apply List.ne_nil_of_length_pos
    rw [length_batch]
    exact UInt32.lt_iff_toNat_lt.mp ready.counted
  have good : Accepts t.feeds (time / nanosPerSec) round.batch := by
    apply (accepts_batch later).mpr
    intro id covered
    rw [second]
    exact ⟨newer id covered, ready.near⟩
  have accepted : (t.step ⟨⟨some reporter, 0, time⟩, .f round.batch⟩).2 = .success .unit _ :=
    MultiFeed.step_f.mpr ⟨⟨reporter, rfl, member⟩, rfl, some_updates, good, rfl, rfl⟩
  have short : round.batch.length < 2 ^ 32 := by
    rw [length_batch]
    exact round.count.toNat_lt
  have went : (t.callF ⟨some reporter, 0, time⟩ (Wire.updates.write round.batch)).2 =
      .ran (.success .unit _) :=
    (t.callF_success _).mpr ⟨round.batch, short, rfl, accepted⟩
  exact runJob_succeeded.mpr ⟨_, time, .unit, _, asked, ⟨rfl, rfl⟩, ran, went, by
    simp only [runJob, asked, and_self, if_true, ran]⟩

/-- When a run goes through. -/
theorem succeeded_iff : (runJob accounts oracle t job).2.succeeded = true ↔
    ∃ round, Ready accounts oracle t.isPriceReporter job round ∧
      ∀ id, round.Covers id → prevVersion t.feeds id + 1 < round.now.toNat := by
  constructor
  · intro went
    obtain ⟨round, reporter, time, events, made, second, account, client, fits, accepted, -⟩ :=
      delivered went
    obtain ⟨⟨caller, called, member⟩, -, some_updates, good, -⟩ := MultiFeed.step_f.mp accepted
    cases called
    have counted : 0 < round.count := by
      rw [UInt32.lt_iff_toNat_lt, ← length_batch]
      exact List.length_pos_of_ne_nil some_updates
    obtain ⟨small, later⟩ := fits _ (covers_count counted)
    have clock := (accepts_batch later).mp good
    refine ⟨round, ⟨account, made, ⟨reporter, client, member⟩, counted, small, ?_⟩, ?_⟩
    · rw [← second]
      exact (clock _ (covers_count counted)).2
    · intro id covered
      exact (clock id covered).1
  · intro h
    obtain ⟨round, ready, newer⟩ := h
    exact ready.succeeds newer

/-- What a run leaves that goes through. -/
theorem feeds_delivered (settled : LookupMap.flush t.feeds = t.feeds)
    (went : (runJob accounts oracle t job).2.succeeded = true) (made : roundOf job = some round)
    (id : UInt32) : LookupMap.get (runJob accounts oracle t job).1.feeds id =
      (if round.Covers id then some (round.feed id) else none).or (LookupMap.get t.feeds id) := by
  obtain ⟨round', reporter, time, events, made', second, -, -, fits, accepted, next⟩ :=
    delivered went
  rw [made, Option.some.injEq] at made'
  subst made'
  have batch : round.batch = (feedIds round.count).map (entry round.now) := rfl
  rw [← next, MultiFeed.step_f_next accepted, get_flush_insertAll, latest_writes, settled, batch,
    KeyedLog.latest_of_keys FeedUpdate.feedId fun _ => rfl]
  by_cases covered : round.Covers id
  · obtain ⟨small, later⟩ := fits id covered
    obtain ⟨-, -, -, good, -⟩ := MultiFeed.step_f.mp accepted
    have near := ((accepts_batch later).mp good id covered).2
    have early := blockSecond_lt (⟨some reporter, 0, time⟩ : VMContext AccountId)
    have before : (round.now - 1).toNat = round.now.toNat - 1 := UInt64.toNat_sub_of_le _ _ later
    have kept : (round.feed id).persisted = round.feed id := by
      apply (StoredFeed.persisted_eq_self_iff _).mpr
      refine ⟨?_, ?_, ?_⟩
      · exact Nat.lt_of_le_of_lt (Nat.mod_le _ _) (by omega)
      · change (round.now - 1).toNat < 2 ^ 48
        omega
      · change round.second.toNat < 2 ^ 48
        rw [← second]
        exact Nat.lt_trans early (by decide)
    rw [if_pos covered, if_pos (mem_feedIds.mpr covered), ← kept, Round.feed, ← second]
    rfl
  · rw [if_neg covered, if_neg (fun listed => covered (mem_feedIds.mp listed))]
    rfl

end Single

/-! ### Many runs -/

/-- What reaches the contract: a run of the script, or another call. -/
inductive Move (AccountId : Type) where
  | feed (job : FeedJob AccountId)
  | call (tx : Transaction AccountId)

/-- Only the script reports. -/
def Move.Quiet {AccountId : Type} : Move AccountId → Prop
  | .feed _ => True
  | .call tx => ∀ us, tx.call ≠ .f us

/-- The round a move delivered. -/
def Move.delivered {AccountId : Type} :
    Move AccountId × Option (FeedJobOutcome AccountId) → Option Round
  | (.feed job, some outcome) => if outcome.succeeded then roundOf job else none
  | _ => none

section Moves
variable {Feeds Roles Callers AccountId : Type} [DecidableEq AccountId]
  [LookupMap Feeds UInt32 StoredFeed] [LookupSet Roles AccountId]
  [IterableSet Callers AccountId] (accounts : Spelling AccountId) (oracle : AccountId)

/-- One move. -/
def react (self : MultiFeed Feeds Roles Callers AccountId) :
    Move AccountId →
      MultiFeed Feeds Roles Callers AccountId × Option (FeedJobOutcome AccountId)
  | .feed job =>
    let done := runJob accounts oracle self job
    (done.1, some done.2)
  | .call tx => ((self.step tx).1, none)

def after (s : MultiFeed Feeds Roles Callers AccountId) (moves : List (Move AccountId)) :
    MultiFeed Feeds Roles Callers AccountId :=
  Machine.run (react accounts oracle) s moves

/-- The rounds delivered, in order. -/
def rounds (s : MultiFeed Feeds Roles Callers AccountId) (moves : List (Move AccountId)) :
    List Round :=
  (Machine.trace (react accounts oracle) s moves).filterMap Move.delivered

theorem after_concat (s : MultiFeed Feeds Roles Callers AccountId) (moves : List (Move AccountId))
    (m : Move AccountId) : after accounts oracle s (moves ++ [m]) =
      (react accounts oracle (after accounts oracle s moves) m).1 := by
  rw [after, Machine.run_append]
  rfl

theorem rounds_concat (s : MultiFeed Feeds Roles Callers AccountId)
    (moves : List (Move AccountId)) (m : Move AccountId) :
    rounds accounts oracle s (moves ++ [m]) = rounds accounts oracle s moves ++
      (Move.delivered (m, (react accounts oracle (after accounts oracle s moves) m).2)).toList := by
  let answer := (react accounts oracle (after accounts oracle s moves) m).2
  have one : [(m, answer)].filterMap Move.delivered = (Move.delivered (m, answer)).toList := by
    cases made : Move.delivered (m, answer) <;> simp [made]
  rw [← one, rounds, Machine.trace_append, List.filterMap_append]
  rfl

end Moves

section LastRound
variable {past : List Round} {round r : Round} {id : UInt32}

theorem lastRound_concat : lastRound (past ++ [round]) id =
    if round.Covers id then some round else lastRound past id := by
  by_cases covered : round.Covers id
  · rw [lastRound, List.filter_append, List.filter_singleton]
    simp [covered]
  · rw [lastRound, List.filter_append, List.filter_singleton]
    simp [covered, lastRound]

theorem lastRound_mem (last : lastRound past id = some round) :
    round ∈ past ∧ round.Covers id := by
  have listed := List.mem_of_getLast? last
  simpa using listed

theorem exists_lastRound (listed : r ∈ past) (covered : r.Covers id) :
    ∃ round, lastRound past id = some round := by
  have there : r ∈ past.filter fun round => round.Covers id := by simp [listed, covered]
  exact ⟨_, List.getLast?_eq_some_getLast (List.ne_nil_of_mem there)⟩

/-- Among ascending rounds the last is the newest. -/
theorem le_lastRound (ascending : past.Pairwise fun r r' => r.now < r'.now)
    (last : lastRound past id = some round) (listed : r ∈ past) (covered : r.Covers id) :
    r.now ≤ round.now := by
  have there : r ∈ past.filter fun round => round.Covers id := by simp [listed, covered]
  obtain ⟨front, split⟩ := List.getLast?_eq_some_iff.mp last
  have ordered := ascending.filter (fun round => round.Covers id)
  rw [split] at there ordered
  rcases List.mem_append.mp there with older | itself
  · exact UInt64.le_of_lt ((List.pairwise_append.mp ordered).2.2 r older round
      List.mem_cons_self)
  · rw [List.mem_singleton.mp itself]
    exact UInt64.le_refl _

end LastRound

section History
variable {Feeds Roles Callers AccountId : Type} [DecidableEq AccountId]
  [LookupMap Feeds UInt32 StoredFeed] [LookupSet Roles AccountId]
  [IterableSet Callers AccountId] {accounts : Spelling AccountId} {oracle : AccountId}
  {s t : MultiFeed Feeds Roles Callers AccountId} {past : List Round} {round : Round}

/-- From `s` the script has delivered some rounds, and `t` is what they left. -/
structure Follows (s : MultiFeed Feeds Roles Callers AccountId) (past : List Round)
    (t : MultiFeed Feeds Roles Callers AccountId) : Prop where
  wellFormed : MultiFeed.WellFormed t
  ascending : past.Pairwise fun r r' => r.now < r'.now
  counted : ∀ r ∈ past, 0 < r.count
  newer : ∀ r ∈ past, ∀ id, r.Covers id → prevVersion s.feeds id + 1 < r.now.toNat
  feeds : ∀ id, LookupMap.get t.feeds id =
    ((lastRound past id).map fun round => round.feed id).or (LookupMap.get s.feeds id)

omit [DecidableEq AccountId] [LookupSet Roles AccountId] [IterableSet Callers AccountId] in
theorem lastRound_newer (newer : ∀ r ∈ past, ∀ id, r.Covers id →
      prevVersion s.feeds id + 1 < r.now.toNat) {id : UInt32}
    (last : lastRound past id = some round) : prevVersion s.feeds id + 1 < round.now.toNat := by
  obtain ⟨listed, covered⟩ := lastRound_mem last
  exact newer round listed id covered

omit [DecidableEq AccountId] [LookupSet Roles AccountId] [IterableSet Callers AccountId] in
/-- What the next report of a feed has to be newer than. -/
theorem Follows.version (h : Follows s past t) (id : UInt32) :
    (lastRound past id = none ∧ prevVersion t.feeds id = prevVersion s.feeds id) ∨
      ∃ r, lastRound past id = some r ∧ prevVersion t.feeds id + 1 = r.now.toNat := by
  rw [prevVersion, prevAggTs, h.feeds id]
  cases last : lastRound past id with
  | none => exact .inl ⟨rfl, rfl⟩
  | some r =>
      have newer := lastRound_newer h.newer last
      have later : 1 ≤ r.now.toNat := by omega
      have before : (r.now - 1).toNat = r.now.toNat - 1 :=
        UInt64.toNat_sub_of_le _ _ (UInt64.le_iff_toNat_le.mpr later)
      refine .inr ⟨r, rfl, ?_⟩
      change (r.now - 1).toNat + 1 = r.now.toNat
      omega

omit [DecidableEq AccountId] [LookupSet Roles AccountId] [IterableSet Callers AccountId] in
/-- Every round covers feed 1, so a round is newer than all it covers exactly if it is
newer than they were at first and than all rounds before it. -/
theorem Follows.newer_iff (h : Follows s past t) (counted : 0 < round.count) :
    (∀ id, round.Covers id → prevVersion t.feeds id + 1 < round.now.toNat) ↔
      (∀ id, round.Covers id → prevVersion s.feeds id + 1 < round.now.toNat) ∧
        ∀ r ∈ past, r.now < round.now := by
  have first {r : Round} (positive : 0 < r.count) : r.Covers 1 := by
    refine ⟨by decide, ?_⟩
    rw [UInt32.lt_iff_toNat_lt] at positive
    exact UInt32.le_iff_toNat_le.mpr positive
  constructor
  · intro newer
    constructor
    · intro id covered
      have here := newer id covered
      rcases h.version id with ⟨-, same⟩ | ⟨r, last, clock⟩
      · rw [← same]
        exact here
      · have before := lastRound_newer h.newer last
        omega
    · intro r listed
      have covered := first (h.counted r listed)
      have here := newer 1 (first counted)
      rcases h.version 1 with ⟨never, -⟩ | ⟨last, found, clock⟩
      · obtain ⟨r', found⟩ := exists_lastRound listed covered
        rw [never] at found
        cases found
      · have upTo := UInt64.le_iff_toNat_le.mp (le_lastRound h.ascending found listed covered)
        rw [UInt64.lt_iff_toNat_lt]
        omega
  · intro both
    obtain ⟨newer, latest⟩ := both
    intro id covered
    rcases h.version id with ⟨-, same⟩ | ⟨r, last, clock⟩
    · rw [same]
      exact newer id covered
    · rw [clock]
      exact UInt64.lt_iff_toNat_lt.mp (latest r (lastRound_mem last).1)

/-- A run of the script, whether it goes through or not. -/
theorem Follows.feed (h : Follows s past t) (job : FeedJob AccountId) :
    Follows s (past ++ (Move.delivered (.feed job,
      some (runJob accounts oracle t job).2)).toList) (runJob accounts oracle t job).1 := by
  by_cases went : (runJob accounts oracle t job).2.succeeded = true
  · obtain ⟨round, ready, newer⟩ := succeeded_iff.mp went
    obtain ⟨fresh, latest⟩ := (h.newer_iff ready.counted).mp newer
    have one : Move.delivered (.feed job, some (runJob accounts oracle t job).2) =
        some round := by
      rw [Move.delivered, if_pos went, ready.made]
    rw [one, Option.toList_some]
    have either {r : Round} (listed : r ∈ past ++ [round]) : r ∈ past ∨ r = round :=
      (List.mem_append.mp listed).imp_right List.mem_singleton.mp
    refine ⟨?_, ?_, ?_, ?_, ?_⟩
    · obtain ⟨round, reporter, time, events, -, -, -, -, -, -, next⟩ := delivered went
      rw [← next]
      exact h.wellFormed.step _
    · apply List.pairwise_append.mpr
      refine ⟨h.ascending, List.pairwise_singleton _ _, ?_⟩
      intro r listed r' last
      rw [List.mem_singleton.mp last]
      exact latest r listed
    · intro r listed
      rcases either listed with earlier | rfl
      · exact h.counted r earlier
      · exact ready.counted
    · intro r listed
      rcases either listed with earlier | rfl
      · exact h.newer r earlier
      · exact fresh
    · intro id
      rw [feeds_delivered h.wellFormed.flushed went ready.made, lastRound_concat, h.feeds id]
      by_cases covered : round.Covers id
      · rw [if_pos covered, if_pos covered]
        rfl
      · rw [if_neg covered, if_neg covered]
        rfl
  · have nothing : Move.delivered (.feed job, some (runJob accounts oracle t job).2) = none :=
      if_neg went
    rw [nothing, Option.toList_none, List.append_nil, runJob_idle went]
    exact h

/-- Another call changes no feed. -/
theorem Follows.call (h : Follows s past t) {tx : Transaction AccountId}
    (quiet : ∀ us, tx.call ≠ .f us) : Follows s past (t.step tx).1 where
  wellFormed := h.wellFormed.step tx
  ascending := h.ascending
  counted := h.counted
  newer := h.newer
  feeds id := by
    have unwritten : .feed id ∉ tx.call.writes := by
      obtain ⟨ctx, call⟩ := tx
      cases call <;> simp_all [Call.writes, memberFields]
    exact (MultiFeed.step_frame h.wellFormed tx _ unwritten).trans (h.feeds id)

theorem Follows.next (h : Follows s past t) {m : Move AccountId} (quiet : m.Quiet) :
    Follows s (past ++ (Move.delivered (m, (react accounts oracle t m).2)).toList)
      (react accounts oracle t m).1 := by
  cases m with
  | feed job => exact h.feed job
  | call tx =>
      have nothing : Move.delivered (.call tx, (react accounts oracle t (.call tx)).2) =
          none := rfl
      rw [nothing, Option.toList_none, List.append_nil]
      exact h.call quiet

theorem Follows.run (wf : MultiFeed.WellFormed s) {moves : List (Move AccountId)}
    (quiet : ∀ m ∈ moves, m.Quiet) :
    Follows s (rounds accounts oracle s moves) (after accounts oracle s moves) := by
  induction moves using List.reverseRecOn with
  | nil =>
      have none_yet {P : Round → Prop} : ∀ r ∈ ([] : List Round), P r :=
        fun _ wrong => absurd wrong List.not_mem_nil
      exact ⟨wf, List.Pairwise.nil, none_yet, none_yet, fun _ => rfl⟩
  | append_singleton moves m ih =>
      have before := ih fun m' earlier => quiet m' (List.mem_append_left _ earlier)
      have last := quiet m (List.mem_append_right _ (List.mem_singleton.mpr rfl))
      rw [rounds_concat, after_concat]
      exact before.next last

/-- While only the script reports, every feed holds what the last round that covers it
delivered, the rounds delivered ascend, and the next run goes through exactly if it is
ready, its clock is past that of every round before it, and the second before its clock
is past the feeds it covers as they were at first. -/
theorem feed_jobs_exact (reachable : MultiFeed.Reachable s) {moves : List (Move AccountId)}
    (quiet : ∀ m ∈ moves, m.Quiet) :
    let t := after accounts oracle s moves
    let past := rounds accounts oracle s moves
    (∀ id, LookupMap.get t.feeds id =
      ((lastRound past id).map fun round => round.feed id).or (LookupMap.get s.feeds id)) ∧
    (past.Pairwise fun r r' => r.now < r'.now) ∧
    ∀ job, ((runJob accounts oracle t job).2.succeeded = true ↔
        ∃ round, Ready accounts oracle t.isPriceReporter job round ∧
          (∀ id, round.Covers id → prevVersion s.feeds id + 1 < round.now.toNat) ∧
          ∀ r ∈ past, r.now < round.now) ∧
      ((runJob accounts oracle t job).2.succeeded ≠ true →
        (runJob accounts oracle t job).1 = t) := by
  intro t past
  have follows : Follows s past t := Follows.run reachable.wellFormed quiet
  refine ⟨follows.feeds, follows.ascending, ?_⟩
  intro job
  refine ⟨?_, runJob_idle⟩
  rw [succeeded_iff]
  apply exists_congr
  intro round
  apply and_congr_right
  intro ready
  exact follows.newer_iff ready.counted

end History

/-- A run of the script on the sample, by its reporter. -/
def sampleJob (count : String) (now second : UInt64) : FeedJob String where
  args := ["feed", "--account", "oracle.near", "--count", count]
  client := .ok "reporter.near"
  now
  executed := some (second * 1000000000)

theorem feed_jobs_exact_sample :
    let accounts : Spelling String := ⟨id, some, fun _ => rfl⟩
    let moves := [.feed (sampleJob "3" 161 160), .feed (sampleJob "2" 163 162)]
    let t := after accounts "oracle.near" MultiFeed.sample moves
    LookupMap.get t.feeds 2 = some ⟨200, 162, 162⟩ ∧
      LookupMap.get t.feeds 3 = some ⟨300, 160, 160⟩ ∧
      (runJob accounts "oracle.near" t (sampleJob "3" 163 164)).1 = t := by
  intro accounts moves t
  have quiet : ∀ m ∈ moves, m.Quiet := by
    intro m hm
    simp only [moves, List.mem_cons, List.not_mem_nil, or_false] at hm
    rcases hm with rfl | rfl
    · exact trivial
    · exact trivial
  have delivered : rounds accounts "oracle.near" MultiFeed.sample moves =
      [⟨3, 161, 160⟩, ⟨2, 163, 162⟩] := by decide +kernel
  obtain ⟨feeds, -, jobs⟩ : (∀ id, LookupMap.get t.feeds id = _) ∧ _ :=
    feed_jobs_exact MultiFeed.sample_reachable quiet
  rw [delivered] at feeds jobs
  obtain ⟨when, idle⟩ := jobs (sampleJob "3" 163 164)
  refine ⟨feeds 2, feeds 3, idle ?_⟩
  intro went
  obtain ⟨round, ready, -, latest⟩ := when.mp went
  have clock : round.now = 163 := by
    obtain ⟨_, _, -, -, same, -⟩ := roundOf_eq_some.mp ready.made
    exact same.symm
  have newer := latest ⟨2, 163, 162⟩ (by decide)
  rw [clock] at newer
  exact absurd newer (by decide)

end FeedTool

end NearMultiFeed
