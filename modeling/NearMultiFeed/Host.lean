import Mathlib.Algebra.Group.Nat.Defs
import NearMultiFeed.NearSdk

/-!
# The host around a call

What a method reads from the runtime, and every way a call can abort. A panic
aborts the whole call: the runtime drops its state changes and its events.
-/
namespace NearMultiFeed

/-- The panics of `lib.rs`, of the code near-sdk wraps around a method, and of
the host. -/
inductive Panic where
  | openReadWithCallers
  | alreadyAuthorizedCaller
  | onlyPriceReporter
  | emptyFeedData
  | timestampOutOfBounds (feedId : UInt32) (prevAggTs now : UInt64)
  | onlyOwner
  | sameOwner
  | emptyUpdates
  | onlyProduct
  | onlyAdmin
  | alreadyInTargetState
  | enforcedPaused
  | onlyAuthorizedCaller
  | malformedFeedId
  | invalidHexFeedId
  | alreadyInRole
  | notInRole
  /-- `assert_one_yocto` of near-sdk. -/
  | notOneYocto
  /-- The guard near-sdk puts before a method that is not `#[payable]`. -/
  | depositRefused (method : String)
  /-- The guard near-sdk puts before an `#[init]` method. -/
  | alreadyInitialized
  /-- Rust's checked addition; the release profile keeps `overflow-checks`. -/
  | addOverflow
  /-- The host refuses some reads in a view call. -/
  | prohibitedInView (method : String)
  deriving DecidableEq, Repr

/-- The text a caller sees. -/
def Panic.message : Panic → String
  | .openReadWithCallers => "Open read incompatible with authorized callers"
  | .alreadyAuthorizedCaller => "Already an authorized caller"
  | .onlyPriceReporter => "Only a price reporter can call"
  | .emptyFeedData => "Empty feed data"
  | .timestampOutOfBounds feedId prevAggTs now =>
      s!"Report timestamp out of bounds: feed_id={feedId}, prev_agg_ts={prevAggTs}, now={now}"
  | .onlyOwner => "Only the owner can call"
  | .sameOwner => "New owner must differ from the current owner"
  | .emptyUpdates => "Empty updates array"
  | .onlyProduct => "Only a product can call"
  | .onlyAdmin => "Only an admin can call"
  | .alreadyInTargetState => "Already in target state"
  | .enforcedPaused => "Enforced paused"
  | .onlyAuthorizedCaller => "Only authorized caller allowed"
  | .malformedFeedId => "Feed id must be 0x followed by exactly 8 hex digits"
  | .invalidHexFeedId => "Invalid hex feed id"
  | .alreadyInRole => "Already in role"
  | .notInRole => "Not in role"
  | .notOneYocto => "Requires attached deposit of exactly 1 yoctoNEAR"
  | .depositRefused method => s!"Method {method} doesn't accept deposit"
  | .alreadyInitialized => "The contract has already been initialized"
  | .addOverflow => "attempt to add with overflow"
  | .prohibitedInView method => s!"{method} is not allowed in view calls"

/-- What a call reads from the runtime. A view call has no predecessor. -/
structure VMContext (AccountId : Type) where
  predecessor : Option AccountId
  deposit : BitVec 128
  blockTimestamp : UInt64

section Env
variable {AccountId : Type} (ctx : VMContext AccountId)

/-- `near_sdk::require!`. -/
def require (condition : Bool) (panic : Panic) : Except Panic Unit :=
  if condition then .ok () else .error panic

/-- `env::predecessor_account_id`. -/
def VMContext.predecessorAccountId : Except Panic AccountId :=
  match ctx.predecessor with
  | some account => .ok account
  | none => .error (.prohibitedInView "predecessor_account_id")

/-- `env::attached_deposit`. Nothing is attached to a view call. -/
def VMContext.attachedDeposit : BitVec 128 :=
  match ctx.predecessor with
  | some _ => ctx.deposit
  | none => 0

/-- `near_sdk::assert_one_yocto`. -/
def assertOneYocto : Except Panic Unit := require (ctx.attachedDeposit == 1) .notOneYocto

/-- The first lines near-sdk generates for a method that is not `#[payable]`. -/
def denyDeposit (method : String) : Except Panic Unit :=
  require (ctx.attachedDeposit == 0) (.depositRefused method)

end Env

/-- `a + b` on `u64` under `overflow-checks = true`. -/
def checkedAdd (a b : UInt64) : Except Panic UInt64 :=
  if a.toNat + b.toNat < 2 ^ 64 then .ok (a + b) else .error .addOverflow

end NearMultiFeed
