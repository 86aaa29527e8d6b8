import NearMultiFeed.Events
import NearMultiFeed.Host

/-!
# The contract

`lib.rs`, method by method. A method takes the state, the context and its
arguments; it either panics or gives the state after it and the events it
emitted, in order. Getters that cannot panic are plain functions.
-/
namespace NearMultiFeed

/-- Seconds a reported timestamp must stay below, past the block time. -/
def maxFutureDriftThreshold : UInt64 := 60
def nanosPerSec : UInt64 := 1000000000
def feedIdHexStrLen : Nat := 10

/-- The contract state; the collections are the SDK types it is built on. -/
structure MultiFeed (Feeds Roles Callers AccountId : Type) where
  feeds : Feeds
  flags : Flags
  owner : AccountId
  description : String
  admin : Roles
  products : Roles
  priceReporters : Roles
  authorizedCallers : Callers

/-! ## Feed ids -/

/-- The bytes of a Rust `str`. -/
def strBytes (s : String) : List UInt8 := s.toByteArray.data.toList

/-- `char::to_digit(16)` of one byte. -/
def hexDigit (b : UInt8) : Option Nat :=
  if 0x30 ≤ b ∧ b ≤ 0x39 then some (b.toNat - 0x30)
  else if 0x61 ≤ b ∧ b ≤ 0x66 then some (b.toNat - 0x61 + 10)
  else if 0x41 ≤ b ∧ b ≤ 0x46 then some (b.toNat - 0x41 + 10)
  else none

/-- The digit loop of `from_str_radix`; a value past `u32::MAX` is an error. -/
def hexDigits (acc : Nat) : List UInt8 → Option Nat
  | [] => some acc
  | b :: bs => do
    let digit ← hexDigit b
    let next := acc * 16 + digit
    if next < 2 ^ 32 then hexDigits next bs else none

/-- `u32::from_str_radix(src, 16)`: no input and a lone sign are errors, one
leading `+` is skipped, and a `-` is read as a digit, hence an error too. -/
def fromStrRadix16 (src : List UInt8) : Option UInt32 :=
  match src with
  | [] => none
  | [0x2b] => none
  | 0x2b :: digits => (hexDigits 0 digits).map UInt32.ofNat
  | digits => (hexDigits 0 digits).map UInt32.ofNat

def parseFeedId (s : String) : Except Panic UInt32 := do
  let bytes := strBytes s
  require (bytes.length == feedIdHexStrLen && (strBytes "0x").isPrefixOf bytes) .malformedFeedId
  match fromStrRadix16 (bytes.drop 2) with
  | some v => return v
  | none => throw .invalidHexFeedId

section Roles
variable {Roles Callers AccountId : Type} [LookupSet Roles AccountId]
  [IterableSet Callers AccountId]

/-- Strict update: redundant changes panic. -/
def updateRoleMember (set : Roles) (account : AccountId) (status : Bool)
    (eventFn : AccountId → Bool → ContractEvent AccountId) :
    Except Panic (Roles × ContractEvent AccountId) :=
  if status then do
    let inserted := LookupSet.insert set account
    require inserted.1 .alreadyInRole
    return (inserted.2, eventFn account status)
  else do
    let removed := LookupSet.remove set account
    require removed.1 .notInRole
    return (removed.2, eventFn account status)

/-- `for update in updates { update_role_member(..) }`. -/
def updateRoleMembers (eventFn : AccountId → Bool → ContractEvent AccountId) (set : Roles) :
    List (RoleUpdate AccountId) → Except Panic (Roles × List (ContractEvent AccountId))
  | [] => return (set, [])
  | update :: updates => do
    let (set, event) ← updateRoleMember set update.account update.status eventFn
    let (set, log) ← updateRoleMembers eventFn set updates
    return (set, event :: log)

def initLookupSetRole (addrs : List AccountId)
    (eventFn : AccountId → Bool → ContractEvent AccountId) :
    Except Panic (Roles × List (ContractEvent AccountId)) :=
  updateRoleMembers eventFn LookupSet.new (addrs.map fun addr => ⟨addr, true⟩)

/-- The whitelist loop of `new`: a duplicate panics. -/
def initAuthorizedCallers (set : Callers) :
    List AccountId → Except Panic (Callers × List (ContractEvent AccountId))
  | [] => return (set, [])
  | addr :: addrs => do
    let inserted := LookupSet.insert set addr
    require inserted.1 .alreadyAuthorizedCaller
    let (set, log) ← initAuthorizedCallers inserted.2 addrs
    return (set, .authorizedCallerStatusChanged addr true :: log)

/-- The whitelist loop of `set_authorized_callers`: a redundant update is
skipped without an event. -/
def updateAuthorizedCallers (set : Callers) :
    List (RoleUpdate AccountId) → Callers × List (ContractEvent AccountId)
  | [] => (set, [])
  | update :: updates =>
    let changed :=
      if update.status then LookupSet.insert set update.account
      else LookupSet.remove set update.account
    let rest := updateAuthorizedCallers changed.2 updates
    (rest.1, if changed.1
      then .authorizedCallerStatusChanged update.account update.status :: rest.2
      else rest.2)

end Roles

/-- What the loop of `f` carries: the feeds it writes, the arrays it fills. -/
structure FeedBatch (Feeds : Type) where
  feeds : Feeds
  feedIds : List UInt32
  prices : List U128
  aggTs : List UInt64

namespace MultiFeed

variable {Feeds Roles Callers AccountId : Type} [DecidableEq AccountId]
  [LookupMap Feeds UInt32 StoredFeed] [LookupSet Roles AccountId]
  [IterableSet Callers AccountId]

def new (owner : AccountId) (openReadEnabled : Bool) (description : String)
    (admins products priceReporters authorizedCallers : List AccountId) :
    Except Panic (MultiFeed Feeds Roles Callers AccountId × List (ContractEvent AccountId)) := do
  require (!openReadEnabled || authorizedCallers.isEmpty) .openReadWithCallers
  let flags := Flags.new false openReadEnabled
  let log := [.ownershipTransferred none owner, .openReadStatusChanged openReadEnabled]
  let (admin, adminLog) ← initLookupSetRole admins .adminStatusChanged
  let (products, productLog) ← initLookupSetRole products .productStatusChanged
  let (priceReporters, reporterLog) ←
    initLookupSetRole priceReporters .priceReporterStatusChanged
  let (authorizedCallers, callerLog) ← initAuthorizedCallers LookupSet.new authorizedCallers
  return ({ feeds := LookupMap.new, flags, owner, description, admin, products,
            priceReporters, authorizedCallers },
    log ++ adminLog ++ productLog ++ reporterLog ++ callerLog)

/-- One pass of the loop of `f`. The sum is evaluated only when the first
comparison does not already decide. -/
def fEntry (now : UInt64) (batch : FeedBatch Feeds) (u : FeedUpdate) :
    Except Panic (FeedBatch Feeds) := do
  let prevAggTs := ((LookupMap.get batch.feeds u.feedId).map (·.aggTs)).getD 0
  let outOfBounds ←
    if u.aggTs ≤ prevAggTs then pure true
    else do
      let bound ← checkedAdd now maxFutureDriftThreshold
      pure (decide (u.aggTs ≥ bound))
  if outOfBounds then throw (.timestampOutOfBounds u.feedId prevAggTs now)
  return { feeds := LookupMap.insert batch.feeds u.feedId ⟨u.price, u.aggTs, now⟩
           feedIds := batch.feedIds ++ [u.feedId]
           prices := batch.prices ++ [u.price]
           aggTs := batch.aggTs ++ [u.aggTs] }

/-- `env::block_timestamp() / NANOS_PER_SEC`. -/
def blockSecond (ctx : VMContext AccountId) : UInt64 := ctx.blockTimestamp / nanosPerSec

def f (self : MultiFeed Feeds Roles Callers AccountId) (ctx : VMContext AccountId)
    (updates : List FeedUpdate) :
    Except Panic (MultiFeed Feeds Roles Callers AccountId × List (ContractEvent AccountId)) := do
  let predecessor ← ctx.predecessorAccountId
  require (LookupSet.contains self.priceReporters predecessor) .onlyPriceReporter
  if updates.isEmpty then throw .emptyFeedData
  let now := blockSecond ctx
  let batch ← updates.foldlM (fEntry now) ⟨self.feeds, [], [], []⟩
  return ({ self with feeds := batch.feeds }, [.f batch.feedIds batch.prices batch.aggTs])

def transferOwnership (self : MultiFeed Feeds Roles Callers AccountId)
    (ctx : VMContext AccountId) (newOwner : AccountId) :
    Except Panic (MultiFeed Feeds Roles Callers AccountId × List (ContractEvent AccountId)) := do
  assertOneYocto ctx
  let predecessor ← ctx.predecessorAccountId
  require (predecessor == self.owner) .onlyOwner
  require (newOwner != self.owner) .sameOwner
  return ({ self with owner := newOwner }, [.ownershipTransferred (some self.owner) newOwner])

/-- What `set_admins`, `set_products` and `set_price_reporters` share: the
guards, then the strict loop over the role's own set. -/
def setRole (get : MultiFeed Feeds Roles Callers AccountId → Roles)
    (put : MultiFeed Feeds Roles Callers AccountId → Roles → MultiFeed Feeds Roles Callers AccountId)
    (eventFn : AccountId → Bool → ContractEvent AccountId)
    (self : MultiFeed Feeds Roles Callers AccountId) (ctx : VMContext AccountId)
    (updates : List (RoleUpdate AccountId)) :
    Except Panic (MultiFeed Feeds Roles Callers AccountId × List (ContractEvent AccountId)) := do
  assertOneYocto ctx
  let predecessor ← ctx.predecessorAccountId
  require (predecessor == self.owner) .onlyOwner
  require (!updates.isEmpty) .emptyUpdates
  let (set, log) ← updateRoleMembers eventFn (get self) updates
  return (put self set, log)

def setAdmins (self : MultiFeed Feeds Roles Callers AccountId) :=
  setRole (·.admin) (fun s set => { s with admin := set }) .adminStatusChanged self

def setProducts (self : MultiFeed Feeds Roles Callers AccountId) :=
  setRole (·.products) (fun s set => { s with products := set }) .productStatusChanged self

def setPriceReporters (self : MultiFeed Feeds Roles Callers AccountId) :=
  setRole (·.priceReporters) (fun s set => { s with priceReporters := set })
    .priceReporterStatusChanged self

def setAuthorizedCallers (self : MultiFeed Feeds Roles Callers AccountId)
    (ctx : VMContext AccountId) (updates : List (RoleUpdate AccountId)) :
    Except Panic (MultiFeed Feeds Roles Callers AccountId × List (ContractEvent AccountId)) := do
  assertOneYocto ctx
  let predecessor ← ctx.predecessorAccountId
  require (LookupSet.contains self.products predecessor) .onlyProduct
  require (!updates.isEmpty) .emptyUpdates
  let updated := updateAuthorizedCallers self.authorizedCallers updates
  return ({ self with authorizedCallers := updated.1 }, updated.2)

def setPaused (self : MultiFeed Feeds Roles Callers AccountId) (ctx : VMContext AccountId)
    (paused : Bool) :
    Except Panic (MultiFeed Feeds Roles Callers AccountId × List (ContractEvent AccountId)) := do
  assertOneYocto ctx
  let predecessor ← ctx.predecessorAccountId
  require (LookupSet.contains self.admin predecessor) .onlyAdmin
  require (self.flags.isPaused != paused) .alreadyInTargetState
  return ({ self with flags := self.flags.flipPaused }, [.pausedStatusChanged paused])

def setOpenReadStatus (self : MultiFeed Feeds Roles Callers AccountId)
    (ctx : VMContext AccountId) (status : Bool) :
    Except Panic (MultiFeed Feeds Roles Callers AccountId × List (ContractEvent AccountId)) := do
  assertOneYocto ctx
  let predecessor ← ctx.predecessorAccountId
  require (predecessor == self.owner) .onlyOwner
  require (self.flags.isOpenRead != status) .alreadyInTargetState
  return ({ self with flags := self.flags.flipOpenRead }, [.openReadStatusChanged status])

/-- The read gate: paused first, then open read, and only then the caller. -/
def onlyReadAccess (self : MultiFeed Feeds Roles Callers AccountId)
    (ctx : VMContext AccountId) : Except Panic Unit :=
  if self.flags.isPaused then .error .enforcedPaused
  else if self.flags.isOpenReadWhenUnpaused then .ok ()
  else do
    let predecessor ← ctx.predecessorAccountId
    require (LookupSet.contains self.authorizedCallers predecessor) .onlyAuthorizedCaller

def fetch (self : MultiFeed Feeds Roles Callers AccountId) (ctx : VMContext AccountId)
    (feedId : String) : Except Panic (Option FeedData) := do
  self.onlyReadAccess ctx
  let id ← parseFeedId feedId
  return (LookupMap.get self.feeds id).map FeedData.from

def fetchBatch (self : MultiFeed Feeds Roles Callers AccountId) (ctx : VMContext AccountId)
    (feedIds : List String) : Except Panic (List (Option FeedData)) := do
  self.onlyReadAccess ctx
  feedIds.mapM fun feedId => do
    let id ← parseFeedId feedId
    return (LookupMap.get self.feeds id).map FeedData.from

section Getters
variable (self : MultiFeed Feeds Roles Callers AccountId)

def getOwner : AccountId := self.owner
def decimals (_ : MultiFeed Feeds Roles Callers AccountId) : UInt8 := 18
def version (_ : MultiFeed Feeds Roles Callers AccountId) : UInt8 := 1
def isAdmin (account : AccountId) : Bool := LookupSet.contains self.admin account
def isProduct (account : AccountId) : Bool := LookupSet.contains self.products account
def isPriceReporter (account : AccountId) : Bool :=
  LookupSet.contains self.priceReporters account
def isAuthorizedCaller (account : AccountId) : Bool :=
  LookupSet.contains self.authorizedCallers account
def isPaused : Bool := self.flags.isPaused
def isOpenRead : Bool := self.flags.isOpenRead
def getAuthorizedCallers : List AccountId := IterableSet.iter self.authorizedCallers

end Getters

end MultiFeed

end NearMultiFeed
