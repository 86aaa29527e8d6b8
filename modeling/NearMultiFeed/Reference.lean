import NearMultiFeed.RoleLoops

/-!
# The reference contract

What the contract is for, stated on plain data: feeds are a map of full-width
values, the two flags are booleans, a role is a predicate on accounts. Sums are
sums of natural numbers. Only the whitelist stays an SDK set, since the order in
which it is listed is the SDK's own.
-/
namespace NearMultiFeed

structure Reference (Callers AccountId : Type) where
  feeds : UInt32 → Option StoredFeed
  paused : Bool
  openRead : Bool
  owner : AccountId
  description : String
  members : LookupRole → AccountId → Bool
  authorizedCallers : Callers

namespace Reference

variable {Callers AccountId : Type} [DecidableEq AccountId] [IterableSet Callers AccountId]

/-- Write one entry, or refuse it. -/
def record (now : UInt64) (feeds : UInt32 → Option StoredFeed) (u : FeedUpdate) :
    Except Panic (UInt32 → Option StoredFeed) :=
  let last := ((feeds u.feedId).map (·.aggTs)).getD 0
  if last.toNat < u.aggTs.toNat ∧ u.aggTs.toNat < now.toNat + 60
  then .ok (Function.update feeds u.feedId (some ⟨u.price, u.aggTs, now⟩))
  else .error (.timestampOutOfBounds u.feedId last now)

/-- Write one membership; it has to change something. -/
def enrol (members : AccountId → Bool) (u : RoleUpdate AccountId) :
    Except Panic (AccountId → Bool) :=
  if members u.account = u.status
  then .error (if u.status then .alreadyInRole else .notInRole)
  else .ok (Function.update members u.account u.status)

def new (owner : AccountId) (openReadEnabled : Bool) (description : String)
    (admins products priceReporters authorizedCallers : List AccountId) :
    Except Panic (Reference Callers AccountId × List (ContractEvent AccountId)) := do
  require (!openReadEnabled || authorizedCallers.isEmpty) .openReadWithCallers
  let admin ← (grants admins).foldlM enrol fun _ => false
  let product ← (grants products).foldlM enrol fun _ => false
  let reporter ← (grants priceReporters).foldlM enrol fun _ => false
  let (callers, callerLog) ← initAuthorizedCallers LookupSet.new authorizedCallers
  let members : LookupRole → AccountId → Bool
    | .admin => admin
    | .product => product
    | .priceReporter => reporter
  return (⟨fun _ => none, false, openReadEnabled, owner, description, members, callers⟩,
    [.ownershipTransferred none owner, .openReadStatusChanged openReadEnabled] ++
      roleLog .admin (grants admins) ++ roleLog .product (grants products) ++
      roleLog .priceReporter (grants priceReporters) ++ callerLog)

section Methods
variable (ref : Reference Callers AccountId) (ctx : VMContext AccountId)

/-- One yoctoNEAR, and the account that attached it. -/
def confirmed : Except Panic AccountId := do
  assertOneYocto ctx
  ctx.predecessorAccountId

def f (us : List FeedUpdate) :
    Except Panic (Reference Callers AccountId × List (ContractEvent AccountId)) := do
  let caller ← ctx.predecessorAccountId
  require (ref.members .priceReporter caller) .onlyPriceReporter
  require (!us.isEmpty) .emptyFeedData
  let feeds ← us.foldlM (record (MultiFeed.blockSecond ctx)) ref.feeds
  return ({ ref with feeds }, [.f (us.map (·.feedId)) (us.map (·.price)) (us.map (·.aggTs))])

def transferOwnership (newOwner : AccountId) :
    Except Panic (Reference Callers AccountId × List (ContractEvent AccountId)) := do
  let caller ← confirmed ctx
  require (caller == ref.owner) .onlyOwner
  require (newOwner != ref.owner) .sameOwner
  return ({ ref with owner := newOwner }, [.ownershipTransferred (some ref.owner) newOwner])

def setRole (r : LookupRole) (us : List (RoleUpdate AccountId)) :
    Except Panic (Reference Callers AccountId × List (ContractEvent AccountId)) := do
  let caller ← confirmed ctx
  require (caller == ref.owner) .onlyOwner
  require (!us.isEmpty) .emptyUpdates
  let updated ← us.foldlM enrol (ref.members r)
  return ({ ref with members := Function.update ref.members r updated }, roleLog r.role us)

def setAuthorizedCallers (us : List (RoleUpdate AccountId)) :
    Except Panic (Reference Callers AccountId × List (ContractEvent AccountId)) := do
  let caller ← confirmed ctx
  require (ref.members .product caller) .onlyProduct
  require (!us.isEmpty) .emptyUpdates
  let (authorizedCallers, log) := updateAuthorizedCallers ref.authorizedCallers us
  return ({ ref with authorizedCallers }, log)

def setPaused (paused : Bool) :
    Except Panic (Reference Callers AccountId × List (ContractEvent AccountId)) := do
  let caller ← confirmed ctx
  require (ref.members .admin caller) .onlyAdmin
  require (ref.paused != paused) .alreadyInTargetState
  return ({ ref with paused }, [.pausedStatusChanged paused])

def setOpenReadStatus (status : Bool) :
    Except Panic (Reference Callers AccountId × List (ContractEvent AccountId)) := do
  let caller ← confirmed ctx
  require (caller == ref.owner) .onlyOwner
  require (ref.openRead != status) .alreadyInTargetState
  return ({ ref with openRead := status }, [.openReadStatusChanged status])

/-- Who may read: nobody while paused, everybody while reads are open, and the
whitelist otherwise. -/
def mayRead : Except Panic Unit :=
  if ref.paused then .error .enforcedPaused
  else if ref.openRead then .ok ()
  else do
    let caller ← ctx.predecessorAccountId
    require (LookupSet.contains ref.authorizedCallers caller) .onlyAuthorizedCaller

def lookup (feedId : String) : Except Panic (Option FeedData) := do
  let id ← parseFeedId feedId
  return (ref.feeds id).map FeedData.from

def dispatch : Call AccountId →
    Except Panic (Reference Callers AccountId × Value AccountId × List (ContractEvent AccountId))
  | .new .. => do
    denyDeposit ctx "new"
    throw .alreadyInitialized
  | .f us => do
    denyDeposit ctx "f"
    done <$> ref.f ctx us
  | .transferOwnership newOwner => done <$> ref.transferOwnership ctx newOwner
  | .setAdmins us => done <$> ref.setRole ctx .admin us
  | .setProducts us => done <$> ref.setRole ctx .product us
  | .setPriceReporters us => done <$> ref.setRole ctx .priceReporter us
  | .setAuthorizedCallers us => done <$> ref.setAuthorizedCallers ctx us
  | .setPaused paused => done <$> ref.setPaused ctx paused
  | .setOpenReadStatus status => done <$> ref.setOpenReadStatus ctx status
  | .fetch feedId => do
    ref.mayRead ctx
    (fun d => (ref, .feed d, [])) <$> ref.lookup feedId
  | .fetchBatch feedIds => do
    ref.mayRead ctx
    (fun ds => (ref, .feeds ds, [])) <$> feedIds.mapM ref.lookup
  | .getOwner => .ok (ref, .account ref.owner, [])
  | .description => .ok (ref, .text ref.description, [])
  | .decimals => .ok (ref, .byte 18, [])
  | .version => .ok (ref, .byte 1, [])
  | .isAdmin account => .ok (ref, .bool (ref.members .admin account), [])
  | .isProduct account => .ok (ref, .bool (ref.members .product account), [])
  | .isPriceReporter account => .ok (ref, .bool (ref.members .priceReporter account), [])
  | .isAuthorizedCaller account =>
      .ok (ref, .bool (LookupSet.contains ref.authorizedCallers account), [])
  | .isPaused => .ok (ref, .bool ref.paused, [])
  | .isOpenRead => .ok (ref, .bool ref.openRead, [])
  | .getAuthorizedCallers => .ok (ref, .accounts (IterableSet.iter ref.authorizedCallers), [])
where
  done (result : Reference Callers AccountId × List (ContractEvent AccountId)) :=
    (result.1, .unit, result.2)

def step (tx : Transaction AccountId) : Reference Callers AccountId × Outcome AccountId :=
  match ref.dispatch tx.ctx tx.call with
  | .ok (next, value, events) => (next, .success value events)
  | .error panic => (ref, .failure panic.message)

end Methods

/-- The reference after a list of calls. -/
abbrev run (ref : Reference Callers AccountId) (txs : List (Transaction AccountId)) :
    Reference Callers AccountId :=
  Machine.run step ref txs

end Reference

end NearMultiFeed
