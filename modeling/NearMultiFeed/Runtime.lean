import NearMultiFeed.Contract
import NearMultiFeed.Lib.Machine

/-!
# Calls and runs

The dispatch near-sdk generates in front of the methods, and the runtime that
applies calls one after the other. A method that is not `#[payable]` and changes
state refuses a deposit. When such a method or a payable one returns, the state
is stored, so the next call decodes the feeds it reads. A panic leaves the state
as it was and drops the events.
-/
namespace NearMultiFeed

/-- The public methods with their arguments. -/
inductive Call (AccountId : Type) where
  | new (owner : AccountId) (openReadEnabled : Bool) (description : String)
      (admins products priceReporters authorizedCallers : List AccountId)
  | f (updates : List FeedUpdate)
  | transferOwnership (newOwner : AccountId)
  | setAdmins (updates : List (RoleUpdate AccountId))
  | setProducts (updates : List (RoleUpdate AccountId))
  | setPriceReporters (updates : List (RoleUpdate AccountId))
  | setAuthorizedCallers (updates : List (RoleUpdate AccountId))
  | setPaused (paused : Bool)
  | setOpenReadStatus (status : Bool)
  | fetch (feedId : String)
  | fetchBatch (feedIds : List String)
  | getOwner
  | description
  | decimals
  | version
  | isAdmin (account : AccountId)
  | isProduct (account : AccountId)
  | isPriceReporter (account : AccountId)
  | isAuthorizedCaller (account : AccountId)
  | isPaused
  | isOpenRead
  | getAuthorizedCallers

/-- What a method returns. -/
inductive Value (AccountId : Type) where
  | unit
  | feed (data : Option FeedData)
  | feeds (data : List (Option FeedData))
  | account (account : AccountId)
  | accounts (accounts : List AccountId)
  | text (text : String)
  | byte (byte : UInt8)
  | bool (bool : Bool)
  deriving DecidableEq, Repr

/-- A call as the runtime receives it. -/
structure Transaction (AccountId : Type) where
  ctx : VMContext AccountId
  call : Call AccountId

/-- What the runtime reports of a call: a result with its events, or the text
of the panic. -/
inductive Outcome (AccountId : Type) where
  | success (value : Value AccountId) (events : List (ContractEvent AccountId))
  | failure (message : String)
  deriving DecidableEq, Repr

/-- The events that reach the log; those of an aborted call do not. -/
def Outcome.events {AccountId : Type} : Outcome AccountId → List (ContractEvent AccountId)
  | .success _ events => events
  | .failure _ => []

abbrev Receipt (AccountId : Type) := Transaction AccountId × Outcome AccountId

/-- All events of a history, in emission order. -/
def eventsOf {AccountId : Type} (receipts : List (Receipt AccountId)) :
    List (ContractEvent AccountId) :=
  receipts.flatMap fun r => r.2.events

theorem eventsOf_append {AccountId : Type} (past later : List (Receipt AccountId)) :
    eventsOf (past ++ later) = eventsOf past ++ eventsOf later :=
  List.flatMap_append

theorem eventsOf_singleton {AccountId : Type} (r : Receipt AccountId) :
    eventsOf [r] = r.2.events :=
  List.flatMap_singleton _ r

namespace MultiFeed

variable {Feeds Roles Callers AccountId : Type} [DecidableEq AccountId]
  [LookupMap Feeds UInt32 StoredFeed] [LookupSet Roles AccountId]
  [IterableSet Callers AccountId]

/-- The state as the next call finds it. -/
def persist (self : MultiFeed Feeds Roles Callers AccountId) :
    MultiFeed Feeds Roles Callers AccountId :=
  { self with feeds := LookupMap.flush self.feeds }

/-- A state-changing method has returned: store the state. -/
def commit (result : MultiFeed Feeds Roles Callers AccountId × List (ContractEvent AccountId)) :
    MultiFeed Feeds Roles Callers AccountId × Value AccountId × List (ContractEvent AccountId) :=
  (result.1.persist, .unit, result.2)

/-- A `&self` method has returned: nothing is stored. -/
def answer (self : MultiFeed Feeds Roles Callers AccountId) (value : Value AccountId) :
    MultiFeed Feeds Roles Callers AccountId × Value AccountId × List (ContractEvent AccountId) :=
  (self, value, [])

def dispatch (self : MultiFeed Feeds Roles Callers AccountId) (ctx : VMContext AccountId) :
    Call AccountId → Except Panic
      (MultiFeed Feeds Roles Callers AccountId × Value AccountId ×
        List (ContractEvent AccountId))
  | .new .. => do
    denyDeposit ctx "new"
    throw .alreadyInitialized
  | .f updates => do
    denyDeposit ctx "f"
    commit <$> self.f ctx updates
  | .transferOwnership newOwner => commit <$> self.transferOwnership ctx newOwner
  | .setAdmins updates => commit <$> self.setAdmins ctx updates
  | .setProducts updates => commit <$> self.setProducts ctx updates
  | .setPriceReporters updates => commit <$> self.setPriceReporters ctx updates
  | .setAuthorizedCallers updates => commit <$> self.setAuthorizedCallers ctx updates
  | .setPaused paused => commit <$> self.setPaused ctx paused
  | .setOpenReadStatus status => commit <$> self.setOpenReadStatus ctx status
  | .fetch feedId => (fun d => self.answer (.feed d)) <$> self.fetch ctx feedId
  | .fetchBatch feedIds => (fun ds => self.answer (.feeds ds)) <$> self.fetchBatch ctx feedIds
  | .getOwner => .ok (self.answer (.account self.getOwner))
  | .description => .ok (self.answer (.text self.description))
  | .decimals => .ok (self.answer (.byte self.decimals))
  | .version => .ok (self.answer (.byte self.version))
  | .isAdmin account => .ok (self.answer (.bool (self.isAdmin account)))
  | .isProduct account => .ok (self.answer (.bool (self.isProduct account)))
  | .isPriceReporter account => .ok (self.answer (.bool (self.isPriceReporter account)))
  | .isAuthorizedCaller account => .ok (self.answer (.bool (self.isAuthorizedCaller account)))
  | .isPaused => .ok (self.answer (.bool self.isPaused))
  | .isOpenRead => .ok (self.answer (.bool self.isOpenRead))
  | .getAuthorizedCallers => .ok (self.answer (.accounts self.getAuthorizedCallers))

/-- One call applied by the runtime. -/
def step (self : MultiFeed Feeds Roles Callers AccountId) (tx : Transaction AccountId) :
    MultiFeed Feeds Roles Callers AccountId × Outcome AccountId :=
  match self.dispatch tx.ctx tx.call with
  | .ok (next, value, events) => (next, .success value events)
  | .error panic => (self, .failure panic.message)

/-- The state after a sequence of calls. -/
abbrev run (self : MultiFeed Feeds Roles Callers AccountId) (txs : List (Transaction AccountId)) :
    MultiFeed Feeds Roles Callers AccountId :=
  Machine.run step self txs

/-- The calls of a run with their outcomes. -/
abbrev receipts (self : MultiFeed Feeds Roles Callers AccountId)
    (txs : List (Transaction AccountId)) : List (Receipt AccountId) :=
  Machine.trace step self txs

/-- The state and the events a successful `new` leaves. -/
inductive Deployed :
    MultiFeed Feeds Roles Callers AccountId → List (ContractEvent AccountId) → Prop
  | new {owner : AccountId} {openReadEnabled : Bool} {description : String}
      {admins products priceReporters authorizedCallers : List AccountId}
      {self : MultiFeed Feeds Roles Callers AccountId} {log : List (ContractEvent AccountId)} :
      MultiFeed.new owner openReadEnabled description admins products priceReporters
        authorizedCallers = .ok (self, log) →
      Deployed self.persist log

/-- The states some run reaches. -/
def Reachable (s : MultiFeed Feeds Roles Callers AccountId) : Prop :=
  ∃ (s₀ : MultiFeed Feeds Roles Callers AccountId) (log₀ : List (ContractEvent AccountId))
    (txs : List (Transaction AccountId)), Deployed s₀ log₀ ∧ s = s₀.run txs

end MultiFeed

end NearMultiFeed
