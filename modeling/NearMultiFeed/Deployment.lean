import NearMultiFeed.Effect
import NearMultiFeed.Storage

/-!
# Deployed and reachable states

What a successful `new` leaves, the shape every later state keeps, and the
induction over runs that begin with a deployment.
-/
namespace NearMultiFeed

variable {Feeds Roles Callers AccountId : Type} [DecidableEq AccountId]
  [LookupMap Feeds UInt32 StoredFeed] [LookupSet Roles AccountId]
  [IterableSet Callers AccountId]

namespace MultiFeed

/-- A state and a log as `new` leaves them, given the read mode and the members
it was called with. -/
structure Initialised (s : MultiFeed Feeds Roles Callers AccountId)
    (log : List (ContractEvent AccountId)) (openRead : Bool)
    (granted : Role → List (RoleUpdate AccountId)) : Prop where
  feeds : s.feeds = LookupMap.new
  flags : s.flags = Flags.new false openRead
  roles : ∀ r, s.hasRole r = membership (fun _ => false) (granted r)
  alternating : ∀ r, Alternating (fun _ => false) (granted r)
  events : log = [.ownershipTransferred none s.owner, .openReadStatusChanged openRead] ++
    roleLog .admin (granted .admin) ++ roleLog .product (granted .product) ++
    roleLog .priceReporter (granted .priceReporter) ++
    roleLog .authorizedCaller (granted .authorizedCaller)

/-- The four initial lists, by role. -/
def granted (admins products priceReporters authorizedCallers : List AccountId) :
    Role → List (RoleUpdate AccountId)
  | .admin => grants admins
  | .product => grants products
  | .priceReporter => grants priceReporters
  | .authorizedCaller => grants authorizedCallers

theorem contains_new_eq {S T : Type} [LookupSet S T] :
    LookupSet.contains (LookupSet.new : S) = fun _ => false :=
  funext LookupSet.contains_new

theorem initLookupSetRole_eq_ok {eventFn : AccountId → Bool → ContractEvent AccountId}
    {addrs : List AccountId} {set : Roles} {log : List (ContractEvent AccountId)} :
    initLookupSetRole addrs eventFn = .ok (set, log) ↔
      Alternating (fun _ => false) (grants addrs) ∧
        set = setMembers LookupSet.new (grants addrs) ∧
        log = (grants addrs).map fun u => eventFn u.account u.status := by
  rw [initLookupSetRole, updateRoleMembers_eq_ok, contains_new_eq]
  rfl

/-- The loops of `new` start from empty sets. -/
theorem contains_granted {S : Type} [LookupSet S AccountId] (addrs : List AccountId) :
    LookupSet.contains (setMembers (LookupSet.new : S) (grants addrs)) =
      membership (fun _ => false) (grants addrs) := by
  rw [contains_setMembers, contains_new_eq]

section New
variable {owner : AccountId} {openReadEnabled : Bool} {description : String}
  {admins products priceReporters authorizedCallers : List AccountId}
  {s : MultiFeed Feeds Roles Callers AccountId} {log : List (ContractEvent AccountId)}

/-- When `new` succeeds, and what it leaves then. -/
theorem new_eq_ok :
    MultiFeed.new owner openReadEnabled description admins products priceReporters
        authorizedCallers = .ok (s, log) ↔
      (openReadEnabled = false ∨ authorizedCallers = []) ∧
      (∀ r, Alternating (fun _ => false)
        (granted admins products priceReporters authorizedCallers r)) ∧
      s = { feeds := LookupMap.new
            flags := Flags.new false openReadEnabled
            owner, description
            admin := setMembers LookupSet.new (grants admins)
            products := setMembers LookupSet.new (grants products)
            priceReporters := setMembers LookupSet.new (grants priceReporters)
            authorizedCallers := setMembers LookupSet.new (grants authorizedCallers) } ∧
      log = [.ownershipTransferred none owner, .openReadStatusChanged openReadEnabled] ++
        roleLog .admin (grants admins) ++ roleLog .product (grants products) ++
        roleLog .priceReporter (grants priceReporters) ++
        roleLog .authorizedCaller (grants authorizedCallers) := by
  have callerLog : (authorizedCallers.map fun a => .authorizedCallerStatusChanged a true) =
      roleLog .authorizedCaller (grants authorizedCallers) := by
    rw [roleLog, grants, List.map_map]
    rfl
  simp only [MultiFeed.new, Abort.bind_eq_ok, require_eq_ok, Bool.or_eq_true, Bool.not_eq_true',
    List.isEmpty_iff, Prod.exists, initLookupSetRole_eq_ok, initAuthorizedCallers_eq_ok,
    Abort.pure_eq_ok, Except.ok.injEq, Prod.mk.injEq, contains_new_eq, callerLog]
  constructor
  · intro h
    obtain ⟨_, mode, _, _, ⟨adminsOk, rfl, rfl⟩, _, _, ⟨productsOk, rfl, rfl⟩, _, _,
      ⟨reportersOk, rfl, rfl⟩, _, _, ⟨callersOk, rfl, rfl⟩, rfl, rfl⟩ := h
    refine ⟨mode, ?_, rfl, rfl⟩
    intro r
    cases r with
    | admin => exact adminsOk
    | product => exact productsOk
    | priceReporter => exact reportersOk
    | authorizedCaller => exact callersOk
  · intro h
    obtain ⟨mode, alternating, rfl, rfl⟩ := h
    exact ⟨(), mode, _, _, ⟨alternating .admin, rfl, rfl⟩, _, _, ⟨alternating .product, rfl, rfl⟩,
      _, _, ⟨alternating .priceReporter, rfl, rfl⟩, _, _, ⟨alternating .authorizedCaller, rfl, rfl⟩,
      rfl, rfl⟩

/-- The state and the log of a successful `new`. -/
theorem initialised_of_new (created : MultiFeed.new owner openReadEnabled description admins
    products priceReporters authorizedCallers = .ok (s, log)) :
    Initialised s log openReadEnabled
      (granted admins products priceReporters authorizedCallers) := by
  obtain ⟨-, alternating, rfl, rfl⟩ := new_eq_ok.mp created
  constructor
  · rfl
  · rfl
  · intro r
    cases r with
    | admin => exact contains_granted admins
    | product => exact contains_granted products
    | priceReporter => exact contains_granted priceReporters
    | authorizedCaller => exact contains_granted authorizedCallers
  · exact alternating
  · rfl

/-- Nothing of a new contract is lost by storing it. -/
theorem persist_of_new (created : MultiFeed.new owner openReadEnabled description admins
    products priceReporters authorizedCallers = .ok (s, log)) : s.persist = s := by
  obtain ⟨-, -, rfl, -⟩ := new_eq_ok.mp created
  simp only [persist, LookupMap.flush_new]

end New

theorem Deployed.initialised {s : MultiFeed Feeds Roles Callers AccountId}
    {log : List (ContractEvent AccountId)} (h : Deployed s log) :
    ∃ openRead granted, Initialised s log openRead granted := by
  cases h with
  | new created =>
      rw [persist_of_new created]
      exact ⟨_, _, initialised_of_new created⟩

/-- What every state between two calls satisfies. -/
structure WellFormed (s : MultiFeed Feeds Roles Callers AccountId) : Prop where
  /-- No write is pending. -/
  flushed : LookupMap.flush s.feeds = s.feeds
  built : Flags.Built s.flags

theorem Deployed.wellFormed {s : MultiFeed Feeds Roles Callers AccountId}
    {log : List (ContractEvent AccountId)} (h : Deployed s log) : WellFormed s := by
  obtain ⟨openRead, granted, initial⟩ := h.initialised
  refine ⟨?_, ?_⟩
  · rw [initial.feeds, LookupMap.flush_new]
  · rw [initial.flags]
    exact .new false openRead

theorem Effect.built {s next : MultiFeed Feeds Roles Callers AccountId}
    {ctx : VMContext AccountId} {call : Call AccountId} {log : List (ContractEvent AccountId)}
    (effect : Effect s ctx call next log) (h : Flags.Built s.flags) : Flags.Built next.flags := by
  cases effect with
  | read | f | transferOwnership | setAuthorizedCallers => exact h
  | @setRole r => cases r <;> exact h
  | setPaused => exact h.flipPaused
  | setOpenReadStatus => exact h.flipOpenRead

theorem Effect.flushed {s next : MultiFeed Feeds Roles Callers AccountId}
    {ctx : VMContext AccountId} {call : Call AccountId} {log : List (ContractEvent AccountId)}
    (effect : Effect s ctx call next log) (h : LookupMap.flush s.feeds = s.feeds) :
    LookupMap.flush next.feeds = next.feeds := by
  cases effect with
  | read => exact h
  | @setRole r => cases r <;> exact LookupMap.flush_flush _
  | _ => exact LookupMap.flush_flush _

theorem WellFormed.step {s : MultiFeed Feeds Roles Callers AccountId} (h : WellFormed s)
    (tx : Transaction AccountId) : WellFormed (s.step tx).1 := by
  rcases s.step_cases tx with ⟨next, value, log, same, effect⟩ | ⟨panic, -, same⟩
  · rw [same]
    exact ⟨effect.flushed h.flushed, effect.built h.built⟩
  · rw [same]
    exact h

theorem WellFormed.run {s : MultiFeed Feeds Roles Callers AccountId} (h : WellFormed s)
    (txs : List (Transaction AccountId)) : WellFormed (s.run txs) :=
  Machine.run_invariant MultiFeed.step (fun _ tx hs => hs.step tx) h txs

theorem Reachable.wellFormed {s : MultiFeed Feeds Roles Callers AccountId} (h : Reachable s) :
    WellFormed s := by
  obtain ⟨s₀, log₀, txs, deployed, rfl⟩ := h
  exact deployed.wellFormed.run txs

theorem Reachable.run {s : MultiFeed Feeds Roles Callers AccountId} (h : Reachable s)
    (txs : List (Transaction AccountId)) : Reachable (s.run txs) := by
  obtain ⟨s₀, log₀, before, deployed, rfl⟩ := h
  exact ⟨s₀, log₀, before ++ txs, deployed, (Machine.run_append step s₀ before txs).symm⟩

/-! A deployment on the concrete collections, for the results that need a run. -/

abbrev StoredContract : Type :=
  MultiFeed (PendingMap UInt32 StoredFeed) (MemberSet String) (ElementList String) String

def sample : StoredContract where
  feeds := LookupMap.new
  flags := Flags.new false false
  owner := "owner.near"
  description := "Test feeds"
  admin := setMembers LookupSet.new (grants ["admin.near"])
  products := setMembers LookupSet.new (grants ["product.near"])
  priceReporters := setMembers LookupSet.new (grants ["reporter.near"])
  authorizedCallers := setMembers LookupSet.new (grants ["reader.near"])

def sampleLog : List (ContractEvent String) :=
  [.ownershipTransferred none "owner.near", .openReadStatusChanged false,
    .adminStatusChanged "admin.near" true, .productStatusChanged "product.near" true,
    .priceReporterStatusChanged "reporter.near" true,
    .authorizedCallerStatusChanged "reader.near" true]

/-- A report of the sample's reporter at a block second. -/
def reportAt (second : UInt64) (us : List FeedUpdate) : Transaction String :=
  ⟨⟨some "reporter.near", 0, second * 1000000000⟩, .f us⟩

theorem sample_deployed : Deployed sample sampleLog := by
  have created : MultiFeed.new "owner.near" false "Test feeds" ["admin.near"] ["product.near"]
      ["reporter.near"] ["reader.near"] = .ok (sample, sampleLog) := rfl
  exact .new created

theorem sample_reachable : Reachable sample := ⟨sample, sampleLog, [], sample_deployed, rfl⟩

end MultiFeed

end NearMultiFeed
