import NearMultiFeed.FeedLoop
import NearMultiFeed.RoleLoops

/-!
# What a call can do

One constructor for each way a call succeeds, with the guards it passed, the
state the next call finds and the events it emitted. Every other call leaves the
state alone and emits nothing.
-/
namespace NearMultiFeed

/-- The calls that only read. -/
def Call.reads {AccountId : Type} : Call AccountId → Bool
  | .fetch _ | .fetchBatch _ | .getOwner | .description | .decimals | .version | .isAdmin _
  | .isProduct _ | .isPriceReporter _ | .isAuthorizedCaller _ | .isPaused | .isOpenRead
  | .getAuthorizedCallers => true
  | _ => false

/-- The privileged calls, which demand a deposit of one yoctoNEAR. -/
def Call.privileged {AccountId : Type} : Call AccountId → Bool
  | .transferOwnership _ | .setAdmins _ | .setProducts _ | .setPriceReporters _
  | .setAuthorizedCallers _ | .setPaused _ | .setOpenReadStatus _ => true
  | _ => false

namespace MultiFeed

variable {Feeds Roles Callers AccountId : Type} [DecidableEq AccountId]
  [LookupMap Feeds UInt32 StoredFeed] [LookupSet Roles AccountId]
  [IterableSet Callers AccountId]

def roleSet (self : MultiFeed Feeds Roles Callers AccountId) : LookupRole → Roles
  | .admin => self.admin
  | .product => self.products
  | .priceReporter => self.priceReporters

def putRoleSet (self : MultiFeed Feeds Roles Callers AccountId) (set : Roles) :
    LookupRole → MultiFeed Feeds Roles Callers AccountId
  | .admin => { self with admin := set }
  | .product => { self with products := set }
  | .priceReporter => { self with priceReporters := set }

/-- Membership in any of the four roles. -/
def hasRole (self : MultiFeed Feeds Roles Callers AccountId) : Role → AccountId → Bool
  | .admin => self.isAdmin
  | .product => self.isProduct
  | .priceReporter => self.isPriceReporter
  | .authorizedCaller => self.isAuthorizedCaller

/-- The successful calls. -/
inductive Effect (s : MultiFeed Feeds Roles Callers AccountId) (ctx : VMContext AccountId) :
    Call AccountId → MultiFeed Feeds Roles Callers AccountId → List (ContractEvent AccountId) →
      Prop
  | read {call : Call AccountId} : call.reads = true → Effect s ctx call s []
  | f {caller : AccountId} {us : List FeedUpdate} :
      ctx.predecessor = some caller → s.isPriceReporter caller = true → ctx.deposit = 0 →
      us ≠ [] → Accepts s.feeds (blockSecond ctx) us →
      Effect s ctx (.f us)
        { s with
          feeds := LookupMap.flush
            (insertAll s.feeds (us.map (FeedUpdate.write (blockSecond ctx)))) }
        [.f (us.map (·.feedId)) (us.map (·.price)) (us.map (·.aggTs))]
  | transferOwnership {newOwner : AccountId} :
      ctx.predecessor = some s.owner → ctx.deposit = 1 → newOwner ≠ s.owner →
      Effect s ctx (.transferOwnership newOwner)
        { s with owner := newOwner, feeds := LookupMap.flush s.feeds }
        [.ownershipTransferred (some s.owner) newOwner]
  | setRole {r : LookupRole} {us : List (RoleUpdate AccountId)} :
      ctx.predecessor = some s.owner → ctx.deposit = 1 → us ≠ [] →
      Alternating (s.hasRole r.role) us →
      Effect s ctx (r.call us)
        ({ s with feeds := LookupMap.flush s.feeds }.putRoleSet (setMembers (s.roleSet r) us) r)
        (us.map fun u => r.role.event u.account u.status)
  | setAuthorizedCallers {caller : AccountId} {us : List (RoleUpdate AccountId)} :
      ctx.predecessor = some caller → s.isProduct caller = true → ctx.deposit = 1 → us ≠ [] →
      Effect s ctx (.setAuthorizedCallers us)
        { s with
          authorizedCallers := (updateAuthorizedCallers s.authorizedCallers us).1
          feeds := LookupMap.flush s.feeds }
        (updateAuthorizedCallers s.authorizedCallers us).2
  | setPaused {caller : AccountId} {paused : Bool} :
      ctx.predecessor = some caller → s.isAdmin caller = true → ctx.deposit = 1 →
      s.isPaused ≠ paused →
      Effect s ctx (.setPaused paused)
        { s with flags := s.flags.flipPaused, feeds := LookupMap.flush s.feeds }
        [.pausedStatusChanged paused]
  | setOpenReadStatus {status : Bool} :
      ctx.predecessor = some s.owner → ctx.deposit = 1 → s.isOpenRead ≠ status →
      Effect s ctx (.setOpenReadStatus status)
        { s with flags := s.flags.flipOpenRead, feeds := LookupMap.flush s.feeds }
        [.openReadStatusChanged status]

section Guards

omit [DecidableEq AccountId] in
theorem assertOneYocto_eq_ok {ctx : VMContext AccountId} {u : Unit} :
    assertOneYocto ctx = .ok u ↔ ctx.predecessor.isSome = true ∧ ctx.deposit = 1 := by
  rw [assertOneYocto, require_eq_ok, beq_iff_eq]
  unfold VMContext.attachedDeposit
  cases ctx.predecessor <;> simp

omit [DecidableEq AccountId] in
theorem denyDeposit_eq_ok {ctx : VMContext AccountId} {method : String} {u : Unit} :
    denyDeposit ctx method = .ok u ↔ (ctx.predecessor.isSome = true → ctx.deposit = 0) := by
  rw [denyDeposit, require_eq_ok, beq_iff_eq]
  unfold VMContext.attachedDeposit
  cases ctx.predecessor <;> simp

end Guards

omit [DecidableEq AccountId] [LookupMap Feeds UInt32 StoredFeed] in
theorem contains_roleSet (s : MultiFeed Feeds Roles Callers AccountId) (r : LookupRole) :
    LookupSet.contains (s.roleSet r) = s.hasRole r.role := by
  cases r <;> rfl

/-! What replacing one role set changes. -/

section PutRoleSet
omit [DecidableEq AccountId] [LookupMap Feeds UInt32 StoredFeed]
variable (s : MultiFeed Feeds Roles Callers AccountId) (r : LookupRole) (set : Roles)

theorem hasRole_putRoleSet (r' : Role) (account : AccountId) :
    (s.putRoleSet set r).hasRole r' account =
      if r' = r.role then LookupSet.contains set account else s.hasRole r' account := by
  cases r <;> cases r' <;> rfl

theorem hasRole_putRoleSet_self :
    (s.putRoleSet set r).hasRole r.role = LookupSet.contains set := by
  funext account
  rw [hasRole_putRoleSet, if_pos rfl]

omit [LookupSet Roles AccountId] [IterableSet Callers AccountId]

theorem roleSet_putRoleSet : (s.putRoleSet set r).roleSet r = set := by
  cases r <;> rfl

theorem putRoleSet_putRoleSet (set' : Roles) :
    (s.putRoleSet set r).putRoleSet set' r = s.putRoleSet set' r := by
  cases r <;> rfl

theorem owner_putRoleSet : (s.putRoleSet set r).owner = s.owner := by
  cases r <;> rfl

end PutRoleSet

/-- The three setters are one method at three roles. -/
theorem dispatch_role_call (s : MultiFeed Feeds Roles Callers AccountId)
    (ctx : VMContext AccountId) (r : LookupRole) (us : List (RoleUpdate AccountId)) :
    s.dispatch ctx (r.call us) =
      commit <$> setRole (fun s => s.roleSet r) (fun s set => s.putRoleSet set r) r.role.event
        s ctx us := by
  cases r <;> rfl

omit [LookupMap Feeds UInt32 StoredFeed] in
/-- When a strict setter succeeds, and what it does then. -/
theorem setRole_eq_ok {s next : MultiFeed Feeds Roles Callers AccountId}
    {ctx : VMContext AccountId} {r : LookupRole} {us : List (RoleUpdate AccountId)}
    {log : List (ContractEvent AccountId)} :
    setRole (fun s => s.roleSet r) (fun s set => s.putRoleSet set r) r.role.event s ctx us =
        .ok (next, log) ↔
      ctx.predecessor = some s.owner ∧ ctx.deposit = 1 ∧ us ≠ [] ∧
      Alternating (s.hasRole r.role) us ∧
      next = s.putRoleSet (setMembers (s.roleSet r) us) r ∧ log = roleLog r.role us := by
  simp only [setRole, Abort.bind_eq_ok, assertOneYocto_eq_ok, predecessorAccountId_eq_ok,
    require_eq_ok, beq_iff_eq, Bool.not_eq_true', List.isEmpty_eq_false_iff, Prod.exists,
    updateRoleMembers_eq_ok, Abort.pure_eq_ok, Except.ok.injEq, Prod.mk.injEq, contains_roleSet]
  constructor
  · intro h
    obtain ⟨_, ⟨-, one⟩, caller, called, _, rfl, _, some_updates, _, _, ⟨good, rfl, rfl⟩, rfl,
      rfl⟩ := h
    exact ⟨called, one, some_updates, good, rfl, rfl⟩
  · intro h
    obtain ⟨called, one, some_updates, good, rfl, rfl⟩ := h
    have present : ctx.predecessor.isSome = true := by rw [called]; rfl
    exact ⟨(), ⟨present, one⟩, s.owner, called, (), rfl, (), some_updates, _, _, ⟨good, rfl, rfl⟩,
      rfl, rfl⟩

theorem setRole_effect {s next : MultiFeed Feeds Roles Callers AccountId}
    {ctx : VMContext AccountId} {r : LookupRole} {us : List (RoleUpdate AccountId)}
    {log : List (ContractEvent AccountId)}
    (h : setRole (fun s => s.roleSet r) (fun s set => s.putRoleSet set r) r.role.event s ctx us =
      .ok (next, log)) : Effect s ctx (r.call us) next.persist log := by
  obtain ⟨called, one, some_updates, good, rfl, rfl⟩ := setRole_eq_ok.mp h
  have effect := Effect.setRole (s := s) (r := r) called one some_updates good
  cases r <;> exact effect

omit [DecidableEq AccountId] [LookupMap Feeds UInt32 StoredFeed] in
/-- When the whitelist setter succeeds, and what it does then. -/
theorem setAuthorizedCallers_eq_ok {s next : MultiFeed Feeds Roles Callers AccountId}
    {ctx : VMContext AccountId} {us : List (RoleUpdate AccountId)}
    {log : List (ContractEvent AccountId)} :
    s.setAuthorizedCallers ctx us = .ok (next, log) ↔
      ctx.deposit = 1 ∧
      (∃ caller, ctx.predecessor = some caller ∧ s.isProduct caller = true) ∧ us ≠ [] ∧
      next = { s with
        authorizedCallers := (updateAuthorizedCallers s.authorizedCallers us).1 } ∧
      log = (updateAuthorizedCallers s.authorizedCallers us).2 := by
  simp only [setAuthorizedCallers, Abort.bind_eq_ok, assertOneYocto_eq_ok,
    predecessorAccountId_eq_ok, require_eq_ok, Bool.not_eq_true', List.isEmpty_eq_false_iff,
    Abort.pure_eq_ok, Except.ok.injEq, Prod.mk.injEq]
  constructor
  · intro h
    obtain ⟨_, ⟨-, one⟩, caller, called, _, member, _, some_updates, rfl, rfl⟩ := h
    exact ⟨one, ⟨caller, called, member⟩, some_updates, rfl, rfl⟩
  · intro h
    obtain ⟨one, ⟨caller, called, member⟩, some_updates, rfl, rfl⟩ := h
    have present : ctx.predecessor.isSome = true := by rw [called]; rfl
    exact ⟨(), ⟨present, one⟩, caller, called, (), member, (), some_updates, rfl, rfl⟩

/-- A call that succeeds has one of the effects. -/
theorem effect_of_dispatch {s next : MultiFeed Feeds Roles Callers AccountId}
    {ctx : VMContext AccountId} {call : Call AccountId} {value : Value AccountId}
    {log : List (ContractEvent AccountId)} (h : s.dispatch ctx call = .ok (next, value, log)) :
    Effect s ctx call next log := by
  have read_only {v : Value AccountId} {c : Call AccountId} (hc : c.reads = true)
      (same : s.answer v = (next, value, log)) : Effect s ctx c next log := by
    cases same
    exact .read hc
  have role {r : LookupRole} {us : List (RoleUpdate AccountId)}
      (h : s.dispatch ctx (r.call us) = .ok (next, value, log)) :
      Effect s ctx (r.call us) next log := by
    rw [dispatch_role_call, Abort.map_eq_ok] at h
    obtain ⟨⟨_, _⟩, done, same⟩ := h
    cases same
    exact setRole_effect done
  cases call with
  | new =>
      simp only [dispatch, Abort.bind_eq_ok, Abort.throw_eq_error, reduceCtorEq, and_false,
        exists_false] at h
  | f us =>
      simp only [dispatch, Abort.bind_eq_ok, Abort.map_eq_ok, denyDeposit_eq_ok, Prod.exists,
        f_eq_ok, commit, Prod.mk.injEq] at h
      obtain ⟨_, free, _, _, ⟨⟨caller, called, member⟩, entries, good, rfl, rfl⟩, rfl, -, rfl⟩ := h
      have present : ctx.predecessor.isSome = true := by rw [called]; rfl
      exact .f called member (free present) entries good
  | transferOwnership newOwner =>
      simp only [dispatch, Abort.map_eq_ok, transferOwnership, Abort.bind_eq_ok,
        assertOneYocto_eq_ok, predecessorAccountId_eq_ok, require_eq_ok, beq_iff_eq, bne_iff_ne,
        Abort.pure_eq_ok, Except.ok.injEq, commit, Prod.mk.injEq] at h
      obtain ⟨_, ⟨_, ⟨-, one⟩, caller, called, _, rfl, _, other, rfl⟩, rfl, -, rfl⟩ := h
      exact .transferOwnership called one other
  | setAdmins us => exact role (r := .admin) h
  | setProducts us => exact role (r := .product) h
  | setPriceReporters us => exact role (r := .priceReporter) h
  | setAuthorizedCallers us =>
      simp only [dispatch, Abort.map_eq_ok, Prod.exists, setAuthorizedCallers_eq_ok, commit,
        Prod.mk.injEq] at h
      obtain ⟨_, _, ⟨one, ⟨caller, called, member⟩, some_updates, rfl, rfl⟩, rfl, -, rfl⟩ := h
      exact .setAuthorizedCallers called member one some_updates
  | setPaused paused =>
      simp only [dispatch, Abort.map_eq_ok, setPaused, Abort.bind_eq_ok, assertOneYocto_eq_ok,
        predecessorAccountId_eq_ok, require_eq_ok, bne_iff_ne, Abort.pure_eq_ok,
        Except.ok.injEq, commit, Prod.mk.injEq] at h
      obtain ⟨_, ⟨_, ⟨-, one⟩, caller, called, _, member, _, other, rfl⟩, rfl, -, rfl⟩ := h
      exact .setPaused called member one other
  | setOpenReadStatus status =>
      simp only [dispatch, Abort.map_eq_ok, setOpenReadStatus, Abort.bind_eq_ok,
        assertOneYocto_eq_ok, predecessorAccountId_eq_ok, require_eq_ok, beq_iff_eq, bne_iff_ne,
        Abort.pure_eq_ok, Except.ok.injEq, commit, Prod.mk.injEq] at h
      obtain ⟨_, ⟨_, ⟨-, one⟩, caller, called, _, rfl, _, other, rfl⟩, rfl, -, rfl⟩ := h
      exact .setOpenReadStatus called one other
  | fetch feedId =>
      rw [dispatch, Abort.map_eq_ok] at h
      obtain ⟨_, -, same⟩ := h
      exact read_only rfl same
  | fetchBatch feedIds =>
      rw [dispatch, Abort.map_eq_ok] at h
      obtain ⟨_, -, same⟩ := h
      exact read_only rfl same
  | _ => exact read_only rfl (Except.ok.inj h)

theorem step_eq_success {s next : MultiFeed Feeds Roles Callers AccountId}
    {tx : Transaction AccountId} {value : Value AccountId}
    {events : List (ContractEvent AccountId)} :
    s.step tx = (next, .success value events) ↔
      s.dispatch tx.ctx tx.call = .ok (next, value, events) := by
  rw [step]
  cases s.dispatch tx.ctx tx.call with
  | error panic => simp only [Prod.mk.injEq, reduceCtorEq, and_false]
  | ok answer =>
      obtain ⟨reached, v, log⟩ := answer
      simp only [Prod.mk.injEq, Outcome.success.injEq, Except.ok.injEq]

theorem step_success {s : MultiFeed Feeds Roles Callers AccountId} {tx : Transaction AccountId}
    {value : Value AccountId} {events : List (ContractEvent AccountId)} :
    (s.step tx).2 = .success value events ↔
      ∃ next, s.dispatch tx.ctx tx.call = .ok (next, value, events) := by
  constructor
  · intro h
    exact ⟨(s.step tx).1, step_eq_success.mp (Prod.ext rfl h)⟩
  · intro h
    obtain ⟨next, ran⟩ := h
    rw [step_eq_success.mpr ran]

theorem step_failure {s : MultiFeed Feeds Roles Callers AccountId} {tx : Transaction AccountId}
    {message : String} :
    (s.step tx).2 = .failure message ↔
      ∃ panic, s.dispatch tx.ctx tx.call = .error panic ∧ panic.message = message := by
  rw [step]
  cases s.dispatch tx.ctx tx.call with
  | error panic => simp only [Outcome.failure.injEq, Except.error.injEq, exists_eq_left']
  | ok answer => simp only [reduceCtorEq, false_and, exists_false]

/-- When a report goes through, and what it says. -/
theorem step_f {s : MultiFeed Feeds Roles Callers AccountId} {ctx : VMContext AccountId}
    {us : List FeedUpdate} {value : Value AccountId} {events : List (ContractEvent AccountId)} :
    (s.step ⟨ctx, .f us⟩).2 = .success value events ↔
      (∃ caller, ctx.predecessor = some caller ∧ s.isPriceReporter caller = true) ∧
      ctx.deposit = 0 ∧ us ≠ [] ∧ Accepts s.feeds (blockSecond ctx) us ∧ value = .unit ∧
      events = [.f (us.map (·.feedId)) (us.map (·.price)) (us.map (·.aggTs))] := by
  simp only [step_success, dispatch, Abort.bind_eq_ok, denyDeposit_eq_ok, Abort.map_eq_ok,
    Prod.exists, f_eq_ok, commit, Prod.mk.injEq]
  constructor
  · intro h
    obtain ⟨_, _, free, _, _, ⟨⟨caller, called, member⟩, entries, good, rfl, rfl⟩, _, rfl, rfl⟩ := h
    have present : ctx.predecessor.isSome = true := by rw [called]; rfl
    exact ⟨⟨caller, called, member⟩, free present, entries, good, rfl, rfl⟩
  · intro h
    obtain ⟨reporter, zero, entries, good, rfl, rfl⟩ := h
    exact ⟨_, (), fun _ => zero, _, _, ⟨reporter, entries, good, rfl, rfl⟩, rfl, rfl, rfl⟩

/-- Every step is an effect or a rejected call. -/
theorem step_cases (s : MultiFeed Feeds Roles Callers AccountId) (tx : Transaction AccountId) :
    (∃ next value log, s.step tx = (next, .success value log) ∧
      Effect s tx.ctx tx.call next log) ∨
    ∃ panic, s.dispatch tx.ctx tx.call = .error panic ∧
      s.step tx = (s, .failure panic.message) := by
  cases result : s.dispatch tx.ctx tx.call with
  | ok answer =>
      obtain ⟨next, value, log⟩ := answer
      refine .inl ⟨next, value, log, ?_, effect_of_dispatch result⟩
      simp only [step, result]
  | error panic =>
      refine .inr ⟨panic, rfl, ?_⟩
      simp only [step, result]

/-- A call that fails leaves the state. -/
theorem step_refused {s : MultiFeed Feeds Roles Callers AccountId} {tx : Transaction AccountId}
    {message : String} (failed : (s.step tx).2 = .failure message) : (s.step tx).1 = s := by
  rcases s.step_cases tx with ⟨next, value, log, same, -⟩ | ⟨panic, -, same⟩
  · rw [same] at failed
    cases failed
  · rw [same]

/-- A report that goes through leaves its writes stored. -/
theorem step_f_next {s : MultiFeed Feeds Roles Callers AccountId} {ctx : VMContext AccountId}
    {us : List FeedUpdate} {value : Value AccountId} {events : List (ContractEvent AccountId)}
    (accepted : (s.step ⟨ctx, .f us⟩).2 = .success value events) :
    (s.step ⟨ctx, .f us⟩).1 = { s with
      feeds := LookupMap.flush
        (insertAll s.feeds (us.map (FeedUpdate.write (blockSecond ctx)))) } := by
  obtain ⟨next, ran⟩ := step_success.mp accepted
  have here : (s.step ⟨ctx, .f us⟩).1 = next := by rw [step, ran]
  simp only [dispatch, Abort.bind_eq_ok, Abort.map_eq_ok, Prod.exists, f_eq_ok, commit,
    Prod.mk.injEq] at ran
  obtain ⟨_, -, _, _, ⟨-, -, -, rfl, -⟩, rfl, -, -⟩ := ran
  exact here

end MultiFeed

end NearMultiFeed
