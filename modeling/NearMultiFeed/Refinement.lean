import NearMultiFeed.FeedHistory
import NearMultiFeed.Reference

/-!
# The contract refines the reference

Call by call, from `new` on, the contract on encoded feeds and a packed flags
byte answers as the reference does on plain data. What the codec loses, the
price bits from 80 up, is lost in what readers are shown and nowhere else.
-/
namespace NearMultiFeed

/-- What is left of a price by design. -/
def lowPrice (price : U128) : U128 := BitVec.ofNat 128 (price.toNat % 2 ^ 80)

def StoredFeed.lowPrice (feed : StoredFeed) : StoredFeed :=
  { feed with price := NearMultiFeed.lowPrice feed.price }

def FeedData.lowPrice (data : FeedData) : FeedData :=
  { data with price := NearMultiFeed.lowPrice data.price }

/-- An answer with the prices of the feeds it shows narrowed. -/
def Value.lowPrices {AccountId : Type} : Value AccountId → Value AccountId
  | .feed data => .feed (data.map FeedData.lowPrice)
  | .feeds data => .feeds (data.map (Option.map FeedData.lowPrice))
  | value => value

def Outcome.lowPrices {AccountId : Type} : Outcome AccountId → Outcome AccountId
  | .success value events => .success value.lowPrices events
  | .failure message => .failure message

/-- Both timestamps fit their six bytes. -/
def StoredFeed.Fits (feed : StoredFeed) : Prop :=
  feed.aggTs.toNat < 2 ^ 48 ∧ feed.onchainTs.toNat < 2 ^ 48

theorem StoredFeed.Fits.persisted_eq {feed : StoredFeed} (h : feed.Fits) :
    feed.persisted = feed.lowPrice := by
  have version := persisted_aggTs_eq h.1
  have second := persisted_onchainTs_eq h.2
  unfold StoredFeed.lowPrice
  rw [← version, ← second]
  rfl

section Feeds
variable {Feeds : Type} [LookupMap Feeds UInt32 StoredFeed]

/-- The feeds inside a call of `f`: written values are pending at full width,
the others are as the last call left them. -/
structure Mirrors (m : Feeds) (feeds : UInt32 → Option StoredFeed) : Prop where
  version : ∀ id, (LookupMap.get m id).map (·.aggTs) = (feeds id).map (·.aggTs)
  flushed : ∀ id, LookupMap.get (LookupMap.flush m) id = (feeds id).map StoredFeed.lowPrice
  fits : ∀ id feed, feeds id = some feed → feed.Fits

namespace Mirrors

variable {m : Feeds} {feeds : UInt32 → Option StoredFeed}

theorem prevAggTs_eq (h : Mirrors m feeds) (id : UInt32) :
    prevAggTs m id = ((feeds id).map (·.aggTs)).getD 0 := by
  rw [prevAggTs, h.version id]

/-- The reference decides an entry as the contract does. -/
theorem record_eq (h : Mirrors m feeds) (now : UInt64) (u : FeedUpdate) :
    Reference.record now feeds u =
      if prevVersion m u.feedId < u.version ∧ u.aggTs.toNat < now.toNat + 60
      then .ok (Function.update feeds u.feedId (some ⟨u.price, u.aggTs, now⟩))
      else .error (.timestampOutOfBounds u.feedId (prevAggTs m u.feedId) now) := by
  rw [Reference.record, ← h.prevAggTs_eq]
  rfl

theorem insert (h : Mirrors m feeds) (id : UInt32) {feed : StoredFeed} (fits : feed.Fits) :
    Mirrors (LookupMap.insert m id feed) (Function.update feeds id (some feed)) := by
  constructor
  · intro k
    by_cases same : k = id
    · subst same
      rw [LookupMap.get_insert_self, Function.update_self]
    · rw [LookupMap.get_insert_of_ne _ _ _ _ same, Function.update_of_ne same]
      exact h.version k
  · intro k
    by_cases same : k = id
    · subst same
      rw [LookupMap.get_flush_insert_self _ _ _ _ (StoredFeed.tryFromSlice_toVec feed),
        Function.update_self, fits.persisted_eq]
      rfl
    · rw [LookupMap.get_flush_insert_of_ne _ _ _ _ same, Function.update_of_ne same]
      exact h.flushed k
  · intro k feed' there
    by_cases same : k = id
    · subst same
      rw [Function.update_self] at there
      cases there
      exact fits
    · rw [Function.update_of_ne same] at there
      exact h.fits k feed' there

/-- The end of a call stores what was pending. -/
theorem flush (h : Mirrors m feeds) : Mirrors (LookupMap.flush m) feeds := by
  constructor
  · intro id
    rw [h.flushed id, Option.map_map]
    rfl
  · intro id
    rw [LookupMap.flush_flush, h.flushed id]
  · exact h.fits

/-- The two loops of `f` refuse alike, and otherwise end in step. -/
theorem loop_agrees {now : UInt64} (early : now.toNat < 2 ^ 35) (us : List FeedUpdate)
    {batch : FeedBatch Feeds} (h : Mirrors batch.feeds feeds) :
    Abort.Agree (fun b feeds' => Mirrors b.feeds feeds' ∧
        b.feedIds = batch.feedIds ++ us.map (·.feedId) ∧
        b.prices = batch.prices ++ us.map (·.price) ∧ b.aggTs = batch.aggTs ++ us.map (·.aggTs))
      (us.foldlM (MultiFeed.fEntry now) batch) (us.foldlM (Reference.record now) feeds) := by
  have sum_fits : now.toNat + 60 < 2 ^ 64 := by omega
  induction us generalizing batch feeds with
  | nil =>
      simp only [List.foldlM_nil, List.map_nil, List.append_nil]
      exact .ok ⟨h, rfl, rfl, rfl⟩
  | cons u us ih =>
      rw [List.foldlM_cons, List.foldlM_cons, fEntry_eq sum_fits, h.record_eq]
      by_cases good : prevVersion batch.feeds u.feedId < u.version ∧
          u.aggTs.toNat < now.toNat + 60
      · rw [if_pos good, if_pos good, Abort.ok_bind, Abort.ok_bind]
        have fits : (StoredFeed.mk u.price u.aggTs now).Fits := by
          refine ⟨?_, ?_⟩
          · change u.aggTs.toNat < 2 ^ 48
            omega
          · change now.toNat < 2 ^ 48
            omega
        have next : Mirrors (batch.push now u).feeds _ := h.insert u.feedId fits
        apply (ih next).mono
        intro b feeds' step
        obtain ⟨mirrors, ids, prices, times⟩ := step
        simp only [FeedBatch.push, List.append_assoc, List.singleton_append] at ids prices times
        exact ⟨mirrors, ids, prices, times⟩
      · rw [if_neg good, if_neg good, Abort.error_bind, Abort.error_bind]
        exact .error _

end Mirrors

end Feeds

section Roles
variable {Roles AccountId : Type} [DecidableEq AccountId] [LookupSet Roles AccountId]

/-- The two strict loops refuse alike, and otherwise leave the same members. -/
theorem enrol_agrees (eventFn : AccountId → Bool → ContractEvent AccountId) (set : Roles)
    (us : List (RoleUpdate AccountId)) :
    Abort.Agree (fun a members => LookupSet.contains a.1 = members ∧
        a.2 = us.map fun u => eventFn u.account u.status)
      (updateRoleMembers eventFn set us) (us.foldlM Reference.enrol (LookupSet.contains set)) := by
  induction us generalizing set with
  | nil => exact .ok ⟨rfl, rfl⟩
  | cons u us ih =>
      rw [updateRoleMembers, List.foldlM_cons, updateRoleMember_eq, Reference.enrol]
      by_cases redundant : LookupSet.contains set u.account = u.status
      · rw [if_pos redundant, if_pos redundant]
        exact .error _
      · rw [if_neg redundant, if_neg redundant, Abort.ok_bind, Abort.ok_bind,
          ← contains_setMember]
        apply (ih (setMember set u)).map_left (f := fun a => (a.1, eventFn u.account u.status :: a.2))
        intro a members step
        refine ⟨step.1, ?_⟩
        rw [step.2, List.map_cons]

end Roles

namespace MultiFeed

variable {Feeds Roles Callers AccountId : Type} [LookupMap Feeds UInt32 StoredFeed]
  [LookupSet Roles AccountId]

/-- The states of the two contracts between calls. -/
structure Corresponds (s : MultiFeed Feeds Roles Callers AccountId)
    (ref : Reference Callers AccountId) : Prop where
  settled : LookupMap.flush s.feeds = s.feeds
  feeds : Mirrors s.feeds ref.feeds
  flags : s.flags = Flags.new ref.paused ref.openRead
  owner : s.owner = ref.owner
  description : s.description = ref.description
  members : ∀ r, LookupSet.contains (s.roleSet r) = ref.members r
  authorizedCallers : s.authorizedCallers = ref.authorizedCallers

/-- A method of both has returned, and the contract stores its state. -/
abbrev Finished (a : MultiFeed Feeds Roles Callers AccountId × List (ContractEvent AccountId))
    (b : Reference Callers AccountId × List (ContractEvent AccountId)) : Prop :=
  Corresponds a.1.persist b.1 ∧ a.2 = b.2

namespace Corresponds

variable {s : MultiFeed Feeds Roles Callers AccountId} {ref : Reference Callers AccountId}

theorem stored (h : Corresponds s ref) (id : UInt32) :
    LookupMap.get s.feeds id = (ref.feeds id).map StoredFeed.lowPrice := by
  have flushed := h.feeds.flushed id
  rwa [h.settled] at flushed

/-- Storing the state keeps the correspondence; a method then changes a field of both. -/
theorem persist (h : Corresponds s ref) : Corresponds s.persist ref :=
  ⟨LookupMap.flush_flush _, h.feeds.flush, h.flags, h.owner, h.description, h.members,
    h.authorizedCallers⟩

theorem isPaused_eq (h : Corresponds s ref) : s.isPaused = ref.paused := by
  rw [isPaused, h.flags, Flags.isPaused_new]

theorem isOpenRead_eq (h : Corresponds s ref) : s.isOpenRead = ref.openRead := by
  rw [isOpenRead, h.flags, Flags.isOpenRead_new]

theorem confirmed_bind {α : Type} (ctx : VMContext AccountId)
    (next : AccountId → Except Panic α) :
    Reference.confirmed ctx >>= next =
      assertOneYocto ctx >>= fun _ => ctx.predecessorAccountId >>= next :=
  bind_assoc _ _ _

theorem f_agrees (h : Corresponds s ref) (ctx : VMContext AccountId) (us : List FeedUpdate) :
    Abort.Agree Finished (s.f ctx us) (ref.f ctx us) := by
  have guards : s.f ctx us = (do
      let caller ← ctx.predecessorAccountId
      require (LookupSet.contains s.priceReporters caller) .onlyPriceReporter
      require (!us.isEmpty) .emptyFeedData
      let batch ← us.foldlM (fEntry (blockSecond ctx)) ⟨s.feeds, [], [], []⟩
      return ({ s with feeds := batch.feeds }, [.f batch.feedIds batch.prices batch.aggTs])) := by
    cases us <;> rfl
  have reporters : LookupSet.contains s.priceReporters = ref.members .priceReporter :=
    h.members .priceReporter
  rw [guards, Reference.f, reporters]
  apply Abort.Agree.guarded
  intro _
  have start : Mirrors (FeedBatch.mk s.feeds [] [] []).feeds ref.feeds := h.feeds
  apply Abort.Agree.bind (Mirrors.loop_agrees (blockSecond_lt ctx) us start)
  intro batch feeds step
  obtain ⟨mirrors, ids, prices, times⟩ := step
  simp only [List.nil_append] at ids prices times
  refine .ok ⟨?_, ?_⟩
  · exact { h.persist with settled := LookupMap.flush_flush _, feeds := mirrors.flush }
  · rw [ids, prices, times]

theorem contains_putRoleSet (h : Corresponds s ref) (r : LookupRole) {set : Roles}
    {updated : AccountId → Bool} (same : LookupSet.contains set = updated) (r' : LookupRole) :
    LookupSet.contains ((s.putRoleSet set r).persist.roleSet r') =
      Function.update ref.members r updated r' := by
  by_cases own : r' = r
  · subst own
    rw [Function.update_self, ← same]
    cases r' <;> rfl
  · rw [Function.update_of_ne own, ← h.members r']
    cases r <;> cases r' <;> first | rfl | exact absurd rfl own

theorem setPaused_agrees (h : Corresponds s ref) (ctx : VMContext AccountId) (paused : Bool) :
    Abort.Agree Finished (s.setPaused ctx paused) (ref.setPaused ctx paused) := by
  have admins : LookupSet.contains s.admin = ref.members .admin := h.members .admin
  rw [setPaused, Reference.setPaused, confirmed_bind, admins, h.flags, Flags.isPaused_new]
  apply Abort.Agree.same_bind
  intro _
  apply Abort.Agree.guarded
  intro differ
  rw [require_eq_ok, bne_iff_ne] at differ
  have flipped : (!ref.paused) = paused := Bool.not_eq.mpr differ
  refine .ok ⟨?_, rfl⟩
  refine { h.persist with flags := ?_ }
  change Flags.flipPaused _ = _
  rw [Flags.flipPaused_new, flipped]

/-- A call of both has been answered. -/
abbrev Answered
    (a : MultiFeed Feeds Roles Callers AccountId × Value AccountId ×
      List (ContractEvent AccountId))
    (b : Reference Callers AccountId × Value AccountId × List (ContractEvent AccountId)) : Prop :=
  Corresponds a.1 b.1 ∧ a.2.1 = b.2.1.lowPrices ∧ a.2.2 = b.2.2

theorem answered_of_finished
    (a : MultiFeed Feeds Roles Callers AccountId × List (ContractEvent AccountId))
    (b : Reference Callers AccountId × List (ContractEvent AccountId)) (h : Finished a b) :
    Answered (commit a) (Reference.dispatch.done b) :=
  ⟨h.1, rfl, h.2⟩

theorem lookup_agrees (h : Corresponds s ref) (feedId : String) :
    Abort.Agree (fun d d' => d = d'.map FeedData.lowPrice)
      (do
        let id ← parseFeedId feedId
        return (LookupMap.get s.feeds id).map FeedData.from : Except Panic (Option FeedData))
      (ref.lookup feedId) := by
  apply Abort.Agree.same_bind
  intro id
  apply Abort.Agree.ok
  rw [h.stored id, Option.map_map, Option.map_map]
  rfl

variable [DecidableEq AccountId]

theorem transferOwnership_agrees (h : Corresponds s ref) (ctx : VMContext AccountId)
    (newOwner : AccountId) :
    Abort.Agree Finished (s.transferOwnership ctx newOwner)
      (ref.transferOwnership ctx newOwner) := by
  rw [transferOwnership, Reference.transferOwnership, confirmed_bind, h.owner]
  apply Abort.Agree.same_bind
  intro _
  apply Abort.Agree.guarded
  intro _
  refine .ok ⟨?_, rfl⟩
  exact { h.persist with owner := rfl }

theorem setRole_agrees (h : Corresponds s ref) (ctx : VMContext AccountId) (r : LookupRole)
    (us : List (RoleUpdate AccountId)) :
    Abort.Agree Finished
      (setRole (fun s => s.roleSet r) (fun s set => s.putRoleSet set r) r.role.event s ctx us)
      (ref.setRole ctx r us) := by
  rw [setRole, Reference.setRole, confirmed_bind, h.owner]
  apply Abort.Agree.same_bind
  intro _
  apply Abort.Agree.guarded
  intro _
  rw [← h.members r]
  apply Abort.Agree.bind (enrol_agrees r.role.event (s.roleSet r) us)
  intro a updated step
  obtain ⟨same, log⟩ := step
  refine .ok ⟨?_, log⟩
  refine ⟨?_, ?_, ?_, ?_, ?_, h.contains_putRoleSet r same, ?_⟩
  · exact LookupMap.flush_flush _
  · cases r <;> exact h.feeds.flush
  · cases r <;> exact h.flags
  · cases r <;> exact h.owner
  · cases r <;> exact h.description
  · cases r <;> exact h.authorizedCallers

theorem setOpenReadStatus_agrees (h : Corresponds s ref) (ctx : VMContext AccountId)
    (status : Bool) :
    Abort.Agree Finished (s.setOpenReadStatus ctx status) (ref.setOpenReadStatus ctx status) := by
  rw [setOpenReadStatus, Reference.setOpenReadStatus, confirmed_bind, h.owner, h.flags,
    Flags.isOpenRead_new]
  apply Abort.Agree.same_bind
  intro _
  apply Abort.Agree.guarded
  intro differ
  rw [require_eq_ok, bne_iff_ne] at differ
  have flipped : (!ref.openRead) = status := Bool.not_eq.mpr differ
  refine .ok ⟨?_, rfl⟩
  refine { h.persist with flags := ?_, owner := rfl }
  change Flags.flipOpenRead _ = _
  rw [Flags.flipOpenRead_new, flipped]

variable [IterableSet Callers AccountId]

omit [DecidableEq AccountId] in
theorem setAuthorizedCallers_agrees (h : Corresponds s ref) (ctx : VMContext AccountId)
    (us : List (RoleUpdate AccountId)) :
    Abort.Agree Finished (s.setAuthorizedCallers ctx us) (ref.setAuthorizedCallers ctx us) := by
  have products : LookupSet.contains s.products = ref.members .product := h.members .product
  rw [setAuthorizedCallers, Reference.setAuthorizedCallers, confirmed_bind, products,
    h.authorizedCallers]
  apply Abort.Agree.same_bind
  intro _
  apply Abort.Agree.guarded
  intro _
  refine .ok ⟨?_, rfl⟩
  exact { h.persist with authorizedCallers := rfl }

omit [DecidableEq AccountId] in
/-- The packed flags decide reads as the two booleans do. -/
theorem onlyReadAccess_eq (h : Corresponds s ref) (ctx : VMContext AccountId) :
    s.onlyReadAccess ctx = ref.mayRead ctx := by
  unfold onlyReadAccess Reference.mayRead
  rw [h.flags, h.authorizedCallers, Flags.isPaused_new, Flags.isOpenReadWhenUnpaused_new]
  cases ref.paused <;> cases ref.openRead <;> rfl

theorem dispatch_role_agrees (h : Corresponds s ref) (ctx : VMContext AccountId)
    (r : LookupRole) (us : List (RoleUpdate AccountId)) :
    Abort.Agree Answered (s.dispatch ctx (r.call us)) (ref.dispatch ctx (r.call us)) := by
  have reference : ref.dispatch ctx (r.call us) =
      Reference.dispatch.done <$> ref.setRole ctx r us := by
    cases r <;> rfl
  rw [dispatch_role_call, reference]
  exact (h.setRole_agrees ctx r us).map answered_of_finished

/-- One call: both refuse alike, or both answer alike and stay in step. -/
theorem dispatch_agrees (h : Corresponds s ref) (ctx : VMContext AccountId)
    (call : Call AccountId) :
    Abort.Agree Answered (s.dispatch ctx call) (ref.dispatch ctx call) := by
  cases call with
  | new =>
      apply Abort.Agree.same_bind
      intro _
      exact .error _
  | f us =>
      apply Abort.Agree.same_bind
      intro _
      exact (h.f_agrees ctx us).map answered_of_finished
  | transferOwnership newOwner =>
      exact (h.transferOwnership_agrees ctx newOwner).map answered_of_finished
  | setAdmins us => exact h.dispatch_role_agrees ctx .admin us
  | setProducts us => exact h.dispatch_role_agrees ctx .product us
  | setPriceReporters us => exact h.dispatch_role_agrees ctx .priceReporter us
  | setAuthorizedCallers us =>
      exact (h.setAuthorizedCallers_agrees ctx us).map answered_of_finished
  | setPaused paused => exact (h.setPaused_agrees ctx paused).map answered_of_finished
  | setOpenReadStatus status =>
      exact (h.setOpenReadStatus_agrees ctx status).map answered_of_finished
  | fetch feedId =>
      rw [dispatch, fetch, h.onlyReadAccess_eq, map_bind]
      apply Abort.Agree.same_bind
      intro _
      apply (h.lookup_agrees feedId).map
      intro d d' narrowed
      refine ⟨h, ?_, rfl⟩
      rw [narrowed]
      rfl
  | fetchBatch feedIds =>
      rw [dispatch, fetchBatch, h.onlyReadAccess_eq, map_bind]
      apply Abort.Agree.same_bind
      intro _
      have entries := Abort.Agree.mapM (l := feedIds) fun feedId _ => h.lookup_agrees feedId
      apply entries.map
      intro ds ds' narrowed
      refine ⟨h, ?_, rfl⟩
      have same : ds = ds'.map (Option.map FeedData.lowPrice) := by
        rw [← List.forall₂_eq_eq_eq, List.forall₂_map_right_iff]
        exact narrowed
      rw [same]
      rfl
  | getOwner => exact .ok ⟨h, congrArg Value.account h.owner, rfl⟩
  | description => exact .ok ⟨h, congrArg Value.text h.description, rfl⟩
  | decimals => exact .ok ⟨h, rfl, rfl⟩
  | version => exact .ok ⟨h, rfl, rfl⟩
  | isAdmin account =>
      exact .ok ⟨h, congrArg Value.bool (congrFun (h.members .admin) account), rfl⟩
  | isProduct account =>
      exact .ok ⟨h, congrArg Value.bool (congrFun (h.members .product) account), rfl⟩
  | isPriceReporter account =>
      exact .ok ⟨h, congrArg Value.bool (congrFun (h.members .priceReporter) account), rfl⟩
  | isAuthorizedCaller account =>
      have same : s.isAuthorizedCaller account =
          LookupSet.contains ref.authorizedCallers account := by
        rw [isAuthorizedCaller, h.authorizedCallers]
      exact .ok ⟨h, congrArg Value.bool same, rfl⟩
  | isPaused => exact .ok ⟨h, congrArg Value.bool h.isPaused_eq, rfl⟩
  | isOpenRead => exact .ok ⟨h, congrArg Value.bool h.isOpenRead_eq, rfl⟩
  | getAuthorizedCallers =>
      have same : s.getAuthorizedCallers = IterableSet.iter ref.authorizedCallers := by
        rw [getAuthorizedCallers, h.authorizedCallers]
      exact .ok ⟨h, congrArg Value.accounts same, rfl⟩

theorem step (h : Corresponds s ref) (tx : Transaction AccountId) :
    Corresponds (s.step tx).1 (ref.step tx).1 ∧ (s.step tx).2 = (ref.step tx).2.lowPrices := by
  have both := h.dispatch_agrees tx.ctx tx.call
  rw [MultiFeed.step, Reference.step]
  generalize s.dispatch tx.ctx tx.call = x at both ⊢
  generalize ref.dispatch tx.ctx tx.call = y at both ⊢
  cases both with
  | error panic => exact ⟨h, rfl⟩
  | ok answered =>
      obtain ⟨next, value, events⟩ := answered
      refine ⟨next, ?_⟩
      simp only [Outcome.lowPrices, value, events]

/-- Whole runs: the states stay in step, and the answers are the reference's with
the prices narrowed. -/
theorem run (h : Corresponds s ref) (txs : List (Transaction AccountId)) :
    Corresponds (s.run txs) (ref.run txs) ∧
      Machine.outputs MultiFeed.step s txs =
        (Machine.outputs Reference.step ref txs).map Outcome.lowPrices := by
  let A : Outcome AccountId → Outcome AccountId → Prop := fun o o' => o = o'.lowPrices
  have keeps (s : MultiFeed Feeds Roles Callers AccountId) (ref : Reference Callers AccountId)
      (tx : Transaction AccountId) (related : Corresponds s ref) :
      Corresponds (MultiFeed.step s tx).1 (Reference.step ref tx).1 ∧
        A (MultiFeed.step s tx).2 (Reference.step ref tx).2 := related.step tx
  obtain ⟨final, answers⟩ := Machine.lockstep keeps h txs
  refine ⟨final, ?_⟩
  rw [← List.forall₂_eq_eq_eq, List.forall₂_map_right_iff]
  exact answers

end Corresponds

section Deployment
variable {Feeds Roles Callers AccountId : Type} [DecidableEq AccountId]
  [LookupMap Feeds UInt32 StoredFeed] [LookupSet Roles AccountId]
  [IterableSet Callers AccountId]

omit [LookupMap Feeds UInt32 StoredFeed] [IterableSet Callers AccountId] in
theorem initLookupSetRole_agrees (eventFn : AccountId → Bool → ContractEvent AccountId)
    (addrs : List AccountId) :
    Abort.Agree (fun a members => LookupSet.contains a.1 = members ∧
        a.2 = (grants addrs).map fun u => eventFn u.account u.status)
      (initLookupSetRole addrs eventFn : Except Panic (Roles × List (ContractEvent AccountId)))
      ((grants addrs).foldlM Reference.enrol fun _ => false) := by
  have loops := enrol_agrees eventFn (LookupSet.new : Roles) (grants addrs)
  rw [contains_new_eq] at loops
  exact loops

theorem mirrors_new : Mirrors (LookupMap.new : Feeds) (fun _ => none) := by
  constructor
  · intro id
    rw [LookupMap.get_new, Option.map_none]
  · intro id
    rw [LookupMap.flush_new, LookupMap.get_new, Option.map_none]
  · intro id feed there
    cases there

theorem new_agrees (owner : AccountId) (openReadEnabled : Bool) (description : String)
    (admins products priceReporters authorizedCallers : List AccountId) :
    Abort.Agree Finished
      (MultiFeed.new owner openReadEnabled description admins products priceReporters
        authorizedCallers :
        Except Panic (MultiFeed Feeds Roles Callers AccountId × List (ContractEvent AccountId)))
      (Reference.new owner openReadEnabled description admins products priceReporters
        authorizedCallers) := by
  unfold MultiFeed.new Reference.new
  apply Abort.Agree.same_bind
  intro _
  apply Abort.Agree.bind (initLookupSetRole_agrees .adminStatusChanged admins)
  intro admin adminMembers adminStep
  apply Abort.Agree.bind (initLookupSetRole_agrees .productStatusChanged products)
  intro product productMembers productStep
  apply Abort.Agree.bind (initLookupSetRole_agrees .priceReporterStatusChanged priceReporters)
  intro reporter reporterMembers reporterStep
  apply Abort.Agree.same_bind
  intro callers
  refine .ok ⟨?_, ?_⟩
  · refine ⟨LookupMap.flush_flush _, mirrors_new.flush, rfl, rfl, rfl, ?_, rfl⟩
    intro r
    cases r with
    | admin => exact adminStep.1
    | product => exact productStep.1
    | priceReporter => exact reporterStep.1
  · simp only [adminStep.2, productStep.2, reporterStep.2]
    rfl

/-- From `new` on, the contract on 22-byte feeds answers every call as the
reference on full-width feeds does: it refuses alike, with one message, emits the
same events, and shows the same feeds up to the price bits the codec drops. The
drift sum never overflows and no accepted timestamp is cut. -/
theorem refines_full_width (owner : AccountId) (openReadEnabled : Bool) (description : String)
    (admins products priceReporters authorizedCallers : List AccountId)
    (txs : List (Transaction AccountId)) :
    Abort.Agree
      (fun (a : MultiFeed Feeds Roles Callers AccountId × List (ContractEvent AccountId))
          (b : Reference Callers AccountId × List (ContractEvent AccountId)) =>
        let s := a.1.persist
        let ref := b.1
        a.2 = b.2 ∧
        Machine.outputs MultiFeed.step s txs =
          (Machine.outputs Reference.step ref txs).map Outcome.lowPrices ∧
        (∀ id, LookupMap.get (s.run txs).feeds id = ((ref.run txs).feeds id).map fun feed =>
          ⟨BitVec.ofNat 128 (feed.price.toNat % 2 ^ 80), feed.aggTs, feed.onchainTs⟩) ∧
        (∀ tx ∈ txs, ∃ bound, checkedAdd (blockSecond tx.ctx) maxFutureDriftThreshold =
          .ok bound) ∧
        (∀ w ∈ writesOf (s.receipts txs), w.feed.aggTs.toNat < 2 ^ 48 ∧
          w.feed.onchainTs.toNat < 2 ^ 48))
      (MultiFeed.new owner openReadEnabled description admins products priceReporters
        authorizedCallers)
      (Reference.new owner openReadEnabled description admins products priceReporters
        authorizedCallers) := by
  apply (new_agrees owner openReadEnabled description admins products priceReporters
    authorizedCallers).attach.mono
  intro a b h
  obtain ⟨finished, created, -⟩ := h
  obtain ⟨final, answers⟩ := finished.1.run txs
  have history := FeedHistory.of_run (.new created) txs
  refine ⟨finished.2, answers, final.stored, ?_, ?_⟩
  · intro tx _
    have early := blockSecond_lt tx.ctx
    have fits : (blockSecond tx.ctx).toNat + 60 < 2 ^ 64 := by omega
    obtain ⟨bound, sum, -⟩ := checkedAdd_drift fits
    exact ⟨bound, sum⟩
  · intro w hw
    have near : w.feed.aggTs.toNat < w.feed.onchainTs.toNat + 60 := history.near w hw
    have early := history.early w hw
    omega

end Deployment

end MultiFeed

end NearMultiFeed
