import NearMultiFeed.Deployment
import NearMultiFeed.Lib.Footprint

/-!
# What a call reads and writes

A contract is looked at through fields: the owner, the flags, single memberships,
single feeds. Which of them a call reads, and which it writes, is known before it
runs. The two states of a comparison may keep their collections in different
types, so nothing here depends on how the SDK stores them; only the order of the
whitelist does.
-/
namespace NearMultiFeed

variable {AccountId : Type}

/-- What there is to see of a contract. -/
inductive Field (AccountId : Type) where
  | owner
  | description
  | paused
  | openRead
  | member (r : Role) (account : AccountId)
  | feed (id : UInt32)
  deriving DecidableEq

def Field.Datum : Field AccountId → Type
  | .owner => AccountId
  | .description => String
  | .paused | .openRead | .member _ _ => Bool
  | .feed _ => Option StoredFeed

/-- The memberships a list of updates names. -/
def memberFields (r : Role) (us : List (RoleUpdate AccountId)) : Set (Field AccountId) :=
  {k | ∃ u ∈ us, k = .member r u.account}

/-- The feeds a list of ids names. -/
def namedFields (feedIds : List String) : Set (Field AccountId) :=
  {k | ∃ feedId ∈ feedIds, ∃ id, parseFeedId feedId = .ok id ∧ k = .feed id}

/-- The caller's own membership. -/
def VMContext.ownField (ctx : VMContext AccountId) (r : Role) : Set (Field AccountId) :=
  {k | ∃ caller, ctx.predecessor = some caller ∧ k = .member r caller}

/-- What the read gate looks at. -/
def VMContext.gateFields (ctx : VMContext AccountId) : Set (Field AccountId) :=
  {.paused, .openRead} ∪ ctx.ownField .authorizedCaller

/-- The fields a call may change. -/
def Call.writes : Call AccountId → Set (Field AccountId)
  | .f us => {k | ∃ u ∈ us, k = .feed u.feedId}
  | .transferOwnership _ => {.owner}
  | .setAdmins us => memberFields .admin us
  | .setProducts us => memberFields .product us
  | .setPriceReporters us => memberFields .priceReporter us
  | .setAuthorizedCallers us => memberFields .authorizedCaller us
  | .setPaused _ => {.paused}
  | .setOpenReadStatus _ => {.openRead}
  | _ => ∅

/-- The other fields that decide a call or are shown by it. -/
def Transaction.consults (tx : Transaction AccountId) : Set (Field AccountId) :=
  match tx.call with
  | .f _ => tx.ctx.ownField .priceReporter
  | .transferOwnership _ | .setAdmins _ | .setProducts _ | .setPriceReporters _
  | .setOpenReadStatus _ | .getOwner => {.owner}
  | .setAuthorizedCallers _ => tx.ctx.ownField .product
  | .setPaused _ => tx.ctx.ownField .admin
  | .fetch feedId => tx.ctx.gateFields ∪ namedFields [feedId]
  | .fetchBatch feedIds => tx.ctx.gateFields ∪ namedFields feedIds
  | .description => {.description}
  | .isAdmin account => {.member .admin account}
  | .isProduct account => {.member .product account}
  | .isPriceReporter account => {.member .priceReporter account}
  | .isAuthorizedCaller account => {.member .authorizedCaller account}
  | .isPaused => {.paused}
  | .isOpenRead => {.openRead}
  | .getAuthorizedCallers => {k | ∃ account, k = .member .authorizedCaller account}
  | .new .. | .decimals | .version => ∅

/-- All fields a call depends on. -/
def Transaction.reads (tx : Transaction AccountId) : Set (Field AccountId) :=
  tx.consults ∪ tx.call.writes

/-! Answers that differ at most in the order in which the whitelist is listed. -/

inductive Value.Alike : Value AccountId → Value AccountId → Prop
  | same (v : Value AccountId) : Alike v v
  | listed {as bs : List AccountId} : as.Perm bs → Alike (.accounts as) (.accounts bs)

inductive Outcome.Alike : Outcome AccountId → Outcome AccountId → Prop
  | success {v w : Value AccountId} (events : List (ContractEvent AccountId)) :
      v.Alike w → Alike (.success v events) (.success w events)
  | failure (message : String) : Alike (.failure message) (.failure message)

theorem Value.Alike.equivalence : Equivalence (@Value.Alike AccountId) := by
  constructor
  · exact Value.Alike.same
  · intro v w h
    cases h with
    | same => exact .same v
    | listed perm => exact .listed perm.symm
  · intro u v w h h'
    cases h with
    | same => exact h'
    | listed perm =>
        cases h' with
        | same => exact .listed perm
        | listed perm' => exact .listed (perm.trans perm')

theorem Outcome.Alike.equivalence : Equivalence (@Outcome.Alike AccountId) := by
  constructor
  · intro o
    cases o with
    | success v events => exact .success events (.same v)
    | failure message => exact .failure message
  · intro o o' h
    cases h with
    | success events same => exact .success events (Value.Alike.equivalence.symm same)
    | failure message => exact .failure message
  · intro o o' o'' h h'
    cases h with
    | success events same =>
        cases h' with
        | success _ same' => exact .success events (Value.Alike.equivalence.trans same same')
    | failure message => exact h'

namespace MultiFeed

section Observe
variable {Feeds Roles Callers : Type} [LookupMap Feeds UInt32 StoredFeed]
  [LookupSet Roles AccountId] [IterableSet Callers AccountId]

/-- A field as the getters and reads show it. -/
def observe (s : MultiFeed Feeds Roles Callers AccountId) : (k : Field AccountId) → k.Datum
  | .owner => s.owner
  | .description => s.description
  | .paused => s.isPaused
  | .openRead => s.isOpenRead
  | .member r account => s.hasRole r account
  | .feed id => LookupMap.get s.feeds id

end Observe

variable {Feeds Roles Callers Feeds' Roles' Callers' : Type}
  [LookupMap Feeds UInt32 StoredFeed] [LookupMap Feeds' UInt32 StoredFeed]
  [LookupSet Roles AccountId] [LookupSet Roles' AccountId]
  [IterableSet Callers AccountId] [IterableSet Callers' AccountId]

/-- Two contracts, of whatever collections, that show the same in some fields. -/
def SameOn (fields : Set (Field AccountId)) (s : MultiFeed Feeds Roles Callers AccountId)
    (t : MultiFeed Feeds' Roles' Callers' AccountId) : Prop :=
  ∀ k ∈ fields, s.observe k = t.observe k

/-! ## Loops -/

section Loops

/-- Feeds that agree on some ids, now and after the call. -/
def SameFeeds (ids : Set UInt32) (m : Feeds) (m' : Feeds') : Prop :=
  ∀ id ∈ ids, LookupMap.get m id = LookupMap.get m' id ∧
    LookupMap.get (LookupMap.flush m) id = LookupMap.get (LookupMap.flush m') id

theorem SameFeeds.insert {ids : Set UInt32} {m : Feeds} {m' : Feeds'} (h : SameFeeds ids m m')
    (id : UInt32) (feed : StoredFeed) :
    SameFeeds ids (LookupMap.insert m id feed) (LookupMap.insert m' id feed) := by
  intro k hk
  by_cases same : k = id
  · subst same
    rw [LookupMap.get_insert_self, LookupMap.get_insert_self,
      LookupMap.get_flush_insert_self _ _ _ _ (StoredFeed.tryFromSlice_toVec feed),
      LookupMap.get_flush_insert_self _ _ _ _ (StoredFeed.tryFromSlice_toVec feed)]
    exact ⟨rfl, rfl⟩
  · rw [LookupMap.get_insert_of_ne _ _ _ _ same, LookupMap.get_insert_of_ne _ _ _ _ same,
      LookupMap.get_flush_insert_of_ne _ _ _ _ same,
      LookupMap.get_flush_insert_of_ne _ _ _ _ same]
    exact h k hk

/-- The loop of `f` looks at the feeds of its batch only. -/
theorem loop_agrees {ids : Set UInt32} {now : UInt64} (fits : now.toNat + 60 < 2 ^ 64)
    {us : List FeedUpdate} (within : ∀ u ∈ us, u.feedId ∈ ids) {b : FeedBatch Feeds}
    {b' : FeedBatch Feeds'} (h : SameFeeds ids b.feeds b'.feeds)
    (logged : b.feedIds = b'.feedIds ∧ b.prices = b'.prices ∧ b.aggTs = b'.aggTs) :
    Abort.Agree (fun c c' => SameFeeds ids c.feeds c'.feeds ∧
        c.feedIds = c'.feedIds ∧ c.prices = c'.prices ∧ c.aggTs = c'.aggTs)
      (us.foldlM (fEntry now) b) (us.foldlM (fEntry now) b') := by
  induction us generalizing b b' with
  | nil =>
      rw [List.foldlM_nil, List.foldlM_nil]
      exact .ok ⟨h, logged⟩
  | cons u us ih =>
      have last : prevAggTs b.feeds u.feedId = prevAggTs b'.feeds u.feedId := by
        rw [prevAggTs, prevAggTs, (h u.feedId (within u List.mem_cons_self)).1]
      rw [List.foldlM_cons, List.foldlM_cons, fEntry_eq fits, fEntry_eq fits, prevVersion,
        prevVersion, last]
      by_cases good : (prevAggTs b'.feeds u.feedId).toNat < u.version ∧
          u.aggTs.toNat < now.toNat + 60
      · rw [if_pos good, if_pos good, Abort.ok_bind, Abort.ok_bind]
        apply ih (fun v hv => within v (List.mem_cons_of_mem u hv))
        · exact h.insert u.feedId ⟨u.price, u.aggTs, now⟩
        · obtain ⟨ids, prices, times⟩ := logged
          simp only [FeedBatch.push, ids, prices, times, and_self]
      · rw [if_neg good, if_neg good, Abort.error_bind, Abort.error_bind]
        exact .error _

variable [DecidableEq AccountId]

/-- Sets that agree on some accounts. -/
def SameMembers {S S' : Type} [LookupSet S AccountId] [LookupSet S' AccountId]
    (accounts : Set AccountId) (set : S) (set' : S') : Prop :=
  ∀ a ∈ accounts, LookupSet.contains set a = LookupSet.contains set' a

theorem SameMembers.setMember {S S' : Type} [LookupSet S AccountId] [LookupSet S' AccountId]
    {accounts : Set AccountId} {set : S} {set' : S'} (h : SameMembers accounts set set')
    (u : RoleUpdate AccountId) :
    SameMembers accounts (setMember set u) (NearMultiFeed.setMember set' u) := by
  intro a ha
  rw [contains_setMember, contains_setMember]
  by_cases same : a = u.account
  · rw [same, Function.update_self, Function.update_self]
  · rw [Function.update_of_ne same, Function.update_of_ne same]
    exact h a ha

/-- The strict loop looks at the accounts it names only. -/
theorem updateRoleMembers_agrees {eventFn : AccountId → Bool → ContractEvent AccountId}
    {accounts : Set AccountId} {us : List (RoleUpdate AccountId)}
    (within : ∀ u ∈ us, u.account ∈ accounts) {set : Roles} {set' : Roles'}
    (h : SameMembers accounts set set') :
    Abort.Agree (fun a a' => SameMembers accounts a.1 a'.1 ∧ a.2 = a'.2)
      (updateRoleMembers eventFn set us) (updateRoleMembers eventFn set' us) := by
  induction us generalizing set set' with
  | nil => exact .ok ⟨h, rfl⟩
  | cons u us ih =>
      rw [updateRoleMembers, updateRoleMembers, updateRoleMember_eq, updateRoleMember_eq,
        h u.account (within u List.mem_cons_self)]
      by_cases redundant : LookupSet.contains set' u.account = u.status
      · rw [if_pos redundant, if_pos redundant]
        exact .error _
      · rw [if_neg redundant, if_neg redundant, Abort.ok_bind, Abort.ok_bind]
        apply Abort.Agree.bind (ih (fun v hv => within v (List.mem_cons_of_mem u hv))
          (h.setMember u))
        intro a a' step
        refine .ok ⟨step.1, ?_⟩
        rw [step.2]

/-- So does the lenient one. -/
theorem updateAuthorizedCallers_agrees {accounts : Set AccountId}
    {us : List (RoleUpdate AccountId)} (within : ∀ u ∈ us, u.account ∈ accounts) {set : Callers}
    {set' : Callers'} (h : SameMembers accounts set set') :
    SameMembers accounts (updateAuthorizedCallers set us).1 (updateAuthorizedCallers set' us).1 ∧
      (updateAuthorizedCallers set us).2 = (updateAuthorizedCallers set' us).2 := by
  constructor
  · intro a ha
    rw [contains_updateAuthorizedCallers, contains_updateAuthorizedCallers, membership, membership,
      KeyedLog.current, KeyedLog.current, h a ha]
  · rw [updateAuthorizedCallers_log, updateAuthorizedCallers_log]
    rw [KeyedLog.changes_congr RoleUpdate.account RoleUpdate.status
      fun u hu => h u.account (within u hu)]

end Loops

/-! ## Methods -/

section Methods

/-- Both methods return, with the same events, and store states that show the
same in some fields. -/
abbrev SameResult (fields : Set (Field AccountId))
    (a : MultiFeed Feeds Roles Callers AccountId × List (ContractEvent AccountId))
    (b : MultiFeed Feeds' Roles' Callers' AccountId × List (ContractEvent AccountId)) : Prop :=
  SameOn fields a.1.persist b.1.persist ∧ a.2 = b.2

variable {s : MultiFeed Feeds Roles Callers AccountId}
  {t : MultiFeed Feeds' Roles' Callers' AccountId} {ctx : VMContext AccountId}

/-- A check of the caller depends on the caller's own membership. -/
theorem caller_bind_congr {α : Type} {may may' : AccountId → Bool}
    (same : ∀ caller, ctx.predecessor = some caller → may caller = may' caller) (panic : Panic)
    (next : Unit → Except Panic α) :
    (ctx.predecessorAccountId >>= fun caller => require (may caller) panic >>= next) =
      ctx.predecessorAccountId >>= fun caller => require (may' caller) panic >>= next := by
  unfold VMContext.predecessorAccountId
  cases called : ctx.predecessor with
  | none => rfl
  | some caller => rw [Abort.ok_bind, Abort.ok_bind, same caller called]

theorem own_same {fields : Set (Field AccountId)} {r : Role} (h : SameOn fields s t)
    (own : ctx.ownField r ⊆ fields) (caller : AccountId) (called : ctx.predecessor = some caller) :
    s.hasRole r caller = t.hasRole r caller :=
  h (.member r caller) (own ⟨caller, called, rfl⟩)

theorem f_agrees {us : List FeedUpdate} (wf : LookupMap.flush s.feeds = s.feeds)
    (wf' : LookupMap.flush t.feeds = t.feeds)
    (h : SameOn (Transaction.reads ⟨ctx, .f us⟩) s t) :
    Abort.Agree (SameResult (Call.f us : Call AccountId).writes) (s.f ctx us) (t.f ctx us) := by
  have guards {F R C : Type} [LookupMap F UInt32 StoredFeed] [LookupSet R AccountId]
      (s : MultiFeed F R C AccountId) : s.f ctx us = (do
        let caller ← ctx.predecessorAccountId
        require (LookupSet.contains s.priceReporters caller) .onlyPriceReporter
        require (!us.isEmpty) .emptyFeedData
        let batch ← us.foldlM (fEntry (blockSecond ctx)) ⟨s.feeds, [], [], []⟩
        return ({ s with feeds := batch.feeds }, [.f batch.feedIds batch.prices batch.aggTs])) := by
    cases us <;> rfl
  have reporter : ∀ caller, ctx.predecessor = some caller →
      LookupSet.contains s.priceReporters caller = LookupSet.contains t.priceReporters caller :=
    own_same (r := .priceReporter) h Set.subset_union_left
  rw [guards, guards, caller_bind_congr reporter]
  apply Abort.Agree.guarded
  intro _
  have fits : (blockSecond ctx).toNat + 60 < 2 ^ 64 := by
    have := blockSecond_lt ctx
    omega
  have start : SameFeeds {id | ∃ u ∈ us, u.feedId = id} (FeedBatch.mk s.feeds [] [] []).feeds
      (FeedBatch.mk t.feeds [] [] []).feeds := by
    intro id named
    obtain ⟨u, hu, same⟩ := named
    rw [wf, wf', and_self]
    exact h (.feed id) (.inr ⟨u, hu, same ▸ rfl⟩)
  have within : ∀ u ∈ us, u.feedId ∈ {id | ∃ v ∈ us, v.feedId = id} := fun u hu => ⟨u, hu, rfl⟩
  apply Abort.Agree.bind (loop_agrees fits within start ⟨rfl, rfl, rfl⟩)
  intro b b' step
  obtain ⟨feeds, ids, prices, times⟩ := step
  refine .ok ⟨?_, ?_⟩
  · intro k hk
    obtain ⟨u, hu, same⟩ := hk
    subst same
    exact (feeds u.feedId ⟨u, hu, rfl⟩).2
  · rw [ids, prices, times]

theorem setAuthorizedCallers_agrees [DecidableEq AccountId] {us : List (RoleUpdate AccountId)}
    (h : SameOn (Transaction.reads ⟨ctx, .setAuthorizedCallers us⟩) s t) :
    Abort.Agree (SameResult (Call.setAuthorizedCallers us : Call AccountId).writes)
      (s.setAuthorizedCallers ctx us) (t.setAuthorizedCallers ctx us) := by
  have product : ∀ caller, ctx.predecessor = some caller →
      LookupSet.contains s.products caller = LookupSet.contains t.products caller :=
    own_same (r := .product) h Set.subset_union_left
  rw [setAuthorizedCallers, setAuthorizedCallers, caller_bind_congr product]
  apply Abort.Agree.same_bind
  intro _
  apply Abort.Agree.guarded
  intro _
  have start : SameMembers {a | ∃ u ∈ us, u.account = a} s.authorizedCallers
      t.authorizedCallers := by
    intro a named
    obtain ⟨u, hu, same⟩ := named
    exact h (.member .authorizedCaller a) (.inr ⟨u, hu, same ▸ rfl⟩)
  have within : ∀ u ∈ us, u.account ∈ {a | ∃ v ∈ us, v.account = a} := fun u hu => ⟨u, hu, rfl⟩
  obtain ⟨members, log⟩ := updateAuthorizedCallers_agrees within start
  refine .ok ⟨?_, log⟩
  intro k hk
  obtain ⟨u, hu, same⟩ := hk
  subst same
  exact members u.account ⟨u, hu, rfl⟩

theorem setPaused_agrees {paused : Bool} (built : Flags.Built s.flags)
    (built' : Flags.Built t.flags) (h : SameOn (Transaction.reads ⟨ctx, .setPaused paused⟩) s t) :
    Abort.Agree (SameResult (Call.setPaused paused : Call AccountId).writes)
      (s.setPaused ctx paused) (t.setPaused ctx paused) := by
  have admin : ∀ caller, ctx.predecessor = some caller →
      LookupSet.contains s.admin caller = LookupSet.contains t.admin caller :=
    own_same (r := .admin) h Set.subset_union_left
  have same : s.flags.isPaused = t.flags.isPaused := h .paused (.inr rfl)
  rw [setPaused, setPaused, caller_bind_congr admin, same]
  apply Abort.Agree.same_bind
  intro _
  apply Abort.Agree.guarded
  intro _
  refine .ok ⟨?_, rfl⟩
  intro k hk
  cases hk
  change s.flags.flipPaused.isPaused = t.flags.flipPaused.isPaused
  rw [built.isPaused_flipPaused, built'.isPaused_flipPaused, same]

/-- The read gate looks at the flags and the caller. -/
theorem onlyReadAccess_congr (built : Flags.Built s.flags) (built' : Flags.Built t.flags)
    (h : SameOn ctx.gateFields s t) : s.onlyReadAccess ctx = t.onlyReadAccess ctx := by
  have paused : s.flags.isPaused = t.flags.isPaused := h .paused (.inl (.inl rfl))
  have openRead : s.flags.isOpenRead = t.flags.isOpenRead := h .openRead (.inl (.inr rfl))
  have caller : ∀ caller, ctx.predecessor = some caller →
      LookupSet.contains s.authorizedCallers caller =
        LookupSet.contains t.authorizedCallers caller :=
    own_same (r := .authorizedCaller) h Set.subset_union_right
  have whitelist := caller_bind_congr caller .onlyAuthorizedCaller pure
  simp only [bind_pure] at whitelist
  rw [onlyReadAccess, onlyReadAccess, built.isOpenReadWhenUnpaused_eq,
    built'.isOpenReadWhenUnpaused_eq, paused, openRead, whitelist]

theorem fetchBatch_congr (built : Flags.Built s.flags) (built' : Flags.Built t.flags)
    {feedIds : List String} (h : SameOn (ctx.gateFields ∪ namedFields feedIds) s t) :
    s.fetchBatch ctx feedIds = t.fetchBatch ctx feedIds := by
  rw [fetchBatch, fetchBatch, onlyReadAccess_congr built built' fun k hk => h k (.inl hk)]
  have entries : (feedIds.mapM fun feedId => do
      let id ← parseFeedId feedId
      return (LookupMap.get s.feeds id).map FeedData.from : Except Panic (List (Option FeedData))) =
      feedIds.mapM fun feedId => do
        let id ← parseFeedId feedId
        return (LookupMap.get t.feeds id).map FeedData.from := by
    apply Abort.mapM_congr
    intro feedId asked
    cases parsed : parseFeedId feedId with
    | error panic => rfl
    | ok id =>
        have same : LookupMap.get s.feeds id = LookupMap.get t.feeds id :=
          h (.feed id) (.inr ⟨feedId, asked, id, parsed, rfl⟩)
        rw [Abort.ok_bind, Abort.ok_bind, same]
  rw [entries]

theorem fetch_congr (built : Flags.Built s.flags) (built' : Flags.Built t.flags)
    {feedId : String} (h : SameOn (ctx.gateFields ∪ namedFields [feedId]) s t) :
    s.fetch ctx feedId = t.fetch ctx feedId := by
  rw [fetch, fetch, onlyReadAccess_congr built built' fun k hk => h k (.inl hk)]
  cases parsed : parseFeedId feedId with
  | error panic => rfl
  | ok id =>
      have same : LookupMap.get s.feeds id = LookupMap.get t.feeds id :=
        h (.feed id) (.inr ⟨feedId, List.mem_singleton.mpr rfl, id, parsed, rfl⟩)
      rw [Abort.ok_bind, Abort.ok_bind, same]

variable [DecidableEq AccountId]

theorem transferOwnership_agrees {newOwner : AccountId}
    (h : SameOn (Transaction.reads ⟨ctx, .transferOwnership newOwner⟩) s t) :
    Abort.Agree (SameResult (Call.transferOwnership newOwner : Call AccountId).writes)
      (s.transferOwnership ctx newOwner) (t.transferOwnership ctx newOwner) := by
  have owner : s.owner = t.owner := h .owner (.inl rfl)
  rw [transferOwnership, transferOwnership, owner]
  apply Abort.Agree.same_bind
  intro _
  apply Abort.Agree.guarded
  intro _
  refine .ok ⟨?_, rfl⟩
  intro k hk
  cases hk
  rfl

theorem setOpenReadStatus_agrees {status : Bool} (built : Flags.Built s.flags)
    (built' : Flags.Built t.flags)
    (h : SameOn (Transaction.reads ⟨ctx, .setOpenReadStatus status⟩) s t) :
    Abort.Agree (SameResult (Call.setOpenReadStatus status : Call AccountId).writes)
      (s.setOpenReadStatus ctx status) (t.setOpenReadStatus ctx status) := by
  have owner : s.owner = t.owner := h .owner (.inl rfl)
  have same : s.flags.isOpenRead = t.flags.isOpenRead := h .openRead (.inr rfl)
  rw [setOpenReadStatus, setOpenReadStatus, owner, same]
  apply Abort.Agree.same_bind
  intro _
  apply Abort.Agree.guarded
  intro _
  refine .ok ⟨?_, rfl⟩
  intro k hk
  cases hk
  change s.flags.flipOpenRead.isOpenRead = t.flags.flipOpenRead.isOpenRead
  rw [built.isOpenRead_flipOpenRead, built'.isOpenRead_flipOpenRead, same]

omit [LookupMap Feeds UInt32 StoredFeed] [LookupMap Feeds' UInt32 StoredFeed]
  [LookupSet Roles AccountId] [LookupSet Roles' AccountId] [IterableSet Callers AccountId]
  [IterableSet Callers' AccountId] [DecidableEq AccountId] in
theorem role_writes (r : LookupRole) (us : List (RoleUpdate AccountId)) :
    (r.call us).writes = memberFields r.role us := by
  cases r <;> rfl

theorem setRole_agrees {r : LookupRole} {us : List (RoleUpdate AccountId)}
    (h : SameOn (Transaction.reads ⟨ctx, r.call us⟩) s t) :
    Abort.Agree (SameResult (r.call us).writes)
      (setRole (fun s => s.roleSet r) (fun s set => s.putRoleSet set r) r.role.event s ctx us)
      (setRole (fun s => s.roleSet r) (fun s set => s.putRoleSet set r) r.role.event t ctx us) := by
  have owner : s.owner = t.owner := by
    apply h .owner
    cases r <;> exact .inl rfl
  rw [setRole, setRole, owner]
  apply Abort.Agree.same_bind
  intro _
  apply Abort.Agree.guarded
  intro _
  have start : SameMembers {a | ∃ u ∈ us, u.account = a} (s.roleSet r) (t.roleSet r) := by
    intro a named
    obtain ⟨u, hu, same⟩ := named
    rw [contains_roleSet, contains_roleSet]
    apply h (.member r.role a)
    right
    rw [role_writes]
    exact ⟨u, hu, same ▸ rfl⟩
  have within : ∀ u ∈ us, u.account ∈ {a | ∃ v ∈ us, v.account = a} := fun u hu => ⟨u, hu, rfl⟩
  apply Abort.Agree.bind (updateRoleMembers_agrees within start)
  intro a b step
  refine .ok ⟨?_, step.2⟩
  rw [role_writes]
  intro k hk
  obtain ⟨u, hu, same⟩ := hk
  subst same
  have members := step.1 u.account ⟨u, hu, rfl⟩
  cases r <;> exact members

end Methods

/-! ## Calls -/

variable [DecidableEq AccountId]

section Calls
variable {s : MultiFeed Feeds Roles Callers AccountId}
  {t : MultiFeed Feeds' Roles' Callers' AccountId}

/-- Both calls were answered alike, and left states that show the same in some fields. -/
abbrev SameAnswered (fields : Set (Field AccountId))
    (a : MultiFeed Feeds Roles Callers AccountId × Value AccountId ×
      List (ContractEvent AccountId))
    (b : MultiFeed Feeds' Roles' Callers' AccountId × Value AccountId ×
      List (ContractEvent AccountId)) : Prop :=
  SameOn fields a.1 b.1 ∧ a.2.1.Alike b.2.1 ∧ a.2.2 = b.2.2

omit [DecidableEq AccountId] in
theorem SameResult.answered {fields : Set (Field AccountId)}
    (a : MultiFeed Feeds Roles Callers AccountId × List (ContractEvent AccountId))
    (b : MultiFeed Feeds' Roles' Callers' AccountId × List (ContractEvent AccountId))
    (h : SameResult fields a b) : SameAnswered fields (commit a) (commit b) :=
  ⟨h.1, .same .unit, h.2⟩

omit [DecidableEq AccountId] in
/-- Reads and getters with one answer. -/
theorem answered_same {α : Type} {x y : Except Panic α} (same : x = y)
    (value : α → Value AccountId) :
    Abort.Agree (SameAnswered ∅) ((fun a => s.answer (value a)) <$> x)
      ((fun a => t.answer (value a)) <$> y) := by
  subst same
  cases x with
  | error panic => exact .error panic
  | ok a => exact .ok ⟨fun _ nothing => absurd nothing (Set.notMem_empty _), .same _, rfl⟩

omit [DecidableEq AccountId] in
/-- The whitelists of states that agree on all of its memberships differ in order at most. -/
theorem getAuthorizedCallers_perm
    (h : SameOn {k | ∃ account, k = .member .authorizedCaller account} s t) :
    s.getAuthorizedCallers.Perm t.getAuthorizedCallers := by
  apply (List.perm_ext_iff_of_nodup (IterableSet.nodup_iter _) (IterableSet.nodup_iter _)).mpr
  intro account
  have same : LookupSet.contains s.authorizedCallers account =
      LookupSet.contains t.authorizedCallers account :=
    h (.member .authorizedCaller account) ⟨account, rfl⟩
  change account ∈ IterableSet.iter _ ↔ account ∈ IterableSet.iter _
  rw [IterableSet.mem_iter, IterableSet.mem_iter, same]

/-- What a call does depends on the fields it reads. -/
theorem dispatch_agrees (wf : WellFormed s) (wf' : WellFormed t) (ctx : VMContext AccountId)
    (call : Call AccountId) (h : SameOn (Transaction.reads ⟨ctx, call⟩) s t) :
    Abort.Agree (SameAnswered call.writes) (s.dispatch ctx call) (t.dispatch ctx call) := by
  have getter {α : Type} {a b : α} (value : α → Value AccountId) (same : a = b) :
      Abort.Agree (SameAnswered ∅) (.ok (s.answer (value a)) : Except Panic _)
        (.ok (t.answer (value b))) := by
    subst same
    exact .ok ⟨fun _ nothing => absurd nothing (Set.notMem_empty _), .same _, rfl⟩
  have role {r : LookupRole} {us : List (RoleUpdate AccountId)}
      (h : SameOn (Transaction.reads ⟨ctx, r.call us⟩) s t) :
      Abort.Agree (SameAnswered (r.call us).writes) (s.dispatch ctx (r.call us))
        (t.dispatch ctx (r.call us)) := by
    rw [dispatch_role_call, dispatch_role_call]
    exact (setRole_agrees h).map SameResult.answered
  cases call with
  | new =>
      apply Abort.Agree.same_bind
      intro _
      exact .error _
  | f us =>
      apply Abort.Agree.same_bind
      intro _
      exact (f_agrees wf.flushed wf'.flushed h).map SameResult.answered
  | transferOwnership => exact (transferOwnership_agrees h).map SameResult.answered
  | setAdmins => exact role (r := .admin) h
  | setProducts => exact role (r := .product) h
  | setPriceReporters => exact role (r := .priceReporter) h
  | setAuthorizedCallers => exact (setAuthorizedCallers_agrees h).map SameResult.answered
  | setPaused => exact (setPaused_agrees wf.built wf'.built h).map SameResult.answered
  | setOpenReadStatus =>
      exact (setOpenReadStatus_agrees wf.built wf'.built h).map SameResult.answered
  | fetch =>
      exact answered_same (fetch_congr wf.built wf'.built fun k hk => h k (.inl hk)) .feed
  | fetchBatch =>
      exact answered_same (fetchBatch_congr wf.built wf'.built fun k hk => h k (.inl hk)) .feeds
  | getOwner => exact getter .account (h .owner (.inl rfl))
  | description => exact getter .text (h .description (.inl rfl))
  | decimals => exact getter .byte rfl
  | version => exact getter .byte rfl
  | isAdmin account => exact getter .bool (h (.member .admin account) (.inl rfl))
  | isProduct account => exact getter .bool (h (.member .product account) (.inl rfl))
  | isPriceReporter account => exact getter .bool (h (.member .priceReporter account) (.inl rfl))
  | isAuthorizedCaller account =>
      exact getter .bool (h (.member .authorizedCaller account) (.inl rfl))
  | isPaused => exact getter .bool (h .paused (.inl rfl))
  | isOpenRead => exact getter .bool (h .openRead (.inl rfl))
  | getAuthorizedCallers =>
      have listed := getAuthorizedCallers_perm fun k hk => h k (.inl hk)
      exact .ok ⟨fun _ nothing => absurd nothing (Set.notMem_empty _), .listed listed, rfl⟩

theorem step_determined (wf : WellFormed s) (wf' : WellFormed t) (tx : Transaction AccountId)
    (h : SameOn tx.reads s t) :
    (s.step tx).2.Alike (t.step tx).2 ∧ SameOn tx.call.writes (s.step tx).1 (t.step tx).1 := by
  have both := dispatch_agrees wf wf' tx.ctx tx.call h
  rw [step, step]
  generalize s.dispatch tx.ctx tx.call = x at both ⊢
  generalize t.dispatch tx.ctx tx.call = y at both ⊢
  cases both with
  | error panic => exact ⟨.failure _, fun k hk => h k (.inr hk)⟩
  | @ok a b result =>
      obtain ⟨fields, value, events⟩ := result
      obtain ⟨_, _, _⟩ := a
      obtain ⟨_, _, _⟩ := b
      cases events
      exact ⟨.success _ value, fields⟩

end Calls

section Frame
variable {s next : MultiFeed Feeds Roles Callers AccountId} {ctx : VMContext AccountId}
  {call : Call AccountId} {log : List (ContractEvent AccountId)}

/-- A field that a call does not write stays. -/
theorem Effect.frame (effect : Effect s ctx call next log) (wf : WellFormed s)
    {k : Field AccountId} (unwritten : k ∉ call.writes) : next.observe k = s.observe k := by
  cases effect with
  | read => rfl
  | @f _ us =>
      cases k with
      | feed id =>
          have none_named : ∀ u ∈ us, u.feedId ≠ id := fun u hu same =>
            unwritten ⟨u, hu, same ▸ rfl⟩
          have silent : KeyedLog.latest FeedUpdate.feedId id us = none :=
            (KeyedLog.latest_eq_none_iff _).mpr none_named
          change LookupMap.get (LookupMap.flush (insertAll _ _)) id = LookupMap.get s.feeds id
          rw [get_flush_insertAll, latest_writes, silent, wf.flushed]
          rfl
      | member r account => cases r <;> rfl
      | _ => rfl
  | transferOwnership =>
      cases k with
      | owner => exact absurd rfl unwritten
      | feed id => exact congrArg (LookupMap.get · id) wf.flushed
      | member r account => cases r <;> rfl
      | _ => rfl
  | @setRole r us =>
      rw [role_writes] at unwritten
      cases k with
      | feed id =>
          have settled := congrArg (LookupMap.get · id) wf.flushed
          cases r <;> exact settled
      | member r' account =>
          change (MultiFeed.putRoleSet _ _ r).hasRole r' account = s.hasRole r' account
          rw [hasRole_putRoleSet]
          by_cases own : r' = r.role
          · subst own
            have none_named : ∀ u ∈ us, u.account ≠ account := fun u hu same =>
              unwritten ⟨u, hu, same ▸ rfl⟩
            have silent : KeyedLog.latest RoleUpdate.account account us = none :=
              (KeyedLog.latest_eq_none_iff _).mpr none_named
            rw [if_pos rfl, contains_setMembers, membership, KeyedLog.current, silent,
              contains_roleSet]
            rfl
          · rw [if_neg own]
            cases r' <;> rfl
      | _ => cases r <;> rfl
  | @setAuthorizedCallers _ us =>
      cases k with
      | feed id => exact congrArg (LookupMap.get · id) wf.flushed
      | member r account =>
          cases r with
          | authorizedCaller =>
              have none_named : ∀ u ∈ us, u.account ≠ account := fun u hu same =>
                unwritten ⟨u, hu, same ▸ rfl⟩
              have silent : KeyedLog.latest RoleUpdate.account account us = none :=
                (KeyedLog.latest_eq_none_iff _).mpr none_named
              change LookupSet.contains (updateAuthorizedCallers _ _).1 account = _
              rw [contains_updateAuthorizedCallers, membership, KeyedLog.current, silent]
              rfl
          | _ => rfl
      | _ => rfl
  | setPaused =>
      cases k with
      | paused => exact absurd rfl unwritten
      | openRead => exact wf.built.isOpenRead_flipPaused
      | feed id => exact congrArg (LookupMap.get · id) wf.flushed
      | member r account => cases r <;> rfl
      | _ => rfl
  | setOpenReadStatus =>
      cases k with
      | openRead => exact absurd rfl unwritten
      | paused => exact wf.built.isPaused_flipOpenRead
      | feed id => exact congrArg (LookupMap.get · id) wf.flushed
      | member r account => cases r <;> rfl
      | _ => rfl

theorem step_frame (wf : WellFormed s) (tx : Transaction AccountId) (k : Field AccountId)
    (unwritten : k ∉ tx.call.writes) : (s.step tx).1.observe k = s.observe k := by
  rcases s.step_cases tx with ⟨next, value, log, same, effect⟩ | ⟨panic, -, same⟩
  · rw [same]
    exact effect.frame wf unwritten
  · rw [same]

end Frame

/-- The footprint of the contract. -/
def footprint : Machine.Footprint (@Field.Datum AccountId)
    (step : MultiFeed Feeds Roles Callers AccountId → Transaction AccountId →
      MultiFeed Feeds Roles Callers AccountId × Outcome AccountId) where
  Valid := WellFormed
  observe := observe
  Alike := Outcome.Alike
  reads := Transaction.reads
  writes tx := tx.call.writes
  alike := Outcome.Alike.equivalence
  writes_subset _ := Set.subset_union_right
  valid_step h tx := h.step tx
  determined wf wf' tx h := step_determined wf wf' tx h
  frame wf tx k unwritten := step_frame wf tx k unwritten

end MultiFeed

end NearMultiFeed
