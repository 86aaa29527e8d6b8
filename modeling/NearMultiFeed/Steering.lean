import Mathlib.Data.Set.Finite.Lattice
import NearMultiFeed.Footprints
import NearMultiFeed.RoleBatches

/-!
# Calls that set what is wanted

For each field that a role may change, a call that gives it any permitted value and
goes through; and sequences of such calls, each writing fields of its own.
-/
namespace NearMultiFeed

section Differing
variable {κ β : Type} [DecidableEq κ] [DecidableEq β] {base wanted : κ → β} {keys : List κ}

/-- The listed keys at which two functions differ, each once. -/
def differing (base wanted : κ → β) (keys : List κ) : List κ :=
  keys.dedup.filter fun k => base k ≠ wanted k

theorem mem_differing {k : κ} :
    k ∈ differing base wanted keys ↔ k ∈ keys ∧ base k ≠ wanted k := by
  simp only [differing, List.mem_filter, List.mem_dedup, decide_eq_true_eq]

theorem differing_nodup : (differing base wanted keys).Nodup :=
  (List.nodup_dedup keys).filter _

theorem eq_of_differing_nil (covered : ∀ k, base k ≠ wanted k → k ∈ keys)
    (nothing : differing base wanted keys = []) : base = wanted := by
  funext k
  by_contra differ
  have listed := mem_differing.mpr ⟨covered k differ, differ⟩
  rw [nothing] at listed
  cases listed

end Differing

section Memberships
variable {AccountId : Type} [DecidableEq AccountId] {base members : AccountId → Bool}
  {accounts : List AccountId}

/-- The updates that take a membership from `base` to `members`. -/
def difference (base members : AccountId → Bool) (accounts : List AccountId) :
    List (RoleUpdate AccountId) :=
  (differing base members accounts).map fun a => ⟨a, members a⟩

theorem difference_alternates : Alternating base (difference base members accounts) := by
  apply KeyedLog.chained_of_nodup
  · rw [difference, List.map_map]
    exact differing_nodup.map Function.injective_id
  · intro u hu
    obtain ⟨a, listed, made⟩ := List.mem_map.mp hu
    subst made
    exact (mem_differing.mp listed).2

/-- If all differences are listed, the updates lead to `members`. -/
theorem membership_difference (covered : ∀ a, base a ≠ members a → a ∈ accounts) :
    membership base (difference base members accounts) = members := by
  funext a
  rw [membership, KeyedLog.current, difference,
    KeyedLog.latest_of_keys RoleUpdate.account (fun _ => rfl)]
  by_cases listed : a ∈ differing base members accounts
  · rw [if_pos listed]
    rfl
  · rw [if_neg listed]
    by_contra differ
    exact listed (mem_differing.mpr ⟨covered a differ, differ⟩)

end Memberships

section Reports
variable {Feeds : Type} [LookupMap Feeds UInt32 StoredFeed]

/-- What a report in a call at block second `now` can put into a feed. -/
structure Reportable (feeds : Feeds) (now : UInt64) (id : UInt32) (feed : StoredFeed) : Prop where
  price : feed.price.toNat < 2 ^ 80
  newer : prevVersion feeds id < feed.aggTs.toNat
  near : feed.aggTs.toNat < now.toNat + 60
  onchain : feed.onchainTs = now

/-- The entry that puts a value into a feed. -/
def reportOf (wanted : UInt32 → Option StoredFeed) (id : UInt32) : FeedUpdate :=
  match wanted id with
  | some feed => ⟨id, feed.price, feed.aggTs⟩
  | none => ⟨id, 0, 0⟩

theorem reportOf_feedId (wanted : UInt32 → Option StoredFeed) (id : UInt32) :
    (reportOf wanted id).feedId = id := by
  rw [reportOf]
  cases wanted id <;> rfl

theorem Reportable.persisted {feeds : Feeds} {now : UInt64} {id : UInt32} {feed : StoredFeed}
    (h : Reportable feeds now id feed) (early : now.toNat < 2 ^ 35) :
    feed.persisted = feed := by
  have near := h.near
  apply (StoredFeed.persisted_eq_self_iff feed).mpr
  refine ⟨h.price, ?_, ?_⟩
  · omega
  · rw [h.onchain]
    omega

theorem Reportable.of_same {feeds feeds' : Feeds} {now : UInt64} {id : UInt32} {feed : StoredFeed}
    (h : Reportable feeds now id feed) (same : LookupMap.get feeds' id = LookupMap.get feeds id) :
    Reportable feeds' now id feed := by
  refine ⟨h.price, ?_, h.near, h.onchain⟩
  rw [prevVersion, prevAggTs, same]
  exact h.newer

/-- A batch with one entry for each feed that is to change. -/
theorem accepts_reports {feeds : Feeds} {now : UInt64} {wanted : UInt32 → Option StoredFeed}
    {ids : List UInt32} (reportable : ∀ id, LookupMap.get feeds id ≠ wanted id →
      ∃ feed, wanted id = some feed ∧ Reportable feeds now id feed) :
    Accepts feeds now ((differing (LookupMap.get feeds) wanted ids).map (reportOf wanted)) := by
  have entry {u : FeedUpdate}
      (hu : u ∈ (differing (LookupMap.get feeds) wanted ids).map (reportOf wanted)) :
      ∃ feed, Reportable feeds now u.feedId feed ∧ u = ⟨u.feedId, feed.price, feed.aggTs⟩ := by
    obtain ⟨id, listed, made⟩ := List.mem_map.mp hu
    subst made
    obtain ⟨feed, found, good⟩ := reportable id (mem_differing.mp listed).2
    rw [reportOf_feedId]
    refine ⟨feed, good, ?_⟩
    rw [reportOf, found]
  have apart : (((differing (LookupMap.get feeds) wanted ids).map (reportOf wanted)).map
      FeedUpdate.feedId).Nodup := by
    have keys : FeedUpdate.feedId ∘ reportOf wanted = id := funext (reportOf_feedId wanted)
    rw [List.map_map, keys]
    exact differing_nodup.map Function.injective_id
  apply (accepts_iff_of_nodup apart).mpr
  intro u hu
  obtain ⟨feed, good, same⟩ := entry hu
  rw [same]
  exact ⟨good.newer, good.near⟩

/-- What the feeds hold after that batch. -/
theorem get_reports {feeds : Feeds} (settled : LookupMap.flush feeds = feeds) {now : UInt64}
    (early : now.toNat < 2 ^ 35) {wanted : UInt32 → Option StoredFeed} {ids : List UInt32}
    (covered : ∀ id, LookupMap.get feeds id ≠ wanted id → id ∈ ids)
    (reportable : ∀ id, LookupMap.get feeds id ≠ wanted id →
      ∃ feed, wanted id = some feed ∧ Reportable feeds now id feed) (id : UInt32) :
    LookupMap.get (LookupMap.flush (insertAll feeds
        (((differing (LookupMap.get feeds) wanted ids).map (reportOf wanted)).map
          (FeedUpdate.write now)))) id = wanted id := by
  rw [get_flush_insertAll, latest_writes, settled,
    KeyedLog.latest_of_keys FeedUpdate.feedId (reportOf_feedId wanted)]
  by_cases listed : id ∈ differing (LookupMap.get feeds) wanted ids
  · obtain ⟨feed, found, good⟩ := reportable id (mem_differing.mp listed).2
    have kept : StoredFeed.persisted ⟨feed.price, feed.aggTs, now⟩ = feed := by
      rw [← good.onchain]
      exact good.persisted early
    rw [if_pos listed, reportOf, found]
    exact congrArg some kept
  · rw [if_neg listed]
    by_contra differ
    exact listed (mem_differing.mpr ⟨covered id differ, differ⟩)

end Reports

/-- The account a membership is about. -/
def Field.account? {AccountId : Type} : Field AccountId → Option AccountId
  | .member _ a => some a
  | _ => none

/-- The feed a field is. -/
def Field.feedId? {AccountId : Type} : Field AccountId → Option UInt32
  | .feed id => some id
  | _ => none

/-- The call is made by a member of the coalition, in the block of the given time. -/
def Transaction.By {AccountId : Type} (tx : Transaction AccountId) (coalition : Set AccountId)
    (time : UInt64) : Prop :=
  tx.ctx.blockTimestamp = time ∧ ∃ caller ∈ coalition, tx.ctx.predecessor = some caller

namespace MultiFeed

variable {Feeds Roles Callers AccountId : Type} [DecidableEq AccountId]
  [LookupMap Feeds UInt32 StoredFeed] [LookupSet Roles AccountId]
  [IterableSet Callers AccountId]

/-- A member of the coalition has the role. -/
def Holds (s : MultiFeed Feeds Roles Callers AccountId) (coalition : Set AccountId) (r : Role) :
    Prop := ∃ a ∈ coalition, s.hasRole r a = true

/-! ## Calls that all go through -/

/-- Calls of a coalition in one block lead from `s` to `t`, and all of them go through. -/
def Steers (coalition : Set AccountId) (time : UInt64)
    (s t : MultiFeed Feeds Roles Callers AccountId) : Prop :=
  ∃ txs, (∀ tx ∈ txs, tx.By coalition time) ∧
    (∀ r ∈ s.receipts txs, ∃ events, r.2 = .success .unit events) ∧ s.run txs = t

section Steering
variable {coalition : Set AccountId} {time : UInt64}
  {s t u : MultiFeed Feeds Roles Callers AccountId}

theorem Steers.refl (s : MultiFeed Feeds Roles Callers AccountId) : Steers coalition time s s :=
  ⟨[], fun _ none_yet => absurd none_yet List.not_mem_nil,
    fun _ none_yet => absurd none_yet List.not_mem_nil, rfl⟩

theorem Steers.single {tx : Transaction AccountId} {events : List (ContractEvent AccountId)}
    (made : tx.By coalition time) (went : (s.step tx).2 = .success .unit events) :
    Steers coalition time s (s.step tx).1 := by
  refine ⟨[tx], ?_, ?_, rfl⟩
  · intro tx' only
    rw [List.mem_singleton.mp only]
    exact made
  · intro r hr
    rw [List.mem_singleton.mp hr]
    exact ⟨events, went⟩

theorem Steers.trans (h : Steers coalition time s t) (h' : Steers coalition time t u) :
    Steers coalition time s u := by
  obtain ⟨txs, made, went, rfl⟩ := h
  obtain ⟨txs', made', went', rfl⟩ := h'
  refine ⟨txs ++ txs', ?_, ?_, ?_⟩
  · intro tx htx
    rcases List.mem_append.mp htx with early | late
    · exact made tx early
    · exact made' tx late
  · intro r hr
    rw [receipts, Machine.trace_append] at hr
    rcases List.mem_append.mp hr with early | late
    · exact went r early
    · exact went' r late
  · rw [run, Machine.run_append]

/-- What a coalition can bring about: the fields in `fields` as in `goal`, the others
as they are. -/
def CanSet (coalition : Set AccountId) (time : UInt64)
    (s : MultiFeed Feeds Roles Callers AccountId) (fields : Set (Field AccountId))
    (goal : (k : Field AccountId) → k.Datum) : Prop :=
  ∃ t, Steers coalition time s t ∧ WellFormed t ∧ (∀ k ∈ fields, t.observe k = goal k) ∧
    ∀ k ∉ fields, t.observe k = s.observe k

variable {fields fields' : Set (Field AccountId)} {goal : (k : Field AccountId) → k.Datum}

/-- A call that goes through and does what is wanted. -/
theorem canSet_of_step {tx : Transaction AccountId} {events : List (ContractEvent AccountId)}
    (wf : WellFormed s) (made : tx.By coalition time)
    (went : (s.step tx).2 = .success .unit events) (written : tx.call.writes ⊆ fields)
    (reached : ∀ k ∈ fields, (s.step tx).1.observe k = goal k) :
    CanSet coalition time s fields goal :=
  ⟨(s.step tx).1, .single made went, wf.step tx, reached,
    fun k other => step_frame wf tx k fun writes => other (written writes)⟩

/-- Nothing to do. -/
theorem canSet_of_same (wf : WellFormed s) (same : ∀ k ∈ fields, s.observe k = goal k) :
    CanSet coalition time s fields goal :=
  ⟨s, .refl s, wf, same, fun _ _ => rfl⟩

/-- Set some fields, then some more. -/
theorem CanSet.chain (h : CanSet coalition time s fields goal)
    (next : ∀ t : MultiFeed Feeds Roles Callers AccountId, WellFormed t →
      (∀ k, t.observe k = goal k ∨ t.observe k = s.observe k) →
      (∀ k ∉ fields, t.observe k = s.observe k) → CanSet coalition time t fields' goal) :
    CanSet coalition time s (fields ∪ fields') goal := by
  obtain ⟨t, steps, wf, set, rest⟩ := h
  have progress (k : Field AccountId) : t.observe k = goal k ∨ t.observe k = s.observe k := by
    by_cases here : k ∈ fields
    · exact .inl (set k here)
    · exact .inr (rest k here)
  obtain ⟨u, steps', wf', set', rest'⟩ := next t wf progress rest
  refine ⟨u, steps.trans steps', wf', ?_, ?_⟩
  · intro k here
    by_cases again : k ∈ fields'
    · exact set' k again
    · rw [rest' k again]
      exact set k (here.resolve_right again)
  · intro k other
    rw [rest' k fun here => other (.inr here)]
    exact rest k fun here => other (.inl here)

/-- The members of one role. -/
def roleFields (r : Role) : Set (Field AccountId) := {k | ∃ a, k = .member r a}

/-- All feeds. -/
def feedFields : Set (Field AccountId) := {k | ∃ id, k = .feed id}

theorem canSet_role (wf : WellFormed s) (own : s.owner ∈ coalition) (r : LookupRole)
    {accounts : List AccountId}
    (covered : ∀ a, s.hasRole r.role a ≠ goal (.member r.role a) → a ∈ accounts) :
    CanSet coalition time s (roleFields r.role) goal := by
  let members : AccountId → Bool := fun a => goal (.member r.role a)
  let us := difference (s.hasRole r.role) members accounts
  by_cases nothing : us = []
  · apply canSet_of_same wf
    intro k here
    obtain ⟨a, rfl⟩ := here
    have none_differ : differing (s.hasRole r.role) members accounts = [] :=
      List.map_eq_nil_iff.mp nothing
    exact congrFun (eq_of_differing_nil covered none_differ) a
  · let tx : Transaction AccountId := ⟨⟨some s.owner, 1, time⟩, r.call us⟩
    have ran : s.step tx = (_, .success .unit _) :=
      step_role_call.mpr ⟨rfl, rfl, nothing, difference_alternates, rfl, rfl, rfl⟩
    have made : tx.By coalition time := ⟨rfl, s.owner, own, rfl⟩
    apply canSet_of_step wf made (congrArg Prod.snd ran)
    · rw [role_writes]
      intro k here
      obtain ⟨u, -, same⟩ := here
      exact ⟨u.account, same⟩
    · intro k here
      obtain ⟨a, rfl⟩ := here
      have reached : LookupSet.contains (setMembers (s.roleSet r) us) = members := by
        rw [contains_setMembers, contains_roleSet]
        exact membership_difference covered
      have stored := hasRole_putRoleSet_self s r (setMembers (s.roleSet r) us)
      rw [reached] at stored
      have here := congrFun stored a
      rw [ran]
      cases r <;> exact here

theorem canSet_authorizedCallers (wf : WellFormed s) {accounts : List AccountId}
    (covered : ∀ a, s.isAuthorizedCaller a ≠ goal (.member .authorizedCaller a) → a ∈ accounts)
    (allowed : ∀ a, s.isAuthorizedCaller a ≠ goal (.member .authorizedCaller a) →
      s.Holds coalition .product) :
    CanSet coalition time s (roleFields .authorizedCaller) goal := by
  let members : AccountId → Bool := fun a => goal (.member .authorizedCaller a)
  let us := difference s.isAuthorizedCaller members accounts
  cases changed : differing s.isAuthorizedCaller members accounts with
  | nil =>
      apply canSet_of_same wf
      intro k here
      obtain ⟨a, rfl⟩ := here
      exact congrFun (eq_of_differing_nil covered changed) a
  | cons a _ =>
      have listed : a ∈ differing s.isAuthorizedCaller members accounts := by
        rw [changed]
        exact List.mem_cons_self
      obtain ⟨caller, member, product⟩ := allowed a (mem_differing.mp listed).2
      have some_updates : us ≠ [] := List.ne_nil_of_mem (List.mem_map_of_mem listed)
      let tx : Transaction AccountId := ⟨⟨some caller, 1, time⟩, .setAuthorizedCallers us⟩
      have ran : s.step tx = (_, .success .unit _) :=
        step_setAuthorizedCallers.mpr ⟨rfl, ⟨caller, rfl, product⟩, some_updates, rfl, rfl, rfl⟩
      have made : tx.By coalition time := ⟨rfl, caller, member, rfl⟩
      apply canSet_of_step wf made (congrArg Prod.snd ran)
      · intro k here
        obtain ⟨u, -, same⟩ := here
        exact ⟨u.account, same⟩
      · intro k here
        obtain ⟨a, rfl⟩ := here
        have reached := contains_updateAuthorizedCallers s.authorizedCallers us
        have wanted : membership s.isAuthorizedCaller us = members :=
          membership_difference covered
        rw [ran]
        exact congrFun (reached.trans wanted) a

/-- One report of a reporter brings all feeds to what is wanted. -/
theorem report_reaches (wf : WellFormed s) {wanted : UInt32 → Option StoredFeed}
    {ids : List UInt32} (covered : ∀ id, LookupMap.get s.feeds id ≠ wanted id → id ∈ ids)
    (reportable : ∀ id, LookupMap.get s.feeds id ≠ wanted id →
      ∃ feed, wanted id = some feed ∧ Reportable s.feeds (time / nanosPerSec) id feed)
    {id : UInt32} (differ : LookupMap.get s.feeds id ≠ wanted id) {caller : AccountId}
    (reporter : s.isPriceReporter caller = true) :
    ∃ us events, (s.step ⟨⟨some caller, 0, time⟩, .f us⟩).2 = .success .unit events ∧
      ∀ id, LookupMap.get (s.step ⟨⟨some caller, 0, time⟩, .f us⟩).1.feeds id = wanted id := by
  let us := (differing (LookupMap.get s.feeds) wanted ids).map (reportOf wanted)
  let ctx : VMContext AccountId := ⟨some caller, 0, time⟩
  have listed : id ∈ differing (LookupMap.get s.feeds) wanted ids :=
    mem_differing.mpr ⟨covered id differ, differ⟩
  have some_updates : us ≠ [] := List.ne_nil_of_mem (List.mem_map_of_mem listed)
  have good : Accepts s.feeds (blockSecond ctx) us := accepts_reports reportable
  have went : (s.step ⟨ctx, .f us⟩).2 = .success .unit _ :=
    step_f.mpr ⟨⟨caller, rfl, reporter⟩, rfl, some_updates, good, rfl, rfl⟩
  refine ⟨us, _, went, ?_⟩
  intro id
  rw [step_f_next went]
  exact get_reports wf.flushed (blockSecond_lt ctx) covered reportable id

theorem canSet_feeds (wf : WellFormed s) {ids : List UInt32}
    (covered : ∀ id, LookupMap.get s.feeds id ≠ goal (.feed id) → id ∈ ids)
    (allowed : ∀ id, LookupMap.get s.feeds id ≠ goal (.feed id) →
      s.Holds coalition .priceReporter ∧
        ∃ feed, goal (.feed id) = some feed ∧ Reportable s.feeds (time / nanosPerSec) id feed) :
    CanSet coalition time s feedFields goal := by
  let wanted : UInt32 → Option StoredFeed := fun id => goal (.feed id)
  by_cases same : ∀ id, LookupMap.get s.feeds id = wanted id
  · apply canSet_of_same wf
    intro k here
    obtain ⟨id, rfl⟩ := here
    exact same id
  · obtain ⟨id, differ⟩ := not_forall.mp same
    obtain ⟨⟨caller, member, reporter⟩, -⟩ := allowed id differ
    have reportable (id : UInt32) (differ : LookupMap.get s.feeds id ≠ wanted id) :=
      (allowed id differ).2
    obtain ⟨us, events, went, reached⟩ := report_reaches wf covered reportable differ reporter
    have made : Transaction.By ⟨⟨some caller, 0, time⟩, .f us⟩ coalition time :=
      ⟨rfl, caller, member, rfl⟩
    apply canSet_of_step wf made went
    · intro k here
      obtain ⟨u, -, same⟩ := here
      exact ⟨u.feedId, same⟩
    · intro k here
      obtain ⟨id, rfl⟩ := here
      exact reached id

/-! The methods that set one field. -/

section Guards
variable {ctx : VMContext AccountId} {caller : AccountId}

omit [DecidableEq AccountId] in
/-- The first two lines of a privileged method. -/
theorem confirmed_bind (called : ctx.predecessor = some caller) (one : ctx.deposit = 1) {α : Type}
    (next : AccountId → Except Panic α) :
    (assertOneYocto ctx >>= fun _ => ctx.predecessorAccountId >>= next) = next caller := by
  have present : ctx.predecessor.isSome = true := by rw [called]; rfl
  rw [(assertOneYocto_eq_ok (u := ())).mpr ⟨present, one⟩, Abort.ok_bind,
    predecessorAccountId_eq_ok.mpr called, Abort.ok_bind]

theorem required_bind {condition : Bool} (holds : condition = true) (panic : Panic) {α : Type}
    (next : Unit → Except Panic α) : require condition panic >>= next = next () := by
  rw [require_eq_ok.mpr holds, Abort.ok_bind]

end Guards

theorem canSet_paused (wf : WellFormed s)
    (allowed : s.observe .paused ≠ goal .paused → s.Holds coalition .admin) :
    CanSet coalition time s {.paused} goal := by
  let wanted : Bool := goal .paused
  by_cases same : s.isPaused = wanted
  · apply canSet_of_same wf
    intro k here
    cases here
    exact same
  · obtain ⟨caller, member, has⟩ := allowed same
    have admin : LookupSet.contains s.admin caller = true := has
    let tx : Transaction AccountId := ⟨⟨some caller, 1, time⟩, .setPaused wanted⟩
    have ran : s.step tx = ({ s with flags := s.flags.flipPaused }.persist,
        .success .unit [.pausedStatusChanged wanted]) := by
      apply step_eq_success.mpr
      have differ : (s.flags.isPaused != wanted) = true := bne_iff_ne.mpr same
      rw [dispatch, setPaused, confirmed_bind rfl rfl, required_bind admin, required_bind differ]
      rfl
    have made : tx.By coalition time := ⟨rfl, caller, member, rfl⟩
    apply canSet_of_step wf made (congrArg Prod.snd ran) subset_rfl
    intro k here
    cases here
    rw [ran]
    change s.flags.flipPaused.isPaused = wanted
    rw [wf.built.isPaused_flipPaused]
    exact Bool.not_eq.mpr same

theorem canSet_openRead (wf : WellFormed s) (own : s.owner ∈ coalition) :
    CanSet coalition time s {.openRead} goal := by
  let wanted : Bool := goal .openRead
  by_cases same : s.isOpenRead = wanted
  · apply canSet_of_same wf
    intro k here
    cases here
    exact same
  · let tx : Transaction AccountId := ⟨⟨some s.owner, 1, time⟩, .setOpenReadStatus wanted⟩
    have ran : s.step tx = ({ s with flags := s.flags.flipOpenRead }.persist,
        .success .unit [.openReadStatusChanged wanted]) := by
      apply step_eq_success.mpr
      have differ : (s.flags.isOpenRead != wanted) = true := bne_iff_ne.mpr same
      rw [dispatch, setOpenReadStatus, confirmed_bind rfl rfl,
        required_bind (beq_self_eq_true s.owner), required_bind differ]
      rfl
    have made : tx.By coalition time := ⟨rfl, s.owner, own, rfl⟩
    apply canSet_of_step wf made (congrArg Prod.snd ran) subset_rfl
    intro k here
    cases here
    rw [ran]
    change s.flags.flipOpenRead.isOpenRead = wanted
    rw [wf.built.isOpenRead_flipOpenRead]
    exact Bool.not_eq.mpr same

theorem canSet_owner (wf : WellFormed s) (own : s.owner ∈ coalition) :
    CanSet coalition time s {.owner} goal := by
  let wanted : AccountId := goal .owner
  by_cases same : s.owner = wanted
  · apply canSet_of_same wf
    intro k here
    cases here
    exact same
  · let tx : Transaction AccountId := ⟨⟨some s.owner, 1, time⟩, .transferOwnership wanted⟩
    have ran : s.step tx = ({ s with owner := wanted }.persist,
        .success .unit [.ownershipTransferred (some s.owner) wanted]) := by
      apply step_eq_success.mpr
      have differ : (wanted != s.owner) = true := bne_iff_ne.mpr (Ne.symm same)
      rw [dispatch, transferOwnership, confirmed_bind rfl rfl,
        required_bind (beq_self_eq_true s.owner), required_bind differ]
      rfl
    have made : tx.By coalition time := ⟨rfl, s.owner, own, rfl⟩
    apply canSet_of_step wf made (congrArg Prod.snd ran) subset_rfl
    intro k here
    cases here
    rw [ran]
    rfl

/-! ## Several fields -/

/-- Lists of all accounts and feeds in which the contract still differs from `goal`. -/
structure Covers (s : MultiFeed Feeds Roles Callers AccountId)
    (goal : (k : Field AccountId) → k.Datum) (accounts : List AccountId) (ids : List UInt32) :
    Prop where
  accounts : ∀ r a, s.hasRole r a ≠ goal (.member r a) → a ∈ accounts
  ids : ∀ id, LookupMap.get s.feeds id ≠ goal (.feed id) → id ∈ ids

omit [DecidableEq AccountId] in
theorem Covers.of_progress {accounts : List AccountId} {ids : List UInt32}
    (h : Covers s goal accounts ids)
    (progress : ∀ k, t.observe k = goal k ∨ t.observe k = s.observe k) :
    Covers t goal accounts ids := by
  constructor
  · intro r a differ
    have same : t.hasRole r a = s.hasRole r a := (progress (.member r a)).resolve_left differ
    rw [same] at differ
    exact h.accounts r a differ
  · intro id differ
    have same : LookupMap.get t.feeds id = LookupMap.get s.feeds id :=
      (progress (.feed id)).resolve_left differ
    rw [same] at differ
    exact h.ids id differ

omit [DecidableEq AccountId] in
theorem exists_covers (finite : {k | s.observe k ≠ goal k}.Finite) :
    ∃ accounts ids, Covers s goal accounts ids := by
  have mem {k : Field AccountId} (differ : s.observe k ≠ goal k) :
      k ∈ finite.toFinset.toList :=
    Finset.mem_toList.mpr (finite.mem_toFinset.mpr differ)
  refine ⟨finite.toFinset.toList.filterMap Field.account?,
    finite.toFinset.toList.filterMap Field.feedId?, ?_, ?_⟩
  · intro r a differ
    have changed : s.observe (.member r a) ≠ goal (.member r a) := differ
    exact List.mem_filterMap.mpr ⟨_, mem changed, rfl⟩
  · intro id differ
    have changed : s.observe (.feed id) ≠ goal (.feed id) := differ
    exact List.mem_filterMap.mpr ⟨_, mem changed, rfl⟩

omit [DecidableEq AccountId] [LookupMap Feeds UInt32 StoredFeed] in
theorem Holds.of_same {r : Role} (h : s.Holds coalition r)
    (same : ∀ a, t.hasRole r a = s.hasRole r a) : t.Holds coalition r := by
  obtain ⟨a, member, has⟩ := h
  rw [← same a] at has
  exact ⟨a, member, has⟩

/-- What does not take the owner: the pause, the whitelist and the feeds. -/
theorem canSet_shared (wf : WellFormed s) {accounts : List AccountId} {ids : List UInt32}
    (covers : Covers s goal accounts ids)
    (paused : s.observe .paused ≠ goal .paused → s.Holds coalition .admin)
    (callers : ∀ a, s.isAuthorizedCaller a ≠ goal (.member .authorizedCaller a) →
      s.Holds coalition .product)
    (feeds : ∀ id, LookupMap.get s.feeds id ≠ goal (.feed id) →
      s.Holds coalition .priceReporter ∧
        ∃ feed, goal (.feed id) = some feed ∧ Reportable s.feeds (time / nanosPerSec) id feed) :
    CanSet coalition time s ({.paused} ∪ roleFields .authorizedCaller ∪ feedFields) goal := by
  apply CanSet.chain (CanSet.chain (canSet_paused wf paused) ?_) ?_
  · intro t wf' progress rest
    have same (r : Role) (a : AccountId) : t.hasRole r a = s.hasRole r a :=
      rest (.member r a) (by simp)
    apply canSet_authorizedCallers wf' ((covers.of_progress progress).accounts .authorizedCaller)
    intro a differ
    have kept : t.isAuthorizedCaller a = s.isAuthorizedCaller a := same .authorizedCaller a
    rw [kept] at differ
    exact (callers a differ).of_same (same .product)
  · intro t wf' progress rest
    apply canSet_feeds wf' (covers.of_progress progress).ids
    intro id differ
    have same : LookupMap.get t.feeds id = LookupMap.get s.feeds id :=
      rest (.feed id) (by simp [roleFields])
    rw [same] at differ
    obtain ⟨reporter, feed, wanted, good⟩ := feeds id differ
    have members (a : AccountId) : t.hasRole .priceReporter a = s.hasRole .priceReporter a :=
      rest (.member .priceReporter a) (by simp [roleFields])
    exact ⟨reporter.of_same members, feed, wanted, good.of_same same⟩

/-- The memberships the owner manages. -/
def lookupFields : Set (Field AccountId) :=
  {k | ∃ (r : LookupRole) (a : AccountId), k = .member r.role a}

theorem canSet_lookupRoles (wf : WellFormed s) (own : s.owner ∈ coalition)
    {accounts : List AccountId} {ids : List UInt32} (covers : Covers s goal accounts ids) :
    CanSet coalition time s lookupFields goal := by
  have each : (lookupFields : Set (Field AccountId)) =
      roleFields .admin ∪ roleFields .product ∪ roleFields .priceReporter := by
    ext k
    constructor
    · intro here
      obtain ⟨r, a, rfl⟩ := here
      cases r with
      | admin => exact .inl (.inl ⟨a, rfl⟩)
      | product => exact .inl (.inr ⟨a, rfl⟩)
      | priceReporter => exact .inr ⟨a, rfl⟩
    · intro here
      rcases here with (⟨a, rfl⟩ | ⟨a, rfl⟩) | ⟨a, rfl⟩
      · exact ⟨.admin, a, rfl⟩
      · exact ⟨.product, a, rfl⟩
      · exact ⟨.priceReporter, a, rfl⟩
  have next (r : LookupRole) (fields : Set (Field AccountId)) (other : .owner ∉ fields)
      (t : MultiFeed Feeds Roles Callers AccountId) (wf' : WellFormed t)
      (progress : ∀ k, t.observe k = goal k ∨ t.observe k = s.observe k)
      (rest : ∀ k ∉ fields, t.observe k = s.observe k) :
      CanSet coalition time t (roleFields r.role) goal := by
    have same : t.owner = s.owner := rest .owner other
    apply canSet_role wf' _ r ((covers.of_progress progress).accounts r.role)
    rw [same]
    exact own
  rw [each]
  apply CanSet.chain (CanSet.chain (canSet_role wf own .admin (covers.accounts .admin)) ?_) ?_
  · exact next .product _ (by simp [roleFields])
  · exact next .priceReporter _ (by simp [roleFields])

/-- The state with the owner in every role it manages, field by field. -/
def appointed (s : MultiFeed Feeds Roles Callers AccountId) : (k : Field AccountId) → k.Datum
  | .member r a => if a = s.owner then true else s.hasRole r a
  | .owner => s.owner
  | .description => s.description
  | .paused => s.isPaused
  | .openRead => s.isOpenRead
  | .feed id => LookupMap.get s.feeds id

/-- The owner appoints itself, for the time it takes. -/
theorem canAppoint (wf : WellFormed s) (own : s.owner ∈ coalition) :
    ∃ t, Steers coalition time s t ∧ WellFormed t ∧
      (∀ r : LookupRole, t.hasRole r.role s.owner = true) ∧
      ∀ k, (∀ r : LookupRole, k ≠ .member r.role s.owner) → t.observe k = s.observe k := by
  have covers : Covers s s.appointed [s.owner] [] := by
    constructor
    · intro r a differ
      by_contra other
      have apart : a ≠ s.owner := fun same => other (List.mem_singleton.mpr same)
      exact differ (if_neg apart).symm
    · intro id differ
      exact absurd rfl differ
  have able : CanSet coalition time s lookupFields s.appointed :=
    canSet_lookupRoles wf own covers
  obtain ⟨t, steps, wf', set, rest⟩ := able
  refine ⟨t, steps, wf', ?_, ?_⟩
  · intro r
    exact (set (.member r.role s.owner) ⟨r, s.owner, rfl⟩).trans (if_pos rfl)
  · intro k elsewhere
    by_cases here : k ∈ lookupFields
    · rw [set k here]
      obtain ⟨r, a, rfl⟩ := here
      have other : a ≠ s.owner := fun same => elsewhere r (same ▸ rfl)
      exact if_neg other
    · exact rest k here

end Steering

end MultiFeed

end NearMultiFeed
