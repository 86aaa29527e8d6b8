import NearMultiFeed.Authority
import NearMultiFeed.Steering

/-!
# What a coalition can bring about

A coalition of accounts makes calls within one block. Field by field, the roles
its members have at the start decide what the contract can look like afterwards;
and whatever they permit, the members reach in calls that all go through.
-/
namespace NearMultiFeed

namespace MultiFeed

variable {Feeds Roles Callers AccountId : Type} [DecidableEq AccountId]
  [LookupMap Feeds UInt32 StoredFeed] [LookupSet Roles AccountId]
  [IterableSet Callers AccountId]

section Permissions
variable (s : MultiFeed Feeds Roles Callers AccountId) (coalition : Set AccountId)

/-- The values a coalition can give a field within one block. The owner can appoint
itself to any role, so a coalition with the owner has them all. -/
def Permits (time : UInt64) : (k : Field AccountId) → k.Datum → Prop
  | .owner, _ | .openRead, _ | .member .admin _, _ | .member .product _, _
  | .member .priceReporter _, _ => s.owner ∈ coalition
  | .description, _ => False
  | .paused, _ => s.owner ∈ coalition ∨ s.Holds coalition .admin
  | .member .authorizedCaller _, _ => s.owner ∈ coalition ∨ s.Holds coalition .product
  | .feed id, v => (s.owner ∈ coalition ∨ s.Holds coalition .priceReporter) ∧
      ∃ feed, v = some feed ∧ Reportable s.feeds (time / nanosPerSec) id feed

/-- The contract can be made to look like `goal`: it differs in finitely many fields,
and in each of them to a permitted value. -/
def Attainable (time : UInt64) (goal : (k : Field AccountId) → k.Datum) : Prop :=
  {k | s.observe k ≠ goal k}.Finite ∧
    ∀ k, s.observe k ≠ goal k → s.Permits coalition time k (goal k)

end Permissions

/-! ## Runs of a coalition -/

section Soundness
variable {s t : MultiFeed Feeds Roles Callers AccountId} {coalition : Set AccountId}
  {time : UInt64}

omit [DecidableEq AccountId] [LookupMap Feeds UInt32 StoredFeed] in
theorem SameAuthority.hasRole (h : SameAuthority s t) (r : LookupRole) :
    t.hasRole r.role = s.hasRole r.role := by
  rw [← contains_roleSet, ← contains_roleSet]
  cases r with
  | admin => exact congrArg LookupSet.contains h.admin
  | product => exact congrArg LookupSet.contains h.products
  | priceReporter => exact congrArg LookupSet.contains h.priceReporters

omit [DecidableEq AccountId] in
/-- A read writes nothing. -/
theorem writes_of_reads {call : Call AccountId} (reads : call.reads = true) : call.writes = ∅ := by
  cases call <;> first | rfl | cases reads

omit [DecidableEq AccountId] in
/-- A call changes finitely many fields. -/
theorem writes_finite (call : Call AccountId) : call.writes.Finite := by
  have named {α : Type} (f : α → Field AccountId) (l : List α) :
      {k | ∃ a ∈ l, k = f a}.Finite := by
    apply (l.map f).finite_toSet.subset
    intro k here
    obtain ⟨a, listed, same⟩ := here
    exact List.mem_map.mpr ⟨a, listed, same.symm⟩
  cases call with
  | f us => exact named (fun u : FeedUpdate => .feed u.feedId) us
  | setAdmins us | setProducts us | setPriceReporters us | setAuthorizedCallers us =>
      exact named (fun u : RoleUpdate AccountId => .member _ u.account) us
  | transferOwnership | setPaused | setOpenReadStatus => exact Set.finite_singleton _
  | _ => exact Set.finite_empty

omit [DecidableEq AccountId] [LookupSet Roles AccountId] [IterableSet Callers AccountId] in
/-- A stored timestamp only grows. -/
theorem older_of_reportable {now : UInt64} (changed : ∀ id,
      LookupMap.get s.feeds id ≠ LookupMap.get t.feeds id →
        ∃ feed, LookupMap.get t.feeds id = some feed ∧ Reportable s.feeds now id feed)
    (id : UInt32) : prevVersion s.feeds id ≤ prevVersion t.feeds id := by
  by_cases same : LookupMap.get s.feeds id = LookupMap.get t.feeds id
  · rw [prevVersion, prevVersion, prevAggTs, prevAggTs, same]
  · obtain ⟨feed, found, good⟩ := changed id same
    rw [prevVersion, prevVersion, prevAggTs, prevAggTs, found]
    exact good.newer.le

/-! Without the owner of the start, authority stays. -/

section Authority
variable (authority : s.owner ∉ coalition → SameAuthority s t)
include authority

omit [DecidableEq AccountId] [LookupMap Feeds UInt32 StoredFeed] [LookupSet Roles AccountId]
  [IterableSet Callers AccountId] in
/-- Only a coalition with the owner of the start ever makes the owner's calls. -/
theorem owner_mem_of_authority (own : t.owner ∈ coalition) : s.owner ∈ coalition := by
  by_contra out
  rw [(authority out).owner] at own
  exact out own

omit [DecidableEq AccountId] [LookupMap Feeds UInt32 StoredFeed] in
/-- An account with a role had it at the start, or the owner is a member. -/
theorem entitled_of_authority {caller : AccountId} {members : Set AccountId}
    (member : caller ∈ members) (r : LookupRole) (has : t.hasRole r.role caller = true) :
    s.owner ∈ coalition ∨ s.Holds members r.role := by
  by_cases own : s.owner ∈ coalition
  · exact .inl own
  · rw [(authority own).hasRole r] at has
    exact .inr ⟨caller, member, has⟩

end Authority

omit [DecidableEq AccountId] [LookupSet Roles AccountId] [IterableSet Callers AccountId] in
/-- What an accepted batch leaves could have been reported at the start. -/
theorem reported {ctx : VMContext AccountId} {us : List FeedUpdate}
    (good : Accepts t.feeds (blockSecond ctx) us) (timed : ctx.blockTimestamp = time)
    (older : ∀ id, prevVersion s.feeds id ≤ prevVersion t.feeds id) {u : FeedUpdate}
    (hu : u ∈ us) :
    ∃ feed, LookupMap.get (LookupMap.flush (insertAll t.feeds
        (us.map (FeedUpdate.write (blockSecond ctx))))) u.feedId = some feed ∧
      Reportable s.feeds (time / nanosPerSec) u.feedId feed := by
  obtain ⟨last, latest⟩ := KeyedLog.latest_isSome FeedUpdate.feedId hu
  obtain ⟨listed, same⟩ := KeyedLog.latest_mem FeedUpdate.feedId latest
  have early := blockSecond_lt ctx
  have drift := good.drift last listed
  have newer := good.ascending.base_lt listed
  have now : blockSecond ctx = time / nanosPerSec := by rw [blockSecond, timed]
  refine ⟨(last.write (blockSecond ctx)).feed.persisted, ?_, ?_⟩
  · rw [get_flush_insertAll, latest_writes, latest]
    rfl
  · have aggTs : (last.write (blockSecond ctx)).feed.persisted.aggTs = last.aggTs :=
      StoredFeed.persisted_aggTs_eq (by change last.aggTs.toNat < 2 ^ 48; omega)
    have onchain : (last.write (blockSecond ctx)).feed.persisted.onchainTs = blockSecond ctx :=
      StoredFeed.persisted_onchainTs_eq
        (by change (blockSecond ctx).toNat < 2 ^ 48; omega)
    rw [← same, ← now]
    constructor
    · rw [StoredFeed.persisted_price]
      exact Nat.mod_lt _ (by decide)
    · rw [aggTs]
      exact (older last.feedId).trans_lt newer
    · rw [aggTs]
      exact drift
    · exact onchain

/-- What a call of a member writes was permitted to the coalition at the start. -/
theorem Effect.permits {ctx : VMContext AccountId} {call : Call AccountId}
    {next : MultiFeed Feeds Roles Callers AccountId} {log : List (ContractEvent AccountId)}
    (effect : Effect t ctx call next log) (authority : s.owner ∉ coalition → SameAuthority s t)
    (older : ∀ id, prevVersion s.feeds id ≤ prevVersion t.feeds id) {caller : AccountId}
    (member : caller ∈ coalition) (called : ctx.predecessor = some caller)
    (timed : ctx.blockTimestamp = time) {k : Field AccountId} (written : k ∈ call.writes) :
    s.Permits coalition time k (next.observe k) := by
  have owns (owner : ctx.predecessor = some t.owner) : s.owner ∈ coalition := by
    rw [called, Option.some.injEq] at owner
    rw [owner] at member
    exact owner_mem_of_authority authority member
  have is_caller {a : AccountId} (also : ctx.predecessor = some a) : caller = a :=
    Option.some.inj (called.symm.trans also)
  cases effect with
  | read reads =>
      rw [writes_of_reads reads] at written
      exact absurd written (Set.notMem_empty k)
  | @f _ us also reporter _ _ good =>
      rw [← is_caller also] at reporter
      obtain ⟨u, hu, rfl⟩ := written
      exact ⟨entitled_of_authority authority member .priceReporter reporter,
        reported good timed older hu⟩
  | transferOwnership owner =>
      cases written
      exact owns owner
  | @setRole r us owner =>
      rw [role_writes] at written
      obtain ⟨u, -, rfl⟩ := written
      cases r <;> exact owns owner
  | setAuthorizedCallers also product =>
      rw [← is_caller also] at product
      obtain ⟨u, -, rfl⟩ := written
      exact entitled_of_authority authority member .product product
  | setPaused also admin =>
      rw [← is_caller also] at admin
      cases written
      exact entitled_of_authority authority member .admin admin
  | setOpenReadStatus owner =>
      cases written
      exact owns owner

/-- A call leaves finitely many fields changed. -/
theorem Effect.changed_finite {ctx : VMContext AccountId} {call : Call AccountId}
    {next : MultiFeed Feeds Roles Callers AccountId} {log : List (ContractEvent AccountId)}
    (effect : Effect t ctx call next log) (wf : WellFormed t)
    (finite : {k | s.observe k ≠ t.observe k}.Finite) :
    {k | s.observe k ≠ next.observe k}.Finite := by
  apply (finite.union (writes_finite call)).subset
  intro k changed
  by_cases written : k ∈ call.writes
  · exact .inr written
  · have same := effect.frame wf written
    change s.observe k ≠ next.observe k at changed
    rw [same] at changed
    exact .inl changed

/-- What a run of a coalition keeps: without the owner in it authority stays, and
the fields that changed did so as permitted at the start. -/
structure Kept (s : MultiFeed Feeds Roles Callers AccountId) (coalition : Set AccountId)
    (time : UInt64) (t : MultiFeed Feeds Roles Callers AccountId) : Prop where
  wellFormed : WellFormed t
  authority : s.owner ∉ coalition → SameAuthority s t
  attained : s.Attainable coalition time t.observe

omit [DecidableEq AccountId] in
theorem Kept.refl (wf : WellFormed s) : Kept s coalition time s where
  wellFormed := wf
  authority _ := .refl s
  attained :=
    ⟨Set.finite_empty.subset fun _ changed => absurd rfl changed,
      fun _ changed => absurd rfl changed⟩

theorem Kept.step (h : Kept s coalition time t) {tx : Transaction AccountId}
    (made : tx.By coalition time) : Kept s coalition time (t.step tx).1 := by
  obtain ⟨timed, caller, member, called⟩ := made
  have settled := h.wellFormed.step tx
  rcases t.step_cases tx with ⟨next, value, log, result, effect⟩ | ⟨panic, -, result⟩
  · rw [result] at settled ⊢
    refine ⟨settled, ?_, ?_, ?_⟩
    · intro out
      have authority := h.authority out
      apply authority.trans
      apply effect.sameAuthority h.wellFormed.built
      intro own
      rw [called, Option.some.injEq, authority.owner] at own
      rw [own] at member
      exact out member
    · exact effect.changed_finite h.wellFormed h.attained.1
    · intro k changed
      by_cases written : k ∈ tx.call.writes
      · have older := older_of_reportable fun id differ => (h.attained.2 (.feed id) differ).2
        exact effect.permits h.authority older member called timed written
      · rw [effect.frame h.wellFormed written] at changed ⊢
        exact h.attained.2 k changed
  · rw [result]
    exact h

/-- Calls of a coalition, whether they go through or not. -/
theorem Kept.run (h : Kept s coalition time t) {txs : List (Transaction AccountId)}
    (made : ∀ tx ∈ txs, tx.By coalition time) : Kept s coalition time (t.run txs) :=
  Machine.run_invariant_of MultiFeed.step (fun _ _ kept by_member => kept.step by_member) h made

end Soundness

/-! ## Everything that is permitted -/

section Completeness
variable {s : MultiFeed Feeds Roles Callers AccountId} {coalition : Set AccountId}
  {time : UInt64} {goal : (k : Field AccountId) → k.Datum}

omit [DecidableEq AccountId] in
/-- What still differs once the owner's own memberships have changed. -/
theorem Covers.appoint {t : MultiFeed Feeds Roles Callers AccountId} {accounts : List AccountId}
    {ids : List UInt32} (h : Covers s goal accounts ids) (same : ∀ k,
      (∀ r : LookupRole, k ≠ .member r.role s.owner) → t.observe k = s.observe k) :
    Covers t goal (s.owner :: accounts) ids := by
  constructor
  · intro r a differ
    by_cases itself : a = s.owner
    · exact List.mem_cons.mpr (.inl itself)
    · have kept : t.hasRole r a = s.hasRole r a :=
        same (.member r a) fun _ wrong => itself (Field.member.inj wrong).2
      rw [kept] at differ
      exact List.mem_cons_of_mem _ (h.accounts r a differ)
  · intro id differ
    have kept : LookupMap.get t.feeds id = LookupMap.get s.feeds id := same (.feed id) (by simp)
    rw [kept] at differ
    exact h.ids id differ

/-- An owner in every role it manages can set everything but the description. -/
theorem canSet_all (wf : WellFormed s) (own : s.owner ∈ coalition)
    (roles : ∀ r : LookupRole, s.hasRole r.role s.owner = true) {accounts : List AccountId}
    {ids : List UInt32} (covers : Covers s goal accounts ids)
    (feeds : ∀ id, LookupMap.get s.feeds id ≠ goal (.feed id) →
      ∃ feed, goal (.feed id) = some feed ∧ Reportable s.feeds (time / nanosPerSec) id feed) :
    CanSet coalition time s {k | k ≠ .description} goal := by
  have each : {k : Field AccountId | k ≠ .description} = {.paused} ∪
      roleFields .authorizedCaller ∪ feedFields ∪ {.openRead} ∪ lookupFields ∪ {.owner} := by
    ext k
    cases k with
    | member r a =>
        cases r with
        | authorizedCaller => simp [roleFields]
        | admin => exact iff_of_true (by simp) (.inl (.inr ⟨.admin, a, rfl⟩))
        | product => exact iff_of_true (by simp) (.inl (.inr ⟨.product, a, rfl⟩))
        | priceReporter => exact iff_of_true (by simp) (.inl (.inr ⟨.priceReporter, a, rfl⟩))
    | _ => simp [roleFields, feedFields, lookupFields]
  have shared : CanSet coalition time s
      ({.paused} ∪ roleFields .authorizedCaller ∪ feedFields) goal := by
    apply canSet_shared wf covers
    · exact fun _ => ⟨s.owner, own, roles .admin⟩
    · exact fun _ _ => ⟨s.owner, own, roles .product⟩
    · exact fun id differ => ⟨⟨s.owner, own, roles .priceReporter⟩, feeds id differ⟩
  have still {t : MultiFeed Feeds Roles Callers AccountId} {done : Set (Field AccountId)}
      (rest : ∀ k ∉ done, t.observe k = s.observe k) (untouched : .owner ∉ done) :
      t.owner ∈ coalition := by
    have kept : t.owner = s.owner := rest .owner untouched
    rw [kept]
    exact own
  rw [each]
  apply CanSet.chain (CanSet.chain (CanSet.chain shared ?_) ?_) ?_
  · intro t wf' _ rest
    exact canSet_openRead wf' (still rest (by simp [roleFields, feedFields]))
  · intro t wf' progress rest
    exact canSet_lookupRoles wf' (still rest (by simp [roleFields, feedFields]))
      (covers.of_progress progress)
  · intro t wf' _ rest
    exact canSet_owner wf' (still rest (by simp [roleFields, feedFields, lookupFields]))

/-- With the owner in the coalition, everything but the description. -/
theorem steers_with_owner (wf : WellFormed s) (own : s.owner ∈ coalition)
    (h : s.Attainable coalition time goal) : ∃ t, Steers coalition time s t ∧ t.observe = goal := by
  obtain ⟨t, steps, wf', roles, same⟩ : ∃ t, Steers coalition time s t ∧ _ := canAppoint wf own
  obtain ⟨accounts, ids, covers⟩ := exists_covers h.1
  have elsewhere (k : Field AccountId) (other : ∀ r a, k ≠ .member r a) :
      t.observe k = s.observe k := same k fun r => other r.role s.owner
  have start : t.owner = s.owner := elsewhere .owner (by simp)
  have all : CanSet coalition time t {k | k ≠ .description} goal := by
    apply canSet_all wf' (start ▸ own) (start ▸ roles) (covers.appoint same)
    intro id differ
    have kept : LookupMap.get t.feeds id = LookupMap.get s.feeds id :=
      elsewhere (.feed id) (by simp)
    rw [kept] at differ
    obtain ⟨-, feed, wanted, good⟩ := h.2 (.feed id) differ
    exact ⟨feed, wanted, good.of_same kept⟩
  obtain ⟨u, steps', -, set, rest⟩ := all
  refine ⟨u, steps.trans steps', ?_⟩
  funext k
  by_cases described : k = .description
  · subst described
    rw [rest .description (fun wrong => wrong rfl), elsewhere .description (by simp)]
    by_contra differ
    exact h.2 .description differ
  · exact set k described

/-- Without the owner, the pause, the whitelist and the feeds, as far as they go. -/
theorem steers_without_owner (wf : WellFormed s) (out : s.owner ∉ coalition)
    (h : s.Attainable coalition time goal) : ∃ t, Steers coalition time s t ∧ t.observe = goal := by
  obtain ⟨accounts, ids, covers⟩ := exists_covers h.1
  have shared : CanSet coalition time s
      ({.paused} ∪ roleFields .authorizedCaller ∪ feedFields) goal := by
    apply canSet_shared wf covers
    · intro differ
      exact (h.2 .paused differ).resolve_left out
    · intro a differ
      exact (h.2 (.member .authorizedCaller a) differ).resolve_left out
    · intro id differ
      obtain ⟨entitled, feed, wanted, good⟩ := h.2 (.feed id) differ
      exact ⟨entitled.resolve_left out, feed, wanted, good⟩
  obtain ⟨t, steps, -, set, rest⟩ := shared
  refine ⟨t, steps, ?_⟩
  funext k
  by_cases here : k ∈ {.paused} ∪ roleFields .authorizedCaller ∪ feedFields
  · exact set k here
  · rw [rest k here]
    by_contra differ
    have permitted := h.2 k differ
    cases k with
    | paused => exact here (by simp)
    | feed id => exact here (by simp [feedFields])
    | description => exact permitted
    | owner | openRead => exact out permitted
    | member r a =>
        cases r with
        | authorizedCaller => exact here (by simp [roleFields])
        | admin | product | priceReporter => exact out permitted

end Completeness

/-- Exactly what a coalition can bring about within one block, from any reachable
state: whatever its members call, and however often, the contract ends at one of the
attainable appearances; and each of these they reach in calls that all go through. -/
theorem coalition_power {s : MultiFeed Feeds Roles Callers AccountId} (reachable : Reachable s)
    (coalition : Set AccountId) (time : UInt64) (goal : (k : Field AccountId) → k.Datum) :
    ((∃ txs, (∀ tx ∈ txs, tx.By coalition time) ∧ (s.run txs).observe = goal) ↔
      s.Attainable coalition time goal) ∧
    ((∃ t, Steers coalition time s t ∧ t.observe = goal) ↔ s.Attainable coalition time goal) := by
  have wf := reachable.wellFormed
  have bounded {txs : List (Transaction AccountId)} (made : ∀ tx ∈ txs, tx.By coalition time) :
      s.Attainable coalition time (s.run txs).observe := ((Kept.refl wf).run made).attained
  have steered (h : s.Attainable coalition time goal) :
      ∃ t, Steers coalition time s t ∧ t.observe = goal := by
    by_cases own : s.owner ∈ coalition
    · exact steers_with_owner wf own h
    · exact steers_without_owner wf own h
  refine ⟨⟨?_, ?_⟩, ⟨?_, steered⟩⟩
  · intro reached
    obtain ⟨txs, made, rfl⟩ := reached
    exact bounded made
  · intro h
    obtain ⟨t, ⟨txs, made, -, rfl⟩, same⟩ := steered h
    exact ⟨txs, made, same⟩
  · intro reached
    obtain ⟨t, ⟨txs, made, -, rfl⟩, rfl⟩ := reached
    exact bounded made

/-- The sample, paused, with a price in feed 42. -/
def sampleGoal : (k : Field String) → k.Datum
  | .paused => true
  | .feed id => if id = 42 then some ⟨7, 100, 100⟩ else none
  | .owner => "owner.near"
  | .description => "Test feeds"
  | .openRead => false
  | .member r a => sample.hasRole r a

theorem sampleGoal_differs {k : Field String} (differ : sample.observe k ≠ sampleGoal k) :
    k = .paused ∨ k = .feed 42 := by
  cases k with
  | paused => exact .inl rfl
  | feed id =>
      by_cases same : id = 42
      · exact .inr (congrArg Field.feed same)
      · exact absurd (if_neg same).symm differ
  | _ => exact absurd rfl differ

theorem sampleGoal_finite : {k | sample.observe k ≠ sampleGoal k}.Finite :=
  ((Set.finite_singleton (Field.feed 42)).insert Field.paused).subset fun _ differ =>
    sampleGoal_differs differ

theorem sampleGoal_reportable :
    ∃ feed, sampleGoal (.feed 42) = some feed ∧
      Reportable sample.feeds (100000000000 / nanosPerSec) 42 feed := by
  have empty : prevVersion sample.feeds 42 < 100 := Nat.succ_pos 99
  exact ⟨⟨7, 100, 100⟩, rfl, by decide, empty, by decide, rfl⟩

theorem coalition_power_sample :
    let coalition : Set String := {"admin.near", "reporter.near"}
    (∃ t : StoredContract, Steers coalition 100000000000 sample t ∧ t.isPaused = true ∧
      LookupMap.get t.feeds 42 = some ⟨7, 100, 100⟩) ∧
    ∀ txs, (∀ tx ∈ txs, tx.By coalition 100000000000) →
      (sample.run txs).owner = "owner.near" := by
  intro coalition
  have attainable : sample.Attainable coalition 100000000000 sampleGoal := by
    refine ⟨sampleGoal_finite, ?_⟩
    intro k differ
    rcases sampleGoal_differs differ with rfl | rfl
    · exact .inr ⟨"admin.near", .inl rfl, rfl⟩
    · exact ⟨.inr ⟨"reporter.near", .inr rfl, rfl⟩, sampleGoal_reportable⟩
  constructor
  · obtain ⟨t, steps, same⟩ :=
      (coalition_power sample_reachable coalition 100000000000 sampleGoal).2.mpr attainable
    exact ⟨t, steps, congrFun same .paused, congrFun same (.feed 42)⟩
  · intro txs made
    have bounded := (coalition_power sample_reachable coalition 100000000000
      (sample.run txs).observe).1.mp ⟨txs, made, rfl⟩
    by_contra changed
    have permitted : sample.owner ∈ coalition := bounded.2 .owner (Ne.symm changed)
    rcases permitted with wrong | wrong <;> exact absurd wrong (by decide)

end MultiFeed

end NearMultiFeed
