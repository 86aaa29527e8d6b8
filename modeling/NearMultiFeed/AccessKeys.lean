import NearMultiFeed.Coalitions

/-!
# What a set of access keys can bring about

An account signs with its access keys. A full-access key signs anything; a
function-call key signs calls of the methods it names, and no deposit. Privileged
methods ask for one yoctoNEAR and `f` refuses any, so keys of the second kind are
good for reports and reads only. What a set of keys of any kinds can do to the
contract within one block is exactly this.
-/
namespace NearMultiFeed

/-- The name a method is called by. -/
def Call.methodName {AccountId : Type} : Call AccountId → String
  | .new .. => "new"
  | .f _ => "f"
  | .transferOwnership _ => "transfer_ownership"
  | .setAdmins _ => "set_admins"
  | .setProducts _ => "set_products"
  | .setPriceReporters _ => "set_price_reporters"
  | .setAuthorizedCallers _ => "set_authorized_callers"
  | .setPaused _ => "set_paused"
  | .setOpenReadStatus _ => "set_open_read_status"
  | .fetch _ => "fetch"
  | .fetchBatch _ => "fetch_batch"
  | .getOwner => "get_owner"
  | .description => "description"
  | .decimals => "decimals"
  | .version => "version"
  | .isAdmin _ => "is_admin"
  | .isProduct _ => "is_product"
  | .isPriceReporter _ => "is_price_reporter"
  | .isAuthorizedCaller _ => "is_authorized_caller"
  | .isPaused => "is_paused"
  | .isOpenRead => "is_open_read"
  | .getAuthorizedCallers => "get_authorized_callers"

/-- The permission of an access key for this contract; a function-call key that names
no method is good for all of them. -/
inductive AccessKey where
  | fullAccess
  | functionCall (methodNames : List String)
  deriving DecidableEq, Repr

/-- A method a key may call. -/
def AccessKey.Names (methodName : String) : AccessKey → Prop
  | .fullAccess => True
  | .functionCall methodNames => methodNames = [] ∨ methodName ∈ methodNames

/-- A call a key may sign. -/
def AccessKey.Signs {AccountId : Type} (key : AccessKey) (tx : Transaction AccountId) : Prop :=
  key.Names tx.call.methodName ∧ (key ≠ .fullAccess → tx.ctx.deposit = 0)

/-- Some access keys of some accounts. -/
abbrev Keyring (AccountId : Type) : Type := Set (AccountId × AccessKey)

namespace Keyring

variable {AccountId : Type} (keys : Keyring AccountId)

/-- The accounts it has a full-access key of. -/
def full : Set AccountId := {a | (a, .fullAccess) ∈ keys}

/-- The accounts it has a key of that may call `f`. -/
def reporting : Set AccountId := {a | ∃ key : AccessKey, (a, key) ∈ keys ∧ key.Names "f"}

end Keyring

/-- The call is signed with one of the keys, in the block of the given time. -/
def Transaction.SignedWith {AccountId : Type} (tx : Transaction AccountId)
    (keys : Keyring AccountId) (time : UInt64) : Prop :=
  tx.ctx.blockTimestamp = time ∧
    ∃ a key, (a, key) ∈ keys ∧ tx.ctx.predecessor = some a ∧ key.Signs tx

namespace MultiFeed

variable {Feeds Roles Callers AccountId : Type} [DecidableEq AccountId]
  [LookupMap Feeds UInt32 StoredFeed] [LookupSet Roles AccountId]
  [IterableSet Callers AccountId]

section Permissions
variable (s : MultiFeed Feeds Roles Callers AccountId) (keys : Keyring AccountId)

/-- The values some keys can give a field within one block: what the accounts with
full-access keys can, and reports by any key of a reporter. -/
def PermitsKeys (time : UInt64) : (k : Field AccountId) → k.Datum → Prop
  | .feed id, v => (s.owner ∈ keys.full ∨ s.Holds keys.reporting .priceReporter) ∧
      ∃ feed, v = some feed ∧ Reportable s.feeds (time / nanosPerSec) id feed
  | k, v => s.Permits keys.full time k v

/-- The contract can be made to look like `goal` with these keys. -/
def AttainableWith (time : UInt64) (goal : (k : Field AccountId) → k.Datum) : Prop :=
  {k | s.observe k ≠ goal k}.Finite ∧
    ∀ k, s.observe k ≠ goal k → s.PermitsKeys keys time k (goal k)

end Permissions

/-! ## Calls signed with some keys -/

section Soundness
variable {s t : MultiFeed Feeds Roles Callers AccountId} {keys : Keyring AccountId}
  {time : UInt64}

omit [DecidableEq AccountId] in
/-- What accounts with full-access keys can do, their keys can do. -/
theorem Permits.withKeys {k : Field AccountId} {v : k.Datum}
    (h : s.Permits keys.full time k v) : s.PermitsKeys keys time k v := by
  cases k with
  | feed id =>
      obtain ⟨entitled, good⟩ := h
      refine ⟨entitled.imp_right ?_, good⟩
      intro holds
      obtain ⟨a, full, reporter⟩ := holds
      exact ⟨a, ⟨.fullAccess, full, trivial⟩, reporter⟩
  | member r a => cases r <;> exact h
  | _ => exact h

/-- Without a deposit only a report changes anything. -/
theorem Effect.of_free {ctx : VMContext AccountId} {call : Call AccountId}
    {next : MultiFeed Feeds Roles Callers AccountId} {log : List (ContractEvent AccountId)}
    (effect : Effect t ctx call next log) (free : ctx.deposit = 0) :
    (call.reads = true ∧ next = t) ∨ ∃ caller us, call = .f us ∧
      ctx.predecessor = some caller ∧ t.isPriceReporter caller = true ∧
      Accepts t.feeds (blockSecond ctx) us ∧
      next = { t with
        feeds := LookupMap.flush
          (insertAll t.feeds (us.map (FeedUpdate.write (blockSecond ctx)))) } := by
  cases effect with
  | read reads => exact .inl ⟨reads, rfl⟩
  | @f caller us called reporter _ _ good =>
      exact .inr ⟨caller, us, rfl, called, reporter, good, rfl⟩
  | transferOwnership _ one | setRole _ one | setAuthorizedCallers _ _ one | setPaused _ _ one
  | setOpenReadStatus _ one =>
      rw [free] at one
      cases one

/-- What calls with some keys keep. -/
structure KeptWith (s : MultiFeed Feeds Roles Callers AccountId) (keys : Keyring AccountId)
    (time : UInt64) (t : MultiFeed Feeds Roles Callers AccountId) : Prop where
  wellFormed : WellFormed t
  authority : s.owner ∉ keys.full → SameAuthority s t
  attained : s.AttainableWith keys time t.observe

omit [DecidableEq AccountId] in
theorem KeptWith.refl (wf : WellFormed s) : KeptWith s keys time s where
  wellFormed := wf
  authority _ := .refl s
  attained :=
    ⟨Set.finite_empty.subset fun _ changed => absurd rfl changed,
      fun _ changed => absurd rfl changed⟩

/-- What a signed call writes was permitted to the keys at the start. -/
theorem Effect.permitsKeys {tx : Transaction AccountId}
    {next : MultiFeed Feeds Roles Callers AccountId} {log : List (ContractEvent AccountId)}
    (effect : Effect t tx.ctx tx.call next log) (h : KeptWith s keys time t)
    (made : tx.SignedWith keys time) {k : Field AccountId} (written : k ∈ tx.call.writes) :
    s.PermitsKeys keys time k (next.observe k) := by
  obtain ⟨timed, a, key, held, called, named, free⟩ := made
  have older := older_of_reportable fun id differ => (h.attained.2 (.feed id) differ).2
  by_cases full : key = .fullAccess
  · rw [full] at held
    exact (effect.permits h.authority older held called timed written).withKeys
  · rcases effect.of_free (free full) with ⟨reads, -⟩ |
      ⟨caller, us, report, also, reporter, good, result⟩
    · rw [writes_of_reads reads] at written
      exact absurd written (Set.notMem_empty k)
    · rw [called, Option.some.injEq] at also
      rw [report] at named written
      obtain ⟨u, hu, rfl⟩ := written
      have member : caller ∈ keys.reporting := ⟨key, also ▸ held, named⟩
      rw [result]
      exact ⟨entitled_of_authority h.authority member .priceReporter reporter,
        reported good timed older hu⟩

theorem KeptWith.step (h : KeptWith s keys time t) {tx : Transaction AccountId}
    (made : tx.SignedWith keys time) : KeptWith s keys time (t.step tx).1 := by
  have settled := h.wellFormed.step tx
  rcases t.step_cases tx with ⟨next, value, log, result, effect⟩ | ⟨panic, -, result⟩
  · rw [result] at settled ⊢
    refine ⟨settled, ?_, ?_, ?_⟩
    · intro out
      have authority := h.authority out
      obtain ⟨-, a, key, held, called, -, free⟩ := made
      apply authority.trans
      by_cases full : key = .fullAccess
      · apply effect.sameAuthority h.wellFormed.built
        intro own
        rw [called, Option.some.injEq, authority.owner] at own
        rw [full, own] at held
        exact out held
      · rcases effect.of_free (free full) with ⟨-, same⟩ | ⟨_, us, -, -, -, -, changed⟩
        · rw [same]
          exact .refl t
        · rw [changed]
          exact ⟨rfl, rfl, rfl, rfl, rfl⟩
    · exact effect.changed_finite h.wellFormed h.attained.1
    · intro k changed
      by_cases written : k ∈ tx.call.writes
      · exact effect.permitsKeys h made written
      · rw [effect.frame h.wellFormed written] at changed ⊢
        exact h.attained.2 k changed
  · rw [result]
    exact h

theorem KeptWith.run (h : KeptWith s keys time t) {txs : List (Transaction AccountId)}
    (made : ∀ tx ∈ txs, tx.SignedWith keys time) : KeptWith s keys time (t.run txs) :=
  Machine.run_invariant_of MultiFeed.step (fun _ _ kept signed => kept.step signed) h made

end Soundness

/-! ## Everything the keys permit -/

/-- Calls signed with some keys in one block lead from `s` to `t`, and all go through. -/
def SteersWith (keys : Keyring AccountId) (time : UInt64)
    (s t : MultiFeed Feeds Roles Callers AccountId) : Prop :=
  ∃ txs, (∀ tx ∈ txs, tx.SignedWith keys time) ∧
    (∀ r ∈ s.receipts txs, ∃ events, r.2 = .success .unit events) ∧ s.run txs = t

section Completeness
variable {s t : MultiFeed Feeds Roles Callers AccountId} {keys : Keyring AccountId}
  {time : UInt64} {goal : (k : Field AccountId) → k.Datum}

theorem Steers.withKeys (h : Steers keys.full time s t) : SteersWith keys time s t := by
  obtain ⟨txs, made, went, final⟩ := h
  refine ⟨txs, ?_, went, final⟩
  intro tx htx
  obtain ⟨timed, a, full, called⟩ := made tx htx
  exact ⟨timed, a, .fullAccess, full, called, trivial, fun wrong => absurd rfl wrong⟩

/-- One more call. -/
theorem SteersWith.concat (h : SteersWith keys time s t) {tx : Transaction AccountId}
    {events : List (ContractEvent AccountId)} (made : tx.SignedWith keys time)
    (went : (t.step tx).2 = .success .unit events) : SteersWith keys time s (t.step tx).1 := by
  obtain ⟨txs, before, through, rfl⟩ := h
  refine ⟨txs ++ [tx], ?_, ?_, ?_⟩
  · intro tx' htx
    rcases List.mem_append.mp htx with early | last
    · exact before tx' early
    · rw [List.mem_singleton.mp last]
      exact made
  · intro r hr
    rw [receipts, Machine.trace_append] at hr
    rcases List.mem_append.mp hr with early | last
    · exact through r early
    · rw [List.mem_singleton.mp last]
      exact ⟨events, went⟩
  · rw [run, Machine.run_append]
    rfl

/-- `goal`, with the feeds as they are. -/
def besidesFeeds (s : MultiFeed Feeds Roles Callers AccountId)
    (goal : (k : Field AccountId) → k.Datum) : (k : Field AccountId) → k.Datum
  | .feed id => LookupMap.get s.feeds id
  | k => goal k

omit [DecidableEq AccountId] in
theorem besidesFeeds_ne {k : Field AccountId} (differ : s.observe k ≠ s.besidesFeeds goal k) :
    s.observe k ≠ goal k ∧ (∀ id, k ≠ .feed id) ∧ s.besidesFeeds goal k = goal k := by
  cases k with
  | feed id => exact absurd rfl differ
  | _ => exact ⟨differ, by simp, rfl⟩

omit [DecidableEq AccountId] in
theorem PermitsKeys.of_other {k : Field AccountId} {v : k.Datum} (other : ∀ id, k ≠ .feed id)
    (h : s.PermitsKeys keys time k v) : s.Permits keys.full time k v := by
  cases k with
  | feed id => exact absurd rfl (other id)
  | member r a => cases r <;> exact h
  | _ => exact h

/-- Whatever the keys permit, calls signed with them reach. -/
theorem steers_with_keys (wf : WellFormed s) (h : s.AttainableWith keys time goal) :
    ∃ t, SteersWith keys time s t ∧ t.observe = goal := by
  by_cases own : s.owner ∈ keys.full
  · have all : s.Attainable keys.full time goal := by
      refine ⟨h.1, ?_⟩
      intro k differ
      have permitted := h.2 k differ
      cases k with
      | feed id => exact ⟨.inl own, permitted.2⟩
      | _ => exact permitted.of_other (by simp)
    obtain ⟨t, steps, same⟩ := steers_with_owner wf own all
    exact ⟨t, steps.withKeys, same⟩
  · -- first all that takes full-access keys, then one report
    have others : s.Attainable keys.full time (s.besidesFeeds goal) := by
      constructor
      · exact h.1.subset fun k differ => (besidesFeeds_ne differ).1
      · intro k differ
        obtain ⟨differ', other, same⟩ := besidesFeeds_ne differ
        rw [same]
        exact (h.2 k differ').of_other other
    obtain ⟨t, steps, look⟩ := steers_without_owner wf own others
    have wf' : WellFormed t := by
      obtain ⟨txs, -, -, rfl⟩ := steps
      exact wf.run txs
    have feeds (id : UInt32) : LookupMap.get t.feeds id = LookupMap.get s.feeds id :=
      congrFun look (.feed id)
    let wanted : UInt32 → Option StoredFeed := fun id => goal (.feed id)
    by_cases done : ∀ id, LookupMap.get t.feeds id = wanted id
    · refine ⟨t, steps.withKeys, ?_⟩
      funext k
      cases k with
      | feed id => exact done id
      | _ => exact congrFun look _
    · obtain ⟨id, differ⟩ := not_forall.mp done
      have changed {id : UInt32} (differ : LookupMap.get t.feeds id ≠ wanted id) :
          s.observe (.feed id) ≠ goal (.feed id) := by
        rw [feeds id] at differ
        exact differ
      obtain ⟨a, ⟨key, held, named⟩, has⟩ := (h.2 (.feed id) (changed differ)).1.resolve_left own
      have reporter : t.isPriceReporter a = true := by
        have kept : goal (.member .priceReporter a) = s.isPriceReporter a := by
          by_contra altered
          exact own (h.2 (.member .priceReporter a) (Ne.symm altered))
        have here : t.isPriceReporter a = goal (.member .priceReporter a) :=
          congrFun look (.member .priceReporter a)
        rw [here, kept]
        exact has
      have reportable (id : UInt32) (differ : LookupMap.get t.feeds id ≠ wanted id) :
          ∃ feed, wanted id = some feed ∧ Reportable t.feeds (time / nanosPerSec) id feed := by
        obtain ⟨-, feed, found, good⟩ := h.2 (.feed id) (changed differ)
        exact ⟨feed, found, good.of_same (feeds id)⟩
      obtain ⟨accounts, ids, covers⟩ := exists_covers h.1
      obtain ⟨us, events, went, reached⟩ := report_reaches wf'
        (fun id differ => covers.ids id (changed differ)) reportable differ reporter
      have made : Transaction.SignedWith ⟨⟨some a, 0, time⟩, .f us⟩ keys time :=
        ⟨rfl, a, key, held, rfl, named, fun _ => rfl⟩
      refine ⟨_, steps.withKeys.concat made went, ?_⟩
      funext k
      cases k with
      | feed id => exact reached id
      | _ => exact (step_frame wf' _ _ (by simp [Call.writes])).trans (congrFun look _)

end Completeness

/-- Exactly what can be done to a reachable contract within one block with some access
keys, in any number of calls that go through or not: authority, pause and whitelist
need full-access keys of the accounts in charge of them, feeds any key of a reporter that
may call `f`; and all that is permitted is reached by calls that all go through. -/
theorem access_keys_power {s : MultiFeed Feeds Roles Callers AccountId} (reachable : Reachable s)
    (keys : Keyring AccountId) (time : UInt64) (goal : (k : Field AccountId) → k.Datum) :
    ((∃ txs, (∀ tx ∈ txs, tx.SignedWith keys time) ∧ (s.run txs).observe = goal) ↔
      s.AttainableWith keys time goal) ∧
    ((∃ t, SteersWith keys time s t ∧ t.observe = goal) ↔ s.AttainableWith keys time goal) := by
  have wf := reachable.wellFormed
  have bounded {txs : List (Transaction AccountId)}
      (made : ∀ tx ∈ txs, tx.SignedWith keys time) :
      s.AttainableWith keys time (s.run txs).observe := ((KeptWith.refl wf).run made).attained
  refine ⟨⟨?_, ?_⟩, ⟨?_, steers_with_keys wf⟩⟩
  · intro reached
    obtain ⟨txs, made, rfl⟩ := reached
    exact bounded made
  · intro h
    obtain ⟨t, ⟨txs, made, -, rfl⟩, same⟩ := steers_with_keys wf h
    exact ⟨txs, made, same⟩
  · intro reached
    obtain ⟨t, ⟨txs, made, -, rfl⟩, rfl⟩ := reached
    exact bounded made

/-- The keys of a dApp the owner logged in to, of an admin's wallet and of a reporter's
server. -/
def sampleKeys : Keyring String :=
  {("owner.near", .functionCall []), ("admin.near", .fullAccess),
    ("reporter.near", .functionCall ["f"])}

theorem access_keys_power_sample :
    (∃ t : StoredContract, SteersWith sampleKeys 100000000000 sample t ∧ t.isPaused = true ∧
      LookupMap.get t.feeds 42 = some ⟨7, 100, 100⟩) ∧
    ∀ txs, (∀ tx ∈ txs, tx.SignedWith sampleKeys 100000000000) →
      (sample.run txs).isOpenRead = false := by
  have attainable : sample.AttainableWith sampleKeys 100000000000 sampleGoal := by
    refine ⟨sampleGoal_finite, ?_⟩
    intro k differ
    rcases sampleGoal_differs differ with rfl | rfl
    · exact .inr ⟨"admin.near", .inr (.inl rfl), rfl⟩
    · have signs : "reporter.near" ∈ sampleKeys.reporting :=
        ⟨.functionCall ["f"], .inr (.inr rfl), .inr (List.mem_singleton.mpr rfl)⟩
      exact ⟨.inr ⟨"reporter.near", signs, rfl⟩, sampleGoal_reportable⟩
  constructor
  · obtain ⟨t, steps, same⟩ :=
      (access_keys_power sample_reachable sampleKeys 100000000000 sampleGoal).2.mpr attainable
    exact ⟨t, steps, congrFun same .paused, congrFun same (.feed 42)⟩
  · intro txs made
    have bounded := (access_keys_power sample_reachable sampleKeys 100000000000
      (sample.run txs).observe).1.mp ⟨txs, made, rfl⟩
    by_contra changed
    have owner : sample.owner ∈ sampleKeys.full := bounded.2 .openRead (Ne.symm changed)
    rcases owner with wrong | wrong | wrong
    · cases (Prod.mk.inj wrong).2
    · exact absurd (Prod.mk.inj wrong).1 (by decide)
    · cases (Prod.mk.inj wrong).2

end MultiFeed

end NearMultiFeed
