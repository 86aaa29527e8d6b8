import Mathlib.Data.Set.Basic
import NearMultiFeed.Authority

/-!
# What outsiders learn about the feeds

Accounts that may neither read nor report, and cannot come to, are answered the
same whatever the feeds are.
-/
namespace NearMultiFeed

/-- The call is made by a member of `C`, or is a view call. -/
def Transaction.MadeBy {AccountId : Type} (C : Set AccountId) (tx : Transaction AccountId) : Prop :=
  ∀ caller, tx.ctx.predecessor = some caller → caller ∈ C

namespace MultiFeed

variable {Feeds Roles Callers AccountId : Type} [DecidableEq AccountId]
  [LookupMap Feeds UInt32 StoredFeed] [LookupSet Roles AccountId]
  [IterableSet Callers AccountId]

/-- The second state is the first with other feeds. -/
def SameButFeeds (s t : MultiFeed Feeds Roles Callers AccountId) : Prop :=
  t = { s with feeds := t.feeds }

/-- The coalition can neither read, nor report, nor change either. -/
structure ShutOut (C : Set AccountId) (s : MultiFeed Feeds Roles Callers AccountId) : Prop where
  built : Flags.Built s.flags
  owner : s.owner ∉ C
  reporters : ∀ a ∈ C, s.isPriceReporter a = false
  reads : (s.isPaused = true ∧ ∀ a ∈ C, s.isAdmin a = false) ∨
    (s.isOpenRead = false ∧ (∀ a ∈ C, s.isProduct a = false) ∧
      ∀ a ∈ C, s.isAuthorizedCaller a = false)

namespace ShutOut

variable {C : Set AccountId} {s : MultiFeed Feeds Roles Callers AccountId}
  {tx : Transaction AccountId}

/-- A coalition that is shut out stays shut out. -/
theorem step (h : ShutOut C s) (made : tx.MadeBy C) : ShutOut C (s.step tx).1 := by
  apply step_ensures h
  intro next log effect
  have notOwner : tx.ctx.predecessor ≠ some s.owner := by
    intro called
    exact h.owner (made s.owner called)
  have authority := effect.sameAuthority h.built notOwner
  constructor
  · exact effect.built h.built
  · rw [authority.owner]
    exact h.owner
  · unfold isPriceReporter
    rw [authority.priceReporters]
    exact h.reporters
  · rcases h.reads with ⟨paused, admins⟩ | ⟨closed, products, callers⟩
    · refine .inl ⟨?_, ?_⟩
      · rw [effect.samePaused h.built fun a called => admins a (made a called)]
        exact paused
      · unfold isAdmin
        rw [authority.admin]
        exact admins
    · refine .inr ⟨?_, ?_, ?_⟩
      · rw [authority.openRead]
        exact closed
      · unfold isProduct
        rw [authority.products]
        exact products
      · unfold isAuthorizedCaller
        rw [effect.sameCallers fun a called => products a (made a called)]
        exact callers

omit [DecidableEq AccountId] [LookupMap Feeds UInt32 StoredFeed] in
/-- The gate refuses every member, before any feed is looked at. -/
theorem gate_refuses (h : ShutOut C s) (made : tx.MadeBy C) :
    ∃ panic, s.onlyReadAccess tx.ctx = .error panic := by
  unfold onlyReadAccess
  rw [h.built.isOpenReadWhenUnpaused_eq]
  rcases h.reads with ⟨paused, -⟩ | ⟨closed, -, callers⟩
  · have flag : s.flags.isPaused = true := paused
    rw [flag]
    exact ⟨_, rfl⟩
  · have flag : s.flags.isOpenRead = false := closed
    rw [flag, Bool.and_false]
    cases s.flags.isPaused with
    | true => exact ⟨_, rfl⟩
    | false =>
        unfold VMContext.predecessorAccountId
        cases called : tx.ctx.predecessor with
        | none => exact ⟨_, rfl⟩
        | some caller =>
            have outsider : LookupSet.contains s.authorizedCallers caller = false :=
              callers caller (made caller called)
            refine ⟨.onlyAuthorizedCaller, ?_⟩
            simp only [Bool.false_eq_true, if_false, Abort.ok_bind, require, outsider]

end ShutOut

/-- Both calls abort with one panic, or have one answer and again differ in the
feeds only. -/
abbrev AnsweredAlike
    (a b : MultiFeed Feeds Roles Callers AccountId × Value AccountId ×
      List (ContractEvent AccountId)) : Prop :=
  SameButFeeds a.1 b.1 ∧ a.2 = b.2

section Calls
variable {C : Set AccountId} {s t : MultiFeed Feeds Roles Callers AccountId}
  {ctx : VMContext AccountId}

omit [DecidableEq AccountId] [LookupSet Roles AccountId] [IterableSet Callers AccountId] in
theorem commit_alike
    {x y : Except Panic (MultiFeed Feeds Roles Callers AccountId × List (ContractEvent AccountId))}
    (h : Abort.Agree (fun a b => SameButFeeds a.1 b.1 ∧ a.2 = b.2) x y) :
    Abort.Agree AnsweredAlike (commit <$> x) (commit <$> y) := by
  apply h.map
  intro a b alike
  obtain ⟨states, logs⟩ := alike
  refine ⟨?_, ?_⟩
  · change b.1.persist = { a.1.persist with feeds := b.1.persist.feeds }
    rw [states]
    rfl
  · simp only [commit, logs]

/-- A call that does not look at the feeds. -/
theorem dispatch_withFeeds (s : MultiFeed Feeds Roles Callers AccountId) (feeds : Feeds)
    (ctx : VMContext AccountId) (call : Call AccountId) (noReport : ∀ us, call ≠ .f us)
    (noFetch : ∀ id, call ≠ .fetch id) (noFetchBatch : ∀ ids, call ≠ .fetchBatch ids) :
    Abort.Agree AnsweredAlike (s.dispatch ctx call) ({ s with feeds }.dispatch ctx call) := by
  have role (r : LookupRole) (us : List (RoleUpdate AccountId)) :
      Abort.Agree AnsweredAlike (s.dispatch ctx (r.call us))
        ({ s with feeds }.dispatch ctx (r.call us)) := by
    rw [dispatch_role_call, dispatch_role_call]
    apply commit_alike
    apply Abort.Agree.same_bind
    intro _
    apply Abort.Agree.guarded
    intro _
    -- whichever set the role names, it is the same in both states
    cases r with
    | _ =>
        apply Abort.Agree.same_bind
        intro updated
        exact .ok ⟨rfl, rfl⟩
  cases call with
  | new =>
      apply Abort.Agree.same_bind
      intro _
      exact .error _
  | f us => exact absurd rfl (noReport us)
  | transferOwnership newOwner =>
      apply commit_alike
      apply Abort.Agree.same_bind
      intro _
      apply Abort.Agree.guarded
      intro _
      exact .ok ⟨rfl, rfl⟩
  | setAdmins us => exact role .admin us
  | setProducts us => exact role .product us
  | setPriceReporters us => exact role .priceReporter us
  | setAuthorizedCallers us =>
      apply commit_alike
      apply Abort.Agree.same_bind
      intro _
      apply Abort.Agree.guarded
      intro _
      exact .ok ⟨rfl, rfl⟩
  | setPaused paused =>
      apply commit_alike
      apply Abort.Agree.same_bind
      intro _
      apply Abort.Agree.guarded
      intro _
      exact .ok ⟨rfl, rfl⟩
  | setOpenReadStatus status =>
      apply commit_alike
      apply Abort.Agree.same_bind
      intro _
      apply Abort.Agree.guarded
      intro _
      exact .ok ⟨rfl, rfl⟩
  | fetch id => exact absurd rfl (noFetch id)
  | fetchBatch ids => exact absurd rfl (noFetchBatch ids)
  | _ => exact .ok ⟨rfl, rfl⟩

/-- A report by an outsider is refused before the batch is looked at. -/
theorem report_refused (h : ShutOut C s) (feeds : Feeds) (us : List FeedUpdate)
    (made : Transaction.MadeBy C ⟨ctx, .f us⟩) :
    Abort.Agree AnsweredAlike (s.dispatch ctx (.f us)) ({ s with feeds }.dispatch ctx (.f us)) := by
  apply Abort.Agree.same_bind
  intro _
  apply commit_alike
  apply Abort.Agree.same_bind_of
  intro caller called
  have outsider : LookupSet.contains s.priceReporters caller = false :=
    h.reporters caller (made caller (predecessorAccountId_eq_ok.mp called))
  rw [outsider]
  exact .error _

/-- One call by the coalition. -/
theorem dispatch_alike (h : ShutOut C s) (same : SameButFeeds s t) {tx : Transaction AccountId}
    (made : tx.MadeBy C) :
    Abort.Agree AnsweredAlike (s.dispatch tx.ctx tx.call) (t.dispatch tx.ctx tx.call) := by
  obtain ⟨panic, refused⟩ := h.gate_refuses made
  rw [SameButFeeds] at same
  rw [same]
  generalize t.feeds = feeds
  have refused' : ({ s with feeds } : MultiFeed Feeds Roles Callers AccountId).onlyReadAccess
      tx.ctx = .error panic := refused
  obtain ⟨ctx, call⟩ := tx
  cases call with
  | f us => exact report_refused h feeds us made
  | fetch id =>
      rw [dispatch, dispatch, fetch, fetch, refused, refused']
      exact .error panic
  | fetchBatch ids =>
      rw [dispatch, dispatch, fetchBatch, fetchBatch, refused, refused']
      exact .error panic
  | _ =>
      apply dispatch_withFeeds
      · intro us impossible
        cases impossible
      · intro id impossible
        cases impossible
      · intro ids impossible
        cases impossible

theorem step_alike (h : ShutOut C s) (same : SameButFeeds s t) {tx : Transaction AccountId}
    (made : tx.MadeBy C) :
    SameButFeeds (s.step tx).1 (t.step tx).1 ∧ (s.step tx).2 = (t.step tx).2 := by
  have alike := dispatch_alike h same made
  rw [step, step]
  generalize s.dispatch tx.ctx tx.call = x at alike ⊢
  generalize t.dispatch tx.ctx tx.call = y at alike ⊢
  cases alike with
  | error panic => exact ⟨same, rfl⟩
  | ok answered =>
      obtain ⟨states, answers⟩ := answered
      refine ⟨states, ?_⟩
      simp only [answers]

end Calls

/-- Two states that differ in the feeds only answer a coalition the same, call
after call, as long as it holds no way in: paused and without an admin, or closed
and without a product or a whitelisted member. -/
theorem coalition_learns_nothing {s₁ s₂ : MultiFeed Feeds Roles Callers AccountId}
    (C : Set AccountId) (same : SameButFeeds s₁ s₂) (built : Flags.Built s₁.flags)
    (owner : s₁.owner ∉ C) (reporters : ∀ a ∈ C, s₁.isPriceReporter a = false)
    (reads : (s₁.isPaused = true ∧ ∀ a ∈ C, s₁.isAdmin a = false) ∨
      (s₁.isOpenRead = false ∧ (∀ a ∈ C, s₁.isProduct a = false) ∧
        ∀ a ∈ C, s₁.isAuthorizedCaller a = false))
    (txs : List (Transaction AccountId)) (made : ∀ tx ∈ txs, tx.MadeBy C) :
    Machine.outputs MultiFeed.step s₁ txs = Machine.outputs MultiFeed.step s₂ txs := by
  have keeps (s t : MultiFeed Feeds Roles Callers AccountId) (tx : Transaction AccountId)
      (known : ShutOut C s ∧ SameButFeeds s t) (made : tx.MadeBy C) :
      (ShutOut C (s.step tx).1 ∧ SameButFeeds (s.step tx).1 (t.step tx).1) ∧
        (s.step tx).2 = (t.step tx).2 := by
    obtain ⟨states, answers⟩ := step_alike known.1 known.2 made
    exact ⟨⟨known.1.step made, states⟩, answers⟩
  have start : ShutOut C s₁ ∧ SameButFeeds s₁ s₂ := ⟨⟨built, owner, reporters, reads⟩, same⟩
  exact (Machine.lockstep_eq_of keeps start made).2

theorem coalition_learns_nothing_sample :
    Machine.outputs MultiFeed.step sample
        [⟨⟨some "eve.near", 0, 0⟩, .fetch "0x0000002a"⟩,
          ⟨⟨some "eve.near", 0, 200000000000⟩, .f [⟨42, 1, 50⟩]⟩, ⟨⟨none, 0, 0⟩, .getOwner⟩] =
      Machine.outputs MultiFeed.step (sample.run [reportAt 100 [⟨42, 7, 100⟩]])
        [⟨⟨some "eve.near", 0, 0⟩, .fetch "0x0000002a"⟩,
          ⟨⟨some "eve.near", 0, 200000000000⟩, .f [⟨42, 1, 50⟩]⟩, ⟨⟨none, 0, 0⟩, .getOwner⟩] := by
  have same : SameButFeeds sample (sample.run [reportAt 100 [⟨42, 7, 100⟩]]) := rfl
  have built : Flags.Built sample.flags := .new false false
  have member {a : String} (ha : a ∈ ({"eve.near"} : Set String)) : a = "eve.near" := ha
  apply coalition_learns_nothing {"eve.near"} same built
  · intro owner
    exact absurd (member owner) (by decide)
  · intro a ha
    rw [member ha]
    rfl
  · refine .inr ⟨rfl, ?_, ?_⟩
    · intro a ha
      rw [member ha]
      rfl
    · intro a ha
      rw [member ha]
      rfl
  · intro tx htx caller called
    simp only [List.mem_cons, List.not_mem_nil, or_false] at htx
    rcases htx with rfl | rfl | rfl
    · exact (Option.some.inj called).symm
    · exact (Option.some.inj called).symm
    · cases called

end MultiFeed

end NearMultiFeed
