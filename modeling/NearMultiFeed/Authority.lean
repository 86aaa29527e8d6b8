import NearMultiFeed.Deployment

/-!
# Authority

What a call leaves alone, depending on who did not make it, and the same over
runs: authority is only ever handed out by the owner.
-/
namespace NearMultiFeed

/-- The call is not made by an account with the role. -/
def VMContext.CallerNot {AccountId : Type} (ctx : VMContext AccountId)
    (role : AccountId → Bool) : Prop :=
  ∀ caller, ctx.predecessor = some caller → role caller = false

namespace MultiFeed

section Frames
variable {Feeds Roles Callers AccountId : Type}

/-- The owner and all that only the owner manages. -/
structure SameAuthority (s t : MultiFeed Feeds Roles Callers AccountId) : Prop where
  owner : t.owner = s.owner
  admin : t.admin = s.admin
  products : t.products = s.products
  priceReporters : t.priceReporters = s.priceReporters
  openRead : t.isOpenRead = s.isOpenRead

theorem SameAuthority.refl (s : MultiFeed Feeds Roles Callers AccountId) : SameAuthority s s :=
  ⟨rfl, rfl, rfl, rfl, rfl⟩

theorem SameAuthority.trans {s t u : MultiFeed Feeds Roles Callers AccountId}
    (h : SameAuthority s t) (h' : SameAuthority t u) : SameAuthority s u where
  owner := h'.owner.trans h.owner
  admin := h'.admin.trans h.admin
  products := h'.products.trans h.products
  priceReporters := h'.priceReporters.trans h.priceReporters
  openRead := h'.openRead.trans h.openRead

end Frames

variable {Feeds Roles Callers AccountId : Type} [DecidableEq AccountId]
  [LookupMap Feeds UInt32 StoredFeed] [LookupSet Roles AccountId]
  [IterableSet Callers AccountId]

/-! ## One call -/

section Calls
variable {s next : MultiFeed Feeds Roles Callers AccountId} {ctx : VMContext AccountId}
  {call : Call AccountId} {log : List (ContractEvent AccountId)}

theorem Effect.sameAuthority (effect : Effect s ctx call next log) (built : Flags.Built s.flags)
    (notOwner : ctx.predecessor ≠ some s.owner) : SameAuthority s next := by
  cases effect with
  | read => exact .refl s
  | f | setAuthorizedCallers => exact ⟨rfl, rfl, rfl, rfl, rfl⟩
  | transferOwnership called | setRole called | setOpenReadStatus called =>
      exact absurd called notOwner
  | setPaused => exact ⟨rfl, rfl, rfl, rfl, built.isOpenRead_flipPaused⟩

theorem Effect.samePaused (effect : Effect s ctx call next log) (built : Flags.Built s.flags)
    (notAdmin : ctx.CallerNot s.isAdmin) : next.isPaused = s.isPaused := by
  cases effect with
  | read | f | transferOwnership | setAuthorizedCallers => rfl
  | @setRole r => cases r <;> rfl
  | setPaused called member =>
      rw [notAdmin _ called] at member
      cases member
  | setOpenReadStatus => exact built.isPaused_flipOpenRead

theorem Effect.sameCallers (effect : Effect s ctx call next log)
    (notProduct : ctx.CallerNot s.isProduct) : next.authorizedCallers = s.authorizedCallers := by
  cases effect with
  | read | f | transferOwnership | setPaused | setOpenReadStatus => rfl
  | @setRole r => cases r <;> rfl
  | setAuthorizedCallers called member =>
      rw [notProduct _ called] at member
      cases member

theorem Effect.sameFeeds (effect : Effect s ctx call next log)
    (settled : LookupMap.flush s.feeds = s.feeds) (notReporter : ctx.CallerNot s.isPriceReporter) :
    next.feeds = s.feeds := by
  cases effect with
  | read => rfl
  | f called member =>
      rw [notReporter _ called] at member
      cases member
  | transferOwnership | setAuthorizedCallers | setPaused | setOpenReadStatus => exact settled
  | @setRole r => cases r <;> exact settled

theorem Effect.sameDescription (effect : Effect s ctx call next log) :
    next.description = s.description := by
  cases effect with
  | @setRole r => cases r <;> rfl
  | _ => rfl

/-- A privileged call goes through with one yoctoNEAR only. -/
theorem Effect.oneYocto (effect : Effect s ctx call next log) (h : call.privileged = true) :
    ctx.deposit = 1 := by
  cases effect with
  | @read call reads => cases call <;> cases h <;> cases reads
  | f => cases h
  | transferOwnership _ one | setRole _ one | setAuthorizedCallers _ _ one | setPaused _ _ one
  | setOpenReadStatus _ one => exact one

/-- What every effect of a call ensures, the call ensures. -/
theorem step_ensures {P : MultiFeed Feeds Roles Callers AccountId → Prop}
    {tx : Transaction AccountId} (same : P s)
    (changed : ∀ next log, Effect s tx.ctx tx.call next log → P next) : P (s.step tx).1 := by
  rcases s.step_cases tx with ⟨next, value, log, result, effect⟩ | ⟨panic, -, result⟩
  · rw [result]
    exact changed next log effect
  · rw [result]
    exact same

end Calls

/-! ## Runs -/

section Runs
variable {s : MultiFeed Feeds Roles Callers AccountId}

/-- While the owner of `s` stays out, authority is that of `s`; whatever each
step keeps under this authority, the run keeps. -/
theorem run_under_authority {P : MultiFeed Feeds Roles Callers AccountId → Prop}
    {Q : Transaction AccountId → Prop} (wf : WellFormed s) (start : P s)
    (keeps : ∀ t tx, WellFormed t → SameAuthority s t → P t → Q tx → P (t.step tx).1)
    {txs : List (Transaction AccountId)}
    (notOwner : ∀ tx ∈ txs, tx.ctx.predecessor ≠ some s.owner) (allowed : ∀ tx ∈ txs, Q tx) :
    SameAuthority s (s.run txs) ∧ P (s.run txs) := by
  have invariant : WellFormed (s.run txs) ∧ SameAuthority s (s.run txs) ∧ P (s.run txs) := by
    apply Machine.run_invariant_of (P := fun t => WellFormed t ∧ SameAuthority s t ∧ P t)
      (Q := fun tx => tx.ctx.predecessor ≠ some s.owner ∧ Q tx) MultiFeed.step
    · intro t tx h allowed
      obtain ⟨wf, authority, holds⟩ := h
      refine ⟨wf.step tx, authority.trans ?_, keeps t tx wf authority holds allowed.2⟩
      apply step_ensures (.refl t)
      intro next log effect
      apply effect.sameAuthority wf.built
      rw [authority.owner]
      exact allowed.1
    · exact ⟨wf, .refl s, start⟩
    · intro tx htx
      exact ⟨notOwner tx htx, allowed tx htx⟩
  exact invariant.2

/-- Who can change what, over runs from any reachable state. -/
theorem authority_over_runs (h : Reachable s) (txs : List (Transaction AccountId)) :
    ((∀ tx ∈ txs, tx.ctx.predecessor ≠ some s.owner) →
      ((s.run txs).owner = s.owner ∧ (s.run txs).admin = s.admin ∧
        (s.run txs).products = s.products ∧ (s.run txs).priceReporters = s.priceReporters ∧
        (s.run txs).isOpenRead = s.isOpenRead) ∧
      ((∀ tx ∈ txs, tx.ctx.CallerNot s.isAdmin) → (s.run txs).isPaused = s.isPaused) ∧
      ((∀ tx ∈ txs, tx.ctx.CallerNot s.isProduct) →
        (s.run txs).authorizedCallers = s.authorizedCallers) ∧
      ((∀ tx ∈ txs, tx.ctx.CallerNot s.isPriceReporter) → (s.run txs).feeds = s.feeds)) ∧
    (∀ before tx after, txs = before ++ tx :: after → tx.call.privileged = true →
      s.run (before ++ [tx]) ≠ s.run before → tx.ctx.deposit = 1) ∧
    (s.run txs).description = s.description := by
  have wf := h.wellFormed
  refine ⟨?_, ?_, ?_⟩
  · intro notOwner
    refine ⟨?_, ?_, ?_, ?_⟩
    · have unchanged := run_under_authority (P := fun _ => True) (Q := fun _ => True) wf trivial
        (fun _ _ _ _ _ _ => trivial) notOwner (fun _ _ => trivial)
      obtain ⟨⟨owner, admin, products, reporters, openRead⟩, -⟩ := unchanged
      exact ⟨owner, admin, products, reporters, openRead⟩
    · intro notAdmin
      refine (run_under_authority (P := fun t => t.isPaused = s.isPaused) wf rfl ?_ notOwner
        notAdmin).2
      intro t tx wf authority same notAdmin
      apply step_ensures (P := fun u => u.isPaused = s.isPaused) same
      intro next log effect
      refine (effect.samePaused wf.built ?_).trans same
      unfold isAdmin
      rw [authority.admin]
      exact notAdmin
    · intro notProduct
      refine (run_under_authority (P := fun t => t.authorizedCallers = s.authorizedCallers) wf rfl
        ?_ notOwner notProduct).2
      intro t tx wf authority same notProduct
      apply step_ensures (P := fun u => u.authorizedCallers = s.authorizedCallers) same
      intro next log effect
      refine (effect.sameCallers ?_).trans same
      unfold isProduct
      rw [authority.products]
      exact notProduct
    · intro notReporter
      refine (run_under_authority (P := fun t => t.feeds = s.feeds) wf rfl ?_ notOwner
        notReporter).2
      intro t tx wf authority same notReporter
      apply step_ensures (P := fun u => u.feeds = s.feeds) same
      intro next log effect
      refine (effect.sameFeeds wf.flushed ?_).trans same
      unfold isPriceReporter
      rw [authority.priceReporters]
      exact notReporter
  · intro before tx after _ privileged
    have one_step : s.run (before ++ [tx]) = ((s.run before).step tx).1 :=
      Machine.run_append _ s before [tx]
    rw [one_step]
    apply step_ensures (P := fun t => t ≠ s.run before → tx.ctx.deposit = 1)
    · intro changed
      exact absurd rfl changed
    · intro next log effect _
      exact effect.oneYocto privileged
  · have keeps (t : MultiFeed Feeds Roles Callers AccountId) (tx : Transaction AccountId)
        (same : t.description = s.description) : (t.step tx).1.description = s.description := by
      apply step_ensures (P := fun u => u.description = s.description) same
      intro next log effect
      exact effect.sameDescription.trans same
    exact Machine.run_invariant MultiFeed.step keeps rfl txs

theorem authority_over_runs_sample :
    let txs := [⟨⟨some "admin.near", 1, 0⟩, .setPaused true⟩, reportAt 100 [⟨42, 7, 100⟩]]
    (sample.run txs).owner = "owner.near" ∧
      (sample.run txs).authorizedCallers = sample.authorizedCallers ∧
      (sample.run (txs.take 1)).feeds = sample.feeds := by
  intro txs
  have reachable : Reachable sample := ⟨sample, sampleLog, [], sample_deployed, rfl⟩
  have notOwner : ∀ tx ∈ txs, tx.ctx.predecessor ≠ some sample.owner := by decide
  obtain ⟨⟨owner, -⟩, -, callers, -⟩ := (authority_over_runs reachable txs).1 notOwner
  have notOwner' : ∀ tx ∈ txs.take 1, tx.ctx.predecessor ≠ some sample.owner := by decide
  obtain ⟨-, -, -, feeds⟩ := (authority_over_runs reachable (txs.take 1)).1 notOwner'
  refine ⟨owner, callers ?_, feeds ?_⟩
  · intro tx htx caller called
    simp only [txs, List.mem_cons, List.not_mem_nil, or_false] at htx
    rcases htx with rfl | rfl <;> cases called <;> rfl
  · intro tx htx caller called
    simp only [txs, List.take_succ_cons, List.take_zero, List.mem_cons, List.not_mem_nil,
      or_false] at htx
    subst htx
    cases called
    rfl

end Runs

end MultiFeed

end NearMultiFeed
