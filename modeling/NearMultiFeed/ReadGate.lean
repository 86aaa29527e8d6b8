import NearMultiFeed.Reads
import NearMultiFeed.Refinement

/-!
# The read gate

The gate of the contract against the two booleans and the whitelist of the
reference, and what a detour through paused or open reads leaves behind: nothing.
-/
namespace NearMultiFeed

/-- The calls that flip the paused flag. -/
def Call.setsPaused {AccountId : Type} : Call AccountId → Bool
  | .setPaused _ => true
  | _ => false

/-- The calls that flip the open-read flag. -/
def Call.setsOpenRead {AccountId : Type} : Call AccountId → Bool
  | .setOpenReadStatus _ => true
  | _ => false

namespace Reference

variable {Callers AccountId : Type} [IterableSet Callers AccountId]

/-- Who passes: a view call has no caller to look up. -/
def admits (ref : Reference Callers AccountId) : Option AccountId → Bool
  | some caller => !ref.paused && (ref.openRead || LookupSet.contains ref.authorizedCallers caller)
  | none => !ref.paused && ref.openRead

/-- What the others are told. -/
def refusal (ref : Reference Callers AccountId) (caller : Option AccountId) : Panic :=
  if ref.paused then .enforcedPaused
  else match caller with
    | some _ => .onlyAuthorizedCaller
    | none => .prohibitedInView "predecessor_account_id"

theorem mayRead_eq (ref : Reference Callers AccountId) (ctx : VMContext AccountId) :
    ref.mayRead ctx =
      if ref.admits ctx.predecessor then .ok () else .error (ref.refusal ctx.predecessor) := by
  unfold mayRead VMContext.predecessorAccountId
  cases ctx.predecessor with
  | none => cases h : ref.paused <;> cases h' : ref.openRead <;> simp [admits, refusal, h, h']
  | some caller =>
      cases h : ref.paused <;> cases h' : ref.openRead <;>
        cases member : LookupSet.contains ref.authorizedCallers caller <;>
        simp [admits, refusal, require, h, h', member]

/-- The same state under other flags. -/
def withFlags (ref : Reference Callers AccountId) (paused openRead : Bool) :
    Reference Callers AccountId :=
  { ref with paused, openRead }

variable [DecidableEq AccountId] (ref : Reference Callers AccountId)

theorem next_of_agree {ref' : Reference Callers AccountId} {tx : Transaction AccountId}
    {g : Reference Callers AccountId → Reference Callers AccountId} (start : ref' = g ref)
    (h : Abort.Agree (fun a b => b.1 = g a.1) (ref.dispatch tx.ctx tx.call)
      (ref'.dispatch tx.ctx tx.call)) : (ref'.step tx).1 = g (ref.step tx).1 := by
  rw [step, step]
  generalize ref.dispatch tx.ctx tx.call = x at h ⊢
  generalize ref'.dispatch tx.ctx tx.call = y at h ⊢
  cases h with
  | ok same => exact same
  | error panic => exact start

theorem step_of_ok {tx : Transaction AccountId} {next : Reference Callers AccountId}
    {value : Value AccountId} {events : List (ContractEvent AccountId)}
    (answered : ref.dispatch tx.ctx tx.call = .ok (next, value, events)) :
    ref.step tx = (next, .success value events) := by
  simp only [step, answered]

theorem step_of_error {tx : Transaction AccountId} {panic : Panic}
    (refused : ref.dispatch tx.ctx tx.call = .error panic) :
    ref.step tx = (ref, .failure panic.message) := by
  simp only [step, refused]

/-- Reading changes nothing. -/
theorem next_of_reads {tx : Transaction AccountId} (h : tx.call.reads = true) :
    (ref.step tx).1 = ref := by
  have gated {α : Type} {x : Except Panic α} {answer : α → Value AccountId}
      (seq : ref.dispatch tx.ctx tx.call = (fun d => (ref, answer d, [])) <$> x) :
      (ref.step tx).1 = ref := by
    cases x with
    | ok d => rw [ref.step_of_ok seq]
    | error panic => rw [ref.step_of_error seq]
  obtain ⟨ctx, call⟩ := tx
  cases call with
  | fetch feedId =>
      have seq : ref.dispatch ctx (.fetch feedId) = (fun d => (ref, .feed d, [])) <$>
          (ref.mayRead ctx >>= fun _ => ref.lookup feedId) := (map_bind _ _ _).symm
      exact gated seq
  | fetchBatch feedIds =>
      have seq : ref.dispatch ctx (.fetchBatch feedIds) = (fun ds => (ref, .feeds ds, [])) <$>
          (ref.mayRead ctx >>= fun _ => feedIds.mapM ref.lookup) := (map_bind _ _ _).symm
      exact gated seq
  | getOwner | description | decimals | version | isAdmin | isProduct | isPriceReporter
  | isAuthorizedCaller | isPaused | isOpenRead | getAuthorizedCallers => rfl
  | _ => cases h

/-- The methods that neither read nor write the flags. -/
theorem next_withFlags {tx : Transaction AccountId} (paused openRead : Bool)
    (notPaused : tx.call.setsPaused = false) (notOpenRead : tx.call.setsOpenRead = false) :
    ((ref.withFlags paused openRead).step tx).1 =
      (ref.step tx).1.withFlags paused openRead := by
  obtain ⟨ctx, call⟩ := tx
  have finish {x y : Except Panic (Reference Callers AccountId × List (ContractEvent AccountId))}
      (h : Abort.Agree (fun a b => b.1 = a.1.withFlags paused openRead) x y) :
      Abort.Agree (fun a b => b.1 = a.1.withFlags paused openRead) (dispatch.done <$> x)
        (dispatch.done <$> y) := h.map fun _ _ same => same
  have role (r : LookupRole) (us : List (RoleUpdate AccountId)) :
      Abort.Agree (fun a b => b.1 = a.1.withFlags paused openRead)
        (dispatch.done <$> ref.setRole ctx r us)
        (dispatch.done <$> (ref.withFlags paused openRead).setRole ctx r us) := by
    apply finish
    apply Abort.Agree.guarded
    intro _
    apply Abort.Agree.same_bind
    intro updated
    exact .ok rfl
  cases call with
  | new =>
      apply next_of_agree ref rfl
      apply Abort.Agree.same_bind
      intro _
      exact .error _
  | f us =>
      apply next_of_agree ref rfl
      apply Abort.Agree.same_bind
      intro _
      apply finish
      apply Abort.Agree.guarded
      intro _
      apply Abort.Agree.same_bind
      intro feeds
      exact .ok rfl
  | transferOwnership newOwner =>
      apply next_of_agree ref rfl
      apply finish
      apply Abort.Agree.guarded
      intro _
      exact .ok rfl
  | setAdmins us =>
      apply next_of_agree ref rfl
      exact role .admin us
  | setProducts us =>
      apply next_of_agree ref rfl
      exact role .product us
  | setPriceReporters us =>
      apply next_of_agree ref rfl
      exact role .priceReporter us
  | setAuthorizedCallers us =>
      apply next_of_agree ref rfl
      apply finish
      apply Abort.Agree.guarded
      intro _
      exact .ok rfl
  | setPaused => cases notPaused
  | setOpenReadStatus => cases notOpenRead
  | _ =>
      rw [next_of_reads _ rfl, next_of_reads _ rfl]

/-- Setting one flag neither reads nor writes the other. -/
theorem next_setPaused (ctx : VMContext AccountId) (paused openRead : Bool) :
    ((ref.withFlags ref.paused openRead).step ⟨ctx, .setPaused paused⟩).1 =
      (ref.step ⟨ctx, .setPaused paused⟩).1.withFlags
        (ref.step ⟨ctx, .setPaused paused⟩).1.paused openRead := by
  apply next_of_agree (g := fun r => r.withFlags r.paused openRead) ref rfl
  have methods : Abort.Agree (fun a b => b.1 = a.1.withFlags a.1.paused openRead)
      (ref.setPaused ctx paused) ((ref.withFlags ref.paused openRead).setPaused ctx paused) := by
    apply Abort.Agree.guarded
    intro _
    exact .ok rfl
  exact methods.map fun _ _ same => same

theorem next_setOpenReadStatus (ctx : VMContext AccountId) (paused status : Bool) :
    ((ref.withFlags paused ref.openRead).step ⟨ctx, .setOpenReadStatus status⟩).1 =
      (ref.step ⟨ctx, .setOpenReadStatus status⟩).1.withFlags paused
        (ref.step ⟨ctx, .setOpenReadStatus status⟩).1.openRead := by
  apply next_of_agree (g := fun r => r.withFlags paused r.openRead) ref rfl
  have methods : Abort.Agree (fun a b => b.1 = a.1.withFlags paused a.1.openRead)
      (ref.setOpenReadStatus ctx status)
      ((ref.withFlags paused ref.openRead).setOpenReadStatus ctx status) := by
    apply Abort.Agree.guarded
    intro _
    exact .ok rfl
  exact methods.map fun _ _ same => same

/-- Other calls leave the flags alone. -/
theorem flags_of_next {tx : Transaction AccountId} (notPaused : tx.call.setsPaused = false)
    (notOpenRead : tx.call.setsOpenRead = false) :
    (ref.step tx).1.paused = ref.paused ∧ (ref.step tx).1.openRead = ref.openRead := by
  have same := ref.next_withFlags ref.paused ref.openRead notPaused notOpenRead
  change (ref.step tx).1 = _ at same
  rw [same]
  exact ⟨rfl, rfl⟩

/-- `set_paused` changes the paused flag or nothing. -/
theorem step_setPaused (ctx : VMContext AccountId) (paused : Bool) :
    ∃ p, (ref.step ⟨ctx, .setPaused paused⟩).1 = ref.withFlags p ref.openRead := by
  rw [step, dispatch]
  cases result : ref.setPaused ctx paused with
  | error panic => exact ⟨ref.paused, rfl⟩
  | ok finished =>
      simp only [setPaused, Abort.bind_eq_ok, Abort.pure_eq_ok, Except.ok.injEq] at result
      obtain ⟨caller, -, _, -, _, -, same⟩ := result
      refine ⟨paused, ?_⟩
      rw [← same]
      rfl

/-- `set_open_read_status` changes the open-read flag or nothing. -/
theorem step_setOpenReadStatus (ctx : VMContext AccountId) (status : Bool) :
    ∃ o, (ref.step ⟨ctx, .setOpenReadStatus status⟩).1 = ref.withFlags ref.paused o := by
  rw [step, dispatch]
  cases result : ref.setOpenReadStatus ctx status with
  | error panic => exact ⟨ref.openRead, rfl⟩
  | ok finished =>
      simp only [setOpenReadStatus, Abort.bind_eq_ok, Abort.pure_eq_ok, Except.ok.injEq] at result
      obtain ⟨caller, -, _, -, _, -, same⟩ := result
      refine ⟨status, ?_⟩
      rw [← same]
      rfl

/-- Dropping every `set_paused` from a run changes nothing but the paused flag. -/
theorem run_without_setPaused (txs : List (Transaction AccountId)) :
    ref.run (txs.filter fun tx => !tx.call.setsPaused) =
      (ref.run txs).withFlags ref.paused (ref.run txs).openRead := by
  have both (s t : Reference Callers AccountId) (tx : Transaction AccountId)
      (related : t = s.withFlags ref.paused s.openRead) (kept : (!tx.call.setsPaused) = true) :
      (t.step tx).1 = (s.step tx).1.withFlags ref.paused (s.step tx).1.openRead := by
    have notPaused : tx.call.setsPaused = false := Bool.not_eq_true' _ ▸ kept
    subst related
    cases flips : tx.call.setsOpenRead with
    | false => rw [s.next_withFlags _ _ notPaused flips, (s.flags_of_next notPaused flips).2]
    | true =>
        obtain ⟨ctx, call⟩ := tx
        cases call with
        | setOpenReadStatus status => exact s.next_setOpenReadStatus ctx ref.paused status
        | _ => cases flips
  have alone (s t : Reference Callers AccountId) (tx : Transaction AccountId)
      (related : t = s.withFlags ref.paused s.openRead) (skipped : (!tx.call.setsPaused) = false) :
      t = (s.step tx).1.withFlags ref.paused (s.step tx).1.openRead := by
    obtain ⟨ctx, call⟩ := tx
    cases call with
    | setPaused paused =>
        obtain ⟨p, same⟩ := s.step_setPaused ctx paused
        rw [same]
        exact related
    | _ => cases skipped
  exact Machine.run_filter step both alone rfl txs

/-- Dropping every `set_open_read_status` changes nothing but the open-read flag. -/
theorem run_without_setOpenRead (txs : List (Transaction AccountId)) :
    ref.run (txs.filter fun tx => !tx.call.setsOpenRead) =
      (ref.run txs).withFlags (ref.run txs).paused ref.openRead := by
  have both (s t : Reference Callers AccountId) (tx : Transaction AccountId)
      (related : t = s.withFlags s.paused ref.openRead) (kept : (!tx.call.setsOpenRead) = true) :
      (t.step tx).1 = (s.step tx).1.withFlags (s.step tx).1.paused ref.openRead := by
    have notOpenRead : tx.call.setsOpenRead = false := Bool.not_eq_true' _ ▸ kept
    subst related
    cases flips : tx.call.setsPaused with
    | false => rw [s.next_withFlags _ _ flips notOpenRead, (s.flags_of_next flips notOpenRead).1]
    | true =>
        obtain ⟨ctx, call⟩ := tx
        cases call with
        | setPaused paused => exact s.next_setPaused ctx paused ref.openRead
        | _ => cases flips
  have alone (s t : Reference Callers AccountId) (tx : Transaction AccountId)
      (related : t = s.withFlags s.paused ref.openRead)
      (skipped : (!tx.call.setsOpenRead) = false) :
      t = (s.step tx).1.withFlags (s.step tx).1.paused ref.openRead := by
    obtain ⟨ctx, call⟩ := tx
    cases call with
    | setOpenReadStatus status =>
        obtain ⟨o, same⟩ := s.step_setOpenReadStatus ctx status
        rw [same]
        exact related
    | _ => cases skipped
  exact Machine.run_filter step both alone rfl txs

end Reference

namespace MultiFeed

variable {Feeds Roles Callers AccountId : Type} [DecidableEq AccountId]
  [LookupMap Feeds UInt32 StoredFeed] [LookupSet Roles AccountId]
  [IterableSet Callers AccountId]

/-- The gate of a contract state meets the reference state. -/
structure GateMeets (s : MultiFeed Feeds Roles Callers AccountId)
    (ref : Reference Callers AccountId) : Prop where
  isPaused : s.isPaused = ref.paused
  isOpenRead : s.isOpenRead = ref.openRead
  /-- `set_paused` is answered alike and changes only its own boolean. -/
  setPaused : ∀ ctx paused, (s.step ⟨ctx, .setPaused paused⟩).2 =
      (ref.step ⟨ctx, .setPaused paused⟩).2 ∧
    (s.step ⟨ctx, .setPaused paused⟩).1.isPaused = (ref.step ⟨ctx, .setPaused paused⟩).1.paused ∧
    (s.step ⟨ctx, .setPaused paused⟩).1.isOpenRead = s.isOpenRead
  setOpenRead : ∀ ctx status, (s.step ⟨ctx, .setOpenReadStatus status⟩).2 =
      (ref.step ⟨ctx, .setOpenReadStatus status⟩).2 ∧
    (s.step ⟨ctx, .setOpenReadStatus status⟩).1.isOpenRead =
      (ref.step ⟨ctx, .setOpenReadStatus status⟩).1.openRead ∧
    (s.step ⟨ctx, .setOpenReadStatus status⟩).1.isPaused = s.isPaused
  /-- The callers the reference admits are the current whitelist. -/
  whitelist : ∀ caller, s.isAuthorizedCaller caller =
    LookupSet.contains ref.authorizedCallers caller
  fetch : ∀ ctx feedId id, parseFeedId feedId = .ok id →
    (s.step ⟨ctx, .fetch feedId⟩).2 =
      if ref.admits ctx.predecessor then .success (.feed (s.shown id)) []
      else .failure (ref.refusal ctx.predecessor).message
  /-- Past the gate only a malformed id can still fail. -/
  fetchBatch : ∀ ctx feedIds, s.fetchBatch ctx feedIds =
    if ref.admits ctx.predecessor then feedIds.mapM fun feedId => s.shown <$> parseFeedId feedId
    else .error (ref.refusal ctx.predecessor)

/-- Detours through the flags leave the read permissions as they would have been. -/
structure DetoursForgotten (s : MultiFeed Feeds Roles Callers AccountId) : Prop where
  paused : ∀ txs, (s.run txs).isPaused = s.isPaused → ∀ ctx, (s.run txs).onlyReadAccess ctx =
    (s.run (txs.filter fun tx => !tx.call.setsPaused)).onlyReadAccess ctx
  openRead : ∀ txs, (s.run txs).isOpenRead = s.isOpenRead → ∀ ctx,
    (s.run txs).onlyReadAccess ctx =
      (s.run (txs.filter fun tx => !tx.call.setsOpenRead)).onlyReadAccess ctx

namespace Corresponds

variable {s : MultiFeed Feeds Roles Callers AccountId} {ref : Reference Callers AccountId}

omit [DecidableEq AccountId] in
theorem gate_eq (h : Corresponds s ref) (ctx : VMContext AccountId) :
    s.onlyReadAccess ctx =
      if ref.admits ctx.predecessor then .ok () else .error (ref.refusal ctx.predecessor) := by
  rw [h.onlyReadAccess_eq, ref.mayRead_eq]

theorem gateMeets (h : Corresponds s ref) : GateMeets s ref := by
  have silent {tx : Transaction AccountId}
      {x : Except Panic (Reference Callers AccountId × List (ContractEvent AccountId))}
      (setter : ref.dispatch tx.ctx tx.call = Reference.dispatch.done <$> x) :
      (ref.step tx).2.lowPrices = (ref.step tx).2 := by
    cases x with
    | ok finished => rw [ref.step_of_ok setter]; rfl
    | error panic => rw [ref.step_of_error setter]; rfl
  constructor
  · exact h.isPaused_eq
  · exact h.isOpenRead_eq
  · intro ctx paused
    obtain ⟨next, answer⟩ := h.step ⟨ctx, .setPaused paused⟩
    obtain ⟨p, only⟩ := ref.step_setPaused ctx paused
    refine ⟨answer.trans (silent rfl), next.isPaused_eq, ?_⟩
    rw [next.isOpenRead_eq, h.isOpenRead_eq, only]
    rfl
  · intro ctx status
    obtain ⟨next, answer⟩ := h.step ⟨ctx, .setOpenReadStatus status⟩
    obtain ⟨o, only⟩ := ref.step_setOpenReadStatus ctx status
    refine ⟨answer.trans (silent rfl), next.isOpenRead_eq, ?_⟩
    rw [next.isPaused_eq, h.isPaused_eq, only]
    rfl
  · intro caller
    rw [isAuthorizedCaller, h.authorizedCallers]
  · intro ctx feedId id parsed
    rw [MultiFeed.step, dispatch, MultiFeed.fetch, h.gate_eq, parsed]
    cases ref.admits ctx.predecessor <;> rfl
  · intro ctx feedIds
    rw [fetchBatch, h.gate_eq]
    cases ref.admits ctx.predecessor with
    | false => rfl
    | true =>
        have entry (feedId : String) : s.shown <$> parseFeedId feedId = (do
            let id ← parseFeedId feedId
            return (LookupMap.get s.feeds id).map FeedData.from) := map_eq_pure_bind _ _
        simp only [entry]
        rfl

/-- The gate reads the flags and the whitelist, and a run without the flips of one
flag ends with the other flag and the whitelist of the full run. -/
theorem detoursForgotten (h : Corresponds s ref) : DetoursForgotten s := by
  constructor
  · intro txs back ctx
    have full := (h.run txs).1
    have short := (h.run (txs.filter fun tx => !tx.call.setsPaused)).1
    rw [full.isPaused_eq, h.isPaused_eq] at back
    rw [full.onlyReadAccess_eq, short.onlyReadAccess_eq, ref.run_without_setPaused, ← back]
    rfl
  · intro txs back ctx
    have full := (h.run txs).1
    have short := (h.run (txs.filter fun tx => !tx.call.setsOpenRead)).1
    rw [full.isOpenRead_eq, h.isOpenRead_eq] at back
    rw [full.onlyReadAccess_eq, short.onlyReadAccess_eq, ref.run_without_setOpenRead, ← back]
    rfl

end Corresponds

/-- In every run from `new`, the gate does what the reference on two independent
booleans says, and detours through paused or open reads leave no trace. -/
theorem gate_meets_reference (owner : AccountId) (openReadEnabled : Bool) (description : String)
    (admins products priceReporters authorizedCallers : List AccountId)
    (txs : List (Transaction AccountId)) :
    Abort.Agree
      (fun (a : MultiFeed Feeds Roles Callers AccountId × List (ContractEvent AccountId))
          (b : Reference Callers AccountId × List (ContractEvent AccountId)) =>
        GateMeets (a.1.persist.run txs) (b.1.run txs) ∧
        DetoursForgotten (a.1.persist.run txs))
      (MultiFeed.new owner openReadEnabled description admins products priceReporters
        authorizedCallers)
      (Reference.new owner openReadEnabled description admins products priceReporters
        authorizedCallers) := by
  apply (new_agrees owner openReadEnabled description admins products priceReporters
    authorizedCallers).mono
  intro a b finished
  have related := (finished.1.run txs).1
  exact ⟨related.gateMeets, related.detoursForgotten⟩

end MultiFeed

end NearMultiFeed
