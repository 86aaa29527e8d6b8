import NearMultiFeed.Deployment

/-!
# Batches of role updates

When the strict and the lenient setters go through, what they leave, how a
strict batch is taken back, and that both loops agree where the strict one runs.
-/
namespace NearMultiFeed

section Undo
variable {AccountId : Type}

def RoleUpdate.negate (u : RoleUpdate AccountId) : RoleUpdate AccountId := ⟨u.account, !u.status⟩

/-- The list that takes a batch back: reversed, every status negated. -/
def undo (us : List (RoleUpdate AccountId)) : List (RoleUpdate AccountId) :=
  us.reverse.map RoleUpdate.negate

theorem undo_ne_nil {us : List (RoleUpdate AccountId)} (h : us ≠ []) : undo us ≠ [] := by
  intro none
  rw [undo, List.map_eq_nil_iff, List.reverse_eq_nil_iff] at none
  exact h none

variable [DecidableEq AccountId]

theorem statuses_undo (us : List (RoleUpdate AccountId)) (account : AccountId) :
    (KeyedLog.entriesOf RoleUpdate.account account (undo us)).map RoleUpdate.status =
      ((KeyedLog.entriesOf RoleUpdate.account account us).map RoleUpdate.status).reverse.map
        (! ·) := by
  have keys : RoleUpdate.account ∘ RoleUpdate.negate =
      (RoleUpdate.account : RoleUpdate AccountId → AccountId) := rfl
  rw [undo, KeyedLog.entriesOf_map, keys, KeyedLog.entriesOf_reverse, List.map_map,
    ← List.map_reverse, List.map_map]
  rfl

/-- A batch that alternates is followed by its undoing, back to the start. -/
theorem undo_leads {base : AccountId → Bool} {us : List (RoleUpdate AccountId)}
    (h : Alternating base us) :
    KeyedLog.Leads RoleUpdate.account RoleUpdate.status (· ≠ ·) (membership base us) base
      (undo us) :=
  h.inverse (statuses_undo us)

end Undo

namespace MultiFeed

variable {Feeds Roles Callers AccountId : Type} [DecidableEq AccountId]
  [LookupMap Feeds UInt32 StoredFeed] [LookupSet Roles AccountId]
  [IterableSet Callers AccountId]

/-! ## The strict setters -/

/-- When a strict setter goes through, and what it does then. -/
theorem step_role_call {s next : MultiFeed Feeds Roles Callers AccountId}
    {ctx : VMContext AccountId} {r : LookupRole} {us : List (RoleUpdate AccountId)}
    {value : Value AccountId} {events : List (ContractEvent AccountId)} :
    s.step ⟨ctx, r.call us⟩ = (next, .success value events) ↔
      ctx.predecessor = some s.owner ∧ ctx.deposit = 1 ∧ us ≠ [] ∧
      Alternating (s.hasRole r.role) us ∧
      next = (s.putRoleSet (setMembers (s.roleSet r) us) r).persist ∧ value = .unit ∧
      events = roleLog r.role us := by
  simp only [step_eq_success, dispatch_role_call, Abort.map_eq_ok, Prod.exists, setRole_eq_ok,
    commit, Prod.mk.injEq]
  constructor
  · intro h
    obtain ⟨_, _, ⟨called, one, some_updates, good, rfl, rfl⟩, rfl, rfl, rfl⟩ := h
    exact ⟨called, one, some_updates, good, rfl, rfl, rfl⟩
  · intro h
    obtain ⟨called, one, some_updates, good, rfl, rfl, rfl⟩ := h
    exact ⟨_, _, ⟨called, one, some_updates, good, rfl, rfl⟩, rfl, rfl, rfl⟩

omit [DecidableEq AccountId] [LookupSet Roles AccountId] [IterableSet Callers AccountId] in
theorem persist_putRoleSet {s : MultiFeed Feeds Roles Callers AccountId} (h : WellFormed s)
    (set : Roles) (r : LookupRole) : (s.putRoleSet set r).persist = s.putRoleSet set r := by
  cases r <;> simp only [persist, putRoleSet, h.flushed]

/-- The three setters of the owner: when they go through, what they leave, and
how the same call with the batch undone restores the role. -/
theorem setRole_exact {s : MultiFeed Feeds Roles Callers AccountId} (h : Reachable s)
    (r : LookupRole) (ctx : VMContext AccountId) (us : List (RoleUpdate AccountId)) :
    ((∃ value events, (s.step ⟨ctx, r.call us⟩).2 = .success value events) ↔
      ctx.predecessor = some s.owner ∧ ctx.deposit = 1 ∧ us ≠ [] ∧
        Alternating (s.hasRole r.role) us) ∧
    (∀ value events, (s.step ⟨ctx, r.call us⟩).2 = .success value events →
      value = .unit ∧ events = us.map (fun u => r.role.event u.account u.status) ∧
      ∃ set, (s.step ⟨ctx, r.call us⟩).1 = s.putRoleSet set r ∧
        LookupSet.contains set = membership (s.hasRole r.role) us ∧
        ∀ ctx' : VMContext AccountId, ctx'.predecessor = some s.owner → ctx'.deposit = 1 →
          ∃ events' set', (s.step ⟨ctx, r.call us⟩).1.step ⟨ctx', r.call (undo us)⟩ =
              (s.putRoleSet set' r, .success .unit events') ∧
            LookupSet.contains set' = s.hasRole r.role) := by
  constructor
  · constructor
    · intro ran
      obtain ⟨value, events, accepted⟩ := ran
      obtain ⟨called, one, some_updates, good, -⟩ := step_role_call.mp (Prod.ext rfl accepted)
      exact ⟨called, one, some_updates, good⟩
    · intro guards
      obtain ⟨called, one, some_updates, good⟩ := guards
      have ran := step_role_call.mpr ⟨called, one, some_updates, good, rfl, rfl, rfl⟩
      exact ⟨_, _, congrArg Prod.snd ran⟩
  · intro value events accepted
    obtain ⟨called, one, some_updates, good, next, unit, reported⟩ :=
      step_role_call.mp (Prod.ext rfl accepted)
    have reached : (s.step ⟨ctx, r.call us⟩).1 = s.putRoleSet (setMembers (s.roleSet r) us) r :=
      next.trans (persist_putRoleSet h.wellFormed _ r)
    have members : LookupSet.contains (setMembers (s.roleSet r) us) =
        membership (s.hasRole r.role) us := by
      rw [contains_setMembers, contains_roleSet]
    refine ⟨unit, reported, _, reached, members, ?_⟩
    intro ctx' called' one'
    have settled : WellFormed (s.putRoleSet (setMembers (s.roleSet r) us) r) := by
      rw [← reached]
      exact h.wellFormed.step ⟨ctx, r.call us⟩
    have back := undo_leads good
    refine ⟨roleLog r.role (undo us), setMembers (setMembers (s.roleSet r) us) (undo us), ?_, ?_⟩
    · rw [reached]
      apply step_role_call.mpr
      refine ⟨by rw [called', owner_putRoleSet], one', undo_ne_nil some_updates, ?_, ?_, rfl, rfl⟩
      · rw [hasRole_putRoleSet_self, members]
        exact back.chained
      · rw [persist_putRoleSet settled, putRoleSet_putRoleSet, roleSet_putRoleSet]
    · rw [contains_setMembers, members]
      exact back.reaches

theorem setRole_exact_sample :
    let us : List (RoleUpdate String) := [⟨"a", true⟩, ⟨"admin.near", false⟩, ⟨"a", false⟩]
    let ctx : VMContext String := ⟨some "owner.near", 1, 0⟩
    (∃ value events, (sample.step ⟨ctx, LookupRole.admin.call us⟩).2 = .success value events) ∧
    ∃ set events' set', (sample.step ⟨ctx, LookupRole.admin.call us⟩).1 =
        sample.putRoleSet set .admin ∧ LookupSet.contains set "admin.near" = false ∧
      (sample.step ⟨ctx, LookupRole.admin.call us⟩).1.step
          ⟨ctx, LookupRole.admin.call (undo us)⟩ =
        (sample.putRoleSet set' .admin, .success .unit events') ∧
      LookupSet.contains set' "admin.near" = true := by
  intro us ctx
  have reachable : Reachable sample := ⟨sample, sampleLog, [], sample_deployed, rfl⟩
  obtain ⟨exactly, effect⟩ := setRole_exact reachable .admin ctx us
  have accepted : (sample.step ⟨ctx, LookupRole.admin.call us⟩).2 = .success .unit
      [.adminStatusChanged "a" true, .adminStatusChanged "admin.near" false,
        .adminStatusChanged "a" false] := by decide +kernel
  obtain ⟨-, -, set, reached, members, back⟩ := effect _ _ accepted
  obtain ⟨events', set', restored, members'⟩ := back ctx rfl rfl
  refine ⟨⟨_, _, accepted⟩, set, events', set', reached, ?_, restored, ?_⟩
  · rw [members]
    decide +kernel
  · rw [members']
    decide +kernel

/-! ## The lenient setter -/

/-- When the lenient setter goes through, and what it does then. -/
theorem step_setAuthorizedCallers {s next : MultiFeed Feeds Roles Callers AccountId}
    {ctx : VMContext AccountId} {us : List (RoleUpdate AccountId)} {value : Value AccountId}
    {events : List (ContractEvent AccountId)} :
    s.step ⟨ctx, .setAuthorizedCallers us⟩ = (next, .success value events) ↔
      ctx.deposit = 1 ∧
      (∃ caller, ctx.predecessor = some caller ∧ s.isProduct caller = true) ∧ us ≠ [] ∧
      next = { s with
        authorizedCallers := (updateAuthorizedCallers s.authorizedCallers us).1 }.persist ∧
      value = .unit ∧ events = (updateAuthorizedCallers s.authorizedCallers us).2 := by
  simp only [step_eq_success, dispatch, Abort.map_eq_ok, Prod.exists, setAuthorizedCallers_eq_ok,
    commit, Prod.mk.injEq]
  constructor
  · intro h
    obtain ⟨_, _, ⟨one, product, some_updates, rfl, rfl⟩, rfl, rfl, rfl⟩ := h
    exact ⟨one, product, some_updates, rfl, rfl, rfl⟩
  · intro h
    obtain ⟨one, product, some_updates, rfl, rfl, rfl⟩ := h
    exact ⟨_, _, ⟨one, product, some_updates, rfl, rfl⟩, rfl, rfl, rfl⟩

/-- The lenient setter neither reads nor writes the flags. -/
theorem step_setAuthorizedCallers_flags (s : MultiFeed Feeds Roles Callers AccountId)
    (ctx : VMContext AccountId) (us : List (RoleUpdate AccountId)) (flags : Flags) :
    { s with flags := flags }.step ⟨ctx, .setAuthorizedCallers us⟩ =
      ({ (s.step ⟨ctx, .setAuthorizedCallers us⟩).1 with flags := flags },
        (s.step ⟨ctx, .setAuthorizedCallers us⟩).2) := by
  have methods : Abort.Agree (fun a b => b = ({ a.1 with flags := flags }, a.2))
      (s.setAuthorizedCallers ctx us) ({ s with flags := flags }.setAuthorizedCallers ctx us) := by
    apply Abort.Agree.same_bind
    intro _
    apply Abort.Agree.guarded
    intro _
    exact .ok rfl
  simp only [step, dispatch]
  generalize s.setAuthorizedCallers ctx us = x at methods
  generalize { s with flags := flags }.setAuthorizedCallers ctx us = y at methods
  cases methods with
  | ok same =>
      subst same
      rfl
  | error panic => rfl

/-- The whitelist setter: when it goes through, whatever the duplicates; what it
leaves and reports; that the same list again changes nothing; that it does what
the strict loop does wherever that one runs; and that the flags play no part. -/
theorem setAuthorizedCallers_exact {s : MultiFeed Feeds Roles Callers AccountId}
    (h : Reachable s) (ctx : VMContext AccountId) (us : List (RoleUpdate AccountId)) :
    ((∃ value events, (s.step ⟨ctx, .setAuthorizedCallers us⟩).2 = .success value events) ↔
      ctx.deposit = 1 ∧
      (∃ caller, ctx.predecessor = some caller ∧ s.isProduct caller = true) ∧ us ≠ []) ∧
    (∀ value events, (s.step ⟨ctx, .setAuthorizedCallers us⟩).2 = .success value events →
      value = .unit ∧
      events = ((List.finRange us.length).filter fun i : Fin us.length =>
        membership s.isAuthorizedCaller (us.take i) (us.get i).account ≠ (us.get i).status).map
          (fun i => .authorizedCallerStatusChanged (us.get i).account (us.get i).status) ∧
      ∃ set, (s.step ⟨ctx, .setAuthorizedCallers us⟩).1 = { s with authorizedCallers := set } ∧
        LookupSet.contains set = membership s.isAuthorizedCaller us ∧
        (∀ ctx' : VMContext AccountId, ctx'.deposit = 1 →
          (∃ caller, ctx'.predecessor = some caller ∧ s.isProduct caller = true) →
          ∃ events' set', (s.step ⟨ctx, .setAuthorizedCallers us⟩).1.step
            ⟨ctx', .setAuthorizedCallers us⟩ =
              ({ s with authorizedCallers := set' }, .success .unit events') ∧
            LookupSet.contains set' = LookupSet.contains set) ∧
        (Alternating s.isAuthorizedCaller us →
          events = us.map (fun u => .authorizedCallerStatusChanged u.account u.status) ∧
          ∃ strict, updateRoleMembers .authorizedCallerStatusChanged s.authorizedCallers us =
              .ok (strict, events) ∧
            LookupSet.contains strict = LookupSet.contains set)) ∧
    (∀ flags, { s with flags := flags }.step ⟨ctx, .setAuthorizedCallers us⟩ =
      ({ (s.step ⟨ctx, .setAuthorizedCallers us⟩).1 with flags := flags },
        (s.step ⟨ctx, .setAuthorizedCallers us⟩).2)) := by
  refine ⟨?_, ?_, step_setAuthorizedCallers_flags s ctx us⟩
  · constructor
    · intro ran
      obtain ⟨value, events, accepted⟩ := ran
      obtain ⟨one, product, some_updates, -⟩ :=
        step_setAuthorizedCallers.mp (Prod.ext rfl accepted)
      exact ⟨one, product, some_updates⟩
    · intro guards
      obtain ⟨one, product, some_updates⟩ := guards
      have ran := step_setAuthorizedCallers.mpr ⟨one, product, some_updates, rfl, rfl, rfl⟩
      exact ⟨_, _, congrArg Prod.snd ran⟩
  · intro value events accepted
    obtain ⟨one, product, some_updates, next, unit, reported⟩ :=
      step_setAuthorizedCallers.mp (Prod.ext rfl accepted)
    have settled (set : Callers) : ({ s with authorizedCallers := set } :
        MultiFeed Feeds Roles Callers AccountId).persist = { s with authorizedCallers := set } := by
      simp only [persist, h.wellFormed.flushed]
    have reached : (s.step ⟨ctx, .setAuthorizedCallers us⟩).1 =
        { s with authorizedCallers := (updateAuthorizedCallers s.authorizedCallers us).1 } :=
      next.trans (settled _)
    have members := contains_updateAuthorizedCallers s.authorizedCallers us
    refine ⟨unit, ?_, _, reached, members, ?_, ?_⟩
    · rw [reported, updateAuthorizedCallers_log, KeyedLog.changes_eq_filter, List.map_map]
      rfl
    · intro ctx' one' product'
      let again := updateAuthorizedCallers (updateAuthorizedCallers s.authorizedCallers us).1 us
      refine ⟨again.2, again.1, ?_, ?_⟩
      · rw [reached]
        exact step_setAuthorizedCallers.mpr
          ⟨one', product', some_updates, (settled _).symm, rfl, rfl⟩
      · rw [contains_updateAuthorizedCallers, members]
        exact KeyedLog.current_current _ _ _ us
    · intro strict
      have all : events = us.map fun u => .authorizedCallerStatusChanged u.account u.status := by
        rw [reported, updateAuthorizedCallers_log]
        exact congrArg _ (KeyedLog.changes_of_chained _ _ strict)
      refine ⟨all, setMembers s.authorizedCallers us, ?_, ?_⟩
      · exact updateRoleMembers_eq_ok.mpr ⟨strict, rfl, all⟩
      · rw [contains_setMembers, members]

theorem setAuthorizedCallers_exact_sample :
    let us : List (RoleUpdate String) :=
      [⟨"reader.near", true⟩, ⟨"a", true⟩, ⟨"a", true⟩, ⟨"reader.near", false⟩]
    let ctx : VMContext String := ⟨some "product.near", 1, 0⟩
    (∃ value events, (sample.step ⟨ctx, .setAuthorizedCallers us⟩).2 = .success value events) ∧
    ∃ set, (sample.step ⟨ctx, .setAuthorizedCallers us⟩).1 =
        { sample with authorizedCallers := set } ∧
      LookupSet.contains set "a" = true ∧ LookupSet.contains set "reader.near" = false := by
  intro us ctx
  have reachable : Reachable sample := ⟨sample, sampleLog, [], sample_deployed, rfl⟩
  obtain ⟨exactly, effect, -⟩ := setAuthorizedCallers_exact reachable ctx us
  have ran := exactly.mpr ⟨rfl, ⟨"product.near", rfl, rfl⟩, List.cons_ne_nil _ _⟩
  obtain ⟨value, events, accepted⟩ := ran
  obtain ⟨-, -, set, reached, members, -⟩ := effect value events accepted
  refine ⟨⟨value, events, accepted⟩, set, reached, ?_, ?_⟩
  · rw [members]
    decide +kernel
  · rw [members]
    decide +kernel

end MultiFeed

end NearMultiFeed
