import NearMultiFeed.Deployment

/-!
# Replaying the event log

Every event sets a boolean register (a membership, a flag), hands over the
ownership, or reports feeds. What the log says last about a register is what the
state has, and no event sets a register to the value it already had.
-/
namespace NearMultiFeed

/-- The booleans the log keeps track of. -/
inductive Register (AccountId : Type) where
  | role (r : Role) (account : AccountId)
  | openRead
  | paused
  deriving DecidableEq

section Log
variable {AccountId : Type}

/-- The register an event sets, with the value. -/
def ContractEvent.status : ContractEvent AccountId → Option (Register AccountId × Bool)
  | .adminStatusChanged account status => some (.role .admin account, status)
  | .productStatusChanged account status => some (.role .product account, status)
  | .priceReporterStatusChanged account status => some (.role .priceReporter account, status)
  | .authorizedCallerStatusChanged account status => some (.role .authorizedCaller account, status)
  | .openReadStatusChanged status => some (.openRead, status)
  | .pausedStatusChanged status => some (.paused, status)
  | .ownershipTransferred _ _ | .f _ _ _ => none

/-- The old and the new owner of a transfer. -/
def ContractEvent.transfer : ContractEvent AccountId → Option (Option AccountId × AccountId)
  | .ownershipTransferred oldOwner newOwner => some (oldOwner, newOwner)
  | _ => none

def statuses (log : List (ContractEvent AccountId)) : List (Register AccountId × Bool) :=
  log.filterMap ContractEvent.status

def transfers (log : List (ContractEvent AccountId)) : List (Option AccountId × AccountId) :=
  log.filterMap ContractEvent.transfer

theorem statuses_append (l₁ l₂ : List (ContractEvent AccountId)) :
    statuses (l₁ ++ l₂) = statuses l₁ ++ statuses l₂ :=
  List.filterMap_append

theorem transfers_append (l₁ l₂ : List (ContractEvent AccountId)) :
    transfers (l₁ ++ l₂) = transfers l₁ ++ transfers l₂ :=
  List.filterMap_append

theorem statuses_roleLog (r : Role) (us : List (RoleUpdate AccountId)) :
    statuses (roleLog r us) = us.map fun u => (.role r u.account, u.status) := by
  rw [statuses, roleLog, List.filterMap_map]
  have each : ContractEvent.status ∘ (fun u : RoleUpdate AccountId => r.event u.account u.status) =
      fun u => some (.role r u.account, u.status) := by
    funext u
    cases r <;> rfl
  rw [each, List.filterMap_eq_map']

theorem transfers_roleLog (r : Role) (us : List (RoleUpdate AccountId)) :
    transfers (roleLog r us) = [] := by
  apply List.filterMap_eq_nil_iff.mpr
  intro e he
  obtain ⟨u, -, same⟩ := List.mem_map.mp he
  subst same
  cases r <;> rfl

variable [DecidableEq AccountId]

/-- What the log reports of one register, in order. -/
def statusesOf (k : Register AccountId) (log : List (ContractEvent AccountId)) : List Bool :=
  (KeyedLog.entriesOf Prod.fst k (statuses log)).map Prod.snd

/-- The log takes the registers from `base` to `next`, each event changing one. -/
abbrev Reports (base next : Register AccountId → Bool) (log : List (ContractEvent AccountId)) :
    Prop :=
  KeyedLog.Leads Prod.fst Prod.snd (· ≠ ·) base next (statuses log)

/-- The registers with one role's members replaced. -/
def withRole (base : Register AccountId → Bool) (r : Role) (members : AccountId → Bool) :
    Register AccountId → Bool
  | .role r' account => if r' = r then members account else base (.role r' account)
  | k => base k

theorem reports_append {base mid next : Register AccountId → Bool}
    {l₁ l₂ : List (ContractEvent AccountId)} (h₁ : Reports base mid l₁)
    (h₂ : Reports mid next l₂) : Reports base next (l₁ ++ l₂) := by
  unfold Reports
  rw [statuses_append]
  exact h₁.append h₂

theorem reports_roleLog {base : Register AccountId → Bool} {r : Role}
    {us : List (RoleUpdate AccountId)}
    (h : Alternating (fun account => base (.role r account)) us) :
    Reports base (withRole base r (membership (fun account => base (.role r account)) us))
      (roleLog r us) := by
  unfold Reports
  rw [statuses_roleLog]
  have inj : Function.Injective (Register.role r : AccountId → Register AccountId) := by
    intro a b same
    cases same
    rfl
  apply KeyedLog.Leads.embed inj
  · refine ⟨h, ?_⟩
    ext account
    simp only [withRole, if_true]
  · intro k other
    cases k with
    | role r' account =>
        have differ : r' ≠ r := by
          intro same
          subst same
          exact other account rfl
        simp only [withRole, differ, if_false]
    | openRead => rfl
    | paused => rfl

/-- One event that changes its register. -/
theorem reports_single {base : Register AccountId → Bool} {e : ContractEvent AccountId}
    {k : Register AccountId} {value : Bool} (sets : e.status = some (k, value))
    (changes : base k ≠ value) : Reports base (Function.update base k value) [e] := by
  have entry : statuses [e] = [(k, value)] := by
    simp only [statuses, List.filterMap_cons, sets, List.filterMap_nil]
  unfold Reports
  rw [entry]
  exact KeyedLog.Leads.singleton (R := (· ≠ ·)) (a := (k, value)) changes

end Log

namespace MultiFeed

variable {Feeds Roles Callers AccountId : Type} [DecidableEq AccountId]
  [LookupMap Feeds UInt32 StoredFeed] [LookupSet Roles AccountId]
  [IterableSet Callers AccountId]

/-- The registers as the state has them. -/
def register (s : MultiFeed Feeds Roles Callers AccountId) : Register AccountId → Bool
  | .role r account => s.hasRole r account
  | .openRead => s.isOpenRead
  | .paused => s.isPaused

omit [DecidableEq AccountId] [LookupMap Feeds UInt32 StoredFeed] in
/-- Two states with the same registers. -/
theorem register_eq {s t : MultiFeed Feeds Roles Callers AccountId}
    (roles : ∀ r, t.hasRole r = s.hasRole r) (openRead : t.isOpenRead = s.isOpenRead)
    (paused : t.isPaused = s.isPaused) : t.register = s.register := by
  ext k
  cases k with
  | role r account => exact congrFun (roles r) account
  | openRead => exact openRead
  | paused => exact paused

omit [DecidableEq AccountId] [LookupMap Feeds UInt32 StoredFeed] in
theorem withRole_eq {s t : MultiFeed Feeds Roles Callers AccountId} {r : Role}
    {members : AccountId → Bool}
    (roles : ∀ r' account, t.hasRole r' account =
      if r' = r then members account else s.hasRole r' account)
    (openRead : t.isOpenRead = s.isOpenRead) (paused : t.isPaused = s.isPaused) :
    withRole s.register r members = t.register := by
  ext k
  cases k with
  | role r' account => exact (roles r' account).symm
  | openRead => exact openRead.symm
  | paused => exact paused.symm

section Calls
variable {s next : MultiFeed Feeds Roles Callers AccountId} {ctx : VMContext AccountId}
  {call : Call AccountId} {log : List (ContractEvent AccountId)}

omit [LookupMap Feeds UInt32 StoredFeed] in
/-- A call that reports no status and changes no register. -/
theorem reports_silent (silent : statuses log = []) (roles : ∀ r, next.hasRole r = s.hasRole r)
    (openRead : next.isOpenRead = s.isOpenRead) (paused : next.isPaused = s.isPaused) :
    Reports s.register next.register log := by
  unfold Reports
  rw [silent, register_eq roles openRead paused]
  exact KeyedLog.Leads.nil

/-- Every call reports exactly the registers it changes. -/
theorem Effect.reports (effect : Effect s ctx call next log) (built : Flags.Built s.flags) :
    Reports s.register next.register log := by
  cases effect with
  | read => exact reports_silent rfl (fun _ => rfl) rfl rfl
  | f => exact reports_silent rfl (fun r => by cases r <;> rfl) rfl rfl
  | transferOwnership => exact reports_silent rfl (fun r => by cases r <;> rfl) rfl rfl
  | @setRole r us _ _ _ alternating =>
      have loop : Reports s.register
          (withRole s.register r.role (membership (s.hasRole r.role) us)) (roleLog r.role us) :=
        reports_roleLog alternating
      have reached : withRole s.register r.role (membership (s.hasRole r.role) us) =
          ({ s with feeds := LookupMap.flush s.feeds }.putRoleSet
            (setMembers (s.roleSet r) us) r).register := by
        apply withRole_eq
        · intro r' account
          rw [hasRole_putRoleSet, contains_setMembers, contains_roleSet]
          cases r' <;> rfl
        · cases r <;> rfl
        · cases r <;> rfl
      rw [reached] at loop
      exact loop
  | @setAuthorizedCallers _ us =>
      have alternating : Alternating (s.hasRole .authorizedCaller)
          (KeyedLog.changes RoleUpdate.account RoleUpdate.status
            (LookupSet.contains s.authorizedCallers) us) :=
        KeyedLog.chained_changes RoleUpdate.account RoleUpdate.status _ us
      have loop : Reports s.register
          (withRole s.register .authorizedCaller (membership (s.hasRole .authorizedCaller)
            (KeyedLog.changes RoleUpdate.account RoleUpdate.status
              (LookupSet.contains s.authorizedCallers) us)))
          (roleLog .authorizedCaller (KeyedLog.changes RoleUpdate.account RoleUpdate.status
            (LookupSet.contains s.authorizedCallers) us)) :=
        reports_roleLog alternating
      have members : membership (s.hasRole .authorizedCaller)
          (KeyedLog.changes RoleUpdate.account RoleUpdate.status
            (LookupSet.contains s.authorizedCallers) us) =
          LookupSet.contains (updateAuthorizedCallers s.authorizedCallers us).1 := by
        rw [contains_updateAuthorizedCallers]
        exact KeyedLog.current_changes RoleUpdate.account RoleUpdate.status _ us
      have reached : withRole s.register .authorizedCaller
          (LookupSet.contains (updateAuthorizedCallers s.authorizedCallers us).1) =
          ({ s with
            authorizedCallers := (updateAuthorizedCallers s.authorizedCallers us).1
            feeds := LookupMap.flush s.feeds } :
              MultiFeed Feeds Roles Callers AccountId).register := by
        apply withRole_eq
        · intro r account
          cases r <;> rfl
        · rfl
        · rfl
      rw [members, reached] at loop
      rw [updateAuthorizedCallers_log]
      exact loop
  | @setPaused _ paused _ _ _ other =>
      have single : Reports s.register (Function.update s.register .paused paused)
          [.pausedStatusChanged paused] := reports_single rfl other
      have reached : Function.update s.register .paused paused =
          ({ s with flags := s.flags.flipPaused, feeds := LookupMap.flush s.feeds } :
            MultiFeed Feeds Roles Callers AccountId).register := by
        ext k
        cases k with
        | role r account => cases r <;> rfl
        | openRead => exact built.isOpenRead_flipPaused.symm
        | paused => exact (built.isPaused_flipPaused.trans (Bool.not_eq.mpr other)).symm
      rw [reached] at single
      exact single
  | @setOpenReadStatus status _ _ other =>
      have single : Reports s.register (Function.update s.register .openRead status)
          [.openReadStatusChanged status] := reports_single rfl other
      have reached : Function.update s.register .openRead status =
          ({ s with flags := s.flags.flipOpenRead, feeds := LookupMap.flush s.feeds } :
            MultiFeed Feeds Roles Callers AccountId).register := by
        ext k
        cases k with
        | role r account => cases r <;> rfl
        | openRead => exact (built.isOpenRead_flipOpenRead.trans (Bool.not_eq.mpr other)).symm
        | paused => exact built.isPaused_flipOpenRead.symm
      rw [reached] at single
      exact single

end Calls

/-! ## Ownership -/

/-- The transfers of the log form one line that ends at the owner. -/
structure Handovers (owner : AccountId) (log : List (ContractEvent AccountId)) : Prop where
  first : (transfers log).head?.map Prod.fst = some none
  linked : (transfers log).IsChain fun a b => b.1 = some a.2 ∧ b.1 ≠ some b.2
  last : (transfers log).getLast?.map Prod.snd = some owner

section Ownership
variable {owner newOwner : AccountId} {log l : List (ContractEvent AccountId)}

omit [DecidableEq AccountId] in
theorem Handovers.silent (h : Handovers owner log) (none : transfers l = []) :
    Handovers owner (log ++ l) := by
  have same : transfers (log ++ l) = transfers log := by
    rw [transfers_append, none, List.append_nil]
  constructor
  · rw [same]
    exact h.first
  · rw [same]
    exact h.linked
  · rw [same]
    exact h.last

omit [DecidableEq AccountId] in
theorem Handovers.transfer (h : Handovers owner log) (other : newOwner ≠ owner) :
    Handovers newOwner (log ++ [.ownershipTransferred (some owner) newOwner]) := by
  have more : transfers (log ++ [.ownershipTransferred (some owner) newOwner]) =
      transfers log ++ [(some owner, newOwner)] := by
    rw [transfers_append]
    rfl
  constructor
  · rw [more, List.head?_append]
    cases start : (transfers log).head? with
    | none =>
        have first := h.first
        rw [start] at first
        cases first
    | some a =>
        have first := h.first
        rw [start] at first
        exact first
  · rw [more, List.isChain_append]
    refine ⟨h.linked, List.IsChain.singleton _, ?_⟩
    intro a ha b hb
    have last := h.last
    rw [Option.mem_def.mp ha, Option.map_some] at last
    cases last
    cases hb
    refine ⟨rfl, ?_⟩
    intro same
    exact other (Option.some.inj same).symm
  · rw [more, List.getLast?_append]
    rfl

end Ownership

theorem Effect.handovers {s next : MultiFeed Feeds Roles Callers AccountId}
    {ctx : VMContext AccountId} {call : Call AccountId} {past log : List (ContractEvent AccountId)}
    (effect : Effect s ctx call next log) (h : Handovers s.owner past) :
    Handovers next.owner (past ++ log) := by
  cases effect with
  | transferOwnership _ _ other => exact h.transfer other
  | read | f | setPaused | setOpenReadStatus => exact h.silent rfl
  | @setRole r us =>
      rw [owner_putRoleSet]
      exact h.silent (transfers_roleLog r.role us)
  | setAuthorizedCallers =>
      rw [updateAuthorizedCallers_log]
      exact h.silent (transfers_roleLog .authorizedCaller _)

/-! ## Whole runs -/

/-- The registers before `new`; the flag `new` sets counts as changed. -/
def blank (openRead : Bool) : Register AccountId → Bool
  | .openRead => openRead
  | _ => false

/-- The log accounts for the owner and for every register. -/
structure Replays (openRead : Bool) (s : MultiFeed Feeds Roles Callers AccountId)
    (log : List (ContractEvent AccountId)) : Prop where
  registers : Reports (blank !openRead) s.register log
  handovers : Handovers s.owner log

theorem Deployed.replays {s : MultiFeed Feeds Roles Callers AccountId}
    {log : List (ContractEvent AccountId)} (h : Deployed s log) :
    ∃ openRead rest, Replays openRead s log ∧ statusesOf .openRead log = openRead :: rest := by
  obtain ⟨openRead, granted, initial⟩ := h.initialised
  have start : Reports (blank !openRead) (blank openRead)
      [.ownershipTransferred none s.owner, .openReadStatusChanged openRead] := by
    have changes : blank (!openRead) (.openRead : Register AccountId) ≠ openRead :=
      Bool.not_ne_self openRead
    have set : Function.update (blank !openRead) .openRead openRead =
        (blank openRead : Register AccountId → Bool) := by
      ext k
      cases k <;> rfl
    have transfer : Reports (blank !openRead) (blank !openRead)
        [.ownershipTransferred none s.owner] := KeyedLog.Leads.nil
    have flag : Reports (blank !openRead) (Function.update (blank !openRead) .openRead openRead)
        [(.openReadStatusChanged openRead : ContractEvent AccountId)] :=
      reports_single rfl changes
    rw [set] at flag
    exact reports_append transfer flag
  have role (r : Role) {base : Register AccountId → Bool}
      (untouched : ∀ account, base (.role r account) = false) :
      Reports base (withRole base r (s.hasRole r)) (roleLog r (granted r)) := by
    have none_yet : (fun account => base (.role r account)) = fun _ => false := by
      ext account
      exact untouched account
    have alternating : Alternating (fun account => base (.role r account)) (granted r) := by
      rw [none_yet]
      exact initial.alternating r
    have loop := reports_roleLog alternating
    rw [none_yet, ← initial.roles r] at loop
    exact loop
  have admins := reports_append start (role .admin fun _ => rfl)
  have products := reports_append admins (role .product fun _ => rfl)
  have reporters := reports_append products (role .priceReporter fun _ => rfl)
  have callers := reports_append reporters (role .authorizedCaller fun _ => rfl)
  rw [← initial.events] at callers
  have first : ∃ rest, statusesOf .openRead log = openRead :: rest := by
    rw [initial.events, List.append_assoc, List.append_assoc, List.append_assoc, statusesOf,
      statuses_append, KeyedLog.entriesOf_append, List.map_append]
    exact ⟨_, rfl⟩
  obtain ⟨rest, first⟩ := first
  refine ⟨openRead, rest, ⟨?_, ?_⟩, first⟩
  · have reached : withRole (withRole (withRole (withRole (blank openRead) .admin (s.hasRole .admin))
        .product (s.hasRole .product)) .priceReporter (s.hasRole .priceReporter))
        .authorizedCaller (s.hasRole .authorizedCaller) = s.register := by
      ext k
      cases k with
      | role r account => cases r <;> rfl
      | openRead =>
          change openRead = s.flags.isOpenRead
          rw [initial.flags, Flags.isOpenRead_new]
      | paused =>
          change false = s.flags.isPaused
          rw [initial.flags, Flags.isPaused_new]
    rw [reached] at callers
    exact callers
  · have handed : transfers log = [(none, s.owner)] := by
      rw [initial.events]
      simp only [transfers_append, transfers_roleLog, List.append_nil]
      rfl
    constructor
    · rw [handed]
      rfl
    · rw [handed]
      exact List.IsChain.singleton _
    · rw [handed]
      rfl

theorem Replays.step {openRead : Bool} {s : MultiFeed Feeds Roles Callers AccountId}
    {log : List (ContractEvent AccountId)} (h : Replays openRead s log) (wf : WellFormed s)
    (tx : Transaction AccountId) :
    Replays openRead (s.step tx).1 (log ++ (s.step tx).2.events) := by
  rcases s.step_cases tx with ⟨next, value, l, same, effect⟩ | ⟨panic, -, same⟩
  · rw [same]
    exact ⟨reports_append h.registers (effect.reports wf.built), effect.handovers h.handovers⟩
  · rw [same]
    have nothing : log ++ (Outcome.failure panic.message : Outcome AccountId).events = log :=
      List.append_nil log
    rw [nothing]
    exact h

theorem Replays.run {openRead : Bool} {s : MultiFeed Feeds Roles Callers AccountId}
    {log : List (ContractEvent AccountId)} (h : Replays openRead s log) (wf : WellFormed s)
    (txs : List (Transaction AccountId)) :
    Replays openRead (s.run txs) (log ++ eventsOf (s.receipts txs)) := by
  have keeps (t : MultiFeed Feeds Roles Callers AccountId) (past : List (Receipt AccountId))
      (tx : Transaction AccountId)
      (known : WellFormed t ∧ Replays openRead t (log ++ eventsOf past)) :
      WellFormed (t.step tx).1 ∧
        Replays openRead (t.step tx).1 (log ++ eventsOf (past ++ [(tx, (t.step tx).2)])) := by
    refine ⟨known.1.step tx, ?_⟩
    rw [eventsOf_append, eventsOf_singleton, ← List.append_assoc]
    exact known.2.step known.1 tx
  have start : WellFormed s ∧ Replays openRead s (log ++ eventsOf []) := by
    refine ⟨wf, ?_⟩
    rw [eventsOf, List.flatMap_nil, List.append_nil]
    exact h
  exact (Machine.history_invariant MultiFeed.step keeps start txs).2

omit [LookupMap Feeds UInt32 StoredFeed] in
/-- What a register is, and how it was reported. -/
theorem Replays.register {openRead : Bool} {s : MultiFeed Feeds Roles Callers AccountId}
    {log : List (ContractEvent AccountId)} (h : Replays openRead s log) (k : Register AccountId) :
    s.register k = (statusesOf k log).getLastD (blank (!openRead) k) ∧
      (blank (!openRead) k :: statusesOf k log).IsChain (· ≠ ·) := by
  refine ⟨?_, h.registers.chained k⟩
  have last := h.registers.getLast? k
  rw [List.getLast?_cons] at last
  rw [List.getLastD_eq_getLast?]
  exact (Option.some.inj last).symm

/-- The log of a run reconstructs the owner, the roles and the flags, and each of
its events made a change: transfers form one line from the deployment on, and the
statuses of every account in every role and of both flags alternate. -/
theorem log_reconstructs {s : MultiFeed Feeds Roles Callers AccountId}
    {log : List (ContractEvent AccountId)} (deployed : Deployed s log)
    (txs : List (Transaction AccountId)) :
    let final := s.run txs
    let events := log ++ eventsOf (s.receipts txs)
    ((transfers events).head?.map Prod.fst = some none ∧
      (transfers events).IsChain (fun a b => b.1 = some a.2 ∧ b.1 ≠ some b.2) ∧
      (transfers events).getLast?.map Prod.snd = some final.getOwner) ∧
    (∀ r account,
      final.hasRole r account = (statusesOf (.role r account) events).getLastD false ∧
      (false :: statusesOf (.role r account) events).IsChain (· ≠ ·)) ∧
    ((statusesOf .openRead events).getLast? = some final.isOpenRead ∧
      (statusesOf .openRead events).IsChain (· ≠ ·)) ∧
    (final.isPaused = (statusesOf .paused events).getLastD false ∧
      (false :: statusesOf .paused events).IsChain (· ≠ ·)) ∧
    (∀ account, account ∈ final.getAuthorizedCallers ↔
      (statusesOf (.role .authorizedCaller account) events).getLast? = some true) ∧
    final.getAuthorizedCallers.Nodup := by
  intro final events
  obtain ⟨openRead, rest, initial, first⟩ := deployed.replays
  have replayed := initial.run deployed.wellFormed txs
  refine ⟨?_, ?_, ?_, ?_, ?_, ?_⟩
  · exact ⟨replayed.handovers.first, replayed.handovers.linked, replayed.handovers.last⟩
  · intro r account
    exact replayed.register (.role r account)
  · obtain ⟨value, chain⟩ := replayed.register .openRead
    have nonempty : statusesOf .openRead events =
        openRead :: (rest ++ statusesOf .openRead (eventsOf (s.receipts txs))) := by
      change statusesOf .openRead (log ++ eventsOf (s.receipts txs)) = _
      rw [statusesOf, statuses_append, KeyedLog.entriesOf_append, List.map_append]
      change statusesOf .openRead log ++ _ = _
      rw [first]
      rfl
    refine ⟨?_, chain.tail⟩
    rw [List.getLastD_eq_getLast?, nonempty, List.getLast?_cons, Option.getD_some] at value
    rw [nonempty, List.getLast?_cons, ← value]
    rfl
  · exact replayed.register .paused
  · intro account
    have value := (replayed.register (.role .authorizedCaller account)).1
    have listed : account ∈ final.getAuthorizedCallers ↔
        final.register (.role .authorizedCaller account) = true :=
      IterableSet.mem_iter _ _
    rw [listed, value, List.getLastD_eq_getLast?]
    cases (statusesOf (.role .authorizedCaller account) events).getLast? with
    | none =>
        constructor
        · intro impossible
          cases impossible
        · intro impossible
          cases impossible
    | some status =>
        rw [Option.getD_some, Option.some.injEq]
  · exact IterableSet.nodup_iter _

theorem log_reconstructs_sample :
    let txs : List (Transaction String) :=
      [⟨⟨some "owner.near", 1, 0⟩, .transferOwnership "next.near"⟩,
        ⟨⟨some "product.near", 1, 0⟩, .setAuthorizedCallers [⟨"reader.near", false⟩]⟩]
    let events := sampleLog ++ eventsOf (sample.receipts txs)
    (transfers events).getLast?.map Prod.snd = some (sample.run txs).getOwner ∧
      (false :: statusesOf (.role .authorizedCaller "reader.near") events).IsChain (· ≠ ·) ∧
      ∀ account, account ∈ (sample.run txs).getAuthorizedCallers ↔
        (statusesOf (.role .authorizedCaller account) events).getLast? = some true := by
  intro txs events
  obtain ⟨⟨-, -, owner⟩, roles, -, -, listed, -⟩ := log_reconstructs sample_deployed txs
  exact ⟨owner, (roles .authorizedCaller "reader.near").2, listed⟩

end MultiFeed

end NearMultiFeed
