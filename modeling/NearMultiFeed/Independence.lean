import NearMultiFeed.EventReplay
import NearMultiFeed.FeedHistory
import NearMultiFeed.Footprints

/-!
# What does not matter

The order of calls that keep out of each other's way, the calls about other
feeds, the collections the SDK stores a contract in, and everything about a run
that its log does not show.
-/
namespace NearMultiFeed

section Parties
variable {AccountId : Type}

/-- Neither call writes what the other reads. -/
def Transaction.Apart (tx tx' : Transaction AccountId) : Prop :=
  Disjoint tx.call.writes tx'.reads ∧ Disjoint tx'.call.writes tx.reads

/-- One call, answered alike. -/
def SameReceipt (r r' : Receipt AccountId) : Prop :=
  r.1 = r'.1 ∧ r.2.Alike r'.2

/-- A feed id in text form is one of `mine`, or none at all. -/
def concerns (mine : UInt32 → Bool) (feedId : String) : Bool :=
  match parseFeedId feedId with
  | .ok id => mine id
  | .error _ => true

/-- The call reports and reads no feed but `mine`. -/
def Call.within (mine : UInt32 → Bool) : Call AccountId → Bool
  | .f us => us.all fun u => mine u.feedId
  | .fetch feedId => concerns mine feedId
  | .fetchBatch feedIds => feedIds.all (concerns mine)
  | _ => true

/-- Everything but the feeds that are not `mine`. -/
def ownFields (mine : UInt32 → Bool) : Set (Field AccountId) :=
  {k | ∀ id, k = .feed id → mine id = true}

theorem mine_of_named {mine : UInt32 → Bool} {feedIds : List String} {id : UInt32}
    (all : feedIds.all (concerns mine) = true)
    (named : (.feed id : Field AccountId) ∈ namedFields feedIds) : mine id = true := by
  obtain ⟨feedId, asked, id', parsed, same⟩ := named
  cases same
  have here := List.all_eq_true.mp all feedId asked
  rw [concerns, parsed] at here
  exact here

/-- A call within `mine` depends on no other feed. -/
theorem Transaction.reads_subset {mine : UInt32 → Bool} {tx : Transaction AccountId}
    (within : tx.call.within mine = true) : tx.reads ⊆ ownFields mine := by
  obtain ⟨ctx, call⟩ := tx
  intro k read id same
  subst same
  have not_own {r : Role} : (.feed id : Field AccountId) ∉ ctx.ownField r := by
    intro wrong
    obtain ⟨caller, -, same⟩ := wrong
    cases same
  have not_gate : (.feed id : Field AccountId) ∉ ctx.gateFields := by
    intro wrong
    rcases wrong with (flag | flag) | member
    · cases flag
    · cases flag
    · exact not_own member
  have not_member {r : Role} {us : List (RoleUpdate AccountId)} :
      (.feed id : Field AccountId) ∉ memberFields r us := by
    intro wrong
    obtain ⟨u, -, same⟩ := wrong
    cases same
  cases call with
  | f us =>
      rcases read with consulted | written
      · exact absurd consulted not_own
      · obtain ⟨u, hu, same⟩ := written
        cases same
        exact List.all_eq_true.mp within u hu
  | fetch feedId =>
      have all : [feedId].all (concerns mine) = true := by
        rw [List.all_cons, List.all_nil, Bool.and_true]
        exact within
      rcases read with (gate | named) | written
      · exact absurd gate not_gate
      · exact mine_of_named all named
      · exact absurd written (Set.notMem_empty _)
  | fetchBatch feedIds =>
      rcases read with (gate | named) | written
      · exact absurd gate not_gate
      · exact mine_of_named within named
      · exact absurd written (Set.notMem_empty _)
  | setAdmins | setProducts | setPriceReporters =>
      rcases read with consulted | written
      · cases consulted
      · exact absurd written not_member
  | setAuthorizedCallers =>
      rcases read with consulted | written
      · exact absurd consulted not_own
      · exact absurd written not_member
  | setPaused =>
      rcases read with consulted | written
      · exact absurd consulted not_own
      · cases written
  | getAuthorizedCallers =>
      rcases read with listed | written
      · obtain ⟨account, same⟩ := listed
        cases same
      · exact absurd written (Set.notMem_empty _)
  | _ => rcases read with consulted | written <;> contradiction

/-- What a call writes that is not within `mine`, if its batch does not mix feeds. -/
theorem Call.writes_disjoint {mine : UInt32 → Bool} {call : Call AccountId}
    (sorted : ∀ us, call = .f us →
      (∀ u ∈ us, mine u.feedId = true) ∨ ∀ u ∈ us, mine u.feedId = false)
    (outside : call.within mine = false) : Disjoint call.writes (ownFields mine) := by
  apply Set.disjoint_left.mpr
  intro k written own
  cases call with
  | f us =>
      obtain ⟨u, hu, same⟩ := written
      rcases sorted us rfl with all_mine | none_mine
      · have within : us.all (fun u => mine u.feedId) = true := List.all_eq_true.mpr all_mine
        rw [Call.within, within] at outside
        cases outside
      · have mine_here := own u.feedId same
        rw [none_mine u hu] at mine_here
        cases mine_here
  | fetch | fetchBatch => exact absurd written (Set.notMem_empty _)
  | _ => cases outside

end Parties

section Log
variable {AccountId : Type}

/-- The log with the second of the block each event is in. -/
def timedLog (past : List (Receipt AccountId)) : List (UInt64 × ContractEvent AccountId) :=
  past.flatMap fun r => r.2.events.map fun e => (MultiFeed.blockSecond r.1.ctx, e)

theorem map_snd_timedLog (past : List (Receipt AccountId)) :
    (timedLog past).map Prod.snd = eventsOf past := by
  rw [timedLog, eventsOf, List.map_flatMap]
  congr 1
  funext r
  rw [List.map_map]
  exact List.map_id _

theorem writesOf_timedLog (past : List (Receipt AccountId)) :
    writesOf past = (timedLog past).flatMap fun e => e.2.entries.map (FeedUpdate.write e.1) := by
  rw [timedLog, writesOf, List.flatMap_assoc]
  congr 1
  funext r
  rw [feedEntries, List.map_flatMap, List.flatMap_map]

end Log

namespace MultiFeed

variable {Feeds Roles Callers Feeds' Roles' Callers' AccountId : Type} [DecidableEq AccountId]
  [LookupMap Feeds UInt32 StoredFeed] [LookupMap Feeds' UInt32 StoredFeed]
  [LookupSet Roles AccountId] [LookupSet Roles' AccountId]
  [IterableSet Callers AccountId] [IterableSet Callers' AccountId]

/-! ## Order -/

section Order
variable {s : MultiFeed Feeds Roles Callers AccountId} {txs txs' : List (Transaction AccountId)}

/-- Between parties whose calls keep out of each other's way order does not matter:
whatever the interleaving, each party is answered the same, and all ends the same. -/
theorem interleavings_agree {κ : Type} [DecidableEq κ] (reachable : Reachable s)
    (party : Transaction AccountId → κ)
    (apart : ∀ tx ∈ txs, ∀ tx' ∈ txs, party tx ≠ party tx' → tx.Apart tx')
    (sides : ∀ c, txs'.filter (fun tx => party tx = c) = txs.filter fun tx => party tx = c) :
    (∀ k, (s.run txs').observe k = (s.run txs).observe k) ∧
      ∀ c, List.Forall₂ SameReceipt ((s.receipts txs').filter fun r => party r.1 = c)
        ((s.receipts txs).filter fun r => party r.1 = c) :=
  Machine.Footprint.interleaving (P := footprint) reachable.wellFormed apart sides

theorem interleavings_agree_sample :
    let report := reportAt 100 [⟨42, 7, 100⟩]
    let pause : Transaction String := ⟨⟨some "admin.near", 1, 0⟩, .setPaused true⟩
    ∀ k, (sample.run [pause, report]).observe k = (sample.run [report, pause]).observe k := by
  intro report pause
  have apart : report.Apart pause := by
    constructor
    · apply Set.disjoint_left.mpr
      intro k written read
      obtain ⟨u, -, same⟩ := written
      subst same
      rcases read with ⟨_, -, same⟩ | same <;> cases same
    · apply Set.disjoint_left.mpr
      intro k written read
      cases written
      rcases read with ⟨_, -, same⟩ | ⟨_, -, same⟩ <;> cases same
  refine (interleavings_agree sample_reachable (fun tx => tx.call.privileged) ?_ ?_).1
  · intro tx htx tx' htx' differ
    simp only [List.mem_cons, List.not_mem_nil, or_false] at htx htx'
    rcases htx with rfl | rfl <;> rcases htx' with rfl | rfl
    · exact absurd rfl differ
    · exact apart
    · exact ⟨apart.2, apart.1⟩
    · exact absurd rfl differ
  · intro c
    cases c <;> rfl

/-- The calls about other feeds can be left out of a run, as long as no batch mixes
feeds: the other calls are answered the same, up to the order in which the whitelist is
listed, and all else ends the same. -/
theorem other_feeds_can_be_left_out (reachable : Reachable s) (mine : UInt32 → Bool)
    (sorted : ∀ ctx us, ⟨ctx, .f us⟩ ∈ txs →
      (∀ u ∈ us, mine u.feedId = true) ∨ ∀ u ∈ us, mine u.feedId = false) :
    let kept := txs.filter fun tx => tx.call.within mine
    SameOn (ownFields mine) (s.run txs) (s.run kept) ∧
      List.Forall₂ SameReceipt ((s.receipts txs).filter fun r => r.1.call.within mine)
        (s.receipts kept) := by
  have wf := reachable.wellFormed
  apply Machine.Footprint.purge (P := footprint) wf wf (fun _ _ => rfl)
  · intro tx _ within
    exact Transaction.reads_subset within
  · intro tx htx outside
    apply Call.writes_disjoint _ outside
    intro us reported
    obtain ⟨ctx, call⟩ := tx
    cases reported
    exact sorted ctx us htx

theorem other_feeds_can_be_left_out_sample :
    (sample.run [reportAt 100 [⟨42, 7, 100⟩], reportAt 110 [⟨43, 9, 105⟩]]).observe (.feed 42) =
      (sample.run [reportAt 100 [⟨42, 7, 100⟩]]).observe (.feed 42) := by
  refine (other_feeds_can_be_left_out sample_reachable (fun id => id == 42) ?_).1 (.feed 42) ?_
  · intro ctx us reported
    simp only [reportAt, List.mem_cons, Transaction.mk.injEq, Call.f.injEq, List.not_mem_nil,
      or_false] at reported
    rcases reported with ⟨-, rfl⟩ | ⟨-, rfl⟩
    · exact .inl (by decide)
    · exact .inr (by decide)
  · intro id same
    cases same
    rfl

end Order

/-! ## Collections -/

section Collections

/-- Contracts that look the same answer every run alike, and look the same after it. -/
theorem run_alike {s : MultiFeed Feeds Roles Callers AccountId}
    {t : MultiFeed Feeds' Roles' Callers' AccountId} (wf : WellFormed s) (wf' : WellFormed t)
    (same : SameOn Set.univ s t) (txs : List (Transaction AccountId)) :
    SameOn Set.univ (s.run txs) (t.run txs) ∧
      List.Forall₂ Outcome.Alike (Machine.outputs step s txs) (Machine.outputs step t txs) := by
  have both : (WellFormed (s.run txs) ∧ WellFormed (t.run txs) ∧
        SameOn Set.univ (s.run txs) (t.run txs)) ∧
      List.Forall₂ Outcome.Alike (Machine.outputs step s txs) (Machine.outputs step t txs) := by
    apply Machine.lockstep (R := fun (s : MultiFeed Feeds Roles Callers AccountId)
      (t : MultiFeed Feeds' Roles' Callers' AccountId) =>
        WellFormed s ∧ WellFormed t ∧ SameOn Set.univ s t) _ ⟨wf, wf', same⟩
    intro s t tx h
    obtain ⟨wf, wf', same⟩ := h
    obtain ⟨answer, written⟩ := step_determined wf wf' tx fun k _ => same k trivial
    refine ⟨⟨wf.step tx, wf'.step tx, ?_⟩, answer⟩
    intro k _
    by_cases writes : k ∈ tx.call.writes
    · exact written k writes
    · rw [step_frame wf tx k writes, step_frame wf' tx k writes]
      exact same k trivial
  exact ⟨both.1.2.2, both.2⟩

theorem initLookupSetRole_alike (eventFn : AccountId → Bool → ContractEvent AccountId)
    (addrs : List AccountId) :
    Abort.Agree (fun (a : Roles × _) (b : Roles' × _) =>
        LookupSet.contains a.1 = LookupSet.contains b.1 ∧ a.2 = b.2)
      (initLookupSetRole addrs eventFn) (initLookupSetRole addrs eventFn) := by
  have empty : SameMembers Set.univ (LookupSet.new : Roles) (LookupSet.new : Roles') := by
    intro a _
    rw [LookupSet.contains_new, LookupSet.contains_new]
  apply (updateRoleMembers_agrees (fun _ _ => Set.mem_univ _) empty).mono
  intro a b step
  refine ⟨?_, step.2⟩
  funext account
  exact step.1 account trivial

theorem initAuthorizedCallers_alike {addrs : List AccountId} {set : Callers} {set' : Callers'}
    (h : LookupSet.contains set = LookupSet.contains set') :
    Abort.Agree (fun a b => LookupSet.contains a.1 = LookupSet.contains b.1 ∧ a.2 = b.2)
      (initAuthorizedCallers set addrs) (initAuthorizedCallers set' addrs) := by
  induction addrs generalizing set set' with
  | nil => exact .ok ⟨h, rfl⟩
  | cons addr addrs ih =>
      rw [initAuthorizedCallers, initAuthorizedCallers, LookupSet.insert_changed,
        LookupSet.insert_changed, h]
      apply Abort.Agree.same_bind
      intro _
      have next : LookupSet.contains (LookupSet.insert set addr).2 =
          LookupSet.contains (LookupSet.insert set' addr).2 := by
        rw [LookupSet.contains_insert, LookupSet.contains_insert, h]
      apply Abort.Agree.bind (ih next)
      intro a b step
      refine .ok ⟨step.1, ?_⟩
      rw [step.2]

/-- What the SDK keeps a contract in does not show: `new` succeeds, fails and logs
alike on any collections, and so does every run after it. -/
theorem collections_do_not_matter (owner : AccountId) (openReadEnabled : Bool)
    (description : String) (admins products priceReporters authorizedCallers : List AccountId)
    (txs : List (Transaction AccountId)) :
    Abort.Agree
      (fun (a : MultiFeed Feeds Roles Callers AccountId × List (ContractEvent AccountId))
        (b : MultiFeed Feeds' Roles' Callers' AccountId × List (ContractEvent AccountId)) =>
        a.2 = b.2 ∧ SameOn Set.univ (a.1.persist.run txs) (b.1.persist.run txs) ∧
          List.Forall₂ Outcome.Alike (Machine.outputs step a.1.persist txs)
            (Machine.outputs step b.1.persist txs))
      (MultiFeed.new owner openReadEnabled description admins products priceReporters
        authorizedCallers)
      (MultiFeed.new owner openReadEnabled description admins products priceReporters
        authorizedCallers) := by
  have created : Abort.Agree
      (fun (a : MultiFeed Feeds Roles Callers AccountId × List (ContractEvent AccountId))
        (b : MultiFeed Feeds' Roles' Callers' AccountId × List (ContractEvent AccountId)) =>
        a.2 = b.2 ∧ SameOn Set.univ a.1.persist b.1.persist)
      (MultiFeed.new owner openReadEnabled description admins products priceReporters
        authorizedCallers)
      (MultiFeed.new owner openReadEnabled description admins products priceReporters
        authorizedCallers) := by
    apply Abort.Agree.same_bind
    intro _
    apply Abort.Agree.bind (initLookupSetRole_alike .adminStatusChanged admins)
    intro admin admin' sameAdmin
    apply Abort.Agree.bind (initLookupSetRole_alike .productStatusChanged products)
    intro product product' sameProduct
    apply Abort.Agree.bind (initLookupSetRole_alike .priceReporterStatusChanged priceReporters)
    intro reporter reporter' sameReporter
    have empty : LookupSet.contains (LookupSet.new : Callers) =
        LookupSet.contains (LookupSet.new : Callers') := by
      rw [contains_new_eq, contains_new_eq]
    apply Abort.Agree.bind (initAuthorizedCallers_alike empty)
    intro callers callers' sameCallers
    refine .ok ⟨?_, ?_⟩
    · rw [sameAdmin.2, sameProduct.2, sameReporter.2, sameCallers.2]
    · intro k _
      cases k with
      | owner | description | paused | openRead => rfl
      | member r account =>
          cases r with
          | admin => exact congrFun sameAdmin.1 account
          | product => exact congrFun sameProduct.1 account
          | priceReporter => exact congrFun sameReporter.1 account
          | authorizedCaller => exact congrFun sameCallers.1 account
      | feed id =>
          change LookupMap.get (LookupMap.flush LookupMap.new) id =
            LookupMap.get (LookupMap.flush LookupMap.new) id
          rw [LookupMap.flush_new, LookupMap.flush_new, LookupMap.get_new, LookupMap.get_new]
  apply created.attach.mono
  intro a b h
  obtain ⟨⟨log, same⟩, left, right⟩ := h
  exact ⟨log, run_alike (Deployed.new left).wellFormed (Deployed.new right).wellFormed same txs⟩

end Collections

/-! ## The log -/

section Checkpoint

theorem run_description {s : MultiFeed Feeds Roles Callers AccountId} (wf : WellFormed s)
    (txs : List (Transaction AccountId)) : (s.run txs).description = s.description := by
  have aside : ∀ tx ∈ txs, Disjoint tx.call.writes {.description} := by
    intro tx _
    apply Set.disjoint_singleton_right.mpr
    intro written
    obtain ⟨ctx, call⟩ := tx
    cases call with
    | f | setAdmins | setProducts | setPriceReporters | setAuthorizedCallers =>
        obtain ⟨_, -, same⟩ := written
        cases same
    | transferOwnership | setPaused | setOpenReadStatus => cases written
    | _ => exact Set.notMem_empty _ written
  exact Machine.Footprint.run_aside (P := footprint) wf aside .description rfl

/-- The log of a run, with the block seconds, and the description are all there is
to know: contracts deployed and run with the same log look the same, and answer
whatever comes after alike, however else their runs differ. -/
theorem log_is_a_checkpoint {s : MultiFeed Feeds Roles Callers AccountId}
    {t : MultiFeed Feeds' Roles' Callers' AccountId} {log : List (ContractEvent AccountId)}
    (deployed : Deployed s log) (deployed' : Deployed t log)
    (described : s.description = t.description) {txs txs' : List (Transaction AccountId)}
    (logged : timedLog (s.receipts txs) = timedLog (t.receipts txs'))
    (more : List (Transaction AccountId)) :
    SameOn Set.univ ((s.run txs).run more) ((t.run txs').run more) ∧
      List.Forall₂ Outcome.Alike (Machine.outputs step (s.run txs) more)
        (Machine.outputs step (t.run txs') more) := by
  apply run_alike (deployed.wellFormed.run txs) (deployed'.wellFormed.run txs')
  obtain ⟨openRead, rest, initial, first⟩ := deployed.replays
  obtain ⟨openRead', rest', initial', first'⟩ := deployed'.replays
  rw [first] at first'
  obtain ⟨mode, -⟩ := List.cons.inj first'
  subst mode
  have events : eventsOf (s.receipts txs) = eventsOf (t.receipts txs') := by
    rw [← map_snd_timedLog, logged, map_snd_timedLog]
  have replayed := initial.run deployed.wellFormed txs
  have replayed' := initial'.run deployed'.wellFormed txs'
  rw [← events] at replayed'
  have registers (k : Register AccountId) : (s.run txs).register k = (t.run txs').register k := by
    rw [(replayed.register k).1, (replayed'.register k).1]
  intro k _
  cases k with
  | owner =>
      have last := replayed.handovers.last
      rw [replayed'.handovers.last] at last
      exact (Option.some.inj last).symm
  | description =>
      change (s.run txs).description = (t.run txs').description
      rw [run_description deployed.wellFormed, run_description deployed'.wellFormed, described]
  | paused => exact registers .paused
  | openRead => exact registers .openRead
  | member r account => exact registers (.role r account)
  | feed id =>
      change LookupMap.get (s.run txs).feeds id = LookupMap.get (t.run txs').feeds id
      rw [(FeedHistory.of_run deployed txs).stored, (FeedHistory.of_run deployed' txs').stored,
        writesOf_timedLog, writesOf_timedLog, logged]

theorem log_is_a_checkpoint_sample :
    let report := reportAt 100 [⟨42, 7, 100⟩]
    let refused : Transaction String := ⟨⟨some "reader.near", 0, 0⟩, .f [⟨42, 7, 100⟩]⟩
    let later : Transaction String :=
      ⟨⟨some "reporter.near", 0, 100000000009⟩, .f [⟨42, 7, 100⟩]⟩
    SameOn Set.univ (sample.run [report]) (sample.run [refused, later]) := by
  intro report refused later
  have logged : timedLog (sample.receipts [report]) =
      timedLog (sample.receipts [refused, later]) := by decide +kernel
  exact (log_is_a_checkpoint sample_deployed sample_deployed rfl logged []).1

end Checkpoint

end MultiFeed

end NearMultiFeed
