import NearMultiFeed.Lib.Abort
import NearMultiFeed.Lib.KeyedLog
import NearMultiFeed.Runtime

/-!
# Role sets and their update loops

The strict loop succeeds exactly when every account's statuses alternate,
starting with the negation of its membership; the lenient loop always succeeds
and reports the updates that change something. Either way the membership after
the loop is the status of the account's last update.
-/
namespace NearMultiFeed

/-- The four roles whose members are logged. -/
inductive Role where
  | admin
  | product
  | priceReporter
  | authorizedCaller
  deriving DecidableEq, Repr

/-- The roles kept in a `LookupSet` and managed by the owner. -/
inductive LookupRole where
  | admin
  | product
  | priceReporter
  deriving DecidableEq, Repr

def LookupRole.role : LookupRole → Role
  | .admin => .admin
  | .product => .product
  | .priceReporter => .priceReporter

def Role.event {AccountId : Type} : Role → AccountId → Bool → ContractEvent AccountId
  | .admin => .adminStatusChanged
  | .product => .productStatusChanged
  | .priceReporter => .priceReporterStatusChanged
  | .authorizedCaller => .authorizedCallerStatusChanged

/-- The events of a role's updates. -/
def roleLog {AccountId : Type} (r : Role) (us : List (RoleUpdate AccountId)) :
    List (ContractEvent AccountId) :=
  us.map fun u => r.event u.account u.status

/-- The accounts of an initial list, as updates. -/
def grants {AccountId : Type} (addrs : List AccountId) : List (RoleUpdate AccountId) :=
  addrs.map fun addr => ⟨addr, true⟩

/-- The method that updates a role of the owner. -/
def LookupRole.call {AccountId : Type} :
    LookupRole → List (RoleUpdate AccountId) → Call AccountId
  | .admin => .setAdmins
  | .product => .setProducts
  | .priceReporter => .setPriceReporters

/-- The membership statuses a log of updates sets, per account. -/
abbrev Alternating {AccountId : Type} [DecidableEq AccountId] (base : AccountId → Bool)
    (updates : List (RoleUpdate AccountId)) : Prop :=
  KeyedLog.Chained RoleUpdate.account RoleUpdate.status (· ≠ ·) base updates

/-- The membership after a list of updates: the last status of each account. -/
abbrev membership {AccountId : Type} [DecidableEq AccountId] (base : AccountId → Bool)
    (updates : List (RoleUpdate AccountId)) : AccountId → Bool :=
  KeyedLog.current RoleUpdate.account RoleUpdate.status base updates

section Strict
variable {Roles AccountId : Type} [DecidableEq AccountId] [LookupSet Roles AccountId]

/-- The set with one membership written. -/
def setMember (set : Roles) (u : RoleUpdate AccountId) : Roles :=
  if u.status then (LookupSet.insert set u.account).2 else (LookupSet.remove set u.account).2

theorem contains_setMember (set : Roles) (u : RoleUpdate AccountId) :
    LookupSet.contains (setMember set u) =
      Function.update (LookupSet.contains set) u.account u.status := by
  unfold setMember
  split_ifs with h
  · rw [LookupSet.contains_insert, h]
  · rw [LookupSet.contains_remove, Bool.eq_false_of_not_eq_true h]

def setMembers (set : Roles) (us : List (RoleUpdate AccountId)) : Roles := us.foldl setMember set

theorem contains_setMembers (set : Roles) (us : List (RoleUpdate AccountId)) :
    LookupSet.contains (setMembers set us) = membership (LookupSet.contains set) us := by
  induction us generalizing set with
  | nil => rfl
  | cons u us ih =>
      have tail := ih (setMember set u)
      rw [contains_setMember] at tail
      rw [membership, KeyedLog.current_cons]
      exact tail

omit [DecidableEq AccountId] in
theorem updateRoleMember_eq (set : Roles) (u : RoleUpdate AccountId)
    (eventFn : AccountId → Bool → ContractEvent AccountId) :
    updateRoleMember set u.account u.status eventFn =
      if LookupSet.contains set u.account = u.status
      then .error (if u.status then .alreadyInRole else .notInRole)
      else .ok (setMember set u, eventFn u.account u.status) := by
  unfold updateRoleMember setMember
  cases u.status <;> cases member : LookupSet.contains set u.account <;>
    simp [require, member]

/-- When the strict loop succeeds, and what it does then. -/
theorem updateRoleMembers_eq_ok {eventFn : AccountId → Bool → ContractEvent AccountId}
    {set next : Roles} {us : List (RoleUpdate AccountId)} {log : List (ContractEvent AccountId)} :
    updateRoleMembers eventFn set us = .ok (next, log) ↔
      Alternating (LookupSet.contains set) us ∧ next = setMembers set us ∧
        log = us.map fun u => eventFn u.account u.status := by
  induction us generalizing set next log with
  | nil =>
      simp only [updateRoleMembers, Abort.pure_eq_ok, Except.ok.injEq, Prod.mk.injEq,
        List.map_nil]
      constructor
      · rintro ⟨rfl, rfl⟩
        exact ⟨KeyedLog.chained_nil _ _ _ _, rfl, rfl⟩
      · rintro ⟨-, rfl, rfl⟩
        exact ⟨rfl, rfl⟩
  | cons u us ih =>
      rw [updateRoleMembers, updateRoleMember_eq, Alternating, KeyedLog.chained_cons,
        ← contains_setMember]
      by_cases redundant : LookupSet.contains set u.account = u.status
      · rw [if_pos redundant, Abort.error_bind]
        simp only [reduceCtorEq, redundant, ne_eq, not_true, false_and]
      · rw [if_neg redundant]
        simp only [Abort.ok_bind, Abort.bind_eq_ok, Prod.exists, ih, Abort.pure_eq_ok,
          Except.ok.injEq, Prod.mk.injEq, List.map_cons, ne_eq, redundant, not_false_iff, true_and]
        constructor
        · rintro ⟨_, _, ⟨rest, rfl, rfl⟩, rfl, rfl⟩
          exact ⟨rest, rfl, rfl⟩
        · rintro ⟨rest, rfl, rfl⟩
          exact ⟨_, _, ⟨rest, rfl, rfl⟩, rfl, rfl⟩

end Strict

section Whitelist
variable {Callers AccountId : Type} [DecidableEq AccountId] [IterableSet Callers AccountId]

/-- The whitelist loop of `new` is the strict loop on additions. -/
theorem initAuthorizedCallers_eq_ok {set next : Callers} {addrs : List AccountId}
    {log : List (ContractEvent AccountId)} :
    initAuthorizedCallers set addrs = .ok (next, log) ↔
      Alternating (LookupSet.contains set) (addrs.map fun a => ⟨a, true⟩) ∧
        next = setMembers set (addrs.map fun a => ⟨a, true⟩) ∧
        log = addrs.map fun a => .authorizedCallerStatusChanged a true := by
  induction addrs generalizing set next log with
  | nil =>
      simp only [initAuthorizedCallers, Abort.pure_eq_ok, Except.ok.injEq, Prod.mk.injEq,
        List.map_nil]
      constructor
      · rintro ⟨rfl, rfl⟩
        exact ⟨KeyedLog.chained_nil _ _ _ _, rfl, rfl⟩
      · rintro ⟨-, rfl, rfl⟩
        exact ⟨rfl, rfl⟩
  | cons a addrs ih =>
      rw [initAuthorizedCallers, List.map_cons, Alternating, KeyedLog.chained_cons,
        ← contains_setMember]
      have written : (LookupSet.insert set a).2 = setMember set ⟨a, true⟩ := rfl
      rw [LookupSet.insert_changed, written]
      cases member : LookupSet.contains set a with
      | true => simp only [require, Bool.not_true, Bool.false_eq_true, if_false, Abort.error_bind,
          reduceCtorEq, ne_eq, not_true, false_and]
      | false =>
          simp only [require, Bool.not_false, if_true, Abort.ok_bind, Abort.bind_eq_ok,
            Prod.exists, ih, Abort.pure_eq_ok, Except.ok.injEq, Prod.mk.injEq, List.map_cons,
            ne_eq, Bool.false_eq_true, not_false_iff, true_and]
          constructor
          · rintro ⟨_, _, ⟨rest, rfl, rfl⟩, rfl, rfl⟩
            exact ⟨rest, rfl, rfl⟩
          · rintro ⟨rest, rfl, rfl⟩
            exact ⟨_, _, ⟨rest, rfl, rfl⟩, rfl, rfl⟩

theorem contains_updateAuthorizedCallers (set : Callers) (us : List (RoleUpdate AccountId)) :
    LookupSet.contains (updateAuthorizedCallers set us).1 =
      membership (LookupSet.contains set) us := by
  induction us generalizing set with
  | nil => rfl
  | cons u us ih =>
      rw [updateAuthorizedCallers, membership, KeyedLog.current_cons, ← contains_setMember]
      have written : (if u.status then LookupSet.insert set u.account
          else LookupSet.remove set u.account).2 = setMember set u := by
        unfold setMember
        split_ifs <;> rfl
      simp only [written]
      exact ih (setMember set u)

/-- The lenient loop reports exactly the updates that change a membership. -/
theorem updateAuthorizedCallers_log (set : Callers) (us : List (RoleUpdate AccountId)) :
    (updateAuthorizedCallers set us).2 =
      (KeyedLog.changes RoleUpdate.account RoleUpdate.status (LookupSet.contains set) us).map
        fun u => .authorizedCallerStatusChanged u.account u.status := by
  induction us generalizing set with
  | nil => rfl
  | cons u us ih =>
      have written : (if u.status then LookupSet.insert set u.account
          else LookupSet.remove set u.account).2 = setMember set u := by
        unfold setMember
        split_ifs <;> rfl
      have changed : (if u.status then LookupSet.insert set u.account
          else LookupSet.remove set u.account).1 =
            !decide (LookupSet.contains set u.account = u.status) := by
        cases u.status <;> cases member : LookupSet.contains set u.account <;> simp [member]
      simp only [updateAuthorizedCallers, written, changed, KeyedLog.changes]
      by_cases same : LookupSet.contains set u.account = u.status
      · simp only [same, decide_true, Bool.not_true, Bool.false_eq_true, if_false, if_true, ih,
          contains_setMember]
        rw [← same, Function.update_eq_self]
      · simp only [same, decide_false, Bool.not_false, if_true, if_false, ih, List.map_cons,
          contains_setMember]

end Whitelist

end NearMultiFeed
