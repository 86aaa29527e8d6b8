import NearMultiFeed.Deployment

/-!
# Initialisation

When `new` succeeds and what it leaves; and that the roles it fills are those of
an empty contract after the update loops of the setters.
-/
namespace NearMultiFeed

section Grants
variable {AccountId : Type} [DecidableEq AccountId]

/-- Additions alternate exactly if no account is a member before or comes twice. -/
theorem alternating_grants {base : AccountId → Bool} {addrs : List AccountId} :
    Alternating base (grants addrs) ↔ addrs.Nodup ∧ ∀ a ∈ addrs, base a = false := by
  induction addrs generalizing base with
  | nil =>
      constructor
      · intro _
        exact ⟨List.nodup_nil, fun a ha => nomatch ha⟩
      · intro _
        exact KeyedLog.chained_nil _ _ _ _
  | cons a addrs ih =>
      have unfolded : Alternating base (grants (a :: addrs)) ↔
          base a ≠ true ∧ Alternating (Function.update base a true) (grants addrs) :=
        KeyedLog.chained_cons _ _ _ base ⟨a, true⟩ (grants addrs)
      rw [unfolded, ih, List.nodup_cons, List.forall_mem_cons, ne_eq,
        Bool.not_eq_true]
      constructor
      · intro h
        obtain ⟨fresh, distinct, outside⟩ := h
        have apart (b : AccountId) (hb : b ∈ addrs) : b ≠ a := by
          intro same
          have member := outside b hb
          rw [same, Function.update_self] at member
          cases member
        refine ⟨⟨fun ha => apart a ha rfl, distinct⟩, fresh, ?_⟩
        intro b hb
        have kept := outside b hb
        rwa [Function.update_of_ne (apart b hb)] at kept
      · intro h
        obtain ⟨⟨absent, distinct⟩, fresh, outside⟩ := h
        refine ⟨fresh, distinct, ?_⟩
        intro b hb
        have apart : b ≠ a := fun same => absent (same ▸ hb)
        rw [Function.update_of_ne apart]
        exact outside b hb

theorem membership_grants (base : AccountId → Bool) (addrs : List AccountId)
    (account : AccountId) :
    membership base (grants addrs) account = (decide (account ∈ addrs) || base account) := by
  induction addrs generalizing base with
  | nil => rfl
  | cons a addrs ih =>
      have unfolded : membership base (grants (a :: addrs)) =
          membership (Function.update base a true) (grants addrs) :=
        KeyedLog.current_cons _ _ base ⟨a, true⟩ (grants addrs)
      rw [unfolded, ih]
      by_cases same : account = a
      · subst same
        simp only [Function.update_self, Bool.or_true, List.mem_cons, true_or, decide_true,
          Bool.true_or]
      · simp only [Function.update_of_ne same, List.mem_cons, same, false_or]

end Grants

namespace MultiFeed

variable {Feeds Roles Callers AccountId : Type} [DecidableEq AccountId]
  [LookupMap Feeds UInt32 StoredFeed] [LookupSet Roles AccountId]
  [IterableSet Callers AccountId]

/-- The update loops of the four setters, each on a list of additions. -/
def grantAll (self : MultiFeed Feeds Roles Callers AccountId)
    (admins products priceReporters authorizedCallers : List AccountId) :
    Except Panic (MultiFeed Feeds Roles Callers AccountId × List (ContractEvent AccountId)) := do
  let (admin, adminLog) ← updateRoleMembers .adminStatusChanged self.admin (grants admins)
  let (products, productLog) ←
    updateRoleMembers .productStatusChanged self.products (grants products)
  let (priceReporters, reporterLog) ←
    updateRoleMembers .priceReporterStatusChanged self.priceReporters (grants priceReporters)
  let (authorizedCallers, callerLog) :=
    updateAuthorizedCallers self.authorizedCallers (grants authorizedCallers)
  return ({ self with admin, products, priceReporters, authorizedCallers },
    adminLog ++ productLog ++ reporterLog ++ callerLog)

section New
variable {owner : AccountId} {openReadEnabled : Bool} {description : String}
  {admins products priceReporters authorizedCallers : List AccountId}

theorem alternating_granted :
    (∀ r, Alternating (fun _ => false)
      (granted admins products priceReporters authorizedCallers r)) ↔
    admins.Nodup ∧ products.Nodup ∧ priceReporters.Nodup ∧ authorizedCallers.Nodup := by
  have distinct (addrs : List AccountId) :
      Alternating (fun _ => false) (grants addrs) ↔ addrs.Nodup := by
    rw [alternating_grants]
    exact and_iff_left fun _ _ => rfl
  constructor
  · intro h
    exact ⟨(distinct _).mp (h .admin), (distinct _).mp (h .product),
      (distinct _).mp (h .priceReporter), (distinct _).mp (h .authorizedCaller)⟩
  · intro h r
    obtain ⟨adminsOk, productsOk, reportersOk, callersOk⟩ := h
    cases r with
    | admin => exact (distinct _).mpr adminsOk
    | product => exact (distinct _).mpr productsOk
    | priceReporter => exact (distinct _).mpr reportersOk
    | authorizedCaller => exact (distinct _).mpr callersOk

/-- The members of an empty contract after the loops. -/
def withGranted (blank : MultiFeed Feeds Roles Callers AccountId)
    (admins products priceReporters authorizedCallers : List AccountId) :
    MultiFeed Feeds Roles Callers AccountId :=
  { blank with
    admin := setMembers blank.admin (grants admins)
    products := setMembers blank.products (grants products)
    priceReporters := setMembers blank.priceReporters (grants priceReporters)
    authorizedCallers :=
      (updateAuthorizedCallers blank.authorizedCallers (grants authorizedCallers)).1 }

omit [LookupMap Feeds UInt32 StoredFeed] in
/-- On an empty contract the loops accept lists without duplicates. -/
theorem grantAll_of_empty {blank : MultiFeed Feeds Roles Callers AccountId}
    (empty : ∀ r, blank.hasRole r = fun _ => false)
    (alternating : ∀ r, Alternating (fun _ => false)
      (granted admins products priceReporters authorizedCallers r)) :
    blank.grantAll admins products priceReporters authorizedCallers =
      .ok (blank.withGranted admins products priceReporters authorizedCallers,
        roleLog .admin (grants admins) ++ roleLog .product (grants products) ++
          roleLog .priceReporter (grants priceReporters) ++
          roleLog .authorizedCaller (grants authorizedCallers)) := by
  have loop (r : LookupRole) (addrs : List AccountId)
      (good : Alternating (fun _ => false) (grants addrs)) :
      updateRoleMembers r.role.event (blank.roleSet r) (grants addrs) =
        .ok (setMembers (blank.roleSet r) (grants addrs), roleLog r.role (grants addrs)) := by
    apply updateRoleMembers_eq_ok.mpr
    rw [contains_roleSet, empty]
    exact ⟨good, rfl, rfl⟩
  have admin := loop .admin admins (alternating .admin)
  have product := loop .product products (alternating .product)
  have reporter := loop .priceReporter priceReporters (alternating .priceReporter)
  have callers : (updateAuthorizedCallers blank.authorizedCallers (grants authorizedCallers)).2 =
      roleLog .authorizedCaller (grants authorizedCallers) := by
    have none : LookupSet.contains blank.authorizedCallers = fun _ => false :=
      empty .authorizedCaller
    rw [updateAuthorizedCallers_log, none]
    exact congrArg (roleLog .authorizedCaller)
      (KeyedLog.changes_of_chained _ _ (alternating .authorizedCaller))
  simp only [LookupRole.role, Role.event, roleSet] at admin product reporter
  simp only [grantAll, admin, product, reporter, callers, Abort.ok_bind, Abort.pure_eq_ok]
  rfl

omit [LookupMap Feeds UInt32 StoredFeed] in
/-- They give every role the members of its list. -/
theorem hasRole_withGranted {blank : MultiFeed Feeds Roles Callers AccountId}
    (empty : ∀ r, blank.hasRole r = fun _ => false) (r : Role) :
    (blank.withGranted admins products priceReporters authorizedCallers).hasRole r =
      membership (fun _ => false)
        (granted admins products priceReporters authorizedCallers r) := by
  have strict (r : LookupRole) (addrs : List AccountId) :
      LookupSet.contains (setMembers (blank.roleSet r) (grants addrs)) =
        membership (fun _ => false) (grants addrs) := by
    rw [contains_setMembers, contains_roleSet, empty]
  cases r with
  | admin => exact strict .admin admins
  | product => exact strict .product products
  | priceReporter => exact strict .priceReporter priceReporters
  | authorizedCaller =>
      have none : LookupSet.contains blank.authorizedCallers = fun _ => false :=
        empty .authorizedCaller
      have lenient := contains_updateAuthorizedCallers blank.authorizedCallers
        (grants authorizedCallers)
      rw [none] at lenient
      exact lenient

/-- When `new` succeeds, what it leaves and reports, and how it agrees with an
empty contract after the loops of the setters. -/
theorem new_exact (owner : AccountId) (openReadEnabled : Bool) (description : String)
    (admins products priceReporters authorizedCallers : List AccountId) :
    ((∃ (s : MultiFeed Feeds Roles Callers AccountId) (log : List (ContractEvent AccountId)),
      MultiFeed.new owner openReadEnabled description admins products priceReporters
        authorizedCallers = .ok (s, log)) ↔
      (openReadEnabled = false ∨ authorizedCallers = []) ∧
        admins.Nodup ∧ products.Nodup ∧ priceReporters.Nodup ∧ authorizedCallers.Nodup) ∧
    (∀ (s : MultiFeed Feeds Roles Callers AccountId) (log : List (ContractEvent AccountId)),
      MultiFeed.new owner openReadEnabled description admins products priceReporters
        authorizedCallers = .ok (s, log) →
      Deployed s log ∧ s.isPaused = false ∧ s.isOpenRead = openReadEnabled ∧
      s.owner = owner ∧ s.description = description ∧
      (∀ id, LookupMap.get s.feeds id = none) ∧
      (∀ account, s.isAdmin account = true ↔ account ∈ admins) ∧
      (∀ account, s.isProduct account = true ↔ account ∈ products) ∧
      (∀ account, s.isPriceReporter account = true ↔ account ∈ priceReporters) ∧
      (∀ account, s.isAuthorizedCaller account = true ↔ account ∈ authorizedCallers) ∧
      log = [.ownershipTransferred none owner, .openReadStatusChanged openReadEnabled] ++
        admins.map (fun account => .adminStatusChanged account true) ++
        products.map (fun account => .productStatusChanged account true) ++
        priceReporters.map (fun account => .priceReporterStatusChanged account true) ++
        authorizedCallers.map (fun account => .authorizedCallerStatusChanged account true) ∧
      ∃ (blank granted : MultiFeed Feeds Roles Callers AccountId)
        (blankLog grantLog : List (ContractEvent AccountId)),
        MultiFeed.new owner openReadEnabled description [] [] [] [] = .ok (blank, blankLog) ∧
        blank.grantAll admins products priceReporters authorizedCallers =
          .ok (granted, grantLog) ∧
        (∀ r, granted.hasRole r = s.hasRole r) ∧ granted.flags = s.flags ∧
        granted.owner = s.owner ∧ log = blankLog ++ grantLog) := by
  constructor
  · constructor
    · intro created
      obtain ⟨s, log, created⟩ := created
      obtain ⟨mode, alternating, -, -⟩ := new_eq_ok.mp created
      exact ⟨mode, alternating_granted.mp alternating⟩
    · intro h
      obtain ⟨mode, distinct⟩ := h
      exact ⟨_, _, new_eq_ok.mpr ⟨mode, alternating_granted.mpr distinct, rfl, rfl⟩⟩
  · intro s log created
    obtain ⟨mode, alternating, shape, logged⟩ := new_eq_ok.mp created
    have initial := initialised_of_new created
    have deployed := Deployed.new created
    rw [persist_of_new created] at deployed
    have members {r : Role} {addrs : List AccountId}
        (list : granted admins products priceReporters authorizedCallers r = grants addrs)
        (account : AccountId) : s.hasRole r account = true ↔ account ∈ addrs := by
      rw [initial.roles r, list, membership_grants, Bool.or_false, decide_eq_true_eq]
    have none_granted : ∀ r, Alternating (fun _ => false)
        (granted ([] : List AccountId) [] [] [] r) :=
      alternating_granted.mpr
        ⟨List.nodup_nil, List.nodup_nil, List.nodup_nil, List.nodup_nil⟩
    obtain ⟨blank, blankLog, created'⟩ : ∃ (blank : MultiFeed Feeds Roles Callers AccountId)
        (blankLog : List (ContractEvent AccountId)),
        MultiFeed.new owner openReadEnabled description [] [] [] [] = .ok (blank, blankLog) :=
      ⟨_, _, new_eq_ok.mpr ⟨.inr rfl, none_granted, rfl, rfl⟩⟩
    have initial' := initialised_of_new created'
    obtain ⟨-, -, shape', logged'⟩ := new_eq_ok.mp created'
    have empty (r : Role) : blank.hasRole r = fun _ => false := by
      rw [initial'.roles r]
      cases r <;> rfl
    refine ⟨deployed, ?_, ?_, ?_, ?_, ?_, members (r := .admin) rfl, members (r := .product) rfl,
      members (r := .priceReporter) rfl, members (r := .authorizedCaller) rfl, ?_,
      blank, _, blankLog, _, created', grantAll_of_empty empty alternating, ?_, ?_, ?_, ?_⟩
    · rw [isPaused, initial.flags, Flags.isPaused_new]
    · rw [isOpenRead, initial.flags, Flags.isOpenRead_new]
    · rw [shape]
    · rw [shape]
    · intro id
      rw [initial.feeds, LookupMap.get_new]
    · simp only [logged, roleLog, grants, List.map_map]
      rfl
    · intro r
      rw [hasRole_withGranted empty, initial.roles r]
    · rw [withGranted, initial.flags, initial'.flags]
    · rw [withGranted, shape, shape']
    · rw [logged, logged']
      simp only [roleLog, grants, List.map_nil, List.append_nil, List.append_assoc]

end New

end MultiFeed

end NearMultiFeed
