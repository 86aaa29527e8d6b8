import Mathlib.Data.List.Chain
import Mathlib.Data.List.Nodup
import Mathlib.Logic.Function.Basic
import Mathlib.Order.Defs.PartialOrder

/-!
# Logs of keyed entries

A log is a list of entries; every entry has a key and carries a value. What a
log says about a key is the sublist of that key's entries, and the value a key
has after the log is the value of the last of them. A log is chained for `R`
when under every key each value is related by `R` to the one before it, the
first being compared with a base value.
-/
namespace KeyedLog

variable {α β κ : Type*} [DecidableEq κ]

/-- The entries of one key, in log order. -/
def entriesOf (key : α → κ) (k : κ) (log : List α) : List α :=
  log.filter (fun a => key a = k)

/-- The last entry of one key, if it has any. -/
def latest (key : α → κ) (k : κ) (log : List α) : Option α := (entriesOf key k log).getLast?

/-- The value of every key after the log, given the values before it. -/
def current (key : α → κ) (val : α → β) (base : κ → β) (log : List α) (k : κ) : β :=
  ((latest key k log).map val).getD (base k)

/-- Under every key, consecutive values are related, starting from the base. -/
def Chained (key : α → κ) (val : α → β) (R : β → β → Prop) (base : κ → β) (log : List α) : Prop :=
  ∀ k, (base k :: (entriesOf key k log).map val).IsChain R

section Entries
variable (key : α → κ)

@[simp] theorem entriesOf_nil (k : κ) : entriesOf key k ([] : List α) = [] := rfl

@[simp] theorem entriesOf_cons_self (a : α) (log : List α) :
    entriesOf key (key a) (a :: log) = a :: entriesOf key (key a) log := by
  simp only [entriesOf, decide_true, List.filter_cons_of_pos]

theorem entriesOf_cons_of_ne {a : α} {k : κ} (h : key a ≠ k) (log : List α) :
    entriesOf key k (a :: log) = entriesOf key k log := by
  simp only [entriesOf, h, decide_false, Bool.false_eq_true, not_false_eq_true,
    List.filter_cons_of_neg]

@[simp] theorem entriesOf_append (k : κ) (l₁ l₂ : List α) :
    entriesOf key k (l₁ ++ l₂) = entriesOf key k l₁ ++ entriesOf key k l₂ :=
  List.filter_append l₁ l₂

@[simp] theorem mem_entriesOf {k : κ} {a : α} {log : List α} :
    a ∈ entriesOf key k log ↔ a ∈ log ∧ key a = k := by
  simp only [entriesOf, List.mem_filter, decide_eq_true_eq]

/-- Renaming the entries of a log renames the entries of every key. -/
theorem entriesOf_map {γ : Type*} (g : γ → α) (k : κ) (log : List γ) :
    entriesOf key k (log.map g) = (entriesOf (key ∘ g) k log).map g :=
  List.filter_map

theorem entriesOf_reverse (k : κ) (log : List α) :
    entriesOf key k log.reverse = (entriesOf key k log).reverse :=
  List.filter_reverse

theorem entriesOf_eq_nil {k : κ} {log : List α} (h : ∀ a ∈ log, key a ≠ k) :
    entriesOf key k log = [] := by
  refine List.filter_eq_nil_iff.mpr ?_
  intro a ha
  simpa only [decide_eq_true_eq] using h a ha

/-- A log has the entries its keys have. -/
theorem mem_of_entriesOf_eq {log log' : List α}
    (same : ∀ k, entriesOf key k log = entriesOf key k log') {a : α} (ha : a ∈ log) :
    a ∈ log' := by
  have own := (mem_entriesOf key).mpr ⟨ha, rfl⟩
  rw [same (key a)] at own
  exact ((mem_entriesOf key).mp own).1

end Entries

section Latest
variable (key : α → κ)

@[simp] theorem latest_nil (k : κ) : latest key k ([] : List α) = none := rfl

@[simp] theorem latest_append (k : κ) (l₁ l₂ : List α) :
    latest key k (l₁ ++ l₂) = (latest key k l₂).or (latest key k l₁) := by
  simp only [latest, entriesOf_append, List.getLast?_append]

theorem latest_cons_self (a : α) (log : List α) :
    latest key (key a) (a :: log) = (latest key (key a) log).or (some a) := by
  rw [← List.singleton_append, latest_append]
  congr 1
  simp only [latest, entriesOf_cons_self, entriesOf_nil, List.getLast?_singleton]

theorem latest_cons_of_ne {a : α} {k : κ} (h : key a ≠ k) (log : List α) :
    latest key k (a :: log) = latest key k log := by
  simp only [latest, entriesOf_cons_of_ne key h]

theorem latest_map {γ : Type*} (g : γ → α) (k : κ) (log : List γ) :
    latest key k (log.map g) = (latest (key ∘ g) k log).map g := by
  simp only [latest, entriesOf_map, List.getLast?_map]

theorem latest_mem {k : κ} {a : α} {log : List α} (h : latest key k log = some a) :
    a ∈ log ∧ key a = k :=
  (mem_entriesOf key).mp (List.mem_of_getLast? h)

theorem latest_eq_none_iff {k : κ} {log : List α} :
    latest key k log = none ↔ ∀ a ∈ log, key a ≠ k := by
  simp only [latest, List.getLast?_eq_none_iff]
  constructor
  · intro h a ha hk
    have member := (mem_entriesOf key).mpr ⟨ha, hk⟩
    rw [h] at member
    cases member
  · exact entriesOf_eq_nil key

theorem latest_isSome {a : α} {log : List α} (ha : a ∈ log) :
    ∃ b, latest key (key a) log = some b := by
  cases h : latest key (key a) log with
  | none => exact absurd rfl ((latest_eq_none_iff key).mp h a ha)
  | some b => exact ⟨b, rfl⟩

/-- A log made from a list of keys, one entry a key. -/
theorem latest_of_keys {f : κ → α} (keyed : ∀ k, key (f k) = k) (k : κ) (keys : List κ) :
    latest key k (keys.map f) = if k ∈ keys then some (f k) else none := by
  by_cases listed : k ∈ keys
  · have there : f k ∈ keys.map f := List.mem_map_of_mem listed
    obtain ⟨a, last⟩ := latest_isSome key there
    rw [keyed] at last
    obtain ⟨member, same⟩ := latest_mem key last
    obtain ⟨k', -, made⟩ := List.mem_map.mp member
    subst made
    rw [keyed] at same
    rw [last, if_pos listed, same]
  · rw [if_neg listed]
    apply (latest_eq_none_iff key).mpr
    intro a ha same
    obtain ⟨k', listed', made⟩ := List.mem_map.mp ha
    rw [← made, keyed] at same
    rw [same] at listed'
    exact listed listed'

end Latest

section Current
variable (key : α → κ) (val : α → β)

theorem current_append (base : κ → β) (l₁ l₂ : List α) :
    current key val base (l₁ ++ l₂) = current key val (current key val base l₁) l₂ := by
  funext k
  simp only [current, latest_append]
  cases latest key k l₂ <;> rfl

theorem current_singleton (base : κ → β) (a : α) :
    current key val base [a] = Function.update base (key a) (val a) := by
  funext k
  by_cases h : key a = k
  · subst h
    simp only [current, latest_cons_self, latest_nil, Option.none_or, Option.map_some,
      Option.getD_some, Function.update_self]
  · simp only [current, latest_cons_of_ne key h, latest_nil, Option.map_none, Option.getD_none,
      Function.update_of_ne (Ne.symm h)]

theorem current_cons (base : κ → β) (a : α) (log : List α) :
    current key val base (a :: log) =
      current key val (Function.update base (key a) (val a)) log := by
  rw [← List.singleton_append, current_append, current_singleton]

/-- Reading the same log again changes nothing. -/
theorem current_current (base : κ → β) (log : List α) :
    current key val (current key val base log) log = current key val base log := by
  funext k
  simp only [current]
  cases latest key k log <;> rfl

/-- The value after the log is the last of the key's values, base included. -/
theorem current_eq_getLast (base : κ → β) (log : List α) (k : κ) :
    (base k :: (entriesOf key k log).map val).getLast? = some (current key val base log k) := by
  simp only [List.getLast?_cons, List.getLast?_map, current, latest]

end Current

section Chain
variable (key : α → κ) (val : α → β) (R : β → β → Prop)

theorem chained_nil (base : κ → β) : Chained key val R base [] :=
  fun _ => List.IsChain.singleton _

theorem chained_append (base : κ → β) (l₁ l₂ : List α) :
    Chained key val R base (l₁ ++ l₂) ↔
      Chained key val R base l₁ ∧ Chained key val R (current key val base l₁) l₂ := by
  have split (k : κ) : (base k :: (entriesOf key k (l₁ ++ l₂)).map val).IsChain R ↔
      (base k :: (entriesOf key k l₁).map val).IsChain R ∧
        (current key val base l₁ k :: (entriesOf key k l₂).map val).IsChain R := by
    rw [entriesOf_append, List.map_append, ← List.cons_append, List.isChain_append,
      List.isChain_cons (x := current key val base l₁ k), current_eq_getLast]
    constructor
    · rintro ⟨first, rest, joint⟩
      exact ⟨first, fun y hy => joint _ rfl y hy, rest⟩
    · rintro ⟨first, joint, rest⟩
      refine ⟨first, rest, ?_⟩
      intro x hx y hy
      cases hx
      exact joint y hy
  simp only [Chained, split, forall_and]

theorem chained_singleton (base : κ → β) (a : α) :
    Chained key val R base [a] ↔ R (base (key a)) (val a) := by
  constructor
  · intro h
    have own := h (key a)
    rw [entriesOf_cons_self] at own
    exact (List.isChain_cons_cons.mp own).1
  · intro h k
    by_cases same : key a = k
    · subst same
      rw [entriesOf_cons_self]
      exact List.isChain_cons_cons.mpr ⟨h, List.IsChain.singleton _⟩
    · rw [entriesOf_cons_of_ne key same]
      exact List.IsChain.singleton _

theorem chained_cons (base : κ → β) (a : α) (log : List α) :
    Chained key val R base (a :: log) ↔
      R (base (key a)) (val a) ∧
        Chained key val R (Function.update base (key a) (val a)) log := by
  rw [← List.singleton_append, chained_append, chained_singleton, current_singleton]

/-- With pairwise different keys, only the base values matter. -/
theorem chained_of_nodup {base : κ → β} {log : List α} (keys : (log.map key).Nodup)
    (h : ∀ a ∈ log, R (base (key a)) (val a)) : Chained key val R base log := by
  induction log generalizing base with
  | nil => exact chained_nil key val R base
  | cons a log ih =>
      rw [List.map_cons, List.nodup_cons] at keys
      apply (chained_cons key val R base a log).mpr
      refine ⟨h a List.mem_cons_self, ih keys.2 ?_⟩
      intro b hb
      have differ : key b ≠ key a := by
        intro same
        exact keys.1 (List.mem_map.mpr ⟨b, hb, same⟩)
      rw [Function.update_of_ne differ]
      exact h b (List.mem_cons_of_mem a hb)

/-- A chain, position by position: every entry is compared with the value its key
has after the entries before it. -/
theorem chained_iff_get (base : κ → β) (log : List α) :
    Chained key val R base log ↔ ∀ i : Fin log.length,
      R (current key val base (log.take i) (key (log.get i))) (val (log.get i)) := by
  induction log generalizing base with
  | nil =>
      constructor
      · intro _ i
        exact i.elim0
      · intro _
        exact chained_nil key val R base
  | cons a log ih =>
      rw [chained_cons, ih]
      have later (i : Fin log.length) : current key val base ((a :: log).take (i + 1)) =
          current key val (Function.update base (key a) (val a)) (log.take i) := by
        rw [List.take_succ_cons, current_cons]
      constructor
      · rintro ⟨first, rest⟩ i
        cases i using Fin.cases with
        | zero => exact first
        | succ i =>
            rw [Fin.val_succ, later]
            exact rest i
      · intro h
        refine ⟨h ⟨0, Nat.succ_pos _⟩, ?_⟩
        intro i
        rw [← later]
        exact h i.succ

end Chain

/-! Logs whose values strictly increase under every key. -/

section Ascending
variable [Preorder β] {key : α → κ} {val : α → β} {base base' : κ → β} {log log' : List α}

theorem Chained.pairwise (h : Chained key val (· < ·) base log) (k : κ) :
    (base k :: (entriesOf key k log).map val).Pairwise (· < ·) :=
  List.isChain_iff_pairwise.mp (h k)

theorem Chained.base_lt (h : Chained key val (· < ·) base log) {a : α} (ha : a ∈ log) :
    base (key a) < val a := by
  have ordered := List.pairwise_cons.mp (h.pairwise (key a))
  exact ordered.1 _ (List.mem_map.mpr ⟨a, (mem_entriesOf key).mpr ⟨ha, rfl⟩, rfl⟩)

/-- The last value of a key is its greatest. -/
theorem Chained.le_current (h : Chained key val (· < ·) base log) {a : α} (ha : a ∈ log) :
    val a ≤ current key val base log (key a) := by
  obtain ⟨before, after, rfl⟩ := List.append_of_mem ha
  rw [current_append, current_cons]
  have tail := (chained_append key val (· < ·) base before (a :: after)).mp h
  have after_chain := ((chained_cons key val (· < ·) _ a after).mp tail.2).2
  cases last : latest key (key a) after with
  | none => simp only [current, last, Option.map_none, Option.getD_none, Function.update_self,
      le_refl]
  | some b =>
      obtain ⟨hb, same⟩ := latest_mem key last
      have lower := after_chain.base_lt hb
      rw [same, Function.update_self] at lower
      simpa only [current, last, Option.map_some, Option.getD_some] using lower.le

/-- No two entries of a key carry the same value. -/
theorem Chained.nodup (h : Chained key val (· < ·) base log) :
    (log.map (fun a => (key a, val a))).Nodup := by
  induction log generalizing base with
  | nil => exact List.nodup_nil
  | cons a log ih =>
      obtain ⟨-, rest⟩ := (chained_cons key val (· < ·) base a log).mp h
      rw [List.map_cons, List.nodup_cons]
      refine ⟨?_, ih rest⟩
      intro again
      obtain ⟨b, hb, same⟩ := List.mem_map.mp again
      have lower := rest.base_lt hb
      rw [(Prod.mk.inj same).1, Function.update_self, (Prod.mk.inj same).2] at lower
      exact lt_irrefl _ lower

/-- Two entries of a key with one value are one entry. -/
theorem Chained.eq_of_val_eq (h : Chained key val (· < ·) base log) {a b : α} (ha : a ∈ log)
    (hb : b ∈ log) (hk : key a = key b) (hv : val a = val b) : a = b := by
  have inj := List.inj_on_of_nodup_map h.nodup
  exact inj ha hb (Prod.ext hk hv)

/-- What an ascending log says of a key does not depend on the order of its
entries. -/
theorem Chained.entriesOf_eq (h : Chained key val (· < ·) base log)
    (h' : Chained key val (· < ·) base' log') (same : log.Perm log') (k : κ) :
    entriesOf key k log = entriesOf key k log' := by
  have sorted := (List.pairwise_cons.mp (h.pairwise k)).2
  have sorted' := (List.pairwise_cons.mp (h'.pairwise k)).2
  rw [List.pairwise_map] at sorted sorted'
  have asymm (a b : α) (_ : a ∈ entriesOf key k log) (_ : b ∈ entriesOf key k log')
      (below : val a < val b) (above : val b < val a) : a = b :=
    absurd (below.trans above) (lt_irrefl _)
  exact List.Perm.eq_of_pairwise asymm sorted sorted' (same.filter _)

end Ascending

section Changes
variable [DecidableEq β] (key : α → κ) (val : α → β)

/-- The entries that change the value their key has just before them. -/
def changes (base : κ → β) : List α → List α
  | [] => []
  | a :: log =>
      if base (key a) = val a then changes base log
      else a :: changes (Function.update base (key a) (val a)) log

theorem chained_changes (base : κ → β) (log : List α) :
    Chained key val (· ≠ ·) base (changes key val base log) := by
  induction log generalizing base with
  | nil => exact chained_nil key val _ base
  | cons a log ih =>
      rw [changes]
      split_ifs with same
      · exact ih base
      · exact (chained_cons key val _ base a _).mpr ⟨same, ih _⟩

/-- Dropping the entries without effect does not change the outcome. -/
theorem current_changes (base : κ → β) (log : List α) :
    current key val base (changes key val base log) = current key val base log := by
  induction log generalizing base with
  | nil => rfl
  | cons a log ih =>
      rw [changes, current_cons]
      split_ifs with same
      · rw [← same, Function.update_eq_self]
        exact ih base
      · rw [current_cons]
        exact ih _

/-- Only the values of the keys in the log matter. -/
theorem changes_congr {base base' : κ → β} {log : List α}
    (same : ∀ a ∈ log, base (key a) = base' (key a)) :
    changes key val base log = changes key val base' log := by
  induction log generalizing base base' with
  | nil => rfl
  | cons a log ih =>
      have rest : ∀ b ∈ log, base (key b) = base' (key b) :=
        fun b hb => same b (List.mem_cons_of_mem a hb)
      rw [changes, changes, same a List.mem_cons_self, ih rest]
      have next : changes key val (Function.update base (key a) (val a)) log =
          changes key val (Function.update base' (key a) (val a)) log := by
        apply ih
        intro b hb
        by_cases again : key b = key a
        · rw [again, Function.update_self, Function.update_self]
        · rw [Function.update_of_ne again, Function.update_of_ne again]
          exact rest b hb
      rw [next]

/-- Nothing is dropped from a log whose every entry changes its key. -/
theorem changes_of_chained {base : κ → β} {log : List α} (h : Chained key val (· ≠ ·) base log) :
    changes key val base log = log := by
  induction log generalizing base with
  | nil => rfl
  | cons a log ih =>
      obtain ⟨differ, rest⟩ := (chained_cons key val _ base a log).mp h
      rw [changes, if_neg differ, ih rest]

/-- The changes of a log, position by position. -/
theorem changes_eq_filter (base : κ → β) (log : List α) :
    changes key val base log = ((List.finRange log.length).filter fun i : Fin log.length =>
      current key val base (log.take i) (key (log.get i)) ≠ val (log.get i)).map log.get := by
  induction log generalizing base with
  | nil => rfl
  | cons a log ih =>
      have tail : (((List.finRange log.length).map Fin.succ).filter
            fun i : Fin (a :: log).length => current key val base ((a :: log).take i)
              (key ((a :: log).get i)) ≠ val ((a :: log).get i)).map (a :: log).get =
          changes key val (Function.update base (key a) (val a)) log := by
        rw [ih, List.filter_map, List.map_map]
        simp only [Function.comp_def, Fin.val_succ, List.take_succ_cons, current_cons]
        rfl
      have indices : List.finRange (a :: log).length =
          0 :: (List.finRange log.length).map Fin.succ := List.finRange_succ
      rw [changes, indices]
      by_cases same : base (key a) = val a
      · rw [if_pos same, List.filter_cons_of_neg, tail, ← same, Function.update_eq_self]
        intro differ
        exact of_decide_eq_true differ same
      · rw [if_neg same, List.filter_cons_of_pos, List.map_cons, tail]
        · rfl
        · exact decide_eq_true same

end Changes

/-! Logs that take one valuation of the keys to another. -/

/-- Every value is related to the one before it, and the last ones are `next`. -/
structure Leads (key : α → κ) (val : α → β) (R : β → β → Prop) (base next : κ → β)
    (log : List α) : Prop where
  chained : Chained key val R base log
  reaches : current key val base log = next

namespace Leads

variable {key : α → κ} {val : α → β} {R : β → β → Prop} {base mid next : κ → β}

theorem nil : Leads key val R base base [] := ⟨chained_nil key val R base, rfl⟩

theorem append {l₁ l₂ : List α} (h₁ : Leads key val R base mid l₁)
    (h₂ : Leads key val R mid next l₂) : Leads key val R base next (l₁ ++ l₂) := by
  constructor
  · rw [chained_append, h₁.reaches]
    exact ⟨h₁.chained, h₂.chained⟩
  · rw [current_append, h₁.reaches, h₂.reaches]

theorem singleton {a : α} (h : R (base (key a)) (val a)) :
    Leads key val R base (Function.update base (key a) (val a)) [a] :=
  ⟨(chained_singleton key val R base a).mpr h, current_singleton key val base a⟩

/-- The last entry of a key carries the value reached. -/
theorem getLast? {log : List α} (h : Leads key val R base next log) (k : κ) :
    (base k :: (entriesOf key k log).map val).getLast? = some (next k) := by
  rw [current_eq_getLast, h.reaches]

/-- The entries of a smaller key type, renamed by an injection. -/
theorem embed {κ' : Type*} [DecidableEq κ'] {f : κ' → κ} (inj : Function.Injective f)
    {key : α → κ'} {log : List α}
    (h : Leads key val R (fun k => base (f k)) (fun k => next (f k)) log)
    (outside : ∀ k, (∀ k', f k' ≠ k) → next k = base k) :
    Leads Prod.fst Prod.snd R base next (log.map fun a => (f (key a), val a)) := by
  have inside (k : κ') : (entriesOf Prod.fst (f k) (log.map fun a => (f (key a), val a))).map
      Prod.snd = (entriesOf key k log).map val := by
    rw [entriesOf_map, List.map_map]
    have same : entriesOf (Prod.fst ∘ fun a => (f (key a), val a)) (f k) log =
        entriesOf key k log := by
      simp only [entriesOf, Function.comp_apply, inj.eq_iff]
    rw [same]
    rfl
  have none (k : κ) (hk : ∀ k', f k' ≠ k) :
      entriesOf Prod.fst k (log.map fun a => (f (key a), val a)) = [] := by
    apply entriesOf_eq_nil
    intro p hp
    obtain ⟨a, -, same⟩ := List.mem_map.mp hp
    subst same
    exact hk (key a)
  constructor
  · intro k
    by_cases hk : ∃ k', f k' = k
    · obtain ⟨k', same⟩ := hk
      subst same
      rw [inside]
      exact h.chained k'
    · rw [none k (not_exists.mp hk)]
      exact List.IsChain.singleton _
  · ext k
    have last := current_eq_getLast Prod.fst Prod.snd base
      (log.map fun a => (f (key a), val a)) k
    by_cases hk : ∃ k', f k' = k
    · obtain ⟨k', same⟩ := hk
      subst same
      rw [inside, h.getLast? k'] at last
      exact (Option.some.inj last).symm
    · rw [none k (not_exists.mp hk)] at last
      rw [outside k (not_exists.mp hk)]
      exact (Option.some.inj last).symm

end Leads

/-! Undoing a log of statuses. -/

section Inverse

/-- Statuses that alternate, read backwards and negated, alternate back. -/
theorem alternate_back {b : Bool} {l : List Bool} (h : (b :: l).IsChain (· ≠ ·)) :
    l.getLastD b :: l.reverse.map (! ·) = (b :: l).reverse := by
  induction l generalizing b with
  | nil => rfl
  | cons c l ih =>
      obtain ⟨differ, rest⟩ := List.isChain_cons_cons.mp h
      have back : (!c) = b := Bool.not_eq.mpr differ.symm
      have inner := ih rest
      calc (c :: l).getLastD b :: (c :: l).reverse.map (! ·)
          = (l.getLastD c :: l.reverse.map (! ·)) ++ [!c] := by
            rw [List.getLastD_cons, List.reverse_cons, List.map_append, List.cons_append]
            rfl
        _ = (b :: c :: l).reverse := by
            rw [inner, back, ← List.reverse_cons]

variable {key : α → κ} {val : α → Bool} {base : κ → Bool} {log back : List α}

/-- Undoing a chained log: the entries backwards, every value negated. -/
theorem Chained.inverse (h : Chained key val (· ≠ ·) base log)
    (entries : ∀ k, (entriesOf key k back).map val =
      ((entriesOf key k log).map val).reverse.map (! ·)) :
    Leads key val (· ≠ ·) (current key val base log) base back := by
  have line (k : κ) : current key val base log k :: (entriesOf key k back).map val =
      (base k :: (entriesOf key k log).map val).reverse := by
    have last : ((entriesOf key k log).map val).getLastD (base k) = current key val base log k := by
      have whole := current_eq_getLast key val base log k
      rw [List.getLast?_cons] at whole
      rw [List.getLastD_eq_getLast?]
      exact Option.some.inj whole
    rw [entries k, ← last]
    exact alternate_back (h k)
  constructor
  · intro k
    rw [line k, List.isChain_reverse]
    exact (h k).imp fun _ _ differ => differ.symm
  · ext k
    have last := current_eq_getLast key val (current key val base log) back k
    rw [line k, List.getLast?_reverse, List.head?_cons] at last
    exact (Option.some.inj last).symm

end Inverse

end KeyedLog
