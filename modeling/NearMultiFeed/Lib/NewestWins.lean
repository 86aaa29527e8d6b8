import Mathlib.Data.List.MinMax
import NearMultiFeed.Lib.KeyedLog

/-!
# Registers that keep the newest entry

A register for every key starts at a base version. Entries are offered in some
order; one is taken when it is newer than what its register holds. In the end each
register holds the newest of its entries, whatever the order.
-/
namespace NewestWins

variable {α β κ : Type*} [DecidableEq κ] [LinearOrder β] (key : α → κ) (val : α → β)
  (base : κ → β)

/-- The version a register is at. -/
def version (held : κ → Option α) (k : κ) : β := ((held k).map val).getD (base k)

def offer (held : κ → Option α) (a : α) : κ → Option α :=
  if version val base held (key a) < val a then Function.update held (key a) (some a) else held

/-- What the registers hold after a list of offers. -/
def after (offers : List α) : κ → Option α := offers.foldl (offer key val base) fun _ => none

/-- The newest entry of a key, the first of several. -/
def newest (k : κ) (log : List α) : Option α := (KeyedLog.entriesOf key k log).argmax val

variable {key val base}

theorem after_concat (log : List α) (a : α) :
    after key val base (log ++ [a]) = offer key val base (after key val base log) a := by
  rw [after, List.foldl_append]
  rfl

theorem newest_concat_self (log : List α) (a : α) :
    newest key val (key a) (log ++ [a]) =
      match newest key val (key a) log with
      | none => some a
      | some b => if val b < val a then some a else some b := by
  rw [newest, KeyedLog.entriesOf_append, KeyedLog.entriesOf_cons_self, KeyedLog.entriesOf_nil,
    List.argmax_concat, newest]
  cases (KeyedLog.entriesOf key (key a) log).argmax val <;> rfl

theorem newest_concat_of_ne {a : α} {k : κ} (other : key a ≠ k) (log : List α) :
    newest key val k (log ++ [a]) = newest key val k log := by
  rw [newest, KeyedLog.entriesOf_append, KeyedLog.entriesOf_cons_of_ne key other,
    KeyedLog.entriesOf_nil, List.append_nil, newest]

/-- What is offered to a register, seen from the register alone. -/
theorem offer_self {held : κ → Option α} {a : α} {best : Option α}
    (holds : held (key a) = best.filter fun b => base (key a) < val b) :
    offer key val base held a (key a) =
      (match best with
        | none => some a
        | some b => if val b < val a then some a else some b).filter
          fun b => base (key a) < val b := by
  have taken : offer key val base held a (key a) =
      if version val base held (key a) < val a then some a else held (key a) := by
    rw [offer]
    split_ifs
    · rw [Function.update_self]
    · rfl
  rw [taken, version, holds]
  cases best with
  | none =>
      by_cases newer : base (key a) < val a
      · simp [Option.filter_some, newer]
      · simp [Option.filter_some, newer]
  | some b =>
      by_cases held_b : base (key a) < val b
      · by_cases newer : val b < val a
        · simp [Option.filter_some, held_b, newer, held_b.trans newer]
        · simp [Option.filter_some, held_b, newer]
      · by_cases newer : base (key a) < val a
        · have older : val b < val a := (not_lt.mp held_b).trans_lt newer
          simp [Option.filter_some, held_b, newer, older]
        · by_cases older : val b < val a
          · simp [Option.filter_some, held_b, newer, older]
          · simp [Option.filter_some, held_b, newer, older]

/-- A register holds the newest entry of its key, if that is newer than the base. -/
theorem after_eq (log : List α) (k : κ) :
    after key val base log k = (newest key val k log).filter fun a => base k < val a := by
  induction log using List.reverseRecOn generalizing k with
  | nil => rfl
  | append_singleton log a ih =>
      rw [after_concat]
      by_cases own : key a = k
      · subst own
        rw [offer_self (ih (key a)), newest_concat_self]
      · rw [newest_concat_of_ne own, ← ih k, offer]
        split_ifs
        · rw [Function.update_of_ne (Ne.symm own)]
        · rfl

theorem newest_mem {log : List α} {k : κ} {a : α} (h : newest key val k log = some a) :
    a ∈ log ∧ key a = k :=
  (KeyedLog.mem_entriesOf key).mp (List.argmax_mem h)

theorem le_newest {log : List α} {k : κ} {a b : α} (h : newest key val k log = some a)
    (member : b ∈ log) (own : key b = k) : val b ≤ val a :=
  List.le_of_mem_argmax ((KeyedLog.mem_entriesOf key).mpr ⟨member, own⟩) h

theorem newest_eq_none {log : List α} {k : κ} :
    newest key val k log = none ↔ ∀ a ∈ log, key a ≠ k := by
  rw [newest, List.argmax_eq_none]
  constructor
  · intro nothing a member own
    have listed := (KeyedLog.mem_entriesOf key).mpr ⟨member, own⟩
    rw [nothing] at listed
    cases listed
  · exact KeyedLog.entriesOf_eq_nil key

theorem newest_perm {log log' : List α} (perm : log.Perm log')
    (distinct : ∀ a ∈ log, ∀ b ∈ log, key a = key b → val a = val b → a = b) (k : κ) :
    newest key val k log = newest key val k log' := by
  cases first : newest key val k log with
  | none =>
      symm
      apply newest_eq_none.mpr
      intro a member
      exact newest_eq_none.mp first a (perm.mem_iff.mpr member)
  | some a =>
      obtain ⟨member, own⟩ := newest_mem first
      cases second : newest key val k log' with
      | none => exact absurd own (newest_eq_none.mp second a (perm.mem_iff.mp member))
      | some b =>
          obtain ⟨member', own'⟩ := newest_mem second
          have below := le_newest second (perm.mem_iff.mp member) own
          have above := le_newest first (perm.mem_iff.mpr member') own'
          exact congrArg some (distinct a member b (perm.mem_iff.mpr member')
            (own.trans own'.symm) (le_antisymm below above))

/-- The order of the offers does not matter, if no two of a key have the same version. -/
theorem after_perm {log log' : List α} (perm : log.Perm log')
    (distinct : ∀ a ∈ log, ∀ b ∈ log, key a = key b → val a = val b → a = b) :
    after key val base log = after key val base log' := by
  funext k
  rw [after_eq, after_eq, newest_perm perm distinct]

end NewestWins
