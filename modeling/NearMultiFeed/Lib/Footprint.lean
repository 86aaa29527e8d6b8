import Mathlib.Data.Set.Lattice
import Mathlib.Order.CompletePartialOrder
import NearMultiFeed.Lib.Machine

/-!
# What a step reads and writes

A state is looked at through its fields. An input reads some fields and writes
some of these: states that agree on what it reads answer it alike, and what it
does not write stays as it was. Inputs that keep out of each other's way can
then be reordered, and inputs that write nothing of interest can be left out.
-/
namespace Machine

variable {σ ι ο Field κ : Type*} {Datum : Field → Type*}

/-- The fields the inputs of a machine read and write. -/
structure Footprint (Datum : Field → Type*) (step : σ → ι → σ × ο) where
  Valid : σ → Prop
  observe : σ → (k : Field) → Datum k
  Alike : ο → ο → Prop
  reads : ι → Set Field
  writes : ι → Set Field
  alike : Equivalence Alike
  writes_subset : ∀ i, writes i ⊆ reads i
  valid_step : ∀ {s}, Valid s → ∀ i, Valid (step s i).1
  determined : ∀ {s t}, Valid s → Valid t → ∀ i,
    (∀ k ∈ reads i, observe s k = observe t k) →
    Alike (step s i).2 (step t i).2 ∧
      ∀ k ∈ writes i, observe (step s i).1 k = observe (step t i).1 k
  frame : ∀ {s}, Valid s → ∀ i, ∀ k ∉ writes i, observe (step s i).1 k = observe s k

namespace Footprint

variable {step : σ → ι → σ × ο} (P : Footprint Datum step)

/-- The states show the same in some fields. -/
def AgreeOn (fields : Set Field) (s t : σ) : Prop :=
  ∀ k ∈ fields, P.observe s k = P.observe t k

/-- Neither input writes what the other reads. -/
def Apart (i j : ι) : Prop :=
  Disjoint (P.writes i) (P.reads j) ∧ Disjoint (P.writes j) (P.reads i)

/-- An input with its answer, up to what answers may differ in. -/
def SameAnswer (a b : ι × ο) : Prop :=
  a.1 = b.1 ∧ P.Alike a.2 b.2

variable {P} {fields : Set Field} {s t : σ}

theorem AgreeOn.trans {u : σ} (h : P.AgreeOn fields s t) (h' : P.AgreeOn fields t u) :
    P.AgreeOn fields s u :=
  fun k hk => (h k hk).trans (h' k hk)

theorem sameAnswers_symm {as bs : List (ι × ο)} (h : List.Forall₂ P.SameAnswer as bs) :
    List.Forall₂ P.SameAnswer bs as := by
  induction h with
  | nil => exact List.Forall₂.nil
  | cons here _ ih => exact List.Forall₂.cons ⟨here.1.symm, P.alike.symm here.2⟩ ih

theorem sameAnswers_trans {as bs cs : List (ι × ο)} (h : List.Forall₂ P.SameAnswer as bs)
    (h' : List.Forall₂ P.SameAnswer bs cs) : List.Forall₂ P.SameAnswer as cs := by
  induction h generalizing cs with
  | nil =>
      cases h'
      exact List.Forall₂.nil
  | cons here _ ih =>
      cases h' with
      | cons here' rest' =>
          exact List.Forall₂.cons ⟨here.1.trans here'.1, P.alike.trans here.2 here'.2⟩ (ih rest')

/-- An input that reads agreed fields only is answered alike and keeps them agreed. -/
theorem step_agrees (valid : P.Valid s) (valid' : P.Valid t) (h : P.AgreeOn fields s t) {i : ι}
    (within : P.reads i ⊆ fields) :
    P.AgreeOn fields (step s i).1 (step t i).1 ∧ P.Alike (step s i).2 (step t i).2 := by
  obtain ⟨answer, written⟩ := P.determined valid valid' i fun k hk => h k (within hk)
  refine ⟨?_, answer⟩
  intro k hk
  by_cases writes : k ∈ P.writes i
  · exact written k writes
  · rw [P.frame valid i k writes, P.frame valid' i k writes]
    exact h k hk

/-- An input that writes none of the fields leaves them. -/
theorem step_aside (valid : P.Valid s) {i : ι} (aside : Disjoint (P.writes i) fields) :
    P.AgreeOn fields (step s i).1 s :=
  fun k hk => P.frame valid i k fun writes => Set.disjoint_left.mp aside writes hk

theorem run_aside (valid : P.Valid s) {is : List ι}
    (aside : ∀ i ∈ is, Disjoint (P.writes i) fields) : P.AgreeOn fields (run step s is) s := by
  have both : P.Valid (run step s is) ∧ P.AgreeOn fields (run step s is) s := by
    apply run_invariant_of (P := fun t => P.Valid t ∧ P.AgreeOn fields t s)
      (Q := fun i => Disjoint (P.writes i) fields) step
    · intro t i h writes
      exact ⟨P.valid_step h.1 i, (step_aside h.1 writes).trans h.2⟩
    · exact ⟨valid, fun _ _ => rfl⟩
    · exact aside
  exact both.2

/-- Inputs that write none of the fields can be left out: the fields, and the
answers of the inputs that read nothing else, stay. -/
theorem purge (valid : P.Valid s) (valid' : P.Valid t) (h : P.AgreeOn fields s t) {keep : ι → Bool}
    {is : List ι} (kept : ∀ i ∈ is, keep i = true → P.reads i ⊆ fields)
    (dropped : ∀ i ∈ is, keep i = false → Disjoint (P.writes i) fields) :
    P.AgreeOn fields (run step s is) (run step t (is.filter keep)) ∧
      List.Forall₂ P.SameAnswer ((trace step s is).filter fun a => keep a.1)
        (trace step t (is.filter keep)) := by
  induction is generalizing s t with
  | nil => exact ⟨h, List.Forall₂.nil⟩
  | cons i is ih =>
      have kept_rest := fun j hj => kept j (List.mem_cons_of_mem i hj)
      have dropped_rest := fun j hj => dropped j (List.mem_cons_of_mem i hj)
      cases mine : keep i with
      | true =>
          obtain ⟨next, answer⟩ := step_agrees valid valid' h (kept i List.mem_cons_self mine)
          obtain ⟨final, answers⟩ := ih (P.valid_step valid i) (P.valid_step valid' i) next
            kept_rest dropped_rest
          simp only [trace, List.filter_cons, mine, if_true]
          exact ⟨final, List.Forall₂.cons ⟨rfl, answer⟩ answers⟩
      | false =>
          have next := (step_aside valid (dropped i List.mem_cons_self mine)).trans h
          simp only [trace, List.filter_cons, mine, Bool.false_eq_true, if_false]
          exact ih (P.valid_step valid i) valid' next kept_rest dropped_rest

section Interleaving
variable [DecidableEq κ] {side : ι → κ} {is js : List ι}

/-- What one side reads. -/
def readBy (P : Footprint Datum step) (side : ι → κ) (is : List ι) (c : κ) : Set Field :=
  {k | ∃ i ∈ is, side i = c ∧ k ∈ P.reads i}

/-- A side that keeps out of the way of the others runs as if it were alone. -/
theorem alone (valid : P.Valid s)
    (apart : ∀ i ∈ is, ∀ j ∈ is, side i ≠ side j → P.Apart i j) (c : κ) :
    P.AgreeOn (readBy P side is c) (run step s is)
        (run step s (is.filter fun i => side i = c)) ∧
      List.Forall₂ P.SameAnswer ((trace step s is).filter fun a => side a.1 = c)
        (trace step s (is.filter fun i => side i = c)) := by
  apply purge valid valid (fun _ _ => rfl)
  · intro i hi mine k hk
    exact ⟨i, hi, of_decide_eq_true mine, hk⟩
  · intro j hj other
    apply Set.disjoint_left.mpr
    intro k written read
    obtain ⟨i, hi, mine, reads⟩ := read
    have differ : side j ≠ side i := by
      rw [mine]
      exact of_decide_eq_false other
    exact Set.disjoint_left.mp (apart j hj i hi differ).1 written reads

/-- The order between sides that keep out of each other's way does not matter:
each side gets the same answers, and all fields end the same. -/
theorem interleaving (valid : P.Valid s)
    (apart : ∀ i ∈ is, ∀ j ∈ is, side i ≠ side j → P.Apart i j)
    (sides : ∀ c, js.filter (fun i => side i = c) = is.filter fun i => side i = c) :
    (∀ k, P.observe (run step s js) k = P.observe (run step s is) k) ∧
      ∀ c, List.Forall₂ P.SameAnswer ((trace step s js).filter fun a => side a.1 = c)
        ((trace step s is).filter fun a => side a.1 = c) := by
  have members (i : ι) : i ∈ js ↔ i ∈ is := by
    have listed := congrArg (i ∈ ·) (sides (side i))
    simpa only [List.mem_filter, decide_true, and_true, eq_iff_iff] using listed
  have apart' : ∀ i ∈ js, ∀ j ∈ js, side i ≠ side j → P.Apart i j :=
    fun i hi j hj => apart i ((members i).mp hi) j ((members j).mp hj)
  constructor
  · intro k
    by_cases touched : ∃ i ∈ is, k ∈ P.reads i
    · obtain ⟨i, hi, reads⟩ := touched
      have here := (alone valid apart (side i)).1 k ⟨i, hi, rfl, reads⟩
      have there := (alone valid apart' (side i)).1 k ⟨i, (members i).mpr hi, rfl, reads⟩
      rw [here, there, sides (side i)]
    · have untouched {ks : List ι} (same : ∀ i ∈ ks, i ∈ is) :
          P.observe (run step s ks) k = P.observe s k := by
        have aside : ∀ i ∈ ks, Disjoint (P.writes i) {k} := by
          intro i hi
          apply Set.disjoint_singleton_right.mpr
          intro written
          exact touched ⟨i, same i hi, P.writes_subset i written⟩
        exact run_aside valid aside k rfl
      rw [untouched fun i hi => (members i).mp hi, untouched fun i hi => hi]
  · intro c
    have there := (alone valid apart' c).2
    rw [sides c] at there
    exact sameAnswers_trans there (sameAnswers_symm (alone valid apart c).2)

end Interleaving

end Footprint

end Machine
