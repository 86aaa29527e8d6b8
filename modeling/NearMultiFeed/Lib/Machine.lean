import Mathlib.Data.List.Basic

/-!
# Deterministic machines with output

A machine answers every input with one output and a successor state. Runs are
finite input lists; the trace of a run pairs every input with its answer.
-/
namespace Machine

variable {σ τ ι ο ο' : Type*}

/-- The state after a list of inputs. -/
def run (step : σ → ι → σ × ο) : σ → List ι → σ
  | s, [] => s
  | s, i :: is => run step (step s i).1 is

/-- Every input with the output it was answered by, in order. -/
def trace (step : σ → ι → σ × ο) : σ → List ι → List (ι × ο)
  | _, [] => []
  | s, i :: is => (i, (step s i).2) :: trace step (step s i).1 is

/-- The outputs of a run, in order. -/
def outputs (step : σ → ι → σ × ο) (s : σ) (is : List ι) : List ο :=
  (trace step s is).map Prod.snd

section Runs
variable (step : σ → ι → σ × ο)

theorem run_append (s : σ) (is js : List ι) :
    run step s (is ++ js) = run step (run step s is) js := by
  induction is generalizing s with
  | nil => rfl
  | cons i is ih => exact ih (step s i).1

theorem trace_append (s : σ) (is js : List ι) :
    trace step s (is ++ js) = trace step s is ++ trace step (run step s is) js := by
  induction is generalizing s with
  | nil => rfl
  | cons i is ih =>
      simp only [List.cons_append, trace, run]
      rw [ih (step s i).1]

/-- The inputs recorded in a trace are the inputs of the run. -/
theorem map_fst_trace (s : σ) (is : List ι) : (trace step s is).map Prod.fst = is := by
  induction is generalizing s with
  | nil => rfl
  | cons i is ih => simp only [trace, List.map_cons, ih]

/-- What holds of every answer holds of the answers of a trace. -/
theorem trace_answers {P : ι → ο → Prop} (each : ∀ s i, P i (step s i).2) {s : σ} {is : List ι}
    {a : ι × ο} (ha : a ∈ trace step s is) : P a.1 a.2 := by
  induction is generalizing s with
  | nil => cases ha
  | cons i is ih =>
      rcases List.mem_cons.mp ha with here | later
      · rw [here]
        exact each s i
      · exact ih later

/-- A property every step allowed by `Q` keeps is kept by runs of such steps. -/
theorem run_invariant_of {P : σ → Prop} {Q : ι → Prop}
    (keeps : ∀ s i, P s → Q i → P (step s i).1) {s : σ} (start : P s) {is : List ι}
    (allowed : ∀ i ∈ is, Q i) : P (run step s is) := by
  induction is generalizing s with
  | nil => exact start
  | cons i is ih =>
      have next := keeps s i start (allowed i List.mem_cons_self)
      exact ih next (fun j hj => allowed j (List.mem_cons_of_mem i hj))

theorem run_invariant {P : σ → Prop} (keeps : ∀ s i, P s → P (step s i).1) {s : σ}
    (start : P s) (is : List ι) : P (run step s is) :=
  run_invariant_of (Q := fun _ => True) step (fun s i h _ => keeps s i h) start
    (fun _ _ => trivial)

/-- An invariant between the state and the whole history that led to it. The
history a run starts with is arbitrary, so a run may continue an earlier one. -/
theorem history_invariant {P : σ → List (ι × ο) → Prop}
    (keeps : ∀ s past i, P s past → P (step s i).1 (past ++ [(i, (step s i).2)]))
    {s : σ} {past : List (ι × ο)} (start : P s past) (is : List ι) :
    P (run step s is) (past ++ trace step s is) := by
  induction is generalizing s past with
  | nil => simpa only [run, trace, List.append_nil] using start
  | cons i is ih =>
      have next := ih (keeps s past i start)
      simpa only [run, trace, List.append_assoc, List.singleton_append] using next

/-- Two runs, one of which skips the inputs that are not kept. -/
theorem run_filter {R : σ → σ → Prop} {keep : ι → Bool}
    (both : ∀ s t i, R s t → keep i = true → R (step s i).1 (step t i).1)
    (alone : ∀ s t i, R s t → keep i = false → R (step s i).1 t) {s t : σ} (start : R s t)
    (is : List ι) : R (run step s is) (run step t (is.filter keep)) := by
  induction is generalizing s t with
  | nil => exact start
  | cons i is ih =>
      cases kept : keep i with
      | true =>
          rw [List.filter_cons_of_pos kept]
          exact ih (both s t i start kept)
      | false =>
          rw [List.filter_cons_of_neg (by rw [kept]; exact Bool.false_ne_true)]
          exact ih (alone s t i start kept)

end Runs

section Lockstep
variable {step : σ → ι → σ × ο}

/-- Two machines in a relation every step keeps give answers related one by one. -/
theorem lockstep {step' : τ → ι → τ × ο'} {R : σ → τ → Prop} {A : ο → ο' → Prop}
    (keeps : ∀ s t i, R s t → R (step s i).1 (step' t i).1 ∧ A (step s i).2 (step' t i).2)
    {s : σ} {t : τ} (start : R s t) (is : List ι) :
    R (run step s is) (run step' t is) ∧
      List.Forall₂ A (outputs step s is) (outputs step' t is) := by
  induction is generalizing s t with
  | nil => exact ⟨start, List.Forall₂.nil⟩
  | cons i is ih =>
      obtain ⟨next, answers⟩ := keeps s t i start
      obtain ⟨final, rest⟩ := ih next
      exact ⟨final, List.Forall₂.cons answers rest⟩

/-- Lockstep over inputs of one kind, with equal answers. -/
theorem lockstep_eq_of {step' : τ → ι → τ × ο} {R : σ → τ → Prop} {Q : ι → Prop}
    (keeps : ∀ s t i, R s t → Q i →
      R (step s i).1 (step' t i).1 ∧ (step s i).2 = (step' t i).2)
    {s : σ} {t : τ} (start : R s t) {is : List ι} (allowed : ∀ i ∈ is, Q i) :
    R (run step s is) (run step' t is) ∧ outputs step s is = outputs step' t is := by
  induction is generalizing s t with
  | nil => exact ⟨start, rfl⟩
  | cons i is ih =>
      obtain ⟨next, answer⟩ := keeps s t i start (allowed i List.mem_cons_self)
      obtain ⟨final, rest⟩ := ih next (fun j hj => allowed j (List.mem_cons_of_mem i hj))
      refine ⟨final, ?_⟩
      simp only [outputs, trace, List.map_cons] at rest ⊢
      rw [answer, rest]

end Lockstep

end Machine
