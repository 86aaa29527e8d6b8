import Mathlib.Data.List.Forall2

/-!
# Computations that may abort

Rules for `Except`: how a sequence of steps evaluates, and what a sequence that
did not abort says about its steps.
-/
namespace Abort

variable {ε α β : Type}

@[simp] theorem ok_bind (a : α) (f : α → Except ε β) : (Except.ok a >>= f) = f a := rfl

@[simp] theorem error_bind (e : ε) (f : α → Except ε β) :
    (Except.error e >>= f) = Except.error e := rfl

@[simp] theorem pure_eq_ok (a : α) : (pure a : Except ε α) = Except.ok a := rfl

@[simp] theorem throw_eq_error (e : ε) : (throw e : Except ε α) = Except.error e := rfl

@[simp] theorem map_ok (f : α → β) (a : α) :
    (f <$> Except.ok a : Except ε β) = Except.ok (f a) := rfl

@[simp] theorem map_error (f : α → β) (e : ε) :
    (f <$> Except.error e : Except ε β) = Except.error e := rfl

theorem bind_eq_ok {x : Except ε α} {f : α → Except ε β} {b : β} :
    (x >>= f) = .ok b ↔ ∃ a, x = .ok a ∧ f a = .ok b := by
  cases x with
  | ok a => simp only [ok_bind, Except.ok.injEq, exists_eq_left']
  | error e => simp only [error_bind, reduceCtorEq, false_and, exists_false]

theorem map_eq_ok {x : Except ε α} {f : α → β} {b : β} :
    f <$> x = .ok b ↔ ∃ a, x = .ok a ∧ f a = b := by
  cases x with
  | ok a => simp only [map_ok, Except.ok.injEq, exists_eq_left']
  | error e => simp only [map_error, reduceCtorEq, false_and, exists_false]

theorem map_eq_error {x : Except ε α} {f : α → β} {e : ε} :
    f <$> x = .error e ↔ x = .error e := by
  cases x with
  | ok a => simp only [map_ok, reduceCtorEq]
  | error e' => simp only [map_error, Except.error.injEq]

/-- A list of steps that all succeed gives their results, one by one. -/
theorem mapM_eq_ok {f : α → Except ε β} {as : List α} {bs : List β} :
    as.mapM f = .ok bs ↔ List.Forall₂ (fun a b => f a = .ok b) as bs := by
  induction as generalizing bs with
  | nil =>
      rw [List.mapM_nil, pure_eq_ok, Except.ok.injEq, List.forall₂_nil_left_iff]
      exact eq_comm
  | cons a as ih =>
      simp only [List.mapM_cons, bind_eq_ok, pure_eq_ok, Except.ok.injEq, ih,
        List.forall₂_cons_left_iff]
      constructor
      · rintro ⟨b, hb, bs, hbs, rfl⟩
        exact ⟨b, bs, hb, hbs, rfl⟩
      · rintro ⟨b, bs, hb, hbs, rfl⟩
        exact ⟨b, hb, bs, hbs, rfl⟩

theorem mapM_congr {f g : α → Except ε β} {as : List α} (same : ∀ a ∈ as, f a = g a) :
    as.mapM f = as.mapM g := by
  induction as with
  | nil => rfl
  | cons a as ih =>
      rw [List.mapM_cons, List.mapM_cons, same a List.mem_cons_self,
        ih fun b hb => same b (List.mem_cons_of_mem a hb)]

/-- A list of steps fails with the error of the first one that fails. -/
theorem mapM_eq_error {f : α → Except ε β} {as : List α} {e : ε} :
    as.mapM f = .error e ↔
      ∃ i : Fin as.length, f (as.get i) = .error e ∧ ∀ j < i, ∃ b, f (as.get j) = .ok b := by
  induction as with
  | nil =>
      constructor
      · intro h
        cases h
      · rintro ⟨i, -⟩
        exact i.elim0
  | cons a as ih =>
      rw [List.mapM_cons]
      cases first : f a with
      | error e' =>
          rw [error_bind, Except.error.injEq]
          constructor
          · intro same
            exact ⟨0, by rw [← same]; exact first, fun j hj => absurd hj (Fin.not_lt_zero j)⟩
          · rintro ⟨i, failed, earlier⟩
            cases i using Fin.cases with
            | zero =>
                change f a = _ at failed
                rw [first] at failed
                exact Except.error.inj failed
            | succ i =>
                obtain ⟨b, passed⟩ := earlier 0 (Fin.succ_pos i)
                change f a = _ at passed
                rw [first] at passed
                cases passed
      | ok b =>
          have rest : (as.mapM f >>= fun bs => pure (b :: bs) : Except ε (List β)) = .error e ↔
              as.mapM f = .error e := by
            cases as.mapM f <;> simp
          rw [ok_bind, rest, ih]
          constructor
          · rintro ⟨i, failed, earlier⟩
            refine ⟨i.succ, failed, ?_⟩
            intro j hj
            cases j using Fin.cases with
            | zero => exact ⟨b, first⟩
            | succ j => exact earlier j (Fin.succ_lt_succ_iff.mp hj)
          · rintro ⟨i, failed, earlier⟩
            cases i using Fin.cases with
            | zero =>
                change f a = _ at failed
                rw [first] at failed
                cases failed
            | succ i =>
                exact ⟨i, failed, fun j hj => earlier j.succ (Fin.succ_lt_succ_iff.mpr hj)⟩

/-- A loop fails with the error of the pass that fails. -/
theorem foldlM_eq_error {σ : Type} {f : σ → α → Except ε σ} {as : List α} {init state : σ} {e : ε}
    {i : Fin as.length} (before : (as.take i).foldlM f init = .ok state)
    (failed : f state (as.get i) = .error e) : as.foldlM f init = .error e := by
  have split : as = as.take i ++ as.get i :: as.drop (i + 1) := by
    rw [List.get_eq_getElem, List.getElem_cons_drop, List.take_append_drop]
  rw [split, List.foldlM_append, before, ok_bind, List.foldlM_cons, failed, error_bind]

/-- Both abort with one error, or both give results in the relation. -/
inductive Agree (R : α → β → Prop) : Except ε α → Except ε β → Prop
  | ok {a : α} {b : β} : R a b → Agree R (.ok a) (.ok b)
  | error (e : ε) : Agree R (.error e) (.error e)

namespace Agree

variable {γ δ : Type} {R : α → β → Prop} {S : γ → δ → Prop}

/-- The results are those of the two computations. -/
theorem attach {x : Except ε α} {y : Except ε β} (h : Agree R x y) :
    Agree (fun a b => R a b ∧ x = .ok a ∧ y = .ok b) x y := by
  cases h with
  | ok related => exact .ok ⟨related, rfl, rfl⟩
  | error e => exact .error e

theorem mono {R' : α → β → Prop} {x : Except ε α} {y : Except ε β} (h : Agree R x y)
    (imp : ∀ a b, R a b → R' a b) : Agree R' x y := by
  cases h with
  | ok related => exact .ok (imp _ _ related)
  | error e => exact .error e

theorem bind {x : Except ε α} {y : Except ε β} {f : α → Except ε γ} {g : β → Except ε δ}
    (h : Agree R x y) (next : ∀ a b, R a b → Agree S (f a) (g b)) :
    Agree S (x >>= f) (y >>= g) := by
  cases h with
  | ok related => exact next _ _ related
  | error e => exact .error e

/-- After a common first step the rest decides. -/
theorem same_bind_of {x : Except ε α} {f : α → Except ε γ} {g : α → Except ε δ}
    (next : ∀ a, x = .ok a → Agree S (f a) (g a)) : Agree S (x >>= f) (x >>= g) := by
  cases x with
  | ok a => exact next a rfl
  | error e => exact .error e

theorem same_bind {x : Except ε α} {f : α → Except ε γ} {g : α → Except ε δ}
    (next : ∀ a, Agree S (f a) (g a)) : Agree S (x >>= f) (x >>= g) :=
  same_bind_of fun a _ => next a

/-- Behind the same guards the guarded parts decide: one check of what a first
step gave, then a second check that does not depend on it. -/
theorem guarded {κ : Type} {who : Except ε κ} {may : κ → Except ε Unit} {sound : Except ε Unit}
    {x : Except ε γ} {y : Except ε δ} (body : sound = .ok () → Agree S x y) :
    Agree S (who >>= fun k => may k >>= fun _ => sound >>= fun _ => x)
      (who >>= fun k => may k >>= fun _ => sound >>= fun _ => y) := by
  apply same_bind
  intro k
  apply same_bind
  intro _
  apply same_bind_of
  intro _ passed
  exact body passed

theorem map {x : Except ε α} {y : Except ε β} {f : α → γ} {g : β → δ} (h : Agree R x y)
    (image : ∀ a b, R a b → S (f a) (g b)) : Agree S (f <$> x) (g <$> y) := by
  cases h with
  | ok related => exact .ok (image _ _ related)
  | error e => exact .error e

theorem map_left {T : γ → β → Prop} {x : Except ε α} {y : Except ε β} {f : α → γ}
    (h : Agree R x y) (image : ∀ a b, R a b → T (f a) b) : Agree T (f <$> x) y := by
  cases h with
  | ok related => exact .ok (image _ _ related)
  | error e => exact .error e

theorem mapM {κ : Type} {f : κ → Except ε α} {g : κ → Except ε β} {l : List κ}
    (entry : ∀ k ∈ l, Agree R (f k) (g k)) :
    Agree (List.Forall₂ R) (l.mapM f) (l.mapM g) := by
  induction l with
  | nil => exact .ok List.Forall₂.nil
  | cons k l ih =>
      rw [List.mapM_cons, List.mapM_cons]
      apply bind (entry k List.mem_cons_self)
      intro a b here
      apply bind (ih fun j hj => entry j (List.mem_cons_of_mem k hj))
      intro as bs rest
      exact .ok (List.Forall₂.cons here rest)

end Agree

end Abort
