import Mathlib.Data.List.Infix
import NearMultiFeed.Lib.Machine

/-!
# Calls answered through promises

A client asks a server and is called back with what the server returned. Asking,
the execution by the server and the callback are separate moves. Between them
anything may happen: others call the server, and other requests are made,
executed and answered, in any order. Every answered request was executed at one
moment between the two, on the server as it was then.
-/
namespace Promises

/-- What one request has come to. -/
inductive Phase (δ ρ α : Type) where
  | sent (data : δ)
  | returned (data : δ) (result : ρ)
  | answered (data : δ) (answer : α)

/-- The two parties: `serve` is a call of someone else, `ask` what a method of the
client sends, `execute` a request at the server, `callback` the end of a request
at the client. The last two depend on the circumstances they meet. -/
structure Protocol (σ ι ο κ π δ ε ρ α : Type) where
  serve : σ → ι → σ × ο
  ask : κ → Except π δ
  execute : σ → δ → ε → σ × ρ
  callback : δ → ρ → ε → α

/-- The server, and every request made so far under its number. -/
structure System (σ δ ρ α : Type) where
  server : σ
  requests : List (Phase δ ρ α)

inductive Move (ι κ ε : Type) where
  | serve (input : ι)
  | ask (method : κ)
  | execute (request : ℕ) (circumstances : ε)
  | callback (request : ℕ) (circumstances : ε)

inductive Reply (ο π α : Type) where
  | served (output : ο)
  | refused (reason : π)
  | asked (request : ℕ)
  | executed (request : ℕ)
  | answered (request : ℕ) (answer : α)
  | idle

variable {σ ι ο κ π δ ε ρ α : Type}

/-- No request yet. -/
def start (server : σ) : System σ δ ρ α := ⟨server, []⟩

/-- A request is executed once, after it was sent, and answered once, after that. -/
def step (P : Protocol σ ι ο κ π δ ε ρ α) (s : System σ δ ρ α) :
    Move ι κ ε → System σ δ ρ α × Reply ο π α
  | .serve i => ({ s with server := (P.serve s.server i).1 }, .served (P.serve s.server i).2)
  | .ask k =>
    match P.ask k with
    | .error p => (s, .refused p)
    | .ok d => ({ s with requests := s.requests ++ [.sent d] }, .asked s.requests.length)
  | .execute u e =>
    match s.requests[u]? with
    | some (.sent d) =>
      ({ server := (P.execute s.server d e).1
         requests := s.requests.set u (.returned d (P.execute s.server d e).2) }, .executed u)
    | _ => (s, .idle)
  | .callback u e =>
    match s.requests[u]? with
    | some (.returned d r) =>
      ({ s with requests := s.requests.set u (.answered d (P.callback d r e)) },
        .answered u (P.callback d r e))
    | _ => (s, .idle)

abbrev run (P : Protocol σ ι ο κ π δ ε ρ α) : System σ δ ρ α → List (Move ι κ ε) → System σ δ ρ α :=
  Machine.run (step P)

abbrev trace (P : Protocol σ ι ο κ π δ ε ρ α) :
    System σ δ ρ α → List (Move ι κ ε) → List (Move ι κ ε × Reply ο π α) :=
  Machine.trace (step P)

/-! ## One move -/

section Steps
variable (P : Protocol σ ι ο κ π δ ε ρ α)

/-- Everything a move can do. -/
inductive Change (s : System σ δ ρ α) : Move ι κ ε → System σ δ ρ α → Reply ο π α → Prop
  | serve (i : ι) : Change s (.serve i) { s with server := (P.serve s.server i).1 }
      (.served (P.serve s.server i).2)
  | refuse {k : κ} {p : π} : P.ask k = .error p → Change s (.ask k) s (.refused p)
  | ask {k : κ} {d : δ} : P.ask k = .ok d →
      Change s (.ask k) { s with requests := s.requests ++ [.sent d] } (.asked s.requests.length)
  | execute {u : ℕ} {d : δ} (e : ε) : s.requests[u]? = some (.sent d) →
      Change s (.execute u e)
        { server := (P.execute s.server d e).1
          requests := s.requests.set u (.returned d (P.execute s.server d e).2) } (.executed u)
  | callback {u : ℕ} {d : δ} {r : ρ} (e : ε) : s.requests[u]? = some (.returned d r) →
      Change s (.callback u e)
        { s with requests := s.requests.set u (.answered d (P.callback d r e)) }
        (.answered u (P.callback d r e))
  | tooEarlyOrLate {u : ℕ} {e : ε} : (∀ d, s.requests[u]? ≠ some (.sent d)) →
      Change s (.execute u e) s .idle
  | notReturned {u : ℕ} {e : ε} : (∀ d r, s.requests[u]? ≠ some (.returned d r)) →
      Change s (.callback u e) s .idle

theorem step_change (s : System σ δ ρ α) (m : Move ι κ ε) :
    Change P s m (step P s m).1 (step P s m).2 := by
  cases m with
  | serve i => exact .serve i
  | ask k =>
      rw [step]
      cases asked : P.ask k with
      | error p => exact .refuse asked
      | ok d => exact .ask asked
  | execute u e =>
      rw [step]
      cases phase : s.requests[u]? with
      | none => exact .tooEarlyOrLate fun d' => by rw [phase]; simp
      | some here =>
          cases here with
          | sent d => exact .execute e phase
          | returned d r => exact .tooEarlyOrLate fun d' => by rw [phase]; simp
          | answered d a => exact .tooEarlyOrLate fun d' => by rw [phase]; simp
  | callback u e =>
      rw [step]
      cases phase : s.requests[u]? with
      | none => exact .notReturned fun d' r' => by rw [phase]; simp
      | some here =>
          cases here with
          | sent d => exact .notReturned fun d' r' => by rw [phase]; simp
          | returned d r => exact .callback e phase
          | answered d a => exact .notReturned fun d' r' => by rw [phase]; simp

/-- What a move does to one request. -/
inductive PhaseChange (s : System σ δ ρ α) (u : ℕ) :
    Move ι κ ε → Option (Phase δ ρ α) → Option (Phase δ ρ α) → Prop
  | same {m : Move ι κ ε} (phase : Option (Phase δ ρ α)) : PhaseChange s u m phase phase
  | sent {k : κ} {d : δ} : P.ask k = .ok d → s.requests.length = u →
      PhaseChange s u (.ask k) none (some (.sent d))
  | returned (d : δ) (e : ε) : PhaseChange s u (.execute u e) (some (.sent d))
      (some (.returned d (P.execute s.server d e).2))
  | answered (d : δ) (r : ρ) (e : ε) : PhaseChange s u (.callback u e) (some (.returned d r))
      (some (.answered d (P.callback d r e)))

theorem phase_change (s : System σ δ ρ α) (u : ℕ) (m : Move ι κ ε) :
    PhaseChange P s u m s.requests[u]? (step P s m).1.requests[u]? := by
  have change := step_change P s m
  generalize (step P s m).1 = next, (step P s m).2 = reply at change
  -- the other requests stay where they are
  have elsewhere {v : ℕ} {phase : Phase δ ρ α} (hv : v ≠ u) :
      (s.requests.set v phase)[u]? = s.requests[u]? := List.getElem?_set_ne hv
  cases change with
  | serve i => exact .same _
  | refuse => exact .same _
  | @ask k d asked =>
      change PhaseChange P s u (.ask k) _ (s.requests ++ [.sent d])[u]?
      rcases Nat.lt_trichotomy u s.requests.length with before | here | after
      · rw [List.getElem?_append_left before]
        exact .same _
      · subst here
        rw [List.getElem?_eq_none (Nat.le_refl _), List.getElem?_concat_length]
        exact .sent asked rfl
      · have beyond : (s.requests ++ [Phase.sent d]).length ≤ u := by
          rw [List.length_append, List.length_singleton]
          exact after
        rw [List.getElem?_eq_none after.le, List.getElem?_eq_none beyond]
        exact .same _
  | @execute v d e phase =>
      change PhaseChange P s u (.execute v e) _ (s.requests.set v _)[u]?
      by_cases here : v = u
      · subst here
        obtain ⟨bound, -⟩ := List.getElem?_eq_some_iff.mp phase
        rw [List.getElem?_set_self bound, phase]
        exact .returned d e
      · rw [elsewhere here]
        exact .same _
  | @callback v d r e phase =>
      change PhaseChange P s u (.callback v e) _ (s.requests.set v _)[u]?
      by_cases here : v = u
      · subst here
        obtain ⟨bound, -⟩ := List.getElem?_eq_some_iff.mp phase
        rw [List.getElem?_set_self bound, phase]
        exact .answered d r e
      · rw [elsewhere here]
        exact .same _
  | tooEarlyOrLate => exact .same _
  | notReturned => exact .same _

end Steps

/-! ## Requests over runs -/

/-- How far a request has come. -/
def progress : Option (Phase δ ρ α) → ℕ
  | none => 0
  | some (.sent _) => 1
  | some (.returned _ _) => 2
  | some (.answered _ _) => 3

section Runs
variable (P : Protocol σ ι ο κ π δ ε ρ α)

theorem run_concat (s : System σ δ ρ α) (ms : List (Move ι κ ε)) (m : Move ι κ ε) :
    run P s (ms ++ [m]) = (step P (run P s ms) m).1 :=
  Machine.run_append (step P) s ms [m]

theorem progress_step (s : System σ δ ρ α) (u : ℕ) (m : Move ι κ ε) :
    progress s.requests[u]? ≤ progress (step P s m).1.requests[u]? := by
  have change := phase_change P s u m
  generalize s.requests[u]? = old, (step P s m).1.requests[u]? = new at change
  cases change with
  | same => exact Nat.le_refl _
  | sent => exact Nat.zero_le 1
  | returned => exact Nat.le_succ 1
  | answered => exact Nat.le_succ 2

/-- No request ever goes back. -/
theorem progress_run (s : System σ δ ρ α) (u : ℕ) (ms : List (Move ι κ ε)) :
    progress s.requests[u]? ≤ progress (run P s ms).requests[u]? := by
  induction ms generalizing s with
  | nil => exact Nat.le_refl _
  | cons m ms ih => exact (progress_step P s u m).trans (ih (step P s m).1)

theorem progress_of_earlier (s : System σ δ ρ α) (u : ℕ) {ms ms' : List (Move ι κ ε)}
    (h : ms <+: ms') :
    progress (run P s ms).requests[u]? ≤ progress (run P s ms').requests[u]? := by
  obtain ⟨more, rfl⟩ := h
  rw [show run P s (ms ++ more) = run P (run P s ms) more from Machine.run_append _ s ms more]
  exact progress_run P (run P s ms) u more

/-- Of two moments of one run, the one at which a request is behind comes first. -/
theorem earlier_of_progress_lt {s : System σ δ ρ α} {u : ℕ} {ms ms' all : List (Move ι κ ε)}
    (h : ms <+: all) (h' : ms' <+: all)
    (behind : progress (run P s ms).requests[u]? < progress (run P s ms').requests[u]?) :
    ms <+: ms' := by
  rcases List.prefix_or_prefix_of_prefix h h' with first | second
  · exact first
  · exact absurd behind (Nat.not_lt.mpr (progress_of_earlier P s u second))

variable {server : σ} {ms : List (Move ι κ ε)} {u : ℕ}

/-- A request was asked for when it was the next number. -/
theorem sent_origin {d : δ} (h : (run P (start server) ms).requests[u]? = some (.sent d)) :
    ∃ asking k, asking ++ [.ask k] <+: ms ∧ P.ask k = .ok d ∧
      (run P (start server) asking).requests.length = u := by
  induction ms using List.reverseRecOn with
  | nil => simp [start, Machine.run] at h
  | append_singleton ms m ih =>
      have change := phase_change P (run P (start server) ms) u m
      rw [← run_concat, h] at change
      generalize old_eq : (run P (start server) ms).requests[u]? = old at change
      cases change with
      | same =>
          obtain ⟨asking, k, earlier, asked, number⟩ := ih old_eq
          exact ⟨asking, k, earlier.trans (List.prefix_append ms [m]), asked, number⟩
      | @sent k _ asked number => exact ⟨ms, k, List.prefix_rfl, asked, number⟩

/-- What came back is what the server made of the request at one moment. -/
theorem returned_origin {d : δ} {r : ρ}
    (h : (run P (start server) ms).requests[u]? = some (.returned d r)) :
    ∃ running e, running ++ [.execute u e] <+: ms ∧
      (run P (start server) running).requests[u]? = some (.sent d) ∧
      r = (P.execute (run P (start server) running).server d e).2 := by
  induction ms using List.reverseRecOn with
  | nil => simp [start, Machine.run] at h
  | append_singleton ms m ih =>
      have change := phase_change P (run P (start server) ms) u m
      rw [← run_concat, h] at change
      generalize old_eq : (run P (start server) ms).requests[u]? = old at change
      cases change with
      | same =>
          obtain ⟨running, e, earlier, pending, result⟩ := ih old_eq
          exact ⟨running, e, earlier.trans (List.prefix_append ms [m]), pending, result⟩
      | returned _ e => exact ⟨ms, e, List.prefix_rfl, old_eq, rfl⟩

/-- An answer is the callback of what came back. -/
theorem answered_origin {d : δ} {a : α}
    (h : (run P (start server) ms).requests[u]? = some (.answered d a)) :
    ∃ answering r e, answering ++ [.callback u e] <+: ms ∧
      (run P (start server) answering).requests[u]? = some (.returned d r) ∧
      a = P.callback d r e := by
  induction ms using List.reverseRecOn with
  | nil => simp [start, Machine.run] at h
  | append_singleton ms m ih =>
      have change := phase_change P (run P (start server) ms) u m
      rw [← run_concat, h] at change
      generalize old_eq : (run P (start server) ms).requests[u]? = old at change
      cases change with
      | same =>
          obtain ⟨answering, r, e, earlier, back, answer⟩ := ih old_eq
          exact ⟨answering, r, e, earlier.trans (List.prefix_append ms [m]), back, answer⟩
      | answered _ r e => exact ⟨ms, r, e, List.prefix_rfl, old_eq, rfl⟩

/-- The three moments of an answered request, as the moves made before each. -/
inductive Timeline (server : σ) (ms : List (Move ι κ ε)) (u : ℕ) (d : δ) (a : α) : Prop
  | intro {asking running answering : List (Move ι κ ε)} {k : κ} {e e' : ε} :
      asking ++ [.ask k] <+: running → running ++ [.execute u e] <+: answering →
      answering ++ [.callback u e'] <+: ms → P.ask k = .ok d →
      (run P (start server) asking).requests.length = u →
      (run P (start server) running).requests[u]? = some (.sent d) →
      a = P.callback d (P.execute (run P (start server) running).server d e).2 e' →
      Timeline server ms u d a

/-- Every answered request has one moment of execution, between asking and answering. -/
theorem timeline {d : δ} {a : α}
    (h : (run P (start server) ms).requests[u]? = some (.answered d a)) :
    Timeline P server ms u d a := by
  obtain ⟨answering, r, e', last, back, answer⟩ := answered_origin P h
  obtain ⟨running, e, middle, pending, result⟩ := returned_origin P back
  obtain ⟨asking, k, first, asked, number⟩ := sent_origin P pending
  rw [result] at answer
  exact .intro first middle last asked number pending answer

/-- A request that was not yet made at some moment was executed after it. -/
theorem execution_after {d : δ} {a : α} {before : List (Move ι κ ε)} (earlier : before <+: ms)
    (unasked : (run P (start server) before).requests.length ≤ u)
    (h : (run P (start server) ms).requests[u]? = some (.answered d a)) :
    ∃ running answering e e', before <+: running ∧ running ++ [.execute u e] <+: answering ∧
      answering ++ [.callback u e'] <+: ms ∧
      (run P (start server) running).requests[u]? = some (.sent d) ∧
      a = P.callback d (P.execute (run P (start server) running).server d e).2 e' := by
  obtain ⟨-, middle, last, -, -, pending, answer⟩ := timeline P h
  rename_i running answering k e e'
  refine ⟨running, answering, e, e', ?_, middle, last, pending, answer⟩
  have within : running <+: ms := (List.prefix_append running _).trans
    (middle.trans ((List.prefix_append answering _).trans last))
  apply earlier_of_progress_lt P earlier within
  rw [List.getElem?_eq_none unasked, pending]
  exact Nat.zero_lt_one

end Runs

/-! ## The calls of others -/

/-- The calls of others, with what they were answered. -/
def servedCall : Move ι κ ε × Reply ο π α → Option (ι × ο)
  | (.serve i, .served o) => some (i, o)
  | _ => none

def servedInput : Move ι κ ε → Option ι
  | .serve i => some i
  | _ => none

/-- Requests that leave the server as it was are invisible to everyone else: the
server is where the others' calls take it, and they are answered as without them. -/
theorem served_calls (P : Protocol σ ι ο κ π δ ε ρ α) (leaves : ∀ s d e, (P.execute s d e).1 = s)
    (s : System σ δ ρ α) (ms : List (Move ι κ ε)) :
    (run P s ms).server = Machine.run P.serve s.server (ms.filterMap servedInput) ∧
    (trace P s ms).filterMap servedCall =
      Machine.trace P.serve s.server (ms.filterMap servedInput) := by
  induction ms generalizing s with
  | nil => exact ⟨rfl, rfl⟩
  | cons m ms ih =>
      have rest := ih (step P s m).1
      have change := step_change P s m
      have run_eq : run P s (m :: ms) = run P (step P s m).1 ms := rfl
      have trace_eq : trace P s (m :: ms) = (m, (step P s m).2) :: trace P (step P s m).1 ms := rfl
      rw [run_eq, trace_eq, List.filterMap_cons, List.filterMap_cons]
      generalize (step P s m).1 = next, (step P s m).2 = reply at change rest ⊢
      cases change with
      | serve i =>
          refine ⟨rest.1, ?_⟩
          exact congrArg _ rest.2
      | @execute _ d e =>
          rw [leaves] at rest ⊢
          exact rest
      | _ => exact rest

end Promises
