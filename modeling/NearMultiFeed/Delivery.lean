import NearMultiFeed.Footprints
import NearMultiFeed.Lib.NewestWins

/-!
# Reports delivered in any order

Reporters send one entry a call, and the chain executes their calls, mixed with any
others but `set_price_reporters`, in some order. Some reports are then refused that
another order would have let through. Every feed still ends at its newest admissible
report. With two entries a call this fails: one of them can take the other down.
-/
namespace NearMultiFeed

/-- A report of at most one entry, or another call but `set_price_reporters`. -/
def Call.Solo {AccountId : Type} : Call AccountId → Prop
  | .f updates => updates.length ≤ 1
  | .setPriceReporters _ => False
  | _ => True

namespace MultiFeed

variable {Feeds Roles Callers AccountId : Type} [DecidableEq AccountId]
  [LookupMap Feeds UInt32 StoredFeed] [LookupSet Roles AccountId]
  [IterableSet Callers AccountId]

section Reports
variable (s : MultiFeed Feeds Roles Callers AccountId)

/-- A report passes all checks but the one against the stored timestamp. -/
def Admissible (ctx : VMContext AccountId) (u : FeedUpdate) : Prop :=
  (∃ caller ∈ ctx.predecessor, s.isPriceReporter caller = true) ∧ ctx.deposit = 0 ∧
    u.aggTs.toNat < (blockSecond ctx).toNat + 60

instance (ctx : VMContext AccountId) (u : FeedUpdate) : Decidable (s.Admissible ctx u) :=
  inferInstanceAs (Decidable (_ ∧ _ ∧ _))

/-- What a call would write to a feed with an older timestamp. -/
def reportOfCall (tx : Transaction AccountId) : Option Write :=
  match tx.call with
  | .f [u] => if s.Admissible tx.ctx u then some (u.write (blockSecond tx.ctx)) else none
  | _ => none

/-- The admissible reports among some calls. -/
def reports (txs : List (Transaction AccountId)) : List Write := txs.filterMap s.reportOfCall

end Reports

section Delivery
variable {s t : MultiFeed Feeds Roles Callers AccountId} {offers : List Write}

/-- The feeds of `t` hold what registers that start at those of `s` hold after the
offers, and the reporters are those of `s`. -/
structure Tracks (s : MultiFeed Feeds Roles Callers AccountId) (offers : List Write)
    (t : MultiFeed Feeds Roles Callers AccountId) : Prop where
  wellFormed : WellFormed t
  reporters : ∀ a, t.isPriceReporter a = s.isPriceReporter a
  small : ∀ w ∈ offers, w.version < 2 ^ 48
  feeds : ∀ id, LookupMap.get t.feeds id =
    ((NewestWins.after Write.feedId Write.version (prevVersion s.feeds) offers id).map
      fun w => w.feed.persisted).or (LookupMap.get s.feeds id)

omit [DecidableEq AccountId] [IterableSet Callers AccountId] in
/-- The timestamp `f` compares with is the version of the register. -/
theorem Tracks.version (h : Tracks s offers t) (id : UInt32) :
    prevVersion t.feeds id = NewestWins.version Write.version (prevVersion s.feeds)
      (NewestWins.after Write.feedId Write.version (prevVersion s.feeds) offers) id := by
  rw [prevVersion, prevAggTs, h.feeds id, NewestWins.version]
  cases held : NewestWins.after Write.feedId Write.version (prevVersion s.feeds) offers id with
  | none => rfl
  | some w =>
      rw [NewestWins.after_eq, Option.filter_eq_some_iff] at held
      have small := h.small w (NewestWins.newest_mem held.1).1
      have kept : w.feed.persisted.aggTs = w.feed.aggTs := StoredFeed.persisted_aggTs_eq small
      rw [Option.map_some, Option.some_or, Option.map_some, kept]
      rfl

/-- A call that does not go through leaves the state. -/
theorem step_idle {tx : Transaction AccountId}
    (refused : ¬ ∃ value events, (t.step tx).2 = .success value events) : (t.step tx).1 = t := by
  cases outcome : (t.step tx).2 with
  | success value events => exact absurd ⟨value, events, outcome⟩ refused
  | failure message => exact step_refused outcome

/-- A call that does not report changes no feed and no reporter. -/
theorem Tracks.other (h : Tracks s offers t) {tx : Transaction AccountId}
    (feeds : ∀ id, .feed id ∉ tx.call.writes)
    (reporters : ∀ a, .member .priceReporter a ∉ tx.call.writes) :
    Tracks s offers (t.step tx).1 where
  wellFormed := h.wellFormed.step tx
  reporters a := (step_frame h.wellFormed tx _ (reporters a)).trans (h.reporters a)
  small := h.small
  feeds id := (step_frame h.wellFormed tx _ (feeds id)).trans (h.feeds id)

omit [DecidableEq AccountId] [IterableSet Callers AccountId] [LookupSet Roles AccountId] in
theorem accepts_single {now : UInt64} {u : FeedUpdate} :
    Accepts t.feeds now [u] ↔
      prevVersion t.feeds u.feedId < u.version ∧ u.aggTs.toNat < now.toNat + 60 := by
  have nothing_left (feeds : Feeds) : Accepts feeds now [] :=
    ⟨KeyedLog.chained_nil _ _ _ _, fun v none_left => absurd none_left List.not_mem_nil⟩
  rw [accepts_cons]
  exact and_iff_left (nothing_left _)

/-- When a call with one entry goes through. -/
theorem Tracks.accepts_iff (h : Tracks s offers t) (ctx : VMContext AccountId) (u : FeedUpdate) :
    (∃ value events, (t.step ⟨ctx, .f [u]⟩).2 = .success value events) ↔
      s.Admissible ctx u ∧ prevVersion t.feeds u.feedId < u.version := by
  simp only [step_f, accepts_single, Admissible, h.reporters]
  constructor
  · intro went
    obtain ⟨_, _, reporter, free, -, ⟨newer, near⟩, -⟩ := went
    exact ⟨⟨reporter, free, near⟩, newer⟩
  · intro good
    obtain ⟨⟨reporter, free, near⟩, newer⟩ := good
    exact ⟨_, _, reporter, free, List.cons_ne_nil u [], ⟨newer, near⟩, rfl, rfl⟩

/-- A report is an offer if it is admissible, and is refused otherwise. -/
theorem Tracks.report (h : Tracks s offers t) (ctx : VMContext AccountId) (u : FeedUpdate) :
    Tracks s (offers ++ (s.reportOfCall ⟨ctx, .f [u]⟩).toList) (t.step ⟨ctx, .f [u]⟩).1 := by
  let tx : Transaction AccountId := ⟨ctx, .f [u]⟩
  have reporters (a : AccountId) : (t.step tx).1.isPriceReporter a = s.isPriceReporter a :=
    (step_frame h.wellFormed tx (.member .priceReporter a) (by
      intro written
      obtain ⟨_, -, wrong⟩ := written
      cases wrong)).trans (h.reporters a)
  by_cases admissible : s.Admissible ctx u
  · have offered : s.reportOfCall tx = some (u.write (blockSecond ctx)) := if_pos admissible
    have early := blockSecond_lt ctx
    have near := admissible.2.2
    rw [offered]
    refine ⟨h.wellFormed.step tx, reporters, ?_, ?_⟩
    · intro w listed
      rcases List.mem_append.mp listed with old | new
      · exact h.small w old
      · rw [List.mem_singleton.mp new]
        change u.aggTs.toNat < 2 ^ 48
        omega
    · intro id
      rw [Option.toList_some, NewestWins.after_concat, NewestWins.offer, ← h.version]
      by_cases newer : prevVersion t.feeds u.feedId < u.version
      · obtain ⟨value, events, went⟩ := (h.accepts_iff ctx u).mpr ⟨admissible, newer⟩
        let w := u.write (blockSecond ctx)
        have taken : prevVersion t.feeds w.feedId < w.version := newer
        rw [if_pos taken, step_f_next went]
        change LookupMap.get (LookupMap.flush (insertAll t.feeds [w])) id = _
        rw [get_flush_insertAll, h.wellFormed.flushed, h.feeds id]
        by_cases own : w.feedId = id
        · subst own
          rw [Function.update_self, KeyedLog.latest_cons_self]
          rfl
        · rw [Function.update_of_ne (Ne.symm own), KeyedLog.latest_cons_of_ne Write.feedId own]
          rfl
      · have stale : ¬ prevVersion t.feeds (u.write (blockSecond ctx)).feedId <
            (u.write (blockSecond ctx)).version := newer
        rw [if_neg stale, ← h.feeds id]
        apply congrArg fun s : MultiFeed Feeds Roles Callers AccountId => LookupMap.get s.feeds id
        apply step_idle
        intro went
        exact newer ((h.accepts_iff ctx u).mp went).2
  · have nothing : s.reportOfCall tx = none := if_neg admissible
    have refused : (t.step tx).1 = t := by
      apply step_idle
      intro went
      exact admissible ((h.accepts_iff ctx u).mp went).1
    rw [nothing, Option.toList_none, List.append_nil, refused]
    exact h

theorem Tracks.step (h : Tracks s offers t) {tx : Transaction AccountId}
    (solo : tx.call.Solo) : Tracks s (offers ++ (s.reportOfCall tx).toList) (t.step tx).1 := by
  obtain ⟨ctx, call⟩ := tx
  -- a call that is no report is no offer either
  have quiet (none_made : s.reportOfCall ⟨ctx, call⟩ = none) (feeds : ∀ id, .feed id ∉ call.writes)
      (reporters : ∀ a, .member .priceReporter a ∉ call.writes) :
      Tracks s (offers ++ (s.reportOfCall ⟨ctx, call⟩).toList) (t.step ⟨ctx, call⟩).1 := by
    rw [none_made, Option.toList_none, List.append_nil]
    exact h.other feeds reporters
  cases call with
  | f us =>
      match us, solo with
      | [], _ => exact quiet rfl (by simp [Call.writes]) (by simp [Call.writes])
      | [u], _ => exact h.report ctx u
  | setPriceReporters => exact absurd solo id
  | _ => exact quiet rfl (by simp [Call.writes, memberFields]) (by simp [Call.writes, memberFields])

theorem Tracks.run (wf : WellFormed s) {txs : List (Transaction AccountId)}
    (solo : ∀ tx ∈ txs, tx.call.Solo) : Tracks s (s.reports txs) (s.run txs) := by
  induction txs using List.reverseRecOn with
  | nil =>
      exact ⟨wf, fun _ => rfl, fun _ none_yet => absurd none_yet List.not_mem_nil, fun _ => rfl⟩
  | append_singleton txs tx ih =>
      have before := ih fun tx' earlier => solo tx' (List.mem_append_left _ earlier)
      have last := solo tx (List.mem_append_right _ (List.mem_singleton.mpr rfl))
      have whole : s.reports (txs ++ [tx]) = s.reports txs ++ (s.reportOfCall tx).toList := by
        rw [reports, List.filterMap_append, reports]
        cases made : s.reportOfCall tx <;> simp [made]
      rw [whole, MultiFeed.run, Machine.run_append]
      exact before.step last

/-- With one entry a report, every feed ends at the newest admissible entry for it, the
first of several, if that is newer than what the feed held; and if no two different ones
are of the same time, delivering the calls in another order leaves the same feeds. -/
theorem newest_report_wins (reachable : Reachable s) {txs : List (Transaction AccountId)}
    (solo : ∀ tx ∈ txs, tx.call.Solo) :
    (∀ id, LookupMap.get (s.run txs).feeds id =
      (((NewestWins.newest Write.feedId Write.version id (s.reports txs)).filter
        fun w => prevVersion s.feeds id < w.version).map fun w => w.feed.persisted).or
          (LookupMap.get s.feeds id)) ∧
    ((∀ w ∈ s.reports txs, ∀ w' ∈ s.reports txs, w.feedId = w'.feedId →
        w.version = w'.version → w = w') →
      ∀ txs', txs.Perm txs' → ∀ id,
        LookupMap.get (s.run txs').feeds id = LookupMap.get (s.run txs).feeds id) := by
  have tracked := Tracks.run reachable.wellFormed solo
  constructor
  · intro id
    rw [tracked.feeds id, NewestWins.after_eq]
  · intro distinct txs' perm id
    have solo' : ∀ tx ∈ txs', tx.call.Solo := fun tx htx => solo tx (perm.mem_iff.mpr htx)
    have same : NewestWins.after Write.feedId Write.version (prevVersion s.feeds) (s.reports txs) =
        NewestWins.after Write.feedId Write.version (prevVersion s.feeds) (s.reports txs') :=
      NewestWins.after_perm (perm.filterMap s.reportOfCall) distinct
    rw [tracked.feeds id, (Tracks.run reachable.wellFormed solo').feeds id, same]

end Delivery

theorem newest_report_wins_sample :
    let txs := [reportAt 160 [⟨42, 7, 100⟩], ⟨⟨some "admin.near", 1, 0⟩, .setPaused true⟩,
      reportAt 161 [⟨42, 8, 105⟩], reportAt 162 [⟨42, 9, 90⟩]]
    LookupMap.get (sample.run txs).feeds 42 = some ⟨8, 105, 161⟩ ∧
      LookupMap.get (sample.run txs.reverse).feeds 42 =
        LookupMap.get (sample.run txs).feeds 42 := by
  intro txs
  have solo : ∀ tx ∈ txs, tx.call.Solo := by
    intro tx htx
    simp only [txs, List.mem_cons, List.not_mem_nil, or_false] at htx
    rcases htx with rfl | rfl | rfl | rfl
    · exact Nat.le_refl 1
    · exact trivial
    · exact Nat.le_refl 1
    · exact Nat.le_refl 1
  have offered : sample.reports txs =
      [⟨42, ⟨7, 100, 160⟩⟩, ⟨42, ⟨8, 105, 161⟩⟩, ⟨42, ⟨9, 90, 162⟩⟩] := by decide +kernel
  obtain ⟨ends, reordered⟩ := newest_report_wins sample_reachable solo
  rw [offered] at reordered
  refine ⟨?_, reordered (by decide) txs.reverse (List.reverse_perm txs).symm 42⟩
  rw [ends 42, offered]
  decide +kernel

end MultiFeed

end NearMultiFeed
