import NearMultiFeed.Codec
import NearMultiFeed.Lib.KeyedLog
import NearMultiFeed.Runtime

/-!
# The loop of `f`

A batch is accepted exactly when its timestamps ascend under every feed id,
from the timestamp stored for it, and stay below the drift bound. An accepted
batch is a list of writes applied in order.
-/
namespace NearMultiFeed

/-- One feed written: the id and the full-width value. -/
structure Write where
  feedId : UInt32
  feed : StoredFeed
  deriving DecidableEq, Repr

/-- What `f` writes for an entry in a call at block second `now`. -/
def FeedUpdate.write (now : UInt64) (u : FeedUpdate) : Write :=
  ⟨u.feedId, ⟨u.price, u.aggTs, now⟩⟩

/-- The ordering of versions of one feed. -/
def FeedUpdate.version (u : FeedUpdate) : ℕ := u.aggTs.toNat
def Write.version (w : Write) : ℕ := w.feed.aggTs.toNat

section Feeds
variable {Feeds : Type} [LookupMap Feeds UInt32 StoredFeed]

/-- The timestamp `f` compares an entry with. -/
def prevAggTs (feeds : Feeds) (id : UInt32) : UInt64 :=
  ((LookupMap.get feeds id).map (·.aggTs)).getD 0

def prevVersion (feeds : Feeds) (id : UInt32) : ℕ := (prevAggTs feeds id).toNat

def insertAll (feeds : Feeds) (ws : List Write) : Feeds :=
  ws.foldl (fun m w => LookupMap.insert m w.feedId w.feed) feeds

/-- The condition `f` puts on a batch, beyond the caller and emptiness. -/
structure Accepts (feeds : Feeds) (now : UInt64) (us : List FeedUpdate) : Prop where
  ascending : KeyedLog.Chained FeedUpdate.feedId FeedUpdate.version (· < ·)
    (prevVersion feeds) us
  drift : ∀ u ∈ us, u.aggTs.toNat < now.toNat + 60

theorem prevVersion_insert (feeds : Feeds) (now : UInt64) (u : FeedUpdate) :
    prevVersion (LookupMap.insert feeds u.feedId ⟨u.price, u.aggTs, now⟩) =
      Function.update (prevVersion feeds) u.feedId u.version := by
  funext id
  by_cases h : id = u.feedId
  · subst h
    rw [Function.update_self, prevVersion, prevAggTs, LookupMap.get_insert_self]
    rfl
  · rw [Function.update_of_ne h, prevVersion, prevAggTs, LookupMap.get_insert_of_ne _ _ _ _ h]
    rfl

/-- Reads in the same call see the last write at full width. -/
theorem get_insertAll (feeds : Feeds) (ws : List Write) (id : UInt32) :
    LookupMap.get (insertAll feeds ws) id =
      ((KeyedLog.latest Write.feedId id ws).map Write.feed).or (LookupMap.get feeds id) := by
  induction ws generalizing feeds with
  | nil => rfl
  | cons w ws ih =>
      have tail := ih (LookupMap.insert feeds w.feedId w.feed)
      change LookupMap.get (insertAll _ ws) id = _ at tail ⊢
      rw [tail]
      by_cases h : w.feedId = id
      · subst h
        rw [KeyedLog.latest_cons_self, LookupMap.get_insert_self]
        cases KeyedLog.latest Write.feedId w.feedId ws <;> rfl
      · rw [KeyedLog.latest_cons_of_ne _ h, LookupMap.get_insert_of_ne _ _ _ _ (Ne.symm h)]

/-- Reads in a later call see what the codec kept of the last write. -/
theorem get_flush_insertAll (feeds : Feeds) (ws : List Write) (id : UInt32) :
    LookupMap.get (LookupMap.flush (insertAll feeds ws)) id =
      ((KeyedLog.latest Write.feedId id ws).map fun w => w.feed.persisted).or
        (LookupMap.get (LookupMap.flush feeds) id) := by
  induction ws generalizing feeds with
  | nil => rfl
  | cons w ws ih =>
      have tail := ih (LookupMap.insert feeds w.feedId w.feed)
      change LookupMap.get (LookupMap.flush (insertAll _ ws)) id = _ at tail ⊢
      rw [tail]
      by_cases h : w.feedId = id
      · subst h
        rw [KeyedLog.latest_cons_self, LookupMap.get_flush_insert_self _ _ _ _
          (StoredFeed.tryFromSlice_toVec w.feed)]
        cases KeyedLog.latest Write.feedId w.feedId ws <;> rfl
      · rw [KeyedLog.latest_cons_of_ne _ h,
          LookupMap.get_flush_insert_of_ne _ _ _ _ (Ne.symm h)]

/-- The last write of a feed is that of its last entry. -/
theorem latest_writes (now : UInt64) (us : List FeedUpdate) (id : UInt32) :
    KeyedLog.latest Write.feedId id (us.map (FeedUpdate.write now)) =
      (KeyedLog.latest FeedUpdate.feedId id us).map (FeedUpdate.write now) :=
  KeyedLog.latest_map Write.feedId (FeedUpdate.write now) id us

/-! ## One entry and the whole batch -/

theorem checkedAdd_drift {now : UInt64} (h : now.toNat + 60 < 2 ^ 64) :
    ∃ bound, checkedAdd now maxFutureDriftThreshold = .ok bound ∧
      bound.toNat = now.toNat + 60 := by
  have width : now.toNat + maxFutureDriftThreshold.toNat < 2 ^ 64 := h
  refine ⟨now + maxFutureDriftThreshold, if_pos width, ?_⟩
  rw [UInt64.toNat_add, Nat.mod_eq_of_lt width]
  rfl

/-- The batch after an accepted entry. -/
def FeedBatch.push (batch : FeedBatch Feeds) (now : UInt64) (u : FeedUpdate) : FeedBatch Feeds where
  feeds := LookupMap.insert batch.feeds u.feedId ⟨u.price, u.aggTs, now⟩
  feedIds := batch.feedIds ++ [u.feedId]
  prices := batch.prices ++ [u.price]
  aggTs := batch.aggTs ++ [u.aggTs]

/-- The batch after a list of accepted entries. -/
def FeedBatch.pushAll (batch : FeedBatch Feeds) (now : UInt64) (us : List FeedUpdate) :
    FeedBatch Feeds where
  feeds := insertAll batch.feeds (us.map (FeedUpdate.write now))
  feedIds := batch.feedIds ++ us.map (·.feedId)
  prices := batch.prices ++ us.map (·.price)
  aggTs := batch.aggTs ++ us.map (·.aggTs)

theorem FeedBatch.pushAll_nil (batch : FeedBatch Feeds) (now : UInt64) :
    batch.pushAll now [] = batch := by
  simp only [FeedBatch.pushAll, List.map_nil, List.append_nil]
  rfl

theorem FeedBatch.pushAll_cons (batch : FeedBatch Feeds) (now : UInt64) (u : FeedUpdate)
    (us : List FeedUpdate) : batch.pushAll now (u :: us) = (batch.push now u).pushAll now us := by
  simp only [FeedBatch.pushAll, FeedBatch.push, List.map_cons, List.append_assoc,
    List.singleton_append]
  rfl

/-- One pass of the loop, with the sum of the drift check known to fit. -/
theorem fEntry_eq {now : UInt64} (h : now.toNat + 60 < 2 ^ 64) (batch : FeedBatch Feeds)
    (u : FeedUpdate) :
    MultiFeed.fEntry now batch u =
      if prevVersion batch.feeds u.feedId < u.version ∧ u.aggTs.toNat < now.toNat + 60
      then .ok (batch.push now u)
      else .error (.timestampOutOfBounds u.feedId (prevAggTs batch.feeds u.feedId) now) := by
  obtain ⟨bound, sum, value⟩ := checkedAdd_drift h
  have body : MultiFeed.fEntry now batch u = (do
      let outOfBounds ←
        if u.aggTs ≤ prevAggTs batch.feeds u.feedId then pure true
        else do
          let bound ← checkedAdd now maxFutureDriftThreshold
          pure (decide (u.aggTs ≥ bound))
      if outOfBounds then
        throw (.timestampOutOfBounds u.feedId (prevAggTs batch.feeds u.feedId) now)
      return batch.push now u) := rfl
  rw [body]
  by_cases old : u.aggTs ≤ prevAggTs batch.feeds u.feedId
  · have stale : ¬ prevVersion batch.feeds u.feedId < u.version :=
      Nat.not_lt.mpr (UInt64.le_iff_toNat_le.mp old)
    simp only [old, if_true, stale, false_and, if_false, Abort.pure_eq_ok, Abort.ok_bind,
      Abort.throw_eq_error, Abort.error_bind]
  · have fresh : prevVersion batch.feeds u.feedId < u.version := by
      have differ := UInt64.le_iff_toNat_le.not.mp old
      exact Nat.not_le.mp differ
    simp only [old, if_false, sum, Abort.pure_eq_ok, Abort.ok_bind, ge_iff_le,
      UInt64.le_iff_toNat_le, value, fresh, true_and, decide_eq_true_eq]
    by_cases far : now.toNat + 60 ≤ u.aggTs.toNat
    · rw [if_pos far, if_neg (Nat.not_lt.mpr far), Abort.throw_eq_error, Abort.error_bind]
    · rw [if_neg far, if_pos (Nat.not_le.mp far)]

theorem accepts_cons {feeds : Feeds} {now : UInt64} {u : FeedUpdate} {us : List FeedUpdate} :
    Accepts feeds now (u :: us) ↔
      (prevVersion feeds u.feedId < u.version ∧ u.aggTs.toNat < now.toNat + 60) ∧
        Accepts (LookupMap.insert feeds u.feedId ⟨u.price, u.aggTs, now⟩) now us := by
  constructor
  · rintro ⟨ascending, drift⟩
    rw [KeyedLog.chained_cons] at ascending
    refine ⟨⟨ascending.1, drift u List.mem_cons_self⟩, ?_, fun v hv =>
      drift v (List.mem_cons_of_mem u hv)⟩
    rw [prevVersion_insert]
    exact ascending.2
  · rintro ⟨⟨fresh, near⟩, ascending, drift⟩
    rw [prevVersion_insert] at ascending
    refine ⟨(KeyedLog.chained_cons _ _ _ _ u us).mpr ⟨fresh, ascending⟩, ?_⟩
    intro v hv
    rcases List.mem_cons.mp hv with rfl | later
    · exact near
    · exact drift v later

/-- A batch that names no feed twice is accepted entry by entry. -/
theorem accepts_iff_of_nodup {feeds : Feeds} {now : UInt64} {us : List FeedUpdate}
    (apart : (us.map FeedUpdate.feedId).Nodup) : Accepts feeds now us ↔
      ∀ u ∈ us, prevVersion feeds u.feedId < u.version ∧ u.aggTs.toNat < now.toNat + 60 := by
  constructor
  · intro good u hu
    exact ⟨good.ascending.base_lt hu, good.drift u hu⟩
  · intro each
    exact ⟨KeyedLog.chained_of_nodup _ _ _ apart fun u hu => (each u hu).1, fun u hu => (each u hu).2⟩

/-- The loop succeeds exactly on accepted batches, and then pushes every entry. -/
theorem foldlM_fEntry_eq_ok {now : UInt64} (h : now.toNat + 60 < 2 ^ 64)
    (us : List FeedUpdate) (batch result : FeedBatch Feeds) :
    us.foldlM (MultiFeed.fEntry now) batch = .ok result ↔
      Accepts batch.feeds now us ∧ result = batch.pushAll now us := by
  induction us generalizing batch with
  | nil =>
      rw [List.foldlM_nil, Abort.pure_eq_ok, Except.ok.injEq, FeedBatch.pushAll_nil]
      have empty : Accepts batch.feeds now [] :=
        ⟨KeyedLog.chained_nil _ _ _ _, fun u hu => nomatch hu⟩
      constructor
      · intro same
        exact ⟨empty, same.symm⟩
      · intro both
        exact both.2.symm
  | cons u us ih =>
      rw [List.foldlM_cons, fEntry_eq h, accepts_cons, FeedBatch.pushAll_cons]
      by_cases good : prevVersion batch.feeds u.feedId < u.version ∧
          u.aggTs.toNat < now.toNat + 60
      · rw [if_pos good, Abort.ok_bind, ih]
        simp only [good, and_self, true_and]
        rfl
      · rw [if_neg good, Abort.error_bind]
        simp only [good, false_and, reduceCtorEq]

end Feeds

/-! ## The method -/

theorem blockSecond_toNat {AccountId : Type} (ctx : VMContext AccountId) :
    (MultiFeed.blockSecond ctx).toNat = ctx.blockTimestamp.toNat / 10 ^ 9 := by
  rw [MultiFeed.blockSecond, UInt64.toNat_div]
  rfl

/-- A block second is far below every width in use, so `now + 60` never overflows. -/
theorem blockSecond_lt {AccountId : Type} (ctx : VMContext AccountId) :
    (MultiFeed.blockSecond ctx).toNat < 2 ^ 35 := by
  have width : ctx.blockTimestamp.toNat < 2 ^ 64 := ctx.blockTimestamp.toNat_lt
  rw [blockSecond_toNat]
  omega

theorem blockSecond_mono {AccountId : Type} {ctx ctx' : VMContext AccountId}
    (h : ctx.blockTimestamp ≤ ctx'.blockTimestamp) :
    MultiFeed.blockSecond ctx ≤ MultiFeed.blockSecond ctx' := by
  apply UInt64.le_iff_toNat_le.mpr
  rw [blockSecond_toNat, blockSecond_toNat]
  apply Nat.div_le_div_right
  exact UInt64.le_iff_toNat_le.mp h

section Method
variable {Feeds Roles Callers AccountId : Type} [LookupMap Feeds UInt32 StoredFeed]
  [LookupSet Roles AccountId]

theorem require_eq_ok {condition : Bool} {panic : Panic} {u : Unit} :
    require condition panic = .ok u ↔ condition = true := by
  cases condition <;> simp [require]

theorem predecessorAccountId_eq_ok {ctx : VMContext AccountId} {account : AccountId} :
    ctx.predecessorAccountId = .ok account ↔ ctx.predecessor = some account := by
  unfold VMContext.predecessorAccountId
  cases ctx.predecessor <;> simp

/-- When `f` succeeds, and what it does then. -/
theorem f_eq_ok {self next : MultiFeed Feeds Roles Callers AccountId}
    {ctx : VMContext AccountId} {us : List FeedUpdate} {log : List (ContractEvent AccountId)} :
    self.f ctx us = .ok (next, log) ↔
      (∃ caller, ctx.predecessor = some caller ∧
        LookupSet.contains self.priceReporters caller = true) ∧
      us ≠ [] ∧ Accepts self.feeds (MultiFeed.blockSecond ctx) us ∧
      next = { self with
        feeds := insertAll self.feeds (us.map (FeedUpdate.write (MultiFeed.blockSecond ctx))) } ∧
      log = [.f (us.map (·.feedId)) (us.map (·.price)) (us.map (·.aggTs))] := by
  have fits : (MultiFeed.blockSecond ctx).toNat + 60 < 2 ^ 64 := by
    have := blockSecond_lt ctx
    omega
  cases us with
  | nil =>
      simp only [MultiFeed.f, Abort.bind_eq_ok, List.isEmpty_nil, if_true, Abort.throw_eq_error,
        Abort.error_bind, reduceCtorEq, and_false, exists_false, ne_eq, not_true, false_and]
  | cons u us =>
      simp only [MultiFeed.f, Abort.bind_eq_ok, predecessorAccountId_eq_ok, require_eq_ok,
        List.isEmpty_cons, Bool.false_eq_true, if_false, Abort.pure_eq_ok,
        foldlM_fEntry_eq_ok fits, Except.ok.injEq, Prod.mk.injEq, FeedBatch.pushAll,
        List.nil_append]
      constructor
      · rintro ⟨caller, called, _, member, _, ⟨accepted, rfl⟩, rfl, rfl⟩
        exact ⟨⟨caller, called, member⟩, List.cons_ne_nil u us, accepted, rfl, rfl⟩
      · rintro ⟨⟨caller, called, member⟩, _, accepted, rfl, rfl⟩
        exact ⟨caller, called, (), member, _, ⟨accepted, rfl⟩, rfl, rfl⟩

end Method

end NearMultiFeed
