import NearMultiFeed.Types

/-! The events of `events.rs`, and what a log of them says about the feeds. -/
namespace NearMultiFeed

inductive ContractEvent (AccountId : Type) where
  | ownershipTransferred (oldOwner : Option AccountId) (newOwner : AccountId)
  | adminStatusChanged (account : AccountId) (status : Bool)
  | productStatusChanged (account : AccountId) (status : Bool)
  | priceReporterStatusChanged (account : AccountId) (status : Bool)
  | authorizedCallerStatusChanged (account : AccountId) (status : Bool)
  | openReadStatusChanged (status : Bool)
  | pausedStatusChanged (status : Bool)
  /-- Parallel arrays, one position per accepted entry. -/
  | f (feedIds : List UInt32) (prices : List U128) (aggTs : List UInt64)
  deriving DecidableEq, Repr

variable {AccountId : Type}

/-- The entries an event reports: the positions of an `F` event, none otherwise. -/
def ContractEvent.entries : ContractEvent AccountId → List FeedUpdate
  | .f feedIds prices aggTs =>
      (feedIds.zip (prices.zip aggTs)).map fun e => ⟨e.1, e.2.1, e.2.2⟩
  | _ => []

/-- The entries of all `F` events of a log, in emission and then array order. -/
def feedEntries (log : List (ContractEvent AccountId)) : List FeedUpdate :=
  log.flatMap ContractEvent.entries

@[simp] theorem feedEntries_nil : feedEntries ([] : List (ContractEvent AccountId)) = [] := rfl

@[simp] theorem feedEntries_append (l₁ l₂ : List (ContractEvent AccountId)) :
    feedEntries (l₁ ++ l₂) = feedEntries l₁ ++ feedEntries l₂ :=
  List.flatMap_append

/-- The `F` event of a batch reports exactly the batch. -/
@[simp] theorem entries_f (us : List FeedUpdate) :
    (ContractEvent.f (us.map (·.feedId)) (us.map (·.price)) (us.map (·.aggTs)) :
      ContractEvent AccountId).entries = us := by
  induction us with
  | nil => rfl
  | cons u us ih =>
      simp only [ContractEvent.entries, List.map_cons, List.zip_cons_cons] at ih ⊢
      rw [ih]

end NearMultiFeed
