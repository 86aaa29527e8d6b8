import NearMultiFeed.ConsumerRuns
import NearMultiFeed.Lib.Decimal
import NearMultiFeed.Lib.JsonCodec

/-!
# What readers of JSON get

Events are logged in JSON, and the consumer answers in JSON. Many readers keep
numbers as doubles, which are exact up to 2^53 only. Prices are decimal strings, so
no reader can truncate them; ids and timestamps are numbers, and they stay small in
every log and every answer because no report passes `f` otherwise.
-/
namespace NearMultiFeed

/-! ## Fields -/

/-- `u128::from_str`. -/
def parseU128 (s : String) : Option U128 := (Decimal.parse (2 ^ 128) s).map (BitVec.ofNat 128)

/-- `json_types::U128`, a decimal string. -/
def u128Text : Spelling U128 where
  shown price := Nat.repr price.toNat
  parsed := parseU128
  parsed_shown := by
    intro price
    rw [parseU128, Decimal.parse_repr price.isLt, Option.map_some, BitVec.ofNat_toNat,
      BitVec.setWidth_eq]

section Numbers
variable (double : ℕ → ℕ)

def u32Json : JsonCodec UInt32 :=
  (JsonCodec.number double).via UInt32.toNat
    (fun n => if n < 2 ^ 32 then some (UInt32.ofNat n) else none) (by
      intro n
      rw [if_pos n.toNat_lt, UInt32.ofNat_toNat])

def u64Json : JsonCodec UInt64 :=
  (JsonCodec.number double).via UInt64.toNat
    (fun n => if n < 2 ^ 64 then some (UInt64.ofNat n) else none) (by
      intro n
      rw [if_pos n.toNat_lt, UInt64.ofNat_toNat])

end Numbers

/-! ## Answers of the consumer -/

namespace FeedDataView

def toJson (view : FeedDataView) : Json :=
  .obj [("price", (JsonCodec.text u128Text).write view.price), ("agg_ts", .num view.aggTs.toNat),
    ("onchain_ts", .num view.onchainTs.toNat)]

variable (double : ℕ → ℕ)

def ofJson (json : Json) : Option FeedDataView := do
  let price ← (JsonCodec.text u128Text).get "price" json
  let aggTs ← (u64Json double).get "agg_ts" json
  let onchainTs ← (u64Json double).get "onchain_ts" json
  return { price, aggTs, onchainTs }

def json : JsonCodec FeedDataView where
  Fits view := double view.aggTs.toNat = view.aggTs.toNat ∧
    double view.onchainTs.toNat = view.onchainTs.toNat
  write := toJson
  read := ofJson double
  read_write := by
    intro view fits
    have price : (JsonCodec.text u128Text).get "price" view.toJson = some view.price :=
      (JsonCodec.text u128Text).get_eq_some rfl trivial
    have aggTs : (u64Json double).get "agg_ts" view.toJson = some view.aggTs :=
      (u64Json double).get_eq_some rfl fits.1
    have onchainTs : (u64Json double).get "onchain_ts" view.toJson = some view.onchainTs :=
      (u64Json double).get_eq_some rfl fits.2
    rw [ofJson, price, aggTs, onchainTs]
    rfl

/-- What `get_price` resolves to. -/
def optional : JsonCodec (Option FeedDataView) :=
  (json double).nullable (by
    intro view
    simp only [json, toJson, ne_eq, reduceCtorEq, not_false_eq_true])

end FeedDataView

/-- The value a callback returns, unless it panicked. -/
def Answer.toJson : Answer → Option Json
  | .price (.ok view) => some ((FeedDataView.optional id).write view)
  | .prices (.ok views) => some ((FeedDataView.optional id).list.write views)
  | _ => none

/-- The value a callback returned, read. -/
def ConsumerCallback.ofJson (double : ℕ → ℕ) (json : Json) : ConsumerCallback → Option Answer
  | .onPrice => (fun view => .price (.ok view)) <$> (FeedDataView.optional double).read json
  | .onPrices => (fun views => .prices (.ok views)) <$> (FeedDataView.optional double).list.read json

/-! ## Events -/

namespace ContractEvent

variable {AccountId : Type}

/-- The variant name, in snake case. -/
def name : ContractEvent AccountId → String
  | .ownershipTransferred .. => "ownership_transferred"
  | .adminStatusChanged .. => "admin_status_changed"
  | .productStatusChanged .. => "product_status_changed"
  | .priceReporterStatusChanged .. => "price_reporter_status_changed"
  | .authorizedCallerStatusChanged .. => "authorized_caller_status_changed"
  | .openReadStatusChanged .. => "open_read_status_changed"
  | .pausedStatusChanged .. => "paused_status_changed"
  | .f .. => "f"

section Codec
variable (accounts : Spelling AccountId) (double : ℕ → ℕ)

def optionalAccount : JsonCodec (Option AccountId) :=
  (JsonCodec.text accounts).nullable (by
    intro account
    simp only [JsonCodec.text, ne_eq, reduceCtorEq, not_false_eq_true])

/-- The data of the events about one account. -/
def statusData (account : AccountId) (status : Bool) : Json :=
  .obj [("account", (JsonCodec.text accounts).write account), ("status", .bool status)]

def data : ContractEvent AccountId → Json
  | .ownershipTransferred oldOwner newOwner =>
    .obj [("old_owner", (optionalAccount accounts).write oldOwner),
      ("new_owner", (JsonCodec.text accounts).write newOwner)]
  | .adminStatusChanged account status | .productStatusChanged account status
  | .priceReporterStatusChanged account status | .authorizedCallerStatusChanged account status =>
    statusData accounts account status
  | .openReadStatusChanged status | .pausedStatusChanged status =>
    .obj [("status", .bool status)]
  | .f feedIds prices aggTs =>
    .obj [("i", .arr (feedIds.map fun id => .num id.toNat)),
      ("p", (JsonCodec.text u128Text).list.write prices),
      ("t", .arr (aggTs.map fun t => .num t.toNat))]

/-- The value in an `EVENT_JSON:` line. -/
def toJson (event : ContractEvent AccountId) : Json :=
  .obj [("standard", .str "multi-feed"), ("version", .str "1.0.0"), ("event", .str event.name),
    ("data", event.data accounts)]

/-- An event about one account, read. -/
def readStatus (made : AccountId → Bool → ContractEvent AccountId) (data : Json) :
    Option (ContractEvent AccountId) := do
  let account ← (JsonCodec.text accounts).get "account" data
  let status ← JsonCodec.boolean.get "status" data
  return made account status

def readData (name : String) (data : Json) : Option (ContractEvent AccountId) :=
  match name with
  | "ownership_transferred" => do
    let oldOwner ← (optionalAccount accounts).get "old_owner" data
    let newOwner ← (JsonCodec.text accounts).get "new_owner" data
    return .ownershipTransferred oldOwner newOwner
  | "admin_status_changed" => readStatus accounts .adminStatusChanged data
  | "product_status_changed" => readStatus accounts .productStatusChanged data
  | "price_reporter_status_changed" => readStatus accounts .priceReporterStatusChanged data
  | "authorized_caller_status_changed" => readStatus accounts .authorizedCallerStatusChanged data
  | "open_read_status_changed" => .openReadStatusChanged <$> JsonCodec.boolean.get "status" data
  | "paused_status_changed" => .pausedStatusChanged <$> JsonCodec.boolean.get "status" data
  | "f" => do
    let feedIds ← (u32Json double).list.get "i" data
    let prices ← (JsonCodec.text u128Text).list.get "p" data
    let aggTs ← (u64Json double).list.get "t" data
    return .f feedIds prices aggTs
  | _ => none

/-- An event, read by the names of its members. -/
def ofJson (json : Json) : Option (ContractEvent AccountId) := do
  let standard ← JsonCodec.string.get "standard" json
  let version ← JsonCodec.string.get "version" json
  if standard ≠ "multi-feed" ∨ version ≠ "1.0.0" then none
  let name ← JsonCodec.string.get "event" json
  let data ← json.member? "data"
  readData accounts double name data

/-- The reader sees the numbers of the event as they are. -/
def ExactFor : ContractEvent AccountId → Prop
  | .f feedIds _ aggTs =>
    (∀ id ∈ feedIds, double id.toNat = id.toNat) ∧ ∀ t ∈ aggTs, double t.toNat = t.toNat
  | _ => True

theorem readStatus_statusData (made : AccountId → Bool → ContractEvent AccountId)
    (account : AccountId) (status : Bool) :
    readStatus accounts made (statusData accounts account status) = some (made account status) := by
  rw [readStatus, (JsonCodec.text accounts).get_eq_some rfl trivial,
    JsonCodec.boolean.get_eq_some rfl trivial]
  rfl

theorem readData_data {event : ContractEvent AccountId} (fits : event.ExactFor double) :
    readData accounts double event.name (event.data accounts) = some event := by
  cases event with
  | ownershipTransferred oldOwner newOwner =>
      let json := data accounts (.ownershipTransferred oldOwner newOwner)
      have old : (optionalAccount accounts).get "old_owner" json = some oldOwner :=
        (optionalAccount accounts).get_eq_some rfl fun _ _ => trivial
      have new : (JsonCodec.text accounts).get "new_owner" json = some newOwner :=
        (JsonCodec.text accounts).get_eq_some rfl trivial
      change (do
        let oldOwner ← (optionalAccount accounts).get "old_owner" json
        let newOwner ← (JsonCodec.text accounts).get "new_owner" json
        return ownershipTransferred oldOwner newOwner : Option (ContractEvent AccountId)) = _
      rw [old, new]
      rfl
  | adminStatusChanged account status => exact readStatus_statusData accounts _ account status
  | productStatusChanged account status => exact readStatus_statusData accounts _ account status
  | priceReporterStatusChanged account status =>
      exact readStatus_statusData accounts _ account status
  | authorizedCallerStatusChanged account status =>
      exact readStatus_statusData accounts _ account status
  | openReadStatusChanged status => rfl
  | pausedStatusChanged status => rfl
  | f feedIds prices aggTs =>
      let json := data accounts (.f feedIds prices aggTs)
      have ids : (u32Json double).list.get "i" json = some feedIds :=
        (u32Json double).list.get_eq_some rfl fits.1
      have shown : (JsonCodec.text u128Text).list.get "p" json = some prices :=
        (JsonCodec.text u128Text).list.get_eq_some rfl fun _ _ => trivial
      have times : (u64Json double).list.get "t" json = some aggTs :=
        (u64Json double).list.get_eq_some rfl fits.2
      change (do
        let feedIds ← (u32Json double).list.get "i" json
        let prices ← (JsonCodec.text u128Text).list.get "p" json
        let aggTs ← (u64Json double).list.get "t" json
        return ContractEvent.f feedIds prices aggTs : Option (ContractEvent AccountId)) = _
      rw [ids, shown, times]
      rfl

/-- The codec of an event. -/
def json : JsonCodec (ContractEvent AccountId) where
  Fits := ExactFor double
  write := toJson accounts
  read := ofJson accounts double
  read_write _ fits := readData_data accounts double fits

end Codec

/-- The timestamps an event reports are far below 2^53. -/
def Early : ContractEvent AccountId → Prop
  | .f _ _ aggTs => ∀ t ∈ aggTs, t.toNat < 2 ^ 36
  | _ => True

theorem Early.exactFor {double : ℕ → ℕ} (faithful : ∀ n < 2 ^ 53, double n = n)
    {event : ContractEvent AccountId} (h : event.Early) : event.ExactFor double := by
  cases event with
  | f feedIds prices aggTs =>
      constructor
      · intro id _
        have width := id.toNat_lt
        exact faithful id.toNat (by omega)
      · intro t listed
        have early := h t listed
        exact faithful t.toNat (by omega)
  | _ => exact trivial

theorem early_roleLog (r : Role) (us : List (RoleUpdate AccountId)) :
    ∀ e ∈ roleLog r us, e.Early := by
  intro e he
  obtain ⟨u, -, made⟩ := List.mem_map.mp he
  subst made
  cases r <;> exact trivial

end ContractEvent

namespace MultiFeed

variable {Feeds Roles Callers AccountId : Type} [DecidableEq AccountId]
  [LookupMap Feeds UInt32 StoredFeed] [LookupSet Roles AccountId]
  [IterableSet Callers AccountId]

/-- Every event of a call that goes through is early. -/
theorem Effect.early {s next : MultiFeed Feeds Roles Callers AccountId}
    {ctx : VMContext AccountId} {call : Call AccountId} {log : List (ContractEvent AccountId)}
    (effect : Effect s ctx call next log) : ∀ e ∈ log, e.Early := by
  cases effect with
  | read => exact fun e none_there => absurd none_there List.not_mem_nil
  | @f _ us _ _ _ _ good =>
      intro e he
      rw [List.mem_singleton.mp he]
      intro t listed
      obtain ⟨u, hu, same⟩ := List.mem_map.mp listed
      have drift := good.drift u hu
      have early := blockSecond_lt ctx
      rw [← same]
      omega
  | transferOwnership | setPaused | setOpenReadStatus =>
      intro e he
      rw [List.mem_singleton.mp he]
      exact trivial
  | @setRole r us => exact ContractEvent.early_roleLog r.role us
  | setAuthorizedCallers =>
      intro e he
      rw [updateAuthorizedCallers_log] at he
      obtain ⟨u, -, made⟩ := List.mem_map.mp he
      rw [← made]
      exact trivial

theorem Deployed.early {s : MultiFeed Feeds Roles Callers AccountId}
    {log : List (ContractEvent AccountId)} (deployed : Deployed s log) : ∀ e ∈ log, e.Early := by
  obtain ⟨openRead, granted, initial⟩ := deployed.initialised
  intro e he
  rw [initial.events] at he
  simp only [List.append_assoc, List.mem_append, List.mem_cons, List.not_mem_nil, or_false] at he
  rcases he with (first | second) | listed | listed | listed | listed
  · rw [first]
    exact trivial
  · rw [second]
    exact trivial
  all_goals exact ContractEvent.early_roleLog _ _ e listed

/-- Every event in the log of a run is early. -/
theorem early_log {s : MultiFeed Feeds Roles Callers AccountId}
    {log : List (ContractEvent AccountId)} (deployed : Deployed s log)
    (txs : List (Transaction AccountId)) : ∀ e ∈ log ++ eventsOf (s.receipts txs), e.Early := by
  have each (t : MultiFeed Feeds Roles Callers AccountId) (tx : Transaction AccountId) :
      ∀ e ∈ (t.step tx).2.events, e.Early := by
    rcases t.step_cases tx with ⟨next, value, events, result, effect⟩ | ⟨panic, -, result⟩
    · rw [result]
      exact effect.early
    · rw [result]
      exact fun e none_there => absurd none_there List.not_mem_nil
  intro e he
  rcases List.mem_append.mp he with first | later
  · exact deployed.early e first
  · obtain ⟨r, hr, logged⟩ := List.mem_flatMap.mp later
    exact Machine.trace_answers (P := fun _ o => ∀ e ∈ o.events, e.Early) MultiFeed.step each hr e
      logged

/-- A reader with doubles gets every event of a run, of every kind, exactly. -/
theorem log_survives_doubles (accounts : Spelling AccountId) {double : ℕ → ℕ}
    (faithful : ∀ n < 2 ^ 53, double n = n) {s : MultiFeed Feeds Roles Callers AccountId}
    {log : List (ContractEvent AccountId)} (deployed : Deployed s log)
    (txs : List (Transaction AccountId)) :
    let events := log ++ eventsOf (s.receipts txs)
    (events.map (ContractEvent.toJson accounts)).mapM (ContractEvent.ofJson accounts double) =
      some events :=
  (ContractEvent.json accounts double).list.read_write _ fun e he =>
    (early_log deployed txs e he).exactFor faithful

theorem log_survives_doubles_sample :
    let events := sampleLog ++ [.f [42] [1208925819614629174706175] [100]]
    (events.map (ContractEvent.toJson ⟨id, some, fun _ => rfl⟩)).mapM
      (ContractEvent.ofJson ⟨id, some, fun _ => rfl⟩ binary64) = some events :=
  log_survives_doubles ⟨id, some, fun _ => rfl⟩ (fun _ small => binary64_exact small)
    sample_deployed [reportAt 100 [⟨42, 1208925819614629174706175, 100⟩]]

omit [DecidableEq AccountId] [LookupSet Roles AccountId] [IterableSet Callers AccountId] in
/-- A feed is shown with timestamps a double holds. -/
theorem FeedHistory.shown_fits {double : ℕ → ℕ} (faithful : ∀ n < 2 ^ 53, double n = n)
    {s : MultiFeed Feeds Roles Callers AccountId} {past : List (Receipt AccountId)}
    (h : FeedHistory s past) (id : UInt32) :
    (FeedDataView.optional double).Fits ((s.shown id).map FeedDataView.from) := by
  intro view shown
  obtain ⟨data, found, from_data⟩ := Option.map_eq_some_iff.mp shown
  obtain ⟨feed, there, from_feed⟩ := Option.map_eq_some_iff.mp found
  obtain ⟨-, near, early⟩ := h.stored_bounds there
  rw [← from_data, ← from_feed]
  exact ⟨faithful feed.aggTs.toNat (by omega), faithful feed.onchainTs.toNat (by omega)⟩

end MultiFeed

namespace Site

open MultiFeed

variable {Feeds Roles Callers AccountId : Type} [DecidableEq AccountId]
  [LookupMap Feeds UInt32 StoredFeed] [LookupSet Roles AccountId]
  [IterableSet Callers AccountId] {site : Site AccountId}
  {s : MultiFeed Feeds Roles Callers AccountId} {moves : Moves AccountId} {u : ℕ}
  {p : Promise AccountId} {answer : Answer}

/-- Whatever a consumer answers, a reader with doubles gets it exactly. -/
theorem answers_survive_doubles {double : ℕ → ℕ} (faithful : ∀ n < 2 ^ 53, double n = n)
    (ours : site.consumer.multiFeed = site.oracle) (reachable : Reachable s)
    (answered : (site.after s moves).requests[u]? = some (.answered p answer)) {json : Json}
    (returned : answer.toJson = some json) : p.callback.ofJson double json = some answer := by
  obtain ⟨running, answering, e, e', -, -, -, asks, shape⟩ := answer_origin ours answered
  obtain ⟨past, history⟩ := (site.reachable_after reachable running).history
  rcases asks.paired with ⟨feedId, call, back⟩ | ⟨feedIds, call, back⟩
  · obtain ⟨result, form⟩ : ∃ result, answer = .price result :=
      shape ▸ site.callback_onPrice back _ e'
    rw [form] at shape returned ⊢
    cases result with
    | error panic => cases returned
    | ok view =>
        cases returned
        obtain ⟨-, -, data, fetched, made⟩ :=
          (price_answer asks.receiver call back shape.symm view).mp rfl
        obtain ⟨-, id, -, shown⟩ := fetch_eq_ok.mp fetched
        have fits : (FeedDataView.optional double).Fits view := by
          rw [made, shown]
          exact history.shown_fits faithful id
        have read := (FeedDataView.optional double).read_write view fits
        rw [back]
        exact congrArg (Option.map fun view => Answer.price (.ok view)) read
  · obtain ⟨result, form⟩ : ∃ result, answer = .prices result :=
      shape ▸ site.callback_onPrices back _ e'
    rw [form] at shape returned ⊢
    cases result with
    | error panic => cases returned
    | ok views =>
        cases returned
        obtain ⟨-, -, data, fetched, -, made⟩ :=
          (prices_answer asks.receiver call back shape.symm views).mp rfl
        obtain ⟨-, positions⟩ := fetchBatch_eq_ok.mp fetched
        have fits : (FeedDataView.optional double).list.Fits views := by
          intro view listed
          rw [made] at listed
          obtain ⟨d, there, same⟩ := List.mem_map.mp listed
          obtain ⟨i, here⟩ := List.get_of_mem there
          have asked : i < feedIds.length := by
            rw [positions.length_eq]
            exact i.isLt
          obtain ⟨id, -, shown⟩ := positions.get asked i.isLt
          change data.get i = _ at shown
          rw [← same, ← here, shown]
          exact history.shown_fits faithful id
        have read := (FeedDataView.optional double).list.read_write views fits
        rw [back]
        exact congrArg (Option.map fun views => Answer.prices (.ok views)) read

/-- A `get_price` after a report of the largest price a feed keeps. -/
def largestPrice : Moves String :=
  [.serve (reportAt 100 [⟨42, 1208925819614629174706175, 100⟩]),
    .ask (⟨some "user.near", 0, 0⟩, .getPrice "0x0000002a"), .execute 0 calm, .callback 0 calm]

theorem answers_survive_doubles_sample :
    let view : FeedDataView := ⟨1208925819614629174706175, 100, 100⟩
    askedPrice.callback.ofJson binary64 view.toJson = some (.price (.ok (some view))) := by
  intro view
  have answered : (sampleSite.after sample largestPrice).requests[0]? =
      some (.answered askedPrice (.price (.ok (some view)))) := rfl
  exact answers_survive_doubles (fun _ small => binary64_exact small) sampleSite_ours
    sample_reachable answered rfl

end Site

end NearMultiFeed
