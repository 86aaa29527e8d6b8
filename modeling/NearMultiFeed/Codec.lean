import NearMultiFeed.Lib.Abort
import NearMultiFeed.Types

/-! The 22-byte storage codec of `StoredFeed`: what survives it. -/
namespace NearMultiFeed

theorem readExact_append {n : Nat} {bytes : List UInt8} (h : bytes.length = n)
    (rest : List UInt8) : readExact n (bytes ++ rest) = .ok (bytes, rest) := by
  subst h
  have room : bytes.length ≤ (bytes ++ rest).length := by
    rw [List.length_append]
    exact Nat.le_add_right _ _
  rw [readExact, if_pos room, List.take_left, List.drop_left]

theorem readExact_short {n : Nat} {reader : List UInt8} (h : reader.length < n) :
    readExact n reader = .error .unexpectedEof :=
  if_neg (Nat.not_le.mpr h)

attribute [ext] StoredFeed

namespace StoredFeed

/-- What is left of a feed once it has been stored and read back. -/
def persisted (feed : StoredFeed) : StoredFeed where
  price := BitVec.ofNat 128 (feed.price.toNat % 2 ^ 80)
  aggTs := UInt64.ofNat (feed.aggTs.toNat % 2 ^ 48)
  onchainTs := UInt64.ofNat (feed.onchainTs.toNat % 2 ^ 48)

theorem serialize_eq (feed : StoredFeed) :
    feed.serialize = BigEndian.toBytes 10 feed.price.toNat ++
      BigEndian.toBytes 6 feed.aggTs.toNat ++ BigEndian.toBytes 6 feed.onchainTs.toNat := by
  have slice (k w n : Nat) : (BigEndian.toBytes (k + w) n).extract k (k + w) =
      BigEndian.toBytes w n := by
    rw [List.extract_eq_take_drop, BigEndian.drop_toBytes, Nat.add_sub_cancel_left]
    exact List.take_of_length_le (BigEndian.length_toBytes w n).le
  rw [serialize, slice 6 10, slice 2 6, slice 2 6]

theorem length_serialize (feed : StoredFeed) : feed.serialize.length = 22 := by
  simp only [serialize_eq, List.length_append, BigEndian.length_toBytes]

/-- The three fields of a record are read one after the other. -/
theorem deserializeReader_fields {price aggTs onchainTs : List UInt8} (hp : price.length = 10)
    (ha : aggTs.length = 6) (ho : onchainTs.length = 6) (rest : List UInt8) :
    deserializeReader (price ++ (aggTs ++ (onchainTs ++ rest))) =
      .ok (⟨BitVec.ofNat 128 (BigEndian.ofBytes price), UInt64.ofNat (BigEndian.ofBytes aggTs),
        UInt64.ofNat (BigEndian.ofBytes onchainTs)⟩, rest) := by
  simp only [deserializeReader, readExact_append hp, readExact_append ha, readExact_append ho,
    Abort.ok_bind, Abort.pure_eq_ok, BigEndian.ofBytes_zeros_append]

theorem deserializeReader_serialize (feed : StoredFeed) (rest : List UInt8) :
    deserializeReader (feed.serialize ++ rest) = .ok (feed.persisted, rest) := by
  rw [serialize_eq, List.append_assoc, List.append_assoc,
    deserializeReader_fields (BigEndian.length_toBytes _ _) (BigEndian.length_toBytes _ _)
      (BigEndian.length_toBytes _ _)]
  simp only [BigEndian.ofBytes_toBytes]
  rfl

/-- Any 22 bytes are the encoding of the record they decode to. -/
theorem serialize_of_length {bytes : List UInt8} (h : bytes.length = 22) :
    ∃ feed, deserializeReader bytes = .ok (feed, []) ∧ feed.serialize = bytes := by
  obtain ⟨price, others, hp, rfl⟩ : ∃ price others, price.length = 10 ∧ bytes = price ++ others :=
    ⟨bytes.take 10, bytes.drop 10, by rw [List.length_take]; omega,
      (List.take_append_drop _ _).symm⟩
  obtain ⟨aggTs, onchainTs, ha, rfl⟩ :
      ∃ aggTs onchainTs, aggTs.length = 6 ∧ others = aggTs ++ onchainTs := by
    refine ⟨others.take 6, others.drop 6, ?_, (List.take_append_drop _ _).symm⟩
    rw [List.length_append] at h
    rw [List.length_take]
    omega
  have ho : onchainTs.length = 6 := by
    simp only [List.length_append] at h
    omega
  have decoded := deserializeReader_fields hp ha ho []
  rw [List.append_nil] at decoded
  refine ⟨_, decoded, ?_⟩
  have price_fits := BigEndian.ofBytes_lt hp
  have aggTs_fits := BigEndian.ofBytes_lt ha
  have onchainTs_fits := BigEndian.ofBytes_lt ho
  rw [serialize_eq, BitVec.toNat_ofNat, UInt64.toNat_ofNat', UInt64.toNat_ofNat',
    Nat.mod_eq_of_lt (by omega), Nat.mod_eq_of_lt (by omega), Nat.mod_eq_of_lt (by omega),
    BigEndian.toBytes_ofBytes hp, BigEndian.toBytes_ofBytes ha, BigEndian.toBytes_ofBytes ho,
    List.append_assoc]

/-- Anything shorter than a record ends before its last field. -/
theorem deserializeReader_short {bytes : List UInt8} (h : bytes.length < 22) :
    deserializeReader bytes = .error .unexpectedEof := by
  rw [deserializeReader]
  by_cases price : bytes.length < 10
  · rw [readExact_short price, Abort.error_bind]
  · rw [readExact, if_pos (Nat.not_lt.mp price), Abort.ok_bind]
    have rest : (bytes.drop 10).length < 12 := by
      rw [List.length_drop]
      omega
    generalize bytes.drop 10 = bytes at rest
    by_cases aggTs : bytes.length < 6
    · simp only [readExact_short aggTs, Abort.error_bind]
    · simp only [readExact, if_pos (Nat.not_lt.mp aggTs), Abort.ok_bind]
      have last : ¬ 6 ≤ (bytes.drop 6).length := by
        rw [List.length_drop]
        omega
      simp only [if_neg last, Abort.error_bind]

/-- The codec always decodes what it encoded. -/
theorem tryFromSlice_toVec (feed : StoredFeed) :
    tryFromSlice (toVec feed) = .ok feed.persisted := by
  have decoded : Borsh.deserializeReader (toVec feed) = .ok (feed.persisted, []) := by
    have reader := deserializeReader_serialize feed []
    rwa [List.append_nil] at reader
  rw [tryFromSlice, decoded]

@[simp] theorem persisted_price (feed : StoredFeed) :
    feed.persisted.price.toNat = feed.price.toNat % 2 ^ 80 := by
  rw [persisted, BitVec.toNat_ofNat]
  omega

@[simp] theorem persisted_aggTs (feed : StoredFeed) :
    feed.persisted.aggTs.toNat = feed.aggTs.toNat % 2 ^ 48 := by
  rw [persisted, UInt64.toNat_ofNat']
  omega

@[simp] theorem persisted_onchainTs (feed : StoredFeed) :
    feed.persisted.onchainTs.toNat = feed.onchainTs.toNat % 2 ^ 48 := by
  rw [persisted, UInt64.toNat_ofNat']
  omega

/-- Timestamps below 2^48 survive. -/
theorem persisted_aggTs_eq {feed : StoredFeed} (h : feed.aggTs.toNat < 2 ^ 48) :
    feed.persisted.aggTs = feed.aggTs := by
  apply UInt64.toNat_inj.mp
  rw [persisted_aggTs, Nat.mod_eq_of_lt h]

theorem persisted_onchainTs_eq {feed : StoredFeed} (h : feed.onchainTs.toNat < 2 ^ 48) :
    feed.persisted.onchainTs = feed.onchainTs := by
  apply UInt64.toNat_inj.mp
  rw [persisted_onchainTs, Nat.mod_eq_of_lt h]

/-- The stored part of a record is stored as the record is. -/
theorem serialize_persisted (feed : StoredFeed) : feed.persisted.serialize = feed.serialize := by
  simp only [serialize_eq, persisted_price, persisted_aggTs, persisted_onchainTs]
  have price : BigEndian.toBytes 10 (feed.price.toNat % 2 ^ 80) =
      BigEndian.toBytes 10 feed.price.toNat := BigEndian.toBytes_mod 10 _
  have timestamp (t : UInt64) : BigEndian.toBytes 6 (t.toNat % 2 ^ 48) =
      BigEndian.toBytes 6 t.toNat := BigEndian.toBytes_mod 6 _
  rw [price, timestamp, timestamp]

theorem persisted_eq_iff (a b : StoredFeed) : a.persisted = b.persisted ↔
    a.price.toNat % 2 ^ 80 = b.price.toNat % 2 ^ 80 ∧
      a.aggTs.toNat % 2 ^ 48 = b.aggTs.toNat % 2 ^ 48 ∧
      a.onchainTs.toNat % 2 ^ 48 = b.onchainTs.toNat % 2 ^ 48 := by
  constructor
  · intro same
    rw [← persisted_price, ← persisted_aggTs, ← persisted_onchainTs, same]
    exact ⟨persisted_price b, persisted_aggTs b, persisted_onchainTs b⟩
  · rintro ⟨price, aggTs, onchainTs⟩
    rw [persisted, persisted, price, aggTs, onchainTs]

/-- A record survives exactly if its fields fit. -/
theorem persisted_eq_self_iff (feed : StoredFeed) : feed.persisted = feed ↔
    feed.price.toNat < 2 ^ 80 ∧ feed.aggTs.toNat < 2 ^ 48 ∧ feed.onchainTs.toNat < 2 ^ 48 := by
  constructor
  · intro same
    have price := persisted_price feed
    have aggTs := persisted_aggTs feed
    have onchainTs := persisted_onchainTs feed
    rw [same] at price aggTs onchainTs
    omega
  · rintro ⟨price, aggTs, onchainTs⟩
    have narrow : feed.persisted.price = feed.price := by
      apply BitVec.eq_of_toNat_eq
      rw [persisted_price, Nat.mod_eq_of_lt price]
    ext
    · rw [narrow]
    · rw [persisted_aggTs_eq aggTs]
    · rw [persisted_onchainTs_eq onchainTs]

theorem serialize_eq_iff (a b : StoredFeed) :
    a.serialize = b.serialize ↔ a.persisted = b.persisted := by
  constructor
  · intro same
    have decoded := deserializeReader_serialize a []
    rw [same, deserializeReader_serialize b []] at decoded
    exact (Prod.mk.inj (Except.ok.inj decoded)).1.symm
  · intro same
    rw [← serialize_persisted a, same, serialize_persisted b]

/-- The format in both directions: what is written, what is read back, when that
is the record itself, when two records are written alike, and which inputs are
records. -/
theorem codec_exact :
    (∀ feed : StoredFeed, feed.serialize.length = 22) ∧
    (∀ (feed : StoredFeed) (rest : List UInt8), ∃ back,
      deserializeReader (feed.serialize ++ rest) = .ok (back, rest) ∧
      back.price.toNat = feed.price.toNat % 2 ^ 80 ∧
      back.aggTs.toNat = feed.aggTs.toNat % 2 ^ 48 ∧
      back.onchainTs.toNat = feed.onchainTs.toNat % 2 ^ 48) ∧
    (∀ (feed : StoredFeed) (rest : List UInt8),
      deserializeReader (feed.serialize ++ rest) = .ok (feed, rest) ↔
        feed.price.toNat < 2 ^ 80 ∧ feed.aggTs.toNat < 2 ^ 48 ∧ feed.onchainTs.toNat < 2 ^ 48) ∧
    (∀ a b : StoredFeed, a.serialize = b.serialize ↔
      a.price.toNat % 2 ^ 80 = b.price.toNat % 2 ^ 80 ∧
      a.aggTs.toNat % 2 ^ 48 = b.aggTs.toNat % 2 ^ 48 ∧
      a.onchainTs.toNat % 2 ^ 48 = b.onchainTs.toNat % 2 ^ 48) ∧
    (∀ bytes : List UInt8, bytes.length = 22 →
      ∃ feed, deserializeReader bytes = .ok (feed, []) ∧ feed.serialize = bytes) ∧
    (∀ bytes : List UInt8, bytes.length < 22 →
      deserializeReader bytes = .error .unexpectedEof) := by
  refine ⟨length_serialize, ?_, ?_, ?_, ?_, ?_⟩
  · intro feed rest
    exact ⟨feed.persisted, deserializeReader_serialize feed rest, persisted_price feed,
      persisted_aggTs feed, persisted_onchainTs feed⟩
  · intro feed rest
    rw [deserializeReader_serialize, Except.ok.injEq, Prod.mk.injEq, persisted_eq_self_iff,
      and_iff_left rfl]
  · intro a b
    rw [serialize_eq_iff, persisted_eq_iff]
  · intro bytes h
    exact serialize_of_length h
  · intro bytes h
    exact deserializeReader_short h

end StoredFeed

end NearMultiFeed
