import NearMultiFeed.Lib.BigEndian
import NearMultiFeed.NearSdk

/-! The data types of `types.rs`: the stored feed and its 22-byte codec, the
value returned to readers, the packed flags byte and the two update records. -/
namespace NearMultiFeed

abbrev U128 := BitVec 128

/-- Internal storage format of a feed. -/
structure StoredFeed where
  price : U128
  aggTs : UInt64
  onchainTs : UInt64
  deriving DecidableEq, Repr

namespace StoredFeed

/-- `price.to_be_bytes()[6..16]`, then bytes 2..8 of both timestamps. -/
def serialize (feed : StoredFeed) : List UInt8 :=
  (BigEndian.toBytes 16 feed.price.toNat).extract 6 16 ++
    (BigEndian.toBytes 8 feed.aggTs.toNat).extract 2 8 ++
    (BigEndian.toBytes 8 feed.onchainTs.toNat).extract 2 8

/-- Every field is read into the low bytes of a zeroed buffer. -/
def deserializeReader (reader : List UInt8) : Except IoError (StoredFeed × List UInt8) := do
  let (price, reader) ← readExact 10 reader
  let priceBuf := List.replicate 6 0 ++ price
  let (aggTs, reader) ← readExact 6 reader
  let aggTsBuf := List.replicate 2 0 ++ aggTs
  let (onchainTs, reader) ← readExact 6 reader
  let onchainTsBuf := List.replicate 2 0 ++ onchainTs
  return ({ price := BitVec.ofNat 128 (BigEndian.ofBytes priceBuf)
            aggTs := UInt64.ofNat (BigEndian.ofBytes aggTsBuf)
            onchainTs := UInt64.ofNat (BigEndian.ofBytes onchainTsBuf) }, reader)

instance : Borsh StoredFeed := ⟨serialize, deserializeReader⟩

end StoredFeed

/-- Returned by `fetch` and `fetch_batch`. -/
structure FeedData where
  price : U128
  aggTs : UInt64
  onchainTs : UInt64
  deriving DecidableEq, Repr

/-- `impl From<&StoredFeed> for FeedData`. -/
def FeedData.from (feed : StoredFeed) : FeedData :=
  { price := feed.price, aggTs := feed.aggTs, onchainTs := feed.onchainTs }

/-- Bit-packed contract flags: open read is bit 0, paused is bit 1. -/
structure Flags where
  bits : UInt8
  deriving DecidableEq, Repr

namespace Flags

def openReadMask : UInt8 := (1 : UInt8) <<< 0
def pausedMask : UInt8 := (1 : UInt8) <<< 1

def new (isPaused isOpenRead : Bool) : Flags := ⟨isOpenRead.toUInt8 ||| isPaused.toUInt8 <<< 1⟩

/-- One comparison, right only while no bit above bit 1 is set. -/
def isPaused (flags : Flags) : Bool := flags.bits > 1

def isOpenReadWhenUnpaused (flags : Flags) : Bool := flags.bits == openReadMask

def isOpenRead (flags : Flags) : Bool := flags.bits &&& openReadMask != 0

def flipPaused (flags : Flags) : Flags := ⟨flags.bits ^^^ pausedMask⟩

def flipOpenRead (flags : Flags) : Flags := ⟨flags.bits ^^^ openReadMask⟩

/-- The flags bytes the contract can build. -/
inductive Built : Flags → Prop
  | new (isPaused isOpenRead : Bool) : Built (Flags.new isPaused isOpenRead)
  | flipPaused {flags : Flags} : Built flags → Built flags.flipPaused
  | flipOpenRead {flags : Flags} : Built flags → Built flags.flipOpenRead

@[simp] theorem isPaused_new (p o : Bool) : (new p o).isPaused = p := by
  cases p <;> cases o <;> rfl

@[simp] theorem isOpenRead_new (p o : Bool) : (new p o).isOpenRead = o := by
  cases p <;> cases o <;> rfl

@[simp] theorem isOpenReadWhenUnpaused_new (p o : Bool) :
    (new p o).isOpenReadWhenUnpaused = (!p && o) := by
  cases p <;> cases o <;> rfl

@[simp] theorem flipPaused_new (p o : Bool) : (new p o).flipPaused = new (!p) o := by
  cases p <;> cases o <;> rfl

@[simp] theorem flipOpenRead_new (p o : Bool) : (new p o).flipOpenRead = new p (!o) := by
  cases p <;> cases o <;> rfl

/-- A built flags byte is the packing of the two booleans it shows. -/
theorem Built.eq_new {flags : Flags} (h : Built flags) :
    flags = Flags.new flags.isPaused flags.isOpenRead := by
  induction h with
  | new p o => rw [isPaused_new, isOpenRead_new]
  | flipPaused h ih => rw [ih, flipPaused_new, isPaused_new, isOpenRead_new]
  | flipOpenRead h ih => rw [ih, flipOpenRead_new, isPaused_new, isOpenRead_new]

theorem Built.isOpenReadWhenUnpaused_eq {flags : Flags} (h : Built flags) :
    flags.isOpenReadWhenUnpaused = (!flags.isPaused && flags.isOpenRead) := by
  rw [h.eq_new, isOpenReadWhenUnpaused_new, isPaused_new, isOpenRead_new]

theorem Built.isOpenRead_flipPaused {flags : Flags} (h : Built flags) :
    flags.flipPaused.isOpenRead = flags.isOpenRead := by
  rw [h.eq_new, flipPaused_new, isOpenRead_new, isOpenRead_new]

theorem Built.isPaused_flipPaused {flags : Flags} (h : Built flags) :
    flags.flipPaused.isPaused = !flags.isPaused := by
  rw [h.eq_new, flipPaused_new, isPaused_new, isPaused_new]

theorem Built.isOpenRead_flipOpenRead {flags : Flags} (h : Built flags) :
    flags.flipOpenRead.isOpenRead = !flags.isOpenRead := by
  rw [h.eq_new, flipOpenRead_new, isOpenRead_new, isOpenRead_new]

theorem Built.isPaused_flipOpenRead {flags : Flags} (h : Built flags) :
    flags.flipOpenRead.isPaused = flags.isPaused := by
  rw [h.eq_new, flipOpenRead_new, isPaused_new, isPaused_new]

end Flags

/-- One price entry submitted to `f`. -/
structure FeedUpdate where
  feedId : UInt32
  price : U128
  aggTs : UInt64
  deriving DecidableEq, Repr

/-- One membership update: add when `status` is true, remove when false. -/
structure RoleUpdate (AccountId : Type) where
  account : AccountId
  status : Bool
  deriving DecidableEq, Repr

end NearMultiFeed
