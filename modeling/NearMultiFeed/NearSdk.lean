import Mathlib.Data.List.Nodup

/-!
# What the contract uses of near-sdk and borsh

Neither crate is part of the repository, so their storage collections are
parameters: a type with the operations the contract calls and the documented
laws of those operations. Every result about the contract holds for any such
type.
-/
namespace NearMultiFeed

/-- The `std::io` errors borsh decoding can end in. -/
inductive IoError where
  | unexpectedEof
  | notAllBytesRead
  deriving DecidableEq, Repr

/-- `BorshSerialize` and `BorshDeserialize`; a reader is the bytes still unread. -/
class Borsh (V : Type) where
  serialize : V → List UInt8
  deserializeReader : List UInt8 → Except IoError (V × List UInt8)

/-- `std::io::Read::read_exact` into a buffer of `n` bytes. -/
def readExact (n : Nat) (reader : List UInt8) : Except IoError (List UInt8 × List UInt8) :=
  if n ≤ reader.length then .ok (reader.take n, reader.drop n) else .error .unexpectedEof

/-- `borsh::to_vec`. -/
def toVec {V : Type} [Borsh V] (v : V) : List UInt8 := Borsh.serialize v

/-- `BorshDeserialize::try_from_slice`: leftover bytes are an error. -/
def tryFromSlice {V : Type} [Borsh V] (bytes : List UInt8) : Except IoError V :=
  match Borsh.deserializeReader bytes with
  | .ok (v, []) => .ok v
  | .ok (_, _ :: _) => .error .notAllBytesRead
  | .error e => .error e

/-- `near_sdk::store::LookupMap<K, V>`. Within a call a written value is read
back as it was written. `flush` is the end of the call: written values become
`to_vec` bytes, and the next call reads them back with `try_from_slice`. -/
class LookupMap (M : Type) (K V : outParam Type) [Borsh V] where
  new : M
  get : M → K → Option V
  insert : M → K → V → M
  flush : M → M
  get_new : ∀ k, get new k = none
  get_insert_self : ∀ m k v, get (insert m k v) k = some v
  get_insert_of_ne : ∀ m k v k', k' ≠ k → get (insert m k v) k' = get m k'
  flush_new : flush new = new
  flush_flush : ∀ m, flush (flush m) = flush m
  get_flush_insert_self : ∀ m k v v', tryFromSlice (toVec v) = .ok v' →
    get (flush (insert m k v)) k = some v'
  get_flush_insert_of_ne : ∀ m k v k', k' ≠ k →
    get (flush (insert m k v)) k' = get (flush m) k'

/-- `near_sdk::store::LookupSet<T>`. Both updates return whether they changed
the set. Its elements are stored losslessly, so a call boundary does not show. -/
class LookupSet (S : Type) (T : outParam Type) where
  new : S
  contains : S → T → Bool
  insert : S → T → Bool × S
  remove : S → T → Bool × S
  contains_new : ∀ a, contains new a = false
  insert_changed : ∀ s a, (insert s a).1 = !contains s a
  contains_insert_self : ∀ s a, contains (insert s a).2 a = true
  contains_insert_of_ne : ∀ s a b, b ≠ a → contains (insert s a).2 b = contains s b
  remove_changed : ∀ s a, (remove s a).1 = contains s a
  contains_remove_self : ∀ s a, contains (remove s a).2 a = false
  contains_remove_of_ne : ∀ s a b, b ≠ a → contains (remove s a).2 b = contains s b

/-- `near_sdk::store::IterableSet<T>`: a set whose elements can be listed. -/
class IterableSet (S : Type) (T : outParam Type) extends LookupSet S T where
  iter : S → List T
  mem_iter : ∀ s a, a ∈ iter s ↔ contains s a = true
  nodup_iter : ∀ s, (iter s).Nodup

attribute [simp] LookupMap.get_new LookupMap.get_insert_self LookupMap.flush_new
  LookupMap.flush_flush LookupSet.contains_new LookupSet.insert_changed
  LookupSet.contains_insert_self LookupSet.remove_changed LookupSet.contains_remove_self
  IterableSet.mem_iter

section Sets
variable {S T : Type} [LookupSet S T] [DecidableEq T]

theorem LookupSet.contains_insert (s : S) (a : T) :
    contains (insert s a).2 = Function.update (contains s) a true := by
  funext b
  by_cases h : b = a
  · subst h
    rw [contains_insert_self, Function.update_self]
  · rw [contains_insert_of_ne s a b h, Function.update_of_ne h]

theorem LookupSet.contains_remove (s : S) (a : T) :
    contains (remove s a).2 = Function.update (contains s) a false := by
  funext b
  by_cases h : b = a
  · subst h
    rw [contains_remove_self, Function.update_self]
  · rw [contains_remove_of_ne s a b h, Function.update_of_ne h]

end Sets

end NearMultiFeed
