import Mathlib.Data.List.Induction
import Mathlib.Tactic.Ring

/-!
# Big-endian bytes

Fixed-width big-endian encodings of natural numbers as byte lists. Writing
keeps the low bytes, reading an arbitrary byte list is positional.
-/
namespace BigEndian

/-- The low `w` bytes of `n`, most significant first. -/
def toBytes : Nat → Nat → List UInt8
  | 0, _ => []
  | w + 1, n => toBytes w (n / 256) ++ [UInt8.ofNat n]

/-- The number a byte list spells, most significant byte first. -/
def ofBytes (bs : List UInt8) : Nat := bs.foldl (fun n b => n * 256 + b.toNat) 0

@[simp] theorem length_toBytes (w n : Nat) : (toBytes w n).length = w := by
  induction w generalizing n with
  | zero => rfl
  | succ w ih => simp only [toBytes, List.length_append, ih, List.length_singleton]

@[simp] theorem ofBytes_nil : ofBytes [] = 0 := rfl

theorem ofBytes_concat (bs : List UInt8) (b : UInt8) :
    ofBytes (bs ++ [b]) = ofBytes bs * 256 + b.toNat := by
  simp only [ofBytes, List.foldl_append, List.foldl_cons, List.foldl_nil]

theorem ofBytes_lt {w : Nat} {bs : List UInt8} (h : bs.length = w) : ofBytes bs < 256 ^ w := by
  subst h
  induction bs using List.reverseRecOn with
  | nil => exact Nat.one_pos
  | append_singleton bs b ih =>
      have hb : b.toNat < 256 := b.toNat_lt
      rw [ofBytes_concat, List.length_append, List.length_singleton, pow_succ]
      omega

/-- Reading what was written gives the number modulo the width. -/
theorem ofBytes_toBytes (w n : Nat) : ofBytes (toBytes w n) = n % 256 ^ w := by
  induction w generalizing n with
  | zero => simp only [toBytes, ofBytes_nil, pow_zero, Nat.mod_one]
  | succ w ih =>
      have low : (UInt8.ofNat n).toNat = n % 256 := UInt8.toNat_ofNat'
      rw [toBytes, ofBytes_concat, ih, low, pow_succ, Nat.mul_comm (256 ^ w) 256,
        Nat.mod_mul]
      omega

/-- Writing what was read gives the bytes back. -/
theorem toBytes_ofBytes {w : Nat} {bs : List UInt8} (h : bs.length = w) :
    toBytes w (ofBytes bs) = bs := by
  subst h
  induction bs using List.reverseRecOn with
  | nil => rfl
  | append_singleton bs b ih =>
      have hb : b.toNat < 256 := b.toNat_lt
      have high : (ofBytes bs * 256 + b.toNat) / 256 = ofBytes bs := by omega
      have low : UInt8.ofNat (ofBytes bs * 256 + b.toNat) = b := by
        apply UInt8.toNat_inj.mp
        rw [UInt8.toNat_ofNat']
        omega
      rw [List.length_append, List.length_singleton, toBytes, ofBytes_concat, high, low, ih]

/-- Only the low bytes are written. -/
theorem toBytes_mod (w n : Nat) : toBytes w (n % 256 ^ w) = toBytes w n := by
  rw [← ofBytes_toBytes, toBytes_ofBytes (length_toBytes w n)]

/-- Dropping high bytes narrows the width. -/
theorem drop_toBytes (k w n : Nat) : (toBytes (k + w) n).drop k = toBytes w n := by
  induction w generalizing n with
  | zero =>
      apply List.drop_eq_nil_of_le
      rw [length_toBytes, Nat.add_zero]
  | succ w ih =>
      have room : k ≤ (toBytes (k + w) (n / 256)).length := by
        rw [length_toBytes]
        exact Nat.le_add_right k w
      rw [← Nat.add_assoc, toBytes, List.drop_append_of_le_length room, ih, toBytes]

/-- Leading zero bytes do not change the number. -/
theorem ofBytes_zeros_append (k : Nat) (bs : List UInt8) :
    ofBytes (List.replicate k 0 ++ bs) = ofBytes bs := by
  have zeros : ofBytes (List.replicate k 0) = 0 := by
    induction k with
    | zero => rfl
    | succ k ih => rw [List.replicate_succ', ofBytes_concat, ih]; rfl
  have seed : List.foldl (fun n (b : UInt8) => n * 256 + b.toNat) 0 (List.replicate k 0) = 0 :=
    zeros
  simp only [ofBytes, List.foldl_append, seed]

end BigEndian
