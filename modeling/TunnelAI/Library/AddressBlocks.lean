import Mathlib.Data.Nat.Bitwise
import TunnelAI.Library.StreamReader

/-!
Network addresses as big-endian numbers and the prefix blocks among them. A
block of an address family is read off the leading octets alone.
-/
namespace AddressBlocks
open StreamReader

def value : Bytes → Nat
  | [] => 0
  | b :: rest => b.toNat * 256 ^ rest.length + value rest

/-- The addresses of a family `width` bits wide that share their first `length`
    bits with `base`. -/
structure Block (width : Nat) where
  base : Nat
  length : Nat

def Block.Contains {width : Nat} (block : Block width) (address : Nat) : Prop :=
  address / 2 ^ (width - block.length) = block.base / 2 ^ (width - block.length)

instance {width : Nat} (block : Block width) (address : Nat) :
    Decidable (block.Contains address) :=
  inferInstanceAs (Decidable (_ = _))

theorem value_append (xs ys : Bytes) :
    value (xs ++ ys) = value xs * 256 ^ ys.length + value ys := by
  induction xs with
  | nil => simp [value]
  | cons b xs ih =>
    simp only [List.cons_append, value, List.length_append, ih, Nat.pow_add, Nat.add_mul,
      Nat.mul_assoc, Nat.add_assoc]

theorem value_lt (xs : Bytes) : value xs < 256 ^ xs.length := by
  induction xs with
  | nil => simp [value]
  | cons b xs ih =>
    have small := b.toNat_lt
    have room := Nat.mul_le_mul_right (256 ^ xs.length) (Nat.succ_le_of_lt small)
    rw [Nat.succ_mul] at room
    simp only [value, List.length_cons, Nat.pow_succ]
    omega

theorem value_append_div (xs ys : Bytes) :
    value (xs ++ ys) / 256 ^ ys.length = value xs := by
  have below := value_lt ys
  have positive : 0 < 256 ^ ys.length := Nat.pow_pos (by decide)
  rw [value_append, Nat.mul_comm, Nat.mul_add_div positive, Nat.div_eq_of_lt below, Nat.add_zero]

/-- A prefix that ends among the leading octets does not see the others. -/
theorem value_append_div_pow (xs ys : Bytes) (k : Nat) :
    value (xs ++ ys) / 2 ^ (8 * ys.length + k) = value xs / 2 ^ k := by
  have octets : 2 ^ (8 * ys.length) = 256 ^ ys.length := by rw [Nat.pow_mul]
  rw [Nat.pow_add, octets, ← Nat.div_div_eq_div_mul, value_append_div]

theorem value_injective {xs ys : Bytes} (size : xs.length = ys.length)
    (same : value xs = value ys) : xs = ys := by
  induction xs generalizing ys with
  | nil => exact (List.length_eq_zero_iff.mp size.symm).symm
  | cons b xs ih =>
    cases ys with
    | nil => simp at size
    | cons c ys =>
      have tails : xs.length = ys.length := by simpa using size
      have hx := value_lt xs
      have hy := value_lt ys
      simp only [value] at same
      rw [tails] at same hx
      have heads : b.toNat = c.toNat := by
        have hb := Nat.div_mod_unique (a := b.toNat * 256 ^ ys.length + value xs)
          (d := b.toNat) (c := value xs) (b := 256 ^ ys.length) (by omega)
        have hc := Nat.div_mod_unique (a := b.toNat * 256 ^ ys.length + value xs)
          (d := c.toNat) (c := value ys) (b := 256 ^ ys.length) (by omega)
        have first := hb.mpr ⟨by rw [Nat.mul_comm, Nat.add_comm], hx⟩
        have second := hc.mpr ⟨by rw [same, Nat.mul_comm, Nat.add_comm], hy⟩
        exact first.1.symm.trans second.1
      have rest : value xs = value ys := by rw [heads] at same; omega
      rw [ih tails rest, UInt8.toNat_inj.mp heads]

theorem and_high_mask (x high low : Nat) (bound : x < 2 ^ (high + low)) :
    x &&& (2 ^ high - 1) * 2 ^ low = x / 2 ^ low * 2 ^ low := by
  apply Nat.eq_of_testBit_eq
  intro i
  rw [Nat.testBit_and, Nat.testBit_mul_two_pow, Nat.testBit_mul_two_pow,
    Nat.testBit_two_pow_sub_one, Nat.testBit_div_two_pow]
  by_cases low_bit : i < low
  · simp [Nat.not_le.mpr low_bit]
  · have place : low ≤ i := Nat.le_of_not_lt low_bit
    have same : i - low + low = i := by omega
    rw [same]
    by_cases inside : i - low < high
    · simp [place, inside]
    · have above : x < 2 ^ i :=
        Nat.lt_of_lt_of_le bound (Nat.pow_le_pow_right (by decide) (by omega))
      simp [Nat.testBit_lt_two_pow above]

end AddressBlocks
