import Mathlib.Algebra.Group.Nat.Defs
import Mathlib.Data.LawfulXor.Basic
import Mathlib.Tactic.Common

/-!
# Big-endian numerals and masks over bytes

A byte string of length `w` is a numeral in base 256 with its first byte the
most significant. Reading and writing are inverse up to the width. Shifts and
disjunctions of bytes are the same numerals, and a mask applied twice vanishes.
-/

namespace BigEndian

/-- The `w` low bytes of `n`, most significant first. -/
def encode : Nat → Nat → List UInt8
  | 0, _ => []
  | w + 1, n => (n / 256 ^ w).toUInt8 :: encode w n

def decode : List UInt8 → Nat
  | [] => 0
  | b :: bs => b.toNat * 256 ^ bs.length + decode bs

@[simp] lemma encode_length (w n : Nat) : (encode w n).length = w := by
  induction w with
  | zero => rfl
  | succ w ih => simp [encode, ih]

lemma decode_lt (bs : List UInt8) : decode bs < 256 ^ bs.length := by
  induction bs with
  | nil => simp [decode]
  | cons b bs ih =>
    have hb : b.toNat + 1 ≤ 256 := b.toNat_lt
    have hmul := Nat.mul_le_mul_right (256 ^ bs.length) hb
    simp only [decode, List.length_cons, Nat.pow_succ]
    rw [Nat.add_mul] at hmul
    omega

/-- Reading back what was written truncates to the width. -/
theorem decode_encode (w n : Nat) : decode (encode w n) = n % 256 ^ w := by
  induction w with
  | zero => simp [encode, decode, Nat.mod_one]
  | succ w ih =>
    have hbyte : (n / 256 ^ w).toUInt8.toNat = n / 256 ^ w % 256 := by simp
    simp only [encode, decode, encode_length, ih, hbyte]
    rw [Nat.pow_succ, Nat.mod_mul, Nat.mul_comm, Nat.add_comm]

lemma decode_encode_of_lt {w n : Nat} (h : n < 256 ^ w) : decode (encode w n) = n := by
  rw [decode_encode, Nat.mod_eq_of_lt h]

/-- Digits above the width are not written. -/
lemma encode_add (w k n : Nat) : encode w (k * 256 ^ w + n) = encode w n := by
  induction w generalizing k with
  | zero => rfl
  | succ w ih =>
    have hpow : k * 256 ^ (w + 1) = k * 256 * 256 ^ w := by
      rw [Nat.pow_succ, Nat.mul_comm (256 ^ w), ← Nat.mul_assoc]
    have hdigit : (k * 256 * 256 ^ w + n) / 256 ^ w = k * 256 + n / 256 ^ w := by
      rw [Nat.add_comm, Nat.add_mul_div_right _ _ (Nat.pow_pos (by omega)), Nat.add_comm]
    have hbyte : (k * 256 + n / 256 ^ w).toUInt8 = (n / 256 ^ w).toUInt8 := by
      apply UInt8.toNat_inj.mp
      simp
    simp only [encode, hpow, hdigit, hbyte, ih]

/-- Writing back what was read gives the same bytes. -/
theorem encode_decode (bs : List UInt8) : encode bs.length (decode bs) = bs := by
  induction bs with
  | nil => rfl
  | cons b bs ih =>
    have hpos : 0 < 256 ^ bs.length := Nat.pow_pos (by omega)
    have hdigit : (b.toNat * 256 ^ bs.length + decode bs) / 256 ^ bs.length = b.toNat := by
      rw [Nat.add_comm, Nat.add_mul_div_right _ _ hpos, Nat.div_eq_of_lt (decode_lt bs),
        Nat.zero_add]
    simp only [decode, List.length_cons, encode, hdigit, encode_add, ih]
    simp

/-- A shifted digit and a smaller disjunct do not overlap. -/
lemma shiftLeft_or (a b i : Nat) (h : b < 2 ^ i) : a <<< i ||| b = a * 2 ^ i + b := by
  rw [← Nat.shiftLeft_add_eq_or_of_lt h, Nat.shiftLeft_eq]

/-- Exclusive or with the first `count` bytes of a mask, as far as both reach. -/
def xorPrefix : Nat → List UInt8 → List UInt8 → List UInt8
  | n + 1, m :: ms, b :: bs => (b ^^^ m) :: xorPrefix n ms bs
  | _, _, bs => bs

@[simp] lemma xorPrefix_length (n : Nat) (ms bs : List UInt8) :
    (xorPrefix n ms bs).length = bs.length := by
  induction n generalizing ms bs with
  | zero => simp [xorPrefix]
  | succ n ih => cases ms <;> cases bs <;> simp [xorPrefix, ih]

/-- Masking a string, appending to it and unmasking with the same count restores it. -/
theorem xorPrefix_undo (n : Nat) (ms bs more : List UInt8) :
    (xorPrefix n ms (xorPrefix n ms bs ++ more)).take bs.length = bs := by
  induction n generalizing ms bs with
  | zero => simp [xorPrefix]
  | succ n ih =>
    cases ms with
    | nil => simp [xorPrefix]
    | cons m ms =>
      cases bs with
      | nil => simp
      | cons b bs => simp [xorPrefix, ih]

lemma xor_and (a b q : UInt8) : (a ^^^ b) &&& q = (a &&& q) ^^^ (b &&& q) := by
  apply UInt8.toBitVec_inj.mp
  apply BitVec.eq_of_getLsbD_eq
  intro i _
  simp only [UInt8.toBitVec_and, UInt8.toBitVec_xor, BitVec.getLsbD_and, BitVec.getLsbD_xor]
  cases a.toBitVec.getLsbD i <;> cases b.toBitVec.getLsbD i <;>
    cases q.toBitVec.getLsbD i <;> rfl

lemma masked_and {a m p q : UInt8} (h : p &&& q = 0) : (a ^^^ (m &&& p)) &&& q = a &&& q := by
  rw [xor_and, UInt8.and_assoc, h, UInt8.and_zero, UInt8.xor_zero]

lemma masked_shiftRight {a m p s : UInt8} (h : p >>> s = 0) :
    (a ^^^ (m &&& p)) >>> s = a >>> s := by
  rw [UInt8.shiftRight_xor, UInt8.shiftRight_and, h, UInt8.and_zero, UInt8.xor_zero]

end BigEndian
