import DeerQuic.Protection
import DeerQuic.Window
import Mathlib.Data.Nat.Bitwise

/-!
# Packet number coding

A packet number travels as its low bytes. The receiver completes them to the number
closest to the one after the largest it knows, which is the number sent as long as that
lies within half a window of it.
-/

namespace DeerQuic.Protection

open Outcome Checked

lemma encodedPnLen_cases (pn acked : Nat) :
    encodedPnLen pn acked = 1 ∨ encodedPnLen pn acked = 2 ∨ encodedPnLen pn acked = 4 := by
  unfold encodedPnLen
  split_ifs <;> simp

lemma encodedPnLen_bounds (pn acked : Nat) :
    1 ≤ encodedPnLen pn acked ∧ encodedPnLen pn acked ≤ 4 := by
  rcases encodedPnLen_cases pn acked with h | h | h <;> omega

/-- The length is enough for every number below `2^32`. -/
lemma pn_lt_of_encodedPnLen {pn acked : Nat} (h : pn < 2 ^ 32) :
    pn < 256 ^ encodedPnLen pn acked := by
  unfold encodedPnLen
  split_ifs with h1 h2 <;> omega

lemma pnField_eq {len : Nat} (hlen : 1 ≤ len ∧ len ≤ 4) (pn : Nat) :
    pnField pn len = BigEndian.encode len pn := by
  have hcases : len = 1 ∨ len = 2 ∨ len = 3 ∨ len = 4 := by omega
  rcases hcases with rfl | rfl | rfl | rfl <;>
    simp [pnField, BigEndian.encode, Nat.shiftRight_eq_div_pow]

lemma pnField_length {len : Nat} (hlen : 1 ≤ len ∧ len ≤ 4) (pn : Nat) :
    (pnField pn len).length = len := by
  rw [pnField_eq hlen, BigEndian.encode_length]

lemma readPn_eq {bytes : Bytes} (hlen : 1 ≤ bytes.length ∧ bytes.length ≤ 4) :
    readPn bytes = BigEndian.decode bytes := by
  have hcases : bytes.length = 1 ∨ bytes.length = 2 ∨ bytes.length = 3 ∨ bytes.length = 4 := by
    omega
  unfold readPn
  rcases hcases with h | h | h | h <;> simp only [h]

lemma readPn_pnField {len : Nat} (hlen : 1 ≤ len ∧ len ≤ 4) (pn : Nat) :
    readPn (pnField pn len) = pn % 256 ^ len := by
  have hfield := pnField_length hlen pn
  rw [readPn_eq (by omega), pnField_eq hlen, BigEndian.decode_encode]

lemma readPn_lt {bytes : Bytes} (hlen : 1 ≤ bytes.length ∧ bytes.length ≤ 4) :
    readPn bytes < 256 ^ bytes.length := by
  rw [readPn_eq hlen]
  exact BigEndian.decode_lt bytes

lemma and_high_mask {x k : Nat} (hx : x < 2 ^ 64) (hk : k ≤ 64) :
    x &&& (2 ^ 64 - 1 - (2 ^ k - 1)) = x / 2 ^ k * 2 ^ k := by
  have hle : 2 ^ k ≤ 2 ^ 64 := Nat.pow_le_pow_right (by omega) hk
  have hpos : 0 < 2 ^ k := Nat.pow_pos (by omega)
  have hmask : 2 ^ 64 - 1 - (2 ^ k - 1) = 2 ^ 64 - (2 ^ k - 1 + 1) := by omega
  rw [← Nat.shiftRight_eq_div_pow, ← Nat.shiftLeft_eq, hmask]
  apply Nat.eq_of_testBit_eq
  intro i
  rw [Nat.testBit_and, Nat.testBit_shiftLeft, Nat.testBit_shiftRight,
    Nat.testBit_two_pow_sub_succ (by omega), Nat.testBit_two_pow_sub_one]
  by_cases hi : i < 64
  · by_cases hik : k ≤ i
    · simp [hi, hik, Nat.not_lt.mpr hik]
    · simp [hi, hik, Nat.not_le.mp hik]
  · have hbit : x.testBit i = false := Nat.testBit_lt_two_pow
      (Nat.lt_of_lt_of_le hx (Nat.pow_le_pow_right (by omega) (by omega)))
    by_cases hik : k ≤ i <;> simp [hi, hik, hbit]

/-- The candidate shares the high part of the expected number. -/
lemma decodePacketNumber_eq {ε : Type} {largest truncated len : Nat}
    (hlen : len ≤ 4) (hlarge : largest + 1 < 2 ^ 64) (ht : truncated < 256 ^ len) :
    (Packet.decodePacketNumber largest truncated len : Outcome ε Nat) =
      let candidate := (largest + 1) / 256 ^ len * 256 ^ len + truncated
      (do
        let above ← addU64 candidate (256 ^ len / 2)
        if above ≤ largest + 1 then addU64 candidate (256 ^ len)
        else do
          let bound ← addU64 (largest + 1) (256 ^ len / 2)
          ok (if bound < candidate ∧ 256 ^ len < candidate then candidate - 256 ^ len
            else candidate)) := by
  have hwin : 256 ^ len = 2 ^ (len * 8) := by
    rw [Nat.mul_comm, Nat.pow_mul]
  have hshift : 1 <<< (len * 8) = 2 ^ (len * 8) := by
    rw [Nat.shiftLeft_eq, Nat.one_mul]
  rw [hwin] at ht
  have hor : (largest + 1) / 2 ^ (len * 8) * 2 ^ (len * 8) ||| truncated =
      (largest + 1) / 2 ^ (len * 8) * 2 ^ (len * 8) + truncated := by
    rw [← BigEndian.shiftLeft_or _ _ _ ht, Nat.shiftLeft_eq]
  have hsum : (addU64 largest 1 : Outcome ε Nat) = ok (largest + 1) := addU64_of_lt hlarge
  simp only [Packet.decodePacketNumber, hsum, ok_bind, hshift,
    and_high_mask hlarge (show len * 8 ≤ 64 by omega), hor, hwin]

/-- The expected number lies half a window below `2^64`, or a window below it and the
truncated number in the upper half. -/
def Overflows (largest truncated len : Nat) : Prop :=
  2 ^ 64 ≤ largest + 1 + 256 ^ len / 2 ∨
    2 ^ 64 ≤ largest + 1 + 256 ^ len ∧ 256 ^ len / 2 ≤ truncated

lemma not_overflows {largest truncated len : Nat} (hlarge : largest < 2 ^ 64 - 2 ^ 33)
    (hlen : len ≤ 4) : ¬ Overflows largest truncated len := by
  have hwin : 256 ^ len ≤ 256 ^ 4 := Nat.pow_le_pow_right (by omega) hlen
  unfold Overflows
  omega

/-- The sums that do not fit 64 bits are those of the last window. -/
theorem decodePacketNumber_eq_panic {ε : Type} (largest : Nat) {truncated len : Nat}
    (hlen : 1 ≤ len ∧ len ≤ 4) (ht : truncated < 256 ^ len) :
    (Packet.decodePacketNumber largest truncated len : Outcome ε Nat) = .panic ↔
      Overflows largest truncated len := by
  unfold Overflows
  by_cases hlarge : largest + 1 < 2 ^ 64
  · rw [decodePacketNumber_eq hlen.2 hlarge ht]
    have hcases : len = 1 ∨ len = 2 ∨ len = 3 ∨ len = 4 := by omega
    dsimp only
    by_cases habove : (largest + 1) / 256 ^ len * 256 ^ len + truncated + 256 ^ len / 2 < 2 ^ 64
    · rw [addU64_of_lt habove, ok_bind]
      split_ifs with hbelow
      · rw [addU64_eq_panic]
        rcases hcases with rfl | rfl | rfl | rfl <;> omega
      · simp only [bind_eq_panic, addU64_eq_panic, reduceCtorEq, and_false, exists_false, or_false]
        rcases hcases with rfl | rfl | rfl | rfl <;> omega
    · rw [addU64_eq_panic.mpr (Nat.not_lt.mp habove), panic_bind, eq_self, true_iff]
      rcases hcases with rfl | rfl | rfl | rfl <;> omega
  · rw [Packet.decodePacketNumber, addU64_eq_panic.mpr (Nat.not_lt.mp hlarge), panic_bind]
    exact ⟨fun _ => .inl (by omega), fun _ => rfl⟩

lemma window_bounds {len : Nat} (hlen : 1 ≤ len ∧ len ≤ 4) :
    256 ≤ 256 ^ len ∧ 256 ^ len ≤ 2 ^ 32 ∧ 256 ^ len % 2 = 0 := by
  have hcases : len = 1 ∨ len = 2 ∨ len = 3 ∨ len = 4 := by omega
  rcases hcases with rfl | rfl | rfl | rfl <;> decide

/-- Where no sum overflows, the truncated number is completed as a residue. -/
theorem decodePacketNumber_complete {ε : Type} {largest truncated len : Nat}
    (hlen : 1 ≤ len ∧ len ≤ 4) (hlarge : largest < 2 ^ 63) (ht : truncated < 256 ^ len) :
    (Packet.decodePacketNumber largest truncated len : Outcome ε Nat) =
      ok (Window.complete (256 ^ len) (largest + 1) truncated) := by
  obtain ⟨hlow, hhigh, -⟩ := window_bounds hlen
  have hblock := Window.block_bounds (largest + 1) (show 0 < 256 ^ len by omega)
  have hguard := Window.window_lt_candidate (largest + 1) ht
  rw [decodePacketNumber_eq hlen.2 (by omega) ht]
  unfold Window.complete
  dsimp only
  rw [addU64_of_lt (by omega), ok_bind]
  by_cases hbelow : (largest + 1) / 256 ^ len * 256 ^ len + truncated + 256 ^ len / 2 ≤ largest + 1
  · rw [if_pos hbelow, if_pos hbelow, addU64_of_lt (by omega)]
  · rw [if_neg hbelow, if_neg hbelow, addU64_of_lt (by omega), ok_bind]
    by_cases habove : largest + 1 + 256 ^ len / 2 <
        (largest + 1) / 256 ^ len * 256 ^ len + truncated
    · simp only [habove, hguard habove]
    · rw [if_neg (fun h => habove h.1), if_neg (fun h => habove h.1)]

/-- With nothing known yet the truncated number is the number. -/
lemma decodePacketNumber_zero {ε : Type} {truncated len : Nat} (hlen : 1 ≤ len ∧ len ≤ 4)
    (ht : truncated < 256 ^ len) :
    (Packet.decodePacketNumber 0 truncated len : Outcome ε Nat) = ok truncated := by
  obtain ⟨hlow, -, heven⟩ := window_bounds hlen
  rw [decodePacketNumber_complete hlen (by omega) ht,
    Window.complete_of_lt heven ht (by omega)]

/-- `pn` is less than half a window away from the number after `largest`, or exactly half
a window above it. -/
def InWindow (largest pn len : Nat) : Prop :=
  largest + 1 < pn + 256 ^ len / 2 ∧ pn ≤ largest + 1 + 256 ^ len / 2

instance (largest pn len : Nat) : Decidable (InWindow largest pn len) :=
  inferInstanceAs (Decidable (_ ∧ _))

/-- The number sent comes back from its low bytes. -/
theorem decodePacketNumber_window {ε : Type} {largest pn len : Nat} (hlen : 1 ≤ len ∧ len ≤ 4)
    (hlarge : largest < 2 ^ 62) (h : InWindow largest pn len) :
    (Packet.decodePacketNumber largest (pn % 256 ^ len) len : Outcome ε Nat) = ok pn := by
  obtain ⟨hlow, -, heven⟩ := window_bounds hlen
  rw [decodePacketNumber_complete hlen (by omega) (Nat.mod_lt _ (by omega)),
    Window.complete_of_window (by omega) heven h.1 h.2]

end DeerQuic.Protection
