import DeerQuic.PacketNumber

/-!
# Recovering packet numbers

Decoding is completion of a residue, so what is known of the one carries over to the other: a
number in the window is recovered, and so is every number the sender encodes, whose length goes by
its size alone. The sample algorithm of RFC 9000, Appendix A.3, keeps completion below `2^62`. The
decoder does not, and the two part in the last window.
-/

namespace DeerQuic.Protection

open Outcome Checked

lemma pow_window (len : Nat) : 2 ^ (8 * len) = 256 ^ len := by
  rw [Nat.pow_mul]

theorem number_in_window_recovered {ε : Type} {largest pn len : Nat}
    (hlarge : largest ≤ 2 ^ 62 - 2) (hlen : 1 ≤ len ∧ len ≤ 4)
    (hbelow : largest + 1 < pn + 2 ^ (8 * len) / 2)
    (habove : pn ≤ largest + 1 + 2 ^ (8 * len) / 2) :
    (Packet.decodePacketNumber largest (pn % 2 ^ (8 * len)) len : Outcome ε Nat) = ok pn := by
  rw [pow_window] at hbelow habove ⊢
  exact decodePacketNumber_window hlen (by omega) ⟨hbelow, habove⟩

/-- The packet number `0xa82f9b32`, of which two bytes are sent. -/
theorem number_in_window_recovered_sample :
    (Packet.decodePacketNumber 0xa82f30ea (0xa82f9b32 % 2 ^ (8 * 2)) 2 : Outcome Empty Nat) =
      ok 0xa82f9b32 :=
  number_in_window_recovered (by decide) (by decide) (by decide) (by decide)

/-- `DecodePacketNumber` of RFC 9000, Appendix A.3, on integers that do not wrap. -/
def rfcDecodePacketNumber (largestPn truncatedPn pnNbits : Nat) : Nat :=
  let expectedPn := largestPn + 1
  let pnWin := 1 <<< pnNbits
  let pnHwin := pnWin / 2
  let candidatePn := (expectedPn - expectedPn % pnWin) ||| truncatedPn
  if (candidatePn : Int) ≤ (expectedPn : Int) - pnHwin ∧ (candidatePn : Int) < 2 ^ 62 - pnWin then
    candidatePn + pnWin
  else if expectedPn + pnHwin < candidatePn ∧ pnWin ≤ candidatePn then candidatePn - pnWin
  else candidatePn

lemma rfcDecodePacketNumber_eq (largest : Nat) {truncated bits : Nat} (ht : truncated < 2 ^ bits) :
    rfcDecodePacketNumber largest truncated bits =
      Window.completeBelow (2 ^ 62) (2 ^ bits) (largest + 1) truncated := by
  have hwin : 1 <<< bits = 2 ^ bits := by rw [Nat.shiftLeft_eq, Nat.one_mul]
  have hor : (largest + 1) / 2 ^ bits * 2 ^ bits ||| truncated =
      (largest + 1) / 2 ^ bits * 2 ^ bits + truncated := by
    rw [← BigEndian.shiftLeft_or _ _ _ ht, Nat.shiftLeft_eq]
  have hblock : largest + 1 - (largest + 1) % 2 ^ bits = (largest + 1) / 2 ^ bits * 2 ^ bits := by
    have hdiv := Nat.div_add_mod' (largest + 1) (2 ^ bits)
    omega
  unfold rfcDecodePacketNumber Window.completeBelow
  dsimp only
  rw [hwin, hblock, hor]
  generalize (largest + 1) / 2 ^ bits * 2 ^ bits + truncated = candidate
  generalize 2 ^ bits = win
  split_ifs <;> omega

/-- Decoding returns, without overflow, a number of the residue that a variable-length integer can
hold, the one of the sample algorithm. -/
def DecodesWell (largest truncated len : Nat) : Prop :=
  ∃ pn, (Packet.decodePacketNumber largest truncated len : Outcome Empty Nat) = ok pn ∧
    pn % 2 ^ (8 * len) = truncated ∧ pn ≤ VarInt.varintMax ∧
    pn = rfcDecodePacketNumber largest truncated (8 * len)

/-- It does not where the residue would be completed to a number from `2^62` on. -/
theorem decodes_well_iff {largest truncated len : Nat} (hlarge : largest ≤ 2 ^ 62 - 2)
    (hlen : 1 ≤ len ∧ len ≤ 4) (ht : truncated < 2 ^ (8 * len)) :
    DecodesWell largest truncated len ↔
      largest + 1 + 2 ^ (8 * len) / 2 < 2 ^ 62 + truncated := by
  have hrfc := rfcDecodePacketNumber_eq largest ht
  unfold DecodesWell
  rw [pow_window] at ht hrfc ⊢
  obtain ⟨hlow, -, heven⟩ := window_bounds hlen
  have hdvd : 256 ^ len ∣ 2 ^ 62 := by
    have hcases : len = 1 ∨ len = 2 ∨ len = 3 ∨ len = 4 := by omega
    rcases hcases with rfl | rfl | rfl | rfl <;> decide
  have hexpected : largest + 1 < 2 ^ 62 := by omega
  have hlt := Window.complete_lt_iff hdvd heven ht hexpected
  have hsame := Window.complete_eq_completeBelow_iff (by omega) hdvd ht hexpected
  have hmod := Window.complete_mod (largest + 1) ht
  rw [decodePacketNumber_complete hlen (by omega) ht, hrfc, ← hlt]
  constructor
  · rintro ⟨pn, hdecode, -, hfits, -⟩
    rw [ok.inj hdecode]
    exact Nat.lt_of_le_pred (by decide) hfits
  · intro hfits
    exact ⟨_, rfl, hmod, Nat.le_pred_of_lt hfits, hsame.mpr hfits⟩

theorem decodes_well_iff_sample :
    DecodesWell 0xa82f30ea 0x9b32 2 ↔ 0xa82f30ea + 1 + 2 ^ (8 * 2) / 2 < 2 ^ 62 + 0x9b32 :=
  decodes_well_iff (by decide) (by decide) (by decide)

/-- Past the largest packet number but one, a zero byte is taken for `2^62`. -/
theorem decoded_past_limit :
    (Packet.decodePacketNumber (2 ^ 62 - 2) 0 1 : Outcome Empty Nat) = ok (2 ^ 62) ∧
      rfcDecodePacketNumber (2 ^ 62 - 2) 0 8 = 2 ^ 62 - 256 := by
  decide +kernel

/-- The length that the sender chooses is enough for a receiver that has fallen behind by at most
`2^31` numbers, or has seen fewer than 127 beyond this one. -/
theorem sent_number_recovered {ε : Type} {largest pn : Nat} (acked : Nat)
    (hlarge : largest < 2 ^ 62 - 1) (hbelow : largest + 1 < pn + 128)
    (habove : pn ≤ largest + 1 + 2 ^ 31) :
    (Packet.decodePacketNumber largest (readPn (pnField pn (encodedPnLen pn acked)))
      (encodedPnLen pn acked) : Outcome ε Nat) = ok pn := by
  have hlen := encodedPnLen_bounds pn acked
  obtain ⟨hlow, -, heven⟩ := window_bounds hlen
  rw [readPn_pnField hlen]
  by_cases hlong : pn < 65536
  · -- The number fits its bytes: how far the receiver is behind does not matter.
    have hfits : pn < 256 ^ encodedPnLen pn acked := pn_lt_of_encodedPnLen (by omega)
    rw [Nat.mod_eq_of_lt hfits, decodePacketNumber_complete hlen (by omega) hfits,
      Window.complete_of_lt heven hfits (by omega)]
  · have hfour : encodedPnLen pn acked = 4 := by
      unfold encodedPnLen
      rw [if_neg (by omega), if_neg hlong]
    rw [hfour]
    exact decodePacketNumber_window (by decide) (by omega) ⟨by omega, by omega⟩

/-- The first number of two bytes, when the receiver has got as far as 300. -/
theorem sent_number_recovered_256 :
    (Packet.decodePacketNumber 300 (readPn (pnField 256 (encodedPnLen 256 0)))
      (encodedPnLen 256 0) : Outcome Empty Nat) = ok 256 :=
  sent_number_recovered 0 (by decide) (by decide) (by decide)

end DeerQuic.Protection
