import DeerQuic.HeaderCodec
import DeerQuic.Sealing

/-!
# Short headers: round trip

The first byte of a short header is packed in two places, by `write_short_header` and by
`encrypt_short`, and unpacked in `parse_short_header`. The two low bits hold the length of the
packet number as it is, which leaves no code for the length 4. The builder of packets writes 0 for
it, the writer of headers lets it run over into the key phase, and the parser knows neither.
-/

namespace DeerQuic

open Outcome Checked Packet Protection

/-- The range that is documented for the packet number length, and 0 for the packet number. -/
structure ShortHeader.WellFormed (hdr : ShortHeader) : Prop where
  dstCid : hdr.dstCid.bytes.length ≤ 20
  pnLen : 1 ≤ hdr.pnLen ∧ hdr.pnLen ≤ 4
  truncatedPn : hdr.truncatedPn = 0

namespace ShortHeader

def firstByte (spin keyPhase : Bool) (pnLen : Nat) : UInt8 :=
  0x40 ||| (if spin then 0x20 else 0) ||| (if keyPhase then 0x04 else 0) ||| pnLen.toUInt8

def wire (hdr : ShortHeader) : Bytes :=
  firstByte hdr.spin hdr.keyPhase hdr.pnLen ::
    (hdr.dstCid.bytes ++ List.replicate hdr.pnLen 0)

/-- The bytes of the header are written behind what is there, and whatever follows them, the header
is read back. -/
def ReadsBack (hdr : ShortHeader) : Prop :=
  ∃ written, (∀ buf, writeShortHeader hdr buf = (ok written.length, buf ++ written)) ∧
    ∀ rest, parseShortHeader (written ++ rest) hdr.dstCid.bytes.length =
      ok (hdr, 1 + hdr.dstCid.bytes.length + hdr.pnLen)

end ShortHeader

namespace Protection

/-- `encrypt_short` authenticates, and then protects, a header with this first byte. -/
def EncryptsUnder (first : UInt8) (pnLen : Nat) (keyPhase : Bool) : Prop :=
  ∀ (keys : DirectionalKeys) (dstCid frames : Bytes) (pn : Nat),
    encryptShort keys dstCid frames pn pnLen keyPhase =
      ofOption .internal (keys.packet.encryptInPlace pn
        (plainHeader first dstCid (pnField pn pnLen)) frames) >>= fun out =>
          protectHeader keys (plainHeader first dstCid (pnField pn pnLen)) (1 + dstCid.length) pnLen
            (out.1 ++ out.2)

lemma encryptsUnder_shortFirst {pnLen : Nat} (hpn : 1 ≤ pnLen ∧ pnLen ≤ 4) (keyPhase : Bool) :
    EncryptsUnder (shortFirst pnLen keyPhase) pnLen keyPhase := by
  intro keys dstCid frames pn
  have hheader := shortHeader_eq dstCid pn hpn (shortFirst pnLen keyPhase)
  simp only [bind_eq_ok] at hheader
  obtain ⟨header₁, h₁, header₂, h₂, h₃⟩ := hheader
  unfold shortFirst at h₁ h₃ ⊢
  simp only [encryptShort, h₁, h₂, h₃, ok_bind]

end Protection

namespace Packet

lemma writeShortHeader_eq (hdr : ShortHeader) (buf : Bytes) :
    writeShortHeader hdr buf = (ok hdr.wire.length, buf ++ hdr.wire) := by
  simp [writeShortHeader, putShortHeader, Method.bind_apply, Method.andThen, ShortHeader.firstByte,
    ShortHeader.wire]

/-- Up to 3 the fields of the first byte do not overlap. -/
lemma shortFirstByte_bits (spin keyPhase : Bool) {pnLen : Nat} (hpn : 1 ≤ pnLen ∧ pnLen ≤ 3) :
    let first := ShortHeader.firstByte spin keyPhase pnLen
    first &&& 0x80 = 0 ∧ first &&& 0x40 ≠ 0 ∧ (first >>> 3) &&& 0x03 = 0 ∧ first &&& 0x03 ≠ 0 ∧
      (first &&& 0x03).toNat = pnLen ∧ decide (first &&& 0x20 ≠ 0) = spin ∧
      decide (first &&& 0x04 ≠ 0) = keyPhase := by
  obtain ⟨hlow, hhigh⟩ := hpn
  interval_cases pnLen <;> cases spin <;> cases keyPhase <;> decide

/-- The third bit of a length of 4 is the key phase. -/
lemma shortFirstByte_four (spin keyPhase : Bool) :
    let first := ShortHeader.firstByte spin keyPhase 4
    first &&& 0x80 = 0 ∧ first &&& 0x40 ≠ 0 ∧ first &&& 0x03 = 0 := by
  cases spin <;> cases keyPhase <;> decide

lemma shortFirstByte_encrypted (keyPhase : Bool) {pnLen : Nat} (hpn : pnLen ≤ 3) :
    ShortHeader.firstByte false keyPhase pnLen = shortFirst pnLen keyPhase := by
  have hcode : pnLen ≠ 4 := by omega
  simp [ShortHeader.firstByte, shortFirst, hcode]

lemma readsBack {hdr : ShortHeader} (h : hdr.WellFormed) (hpn : hdr.pnLen ≤ 3) :
    hdr.ReadsBack := by
  obtain ⟨hform, hfixed, hreserved, hcode, hpnLen, hspin, hkeyPhase⟩ :=
    shortFirstByte_bits hdr.spin hdr.keyPhase ⟨h.pnLen.1, hpn⟩
  refine ⟨hdr.wire, writeShortHeader_eq hdr, fun rest => ?_⟩
  have hread : readPn (List.replicate hdr.pnLen 0 ++ rest) hdr.pnLen = ok 0 :=
    readPn_zeros h.pnLen rest
  have hroom : hdr.pnLen ≤ (List.replicate hdr.pnLen (0 : UInt8) ++ rest).length := by simp
  rw [← hpnLen] at hread hroom
  have hparse := parseShortHeader_read hform hfixed hreserved hcode h.dstCid hroom hread
  rw [hspin, hkeyPhase, hpnLen, ← h.truncatedPn] at hparse
  rw [ShortHeader.wire, List.cons_append, List.append_assoc, hparse]

lemma not_readsBack {hdr : ShortHeader} (hpn : hdr.pnLen = 4) : ¬ hdr.ReadsBack := by
  rintro ⟨written, hwrite, hread⟩
  obtain ⟨hform, hfixed, hcode⟩ := shortFirstByte_four hdr.spin hdr.keyPhase
  have hwritten := hwrite []
  rw [writeShortHeader_eq] at hwritten
  obtain rfl : hdr.wire = written := (Prod.mk.inj hwritten).2
  have hparse := hread []
  rw [ShortHeader.wire, List.cons_append, List.append_assoc, hpn,
    parseShortHeader_reserved hform hfixed fun h => h.2 hcode] at hparse
  cases hparse

/-- A short header comes back, under the first byte that its packet is encrypted with, if and only
if its packet number takes at most three bytes. -/
theorem short_header_reads_back_iff {hdr : ShortHeader} (h : hdr.WellFormed) :
    (hdr.ReadsBack ∧ EncryptsUnder ((writeShortHeader { hdr with spin := false } []).2.headD 0)
        hdr.pnLen hdr.keyPhase) ↔ hdr.pnLen ≤ 3 := by
  constructor
  · rintro ⟨hreads, -⟩
    by_contra hlong
    have hrange := h.pnLen
    exact not_readsBack (by omega) hreads
  · intro hpn
    refine ⟨readsBack h hpn, ?_⟩
    have hfirst := shortFirstByte_encrypted hdr.keyPhase hpn
    rw [writeShortHeader_eq, List.nil_append, ShortHeader.wire, List.headD_cons, hfirst]
    exact encryptsUnder_shortFirst h.pnLen hdr.keyPhase

theorem short_header_reads_back_iff_two :
    ((⟨true, true, ⟨[7, 8]⟩, 0, 2⟩ : ShortHeader).ReadsBack ∧
      EncryptsUnder ((writeShortHeader ⟨false, true, ⟨[7, 8]⟩, 0, 2⟩ []).2.headD 0) 2 true) ↔
        2 ≤ 3 := by
  have hwellFormed : (⟨true, true, ⟨[7, 8]⟩, 0, 2⟩ : ShortHeader).WellFormed :=
    ⟨by decide, by decide, rfl⟩
  exact short_header_reads_back_iff hwellFormed

/-- A packet number of four bytes sets the key phase, and the parser refuses the header. -/
theorem four_byte_number_refused :
    (⟨false, false, ⟨[]⟩, 0, 4⟩ : ShortHeader).WellFormed ∧
      writeShortHeader ⟨false, false, ⟨[]⟩, 0, 4⟩ [] = (ok 5, [0x44, 0, 0, 0, 0]) ∧
      parseShortHeader [0x44, 0, 0, 0, 0] 0 = err .reservedBitsSet ∧
      shortFirst 4 false = 0x40 := by
  refine ⟨⟨by decide, by decide, rfl⟩, rfl, rfl, rfl⟩

end Packet
end DeerQuic
