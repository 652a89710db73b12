import DeerQuic.RoundTrip

/-!
# What a built long packet looks like

Whatever the keys do with the payload, the bytes between the first one and the packet number leave
as they were written. Of header protection it is only needed that it leaves the upper half of the
first byte alone, and then the packet parses to the version and the type it was built with.
-/

namespace DeerQuic.Protection

open Outcome Checked

/-- Of the first byte of a long header only the lower half is protected. -/
def KeepsForm (key : HeaderProtectionKey) : Prop :=
  ∀ sample first pn first' pn', first &&& 0x80 ≠ 0 →
    key.encryptInPlace sample first pn = some (first', pn') → first' &&& 0xf0 = first &&& 0xf0

lemma nullHeader_keepsForm (mask : Bytes → Bytes) : KeepsForm (nullHeader mask) := by
  intro sample first pn first' pn' hlong h
  cases h
  have hbits : protectedBits first = 0x0f := if_neg hlong
  rw [maskFirst, hbits]
  exact BigEndian.masked_and (by decide)

lemma encodeAt_fits {header header' : Bytes} {pos v : Nat} (h : encodeAt header pos v = ok header') :
    v ≤ VarInt.varintMax := by
  simp only [encodeAt, bind_eq_ok, mapErr_eq_ok] at h
  obtain ⟨tail, -, out, hencode, -⟩ := h
  exact (VarInt.encode_fits hencode).1

lemma longHeader_fits {pnSpace : PacketNumberSpace} {version : UInt32} {dstCid srcCid : Bytes}
    {pn pnLen lengthValue : Nat} {token : Option Bytes} {out : Bytes × Nat}
    (h : longHeader pnSpace version dstCid srcCid pn pnLen token lengthValue = ok out) :
    lengthValue ≤ VarInt.varintMax := by
  simp only [longHeader, bind_eq_ok] at h
  obtain ⟨_, _, _, _, _, _, _, _, _, _, _, _, _, hlengths, _⟩ := h
  split_ifs at hlengths
  · obtain ⟨_, _, hlength⟩ := bind_eq_ok.mp hlengths
    exact encodeAt_fits hlength
  · exact encodeAt_fits hlengths

/-- Protecting a header changes its first byte and its packet number field. -/
lemma protectHeader_form {keys : DirectionalKeys} {first : UInt8} {middle pnBytes payload : Bytes}
    {packet : Bytes} {pnLen : Nat} (hpnLen : pnBytes.length = pnLen)
    (h : protectHeader keys (plainHeader first middle pnBytes) (middle.length + 1) pnLen payload =
      ok packet) :
    ∃ sample first' pnBytes', keys.header.encryptInPlace sample first pnBytes =
        some (first', pnBytes') ∧
      packet = first' :: (middle ++ (pnBytes' ++ payload)) ∧ pnBytes'.length = pnBytes.length ∧
      4 ≤ pnBytes.length + payload.length := by
  subst hpnLen
  simp only [protectHeader, plainHeader_first, plainHeader_field, ok_bind, bind_eq_ok,
    ofOption_eq_ok, plainHeader_copy_first, ok.injEq] at h
  obtain ⟨sample, hsample, ⟨first', pnBytes'⟩, hmask, header, hcopy, hpacket⟩ := h
  have hlen := keys.header.encrypt_length hmask
  have hroom := (slice_eq_ok.mp hsample).1
  rw [plainHeader_copy_field first' middle hlen] at hcopy
  obtain rfl := ok.inj hcopy
  refine ⟨sample, first', pnBytes', hmask, ?_, hlen, by omega⟩
  rw [← hpacket]
  simp [plainHeader]

/-- The bytes of a long packet behind its first one, up to the packet number, are plain. Behind
them are the masked packet number, the sealed frames and the tag. -/
lemma encryptLong_layout {keys : DirectionalKeys} {pnSpace : PacketNumberSpace} {version : UInt32}
    {dstCid srcCid frames packet : Bytes} {pn pnLen : Nat} {token : Option Bytes}
    (hpn : 1 ≤ pnLen ∧ pnLen ≤ 4) (htoken : (token.map List.length).getD 0 = 0)
    (h : encryptLong keys pnSpace version dstCid srcCid frames pn pnLen token = ok packet) :
    ∃ aad sample first pnBytes sealed tag,
      keys.packet.encryptInPlace pn aad frames = some (sealed, tag) ∧
      keys.header.encryptInPlace sample (longFirst pnSpace pnLen) (pnField pn pnLen) =
        some (first, pnBytes) ∧
      packet = first :: (longMiddle pnSpace version dstCid srcCid
        (pnLen + frames.length + keys.packet.tagLen) ++ (pnBytes ++ (sealed ++ tag))) ∧
      pnLen + frames.length + keys.packet.tagLen ≤ VarInt.varintMax ∧
      pnBytes.length = pnLen ∧ sealed.length = frames.length ∧
      4 ≤ pnLen + (sealed ++ tag).length := by
  simp only [encryptLong, bind_eq_ok, ofOption_eq_ok] at h
  obtain ⟨⟨header, pnOffset⟩, hheader, ⟨sealed, tag⟩, hseal, hprotect⟩ := h
  have hfits := longHeader_fits hheader
  rw [longHeader_eq pnSpace version dstCid srcCid pn hpn htoken hfits] at hheader
  obtain ⟨rfl, rfl⟩ := Prod.mk.inj (ok.inj hheader)
  have hfield := pnField_length hpn pn
  obtain ⟨sample, first, pnBytes, hmask, hpacket, hlen, hroom⟩ := protectHeader_form hfield hprotect
  rw [hfield] at hlen hroom
  exact ⟨_, sample, first, pnBytes, sealed, tag, hseal, hmask, hpacket, hfits, hlen,
    keys.packet.encrypt_length hseal, hroom⟩

lemma encryptLong_form {keys : DirectionalKeys} {pnSpace : PacketNumberSpace} {version : UInt32}
    {dstCid srcCid frames packet : Bytes} {pn pnLen : Nat} {token : Option Bytes}
    (hkeys : KeepsForm keys.header) (hpn : 1 ≤ pnLen ∧ pnLen ≤ 4)
    (htoken : (token.map List.length).getD 0 = 0)
    (h : encryptLong keys pnSpace version dstCid srcCid frames pn pnLen token = ok packet) :
    ∃ first rest lengthValue,
      packet = first :: (longMiddle pnSpace version dstCid srcCid lengthValue ++ rest) ∧
      first &&& 0xf0 = longFirst pnSpace pnLen &&& 0xf0 ∧ lengthValue ≤ VarInt.varintMax ∧
      4 ≤ rest.length := by
  obtain ⟨aad, sample, first, pnBytes, sealed, tag, -, hmask, hpacket, hfits, hlen, -, hroom⟩ :=
    encryptLong_layout hpn htoken h
  refine ⟨first, _, _, hpacket, ?_, hfits, by rw [List.length_append]; omega⟩
  exact hkeys _ _ _ _ _ (longFirst_bits pnSpace hpn).1 hmask

/-- A long packet of the space, for the version and the connection IDs. -/
def LongPacket (pnSpace : PacketNumberSpace) (version : UInt32) (dstCid srcCid packet : Bytes) :
    Prop :=
  ∃ first rest lengthValue,
    packet = first :: (longMiddle pnSpace version dstCid srcCid lengthValue ++ rest) ∧
    first &&& 0x80 ≠ 0 ∧ first &&& 0x40 ≠ 0 ∧ (first >>> 4) &&& 0x03 = spaceTypeBits pnSpace ∧
    lengthValue ≤ VarInt.varintMax ∧ 4 ≤ rest.length

lemma upper_bits {a b : UInt8} (h : a &&& 0xf0 = b &&& 0xf0) :
    a &&& 0x80 = b &&& 0x80 ∧ a &&& 0x40 = b &&& 0x40 ∧
      (a >>> 4) &&& (0x03 : UInt8) = (b >>> 4) &&& (0x03 : UInt8) := by
  have hand : ∀ q : UInt8, 0xf0 &&& q = q → a &&& q = b &&& q := fun q hq => by
    rw [← hq, ← UInt8.and_assoc, h, UInt8.and_assoc]
  have hupper : (0xf0 : UInt8) >>> 4 = 0x0f := by decide
  have hshift : (a >>> 4) &&& (0x0f : UInt8) = (b >>> 4) &&& (0x0f : UInt8) := by
    rw [← hupper, ← UInt8.shiftRight_and, h, UInt8.shiftRight_and]
  have hlow : (0x0f : UInt8) &&& 0x03 = 0x03 := by decide
  have htype : ∀ c : UInt8, (c >>> 4) &&& (0x03 : UInt8) = ((c >>> 4) &&& (0x0f : UInt8)) &&& 0x03 :=
    fun c => by rw [UInt8.and_assoc, hlow]
  refine ⟨hand 0x80 (by decide), hand 0x40 (by decide), ?_⟩
  rw [htype a, htype b, hshift]

lemma encryptLong_longPacket {keys : DirectionalKeys} {pnSpace : PacketNumberSpace}
    {version : UInt32} {dstCid srcCid frames packet : Bytes} {pn pnLen : Nat}
    {token : Option Bytes} (hkeys : KeepsForm keys.header) (hpn : 1 ≤ pnLen ∧ pnLen ≤ 4)
    (htoken : (token.map List.length).getD 0 = 0)
    (h : encryptLong keys pnSpace version dstCid srcCid frames pn pnLen token = ok packet) :
    LongPacket pnSpace version dstCid srcCid packet := by
  obtain ⟨first, rest, lengthValue, hpacket, hupper, hfits, hrest⟩ :=
    encryptLong_form hkeys hpn htoken h
  obtain ⟨hform, hfixed, htype, -⟩ := longFirst_bits pnSpace hpn
  obtain ⟨hform', hfixed', htype'⟩ := upper_bits hupper
  exact ⟨first, rest, lengthValue, hpacket, by rwa [hform'], by rwa [hfixed'], by rwa [htype'],
    hfits, hrest⟩

theorem encryptPacket_longPacket {space : Space} {keys : DirectionalKeys}
    {pnSpace : PacketNumberSpace} {version : UInt32} {dstCid srcCid packet : Bytes}
    {frames : List Frame} {pn pnLen : Nat} {isEstablished : Bool}
    (hlocal : space.localKeys = some keys) (hkeys : KeepsForm keys.header)
    (hlong : pnSpace ≠ .applicationData ∨ isEstablished = false) (hpn : 1 ≤ pnLen ∧ pnLen ≤ 4)
    (h : encryptPacket space pnSpace version dstCid srcCid frames pn pnLen isEstablished =
      ok packet) : LongPacket pnSpace version dstCid srcCid packet := by
  simp only [encryptPacket, hlocal, ofOption_some, ok_bind, if_pos hlong, bind_eq_ok] at h
  obtain ⟨framesBuf, _, hbuilt⟩ := h
  exact encryptLong_longPacket hkeys hpn (by split_ifs <;> rfl) hbuilt

variable {pnSpace : PacketNumberSpace} {version : UInt32} {dstCid srcCid packet : Bytes}

lemma LongPacket.parse (h : LongPacket pnSpace version dstCid srcCid packet)
    (hversion : version ≠ 0) (hdst : dstCid.length ≤ 20) (hsrc : srcCid.length ≤ 20) :
    ∃ hdr n, Packet.parseLongHeader packet = ok (hdr, n) ∧ hdr.ty = longType pnSpace ∧
      hdr.version = version := by
  obtain ⟨first, rest, lengthValue, rfl, hform, hfixed, htype, hfits, hrest⟩ := h
  obtain ⟨truncatedPn, pnLen, n, hparse⟩ := parseLongHeader_eq first pnSpace rest hform hfixed htype
    hversion hdst hsrc hfits hrest
  exact ⟨_, n, hparse, rfl, rfl⟩

lemma LongPacket.parse_versionZero (h : LongPacket pnSpace 0 dstCid srcCid packet)
    (hdst : dstCid.length ≤ 20) (hsrc : srcCid.length ≤ 20) :
    ∃ hdr n, Packet.parseLongHeader packet = ok (hdr, n) ∧ hdr.ty = .versionNegotiation := by
  obtain ⟨first, rest, lengthValue, rfl, hform, -⟩ := h
  have hwire : first :: (longMiddle pnSpace 0 dstCid srcCid lengthValue ++ rest) =
      cidWire first 0 dstCid srcCid
        (tokenField pnSpace ++ (VarInt.wire lengthValue ++ rest)) := by
    simp [longMiddle, cidWire]
  rw [hwire, parseLongHeader_versionZero (cidReads _ _ _ _ _) hform hdst hsrc]
  exact ⟨_, _, rfl, rfl⟩

end DeerQuic.Protection
