import DeerQuic.HeaderParse
import DeerQuic.Run
import DeerQuic.Sealing

/-!
# Packet round trips

What one side seals the other side opens. The header parsers run on bytes that are still
masked. For a long packet that does no harm: the masked bits decide nothing but how many
bytes of the packet number field are looked at. For a short packet they decide whether
the packet is looked at at all.
-/

namespace DeerQuic.Protection

open Outcome Checked

lemma openPayload_eq {opening : DirectionalKeys} {pn : Nat} {aad payload : Bytes}
    {frames : List Frame} {k : Nat}
    (hopen : opening.packet.decryptInPlace pn aad payload =
      some (frames.flatMap Frame.wire ++ List.replicate k 0))
    (h : ∀ f ∈ frames, f.WellFormed ∧ f.SelfDelimiting) :
    openPayload opening (pn, aad, payload) = ok (pn, frames ++ List.replicate k .padding) := by
  simp only [openPayload, hopen, parseFrames_padded h, ofOption_some, mapErr_ok, ok_bind]

inductive EgestFrame : Frame → Prop where
  | crypto {offset : Nat} {data : Bytes} : offset ≤ VarInt.varintMax →
      data.length ≤ VarInt.varintMax → EgestFrame (.crypto offset data)
  | ack {largest delay range : Nat} : largest ≤ VarInt.varintMax → delay ≤ VarInt.varintMax →
      range ≤ VarInt.varintMax → EgestFrame (.ack largest delay [⟨0, range⟩] none)
  | handshakeDone : EgestFrame .handshakeDone
  | stream {streamId offset : Nat} {data : Bytes} {fin : Bool} : streamId ≤ VarInt.varintMax →
      offset ≤ VarInt.varintMax → data.length ≤ VarInt.varintMax → data ≠ [] →
      EgestFrame (.stream streamId offset data fin)

lemma EgestFrame.wellFormed {f : Frame} (h : EgestFrame f) : f.WellFormed ∧ f.SelfDelimiting := by
  cases h with
  | crypto hoffset hdata => exact ⟨⟨hoffset, hdata⟩, trivial⟩
  | ack hlargest hdelay hrange =>
    refine ⟨⟨hlargest, hdelay, by simp, ⟨_, _, rfl⟩, ?_, by simp⟩, trivial⟩
    simp [hrange]
  | handshakeDone => exact ⟨trivial, trivial⟩
  | stream hid hoffset hlen hdata => exact ⟨⟨hid, hoffset, hlen⟩, hdata⟩

def longType : PacketNumberSpace → LongType
  | .initial => .initial
  | .applicationData => .zeroRtt
  | .handshake => .handshake

lemma longType_bits (pnSpace : PacketNumberSpace) :
    LongType.fromBits (spaceTypeBits pnSpace).toNat = some (longType pnSpace) := by
  cases pnSpace <;> rfl

lemma parseToken_eq (pnSpace : PacketNumberSpace) (before after : Bytes) :
    Packet.parseToken (longType pnSpace) (before ++ (tokenField pnSpace ++ after)) before.length =
      ok (if pnSpace = .initial then some [] else none,
        before.length + (tokenField pnSpace).length) := by
  cases pnSpace with
  | initial =>
    have htoken := parseToken_some [] before after (Nat.zero_le _)
    simpa [longType, tokenField, wire_zero, encodedLen_zero] using htoken
  | handshake => simp [Packet.parseToken, longType, tokenField]
  | applicationData => simp [Packet.parseToken, longType, tokenField]

lemma readPn_some (buf : Bytes) (len : Nat) (h : len ≤ buf.length) :
    ∃ pn, Packet.readPn buf len = ok pn := by
  have hslice : (slice buf 0 len : Outcome PacketError Bytes) = ok (buf.take len) := by
    simp [slice, h]
  unfold Packet.readPn
  split
  all_goals first | exact ⟨_, rfl⟩ | exact ⟨BigEndian.decode (buf.take _), by rw [hslice]; rfl⟩

/-- The first byte decides how many bytes are read as a packet number, whatever they are. -/
lemma parseLengthAndPn_eq (first : UInt8) {ty : LongType} (hty : ty ≠ .retry) (version : UInt32)
    (dstCid srcCid : ConnectionId) (token : Option Bytes) (before rest : Bytes)
    {lengthValue : Nat} (hlength : lengthValue ≤ VarInt.varintMax) (hroom : 4 ≤ rest.length) :
    ∃ truncatedPn pnLen n,
      Packet.parseLengthAndPn first ty version dstCid srcCid token
        (before ++ (VarInt.wire lengthValue ++ rest)) before.length =
        ok ({ ty, version, dstCid, srcCid, token, length := some lengthValue, truncatedPn, pnLen },
          n) := by
  have hlow : (first &&& 0x03).toNat < 4 := by
    rw [UInt8.toNat_and]
    exact Nat.and_lt_two_pow _ (n := 2) (by decide)
  -- The bytes read as a packet number are the field, the others come after it.
  obtain ⟨field, after, rfl, hfield⟩ : ∃ field after, rest = field ++ after ∧
      (first &&& 0x03).toNat + 1 = field.length := by
    refine ⟨rest.take ((first &&& 0x03).toNat + 1), rest.drop ((first &&& 0x03).toNat + 1),
      (List.take_append_drop _ _).symm, ?_⟩
    rw [List.length_take]
    omega
  obtain ⟨pn, hpn⟩ := readPn_some (field ++ after) field.length (by simp)
  exact ⟨some pn, some field.length, _, parseLengthAndPn_field hty version dstCid srcCid token before
    field after hlength hfield hpn⟩

lemma parseLongHeader_eq (first : UInt8) (pnSpace : PacketNumberSpace) (rest : Bytes)
    {version : UInt32} {dstCid srcCid : Bytes} {lengthValue : Nat} (hform : first &&& 0x80 ≠ 0)
    (hfixed : first &&& 0x40 ≠ 0) (htype : (first >>> 4) &&& 0x03 = spaceTypeBits pnSpace)
    (hversion : version ≠ 0) (hdst : dstCid.length ≤ 20) (hsrc : srcCid.length ≤ 20)
    (hlength : lengthValue ≤ VarInt.varintMax) (hroom : 4 ≤ rest.length) :
    ∃ truncatedPn pnLen n,
      Packet.parseLongHeader
        (first :: (longMiddle pnSpace version dstCid srcCid lengthValue ++ rest)) =
        ok ({ ty := longType pnSpace, version, dstCid := ⟨dstCid⟩, srcCid := ⟨srcCid⟩,
              token := if pnSpace = .initial then some [] else none,
              length := some lengthValue, truncatedPn, pnLen }, n) := by
  have hwire : first :: (longMiddle pnSpace version dstCid srcCid lengthValue ++ rest) =
      cidWire first version dstCid srcCid
        (tokenField pnSpace ++ (VarInt.wire lengthValue ++ rest)) := by
    simp [longMiddle, cidWire]
  have hbefore : (cidWire first version dstCid srcCid []).length = cidEnd dstCid srcCid := by
    rw [cidWire_length]
    rfl
  have hty : LongType.fromBits ((first >>> 4) &&& 0x03).toNat = some (longType pnSpace) := by
    rw [htype]
    exact longType_bits pnSpace
  have htoken := parseToken_eq pnSpace (cidWire first version dstCid srcCid [])
    (VarInt.wire lengthValue ++ rest)
  rw [← cidWire_append, List.nil_append, hbefore] at htoken
  have hretry : longType pnSpace ≠ .retry := by
    cases pnSpace <;> simp [longType]
  obtain ⟨truncatedPn, pnLen, n, hpn⟩ := parseLengthAndPn_eq first hretry version ⟨dstCid⟩ ⟨srcCid⟩
    (if pnSpace = .initial then some [] else none)
    (cidWire first version dstCid srcCid (tokenField pnSpace)) rest hlength hroom
  rw [← cidWire_append, cidWire_length] at hpn
  refine ⟨truncatedPn, pnLen, n, ?_⟩
  rw [hwire, parseLongHeader_typed (cidReads first version dstCid srcCid _) hform hfixed hty hversion
    hdst hsrc, htoken, ok_bind]
  exact hpn

/-- Form, fixed and type bits of a long header are not masked. -/
lemma maskFirst_long (m : Bytes) {first : UInt8} (h : first &&& 0x80 ≠ 0) :
    maskFirst m first &&& 0x80 = first &&& 0x80 ∧ maskFirst m first &&& 0x40 = first &&& 0x40 ∧
      maskFirst m first >>> 4 = first >>> 4 := by
  have hbits : protectedBits first = 0x0f := if_neg h
  unfold maskFirst
  rw [hbits]
  exact ⟨BigEndian.masked_and (by decide), BigEndian.masked_and (by decide),
    BigEndian.masked_shiftRight (by decide)⟩

lemma longFirst_bits (pnSpace : PacketNumberSpace) {pnLen : Nat} (hpn : 1 ≤ pnLen ∧ pnLen ≤ 4) :
    longFirst pnSpace pnLen &&& 0x80 ≠ 0 ∧ longFirst pnSpace pnLen &&& 0x40 ≠ 0 ∧
      (longFirst pnSpace pnLen >>> 4) &&& 0x03 = spaceTypeBits pnSpace ∧
      longPnLen (longFirst pnSpace pnLen) = pnLen := by
  have hcases : pnLen = 1 ∨ pnLen = 2 ∨ pnLen = 3 ∨ pnLen = 4 := by omega
  rcases hcases with rfl | rfl | rfl | rfl <;> cases pnSpace <;> decide

lemma longMiddle_split (pnSpace : PacketNumberSpace) (version : UInt32) (dstCid srcCid : Bytes)
    (lengthValue : Nat) :
    ∃ before, longMiddle pnSpace version dstCid srcCid lengthValue =
        before ++ VarInt.wire lengthValue ∧
      before.length = 6 + dstCid.length + srcCid.length + (tokenField pnSpace).length := by
  refine ⟨BigEndian.encode 4 version.toNat ++ (dstCid.length.toUInt8 :: (dstCid ++
    (srcCid.length.toUInt8 :: (srcCid ++ tokenField pnSpace)))), ?_, ?_⟩
  · simp [longMiddle]
  · simp
    omega

/-- The offset the receiver computes from the parsed header is the one the builder used. -/
lemma hdrPnOffsetLong_eq (pnSpace : PacketNumberSpace) (version : UInt32)
    (dstCid srcCid : Bytes) (lengthValue : Nat) (hdr : LongHeader)
    (hty : hdr.ty = longType pnSpace) (hdst : hdr.dstCid.bytes = dstCid)
    (hsrc : hdr.srcCid.bytes = srcCid) (hlength : hdr.length = some lengthValue) :
    hdrPnOffsetLong hdr = (longMiddle pnSpace version dstCid srcCid lengthValue).length + 1 := by
  simp only [hdrPnOffsetLong, hty, hdst, hsrc, hlength, longMiddle_length, tokenField]
  cases pnSpace <;> simp [longType] <;> omega

section

variable {sealing opening : DirectionalKeys} {mask : Bytes → Bytes} {space : Space}

/-- The Length field stands where the IDs and the token end, and says how many bytes follow it. -/
lemma protectedLong_split (mask : Bytes → Bytes) (first : UInt8) (pnSpace : PacketNumberSpace)
    (version : UInt32) (dstCid srcCid pnBytes payload : Bytes) :
    ∃ before after,
      protectedPacket mask first
        (longMiddle pnSpace version dstCid srcCid (pnBytes.length + payload.length)) pnBytes
          payload = before ++ VarInt.wire after.length ++ after ∧
      before.length = 7 + dstCid.length + srcCid.length + (tokenField pnSpace).length ∧
      after.length = pnBytes.length + payload.length := by
  obtain ⟨before, hsplit, hbefore⟩ := longMiddle_split pnSpace version dstCid srcCid
    (pnBytes.length + payload.length)
  generalize hm : mask (sampleOf pnBytes.length payload) = m
  have hafter : (maskPn m first pnBytes ++ payload).length = pnBytes.length + payload.length := by
    rw [List.length_append, maskPn_length]
  refine ⟨maskFirst m first :: before, maskPn m first pnBytes ++ payload, ?_, ?_, hafter⟩
  · rw [protectedPacket, hm, hafter, hsplit]
    simp
  · simp only [List.length_cons]
    omega

/-- Whatever the mask, the header of a long packet parses to what was put into it, and the packet
opens to its number and its frames. -/
lemma protectedLong_opens (h : MaskedBy sealing.header opening.header mask)
    (pnSpace : PacketNumberSpace) {version : UInt32} (hversion : version ≠ 0)
    {dstCid srcCid : Bytes} (hdst : dstCid.length ≤ 20) (hsrc : srcCid.length ≤ 20)
    {pn pnLen : Nat} (hpnLen : 1 ≤ pnLen ∧ pnLen ≤ 4) (hpn : pn < 256 ^ pnLen)
    {payload : Bytes} {lengthValue : Nat} (hlength : lengthValue = pnLen + payload.length)
    (hmax : lengthValue ≤ VarInt.varintMax) (hroom : 20 ≤ pnLen + payload.length)
    {frames : List Frame} {k : Nat}
    (hopen : opening.packet.decryptInPlace pn (plainHeader (longFirst pnSpace pnLen)
      (longMiddle pnSpace version dstCid srcCid lengthValue) (pnField pn pnLen)) payload =
        some (frames.flatMap Frame.wire ++ List.replicate k 0))
    (hframes : ∀ f ∈ frames, f.WellFormed ∧ f.SelfDelimiting) :
    ∃ hdr n,
      Packet.parseLongHeader (protectedPacket mask (longFirst pnSpace pnLen)
        (longMiddle pnSpace version dstCid srcCid lengthValue) (pnField pn pnLen) payload) =
        ok (hdr, n) ∧
      hdr.ty = longType pnSpace ∧ hdr.version = version ∧
      hdr.dstCid.bytes = dstCid ∧ hdr.srcCid.bytes = srcCid ∧ hdr.length = some lengthValue ∧
      decryptAndParseLongInner (protectedPacket mask (longFirst pnSpace pnLen)
        (longMiddle pnSpace version dstCid srcCid lengthValue) (pnField pn pnLen) payload)
        (hdrPnOffsetLong hdr) opening = ok (pn, frames ++ List.replicate k .padding) := by
  have hfield := pnField_length hpnLen pn
  have hreadPn := readPn_pnField hpnLen pn
  rw [Nat.mod_eq_of_lt hpn] at hreadPn
  generalize hpnBytes : pnField pn pnLen = pnBytes at *
  obtain ⟨hform, hfixed, htype, hcode⟩ := longFirst_bits pnSpace hpnLen
  generalize hfirst : longFirst pnSpace pnLen = first at *
  generalize hm : mask (sampleOf pnBytes.length payload) = m
  obtain ⟨hmaskForm, hmaskFixed, hmaskType⟩ := maskFirst_long m hform
  have hpacket : protectedPacket mask first (longMiddle pnSpace version dstCid srcCid lengthValue)
      pnBytes payload = maskFirst m first ::
        (longMiddle pnSpace version dstCid srcCid lengthValue ++
          (maskPn m first pnBytes ++ payload)) := by
    rw [protectedPacket, hm]
  have hbehind : 4 ≤ (maskPn m first pnBytes ++ payload).length := by
    rw [List.length_append, maskPn_length]
    omega
  obtain ⟨truncatedPn, parsedPnLen, n, hparse⟩ := parseLongHeader_eq
    (maskFirst m first) pnSpace (maskPn m first pnBytes ++ payload)
    (by rw [hmaskForm]; exact hform) (by rw [hmaskFixed]; exact hfixed)
    (by rw [hmaskType]; exact htype) hversion hdst hsrc hmax hbehind
  refine ⟨_, n, by rw [hpacket]; exact hparse, rfl, rfl, rfl, rfl, rfl, ?_⟩
  rw [hdrPnOffsetLong_eq pnSpace version dstCid srcCid lengthValue _ rfl rfl rfl rfl]
  have hpnField : longPnLen first = pnBytes.length := by rw [hcode, hfield]
  have hdecode : (Packet.decodePacketNumber 0 (readPn pnBytes) pnBytes.length :
      Outcome ConnectionError Nat) = ok pn := by
    rw [hreadPn, hfield]
    exact decodePacketNumber_zero hpnLen hpn
  have hinput := aeadInput_protected h (longMiddle pnSpace version dstCid srcCid lengthValue)
    payload (by omega) (by omega) hpnField hdecode
  have htotal := protectedPacket_length mask first
    (longMiddle pnSpace version dstCid srcCid lengthValue) pnBytes payload
  rw [decryptAndParseLongInner, h.open_sample, require_pos (by omega), ok_bind, hinput, ok_bind]
  exact openPayload_eq hopen hframes

/-- What is built for frames that `egest` builds is parsed and opened again, with padding behind
them. -/
theorem long_packet_round_trip (h : Paired sealing opening mask)
    (hkeys : space.localKeys = some sealing) (pnSpace : PacketNumberSpace) {version : UInt32}
    (hversion : version ≠ 0) {dstCid srcCid : Bytes} (hdst : dstCid.length ≤ 20)
    (hsrc : srcCid.length ≤ 20) {pn : Nat} (hpn : pn < 2 ^ 32) (acked : Nat)
    {frames : List Frame} (hframes : ∀ f ∈ frames, EgestFrame f)
    (hsize : (frames.flatMap Frame.wire).length < 2 ^ 61) {isEstablished : Bool}
    (hlong : pnSpace ≠ .applicationData ∨ isEstablished = false) :
    ∃ packet hdr n k before after,
      encryptPacket space pnSpace version dstCid srcCid frames pn (encodedPnLen pn acked)
        isEstablished = ok packet ∧
      Packet.parseLongHeader packet = ok (hdr, n) ∧
      hdr.ty.toBits = (spaceTypeBits pnSpace).toNat ∧ hdr.version = version ∧
      hdr.dstCid.bytes = dstCid ∧ hdr.srcCid.bytes = srcCid ∧
      packet = before ++ VarInt.wire after.length ++ after ∧
      before.length = 7 + dstCid.length + srcCid.length + (tokenField pnSpace).length ∧
      hdr.length = some after.length ∧
      decryptAndParseLongInner packet (hdrPnOffsetLong hdr) opening =
        ok (pn, frames ++ List.replicate k .padding) := by
  have hpnLen := encodedPnLen_bounds pn acked
  have hwellFormed := fun f hf => (hframes f hf).wellFormed
  obtain ⟨k, payload, lengthValue, hlength, hmax, hroom, hopen, hseal⟩ :=
    encryptPacket_long h hkeys pnSpace version dstCid srcCid hlong hpnLen
      (fun f hf => (hwellFormed f hf).1) hsize
  obtain ⟨hdr, n, hparse, hty, hver, hdstCid, hsrcCid, hdrLength, hopened⟩ :=
    protectedLong_opens h.header pnSpace hversion hdst hsrc hpnLen (pn_lt_of_encodedPnLen hpn)
      hlength hmax hroom hopen hwellFormed
  obtain ⟨before, after, hsplit, hbefore, hafter⟩ := protectedLong_split mask
    (longFirst pnSpace (encodedPnLen pn acked)) pnSpace version dstCid srcCid
    (pnField pn (encodedPnLen pn acked)) payload
  rw [pnField_length hpnLen, ← hlength] at hsplit hafter
  refine ⟨_, hdr, n, k, before, after, hseal, hparse, ?_, hver, hdstCid, hsrcCid, hsplit, hbefore,
    by rw [hdrLength, hafter], hopened⟩
  rw [hty]
  cases pnSpace <;> rfl

/-- The round trip with a cipher that masks every protected bit and hides nothing. -/
theorem long_packet_round_trip_null :
    ∃ packet hdr n k before after,
      encryptPacket ((Space.new .handshake).setKeys (nullKeys fun _ => [0xff, 1, 2, 3, 4]))
        .handshake 1 [0xd0, 0xd1] [0x50] [.crypto 3 [7, 8], .ack 5 0 [⟨0, 2⟩] none] 300
        (encodedPnLen 300 0) false = ok packet ∧
      Packet.parseLongHeader packet = ok (hdr, n) ∧
      hdr.ty.toBits = (spaceTypeBits .handshake).toNat ∧ hdr.version = 1 ∧
      hdr.dstCid.bytes = [0xd0, 0xd1] ∧ hdr.srcCid.bytes = [0x50] ∧
      packet = before ++ VarInt.wire after.length ++ after ∧
      before.length = 7 + 2 + 1 + (tokenField .handshake).length ∧
      hdr.length = some after.length ∧
      decryptAndParseLongInner packet (hdrPnOffsetLong hdr)
        (nullDirection fun _ => [0xff, 1, 2, 3, 4]) =
        ok (300, [.crypto 3 [7, 8], .ack 5 0 [⟨0, 2⟩] none] ++ List.replicate k .padding) := by
  have hframes : ∀ f ∈ [Frame.crypto 3 [7, 8], .ack 5 0 [⟨0, 2⟩] none], EgestFrame f := by
    intro f hf
    simp only [List.mem_cons, List.not_mem_nil, or_false] at hf
    rcases hf with rfl | rfl
    · exact .crypto (by decide) (by decide)
    · exact .ack (by decide) (by decide) (by decide)
  exact long_packet_round_trip (nullDirection_paired fun _ _ => by decide) rfl .handshake
    (by decide) (by decide) (by decide) (by decide) 0 hframes (by decide) (.inl (by decide))

end

/-- Form and fixed bit of a short header are not masked, all bits that its parser goes on to
test are. -/
lemma maskFirst_short (m : Bytes) {first : UInt8} (h : first &&& 0x80 = 0) :
    maskFirst m first &&& 0x80 = 0 ∧ maskFirst m first &&& 0x40 = first &&& 0x40 ∧
      (maskFirst m first >>> 3) &&& (0x03 : UInt8) =
        ((first >>> 3) &&& (0x03 : UInt8)) ^^^ ((m.headD 0 >>> 3) &&& (0x03 : UInt8)) ∧
      maskFirst m first &&& 0x03 = (first ^^^ m.headD 0) &&& 0x03 := by
  have hbits : protectedBits first = 0x1f := if_pos h
  have hlow : (0x1f : UInt8) &&& 0x03 = 0x03 := by decide
  have hmid : (0x1f : UInt8) >>> 3 = 0x03 := by decide
  unfold maskFirst
  rw [hbits]
  refine ⟨?_, BigEndian.masked_and (by decide), ?_, ?_⟩
  · rw [BigEndian.masked_and (by decide), h]
  · rw [UInt8.shiftRight_xor, UInt8.shiftRight_and, hmid, BigEndian.xor_and, UInt8.and_assoc,
      UInt8.and_self]
  · rw [BigEndian.xor_and, BigEndian.xor_and, UInt8.and_assoc, hlow]

lemma shortFirst_bits {pnLen : Nat} (hpn : 1 ≤ pnLen ∧ pnLen ≤ 4) :
    shortFirst pnLen false &&& 0x80 = 0 ∧ shortFirst pnLen false &&& 0x40 ≠ 0 ∧
      (shortFirst pnLen false >>> 3) &&& 0x03 = 0 ∧
      shortPnLen (shortFirst pnLen false) = pnLen := by
  have hcases : pnLen = 1 ∨ pnLen = 2 ∨ pnLen = 3 ∨ pnLen = 4 := by omega
  rcases hcases with rfl | rfl | rfl | rfl <;> decide

section

variable {first : UInt8} {dstCid rest : Bytes}

lemma parseShortHeader_eq (hform : first &&& 0x80 = 0) (hfixed : first &&& 0x40 ≠ 0)
    (hreserved : (first >>> 3) &&& 0x03 = 0) (hcode : first &&& 0x03 ≠ 0)
    (hdst : dstCid.length ≤ 20) (hroom : 4 ≤ rest.length) :
    ∃ hdr n, Packet.parseShortHeader (first :: (dstCid ++ rest)) dstCid.length = ok (hdr, n) ∧
      hdr.dstCid.bytes = dstCid := by
  have hlow : (first &&& 0x03).toNat < 4 := by
    rw [UInt8.toNat_and]
    exact Nat.and_lt_two_pow _ (n := 2) (by decide)
  obtain ⟨pn, hpn⟩ := readPn_some rest (first &&& 0x03).toNat (by omega)
  exact ⟨_, _, parseShortHeader_read hform hfixed hreserved hcode hdst (by omega) hpn, rfl⟩

end

/-- The first byte of the mask that protects a packet to a peer whose connection ID has
`cidLen` bytes. -/
def maskByte (mask : Bytes → Bytes) (cidLen : Nat) (packet : Bytes) : UInt8 :=
  (mask ((packet.drop (1 + cidLen + 4)).take 16)).headD 0

/-- The mask leaves the reserved bits clear and the packet number length nonzero. -/
def MaskAccepted (pnLen : Nat) (m : UInt8) : Prop :=
  (m >>> 3) &&& (0x03 : UInt8) = 0 ∧ (shortFirst pnLen false ^^^ m) &&& (0x03 : UInt8) ≠ 0

instance (pnLen : Nat) (m : UInt8) : Decidable (MaskAccepted pnLen m) :=
  inferInstanceAs (Decidable (_ ∧ _))

lemma maskByte_protected (mask : Bytes → Bytes) (first : UInt8) (middle pnBytes payload : Bytes)
    (hpn : pnBytes.length ≤ 4) :
    maskByte mask middle.length (protectedPacket mask first middle pnBytes payload) =
      (mask (sampleOf pnBytes.length payload)).headD 0 := by
  have hdrop : (protectedPacket mask first middle pnBytes payload).drop (1 + middle.length + 4) =
      payload.drop (4 - pnBytes.length) := by
    generalize hm : mask (sampleOf pnBytes.length payload) = m
    rw [protectedPacket, hm, Nat.add_comm 1, ← List.drop_drop, List.drop_succ_cons,
      List.drop_left, List.drop_append, maskPn_length,
      List.drop_of_length_le (by rw [maskPn_length]; exact hpn), List.nil_append]
  rw [maskByte, hdrop, sampleOf]

/-- A short packet that is long enough is opened under the masked bits' permission only. -/
lemma openPacket_shortForm {σ : Type} (receiver : Connection σ) {first : UInt8}
    {dstCid rest : Bytes} (hform : first &&& 0x80 = 0) (hfixed : first &&& 0x40 ≠ 0)
    (hdst : dstCid.length ≤ 20) (hcid : receiver.dstCid.length = dstCid.length)
    (hroom : 4 ≤ rest.length) :
    receiver.openPacket (first :: (dstCid ++ rest)) =
      if (first >>> 3) &&& 0x03 = 0 ∧ first &&& 0x03 ≠ 0 then do
        let (pn, frames) ← decryptAndParse (receiver.spaces .applicationData)
          (first :: (dstCid ++ rest)) (1 + dstCid.length)
        ok (.applicationData, pn, frames)
      else err (.packet .reservedBitsSet) := by
  have hindex : (index (first :: (dstCid ++ rest)) 0 : Outcome ConnectionError UInt8) =
      ok first := rfl
  rw [Connection.openPacket, hindex, ok_bind, if_pos hform, hcid]
  split_ifs with haccepted
  · obtain ⟨hdr, n, hparse, hdrCid⟩ := parseShortHeader_eq hform hfixed haccepted.1 haccepted.2
      hdst hroom
    rw [hparse, mapErr_ok, ok_bind]
    dsimp only
    rw [hdrPnOffsetShort, hdrCid]
  · rw [parseShortHeader_reserved hform hfixed haccepted, mapErr_err, err_bind]

section

variable {sealing opening : DirectionalKeys} {mask : Bytes → Bytes} {space : Space} {σ : Type}

/-- Behind the header a short packet opens like a long one, with the number completed towards the
largest one received. -/
lemma protectedShort_opens (h : MaskedBy sealing.header opening.header mask)
    (hkeys : space.remoteKeys = some opening) {dstCid payload : Bytes} {pn pnLen : Nat}
    {keyPhase : Bool} (hpnLen : 1 ≤ pnLen ∧ pnLen ≤ 4)
    (hcode : shortPnLen (shortFirst pnLen keyPhase) = pnLen) (hlarge : space.largestRecvPn < 2 ^ 62)
    (hwindow : InWindow space.largestRecvPn pn pnLen) (hroom : 20 ≤ pnLen + payload.length)
    {frames : List Frame} {k : Nat}
    (hopen : opening.packet.decryptInPlace pn (plainHeader (shortFirst pnLen keyPhase) dstCid
      (pnField pn pnLen)) payload = some (frames.flatMap Frame.wire ++ List.replicate k 0))
    (hframes : ∀ f ∈ frames, f.WellFormed ∧ f.SelfDelimiting) :
    decryptAndParse space (protectedPacket mask (shortFirst pnLen keyPhase) dstCid
      (pnField pn pnLen) payload) (1 + dstCid.length) =
      ok (pn, frames ++ List.replicate k .padding) := by
  have hfield := pnField_length hpnLen pn
  have hdecode : (Packet.decodePacketNumber space.largestRecvPn (readPn (pnField pn pnLen))
      (pnField pn pnLen).length : Outcome ConnectionError Nat) = ok pn := by
    rw [readPn_pnField hpnLen, hfield]
    exact decodePacketNumber_window hpnLen hlarge hwindow
  have hcodeLen : shortPnLen (shortFirst pnLen keyPhase) = (pnField pn pnLen).length := by
    rw [hcode, hfield]
  have hinput := aeadInput_protected h dstCid payload (by omega) (by omega) hcodeLen hdecode
  rw [decryptAndParse, hkeys, ofOption_some, ok_bind, Nat.add_comm 1, hinput, ok_bind]
  exact openPayload_eq hopen hframes

/-- The receiver refuses the packet on sight of the masked bits, or opens it. -/
lemma openPacket_short (h : Paired sealing opening mask)
    (hkeys : space.localKeys = some sealing) {receiver : Connection σ}
    (hremote : (receiver.spaces .applicationData).remoteKeys = some opening) (version : UInt32)
    {dstCid : Bytes} (srcCid : Bytes) (hdst : dstCid.length ≤ 20)
    (hcid : receiver.dstCid.length = dstCid.length) {pn : Nat} (acked : Nat)
    (hlarge : (receiver.spaces .applicationData).largestRecvPn < 2 ^ 62)
    (hwindow : InWindow (receiver.spaces .applicationData).largestRecvPn pn
      (encodedPnLen pn acked))
    {frames : List Frame} (hframes : ∀ f ∈ frames, EgestFrame f) :
    ∃ packet k,
      encryptPacket space .applicationData version dstCid srcCid frames pn
        (encodedPnLen pn acked) true = ok packet ∧
      receiver.openPacket packet =
        if MaskAccepted (encodedPnLen pn acked) (maskByte mask dstCid.length packet) then
          ok (.applicationData, pn, frames ++ List.replicate k .padding)
        else err (.packet .reservedBitsSet) := by
  have hpnLen := encodedPnLen_bounds pn acked
  have hfield := pnField_length hpnLen pn
  have hwellFormed := fun f hf => (hframes f hf).wellFormed
  obtain ⟨k, payload, hroom, hopen, hseal⟩ := encryptPacket_short h hkeys version dstCid srcCid
    pn hpnLen fun f hf => (hwellFormed f hf).1
  obtain ⟨hform, hfixed, hreserved, hcode⟩ := shortFirst_bits hpnLen
  have hopened := protectedShort_opens h.header hremote hpnLen hcode hlarge hwindow hroom hopen
    hwellFormed
  refine ⟨_, k, hseal, ?_⟩
  rw [maskByte_protected _ _ _ _ _ (by omega)]
  rw [protectedPacket] at hopened ⊢
  generalize mask (sampleOf (pnField pn (encodedPnLen pn acked)).length payload) = m at hopened ⊢
  obtain ⟨hmaskForm, hmaskFixed, hmaskReserved, hmaskCode⟩ := maskFirst_short m hform
  rw [hreserved, UInt8.zero_xor] at hmaskReserved
  rw [openPacket_shortForm receiver hmaskForm (by rw [hmaskFixed]; exact hfixed) hdst hcid
    (by rw [List.length_append, maskPn_length]; omega), hopened]
  rw [hmaskReserved, hmaskCode]
  by_cases haccepted : MaskAccepted (encodedPnLen pn acked) (m.headD 0)
  · rw [if_pos haccepted]
    exact if_pos haccepted
  · rw [if_neg haccepted]
    exact if_neg haccepted

/-- The packet comes back exactly when the mask happens to leave the bits that the header
parser tests in a state it accepts. -/
theorem short_packet_accepted_iff (h : Paired sealing opening mask)
    (hkeys : space.localKeys = some sealing) {receiver : Connection σ}
    (hremote : (receiver.spaces .applicationData).remoteKeys = some opening) (version : UInt32)
    {dstCid : Bytes} (srcCid : Bytes) (hdst : dstCid.length ≤ 20)
    (hcid : receiver.dstCid.length = dstCid.length) {pn : Nat} (acked : Nat)
    (hlarge : (receiver.spaces .applicationData).largestRecvPn < 2 ^ 62)
    (hwindow : InWindow (receiver.spaces .applicationData).largestRecvPn pn
      (encodedPnLen pn acked))
    {frames : List Frame} (hframes : ∀ f ∈ frames, EgestFrame f) :
    ∃ packet,
      encryptPacket space .applicationData version dstCid srcCid frames pn
        (encodedPnLen pn acked) true = ok packet ∧
      ((∃ k, receiver.openPacket packet =
          ok (.applicationData, pn, frames ++ List.replicate k .padding)) ↔
        MaskAccepted (encodedPnLen pn acked) (maskByte mask dstCid.length packet)) := by
  obtain ⟨packet, k, hseal, hopen⟩ := openPacket_short h hkeys hremote version srcCid hdst hcid
    acked hlarge hwindow hframes
  refine ⟨packet, hseal, ?_⟩
  rw [hopen]
  split_ifs with haccepted
  · exact ⟨fun _ => haccepted, fun _ => ⟨k, rfl⟩⟩
  · simp [haccepted]

end

/-- A mask that leaves the reserved bits alone lets the packet through. -/
theorem short_packet_accepted_iff_null :
    ∃ packet,
      encryptPacket ((Space.new .applicationData).setKeys (nullKeys fun _ => [0x20, 1, 2, 3, 4]))
        .applicationData 1 [0x50] [0x51] [.stream 0 0 [7] false] 9 (encodedPnLen 9 0) true =
        ok packet ∧
      ((∃ k, (Connection.plainConnection fun _ => [0x20, 1, 2, 3, 4]).openPacket packet =
          ok (.applicationData, 9, [.stream 0 0 [7] false] ++ List.replicate k .padding)) ↔
        MaskAccepted (encodedPnLen 9 0) (maskByte (fun _ => [0x20, 1, 2, 3, 4]) 1 packet)) := by
  have hframes : ∀ f ∈ [Frame.stream 0 0 [7] false], EgestFrame f := by
    intro f hf
    rw [List.mem_singleton.mp hf]
    exact .stream (by decide) (by decide) (by decide) (by decide)
  have hkeys : ((Space.new .applicationData).setKeys
      (nullKeys fun _ => [0x20, 1, 2, 3, 4])).localKeys =
      some (nullDirection fun _ => [0x20, 1, 2, 3, 4]) := rfl
  have hremote : ((Connection.plainConnection fun _ => [0x20, 1, 2, 3, 4]).spaces
      .applicationData).remoteKeys = some (nullDirection fun _ => [0x20, 1, 2, 3, 4]) := rfl
  have hwindow : InWindow 0 9 (encodedPnLen 9 0) := by decide
  have haccepted := short_packet_accepted_iff (nullDirection_paired fun _ _ => by decide) hkeys
    hremote 1 [0x51] (by decide : [0x50].length ≤ 20) rfl 0 (by decide) hwindow hframes
  exact haccepted

/-- One masked reserved bit is enough for a well-sealed packet to be refused. -/
theorem short_packet_refused :
    ∃ packet,
      encryptPacket ((Space.new .applicationData).setKeys (nullKeys fun _ => [0x08, 1, 2, 3, 4]))
        .applicationData 1 [0x50] [0x51] [.handshakeDone] 9 (encodedPnLen 9 0) true =
        ok packet ∧
      ∀ k, (Connection.plainConnection fun _ => [0x08, 1, 2, 3, 4]).openPacket packet ≠
        ok (.applicationData, 9, [.handshakeDone] ++ List.replicate k .padding) := by
  have hframes : ∀ f ∈ [Frame.handshakeDone], EgestFrame f := by
    intro f hf
    rw [List.mem_singleton.mp hf]
    exact .handshakeDone
  have hkeys : ((Space.new .applicationData).setKeys
      (nullKeys fun _ => [0x08, 1, 2, 3, 4])).localKeys =
      some (nullDirection fun _ => [0x08, 1, 2, 3, 4]) := rfl
  have hremote : ((Connection.plainConnection fun _ => [0x08, 1, 2, 3, 4]).spaces
      .applicationData).remoteKeys = some (nullDirection fun _ => [0x08, 1, 2, 3, 4]) := rfl
  have hwindow : InWindow 0 9 (encodedPnLen 9 0) := by decide
  obtain ⟨packet, k, hseal, hopen⟩ := openPacket_short (nullDirection_paired fun _ _ => by decide)
    hkeys hremote 1 [0x51] (by decide : [0x50].length ≤ 20) rfl 0 (by decide) hwindow hframes
  have hrefused : ¬ MaskAccepted (encodedPnLen 9 0) 0x08 := by decide
  replace hopen := hopen.trans (if_neg hrefused)
  refine ⟨packet, hseal, fun k hk => ?_⟩
  rw [hopen] at hk
  cases hk

end DeerQuic.Protection
