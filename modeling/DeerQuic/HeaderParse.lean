import DeerQuic.FrameCodec
import DeerQuic.Packet
import DeerQuic.VarIntCodec

/-!
# The front of a header

All long headers begin alike: first byte, version and the two connection IDs. What the parser reads
there is worked out once, for Version Negotiation and for the types behind it. Short headers have
their connection ID right behind the first byte.
-/

namespace DeerQuic

/-- The error asks for more bytes. -/
def PacketError.Short : PacketError → Prop
  | .bufferTooShort _ _ => True
  | .varInt e => e.Short
  | _ => False

namespace Protection

open Outcome Checked

lemma ensure_eq {buf : Bytes} {need : Nat} (h : need ≤ buf.length) :
    Packet.ensure buf need = ok () :=
  require_pos h _

lemma newCid_eq {bytes : Bytes} (h : bytes.length ≤ 20) : Packet.newCid bytes = ok ⟨bytes⟩ := by
  simp [Packet.newCid, ConnectionId.new, Nat.not_lt.mpr h]

lemma newCid_eq_ok {bytes : Bytes} {cid : ConnectionId} :
    Packet.newCid bytes = ok cid ↔ bytes.length ≤ 20 ∧ cid = ⟨bytes⟩ := by
  by_cases h : bytes.length ≤ 20
  · rw [newCid_eq h, ok.injEq, eq_comm]
    simp [h]
  · simp [Packet.newCid, ConnectionId.new, Nat.not_le.mp h, h]

lemma lengthByte {bytes : Bytes} (h : bytes.length ≤ 20) :
    bytes.length.toUInt8.toNat = bytes.length := by
  rw [Nat.toUInt8_eq, UInt8.toNat_ofNat']
  exact Nat.mod_eq_of_lt (by omega)

lemma versionBytes (version : UInt32) :
    UInt32.ofNat (BigEndian.decode (BigEndian.encode 4 version.toNat)) = version := by
  have hlt : version.toNat < 256 ^ 4 := version.toNat_lt
  rw [BigEndian.decode_encode_of_lt hlt, UInt32.ofNat_toNat]

/-- First byte, version and connection IDs, and whatever follows. -/
def cidWire (first : UInt8) (version : UInt32) (dstCid srcCid tail : Bytes) : Bytes :=
  first :: (BigEndian.encode 4 version.toNat ++ dstCid.length.toUInt8 ::
    (dstCid ++ srcCid.length.toUInt8 :: (srcCid ++ tail)))

/-- Where the bytes behind the connection IDs begin, in the words of the parser. -/
def cidEnd (dstCid srcCid : Bytes) : Nat := 6 + dstCid.length + 1 + srcCid.length

lemma cidWire_length (first : UInt8) (version : UInt32) (dstCid srcCid tail : Bytes) :
    (cidWire first version dstCid srcCid tail).length = cidEnd dstCid srcCid + tail.length := by
  simp only [cidWire, cidEnd, List.length_cons, List.length_append, BigEndian.encode_length]
  omega

lemma cidWire_append (first : UInt8) (version : UInt32) (dstCid srcCid tail more : Bytes) :
    cidWire first version dstCid srcCid (tail ++ more) =
      cidWire first version dstCid srcCid tail ++ more := by
  simp [cidWire]

/-- One fact for each read of the parser. -/
structure CidReads (first : UInt8) (version : UInt32) (dstCid srcCid buf : Bytes) : Prop where
  room : cidEnd dstCid srcCid ≤ buf.length
  form : (index buf 0 : Outcome PacketError UInt8) = ok first
  version : (slice buf 1 5 : Outcome PacketError Bytes) = ok (BigEndian.encode 4 version.toNat)
  dstLen : (index buf 5 : Outcome PacketError UInt8) = ok dstCid.length.toUInt8
  dst : (slice buf 6 (6 + dstCid.length) : Outcome PacketError Bytes) = ok dstCid
  srcLen : (index buf (6 + dstCid.length) : Outcome PacketError UInt8) =
    ok srcCid.length.toUInt8
  src : (slice buf (6 + dstCid.length + 1) (6 + dstCid.length + 1 + srcCid.length) :
    Outcome PacketError Bytes) = ok srcCid

lemma cidReads (first : UInt8) (version : UInt32) (dstCid srcCid tail : Bytes) :
    CidReads first version dstCid srcCid (cidWire first version dstCid srcCid tail) := by
  have hlen := cidWire_length first version dstCid srcCid tail
  have hver : (BigEndian.encode 4 version.toNat).length = 4 := BigEndian.encode_length _ _
  constructor
  · omega
  · rfl
  · exact slice_middle [first] (BigEndian.encode 4 version.toNat) _ rfl (by rw [hver])
  · have hindex := index_append (ε := PacketError) (first :: BigEndian.encode 4 version.toNat)
      dstCid.length.toUInt8 (dstCid ++ srcCid.length.toUInt8 :: (srcCid ++ tail))
    simpa [hver, cidWire] using hindex
  · have hslice := slice_middle (ε := PacketError)
      (first :: (BigEndian.encode 4 version.toNat ++ [dstCid.length.toUInt8])) dstCid
      (srcCid.length.toUInt8 :: (srcCid ++ tail))
      (by simp [hver] : 6 = (first :: (BigEndian.encode 4 version.toNat ++ [_])).length) rfl
    simpa [cidWire] using hslice
  · have hindex := index_append (ε := PacketError)
      (first :: (BigEndian.encode 4 version.toNat ++ dstCid.length.toUInt8 :: dstCid))
      srcCid.length.toUInt8 (srcCid ++ tail)
    have hpos : (first :: (BigEndian.encode 4 version.toNat ++
        dstCid.length.toUInt8 :: dstCid)).length = 6 + dstCid.length := by
      simp [hver]
      omega
    rw [hpos] at hindex
    simpa [cidWire] using hindex
  · have hpos : 6 + dstCid.length + 1 = (first :: (BigEndian.encode 4 version.toNat ++
        dstCid.length.toUInt8 :: (dstCid ++ [srcCid.length.toUInt8]))).length := by
      simp [hver]
      omega
    have hslice := slice_middle (ε := PacketError) (first :: (BigEndian.encode 4 version.toNat ++
      dstCid.length.toUInt8 :: (dstCid ++ [srcCid.length.toUInt8]))) srcCid tail hpos rfl
    simpa [cidWire] using hslice

/-- The parser gets to the fields that depend on the type. -/
lemma parseLongHeader_typed {first : UInt8} {version : UInt32} {dstCid srcCid buf : Bytes}
    {ty : LongType} (h : CidReads first version dstCid srcCid buf) (hform : first &&& 0x80 ≠ 0)
    (hfixed : first &&& 0x40 ≠ 0)
    (htype : LongType.fromBits ((first >>> 4) &&& 0x03).toNat = some ty) (hversion : version ≠ 0)
    (hdst : dstCid.length ≤ 20) (hsrc : srcCid.length ≤ 20) :
    Packet.parseLongHeader buf =
      Packet.parseToken ty buf (cidEnd dstCid srcCid) >>= fun out =>
        Packet.parseLengthAndPn first ty version ⟨dstCid⟩ ⟨srcCid⟩ out.1 buf out.2 := by
  have hroom : 6 + dstCid.length + 1 + srcCid.length ≤ buf.length := h.room
  have hnotVn : ¬ version = Packet.versionNegotiation := hversion
  have hdstOk := require_pos (show dstCid.length ≤ Packet.maxCidLen from hdst)
    (PacketError.invalidCidLength dstCid.length)
  have hsrcOk := require_pos (show srcCid.length ≤ Packet.maxCidLen from hsrc)
    (PacketError.invalidCidLength srcCid.length)
  rw [Packet.parseLongHeader, ensure_eq (show 1 ≤ buf.length by omega), ok_bind, h.form, ok_bind,
    require_pos hform, ok_bind, ensure_eq (show 5 ≤ buf.length by omega), ok_bind, h.version,
    ok_bind, versionBytes, if_neg hnotVn, Packet.parseTyped, htype, ofOption_some, ok_bind,
    require_pos hfixed, ok_bind, ensure_eq (show 6 ≤ buf.length by omega), ok_bind, h.dstLen,
    ok_bind]
  dsimp only
  rw [lengthByte hdst, hdstOk, ok_bind, ensure_eq (show 6 + dstCid.length + 1 ≤ buf.length by omega),
    ok_bind, h.dst, ok_bind, newCid_eq hdst, ok_bind, h.srcLen, ok_bind, lengthByte hsrc, hsrcOk,
    ok_bind, ensure_eq hroom, ok_bind, h.src, ok_bind, newCid_eq hsrc, ok_bind]
  rfl

/-- Version 0 is Version Negotiation, whatever the type bits and the fixed bit. -/
lemma parseLongHeader_versionZero {first : UInt8} {dstCid srcCid buf : Bytes}
    (h : CidReads first 0 dstCid srcCid buf) (hform : first &&& 0x80 ≠ 0)
    (hdst : dstCid.length ≤ 20) (hsrc : srcCid.length ≤ 20) :
    Packet.parseLongHeader buf =
      ok ({ ty := .versionNegotiation, version := 0, dstCid := ⟨dstCid⟩, srcCid := ⟨srcCid⟩,
            token := none, length := none, truncatedPn := none, pnLen := none },
        cidEnd dstCid srcCid) := by
  have hroom : 6 + dstCid.length + 1 + srcCid.length ≤ buf.length := h.room
  have hvn : (0 : UInt32) = Packet.versionNegotiation := rfl
  have hdstOk := require_pos (show dstCid.length ≤ 255 by omega)
    (PacketError.invalidCidLength dstCid.length)
  rw [Packet.parseLongHeader, ensure_eq (show 1 ≤ buf.length by omega), ok_bind, h.form, ok_bind,
    require_pos hform, ok_bind, ensure_eq (show 5 ≤ buf.length by omega), ok_bind, h.version,
    ok_bind, versionBytes, if_pos hvn, Packet.parseVersionNegotiation,
    ensure_eq (show 6 ≤ buf.length by omega), ok_bind, h.dstLen, ok_bind]
  dsimp only
  rw [lengthByte hdst, hdstOk, ok_bind, ensure_eq (show 6 + dstCid.length + 1 ≤ buf.length by omega),
    ok_bind, h.dst, ok_bind, newCid_eq hdst, ok_bind, h.srcLen, ok_bind, lengthByte hsrc,
    ensure_eq hroom, ok_bind, h.src, ok_bind, newCid_eq hsrc, ok_bind]
  rfl

lemma parseToken_some (token before after : Bytes) (h : token.length ≤ VarInt.varintMax) :
    Packet.parseToken .initial (before ++ (VarInt.wire token.length ++ (token ++ after)))
      before.length =
      ok (some token, before.length + VarInt.encodedLen token.length + token.length) := by
  have hrest : (sliceFrom (before ++ (VarInt.wire token.length ++ (token ++ after))) before.length :
      Outcome PacketError Bytes) = ok (VarInt.wire token.length ++ (token ++ after)) :=
    sliceFrom_append _ _ rfl
  have hdecode := VarInt.decode_wire h (token ++ after)
  have hroom : before.length + VarInt.encodedLen token.length + token.length ≤
      (before ++ (VarInt.wire token.length ++ (token ++ after))).length := by
    simp only [List.length_append, VarInt.wire_length]
    omega
  have htoken : (slice (before ++ (VarInt.wire token.length ++ (token ++ after)))
      (before.length + VarInt.encodedLen token.length)
      (before.length + VarInt.encodedLen token.length + token.length) :
      Outcome PacketError Bytes) = ok token := by
    have hslice := slice_middle (ε := PacketError) (before ++ VarInt.wire token.length) token after
      (by simp : before.length + VarInt.encodedLen token.length = _) rfl
    simpa using hslice
  simp only [Packet.parseToken, if_true, hrest, hdecode, mapErr_ok, ok_bind, ensure_eq hroom, htoken]

lemma parseToken_none {ty : LongType} (h : ty ≠ .initial) (buf : Bytes) (pos : Nat) :
    Packet.parseToken ty buf pos = ok (none, pos) :=
  if_neg h

lemma parseLengthAndPn_retry (first : UInt8) (version : UInt32) (dstCid srcCid : ConnectionId)
    (token : Option Bytes) (buf : Bytes) (pos : Nat) :
    Packet.parseLengthAndPn first .retry version dstCid srcCid token buf pos =
      ok ({ ty := .retry, version, dstCid, srcCid, token := none, length := none,
            truncatedPn := none, pnLen := none }, pos) := rfl

/-- The Length field is read, and as many bytes behind it as the first byte says. -/
lemma parseLengthAndPn_field {first : UInt8} {ty : LongType} (hty : ty ≠ .retry) (version : UInt32)
    (dstCid srcCid : ConnectionId) (token : Option Bytes) (before field after : Bytes)
    {lengthValue pn : Nat} (hlength : lengthValue ≤ VarInt.varintMax)
    (hpnLen : (first &&& 0x03).toNat + 1 = field.length)
    (hpn : Packet.readPn (field ++ after) field.length = ok pn) :
    Packet.parseLengthAndPn first ty version dstCid srcCid token
      (before ++ (VarInt.wire lengthValue ++ (field ++ after))) before.length =
      ok ({ ty, version, dstCid, srcCid, token, length := some lengthValue,
            truncatedPn := some pn, pnLen := some field.length },
        before.length + VarInt.encodedLen lengthValue + field.length) := by
  have hrest : (sliceFrom (before ++ (VarInt.wire lengthValue ++ (field ++ after))) before.length :
      Outcome PacketError Bytes) = ok (VarInt.wire lengthValue ++ (field ++ after)) :=
    sliceFrom_append _ _ rfl
  have hdecode := VarInt.decode_wire hlength (field ++ after)
  have hfield : (sliceFrom (before ++ (VarInt.wire lengthValue ++ (field ++ after)))
      (before.length + VarInt.encodedLen lengthValue) : Outcome PacketError Bytes) =
      ok (field ++ after) := by
    rw [← List.append_assoc]
    exact sliceFrom_append _ _ (by simp)
  have hlen : before.length + VarInt.encodedLen lengthValue + field.length ≤
      (before ++ (VarInt.wire lengthValue ++ (field ++ after))).length := by
    simp only [List.length_append, VarInt.wire_length]
    omega
  simp only [Packet.parseLengthAndPn, hty, if_false, hrest, hdecode, mapErr_ok, ok_bind, hpnLen,
    ensure_eq hlen, hfield, hpn]

/-- The fields of a short header are read off its first byte, and the packet number behind the
connection ID. -/
lemma parseShortHeader_read {first : UInt8} {dstCid rest : Bytes} {truncatedPn : Nat}
    (hform : first &&& 0x80 = 0) (hfixed : first &&& 0x40 ≠ 0)
    (hreserved : (first >>> 3) &&& 0x03 = 0) (hcode : first &&& 0x03 ≠ 0)
    (hdst : dstCid.length ≤ 20) (hroom : (first &&& 0x03).toNat ≤ rest.length)
    (hpn : Packet.readPn rest (first &&& 0x03).toNat = ok truncatedPn) :
    Packet.parseShortHeader (first :: (dstCid ++ rest)) dstCid.length =
      ok ({ spin := decide (first &&& 0x20 ≠ 0), keyPhase := decide (first &&& 0x04 ≠ 0),
            dstCid := ⟨dstCid⟩, truncatedPn, pnLen := (first &&& 0x03).toNat },
        1 + dstCid.length + (first &&& 0x03).toNat) := by
  have hpnLen : (first &&& 0x03).toNat ≠ 0 := fun h => hcode (UInt8.toNat_inj.mp h)
  have hfirst : (index (first :: (dstCid ++ rest)) 0 : Outcome PacketError UInt8) = ok first :=
    rfl
  have hcid : (slice (first :: (dstCid ++ rest)) 1 (1 + dstCid.length) :
      Outcome PacketError Bytes) = ok dstCid :=
    slice_middle [first] dstCid rest rfl rfl
  have hrest : (sliceFrom (first :: (dstCid ++ rest)) (1 + dstCid.length) :
      Outcome PacketError Bytes) = ok rest :=
    sliceFrom_append (first :: dstCid) rest (by simp; omega)
  have hlen : (first :: (dstCid ++ rest)).length = 1 + dstCid.length + rest.length := by
    simp
    omega
  rw [Packet.parseShortHeader, ensure_eq (by omega), ok_bind, hfirst, ok_bind, require_pos hform,
    ok_bind, require_pos hfixed, ok_bind]
  dsimp only
  rw [require_pos hreserved, ok_bind, require_pos hpnLen, ok_bind, ensure_eq (by omega), ok_bind,
    hcid, ok_bind, newCid_eq hdst, ok_bind, ensure_eq (by omega), ok_bind, hrest, ok_bind, hpn,
    ok_bind]

/-- Reserved bits, or a packet number length of 0. -/
lemma parseShortHeader_reserved {first : UInt8} {dstCid rest : Bytes} (hform : first &&& 0x80 = 0)
    (hfixed : first &&& 0x40 ≠ 0) (h : ¬ ((first >>> 3) &&& 0x03 = 0 ∧ first &&& 0x03 ≠ 0)) :
    Packet.parseShortHeader (first :: (dstCid ++ rest)) dstCid.length =
      err .reservedBitsSet := by
  have hfirst : (index (first :: (dstCid ++ rest)) 0 : Outcome PacketError UInt8) = ok first :=
    rfl
  rw [Packet.parseShortHeader, ensure_eq (by simp), ok_bind, hfirst, ok_bind, require_pos hform,
    ok_bind, require_pos hfixed, ok_bind]
  dsimp only
  by_cases hreserved : (first >>> 3) &&& 0x03 = 0
  · have hcode : first &&& 0x03 = 0 := by
      by_contra hne
      exact h ⟨hreserved, hne⟩
    rw [require_pos hreserved, ok_bind, require_neg (by simp [hcode]), err_bind]
  · rw [require_neg hreserved, err_bind]

/-- The ways through the fields at the end of a header. -/
inductive LengthRead (first : UInt8) (ty : LongType) (version : UInt32)
    (dstCid srcCid : ConnectionId) (token : Option Bytes) (buf : Bytes) (pos : Nat) :
    LongHeader → Nat → Prop where
  | retry : ty = .retry → LengthRead first ty version dstCid srcCid token buf pos
      { ty, version, dstCid, srcCid, token := none, length := none, truncatedPn := none,
        pnLen := none } pos
  | field {length width truncatedPn : Nat} : ty ≠ .retry → pos ≤ buf.length →
      VarInt.decode (buf.drop pos) = ok (length, width) →
      pos + width + ((first &&& 0x03).toNat + 1) ≤ buf.length →
      Packet.readPn (buf.drop (pos + width)) ((first &&& 0x03).toNat + 1) = ok truncatedPn →
      LengthRead first ty version dstCid srcCid token buf pos
        { ty, version, dstCid, srcCid, token, length := some length,
          truncatedPn := some truncatedPn, pnLen := some ((first &&& 0x03).toNat + 1) }
        (pos + width + ((first &&& 0x03).toNat + 1))

lemma lengthRead {first : UInt8} {ty : LongType} {version : UInt32}
    {dstCid srcCid : ConnectionId} {token : Option Bytes} {buf : Bytes} {pos n : Nat}
    {hdr : LongHeader}
    (h : Packet.parseLengthAndPn first ty version dstCid srcCid token buf pos = ok (hdr, n)) :
    LengthRead first ty version dstCid srcCid token buf pos hdr n := by
  by_cases hretry : ty = .retry
  · rw [Packet.parseLengthAndPn, if_pos hretry] at h
    obtain ⟨rfl, rfl⟩ := Prod.mk.inj (ok.inj h)
    exact .retry hretry
  · simp only [Packet.parseLengthAndPn, if_neg hretry, bind_eq_ok, mapErr_eq_ok, sliceFrom_eq_ok,
      Prod.exists] at h
    obtain ⟨_, ⟨hpos, rfl⟩, length, width, hdecode, ⟨⟩, hensure, _, ⟨-, rfl⟩, truncatedPn, hpn,
      hout⟩ := h
    obtain ⟨rfl, rfl⟩ := Prod.mk.inj (ok.inj hout)
    exact .field hretry hpos hdecode (require_eq_ok.mp hensure) hpn

lemma parseLengthAndPn_cids {first : UInt8} {ty : LongType} {version : UInt32}
    {dstCid srcCid : ConnectionId} {token : Option Bytes} {buf : Bytes} {pos n : Nat}
    {hdr : LongHeader}
    (h : Packet.parseLengthAndPn first ty version dstCid srcCid token buf pos = ok (hdr, n)) :
    hdr.dstCid = dstCid ∧ hdr.srcCid = srcCid := by
  cases lengthRead h with
  | retry _ => exact ⟨rfl, rfl⟩
  | field _ _ _ _ _ => exact ⟨rfl, rfl⟩

/-- The length byte and the bytes that it counts. -/
lemma lengthByte_of_slice {ε : Type} {buf bytes : Bytes} {lo : Nat} {len : UInt8}
    (h : (slice buf lo (lo + len.toNat) : Outcome ε Bytes) = ok bytes) :
    bytes.length = len.toNat ∧ bytes.length.toUInt8 = len := by
  have hlen := slice_length h
  rw [Nat.add_sub_cancel_left] at hlen
  refine ⟨hlen, ?_⟩
  rw [hlen]
  simp

/-- The reads of the parser, in the form in which they are read back. -/
lemma cidReads_of {buf versionBytes dstBytes srcBytes : Bytes} {first dstLen srcLen : UInt8}
    (hfirst : (index buf 0 : Outcome PacketError UInt8) = ok first)
    (hversion : (slice buf 1 5 : Outcome PacketError Bytes) = ok versionBytes)
    (hdstLen : (index buf 5 : Outcome PacketError UInt8) = ok dstLen)
    (hdst : (slice buf 6 (6 + dstLen.toNat) : Outcome PacketError Bytes) = ok dstBytes)
    (hsrcLen : (index buf (6 + dstLen.toNat) : Outcome PacketError UInt8) = ok srcLen)
    (hsrc : (slice buf (6 + dstLen.toNat + 1) (6 + dstLen.toNat + 1 + srcLen.toNat) :
      Outcome PacketError Bytes) = ok srcBytes) :
    CidReads first (UInt32.ofNat (BigEndian.decode versionBytes)) dstBytes srcBytes buf ∧
      cidEnd dstBytes srcBytes = 6 + dstLen.toNat + 1 + srcLen.toNat := by
  have hwidth := slice_length hversion
  have hsmall := BigEndian.decode_lt versionBytes
  have hback := BigEndian.encode_decode versionBytes
  rw [hwidth] at hsmall hback
  have hroom := (slice_eq_ok.mp hsrc).1.2
  obtain ⟨hdstWidth, hdstByte⟩ := lengthByte_of_slice hdst
  obtain ⟨hsrcWidth, hsrcByte⟩ := lengthByte_of_slice hsrc
  have hend : cidEnd dstBytes srcBytes = 6 + dstLen.toNat + 1 + srcLen.toNat := by
    rw [cidEnd, hdstWidth, hsrcWidth]
  refine ⟨⟨by rw [hend]; exact hroom, hfirst, ?_, by rw [hdstByte]; exact hdstLen,
    by rw [hdstWidth]; exact hdst, by rw [hdstWidth, hsrcByte]; exact hsrcLen,
    by rw [hdstWidth, hsrcWidth]; exact hsrc⟩, hend⟩
  rw [UInt32.toNat_ofNat_of_lt' hsmall]
  exact hversion.trans (congrArg ok hback.symm)

/-- What the parser did behind the connection IDs. -/
inductive BehindCids (first : UInt8) (version : UInt32) (buf : Bytes) (hdr : LongHeader) (n : Nat) :
    Prop where
  | versionNegotiation : version = 0 →
      hdr = { ty := .versionNegotiation, version := 0, dstCid := hdr.dstCid, srcCid := hdr.srcCid,
              token := none, length := none, truncatedPn := none, pnLen := none } →
      n = cidEnd hdr.dstCid.bytes hdr.srcCid.bytes → BehindCids first version buf hdr n
  | typed {ty : LongType} {token : Option Bytes} {pos : Nat} : version ≠ 0 → first &&& 0x40 ≠ 0 →
      LongType.fromBits ((first >>> 4) &&& 0x03).toNat = some ty →
      Packet.parseToken ty buf (cidEnd hdr.dstCid.bytes hdr.srcCid.bytes) = ok (token, pos) →
      Packet.parseLengthAndPn first ty version hdr.dstCid hdr.srcCid token buf pos = ok (hdr, n) →
      BehindCids first version buf hdr n

/-- The parser has gone past two connection IDs of at most 20 bytes, on the one way or on the
other. -/
lemma parseLongHeader_reads {buf : Bytes} {hdr : LongHeader} {n : Nat}
    (h : Packet.parseLongHeader buf = ok (hdr, n)) :
    ∃ first version, CidReads first version hdr.dstCid.bytes hdr.srcCid.bytes buf ∧
      (hdr.dstCid.bytes.length ≤ 20 ∧ hdr.srcCid.bytes.length ≤ 20) ∧
      first &&& 0x80 ≠ 0 ∧ BehindCids first version buf hdr n := by
  simp only [Packet.parseLongHeader, bind_eq_ok, require_eq_ok] at h
  obtain ⟨⟨⟩, -, first, hfirst, ⟨⟩, hform, ⟨⟩, -, versionBytes, hversion, h⟩ := h
  split_ifs at h with hvn
  · simp only [Packet.parseVersionNegotiation, bind_eq_ok, newCid_eq_ok] at h
    obtain ⟨_, -, dstLen, hdstLen, _, -, _, -, dstBytes, hdst, dstCid, ⟨hdst20, rfl⟩, srcLen,
      hsrcLen, _, -, srcBytes, hsrc, srcCid, ⟨hsrc20, rfl⟩, hout⟩ := h
    obtain ⟨rfl, rfl⟩ := Prod.mk.inj (ok.inj hout)
    obtain ⟨hreads, hend⟩ := cidReads_of hfirst hversion hdstLen hdst hsrcLen hsrc
    exact ⟨first, _, hreads, ⟨hdst20, hsrc20⟩, hform, .versionNegotiation hvn rfl hend.symm⟩
  · simp only [Packet.parseTyped, bind_eq_ok, newCid_eq_ok, ofOption_eq_ok, require_eq_ok,
      Prod.exists] at h
    obtain ⟨ty, hty, ⟨⟩, hfixed, _, -, dstLen, hdstLen, _, -, _, -, dstBytes, hdst, dstCid,
      ⟨hdst20, rfl⟩, srcLen, hsrcLen, _, -, _, -, srcBytes, hsrc, srcCid, ⟨hsrc20, rfl⟩, token,
      pos, htoken, hout⟩ := h
    obtain ⟨hreads, hend⟩ := cidReads_of hfirst hversion hdstLen hdst hsrcLen hsrc
    obtain ⟨hdstCid, hsrcCid⟩ := parseLengthAndPn_cids hout
    rw [← hend] at htoken
    rw [← hdstCid, ← hsrcCid] at hout
    refine ⟨first, _, ?_, ?_, hform, .typed hvn hfixed hty ?_ hout⟩
    · rw [hdstCid, hsrcCid]
      exact hreads
    · rw [hdstCid, hsrcCid]
      exact ⟨hdst20, hsrc20⟩
    · rw [hdstCid, hsrcCid]
      exact htoken

/-- Both parsers make connection IDs of at most 20 bytes. -/
lemma parseLongHeader_cids {buf : Bytes} {hdr : LongHeader} {n : Nat}
    (h : Packet.parseLongHeader buf = ok (hdr, n)) :
    hdr.dstCid.bytes.length ≤ 20 ∧ hdr.srcCid.bytes.length ≤ 20 := by
  obtain ⟨first, version, -, hcids, -⟩ := parseLongHeader_reads h
  exact hcids

lemma parseLongHeader_form {buf : Bytes} {hdr : LongHeader} {n : Nat}
    (h : Packet.parseLongHeader buf = ok (hdr, n)) :
    ∃ first tail, buf = first :: tail ∧ first &&& 0x80 ≠ 0 := by
  obtain ⟨first, version, hreads, -, hform, -⟩ := parseLongHeader_reads h
  have hfirst := hreads.form
  cases buf with
  | nil => cases hfirst
  | cons b tail => exact ⟨b, tail, rfl, by rwa [ok.inj hfirst]⟩

lemma ensure_steady (need : Nat) :
    SteadyReader PacketError.Short fun buf => Packet.ensure buf need :=
  SteadyReader.require_length need fun _ => trivial

lemma decode_steady :
    SteadyReader PacketError.Short fun buf => (VarInt.decode buf).mapErr .varInt := by
  constructor
  · intro buf more out h
    exact mapErr_eq_ok.mpr (VarInt.decode_steady.front buf more out (mapErr_eq_ok.mp h))
  · intro buf more e h hlong
    obtain ⟨e', he', rfl⟩ := mapErr_eq_err.mp h
    exact mapErr_eq_err.mpr ⟨e', VarInt.decode_steady.stands buf more e' he' hlong, rfl⟩

lemma readPn_steady (len : Nat) :
    SteadyReader PacketError.Short fun buf => Packet.readPn buf len := by
  unfold Packet.readPn
  split
  all_goals first
    | exact SteadyReader.const _
    | exact (SteadyReader.slice _ _).bind fun field => SteadyReader.const _

lemma parseToken_steady (ty : LongType) (pos : Nat) :
    SteadyReader PacketError.Short fun buf => Packet.parseToken ty buf pos :=
  .ite (.tail_bind pos decode_steady fun _ => (ensure_steady _).bind fun _ =>
    (SteadyReader.slice _ _).bind fun _ => .const _) (.const _)

lemma parseLengthAndPn_steady (first : UInt8) (ty : LongType) (version : UInt32)
    (dstCid srcCid : ConnectionId) (token : Option Bytes) (pos : Nat) :
    SteadyReader PacketError.Short fun buf =>
      Packet.parseLengthAndPn first ty version dstCid srcCid token buf pos :=
  .ite (.const _) (.tail_bind pos decode_steady fun _ => (ensure_steady _).bind fun _ =>
    .tail_bind _ (readPn_steady _) fun _ => .const _)

/-- A header is parsed from the front of the datagram, and refused for what stands there. -/
theorem parseLongHeader_steady : SteadyReader PacketError.Short Packet.parseLongHeader := by
  refine (ensure_steady 1).bind fun _ => (SteadyReader.index 0).bind fun first =>
    (SteadyReader.const _).bind fun _ => (ensure_steady 5).bind fun _ =>
      (SteadyReader.slice 1 5).bind fun versionBytes => .ite ?_ ?_
  · exact (ensure_steady 6).bind fun _ => (SteadyReader.index 5).bind fun dstLenByte =>
      (SteadyReader.const _).bind fun _ => (ensure_steady _).bind fun _ =>
        (SteadyReader.slice _ _).bind fun _ => (SteadyReader.const _).bind fun _ =>
          (SteadyReader.index _).bind fun _ => (ensure_steady _).bind fun _ =>
            (SteadyReader.slice _ _).bind fun _ => (SteadyReader.const _).bind fun _ =>
              SteadyReader.const _
  · exact (SteadyReader.const _).bind fun _ => (SteadyReader.const _).bind fun _ =>
      (ensure_steady 6).bind fun _ => (SteadyReader.index 5).bind fun dstLenByte =>
        (SteadyReader.const _).bind fun _ => (ensure_steady _).bind fun _ =>
          (SteadyReader.slice _ _).bind fun _ => (SteadyReader.const _).bind fun _ =>
            (SteadyReader.index _).bind fun _ => (SteadyReader.const _).bind fun _ =>
              (ensure_steady _).bind fun _ => (SteadyReader.slice _ _).bind fun _ =>
                (SteadyReader.const _).bind fun _ => (parseToken_steady _ _).bind fun _ =>
                  parseLengthAndPn_steady _ _ _ _ _ _ _

end Protection
end DeerQuic
