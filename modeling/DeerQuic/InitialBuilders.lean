import DeerQuic.Handshake
import DeerQuic.InitialSize

/-!
# The two builders of the client's first packet

Both put one CRYPTO frame into an Initial packet with number 0 and pad it. Where the Length field
takes two bytes they lay out the same header, and only the padding differs. The builder of the
handshake has no room for a wider one.
-/

namespace DeerQuic

open Outcome Checked Protection

namespace Handshake

/-- What is written in front of the Length field. -/
def headerFront (dstCid srcCid : Bytes) : Bytes :=
  longFirst .initial 1 :: (BigEndian.encode 4 Packet.version1.toNat ++
    (dstCid.length.toUInt8 :: (dstCid ++ (srcCid.length.toUInt8 :: (srcCid ++ [0])))))

lemma headerFront_length (dstCid srcCid : Bytes) :
    (headerFront dstCid srcCid).length = 8 + dstCid.length + srcCid.length := by
  simp [headerFront]
  omega

lemma headerPnOffset_eq (dstCid srcCid : Bytes) :
    headerPnOffset dstCid srcCid = (headerFront dstCid srcCid).length + 2 := by
  rw [headerFront_length, headerPnOffset]
  omega

lemma headerFront_wire (dstCid srcCid : Bytes) (lengthValue : Nat) :
    headerFront dstCid srcCid ++ VarInt.wire lengthValue =
      longFirst .initial 1 :: longMiddle .initial Packet.version1 dstCid srcCid lengthValue := by
  simp [headerFront, longMiddle, tokenField]

lemma encodeInto_zeros (written : Bytes) {n pos : Nat} (v : Nat) (hpos : pos = written.length) :
    encodeInto (written ++ List.replicate n 0) pos v =
      (VarInt.encode v (List.replicate n 0)).mapErr .varInt >>= fun out =>
        ok (written ++ out.2) := by
  have htail := sliceFrom_append (ε := HandshakeError) written (List.replicate n 0) hpos
  subst hpos
  simp [encodeInto, htail]

/-- The Length is encoded into the last three bytes of the header. -/
lemma initialHeader_front (dstCid srcCid : Bytes) (lengthValue : Nat) :
    initialHeader dstCid srcCid lengthValue =
      (VarInt.encode lengthValue (List.replicate 3 0)).mapErr .varInt >>= fun out =>
        copyAt (headerFront dstCid srcCid ++ out.2) (headerPnOffset dstCid srcCid) [0] := by
  have hver : (BigEndian.encode 4 Packet.version1.toNat).length = 4 := BigEndian.encode_length _ _
  have hlength := headerFront_length dstCid srcCid
  have hoffset := headerPnOffset_eq dstCid srcCid
  have htoken : (VarInt.encode 0 (List.replicate 4 0)).mapErr HandshakeError.varInt =
      ok (1, List.replicate 4 0) := rfl
  have hfront : [] ++ [(0xc0 : UInt8) ||| (1 - 1).toUInt8] ++
      BigEndian.encode 4 Packet.version1.toNat ++ [dstCid.length.toUInt8] ++ dstCid ++
      [srcCid.length.toUInt8] ++ srcCid ++ List.replicate 4 0 =
      headerFront dstCid srcCid ++ List.replicate 3 0 := by
    simp [headerFront, longFirst, spaceTypeBits, List.replicate]
  simp only [initialHeader]
  generalize headerPnOffset dstCid srcCid = pnOffset at hoffset ⊢
  have hleft : pnOffset + 1 - [(0xc0 : UInt8) ||| (1 - 1).toUInt8].length -
      (BigEndian.encode 4 Packet.version1.toNat).length - [dstCid.length.toUInt8].length -
      dstCid.length - [srcCid.length.toUInt8].length - srcCid.length = 4 := by
    simp
    omega
  rw [← List.nil_append (List.replicate (pnOffset + 1) (0 : UInt8)),
    copyAt_zeros _ _ (by simp) (by simp), ok_bind,
    copyAt_zeros _ _ (by simp) (by simp; omega), ok_bind,
    copyAt_zeros _ _ (by simp) (by simp; omega), ok_bind,
    copyAt_zeros _ _ (by simp) (by simp; omega), ok_bind,
    copyAt_zeros _ _ (by simp; omega) (by simp; omega), ok_bind,
    copyAt_zeros _ _ (by simp; omega) (by simp; omega), ok_bind, hleft,
    encodeInto_zeros _ _ (by simp; omega), htoken, ok_bind, ok_bind, hfront,
    encodeInto_zeros _ _ (by omega)]
  cases (VarInt.encode lengthValue (List.replicate 3 0)).mapErr HandshakeError.varInt with
  | ok out => rfl
  | err e => rfl
  | panic => rfl

/-- With a Length field of two bytes the header is the one of `encrypt_long`. -/
lemma initialHeader_eq (dstCid srcCid : Bytes) {lengthValue : Nat}
    (hwidth : VarInt.encodedLen lengthValue = 2) (hfits : lengthValue ≤ VarInt.varintMax) :
    initialHeader dstCid srcCid lengthValue =
      ok (plainHeader (longFirst .initial 1)
        (longMiddle .initial Packet.version1 dstCid srcCid lengthValue) (pnField 0 1)) := by
  have hwire := VarInt.wire_length lengthValue
  have hroom : VarInt.encodedLen lengthValue ≤ (List.replicate 3 (0 : UInt8)).length := by
    rw [hwidth]
    decide
  have hencode := VarInt.encode_eq hfits hroom
  rw [hwidth] at hencode hwire
  have hpos : headerPnOffset dstCid srcCid =
      (headerFront dstCid srcCid ++ VarInt.wire lengthValue).length := by
    rw [List.length_append, hwire, headerPnOffset_eq]
  have hfill := copyAt_fill (ε := HandshakeError) (headerFront dstCid srcCid ++
    VarInt.wire lengthValue) [0] ((List.replicate 3 0).drop 2) hpos (by decide)
  rw [initialHeader_front, hencode, mapErr_ok, ok_bind, ← List.append_assoc, hfill,
    headerFront_wire]
  simp [plainHeader, pnField]

/-- A wider one does not fit. -/
lemma initialHeader_wide (dstCid srcCid : Bytes) {lengthValue : Nat}
    (hwide : 16383 < lengthValue) :
    initialHeader dstCid srcCid lengthValue =
      err (.varInt (if lengthValue ≤ VarInt.varintMax then
        .bufferTooShort (VarInt.encodedLen lengthValue) 3 else .valueTooLarge lengthValue)) := by
  have hwidth : 3 < VarInt.encodedLen lengthValue := by
    unfold VarInt.encodedLen
    split_ifs <;> omega
  rw [initialHeader_front, VarInt.encode]
  by_cases hfits : lengthValue ≤ VarInt.varintMax
  · rw [if_neg (Nat.not_lt.mpr hfits), if_pos hfits]
    simp [hwidth]
  · rw [if_pos (Nat.not_le.mp hfits), if_neg hfits]
    rfl

/-- The header protection of `encrypt_long`, for a packet number of one byte. -/
lemma protectInitial_eq (keys : DirectionalKeys) (first pnByte : UInt8) (middle payload : Bytes) :
    protectInitial keys (plainHeader first middle [pnByte]) (middle.length + 1) 1 payload =
      (protectHeader keys (plainHeader first middle [pnByte]) (middle.length + 1) 1 payload).mapErr
        fun _ => .internal "header protection" := by
  have hbyte : (index (plainHeader first middle [pnByte]) (middle.length + 1) :
      Outcome HandshakeError UInt8) = ok pnByte :=
    index_append (first :: middle) pnByte []
  have hfield : (slice (plainHeader first middle [pnByte]) (middle.length + 1)
      (middle.length + 1 + 1) : Outcome ConnectionError Bytes) = ok [pnByte] :=
    plainHeader_field first middle [pnByte]
  simp only [protectInitial, protectHeader, plainHeader_first, hbyte, hfield, ok_bind]
  by_cases hroom : 4 - 1 + keys.header.sampleLen ≤ payload.length
  · simp only [slice, hroom, Nat.le_add_right, and_self, if_true, ok_bind]
    generalize (payload.drop (4 - 1)).take _ = sample
    cases hmask : keys.header.encryptInPlace sample first [pnByte] with
    | none => rfl
    | some out =>
      obtain ⟨first', pnBytes⟩ := out
      obtain ⟨pnByte', rfl⟩ := List.length_eq_one_iff.mp (keys.header.encrypt_length hmask)
      have hindex : (index [pnByte'] 0 : Outcome HandshakeError UInt8) = ok pnByte' := rfl
      have hsame : [pnByte'].length = [pnByte].length := rfl
      simp only [ofOption_some, ok_bind, plainHeader_copy_first, hindex,
        plainHeader_copy_field first' middle hsame, mapErr_ok]
  · simp only [slice, hroom, and_false, if_false, panic_bind, mapErr_panic]

lemma copyAt_padTo (n : Nat) (body : Bytes) :
    (copyAt (List.replicate (max body.length n) 0) 0 body : Outcome HandshakeError Bytes) =
      ok (padTo n body) := by
  have hfill := copyAt_zeros (ε := HandshakeError) [] body (List.length_nil (α := UInt8)).symm
    (Nat.le_max_left body.length n)
  have hleft : max body.length n - body.length = n - body.length := by omega
  simpa only [List.nil_append, hleft, padTo] using hfill

/-- The frames, padded for a header with two bytes of Length. -/
def payloadOf (tagLen : Nat) (dstCid srcCid body : Bytes) : Bytes :=
  padTo (minInitialSize - (headerPnOffset dstCid srcCid + 1 + tagLen)) body

lemma buildAndProtectInitial_eq {keys : Keys} {dstCid srcCid clientHello body : Bytes}
    {tagLen lengthValue : Nat} (htagLen : keys.localKeys.packet.tagLen = tagLen)
    (hwrite : writeFrames [.crypto 0 clientHello] [] = ok body)
    (hlength : lengthValue = 1 + (payloadOf tagLen dstCid srcCid body).length + tagLen) :
    buildAndProtectInitial keys dstCid srcCid clientHello =
      initialHeader dstCid srcCid lengthValue >>= fun header =>
        ofOption (.internal "AEAD encrypt") (keys.localKeys.packet.encryptInPlace 0 header
          (payloadOf tagLen dstCid srcCid body)) >>= fun out =>
            protectInitial keys.localKeys header (headerPnOffset dstCid srcCid) 1
              (out.1 ++ out.2) := by
  have hpayload : max body.length (minInitialSize - (headerPnOffset dstCid srcCid + 1 + tagLen)) =
      (payloadOf tagLen dstCid srcCid body).length := by
    rw [payloadOf, padTo_length, max_comm]
  have hcopy := copyAt_padTo (minInitialSize - (headerPnOffset dstCid srcCid + 1 + tagLen)) body
  rw [← payloadOf, hpayload] at hcopy
  simp only [buildAndProtectInitial, hwrite, htagLen, mapErr_ok, ok_bind, hpayload, hcopy,
    ← hlength]

/-- The builder makes what `encrypt_long` makes of its payload, or it fails. -/
lemma buildAndProtectInitial_eq_ok {keys : Keys} {dstCid srcCid clientHello body packet : Bytes}
    {tagLen lengthValue : Nat} (htagLen : keys.localKeys.packet.tagLen = tagLen)
    (hwrite : writeFrames [.crypto 0 clientHello] [] = ok body)
    (hlength : lengthValue = 1 + (payloadOf tagLen dstCid srcCid body).length + tagLen)
    (hlow : 64 ≤ lengthValue) :
    buildAndProtectInitial keys dstCid srcCid clientHello = ok packet ↔
      lengthValue ≤ 16383 ∧
        encryptLong keys.localKeys .initial Packet.version1 dstCid srcCid
          (payloadOf tagLen dstCid srcCid body) 0 1 (some []) = ok packet := by
  rw [buildAndProtectInitial_eq htagLen hwrite hlength]
  simp only [encryptLong, htagLen, ← hlength]
  by_cases hwide : 16383 < lengthValue
  · rw [initialHeader_wide dstCid srcCid hwide, err_bind]
    simp [Nat.not_le.mpr hwide]
  · have hwidth : VarInt.encodedLen lengthValue = 2 := by
      unfold VarInt.encodedLen
      rw [if_neg (by omega), if_pos (by omega)]
    have hfits : lengthValue ≤ VarInt.varintMax := by
      unfold VarInt.varintMax
      omega
    have hoffset : headerPnOffset dstCid srcCid =
        (longMiddle .initial Packet.version1 dstCid srcCid lengthValue).length + 1 := by
      rw [← List.length_cons (a := longFirst .initial 1), ← headerFront_wire, List.length_append,
        VarInt.wire_length, hwidth, headerPnOffset_eq]
    have htoken : ((some [] : Option Bytes).map List.length).getD 0 = 0 := rfl
    have hheader := longHeader_eq .initial Packet.version1 dstCid srcCid 0
      (by decide : 1 ≤ 1 ∧ 1 ≤ 4) htoken hfits
    have hnarrow : lengthValue ≤ 16383 := by omega
    simp only [initialHeader_eq dstCid srcCid hwidth hfits, hheader, hoffset, hnarrow, ok_bind,
      bind_eq_ok, ofOption_eq_ok, true_and, pnField, protectInitial_eq, mapErr_eq_ok]

end Handshake

namespace Protection

/-- A packet of at least 1200 bytes, which the server opens to packet number 0 and the CRYPTO frame
with the ClientHello, with nothing but padding behind it. -/
def CarriesHello (serverKeys : Keys) (clientHello packet : Bytes) : Prop :=
  1200 ≤ packet.length ∧ ∃ hdr n k, Packet.parseLongHeader packet = ok (hdr, n) ∧
    decryptInitial packet hdr serverKeys =
      ok (.crypto 0 clientHello :: List.replicate k .padding, 0)

def helloBody (clientHello : Bytes) : Bytes := (Frame.crypto 0 clientHello).wire

lemma helloBody_length (clientHello : Bytes) :
    (helloBody clientHello).length =
      2 + VarInt.encodedLen clientHello.length + clientHello.length := by
  simp [helloBody, Frame.wire, Frame.wireBytes, encodedLen_zero]
  omega

lemma writeFrames_hello {clientHello body : Bytes} :
    writeFrames [.crypto 0 clientHello] [] = ok body ↔
      clientHello.length ≤ VarInt.varintMax ∧ body = helloBody clientHello := by
  by_cases hfits : clientHello.length ≤ VarInt.varintMax
  · have hwellFormed : ∀ f ∈ [Frame.crypto 0 clientHello], f.WellFormed := by
      intro f hf
      rw [List.mem_singleton.mp hf]
      exact ⟨Nat.zero_le _, hfits⟩
    rw [writeFrames_eq hwellFormed, ok.injEq, eq_comm]
    simp [helloBody, hfits]
  · have hfields : (Frame.crypto 0 clientHello).fields =
        [.raw [0x06], .varint 0] ++ .varint clientHello.length :: [.raw clientHello] := rfl
    have hwrite := Frame.writeFrame_refused (f := .crypto 0 clientHello) trivial hfields
      (by simp [Frame.Field.Fits]) (Nat.not_le.mp hfits) []
    simp [writeFrames, hwrite, hfits]

variable {keys serverKeys : Keys} {mask : Bytes → Bytes} {dstCid srcCid : Bytes}

/-- A CRYPTO frame with padding, sealed with packet number 0. -/
lemma encryptLong_hello (h : Paired keys.localKeys serverKeys.remoteKeys mask)
    (hdst : dstCid.length ≤ 20) (hsrc : srcCid.length ≤ 20) {clientHello : Bytes}
    (hhello : clientHello.length ≤ VarInt.varintMax) (n : Nat) {lengthValue : Nat}
    (hlength : lengthValue = 1 + (padTo n (helloBody clientHello)).length + 16)
    (hfits : lengthValue ≤ VarInt.varintMax)
    (hsize : 1200 ≤
      8 + dstCid.length + srcCid.length + VarInt.encodedLen lengthValue + lengthValue) :
    ∃ packet,
      encryptLong keys.localKeys .initial Packet.version1 dstCid srcCid
        (padTo n (helloBody clientHello)) 0 1 (some []) = ok packet ∧
      CarriesHello serverKeys clientHello packet := by
  have hpnLen : 1 ≤ 1 ∧ 1 ≤ 4 := by decide
  have hframes : ∀ f ∈ [Frame.crypto 0 clientHello], f.WellFormed ∧ f.SelfDelimiting := by
    intro f hf
    rw [List.mem_singleton.mp hf]
    exact ⟨⟨Nat.zero_le _, hhello⟩, trivial⟩
  have hplain : padTo n (helloBody clientHello) = [Frame.crypto 0 clientHello].flatMap Frame.wire ++
      List.replicate (n - (helloBody clientHello).length) 0 := by
    rw [List.flatMap_singleton]
    rfl
  have hwidth := VarInt.encodedLen_le lengthValue
  generalize hbody : padTo n (helloBody clientHello) = plain at hplain hlength ⊢
  have htoken : ((some [] : Option Bytes).map List.length).getD 0 = 0 := rfl
  obtain ⟨payload, hpayload, hopen, hseal⟩ := encryptLong_eq h .initial Packet.version1 dstCid
    srcCid plain 0 hpnLen htoken (by omega) (by omega)
  rw [← hlength] at hopen hseal
  rw [hplain] at hopen
  obtain ⟨hdr, m, hparse, -, -, -, -, -, hopened⟩ := protectedLong_opens h.header .initial
    (by decide : Packet.version1 ≠ 0) hdst hsrc hpnLen (by decide) (by omega) hfits (by omega) hopen
    hframes
  refine ⟨_, hseal, ?_, hdr, m, n - (helloBody clientHello).length, hparse, ?_⟩
  · rw [protectedPacket_length, longMiddle_length, pnField_length hpnLen]
    simp only [tokenField, if_true, List.length_cons, List.length_nil]
    omega
  · rw [decryptInitial, hopened, ok_bind]
    rfl

/-- A builder that seals the padded frame under a condition of its own returns a packet if and only
if, besides, the Length can be said, and what it returns carries the ClientHello. -/
lemma builder_returns (h : Paired keys.localKeys serverKeys.remoteKeys mask)
    (hdst : dstCid.length ≤ 20) (hsrc : srcCid.length ≤ 20) {clientHello : Bytes} {n : Nat}
    {lengthValue : Nat} (hlength : lengthValue = 1 + (padTo n (helloBody clientHello)).length + 16)
    (hsize : 1200 ≤ 8 + dstCid.length + srcCid.length + VarInt.encodedLen lengthValue + lengthValue)
    {ε : Type} {build : Outcome ε Bytes} {room : Prop}
    (hbuild : ∀ packet, build = ok packet ↔
      clientHello.length ≤ VarInt.varintMax ∧ room ∧
        encryptLong keys.localKeys .initial Packet.version1 dstCid srcCid
          (padTo n (helloBody clientHello)) 0 1 (some []) = ok packet) :
    ((∃ packet, build = ok packet) ↔
      clientHello.length ≤ VarInt.varintMax ∧ room ∧ lengthValue ≤ VarInt.varintMax) ∧
    ∀ packet, build = ok packet → CarriesHello serverKeys clientHello packet := by
  have hfits : ∀ packet, build = ok packet → lengthValue ≤ VarInt.varintMax := by
    intro packet hpacket
    obtain ⟨-, -, hsealed⟩ := (hbuild packet).mp hpacket
    obtain ⟨_, _, _, _, _, _, -, -, -, hfits, -⟩ :=
      encryptLong_layout (by decide : 1 ≤ 1 ∧ 1 ≤ 4) rfl hsealed
    rwa [h.packet.tag_len, ← hlength] at hfits
  refine ⟨⟨?_, ?_⟩, ?_⟩
  · rintro ⟨packet, hpacket⟩
    obtain ⟨hhello, hroom, -⟩ := (hbuild packet).mp hpacket
    exact ⟨hhello, hroom, hfits packet hpacket⟩
  · rintro ⟨hhello, hroom, hmax⟩
    obtain ⟨packet, hsealed, -⟩ := encryptLong_hello h hdst hsrc hhello n hlength hmax hsize
    exact ⟨packet, (hbuild packet).mpr ⟨hhello, hroom, hsealed⟩⟩
  · intro packet hpacket
    obtain ⟨hhello, -, hsealed⟩ := (hbuild packet).mp hpacket
    obtain ⟨packet', hsealed', hcarries⟩ :=
      encryptLong_hello h hdst hsrc hhello n hlength (hfits packet hpacket) hsize
    rwa [ok.inj (hsealed.symm.trans hsealed')]

/-- The builder of the connection makes a packet whenever the Length can be said at all. -/
lemma buildInitialPacket_returns (h : Paired keys.localKeys serverKeys.remoteKeys mask)
    (hdst : dstCid.length ≤ 20) (hsrc : srcCid.length ≤ 20) (clientHello : Bytes) (tokenLen : Nat) :
    ((∃ packet, buildInitialPacket keys dstCid srcCid clientHello tokenLen = ok packet) ↔
      clientHello.length < 2 ^ 62 - 27) ∧
    ∀ packet, buildInitialPacket keys dstCid srcCid clientHello tokenLen = ok packet →
      CarriesHello serverKeys clientHello packet := by
  obtain ⟨n, htarget⟩ : ∃ n, n = 1200 - (hdrSizeLong dstCid.length srcCid.length tokenLen
    ((helloBody clientHello).length + 1 + 16) + 16) := ⟨_, rfl⟩
  obtain ⟨lengthValue, hlength⟩ :
      ∃ v, v = 1 + (padTo n (helloBody clientHello)).length + 16 := ⟨_, rfl⟩
  have hplain := padTo_length n (helloBody clientHello)
  have hbuild : ∀ packet, buildInitialPacket keys dstCid srcCid clientHello tokenLen = ok packet ↔
      clientHello.length ≤ VarInt.varintMax ∧ True ∧
        encryptLong keys.localKeys .initial Packet.version1 dstCid srcCid
          (padTo n (helloBody clientHello)) 0 1 (some []) = ok packet := by
    intro packet
    simp [buildInitialPacket, bind_eq_ok, writeFrames_hello, h.packet.tag_len, and_assoc, htarget]
  have hestimate : (padTo n (helloBody clientHello)).length =
      max (1200 - (hdrSizeLong dstCid.length srcCid.length tokenLen
        ((helloBody clientHello).length + 1 + 16) + 16)) (helloBody clientHello).length := by
    rw [hplain, htarget]
  have hsize := (padded_size tokenLen hdst hsrc (by decide) hestimate).1
  rw [← hlength] at hsize
  have hlimit : clientHello.length ≤ VarInt.varintMax ∧ True ∧ lengthValue ≤ VarInt.varintMax ↔
      clientHello.length < 2 ^ 62 - 27 := by
    rw [true_and]
    have hbody := helloBody_length clientHello
    unfold VarInt.encodedLen at hbody
    unfold VarInt.varintMax
    split_ifs at hbody <;> omega
  obtain ⟨hreturns, hcarries⟩ := builder_returns h hdst hsrc hlength hsize hbuild
  exact ⟨hreturns.trans hlimit, hcarries⟩

/-- The builder of the handshake makes one as long as the Length takes two bytes. -/
lemma buildAndProtectInitial_returns (h : Paired keys.localKeys serverKeys.remoteKeys mask)
    (hdst : dstCid.length ≤ 20) (hsrc : srcCid.length ≤ 20) (clientHello : Bytes) :
    ((∃ packet, Handshake.buildAndProtectInitial keys dstCid srcCid clientHello = ok packet) ↔
      clientHello.length ≤ 16362) ∧
    ∀ packet, Handshake.buildAndProtectInitial keys dstCid srcCid clientHello = ok packet →
      CarriesHello serverKeys clientHello packet := by
  obtain ⟨n, htarget⟩ :
      ∃ n, n = 1200 - (Handshake.headerPnOffset dstCid srcCid + 1 + 16) := ⟨_, rfl⟩
  obtain ⟨lengthValue, hlength⟩ :
      ∃ v, v = 1 + (padTo n (helloBody clientHello)).length + 16 := ⟨_, rfl⟩
  have hplain := padTo_length n (helloBody clientHello)
  have hoffset := Handshake.headerPnOffset_eq dstCid srcCid
  rw [Handshake.headerFront_length] at hoffset
  have hlow : 64 ≤ lengthValue := by omega
  have hsize : 1200 ≤ 8 + dstCid.length + srcCid.length + VarInt.encodedLen lengthValue +
      lengthValue := by
    have hwidth := VarInt.encodedLen_mono hlow
    have htwo : VarInt.encodedLen 64 = 2 := rfl
    omega
  have hbuild : ∀ packet,
      Handshake.buildAndProtectInitial keys dstCid srcCid clientHello = ok packet ↔
        clientHello.length ≤ VarInt.varintMax ∧ lengthValue ≤ 16383 ∧
          encryptLong keys.localKeys .initial Packet.version1 dstCid srcCid
            (padTo n (helloBody clientHello)) 0 1 (some []) = ok packet := by
    intro packet
    have hpayload : Handshake.payloadOf 16 dstCid srcCid (helloBody clientHello) =
        padTo n (helloBody clientHello) := by
      rw [htarget]
      rfl
    by_cases hhello : clientHello.length ≤ VarInt.varintMax
    · have hwrite := writeFrames_hello.mpr ⟨hhello, rfl⟩
      rw [← hpayload] at hlength ⊢
      rw [Handshake.buildAndProtectInitial_eq_ok h.packet.tag_len hwrite hlength hlow]
      simp only [hhello, true_and]
    · simp [Handshake.buildAndProtectInitial, bind_eq_ok, writeFrames_hello, hhello]
  have hlimit : clientHello.length ≤ VarInt.varintMax ∧ lengthValue ≤ 16383 ∧
      lengthValue ≤ VarInt.varintMax ↔ clientHello.length ≤ 16362 := by
    have hbody := helloBody_length clientHello
    unfold VarInt.encodedLen at hbody
    unfold VarInt.varintMax
    split_ifs at hbody <;> omega
  obtain ⟨hreturns, hcarries⟩ := builder_returns h hdst hsrc hlength hsize hbuild
  exact ⟨hreturns.trans hlimit, hcarries⟩

end Protection

namespace Handshake

/-- One builder makes a packet when the other does, and the server finds the same in both. -/
structure BuildersAgree (keys serverKeys : Keys) (dstCid srcCid clientHello : Bytes)
    (tokenLen : Nat) : Prop where
  succeed : (∃ packet, buildAndProtectInitial keys dstCid srcCid clientHello = ok packet) ↔
    ∃ packet, buildInitialPacket keys dstCid srcCid clientHello tokenLen = ok packet
  carry : ∀ packet packet', buildAndProtectInitial keys dstCid srcCid clientHello = ok packet →
    buildInitialPacket keys dstCid srcCid clientHello tokenLen = ok packet' →
    CarriesHello serverKeys clientHello packet ∧ CarriesHello serverKeys clientHello packet'

/-- The builders part where the Length field outgrows two bytes, and meet again where it outgrows
a varint. -/
theorem builders_agree_iff {keys serverKeys : Keys} {mask : Bytes → Bytes}
    (h : Paired keys.localKeys serverKeys.remoteKeys mask) {dstCid srcCid : Bytes}
    (hdst : dstCid.length ≤ 20) (hsrc : srcCid.length ≤ 20) (clientHello : Bytes)
    (tokenLen : Nat) :
    BuildersAgree keys serverKeys dstCid srcCid clientHello tokenLen ↔
      clientHello.length ≤ 16362 ∨ 2 ^ 62 - 27 ≤ clientHello.length := by
  obtain ⟨hreturns, hcarries⟩ := buildAndProtectInitial_returns h hdst hsrc clientHello
  obtain ⟨hreturns', hcarries'⟩ := buildInitialPacket_returns h hdst hsrc clientHello tokenLen
  constructor
  · intro hagree
    have hsucceed := hagree.succeed
    rw [hreturns, hreturns'] at hsucceed
    omega
  · intro hlength
    constructor
    · rw [hreturns, hreturns']
      omega
    · intro packet packet' hpacket hpacket'
      exact ⟨hcarries packet hpacket, hcarries' packet' hpacket'⟩

theorem builders_agree_iff_three :
    BuildersAgree (nullKeys fun _ => [0xff, 1, 2, 3, 4]) (nullKeys fun _ => [0xff, 1, 2, 3, 4])
        [7, 8] [9] [1, 0, 0] 0 ↔ [(1 : UInt8), 0, 0].length ≤ 16362 ∨ 2 ^ 62 - 27 ≤ 3 :=
  builders_agree_iff (nullDirection_paired fun _ _ => by decide)
    (by decide : [(7 : UInt8), 8].length ≤ 20) (by decide : [(9 : UInt8)].length ≤ 20) [1, 0, 0] 0

/-- With a CRYPTO frame of 16367 bytes the Length is 16384, one too many for two bytes. -/
theorem long_hello_refused :
    (∃ packet, buildInitialPacket (nullKeys fun _ => [0xff, 1, 2, 3, 4]) [7, 8] [9]
      (List.replicate 16363 1) 0 = ok packet) ∧
    buildAndProtectInitial (nullKeys fun _ => [0xff, 1, 2, 3, 4]) [7, 8] [9]
      (List.replicate 16363 1) = err (.varInt (.bufferTooShort 4 3)) := by
  have hpaired : Paired (nullKeys fun _ => [0xff, 1, 2, 3, 4]).localKeys
      (nullKeys fun _ => [0xff, 1, 2, 3, 4]).remoteKeys fun _ => [0xff, 1, 2, 3, 4] :=
    nullDirection_paired fun _ _ => by decide
  have hhello : (List.replicate 16363 (1 : UInt8)).length = 16363 := List.length_replicate
  generalize List.replicate 16363 (1 : UInt8) = clientHello at hhello ⊢
  constructor
  · rw [(buildInitialPacket_returns hpaired (by decide : [(7 : UInt8), 8].length ≤ 20)
      (by decide : [(9 : UInt8)].length ≤ 20) clientHello 0).1, hhello]
    decide
  · have hwrite := writeFrames_hello.mpr ⟨by rw [hhello]; decide, rfl⟩
    have hbody : (helloBody clientHello).length = 16367 := by
      rw [helloBody_length, hhello]
      rfl
    have hlength : 16384 = 1 + (payloadOf 16 [7, 8] [9] (helloBody clientHello)).length + 16 := by
      rw [payloadOf, padTo_length, hbody]
      rfl
    have htagLen : (nullKeys fun _ => [0xff, 1, 2, 3, 4]).localKeys.packet.tagLen = 16 := rfl
    have hwide := initialHeader_wide [7, 8] [9] (show 16383 < 16384 by decide)
    rw [buildAndProtectInitial_eq htagLen hwrite hlength, hwide]
    rfl

end Handshake
end DeerQuic
