import DeerQuic.FrameLoop
import DeerQuic.PacketNumber

/-!
# What the builders produce

A protected packet is the masked first byte, the rest of the header in the clear, the
masked packet number and the sealed payload. Both builders end in this form, and with
header keys that obey the law of RFC 9001 section 5.4.1 opening it gives back the header
that was authenticated, whatever the mask is.
-/

namespace DeerQuic.Protection

open Outcome Checked

lemma protectedBits_maskFirst (mask : Bytes) (first : UInt8) :
    protectedBits (maskFirst mask first) = protectedBits first := by
  have hform : maskFirst mask first &&& 0x80 = first &&& 0x80 := by
    unfold maskFirst protectedBits
    split_ifs
    · exact BigEndian.masked_and (by decide)
    · exact BigEndian.masked_and (by decide)
  unfold protectedBits
  rw [hform]

lemma maskFirst_maskFirst (mask : Bytes) (first : UInt8) :
    maskFirst mask (maskFirst mask first) = first := by
  have hbits := protectedBits_maskFirst mask first
  unfold maskFirst at hbits ⊢
  rw [hbits]
  exact xor_cancel_right _ _

lemma maskPn_length (mask : Bytes) (plain : UInt8) (pn : Bytes) :
    (maskPn mask plain pn).length = pn.length := by
  simp [maskPn]

/-- `middle` is the header between its first byte and the packet number field. -/
def plainHeader (first : UInt8) (middle pnBytes : Bytes) : Bytes :=
  first :: (middle ++ pnBytes)

def sampleOf (pnLen : Nat) (payload : Bytes) : Bytes := (payload.drop (4 - pnLen)).take 16

def protectedPacket (mask : Bytes → Bytes) (first : UInt8) (middle pnBytes payload : Bytes) :
    Bytes :=
  let m := mask (sampleOf pnBytes.length payload)
  maskFirst m first :: (middle ++ (maskPn m first pnBytes ++ payload))

lemma protectedPacket_length (mask : Bytes → Bytes) (first : UInt8)
    (middle pnBytes payload : Bytes) :
    (protectedPacket mask first middle pnBytes payload).length =
      middle.length + 1 + pnBytes.length + payload.length := by
  simp [protectedPacket, maskPn_length]
  omega

lemma plainHeader_length (first : UInt8) (middle pnBytes : Bytes) :
    (plainHeader first middle pnBytes).length = middle.length + 1 + pnBytes.length := by
  simp only [plainHeader, List.length_cons, List.length_append]
  omega

variable {ε : Type}

lemma plainHeader_first (first : UInt8) (middle pnBytes : Bytes) :
    (index (plainHeader first middle pnBytes) 0 : Outcome ε UInt8) = ok first := rfl

lemma plainHeader_field (first : UInt8) (middle pnBytes : Bytes) :
    (slice (plainHeader first middle pnBytes) (middle.length + 1)
      (middle.length + 1 + pnBytes.length) : Outcome ε Bytes) = ok pnBytes := by
  have hmiddle := slice_middle (ε := ε) (first :: middle) pnBytes [] rfl rfl
  simpa [plainHeader] using hmiddle

lemma plainHeader_copy_first (first first' : UInt8) (middle pnBytes : Bytes) :
    (copyAt (plainHeader first middle pnBytes) 0 [first'] : Outcome ε Bytes) =
      ok (plainHeader first' middle pnBytes) := by
  simp [copyAt, plainHeader]

lemma plainHeader_copy_field (first : UInt8) (middle : Bytes) {pnBytes pnBytes' : Bytes}
    (hlen : pnBytes'.length = pnBytes.length) :
    (copyAt (plainHeader first middle pnBytes) (middle.length + 1) pnBytes' :
      Outcome ε Bytes) = ok (plainHeader first middle pnBytes') := by
  have hpos : middle.length + 1 = (first :: middle).length := rfl
  have hfill := copyAt_fill (ε := ε) (first :: middle) pnBytes' pnBytes hpos hlen.le
  simpa [plainHeader, hlen] using hfill

/-- A header with its first byte and its packet number masked, and the payload. -/
lemma protectedPacket_eq {mask : Bytes → Bytes} {m : Bytes} {pnBytes payload : Bytes}
    (hm : mask (sampleOf pnBytes.length payload) = m) (first : UInt8) (middle : Bytes) :
    protectedPacket mask first middle pnBytes payload =
      plainHeader (maskFirst m first) middle (maskPn m first pnBytes) ++ payload := by
  simp [protectedPacket, plainHeader, hm]

lemma protectedPacket_sample (mask : Bytes → Bytes) (first : UInt8) (middle : Bytes)
    {pnBytes payload : Bytes} (hpn : pnBytes.length ≤ 4)
    (hroom : 20 ≤ pnBytes.length + payload.length) :
    (slice (protectedPacket mask first middle pnBytes payload) (middle.length + 1 + 4)
      (middle.length + 1 + 4 + 16) : Outcome ConnectionError Bytes) =
      ok (sampleOf pnBytes.length payload) := by
  have htotal := protectedPacket_length mask first middle pnBytes payload
  rw [slice_eq_ok]
  refine ⟨⟨by omega, by omega⟩, ?_⟩
  generalize hm : mask (sampleOf pnBytes.length payload) = m
  have hheader := plainHeader_length (maskFirst m first) middle (maskPn m first pnBytes)
  have hmasked := maskPn_length m first pnBytes
  have hbehind : middle.length + 1 + 4 -
      (plainHeader (maskFirst m first) middle (maskPn m first pnBytes)).length =
      4 - pnBytes.length := by omega
  rw [protectedPacket_eq hm, List.drop_append, List.drop_of_length_le (by omega), hbehind,
    List.nil_append, Nat.add_sub_cancel_left, sampleOf]

/-- The four bytes taken for the field are the masked field and the start of the payload. -/
lemma protectedPacket_field {mask : Bytes → Bytes} {m : Bytes} (first : UInt8) (middle : Bytes)
    {pnBytes payload : Bytes} (hm : mask (sampleOf pnBytes.length payload) = m)
    (hpn : pnBytes.length ≤ 4) (hroom : 20 ≤ pnBytes.length + payload.length) :
    (slice (protectedPacket mask first middle pnBytes payload) (middle.length + 1)
      (middle.length + 1 + 4) : Outcome ConnectionError Bytes) =
      ok (maskPn m first pnBytes ++ payload.take (4 - pnBytes.length)) := by
  have htotal := protectedPacket_length mask first middle pnBytes payload
  have hmasked := maskPn_length m first pnBytes
  have hdrop : (protectedPacket mask first middle pnBytes payload).drop (middle.length + 1) =
      maskPn m first pnBytes ++ payload := by
    rw [protectedPacket, hm, List.drop_succ_cons, List.drop_left]
  rw [slice_eq_ok]
  refine ⟨⟨by omega, by omega⟩, ?_⟩
  rw [hdrop, Nat.add_sub_cancel_left, List.take_append,
    List.take_of_length_le (show (maskPn m first pnBytes).length ≤ 4 by omega), hmasked]

/-- The packet is the masked header and the payload. -/
lemma protectedPacket_parts {mask : Bytes → Bytes} {m : Bytes} (first : UInt8) (middle : Bytes)
    {pnBytes payload : Bytes} (hm : mask (sampleOf pnBytes.length payload) = m) :
    (slice (protectedPacket mask first middle pnBytes payload) 0
        (middle.length + 1 + pnBytes.length) : Outcome ConnectionError Bytes) =
      ok (plainHeader (maskFirst m first) middle (maskPn m first pnBytes)) ∧
    (sliceFrom (protectedPacket mask first middle pnBytes payload)
        (middle.length + 1 + pnBytes.length) : Outcome ConnectionError Bytes) = ok payload := by
  have hend : middle.length + 1 + pnBytes.length =
      (plainHeader (maskFirst m first) middle (maskPn m first pnBytes)).length := by
    rw [plainHeader_length, maskPn_length]
  rw [protectedPacket_eq hm]
  constructor
  · exact slice_middle [] _ payload rfl (by rw [hend, Nat.zero_add]; rfl)
  · exact sliceFrom_append _ payload hend

section

variable {sealing opening : DirectionalKeys} {mask : Bytes → Bytes}

/-- The other side's key takes the mask off the first byte, and off the bytes of the field among
those that were taken for it. -/
lemma protectedPacket_unmask (h : MaskedBy sealing.header opening.header mask) {m : Bytes}
    (first : UInt8) {pnBytes payload : Bytes}
    (hm : mask (sampleOf pnBytes.length payload) = m) (hpn : pnBytes.length ≤ 4)
    (hroom : 20 ≤ pnBytes.length + payload.length) :
    ∃ field, opening.header.decryptInPlace (sampleOf pnBytes.length payload) (maskFirst m first)
        (padTo 4 (maskPn m first pnBytes ++ payload.take (4 - pnBytes.length))) =
        some (first, field) ∧
      (slice field 0 pnBytes.length : Outcome ConnectionError Bytes) = ok pnBytes := by
  have hsampleLen : (sampleOf pnBytes.length payload).length = 16 := by
    simp only [sampleOf, List.length_take, List.length_drop]
    omega
  have hfull : (maskPn m first pnBytes ++ payload.take (4 - pnBytes.length)).length = 4 := by
    simp only [List.length_append, List.length_take, maskPn_length]
    omega
  have hpad : padTo 4 (maskPn m first pnBytes ++ payload.take (4 - pnBytes.length)) =
      maskPn m first pnBytes ++ payload.take (4 - pnBytes.length) := by
    simp [padTo, hfull]
  have hunmask := h.decrypt (sampleOf pnBytes.length payload) (maskFirst m first)
    (maskPn m first pnBytes ++ payload.take (4 - pnBytes.length)) hsampleLen (by omega)
  rw [hm, maskFirst_maskFirst] at hunmask
  refine ⟨_, by rw [hpad]; exact hunmask, ?_⟩
  rw [slice_eq_ok]
  refine ⟨⟨by omega, by rw [maskPn_length, hfull]; omega⟩, ?_⟩
  rw [List.drop_zero, Nat.sub_zero]
  exact (BigEndian.xorPrefix_undo _ _ _ _).symm

/-- Applying header protection to a plain header in front of its payload. -/
lemma protectHeader_eq (h : MaskedBy sealing.header opening.header mask) (first : UInt8)
    (middle : Bytes) {pnBytes payload : Bytes} (hpn : pnBytes.length ≤ 4)
    (hroom : 20 ≤ pnBytes.length + payload.length) :
    protectHeader sealing (plainHeader first middle pnBytes) (middle.length + 1)
        pnBytes.length payload = ok (protectedPacket mask first middle pnBytes payload) := by
  have hsample : (slice payload (4 - pnBytes.length) (4 - pnBytes.length + 16) :
      Outcome ConnectionError Bytes) = ok (sampleOf pnBytes.length payload) := by
    rw [slice_eq_ok]
    refine ⟨⟨by omega, by omega⟩, ?_⟩
    rw [sampleOf, Nat.add_sub_cancel_left]
  have hsampleLen : (sampleOf pnBytes.length payload).length = 16 := by
    simp only [sampleOf, List.length_take, List.length_drop]
    omega
  have hmask := h.encrypt (sampleOf pnBytes.length payload) first pnBytes hsampleLen hpn
  generalize hm : mask (sampleOf pnBytes.length payload) = m at hmask
  have hcopy := plainHeader_copy_field (ε := ConnectionError) (maskFirst m first) middle
    (maskPn_length m first pnBytes)
  simp only [protectHeader, h.seal_sample, hsample, plainHeader_first, plainHeader_field, hmask,
    plainHeader_copy_first, hcopy, ok_bind, ofOption_some, protectedPacket_eq hm]

/-- Removing it again: the AEAD is called with the plain header and the payload. -/
lemma aeadInput_protected (h : MaskedBy sealing.header opening.header mask) {first : UInt8}
    (middle : Bytes) {pnBytes : Bytes} (payload : Bytes) {pnLenOf : UInt8 → Nat} {largest pn : Nat}
    (hpn : pnBytes.length ≤ 4) (hroom : 20 ≤ pnBytes.length + payload.length)
    (hlen : pnLenOf first = pnBytes.length)
    (hdecode : (Packet.decodePacketNumber largest (readPn pnBytes) pnBytes.length :
      Outcome ConnectionError Nat) = ok pn) :
    aeadInput pnLenOf largest opening (protectedPacket mask first middle pnBytes payload)
        (middle.length + 1) = ok (pn, plainHeader first middle pnBytes, payload) := by
  have htotal := protectedPacket_length mask first middle pnBytes payload
  have hmin : min (middle.length + 1 + 4)
      (protectedPacket mask first middle pnBytes payload).length = middle.length + 1 + 4 := by
    omega
  generalize hm : mask (sampleOf pnBytes.length payload) = m
  have hsample := protectedPacket_sample mask first middle hpn hroom
  have hfour := protectedPacket_field first middle hm hpn hroom
  obtain ⟨field, hunmask, hundo⟩ := protectedPacket_unmask h first hm hpn hroom
  obtain ⟨haad, hrest⟩ := protectedPacket_parts first middle hm
  have hfirst : (index (protectedPacket mask first middle pnBytes payload) 0 :
      Outcome ConnectionError UInt8) = ok (maskFirst m first) := by
    rw [protectedPacket_eq hm]
    rfl
  have hcopy := plainHeader_copy_field (ε := ConnectionError) first middle
    (maskPn_length m first pnBytes).symm
  simp only [aeadInput, h.open_sample, hsample, hmin, hfirst, hfour, hunmask, hlen, hundo, hdecode,
    haad, plainHeader_copy_first, hcopy, hrest, ok_bind, ofOption_some]

end

lemma copyAt_zeros {ε : Type} (written ys : Bytes) {n pos : Nat} (hpos : pos = written.length)
    (hroom : ys.length ≤ n) :
    (copyAt (written ++ List.replicate n 0) pos ys : Outcome ε Bytes) =
      ok (written ++ ys ++ List.replicate (n - ys.length) 0) := by
  rw [copyAt_fill written ys _ hpos (by simpa using hroom), List.drop_replicate]

lemma encodeAt_zeros (written : Bytes) {n pos v : Nat} (hpos : pos = written.length)
    (hv : v ≤ VarInt.varintMax) (hroom : VarInt.encodedLen v ≤ n) :
    encodeAt (written ++ List.replicate n 0) pos v =
      ok (written ++ VarInt.wire v ++ List.replicate (n - VarInt.encodedLen v) 0) := by
  have htail := sliceFrom_append (ε := ConnectionError) written (List.replicate n 0) hpos
  have hfits : VarInt.encodedLen v ≤ (List.replicate n (0 : UInt8)).length := by simpa using hroom
  have hencode := VarInt.encode_eq hv hfits
  subst hpos
  simp [encodeAt, htail, hencode, List.append_assoc]

def longFirst (pnSpace : PacketNumberSpace) (pnLen : Nat) : UInt8 :=
  (0xc0 : UInt8) ||| (spaceTypeBits pnSpace <<< 4) ||| (pnLen - 1).toUInt8

/-- The empty token of an Initial packet is its length, one zero byte. -/
def tokenField (pnSpace : PacketNumberSpace) : Bytes := if pnSpace = .initial then [0] else []

def longMiddle (pnSpace : PacketNumberSpace) (version : UInt32) (dstCid srcCid : Bytes)
    (lengthValue : Nat) : Bytes :=
  BigEndian.encode 4 version.toNat ++ (dstCid.length.toUInt8 :: (dstCid ++
    (srcCid.length.toUInt8 :: (srcCid ++ (tokenField pnSpace ++ VarInt.wire lengthValue)))))

lemma longMiddle_length (pnSpace : PacketNumberSpace) (version : UInt32) (dstCid srcCid : Bytes)
    (lengthValue : Nat) :
    (longMiddle pnSpace version dstCid srcCid lengthValue).length =
      6 + dstCid.length + srcCid.length + (tokenField pnSpace).length +
        VarInt.encodedLen lengthValue := by
  simp [longMiddle]
  omega

lemma encodedLen_zero : VarInt.encodedLen 0 = 1 := rfl

lemma wire_zero : VarInt.wire 0 = [0] := rfl

lemma longHeader_eq (pnSpace : PacketNumberSpace) (version : UInt32) (dstCid srcCid : Bytes)
    (pn : Nat) {pnLen lengthValue : Nat} {token : Option Bytes} (hpn : 1 ≤ pnLen ∧ pnLen ≤ 4)
    (htoken : (token.map List.length).getD 0 = 0) (hlength : lengthValue ≤ VarInt.varintMax) :
    longHeader pnSpace version dstCid srcCid pn pnLen token lengthValue =
      ok (plainHeader (longFirst pnSpace pnLen)
          (longMiddle pnSpace version dstCid srcCid lengthValue) (pnField pn pnLen),
        (longMiddle pnSpace version dstCid srcCid lengthValue).length + 1) := by
  have hfield := pnField_length hpn pn
  have hver : (BigEndian.encode 4 version.toNat).length = 4 := BigEndian.encode_length _ _
  have hoffset : 1 + 4 + 1 + dstCid.length + 1 + srcCid.length +
      (if pnSpace = .initial then VarInt.encodedLen 0 else 0) + VarInt.encodedLen lengthValue =
      (longMiddle pnSpace version dstCid srcCid lengthValue).length + 1 := by
    rw [longMiddle_length, tokenField, encodedLen_zero]
    split_ifs <;> simp <;> omega
  have hsize := longMiddle_length pnSpace version dstCid srcCid lengthValue
  simp only [longHeader, htoken, hoffset]
  generalize hN : (longMiddle pnSpace version dstCid srcCid lengthValue).length = size
  rw [hN] at hsize
  -- Each field is written over the zeros that the fields before it left.
  rw [← List.nil_append (List.replicate (size + 1 + pnLen) (0 : UInt8)),
    copyAt_zeros _ _ (by simp) (by simp; omega), ok_bind,
    copyAt_zeros _ _ (by simp) (by simp; omega), ok_bind,
    copyAt_zeros _ _ (by simp) (by simp; omega), ok_bind,
    copyAt_zeros _ _ (by simp) (by simp; omega), ok_bind,
    copyAt_zeros _ _ (by simp; omega) (by simp; omega), ok_bind,
    copyAt_zeros _ _ (by simp; omega) (by simp; omega), ok_bind]
  by_cases hspace : pnSpace = .initial
  · subst hspace
    simp only [tokenField, if_true, List.length_cons, List.length_nil] at hsize ⊢
    rw [encodeAt_zeros _ (by simp; omega) (Nat.zero_le _) (by simp [encodedLen_zero]; omega),
      ok_bind,
      encodeAt_zeros _ (by simp [encodedLen_zero]; omega) hlength
        (by simp [encodedLen_zero]; omega), ok_bind,
      copyAt_zeros _ _ (by simp [encodedLen_zero]; omega) (by simp [encodedLen_zero]; omega),
      ok_bind]
    simp [plainHeader, longMiddle, longFirst, tokenField, hfield, hver, encodedLen_zero, wire_zero]
    omega
  · simp only [tokenField, hspace, if_false, List.length_nil] at hsize ⊢
    rw [encodeAt_zeros _ (by simp; omega) hlength (by simp; omega), ok_bind,
      copyAt_zeros _ _ (by simp; omega) (by simp; omega), ok_bind]
    simp [plainHeader, longMiddle, longFirst, tokenField, hspace, hfield, hver]
    omega

def shortFirst (pnLen : Nat) (keyPhase : Bool) : UInt8 :=
  (0x40 : UInt8) ||| (if keyPhase then 0x04 else 0) ||| (if pnLen = 4 then 0 else pnLen.toUInt8)

lemma shortHeader_eq (dstCid : Bytes) (pn : Nat) {pnLen : Nat} (hpn : 1 ≤ pnLen ∧ pnLen ≤ 4)
    (first : UInt8) :
    (do
      let header ← copyAt (List.replicate (1 + dstCid.length + pnLen) 0) 0 [first]
      let header ← copyAt header 1 dstCid
      copyAt header (1 + dstCid.length) (pnField pn pnLen) : Outcome ConnectionError Bytes) =
      ok (plainHeader first dstCid (pnField pn pnLen)) := by
  have hfield := pnField_length hpn pn
  rw [← List.nil_append (List.replicate (1 + dstCid.length + pnLen) (0 : UInt8)),
    copyAt_zeros _ _ (by simp) (by simp; omega), ok_bind,
    copyAt_zeros _ _ (by simp) (by simp; omega), ok_bind,
    copyAt_zeros _ _ (by simp; omega) (by simp; omega)]
  simp [plainHeader, hfield]
  omega

section

variable {sealing opening : DirectionalKeys} {mask : Bytes → Bytes}

/-- Frames sealed under a header open again, and the header is protected over them. -/
lemma sealed_protected (h : Paired sealing opening mask) (first : UInt8) (middle frames : Bytes)
    (pn : Nat) {pnLen : Nat} (hpn : 1 ≤ pnLen ∧ pnLen ≤ 4) (hroom : 4 ≤ pnLen + frames.length) :
    ∃ sealed tag,
      sealing.packet.encryptInPlace pn (plainHeader first middle (pnField pn pnLen)) frames =
        some (sealed, tag) ∧
      (sealed ++ tag).length = frames.length + 16 ∧
      opening.packet.decryptInPlace pn (plainHeader first middle (pnField pn pnLen))
        (sealed ++ tag) = some frames ∧
      protectHeader sealing (plainHeader first middle (pnField pn pnLen)) (middle.length + 1) pnLen
        (sealed ++ tag) =
        ok (protectedPacket mask first middle (pnField pn pnLen) (sealed ++ tag)) := by
  have hfield := pnField_length hpn pn
  obtain ⟨sealed, tag, hseal, htag, hopen⟩ := h.packet.round_trip pn
    (plainHeader first middle (pnField pn pnLen)) frames
  have hlen : (sealed ++ tag).length = frames.length + 16 := by
    rw [List.length_append, sealing.packet.encrypt_length hseal, htag]
  have hroom₁ : 20 ≤ (pnField pn pnLen).length + (sealed ++ tag).length := by omega
  have hprotect := protectHeader_eq h.header first middle (by omega) hroom₁
  rw [hfield] at hprotect
  exact ⟨sealed, tag, hseal, hlen, hopen, hprotect⟩

/-- The packet is the protected form of a header that announces its length, and the
payload opens to the frames under that header. -/
lemma encryptLong_eq (h : Paired sealing opening mask) (pnSpace : PacketNumberSpace)
    (version : UInt32) (dstCid srcCid frames : Bytes) (pn : Nat) {pnLen : Nat}
    {token : Option Bytes} (hpn : 1 ≤ pnLen ∧ pnLen ≤ 4)
    (htoken : (token.map List.length).getD 0 = 0) (hroom : 4 ≤ pnLen + frames.length)
    (hlength : pnLen + frames.length + 16 ≤ VarInt.varintMax) :
    ∃ payload,
      payload.length = frames.length + 16 ∧
      opening.packet.decryptInPlace pn (plainHeader (longFirst pnSpace pnLen)
        (longMiddle pnSpace version dstCid srcCid (pnLen + frames.length + 16))
        (pnField pn pnLen)) payload = some frames ∧
      encryptLong sealing pnSpace version dstCid srcCid frames pn pnLen token =
        ok (protectedPacket mask (longFirst pnSpace pnLen)
          (longMiddle pnSpace version dstCid srcCid (pnLen + frames.length + 16))
          (pnField pn pnLen) payload) := by
  have hheader := longHeader_eq pnSpace version dstCid srcCid pn hpn htoken hlength
  obtain ⟨sealed, tag, hseal, hlen, hopen, hprotect⟩ := sealed_protected h (longFirst pnSpace pnLen)
    (longMiddle pnSpace version dstCid srcCid (pnLen + frames.length + 16)) frames pn hpn hroom
  refine ⟨sealed ++ tag, hlen, hopen, ?_⟩
  simp only [encryptLong, h.packet.tag_len, hheader, hseal, hprotect, ok_bind, ofOption_some]

lemma encryptShort_eq (h : Paired sealing opening mask) (dstCid frames : Bytes) (pn : Nat)
    {pnLen : Nat} (hpn : 1 ≤ pnLen ∧ pnLen ≤ 4) (keyPhase : Bool)
    (hroom : 4 ≤ pnLen + frames.length) :
    ∃ payload,
      payload.length = frames.length + 16 ∧
      opening.packet.decryptInPlace pn (plainHeader (shortFirst pnLen keyPhase) dstCid
        (pnField pn pnLen)) payload = some frames ∧
      encryptShort sealing dstCid frames pn pnLen keyPhase =
        ok (protectedPacket mask (shortFirst pnLen keyPhase) dstCid (pnField pn pnLen)
          payload) := by
  obtain ⟨sealed, tag, hseal, hlen, hopen, hprotect⟩ :=
    sealed_protected h (shortFirst pnLen keyPhase) dstCid frames pn hpn hroom
  refine ⟨sealed ++ tag, hlen, hopen, ?_⟩
  rw [Nat.add_comm dstCid.length] at hprotect
  have hheader := shortHeader_eq dstCid pn hpn (shortFirst pnLen keyPhase)
  simp only [bind_eq_ok] at hheader
  obtain ⟨header₁, h₁, header₂, h₂, h₃⟩ := hheader
  unfold shortFirst at h₁ h₃ hseal hprotect ⊢
  simp only [encryptShort, h₁, h₂, h₃, hseal, hprotect, ok_bind, ofOption_some]

end

lemma padTo_length (n : Nat) (buf : Bytes) : (padTo n buf).length = max n buf.length := by
  simp only [padTo, List.length_append, List.length_replicate]
  omega

/-- However far a packet is padded, what is sealed is the frames and then zeros, enough of
them for a sample and never more than a full datagram takes. -/
lemma padded_frames (body : Bytes) (initial : Prop) [Decidable initial] (need : Nat) {pnLen : Nat}
    (hneed : need ≤ 1200) (hpn : 1 ≤ pnLen ∧ pnLen ≤ 4) :
    ∃ k plain, padTo (16 + 4 - pnLen) (if initial then padTo need body else body) = plain ∧
      plain = body ++ List.replicate k 0 ∧ 20 ≤ pnLen + plain.length ∧
      plain.length ≤ max body.length 1200 := by
  have hpad : ∀ n m, ∃ k, padTo m (padTo n body) = body ++ List.replicate k 0 := fun n m =>
    ⟨n - body.length + (m - (padTo n body).length), by
      simp [padTo, List.append_assoc, List.replicate_append_replicate]⟩
  split_ifs
  · obtain ⟨k, hk⟩ := hpad need (16 + 4 - pnLen)
    refine ⟨k, _, rfl, hk, ?_, ?_⟩ <;> simp only [padTo_length] <;> omega
  · refine ⟨16 + 4 - pnLen - body.length, _, rfl, rfl, ?_, ?_⟩ <;>
      simp only [padTo_length] <;> omega

section

variable {sealing opening : DirectionalKeys} {mask : Bytes → Bytes} {space : Space}

lemma encryptPacket_long (h : Paired sealing opening mask) (hkeys : space.localKeys = some sealing)
    (pnSpace : PacketNumberSpace) (version : UInt32) (dstCid srcCid : Bytes)
    {frames : List Frame} {pn pnLen : Nat} {isEstablished : Bool}
    (hlong : pnSpace ≠ .applicationData ∨ isEstablished = false) (hpn : 1 ≤ pnLen ∧ pnLen ≤ 4)
    (hframes : ∀ f ∈ frames, f.WellFormed)
    (hsize : (frames.flatMap Frame.wire).length < 2 ^ 61) :
    ∃ k payload lengthValue,
      lengthValue = pnLen + payload.length ∧ lengthValue ≤ VarInt.varintMax ∧
      20 ≤ pnLen + payload.length ∧
      opening.packet.decryptInPlace pn (plainHeader (longFirst pnSpace pnLen)
        (longMiddle pnSpace version dstCid srcCid lengthValue) (pnField pn pnLen)) payload =
        some (frames.flatMap Frame.wire ++ List.replicate k 0) ∧
      encryptPacket space pnSpace version dstCid srcCid frames pn pnLen isEstablished =
        ok (protectedPacket mask (longFirst pnSpace pnLen)
          (longMiddle pnSpace version dstCid srcCid lengthValue) (pnField pn pnLen) payload) := by
  have hwrite := writeFrames_eq hframes []
  rw [List.nil_append] at hwrite
  obtain ⟨k, plain, hplain, hzeros, hlow, hhigh⟩ := padded_frames (frames.flatMap Frame.wire)
    (pnSpace = .initial) (1200 - (hdrSizeLong dstCid.length srcCid.length 0
      ((frames.flatMap Frame.wire).length + pnLen + 16) + 16)) (by omega) hpn
  have hmax : pnLen + plain.length + 16 ≤ VarInt.varintMax := by
    unfold VarInt.varintMax
    omega
  have htoken : (((if pnSpace = .initial then some [] else none) : Option Bytes).map
      List.length).getD 0 = 0 := by
    split_ifs <;> rfl
  obtain ⟨payload, hlen, hopen, hseal⟩ := encryptLong_eq h pnSpace version dstCid srcCid
    plain pn hpn htoken (by omega) hmax
  refine ⟨k, payload, pnLen + plain.length + 16, by omega, hmax, by omega, ?_, ?_⟩
  · rw [hopen, hzeros]
  · simp only [encryptPacket, hkeys, hwrite, h.packet.tag_len, h.header.seal_sample, hlong, hplain,
      mapErr_ok, ok_bind, ofOption_some, if_true]
    exact hseal

lemma encryptPacket_short (h : Paired sealing opening mask)
    (hkeys : space.localKeys = some sealing) (version : UInt32) (dstCid srcCid : Bytes)
    {frames : List Frame} (pn : Nat) {pnLen : Nat} (hpn : 1 ≤ pnLen ∧ pnLen ≤ 4)
    (hframes : ∀ f ∈ frames, f.WellFormed) :
    ∃ k payload,
      20 ≤ pnLen + payload.length ∧
      opening.packet.decryptInPlace pn (plainHeader (shortFirst pnLen false) dstCid
        (pnField pn pnLen)) payload = some (frames.flatMap Frame.wire ++ List.replicate k 0) ∧
      encryptPacket space .applicationData version dstCid srcCid frames pn pnLen true =
        ok (protectedPacket mask (shortFirst pnLen false) dstCid (pnField pn pnLen)
          payload) := by
  have hwrite := writeFrames_eq hframes []
  rw [List.nil_append] at hwrite
  obtain ⟨k, plain, hplain, hzeros, hlow, hhigh⟩ := padded_frames (frames.flatMap Frame.wire)
    False 0 (by omega) hpn
  rw [if_neg not_false] at hplain
  obtain ⟨payload, hlen, hopen, hseal⟩ := encryptShort_eq h dstCid plain pn
    hpn false (by omega)
  refine ⟨k, payload, by omega, ?_, ?_⟩
  · rw [hopen, hzeros]
  · have hshort : ¬ (PacketNumberSpace.applicationData ≠ .applicationData ∨ true = false) := by
      simp
    have hspace : PacketNumberSpace.applicationData ≠ .initial := by simp
    simp only [encryptPacket, hkeys, hwrite, h.header.seal_sample, hshort, hspace, hplain,
      mapErr_ok, ok_bind, ofOption_some, if_false]
    exact hseal

end

lemma encode_safe (v : Nat) (buf : Bytes) :
    (VarInt.encode v buf).Safe fun out => out.2.length = buf.length := by
  by_cases hv : v ≤ VarInt.varintMax
  · by_cases hroom : VarInt.encodedLen v ≤ buf.length
    · rw [VarInt.encode_eq hv hroom]
      simp [Safe, hroom]
    · simp [VarInt.encode, Nat.not_lt.mpr hv, Nat.not_le.mp hroom, Safe]
  · simp [VarInt.encode, Nat.not_le.mp hv, Safe]

lemma encodeAt_safe {header : Bytes} {pos : Nat} (h : pos ≤ header.length) (v : Nat) :
    (encodeAt header pos v).Safe fun out => out.length = header.length := by
  refine (sliceFrom_safe h).bind fun tail htail => ?_
  refine ((encode_safe v tail).mapErr _).bind fun out hout => ?_
  simp only [Safe, List.length_append, List.length_take]
  omega

/-- Whatever the sizes, the fields lie inside the header that was allocated for them. -/
lemma longHeader_safe (pnSpace : PacketNumberSpace) (version : UInt32) (dstCid srcCid : Bytes)
    (pn : Nat) {pnLen : Nat} (hpn : 1 ≤ pnLen ∧ pnLen ≤ 4) (token : Option Bytes)
    (lengthValue : Nat) :
    (longHeader pnSpace version dstCid srcCid pn pnLen token lengthValue).Safe
      fun out => out.1.length = out.2 + pnLen := by
  have hfield := pnField_length hpn pn
  have hver : (BigEndian.encode 4 version.toNat).length = 4 := BigEndian.encode_length _ _
  have htoken := VarInt.encodedLen_pos ((token.map List.length).getD 0)
  unfold longHeader
  dsimp only
  generalize (token.map List.length).getD 0 = tokenLen at htoken ⊢
  generalize hoffset : 1 + 4 + 1 + dstCid.length + 1 + srcCid.length +
    (if pnSpace = .initial then VarInt.encodedLen tokenLen else 0) +
    VarInt.encodedLen lengthValue = pnOffset
  have hlow : 7 + dstCid.length + srcCid.length ≤ pnOffset := by omega
  refine (copyAt_safe (by simp; omega)).bind fun h₁ hlen₁ => ?_
  rw [List.length_replicate] at hlen₁
  refine (copyAt_safe (by rw [hver]; omega)).bind fun h₂ hlen₂ => ?_
  refine (copyAt_safe (by simp; omega)).bind fun h₃ hlen₃ => ?_
  refine (copyAt_safe (by omega)).bind fun h₄ hlen₄ => ?_
  refine (copyAt_safe (by simp; omega)).bind fun h₅ hlen₅ => ?_
  refine (copyAt_safe (by omega)).bind fun h₆ hlen₆ => ?_
  have hlengths : (if pnSpace = .initial then do
      let header ← encodeAt h₆ (6 + dstCid.length + 1 + srcCid.length) tokenLen
      encodeAt header (6 + dstCid.length + 1 + srcCid.length + VarInt.encodedLen tokenLen)
        lengthValue
    else encodeAt h₆ (6 + dstCid.length + 1 + srcCid.length) lengthValue :
      Outcome ConnectionError Bytes).Safe fun out => out.length = pnOffset + pnLen := by
    split_ifs with hspace
    · rw [if_pos hspace] at hoffset
      refine (encodeAt_safe (by omega) _).bind fun h₇ hlen₇ => ?_
      exact (encodeAt_safe (by omega) _).mono fun _ hout => by omega
    · exact (encodeAt_safe (by omega) _).mono fun _ hout => by omega
  refine hlengths.bind fun h₇ hlen₇ => ?_
  refine (copyAt_safe (by omega)).bind fun h₈ hlen₈ => ?_
  change h₈.length = pnOffset + pnLen
  omega

lemma protectHeader_safe (keys : DirectionalKeys) {header payload : Bytes} {pnOffset pnLen : Nat}
    (hpn : 1 ≤ pnLen ∧ pnLen ≤ 4) (hheader : header.length = pnOffset + pnLen)
    (hroom : keys.header.sampleLen + 4 ≤ pnLen + payload.length) :
    (protectHeader keys header pnOffset pnLen payload).Safe fun out => 1 ≤ out.length := by
  refine (slice_safe (by omega) (by omega)).bind fun sample _ => ?_
  refine (index_safe (by omega)).bind fun first _ => ?_
  refine (slice_safe (by omega) (by omega)).bind fun pnBytes hpnBytes => ?_
  refine (Safe.ofOption _ _).bind fun out hout => ?_
  obtain ⟨first', pnBytes'⟩ := out
  have hlen := keys.header.encrypt_length hout
  refine (copyAt_safe (by simp; omega)).bind fun h₁ hlen₁ => ?_
  refine (copyAt_safe (by omega)).bind fun h₂ hlen₂ => ?_
  simp only [Safe, List.length_append]
  omega

lemma encryptLong_safe (keys : DirectionalKeys) (pnSpace : PacketNumberSpace)
    (version : UInt32) (dstCid srcCid : Bytes) {frames : Bytes} (pn : Nat) {pnLen : Nat}
    (hpn : 1 ≤ pnLen ∧ pnLen ≤ 4) (token : Option Bytes)
    (hroom : keys.header.sampleLen + 4 ≤ pnLen + frames.length) :
    (encryptLong keys pnSpace version dstCid srcCid frames pn pnLen token).Safe
      fun out => 1 ≤ out.length := by
  refine (longHeader_safe pnSpace version dstCid srcCid pn hpn token _).bind fun out hout => ?_
  obtain ⟨header, pnOffset⟩ := out
  refine (Safe.ofOption _ _).bind fun out hseal => ?_
  obtain ⟨sealed, tag⟩ := out
  have hlen := keys.packet.encrypt_length hseal
  exact protectHeader_safe keys hpn hout (by simp; omega)

lemma encryptShort_safe (keys : DirectionalKeys) (dstCid : Bytes) {frames : Bytes} (pn : Nat)
    {pnLen : Nat} (hpn : 1 ≤ pnLen ∧ pnLen ≤ 4) (keyPhase : Bool)
    (hroom : keys.header.sampleLen + 4 ≤ pnLen + frames.length) :
    (encryptShort keys dstCid frames pn pnLen keyPhase).Safe fun out => 1 ≤ out.length := by
  have hfield := pnField_length hpn pn
  refine (copyAt_safe (by simp; omega)).bind fun h₁ hlen₁ => ?_
  rw [List.length_replicate] at hlen₁
  refine (copyAt_safe (by omega)).bind fun h₂ hlen₂ => ?_
  refine (copyAt_safe (by omega)).bind fun h₃ hlen₃ => ?_
  refine (Safe.ofOption _ _).bind fun out hseal => ?_
  obtain ⟨sealed, tag⟩ := out
  have hlen := keys.packet.encrypt_length hseal
  exact protectHeader_safe keys hpn (by omega) (by simp; omega)

lemma writeFrames_ne_panic {frames : List Frame}
    (h : ∀ f ∈ frames, Frame.Total (Frame.putFrame f)) (buf : Bytes) :
    writeFrames frames buf ≠ .panic := by
  induction frames generalizing buf with
  | nil => simp [writeFrames]
  | cons f fs ih =>
    have hf := h f List.mem_cons_self buf
    have hfs := ih fun g hg => h g (List.mem_cons_of_mem _ hg)
    rcases hout : Frame.putFrame f buf with ⟨_ | _ | _, written⟩
    · simpa [writeFrames, Frame.writeFrame, hout] using hfs written
    · simp [writeFrames, Frame.writeFrame, hout]
    · rw [hout] at hf
      exact absurd rfl hf

/-- With any keys, building a packet returns one or fails; a returned one is not empty. -/
theorem encryptPacket_safe (space : Space) (pnSpace : PacketNumberSpace) (version : UInt32)
    (dstCid srcCid : Bytes) {frames : List Frame} (pn : Nat) {pnLen : Nat}
    (isEstablished : Bool) (hpn : 1 ≤ pnLen ∧ pnLen ≤ 4)
    (h : ∀ f ∈ frames, Frame.Total (Frame.putFrame f)) :
    (encryptPacket space pnSpace version dstCid srcCid frames pn pnLen isEstablished).Safe
      fun out => 1 ≤ out.length := by
  refine (Safe.ofOption _ _).bind fun localKeys _ => ?_
  refine ((Safe.of_ne_panic (writeFrames_ne_panic h [])).mapErr _).bind fun body _ => ?_
  have hroom : ∀ buf, localKeys.header.sampleLen + 4 ≤
      pnLen + (padTo (localKeys.header.sampleLen + 4 - pnLen) buf).length := by
    intro buf
    rw [padTo_length]
    omega
  dsimp only
  split_ifs
  all_goals first
    | exact encryptLong_safe localKeys pnSpace version dstCid srcCid pn hpn _ (hroom _)
    | exact encryptShort_safe localKeys dstCid pn hpn false (hroom _)

end DeerQuic.Protection
