import DeerQuic.FrameGrammar
import DeerQuic.PacketNumber
import DeerQuic.Run

/-!
# Datagrams that panic

Header parsing checks every length before it slices. Of the two openers only the one for
long packets checks that the packet reaches to the end of the header protection sample, so
the datagrams that panic are short packets: those that end before their sample does, and
those whose packet number does not fit 64 bits.
-/

namespace DeerQuic

open Outcome Checked

namespace Packet

lemma ensure_safe (buf : Bytes) (need : Nat) :
    (ensure buf need).Safe fun _ => need ≤ buf.length :=
  Safe.require _ _

lemma newCid_safe (bytes : Bytes) : (newCid bytes).Safe fun cid => cid.bytes = bytes := by
  unfold newCid ConnectionId.new
  split_ifs
  · trivial
  · rfl

lemma readPn_safe {buf : Bytes} {len : Nat} (h : len ≤ buf.length) :
    (readPn buf len).Safe fun _ => True := by
  unfold readPn
  split
  all_goals first
    | exact (slice_safe (Nat.zero_le _) h).bind fun _ _ => trivial
    | trivial

lemma parseVersionNegotiation_safe (buf : Bytes) :
    (parseVersionNegotiation buf).Safe fun _ => True := by
  refine (ensure_safe buf 6).bind fun _ h6 => ?_
  refine (index_safe (by omega)).bind fun dstLenByte _ => ?_
  refine (Safe.require _ _).bind fun _ _ => ?_
  refine (ensure_safe buf _).bind fun _ hdst => ?_
  refine (slice_safe (by omega) (by omega)).bind fun dstBytes _ => ?_
  refine (newCid_safe dstBytes).bind fun dstCid _ => ?_
  refine (index_safe (by omega)).bind fun srcLenByte _ => ?_
  refine (ensure_safe buf _).bind fun _ hsrc => ?_
  refine (slice_safe (by omega) (by omega)).bind fun srcBytes _ => ?_
  exact (newCid_safe srcBytes).bind fun srcCid _ => trivial

lemma decode_safe (buf : Bytes) :
    ((VarInt.decode buf).mapErr PacketError.varInt).Safe fun out => out.2 ≤ buf.length := by
  refine Safe.mapErr ?_ _
  cases h : VarInt.decode buf with
  | ok out => exact (VarInt.decode_bounds h).2
  | err _ => trivial
  | panic => exact absurd h (VarInt.decode_ne_panic buf)

lemma parseToken_safe (ty : LongType) {buf : Bytes} {pos : Nat} (h : pos ≤ buf.length) :
    (parseToken ty buf pos).Safe fun out => out.2 ≤ buf.length := by
  unfold parseToken
  split_ifs
  · refine (sliceFrom_safe h).bind fun rest hrest => ?_
    refine (decode_safe rest).bind fun out hout => ?_
    refine (ensure_safe buf _).bind fun _ htoken => ?_
    exact (slice_safe (by omega) htoken).bind fun token _ => htoken
  · exact h

lemma parseLengthAndPn_safe (first : UInt8) (ty : LongType) (version : UInt32)
    (dstCid srcCid : ConnectionId) (token : Option Bytes) {buf : Bytes} {pos : Nat}
    (h : pos ≤ buf.length) :
    (parseLengthAndPn first ty version dstCid srcCid token buf pos).Safe fun _ => True := by
  unfold parseLengthAndPn
  split_ifs
  · trivial
  · refine (sliceFrom_safe h).bind fun rest hrest => ?_
    refine (decode_safe rest).bind fun out hout => ?_
    refine (ensure_safe buf _).bind fun _ hpn => ?_
    refine (sliceFrom_safe (by omega)).bind fun field hfield => ?_
    exact (readPn_safe (by omega)).bind fun _ _ => trivial

lemma parseTyped_safe (buf : Bytes) (first : UInt8) (version : UInt32) :
    (parseTyped buf first version).Safe fun _ => True := by
  refine (Safe.ofOption _ _).bind fun ty _ => ?_
  refine (Safe.require _ _).bind fun _ _ => ?_
  refine (ensure_safe buf 6).bind fun _ h6 => ?_
  refine (index_safe (by omega)).bind fun dstLenByte _ => ?_
  refine (Safe.require _ _).bind fun _ _ => ?_
  refine (ensure_safe buf _).bind fun _ hdst => ?_
  refine (slice_safe (by omega) (by omega)).bind fun dstBytes _ => ?_
  refine (newCid_safe dstBytes).bind fun dstCid _ => ?_
  refine (index_safe (by omega)).bind fun srcLenByte _ => ?_
  refine (Safe.require _ _).bind fun _ _ => ?_
  refine (ensure_safe buf _).bind fun _ hsrc => ?_
  refine (slice_safe (by omega) (by omega)).bind fun srcBytes _ => ?_
  refine (newCid_safe srcBytes).bind fun srcCid _ => ?_
  refine (parseToken_safe ty hsrc).bind fun token htoken => ?_
  exact parseLengthAndPn_safe first ty version dstCid srcCid token.1 htoken

theorem parseLongHeader_safe (buf : Bytes) : (parseLongHeader buf).Safe fun _ => True := by
  refine (ensure_safe buf 1).bind fun _ h1 => ?_
  refine (index_safe (by omega)).bind fun first _ => ?_
  refine (Safe.require _ _).bind fun _ _ => ?_
  refine (ensure_safe buf 5).bind fun _ h5 => ?_
  refine (slice_safe (by omega) h5).bind fun versionBytes _ => ?_
  dsimp only
  split_ifs
  · exact parseVersionNegotiation_safe buf
  · exact parseTyped_safe buf first _

theorem parseShortHeader_safe (buf : Bytes) (dstCidLen : Nat) :
    (parseShortHeader buf dstCidLen).Safe fun out =>
      out.1.dstCid.bytes.length = dstCidLen ∧ 1 + dstCidLen ≤ buf.length := by
  refine (ensure_safe buf 1).bind fun _ h1 => ?_
  refine (index_safe (by omega)).bind fun first _ => ?_
  refine (Safe.require _ _).bind fun _ _ => ?_
  refine (Safe.require _ _).bind fun _ _ => ?_
  refine (Safe.require _ _).bind fun _ _ => ?_
  refine (Safe.require _ _).bind fun _ _ => ?_
  refine (ensure_safe buf _).bind fun _ hdst => ?_
  refine (slice_safe (by omega) hdst).bind fun dstBytes hbytes => ?_
  refine (newCid_safe dstBytes).bind fun dstCid hcid => ?_
  refine (ensure_safe buf _).bind fun _ hpn => ?_
  refine (sliceFrom_safe hdst).bind fun field hfield => ?_
  refine (readPn_safe (by omega)).bind fun truncatedPn _ => ?_
  exact ⟨by rw [hcid, hbytes]; omega, hdst⟩

end Packet

namespace Protection

/-- The first byte and the packet number field with header protection removed. -/
def unmasked (remote : DirectionalKeys) (packet : Bytes) (pnOffset : Nat) : Option (UInt8 × Bytes) :=
  remote.header.decryptInPlace ((packet.drop (pnOffset + 4)).take remote.header.sampleLen)
    (packet.headD 0) ((packet.drop pnOffset).take 4)

/-- What `aeadInput` does behind the removal of header protection. -/
def recovered (pnLenOf : UInt8 → Nat) (largestKnown : Nat) (packet : Bytes) (pnOffset : Nat) :
    UInt8 × Bytes → Outcome ConnectionError (Nat × Bytes × Bytes)
  | (first, pnBytes) => do
    let pnBytes ← slice pnBytes 0 (pnLenOf first)
    let fullPn ← Packet.decodePacketNumber largestKnown (readPn pnBytes) (pnLenOf first)
    let aad ← slice packet 0 (pnOffset + pnLenOf first)
    let aad ← copyAt aad 0 [first]
    let aad ← copyAt aad pnOffset pnBytes
    let encrypted ← sliceFrom packet (pnOffset + pnLenOf first)
    ok (fullPn, aad, encrypted)

/-- The sample and the field of a packet that reaches to the end of its sample are there. -/
lemma aeadInput_eq_recovered (pnLenOf : UInt8 → Nat) (largestKnown : Nat)
    {remote : DirectionalKeys} {packet : Bytes} {pnOffset : Nat}
    (hsample : pnOffset + 4 + remote.header.sampleLen ≤ packet.length) :
    aeadInput pnLenOf largestKnown remote packet pnOffset =
      ofOption .protocolViolation (unmasked remote packet pnOffset) >>=
        recovered pnLenOf largestKnown packet pnOffset := by
  have hslice : (slice packet (pnOffset + 4) (pnOffset + 4 + remote.header.sampleLen) :
      Outcome ConnectionError Bytes) =
      ok ((packet.drop (pnOffset + 4)).take remote.header.sampleLen) :=
    slice_eq_ok.mpr ⟨by omega, by rw [Nat.add_sub_cancel_left]⟩
  have hindex : (index packet 0 : Outcome ConnectionError UInt8) = ok (packet.headD 0) := by
    cases packet with
    | nil => simp at hsample
    | cons b bs => rfl
  have hfield : (slice packet pnOffset (min (pnOffset + 4) packet.length) :
      Outcome ConnectionError Bytes) = ok ((packet.drop pnOffset).take 4) :=
    slice_eq_ok.mpr ⟨by omega, by rw [Nat.min_eq_left (by omega), Nat.add_sub_cancel_left]⟩
  have hpadded : padTo 4 ((packet.drop pnOffset).take 4) = (packet.drop pnOffset).take 4 := by
    have hfour : ((packet.drop pnOffset).take 4).length = 4 := by
      rw [List.length_take, List.length_drop]
      omega
    rw [padTo, hfour, Nat.sub_self, List.replicate_zero, List.append_nil]
  unfold aeadInput
  dsimp only
  rw [hslice, ok_bind, hfield, hindex, ok_bind, ok_bind, hpadded]
  rfl

lemma recovered_eq_panic {pnLenOf : UInt8 → Nat} (hlen : ∀ b, 1 ≤ pnLenOf b ∧ pnLenOf b ≤ 4)
    (largestKnown : Nat) {packet : Bytes} {pnOffset : Nat} (hroom : pnOffset + 4 ≤ packet.length)
    {first : UInt8} {pnBytes : Bytes} (hbytes : pnBytes.length = 4) :
    recovered pnLenOf largestKnown packet pnOffset (first, pnBytes) = .panic ↔
      Overflows largestKnown (readPn (pnBytes.take (pnLenOf first))) (pnLenOf first) := by
  have hpnLen := hlen first
  have hpn : (slice pnBytes 0 (pnLenOf first) : Outcome ConnectionError Bytes) =
      ok (pnBytes.take (pnLenOf first)) := slice_eq_ok.mpr ⟨by omega, by simp⟩
  have htaken : (pnBytes.take (pnLenOf first)).length = pnLenOf first := by
    rw [List.length_take]
    omega
  have hlow : readPn (pnBytes.take (pnLenOf first)) < 256 ^ pnLenOf first :=
    (readPn_lt (by omega)).trans_eq (congrArg _ htaken)
  have hpanic := decodePacketNumber_eq_panic (ε := ConnectionError) largestKnown hpnLen hlow
  rw [recovered, hpn, ok_bind, bind_eq_panic, hpanic]
  apply or_iff_left
  -- Behind the packet number everything is in bounds.
  rintro ⟨fullPn, _, hrun⟩
  refine absurd hrun (Safe.ne_panic (Q := fun _ => True) ?_)
  refine (slice_safe (by omega) (by omega)).bind fun aad haad => ?_
  refine (copyAt_safe (by simp; omega)).bind fun aad₁ haad₁ => ?_
  refine (copyAt_safe (by omega)).bind fun aad₂ _ => ?_
  exact (sliceFrom_safe (by omega)).bind fun _ _ => trivial

/-- A packet that reaches to the end of its sample panics only through its number. -/
lemma aeadInput_eq_panic {pnLenOf : UInt8 → Nat} (hlen : ∀ b, 1 ≤ pnLenOf b ∧ pnLenOf b ≤ 4)
    (largestKnown : Nat) {remote : DirectionalKeys} {packet : Bytes} {pnOffset : Nat}
    (hsample : pnOffset + 4 + remote.header.sampleLen ≤ packet.length) :
    aeadInput pnLenOf largestKnown remote packet pnOffset = .panic ↔
      ∃ first pnBytes, unmasked remote packet pnOffset = some (first, pnBytes) ∧
        Overflows largestKnown (readPn (pnBytes.take (pnLenOf first))) (pnLenOf first) := by
  rw [aeadInput_eq_recovered pnLenOf largestKnown hsample]
  cases hmask : unmasked remote packet pnOffset with
  | none => simp
  | some out =>
    obtain ⟨first, pnBytes⟩ := out
    have hbytes : pnBytes.length = 4 := by
      rw [remote.header.decrypt_length hmask, List.length_take, List.length_drop]
      omega
    rw [ofOption_some, ok_bind, recovered_eq_panic hlen largestKnown (by omega) hbytes]
    constructor
    · intro hover
      exact ⟨first, pnBytes, rfl, hover⟩
    · rintro ⟨_, _, hsame, hover⟩
      obtain ⟨rfl, rfl⟩ := Prod.mk.inj (Option.some.inj hsame)
      exact hover

/-- What is decrypted is the end of the packet. -/
lemma aeadInput_encrypted {pnLenOf : UInt8 → Nat} {largestKnown : Nat} {remote : DirectionalKeys}
    {packet : Bytes} {pnOffset : Nat} {input : Nat × Bytes × Bytes}
    (h : aeadInput pnLenOf largestKnown remote packet pnOffset = ok input) :
    ∃ lo, input.2.2 = packet.drop lo := by
  simp only [aeadInput, bind_eq_ok] at h
  obtain ⟨_, _, _, _, _, _, ⟨first, _⟩, _, _, _, _, _, _, _, _, _, _, _, encrypted, hslice, h⟩ := h
  rw [← ok.inj h]
  exact ⟨_, (sliceFrom_eq_ok.mp hslice).2⟩

/-- The frame parser does not panic anywhere in what the key opens out of the packet. -/
def FramesParse (remote : DirectionalKeys) (packet : Bytes) : Prop :=
  ∀ pn aad lo plaintext, remote.packet.decryptInPlace pn aad (packet.drop lo) = some plaintext →
    ∀ k, Frame.parseFrame (plaintext.drop k) ≠ .panic

lemma parseFramesFuel_ne_panic {plaintext : Bytes} {fuel : Nat} (hfuel : plaintext.length ≤ fuel)
    (h : ∀ k, Frame.parseFrame (plaintext.drop k) ≠ .panic) :
    parseFramesFuel fuel plaintext ≠ .panic := by
  induction fuel generalizing plaintext with
  | zero =>
    rw [List.length_eq_zero_iff.mp (Nat.le_zero.mp hfuel)]
    simp [parseFramesFuel]
  | succ fuel ih =>
    cases plaintext with
    | nil => simp [parseFramesFuel]
    | cons b bs =>
      unfold parseFramesFuel
      cases hparse : Frame.parseFrame (b :: bs) with
      | panic => exact absurd hparse (h 0)
      | err _ => simp
      | ok out =>
        obtain ⟨frame, consumed⟩ := out
        have hcons := Frame.parseFrame_consumes hparse
        have hrest : (sliceFrom (b :: bs) consumed : Outcome FrameError Bytes) =
            ok ((b :: bs).drop consumed) := if_pos hcons.2
        have hlen : ((b :: bs).drop consumed).length ≤ fuel := by
          rw [List.length_drop]
          omega
        have hnext := ih hlen fun k => by
          rw [List.drop_drop]
          exact h (consumed + k)
        rw [ok_bind]
        dsimp only
        rw [hrest, ok_bind, ne_eq, bind_eq_panic]
        simpa using hnext

lemma openPayload_ne_panic {remote : DirectionalKeys} {packet : Bytes} (h : FramesParse remote packet)
    {input : Nat × Bytes × Bytes} (hinput : ∃ lo, input.2.2 = packet.drop lo) :
    openPayload remote input ≠ .panic := by
  obtain ⟨fullPn, aad, encrypted⟩ := input
  obtain ⟨lo, rfl⟩ := hinput
  unfold openPayload
  dsimp only
  cases hopen : remote.packet.decryptInPlace fullPn aad (packet.drop lo) with
  | none => simp
  | some plaintext =>
    have hframes := parseFramesFuel_ne_panic (Nat.le_refl _) (h fullPn aad lo plaintext hopen)
    rw [ofOption_some, ok_bind]
    refine Safe.ne_panic (Q := fun _ => True) ?_
    exact (Safe.mapErr (Safe.of_ne_panic hframes) _).bind fun _ _ => trivial

lemma longPnLen_bounds (b : UInt8) : 1 ≤ longPnLen b ∧ longPnLen b ≤ 4 := by
  have hlow : (b &&& 0x03).toNat ≤ 3 := by
    rw [UInt8.toNat_and]
    exact Nat.and_le_right
  unfold longPnLen
  omega

lemma shortPnLen_bounds (b : UInt8) : 1 ≤ shortPnLen b ∧ shortPnLen b ≤ 4 := by
  have hlow : (b &&& 0x03).toNat ≤ 3 := by
    rw [UInt8.toNat_and]
    exact Nat.and_le_right
  cases hn : (b &&& 0x03).toNat with
  | zero => simp [shortPnLen, hn]
  | succ n =>
    simp only [shortPnLen, hn]
    omega

/-- The length check and the fixed 0 for the largest known number make long packets safe. -/
theorem decryptAndParseLong_ne_panic {space : Space} {packet : Bytes} (pnOffset : Nat)
    (hframes : ∀ remote, space.remoteKeys = some remote → FramesParse remote packet) :
    decryptAndParseLong space packet pnOffset ≠ .panic := by
  refine Safe.ne_panic (Q := fun _ => True) ?_
  refine (Safe.ofOption _ _).bind fun remote hremote => ?_
  refine (Safe.require _ _).bind fun _ hlen => ?_
  have hinput : aeadInput longPnLen 0 remote packet pnOffset ≠ .panic := by
    rw [ne_eq, aeadInput_eq_panic longPnLen_bounds 0 hlen]
    rintro ⟨first, pnBytes, _, hover⟩
    exact not_overflows (by decide) (longPnLen_bounds first).2 hover
  cases hout : aeadInput longPnLen 0 remote packet pnOffset with
  | panic => exact absurd hout hinput
  | err _ => trivial
  | ok input =>
    exact Safe.of_ne_panic (openPayload_ne_panic (hframes remote hremote) (aeadInput_encrypted hout))

/-- A short packet reaches to the end of its sample, and its number fits 64 bits. Nothing
checks either. -/
def Covered (remote : DirectionalKeys) (largestKnown : Nat) (packet : Bytes) (pnOffset : Nat) :
    Prop :=
  pnOffset + 4 + remote.header.sampleLen ≤ packet.length ∧
    ∀ first pnBytes, unmasked remote packet pnOffset = some (first, pnBytes) →
      ¬ Overflows largestKnown (readPn (pnBytes.take (shortPnLen first))) (shortPnLen first)

theorem decryptAndParse_ne_panic_iff {space : Space} {packet : Bytes} (pnOffset : Nat)
    (hframes : ∀ remote, space.remoteKeys = some remote → FramesParse remote packet) :
    decryptAndParse space packet pnOffset ≠ .panic ↔
      ∀ remote, space.remoteKeys = some remote →
        Covered remote space.largestRecvPn packet pnOffset := by
  unfold decryptAndParse
  cases hremote : space.remoteKeys with
  | none => simp
  | some remote =>
    have hpayload : ∀ input, aeadInput shortPnLen space.largestRecvPn remote packet pnOffset =
        ok input → openPayload remote input ≠ .panic := fun input hinput =>
      openPayload_ne_panic (hframes remote hremote) (aeadInput_encrypted hinput)
    rw [ofOption_some, ok_bind, ne_eq, bind_eq_panic]
    have hiff : aeadInput shortPnLen space.largestRecvPn remote packet pnOffset ≠ .panic ↔
        Covered remote space.largestRecvPn packet pnOffset := by
      by_cases hlen : pnOffset + 4 + remote.header.sampleLen ≤ packet.length
      · rw [ne_eq, aeadInput_eq_panic shortPnLen_bounds _ hlen]
        simp only [Covered, hlen, true_and, not_exists, not_and]
      · have hslice : (slice packet (pnOffset + 4) (pnOffset + 4 + remote.header.sampleLen) :
            Outcome ConnectionError Bytes) = .panic := slice_eq_panic.mpr (by omega)
        have hpanic : aeadInput shortPnLen space.largestRecvPn remote packet pnOffset = .panic := by
          unfold aeadInput
          dsimp only
          rw [hslice, panic_bind]
        exact ⟨fun h => absurd hpanic h, fun h => absurd h.1 hlen⟩
    constructor
    · rintro hne remote' hsame
      obtain rfl := Option.some.inj hsame
      exact hiff.mp fun hp => hne (.inl hp)
    · rintro hcov (hp | ⟨input, hinput, hp⟩)
      · exact hiff.mpr (hcov remote rfl) hp
      · exact hpayload input hinput hp

end Protection

namespace Connection

open Protection Transition

variable {σ : Type} (R : Rustls σ)

/-- A datagram that parses as a short packet, while there are keys for it, is covered. -/
def ShortCovered (c : Connection σ) (buf : Bytes) : Prop :=
  c.state ≠ .closed → ∀ hdr n, Packet.parseShortHeader buf c.dstCid.length = ok (hdr, n) →
    ∀ remote, (c.spaces .applicationData).remoteKeys = some remote →
      Covered remote (c.spaces .applicationData).largestRecvPn buf (1 + c.dstCid.length)

lemma processFrame_ne_panic (id : PacketNumberSpace) (c : Connection σ) (frame : Frame) :
    (c.processFrame R id frame).1 ≠ .panic := by
  cases frame with
  | crypto offset data =>
    unfold processFrame
    dsimp only
    split_ifs
    · rcases feedCrypto_cases R c (level_lt id) data with ⟨e, _, hfeed⟩ | ⟨_, c', hfeed, _⟩ <;>
        rw [hfeed] <;> simp
    · simp
  | handshakeDone =>
    unfold processFrame
    dsimp only
    split_ifs <;> simp
  | _ => simp [processFrame]

lemma processFrames_ne_panic (id : PacketNumberSpace) (frames : List Frame) (c : Connection σ) :
    (processFrames R id frames c).1 ≠ .panic := by
  induction frames generalizing c with
  | nil => simp [processFrames]
  | cons frame frames ih =>
    have hframe := processFrame_ne_panic R id c frame
    unfold processFrames
    rcases hout : c.processFrame R id frame with ⟨_ | _ | _, c'⟩
    · exact ih _
    · simp
    · rw [hout] at hframe
      exact absurd rfl hframe

/-- Frames are processed without panics, so a datagram panics where it is opened. -/
lemma ingest_eq_panic (c : Connection σ) (buf : Bytes) :
    (c.ingest R buf).1 = .panic ↔ c.state ≠ .closed ∧ buf ≠ [] ∧ c.openPacket buf = .panic := by
  unfold ingest
  split_ifs with hclosed hempty
  · simp [hclosed]
  · have hnil : buf = [] := by simpa using hempty
    simp [hnil]
  · have hbuf : buf ≠ [] := by simpa using hempty
    cases hopen : c.openPacket buf with
    | err _ => simp
    | panic => simp [hclosed, hbuf]
    | ok opened =>
      obtain ⟨id, pn, frames⟩ := opened
      have hframes := processFrames_ne_panic R id frames (c.recordRecvPn id pn)
      rcases hout : processFrames R id frames (c.recordRecvPn id pn) with ⟨_ | _ | _, c'⟩
      · simp [hout]
      · simp [hout]
      · rw [hout] at hframes
        exact absurd rfl hframes

/-- Every long packet is opened or refused; `unreachable!` is not reached either. -/
lemma openPacket_long_ne_panic {c : Connection σ} {buf : Bytes}
    (hframes : ∀ id remote, (c.spaces id).remoteKeys = some remote → FramesParse remote buf)
    {first : UInt8} (hfirst : (index buf 0 : Outcome ConnectionError UInt8) = ok first)
    (hform : first &&& 0x80 ≠ 0) : c.openPacket buf ≠ .panic := by
  unfold openPacket
  rw [hfirst, ok_bind, if_neg hform]
  refine Safe.ne_panic (Q := fun _ => True) ?_
  refine ((Packet.parseLongHeader_safe buf).mapErr _).bind fun out _ => ?_
  obtain ⟨hdr, n⟩ := out
  dsimp only
  have hlong : ∀ id, (decryptAndParseLong (c.spaces id) buf (hdrPnOffsetLong hdr)).Safe
      fun _ => True := fun id =>
    Safe.of_ne_panic (decryptAndParseLong_ne_panic _ (hframes id))
  cases hdr.ty with
  | initial => exact (hlong .initial).bind fun _ _ => trivial
  | handshake => exact (hlong .handshake).bind fun _ _ => trivial
  | zeroRtt => exact (hlong .applicationData).bind fun _ _ => trivial
  | retry | versionNegotiation => trivial

lemma openPacket_short_ne_panic_iff {c : Connection σ} {buf : Bytes}
    (hframes : ∀ id remote, (c.spaces id).remoteKeys = some remote → FramesParse remote buf)
    {first : UInt8} (hfirst : (index buf 0 : Outcome ConnectionError UInt8) = ok first)
    (hform : first &&& 0x80 = 0) :
    c.openPacket buf ≠ .panic ↔
      ∀ hdr n, Packet.parseShortHeader buf c.dstCid.length = ok (hdr, n) →
        ∀ remote, (c.spaces .applicationData).remoteKeys = some remote →
          Covered remote (c.spaces .applicationData).largestRecvPn buf (1 + c.dstCid.length) := by
  have hsafe := Packet.parseShortHeader_safe buf c.dstCid.length
  unfold openPacket
  rw [hfirst, ok_bind, if_pos hform]
  cases hparse : Packet.parseShortHeader buf c.dstCid.length with
  | err _ => simp
  | panic => exact absurd hparse hsafe.ne_panic
  | ok out =>
    obtain ⟨hdr, n⟩ := out
    have hcid : hdr.dstCid.bytes.length = c.dstCid.length := (hsafe.of_ok hparse).1
    have hoffset : hdrPnOffsetShort hdr = 1 + c.dstCid.length := by
      rw [hdrPnOffsetShort, hcid]
    have hopen := decryptAndParse_ne_panic_iff (hdrPnOffsetShort hdr)
      (hframes .applicationData)
    have hbind : ∀ x : Outcome ConnectionError (Nat × List Frame),
        (x >>= fun out => ok (PacketNumberSpace.applicationData, out.1, out.2)) ≠ .panic ↔
          x ≠ .panic := by
      intro x
      cases x <;> simp
    rw [mapErr_ok, ok_bind]
    dsimp only
    rw [hbind, hopen, hoffset]
    refine ⟨fun h _ _ _ => h, fun h => h hdr n rfl⟩

/-- A datagram returns exactly when it is no short packet, or one that reaches to the end of
its sample with a number that fits. -/
theorem ingest_returns_iff (c : Connection σ) (buf : Bytes)
    (hframes : ∀ id remote, (c.spaces id).remoteKeys = some remote → FramesParse remote buf) :
    (c.ingest R buf).1 ≠ .panic ↔ ShortCovered c buf := by
  rw [ne_eq, ingest_eq_panic]
  cases buf with
  | nil =>
    refine ⟨fun _ _ hdr n hparse => ?_, fun _ h => h.2.1 rfl⟩
    cases hparse
  | cons b bs =>
    have hfirst : (index (b :: bs) 0 : Outcome ConnectionError UInt8) = ok b := rfl
    have hopen : ¬ (c.state ≠ .closed ∧ b :: bs ≠ [] ∧ c.openPacket (b :: bs) = .panic) ↔
        (c.state ≠ .closed → c.openPacket (b :: bs) ≠ .panic) := by
      simp
    rw [hopen]
    refine imp_congr_right fun _ => ?_
    by_cases hform : b &&& 0x80 = 0
    · exact openPacket_short_ne_panic_iff hframes hfirst hform
    · refine ⟨fun _ hdr n hparse => ?_, fun _ => openPacket_long_ne_panic hframes hfirst hform⟩
      have hrefused : Packet.parseShortHeader (b :: bs) c.dstCid.length =
          err (.invalidHeaderForm 0 1) := by
        simp [Packet.parseShortHeader, Packet.ensure, index, hform]
      rw [hrefused] at hparse
      cases hparse

lemma plainServer_remoteKeys {id : PacketNumberSpace} {remote : DirectionalKeys}
    (h : ((plainServer serverFlights).spaces id).remoteKeys = some remote) :
    remote = nullDirection plainMask := by
  have hkeys : ((plainServer serverFlights).spaces id).remoteKeys =
      some (nullDirection plainMask) := by
    cases id <;> rfl
  rw [hkeys] at h
  exact (Option.some.inj h).symm

/-- The transparent cipher opens nothing that does not end in a tag of zeros. -/
lemma framesParse_replicate (n : Nat) :
    FramesParse (nullDirection plainMask) (List.replicate n 0x41) := by
  intro pn aad lo plaintext hopen
  have htag : ∀ m, List.replicate m (0x41 : UInt8) ≠ List.replicate 16 0 := by
    intro m hm
    have hlen := congrArg List.length hm
    simp only [List.length_replicate] at hlen
    subst hlen
    revert hm
    decide
  rw [List.drop_replicate] at hopen
  simp only [nullDirection, nullPacket, List.drop_replicate, htag, if_false] at hopen
  cases hopen

/-- A short packet just long enough for its sample. -/
theorem ingest_returns_iff_short :
    ((plainServer serverFlights).ingest (scripted serverFlights) (List.replicate 22 0x41)).1 ≠
      .panic := by
  refine (ingest_returns_iff (scripted serverFlights) (plainServer serverFlights)
    (List.replicate 22 0x41) fun id remote hremote => ?_).mpr ?_
  · rw [plainServer_remoteKeys hremote]
    exact framesParse_replicate 22
  · rintro _ hdr n _ remote hremote
    rw [plainServer_remoteKeys hremote]
    refine ⟨by decide +kernel, ?_⟩
    exact fun first _ _ => not_overflows (by decide +kernel) (shortPnLen_bounds first).2

/-- Three bytes, of which the header takes all, bring a server down. -/
theorem ingest_short_packet_panics :
    Started (scripted serverFlights) (plainServer serverFlights) ∧
      (∀ id remote, ((plainServer serverFlights).spaces id).remoteKeys = some remote →
        remote.header.sampleLen = 16 ∧ FramesParse remote (List.replicate 3 0x41)) ∧
      ((plainServer serverFlights).ingest (scripted serverFlights) (List.replicate 3 0x41)).1 =
        .panic := by
  refine ⟨plainServer_started (by decide +kernel), fun id remote hremote => ?_, by decide +kernel⟩
  rw [plainServer_remoteKeys hremote]
  exact ⟨rfl, framesParse_replicate 3⟩

end Connection
end DeerQuic
