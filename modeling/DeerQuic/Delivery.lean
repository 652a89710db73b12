import DeerQuic.Coalescing
import DeerQuic.Egest

/-!
# What leaves one side and what the other side makes of it

A packet that leaves is made of frames the writer could encode. With paired keys the peer opens it
to these frames and padding, in every state in which it can tell the packet number; a packet with a
short header may be refused for the bits that the mask happens to set.
-/

namespace DeerQuic

open Outcome Checked Protection

namespace Frame

/-- A frame that was written holds no number that a varint cannot hold. -/
lemma fits_of_writeFrame {f : Frame} (hfirst : f.HasFirstRange) {buf buf' : Bytes} {n : Nat}
    (h : writeFrame f buf = (ok n, buf')) : ∀ x ∈ f.fields, x.Fits := by
  rcases fits_or_first f.fields with hfits | ⟨before, v, after, hsplit, hbefore, hv⟩
  · exact hfits
  · rw [writeFrame_refused hfirst hsplit hbefore hv] at h
    cases h

end Frame

namespace Protection

lemma fits_of_writeFrames {frames : List Frame} (hfirst : ∀ f ∈ frames, f.HasFirstRange)
    {buf out : Bytes} (h : writeFrames frames buf = ok out) :
    ∀ f ∈ frames, ∀ x ∈ f.fields, x.Fits := by
  induction frames generalizing buf with
  | nil => simp
  | cons f fs ih =>
    rw [writeFrames] at h
    rcases hwrite : Frame.writeFrame f buf with ⟨_ | _ | _, buf'⟩
    · rw [hwrite] at h
      intro g hg
      rcases List.mem_cons.mp hg with rfl | hg
      · exact Frame.fits_of_writeFrame (hfirst g List.mem_cons_self) hwrite
      · exact ih (fun g hg => hfirst g (List.mem_cons_of_mem _ hg)) h g hg
    · rw [hwrite] at h
      cases h
    · rw [hwrite] at h
      cases h

/-- Nothing of the body is left out of the packet. -/
lemma length_protectHeader {keys : DirectionalKeys} {header payload packet : Bytes}
    {pnOffset pnLen : Nat} (h : protectHeader keys header pnOffset pnLen payload = ok packet) :
    payload.length ≤ packet.length := by
  simp only [protectHeader, bind_eq_ok, ok.injEq] at h
  obtain ⟨_, _, _, _, _, _, _, _, header', _, header'', _, rfl⟩ := h
  simp

lemma length_encryptLong {keys : DirectionalKeys} {id : PacketNumberSpace} {version : UInt32}
    {dstCid srcCid body packet : Bytes} {pn pnLen : Nat} {token : Option Bytes}
    (h : encryptLong keys id version dstCid srcCid body pn pnLen token = ok packet) :
    body.length ≤ packet.length := by
  simp only [encryptLong, bind_eq_ok, ofOption_eq_ok] at h
  obtain ⟨_, _, ⟨sealed, tag⟩, hseal, hprotect⟩ := h
  have hsealed := keys.packet.encrypt_length hseal
  have hpayload := length_protectHeader hprotect
  rw [List.length_append] at hpayload
  dsimp only at hpayload
  omega

lemma length_encryptShort {keys : DirectionalKeys} {dstCid body packet : Bytes} {pn pnLen : Nat}
    {keyPhase : Bool} (h : encryptShort keys dstCid body pn pnLen keyPhase = ok packet) :
    body.length ≤ packet.length := by
  simp only [encryptShort, bind_eq_ok, ofOption_eq_ok] at h
  obtain ⟨_, _, _, _, _, _, ⟨sealed, tag⟩, hseal, hprotect⟩ := h
  have hsealed := keys.packet.encrypt_length hseal
  have hpayload := length_protectHeader hprotect
  rw [List.length_append] at hpayload
  dsimp only at hpayload
  omega

lemma length_padTo (n : Nat) (buf : Bytes) : buf.length ≤ (padTo n buf).length := by
  rw [padTo_length]
  exact Nat.le_max_right _ _

/-- Frames that went into a packet could be written, and are not longer than the packet. -/
lemma length_encryptPacket {space : Space} {id : PacketNumberSpace} {version : UInt32}
    {dstCid srcCid packet : Bytes} {frames : List Frame} {pn pnLen : Nat} {isEstablished : Bool}
    (h : encryptPacket space id version dstCid srcCid frames pn pnLen isEstablished = ok packet) :
    ∃ body, writeFrames frames [] = ok body ∧ body.length ≤ packet.length := by
  simp only [encryptPacket, bind_eq_ok, mapErr_eq_ok] at h
  obtain ⟨keys, -, body, hwrite, h⟩ := h
  refine ⟨body, hwrite, ?_⟩
  split_ifs at h
  · exact ((length_padTo _ body).trans (length_padTo _ _)).trans (length_encryptLong h)
  · exact (length_padTo _ body).trans (length_encryptLong h)
  · exact ((length_padTo _ body).trans (length_padTo _ _)).trans (length_encryptShort h)
  · exact (length_padTo _ body).trans (length_encryptShort h)

end Protection

namespace Connection

variable {σ τ : Type}

lemma firstRange_framesOf {c : Connection σ} {id : PacketNumberSpace} {f : Frame}
    (h : f ∈ c.framesOf id) : f.HasFirstRange := by
  rcases mem_framesOf.mp h with ⟨_, rfl⟩ | ⟨_, rfl⟩ | ⟨_, rfl⟩ | ⟨_, rfl⟩
  · trivial
  · exact List.cons_ne_nil _ _
  · trivial
  · trivial

/-- The frames of a packet that was made are frames the codec is made for. -/
lemma egestFrame_framesOf {c : Connection σ} {id : PacketNumberSpace} {packet : Bytes}
    (h : c.packetOf id = ok packet) : ∀ f ∈ c.framesOf id, EgestFrame f := by
  obtain ⟨body, hwrite, -⟩ := length_encryptPacket h
  have hfits := fits_of_writeFrames (fun f hf => firstRange_framesOf hf) hwrite
  intro f hf
  have hfit := hfits f hf
  rcases mem_framesOf.mp hf with ⟨_, rfl⟩ | ⟨_, rfl⟩ | ⟨_, rfl⟩ | ⟨hstreams, rfl⟩
  · have hlen := hfit (.varint (c.pendingCrypto (pnSpaceToLevel id)).length)
      (by simp [Frame.fields, Frame.bytesFields])
    exact .crypto (Nat.zero_le _) hlen
  · have hlargest := hfit (.varint ((c.spaces id).pendingAcks.max?.getD 0))
      (by simp [ackFrame, Frame.fields])
    have hrange := hfit (.varint ((c.spaces id).pendingAcks.length - 1))
      (by simp [ackFrame, Frame.fields])
    exact .ack hlargest (Nat.zero_le _) hrange
  · exact .handshakeDone
  · have hdata := hstreams.2.2
    have hlen := hfit (.varint c.pendingAppData.length) (by simp [Frame.fields, hdata])
    have hoffset : c.streamSendOffset ≤ VarInt.varintMax := by
      by_cases hpos : 0 < c.streamSendOffset
      · exact hfit (.varint c.streamSendOffset) (by simp [Frame.fields, hpos])
      · omega
    exact .stream (Nat.zero_le _) hoffset hlen hdata

variable {sealing opening : DirectionalKeys} {mask : Bytes → Bytes}

/-- The header of a long packet is read as it was written, whatever the mask. -/
lemma openPacket_longForm (h : Paired sealing opening mask) {space : Space}
    (hkeys : space.localKeys = some sealing) (id : PacketNumberSpace) {version : UInt32}
    (hversion : version ≠ 0) {dstCid srcCid : Bytes} (hdst : dstCid.length ≤ 20)
    (hsrc : srcCid.length ≤ 20) {pn : Nat} (hpn : pn < 2 ^ 32) (acked : Nat) {frames : List Frame}
    (hframes : ∀ f ∈ frames, EgestFrame f) (hsize : (frames.flatMap Frame.wire).length < 2 ^ 61)
    {isEstablished : Bool} (hlong : id ≠ .applicationData ∨ isEstablished = false)
    {receiver : Connection τ} (hremote : (receiver.spaces id).remoteKeys = some opening) :
    ∃ packet k, encryptPacket space id version dstCid srcCid frames pn (encodedPnLen pn acked)
        isEstablished = ok packet ∧
      receiver.openPacket packet = ok (id, pn, frames ++ List.replicate k .padding) := by
  have hpnLen := encodedPnLen_bounds pn acked
  have hwellFormed := fun f hf => (hframes f hf).wellFormed
  obtain ⟨k, payload, lengthValue, hlength, hmax, hroom, hopen, hseal⟩ :=
    encryptPacket_long h hkeys id version dstCid srcCid hlong hpnLen
      (fun f hf => (hwellFormed f hf).1) hsize
  obtain ⟨hdr, n, hparse, hty, -, -, -, -, hopened⟩ :=
    protectedLong_opens h.header id hversion hdst hsrc hpnLen (pn_lt_of_encodedPnLen hpn)
      hlength hmax hroom hopen hwellFormed
  refine ⟨_, k, hseal, (openPacket_long hparse).mpr ⟨?_, ?_⟩⟩
  · rw [hty]
    cases id <;> rfl
  · rw [decryptAndParseLong, hremote, ofOption_some, ok_bind]
    exact hopened

/-- What the receiver of a short packet has to know. -/
structure Follows (receiver : Connection τ) (cidLen pn : Nat) : Prop where
  cid : receiver.dstCid.length = cidLen
  large : (receiver.spaces .applicationData).largestRecvPn < 2 ^ 62
  window : InWindow (receiver.spaces .applicationData).largestRecvPn pn (encodedPnLen pn 0)

/-- The packet at hand is opened to its number, its frames and padding, or refused because of the
bits that are masked. -/
theorem packetOf_opens {c : Connection σ} {id : PacketNumberSpace} {packet : Bytes}
    (hpacket : c.packetOf id = ok packet) (hsize : packet.length < 2 ^ 61)
    (h : Paired sealing opening mask) (hkeys : (c.spaces id).localKeys = some sealing)
    (hversion : c.version ≠ 0) (hdst : c.dstCid.length ≤ 20) (hsrc : c.srcCid.length ≤ 20)
    (hpn : id ≠ .applicationData ∨ c.state ≠ .established → (c.spaces id).nextSendPn < 2 ^ 32)
    {receiver : Connection τ} (hremote : (receiver.spaces id).remoteKeys = some opening)
    (hfollows : id = .applicationData →
      receiver.Follows c.dstCid.length (c.spaces id).nextSendPn) :
    (∃ k, receiver.openPacket packet =
        ok (id, (c.spaces id).nextSendPn, c.framesOf id ++ List.replicate k .padding)) ∨
      receiver.openPacket packet = err (.packet .reservedBitsSet) := by
  have hframes := egestFrame_framesOf hpacket
  by_cases hlong : id ≠ .applicationData ∨ c.state ≠ .established
  · obtain ⟨body, hwrite, hbody⟩ := length_encryptPacket hpacket
    rw [writeFrames_eq (fun f hf => (hframes f hf).wellFormed.1), List.nil_append] at hwrite
    obtain rfl := ok.inj hwrite
    have hform : id ≠ .applicationData ∨ c.isEstablished = false :=
      hlong.imp_right fun hstate => decide_eq_false hstate
    obtain ⟨packet', k, hseal, hopen⟩ := openPacket_longForm h hkeys id hversion hdst hsrc
      (hpn hlong) (c.spaces id).largestRecvPn hframes (by omega) hform hremote
    obtain rfl := ok.inj (hpacket.symm.trans hseal)
    exact .inl ⟨k, hopen⟩
  · obtain ⟨happ, hstate⟩ := not_or.mp hlong
    rw [not_not] at happ hstate
    subst happ
    obtain ⟨hcid, hlarge, hwindow⟩ := hfollows rfl
    obtain ⟨packet', k, hseal, hopen⟩ := openPacket_short h hkeys hremote c.version c.srcCid hdst
      hcid (c.spaces .applicationData).largestRecvPn hlarge hwindow hframes
    have hestablished : c.isEstablished = true := decide_eq_true hstate
    rw [packetOf, hestablished] at hpacket
    obtain rfl := ok.inj (hpacket.symm.trans hseal)
    split_ifs at hopen
    · exact .inl ⟨k, hopen⟩
    · exact .inr hopen

end Connection
end DeerQuic
