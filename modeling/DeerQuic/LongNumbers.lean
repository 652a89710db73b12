import DeerQuic.Coalescing
import DeerQuic.PanicFree

/-!
# Packet numbers of long packets

The opener of short packets completes a packet number towards the largest one received in its
space. The opener of long packets completes it towards 0, wherever the space has got to, and so
takes the bytes for the number.
-/

namespace DeerQuic

open Outcome Checked

namespace Protection

/-- The packet holds `pn`, cut to `len` bytes, at the offset. Under that number the key opens what
follows to `frames`. -/
structure Carries (remote : DirectionalKeys) (packet : Bytes) (pnOffset len pn : Nat)
    (frames : List Frame) : Prop where
  fieldLen : 1 ≤ len ∧ len ≤ 4
  room : pnOffset + 4 + remote.header.sampleLen ≤ packet.length
  opens : ∃ first pnBytes plaintext,
    unmasked remote packet pnOffset = some (first, pnBytes) ∧ longPnLen first = len ∧
    pnBytes.take len = pnField pn len ∧
    remote.packet.decryptInPlace pn
      (plainHeader first ((packet.take pnOffset).drop 1) (pnField pn len))
      (packet.drop (pnOffset + len)) = some plaintext ∧
    parseFrames plaintext = ok frames

/-- The bytes up to the end of the field, as a header. -/
lemma take_eq_plainHeader {packet : Bytes} {pnOffset len : Nat} (hoffset : 1 ≤ pnOffset)
    (hroom : pnOffset + len ≤ packet.length) :
    packet.take (pnOffset + len) =
      plainHeader (packet.headD 0) ((packet.take pnOffset).drop 1)
        ((packet.drop pnOffset).take len) := by
  obtain ⟨before, rfl⟩ := Nat.exists_eq_add_of_le hoffset
  cases packet with
  | nil => simp at hroom
  | cons b tail =>
    have hsplit : 1 + before + len = (before + len) + 1 := by omega
    rw [hsplit, Nat.add_comm 1 before]
    simp only [plainHeader, List.take_succ_cons, List.drop_succ_cons, List.drop_zero,
      List.headD_cons, List.take_add]

/-- Whichever number the field is completed to, header and ciphertext are those of the packet. -/
lemma recovered_carried {packet pnBytes : Bytes} {pnOffset len pn : Nat} {first : UInt8}
    (hoffset : 1 ≤ pnOffset) (hlen : 1 ≤ len ∧ len ≤ 4) (hroom : pnOffset + len ≤ packet.length)
    (hbytes : pnBytes.length = 4) (hfirst : longPnLen first = len)
    (hfield : pnBytes.take len = pnField pn len) (largest : Nat) :
    recovered longPnLen largest packet pnOffset (first, pnBytes) =
      Packet.decodePacketNumber largest (pn % 256 ^ len) len >>= fun fullPn =>
        ok (fullPn, plainHeader first ((packet.take pnOffset).drop 1) (pnField pn len),
          packet.drop (pnOffset + len)) := by
  have htaken : (slice pnBytes 0 len : Outcome ConnectionError Bytes) = ok (pnField pn len) := by
    rw [← hfield]
    exact slice_eq_ok.mpr ⟨by omega, by simp⟩
  have haad : (slice packet 0 (pnOffset + len) : Outcome ConnectionError Bytes) =
      ok (packet.take (pnOffset + len)) := slice_eq_ok.mpr ⟨by omega, by simp⟩
  have hrest : (sliceFrom packet (pnOffset + len) : Outcome ConnectionError Bytes) =
      ok (packet.drop (pnOffset + len)) := if_pos hroom
  have hmiddle : ((packet.take pnOffset).drop 1).length + 1 = pnOffset := by
    rw [List.length_drop, List.length_take]
    omega
  have hsame : (pnField pn len).length = ((packet.drop pnOffset).take len).length := by
    rw [pnField_length hlen, List.length_take, List.length_drop]
    omega
  have hcopy := plainHeader_copy_field (ε := ConnectionError) first
    ((packet.take pnOffset).drop 1) hsame
  rw [hmiddle] at hcopy
  rw [recovered, hfirst, htaken, ok_bind, readPn_pnField hlen, haad, hrest,
    take_eq_plainHeader hoffset hroom]
  simp only [ok_bind, plainHeader_copy_first, hcopy]

/-- What the opener of long packets does with a packet depends on the truncated number only. -/
lemma decryptAndParseLong_carried {space : Space} {remote : DirectionalKeys} {packet : Bytes}
    {pnOffset len pn : Nat} {frames : List Frame} (hkeys : space.remoteKeys = some remote)
    (hoffset : 1 ≤ pnOffset) (h : Carries remote packet pnOffset len pn frames) :
    (∀ pn' frames', decryptAndParseLong space packet pnOffset = ok (pn', frames') →
        pn' = pn % 256 ^ len) ∧
      (pn < 256 ^ len → decryptAndParseLong space packet pnOffset = ok (pn, frames)) := by
  obtain ⟨first, pnBytes, plaintext, hmask, hfirst, hfield, hopen, hframes⟩ := h.opens
  have hlen := h.fieldLen
  have hroom := h.room
  have hbytes : pnBytes.length = 4 := by
    rw [remote.header.decrypt_length hmask, List.length_take, List.length_drop]
    omega
  obtain ⟨hlow, -, -⟩ := window_bounds hlen
  have hend : pnOffset + len ≤ packet.length := by omega
  have hinput := recovered_carried hoffset hlen hend hbytes hfirst hfield 0
  rw [decodePacketNumber_zero hlen (Nat.mod_lt _ (by omega)), ok_bind] at hinput
  have haead : aeadInput longPnLen 0 remote packet pnOffset =
      ok (pn % 256 ^ len, plainHeader first ((packet.take pnOffset).drop 1) (pnField pn len),
        packet.drop (pnOffset + len)) := by
    rw [aeadInput_eq_recovered longPnLen 0 hroom, hmask, ofOption_some, ok_bind, hinput]
  constructor
  · intro pn' frames' hopened
    obtain ⟨keys, aad, payload, -, hkeys', -, hinput', -, -⟩ :=
      decryptAndParseLong_eq_ok.mp hopened
    obtain rfl := Option.some.inj (hkeys.symm.trans hkeys')
    exact (Prod.mk.inj (ok.inj (haead.symm.trans hinput'))).1.symm
  · intro hsmall
    rw [Nat.mod_eq_of_lt hsmall] at haead
    exact decryptAndParseLong_eq_ok.mpr
      ⟨remote, _, _, plaintext, hkeys, hroom, haead, hopen, hframes⟩

end Protection

namespace Connection

open Protection

variable {σ : Type} (R : Rustls σ)

/-- The packet is decrypted under this number, and `ingest` records it before it goes through the
frames. -/
def TakenUnder (c : Connection σ) (packet : Bytes) (id : PacketNumberSpace) (pn : Nat)
    (frames : List Frame) : Prop :=
  c.openPacket packet = ok (id, pn, frames) ∧
    (c.state ≠ .closed → ∃ es, (c.ingest R packet).2.history = c.history ++ .received id pn :: es)

variable {R}

lemma takenUnder_iff {c : Connection σ} {packet : Bytes} {id : PacketNumberSpace} {pn : Nat}
    {frames : List Frame} :
    c.TakenUnder R packet id pn frames ↔ c.openPacket packet = ok (id, pn, frames) := by
  constructor
  · exact fun h => h.1
  · intro hopen
    refine ⟨hopen, fun hstate => ?_⟩
    obtain ⟨es, hes⟩ := processFrames_history R id frames (c.recordRecvPn id pn)
    refine ⟨es, ?_⟩
    rw [ingest_of_open R hstate hopen, hes]
    simp [recordRecvPn, log, setSpace]

/-- A number that the short path recovers is recovered from a long packet only when it fits the
bytes it was cut to, wherever the space has got to. -/
theorem long_number_recovered_iff {c : Connection σ} {packet : Bytes} {hdr : LongHeader}
    {n len pn : Nat} {id : PacketNumberSpace} {remote : DirectionalKeys} {frames : List Frame}
    (hparse : Packet.parseLongHeader packet = ok (hdr, n)) (hspace : spaceOfType hdr.ty = ok id)
    (hkeys : (c.spaces id).remoteKeys = some remote)
    (hcarries : Carries remote packet (hdrPnOffsetLong hdr) len pn frames) (hpn : pn < 2 ^ 62)
    (hwindow : InWindow (c.spaces id).largestRecvPn pn len) :
    (Packet.decodePacketNumber (c.spaces id).largestRecvPn (pn % 256 ^ len) len :
        Outcome ConnectionError Nat) = ok pn ∧
      (c.TakenUnder R packet id pn frames ↔ pn < 256 ^ len) := by
  have hlen := hcarries.fieldLen
  obtain ⟨hlow, hhigh, heven⟩ := window_bounds hlen
  obtain ⟨hbelow, habove⟩ := hwindow
  have hoffset : 1 ≤ hdrPnOffsetLong hdr := by
    unfold hdrPnOffsetLong
    dsimp only
    omega
  obtain ⟨htruncated, hopens⟩ := decryptAndParseLong_carried hkeys hoffset hcarries
  have htrunc : pn % 256 ^ len < 256 ^ len := Nat.mod_lt _ (by omega)
  have hlarge : (c.spaces id).largestRecvPn < 2 ^ 63 := by omega
  constructor
  · rw [decodePacketNumber_complete hlen hlarge htrunc,
      Window.complete_of_window (by omega) heven hbelow habove]
  · rw [takenUnder_iff, openPacket_long hparse]
    constructor
    · rintro ⟨-, hopened⟩
      rw [htruncated pn frames hopened]
      exact htrunc
    · intro hsmall
      exact ⟨hspace, hopens hsmall⟩

/-- A connection that has got as far as number 255. -/
def arrived255 : Connection Unit := (plainConnection plainMask).recordRecvPn .initial 255

/-- A ping in an Initial packet whose number is cut to one byte. -/
def pinged (pn : Nat) : Bytes := plainLong .initial pn [.ping]

def pingFrames : List Frame := .ping :: List.replicate 19 .padding

theorem long_number_recovered_iff_200 :
    ∃ hdr n, Packet.parseLongHeader (pinged 200) = ok (hdr, n) ∧
      (Packet.decodePacketNumber (arrived255.spaces .initial).largestRecvPn (200 % 256 ^ 1) 1 :
        Outcome ConnectionError Nat) = ok 200 ∧
      (arrived255.TakenUnder ⟨fun _ => true, .ok (), .ok (), fun _ _ => ((), .ok ()),
          fun _ => ((), [], none), fun _ _ => none⟩ (pinged 200) .initial 200 pingFrames ↔
        200 < 256 ^ 1) := by
  have hcarries : Carries (nullDirection plainMask) (pinged 200) 11 1 200 pingFrames := by
    refine ⟨by decide, by decide +kernel, 0xc0, [200, 1, 0, 0], 1 :: List.replicate 19 0, ?_⟩
    decide +kernel
  have hparse : Packet.parseLongHeader (pinged 200) =
      ok (⟨.initial, 1, ⟨[0x51]⟩, ⟨[0x50]⟩, some [], some 37, some 200, some 1⟩, 12) := by
    decide +kernel
  exact ⟨_, _, hparse, long_number_recovered_iff hparse rfl rfl hcarries (by decide) (by decide)⟩

/-- Number 256 follows 255 in one byte, which is 0: the packet is decrypted under number 0. -/
theorem long_number_truncated :
    (arrived255.spaces .initial).largestRecvPn = 255 ∧ InWindow 255 256 1 ∧
      Carries (nullDirection plainMask) (pinged 256) 11 1 256 pingFrames ∧
      arrived255.openPacket (pinged 256) = ok (.initial, 0, pingFrames) := by
  refine ⟨rfl, by decide, ⟨by decide, by decide +kernel, 0xc0, [0, 1, 0, 0],
    1 :: List.replicate 19 0, ?_⟩, ?_⟩
  · decide +kernel
  · decide +kernel

end Connection
end DeerQuic
