import DeerQuic.Acks
import DeerQuic.LongForm

/-!
# Packets that share a datagram

The Length field of a long header says where the packet ends, so that another packet may follow in
the datagram. The opener does not look at it: the ciphertext it hands to the AEAD reaches to the
end of the datagram.
-/

namespace DeerQuic

open Outcome Checked Protection

namespace Protection

/-- The AEAD is called with the same number and header, and with all that follows. -/
lemma aeadInput_append {pnLenOf : UInt8 → Nat} {largest pnOffset pn : Nat} {keys : DirectionalKeys}
    {packet aad payload : Bytes} (hroom : pnOffset + 4 ≤ packet.length)
    (h : aeadInput pnLenOf largest keys packet pnOffset = ok (pn, aad, payload)) (rest : Bytes) :
    aeadInput pnLenOf largest keys (packet ++ rest) pnOffset = ok (pn, aad, payload ++ rest) := by
  have hend : min (pnOffset + 4) packet.length = pnOffset + 4 := Nat.min_eq_left hroom
  have hend' : min (pnOffset + 4) (packet ++ rest).length = pnOffset + 4 :=
    Nat.min_eq_left (by rw [List.length_append]; omega)
  simp only [aeadInput, bind_eq_ok, hend] at h
  obtain ⟨sample, hsample, first, hfirst, pnBytes, hpnBytes, ⟨first', pnBytes'⟩, hunmask, field,
    hfield, pn', hpn, plain, hplain, headed, hheaded, aad', haad, encrypted, hencrypted, hout⟩ := h
  have hsample' := FrontReader.slice _ _ _ rest _ hsample
  have hfirst' := FrontReader.index _ _ rest _ hfirst
  have hpnBytes' := FrontReader.slice _ _ _ rest _ hpnBytes
  have hplain' := FrontReader.slice _ _ _ rest _ hplain
  have hencrypted' : (sliceFrom (packet ++ rest) (pnOffset + pnLenOf first') :
      Outcome ConnectionError Bytes) = ok (encrypted ++ rest) := by
    dsimp only [sliceFrom] at hencrypted ⊢
    split_ifs at hencrypted with hlo
    rw [if_pos (by rw [List.length_append]; omega), List.drop_append_of_le_length hlo,
      ok.inj hencrypted]
  obtain ⟨rfl, rfl, rfl⟩ : pn' = pn ∧ aad' = aad ∧ encrypted = payload := by
    simpa using hout
  simp only [aeadInput, hend', bind_eq_ok]
  exact ⟨sample, hsample', first, hfirst', pnBytes, hpnBytes', (first', pnBytes'), hunmask, field,
    hfield, pn', hpn, plain, hplain', headed, hheaded, aad', haad, _, hencrypted', rfl⟩

/-- What a long packet is opened with, and what comes out. -/
lemma decryptAndParseLong_eq_ok {space : Space} {packet : Bytes} {pnOffset pn : Nat}
    {frames : List Frame} :
    decryptAndParseLong space packet pnOffset = ok (pn, frames) ↔
      ∃ keys aad payload plaintext, space.remoteKeys = some keys ∧
        pnOffset + 4 + keys.header.sampleLen ≤ packet.length ∧
        aeadInput longPnLen 0 keys packet pnOffset = ok (pn, aad, payload) ∧
        keys.packet.decryptInPlace pn aad payload = some plaintext ∧
        parseFrames plaintext = ok frames := by
  simp only [decryptAndParseLong, decryptAndParseLongInner, openPayload, bind_eq_ok,
    ofOption_eq_ok, mapErr_eq_ok, require_eq_ok]
  constructor
  · rintro ⟨keys, hkeys, _, hroom, ⟨pn', aad, payload⟩, hinput, plaintext, hopen, frames', hparse,
      hout⟩
    obtain ⟨rfl, rfl⟩ : pn' = pn ∧ frames' = frames := by simpa using hout
    exact ⟨keys, aad, payload, plaintext, hkeys, hroom, hinput, hopen, hparse⟩
  · rintro ⟨keys, aad, payload, plaintext, hkeys, hroom, hinput, hopen, hparse⟩
    exact ⟨keys, hkeys, (), hroom, _, hinput, plaintext, hopen, frames, hparse, rfl⟩

end Protection

namespace Connection

variable {σ : Type} {R : Rustls σ}

/-- `ingest` records the packet number and goes through the frames. -/
def Takes (c : Connection σ) (datagram : Bytes) (id : PacketNumberSpace) (pn : Nat)
    (frames : List Frame) : Prop :=
  c.state ≠ .closed ∧ c.openPacket datagram = ok (id, pn, frames)

def IsPacket (c : Connection σ) (datagram : Bytes) : Prop :=
  ∃ id pn frames, c.Takes datagram id pn frames

/-- What follows a packet in its datagram takes nothing away from it, and is ingested after it if
it is a packet as well. -/
def Delimited (R : Rustls σ) (c : Connection σ) (packet rest : Bytes) : Prop :=
  ∀ id pn frames, c.Takes packet id pn frames →
    (∃ more, c.Takes (packet ++ rest) id pn (frames ++ more)) ∧
    ((c.ingest R packet).2.IsPacket rest →
      (c.ingest R (packet ++ rest)).2 = ((c.ingest R packet).2.ingest R rest).2)

/-- The AEAD opens the ciphertext of the packet with `rest` behind its tag, and what comes out
begins with the packet's frames. -/
def OpensExtended (c : Connection σ) (hdr : LongHeader) (packet rest : Bytes)
    (frames : List Frame) : Prop :=
  ∃ id keys pn aad payload plaintext more, spaceOfType hdr.ty = ok id ∧
    (c.spaces id).remoteKeys = some keys ∧
    aeadInput longPnLen 0 keys packet (hdrPnOffsetLong hdr) = ok (pn, aad, payload) ∧
    keys.packet.decryptInPlace pn aad (payload ++ rest) = some plaintext ∧
    parseFrames plaintext = ok (frames ++ more)

lemma openPacket_long {c : Connection σ} {packet : Bytes} {hdr : LongHeader} {n : Nat}
    (hparse : Packet.parseLongHeader packet = ok (hdr, n)) {id : PacketNumberSpace} {pn : Nat}
    {frames : List Frame} :
    c.openPacket packet = ok (id, pn, frames) ↔ spaceOfType hdr.ty = ok id ∧
      decryptAndParseLong (c.spaces id) packet (hdrPnOffsetLong hdr) = ok (pn, frames) := by
  obtain ⟨first, tail, rfl, hform⟩ := parseLongHeader_form hparse
  have hfirst : (index (first :: tail) 0 : Outcome ConnectionError UInt8) = ok first := rfl
  simp only [openPacket, hfirst, ok_bind, if_neg hform, hparse, mapErr_ok]
  cases hty : hdr.ty with
  | retry => simp [spaceOfType]
  | versionNegotiation => simp [spaceOfType]
  | initial | handshake | zeroRtt =>
    simp only [spaceOfType, bind_eq_ok, ok.injEq, Prod.mk.injEq]
    constructor
    · rintro ⟨⟨pn', frames'⟩, hopen, _, rfl, rfl, rfl, rfl⟩
      exact ⟨rfl, hopen⟩
    · rintro ⟨rfl, hopen⟩
      exact ⟨(pn, frames), hopen, _, rfl, rfl, rfl, rfl⟩

lemma takes_long {c : Connection σ} {packet : Bytes} {hdr : LongHeader} {n : Nat}
    (hparse : Packet.parseLongHeader packet = ok (hdr, n)) {id : PacketNumberSpace} {pn : Nat}
    {frames : List Frame} (h : c.Takes packet id pn frames) (rest : Bytes) :
    (∃ more, c.Takes (packet ++ rest) id pn (frames ++ more)) ↔
      c.OpensExtended hdr packet rest frames := by
  obtain ⟨hstate, hopen⟩ := h
  obtain ⟨hspace, hdecrypt⟩ := (openPacket_long hparse).mp hopen
  obtain ⟨keys, aad, payload, plaintext, hkeys, hroom, hinput, -, -⟩ :=
    decryptAndParseLong_eq_ok.mp hdecrypt
  have hparse' := parseLongHeader_steady.front packet rest (hdr, n) hparse
  have hinput' := aeadInput_append (by omega) hinput rest
  constructor
  · rintro ⟨more, -, hopen'⟩
    obtain ⟨-, hdecrypt'⟩ := (openPacket_long hparse').mp hopen'
    obtain ⟨keys', aad', payload', plaintext', hkeys', -, hinput'', hplain, hframes⟩ :=
      decryptAndParseLong_eq_ok.mp hdecrypt'
    obtain rfl := Option.some.inj (hkeys.symm.trans hkeys')
    obtain ⟨rfl, rfl⟩ : aad = aad' ∧ payload ++ rest = payload' := by
      simpa using hinput'.symm.trans hinput''
    exact ⟨id, keys, pn, aad, payload, plaintext', more, hspace, hkeys, hinput, hplain, hframes⟩
  · rintro ⟨id', keys', pn', aad', payload', plaintext', more, hspace', hkeys', hinput'', hplain,
      hframes⟩
    obtain rfl := ok.inj (hspace.symm.trans hspace')
    obtain rfl := Option.some.inj (hkeys.symm.trans hkeys')
    obtain ⟨rfl, rfl, rfl⟩ : pn = pn' ∧ aad = aad' ∧ payload = payload' := by
      simpa using hinput.symm.trans hinput''
    refine ⟨more, hstate, (openPacket_long hparse').mpr ⟨hspace, ?_⟩⟩
    refine decryptAndParseLong_eq_ok.mpr ⟨keys, aad, payload ++ rest, plaintext', hkeys, ?_, hinput',
      hplain, hframes⟩
    rw [List.length_append]
    omega

/-- One datagram is acknowledged once. -/
lemma not_both {c : Connection σ} {packet datagram rest : Bytes} {id : PacketNumberSpace} {pn : Nat}
    {frames frames' : List Frame} (h : c.Takes packet id pn frames)
    (hall : c.Takes datagram id pn frames') (hrest : (c.ingest R packet).2.IsPacket rest) :
    (c.ingest R datagram).2 ≠ ((c.ingest R packet).2.ingest R rest).2 := by
  intro hsame
  obtain ⟨id', pn', more, hmore⟩ := hrest
  have hone := pendingAcks_ingest_all (R := R) hall.1 hall.2 id'
  have htwo := pendingAcks_ingest_all (R := R) hmore.1 hmore.2 id'
  rw [pendingAcks_ingest_all h.1 h.2 id', ← hsame, hone] at htwo
  simp at htwo

/-- Packets are kept apart only when there is nothing to keep apart, and the AEAD puts up with
what follows. -/
lemma delimited_apart_iff {c : Connection σ} {packet : Bytes} {hdr : LongHeader} {n : Nat}
    (hparse : Packet.parseLongHeader packet = ok (hdr, n)) (rest : Bytes) :
    Delimited R c packet rest ↔ ∀ id pn frames, c.Takes packet id pn frames →
      ¬ (c.ingest R packet).2.IsPacket rest ∧ c.OpensExtended hdr packet rest frames := by
  constructor
  · intro h id pn frames htakes
    obtain ⟨⟨more, hall⟩, hboth⟩ := h id pn frames htakes
    exact ⟨fun hrest => not_both htakes hall hrest (hboth hrest),
      (takes_long hparse htakes rest).mp ⟨more, hall⟩⟩
  · intro h id pn frames htakes
    obtain ⟨hrest, hextended⟩ := h id pn frames htakes
    exact ⟨(takes_long hparse htakes rest).mpr hextended, fun hpacket => absurd hpacket hrest⟩

/-- A ciphertext that opens does not open with anything behind it. -/
def Authenticates (c : Connection σ) : Prop :=
  ∀ id keys pn aad payload plaintext rest, (c.spaces id).remoteKeys = some keys →
    keys.packet.decryptInPlace pn aad payload = some plaintext → rest ≠ [] →
    keys.packet.decryptInPlace pn aad (payload ++ rest) = none

lemma opensExtended_iff {c : Connection σ} (hauth : c.Authenticates) {packet : Bytes}
    {hdr : LongHeader} {n : Nat} (hparse : Packet.parseLongHeader packet = ok (hdr, n))
    {id : PacketNumberSpace} {pn : Nat} {frames : List Frame} (h : c.Takes packet id pn frames)
    (rest : Bytes) : c.OpensExtended hdr packet rest frames ↔ rest = [] := by
  constructor
  · rintro ⟨id', keys', pn', aad', payload', plaintext', more, hspace', hkeys', hinput', hplain, -⟩
    obtain ⟨hspace, hdecrypt⟩ := (openPacket_long hparse).mp h.2
    obtain ⟨keys, aad, payload, plaintext, hkeys, -, hinput, hopens, -⟩ :=
      decryptAndParseLong_eq_ok.mp hdecrypt
    obtain rfl := ok.inj (hspace.symm.trans hspace')
    obtain rfl := Option.some.inj (hkeys.symm.trans hkeys')
    obtain ⟨rfl, rfl, rfl⟩ : pn = pn' ∧ aad = aad' ∧ payload = payload' := by
      simpa using hinput.symm.trans hinput'
    by_contra hrest
    rw [hauth id keys pn aad payload plaintext rest hkeys hopens hrest] at hplain
    cases hplain
  · rintro rfl
    refine (takes_long hparse h []).mp ⟨[], ?_⟩
    rwa [List.append_nil, List.append_nil]

lemma not_isPacket_nil (c : Connection σ) : ¬ c.IsPacket [] := by
  rintro ⟨id, pn, frames, -, hopen⟩
  cases hopen

/-- Packets are kept apart only when there is nothing to keep apart, and the AEAD puts up with
what follows. One that authenticates puts up with nothing. -/
theorem delimited_iff {c : Connection σ} {packet : Bytes} {hdr : LongHeader} {n : Nat}
    (hparse : Packet.parseLongHeader packet = ok (hdr, n)) (rest : Bytes) :
    (Delimited R c packet rest ↔ ∀ id pn frames, c.Takes packet id pn frames →
      ¬ (c.ingest R packet).2.IsPacket rest ∧ c.OpensExtended hdr packet rest frames) ∧
    (c.Authenticates → (Delimited R c packet rest ↔ (c.IsPacket packet → rest = []))) := by
  refine ⟨delimited_apart_iff hparse rest, fun hauth => ?_⟩
  rw [delimited_apart_iff hparse]
  constructor
  · rintro h ⟨id, pn, frames, htakes⟩
    exact (opensExtended_iff hauth hparse htakes rest).mp (h id pn frames htakes).2
  · intro h id pn frames htakes
    have hrest := h ⟨id, pn, frames, htakes⟩
    refine ⟨?_, (opensExtended_iff hauth hparse htakes rest).mpr hrest⟩
    rw [hrest]
    exact not_isPacket_nil _

instance (c : Connection σ) (datagram : Bytes) : Decidable (c.IsPacket datagram) :=
  if hstate : c.state = .closed then
    isFalse fun ⟨_, _, _, h⟩ => h.1 hstate
  else match hopen : c.openPacket datagram with
    | ok (id, pn, frames) => isTrue ⟨id, pn, frames, hstate, hopen⟩
    | err _ | .panic => isFalse fun ⟨_, _, _, h⟩ => by cases hopen.symm.trans h.2

def initialPing : Bytes := plainLong .initial 1 [.ping]

def handshakePing : Bytes := plainLong .handshake 0 [.ping]

/-- The two pings of different spaces are not kept apart. -/
theorem delimited_iff_pings : ¬ Delimited (scripted serverFlights) (plainServer serverFlights)
    initialPing handshakePing := by
  intro h
  have hfirst : (plainServer serverFlights).IsPacket initialPing := by decide +kernel
  obtain ⟨id, pn, frames, htakes⟩ := hfirst
  have hparse : Packet.parseLongHeader initialPing =
      ok ((Packet.parseLongHeader initialPing).getD
        (⟨.retry, 0, ⟨[]⟩, ⟨[]⟩, none, none, none, none⟩, 0)) :=
    eq_ok_getD (by decide +kernel) _
  have happart := (delimited_iff hparse handshakePing).1.mp h id pn frames htakes
  exact happart.1 (by decide +kernel)

/-- Each packet is accepted when it comes alone, the second one after the first. Together they are
refused, and nothing is recorded. -/
theorem coalesced_packets_lost :
    accept (scripted serverFlights) (plainLong .initial 0 [.crypto 0 [1]]) =
        ok (plainServer serverFlights) ∧
      (plainServer serverFlights).IsPacket initialPing ∧
      ((plainServer serverFlights).ingest (scripted serverFlights) initialPing).2.IsPacket
        handshakePing ∧
      ¬ (plainServer serverFlights).IsPacket (initialPing ++ handshakePing) ∧
      ¬ Delimited (scripted serverFlights) (plainServer serverFlights) initialPing
        handshakePing := by
  have hfirst : (plainServer serverFlights).IsPacket initialPing := by decide +kernel
  have hboth : ¬ (plainServer serverFlights).IsPacket (initialPing ++ handshakePing) := by
    decide +kernel
  refine ⟨eq_ok_getD (by decide +kernel) _, hfirst, by decide +kernel, hboth, ?_⟩
  intro h
  obtain ⟨id, pn, frames, htakes⟩ := hfirst
  obtain ⟨⟨more, hall⟩, -⟩ := h id pn frames htakes
  exact hboth ⟨_, _, _, hall⟩

end Connection
end DeerQuic
