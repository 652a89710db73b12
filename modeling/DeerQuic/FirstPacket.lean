import DeerQuic.HeaderParse
import DeerQuic.Acks

/-!
# The packet that creates a server

`ep_server` has the client's first packet processed twice: `accept` reads the ClientHello out of it,
and `ingest` is fed the same datagram. Both record the packet in the Initial space. `accept` knows
the packet number and records 0.
-/

namespace DeerQuic.Connection

open Outcome Checked Protection

variable {σ : Type} {R : Rustls σ}

/-- A client's Initial packet of this number, as the server decrypts it. -/
structure InitialOf (R : Rustls σ) (datagram : Bytes) (hdr : LongHeader) (keys : Keys)
    (frames : List Frame) (pn : Nat) : Prop where
  parsed : ∃ n, Packet.parseLongHeader datagram = ok (hdr, n)
  initial : hdr.ty = .initial
  keyed : R.initialKeys .server hdr.dstCid.bytes = some keys
  decrypted : decryptInitial datagram hdr keys = ok (frames, pn)

/-- The packet is recorded under its number by `accept`, not again by `ingest`, and the ACK that
then goes out covers it and nothing else. -/
structure AccountedOnce (R : Rustls σ) (datagram : Bytes) (server : Connection σ) (pn : Nat) :
    Prop where
  accepted : (server.spaces .initial).pendingAcks = [pn]
  largest : (server.spaces .initial).largestRecvPn = pn
  ingested : ((server.ingest R datagram).2.spaces .initial).pendingAcks = [pn]
  acknowledged :
    (ackFrame ((server.ingest R datagram).2.spaces .initial).pendingAcks).acknowledged =
      some {(pn : Int)}

/-- The keys that TLS announces go to the other spaces. -/
lemma initial_acceptTlsOutput {c : Connection σ} (hempty : ∀ level, c.pendingCrypto level = []) :
    (c.acceptTlsOutput R).spaces .initial = c.spaces .initial := by
  rw [acceptTlsOutput_eq hempty]
  cases (R.writeHs c.tls).2.2 with
  | none => rfl
  | some change => cases (R.writeHs (R.writeHs c.tls).1).2.2 <;> rfl

/-- Whatever its number, the packet is recorded as packet 0. -/
lemma accept_initial {datagram : Bytes} {hdr : LongHeader} {keys : Keys} {frames : List Frame}
    {pn : Nat} {server : Connection σ} (hfirst : InitialOf R datagram hdr keys frames pn)
    (h : accept R datagram = ok server) :
    server.state = .handshaking ∧
      server.spaces .initial = ((Space.new .initial).setKeys keys).recordRecvPn 0 := by
  obtain ⟨n, hparse⟩ := hfirst.parsed
  obtain ⟨_, _, _, _, c, _, _, hstate, hserver⟩ := accept_greeting h
  refine ⟨by rw [hserver]; exact hstate, ?_⟩
  simp only [accept, hparse, hfirst.keyed, hfirst.decrypted, mapErr_ok, ofOption_some, ok_bind,
    bind_eq_ok] at h
  obtain ⟨tls, -, -, -, hc⟩ := h
  have hinitial := initial_acceptTlsOutput (R := R)
    (c := (greeted R hdr keys frames tls).log (.tlsRead 0 (clientHelloOf frames))) fun _ => rfl
  rw [← ok.inj hc]
  exact congrArg (fun space : Space => space.recordRecvPn 0) hinitial

/-- `ingest` opens the same datagram with the same keys. -/
lemma openPacket_initial {datagram : Bytes} {hdr : LongHeader} {keys : Keys} {frames : List Frame}
    {pn : Nat} {server : Connection σ} (hfirst : InitialOf R datagram hdr keys frames pn)
    (hkeys : (server.spaces .initial).keys = some keys) :
    server.openPacket datagram = ok (.initial, pn, frames) := by
  obtain ⟨n, hparse⟩ := hfirst.parsed
  obtain ⟨first, tail, rfl, hform⟩ := parseLongHeader_form hparse
  have hindex : (index (first :: tail) 0 : Outcome ConnectionError UInt8) = ok first := rfl
  have hremote : (server.spaces .initial).remoteKeys = some keys.remoteKeys := by
    rw [Space.remoteKeys, hkeys, Option.map_some]
  have hdecrypted := hfirst.decrypted
  simp only [decryptInitial, bind_eq_ok, Prod.exists] at hdecrypted
  obtain ⟨pn', frames', hinner, hout⟩ := hdecrypted
  obtain ⟨rfl, rfl⟩ := Prod.mk.inj (ok.inj hout)
  rw [openPacket, hindex, ok_bind, if_neg hform, hparse, mapErr_ok, ok_bind]
  dsimp only
  rw [hfirst.initial]
  dsimp only
  rw [decryptAndParseLong, hremote, ofOption_some, ok_bind, hinner, ok_bind]
  rfl

/-- No client Initial packet is accounted for as it should be. `accept` records 0 for it, whatever
its number is, and `ingest` records the number, so that two numbers are pending and the ACK covers
two. -/
theorem first_packet_miscounted {datagram : Bytes} {hdr : LongHeader} {keys : Keys}
    {frames : List Frame} {pn : Nat} {server : Connection σ}
    (hfirst : InitialOf R datagram hdr keys frames pn) (haccept : accept R datagram = ok server) :
    ¬ AccountedOnce R datagram server pn ∧
      ((server.spaces .initial).pendingAcks = [0] ∧
        (server.spaces .initial).largestRecvPn = 0) ∧
      ((server.ingest R datagram).2.spaces .initial).pendingAcks = [0, pn] ∧
      (ackFrame ((server.ingest R datagram).2.spaces .initial).pendingAcks).acknowledged =
        some (Set.Icc (pn - 1 : Int) pn) := by
  obtain ⟨hstate, hspace⟩ := accept_initial hfirst haccept
  have hopened : server.state ≠ .closed := by
    rw [hstate]
    decide
  have hkeys : (server.spaces .initial).keys = some keys := by
    rw [hspace]
    rfl
  have hpending : (server.spaces .initial).pendingAcks = [0] := by
    rw [hspace]
    rfl
  have hlargest : (server.spaces .initial).largestRecvPn = 0 := by
    rw [hspace]
    rfl
  have htwice : ((server.ingest R datagram).2.spaces .initial).pendingAcks = [0, pn] := by
    rw [pendingAcks_ingest hopened (openPacket_initial hfirst hkeys), hpending]
    rfl
  refine ⟨?_, ⟨hpending, hlargest⟩, htwice, ?_⟩
  · intro honce
    have hone := honce.ingested
    rw [htwice] at hone
    cases hone
  · rw [htwice]
    simp [ackFrame, Frame.acknowledged, ackSet]

/-- A ClientHello that the client sends again, as its packet 3. -/
def resentHello : Bytes := plainLong .initial 3 [.crypto 0 [1]]

/-- The header of `resentHello`. -/
def resentHeader : LongHeader :=
  ((Packet.parseLongHeader resentHello).getD
    (⟨.initial, 1, ⟨[]⟩, ⟨[]⟩, none, none, none, none⟩, 0)).1

theorem first_packet_miscounted_resent :
    ∃ server, accept (scripted serverFlights) resentHello = ok server ∧
      ¬ AccountedOnce (scripted serverFlights) resentHello server 3 := by
  have hparse := eq_ok_getD (x := Packet.parseLongHeader resentHello) (by decide +kernel)
    (⟨.initial, 1, ⟨[]⟩, ⟨[]⟩, none, none, none, none⟩, 0)
  have hopen := eq_ok_getD (x := decryptInitial resentHello resentHeader (nullKeys plainMask))
    (by decide +kernel) ([], 0)
  have hserver := eq_ok_getD (x := accept (scripted serverFlights) resentHello)
    (by decide +kernel) (plainServer [])
  have hpn :
      ((decryptInitial resentHello resentHeader (nullKeys plainMask)).getD ([], 0)).2 = 3 := by
    decide +kernel
  refine ⟨_, hserver, ?_⟩
  rw [← hpn]
  exact (first_packet_miscounted ⟨⟨_, hparse⟩, by decide +kernel, rfl, hopen⟩ hserver).1

/-- Packet 3 is pending as packet 0, and then as packet 3 too. -/
theorem resent_hello_recorded_twice :
    ∃ server, accept (scripted serverFlights) resentHello = ok server ∧
      (server.spaces .initial).pendingAcks = [0] ∧
      ((server.ingest (scripted serverFlights) resentHello).2.spaces .initial).pendingAcks =
        [0, 3] ∧
      ¬ AccountedOnce (scripted serverFlights) resentHello server 3 := by
  have hserver := eq_ok_getD (x := accept (scripted serverFlights) resentHello)
    (by decide +kernel) (plainServer [])
  have hpending : (((accept (scripted serverFlights) resentHello).getD
      (plainServer [])).spaces .initial).pendingAcks = [0] := by
    decide +kernel
  refine ⟨_, hserver, hpending, by decide +kernel, fun honce => ?_⟩
  have hone := honce.accepted
  rw [hpending] at hone
  revert hone
  decide

end DeerQuic.Connection
