import DeerQuic.Acks
import DeerQuic.Established

/-!
# Acknowledging acknowledgements

Every packet that opens is put down for acknowledgement before anybody looks at what is in it. So
a packet of nothing but ACK and PADDING is answered by another such packet, and two endpoints that
have nothing to say go on acknowledging each other.
-/

namespace DeerQuic

open Outcome Protection Transition

/-- ACK or PADDING, which no one has to acknowledge. -/
def Frame.AckOnly : Frame → Prop
  | .ack _ _ _ _ | .padding => True
  | _ => False

instance : DecidablePred Frame.AckOnly := fun frame =>
  match frame with
  | .ack _ _ _ _ | .padding => isTrue trivial
  | .ping | .resetStream _ _ _ | .stopSending _ _ | .crypto _ _ | .newToken _ | .stream _ _ _ _
  | .maxData _ | .maxStreamData _ _ | .maxStreams _ _ | .dataBlocked _ | .streamDataBlocked _ _
  | .streamsBlocked _ _ | .newConnectionId _ _ _ _ | .retireConnectionId _ | .pathChallenge _
  | .pathResponse _ | .connectionClose _ _ _ | .handshakeDone => isFalse not_false

namespace Connection

variable {σ : Type} {R : Rustls σ}

/-- `egest` returns 0, whatever the buffer. -/
def NothingToSend (c : Connection σ) : Prop := ∀ bufLen, (c.egest bufLen).1 = ok []

/-- The open connection accepts the datagram, and there are only ACK and PADDING frames in it. -/
def AckPacket (c : Connection σ) (buf : Bytes) : Prop :=
  c.state ≠ .closed ∧ ∃ id pn frames, c.openPacket buf = ok (id, pn, frames) ∧
    ∀ f ∈ frames, f.AckOnly

instance (c : Connection σ) (buf : Bytes) : Decidable (c.AckPacket buf) :=
  match h : c.openPacket buf with
  | ok (id, pn, frames) => decidable_of_iff (c.state ≠ .closed ∧ ∀ f ∈ frames, f.AckOnly) (by
      simp [AckPacket, h])
  | err _ | .panic => isFalse (by simp [AckPacket, h])

lemma nothingToSend_iff {c : Connection σ} :
    NothingToSend c ↔ c.state ≠ .closed ∧ c.firstBusy = none := by
  constructor
  · intro h
    have hopen : c.state ≠ .closed := by
      intro hclosed
      have hzero := h 0
      rw [egest_eq, if_pos hclosed] at hzero
      cases hzero
    refine ⟨hopen, ?_⟩
    cases hbusy : c.firstBusy with
    | none => rfl
    | some id =>
      -- A buffer of the packet's own size is large enough.
      exfalso
      cases hpacket : c.packetOf id with
      | ok packet =>
        have hlen := (packetOf_safe c id).of_ok hpacket
        have hreturned := h packet.length
        rw [egest_eq, if_neg hopen, hbusy] at hreturned
        simp only [hpacket, Nat.lt_irrefl, if_false, ok.injEq] at hreturned
        rw [hreturned] at hlen
        simp at hlen
      | err e =>
        have hreturned := h 0
        rw [egest_eq, if_neg hopen, hbusy] at hreturned
        simp [hpacket] at hreturned
      | panic => exact (packetOf_safe c id).ne_panic hpacket
  · rintro ⟨hopen, hbusy⟩ bufLen
    rw [egest_eq, if_neg hopen, hbusy]

/-- Such a packet is recorded and logged, and nothing else. -/
lemma ingest_ackOnly {c : Connection σ} {buf : Bytes} {id : PacketNumberSpace} {pn : Nat}
    {frames : List Frame} (hstate : c.state ≠ .closed)
    (hopen : c.openPacket buf = ok (id, pn, frames)) (hall : ∀ f ∈ frames, f.AckOnly) :
    c.ingest R buf = (ok buf.length,
      { c.recordRecvPn id pn with
        history := (c.recordRecvPn id pn).history ++ frames.map (.processed id) }) := by
  have hprocess : ∀ (frames : List Frame) (c : Connection σ), (∀ f ∈ frames, f.AckOnly) →
      processFrames R id frames c =
        (ok (), { c with history := c.history ++ frames.map (.processed id) }) := by
    intro frames
    induction frames with
    | nil => simp [processFrames]
    | cons frame frames ih =>
      intro c hall
      have hframe : c.processFrame R id frame = (ok (), c) := by
        have hack := hall frame List.mem_cons_self
        cases frame with
        | ack _ _ _ _ | padding => rfl
        | _ => exact hack.elim
      have hrest := ih (c.log (.processed id frame)) fun f hf => hall f (List.mem_cons_of_mem _ hf)
      rw [processFrames, hframe]
      dsimp only
      rw [hrest]
      simp [log]
  have hpacket := hprocess frames (c.recordRecvPn id pn) hall
  have hresult := ingest_result R hstate hopen
  have hstate' := ingest_of_open R hstate hopen
  rw [hpacket] at hresult hstate'
  exact Prod.ext hresult hstate'

/-- A space with keys and something to acknowledge has something to send. -/
lemma sends_of_pending {c : Connection σ} {id : PacketNumberSpace}
    (hkeys : (c.spaces id).hasKeys = true) (hacks : (c.spaces id).pendingAcks ≠ []) :
    ¬ NothingToSend c := by
  intro hnothing
  have hidle := (nothingToSend_iff.mp hnothing).2
  have hbusy : c.Busy id := by
    refine ⟨hkeys, List.ne_nil_of_mem (a := ackFrame (c.spaces id).pendingAcks) ?_⟩
    exact mem_framesOf.mpr (.inr (.inl ⟨hacks, rfl⟩))
  simp only [firstBusy, List.find?_eq_none, decide_eq_true_eq] at hidle
  refine hidle id ?_ hbusy
  cases id <;> simp

/-- An ACK is due for a packet of nothing but ACKs. -/
lemma pending_of_ackPacket {c : Connection σ} {buf : Bytes} (h : c.AckPacket buf) :
    ∃ id, ((c.ingest R buf).2.spaces id).hasKeys = true ∧
      ((c.ingest R buf).2.spaces id).pendingAcks ≠ [] := by
  obtain ⟨hstate, id, pn, frames, hopen, hall⟩ := h
  have hkeys := openPacket_keys hopen
  refine ⟨id, ?_, ?_⟩
  · rw [ingest_ackOnly hstate hopen hall]
    exact (hasKeys_recorded c id id pn).trans hkeys
  · rw [pendingAcks_ingest hstate hopen]
    simp

/-- Two connections, and the datagrams on their way to each of them. -/
structure Exchange (σ : Type) where
  ends : Side → Connection σ
  flight : Side → List Bytes

/-- Any datagram on its way may be the next to arrive. -/
inductive Move where
  | deliver (side : Side) (i : Nat)
  | emit (side : Side) (bufLen : Nat)

def peer : Side → Side
  | .client => .server
  | .server => .client

variable (R) in
def move (x : Exchange σ) : Move → Exchange σ
  | .deliver side i =>
    match (x.flight side)[i]? with
    | none => x
    | some datagram =>
      { ends := Function.update x.ends side ((x.ends side).ingest R datagram).2
        flight := Function.update x.flight side ((x.flight side).eraseIdx i) }
  | .emit side bufLen =>
    let out := (x.ends side).egest bufLen
    { ends := Function.update x.ends side out.2
      flight :=
        match out.1 with
        | ok (b :: packet) =>
          Function.update x.flight (peer side) (x.flight (peer side) ++ [b :: packet])
        | _ => x.flight }

/-- A packet of nothing but ACKs and padding arrives and is accepted, or the next packet of an
endpoint leaves. -/
def Undisturbed (x : Exchange σ) : Move → Prop
  | .deliver side i => ∀ datagram, (x.flight side)[i]? = some datagram →
      (x.ends side).AckPacket datagram
  | .emit side bufLen => ∀ id, (x.ends side).firstBusy = some id → (x.ends side).Leaves bufLen id

/-- Nothing is on its way and nobody has anything to send. -/
def AtRest (x : Exchange σ) : Prop := ∀ side, x.flight side = [] ∧ NothingToSend (x.ends side)

/-- A packet is on its way, or an acknowledgement is due. -/
def Owing (x : Exchange σ) : Prop :=
  ∃ side, x.flight side ≠ [] ∨ ∃ id, ((x.ends side).spaces id).hasKeys = true ∧
    ((x.ends side).spaces id).pendingAcks ≠ []

lemma Owing.not_atRest {x : Exchange σ} (h : Owing x) : ¬ AtRest x := by
  intro hrest
  obtain ⟨side, hflight | ⟨id, hkeys, hacks⟩⟩ := h
  · exact hflight (hrest side).1
  · exact sends_of_pending hkeys hacks (hrest side).2

/-- A call that changes nothing and hands out nothing. -/
lemma move_emit_idle {x : Exchange σ} {side : Side} {bufLen : Nat}
    {result : Outcome ConnectionError Bytes}
    (hegest : (x.ends side).egest bufLen = (result, x.ends side))
    (hnone : ∀ b packet, result ≠ ok (b :: packet)) : move R x (.emit side bufLen) = x := by
  rcases result with (_ | ⟨b, packet⟩) | _ | _
  · simp only [move, hegest, Function.update_eq_self]
  · exact absurd rfl (hnone b packet)
  · simp only [move, hegest, Function.update_eq_self]
  · simp only [move, hegest, Function.update_eq_self]

lemma owing_move {x : Exchange σ} {m : Move} (h : Owing x) (hm : Undisturbed x m) :
    Owing (move R x m) := by
  cases m with
  | deliver side i =>
    cases harrives : (x.flight side)[i]? with
    | none =>
      have hsame : move R x (.deliver side i) = x := by simp only [move, harrives]
      rw [hsame]
      exact h
    | some datagram =>
      obtain ⟨id, hkeys, hacks⟩ := pending_of_ackPacket (R := R) (hm datagram harrives)
      refine ⟨side, .inr ⟨id, ?_, ?_⟩⟩
      · simpa [move, harrives] using hkeys
      · simpa [move, harrives] using hacks
  | emit side bufLen =>
    have hstep := egest_step (x.ends side) bufLen
    generalize hegest : (x.ends side).egest bufLen = out at hstep
    obtain ⟨result, c⟩ := out
    cases hstep with
    | closed _ | idle _ _ =>
      rw [move_emit_idle hegest (by simp)]
      exact h
    | failed _ hbusy hfailed =>
      obtain ⟨packet, hpacket, _⟩ := hm _ hbusy
      cases hfailed.symm.trans hpacket
    | tooLong _ hbusy hlong htoo =>
      obtain ⟨packet, hpacket, hfits⟩ := hm _ hbusy
      obtain rfl := ok.inj (hlong.symm.trans hpacket)
      exact absurd htoo (Nat.not_lt.mpr hfits)
    | left _ _ _ _ hne =>
      obtain ⟨b, rest, rfl⟩ := List.exists_cons_of_ne_nil hne
      refine ⟨peer side, .inl ?_⟩
      simp [move, hegest]

/-- Whoever has nothing to send, has something to send after a packet of nothing but ACKs. An
exchange in which a packet is on its way, or an acknowledgement due, never comes to rest, as long
as such packets arrive, are accepted and leave. -/
theorem acks_answered :
    (∀ (c : Connection σ) (buf : Bytes), NothingToSend c → c.AckPacket buf →
      (c.ingest R buf).1 = ok buf.length ∧ ¬ NothingToSend (c.ingest R buf).2) ∧
    ∀ (x : Exchange σ) (moves : List Move), Owing x → Along (move R) Undisturbed x moves →
      ¬ AtRest (run (move R) x moves) := by
  constructor
  · intro c buf _ hpacket
    obtain ⟨id, hkeys, hacks⟩ := pending_of_ackPacket (R := R) hpacket
    obtain ⟨hstate, _, _, _, hopen, hall⟩ := hpacket
    constructor
    · rw [ingest_ackOnly hstate hopen hall]
    · exact sends_of_pending hkeys hacks
  · intro x moves hstart halong
    have howing : Owing (run (move R) x moves) :=
      invariant_along (P := Owing) (fun _ _ h hm => owing_move h hm) hstart halong
    exact howing.not_atRest

/-- A server that has sent everything it had. -/
def quietServer : Connection Flights :=
  run (next (scripted serverFlights)) (plainServer serverFlights)
    [.egest 2048, .egest 2048, .egest 2048]

/-- A client with Handshake keys that has sent everything it had. -/
def quietClient : Connection Flights :=
  run (next (scripted serverFlights))
    (plainClient [([1], none), ([], some (.handshake (nullKeys plainMask))), ([], none)])
    [.ingest (plainLong .initial 0 [.crypto 0 [2]]), .egest 2048]

def ackAlone : Bytes := plainLong .handshake 0 [.ack 0 0 [⟨0, 0⟩] none]

/-- One ACK is on its way to the server. -/
def oneAck : Exchange Flights where
  ends
    | .client => quietClient
    | .server => quietServer
  flight
    | .client => []
    | .server => [ackAlone]

/-- A datagram that is known when it arrives. -/
lemma undisturbed_deliver {x : Exchange σ} {side : Side} {i : Nat}
    (h : ((x.flight side)[i]?).all (fun d => decide ((x.ends side).AckPacket d)) = true) :
    Undisturbed x (.deliver side i) := by
  intro datagram harrives
  rw [harrives] at h
  exact of_decide_eq_true h

lemma undisturbed_emit {x : Exchange σ} {side : Side} {bufLen : Nat}
    (h : (x.ends side).firstBusy.all (fun id => decide ((x.ends side).Leaves bufLen id)) = true) :
    Undisturbed x (.emit side bufLen) :=
  leaves_of_all h

/-- The ACK that answers an ACK is on its way back. -/
theorem acks_answered_twice :
    ¬ NothingToSend (quietServer.ingest (scripted serverFlights) ackAlone).2 ∧
      ¬ AtRest (run (move (scripted serverFlights)) oneAck
        [.deliver .server 0, .emit .server 2048]) := by
  obtain ⟨hone, hmany⟩ := acks_answered (R := scripted serverFlights)
  constructor
  · exact (hone quietServer _ (nothingToSend_iff.mpr (by decide +kernel)) (by decide +kernel)).2
  · exact hmany oneAck _ ⟨.server, .inl (by decide +kernel)⟩
      ⟨undisturbed_deliver (by decide +kernel), undisturbed_emit (by decide +kernel), trivial⟩

/-- With nothing to send, the server gets a packet of one ACK and padding, and has a packet to
send. The client answers that one, and so on. -/
theorem ack_acknowledged :
    Started (scripted serverFlights) (plainServer serverFlights) ∧ NothingToSend quietServer ∧
      NothingToSend quietClient ∧ quietServer.AckPacket ackAlone ∧
      ¬ NothingToSend (quietServer.ingest (scripted serverFlights) ackAlone).2 ∧
      ((run (move (scripted serverFlights)) oneAck
        [.deliver .server 0, .emit .server 2048, .deliver .client 0, .emit .client 2048,
          .deliver .server 0, .emit .server 2048]).flight .client).length = 1 := by
  refine ⟨plainServer_started (by decide +kernel), nothingToSend_iff.mpr (by decide +kernel),
    nothingToSend_iff.mpr (by decide +kernel), by decide +kernel, ?_, by decide +kernel⟩
  intro hnothing
  have hidle := (nothingToSend_iff.mp hnothing).2
  revert hidle
  decide +kernel

end Connection
end DeerQuic
