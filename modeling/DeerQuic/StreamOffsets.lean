import DeerQuic.CryptoOffsets

/-!
# STREAM offsets

Unlike CRYPTO data, application data is sent with a running offset. In a run in which every packet
leaves, the STREAM frames sent tile what the application handed over, up to what still waits.
-/

namespace DeerQuic

open Outcome Protection Transition

/-- The STREAM frames of stream 0 in the packets that left, with their offsets. -/
def sentStream (events : List Event) : List (Nat × Bytes) :=
  events.flatMap fun
    | .sent _ _ frames => frames.filterMap fun
      | .stream streamId offset data _ => if streamId = 0 then some (offset, data) else none
      | _ => none
    | _ => []

/-- The arguments of all calls of `send_data`, one after the other. -/
def queuedData (events : List Event) : Bytes :=
  events.flatMap fun
    | .queued data => data
    | _ => []

lemma sentStream_append (events more : List Event) :
    sentStream (events ++ more) = sentStream events ++ sentStream more := by
  simp [sentStream]

lemma queuedData_append (events more : List Event) :
    queuedData (events ++ more) = queuedData events ++ queuedData more := by
  simp [queuedData]

/-- What a datagram logs is not data on its way out. -/
lemma outgoing_inbound {es : List Event} (h : ∀ e ∈ es, e.Inbound) :
    sentStream es = [] ∧ queuedData es = [] := by
  constructor <;> apply List.flatMap_eq_nil_iff.mpr <;> intro e he <;> have hin := h e he <;>
    cases e with
    | tlsRead | tlsWrite | received | processed => rfl
    | built | sent | queued | delivered => exact hin.elim

namespace Connection

variable {σ : Type} {R : Rustls σ}

/-- The frames sent tile the front of what was handed over; the rest waits, and the next frame
starts where the last one ended. -/
structure StreamTiled (c : Connection σ) : Prop where
  tiles : Tiles 0 (sentStream c.history)
  nonempty : ∀ chunk ∈ sentStream c.history, chunk.2 ≠ []
  all : chunkData (sentStream c.history) ++ c.pendingAppData = queuedData c.history
  offset : c.streamSendOffset = (chunkData (sentStream c.history)).length

/-- The buffer is large enough and the packet can be encrypted. -/
def PacketLeaves (c : Connection σ) : Op → Prop
  | .egest bufLen => c.state ≠ .closed → ∀ id, c.firstBusy = some id → c.Leaves bufLen id
  | _ => True

/-- Neither the queue nor the offset has changed, and nothing was sent or handed over. -/
lemma StreamTiled.same {c c' : Connection σ} {es : List Event} (h : StreamTiled c)
    (hhistory : c'.history = c.history ++ es) (hes : sentStream es = [] ∧ queuedData es = [])
    (hpending : c'.pendingAppData = c.pendingAppData)
    (hoffset : c'.streamSendOffset = c.streamSendOffset) : StreamTiled c' := by
  have hsent : sentStream c'.history = sentStream c.history := by
    rw [hhistory, sentStream_append, hes.1, List.append_nil]
  have hqueued : queuedData c'.history = queuedData c.history := by
    rw [hhistory, queuedData_append, hes.2, List.append_nil]
  constructor
  · rw [hsent]
    exact h.tiles
  · rw [hsent]
    exact h.nonempty
  · rw [hsent, hqueued, hpending]
    exact h.all
  · rw [hsent, hoffset]
    exact h.offset

lemma streamTiled_frameNext (id : PacketNumberSpace) {c : Connection σ} (frame : Frame)
    (h : StreamTiled c) : StreamTiled (frameNext R id c frame) := by
  obtain ⟨es, hes, hin⟩ := frameNext_history R id c frame
  have hnothing := outgoing_inbound hin
  generalize hnext : frameNext R id c frame = c' at hes
  have hstep := frameNext_step R id c frame
  rw [hnext] at hstep
  cases hstep with
  | fed _ _ hrun => exact h.same hes hnothing hrun.same.2.1 hrun.same.2.2.1
  | refused _ _ | skipped _ | closed _ | confirmed _ | stream | ignored _ =>
    exact h.same hes hnothing rfl rfl

lemma stream_framesOf (c : Connection σ) (id : PacketNumberSpace) (pn : Nat) :
    sentStream [.sent id pn (c.framesOf id)] =
      if c.Streams id then [(c.streamSendOffset, c.pendingAppData)] else [] := by
  simp [sentStream, List.filterMap_eq_flatMap_toList, flatMap_framesOf, ackFrame]

/-- A packet that leaves takes the whole queue along, at the offset reached. -/
lemma streamTiled_sent {c : Connection σ} (h : StreamTiled c) (id : PacketNumberSpace) :
    StreamTiled (c.sent id) := by
  have hhistory : (c.sent id).history = c.history ++
      [.built id (c.spaces id).nextSendPn (c.framesOf id),
        .sent id (c.spaces id).nextSendPn (c.framesOf id)] := by
    simp [sent, log, (built_same c id).2.2.2]
  have hsent : sentStream (c.sent id).history = sentStream c.history ++
      if c.Streams id then [(c.streamSendOffset, c.pendingAppData)] else [] := by
    rw [hhistory, sentStream_append, ← stream_framesOf c id (c.spaces id).nextSendPn]
    simp [sentStream]
  have hqueued : queuedData (c.sent id).history = queuedData c.history := by
    rw [hhistory, queuedData_append]
    simp [queuedData]
  have hpending : (c.sent id).pendingAppData = if c.Streams id then [] else c.pendingAppData :=
    pendingAppData_built c id
  have hoffset : (c.sent id).streamSendOffset =
      if c.Streams id then c.streamSendOffset + c.pendingAppData.length
      else c.streamSendOffset := streamSendOffset_built c id
  by_cases hstream : c.Streams id
  · rw [if_pos hstream] at hsent hpending hoffset
    have hdata : chunkData (sentStream (c.sent id).history) =
        chunkData (sentStream c.history) ++ c.pendingAppData := by
      simp [hsent, chunkData]
    constructor
    · rw [hsent, tiles_concat, h.offset, Nat.zero_add]
      exact ⟨h.tiles, rfl⟩
    · intro chunk hchunk
      rw [hsent] at hchunk
      rcases List.mem_append.mp hchunk with hold | hnew
      · exact h.nonempty chunk hold
      · rw [List.mem_singleton.mp hnew]
        exact hstream.2.2
    · rw [hdata, hpending, hqueued, List.append_nil]
      exact h.all
    · rw [hdata, hoffset, h.offset, List.length_append]
  · rw [if_neg hstream] at hpending hoffset
    refine h.same hhistory ⟨?_, rfl⟩ hpending hoffset
    have hnone := stream_framesOf c id (c.spaces id).nextSendPn
    rw [if_neg hstream] at hnone
    simpa [sentStream] using hnone

lemma streamTiled_next {c : Connection σ} {op : Op} (h : StreamTiled c) (hop : PacketLeaves c op) :
    StreamTiled (next R c op) := by
  cases op with
  | ingest buf =>
    exact ingest_always (P := StreamTiled) R
      (fun c id pn hc => hc.same rfl ⟨rfl, rfl⟩ rfl rfl)
      (fun id c frame hc => streamTiled_frameNext id frame hc) h buf
  | egest bufLen =>
    exact egest_induction bufLen h
      (fun id hopen hbusy hlost => absurd (hop hopen id hbusy) hlost)
      (fun id _ _ _ => streamTiled_sent h id)
  | sendData data =>
    have hhistory : (next R c (.sendData data)).history = c.history ++ [.queued data] := rfl
    have hsent : sentStream (next R c (.sendData data)).history = sentStream c.history := by
      rw [hhistory, sentStream_append]
      exact List.append_nil _
    constructor
    · rw [hsent]
      exact h.tiles
    · rw [hsent]
      exact h.nonempty
    · rw [hsent, hhistory, queuedData_append, ← h.all, List.append_assoc]
      simp [next, sendData, log, queuedData]
    · rw [hsent]
      exact h.offset
  | recvData bufLen => exact h.same rfl ⟨rfl, rfl⟩ rfl rfl

lemma TlsRun.outgoing_eq {c c' : Connection σ} {es : List Event} (h : TlsRun c es c') :
    sentStream es = [] ∧ queuedData es = [] := by
  apply outgoing_inbound
  intro e he
  rcases h.events he with ⟨_, _, rfl⟩ | ⟨_, _, _, rfl⟩ <;> trivial

lemma streamTiled_started {c : Connection σ} (h : Started R c) : StreamTiled c := by
  cases h with
  | connect _ _ hconnect =>
    obtain ⟨_, _, hello, _, _, _, rfl⟩ := connect_eq hconnect
    exact ⟨trivial, by simp [sentStream], rfl, rfl⟩
  | accept haccept =>
    obtain ⟨tls, version, dstCid, srcCid, keys, _, c₁, hrun, _, rfl⟩ := accept_eq haccept
    have hfresh : StreamTiled (fresh .server .handshaking tls version dstCid srcCid keys) :=
      ⟨trivial, by simp [fresh, sentStream], rfl, rfl⟩
    have hrunTiled := hfresh.same hrun.history_eq hrun.outgoing_eq hrun.same.2.1 hrun.same.2.2.1
    have hrecorded : StreamTiled (c₁.recordRecvPn .initial 0) :=
      hrunTiled.same rfl ⟨rfl, rfl⟩ rfl rfl
    exact ⟨hrecorded.tiles, hrecorded.nonempty, hrecorded.all, hrecorded.offset⟩

/-- In a run in which every packet leaves, the STREAM frames sent tile what was handed over. The
frames logged as sent are those of the packets that `egest` hands out. -/
theorem stream_tiled {s : Connection σ} (hs : Started R s) {ops : List Op}
    (hleaves : Along (next R) PacketLeaves s ops) :
    (∀ (c : Connection σ) (bufLen : Nat), LogsPacket c bufLen) ∧
      Always (next R) StreamTiled s ops :=
  ⟨logsPacket,
    always_of_along (fun _ _ h hop => streamTiled_next h hop) (streamTiled_started hs) hleaves⟩

/-- Data handed over before the handshake and data handed over after it, sent one by one. -/
theorem stream_tiled_server :
    (∀ (c : Connection Flights) (bufLen : Nat), LogsPacket c bufLen) ∧
      Always (next (scripted serverFlights)) StreamTiled (plainServer serverFlights)
        [.sendData [7], .egest 2048, .egest 2048, .egest 2048, .egest 2048, .sendData [8, 9],
          .egest 2048] := by
  have hleaves : ∀ {c : Connection Flights} {bufLen : Nat},
      c.firstBusy.all (fun id => decide (c.Leaves bufLen id)) = true →
        PacketLeaves c (.egest bufLen) := fun hall _ => leaves_of_all hall
  refine stream_tiled (plainServer_started (by decide +kernel))
    ⟨trivial, hleaves ?_, hleaves ?_, hleaves ?_, hleaves ?_, trivial, hleaves ?_, trivial⟩
  · decide +kernel
  · decide +kernel
  · decide +kernel
  · decide +kernel
  · decide +kernel

/-- The frames of that run. -/
example : sentStream (run (next (scripted serverFlights)) (plainServer serverFlights)
    [.sendData [7], .egest 2048, .egest 2048, .egest 2048, .egest 2048, .sendData [8, 9],
      .egest 2048]).history = [(0, [7]), (1, [8, 9])] := by
  decide +kernel

end Connection
end DeerQuic
