import DeerQuic.Pipe
import DeerQuic.Stream

/-!
# Application data and the handshake spaces

Seen from the application a connection is a buffer: the packets of the ApplicationData space fill
it and reads empty it. The connection simulates this buffer in every run in which the other packets
bring no data and TLS refuses no chunk in that space, but not in every run: the STREAM arm does not
ask for the space, and a refused chunk ends a packet in the middle.
-/

namespace DeerQuic

open Outcome Protection Transition

/-- What should decide about the application's view: the packets of the ApplicationData space
and the reads. -/
inductive AppInput where
  | packet (pn : Nat) (frames : List Frame)
  | read (bufLen : Nat)
  deriving DecidableEq

/-- The buffer the application sees. -/
def buffer (data : Bytes) : AppInput → Bytes
  | .packet _ frames => data ++ frames.flatMap Frame.streamData
  | .read bufLen => data.drop bufLen

def readOut (data : Bytes) : AppInput → List Bytes
  | .packet _ _ => []
  | .read bufLen => [data.take bufLen]

namespace Connection

variable {σ : Type} {R : Rustls σ}

variable (R) in
/-- The packets of the ApplicationData space that `ingest` accepts, and the reads. -/
def appInput (c : Connection σ) : Op → List AppInput
  | .ingest buf =>
    match c.openPacket buf with
    | ok (.applicationData, pn, frames) =>
      if (c.ingest R buf).1.isOk then [.packet pn frames] else []
    | _ => []
  | .recvData bufLen => [.read bufLen]
  | _ => []

/-- The packets of the ApplicationData space that open, also those in which TLS then refuses a
chunk, and the reads. -/
def openedInput (c : Connection σ) : Op → List AppInput
  | .ingest buf =>
    if c.state = .closed then []
    else match c.openPacket buf with
      | ok (id, pn, frames) => if id = .applicationData then [.packet pn frames] else []
      | _ => []
  | .recvData bufLen => [.read bufLen]
  | _ => []

/-- The result of one read. -/
def returned (c : Connection σ) : Op → List Bytes
  | .recvData bufLen => [(c.recvData bufLen).1]
  | _ => []

variable (R) in
/-- TLS takes all chunks of a packet of the ApplicationData space, and no frame of another packet
brings data. -/
def QuietStep (c : Connection σ) : Op → Prop
  | .ingest buf => c.state ≠ .closed → ∀ id pn frames, c.openPacket buf = ok (id, pn, frames) →
      id = .applicationData ∧ FramesAlong R id (TlsAccepts R id) frames (c.recordRecvPn id pn) ∨
        FramesAlong R id (fun _ frame => frame.streamData = []) frames (c.recordRecvPn id pn)
  | _ => True

variable (R) in
/-- TLS takes all chunks of a packet of the ApplicationData space. -/
def UnrefusedStep (c : Connection σ) : Op → Prop
  | .ingest buf => c.state ≠ .closed → ∀ pn frames,
      c.openPacket buf = ok (.applicationData, pn, frames) →
        FramesAlong R .applicationData (TlsAccepts R .applicationData) frames
          (c.recordRecvPn .applicationData pn)
  | _ => True

lemma received_frameNext (id : PacketNumberSpace) (c : Connection σ) (frame : Frame) :
    (frameNext R id c frame).receivedAppData = c.receivedAppData ++ frame.streamData := by
  generalize hnext : frameNext R id c frame = c'
  have hstep := frameNext_step R id c frame
  rw [hnext] at hstep
  cases hstep with
  | refused _ _ => simp [Frame.streamData]
  | skipped _ => simp [log, Frame.streamData]
  | fed _ _ hrun => simp [log, hrun.same.1, Frame.streamData]
  | closed _ | confirmed _ | stream => simp [log, Frame.streamData]
  | ignored hidle => simp [log, hidle.streamData_eq]

lemma received_processFrames (id : PacketNumberSpace) (frames : List Frame) (c : Connection σ) :
    c.receivedAppData <+: (processFrames R id frames c).2.receivedAppData := by
  induction frames generalizing c with
  | nil => exact List.prefix_rfl
  | cons frame frames ih =>
    have hfirst : c.receivedAppData <+: (frameNext R id c frame).receivedAppData := by
      rw [received_frameNext]
      exact List.prefix_append _ _
    rw [processFrames_cons]
    split_ifs
    · exact hfirst.trans (ih _)
    · exact hfirst

/-- Data that were appended do not go away within the packet, so nothing was appended
exactly when no processed frame had any. -/
lemma received_unchanged_iff (id : PacketNumberSpace) (frames : List Frame)
    (c : Connection σ) :
    (processFrames R id frames c).2.receivedAppData = c.receivedAppData ↔
      FramesAlong R id (fun _ frame => frame.streamData = []) frames c := by
  induction frames generalizing c with
  | nil => exact ⟨fun _ => trivial, fun _ => rfl⟩
  | cons frame frames ih =>
    have hnext := received_frameNext (R := R) id c frame
    rw [processFrames_cons]
    by_cases hok : (c.processFrame R id frame).1 = ok ()
    · rw [if_pos hok]
      have hgrows := received_processFrames (R := R) id frames (frameNext R id c frame)
      constructor
      · intro hsame
        have hdata : frame.streamData = [] := by
          have hlen := hgrows.length_le
          rw [hsame, hnext, List.length_append] at hlen
          exact List.length_eq_zero_iff.mp (by omega)
        rw [hdata, List.append_nil] at hnext
        refine ⟨hdata, fun _ => (ih _).mp ?_⟩
        rw [hsame, hnext]
      · rintro ⟨hdata, hrest⟩
        rw [(ih _).mpr (hrest hok), hnext, hdata, List.append_nil]
    · rw [if_neg hok, hnext]
      constructor
      · intro hsame
        exact ⟨by simpa using hsame, fun h => absurd h hok⟩
      · rintro ⟨hdata, _⟩
        rw [hdata, List.append_nil]

/-- A packet that TLS does not refuse brings all its data. -/
lemma received_accepted {id : PacketNumberSpace} {frames : List Frame} {c : Connection σ}
    (h : FramesAlong R id (TlsAccepts R id) frames c) :
    (processFrames R id frames c).2.receivedAppData =
      c.receivedAppData ++ frames.flatMap Frame.streamData := by
  induction frames generalizing c with
  | nil => simp [processFrames]
  | cons frame frames ih =>
    have hok := (processFrame_ok_iff R id c frame).mpr h.1
    rw [processFrames_cons, if_pos hok, ih (h.2 hok), received_frameNext, List.flatMap_cons,
      List.append_assoc]

lemma appInput_ingest {c : Connection σ} {buf : Bytes} {id : PacketNumberSpace} {pn : Nat}
    {frames : List Frame} (hopen : c.openPacket buf = ok (id, pn, frames)) :
    appInput R c (.ingest buf) =
      if id = .applicationData ∧ (c.ingest R buf).1.isOk then [.packet pn frames] else [] := by
  simp only [appInput, hopen]
  cases id <;> simp

/-- Without data in its frames a packet that was taken whole fills nothing in. -/
lemma flatMap_streamData {id : PacketNumberSpace} {frames : List Frame} {c : Connection σ}
    (htaken : (processFrames R id frames c).1 = ok ())
    (hquiet : FramesAlong R id (fun _ frame => frame.streamData = []) frames c) :
    frames.flatMap Frame.streamData = [] := by
  have hall := received_accepted ((processFrames_ok_iff R id frames c).mp htaken)
  rw [(received_unchanged_iff id frames c).mpr hquiet] at hall
  exact List.append_cancel_left (hall.symm.trans (List.append_nil _).symm)

lemma appInput_unopened {c : Connection σ} {buf : Bytes}
    (h : c.state ≠ .closed → ∀ opened, c.openPacket buf ≠ ok opened) :
    appInput R c (.ingest buf) = [] := by
  cases hopen : c.openPacket buf with
  | ok opened =>
    obtain ⟨id, pn, frames⟩ := opened
    have hclosed : c.state = .closed := by
      by_contra hstate
      exact h hstate _ hopen
    rw [appInput_ingest hopen, ingest, if_pos hclosed]
    simp [isOk]
  | err _ | panic => simp only [appInput, hopen]

lemma received_ingest {c : Connection σ} {buf : Bytes} (hquiet : QuietStep R c (.ingest buf)) :
    (c.ingest R buf).2.receivedAppData =
      run buffer c.receivedAppData (appInput R c (.ingest buf)) := by
  rcases opened_or R c buf with ⟨id, pn, frames, hstate, hopen⟩ | ⟨hsame, hunopened⟩
  · have hresult := ingest_result R hstate hopen
    rw [ingest_of_open R hstate hopen, appInput_ingest hopen]
    rcases hquiet hstate id pn frames hopen with ⟨rfl, haccepts⟩ | hdata
    · have htaken := (processFrames_ok_iff R _ frames _).mpr haccepts
      rw [received_accepted haccepts, if_pos ⟨rfl, by rw [hresult, htaken]; rfl⟩]
      rfl
    · rw [(received_unchanged_iff id frames _).mpr hdata]
      split_ifs with htaken
      · -- All frames were processed, and none of them had data.
        have hok : (processFrames R id frames (c.recordRecvPn id pn)).1 = ok () := by
          obtain ⟨-, htaken⟩ := htaken
          rw [hresult] at htaken
          cases hframes : (processFrames R id frames (c.recordRecvPn id pn)).1 with
          | ok _ => rfl
          | err _ | panic =>
            rw [hframes] at htaken
            cases htaken
        change _ = c.receivedAppData ++ frames.flatMap Frame.streamData
        rw [flatMap_streamData hok hdata, List.append_nil]
        rfl
      · rfl
  · rw [appInput_unopened hunopened, hsame]
    rfl

/-- Packets in which TLS refuses nothing are accepted as soon as they open. -/
lemma openedInput_eq {c : Connection σ} {op : Op} (h : UnrefusedStep R c op) :
    openedInput c op = appInput R c op := by
  cases op with
  | ingest buf =>
    rcases opened_or R c buf with ⟨id, pn, frames, hstate, hopen⟩ | ⟨-, hunopened⟩
    · have hopened : openedInput c (.ingest buf) =
          if id = .applicationData then [.packet pn frames] else [] := by
        simp only [openedInput, hstate, hopen, if_false]
      rw [hopened, appInput_ingest hopen]
      refine if_congr ?_ rfl rfl
      constructor
      · rintro rfl
        have htaken := (processFrames_ok_iff R _ frames _).mpr (h hstate pn frames hopen)
        exact ⟨rfl, by rw [ingest_result R hstate hopen, htaken]; rfl⟩
      · exact And.left
    · rw [appInput_unopened hunopened]
      exact made_unopened hunopened fun id pn frames =>
        if id = .applicationData then [AppInput.packet pn frames] else []
  | egest _ | sendData _ | recvData _ => rfl

/-- The connection's data are what is in the buffer. -/
lemma received_next {c : Connection σ} {op : Op} (hquiet : QuietStep R c op) :
    (next R c op).receivedAppData = run buffer c.receivedAppData (appInput R c op) := by
  cases op with
  | ingest buf => exact received_ingest hquiet
  | egest bufLen =>
    have hbuilt : ∀ id, (c.built id).receivedAppData = c.receivedAppData :=
      fun id => (built_same c id).1
    exact egest_induction (P := fun c' => c'.receivedAppData = c.receivedAppData) bufLen rfl
      (fun id _ _ _ => hbuilt id) (fun id _ _ _ => hbuilt id)
  | sendData data => rfl
  | recvData bufLen =>
    change c.receivedAppData.drop (min _ bufLen) = c.receivedAppData.drop bufLen
    rw [Nat.min_comm, ← List.drop_eq_drop_min]

/-- What the buffer shows for an operation is what the application is given. -/
lemma shown_eq (c : Connection σ) (op : Op) :
    observed buffer readOut c.receivedAppData (appInput R c op) = returned c op := by
  cases op with
  | ingest buf =>
    rcases opened_or R c buf with ⟨id, pn, frames, -, hopen⟩ | ⟨-, hunopened⟩
    · rw [appInput_ingest hopen]
      split_ifs <;> rfl
    · rw [appInput_unopened hunopened]
      rfl
  | egest bufLen => rfl
  | sendData data => rfl
  | recvData bufLen =>
    change [c.receivedAppData.take bufLen] = [c.receivedAppData.take (min _ bufLen)]
    rw [Nat.min_comm, ← List.take_eq_take_min]

lemma received_started {c : Connection σ} (h : Started R c) : c.receivedAppData = [] := by
  cases h with
  | connect _ _ hconnect =>
    obtain ⟨_, _, _, _, _, _, rfl⟩ := connect_eq hconnect
    rfl
  | accept haccept =>
    obtain ⟨_, _, _, _, _, _, c₁, hrun, _, rfl⟩ := accept_eq haccept
    exact hrun.same.1

/-- The connection simulates the buffer. -/
lemma returned_eq {s : Connection σ} (hs : Started R s) {ops : List Op}
    (hquiet : Along (next R) (QuietStep R) s ops) :
    observed buffer readOut [] (observed (next R) (appInput R) s ops) =
      observed (next R) returned s ops := by
  have hstep : ∀ (c : Connection σ) (op : Op) (data : Bytes), c.receivedAppData = data →
      QuietStep R c op → (next R c op).receivedAppData = run buffer data (appInput R c op) := by
    rintro c op _ rfl hop
    exact received_next hop
  have hshown : ∀ (c : Connection σ) (op : Op) (data : Bytes), c.receivedAppData = data →
      QuietStep R c op →
      observed buffer readOut data (appInput R c op) = returned c op := by
    rintro c op _ rfl -
    exact shown_eq c op
  exact simulation_observed hstep hshown (received_started hs) hquiet

/-- An accepted packet leaves the application's data alone exactly when none of its frames
brings any, in whatever space it came; and runs whose handshake spaces bring none, and in whose
ApplicationData packets TLS refuses nothing, give the application the same bytes for the same
accepted ApplicationData packets and reads, or for the same packets that open. -/
theorem handshake_spaces_isolated_iff :
    (∀ (c : Connection σ) (buf : Bytes) (id : PacketNumberSpace) (pn : Nat)
      (frames : List Frame), c.state ≠ .closed →
      c.openPacket buf = ok (id, pn, frames) →
      ((c.ingest R buf).2.receivedAppData = c.receivedAppData ↔
        FramesAlong R id (fun _ frame => frame.streamData = []) frames (c.recordRecvPn id pn))) ∧
    (∀ (s₁ s₂ : Connection σ) (ops₁ ops₂ : List Op), Started R s₁ → Started R s₂ →
      Along (next R) (QuietStep R) s₁ ops₁ → Along (next R) (QuietStep R) s₂ ops₂ →
      observed (next R) (appInput R) s₁ ops₁ = observed (next R) (appInput R) s₂ ops₂ →
      observed (next R) returned s₁ ops₁ = observed (next R) returned s₂ ops₂) ∧
    (∀ (s₁ s₂ : Connection σ) (ops₁ ops₂ : List Op), Started R s₁ → Started R s₂ →
      Along (next R) (QuietStep R) s₁ ops₁ → Along (next R) (QuietStep R) s₂ ops₂ →
      Along (next R) (UnrefusedStep R) s₁ ops₁ → Along (next R) (UnrefusedStep R) s₂ ops₂ →
      observed (next R) openedInput s₁ ops₁ = observed (next R) openedInput s₂ ops₂ →
      observed (next R) returned s₁ ops₁ = observed (next R) returned s₂ ops₂) := by
  refine ⟨?_, ?_, ?_⟩
  · intro c buf id pn frames hopened hopen
    rw [ingest_of_open R hopened hopen]
    exact received_unchanged_iff id frames (c.recordRecvPn id pn)
  · intro s₁ s₂ ops₁ ops₂ hs₁ hs₂ hquiet₁ hquiet₂ hsame
    rw [← returned_eq hs₁ hquiet₁, hsame, returned_eq hs₂ hquiet₂]
  · intro s₁ s₂ ops₁ ops₂ hs₁ hs₂ hquiet₁ hquiet₂ htaken₁ htaken₂ hsame
    have hopened : ∀ (c : Connection σ) op, UnrefusedStep R c op →
        openedInput c op = appInput R c op := fun _ _ => openedInput_eq
    rw [observed_congr hopened htaken₁, observed_congr hopened htaken₂] at hsame
    rw [← returned_eq hs₁ hquiet₁, hsame, returned_eq hs₂ hquiet₂]

/-- A PING in an Initial packet goes unnoticed, in front of a 1-RTT packet with data or behind it. -/
theorem handshake_spaces_isolated_iff_ping :
    (((plainServer serverFlights).ingest (scripted serverFlights)
        (plainLong .initial 1 [.ping])).2.receivedAppData =
        (plainServer serverFlights).receivedAppData ↔
      FramesAlong (scripted serverFlights) .initial (fun _ frame => frame.streamData = [])
        (.ping :: List.replicate 19 .padding) ((plainServer serverFlights).recordRecvPn .initial 1)) ∧
    observed (next (scripted serverFlights)) returned (plainServer serverFlights)
        [.ingest (plainLong .initial 1 [.ping]), .ingest (plainShort 0 [.stream 0 0 [7] false]),
          .recvData 4] =
      observed (next (scripted serverFlights)) returned (plainServer serverFlights)
        [.ingest (plainShort 0 [.stream 0 0 [7] false]), .recvData 4] ∧
    observed (next (scripted serverFlights)) returned (plainServer serverFlights)
        [.ingest (plainShort 0 [.stream 0 0 [7] false]), .ingest (plainLong .initial 1 [.ping]),
          .recvData 4] =
      observed (next (scripted serverFlights)) returned (plainServer serverFlights)
        [.ingest (plainShort 0 [.stream 0 0 [7] false]), .recvData 4] := by
  have hstarted : Started (scripted serverFlights) (plainServer serverFlights) :=
    plainServer_started (by decide +kernel)
  have hopen : (plainServer serverFlights).openPacket (plainLong .initial 1 [.ping]) =
      ok (.initial, 1, .ping :: List.replicate 19 .padding) := by
    decide +kernel
  have hping : ∀ c : Connection Flights,
      c.openPacket (plainLong .initial 1 [.ping]) =
        ok (.initial, 1, .ping :: List.replicate 19 .padding) →
      QuietStep (scripted serverFlights) c (.ingest (plainLong .initial 1 [.ping])) ∧
        UnrefusedStep (scripted serverFlights) c (.ingest (plainLong .initial 1 [.ping])) := by
    intro c hlong
    refine ⟨fun hstate id pn frames hopen => ?_, fun hstate pn frames hopen => ?_⟩
    · rw [hlong] at hopen
      cases hopen
      refine .inr ⟨rfl, fun _ => framesAlong_of_forall _ (fun _ frame hframe => ?_) _⟩
      rw [List.eq_of_mem_replicate hframe]
      rfl
    · rw [hlong] at hopen
      cases hopen
  have hstream : ∀ c : Connection Flights,
      c.openPacket (plainShort 0 [.stream 0 0 [7] false]) =
        ok (.applicationData, 0, .stream 0 0 [7] false :: List.replicate 16 .padding) →
      QuietStep (scripted serverFlights) c (.ingest (plainShort 0 [.stream 0 0 [7] false])) ∧
        UnrefusedStep (scripted serverFlights) c
          (.ingest (plainShort 0 [.stream 0 0 [7] false])) := by
    intro c hshort
    have hunrefused : ∀ (c : Connection Flights) frame,
        (∀ offset data, frame ≠ .crypto offset data) →
          TlsAccepts (scripted serverFlights) .applicationData c frame :=
      fun c frame hframe offset data heq => absurd heq (hframe offset data)
    have haccepts : FramesAlong (scripted serverFlights) .applicationData
        (TlsAccepts (scripted serverFlights) .applicationData)
        (.stream 0 0 [7] false :: List.replicate 16 .padding)
        (c.recordRecvPn .applicationData 0) :=
      ⟨hunrefused _ _ (by simp), fun _ =>
        framesAlong_padding _ (fun c => hunrefused c _ (by simp)) _ _⟩
    refine ⟨fun hstate id pn frames hopen => ?_, fun hstate pn frames hopen => ?_⟩
    · rw [hshort] at hopen
      cases hopen
      exact .inl ⟨rfl, haccepts⟩
    · rw [hshort] at hopen
      cases hopen
      exact haccepts
  have hisolated := handshake_spaces_isolated_iff (R := scripted serverFlights)
  have hfirst := hping _ hopen
  have halone := hstream (plainServer serverFlights) (by decide +kernel)
  have hlast := hping (next (scripted serverFlights) (plainServer serverFlights)
    (.ingest (plainShort 0 [.stream 0 0 [7] false]))) (by decide +kernel)
  refine ⟨hisolated.1 _ _ _ _ _ (by decide +kernel) hopen,
    hisolated.2.1 _ _ _ _ hstarted hstarted
      ⟨hfirst.1, (hstream _ (by decide +kernel)).1, trivial, trivial⟩
      ⟨halone.1, trivial, trivial⟩ (by decide +kernel),
    hisolated.2.2 _ _ _ _ hstarted hstarted
      ⟨halone.1, hlast.1, trivial, trivial⟩ ⟨halone.1, trivial, trivial⟩
      ⟨halone.2, hlast.2, trivial, trivial⟩ ⟨halone.2, trivial, trivial⟩ (by decide +kernel)⟩

/-- Whoever knows the Initial keys puts a byte into the application's stream. -/
theorem initial_packet_injects_data :
    Started (scripted serverFlights) (plainServer serverFlights) ∧
      (plainServer serverFlights).openPacket (plainLong .initial 1 [.stream 0 0 [9] false]) =
        ok (.initial, 1, [.stream 0 0 [9] false] ++ List.replicate 16 .padding) ∧
      (plainServer serverFlights).receivedAppData = [] ∧
      ((plainServer serverFlights).ingest (scripted serverFlights)
        (plainLong .initial 1 [.stream 0 0 [9] false])).1.isOk = true ∧
      ((plainServer serverFlights).ingest (scripted serverFlights)
        (plainLong .initial 1 [.stream 0 0 [9] false])).2.receivedAppData = [9] ∧
      observed (next (scripted serverFlights)) (appInput (scripted serverFlights))
          (plainServer serverFlights)
          [.ingest (plainLong .initial 1 [.stream 0 0 [9] false]), .recvData 4] =
        observed (next (scripted serverFlights)) (appInput (scripted serverFlights))
          (plainServer serverFlights) [.recvData 4] ∧
      observed (next (scripted serverFlights)) returned (plainServer serverFlights)
          [.ingest (plainLong .initial 1 [.stream 0 0 [9] false]), .recvData 4] = [[9]] ∧
      observed (next (scripted serverFlights)) returned (plainServer serverFlights)
          [.recvData 4] = [[]] := by
  exact ⟨plainServer_started (by decide +kernel), by decide +kernel, by decide +kernel,
    by decide +kernel, by decide +kernel, by decide +kernel, by decide +kernel, by decide +kernel⟩

end Connection
end DeerQuic
