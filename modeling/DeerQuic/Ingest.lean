import DeerQuic.Tls

/-!
# What a packet can do

One frame, then the frames of a packet up to the first that TLS refuses, then a whole
datagram. `FrameStep` says everything a frame can do to the connection; a condition on
frames may look at the state each of them is processed in.
-/

namespace DeerQuic

open Outcome Protection

/-- The bytes a frame adds to the application's data. -/
def Frame.streamData : Frame → Bytes
  | .stream _ _ data _ => data
  | _ => []

/-- What processing a packet may log. -/
def Event.Inbound : Event → Prop
  | .tlsRead _ _ | .tlsWrite _ _ _ | .received _ _ | .processed _ _ => True
  | _ => False

/-- A frame without effect on either side, or HANDSHAKE_DONE on the server. -/
def Frame.Idle (side : Side) : Frame → Prop
  | .crypto _ _ | .connectionClose _ _ _ | .stream _ _ _ _ => False
  | .handshakeDone => side ≠ .client
  | _ => True

lemma Frame.Idle.streamData_eq {side : Side} {frame : Frame} (h : frame.Idle side) :
    frame.streamData = [] := by
  cases frame with
  | stream => exact h.elim
  | _ => rfl

namespace Connection

variable {σ : Type} (R : Rustls σ)

lemma level_lt (id : PacketNumberSpace) : pnSpaceToLevel id < 3 := by
  cases id <;> decide

lemma level_inj {id id' : PacketNumberSpace} (h : pnSpaceToLevel id = pnSpaceToLevel id') :
    id = id' := by
  cases id <;> cases id' <;> first | rfl | cases h

section

variable (c : Connection σ) (id id' : PacketNumberSpace) (pn : Nat)

lemma keys_recorded : ((c.recordRecvPn id pn).spaces id').keys = (c.spaces id').keys := by
  by_cases hid : id' = id
  · subst hid
    simp [recordRecvPn, log, setSpace, Space.recordRecvPn]
  · simp [recordRecvPn, log, setSpace, hid]

lemma hasKeys_recorded : ((c.recordRecvPn id pn).spaces id').hasKeys = (c.spaces id').hasKeys :=
  congrArg Option.isSome (keys_recorded c id id' pn)

lemma nextSendPn_recorded :
    ((c.recordRecvPn id pn).spaces id').nextSendPn = (c.spaces id').nextSendPn := by
  by_cases hid : id' = id
  · subst hid
    simp [recordRecvPn, log, setSpace, Space.recordRecvPn]
  · simp [recordRecvPn, log, setSpace, hid]

lemma pendingAcks_recorded :
    ((c.recordRecvPn id pn).spaces id').pendingAcks =
      (c.spaces id').pendingAcks ++ if id' = id then [pn] else [] := by
  by_cases hid : id' = id
  · subst hid
    simp [recordRecvPn, log, setSpace, Space.recordRecvPn]
  · simp [recordRecvPn, log, setSpace, hid]

end

/-- The state after a frame; it is logged unless TLS refused it. -/
def frameNext (id : PacketNumberSpace) (c : Connection σ) (frame : Frame) : Connection σ :=
  match c.processFrame R id frame with
  | (ok _, c) => c.log (.processed id frame)
  | (_, c) => c

variable {R} in
lemma frameNext_of_ok {id : PacketNumberSpace} {c c' : Connection σ} {frame : Frame}
    (h : c.processFrame R id frame = (ok (), c')) :
    frameNext R id c frame = c'.log (.processed id frame) := by
  simp only [frameNext, h]

inductive FrameStep (id : PacketNumberSpace) (c : Connection σ) : Frame → Connection σ → Prop where
  | refused {offset : Nat} {data : Bytes} {e : String} :
      offset = c.cryptoRecvOffset (pnSpaceToLevel id) → (R.readHs c.tls data).2 = .error e →
      FrameStep id c (.crypto offset data) { c with tls := (R.readHs c.tls data).1 }
  | skipped {offset : Nat} {data : Bytes} :
      offset ≠ c.cryptoRecvOffset (pnSpaceToLevel id) →
      FrameStep id c (.crypto offset data) (c.log (.processed id (.crypto offset data)))
  | fed {offset : Nat} {data : Bytes} {c' : Connection σ} :
      offset = c.cryptoRecvOffset (pnSpaceToLevel id) → (R.readHs c.tls data).2 = .ok () →
      TlsRun c (.tlsRead (pnSpaceToLevel id) data ::
        answers R (pnSpaceToLevel id) (R.readHs c.tls data).1) c' →
      FrameStep id c (.crypto offset data) (c'.log (.processed id (.crypto offset data)))
  | closed {errorCode : Nat} {frameType : Option Nat} {reason : Bytes}
      (closeReason : Option ConnectionError) :
      FrameStep id c (.connectionClose errorCode frameType reason)
        ({ c with state := .closed, closeReason }.log
          (.processed id (.connectionClose errorCode frameType reason)))
  | confirmed : c.side = .client →
      FrameStep id c .handshakeDone
        ({ c with state := .established }.log (.processed id .handshakeDone))
  | stream {streamId offset : Nat} {data : Bytes} {fin : Bool} :
      FrameStep id c (.stream streamId offset data fin)
        ({ c with receivedAppData := c.receivedAppData ++ data }.log
          (.processed id (.stream streamId offset data fin)))
  | ignored {frame : Frame} : frame.Idle c.side →
      FrameStep id c frame (c.log (.processed id frame))

lemma frameNext_step (id : PacketNumberSpace) (c : Connection σ) (frame : Frame) :
    FrameStep R id c frame (frameNext R id c frame) := by
  have hlevel := level_lt id
  cases frame with
  | crypto offset data =>
    by_cases hoffset : offset = c.cryptoRecvOffset (pnSpaceToLevel id)
    · rcases feedCrypto_cases R c hlevel data with ⟨e, hread, hfeed⟩ | ⟨hread, c', hfeed, hrun⟩
      · have hnext : frameNext R id c (.crypto offset data) =
            { c with tls := (R.readHs c.tls data).1 } := by
          simp only [frameNext, processFrame, ← hoffset, Nat.le_of_lt_succ hlevel, and_self, if_true,
            hfeed]
        rw [hnext]
        exact .refused hoffset hread
      · have hnext : frameNext R id c (.crypto offset data) =
            c'.log (.processed id (.crypto offset data)) := by
          simp only [frameNext, processFrame, ← hoffset, Nat.le_of_lt_succ hlevel, and_self, if_true,
            hfeed]
        rw [hnext]
        exact .fed hoffset hread hrun
    · have hnext : frameNext R id c (.crypto offset data) =
          c.log (.processed id (.crypto offset data)) := by
        simp only [frameNext, processFrame, hoffset, and_false, if_false]
      rw [hnext]
      exact .skipped hoffset
  | connectionClose errorCode frameType reason => exact .closed _
  | handshakeDone =>
    by_cases hside : c.side = .client
    · have hnext : frameNext R id c .handshakeDone =
          { c with state := .established }.log (.processed id .handshakeDone) := by
        simp only [frameNext, processFrame, hside, if_true]
      rw [hnext]
      exact .confirmed hside
    · have hnext : frameNext R id c .handshakeDone = c.log (.processed id .handshakeDone) := by
        simp only [frameNext, processFrame, hside, if_false]
      rw [hnext]
      exact .ignored hside
  | stream streamId offset data fin => exact .stream
  | _ => exact .ignored trivial

/-- What makes a connection established: HANDSHAKE_DONE at a client, in any space, or, as long as
there are no 1-RTT keys, a chunk of the Handshake level, or one of the Initial level that TLS
answers with two sets of keys. -/
lemma frameNext_settled (id : PacketNumberSpace) (c : Connection σ) (frame : Frame) :
    Settled c (frameNext R id c frame) ∨ (frameNext R id c frame).state = .closed ∨
      (frameNext R id c frame).state = .established ∧
        (frame = .handshakeDone ∧ c.side = .client ∨
          ∃ offset data, frame = .crypto offset data ∧
            offset = c.cryptoRecvOffset (pnSpaceToLevel id) ∧
            (c.spaces .applicationData).hasKeys = false ∧
            (id = .handshake ∨ id = .initial ∧ AnnouncesTwice R c.tls data)) := by
  cases frame with
  | crypto offset data =>
    by_cases hoffset : offset = c.cryptoRecvOffset (pnSpaceToLevel id)
    · have hfeed := feedCrypto_settled R c (level_lt id) data
      have hnext : (frameNext R id c (.crypto offset data)).state =
          (c.feedCrypto R (pnSpaceToLevel id) data).2.state ∧
          (frameNext R id c (.crypto offset data)).spaces =
            (c.feedCrypto R (pnSpaceToLevel id) data).2.spaces := by
        simp only [frameNext, processFrame, ← hoffset, Nat.le_of_lt_succ (level_lt id), and_self,
          if_true]
        rcases c.feedCrypto R (pnSpaceToLevel id) data with ⟨_ | _ | _, c'⟩ <;> exact ⟨rfl, rfl⟩
      rcases hfeed with hsettled | ⟨hstate, hunkeyed, hlevel⟩
      · refine .inl ⟨hnext.1.trans hsettled.1, fun hkeys => hsettled.2 ?_⟩
        rwa [hnext.2] at hkeys
      · refine .inr (.inr ⟨hnext.1.trans hstate, .inr ⟨offset, data, rfl, hoffset, hunkeyed, ?_⟩⟩)
        cases id with
        | initial => exact .inr ⟨rfl, (hlevel.resolve_left (by decide)).2⟩
        | handshake => exact .inl rfl
        | applicationData => rcases hlevel with hlevel | ⟨hlevel, _⟩ <;> cases hlevel
    · have hnext : frameNext R id c (.crypto offset data) =
          c.log (.processed id (.crypto offset data)) := by
        simp only [frameNext, processFrame, hoffset, and_false, if_false]
      rw [hnext]
      exact .inl ⟨rfl, fun hkeys => hkeys⟩
  | connectionClose errorCode frameType reason => exact .inr (.inl rfl)
  | handshakeDone =>
    by_cases hside : c.side = .client
    · refine .inr (.inr ⟨?_, .inl ⟨rfl, hside⟩⟩)
      simp only [frameNext, processFrame, hside, if_true]
      rfl
    · refine .inl ?_
      simp only [frameNext, processFrame, hside, if_false]
      exact ⟨rfl, fun hkeys => hkeys⟩
  | _ => exact .inl ⟨rfl, fun hkeys => hkeys⟩

lemma frameNext_history (id : PacketNumberSpace) (c : Connection σ) (frame : Frame) :
    ∃ es, (frameNext R id c frame).history = c.history ++ es ∧ ∀ e ∈ es, e.Inbound := by
  generalize hnext : frameNext R id c frame = c'
  have hstep := frameNext_step R id c frame
  rw [hnext] at hstep
  cases hstep with
  | refused _ _ => exact ⟨[], (List.append_nil _).symm, by simp⟩
  | fed _ _ hrun =>
    refine ⟨_, by rw [log, hrun.history_eq, List.append_assoc], fun e he => ?_⟩
    rcases List.mem_append.mp he with he | he
    · rcases hrun.events he with ⟨_, _, rfl⟩ | ⟨_, _, _, rfl⟩ <;> trivial
    · exact List.mem_singleton.mp he ▸ trivial
  | skipped _ | closed _ | confirmed _ | stream | ignored _ =>
    exact ⟨_, rfl, fun e he => List.mem_singleton.mp he ▸ trivial⟩

lemma frameNext_offset (id : PacketNumberSpace) {c : Connection σ} {data : Bytes}
    (hread : (R.readHs c.tls data).2 = .ok ()) :
    (frameNext R id c (.crypto (c.cryptoRecvOffset (pnSpaceToLevel id)) data)).cryptoRecvOffset =
      Function.update c.cryptoRecvOffset (pnSpaceToLevel id)
        (c.cryptoRecvOffset (pnSpaceToLevel id) + data.length) := by
  rw [← feedCrypto_offset R (pnSpaceToLevel id) hread]
  simp only [frameNext, processFrame, Nat.le_of_lt_succ (level_lt id), and_self, if_true]
  rcases c.feedCrypto R (pnSpaceToLevel id) data with ⟨_ | _ | _, c'⟩ <;> rfl

/-- `allowed` holds of each frame that is processed, in the state it is processed in. -/
def FramesAlong (id : PacketNumberSpace) (allowed : Connection σ → Frame → Prop) :
    List Frame → Connection σ → Prop
  | [], _ => True
  | frame :: frames, c => allowed c frame ∧
      ((c.processFrame R id frame).1 = ok () → FramesAlong id allowed frames (frameNext R id c frame))

/-- Processing goes on behind a frame exactly when the frame went well. -/
lemma processFrames_cons (id : PacketNumberSpace) (frame : Frame) (frames : List Frame)
    (c : Connection σ) :
    (processFrames R id (frame :: frames) c).2 =
      if (c.processFrame R id frame).1 = ok () then
        (processFrames R id frames (frameNext R id c frame)).2
      else frameNext R id c frame := by
  rcases hframe : c.processFrame R id frame with ⟨_ | _ | _, c'⟩ <;>
    simp [processFrames, frameNext, hframe]

/-- The chunk of a CRYPTO frame that starts at the receive offset is one that TLS takes. -/
def TlsAccepts (id : PacketNumberSpace) (c : Connection σ) (frame : Frame) : Prop :=
  ∀ offset data, frame = .crypto offset data → offset = c.cryptoRecvOffset (pnSpaceToLevel id) →
    (R.readHs c.tls data).2 = .ok ()

/-- Nothing else makes a frame fail. -/
lemma processFrame_ok_iff (id : PacketNumberSpace) (c : Connection σ) (frame : Frame) :
    (c.processFrame R id frame).1 = ok () ↔ TlsAccepts R id c frame := by
  have hlevel := level_lt id
  cases frame with
  | crypto offset data =>
    constructor
    · rintro hok _ _ heq hoffset
      obtain ⟨rfl, rfl⟩ := Frame.crypto.inj heq
      rcases feedCrypto_cases R c hlevel data with ⟨e, -, hrefused⟩ | ⟨hread, -⟩
      · simp [processFrame, hoffset, Nat.le_of_lt_succ hlevel, hrefused] at hok
      · exact hread
    · intro haccepts
      by_cases hoffset : offset = c.cryptoRecvOffset (pnSpaceToLevel id)
      · have hread := haccepts offset data rfl hoffset
        rcases feedCrypto_cases R c hlevel data with ⟨e, hrefused, -⟩ | ⟨-, c', hfed, -⟩
        · rw [hread] at hrefused
          cases hrefused
        · simp [processFrame, hoffset, Nat.le_of_lt_succ hlevel, hfed]
      · simp [processFrame, hoffset]
  | handshakeDone =>
    refine iff_of_true ?_ fun _ _ heq => by cases heq
    by_cases hside : c.side = .client <;> simp [processFrame, hside]
  | _ => exact iff_of_true rfl fun _ _ heq => by cases heq

lemma processFrames_ok_iff (id : PacketNumberSpace) (frames : List Frame) (c : Connection σ) :
    (processFrames R id frames c).1 = ok () ↔ FramesAlong R id (TlsAccepts R id) frames c := by
  induction frames generalizing c with
  | nil => exact iff_of_true rfl trivial
  | cons frame frames ih =>
    have hframe := processFrame_ok_iff R id c frame
    rw [FramesAlong, ← hframe]
    rcases hstep : c.processFrame R id frame with ⟨_ | _ | _, c'⟩
    · simp [processFrames, hstep, ih, frameNext]
    · simp [processFrames, hstep]
    · simp [processFrames, hstep]

lemma processFrames_along {id : PacketNumberSpace} {allowed : Connection σ → Frame → Prop}
    {P : Connection σ → Prop}
    (step : ∀ c frame, P c → allowed c frame → P (frameNext R id c frame))
    {frames : List Frame} {c : Connection σ} (start : P c)
    (along : FramesAlong R id allowed frames c) : P (processFrames R id frames c).2 := by
  induction frames generalizing c with
  | nil => exact start
  | cons frame frames ih =>
    rw [processFrames_cons]
    split_ifs with hok
    · exact ih (step c frame start along.1) (along.2 hok)
    · exact step c frame start along.1

/-- The frames that keep a property which does not come back once it is lost. -/
lemma processFrames_along_iff {id : PacketNumberSpace} {allowed : Connection σ → Frame → Prop}
    {P : Connection σ → Prop}
    (exact_step : ∀ c frame, P c → (P (frameNext R id c frame) ↔ allowed c frame))
    (lasting : ∀ c frame, P (frameNext R id c frame) → P c) {frames : List Frame}
    {c : Connection σ} (start : P c) :
    P (processFrames R id frames c).2 ↔ FramesAlong R id allowed frames c := by
  have hlasting : ∀ (frames : List Frame) (c : Connection σ),
      P (processFrames R id frames c).2 → P c := by
    intro frames
    induction frames with
    | nil => exact fun c h => h
    | cons frame frames ih =>
      intro c h
      rw [processFrames_cons] at h
      split_ifs at h
      · exact lasting c frame (ih _ h)
      · exact lasting c frame h
  induction frames generalizing c with
  | nil => exact iff_of_true start trivial
  | cons frame frames ih =>
    rw [processFrames_cons]
    by_cases hok : (c.processFrame R id frame).1 = ok ()
    · rw [if_pos hok]
      constructor
      · intro h
        have hnext := hlasting frames _ h
        exact ⟨(exact_step c frame start).mp hnext, fun _ => (ih hnext).mp h⟩
      · rintro ⟨hallowed, hrest⟩
        exact (ih ((exact_step c frame start).mpr hallowed)).mpr (hrest hok)
    · rw [if_neg hok, exact_step c frame start]
      exact ⟨fun h => ⟨h, fun hok' => absurd hok' hok⟩, And.left⟩

lemma framesAlong_of_forall {id : PacketNumberSpace} {allowed : Connection σ → Frame → Prop}
    {frames : List Frame} (h : ∀ c, ∀ frame ∈ frames, allowed c frame) (c : Connection σ) :
    FramesAlong R id allowed frames c := by
  induction frames generalizing c with
  | nil => trivial
  | cons frame frames ih =>
    exact ⟨h c frame List.mem_cons_self,
      fun _ => ih (fun c f hf => h c f (List.mem_cons_of_mem _ hf)) _⟩

/-- What every frame of such a kind keeps, a packet of them keeps. -/
lemma processFrames_forall {id : PacketNumberSpace} {p : Frame → Prop} {P : Connection σ → Prop}
    (step : ∀ c frame, P c → p frame → P (frameNext R id c frame)) {frames : List Frame}
    {c : Connection σ} (start : P c) (h : ∀ frame ∈ frames, p frame) :
    P (processFrames R id frames c).2 :=
  processFrames_along R step start (framesAlong_of_forall R (fun _ => h) c)

/-- What stands behind the frames of a small packet. -/
lemma framesAlong_padding {id : PacketNumberSpace} {allowed : Connection σ → Frame → Prop}
    (h : ∀ c, allowed c .padding) (k : Nat) (c : Connection σ) :
    FramesAlong R id allowed (List.replicate k .padding) c := by
  apply framesAlong_of_forall
  intro c frame hframe
  rw [List.eq_of_mem_replicate hframe]
  exact h c

lemma processFrames_always {id : PacketNumberSpace} {P : Connection σ → Prop}
    (step : ∀ c frame, P c → P (frameNext R id c frame)) {c : Connection σ} (start : P c)
    (frames : List Frame) : P (processFrames R id frames c).2 := by
  have hany : FramesAlong R id (fun _ _ => True) frames c :=
    framesAlong_of_forall R (fun _ _ _ => trivial) c
  exact processFrames_along R (fun c frame h _ => step c frame h) start hany

/-- A condition on the frames of the packet that `buf` opens to, if it does. -/
def IngestAlong (allowed : PacketNumberSpace → Connection σ → Frame → Prop) (c : Connection σ)
    (buf : Bytes) : Prop :=
  c.state ≠ .closed → ∀ id pn frames, c.openPacket buf = ok (id, pn, frames) →
    FramesAlong R id (allowed id) frames (c.recordRecvPn id pn)

/-- A datagram that is not opened changes nothing. -/
lemma ingest_cases (c : Connection σ) (buf : Bytes) :
    (c.ingest R buf).2 = c ∨
      ∃ id pn frames, c.state ≠ .closed ∧ c.openPacket buf = ok (id, pn, frames) ∧
        (c.ingest R buf).2 = (processFrames R id frames (c.recordRecvPn id pn)).2 := by
  unfold ingest
  split_ifs with hclosed hempty
  · exact .inl rfl
  · exact .inl rfl
  · cases hopen : c.openPacket buf with
    | err e => exact .inl rfl
    | panic => exact .inl rfl
    | ok opened =>
      obtain ⟨id, pn, frames⟩ := opened
      refine .inr ⟨id, pn, frames, hclosed, rfl, ?_⟩
      rcases hframes : processFrames R id frames (c.recordRecvPn id pn) with ⟨_ | _ | _, c'⟩ <;>
        simp [hframes]

/-- An open connection opens the datagram, or nothing changes. -/
lemma opened_or (c : Connection σ) (buf : Bytes) :
    (∃ id pn frames, c.state ≠ .closed ∧ c.openPacket buf = ok (id, pn, frames)) ∨
      (c.ingest R buf).2 = c ∧ (c.state ≠ .closed → ∀ opened, c.openPacket buf ≠ ok opened) := by
  by_cases hopened : c.state ≠ .closed ∧ ∃ opened, c.openPacket buf = ok opened
  · obtain ⟨hstate, ⟨id, pn, frames⟩, hopen⟩ := hopened
    exact .inl ⟨id, pn, frames, hstate, hopen⟩
  · have hnone : c.state ≠ .closed → ∀ opened, c.openPacket buf ≠ ok opened :=
      fun hstate opened hopen => hopened ⟨hstate, opened, hopen⟩
    rcases ingest_cases R c buf with hsame | ⟨id, pn, frames, hstate, hopen, -⟩
    · exact .inr ⟨hsame, hnone⟩
    · exact absurd hopen (hnone hstate _)

/-- What is made of the packet that opens is made of nothing where none does. -/
lemma made_unopened {α : Type} {c : Connection σ} {buf : Bytes}
    (h : c.state ≠ .closed → ∀ opened, c.openPacket buf ≠ ok opened)
    (make : PacketNumberSpace → Nat → List Frame → List α) :
    (if c.state = .closed then []
      else match c.openPacket buf with
        | ok (id, pn, frames) => make id pn frames
        | _ => []) = [] := by
  split_ifs with hclosed
  · rfl
  · cases hopen : c.openPacket buf with
    | ok opened => exact absurd hopen (h hclosed opened)
    | err _ | panic => rfl

lemma ingest_opened {c : Connection σ} {buf : Bytes} {id : PacketNumberSpace} {pn : Nat}
    {frames : List Frame} (hopened : c.state ≠ .closed)
    (hopen : c.openPacket buf = ok (id, pn, frames)) :
    c.ingest R buf =
      ((processFrames R id frames (c.recordRecvPn id pn)).1 >>= fun _ => ok buf.length,
        (processFrames R id frames (c.recordRecvPn id pn)).2) := by
  have hbuf : buf ≠ [] := by
    rintro rfl
    cases hopen
  unfold ingest
  rw [if_neg hopened, if_neg (by simpa using hbuf), hopen]
  dsimp only
  rcases hframes : processFrames R id frames (c.recordRecvPn id pn) with ⟨_ | _ | _, c'⟩ <;>
    simp

lemma ingest_of_open {c : Connection σ} {buf : Bytes} {id : PacketNumberSpace} {pn : Nat}
    {frames : List Frame} (hopened : c.state ≠ .closed)
    (hopen : c.openPacket buf = ok (id, pn, frames)) :
    (c.ingest R buf).2 = (processFrames R id frames (c.recordRecvPn id pn)).2 := by
  rw [ingest_opened R hopened hopen]

lemma ingest_result {c : Connection σ} {buf : Bytes} {id : PacketNumberSpace} {pn : Nat}
    {frames : List Frame} (hopened : c.state ≠ .closed)
    (hopen : c.openPacket buf = ok (id, pn, frames)) :
    (c.ingest R buf).1 =
      (processFrames R id frames (c.recordRecvPn id pn)).1 >>= fun _ => ok buf.length := by
  rw [ingest_opened R hopened hopen]

/-- Only the frames that the datagram opens to matter. -/
lemma ingestAlong_of_open {allowed : PacketNumberSpace → Connection σ → Frame → Prop}
    {c : Connection σ} {buf : Bytes} {id : PacketNumberSpace} {pn : Nat} {frames : List Frame}
    (hopen : c.openPacket buf = ok (id, pn, frames))
    (h : FramesAlong R id (allowed id) frames (c.recordRecvPn id pn)) :
    IngestAlong R allowed c buf := by
  intro _ id' pn' frames' hopen'
  rw [hopen] at hopen'
  cases hopen'
  exact h

lemma ingest_along {allowed : PacketNumberSpace → Connection σ → Frame → Prop}
    {P : Connection σ → Prop} (recorded : ∀ c id pn, P c → P (c.recordRecvPn id pn))
    (step : ∀ id c frame, P c → allowed id c frame → P (frameNext R id c frame))
    {c : Connection σ} {buf : Bytes} (start : P c) (along : IngestAlong R allowed c buf) :
    P (c.ingest R buf).2 := by
  rcases ingest_cases R c buf with hsame | ⟨id, pn, frames, hopened, hopen, hnext⟩
  · rw [hsame]
    exact start
  · rw [hnext]
    exact processFrames_along R (step id) (recorded c id pn start) (along hopened id pn frames hopen)

/-- What every frame keeps, every datagram keeps. -/
lemma ingest_always {P : Connection σ → Prop} (recorded : ∀ c id pn, P c → P (c.recordRecvPn id pn))
    (step : ∀ id c frame, P c → P (frameNext R id c frame)) {c : Connection σ} (start : P c)
    (buf : Bytes) : P (c.ingest R buf).2 := by
  rcases ingest_cases R c buf with hsame | ⟨id, pn, frames, _, _, hnext⟩
  · rw [hsame]
    exact start
  · rw [hnext]
    exact processFrames_always R (step id) (recorded c id pn start) frames

/-- The datagrams that keep such a property. -/
lemma ingest_along_iff {allowed : PacketNumberSpace → Connection σ → Frame → Prop}
    {P : Connection σ → Prop} (recorded : ∀ c id pn, P (c.recordRecvPn id pn) ↔ P c)
    (exact_step : ∀ id c frame, P c → (P (frameNext R id c frame) ↔ allowed id c frame))
    (lasting : ∀ id c frame, P (frameNext R id c frame) → P c) {c : Connection σ} (buf : Bytes)
    (start : P c) : P (c.ingest R buf).2 ↔ IngestAlong R allowed c buf := by
  have hopened : ∀ id pn frames, c.state ≠ .closed → c.openPacket buf = ok (id, pn, frames) →
      (P (c.ingest R buf).2 ↔ FramesAlong R id (allowed id) frames (c.recordRecvPn id pn)) := by
    intro id pn frames hopened hopen
    rw [ingest_of_open R hopened hopen]
    exact processFrames_along_iff R (exact_step id) (lasting id) ((recorded c id pn).mpr start)
  constructor
  · intro h hstate id pn frames hopen
    exact (hopened id pn frames hstate hopen).mp h
  · intro h
    rcases ingest_cases R c buf with hsame | ⟨id, pn, frames, hstate, hopen, _⟩
    · rw [hsame]
      exact start
    · exact (hopened id pn frames hstate hopen).mpr (h hstate id pn frames hopen)

lemma ingest_history (c : Connection σ) (buf : Bytes) :
    ∃ es, (c.ingest R buf).2.history = c.history ++ es ∧ ∀ e ∈ es, e.Inbound := by
  refine ingest_always (P := fun c' => ∃ es, c'.history = c.history ++ es ∧ ∀ e ∈ es, e.Inbound)
    R ?_ ?_ ⟨[], (List.append_nil _).symm, by simp⟩ buf
  · rintro c' id pn ⟨es, hes, hin⟩
    refine ⟨es ++ [.received id pn], by simp [recordRecvPn, log, setSpace, hes], fun e he => ?_⟩
    exact (List.mem_append.mp he).elim (hin e) fun he => List.mem_singleton.mp he ▸ trivial
  · rintro id c' frame ⟨es, hes, hin⟩
    obtain ⟨es', hes', hin'⟩ := frameNext_history R id c' frame
    exact ⟨es ++ es', by rw [hes', hes, List.append_assoc],
      fun e he => (List.mem_append.mp he).elim (hin e) (hin' e)⟩

lemma processFrames_history (id : PacketNumberSpace) (frames : List Frame) (c : Connection σ) :
    ∃ es, (processFrames R id frames c).2.history = c.history ++ es := by
  induction frames generalizing c with
  | nil => exact ⟨[], (List.append_nil _).symm⟩
  | cons frame frames ih =>
    obtain ⟨es, hes, _⟩ := frameNext_history R id c frame
    rw [processFrames_cons]
    split_ifs
    · obtain ⟨es', hes'⟩ := ih (frameNext R id c frame)
      exact ⟨es ++ es', by rw [hes', hes, List.append_assoc]⟩
    · exact ⟨es, hes⟩

lemma processed_of_ok {id : PacketNumberSpace} {frames : List Frame} {c : Connection σ}
    (hok : (processFrames R id frames c).1 = ok ()) {f : Frame} (hf : f ∈ frames) :
    .processed id f ∈ (processFrames R id frames c).2.history := by
  induction frames generalizing c with
  | nil => cases hf
  | cons frame frames ih =>
    rcases hframe : c.processFrame R id frame with ⟨_ | _ | _, c'⟩
    · simp only [processFrames, hframe] at hok ⊢
      rcases List.mem_cons.mp hf with rfl | hf
      · obtain ⟨es, hes⟩ := processFrames_history R id frames (c'.log (.processed id f))
        rw [hes]
        exact List.mem_append_left _ (List.mem_append_right _ (List.mem_singleton_self _))
      · exact ih hok hf
    · simp [processFrames, hframe] at hok
    · simp [processFrames, hframe] at hok

/-- All frames of an accepted datagram are processed. -/
lemma processed_of_accepted {c : Connection σ} {buf : Bytes} {id : PacketNumberSpace} {pn : Nat}
    {frames : List Frame} (hopen : c.openPacket buf = ok (id, pn, frames))
    (haccepted : (c.ingest R buf).1.isOk = true) {f : Frame} (hf : f ∈ frames) :
    .processed id f ∈ (c.ingest R buf).2.history := by
  have hstate : c.state ≠ .closed := by
    intro hclosed
    simp [ingest, hclosed, isOk] at haccepted
  have hok : (processFrames R id frames (c.recordRecvPn id pn)).1 = ok () := by
    have hbuf : buf ≠ [] := by
      rintro rfl
      cases hopen
    unfold ingest at haccepted
    rw [if_neg hstate, if_neg (by simpa using hbuf), hopen] at haccepted
    dsimp only at haccepted
    rcases hframes : processFrames R id frames (c.recordRecvPn id pn) with ⟨_ | _ | _, c'⟩
    · rfl
    · simp [hframes, isOk] at haccepted
    · simp [hframes, isOk] at haccepted
  rw [ingest_of_open R hstate hopen]
  exact processed_of_ok R hok hf

end Connection
end DeerQuic
