import DeerQuic.Acks
import DeerQuic.ClientHello

/-!
# Whether all handshake data get to TLS

The number of a packet that opens is recorded before its frames are looked at, and so it will be
acknowledged whatever becomes of them. Of its CRYPTO frames those get to TLS that form a chain, each
starting where the one before it ended; the others are dropped, also when they hold bytes TLS has
not seen.
-/

namespace DeerQuic

open Outcome Protection Transition

/-- Offset and data of a CRYPTO frame. Other frames bring nothing. -/
def Frame.chunk : Frame → Nat × Bytes
  | .crypto offset data => (offset, data)
  | _ => (0, [])

/-- The frame brings byte `i` of its level's stream. -/
def Frame.Covers (i : Nat) (frame : Frame) : Prop :=
  frame.chunk.1 ≤ i ∧ i < frame.chunk.1 + frame.chunk.2.length

/-- Nothing that the frame brings lies behind `bound`. -/
def Frame.EndsBy (bound : Nat) (frame : Frame) : Prop :=
  frame.chunk.2 = [] ∨ frame.chunk.1 + frame.chunk.2.length ≤ bound

instance (bound : Nat) (frame : Frame) : Decidable (frame.EndsBy bound) :=
  inferInstanceAs (Decidable (_ = [] ∨ _ ≤ _))

lemma Frame.endsBy_iff {bound : Nat} {frame : Frame} :
    frame.EndsBy bound ↔ ∀ i, frame.Covers i → i < bound := by
  unfold EndsBy Covers
  constructor
  · rintro (hnone | hend) i ⟨hlow, hhigh⟩
    · rw [hnone] at hhigh
      exact absurd hhigh (Nat.not_lt.mpr hlow)
    · exact Nat.lt_of_lt_of_le hhigh hend
  · intro hcovered
    by_cases hnone : frame.chunk.2 = []
    · exact .inl hnone
    · have hpos := List.length_pos_iff.mpr hnone
      have hlast := hcovered (frame.chunk.1 + frame.chunk.2.length - 1) ⟨by omega, by omega⟩
      exact .inr (by omega)

lemma Frame.EndsBy.mono {bound bound' : Nat} {frame : Frame} (h : frame.EndsBy bound)
    (hle : bound ≤ bound') : frame.EndsBy bound' :=
  h.imp id fun hend => hend.trans hle

/-- Where those CRYPTO frames lead that each start where the one before them ended, the first of
them at `offset`. -/
def chainEnd (offset : Nat) (frames : List Frame) : Nat :=
  frames.foldl (fun offset frame =>
    if frame.chunk.1 = offset then offset + frame.chunk.2.length else offset) offset

lemma chainEnd_cons (offset : Nat) (frame : Frame) (frames : List Frame) :
    chainEnd offset (frame :: frames) = chainEnd (chainEnd offset [frame]) frames := rfl

lemma le_chainEnd (offset : Nat) (frames : List Frame) : offset ≤ chainEnd offset frames := by
  induction frames generalizing offset with
  | nil => exact Nat.le_refl offset
  | cons frame frames ih =>
    have hfirst : offset ≤ chainEnd offset [frame] := by
      change offset ≤ if _ then _ else _
      split_ifs
      · exact Nat.le_add_right _ _
      · exact Nat.le_refl _
    rw [chainEnd_cons]
    exact hfirst.trans (ih _)

/-- A packet whose number was recorded, and so is scheduled for acknowledgement. -/
structure Opened where
  space : PacketNumberSpace
  pn : Nat
  frames : List Frame
  deriving DecidableEq

/-- The numbers of the packets of the space. -/
def numbersIn (id : PacketNumberSpace) (packets : List Opened) : List Nat :=
  packets.flatMap fun p => if id = p.space then [p.pn] else []

/-- One of the packets brought byte `i` of the level's stream. -/
def Offered (id : PacketNumberSpace) (packets : List Opened) (i : Nat) : Prop :=
  ∃ p ∈ packets, p.space = id ∧ ∃ f ∈ p.frames, f.Covers i

namespace Connection

variable {σ : Type} {R : Rustls σ}

/-- The packet that `ingest` records. -/
def recorded (c : Connection σ) : Op → List Opened
  | .ingest buf =>
    if c.state = .closed then []
    else match c.openPacket buf with
      | ok (id, pn, frames) => [⟨id, pn, frames⟩]
      | _ => []
  | _ => []

variable (R) in
/-- The connection, and beside it the packets it has recorded. -/
def recording (x : Connection σ × List Opened) (op : Op) : Connection σ × List Opened :=
  (next R x.1 op, x.2 ++ recorded x.1 op)

variable (R) in
/-- A connection as the application gets it, with what it has recorded: a server its client's
first packet, as number 0. -/
inductive StartedWith : Connection σ → List Opened → Prop where
  | connect {serverName : String} {dstCid srcCid packet : Bytes} {c : Connection σ} :
      dstCid.length = 8 → srcCid.length = 8 →
      connect R serverName dstCid srcCid = ok (c, packet) → StartedWith c []
  | accept {datagram : Bytes} {frames : List Frame} {c : Connection σ} :
      accept R datagram = ok c → firstFrames R datagram = ok frames →
      StartedWith c [⟨.initial, 0, frames⟩]

/-- All connections start so. -/
theorem startedWith_of_started {c : Connection σ} (h : Started R c) :
    ∃ first, StartedWith R c first := by
  cases h with
  | connect hdst hsrc hconnect => exact ⟨_, .connect hdst hsrc hconnect⟩
  | @accept datagram _ haccept =>
    obtain ⟨hdr, keys, frames, tls, -, ⟨⟨n, hparse⟩, hkeys, ⟨pn, hdecrypt⟩, -⟩, -⟩ :=
      accept_greeting haccept
    have hframes : firstFrames R datagram = ok frames := by
      simp [firstFrames, hparse, hkeys, hdecrypt]
    exact ⟨_, .accept haccept hframes⟩

/-- TLS has every byte that a recorded packet brought. -/
def HandedOver (x : Connection σ × List Opened) : Prop :=
  ∀ id i, Offered id x.2 i → i < x.1.cryptoRecvOffset (pnSpaceToLevel id)

/-- A stream prefix that the recorded packets cover has been read. -/
def ReadsCovered (x : Connection σ × List Opened) : Prop :=
  ∀ id n, (∀ i < n, Offered id x.2 i) → n ≤ x.1.cryptoRecvOffset (pnSpaceToLevel id)

/-- What TLS has read is the front of the peer's streams, with all that was recorded of them. -/
def Delivered (S : Nat → Bytes) (x : Connection σ × List Opened) : Prop :=
  ReadsFront S x.1 ∧ HandedOver x ∧ ReadsCovered x

variable (R) in
/-- TLS refuses no chunk. -/
def AcceptsStep (c : Connection σ) : Op → Prop
  | .ingest buf => IngestAlong R (TlsAccepts R) c buf
  | _ => True

/-- No CRYPTO frame of a packet ends behind the chain of those that start where TLS is. -/
def ReachesStep (c : Connection σ) (op : Op) : Prop :=
  ∀ p ∈ recorded c op, ∀ f ∈ p.frames,
    f.EndsBy (chainEnd (c.cryptoRecvOffset (pnSpaceToLevel p.space)) p.frames)

/-- The ClientHello that a server puts together from its first packet is the front of the stream,
and no CRYPTO frame of the packet ends behind it. -/
def HelloReaches (S : Nat → Bytes) (first : List Opened) : Prop :=
  ∀ p ∈ first, clientHelloOf p.frames <+: S 0 ∧
    ∀ f ∈ p.frames, f.EndsBy (clientHelloOf p.frames).length

lemma recorded_opened {c : Connection σ} {buf : Bytes} {id : PacketNumberSpace} {pn : Nat}
    {frames : List Frame} (hstate : c.state ≠ .closed)
    (hopen : c.openPacket buf = ok (id, pn, frames)) :
    recorded c (.ingest buf) = [⟨id, pn, frames⟩] := by
  simp only [recorded, hstate, hopen, if_false]

lemma recorded_unopened {c : Connection σ} {buf : Bytes}
    (h : c.state ≠ .closed → ∀ opened, c.openPacket buf ≠ ok opened) :
    recorded c (.ingest buf) = [] :=
  made_unopened h fun id pn frames => [Opened.mk id pn frames]

lemma chainEnd_other {offset : Nat} {frame : Frame} (h : frame.chunk = (0, [])) :
    chainEnd offset [frame] = offset := by
  simp [chainEnd, h]

lemma chainEnd_skipped {offset start : Nat} {data : Bytes} (h : start ≠ offset) :
    chainEnd offset [.crypto start data] = offset := by
  simp [chainEnd, Frame.chunk, h]

/-- Where TLS stands behind a frame that it does not refuse. -/
lemma offset_frameNext {id : PacketNumberSpace} {c : Connection σ} {frame : Frame}
    (haccepts : TlsAccepts R id c frame) :
    (frameNext R id c frame).cryptoRecvOffset =
      Function.update c.cryptoRecvOffset (pnSpaceToLevel id)
        (chainEnd (c.cryptoRecvOffset (pnSpaceToLevel id)) [frame]) := by
  generalize hnext : frameNext R id c frame = c'
  have hstep := frameNext_step R id c frame
  rw [hnext] at hstep
  cases hstep with
  | refused hoffset hrefused =>
    rw [haccepts _ _ rfl hoffset] at hrefused
    cases hrefused
  | fed hoffset hread _ =>
    subst hoffset
    rw [← hnext, frameNext_offset R id hread]
    simp [chainEnd, Frame.chunk]
  | skipped hoffset =>
    rw [chainEnd_skipped hoffset, Function.update_eq_self]
    rfl
  | closed _ | confirmed _ | stream =>
    rw [chainEnd_other rfl, Function.update_eq_self]
    rfl
  | ignored hidle =>
    have hnone : frame.chunk = (0, []) := by
      cases frame with
      | crypto => exact hidle.elim
      | _ => rfl
    rw [chainEnd_other hnone, Function.update_eq_self]
    rfl

lemma offset_processFrames {id : PacketNumberSpace} {frames : List Frame} {c : Connection σ}
    (haccepts : FramesAlong R id (TlsAccepts R id) frames c) :
    (processFrames R id frames c).2.cryptoRecvOffset =
      Function.update c.cryptoRecvOffset (pnSpaceToLevel id)
        (chainEnd (c.cryptoRecvOffset (pnSpaceToLevel id)) frames) := by
  induction frames generalizing c with
  | nil => exact (Function.update_eq_self _ _).symm
  | cons frame frames ih =>
    have hok := (processFrame_ok_iff R id c frame).mpr haccepts.1
    rw [processFrames_cons, if_pos hok, ih (haccepts.2 hok), offset_frameNext haccepts.1,
      Function.update_self, Function.update_idem, ← chainEnd_cons]

lemma handedOver_iff {x : Connection σ × List Opened} :
    HandedOver x ↔ ∀ p ∈ x.2, ∀ f ∈ p.frames,
      f.EndsBy (x.1.cryptoRecvOffset (pnSpaceToLevel p.space)) := by
  constructor
  · intro h p hp f hf
    exact Frame.endsBy_iff.mpr fun i hi => h p.space i ⟨p, hp, rfl, f, hf, hi⟩
  · rintro h _ i ⟨p, hp, rfl, f, hf, hi⟩
    exact Frame.endsBy_iff.mp (h p hp f hf) i hi

lemma HandedOver.readsCovered {x : Connection σ × List Opened} (h : HandedOver x) :
    ReadsCovered x := by
  intro id n hcovered
  rcases Nat.eq_zero_or_pos n with rfl | hpos
  · exact Nat.zero_le _
  · have hlast := h id (n - 1) (hcovered (n - 1) (by omega))
    omega

lemma handedOver_opened_iff {x : Connection σ × List Opened} {buf : Bytes}
    {id : PacketNumberSpace} {pn : Nat} {frames : List Frame} (h : HandedOver x)
    (hstate : x.1.state ≠ .closed) (hopen : x.1.openPacket buf = ok (id, pn, frames))
    (haccepts : FramesAlong R id (TlsAccepts R id) frames (x.1.recordRecvPn id pn)) :
    HandedOver (recording R x (.ingest buf)) ↔ ReachesStep x.1 (.ingest buf) := by
  have hoffset : (next R x.1 (.ingest buf)).cryptoRecvOffset =
      Function.update x.1.cryptoRecvOffset (pnSpaceToLevel id)
        (chainEnd (x.1.cryptoRecvOffset (pnSpaceToLevel id)) frames) := by
    rw [next, ingest_of_open R hstate hopen, offset_processFrames haccepts]
    rfl
  have hgrows : ∀ level,
      x.1.cryptoRecvOffset level ≤ (next R x.1 (.ingest buf)).cryptoRecvOffset level := by
    intro level
    rw [hoffset]
    by_cases hlevel : level = pnSpaceToLevel id
    · rw [hlevel, Function.update_self]
      exact le_chainEnd _ frames
    · rw [Function.update_of_ne hlevel]
  rw [handedOver_iff] at h ⊢
  unfold recording ReachesStep
  rw [recorded_opened hstate hopen, hoffset]
  constructor
  · rintro hnext p hp f hf
    have hlast := hnext p (List.mem_append_right _ hp) f hf
    obtain rfl := List.mem_singleton.mp hp
    simpa using hlast
  · rintro hreaches p hp f hf
    rw [← hoffset]
    rcases List.mem_append.mp hp with hold | hnew
    · exact (h p hold f hf).mono (hgrows _)
    · have hlast := hreaches p hnew f hf
      obtain rfl := List.mem_singleton.mp hnew
      rw [hoffset]
      simpa using hlast

/-- Only the packet just opened can bring bytes that TLS has not got. -/
lemma handedOver_recording_iff {x : Connection σ × List Opened} {op : Op} (h : HandedOver x)
    (haccepts : AcceptsStep R x.1 op) : HandedOver (recording R x op) ↔ ReachesStep x.1 op := by
  have hquiet : recorded x.1 op = [] →
      (next R x.1 op).cryptoRecvOffset = x.1.cryptoRecvOffset →
      (HandedOver (recording R x op) ↔ ReachesStep x.1 op) := by
    intro hnone hoffset
    refine iff_of_true ?_ ?_
    · unfold HandedOver recording
      rw [hnone, List.append_nil, hoffset]
      exact h
    · unfold ReachesStep
      rw [hnone]
      simp
  cases op with
  | ingest buf =>
    rcases opened_or R x.1 buf with ⟨id, pn, frames, hstate, hopen⟩ | ⟨hsame, hunopened⟩
    · exact handedOver_opened_iff h hstate hopen (haccepts hstate id pn frames hopen)
    · exact hquiet (recorded_unopened hunopened) (congrArg cryptoRecvOffset hsame)
  | egest bufLen =>
    refine hquiet rfl ?_
    exact egest_induction (P := fun c => c.cryptoRecvOffset = x.1.cryptoRecvOffset) bufLen rfl
      (fun id _ _ _ => cryptoRecvOffset_built x.1 id)
      (fun id _ _ _ => cryptoRecvOffset_built x.1 id)
  | sendData data => exact hquiet rfl rfl
  | recvData bufLen => exact hquiet rfl rfl

lemma accepted_connect {serverName : String} {dstCid srcCid packet : Bytes} {c : Connection σ}
    (h : connect R serverName dstCid srcCid = ok (c, packet)) (level : Nat) :
    accepted level c.history = [] ∧ c.cryptoRecvOffset level = 0 := by
  obtain ⟨_, _, _, _, _, _, rfl⟩ := connect_eq h
  exact ⟨rfl, rfl⟩

/-- A client starts with nothing, a server with its ClientHello. -/
lemma delivered_started_iff {s : Connection σ} {first : List Opened} (hs : StartedWith R s first)
    (S : Nat → Bytes) : Delivered S (s, first) ↔ HelloReaches S first := by
  have hreads : Delivered S (s, first) ↔ ReadsFront S s ∧ HandedOver (s, first) :=
    and_congr_right fun _ => and_iff_left_of_imp HandedOver.readsCovered
  rw [hreads, handedOver_iff]
  cases hs with
  | connect _ _ hconnect =>
    refine iff_of_true ⟨fun level => ?_, by simp⟩ (by simp [HelloReaches])
    obtain ⟨hnone, hoffset⟩ := accepted_connect hconnect level
    rw [hnone, hoffset]
    exact ⟨rfl, Nat.zero_le _⟩
  | @accept datagram frames _ haccept hframes =>
    obtain ⟨htaken, hoffset⟩ := accept_reads hframes haccept
    have hfront : ReadsFront S s ↔ clientHelloOf frames <+: S 0 := by
      constructor
      · intro h
        obtain ⟨hread, -⟩ := h 0
        rw [htaken, if_pos rfl] at hread
        rw [hread]
        exact List.take_prefix _ _
      · intro hprefix level
        rw [htaken, hoffset]
        by_cases hlevel : level = 0
        · subst hlevel
          rw [if_pos rfl, Function.update_self]
          exact ⟨List.prefix_iff_eq_take.mp hprefix, hprefix.length_le⟩
        · rw [if_neg hlevel, Function.update_of_ne hlevel]
          exact ⟨rfl, Nat.zero_le _⟩
    rw [hfront, hoffset]
    simp [HelloReaches, pnSpaceToLevel]

lemma pendingAcks_started {s : Connection σ} {first : List Opened} (hs : StartedWith R s first)
    (id : PacketNumberSpace) : (s.spaces id).pendingAcks = numbersIn id first := by
  cases hs with
  | connect _ _ hconnect =>
    obtain ⟨_, _, _, _, _, _, rfl⟩ := connect_eq hconnect
    cases id <;> rfl
  | accept haccept _ =>
    obtain ⟨tls, version, dstCid, srcCid, keys, hello, c₁, hrun, -, rfl⟩ := accept_eq haccept
    have hnone : (c₁.spaces id).pendingAcks = [] := by
      rw [(hrun.space_eq id).1]
      cases id <;> rfl
    change ((c₁.recordRecvPn .initial 0).spaces id).pendingAcks = _
    rw [pendingAcks_recorded, hnone]
    simp [numbersIn]

lemma pendingAcks_recorded_packets (c : Connection σ) (buf : Bytes) (id : PacketNumberSpace) :
    ((c.ingest R buf).2.spaces id).pendingAcks =
      (c.spaces id).pendingAcks ++ numbersIn id (recorded c (.ingest buf)) := by
  rcases opened_or R c buf with ⟨id', pn, frames, hstate, hopen⟩ | ⟨hsame, hunopened⟩
  · rw [pendingAcks_ingest_all hstate hopen, recorded_opened hstate hopen]
    simp [numbersIn]
  · rw [hsame, recorded_unopened hunopened]
    exact (List.append_nil _).symm

/-- The packets of a run are those whose numbers were recorded. In a run in which TLS refuses no
chunk it gets all that their CRYPTO frames bring of the peer's streams, and every covered prefix,
exactly when no CRYPTO frame ends behind the chain of its packet. -/
theorem crypto_complete_iff {s : Connection σ} {first : List Opened} (hs : StartedWith R s first)
    (S : Nat → Bytes) {ops : List Op}
    (hcut : Along (next R) (fun c op => CutFrom S c (.op op)) s ops)
    (haccepts : Along (next R) (AcceptsStep R) s ops) :
    (∀ id, (s.spaces id).pendingAcks = numbersIn id first) ∧
      (∀ (c : Connection σ) (buf : Bytes) (id : PacketNumberSpace),
        ((c.ingest R buf).2.spaces id).pendingAcks =
          (c.spaces id).pendingAcks ++ numbersIn id (recorded c (.ingest buf))) ∧
      (Always (recording R) (Delivered S) (s, first) ops ↔
        HelloReaches S first ∧ Along (next R) ReachesStep s ops) := by
  refine ⟨pendingAcks_started hs, pendingAcks_recorded_packets, ?_⟩
  have hfirst := delivered_started_iff hs S
  have hpair : ∀ (x : Connection σ × List Opened) op, (recording R x op).1 = next R x.1 op :=
    fun _ _ => rfl
  have hreads : ∀ (x : Connection σ × List Opened) op, True →
      CutFrom S x.1 (.op op) ∧ AcceptsStep R x.1 op → True := fun _ _ _ _ => trivial
  have hstep : ∀ (x : Connection σ × List Opened) op, True →
      CutFrom S x.1 (.op op) ∧ AcceptsStep R x.1 op → Delivered S x →
      (Delivered S (recording R x op) ↔ ReachesStep x.1 op) := by
    rintro x op - ⟨hcut, haccepts⟩ ⟨hfront, hhanded, -⟩
    rw [← handedOver_recording_iff hhanded haccepts]
    exact ⟨fun h => h.2.1,
      fun h => ⟨readsFront_call (.op op) hfront hcut, h, h.readsCovered⟩⟩
  have hadmitted := (along_map Prod.fst hpair (s, first)).mpr (hcut.and haccepts)
  by_cases hstart : Delivered S (s, first)
  · rw [and_iff_right (hfirst.mp hstart), always_iff_along hreads hstep trivial hstart hadmitted]
    exact along_map Prod.fst hpair (s, first)
  · refine iff_of_false (fun h => hstart h.head) ?_
    rintro ⟨hhello, -⟩
    exact hstart (hfirst.mpr hhello)

lemma cutFrom_of_open {S : Nat → Bytes} {c : Connection σ} {buf : Bytes} {id : PacketNumberSpace}
    {pn : Nat} {frames : List Frame} {k : Nat}
    (hopen : c.openPacket buf = ok (id, pn, frames ++ List.replicate k .padding))
    (hcut : ∀ f ∈ frames, f.SliceOf (S (pnSpaceToLevel id))) : CutFrom S c (.op (.ingest buf)) := by
  intro hstate id' pn' frames' hopen' f hf
  rw [hopen] at hopen'
  cases hopen'
  rcases List.mem_append.mp hf with hf | hf
  · exact hcut f hf
  · rw [List.eq_of_mem_replicate hf]
    intro offset data heq
    cases heq

/-- The second piece in front of the first two, and then again with the third and the first two. -/
theorem crypto_complete_iff_repeated :
    Always (recording (scripted [([1], none)])) (Delivered fun _ => [4, 5, 6])
      (plainClient [([1], none)], [])
      [.ingest (plainLong .initial 0 [.crypto 1 [5], .crypto 0 [4, 5]]),
        .ingest (plainLong .initial 1 [.crypto 1 [5], .crypto 2 [6], .crypto 0 [4, 5]])] := by
  obtain ⟨_, hconnect⟩ := plainClient_connect [([1], none)] (by decide +kernel)
  have haccepts : ∀ (c : Connection Flights) op, AcceptsStep (scripted [([1], none)]) c op := by
    intro c op
    cases op with
    | ingest buf =>
      intro _ id pn frames _
      exact framesAlong_of_forall _ (fun _ _ _ _ _ _ _ => rfl) _
    | egest _ | sendData _ | recvData _ => trivial
  have hfirst : (plainClient [([1], none)]).openPacket
      (plainLong .initial 0 [.crypto 1 [5], .crypto 0 [4, 5]]) =
      ok (.initial, 0, [.crypto 1 [5], .crypto 0 [4, 5]] ++ List.replicate 11 .padding) := by
    decide +kernel
  have hsecond : (next (scripted [([1], none)]) (plainClient [([1], none)])
      (.ingest (plainLong .initial 0 [.crypto 1 [5], .crypto 0 [4, 5]]))).openPacket
      (plainLong .initial 1 [.crypto 1 [5], .crypto 2 [6], .crypto 0 [4, 5]]) =
      ok (.initial, 1,
        [.crypto 1 [5], .crypto 2 [6], .crypto 0 [4, 5]] ++ List.replicate 7 .padding) := by
    decide +kernel
  have hcut : Along (next (scripted [([1], none)]))
      (fun c op => CutFrom (fun _ => [4, 5, 6]) c (.op op)) (plainClient [([1], none)])
      [.ingest (plainLong .initial 0 [.crypto 1 [5], .crypto 0 [4, 5]]),
        .ingest (plainLong .initial 1 [.crypto 1 [5], .crypto 2 [6], .crypto 0 [4, 5]])] := by
    refine ⟨cutFrom_of_open hfirst ?_, cutFrom_of_open hsecond ?_, trivial⟩
    · intro f hf
      simp only [List.mem_cons, List.not_mem_nil, or_false] at hf
      rcases hf with rfl | rfl <;> exact Frame.sliceOf_crypto (by decide) (by decide)
    · intro f hf
      simp only [List.mem_cons, List.not_mem_nil, or_false] at hf
      rcases hf with rfl | rfl | rfl <;> exact Frame.sliceOf_crypto (by decide) (by decide)
  refine (crypto_complete_iff (.connect (by decide) (by decide) hconnect) _ hcut
    (along_of_forall haccepts _ _)).2.2.mpr ⟨by simp [HelloReaches], ?_, ?_, trivial⟩
  · unfold ReachesStep
    decide +kernel
  · unfold ReachesStep
    decide +kernel

/-- Byte 1 comes before byte 0. Both packets are accepted and will be acknowledged, and TLS
never sees byte 1. -/
theorem crypto_ahead_dropped :
    StartedWith (scripted [([1], none)]) (plainClient [([1], none)]) [] ∧
      ((plainClient [([1], none)]).ingest (scripted [([1], none)])
        (plainLong .initial 0 [.crypto 1 [3]])).1.isOk = true ∧
      ((next (scripted [([1], none)]) (plainClient [([1], none)])
        (.ingest (plainLong .initial 0 [.crypto 1 [3]]))).ingest (scripted [([1], none)])
        (plainLong .initial 1 [.crypto 0 [2]])).1.isOk = true ∧
      ((run (next (scripted [([1], none)])) (plainClient [([1], none)])
        [.ingest (plainLong .initial 0 [.crypto 1 [3]]),
          .ingest (plainLong .initial 1 [.crypto 0 [2]])]).spaces .initial).pendingAcks = [0, 1] ∧
      ¬ ReadsCovered (run (recording (scripted [([1], none)])) (plainClient [([1], none)], [])
        [.ingest (plainLong .initial 0 [.crypto 1 [3]]),
          .ingest (plainLong .initial 1 [.crypto 0 [2]])]) := by
  obtain ⟨_, hconnect⟩ := plainClient_connect [([1], none)] (by decide +kernel)
  refine ⟨.connect (by decide) (by decide) hconnect, by decide +kernel, by decide +kernel,
    by decide +kernel, ?_⟩
  have hpackets : (run (recording (scripted [([1], none)])) (plainClient [([1], none)], [])
      [.ingest (plainLong .initial 0 [.crypto 1 [3]]),
        .ingest (plainLong .initial 1 [.crypto 0 [2]])]).2 =
      [⟨.initial, 0, .crypto 1 [3] :: List.replicate 16 .padding⟩,
        ⟨.initial, 1, .crypto 0 [2] :: List.replicate 16 .padding⟩] := by
    decide +kernel
  intro hcovered
  have hread := hcovered .initial 2 ?_
  · revert hread
    decide +kernel
  · intro i hi
    rw [hpackets]
    rcases (by omega : i = 0 ∨ i = 1) with rfl | rfl
    · exact ⟨_, .tail _ (.head _), rfl, _, .head _, by decide, by decide⟩
    · exact ⟨_, .head _, rfl, _, .head _, by decide, by decide⟩

end Connection
end DeerQuic
