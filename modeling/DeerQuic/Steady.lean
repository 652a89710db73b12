import DeerQuic.Delivery
import DeerQuic.Isolation

/-!
# Connections that have all their keys

TLS has given out its last keys, and the connection is established or about to be: a server becomes
so when it sends HANDSHAKE_DONE. From then on packets bring application data, acknowledgements, and
what TLS may still have to say at the handshake levels. None of it changes a key.
-/

namespace DeerQuic

open Outcome Protection

/-- What an established peer may put into a packet of the space. -/
def Frame.Mild (id : PacketNumberSpace) : Frame → Prop
  | .connectionClose _ _ _ => False
  | .crypto _ _ => id ≠ .applicationData
  | .stream _ _ _ _ => id = .applicationData
  | _ => True

lemma Frame.mild_padding (id : PacketNumberSpace) : Frame.padding.Mild id := trivial

/-- Sessions that announce no more keys, whatever they read. -/
structure Rested {σ : Type} (R : Rustls σ) (done : σ → Prop) : Prop where
  read : ∀ tls data, done tls → done (R.readHs tls data).1
  write : ∀ tls, done tls → done (R.writeHs tls).1 ∧ (R.writeHs tls).2.2 = none

namespace Connection

variable {σ : Type} {R : Rustls σ} {keys : PacketNumberSpace → Keys} {done : σ → Prop}

structure Steady (keys : PacketNumberSpace → Keys) (done : σ → Prop) (c : Connection σ) : Prop where
  running : c.state = .established ∨ c.side = .server ∧ c.state = .handshaking
  rested : done c.tls
  keyed : ∀ id, (c.spaces id).keys = some (keys id)
  quiet : c.pendingCrypto 2 = []

lemma Steady.open {c : Connection σ} (h : Steady keys done c) : c.state ≠ .closed := by
  rcases h.running with hstate | ⟨-, hstate⟩ <;> rw [hstate] <;> decide

/-- Only TLS and the data received may have changed. -/
structure Intact (c c' : Connection σ) : Prop where
  side : c'.side = c.side
  version : c'.version = c.version
  dstCid : c'.dstCid = c.dstCid
  srcCid : c'.srcCid = c.srcCid
  spaces : c'.spaces = c.spaces
  pendingAppData : c'.pendingAppData = c.pendingAppData

lemma Intact.refl (c : Connection σ) : Intact c c := ⟨rfl, rfl, rfl, rfl, rfl, rfl⟩

lemma Intact.trans {c c' c'' : Connection σ} (h : Intact c c') (h' : Intact c' c'') :
    Intact c c'' where
  side := h'.side.trans h.side
  version := h'.version.trans h.version
  dstCid := h'.dstCid.trans h.dstCid
  srcCid := h'.srcCid.trans h.srcCid
  spaces := h'.spaces.trans h.spaces
  pendingAppData := h'.pendingAppData.trans h.pendingAppData

/-- Without new keys a chunk leads to output at its own level, or to an error. -/
lemma feedCrypto_rested (hR : Rested R done) {c : Connection σ} (hdone : done c.tls) {level : Nat}
    (hlevel : level < 3) (data : Bytes) :
    ∃ tls pendingCrypto cryptoRecvOffset history,
      (c.feedCrypto R level data).2 =
        { c with tls, pendingCrypto, cryptoRecvOffset, history } ∧
      done tls ∧ ∀ other, other ≠ level → pendingCrypto other = c.pendingCrypto other := by
  have hread := hR.read c.tls data hdone
  cases hresult : (R.readHs c.tls data).2 with
  | error e =>
    refine ⟨_, c.pendingCrypto, c.cryptoRecvOffset, c.history, ?_, hread, fun _ _ => rfl⟩
    simp only [feedCrypto, hresult]
  | ok _ =>
    obtain ⟨hwrite, hnone⟩ := hR.write _ hread
    generalize hc : ({ c with tls := (R.readHs c.tls data).1 }.log (.tlsRead level data)) = c₁
    have htls : c₁.tls = (R.readHs c.tls data).1 := by
      rw [← hc]
      rfl
    have hkeys : (processTlsOutput (some (c₁.writeHs R level).1) level).2 = none := by
      simp only [writeHs, processTlsOutput, htls, hnone, Option.map_none]
    have hqueued := queueCrypto_writeHs R c₁ hlevel
    have hfed : (c.feedCrypto R level data).2 =
        { (c₁.writeHs R level).2.queueCrypto
            (processTlsOutput (some (c₁.writeHs R level).1) level).1 with
          cryptoRecvOffset := Function.update c.cryptoRecvOffset level
            (c.cryptoRecvOffset level + data.length) } := by
      simp only [feedCrypto, hresult, hc, hkeys, handleCryptoOutput, queueCrypto_offset]
      rw [← hc]
      rfl
    rw [hqueued] at hfed
    subst hc
    exact ⟨_, _, _, _, hfed, hwrite, fun other hother => Function.update_of_ne hother _ _⟩

lemma steady_frameNext (hR : Rested R done) {id : PacketNumberSpace} {c : Connection σ}
    {frame : Frame} (h : Steady keys done c) (hmild : frame.Mild id) :
    Steady keys done (frameNext R id c frame) ∧ Intact c (frameNext R id c frame) := by
  have hsame : ∀ e, Steady keys done (c.log e) ∧ Intact c (c.log e) := fun e =>
    ⟨⟨h.running, h.rested, h.keyed, h.quiet⟩, ⟨rfl, rfl, rfl, rfl, rfl, rfl⟩⟩
  generalize hnext : frameNext R id c frame = c'
  have hstep := frameNext_step R id c frame
  rw [hnext] at hstep
  cases hstep with
  | refused _ _ =>
    exact ⟨⟨h.running, hR.read _ _ h.rested, h.keyed, h.quiet⟩, ⟨rfl, rfl, rfl, rfl, rfl, rfl⟩⟩
  | skipped _ => exact hsame _
  | @fed offset data c'' hoffset hread _ =>
    obtain ⟨tls, pendingCrypto, cryptoRecvOffset, history, hfed, hdone, hother⟩ :=
      feedCrypto_rested hR h.rested (level_lt id) data
    have hlevel : 2 ≠ pnSpaceToLevel id := by
      cases id with
      | initial | handshake => decide
      | applicationData => exact absurd rfl hmild
    have hresult : (c.feedCrypto R (pnSpaceToLevel id) data).1 = ok () := by
      simp only [feedCrypto, hread]
    have hprocess : c.processFrame R id (.crypto offset data) =
        (ok (), { c with tls, pendingCrypto, cryptoRecvOffset, history }) := by
      simp only [processFrame, ← hoffset, Nat.le_of_lt_succ (level_lt id), and_self, if_true]
      exact Prod.ext hresult hfed
    rw [frameNext_of_ok hprocess] at hnext
    rw [← hnext]
    refine ⟨⟨h.running, hdone, h.keyed, ?_⟩, ⟨rfl, rfl, rfl, rfl, rfl, rfl⟩⟩
    exact (hother 2 hlevel).trans h.quiet
  | closed _ => exact hmild.elim
  | confirmed _ => exact ⟨⟨.inl rfl, h.rested, h.keyed, h.quiet⟩, ⟨rfl, rfl, rfl, rfl, rfl, rfl⟩⟩
  | stream =>
    exact ⟨⟨h.running, h.rested, h.keyed, h.quiet⟩, ⟨rfl, rfl, rfl, rfl, rfl, rfl⟩⟩
  | ignored _ => exact hsame _

lemma steady_processFrames (hR : Rested R done) {id : PacketNumberSpace} {frames : List Frame}
    {c : Connection σ} (h : Steady keys done c) (hmild : ∀ f ∈ frames, f.Mild id) :
    Steady keys done (processFrames R id frames c).2 ∧ Intact c (processFrames R id frames c).2 := by
  refine processFrames_forall R (P := fun c' => Steady keys done c' ∧ Intact c c') ?_
    ⟨h, Intact.refl c⟩ hmild
  rintro c' f ⟨hc', hintact⟩ hf
  obtain ⟨hsteady, hstep⟩ := steady_frameNext hR hc' hf
  exact ⟨hsteady, hintact.trans hstep⟩

/-- All the data of such a packet reach the buffer. -/
lemma received_mild {id : PacketNumberSpace} {frames : List Frame} (c : Connection σ)
    (hmild : ∀ f ∈ frames, f.Mild id) :
    (processFrames R id frames c).2.receivedAppData =
      c.receivedAppData ++ frames.flatMap Frame.streamData := by
  by_cases happ : id = .applicationData
  · induction frames generalizing c with
    | nil => simp [processFrames]
    | cons frame frames ih =>
      have hok : (c.processFrame R id frame).1 = ok () := by
        have hframe := hmild frame List.mem_cons_self
        cases frame with
        | crypto => exact absurd happ hframe
        | handshakeDone =>
          rw [processFrame]
          split_ifs <;> rfl
        | _ => rfl
      rw [processFrames_cons, if_pos hok, ih _ fun f hf => hmild f (List.mem_cons_of_mem _ hf),
        received_frameNext, List.flatMap_cons, List.append_assoc]
  · have hnone : ∀ f ∈ frames, f.streamData = [] := by
      intro f hf
      have hframe := hmild f hf
      cases f with
      | stream => exact absurd hframe happ
      | _ => rfl
    have hdata : frames.flatMap Frame.streamData = [] := List.flatMap_eq_nil_iff.mpr hnone
    rw [hdata, List.append_nil, received_unchanged_iff]
    exact framesAlong_of_forall R (fun _ f hf => hnone f hf) c

/-- What a steady connection makes of a packet. -/
structure TakesIn (c c' : Connection σ) (id : PacketNumberSpace) (pn : Nat) (frames : List Frame) :
    Prop where
  intact : Intact (c.recordRecvPn id pn) c'
  received : c'.receivedAppData = c.receivedAppData ++ frames.flatMap Frame.streamData

/-- A packet of mild frames and padding. -/
lemma steady_ingest (hR : Rested R done) {c : Connection σ} {buf : Bytes} {id : PacketNumberSpace}
    {pn k : Nat} {frames : List Frame} (h : Steady keys done c)
    (hopen : c.openPacket buf = ok (id, pn, frames ++ List.replicate k .padding))
    (hmild : ∀ f ∈ frames, f.Mild id) :
    Steady keys done (c.ingest R buf).2 ∧ TakesIn c (c.ingest R buf).2 id pn frames := by
  have hstate := h.open
  have hrecorded : Steady keys done (c.recordRecvPn id pn) :=
    ⟨h.running, h.rested, fun id' => (keys_recorded c id id' pn).trans (h.keyed id'), h.quiet⟩
  have hall : ∀ f ∈ frames ++ List.replicate k .padding, f.Mild id := by
    intro f hf
    rcases List.mem_append.mp hf with hf | hf
    · exact hmild f hf
    · rw [List.eq_of_mem_replicate hf]
      exact Frame.mild_padding id
  have hpadding : (List.replicate k Frame.padding).flatMap Frame.streamData = [] := by
    simp [Frame.streamData]
  obtain ⟨hsteady, hintact⟩ := steady_processFrames hR hrecorded hall
  have hreceived := received_mild (R := R) (c.recordRecvPn id pn) hall
  rw [List.flatMap_append, hpadding, List.append_nil] at hreceived
  rw [ingest_of_open R hstate hopen]
  exact ⟨hsteady, ⟨hintact, hreceived⟩⟩

lemma steady_sent {c : Connection σ} (h : Steady keys done c) (id : PacketNumberSpace) :
    Steady keys done (c.sent id) := by
  constructor
  · have hside : (c.sent id).side = c.side := (built_same c id).2.1
    have hstate : (c.sent id).state = if c.Confirms id then .established else c.state :=
      state_built c id
    rw [hside, hstate]
    split_ifs
    · exact .inl rfl
    · exact h.running
  · have htls : (c.sent id).tls = c.tls := by
      rw [sent, built, drained_eq]
      rfl
    rw [htls]
    exact h.rested
  · intro id'
    exact ((built_same c id).2.2.1 id').trans (h.keyed id')
  · have hqueue := congrFun (pendingCrypto_built c id) 2
    refine hqueue.trans ?_
    by_cases hlevel : 2 = pnSpaceToLevel id
    · rw [← hlevel, Function.update_self]
    · rw [Function.update_of_ne hlevel]
      exact h.quiet

lemma steady_framesOf {c : Connection σ} (h : Steady keys done c) (id : PacketNumberSpace) :
    ∀ f ∈ c.framesOf id, f.Mild id := by
  intro f hf
  rcases mem_framesOf.mp hf with ⟨hcrypto, rfl⟩ | ⟨_, rfl⟩ | ⟨_, rfl⟩ | ⟨hstreams, rfl⟩
  · rintro rfl
    exact hcrypto h.quiet
  · trivial
  · trivial
  · exact hstreams.1

/-- Data go into a packet of the application's space only. -/
lemma streamData_framesOf (c : Connection σ) (id : PacketNumberSpace) :
    (c.framesOf id).flatMap Frame.streamData = if c.Streams id then c.pendingAppData else [] := by
  simp [flatMap_framesOf, Frame.streamData, ackFrame]

/-- What waits to be sent goes into the packet or stays. -/
lemma streamData_sent (c : Connection σ) (id : PacketNumberSpace) :
    (c.framesOf id).flatMap Frame.streamData ++ (c.sent id).pendingAppData = c.pendingAppData := by
  have hqueue : (c.sent id).pendingAppData = if c.Streams id then [] else c.pendingAppData :=
    pendingAppData_built c id
  rw [streamData_framesOf, hqueue]
  split_ifs
  · exact List.append_nil _
  · rfl

lemma intact_sent (c : Connection σ) (id : PacketNumberSpace) :
    (c.sent id).side = c.side ∧ (c.sent id).version = c.version ∧
      (c.sent id).dstCid = c.dstCid ∧ (c.sent id).srcCid = c.srcCid ∧
      (c.sent id).receivedAppData = c.receivedAppData ∧
      ∀ id', ((c.sent id).spaces id').largestRecvPn = (c.spaces id').largestRecvPn := by
  rw [sent, built, drained_eq]
  refine ⟨rfl, rfl, rfl, rfl, rfl, fun id' => ?_⟩
  by_cases hid : id' = id
  · subst hid
    simp [log, setSpace, Space.takeNextSendPn]
  · simp [log, setSpace, hid]

end Connection
end DeerQuic
