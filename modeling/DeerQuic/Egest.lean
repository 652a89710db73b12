import DeerQuic.Run
import DeerQuic.Sealing

/-!
# What `egest` does

The first space with keys and something to send is emptied into one packet. Everything in
it has left the queues before it is known whether the packet can be encrypted and fits the
buffer, so a packet that is not handed out takes its content with it.
-/

namespace DeerQuic.Connection

open Outcome Protection

variable {σ : Type}

/-- What the space has to send. -/
def framesOf (c : Connection σ) (id : PacketNumberSpace) : List Frame :=
  (c.collectFrames c.state id).1

/-- The state with the queues of the space emptied. -/
def drained (c : Connection σ) (id : PacketNumberSpace) : Connection σ :=
  (c.collectFrames c.state id).2

def Busy (c : Connection σ) (id : PacketNumberSpace) : Prop :=
  (c.spaces id).hasKeys = true ∧ c.framesOf id ≠ []

instance (c : Connection σ) (id : PacketNumberSpace) : Decidable (c.Busy id) :=
  inferInstanceAs (Decidable (_ ∧ _))

/-- The space the next packet is for. -/
def firstBusy (c : Connection σ) : Option PacketNumberSpace :=
  [.initial, .handshake, .applicationData].find? fun id => decide (c.Busy id)

def packetOf (c : Connection σ) (id : PacketNumberSpace) : Outcome ConnectionError Bytes :=
  encryptPacket (c.spaces id) id c.version c.dstCid c.srcCid (c.framesOf id)
    (c.spaces id).nextSendPn (encodedPnLen (c.spaces id).nextSendPn (c.spaces id).largestRecvPn)
    c.isEstablished

/-- The packet of the space can be made and fits a buffer of `bufLen` bytes. -/
def Leaves (c : Connection σ) (bufLen : Nat) (id : PacketNumberSpace) : Prop :=
  ∃ packet, c.packetOf id = ok packet ∧ packet.length ≤ bufLen

instance (c : Connection σ) (bufLen : Nat) (id : PacketNumberSpace) :
    Decidable (c.Leaves bufLen id) :=
  match h : c.packetOf id with
  | ok packet => decidable_of_iff (packet.length ≤ bufLen) (by simp [Leaves, h])
  | err _ | .panic => isFalse (by simp [Leaves, h])

/-- The queues are emptied, the number is used up and the packet is logged as built. -/
def built (c : Connection σ) (id : PacketNumberSpace) : Connection σ :=
  ((c.drained id).setSpace id ((c.drained id).spaces id).takeNextSendPn.2).log
    (.built id (c.spaces id).nextSendPn (c.framesOf id))

def sent (c : Connection σ) (id : PacketNumberSpace) : Connection σ :=
  (c.built id).log (.sent id (c.spaces id).nextSendPn (c.framesOf id))

/-- The server declares itself established by putting HANDSHAKE_DONE into a packet. -/
def Confirms (c : Connection σ) (id : PacketNumberSpace) : Prop :=
  id = .applicationData ∧ c.side = .server ∧ c.state = .handshaking

instance (c : Connection σ) (id : PacketNumberSpace) : Decidable (c.Confirms id) :=
  inferInstanceAs (Decidable (_ ∧ _))

def Streams (c : Connection σ) (id : PacketNumberSpace) : Prop :=
  id = .applicationData ∧ c.state = .established ∧ c.pendingAppData ≠ []

instance (c : Connection σ) (id : PacketNumberSpace) : Decidable (c.Streams id) :=
  inferInstanceAs (Decidable (_ ∧ _))

lemma framesOf_eq (c : Connection σ) (id : PacketNumberSpace) :
    c.framesOf id =
      (if c.pendingCrypto (pnSpaceToLevel id) = [] then []
        else [.crypto 0 (c.pendingCrypto (pnSpaceToLevel id))]) ++
      (if (c.spaces id).pendingAcks = [] then [] else [ackFrame (c.spaces id).pendingAcks]) ++
      (if c.Confirms id then [.handshakeDone] else []) ++
      (if c.Streams id then [.stream 0 c.streamSendOffset c.pendingAppData false] else []) := by
  by_cases hdone : id = .applicationData ∧ c.side = .server ∧ c.state = .handshaking <;>
    by_cases hstream : id = .applicationData ∧ c.state = .established ∧ c.pendingAppData ≠ [] <;>
      simp [framesOf, collectFrames, takeCrypto, takeAcks, takeHandshakeDone, takeAppData,
        Space.takePendingAcks, setSpace, Confirms, Streams, hdone, hstream]

lemma mem_framesOf {c : Connection σ} {id : PacketNumberSpace} {f : Frame} :
    f ∈ c.framesOf id ↔
      c.pendingCrypto (pnSpaceToLevel id) ≠ [] ∧
          f = .crypto 0 (c.pendingCrypto (pnSpaceToLevel id)) ∨
        (c.spaces id).pendingAcks ≠ [] ∧ f = ackFrame (c.spaces id).pendingAcks ∨
        c.Confirms id ∧ f = .handshakeDone ∨
        c.Streams id ∧ f = .stream 0 c.streamSendOffset c.pendingAppData false := by
  simp only [framesOf_eq, List.mem_append, List.mem_ite_nil_left, List.mem_ite_nil_right,
    List.mem_singleton, or_assoc, ne_eq]

lemma flatMap_framesOf {β : Type} (c : Connection σ) (id : PacketNumberSpace)
    (f : Frame → List β) :
    (c.framesOf id).flatMap f =
      (if c.pendingCrypto (pnSpaceToLevel id) = [] then []
        else f (.crypto 0 (c.pendingCrypto (pnSpaceToLevel id)))) ++
      (if (c.spaces id).pendingAcks = [] then [] else f (ackFrame (c.spaces id).pendingAcks)) ++
      (if c.Confirms id then f .handshakeDone else []) ++
      (if c.Streams id then f (.stream 0 c.streamSendOffset c.pendingAppData false) else []) := by
  rw [framesOf_eq]
  simp only [List.flatMap_append, apply_ite (List.flatMap f), List.flatMap_nil,
    List.flatMap_singleton]

lemma drained_eq (c : Connection σ) (id : PacketNumberSpace) :
    c.drained id = { c with
      pendingCrypto := Function.update c.pendingCrypto (pnSpaceToLevel id) []
      spaces := Function.update c.spaces id { c.spaces id with pendingAcks := [] }
      state := if c.Confirms id then .established else c.state
      pendingAppData := if c.Streams id then [] else c.pendingAppData
      streamSendOffset :=
        if c.Streams id then c.streamSendOffset + c.pendingAppData.length
        else c.streamSendOffset } := by
  by_cases hdone : id = .applicationData ∧ c.side = .server ∧ c.state = .handshaking <;>
    by_cases hstream : id = .applicationData ∧ c.state = .established ∧ c.pendingAppData ≠ [] <;>
      simp [drained, collectFrames, takeCrypto, takeAcks, takeHandshakeDone, takeAppData,
        Space.takePendingAcks, setSpace, Confirms, Streams, hdone, hstream]

/-- A space with nothing to send is left as it is. -/
lemma drained_of_nil {c : Connection σ} {id : PacketNumberSpace} (h : c.framesOf id = []) :
    c.drained id = c := by
  rw [framesOf_eq] at h
  simp only [List.append_eq_nil_iff, ite_eq_left_iff, ite_eq_right_iff, reduceCtorEq, imp_false,
    not_not] at h
  obtain ⟨⟨⟨hcrypto, hacks⟩, hdone⟩, hstream⟩ := h
  have hqueue : Function.update c.pendingCrypto (pnSpaceToLevel id) [] = c.pendingCrypto := by
    rw [← hcrypto, Function.update_eq_self]
  have hspace : Function.update c.spaces id { c.spaces id with pendingAcks := [] } = c.spaces := by
    rw [← hacks]
    exact Function.update_eq_self id c.spaces
  rw [drained_eq, hqueue, hspace, if_neg hdone, if_neg hstream, if_neg hstream]

lemma framesOf_total {c : Connection σ} {id : PacketNumberSpace} {f : Frame}
    (h : f ∈ c.framesOf id) : Frame.Total (Frame.putFrame f) := by
  apply Frame.putFrame_total
  rcases mem_framesOf.mp h with ⟨_, rfl⟩ | ⟨_, rfl⟩ | ⟨_, rfl⟩ | ⟨_, rfl⟩
  · trivial
  · exact List.cons_ne_nil _ _
  · trivial
  · trivial

lemma packetOf_safe (c : Connection σ) (id : PacketNumberSpace) :
    (c.packetOf id).Safe fun out => 1 ≤ out.length :=
  encryptPacket_safe _ _ _ _ _ _ _ (encodedPnLen_bounds _ _) fun _ => framesOf_total

lemma encryptPacket_congr {space space' : Space} (h : space.keys = space'.keys)
    (pnSpace : PacketNumberSpace) (version : UInt32) (dstCid srcCid : Bytes)
    (frames : List Frame) (pn pnLen : Nat) (isEstablished : Bool) :
    encryptPacket space pnSpace version dstCid srcCid frames pn pnLen isEstablished =
      encryptPacket space' pnSpace version dstCid srcCid frames pn pnLen isEstablished := by
  simp only [encryptPacket, Space.localKeys, h]

lemma emit_eq (c : Connection σ) (bufLen : Nat) (id : PacketNumberSpace) :
    (c.drained id).emit c.state bufLen id (c.framesOf id) =
      match c.packetOf id with
      | err e => (err e, c.built id)
      | .panic => (.panic, c.built id)
      | ok packet =>
        if bufLen < packet.length then (ok [], c.built id) else (ok packet, c.sent id) := by
  have hspace : (c.drained id).spaces id = { c.spaces id with pendingAcks := [] } := by
    rw [drained_eq]
    exact Function.update_self _ _ _
  have hkeys : ((c.drained id).spaces id).takeNextSendPn.2.keys = (c.spaces id).keys := by
    rw [hspace]
    rfl
  have hpn : ((c.drained id).spaces id).takeNextSendPn.1 = (c.spaces id).nextSendPn := by
    rw [hspace]
    rfl
  have hpacket : encryptPacket ((c.drained id).spaces id).takeNextSendPn.2 id
      (c.built id).version (c.built id).dstCid (c.built id).srcCid (c.framesOf id)
      (c.spaces id).nextSendPn (encodedPnLen (c.spaces id).nextSendPn
        ((c.drained id).spaces id).takeNextSendPn.2.largestRecvPn)
      (decide (c.state = .established)) = c.packetOf id := by
    rw [encryptPacket_congr hkeys, built, drained_eq]
    rfl
  unfold emit
  dsimp only
  rw [hpn]
  change (match encryptPacket ((c.drained id).spaces id).takeNextSendPn.2 id
      (c.built id).version (c.built id).dstCid (c.built id).srcCid (c.framesOf id)
      (c.spaces id).nextSendPn (encodedPnLen (c.spaces id).nextSendPn
        ((c.drained id).spaces id).takeNextSendPn.2.largestRecvPn)
      (decide (c.state = .established)) with
    | err e => (err e, c.built id)
    | .panic => (.panic, c.built id)
    | ok packet =>
      if bufLen < packet.length then (ok [], c.built id) else (ok packet, c.sent id)) = _
  rw [hpacket]

lemma egestLoop_eq (c : Connection σ) (bufLen : Nat) (ids : List PacketNumberSpace) :
    egestLoop c.state bufLen ids c =
      match ids.find? fun id => decide (c.Busy id) with
      | none => (ok [], c)
      | some id => (c.drained id).emit c.state bufLen id (c.framesOf id) := by
  induction ids with
  | nil => rfl
  | cons id ids ih =>
    unfold egestLoop
    by_cases hkeys : (c.spaces id).hasKeys = false
    · have hidle : ¬ c.Busy id := fun h => by simpa [hkeys] using h.1
      rw [if_pos hkeys, ih, List.find?_cons_of_neg (by simpa using hidle)]
    · rw [if_neg hkeys]
      by_cases hframes : c.framesOf id = []
      · have hidle : ¬ c.Busy id := fun h => h.2 hframes
        have hempty : (c.collectFrames c.state id).1.isEmpty = true := by
          simpa [framesOf] using hframes
        rw [List.find?_cons_of_neg (by simpa using hidle), ← ih]
        dsimp only
        rw [if_pos hempty]
        exact congrArg (egestLoop c.state bufLen ids) (drained_of_nil hframes)
      · have hbusy : c.Busy id := ⟨by simpa using hkeys, hframes⟩
        have hfull : ¬ (c.collectFrames c.state id).1.isEmpty = true := by
          simpa [framesOf] using hframes
        rw [List.find?_cons_of_pos (by simpa using hbusy)]
        dsimp only
        rw [if_neg hfull]
        rfl

/-- All that `egest` does. -/
theorem egest_eq (c : Connection σ) (bufLen : Nat) :
    c.egest bufLen =
      if c.state = .closed then (err .closed, c)
      else match c.firstBusy with
        | none => (ok [], c)
        | some id =>
          match c.packetOf id with
          | err e => (err e, c.built id)
          | .panic => (.panic, c.built id)
          | ok packet =>
            if bufLen < packet.length then (ok [], c.built id) else (ok packet, c.sent id) := by
  unfold egest firstBusy
  split_ifs
  · rfl
  · rw [egestLoop_eq]
    cases List.find? (fun id => decide (c.Busy id)) [.initial, .handshake, .applicationData] with
    | none => rfl
    | some id => exact emit_eq c bufLen id

/-- The ways a call of `egest` can end. A packet that leaves is never empty. -/
inductive EgestStep (c : Connection σ) (bufLen : Nat) :
    Outcome ConnectionError Bytes → Connection σ → Prop where
  | closed : c.state = .closed → EgestStep c bufLen (err .closed) c
  | idle : c.state ≠ .closed → c.firstBusy = none → EgestStep c bufLen (ok []) c
  | failed {id : PacketNumberSpace} {e : ConnectionError} : c.state ≠ .closed →
      c.firstBusy = some id → c.packetOf id = err e → EgestStep c bufLen (err e) (c.built id)
  | tooLong {id : PacketNumberSpace} {packet : Bytes} : c.state ≠ .closed →
      c.firstBusy = some id → c.packetOf id = ok packet → bufLen < packet.length →
      EgestStep c bufLen (ok []) (c.built id)
  | left {id : PacketNumberSpace} {packet : Bytes} : c.state ≠ .closed →
      c.firstBusy = some id → c.packetOf id = ok packet → packet.length ≤ bufLen →
      packet ≠ [] → EgestStep c bufLen (ok packet) (c.sent id)

lemma egest_step (c : Connection σ) (bufLen : Nat) :
    EgestStep c bufLen (c.egest bufLen).1 (c.egest bufLen).2 := by
  rw [egest_eq]
  by_cases hclosed : c.state = .closed
  · rw [if_pos hclosed]
    exact .closed hclosed
  · rw [if_neg hclosed]
    cases hbusy : c.firstBusy with
    | none => exact .idle hclosed hbusy
    | some id =>
      have hsafe := packetOf_safe c id
      cases hpacket : c.packetOf id with
      | err e =>
        simp only [hpacket]
        exact .failed hclosed hbusy hpacket
      | panic => exact absurd hpacket hsafe.ne_panic
      | ok packet =>
        simp only [hpacket]
        by_cases hlong : bufLen < packet.length
        · rw [if_pos hlong]
          exact .tooLong hclosed hbusy hpacket hlong
        · rw [if_neg hlong]
          have hne : packet ≠ [] := List.ne_nil_of_length_pos (hsafe.of_ok hpacket)
          exact .left hclosed hbusy hpacket (Nat.not_lt.mp hlong) hne

/-- What is logged as sent is what is handed out: the packet that `encryptPacket` makes of the frames
and the number in the log. Without a packet nothing is logged as sent. -/
def LogsPacket (c : Connection σ) (bufLen : Nat) : Prop :=
  (∃ id packet, (c.egest bufLen).1 = ok packet ∧ packet ≠ [] ∧ c.packetOf id = ok packet ∧
    (c.egest bufLen).2.history = c.history ++
      [.built id (c.spaces id).nextSendPn (c.framesOf id),
        .sent id (c.spaces id).nextSendPn (c.framesOf id)]) ∨
  (∀ packet, (c.egest bufLen).1 = ok packet → packet = []) ∧
    ∃ es, (c.egest bufLen).2.history = c.history ++ es ∧
      ∀ e ∈ es, ∃ id, e = .built id (c.spaces id).nextSendPn (c.framesOf id)

lemma logsPacket (c : Connection σ) (bufLen : Nat) : LogsPacket c bufLen := by
  have hbuilt : ∀ id, (c.built id).history =
      c.history ++ [.built id (c.spaces id).nextSendPn (c.framesOf id)] := by
    intro id
    rw [built, drained_eq]
    rfl
  have hstep := egest_step c bufLen
  unfold LogsPacket
  generalize (c.egest bufLen).1 = result at hstep ⊢
  generalize (c.egest bufLen).2 = c' at hstep ⊢
  cases hstep with
  | closed _ => exact .inr ⟨by simp, [], (List.append_nil _).symm, by simp⟩
  | idle _ _ => exact .inr ⟨by simp, [], (List.append_nil _).symm, by simp⟩
  | @failed id e _ _ _ => exact .inr ⟨by simp, _, hbuilt id, by simp⟩
  | @tooLong id packet _ _ _ _ => exact .inr ⟨by simp, _, hbuilt id, by simp⟩
  | @left id packet _ _ hpacket _ hne =>
    refine .inl ⟨id, packet, rfl, hne, hpacket, ?_⟩
    rw [sent, log, hbuilt, List.append_assoc]
    rfl

lemma firstBusy_busy {c : Connection σ} {id : PacketNumberSpace} (h : c.firstBusy = some id) :
    c.Busy id := by
  simpa using List.find?_some h

/-- The form in which concrete states are checked. -/
lemma leaves_of_all {c : Connection σ} {bufLen : Nat}
    (h : c.firstBusy.all (fun id => decide (c.Leaves bufLen id)) = true) (id : PacketNumberSpace)
    (hbusy : c.firstBusy = some id) : c.Leaves bufLen id := by
  rw [hbusy] at h
  exact of_decide_eq_true h

/-- An `egest` that reaches a packet hands it out, or leaves its content lost. -/
lemma egest_next {c : Connection σ} (bufLen : Nat) {id : PacketNumberSpace}
    (hopen : c.state ≠ .closed) (hbusy : c.firstBusy = some id) :
    (c.Leaves bufLen id → (c.egest bufLen).2 = c.sent id) ∧
      (¬ c.Leaves bufLen id → (c.egest bufLen).2 = c.built id) := by
  rw [egest_eq, if_neg hopen, hbusy]
  dsimp only
  unfold Leaves
  cases c.packetOf id with
  | err e | panic => simp
  | ok packet =>
    by_cases hfits : packet.length ≤ bufLen
    · simp [hfits, Nat.not_lt.mpr hfits]
    · simp [hfits, Nat.not_le.mp hfits]

lemma egest_idle {c : Connection σ} (bufLen : Nat)
    (h : c.state = .closed ∨ c.firstBusy = none) : (c.egest bufLen).2 = c := by
  rw [egest_eq]
  by_cases hclosed : c.state = .closed
  · rw [if_pos hclosed]
  · rw [if_neg hclosed, h.resolve_left hclosed]

/-- `P` holds after `egest` when it holds before, after the packet was built and after it
was sent. -/
lemma egest_induction {P : Connection σ → Prop} {c : Connection σ} (bufLen : Nat) (start : P c)
    (built : ∀ id, c.state ≠ .closed → c.firstBusy = some id → ¬ c.Leaves bufLen id →
      P (c.built id))
    (sent : ∀ id, c.state ≠ .closed → c.firstBusy = some id → c.Leaves bufLen id →
      P (c.sent id)) :
    P (c.egest bufLen).2 := by
  by_cases hidle : c.state = .closed ∨ c.firstBusy = none
  · rw [egest_idle bufLen hidle]
    exact start
  · obtain ⟨hopen, hbusy⟩ := not_or.mp hidle
    obtain ⟨id, hbusy⟩ := Option.ne_none_iff_exists'.mp hbusy
    obtain ⟨hsent, hbuilt⟩ := egest_next bufLen hopen hbusy
    by_cases hleaves : c.Leaves bufLen id
    · rw [hsent hleaves]
      exact sent id hopen hbusy hleaves
    · rw [hbuilt hleaves]
      exact built id hopen hbusy hleaves

/-- Building a packet leaves what was received, the role and the keys alone. -/
lemma built_same (c : Connection σ) (id : PacketNumberSpace) :
    (c.built id).receivedAppData = c.receivedAppData ∧ (c.built id).side = c.side ∧
      (∀ id', ((c.built id).spaces id').keys = (c.spaces id').keys) ∧
      (c.built id).history =
        c.history ++ [.built id (c.spaces id).nextSendPn (c.framesOf id)] := by
  rw [built, drained_eq]
  refine ⟨rfl, rfl, fun id' => ?_, rfl⟩
  by_cases hid : id' = id
  · subst hid
    simp [log, setSpace, Space.takeNextSendPn]
  · simp [log, setSpace, hid]

section

variable (c : Connection σ) (id : PacketNumberSpace)

lemma state_built : (c.built id).state = if c.Confirms id then .established else c.state := by
  rw [built, drained_eq]
  rfl

lemma pendingCrypto_built :
    (c.built id).pendingCrypto = Function.update c.pendingCrypto (pnSpaceToLevel id) [] := by
  rw [built, drained_eq]
  rfl

lemma cryptoRecvOffset_built : (c.built id).cryptoRecvOffset = c.cryptoRecvOffset := by
  rw [built, drained_eq]
  rfl

lemma pendingAppData_built :
    (c.built id).pendingAppData = if c.Streams id then [] else c.pendingAppData := by
  rw [built, drained_eq]
  rfl

lemma streamSendOffset_built :
    (c.built id).streamSendOffset =
      if c.Streams id then c.streamSendOffset + c.pendingAppData.length
      else c.streamSendOffset := by
  rw [built, drained_eq]
  rfl

lemma hasKeys_built (id' : PacketNumberSpace) :
    ((c.built id).spaces id').hasKeys = (c.spaces id').hasKeys :=
  congrArg Option.isSome ((built_same c id).2.2.1 id')

lemma pendingAcks_built (id' : PacketNumberSpace) :
    ((c.built id).spaces id').pendingAcks =
      if id' = id then [] else (c.spaces id').pendingAcks := by
  rw [built, drained_eq]
  by_cases hid : id' = id
  · subst hid
    simp [log, setSpace, Space.takeNextSendPn]
  · simp [log, setSpace, hid]

lemma nextSendPn_built (id' : PacketNumberSpace) :
    ((c.built id).spaces id').nextSendPn =
      if id' = id then (c.spaces id').nextSendPn + 1 else (c.spaces id').nextSendPn := by
  rw [built, drained_eq]
  by_cases hid : id' = id
  · subst hid
    simp [log, setSpace, Space.takeNextSendPn]
  · simp [log, setSpace, hid]

end

/-- No step takes anything out of the history. -/
lemma history_next {R : Rustls σ} (c : Connection σ) (op : Op) :
    ∃ es, (next R c op).history = c.history ++ es := by
  cases op with
  | ingest buf =>
    obtain ⟨es, hes, _⟩ := ingest_history R c buf
    exact ⟨es, hes⟩
  | egest bufLen =>
    apply egest_induction (P := fun c' => ∃ es, c'.history = c.history ++ es) bufLen
    · exact ⟨[], (List.append_nil _).symm⟩
    · intro id _ _ _
      exact ⟨_, (built_same c id).2.2.2⟩
    · intro id _ _ _
      have hsent : (c.sent id).history = (c.built id).history ++
          [.sent id (c.spaces id).nextSendPn (c.framesOf id)] := rfl
      exact ⟨_, by rw [hsent, (built_same c id).2.2.2, List.append_assoc]⟩
  | sendData data | recvData bufLen => exact ⟨[_], rfl⟩

structure Unchanged (c c' : Connection σ) : Prop where
  crypto : c'.pendingCrypto = c.pendingCrypto
  acks : ∀ id, (c'.spaces id).pendingAcks = (c.spaces id).pendingAcks
  appData : c'.pendingAppData = c.pendingAppData
  sendOffset : c'.streamSendOffset = c.streamSendOffset
  state : c'.state = c.state

lemma Unchanged.refl (c : Connection σ) : Unchanged c c := ⟨rfl, fun _ => rfl, rfl, rfl, rfl⟩

/-- Whatever the packet was made of has left the state. -/
lemma not_unchanged_built {c : Connection σ} {id : PacketNumberSpace} (h : c.framesOf id ≠ []) :
    ¬ Unchanged c (c.built id) := by
  intro hsame
  apply h
  rw [framesOf_eq]
  have hcrypto : c.pendingCrypto (pnSpaceToLevel id) = [] := by
    have hlevel := congrFun hsame.crypto (pnSpaceToLevel id)
    rw [pendingCrypto_built, Function.update_self] at hlevel
    exact hlevel.symm
  have hacks : (c.spaces id).pendingAcks = [] := by
    have hid := hsame.acks id
    rw [pendingAcks_built, if_pos rfl] at hid
    exact hid.symm
  have hdone : ¬ c.Confirms id := by
    intro hdone
    have hstate := hsame.state
    rw [state_built, if_pos hdone, hdone.2.2] at hstate
    cases hstate
  have hstream : ¬ c.Streams id := by
    intro hstream
    have happ := hsame.appData
    rw [pendingAppData_built, if_pos hstream] at happ
    exact hstream.2.2 happ.symm
  rw [if_pos hcrypto, if_pos hacks, if_neg hdone, if_neg hstream]
  rfl

/-- A call of `egest` that returns no packet keeps the queues exactly when the connection is
closed, nothing is queued, or the packet could have been handed out. -/
theorem egest_keeps_queues_iff (c : Connection σ) (bufLen : Nat) :
    (((c.egest bufLen).1 = ok [] ∨ ∃ e, (c.egest bufLen).1 = err e) →
      Unchanged c (c.egest bufLen).2 ∧
        ∀ id, (c.egest bufLen).2.framesOf id = c.framesOf id) ↔
      c.state = .closed ∨ ∀ id, c.firstBusy = some id → c.Leaves bufLen id := by
  have hstep := egest_step c bufLen
  generalize c.egest bufLen = out at hstep
  obtain ⟨result, c'⟩ := out
  constructor
  · intro hkeeps
    cases hstep with
    | closed hclosed => exact .inl hclosed
    | idle _ hnone => exact .inr fun id hbusy => by cases hnone.symm.trans hbusy
    | failed _ hbusy _ =>
      exact absurd (hkeeps (.inr ⟨_, rfl⟩)).1 (not_unchanged_built (firstBusy_busy hbusy).2)
    | tooLong _ hbusy _ _ =>
      exact absurd (hkeeps (.inl rfl)).1 (not_unchanged_built (firstBusy_busy hbusy).2)
    | left _ hbusy hpacket hfits _ =>
      refine .inr fun id' hbusy' => ?_
      obtain rfl := Option.some.inj (hbusy.symm.trans hbusy')
      exact ⟨_, hpacket, hfits⟩
  · intro hcond hfailed
    have hsame : c' = c := by
      cases hstep with
      | closed _ => rfl
      | idle _ _ => rfl
      | failed hopen hbusy hpacket =>
        obtain ⟨packet, hout, _⟩ := hcond.resolve_left hopen _ hbusy
        cases hpacket.symm.trans hout
      | tooLong hopen hbusy hpacket hlong =>
        obtain ⟨packet, hout, hfits⟩ := hcond.resolve_left hopen _ hbusy
        obtain rfl := ok.inj (hpacket.symm.trans hout)
        exact absurd hlong (Nat.not_lt.mpr hfits)
      | left _ _ _ _ hne =>
        rcases hfailed with hempty | ⟨e, herr⟩
        · exact absurd (ok.inj hempty) hne
        · cases herr
    rw [hsame]
    exact ⟨Unchanged.refl c, fun _ => rfl⟩

/-- A packet that does not fit takes the application's data with it. -/
theorem egest_drops_data :
    (((plainConnection plainMask).sendData [7]).egest 16).1 = ok [] ∧
      ((plainConnection plainMask).sendData [7]).pendingAppData = [7] ∧
      (((plainConnection plainMask).sendData [7]).egest 16).2.pendingAppData = [] := by
  decide +kernel

end DeerQuic.Connection
