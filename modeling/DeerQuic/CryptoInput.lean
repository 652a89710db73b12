import DeerQuic.Egest

/-!
# The peer's handshake data on its way to TLS

Of the CRYPTO frames of a level TLS is given those that start exactly where it stopped
reading. What it has read is therefore always the front of the peer's stream, however the
frames arrive.
-/

namespace DeerQuic

open Outcome Protection Transition

/-- What TLS accepted from the CRYPTO frames of the level, in order. -/
def accepted (level : Nat) (events : List Event) : Bytes :=
  events.flatMap fun
    | .tlsRead l data => if l = level then data else []
    | _ => []

lemma accepted_append (level : Nat) (events more : List Event) :
    accepted level (events ++ more) = accepted level events ++ accepted level more := by
  simp [accepted]

lemma accepted_eq_nil {level : Nat} {events : List Event}
    (h : ∀ e ∈ events, ∀ data, e ≠ .tlsRead level data) : accepted level events = [] := by
  apply List.flatMap_eq_nil_iff.mpr
  intro e he
  have hother := h e he
  cases e with
  | tlsRead l data =>
    apply if_neg
    rintro rfl
    exact hother data rfl
  | _ => rfl

/-- The frame's data, if it is a CRYPTO frame, is what the stream has at its offset. -/
def Frame.SliceOf (stream : Bytes) (frame : Frame) : Prop :=
  ∀ offset data, frame = .crypto offset data →
    offset + data.length ≤ stream.length ∧ data = (stream.drop offset).take data.length

lemma Frame.sliceOf_crypto {stream data : Bytes} {offset : Nat}
    (hfits : offset + data.length ≤ stream.length)
    (hdata : data = (stream.drop offset).take data.length) :
    (Frame.crypto offset data).SliceOf stream := by
  rintro _ _ heq
  obtain ⟨rfl, rfl⟩ := Frame.crypto.inj heq
  exact ⟨hfits, hdata⟩

namespace Connection

variable {σ : Type} {R : Rustls σ}

/-- What reaches a connection: an operation of the caller, or the frames of a packet of the
space, whatever it takes to protect such a packet. -/
inductive Call where
  | op (op : Op)
  | frames (id : PacketNumberSpace) (frames : List Frame)

variable (R) in
def call (c : Connection σ) : Call → Connection σ
  | .op op => next R c op
  | .frames id frames => (processFrames R id frames c).2

variable (R) in
/-- The chunk that `read_hs` takes when the frame is processed: only one that starts at the receive
offset is given to it. -/
def chunkTaken (level : Nat) (id : PacketNumberSpace) (c : Connection σ) : Frame → Bytes
  | .crypto offset data =>
    if pnSpaceToLevel id = level ∧ offset = c.cryptoRecvOffset (pnSpaceToLevel id) then
      match (R.readHs c.tls data).2 with
      | .ok _ => data
      | .error _ => []
    else []
  | _ => []

variable (R) in
def chunksTaken (level : Nat) (id : PacketNumberSpace) : List Frame → Connection σ → Bytes
  | [], _ => []
  | frame :: frames, c => chunkTaken R level id c frame ++
      if (c.processFrame R id frame).1 = ok () then
        chunksTaken level id frames (frameNext R id c frame)
      else []

variable (R) in
/-- What `read_hs` takes in a call. -/
def tlsInput (level : Nat) (c : Connection σ) : Call → List UInt8
  | .op (.ingest buf) =>
    if c.state = .closed then []
    else match c.openPacket buf with
      | ok (id, pn, frames) => chunksTaken R level id frames (c.recordRecvPn id pn)
      | _ => []
  | .op _ => []
  | .frames id frames => chunksTaken R level id frames c

/-- All CRYPTO frames are cut from the peer's streams, one for each level. -/
def CutFrom (S : Nat → Bytes) (c : Connection σ) : Call → Prop
  | .op (.ingest buf) => c.state ≠ .closed → ∀ id pn frames,
      c.openPacket buf = ok (id, pn, frames) → ∀ f ∈ frames, f.SliceOf (S (pnSpaceToLevel id))
  | .op _ => True
  | .frames id frames => ∀ f ∈ frames, f.SliceOf (S (pnSpaceToLevel id))

/-- TLS has read the front of each stream, up to the receive offset. -/
def ReadsFront (S : Nat → Bytes) (c : Connection σ) : Prop :=
  ∀ level, accepted level c.history = (S level).take (c.cryptoRecvOffset level) ∧
    c.cryptoRecvOffset level ≤ (S level).length

lemma accepted_answers (level l : Nat) (tls : σ) : accepted level (answers R l tls) = [] := by
  apply accepted_eq_nil
  intro e he data
  unfold answers at he
  rcases List.mem_cons.mp he with rfl | he
  · simp
  · split_ifs at he
    · rw [List.mem_singleton.mp he]
      simp
    · cases he

lemma accepted_logged {level : Nat} {c c' : Connection σ} {es : List Event}
    (hhistory : c'.history = c.history ++ es)
    (hes : ∀ e ∈ es, ∀ level data, e ≠ .tlsRead level data) :
    accepted level c'.history = accepted level c.history := by
  rw [hhistory, accepted_append, accepted_eq_nil fun e he => hes e he level, List.append_nil]

lemma readsFront_same {S : Nat → Bytes} {c c' : Connection σ} {es : List Event}
    (h : ReadsFront S c) (hhistory : c'.history = c.history ++ es)
    (hes : ∀ e ∈ es, ∀ level data, e ≠ .tlsRead level data)
    (hoffset : c'.cryptoRecvOffset = c.cryptoRecvOffset) : ReadsFront S c' := by
  intro level
  rw [accepted_logged hhistory hes, hoffset]
  exact h level

lemma accepted_frameNext (level : Nat) (id : PacketNumberSpace) (c : Connection σ)
    (frame : Frame) :
    accepted level (frameNext R id c frame).history =
      accepted level c.history ++ chunkTaken R level id c frame := by
  generalize hnext : frameNext R id c frame = c'
  have hstep := frameNext_step R id c frame
  rw [hnext] at hstep
  have hlogged : ∀ c' : Connection σ, c'.history = c.history ++ [.processed id frame] →
      chunkTaken R level id c frame = [] →
      accepted level c'.history = accepted level c.history ++ chunkTaken R level id c frame := by
    intro c' hhistory hnone
    rw [accepted_logged hhistory (by simp), hnone, List.append_nil]
  cases hstep with
  | @refused offset data e hoffset hrefused =>
    have hnone : chunkTaken R level id c (.crypto offset data) = [] := by
      simp only [chunkTaken, hrefused, ite_self]
    rw [hnone, List.append_nil]
  | @fed offset data c' hoffset hread hrun =>
    change accepted level (c'.history ++ [_]) = _
    rw [hrun.history_eq, ← List.singleton_append, accepted_append, accepted_append,
      accepted_append, accepted_answers]
    by_cases hlevel : pnSpaceToLevel id = level
    · simp [accepted, chunkTaken, hlevel, hoffset, hread]
    · simp [accepted, chunkTaken, hlevel]
  | @skipped offset data hoffset =>
    have hother : ¬ (pnSpaceToLevel id = level ∧ offset = c.cryptoRecvOffset (pnSpaceToLevel id)) :=
      fun h => hoffset h.2
    exact hlogged _ rfl (if_neg hother)
  | closed _ | confirmed _ | stream => exact hlogged _ rfl rfl
  | ignored hidle =>
    refine hlogged _ rfl ?_
    cases frame with
    | crypto => exact hidle.elim
    | _ => rfl

lemma accepted_processFrames (level : Nat) (id : PacketNumberSpace) (frames : List Frame)
    (c : Connection σ) :
    accepted level (processFrames R id frames c).2.history =
      accepted level c.history ++ chunksTaken R level id frames c := by
  induction frames generalizing c with
  | nil => exact (List.append_nil _).symm
  | cons frame frames ih =>
    rw [processFrames_cons, chunksTaken]
    split_ifs
    · rw [ih, accepted_frameNext, List.append_assoc]
    · rw [accepted_frameNext, List.append_nil]

lemma accepted_call (level : Nat) (c : Connection σ) (called : Call) :
    accepted level (call R c called).history =
      accepted level c.history ++ tlsInput R level c called := by
  have hlogged : ∀ (c c' : Connection σ) (e : Event), c'.history = c.history ++ [e] →
      (∀ level data, e ≠ .tlsRead level data) →
      accepted level c'.history = accepted level c.history := by
    intro c c' e hhistory he
    refine accepted_logged hhistory fun e' he' => ?_
    rw [List.mem_singleton.mp he']
    exact he
  cases called with
  | frames id frames => exact accepted_processFrames level id frames c
  | op op =>
    cases op with
    | ingest buf =>
      rcases opened_or R c buf with ⟨id, pn, frames, hstate, hopen⟩ | ⟨hsame, hunopened⟩
      · have hinput : tlsInput R level c (.op (.ingest buf)) =
            chunksTaken R level id frames (c.recordRecvPn id pn) := by
          simp only [tlsInput, hstate, hopen, if_false]
        change accepted level (c.ingest R buf).2.history = _
        rw [ingest_of_open R hstate hopen, accepted_processFrames, hinput,
          hlogged c (c.recordRecvPn id pn) (.received id pn) rfl (by simp)]
      · have hinput : tlsInput R level c (.op (.ingest buf)) = [] :=
          made_unopened hunopened fun id pn frames =>
            chunksTaken R level id frames (c.recordRecvPn id pn)
        change accepted level (c.ingest R buf).2.history = _
        rw [hsame, hinput, List.append_nil]
    | egest bufLen =>
      have hbuilt : ∀ id, accepted level (c.built id).history = accepted level c.history :=
        fun id => hlogged _ _ _ (built_same c id).2.2.2 (by simp)
      change accepted level (c.egest bufLen).2.history = accepted level c.history ++ []
      rw [List.append_nil]
      exact egest_induction (P := fun c' => accepted level c'.history = accepted level c.history)
        bufLen rfl (fun id _ _ _ => hbuilt id)
        (fun id _ _ _ => (hlogged _ _ _ rfl (by simp)).trans (hbuilt id))
    | sendData data => exact (hlogged _ _ (.queued data) rfl (by simp)).trans (List.append_nil _).symm
    | recvData bufLen =>
      exact (hlogged _ _ (.delivered bufLen _) rfl (by simp)).trans (List.append_nil _).symm

/-- The log has what `read_hs` took, call by call. -/
lemma accepted_run (level : Nat) (s : Connection σ) (calls : List Call) :
    accepted level (run (call R) s calls).history =
      accepted level s.history ++ observed (call R) (tlsInput R level) s calls := by
  induction calls generalizing s with
  | nil => exact (List.append_nil _).symm
  | cons called calls ih => rw [run_cons, ih, accepted_call, observed, List.append_assoc]

/-- The chunk is the next piece of the stream. -/
lemma take_chunk {stream data : Bytes} {offset : Nat} (hdata : data = (stream.drop offset).take
    data.length) : stream.take offset ++ data = stream.take (offset + data.length) := by
  rw [List.take_add, ← hdata]

lemma readsFront_frameNext {S : Nat → Bytes} (id : PacketNumberSpace) (c : Connection σ)
    (frame : Frame) (h : ReadsFront S c) (hcut : frame.SliceOf (S (pnSpaceToLevel id))) :
    ReadsFront S (frameNext R id c frame) := by
  generalize hnext : frameNext R id c frame = c'
  have hstep := frameNext_step R id c frame
  rw [hnext] at hstep
  cases hstep with
  | refused _ _ => exact h
  | @fed offset data c' hoffset hread hrun =>
    subst hoffset
    obtain ⟨hfits, hdata⟩ := hcut _ _ rfl
    intro level
    obtain ⟨hfront, hle⟩ := h level
    rw [← hnext, accepted_frameNext, frameNext_offset R id hread, hfront]
    by_cases hlevel : pnSpaceToLevel id = level
    · subst hlevel
      rw [Function.update_self, ← take_chunk hdata]
      simp only [chunkTaken, and_self, if_true, hread]
      exact ⟨trivial, hfits⟩
    · rw [Function.update_of_ne (Ne.symm hlevel)]
      simp only [chunkTaken, hlevel, false_and, if_false, List.append_nil]
      exact ⟨trivial, hle⟩
  | skipped _ | closed _ | confirmed _ | stream | ignored _ =>
    refine readsFront_same h rfl ?_ rfl
    intro e he level data
    rw [List.mem_singleton.mp he]
    simp

lemma readsFront_recorded {S : Nat → Bytes} {c : Connection σ} (h : ReadsFront S c)
    (id : PacketNumberSpace) (pn : Nat) : ReadsFront S (c.recordRecvPn id pn) := by
  refine readsFront_same h rfl ?_ rfl
  intro e he level data
  rw [List.mem_singleton.mp he]
  simp

lemma readsFront_built {S : Nat → Bytes} {c : Connection σ} (h : ReadsFront S c)
    (id : PacketNumberSpace) : ReadsFront S (c.built id) := by
  refine readsFront_same h (built_same c id).2.2.2 ?_ ?_
  · intro e he level data
    rw [List.mem_singleton.mp he]
    simp
  · exact cryptoRecvOffset_built c id

lemma readsFront_call {S : Nat → Bytes} {c : Connection σ} (called : Call) (h : ReadsFront S c)
    (hcut : CutFrom S c called) : ReadsFront S (call R c called) := by
  have hlogged : ∀ (c : Connection σ) (e : Event), ReadsFront S c →
      (∀ level data, e ≠ .tlsRead level data) → ReadsFront S (c.log e) := by
    intro c e hc he
    refine readsFront_same hc rfl ?_ rfl
    intro e' he'
    rw [List.mem_singleton.mp he']
    exact he
  cases called with
  | frames id frames =>
    apply processFrames_along R (fun c frame => readsFront_frameNext id c frame) h
    exact framesAlong_of_forall R (fun _ => hcut) c
  | op op =>
    cases op with
    | ingest buf =>
      refine ingest_along (P := ReadsFront S) R (fun _ id pn hc => readsFront_recorded hc id pn)
        (fun id c frame hc hf => readsFront_frameNext id c frame hc hf) h ?_
      intro hstate id pn frames hopen
      exact framesAlong_of_forall R (fun _ => hcut hstate id pn frames hopen) _
    | egest bufLen =>
      refine egest_induction bufLen h (fun id _ _ _ => readsFront_built h id) fun id _ _ _ => ?_
      exact hlogged _ _ (readsFront_built h id) (by simp)
    | sendData data => exact hlogged _ _ h (by simp)
    | recvData bufLen => exact hlogged _ _ h (by simp)

/-- At every level `read_hs` takes the front of the peer's stream, byte by byte up to the receive
offset, in whatever order and however often its pieces arrive and whatever TLS refuses. -/
theorem tls_reads_front {serverName : String} {dstCid srcCid packet : Bytes} {s : Connection σ}
    (hs : connect R serverName dstCid srcCid = ok (s, packet)) (S : Nat → Bytes)
    {calls : List Call} (hcut : Along (call R) (CutFrom S) s calls) :
    (∀ level, accepted level (run (call R) s calls).history =
      observed (call R) (tlsInput R level) s calls) ∧
      Always (call R) (ReadsFront S) s calls := by
  obtain ⟨_, _, _, _, _, _, rfl⟩ := connect_eq hs
  refine ⟨fun level => accepted_run level _ calls, ?_⟩
  apply always_of_along (fun c called h hcut => readsFront_call called h hcut) ?_ hcut
  intro level
  exact ⟨rfl, Nat.zero_le _⟩

/-- A piece ahead, the first piece twice, and the last again with an overlap. -/
theorem tls_reads_front_three :
    (∀ level, accepted level (run (call (scripted [([1], none)])) (plainClient [([1], none)])
        [.frames .handshake [.crypto 2 [6], .crypto 0 [4, 5]],
          .frames .handshake [.crypto 0 [4, 5], .crypto 1 [5, 6], .crypto 2 [6]]]).history =
      observed (call (scripted [([1], none)])) (tlsInput (scripted [([1], none)]) level)
        (plainClient [([1], none)])
        [.frames .handshake [.crypto 2 [6], .crypto 0 [4, 5]],
          .frames .handshake [.crypto 0 [4, 5], .crypto 1 [5, 6], .crypto 2 [6]]]) ∧
    Always (call (scripted [([1], none)])) (ReadsFront fun _ => [4, 5, 6])
      (plainClient [([1], none)])
      [.frames .handshake [.crypto 2 [6], .crypto 0 [4, 5]],
        .frames .handshake [.crypto 0 [4, 5], .crypto 1 [5, 6], .crypto 2 [6]]] := by
  obtain ⟨_, hs⟩ := plainClient_connect [([1], none)] (by decide +kernel)
  refine tls_reads_front hs _ ⟨?_, ?_, trivial⟩
  · intro f hf
    simp only [List.mem_cons, List.not_mem_nil, or_false] at hf
    rcases hf with rfl | rfl <;> exact Frame.sliceOf_crypto (by decide) (by decide)
  · intro f hf
    simp only [List.mem_cons, List.not_mem_nil, or_false] at hf
    rcases hf with rfl | rfl | rfl <;> exact Frame.sliceOf_crypto (by decide) (by decide)

end Connection
end DeerQuic
