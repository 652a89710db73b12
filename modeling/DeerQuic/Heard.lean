import DeerQuic.Authentic
import DeerQuic.ClientHello
import DeerQuic.Stream

/-!
# What the applications and TLS get to hear

Over a network that forges nothing, the stream data of a side is made of chunks that the other side
has sent, each cut from the data handed over there at the offset it claims. A network that in
addition keeps the order and repeats nothing loses data at most. TLS takes one chunk at each level at
most, since CRYPTO frames are sent with offset 0 and read where the last one ended.
-/

namespace DeerQuic

open Outcome Protection Transition

/-- The data of the STREAM frames processed so far, with the offsets they claim. -/
def heardStream (events : List Event) : List (Nat × Bytes) :=
  events.flatMap fun
    | .processed _ (.stream _ offset data _) => [(offset, data)]
    | _ => []

/-- The offsets play no part for what is handed to the application. -/
lemma arrived_eq_heard (events : List Event) :
    arrived events = (heardStream events).flatMap Prod.snd := by
  rw [arrived, heardStream, List.flatMap_assoc]
  refine congrArg (fun f => events.flatMap f) (funext fun e => ?_)
  cases e with
  | processed id frame => cases frame <;> simp [Frame.streamData]
  | _ => rfl

lemma mem_heardStream {events : List Event} {chunk : Nat × Bytes} :
    chunk ∈ heardStream events ↔
      ∃ id streamId fin, .processed id (.stream streamId chunk.1 chunk.2 fin) ∈ events := by
  rw [heardStream, List.mem_flatMap]
  constructor
  · rintro ⟨e, he, hchunk⟩
    cases e with
    | processed id frame =>
      cases frame with
      | stream streamId offset data fin =>
        obtain rfl := List.mem_singleton.mp hchunk
        exact ⟨id, streamId, fin, he⟩
      | _ => exact absurd hchunk List.not_mem_nil
    | _ => exact absurd hchunk List.not_mem_nil
  · rintro ⟨id, streamId, fin, he⟩
    exact ⟨_, he, List.mem_singleton.mpr rfl⟩

lemma mem_sentStream {events : List Event} {offset : Nat} {data : Bytes} {id : PacketNumberSpace}
    {pn : Nat} {frames : List Frame} {fin : Bool} (hsent : .sent id pn frames ∈ events)
    (hframe : .stream 0 offset data fin ∈ frames) : (offset, data) ∈ sentStream events :=
  List.mem_flatMap.mpr ⟨_, hsent, List.mem_filterMap.mpr ⟨_, hframe, by simp⟩⟩

/-- The chunks that TLS has taken at a level, less the empty ones. -/
def readChunks (level : Nat) (events : List Event) : List Bytes :=
  events.flatMap fun
    | .tlsRead l data => if l = level ∧ data ≠ [] then [data] else []
    | _ => []

lemma readChunks_append (level : Nat) (events more : List Event) :
    readChunks level (events ++ more) = readChunks level events ++ readChunks level more := by
  simp [readChunks]

lemma readChunks_nil (level : Nat) {events : List Event}
    (h : ∀ l data, .tlsRead l data ∉ events) : readChunks level events = [] := by
  refine List.flatMap_eq_nil_iff.mpr fun e he => ?_
  cases e with
  | tlsRead l data => exact absurd he (h l data)
  | _ => rfl

namespace Connection

variable {σ : Type} {R : Rustls σ}

/-- Packets may fail to leave: the offset goes on all the same. -/
structure Sliced (c : Connection σ) : Prop where
  slices : ∀ chunk ∈ sentStream c.history, chunk.2 <+: (queuedData c.history).drop chunk.1
  rest : c.pendingAppData = (queuedData c.history).drop c.streamSendOffset
  bound : c.streamSendOffset ≤ (queuedData c.history).length

lemma Sliced.same {c c' : Connection σ} {es : List Event} (h : Sliced c)
    (hhistory : c'.history = c.history ++ es) (hes : sentStream es = [] ∧ queuedData es = [])
    (hpending : c'.pendingAppData = c.pendingAppData)
    (hoffset : c'.streamSendOffset = c.streamSendOffset) : Sliced c' := by
  have hsent : sentStream c'.history = sentStream c.history := by
    rw [hhistory, sentStream_append, hes.1, List.append_nil]
  have hqueued : queuedData c'.history = queuedData c.history := by
    rw [hhistory, queuedData_append, hes.2, List.append_nil]
  constructor
  · rw [hsent, hqueued]
    exact h.slices
  · rw [hpending, hqueued, hoffset]
    exact h.rest
  · rw [hqueued, hoffset]
    exact h.bound

/-- The offset moves behind the data that were taken. -/
lemma sliced_built {c : Connection σ} (h : Sliced c) (id : PacketNumberSpace) :
    Sliced (c.built id) := by
  have hhistory := (built_same c id).2.2.2
  have hsent : sentStream (c.built id).history = sentStream c.history := by
    rw [hhistory, sentStream_append]
    exact List.append_nil _
  have hqueued : queuedData (c.built id).history = queuedData c.history := by
    rw [hhistory, queuedData_append]
    exact List.append_nil _
  have hlength : c.pendingAppData.length =
      (queuedData c.history).length - c.streamSendOffset := by
    rw [h.rest, List.length_drop]
  have hbound := h.bound
  constructor
  · rw [hsent, hqueued]
    exact h.slices
  · rw [hqueued, pendingAppData_built, streamSendOffset_built]
    split_ifs
    · exact (List.drop_eq_nil_of_le (by omega)).symm
    · exact h.rest
  · rw [hqueued, streamSendOffset_built]
    split_ifs <;> omega

/-- A chunk that leaves is what is left of the data at its offset. -/
lemma sliced_sent {c : Connection σ} (h : Sliced c) (id : PacketNumberSpace) : Sliced (c.sent id) := by
  obtain ⟨hslices, hrest, hbound⟩ := sliced_built h id
  have hqueued : queuedData (c.sent id).history = queuedData (c.built id).history := by
    rw [sent, log, queuedData_append]
    exact List.append_nil _
  have hbuilt : queuedData (c.built id).history = queuedData c.history := by
    rw [(built_same c id).2.2.2, queuedData_append]
    exact List.append_nil _
  refine ⟨?_, hqueued ▸ hrest, hqueued ▸ hbound⟩
  rw [hqueued, sent, log, sentStream_append, stream_framesOf]
  intro chunk hchunk
  rcases List.mem_append.mp hchunk with hold | hnew
  · exact hslices chunk hold
  · split_ifs at hnew
    · obtain rfl := List.mem_singleton.mp hnew
      rw [hbuilt, h.rest]
    · exact absurd hnew List.not_mem_nil

lemma sliced_frameNext (id : PacketNumberSpace) {c : Connection σ} (frame : Frame)
    (h : Sliced c) : Sliced (frameNext R id c frame) := by
  obtain ⟨es, hes, hin⟩ := frameNext_history R id c frame
  have hnothing := outgoing_inbound hin
  generalize hnext : frameNext R id c frame = c' at hes
  have hstep := frameNext_step R id c frame
  rw [hnext] at hstep
  cases hstep with
  | fed _ _ hrun => exact h.same hes hnothing hrun.same.2.1 hrun.same.2.2.1
  | refused _ _ | skipped _ | closed _ | confirmed _ | stream | ignored _ =>
    exact h.same hes hnothing rfl rfl

lemma sliced_next {c : Connection σ} (op : Op) (h : Sliced c) : Sliced (next R c op) := by
  cases op with
  | ingest buf =>
    exact ingest_always (P := Sliced) R (fun c id pn hc => hc.same rfl ⟨rfl, rfl⟩ rfl rfl)
      (fun id c frame hc => sliced_frameNext id frame hc) h buf
  | egest bufLen =>
    exact egest_induction bufLen h (fun id _ _ _ => sliced_built h id)
      fun id _ _ _ => sliced_sent h id
  | sendData data =>
    obtain ⟨hslices, hrest, hbound⟩ := h
    have hsent : sentStream (next R c (.sendData data)).history = sentStream c.history := by
      rw [next, sendData, log, sentStream_append]
      exact List.append_nil _
    have hqueued : queuedData (next R c (.sendData data)).history = queuedData c.history ++ data := by
      simp [next, sendData, log, queuedData]
    constructor
    · rw [hsent, hqueued]
      intro chunk hchunk
      rw [List.drop_append]
      exact (hslices chunk hchunk).trans (List.prefix_append _ _)
    · rw [hqueued, show (next R c (.sendData data)).streamSendOffset = c.streamSendOffset from rfl,
        List.drop_append_of_le_length hbound, ← hrest]
      rfl
    · rw [hqueued, List.length_append]
      exact hbound.trans (Nat.le_add_right _ _)
  | recvData bufLen => exact h.same rfl ⟨rfl, rfl⟩ rfl rfl

lemma sliced_started {c : Connection σ} (h : Started R c) : Sliced c := by
  obtain ⟨htiles, hnonempty, hall, hoffset⟩ := streamTiled_started h
  have hnone : sentStream c.history = [] := by
    cases h with
    | connect _ _ hconnect =>
      obtain ⟨_, _, hello, _, _, _, rfl⟩ := connect_eq hconnect
      rfl
    | accept haccept =>
      refine List.flatMap_eq_nil_iff.mpr fun e he => ?_
      rcases accept_history haccept he with ⟨_, _, rfl⟩ | ⟨_, _, _, rfl⟩ | rfl <;> rfl
  rw [hnone] at hall hoffset
  have hzero : c.streamSendOffset = 0 := hoffset
  constructor
  · rw [hnone]
    exact fun _ hchunk => absurd hchunk List.not_mem_nil
  · rw [← hall, hzero]
    rfl
  · rw [hzero]
    exact Nat.zero_le _

/-- As long as all CRYPTO frames claim offset 0, the first byte that is read at a level makes the
rest of the level unreadable. -/
structure ReadOnce (start c : Connection σ) : Prop where
  once : ∀ level, level < 3 → readChunks level c.history = [] ∧ c.cryptoRecvOffset level = 0 ∨
    (readChunks level c.history).length = 1 ∧ 0 < c.cryptoRecvOffset level
  source : ∀ level, ∀ data ∈ readChunks level c.history, data ∈ readChunks level start.history ∨
    ∃ id, pnSpaceToLevel id = level ∧ .processed id (.crypto 0 data) ∈ c.history

lemma ReadOnce.same {start c c' : Connection σ} (h : ReadOnce start c) (es : List Event)
    (hhistory : c'.history = c.history ++ es) (hes : ∀ l data, .tlsRead l data ∉ es)
    (hoffset : c'.cryptoRecvOffset = c.cryptoRecvOffset) : ReadOnce start c' := by
  have hread : ∀ level, readChunks level c'.history = readChunks level c.history := by
    intro level
    rw [hhistory, readChunks_append, readChunks_nil level hes, List.append_nil]
  constructor
  · intro level hlevel
    rw [hread, hoffset]
    exact h.once level hlevel
  · intro level data hdata
    rw [hread] at hdata
    rw [hhistory]
    exact (h.source level data hdata).imp_right fun ⟨id, hid, hmem⟩ =>
      ⟨id, hid, List.mem_append_left es hmem⟩

/-- A chunk that is read begins the level. -/
lemma readOnce_fed {start c : Connection σ} (h : ReadOnce start c) {id : PacketNumberSpace} {data : Bytes}
    (hoffset : 0 = c.cryptoRecvOffset (pnSpaceToLevel id))
    (hread : (R.readHs c.tls data).2 = .ok ()) :
    ReadOnce start (frameNext R id c (.crypto 0 data)) := by
  have hnew := frameNext_offset (R := R) id hread
  rw [← hoffset, Nat.zero_add] at hnew
  have hstep := frameNext_step R id c (.crypto 0 data)
  generalize frameNext R id c (.crypto 0 data) = c' at hnew hstep
  cases hstep with
  | refused _ herr => rw [hread] at herr; cases herr
  | skipped hne => exact absurd hoffset hne
  | ignored hidle => exact hidle.elim
  | @fed _ _ c'' _ _ hrun =>
    have hanswers : ∀ l more, .tlsRead l more ∉
        answers R (pnSpaceToLevel id) (R.readHs c.tls data).1 := by
      intro l more hmem
      rw [answers] at hmem
      split_ifs at hmem <;> simp at hmem
    have hchunks : ∀ level, readChunks level (c''.log (.processed id (.crypto 0 data))).history =
        readChunks level c.history ++
          if pnSpaceToLevel id = level ∧ data ≠ [] then [data] else [] := by
      intro level
      rw [log, readChunks_append, hrun.history_eq, readChunks_append]
      have hcons : readChunks level (.tlsRead (pnSpaceToLevel id) data ::
          answers R (pnSpaceToLevel id) (R.readHs c.tls data).1) =
            if pnSpaceToLevel id = level ∧ data ≠ [] then [data] else [] := by
        have htail := readChunks_nil level hanswers
        rw [readChunks] at htail ⊢
        rw [List.flatMap_cons, htail, List.append_nil]
      rw [hcons]
      exact List.append_nil _
    constructor
    · intro level hlevel
      rw [hchunks, hnew]
      by_cases hid : pnSpaceToLevel id = level
      · subst hid
        rcases h.once _ hlevel with ⟨hnone, -⟩ | ⟨-, hpos⟩
        · rw [hnone, Function.update_self]
          by_cases hdata : data = []
          · simp [hdata]
          · simp [hdata, List.length_pos_iff]
        · omega
      · rw [if_neg fun hboth => hid hboth.1, List.append_nil, Function.update_of_ne (Ne.symm hid)]
        exact h.once level hlevel
    · intro level more hmore
      rw [hchunks] at hmore
      rcases List.mem_append.mp hmore with hold | hnew
      · rw [log, hrun.history_eq]
        refine (h.source level more hold).imp_right ?_
        rintro ⟨id', hid', hmem⟩
        exact ⟨id', hid', List.mem_append_left _ (List.mem_append_left _ hmem)⟩
      · split_ifs at hnew with hid
        · obtain rfl := List.mem_singleton.mp hnew
          exact .inr ⟨id, hid.1, List.mem_append_right _ (List.mem_singleton.mpr rfl)⟩
        · exact absurd hnew List.not_mem_nil

lemma readOnce_frameNext {id : PacketNumberSpace} {start c : Connection σ} {frame : Frame}
    (h : ReadOnce start c) (hframe : ∀ offset data, frame = .crypto offset data → offset = 0) :
    ReadOnce start (frameNext R id c frame) := by
  have hlog : ∀ c' : Connection σ, c'.history = c.history →
      c'.cryptoRecvOffset = c.cryptoRecvOffset → ReadOnce start (c'.log (.processed id frame)) := by
    intro c' hhistory hoffset
    refine h.same [.processed id frame] ?_ (by simp) hoffset
    rw [log, hhistory]
  generalize hnext : frameNext R id c frame = c'
  have hstep := frameNext_step R id c frame
  rw [hnext] at hstep
  cases hstep with
  | refused _ _ => exact ⟨h.once, h.source⟩
  | @fed offset data _ hoffset hread _ =>
    obtain rfl := hframe offset data rfl
    rw [← hnext]
    exact readOnce_fed h hoffset hread
  | skipped _ | closed _ | confirmed _ | stream | ignored _ => exact hlog _ rfl rfl

/-- As long as all CRYPTO frames that arrive claim offset 0. -/
lemma readOnce_next {start c : Connection σ} {op : Op} (h : ReadOnce start c)
    (hzero : ∀ buf id pn frames, op = .ingest buf → c.openPacket buf = ok (id, pn, frames) →
      ∀ offset data, .crypto offset data ∈ frames → offset = 0) :
    ReadOnce start (next R c op) := by
  cases op with
  | ingest buf =>
    rcases ingest_cases R c buf with hsame | ⟨id, pn, frames, -, hopen, hnext⟩
    · rw [next, hsame]
      exact h
    · rw [next, hnext]
      have hrecorded : ReadOnce start (c.recordRecvPn id pn) :=
        h.same [.received id pn] rfl (by simp) rfl
      refine processFrames_forall R (p := fun f => f ∈ frames)
        (fun c' f hc' hf => readOnce_frameNext hc' ?_) hrecorded fun _ hf => hf
      rintro offset data rfl
      exact hzero buf id pn frames rfl hopen offset data hf
  | egest bufLen =>
    have hbuilt : ∀ id, ReadOnce start (c.built id) := fun id =>
      h.same _ (built_same c id).2.2.2 (by simp) (cryptoRecvOffset_built c id)
    refine egest_induction bufLen h (fun id _ _ _ => hbuilt id) fun id _ _ _ => ?_
    exact (hbuilt id).same [.sent id _ _] rfl (by simp) rfl
  | sendData data => exact h.same [.queued data] rfl (by simp) rfl
  | recvData bufLen => exact h.same [.delivered bufLen _] rfl (by simp) rfl

/-- What a server's TLS has taken when the server starts is the ClientHello. -/
lemma readChunks_accept {datagram : Bytes} {c : Connection σ} (h : accept R datagram = ok c) :
    c.side = .server ∧ ∃ frames, firstFrames R datagram = ok frames ∧
      c.cryptoRecvOffset = Function.update (fun _ => 0) 0 (clientHelloOf frames).length ∧
      ∀ level, readChunks level c.history =
        if 0 = level ∧ clientHelloOf frames ≠ [] then [clientHelloOf frames] else [] := by
  obtain ⟨hdr, keys, frames, tls, c₁, ⟨⟨n, hparse⟩, hkeys, ⟨pn, hdecrypt⟩, -, -⟩, hrun, -, rfl⟩ :=
    accept_greeting h
  have hframes : firstFrames R datagram = ok frames := by
    simp [firstFrames, hparse, hkeys, hdecrypt]
  have hanswers : ∀ l more, .tlsRead l more ∉
      answers R 0 (R.readHs tls (clientHelloOf frames)).1 := by
    intro l more hmem
    rw [answers] at hmem
    split_ifs at hmem <;> simp at hmem
  refine ⟨hrun.same.2.2.2.1, frames, hframes, rfl, fun level => ?_⟩
  have htail := readChunks_nil level hanswers
  change readChunks level (c₁.history ++ [.received .initial 0]) = _
  rw [readChunks] at htail
  rw [hrun.history_eq, readChunks_append, readChunks, List.flatMap_append, List.flatMap_cons, htail]
  simp [greeted, fresh, readChunks]

lemma readOnce_started {c : Connection σ} (h : Started R c) : ReadOnce c c := by
  refine ⟨?_, fun _ _ hdata => .inl hdata⟩
  cases h with
  | connect _ _ hconnect =>
    obtain ⟨_, _, hello, _, _, _, rfl⟩ := connect_eq hconnect
    exact fun _ _ => .inl ⟨rfl, rfl⟩
  | accept haccept =>
    obtain ⟨-, frames, -, hoffset, hchunks⟩ := readChunks_accept haccept
    intro level hlevel
    rw [hchunks, hoffset]
    by_cases hzero : 0 = level
    · subst hzero
      by_cases hhello : clientHelloOf frames = []
      · simp [hhello]
      · simp [hhello, List.length_pos_iff]
    · simp [hzero, Function.update_of_ne (Ne.symm hzero)]

/-- At its start a client's TLS has taken nothing. -/
lemma readChunks_started {c : Connection σ} (h : Started R c) {level : Nat} {data : Bytes}
    (hdata : data ∈ readChunks level c.history) :
    c.side = .server ∧ level = 0 ∧ ∃ datagram frames, accept R datagram = ok c ∧
      firstFrames R datagram = ok frames ∧ data = clientHelloOf frames := by
  cases h with
  | connect _ _ hconnect =>
    obtain ⟨_, _, hello, _, _, _, rfl⟩ := connect_eq hconnect
    exact absurd hdata List.not_mem_nil
  | accept haccept =>
    obtain ⟨hside, frames, hframes, -, hchunks⟩ := readChunks_accept haccept
    rw [hchunks] at hdata
    split_ifs at hdata with hzero
    · exact ⟨hside, hzero.1.symm, _, frames, haccept, hframes, List.mem_singleton.mp hdata⟩
    · exact absurd hdata List.not_mem_nil

end Connection

namespace Wire

open Connection

variable {σ : Type} {R : Rustls σ}

/-- What a side has heard, on top of what it has not been told. -/
structure Hears (start x : Wire σ) : Prop where
  vouched : Vouched x
  accounted : ∀ side, Accounted (x.ends side)
  sliced : ∀ side, Sliced (x.ends side)
  readOnce : ∀ side, ReadOnce (start.ends side) (x.ends side)

lemma hears_next {start x : Wire σ} {hop : Hop} (h : Hears start x) (hhop : Unforged x hop) :
    Hears start (x.next R hop) where
  vouched := vouched_next h.vouched hhop
  accounted := ends_invariant (fun _ op _ hc => accounted_next hc op) h.accounted
  sliced := ends_invariant (fun _ op _ hc => sliced_next op hc) h.sliced
  readOnce := by
    refine ends_invariant (fun side op hop' hc => readOnce_next hc ?_) h.readOnce
    rintro buf id pn frames rfl hopen offset data hmem
    have hsent := sentBy_of_genuine (hhop side buf hop') hopen _ hmem
    exact (h.vouched.composed hsent).resolve_left (by simp)

lemma always_hears {x : Wire σ} {hops : List Hop} (hx : Begun R x)
    (hunforged : Along (next R) Unforged x hops) : Always (next R) (Hears x) x hops := by
  refine always_of_along (fun _ _ h hhop => hears_next h hhop) ?_ hunforged
  exact ⟨vouched_begun hx, fun side => accounted_started (hx.started side),
    fun side => sliced_started (hx.started side), fun side => readOnce_started (hx.started side)⟩

/-- Whatever the order in which packets arrive, how often and how many of them: what an application
has read, with what it may still read, is made of chunks that the other side has sent, and each chunk
is what stands at its offset in the data handed over there. -/
theorem stream_made_of_chunks {x : Wire σ} {hops : List Hop} (hx : Begun R x)
    (hunforged : Along (next R) Unforged x hops) :
    Always (next R) (fun x => ∀ side, ∃ chunks : List (Nat × Bytes),
      delivered (x.ends side).history ++ (x.ends side).receivedAppData =
        chunks.flatMap Prod.snd ∧
      ∀ chunk ∈ chunks, chunk ∈ sentStream (x.ends (peer side)).history ∧
        chunk.2 <+: (queuedData (x.ends (peer side)).history).drop chunk.1) x hops := by
  refine (always_hears hx hunforged).imp fun x h side => ?_
  refine ⟨heardStream (x.ends side).history, ?_, fun chunk hchunk => ?_⟩
  · rw [← arrived_eq_heard]
    exact h.accounted side
  · obtain ⟨id, streamId, fin, hprocessed⟩ := mem_heardStream.mp hchunk
    have hby := h.vouched.sealed side id _ hprocessed
    obtain rfl : streamId = 0 := (h.vouched.composed hby).resolve_left (by simp)
    obtain ⟨pn, frames, hsent, hmem⟩ := hby.resolve_left (by simp)
    have hfrom := mem_sentStream hsent hmem
    exact ⟨hfrom, (h.sliced (peer side)).slices chunk hfrom⟩

theorem stream_made_of_chunks_in_trouble :
    Always (next plainTls) (fun x => ∀ side, ∃ chunks : List (Nat × Bytes),
      delivered (x.ends side).history ++ (x.ends side).receivedAppData =
        chunks.flatMap Prod.snd ∧
      ∀ chunk ∈ chunks, chunk ∈ sentStream (x.ends (peer side)).history ∧
        chunk.2 <+: (queuedData (x.ends (peer side)).history).drop chunk.1)
      plainMeeting plainTrouble :=
  stream_made_of_chunks plainMeeting_begun plainTrouble_unforged

/-- TLS takes at most one chunk at each level that is not empty: the data of a whole CRYPTO frame
that the other side sent, or the ClientHello that `accept` has given it. -/
theorem one_chunk_for_each_level {x : Wire σ} {hops : List Hop} (hx : Begun R x)
    (hunforged : Along (next R) Unforged x hops) :
    Always (next R) (fun x' => ∀ side level, level < 3 →
      (readChunks level (x'.ends side).history).length ≤ 1 ∧
      ∀ data ∈ readChunks level (x'.ends side).history,
        (side = .server ∧ level = 0 ∧ ∃ datagram frames, accept R datagram = ok (x.ends .server) ∧
          firstFrames R datagram = ok frames ∧ data = clientHelloOf frames) ∨
        ∃ id pn frames, pnSpaceToLevel id = level ∧
          .sent id pn frames ∈ (x'.ends (peer side)).history ∧ .crypto 0 data ∈ frames) x hops := by
  refine (always_hears hx hunforged).imp fun x' h side level hlevel => ⟨?_, fun data hdata => ?_⟩
  · rcases (h.readOnce side).once level hlevel with ⟨hnone, -⟩ | ⟨hone, -⟩
    · rw [hnone]
      exact Nat.zero_le 1
    · exact hone.le
  · refine ((h.readOnce side).source level data hdata).imp ?_ ?_
    · intro hstart
      obtain ⟨hserver, hzero, hello⟩ := readChunks_started (hx.started side) hstart
      rw [hx.sides side] at hserver
      subst hserver
      exact ⟨rfl, hzero, hello⟩
    · rintro ⟨id, hid, hprocessed⟩
      obtain ⟨pn, frames, hsent, hmem⟩ :=
        (h.vouched.sealed side id _ hprocessed).resolve_left (by simp)
      exact ⟨id, pn, frames, hid, hsent, hmem⟩

theorem one_chunk_for_each_level_in_trouble :
    Always (next plainTls) (fun x' => ∀ side level, level < 3 →
      (readChunks level (x'.ends side).history).length ≤ 1 ∧
      ∀ data ∈ readChunks level (x'.ends side).history,
        (side = .server ∧ level = 0 ∧ ∃ datagram frames,
          accept plainTls datagram = ok (plainMeeting.ends .server) ∧
          firstFrames plainTls datagram = ok frames ∧ data = clientHelloOf frames) ∨
        ∃ id pn frames, pnSpaceToLevel id = level ∧
          .sent id pn frames ∈ (x'.ends (peer side)).history ∧ .crypto 0 data ∈ frames)
      plainMeeting plainTrouble :=
  one_chunk_for_each_level plainMeeting_begun plainTrouble_unforged

end Wire
end DeerQuic
