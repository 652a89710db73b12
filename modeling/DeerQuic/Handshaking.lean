import DeerQuic.Transfer

/-!
# From the first packet to two established connections

A full handshake of TLS 1.3 without client authentication: the server answers the ClientHello with
one chunk at the Initial level and one at the Handshake level and has all its keys; the client gets
the keys of the next level with each chunk that it reads. Over a network that keeps the order the
chunks reach the client one after the other, and with the second one both connections have all their
keys. Nothing that an application hands over meanwhile gets lost.
-/

namespace DeerQuic

open Outcome Protection Transition

/-- A chunk of CRYPTO data, with its space. -/
abbrev Message := PacketNumberSpace × Bytes

/-- A packet with acknowledgements only. -/
def Flying.Quiet (d : Flying) : Prop := d.space = .initial ∧ ∀ f ∈ d.frames, f.AckOnly

/-- A packet with the chunk, and maybe acknowledgements behind it. -/
def Flying.Tells (d : Flying) (m : Message) : Prop :=
  d.space = m.1 ∧ ∃ rest, d.frames = .crypto 0 m.2 :: rest ∧ ∀ f ∈ rest, f.AckOnly

/-- With the datagrams in flight the first of the chunks that are due arrive, in this order, and
these are left to be sent. Once all are in flight, anything may follow. -/
inductive Due : List Message → List Flying → List Message → Prop where
  | waiting (left : List Message) : Due left [] left
  | allTold (flight : List Flying) : Due [] flight []
  | quiet {due : List Message} {d : Flying} {flight : List Flying} {left : List Message} :
      d.Quiet → Due due flight left → Due due (d :: flight) left
  | told {m : Message} {due : List Message} {d : Flying} {flight : List Flying}
      {left : List Message} : d.Tells m → Due due flight left → Due (m :: due) (d :: flight) left

namespace Due

lemma append_quiet {due : List Message} {flight : List Flying} {left : List Message} {d : Flying}
    (h : Due due flight left) (hd : d.Quiet) : Due due (flight ++ [d]) left := by
  induction h with
  | waiting left => exact .quiet hd (.waiting left)
  | allTold flight => exact .allTold _
  | quiet hfirst _ ih => exact .quiet hfirst ih
  | told hfirst _ ih => exact .told hfirst ih

lemma append_told {due : List Message} {flight : List Flying} {m : Message} {left : List Message}
    {d : Flying} (h : Due due flight (m :: left)) (hd : d.Tells m) :
    Due due (flight ++ [d]) left := by
  generalize hall : m :: left = all at h
  induction h with
  | waiting _ =>
    subst hall
    exact .told hd (.waiting left)
  | allTold flight => cases hall
  | quiet hfirst _ ih => exact .quiet hfirst (ih hall)
  | told hfirst _ ih => exact .told hfirst (ih hall)

lemma append_over {due : List Message} {flight : List Flying} (h : Due due flight []) (d : Flying) :
    Due due (flight ++ [d]) [] := by
  generalize hall : ([] : List Message) = all at h
  induction h with
  | waiting _ =>
    subst hall
    exact .allTold [d]
  | allTold flight => exact .allTold _
  | quiet hfirst _ ih => exact .quiet hfirst (ih hall)
  | told hfirst _ ih => exact .told hfirst (ih hall)

end Due

namespace Connection

variable {σ : Type} {R : Rustls σ} {keys : PacketNumberSpace → Keys} {done : σ → Prop}

def toTell (c : Connection σ) : List Message :=
  (if c.pendingCrypto 0 = [] then [] else [(.initial, c.pendingCrypto 0)]) ++
    (if c.pendingCrypto 1 = [] then [] else [(.handshake, c.pendingCrypto 1)])

lemma pendingCrypto_sent (c : Connection σ) (id : PacketNumberSpace) :
    (c.sent id).pendingCrypto = Function.update c.pendingCrypto (pnSpaceToLevel id) [] :=
  pendingCrypto_built c id

lemma not_busy_crypto {c : Connection σ} {id : PacketNumberSpace} (h : ¬ c.Busy id)
    (hkeys : (c.spaces id).hasKeys = true) : c.pendingCrypto (pnSpaceToLevel id) = [] := by
  by_contra hne
  exact h ⟨hkeys, List.ne_nil_of_mem (mem_framesOf.mpr (.inl ⟨hne, rfl⟩))⟩

/-- Of the spaces with something to send the first one sends. -/
lemma firstBusy_before {c : Connection σ} {id : PacketNumberSpace} (h : c.firstBusy = some id) :
    (id ≠ .initial → ¬ c.Busy .initial) ∧ (id = .applicationData → ¬ c.Busy .handshake) := by
  rw [firstBusy] at h
  by_cases hinitial : c.Busy .initial
  · rw [List.find?_cons_of_pos (by simpa using hinitial)] at h
    obtain rfl := Option.some.inj h
    exact ⟨fun hne => absurd rfl hne, fun happ => by cases happ⟩
  · refine ⟨fun _ => hinitial, ?_⟩
    rintro rfl
    intro hhandshake
    rw [List.find?_cons_of_neg (by simpa using hinitial),
      List.find?_cons_of_pos (by simpa using hhandshake)] at h
    cases h

lemma not_busy_of_idle {c : Connection σ} (h : c.firstBusy = none) (id : PacketNumberSpace) :
    ¬ c.Busy id := by
  have hall := List.find?_eq_none.mp h id (by cases id <;> simp)
  simpa using hall

lemma hasKeys_of_keys {space : Space} {k : Keys} (h : space.keys = some k) :
    space.hasKeys = true := by
  rw [Space.hasKeys, h]
  rfl

/-- Outside the application's space the frames of a packet are CRYPTO data and acknowledgements. -/
lemma framesOf_handshake (c : Connection σ) {id : PacketNumberSpace} (hid : id ≠ .applicationData) :
    ∃ acks, (∀ f ∈ acks, f.AckOnly) ∧ c.framesOf id =
      (if c.pendingCrypto (pnSpaceToLevel id) = [] then []
        else [.crypto 0 (c.pendingCrypto (pnSpaceToLevel id))]) ++ acks := by
  have hconfirms : ¬ c.Confirms id := fun h => hid h.1
  have hstreams : ¬ c.Streams id := fun h => hid h.1
  refine ⟨if (c.spaces id).pendingAcks = [] then [] else [ackFrame (c.spaces id).pendingAcks], ?_, ?_⟩
  · intro f hf
    split_ifs at hf
    · exact absurd hf List.not_mem_nil
    · rw [List.mem_singleton.mp hf]
      trivial
  · rw [framesOf_eq, if_neg hconfirms, if_neg hstreams, List.append_nil, List.append_nil]

/-- The packet at hand brings the next chunk, or acknowledgements, or there is no chunk left. -/
lemma toTell_sent {c : Connection σ} (hkeyed : ∀ id, (c.spaces id).keys = some (keys id))
    {id : PacketNumberSpace} (hbusy : c.firstBusy = some id) (packet : Bytes) :
    (c.toTell = [] ∧ (c.sent id).toTell = []) ∨
      ((Wire.flying c id packet).Quiet ∧ (c.sent id).toTell = c.toTell) ∨
      ∃ m, c.toTell = m :: (c.sent id).toTell ∧ (Wire.flying c id packet).Tells m := by
  obtain ⟨hinitial, hhandshake⟩ := firstBusy_before hbusy
  cases id with
  | initial =>
    obtain ⟨acks, hacks, hframes⟩ := framesOf_handshake c (by decide : .initial ≠ PacketNumberSpace.applicationData)
    by_cases hnone : c.pendingCrypto 0 = []
    · refine .inr (.inl ⟨⟨rfl, ?_⟩, ?_⟩)
      · rw [show (Wire.flying c .initial packet).frames = c.framesOf .initial from rfl, hframes,
          show pnSpaceToLevel .initial = 0 from rfl, if_pos hnone]
        exact hacks
      · simp [toTell, pendingCrypto_sent, pnSpaceToLevel, hnone]
    · refine .inr (.inr ⟨(.initial, c.pendingCrypto 0), ?_, rfl, acks, ?_, hacks⟩)
      · simp [toTell, pendingCrypto_sent, pnSpaceToLevel, hnone]
      · refine hframes.trans ?_
        rw [show pnSpaceToLevel .initial = 0 from rfl, if_neg hnone]
        rfl
  | handshake =>
    have hzero : c.pendingCrypto 0 = [] :=
      not_busy_crypto (hinitial (by decide)) (hasKeys_of_keys (hkeyed .initial))
    obtain ⟨acks, hacks, hframes⟩ := framesOf_handshake c (by decide : .handshake ≠ PacketNumberSpace.applicationData)
    by_cases hnone : c.pendingCrypto 1 = []
    · exact .inl ⟨by simp [toTell, hzero, hnone],
        by simp [toTell, pendingCrypto_sent, pnSpaceToLevel, hzero]⟩
    · refine .inr (.inr ⟨(.handshake, c.pendingCrypto 1), ?_, rfl, acks, ?_, hacks⟩)
      · simp [toTell, pendingCrypto_sent, pnSpaceToLevel, hzero, hnone]
      · refine hframes.trans ?_
        rw [show pnSpaceToLevel .handshake = 1 from rfl, if_neg hnone]
        rfl
  | applicationData =>
    have hzero : c.pendingCrypto 0 = [] :=
      not_busy_crypto (hinitial (by decide)) (hasKeys_of_keys (hkeyed .initial))
    have hone : c.pendingCrypto 1 = [] :=
      not_busy_crypto (hhandshake rfl) (hasKeys_of_keys (hkeyed .handshake))
    exact .inl ⟨by simp [toTell, hzero, hone],
      by simp [toTell, pendingCrypto_sent, pnSpaceToLevel, hzero, hone]⟩

lemma due_sent {c : Connection σ} (hkeyed : ∀ id, (c.spaces id).keys = some (keys id))
    {id : PacketNumberSpace} (hbusy : c.firstBusy = some id) (packet : Bytes) {due : List Message}
    {flight : List Flying} (h : Due due flight c.toTell) :
    Due due (flight ++ [Wire.flying c id packet]) (c.sent id).toTell := by
  rcases toTell_sent hkeyed hbusy packet with ⟨hnone, hstill⟩ | ⟨hquiet, hsame⟩ | ⟨m, hall, htells⟩
  · rw [hnone] at h
    rw [hstill]
    exact h.append_over _
  · rw [hsame]
    exact h.append_quiet hquiet
  · rw [hall] at h
    exact h.append_told htells

/-- TLS reads the chunk, writes these bytes and keys, and then has nothing more to say. -/
structure Answered (R : Rustls σ) (tls : σ) (data : Bytes) (k : Keys) (out : Bytes) (tls' : σ) :
    Prop where
  read : (R.readHs tls data).2 = .ok ()
  write : ∃ change, (R.writeHs (R.readHs tls data).1).2 = (out, some change) ∧ change.keys = k
  rest : R.writeHs (R.writeHs (R.readHs tls data).1).1 = (tls', [], none)

/-- A client with keys for these spaces, and with nothing to send but ACK frames in the Initial
space. -/
structure Waits (keys : PacketNumberSpace → Keys) (keyed : List PacketNumberSpace)
    (c : Connection σ) : Prop where
  client : c.side = .client
  connecting : c.state = .connecting
  keyed : ∀ id, (c.spaces id).keys = if id ∈ keyed then some (keys id) else none
  silent : ∀ level, c.pendingCrypto level = []
  acks : ∀ id, id ≠ .initial → (c.spaces id).pendingAcks = []

/-- The chunks that are still due, which TLS will answer with the keys of the next level. -/
inductive Awaits (R : Rustls σ) (keys : PacketNumberSpace → Keys) (done : σ → Prop) :
    List Message → Connection σ → Prop where
  | hello {c : Connection σ} {serverHello flight finished : Bytes} {tls' tls'' : σ}
      (waits : Waits keys [.initial] c) (zero : c.cryptoRecvOffset 0 = 0)
      (one : c.cryptoRecvOffset 1 = 0)
      (first : Answered R c.tls serverHello (keys .handshake) [] tls')
      (second : Answered R tls' flight (keys .applicationData) finished tls'') :
      done tls'' → Awaits R keys done [(.initial, serverHello), (.handshake, flight)] c
  | flight {c : Connection σ} {flight finished : Bytes} {tls' : σ}
      (waits : Waits keys [.initial, .handshake] c) (one : c.cryptoRecvOffset 1 = 0)
      (answered : Answered R c.tls flight (keys .applicationData) finished tls') :
      done tls' → Awaits R keys done [(.handshake, flight)] c

variable {due : List Message} {c c' : Connection σ}

lemma Awaits.waits (h : Awaits R keys done due c) :
    ∃ keyed, .initial ∈ keyed ∧ Waits keys keyed c := by
  cases h with
  | hello hwaits _ _ _ _ _ => exact ⟨_, List.mem_singleton.mpr rfl, hwaits⟩
  | flight hwaits _ _ _ => exact ⟨_, List.mem_cons_self, hwaits⟩

lemma Awaits.same (h : Awaits R keys done due c) (htls : c'.tls = c.tls)
    (hoffset : c'.cryptoRecvOffset = c.cryptoRecvOffset)
    (hwaits : ∀ keyed, Waits keys keyed c → Waits keys keyed c') : Awaits R keys done due c' := by
  cases h with
  | hello hw hzero hone hfirst hsecond hdone =>
    exact .hello (hwaits _ hw) (hoffset ▸ hzero) (hoffset ▸ hone) (htls ▸ hfirst) hsecond hdone
  | flight hw hone hanswered hdone =>
    exact .flight (hwaits _ hw) (hoffset ▸ hone) (htls ▸ hanswered) hdone

lemma waits_busy {keyed : List PacketNumberSpace} (h : Waits keys keyed c) {id : PacketNumberSpace}
    (hbusy : c.firstBusy = some id) : id = .initial ∧ ∀ f ∈ c.framesOf id, f.AckOnly := by
  have hframes : ∀ f ∈ c.framesOf id, (c.spaces id).pendingAcks ≠ [] ∧ f.AckOnly := by
    intro f hf
    rcases mem_framesOf.mp hf with ⟨hcrypto, -⟩ | ⟨hacks, rfl⟩ | ⟨hconfirms, -⟩ | ⟨hstreams, -⟩
    · exact absurd (h.silent _) hcrypto
    · exact ⟨hacks, trivial⟩
    · have hside := h.client.symm.trans hconfirms.2.1
      cases hside
    · have hstate := h.connecting.symm.trans hstreams.2.1
      cases hstate
  refine ⟨?_, fun f hf => (hframes f hf).2⟩
  by_contra hid
  obtain ⟨f, hf⟩ := List.exists_mem_of_ne_nil _ (firstBusy_busy hbusy).2
  exact (hframes f hf).1 (h.acks id hid)

lemma waits_sent {keyed : List PacketNumberSpace} (h : Waits keys keyed c) (id : PacketNumberSpace) :
    Waits keys keyed (c.sent id) where
  client := (built_same c id).2.1.trans h.client
  connecting := by
    have hconfirms : ¬ c.Confirms id := fun hc => by
      have hside := h.client.symm.trans hc.2.1
      cases hside
    exact (state_built c id).trans ((if_neg hconfirms).trans h.connecting)
  keyed id' := ((built_same c id).2.2.1 id').trans (h.keyed id')
  silent level := by
    rw [pendingCrypto_sent, funext h.silent]
    exact congrFun (Function.update_eq_self _ _) level
  acks id' hid' := by
    refine (pendingAcks_built c id id').trans ?_
    rw [h.acks id' hid', ite_self]

lemma awaits_sent (h : Awaits R keys done due c) (id : PacketNumberSpace) :
    Awaits R keys done due (c.sent id) := by
  refine h.same ?_ (cryptoRecvOffset_built c id) fun _ hw => waits_sent hw id
  rw [sent, built, drained_eq]
  rfl

lemma frameNext_ackOnly (id : PacketNumberSpace) (c : Connection σ) {frame : Frame}
    (h : frame.AckOnly) : frameNext R id c frame = c.log (.processed id frame) := by
  cases frame with
  | ack | padding => rfl
  | _ => exact h.elim

/-- They are logged. -/
lemma processFrames_quiet (id : PacketNumberSpace) {frames : List Frame}
    (h : ∀ f ∈ frames, f.AckOnly) (c : Connection σ) :
    (processFrames R id frames c).2 =
      { c with history := c.history ++ frames.map (.processed id) } := by
  induction frames generalizing c with
  | nil => simp [processFrames]
  | cons frame frames ih =>
    have hframe := h frame List.mem_cons_self
    have hok : (c.processFrame R id frame).1 = ok () := by
      cases frame with
      | ack | padding => rfl
      | _ => exact hframe.elim
    rw [processFrames_cons, if_pos hok, ih fun f hf => h f (List.mem_cons_of_mem _ hf),
      frameNext_ackOnly id c hframe]
    simp [log]

lemma ackOnly_padded {frames : List Frame} (h : ∀ f ∈ frames, f.AckOnly) (k : Nat) :
    ∀ f ∈ frames ++ List.replicate k .padding, f.AckOnly := by
  intro f hf
  rcases List.mem_append.mp hf with hf | hf
  · exact h f hf
  · rw [List.eq_of_mem_replicate hf]
    trivial

lemma ingest_quiet {buf : Bytes} {id : PacketNumberSpace} {pn k : Nat} {frames : List Frame}
    (hopened : c.state ≠ .closed)
    (hopen : c.openPacket buf = ok (id, pn, frames ++ List.replicate k .padding))
    (h : ∀ f ∈ frames, f.AckOnly) :
    ∃ history, (c.ingest R buf).2 = { c.recordRecvPn id pn with history } := by
  rw [ingest_of_open R hopened hopen]
  exact ⟨_, processFrames_quiet id (ackOnly_padded h k) _⟩

lemma streamData_quiet {frames : List Frame} (h : ∀ f ∈ frames, f.AckOnly) :
    frames.flatMap Frame.streamData = [] := by
  refine List.flatMap_eq_nil_iff.mpr fun f hf => ?_
  have hack := h f hf
  cases f with
  | ack | padding => rfl
  | _ => exact hack.elim

lemma waits_recorded {keyed : List PacketNumberSpace} (h : Waits keys keyed c) (pn : Nat)
    (history : List Event) : Waits keys keyed { c.recordRecvPn .initial pn with history } where
  client := h.client
  connecting := h.connecting
  keyed id := (keys_recorded c .initial id pn).trans (h.keyed id)
  silent := h.silent
  acks id hid := by
    refine (pendingAcks_recorded c .initial id pn).trans ?_
    rw [if_neg hid, List.append_nil]
    exact h.acks id hid

/-- The chunk is fed to TLS, and the rest of the packet changes nothing. -/
lemma ingest_told {buf data : Bytes} {id : PacketNumberSpace} {pn k : Nat} {rest : List Frame}
    (hopened : c.state ≠ .closed)
    (hopen : c.openPacket buf = ok (id, pn, .crypto 0 data :: rest ++ List.replicate k .padding))
    (hrest : ∀ f ∈ rest, f.AckOnly) (hzero : c.cryptoRecvOffset (pnSpaceToLevel id) = 0)
    {c₁ : Connection σ}
    (hfeed : (c.recordRecvPn id pn).feedCrypto R (pnSpaceToLevel id) data = (ok (), c₁)) :
    ∃ history, (c.ingest R buf).2 = { c₁ with history } := by
  have hframe : (c.recordRecvPn id pn).processFrame R id (.crypto 0 data) = (ok (), c₁) := by
    have hoffset : 0 = (c.recordRecvPn id pn).cryptoRecvOffset (pnSpaceToLevel id) := hzero.symm
    rw [processFrame, if_pos ⟨Nat.le_of_lt_succ (level_lt id), hoffset⟩, hfeed]
  rw [ingest_of_open R hopened hopen, List.cons_append, processFrames_cons, if_pos (by rw [hframe]),
    frameNext_of_ok hframe]
  exact ⟨_, processFrames_quiet id (ackOnly_padded hrest k)
    (c₁.log (.processed id (.crypto 0 data)))⟩

/-- Handshake keys, and nothing to say. -/
lemma feedCrypto_serverHello {data : Bytes} {k : Keys} {tls' : σ}
    (h : Answered R c.tls data k [] tls') (hunkeyed : (c.spaces .handshake).hasKeys = false) :
    ∃ history, c.feedCrypto R 0 data = (ok (), { c.installKeys .handshake k with
      tls := tls'
      cryptoRecvOffset :=
        Function.update c.cryptoRecvOffset 0 (c.cryptoRecvOffset 0 + data.length)
      history }) := by
  obtain ⟨hread, ⟨change, hwrite, rfl⟩, hrest⟩ := h
  have hunkeyed' : ∀ (tls : σ) (history : List Event),
      (({ c with tls, history } : Connection σ).spaces .handshake).hasKeys = false :=
    fun _ _ => hunkeyed
  refine ⟨c.history ++ [.tlsRead 0 data] ++ [.tlsWrite 0 [] (some change)] ++
    [.tlsWrite 1 [] none], ?_⟩
  simp only [feedCrypto, hread, writeHs, log, processTlsOutput, hwrite, handleCryptoOutput,
    queueCrypto, afterInitialKeys, List.isEmpty_nil, if_true, List.foldl_nil, Option.map_some,
    hunkeyed', Bool.false_eq_true, Bool.true_eq_false, or_false, if_false, installKeys, setSpace,
    hrest, Option.isSome_none, Option.map_none]

/-- 1-RTT keys, and the Finished of the client. -/
lemma feedCrypto_flight {data finished : Bytes} {k : Keys} {tls' : σ}
    (h : Answered R c.tls data k finished tls')
    (hunkeyed : (c.spaces .applicationData).hasKeys = false) :
    ∃ pendingCrypto history, c.feedCrypto R 1 data =
        (ok (), { c.installKeys .applicationData k with
          state := .established
          tls := tls'
          pendingCrypto
          cryptoRecvOffset :=
            Function.update c.cryptoRecvOffset 1 (c.cryptoRecvOffset 1 + data.length)
          history }) ∧ pendingCrypto 2 = c.pendingCrypto 2 := by
  obtain ⟨hread, ⟨change, hwrite, rfl⟩, hrest⟩ := h
  have hunkeyed' : ∀ (tls : σ) (pendingCrypto : Nat → Bytes) (history : List Event),
      (({ c with tls, pendingCrypto, history } : Connection σ).spaces
        .applicationData).hasKeys = false :=
    fun _ _ _ => hunkeyed
  by_cases hfinished : finished = []
  · subst hfinished
    refine ⟨c.pendingCrypto, c.history ++ [.tlsRead 1 data] ++ [.tlsWrite 1 [] (some change)] ++
      [.tlsWrite 2 [] none], ?_, rfl⟩
    simp only [feedCrypto, hread, writeHs, log, processTlsOutput, hwrite, handleCryptoOutput,
      queueCrypto, afterHandshakeKeys, List.isEmpty_nil, if_true, List.foldl_nil, Option.map_some,
      hunkeyed', Bool.false_eq_true, Bool.true_eq_false, or_false, if_false, installKeys, setSpace,
      hrest, Option.isSome_none, Option.map_none]
  · refine ⟨Function.update c.pendingCrypto 1 (c.pendingCrypto 1 ++ finished),
      c.history ++ [.tlsRead 1 data] ++ [.tlsWrite 1 finished (some change)] ++
        [.tlsWrite 2 [] none], ?_, Function.update_of_ne (by decide) _ _⟩
    simp only [feedCrypto, hread, writeHs, log, processTlsOutput, hwrite, handleCryptoOutput,
      queueCrypto, afterHandshakeKeys, List.isEmpty_iff, hfinished, Bool.false_eq_true,
      or_false, if_false, List.foldl_cons, List.foldl_nil, Option.map_some,
      Option.map_none, Option.isSome_none, Nat.reduceLT, if_true, hunkeyed', installKeys, setSpace,
      hrest, ite_self]

/-- A packet that brings no data of the application leaves these as they are. -/
structure Unmoved (c c' : Connection σ) (id : PacketNumberSpace) (pn : Nat) : Prop where
  side : c'.side = c.side
  version : c'.version = c.version
  dstCid : c'.dstCid = c.dstCid
  srcCid : c'.srcCid = c.srcCid
  pending : c'.pendingAppData = c.pendingAppData
  received : c'.receivedAppData = c.receivedAppData
  numbers : ∃ keys, c'.spaces .applicationData =
    { (c.recordRecvPn id pn).spaces .applicationData with keys }

lemma keys_installed (c : Connection σ) (id id' : PacketNumberSpace) (k : Keys) :
    ((c.installKeys id k).spaces id').keys = if id' = id then some k else (c.spaces id').keys := by
  by_cases hid : id' = id
  · subst hid
    simp [installKeys, setSpace, Space.setKeys]
  · simp [installKeys, setSpace, hid]

lemma pendingAcks_installed (c : Connection σ) (id id' : PacketNumberSpace) (k : Keys) :
    ((c.installKeys id k).spaces id').pendingAcks = (c.spaces id').pendingAcks := by
  by_cases hid : id' = id
  · subst hid
    simp [installKeys, setSpace, Space.setKeys]
  · simp [installKeys, setSpace, hid]

section

variable {buf data : Bytes} {pn k : Nat} {rest : List Frame} {tls' : σ}

/-- With the first chunk the client gets Handshake keys. -/
lemma ingest_serverHello (h : Waits keys [.initial] c) (hzero : c.cryptoRecvOffset 0 = 0)
    (hanswered : Answered R c.tls data (keys .handshake) [] tls')
    (hopen : c.openPacket buf = ok (.initial, pn, .crypto 0 data :: rest ++ List.replicate k .padding))
    (hacks : ∀ f ∈ rest, f.AckOnly) :
    Waits keys [.initial, .handshake] (c.ingest R buf).2 ∧ (c.ingest R buf).2.tls = tls' ∧
      (c.ingest R buf).2.cryptoRecvOffset 1 = c.cryptoRecvOffset 1 ∧
      Unmoved c (c.ingest R buf).2 .initial pn := by
  have hstate : c.state ≠ .closed := by
    rw [h.connecting]
    decide
  have hunkeyed : ((c.recordRecvPn .initial pn).spaces .handshake).hasKeys = false := by
    rw [Space.hasKeys, keys_recorded, h.keyed]
    rfl
  obtain ⟨fed, hfeed⟩ := feedCrypto_serverHello (c := c.recordRecvPn .initial pn) hanswered hunkeyed
  obtain ⟨history, hafter⟩ := ingest_told hstate hopen hacks hzero hfeed
  obtain ⟨hclient, hconnecting, hkeyed, hsilent, hquiet⟩ := waits_recorded h pn c.history
  rw [hafter]
  refine ⟨⟨hclient, hconnecting, fun id => ?_, hsilent, fun id hid => ?_⟩, rfl, rfl,
    ⟨rfl, rfl, rfl, rfl, rfl, rfl, _, rfl⟩⟩
  · refine (keys_installed (c.recordRecvPn .initial pn) .handshake id (keys .handshake)).trans ?_
    have hold : ((c.recordRecvPn .initial pn).spaces id).keys = _ := hkeyed id
    rw [hold]
    cases id <;> rfl
  · exact (pendingAcks_installed (c.recordRecvPn .initial pn) .handshake id _).trans (hquiet id hid)

/-- With the second chunk it has all its keys. -/
lemma ingest_flight {finished : Bytes} (h : Waits keys [.initial, .handshake] c)
    (hone : c.cryptoRecvOffset 1 = 0)
    (hanswered : Answered R c.tls data (keys .applicationData) finished tls') (hdone : done tls')
    (hopen : c.openPacket buf =
      ok (.handshake, pn, .crypto 0 data :: rest ++ List.replicate k .padding))
    (hacks : ∀ f ∈ rest, f.AckOnly) :
    Steady keys done (c.ingest R buf).2 ∧ Unmoved c (c.ingest R buf).2 .handshake pn := by
  have hstate : c.state ≠ .closed := by
    rw [h.connecting]
    decide
  have hunkeyed : ((c.recordRecvPn .handshake pn).spaces .applicationData).hasKeys = false := by
    rw [Space.hasKeys, keys_recorded, h.keyed]
    rfl
  obtain ⟨pendingCrypto, fed, hfeed, hquiet⟩ :=
    feedCrypto_flight (c := c.recordRecvPn .handshake pn) hanswered hunkeyed
  obtain ⟨history, hafter⟩ := ingest_told hstate hopen hacks hone hfeed
  rw [hafter]
  refine ⟨⟨.inl rfl, hdone, fun id => ?_, hquiet.trans (h.silent 2)⟩,
    ⟨rfl, rfl, rfl, rfl, rfl, rfl, _, rfl⟩⟩
  refine (keys_installed (c.recordRecvPn .handshake pn) .applicationData id _).trans ?_
  rw [keys_recorded, h.keyed]
  cases id <;> rfl

end

lemma awaits_keyed {d : Flying} {flight : List Flying} {left : List Message}
    (h : Awaits R keys done due c) (hdue : Due due (d :: flight) left) :
    (c.spaces d.space).keys = some (keys d.space) := by
  cases hdue with
  | allTold => cases h
  | quiet hquiet _ =>
    obtain ⟨keyed, hmem, hwaits⟩ := h.waits
    rw [hquiet.1, hwaits.keyed, if_pos hmem]
  | told htells _ =>
    rw [htells.1]
    cases h with
    | hello hwaits | flight hwaits =>
      rw [hwaits.keyed]
      rfl

lemma awaits_streamData {d : Flying} {flight : List Flying} {left : List Message}
    (h : Awaits R keys done due c) (hdue : Due due (d :: flight) left) :
    d.frames.flatMap Frame.streamData = [] := by
  cases hdue with
  | allTold => cases h
  | quiet hquiet _ => exact streamData_quiet hquiet.2
  | told htells _ =>
    obtain ⟨rest, hframes, hrest⟩ := htells.2
    rw [hframes, List.flatMap_cons, streamData_quiet hrest]
    rfl

/-- With each datagram the client waits for as many chunks as before or for one less, and with the
last one it has all its keys. -/
lemma awaits_ingest {d : Flying} {flight : List Flying} {left : List Message} {k : Nat}
    (h : Awaits R keys done due c) (hdue : Due due (d :: flight) left)
    (hopen : c.openPacket d.datagram = ok (d.space, d.pn, d.frames ++ List.replicate k .padding)) :
    ((∃ due', Due due' flight left ∧ Awaits R keys done due' (c.ingest R d.datagram).2) ∨
      Steady keys done (c.ingest R d.datagram).2) ∧
      Unmoved c (c.ingest R d.datagram).2 d.space d.pn := by
  cases hdue with
  | allTold => cases h
  | quiet hquiet hrest =>
    have hstate : c.state ≠ .closed := by
      obtain ⟨_, _, hwaits⟩ := h.waits
      rw [hwaits.connecting]
      decide
    obtain ⟨history, hafter⟩ := ingest_quiet (R := R) hstate hopen hquiet.2
    rw [hafter]
    refine ⟨.inl ⟨due, hrest, h.same rfl rfl fun keyed hwaits => ?_⟩,
      ⟨rfl, rfl, rfl, rfl, rfl, rfl, _, rfl⟩⟩
    rw [hquiet.1]
    exact waits_recorded hwaits d.pn history
  | told htells hrest =>
    obtain ⟨hspace, rest, hframes, hacks⟩ := htells
    rw [hframes, hspace] at hopen
    rw [hspace]
    cases h with
    | hello hwaits hzero hone hanswered hnext hdone =>
      obtain ⟨hwaits', htls, hoffset, hunmoved⟩ :=
        ingest_serverHello hwaits hzero hanswered hopen hacks
      exact ⟨.inl ⟨_, hrest, .flight hwaits' (hoffset.trans hone) (htls ▸ hnext) hdone⟩, hunmoved⟩
    | flight hwaits hone hanswered hdone =>
      obtain ⟨hsteady, hunmoved⟩ := ingest_flight hwaits hone hanswered hdone hopen hacks
      exact ⟨.inr hsteady, hunmoved⟩

end Connection

namespace Wire

open Connection

variable {σ : Type} {R : Rustls σ} {keys : Side → PacketNumberSpace → Keys} {done : σ → Prop}

/-- The server has its keys, and the chunks that the client waits for are on their way. -/
structure Early (R : Rustls σ) (keys : Side → PacketNumberSpace → Keys) (done : σ → Prop)
    (due : List Message) (x : Wire σ) : Prop where
  server : Steady (keys .server) done (x.ends .server)
  client : Awaits R (keys .client) done due (x.ends .client)
  chunks : Due due (x.flight .client) (x.ends .server).toTell
  quiet : ∀ d ∈ x.flight .server, d.Quiet
  reachable : Reachable x
  underway : ∀ side, Underway keys x side

/-- Either that, or they are joined. -/
def Met (R : Rustls σ) (keys : Side → PacketNumberSpace → Keys) (done : σ → Prop) (x : Wire σ) :
    Prop :=
  (∃ due, Early R keys done due x) ∨ Joined keys done x

variable {x : Wire σ} {due : List Message}

lemma early_departed_server (hkeys : Matched keys) (h : Early R keys done due x)
    {id : PacketNumberSpace} {packet : Bytes} (hbusy : (x.ends .server).firstBusy = some id)
    (hpacket : (x.ends .server).packetOf id = ok packet) (hsize : packet.length < 2 ^ 61)
    (hleft : NumbersLeft (x.ends .server)) :
    Early R keys done due (x.departed .server id packet) := by
  obtain ⟨hnumber, hlong⟩ := hleft id hbusy
  have hsound := sound_flying hkeys h.reachable hpacket hsize (h.server.keyed id) hlong
    (steady_framesOf h.server id)
  refine ⟨?_, ?_, ?_, ?_, reachable_departed h.reachable .server id packet,
    underway_departed h.underway hsound hnumber⟩
  · rw [ends_departed]
    exact steady_sent h.server id
  · exact h.client
  · rw [ends_departed]
    exact due_sent h.server.keyed hbusy packet h.chunks
  · rw [flight_departed]
    exact h.quiet

lemma early_departed_client (hkeys : Matched keys) (h : Early R keys done due x)
    {id : PacketNumberSpace} {packet : Bytes} (hbusy : (x.ends .client).firstBusy = some id)
    (hpacket : (x.ends .client).packetOf id = ok packet) (hsize : packet.length < 2 ^ 61)
    (hleft : NumbersLeft (x.ends .client)) :
    Early R keys done due (x.departed .client id packet) := by
  obtain ⟨keyed, hmem, hwaits⟩ := h.client.waits
  obtain ⟨rfl, hacks⟩ := waits_busy hwaits hbusy
  obtain ⟨hnumber, hlong⟩ := hleft .initial hbusy
  have hkeyed : ((x.ends .client).spaces .initial).keys = some (keys .client .initial) := by
    rw [hwaits.keyed, if_pos hmem]
  have hmild : ∀ f ∈ (x.ends .client).framesOf .initial, f.Mild .initial := fun f hf => by
    have hack := hacks f hf
    cases f with
    | ack | padding => trivial
    | _ => exact hack.elim
  have hsound := sound_flying hkeys h.reachable hpacket hsize hkeyed hlong hmild
  refine ⟨h.server, ?_, ?_, ?_, reachable_departed h.reachable .client .initial packet,
    underway_departed h.underway hsound hnumber⟩
  · rw [ends_departed]
    exact awaits_sent h.client .initial
  · rw [flight_departed]
    exact h.chunks
  · intro d hd
    have hflight := flight_departed_peer x .client .initial packet
    rw [show peer .client = .server from rfl] at hflight
    rw [hflight] at hd
    rcases List.mem_append.mp hd with hd | hd
    · exact h.quiet d hd
    · rw [List.mem_singleton.mp hd]
      exact ⟨rfl, hacks⟩

/-- The server hears acknowledgements. -/
lemma early_landed_server (h : Early R keys done due x) {d : Flying} {rest : List Flying}
    (hflight : x.flight .server = d :: rest)
    (hclear : (x.ends .server).openPacket d.datagram ≠ err (.packet .reservedBitsSet)) :
    Early R keys done due (landed R x .server d rest) ∧
      (landed R x .server d rest).unread = x.unread := by
  have hquiet := h.quiet d (by rw [hflight]; exact List.mem_cons_self)
  obtain ⟨k, hopen⟩ := opens_head (h.underway .server) hflight (h.server.keyed d.space) hclear
  obtain ⟨history, hafter⟩ := ingest_quiet (R := R) h.server.open hopen hquiet.2
  refine ⟨⟨?_, h.client, ?_, ?_, ?_, ?_⟩, ?_⟩
  · rw [ends_landed, hafter]
    exact ⟨h.server.running, h.server.rested,
      fun id => (keys_recorded _ d.space id d.pn).trans (h.server.keyed id), h.server.quiet⟩
  · rw [ends_landed, hafter]
    exact h.chunks
  · rw [flight_landed]
    exact fun d' hd' => h.quiet d' (by rw [hflight]; exact List.mem_cons_of_mem _ hd')
  · exact reachable_landed h.reachable hafter ⟨rfl, rfl, rfl⟩
  · exact underway_landed h.underway hflight hafter rfl ⟨_, rfl⟩
  · refine unread_landed hflight hafter rfl ?_
    rw [streamData_quiet hquiet.2, List.append_nil]
    rfl

/-- The client hears what the server has to say. -/
lemma early_landed_client (h : Early R keys done due x) {d : Flying} {rest : List Flying}
    (hflight : x.flight .client = d :: rest)
    (hclear : (x.ends .client).openPacket d.datagram ≠ err (.packet .reservedBitsSet)) :
    Met R keys done (landed R x .client d rest) ∧
      (landed R x .client d rest).unread = x.unread := by
  have hchunks := h.chunks
  rw [hflight] at hchunks
  obtain ⟨k, hopen⟩ := opens_head (h.underway .client) hflight (awaits_keyed h.client hchunks) hclear
  obtain ⟨hphase, hunmoved⟩ := awaits_ingest h.client hchunks hopen
  have hreachable : Reachable (landed R x .client d rest) := reachable_landed h.reachable rfl
    ⟨hunmoved.version, hunmoved.dstCid, hunmoved.srcCid⟩
  have hunderway := underway_landed h.underway hflight rfl hunmoved.dstCid hunmoved.numbers
  refine ⟨?_, unread_landed hflight rfl hunmoved.pending ?_⟩
  · rcases hphase with ⟨due', hdue, hawaits⟩ | hsteady
    · refine .inl ⟨due', h.server, ?_, ?_, h.quiet, hreachable, hunderway⟩
      · rw [ends_landed]
        exact hawaits
      · rw [flight_landed]
        exact hdue
    · refine .inr ⟨?_, hreachable, hunderway⟩
      rintro (_ | _)
      · rw [ends_landed]
        exact hsteady
      · exact h.server
  · rw [hunmoved.received, awaits_streamData h.client hchunks, List.append_nil]

/-- The calls of the applications do not concern the handshake. -/
lemma early_setEnd (h : Early R keys done due x) {side : Side} {c' : Connection σ}
    (hsame : ∃ pendingAppData receivedAppData history,
      c' = { x.ends side with pendingAppData, receivedAppData, history }) :
    Early R keys done due (x.setEnd side c') := by
  obtain ⟨pending, received, history, rfl⟩ := hsame
  have hreachable : Reachable (x.setEnd side { x.ends side with
      pendingAppData := pending, receivedAppData := received, history }) :=
    reachable_setEnd h.reachable ⟨rfl, rfl, rfl⟩
  have hunderway : ∀ other, Underway keys (x.setEnd side { x.ends side with
      pendingAppData := pending, receivedAppData := received, history }) other :=
    underway_setEnd h.underway rfl rfl
  cases side with
  | client =>
    refine ⟨h.server, h.client.same rfl rfl fun keyed hwaits => ?_, h.chunks, h.quiet, hreachable,
      hunderway⟩
    exact ⟨hwaits.client, hwaits.connecting, hwaits.keyed, hwaits.silent, hwaits.acks⟩
  | server =>
    exact ⟨⟨h.server.running, h.server.rested, h.server.keyed, h.server.quiet⟩, h.client, h.chunks,
      h.quiet, hreachable, hunderway⟩

/-- The handshake goes on or is over, and a hop is for the applications what `acts` says. -/
lemma met_next (hR : Rested R done) (hkeys : Matched keys) {hop : Hop} (h : Met R keys done x)
    (hsmooth : Smooth x hop) :
    Met R keys done (x.next R hop) ∧ (x.next R hop).unread = run Pipe.next x.unread (x.acts hop) := by
  rcases h with ⟨due, h⟩ | h
  case inr =>
    obtain ⟨hjoined, hunread⟩ := joined_next hR hkeys h hsmooth
    exact ⟨.inr hjoined, hunread⟩
  obtain ⟨horderly, hrest⟩ := hsmooth
  cases hop with
  | emit side bufLen =>
    obtain ⟨hleaves, hsize, hleft⟩ := hrest
    have hopen : (x.ends side).state ≠ .closed := by
      cases side with
      | client =>
        obtain ⟨_, _, hwaits⟩ := h.client.waits
        rw [hwaits.connecting]
        decide
      | server => exact h.server.open
    rcases next_emit (R := R) hopen hleaves with ⟨-, hnext⟩ | ⟨id, packet, hbusy, hpacket, hfits, hnext⟩
    · rw [hnext]
      exact ⟨.inl ⟨due, h⟩, rfl⟩
    · rw [hnext]
      refine ⟨.inl ⟨due, ?_⟩, unread_departed x side id packet⟩
      cases side with
      | client => exact early_departed_client hkeys h hbusy hpacket (hfits.trans_lt hsize) hleft
      | server => exact early_departed_server hkeys h hbusy hpacket (hfits.trans_lt hsize) hleft
  | arrive side i =>
    obtain rfl : i = 0 := horderly
    cases hflight : x.flight side with
    | nil =>
      rw [next_arrive_nil hflight]
      exact ⟨.inl ⟨due, h⟩, rfl⟩
    | cons d rest =>
      have hclear := hrest d (by rw [hflight]; rfl)
      rw [next_arrive hflight]
      cases side with
      | client => exact early_landed_client h hflight hclear
      | server =>
        obtain ⟨hearly, hunread⟩ := early_landed_server h hflight hclear
        exact ⟨.inl ⟨due, hearly⟩, hunread⟩
  | lose | copy | inject => exact horderly.elim
  | queue side data =>
    exact ⟨.inl ⟨due, early_setEnd h ⟨_, _, _, rfl⟩⟩, unread_queue x side data⟩
  | read side bufLen =>
    exact ⟨.inl ⟨due, early_setEnd h ⟨_, _, _, rfl⟩⟩, unread_read x side bufLen⟩

/-- With nothing in flight and nothing left with the server no chunk is due any more. -/
lemma joined_of_quiet (h : Met R keys done x) (hflight : x.flight .client = [])
    (hidle : (x.ends .server).firstBusy = none) : Joined keys done x := by
  rcases h with ⟨due, h⟩ | h
  · have hbusy := not_busy_of_idle hidle
    have hkeyed : ∀ id, ((x.ends .server).spaces id).hasKeys = true := fun id =>
      hasKeys_of_keys (h.server.keyed id)
    have hzero : (x.ends .server).pendingCrypto 0 = [] :=
      not_busy_crypto (hbusy .initial) (hkeyed .initial)
    have hone : (x.ends .server).pendingCrypto 1 = [] :=
      not_busy_crypto (hbusy .handshake) (hkeyed .handshake)
    have hchunks := h.chunks
    rw [hflight, toTell, hzero, hone, if_pos rfl, if_pos rfl] at hchunks
    have hclient := h.client
    cases hchunks <;> cases hclient
  · exact h

/-- A server with 1-RTT keys that is not established has HANDSHAKE_DONE to send. -/
lemma established_of_idle {keys : PacketNumberSpace → Keys} {c : Connection σ}
    (h : Steady keys done c) (hidle : c.side = .server → c.firstBusy = none) :
    c.state = .established := by
  rcases h.running with hstate | ⟨hside, hstate⟩
  · exact hstate
  · have hconfirms : c.Confirms .applicationData := ⟨rfl, hside, hstate⟩
    have hframe : Frame.handshakeDone ∈ c.framesOf .applicationData :=
      mem_framesOf.mpr (.inr (.inr (.inl ⟨hconfirms, rfl⟩)))
    exact (not_busy_of_idle (hidle hside) .applicationData
      ⟨hasKeys_of_keys (h.keyed .applicationData), List.ne_nil_of_mem hframe⟩).elim

end Wire
end DeerQuic
