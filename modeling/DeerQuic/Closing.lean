import DeerQuic.Established

/-!
# Behind a CONNECTION_CLOSE frame

`ingest`, `egest` and the rest leave a closed connection alone. The frame loop does not look at
the state: what stands behind a CONNECTION_CLOSE frame in its packet is processed as if nothing
had happened.
-/

namespace DeerQuic

open Outcome Protection Transition

def Frame.isClose : Frame → Bool
  | .connectionClose _ _ _ => true
  | _ => false

namespace Connection

variable {σ : Type} {R : Rustls σ}

/-- Closed, and it is known why. -/
def Shut (c : Connection σ) : Prop := c.state = .closed ∧ c.closeReason.isSome = true

variable (R) in
/-- The frame is accepted, the connection stays shut, no data is delivered and TLS is not
called: the frame itself is all that is logged. -/
structure Inert (id : PacketNumberSpace) (c : Connection σ) (frame : Frame) : Prop where
  returns : (c.processFrame R id frame).1 = ok ()
  shut : Shut (frameNext R id c frame)
  appData : (frameNext R id c frame).receivedAppData = c.receivedAppData
  uncalled : (frameNext R id c frame).history = c.history ++ [.processed id frame]

/-- Neither HANDSHAKE_DONE at a client, nor stream data, nor a CRYPTO frame that starts where
TLS stopped reading. -/
def Harmless (id : PacketNumberSpace) (c : Connection σ) (frame : Frame) : Prop :=
  (frame = .handshakeDone → c.side = .server) ∧ frame.streamData = [] ∧
    ∀ offset data, frame = .crypto offset data →
      offset ≠ c.cryptoRecvOffset (pnSpaceToLevel id)

variable (R) in
/-- `Q` holds of the frames behind each CONNECTION_CLOSE frame that is processed, in the state
this frame leaves. -/
def BehindClose (id : PacketNumberSpace) (Q : Connection σ → List Frame → Prop) :
    List Frame → Connection σ → Prop
  | [], _ => True
  | frame :: frames, c =>
    (frame.isClose = true → Q (frameNext R id c frame) frames) ∧
      ((c.processFrame R id frame).1 = ok () →
        BehindClose id Q frames (frameNext R id c frame))

variable (R) in
def IngestBehindClose (Q : PacketNumberSpace → Connection σ → List Frame → Prop)
    (c : Connection σ) : Op → Prop
  | .ingest buf => c.state ≠ .closed → ∀ id pn frames, c.openPacket buf = ok (id, pn, frames) →
      BehindClose R id (Q id) frames (c.recordRecvPn id pn)
  | _ => True

/-- The frames behind a CONNECTION_CLOSE frame do nothing. -/
def RestInert (R : Rustls σ) : Connection σ → Op → Prop :=
  IngestBehindClose R fun id c frames => FramesAlong R id (Inert R id) frames c

/-- The frames behind a CONNECTION_CLOSE frame are all harmless where it stands. -/
def RestHarmless (R : Rustls σ) : Connection σ → Op → Prop :=
  IngestBehindClose R fun id c frames => ∀ f ∈ frames, Harmless id c f

/-- Once a CONNECTION_CLOSE frame has been processed the connection is shut. -/
def StaysShut (c : Connection σ) : Prop :=
  ∀ id frame, .processed id frame ∈ c.history → frame.isClose = true → Shut c

lemma processFrame_of_harmless {id : PacketNumberSpace} {c : Connection σ} {frame : Frame}
    (h : Harmless id c frame) (hclose : frame.isClose = false) :
    c.processFrame R id frame = (ok (), c) := by
  obtain ⟨hdone, hdata, hoffset⟩ := h
  cases frame with
  | crypto offset data =>
    have hskip := hoffset offset data rfl
    simp only [processFrame, hskip, and_false, if_false]
  | handshakeDone =>
    have hserver := hdone rfl
    simp only [processFrame, hserver, reduceCtorEq, if_false]
  | stream streamId offset data fin =>
    have hempty : data = [] := hdata
    simp only [processFrame, hempty, List.append_nil]
  | connectionClose _ _ _ => cases hclose
  | _ => rfl

/-- A harmless frame is inert, and leaves the same frames harmless. -/
lemma inert_of_harmless {id : PacketNumberSpace} {c : Connection σ} {frame : Frame} (h : Shut c)
    (hharmless : Harmless id c frame) :
    Inert R id c frame ∧ ∀ f, Harmless id (frameNext R id c frame) f ↔ Harmless id c f := by
  cases hclose : frame.isClose with
  | true =>
    cases frame with
    | connectionClose errorCode frameType reason =>
      exact ⟨⟨rfl, ⟨rfl, rfl⟩, rfl, rfl⟩, fun _ => Iff.rfl⟩
    | _ => cases hclose
  | false =>
    have hprocess := processFrame_of_harmless (R := R) hharmless hclose
    have hnext := frameNext_of_ok hprocess
    constructor
    · constructor
      · rw [hprocess]
      · rw [hnext]
        exact h
      · rw [hnext]
        rfl
      · rw [hnext]
        rfl
    · intro f
      rw [hnext]
      exact Iff.rfl

/-- Every other frame shows: in the state, in the data or in the calls to TLS. -/
lemma harmless_of_inert {id : PacketNumberSpace} {c : Connection σ} {frame : Frame}
    (h : Inert R id c frame) : Harmless id c frame := by
  obtain ⟨hreturns, ⟨hstate, _⟩, hdata, huncalled⟩ := h
  refine ⟨?_, ?_, ?_⟩
  · rintro rfl
    cases hside : c.side with
    | server => rfl
    | client =>
      simp [frameNext, processFrame, hside, log] at hstate
  · cases frame with
    | stream streamId offset data fin =>
      have hempty : data = [] := by simpa [frameNext, processFrame, log] using hdata
      exact hempty
    | _ => rfl
  · rintro offset data rfl hoffset
    subst hoffset
    have hlevel := level_lt id
    have hprocess : c.processFrame R id (.crypto (c.cryptoRecvOffset (pnSpaceToLevel id)) data) =
        c.feedCrypto R (pnSpaceToLevel id) data := by
      simp only [processFrame, Nat.le_of_lt_succ hlevel, and_self, if_true]
    rw [hprocess] at hreturns
    rcases feedCrypto_cases R c hlevel data with ⟨e, _, hrefused⟩ | ⟨_, c', hfed, hrun⟩
    · rw [hrefused] at hreturns
      cases hreturns
    · rw [frameNext_of_ok (hprocess.trans hfed)] at huncalled
      have hlength := congrArg List.length huncalled
      simp only [log, hrun.history_eq, List.length_append, List.length_cons] at hlength
      omega

lemma inert_iff_harmless {id : PacketNumberSpace} {c : Connection σ} (h : Shut c)
    (frames : List Frame) :
    FramesAlong R id (Inert R id) frames c ↔ ∀ f ∈ frames, Harmless id c f := by
  induction frames generalizing c with
  | nil => exact iff_of_true trivial (by simp)
  | cons frame frames ih =>
    rw [List.forall_mem_cons]
    constructor
    · rintro ⟨hinert, hrest⟩
      have hframe := harmless_of_inert hinert
      obtain ⟨_, hsame⟩ := inert_of_harmless (R := R) h hframe
      refine ⟨hframe, fun f hf => (hsame f).mp ?_⟩
      exact (ih hinert.shut).mp (hrest hinert.returns) f hf
    · rintro ⟨hframe, hrest⟩
      obtain ⟨hinert, hsame⟩ := inert_of_harmless (R := R) h hframe
      refine ⟨hinert, fun _ => (ih hinert.shut).mpr fun f hf => ?_⟩
      exact (hsame f).mpr (hrest f hf)

lemma shut_processFrames {id : PacketNumberSpace} {frames : List Frame} {c : Connection σ}
    (h : Shut c) (hrest : FramesAlong R id (Inert R id) frames c) :
    Shut (processFrames R id frames c).2 :=
  processFrames_along R (fun _ _ _ hinert => hinert.shut) h hrest

lemma shut_of_isClose (id : PacketNumberSpace) (c : Connection σ) {frame : Frame}
    (hclose : frame.isClose = true) : Shut (frameNext R id c frame) := by
  cases frame with
  | connectionClose errorCode frameType reason => exact ⟨rfl, rfl⟩
  | _ => cases hclose

lemma behindClose_iff {id : PacketNumberSpace} (frames : List Frame) (c : Connection σ) :
    BehindClose R id (fun c frames => FramesAlong R id (Inert R id) frames c) frames c ↔
      BehindClose R id (fun c frames => ∀ f ∈ frames, Harmless id c f) frames c := by
  induction frames generalizing c with
  | nil => exact Iff.rfl
  | cons frame frames ih =>
    have hrest := ih (frameNext R id c frame)
    have hbehind : frame.isClose = true →
        (FramesAlong R id (Inert R id) frames (frameNext R id c frame) ↔
          ∀ f ∈ frames, Harmless id (frameNext R id c frame) f) := fun hclose =>
      inert_iff_harmless (shut_of_isClose id c hclose) frames
    exact and_congr (forall_congr' hbehind) (forall_congr' fun _ => hrest)

lemma behindClose_of_forall {id : PacketNumberSpace} {Q : Connection σ → List Frame → Prop}
    {frames : List Frame} (h : ∀ f ∈ frames, f.isClose = false) (c : Connection σ) :
    BehindClose R id Q frames c := by
  induction frames generalizing c with
  | nil => trivial
  | cons frame frames ih =>
    constructor
    · intro hclose
      rw [h frame List.mem_cons_self] at hclose
      cases hclose
    · intro _
      exact ih (fun f hf => h f (List.mem_cons_of_mem _ hf)) _

lemma restInert_iff (c : Connection σ) (op : Op) : RestInert R c op ↔ RestHarmless R c op := by
  cases op with
  | ingest buf =>
    constructor
    · intro h hstate id pn frames hopen
      exact (behindClose_iff frames _).mp (h hstate id pn frames hopen)
    · intro h hstate id pn frames hopen
      exact (behindClose_iff frames _).mpr (h hstate id pn frames hopen)
  | egest _ | sendData _ | recvData _ => exact Iff.rfl

/-- No CONNECTION_CLOSE frame has been processed. -/
def Unclosed (c : Connection σ) : Prop :=
  ∀ id frame, .processed id frame ∈ c.history → frame.isClose = false

lemma unclosed_same {c c' : Connection σ} {es : List Event} (h : Unclosed c)
    (hhistory : c'.history = c.history ++ es) (hes : ∀ e ∈ es, ∀ id frame, e ≠ .processed id frame) :
    Unclosed c' := by
  intro id frame hmem
  rw [hhistory] at hmem
  rcases List.mem_append.mp hmem with hold | hnew
  · exact h id frame hold
  · exact absurd rfl (hes _ hnew id frame)

lemma Unclosed.staysShut {c : Connection σ} (h : Unclosed c) : StaysShut c := by
  intro id frame hmem hclose
  rw [h id frame hmem] at hclose
  cases hclose

lemma unclosed_frameNext {id : PacketNumberSpace} {c : Connection σ} {frame : Frame}
    (h : Unclosed c) (hclose : frame.isClose = false) : Unclosed (frameNext R id c frame) := by
  have hlogged : ∀ {c' : Connection σ}, Unclosed c' → Unclosed (c'.log (.processed id frame)) := by
    intro c' hc' id' f hmem
    rcases List.mem_append.mp hmem with hold | hnew
    · exact hc' id' f hold
    · obtain ⟨_, rfl⟩ := Event.processed.inj (List.mem_singleton.mp hnew)
      exact hclose
  generalize hnext : frameNext R id c frame = c'
  have hstep := frameNext_step R id c frame
  rw [hnext] at hstep
  cases hstep with
  | refused _ _ => exact h
  | fed _ _ hrun =>
    apply hlogged
    refine unclosed_same h hrun.history_eq ?_
    intro e he id' f
    rcases hrun.events he with ⟨_, _, rfl⟩ | ⟨_, _, _, rfl⟩ <;> simp
  | skipped _ | closed _ | confirmed _ | stream | ignored _ => exact hlogged h

/-- The first CONNECTION_CLOSE frame of the packet shuts the connection, and it stays shut. -/
lemma staysShut_processFrames {id : PacketNumberSpace} {frames : List Frame} {c : Connection σ}
    (h : Unclosed c)
    (hrest : BehindClose R id (fun c frames => FramesAlong R id (Inert R id) frames c) frames c) :
    StaysShut (processFrames R id frames c).2 := by
  induction frames generalizing c with
  | nil => exact h.staysShut
  | cons frame frames ih =>
    obtain ⟨hbehind, hrest⟩ := hrest
    rw [processFrames_cons]
    cases hclose : frame.isClose with
    | true =>
      have hshut := shut_of_isClose (R := R) id c hclose
      split_ifs
      · exact fun _ _ _ _ => shut_processFrames hshut (hbehind hclose)
      · exact fun _ _ _ _ => hshut
    | false =>
      have hnext : Unclosed (frameNext R id c frame) := unclosed_frameNext h hclose
      split_ifs with hok
      · exact ih hnext (hrest hok)
      · exact hnext.staysShut

lemma shut_next {c : Connection σ} (h : Shut c) (op : Op) : Shut (next R c op) := by
  cases op with
  | ingest buf =>
    rcases ingest_cases R c buf with hsame | ⟨_, _, _, hstate, _, _⟩
    · simp only [next]
      rw [hsame]
      exact h
    · exact absurd h.1 hstate
  | egest bufLen =>
    simp only [next]
    rw [egest_idle bufLen (.inl h.1)]
    exact h
  | sendData data | recvData bufLen => exact h

lemma unclosed_of_not_shut {c : Connection σ} (h : StaysShut c) (hopen : ¬ Shut c) : Unclosed c := by
  intro id frame hmem
  cases hclose : frame.isClose with
  | false => rfl
  | true => exact absurd (h id frame hmem hclose) hopen

lemma staysShut_next {c : Connection σ} (op : Op) (h : StaysShut c) (hop : RestInert R c op) :
    StaysShut (next R c op) := by
  by_cases hshut : Shut c
  · exact fun _ _ _ _ => shut_next hshut op
  · have hopen := unclosed_of_not_shut h hshut
    have hlogged : ∀ {c c' : Connection σ} {e : Event}, Unclosed c →
        (∀ id frame, e ≠ .processed id frame) → c'.history = c.history ++ [e] → Unclosed c' := by
      intro c c' e hc he hhistory
      refine unclosed_same hc hhistory ?_
      intro e' he'
      rw [List.mem_singleton.mp he']
      exact he
    cases op with
    | ingest buf =>
      rcases ingest_cases R c buf with hsame | ⟨id, pn, frames, hstate, hopened, hnext⟩
      · simp only [next]
        rw [hsame]
        exact h
      · simp only [next]
        rw [hnext]
        have hrecorded : Unclosed (c.recordRecvPn id pn) := hlogged (e := .received id pn) hopen
          (by simp) rfl
        exact staysShut_processFrames hrecorded (hop hstate id pn frames hopened)
    | egest bufLen =>
      have hbuilt : ∀ id, Unclosed (c.built id) := fun id =>
        hlogged hopen (by simp) (built_same c id).2.2.2
      apply Unclosed.staysShut
      refine egest_induction bufLen hopen (fun id _ _ _ => hbuilt id) fun id _ _ _ => ?_
      exact hlogged (e := .sent id _ _) (hbuilt id) (by simp) rfl
    | sendData data => exact (hlogged (e := .queued data) hopen (by simp) rfl).staysShut
    | recvData bufLen => exact (hlogged (e := .delivered bufLen _) hopen (by simp) rfl).staysShut

lemma unclosed_started {c : Connection σ} (h : Started R c) : Unclosed c :=
  fun id frame hmem => absurd hmem (not_processed_started h id frame)

/-- A CONNECTION_CLOSE frame stops everything and for ever in exactly the runs in which no
frame behind it in its packet is HANDSHAKE_DONE at a client, stream data or a CRYPTO frame that
starts where TLS stopped reading. -/
theorem closed_absorbing_iff {s : Connection σ} (hs : Started R s) (ops : List Op) :
    Along (next R) (RestInert R) s ops ∧ Always (next R) StaysShut s ops ↔
      Along (next R) (RestHarmless R) s ops := by
  have hiff : Along (next R) (RestInert R) s ops ↔ Along (next R) (RestHarmless R) s ops :=
    along_iff (P := fun _ => True) (fun c op _ => restInert_iff c op) (fun _ _ _ _ => trivial) trivial
  rw [← hiff]
  refine ⟨And.left, fun hinert => ⟨hinert, ?_⟩⟩
  exact always_of_along (fun c op h hop => staysShut_next op h hop) (unclosed_started hs).staysShut
    hinert

/-- A PING behind the CONNECTION_CLOSE frame. -/
theorem closed_absorbing_iff_ping :
    Along (next (scripted serverFlights)) (RestInert (scripted serverFlights))
        (plainServer serverFlights)
        [.ingest (plainLong .initial 1 [.connectionClose 0 none [], .ping])] ∧
      Always (next (scripted serverFlights)) StaysShut (plainServer serverFlights)
        [.ingest (plainLong .initial 1 [.connectionClose 0 none [], .ping])] := by
  have hopen : (plainServer serverFlights).openPacket
      (plainLong .initial 1 [.connectionClose 0 none [], .ping]) =
      ok (.initial, 1, .connectionClose 0 none [] :: .ping :: List.replicate 16 .padding) := by
    decide +kernel
  have hquiet : ∀ f ∈ Frame.ping :: List.replicate 16 Frame.padding, f = .ping ∨ f = .padding :=
    fun f hf => (List.mem_cons.mp hf).imp_right List.eq_of_mem_replicate
  refine (closed_absorbing_iff (plainServer_started (by decide +kernel)) _).mpr ⟨?_, trivial⟩
  intro _ id pn frames hopen'
  rw [hopen] at hopen'
  cases hopen'
  refine ⟨fun _ f hf => ?_, fun _ => behindClose_of_forall (fun f hf => ?_) _⟩
  · rcases hquiet f hf with rfl | rfl <;> exact ⟨by simp, rfl, by simp⟩
  · rcases hquiet f hf with rfl | rfl <;> rfl

/-- HANDSHAKE_DONE behind CONNECTION_CLOSE: the client takes itself to be established. -/
theorem closed_reopens :
    Started (scripted [([1], none)]) (plainClient [([1], none)]) ∧
      (run (next (scripted [([1], none)])) (plainClient [([1], none)])
        [.ingest (plainLong .initial 0 [.connectionClose 0 none [], .handshakeDone])]).state =
        .established ∧
      ¬ StaysShut (run (next (scripted [([1], none)])) (plainClient [([1], none)])
        [.ingest (plainLong .initial 0 [.connectionClose 0 none [], .handshakeDone])]) := by
  have hopen : (plainClient [([1], none)]).openPacket
      (plainLong .initial 0 [.connectionClose 0 none [], .handshakeDone]) =
      ok (.initial, 0,
        .connectionClose 0 none [] :: .handshakeDone :: List.replicate 16 .padding) := by
    decide +kernel
  have hstate : (run (next (scripted [([1], none)])) (plainClient [([1], none)])
      [.ingest (plainLong .initial 0 [.connectionClose 0 none [], .handshakeDone])]).state =
      .established := by
    decide +kernel
  refine ⟨plainClient_started (by decide +kernel), hstate, fun hshut => ?_⟩
  have hclose := processed_of_accepted (scripted [([1], none)]) hopen (by decide +kernel)
    List.mem_cons_self
  simp only [run_cons, run_nil, next] at hshut hstate
  have hclosed := (hshut .initial _ hclose rfl).1
  rw [hstate] at hclosed
  cases hclosed

end Connection
end DeerQuic
