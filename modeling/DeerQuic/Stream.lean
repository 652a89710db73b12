import DeerQuic.Egest

/-!
# Application data

What `recv_data` returns is what STREAM frames brought, in the order in which they were
processed. Neither the stream, nor the offset, nor the space of a frame plays a part.
-/

namespace DeerQuic

open Outcome Protection Transition

/-- The data of all STREAM frames processed so far, one after the other. -/
def arrived (events : List Event) : Bytes :=
  events.flatMap fun
    | .processed _ frame => frame.streamData
    | _ => []

/-- All bytes the application was given. -/
def delivered (events : List Event) : Bytes :=
  events.flatMap fun
    | .delivered _ data => data
    | _ => []

lemma arrived_append (events more : List Event) :
    arrived (events ++ more) = arrived events ++ arrived more := by
  simp [arrived]

lemma delivered_append (events more : List Event) :
    delivered (events ++ more) = delivered events ++ delivered more := by
  simp [delivered]

namespace Connection

variable {σ : Type} {R : Rustls σ}

/-- What arrived has been given to the application or waits for it. -/
def Accounted (c : Connection σ) : Prop :=
  delivered c.history ++ c.receivedAppData = arrived c.history

lemma TlsRun.arrived_eq {c c' : Connection σ} {es : List Event} (h : TlsRun c es c') :
    arrived es = [] ∧ delivered es = [] := by
  constructor <;> apply List.flatMap_eq_nil_iff.mpr <;> intro e he <;>
    rcases h.events he with ⟨_, _, rfl⟩ | ⟨_, _, _, rfl⟩ <;> rfl

lemma TlsRun.accounted {c c' : Connection σ} {es : List Event} (h : TlsRun c es c')
    (hc : Accounted c) : Accounted c' := by
  obtain ⟨harrived, hdelivered⟩ := h.arrived_eq
  unfold Accounted at hc ⊢
  rw [h.history_eq, h.same.1, arrived_append, delivered_append, harrived, hdelivered,
    List.append_nil, List.append_nil, hc]

/-- Logging a frame that is not a STREAM frame. -/
lemma accounted_log {c : Connection σ} (h : Accounted c) {e : Event}
    (harrived : arrived [e] = []) (hdelivered : delivered [e] = []) : Accounted (c.log e) := by
  unfold Accounted at h ⊢
  simp only [log, arrived_append, delivered_append, harrived, hdelivered, List.append_nil, h]

lemma accounted_frameNext (id : PacketNumberSpace) {c : Connection σ} (frame : Frame)
    (h : Accounted c) : Accounted (frameNext R id c frame) := by
  generalize hnext : frameNext R id c frame = c'
  have hstep := frameNext_step R id c frame
  rw [hnext] at hstep
  cases hstep with
  | refused _ _ => exact h
  | skipped _ => exact accounted_log h rfl rfl
  | fed _ _ hrun => exact accounted_log (hrun.accounted h) rfl rfl
  | closed _ => exact accounted_log h rfl rfl
  | confirmed _ => exact accounted_log h rfl rfl
  | @stream streamId offset data fin =>
    have harrived : arrived [.processed id (.stream streamId offset data fin)] = data := by
      simp [arrived, Frame.streamData]
    have hdelivered : delivered [.processed id (.stream streamId offset data fin)] = [] := rfl
    unfold Accounted at h ⊢
    simp only [log, arrived_append, delivered_append, harrived, hdelivered, List.append_nil, ← h,
      List.append_assoc]
  | ignored hidle => exact accounted_log h (by simp [arrived, hidle.streamData_eq]) rfl

lemma accounted_next {c : Connection σ} (h : Accounted c) (op : Op) : Accounted (next R c op) := by
  cases op with
  | ingest buf =>
    exact ingest_always (P := Accounted) R
      (fun c id pn hc => accounted_log (e := .received id pn) hc rfl rfl)
      (fun id c frame hc => accounted_frameNext id frame hc) h buf
  | egest bufLen =>
    have hbuilt : ∀ id, Accounted (c.built id) := by
      intro id
      obtain ⟨hreceived, _, _, hhistory⟩ := built_same c id
      unfold Accounted at h ⊢
      rw [hreceived, hhistory, arrived_append, delivered_append, ← h]
      simp [arrived, delivered]
    exact egest_induction bufLen h (fun id _ _ _ => hbuilt id)
      (fun id _ _ _ => accounted_log (hbuilt id) rfl rfl)
  | sendData data => exact accounted_log (e := .queued data) h rfl rfl
  | recvData bufLen =>
    unfold Accounted at h ⊢
    simp only [next, recvData, log, arrived_append, delivered_append]
    simp only [arrived, delivered, List.flatMap_cons, List.flatMap_nil, List.append_nil] at h ⊢
    rw [List.append_assoc, List.take_append_drop, h]

lemma accounted_started {c : Connection σ} (h : Started R c) : Accounted c := by
  cases h with
  | connect _ _ hconnect =>
    obtain ⟨_, _, _, _, _, _, rfl⟩ := connect_eq hconnect
    rfl
  | accept haccept =>
    obtain ⟨_, _, _, _, _, _, c₁, hrun, _, rfl⟩ := accept_eq haccept
    exact accounted_log (e := .received .initial 0) (hrun.accounted rfl) rfl rfl

theorem accounted_run {s : Connection σ} (hs : Started R s) (ops : List Op) :
    Accounted (run (next R) s ops) :=
  invariant (P := Accounted) (fun _ op hc => accounted_next hc op) (accounted_started hs) ops

/-- A STREAM frame with data is the next piece of stream 0 of a sender who sends `S`. -/
def Continues (S : Bytes) (c : Connection σ) : Frame → Prop
  | .stream streamId offset data _ =>
    data = [] ∨ streamId = 0 ∧ offset = (arrived c.history).length ∧ data <+: S.drop offset
  | _ => True

/-- Every STREAM frame of the datagram continues the stream when its turn comes. -/
def ContinuesStep (R : Rustls σ) (S : Bytes) (c : Connection σ) : Op → Prop
  | .ingest buf => IngestAlong R (fun _ => Continues S) c buf
  | _ => True

lemma arrived_frameNext (id : PacketNumberSpace) (c : Connection σ) (frame : Frame) :
    arrived (frameNext R id c frame).history = arrived c.history ++ frame.streamData := by
  generalize hnext : frameNext R id c frame = c'
  have hstep := frameNext_step R id c frame
  rw [hnext] at hstep
  cases hstep with
  | refused _ _ => simp [Frame.streamData]
  | fed _ _ hrun =>
    simp only [log, arrived_append, hrun.history_eq, hrun.arrived_eq.1]
    simp [arrived]
  | skipped _ | closed _ | confirmed _ | stream | ignored _ => simp [log, arrived]

lemma prefix_continue {S data : Bytes} {n : Nat} {taken : Bytes} (h : taken <+: S)
    (hn : n = taken.length) (hdata : data <+: S.drop n) : taken ++ data <+: S := by
  obtain ⟨rest, rfl⟩ := h
  rw [hn, List.drop_left] at hdata
  exact (List.prefix_append_right_inj taken).mpr hdata

lemma arrived_step {S : Bytes} {c : Connection σ} (op : Op) (h : arrived c.history <+: S)
    (hok : ContinuesStep R S c op) : arrived (next R c op).history <+: S := by
  have hsame : ∀ (c' : Connection σ) es, c'.history = c.history ++ es → arrived es = [] →
      arrived c'.history <+: S := by
    intro c' es hhistory hes
    rw [hhistory, arrived_append, hes, List.append_nil]
    exact h
  cases op with
  | ingest buf =>
    refine ingest_along (P := fun c => arrived c.history <+: S) R ?_ ?_ h hok
    · intro c id pn hc
      simpa [recordRecvPn, log, setSpace, arrived_append, arrived] using hc
    · intro id c frame hc hcont
      rw [arrived_frameNext]
      cases frame with
      | stream streamId offset data fin =>
        rcases hcont with hempty | ⟨_, hoffset, hdata⟩
        · simpa [Frame.streamData, hempty] using hc
        · exact prefix_continue hc hoffset hdata
      | _ => simpa [Frame.streamData] using hc
  | egest bufLen =>
    refine egest_induction (P := fun c => arrived c.history <+: S) bufLen h ?_ ?_
    · exact fun id _ _ _ => hsame _ _ (built_same c id).2.2.2 rfl
    · intro id _ _ _
      refine hsame _ [.built id (c.spaces id).nextSendPn (c.framesOf id),
        .sent id (c.spaces id).nextSendPn (c.framesOf id)] ?_ rfl
      simp [sent, log, (built_same c id).2.2.2]
  | sendData data => exact hsame _ [.queued data] rfl rfl
  | recvData bufLen => exact hsame _ _ rfl rfl

/-- Reading on with buffers of these sizes. -/
def reads (sizes : List Nat) : List Op := sizes.map .recvData

lemma arrived_reads (c : Connection σ) (sizes : List Nat) :
    arrived (run (next R) c (reads sizes)).history = arrived c.history := by
  induction sizes generalizing c with
  | nil => rfl
  | cons n sizes ih =>
    have hread : arrived (next R c (.recvData n)).history = arrived c.history := by
      simp [next, recvData, log, arrived]
    simp only [reads, List.map_cons, run_cons] at ih ⊢
    rw [ih, hread]

/-- The reads give a prefix of what arrived, and one large read gives all of it. -/
lemma reads_prefix_iff {c : Connection σ} (h : Accounted c) (S : Bytes) :
    (∀ sizes, delivered (run (next R) c (reads sizes)).history <+: S) ↔
      arrived c.history <+: S := by
  constructor
  · intro hreads
    have hall := hreads [c.receivedAppData.length]
    have hread : delivered (run (next R) c (reads [c.receivedAppData.length])).history =
        arrived c.history := by
      rw [← h]
      simp [reads, next, recvData, log, delivered]
    rw [hread] at hall
    exact hall
  · intro hprefix sizes
    have hacc : Accounted (run (next R) c (reads sizes)) :=
      invariant (P := Accounted) (fun _ op hc => accounted_next hc op) h (reads sizes)
    refine List.IsPrefix.trans ⟨_, hacc⟩ ?_
    rw [arrived_reads]
    exact hprefix

lemma arrived_started {c : Connection σ} (h : Started R c) : arrived c.history = [] := by
  cases h with
  | connect _ _ hconnect =>
    obtain ⟨_, _, _, _, _, _, rfl⟩ := connect_eq hconnect
    rfl
  | accept haccept =>
    obtain ⟨_, _, _, _, _, _, c₁, hrun, _, rfl⟩ := accept_eq haccept
    simp only [recordRecvPn, log, setSpace, hrun.history_eq, arrived_append, hrun.arrived_eq.1]
    rfl

/-- The bytes read are a prefix of the peer's stream exactly when the frames happened to
arrive as one, and they do so as long as each frame with data is the next piece of
stream 0. -/
theorem reads_prefix_of_stream {s : Connection σ} (hs : Started R s) (S : Bytes)
    (ops : List Op) :
    ((∀ sizes, delivered (run (next R) s (ops ++ reads sizes)).history <+: S) ↔
      arrived (run (next R) s ops).history <+: S) ∧
    (Along (next R) (ContinuesStep R S) s ops →
      Always (next R) (fun c => ∀ sizes, delivered (run (next R) c (reads sizes)).history <+: S)
        s ops) := by
  constructor
  · simp only [run_append]
    exact reads_prefix_iff (accounted_run hs ops) S
  · intro halong
    have hstart : Accounted s ∧ arrived s.history <+: S := by
      refine ⟨accounted_started hs, ?_⟩
      rw [arrived_started hs]
      exact List.nil_prefix
    have halways : Always (next R) (fun c => Accounted c ∧ arrived c.history <+: S) s ops :=
      always_of_along (fun c op hc hok => ⟨accounted_next hc.1 op, arrived_step op hc.2 hok⟩)
        hstart halong
    exact halways.imp fun c hc => (reads_prefix_iff hc.1 S).mpr hc.2

/-- Two frames in order. -/
theorem reads_prefix_of_stream_in_order :
    Always (next (scripted serverFlights))
      (fun c => ∀ sizes,
        delivered (run (next (scripted serverFlights)) c (reads sizes)).history <+: [1, 2])
      (plainServer serverFlights)
      [.ingest (plainShort 0 [.stream 0 0 [1] false]),
        .ingest (plainShort 1 [.stream 0 1 [2] false])] := by
  have hfirst : (plainServer serverFlights).openPacket (plainShort 0 [.stream 0 0 [1] false]) =
      ok (.applicationData, 0, .stream 0 0 [1] false :: List.replicate 16 .padding) := by
    decide +kernel
  have hsecond : (next (scripted serverFlights) (plainServer serverFlights)
      (.ingest (plainShort 0 [.stream 0 0 [1] false]))).openPacket
        (plainShort 1 [.stream 0 1 [2] false]) =
      ok (.applicationData, 1, .stream 0 1 [2] false :: List.replicate 15 .padding) := by
    decide +kernel
  refine (reads_prefix_of_stream (plainServer_started (by decide +kernel)) [1, 2] _).2
    ⟨ingestAlong_of_open _ hfirst ⟨.inr ?_, fun _ => framesAlong_padding _ ?_ _ _⟩,
      ingestAlong_of_open _ hsecond ⟨.inr ?_, fun _ => framesAlong_padding _ ?_ _ _⟩, trivial⟩
  · exact ⟨rfl, by decide +kernel, [2], rfl⟩
  · exact fun _ => trivial
  · exact ⟨rfl, by decide +kernel, [], rfl⟩
  · exact fun _ => trivial

/-- The peer sends 1 and 2 on stream 0; the network swaps the packets and so does the read. -/
theorem reads_reordered :
    Started (scripted serverFlights) (plainServer serverFlights) ∧
      (∀ f ∈ [Frame.stream 0 1 [2] false, .stream 0 0 [1] false], ∃ offset data,
        f = .stream 0 offset data false ∧ data <+: [1, 2].drop offset) ∧
      (plainServer serverFlights).openPacket (plainShort 1 [.stream 0 1 [2] false]) =
        ok (.applicationData, 1, [.stream 0 1 [2] false] ++ List.replicate 15 .padding) ∧
      (next (scripted serverFlights) (plainServer serverFlights)
          (.ingest (plainShort 1 [.stream 0 1 [2] false]))).openPacket
          (plainShort 0 [.stream 0 0 [1] false]) =
        ok (.applicationData, 0, [.stream 0 0 [1] false] ++ List.replicate 16 .padding) ∧
      ¬ delivered (run (next (scripted serverFlights)) (plainServer serverFlights)
        [.ingest (plainShort 1 [.stream 0 1 [2] false]),
          .ingest (plainShort 0 [.stream 0 0 [1] false]), .recvData 8]).history <+: [1, 2] := by
  refine ⟨plainServer_started (by decide +kernel), ?_, by decide +kernel, by decide +kernel,
    by decide +kernel⟩
  intro f hf
  simp only [List.mem_cons, List.not_mem_nil, or_false] at hf
  rcases hf with rfl | rfl
  · exact ⟨1, [2], rfl, [], rfl⟩
  · exact ⟨0, [1], rfl, [2], rfl⟩

end Connection
end DeerQuic
