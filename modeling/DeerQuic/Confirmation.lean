import DeerQuic.Established

/-!
# When a server confirms the handshake

TLS hands a server its 1-RTT keys before it has seen the client's Finished. The server takes
having keys for having finished: it confirms with the first packet of the ApplicationData
space, whenever the caller asks for one, and an Initial chunk that brings both sets of keys
establishes it at once. A run that does neither too early confirms in time.
-/

namespace DeerQuic

open Outcome Protection Transition

/-- All frames put into packets. -/
def packed (events : List Event) : List Frame :=
  events.flatMap fun
    | .built _ _ frames => frames
    | _ => []

lemma packed_append (events more : List Event) :
    packed (events ++ more) = packed events ++ packed more := by
  simp [packed]

namespace Connection

variable {σ : Type} {R : Rustls σ}

/-- TLS has accepted a chunk of the Handshake level, which only the client's Finished is. -/
def FinishedRead (c : Connection σ) : Prop := ∃ data, .tlsRead 1 data ∈ c.history

instance (c : Connection σ) : Decidable (FinishedRead c) :=
  decidable_of_iff (c.history.any (fun | .tlsRead 1 _ => true | _ => false) = true) (by
    rw [List.any_eq_true]
    constructor
    · rintro ⟨e, he, hread⟩
      split at hread
      · exact ⟨_, he⟩
      · cases hread
    · rintro ⟨data, he⟩
      exact ⟨_, he, rfl⟩)

/-- The server says that the handshake is over, to its caller or to the client. -/
def Confirmed (c : Connection σ) : Prop :=
  c.isEstablished = true ∨ .handshakeDone ∈ packed c.history

instance (c : Connection σ) : Decidable (Confirmed c) := inferInstanceAs (Decidable (_ ∨ _))

/-- An Initial chunk that TLS answers with both sets of keys, when there are none for 1-RTT. -/
def BringsBoth (R : Rustls σ) (id : PacketNumberSpace) (c : Connection σ) (frame : Frame) :
    Prop :=
  ∃ offset data, frame = .crypto offset data ∧ id = .initial ∧ offset = c.cryptoRecvOffset 0 ∧
    (c.spaces .applicationData).hasKeys = false ∧ AnnouncesTwice R c.tls data

/-- Until the Finished is read no Initial chunk brings both sets of keys, and no packet is
taken when the next would be one of the ApplicationData space. -/
def PatientStep (R : Rustls σ) (c : Connection σ) (op : Op) : Prop :=
  FinishedRead c ∨
    match op with
    | .ingest buf => IngestAlong R (fun id c frame => ¬ BringsBoth R id c frame) c buf
    | .egest _ => ¬ (c.state = .handshaking ∧ c.firstBusy = some .applicationData)
    | _ => True

/-- A server that has read the Finished, or has not confirmed anything. -/
def Patient (c : Connection σ) : Prop :=
  c.side = .server ∧ (FinishedRead c ∨ ¬ Confirmed c)

lemma not_confirmed_iff {c : Connection σ} :
    ¬ Confirmed c ↔ c.state ≠ .established ∧ .handshakeDone ∉ packed c.history := by
  simp [Confirmed, isEstablished]

lemma FinishedRead.mono {c c' : Connection σ} (h : FinishedRead c) {es : List Event}
    (hes : c'.history = c.history ++ es) : FinishedRead c' := by
  obtain ⟨data, hmem⟩ := h
  exact ⟨data, by rw [hes]; exact List.mem_append_left es hmem⟩

lemma finishedRead_next {c : Connection σ} (h : FinishedRead c) (op : Op) :
    FinishedRead (next R c op) := by
  obtain ⟨es, hes, _⟩ := keysSince_next (R := R) c op
  exact h.mono hes

lemma side_next (c : Connection σ) (op : Op) : (next R c op).side = c.side := by
  cases op with
  | ingest buf =>
    exact ingest_always (P := fun c' => c'.side = c.side) R (fun _ _ _ h => h)
      (fun id c' frame h => (side_frameNext id c' frame).trans h) rfl buf
  | egest bufLen =>
    exact egest_induction (P := fun c' => c'.side = c.side) bufLen rfl
      (fun id _ _ _ => (built_same c id).2.1) (fun id _ _ _ => (built_same c id).2.1)
  | sendData data | recvData bufLen => rfl

lemma TlsRun.packed_eq {c c' : Connection σ} {es : List Event} (h : TlsRun c es c') :
    packed c'.history = packed c.history := by
  have hes : packed es = [] := by
    apply List.flatMap_eq_nil_iff.mpr
    intro e he
    rcases h.events he with ⟨_, _, rfl⟩ | ⟨_, _, _, rfl⟩ <;> rfl
  rw [h.history_eq, packed_append, hes, List.append_nil]

lemma packed_frameNext (id : PacketNumberSpace) (c : Connection σ) (frame : Frame) :
    packed (frameNext R id c frame).history = packed c.history := by
  have hlog : ∀ c' : Connection σ, packed (c'.log (.processed id frame)).history =
      packed c'.history := by
    intro c'
    simp [log, packed]
  generalize hnext : frameNext R id c frame = c'
  have hstep := frameNext_step R id c frame
  rw [hnext] at hstep
  cases hstep with
  | refused _ _ => rfl
  | fed _ _ hrun => rw [hlog, hrun.packed_eq]
  | skipped _ | closed _ | confirmed _ | stream | ignored _ => exact hlog _

/-- A frame that is no such chunk leaves a server unconfirmed, or is the Finished. -/
lemma patient_frameNext {id : PacketNumberSpace} {c : Connection σ} {frame : Frame}
    (h : Patient c) (hboth : ¬ BringsBoth R id c frame) : Patient (frameNext R id c frame) := by
  obtain ⟨hserver, hread | hnot⟩ := h
  · obtain ⟨es, hes, _⟩ := keysSince_frameNext (R := R) id c frame
    exact ⟨(side_frameNext id c frame).trans hserver, .inl (hread.mono hes)⟩
  · refine ⟨(side_frameNext id c frame).trans hserver, ?_⟩
    obtain ⟨hstate, hpacked⟩ := not_confirmed_iff.mp hnot
    have hsilent : (frameNext R id c frame).state ≠ .established →
        ¬ Confirmed (frameNext R id c frame) := fun hstate' =>
      not_confirmed_iff.mpr ⟨hstate', by rw [packed_frameNext]; exact hpacked⟩
    rcases frameNext_settled R id c frame with ⟨hsame, _⟩ | hclosed | ⟨hestablished, hcause⟩
    · exact .inr (hsilent (by rw [hsame]; exact hstate))
    · exact .inr (hsilent (by rw [hclosed]; decide))
    · rcases hcause with ⟨_, hclient⟩ | ⟨offset, data, rfl, hoffset, hunkeyed, rfl | ⟨rfl, htwice⟩⟩
      · cases hserver.symm.trans hclient
      · -- The chunk was read: otherwise the state would be what it was.
        left
        generalize hnext : frameNext R .handshake c (.crypto offset data) = c' at hestablished ⊢
        have hstep := frameNext_step R .handshake c (.crypto offset data)
        rw [hnext] at hstep
        cases hstep with
        | fed _ _ hrun => exact ⟨data, by simp [log, hrun.history_eq, pnSpaceToLevel]⟩
        | refused _ _ | skipped _ | ignored _ => exact absurd hestablished hstate
      · exact absurd ⟨offset, data, rfl, rfl, hoffset, hunkeyed, htwice⟩ hboth

lemma patient_built {c : Connection σ} {id : PacketNumberSpace} (h : Patient c)
    (hbusy : c.firstBusy = some id)
    (hwait : FinishedRead c ∨ ¬ (c.state = .handshaking ∧ c.firstBusy = some .applicationData)) :
    Patient (c.built id) := by
  obtain ⟨_, hside, _, hhistory⟩ := built_same c id
  refine ⟨hside.trans h.1, ?_⟩
  rcases h.2 with hread | hnot
  · exact .inl (hread.mono hhistory)
  · rcases hwait with hread | hwait
    · exact .inl (hread.mono hhistory)
    · right
      have hconfirms : ¬ c.Confirms id := by
        rintro ⟨rfl, _, hstate⟩
        exact hwait ⟨hstate, hbusy⟩
      obtain ⟨hstate, hpacked⟩ := not_confirmed_iff.mp hnot
      have hframes : Frame.handshakeDone ∉ c.framesOf id := by
        rw [mem_framesOf]
        simp [hconfirms, ackFrame]
      have hbuilt : (c.built id).state = c.state := by
        rw [state_built, if_neg hconfirms]
      refine not_confirmed_iff.mpr ⟨by rw [hbuilt]; exact hstate, ?_⟩
      rw [hhistory, packed_append]
      simp [packed, hframes] at hpacked ⊢
      exact hpacked

lemma patient_next {c : Connection σ} (op : Op) (h : Patient c) (hop : PatientStep R c op) :
    Patient (next R c op) := by
  rcases hop with hread | hop
  · exact ⟨(side_next c op).trans h.1, .inl (finishedRead_next hread op)⟩
  · cases op with
    | ingest buf =>
      refine ingest_along (P := Patient) R ?_ (fun id c frame hc hf => patient_frameNext hc hf) h hop
      rintro c id pn ⟨hserver, hc⟩
      have hlogged : (c.recordRecvPn id pn).history = c.history ++ [.received id pn] := rfl
      refine ⟨hserver, hc.imp (fun hread => hread.mono hlogged) fun hnot => ?_⟩
      obtain ⟨hstate, hpacked⟩ := not_confirmed_iff.mp hnot
      refine not_confirmed_iff.mpr ⟨hstate, ?_⟩
      simpa [recordRecvPn, log, setSpace, packed] using hpacked
    | egest bufLen =>
      have hbuilt : ∀ id, c.firstBusy = some id → Patient (c.built id) := fun id hbusy =>
        patient_built h hbusy (.inr hop)
      refine egest_induction bufLen h (fun id _ hbusy _ => hbuilt id hbusy) fun id _ hbusy _ => ?_
      obtain ⟨hserver, hc⟩ := hbuilt id hbusy
      refine ⟨hserver, hc.imp (fun hread => hread.mono rfl) fun hnot => ?_⟩
      obtain ⟨hstate, hpacked⟩ := not_confirmed_iff.mp hnot
      refine not_confirmed_iff.mpr ⟨hstate, ?_⟩
      simpa [sent, log, packed] using hpacked
    | sendData data | recvData bufLen =>
      refine ⟨h.1, h.2.imp (fun hread => hread.mono rfl) fun hnot => ?_⟩
      obtain ⟨hstate, hpacked⟩ := not_confirmed_iff.mp hnot
      refine not_confirmed_iff.mpr ⟨hstate, ?_⟩
      simpa [next, sendData, recvData, log, packed] using hpacked

lemma patient_accept {initialPacket : Bytes} {c : Connection σ} (h : accept R initialPacket = ok c) :
    Patient c := by
  obtain ⟨_, _, _, _, _, _, c₁, hrun, hstate, rfl⟩ := accept_eq h
  refine ⟨hrun.same.2.2.2.1, .inr (not_confirmed_iff.mpr ⟨?_, ?_⟩)⟩
  · change c₁.state ≠ .established
    rw [hstate]
    decide
  · have hpacked : packed c₁.history = [] := hrun.packed_eq
    simp [recordRecvPn, log, setSpace, packed_append, hpacked]
    simp [packed]

/-- A server whose caller waits with ApplicationData packets, and whose TLS does not bring both
sets of keys with one Initial chunk, confirms only after it has read the client's Finished. -/
theorem server_confirms_after_finished {initialPacket : Bytes} {s : Connection σ}
    (hs : accept R initialPacket = ok s) {ops : List Op}
    (hpatient : Along (next R) (PatientStep R) s ops) :
    Always (next R) (fun c => Confirmed c → FinishedRead c) s ops := by
  have halways : Always (next R) Patient s ops :=
    always_of_along (fun c op hc hop => patient_next op hc hop) (patient_accept hs) hpatient
  exact halways.imp fun c hc hconfirmed => hc.2.resolve_right fun hnot => hnot hconfirmed

/-- The Finished arrives before the caller asks for packets. -/
theorem server_confirms_after_finished_in_time :
    Always (next (scripted serverFlights)) (fun c => Confirmed c → FinishedRead c)
      (plainServer serverFlights)
      [.ingest (plainLong .handshake 0 [.crypto 0 [9]]), .egest 2048, .egest 2048, .egest 2048] := by
  have hopen : (plainServer serverFlights).openPacket (plainLong .handshake 0 [.crypto 0 [9]]) =
      ok (.handshake, 0, .crypto 0 [9] :: List.replicate 16 .padding) := by
    decide +kernel
  have hread : FinishedRead (next (scripted serverFlights) (plainServer serverFlights)
      (.ingest (plainLong .handshake 0 [.crypto 0 [9]]))) := by
    decide +kernel
  have hread₂ := finishedRead_next (R := scripted serverFlights) hread (.egest 2048)
  have hread₃ := finishedRead_next (R := scripted serverFlights) hread₂ (.egest 2048)
  have haccept : accept (scripted serverFlights) (plainLong .initial 0 [.crypto 0 [1]]) =
      ok (plainServer serverFlights) := eq_ok_getD (by decide +kernel) _
  refine server_confirms_after_finished haccept
    ⟨.inr (ingestAlong_of_open _ hopen ?_), .inl hread, .inl hread₂, .inl hread₃, trivial⟩
  apply framesAlong_of_forall
  intro c frame _ hboth
  obtain ⟨_, _, _, hid, _⟩ := hboth
  cases hid

/-- Three packets into the handshake the server has confirmed it, without another word from
the client. -/
theorem server_confirms_unasked :
    accept (scripted serverFlights) (plainLong .initial 0 [.crypto 0 [1]]) =
        ok (plainServer serverFlights) ∧
      Confirmed (run (next (scripted serverFlights)) (plainServer serverFlights)
        [.egest 2048, .egest 2048, .egest 2048]) ∧
      ¬ FinishedRead (run (next (scripted serverFlights)) (plainServer serverFlights)
        [.egest 2048, .egest 2048, .egest 2048]) :=
  ⟨eq_ok_getD (by decide +kernel) _, by decide +kernel, by decide +kernel⟩

end Connection
end DeerQuic
