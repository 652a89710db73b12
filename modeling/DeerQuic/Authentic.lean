import DeerQuic.Closing
import DeerQuic.HandshakeDone
import DeerQuic.Wire

/-!
# A network that forges nothing

The network may reorder, lose, repeat and insert datagrams. All that is asked of it is that a
datagram that opens was sealed by the other side, in the space and under the number that the receiver
finds in it. Then neither side is ever told anything that the other one has not said.
-/

namespace DeerQuic

open Outcome Protection Transition

/-- What a side puts into packets. -/
def Frame.Composed (side : Side) : Frame → Prop
  | .crypto offset _ => offset = 0
  | .ack _ _ _ _ => True
  | .handshakeDone => side = .server
  | .stream streamId _ _ _ => streamId = 0
  | _ => False

/-- A packet with this number has left that the receiver would open to these frames. -/
def Event.Seals (id : PacketNumberSpace) (pn : Nat) (frames : List Frame) : Event → Prop
  | .sent id' pn' sealed => id' = id ∧ pn' = pn ∧ sealed <+: frames ∧
      ∀ f ∈ frames.drop sealed.length, f = .padding
  | _ => False

instance (id : PacketNumberSpace) (pn : Nat) (frames : List Frame) :
    DecidablePred (Event.Seals id pn frames) := fun e =>
  match e with
  | .sent _ _ _ => inferInstanceAs (Decidable (_ ∧ _ ∧ _ ∧ _))
  | .tlsRead _ _ | .tlsWrite _ _ _ | .received _ _ | .processed _ _ | .built _ _ _ | .queued _
  | .delivered _ _ => isFalse not_false

namespace Connection

variable {σ : Type} {R : Rustls σ}

/-- The frame is in a packet of the space that has left, or it is padding. -/
def SentBy (c : Connection σ) (id : PacketNumberSpace) (f : Frame) : Prop :=
  f = .padding ∨ ∃ pn frames, .sent id pn frames ∈ c.history ∧ f ∈ frames

/-- What a side has said up to now. -/
structure Speaks (c : Connection σ) : Prop where
  composed : ∀ id pn frames, .sent id pn frames ∈ c.history → ∀ f ∈ frames, f.Composed c.side
  confirmed : ∀ id pn frames, .sent id pn frames ∈ c.history → .handshakeDone ∈ frames →
    id = .applicationData ∧ (c.state = .established ∨ c.state = .closed)

lemma SentBy.mono {c c' : Connection σ} {id : PacketNumberSpace} {f : Frame} (h : c.SentBy id f)
    {es : List Event} (hes : c'.history = c.history ++ es) : c'.SentBy id f := by
  rcases h with rfl | ⟨pn, frames, hsent, hf⟩
  · exact .inl rfl
  · refine .inr ⟨pn, frames, ?_, hf⟩
    rw [hes]
    exact List.mem_append_left es hsent

/-- A packet that leaves is the one at hand. -/
lemma sent_next {c : Connection σ} {op : Op} {id : PacketNumberSpace} {pn : Nat}
    {frames : List Frame} (h : .sent id pn frames ∈ (next R c op).history) :
    .sent id pn frames ∈ c.history ∨ next R c op = c.sent id ∧ frames = c.framesOf id := by
  cases op with
  | ingest buf =>
    obtain ⟨es, hes, hin⟩ := ingest_history R c buf
    rw [next, hes] at h
    exact .inl ((List.mem_append.mp h).resolve_right fun hnew => hin _ hnew)
  | egest bufLen =>
    have hbuilt : ∀ id', .sent id pn frames ∈ (c.built id').history →
        .sent id pn frames ∈ c.history := by
      intro id' hmem
      rw [(built_same c id').2.2.2] at hmem
      simpa using hmem
    revert h
    refine egest_induction bufLen (P := fun c' => .sent id pn frames ∈ c'.history →
      .sent id pn frames ∈ c.history ∨ c' = c.sent id ∧ frames = c.framesOf id) .inl ?_ ?_
    · exact fun id' _ _ _ hmem => .inl (hbuilt id' hmem)
    · intro id' _ _ _ hmem
      rcases List.mem_append.mp hmem with hold | hnew
      · exact .inl (hbuilt id' hold)
      · obtain ⟨rfl, -, rfl⟩ := Event.sent.inj (List.mem_singleton.mp hnew)
        exact .inr ⟨rfl, rfl⟩
  | sendData data | recvData bufLen => exact .inl (by simpa [next, sendData, recvData, log] using h)

lemma processed_frameNext {id id' : PacketNumberSpace} {c : Connection σ} {f frame : Frame}
    (h : .processed id' f ∈ (frameNext R id c frame).history) :
    .processed id' f ∈ c.history ∨ id' = id ∧ f = frame := by
  generalize hnext : frameNext R id c frame = c' at h
  have hstep := frameNext_step R id c frame
  rw [hnext] at hstep
  have hlog : ∀ c'' : Connection σ, .processed id' f ∈ (c''.log (.processed id frame)).history →
      .processed id' f ∈ c''.history ∨ id' = id ∧ f = frame := by
    intro c'' hmem
    rcases List.mem_append.mp hmem with hold | hnew
    · exact .inl hold
    · exact .inr (Event.processed.inj (List.mem_singleton.mp hnew))
  cases hstep with
  | refused _ _ => exact .inl h
  | fed _ _ hrun =>
    refine (hlog _ h).imp_left fun hold => ?_
    rw [hrun.history_eq] at hold
    refine (List.mem_append.mp hold).resolve_right fun hnew => ?_
    rcases hrun.events hnew with ⟨_, _, heq⟩ | ⟨_, _, _, heq⟩ <;> cases heq
  | skipped _ | closed _ | confirmed _ | stream | ignored _ => exact hlog _ h

/-- A frame that is processed was in the datagram that was ingested. -/
lemma processed_next {c : Connection σ} {op : Op} {id : PacketNumberSpace} {f : Frame}
    (h : .processed id f ∈ (next R c op).history) :
    .processed id f ∈ c.history ∨ ∃ buf pn frames, op = .ingest buf ∧
      c.openPacket buf = ok (id, pn, frames) ∧ f ∈ frames := by
  cases op with
  | ingest buf =>
    rcases ingest_cases R c buf with hsame | ⟨id', pn, frames, -, hopen, hnext⟩
    · rw [next, hsame] at h
      exact .inl h
    · rw [next, hnext] at h
      have hfrom : .processed id f ∈ c.history ∨ id = id' ∧ f ∈ frames := by
        revert h
        refine processFrames_forall R (p := fun frame => frame ∈ frames)
          (P := fun c' => .processed id f ∈ c'.history → .processed id f ∈ c.history ∨
            id = id' ∧ f ∈ frames) ?_ ?_ fun _ hf => hf
        · intro c' frame hc' hframe hmem
          rcases processed_frameNext hmem with hold | ⟨rfl, rfl⟩
          · exact hc' hold
          · exact .inr ⟨rfl, hframe⟩
        · intro hmem
          exact .inl (by simpa [recordRecvPn, log, setSpace] using hmem)
      rcases hfrom with hold | ⟨rfl, hf⟩
      · exact .inl hold
      · exact .inr ⟨buf, pn, frames, rfl, hopen, hf⟩
  | egest bufLen =>
    refine .inl ?_
    revert h
    refine egest_induction bufLen (P := fun c' => .processed id f ∈ c'.history →
      .processed id f ∈ c.history) (fun hmem => hmem) ?_ ?_
    · intro id' _ _ _ hmem
      rw [(built_same c id').2.2.2] at hmem
      simpa using hmem
    · intro id' _ _ _ hmem
      rw [sent, log, (built_same c id').2.2.2] at hmem
      simpa using hmem
  | sendData data | recvData bufLen => exact .inl (by simpa [next, sendData, recvData, log] using h)

lemma composed_framesOf {c : Connection σ} {id : PacketNumberSpace} :
    ∀ f ∈ c.framesOf id, f.Composed c.side := by
  intro f hf
  rcases mem_framesOf.mp hf with ⟨_, rfl⟩ | ⟨_, rfl⟩ | ⟨hconfirms, rfl⟩ | ⟨_, rfl⟩
  · rfl
  · trivial
  · exact hconfirms.2.1
  · rfl

/-- Whoever is established stays so until the connection is closed. -/
lemma decided_next {c : Connection σ} (op : Op) (h : c.state = .established ∨ c.state = .closed) :
    (next R c op).state = .established ∨ (next R c op).state = .closed := by
  cases op with
  | ingest buf =>
    refine ingest_always R (P := fun c' => c'.state = .established ∨ c'.state = .closed)
      (fun _ _ _ hc => hc) ?_ h buf
    intro id c' frame hc'
    rcases frameNext_settled R id c' frame with hsettled | hclosed | ⟨hestablished, -⟩
    · rw [hsettled.1]
      exact hc'
    · exact .inr hclosed
    · exact .inl hestablished
  | egest bufLen =>
    have hbuilt : ∀ id, (c.built id).state = .established ∨ (c.built id).state = .closed := by
      intro id
      rw [state_built]
      split_ifs
      · exact .inl rfl
      · exact h
    exact egest_induction (P := fun c' => c'.state = .established ∨ c'.state = .closed) bufLen h
      (fun id _ _ _ => hbuilt id) fun id _ _ _ => hbuilt id
  | sendData | recvData => exact h

lemma speaks_next {c : Connection σ} (op : Op) (h : Speaks c) : Speaks (next R c op) := by
  constructor
  · intro id pn frames hsent f hf
    rw [side_next]
    rcases sent_next hsent with hold | ⟨-, rfl⟩
    · exact h.composed id pn frames hold f hf
    · exact composed_framesOf f hf
  · intro id pn frames hsent hdone
    rcases sent_next hsent with hold | ⟨hnext, rfl⟩
    · exact (h.confirmed id pn frames hold hdone).imp_right (decided_next op)
    · -- The packet with HANDSHAKE_DONE makes its sender established.
      obtain ⟨hconfirms, -⟩ : c.Confirms id ∧ True := by simpa [mem_framesOf, ackFrame] using hdone
      rw [hnext]
      exact ⟨hconfirms.1, .inl ((state_built c id).trans (if_pos hconfirms))⟩

lemma speaks_started {c : Connection σ} (h : Started R c) : Speaks c := by
  cases h with
  | connect _ _ hconnect =>
    obtain ⟨_, _, hello, change, _, _, rfl⟩ := connect_eq hconnect
    have hsent : ∀ {id : PacketNumberSpace} {pn : Nat} {frames : List Frame},
        Event.sent id pn frames ∈ [.tlsWrite 0 hello change, .built .initial 0 [.crypto 0 hello],
          .sent .initial 0 [.crypto 0 hello]] → frames = [.crypto 0 hello] := by
      intro id pn frames hmem
      simp only [List.mem_cons, reduceCtorEq, Event.sent.injEq, List.not_mem_nil, or_false,
        false_or] at hmem
      exact hmem.2.2
    constructor
    · intro id pn frames hmem f hf
      rw [hsent hmem, List.mem_singleton] at hf
      rw [hf]
      rfl
    · intro id pn frames hmem hdone
      rw [hsent hmem, List.mem_singleton] at hdone
      cases hdone
  | accept haccept =>
    have hnone : ∀ {id : PacketNumberSpace} {pn : Nat} {frames : List Frame},
        Event.sent id pn frames ∉ c.history := by
      intro id pn frames hmem
      rcases accept_history haccept hmem with ⟨_, _, heq⟩ | ⟨_, _, _, heq⟩ | heq <;> cases heq
    exact ⟨fun _ _ _ hmem => absurd hmem hnone, fun _ _ _ hmem => absurd hmem hnone⟩

def Open (c : Connection σ) : Prop := c.state ≠ .closed ∧ c.closeReason = none

lemma TlsRun.open {c c' : Connection σ} {es : List Event} (h : TlsRun c es c') (hc : Open c) :
    Open c' := by
  induction h with
  | start => exact hc
  | establish _ _ ih => exact ⟨by simp, ih.2⟩
  | session _ _ ih | read _ _ _ ih | write _ _ _ _ ih | install _ _ _ ih | offset _ _ ih => exact ih

lemma open_frameNext {id : PacketNumberSpace} {c : Connection σ} {frame : Frame} (h : Open c)
    (hclose : frame.isClose = false) : Open (frameNext R id c frame) := by
  generalize hnext : frameNext R id c frame = c'
  have hstep := frameNext_step R id c frame
  rw [hnext] at hstep
  cases hstep with
  | fed _ _ hrun => exact hrun.open h
  | closed _ => cases hclose
  | confirmed _ => exact ⟨by simp [log], h.2⟩
  | refused _ _ | skipped _ | stream | ignored _ => exact h

/-- As long as nobody sends it a CONNECTION_CLOSE frame. -/
lemma open_next {c : Connection σ} {op : Op} (h : Open c)
    (hclose : ∀ buf id pn frames, op = .ingest buf → c.openPacket buf = ok (id, pn, frames) →
      ∀ f ∈ frames, f.isClose = false) : Open (next R c op) := by
  cases op with
  | ingest buf =>
    rcases ingest_cases R c buf with hsame | ⟨id, pn, frames, -, hopen, hnext⟩
    · rw [next, hsame]
      exact h
    · rw [next, hnext]
      exact processFrames_forall R (fun _ _ hc hf => open_frameNext hc hf) h
        (hclose buf id pn frames rfl hopen)
  | egest bufLen =>
    have hbuilt : ∀ id, Open (c.built id) := by
      intro id
      refine ⟨?_, ?_⟩
      · rw [state_built]
        split_ifs
        · decide
        · exact h.1
      · rw [built, drained_eq]
        exact h.2
    exact egest_induction bufLen h (fun id _ _ _ => hbuilt id) fun id _ _ _ => hbuilt id
  | sendData | recvData => exact h

lemma open_started {c : Connection σ} (h : Started R c) : Open c := by
  cases h with
  | connect _ _ hconnect =>
    obtain ⟨_, _, _, _, _, _, rfl⟩ := connect_eq hconnect
    exact ⟨by simp [fresh], rfl⟩
  | accept haccept =>
    obtain ⟨_, _, _, _, _, _, c₁, hrun, _, rfl⟩ := accept_eq haccept
    exact hrun.open (by simp [Open, fresh])

end Connection

namespace Wire

open Connection

variable {σ : Type} {R : Rustls σ}

/-- If the side can open the datagram, the other side has sealed and sent it. -/
def Genuine (x : Wire σ) (side : Side) (datagram : Bytes) : Prop :=
  ∀ id pn frames, (x.ends side).openPacket datagram = ok (id, pn, frames) →
    ∃ e ∈ (x.ends (peer side)).history, e.Seals id pn frames

instance (x : Wire σ) (side : Side) (datagram : Bytes) : Decidable (x.Genuine side datagram) :=
  match h : (x.ends side).openPacket datagram with
  | ok (id, pn, frames) =>
    decidable_of_iff (∃ e ∈ (x.ends (peer side)).history, e.Seals id pn frames) <| by
      simp [Genuine, h]
  | err _ | .panic => isTrue (by simp [Genuine, h])

/-- Whatever datagram the network hands over is genuine. -/
def Unforged (x : Wire σ) (hop : Hop) : Prop :=
  ∀ side datagram, x.opAt side hop = some (.ingest datagram) → x.Genuine side datagram

lemma unforged_arrive {x : Wire σ} {side : Side} {i : Nat} :
    (∀ d ∈ (x.flight side)[i]?, x.Genuine side d.datagram) ↔ Unforged x (.arrive side i) := by
  cases side <;> simp [Unforged, opAt] <;> grind

lemma unforged_inject {x : Wire σ} {side : Side} {datagram : Bytes} :
    x.Genuine side datagram ↔ Unforged x (.inject side datagram) := by
  cases side <;> simp [Unforged, opAt]

/-- The other hops hand over nothing. -/
lemma unforged_of_silent {x : Wire σ} {hop : Hop}
    (h : match hop with | .arrive _ _ | .inject _ _ => False | _ => True) : Unforged x hop := by
  cases hop with
  | arrive | inject => exact h.elim
  | emit | lose | copy | queue | read => simp [Unforged, opAt]

instance : DecidableRel (Unforged (σ := σ)) := fun x hop =>
  match hop with
  | .arrive side i =>
    decidable_of_iff (∀ d ∈ (x.flight side)[i]?, x.Genuine side d.datagram) unforged_arrive
  | .inject side datagram => decidable_of_iff (x.Genuine side datagram) unforged_inject
  | .emit _ _ | .lose _ _ | .copy _ _ | .queue _ _ | .read _ _ =>
    isTrue (unforged_of_silent trivial)

/-- A client and a server at their start, which need not have met. -/
structure Begun (R : Rustls σ) (x : Wire σ) : Prop where
  started : ∀ side, Started R (x.ends side)
  sides : ∀ side, (x.ends side).side = side

/-- No side has done anything that the other one did not tell it. -/
structure Vouched (x : Wire σ) : Prop where
  sides : ∀ side, (x.ends side).side = side
  speaks : ∀ side, Speaks (x.ends side)
  opened : ∀ side, Open (x.ends side)
  sealed : ∀ side id f, .processed id f ∈ (x.ends side).history → (x.ends (peer side)).SentBy id f

/-- What every operation keeps, every hop keeps. -/
lemma ends_invariant {P : Side → Connection σ → Prop} {x : Wire σ} {hop : Hop}
    (step : ∀ side op, x.opAt side hop = some op → P side (x.ends side) →
      P side (Connection.next R (x.ends side) op))
    (h : ∀ side, P side (x.ends side)) (side : Side) : P side ((x.next R hop).ends side) := by
  rw [ends_next]
  cases hop' : x.opAt side hop with
  | none => exact h side
  | some op => exact step side op hop' (h side)

lemma history_ends (x : Wire σ) (hop : Hop) (side : Side) :
    ∃ es, ((x.next R hop).ends side).history = (x.ends side).history ++ es := by
  rw [ends_next]
  cases x.opAt side hop with
  | none => exact ⟨[], (List.append_nil _).symm⟩
  | some op => exact history_next (x.ends side) op

/-- The frames of a genuine datagram are frames that the other side has sent. -/
lemma sentBy_of_genuine {x : Wire σ} {side : Side} {datagram : Bytes} (h : x.Genuine side datagram)
    {id : PacketNumberSpace} {pn : Nat} {frames : List Frame}
    (hopen : (x.ends side).openPacket datagram = ok (id, pn, frames)) :
    ∀ f ∈ frames, (x.ends (peer side)).SentBy id f := by
  obtain ⟨e, he, hseals⟩ := h id pn frames hopen
  cases e with
  | sent id' pn' sealed =>
    obtain ⟨rfl, rfl, ⟨rest, rfl⟩, hpadding⟩ := hseals
    rw [List.drop_left] at hpadding
    intro f hf
    rcases List.mem_append.mp hf with hf | hf
    · exact .inr ⟨pn', sealed, he, hf⟩
    · exact .inl (hpadding f hf)
  | _ => exact hseals.elim

/-- A frame that arrives is padding or of a kind that the other side builds. -/
lemma Vouched.composed {x : Wire σ} (h : Vouched x) {side : Side} {id : PacketNumberSpace}
    {f : Frame} (hf : (x.ends (peer side)).SentBy id f) :
    f = .padding ∨ f.Composed (peer side) := by
  refine hf.imp_right ?_
  rintro ⟨pn, frames, hsent, hmem⟩
  have hcomposed := (h.speaks (peer side)).composed id pn frames hsent f hmem
  rwa [h.sides] at hcomposed

lemma Vouched.isClose {x : Wire σ} (h : Vouched x) {side : Side} {id : PacketNumberSpace}
    {f : Frame} (hf : (x.ends (peer side)).SentBy id f) : f.isClose = false := by
  rcases h.composed hf with rfl | hcomposed
  · rfl
  · cases f with
    | connectionClose => exact hcomposed.elim
    | _ => rfl

lemma vouched_next {x : Wire σ} {hop : Hop} (h : Vouched x) (hhop : Unforged x hop) :
    Vouched (x.next R hop) := by
  constructor
  · exact sides_next h.sides hop
  · exact ends_invariant (fun side op _ hc => speaks_next op hc) h.speaks
  · refine ends_invariant (fun side op hop' hc => open_next hc ?_) h.opened
    rintro buf id pn frames rfl hopen f hf
    exact h.isClose (sentBy_of_genuine (hhop side buf hop') hopen f hf)
  · intro side id f hprocessed
    obtain ⟨es, hes⟩ := history_ends (R := R) x hop (peer side)
    rw [ends_next] at hprocessed
    cases hop' : x.opAt side hop with
    | none =>
      rw [hop'] at hprocessed
      exact (h.sealed side id f hprocessed).mono hes
    | some op =>
      rw [hop'] at hprocessed
      rcases processed_next hprocessed with hold | ⟨buf, pn, frames, rfl, hopen, hf⟩
      · exact (h.sealed side id f hold).mono hes
      · exact (sentBy_of_genuine (hhop side buf hop') hopen f hf).mono hes

lemma vouched_begun {x : Wire σ} (h : Begun R x) : Vouched x where
  sides := h.sides
  speaks side := speaks_started (h.started side)
  opened side := open_started (h.started side)
  sealed side id f hmem := absurd hmem (not_processed_started (h.started side) id f)

lemma always_vouched {x : Wire σ} {hops : List Hop} (hx : Begun R x)
    (hunforged : Along (next R) Unforged x hops) : Always (next R) Vouched x hops :=
  always_of_along (fun _ _ h hhop => vouched_next h hhop) (vouched_begun hx) hunforged

/-- One script for the session of the client and one for that of the server. -/
def scriptedBoth (client server : Flights) : Rustls Flights :=
  { scripted client with newServer := .ok server }

def metClient (client server : Flights) : Connection Flights :=
  ((connect (scriptedBoth client server) "" (List.replicate 8 0x50) (List.replicate 8 0x51)).getD
    (fresh .client .connecting [] 1 [] [] (nullKeys plainMask), [])).1

lemma metClient_started {client server : Flights}
    (h : (connect (scriptedBoth client server) "" (List.replicate 8 0x50)
      (List.replicate 8 0x51)).isOk = true) :
    Started (scriptedBoth client server) (metClient client server) := by
  obtain ⟨packet, hconnect⟩ : ∃ packet, connect (scriptedBoth client server) ""
      (List.replicate 8 0x50) (List.replicate 8 0x51) = ok (metClient client server, packet) :=
    ⟨_, eq_ok_getD h _⟩
  exact .connect (by decide) (by decide) hconnect

/-- The client's first packet with less padding. -/
def plainHello : Bytes :=
  (encryptLong (nullDirection plainMask) .initial 1 (List.replicate 8 0x50) (List.replicate 8 0x51)
    (padTo 20 (Frame.crypto 0 [1]).wire) 0 1 (some [])).getD []

def metServer (client server : Flights) : Connection Flights :=
  (accept (scriptedBoth client server) plainHello).getD
    (fresh .server .handshaking [] 1 [] [] (nullKeys plainMask))

lemma metServer_started {client server : Flights}
    (h : (accept (scriptedBoth client server) plainHello).isOk = true) :
    Started (scriptedBoth client server) (metServer client server) :=
  .accept (eq_ok_getD h _)

def meeting (client server : Flights) : Wire Flights where
  ends
    | .client => metClient client server
    | .server => metServer client server
  flight _ := []

abbrev plainTls : Rustls Flights := scriptedBoth clientFlights serverFlights

abbrev plainMeeting : Wire Flights := meeting clientFlights serverFlights

lemma meeting_begun {client server : Flights}
    (hconnect : (connect (scriptedBoth client server) "" (List.replicate 8 0x50)
      (List.replicate 8 0x51)).isOk = true)
    (haccept : (accept (scriptedBoth client server) plainHello).isOk = true)
    (hsides : (metClient client server).side = .client ∧ (metServer client server).side = .server) :
    Begun (scriptedBoth client server) (meeting client server) where
  started side := by
    cases side with
    | client => exact metClient_started hconnect
    | server => exact metServer_started haccept
  sides side := by
    cases side with
    | client => exact hsides.1
    | server => exact hsides.2

lemma plainMeeting_begun : Begun plainTls plainMeeting :=
  meeting_begun (by decide +kernel) (by decide +kernel) (by decide +kernel)

/-- A short form of the server's first packet gets through twice, the packet itself is lost,
something that is no packet arrives, and the application's data come twice. -/
def plainTrouble : List Hop :=
  let first := plainLong .initial 0 [.crypto 0 [2], ackFrame [0]]
  [.emit .server 2048, .lose .client 0, .emit .server 2048, .inject .client first,
    .emit .server 2048, .inject .client [0x40, 1, 2], .arrive .client 0, .inject .client first,
    .arrive .client 0, .queue .server [7], .emit .server 2048, .copy .client 0, .arrive .client 1,
    .arrive .client 0, .read .client 8]

lemma plainTrouble_unforged : Along (next plainTls) Unforged plainMeeting plainTrouble := by
  decide +kernel

/-- Over a network that forges nothing no connection is ever closed. -/
theorem never_closed {x : Wire σ} {hops : List Hop} (hx : Begun R x)
    (hunforged : Along (next R) Unforged x hops) :
    Always (next R) (fun x => ∀ side, (x.ends side).state ≠ .closed ∧
      (x.ends side).closeReason = none) x hops :=
  (always_vouched hx hunforged).imp fun _ h => h.opened

theorem never_closed_in_trouble :
    Always (next plainTls) (fun x => ∀ side, (x.ends side).state ≠ .closed ∧
      (x.ends side).closeReason = none) plainMeeting plainTrouble :=
  never_closed plainMeeting_begun plainTrouble_unforged

/-- When the client learns that the handshake is confirmed, it learns it from a packet of the
ApplicationData space, and the server is established. -/
theorem client_confirmed_after_server {x : Wire σ} {hops : List Hop} (hx : Begun R x)
    (hunforged : Along (next R) Unforged x hops) :
    Always (next R) (fun x => ∀ id, .processed id .handshakeDone ∈ (x.ends .client).history →
      id = .applicationData ∧ (x.ends .server).state = .established) x hops := by
  refine (always_vouched hx hunforged).imp fun x h id hprocessed => ?_
  rcases h.sealed .client id _ hprocessed with hpadding | ⟨pn, frames, hsent, hmem⟩
  · cases hpadding
  · obtain ⟨hid, hstate⟩ := (h.speaks .server).confirmed id pn frames hsent hmem
    exact ⟨hid, hstate.resolve_right (h.opened .server).1⟩

theorem client_confirmed_in_trouble :
    Always (next plainTls) (fun x => ∀ id,
      .processed id .handshakeDone ∈ (x.ends .client).history →
        id = .applicationData ∧ (x.ends .server).state = .established)
      plainMeeting plainTrouble :=
  client_confirmed_after_server plainMeeting_begun plainTrouble_unforged

end Wire
end DeerQuic
