import DeerQuic.Confirmation

/-!
# How often a server confirms the handshake

HANDSHAKE_DONE goes into the first ApplicationData packet of a server that is still handshaking.
A server that TLS has left without 1-RTT keys when it accepts the connection never gets there:
the chunk that completes the ClientHello establishes it, and nobody tells the client.
-/

namespace DeerQuic

open Outcome Protection Transition

/-- All frames of packets that left. -/
def sentFrames (events : List Event) : List Frame :=
  events.flatMap fun
    | .sent _ _ frames => frames
    | _ => []

lemma sentFrames_append (events more : List Event) :
    sentFrames (events ++ more) = sentFrames events ++ sentFrames more := by
  simp [sentFrames]

namespace Connection

variable {σ : Type} {R : Rustls σ}

/-- HANDSHAKE_DONE frames put into packets. -/
def donePacked (c : Connection σ) : Nat := (packed c.history).count .handshakeDone

/-- HANDSHAKE_DONE frames that left. -/
def doneSent (c : Connection σ) : Nat := (sentFrames c.history).count .handshakeDone

/-- The packet with HANDSHAKE_DONE can be made and fits the buffer. -/
def DoneLeaves (c : Connection σ) : Op → Prop
  | .egest bufLen => c.state = .handshaking → c.firstBusy = some .applicationData →
      c.Leaves bufLen .applicationData
  | _ => True

/-- Nothing has been confirmed before the server is established, and never twice. -/
structure OnceAtMost (c : Connection σ) : Prop where
  server : c.side = .server
  silent : c.state = .handshaking → c.donePacked = 0
  once : c.donePacked ≤ 1

/-- A server with 1-RTT keys is established by confirming. -/
structure ConfirmedOnce (c : Connection σ) : Prop where
  server : c.side = .server
  keyed : (c.spaces .applicationData).hasKeys = true
  silent : c.state = .handshaking → c.doneSent = 0
  told : c.state = .established → c.doneSent = 1

/-- A handshaking server without 1-RTT keys gets them and is established in one go. -/
structure NeverConfirmed (c : Connection σ) : Prop where
  server : c.side = .server
  unkeyed : c.state = .handshaking → (c.spaces .applicationData).hasKeys = false
  silent : c.donePacked = 0 ∧ c.doneSent = 0

lemma count_framesOf (c : Connection σ) (id : PacketNumberSpace) :
    (c.framesOf id).count .handshakeDone = if c.Confirms id then 1 else 0 := by
  simp [framesOf_eq, apply_ite (List.count _), ackFrame]

lemma done_built (c : Connection σ) (id : PacketNumberSpace) :
    (c.built id).donePacked = c.donePacked + (if c.Confirms id then 1 else 0) ∧
      (c.built id).doneSent = c.doneSent := by
  obtain ⟨_, _, _, hhistory⟩ := built_same c id
  constructor
  · rw [donePacked, hhistory, packed_append, List.count_append, donePacked, ← count_framesOf]
    simp [packed]
  · rw [doneSent, hhistory, sentFrames_append]
    simp [sentFrames, doneSent]

lemma done_sent (c : Connection σ) (id : PacketNumberSpace) :
    (c.sent id).donePacked = c.donePacked + (if c.Confirms id then 1 else 0) ∧
      (c.sent id).doneSent = c.doneSent + (if c.Confirms id then 1 else 0) := by
  obtain ⟨hpacked, hsent⟩ := done_built c id
  have hlogged : (c.sent id).history = (c.built id).history ++
      [.sent id (c.spaces id).nextSendPn (c.framesOf id)] := rfl
  constructor
  · rw [← hpacked, donePacked, hlogged, packed_append]
    simp [packed, donePacked]
  · rw [← hsent, doneSent, hlogged, sentFrames_append, List.count_append, ← count_framesOf, doneSent]
    simp [sentFrames]

lemma done_frameNext (id : PacketNumberSpace) (c : Connection σ) (frame : Frame) :
    (frameNext R id c frame).donePacked = c.donePacked ∧
      (frameNext R id c frame).doneSent = c.doneSent := by
  obtain ⟨es, hes, hin⟩ := frameNext_history R id c frame
  constructor
  · rw [donePacked, packed_frameNext, donePacked]
  · have hnone : sentFrames es = [] := by
      apply List.flatMap_eq_nil_iff.mpr
      intro e he
      cases e with
      | sent => exact (hin _ he).elim
      | _ => rfl
    rw [doneSent, hes, sentFrames_append, hnone, List.append_nil, doneSent]

/-- Only a server without 1-RTT keys is established by a frame. -/
lemma state_frameNext {id : PacketNumberSpace} {c : Connection σ} (frame : Frame)
    (hserver : c.side = .server) :
    Settled c (frameNext R id c frame) ∨ (frameNext R id c frame).state = .closed ∨
      (frameNext R id c frame).state = .established ∧
        (c.spaces .applicationData).hasKeys = false := by
  rcases frameNext_settled R id c frame with h | h | ⟨hstate, ⟨_, hclient⟩ | ⟨_, _, _, _, hkeys, _⟩⟩
  · exact .inl h
  · exact .inr (.inl h)
  · cases hserver.symm.trans hclient
  · exact .inr (.inr ⟨hstate, hkeys⟩)

/-- Logging anything but a packet. -/
lemma done_log {c : Connection σ} {e : Event} (hpacked : packed [e] = [])
    (hsent : sentFrames [e] = []) :
    (c.log e).donePacked = c.donePacked ∧ (c.log e).doneSent = c.doneSent := by
  simp only [donePacked, doneSent, log, packed_append, sentFrames_append, hpacked, hsent,
    List.append_nil, and_self]

/-- What is neither read nor written by these counts: everything but the egress. -/
lemma server_next {P : Connection σ → Prop} {c : Connection σ} {op : Op} (h : P c)
    (logged : ∀ c e, packed [e] = [] → sentFrames [e] = [] → P c → P (c.log e))
    (recorded : ∀ c id pn, P c → P (c.recordRecvPn id pn))
    (frame : ∀ id c f, P c → P (frameNext R id c f))
    (data : ∀ (c : Connection σ) received pending, P c →
      P { c with receivedAppData := received, pendingAppData := pending })
    (built : ∀ id bufLen, op = .egest bufLen → c.firstBusy = some id → ¬ c.Leaves bufLen id →
      P (c.built id))
    (sent : ∀ id, c.firstBusy = some id → P (c.sent id)) : P (next R c op) := by
  cases op with
  | ingest buf => exact ingest_always (P := P) R recorded frame h buf
  | egest bufLen =>
    exact egest_induction bufLen h (fun id _ hbusy hlost => built id bufLen rfl hbusy hlost)
      (fun id _ hbusy _ => sent id hbusy)
  | sendData more => exact logged _ _ rfl rfl (data c c.receivedAppData _ h)
  | recvData bufLen => exact logged _ _ rfl rfl (data c _ c.pendingAppData h)

lemma onceAtMost_next {c : Connection σ} (op : Op) (h : OnceAtMost c) :
    OnceAtMost (next R c op) := by
  have hcounted : ∀ (c' : Connection σ) id, c'.side = c.side → c'.state = (c.built id).state →
      c'.donePacked = (c.built id).donePacked → OnceAtMost c' := by
    intro c' id hside hstate hpacked
    rw [state_built] at hstate
    rw [(done_built c id).1] at hpacked
    by_cases hconfirms : c.Confirms id
    · rw [if_pos hconfirms] at hstate hpacked
      have hnone := h.silent hconfirms.2.2
      refine ⟨hside.trans h.server, ?_, by omega⟩
      intro hhandshaking
      cases hstate.symm.trans hhandshaking
    · rw [if_neg hconfirms] at hstate hpacked
      exact ⟨hside.trans h.server, by rw [hstate, hpacked]; exact h.silent,
        by rw [hpacked]; exact h.once⟩
  refine server_next (P := OnceAtMost) h ?_ ?_ ?_ ?_ ?_ ?_
  · intro c e hpacked hsent hc
    have hsame := (done_log (c := c) hpacked hsent).1
    exact ⟨hc.server, by rw [hsame]; exact hc.silent, by rw [hsame]; exact hc.once⟩
  · intro c id pn hc
    have hsame : (c.recordRecvPn id pn).donePacked = c.donePacked :=
      (done_log (c := c.setSpace id _) (e := .received id pn) rfl rfl).1
    exact ⟨hc.server, by rw [hsame]; exact hc.silent, by rw [hsame]; exact hc.once⟩
  · intro id c f hc
    have hsame := (done_frameNext (R := R) id c f).1
    refine ⟨(side_frameNext id c f).trans hc.server, ?_, by rw [hsame]; exact hc.once⟩
    intro hhandshaking
    rw [hsame]
    rcases state_frameNext (R := R) f hc.server with hsettled | hclosed | ⟨hestablished, _⟩
    · exact hc.silent (hsettled.1.symm.trans hhandshaking)
    · cases hclosed.symm.trans hhandshaking
    · cases hestablished.symm.trans hhandshaking
  · intro c received pending hc
    exact ⟨hc.server, hc.silent, hc.once⟩
  · intro id bufLen _ _ _
    exact hcounted _ id (built_same c id).2.1 rfl rfl
  · intro id _
    refine hcounted _ id (built_same c id).2.1 rfl ?_
    rw [(done_sent c id).1, (done_built c id).1]

lemma confirmedOnce_next {c : Connection σ} {op : Op} (h : ConfirmedOnce c) (hop : DoneLeaves c op) :
    ConfirmedOnce (next R c op) := by
  refine server_next (P := ConfirmedOnce) h ?_ ?_ ?_ ?_ ?_ ?_
  · intro c e hpacked hsent hc
    have hsame := (done_log (c := c) hpacked hsent).2
    exact ⟨hc.server, hc.keyed, by rw [hsame]; exact hc.silent, by rw [hsame]; exact hc.told⟩
  · intro c id pn hc
    have hsame : (c.recordRecvPn id pn).doneSent = c.doneSent :=
      (done_log (c := c.setSpace id _) (e := .received id pn) rfl rfl).2
    exact ⟨hc.server, (hasKeys_recorded c id _ pn).trans hc.keyed, by rw [hsame]; exact hc.silent,
      by rw [hsame]; exact hc.told⟩
  · intro id c f hc
    have hsame := (done_frameNext (R := R) id c f).2
    have hkeyed : ((frameNext R id c f).spaces .applicationData).hasKeys = true :=
      hasKeys_frameNext f hc.keyed
    rcases state_frameNext (R := R) f hc.server with hsettled | hclosed | ⟨_, hunkeyed⟩
    · exact ⟨(side_frameNext id c f).trans hc.server, hkeyed,
        by rw [hsame, hsettled.1]; exact hc.silent, by rw [hsame, hsettled.1]; exact hc.told⟩
    · exact ⟨(side_frameNext id c f).trans hc.server, hkeyed,
        fun hstate => absurd (hclosed.symm.trans hstate) (by decide),
        fun hstate => absurd (hclosed.symm.trans hstate) (by decide)⟩
    · cases hc.keyed.symm.trans hunkeyed
  · intro c received pending hc
    exact ⟨hc.server, hc.keyed, hc.silent, hc.told⟩
  · rintro id bufLen rfl hbusy hlost
    have hconfirms : ¬ c.Confirms id := by
      rintro ⟨rfl, _, hstate⟩
      exact hlost (hop hstate hbusy)
    have hstate := state_built c id
    rw [if_neg hconfirms] at hstate
    exact ⟨(built_same c id).2.1.trans h.server, (hasKeys_built c id .applicationData).trans h.keyed,
      by rw [hstate, (done_built c id).2]; exact h.silent,
      by rw [hstate, (done_built c id).2]; exact h.told⟩
  · intro id _
    have hstate : (c.sent id).state = _ := state_built c id
    have hcount := (done_sent c id).2
    have hkeyed : ((c.sent id).spaces .applicationData).hasKeys = true :=
      (hasKeys_built c id .applicationData).trans h.keyed
    by_cases hconfirms : c.Confirms id
    · rw [if_pos hconfirms] at hstate hcount
      rw [h.silent hconfirms.2.2] at hcount
      exact ⟨(built_same c id).2.1.trans h.server, hkeyed,
        fun hhandshaking => absurd (hstate.symm.trans hhandshaking) (by decide), fun _ => hcount⟩
    · rw [if_neg hconfirms] at hstate hcount
      exact ⟨(built_same c id).2.1.trans h.server, hkeyed,
        by rw [hstate, hcount]; exact h.silent, by rw [hstate, hcount]; exact h.told⟩

lemma neverConfirmed_next {c : Connection σ} (op : Op) (h : NeverConfirmed c) :
    NeverConfirmed (next R c op) := by
  have hconfirms : ∀ id, c.firstBusy = some id → ¬ c.Confirms id := by
    rintro id hbusy ⟨rfl, _, hstate⟩
    cases (h.unkeyed hstate).symm.trans (firstBusy_busy hbusy).1
  have hunkeyed : ∀ id, c.firstBusy = some id → (c.built id).state = .handshaking →
      ((c.built id).spaces .applicationData).hasKeys = false := by
    intro id hbusy hstate
    rw [state_built, if_neg (hconfirms id hbusy)] at hstate
    exact (hasKeys_built c id .applicationData).trans (h.unkeyed hstate)
  refine server_next (P := NeverConfirmed) h ?_ ?_ ?_ ?_ ?_ ?_
  · intro c e hpacked hsent hc
    obtain ⟨hp, hs⟩ := done_log (c := c) hpacked hsent
    exact ⟨hc.server, hc.unkeyed, by rw [hp, hs]; exact hc.silent⟩
  · intro c id pn hc
    obtain ⟨hp, hs⟩ := done_log (c := c.setSpace id ((c.spaces id).recordRecvPn pn))
      (e := .received id pn) rfl rfl
    exact ⟨hc.server, fun hstate => (hasKeys_recorded c id _ pn).trans (hc.unkeyed hstate),
      ⟨hp.trans hc.silent.1, hs.trans hc.silent.2⟩⟩
  · intro id c f hc
    obtain ⟨hp, hs⟩ := done_frameNext (R := R) id c f
    refine ⟨(side_frameNext id c f).trans hc.server, fun hstate => ?_,
      ⟨hp.trans hc.silent.1, hs.trans hc.silent.2⟩⟩
    rcases state_frameNext (R := R) f hc.server with hsettled | hclosed | ⟨hestablished, _⟩
    · have hbefore := hc.unkeyed (hsettled.1.symm.trans hstate)
      rw [Bool.eq_false_iff]
      intro hkeys
      cases hbefore.symm.trans (hsettled.2 hkeys)
    · cases hclosed.symm.trans hstate
    · cases hestablished.symm.trans hstate
  · intro c received pending hc
    exact ⟨hc.server, hc.unkeyed, hc.silent⟩
  · intro id bufLen _ hbusy _
    obtain ⟨hp, hs⟩ := done_built c id
    rw [if_neg (hconfirms id hbusy)] at hp
    exact ⟨(built_same c id).2.1.trans h.server, hunkeyed id hbusy,
      ⟨hp.trans h.silent.1, hs.trans h.silent.2⟩⟩
  · intro id hbusy
    obtain ⟨hp, hs⟩ := done_sent c id
    rw [if_neg (hconfirms id hbusy)] at hp hs
    exact ⟨(built_same c id).2.1.trans h.server, hunkeyed id hbusy,
      ⟨hp.trans h.silent.1, hs.trans h.silent.2⟩⟩

lemma silent_accept {initialPacket : Bytes} {s : Connection σ} (h : accept R initialPacket = ok s) :
    s.side = .server ∧ s.state = .handshaking ∧ s.donePacked = 0 ∧ s.doneSent = 0 := by
  have hpacked : packed s.history = [] := by
    apply List.flatMap_eq_nil_iff.mpr
    intro e he
    rcases accept_history h he with ⟨_, _, rfl⟩ | ⟨_, _, _, rfl⟩ | rfl <;> rfl
  have hsent : sentFrames s.history = [] := by
    apply List.flatMap_eq_nil_iff.mpr
    intro e he
    rcases accept_history h he with ⟨_, _, rfl⟩ | ⟨_, _, _, rfl⟩ | rfl <;> rfl
  refine ⟨?_, ?_, by rw [donePacked, hpacked]; rfl, by rw [doneSent, hsent]; rfl⟩
  all_goals obtain ⟨_, _, _, _, _, _, c₁, hrun, hstate, rfl⟩ := accept_eq h
  · exact hrun.same.2.2.2.1
  · exact hstate

/-- A server puts HANDSHAKE_DONE into one packet at most. If it accepted the connection with 1-RTT
keys and that packet leaves, then it has been sent once whenever the server is established. If it
accepted without them, it is never sent. -/
theorem handshake_done_once {initialPacket : Bytes} {s : Connection σ}
    (hs : accept R initialPacket = ok s) (ops : List Op) :
    Always (next R) (fun c => c.donePacked ≤ 1) s ops ∧
      ((s.spaces .applicationData).hasKeys = true → Along (next R) DoneLeaves s ops →
        Always (next R) (fun c => c.state = .established → c.doneSent = 1) s ops) ∧
      ((s.spaces .applicationData).hasKeys = false →
        Always (next R) (fun c => c.donePacked = 0 ∧ c.doneSent = 0) s ops) := by
  obtain ⟨hserver, hstate, hpacked, hsent⟩ := silent_accept hs
  have hany : Along (next R) (fun _ _ => True) s ops :=
    along_of_forall (fun _ _ => trivial) s ops
  refine ⟨?_, fun hkeyed hleaves => ?_, fun hunkeyed => ?_⟩
  · have hstart : OnceAtMost s := ⟨hserver, fun _ => hpacked, by omega⟩
    have halways : Always (next R) OnceAtMost s ops :=
      always_of_along (fun _ op hc _ => onceAtMost_next op hc) hstart hany
    exact halways.imp fun _ hc => hc.once
  · have hstart : ConfirmedOnce s :=
      ⟨hserver, hkeyed, fun _ => hsent, fun h => absurd (hstate.symm.trans h) (by decide)⟩
    have halways : Always (next R) ConfirmedOnce s ops :=
      always_of_along (fun _ _ hc hop => confirmedOnce_next hc hop) hstart hleaves
    exact halways.imp fun _ hc => hc.told
  · have hstart : NeverConfirmed s := ⟨hserver, fun _ => hunkeyed, hpacked, hsent⟩
    have halways : Always (next R) NeverConfirmed s ops :=
      always_of_along (fun _ op hc _ => neverConfirmed_next op hc) hstart hany
    exact halways.imp fun _ hc => hc.silent

/-- A ClientHello in one packet, and a client that asks for packets until there are none. -/
theorem handshake_done_once_served :
    Always (next (scripted serverFlights)) (fun c => c.donePacked ≤ 1) (plainServer serverFlights)
        [.egest 2048, .egest 2048, .egest 2048, .egest 2048] ∧
      Always (next (scripted serverFlights)) (fun c => c.state = .established → c.doneSent = 1)
        (plainServer serverFlights) [.egest 2048, .egest 2048, .egest 2048, .egest 2048] := by
  have haccept : accept (scripted serverFlights) (plainLong .initial 0 [.crypto 0 [1]]) =
      ok (plainServer serverFlights) := eq_ok_getD (by decide +kernel) _
  have hleaves : Along (next (scripted serverFlights)) DoneLeaves (plainServer serverFlights)
      [.egest 2048, .egest 2048, .egest 2048, .egest 2048] := by
    refine ⟨fun _ _ => ?_, fun _ _ => ?_, fun _ _ => ?_, fun hstate _ => ?_, trivial⟩
    · decide +kernel
    · decide +kernel
    · decide +kernel
    · revert hstate
      decide +kernel
  obtain ⟨honce, hkeyed, _⟩ := handshake_done_once haccept
    [.egest 2048, .egest 2048, .egest 2048, .egest 2048]
  exact ⟨honce, hkeyed (by decide +kernel) hleaves⟩

/-- A TLS that waits for the rest of the ClientHello before it answers. -/
def lateFlights : Flights := ([], none) :: serverFlights

/-- The run of a server whose client sent its ClientHello in two packets. -/
def lateRun : Connection Flights :=
  run (next (scripted lateFlights)) (plainServer lateFlights)
    [.ingest (plainLong .initial 1 [.crypto 1 [9]]), .egest 2048, .egest 2048]

/-- The server is established, has nothing left to send and has not sent HANDSHAKE_DONE. -/
theorem handshake_done_omitted :
    accept (scripted lateFlights) (plainLong .initial 0 [.crypto 0 [1]]) =
        ok (plainServer lateFlights) ∧
      lateRun.state = .established ∧ (lateRun.egest 2048).1 = ok [] ∧ lateRun.doneSent = 0 :=
  ⟨eq_ok_getD (by decide +kernel) _, by decide +kernel, by decide +kernel, by decide +kernel⟩

end Connection
end DeerQuic
