import DeerQuic.Heard
import DeerQuic.Steady
import Mathlib.Data.List.Flatten

/-!
# A network that loses datagrams

The network keeps the order and repeats nothing, but it may lose any datagram, and packets may fail
to leave or to be opened. Nothing is sent again, and no gap is noticed: what an application reads is
what the other one handed over, with pieces missing.
-/

namespace DeerQuic

open Outcome Protection Transition

namespace Connection

variable {σ : Type} {R : Rustls σ}

/-- The frames of a packet are processed from the front, maybe not all of them. -/
lemma arrived_processFrames (id : PacketNumberSpace) (frames : List Frame) (c : Connection σ) :
    ∃ data, arrived (processFrames R id frames c).2.history = arrived c.history ++ data ∧
      data.Sublist (frames.flatMap Frame.streamData) := by
  induction frames generalizing c with
  | nil => exact ⟨[], (List.append_nil _).symm, List.Sublist.refl _⟩
  | cons frame frames ih =>
    rw [processFrames_cons, List.flatMap_cons]
    split_ifs
    · obtain ⟨data, hdata, hsub⟩ := ih (frameNext R id c frame)
      rw [arrived_frameNext, List.append_assoc] at hdata
      exact ⟨_, hdata, hsub.append_left _⟩
    · exact ⟨_, arrived_frameNext id c frame, List.sublist_append_left _ _⟩

lemma arrived_ingest (c : Connection σ) (buf : Bytes) :
    ∃ data, arrived (c.ingest R buf).2.history = arrived c.history ++ data ∧
      (data = [] ∨ ∃ id pn frames, c.openPacket buf = ok (id, pn, frames) ∧
        data.Sublist (frames.flatMap Frame.streamData)) := by
  rcases ingest_cases R c buf with hsame | ⟨id, pn, frames, -, hopen, hnext⟩
  · rw [hsame]
    exact ⟨[], (List.append_nil _).symm, .inl rfl⟩
  · obtain ⟨data, hdata, hsub⟩ := arrived_processFrames (R := R) id frames (c.recordRecvPn id pn)
    have hrecorded : arrived (c.recordRecvPn id pn).history = arrived c.history := by
      simp [recordRecvPn, log, setSpace, arrived]
    rw [hnext, hdata, hrecorded]
    exact ⟨data, rfl, .inr ⟨id, pn, frames, hopen, hsub⟩⟩

lemma pendingAppData_frameNext (id : PacketNumberSpace) (c : Connection σ) (frame : Frame) :
    (frameNext R id c frame).pendingAppData = c.pendingAppData := by
  generalize hnext : frameNext R id c frame = c'
  have hstep := frameNext_step R id c frame
  rw [hnext] at hstep
  cases hstep with
  | fed _ _ hrun => exact hrun.same.2.1
  | refused _ _ | skipped _ | closed _ | confirmed _ | stream | ignored _ => rfl

/-- Nothing arrives and nothing is handed over while a packet is made. -/
lemma outward_built (c : Connection σ) (id : PacketNumberSpace) :
    arrived (c.built id).history = arrived c.history ∧
      queuedData (c.built id).history = queuedData c.history := by
  rw [(built_same c id).2.2.2, arrived_append, queuedData_append]
  exact ⟨List.append_nil _, List.append_nil _⟩

lemma outward_sent (c : Connection σ) (id : PacketNumberSpace) :
    arrived (c.sent id).history = arrived c.history ∧
      queuedData (c.sent id).history = queuedData c.history := by
  rw [sent, log, arrived_append, queuedData_append, (outward_built c id).1, (outward_built c id).2]
  exact ⟨List.append_nil _, List.append_nil _⟩

end Connection

namespace Wire

open Connection

variable {σ : Type} {R : Rustls σ}

/-- The datagram does not open to anything but what was put into it, and padding. -/
def OpensTo (c : Connection σ) (d : Flying) : Prop :=
  ∀ id pn frames, c.openPacket d.datagram = ok (id, pn, frames) →
    d.frames <+: frames ∧ ∀ f ∈ frames.drop d.frames.length, f = .padding

instance (c : Connection σ) (d : Flying) : Decidable (OpensTo c d) :=
  match h : c.openPacket d.datagram with
  | ok (_, _, frames) =>
    decidable_of_iff (d.frames <+: frames ∧ ∀ f ∈ frames.drop d.frames.length, f = .padding) <| by
      simp [OpensTo, h]
  | err _ | .panic => isTrue (by simp [OpensTo, h])

/-- The network may lose datagrams, but it keeps the order, repeats nothing and makes nothing up. -/
def InOrder (x : Wire σ) : Hop → Prop
  | .arrive side i => i = 0 ∧ ∀ d ∈ (x.flight side).head?, OpensTo (x.ends side) d
  | .copy _ _ | .inject _ _ => False
  | _ => True

instance : DecidableRel (InOrder (σ := σ)) := fun x hop =>
  match hop with
  | .arrive side i =>
    inferInstanceAs (Decidable (i = 0 ∧ ∀ d ∈ (x.flight side).head?, OpensTo (x.ends side) d))
  | .copy _ _ | .inject _ _ => isFalse not_false
  | .emit _ _ | .lose _ _ | .queue _ _ | .read _ _ => isTrue trivial

/-- The bytes that have reached a side, those on their way to it and those that wait. -/
def underways (x : Wire σ) (side : Side) : Bytes :=
  arrived (x.ends side).history ++
    (x.flight side).flatMap (fun d => d.frames.flatMap Frame.streamData) ++
    (x.ends (peer side)).pendingAppData

/-- All of them were handed over, in this order. -/
def Thinned (x : Wire σ) : Prop :=
  ∀ side, (x.underways side).Sublist (queuedData (x.ends (peer side)).history)

lemma streamData_padding {frames : List Frame} (h : ∀ f ∈ frames, f = .padding) :
    frames.flatMap Frame.streamData = [] := by
  refine List.flatMap_eq_nil_iff.mpr fun f hf => ?_
  rw [h f hf]
  rfl

/-- An `egest` that leads to no packet may lose what waited. -/
lemma next_emit_cases (x : Wire σ) (side : Side) (bufLen : Nat) :
    x.next R (.emit side bufLen) = x ∨
      (∃ id, x.next R (.emit side bufLen) = x.setEnd side ((x.ends side).built id)) ∨
      ∃ id packet, x.next R (.emit side bufLen) = x.departed side id packet := by
  have hstep := egest_step (x.ends side) bufLen
  rw [next]
  generalize (x.ends side).egest bufLen = out at hstep ⊢
  obtain ⟨result, c⟩ := out
  cases hstep with
  | closed _ | idle _ _ => exact .inl (setEnd_same x side)
  | @failed id _ _ _ _ => exact .inr (.inl ⟨id, rfl⟩)
  | @tooLong id _ _ _ _ _ => exact .inr (.inl ⟨id, rfl⟩)
  | @left id packet _ _ _ _ hne =>
    obtain ⟨b, rest, rfl⟩ := List.exists_cons_of_ne_nil hne
    exact .inr (.inr ⟨id, b :: rest, depart_left x side b rest (lastSent_sent (x.ends side) id)⟩)

lemma thinned_departed {x : Wire σ} (h : Thinned x) (side : Side) (id : PacketNumberSpace)
    (packet : Bytes) : Thinned (x.departed side id packet) := by
  obtain ⟨harrived, hqueued⟩ := outward_sent (x.ends side) id
  have hdata : ((flying (x.ends side) id packet).frames).flatMap Frame.streamData ++
      ((x.ends side).sent id).pendingAppData = (x.ends side).pendingAppData :=
    streamData_sent (x.ends side) id
  intro other
  rcases eq_or_eq_peer side other with rfl | rfl
  · have hother := h other
    rw [underways] at hother ⊢
    rw [ends_departed, ends_departed_peer, flight_departed, harrived]
    exact hother
  · have hother := h (peer side)
    rw [underways, peer_peer] at hother ⊢
    rw [ends_departed, ends_departed_peer, flight_departed_peer, hqueued, List.flatMap_append,
      List.flatMap_singleton, List.append_assoc, List.append_assoc, hdata, ← List.append_assoc]
    exact hother

/-- The other end and what is in flight are as before, and this end has heard no more. -/
lemma thinned_setEnd {x : Wire σ} (h : Thinned x) {side : Side} {c' : Connection σ} (data : Bytes)
    (harrived : arrived c'.history = arrived (x.ends side).history)
    (hqueued : queuedData c'.history = queuedData (x.ends side).history ++ data)
    (hpending : c'.pendingAppData.Sublist ((x.ends side).pendingAppData ++ data)) :
    Thinned (x.setEnd side c') := by
  intro other
  rcases eq_or_eq_peer side other with rfl | rfl
  · have hother := h other
    rw [underways] at hother ⊢
    rw [ends_setEnd, flight_setEnd, Function.update_self,
      Function.update_of_ne (peer_ne other), harrived]
    exact hother
  · have hother := h (peer side)
    rw [underways, peer_peer] at hother ⊢
    rw [ends_setEnd, flight_setEnd, Function.update_self, Function.update_of_ne (peer_ne side),
      hqueued]
    refine (hpending.append_left _).trans ?_
    rw [← List.append_assoc]
    exact hother.append_right data

/-- A datagram brings some of its data, in their order, or nothing. -/
lemma thinned_landed {x : Wire σ} (h : Thinned x) {side : Side} {d : Flying} {rest : List Flying}
    (hflight : x.flight side = d :: rest) (hopens : OpensTo (x.ends side) d) :
    Thinned (landed R x side d rest) := by
  obtain ⟨es, hes, hin⟩ := ingest_history R (x.ends side) d.datagram
  have hqueued : queuedData ((x.ends side).ingest R d.datagram).2.history =
      queuedData (x.ends side).history := by
    rw [hes, queuedData_append, (outgoing_inbound hin).2, List.append_nil]
  have hpending : ((x.ends side).ingest R d.datagram).2.pendingAppData =
      (x.ends side).pendingAppData :=
    ingest_always R (P := fun c => c.pendingAppData = (x.ends side).pendingAppData)
      (fun _ _ _ hc => hc) (fun id c frame hc => (pendingAppData_frameNext id c frame).trans hc) rfl _
  obtain ⟨data, hdata, hfrom⟩ := arrived_ingest (R := R) (x.ends side) d.datagram
  have hsub : data.Sublist (d.frames.flatMap Frame.streamData) := by
    rcases hfrom with rfl | ⟨id, pn, frames, hopen, hsub⟩
    · exact List.nil_sublist _
    · obtain ⟨⟨padding, rfl⟩, hpadding⟩ := hopens id pn frames hopen
      rw [List.drop_left] at hpadding
      rwa [List.flatMap_append, streamData_padding hpadding, List.append_nil] at hsub
  intro other
  rcases eq_or_eq_peer side other with rfl | rfl
  · have hother := h other
    rw [underways, hflight, List.flatMap_cons] at hother
    rw [underways, ends_landed, ends_landed_peer, flight_landed, hdata]
    refine List.Sublist.trans ?_ hother
    simp only [List.append_assoc]
    exact (hsub.append_right _).append_left _
  · have hother := h (peer side)
    rw [underways, peer_peer] at hother ⊢
    rw [ends_landed, ends_landed_peer, flight_landed_peer, hqueued, hpending]
    exact hother

lemma thinned_next {x : Wire σ} {hop : Hop} (h : Thinned x) (hhop : InOrder x hop) :
    Thinned (x.next R hop) := by
  cases hop with
  | emit side bufLen =>
    rcases next_emit_cases (R := R) x side bufLen with hnext | ⟨id, hnext⟩ | ⟨id, packet, hnext⟩
    · rw [hnext]
      exact h
    · rw [hnext]
      obtain ⟨harrived, hqueued⟩ := outward_built (x.ends side) id
      refine thinned_setEnd h [] harrived (hqueued.trans (List.append_nil _).symm) ?_
      rw [pendingAppData_built, List.append_nil]
      split_ifs
      · exact List.nil_sublist _
      · exact List.Sublist.refl _
    · rw [hnext]
      exact thinned_departed h side id packet
  | arrive side i =>
    obtain ⟨rfl, hopens⟩ := hhop
    cases hflight : x.flight side with
    | nil =>
      rw [next_arrive_nil hflight]
      exact h
    | cons d rest =>
      rw [next_arrive hflight]
      exact thinned_landed h hflight (hopens d (by rw [hflight]; rfl))
  | lose side i =>
    intro other
    by_cases hother : other = side
    · subst hother
      have hsub : ((x.flight other).eraseIdx i).Sublist (x.flight other) := List.eraseIdx_sublist _ _
      refine List.Sublist.trans ?_ (h other)
      simp only [underways, next, ends_setFlight, flight_setFlight, Function.update_self]
      exact ((hsub.flatMap _).append_left _).append_right _
    · have hsame := h other
      rw [underways] at hsame ⊢
      rw [next, ends_setFlight, flight_setFlight, Function.update_of_ne hother]
      exact hsame
  | copy | inject => exact hhop.elim
  | queue side data =>
    refine thinned_setEnd h data ?_ ?_ (List.Sublist.refl _)
    · simp [sendData, log, arrived]
    · simp [sendData, log, queuedData]
  | read side bufLen =>
    refine thinned_setEnd h [] ?_ ?_ ?_
    · simp [recvData, log, arrived]
    · simp [recvData, log, queuedData]
    · simp [recvData, log]

lemma thinned_begun {x : Wire σ} (h : Begun R x)
    (hflight : ∀ side, ∀ d ∈ x.flight side, d.frames.flatMap Frame.streamData = []) :
    Thinned x := by
  intro side
  have hnone : (x.flight side).flatMap (fun d => d.frames.flatMap Frame.streamData) = [] :=
    List.flatMap_eq_nil_iff.mpr (hflight side)
  have hall := (streamTiled_started (h.started (peer side))).all
  rw [underways, arrived_started (h.started side), hnone, ← hall, List.nil_append, List.nil_append]
  exact List.sublist_append_right _ _

/-- Over a network that may lose datagrams but keeps their order, what an application has read is
always a part, in order, of what the other one has handed over. -/
theorem read_sublist_of_queued {x : Wire σ} {hops : List Hop} (hx : Begun R x)
    (hflight : ∀ side, ∀ d ∈ x.flight side, d.frames.flatMap Frame.streamData = [])
    (horder : Along (next R) InOrder x hops) :
    Always (next R) (fun x => ∀ side, (delivered (x.ends side).history).Sublist
      (queuedData (x.ends (peer side)).history)) x hops := by
  have halways : Always (next R) (fun x => Thinned x ∧ ∀ side, Accounted (x.ends side)) x hops := by
    refine always_of_along ?_ ⟨thinned_begun hx hflight, fun side =>
      accounted_started (hx.started side)⟩ horder
    rintro x hop ⟨hthinned, haccounted⟩ hhop
    exact ⟨thinned_next hthinned hhop,
      ends_invariant (fun _ op _ hc => accounted_next hc op) haccounted⟩
  refine halways.imp fun x ⟨hthinned, haccounted⟩ side => ?_
  have hsub := hthinned side
  rw [underways, ← haccounted side, List.append_assoc, List.append_assoc] at hsub
  exact (List.sublist_append_left _ _).trans hsub

/-- The handshake, and then three pieces of data of which the second gets lost. -/
def plainLoss : List Hop :=
  [.emit .server 2048, .emit .server 2048, .emit .server 2048, .arrive .client 0,
    .arrive .client 0, .queue .server [1, 2], .emit .server 2048, .queue .server [3],
    .emit .server 2048, .queue .server [4, 5], .emit .server 2048, .lose .client 2,
    .arrive .client 0, .arrive .client 0, .arrive .client 0, .read .client 8]

set_option maxRecDepth 20000 in
theorem read_sublist_of_queued_with_loss :
    Always (next plainTls) (fun x => ∀ side, (delivered (x.ends side).history).Sublist
      (queuedData (x.ends (peer side)).history)) plainMeeting plainLoss :=
  read_sublist_of_queued plainMeeting_begun (fun _ _ hd => absurd hd List.not_mem_nil)
    (by decide +kernel)

set_option maxRecDepth 20000 in
example : observed (next plainTls) (output .client) plainMeeting plainLoss = [1, 2, 4, 5] := by
  decide +kernel

end Wire
end DeerQuic
