import DeerQuic.AckLoop
import DeerQuic.Confirmation
import DeerQuic.Delivery
import DeerQuic.StreamOffsets

/-!
# Two connections and the network between them

The datagrams on their way to each side stand in the order in which they were sent. The network may
hand over any of them, lose it, or make a copy of it, and it may deliver datagrams of its own. A
datagram carries along what its sender logged about it; no step looks at that.
-/

namespace DeerQuic

open Outcome Connection

/-- A datagram on its way, and what was put into it. -/
structure Flying where
  datagram : Bytes
  space : PacketNumberSpace
  pn : Nat
  frames : List Frame

structure Wire (σ : Type) where
  ends : Side → Connection σ
  flight : Side → List Flying

inductive Hop where
  | emit (side : Side) (bufLen : Nat)
  /-- The datagram at this place arrives at the side. -/
  | arrive (side : Side) (i : Nat)
  | lose (side : Side) (i : Nat)
  | copy (side : Side) (i : Nat)
  | inject (side : Side) (datagram : Bytes)
  | queue (side : Side) (data : Bytes)
  | read (side : Side) (bufLen : Nat)

/-- The packet that the last event is about. -/
def lastSent (events : List Event) : Option (PacketNumberSpace × Nat × List Frame) :=
  match events.getLast? with
  | some (.sent space pn frames) => some (space, pn, frames)
  | _ => none

namespace Wire

variable {σ : Type} (R : Rustls σ)

def setEnd (x : Wire σ) (side : Side) (c : Connection σ) : Wire σ :=
  { x with ends := Function.update x.ends side c }

def setFlight (x : Wire σ) (side : Side) (flight : List Flying) : Wire σ :=
  { x with flight := Function.update x.flight side flight }

/-- What `egest` returned is sent unless it is nothing. -/
def depart (x : Wire σ) (side : Side) (out : Outcome ConnectionError Bytes × Connection σ) :
    Wire σ :=
  match out.1, lastSent out.2.history with
  | ok (b :: packet), some (space, pn, frames) =>
    (x.setEnd side out.2).setFlight (peer side)
      (x.flight (peer side) ++ [{ datagram := b :: packet, space, pn, frames }])
  | _, _ => x.setEnd side out.2

def next (x : Wire σ) : Hop → Wire σ
  | .emit side bufLen => x.depart side ((x.ends side).egest bufLen)
  | .arrive side i =>
    match (x.flight side)[i]? with
    | none => x
    | some d =>
      (x.setEnd side ((x.ends side).ingest R d.datagram).2).setFlight side
        ((x.flight side).eraseIdx i)
  | .lose side i => x.setFlight side ((x.flight side).eraseIdx i)
  | .copy side i => x.setFlight side (x.flight side ++ ((x.flight side)[i]?).toList)
  | .inject side datagram => x.setEnd side ((x.ends side).ingest R datagram).2
  | .queue side data => x.setEnd side ((x.ends side).sendData data)
  | .read side bufLen => x.setEnd side ((x.ends side).recvData bufLen).2

/-- The bytes the application of this side reads in a step. -/
def output (side : Side) (x : Wire σ) : Hop → Bytes
  | .read reader bufLen => if reader = side then ((x.ends reader).recvData bufLen).1 else []
  | _ => []

end Wire

/-- The bytes that the application of this side hands over. -/
def Hop.handed (side : Side) : Hop → Bytes
  | .queue writer data => if writer = side then data else []
  | _ => []

/-- The network delivers what was sent, once and in the order of sending. -/
def Hop.Orderly : Hop → Prop
  | .arrive _ i => i = 0
  | .lose _ _ | .copy _ _ | .inject _ _ => False
  | _ => True

instance : DecidablePred Hop.Orderly := fun hop =>
  match hop with
  | .arrive _ i => inferInstanceAs (Decidable (i = 0))
  | .lose _ _ | .copy _ _ | .inject _ _ => isFalse not_false
  | .emit _ _ | .queue _ _ | .read _ _ => isTrue trivial

namespace Wire

variable {σ : Type} {R : Rustls σ}

lemma peer_peer (side : Side) : peer (peer side) = side := by
  cases side <;> rfl

lemma peer_ne (side : Side) : peer side ≠ side := by
  cases side <;> simp [peer]

lemma eq_or_eq_peer (side other : Side) : other = side ∨ other = peer side := by
  cases side <;> cases other <;> simp [peer]

section

variable (x : Wire σ) (side : Side) (c : Connection σ) (flight : List Flying)

@[simp] lemma ends_setEnd : (x.setEnd side c).ends = Function.update x.ends side c := rfl

@[simp] lemma flight_setEnd : (x.setEnd side c).flight = x.flight := rfl

@[simp] lemma ends_setFlight : (x.setFlight side flight).ends = x.ends := rfl

@[simp] lemma flight_setFlight :
    (x.setFlight side flight).flight = Function.update x.flight side flight := rfl

end

lemma setEnd_same (x : Wire σ) (side : Side) : x.setEnd side (x.ends side) = x := by
  rw [setEnd, Function.update_eq_self]

/-- What `egest` has logged of a packet that left. -/
lemma lastSent_sent (c : Connection σ) (id : PacketNumberSpace) :
    lastSent (c.sent id).history = some (id, (c.spaces id).nextSendPn, c.framesOf id) := by
  have hlast : (c.sent id).history.getLast? =
      some (.sent id (c.spaces id).nextSendPn (c.framesOf id)) := by
    simp [sent, log]
  rw [lastSent, hlast]

lemma depart_left (x : Wire σ) (side : Side) (b : UInt8) (rest : Bytes) {c : Connection σ}
    {space : PacketNumberSpace} {pn : Nat} {frames : List Frame}
    (h : lastSent c.history = some (space, pn, frames)) :
    x.depart side (ok (b :: rest), c) = (x.setEnd side c).setFlight (peer side)
      (x.flight (peer side) ++ [{ datagram := b :: rest, space, pn, frames }]) := by
  simp only [depart, h]

/-- The packet of a space, on its way. -/
def flying (c : Connection σ) (id : PacketNumberSpace) (datagram : Bytes) : Flying :=
  { datagram, space := id, pn := (c.spaces id).nextSendPn, frames := c.framesOf id }

/-- The step in which a packet leaves. -/
def departed (x : Wire σ) (side : Side) (id : PacketNumberSpace) (packet : Bytes) : Wire σ :=
  (x.setEnd side ((x.ends side).sent id)).setFlight (peer side)
    (x.flight (peer side) ++ [flying (x.ends side) id packet])

lemma ends_departed_peer (x : Wire σ) (side : Side) (id : PacketNumberSpace) (packet : Bytes) :
    (x.departed side id packet).ends (peer side) = x.ends (peer side) :=
  Function.update_of_ne (peer_ne side) _ _

lemma ends_departed (x : Wire σ) (side : Side) (id : PacketNumberSpace) (packet : Bytes) :
    (x.departed side id packet).ends side = (x.ends side).sent id :=
  Function.update_self _ _ _

lemma flight_departed_peer (x : Wire σ) (side : Side) (id : PacketNumberSpace) (packet : Bytes) :
    (x.departed side id packet).flight (peer side) =
      x.flight (peer side) ++ [flying (x.ends side) id packet] :=
  Function.update_self _ _ _

lemma flight_departed (x : Wire σ) (side : Side) (id : PacketNumberSpace) (packet : Bytes) :
    (x.departed side id packet).flight side = x.flight side :=
  Function.update_of_ne (peer_ne side).symm _ _

/-- When the packet at hand can leave, a call of `egest` changes nothing or puts it on its way. -/
lemma next_emit {x : Wire σ} {side : Side} {bufLen : Nat} (hopen : (x.ends side).state ≠ .closed)
    (hleaves : PacketLeaves (x.ends side) (.egest bufLen)) :
    (x.ends side).firstBusy = none ∧ x.next R (.emit side bufLen) = x ∨
      ∃ id packet, (x.ends side).firstBusy = some id ∧ (x.ends side).packetOf id = ok packet ∧
        packet.length ≤ bufLen ∧ x.next R (.emit side bufLen) = x.departed side id packet := by
  have hstep := egest_step (x.ends side) bufLen
  generalize hegest : (x.ends side).egest bufLen = out at hstep
  obtain ⟨result, c⟩ := out
  cases hstep with
  | closed hclosed => exact absurd hclosed hopen
  | idle _ hbusy =>
    refine .inl ⟨hbusy, ?_⟩
    rw [next, hegest]
    exact setEnd_same x side
  | @failed id _ _ hbusy hfailed =>
    obtain ⟨packet, hpacket, -⟩ := hleaves hopen id hbusy
    cases hfailed.symm.trans hpacket
  | @tooLong id packet _ hbusy hpacket hlong =>
    obtain ⟨packet', hpacket', hfits⟩ := hleaves hopen id hbusy
    obtain rfl := ok.inj (hpacket.symm.trans hpacket')
    exact absurd hlong (Nat.not_lt.mpr hfits)
  | @left id packet _ hbusy hpacket hfits hne =>
    obtain ⟨b, rest, rfl⟩ := List.exists_cons_of_ne_nil hne
    refine .inr ⟨id, b :: rest, hbusy, hpacket, hfits, ?_⟩
    rw [next, hegest]
    exact depart_left x side b rest (lastSent_sent (x.ends side) id)

/-- The step in which the first datagram arrives. -/
def landed (R : Rustls σ) (x : Wire σ) (side : Side) (d : Flying) (rest : List Flying) : Wire σ :=
  (x.setEnd side ((x.ends side).ingest R d.datagram).2).setFlight side rest

lemma ends_landed (x : Wire σ) (side : Side) (d : Flying) (rest : List Flying) :
    (landed R x side d rest).ends side = ((x.ends side).ingest R d.datagram).2 :=
  Function.update_self _ _ _

lemma ends_landed_peer (x : Wire σ) (side : Side) (d : Flying) (rest : List Flying) :
    (landed R x side d rest).ends (peer side) = x.ends (peer side) :=
  Function.update_of_ne (peer_ne side) _ _

lemma flight_landed (x : Wire σ) (side : Side) (d : Flying) (rest : List Flying) :
    (landed R x side d rest).flight side = rest :=
  Function.update_self _ _ _

lemma flight_landed_peer (x : Wire σ) (side : Side) (d : Flying) (rest : List Flying) :
    (landed R x side d rest).flight (peer side) = x.flight (peer side) :=
  Function.update_of_ne (peer_ne side) _ _

/-- The first datagram on its way arrives. -/
lemma next_arrive {x : Wire σ} {side : Side} {d : Flying} {rest : List Flying}
    (h : x.flight side = d :: rest) :
    x.next R (.arrive side 0) = landed R x side d rest := by
  simp only [next, h, List.getElem?_cons_zero, List.eraseIdx_cons_zero, landed]

lemma next_arrive_nil {x : Wire σ} {side : Side} (h : x.flight side = []) :
    x.next R (.arrive side 0) = x := by
  simp only [next, h, List.getElem?_nil]

/-- The operation of the side's connection. -/
def opAt (side : Side) (x : Wire σ) : Hop → Option Op
  | .emit s bufLen => if s = side then some (.egest bufLen) else none
  | .arrive s i => if s = side then ((x.flight s)[i]?).map fun d => .ingest d.datagram else none
  | .inject s datagram => if s = side then some (.ingest datagram) else none
  | .queue s data => if s = side then some (.sendData data) else none
  | .read s bufLen => if s = side then some (.recvData bufLen) else none
  | .lose _ _ | .copy _ _ => none

lemma ends_depart (x : Wire σ) (side : Side) (out : Outcome ConnectionError Bytes × Connection σ) :
    (x.depart side out).ends = Function.update x.ends side out.2 := by
  rw [depart]
  split <;> rfl

lemma ends_next (x : Wire σ) (hop : Hop) (side : Side) :
    (x.next R hop).ends side =
      match x.opAt side hop with
      | some op => Connection.next R (x.ends side) op
      | none => x.ends side := by
  have hupdate : ∀ (s : Side) (op : Op),
      Function.update x.ends s (Connection.next R (x.ends s) op) side =
        match if s = side then some op else none with
        | some op => Connection.next R (x.ends side) op
        | none => x.ends side := by
    intro s op
    by_cases hside : s = side
    · subst hside
      rw [Function.update_self, if_pos rfl]
    · rw [Function.update_of_ne (Ne.symm hside), if_neg hside]
  cases hop with
  | emit s bufLen => rw [next, ends_depart, opAt]; exact hupdate s (.egest bufLen)
  | arrive s i =>
    cases hd : (x.flight s)[i]? with
    | none => simp [next, opAt, hd]
    | some d => simp only [next, hd, opAt, Option.map_some]; exact hupdate s (.ingest d.datagram)
  | lose | copy => rfl
  | inject s datagram => exact hupdate s (.ingest datagram)
  | queue s data => exact hupdate s (.sendData data)
  | read s bufLen => exact hupdate s (.recvData bufLen)

lemma sides_next {x : Wire σ} (h : ∀ side, (x.ends side).side = side) (hop : Hop) (side : Side) :
    ((x.next R hop).ends side).side = side := by
  rw [ends_next]
  cases x.opAt side hop with
  | none => exact h side
  | some op => exact (side_next (x.ends side) op).trans (h side)

end Wire
end DeerQuic
