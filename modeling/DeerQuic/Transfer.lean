import DeerQuic.Pipe
import DeerQuic.Steady
import DeerQuic.Wire

/-!
# Application data from one end to the other

Two established connections and an orderly network between them are, for their applications, two
first-in-first-out queues of bytes. What is on its way to an application waits in three places: with
the sender, in the STREAM frames of the datagrams in flight, and with the receiver. Only the calls of
the applications change it.
-/

namespace DeerQuic.Wire

open Outcome Protection Transition Connection

variable {σ : Type} {R : Rustls σ} {keys : Side → PacketNumberSpace → Keys} {done : σ → Prop}

/-- Each side opens what the other seals. -/
def Matched (keys : Side → PacketNumberSpace → Keys) : Prop :=
  ∀ side id, ∃ mask, Paired (keys (peer side) id).localKeys (keys side id).remoteKeys mask

/-- Whoever has the keys opens the datagram to what was put into it, unless the masked bits of a
short header make it look wrong. -/
structure Sound (σ : Type) (keys : PacketNumberSpace → Keys) (cidLen : Nat) (d : Flying) : Prop where
  mild : ∀ f ∈ d.frames, f.Mild d.space
  opens : ∀ receiver : Connection σ, (receiver.spaces d.space).keys = some (keys d.space) →
    (d.space = .applicationData → receiver.Follows cidLen d.pn) →
    (∃ k, receiver.openPacket d.datagram =
        ok (d.space, d.pn, d.frames ++ List.replicate k .padding)) ∨
      receiver.openPacket d.datagram = err (.packet .reservedBitsSet)

def appNumbers (flight : List Flying) : List Nat :=
  (flight.filter fun d => decide (d.space = .applicationData)).map Flying.pn

/-- The packets of the application's space are numbered without a gap, from the number after the
largest received to the one before the next to be sent. Number 0 may be yet to come. -/
structure Lined (flight : List Flying) (largest nextPn : Nat) : Prop where
  numbers : ∃ first, appNumbers flight = List.range' first (appNumbers flight).length ∧
    first + (appNumbers flight).length = nextPn ∧ largest ≤ first ∧ first ≤ largest + 1

lemma Lined.depart {flight : List Flying} {largest nextPn : Nat} (h : Lined flight largest nextPn)
    {d : Flying} (hd : d.space = .applicationData → d.pn = nextPn) :
    Lined (flight ++ [d]) largest (if d.space = .applicationData then nextPn + 1 else nextPn) := by
  obtain ⟨first, hrange, hnext, hbounds⟩ := h.numbers
  by_cases happ : d.space = .applicationData
  · have hnumbers : appNumbers (flight ++ [d]) = appNumbers flight ++ [nextPn] := by
      simp [appNumbers, happ, hd happ]
    refine ⟨first, ?_, ?_, hbounds⟩
    · rw [hnumbers, List.length_append, List.length_singleton, List.range'_concat, ← hrange,
        Nat.one_mul, hnext]
    · rw [hnumbers, List.length_append, List.length_singleton, if_pos happ]
      omega
  · have hnumbers : appNumbers (flight ++ [d]) = appNumbers flight := by
      simp [appNumbers, happ]
    rw [if_neg happ]
    exact ⟨first, by rw [hnumbers]; exact hrange, by rw [hnumbers]; exact hnext, hbounds⟩

/-- The next packet has the number that is expected, and the others stay in line. -/
lemma Lined.arrive {d : Flying} {rest : List Flying} {largest nextPn : Nat}
    (h : Lined (d :: rest) largest nextPn) :
    (d.space = .applicationData → largest ≤ d.pn ∧ d.pn ≤ largest + 1 ∧ d.pn < nextPn) ∧
      Lined rest (if d.space = .applicationData then max largest d.pn else largest) nextPn := by
  obtain ⟨first, hrange, hnext, hlow, hhigh⟩ := h.numbers
  by_cases happ : d.space = .applicationData
  · have hnumbers : appNumbers (d :: rest) = d.pn :: appNumbers rest := by
      simp [appNumbers, happ]
    rw [hnumbers, List.length_cons, List.range'_succ, List.cons_eq_cons] at hrange
    rw [hnumbers, List.length_cons] at hnext
    obtain ⟨hfirst, hrest⟩ := hrange
    refine ⟨fun _ => by omega, first + 1, hrest, by omega, ?_⟩
    rw [if_pos happ]
    omega
  · have hnumbers : appNumbers (d :: rest) = appNumbers rest := by
      simp [appNumbers, happ]
    rw [hnumbers] at hrange hnext
    rw [if_neg happ]
    exact ⟨fun h => absurd h happ, first, hrange, hnext, hlow, hhigh⟩

/-- Where a packet goes and comes from fits its header, and the peer reads short headers with the
right length. -/
structure Reachable (x : Wire σ) : Prop where
  version : ∀ side, (x.ends side).version ≠ 0
  dstCid : ∀ side, (x.ends side).dstCid.length ≤ 20
  srcCid : ∀ side, (x.ends side).srcCid.length ≤ 20
  same : ∀ side, (x.ends side).dstCid.length = (x.ends (peer side)).dstCid.length

/-- The datagrams on their way to a side. -/
structure Underway (keys : Side → PacketNumberSpace → Keys) (x : Wire σ) (side : Side) : Prop where
  sound : ∀ d ∈ x.flight side, Sound σ (keys side) (x.ends side).dstCid.length d
  lined : Lined (x.flight side) ((x.ends side).spaces .applicationData).largestRecvPn
    ((x.ends (peer side)).spaces .applicationData).nextSendPn
  bounded : ((x.ends (peer side)).spaces .applicationData).nextSendPn ≤ 2 ^ 62

structure Joined (keys : Side → PacketNumberSpace → Keys) (done : σ → Prop) (x : Wire σ) : Prop where
  steady : ∀ side, Steady (keys side) done (x.ends side)
  reachable : Reachable x
  underway : ∀ side, Underway keys x side

/-- There are numbers left, of 62 bits, and of 32 bits for packets with a long header. -/
def NumbersLeft (c : Connection σ) : Prop :=
  ∀ id ∈ c.firstBusy, (c.spaces id).nextSendPn < 2 ^ 62 ∧
    (id ≠ .applicationData ∨ c.state ≠ .established → (c.spaces id).nextSendPn < 2 ^ 32)

instance (c : Connection σ) : Decidable (NumbersLeft c) :=
  inferInstanceAs (Decidable (∀ id ∈ c.firstBusy, _ ∧ (_ → _)))

/-- The next packet can be made, fits the buffer and has a number; the next datagram is not refused
for the bits that its mask has set. -/
def Smooth (x : Wire σ) (hop : Hop) : Prop :=
  hop.Orderly ∧ match hop with
    | .emit side bufLen => PacketLeaves (x.ends side) (.egest bufLen) ∧ bufLen < 2 ^ 61 ∧
        NumbersLeft (x.ends side)
    | .arrive side _ => ∀ d ∈ (x.flight side).head?,
        (x.ends side).openPacket d.datagram ≠ err (.packet .reservedBitsSet)
    | _ => True

instance : DecidableRel (Smooth (σ := σ)) := fun x hop =>
  match hop with
  | .emit side bufLen =>
    have : Decidable (PacketLeaves (x.ends side) (.egest bufLen)) :=
      inferInstanceAs (Decidable ((x.ends side).state ≠ .closed →
        ∀ id ∈ (x.ends side).firstBusy, (x.ends side).Leaves bufLen id))
    inferInstanceAs (Decidable (True ∧ _ ∧ _ ∧ _))
  | .arrive side i => inferInstanceAs (Decidable (i = 0 ∧ ∀ d ∈ (x.flight side).head?, _ ≠ _))
  | .lose _ _ | .copy _ _ | .inject _ _ => isFalse fun h => h.1
  | .queue _ _ | .read _ _ => isTrue ⟨trivial, trivial⟩

/-- Addresses are all that this is about. -/
lemma Reachable.moved {x y : Wire σ} (h : Reachable x)
    (hsame : ∀ side, (y.ends side).version = (x.ends side).version ∧
      (y.ends side).dstCid = (x.ends side).dstCid ∧ (y.ends side).srcCid = (x.ends side).srcCid) :
    Reachable y where
  version side := by
    rw [(hsame side).1]
    exact h.version side
  dstCid side := by
    rw [(hsame side).2.1]
    exact h.dstCid side
  srcCid side := by
    rw [(hsame side).2.2]
    exact h.srcCid side
  same side := by
    rw [(hsame side).2.1, (hsame (peer side)).2.1]
    exact h.same side

lemma reachable_setEnd {x : Wire σ} (h : Reachable x) {side : Side} {c' : Connection σ}
    (hsame : c'.version = (x.ends side).version ∧ c'.dstCid = (x.ends side).dstCid ∧
      c'.srcCid = (x.ends side).srcCid) : Reachable (x.setEnd side c') := by
  refine h.moved fun other => ?_
  by_cases hother : other = side
  · subst hother
    rw [ends_setEnd, Function.update_self]
    exact hsame
  · rw [ends_setEnd, Function.update_of_ne hother]
    exact ⟨rfl, rfl, rfl⟩

/-- The packet at hand will be opened. -/
lemma sound_flying (hkeys : Matched keys) {x : Wire σ} {side : Side} (hx : Reachable x)
    {id : PacketNumberSpace} {packet : Bytes} (hpacket : (x.ends side).packetOf id = ok packet)
    (hsize : packet.length < 2 ^ 61) (hkeyed : ((x.ends side).spaces id).keys = some (keys side id))
    (hnumber : id ≠ .applicationData ∨ (x.ends side).state ≠ .established →
      ((x.ends side).spaces id).nextSendPn < 2 ^ 32)
    (hmild : ∀ f ∈ (x.ends side).framesOf id, f.Mild id) :
    Sound σ (keys (peer side)) (x.ends (peer side)).dstCid.length (flying (x.ends side) id packet) where
  mild := hmild
  opens := by
    intro receiver hreceiver hfollows
    obtain ⟨mask, hpaired⟩ := hkeys (peer side) id
    rw [peer_peer] at hpaired
    have hlocal : ((x.ends side).spaces id).localKeys = some (keys side id).localKeys := by
      rw [Space.localKeys, hkeyed, Option.map_some]
    have hremote : (receiver.spaces id).remoteKeys = some (keys (peer side) id).remoteKeys := by
      have hthere : (receiver.spaces id).keys = some (keys (peer side) id) := hreceiver
      rw [Space.remoteKeys, hthere, Option.map_some]
    refine packetOf_opens hpacket hsize hpaired hlocal (hx.version side) (hx.dstCid side)
      (hx.srcCid side) hnumber hremote fun happ => ?_
    rw [hx.same side]
    exact hfollows happ

lemma reachable_departed {x : Wire σ} (h : Reachable x) (side : Side) (id : PacketNumberSpace)
    (packet : Bytes) : Reachable (x.departed side id packet) := by
  obtain ⟨-, hversion, hdst, hsrc, -⟩ := intact_sent (x.ends side) id
  exact (reachable_setEnd h ⟨hversion, hdst, hsrc⟩).moved fun _ => ⟨rfl, rfl, rfl⟩

/-- A packet joins the datagrams on their way to the peer. -/
lemma underway_departed {x : Wire σ} (h : ∀ side, Underway keys x side) {side : Side}
    {id : PacketNumberSpace} {packet : Bytes}
    (hsound : Sound σ (keys (peer side)) (x.ends (peer side)).dstCid.length
      (flying (x.ends side) id packet))
    (hnumber : ((x.ends side).spaces id).nextSendPn < 2 ^ 62) (other : Side) :
    Underway keys (x.departed side id packet) other := by
  obtain ⟨-, -, hdst, -, -, hlargest⟩ := intact_sent (x.ends side) id
  rcases eq_or_eq_peer side other with rfl | rfl
  · -- What is on its way to the sender is not touched.
    obtain ⟨hold, hlined, hbounded⟩ := h other
    constructor
    · rw [flight_departed, ends_departed, hdst]
      exact hold
    · rw [flight_departed, ends_departed, ends_departed_peer, hlargest]
      exact hlined
    · rw [ends_departed_peer]
      exact hbounded
  · obtain ⟨hold, hlined, hbounded⟩ := h (peer side)
    have hnext : (((x.ends side).sent id).spaces .applicationData).nextSendPn =
        if id = .applicationData then ((x.ends side).spaces .applicationData).nextSendPn + 1
        else ((x.ends side).spaces .applicationData).nextSendPn := by
      refine (nextSendPn_built (x.ends side) id .applicationData).trans ?_
      by_cases happ : id = .applicationData
      · rw [if_pos happ.symm, if_pos happ]
      · rw [if_neg (Ne.symm happ), if_neg happ]
    rw [peer_peer] at hlined hbounded
    constructor
    · rw [flight_departed_peer, ends_departed_peer]
      intro d hd
      rcases List.mem_append.mp hd with hd | hd
      · exact hold d hd
      · rw [List.mem_singleton.mp hd]
        exact hsound
    · rw [flight_departed_peer, ends_departed_peer, peer_peer, ends_departed, hnext]
      exact hlined.depart (d := flying (x.ends side) id packet) fun happ => congrArg
        (fun id => ((x.ends side).spaces id).nextSendPn) happ
    · rw [peer_peer, ends_departed, hnext]
      split_ifs with happ
      · subst happ
        omega
      · exact hbounded

/-- The receiver can tell the number of the packet. -/
lemma follows_head {x : Wire σ} {side : Side} (h : Underway keys x side) {d : Flying}
    {rest : List Flying} (hflight : x.flight side = d :: rest) (happ : d.space = .applicationData) :
    (x.ends side).Follows (x.ends side).dstCid.length d.pn := by
  have hlined := h.lined
  rw [hflight] at hlined
  obtain ⟨hlow, hhigh, hnext⟩ := hlined.arrive.1 happ
  have hbounded := h.bounded
  have hpnLen := encodedPnLen_bounds d.pn 0
  obtain ⟨hwindow, -, -⟩ := window_bounds hpnLen
  refine ⟨rfl, by omega, ?_⟩
  unfold InWindow
  omega

/-- The datagram opens to what was put into it. -/
lemma opens_head {x : Wire σ} {side : Side} (h : Underway keys x side) {d : Flying}
    {rest : List Flying} (hflight : x.flight side = d :: rest)
    (hkeyed : ((x.ends side).spaces d.space).keys = some (keys side d.space))
    (hclear : (x.ends side).openPacket d.datagram ≠ err (.packet .reservedBitsSet)) :
    ∃ k, (x.ends side).openPacket d.datagram =
      ok (d.space, d.pn, d.frames ++ List.replicate k .padding) := by
  have hsound := h.sound d (by rw [hflight]; exact List.mem_cons_self)
  rcases hsound.opens (x.ends side) hkeyed (follows_head h hflight) with hopen | hrefused
  · exact hopen
  · exact absurd hrefused hclear

/-- The other datagrams stay in line when the receiver has recorded this one. -/
lemma underway_landed {x : Wire σ} (h : ∀ side, Underway keys x side) {side : Side} {d : Flying}
    {rest : List Flying} (hflight : x.flight side = d :: rest) {c' : Connection σ}
    (hc' : ((x.ends side).ingest R d.datagram).2 = c')
    (hdst : c'.dstCid = (x.ends side).dstCid)
    (hnumbers : ∃ keys, c'.spaces .applicationData =
      { ((x.ends side).recordRecvPn d.space d.pn).spaces .applicationData with keys })
    (other : Side) : Underway keys (landed R x side d rest) other := by
  subst hc'
  obtain ⟨keys', hspace⟩ := hnumbers
  have hnext : (((x.ends side).ingest R d.datagram).2.spaces .applicationData).nextSendPn =
      ((x.ends side).spaces .applicationData).nextSendPn := by
    rw [hspace]
    exact nextSendPn_recorded (x.ends side) d.space .applicationData d.pn
  rcases eq_or_eq_peer side other with rfl | rfl
  · obtain ⟨hold, hlined, hbounded⟩ := h other
    rw [hflight] at hold hlined
    have hlargest : (((x.ends other).ingest R d.datagram).2.spaces .applicationData).largestRecvPn =
        if d.space = .applicationData then
          max ((x.ends other).spaces .applicationData).largestRecvPn d.pn
        else ((x.ends other).spaces .applicationData).largestRecvPn := by
      rw [hspace]
      by_cases happ : d.space = .applicationData
      · rw [if_pos happ, happ]
        simp only [recordRecvPn, log, setSpace, Function.update_self, Space.recordRecvPn]
        split_ifs <;> omega
      · rw [if_neg happ]
        simp [recordRecvPn, log, setSpace, Ne.symm happ]
    constructor
    · rw [flight_landed, ends_landed, hdst]
      exact fun d' hd' => hold d' (List.mem_cons_of_mem _ hd')
    · rw [flight_landed, ends_landed, ends_landed_peer, hlargest]
      exact hlined.arrive.2
    · rw [ends_landed_peer]
      exact hbounded
  · obtain ⟨hold, hlined, hbounded⟩ := h (peer side)
    rw [peer_peer] at hlined hbounded
    constructor
    · rw [flight_landed_peer, ends_landed_peer]
      exact hold
    · rw [flight_landed_peer, ends_landed_peer, peer_peer, ends_landed, hnext]
      exact hlined
    · rw [peer_peer, ends_landed, hnext]
      exact hbounded

lemma reachable_landed {x : Wire σ} (h : Reachable x) {side : Side} {d : Flying}
    {rest : List Flying} {c' : Connection σ} (hc' : ((x.ends side).ingest R d.datagram).2 = c')
    (hsame : c'.version = (x.ends side).version ∧ c'.dstCid = (x.ends side).dstCid ∧
      c'.srcCid = (x.ends side).srcCid) : Reachable (landed R x side d rest) := by
  subst hc'
  exact (reachable_setEnd h hsame).moved fun _ => ⟨rfl, rfl, rfl⟩

/-- What leaves the connection's addresses and spaces alone leaves everything underway. -/
lemma underway_setEnd {x : Wire σ} (h : ∀ side, Underway keys x side) {side : Side}
    {c' : Connection σ} (hdst : c'.dstCid = (x.ends side).dstCid)
    (hspaces : c'.spaces = (x.ends side).spaces) (other : Side) :
    Underway keys (x.setEnd side c') other := by
  have hsame : ∀ other, ((x.setEnd side c').ends other).dstCid = (x.ends other).dstCid ∧
      ((x.setEnd side c').ends other).spaces = (x.ends other).spaces := by
    intro other
    by_cases hother : other = side
    · subst hother
      rw [ends_setEnd, Function.update_self]
      exact ⟨hdst, hspaces⟩
    · rw [ends_setEnd, Function.update_of_ne hother]
      exact ⟨rfl, rfl⟩
  obtain ⟨hsound, hlined, hbounded⟩ := h other
  constructor
  · rw [(hsame other).1]
    exact hsound
  · rw [(hsame other).2, (hsame (peer other)).2]
    exact hlined
  · rw [(hsame (peer other)).2]
    exact hbounded

lemma joined_departed (hkeys : Matched keys) {x : Wire σ} (h : Joined keys done x) {side : Side}
    {id : PacketNumberSpace} {packet : Bytes} (hbusy : (x.ends side).firstBusy = some id)
    (hpacket : (x.ends side).packetOf id = ok packet) (hsize : packet.length < 2 ^ 61)
    (hleft : NumbersLeft (x.ends side)) : Joined keys done (x.departed side id packet) := by
  have hsteady := h.steady side
  obtain ⟨hnumber, hlong⟩ := hleft id hbusy
  have hsound := sound_flying hkeys h.reachable hpacket hsize (hsteady.keyed id) hlong
    (steady_framesOf hsteady id)
  constructor
  · intro other
    rcases eq_or_eq_peer side other with rfl | rfl
    · rw [ends_departed]
      exact steady_sent hsteady id
    · rw [ends_departed_peer]
      exact h.steady _
  · exact reachable_departed h.reachable side id packet
  · exact underway_departed h.underway hsound hnumber

lemma joined_landed (hR : Rested R done) {x : Wire σ} (h : Joined keys done x) {side : Side}
    {d : Flying} {rest : List Flying} (hflight : x.flight side = d :: rest)
    (hclear : (x.ends side).openPacket d.datagram ≠ err (.packet .reservedBitsSet)) :
    Joined keys done (landed R x side d rest) ∧
      TakesIn (x.ends side) ((x.ends side).ingest R d.datagram).2 d.space d.pn d.frames := by
  have hsteady := h.steady side
  have hmild := (h.underway side).sound d (by rw [hflight]; exact List.mem_cons_self)
  obtain ⟨k, hopen⟩ := opens_head (h.underway side) hflight (hsteady.keyed d.space) hclear
  obtain ⟨hsteady', htakes⟩ := steady_ingest hR hsteady hopen hmild.mild
  have hintact := htakes.intact
  refine ⟨?_, htakes⟩
  constructor
  · intro other
    rcases eq_or_eq_peer side other with rfl | rfl
    · rw [ends_landed]
      exact hsteady'
    · rw [ends_landed_peer]
      exact h.steady _
  · exact reachable_landed h.reachable rfl ⟨hintact.version, hintact.dstCid, hintact.srcCid⟩
  · exact underway_landed h.underway hflight rfl hintact.dstCid ⟨_, by rw [hintact.spaces]⟩

/-- A call of an application that leaves all but the data alone. -/
lemma joined_setEnd {x : Wire σ} (h : Joined keys done x) {side : Side} {c' : Connection σ}
    (hsteady : Steady (keys side) done c') (hversion : c'.version = (x.ends side).version)
    (hdst : c'.dstCid = (x.ends side).dstCid) (hsrc : c'.srcCid = (x.ends side).srcCid)
    (hspaces : c'.spaces = (x.ends side).spaces) : Joined keys done (x.setEnd side c') := by
  constructor
  · intro other
    by_cases hother : other = side
    · subst hother
      rw [ends_setEnd, Function.update_self]
      exact hsteady
    · rw [ends_setEnd, Function.update_of_ne hother]
      exact h.steady other
  · exact reachable_setEnd h.reachable ⟨hversion, hdst, hsrc⟩
  · exact underway_setEnd h.underway hdst hspaces

/-- First those that have arrived, then those on their way, then those that wait to be sent. -/
def unread (x : Wire σ) (side : Side) : Bytes :=
  (x.ends side).receivedAppData ++
    (x.flight side).flatMap (fun d => d.frames.flatMap Frame.streamData) ++
    (x.ends (peer side)).pendingAppData

/-- What a hop is for the applications. -/
def acts (x : Wire σ) : Hop → List (Pipe.Act Side UInt8)
  | .queue side data => [.put (peer side) data]
  | .read side bufLen => [.take side (min (x.ends side).receivedAppData.length bufLen)]
  | _ => []

/-- A packet takes bytes from the sender into flight, in their order. -/
lemma unread_departed (x : Wire σ) (side : Side) (id : PacketNumberSpace) (packet : Bytes) :
    (x.departed side id packet).unread = x.unread := by
  obtain ⟨-, -, -, -, hreceived, -⟩ := intact_sent (x.ends side) id
  have hdata := streamData_sent (x.ends side) id
  funext other
  rcases eq_or_eq_peer side other with rfl | rfl
  · rw [unread, unread, ends_departed, ends_departed_peer, flight_departed, hreceived]
  · rw [unread, unread, ends_departed_peer, flight_departed_peer, peer_peer, ends_departed,
      List.flatMap_append, List.flatMap_singleton, List.append_assoc, List.append_assoc,
      List.append_assoc]
    exact congrArg (fun data => _ ++ (_ ++ data)) hdata

/-- A packet hands over the bytes that are first in flight. -/
lemma unread_landed {x : Wire σ} {side : Side} {d : Flying} {rest : List Flying}
    (hflight : x.flight side = d :: rest) {c' : Connection σ}
    (hc' : ((x.ends side).ingest R d.datagram).2 = c')
    (hpending : c'.pendingAppData = (x.ends side).pendingAppData)
    (hreceived : c'.receivedAppData =
      (x.ends side).receivedAppData ++ d.frames.flatMap Frame.streamData) :
    (landed R x side d rest).unread = x.unread := by
  subst hc'
  funext other
  rcases eq_or_eq_peer side other with rfl | rfl
  · rw [unread, unread, ends_landed, ends_landed_peer, flight_landed, hreceived, hflight,
      List.flatMap_cons]
    simp only [List.append_assoc]
  · rw [unread, unread, ends_landed_peer, flight_landed_peer, peer_peer, ends_landed, hpending]

lemma unread_queue (x : Wire σ) (side : Side) (data : Bytes) :
    (x.next R (.queue side data)).unread =
      Pipe.next x.unread (.put (peer side) data) := by
  funext other
  rcases eq_or_eq_peer side other with rfl | rfl
  · simp [unread, Pipe.next, next, sendData, log, peer_ne, (peer_ne _).symm]
  · simp [unread, Pipe.next, next, sendData, log, peer_ne, peer_peer]

/-- What a call of `recv_data` takes is the front of what is unread. -/
lemma unread_read (x : Wire σ) (side : Side) (bufLen : Nat) :
    (x.next R (.read side bufLen)).unread =
      Pipe.next x.unread (.take side (min (x.ends side).receivedAppData.length bufLen)) := by
  have hmin : min (x.ends side).receivedAppData.length bufLen ≤
      (x.ends side).receivedAppData.length := Nat.min_le_left _ _
  funext other
  rcases eq_or_eq_peer side other with rfl | rfl
  · simp [unread, Pipe.next, next, recvData, log, peer_ne, List.drop_append_of_le_length]
  · simp [unread, Pipe.next, next, recvData, log, peer_ne, peer_peer]

/-- The connections stay established, and a hop is for the applications what `acts` says. -/
lemma joined_next (hR : Rested R done) (hkeys : Matched keys) {x : Wire σ} {hop : Hop}
    (h : Joined keys done x) (hsmooth : Smooth x hop) :
    Joined keys done (x.next R hop) ∧
      (x.next R hop).unread = run Pipe.next x.unread (x.acts hop) := by
  obtain ⟨horderly, hrest⟩ := hsmooth
  cases hop with
  | emit side bufLen =>
    obtain ⟨hleaves, hsize, hleft⟩ := hrest
    have hopen := (h.steady side).open
    rcases next_emit (R := R) hopen hleaves with ⟨-, hnext⟩ | ⟨id, packet, hbusy, hpacket, hfits, hnext⟩
    · rw [hnext]
      exact ⟨h, rfl⟩
    · rw [hnext]
      exact ⟨joined_departed hkeys h hbusy hpacket (hfits.trans_lt hsize) hleft,
        unread_departed x side id packet⟩
  | arrive side i =>
    obtain rfl : i = 0 := horderly
    cases hflight : x.flight side with
    | nil =>
      rw [next_arrive_nil hflight]
      exact ⟨h, rfl⟩
    | cons d rest =>
      have hclear := hrest d (by rw [hflight]; rfl)
      obtain ⟨hjoined, htakes⟩ := joined_landed hR h hflight hclear
      rw [next_arrive hflight]
      exact ⟨hjoined, unread_landed hflight rfl htakes.intact.pendingAppData htakes.received⟩
  | lose | copy | inject => exact horderly.elim
  | queue side data =>
    obtain ⟨hrunning, hdone, hkeyed, hquiet⟩ := h.steady side
    exact ⟨joined_setEnd h ⟨hrunning, hdone, hkeyed, hquiet⟩ rfl rfl rfl rfl,
      unread_queue x side data⟩
  | read side bufLen =>
    obtain ⟨hrunning, hdone, hkeyed, hquiet⟩ := h.steady side
    exact ⟨joined_setEnd h ⟨hrunning, hdone, hkeyed, hquiet⟩ rfl rfl rfl rfl,
      unread_read x side bufLen⟩

/-- Applications read what a first-in-first-out queue would give them. -/
lemma taken_acts (x : Wire σ) (hop : Hop) (side : Side) :
    observed Pipe.next (Pipe.taken side) x.unread (x.acts hop) = x.output side hop := by
  cases hop with
  | read reader bufLen =>
    by_cases hside : reader = side
    · subst hside
      simp [acts, observed, Pipe.taken, output, unread, recvData,
        List.take_append_of_le_length]
    · simp [acts, observed, Pipe.taken, output, hside]
  | queue | emit | arrive | lose | copy | inject => simp [acts, observed, Pipe.taken, output]

lemma written_acts (x : Wire σ) (hop : Hop) (side : Side) :
    (x.acts hop).flatMap (Pipe.written side) = hop.handed (peer side) := by
  cases hop with
  | queue writer data =>
    cases writer <;> cases side <;> simp [acts, Pipe.written, Hop.handed, peer]
  | emit | arrive | lose | copy | inject | read => simp [acts, Pipe.written, Hop.handed]

lemma written_observed (x : Wire σ) (hops : List Hop) (side : Side) :
    (observed (next R) acts x hops).flatMap (Pipe.written side) =
      hops.flatMap (Hop.handed (peer side)) := by
  induction hops generalizing x with
  | nil => rfl
  | cons hop hops ih =>
    rw [observed, List.flatMap_append, List.flatMap_cons, written_acts, ih]

/-- What a smooth hop keeps, and what it is for the applications, makes the wire a pair of queues. -/
lemma carried {P : Wire σ → Prop} (hnext : ∀ (x : Wire σ) (hop : Hop), P x → Smooth x hop →
      P (x.next R hop) ∧ (x.next R hop).unread = run Pipe.next x.unread (x.acts hop))
    {x : Wire σ} {hops : List Hop} (hx : P x) (hsmooth : Along (next R) Smooth x hops) :
    P (run (next R) x hops) ∧ ∀ side,
      x.unread side ++ hops.flatMap (Hop.handed (peer side)) =
        observed (next R) (output side) x hops ++ (run (next R) x hops).unread side := by
  have hstep : ∀ (x : Wire σ) (hop : Hop) (queues : Side → Bytes),
      (P x ∧ x.unread = queues) → Smooth x hop →
        P (x.next R hop) ∧ (x.next R hop).unread = run Pipe.next queues (x.acts hop) := by
    rintro x hop _ ⟨h, rfl⟩ hhop
    exact hnext x hop h hhop
  obtain ⟨hP, hrun⟩ := simulation hstep ⟨hx, rfl⟩ hsmooth
  refine ⟨hP, fun side => ?_⟩
  have hshown : ∀ (x : Wire σ) (hop : Hop) (queues : Side → Bytes),
      (P x ∧ x.unread = queues) → Smooth x hop →
        observed Pipe.next (Pipe.taken side) queues (x.acts hop) = x.output side hop := by
    rintro x hop _ ⟨-, rfl⟩ -
    exact taken_acts x hop side
  have hpipe := Pipe.conserved x.unread (observed (next R) acts x hops) side
  have hread := simulation_observed hstep hshown ⟨hx, rfl⟩ hsmooth
  rw [written_observed, hread, ← hrun] at hpipe
  exact hpipe

/-- Two established connections with the transparent cipher, and nothing between them. -/
def plainPair : Wire Flights where
  ends side := ((fresh side .established [] 1 [0x50] [0x51] (nullKeys plainMask)).installKeys
    .handshake (nullKeys plainMask)).installKeys .applicationData (nullKeys plainMask)
  flight _ := []

lemma plain_matched : Matched fun _ _ => nullKeys plainMask := fun _ _ =>
  ⟨plainMask, nullDirection_paired fun _ _ => Nat.le_refl 5⟩

lemma plain_rested : Rested (scripted []) (· = []) where
  read _ _ h := h
  write tls h := by
    subst h
    exact ⟨rfl, rfl⟩

lemma plainPair_joined : Joined (fun _ _ => nullKeys plainMask) (· = []) plainPair where
  steady side := ⟨.inl rfl, rfl, fun id => by cases id <;> rfl, rfl⟩
  reachable := by refine ⟨?_, ?_, ?_, fun _ => rfl⟩ <;> rintro (_ | _) <;> decide +kernel
  underway side := ⟨fun _ hd => absurd hd List.not_mem_nil,
    ⟨0, rfl, rfl, Nat.le_refl 0, Nat.zero_le 1⟩, Nat.zero_le _⟩

end DeerQuic.Wire
