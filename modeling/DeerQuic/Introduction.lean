import DeerQuic.Authentic
import DeerQuic.ClientHello
import DeerQuic.Endpoint
import DeerQuic.FirstPacket
import DeerQuic.Handshaking
import DeerQuic.InitialBuilders

/-!
# How a client and a server meet

`ep_client` sends the first packet of `connect`. `ep_server` makes a server of it with `accept` and
then has the packet ingested again. With two sessions that carry out a full handshake this is where
the handshake starts, so that what is known of it holds from the first packet on.
-/

namespace DeerQuic

open Outcome Checked Protection Transition

/-- A full handshake without client authentication. The sessions say these bytes one after the
other, and announce the keys of the next level with them. -/
structure FullHandshake {σ : Type} (R : Rustls σ) (keys : Side → PacketNumberSpace → Keys)
    (done : σ → Prop) (hello serverHello flight : Bytes) : Prop where
  spoken : hello ≠ [] ∧ serverHello ≠ [] ∧ flight ≠ []
  client : ∃ tls tls' tls'' finished, R.newClient = .ok tls ∧ (R.writeHs tls).2.1 = hello ∧
    Connection.Answered R (R.writeHs tls).1 serverHello (keys .client .handshake) [] tls' ∧
    Connection.Answered R tls' flight (keys .client .applicationData) finished tls'' ∧ done tls''
  server : ∃ tls tls' tls'' change change', R.newServer = .ok tls ∧
    (R.readHs tls hello).2 = .ok () ∧
    R.writeHs (R.readHs tls hello).1 = (tls', serverHello, some change) ∧
    change.keys = keys .server .handshake ∧
    R.writeHs tls' = (tls'', flight, some change') ∧
    change'.keys = keys .server .applicationData ∧ done tls''

namespace Protection

variable {keys serverKeys : Keys} {mask : Bytes → Bytes} {dstCid srcCid clientHello packet : Bytes}

/-- The server finds the ClientHello in the client's first packet, and where it came from. -/
lemma buildInitialPacket_opens (h : Paired keys.localKeys serverKeys.remoteKeys mask)
    (hdst : dstCid.length = 8) (hsrc : srcCid.length = 8)
    (hpacket : buildInitialPacket keys dstCid srcCid clientHello 0 = ok packet) :
    ∃ hdr n k, Packet.parseLongHeader packet = ok (hdr, n) ∧ hdr.ty = .initial ∧
      hdr.version = Packet.version1 ∧ hdr.dstCid.bytes = dstCid ∧ hdr.srcCid.bytes = srcCid ∧
      decryptInitial packet hdr serverKeys =
        ok (.crypto 0 clientHello :: List.replicate k .padding, 0) := by
  have hpnLen : 1 ≤ 1 ∧ 1 ≤ 4 := by decide
  simp only [buildInitialPacket, bind_eq_ok, mapErr_eq_ok, writeFrames_hello] at hpacket
  obtain ⟨_, ⟨hhello, rfl⟩, hseal⟩ := hpacket
  have hframes : ∀ f ∈ [Frame.crypto 0 clientHello], f.WellFormed ∧ f.SelfDelimiting := by
    intro f hf
    rw [List.mem_singleton.mp hf]
    exact ⟨⟨Nat.zero_le _, hhello⟩, trivial⟩
  generalize 1200 - _ = n at hseal
  have hplain : padTo n (helloBody clientHello) = [Frame.crypto 0 clientHello].flatMap Frame.wire ++
      List.replicate (n - (helloBody clientHello).length) 0 := by
    rw [List.flatMap_singleton]
    rfl
  have hbody : 3 ≤ (padTo n (helloBody clientHello)).length := by
    have hwidth := VarInt.encodedLen_pos clientHello.length
    rw [padTo_length, helloBody_length]
    omega
  generalize padTo n (helloBody clientHello) = plain at hplain hbody hseal
  obtain ⟨_, _, _, _, _, _, -, -, -, hfits, -⟩ := encryptLong_layout hpnLen rfl hseal
  rw [h.packet.tag_len] at hfits
  have htoken : ((some [] : Option Bytes).map List.length).getD 0 = 0 := rfl
  obtain ⟨payload, hpayload, hopen, hsealed⟩ := encryptLong_eq h .initial Packet.version1 dstCid
    srcCid plain 0 hpnLen htoken (by omega) hfits
  have hlength : 1 + plain.length + 16 = 1 + payload.length := by omega
  obtain ⟨hdr, m, hparse, hty, hversion, hdstCid, hsrcCid, -, hopened⟩ := protectedLong_opens
    h.header .initial (by decide : Packet.version1 ≠ 0) (hdst.trans_le (by decide))
    (hsrc.trans_le (by decide)) hpnLen (by decide) hlength hfits (by omega) (hopen.trans (congrArg some hplain)) hframes
  obtain rfl := ok.inj (hseal.symm.trans hsealed)
  refine ⟨hdr, m, n - (helloBody clientHello).length, hparse, hty, hversion, hdstCid, hsrcCid, ?_⟩
  rw [decryptInitial, hopened, ok_bind]
  rfl

end Protection

namespace Connection

variable {σ : Type} {R : Rustls σ} {keys : Side → PacketNumberSpace → Keys} {done : σ → Prop}
  {hello serverHello flight : Bytes}

lemma clientHelloOf_hello (k : Nat) :
    clientHelloOf (.crypto 0 hello :: List.replicate k .padding) = hello := by
  simp [clientHelloOf]

/-- Nothing has been said in the application's space. -/
structure Unused (c : Connection σ) : Prop where
  version : c.version ≠ 0
  dstCid : c.dstCid.length = 8
  srcCid : c.srcCid.length = 8
  numbers : (c.spaces .applicationData).nextSendPn = 0 ∧
    (c.spaces .applicationData).largestRecvPn = 0
  data : c.pendingAppData = [] ∧ c.receivedAppData = []

/-- The client that `connect` returns beside the packet. -/
def connected (R : Rustls σ) (tls : σ) (k : Keys) (dstCid srcCid : Bytes) : Connection σ :=
  let out := (fresh .client .connecting tls Packet.version1 dstCid srcCid k).writeHs R 0
  let taken := (out.2.spaces .initial).takeNextSendPn
  ((out.2.setSpace .initial taken.2).log (.built .initial 0 [.crypto 0 out.1.1])).log
    (.sent .initial 0 [.crypto 0 out.1.1])

lemma connect_ok {serverName : String} {dstCid srcCid packet : Bytes} {tls : σ} {k : Keys}
    {c : Connection σ} (hnew : R.newClient = .ok tls) (hkeys : R.initialKeys .client dstCid = some k) :
    connect R serverName dstCid srcCid = ok (c, packet) ↔
      R.serverNameValid serverName = true ∧ c = connected R tls k dstCid srcCid ∧
        buildInitialPacket k dstCid srcCid (R.writeHs tls).2.1 0 = ok packet := by
  have hhello : ((fresh .client .connecting tls Packet.version1 dstCid srcCid k).writeHs R 0).1.1 =
      (R.writeHs tls).2.1 := rfl
  simp only [connect, hnew, hkeys, bind_eq_ok, ofOption_some, ofExcept_ok, ok_bind, hhello,
    ok.injEq, Prod.mk.injEq, connected]
  constructor
  · rintro ⟨_, hvalid, built, hbuild, hc, rfl⟩
    exact ⟨require_eq_ok.mp hvalid, hc.symm, hbuild⟩
  · rintro ⟨hvalid, hc, hbuild⟩
    exact ⟨(), require_eq_ok.mpr hvalid, packet, hbuild, hc.symm, rfl⟩

lemma connected_awaits {dstCid srcCid : Bytes} (hdst : dstCid.length = 8) (hsrc : srcCid.length = 8)
    {tls tls' tls'' : σ} {finished : Bytes}
    (hfirst : Answered R (R.writeHs tls).1 serverHello (keys .client .handshake) [] tls')
    (hsecond : Answered R tls' flight (keys .client .applicationData) finished tls'')
    (hdone : done tls'') :
    Awaits R (keys .client) done [(.initial, serverHello), (.handshake, flight)]
      (connected R tls (keys .client .initial) dstCid srcCid) ∧
      Unused (connected R tls (keys .client .initial) dstCid srcCid) := by
  refine ⟨.hello ⟨rfl, rfl, ?_, fun _ => rfl, ?_⟩ rfl rfl hfirst hsecond hdone,
    ⟨(by decide : Packet.version1 ≠ 0), hdst, hsrc, ⟨rfl, rfl⟩, rfl, rfl⟩⟩
  · rintro (_ | _ | _) <;> rfl
  · rintro (_ | _ | _) hid
    · exact absurd rfl hid
    · rfl
    · rfl

/-- The server that `accept` returns. -/
def welcomed (R : Rustls σ) (tls : σ) (k : Keys) (hello : Bytes) (version : UInt32)
    (dstCid srcCid : Bytes) : Connection σ :=
  let c := (fresh .server .handshaking (R.readHs tls hello).1 version dstCid srcCid k).log
    (.tlsRead 0 hello)
  { (c.acceptTlsOutput R).recordRecvPn .initial 0 with
    cryptoRecvOffset := Function.update (fun _ => 0) 0 hello.length }

lemma accept_ok {packet : Bytes} {hdr : LongHeader} {n k : Nat} {tls : σ} {serverKeys : Keys}
    (hnew : R.newServer = .ok tls) (hread : (R.readHs tls hello).2 = .ok ())
    (hkeys : R.initialKeys .server hdr.dstCid.bytes = some serverKeys)
    (hparse : Packet.parseLongHeader packet = ok (hdr, n))
    (hopen : decryptInitial packet hdr serverKeys =
      ok (.crypto 0 hello :: List.replicate k .padding, 0)) :
    accept R packet =
      ok (welcomed R tls serverKeys hello hdr.version hdr.srcCid.bytes hdr.dstCid.bytes) := by
  simp only [accept, hparse, hkeys, hopen, hnew, mapErr_ok, ofOption_some, ofExcept_ok, ok_bind,
    clientHelloOf_hello, hread]
  rfl

/-- It has two chunks to send, and all its keys. -/
lemma welcomed_steady {version : UInt32} {dstCid srcCid : Bytes} {tls tls' tls'' : σ}
    {change change' : KeyChange} (hversion : version ≠ 0) (hdst : dstCid.length = 8)
    (hsrc : srcCid.length = 8) (hserverHello : serverHello ≠ []) (hflight : flight ≠ [])
    (hfirst : R.writeHs (R.readHs tls hello).1 = (tls', serverHello, some change))
    (hkeys : change.keys = keys .server .handshake)
    (hsecond : R.writeHs tls' = (tls'', flight, some change'))
    (hkeys' : change'.keys = keys .server .applicationData) (hdone : done tls'') :
    let a := welcomed R tls (keys .server .initial) hello version dstCid srcCid
    Steady (keys .server) done a ∧ a.toTell = [(.initial, serverHello), (.handshake, flight)] ∧
      a.side = .server ∧ a.cryptoRecvOffset 0 = hello.length ∧ Unused a := by
  have hshape := acceptTlsOutput_eq (R := R) (c := (fresh .server .handshaking (R.readHs tls hello).1
    version dstCid srcCid (keys .server .initial)).log (.tlsRead 0 hello)) fun _ => rfl
  simp only [log, fresh, hfirst, hsecond, tlsWritten, installKeys, setSpace] at hshape
  simp only [welcomed, log, fresh, hshape]
  refine ⟨⟨.inr ⟨rfl, rfl⟩, hdone, ?_, rfl⟩, ?_, rfl, rfl,
    ⟨hversion, hdst, hsrc, ⟨rfl, rfl⟩, rfl, rfl⟩⟩
  · rintro (_ | _ | _)
    · rfl
    · exact congrArg some hkeys
    · exact congrArg some hkeys'
  · simp [toTell, hserverHello, hflight, recordRecvPn, log, setSpace]

/-- The connection behind a packet in which everything is known. -/
def reheard (c : Connection σ) (hello : Bytes) (k : Nat) : Connection σ :=
  { c.recordRecvPn .initial 0 with
    history := (c.recordRecvPn .initial 0).history ++
      .processed .initial (.crypto 0 hello) :: List.replicate k (.processed .initial .padding) }

/-- The second reader finds the ClientHello behind it, and only records the packet. -/
lemma ingest_again {packet : Bytes} {k : Nat} {a : Connection σ} (hopened : a.state ≠ .closed)
    (hopen : a.openPacket packet = ok (.initial, 0, .crypto 0 hello :: List.replicate k .padding))
    (hhello : hello ≠ []) (hoffset : a.cryptoRecvOffset 0 = hello.length) :
    (a.ingest R packet).2 = a.reheard hello k := by
  have hstale : ¬ (pnSpaceToLevel .initial ≤ 2 ∧
      0 = (a.recordRecvPn .initial 0).cryptoRecvOffset (pnSpaceToLevel .initial)) := by
    rintro ⟨-, hzero⟩
    exact hhello (List.length_eq_zero_iff.mp (hoffset.symm.trans hzero.symm))
  have hframe : (a.recordRecvPn .initial 0).processFrame R .initial (.crypto 0 hello) =
      (ok (), a.recordRecvPn .initial 0) := by
    rw [processFrame, if_neg hstale]
  have hpadding : ∀ f ∈ List.replicate k Frame.padding, f.AckOnly := by
    intro f hf
    rw [List.eq_of_mem_replicate hf]
    trivial
  rw [ingest_of_open R hopened hopen, processFrames_cons, if_pos (by rw [hframe]),
    frameNext_of_ok hframe, processFrames_quiet .initial hpadding, reheard]
  simp [log]

end Connection

namespace Wire

open Connection

variable {σ : Type} {R : Rustls σ} {keys : Side → PacketNumberSpace → Keys} {done : σ → Prop}

/-- The client that `ep_client` has made, and the server that `ep_server` made of its packet. Both
connection IDs have eight bytes. -/
structure Introduced (R : Rustls σ) (keys : Side → PacketNumberSpace → Keys) (done : σ → Prop)
    (x : Wire σ) : Prop where
  sessions : ∃ hello serverHello flight, FullHandshake R keys done hello serverHello flight
  met : ∃ serverName dstCid srcCid packet a, dstCid.length = 8 ∧ srcCid.length = 8 ∧
    (∀ side, R.initialKeys side dstCid = some (keys side .initial)) ∧
    connect R serverName dstCid srcCid = ok (x.ends .client, packet) ∧
    accept R packet = ok a ∧ x.ends .server = (a.ingest R packet).2
  empty : ∀ side, x.flight side = []

lemma introduced_early (hkeys : Matched keys) {x : Wire σ} (h : Introduced R keys done x) :
    (∃ due, Early R keys done due x) ∧ (∀ side, (x.ends side).side = side) ∧
      ∀ side, x.unread side = [] := by
  obtain ⟨hello, serverHello, flight, hfull⟩ := h.sessions
  obtain ⟨serverName, dstCid, srcCid, packet, a, hdst, hsrc, hinitial, hconnect, haccept, hserver⟩ :=
    h.met
  obtain ⟨hhello, hserverHello, hflight⟩ := hfull.spoken
  obtain ⟨tls, _, _, finished, hnew, rfl, hanswered, hanswered', hdone⟩ := hfull.client
  obtain ⟨-, hclient, hbuild⟩ := (connect_ok hnew (hinitial .client)).mp hconnect
  obtain ⟨hawaits, hhere⟩ := connected_awaits hdst hsrc hanswered hanswered' hdone
  rw [← hclient] at hawaits hhere
  obtain ⟨mask, hpaired⟩ := hkeys .server .initial
  obtain ⟨hdr, n, k, hparse, hty, hversion, rfl, rfl, hdecrypt⟩ :=
    buildInitialPacket_opens hpaired hdst hsrc hbuild
  have hnonzero : hdr.version ≠ 0 := by
    rw [hversion]
    decide
  obtain ⟨tlsThere, _, _, change, change', hnew', hread, hfirst, hchange, hsecond, hchange', hdone'⟩ :=
    hfull.server
  obtain ⟨hsteady, htell, hside, hoffset, hunused⟩ := welcomed_steady hnonzero hsrc hdst hserverHello
    hflight hfirst hchange hsecond hchange' hdone'
  obtain rfl := ok.inj (haccept.symm.trans (accept_ok hnew' hread (hinitial .server) hparse hdecrypt))
  have hopen := openPacket_initial ⟨⟨n, hparse⟩, hty, hinitial .server, hdecrypt⟩
    (hsteady.keyed .initial)
  rw [ingest_again (R := R) hsteady.open hopen hhello hoffset] at hserver
  have hthere : Unused (x.ends .server) := by
    rw [hserver]
    exact ⟨hunused.version, hunused.dstCid, hunused.srcCid, hunused.numbers, hunused.data⟩
  have hends : ∀ side, Unused (x.ends side) := by
    rintro (_ | _)
    · exact hhere
    · exact hthere
  refine ⟨⟨_, ⟨?_, hawaits, ?_, ?_, ?_, ?_⟩⟩, ?_, ?_⟩
  · rw [hserver]
    exact ⟨hsteady.running, hsteady.rested,
      fun id => (keys_recorded _ .initial id 0).trans (hsteady.keyed id), hsteady.quiet⟩
  · rw [h.empty, hserver]
    exact htell.symm ▸ Due.waiting _
  · intro d hd
    rw [h.empty] at hd
    exact absurd hd List.not_mem_nil
  · exact ⟨fun side => (hends side).version, fun side => (hends side).dstCid.trans_le (by decide),
      fun side => (hends side).srcCid.trans_le (by decide),
      fun side => (hends side).dstCid.trans (hends (peer side)).dstCid.symm⟩
  · intro side
    obtain ⟨⟨hnext, -⟩, ⟨-, hlargest⟩⟩ := And.intro (hends (peer side)).numbers (hends side).numbers
    refine ⟨?_, ?_, by rw [hnext]; exact Nat.zero_le _⟩
    · intro d hd
      rw [h.empty] at hd
      exact absurd hd List.not_mem_nil
    · rw [h.empty, hnext, hlargest]
      exact ⟨0, rfl, rfl, Nat.le_refl 0, Nat.zero_le 1⟩
  · rintro (_ | _)
    · obtain ⟨_, _, hwaits⟩ := hawaits.waits
      exact hwaits.client
    · rw [hserver]
      exact hside
  · intro side
    rw [unread, h.empty, (hends side).data.2, (hends (peer side)).data.1]
    rfl

/-- The client's first packet. -/
def plainFirst : Bytes :=
  (buildInitialPacket (nullKeys plainMask) (List.replicate 8 0x50) (List.replicate 8 0x51) [1]
    0).getD []

/-- The padding that the server finds in it. -/
def plainPadding : Nat := 1155

/-- The two connections once the server has read the packet. -/
def plainStart : Wire Flights where
  ends
    | .client => connected plainTls clientFlights (nullKeys plainMask) (List.replicate 8 0x50)
        (List.replicate 8 0x51)
    | .server => (welcomed plainTls serverFlights (nullKeys plainMask) [1] Packet.version1
        (List.replicate 8 0x51) (List.replicate 8 0x50)).reheard [1] plainPadding
  flight _ := []

lemma plain_handshake : FullHandshake plainTls (fun _ _ => nullKeys plainMask) (· = []) [1] [2] [3]
    where
  spoken := by simp
  client := ⟨_, _, _, [5], rfl, rfl, ⟨rfl, ⟨_, rfl, rfl⟩, rfl⟩, ⟨rfl, ⟨_, rfl, rfl⟩, rfl⟩, rfl⟩
  server := ⟨_, _, _, _, _, rfl, rfl, rfl, rfl, rfl, rfl, rfl⟩

lemma plainTls_rested : Rested plainTls (· = []) where
  read _ _ h := h
  write tls h := by
    subst h
    exact ⟨rfl, rfl⟩

lemma plainStart_introduced :
    Introduced plainTls (fun _ _ => nullKeys plainMask) (· = []) plainStart where
  sessions := ⟨_, _, _, plain_handshake⟩
  met := by
    have hbuild : buildInitialPacket (nullKeys plainMask) (List.replicate 8 0x50)
        (List.replicate 8 0x51) [1] 0 = ok plainFirst :=
      eq_ok_getD (by decide +kernel) _
    obtain ⟨mask, hpaired⟩ := plain_matched .server .initial
    obtain ⟨hdr, n, k, hparse, hty, hversion, hdst, hsrc, hdecrypt⟩ :=
      buildInitialPacket_opens hpaired List.length_replicate List.length_replicate hbuild
    have hframes : firstFrames plainTls plainFirst =
        ok (.crypto 0 [1] :: List.replicate k .padding) := by
      have hkeys : plainTls.initialKeys .server hdr.dstCid.bytes = some (nullKeys plainMask) := rfl
      simp only [firstFrames, hparse, hkeys, hdecrypt, mapErr_ok, ofOption_some, ok_bind]
    have hk : k = plainPadding := by
      have hcount : ((firstFrames plainTls plainFirst).getD []).length = plainPadding + 1 := by
        decide +kernel
      rw [hframes] at hcount
      simpa [Outcome.getD] using hcount
    have haccept : accept plainTls plainFirst = ok (welcomed plainTls serverFlights
        (nullKeys plainMask) [1] hdr.version hdr.srcCid.bytes hdr.dstCid.bytes) :=
      accept_ok rfl rfl rfl hparse hdecrypt
    rw [hversion, hdst, hsrc] at haccept
    have hkeyed : ((welcomed plainTls serverFlights (nullKeys plainMask) [1] Packet.version1
        (List.replicate 8 0x51) (List.replicate 8 0x50)).spaces .initial).keys =
        some (nullKeys plainMask) := rfl
    have hopen := openPacket_initial (R := plainTls) ⟨⟨n, hparse⟩, hty, rfl, hdecrypt⟩ hkeyed
    have hagain := ingest_again (R := plainTls) (by decide) hopen (by simp) rfl
    rw [hk] at hagain
    exact ⟨"", _, _, plainFirst, _, List.length_replicate, List.length_replicate, fun _ => rfl,
      (connect_ok rfl rfl).mpr ⟨rfl, rfl, hbuild⟩, haccept, hagain.symm⟩
  empty _ := rfl

/-- Data are handed over before there are keys for them, and read when the handshake is over. -/
def plainGreeting : List Hop :=
  [.queue .client [1, 2], .emit .server 2048, .queue .server [9], .emit .server 2048,
    .arrive .client 0, .arrive .client 0, .emit .server 2048, .emit .server 2048,
    .arrive .client 0, .arrive .client 0, .read .client 8]

lemma plainGreeting_smooth : Along (next plainTls) Smooth plainStart plainGreeting := by
  decide +kernel

/-- What holds from the first packet on, in an orderly network. -/
lemma met_run (hR : Rested R done) (hkeys : Matched keys) {x : Wire σ} {hops : List Hop}
    (hx : Introduced R keys done x) (hsmooth : Along (next R) Smooth x hops) :
    Met R keys done (run (next R) x hops) ∧
      (∀ side, ((run (next R) x hops).ends side).side = side) ∧ ∀ side,
      hops.flatMap (Hop.handed (peer side)) =
        observed (next R) (output side) x hops ++ (run (next R) x hops).unread side := by
  have hnext : ∀ (x : Wire σ) (hop : Hop), (Met R keys done x ∧ ∀ side, (x.ends side).side = side) →
      Smooth x hop → (Met R keys done (x.next R hop) ∧
        ∀ side, ((x.next R hop).ends side).side = side) ∧
        (x.next R hop).unread = run Pipe.next x.unread (x.acts hop) := by
    rintro x hop ⟨hmet, hsides⟩ hhop
    obtain ⟨hmet', hunread⟩ := met_next hR hkeys hmet hhop
    exact ⟨⟨hmet', sides_next hsides hop⟩, hunread⟩
  obtain ⟨hearly, hsides, hnone⟩ := introduced_early hkeys hx
  obtain ⟨⟨hmet, hsides'⟩, hcarried⟩ := carried hnext ⟨.inl hearly, hsides⟩ hsmooth
  refine ⟨hmet, hsides', fun side => ?_⟩
  have hbytes := hcarried side
  rwa [hnone, List.nil_append] at hbytes

lemma established_of_quiet {x : Wire σ} (h : Joined keys done x)
    (hsides : ∀ side, (x.ends side).side = side) (hidle : (x.ends .server).firstBusy = none)
    (side : Side) : (x.ends side).state = .established := by
  refine established_of_idle (h.steady side) fun hserver => ?_
  rw [hsides] at hserver
  subst hserver
  exact hidle

/-- Once the server has nothing to send and nothing is on its way to the client, both are
established, and they have matching keys at every level. -/
theorem established_when_quiet (hR : Rested R done) (hkeys : Matched keys) {x : Wire σ}
    {hops : List Hop} (hx : Introduced R keys done x) (hsmooth : Along (next R) Smooth x hops)
    (hflight : (run (next R) x hops).flight .client = [])
    (hidle : ((run (next R) x hops).ends .server).firstBusy = none) (side : Side) :
    ((run (next R) x hops).ends side).state = .established ∧
      ∀ id, (((run (next R) x hops).ends side).spaces id).keys = some (keys side id) := by
  obtain ⟨hmet, hsides, -⟩ := met_run hR hkeys hx hsmooth
  generalize run (next R) x hops = y at hmet hsides hflight hidle ⊢
  have hjoined := joined_of_quiet hmet hflight hidle
  exact ⟨established_of_quiet hjoined hsides hidle side, (hjoined.steady side).keyed⟩

theorem established_after_greeting :
    ((run (next plainTls) plainStart plainGreeting).ends .client).state = .established ∧
      ∀ id, (((run (next plainTls) plainStart plainGreeting).ends .client).spaces id).keys =
        some (nullKeys plainMask) :=
  established_when_quiet plainTls_rested plain_matched plainStart_introduced plainGreeting_smooth
    (List.length_eq_zero_iff.mp (by decide +kernel)) (by decide +kernel) .client

/-- All that the server has to say, as `flush_egress` sends it, and all that the client then reads. -/
def exchange : List Hop :=
  List.replicate 4 (.emit .server Endpoint.maxDgram) ++ List.replicate 4 (.arrive .client 0)

lemma Met.open {x : Wire σ} (h : Met R keys done x) (side : Side) : (x.ends side).state ≠ .closed := by
  rcases h with ⟨due, h⟩ | h
  · cases side with
    | client =>
      obtain ⟨_, _, hwaits⟩ := h.client.waits
      rw [hwaits.connecting]
      decide
    | server => exact h.server.open
  · exact (h.steady side).open

lemma Met.server {x : Wire σ} (h : Met R keys done x) :
    Steady (keys .server) done (x.ends .server) := by
  rcases h with ⟨due, h⟩ | h
  · exact h.server
  · exact h.steady .server

/-- With nothing to send there is no change of state to come either. -/
lemma backlog_idle {keys : PacketNumberSpace → Keys} {c : Connection σ} (h : Steady keys done c)
    (hidle : c.firstBusy = none) : c.backlog = 0 := by
  have hestablished := established_of_idle h fun _ => hidle
  simp [backlog, not_busy_of_idle hidle, hestablished]

/-- A call of `egest` that leaves with a packet makes the backlog smaller. -/
lemma idle_after_emits (hR : Rested R done) (hkeys : Matched keys) (n bufLen : Nat) {x : Wire σ}
    (h : Met R keys done x)
    (hsmooth : Along (next R) Smooth x (List.replicate n (.emit .server bufLen)))
    (hbacklog : (x.ends .server).backlog ≤ n) :
    ((run (next R) x (List.replicate n (.emit .server bufLen))).ends .server).firstBusy = none ∧
      ((run (next R) x (List.replicate n (.emit .server bufLen))).flight .client).length ≤
        (x.flight .client).length + n := by
  induction n generalizing x with
  | zero =>
    refine ⟨?_, Nat.le_refl _⟩
    cases hbusy : (x.ends .server).firstBusy with
    | none => exact hbusy
    | some id =>
      have hless := backlog_sent (firstBusy_busy hbusy)
      omega
  | succ n ih =>
    rw [List.replicate_succ] at hsmooth ⊢
    rw [run_cons]
    obtain ⟨hhop, hrest⟩ := hsmooth
    have hmet := (met_next hR hkeys h hhop).1
    rcases next_emit (R := R) (h.open .server) hhop.2.1 with
      ⟨hidle, hnext⟩ | ⟨id, packet, hbusy, -, -, hnext⟩
    · rw [hnext] at hrest hmet ⊢
      have hquiet : (x.ends .server).backlog ≤ n := by
        rw [backlog_idle h.server hidle]
        exact Nat.zero_le n
      obtain ⟨hdone, hlength⟩ := ih h hrest hquiet
      exact ⟨hdone, by omega⟩
    · rw [hnext] at hrest hmet ⊢
      have hless := backlog_sent (firstBusy_busy hbusy)
      have hends := ends_departed x .server id packet
      have hflight : (x.departed .server id packet).flight .client =
          x.flight .client ++ [flying (x.ends .server) id packet] :=
        flight_departed_peer x .server id packet
      obtain ⟨hdone, hlength⟩ := ih hmet hrest (by rw [hends]; omega)
      rw [hflight, List.length_append, List.length_singleton] at hlength
      exact ⟨hdone, by omega⟩

/-- Arrivals leave the other side alone and come to an end. -/
lemma empty_after_arrivals (n : Nat) {x : Wire σ} (h : (x.flight .client).length ≤ n) :
    (run (next R) x (List.replicate n (.arrive .client 0))).flight .client = [] ∧
      (run (next R) x (List.replicate n (.arrive .client 0))).ends .server = x.ends .server := by
  induction n generalizing x with
  | zero => exact ⟨List.length_eq_zero_iff.mp (Nat.le_zero.mp h), rfl⟩
  | succ n ih =>
    rw [List.replicate_succ, run_cons]
    cases hflight : x.flight .client with
    | nil =>
      rw [next_arrive_nil hflight]
      exact ih (by rw [hflight]; exact Nat.zero_le n)
    | cons d rest =>
      rw [hflight, List.length_cons] at h
      have hrest : (landed R x .client d rest).flight .client = rest := flight_landed x .client d rest
      obtain ⟨hempty, hserver⟩ := ih (x := landed R x .client d rest) (by rw [hrest]; omega)
      rw [next_arrive hflight]
      exact ⟨hempty, hserver.trans (ends_landed_peer x .client d rest)⟩

/-- The server's flush and the client's reading of it are the whole handshake: behind them both are
established, with matching keys at every level. -/
theorem established_after_exchange (hR : Rested R done) (hkeys : Matched keys) {x : Wire σ}
    (hx : Introduced R keys done x) (hsmooth : Along (next R) Smooth x exchange) (side : Side) :
    ((run (next R) x exchange).ends side).state = .established ∧
      ∀ id, (((run (next R) x exchange).ends side).spaces id).keys = some (keys side id) := by
  have hmet := (introduced_early hkeys hx).1
  have hsplit := hsmooth
  rw [exchange, along_append] at hsplit
  obtain ⟨hidle, hlength⟩ := idle_after_emits hR hkeys 4 Endpoint.maxDgram (.inl hmet) hsplit.1
    (backlog_le _)
  rw [hx.empty, List.length_nil, Nat.zero_add] at hlength
  obtain ⟨hempty, hserver⟩ := empty_after_arrivals (R := R) 4 hlength
  obtain ⟨hmet', hsides, -⟩ := met_run hR hkeys hx hsmooth
  rw [exchange, run_append] at hmet' hsides ⊢
  rw [← hserver] at hidle
  have hjoined := joined_of_quiet hmet' hempty hidle
  exact ⟨established_of_quiet hjoined hsides hidle side, (hjoined.steady side).keyed⟩

lemma exchange_smooth : Along (next plainTls) Smooth plainStart exchange := by
  decide +kernel

theorem established_after_plain_exchange :
    ((run (next plainTls) plainStart exchange).ends .client).state = .established ∧
      ∀ id, (((run (next plainTls) plainStart exchange).ends .client).spaces id).keys =
        some (nullKeys plainMask) :=
  established_after_exchange plainTls_rested plain_matched plainStart_introduced exchange_smooth
    .client

/-- From the first packet on, what an application reads and what it has still to read is what the
other application has handed over: nothing is lost, repeated or reordered, whether it was handed
over before, during or after the handshake. -/
theorem carried_from_start (hR : Rested R done) (hkeys : Matched keys) {x : Wire σ}
    {hops : List Hop} (hx : Introduced R keys done x) (hsmooth : Along (next R) Smooth x hops)
    (side : Side) :
    hops.flatMap (Hop.handed (peer side)) =
      observed (next R) (output side) x hops ++ (run (next R) x hops).unread side :=
  (met_run hR hkeys hx hsmooth).2.2 side

theorem carried_in_greeting :
    plainGreeting.flatMap (Hop.handed (peer .client)) =
      observed (next plainTls) (output .client) plainStart plainGreeting ++
        (run (next plainTls) plainStart plainGreeting).unread .client :=
  carried_from_start plainTls_rested plain_matched plainStart_introduced plainGreeting_smooth .client

example : observed (next plainTls) (output .client) plainStart plainGreeting = [9] := by
  decide +kernel

end Wire
end DeerQuic
