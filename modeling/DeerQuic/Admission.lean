import DeerQuic.KeyPlacement
import DeerQuic.LongForm

/-!
# What `accept` lets in

The keys of a server's first packets are those of version 1, whatever version the client's header
names, and `accept` opens a first packet of any type. The version of the header is stored and goes
into every long packet that the server sends.
-/

namespace DeerQuic

open Outcome Protection Transition

/-- All keys that TLS gives out leave the form of long headers alone. -/
structure FormKept {σ : Type} (R : Rustls σ) : Prop where
  initial : ∀ side cid keys, R.initialKeys side cid = some keys →
    KeepsForm keys.localKeys.header
  change : ∀ tls change, (R.writeHs tls).2.2 = some change →
    KeepsForm change.keys.localKeys.header

/-- The header is the one of an Initial packet of version 1. -/
def LongHeader.IsInitial (hdr : LongHeader) : Prop :=
  hdr.ty = .initial ∧ hdr.version = Packet.version1

instance (hdr : LongHeader) : Decidable hdr.IsInitial := inferInstanceAs (Decidable (_ ∧ _))

namespace Connection

variable {σ : Type} {R : Rustls σ}

/-- The version and the connection IDs of outgoing packets, and keys that keep their form. -/
structure Addressed (version : UInt32) (dstCid srcCid : Bytes) (c : Connection σ) : Prop where
  version : c.version = version
  dstCid : c.dstCid = dstCid
  srcCid : c.srcCid = srcCid
  keys : ∀ id keys, (c.spaces id).keys = some keys → KeepsForm keys.localKeys.header

/-- The type of the long packet that is sent next. A short packet has none. -/
def sentAs (c : Connection σ) : Option LongType :=
  c.firstBusy.bind fun id =>
    if id ≠ .applicationData ∨ c.isEstablished = false then some (longType id) else none

/-- A long packet is parsed as what it was sent as, for the version that the keys are of. -/
def ParsedAsSent (c : Connection σ) (bufLen : Nat) : Prop :=
  ∀ packet ty, (c.egest bufLen).1 = ok packet → packet ≠ [] → c.sentAs = some ty →
    ∃ hdr n, Packet.parseLongHeader packet = ok (hdr, n) ∧ hdr.ty = ty ∧
      hdr.version = Packet.version1

/-- If the datagram makes a server, it does so with an Initial header of version 1, and whatever
the server sends in whatever run is parsed as sent. -/
def ServedWell (R : Rustls σ) (datagram : Bytes) : Prop :=
  ∀ server, accept R datagram = ok server →
    (∃ hdr n, Packet.parseLongHeader datagram = ok (hdr, n) ∧ hdr.IsInitial) ∧
    ∀ ops bufLen, (run (next R) server ops).ParsedAsSent bufLen

variable {version : UInt32} {dstCid srcCid : Bytes}

lemma TlsRun.endpoints {c c' : Connection σ} {es : List Event} (h : TlsRun c es c') :
    c'.version = c.version ∧ c'.dstCid = c.dstCid ∧ c'.srcCid = c.srcCid := by
  induction h with
  | start => exact ⟨rfl, rfl, rfl⟩
  | session _ _ ih | install _ _ _ ih | establish _ _ ih | offset _ _ ih | read _ _ _ ih
  | write _ _ _ _ ih => exact ih

lemma delivered_keepsForm (hR : FormKept R) {level : Nat} {data : Bytes} {tls : σ} {keys : Keys}
    (h : Delivers keys (.tlsRead level data :: answers R level tls)) :
    KeepsForm keys.localKeys.header := by
  obtain ⟨l, out, change, hmem, rfl⟩ := h
  rcases List.mem_cons.mp hmem with hread | hmem
  · cases hread
  · rcases List.mem_cons.mp hmem with hfirst | hmem
    · injection hfirst with _ _ hchange
      exact hR.change _ _ hchange.symm
    · split_ifs at hmem
      · rw [List.mem_singleton] at hmem
        injection hmem with _ _ hchange
        exact hR.change _ _ hchange.symm
      · cases hmem

lemma addressed_tlsRun (hR : FormKept R) {c c' : Connection σ} {level : Nat} {data : Bytes} {tls : σ}
    (h : Addressed version dstCid srcCid c)
    (hrun : TlsRun c (.tlsRead level data :: answers R level tls) c') :
    Addressed version dstCid srcCid c' := by
  obtain ⟨hversion, hdst, hsrc⟩ := hrun.endpoints
  refine ⟨hversion.trans h.version, hdst.trans h.dstCid, hsrc.trans h.srcCid, ?_⟩
  intro id keys hkeys
  rcases hrun.keys_delivered hkeys with hbefore | hdelivered
  · exact h.keys id keys hbefore
  · exact delivered_keepsForm hR hdelivered

lemma addressed_frameNext (hR : FormKept R) (id : PacketNumberSpace) (c : Connection σ)
    (frame : Frame) (h : Addressed version dstCid srcCid c) :
    Addressed version dstCid srcCid (frameNext R id c frame) := by
  generalize hnext : frameNext R id c frame = c'
  have hstep := frameNext_step R id c frame
  rw [hnext] at hstep
  cases hstep with
  | fed _ _ hrun =>
    obtain ⟨hversion, hdst, hsrc, hkeys⟩ := addressed_tlsRun hR h hrun
    exact ⟨hversion, hdst, hsrc, hkeys⟩
  | refused _ _ | skipped _ | closed _ | confirmed _ | stream | ignored _ =>
    exact ⟨h.version, h.dstCid, h.srcCid, h.keys⟩

lemma addressed_recorded {c : Connection σ} (h : Addressed version dstCid srcCid c)
    (id : PacketNumberSpace) (pn : Nat) :
    Addressed version dstCid srcCid (c.recordRecvPn id pn) := by
  refine ⟨h.version, h.dstCid, h.srcCid, ?_⟩
  intro id' keys hkeys
  rw [keys_recorded] at hkeys
  exact h.keys id' keys hkeys

lemma addressed_built {c : Connection σ} (h : Addressed version dstCid srcCid c)
    (id : PacketNumberSpace) : Addressed version dstCid srcCid (c.built id) := by
  have hkeys := (built_same c id).2.2.1
  have hfields : (c.built id).version = c.version ∧ (c.built id).dstCid = c.dstCid ∧
      (c.built id).srcCid = c.srcCid := by
    rw [built, drained_eq]
    exact ⟨rfl, rfl, rfl⟩
  refine ⟨hfields.1.trans h.version, hfields.2.1.trans h.dstCid, hfields.2.2.trans h.srcCid, ?_⟩
  intro id' keys hkeys'
  exact h.keys id' keys (hkeys id' ▸ hkeys')

lemma addressed_next (hR : FormKept R) (c : Connection σ) (op : Op)
    (h : Addressed version dstCid srcCid c) : Addressed version dstCid srcCid (next R c op) := by
  cases op with
  | ingest buf =>
    exact ingest_always (P := Addressed version dstCid srcCid) R
      (fun _ id pn hc => addressed_recorded hc id pn)
      (fun id c frame hc => addressed_frameNext hR id c frame hc) h buf
  | egest bufLen =>
    apply egest_induction bufLen h
    · intro id _ _ _
      exact addressed_built h id
    · intro id _ _ _
      obtain ⟨hversion, hdst, hsrc, hkeys⟩ := addressed_built h id
      exact ⟨hversion, hdst, hsrc, hkeys⟩
  | sendData data | recvData bufLen => exact ⟨h.version, h.dstCid, h.srcCid, h.keys⟩

/-- The server answers under the version of the header, from and to its connection IDs. -/
lemma addressed_accept (hR : FormKept R) {datagram : Bytes} {server : Connection σ}
    (h : accept R datagram = ok server) :
    ∃ hdr keys frames tls, Greeting R datagram hdr keys frames tls ∧
      Addressed hdr.version hdr.srcCid.bytes hdr.dstCid.bytes server := by
  obtain ⟨hdr, keys, frames, tls, c₁, hgreeting, hrun, -, rfl⟩ := accept_greeting h
  refine ⟨hdr, keys, frames, tls, hgreeting, ?_⟩
  have hstart : Addressed hdr.version hdr.srcCid.bytes hdr.dstCid.bytes
      (greeted R hdr keys frames tls) := by
    refine ⟨rfl, rfl, rfl, ?_⟩
    intro id keys' hkeys'
    by_cases hid : id = .initial
    · subst hid
      obtain rfl : keys = keys' := by simpa [greeted, fresh, Space.setKeys] using hkeys'
      exact hR.initial _ _ _ hgreeting.keyed
    · simp [greeted, fresh, hid, Space.new] at hkeys'
  obtain ⟨hversion, hdst, hsrc, hkeys⟩ :=
    addressed_recorded (addressed_tlsRun hR hstart hrun) .initial 0
  exact ⟨hversion, hdst, hsrc, hkeys⟩

/-- A packet that `egest` returns is the one of the first space with something to send. -/
lemma egest_packet {c : Connection σ} {bufLen : Nat} {packet : Bytes}
    (h : (c.egest bufLen).1 = ok packet) (hpacket : packet ≠ []) :
    ∃ id, c.firstBusy = some id ∧ c.packetOf id = ok packet := by
  have hstep := egest_step c bufLen
  rw [h] at hstep
  generalize (c.egest bufLen).2 = c' at hstep
  cases hstep with
  | idle _ _ => exact absurd rfl hpacket
  | tooLong _ _ _ _ => exact absurd rfl hpacket
  | left _ hbusy hbuilt _ _ => exact ⟨_, hbusy, hbuilt⟩

lemma sentAs_longPacket {c : Connection σ} (h : Addressed version dstCid srcCid c) {bufLen : Nat}
    {packet : Bytes} {ty : LongType} (hegest : (c.egest bufLen).1 = ok packet)
    (hpacket : packet ≠ []) (hty : c.sentAs = some ty) :
    ∃ id, ty = longType id ∧ LongPacket id version dstCid srcCid packet := by
  obtain ⟨id, hbusy, hbuilt⟩ := egest_packet hegest hpacket
  have hhas := (firstBusy_busy hbusy).1
  obtain ⟨keys, hkeys⟩ : ∃ keys, (c.spaces id).keys = some keys := by
    exact Option.isSome_iff_exists.mp hhas
  have hlocal : (c.spaces id).localKeys = some keys.localKeys := by
    simp [Space.localKeys, hkeys]
  simp only [sentAs, hbusy, Option.bind_some] at hty
  split_ifs at hty with hlong
  refine ⟨id, (Option.some.inj hty).symm, ?_⟩
  rw [packetOf, h.version, h.dstCid, h.srcCid] at hbuilt
  exact encryptPacket_longPacket hlocal (h.keys id keys hkeys) hlong (encodedPnLen_bounds _ _) hbuilt

/-- Every long packet names the stored version, and with version 0 it is none of its type. -/
theorem sent_version {c : Connection σ} (h : Addressed version dstCid srcCid c)
    (hdst : dstCid.length ≤ 20) (hsrc : srcCid.length ≤ 20) {bufLen : Nat} {packet : Bytes}
    {ty : LongType} (hegest : (c.egest bufLen).1 = ok packet) (hpacket : packet ≠ [])
    (hty : c.sentAs = some ty) :
    ∃ hdr n, Packet.parseLongHeader packet = ok (hdr, n) ∧
      if version = 0 then hdr.ty = .versionNegotiation else hdr.ty = ty ∧ hdr.version = version := by
  obtain ⟨id, rfl, hlong⟩ := sentAs_longPacket h hegest hpacket hty
  by_cases hversion : version = 0
  · subst hversion
    obtain ⟨hdr, n, hparse, hvn⟩ := hlong.parse_versionZero hdst hsrc
    exact ⟨hdr, n, hparse, by simpa using hvn⟩
  · obtain ⟨hdr, n, hparse, hsame⟩ := hlong.parse hversion hdst hsrc
    exact ⟨hdr, n, hparse, by simpa [hversion] using hsame⟩

/-- A datagram is served well unless it makes a server and is not an Initial packet of
version 1. -/
theorem served_well_iff (hR : FormKept R) (datagram : Bytes) :
    ServedWell R datagram ↔
      ∀ hdr keys frames tls, Greeting R datagram hdr keys frames tls → hdr.IsInitial := by
  constructor
  · intro hserved hdr keys frames tls hgreeting
    obtain ⟨server, haccept⟩ := accept_of_greeting hgreeting
    obtain ⟨⟨hdr', n', hparse', hinitial⟩, -⟩ := hserved server haccept
    obtain ⟨n, hparse⟩ := hgreeting.parsed
    obtain ⟨rfl, -⟩ := Prod.mk.inj (ok.inj (hparse.symm.trans hparse'))
    exact hinitial
  · intro hinitial server haccept
    obtain ⟨hdr, keys, frames, tls, hgreeting, haddressed⟩ := addressed_accept hR haccept
    have hform := hinitial hdr keys frames tls hgreeting
    obtain ⟨n, hparse⟩ := hgreeting.parsed
    obtain ⟨hdst, hsrc⟩ := parseLongHeader_cids hparse
    refine ⟨⟨hdr, n, hparse, hform⟩, ?_⟩
    intro ops bufLen packet ty hegest hpacket hty
    have hrun := invariant (P := Addressed hdr.version hdr.srcCid.bytes hdr.dstCid.bytes)
      (addressed_next hR) haddressed ops
    obtain ⟨hdr', n', hparse', hsame⟩ := sent_version hrun hsrc hdst hegest hpacket hty
    rw [hform.2, if_neg (by decide)] at hsame
    exact ⟨hdr', n', hparse', hsame⟩

/-- A TLS that counts how many of the server's flights it has given out. -/
def counting : Rustls Nat where
  serverNameValid _ := true
  newClient := .ok 0
  newServer := .ok 0
  readHs given _ := (given, .ok ())
  writeHs given := (given + 1, serverFlights.getD given ([], none))
  initialKeys _ _ := some (nullKeys plainMask)

lemma counting_formKept : FormKept counting where
  initial := by
    intro side cid keys h
    cases h
    exact nullHeader_keepsForm plainMask
  change := by
    intro given change h
    rcases given with _ | _ | given
    · cases h
      exact nullHeader_keepsForm plainMask
    · cases h
      exact nullHeader_keepsForm plainMask
    · cases h

theorem served_well_plain : ServedWell counting (plainLong .initial 0 [.crypto 0 [1]]) := by
  refine (served_well_iff counting_formKept _).mpr ?_
  intro hdr keys frames tls hgreeting
  obtain ⟨n, hparse⟩ := hgreeting.parsed
  have hinitial : ((Packet.parseLongHeader (plainLong .initial 0 [.crypto 0 [1]])).getD
      (⟨.retry, 0, ⟨[]⟩, ⟨[]⟩, none, none, none, none⟩, 0)).1.IsInitial := by
    decide +kernel
  rw [hparse] at hinitial
  exact hinitial

/-- A Version Negotiation header in front of a packet number, a ClientHello and its padding. -/
def versionless : Bytes :=
  [0xc0, 0, 0, 0, 0, 1, 0x51, 1, 0x50] ++ [0] ++ padTo 20 (Frame.crypto 0 [1]).wire ++
    List.replicate 16 0

def versionlessServer : Connection Nat :=
  (accept counting versionless).getD (fresh .server .handshaking 0 1 [] [] (nullKeys plainMask))

def versionlessAnswer : Bytes := (versionlessServer.egest 2048).1.getD []

def parsedType (packet : Bytes) : Option LongType :=
  match Packet.parseLongHeader packet with
  | ok (hdr, _) => some hdr.ty
  | _ => none

/-- The server that a versionless packet makes answers with a Version Negotiation packet. -/
theorem versionless_admitted :
    accept counting versionless = ok versionlessServer ∧
      parsedType versionless = some .versionNegotiation ∧
      (versionlessServer.egest 2048).1 = ok versionlessAnswer ∧
      versionlessServer.sentAs = some .initial ∧
      parsedType versionlessAnswer = some .versionNegotiation ∧
      ¬ ServedWell counting versionless := by
  have haccept : accept counting versionless = ok versionlessServer :=
    eq_ok_getD (by decide +kernel) _
  have hegest : (versionlessServer.egest 2048).1 = ok versionlessAnswer :=
    eq_ok_getD (by decide +kernel) _
  have hsent : versionlessServer.sentAs = some .initial := by decide +kernel
  have hanswer : parsedType versionlessAnswer = some .versionNegotiation := by decide +kernel
  refine ⟨haccept, by decide +kernel, hegest, hsent, hanswer, ?_⟩
  intro hserved
  obtain ⟨hdr, n, hparse, hty, -⟩ :=
    (hserved _ haccept).2 [] 2048 versionlessAnswer .initial hegest (by decide +kernel) hsent
  rw [parsedType, hparse] at hanswer
  dsimp only at hanswer
  rw [hty] at hanswer
  cases hanswer

end Connection
end DeerQuic
