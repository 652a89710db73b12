import DeerQuic.Protection
import Mathlib.Logic.Function.Basic

/-!
# The connection state machine

`connect` and `accept` create a connection, `ingest` feeds it a datagram, `egest` takes
the next packet out of it, `sendData` and `recvData` move application data. Methods
return their outcome next to the state they leave behind: an error does not undo what
was done before it.

The last field of the state is a history variable. It lists the calls made to TLS, the
packets received, the frames processed, the packets built and sent and the data passed
to and from the application, in order. No method reads it.
-/

namespace DeerQuic

open Outcome Checked Protection

inductive State where
  | connecting
  | handshaking
  | established
  | closed
  deriving DecidableEq, Repr

inductive Event where
  /-- `read_hs` accepted this chunk, taken from a CRYPTO frame of this level. -/
  | tlsRead (level : Nat) (data : Bytes)
  /-- `write_hs` wrote these bytes, which the caller takes to be of this level. -/
  | tlsWrite (level : Nat) (data : Bytes) (change : Option KeyChange)
  | received (space : PacketNumberSpace) (pn : Nat)
  | processed (space : PacketNumberSpace) (frame : Frame)
  /-- These frames were put into a packet of this number; it need not have left. -/
  | built (space : PacketNumberSpace) (pn : Nat) (frames : List Frame)
  | sent (space : PacketNumberSpace) (pn : Nat) (frames : List Frame)
  | queued (data : Bytes)
  | delivered (bufLen : Nat) (data : Bytes)

/-- The arrays over encryption levels are functions of the level; only 0, 1 and 2 are used. -/
structure Connection (σ : Type) where
  side : Side
  state : State
  tls : σ
  version : UInt32
  dstCid : Bytes
  srcCid : Bytes
  spaces : PacketNumberSpace → Space
  pendingCrypto : Nat → Bytes
  cryptoRecvOffset : Nat → Nat
  pendingAppData : Bytes
  receivedAppData : Bytes
  streamSendOffset : Nat
  closeReason : Option ConnectionError
  history : List Event

def pnSpaceToLevel : PacketNumberSpace → Nat
  | .initial => 0
  | .handshake => 1
  | .applicationData => 2

namespace Connection

variable {σ : Type} (R : Rustls σ)

def setSpace (c : Connection σ) (id : PacketNumberSpace) (space : Space) : Connection σ :=
  { c with spaces := Function.update c.spaces id space }

def log (c : Connection σ) (e : Event) : Connection σ := { c with history := c.history ++ [e] }

def isEstablished (c : Connection σ) : Bool := decide (c.state = .established)

def isClosed (c : Connection σ) : Bool := decide (c.state = .closed)

/-- Call `write_hs` into an empty buffer. -/
def writeHs (c : Connection σ) (level : Nat) : (Bytes × Option KeyChange) × Connection σ :=
  let out := R.writeHs c.tls
  (out.2, { c with tls := out.1 }.log (.tlsWrite level out.2.1 out.2.2))

/-- The chunks to queue with their level, and the keys. Which of the two kinds of key
change it was is forgotten here. -/
def processTlsOutput (tlsOut : Option (Bytes × Option KeyChange)) (currentLevel : Nat) :
    List (Nat × Bytes) × Option Keys :=
  match tlsOut with
  | none => ([], none)
  | some (data, change) =>
    (if data.isEmpty then [] else [(currentLevel, data)], change.map KeyChange.keys)

def queueCrypto (c : Connection σ) (cryptoOut : List (Nat × Bytes)) : Connection σ :=
  cryptoOut.foldl (fun c out =>
    if out.1 < 3 then
      { c with pendingCrypto :=
          Function.update c.pendingCrypto out.1 (c.pendingCrypto out.1 ++ out.2) }
    else c) c

def installKeys (c : Connection σ) (id : PacketNumberSpace) (keys : Keys) : Connection σ :=
  c.setSpace id ((c.spaces id).setKeys keys)

/-- Handshake keys came with Initial-level output: install them unless there are some, and
ask TLS again. Keys that come with the second answer go to the ApplicationData space. -/
def afterInitialKeys (c : Connection σ) (keys : Keys) : Connection σ :=
  let c := if (c.spaces .handshake).hasKeys then c else c.installKeys .handshake keys
  let out := c.writeHs R 1
  let c := out.2
  if out.1.1.isEmpty = false ∨ out.1.2.isSome then
    let next := processTlsOutput (some out.1) 1
    let c := c.queueCrypto next.1
    match next.2 with
    | none => c
    | some keys2 =>
      if (c.spaces .applicationData).hasKeys then c
      else { c.installKeys .applicationData keys2 with state := .established }
  else c

/-- 1-RTT keys came with Handshake-level output. Keys of the second answer replace the
ones just installed. -/
def afterHandshakeKeys (c : Connection σ) (keys : Keys) : Connection σ :=
  let c := if (c.spaces .applicationData).hasKeys then c
    else { c.installKeys .applicationData keys with state := .established }
  let out := c.writeHs R 2
  let c := out.2
  if out.1.1.isEmpty = false ∨ out.1.2.isSome then
    let next := processTlsOutput (some out.1) 2
    let c := c.queueCrypto next.1
    match next.2 with
    | none => c
    | some keys2 => c.installKeys .applicationData keys2
  else c

/-- Never fails. New keys at the 1-RTT level are dropped. -/
def handleCryptoOutput (c : Connection σ) (cryptoOut : List (Nat × Bytes))
    (newKeys : Option Keys) (level : Nat) : Connection σ :=
  let c := c.queueCrypto cryptoOut
  match newKeys with
  | none => c
  | some keys =>
    match level with
    | 0 => c.afterInitialKeys R keys
    | 1 => c.afterHandshakeKeys R keys
    | _ => c

/-- A CRYPTO frame at the expected offset: feed TLS, queue what it answers, advance. The
offset is the one of a varint, so the sum stays below `2^64`. -/
def feedCrypto (c : Connection σ) (level : Nat) (data : Bytes) :
    Outcome ConnectionError Unit × Connection σ :=
  let read := R.readHs c.tls data
  match read.2 with
  | .error e => (err (.tls e), { c with tls := read.1 })
  | .ok _ =>
    let c := { c with tls := read.1 }.log (.tlsRead level data)
    let out := c.writeHs R level
    let next := processTlsOutput (some out.1) level
    let c := out.2.handleCryptoOutput R next.1 next.2 level
    (ok (), { c with cryptoRecvOffset :=
      Function.update c.cryptoRecvOffset level (c.cryptoRecvOffset level + data.length) })

/-- ACK frames, and all frames not named here, are accepted and ignored. -/
def processFrame (id : PacketNumberSpace) (c : Connection σ) (frame : Frame) :
    Outcome ConnectionError Unit × Connection σ :=
  let level := pnSpaceToLevel id
  match frame with
  | .crypto offset data =>
    if level ≤ 2 ∧ offset = c.cryptoRecvOffset level then c.feedCrypto R level data
    else (ok (), c)
  | .connectionClose errorCode _ _ =>
    (ok (), { c with
      state := .closed
      closeReason := some (.transport
        ((TransportError.fromCode errorCode).getD .internalError)) })
  | .handshakeDone =>
    if c.side = .client then (ok (), { c with state := .established }) else (ok (), c)
  | .stream _ _ data _ => (ok (), { c with receivedAppData := c.receivedAppData ++ data })
  | _ => (ok (), c)

def processFrames (id : PacketNumberSpace) :
    List Frame → Connection σ → Outcome ConnectionError Unit × Connection σ
  | [], c => (ok (), c)
  | frame :: frames, c =>
    match c.processFrame R id frame with
    | (ok _, c) => processFrames id frames (c.log (.processed id frame))
    | (err e, c) => (err e, c)
    | (.panic, c) => (.panic, c)

def spaceOfType : LongType → Outcome ConnectionError PacketNumberSpace
  | .initial => ok .initial
  | .handshake => ok .handshake
  | .zeroRtt => ok .applicationData
  | _ => .panic

/-- First step of `ingest`: parse the header and decrypt. A short header is read with the
length of the peer's connection ID. -/
def openPacket (c : Connection σ) (buf : Bytes) :
    Outcome ConnectionError (PacketNumberSpace × Nat × List Frame) := do
  let first ← index buf 0
  if first &&& 0x80 = 0 then do
    let (hdr, _) ← (Packet.parseShortHeader buf c.dstCid.length).mapErr .packet
    let (pn, frames) ← decryptAndParse (c.spaces .applicationData) buf (hdrPnOffsetShort hdr)
    ok (.applicationData, pn, frames)
  else do
    let (hdr, _) ← (Packet.parseLongHeader buf).mapErr .packet
    let pnOffset := hdrPnOffsetLong hdr
    let (pn, frames) ← (match hdr.ty with
      | .initial => decryptAndParseLong (c.spaces .initial) buf pnOffset
      | .handshake => decryptAndParseLong (c.spaces .handshake) buf pnOffset
      | .zeroRtt => decryptAndParseLong (c.spaces .applicationData) buf pnOffset
      | .retry | .versionNegotiation => err .protocolViolation :
      Outcome ConnectionError (Nat × List Frame))
    let id ← spaceOfType hdr.ty
    ok (id, pn, frames)

def recordRecvPn (c : Connection σ) (id : PacketNumberSpace) (pn : Nat) : Connection σ :=
  (c.setSpace id ((c.spaces id).recordRecvPn pn)).log (.received id pn)

def ingest (c : Connection σ) (buf : Bytes) : Outcome ConnectionError Nat × Connection σ :=
  if c.state = .closed then (err .closed, c)
  else if buf.isEmpty then (ok 0, c)
  else
    match c.openPacket buf with
    | err e => (err e, c)
    | .panic => (.panic, c)
    | ok (id, pn, frames) =>
      match processFrames R id frames (c.recordRecvPn id pn) with
      | (ok _, c) => (ok buf.length, c)
      | (err e, c) => (err e, c)
      | (.panic, c) => (.panic, c)

/-- The whole queue of the level in one frame, at offset 0. -/
def takeCrypto (c : Connection σ) (level : Nat) : List Frame × Connection σ :=
  let data := c.pendingCrypto level
  (if data.isEmpty then [] else [.crypto 0 data],
    { c with pendingCrypto := Function.update c.pendingCrypto level [] })

/-- One range: its top is the largest pending number, its length the length of the list. -/
def ackFrame (acks : List Nat) : Frame :=
  .ack (acks.max?.getD 0) 0 [⟨0, acks.length - 1⟩] none

def takeAcks (c : Connection σ) (id : PacketNumberSpace) : List Frame × Connection σ :=
  let taken := (c.spaces id).takePendingAcks
  (if taken.1.isEmpty then [] else [ackFrame taken.1], c.setSpace id taken.2)

/-- `entry` is the state when `egest` was called. -/
def takeHandshakeDone (c : Connection σ) (entry : State) (id : PacketNumberSpace) :
    List Frame × Connection σ :=
  if id = .applicationData ∧ c.side = .server ∧ entry = .handshaking then
    ([.handshakeDone], { c with state := .established })
  else ([], c)

def takeAppData (c : Connection σ) (entry : State) (id : PacketNumberSpace) :
    List Frame × Connection σ :=
  if id = .applicationData ∧ entry = .established ∧ c.pendingAppData.isEmpty = false then
    ([.stream 0 c.streamSendOffset c.pendingAppData false],
      { c with
        pendingAppData := []
        streamSendOffset := c.streamSendOffset + c.pendingAppData.length })
  else ([], c)

/-- Everything a space has to send, and the state with the queues emptied. -/
def collectFrames (c : Connection σ) (entry : State) (id : PacketNumberSpace) :
    List Frame × Connection σ :=
  let crypto := c.takeCrypto (pnSpaceToLevel id)
  let acks := crypto.2.takeAcks id
  let done := acks.2.takeHandshakeDone entry id
  let stream := done.2.takeAppData entry id
  (crypto.1 ++ acks.1 ++ done.1 ++ stream.1, stream.2)

/-- Number, encrypt and hand out a packet. The number is used up also when the packet does
not leave. -/
def emit (c : Connection σ) (entry : State) (bufLen : Nat) (id : PacketNumberSpace)
    (frames : List Frame) : Outcome ConnectionError Bytes × Connection σ :=
  let taken := (c.spaces id).takeNextSendPn
  let pn := taken.1
  let c := (c.setSpace id taken.2).log (.built id pn frames)
  let pnLen := encodedPnLen pn taken.2.largestRecvPn
  match encryptPacket taken.2 id c.version c.dstCid c.srcCid frames pn pnLen
      (decide (entry = .established)) with
  | err e => (err e, c)
  | .panic => (.panic, c)
  | ok packet =>
    if bufLen < packet.length then (ok [], c) else (ok packet, c.log (.sent id pn frames))

def egestLoop (entry : State) (bufLen : Nat) :
    List PacketNumberSpace → Connection σ → Outcome ConnectionError Bytes × Connection σ
  | [], c => (ok [], c)
  | id :: rest, c =>
    if (c.spaces id).hasKeys = false then egestLoop entry bufLen rest c
    else
      let taken := c.collectFrames entry id
      if taken.1.isEmpty then egestLoop entry bufLen rest taken.2
      else taken.2.emit entry bufLen id taken.1

/-- The bytes written to the front of a buffer of `bufLen` bytes; the source returns their
number. -/
def egest (c : Connection σ) (bufLen : Nat) : Outcome ConnectionError Bytes × Connection σ :=
  if c.state = .closed then (err .closed, c)
  else egestLoop c.state bufLen [.initial, .handshake, .applicationData] c

def sendData (c : Connection σ) (data : Bytes) : Connection σ :=
  { c with pendingAppData := c.pendingAppData ++ data }.log (.queued data)

def recvData (c : Connection σ) (bufLen : Nat) : Bytes × Connection σ :=
  let n := min c.receivedAppData.length bufLen
  (c.receivedAppData.take n,
    { c with receivedAppData := c.receivedAppData.drop n }.log
      (.delivered bufLen (c.receivedAppData.take n)))

/-- A connection before any TLS output. -/
def fresh (side : Side) (state : State) (tls : σ) (version : UInt32) (dstCid srcCid : Bytes)
    (initialKeys : Keys) : Connection σ where
  side
  state
  tls
  version
  dstCid
  srcCid
  spaces := Function.update Space.new .initial ((Space.new .initial).setKeys initialKeys)
  pendingCrypto _ := []
  cryptoRecvOffset _ := 0
  pendingAppData := []
  receivedAppData := []
  streamSendOffset := 0
  closeReason := none
  history := []

/-- The key change that comes with the ClientHello, if any, is ignored. The two connection
IDs are random in the source. -/
def connect (serverName : String) (dstCid srcCid : Bytes) :
    Outcome ConnectionError (Connection σ × Bytes) := do
  require (R.serverNameValid serverName) .internal
  let tls ← ofExcept .tls R.newClient
  let keys ← ofOption .internal (R.initialKeys .client dstCid)
  let out := (fresh .client .connecting tls Packet.version1 dstCid srcCid keys).writeHs R 0
  let clientHello := out.1.1
  let c := out.2
  let packet ← buildInitialPacket keys dstCid srcCid clientHello 0
  let taken := (c.spaces .initial).takeNextSendPn
  let c := (c.setSpace .initial taken.2).log (.built .initial 0 [.crypto 0 clientHello])
  ok (c.log (.sent .initial 0 [.crypto 0 clientHello]), packet)

/-- The data of every CRYPTO frame that claims offset 0. -/
def clientHelloOf (frames : List Frame) : Bytes :=
  frames.flatMap fun
    | .crypto offset data => if offset = 0 then data else []
    | _ => []

def storeCrypto (c : Connection σ) (cryptoOut : List (Nat × Bytes)) : Connection σ :=
  cryptoOut.foldl (fun c out =>
    if out.1 < 3 then
      { c with pendingCrypto := Function.update c.pendingCrypto out.1 out.2 }
    else c) c

/-- Ask TLS for the answer to the ClientHello, and once more when that brought keys. -/
def acceptTlsOutput (c : Connection σ) : Connection σ :=
  let out := c.writeHs R 0
  let next := processTlsOutput (some out.1) 0
  let c := out.2.storeCrypto next.1
  match next.2 with
  | none => c
  | some keys =>
    let c := c.installKeys .handshake keys
    let out := c.writeHs R 1
    let c := out.2
    if out.1.1.isEmpty = false ∨ out.1.2.isSome then
      let next := processTlsOutput (some out.1) 1
      let c := c.storeCrypto next.1
      match next.2 with
      | none => c
      | some keys2 => c.installKeys .applicationData keys2
    else c

/-- The packet number of the client's packet is not used: 0 is recorded. -/
def accept (initialPacket : Bytes) : Outcome ConnectionError (Connection σ) := do
  let (hdr, _) ← (Packet.parseLongHeader initialPacket).mapErr .packet
  let dstCid := hdr.dstCid.bytes
  let srcCid := hdr.srcCid.bytes
  let serverKeys ← ofOption .internal (R.initialKeys .server dstCid)
  let (frames, _) ← decryptInitial initialPacket hdr serverKeys
  let clientHello := clientHelloOf frames
  let tls ← ofExcept .tls R.newServer
  let read := R.readHs tls clientHello
  let _ ← ofExcept .tls read.2
  let c := (fresh .server .handshaking read.1 hdr.version srcCid dstCid serverKeys).log
    (.tlsRead 0 clientHello)
  let c := c.acceptTlsOutput R
  ok { c.recordRecvPn .initial 0 with
    cryptoRecvOffset := Function.update (fun _ => 0) 0 clientHello.length }

end Connection
end DeerQuic
