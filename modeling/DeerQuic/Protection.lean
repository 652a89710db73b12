import DeerQuic.Space
import DeerQuic.FrameCodec

/-!
# Building and opening protected packets

The two builders and the two openers of the connection. Each pair does the same work
around a different header, so the shared middle is one definition: applying header
protection and assembling the packet, and removing header protection and rebuilding
what the AEAD authenticates.
-/

namespace DeerQuic.Protection

open Outcome Checked

/-- Counts one byte for the token length of an Initial packet and the shortest encoding
of the Length field, whatever the packet really has. -/
def hdrPnOffsetLong (hdr : LongHeader) : Nat :=
  let hdrPrefix := 1 + 4 + 1 + hdr.dstCid.bytes.length + 1 + hdr.srcCid.bytes.length
  let tokenLenSize := if hdr.ty = .initial then 1 else 0
  let lengthFieldSize := (hdr.length.map VarInt.encodedLen).getD 0
  hdrPrefix + tokenLenSize + lengthFieldSize

def hdrPnOffsetShort (hdr : ShortHeader) : Nat := 1 + hdr.dstCid.bytes.length

def hdrSizeLong (dstCidLen srcCidLen _tokenLen length : Nat) : Nat :=
  1 + 4 + 1 + dstCidLen + 1 + srcCidLen + 1 + VarInt.encodedLen length

def encodedPnLen (pn _largestAcked : Nat) : Nat :=
  if pn < 256 then 1 else if pn < 65536 then 2 else 4

/-- The bytes `write_pn` stores; other lengths than 1 to 4 store nothing. -/
def pnField (pn : Nat) : Nat → Bytes
  | 1 => [pn.toUInt8]
  | 2 => [(pn >>> 8).toUInt8, pn.toUInt8]
  | 3 => [(pn >>> 16).toUInt8, (pn >>> 8).toUInt8, pn.toUInt8]
  | 4 => [(pn >>> 24).toUInt8, (pn >>> 16).toUInt8, (pn >>> 8).toUInt8, pn.toUInt8]
  | _ => []

def readPn (bytes : Bytes) : Nat :=
  match bytes.length with
  | 1 | 2 | 3 | 4 => BigEndian.decode bytes
  | _ => 0

/-- Append zeros until there are at least `n` bytes. -/
def padTo (n : Nat) (buf : Bytes) : Bytes := buf ++ List.replicate (n - buf.length) 0

/-- `varint::encode(v, &mut header[pos..])?`. -/
def encodeAt (header : Bytes) (pos v : Nat) : Outcome ConnectionError Bytes := do
  let tail ← sliceFrom header pos
  let (_, tail) ← (VarInt.encode v tail).mapErr .ofVarInt
  ok (header.take pos ++ tail)

/-- Mask the first byte and the packet number with a sample of the sealed payload, which
starts four bytes after the packet number does, and put the packet together. -/
def protectHeader (keys : DirectionalKeys) (header : Bytes) (pnOffset pnLen : Nat)
    (payload : Bytes) : Outcome ConnectionError Bytes := do
  let sampleStart := 4 - pnLen
  let sample ← slice payload sampleStart (sampleStart + keys.header.sampleLen)
  let firstByte ← index header 0
  let pnBytes ← slice header pnOffset (pnOffset + pnLen)
  let (firstByte, pnBytes) ←
    ofOption .internal (keys.header.encryptInPlace sample firstByte pnBytes)
  let header ← copyAt header 0 [firstByte]
  let header ← copyAt header pnOffset pnBytes
  ok (header ++ payload)

/-- 1-RTT data sent before the handshake completes goes out with the 0-RTT type. -/
def spaceTypeBits : PacketNumberSpace → UInt8
  | .initial => 0
  | .applicationData => 1
  | .handshake => 2

/-- The unprotected long header. Of the token only the length is written. -/
def longHeader (pnSpace : PacketNumberSpace) (version : UInt32) (dstCid srcCid : Bytes)
    (pn pnLen : Nat) (token : Option Bytes) (lengthValue : Nat) :
    Outcome ConnectionError (Bytes × Nat) := do
  let tokenLen := (token.map List.length).getD 0
  let hdrPrefix := 1 + 4 + 1 + dstCid.length + 1 + srcCid.length
  let tokenVarintSize := if pnSpace = .initial then VarInt.encodedLen tokenLen else 0
  let pnOffset := hdrPrefix + tokenVarintSize + VarInt.encodedLen lengthValue
  let header : Bytes := List.replicate (pnOffset + pnLen) 0
  let header ← copyAt header 0
    [(0xc0 : UInt8) ||| (spaceTypeBits pnSpace <<< 4) ||| (pnLen - 1).toUInt8]
  let header ← copyAt header 1 (BigEndian.encode 4 version.toNat)
  let header ← copyAt header 5 [dstCid.length.toUInt8]
  let header ← copyAt header 6 dstCid
  let scidPos := 6 + dstCid.length
  let header ← copyAt header scidPos [srcCid.length.toUInt8]
  let header ← copyAt header (scidPos + 1) srcCid
  let tokenPos := scidPos + 1 + srcCid.length
  let header ← (if pnSpace = .initial then do
      let header ← encodeAt header tokenPos tokenLen
      encodeAt header (tokenPos + VarInt.encodedLen tokenLen) lengthValue
    else encodeAt header tokenPos lengthValue : Outcome ConnectionError Bytes)
  let header ← copyAt header pnOffset (pnField pn pnLen)
  ok (header, pnOffset)

def encryptLong (keys : DirectionalKeys) (pnSpace : PacketNumberSpace) (version : UInt32)
    (dstCid srcCid frames : Bytes) (pn pnLen : Nat) (token : Option Bytes) :
    Outcome ConnectionError Bytes := do
  let lengthValue := pnLen + frames.length + keys.packet.tagLen
  let (header, pnOffset) ← longHeader pnSpace version dstCid srcCid pn pnLen token lengthValue
  let (sealed, tag) ← ofOption .internal (keys.packet.encryptInPlace pn header frames)
  protectHeader keys header pnOffset pnLen (sealed ++ tag)

/-- A packet number length of 4 is coded as 0, the other lengths as themselves. -/
def encryptShort (keys : DirectionalKeys) (dstCid frames : Bytes) (pn pnLen : Nat)
    (keyPhase : Bool) : Outcome ConnectionError Bytes := do
  let pnOffset := 1 + dstCid.length
  let header : Bytes := List.replicate (pnOffset + pnLen) 0
  let pnLenEnc : UInt8 := if pnLen = 4 then 0 else pnLen.toUInt8
  let header ← copyAt header 0 [(0x40 : UInt8) ||| (if keyPhase then 0x04 else 0) ||| pnLenEnc]
  let header ← copyAt header 1 dstCid
  let header ← copyAt header pnOffset (pnField pn pnLen)
  let (sealed, tag) ← ofOption .internal (keys.packet.encryptInPlace pn header frames)
  protectHeader keys header pnOffset pnLen (sealed ++ tag)

def writeFrames : List Frame → Bytes → Outcome FrameError Bytes
  | [], buf => ok buf
  | f :: fs, buf =>
    match Frame.writeFrame f buf with
    | (ok _, buf) => writeFrames fs buf
    | (err e, _) => err e
    | (.panic, _) => .panic

/-- Serialise, pad an Initial packet towards 1200 bytes and any packet to the size of a
header protection sample, then seal. -/
def encryptPacket (space : Space) (pnSpace : PacketNumberSpace) (version : UInt32)
    (dstCid srcCid : Bytes) (frames : List Frame) (pn pnLen : Nat) (isEstablished : Bool) :
    Outcome ConnectionError Bytes := do
  let localKeys ← ofOption .internal space.localKeys
  let tagLen := localKeys.packet.tagLen
  let isLong := pnSpace ≠ .applicationData ∨ isEstablished = false
  let framesBuf ← (writeFrames frames []).mapErr .frame
  let hdrEstimate := if isLong then
      hdrSizeLong dstCid.length srcCid.length 0 (framesBuf.length + pnLen + tagLen)
    else 1 + dstCid.length + pnLen
  let framesBuf := if pnSpace = .initial then padTo (1200 - (hdrEstimate + tagLen)) framesBuf
    else framesBuf
  let framesBuf := padTo (localKeys.header.sampleLen + 4 - pnLen) framesBuf
  if isLong then
    encryptLong localKeys pnSpace version dstCid srcCid framesBuf pn pnLen
      (if pnSpace = .initial then some [] else none)
  else encryptShort localKeys dstCid framesBuf pn pnLen false

/-- The first packet of a client, packet number 0 in one byte. -/
def buildInitialPacket (keys : Keys) (dstCid srcCid clientHello : Bytes) (tokenLen : Nat) :
    Outcome ConnectionError Bytes := do
  let pnLen := 1
  let tagLen := keys.localKeys.packet.tagLen
  let framesBuf ← (writeFrames [.crypto 0 clientHello] []).mapErr .frame
  let hdrEst := hdrSizeLong dstCid.length srcCid.length tokenLen
    (framesBuf.length + pnLen + tagLen)
  let framesBuf := padTo (1200 - (hdrEst + tagLen)) framesBuf
  encryptLong keys.localKeys .initial Packet.version1 dstCid srcCid framesBuf 0 pnLen (some [])

/-- The frame loop. Every frame takes at least one byte, so fuel of the payload's length
never runs out. -/
def parseFramesFuel : Nat → Bytes → Outcome FrameError (List Frame)
  | _, [] => ok []
  | 0, _ :: _ => .panic
  | fuel + 1, b :: bs => do
    let (frame, consumed) ← Frame.parseFrame (b :: bs)
    let remaining ← sliceFrom (b :: bs) consumed
    let frames ← parseFramesFuel fuel remaining
    ok (frame :: frames)

def parseFrames (plaintext : Bytes) : Outcome FrameError (List Frame) :=
  parseFramesFuel plaintext.length plaintext

def longPnLen (firstByte : UInt8) : Nat := (firstByte &&& 0x03).toNat + 1

def shortPnLen (firstByte : UInt8) : Nat :=
  match (firstByte &&& 0x03).toNat with
  | 0 => 4
  | n => n

/-- Remove header protection, recover the packet number and rebuild the associated data:
what the AEAD is called with. The opener of long packets passes 0 for the largest known
packet number. -/
def aeadInput (pnLenOf : UInt8 → Nat) (largestKnown : Nat) (remote : DirectionalKeys)
    (packet : Bytes) (pnOffset : Nat) : Outcome ConnectionError (Nat × Bytes × Bytes) := do
  let sampleStart := pnOffset + 4
  let sample ← slice packet sampleStart (sampleStart + remote.header.sampleLen)
  let pnEnd := min (pnOffset + 4) packet.length
  let firstByte ← index packet 0
  let pnBytes ← slice packet pnOffset pnEnd
  let (firstByte, pnBytes) ← ofOption .protocolViolation
    (remote.header.decryptInPlace sample firstByte (padTo 4 pnBytes))
  let pnLen := pnLenOf firstByte
  let pnBytes ← slice pnBytes 0 pnLen
  let fullPn ← Packet.decodePacketNumber largestKnown (readPn pnBytes) pnLen
  let aadLen := pnOffset + pnLen
  let aad ← slice packet 0 aadLen
  let aad ← copyAt aad 0 [firstByte]
  let aad ← copyAt aad pnOffset pnBytes
  let encrypted ← sliceFrom packet aadLen
  ok (fullPn, aad, encrypted)

def openPayload (remote : DirectionalKeys) (input : Nat × Bytes × Bytes) :
    Outcome ConnectionError (Nat × List Frame) := do
  let (fullPn, aad, encrypted) := input
  let plaintext ← ofOption .protocolViolation
    (remote.packet.decryptInPlace fullPn aad encrypted)
  let frames ← (parseFrames plaintext).mapErr .frame
  ok (fullPn, frames)

def decryptAndParseLongInner (packet : Bytes) (pnOffset : Nat) (remote : DirectionalKeys) :
    Outcome ConnectionError (Nat × List Frame) := do
  let needed := pnOffset + 4 + remote.header.sampleLen
  require (needed ≤ packet.length) (.packet (.bufferTooShort needed packet.length))
  let input ← aeadInput longPnLen 0 remote packet pnOffset
  openPayload remote input

def decryptAndParseLong (space : Space) (packet : Bytes) (pnOffset : Nat) :
    Outcome ConnectionError (Nat × List Frame) := do
  let remote ← ofOption .internal space.remoteKeys
  decryptAndParseLongInner packet pnOffset remote

def decryptInitial (packet : Bytes) (hdr : LongHeader) (keys : Keys) :
    Outcome ConnectionError (List Frame × Nat) := do
  let (pn, frames) ← decryptAndParseLongInner packet (hdrPnOffsetLong hdr) keys.remoteKeys
  ok (frames, pn)

/-- Short packets: nothing checks that the packet reaches to the end of the sample. -/
def decryptAndParse (space : Space) (packet : Bytes) (pnOffset : Nat) :
    Outcome ConnectionError (Nat × List Frame) := do
  let remote ← ofOption .internal space.remoteKeys
  let input ← aeadInput shortPnLen space.largestRecvPn remote packet pnOffset
  openPayload remote input

end DeerQuic.Protection
