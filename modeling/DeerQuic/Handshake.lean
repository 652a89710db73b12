import DeerQuic.Protection

/-!
# The client's first packet, built by the handshake

The handshake module has a builder of its own for what `build_initial_packet` of the connection
builds too. It lays the header out for a Length field of two bytes.
-/

namespace DeerQuic

open Outcome Checked

/-- The errors that building a packet can end in. Of an internal error the text is kept up to what
rustls says. -/
inductive HandshakeError where
  | varInt (error : VarIntError)
  | frame (error : FrameError)
  | internal (text : String)
  deriving DecidableEq, Repr

namespace Handshake

def minInitialSize : Nat := 1200

/-- `varint::encode(v, &mut header[pos..])?`, with an error that keeps the varint error. -/
def encodeInto (header : Bytes) (pos v : Nat) : Outcome HandshakeError Bytes := do
  let tail ← sliceFrom header pos
  let (_, tail) ← (VarInt.encode v tail).mapErr .varInt
  ok (header.take pos ++ tail)

/-- Up to the packet number: one byte for the token length, two for the Length. -/
def headerPnOffset (dstCid srcCid : Bytes) : Nat :=
  let hdrPrefixLen := 1 + 4 + 1 + dstCid.length + 1 + srcCid.length
  let tokenLenVarintSize := 1
  let lengthFieldSize := 2
  hdrPrefixLen + tokenLenVarintSize + lengthFieldSize

/-- The unprotected header, with packet number 0 in one byte. -/
def initialHeader (dstCid srcCid : Bytes) (lengthValue : Nat) : Outcome HandshakeError Bytes := do
  let pnLen := 1
  let pnOffset := headerPnOffset dstCid srcCid
  let header : Bytes := List.replicate (pnOffset + pnLen) 0
  let header ← copyAt header 0 [(0xc0 : UInt8) ||| (pnLen - 1).toUInt8]
  let header ← copyAt header 1 (BigEndian.encode 4 Packet.version1.toNat)
  let header ← copyAt header 5 [dstCid.length.toUInt8]
  let header ← copyAt header 6 dstCid
  let scidPos := 6 + dstCid.length
  let header ← copyAt header scidPos [srcCid.length.toUInt8]
  let header ← copyAt header (scidPos + 1) srcCid
  let tokenPos := scidPos + 1 + srcCid.length
  let header ← encodeInto header tokenPos 0
  let lengthPos := tokenPos + 1
  let header ← encodeInto header lengthPos lengthValue
  copyAt header pnOffset [0]

/-- Mask the header with a sample of the sealed payload, and put the packet together. -/
def protectInitial (keys : DirectionalKeys) (header : Bytes) (pnOffset pnLen : Nat)
    (payload : Bytes) : Outcome HandshakeError Bytes := do
  let sampleStart := 4 - pnLen
  let sample ← slice payload sampleStart (sampleStart + keys.header.sampleLen)
  let firstByte ← index header 0
  let pnByte ← index header pnOffset
  let (firstByte, pnBytes) ← ofOption (.internal "header protection")
    (keys.header.encryptInPlace sample firstByte [pnByte])
  let header ← copyAt header 0 [firstByte]
  let pnByte ← index pnBytes 0
  let header ← copyAt header pnOffset [pnByte]
  ok (header ++ payload)

/-- The payload is as long as the CRYPTO frame or as the smallest datagram has room for. -/
def buildAndProtectInitial (keys : Keys) (dstCid srcCid clientHello : Bytes) :
    Outcome HandshakeError Bytes := do
  let pn := 0
  let pnLen := 1
  let tagLen := keys.localKeys.packet.tagLen
  let framesBuf ← (Protection.writeFrames [.crypto 0 clientHello] []).mapErr .frame
  let pnOffset := headerPnOffset dstCid srcCid
  let headerTotal := pnOffset + pnLen
  let plaintextMin := minInitialSize - (headerTotal + tagLen)
  let plaintextLen := max framesBuf.length plaintextMin
  let payload ← copyAt (List.replicate plaintextLen 0) 0 framesBuf
  let lengthValue := pnLen + plaintextLen + tagLen
  let header ← initialHeader dstCid srcCid lengthValue
  let (sealed, tag) ← ofOption (.internal "AEAD encrypt")
    (keys.localKeys.packet.encryptInPlace pn header payload)
  protectInitial keys.localKeys header pnOffset pnLen (sealed ++ tag)

end Handshake
end DeerQuic
