import DeerQuic.Frame

/-!
# Packet headers and packet numbers

Long and short headers as they are parsed off the wire. Header protection is still
in place when this runs, so the low bits of the first byte and the packet number
field of a protected packet are masked values.
-/

namespace DeerQuic

open Outcome Checked

inductive PacketError where
  | bufferTooShort (needed actual : Nat)
  | invalidHeaderForm (expected actual : Nat)
  | fixedBitNotSet
  | reservedBitsSet
  | unknownLongType (bits : Nat)
  | invalidCidLength (len : Nat)
  | varInt (error : VarIntError)
  | frame (error : FrameError)
  deriving DecidableEq, Repr

inductive LongType where
  | initial
  | zeroRtt
  | handshake
  | retry
  | versionNegotiation
  deriving DecidableEq, Repr

def LongType.fromBits : Nat → Option LongType
  | 0 => some .initial
  | 1 => some .zeroRtt
  | 2 => some .handshake
  | 3 => some .retry
  | _ => none

/-- Version Negotiation does not use the type bits. -/
def LongType.toBits : LongType → Nat
  | .initial => 0
  | .zeroRtt => 1
  | .handshake => 2
  | .retry => 3
  | .versionNegotiation => 0

structure LongHeader where
  ty : LongType
  version : UInt32
  dstCid : ConnectionId
  srcCid : ConnectionId
  token : Option Bytes
  length : Option Nat
  truncatedPn : Option Nat
  pnLen : Option Nat
  deriving DecidableEq, Repr

structure ShortHeader where
  spin : Bool
  keyPhase : Bool
  dstCid : ConnectionId
  truncatedPn : Nat
  pnLen : Nat
  deriving DecidableEq, Repr

inductive PacketNumberSpace where
  | initial
  | handshake
  | applicationData
  deriving DecidableEq, Repr

namespace Packet

def maxCidLen : Nat := 20

def version1 : UInt32 := 1

def versionNegotiation : UInt32 := 0

def ensure (buf : Bytes) (need : Nat) : Outcome PacketError Unit :=
  require (need ≤ buf.length) (.bufferTooShort need buf.length)

def newCid (bytes : Bytes) : Outcome PacketError ConnectionId :=
  (ConnectionId.new bytes).mapErr .frame

/-- The big-endian packet number at the front of `buf`; only lengths 1 to 4 are read. -/
def readPn (buf : Bytes) (len : Nat) : Outcome PacketError Nat :=
  match len with
  | 1 | 2 | 3 | 4 => do
    let field ← slice buf 0 len
    ok (BigEndian.decode field)
  | _ => ok 0

/-- A connection ID length of a Version Negotiation packet may take the whole byte, but
`ConnectionId::new` still refuses more than 20. -/
def parseVersionNegotiation (buf : Bytes) : Outcome PacketError (LongHeader × Nat) := do
  ensure buf 6
  let dstLenByte ← index buf 5
  let dstCidLen := dstLenByte.toNat
  require (dstCidLen ≤ 255) (.invalidCidLength dstCidLen)
  ensure buf (6 + dstCidLen + 1)
  let dstBytes ← slice buf 6 (6 + dstCidLen)
  let dstCid ← newCid dstBytes
  let srcLenByte ← index buf (6 + dstCidLen)
  let srcCidLen := srcLenByte.toNat
  let dataStart := 6 + dstCidLen + 1
  ensure buf (dataStart + srcCidLen)
  let srcBytes ← slice buf dataStart (dataStart + srcCidLen)
  let srcCid ← newCid srcBytes
  ok ({ ty := .versionNegotiation, version := versionNegotiation, dstCid, srcCid,
        token := none, length := none, truncatedPn := none, pnLen := none },
    dataStart + srcCidLen)

/-- An Initial packet has a token after its connection IDs, other types have none. -/
def parseToken (ty : LongType) (buf : Bytes) (pos : Nat) :
    Outcome PacketError (Option Bytes × Nat) :=
  if ty = .initial then do
    let rest ← sliceFrom buf pos
    let (tokenLen, n) ← (VarInt.decode rest).mapErr .varInt
    ensure buf (pos + n + tokenLen)
    let token ← slice buf (pos + n) (pos + n + tokenLen)
    ok (some token, pos + n + tokenLen)
  else ok (none, pos)

/-- Length and packet number, which a Retry packet does not have. The packet number
length comes from the low two bits of the first byte, masked or not. -/
def parseLengthAndPn (first : UInt8) (ty : LongType) (version : UInt32)
    (dstCid srcCid : ConnectionId) (token : Option Bytes) (buf : Bytes) (pos : Nat) :
    Outcome PacketError (LongHeader × Nat) :=
  if ty = .retry then
    ok ({ ty, version, dstCid, srcCid, token := none, length := none, truncatedPn := none,
          pnLen := none }, pos)
  else do
    let rest ← sliceFrom buf pos
    let (length, n) ← (VarInt.decode rest).mapErr .varInt
    let pnLen := (first &&& 0x03).toNat + 1
    ensure buf (pos + n + pnLen)
    let field ← sliceFrom buf (pos + n)
    let truncatedPn ← readPn field pnLen
    ok ({ ty, version, dstCid, srcCid, token, length := some length,
          truncatedPn := some truncatedPn, pnLen := some pnLen }, pos + n + pnLen)

/-- The part of `parse_long_header` after the version is known not to be 0. -/
def parseTyped (buf : Bytes) (first : UInt8) (version : UInt32) :
    Outcome PacketError (LongHeader × Nat) := do
  let typeBits := ((first >>> 4) &&& 0x03).toNat
  let ty ← ofOption (.unknownLongType typeBits) (LongType.fromBits typeBits)
  require (first &&& 0x40 ≠ 0) .fixedBitNotSet
  ensure buf 6
  let dstLenByte ← index buf 5
  let dstCidLen := dstLenByte.toNat
  require (dstCidLen ≤ maxCidLen) (.invalidCidLength dstCidLen)
  ensure buf (6 + dstCidLen + 1)
  let dstBytes ← slice buf 6 (6 + dstCidLen)
  let dstCid ← newCid dstBytes
  let srcLenByte ← index buf (6 + dstCidLen)
  let srcCidLen := srcLenByte.toNat
  require (srcCidLen ≤ maxCidLen) (.invalidCidLength srcCidLen)
  let dataStart := 6 + dstCidLen + 1
  ensure buf (dataStart + srcCidLen)
  let srcBytes ← slice buf dataStart (dataStart + srcCidLen)
  let srcCid ← newCid srcBytes
  let (token, pos) ← parseToken ty buf (dataStart + srcCidLen)
  parseLengthAndPn first ty version dstCid srcCid token buf pos

/-- The header, and the number of bytes up to the end of the packet number field. -/
def parseLongHeader (buf : Bytes) : Outcome PacketError (LongHeader × Nat) := do
  ensure buf 1
  let first ← index buf 0
  require (first &&& 0x80 ≠ 0) (.invalidHeaderForm 1 0)
  ensure buf 5
  let versionBytes ← slice buf 1 5
  let version := UInt32.ofNat (BigEndian.decode versionBytes)
  if version = versionNegotiation then parseVersionNegotiation buf
  else parseTyped buf first version

def parseShortHeader (buf : Bytes) (dstCidLen : Nat) :
    Outcome PacketError (ShortHeader × Nat) := do
  ensure buf 1
  let first ← index buf 0
  require (first &&& 0x80 = 0) (.invalidHeaderForm 0 1)
  require (first &&& 0x40 ≠ 0) .fixedBitNotSet
  let reserved := (first >>> 3) &&& 0x03
  require (reserved = 0) .reservedBitsSet
  let pnLen := (first &&& 0x03).toNat
  require (pnLen ≠ 0) .reservedBitsSet
  ensure buf (1 + dstCidLen)
  let dstBytes ← slice buf 1 (1 + dstCidLen)
  let dstCid ← newCid dstBytes
  ensure buf (1 + dstCidLen + pnLen)
  let field ← sliceFrom buf (1 + dstCidLen)
  let truncatedPn ← readPn field pnLen
  ok ({ spin := decide (first &&& 0x20 ≠ 0), keyPhase := decide (first &&& 0x04 ≠ 0),
        dstCid, truncatedPn, pnLen }, 1 + dstCidLen + pnLen)

/-- `expected & !mask` clears the low bits of a 64-bit word. -/
def decodePacketNumber {ε : Type} (largestKnown truncated pnLen : Nat) : Outcome ε Nat := do
  let expected ← addU64 largestKnown 1
  let win := 1 <<< (pnLen * 8)
  let half := win / 2
  let mask := win - 1
  let candidate := (expected &&& (2 ^ 64 - 1 - mask)) ||| truncated
  let above ← addU64 candidate half
  if above ≤ expected then addU64 candidate win
  else do
    let bound ← addU64 expected half
    ok (if bound < candidate ∧ win < candidate then candidate - win else candidate)

abbrev HeaderWriter := Method Bytes PacketError

def putBytes (bytes : Bytes) : HeaderWriter Unit := fun buf => (ok (), buf ++ bytes)

def putVarint (v : Nat) : HeaderWriter Unit := fun buf =>
  match VarInt.putVarint v with
  | ok written => (ok (), buf ++ written)
  | err e => (err (.varInt e), buf)
  | .panic => (.panic, buf)

/-- The length of the packet number less one, computed in a `u8` with overflow checks on. -/
def pnLenBits : Option Nat → Outcome PacketError UInt8
  | none => ok 0
  | some 0 => .panic
  | some (n + 1) => ok n.toUInt8

def putToken : Option Bytes → HeaderWriter Unit
  | none => pure ()
  | some token => do
    putVarint token.length
    putBytes token

def putLength : Option Nat → HeaderWriter Unit
  | none => pure ()
  | some length => putVarint length

/-- Zeros stand for the packet number. -/
def putPnPlaceholder : Option Nat → HeaderWriter Unit
  | none => pure ()
  | some pnLen => putBytes (List.replicate pnLen 0)

/-- Which fields are written depends on which are present, not on the type. -/
def putLongHeader (hdr : LongHeader) : HeaderWriter Unit := do
  let bits ← (Method.lift (pnLenBits hdr.pnLen) : HeaderWriter UInt8)
  let tyBits : UInt8 := hdr.ty.toBits.toUInt8 <<< 4
  let first : UInt8 := 0x80 ||| 0x40 ||| tyBits ||| bits
  putBytes [first]
  putBytes (BigEndian.encode 4 hdr.version.toNat)
  putBytes [hdr.dstCid.bytes.length.toUInt8]
  putBytes hdr.dstCid.bytes
  putBytes [hdr.srcCid.bytes.length.toUInt8]
  putBytes hdr.srcCid.bytes
  putToken hdr.token
  putLength hdr.length
  putPnPlaceholder hdr.pnLen

/-- Append the header to `buf`: the number of bytes written, and the buffer as it is left. -/
def writeLongHeader (hdr : LongHeader) (buf : Bytes) : Outcome PacketError Nat × Bytes :=
  match putLongHeader hdr buf with
  | (ok _, written) => (ok (written.length - buf.length), written)
  | (err e, written) => (err e, written)
  | (.panic, written) => (.panic, written)

/-- The packet number length goes into the low bits as it is. -/
def putShortHeader (hdr : ShortHeader) : HeaderWriter Unit := do
  let first : UInt8 := 0x40 ||| (if hdr.spin then 0x20 else 0) |||
    (if hdr.keyPhase then 0x04 else 0) ||| hdr.pnLen.toUInt8
  putBytes [first]
  putBytes hdr.dstCid.bytes
  putBytes (List.replicate hdr.pnLen 0)

def writeShortHeader (hdr : ShortHeader) (buf : Bytes) : Outcome PacketError Nat × Bytes :=
  match putShortHeader hdr buf with
  | (ok _, written) => (ok (written.length - buf.length), written)
  | (err e, written) => (err e, written)
  | (.panic, written) => (.panic, written)

end Packet
end DeerQuic
