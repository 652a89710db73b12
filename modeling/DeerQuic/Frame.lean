import DeerQuic.VarInt
import Mathlib.Data.Vector.Basic

/-!
# Frames

All twenty frame types, their parser and their writer. The parser reads through a
cursor that only moves forward; the writer appends to a growing buffer and leaves
there what it wrote before an error.
-/

namespace DeerQuic

open Outcome Checked

inductive FrameError where
  | unknownType (ty : Nat)
  | nonMinimalType (ty : Nat)
  | varInt (error : VarIntError)
  | underflow (frameType expected : Nat)
  | invalidStream
  | invalidPathData
  | invalidCidLength (len : Nat)
  deriving DecidableEq, Repr

structure AckRange where
  gap : Nat
  range : Nat
  deriving DecidableEq, Repr

structure EcnCounts where
  ect0 : Nat
  ect1 : Nat
  ecnCe : Nat
  deriving DecidableEq, Repr

/-- The field is public in the source, so only `new` promises at most 20 bytes. -/
structure ConnectionId where
  bytes : Bytes
  deriving DecidableEq, Repr

/-- The error carries the length as a `u8`. -/
def ConnectionId.new (bytes : Bytes) : Outcome FrameError ConnectionId :=
  if 20 < bytes.length then err (.invalidCidLength (bytes.length % 256)) else ok ⟨bytes⟩

inductive Frame where
  | padding
  | ping
  | ack (largestAck ackDelay : Nat) (ranges : List AckRange) (ecn : Option EcnCounts)
  | resetStream (streamId errorCode finalSize : Nat)
  | stopSending (streamId errorCode : Nat)
  | crypto (offset : Nat) (data : Bytes)
  | newToken (token : Bytes)
  | stream (streamId offset : Nat) (data : Bytes) (fin : Bool)
  | maxData (maximum : Nat)
  | maxStreamData (streamId maximum : Nat)
  | maxStreams (bidi : Bool) (maximum : Nat)
  | dataBlocked (limit : Nat)
  | streamDataBlocked (streamId limit : Nat)
  | streamsBlocked (bidi : Bool) (limit : Nat)
  | newConnectionId (sequence retirePriorTo : Nat) (id : ConnectionId)
      (resetToken : List.Vector UInt8 16)
  | retireConnectionId (sequence : Nat)
  | pathChallenge (data : List.Vector UInt8 8)
  | pathResponse (data : List.Vector UInt8 8)
  | connectionClose (errorCode : Nat) (frameType : Option Nat) (reason : Bytes)
  | handshakeDone
  deriving DecidableEq

namespace Frame

abbrev Cursor := StateT Bytes (Outcome FrameError)

def readU8 : Cursor UInt8 := fun buf =>
  match buf with
  | [] => err (.underflow 0 1)
  | b :: rest => ok (b, rest)

def readVarint : Cursor Nat := fun buf => do
  let (v, n) ← (VarInt.decode buf).mapErr .varInt
  let rest ← sliceFrom buf n
  ok (v, rest)

def readBytes (len : Nat) : Cursor Bytes := fun buf =>
  if buf.length < len then err (.underflow 0 len) else ok (buf.take len, buf.drop len)

def readExact (len : Nat) : Cursor (List.Vector UInt8 len) := fun buf =>
  if h : buf.length < len then err (.underflow 0 len)
  else ok (⟨buf.take len, by simp only [List.length_take]; omega⟩, buf.drop len)

def readVarintBytes : Cursor Bytes := do
  let len ← readVarint
  readBytes len

def readRanges : Nat → Cursor (List AckRange)
  | 0 => pure []
  | count + 1 => do
    let gap ← readVarint
    let range ← readVarint
    let more ← readRanges count
    pure (⟨gap, range⟩ :: more)

def readEcn : Cursor EcnCounts := do
  let ect0 ← readVarint
  let ect1 ← readVarint
  let ecnCe ← readVarint
  pure ⟨ect0, ect1, ecnCe⟩

/-- An `AckRange` takes 16 bytes; the room is asked for before any range is read. -/
def readAck (ecn : Bool) : Cursor Frame := do
  let largestAck ← readVarint
  let ackDelay ← readVarint
  let rangeCount ← readVarint
  let firstRange ← readVarint
  let _ ← (StateT.lift (withCapacity (rangeCount + 1) 16) : Cursor Unit)
  let more ← readRanges rangeCount
  let ecnCounts ← (if ecn then some <$> readEcn else pure none : Cursor (Option EcnCounts))
  pure (.ack largestAck ackDelay (⟨0, firstRange⟩ :: more) ecnCounts)

/-- Without the length bit the data run to the end of the buffer. -/
def readStream (ty : Nat) : Cursor Frame := do
  let streamId ← readVarint
  let offset ← (if ty &&& 0x04 ≠ 0 then readVarint else pure 0 : Cursor Nat)
  let data ← (if ty &&& 0x02 ≠ 0 then readVarintBytes
    else fun buf => ok (buf, []) : Cursor Bytes)
  pure (.stream streamId offset data (decide (ty &&& 0x01 ≠ 0)))

def readNewConnectionId : Cursor Frame := do
  let sequence ← readVarint
  let retirePriorTo ← readVarint
  let cidLen ← readU8
  if ¬ (1 ≤ cidLen.toNat ∧ cidLen.toNat ≤ 20) then
    (StateT.lift (err (.invalidCidLength cidLen.toNat)) : Cursor Frame)
  else do
    let cidBytes ← readBytes cidLen.toNat
    let id ← (StateT.lift (ConnectionId.new cidBytes) : Cursor ConnectionId)
    let resetToken ← readExact 16
    pure (.newConnectionId sequence retirePriorTo id resetToken)

def readConnectionClose (isApp : Bool) : Cursor Frame := do
  let errorCode ← readVarint
  let frameType ← (if isApp then pure none else some <$> readVarint : Cursor (Option Nat))
  let reason ← readVarintBytes
  pure (.connectionClose errorCode frameType reason)

/-- The content of a frame whose type varint decoded to `frameType`. The branch is
chosen by the low eight bits of the type only. -/
def readContent (frameType : Nat) : Cursor Frame :=
  match frameType % 256 with
  | 0x00 => pure .padding
  | 0x01 => pure .ping
  | 0x02 | 0x03 => readAck (decide (frameType &&& 0x01 ≠ 0))
  | 0x04 => do pure (.resetStream (← readVarint) (← readVarint) (← readVarint))
  | 0x05 => do pure (.stopSending (← readVarint) (← readVarint))
  | 0x06 => do pure (.crypto (← readVarint) (← readVarintBytes))
  | 0x07 => do pure (.newToken (← readVarintBytes))
  | 0x08 | 0x09 | 0x0a | 0x0b | 0x0c | 0x0d | 0x0e | 0x0f => readStream (frameType % 256)
  | 0x10 => do pure (.maxData (← readVarint))
  | 0x11 => do pure (.maxStreamData (← readVarint) (← readVarint))
  | 0x12 => do pure (.maxStreams true (← readVarint))
  | 0x13 => do pure (.maxStreams false (← readVarint))
  | 0x14 => do pure (.dataBlocked (← readVarint))
  | 0x15 => do pure (.streamDataBlocked (← readVarint) (← readVarint))
  | 0x16 => do pure (.streamsBlocked true (← readVarint))
  | 0x17 => do pure (.streamsBlocked false (← readVarint))
  | 0x18 => readNewConnectionId
  | 0x19 => do pure (.retireConnectionId (← readVarint))
  | 0x1a => do pure (.pathChallenge (← readExact 8))
  | 0x1b => do pure (.pathResponse (← readExact 8))
  | 0x1c => readConnectionClose false
  | 0x1d => readConnectionClose true
  | 0x1e => pure .handshakeDone
  | _ => StateT.lift (err (.unknownType frameType))

/-- One frame from the front of `buf`, with the number of bytes it took. -/
def parseFrame (buf : Bytes) : Outcome FrameError (Frame × Nat) := do
  let (frameType, _) ← (VarInt.decode buf).mapErr .varInt
  if frameType ≤ 63 ∧ VarInt.encodedLen frameType ≠ 1 then err (.nonMinimalType frameType)
  else do
    let content ← sliceFrom buf 1
    let (frame, rest) ← readContent frameType content
    ok (frame, buf.length - rest.length)

abbrev Writer := Method Bytes FrameError

def putU8 (b : UInt8) : Writer Unit := fun buf => (ok (), buf ++ [b])

def putSlice (data : Bytes) : Writer Unit := fun buf => (ok (), buf ++ data)

def putVarint (v : Nat) : Writer Unit := fun buf =>
  match VarInt.putVarint v with
  | ok written => (ok (), buf ++ written)
  | err e => (err (.varInt e), buf)
  | .panic => (.panic, buf)

def putVarintBytes (data : Bytes) : Writer Unit := do
  putVarint data.length
  putSlice data

def putRanges : List AckRange → Writer Unit
  | [] => pure ()
  | r :: more => do
    putVarint r.gap
    putVarint r.range
    putRanges more

def putEcn : Option EcnCounts → Writer Unit
  | none => pure ()
  | some ecn => do
    putVarint ecn.ect0
    putVarint ecn.ect1
    putVarint ecn.ecnCe

/-- A missing first range is written as 0, but the slice that skips it panics. -/
def putAck (largestAck ackDelay : Nat) (ranges : List AckRange) (ecn : Option EcnCounts) :
    Writer Unit := do
  putU8 (if ecn.isSome then 0x02 ||| 0x01 else 0x02)
  putVarint largestAck
  putVarint ackDelay
  putVarint (ranges.length - 1)
  putVarint ((ranges.head?.map AckRange.range).getD 0)
  let more ← (Method.lift (sliceFrom ranges 1) : Writer (List AckRange))
  putRanges more
  putEcn ecn

/-- The length bit is set exactly when there are data. -/
def streamType (offset : Nat) (data : Bytes) (fin : Bool) : UInt8 :=
  0x08 ||| (if fin then 0x01 else 0) ||| (if 0 < offset then 0x04 else 0) |||
    (if data.isEmpty then 0 else 0x02)

def putStream (streamId offset : Nat) (data : Bytes) (fin : Bool) : Writer Unit := do
  putU8 (streamType offset data fin)
  putVarint streamId
  (if 0 < offset then putVarint offset else pure ())
  (if data.isEmpty then pure () else putVarint data.length)
  putSlice data

def putFrame : Frame → Writer Unit
  | padding => putU8 0x00
  | ping => putU8 0x01
  | ack largestAck ackDelay ranges ecn => putAck largestAck ackDelay ranges ecn
  | resetStream streamId errorCode finalSize => do
    putU8 0x04; putVarint streamId; putVarint errorCode; putVarint finalSize
  | stopSending streamId errorCode => do
    putU8 0x05; putVarint streamId; putVarint errorCode
  | crypto offset data => do putU8 0x06; putVarint offset; putVarintBytes data
  | newToken token => do putU8 0x07; putVarintBytes token
  | stream streamId offset data fin => putStream streamId offset data fin
  | maxData maximum => do putU8 0x10; putVarint maximum
  | maxStreamData streamId maximum => do putU8 0x11; putVarint streamId; putVarint maximum
  | maxStreams bidi maximum => do putU8 (if bidi then 0x12 else 0x13); putVarint maximum
  | dataBlocked limit => do putU8 0x14; putVarint limit
  | streamDataBlocked streamId limit => do putU8 0x15; putVarint streamId; putVarint limit
  | streamsBlocked bidi limit => do putU8 (if bidi then 0x16 else 0x17); putVarint limit
  | newConnectionId sequence retirePriorTo id resetToken => do
    putU8 0x18; putVarint sequence; putVarint retirePriorTo
    putU8 id.bytes.length.toUInt8; putSlice id.bytes; putSlice resetToken.toList
  | retireConnectionId sequence => do putU8 0x19; putVarint sequence
  | pathChallenge data => do putU8 0x1a; putSlice data.toList
  | pathResponse data => do putU8 0x1b; putSlice data.toList
  | connectionClose errorCode (some frameType) reason => do
    putU8 0x1c; putVarint errorCode; putVarint frameType; putVarintBytes reason
  | connectionClose errorCode none reason => do
    putU8 0x1d; putVarint errorCode; putVarintBytes reason
  | handshakeDone => putU8 0x1e

/-- Append the frame to `buf`: the number of bytes written, and the buffer as it is left. -/
def writeFrame (frame : Frame) (buf : Bytes) : Outcome FrameError Nat × Bytes :=
  match putFrame frame buf with
  | (ok _, written) => (ok (written.length - buf.length), written)
  | (err e, written) => (err e, written)
  | (.panic, written) => (.panic, written)

end Frame
end DeerQuic
