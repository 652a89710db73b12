import DeerQuic.Packet

/-!
# Connection errors

Every error a connection method returns. The payloads are the ones the source
attaches; rustls errors are known here by their text only.
-/

namespace DeerQuic

inductive TransportError where
  | noError
  | internalError
  | connectionRefused
  | flowControlError
  | streamLimitError
  | streamStateError
  | finalSizeError
  | frameEncodingError
  | transportParameterError
  | connectionIdLimitError
  | protocolViolation
  | invalidToken
  | applicationError
  | cryptoBufferExceeded
  | keyUpdateError
  | aeadLimitReached
  | noViablePath
  | versionNegotiationError
  | cryptoError (alert : UInt8)
  deriving DecidableEq, Repr

/-- Codes 0x100 to 0x1ff are TLS alerts; other codes above 0x11 are unknown. -/
def TransportError.fromCode (code : Nat) : Option TransportError :=
  match code with
  | 0x00 => some .noError
  | 0x01 => some .internalError
  | 0x02 => some .connectionRefused
  | 0x03 => some .flowControlError
  | 0x04 => some .streamLimitError
  | 0x05 => some .streamStateError
  | 0x06 => some .finalSizeError
  | 0x07 => some .frameEncodingError
  | 0x08 => some .transportParameterError
  | 0x09 => some .connectionIdLimitError
  | 0x0a => some .protocolViolation
  | 0x0b => some .invalidToken
  | 0x0c => some .applicationError
  | 0x0d => some .cryptoBufferExceeded
  | 0x0e => some .keyUpdateError
  | 0x0f => some .aeadLimitReached
  | 0x10 => some .noViablePath
  | 0x11 => some .versionNegotiationError
  | _ => if 0x0100 ≤ code ∧ code ≤ 0x01ff then some (.cryptoError (code - 0x0100).toUInt8)
    else none

inductive ConnectionError where
  | transport (error : TransportError)
  | tls (error : String)
  | frame (error : FrameError)
  | packet (error : PacketError)
  | closed
  deriving DecidableEq, Repr

namespace ConnectionError

def internal : ConnectionError := .transport .internalError

def protocolViolation : ConnectionError := .transport .protocolViolation

/-- Varint errors are not passed on: they become an internal error. -/
def ofVarInt (_ : VarIntError) : ConnectionError := internal

end ConnectionError
end DeerQuic
