import DeerQuic.AckLoop
import DeerQuic.Acks
import DeerQuic.Admission
import DeerQuic.Authentic
import DeerQuic.BigEndian
import DeerQuic.ClientHello
import DeerQuic.Closing
import DeerQuic.Coalescing
import DeerQuic.Confirmation
import DeerQuic.Connection
import DeerQuic.CryptoComplete
import DeerQuic.CryptoInput
import DeerQuic.CryptoOffsets
import DeerQuic.Delivery
import DeerQuic.Draining
import DeerQuic.Egest
import DeerQuic.Endpoint
import DeerQuic.Error
import DeerQuic.Established
import DeerQuic.FirstPacket
import DeerQuic.Frame
import DeerQuic.FrameCapacity
import DeerQuic.FrameCodec
import DeerQuic.FrameGrammar
import DeerQuic.FrameLoop
import DeerQuic.FrameProgress
import DeerQuic.FrameWriter
import DeerQuic.Handshake
import DeerQuic.HandshakeDone
import DeerQuic.Handshaking
import DeerQuic.HeaderBytes
import DeerQuic.HeaderCodec
import DeerQuic.HeaderOffset
import DeerQuic.HeaderParse
import DeerQuic.Heard
import DeerQuic.Ingest
import DeerQuic.InitialBuilders
import DeerQuic.InitialSize
import DeerQuic.Interference
import DeerQuic.Interop
import DeerQuic.Introduction
import DeerQuic.Isolation
import DeerQuic.KeyPlacement
import DeerQuic.Keys
import DeerQuic.Levels
import DeerQuic.LongForm
import DeerQuic.LongNumbers
import DeerQuic.Loop
import DeerQuic.Lossy
import DeerQuic.NumberRecovery
import DeerQuic.Numbering
import DeerQuic.Outcome
import DeerQuic.Packet
import DeerQuic.PacketNumber
import DeerQuic.PanicFree
import DeerQuic.Pipe
import DeerQuic.Protection
import DeerQuic.Readers
import DeerQuic.Refusal
import DeerQuic.Replay
import DeerQuic.RoundTrip
import DeerQuic.Run
import DeerQuic.Sealing
import DeerQuic.ShortCodec
import DeerQuic.Socket
import DeerQuic.Space
import DeerQuic.Steady
import DeerQuic.Stray
import DeerQuic.Stream
import DeerQuic.StreamOffsets
import DeerQuic.Tls
import DeerQuic.Transfer
import DeerQuic.Transition
import DeerQuic.VarInt
import DeerQuic.VarIntCodec
import DeerQuic.Window
import DeerQuic.Wire
