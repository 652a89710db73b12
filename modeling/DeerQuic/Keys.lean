import DeerQuic.Error

/-!
# Packet protection and TLS as the code sees them

rustls is not part of this repository. Its keys are records of functions and its
handshake a pair of calls on a state nobody else looks into, so that every result
below holds whatever cipher suite and whatever handshake stand behind them. What a
result does rely on is stated as a law: header protection is an exclusive or with a
mask derived from the sample, and the peer's AEAD key opens what was sealed.
-/

namespace DeerQuic

/-- Works on the first byte and the packet number field in place: the field keeps its
length. -/
structure HeaderProtectionKey where
  sampleLen : Nat
  encryptInPlace : Bytes → UInt8 → Bytes → Option (UInt8 × Bytes)
  decryptInPlace : Bytes → UInt8 → Bytes → Option (UInt8 × Bytes)
  encrypt_length : ∀ {sample first pn first' pn'},
    encryptInPlace sample first pn = some (first', pn') → pn'.length = pn.length
  decrypt_length : ∀ {sample first pn first' pn'},
    decryptInPlace sample first pn = some (first', pn') → pn'.length = pn.length

/-- Takes the packet number, the associated data and the payload. Sealing replaces the
payload in place and returns the tag apart; opening returns the plaintext. -/
structure PacketKey where
  tagLen : Nat
  encryptInPlace : Nat → Bytes → Bytes → Option (Bytes × Bytes)
  decryptInPlace : Nat → Bytes → Bytes → Option Bytes
  encrypt_length : ∀ {pn aad payload sealed tag},
    encryptInPlace pn aad payload = some (sealed, tag) → sealed.length = payload.length

structure DirectionalKeys where
  header : HeaderProtectionKey
  packet : PacketKey

/-- `localKeys` encrypts outgoing packets, `remoteKeys` decrypts incoming ones. -/
structure Keys where
  localKeys : DirectionalKeys
  remoteKeys : DirectionalKeys

inductive KeyChange where
  | handshake (keys : Keys)
  | oneRtt (keys : Keys)

def KeyChange.keys : KeyChange → Keys
  | handshake keys => keys
  | oneRtt keys => keys

inductive Side where
  | client
  | server
  deriving DecidableEq, Repr

/-- The rustls calls the connection makes. `σ` is the state of a TLS session. A rejected
`read_hs` may still have changed it. `writeHs` returns the bytes it wrote and the key
change it announced; `initialKeys` is `none` when the provider has no QUIC suite. -/
structure Rustls (σ : Type) where
  serverNameValid : String → Bool
  newClient : Except String σ
  newServer : Except String σ
  readHs : σ → Bytes → σ × Except String Unit
  writeHs : σ → σ × Bytes × Option KeyChange
  initialKeys : Side → Bytes → Option Keys

/-- The bits of the first byte that header protection covers: four in a long header,
five in a short one. -/
def protectedBits (first : UInt8) : UInt8 :=
  if first &&& 0x80 = 0 then 0x1f else 0x0f

/-- The first byte with the mask applied or removed, which is the same operation. -/
def maskFirst (mask : Bytes) (first : UInt8) : UInt8 :=
  first ^^^ (mask.headD 0 &&& protectedBits first)

/-- The packet number field masked over the length its unprotected first byte announces. -/
def maskPn (mask : Bytes) (plain : UInt8) (pn : Bytes) : Bytes :=
  BigEndian.xorPrefix ((plain &&& 0x03).toNat + 1) mask.tail pn

/-- The two header keys apply one mask of the sample, as RFC 9001 section 5.4.1 has it. -/
structure MaskedBy (sealing opening : HeaderProtectionKey) (mask : Bytes → Bytes) : Prop where
  seal_sample : sealing.sampleLen = 16
  open_sample : opening.sampleLen = 16
  mask_length : ∀ sample, sample.length = 16 → 5 ≤ (mask sample).length
  encrypt : ∀ sample first pn, sample.length = 16 → pn.length ≤ 4 →
    sealing.encryptInPlace sample first pn =
      some (maskFirst (mask sample) first, maskPn (mask sample) first pn)
  decrypt : ∀ sample first pn, sample.length = 16 → pn.length ≤ 4 →
    opening.decryptInPlace sample first pn =
      some (maskFirst (mask sample) first,
        maskPn (mask sample) (maskFirst (mask sample) first) pn)

/-- Sealing succeeds, and the other key opens the sealed payload with its tag. -/
structure Opens (sealing opening : PacketKey) : Prop where
  tag_len : sealing.tagLen = 16
  round_trip : ∀ pn aad payload, ∃ sealed tag,
    sealing.encryptInPlace pn aad payload = some (sealed, tag) ∧ tag.length = 16 ∧
      opening.decryptInPlace pn aad (sealed ++ tag) = some payload

/-- What one side seals with `sealing`, the other side opens with `opening`. -/
structure Paired (sealing opening : DirectionalKeys) (mask : Bytes → Bytes) : Prop where
  header : MaskedBy sealing.header opening.header mask
  packet : Opens sealing.packet opening.packet

/-- Header protection by a given mask function and an AEAD that leaves the payload
readable and appends a tag of zeros: the simplest keys that obey the laws. -/
def nullHeader (mask : Bytes → Bytes) : HeaderProtectionKey where
  sampleLen := 16
  encryptInPlace sample first pn :=
    some (maskFirst (mask sample) first, maskPn (mask sample) first pn)
  decryptInPlace sample first pn :=
    some (maskFirst (mask sample) first,
      maskPn (mask sample) (maskFirst (mask sample) first) pn)
  encrypt_length := by
    intro sample first pn first' pn' h
    cases h
    simp [maskPn]
  decrypt_length := by
    intro sample first pn first' pn' h
    cases h
    simp [maskPn]

def nullPacket : PacketKey where
  tagLen := 16
  encryptInPlace _ _ payload := some (payload, List.replicate 16 0)
  decryptInPlace _ _ payload :=
    if payload.drop (payload.length - 16) = List.replicate 16 0 then
      some (payload.take (payload.length - 16))
    else none
  encrypt_length := by
    intro pn aad payload sealed tag h
    cases h
    rfl

def nullDirection (mask : Bytes → Bytes) : DirectionalKeys := ⟨nullHeader mask, nullPacket⟩

def nullKeys (mask : Bytes → Bytes) : Keys := ⟨nullDirection mask, nullDirection mask⟩

theorem nullDirection_paired {mask : Bytes → Bytes}
    (hmask : ∀ sample, sample.length = 16 → 5 ≤ (mask sample).length) :
    Paired (nullDirection mask) (nullDirection mask) mask where
  header := ⟨rfl, rfl, hmask, fun _ _ _ _ _ => rfl, fun _ _ _ _ _ => rfl⟩
  packet := by
    refine ⟨rfl, fun pn aad payload => ⟨payload, List.replicate 16 0, rfl, by simp, ?_⟩⟩
    simp [nullDirection, nullPacket]

end DeerQuic
