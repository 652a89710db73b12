import Mathlib.Tactic.IntervalCases
import DeerQuic.HeaderParse

/-!
# Long headers: round trip

The writer goes by the fields that are present, the parser by the type bits and the version. On
a header whose fields are those of its type the two agree.
-/

namespace DeerQuic

open Outcome Checked Packet Protection

/-- The types whose packets have a Length and a packet number. -/
def LongType.numbered : LongType → Bool
  | .initial | .zeroRtt | .handshake => true
  | .retry | .versionNegotiation => false

/-- The fields of a header are those of its type, and 0 stands for the packet number. -/
structure LongHeader.WellFormed (hdr : LongHeader) : Prop where
  dstCid : hdr.dstCid.bytes.length ≤ 20
  srcCid : hdr.srcCid.bytes.length ≤ 20
  version : hdr.version = 0 ↔ hdr.ty = .versionNegotiation
  token : hdr.token.isSome ↔ hdr.ty = .initial
  length : hdr.length.isSome ↔ hdr.ty.numbered
  lengthFits : ∀ n ∈ hdr.length, n ≤ VarInt.varintMax
  pnLen : hdr.pnLen.isSome ↔ hdr.ty.numbered
  pnLenRange : ∀ n ∈ hdr.pnLen, 1 ≤ n ∧ n ≤ 4
  truncatedPn : hdr.truncatedPn = if hdr.ty.numbered then some 0 else none

/-- A token is as long as a variable-length integer can say. -/
def LongHeader.TokenFits (hdr : LongHeader) : Prop :=
  ∀ token ∈ hdr.token, token.length ≤ VarInt.varintMax

namespace LongHeader

/-- A header without packet number has the low bits 0, as if the number took one byte. -/
def firstByte (ty : LongType) (pnLen : Nat) : UInt8 :=
  let tyBits : UInt8 := ty.toBits.toUInt8 <<< 4
  0x80 ||| 0x40 ||| tyBits ||| (pnLen - 1).toUInt8

def tokenWire : Option Bytes → Bytes
  | none => []
  | some token => VarInt.wire token.length ++ token

def lengthWire : Option Nat → Bytes
  | none => []
  | some length => VarInt.wire length

/-- What follows the connection IDs. -/
def fieldsWire (hdr : LongHeader) : Bytes :=
  tokenWire hdr.token ++ (lengthWire hdr.length ++ List.replicate (hdr.pnLen.getD 0) 0)

def wire (hdr : LongHeader) : Bytes :=
  cidWire (firstByte hdr.ty (hdr.pnLen.getD 1)) hdr.version hdr.dstCid.bytes hdr.srcCid.bytes
    hdr.fieldsWire

end LongHeader

namespace Packet

lemma pnLenBits_eq {pnLen : Option Nat} (h : ∀ n ∈ pnLen, 1 ≤ n ∧ n ≤ 4) :
    pnLenBits pnLen = ok (pnLen.getD 1 - 1).toUInt8 := by
  rcases pnLen with _ | _ | n
  · rfl
  · exact absurd (h 0 rfl).1 (by decide)
  · rfl

@[simp] lemma putBytes_apply (bytes buf : Bytes) : putBytes bytes buf = (ok (), buf ++ bytes) :=
  rfl

lemma putVarint_apply {v : Nat} (hv : v ≤ VarInt.varintMax) (buf : Bytes) :
    putVarint v buf = (ok (), buf ++ VarInt.wire v) := by
  simp only [putVarint, VarInt.putVarint_eq hv]

lemma putToken_apply {token : Option Bytes} (h : ∀ t ∈ token, t.length ≤ VarInt.varintMax)
    (buf : Bytes) : putToken token buf = (ok (), buf ++ LongHeader.tokenWire token) := by
  cases token with
  | none => simp [putToken, LongHeader.tokenWire]
  | some t =>
    have hfits := h t rfl
    simp [putToken, Method.bind_apply, Method.andThen, putVarint_apply hfits, LongHeader.tokenWire]

lemma putToken_too_long {token : Bytes} (h : VarInt.varintMax < token.length) (buf : Bytes) :
    putToken (some token) buf = (err (.varInt (.valueTooLarge token.length)), buf) := by
  simp only [putToken, Method.bind_apply, Method.andThen, putVarint, VarInt.putVarint_too_large h]

lemma putLength_apply {length : Option Nat} (h : ∀ n ∈ length, n ≤ VarInt.varintMax)
    (buf : Bytes) : putLength length buf = (ok (), buf ++ LongHeader.lengthWire length) := by
  cases length with
  | none => simp [putLength, LongHeader.lengthWire]
  | some n => exact putVarint_apply (h n rfl) buf

lemma putPnPlaceholder_apply (pnLen : Option Nat) (buf : Bytes) :
    putPnPlaceholder pnLen buf = (ok (), buf ++ List.replicate (pnLen.getD 0) 0) := by
  cases pnLen with
  | none => simp [putPnPlaceholder]
  | some n => rfl

lemma putLongHeader_apply {hdr : LongHeader} (h : hdr.WellFormed) (htoken : hdr.TokenFits)
    (buf : Bytes) : putLongHeader hdr buf = (ok (), buf ++ hdr.wire) := by
  have hbits := pnLenBits_eq h.pnLenRange
  have htokenPut := putToken_apply htoken
  have hlengthPut := putLength_apply h.lengthFits
  simp [putLongHeader, Method.bind_apply, Method.andThen, hbits, htokenPut, hlengthPut,
    putPnPlaceholder_apply, LongHeader.wire, LongHeader.fieldsWire, LongHeader.firstByte, cidWire]

lemma firstByte_bits (ty : LongType) {pnLen : Nat} (h : 1 ≤ pnLen ∧ pnLen ≤ 4) :
    LongHeader.firstByte ty pnLen &&& 0x80 ≠ 0 ∧ LongHeader.firstByte ty pnLen &&& 0x40 ≠ 0 ∧
      (LongHeader.firstByte ty pnLen &&& 0x03).toNat + 1 = pnLen := by
  obtain ⟨hlow, hhigh⟩ := h
  interval_cases pnLen <;> cases ty <;> decide

lemma firstByte_type {ty : LongType} (hty : ty ≠ .versionNegotiation) {pnLen : Nat}
    (h : 1 ≤ pnLen ∧ pnLen ≤ 4) :
    LongType.fromBits ((LongHeader.firstByte ty pnLen >>> 4) &&& 0x03).toNat = some ty := by
  obtain ⟨hlow, hhigh⟩ := h
  cases ty with
  | versionNegotiation => exact absurd rfl hty
  | _ => interval_cases pnLen <;> decide

lemma readPn_zeros {n : Nat} (h : 1 ≤ n ∧ n ≤ 4) (rest : Bytes) :
    readPn (List.replicate n 0 ++ rest) n = ok 0 := by
  obtain ⟨hlow, hhigh⟩ := h
  interval_cases n <;> simp [readPn, slice, List.replicate, BigEndian.decode]

lemma parseToken_wire {ty : LongType} {token : Option Bytes} (h : token.isSome ↔ ty = .initial)
    (hfits : ∀ t ∈ token, t.length ≤ VarInt.varintMax) (before after : Bytes) :
    parseToken ty (before ++ (LongHeader.tokenWire token ++ after)) before.length =
      ok (token, before.length + (LongHeader.tokenWire token).length) := by
  cases token with
  | none =>
    have hty : ty ≠ .initial := fun heq => by simpa using h.mpr heq
    exact parseToken_none hty _ _
  | some t =>
    have hty : ty = .initial := h.mp rfl
    subst hty
    have hparse := parseToken_some t before after (hfits t rfl)
    simpa [LongHeader.tokenWire, Nat.add_assoc] using hparse

/-- The parser reads the fields of the type from behind the token, and no byte more. -/
lemma parseLengthAndPn_wire {hdr : LongHeader} (h : hdr.WellFormed)
    (hty : hdr.ty ≠ .versionNegotiation) (before rest : Bytes) :
    parseLengthAndPn (LongHeader.firstByte hdr.ty (hdr.pnLen.getD 1)) hdr.ty hdr.version hdr.dstCid
      hdr.srcCid hdr.token (before ++ (LongHeader.lengthWire hdr.length ++
        (List.replicate (hdr.pnLen.getD 0) 0 ++ rest))) before.length =
      ok (hdr, before.length + (LongHeader.lengthWire hdr.length).length + hdr.pnLen.getD 0) := by
  obtain ⟨ty, version, dstCid, srcCid, token, length, truncatedPn, pnLen⟩ := hdr
  obtain ⟨-, -, -, htoken, hlength, hlengthFits, hpnLen, hrange, htruncated⟩ := h
  simp only at *
  cases hnumbered : ty.numbered with
  | true =>
    obtain ⟨n, rfl⟩ := Option.isSome_iff_exists.mp (hlength.mpr hnumbered)
    obtain ⟨k, rfl⟩ := Option.isSome_iff_exists.mp (hpnLen.mpr hnumbered)
    have hk := hrange k rfl
    have hretry : ty ≠ .retry := fun heq => by simp [heq, LongType.numbered] at hnumbered
    have hfield := parseLengthAndPn_field hretry version dstCid srcCid token before
      (List.replicate k 0) rest (hlengthFits n rfl)
      (by simpa using (firstByte_bits ty hk).2.2) (by simpa using readPn_zeros hk rest)
    simpa [LongHeader.lengthWire, htruncated, hnumbered] using hfield
  | false =>
    have hretry : ty = .retry := by
      cases ty with
      | retry => rfl
      | versionNegotiation => exact absurd rfl hty
      | _ => cases hnumbered
    subst hretry
    have hnoLength : length = none := by simpa [LongType.numbered] using hlength
    have hnoPnLen : pnLen = none := by simpa [LongType.numbered] using hpnLen
    have hnoToken : token = none := by simpa using htoken
    subst hnoLength hnoPnLen hnoToken
    simp [parseLengthAndPn_retry, LongHeader.lengthWire, htruncated, LongType.numbered]

lemma pnLen_range {hdr : LongHeader} (h : hdr.WellFormed) :
    1 ≤ hdr.pnLen.getD 1 ∧ hdr.pnLen.getD 1 ≤ 4 := by
  cases hpnLen : hdr.pnLen with
  | none => exact ⟨Nat.le_refl 1, by decide⟩
  | some n => exact h.pnLenRange n hpnLen

theorem parseLongHeader_wire {hdr : LongHeader} (h : hdr.WellFormed) (htoken : hdr.TokenFits)
    (rest : Bytes) : parseLongHeader (hdr.wire ++ rest) = ok (hdr, hdr.wire.length) := by
  have hbits := firstByte_bits hdr.ty (pnLen_range h)
  have hreads := cidReads (LongHeader.firstByte hdr.ty (hdr.pnLen.getD 1)) hdr.version
    hdr.dstCid.bytes hdr.srcCid.bytes (hdr.fieldsWire ++ rest)
  rw [cidWire_append] at hreads
  by_cases hty : hdr.ty = .versionNegotiation
  · have hversion := h.version.mpr hty
    rw [hversion] at hreads
    have hparse := parseLongHeader_versionZero hreads hbits.1 h.dstCid h.srcCid
    obtain ⟨ty, version, dstCid, srcCid, token, length, truncatedPn, pnLen⟩ := hdr
    subst hty hversion
    obtain ⟨-, -, -, htokens, hlength, -, hpnLen, -, htruncated⟩ := h
    have hnoToken : token = none := by simpa using htokens
    have hnoLength : length = none := by simpa [LongType.numbered] using hlength
    have hnoPnLen : pnLen = none := by simpa [LongType.numbered] using hpnLen
    have hnoPn : truncatedPn = none := by simpa [LongType.numbered] using htruncated
    subst hnoToken hnoLength hnoPnLen hnoPn
    rw [LongHeader.wire, cidWire_length]
    exact hparse
  · have hversion : hdr.version ≠ 0 := fun heq => hty (h.version.mp heq)
    have htyped := parseLongHeader_typed hreads hbits.1 hbits.2.1
      (firstByte_type hty (pnLen_range h)) hversion h.dstCid h.srcCid
    let front := cidWire (LongHeader.firstByte hdr.ty (hdr.pnLen.getD 1)) hdr.version
      hdr.dstCid.bytes hdr.srcCid.bytes []
    have hfront : cidEnd hdr.dstCid.bytes hdr.srcCid.bytes = front.length := by
      simp [front, cidWire_length]
    have htoken := parseToken_wire h.token htoken front (LongHeader.lengthWire hdr.length ++
      (List.replicate (hdr.pnLen.getD 0) 0 ++ rest))
    have hlength := parseLengthAndPn_wire h hty (front ++ LongHeader.tokenWire hdr.token) rest
    have hbuf : hdr.wire ++ rest = front ++ (LongHeader.tokenWire hdr.token ++
        (LongHeader.lengthWire hdr.length ++
          (List.replicate (hdr.pnLen.getD 0) 0 ++ rest))) := by
      simp [front, LongHeader.wire, LongHeader.fieldsWire, cidWire]
    have hwire : hdr.wire.length = (front ++ LongHeader.tokenWire hdr.token).length +
        (LongHeader.lengthWire hdr.length).length + hdr.pnLen.getD 0 := by
      have hcount := congrArg List.length hbuf
      simp only [List.length_append, List.length_replicate] at hcount ⊢
      omega
    rw [LongHeader.wire] at hbuf
    rw [hbuf, hfront, htoken, ok_bind] at htyped
    rw [List.append_assoc, List.length_append] at hlength
    rw [hwire, LongHeader.wire, hbuf, htyped, List.length_append]
    exact hlength

/-- A header whose fields are those of its type is written, and whatever follows it, is read back. -/
theorem writeLongHeader_parse {hdr : LongHeader} (h : hdr.WellFormed) (htoken : hdr.TokenFits) :
    ∃ written, (∀ buf, writeLongHeader hdr buf = (ok written.length, buf ++ written)) ∧
      ∀ rest, parseLongHeader (written ++ rest) = ok (hdr, written.length) := by
  refine ⟨hdr.wire, fun buf => ?_, parseLongHeader_wire h htoken⟩
  simp [writeLongHeader, putLongHeader_apply h htoken buf]

theorem writeLongHeader_parse_initial : ∃ written, (∀ buf, writeLongHeader
      ⟨.initial, 1, ⟨[7, 8]⟩, ⟨[9]⟩, some [1, 2, 3], some 1200, some 0, some 2⟩ buf =
        (ok written.length, buf ++ written)) ∧
    ∀ rest, parseLongHeader (written ++ rest) =
      ok (⟨.initial, 1, ⟨[7, 8]⟩, ⟨[9]⟩, some [1, 2, 3], some 1200, some 0, some 2⟩,
        written.length) :=
  writeLongHeader_parse
    ⟨by decide, by decide, by decide, by decide, by decide, by decide, by decide, by decide, rfl⟩
    (by simp [LongHeader.TokenFits, VarInt.varintMax])

/-- The bytes in front of the token have been written by then. -/
lemma writeLongHeader_too_long {hdr : LongHeader} (h : hdr.WellFormed) {token : Bytes}
    (htoken : hdr.token = some token) (hlong : VarInt.varintMax < token.length) (buf : Bytes) :
    (writeLongHeader hdr buf).1 = err (.varInt (.valueTooLarge token.length)) := by
  have hbits := pnLenBits_eq h.pnLenRange
  have hput := putToken_too_long hlong
  simp [writeLongHeader, putLongHeader, Method.bind_apply, Method.andThen, hbits, htoken, hput]

/-- An Initial header with a token one byte longer than a varint can say. -/
def longToken : LongHeader :=
  ⟨.initial, 1, ⟨[]⟩, ⟨[]⟩, some (List.replicate (VarInt.varintMax + 1) 0), some 0, some 0, some 1⟩

theorem long_token_refused :
    longToken.WellFormed ∧ ¬ ∃ n, (writeLongHeader longToken []).1 = ok n := by
  have hwellFormed : longToken.WellFormed := by
    constructor
    all_goals simp [longToken, LongType.numbered]
  refine ⟨hwellFormed, ?_⟩
  rintro ⟨n, hwritten⟩
  have hrefused := writeLongHeader_too_long hwellFormed rfl (by simp) []
  rw [hwritten] at hrefused
  cases hrefused

end Packet

end DeerQuic
