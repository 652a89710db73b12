import DeerQuic.Admission

/-!
# Where the packet number begins

The parser finds the packet number by reading all that stands in front of it. The position that
header protection, associated data and decryption use is computed a second time, from the parsed
fields of a long header and from the length of a connection ID of a short one.
-/

namespace DeerQuic

open Outcome Checked

namespace Protection

/-- The bits of the first byte that tell the long packet types apart. -/
def typeBits (buf : Bytes) : Nat := ((buf.getD 0 0 >>> 4) &&& (0x03 : UInt8)).toNat

/-- Where the fields that depend on the type begin, as the two length bytes have it. -/
def fieldsStart (buf : Bytes) : Nat :=
  let dstCidLen := (buf.getD 5 0).toNat
  let srcCidLen := (buf.getD (6 + dstCidLen) 0).toNat
  6 + dstCidLen + 1 + srcCidLen

lemma CidReads.fieldsStart_eq {first : UInt8} {version : UInt32} {dstCid srcCid buf : Bytes}
    (h : CidReads first version dstCid srcCid buf) (hdst : dstCid.length ≤ 20)
    (hsrc : srcCid.length ≤ 20) : fieldsStart buf = cidEnd dstCid srcCid := by
  rw [fieldsStart, index_getD h.dstLen, lengthByte hdst, index_getD h.srcLen, lengthByte hsrc,
    cidEnd]

lemma parseToken_token {buf : Bytes} {pos stop : Nat} {token : Option Bytes}
    (h : Packet.parseToken .initial buf pos = ok (token, stop)) :
    ∃ tokenLen n, VarInt.decode (buf.drop pos) = ok (tokenLen, n) ∧ stop = pos + n + tokenLen := by
  simp only [Packet.parseToken, if_true, bind_eq_ok, mapErr_eq_ok, sliceFrom_eq_ok,
    Prod.exists] at h
  obtain ⟨_, ⟨-, rfl⟩, tokenLen, n, hdecode, -, -, token', -, hout⟩ := h
  exact ⟨tokenLen, n, hdecode, (Prod.mk.inj (ok.inj hout)).2.symm⟩

/-- A header with a packet number has a Length in front of it. -/
lemma parseLengthAndPn_length {first : UInt8} {ty : LongType} {version : UInt32}
    {dstCid srcCid : ConnectionId} {token : Option Bytes} {buf : Bytes} {pos n k : Nat}
    {hdr : LongHeader}
    (h : Packet.parseLengthAndPn first ty version dstCid srcCid token buf pos = ok (hdr, n))
    (hpn : hdr.pnLen = some k) :
    hdr.ty = ty ∧ ∃ lengthValue width, VarInt.decode (buf.drop pos) = ok (lengthValue, width) ∧
      hdr.length = some lengthValue ∧ n = pos + width + k := by
  cases lengthRead h with
  | retry _ => cases hpn
  | field _ _ hdecode _ _ =>
    obtain rfl := Option.some.inj hpn
    exact ⟨rfl, _, _, hdecode, rfl, rfl⟩

/-- What the parser did on its way to a header with a packet number. -/
lemma parseLongHeader_fields {buf : Bytes} {hdr : LongHeader} {n k : Nat}
    (h : Packet.parseLongHeader buf = ok (hdr, n)) (hpn : hdr.pnLen = some k) :
    LongType.fromBits (typeBits buf) = some hdr.ty ∧
      fieldsStart buf = 7 + hdr.dstCid.bytes.length + hdr.srcCid.bytes.length ∧
      ∃ token pos lengthValue width,
        Packet.parseToken hdr.ty buf (fieldsStart buf) = ok (token, pos) ∧
        VarInt.decode (buf.drop pos) = ok (lengthValue, width) ∧ hdr.length = some lengthValue ∧
        n = pos + width + k := by
  obtain ⟨first, version, hreads, ⟨hdst, hsrc⟩, -, hbehind⟩ := parseLongHeader_reads h
  cases hbehind with
  | versionNegotiation _ hhdr _ =>
    rw [hhdr] at hpn
    cases hpn
  | @typed ty token pos _ _ hty htoken hout =>
    obtain ⟨hhdrTy, lengthValue, width, hdecode, hlength, hn⟩ := parseLengthAndPn_length hout hpn
    rw [typeBits, index_getD hreads.form, hreads.fieldsStart_eq hdst hsrc, hhdrTy]
    refine ⟨hty, ?_, token, pos, lengthValue, width, htoken, hdecode, hlength, hn⟩
    rw [cidEnd]
    omega

/-- The variable-length integer at `pos` is in its shortest encoding. -/
def ShortestAt (buf : Bytes) (pos : Nat) : Prop :=
  ∃ v, VarInt.decode (buf.drop pos) = ok (v, VarInt.encodedLen v)

/-- The layout that is counted on: the token of an Initial packet is empty and its length one
byte, and the Length field is in its shortest encoding. -/
def PlainFields (buf : Bytes) : Prop :=
  if typeBits buf = 0 then
    VarInt.decode (buf.drop (fieldsStart buf)) = ok (0, 1) ∧ ShortestAt buf (fieldsStart buf + 1)
  else ShortestAt buf (fieldsStart buf)

lemma shortestAt_iff {buf : Bytes} {pos v n : Nat} (h : VarInt.decode (buf.drop pos) = ok (v, n)) :
    ShortestAt buf pos ↔ n = VarInt.encodedLen v := by
  unfold ShortestAt
  constructor
  · rintro ⟨v', hv'⟩
    obtain ⟨rfl, hn⟩ := Prod.mk.inj (ok.inj (h.symm.trans hv'))
    exact hn
  · intro hn
    exact ⟨v, hn ▸ h⟩

lemma typeBits_initial {bits : Nat} {ty : LongType} (h : LongType.fromBits bits = some ty) :
    bits = 0 ↔ ty = .initial := by
  constructor
  · rintro rfl
    exact (Option.some.inj h).symm
  · rintro rfl
    unfold LongType.fromBits at h
    split at h
    · rfl
    all_goals cases h

/-- The computed position is the parsed one exactly on that layout: every other one has more
bytes in front of the packet number than are counted. -/
theorem pn_offset_agrees_iff {buf : Bytes} {hdr : LongHeader} {n k : Nat}
    (hparse : Packet.parseLongHeader buf = ok (hdr, n)) (hpn : hdr.pnLen = some k) :
    hdrPnOffsetLong hdr = n - k ↔ PlainFields buf := by
  obtain ⟨hty, hstart, token, pos, lengthValue, width, htoken, hdecode, hlength, rfl⟩ :=
    parseLongHeader_fields hparse hpn
  have hwidth := VarInt.encodedLen_le_of_decode hdecode
  unfold hdrPnOffsetLong PlainFields
  dsimp only
  rw [hlength, Option.map_some, Option.getD_some, Nat.add_sub_cancel]
  by_cases hinitial : hdr.ty = .initial
  · rw [if_pos hinitial, if_pos ((typeBits_initial hty).mpr hinitial)]
    rw [hinitial] at htoken
    obtain ⟨tokenLen, tokenWidth, htokenLen, rfl⟩ := parseToken_token htoken
    have hpos := (VarInt.decode_bounds htokenLen).1
    rw [htokenLen, ok.injEq, Prod.mk.injEq]
    constructor
    · intro hoffset
      have hempty : tokenLen = 0 ∧ tokenWidth = 1 := by omega
      obtain ⟨rfl, rfl⟩ := hempty
      exact ⟨⟨rfl, rfl⟩, (shortestAt_iff hdecode).mpr (by omega)⟩
    · rintro ⟨⟨rfl, rfl⟩, hshortest⟩
      have heq := (shortestAt_iff hdecode).mp hshortest
      omega
  · rw [if_neg hinitial, if_neg fun hbits => hinitial ((typeBits_initial hty).mp hbits)]
    rw [parseToken_none hinitial] at htoken
    obtain ⟨-, rfl⟩ := Prod.mk.inj (ok.inj htoken)
    rw [shortestAt_iff hdecode]
    omega

/-- An Initial packet without token, its Length in one byte. -/
theorem pn_offset_agrees_iff_plain :
    hdrPnOffsetLong ⟨.initial, 1, ⟨[7]⟩, ⟨[9]⟩, some [], some 5, some 3, some 1⟩ = 12 - 1 ↔
      PlainFields [0xc0, 0, 0, 0, 1, 1, 7, 1, 9, 0, 5, 3] :=
  pn_offset_agrees_iff (by decide +kernel) rfl

/-- A token of one byte moves the packet number, and not where it is looked for. -/
theorem token_moves_packet_number :
    ∃ hdr, Packet.parseLongHeader [0xc0, 0, 0, 0, 1, 1, 7, 1, 9, 1, 0x55, 5, 3] = ok (hdr, 13) ∧
      hdr.pnLen = some 1 ∧ hdrPnOffsetLong hdr ≠ 13 - 1 := by
  refine ⟨⟨.initial, 1, ⟨[7]⟩, ⟨[9]⟩, some [0x55], some 5, some 3, some 1⟩, ?_, rfl, ?_⟩
  · decide +kernel
  · decide +kernel

/-- A short header ends its connection ID where it was told that it ends. -/
lemma parseShortHeader_cid {buf : Bytes} {dstCidLen n : Nat} {hdr : ShortHeader}
    (h : Packet.parseShortHeader buf dstCidLen = ok (hdr, n)) :
    hdr.dstCid.bytes = (buf.drop 1).take dstCidLen ∧ hdr.dstCid.bytes.length = dstCidLen := by
  simp only [Packet.parseShortHeader, bind_eq_ok, newCid_eq_ok] at h
  obtain ⟨-, -, first, -, -, -, -, -, -, -, -, -, -, -, dstBytes, hdst, dstCid, ⟨-, rfl⟩, -, -,
    field, -, truncated, -, hout⟩ := h
  obtain ⟨rfl, -⟩ := Prod.mk.inj (ok.inj hout)
  have hlen := slice_length hdst
  obtain ⟨-, rfl⟩ := slice_eq_ok.mp hdst
  rw [Nat.add_sub_cancel_left] at hlen ⊢
  exact ⟨rfl, hlen⟩

/-- The packet number of a built short packet stands behind the connection ID. -/
lemma encryptShort_form {keys : DirectionalKeys} {dstCid frames packet : Bytes} {pn pnLen : Nat}
    {keyPhase : Bool} (hpn : 1 ≤ pnLen ∧ pnLen ≤ 4)
    (h : encryptShort keys dstCid frames pn pnLen keyPhase = ok packet) :
    ∃ first pnBytes payload, packet = first :: (dstCid ++ (pnBytes ++ payload)) ∧
      pnBytes.length = pnLen := by
  have hheader := shortHeader_eq dstCid pn hpn (shortFirst pnLen keyPhase)
  simp only [bind_eq_ok] at hheader
  obtain ⟨header₁, h₁, header₂, h₂, h₃⟩ := hheader
  unfold shortFirst at h₁
  simp only [encryptShort, h₁, h₂, h₃, ok_bind, bind_eq_ok, ofOption_eq_ok] at h
  obtain ⟨⟨sealed, tag⟩, -, hprotect⟩ := h
  have hfield := pnField_length hpn pn
  rw [Nat.add_comm 1] at hprotect
  obtain ⟨-, first, pnBytes, -, hpacket, hlen, -⟩ := protectHeader_form hfield hprotect
  exact ⟨first, pnBytes, _, hpacket, hlen.trans hfield⟩

end Protection

namespace Connection

open Protection

variable {σ τ : Type}

/-- Where `ingest` takes the packet number of a short packet to be. -/
def shortPnOffset (c : Connection σ) (buf : Bytes) : Outcome PacketError Nat := do
  let (hdr, _) ← Packet.parseShortHeader buf c.dstCid.length
  ok (hdrPnOffsetShort hdr)

lemma openPacket_of_shortPnOffset {c : Connection σ} {buf : Bytes} {offset : Nat}
    (h : c.shortPnOffset buf = ok offset) :
    c.openPacket buf = decryptAndParse (c.spaces .applicationData) buf offset >>= fun out =>
      ok (.applicationData, out.1, out.2) := by
  simp only [shortPnOffset, bind_eq_ok, Prod.exists] at h
  obtain ⟨hdr, n, hparse, hout⟩ := h
  obtain rfl := ok.inj hout
  cases buf with
  | nil => simp [Packet.parseShortHeader, Packet.ensure] at hparse
  | cons first rest =>
    have hform : first &&& 0x80 = 0 := by
      simp only [Packet.parseShortHeader, bind_eq_ok, require_eq_ok] at hparse
      obtain ⟨-, -, first', hindex, -, hform, -⟩ := hparse
      obtain rfl := ok.inj hindex
      exact hform
    have hfirst : (index (first :: rest) 0 : Outcome ConnectionError UInt8) = ok first := rfl
    rw [openPacket, hfirst, ok_bind, if_pos hform, hparse]
    rfl

/-- A server names the client as the client's first packet does, and is named as it is there. -/
theorem accept_names_back {R : Rustls σ} {datagram : Bytes} {server : Connection σ}
    (h : accept R datagram = ok server) :
    ∃ hdr n, Packet.parseLongHeader datagram = ok (hdr, n) ∧
      server.dstCid = hdr.srcCid.bytes ∧ server.srcCid = hdr.dstCid.bytes := by
  obtain ⟨hdr, keys, frames, tls, c₁, ⟨⟨n, hparse⟩, -⟩, hrun, -, rfl⟩ := accept_greeting h
  obtain ⟨-, hdst, hsrc⟩ := hrun.endpoints
  exact ⟨hdr, n, hparse, hdst, hsrc⟩

variable {A : Connection σ} {B : Connection τ}

/-- `A` writes the packet number behind the connection ID of `B`. `B`, which decrypts from the offset
it finds, takes that ID to be as long as the one of `A`. -/
theorem own_cid_stripped_iff (hto : A.dstCid = B.srcCid) (hfrom : A.srcCid = B.dstCid)
    {keys : DirectionalKeys} {frames packet : Bytes} {pn pnLen : Nat} {keyPhase : Bool}
    (hpn : 1 ≤ pnLen ∧ pnLen ≤ 4)
    (hseal : encryptShort keys A.dstCid frames pn pnLen keyPhase = ok packet) {offset : Nat}
    (hoffset : B.shortPnOffset packet = ok offset) :
    (B.openPacket packet = decryptAndParse (B.spaces .applicationData) packet offset >>= fun out =>
      ok (.applicationData, out.1, out.2)) ∧
    ∃ first pnBytes payload, packet = (first :: A.dstCid) ++ (pnBytes ++ payload) ∧
      pnBytes.length = pnLen ∧
      (offset = (first :: A.dstCid).length ∧ (packet.take offset).drop 1 = B.srcCid ↔
        A.srcCid.length = A.dstCid.length) := by
  obtain ⟨first, pnBytes, payload, rfl, hlen⟩ := encryptShort_form hpn hseal
  refine ⟨openPacket_of_shortPnOffset hoffset, first, pnBytes, payload, rfl, hlen, ?_⟩
  simp only [shortPnOffset, bind_eq_ok, Prod.exists] at hoffset
  obtain ⟨hdr, n, hparse, hout⟩ := hoffset
  obtain rfl : 1 + hdr.dstCid.bytes.length = offset := ok.inj hout
  rw [(parseShortHeader_cid hparse).2, ← hfrom, List.length_cons]
  constructor
  · rintro ⟨hsame, -⟩
    omega
  · intro hsame
    refine ⟨by omega, ?_⟩
    rw [hsame, ← hto, Nat.add_comm 1, List.take_succ_cons, List.drop_succ_cons, List.drop_zero,
      List.take_left]

/-- The two ends of a connection as `connect` and `accept` leave their IDs. -/
def namedBack (dstCid srcCid : Bytes) : Connection Unit × Connection Unit :=
  (fresh .client .established () 1 dstCid srcCid (nullKeys plainMask),
    fresh .server .established () 1 srcCid dstCid (nullKeys plainMask))

theorem own_cid_stripped_iff_equal :
    ∃ packet first pnBytes payload,
      encryptShort (nullDirection plainMask) [7, 8] (List.replicate 20 1) 3 1 false = ok packet ∧
      ((namedBack [7, 8] [5, 6]).2.openPacket packet =
        decryptAndParse ((namedBack [7, 8] [5, 6]).2.spaces .applicationData) packet 3 >>= fun out =>
          ok (.applicationData, out.1, out.2)) ∧
      packet = (first :: [7, 8]) ++ (pnBytes ++ payload) ∧ pnBytes.length = 1 ∧
      (3 = (first :: [(7 : UInt8), 8]).length ∧ (packet.take 3).drop 1 = [7, 8] ↔
        [(5 : UInt8), 6].length = [(7 : UInt8), 8].length) := by
  have hseal := eq_ok_getD (x := encryptShort (nullDirection plainMask) [7, 8]
    (List.replicate 20 1) 3 1 false) (by decide +kernel) []
  have hoffset : (namedBack [7, 8] [5, 6]).2.shortPnOffset ((encryptShort
      (nullDirection plainMask) [7, 8] (List.replicate 20 1) 3 1 false).getD []) = ok 3 := by
    decide +kernel
  obtain ⟨hopen, first, pnBytes, payload, hstripped⟩ := own_cid_stripped_iff
    (A := (namedBack [7, 8] [5, 6]).1) (B := (namedBack [7, 8] [5, 6]).2) rfl rfl (by decide) hseal
    hoffset
  exact ⟨_, first, pnBytes, payload, hseal, hopen, hstripped⟩

/-- A client without a connection ID of its own: its server looks for the packet number where the
server's ID begins. -/
theorem short_cid_length_mistaken :
    (namedBack [7, 8] []).1.dstCid = (namedBack [7, 8] []).2.srcCid ∧
    (namedBack [7, 8] []).1.srcCid = (namedBack [7, 8] []).2.dstCid ∧
    ∃ packet, encryptShort (nullDirection plainMask) (namedBack [7, 8] []).1.dstCid
        (List.replicate 20 1) 3 1 false = ok packet ∧
      (namedBack [7, 8] []).2.shortPnOffset packet = ok 1 ∧
      packet.take 4 = [0x41, 7, 8, 3] := by
  have hseal := eq_ok_getD (x := encryptShort (nullDirection plainMask)
    (namedBack [7, 8] []).1.dstCid (List.replicate 20 1) 3 1 false) (by decide +kernel) []
  exact ⟨rfl, rfl, _, hseal, by decide +kernel, by decide +kernel⟩

end Connection
end DeerQuic
