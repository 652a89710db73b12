import DeerQuic.HeaderOffset

/-!
# The bytes of a long header

A parsed header depends on nothing but the bytes up to the position that is returned with it: they
can be cut out and continued in any way. Its connection IDs and its token are slices of them. A
refusal that does not ask for more bytes stands whatever follows.
-/

namespace DeerQuic.Protection

open Outcome Checked

def dstCidLen (buf : Bytes) : Nat := (buf.getD 5 0).toNat

def srcCidLen (buf : Bytes) : Nat := (buf.getD (6 + dstCidLen buf) 0).toNat

/-- The header consists of bytes of the buffer that come before the end of it. -/
structure ReadFrom (buf : Bytes) (hdr : LongHeader) (n : Nat) : Prop where
  least : 7 ≤ n
  room : n ≤ buf.length
  cids : dstCidLen buf ≤ 20 ∧ srcCidLen buf ≤ 20
  dstCid : (slice buf 6 (6 + dstCidLen buf) : Outcome PacketError Bytes) = ok hdr.dstCid.bytes
  srcCid : (slice buf (6 + dstCidLen buf + 1) (fieldsStart buf) : Outcome PacketError Bytes) =
    ok hdr.srcCid.bytes
  cidsEnd : fieldsStart buf ≤ n
  token : ∀ token, hdr.token = some token → ∃ width,
    VarInt.decode (buf.drop (fieldsStart buf)) = ok (token.length, width) ∧
    (slice buf (fieldsStart buf + width) (fieldsStart buf + width + token.length) :
      Outcome PacketError Bytes) = ok token ∧
    fieldsStart buf + width + token.length ≤ n
  tokenOf : hdr.token.isSome = true ↔ hdr.ty = .initial

lemma ensure_take {buf : Bytes} {need n : Nat} (hneed : need ≤ n) (hn : n ≤ buf.length) :
    Packet.ensure (buf.take n) need = ok () := by
  apply ensure_eq
  rw [List.length_take]
  omega

lemma readPn_take {buf : Bytes} {len k pn : Nat} (h : Packet.readPn buf len = ok pn)
    (hk : len ≤ k) : Packet.readPn (buf.take k) len = ok pn := by
  unfold Packet.readPn at h ⊢
  split at h
  all_goals first
    | exact h
    | obtain ⟨field, hfield, hout⟩ := bind_eq_ok.mp h
      rw [slice_take hfield hk]
      exact hout

lemma CidReads.take {first : UInt8} {version : UInt32} {dstCid srcCid buf : Bytes} {n : Nat}
    (h : CidReads first version dstCid srcCid buf) (hn : cidEnd dstCid srcCid ≤ n) :
    CidReads first version dstCid srcCid (buf.take n) := by
  have hroom := h.room
  unfold cidEnd at hn hroom
  constructor
  · rw [List.length_take, cidEnd]
    omega
  · rw [index_take (by omega)]
    exact h.form
  · exact slice_take h.version (by omega)
  · rw [index_take (by omega)]
    exact h.dstLen
  · exact slice_take h.dst (by omega)
  · rw [index_take (by omega)]
    exact h.srcLen
  · exact slice_take h.src hn

/-- What is read of a token, and that nothing behind it matters. -/
structure TokenRead (ty : LongType) (buf : Bytes) (pos : Nat) (token : Option Bytes) (stop : Nat) :
    Prop where
  least : pos ≤ stop
  room : stop ≤ buf.length
  slice : ∀ bytes, token = some bytes → ∃ width,
    VarInt.decode (buf.drop pos) = ok (bytes.length, width) ∧
    (slice buf (pos + width) (pos + width + bytes.length) : Outcome PacketError Bytes) =
      ok bytes ∧ stop = pos + width + bytes.length
  present : token.isSome = true ↔ ty = .initial
  cut : ∀ n, stop ≤ n → n ≤ buf.length →
    Packet.parseToken ty (buf.take n) pos = ok (token, stop)

lemma tokenRead {ty : LongType} {buf : Bytes} {pos stop : Nat} {token : Option Bytes}
    (hpos : pos ≤ buf.length) (h : Packet.parseToken ty buf pos = ok (token, stop)) :
    TokenRead ty buf pos token stop := by
  by_cases hinitial : ty = .initial
  · subst hinitial
    simp only [Packet.parseToken, if_true, bind_eq_ok, mapErr_eq_ok, sliceFrom_eq_ok,
      Prod.exists] at h
    obtain ⟨_, ⟨-, rfl⟩, tokenLen, width, hdecode, ⟨⟩, hensure, bytes, hslice, hout⟩ := h
    obtain ⟨rfl, rfl⟩ := Prod.mk.inj (ok.inj hout)
    have hroom : pos + width + tokenLen ≤ buf.length := require_eq_ok.mp hensure
    have hlen := slice_length hslice
    rw [Nat.add_sub_cancel_left] at hlen
    subst hlen
    refine ⟨by omega, hroom, ?_, by simp, ?_⟩
    · intro bytes' hbytes
      obtain rfl := Option.some.inj hbytes
      exact ⟨width, hdecode, hslice, rfl⟩
    · intro n hstop hn
      rw [Packet.parseToken, if_pos rfl, sliceFrom_take (by omega) hn, ok_bind,
        VarInt.decode_take hdecode (by omega), mapErr_ok, ok_bind]
      dsimp only
      rw [ensure_take hstop hn, ok_bind, slice_take hslice hstop, ok_bind]
  · rw [parseToken_none hinitial] at h
    obtain ⟨rfl, rfl⟩ := Prod.mk.inj (ok.inj h)
    exact ⟨Nat.le_refl _, hpos, by simp, by simp [hinitial],
      fun n _ _ => parseToken_none hinitial _ _⟩

/-- The header ends behind what came before it, and nothing behind its end matters. -/
lemma parseLengthAndPn_take {first : UInt8} {ty : LongType} {version : UInt32}
    {dstCid srcCid : ConnectionId} {token : Option Bytes} {buf : Bytes} {pos n : Nat}
    {hdr : LongHeader} (hpos : pos ≤ buf.length)
    (h : Packet.parseLengthAndPn first ty version dstCid srcCid token buf pos = ok (hdr, n)) :
    (pos ≤ n ∧ n ≤ buf.length) ∧
      Packet.parseLengthAndPn first ty version dstCid srcCid token (buf.take n) pos =
        ok (hdr, n) := by
  cases lengthRead h with
  | retry hretry =>
    subst hretry
    exact ⟨⟨Nat.le_refl _, hpos⟩, rfl⟩
  | field hretry _ hdecode hroom hpn =>
    refine ⟨⟨by omega, hroom⟩, ?_⟩
    rw [Packet.parseLengthAndPn, if_neg hretry, sliceFrom_take (by omega) hroom, ok_bind,
      VarInt.decode_take hdecode (by omega), mapErr_ok, ok_bind]
    dsimp only
    rw [ensure_take (Nat.le_refl _) hroom, ok_bind, sliceFrom_take (by omega) hroom, ok_bind,
      readPn_take hpn (by omega), ok_bind]

/-- The type and the token go into the header as they were read; a Retry packet has no token. -/
lemma parseLengthAndPn_token {first : UInt8} {ty : LongType} {version : UInt32}
    {dstCid srcCid : ConnectionId} {token : Option Bytes} {buf : Bytes} {pos n : Nat}
    {hdr : LongHeader}
    (h : Packet.parseLengthAndPn first ty version dstCid srcCid token buf pos = ok (hdr, n)) :
    hdr.ty = ty ∧ hdr.token = if ty = .retry then none else token := by
  cases lengthRead h with
  | retry hretry => exact ⟨rfl, (if_pos hretry).symm⟩
  | field hretry _ _ _ _ => exact ⟨rfl, (if_neg hretry).symm⟩

/-- What a header owes to the connection IDs that were read, whatever was done behind them. -/
lemma readFrom_of {first : UInt8} {version : UInt32} {buf : Bytes} {hdr : LongHeader} {n : Nat}
    (hreads : CidReads first version hdr.dstCid.bytes hdr.srcCid.bytes buf)
    (hcids : hdr.dstCid.bytes.length ≤ 20 ∧ hdr.srcCid.bytes.length ≤ 20)
    (hend : cidEnd hdr.dstCid.bytes hdr.srcCid.bytes ≤ n) (hn : n ≤ buf.length)
    (htoken : ∀ token, hdr.token = some token → ∃ width,
      VarInt.decode (buf.drop (fieldsStart buf)) = ok (token.length, width) ∧
      (slice buf (fieldsStart buf + width) (fieldsStart buf + width + token.length) :
        Outcome PacketError Bytes) = ok token ∧
      fieldsStart buf + width + token.length ≤ n)
    (hpresent : hdr.token.isSome = true ↔ hdr.ty = .initial) : ReadFrom buf hdr n := by
  have hdstLen : dstCidLen buf = hdr.dstCid.bytes.length := by
    rw [dstCidLen, index_getD hreads.dstLen, lengthByte hcids.1]
  have hsrcLen : srcCidLen buf = hdr.srcCid.bytes.length := by
    rw [srcCidLen, hdstLen, index_getD hreads.srcLen, lengthByte hcids.2]
  have hstart := hreads.fieldsStart_eq hcids.1 hcids.2
  have hseven : 7 ≤ cidEnd hdr.dstCid.bytes hdr.srcCid.bytes := by
    unfold cidEnd
    omega
  refine ⟨hseven.trans hend, hn, by rw [hdstLen, hsrcLen]; exact hcids, ?_, ?_, ?_, htoken,
    hpresent⟩
  · rw [hdstLen]
    exact hreads.dst
  · rw [hdstLen, hstart, cidEnd]
    exact hreads.src
  · rw [hstart]
    exact hend

/-- The header is read from the bytes up to its end, and read again from them alone. -/
lemma parseLongHeader_take {buf : Bytes} {hdr : LongHeader} {n : Nat}
    (h : Packet.parseLongHeader buf = ok (hdr, n)) :
    ReadFrom buf hdr n ∧ Packet.parseLongHeader (buf.take n) = ok (hdr, n) := by
  obtain ⟨first, version, hreads, hcids, hform, hbehind⟩ := parseLongHeader_reads h
  have hroom := hreads.room
  obtain ⟨hdst, hsrc⟩ := hcids
  cases hbehind with
  | versionNegotiation hversion hhdr hn =>
    subst hversion hn
    refine ⟨readFrom_of hreads ⟨hdst, hsrc⟩ (Nat.le_refl _) hroom ?_ ?_, ?_⟩
    · rw [hhdr]
      simp
    · rw [hhdr]
      simp
    · rw [parseLongHeader_versionZero (hreads.take (Nat.le_refl _)) hform hdst hsrc, ← hhdr]
  | @typed ty token pos hversion hfixed hty htoken hout =>
    have htokenRead := tokenRead hroom htoken
    obtain ⟨⟨hpos, hn⟩, hcut⟩ := parseLengthAndPn_take htokenRead.room hout
    obtain ⟨hhdrTy, hhdrToken⟩ := parseLengthAndPn_token hout
    have hend := htokenRead.least.trans hpos
    have hsame : hdr.token = token := by
      rw [hhdrToken]
      split_ifs with hretry
      · subst hretry
        have hnone : token = none := by simpa using htokenRead.present
        exact hnone.symm
      · rfl
    refine ⟨readFrom_of hreads ⟨hdst, hsrc⟩ hend hn ?_ ?_, ?_⟩
    · intro bytes hbytes
      obtain ⟨width, hdecode, hslice, hstop⟩ := htokenRead.slice bytes (hsame.symm.trans hbytes)
      rw [hreads.fieldsStart_eq hdst hsrc]
      exact ⟨width, hdecode, hslice, hstop.symm.trans_le hpos⟩
    · rw [hsame, hhdrTy]
      exact htokenRead.present
    · rw [parseLongHeader_typed (hreads.take hend) hform hfixed hty hversion hdst hsrc,
        htokenRead.cut n hpos hn, ok_bind]
      exact hcut

/-- A parsed header is determined by the bytes that it took, whatever stands behind them, and a
refusal that does not ask for more bytes by those that are there. -/
theorem long_header_determined (buf : Bytes) :
    (∀ hdr n, Packet.parseLongHeader buf = ok (hdr, n) → ReadFrom buf hdr n ∧
      ∀ more, Packet.parseLongHeader (buf.take n ++ more) = ok (hdr, n)) ∧
    ∀ e, Packet.parseLongHeader buf = err e → ¬ e.Short →
      ∀ more, Packet.parseLongHeader (buf ++ more) = err e := by
  constructor
  · intro hdr n h
    obtain ⟨hread, hcut⟩ := parseLongHeader_take h
    exact ⟨hread, fun more => parseLongHeader_steady.front _ more _ hcut⟩
  · intro e h hlong more
    exact parseLongHeader_steady.stands buf more e h hlong

/-- An Initial header with a token of one byte, cut out and continued, and a short header. -/
theorem long_header_determined_initial :
    (∃ hdr, Packet.parseLongHeader
      ([0xc0, 0, 0, 0, 1, 1, 7, 1, 9, 1, 0x55, 5, 3, 0xff].take 13 ++ [0xee]) = ok (hdr, 13)) ∧
    Packet.parseLongHeader ([0x40] ++ [0xee]) = err (.invalidHeaderForm 1 0) := by
  have hparse : Packet.parseLongHeader [0xc0, 0, 0, 0, 1, 1, 7, 1, 9, 1, 0x55, 5, 3, 0xff] =
      ok (⟨.initial, 1, ⟨[7]⟩, ⟨[9]⟩, some [0x55], some 5, some 3, some 1⟩, 13) := by
    decide +kernel
  exact ⟨⟨_, ((long_header_determined _).1 _ 13 hparse).2 [0xee]⟩,
    (long_header_determined [0x40]).2 (.invalidHeaderForm 1 0) (by decide) (fun h => h) [0xee]⟩

end DeerQuic.Protection
