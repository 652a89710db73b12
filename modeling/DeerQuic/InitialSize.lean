import DeerQuic.LongForm

/-!
# The size of an Initial packet

Both builders pad towards 1200 bytes by an estimate of the header. The estimate leaves the packet
number out, and takes the Length field to be as wide as it would be without padding. Both slips are
on the safe side: the packet is never shorter, and longer by a few bytes only.
-/

namespace DeerQuic.Protection

open Outcome

/-- The key says that it appends 16 bytes, and does. -/
structure TagOf16 (key : PacketKey) : Prop where
  tagLen : key.tagLen = 16
  tag : ∀ {pn aad payload sealed tag},
    key.encryptInPlace pn aad payload = some (sealed, tag) → tag.length = 16

/-- An Initial packet for a serialised frame list: of at least 1200 bytes, with a Length field that
says how many bytes are after it, and little longer than it had to be when more than the frames was
sealed. -/
def SizedInitial (version : UInt32) (dstCid srcCid body : Bytes) (pnLen : Nat) (packet : Bytes) :
    Prop :=
  ∃ first rest,
    packet = first :: (longMiddle .initial version dstCid srcCid rest.length ++ rest) ∧
    1200 ≤ packet.length ∧ pnLen + body.length + 16 ≤ rest.length ∧
    (pnLen + body.length + 16 < rest.length → packet.length ≤ 1200 + pnLen + 1)

/-- The Length field may be one byte wider than the estimate has it, never narrower. -/
lemma padded_size {d s pnLen body plain : Nat} (tokenLen : Nat) (hd : d ≤ 20) (hs : s ≤ 20)
    (hpn : pnLen ≤ 4)
    (hplain : plain = max (1200 - (hdrSizeLong d s tokenLen (body + pnLen + 16) + 16)) body) :
    1200 ≤ 8 + d + s + VarInt.encodedLen (pnLen + plain + 16) + (pnLen + plain + 16) ∧
      (body < plain →
        8 + d + s + VarInt.encodedLen (pnLen + plain + 16) + (pnLen + plain + 16) ≤
          1200 + pnLen + 1) := by
  have hestimate : hdrSizeLong d s tokenLen (body + pnLen + 16) =
      8 + d + s + VarInt.encodedLen (body + pnLen + 16) := by
    unfold hdrSizeLong
    omega
  have hwider : VarInt.encodedLen (body + pnLen + 16) ≤ VarInt.encodedLen (pnLen + plain + 16) :=
    VarInt.encodedLen_mono (by omega)
  have hlow := VarInt.encodedLen_pos (body + pnLen + 16)
  have hhigh := VarInt.encodedLen_le (body + pnLen + 16)
  constructor
  · omega
  · intro hpadded
    have hwidth : VarInt.encodedLen (pnLen + plain + 16) ≤ 2 := VarInt.encodedLen_le_two (by omega)
    omega

lemma encryptLong_sized {keys : DirectionalKeys} {version : UInt32}
    {dstCid srcCid body plain packet : Bytes} {pn pnLen : Nat} (tokenLen : Nat)
    (htag : TagOf16 keys.packet) (hdst : dstCid.length ≤ 20) (hsrc : srcCid.length ≤ 20)
    (hpn : 1 ≤ pnLen ∧ pnLen ≤ 4)
    (hplain : plain.length = max (1200 - (hdrSizeLong dstCid.length srcCid.length tokenLen
      (body.length + pnLen + 16) + 16)) body.length)
    (h : encryptLong keys .initial version dstCid srcCid plain pn pnLen (some []) = ok packet) :
    SizedInitial version dstCid srcCid body pnLen packet := by
  obtain ⟨aad, sample, first, pnBytes, sealed, tag, hseal, -, hpacket, -, hpnBytes, hsealed, -⟩ :=
    encryptLong_layout hpn rfl h
  obtain ⟨hlow, hhigh⟩ := padded_size tokenLen hdst hsrc hpn.2 hplain
  have htagged := htag.tag hseal
  rw [htag.tagLen] at hpacket
  have hrest : (pnBytes ++ (sealed ++ tag)).length = pnLen + plain.length + 16 := by
    simp only [List.length_append]
    omega
  have htotal : packet.length = 8 + dstCid.length + srcCid.length +
      VarInt.encodedLen (pnLen + plain.length + 16) + (pnLen + plain.length + 16) := by
    rw [hpacket, List.length_cons, List.length_append, longMiddle_length, hrest]
    simp only [tokenField, if_true, List.length_cons, List.length_nil]
    omega
  refine ⟨first, pnBytes ++ (sealed ++ tag), by rw [hrest, hpacket], by omega, by omega, ?_⟩
  intro hpadded
  have hbound := hhigh (by omega)
  omega

/-- Every Initial packet that either builder makes, from frames that can be written, is large enough
and not much larger, and its Length field is right. -/
theorem initial_packets_sized {keys : Keys} (htag : TagOf16 keys.localKeys.packet)
    (hsample : keys.localKeys.header.sampleLen = 16) {dstCid srcCid : Bytes}
    (hdst : dstCid.length ≤ 20) (hsrc : srcCid.length ≤ 20) :
    (∀ (space : Space) (version : UInt32) (frames : List Frame) (body packet : Bytes)
        (pn pnLen : Nat) (isEstablished : Bool),
      space.localKeys = some keys.localKeys → 1 ≤ pnLen ∧ pnLen ≤ 4 →
      writeFrames frames [] = ok body →
      encryptPacket space .initial version dstCid srcCid frames pn pnLen isEstablished = ok packet →
      SizedInitial version dstCid srcCid body pnLen packet) ∧
    ∀ (clientHello body packet : Bytes) (tokenLen : Nat),
      writeFrames [.crypto 0 clientHello] [] = ok body →
      buildInitialPacket keys dstCid srcCid clientHello tokenLen = ok packet →
      SizedInitial Packet.version1 dstCid srcCid body 1 packet := by
  constructor
  · intro space version frames body packet pn pnLen isEstablished hlocal hpn hwrite h
    have hlong : PacketNumberSpace.initial ≠ .applicationData ∨ isEstablished = false :=
      .inl (by decide)
    simp only [encryptPacket, hlocal, ofOption_some, ok_bind, hwrite, mapErr_ok, if_pos hlong,
      if_true, htag.tagLen, hsample] at h
    have hestimate := VarInt.encodedLen_le (body.length + pnLen + 16)
    refine encryptLong_sized 0 htag hdst hsrc hpn ?_ h
    -- Any Initial packet is long enough for a sample.
    rw [padTo_length, padTo_length, hdrSizeLong]
    omega
  · intro clientHello body packet tokenLen hwrite h
    simp only [buildInitialPacket, hwrite, mapErr_ok, ok_bind, htag.tagLen] at h
    exact encryptLong_sized tokenLen htag hdst hsrc (by decide) (padTo_length _ _) h

lemma nullPacket_tagOf16 : TagOf16 nullPacket := by
  constructor
  · rfl
  · intro pn aad payload sealed tag h
    obtain ⟨-, rfl⟩ := Prod.mk.inj (Option.some.inj h)
    rfl

theorem initial_packets_sized_null :
    ∃ packet packet',
      encryptPacket ((Space.new .initial).setKeys (nullKeys fun _ => [1, 2, 3, 4, 5])) .initial 1
        [7, 8] [9] [.ping] 70000 4 true = ok packet ∧
      SizedInitial 1 [7, 8] [9] [1] 4 packet ∧
      buildInitialPacket (nullKeys fun _ => [1, 2, 3, 4, 5]) [7, 8] [9] [3, 3, 3] 0 = ok packet' ∧
      SizedInitial 1 [7, 8] [9] [6, 0, 3, 3, 3, 3] 1 packet' := by
  have hpacket := eq_ok_getD (x := encryptPacket ((Space.new .initial).setKeys
    (nullKeys fun _ => [1, 2, 3, 4, 5])) .initial 1 [7, 8] [9] [.ping] 70000 4 true)
    (by decide +kernel) []
  have hpacket' := eq_ok_getD (x := buildInitialPacket (nullKeys fun _ => [1, 2, 3, 4, 5]) [7, 8]
    [9] [3, 3, 3] 0) (by decide +kernel) []
  have htag : TagOf16 (nullKeys fun _ => [1, 2, 3, 4, 5]).localKeys.packet := nullPacket_tagOf16
  obtain ⟨hencrypt, hbuild⟩ := initial_packets_sized htag rfl
    (by decide : [(7 : UInt8), 8].length ≤ 20) (by decide : [(9 : UInt8)].length ≤ 20)
  exact ⟨_, _, hpacket, hencrypt _ _ _ _ _ _ _ _ rfl (by decide) rfl hpacket, hpacket',
    hbuild _ _ _ _ rfl hpacket'⟩

end DeerQuic.Protection
