import DeerQuic.VarInt

/-!
# The encodings of a value

A value up to the maximum can be read from one, two, four or eight bytes, as far as it fits. The
writers choose the shortest of these. Since the first byte announces the length, no encoding begins
with another one, and a buffer is too short only when it has fewer bytes than announced.
-/

namespace DeerQuic

/-- The error asks for more bytes. -/
def VarIntError.Short : VarIntError → Prop
  | .bufferTooShort _ _ => True
  | .valueTooLarge _ => False

namespace VarInt

open Outcome Checked

/-- The length that the first byte announces; without a first byte one is wanted. -/
def announced : Bytes → Nat
  | [] => 1
  | first :: _ => 1 <<< (first.toNat >>> 6)

lemma announced_cons (first : UInt8) (rest : Bytes) :
    announced (first :: rest) = 2 ^ (first.toNat / 64) := by
  rw [announced, Nat.shiftRight_eq_div_pow, Nat.shiftLeft_eq, Nat.one_mul]

/-- The only way to fail is to be shorter than announced. -/
lemma decode_short {buf : Bytes} (h : buf.length < announced buf) :
    decode buf = err (.bufferTooShort (announced buf) buf.length) := by
  cases buf with
  | nil => rfl
  | cons first rest =>
    rw [announced_cons, List.length_cons] at h ⊢
    rw [decode_cons]
    exact if_pos h

lemma decode_long {buf : Bytes} (h : announced buf ≤ buf.length) :
    ∃ v, decode buf = ok (v, announced buf) := by
  cases buf with
  | nil => cases h
  | cons first rest =>
    rw [announced_cons, List.length_cons] at h
    rw [announced_cons, decode_cons]
    exact ⟨_, if_neg (Nat.not_lt.mpr h)⟩

theorem decode_fails_iff (buf : Bytes) :
    (∃ e, decode buf = err e) ↔ buf.length < announced buf := by
  constructor
  · rintro ⟨e, herr⟩
    by_contra hlong
    obtain ⟨v, hread⟩ := decode_long (Nat.not_lt.mp hlong)
    rw [hread] at herr
    cases herr
  · exact fun h => ⟨_, decode_short h⟩

lemma decode_steady : SteadyReader VarIntError.Short decode := by
  refine .of_front decode_front fun buf e h => ?_
  rw [decode_short ((decode_fails_iff buf).mp ⟨e, h⟩)] at h
  rw [← err.inj h]
  trivial

/-- Only the bytes of the encoding are looked at. -/
lemma decode_take {buf : Bytes} {v n k : Nat} (h : decode buf = ok (v, n)) (hk : n ≤ k) :
    decode (buf.take k) = ok (v, n) := by
  cases buf with
  | nil => cases h
  | cons first rest =>
    obtain ⟨hpos, hroom⟩ := decode_bounds h
    obtain ⟨j, rfl⟩ : ∃ j, k = j + 1 := Nat.exists_eq_succ_of_ne_zero (by omega)
    rw [decode_cons] at h
    rw [List.take_succ_cons, decode_cons]
    dsimp only at h ⊢
    split_ifs at h with hshort
    obtain ⟨-, hn⟩ := Prod.mk.inj (ok.inj h)
    rw [hn] at hshort h ⊢
    rw [if_neg (by rw [List.length_take]; rw [List.length_cons] at hroom; omega), List.take_take,
      Nat.min_eq_left (by omega)]
    exact h

/-- The tag above the value, at the width that the value takes. -/
lemma wire_tagged {k v : Nat} (hk : k < 4) (hlen : encodedLen v = 2 ^ k) :
    wire v = BigEndian.encode (2 ^ k) (k * 64 * 256 ^ (2 ^ k - 1) + v) := by
  have hcases : k = 0 ∨ k = 1 ∨ k = 2 ∨ k = 3 := by omega
  unfold encodedLen at hlen
  unfold wire
  rcases hcases with rfl | rfl | rfl | rfl <;> split_ifs at hlen ⊢ <;>
    first
    | contradiction
    | simp

/-- A value read from as many bytes as it takes was written as these bytes. -/
lemma wire_of_decode {buf : Bytes} {v : Nat} (h : decode buf = ok (v, encodedLen v)) :
    wire v = buf.take (encodedLen v) := by
  cases buf with
  | nil => cases h
  | cons first rest =>
    have hbyte := first.toNat_lt
    rw [decode_cons] at h
    dsimp only at h
    split_ifs at h with hshort
    obtain ⟨hv, hlen⟩ := Prod.mk.inj (ok.inj h)
    rw [hlen] at hv hshort
    have hpos := encodedLen_pos v
    obtain ⟨w, hw⟩ : ∃ w, encodedLen v = w + 1 := Nat.exists_eq_succ_of_ne_zero (by omega)
    rw [hw, Nat.add_sub_cancel] at hv
    rw [hw] at hshort
    have hwidth : (rest.take w).length = w := by
      rw [List.length_take]
      omega
    have hfirst : first.toNat / 64 * 64 + first.toNat % 64 = first.toNat := by omega
    -- The bytes as one numeral: the first byte is the tag and the top of the value.
    have hnumeral : first.toNat / 64 * 64 * 256 ^ w + v =
        BigEndian.decode (first :: rest.take w) := by
      rw [BigEndian.decode, hwidth, ← hv, ← Nat.add_assoc, ← Nat.add_mul, hfirst]
    have hbytes := BigEndian.encode_decode (first :: rest.take w)
    rw [List.length_cons, hwidth] at hbytes
    rw [wire_tagged (k := first.toNat / 64) (by omega) hlen.symm, hlen, hw, Nat.add_sub_cancel,
      hnumeral, hbytes, List.take_succ_cons]

/-- `written` is what both writers make of `v`, and `v` is read from it, whatever follows. -/
structure Encodes (v : Nat) (written : Bytes) : Prop where
  length : written.length = encodedLen v
  put : putVarint v = ok written
  stored : ∀ buf : Bytes, encodedLen v ≤ buf.length →
    encode v buf = ok (encodedLen v, written ++ buf.drop (encodedLen v))
  read : ∀ rest, decode (written ++ rest) = ok (v, encodedLen v)

lemma encodes_wire {v : Nat} (h : v ≤ varintMax) : Encodes v (wire v) where
  length := wire_length v
  put := putVarint_eq h
  stored _ hroom := encode_eq h hroom
  read := decode_wire h

/-- An encoding that is the beginning of another one is that one. -/
lemma decode_prefix {bytes bytes' : Bytes} {v v' : Nat} (h : decode bytes = ok (v, bytes.length))
    (h' : decode bytes' = ok (v', bytes'.length)) (hpre : bytes <+: bytes') : bytes = bytes' := by
  obtain ⟨more, rfl⟩ := hpre
  have hfront := decode_front _ more _ h
  rw [h'] at hfront
  have hlen : (bytes ++ more).length = bytes.length := (Prod.mk.inj (ok.inj hfront)).2
  rw [List.length_append, Nat.add_eq_left, List.length_eq_zero_iff] at hlen
  rw [hlen, List.append_nil]

/-- Every value is written in the shortest encoding that is read as it, and no other encoding of it
is written. No encoding begins with another one, and `decode` refuses a buffer exactly when it is
shorter than announced. -/
theorem shortest_encoding :
    (∀ v ≤ varintMax, ∃ written, Encodes v written) ∧
    (∀ buf v n, decode buf = ok (v, n) → v ≤ varintMax ∧ encodedLen v ≤ n ∧ n ≤ buf.length ∧
      (putVarint v = ok (buf.take n) ↔ n = encodedLen v)) ∧
    (∀ bytes bytes' v v', decode bytes = ok (v, bytes.length) →
      decode bytes' = ok (v', bytes'.length) → bytes <+: bytes' → bytes = bytes') ∧
    ∀ buf, decode buf ≠ .panic ∧ ((∃ e, decode buf = err e) ↔ buf.length < announced buf) := by
  refine ⟨fun v hv => ⟨wire v, encodes_wire hv⟩, fun buf v n h => ?_,
    fun _ _ _ _ => decode_prefix, fun buf => ⟨decode_ne_panic buf, decode_fails_iff buf⟩⟩
  have hlarge := decode_le h
  have hroom := (decode_bounds h).2
  refine ⟨hlarge, encodedLen_le_of_decode h, hroom, ?_⟩
  rw [putVarint_eq hlarge, ok.injEq]
  constructor
  · intro hwire
    have hlen := congrArg List.length hwire
    rw [wire_length, List.length_take, Nat.min_eq_left hroom] at hlen
    exact hlen.symm
  · rintro rfl
    exact wire_of_decode h

/-- The value 37 in one byte and in two, and a buffer that announces two bytes and has one. -/
theorem shortest_encoding_37 :
    (∃ written, Encodes 37 written) ∧ ¬ putVarint 37 = ok ([0x40, 0x25].take 2) ∧
      [0x25] = ([0x25] : Bytes) ∧ ∃ e, decode [0x40] = err e := by
  obtain ⟨hencodes, hread, hprefix, hfails⟩ := shortest_encoding
  refine ⟨hencodes 37 (by decide), fun hput => ?_, ?_, ?_⟩
  · have htwo := (hread [0x40, 0x25] 37 2 (by decide)).2.2.2.mp hput
    revert htwo
    decide
  · exact hprefix [0x25] [0x25] 37 37 (by decide) (by decide) List.prefix_rfl
  · exact (hfails [0x40]).2.mpr (by decide)

end VarInt
end DeerQuic
