import DeerQuic.Readers
import DeerQuic.BigEndian

/-!
# Variable-length integers

The two most significant bits of the first byte give the length: 1, 2, 4 or 8
bytes, with 6, 14, 30 or 62 bits left for the value. Values are natural numbers;
the source's `u64` never holds a value here that the arithmetic could overflow.
-/

namespace DeerQuic

abbrev Bytes := List UInt8

inductive VarIntError where
  | bufferTooShort (needed actual : Nat)
  | valueTooLarge (value : Nat)
  deriving DecidableEq, Repr

namespace VarInt

open Outcome Checked

def varintMax : Nat := 2 ^ 62 - 1

def encodedLen (v : Nat) : Nat :=
  if v ≤ 63 then 1 else if v ≤ 16383 then 2 else if v ≤ 1073741823 then 4 else 8

/-- The bytes `encode` stores for a value of the given length. -/
def digits (v : Nat) : Nat → Outcome VarIntError Bytes
  | 1 => ok [v.toUInt8]
  | 2 => ok [(0x40 : UInt8) ||| (v >>> 8).toUInt8, (v &&& 0xff).toUInt8]
  | 4 => ok [(0x80 : UInt8) ||| (v >>> 24).toUInt8, ((v >>> 16) &&& 0xff).toUInt8,
      ((v >>> 8) &&& 0xff).toUInt8, (v &&& 0xff).toUInt8]
  | 8 => ok [(0xc0 : UInt8) ||| (v >>> 56).toUInt8, ((v >>> 48) &&& 0xff).toUInt8,
      ((v >>> 40) &&& 0xff).toUInt8, ((v >>> 32) &&& 0xff).toUInt8,
      ((v >>> 24) &&& 0xff).toUInt8, ((v >>> 16) &&& 0xff).toUInt8,
      ((v >>> 8) &&& 0xff).toUInt8, (v &&& 0xff).toUInt8]
  | _ => .panic

/-- Write `v` at the front of `buf`: the number of bytes written and the new buffer. -/
def encode (v : Nat) (buf : Bytes) : Outcome VarIntError (Nat × Bytes) :=
  if varintMax < v then err (.valueTooLarge v)
  else
    let len := encodedLen v
    if buf.length < len then err (.bufferTooShort len buf.length)
    else do
      let written ← digits v len
      let buf ← copyAt buf 0 written
      ok (len, buf)

def decode (buf : Bytes) : Outcome VarIntError (Nat × Nat) :=
  match buf with
  | [] => err (.bufferTooShort 1 0)
  | first :: rest =>
    match first.toNat >>> 6 with
    | 0 => ok (first.toNat, 1)
    | 1 =>
      match rest with
      | b1 :: _ => ok (((first.toNat &&& 0x3f) <<< 8) ||| b1.toNat, 2)
      | _ => err (.bufferTooShort 2 buf.length)
    | 2 =>
      match rest with
      | b1 :: b2 :: b3 :: _ =>
        ok (((first.toNat &&& 0x3f) <<< 24) ||| (b1.toNat <<< 16) |||
          (b2.toNat <<< 8) ||| b3.toNat, 4)
      | _ => err (.bufferTooShort 4 buf.length)
    | 3 =>
      match rest with
      | b1 :: b2 :: b3 :: b4 :: b5 :: b6 :: b7 :: _ =>
        ok (((first.toNat &&& 0x3f) <<< 56) ||| (b1.toNat <<< 48) |||
          (b2.toNat <<< 40) ||| (b3.toNat <<< 32) ||| (b4.toNat <<< 24) |||
          (b5.toNat <<< 16) ||| (b6.toNat <<< 8) ||| b7.toNat, 8)
      | _ => err (.bufferTooShort 8 buf.length)
    | _ => .panic

/-- What `put_varint` appends: the value encoded into an eight byte scratch buffer. -/
def putVarint (v : Nat) : Outcome VarIntError Bytes :=
  if varintMax < v then err (.valueTooLarge v)
  else do
    let len := encodedLen v
    let (_, tmp) ← encode v (List.replicate 8 0)
    slice tmp 0 len

/-- The wire form: the length tag sits above the value in one big-endian numeral. -/
def wire (v : Nat) : Bytes :=
  if v ≤ 63 then BigEndian.encode 1 v
  else if v ≤ 16383 then BigEndian.encode 2 (2 ^ 14 + v)
  else if v ≤ 1073741823 then BigEndian.encode 4 (2 * 2 ^ 30 + v)
  else BigEndian.encode 8 (3 * 2 ^ 62 + v)

@[simp] lemma wire_length (v : Nat) : (wire v).length = encodedLen v := by
  unfold wire encodedLen
  split_ifs <;> simp

lemma encodedLen_pos (v : Nat) : 1 ≤ encodedLen v := by
  unfold encodedLen; split_ifs <;> omega

lemma encodedLen_le (v : Nat) : encodedLen v ≤ 8 := by
  unfold encodedLen; split_ifs <;> omega

lemma encodedLen_mono {v w : Nat} (h : v ≤ w) : encodedLen v ≤ encodedLen w := by
  unfold encodedLen
  split_ifs <;> omega

lemma encodedLen_le_two {v : Nat} (h : v < 16384) : encodedLen v ≤ 2 := by
  unfold encodedLen
  split_ifs <;> omega

lemma or_tag (t x : Nat) (ht : t < 4) (hx : x < 64) :
    (t * 64).toUInt8 ||| x.toUInt8 = (t * 64 + x).toUInt8 := by
  apply UInt8.toNat_inj.mp
  have hor := BigEndian.shiftLeft_or t x 6 hx
  rw [Nat.shiftLeft_eq] at hor
  simp only [Nat.toUInt8_eq, UInt8.toNat_or, UInt8.toNat_ofNat']
  rw [Nat.mod_eq_of_lt (show t * 64 < 2 ^ 8 by omega),
    Nat.mod_eq_of_lt (show x < 2 ^ 8 by omega),
    Nat.mod_eq_of_lt (show t * 64 + x < 2 ^ 8 by omega)]
  exact hor

lemma byte_and_ff (n : Nat) : (n &&& 0xff).toUInt8 = n.toUInt8 := by
  apply UInt8.toNat_inj.mp
  have hmask : n &&& 0xff = n % 256 := Nat.and_two_pow_sub_one_eq_mod n 8
  simp [hmask]

lemma toUInt8_congr {m n : Nat} (h : m % 256 = n % 256) : m.toUInt8 = n.toUInt8 := by
  apply UInt8.toNat_inj.mp
  simpa using h

lemma digits_eq {v : Nat} (hv : v ≤ varintMax) : digits v (encodedLen v) = ok (wire v) := by
  unfold varintMax at hv
  unfold encodedLen wire
  split_ifs with h1 h2 h4
  · simp [digits, BigEndian.encode]
  · have hb : v / 2 ^ 8 < 64 := by omega
    have htag := or_tag 1 (v / 2 ^ 8) (by omega) hb
    simp only [digits, byte_and_ff, Nat.shiftRight_eq_div_pow, BigEndian.encode, ok.injEq,
      List.cons.injEq, and_true]
    refine ⟨htag.trans (toUInt8_congr ?_), toUInt8_congr ?_⟩ <;> omega
  · have hb : v / 2 ^ 24 < 64 := by omega
    have htag := or_tag 2 (v / 2 ^ 24) (by omega) hb
    simp only [digits, byte_and_ff, Nat.shiftRight_eq_div_pow, BigEndian.encode, ok.injEq,
      List.cons.injEq, and_true]
    refine ⟨htag.trans (toUInt8_congr ?_), ?_, ?_, ?_⟩ <;> try apply toUInt8_congr
    all_goals omega
  · have hb : v / 2 ^ 56 < 64 := by omega
    have htag := or_tag 3 (v / 2 ^ 56) (by omega) hb
    simp only [digits, byte_and_ff, Nat.shiftRight_eq_div_pow, BigEndian.encode, ok.injEq,
      List.cons.injEq, and_true]
    refine ⟨htag.trans (toUInt8_congr ?_), ?_, ?_, ?_, ?_, ?_, ?_, ?_⟩ <;>
      try apply toUInt8_congr
    all_goals omega

lemma encode_eq {v : Nat} {buf : Bytes} (hv : v ≤ varintMax)
    (hroom : encodedLen v ≤ buf.length) :
    encode v buf = ok (encodedLen v, wire v ++ buf.drop (encodedLen v)) := by
  have hfill : (copyAt buf 0 (wire v) : Outcome VarIntError Bytes) =
      ok (wire v ++ buf.drop (encodedLen v)) := by
    simpa using copyAt_fill [] (wire v) buf rfl (by simpa using hroom)
  simp [encode, Nat.not_lt.mpr hv, Nat.not_lt.mpr hroom, digits_eq hv, hfill]

lemma encode_fits {v : Nat} {buf : Bytes} {out : Nat × Bytes} (h : encode v buf = ok out) :
    v ≤ varintMax ∧ encodedLen v ≤ buf.length := by
  unfold encode at h
  split_ifs at h with hlarge
  dsimp only at h
  split_ifs at h with hroom
  exact ⟨Nat.not_lt.mp hlarge, Nat.not_lt.mp hroom⟩

lemma putVarint_eq {v : Nat} (hv : v ≤ varintMax) : putVarint v = ok (wire v) := by
  have hroom : encodedLen v ≤ (List.replicate 8 (0 : UInt8)).length := by
    simpa using encodedLen_le v
  simp only [putVarint, Nat.not_lt.mpr hv, if_false, encode_eq hv hroom, ok_bind]
  exact slice_middle [] (wire v) _ rfl (by simp)

lemma putVarint_too_large {v : Nat} (hv : varintMax < v) :
    putVarint v = err (.valueTooLarge v) := by
  simp [putVarint, hv]

/-- `decode` reads the numeral of the announced length and drops the tag. -/
lemma decode_cons (first : UInt8) (rest : Bytes) :
    decode (first :: rest) =
      let len := 2 ^ (first.toNat / 64)
      if rest.length + 1 < len then err (.bufferTooShort len (rest.length + 1))
      else ok (first.toNat % 64 * 256 ^ (len - 1) + BigEndian.decode (rest.take (len - 1)),
        len) := by
  have hlow : first.toNat &&& 0x3f = first.toNat % 64 :=
    Nat.and_two_pow_sub_one_eq_mod first.toNat 6
  have htop : first.toNat >>> 6 = first.toNat / 64 := Nat.shiftRight_eq_div_pow _ 6
  have hlt : first.toNat / 64 < 4 := by have := first.toNat_lt; omega
  simp only [decode, hlow, htop]
  have hcases : first.toNat / 64 = 0 ∨ first.toNat / 64 = 1 ∨ first.toNat / 64 = 2 ∨
    first.toNat / 64 = 3 := by omega
  rcases hcases with h | h | h | h
  · have hmod : first.toNat % 64 = first.toNat := by omega
    simp [h, hmod, BigEndian.decode]
  · rcases rest with _ | ⟨b1, rest⟩
    · simp [h]
    · have h1 := b1.toNat_lt
      simp only [h, BigEndian.shiftLeft_or _ _ 8 h1]
      simp [BigEndian.decode]
  · rcases rest with _ | ⟨b1, _ | ⟨b2, _ | ⟨b3, rest⟩⟩⟩
    · simp [h]
    · simp [h]
    · simp [h]
    · have h1 := b1.toNat_lt
      have h2 := b2.toNat_lt
      have h3 := b3.toNat_lt
      simp only [h, Nat.or_assoc]
      rw [BigEndian.shiftLeft_or b2.toNat _ 8 (by omega),
        BigEndian.shiftLeft_or b1.toNat _ 16 (by omega),
        BigEndian.shiftLeft_or _ _ 24 (by omega)]
      simp [BigEndian.decode]
  · rcases rest with _ | ⟨b1, _ | ⟨b2, _ | ⟨b3, _ | ⟨b4, _ | ⟨b5, _ | ⟨b6, _ | ⟨b7, rest⟩⟩⟩⟩⟩⟩⟩
    iterate 7 simp [h]
    have h1 := b1.toNat_lt
    have h2 := b2.toNat_lt
    have h3 := b3.toNat_lt
    have h4 := b4.toNat_lt
    have h5 := b5.toNat_lt
    have h6 := b6.toNat_lt
    have h7 := b7.toNat_lt
    simp only [h, Nat.or_assoc]
    rw [BigEndian.shiftLeft_or b6.toNat _ 8 (by omega),
      BigEndian.shiftLeft_or b5.toNat _ 16 (by omega),
      BigEndian.shiftLeft_or b4.toNat _ 24 (by omega),
      BigEndian.shiftLeft_or b3.toNat _ 32 (by omega),
      BigEndian.shiftLeft_or b2.toNat _ 40 (by omega),
      BigEndian.shiftLeft_or b1.toNat _ 48 (by omega),
      BigEndian.shiftLeft_or _ _ 56 (by omega)]
    simp [BigEndian.decode]

lemma decode_tagged {k w v : Nat} (hk : k < 4) (hw : w + 1 = 2 ^ k) (hv : v < 64 * 256 ^ w)
    (rest : Bytes) :
    decode (BigEndian.encode (w + 1) (k * 64 * 256 ^ w + v) ++ rest) = ok (v, w + 1) := by
  have hpos : 0 < 256 ^ w := Nat.pow_pos (by omega)
  have hdiv : (k * 64 * 256 ^ w + v) / 256 ^ w = k * 64 + v / 256 ^ w := by
    rw [Nat.add_comm, Nat.add_mul_div_right _ _ hpos, Nat.add_comm]
  have hsmall : v / 256 ^ w < 64 := (Nat.div_lt_iff_lt_mul hpos).mpr hv
  have hfirst : (k * 64 + v / 256 ^ w).toUInt8.toNat = k * 64 + v / 256 ^ w := by
    rw [Nat.toUInt8_eq, UInt8.toNat_ofNat']
    exact Nat.mod_eq_of_lt (by omega)
  have htag : (k * 64 + v / 256 ^ w) / 64 = k := by
    rw [Nat.add_comm, Nat.add_mul_div_right _ _ (by omega), Nat.div_eq_of_lt hsmall, Nat.zero_add]
  have hlow : (k * 64 + v / 256 ^ w) % 64 = v / 256 ^ w := by
    rw [Nat.add_comm, Nat.add_mul_mod_self_right, Nat.mod_eq_of_lt hsmall]
  have hmod : (k * 64 * 256 ^ w + v) % 256 ^ w = v % 256 ^ w := by
    rw [Nat.add_comm, Nat.add_mul_mod_self_right]
  have hback : v / 256 ^ w * 256 ^ w + v % 256 ^ w = v := by
    rw [Nat.mul_comm]; exact Nat.div_add_mod v (256 ^ w)
  simp only [BigEndian.encode, List.cons_append, decode_cons, hdiv, hfirst, htag, hlow, ← hw]
  rw [if_neg (by simp), Nat.add_sub_cancel, List.take_left' (by simp), BigEndian.decode_encode,
    hmod, hback]

/-- Every value round trips, whatever bytes follow it. -/
theorem decode_wire {v : Nat} (hv : v ≤ varintMax) (rest : Bytes) :
    decode (wire v ++ rest) = ok (v, encodedLen v) := by
  unfold varintMax at hv
  unfold wire encodedLen
  split_ifs with h1 h2 h4
  · simpa using decode_tagged (k := 0) (w := 0) (v := v) (by omega) rfl (by omega) rest
  · exact decode_tagged (k := 1) (w := 1) (v := v) (by omega) rfl (by omega) rest
  · exact decode_tagged (k := 2) (w := 3) (v := v) (by omega) rfl (by omega) rest
  · exact decode_tagged (k := 3) (w := 7) (v := v) (by omega) rfl (by omega) rest

lemma decode_ne_panic (buf : Bytes) : decode buf ≠ panic := by
  cases buf with
  | nil => simp [decode]
  | cons first rest => rw [decode_cons]; dsimp only; split_ifs <;> simp

/-- A decoded value took between one byte and all of the buffer. -/
lemma decode_bounds {buf : Bytes} {v n : Nat} (h : decode buf = ok (v, n)) :
    1 ≤ n ∧ n ≤ buf.length := by
  cases buf with
  | nil => simp [decode] at h
  | cons first rest =>
    rw [decode_cons] at h
    dsimp only at h
    split_ifs at h with hlen
    · have hn : 2 ^ (first.toNat / 64) = n := by simpa using (Prod.mk.inj (ok.inj h)).2
      have hpos : 0 < 2 ^ (first.toNat / 64) := Nat.pow_pos (by omega)
      simp only [List.length_cons]
      omega

/-- A width is a power of two, and the value fits the bits that the tag leaves of it. -/
lemma decode_width {buf : Bytes} {v n : Nat} (h : decode buf = ok (v, n)) :
    ∃ k < 4, n = 2 ^ k ∧ v < 64 * 256 ^ (n - 1) := by
  cases buf with
  | nil => cases h
  | cons first rest =>
    rw [decode_cons] at h
    dsimp only at h
    split_ifs at h with hlen
    obtain ⟨hv, hn⟩ := Prod.mk.inj (ok.inj h)
    have hbyte := first.toNat_lt
    refine ⟨first.toNat / 64, by omega, hn.symm, ?_⟩
    rw [hn] at hv hlen
    have hdigits := BigEndian.decode_lt (rest.take (n - 1))
    have hwidth : (rest.take (n - 1)).length = n - 1 := by
      rw [List.length_take]
      omega
    rw [hwidth] at hdigits
    have hlow : first.toNat % 64 + 1 ≤ 64 := Nat.mod_lt _ (by omega)
    calc v < first.toNat % 64 * 256 ^ (n - 1) + 256 ^ (n - 1) := by omega
      _ = (first.toNat % 64 + 1) * 256 ^ (n - 1) := by rw [Nat.add_mul, Nat.one_mul]
      _ ≤ 64 * 256 ^ (n - 1) := Nat.mul_le_mul_right _ hlow

lemma decode_le {buf : Bytes} {v n : Nat} (h : decode buf = ok (v, n)) : v ≤ varintMax := by
  obtain ⟨k, hk, rfl, hv⟩ := decode_width h
  have hcases : k = 0 ∨ k = 1 ∨ k = 2 ∨ k = 3 := by omega
  unfold varintMax
  rcases hcases with rfl | rfl | rfl | rfl <;> omega

lemma decode_one {buf : Bytes} {v : Nat} (h : decode buf = ok (v, 1)) : v ≤ 63 := by
  obtain ⟨-, -, -, hv⟩ := decode_width h
  omega

/-- No value is read from fewer bytes than its shortest encoding takes. -/
lemma encodedLen_le_of_decode {buf : Bytes} {v n : Nat} (h : decode buf = ok (v, n)) :
    encodedLen v ≤ n := by
  obtain ⟨k, hk, rfl, hv⟩ := decode_width h
  have hcases : k = 0 ∨ k = 1 ∨ k = 2 ∨ k = 3 := by omega
  unfold encodedLen
  rcases hcases with rfl | rfl | rfl | rfl
  · rw [if_pos (by omega)]
    omega
  · split_ifs <;> omega
  · split_ifs <;> omega
  · split_ifs <;> omega

/-- A value is read from the front of the buffer. -/
lemma decode_front : Checked.FrontReader decode := by
  intro buf more out h
  cases buf with
  | nil => simp [decode] at h
  | cons first rest =>
    rw [decode_cons] at h
    rw [List.cons_append, decode_cons]
    dsimp only at h ⊢
    split_ifs at h with hlen
    rw [if_neg (by rw [List.length_append]; omega), List.take_append_of_le_length (by omega)]
    exact h

end VarInt
end DeerQuic
