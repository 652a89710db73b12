import DeerQuic.FrameWriter

/-!
# The wire form of a frame

For a frame whose fields fit their varints the writer appends one fixed byte
string, and the parser takes exactly that string off the front of any buffer. The
only frame that does not delimit itself is a STREAM frame without data: its length
bit is clear, so its parse swallows whatever follows.
-/

namespace DeerQuic.Frame

open Outcome Checked VarInt

@[simp] lemma cursor_pure {α : Type} (a : α) (buf : Bytes) :
    (pure a : Cursor α) buf = ok (a, buf) := rfl

@[simp] lemma cursor_bind {α β : Type} (x : Cursor α) (f : α → Cursor β) (buf : Bytes) :
    (x >>= f) buf = (x buf >>= fun p => f p.1 p.2) := rfl

@[simp] lemma cursor_map {α β : Type} (f : α → β) (x : Cursor α) (buf : Bytes) :
    (f <$> x) buf = (x buf >>= fun p => ok (f p.1, p.2)) := rfl

@[simp] lemma cursor_lift {α : Type} (x : Outcome FrameError α) (buf : Bytes) :
    (StateT.lift x : Cursor α) buf = (x >>= fun a => ok (a, buf)) := rfl

def wireBytes (data : Bytes) : Bytes := VarInt.wire data.length ++ data

def wireRanges (ranges : List AckRange) : Bytes :=
  ranges.flatMap fun r => VarInt.wire r.gap ++ VarInt.wire r.range

def wireEcn : Option EcnCounts → Bytes
  | none => []
  | some ecn => VarInt.wire ecn.ect0 ++ VarInt.wire ecn.ect1 ++ VarInt.wire ecn.ecnCe

def wire : Frame → Bytes
  | padding => [0x00]
  | ping => [0x01]
  | ack largestAck ackDelay ranges ecn =>
    (if ecn.isSome then 0x03 else 0x02) :: (VarInt.wire largestAck ++ VarInt.wire ackDelay ++
      VarInt.wire (ranges.length - 1) ++ VarInt.wire ((ranges.head?.map AckRange.range).getD 0) ++
      wireRanges ranges.tail ++ wireEcn ecn)
  | resetStream streamId errorCode finalSize =>
    0x04 :: (VarInt.wire streamId ++ VarInt.wire errorCode ++ VarInt.wire finalSize)
  | stopSending streamId errorCode => 0x05 :: (VarInt.wire streamId ++ VarInt.wire errorCode)
  | crypto offset data => 0x06 :: (VarInt.wire offset ++ wireBytes data)
  | newToken token => 0x07 :: wireBytes token
  | stream streamId offset data fin =>
    streamType offset data fin :: (VarInt.wire streamId ++
      (if 0 < offset then VarInt.wire offset else []) ++
      (if data.isEmpty then [] else VarInt.wire data.length) ++ data)
  | maxData maximum => 0x10 :: VarInt.wire maximum
  | maxStreamData streamId maximum => 0x11 :: (VarInt.wire streamId ++ VarInt.wire maximum)
  | maxStreams bidi maximum => (if bidi then 0x12 else 0x13) :: VarInt.wire maximum
  | dataBlocked limit => 0x14 :: VarInt.wire limit
  | streamDataBlocked streamId limit => 0x15 :: (VarInt.wire streamId ++ VarInt.wire limit)
  | streamsBlocked bidi limit => (if bidi then 0x16 else 0x17) :: VarInt.wire limit
  | newConnectionId sequence retirePriorTo id resetToken =>
    0x18 :: (VarInt.wire sequence ++ VarInt.wire retirePriorTo ++
      id.bytes.length.toUInt8 :: (id.bytes ++ resetToken.toList))
  | retireConnectionId sequence => 0x19 :: VarInt.wire sequence
  | pathChallenge data => 0x1a :: data.toList
  | pathResponse data => 0x1b :: data.toList
  | connectionClose errorCode (some frameType) reason =>
    0x1c :: (VarInt.wire errorCode ++ VarInt.wire frameType ++ wireBytes reason)
  | connectionClose errorCode none reason => 0x1d :: (VarInt.wire errorCode ++ wireBytes reason)
  | handshakeDone => [0x1e]

def EcnFits (ecn : EcnCounts) : Prop :=
  ecn.ect0 ≤ varintMax ∧ ecn.ect1 ≤ varintMax ∧ ecn.ecnCe ≤ varintMax

/-- Every field fits its varint, an ACK has a first range with no gap before it, and a
new connection ID has 1 to 20 bytes. The bound on the number of ranges is the one of
a vector of 16-byte elements. -/
def WellFormed : Frame → Prop
  | padding | ping | handshakeDone | pathChallenge _ | pathResponse _ => True
  | ack largestAck ackDelay ranges ecn =>
    largestAck ≤ varintMax ∧ ackDelay ≤ varintMax ∧ ranges.length * 16 ≤ 2 ^ 63 - 1 ∧
      (∃ first more, ranges = ⟨0, first⟩ :: more) ∧
      (∀ r ∈ ranges, r.gap ≤ varintMax ∧ r.range ≤ varintMax) ∧ ∀ e ∈ ecn, EcnFits e
  | resetStream streamId errorCode finalSize =>
    streamId ≤ varintMax ∧ errorCode ≤ varintMax ∧ finalSize ≤ varintMax
  | stopSending streamId errorCode => streamId ≤ varintMax ∧ errorCode ≤ varintMax
  | crypto offset data => offset ≤ varintMax ∧ data.length ≤ varintMax
  | newToken token => token.length ≤ varintMax
  | stream streamId offset data _ =>
    streamId ≤ varintMax ∧ offset ≤ varintMax ∧ data.length ≤ varintMax
  | maxData maximum => maximum ≤ varintMax
  | maxStreamData streamId maximum => streamId ≤ varintMax ∧ maximum ≤ varintMax
  | maxStreams _ maximum => maximum ≤ varintMax
  | dataBlocked limit => limit ≤ varintMax
  | streamDataBlocked streamId limit => streamId ≤ varintMax ∧ limit ≤ varintMax
  | streamsBlocked _ limit => limit ≤ varintMax
  | newConnectionId sequence retirePriorTo id _ =>
    sequence ≤ varintMax ∧ retirePriorTo ≤ varintMax ∧
      1 ≤ id.bytes.length ∧ id.bytes.length ≤ 20
  | retireConnectionId sequence => sequence ≤ varintMax
  | connectionClose errorCode frameType reason =>
    errorCode ≤ varintMax ∧ (∀ t ∈ frameType, t ≤ varintMax) ∧ reason.length ≤ varintMax

/-- A STREAM frame carries its length only when it carries data. -/
def SelfDelimiting : Frame → Prop
  | stream _ _ data _ => data ≠ []
  | _ => True

lemma wireFields_ranges (ranges : List AckRange) :
    wireFields (rangeFields ranges) = wireRanges ranges := by
  simp [wireFields, rangeFields, Field.wire, wireRanges, List.flatMap_assoc]

lemma wireFields_ecn (ecn : Option EcnCounts) : wireFields (ecnFields ecn) = wireEcn ecn := by
  cases ecn with
  | none => rfl
  | some e => simp [wireFields, ecnFields, Field.wire, wireEcn]

/-- The wire form is what the fields of the frame are, one behind the other. -/
lemma wireFields_fields (f : Frame) : wireFields f.fields = f.wire := by
  cases f with
  | ack largestAck ackDelay ranges ecn =>
    rw [fields, wireFields_append, wireFields_append, wireFields_ranges, wireFields_ecn]
    simp [wireFields, Field.wire, wire]
  | stream streamId offset data fin =>
    by_cases h0 : 0 < offset <;> by_cases hd : data.isEmpty <;>
      simp [fields, wireFields, Field.wire, wire, h0, hd]
  | connectionClose errorCode frameType reason =>
    cases frameType <;> simp [fields, wireFields, bytesFields, Field.wire, wireBytes, wire]
  | _ => simp [fields, wireFields, bytesFields, Field.wire, wireBytes, wire]

/-- As many ranges as a vector can hold are counted by a varint. -/
lemma rangeCount_le {ranges : List AckRange} (h : ranges.length * 16 ≤ 2 ^ 63 - 1) :
    ranges.length - 1 ≤ varintMax := by
  unfold varintMax
  omega

lemma WellFormed.hasFirstRange {f : Frame} (h : f.WellFormed) : f.HasFirstRange := by
  cases f with
  | ack largestAck ackDelay ranges ecn =>
    obtain ⟨-, -, -, ⟨first, more, rfl⟩, -⟩ := h
    exact List.cons_ne_nil _ _
  | _ => trivial

lemma rangeFields_fit {ranges : List AckRange}
    (h : ∀ r ∈ ranges, r.gap ≤ varintMax ∧ r.range ≤ varintMax) :
    ∀ x ∈ rangeFields ranges, x.Fits := by
  intro x hx
  obtain ⟨r, hr, hx⟩ := List.mem_flatMap.mp hx
  obtain rfl | rfl := List.mem_pair.mp hx
  · exact (h r hr).1
  · exact (h r hr).2

lemma ecnFields_fit {ecn : Option EcnCounts} (h : ∀ e ∈ ecn, EcnFits e) :
    ∀ x ∈ ecnFields ecn, x.Fits := by
  cases ecn with
  | none => simp [ecnFields]
  | some e => simpa [ecnFields, Field.Fits, EcnFits] using h e rfl

lemma WellFormed.fits {f : Frame} (h : f.WellFormed) : ∀ x ∈ f.fields, x.Fits := by
  cases f with
  | ack largestAck ackDelay ranges ecn =>
    obtain ⟨hlargest, hdelay, hroom, ⟨first, more, rfl⟩, hranges, hecn⟩ := h
    have hcount : more.length ≤ varintMax := rangeCount_le hroom
    have hfirst : first ≤ varintMax := (hranges ⟨0, first⟩ List.mem_cons_self).2
    have hmore := rangeFields_fit fun r hr => hranges r (List.mem_cons_of_mem _ hr)
    rw [fields, List.forall_mem_append, List.forall_mem_append]
    exact ⟨by simp [Field.Fits, hlargest, hdelay, hcount, hfirst], hmore, ecnFields_fit hecn⟩
  | stream streamId offset data fin =>
    obtain ⟨hid, hoffset, hdata⟩ := h
    by_cases h0 : 0 < offset <;> by_cases hd : data.isEmpty <;>
      simp [fields, Field.Fits, h0, hd, hid, hoffset, hdata]
  | connectionClose errorCode frameType reason =>
    obtain ⟨hcode, htype, hreason⟩ := h
    cases frameType with
    | none => simp [fields, bytesFields, Field.Fits, hcode, hreason]
    | some t => simp [fields, bytesFields, Field.Fits, hcode, htype t rfl, hreason]
  | _ =>
    simp only [WellFormed] at h
    simp [fields, bytesFields, Field.Fits, h]

/-- The writer appends the wire form and reports its length. -/
theorem writeFrame_eq {f : Frame} (h : f.WellFormed) (buf : Bytes) :
    writeFrame f buf = (ok f.wire.length, buf ++ f.wire) := by
  rw [writeFrame_fits h.hasFirstRange h.fits, wireFields_fields]

lemma readVarint_wire {v : Nat} (hv : v ≤ varintMax) (rest : Bytes) :
    readVarint (VarInt.wire v ++ rest) = ok (v, rest) := by
  simp [readVarint, VarInt.decode_wire hv,
    sliceFrom_append (VarInt.wire v) rest (VarInt.wire_length v).symm]

lemma readBytes_append (data rest : Bytes) : readBytes data.length (data ++ rest) =
    ok (data, rest) := by
  simp [readBytes]

lemma readExact_append {n : Nat} (data : List.Vector UInt8 n) (rest : Bytes) :
    readExact n (data.toList ++ rest) = ok (data, rest) := by
  have hlen : data.toList.length = n := data.toList_length
  unfold readExact
  rw [dif_neg (by simp only [List.length_append]; omega), List.drop_left' hlen]
  congr 2
  exact Subtype.ext (List.take_left' hlen)

lemma readVarintBytes_wire {data : Bytes} (h : data.length ≤ varintMax) (rest : Bytes) :
    readVarintBytes (wireBytes data ++ rest) = ok (data, rest) := by
  simp [readVarintBytes, wireBytes, List.append_assoc, readVarint_wire h, readBytes_append]

lemma readRanges_wire {ranges : List AckRange}
    (h : ∀ r ∈ ranges, r.gap ≤ varintMax ∧ r.range ≤ varintMax) (rest : Bytes) :
    readRanges ranges.length (wireRanges ranges ++ rest) = ok (ranges, rest) := by
  induction ranges with
  | nil => simp [readRanges, wireRanges]
  | cons r more ih =>
    obtain ⟨hgap, hrange⟩ := h r (by simp)
    have hmore := ih fun r hr => h r (List.mem_cons_of_mem _ hr)
    unfold wireRanges at hmore
    simp [readRanges, wireRanges, List.append_assoc, readVarint_wire hgap, readVarint_wire hrange,
      hmore]

lemma readEcn_wire {ecn : EcnCounts} (h : EcnFits ecn) (rest : Bytes) :
    readEcn (wireEcn (some ecn) ++ rest) = ok (ecn, rest) := by
  obtain ⟨h0, h1, h2⟩ := h
  simp [readEcn, wireEcn, List.append_assoc, readVarint_wire h0, readVarint_wire h1,
    readVarint_wire h2]

/-- A type byte that needs no second varint byte starts the frame. -/
lemma parseFrame_cons {t : UInt8} (content rest : Bytes) {f : Frame} (ht : t.toNat < 64)
    (h : readContent t.toNat (content ++ rest) = ok (f, rest)) :
    parseFrame (t :: (content ++ rest)) = ok (f, content.length + 1) := by
  have htag : t.toNat / 64 = 0 := by omega
  have hmod : t.toNat % 64 = t.toNat := by omega
  have hlen : VarInt.encodedLen t.toNat = 1 := by
    unfold VarInt.encodedLen; rw [if_pos (by omega)]
  have hdecode : VarInt.decode (t :: (content ++ rest)) = ok (t.toNat, 1) := by
    simp [VarInt.decode_cons, htag, hmod, BigEndian.decode]
  simp only [parseFrame, hdecode, mapErr_ok, ok_bind, hlen, ne_eq, not_true_eq_false, and_false,
    if_false, sliceFrom, List.length_cons, List.drop_succ_cons, List.drop_zero,
    Nat.le_add_left, if_true, h, List.length_append, ok.injEq, Prod.mk.injEq, true_and]
  omega

lemma readAck_wire {largestAck ackDelay : Nat} {ranges : List AckRange}
    {ecn : Option EcnCounts} (h : (ack largestAck ackDelay ranges ecn).WellFormed) (rest : Bytes) :
    readAck ecn.isSome ((ack largestAck ackDelay ranges ecn).wire.tail ++ rest) =
      ok (ack largestAck ackDelay ranges ecn, rest) := by
  obtain ⟨hlargest, hdelay, hroom, ⟨first, more, rfl⟩, hranges, hecn⟩ := h
  have hcount : more.length ≤ varintMax := rangeCount_le hroom
  have hfirst : first ≤ varintMax := (hranges ⟨0, first⟩ List.mem_cons_self).2
  have hmore := readRanges_wire fun r hr => hranges r (List.mem_cons_of_mem _ hr)
  have hcap : (withCapacity (more.length + 1) 16 : Outcome FrameError Unit) = ok () := by
    simp only [List.length_cons] at hroom
    simp only [withCapacity, hroom, if_true]
  cases ecn with
  | none =>
    simp [readAck, wire, wireEcn, List.append_assoc, readVarint_wire hlargest,
      readVarint_wire hdelay, readVarint_wire hcount, readVarint_wire hfirst, hcap, hmore]
  | some e =>
    simp [readAck, wire, List.append_assoc, readVarint_wire hlargest, readVarint_wire hdelay,
      readVarint_wire hcount, readVarint_wire hfirst, hcap, hmore, readEcn_wire (hecn e rfl)]

lemma parse_stream_wire {streamId offset : Nat} {data : Bytes} {fin : Bool}
    (h : (stream streamId offset data fin).WellFormed) (hdata : data ≠ []) (rest : Bytes) :
    parseFrame ((stream streamId offset data fin).wire ++ rest) =
      ok (stream streamId offset data fin, (stream streamId offset data fin).wire.length) := by
  obtain ⟨hid, hoffset, hlen⟩ := h
  have hfull : data.isEmpty = false := by simpa using hdata
  simp only [wire, List.cons_append, List.length_cons]
  cases fin <;> by_cases h0 : 0 < offset
  all_goals
    have hzero : ¬ 0 < offset → offset = 0 := by omega
    refine parseFrame_cons _ _ (by simp [streamType, h0, hfull]) ?_
    simp [streamType, readContent, readStream, readVarintBytes, h0, hfull, List.append_assoc,
      readVarint_wire hid, readVarint_wire hoffset, readVarint_wire hlen, readBytes_append]
  all_goals exact (hzero h0).symm

/-- The parser takes a written frame, and nothing else, off the front of a buffer. -/
theorem parseFrame_wire {f : Frame} (h : f.WellFormed) (hs : f.SelfDelimiting) (rest : Bytes) :
    parseFrame (f.wire ++ rest) = ok (f, f.wire.length) := by
  cases f with
  | stream streamId offset data fin => exact parse_stream_wire h hs rest
  | ack largestAck ackDelay ranges ecn =>
    have hack := readAck_wire h rest
    cases ecn with
    | none =>
      exact parseFrame_cons (t := 0x02) _ _ (by decide) (by simpa [readContent, wire] using hack)
    | some e =>
      exact parseFrame_cons (t := 0x03) _ _ (by decide) (by simpa [readContent, wire] using hack)
  | newConnectionId sequence retirePriorTo id resetToken =>
    obtain ⟨hseq, hretire, hlo, hhi⟩ := h
    have hbyte : id.bytes.length.toUInt8.toNat = id.bytes.length := by
      rw [Nat.toUInt8_eq, UInt8.toNat_ofNat']
      exact Nat.mod_eq_of_lt (by omega)
    have hnew : ConnectionId.new id.bytes = ok id := by simp [ConnectionId.new, hhi]
    refine parseFrame_cons (t := 0x18) _ _ (by decide) ?_
    simp [readContent, readNewConnectionId, List.append_assoc, readVarint_wire hseq,
      readVarint_wire hretire, readU8, hbyte, hlo, Nat.not_lt.mpr hhi, readBytes_append, hnew,
      readExact_append]
  | connectionClose errorCode frameType reason =>
    obtain ⟨hcode, htype, hreason⟩ := h
    cases frameType with
    | none =>
      refine parseFrame_cons (t := 0x1d) _ _ (by decide) ?_
      simp [readContent, readConnectionClose, List.append_assoc, readVarint_wire hcode,
        readVarintBytes_wire hreason]
    | some t =>
      refine parseFrame_cons (t := 0x1c) _ _ (by decide) ?_
      simp [readContent, readConnectionClose, List.append_assoc, readVarint_wire hcode,
        readVarint_wire (htype t rfl), readVarintBytes_wire hreason]
  | maxStreams bidi maximum =>
    cases bidi <;> refine parseFrame_cons _ _ (by decide) ?_ <;>
      simp [readContent, readVarint_wire h]
  | streamsBlocked bidi limit =>
    cases bidi <;> refine parseFrame_cons _ _ (by decide) ?_ <;>
      simp [readContent, readVarint_wire h]
  | padding | ping | handshakeDone =>
    exact parseFrame_cons [] rest (by decide) (by simp [readContent])
  | pathChallenge data | pathResponse data =>
    refine parseFrame_cons _ _ (by decide) ?_
    simp [readContent, readExact_append]
  | _ =>
    simp only [WellFormed] at h
    refine parseFrame_cons _ _ (by decide) ?_
    simp [readContent, List.append_assoc, readVarint_wire, readVarintBytes_wire, h]

/-- The writer returns or fails on every buffer. -/
def Total {α : Type} (x : Writer α) : Prop := ∀ buf, (x buf).1 ≠ .panic

/-- Only an ACK without ranges is beyond the writer. -/
lemma putFrame_total {f : Frame} (h : f.HasFirstRange) : Total (putFrame f) := by
  intro buf
  rw [putFrame_fields h]
  rcases fits_or_first f.fields with hfit | ⟨before, v, after, hsplit, hbefore, hv⟩
  · rw [putFields_apply hfit]
    simp
  · rw [hsplit, putFields_refused hbefore hv]
    simp

end DeerQuic.Frame
