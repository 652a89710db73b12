import DeerQuic.Frame

/-!
# A frame as a list of fields

The writer puts one field behind the other, and a field is either bytes or a varint.
Only a varint can be refused, so the first varint beyond the limit is where a write
stops. What stands before it is already in the buffer and is not taken back.
-/

namespace DeerQuic.Frame

open Outcome Checked VarInt

inductive Field where
  | raw (data : Bytes)
  | varint (v : Nat)
  deriving DecidableEq

namespace Field

def Fits : Field → Prop
  | raw _ => True
  | varint v => v ≤ varintMax

def wire : Field → Bytes
  | raw data => data
  | varint v => VarInt.wire v

def put : Field → Writer Unit
  | raw data => putSlice data
  | varint v => putVarint v

end Field

def wireFields (fields : List Field) : Bytes := fields.flatMap Field.wire

def putFields : List Field → Writer Unit
  | [] => pure ()
  | x :: rest => do
    x.put
    putFields rest

lemma putVarint_apply {v : Nat} (hv : v ≤ varintMax) (buf : Bytes) :
    putVarint v buf = (ok (), buf ++ VarInt.wire v) := by
  simp [putVarint, VarInt.putVarint_eq hv]

lemma putVarint_refused {v : Nat} (hv : varintMax < v) (buf : Bytes) :
    putVarint v buf = (err (.varInt (.valueTooLarge v)), buf) := by
  simp [putVarint, VarInt.putVarint_too_large hv]

lemma put_apply {x : Field} (h : x.Fits) (buf : Bytes) :
    x.put buf = (ok (), buf ++ x.wire) := by
  cases x with
  | raw data => rfl
  | varint v => exact putVarint_apply h buf

lemma wireFields_append (xs ys : List Field) :
    wireFields (xs ++ ys) = wireFields xs ++ wireFields ys := List.flatMap_append

lemma putFields_append (xs ys : List Field) :
    putFields (xs ++ ys) = putFields xs >>= fun _ => putFields ys := by
  induction xs with
  | nil => simp [putFields]
  | cons x rest ih => simp [putFields, ih]

/-- Fields that fit are appended in their order. -/
lemma putFields_apply {fields : List Field} (h : ∀ x ∈ fields, x.Fits) (buf : Bytes) :
    putFields fields buf = (ok (), buf ++ wireFields fields) := by
  induction fields generalizing buf with
  | nil => simp [putFields, wireFields]
  | cons x rest ih =>
    have hx := put_apply (h x List.mem_cons_self) buf
    have hrest := ih fun y hy => h y (List.mem_cons_of_mem x hy)
    rw [putFields, Method.bind_apply, Method.andThen_ok hx, hrest, wireFields, wireFields,
      List.flatMap_cons, List.append_assoc]

/-- A varint beyond the limit ends the write behind the fields before it. -/
lemma putFields_refused {before : List Field} {v : Nat} (h : ∀ x ∈ before, x.Fits)
    (hv : varintMax < v) (after : List Field) (buf : Bytes) :
    putFields (before ++ .varint v :: after) buf =
      (err (.varInt (.valueTooLarge v)), buf ++ wireFields before) := by
  have hstop := putVarint_refused hv (buf ++ wireFields before)
  rw [putFields_append, Method.bind_apply, Method.andThen_ok (putFields_apply h buf), putFields,
    Method.bind_apply]
  exact Method.andThen_err hstop _

/-- Either all fields fit, or there is a first one that does not. -/
lemma fits_or_first (fields : List Field) :
    (∀ x ∈ fields, x.Fits) ∨ ∃ before v after, fields = before ++ .varint v :: after ∧
      (∀ x ∈ before, x.Fits) ∧ varintMax < v := by
  induction fields with
  | nil => exact .inl (by simp)
  | cons x rest ih =>
    by_cases hx : x.Fits
    · rcases ih with hall | ⟨before, v, after, rfl, hbefore, hv⟩
      · exact .inl (List.forall_mem_cons.mpr ⟨hx, hall⟩)
      · exact .inr ⟨x :: before, v, after, rfl, List.forall_mem_cons.mpr ⟨hx, hbefore⟩, hv⟩
    · cases x with
      | raw data => exact absurd trivial hx
      | varint v => exact .inr ⟨[], v, rest, rfl, by simp, Nat.not_le.mp hx⟩

def bytesFields (data : Bytes) : List Field := [.varint data.length, .raw data]

def rangeFields (ranges : List AckRange) : List Field :=
  ranges.flatMap fun r => [.varint r.gap, .varint r.range]

def ecnFields : Option EcnCounts → List Field
  | none => []
  | some ecn => [.varint ecn.ect0, .varint ecn.ect1, .varint ecn.ecnCe]

/-- The type byte and what follows it. The first range of an ACK stands among its
fixed fields, with 0 for one that is missing. -/
def fields : Frame → List Field
  | padding => [.raw [0x00]]
  | ping => [.raw [0x01]]
  | ack largestAck ackDelay ranges ecn =>
    [.raw [if ecn.isSome then 0x03 else 0x02], .varint largestAck, .varint ackDelay,
      .varint (ranges.length - 1), .varint ((ranges.head?.map AckRange.range).getD 0)] ++
      (rangeFields ranges.tail ++ ecnFields ecn)
  | resetStream streamId errorCode finalSize =>
    [.raw [0x04], .varint streamId, .varint errorCode, .varint finalSize]
  | stopSending streamId errorCode => [.raw [0x05], .varint streamId, .varint errorCode]
  | crypto offset data => [.raw [0x06], .varint offset] ++ bytesFields data
  | newToken token => .raw [0x07] :: bytesFields token
  | stream streamId offset data fin =>
    [.raw [streamType offset data fin], .varint streamId] ++
      (if 0 < offset then [.varint offset] else []) ++
      (if data.isEmpty then [] else [.varint data.length]) ++ [.raw data]
  | maxData maximum => [.raw [0x10], .varint maximum]
  | maxStreamData streamId maximum => [.raw [0x11], .varint streamId, .varint maximum]
  | maxStreams bidi maximum => [.raw [if bidi then 0x12 else 0x13], .varint maximum]
  | dataBlocked limit => [.raw [0x14], .varint limit]
  | streamDataBlocked streamId limit => [.raw [0x15], .varint streamId, .varint limit]
  | streamsBlocked bidi limit => [.raw [if bidi then 0x16 else 0x17], .varint limit]
  | newConnectionId sequence retirePriorTo id resetToken =>
    [.raw [0x18], .varint sequence, .varint retirePriorTo, .raw [id.bytes.length.toUInt8],
      .raw id.bytes, .raw resetToken.toList]
  | retireConnectionId sequence => [.raw [0x19], .varint sequence]
  | pathChallenge data => [.raw [0x1a], .raw data.toList]
  | pathResponse data => [.raw [0x1b], .raw data.toList]
  | connectionClose errorCode (some frameType) reason =>
    [.raw [0x1c], .varint errorCode, .varint frameType] ++ bytesFields reason
  | connectionClose errorCode none reason => [.raw [0x1d], .varint errorCode] ++ bytesFields reason
  | handshakeDone => [.raw [0x1e]]

/-- Not an ACK without ranges: skipping its first range panics. -/
def HasFirstRange : Frame → Prop
  | ack _ _ ranges _ => ranges ≠ []
  | _ => True

lemma putU8_eq (b : UInt8) : putU8 b = Field.put (.raw [b]) := rfl

lemma putSlice_eq (data : Bytes) : putSlice data = Field.put (.raw data) := rfl

lemma putVarint_eq (v : Nat) : putVarint v = Field.put (.varint v) := rfl

lemma putVarintBytes_fields (data : Bytes) :
    putVarintBytes data = putFields (bytesFields data) := by
  simp [putVarintBytes, bytesFields, putFields, putVarint_eq, putSlice_eq]

lemma putRanges_fields (ranges : List AckRange) :
    putRanges ranges = putFields (rangeFields ranges) := by
  induction ranges with
  | nil => rfl
  | cons r more ih =>
    rw [putRanges, ih]
    rfl

lemma putEcn_fields (ecn : Option EcnCounts) : putEcn ecn = putFields (ecnFields ecn) := by
  cases ecn with
  | none => rfl
  | some e => simp [putEcn, ecnFields, putFields, putVarint_eq]

lemma putAck_fields (largestAck ackDelay : Nat) {ranges : List AckRange} (h : ranges ≠ [])
    (ecn : Option EcnCounts) :
    putAck largestAck ackDelay ranges ecn =
      putFields (ack largestAck ackDelay ranges ecn).fields := by
  have hskip : (Method.lift (sliceFrom ranges 1) : Writer (List AckRange)) = pure ranges.tail := by
    funext buf
    simp [sliceFrom, List.length_pos_iff.mpr h, Nat.succ_le_iff]
  have htype : (if ecn.isSome then 0x02 ||| 0x01 else 0x02 : UInt8) =
      if ecn.isSome then 0x03 else 0x02 := rfl
  rw [putAck, hskip, fields, List.cons_append, htype]
  simp [putFields, putFields_append, putRanges_fields, putEcn_fields, putU8_eq, putVarint_eq]

lemma putStream_fields (streamId offset : Nat) (data : Bytes) (fin : Bool) :
    putStream streamId offset data fin =
      putFields (stream streamId offset data fin).fields := by
  have hoffset : (if 0 < offset then putVarint offset else pure ()) =
      putFields (if 0 < offset then [.varint offset] else []) := by
    split_ifs <;> simp [putFields, putVarint_eq]
  have hlength : (if data.isEmpty then pure () else putVarint data.length) =
      putFields (if data.isEmpty then [] else [.varint data.length]) := by
    split_ifs <;> simp [putFields, putVarint_eq]
  rw [putStream, hoffset, hlength, fields]
  simp [putFields, putFields_append, putU8_eq, putVarint_eq, putSlice_eq]

/-- The writer puts the fields of a frame one behind the other. -/
lemma putFrame_fields {f : Frame} (h : f.HasFirstRange) : putFrame f = putFields f.fields := by
  cases f with
  | ack largestAck ackDelay ranges ecn => exact putAck_fields largestAck ackDelay h ecn
  | stream streamId offset data fin => exact putStream_fields streamId offset data fin
  | connectionClose errorCode frameType reason =>
    cases frameType <;>
      simp [putFrame, fields, putFields, putU8_eq, putVarint_eq, putVarintBytes_fields]
  | _ =>
    simp [putFrame, fields, putFields, putU8_eq, putVarint_eq, putSlice_eq,
      putVarintBytes_fields]

/-- The type byte stands first. -/
lemma fields_eq_raw (f : Frame) : ∃ t rest, f.fields = .raw [t] :: rest := by
  cases f with
  | connectionClose errorCode frameType reason => cases frameType <;> exact ⟨_, _, rfl⟩
  | _ => exact ⟨_, _, rfl⟩

lemma writeFrame_fits {f : Frame} (h : f.HasFirstRange) (hfit : ∀ x ∈ f.fields, x.Fits)
    (buf : Bytes) :
    writeFrame f buf = (ok (wireFields f.fields).length, buf ++ wireFields f.fields) := by
  unfold writeFrame
  rw [putFrame_fields h, putFields_apply hfit]
  simp

lemma writeFrame_refused {f : Frame} (h : f.HasFirstRange) {before after : List Field} {v : Nat}
    (hsplit : f.fields = before ++ .varint v :: after) (hbefore : ∀ x ∈ before, x.Fits)
    (hv : varintMax < v) (buf : Bytes) :
    writeFrame f buf = (err (.varInt (.valueTooLarge v)), buf ++ wireFields before) := by
  unfold writeFrame
  rw [putFrame_fields h, hsplit, putFields_refused hbefore hv]

/-- The whole frame was appended and its length reported. -/
structure Written (f : Frame) (buf : Bytes) : Prop where
  fits : ∀ x ∈ f.fields, x.Fits
  call : writeFrame f buf = (ok (wireFields f.fields).length, buf ++ wireFields f.fields)

/-- The write was refused for the varint `v`, the first one beyond the limit, and left
the type byte `t` and the fields up to `v` in the buffer. -/
structure Refused (f : Frame) (buf : Bytes) (t : UInt8) (before : List Field) (v : Nat) :
    Prop where
  split : ∃ after, f.fields = (.raw [t] :: before) ++ .varint v :: after
  fits : ∀ x ∈ before, x.Fits
  large : varintMax < v
  call : writeFrame f buf =
    (err (.varInt (.valueTooLarge v)), buf ++ t :: wireFields before)

/-- A write ends in one of two ways, and neither is a panic. -/
theorem write_frame_ends {f : Frame} (h : f.HasFirstRange) (buf : Bytes) :
    Written f buf ∨ ∃ t before v, Refused f buf t before v := by
  rcases fits_or_first f.fields with hfit | ⟨before, v, after, hsplit, hbefore, hv⟩
  · exact .inl ⟨hfit, writeFrame_fits h hfit buf⟩
  · obtain ⟨t, rest, htype⟩ := fields_eq_raw f
    have hwrite := writeFrame_refused h hsplit hbefore hv buf
    cases before with
    | nil =>
      rw [htype] at hsplit
      cases hsplit
    | cons x before =>
      have hx : Field.raw [t] = x := (List.cons.inj (htype.symm.trans hsplit)).1
      subst hx
      exact .inr ⟨t, before, v, ⟨after, hsplit⟩,
        fun y hy => hbefore y (List.mem_cons_of_mem _ hy), hv, hwrite⟩

theorem write_frame_ends_maxData : HasFirstRange (maxData (2 ^ 62)) ∧
    (Written (maxData (2 ^ 62)) [0xaa] ∨
      ∃ t before v, Refused (maxData (2 ^ 62)) [0xaa] t before v) :=
  ⟨trivial, write_frame_ends (f := maxData (2 ^ 62)) trivial [0xaa]⟩

/-- All of the frame or nothing of it. -/
def Atomic (f : Frame) (buf : Bytes) : Prop :=
  (∃ appended, writeFrame f buf = (ok appended.length, buf ++ appended)) ∨
    ∃ e, writeFrame f buf = (err e, buf)

/-- The type byte of a refused frame stays in the buffer. -/
theorem maxData_not_atomic :
    writeFrame (maxData (2 ^ 62)) [0xaa] =
        (err (.varInt (.valueTooLarge (2 ^ 62))), [0xaa, 0x10]) ∧
      ¬ Atomic (maxData (2 ^ 62)) [0xaa] := by
  have hwrite : writeFrame (maxData (2 ^ 62)) [0xaa] =
      (err (.varInt (.valueTooLarge (2 ^ 62))), [0xaa, 0x10]) := by
    decide +kernel
  refine ⟨hwrite, ?_⟩
  rintro (⟨appended, hok⟩ | ⟨e, herr⟩)
  · rw [hwrite] at hok
    cases hok
  · rw [hwrite] at herr
    cases herr

end DeerQuic.Frame
