import DeerQuic.FrameGrammar

/-!
# What the frame parser asks memory for

Every read of the parser checks the length first, whatever the bytes. The one thing it asks for
before it has seen the bytes that need it is room for the ranges of an ACK frame: as many as the
peer says there are.
-/

namespace DeerQuic.Frame

open Outcome Checked VarInt

def Quiet {α : Type} (x : Cursor α) : Prop := ∀ buf, x buf ≠ .panic

namespace Quiet

variable {α β : Type}

lemma pure (a : α) : Quiet (Pure.pure a : Cursor α) := fun _ => by simp

lemma bind {x : Cursor α} {f : α → Cursor β} (hx : Quiet x) (hf : ∀ a, Quiet (f a)) :
    Quiet (x >>= f) := by
  intro buf h
  rw [cursor_bind] at h
  rcases hout : x buf with ⟨a, rest⟩ | e | _ <;> rw [hout] at h
  · exact hf a rest h
  · cases h
  · exact hx buf hout

lemma map {x : Cursor α} (hx : Quiet x) (f : α → β) : Quiet (f <$> x) :=
  hx.bind fun a => Quiet.pure (f a)

lemma lift {x : Outcome FrameError α} (hx : x ≠ .panic) : Quiet (StateT.lift x : Cursor α) := by
  intro buf h
  rw [cursor_lift] at h
  cases x with
  | ok a => cases h
  | err e => cases h
  | panic => exact hx rfl

lemma readU8 : Quiet readU8 := by
  intro buf
  cases buf <;> simp [Frame.readU8]

lemma readVarint : Quiet readVarint := by
  intro buf h
  unfold Frame.readVarint at h
  rcases hdecode : VarInt.decode buf with ⟨v, n⟩ | e | _ <;> rw [hdecode] at h
  · have hrest : (sliceFrom buf n : Outcome FrameError Bytes) = ok (buf.drop n) :=
      if_pos (decode_bounds hdecode).2
    simp [hrest] at h
  · cases h
  · exact decode_ne_panic buf hdecode

lemma readBytes (len : Nat) : Quiet (readBytes len) := by
  intro buf
  unfold Frame.readBytes
  split_ifs <;> simp

lemma readExact (len : Nat) : Quiet (readExact len) := by
  intro buf
  unfold Frame.readExact
  split_ifs <;> simp

lemma readVarintBytes : Quiet readVarintBytes :=
  readVarint.bind fun len => readBytes len

lemma readRanges (count : Nat) : Quiet (readRanges count) := by
  induction count with
  | zero => exact Quiet.pure []
  | succ count ih =>
    exact readVarint.bind fun gap => readVarint.bind fun range => ih.bind fun more => Quiet.pure _

lemma readEcn : Quiet readEcn :=
  readVarint.bind fun _ => readVarint.bind fun _ => readVarint.bind fun _ => Quiet.pure _

lemma readStream (ty : Nat) : Quiet (readStream ty) := by
  refine readVarint.bind fun streamId => Quiet.bind ?_ fun offset => Quiet.bind ?_ fun data =>
    Quiet.pure _
  · split_ifs
    · exact readVarint
    · exact Quiet.pure 0
  · split_ifs
    · exact readVarintBytes
    · exact fun buf => by simp

lemma readNewConnectionId : Quiet readNewConnectionId := by
  refine readVarint.bind fun sequence => readVarint.bind fun retirePriorTo =>
    readU8.bind fun cidLen => ?_
  have hnew : ∀ bytes, ConnectionId.new bytes ≠ .panic := fun bytes => by
    unfold ConnectionId.new
    split_ifs <;> simp
  split_ifs
  · exact (readBytes _).bind fun cidBytes => (Quiet.lift (hnew cidBytes)).bind fun id =>
      (readExact 16).bind fun token => Quiet.pure _
  · exact Quiet.lift (by simp)

lemma readConnectionClose (isApp : Bool) : Quiet (readConnectionClose isApp) := by
  refine readVarint.bind fun errorCode => Quiet.bind ?_ fun frameType =>
    readVarintBytes.bind fun reason => Quiet.pure _
  cases isApp with
  | true => exact Quiet.pure none
  | false => exact readVarint.map some

/-- The content of every frame but ACK. -/
lemma readContent {frameType : Nat} (htwo : frameType % 256 ≠ 0x02)
    (hthree : frameType % 256 ≠ 0x03) : Quiet (readContent frameType) := by
  have one : ∀ g : Nat → Frame, Quiet (Frame.readVarint >>= fun v => Pure.pure (g v)) :=
    fun g => readVarint.bind fun v => Quiet.pure (g v)
  have two : ∀ g : Nat → Nat → Frame, Quiet (Frame.readVarint >>= fun v =>
      Frame.readVarint >>= fun w => Pure.pure (g v w)) :=
    fun g => readVarint.bind fun v => one (g v)
  unfold Frame.readContent
  split
  case h_1 | h_2 | h_31 => exact Quiet.pure _
  case h_3 heq => exact absurd heq htwo
  case h_4 heq => exact absurd heq hthree
  case h_5 => exact readVarint.bind fun _ => two _
  case h_6 | h_18 | h_22 => exact two _
  case h_7 => exact readVarint.bind fun _ => readVarintBytes.bind fun _ => Quiet.pure _
  case h_8 => exact readVarintBytes.bind fun _ => Quiet.pure _
  case h_9 | h_10 | h_11 | h_12 | h_13 | h_14 | h_15 | h_16 => exact readStream _
  case h_17 | h_19 | h_20 | h_21 | h_23 | h_24 | h_26 => exact one _
  case h_25 => exact readNewConnectionId
  case h_27 | h_28 => exact (readExact 8).bind fun _ => Quiet.pure _
  case h_29 | h_30 => exact readConnectionClose _
  case h_32 => exact Quiet.lift (by simp)

end Quiet

/-- What an ACK frame says before the parser makes room for its ranges. -/
structure AckHead where
  largestAck : Nat
  ackDelay : Nat
  rangeCount : Nat
  firstRange : Nat

def readAckHead : Cursor AckHead := do
  let largestAck ← readVarint
  let ackDelay ← readVarint
  let rangeCount ← readVarint
  let firstRange ← readVarint
  pure ⟨largestAck, ackDelay, rangeCount, firstRange⟩

def readAckRanges (ecn : Bool) (head : AckHead) : Cursor Frame := do
  let more ← readRanges head.rangeCount
  let ecnCounts ← (if ecn then some <$> readEcn else pure none : Cursor (Option EcnCounts))
  pure (.ack head.largestAck head.ackDelay (⟨0, head.firstRange⟩ :: more) ecnCounts)

lemma readAckHead_quiet : Quiet readAckHead :=
  Quiet.readVarint.bind fun _ => Quiet.readVarint.bind fun _ => Quiet.readVarint.bind fun _ =>
    Quiet.readVarint.bind fun _ => Quiet.pure _

lemma readAckRanges_quiet (ecn : Bool) (head : AckHead) : Quiet (readAckRanges ecn head) := by
  refine (Quiet.readRanges _).bind fun more => Quiet.bind ?_ fun counts => Quiet.pure _
  cases ecn with
  | true => exact Quiet.readEcn.map some
  | false => exact Quiet.pure none

/-- The parser of an ACK frame panics when there is no room, and otherwise not. -/
lemma readAck_eq (ecn : Bool) (buf : Bytes) :
    readAck ecn buf = readAckHead buf >>= fun p =>
      (withCapacity (p.1.rangeCount + 1) 16 : Outcome FrameError Unit) >>= fun _ =>
        readAckRanges ecn p.1 p.2 := by
  simp only [readAck, readAckHead, readAckRanges, cursor_bind, cursor_lift, cursor_pure,
    bind_bind, ok_bind]

lemma readContent_ack {frameType : Nat} (h : frameType % 256 = 0x02 ∨ frameType % 256 = 0x03) :
    readContent frameType = readAck (decide (frameType &&& 0x01 ≠ 0)) := by
  unfold readContent
  rcases h with h | h
  · rw [h]
    rfl
  · rw [h]
    rfl

/-- The number of further ranges that an ACK frame announces, once what stands before them is
there to be read. -/
def rangeCount (buf : Bytes) : Option Nat :=
  match VarInt.decode buf with
  | ok (frameType, _) =>
    if frameType % 256 = 0x02 ∨ frameType % 256 = 0x03 then
      match readAckHead (buf.drop 1) with
      | ok (head, _) => some head.rangeCount
      | _ => none
    else none
  | _ => none

/-- How many ranges the parser asks room for, if it comes to that. -/
def requested (buf : Bytes) : Option Nat := (rangeCount buf).map (· + 1)

/-- What follows the frame does not panic. -/
lemma consumed_eq_panic {x : Outcome FrameError (Frame × Bytes)} {len : Nat} :
    (x >>= fun p => ok (p.1, len - p.2.length)) = .panic ↔ x = .panic := by
  cases x <;> simp

/-- Nothing but the request for room can panic. -/
theorem parseFrame_eq_panic (buf : Bytes) :
    parseFrame buf = .panic ↔ ∃ n, requested buf = some n ∧ 2 ^ 63 - 1 < n * 16 := by
  unfold requested rangeCount
  rcases hdecode : VarInt.decode buf with ⟨frameType, k⟩ | e | _
  · rw [parseFrame_eq hdecode, consumed_eq_panic]
    dsimp only
    split_ifs with htype
    · rw [readContent_ack htype, readAck_eq]
      rcases hhead : readAckHead (buf.drop 1) with ⟨head, rest⟩ | e | _
      · have hranges := readAckRanges_quiet (decide (frameType &&& 0x01 ≠ 0)) head rest
        by_cases hroom : (head.rangeCount + 1) * 16 ≤ 2 ^ 63 - 1
        · have hreserved : (withCapacity (head.rangeCount + 1) 16 : Outcome FrameError Unit) =
              ok () := if_pos hroom
          rw [ok_bind, hreserved, ok_bind]
          constructor
          · intro hpanic
            exact absurd hpanic hranges
          · rintro ⟨n, hn, hlarge⟩
            obtain rfl : head.rangeCount + 1 = n := Option.some.inj hn
            omega
        · have hrefused : (withCapacity (head.rangeCount + 1) 16 : Outcome FrameError Unit) =
              .panic := if_neg hroom
          rw [ok_bind, hrefused, panic_bind, eq_self, true_iff]
          exact ⟨head.rangeCount + 1, rfl, by omega⟩
      · simp
      · exact absurd hhead (readAckHead_quiet _)
    · obtain ⟨htwo, hthree⟩ := not_or.mp htype
      constructor
      · intro hpanic
        exact absurd hpanic (Quiet.readContent htwo hthree (buf.drop 1))
      · rintro ⟨n, hn, -⟩
        cases hn
  · simp [parseFrame, hdecode]
  · exact absurd hdecode (decode_ne_panic buf)

/-- The parser returns, and the room it asks for is bounded by the bytes it was given and by what
an allocation may ask for. -/
structure ParsesWithin (buf : Bytes) : Prop where
  returns : parseFrame buf ≠ .panic
  bounded : ∀ n ∈ requested buf, n ≤ buf.length
  allocable : ∀ n ∈ requested buf, n * 16 ≤ 2 ^ 63 - 1

/-- Only the number that an ACK frame announces decides it: nothing holds it to the bytes that
are there. It is the number for which the parser asks room, and with what nothing else panics. -/
theorem parses_within_iff (buf : Bytes) :
    (∀ (ecn : Bool) (more : Bytes), readAck ecn more = readAckHead more >>= fun p =>
      (withCapacity (p.1.rangeCount + 1) 16 : Outcome FrameError Unit) >>= fun _ =>
        readAckRanges ecn p.1 p.2) ∧
    (parseFrame buf = .panic ↔ ∃ n, requested buf = some n ∧ 2 ^ 63 - 1 < n * 16) ∧
    (ParsesWithin buf ↔
      ∀ count ∈ rangeCount buf, count < buf.length ∧ count < 2 ^ 59 - 1) := by
  refine ⟨readAck_eq, parseFrame_eq_panic buf, ?_⟩
  have hrequested : ∀ n, n ∈ requested buf ↔ ∃ count ∈ rangeCount buf, count + 1 = n := by
    intro n
    simp [requested]
  constructor
  · intro h count hcount
    have hmem := (hrequested _).mpr ⟨count, hcount, rfl⟩
    have hlength := h.bounded _ hmem
    have hbytes := h.allocable _ hmem
    omega
  · intro h
    have hfits : ∀ n ∈ requested buf, n ≤ buf.length ∧ n * 16 ≤ 2 ^ 63 - 1 := by
      intro n hn
      obtain ⟨count, hcount, rfl⟩ := (hrequested n).mp hn
      have hsmall := h count hcount
      omega
    refine ⟨?_, fun n hn => (hfits n hn).1, fun n hn => (hfits n hn).2⟩
    intro hpanic
    obtain ⟨n, hn, hlarge⟩ := (parseFrame_eq_panic buf).mp hpanic
    have hroom := (hfits n hn).2
    omega

/-- Twelve bytes that ask for more than a process can have. -/
theorem ack_count_panics :
    parseFrame [0x02, 0, 0, 0xff, 0xff, 0xff, 0xff, 0xff, 0xff, 0xff, 0xff, 0] = .panic := by
  decide +kernel

end DeerQuic.Frame
