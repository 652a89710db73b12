import DeerQuic.FrameCodec
import Mathlib.Tactic.NormNum

/-!
# The frame grammar

What the parser returns is well formed, so it can be written and parsed back. A frame type is
meant to take one byte. The check for that compares the type with its shortest encoding, which
a type up to 63 always passes, and the branch is chosen by the low eight bits of the type.
-/

namespace DeerQuic

open Outcome Checked

/-- The error is about the content of a frame, not about its type. -/
def FrameError.OfContent : FrameError → Prop
  | .unknownType _ | .nonMinimalType _ => False
  | _ => True

namespace Frame

open VarInt

/-- From at most `limit` bytes the cursor reads a value with `Q`, or fails for another reason
than the frame type. -/
def Reads {α : Type} (limit : Nat) (Q : α → Prop) (x : Cursor α) : Prop :=
  ∀ buf, buf.length ≤ limit →
    match x buf with
    | ok (a, rest) => Q a ∧ rest.length ≤ limit
    | err e => e.OfContent
    | .panic => True

namespace Reads

variable {α β : Type} {limit : Nat}

lemma pure {Q : α → Prop} {a : α} (h : Q a) : Reads limit Q (Pure.pure a : Cursor α) :=
  fun _ hbuf => ⟨h, hbuf⟩

lemma bind {P : α → Prop} {Q : β → Prop} {x : Cursor α} {f : α → Cursor β}
    (hx : Reads limit P x) (hf : ∀ a, P a → Reads limit Q (f a)) : Reads limit Q (x >>= f) := by
  intro buf hbuf
  have hread := hx buf hbuf
  rw [cursor_bind]
  rcases hout : x buf with ⟨a, rest⟩ | e | _ <;> rw [hout] at hread
  · exact hf a hread.1 rest hread.2
  · exact hread
  · trivial

lemma map {P : α → Prop} {Q : β → Prop} {x : Cursor α} {f : α → β} (hx : Reads limit P x)
    (hf : ∀ a, P a → Q (f a)) : Reads limit Q (f <$> x) := by
  have hmap : f <$> x = x >>= fun a => Pure.pure (f a) := rfl
  rw [hmap]
  exact hx.bind fun a ha => Reads.pure (hf a ha)

lemma imp {P Q : α → Prop} {x : Cursor α} (hx : Reads limit P x) (hPQ : ∀ a, P a → Q a) :
    Reads limit Q x := by
  intro buf hbuf
  have hread := hx buf hbuf
  rcases hout : x buf with ⟨a, rest⟩ | e | _ <;> rw [hout] at hread
  · exact ⟨hPQ a hread.1, hread.2⟩
  · exact hread
  · trivial

lemma readU8 : Reads limit (fun _ => True) readU8 := by
  intro buf hbuf
  cases buf with
  | nil => trivial
  | cons b rest => exact ⟨trivial, Nat.le_of_succ_le hbuf⟩

lemma readVarint : Reads limit (· ≤ varintMax) readVarint := by
  intro buf hbuf
  unfold Frame.readVarint
  rcases hdecode : VarInt.decode buf with ⟨v, n⟩ | e | _
  · obtain ⟨_, hn⟩ := decode_bounds hdecode
    have hrest : (sliceFrom buf n : Outcome FrameError Bytes) = ok (buf.drop n) := if_pos hn
    simp only [mapErr_ok, ok_bind, hrest]
    refine ⟨decode_le hdecode, ?_⟩
    rw [List.length_drop]
    omega
  · trivial
  · trivial

lemma readBytes (len : Nat) :
    Reads limit (fun data => data.length = len) (readBytes len) := by
  intro buf hbuf
  unfold Frame.readBytes
  split_ifs with hlen
  · trivial
  · have htake : (buf.take len).length = len := by
      rw [List.length_take]
      omega
    refine ⟨htake, ?_⟩
    rw [List.length_drop]
    omega

lemma readExact (len : Nat) : Reads limit (fun _ => True) (readExact len) := by
  intro buf hbuf
  unfold Frame.readExact
  split_ifs with hlen
  · trivial
  · refine ⟨trivial, ?_⟩
    rw [List.length_drop]
    omega

lemma readVarintBytes :
    Reads limit (fun data => data.length ≤ varintMax) readVarintBytes := by
  refine readVarint.bind fun len hlen => (readBytes len).imp fun data hdata => ?_
  exact hdata.trans_le hlen

lemma readRanges (count : Nat) :
    Reads limit (fun ranges => ranges.length = count ∧
      ∀ r ∈ ranges, r.gap ≤ varintMax ∧ r.range ≤ varintMax) (readRanges count) := by
  induction count with
  | zero => exact Reads.pure ⟨rfl, by simp⟩
  | succ count ih =>
    refine readVarint.bind fun gap hgap => readVarint.bind fun range hrange =>
      ih.bind fun more ⟨hcount, hmore⟩ => Reads.pure ⟨by rw [List.length_cons, hcount], ?_⟩
    intro r hr
    rcases List.mem_cons.mp hr with rfl | hr
    · exact ⟨hgap, hrange⟩
    · exact hmore r hr

lemma readEcn : Reads limit EcnFits readEcn :=
  readVarint.bind fun _ h0 => readVarint.bind fun _ h1 => readVarint.bind fun _ h2 =>
    Reads.pure ⟨h0, h1, h2⟩

/-- The room that was asked for bounds the number of ranges. -/
lemma withCapacity (n size : Nat) :
    Reads limit (fun _ => n * size ≤ 2 ^ 63 - 1)
      (StateT.lift (Checked.withCapacity n size) : Cursor Unit) := by
  intro buf hbuf
  rw [cursor_lift]
  unfold Checked.withCapacity
  split_ifs with hroom
  · exact ⟨hroom, hbuf⟩
  · trivial

lemma readAck (ecn : Bool) : Reads limit WellFormed (readAck ecn) := by
  refine readVarint.bind fun largestAck hlargest => readVarint.bind fun ackDelay hdelay =>
    readVarint.bind fun count _ => readVarint.bind fun first hfirst =>
      (withCapacity (count + 1) 16).bind fun _ hroom =>
        (readRanges count).bind fun more ⟨hcount, hmore⟩ => ?_
  have hecn : Reads limit (fun counts : Option EcnCounts => ∀ e ∈ counts, EcnFits e)
      (if ecn then some <$> Frame.readEcn else Pure.pure none : Cursor (Option EcnCounts)) := by
    cases ecn with
    | true =>
      refine readEcn.map fun counts hcounts e he => ?_
      cases he
      exact hcounts
    | false => exact Reads.pure (by simp)
  refine hecn.bind fun counts hcounts => Reads.pure
    ⟨hlargest, hdelay, by rw [List.length_cons, hcount]; exact hroom, ⟨first, more, rfl⟩, ?_, hcounts⟩
  intro r hr
  rcases List.mem_cons.mp hr with rfl | hr
  · exact ⟨Nat.zero_le _, hfirst⟩
  · exact hmore r hr

/-- Without a length only the buffer bounds the data. -/
lemma readStream (ty : Nat) :
    Reads limit (fun f => limit ≤ varintMax → f.WellFormed) (readStream ty) := by
  refine readVarint.bind fun streamId hid => Reads.bind (P := (· ≤ varintMax)) ?_
    fun offset hoffset => Reads.bind
      (P := fun data : Bytes => limit ≤ varintMax → data.length ≤ varintMax) ?_
        fun data hdata => Reads.pure fun hlimit => ⟨hid, hoffset, hdata hlimit⟩
  · split_ifs
    · exact readVarint
    · exact Reads.pure (Nat.zero_le _)
  · split_ifs
    · exact readVarintBytes.imp fun _ hdata _ => hdata
    · exact fun buf hbuf => ⟨hbuf.trans, Nat.zero_le _⟩

lemma readNewConnectionId : Reads limit WellFormed readNewConnectionId := by
  refine readVarint.bind fun sequence hseq => readVarint.bind fun retirePriorTo hretire =>
    readU8.bind fun cidLen _ => ?_
  split_ifs with hlen
  · refine (readBytes _).bind fun cidBytes hcid => ?_
    have hnew : ConnectionId.new cidBytes = ok ⟨cidBytes⟩ := if_neg (by omega)
    rw [hnew]
    refine Reads.bind (P := (· = ⟨cidBytes⟩)) (fun _ hbuf => ⟨rfl, hbuf⟩) fun id hid => ?_
    subst hid
    have hlo : 1 ≤ cidBytes.length := by omega
    have hhi : cidBytes.length ≤ 20 := by omega
    exact (readExact 16).bind fun _ _ => Reads.pure ⟨hseq, hretire, hlo, hhi⟩
  · exact fun _ _ => trivial

lemma readConnectionClose (isApp : Bool) : Reads limit WellFormed (readConnectionClose isApp) := by
  refine readVarint.bind fun errorCode hcode => Reads.bind
    (P := fun frameType : Option Nat => ∀ t ∈ frameType, t ≤ varintMax) ?_
      fun frameType htype => readVarintBytes.bind fun reason hreason =>
        Reads.pure ⟨hcode, htype, hreason⟩
  cases isApp with
  | true => exact Reads.pure (by simp)
  | false =>
    refine readVarint.map fun v hv t ht => ?_
    cases ht
    exact hv

/-- The content of a frame whose type has defined low bits. -/
lemma readContent {frameType : Nat} (htype : frameType % 256 ≤ 0x1e) :
    Reads limit (fun f => limit ≤ varintMax → f.WellFormed) (readContent frameType) := by
  have always : ∀ {x : Cursor Frame}, Reads limit WellFormed x →
      Reads limit (fun f => limit ≤ varintMax → f.WellFormed) x :=
    fun hx => hx.imp fun _ hf _ => hf
  have one : ∀ g : Nat → Frame, (∀ v ≤ varintMax, (g v).WellFormed) →
      Reads limit WellFormed (Frame.readVarint >>= fun v => Pure.pure (g v)) :=
    fun g hg => readVarint.bind fun v hv => Reads.pure (hg v hv)
  have two : ∀ g : Nat → Nat → Frame, (∀ v ≤ varintMax, ∀ w ≤ varintMax, (g v w).WellFormed) →
      Reads limit WellFormed (Frame.readVarint >>= fun v =>
        Frame.readVarint >>= fun w => Pure.pure (g v w)) :=
    fun g hg => readVarint.bind fun v hv => one (g v) (hg v hv)
  unfold Frame.readContent
  split
  case h_1 | h_2 | h_31 => exact always (Reads.pure trivial)
  case h_3 | h_4 => exact always (readAck _)
  case h_5 =>
    exact always (readVarint.bind fun _ hu => two _ fun _ hv _ hw => ⟨hu, hv, hw⟩)
  case h_6 | h_18 | h_22 => exact always (two _ fun _ hv _ hw => ⟨hv, hw⟩)
  case h_7 =>
    exact always (readVarint.bind fun _ hv => readVarintBytes.bind fun _ h => Reads.pure ⟨hv, h⟩)
  case h_8 => exact always (readVarintBytes.bind fun _ h => Reads.pure h)
  case h_9 | h_10 | h_11 | h_12 | h_13 | h_14 | h_15 | h_16 => exact readStream _
  case h_17 | h_19 | h_20 | h_21 | h_23 | h_24 | h_26 => exact always (one _ fun _ hv => hv)
  case h_25 => exact always readNewConnectionId
  case h_27 | h_28 => exact always ((readExact 8).bind fun _ _ => Reads.pure trivial)
  case h_29 | h_30 => exact always (readConnectionClose _)
  case h_32 =>
    simp only [imp_false] at *
    omega

end Reads

lemma readContent_unknown {frameType : Nat} (htype : 0x1e < frameType % 256) :
    readContent frameType = StateT.lift (err (.unknownType frameType)) := by
  unfold readContent
  split
  case h_32 => rfl
  all_goals omega

/-- The check for the shortest type encoding never fires, and one byte is skipped. -/
lemma parseFrame_eq {buf : Bytes} {frameType k : Nat}
    (hdecode : VarInt.decode buf = ok (frameType, k)) :
    parseFrame buf = (readContent frameType (buf.drop 1) >>= fun p =>
      ok (p.1, buf.length - p.2.length)) := by
  obtain ⟨hk, hlen⟩ := decode_bounds hdecode
  have hminimal : ¬ (frameType ≤ 63 ∧ VarInt.encodedLen frameType ≠ 1) := by
    rintro ⟨hsmall, hone⟩
    exact hone (if_pos hsmall)
  have hcontent : (sliceFrom buf 1 : Outcome FrameError Bytes) = ok (buf.drop 1) :=
    if_pos (hk.trans hlen)
  simp only [parseFrame, hdecode, mapErr_ok, ok_bind, if_neg hminimal, hcontent]

lemma parseFrame_reads {buf : Bytes} {frameType k : Nat}
    (hdecode : VarInt.decode buf = ok (frameType, k)) (htype : frameType % 256 ≤ 0x1e) :
    (∀ f n, parseFrame buf = ok (f, n) → buf.length ≤ varintMax → f.WellFormed) ∧
      ∀ e, parseFrame buf = err e → e.OfContent := by
  have hcontent : (buf.drop 1).length ≤ buf.length := by
    rw [List.length_drop]
    omega
  have hreads := Reads.readContent htype (buf.drop 1) hcontent
  rw [parseFrame_eq hdecode]
  rcases hout : readContent frameType (buf.drop 1) with ⟨f, rest⟩ | e | _ <;> rw [hout] at hreads
  · constructor
    · intro g n h
      cases h
      exact hreads.1
    · intro e h
      cases h
  · constructor
    · intro g n h
      cases h
    · intro e' h
      cases h
      exact hreads
  · constructor
    · intro f n h
      cases h
    · intro e h
      cases h

lemma decode_of_parseFrame {buf : Bytes} {f : Frame} {n : Nat} (h : parseFrame buf = ok (f, n)) :
    ∃ frameType k, VarInt.decode buf = ok (frameType, k) ∧ frameType % 256 ≤ 0x1e := by
  have hdecoded : ∃ frameType k, VarInt.decode buf = ok (frameType, k) := by
    simp only [parseFrame, bind_eq_ok, mapErr_eq_ok] at h
    obtain ⟨⟨frameType, k⟩, hdecode, _⟩ := h
    exact ⟨frameType, k, hdecode⟩
  obtain ⟨frameType, k, hdecode⟩ := hdecoded
  refine ⟨frameType, k, hdecode, ?_⟩
  by_contra htype
  rw [parseFrame_eq hdecode, readContent_unknown (Nat.not_le.mp htype)] at h
  cases h

/-- A parsed frame took at least its type byte and at most the whole buffer. -/
theorem parseFrame_consumes {buf : Bytes} {f : Frame} {n : Nat}
    (h : parseFrame buf = ok (f, n)) : 1 ≤ n ∧ n ≤ buf.length := by
  obtain ⟨frameType, k, hdecode, htype⟩ := decode_of_parseFrame h
  have hreads := Reads.readContent htype (buf.drop 1) (Nat.le_refl _)
  have hbuf := decode_bounds hdecode
  rw [parseFrame_eq hdecode] at h
  rcases hout : readContent frameType (buf.drop 1) with ⟨g, rest⟩ | e | _ <;> rw [hout] at hreads h
  · have hconsumed := (Prod.mk.inj (ok.inj h)).2
    have hrest := hreads.2
    rw [List.length_drop] at hrest
    dsimp only at hconsumed
    omega
  · cases h
  · cases h

theorem wellFormed_of_parseFrame {buf : Bytes} {f : Frame} {n : Nat}
    (h : parseFrame buf = ok (f, n)) (hbuf : buf.length < 2 ^ 62) : f.WellFormed := by
  obtain ⟨frameType, k, hdecode, htype⟩ := decode_of_parseFrame h
  exact (parseFrame_reads hdecode htype).1 f n h (Nat.le_sub_one_of_lt hbuf)

/-- A STREAM frame without data takes the rest of the buffer for its data. -/
lemma parse_stream_open {streamId offset : Nat} {fin : Bool}
    (h : (stream streamId offset [] fin).WellFormed) (rest : Bytes) :
    parseFrame ((stream streamId offset [] fin).wire ++ rest) =
      ok (stream streamId offset rest fin,
        (stream streamId offset [] fin).wire.length + rest.length) := by
  obtain ⟨hid, hoffset, _⟩ := h
  have hwire : (stream streamId offset [] fin).wire ++ rest =
      streamType offset [] fin :: ((VarInt.wire streamId ++
        (if 0 < offset then VarInt.wire offset else []) ++ rest) ++ []) := by
    simp [wire]
  have hlength : (stream streamId offset [] fin).wire.length + rest.length =
      (VarInt.wire streamId ++ (if 0 < offset then VarInt.wire offset else []) ++ rest).length + 1 := by
    rw [← List.length_append, hwire]
    simp
  rw [hwire, hlength]
  cases fin <;> by_cases h0 : 0 < offset
  all_goals
    have hzero : ¬ 0 < offset → offset = 0 := by omega
    refine parseFrame_cons _ _ (by simp [streamType, h0]) ?_
    simp [streamType, readContent, readStream, h0, List.append_assoc, readVarint_wire hid,
      readVarint_wire hoffset]
  all_goals exact (hzero h0).symm

lemma parseFrame_wire_alone {f : Frame} (h : f.WellFormed) :
    parseFrame f.wire = ok (f, f.wire.length) := by
  by_cases hs : f.SelfDelimiting
  · have hparse := parseFrame_wire h hs []
    rwa [List.append_nil] at hparse
  · cases f with
    | stream streamId offset data fin =>
      simp only [SelfDelimiting, ne_eq, not_not] at hs
      subst hs
      have hparse := parse_stream_open h []
      rwa [List.append_nil] at hparse
    | _ => exact absurd trivial hs

/-- A well-formed frame is written and parsed back from exactly the bytes written, and only
well-formed frames are parsed. -/
theorem frame_round_trip :
    (∀ f : Frame, f.WellFormed → ∀ buf, ∃ written,
      writeFrame f buf = (ok written.length, buf ++ written) ∧
        parseFrame written = ok (f, written.length)) ∧
      ∀ buf f n, buf.length < 2 ^ 62 → parseFrame buf = ok (f, n) → f.WellFormed :=
  ⟨fun f h buf => ⟨f.wire, writeFrame_eq h buf, parseFrame_wire_alone h⟩,
    fun _ _ _ hbuf h => wellFormed_of_parseFrame h hbuf⟩

/-- A STREAM frame without data, and a MAX_DATA frame with more behind it. -/
theorem frame_round_trip_empty_stream :
    (∃ written, writeFrame (.stream 4 0 [] true) [0xff] = (ok written.length, [0xff] ++ written) ∧
      parseFrame written = ok (.stream 4 0 [] true, written.length)) ∧
      (maxData 0x1234).WellFormed :=
  ⟨frame_round_trip.1 (.stream 4 0 [] true) ⟨by decide, by decide, by decide⟩ [0xff],
    frame_round_trip.2 [0x10, 0x52, 0x34, 0x00] _ 3 (by decide) (by decide +kernel)⟩

/-- A frame type is one of the defined ones and takes one byte. `frameType` is what the first
varint of `buf` decodes to, `k` the bytes it takes. -/
def TypeGrammar (buf : Bytes) (frameType k : Nat) : Prop :=
  (∀ f n, parseFrame buf = ok (f, n) → k = 1 ∧ frameType ≤ 0x1e) ∧
    (frameType ≤ 0x1e → k ≠ 1 → parseFrame buf = err (.nonMinimalType frameType)) ∧
    (0x1e < frameType → parseFrame buf = err (.unknownType frameType))

/-- The grammar holds of exactly the types that take one byte and those whose low eight bits
are no defined type. -/
theorem frame_type_grammar_iff {buf : Bytes} {frameType k : Nat}
    (hdecode : VarInt.decode buf = ok (frameType, k)) :
    TypeGrammar buf frameType k ↔ k = 1 ∨ 0x1e < frameType % 256 := by
  constructor
  · rintro ⟨_, hminimal, hunknown⟩
    by_contra hbad
    rw [not_or, Nat.not_lt] at hbad
    obtain ⟨hk, hlow⟩ := hbad
    have hcontent := (parseFrame_reads hdecode hlow).2
    rcases Nat.lt_or_ge 0x1e frameType with hlarge | hsmall
    · exact hcontent _ (hunknown hlarge)
    · exact hcontent _ (hminimal hsmall hk)
  · intro hgood
    by_cases hlow : 0x1e < frameType % 256
    · have hlarge : 0x1e < frameType := hlow.trans_le (Nat.mod_le _ _)
      have hunknown : parseFrame buf = err (.unknownType frameType) := by
        rw [parseFrame_eq hdecode, readContent_unknown hlow]
        rfl
      refine ⟨fun f n h => ?_, fun hsmall => absurd hlarge (Nat.not_lt.mpr hsmall), fun _ => hunknown⟩
      rw [hunknown] at h
      cases h
    · have hk : k = 1 := hgood.resolve_right hlow
      subst hk
      have hbyte := decode_one hdecode
      have hsmall : frameType ≤ 0x1e := by omega
      exact ⟨fun _ _ _ => ⟨rfl, hsmall⟩, fun _ hne => absurd rfl hne,
        fun hlarge => absurd hlarge (Nat.not_lt.mpr hsmall)⟩

/-- PING, and something behind it. -/
theorem frame_type_grammar_iff_ping : TypeGrammar [0x01, 0x40] 1 1 :=
  (frame_type_grammar_iff (by decide)).mpr (.inl rfl)

/-- PADDING with a type of two bytes: accepted, and the second byte is left as content. -/
theorem long_type_accepted :
    VarInt.decode [0x40, 0x00] = ok (0, 2) ∧ parseFrame [0x40, 0x00] = ok (.padding, 1) ∧
      ¬ TypeGrammar [0x40, 0x00] 0 2 := by
  have hparse : parseFrame [0x40, 0x00] = ok (.padding, 1) := by decide
  refine ⟨by decide, hparse, fun hgrammar => ?_⟩
  have htwo := (hgrammar.1 _ _ hparse).1
  cases htwo

end Frame
end DeerQuic
