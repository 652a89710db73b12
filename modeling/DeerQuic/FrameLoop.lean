import DeerQuic.FrameGrammar
import DeerQuic.Protection

/-!
# The frame loop

The loop parses frames off the front of a payload until nothing is left. On frames written one
after another it finds each of them, as long as every frame fixes its own end. The writer leaves
out the length of a STREAM frame without data, which then takes whatever stands behind it.
-/

namespace DeerQuic.Protection

open Outcome Checked

/-- Fuel beyond the length of the payload makes no difference. -/
lemma parseFramesFuel_congr {fuel fuel' : Nat} {plaintext : Bytes} (h : plaintext.length ≤ fuel)
    (h' : plaintext.length ≤ fuel') :
    parseFramesFuel fuel plaintext = parseFramesFuel fuel' plaintext := by
  induction fuel generalizing fuel' plaintext with
  | zero =>
    rw [List.length_eq_zero_iff.mp (Nat.le_zero.mp h)]
    simp [parseFramesFuel]
  | succ fuel ih =>
    cases plaintext with
    | nil => simp [parseFramesFuel]
    | cons b bs =>
      obtain ⟨fuel', rfl⟩ : ∃ n, fuel' = n + 1 := Nat.exists_eq_succ_of_ne_zero (by
        rintro rfl
        cases h')
      unfold parseFramesFuel
      cases hparse : Frame.parseFrame (b :: bs) with
      | err _ | panic => rfl
      | ok out =>
        obtain ⟨hpos, hle⟩ := Frame.parseFrame_consumes (f := out.1) (n := out.2) hparse
        have hrest : (sliceFrom (b :: bs) out.2 : Outcome FrameError Bytes) =
            ok ((b :: bs).drop out.2) := if_pos hle
        have hlength : ((b :: bs).drop out.2).length ≤ bs.length := by
          rw [List.length_drop, List.length_cons]
          omega
        have hnext := ih (hlength.trans (Nat.le_of_succ_le_succ h))
          (hlength.trans (Nat.le_of_succ_le_succ h'))
        simp only [ok_bind, hrest, hnext]

lemma parseFrames_step {buf : Bytes} {f : Frame} {n : Nat} (h : Frame.parseFrame buf = ok (f, n)) :
    parseFrames buf = (parseFrames (buf.drop n) >>= fun frames => ok (f :: frames)) := by
  obtain ⟨hpos, hle⟩ := Frame.parseFrame_consumes h
  obtain ⟨b, bs, rfl⟩ := List.exists_cons_of_length_pos (hpos.trans hle)
  have hrest : (sliceFrom (b :: bs) n : Outcome FrameError Bytes) = ok ((b :: bs).drop n) :=
    if_pos hle
  have hlength : ((b :: bs).drop n).length ≤ bs.length := by
    rw [List.length_drop, List.length_cons]
    omega
  have hfuel := parseFramesFuel_congr hlength (Nat.le_refl _)
  simp only [parseFrames, List.length_cons, parseFramesFuel, h, ok_bind, hrest, hfuel]

/-- The loop finds the frames at the front of `bytes`, each in the bytes it is written as. -/
def FindsEach : List Frame → Bytes → Prop
  | [], _ => True
  | f :: fs, bytes =>
    Frame.parseFrame bytes = ok (f, (Frame.writeFrame f []).2.length) ∧
      FindsEach fs (bytes.drop (Frame.writeFrame f []).2.length)

/-- No STREAM frame without data has anything behind it. -/
def Delimited (rest : Bytes) : List Frame → Prop
  | [] => True
  | f :: fs => (f.SelfDelimiting ∨ fs = [] ∧ rest = []) ∧ Delimited rest fs

lemma delimited_of_forall {frames : List Frame} (h : ∀ f ∈ frames, f.SelfDelimiting) (rest : Bytes) :
    Delimited rest frames := by
  induction frames with
  | nil => trivial
  | cons f fs ih =>
    exact ⟨.inl (h f List.mem_cons_self), ih fun g hg => h g (List.mem_cons_of_mem _ hg)⟩

lemma written_eq {f : Frame} (h : f.WellFormed) : (Frame.writeFrame f []).2 = f.wire := by
  rw [Frame.writeFrame_eq h, List.nil_append]

lemma wire_ne_nil {f : Frame} (h : f.WellFormed) : f.wire ≠ [] := by
  intro hnil
  have hparse := Frame.parseFrame_wire_alone h
  rw [hnil] at hparse
  cases hparse

/-- One step of the loop over a written frame, whatever stands behind it. -/
lemma parseFrame_exact_iff {f : Frame} (h : f.WellFormed) (behind : Bytes) :
    Frame.parseFrame (f.wire ++ behind) = ok (f, f.wire.length) ↔ f.SelfDelimiting ∨ behind = [] := by
  constructor
  · intro hparse
    by_cases hs : f.SelfDelimiting
    · exact .inl hs
    · cases f with
      | stream streamId offset data fin =>
        simp only [Frame.SelfDelimiting, ne_eq, not_not] at hs
        subst hs
        rw [Frame.parse_stream_open h behind] at hparse
        simp only [ok.injEq, Prod.mk.injEq, Frame.stream.injEq] at hparse
        exact .inr hparse.1.2.2.1
      | _ => exact absurd trivial hs
  · rintro (hs | rfl)
    · exact Frame.parseFrame_wire h hs behind
    · rw [List.append_nil]
      exact Frame.parseFrame_wire_alone h

lemma findsEach_iff {frames : List Frame} (h : ∀ f ∈ frames, f.WellFormed) (rest : Bytes) :
    FindsEach frames (frames.flatMap Frame.wire ++ rest) ↔ Delimited rest frames := by
  induction frames with
  | nil => rfl
  | cons f fs ih =>
    have hf := h f List.mem_cons_self
    have hfs := ih fun g hg => h g (List.mem_cons_of_mem _ hg)
    have hbehind : fs.flatMap Frame.wire ++ rest = [] ↔ fs = [] ∧ rest = [] := by
      rw [List.append_eq_nil_iff]
      refine and_congr_left fun _ => ⟨fun hnil => ?_, fun hnil => by rw [hnil]; rfl⟩
      by_contra hne
      obtain ⟨g, gs, rfl⟩ := List.exists_cons_of_ne_nil hne
      rw [List.flatMap_cons, List.append_eq_nil_iff] at hnil
      exact wire_ne_nil (h g (List.mem_cons_of_mem _ List.mem_cons_self)) hnil.1
    rw [FindsEach, Delimited, written_eq hf, List.flatMap_cons, List.append_assoc,
      List.drop_left, hfs, parseFrame_exact_iff hf, hbehind]

/-- What the steps find is what the loop returns, and it goes on behind. -/
lemma parseFrames_of_findsEach {frames : List Frame} (h : ∀ f ∈ frames, f.WellFormed) {rest : Bytes}
    (hfinds : FindsEach frames (frames.flatMap Frame.wire ++ rest)) :
    parseFrames (frames.flatMap Frame.wire ++ rest) =
      (parseFrames rest >>= fun more => ok (frames ++ more)) := by
  induction frames with
  | nil => cases hrest : parseFrames rest <;> simp [hrest]
  | cons f fs ih =>
    have hf := h f List.mem_cons_self
    rw [FindsEach, written_eq hf, List.flatMap_cons, List.append_assoc, List.drop_left] at hfinds
    have hfs := ih (fun g hg => h g (List.mem_cons_of_mem _ hg)) hfinds.2
    rw [List.flatMap_cons, List.append_assoc, parseFrames_step hfinds.1, List.drop_left, hfs]
    cases parseFrames rest <;> simp

lemma parseFrames_wire {frames : List Frame}
    (h : ∀ f ∈ frames, f.WellFormed ∧ f.SelfDelimiting) (rest : Bytes) :
    parseFrames (frames.flatMap Frame.wire ++ rest) =
      (parseFrames rest >>= fun more => ok (frames ++ more)) := by
  have hframes : ∀ f ∈ frames, f.WellFormed := fun f hf => (h f hf).1
  apply parseFrames_of_findsEach hframes
  rw [findsEach_iff hframes]
  exact delimited_of_forall (fun f hf => (h f hf).2) rest

/-- Padding after the frames comes back as PADDING frames. -/
theorem parseFrames_padded {frames : List Frame}
    (h : ∀ f ∈ frames, f.WellFormed ∧ f.SelfDelimiting) (k : Nat) :
    parseFrames (frames.flatMap Frame.wire ++ List.replicate k 0) =
      ok (frames ++ List.replicate k .padding) := by
  have hpadding : parseFrames (List.replicate k 0) = ok (List.replicate k .padding) := by
    induction k with
    | zero => rfl
    | succ k ih =>
      have hstep : Frame.parseFrame (0 :: List.replicate k 0) = ok (.padding, 1) :=
        Frame.parseFrame_wire (f := .padding) trivial trivial _
      rw [List.replicate_succ, parseFrames_step hstep, List.drop_succ_cons, List.drop_zero, ih]
      rfl
  rw [parseFrames_wire h, hpadding]
  rfl

lemma writeFrames_eq {frames : List Frame} (h : ∀ f ∈ frames, f.WellFormed) (buf : Bytes) :
    writeFrames frames buf = ok (buf ++ frames.flatMap Frame.wire) := by
  induction frames generalizing buf with
  | nil => simp [writeFrames]
  | cons f fs ih =>
    have hf := Frame.writeFrame_eq (h f List.mem_cons_self) buf
    have hfs := ih fun g hg => h g (List.mem_cons_of_mem _ hg)
    simp [writeFrames, hf, hfs]

/-- The loop gives back the frames that were written, whatever bytes follow them, exactly when
every STREAM frame without data is the last one and nothing follows it. -/
theorem frames_found_iff {frames : List Frame} (h : ∀ f ∈ frames, f.WellFormed) (rest : Bytes) :
    ∃ written, writeFrames frames [] = ok written ∧
      (FindsEach frames (written ++ rest) ∧
        parseFrames (written ++ rest) = (parseFrames rest >>= fun more => ok (frames ++ more)) ↔
      Delimited rest frames) := by
  refine ⟨frames.flatMap Frame.wire, writeFrames_eq h [], ?_⟩
  rw [← findsEach_iff h rest]
  exact ⟨And.left, fun hfinds => ⟨hfinds, parseFrames_of_findsEach h hfinds⟩⟩

/-- An empty STREAM frame at the end of a payload. -/
theorem frames_found_iff_last :
    ∃ written, writeFrames [.ping, .stream 0 0 [] true] [] = ok written ∧
      (FindsEach [.ping, .stream 0 0 [] true] (written ++ []) ∧
        parseFrames (written ++ []) =
          (parseFrames [] >>= fun more => ok ([.ping, .stream 0 0 [] true] ++ more)) ↔
      Delimited [] [.ping, .stream 0 0 [] true]) := by
  refine frames_found_iff (fun f hf => ?_) []
  rcases List.mem_pair.mp hf with rfl | rfl
  · trivial
  · exact ⟨by decide, by decide, by decide⟩

/-- PADDING behind an empty STREAM frame becomes its data. -/
theorem padding_becomes_data :
    writeFrames [.stream 0 0 [] true, .padding] [] = ok [0x09, 0x00, 0x00] ∧
      parseFrames [0x09, 0x00, 0x00] = ok [.stream 0 0 [0x00] true] ∧
      ¬ FindsEach [.stream 0 0 [] true, .padding] ([0x09, 0x00, 0x00] ++ []) := by
  refine ⟨by decide, by decide, fun hfinds => ?_⟩
  have hfirst := hfinds.1
  revert hfirst
  decide

end DeerQuic.Protection
