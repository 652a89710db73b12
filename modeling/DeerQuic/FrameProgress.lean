import DeerQuic.FrameLoop
import DeerQuic.Loop

/-!
# The frame loop ends

Each turn of the loop takes at least one byte off the payload and never more than there is. The
loop is over after at most as many turns as the payload has bytes, no slice of it is out of range,
and when it succeeds the frames account for every byte.
-/

namespace DeerQuic.Protection

open Outcome Checked Loop

/-- Where the loop is: what remains of the payload, and the frames so far with the number of bytes
that each of them took. -/
structure FrameTurn where
  remaining : Bytes
  frames : List (Frame × Nat)

namespace FrameTurn

def start (plaintext : Bytes) : FrameTurn := ⟨plaintext, []⟩

/-- The body of the loop. -/
def advance (t : FrameTurn) : Outcome FrameError FrameTurn := do
  let (frame, consumed) ← Frame.parseFrame t.remaining
  let remaining ← sliceFrom t.remaining consumed
  ok ⟨remaining, t.frames ++ [(frame, consumed)]⟩

/-- The body is entered while something remains. -/
def turn (t : FrameTurn) : Turn FrameTurn (Outcome FrameError (List (Frame × Nat))) :=
  if t.remaining.isEmpty then .done (ok t.frames)
  else match t.advance with
    | ok next => .again next
    | err e => .done (err e)
    | .panic => .done .panic

lemma advance_of_parse {t : FrameTurn} {f : Frame} {n : Nat}
    (h : Frame.parseFrame t.remaining = ok (f, n)) :
    t.advance = ok ⟨t.remaining.drop n, t.frames ++ [(f, n)]⟩ := by
  have hrest : (sliceFrom t.remaining n : Outcome FrameError Bytes) = ok (t.remaining.drop n) :=
    if_pos (Frame.parseFrame_consumes h).2
  rw [advance, h, ok_bind]
  dsimp only
  rw [hrest, ok_bind]

/-- The ways a turn can go. An index out of range is not among them. -/
inductive Step (t : FrameTurn) :
    Turn FrameTurn (Outcome FrameError (List (Frame × Nat))) → Prop where
  | finished : t.remaining = [] → Step t (.done (ok t.frames))
  | parsed {f : Frame} {n : Nat} : t.remaining ≠ [] → Frame.parseFrame t.remaining = ok (f, n) →
      1 ≤ n → n ≤ t.remaining.length →
      Step t (.again ⟨t.remaining.drop n, t.frames ++ [(f, n)]⟩)
  | refused {e : FrameError} : t.remaining ≠ [] → Frame.parseFrame t.remaining = err e →
      Step t (.done (err e))
  | panicked : t.remaining ≠ [] → Frame.parseFrame t.remaining = .panic → Step t (.done .panic)

lemma step (t : FrameTurn) : Step t t.turn := by
  unfold turn
  by_cases hempty : t.remaining = []
  · rw [if_pos (by simpa using hempty)]
    exact .finished hempty
  · rw [if_neg (by simpa using hempty)]
    rcases hparse : Frame.parseFrame t.remaining with ⟨f, n⟩ | e | _
    · obtain ⟨hpos, hle⟩ := Frame.parseFrame_consumes hparse
      rw [advance_of_parse hparse]
      exact .parsed hempty hparse hpos hle
    · have hadvance : t.advance = err e := by rw [advance, hparse, err_bind]
      rw [hadvance]
      exact .refused hempty hparse
    · have hadvance : t.advance = .panic := by rw [advance, hparse, panic_bind]
      rw [hadvance]
      exact .panicked hempty hparse

/-- The only turn that stays in the loop. -/
lemma again_cases {t t' : FrameTurn} (h : t.turn = .again t') :
    ∃ f n, t.remaining ≠ [] ∧ Frame.parseFrame t.remaining = ok (f, n) ∧ 1 ≤ n ∧
      n ≤ t.remaining.length ∧ t' = ⟨t.remaining.drop n, t.frames ++ [(f, n)]⟩ := by
  have hstep := step t
  rw [h] at hstep
  cases hstep with
  | parsed hne hparse hpos hle => exact ⟨_, _, hne, hparse, hpos, hle, rfl⟩

lemma remaining_decreases (t t' : FrameTurn) (h : t.turn = .again t') :
    t'.remaining.length < t.remaining.length := by
  obtain ⟨f, n, -, -, hpos, hle, rfl⟩ := again_cases h
  dsimp only
  rw [List.length_drop]
  omega

end FrameTurn

/-- The loop started on `plaintext` and is now at `t`. -/
structure FrameTurn.Within (plaintext : Bytes) (t : FrameTurn) : Prop where
  suffix : t.remaining <:+ plaintext
  consumed : (t.frames.map Prod.snd).sum + t.remaining.length = plaintext.length
  frames : parseFrames plaintext =
    (parseFrames t.remaining >>= fun more => ok (t.frames.map Prod.fst ++ more))

lemma within_start (plaintext : Bytes) : FrameTurn.Within plaintext (.start plaintext) where
  suffix := List.suffix_rfl
  consumed := Nat.zero_add _
  frames := by
    change parseFrames plaintext = parseFrames plaintext >>= fun more => ok more
    cases parseFrames plaintext <;> rfl

lemma within_again {plaintext : Bytes} (t t' : FrameTurn) (h : FrameTurn.Within plaintext t)
    (hturn : t.turn = .again t') : FrameTurn.Within plaintext t' := by
  obtain ⟨f, n, -, hparse, -, hle, rfl⟩ := FrameTurn.again_cases hturn
  constructor
  · exact (List.drop_suffix n t.remaining).trans h.suffix
  · have hconsumed := h.consumed
    simp only [List.map_append, List.map_cons, List.map_nil, List.sum_append, List.sum_cons,
      List.sum_nil, List.length_drop]
    omega
  · rw [h.frames, parseFrames_step hparse]
    cases parseFrames (t.remaining.drop n) <;> simp

/-- The loop over a payload. -/
structure LoopCovers (plaintext : Bytes) : Prop where
  /-- Every frame takes a byte at least, and none that is not there. -/
  progress : ∀ suffix f n, suffix <:+ plaintext → Frame.parseFrame suffix = ok (f, n) →
    1 ≤ n ∧ n ≤ suffix.length
  /-- The body is entered at most as often as the payload has bytes. -/
  bounded : ∀ k t, Reaches FrameTurn.turn k (.start plaintext) t → t.remaining ≠ [] →
    k + 1 ≤ plaintext.length
  /-- The loop is left without a panic, and with what the opener returns. -/
  ends : ∃ k out, k ≤ plaintext.length ∧ Leaves FrameTurn.turn k (.start plaintext) out ∧
    out ≠ .panic ∧ parseFrames plaintext = (out >>= fun frames => ok (frames.map Prod.fst))
  /-- Nothing of the payload is left over. -/
  covers : ∀ k frames, Leaves FrameTurn.turn k (.start plaintext) (ok frames) →
    (frames.map Prod.snd).sum = plaintext.length

/-- As far as parsing a frame does not panic, the loop does not, and it always ends. -/
theorem frame_loop_covers {plaintext : Bytes}
    (h : ∀ suffix, suffix <:+ plaintext → Frame.parseFrame suffix ≠ .panic) :
    LoopCovers plaintext := by
  have hwithin : ∀ k t, Reaches FrameTurn.turn k (.start plaintext) t →
      FrameTurn.Within plaintext t :=
    fun k t hreach => hreach.invariant within_again (within_start plaintext)
  refine ⟨fun suffix f n _ => Frame.parseFrame_consumes, ?_, ?_, ?_⟩
  · intro k t hreach hne
    have hbound := hreach.bound FrameTurn.remaining_decreases
    have hpos := List.length_pos_of_ne_nil hne
    have hstart : (FrameTurn.start plaintext).remaining.length = plaintext.length := rfl
    omega
  · obtain ⟨k, out, hk, t, hreach, hout⟩ :=
      leaves FrameTurn.remaining_decreases (FrameTurn.start plaintext)
    refine ⟨k, out, hk, ⟨t, hreach, hout⟩, ?_⟩
    have ht := hwithin k t hreach
    have hstep := t.step
    rw [hout] at hstep
    rw [ht.frames]
    cases hstep with
    | finished hempty =>
      rw [hempty]
      refine ⟨by simp, ?_⟩
      simp [parseFrames, parseFramesFuel]
    | @refused e hne hparse =>
      refine ⟨by simp, ?_⟩
      obtain ⟨b, bs, hcons⟩ := List.exists_cons_of_ne_nil hne
      rw [hcons] at hparse ⊢
      simp [parseFrames, parseFramesFuel, hparse]
    | panicked _ hparse => exact absurd hparse (h _ ht.suffix)
  · rintro k frames ⟨t, hreach, hout⟩
    have ht := hwithin k t hreach
    have hstep := t.step
    rw [hout] at hstep
    cases hstep with
    | finished hempty =>
      have hconsumed := ht.consumed
      rw [hempty, List.length_nil, Nat.add_zero] at hconsumed
      exact hconsumed

/-- PING, and a STREAM frame without length that takes the rest. -/
theorem frame_loop_covers_stream : LoopCovers [0x01, 0x08, 0x04, 0x61, 0x62] := by
  apply frame_loop_covers
  intro suffix hsuffix
  simp only [List.suffix_cons_iff, List.suffix_nil] at hsuffix
  rcases hsuffix with rfl | rfl | rfl | rfl | rfl | rfl
  all_goals decide

end DeerQuic.Protection
