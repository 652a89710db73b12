import DeerQuic.Outcome

/-!
# Readers of the front of a buffer

What such a reader returns it also returns when more bytes follow. A steady reader stands by its
errors as well, other than those that ask for more bytes. In the other direction a read is not
affected when what lies behind it is cut off.
-/

namespace Checked

open Outcome

variable {ε δ α β γ : Type}

/-- What is read from a buffer is also read when more bytes follow. -/
def FrontReader (f : List α → Outcome ε β) : Prop :=
  ∀ xs more b, f xs = ok b → f (xs ++ more) = ok b

/-- So is an error, unless it says that the buffer is too short. -/
structure SteadyReader (short : ε → Prop) (f : List α → Outcome ε β) : Prop where
  front : FrontReader f
  stands : ∀ xs more e, f xs = err e → ¬ short e → f (xs ++ more) = err e

namespace FrontReader

lemma index (i : Nat) : FrontReader fun xs : List α => (Checked.index xs i : Outcome ε α) := by
  intro xs more a h
  simp only [Checked.index] at h ⊢
  cases hget : xs[i]? with
  | none => simp [hget] at h
  | some b =>
    have hlt := (List.getElem?_eq_some_iff.mp hget).1
    rw [List.getElem?_append_left hlt]
    exact h

lemma slice (lo hi : Nat) :
    FrontReader fun xs : List α => (Checked.slice xs lo hi : Outcome ε (List α)) := by
  intro xs more ys h
  obtain ⟨⟨hlo, hhi⟩, rfl⟩ := slice_eq_ok.mp h
  refine slice_eq_ok.mpr ⟨⟨hlo, by rw [List.length_append]; omega⟩, ?_⟩
  rw [List.drop_append_of_le_length (by omega), List.take_append_of_le_length]
  rw [List.length_drop]
  omega

end FrontReader

namespace SteadyReader

variable {short : ε → Prop}

lemma const (x : Outcome ε β) : SteadyReader short fun _ : List α => x :=
  ⟨fun _ _ _ h => h, fun _ _ _ h _ => h⟩

/-- Where every error asks for more bytes there is nothing to stand by. -/
lemma of_front {f : List α → Outcome ε β} (hf : FrontReader f)
    (herr : ∀ xs e, f xs = err e → short e) : SteadyReader short f :=
  ⟨hf, fun xs _ e h hlong => absurd (herr xs e h) hlong⟩

lemma bind {f : List α → Outcome ε β} {g : β → List α → Outcome ε γ} (hf : SteadyReader short f)
    (hg : ∀ b, SteadyReader short (g b)) :
    SteadyReader short fun xs => f xs >>= fun b => g b xs := by
  constructor
  · intro xs more c h
    obtain ⟨b, hb, hc⟩ := bind_eq_ok.mp h
    exact bind_eq_ok.mpr ⟨b, hf.front xs more b hb, (hg b).front xs more c hc⟩
  · intro xs more e h hlong
    rcases bind_eq_err.mp h with hfirst | ⟨b, hb, hsecond⟩
    · exact bind_eq_err.mpr (.inl (hf.stands xs more e hfirst hlong))
    · exact bind_eq_err.mpr
        (.inr ⟨b, hf.front xs more b hb, (hg b).stands xs more e hsecond hlong⟩)

lemma ite {p : Prop} [Decidable p] {f g : List α → Outcome ε β} (hf : SteadyReader short f)
    (hg : SteadyReader short g) : SteadyReader short fun xs => if p then f xs else g xs := by
  by_cases hp : p
  · simpa only [if_pos hp] using hf
  · simpa only [if_neg hp] using hg

lemma index (i : Nat) :
    SteadyReader short fun xs : List α => (Checked.index xs i : Outcome ε α) := by
  refine of_front (FrontReader.index i) fun xs e h => ?_
  simp only [Checked.index] at h
  split at h <;> cases h

lemma slice (lo hi : Nat) :
    SteadyReader short fun xs : List α => (Checked.slice xs lo hi : Outcome ε (List α)) := by
  refine of_front (FrontReader.slice lo hi) fun xs e h => ?_
  simp only [Checked.slice] at h
  split_ifs at h

/-- A length that is enough stays enough. -/
lemma require_length (need : Nat) {e : List α → ε} (he : ∀ xs, short (e xs)) :
    SteadyReader short fun xs : List α => Outcome.require (need ≤ xs.length) (e xs) := by
  constructor
  · intro xs more u h
    have hlen := require_eq_ok.mp h
    exact require_eq_ok.mpr (by rw [List.length_append]; omega)
  · intro xs more e' h hlong
    by_cases hlen : need ≤ xs.length
    · rw [require_pos hlen] at h
      cases h
    · rw [require_neg hlen] at h
      cases h
      exact absurd (he xs) hlong

/-- The rest of the buffer grows with it. -/
lemma tail (lo : Nat) {f : List α → Outcome ε β} (hf : SteadyReader short f) :
    SteadyReader short fun xs => Checked.sliceFrom xs lo >>= f := by
  have hdrop : ∀ xs more : List α, lo ≤ xs.length →
      (Checked.sliceFrom (xs ++ more) lo : Outcome ε (List α)) = ok (xs.drop lo ++ more) := by
    intro xs more hlo
    have hlo' : lo ≤ (xs ++ more).length := by
      rw [List.length_append]
      omega
    rw [Checked.sliceFrom, if_pos hlo', List.drop_append_of_le_length hlo]
  constructor
  · intro xs more b h
    obtain ⟨rest, hrest, hb⟩ := bind_eq_ok.mp h
    obtain ⟨hlo, rfl⟩ := sliceFrom_eq_ok.mp hrest
    change Checked.sliceFrom (xs ++ more) lo >>= f = ok b
    rw [hdrop xs more hlo, ok_bind]
    exact hf.front _ more b hb
  · intro xs more e h hlong
    by_cases hlo : lo ≤ xs.length
    · have hrest : (Checked.sliceFrom xs lo : Outcome ε (List α)) = ok (xs.drop lo) := if_pos hlo
      rw [hrest, ok_bind] at h
      change Checked.sliceFrom (xs ++ more) lo >>= f = err e
      rw [hdrop xs more hlo, ok_bind]
      exact hf.stands _ more e h hlong
    · have hrest : (Checked.sliceFrom xs lo : Outcome ε (List α)) = .panic := if_neg hlo
      rw [hrest, panic_bind] at h
      cases h

/-- What is read from the rest decides how the buffer is read on. -/
lemma tail_bind (lo : Nat) {f : List α → Outcome ε β} {g : β → List α → Outcome ε γ}
    (hf : SteadyReader short f) (hg : ∀ b, SteadyReader short (g b)) :
    SteadyReader short fun xs => Checked.sliceFrom xs lo >>= fun rest =>
      f rest >>= fun b => g b xs := by
  have hboth := (tail lo hf).bind hg
  simpa only [bind_bind] using hboth

end SteadyReader

variable {xs : List α}

lemma index_take {i n : Nat} (h : i < n) :
    (index (xs.take n) i : Outcome ε α) = index xs i := by
  simp only [index, List.getElem?_take_of_lt h]

lemma slice_take {lo hi n : Nat} {ys : List α} (h : (slice xs lo hi : Outcome ε (List α)) = ok ys)
    (hn : hi ≤ n) : (slice (xs.take n) lo hi : Outcome ε (List α)) = ok ys := by
  obtain ⟨⟨hlo, hhi⟩, rfl⟩ := slice_eq_ok.mp h
  refine slice_eq_ok.mpr ⟨⟨hlo, by rw [List.length_take]; omega⟩, ?_⟩
  rw [List.drop_take, List.take_take, Nat.min_eq_left (by omega)]

lemma sliceFrom_take {lo n : Nat} (hlo : lo ≤ n) (hn : n ≤ xs.length) :
    (sliceFrom (xs.take n) lo : Outcome ε (List α)) = ok ((xs.drop lo).take (n - lo)) := by
  have hroom : lo ≤ (xs.take n).length := by
    rw [List.length_take]
    omega
  rw [sliceFrom, if_pos hroom, List.drop_take]

end Checked
