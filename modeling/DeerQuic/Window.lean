import Mathlib.Tactic.Common

/-!
# Completing a residue

A counter that is sent as its residue modulo an even window is completed by the receiver to the
number next to the one it expects. Of the numbers with the residue exactly one lies less than half
a window below the expected one or at most half a window above it.
-/

namespace Window

/-- The candidate has the residue and is of the block of the expected number. It is exchanged for
the one a window above or below when that is closer. -/
def complete (win expected residue : Nat) : Nat :=
  let candidate := expected / win * win + residue
  if candidate + win / 2 ≤ expected then candidate + win
  else if expected + win / 2 < candidate ∧ win ≤ candidate then candidate - win
  else candidate

/-- Completion that stays below a limit. -/
def completeBelow (limit win expected residue : Nat) : Nat :=
  let candidate := expected / win * win + residue
  if candidate + win / 2 ≤ expected ∧ candidate + win < limit then candidate + win
  else if expected + win / 2 < candidate ∧ win ≤ candidate then candidate - win
  else candidate

variable {win residue limit : Nat}

/-- The expected number is in its block. -/
lemma block_bounds (expected : Nat) (hwin : 0 < win) :
    expected / win * win ≤ expected ∧ expected < expected / win * win + win := by
  have hdiv := Nat.div_add_mod' expected win
  have hmod := Nat.mod_lt expected hwin
  omega

/-- A candidate above the expected number is not the window itself. -/
lemma window_lt_candidate (expected : Nat) (hresidue : residue < win)
    (habove : expected + win / 2 < expected / win * win + residue) :
    win < expected / win * win + residue ↔ win ≤ expected / win * win + residue := by
  have hblock := block_bounds expected (show 0 < win by omega)
  rcases Nat.eq_zero_or_pos (expected / win) with hzero | hpos
  · rw [hzero, Nat.zero_mul, Nat.zero_add]
    omega
  · have hlow := Nat.le_mul_of_pos_left win hpos
    omega

theorem complete_mod (expected : Nat) (hresidue : residue < win) :
    complete win expected residue % win = residue := by
  have hcandidate : (expected / win * win + residue) % win = residue := by
    rw [Nat.add_comm, Nat.add_mul_mod_self_right, Nat.mod_eq_of_lt hresidue]
  unfold complete
  dsimp only
  split_ifs with hbelow habove
  · rw [Nat.add_mod_right, hcandidate]
  · rw [← Nat.mod_eq_sub_mod habove.2, hcandidate]
  · exact hcandidate

/-- A number within half a window of the expected one is what its residue is completed to. -/
theorem complete_of_window {expected number : Nat} (hwin : 0 < win) (heven : win % 2 = 0)
    (hbelow : expected < number + win / 2) (habove : number ≤ expected + win / 2) :
    complete win expected (number % win) = number := by
  have hnumber := Nat.div_add_mod' number win
  have hblock := block_bounds expected hwin
  have hresidue := Nat.mod_lt number hwin
  unfold complete
  dsimp only
  generalize number % win = residue at hnumber hresidue ⊢
  generalize number / win = q' at hnumber
  generalize expected / win = q at hblock ⊢
  have hlow : q' < q + 2 := by
    by_contra hle
    have hmul := Nat.mul_le_mul_right win (Nat.not_lt.mp hle)
    rw [Nat.add_mul] at hmul
    omega
  have hhigh : q < q' + 2 := by
    by_contra hle
    have hmul := Nat.mul_le_mul_right win (Nat.not_lt.mp hle)
    rw [Nat.add_mul] at hmul
    omega
  have hcases : q' = q ∨ q' = q + 1 ∨ q = q' + 1 := by omega
  rcases hcases with rfl | rfl | rfl
  · rw [if_neg (by omega), if_neg (by omega), hnumber]
  · rw [Nat.add_mul] at hnumber
    rw [if_pos (by omega)]
    omega
  · rw [Nat.add_mul] at hblock ⊢
    rw [if_neg (by omega), if_pos (by omega)]
    omega

/-- In the first window a number is also its own residue, so the upper bound is not needed. -/
theorem complete_of_lt {expected number : Nat} (heven : win % 2 = 0) (hnumber : number < win)
    (hbelow : expected < number + win / 2) : complete win expected number = number := by
  by_cases habove : number ≤ expected + win / 2
  · have hcomplete := complete_of_window (by omega) heven hbelow habove
    rwa [Nat.mod_eq_of_lt hnumber] at hcomplete
  · have hzero : expected / win = 0 := Nat.div_eq_of_lt (by omega)
    unfold complete
    dsimp only
    rw [hzero, Nat.zero_mul, Nat.zero_add, if_neg (by omega), if_neg (by omega)]

/-- The completed number leaves the range of the expected one only through the last window. -/
theorem complete_lt_iff {expected : Nat} (hwin : win ∣ limit) (heven : win % 2 = 0)
    (hresidue : residue < win) (hexpected : expected < limit) :
    complete win expected residue < limit ↔ expected + win / 2 < limit + residue := by
  obtain ⟨m, rfl⟩ := hwin
  have hblock := block_bounds expected (show 0 < win by omega)
  have hlast : expected / win + 1 = m ∨ expected / win + 2 ≤ m := by
    have hlt : expected / win < m := Nat.div_lt_of_lt_mul hexpected
    omega
  unfold complete
  dsimp only
  rw [Nat.mul_comm win m] at hexpected ⊢
  rcases hlast with rfl | hearlier
  · rw [Nat.add_mul]
    generalize expected / win * win = low at hblock hexpected ⊢
    split_ifs <;> omega
  · have hmul := Nat.mul_le_mul_right win hearlier
    rw [Nat.add_mul] at hmul
    generalize expected / win * win = low at hblock hexpected hmul ⊢
    split_ifs <;> omega

/-- The limit makes a difference only where completion exceeds it. -/
theorem complete_eq_completeBelow_iff {expected : Nat} (hwin : 0 < win)
    (hdvd : win ∣ limit) (hresidue : residue < win) (hlimit : expected < limit) :
    complete win expected residue = completeBelow limit win expected residue ↔
      complete win expected residue < limit := by
  obtain ⟨m, rfl⟩ := hdvd
  have hblock := block_bounds expected hwin
  have hlast : expected / win + 1 ≤ m := Nat.div_lt_of_lt_mul hlimit
  have hmul := Nat.mul_le_mul_right win hlast
  rw [Nat.add_mul, Nat.mul_comm m] at hmul
  unfold complete completeBelow
  dsimp only
  generalize expected / win * win = low at hblock hmul ⊢
  generalize win * m = limit at hlimit hmul ⊢
  split_ifs <;> omega

end Window
