import Mathlib.Tactic.Common

/-!
# Loops under a measure

A turn of a loop leads to the next turn or out of the loop. When every turn that stays inside makes
a measure smaller, the loop is left, and before that it takes at most as many turns as the measure
says.
-/

universe u v

namespace Loop

inductive Turn (S : Type u) (O : Type v) where
  | again (s : S)
  | done (out : O)

variable {S : Type u} {O : Type v} (body : S → Turn S O)

/-- `k` turns lead from the first state to the second. -/
inductive Reaches : Nat → S → S → Prop where
  | start (s : S) : Reaches 0 s s
  | turn {k : Nat} {s s' s'' : S} : Reaches k s s' → body s' = .again s'' → Reaches (k + 1) s s''

/-- The turn after `k` others leads out of the loop. -/
def Leaves (k : Nat) (s : S) (out : O) : Prop :=
  ∃ s', Reaches body k s s' ∧ body s' = .done out

variable {body}

lemma Reaches.cons {k : Nat} {s s' s'' : S} (first : body s = .again s')
    (rest : Reaches body k s' s'') : Reaches body (k + 1) s s'' := by
  induction rest with
  | start s' => exact .turn (.start s) first
  | turn _ hlast ih => exact .turn (ih first) hlast

/-- What a turn keeps is kept all the way. -/
theorem Reaches.invariant {P : S → Prop} (step : ∀ s s', P s → body s = .again s' → P s') {k : Nat}
    {s s' : S} (h : Reaches body k s s') (start : P s) : P s' := by
  induction h with
  | start s => exact start
  | turn _ hlast ih => exact step _ _ (ih start) hlast

variable {μ : S → Nat} (decreases : ∀ s s', body s = .again s' → μ s' < μ s)

include decreases in
/-- Each turn costs at least one of the measure. -/
theorem Reaches.bound {k : Nat} {s s' : S} (h : Reaches body k s s') : k + μ s' ≤ μ s := by
  induction h with
  | start s => exact Nat.le_of_eq (Nat.zero_add _)
  | turn _ hlast ih =>
    have hless := decreases _ _ hlast
    omega

include decreases in
theorem leaves (s : S) : ∃ k out, k ≤ μ s ∧ Leaves body k s out := by
  induction hμ : μ s using Nat.strongRecOn generalizing s with
  | ind n ih =>
    subst hμ
    cases hturn : body s with
    | done out => exact ⟨0, out, Nat.zero_le _, s, .start s, hturn⟩
    | again s' =>
      have hless := decreases s s' hturn
      obtain ⟨k, out, hk, s'', hreach, hout⟩ := ih (μ s') hless s' rfl
      exact ⟨k + 1, out, by omega, s'', hreach.cons hturn, hout⟩

end Loop
