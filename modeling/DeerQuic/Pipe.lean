import DeerQuic.Transition
import Mathlib.Logic.Function.Basic

/-!
# First-in-first-out queues, and machines that simulate others

A family of queues is written to at one end and read from at the other. Whatever the order of the
writes and reads, what is read from a queue, and then what is left in it, is what was in it at first
and then what was written to it. A machine whose steps amount to steps of another one inherits such
facts.
-/

namespace Transition

universe u v w

variable {S A : Type u} {Op : Type v} {J : Type u}

/-- A step that is admitted amounts, one level up, to the steps that `label` lists for it. -/
theorem simulation {next : S → Op → S} {above : A → J → A} {rel : S → A → Prop}
    {admitted : S → Op → Prop} {label : S → Op → List J}
    (step : ∀ s op a, rel s a → admitted s op → rel (next s op) (run above a (label s op))) {s : S}
    {a : A} {ops : List Op} (start : rel s a) (along : Along next admitted s ops) :
    rel (run next s ops) (run above a (observed next label s ops)) := by
  induction ops generalizing s a with
  | nil => exact start
  | cons op ops ih =>
    rw [observed, run_append]
    exact ih (step s op a start along.1) along.2

lemma along_append {next : S → Op → S} {ok : S → Op → Prop} {s : S} {ops more : List Op} :
    Along next ok s (ops ++ more) ↔ Along next ok s ops ∧ Along next ok (run next s ops) more := by
  induction ops generalizing s with
  | nil => exact ⟨fun h => ⟨trivial, h⟩, fun h => h.2⟩
  | cons op ops ih =>
    rw [List.cons_append, Along, Along, ih, run_cons, and_assoc]

lemma observed_append {O : Type u} (next : S → Op → S) (output : S → Op → List O) (s : S)
    (ops more : List Op) : observed next output s (ops ++ more) =
      observed next output s ops ++ observed next output (run next s ops) more := by
  induction ops generalizing s with
  | nil => rfl
  | cons op ops ih => simp only [List.cons_append, observed, ih, run_cons, List.append_assoc]

lemma observed_congr {O : Type u} {next : S → Op → S} {output output' : S → Op → List O}
    {ok : S → Op → Prop} (same : ∀ s op, ok s op → output s op = output' s op) {s : S}
    {ops : List Op} (along : Along next ok s ops) :
    observed next output s ops = observed next output' s ops := by
  induction ops generalizing s with
  | nil => rfl
  | cons op ops ih => rw [observed, observed, same s op along.1, ih along.2]

/-- What the machine above shows is what this one shows, when that is so for each step. -/
theorem simulation_observed {O : Type u} {next : S → Op → S} {above : A → J → A}
    {rel : S → A → Prop} {admitted : S → Op → Prop} {label : S → Op → List J}
    {output : S → Op → List O} {outputAbove : A → J → List O}
    (step : ∀ s op a, rel s a → admitted s op → rel (next s op) (run above a (label s op)))
    (shown : ∀ s op a, rel s a → admitted s op →
      observed above outputAbove a (label s op) = output s op) {s : S} {a : A} {ops : List Op}
    (start : rel s a) (along : Along next admitted s ops) :
    observed above outputAbove a (observed next label s ops) = observed next output s ops := by
  induction ops generalizing s a with
  | nil => rfl
  | cons op ops ih =>
    rw [observed, observed_append, shown s op a start along.1, observed,
      ih (step s op a start along.1) along.2]

end Transition

namespace Pipe

open Transition

universe u

variable {ι α : Type u} [DecidableEq ι]

inductive Act (ι α : Type u) where
  | put (i : ι) (items : List α)
  | take (i : ι) (n : Nat)

def next (queues : ι → List α) : Act ι α → ι → List α
  | .put i items => Function.update queues i (queues i ++ items)
  | .take i n => Function.update queues i ((queues i).drop n)

/-- What is written to queue `i`. -/
def written (i : ι) : Act ι α → List α
  | .put j items => if j = i then items else []
  | .take _ _ => []

/-- What is read from queue `i`. -/
def taken (i : ι) (queues : ι → List α) : Act ι α → List α
  | .put _ _ => []
  | .take j n => if j = i then (queues i).take n else []

lemma conserved_act (queues : ι → List α) (act : Act ι α) (i : ι) :
    queues i ++ written i act = taken i queues act ++ next queues act i := by
  cases act with
  | put j items =>
    by_cases h : j = i
    · subst h
      simp [written, taken, next]
    · simp [written, taken, next, h, Ne.symm h]
  | take j n =>
    by_cases h : j = i
    · subst h
      simp [written, taken, next]
    · simp [written, taken, next, h, Ne.symm h]

/-- First in, first out. -/
theorem conserved (queues : ι → List α) (acts : List (Act ι α)) (i : ι) :
    queues i ++ acts.flatMap (written i) =
      observed next (taken i) queues acts ++ run next queues acts i := by
  induction acts generalizing queues with
  | nil => simp [observed]
  | cons act acts ih =>
    calc queues i ++ (act :: acts).flatMap (written i)
        = (queues i ++ written i act) ++ acts.flatMap (written i) := by
          rw [List.flatMap_cons, List.append_assoc]
      _ = taken i queues act ++ (next queues act i ++ acts.flatMap (written i)) := by
          rw [conserved_act, List.append_assoc]
      _ = observed next (taken i) queues (act :: acts) ++ run next queues (act :: acts) i := by
          rw [ih, observed, run_cons, List.append_assoc]

end Pipe
