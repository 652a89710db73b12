import Mathlib.Data.List.Induction
import Mathlib.Tactic.Common

/-!
# Runs of a machine driven by its caller

The caller picks the operations and their order; `next` is what one operation
does to the state. A condition on steps may speak about the state before the
step and the operation, and holds along a run when every step meets it.
-/

universe u v

namespace Transition

variable {S : Type u} {Op : Type v} (next : S → Op → S)

def run (s : S) (ops : List Op) : S := ops.foldl next s

def Along (ok : S → Op → Prop) : S → List Op → Prop
  | _, [] => True
  | s, op :: ops => ok s op ∧ Along ok (next s op) ops

instance decidableAlong (next : S → Op → S) (ok : S → Op → Prop) [DecidableRel ok] :
    ∀ (s : S) (ops : List Op), Decidable (Along next ok s ops)
  | _, [] => isTrue trivial
  | s, op :: ops =>
    have := decidableAlong next ok (next s op) ops
    inferInstanceAs (Decidable (ok s op ∧ Along next ok (next s op) ops))

/-- `P` holds in every state the run goes through, the first and the last included. -/
def Always (P : S → Prop) : S → List Op → Prop
  | s, [] => P s
  | s, op :: ops => P s ∧ Always P (next s op) ops

variable {next}

@[simp] lemma run_nil (s : S) : run next s [] = s := rfl

@[simp] lemma run_cons (s : S) (op : Op) (ops : List Op) :
    run next s (op :: ops) = run next (next s op) ops := rfl

lemma run_append (s : S) (ops more : List Op) :
    run next s (ops ++ more) = run next (run next s ops) more := by
  simp [run]

lemma Always.last {P : S → Prop} {s : S} {ops : List Op} (h : Always next P s ops) :
    P (run next s ops) := by
  induction ops generalizing s with
  | nil => exact h
  | cons op ops ih => exact ih h.2

lemma Always.head {P : S → Prop} {s : S} {ops : List Op} (h : Always next P s ops) : P s := by
  cases ops with
  | nil => exact h
  | cons op ops => exact h.1

lemma Always.imp {P Q : S → Prop} (hPQ : ∀ s, P s → Q s) {s : S} {ops : List Op}
    (h : Always next P s ops) : Always next Q s ops := by
  induction ops generalizing s with
  | nil => exact hPQ s h
  | cons op ops ih => exact ⟨hPQ s h.1, ih h.2⟩

lemma along_of_forall {ok : S → Op → Prop} (h : ∀ s op, ok s op) (s : S) (ops : List Op) :
    Along next ok s ops := by
  induction ops generalizing s with
  | nil => trivial
  | cons op ops ih => exact ⟨h s op, ih _⟩

lemma Along.and {ok ok' : S → Op → Prop} {s : S} {ops : List Op} (h : Along next ok s ops)
    (h' : Along next ok' s ops) : Along next (fun s op => ok s op ∧ ok' s op) s ops := by
  induction ops generalizing s with
  | nil => trivial
  | cons op ops ih => exact ⟨⟨h.1, h'.1⟩, ih h.2 h'.2⟩

/-- A machine that keeps a second one in its state runs along with it. -/
lemma along_map {T : Type u} {nextMore : T → Op → T} (f : T → S)
    (hf : ∀ t op, f (nextMore t op) = next (f t) op) {ok : S → Op → Prop} (t : T) {ops : List Op} :
    Along nextMore (fun t => ok (f t)) t ops ↔ Along next ok (f t) ops := by
  induction ops generalizing t with
  | nil => exact Iff.rfl
  | cons op ops ih => rw [Along, Along, ih, hf]

/-- An invariant of the steps that meet a condition holds all along such a run. -/
theorem always_of_along {P : S → Prop} {ok : S → Op → Prop}
    (step : ∀ s op, P s → ok s op → P (next s op)) {s : S} {ops : List Op}
    (start : P s) (along : Along next ok s ops) : Always next P s ops := by
  induction ops generalizing s with
  | nil => exact start
  | cons op ops ih => exact ⟨start, ih (step s op start along.1) along.2⟩

theorem invariant_along {P : S → Prop} {ok : S → Op → Prop}
    (step : ∀ s op, P s → ok s op → P (next s op)) {s : S} {ops : List Op}
    (start : P s) (along : Along next ok s ops) : P (run next s ops) :=
  (always_of_along step start along).last

theorem invariant {P : S → Prop} (step : ∀ s op, P s → P (next s op)) {s : S}
    (start : P s) (ops : List Op) : P (run next s ops) := by
  induction ops generalizing s with
  | nil => exact start
  | cons op ops ih => exact ih (step s op start)

/-- Two conditions that agree as long as a property holds, which they keep. -/
theorem along_iff {P : S → Prop} {ok ok' : S → Op → Prop}
    (agree : ∀ s op, P s → (ok s op ↔ ok' s op))
    (step : ∀ s op, P s → ok' s op → P (next s op)) {s : S} {ops : List Op} (start : P s) :
    Along next ok s ops ↔ Along next ok' s ops := by
  induction ops generalizing s with
  | nil => exact Iff.rfl
  | cons op ops ih =>
    constructor
    · rintro ⟨hop, hrest⟩
      have hop' := (agree s op start).mp hop
      exact ⟨hop', (ih (step s op start hop')).mp hrest⟩
    · rintro ⟨hop', hrest⟩
      exact ⟨(agree s op start).mpr hop', (ih (step s op start hop')).mpr hrest⟩

/-- When the condition says exactly which steps keep the property, a run keeps it everywhere
exactly when every step meets the condition. The steps of the run may be restricted by `pre`. -/
theorem always_iff_along {I P : S → Prop} {pre ok : S → Op → Prop}
    (inv : ∀ s op, I s → pre s op → I (next s op))
    (exact_step : ∀ s op, I s → pre s op → P s → (P (next s op) ↔ ok s op)) {s : S} {ops : List Op}
    (hI : I s) (start : P s) (admitted : Along next pre s ops) :
    Always next P s ops ↔ Along next ok s ops := by
  induction ops generalizing s with
  | nil => exact ⟨fun _ => trivial, fun _ => start⟩
  | cons op ops ih =>
    obtain ⟨hpre, admitted⟩ := admitted
    have hop := exact_step s op hI hpre start
    constructor
    · rintro ⟨_, rest⟩
      have hP : P (next s op) := rest.head
      exact ⟨hop.mp hP, (ih (inv s op hI hpre) hP admitted).mp rest⟩
    · rintro ⟨hok, rest⟩
      have hP := hop.mpr hok
      exact ⟨start, (ih (inv s op hI hpre) hP admitted).mpr rest⟩

section

variable {O : Type u} (next)

/-- What the caller gets to see, in order. -/
def observed (output : S → Op → List O) : S → List Op → List O
  | _, [] => []
  | s, op :: ops => output s op ++ observed output (next s op) ops

/-- The second list is the first with operations put in, at any points, each of which is silent
in the state it meets. The state is the one of the longer run. -/
inductive Inserted (silent : S → Op → Prop) : S → List Op → List Op → Prop where
  | nil (s : S) : Inserted silent s [] []
  | keep {s : S} {ops longer : List Op} (op : Op) :
      Inserted silent (next s op) ops longer → Inserted silent s (op :: ops) (op :: longer)
  | put {s : S} {ops longer : List Op} (op : Op) : silent s op →
      Inserted silent (next s op) ops longer → Inserted silent s ops (op :: longer)

variable {next}

/-- Steps that change nothing can be put in anywhere. -/
theorem Inserted.run_eq {silent : S → Op → Prop} (still : ∀ s op, silent s op → next s op = s)
    {s : S} {ops longer : List Op} (h : Inserted next silent s ops longer) :
    run next s longer = run next s ops := by
  induction h with
  | nil s => rfl
  | keep op _ ih => exact ih
  | @put s ops longer op hop _ ih =>
    rw [run_cons, ih]
    exact congrArg (fun s' => run next s' ops) (still s op hop)

/-- When they show nothing either, nobody can tell. -/
theorem Inserted.observed_eq {silent : S → Op → Prop}
    (still : ∀ s op, silent s op → next s op = s) {output : S → Op → List O}
    (quiet : ∀ s op, silent s op → output s op = []) {s : S} {ops longer : List Op}
    (h : Inserted next silent s ops longer) :
    observed next output s longer = observed next output s ops := by
  induction h with
  | nil s => rfl
  | @keep s _ _ op _ ih => exact congrArg (output s op ++ ·) ih
  | @put s ops longer op hop _ ih =>
    calc observed next output s (op :: longer)
        = observed next output (next s op) longer := by rw [observed, quiet s op hop, List.nil_append]
      _ = observed next output (next s op) ops := ih
      _ = observed next output s ops := by rw [still s op hop]

end

section

variable {E : Type u}

/-- `Q` holds of each entry and what stands before it. -/
def Each (Q : List E → E → Prop) (events : List E) : Prop :=
  ∀ past e later, events = past ++ e :: later → Q past e

lemma each_nil (Q : List E → E → Prop) : Each Q [] := by
  intro past e later h
  simp at h

/-- Only the last entry is new. -/
lemma each_concat {Q : List E → E → Prop} {events : List E} {e : E} :
    Each Q (events ++ [e]) ↔ Each Q events ∧ Q events e := by
  constructor
  · intro h
    refine ⟨fun past e' later heq => h past e' (later ++ [e]) ?_, h events e [] rfl⟩
    rw [heq, List.append_assoc, List.cons_append]
  · rintro ⟨hold, hnew⟩ past e' later heq
    rcases List.eq_nil_or_concat later with rfl | ⟨later, last, rfl⟩
    · obtain ⟨rfl, hlast⟩ := List.append_inj' heq rfl
      rw [← List.singleton_inj.mp hlast]
      exact hnew
    · refine hold past e' later ?_
      rw [List.concat_eq_append, ← List.cons_append, ← List.append_assoc] at heq
      exact (List.append_inj' heq rfl).1

lemma each_append {Q : List E → E → Prop} {events more : List E} :
    Each Q (events ++ more) ↔ Each Q events ∧ Each (fun past => Q (events ++ past)) more := by
  induction more using List.reverseRecOn with
  | nil => simp [each_nil]
  | append_singleton more e ih => rw [← List.append_assoc, each_concat, each_concat, ih, and_assoc]

end

end Transition
