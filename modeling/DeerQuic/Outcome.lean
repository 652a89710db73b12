import Mathlib.Algebra.Group.Nat.Defs
import Mathlib.Tactic.Common

/-!
# Calls that return, fail or panic

A call has three ends: a value, a returned error, or a panic. A panic is kept
apart from an error because no caller can turn it into a value. The list
operations below are the checked ones of an array language: an index or a range
outside the list panics, it does not return a default.
-/

universe u v w

inductive Outcome (ε : Type u) (α : Type v) where
  | ok (value : α)
  | err (error : ε)
  | panic
  deriving DecidableEq, Repr

namespace Outcome

variable {ε : Type u} {δ : Type u} {α β : Type v}

def andThen (x : Outcome ε α) (f : α → Outcome ε β) : Outcome ε β :=
  match x with
  | ok a => f a
  | err e => err e
  | panic => panic

instance : Monad (Outcome ε) where
  pure := ok
  bind := andThen

/-- Convert the error, as the question mark operator does on its way out. -/
def mapErr (f : ε → δ) : Outcome ε α → Outcome δ α
  | ok a => ok a
  | err e => err (f e)
  | panic => panic

def ofOption (e : ε) : Option α → Outcome ε α
  | some a => ok a
  | none => err e

def ofExcept (f : δ → ε) : Except δ α → Outcome ε α
  | .ok a => ok a
  | .error e => err (f e)

def getD (x : Outcome ε α) (default : α) : α :=
  match x with
  | ok a => a
  | _ => default

def isOk : Outcome ε α → Bool
  | ok _ => true
  | _ => false

/-- Fail with `e` unless `p` holds. -/
def require (p : Prop) [Decidable p] (e : ε) : Outcome ε Unit :=
  if p then ok () else err e

@[simp] lemma pure_eq (a : α) : (pure a : Outcome ε α) = ok a := rfl

@[simp] lemma ok_bind (a : α) (f : α → Outcome ε β) : (ok a >>= f) = f a := rfl

@[simp] lemma err_bind (e : ε) (f : α → Outcome ε β) :
    ((err e : Outcome ε α) >>= f) = err e := rfl

@[simp] lemma panic_bind (f : α → Outcome ε β) :
    ((panic : Outcome ε α) >>= f) = panic := rfl

@[simp] lemma mapErr_ok (f : ε → δ) (a : α) : (ok a : Outcome ε α).mapErr f = ok a := rfl

@[simp] lemma mapErr_err (f : ε → δ) (e : ε) :
    (err e : Outcome ε α).mapErr f = err (f e) := rfl

@[simp] lemma mapErr_panic (f : ε → δ) : (panic : Outcome ε α).mapErr f = panic := rfl

@[simp] lemma ofOption_some (e : ε) (a : α) : ofOption e (some a) = ok a := rfl

@[simp] lemma ofOption_none (e : ε) : (ofOption e none : Outcome ε α) = err e := rfl

@[simp] lemma require_pos {p : Prop} [Decidable p] (h : p) (e : ε) : require p e = ok () := by
  simp [require, h]

@[simp] lemma require_neg {p : Prop} [Decidable p] (h : ¬ p) (e : ε) :
    require p e = err e := by
  simp [require, h]

@[simp] lemma require_eq_ok {p : Prop} [Decidable p] {e : ε} {u : Unit} :
    require p e = ok u ↔ p := by
  by_cases h : p <;> simp [h]

@[simp] lemma require_ne_panic {p : Prop} [Decidable p] {e : ε} : require p e ≠ panic := by
  by_cases h : p <;> simp [h]

@[simp] lemma ofExcept_ok (f : δ → ε) (a : α) : ofExcept f (.ok a) = ok a := rfl

@[simp] lemma ofExcept_error (f : δ → ε) (e : δ) :
    (ofExcept f (.error e) : Outcome ε α) = err (f e) := rfl

lemma ofExcept_eq_ok {f : δ → ε} {x : Except δ α} {a : α} :
    ofExcept f x = ok a ↔ x = .ok a := by
  cases x <;> simp

lemma eq_ok_getD {x : Outcome ε α} (h : x.isOk = true) (default : α) : x = ok (x.getD default) := by
  cases x with
  | ok a => rfl
  | err _ | panic => cases h

lemma bind_bind {γ : Type v} (x : Outcome ε α) (f : α → Outcome ε β) (g : β → Outcome ε γ) :
    x >>= f >>= g = x >>= fun a => f a >>= g := by
  cases x <;> rfl

lemma bind_eq_ok {x : Outcome ε α} {f : α → Outcome ε β} {b : β} :
    x >>= f = ok b ↔ ∃ a, x = ok a ∧ f a = ok b := by
  cases x <;> simp

lemma bind_eq_err {x : Outcome ε α} {f : α → Outcome ε β} {e : ε} :
    x >>= f = err e ↔ x = err e ∨ ∃ a, x = ok a ∧ f a = err e := by
  cases x <;> simp

lemma bind_eq_panic {x : Outcome ε α} {f : α → Outcome ε β} :
    x >>= f = panic ↔ x = panic ∨ ∃ a, x = ok a ∧ f a = panic := by
  cases x <;> simp

@[simp] lemma mapErr_eq_ok {x : Outcome ε α} {f : ε → δ} {a : α} :
    x.mapErr f = ok a ↔ x = ok a := by
  cases x <;> simp

@[simp] lemma mapErr_eq_err {x : Outcome ε α} {f : ε → δ} {e : δ} :
    x.mapErr f = err e ↔ ∃ e', x = err e' ∧ f e' = e := by
  cases x <;> simp

@[simp] lemma mapErr_eq_panic {x : Outcome ε α} {f : ε → δ} :
    x.mapErr f = panic ↔ x = panic := by
  cases x <;> simp

@[simp] lemma ofOption_ne_panic (e : ε) (o : Option α) : ofOption e o ≠ panic := by
  cases o <;> simp

lemma ofOption_eq_ok {e : ε} {o : Option α} {a : α} :
    ofOption e o = ok a ↔ o = some a := by
  cases o <;> simp

/-- No panic, and `Q` of what is returned. An error is allowed. -/
def Safe (x : Outcome ε α) (Q : α → Prop) : Prop :=
  match x with
  | ok a => Q a
  | err _ => True
  | panic => False

namespace Safe

variable {x : Outcome ε α} {P Q : α → Prop}

lemma ne_panic (h : x.Safe Q) : x ≠ panic := by
  rintro rfl
  exact h

lemma of_ok (h : x.Safe Q) {a : α} (hx : x = ok a) : Q a := by
  subst hx
  exact h

lemma of_ne_panic (h : x ≠ panic) : x.Safe fun _ => True := by
  cases x with
  | ok _ | err _ => trivial
  | panic => exact absurd rfl h

lemma mono (h : x.Safe P) (hPQ : ∀ a, P a → Q a) : x.Safe Q := by
  cases x with
  | ok a => exact hPQ a h
  | err _ => trivial
  | panic => exact h

lemma bind {Q : β → Prop} {f : α → Outcome ε β} (hx : x.Safe P) (hf : ∀ a, P a → (f a).Safe Q) :
    (x >>= f).Safe Q := by
  cases x with
  | ok a => exact hf a hx
  | err _ => trivial
  | panic => exact hx.elim

lemma mapErr (h : x.Safe Q) (f : ε → δ) : (x.mapErr f).Safe Q := by
  cases x with
  | ok _ => exact h
  | err _ => trivial
  | panic => exact h

lemma ofOption (e : ε) (o : Option α) : (Outcome.ofOption e o).Safe fun a => o = some a := by
  cases o with
  | none => trivial
  | some a => rfl

lemma require (p : Prop) [Decidable p] (e : ε) : (Outcome.require p e).Safe fun _ => p := by
  by_cases h : p
  · rw [require_pos h]
    exact h
  · rw [require_neg h]
    trivial

end Safe

end Outcome

namespace Checked

open Outcome

variable {ε : Type u} {α : Type v}

/-- `xs[i]`. -/
def index (xs : List α) (i : Nat) : Outcome ε α :=
  match xs[i]? with
  | some a => ok a
  | none => panic

/-- `&xs[lo..hi]`. -/
def slice (xs : List α) (lo hi : Nat) : Outcome ε (List α) :=
  if lo ≤ hi ∧ hi ≤ xs.length then ok ((xs.drop lo).take (hi - lo)) else panic

/-- `&xs[lo..]`. -/
def sliceFrom (xs : List α) (lo : Nat) : Outcome ε (List α) :=
  if lo ≤ xs.length then ok (xs.drop lo) else panic

/-- `xs[at..at + ys.len()].copy_from_slice(ys)`. -/
def copyAt (xs : List α) (pos : Nat) (ys : List α) : Outcome ε (List α) :=
  if pos + ys.length ≤ xs.length then
    ok (xs.take pos ++ ys ++ xs.drop (pos + ys.length))
  else panic

/-- `Vec::with_capacity(n)` for elements of `size` bytes: a request beyond
`isize::MAX` bytes panics. That the allocator may refuse a smaller one, which aborts the process,
is left out. -/
def withCapacity (n size : Nat) : Outcome ε Unit :=
  if n * size ≤ 2 ^ 63 - 1 then ok () else panic

/-- Addition of `u64` values with overflow checks on. -/
def addU64 (a b : Nat) : Outcome ε Nat := if a + b < 2 ^ 64 then ok (a + b) else panic

lemma addU64_of_lt {a b : Nat} (h : a + b < 2 ^ 64) : (addU64 a b : Outcome ε Nat) = ok (a + b) :=
  if_pos h

lemma addU64_eq_panic {a b : Nat} :
    (addU64 a b : Outcome ε Nat) = panic ↔ 2 ^ 64 ≤ a + b := by
  unfold addU64
  split <;> simp <;> omega

lemma index_eq_panic {xs : List α} {i : Nat} :
    (index xs i : Outcome ε α) = panic ↔ xs.length ≤ i := by
  unfold index
  cases h : xs[i]? with
  | none => simpa using h
  | some a =>
    have hlt := (List.getElem?_eq_some_iff.mp h).1
    simp only [reduceCtorEq, false_iff]
    omega

lemma slice_eq_panic {xs : List α} {lo hi : Nat} :
    (slice xs lo hi : Outcome ε (List α)) = panic ↔ ¬ (lo ≤ hi ∧ hi ≤ xs.length) := by
  unfold slice
  split <;> simp_all

lemma index_safe {xs : List α} {i : Nat} (h : i < xs.length) :
    (index xs i : Outcome ε α).Safe fun _ => True :=
  Safe.of_ne_panic fun hp => by
    have := index_eq_panic.mp hp
    omega

lemma slice_safe {xs : List α} {lo hi : Nat} (hlo : lo ≤ hi) (hhi : hi ≤ xs.length) :
    (slice xs lo hi : Outcome ε (List α)).Safe fun ys => ys.length = hi - lo := by
  unfold slice
  rw [if_pos ⟨hlo, hhi⟩]
  simp only [Safe, List.length_take, List.length_drop]
  omega

lemma sliceFrom_safe {xs : List α} {lo : Nat} (h : lo ≤ xs.length) :
    (sliceFrom xs lo : Outcome ε (List α)).Safe fun ys => ys.length = xs.length - lo := by
  unfold sliceFrom
  rw [if_pos h]
  simp only [Safe, List.length_drop]

lemma copyAt_safe {xs ys : List α} {pos : Nat} (h : pos + ys.length ≤ xs.length) :
    (copyAt xs pos ys : Outcome ε (List α)).Safe fun zs => zs.length = xs.length := by
  unfold copyAt
  rw [if_pos h]
  simp only [Safe, List.length_append, List.length_take, List.length_drop]
  omega

lemma slice_eq_ok {xs ys : List α} {lo hi : Nat} :
    (slice xs lo hi : Outcome ε (List α)) = ok ys ↔
      (lo ≤ hi ∧ hi ≤ xs.length) ∧ ys = (xs.drop lo).take (hi - lo) := by
  unfold slice
  split
  · rename_i h
    simp [h, eq_comm]
  · rename_i h
    simp [h]

lemma slice_length {xs ys : List α} {lo hi : Nat}
    (h : (slice xs lo hi : Outcome ε (List α)) = ok ys) : ys.length = hi - lo := by
  obtain ⟨hbounds, rfl⟩ := slice_eq_ok.mp h
  rw [List.length_take, List.length_drop]
  omega

lemma sliceFrom_eq_ok {xs ys : List α} {lo : Nat} :
    (sliceFrom xs lo : Outcome ε (List α)) = ok ys ↔ lo ≤ xs.length ∧ ys = xs.drop lo := by
  unfold sliceFrom
  split
  · rename_i h
    simp [h, eq_comm]
  · rename_i h
    simp [h]

lemma index_getD {xs : List α} {i : Nat} {a : α} (h : (index xs i : Outcome ε α) = ok a)
    (default : α) : xs.getD i default = a := by
  unfold index at h
  rw [List.getD_eq_getElem?_getD]
  cases hget : xs[i]? with
  | none => simp [hget] at h
  | some b => simpa [hget] using h

@[simp] lemma index_append (pre : List α) (a : α) (post : List α) :
    (index (pre ++ a :: post) pre.length : Outcome ε α) = ok a := by
  simp [index]

/-- A range that names the middle part of a concatenation reads exactly it. -/
lemma slice_middle (pre mid post : List α) {lo hi : Nat} (hlo : lo = pre.length)
    (hhi : hi = lo + mid.length) :
    (slice (pre ++ mid ++ post) lo hi : Outcome ε (List α)) = ok mid := by
  subst hlo hhi
  simp [slice]

lemma sliceFrom_append (pre post : List α) {lo : Nat} (hlo : lo = pre.length) :
    (sliceFrom (pre ++ post) lo : Outcome ε (List α)) = ok post := by
  subst hlo
  simp [sliceFrom]

/-- Writing over the unwritten tail of a buffer extends the written part. -/
lemma copyAt_fill (pre ys tail : List α) {pos : Nat} (hpos : pos = pre.length)
    (hroom : ys.length ≤ tail.length) :
    (copyAt (pre ++ tail) pos ys : Outcome ε (List α)) =
      ok (pre ++ ys ++ tail.drop ys.length) := by
  subst hpos
  simp [copyAt, hroom]

end Checked

/-- A method on mutable state: what it changed before an error or a panic stays changed. -/
def Method (σ : Type u) (ε : Type v) (α : Type w) := σ → Outcome ε α × σ

namespace Method

variable {σ : Type u} {ε : Type v} {α β : Type w}

def andThen (x : Method σ ε α) (f : α → Method σ ε β) : Method σ ε β := fun s =>
  match x s with
  | (.ok a, s) => f a s
  | (.err e, s) => (.err e, s)
  | (.panic, s) => (.panic, s)

instance : Monad (Method σ ε) where
  pure a := fun s => (.ok a, s)
  bind := andThen

/-- A call that does not touch the state. -/
def lift (x : Outcome ε α) : Method σ ε α := fun s => (x, s)

@[simp] lemma pure_apply (a : α) (s : σ) : (pure a : Method σ ε α) s = (.ok a, s) := rfl

@[simp] lemma lift_apply (x : Outcome ε α) (s : σ) : (lift x : Method σ ε α) s = (x, s) := rfl

lemma bind_apply (x : Method σ ε α) (f : α → Method σ ε β) (s : σ) :
    (x >>= f) s = andThen x f s := rfl

lemma andThen_ok {x : Method σ ε α} {a : α} {s t : σ} (h : x s = (.ok a, t))
    (f : α → Method σ ε β) : andThen x f s = f a t := by
  unfold andThen
  rw [h]

lemma andThen_err {x : Method σ ε α} {e : ε} {s t : σ} (h : x s = (.err e, t))
    (f : α → Method σ ε β) : andThen x f s = (.err e, t) := by
  unfold andThen
  rw [h]

instance : LawfulMonad (Method σ ε) := LawfulMonad.mk' (Method σ ε)
  (fun x => by
    funext s
    change andThen x _ s = x s
    unfold andThen
    rcases x s with ⟨_ | _ | _, t⟩ <;> rfl)
  (fun _ _ => rfl)
  (fun x f g => by
    funext s
    change andThen (andThen x f) g s = andThen x (fun a => andThen (f a) g) s
    unfold andThen
    rcases x s with ⟨_ | _ | _, t⟩ <;> rfl)

end Method
