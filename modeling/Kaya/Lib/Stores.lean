import Mathlib.Logic.Function.Basic
import Mathlib.Data.List.Basic
import Mathlib.Tactic.Common

/-!
# Lists written to places

The elements of a list are written one after the other to places that are given by their
numbers. Two of them may have the same place: the later one is what is found there.
-/

namespace Linked

open Function

variable {ι β : Type*} [DecidableEq ι]

/-- `w` after the list has been written, its first element to the place `f k`. -/
def stores (f : ℕ → ι) : ℕ → List β → (ι → β) → ι → β
  | _, [], w => w
  | k, x :: l, w => stores f (k + 1) l (update w (f k) x)

variable {f : ℕ → ι} {k : ℕ} {x : β} {l : List β} {w : ι → β} {y : ι}

lemma stores_cons (f : ℕ → ι) (k : ℕ) (x : β) (l : List β) (w : ι → β) :
    stores f k (x :: l) w = stores f (k + 1) l (update w (f k) x) := rfl

lemma stores_of_ne (h : ∀ j, j < l.length → f (k + j) ≠ y) : stores f k l w y = w y := by
  induction l generalizing k w with
  | nil => rfl
  | cons x l ih =>
    have hrest : ∀ j, j < l.length → f (k + 1 + j) ≠ y := by
      intro j hj
      rw [Nat.add_assoc, Nat.add_comm 1 j]
      exact h (j + 1) (Nat.succ_lt_succ hj)
    rw [stores_cons, ih hrest]
    exact update_of_ne (Ne.symm (h 0 (Nat.succ_pos _))) _ _

/-- What is found at the place of an element is an element with that place. -/
lemma exists_stores_eq (j : ℕ) (hj : j < l.length) :
    ∃ i, ∃ hi : i < l.length, f (k + i) = f (k + j) ∧ stores f k l w (f (k + j)) = l[i] := by
  induction l generalizing k w j with
  | nil => exact absurd hj (Nat.not_lt_zero j)
  | cons x l ih =>
    have hshift : ∀ i, k + 1 + i = k + (i + 1) := fun i => by omega
    by_cases hlater : ∃ i, i < l.length ∧ f (k + 1 + i) = f (k + j)
    · obtain ⟨i, hi, heq⟩ := hlater
      obtain ⟨i', hi', hplace, hfound⟩ := ih (k := k + 1) (w := update w (f k) x) i hi
      rw [heq] at hplace hfound
      exact ⟨i' + 1, Nat.succ_lt_succ hi', (hshift i' ▸ hplace), hfound⟩
    · have hne : ∀ i, i < l.length → f (k + 1 + i) ≠ f (k + j) :=
        fun i hi heq => hlater ⟨i, hi, heq⟩
      cases j with
      | succ j => exact absurd (congrArg f (hshift j)) (hne j (Nat.lt_of_succ_lt_succ hj))
      | zero =>
        refine ⟨0, hj, rfl, ?_⟩
        rw [stores_cons, stores_of_ne hne]
        exact update_self _ _ _

/-- Each element is found at its place if and only if those with one place are equal. -/
theorem stores_kept_iff :
    (∀ j (hj : j < l.length), stores f k l w (f (k + j)) = l[j]) ↔
      ∀ i j (hi : i < l.length) (hj : j < l.length), f (k + i) = f (k + j) → l[i] = l[j] := by
  constructor
  · intro h i j hi hj heq
    rw [← h i hi, ← h j hj, heq]
  · intro h j hj
    obtain ⟨i, hi, hplace, hfound⟩ := exists_stores_eq (f := f) (k := k) (w := w) j hj
    rw [hfound]
    exact h i j hi hj hplace

end Linked
