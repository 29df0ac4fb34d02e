import Mathlib.Algebra.BigOperators.Group.Finset.Piecewise
import Mathlib.Algebra.Order.BigOperators.Group.Finset
import Mathlib.Data.Int.Order.Basic
import Mathlib.Tactic.Linarith
import Mathlib.Tactic.Ring

/-!
# Turns on one resource

At most one party at a time has the turn. The ledger keeps the completed turns, who has the
turn now and since when, and the last reading of the clock. As long as the clock does not go
back, no more time is accounted for than has passed.
-/

namespace Linked

/-- A completed turn. -/
structure Turn (α : Type*) where
  party : α
  start : ℤ
  stop : ℤ

def Turn.length {α : Type*} (x : Turn α) : ℤ := x.stop - x.start

structure Ledger (α : Type*) where
  turns : List (Turn α)
  current : Option (α × ℤ)
  now : ℤ

namespace Ledger

variable {α : Type*} {L : Ledger α} {p q : α} {t : ℤ}

/-- A reading of the clock. -/
def read (L : Ledger α) (t : ℤ) : Ledger α := { L with now := t }

/-- The current turn is over. -/
def close (L : Ledger α) : Ledger α :=
  match L.current with
  | none => L
  | some (p, start) => { L with turns := L.turns ++ [⟨p, start, L.now⟩], current := none }

/-- How long the current turn has taken at the time `t`. -/
def elapsed (L : Ledger α) (t : ℤ) : ℤ :=
  match L.current with
  | none => 0
  | some (_, start) => t - start

/-- A turn of `p` begins. -/
def start (L : Ledger α) (p : α) : Ledger α := { L with current := some (p, L.now) }

@[simp] lemma close_now (L : Ledger α) : L.close.now = L.now := by
  unfold close
  cases L.current <;> rfl

@[simp] lemma close_current (L : Ledger α) : L.close.current = none := by
  unfold close
  cases hc : L.current
  · exact hc
  · rfl

/-- No turn has a negative length. -/
structure Sane (L : Ledger α) : Prop where
  turns : ∀ x ∈ L.turns, x.start ≤ x.stop
  current : ∀ x ∈ L.current, x.2 ≤ L.now

lemma Sane.read (h : L.Sane) (ht : L.now ≤ t) : (L.read t).Sane :=
  ⟨h.turns, fun x hx => (h.current x hx).trans ht⟩

lemma Sane.close (h : L.Sane) : L.close.Sane := by
  refine ⟨?_, by simp⟩
  unfold Ledger.close
  cases hc : L.current with
  | none => exact h.turns
  | some x =>
    intro y hy
    rcases List.mem_append.mp hy with hy | hy
    · exact h.turns y hy
    · obtain rfl := List.mem_singleton.mp hy
      exact h.current x hc

lemma Sane.start (h : L.Sane) (p : α) : (L.start p).Sane := by
  refine ⟨h.turns, fun x hx => ?_⟩
  obtain rfl := Option.some.inj hx
  exact le_rfl

section Accounts

variable [DecidableEq α]

/-- The time of the completed turns of `p`. -/
def spent (L : Ledger α) (p : α) : ℤ := ((L.turns.filter fun x => x.party = p).map Turn.length).sum

/-- The time the turn of `p` has taken so far. -/
def pending (L : Ledger α) (p : α) : ℤ :=
  match L.current with
  | none => 0
  | some (q, start) => if q = p then L.now - start else 0

def account (L : Ledger α) (p : α) : ℤ := L.spent p + L.pending p

lemma spent_close (L : Ledger α) (p : α) : L.close.spent p = L.account p := by
  unfold close account spent pending
  cases hc : L.current with
  | none => simp
  | some x =>
    obtain ⟨q, s⟩ := x
    by_cases hq : q = p <;> simp [hq, Turn.length]

@[simp] lemma account_close (L : Ledger α) (p : α) : L.close.account p = L.account p := by
  rw [account, spent_close]
  simp [pending]

lemma account_start (hc : L.current = none) (p q : α) : (L.start q).account p = L.account p := by
  simp [account, spent, pending, start, hc]

@[simp] lemma spent_read (L : Ledger α) (t : ℤ) (p : α) : (L.read t).spent p = L.spent p := rfl

@[simp] lemma spent_start (L : Ledger α) (p q : α) : (L.start q).spent p = L.spent p := rfl

lemma account_read (L : Ledger α) (t : ℤ) (p : α) :
    (L.read t).account p =
      L.account p + if L.current.map Prod.fst = some p then t - L.now else 0 := by
  have hpending : (L.read t).pending p =
      L.pending p + if L.current.map Prod.fst = some p then t - L.now else 0 := by
    unfold pending read
    cases hc : L.current with
    | none => simp
    | some x =>
      obtain ⟨q, s⟩ := x
      by_cases hq : q = p <;> simp [hq]
  unfold account
  rw [spent_read, hpending, add_assoc]

lemma account_le_read (ht : L.now ≤ t) (p : α) : L.account p ≤ (L.read t).account p := by
  rw [account_read]
  split_ifs <;> linarith

lemma account_read_le (ht : L.now ≤ t) (p : α) :
    (L.read t).account p ≤ L.account p + (t - L.now) := by
  rw [account_read]
  split_ifs <;> linarith

lemma Sane.spent_nonneg (h : L.Sane) (p : α) : 0 ≤ L.spent p := by
  apply List.sum_nonneg
  intro x hx
  obtain ⟨y, hy, rfl⟩ := List.mem_map.mp hx
  have hle := h.turns y (List.mem_filter.mp hy).1
  unfold Turn.length
  linarith

lemma Sane.pending_nonneg (h : L.Sane) (p : α) : 0 ≤ L.pending p := by
  unfold pending
  cases hc : L.current with
  | none => exact le_rfl
  | some x =>
    have hle := h.current x hc
    dsimp only
    split_ifs <;> linarith

lemma Sane.account_nonneg (h : L.Sane) (p : α) : 0 ≤ L.account p :=
  add_nonneg (h.spent_nonneg p) (h.pending_nonneg p)

variable [Fintype α]

def total (L : Ledger α) : ℤ := ∑ p, L.account p

lemma total_eq (L : Ledger α) : L.total = ∑ p, L.spent p + L.elapsed L.now := by
  have hpending : ∑ p, L.pending p = L.elapsed L.now := by
    unfold pending elapsed
    cases L.current with
    | none => simp
    | some x => simp [Finset.sum_ite_eq]
  rw [← hpending, ← Finset.sum_add_distrib]
  rfl

@[simp] lemma total_close (L : Ledger α) : L.close.total = L.total :=
  Finset.sum_congr rfl fun p _ => account_close L p

lemma total_start (hc : L.current = none) (q : α) : (L.start q).total = L.total :=
  Finset.sum_congr rfl fun p _ => account_start hc p q

/-- Only one party has the turn. -/
lemma total_read_le (ht : L.now ≤ t) : (L.read t).total ≤ L.total + (t - L.now) := by
  unfold total
  simp only [account_read, Finset.sum_add_distrib]
  have hsum : ∑ p, (if L.current.map Prod.fst = some p then t - L.now else 0) ≤ t - L.now := by
    cases L.current.map Prod.fst with
    | none => simpa using ht
    | some q => simp [Finset.sum_ite_eq]
  linarith

lemma Sane.account_le_total (h : L.Sane) (p : α) : L.account p ≤ L.total :=
  Finset.single_le_sum (fun q _ => h.account_nonneg q) (Finset.mem_univ p)

/-- From `L` to `L'` nobody has lost time, and neither one party nor all together have got
more than the clock has gone on. -/
structure Grows (L L' : Ledger α) : Prop where
  now : L.now ≤ L'.now
  lower : ∀ p, L.account p ≤ L'.account p
  upper : ∀ p, L'.account p ≤ L.account p + (L'.now - L.now)
  total : L'.total ≤ L.total + (L'.now - L.now)

lemma Grows.refl (L : Ledger α) : L.Grows L := by
  refine ⟨le_rfl, fun _ => le_rfl, fun p => ?_, ?_⟩ <;> simp

lemma Grows.trans {L' L'' : Ledger α} (h : L.Grows L') (h' : L'.Grows L'') : L.Grows L'' := by
  refine ⟨h.now.trans h'.now, fun p => (h.lower p).trans (h'.lower p), fun p => ?_, ?_⟩
  · have hp := h.upper p
    have hp' := h'.upper p
    linarith
  · have ht := h.total
    have ht' := h'.total
    linarith

lemma grows_read (ht : L.now ≤ t) : L.Grows (L.read t) :=
  ⟨ht, account_le_read ht, account_read_le ht, total_read_le ht⟩

lemma grows_close (L : Ledger α) : L.Grows L.close := by
  refine ⟨(close_now L).ge, fun p => (account_close L p).ge, fun p => ?_, ?_⟩ <;> simp

lemma grows_start (hc : L.current = none) (q : α) : L.Grows (L.start q) := by
  have hnow : (L.start q).now = L.now := rfl
  refine ⟨hnow.ge, fun p => (account_start hc p q).ge, fun p => ?_, ?_⟩
  · rw [account_start hc, hnow, sub_self, add_zero]
  · rw [total_start hc, hnow, sub_self, add_zero]

end Accounts

end Ledger

end Linked
