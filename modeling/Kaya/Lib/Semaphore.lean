import Mathlib.Data.List.Basic
import Mathlib.Tactic

/-!
# Counting semaphores

A counting semaphore is an integer with the list of those that wait on it, the one that has
waited longest first. A waiter can also be withdrawn without having been let through.
-/

namespace Linked

structure Semaphore (α : Type*) where
  value : Int
  waiters : List α
  deriving DecidableEq

namespace Semaphore

variable {α : Type*} {s : Semaphore α} {x : α}

/-- V: the first waiter, if the value has been below zero, goes on. -/
def verhogen (s : Semaphore α) : Semaphore α :=
  ⟨s.value + 1, if s.value + 1 ≤ 0 then s.waiters.tail else s.waiters⟩

/-- P: `x` waits when the value gets below zero. -/
def passeren (x : α) (s : Semaphore α) : Semaphore α :=
  ⟨s.value - 1, if s.value - 1 < 0 then s.waiters ++ [x] else s.waiters⟩

/-- The waiters of `dead` are gone, and each of them raises the value by one. -/
def withdraw [DecidableEq α] (dead : List α) (s : Semaphore α) : Semaphore α :=
  ⟨s.value + s.waiters.countP (· ∈ dead), s.waiters.filter (· ∉ dead)⟩

/-- As many wait as the value is below zero. -/
def Balanced (s : Semaphore α) : Prop := s.waiters.length = (-s.value).toNat

/-- The value does nothing but count the waiters. -/
def Counts (s : Semaphore α) : Prop := s.value = -s.waiters.length

lemma Counts.balanced (h : s.Counts) : s.Balanced := by
  unfold Counts at h
  unfold Balanced
  omega

lemma Balanced.counts (h : s.Balanced) (hv : s.value ≤ 0) : s.Counts := by
  unfold Balanced at h
  unfold Counts
  omega

lemma Balanced.verhogen (h : s.Balanced) : s.verhogen.Balanced := by
  unfold Balanced at h
  unfold Balanced Semaphore.verhogen
  dsimp only
  split
  · rw [List.length_tail]
    omega
  · omega

lemma Balanced.passeren (h : s.Balanced) (x : α) : (s.passeren x).Balanced := by
  unfold Balanced at h
  unfold Balanced Semaphore.passeren
  dsimp only
  split
  · rw [List.length_append, List.length_singleton]
    omega
  · omega

lemma Counts.passeren (h : s.Counts) (x : α) : (s.passeren x).Counts := by
  apply (h.balanced.passeren x).counts
  unfold Counts at h
  unfold Semaphore.passeren
  dsimp only
  omega

lemma Counts.waiters_passeren (h : s.Counts) (x : α) :
    (s.passeren x).waiters = s.waiters ++ [x] := by
  unfold Counts at h
  unfold Semaphore.passeren
  dsimp only
  rw [if_pos]
  omega

section Withdraw

variable [DecidableEq α] {dead : List α}

lemma length_withdraw (s : Semaphore α) (dead : List α) :
    (s.withdraw dead).waiters.length + s.waiters.countP (· ∈ dead) = s.waiters.length := by
  have h : s.waiters.length = _ := List.length_eq_countP_add_countP (· ∈ dead)
  unfold withdraw
  dsimp only
  rw [← List.countP_eq_length_filter, h, add_comm]
  simp

lemma Balanced.withdraw (h : s.Balanced) (dead : List α) : (s.withdraw dead).Balanced := by
  have hl := length_withdraw s dead
  unfold Balanced at h
  unfold Balanced
  unfold Semaphore.withdraw at hl ⊢
  dsimp only at hl ⊢
  omega

lemma Counts.withdraw (h : s.Counts) (dead : List α) : (s.withdraw dead).Counts := by
  have hl := length_withdraw s dead
  unfold Counts at h
  unfold Counts
  unfold Semaphore.withdraw at hl ⊢
  dsimp only at hl ⊢
  omega

lemma withdraw_congr {dead' : List α} (h : ∀ y ∈ s.waiters, y ∈ dead ↔ y ∈ dead') :
    s.withdraw dead = s.withdraw dead' := by
  have hcount : s.waiters.countP (· ∈ dead) = s.waiters.countP (· ∈ dead') := by
    apply List.countP_congr
    intro y hy
    simp [h y hy]
  have hfilter : s.waiters.filter (· ∉ dead) = s.waiters.filter (· ∉ dead') := by
    apply List.filter_congr
    intro y hy
    simp [h y hy]
  unfold withdraw
  rw [hcount, hfilter]

lemma withdraw_nil (s : Semaphore α) : s.withdraw [] = s := by
  simp [withdraw]

lemma withdraw_cons (hx : x ∈ s.waiters) (hnd : s.waiters.Nodup) :
    withdraw dead ⟨s.value + 1, s.waiters.erase x⟩ = s.withdraw (x :: dead) := by
  have hperm := List.perm_cons_erase hx
  have hcount : s.waiters.countP (· ∈ x :: dead) = (s.waiters.erase x).countP (· ∈ dead) + 1 := by
    rw [hperm.countP_eq, List.countP_cons]
    simp only [List.mem_cons, true_or, decide_true, if_true, Nat.add_right_cancel_iff]
    apply List.countP_congr
    intro y hy
    have hyx : y ≠ x := fun he => (hnd.mem_erase_iff.mp hy).1 he
    simp [hyx]
  have hfilter : s.waiters.filter (· ∉ x :: dead) = (s.waiters.erase x).filter (· ∉ dead) := by
    rw [hnd.erase_eq_filter, List.filter_filter]
    apply List.filter_congr
    intro y _
    by_cases hy : y = x
    · simp [hy]
    · simp [hy]
  unfold withdraw
  rw [hcount, hfilter]
  push_cast
  rw [add_assoc, add_comm (1 : Int)]

end Withdraw

end Semaphore

end Linked
