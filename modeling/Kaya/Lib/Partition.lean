import Mathlib.Data.List.Nodup
import Mathlib.Logic.Function.Basic
import Mathlib.Tactic

/-!
# Every element on one list

A family of lists partitions a type when each element is on the list of its home, once, and
on no other. Moving an element to the end of another list moves its home.
-/

namespace Linked

open Function

variable {α ι : Type*}

structure IsPartition (lists : ι → List α) (home : α → ι) : Prop where
  mem_iff : ∀ x i, x ∈ lists i ↔ home x = i
  nodup : ∀ i, (lists i).Nodup

namespace IsPartition

variable {lists lists' : ι → List α} {home : α → ι} {x : α} {i j : ι}

lemma mem_home (h : IsPartition lists home) (x : α) : x ∈ lists (home x) :=
  (h.mem_iff x _).mpr rfl

lemma not_mem (h : IsPartition lists home) (hx : x ∈ lists i) (hij : i ≠ j) : x ∉ lists j := by
  intro hj
  exact hij (((h.mem_iff x i).mp hx).symm.trans ((h.mem_iff x j).mp hj))

lemma disjoint (h : IsPartition lists home) (hij : i ≠ j) : (lists i).Disjoint (lists j) :=
  fun _ hi => h.not_mem hi hij

lemma existsUnique (h : IsPartition lists home) (x : α) : ∃! i, x ∈ lists i :=
  ⟨home x, h.mem_home x, fun i hi => ((h.mem_iff x i).mp hi).symm⟩

variable [DecidableEq α]

lemma move (h : IsPartition lists home) (hx : x ∈ lists i) (hij : i ≠ j)
    (hi : lists' i = (lists i).erase x) (hj : lists' j = lists j ++ [x])
    (ho : ∀ l, l ≠ i → l ≠ j → lists' l = lists l) :
    IsPartition lists' (update home x j) := by
  have hxj := h.not_mem hx hij
  refine ⟨fun y l => ?_, fun l => ?_⟩
  · by_cases hli : l = i
    · subst hli
      rw [hi, (h.nodup l).mem_erase_iff, h.mem_iff]
      by_cases hy : y = x
      · simp [hy, Ne.symm hij]
      · simp [hy]
    · by_cases hlj : l = j
      · subst hlj
        rw [hj, List.mem_append, h.mem_iff]
        by_cases hy : y = x
        · simp [hy]
        · simp [hy]
      · rw [ho l hli hlj, h.mem_iff]
        by_cases hy : y = x
        · have hne : home x ≠ l := fun he => hli (((h.mem_iff x i).mp hx).symm.trans he).symm
          simp [hy, hne, Ne.symm hlj]
        · simp [hy]
  · by_cases hli : l = i
    · subst hli
      rw [hi]
      exact (h.nodup l).erase x
    · by_cases hlj : l = j
      · subst hlj
        rw [hj, List.nodup_append]
        refine ⟨h.nodup l, List.nodup_singleton x, fun y hy z hz => ?_⟩
        rintro rfl
        exact hxj (List.mem_singleton.mp hz ▸ hy)
      · rw [ho l hli hlj]
        exact h.nodup l

end IsPartition

end Linked
