import Mathlib.Data.List.Nodup

/-!
# Null-terminated doubly linked lists

The nodes of a list, linked forward and backward, with the null pointer behind the last one
and a given pointer before the first.
-/

namespace Linked

variable {α : Type*} {next prev next' prev' : α → Option α}

/-- The nodes of `l` are linked in this order, and the first one points back to `before`. -/
def IsLinked (next prev : α → Option α) : Option α → List α → Prop
  | _, [] => True
  | before, x :: l => prev x = before ∧ next x = l.head? ∧ IsLinked next prev (some x) l

namespace IsLinked

lemma congr {before : Option α} {l : List α} (h : IsLinked next prev before l)
    (hl : ∀ x ∈ l, next' x = next x ∧ prev' x = prev x) : IsLinked next' prev' before l := by
  induction l generalizing before with
  | nil => trivial
  | cons x l ih =>
    obtain ⟨hb, hn, ht⟩ := h
    obtain ⟨hnx, hpx⟩ := hl x List.mem_cons_self
    exact ⟨hpx.trans hb, hnx.trans hn, ih ht fun y hy => hl y (List.mem_cons_of_mem x hy)⟩

lemma reprev {before before' : Option α} {x : α} {l : List α}
    (h : IsLinked next prev before (x :: l)) (hx : prev' x = before') (hnx : next' x = next x)
    (hl : ∀ y ∈ l, next' y = next y ∧ prev' y = prev y) :
    IsLinked next' prev' before' (x :: l) :=
  ⟨hx, hnx.trans h.2.1, h.2.2.congr hl⟩

lemma middle {before : Option α} {l₁ l₂ : List α} {x y : α}
    (h : IsLinked next prev before (l₁ ++ y :: x :: l₂)) :
    prev x = some y ∧ next x = l₂.head? := by
  induction l₁ generalizing before with
  | nil => exact ⟨h.2.2.1, h.2.2.2.1⟩
  | cons z l₁ ih => exact ih h.2.2

/-- Splicing out the node `x` behind `y`. -/
lemma unlink {before : Option α} {l₁ l₂ : List α} {x y : α}
    (h : IsLinked next prev before (l₁ ++ y :: x :: l₂)) (hnd : (l₁ ++ y :: x :: l₂).Nodup)
    (hy : next' y = l₂.head?) (hz : ∀ z ∈ l₂.head?, prev' z = some y)
    (hn : ∀ z ∈ l₁ ++ y :: x :: l₂, z ≠ y → next' z = next z)
    (hp : ∀ z ∈ l₁ ++ y :: x :: l₂, z ∉ l₂.head? → prev' z = prev z) :
    IsLinked next' prev' before (l₁ ++ y :: l₂) := by
  induction l₁ generalizing before with
  | nil =>
    obtain ⟨hb, -, -, -, ht⟩ := h
    simp only [List.nil_append, List.nodup_cons, List.mem_cons, not_or] at hnd
    obtain ⟨⟨-, hyl⟩, hxl, hndl⟩ := hnd
    have hyhead : y ∉ l₂.head? := fun hm => hyl (List.mem_of_mem_head? hm)
    refine ⟨(hp y (by simp) hyhead).trans hb, hy, ?_⟩
    cases l₂ with
    | nil => trivial
    | cons z l₂ =>
      have hne : ∀ w ∈ z :: l₂, w ≠ y := fun w hw he => hyl (he ▸ hw)
      refine ht.reprev (hz z rfl) (hn z (by simp) (hne z (by simp))) fun w hw => ⟨?_, ?_⟩
      · exact hn w (by simp [hw]) (hne w (by simp [hw]))
      · apply hp w (by simp [hw])
        rintro hwz
        obtain rfl : z = w := Option.some.inj hwz
        exact (List.nodup_cons.mp hndl).1 hw
  | cons w l₁ ih =>
    obtain ⟨hb, hnext, ht⟩ := h
    obtain ⟨hw, hnd⟩ := List.nodup_cons.mp hnd
    have hwy : w ≠ y := by
      rintro rfl
      exact hw (by simp)
    have hwhead : w ∉ l₂.head? := by
      intro hm
      have hmem := List.mem_of_mem_head? hm
      exact hw (by simp [hmem])
    refine ⟨(hp w (by simp) hwhead).trans hb, ?_, ?_⟩
    · rw [hn w (by simp) hwy, hnext]
      cases l₁ <;> rfl
    · exact ih ht hnd (fun z hz' => hn z (List.mem_cons_of_mem w hz'))
        fun z hz' => hp z (List.mem_cons_of_mem w hz')

lemma next_adjacent {before : Option α} {l : List α} {x y : α} (h : IsLinked next prev before l)
    (hx : x ∈ l) (hy : next x = some y) : [x, y] <:+: l := by
  induction l generalizing before with
  | nil => simp at hx
  | cons z l ih =>
    obtain ⟨-, hnext, ht⟩ := h
    rcases List.mem_cons.mp hx with rfl | hx
    · obtain ⟨l, rfl⟩ := List.head?_eq_some_iff.mp (hnext.symm.trans hy)
      exact ⟨[], l, rfl⟩
    · exact List.infix_cons (ih ht hx)

lemma prev_adjacent {before : Option α} {l : List α} {x y : α} (h : IsLinked next prev before l)
    (hx : x ∈ l) (hy : prev x = some y) : [y, x] <:+: before.toList ++ l := by
  induction l generalizing before with
  | nil => simp at hx
  | cons z l ih =>
    obtain ⟨hprev, -, ht⟩ := h
    rcases List.mem_cons.mp hx with rfl | hx
    · obtain rfl : before = some y := hprev.symm.trans hy
      exact ⟨[], l, rfl⟩
    · exact (ih ht hx).trans (List.suffix_append before.toList (z :: l)).isInfix

end IsLinked

end Linked
