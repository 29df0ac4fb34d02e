import Mathlib.Data.List.Chain
import Mathlib.Data.List.Nodup
import Mathlib.Logic.Function.Basic

/-!
# Singly linked lists

Paths along a link function, with insertion and removal behind a node, and null-terminated
stacks.
-/

namespace Linked

variable {α : Type*} {next next' : α → Option α}

/-- Every node of `l` is linked to the one that follows it in `l`. -/
def IsPath (next : α → Option α) (l : List α) : Prop :=
  l.IsChain fun x y => next x = some y

lemma IsPath.congr {l : List α} (h : IsPath next l) (hl : ∀ x ∈ l, next' x = next x) :
    IsPath next' l :=
  h.imp_of_mem_imp fun x _ hx _ hxy => (hl x hx).trans hxy

lemma IsPath.next_eq {l₁ l₂ : List α} {x y : α} (h : IsPath next (l₁ ++ x :: y :: l₂)) :
    next x = some y :=
  (List.isChain_append_cons_cons.mp h).2.1

lemma IsPath.insert {l₁ l₂ : List α} {x y n : α} (h : IsPath next (l₁ ++ x :: y :: l₂))
    (hnd : (l₁ ++ x :: y :: l₂).Nodup) (hx : next' x = some n) (hn : next' n = some y)
    (hl : ∀ z ∈ l₁ ++ y :: l₂, next' z = next z) :
    IsPath next' (l₁ ++ x :: n :: y :: l₂) := by
  obtain ⟨h₁, -, h₂⟩ := List.isChain_append_cons_cons.mp h
  refine List.isChain_append_cons_cons.mpr ⟨?_, hx, List.isChain_cons_cons.mpr ⟨hn, ?_⟩⟩
  · refine h₁.imp_of_mem_imp fun a b ha hb hab => ?_
    rcases List.mem_append.mp ha with ha | ha
    · exact (hl a (by simp [ha])).trans hab
    · -- a link out of `x` inside the first part would repeat `y`
      obtain rfl := List.mem_singleton.mp ha
      have hby : b = y := Option.some.inj (hab.symm.trans h.next_eq)
      simp only [List.nodup_append, List.nodup_cons, List.mem_cons] at hnd
      rcases List.mem_append.mp hb with hb | hb
      · exact absurd hby (hnd.2.2 b hb y (by simp))
      · obtain rfl := List.mem_singleton.mp hb
        exact absurd (.inl hby) hnd.2.1.1
  · exact IsPath.congr h₂ fun z hz => hl z (by simp only [List.mem_append]; exact .inr hz)

lemma IsPath.remove {l₁ l₂ : List α} {x n y : α} (h : IsPath next (l₁ ++ x :: n :: y :: l₂))
    (hnd : (l₁ ++ x :: n :: y :: l₂).Nodup) (hx : next' x = some y)
    (hl : ∀ z ∈ l₁ ++ y :: l₂, next' z = next z) : IsPath next' (l₁ ++ x :: y :: l₂) := by
  obtain ⟨h₁, -, h₂⟩ := List.isChain_append_cons_cons.mp h
  refine List.isChain_append_cons_cons.mpr ⟨?_, hx, ?_⟩
  · refine h₁.imp_of_mem_imp fun a b ha hb hab => ?_
    rcases List.mem_append.mp ha with ha | ha
    · exact (hl a (by simp [ha])).trans hab
    · obtain rfl := List.mem_singleton.mp ha
      have hbn : b = n := Option.some.inj (hab.symm.trans h.next_eq)
      simp only [List.nodup_append, List.nodup_cons, List.mem_cons] at hnd
      rcases List.mem_append.mp hb with hb | hb
      · exact absurd hbn (hnd.2.2 b hb n (by simp))
      · obtain rfl := List.mem_singleton.mp hb
        exact absurd (.inl hbn) hnd.2.1.1
  · exact IsPath.congr (List.isChain_cons_cons.mp h₂).2 fun z hz =>
      hl z (by simp only [List.mem_append]; exact .inr hz)

/-- The null-terminated list that starts at `first`. -/
def IsStack (next : α → Option α) : Option α → List α → Prop
  | first, [] => first = none
  | first, x :: l => first = some x ∧ IsStack next (next x) l

lemma IsStack.congr {l : List α} {first : Option α} (h : IsStack next first l)
    (hl : ∀ x ∈ l, next' x = next x) : IsStack next' first l := by
  induction l generalizing first with
  | nil => exact h
  | cons x l ih =>
    refine ⟨h.1, ?_⟩
    rw [hl x (by simp)]
    exact ih h.2 fun y hy => hl y (by simp [hy])

end Linked
