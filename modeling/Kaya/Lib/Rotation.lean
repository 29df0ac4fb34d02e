import Mathlib.Logic.Function.Basic
import Mathlib.Tactic

/-!
# Slots filled in rotation

The items of a list go into `c` slots, one after the other, from slot 1 on and after the last
slot from slot 0 on again. The slots then have the last `c` items.
-/

namespace Linked

open Function

variable {α : Type*} {c : Nat} {init slot : Fin c → α} {l : List α} {f : Fin c} {x : α}

/-- The slots after the items of `l`. -/
structure Rotates (init : Fin c → α) (l : List α) (slot : Fin c → α) : Prop where
  recent : ∀ i f, i < l.length → l.length ≤ i + c → f.val = (i + 1) % c → l[i]? = some (slot f)
  rest : ∀ f, (∀ i < l.length, f.val ≠ (i + 1) % c) → slot f = init f

namespace Rotates

lemma start (init : Fin c → α) : Rotates init [] init :=
  ⟨fun _ _ hi => absurd hi (Nat.not_lt_zero _), fun _ _ => rfl⟩

lemma mod_eq_iff {i j : Nat} (hij : i < j) (hj : j ≤ i + c) : j % c = i % c ↔ j = i + c := by
  constructor
  · intro he
    by_contra hne
    have hlt : j - i < c := by omega
    have hmod : (j - i) % c = 0 := Nat.sub_mod_eq_zero_of_mod_eq he
    rw [Nat.mod_eq_of_lt hlt] at hmod
    omega
  · rintro rfl
    exact Nat.add_mod_right i c

lemma push (h : Rotates init l slot) (hf : f.val = (l.length + 1) % c) :
    Rotates init (l ++ [x]) (update slot f x) := by
  refine ⟨fun i g hi hle hg => ?_, fun g hg => ?_⟩
  · rw [List.length_append, List.length_singleton] at hi hle
    by_cases hlast : i = l.length
    · subst hlast
      have hgf : g = f := Fin.ext (hg.trans hf.symm)
      subst hgf
      rw [update_self, List.getElem?_append_right le_rfl]
      simp
    · have hlt : i < l.length := by omega
      have hne : g ≠ f := by
        rintro rfl
        have hround := (mod_eq_iff (i := i + 1) (j := l.length + 1) (c := c) (by omega)
          (by omega)).mp (hf.symm.trans hg)
        omega
      rw [update_of_ne hne, List.getElem?_append_left hlt]
      exact h.recent i g hlt (by omega) hg
  · rw [List.length_append, List.length_singleton] at hg
    have hne : g ≠ f := by
      rintro rfl
      exact hg l.length (by omega) hf
    rw [update_of_ne hne]
    exact h.rest g fun i hi => hg i (by omega)

/-- The slot whose turn it is has the oldest item, or is still as it was at first. -/
lemma oldest (h : Rotates init l slot) (hf : f.val = (l.length + 1) % c) :
    slot f = init f ∨ c ≤ l.length ∧ l[l.length - c]? = some (slot f) := by
  by_cases hlen : c ≤ l.length
  · have hc : 0 < c := f.pos
    refine .inr ⟨hlen, h.recent _ f (by omega) (by omega) ?_⟩
    have hround := (mod_eq_iff (i := l.length - c + 1) (j := l.length + 1) (c := c) (by omega)
      (by omega)).mpr (by omega)
    rw [hf, hround]
  · refine .inl (h.rest f fun i hi he => ?_)
    have hround := (mod_eq_iff (i := i + 1) (j := l.length + 1) (c := c) (by omega)
      (by omega)).mp (hf.symm.trans he)
    omega

end Rotates

end Linked
