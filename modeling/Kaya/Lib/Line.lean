import Mathlib.Data.List.Basic
import Mathlib.Tactic

/-!
# Standing in line

A line from which the first one is served, in which others line up at the end, and which some
leave on their own. Whoever stays moves up with each one that is served.
-/

namespace Linked

variable {α : Type*} [DecidableEq α] {l l' gone : List α} {served : Option α} {x : α}

lemma idxOf_filter_le {q : α → Bool} (hx : x ∈ l) (hq : q x = true) :
    (l.filter q).idxOf x ≤ l.idxOf x := by
  induction l with
  | nil => cases hx
  | cons y l ih =>
    by_cases hy : y = x
    · subst hy
      rw [List.filter_cons_of_pos hq, List.idxOf_cons_self, List.idxOf_cons_self]
    · have hxl : x ∈ l := (List.mem_cons.mp hx).resolve_left (Ne.symm hy)
      rw [List.idxOf_cons_ne _ hy, List.filter_cons]
      split
      · rw [List.idxOf_cons_ne _ hy]
        exact Nat.succ_le_succ (ih hxl)
      · exact (ih hxl).trans (Nat.le_succ _)

/-- The line `l` becomes `l'`: others line up, those of `gone` leave, and then the first one may
be served. -/
def Advances (l : List α) (served : Option α) (gone l' : List α) : Prop :=
  ∃ added, served.toList ++ l' = (l ++ added).filter (· ∉ gone)

/-- One who stays is served or moves up. -/
lemma Advances.position (h : Advances l served gone l') (hx : x ∈ l) (hg : x ∉ gone) :
    served = some x ∨ x ∈ l' ∧ l'.idxOf x + served.toList.length ≤ l.idxOf x := by
  obtain ⟨added, hline⟩ := h
  have hmem : x ∈ l ++ added := List.mem_append_left _ hx
  have hstays : x ∈ served.toList ++ l' := by
    rw [hline, List.mem_filter]
    exact ⟨hmem, by simpa using hg⟩
  have hup : (served.toList ++ l').idxOf x ≤ l.idxOf x := by
    rw [hline]
    refine (idxOf_filter_le hmem (by simpa using hg)).trans_eq ?_
    rw [List.idxOf_append, if_pos hx]
  cases served with
  | none => exact .inr ⟨hstays, by simpa using hup⟩
  | some y =>
    by_cases hy : y = x
    · exact .inl (congrArg some hy)
    · right
      refine ⟨(List.mem_cons.mp hstays).resolve_left (Ne.symm hy), ?_⟩
      rw [Option.toList_some, List.singleton_append, List.idxOf_cons_ne _ hy] at hup
      exact hup

end Linked
