import Mathlib.Data.List.Chain
import Mathlib.Data.List.Nodup
import Mathlib.Logic.Function.Basic

/-!
# Circular doubly linked lists

A ring is a list of distinct nodes whose forward and backward links are mutually
inverse and close up from the last node to the first. It is named by a pointer to its
last node, and the empty ring by the null pointer. The lemmas say what splicing a node
in at the end and splicing the first node out do to the represented list.
-/

namespace Linked

variable {α : Type*}

/-- The forward link of `x` and the backward link of `y` name each other. -/
def Follows (next prev : α → Option α) (x y : α) : Prop :=
  next x = some y ∧ prev y = some x

/-- `tail` points to the last node of the ring through the nodes of `l`, in this order. -/
def IsRing (next prev : α → Option α) (tail : Option α) (l : List α) : Prop :=
  tail = l.getLast? ∧ l.Nodup ∧ ∀ z ∈ tail, (z :: l).IsChain (Follows next prev)

section Rings

variable {next prev next' prev' : α → Option α} {tail : Option α} {l : List α}

lemma IsRing.nil : IsRing next prev none [] :=
  ⟨rfl, List.nodup_nil, by simp⟩

lemma IsRing.nodup (h : IsRing next prev tail l) : l.Nodup := h.2.1

lemma IsRing.eq_nil (h : IsRing next prev none l) : l = [] := by
  exact List.getLast?_eq_none_iff.mp h.1.symm

lemma IsRing.chain {z : α} (h : IsRing next prev (some z) l) :
    (z :: l).IsChain (Follows next prev) :=
  h.2.2 z rfl

lemma IsRing.exists_snoc {z : α} (h : IsRing next prev (some z) l) :
    ∃ m, l = m ++ [z] :=
  List.getLast?_eq_some_iff.mp h.1.symm

lemma IsRing.tail_mem {z : α} (h : IsRing next prev (some z) l) : z ∈ l := by
  obtain ⟨m, rfl⟩ := h.exists_snoc
  simp

lemma IsRing.exists_cons {z : α} (h : IsRing next prev (some z) l) :
    ∃ a m, l = a :: m ∧ next z = some a ∧ prev a = some z := by
  have hc := h.chain
  cases l with
  | nil => simpa using h.tail_mem
  | cons a m =>
    have hf := (List.isChain_cons_cons.mp hc).1
    exact ⟨a, m, rfl, hf.1, hf.2⟩

lemma IsRing.congr (h : IsRing next prev tail l)
    (hl : ∀ x ∈ l, next' x = next x ∧ prev' x = prev x) : IsRing next' prev' tail l := by
  refine ⟨h.1, h.2.1, fun z hz => ?_⟩
  obtain rfl : tail = some z := hz
  have hmem : ∀ x ∈ z :: l, x ∈ l := by
    intro x hx
    rcases List.mem_cons.mp hx with rfl | hx
    · exact h.tail_mem
    · exact hx
  refine h.chain.imp_of_mem_imp fun x y hx hy hf => ?_
  exact ⟨(hl x (hmem x hx)).1.trans hf.1, (hl y (hmem y hy)).2.trans hf.2⟩

lemma IsRing.singleton {p : α} (hn : next p = some p) (hp : prev p = some p) :
    IsRing next prev (some p) [p] := by
  refine ⟨rfl, List.nodup_singleton p, fun z hz => ?_⟩
  obtain rfl : p = z := Option.some.inj hz
  exact List.isChain_pair.mpr ⟨hn, hp⟩

/-- The same ring, named by the node `y` instead of its last node `z`. -/
lemma IsRing.rotate {l₁ l₂ : List α} {y z : α}
    (h : IsRing next prev (some z) (l₁ ++ y :: (l₂ ++ [z]))) :
    IsRing next prev (some y) (l₂ ++ z :: (l₁ ++ [y])) := by
  have hperm : (l₁ ++ y :: (l₂ ++ [z])).Perm (l₂ ++ z :: (l₁ ++ [y])) := by
    have he : l₁ ++ y :: (l₂ ++ [z]) = (l₁ ++ [y]) ++ (l₂ ++ [z]) := by simp
    have he' : l₂ ++ z :: (l₁ ++ [y]) = (l₂ ++ [z]) ++ (l₁ ++ [y]) := by simp
    rw [he, he']
    exact List.perm_append_comm
  have hlast : some y = (l₂ ++ z :: (l₁ ++ [y])).getLast? := by
    rw [← List.cons_append, ← List.append_assoc, List.getLast?_concat]
  refine ⟨hlast, hperm.nodup_iff.mp h.nodup, fun x hx => ?_⟩
  obtain rfl : y = x := Option.some.inj hx
  have hc := h.chain
  rw [← List.cons_append, List.isChain_split] at hc
  rw [← List.cons_append, List.isChain_split]
  exact ⟨hc.2, hc.1⟩

lemma IsRing.snoc {a z p : α} {m : List α} (h : IsRing next prev (some z) (a :: m))
    (hp : p ∉ a :: m) (hnp : next' p = some a) (hnz : next' z = some p)
    (hpa : prev' a = some p) (hpp : prev' p = some z)
    (hn : ∀ x ∈ a :: m, x ≠ z → next' x = next x)
    (hv : ∀ x ∈ a :: m, x ≠ a → prev' x = prev x) :
    IsRing next' prev' (some p) (a :: m ++ [p]) := by
  have hnd := h.nodup
  have hnd' : (a :: m ++ [p]).Nodup := by
    rw [List.nodup_append_comm, List.singleton_append]
    exact List.nodup_cons.mpr ⟨hp, hnd⟩
  refine ⟨List.getLast?_concat.symm, hnd', fun x hx => ?_⟩
  obtain rfl : p = x := Option.some.inj hx
  obtain ⟨k, hk⟩ := h.exists_snoc
  have hc := List.isChain_cons_cons.mp h.chain
  have hin : (a :: m).IsChain (Follows next' prev') := by
    refine hc.2.imp_of_mem_tail_imp fun x y hx hy hf => ?_
    have hya : y ≠ a := by
      rintro rfl
      exact (List.nodup_cons.mp hnd).1 hy
    have hxz : x ≠ z := by
      rintro rfl
      exact hya (Option.some.inj (hf.1.symm.trans hc.1.1))
    exact ⟨(hn x hx hxz).trans hf.1, (hv y (List.mem_cons_of_mem a hy) hya).trans hf.2⟩
  have hout : (a :: m ++ [p]).IsChain (Follows next' prev') := by
    rw [hk] at hin ⊢
    rw [List.append_assoc, List.singleton_append, List.isChain_split]
    exact ⟨hin, List.isChain_pair.mpr ⟨hnz, hpp⟩⟩
  exact List.isChain_cons_cons.mpr ⟨⟨hnp, hpa⟩, hout⟩

lemma IsRing.pop {a b z : α} {m : List α} (h : IsRing next prev (some z) (a :: b :: m))
    (hnz : next' z = some b) (hvb : prev' b = some z)
    (hn : ∀ x ∈ b :: m, x ≠ z → next' x = next x)
    (hv : ∀ x ∈ b :: m, x ≠ b → prev' x = prev x) :
    IsRing next' prev' (some z) (b :: m) := by
  have hnd := h.nodup
  have hnd' : (b :: m).Nodup := (List.nodup_cons.mp hnd).2
  have hlast : some z = (b :: m).getLast? := h.1.trans List.getLast?_cons_cons
  refine ⟨hlast, hnd', fun x hx => ?_⟩
  obtain rfl : z = x := Option.some.inj hx
  have hc := List.isChain_cons_cons.mp h.chain
  have hin : (b :: m).IsChain (Follows next' prev') := by
    refine (List.isChain_cons_cons.mp hc.2).2.imp_of_mem_tail_imp fun x y hx hy hf => ?_
    have hyb : y ≠ b := by
      rintro rfl
      exact (List.nodup_cons.mp hnd').1 hy
    have hxz : x ≠ z := by
      rintro rfl
      have hya : y = a := Option.some.inj (hf.1.symm.trans hc.1.1)
      exact (List.nodup_cons.mp hnd).1 (hya ▸ List.mem_cons_of_mem b hy)
    exact ⟨(hn x hx hxz).trans hf.1, (hv y (List.mem_cons_of_mem b hy) hyb).trans hf.2⟩
  exact List.isChain_cons_cons.mpr ⟨⟨hnz, hvb⟩, hin⟩

lemma IsRing.next_of_append {l₁ l₂ : List α} {x y z : α}
    (h : IsRing next prev (some z) (l₁ ++ x :: y :: l₂)) :
    next x = some y ∧ prev y = some x := by
  have hc := h.chain
  rw [← List.cons_append] at hc
  exact (List.isChain_append_cons_cons.mp hc).2.1

/-- The nodes behind `x`, as far as the node `z` and at most `n` of them. -/
def collect [DecidableEq α] (next : α → Option α) (z : α) : Nat → α → List α
  | 0, _ => []
  | n + 1, x =>
    match next x with
    | none => []
    | some y => if y = z then [y] else y :: collect next z n y

/-- The nodes of the ring named by `tail`, at most `n` of them. -/
def ringList [DecidableEq α] (next : α → Option α) (n : Nat) (tail : Option α) : List α :=
  match tail with
  | none => []
  | some z => collect next z n z

lemma collect_eq [DecidableEq α] {m : List α} {x z : α} {n : Nat}
    (h : (x :: (m ++ [z])).IsChain (Follows next prev)) (hz : z ∉ m) (hn : m.length < n) :
    collect next z n x = m ++ [z] := by
  induction m generalizing x n with
  | nil =>
    obtain ⟨k, rfl⟩ := Nat.exists_eq_add_one_of_ne_zero (Nat.ne_of_gt hn)
    have hx := (List.isChain_cons_cons.mp h).1.1
    simp [collect, hx]
  | cons y m ih =>
    obtain ⟨k, rfl⟩ := Nat.exists_eq_add_one_of_ne_zero (Nat.ne_of_gt (Nat.zero_lt_of_lt hn))
    obtain ⟨hxy, hc⟩ := List.isChain_cons_cons.mp h
    simp only [List.mem_cons, not_or] at hz
    simp only [collect, hxy.1, if_neg (Ne.symm hz.1)]
    rw [ih hc hz.2 (by simpa using hn), List.cons_append]

lemma IsRing.ringList_eq [DecidableEq α] {n : Nat} (h : IsRing next prev tail l)
    (hn : l.length ≤ n) : ringList next n tail = l := by
  cases tail with
  | none => exact h.eq_nil.symm
  | some z =>
    obtain ⟨m, rfl⟩ := h.exists_snoc
    have hz : z ∉ m := by
      intro hm
      exact List.disjoint_of_nodup_append h.nodup hm (by simp)
    rw [List.length_append, List.length_singleton] at hn
    exact collect_eq h.chain hz hn

end Rings

end Linked
