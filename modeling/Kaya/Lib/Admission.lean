import Kaya.Lib.Semaphore

/-!
# Admission by a counting semaphore

A semaphore that starts at `c`. Its clients are those between a P and the matching V, in the
order in which they came: the first `c` of them are inside and the others wait.
-/

namespace Linked

namespace Semaphore

variable {α : Type*} {s : Semaphore α} {l : List α} {c : Nat} {p : α}

/-- The clients are those of `l`, and `c` of them are admitted. -/
structure Admits (c : Nat) (l : List α) (s : Semaphore α) : Prop where
  nodup : l.Nodup
  value : s.value = c - l.length
  waiters : s.waiters = l.drop c

lemma admits_nil (c : Nat) : Admits c [] (⟨c, []⟩ : Semaphore α) :=
  ⟨List.nodup_nil, by simp, by simp⟩

namespace Admits

lemma not_mem_waiters (h : s.Admits c l) (hp : p ∈ l.take c) : p ∉ s.waiters := by
  rw [h.waiters]
  exact fun hd => List.disjoint_take_drop h.nodup le_rfl hp hd

lemma mem_take (h : s.Admits c l) (hp : p ∈ l) (hw : p ∉ s.waiters) : p ∈ l.take c := by
  rw [h.waiters] at hw
  rw [← List.take_append_drop c l, List.mem_append] at hp
  exact hp.resolve_right hw

lemma passeren (h : s.Admits c l) (hp : p ∉ l) : (s.passeren p).Admits c (l ++ [p]) := by
  unfold Semaphore.passeren
  refine ⟨?_, ?_, ?_⟩
  · exact h.nodup.append (List.nodup_singleton p) (by simpa using hp)
  · rw [h.value, List.length_append, List.length_singleton]
    push_cast
    omega
  · dsimp only
    rw [h.value, h.waiters]
    split_ifs with hneg
    · rw [List.drop_append_of_le_length (by omega)]
    · rw [List.drop_eq_nil_of_le (by omega), List.drop_eq_nil_of_le]
      rw [List.length_append, List.length_singleton]
      omega

section

variable [DecidableEq α]

lemma verhogen (h : s.Admits c l) (hp : p ∈ l) (hw : p ∉ s.waiters) :
    s.verhogen.Admits c (l.erase p) := by
  have hin := h.mem_take hp hw
  have hpos : 0 < l.length := List.length_pos_of_mem hp
  have hlen := List.length_erase_of_mem hp
  have herase : l.erase p = (l.take c).erase p ++ l.drop c := by
    conv_lhs => rw [← List.take_append_drop c l]
    exact List.erase_append_left _ hin
  unfold Semaphore.verhogen
  refine ⟨h.nodup.erase p, ?_, ?_⟩
  · dsimp only
    rw [h.value, hlen]
    omega
  · dsimp only
    rw [h.value, h.waiters]
    split_ifs with hle
    · have htake : ((l.take c).erase p).length = c - 1 := by
        rw [List.length_erase_of_mem hin, List.length_take]
        omega
      have hnil : ((l.take c).erase p).drop c = [] := List.drop_eq_nil_of_le (by omega)
      have hc : 0 < c := (List.length_pos_of_mem hin).trans_le (List.length_take_le c l)
      rw [herase, List.drop_append, hnil, List.nil_append, htake,
        show c - (c - 1) = 1 by omega, List.drop_one]
    · have hnil : l.drop c = [] := List.drop_eq_nil_of_le (by omega)
      have hnil' : (l.erase p).drop c = [] := List.drop_eq_nil_of_le (by omega)
      rw [hnil, hnil']

lemma withdraw {dead : List α} (h : s.Admits c l) (hd : ∀ p ∈ l, p ∈ dead → p ∈ s.waiters) :
    (s.withdraw dead).Admits c (l.filter (· ∉ dead)) := by
  have hinside : (l.take c).filter (· ∉ dead) = l.take c := by
    rw [List.filter_eq_self]
    intro p hp
    simpa using fun hdead => h.not_mem_waiters hp (hd p (List.mem_of_mem_take hp) hdead)
  have hline : l.filter (· ∉ dead) = l.take c ++ (l.drop c).filter (· ∉ dead) := by
    conv_lhs => rw [← List.take_append_drop c l]
    rw [List.filter_append, hinside]
  have hcount : ((l.drop c).filter (· ∉ dead)).length + (l.drop c).countP (· ∈ dead) =
      l.length - c := by
    have hsum := List.length_eq_countP_add_countP (l := l.drop c) (· ∈ dead)
    rw [List.length_drop] at hsum
    rw [← List.countP_eq_length_filter, hsum, add_comm]
    simp
  unfold Semaphore.withdraw
  refine ⟨h.nodup.filter _, ?_, ?_⟩
  · rw [h.value, h.waiters, hline, List.length_append, List.length_take]
    push_cast
    omega
  · dsimp only
    rw [h.waiters, hline]
    by_cases hc : c ≤ l.length
    · have htake : (l.take c).length = c := by
        rw [List.length_take]
        omega
      rw [List.drop_append, htake, List.drop_eq_nil_of_le htake.le]
      simp
    · have hdrop : l.drop c = [] := List.drop_eq_nil_of_le (by omega)
      rw [hdrop]
      simp

lemma inside (h : s.Admits c l) : l.filter (· ∉ s.waiters) = l.take c := by
  have hin : (l.take c).filter (· ∉ s.waiters) = l.take c := by
    rw [List.filter_eq_self]
    intro p hp
    simpa using h.not_mem_waiters hp
  have hout : (l.drop c).filter (· ∉ s.waiters) = [] := by
    rw [List.filter_eq_nil_iff, h.waiters]
    intro p hp
    simpa using hp
  conv_lhs => rw [← List.take_append_drop c l]
  rw [List.filter_append, hin, hout, List.append_nil]

end

end Admits

end Semaphore

end Linked
