import Kaya.Lib.Admission

/-!
# Mutexes

A semaphore that starts at one. Its clients are those between a P and the matching V. They
stand in line: the first of them has the mutex and the others wait in the order in which they
came.
-/

namespace Linked

namespace Semaphore

variable {α : Type*} {s : Semaphore α} {l : List α} {inside inside' : α → Prop} {p q : α}

def mutex : Semaphore α := ⟨1, []⟩

/-- The clients are those of `l`, in this order. -/
structure Lined (s : Semaphore α) (l : List α) : Prop where
  nodup : l.Nodup
  value : s.value = 1 - l.length
  waiters : s.waiters = l.tail

/-- The clients are the ones inside. -/
def Guards (s : Semaphore α) (inside : α → Prop) : Prop := ∃ l, s.Lined l ∧ ∀ p, inside p ↔ p ∈ l

lemma lined_mutex : (mutex : Semaphore α).Lined [] := ⟨List.nodup_nil, rfl, rfl⟩

lemma lined_iff : s.Lined l ↔ s.Admits 1 l := by
  constructor
  · rintro ⟨hnd, hv, hw⟩
    exact ⟨hnd, by simpa using hv, by simpa using hw⟩
  · rintro ⟨hnd, hv, hw⟩
    exact ⟨hnd, by simpa using hv, by simpa using hw⟩

lemma Lined.passeren (h : s.Lined l) (hp : p ∉ l) : (s.passeren p).Lined (l ++ [p]) :=
  lined_iff.mpr ((lined_iff.mp h).passeren hp)

lemma Lined.verhogen (h : s.Lined (p :: l)) : s.verhogen.Lined l := by
  classical
  have hw : p ∉ s.waiters := by
    rw [h.waiters]
    exact (List.nodup_cons.mp h.nodup).1
  have hl := (lined_iff.mp h).verhogen List.mem_cons_self hw
  rw [List.erase_cons_head] at hl
  exact lined_iff.mpr hl

namespace Guards

lemma mutex : (Semaphore.mutex : Semaphore α).Guards fun _ => False := ⟨[], lined_mutex, by simp⟩

lemma congr (h : s.Guards inside) (he : ∀ p, inside' p ↔ inside p) : s.Guards inside' := by
  obtain ⟨l, hl, hi⟩ := h
  exact ⟨l, hl, fun p => (he p).trans (hi p)⟩

lemma passeren (h : s.Guards inside) (hp : ¬ inside p)
    (hi' : ∀ q, inside' q ↔ q = p ∨ inside q) : (s.passeren p).Guards inside' := by
  obtain ⟨l, hl, hi⟩ := h
  refine ⟨l ++ [p], hl.passeren fun hpl => hp ((hi p).mpr hpl), fun q => ?_⟩
  rw [hi' q, hi q, List.mem_append, List.mem_singleton, or_comm]

lemma exists_cons (h : s.Guards inside) (hp : inside p) (hw : p ∉ s.waiters) :
    ∃ l, s.Lined (p :: l) ∧ ∀ q, inside q ↔ q = p ∨ q ∈ l := by
  obtain ⟨l, hl, hi⟩ := h
  have hpl := (hi p).mp hp
  cases l with
  | nil => cases hpl
  | cons x xs =>
    have htail : s.waiters = xs := hl.waiters
    rw [htail] at hw
    obtain rfl : p = x := (List.mem_cons.mp hpl).resolve_right hw
    exact ⟨xs, hl, fun q => (hi q).trans List.mem_cons⟩

lemma verhogen (h : s.Guards inside) (hp : inside p) (hw : p ∉ s.waiters)
    (hi' : ∀ q, inside' q ↔ q ≠ p ∧ inside q) : s.verhogen.Guards inside' := by
  obtain ⟨l, hl, hi⟩ := h.exists_cons hp hw
  have hpl : p ∉ l := (List.nodup_cons.mp hl.nodup).1
  refine ⟨l, hl.verhogen, fun q => ?_⟩
  rw [hi' q, hi q]
  constructor
  · rintro ⟨hne, he | hql⟩
    · exact absurd he hne
    · exact hql
  · intro hql
    exact ⟨fun he => hpl (he ▸ hql), .inr hql⟩

/-- At most one client has the mutex. -/
lemma unique (h : s.Guards inside) (hp : inside p) (hwp : p ∉ s.waiters) (hq : inside q)
    (hwq : q ∉ s.waiters) : p = q := by
  obtain ⟨l, hl, hi⟩ := h.exists_cons hp hwp
  have htail : s.waiters = l := hl.waiters
  rw [htail] at hwq
  exact (((hi q).mp hq).resolve_right hwq).symm

lemma exists_first (h : s.Guards inside) (hp : inside p) : ∃ q, inside q ∧ q ∉ s.waiters := by
  obtain ⟨l, hl, hi⟩ := h
  cases l with
  | nil => exact absurd ((hi p).mp hp) List.not_mem_nil
  | cons x xs =>
    refine ⟨x, (hi x).mpr List.mem_cons_self, ?_⟩
    have htail : s.waiters = xs := hl.waiters
    rw [htail]
    exact (List.nodup_cons.mp hl.nodup).1

lemma waiters_eq_nil (h : s.Guards inside) (hone : ∀ q, inside q → q = p) : s.waiters = [] := by
  obtain ⟨l, hl, hi⟩ := h
  rw [hl.waiters]
  cases l with
  | nil => rfl
  | cons x xs =>
    refine List.eq_nil_iff_forall_not_mem.mpr fun y hy => ?_
    have hx := hone x ((hi x).mpr List.mem_cons_self)
    have hyp := hone y ((hi y).mpr (List.mem_cons_of_mem x hy))
    exact (List.nodup_cons.mp hl.nodup).1 (hx.trans hyp.symm ▸ hy)

lemma alone_of_passeren (h : s.Guards inside) (hp : ¬ inside p)
    (hw : p ∉ (s.passeren p).waiters) : ¬ inside q := by
  intro hq
  obtain ⟨r, hr, hwr⟩ := h.exists_first hq
  have hne : r ≠ p := fun he => hp (he ▸ hr)
  have hg : (s.passeren p).Guards fun q => q = p ∨ inside q := h.passeren hp fun _ => Iff.rfl
  have hwr' : r ∉ (s.passeren p).waiters := by
    intro hmem
    unfold Semaphore.passeren at hmem
    dsimp only at hmem
    split_ifs at hmem
    · rcases List.mem_append.mp hmem with hmem | hmem
      · exact hwr hmem
      · exact hne (List.mem_singleton.mp hmem)
    · exact hwr hmem
  exact hne (hg.unique (.inr hr) hwr' (.inl rfl) hw)

lemma of_mem_waiters (h : s.Guards inside) (hp : p ∈ s.waiters) : inside p := by
  obtain ⟨l, hl, hi⟩ := h
  rw [hl.waiters] at hp
  exact (hi p).mpr (List.mem_of_mem_tail hp)

lemma value_eq_one_iff (h : s.Guards inside) : s.value = 1 ↔ ∀ p, ¬ inside p := by
  obtain ⟨l, hl, hi⟩ := h
  rw [hl.value]
  constructor
  · intro hv p hp
    have hlen : l.length = 0 := by omega
    rw [List.length_eq_zero_iff.mp hlen] at hi
    exact List.not_mem_nil ((hi p).mp hp)
  · intro hn
    have hnil : l = [] := List.eq_nil_iff_forall_not_mem.mpr fun p hp => hn p ((hi p).mpr hp)
    simp [hnil]

lemma value_nonpos (h : s.Guards inside) (hp : inside p) : s.value ≤ 0 := by
  obtain ⟨l, hl, hi⟩ := h
  have hlen := List.length_pos_of_mem ((hi p).mp hp)
  rw [hl.value]
  omega

end Guards

/-- A client has gone away with the mutex, and all others wait for ever. -/
def Shut (s : Semaphore α) (inside : α → Prop) : Prop :=
  s.value ≤ 0 ∧ ∀ p, inside p → p ∈ s.waiters

/-- At most one of those inside does not wait. -/
def Excludes (s : Semaphore α) (inside : α → Prop) : Prop := s.Guards inside ∨ s.Shut inside

lemma mem_waiters_passeren (hq : q ∈ s.waiters) : q ∈ (s.passeren p).waiters := by
  unfold Semaphore.passeren
  dsimp only
  split_ifs
  · exact List.mem_append_left _ hq
  · exact hq

lemma of_mem_waiters_passeren (hq : q ∈ (s.passeren p).waiters) : q = p ∨ q ∈ s.waiters := by
  unfold Semaphore.passeren at hq
  dsimp only at hq
  split_ifs at hq
  · rcases List.mem_append.mp hq with hq | hq
    · exact .inr hq
    · exact .inl (List.mem_singleton.mp hq)
  · exact .inr hq

lemma of_mem_waiters_verhogen (hq : q ∈ s.verhogen.waiters) : q ∈ s.waiters := by
  unfold Semaphore.verhogen at hq
  dsimp only at hq
  split_ifs at hq
  · exact List.mem_of_mem_tail hq
  · exact hq

lemma mem_waiters_passeren_self (hv : s.value ≤ 0) : p ∈ (s.passeren p).waiters := by
  unfold Semaphore.passeren
  dsimp only
  rw [if_pos (by omega)]
  exact List.mem_append_right _ (List.mem_singleton_self p)

namespace Shut

lemma congr (h : s.Shut inside) (he : ∀ p, inside' p ↔ inside p) : s.Shut inside' :=
  ⟨h.1, fun p hp => h.2 p ((he p).mp hp)⟩

lemma passeren (h : s.Shut inside) (hi' : ∀ q, inside' q ↔ q = p ∨ inside q) :
    (s.passeren p).Shut inside' := by
  have hv := h.1
  refine ⟨?_, fun q hq => ?_⟩
  · change s.value - 1 ≤ 0
    omega
  · rcases (hi' q).mp hq with rfl | hq
    · exact mem_waiters_passeren_self hv
    · exact mem_waiters_passeren (h.2 q hq)

end Shut

namespace Excludes

lemma congr (h : s.Excludes inside) (he : ∀ p, inside' p ↔ inside p) : s.Excludes inside' :=
  h.imp (fun h => h.congr he) fun h => h.congr he

lemma passeren (h : s.Excludes inside) (hp : ¬ inside p)
    (hi' : ∀ q, inside' q ↔ q = p ∨ inside q) : (s.passeren p).Excludes inside' :=
  h.imp (fun h => h.passeren hp hi') fun h => h.passeren hi'

lemma verhogen (h : s.Excludes inside) (hp : inside p) (hw : p ∉ s.waiters)
    (hi' : ∀ q, inside' q ↔ q ≠ p ∧ inside q) : s.verhogen.Excludes inside' := by
  rcases h with h | h
  · exact .inl (h.verhogen hp hw hi')
  · exact absurd (h.2 p hp) hw

lemma unique (h : s.Excludes inside) (hp : inside p) (hwp : p ∉ s.waiters) (hq : inside q)
    (hwq : q ∉ s.waiters) : p = q := by
  rcases h with h | h
  · exact h.unique hp hwp hq hwq
  · exact absurd (h.2 p hp) hwp

lemma leave (h : s.Excludes inside) (hp : inside p) (hw : p ∉ s.waiters)
    (hi' : ∀ q, inside' q → q ≠ p ∧ inside q) : s.Shut inside' := by
  refine ⟨?_, fun q hq => ?_⟩
  · rcases h with h | h
    · exact h.value_nonpos hp
    · exact h.1
  · obtain ⟨hne, hin⟩ := hi' q hq
    by_contra hn
    exact hne (h.unique hin hn hp hw)

lemma not_inside (h : s.Excludes inside) (hv : s.value = 1) (p : α) : ¬ inside p := by
  rcases h with h | h
  · exact h.value_eq_one_iff.mp hv p
  · have hle := h.1
    omega

end Excludes

end Semaphore

end Linked
