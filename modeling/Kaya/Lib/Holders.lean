import Kaya.Lib.Mutex

/-!
# Several mutexes

A step leaves all the mutexes alone, or one client does a P or a V on one of them. The clients of
a mutex are then at any time those that have done one more P than V on it.
-/

namespace Linked

open Function

variable {α μ : Type*} [DecidableEq μ] {acts : α → Prop} {sem sem' : μ → Semaphore α}
  {inside inside' : α → μ → Prop} {p : α} {m : μ}

/-- What a step of the client that `acts` does to the mutexes and their clients. -/
inductive Locking (acts : α → Prop) (sem : μ → Semaphore α) (inside inside' : α → μ → Prop) :
    (μ → Semaphore α) → Prop
  | keep (hinside : ∀ q m, inside' q m ↔ inside q m) : Locking acts sem inside inside' sem
  | passeren (p : α) (m : μ) (hp : acts p) (hout : ¬ inside p m)
      (hinside : ∀ q m', inside' q m' ↔ q = p ∧ m' = m ∨ inside q m') :
      Locking acts sem inside inside' (update sem m ((sem m).passeren p))
  | verhogen (p : α) (m : μ) (hp : acts p) (hin : inside p m) (hw : p ∉ (sem m).waiters)
      (hinside : ∀ q m', inside' q m' ↔ ¬ (q = p ∧ m' = m) ∧ inside q m') :
      Locking acts sem inside inside' (update sem m (sem m).verhogen)

namespace Locking

lemma keeps {R : Semaphore α → (α → Prop) → Prop}
    (hcongr : ∀ {s i j}, R s i → (∀ p, j p ↔ i p) → R s j)
    (hpasseren : ∀ {s i j p}, R s i → ¬ i p → (∀ q, j q ↔ q = p ∨ i q) → R (s.passeren p) j)
    (hverhogen : ∀ {s i j p}, R s i → i p → p ∉ s.waiters → (∀ q, j q ↔ q ≠ p ∧ i q) →
      R s.verhogen j)
    (hl : Locking acts sem inside inside' sem') (m : μ) (h : R (sem m) fun p => inside p m) :
    R (sem' m) fun p => inside' p m := by
  cases hl with
  | keep hinside => exact hcongr h fun q => hinside q m
  | passeren p m₀ hp hout hinside =>
    by_cases hm : m = m₀
    · subst hm
      rw [update_self]
      apply hpasseren h hout
      intro q
      simp [hinside]
    · rw [update_of_ne hm]
      apply hcongr h
      intro q
      simp [hinside, hm]
  | verhogen p m₀ hp hin hw hinside =>
    by_cases hm : m = m₀
    · subst hm
      rw [update_self]
      apply hverhogen h hin hw
      intro q
      simp [hinside]
    · rw [update_of_ne hm]
      apply hcongr h
      intro q
      simp [hinside, hm]

lemma guards (hl : Locking acts sem inside inside' sem') (m : μ)
    (h : (sem m).Guards fun p => inside p m) : (sem' m).Guards fun p => inside' p m :=
  hl.keeps (R := Semaphore.Guards) .congr .passeren .verhogen m h

lemma excludes (hl : Locking acts sem inside inside' sem') (m : μ)
    (h : (sem m).Excludes fun p => inside p m) : (sem' m).Excludes fun p => inside' p m :=
  hl.keeps (R := Semaphore.Excludes) .congr .passeren .verhogen m h

lemma shut (hl : Locking acts sem inside inside' sem') (m : μ)
    (h : (sem m).Shut fun p => inside p m) : (sem' m).Shut fun p => inside' p m :=
  hl.keeps (R := Semaphore.Shut) .congr (fun h _ => h.passeren)
    (fun h hp hw _ => absurd (h.2 _ hp) hw) m h

lemma balance [DecidablePred acts] [∀ p m, Decidable (inside p m)]
    [∀ p m, Decidable (inside' p m)] (hl : Locking acts sem inside inside' sem')
    (hone : ∀ {p q}, acts p → acts q → p = q) (p : α) (m : μ) :
    (if acts p ∧ (sem' m).value < (sem m).value then 1 else 0) + (if inside p m then 1 else 0) =
      (if acts p ∧ (sem m).value < (sem' m).value then 1 else 0) +
        if inside' p m then 1 else 0 := by
  cases hl with
  | keep hinside => simp [hinside]
  | passeren p₀ m₀ hp hout hinside =>
    by_cases hm : m = m₀
    · subst hm
      rw [update_self]
      by_cases hpp : p = p₀
      · subst hpp
        simp [hp, hout, hinside, Semaphore.passeren]
      · have hn : ¬ acts p := fun h => hpp (hone h hp)
        simp [hn, hpp, hinside]
    · rw [update_of_ne hm]
      simp [hm, hinside]
  | verhogen p₀ m₀ hp hin hw hinside =>
    by_cases hm : m = m₀
    · subst hm
      rw [update_self]
      by_cases hpp : p = p₀
      · subst hpp
        simp [hp, hin, hinside, Semaphore.verhogen]
      · have hn : ¬ acts p := fun h => hpp (hone h hp)
        simp [hn, hpp, hinside]
    · rw [update_of_ne hm]
      simp [hm, hinside]

end Locking

end Linked
