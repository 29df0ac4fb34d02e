import Kaya.Abstract.Access

/-!
# The semaphore of the clock

The value of the semaphore of the pseudo-clock does nothing but count the processes that wait
for it, as long as nobody V's it. Every step keeps this.
-/

namespace Kaya

open Function Linked

/-- `&semaphoreArray[ITSEMINDEX]` -/
def Machine.clock (m : Machine) : Addr := m.semAddr itSemIndex

variable {m : Machine} {a a' : Nuc} {e : Event} {p : PcbIx}

lemma Machine.clock_ne_null (m : Machine) : m.clock ≠ null := (m.aligned_semAddr itSemIndex).ne_null

namespace Nuc

/-- The semaphore of the clock. -/
def clockSem (m : Machine) (a : Nuc) : Semaphore PcbIx := a.books.sem m.clock

lemma not_isDeviceDone_clock {bus : Bus} : ¬ IsDeviceDone m bus m.clock e := by
  intro h
  obtain ⟨i, hi, he⟩ := h.isDeviceSem
  have hi' := m.semAddr_inj (by decide) (by omega) he
  subst hi'
  exact absurd hi (by decide)

lemma clockSem_step (hg : a.Good) (hrun : FromProcess e → a.cpu.IsRunning)
    (hsafe : a.Safe m e) (hstep : a.step m e = some a') (hv : ¬ IsVerhogen m.clock e)
    (hw : ∀ v, e ≠ .writeInt m.clock v) (hcount : (a.clockSem m).Counts) :
    (IsTick e ∧ a'.clockSem m = ⟨0, []⟩) ∨
    (¬ IsTick e ∧ ∃ x : Semaphore PcbIx, x.Counts ∧ (∀ q ∈ a.blocked m.clock, q ∈ x.waiters) ∧
      (IsWaitForClock e → ∀ p, a.currentProcess = some p → p ∈ x.waiters) ∧
      a'.clockSem m = x.withdraw (a.dead m e)) := by
  obtain ⟨x, hx, hsem⟩ := sem_step hg hrun hsafe hstep m.clock
  unfold bereaved at hsem
  rw [if_neg (show ¬ m.IsDeviceSem m.clock from Machine.not_isDeviceSem_clock)] at hsem
  change a'.clockSem m = _ at hsem
  cases hx with
  | verhogen h => exact absurd h hv
  | deviceDone h => exact absurd h not_isDeviceDone_clock
  | passeren p hc h =>
    have htick : ¬ IsTick e := by
      rcases h with h | ⟨h, -⟩ | h <;> cases e <;> first | exact id | exact h.elim
    have hwait := hcount.waiters_passeren p
    refine .inr ⟨htick, _, hcount.passeren p, ?_, ?_, hsem⟩
    · intro q hq
      rw [hwait]
      exact List.mem_append_left _ hq
    · intro _ q hq
      obtain rfl := Option.some.inj (hc.symm.trans hq)
      rw [hwait]
      exact List.mem_append_right _ (List.mem_singleton_self p)
  | tick h _ =>
    have hdead : a.dead m e = [] := by
      apply dead_of_not_dies
      intro _ _
      cases e <;> first | exact id | exact h.elim
    have hval : a.mem m.clock = -(a.blocked m.clock).length := hcount
    rw [hdead, Semaphore.withdraw_nil, hval] at hsem
    refine .inl ⟨h, ?_⟩
    simpa using hsem
  | write v h => exact absurd h (hw v)
  | idle _ _ _ hc _ ht _ =>
    refine .inr ⟨fun h => ht h rfl, _, hcount, fun q hq => hq, ?_, hsem⟩
    exact fun h => absurd rfl (hc h)

lemma clockSem_step_counts (hg : a.Good) (hrun : FromProcess e → a.cpu.IsRunning)
    (hsafe : a.Safe m e) (hstep : a.step m e = some a') (hv : ¬ IsVerhogen m.clock e)
    (hw : ∀ v, e ≠ .writeInt m.clock v) (hcount : (a.clockSem m).Counts) :
    (a'.clockSem m).Counts := by
  rcases clockSem_step hg hrun hsafe hstep hv hw hcount with ⟨-, hs⟩ | ⟨-, x, hx, -, -, hs⟩
  · rw [hs]
    rfl
  · rw [hs]
    exact hx.withdraw _

lemma itInterrupt_eq (hcount : (a.clockSem m).Counts) :
    a.itInterrupt m = some { a with
      ready := a.ready ++ a.blocked m.clock
      blocked := update a.blocked m.clock []
      softBlockCount := a.softBlockCount - (a.blocked m.clock).length
      mem := update a.mem m.clock 0
      intervalTimer := intervalTime * m.timescale } := by
  have hval : a.mem m.clock = -(a.blocked m.clock).length := hcount
  have hn : (-a.mem m.clock).toNat = (a.blocked m.clock).length := by omega
  unfold itInterrupt
  change (if (-a.mem m.clock).toNat ≤ (a.blocked m.clock).length then some _ else none) = _
  rw [if_pos hn.le]
  change some { a with
    ready := a.ready ++ (a.blocked m.clock).take (-a.mem m.clock).toNat
    blocked := update a.blocked m.clock ((a.blocked m.clock).drop (-a.mem m.clock).toNat)
    softBlockCount := a.softBlockCount - (-a.mem m.clock).toNat
    mem := update a.mem m.clock 0
    intervalTimer := intervalTime * m.timescale } = _
  rw [hn, List.take_length, List.drop_length]

lemma step_waitForClock (hc : a.currentProcess = some p) (he : IsWaitForClock e)
    (hcount : (a.clockSem m).Counts) : ∃ a', a.step m e = some a' := by
  have hval : a.mem m.clock = -(a.blocked m.clock).length := hcount
  cases e with
  | syscall st =>
    obtain ⟨hcall, h7⟩ := he
    unfold step syscallHandler
    dsimp only
    rw [update_self, if_neg hcall]
    unfold service
    rw [h7, if_neg (by decide), if_neg (by decide), if_neg (by decide), if_neg (by decide),
      if_neg (by decide), if_neg (by decide), if_pos rfl]
    unfold waitForClock passeren
    rw [if_pos (m.aligned_semAddr itSemIndex)]
    have hneg : a.mem (m.semAddr itSemIndex) - 1 < 0 := by
      change a.mem m.clock - 1 < 0
      omega
    simp [store, hneg, hc]
  | _ => exact he.elim

end Nuc

end Kaya
