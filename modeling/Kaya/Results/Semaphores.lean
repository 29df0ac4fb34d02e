import Kaya.Refine.Runs

/-!
# Semaphore accounting

A semaphore outside `semaphoreArray` that processes access with SYS3 and SYS4 only has its
initial value, plus the V's, minus the P's, plus the processes killed while they waited on
it, and as many processes wait on it as its value is below zero.
-/

namespace Kaya

open Function Linked

/-- The V's on `s` in a run. -/
def History.verhogens (h : History) (s : Addr) : Nat := h.countP fun t => IsVerhogen s t.2.1

/-- The P's on `s` in a run. -/
def History.passerens (h : History) (s : Addr) : Nat := h.countP fun t => IsPasseren s t.2.1

/-- The processes that wait on `s` in `k` and are free in `k'`. -/
def killedOn (s : Addr) (k k' : Kernel) : Nat := (k.waiters s).countP (· ∈ k'.freePcbs)

/-- The processes killed in a run while they waited on `s`. -/
def History.killed (h : History) (s : Addr) : Nat := (h.map fun t => killedOn s t.1 t.2.2).sum

/-- Nothing but SYS3 and SYS4 accesses the semaphore. -/
def LeavesToCalls (m : Machine) (s : Addr) (e : Event) : Prop :=
  (∀ v, e ≠ .writeInt s v) ∧ ¬ IsWaitForIo m s e

variable {m : Machine} {k k' k₀ k₁ : Kernel} {a a' : Nuc} {e : Event} {h h₀ : History} {s : Addr}

lemma IsVerhogen.lt_intMax {bus : Bus} {mem : Addr → Int} (h : IsVerhogen s e)
    (hr : InRange m bus mem e) : mem s < intMax := by
  cases e with
  | syscall st =>
    obtain ⟨hcall, h3, rfl⟩ := h
    exact (hr hcall).1 h3
  | _ => exact h.elim

lemma IsPasseren.intMin_lt {bus : Bus} {mem : Addr → Int} (h : IsPasseren s e)
    (hr : InRange m bus mem e) : intMin < mem s := by
  cases e with
  | syscall st =>
    obtain ⟨hcall, h4, rfl⟩ := h
    exact (hr hcall).2.1 h4
  | _ => exact h.elim

lemma Nuc.sem_step_outside (hg : a.Good) (hrun : FromProcess e → a.cpu.IsRunning)
    (hsafe : a.Safe m e) (hstep : a.step m e = some a') (hal : Aligned s)
    (hs : ¬ m.InSemaphoreArray s) (hw : LeavesToCalls m s e) :
    (IsVerhogen s e ∧ a.dead m e = [] ∧ a'.books.sem s = (a.books.sem s).verhogen) ∨
    (IsPasseren s e ∧ a.dead m e = [] ∧ ∃ p, a'.books.sem s = (a.books.sem s).passeren p) ∨
    (¬ IsVerhogen s e ∧ ¬ IsPasseren s e ∧
      a'.books.sem s = (a.books.sem s).withdraw (a.dead m e)) := by
  have hdev : ¬ m.IsDeviceSem s := fun hd => hs (hd.inSemaphoreArray hal)
  obtain ⟨x, hx, hsem⟩ := sem_step hg hrun hsafe hstep s
  unfold bereaved at hsem
  rw [if_neg hdev] at hsem
  cases hx with
  | verhogen h =>
    have hd : a.dead m e = [] := dead_of_not_dies fun _ _ => h.not_dies
    rw [hd, Semaphore.withdraw_nil] at hsem
    exact .inl ⟨h, hd, hsem⟩
  | deviceDone h =>
    obtain ⟨i, hi, rfl⟩ := h.isDeviceSem
    exact absurd ⟨i, by omega, rfl⟩ hs
  | passeren p hc h =>
    rcases h with h | ⟨-, rfl⟩ | h
    · have hd : a.dead m e = [] := dead_of_not_dies fun _ _ => h.not_dies
      rw [hd, Semaphore.withdraw_nil] at hsem
      exact .inr (.inl ⟨h, hd, p, hsem⟩)
    · exact absurd m.inSemaphoreArray_clock hs
    · exact absurd h hw.2
  | tick h he => exact absurd (he ▸ m.inSemaphoreArray_clock) hs
  | write v h => exact absurd h (hw.1 v)
  | idle hv hd hp hc hi ht hw => exact .inr (.inr ⟨hv, hp, hsem⟩)

lemma History.verhogens_snoc (h : History) (k : Kernel) (e : Event) (k' : Kernel) (s : Addr) :
    History.verhogens (h ++ [(k, e, k')]) s =
      h.verhogens s + if IsVerhogen s e then 1 else 0 := by
  simp [History.verhogens, List.countP_append, List.countP_cons]

lemma History.passerens_snoc (h : History) (k : Kernel) (e : Event) (k' : Kernel) (s : Addr) :
    History.passerens (h ++ [(k, e, k')]) s =
      h.passerens s + if IsPasseren s e then 1 else 0 := by
  simp [History.passerens, List.countP_append, List.countP_cons]

lemma History.killed_snoc (h : History) (k : Kernel) (e : Event) (k' : Kernel) (s : Addr) :
    History.killed (h ++ [(k, e, k')]) s = h.killed s + killedOn s k k' := by
  simp [History.killed]

lemma IsVerhogen.not_isPasseren (h : IsVerhogen s e) : ¬ IsPasseren s e := by
  cases e with
  | syscall st =>
    intro hp
    have h34 := h.2.1.symm.trans hp.2.1
    exact absurd h34 (by decide)
  | _ => exact h.elim

/-- The values and the waiters of a semaphore stay within an `int`. -/
lemma inRange_withdraw {σ : Semaphore PcbIx} (hσ : σ.Balanced) (l : List PcbIx)
    (h : intMin ≤ σ.value ∧ σ.value ≤ intMax) :
    intMin ≤ (σ.withdraw l).value ∧ (σ.withdraw l).value ≤ intMax := by
  have hlen : σ.waiters.length = (-σ.value).toNat := hσ
  have hle := List.countP_le_length (p := fun q => decide (q ∈ l)) (l := σ.waiters)
  change intMin ≤ σ.value + _ ∧ σ.value + _ ≤ intMax
  unfold intMin intMax at *
  omega

/-- In every run without stale terminations, from a state where nobody waits on the semaphore and
its value is not below zero, value and waiters are accounted for, as long as no step takes an
`int` past its ends. -/
theorem semaphore_accounting (hr : Reaches m (fun k e => ¬ KillsStale m k e ∧
      InRange m k.bus k.mem e) k₀ h₀ k₁)
    (hal : Aligned s) (hs : ¬ m.InSemaphoreArray s) (hv : 0 ≤ k₁.mem s ∧ k₁.mem s ≤ intMax)
    (hq : k₁.waiters s = [])
    (hrun : Run (step m) (fun k e => Deliverable m k e ∧ (¬ KillsStale m k e ∧
      InRange m k.bus k.mem e) ∧ LeavesToCalls m s e) k₁ h k) :
    k.mem s = k₁.mem s + h.verhogens s - h.passerens s + h.killed s ∧
      ((k.waiters s).length : Int) = max 0 (-k.mem s) ∧ intMin ≤ k.mem s ∧ k.mem s ≤ intMax := by
  obtain ⟨a₁, hrep₁, hg₁⟩ := hr.rep fun _ _ hn => hn.1
  rw [hrep₁.waiters_eq hal.ne_null] at hq
  have hm₁ := hrep₁.mem_eq
  have hend : ∃ a, Rep k a ∧ a.Good ∧
      a.mem s = k₁.mem s + h.verhogens s - h.passerens s + h.killed s ∧
        (a.books.sem s).Balanced ∧ intMin ≤ a.mem s ∧ a.mem s ≤ intMax := by
    refine hrep₁.run (I := fun h a =>
      a.mem s = k₁.mem s + h.verhogens s - h.passerens s + h.killed s ∧
        (a.books.sem s).Balanced ∧ intMin ≤ a.mem s ∧ a.mem s ≤ intMax) hg₁ hrun
        (fun _ _ hP => hP.1.1) ?_ ?_
    · refine ⟨?_, ?_, ?_⟩
      · simp [History.verhogens, History.passerens, History.killed, hm₁]
      · have hb : (a₁.blocked s).length = (-a₁.mem s).toNat := by
          rw [hq, ← hm₁]
          simp only [List.length_nil]
          omega
        exact hb
      · rw [← hm₁]
        unfold intMin
        exact ⟨by omega, hv.2⟩
    · rintro h k e k' a a' ⟨hmem, hbal, hint⟩ hrep hg hd ⟨⟨hstale, hrange⟩, hw⟩ - hstep hrep' -
      have hrun : Nuc.FromProcess e → a.cpu.IsRunning := fun hp => hrep.cpu_eq ▸ hd.running hp
      have hsafe := hrep.safe hg.inv hstale
      have hkilled : killedOn s k k' = (a.blocked s).countP (· ∈ a.dead m e) := by
        unfold killedOn
        rw [hrep.waiters_eq hal.ne_null, hrep'.freePcbs_eq,
          Nuc.countP_free_step hg hrun hsafe hstep]
      rw [History.verhogens_snoc, History.passerens_snoc, History.killed_snoc, hkilled]
      have hval : a'.mem s = (a'.books.sem s).value := rfl
      rw [hrep.mem_eq] at hrange
      rcases Nuc.sem_step_outside hg hrun hsafe hstep hal hs hw with
        ⟨he, hdead, hsem⟩ | ⟨he, hdead, p, hsem⟩ | ⟨hev, hep, hsem⟩
      · have hmax := he.lt_intMax hrange
        rw [hval, hsem, hdead, if_pos he, if_neg he.not_isPasseren]
        refine ⟨?_, hbal.verhogen, ?_⟩
        · change a.mem s + 1 = _
          simp
          omega
        · change _ ≤ a.mem s + 1 ∧ a.mem s + 1 ≤ _
          omega
      · have hmin := he.intMin_lt hrange
        rw [hval, hsem, hdead, if_pos he, if_neg fun hv => hv.not_isPasseren he]
        refine ⟨?_, hbal.passeren p, ?_⟩
        · change a.mem s - 1 = _
          simp
          omega
        · change _ ≤ a.mem s - 1 ∧ a.mem s - 1 ≤ _
          omega
      · rw [hval, hsem, if_neg hev, if_neg hep]
        refine ⟨?_, hbal.withdraw _, inRange_withdraw hbal _ hint⟩
        change a.mem s + (a.blocked s).countP _ = _
        push_cast
        omega
  obtain ⟨a, hrep, hg, hmem, hbal, hint⟩ := hend
  have hmem' := hrep.mem_eq
  have hb : (a.blocked s).length = (-a.mem s).toNat := hbal
  rw [hrep.waiters_eq hal.ne_null, hmem', hb, hmem]
  refine ⟨rfl, ?_, hmem ▸ hint⟩
  omega

/-- The events of the runs below. -/
def IsSyscall : Event → Prop
  | .syscall _ => True
  | _ => False

instance (e : Event) : Decidable (IsSyscall e) :=
  match e with
  | .syscall _ => .isTrue trivial
  | .programTrap _ | .tlbManagement _ | .interrupt _ | .device _ | .writeInt _ _
  | .writeState _ _ => .isFalse id

lemma IsSyscall.leavesToCalls (h : IsSyscall e) (hio : ¬ IsWaitForIo m s e) :
    LeavesToCalls m s e := by
  refine ⟨?_, hio⟩
  rintro v rfl
  exact h

/-- A child waits on the semaphore when its parent terminates. -/
theorem semaphore_accounting_family : ∃ (k₁ : Kernel) (h : History) (k : Kernel),
    Reaches demo (fun k e => ¬ KillsStale demo k e ∧ InRange demo k.bus k.mem e) blankKernel []
      k₁ ∧
    Run (step demo) (fun k e => Deliverable demo k e ∧ (¬ KillsStale demo k e ∧
      InRange demo k.bus k.mem e) ∧ LeavesToCalls demo 0x20040000 e) k₁ h k ∧
    h.killed 0x20040000 = 1 ∧
    k.mem 0x20040000 = k₁.mem 0x20040000 + h.verhogens 0x20040000 - h.passerens 0x20040000 +
      h.killed 0x20040000 ∧
    ((k.waiters 0x20040000).length : Int) = max 0 (-k.mem 0x20040000) ∧
    intMin ≤ k.mem 0x20040000 ∧ k.mem 0x20040000 ≤ intMax := by
  obtain ⟨h, k, ⟨k₁, hmain, hrun⟩, hq⟩ := exists_reaches
    (P := fun k e => (¬ KillsStale demo k e ∧ InRange demo k.bus k.mem e) ∧
      LeavesToCalls demo 0x20040000 e) demo blankKernel
    (fun k e => Deliverable demo k e ∧ (Harmless demo k e ∧ InRange demo k.bus k.mem e) ∧
      IsSyscall e ∧ ¬ IsWaitForIo demo 0x20040000 e)
    [sys 1 0x20030000 0 0, sys 4 0x20040004 0 0, sys 3 0x20040004 0 0, sys 4 0x20040000 0 0,
      sys 2 0 0 0] (fun h _ => h.killed 0x20040000 = 1)
    (fun _ _ hok => ⟨hok.1, ⟨hok.2.1.1.not_killsStale, hok.2.1.2⟩,
      hok.2.2.1.leavesToCalls hok.2.2.2⟩) (by decide +kernel)
  have hboot : ((main demo blankKernel).all fun k =>
      0 ≤ k.mem 0x20040000 ∧ k.mem 0x20040000 ≤ intMax ∧ k.waiters 0x20040000 = []) = true := by
    decide +kernel
  rw [hmain] at hboot
  obtain ⟨hv, hmax, hw⟩ := of_decide_eq_true hboot
  have hr : Reaches demo (fun k e => ¬ KillsStale demo k e ∧ InRange demo k.bus k.mem e)
    blankKernel [] k₁ := ⟨k₁, hmain, .nil⟩
  exact ⟨k₁, h, k, hr, hrun, of_decide_eq_true hq,
    semaphore_accounting hr (by decide) (by decide) ⟨hv, hmax⟩ hw hrun⟩

/-- A child that has waited on the semaphore and been let through is ready when its parent
terminates: the semaphore is raised once more. -/
theorem stale_termination_raises_semaphore : ¬ ∀ (m : Machine) (k₀ k₁ k : Kernel)
    (h₀ h : History) (s : Addr), Reaches m (fun _ _ => True) k₀ h₀ k₁ → Aligned s →
    ¬ m.InSemaphoreArray s → 0 ≤ k₁.mem s → k₁.waiters s = [] →
    Run (step m) (fun k e => Deliverable m k e ∧ LeavesToCalls m s e) k₁ h k →
    k.mem s = k₁.mem s + h.verhogens s - h.passerens s + h.killed s ∧
      ((k.waiters s).length : Int) = max 0 (-k.mem s) := by
  intro hall
  obtain ⟨h, k, ⟨k₁, hmain, hrun⟩, hq⟩ := exists_reaches
    (P := fun _ e => LeavesToCalls demo 0x20040004 e) demo blankKernel
    (fun k e => Deliverable demo k e ∧ IsSyscall e ∧ ¬ IsWaitForIo demo 0x20040004 e)
    [sys 1 0x20030000 0 0, sys 4 0x20040000 0 0, sys 3 0x20040000 0 0, sys 4 0x20040004 0 0,
      sys 3 0x20040004 0 0, sys 2 0 0 0]
    (fun h k => k.mem 0x20040004 = 1 ∧ h.verhogens 0x20040004 = 1 ∧
      h.passerens 0x20040004 = 1 ∧ h.killed 0x20040004 = 0)
    (fun _ _ hok => ⟨hok.1, hok.2.1.leavesToCalls hok.2.2⟩) (by decide +kernel)
  have hboot : ((main demo blankKernel).all fun k =>
      k.mem 0x20040004 = 0 ∧ k.waiters 0x20040004 = []) = true := by decide +kernel
  rw [hmain] at hboot
  obtain ⟨hv, hw⟩ := of_decide_eq_true hboot
  obtain ⟨hmem, hvs, hps, hks⟩ := of_decide_eq_true hq
  obtain ⟨heq, -⟩ := hall demo blankKernel k₁ k [] h 0x20040004 ⟨k₁, hmain, .nil⟩ (by decide)
    (by decide) (by rw [hv]) hw hrun
  rw [hmem, hv, hvs, hps, hks] at heq
  exact absurd heq (by decide)

end Kaya
