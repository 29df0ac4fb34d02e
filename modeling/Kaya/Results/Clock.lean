import Kaya.Refine.Runs

/-!
# The pseudo-clock

In runs without a V on its semaphore and without stale terminations a tick of the clock
wakes everybody who waits for it, and SYS7 waits for the tick.
-/

namespace Kaya

open Function Linked

variable {m : Machine} {k k' k₀ : Kernel} {a a' : Nuc} {e : Event} {h : History} {p : PcbIx}

/-- As long as nobody V's it, the semaphore of the clock counts its waiters. -/
lemma Reaches.clockSem {P : Kernel → Event → Prop} (hr : Reaches m P k₀ h k)
    (hP : ∀ k e, P k e → ¬ KillsStale m k e ∧ ¬ IsVerhogen m.clock e) :
    ∃ a, Rep k a ∧ a.Good ∧ (a.clockSem m).Counts := by
  refine hr.induct (I := fun _ a => (a.clockSem m).Counts) (fun k e hp => (hP k e hp).1)
    (boot_clockSem m k₀) ?_
  intro h k e k' a a' hcount hrep hg hd hp _ hstep _ _
  have hrun : Nuc.FromProcess e → a.cpu.IsRunning := fun he => hrep.cpu_eq ▸ hd.running he
  exact Nuc.clockSem_step_counts hg hrun (hrep.safe hg.inv (hP k e hp).1) hstep (hP k e hp).2
    hd.ne_write_clock hcount

/-- The interval timer interrupts in `k`: every process that waits for the clock goes to the
end of the ready queue, in the order in which they have waited. -/
def WakesEverybody (m : Machine) (k : Kernel) : Prop :=
  ∀ st, determineLine st.sCause = some itLine → ∃ k₁ k₂,
    itInterruptHandler m { k with oldArea := update k.oldArea .interrupt st } = some k₁ ∧
    exitInterruptHandler m k₁ = some k₂ ∧ step m k (.interrupt st) = some k₂ ∧
    k₁.readyPcbs = k.readyPcbs ++ k.waiters m.clock ∧
    k₁.softBlockCount = k.softBlockCount - (k.waiters m.clock).length ∧
    k₁.waiters m.clock = [] ∧ k₁.mem m.clock = 0

/-- SYS7 blocks the caller, which then waits for the clock until the next tick or its end. -/
def BlocksUntilTick (m : Machine) (P : Kernel → Event → Prop) (k : Kernel) : Prop :=
  ∀ e p, IsWaitForClock e → Deliverable m k e → k.currentProcess = some p →
    ∃ k₁, step m k e = some k₁ ∧ ∀ h k₂,
      Run (step m) (fun k e => Deliverable m k e ∧ P k e ∧ ¬ IsTick e) k₁ h k₂ →
      p ∈ k₂.waiters m.clock ∨ ∃ t ∈ h, p ∈ t.1.waiters m.clock ∧ p ∈ t.2.2.freePcbs

lemma Rep.wakesEverybody (hrep : Rep k a) (hcount : (a.clockSem m).Counts) :
    WakesEverybody m k := by
  intro st hst
  have hwait := hrep.waiters_eq m.clock_ne_null
  have hready := hrep.readyPcbs_eq
  have hsoft := hrep.softBlockCount_eq
  obtain ⟨L, root, hh, ht⟩ := hrep
  have hsim := itInterruptHandler_sim (m := m) (hh.setOldArea (update k.oldArea .interrupt st))
  rw [Nuc.itInterrupt_eq (a := { a with oldArea := update k.oldArea .interrupt st }) hcount] at hsim
  obtain ⟨k₁, hk₁, h₁⟩ := rel_some hsim
  obtain ⟨k₂, hk₂, -⟩ := rel_some (exitInterruptHandler_sim (m := m) h₁)
  have hstep : step m k (.interrupt st) = some k₂ := by
    unfold step interruptHandler
    dsimp only
    rw [update_self, hst]
    simp only [Option.bind_eq_bind, Option.bind_some, if_neg (show itLine ≠ pltLine by decide),
      if_true]
    rw [hk₁, Option.bind_some, hk₂]
  have hrep₁ : Rep k₁ _ := ⟨L, root, h₁, ht⟩
  refine ⟨k₁, k₂, hk₁, hk₂, hstep, ?_, ?_, ?_, ?_⟩
  · rw [hrep₁.readyPcbs_eq, hready, hwait]
  · rw [hrep₁.softBlockCount_eq, hsoft, hwait]
  · rw [hrep₁.waiters_eq m.clock_ne_null]
    exact update_self ..
  · rw [hrep₁.mem_eq]
    exact update_self ..

lemma Rep.blocksUntilTick {P : Kernel → Event → Prop} (hrep : Rep k a) (hg : a.Good)
    (hcount : (a.clockSem m).Counts)
    (hP : ∀ k e, P k e → ¬ KillsStale m k e ∧ ¬ IsVerhogen m.clock e) :
    BlocksUntilTick m P k := by
  intro e p he hd hc
  rw [hrep.currentProcess_eq] at hc
  have hsafe : a.Safe m e := fun q _ hdies => absurd hdies he.not_dies
  have hrun : Nuc.FromProcess e → a.cpu.IsRunning := fun hp => hrep.cpu_eq ▸ hd.running hp
  obtain ⟨a₁, ha₁⟩ := Nuc.step_waitForClock hc he hcount
  have hsim := step_sim hrep hg.inv hsafe
  rw [ha₁] at hsim
  obtain ⟨k₁, hk₁, hrep₁⟩ := rel_some hsim
  have hg₁ := Nuc.step_good hg hrun hsafe ha₁
  have hv : ¬ IsVerhogen m.clock e := by
    cases e with
    | syscall st =>
      intro h
      exact absurd (h.2.1.symm.trans he.2) (by decide)
    | _ => exact id
  have htick : ¬ IsTick e := by
    cases e with
    | syscall st => exact id
    | _ => exact he.elim
  have hw := fun v => hd.ne_write_clock v
  have hdead : a.dead m e = [] := Nuc.dead_of_not_dies fun _ _ => he.not_dies
  have hp : p ∈ a₁.blocked m.clock := by
    rcases Nuc.clockSem_step hg hrun hsafe ha₁ hv hw hcount with ⟨h, -⟩ | ⟨-, x, -, -, hmem, hs⟩
    · exact absurd h htick
    · rw [hdead, Semaphore.withdraw_nil] at hs
      change p ∈ (a₁.clockSem m).waiters
      rw [hs]
      exact hmem he p hc
  refine ⟨k₁, hk₁, fun h k₂ hr => ?_⟩
  have hend : ∃ a, Rep k₂ a ∧ a.Good ∧ (a.clockSem m).Counts ∧ (p ∈ a.blocked m.clock ∨
      ∃ t ∈ h, p ∈ t.1.waiters m.clock ∧ p ∈ t.2.2.freePcbs) := by
    refine hrep₁.run (I := fun h a => (a.clockSem m).Counts ∧ (p ∈ a.blocked m.clock ∨
      ∃ t ∈ h, p ∈ t.1.waiters m.clock ∧ p ∈ t.2.2.freePcbs)) hg₁ hr
      (fun k e hp => (hP k e hp.1).1)
      ⟨Nuc.clockSem_step_counts hg hrun hsafe ha₁ hv hw hcount, .inl hp⟩ ?_
    rintro h k e k' a a' ⟨hcount, hp⟩ hrep hg hd ⟨hPe, htick⟩ - hstep hrep' -
    have hrun : Nuc.FromProcess e → a.cpu.IsRunning := fun hp => hrep.cpu_eq ▸ hd.running hp
    have hsafe := hrep.safe hg.inv (hP k e hPe).1
    have hv := (hP k e hPe).2
    have hw := fun v => hd.ne_write_clock v
    refine ⟨Nuc.clockSem_step_counts hg hrun hsafe hstep hv hw hcount, ?_⟩
    rcases hp with hp | ⟨t, ht, hp⟩
    · rcases Nuc.clockSem_step hg hrun hsafe hstep hv hw hcount with
        ⟨h, -⟩ | ⟨-, x, -, hmem, -, hs⟩
      · exact absurd h htick
      by_cases hdead : p ∈ a.dead m e
      · refine .inr ⟨(k, e, k'), by simp, ?_, ?_⟩
        · rwa [hrep.waiters_eq m.clock_ne_null]
        · rw [hrep'.freePcbs_eq]
          exact (Nuc.mem_free_step hg hrun hsafe hstep p).2 hdead
      · left
        change p ∈ (a'.clockSem m).waiters
        rw [hs]
        simpa [Semaphore.withdraw, hdead] using hmem p hp
    · exact .inr ⟨t, List.mem_append_left _ ht, hp⟩
  obtain ⟨a₂, hrep₂, -, -, hp₂⟩ := hend
  rwa [hrep₂.waiters_eq m.clock_ne_null]

/-- In every run without stale terminations and without a V on the semaphore of the clock,
every state reached has a tick that wakes everybody and a SYS7 that waits for it. -/
theorem clock_wakes_everybody (hr : Reaches m (fun k e => ¬ KillsStale m k e ∧
    ¬ IsVerhogen m.clock e) k₀ h k) :
    WakesEverybody m k ∧
      BlocksUntilTick m (fun k e => ¬ KillsStale m k e ∧ ¬ IsVerhogen m.clock e) k := by
  obtain ⟨a, hrep, hg, hcount⟩ := hr.clockSem fun _ _ hP => hP
  exact ⟨hrep.wakesEverybody hcount, hrep.blocksUntilTick hg hcount fun _ _ hP => hP⟩

/-- The two children of the initial process wait for the clock, and then it does so itself. -/
theorem clock_wakes_everybody_family : ∃ h k, Reaches demo (fun k e => ¬ KillsStale demo k e ∧
    ¬ IsVerhogen demo.clock e) blankKernel h k ∧ k.waiters demo.clock = [1, 2, 0] ∧
    WakesEverybody demo k ∧
      BlocksUntilTick demo (fun k e => ¬ KillsStale demo k e ∧ ¬ IsVerhogen demo.clock e) k := by
  obtain ⟨h, k, hr, hw⟩ := exists_reaches
    (P := fun k e => ¬ KillsStale demo k e ∧ ¬ IsVerhogen demo.clock e) demo blankKernel
    (fun k e => Deliverable demo k e ∧ Harmless demo k e ∧ ¬ IsVerhogen demo.clock e)
    [sys 1 0x20030000 0 0, sys 1 0x20030000 0 0, irq 0x200, sys 7 0 0 0, sys 7 0 0 0, sys 7 0 0 0]
    (fun _ k => k.waiters demo.clock = [1, 2, 0])
    (fun _ _ hok => ⟨hok.1, hok.2.1.not_killsStale, hok.2.2⟩) (by decide +kernel)
  exact ⟨h, k, hr, of_decide_eq_true hw, clock_wakes_everybody hr⟩

lemma itInterruptHandler_of_zero (hk : k.mem m.clock = 0) :
    itInterruptHandler m k = some (ldit m intervalTime (k.store m.clock 0)) := by
  have hloop : itLoop m.clock ((-k.mem m.clock).toNat + 1) k = some k := by
    rw [itLoop, hk]
    simp
  unfold itInterruptHandler
  change (itLoop m.clock ((-k.mem m.clock).toNat + 1) k).bind _ = _
  rw [hloop]
  rfl

/-- The initial process, its child and that one's child wait for the clock. When it has woken
them, the first waits again and the second terminates with the third, which is ready. This
raises the semaphore, and the next tick does not wake the initial process. -/
theorem stale_termination_stops_clock : ¬ ∀ (m : Machine) (k₀ : Kernel) (h : History)
    (k : Kernel), Reaches m (fun _ _ => True) k₀ h k →
    WakesEverybody m k ∧ BlocksUntilTick m (fun _ _ => True) k := by
  intro hall
  obtain ⟨h, k, hr, hq⟩ := exists_reaches (P := fun _ _ => True) demo blankKernel
    (Deliverable demo)
    [sys 1 0x20030000 0 0, sys 7 0 0 0, sys 1 0x20030000 0 0, sys 7 0 0 0, sys 7 0 0 0,
      irq 0x400, sys 7 0 0 0, sys 2 0 0 0]
    (fun _ k => k.waiters demo.clock = [0] ∧ k.mem demo.clock = 0)
    (fun _ _ hok => ⟨hok, trivial⟩) (by decide +kernel)
  obtain ⟨hwait, hmem⟩ := of_decide_eq_true hq
  obtain ⟨k₁, -, hk₁, -, -, -, -, hnone, -⟩ := (hall demo blankKernel h k hr).1
    { zeroState with sCause := 0x400 } (by decide)
  obtain rfl := Option.some.inj (hk₁.symm.trans (itInterruptHandler_of_zero hmem))
  exact absurd (hwait.symm.trans hnone) (by decide)

end Kaya
