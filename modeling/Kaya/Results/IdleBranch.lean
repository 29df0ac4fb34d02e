import Kaya.Refine.Idle

/-!
# Interrupts in the idle branch

As long as the interrupts that come in the idle branch leave it as it is, the nucleus with the
branch taken apart does what the nucleus with the branch in one go does.
-/

namespace Kaya

open Function Linked

/-- The nucleus with its idle branch taken apart, started by `main` on the memory `k₀`, comes
to the moment `w`. -/
def ReachesMoment (m : Machine) (P : Moment → Act → Prop) (k₀ : Kernel)
    (h : List (Moment × Act × Moment)) (w : Moment) : Prop :=
  ∃ k₁, main m k₀ = some k₁ ∧
    Run (Moment.step m) (fun w act => w.Deliverable m act ∧ P w act) ⟨k₁, none⟩ h w

/-- The event is no stale termination. -/
def NotStale (m : Machine) (w : Moment) : Act → Prop
  | .statement => True
  | .event e => ¬ KillsStale m w.kernel e

/-- The state in which a handler ends. -/
def Outcome.kernel : Outcome → Kernel
  | .calls k => k
  | .done k => k

/-- Nobody is forgotten in the idle branch, and nobody who is gone is dealt with. -/
structure Sound (m : Machine) (P : Moment → Act → Prop) (w : Moment) : Prop where
  /-- `WAIT` is executed with nobody ready -/
  waits : w.stage = some .timed → w.kernel.readyPcbs = []
  /-- an interrupt in the branch has a handler that neither inserts nor charges `NULL` or a free
  PCB -/
  handles : ∀ e, IsInterrupt e → w.kernel.cpu = .waiting idleStatus →
    w.Deliverable m (.event e) → P w (.event e) → ∃ o, ToScheduler.step m w.kernel e = some o ∧
      (∀ p ∈ o.kernel.readyPcbs, p ∉ o.kernel.freePcbs) ∧
        ∀ p ∈ w.kernel.freePcbs, o.kernel.procs.pTotalTime p = w.kernel.procs.pTotalTime p

variable {m : Machine} {k k₀ : Kernel} {e : Event} {h : List (Moment × Act × Moment)} {w : Moment}

lemma KillsStale.currentProcess (h : KillsStale m k e) : k.currentProcess ≠ none := by
  obtain ⟨p, hc, -⟩ := h
  simp [hc]

lemma Reaches.balanced {h : History} (hr : Reaches m (fun k e => ¬ KillsStale m k e) k₀ h k) :
    ∃ a, Rep k a ∧ a.Good ∧ (a.clockSem m).Balanced := by
  refine hr.induct (I := fun _ a => (a.clockSem m).Balanced) (fun _ _ hs => hs)
    (boot_clockSem m k₀).balanced ?_
  intro h k e k' a a' hbal hrep hg hd hs _ hstep _ _
  have hrun : Nuc.FromProcess e → a.cpu.IsRunning := fun he => hrep.cpu_eq ▸ hd.running he
  exact Nuc.clockSem_step_balanced hg hrun (hrep.safe hg.inv hs) hstep hd.ne_write_clock hbal

/-- A run of the nucleus with the idle branch taken apart is one of the nucleus. -/
theorem ReachesMoment.whole
    (hr : ReachesMoment m (fun w act => NotStale m w act ∧ Settled m w act) k₀ h w) :
    w.Calm ∧ ∃ h', Reaches m (fun k e => ¬ KillsStale m k e) k₀ h' w.whole := by
  obtain ⟨k₁, hmain, hrun⟩ := hr
  induction hrun with
  | nil => exact ⟨.outside rfl, [], k₁, hmain, .nil⟩
  | @snoc h w w' act hrun hok hstep ih =>
    obtain ⟨hd, hstale, hs⟩ := hok
    obtain ⟨hcalm, h', hreach⟩ := ih
    cases act with
    | statement =>
      obtain ⟨hcalm', hwhole⟩ := hcalm.statement hstep
      rw [hwhole]
      exact ⟨hcalm', h', hreach⟩
    | event e =>
      obtain ⟨a, hrep, hg⟩ := hreach.rep fun _ _ hs => hs
      obtain ⟨hmap, hcalm'⟩ := hcalm.event hrep hd hs
      rw [hstep] at hmap
      have hstale' : ¬ KillsStale m w.whole e := by
        by_cases hstage : w.stage = none
        · rw [Moment.whole_of_none hstage]
          exact hstale
        · intro hk
          rw [Moment.whole_of_stage hstage] at hk
          exact hk.currentProcess rfl
      obtain ⟨k₂, hmain₂, hrun₂⟩ := hreach
      refine ⟨hcalm' w' hstep, _, k₂, hmain₂, hrun₂.snoc ⟨?_, hstale'⟩ hmap.symm⟩
      exact Moment.Deliverable.whole hd hs

lemma Outcome.kernel_exitInterruptHandler (k : Kernel) :
    (ToScheduler.exitInterruptHandler k).kernel.readyPcbs = k.readyPcbs ∧
      (ToScheduler.exitInterruptHandler k).kernel.freePcbs = k.freePcbs ∧
        (ToScheduler.exitInterruptHandler k).kernel.procs = k.procs := by
  unfold ToScheduler.exitInterruptHandler
  split <;> exact ⟨rfl, rfl, rfl⟩

lemma Moment.exists_settle (w : Moment) : ∃ c t, w.whole = w.kernel.settle c t := by
  unfold whole
  split
  · exact ⟨_, _, rfl⟩
  · exact ⟨_, _, rfl⟩

lemma Cpu.Takes.ne_pltLine {lineNum : Nat} (h : (Cpu.waiting idleStatus).Takes lineNum) :
    lineNum ≠ pltLine := by
  rcases h with h | h
  · exact h
  · exact absurd h (by decide)

lemma Rep.pTotalTime_eq {a : Nuc} (hrep : Rep k a) : k.procs.pTotalTime = a.pTotalTime := by
  rw [hrep.data_eq]
  rfl

lemma Moment.handles {a : Nuc} (hrep : Rep w.whole a) (hg : a.Good)
    (hbal : (a.clockSem m).Balanced) (he : IsInterrupt e)
    (hcpu : w.kernel.cpu = .waiting idleStatus)
    (hd : w.Deliverable m (.event e)) (hs : Settled m w (.event e)) :
    ∃ o, ToScheduler.step m w.kernel e = some o ∧
      (∀ p ∈ o.kernel.readyPcbs, p ∉ o.kernel.freePcbs) ∧
        ∀ p ∈ w.kernel.freePcbs, o.kernel.procs.pTotalTime p = w.kernel.procs.pTotalTime p := by
  cases e with
  | interrupt st =>
    obtain ⟨lineNum, hl, hpos, htakes, hdev⟩ := Deliverable.whole hd hs
    obtain ⟨c, t, hwhole⟩ := w.exists_settle
    rw [hwhole] at hrep htakes hdev
    have hplt : lineNum ≠ pltLine := by
      apply Cpu.Takes.ne_pltLine
      rw [← hcpu]
      exact htakes
    obtain ⟨k', a', hserve, hrep', hinv, htime⟩ := serveLine_sim hrep hg.inv hbal hl hpos hplt hdev
    have hsettle := serveLine_settle (m := m) c t lineNum
      { w.kernel with oldArea := update w.kernel.oldArea .interrupt st }
    obtain ⟨k, hk, rfl⟩ := Option.map_eq_some_iff.mp (hsettle.symm.trans hserve)
    obtain ⟨hready, hfree, hprocs⟩ := Outcome.kernel_exitInterruptHandler k
    refine ⟨ToScheduler.exitInterruptHandler k, ?_, ?_, ?_⟩
    · rw [ToScheduler.step_line hl hplt, hk]
      rfl
    · intro p hp
      rw [hready, show k.readyPcbs = a'.ready from hrep'.readyPcbs_eq] at hp
      rw [hfree, show k.freePcbs = a'.free from hrep'.freePcbs_eq]
      exact hinv.mem_listAt_ne (i := .ready) (j := .free) hp (by simp)
    · intro p _
      rw [hprocs, show k.procs.pTotalTime = a'.pTotalTime from hrep'.pTotalTime_eq, htime,
        show w.kernel.procs.pTotalTime = a.pTotalTime from hrep.pTotalTime_eq]
  | _ => exact he.elim

instance (m : Machine) (w : Moment) (act : Act) : Decidable (w.Deliverable m act) := by
  cases act with
  | statement => exact inferInstanceAs (Decidable (w.stage ≠ none))
  | event e => exact inferInstanceAs (Decidable (_ ∨ _))

/-- Finding a moment by evaluation. -/
lemma exists_reachesMoment {P : Moment → Act → Prop} (m : Machine) (k₀ : Kernel)
    (ok : Moment → Act → Prop) [∀ w act, Decidable (ok w act)] (acts : List Act)
    (q : List (Moment × Act × Moment) → Moment → Bool)
    (hok : ∀ w act, ok w act → w.Deliverable m act ∧ P w act)
    (hq : ((main m k₀).any fun k₁ =>
      (trace (Moment.step m) ok acts ⟨k₁, none⟩).any fun r => q r.1 r.2) = true) :
    ∃ h w, ReachesMoment m P k₀ h w ∧ q h w = true := by
  obtain ⟨k₁, hmain, hq⟩ := (Option.any_eq_true _ _).mp hq
  obtain ⟨⟨h, w⟩, ht, hq⟩ := (Option.any_eq_true _ _).mp hq
  exact ⟨h, w, ⟨k₁, hmain, (trace_run ht).mono hok⟩, hq⟩

/-- The local timer does not interrupt, and nothing does while a process is current that is gone. -/
def Undisturbed (m : Machine) (w : Moment) : Act → Prop
  | .statement => True
  | .event e => Harmless m w.kernel e ∧ ¬ IsPreemption e ∧
      (w.stage = none ∨ w.kernel.currentProcess = none)

instance (m : Machine) (w : Moment) (act : Act) : Decidable (Undisturbed m w act) := by
  cases act with
  | statement => exact .isTrue trivial
  | event e => exact inferInstanceAs (Decidable (_ ∧ _ ∧ _))

lemma Undisturbed.settled {act : Act} (h : Undisturbed m w act) :
    NotStale m w act ∧ Settled m w act := by
  cases act with
  | statement => exact ⟨trivial, trivial⟩
  | event e =>
    obtain ⟨hharmless, hpreemption, hcurrent⟩ := h
    exact ⟨hharmless.not_killsStale, fun hn => ⟨hpreemption, fun hc =>
      absurd (hcurrent.resolve_left hn) hc⟩⟩

end Kaya
