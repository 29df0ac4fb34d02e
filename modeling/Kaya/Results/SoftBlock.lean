import Kaya.Abstract.SoftBlock
import Kaya.Abstract.Resume
import Kaya.Refine.Runs

/-!
# The soft-block count and deadlock

In runs in which nobody dies who waits for the clock `softBlockCount` is the number of
processes blocked on an element of `semaphoreArray`, and the scheduler panics exactly when
there are none.
-/

namespace Kaya

open Function Linked

variable {m : Machine} {k k' k₀ : Kernel} {a a' : Nuc} {e : Event} {h : History} {p : PcbIx}

/-- The live processes blocked on an element of `semaphoreArray`. -/
def Kernel.softBlocked (m : Machine) (k : Kernel) : Finset PcbIx :=
  Finset.univ.filter fun q => q ∉ k.freePcbs ∧ ∃ i < semCount, q ∈ k.waiters (m.semAddr i)

def SoftCountRight (m : Machine) (k : Kernel) : Prop :=
  k.softBlockCount = (k.softBlocked m).card

/-- With processes left but none ready the scheduler has chosen to wait exactly when a process
waits for a device or the clock, and to panic exactly when none does. -/
def DetectsDeadlock (m : Machine) (k : Kernel) : Prop :=
  k.currentProcess = none → k.readyPcbs = [] ∧
    (0 < k.processCount → ((∃ status, k.cpu = .waiting status) ↔ (k.softBlocked m).Nonempty) ∧
      (k.cpu = .panicked ↔ k.softBlocked m = ∅))

/-- The event terminates the running process while one below it waits for the clock. -/
def KillsClockWaiter (m : Machine) (k : Kernel) (e : Event) : Prop :=
  ∃ p, k.currentProcess = some p ∧ Dies m k.mem (k.procs.oldAreas p) (k.procs.newAreas p) e ∧
    ∃ q, k.procs.tree.Below p q ∧ q ∈ k.waiters m.clock

/-- SYS3 and SYS4 name no element of `semaphoreArray`. -/
def LeavesArray (m : Machine) (e : Event) : Prop :=
  ∀ i < semCount, ¬ IsVerhogen (m.semAddr i) e ∧ ¬ IsPasseren (m.semAddr i) e

instance (m : Machine) (e : Event) : Decidable (LeavesArray m e) :=
  inferInstanceAs (Decidable (∀ i < semCount, _))

lemma Rep.softBlocked_eq (hr : Rep k a) (hi : a.Inv) :
    k.softBlocked m = a.books.softBlocked m := by
  have hw : ∀ i, k.waiters (m.semAddr i) = a.blocked (m.semAddr i) := fun i =>
    hr.waiters_eq (m.aligned_semAddr i).ne_null
  ext q
  unfold Kernel.softBlocked Books.softBlocked
  rw [Finset.mem_filter, Books.mem_waitersBelow, hr.freePcbs_eq]
  simp only [Finset.mem_univ, true_and, hw]
  constructor
  · exact fun h => h.2
  · rintro ⟨i, hlt, hq⟩
    refine ⟨?_, i, hlt, hq⟩
    exact hi.mem_listAt_ne (i := .blocked (m.semAddr i)) (j := .free) hq (by simp)

lemma Rep.not_dead_clock (hr : Rep k a) (hi : a.Inv) (hk : ¬ KillsClockWaiter m k e) :
    ∀ q ∈ a.dead m e, q ∉ a.blocked m.clock := by
  intro q hq hw
  cases hc : a.currentProcess with
  | none =>
    rw [Nuc.dead_of_not_dies (by simp [hc])] at hq
    cases hq
  | some p =>
    rw [Nuc.dead_of_current hc] at hq
    unfold Nuc.deaths at hq
    split_ifs at hq with hd
    · unfold Nuc.family at hq
      rw [List.mem_append, List.mem_singleton] at hq
      rcases hq with hq | rfl
      · have hnode := (Forest.postorder_perm_nodes _).mem_iff.mp hq
        exact hk ⟨p, hr.currentProcess_eq.trans hc, (hr.dies_iff p).mp hd, q, hr.below hi hc hnode,
          (hr.waiters_eq m.clock_ne_null).symm ▸ hw⟩
      · exact (hi.homeless hc).blocked m.clock hw
    · cases hq

lemma Rep.softCountRight (hr : Rep k a) (hi : a.Inv) (hs : a.books.SoftRight m) :
    SoftCountRight m k := by
  unfold SoftCountRight
  rw [hr.softBlocked_eq hi, hr.softBlockCount_eq]
  exact hs

lemma Rep.detectsDeadlock (hr : Rep k a) (hi : a.Inv) (hs : a.books.SoftRight m)
    (hset : a.Settled) : DetectsDeadlock m k := by
  intro hc
  rw [hr.currentProcess_eq] at hc
  obtain ⟨hready, hcpu⟩ := hset hc
  refine ⟨hr.readyPcbs_eq.trans hready, fun hpos => ?_⟩
  rw [hr.processCount_eq] at hpos
  have hcpu := hcpu (by omega)
  have hcount : a.softBlockCount = (a.books.softBlocked m).card := hs
  rw [hr.cpu_eq, hr.softBlocked_eq hi]
  by_cases h0 : a.softBlockCount = 0
  · rw [if_pos h0] at hcpu
    have hempty : a.books.softBlocked m = ∅ := by
      rw [← Finset.card_eq_zero]
      omega
    simp [hcpu, hempty]
  · rw [if_neg h0] at hcpu
    obtain ⟨status, hcpu⟩ := hcpu
    have hne : (a.books.softBlocked m).Nonempty := by
      rw [← Finset.card_pos]
      omega
    simp [hcpu, hne, hne.ne_empty]

lemma boot_softRight (m : Machine) (k : Kernel) : (Nuc.boot m k).books.SoftRight m := by
  have hb : (Nuc.boot m k).books = (Nuc.initial m k).books := Nuc.dispatch_books
  rw [hb]
  have hnone : (Nuc.initial m k).books.softBlocked m = ∅ := by
    ext q
    unfold Books.softBlocked
    rw [Books.mem_waitersBelow]
    simp [Nuc.initial, Nuc.books]
  unfold Books.SoftRight
  rw [hnone]
  rfl

lemma boot_settled (m : Machine) (k : Kernel) : (Nuc.boot m k).Settled := by
  intro hc
  cases hc

/-- In every run without stale terminations, in which nobody dies who waits for the clock, SYS8
names an element of `semaphoreArray` and SYS3 and SYS4 leave it alone, `softBlockCount` and the
verdict of the scheduler are right in every state reached. -/
theorem soft_block_count (hr : Reaches m (fun k e => (¬ KillsStale m k e ∧
    ¬ KillsClockWaiter m k e ∧ NamesDevice m e) ∧ LeavesArray m e) k₀ h k) :
    SoftCountRight m k ∧ DetectsDeadlock m k := by
  have hend : ∃ a, Rep k a ∧ a.Good ∧ (a.clockSem m).Counts ∧ a.books.SoftRight m ∧ a.Settled := by
    refine hr.induct (I := fun _ a => (a.clockSem m).Counts ∧ a.books.SoftRight m ∧ a.Settled)
      (fun _ _ hP => hP.1.1) ⟨boot_clockSem m k₀, boot_softRight m k₀, boot_settled m k₀⟩ ?_
    rintro h k e k' a a' ⟨hcount, hsoft, hset⟩ hrep hg hd ⟨⟨hstale, hclock, hin⟩, hout⟩ - hstep
      - -
    have hrun : Nuc.FromProcess e → a.cpu.IsRunning := fun he => hrep.cpu_eq ▸ hd.running he
    have hsafe := hrep.safe hg.inv hstale
    refine ⟨?_, ?_, Nuc.step_settled hg hrun hstep hset⟩
    · exact Nuc.clockSem_step_counts hg hrun hsafe hstep
        (hout _ (show itSemIndex < semCount by decide)).1
        hd.ne_write_clock hcount
    · exact Nuc.softRight_step hg hrun hsafe hstep hcount
        (fun s ⟨i, hi, hs⟩ => hs ▸ hout i hi) hin
        (hrep.not_dead_clock hg.inv hclock) hsoft
  obtain ⟨a, hrep, hg, -, hsoft, hset⟩ := hend
  exact ⟨hrep.softCountRight hg.inv hsoft, hrep.detectsDeadlock hg.inv hsoft hset⟩

/-- The initial process waits for the clock, its child on a semaphore of its own. -/
theorem soft_block_count_wait : ∃ h k, Reaches demo (fun k e => (¬ KillsStale demo k e ∧
    ¬ KillsClockWaiter demo k e ∧ NamesDevice demo e) ∧ LeavesArray demo e) blankKernel h k ∧
    k.currentProcess = none ∧ k.processCount = 2 ∧ k.softBlockCount = 1 ∧
    SoftCountRight demo k ∧ DetectsDeadlock demo k := by
  obtain ⟨h, k, hr, hw⟩ := exists_reaches
    (P := fun k e => (¬ KillsStale demo k e ∧ ¬ KillsClockWaiter demo k e ∧ NamesDevice demo e) ∧
      LeavesArray demo e) demo blankKernel
    (fun k e => Deliverable demo k e ∧ Lives demo k e ∧ NamesDevice demo e ∧ LeavesArray demo e)
    [sys 1 0x20030000 0 0, sys 7 0 0 0, sys 4 0x20040000 0 0]
    (fun _ k => k.currentProcess = none ∧ k.processCount = 2 ∧ k.softBlockCount = 1)
    (fun _ _ hok => ⟨hok.1, ⟨fun ⟨p, hc, hd, _⟩ => hok.2.1 p hc hd,
      fun ⟨p, hc, hd, _⟩ => hok.2.1 p hc hd, hok.2.2.1⟩, hok.2.2.2⟩) (by decide +kernel)
  obtain ⟨hc, hcount, hsoft⟩ := of_decide_eq_true hw
  exact ⟨h, k, hr, hc, hcount, hsoft, soft_block_count hr⟩

/-- A child of the initial process terminates with its own child, which waits for the clock. The
initial process, alone and blocked, waits for an interrupt that wakes nobody. -/
theorem lost_clock_waiter_hides_deadlock : ¬ ∀ (m : Machine) (k₀ : Kernel) (h : History)
    (k : Kernel), Reaches m (fun _ e => LeavesArray m e) k₀ h k →
    SoftCountRight m k ∧ DetectsDeadlock m k := by
  intro hall
  obtain ⟨h, k, hr, hq⟩ := exists_reaches (P := fun _ e => LeavesArray demo e) demo blankKernel
    (fun k e => Deliverable demo k e ∧ LeavesArray demo e)
    [sys 1 0x20030000 0 0, sys 4 0x20040000 0 0, sys 1 0x20030000 0 0, sys 4 0x20040010 0 0,
      sys 3 0x20040010 0 0, sys 7 0 0 0, sys 2 0 0 0]
    (fun _ k => k.currentProcess = none ∧ 0 < k.processCount ∧ k.cpu ≠ .panicked ∧
      ∀ i < semCount, k.waiters (demo.semAddr i) = [])
    (fun _ _ hok => hok) (by decide +kernel)
  obtain ⟨hc, hpos, hcpu, hnone⟩ := of_decide_eq_true hq
  have hempty : k.softBlocked demo = ∅ := by
    unfold Kernel.softBlocked
    rw [Finset.filter_eq_empty_iff]
    rintro q - ⟨-, i, hi, hq⟩
    rw [hnone i hi] at hq
    cases hq
  exact hcpu ((((hall demo blankKernel h k hr).2 hc).2 hpos).2.mpr hempty)

end Kaya
