import Kaya.Refine.Runs

/-!
# Every PCB is in one place

In runs without stale terminations each PCB is on the free list, in the ready queue, in the
queue of one semaphore or running, and the processes are counted. A stale termination frees
a process that stays in the ready queue.
-/

namespace Kaya

open Function Linked

/-- The links hold a free list, a ready queue and the queues of the active semaphores, and
each PCB is in exactly one of these or running. The PCBs that are not free are counted. -/
def EveryPcbInOnePlace (k : Kernel) : Prop :=
  ∃ (free ready : List PcbIx) (blocked : Addr → List PcbIx),
    IsQueue k.procs k.pcbListH free ∧ IsQueue k.procs k.readyQ ready ∧
    IsAsl k.procs k.asl blocked ∧
    (∀ p, ∃! home, p ∈ homeList free ready blocked k.currentProcess home) ∧
    k.processCount = (Finset.univ.filter fun p => p ∉ free).card

variable {m : Machine} {k k₀ : Kernel} {a : Nuc} {h : History}

lemma TreeShape.count_eq {free : List PcbIx} {tree : Forest PcbIx} {n : Int}
    (hs : TreeShape free tree n) : n = (Finset.univ.filter fun p => p ∉ free).card := by
  have heq : (Finset.univ.filter fun p => p ∉ free) = tree.nodes.toFinset := by
    ext p
    simp [hs.mem_iff]
  rw [hs.count, heq, List.toFinset_card_of_nodup hs.nodup]

lemma Rep.everyPcbInOnePlace (hr : Rep k a) (hi : a.Inv) : EveryPcbInOnePlace k := by
  obtain ⟨L, root, hh, -⟩ := hr
  obtain ⟨home, hp⟩ := hi.homes
  have hcount : k.processCount = a.processCount := by
    rw [hh.data]
    rfl
  refine ⟨a.free, a.ready, a.blocked, hh.lists.freeList, hh.lists.readyList, hh.lists.asl, ?_, ?_⟩
  · rw [hh.currentProcess]
    exact hp.existsUnique
  · rw [hcount]
    exact hi.shape.count_eq

/-- In every run without stale terminations, every state reached has each PCB in one place. -/
theorem every_pcb_in_one_place (hr : Reaches m (fun k e => ¬ KillsStale m k e) k₀ h k) :
    EveryPcbInOnePlace k := by
  obtain ⟨a, hrep, hg⟩ := hr.rep fun _ _ hs => hs
  exact hrep.everyPcbInOnePlace hg.inv

/-- A process makes a child and terminates with it. -/
theorem every_pcb_in_one_place_family : ∃ h k,
    Reaches demo (fun k e => ¬ KillsStale demo k e) blankKernel h k ∧ k.processCount = 0 ∧
      EveryPcbInOnePlace k := by
  obtain ⟨h, k, hr, hcount⟩ := exists_reaches (P := fun k e => ¬ KillsStale demo k e)
    demo blankKernel (fun k e => Deliverable demo k e ∧ Harmless demo k e)
    [sys 1 0x20030000 0 0, sys 2 0 0 0] (fun _ k => k.processCount = 0)
    (fun _ _ hok => ⟨hok.1, hok.2.not_killsStale⟩) (by decide +kernel)
  exact ⟨h, k, hr, of_decide_eq_true hcount, every_pcb_in_one_place hr⟩

/-- A parent waits for its child and the child for its parent, each with success, and the
parent terminates: the child is freed and runs on in the ready queue. -/
theorem stale_termination_breaks_places : ¬ ∀ (m : Machine) (k₀ : Kernel) (h : History)
    (k : Kernel), Reaches m (fun _ _ => True) k₀ h k → EveryPcbInOnePlace k := by
  intro hall
  obtain ⟨h, k, hr, hbad⟩ := exists_reaches (P := fun _ _ => True) demo blankKernel
    (Deliverable demo)
    [sys 1 0x20030000 0 0, sys 4 0x20040000 0 0, sys 3 0x20040000 0 0, sys 4 0x20040004 0 0,
      sys 3 0x20040004 0 0, sys 2 0 0 0]
    (fun _ k => k.processCount = 0 ∧ k.currentProcess = some 0)
    (fun _ _ hok => ⟨hok, trivial⟩) (by decide +kernel)
  obtain ⟨hcount, hcur⟩ := of_decide_eq_true hbad
  obtain ⟨free, ready, blocked, -, -, -, hone, hproc⟩ := hall demo blankKernel h k hr
  have hfree : (0 : PcbIx) ∈ free := by
    rw [hcount, eq_comm, Int.natCast_eq_zero, Finset.card_eq_zero,
      Finset.filter_eq_empty_iff] at hproc
    simpa using hproc (Finset.mem_univ 0)
  obtain ⟨home, -, huniq⟩ := hone 0
  have hfree₀ := huniq .free hfree
  have hrunning := huniq .running (by simp [homeList, hcur])
  cases hfree₀.trans hrunning.symm

end Kaya
