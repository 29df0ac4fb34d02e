import Kaya.Abstract.SemAdd
import Kaya.Results.LifeCycle

/-!
# Stale terminations

`p_semAdd` of a process that goes on after a wait still has the address of the semaphore. So the
terminations that look for a ready process in the queue of a semaphore are those of an ancestor
of a ready process that has ever waited.
-/

namespace Kaya

open Function Linked

/-- Whether a process has waited since it was created, after one more transition. -/
def waitedAfter (m : Machine) (w : PcbIx → Bool) : Kernel × Event × Kernel → PcbIx → Bool
  | (k, e, _), q =>
    if IsCreate e ∧ k.freePcbs.head? = some q then false
    else w q || decide (Blocks m k.mem e ∧ k.currentProcess = some q)

/-- The process has waited since it was created. -/
def History.HasWaited (m : Machine) (h : History) (q : PcbIx) : Prop :=
  h.foldl (waitedAfter m) (fun _ => false) q = true

instance (m : Machine) (h : History) (q : PcbIx) : Decidable (h.HasWaited m q) :=
  inferInstanceAs (Decidable (_ = true))

variable {m : Machine} {k k' k₀ : Kernel} {a a' : Nuc} {e : Event} {h : History} {q : PcbIx}

lemma hasWaited_snoc : History.HasWaited m (h ++ [(k, e, k')]) q ↔
    ¬ (IsCreate e ∧ k.freePcbs.head? = some q) ∧
      (h.HasWaited m q ∨ Blocks m k.mem e ∧ k.currentProcess = some q) := by
  unfold History.HasWaited
  rw [List.foldl_append]
  simp only [List.foldl_cons, List.foldl_nil, waitedAfter]
  by_cases hc : IsCreate e ∧ k.freePcbs.head? = some q
  · rw [if_pos hc]
    simp [hc]
  · rw [if_neg hc, Bool.or_eq_true, decide_eq_true_iff]
    exact ⟨fun h => ⟨hc, h⟩, And.right⟩

lemma IsCreate.not_blocks {mem : Addr → Int} (h : IsCreate e) : ¬ Blocks m mem e := by
  cases e with
  | syscall st =>
    have h1 : st.sA0 = createProcessNum := h.2
    simp [Blocks, h1, createProcessNum, passerenNum, waitForClockNum, waitForIoNum]
  | _ => exact h.elim

/-- A free PCB stays free until SYS1 takes it. -/
lemma Handled.free_or_created (H : Handled m k e k' a a') (hq : q ∈ a.free) :
    q ∈ a'.free ∨ IsCreate e ∧ k.freePcbs.head? = some q := by
  by_cases hc : IsCreate e ∧ k.freePcbs.head? = some q
  · exact .inr hc
  · left
    by_cases hk : ∃ p, k.currentProcess = some p ∧
        Dies m k.mem (k.procs.oldAreas p) (k.procs.newAreas p) e ∧
        (q = p ∨ k.procs.tree.Below p q)
    · obtain ⟨p, hp, hd, hqp⟩ := hk
      exact H.free_of_dies hp hd hqp
    · have hno : ∀ w, ¬ Moves m k e q .free w := by
        intro w hw
        cases hw with
        | created h hq => exact hc ⟨h, hq⟩
        | killed _ p hp hd hqp => exact hk ⟨p, hp, hd, hqp⟩
      obtain ⟨home, hhome⟩ := H.good'.inv.homes
      have hst := H.starts_of_not_moves (x := .free) hno hq (hhome.mem_home q)
      have hmem := hhome.mem_home q
      generalize home q = y at hst hmem
      cases hst
      exact hmem

/-- The processes that have an address are those that have waited. -/
def Nuc.Remembers (m : Machine) (h : Kaya.History) (a : Nuc) : Prop :=
  ∀ q, q ∉ a.free → (a.pSemAdd q ≠ null ↔ h.HasWaited m q)

lemma Nuc.remembers_boot (m : Machine) (k : Kernel) : (Nuc.boot m k).Remembers m [] := by
  intro q hq
  have hfree : (Nuc.boot m k).free = (List.finRange maxProc).tail := Nuc.dispatch_free m _
  have hsem : (Nuc.boot m k).pSemAdd = update k.procs.pSemAdd 0 null := Nuc.dispatch_pSemAdd
  have hq0 : q = 0 := by
    revert q
    rw [hfree]
    decide
  rw [hsem, hq0, update_self]
  simp [History.HasWaited]

lemma Handled.remembers (H : Handled m k e k' a a') (hrem : a.Remembers m h) :
    a'.Remembers m (h ++ [(k, e, k')]) := by
  intro q hq
  have hfree : ¬ (IsCreate e ∧ k.freePcbs.head? = some q) → q ∉ a.free := fun hnc hf =>
    (H.free_or_created hf).elim hq hnc
  rw [hasWaited_snoc, H.rep.mem_eq, H.rep.freePcbs_eq, H.rep.currentProcess_eq]
  rw [H.rep.freePcbs_eq] at hfree
  have hmarks := Nuc.step_marks H.good H.running H.moves
  generalize a'.pSemAdd = f at hmarks
  cases hmarks with
  | kept hb hc =>
    have hnc : ¬ (IsCreate e ∧ a.free.head? = some q) := by
      rintro ⟨he, hhead⟩
      rw [hc he] at hhead
      cases hhead
    simpa [hnc, hb] using hrem q (hfree hnc)
  | blocked p s hp hb hs =>
    have hnc : ¬ (IsCreate e ∧ a.free.head? = some q) := fun he => he.1.not_blocks hb
    by_cases hqp : q = p
    · subst hqp
      simp [hnc, hb, hp, hs]
    · have hcur : a.currentProcess ≠ some q := fun h => hqp (Option.some.inj (h.symm.trans hp))
      rw [update_of_ne hqp]
      simpa [hnc, hcur] using hrem q (hfree hnc)
  | created c he hc =>
    have hb : ¬ Blocks m a.mem e := he.not_blocks
    by_cases hqc : q = c
    · subst hqc
      simp [he, hc]
    · have hnc : ¬ (IsCreate e ∧ a.free.head? = some q) := fun h =>
        hqc (Option.some.inj (h.2.symm.trans hc))
      rw [update_of_ne hqc]
      simpa [hnc, hb] using hrem q (hfree hnc)

/-- As long as no termination has been stale, the next one is if and only if it terminates the
running process while below it a process is ready that has waited since it was created. -/
theorem stale_iff_has_waited (hr : Reaches m (fun k e => ¬ KillsStale m k e) k₀ h k) :
    KillsStale m k e ↔ ∃ p, k.currentProcess = some p ∧
      Dies m k.mem (k.procs.oldAreas p) (k.procs.newAreas p) e ∧
      ∃ q, k.procs.tree.Below p q ∧ q ∈ k.readyPcbs ∧ h.HasWaited m q := by
  obtain ⟨a, hrep, hg, hrem⟩ := hr.induct (I := fun h a => a.Remembers m h) (fun _ _ => id)
    (Nuc.remembers_boot m k₀) fun _ _ _ _ _ _ hrem hrep hg hd hns hk hs hrep' hg' => by
      obtain ⟨a₂, H⟩ := Handled.of_step hrep hg hd hns hk
      obtain rfl := Option.some.inj (hs.symm.trans H.moves)
      exact H.remembers hrem
  have hsem : k.procs.pSemAdd = a.pSemAdd := by
    rw [hrep.data_eq]
    rfl
  have hwaited : ∀ q ∈ k.readyPcbs, k.procs.pSemAdd q ≠ null ↔ h.HasWaited m q := by
    intro q hq
    rw [hrep.readyPcbs_eq] at hq
    rw [hsem]
    exact hrem q (hg.inv.mem_listAt_ne (i := .ready) (j := .free) hq (by simp))
  refine exists_congr fun p => and_congr_right fun _ => and_congr_right fun _ =>
    exists_congr fun q => and_congr_right fun _ => ?_
  exact and_congr_right fun hq => hwaited q hq

/-- Parent and child have waited for each other, and the child is ready again: the parent can not
terminate it any more. -/
theorem stale_iff_has_waited_child : ∃ h k,
    Reaches demo (fun k e => ¬ KillsStale demo k e) blankKernel h k ∧
      KillsStale demo k (sys 2 0 0 0) := by
  obtain ⟨h, k, hr, hq⟩ := exists_reaches (P := fun k e => ¬ KillsStale demo k e) demo blankKernel
    (fun k e => Deliverable demo k e ∧ Harmless demo k e)
    [sys 1 0x20030000 0 0, sys 4 0x20040000 0 0, sys 3 0x20040000 0 0, sys 4 0x20040004 0 0,
      sys 3 0x20040004 0 0]
    (fun h k => k.currentProcess = some 0 ∧
      Dies demo k.mem (k.procs.oldAreas 0) (k.procs.newAreas 0) (sys 2 0 0 0) ∧
      k.procs.pChild 0 = some 1 ∧ 1 ∈ k.readyPcbs ∧ h.HasWaited demo 1)
    (fun _ _ hok => ⟨hok.1, hok.2.not_killsStale⟩) (by decide +kernel)
  obtain ⟨hc, hd, hchild, hready, hwaited⟩ := of_decide_eq_true hq
  exact ⟨h, k, hr, (stale_iff_has_waited hr).mpr ⟨0, hc, hd, 1, .child hchild, hready, hwaited⟩⟩

end Kaya
