import Kaya.Abstract.Turnover
import Kaya.Refine.Runs

/-!
# Round robin

Without terminations the processes get the processor in the order in which they have become
ready.
-/

namespace Kaya

open Function Linked

/-- The process that `Scheduler` starts in a transition. -/
def started (m : Machine) : Kernel × Event × Kernel → Option PcbIx
  | (k, e, k') => if Switches m k.mem k.currentProcess e then k'.currentProcess else none

/-- The dispatches of a history. -/
def dispatches (m : Machine) (h : History) : List PcbIx := h.filterMap (started m)

variable {m : Machine} {k k' k₀ : Kernel} {a a' : Nuc} {e : Event} {h : History} {p : PcbIx}

/-- Nothing goes ahead of the ready processes: after a step they are still first in line, behind
the process that has got its turn. -/
lemma Turns.step_ready (clock : Nat → Word) (n : News) (t : Turns) :
    t.ready ++ n.added =
      (if n.switches then (t.step clock n).current.toList else []) ++ (t.step clock n).ready := by
  unfold Turns.step
  extract_lets t₁ t₂ t₃
  have h₁ : t₁.ready = t.ready := by
    unfold t₁ Turns.charge
    split_ifs
    · split <;> rfl
    · rfl
  have h₂ : t₂.ready = t₁.ready := by
    unfold t₂
    split_ifs <;> rfl
  have h₃ : t₃.ready = t.ready ++ n.added := by
    rw [← h₁, ← h₂]
    unfold t₃ Turns.reset
    split <;> rfl
  rw [← h₃]
  split_ifs
  · unfold Turns.dispatch
    cases t₃.ready <;> rfl
  · rfl

lemma ready_append (hrep : Rep k a) (hg : a.Good)
    (hr : Run (step m) (fun k e => Deliverable m k e ∧ Lives m k e) k h k') :
    ∃ added, k.readyPcbs ++ added = dispatches m h ++ k'.readyPcbs := by
  have hend : ∃ a', Rep k' a' ∧ a'.Good ∧
      ∃ added, k.readyPcbs ++ added = dispatches m h ++ a'.ready := by
    refine hrep.run (I := fun h a' => ∃ added, k.readyPcbs ++ added = dispatches m h ++ a'.ready)
      hg hr (fun _ _ => Lives.not_killsStale) ?_ ?_
    · exact ⟨[], by simp [dispatches, hrep.readyPcbs_eq]⟩
    · rintro h k₁ e k₂ a₁ a₂ ⟨added, hadded⟩ hrep₁ hg₁ hd hlive - hstep hrep₂ -
      have hturns := Nuc.step_turns hg₁ (fun he => hrep₁.cpu_eq ▸ hd.running he)
        (hrep₁.lives hlive) hstep
      have hfifo := Turns.step_ready m.reading (a₁.news m e) a₁.turns
      rw [← hturns] at hfifo
      have hstarted : (started m (k₁, e, k₂)).toList =
          if (a₁.news m e).switches then a₂.turns.current.toList else [] := by
        unfold started
        dsimp only
        rw [hrep₁.mem_eq, hrep₁.currentProcess_eq, hrep₂.currentProcess_eq]
        by_cases hsw : Switches m a₁.mem a₁.currentProcess e <;> simp [Nuc.news, hsw, Nuc.turns]
      refine ⟨added ++ (a₁.news m e).added, ?_⟩
      have hlast : dispatches m (h ++ [(k₁, e, k₂)]) =
          dispatches m h ++ (started m (k₁, e, k₂)).toList := by
        unfold dispatches
        rw [List.filterMap_append]
        cases hst : started m (k₁, e, k₂) <;> simp [hst]
      calc k.readyPcbs ++ (added ++ (a₁.news m e).added)
          = dispatches m h ++ (a₁.ready ++ (a₁.news m e).added) := by
            rw [← List.append_assoc, hadded, List.append_assoc]
        _ = dispatches m h ++ ((started m (k₁, e, k₂)).toList ++ a₂.ready) := by
            rw [hstarted]
            exact congrArg _ hfifo
        _ = dispatches m (h ++ [(k₁, e, k₂)]) ++ a₂.ready := by
            rw [hlast, List.append_assoc]
  obtain ⟨a', hrep', -, added, hadded⟩ := hend
  exact ⟨added, by rw [hadded, hrep'.readyPcbs_eq]⟩

/-- A process that stands at position `j` of the ready queue of a reachable state is started by
dispatch `j` from then on, counted from zero, and by none before it; as long as fewer
dispatches have been made it has moved up by as many places. -/
theorem round_robin_without_overtaking (hr : Reaches m (Lives m) k₀ h k) {j : Nat}
    (hp : k.readyPcbs[j]? = some p) {l : History}
    (hl : Run (step m) (fun k e => Deliverable m k e ∧ Lives m k e) k l k') :
    (j < (dispatches m l).length → (dispatches m l)[j]? = some p) ∧
      (∀ i < j, (dispatches m l)[i]? ≠ some p) ∧
      ((dispatches m l).length ≤ j → k'.readyPcbs[j - (dispatches m l).length]? = some p) := by
  obtain ⟨a, hrep, hg⟩ := hr.rep fun _ _ => Lives.not_killsStale
  obtain ⟨added, hadded⟩ := ready_append hrep hg hl
  have hnd : k.readyPcbs.Nodup := by
    obtain ⟨home, hhome⟩ := hg.inv.homes
    rw [hrep.readyPcbs_eq]
    exact hhome.nodup .ready
  have hjlen : j < k.readyPcbs.length := (List.getElem?_eq_some_iff.mp hp).1
  have hat : ∀ i < k.readyPcbs.length,
      (dispatches m l ++ k'.readyPcbs)[i]? = k.readyPcbs[i]? := by
    intro i hi
    rw [← hadded, List.getElem?_append_left hi]
  refine ⟨fun hj => ?_, fun i hij hi => ?_, fun hj => ?_⟩
  · rw [← List.getElem?_append_left hj, hat j hjlen, hp]
  · have hilen : i < (dispatches m l).length := (List.getElem?_eq_some_iff.mp hi).1
    have happend : (dispatches m l ++ k'.readyPcbs)[i]? = (dispatches m l)[i]? :=
      List.getElem?_append_left hilen
    rw [← happend, hat i (hij.trans hjlen), ← hp] at hi
    have heq := (List.getElem?_inj (hij.trans hjlen) hnd).mp hi
    omega
  · rw [← List.getElem?_append_right hj, hat j hjlen, hp]

/-- The initial process has two children, and the timer preempts it and the first of them: the
second child is started by the second dispatch. -/
theorem round_robin_without_overtaking_two : ∃ h k l k', Reaches demo (Lives demo) blankKernel h k ∧
    Run (step demo) (fun k e => Deliverable demo k e ∧ Lives demo k e) k l k' ∧
    k.readyPcbs[1]? = some 2 ∧ (dispatches demo l).length = 2 ∧
    (dispatches demo l)[1]? = some 2 := by
  obtain ⟨h, k, l, k', hr, hl, hq⟩ := exists_reaches_run (P := Lives demo) demo blankKernel
    (fun k e => Deliverable demo k e ∧ Lives demo k e)
    [sys 1 0x20030000 0 0, sys 1 0x20030000 0 0] [irq 0x200, irq 0x200]
    (fun k l => k.readyPcbs[1]? = some 2 ∧ (dispatches demo l).length = 2) (fun _ _ hok => hok)
    (by decide +kernel)
  obtain ⟨hp, hlen⟩ := of_decide_eq_true hq
  refine ⟨h, k, l, k', hr, hl, hp, hlen, ?_⟩
  exact (round_robin_without_overtaking hr hp hl).1 (by omega)

end Kaya
