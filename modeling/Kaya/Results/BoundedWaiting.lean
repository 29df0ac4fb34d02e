import Kaya.Abstract.Deaths
import Kaya.Lib.Line
import Kaya.Results.RoundRobin

/-!
# Bounded waiting

Terminations take processes out of the ready queue, from its middle too, and end a turn early.
Even so the wait of a ready process is bounded by its place in the queue.
-/

namespace Kaya

open Function Linked

/-- The handler of the event calls `Scheduler`. -/
def Schedules (m : Machine) (k : Kernel) (e : Event) : Prop :=
  Switches m k.mem k.currentProcess e ∨ ¬ Lives m k e

instance (m : Machine) (k : Kernel) (e : Event) : Decidable (Schedules m k e) :=
  inferInstanceAs (Decidable (_ ∨ _))

/-- The process that `Scheduler` starts in a transition, be it after a termination. -/
def turn (m : Machine) : Kernel × Event × Kernel → Option PcbIx
  | (k, e, k') => if Schedules m k e then k'.currentProcess else none

/-- The turns of a history, in their order. -/
def turns (m : Machine) (h : History) : List PcbIx := h.filterMap (turn m)

variable {m : Machine} {k k' k₀ : Kernel} {a a' : Nuc} {e : Event} {h : History} {p : PcbIx}

lemma turns_snoc (h : History) (k : Kernel) (e : Event) (k' : Kernel) :
    turns m (h ++ [(k, e, k')]) = turns m h ++ (turn m (k, e, k')).toList := by
  unfold turns
  rw [List.filterMap_append]
  cases ht : turn m (k, e, k') <;> simp [ht]

lemma Nuc.advances_of_lives (hg : a.Good) (hrun : Nuc.FromProcess e → a.cpu.IsRunning)
    (hlive : ∀ p, a.currentProcess = some p → ¬ Dies m a.mem (a.oldAreas p) (a.newAreas p) e)
    (hs : a.step m e = some a') :
    Advances a.ready (if Switches m a.mem a.currentProcess e then a'.currentProcess else none)
      (a.dead m e) a'.ready := by
  have hline := Turns.step_ready m.reading (a.news m e) a.turns
  rw [← step_turns hg hrun hlive hs] at hline
  refine ⟨(a.news m e).added, ?_⟩
  rw [dead_of_not_dies hlive]
  simp only [List.not_mem_nil, not_false_eq_true, decide_true, List.filter_true]
  refine Eq.trans ?_ hline.symm
  by_cases hsw : Switches m a.mem a.currentProcess e <;> simp [Nuc.news, hsw, Nuc.turns]

/-- What one transition does to the ready queue. -/
lemma Rep.advances (hrep : Rep k a) (hg : a.Good) (hd : Deliverable m k e)
    (hns : ¬ KillsStale m k e) (hs : a.step m e = some a') (hrep' : Rep k' a') :
    Advances a.ready (turn m (k, e, k')) (a.dead m e) a'.ready := by
  have hrun : Nuc.FromProcess e → a.cpu.IsRunning := fun he => hrep.cpu_eq ▸ hd.running he
  unfold turn
  dsimp only
  by_cases hlive : Lives m k e
  · have h := Nuc.advances_of_lives hg hrun (hrep.lives hlive) hs
    have hsch : Schedules m k e ↔ Switches m a.mem a.currentProcess e := by
      rw [← hrep.mem_eq, ← hrep.currentProcess_eq]
      simp [Schedules, hlive]
    simpa only [hsch, hrep'.currentProcess_eq] using h
  · have hsch : Schedules m k e := .inr hlive
    rw [if_pos hsch, hrep'.currentProcess_eq]
    simp only [Lives, not_forall, not_not] at hlive
    obtain ⟨p, hc, hdies⟩ := hlive
    have hline := Nuc.line_of_dies hg (hrep.safe hg.inv hns)
      (hrep.currentProcess_eq.symm.trans hc) ((hrep.dies_iff p).mpr hdies) hs
    exact ⟨[], by rw [hline, List.append_nil]⟩

/-- The process has been terminated while it was waiting for its turn. -/
def KilledInLine (m : Machine) (p : PcbIx) (l : History) : Prop :=
  ∃ l₁ t l₂, l = l₁ ++ t :: l₂ ∧ p ∉ turns m l₁ ∧ p ∈ t.2.2.freePcbs

lemma KilledInLine.append {l : History} (h : KilledInLine m p l) (l' : History) :
    KilledInLine m p (l ++ l') := by
  obtain ⟨l₁, t, l₂, rfl, hnot, hfree⟩ := h
  exact ⟨l₁, t, l₂ ++ l', by simp, hnot, hfree⟩

/-- What has become of a process that was ready, at position `j`. -/
inductive Waited (m : Machine) (p : PcbIx) (j : Nat) (l : History) (ready : List PcbIx) : Prop
  | started (h : p ∈ (turns m l).take (j + 1))
  | killed (h : KilledInLine m p l)
  | waits (hnot : p ∉ turns m l) (hp : p ∈ ready)
      (hpos : ready.idxOf p + (turns m l).length ≤ j)

lemma Waited.step {j : Nat} {l : History} (hw : Waited m p j l a.ready) (hrep : Rep k a)
    (hg : a.Good) (hd : Deliverable m k e) (hns : ¬ KillsStale m k e)
    (hs : a.step m e = some a') (hrep' : Rep k' a') :
    Waited m p j (l ++ [(k, e, k')]) a'.ready := by
  have hline := hrep.advances hg hd hns hs hrep'
  cases hw with
  | started h =>
    refine .started ?_
    rw [turns_snoc]
    exact ((List.prefix_append _ _).take _).subset h
  | killed h => exact .killed (h.append _)
  | waits hnot hp hpos =>
    by_cases hdead : p ∈ a.dead m e
    · have hrun : Nuc.FromProcess e → a.cpu.IsRunning := fun he => hrep.cpu_eq ▸ hd.running he
      have hfree := (Nuc.mem_free_step hg hrun (hrep.safe hg.inv hns) hs p).2 hdead
      exact .killed ⟨l, _, [], rfl, hnot, hrep'.freePcbs_eq ▸ hfree⟩
    · by_cases hserved : turn m (k, e, k') = some p
      · refine .started ?_
        rw [turns_snoc, hserved, List.take_of_length_le]
        · simp
        · simp only [List.length_append, Option.toList_some, List.length_singleton]
          omega
      · obtain ⟨hp', hpos'⟩ := (hline.position hp hdead).resolve_left hserved
        refine .waits ?_ hp' ?_
        · rw [turns_snoc, List.mem_append]
          simpa [hnot] using hserved
        · rw [turns_snoc, List.length_append]
          omega

/-- A process that stands at position `j` of the ready queue of a reachable state is among the
next `j + 1` that are started, or it is terminated before its turn, or it is still waiting and
has moved up with each one that was started. Only terminations of processes with a stale
semaphore pointer are left out. -/
theorem ready_waits_bounded (hr : Reaches m (fun k e => ¬ KillsStale m k e) k₀ h k) {j : Nat}
    (hp : k.readyPcbs[j]? = some p) {l : History}
    (hl : Run (step m) (fun k e => Deliverable m k e ∧ ¬ KillsStale m k e) k l k') :
    p ∈ (turns m l).take (j + 1) ∨ KilledInLine m p l ∨
      p ∉ turns m l ∧ ∃ i, k'.readyPcbs[i]? = some p ∧ i + (turns m l).length ≤ j := by
  obtain ⟨a, hrep, hg⟩ := hr.rep fun _ _ => id
  rw [hrep.readyPcbs_eq] at hp
  have hnd : a.ready.Nodup := by
    obtain ⟨home, hhome⟩ := hg.inv.homes
    exact hhome.nodup .ready
  obtain ⟨hj, hget⟩ := List.getElem?_eq_some_iff.mp hp
  have hidx : a.ready.idxOf p = j := hget ▸ hnd.idxOf_getElem j hj
  have hstart : Waited m p j [] a.ready :=
    .waits (by simp [turns]) (hget ▸ List.getElem_mem hj) (by simp [turns, hidx])
  obtain ⟨a', hrep', -, hw⟩ := hrep.run (I := fun l a => Waited m p j l a.ready) hg hl
    (fun _ _ => id) hstart
    fun _ _ _ _ _ _ hw hrep₁ hg₁ hd hns _ hs hrep₂ _ => hw.step hrep₁ hg₁ hd hns hs hrep₂
  cases hw with
  | started h => exact .inl h
  | killed h => exact .inr (.inl h)
  | waits hnot hp' hpos =>
    refine .inr (.inr ⟨hnot, _, ?_, hpos⟩)
    rw [hrep'.readyPcbs_eq, List.getElem?_idxOf hp']

/-- The first of two children terminates itself in its turn: the second one is among the two that
have been started. -/
theorem ready_waits_bounded_two : ∃ h k l k',
    Reaches demo (fun k e => ¬ KillsStale demo k e) blankKernel h k ∧
    Run (step demo) (fun k e => Deliverable demo k e ∧ ¬ KillsStale demo k e) k l k' ∧
    k.readyPcbs[1]? = some 2 ∧ (∃ t ∈ l, ¬ Lives demo t.1 t.2.1) ∧
    2 ∈ (turns demo l).take 2 := by
  obtain ⟨h, k, l, k', hr, hl, hq⟩ := exists_reaches_run demo blankKernel
    (fun k e => Deliverable demo k e ∧ Harmless demo k e)
    [sys 1 0x20030000 0 0, sys 1 0x20030000 0 0] [irq 0x200, sys 2 0 0 0]
    (fun k l => k.readyPcbs[1]? = some 2 ∧ (∃ t ∈ l, ¬ Lives demo t.1 t.2.1) ∧
      (turns demo l).length = 2 ∧ ∀ t ∈ l, 2 ∉ t.2.2.freePcbs)
    (fun _ _ hok => ⟨hok.1, hok.2.not_killsStale⟩) (by decide +kernel)
  obtain ⟨hp, hdies, hlen, hfree⟩ := of_decide_eq_true hq
  refine ⟨h, k, l, k', hr, hl, hp, hdies, ?_⟩
  rcases ready_waits_bounded hr hp hl with hstarted | ⟨l₁, t, l₂, rfl, -, ht⟩ | ⟨-, i, -, hi⟩
  · exact hstarted
  · exact absurd ht (hfree t (by simp))
  · omega

end Kaya
