import Kaya.Abstract.Resume
import Kaya.Refine.Runs

/-!
# Resumption

In runs in which the timer preempts a process only in the state that `p_s` has, every
process goes on where it has stopped.
-/

namespace Kaya

open Function Linked

variable {m : Machine} {k k' k₀ : Kernel} {a a' : Nuc} {e : Event} {h : History} {p : PcbIx}

/-- The notes after a transition. -/
def stopsAfter (m : Machine) (x : PcbIx → Option Stop) :
    Kernel × Event × Kernel → PcbIx → Option Stop
  | (k, e, k') => nextStops k.currentProcess (fun q => lost (k.procs.newAreas q) k'.states e)
      (created k.freePcbs k.states e) (served m k.mem k.waiters k.bus e) x

/-- Where every process has stopped in the course of a history. -/
def stops (m : Machine) (h : History) : PcbIx → Option Stop :=
  h.foldl (stopsAfter m) fun _ => none

/-- Whenever the nucleus gives the processor to a process, the process goes on where it has
stopped. -/
def ResumesRight (m : Machine) (h : History) : Prop :=
  ∀ h₁ k e k' h₂ p st, h = h₁ ++ (k, e, k') :: h₂ → EntersNucleus e →
    k'.currentProcess = some p → k'.cpu = .running st →
    ∃ y, stops m (h₁ ++ [(k, e, k')]) p = some y ∧ y.Matches st

/-- An interrupt of the processor local timer finds the running process in the state that
`p_s` has. -/
def PreemptsSaved (k : Kernel) : Event → Prop
  | .interrupt st => determineLine st.sCause = some pltLine →
      ∀ p, k.currentProcess = some p → k.procs.pS p = st
  | _ => True

lemma PreemptsSaved.of_not_isPreemption (he : ¬ IsPreemption e) : PreemptsSaved k e := by
  cases e with
  | interrupt st => exact fun hl => absurd hl he
  | _ => trivial

lemma served_congr {waiters waiters' : Addr → List PcbIx} {mem : Addr → Int} {bus : Bus}
    (hw : ∀ s, s ≠ null → waiters s = waiters' s) :
    served m mem waiters bus e = served m mem waiters' bus e := by
  have hs : ∀ line devNum d, waiters (deviceSem m line devNum d) =
      waiters' (deviceSem m line devNum d) :=
    fun line devNum d => hw _ (m.aligned_semAddr _).ne_null
  unfold served
  simp only [hs]

lemma Rep.stopsAfter_eq (hr : Rep k a) (hr' : Rep k' a') (x : PcbIx → Option Stop) :
    stopsAfter m x (k, e, k') = a.stops m a' e x := by
  have hnew : k.procs.newAreas = a.newAreas := by
    rw [hr.data_eq]
    rfl
  have hstates : k.states = a.states := by
    rw [hr.data_eq]
    rfl
  have hstates' : k'.states = a'.states := by
    rw [hr'.data_eq]
    rfl
  have hbus : k.bus = a.bus := by
    rw [hr.data_eq]
    rfl
  unfold stopsAfter Nuc.stops
  dsimp only
  rw [hr.currentProcess_eq, hr.freePcbs_eq, hr.mem_eq, hnew, hstates, hstates', hbus,
    served_congr fun s hs => hr.waiters_eq hs]

lemma ResumesRight.snoc (h₁ : ResumesRight m h)
    (h₂ : EntersNucleus e → ∀ p st, k'.currentProcess = some p → k'.cpu = .running st →
      ∃ y, stops m (h ++ [(k, e, k')]) p = some y ∧ y.Matches st) :
    ResumesRight m (h ++ [(k, e, k')]) := by
  intro l₁ k₁ e₁ k₁' l₂ p st hl he hc hcpu
  induction l₂ using List.reverseRecOn with
  | nil =>
    obtain ⟨rfl, ht⟩ := List.append_inj' hl rfl
    obtain ⟨rfl, rfl, rfl⟩ : k = k₁ ∧ e = e₁ ∧ k' = k₁' := by simpa using ht
    exact h₂ he p st hc hcpu
  | append_singleton l t _ =>
    rw [← List.cons_append, ← List.append_assoc] at hl
    obtain ⟨rfl, -⟩ := List.append_inj' hl rfl
    exact h₁ l₁ k₁ e₁ k₁' l p st rfl he hc hcpu

lemma boot_saved (m : Machine) (k : Kernel) (x : PcbIx → Option Stop) :
    (Nuc.boot m k).Saved x := by
  intro q hf hc
  have hmem : ∀ p : PcbIx, p ∉ (List.finRange maxProc).tail → p = 0 := by decide
  obtain rfl := hmem q (by rwa [Nuc.boot, Nuc.dispatch_free] at hf)
  exact absurd rfl hc

/-- In every run without stale terminations in which the timer preempts a process only in the
state that `p_s` has, every process goes on where it has stopped. -/
theorem resumes_where_stopped
    (hr : Reaches m (fun k e => ¬ KillsStale m k e ∧ PreemptsSaved k e) k₀ h k) :
    ResumesRight m h := by
  have hend : ∃ a, Rep k a ∧ a.Good ∧ a.Saved (stops m h) ∧ ResumesRight m h := by
    refine hr.induct (I := fun h a => a.Saved (stops m h) ∧ ResumesRight m h)
      (fun _ _ hP => hP.1) ⟨boot_saved m k₀ _, by simp [ResumesRight]⟩ ?_
    rintro h k e k' a a' ⟨hsaved, hright⟩ hrep hg hd ⟨hstale, hplt⟩ hk hstep hrep' -
    have hrun : Nuc.FromProcess e → a.cpu.IsRunning := fun he => hrep.cpu_eq ▸ hd.running he
    have hpS : k.procs.pS = a.pS := by
      rw [hrep.data_eq]
      rfl
    have hstops : stops m (h ++ [(k, e, k')]) = a.stops m a' e (stops m h) := by
      unfold stops
      rw [List.foldl_append, List.foldl_cons, List.foldl_nil, hrep.stopsAfter_eq hrep']
    obtain ⟨hsaved', hresumed⟩ := Nuc.stops_step hg hrun (hrep.safe hg.inv hstale) hstep
      (fun st p he hl hc => by
        subst he
        rw [← hpS]
        exact hplt hl p (hrep.currentProcess_eq.trans hc)) hsaved
    rw [hstops]
    refine ⟨hsaved', hright.snoc fun he p st hc hcpu => ?_⟩
    rw [hstops]
    exact hresumed he p st (hrep'.currentProcess_eq ▸ hc) (hrep'.cpu_eq ▸ hcpu)
  obtain ⟨a, -, -, -, hright⟩ := hend
  exact hright

/-- The initial process and its child wait for the clock, and the tick gives the processor back
to the initial process. -/
theorem resumes_where_stopped_at_tick : ∃ h k, Reaches demo
    (fun k e => ¬ KillsStale demo k e ∧ PreemptsSaved k e) blankKernel h k ∧
    h.length = 4 ∧ k.currentProcess = some 0 ∧ ResumesRight demo h := by
  obtain ⟨h, k, hr, hw⟩ := exists_reaches
    (P := fun k e => ¬ KillsStale demo k e ∧ PreemptsSaved k e) demo blankKernel
    (fun k e => Deliverable demo k e ∧ Harmless demo k e ∧ ¬ IsPreemption e)
    [sys 1 0x20030000 0 0, sys 7 0 0 0, sys 7 0 0 0, irq 0x400]
    (fun h k => h.length = 4 ∧ k.currentProcess = some 0)
    (fun _ _ hok => ⟨hok.1, hok.2.1.not_killsStale, .of_not_isPreemption hok.2.2⟩)
    (by decide +kernel)
  obtain ⟨hlen, hc⟩ := of_decide_eq_true hw
  exact ⟨h, k, hr, hlen, hc, resumes_where_stopped hr⟩

/-- Whether the last transition is at an interrupt, after which the process that has been
interrupted goes on in a state in which it has not stopped. -/
def goesWrong (m : Machine) (h : History) : Bool :=
  match h.getLast? with
  | some (k, .interrupt st, k') =>
    match k.currentProcess, k'.cpu with
    | some p, .running st' => k'.currentProcess = some p ∧ st' ≠ st ∧
        stops m h p = some ⟨st, false⟩
    | _, _ => false
  | _ => false

lemma not_resumesRight_of_goesWrong (hw : goesWrong m h = true) : ¬ ResumesRight m h := by
  unfold goesWrong at hw
  split at hw
  · rename_i k st k' hlast
    obtain ⟨l, hl⟩ := List.getLast?_eq_some_iff.mp hlast
    split at hw
    · rename_i p st' _ hcpu
      obtain ⟨hc, hne, hstop⟩ := of_decide_eq_true hw
      intro hall
      obtain ⟨y, hy, hm⟩ := hall l k _ k' [] p st' hl trivial hc hcpu
      obtain rfl := Option.some.inj ((hl ▸ hstop).symm.trans hy)
      rcases hm with rfl | ⟨h, -⟩
      · exact hne rfl
      · cases h
    · cases hw
  · cases hw

/-- The initial process waits for the clock, and the timer preempts its child at the third
instruction, which then starts over. -/
theorem preemption_forgets_state : ¬ ∀ (m : Machine) (k₀ : Kernel) (h : History) (k : Kernel),
    Reaches m (fun _ _ => True) k₀ h k → ResumesRight m h := by
  intro hall
  obtain ⟨h, k, hr, hw⟩ := exists_reaches (P := fun _ _ => True) demo blankKernel
    (Deliverable demo) [sys 1 0x20030000 0 0, sys 7 0 0 0,
      .interrupt { openState with sPc := openState.sPc + 8, sCause := 0x200 }]
    (fun h _ => goesWrong demo h) (fun _ _ hok => ⟨hok, trivial⟩) (by decide +kernel)
  exact not_resumesRight_of_goesWrong hw (hall _ _ _ _ hr)

end Kaya
