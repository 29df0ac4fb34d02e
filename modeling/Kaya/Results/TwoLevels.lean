import Kaya.Abstract.Proper
import Kaya.Results.IdleBranch

/-!
# The nucleus on links and the nucleus on lists

The two do the same, event by event, from `main` on and in both directions. No handler runs into
a null pointer, an empty queue or an endless loop on the way: it comes to its end whenever the
arguments are proper.
-/

namespace Kaya

open Function Linked

variable {m : Machine} {k k' k₀ k₁ : Kernel} {a a' : Nuc} {e : Event} {h : History}

/-- The history of a run of the nucleus on lists. -/
abbrev Nuc.History := List (Nuc × Event × Nuc)

/-- The events that can happen to the nucleus on lists, as to that on links. -/
def Nuc.Deliverable (m : Machine) (a : Nuc) : Event → Prop
  | .syscall _ | .programTrap _ | .tlbManagement _ => a.cpu.IsRunning
  | .interrupt st => ∃ lineNum, determineLine st.sCause = some lineNum ∧ 0 < lineNum ∧
      a.cpu.Takes lineNum ∧
      ∀ line, deviceLine lineNum = some line → determineDevice (a.bus.interruptDev line) ≠ none
  | .device _ => True
  | .writeInt s _ => a.cpu.IsRunning ∧ ¬ m.InSemaphoreArray s
  | .writeState _ _ => a.cpu.IsRunning

lemma Rep.deliverable_iff (hrep : Rep k a) : a.Deliverable m e ↔ Deliverable m k e := by
  cases e <;> simp only [Nuc.Deliverable, Deliverable, hrep.cpu_eq, hrep.bus_eq]

lemma Rep.isSome_step (hrep : Rep k a) (hg : a.Good) (hs : a.Safe m e) :
    (step m k e).isSome ↔ (a.step m e).isSome := by
  have hsim := step_sim hrep hg.inv hs
  generalize step m k e = x at hsim
  generalize a.step m e = y at hsim
  cases hsim <;> simp

/-- A step on lists is one on links. -/
lemma Rep.step_links (hrep : Rep k a) (hg : a.Good) (hd : a.Deliverable m e) (hs : a.Safe m e)
    (ha : a.step m e = some a') : ∃ k', step m k e = some k' ∧ Rep k' a' ∧ a'.Good := by
  have hsim := step_sim hrep hg.inv hs
  rw [ha] at hsim
  obtain ⟨k', hk', hrep'⟩ := rel_some hsim
  have hrun : Nuc.FromProcess e → a.cpu.IsRunning := fun hp =>
    hrep.cpu_eq ▸ (hrep.deliverable_iff.mp hd).running hp
  exact ⟨k', hk', hrep', Nuc.step_good hg hrun hs ha⟩

/-- What the nucleus on links does is what the nucleus on lists does, and the other way round, as
long as no termination is stale: `main` returns, and each run of the one has a run of the other
through the same events to a state that its tables represent. -/
theorem nucleus_refines_lists (m : Machine) (k₀ : Kernel) : ∃ k₁, main m k₀ = some k₁ ∧
    (∀ h k, Run (step m) (fun k e => Deliverable m k e ∧ ¬ KillsStale m k e) k₁ h k →
      ∃ l a, Run (Nuc.step m) (fun a e => a.Deliverable m e ∧ a.Safe m e) (Nuc.boot m k₀) l a ∧
        l.map (·.2.1) = h.map (·.2.1) ∧ Rep k a) ∧
    ∀ (l : Nuc.History) a,
      Run (Nuc.step m) (fun a e => a.Deliverable m e ∧ a.Safe m e) (Nuc.boot m k₀) l a →
      ∃ h k, Run (step m) (Deliverable m) k₁ h k ∧ h.map (·.2.1) = l.map (·.2.1) ∧ Rep k a := by
  obtain ⟨k₁, hmain, hrep₁⟩ := main_sim m k₀
  refine ⟨k₁, hmain, fun h k hr => ?_, fun l a hr => ?_⟩
  · have hsim : ∃ a, Rep k a ∧ a.Good ∧ ∃ l : Nuc.History,
        Run (Nuc.step m) (fun a e => a.Deliverable m e ∧ a.Safe m e) (Nuc.boot m k₀) l a ∧
          l.map (·.2.1) = h.map (·.2.1) := by
      refine hrep₁.run (P := fun k e => ¬ KillsStale m k e) (I := fun h a => ∃ l : Nuc.History,
        Run (Nuc.step m) (fun a e => a.Deliverable m e ∧ a.Safe m e) (Nuc.boot m k₀) l a ∧
          l.map (·.2.1) = h.map (·.2.1)) (Nuc.boot_good m k₀) hr (fun _ _ hs => hs)
        ⟨[], .nil, rfl⟩ ?_
      rintro h k e k' a a' ⟨l, hl, hevents⟩ hrep hg hd hs - hstep - -
      refine ⟨l ++ [(a, e, a')], hl.snoc ⟨hrep.deliverable_iff.mpr hd, hrep.safe hg.inv hs⟩ hstep,
        ?_⟩
      simp [hevents]
    obtain ⟨a, hrep, -, l, hl, hevents⟩ := hsim
    exact ⟨l, a, hl, hevents, hrep⟩
  · have hsim : a.Good ∧ ∃ h k, Run (step m) (Deliverable m) k₁ h k ∧
        h.map (·.2.1) = l.map (·.2.1) ∧ Rep k a := by
      induction hr with
      | nil => exact ⟨Nuc.boot_good m k₀, [], k₁, .nil, rfl, hrep₁⟩
      | @snoc l a a' e hr hok hstep ih =>
        obtain ⟨hg, h, k, hk, hevents, hrep⟩ := ih
        obtain ⟨k', hk', hrep', hg'⟩ := hrep.step_links hg hok.1 hok.2 hstep
        exact ⟨hg', h ++ [(k, e, k')], k', hk.snoc (hrep.deliverable_iff.mp hok.1) hk',
          by simp [hevents], hrep'⟩
    exact hsim.2

lemma Reaches.keeps (hr : Reaches m (fun k e => ¬ KillsStale m k e) k₀ h k) :
    ∃ a, Rep k a ∧ a.Good ∧ (a.clockSem m).Balanced ∧ a.TimerOff := by
  refine hr.induct (I := fun _ a => (a.clockSem m).Balanced ∧ a.TimerOff) (fun _ _ hs => hs)
    ⟨(boot_clockSem m k₀).balanced, Nuc.dispatch_timerOff⟩ ?_
  rintro h k e k' a a' ⟨hbal, htimer⟩ hrep hg hd hs - hstep - -
  have hrun : Nuc.FromProcess e → a.cpu.IsRunning := fun he => hrep.cpu_eq ▸ hd.running he
  exact ⟨Nuc.clockSem_step_balanced hg hrun (hrep.safe hg.inv hs) hstep hd.ne_write_clock hbal,
    Nuc.step_timerOff hg hrun hstep htimer⟩

lemma Nuc.TimerOff.running_of_takes (h : a.TimerOff) (ht : a.cpu.Takes pltLine) :
    a.cpu.IsRunning := by
  cases hc : a.cpu with
  | running st => trivial
  | waiting status =>
    rw [hc] at ht
    rcases ht with ht | ht
    · exact absurd rfl ht
    · exact absurd (h status hc) ht
  | _ =>
    rw [hc] at ht
    exact ht.elim

instance (st : State) : Decidable (ProperCall m st) :=
  decidable_of_iff ((st.sA0 = createProcessNum → m.InRam st.sA1 stateSize) ∧
    (st.sA0 = verhogenNum ∨ st.sA0 = passerenNum → m.InRam st.sA1 4) ∧
    (st.sA0 = exceptionStateVecNum → st.sA1.toNat < trapTypes) ∧
    (st.sA0 = exceptionStateVecNum → ∀ area ∈ [st.sA2, st.sA3],
      area = null ∨ m.InRam area stateSize) ∧
    (st.sA0 = waitForIoNum → m.InSemaphoreArray (ioSem m st)))
    ⟨fun ⟨h1, h3, h5, h5', h8⟩ => ⟨h1, h3, h5, h5', h8⟩,
      fun ⟨h1, h3, h5, h5', h8⟩ => ⟨h1, h3, h5, h5', h8⟩⟩

instance : DecidablePred (Proper m)
  | .syscall st => inferInstanceAs (Decidable (IsCall st → ProperCall m st))
  | .programTrap _ | .tlbManagement _ | .interrupt _ | .device _ | .writeInt _ _
  | .writeState _ _ => .isTrue trivial

end Kaya
