import Kaya.Abstract.Inv

/-!
# The steps keep every PCB in one place

Each handler keeps `Nuc.Inv`, provided a termination finds every process below the caller
where it looks for it, and leaves the processor with a process exactly when one is running.
-/

namespace Kaya

open Function Linked

namespace Nuc

variable {a a' : Nuc} {p : PcbIx} {s : Addr} {m : Machine}

/-- The invariant between two events. -/
structure Good (a : Nuc) : Prop where
  inv : a.Inv
  onCpu : a.cpu.IsRunning ↔ a.currentProcess ≠ none

/-- Should the event terminate the running process, the processes below it are safe. -/
def Safe (m : Machine) (a : Nuc) (e : Event) : Prop :=
  ∀ p, a.currentProcess = some p → Dies m a.mem (a.oldAreas p) (a.newAreas p) e → a.KillSafe p

lemma Inv.good_dispatch (h : a.offCpu.Inv) : (a.dispatch m).Good := by
  refine ⟨h.dispatch, ?_⟩
  unfold Nuc.dispatch
  split
  · split_ifs <;> simp [Cpu.IsRunning]
  · simp [Cpu.IsRunning]

lemma Inv.good_resume (h : a.Inv) (hc : a.currentProcess = some p) (st : State) :
    (a.resume st).Good := by
  refine ⟨⟨h.homes, h.waits, h.shape⟩, ?_⟩
  simp [resume, Cpu.IsRunning, hc]

lemma Inv.store (h : a.Inv) (s : Addr) (v : Int) : (a.store s v).Inv :=
  ⟨h.homes, h.waits, h.shape⟩

lemma Inv.good_block (h : a.Inv) (hc : a.currentProcess = some p) (ha : Aligned s)
    (st : State) : (a.block m st s p).Good := by
  refine ⟨h.block hc ha st, ?_⟩
  unfold Nuc.block Nuc.dispatch
  dsimp only
  split
  · split_ifs <;> simp [Cpu.IsRunning]
  · simp [Cpu.IsRunning]

lemma Inv.good_terminate (h : a.Inv) (hc : a.currentProcess = some p) (hsafe : a.KillSafe p) :
    (a.terminate m p).Good := (h.kill hc hsafe).good_dispatch

lemma Inv.deliver (h : a.Inv) (s : Addr) (status : Word) : (a.deliver s status).Inv := by
  have hw := h.wake s
  unfold Nuc.wake at hw
  unfold Nuc.deliver
  split
  · exact h
  · rename_i q rest hb
    rw [hb] at hw
    exact ⟨hw.homes, hw.waits, hw.shape⟩

lemma Inv.wakeMany (h : a.Inv) (s : Addr) {n : Nat} (hn : n ≤ (a.blocked s).length) :
    Inv { a with
      ready := a.ready ++ (a.blocked s).take n
      blocked := update a.blocked s ((a.blocked s).drop n) } := by
  induction n with
  | zero => simpa using h
  | succ n ih =>
    have hlt : n < (a.blocked s).length := hn
    have hi := (ih hlt.le).wake s
    unfold Nuc.wake at hi
    simp only [update_self, List.drop_eq_getElem_cons hlt, update_idem, List.append_assoc,
      List.take_append_getElem] at hi
    exact hi

/-! ### Handlers -/

lemma createProcess_good {newState : Addr} (h : a.Inv) (hc : a.currentProcess = some p)
    (hs : a.createProcess newState = some a') : a'.Good := by
  unfold createProcess at hs
  split at hs
  · obtain rfl := Option.some.inj hs
    exact Inv.good_resume (a := a.setSyscallV0 sys1Fail) ⟨h.homes, h.waits, h.shape⟩ hc _
  · rename_i q rest hf
    obtain ⟨c, hq, hs⟩ := Option.bind_eq_some_iff.mp hs
    obtain rfl := Option.some.inj (hc.symm.trans hq)
    obtain rfl := Option.some.inj hs
    have hn := h.newChild hf hc newState
    exact Inv.good_resume (a := (a.newChild newState p q rest).setSyscallV0 sys1Success)
      ⟨hn.homes, hn.waits, hn.shape⟩ hc _

lemma wake_currentProcess (a : Nuc) (s : Addr) :
    (a.wake s).currentProcess = a.currentProcess := by
  unfold wake
  split <;> rfl

lemma verhogen_good (h : a.Inv) (hc : a.currentProcess = some p)
    (hs : a.verhogen s = some a') : a'.Good := by
  unfold verhogen at hs
  split at hs
  · obtain rfl := Option.some.inj hs
    split
    · exact ((h.store s _).wake s).good_resume (by rwa [wake_currentProcess]) _
    · exact (h.store s _).good_resume hc _
  · contradiction

lemma passeren_good (h : a.Inv) (hc : a.currentProcess = some p)
    (hs : a.passeren m s = some a') : a'.Good := by
  unfold passeren at hs
  split at hs
  · rename_i ha
    dsimp only at hs
    split at hs
    · obtain ⟨c, hq, hs⟩ := Option.bind_eq_some_iff.mp hs
      obtain rfl := Option.some.inj (hc.symm.trans hq)
      obtain rfl := Option.some.inj hs
      exact (h.store s _).good_block hq ha _
    · obtain rfl := Option.some.inj hs
      exact (h.store s _).good_resume hc _
  · contradiction

lemma waitForClock_good (h : a.Inv) (hc : a.currentProcess = some p)
    (hs : a.waitForClock m = some a') : a'.Good := by
  refine passeren_good (a := { a with softBlockCount := a.softBlockCount + 1 }) ?_ hc hs
  exact ⟨h.homes, h.waits, h.shape⟩

lemma exceptionStateVec_good {type : Word} {old new : Addr} (h : a.Inv)
    (hc : a.currentProcess = some p)
    (hsafe : (∀ ht : type.toNat < trapTypes,
      ¬ (a.oldAreas p ⟨_, ht⟩ = null ∧ a.newAreas p ⟨_, ht⟩ = null)) → a.KillSafe p)
    (hs : a.exceptionStateVec m type old new = some a') : a'.Good := by
  unfold exceptionStateVec at hs
  obtain ⟨c, hq, hs⟩ := Option.bind_eq_some_iff.mp hs
  obtain rfl := Option.some.inj (hc.symm.trans hq)
  split at hs
  · rename_i ht
    dsimp only at hs
    split at hs
    · obtain rfl := Option.some.inj hs
      apply Inv.good_resume
      · exact ⟨h.homes, h.waits, h.shape⟩
      · exact hc
    · rename_i hv
      obtain rfl := Option.some.inj hs
      exact h.good_terminate hc (hsafe fun _ => hv)
  · contradiction

lemma getCpuTime_good (h : a.Inv) (hc : a.currentProcess = some p)
    (hs : a.getCpuTime m = some a') : a'.Good := by
  unfold getCpuTime at hs
  obtain ⟨c, hq, hs⟩ := Option.bind_eq_some_iff.mp hs
  obtain rfl := Option.some.inj (hc.symm.trans hq)
  obtain rfl := Option.some.inj hs
  apply Inv.good_resume
  · exact ⟨h.homes, h.waits, h.shape⟩
  · exact hc

lemma waitForIo_good {lineNum deviceNum termRead : Word} (h : a.Inv)
    (hc : a.currentProcess = some p)
    (hsafe : 0 < a.mem (m.semAddr (ioIndex lineNum deviceNum termRead).toNat) → a.KillSafe p)
    (hs : a.waitForIo m lineNum deviceNum termRead = some a') : a'.Good := by
  unfold waitForIo at hs
  dsimp only at hs
  obtain ⟨c, hq, hs⟩ := Option.bind_eq_some_iff.mp hs
  obtain rfl := Option.some.inj (hc.symm.trans hq)
  split at hs
  · obtain rfl := Option.some.inj hs
    apply Inv.good_block
    · exact ⟨h.homes, h.waits, h.shape⟩
    · exact hc
    · exact m.aligned_semAddr _
  · rename_i hv
    obtain rfl := Option.some.inj hs
    have hpos : 0 < a.mem (m.semAddr (ioIndex lineNum deviceNum termRead).toNat) := by
      simp only [Nuc.store, update_self] at hv
      omega
    exact (h.store _ _).good_terminate hc (hsafe hpos)

lemma passUpOrDie_good {area : OldArea} {type : Fin trapTypes} (h : a.Inv)
    (hc : a.currentProcess = some p)
    (hsafe : NoVector (a.oldAreas p) (a.newAreas p) type → a.KillSafe p)
    (hs : a.passUpOrDie m area type = some a') : a'.Good := by
  unfold passUpOrDie at hs
  obtain ⟨c, hq, hs⟩ := Option.bind_eq_some_iff.mp hs
  obtain rfl := Option.some.inj (hc.symm.trans hq)
  dsimp only at hs
  split at hs
  · rename_i hv
    obtain rfl := Option.some.inj hs
    exact h.good_terminate hc (hsafe hv)
  · obtain rfl := Option.some.inj hs
    apply Inv.good_resume
    · exact ⟨h.homes, h.waits, h.shape⟩
    · exact hc

lemma service_good {st : State} (h : a.Inv) (hc : a.currentProcess = some p)
    (hsafe : DiesInService m a.mem (a.oldAreas p) (a.newAreas p) st → a.KillSafe p)
    (hs : a.service m st = some a') : a'.Good := by
  unfold service at hs
  unfold DiesInService at hsafe
  split at hs
  · exact createProcess_good h hc hs
  rename_i h1
  rw [if_neg h1] at hsafe
  split at hs
  · rename_i h2
    rw [if_pos h2] at hsafe
    rw [hc] at hs
    obtain rfl := Option.some.inj hs
    exact h.good_terminate hc (hsafe trivial)
  rename_i h2
  rw [if_neg h2] at hsafe
  split at hs
  · exact verhogen_good h hc hs
  rename_i h3
  rw [if_neg h3] at hsafe
  split at hs
  · exact passeren_good h hc hs
  rename_i h4
  rw [if_neg h4] at hsafe
  split at hs
  · rename_i h5
    rw [if_pos h5] at hsafe
    exact exceptionStateVec_good h hc hsafe hs
  rename_i h5
  rw [if_neg h5] at hsafe
  split at hs
  · exact getCpuTime_good h hc hs
  rename_i h6
  rw [if_neg h6] at hsafe
  split at hs
  · exact waitForClock_good h hc hs
  rename_i h7
  rw [if_neg h7] at hsafe
  split at hs
  · rename_i h8
    rw [if_pos h8] at hsafe
    exact waitForIo_good h hc hsafe hs
  · rename_i h8
    rw [if_neg h8] at hsafe
    exact passUpOrDie_good h hc hsafe hs

lemma syscallHandler_good (h : a.Inv) (hc : a.currentProcess = some p)
    (hsafe : Dies m a.mem (a.oldAreas p) (a.newAreas p) (.syscall (a.oldArea .syscall)) →
      a.KillSafe p)
    (hs : a.syscallHandler m = some a') : a'.Good := by
  unfold syscallHandler at hs
  unfold Dies at hsafe
  dsimp only at hs hsafe
  split at hs
  · rename_i hu
    rw [if_pos hu] at hsafe
    refine passUpOrDie_good (p := p) ?_ ?_ ?_ hs
    · exact ⟨h.homes, h.waits, h.shape⟩
    · exact hc
    · exact hsafe
  · rename_i hu
    rw [if_neg hu] at hsafe
    refine service_good (p := p) ?_ ?_ ?_ hs
    · exact ⟨h.homes, h.waits, h.shape⟩
    · exact hc
    · exact hsafe

lemma pltInterrupt_good (h : a.Inv) (hs : a.pltInterrupt m = some a') : a'.Good := by
  unfold pltInterrupt at hs
  obtain ⟨p, hc, hs⟩ := Option.bind_eq_some_iff.mp hs
  obtain rfl := Option.some.inj hs
  have hy := h.yield hc
  exact Inv.good_dispatch ⟨hy.homes, hy.waits, hy.shape⟩

lemma itInterrupt_inv (h : a.Inv) (hs : a.itInterrupt m = some a') : a'.Inv := by
  unfold itInterrupt at hs
  dsimp only at hs
  split at hs
  · rename_i hn
    obtain rfl := Option.some.inj hs
    have hw := h.wakeMany _ hn
    exact ⟨hw.homes, hw.waits, hw.shape⟩
  · contradiction

lemma deviceInterrupt_inv {line : Fin devIntNum} {devNum : Fin numDevicesPerType} (h : a.Inv) :
    (a.deviceInterrupt m line devNum).Inv := by
  unfold deviceInterrupt
  dsimp only
  split
  · have hd := (h.store (deviceSem m line devNum (a.bus.devreg line devNum))
      (a.mem (deviceSem m line devNum (a.bus.devreg line devNum)) + 1)).deliver
      (deviceSem m line devNum (a.bus.devreg line devNum))
      (returnedStatus (line.val + initialDevLineNum) (a.bus.devreg line devNum))
    exact ⟨hd.homes, hd.waits, hd.shape⟩
  · exact h.store _ _

lemma exitInterrupt_good (h : a.Inv) : (a.exitInterrupt m).Good := by
  unfold exitInterrupt
  split
  · rename_i hc
    exact Inv.good_dispatch (by rwa [offCpu_of_none hc])
  · rename_i hc
    obtain ⟨p, hp⟩ := Option.ne_none_iff_exists'.mp hc
    exact h.good_resume hp _

lemma interruptHandler_good (h : a.Inv) (hs : a.interruptHandler m = some a') : a'.Good := by
  unfold interruptHandler at hs
  obtain ⟨lineNum, -, hs⟩ := Option.bind_eq_some_iff.mp hs
  split at hs
  · exact pltInterrupt_good h hs
  · split at hs
    · obtain ⟨b, hb, hs⟩ := Option.bind_eq_some_iff.mp hs
      obtain rfl := Option.some.inj hs
      exact exitInterrupt_good (itInterrupt_inv h hb)
    · obtain ⟨line, -, hs⟩ := Option.bind_eq_some_iff.mp hs
      obtain ⟨devNum, -, hs⟩ := Option.bind_eq_some_iff.mp hs
      split at hs
      · obtain rfl := Option.some.inj hs
        exact exitInterrupt_good (deviceInterrupt_inv h)
      · contradiction

/-- The events a process causes need a running process. -/
def FromProcess : Event → Prop
  | .interrupt _ => False
  | .device _ => False
  | _ => True

lemma step_good {e : Event} (h : a.Good) (hrun : FromProcess e → a.cpu.IsRunning)
    (hsafe : a.Safe m e) (hs : a.step m e = some a') : a'.Good := by
  have hcur : FromProcess e → ∃ p, a.currentProcess = some p := fun he =>
    Option.ne_none_iff_exists'.mp (h.onCpu.mp (hrun he))
  obtain ⟨⟨homes, waits, shape⟩, hon⟩ := h
  cases e with
  | syscall st =>
    obtain ⟨p, hc⟩ := hcur trivial
    refine syscallHandler_good (p := p) ?_ ?_ ?_ hs
    · exact ⟨homes, waits, shape⟩
    · exact hc
    · dsimp only
      rw [update_self]
      exact hsafe p hc
  | programTrap st =>
    obtain ⟨p, hc⟩ := hcur trivial
    refine passUpOrDie_good (p := p) ?_ ?_ ?_ hs
    · exact ⟨homes, waits, shape⟩
    · exact hc
    · exact hsafe p hc
  | tlbManagement st =>
    obtain ⟨p, hc⟩ := hcur trivial
    refine passUpOrDie_good (p := p) ?_ ?_ ?_ hs
    · exact ⟨homes, waits, shape⟩
    · exact hc
    · exact hsafe p hc
  | interrupt st =>
    refine interruptHandler_good ?_ hs
    exact ⟨homes, waits, shape⟩
  | device bus =>
    obtain rfl := Option.some.inj hs
    exact ⟨⟨homes, waits, shape⟩, hon⟩
  | writeInt s v =>
    obtain rfl := Option.some.inj hs
    exact ⟨⟨homes, waits, shape⟩, hon⟩
  | writeState s st =>
    obtain rfl := Option.some.inj hs
    exact ⟨⟨homes, waits, shape⟩, hon⟩

end Nuc

end Kaya
