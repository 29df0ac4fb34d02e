import Kaya.Nucleus.Conditions

/-!
# Which steps touch the devices

Only the device branch of `InterruptHandler` writes to a device register. Everything else
leaves the registers and the log of commands as they are.
-/

namespace Kaya

open Function

variable {m : Machine} {k k' k'' : Kernel} {e : Event}

/-- The device registers and the commands given are the same. -/
def SameDevices (k k' : Kernel) : Prop := k'.bus = k.bus ∧ k'.commands = k.commands

lemma SameDevices.refl (k : Kernel) : SameDevices k k := ⟨rfl, rfl⟩

lemma SameDevices.trans (h : SameDevices k k') (h' : SameDevices k' k'') : SameDevices k k'' :=
  ⟨h'.1.trans h.1, h'.2.trans h.2⟩

/-- A result, if there is one, has the devices of `k`. -/
def Quiet (k : Kernel) (x : Option Kernel) : Prop := ∀ k' ∈ x, SameDevices k k'

namespace Quiet

lemma none : Quiet k none := fun _ h => by cases h

lemma some (h : SameDevices k k') : Quiet k (some k') := by
  intro x hx
  obtain rfl := Option.some.inj hx
  exact h

lemma after {x : Option Kernel} (hx : Quiet k' x) (h : SameDevices k k') : Quiet k x :=
  fun y hy => h.trans (hx y hy)

lemma bind {β : Type} {o : Option β} {f : β → Option Kernel} (h : ∀ y, Quiet k (f y)) :
    Quiet k (o.bind f) := by
  intro k' hk
  obtain ⟨y, -, hy⟩ := Option.bind_eq_some_iff.mp hk
  exact h y k' hy

lemma andThen {o : Option Kernel} {f : Kernel → Option Kernel} (ho : Quiet k o)
    (hf : ∀ k', Quiet k' (f k')) : Quiet k (o.bind f) := by
  intro k' hk
  obtain ⟨y, hy, hk⟩ := Option.bind_eq_some_iff.mp hk
  exact (ho y hy).trans (hf y k' hk)

end Quiet

lemma scheduler_quiet (m : Machine) (k : Kernel) : Quiet k (scheduler m k) := by
  unfold scheduler
  apply Quiet.bind
  rintro ⟨newProcess, readyQ, procs⟩
  cases newProcess with
  | none =>
    dsimp only
    split_ifs
    all_goals exact .some ⟨rfl, rfl⟩
  | some p => exact .some ⟨rfl, rfl⟩

lemma incrementProcessTime_quiet (m : Machine) (process : PcbPtr) (k : Kernel) :
    Quiet k (incrementProcessTime m process k) := by
  unfold incrementProcessTime
  apply Quiet.bind
  intro p
  exact .some ⟨rfl, rfl⟩

lemma createProcess_quiet (newState : Addr) (k : Kernel) :
    Quiet k (createProcess newState k) := by
  unfold createProcess
  apply Quiet.bind
  rintro ⟨newProcess, pcbListH, procs⟩
  cases newProcess with
  | none => exact .some ⟨rfl, rfl⟩
  | some p =>
    apply Quiet.bind
    intro current
    apply Quiet.bind
    rintro ⟨readyQ, procs⟩
    exact .some ⟨rfl, rfl⟩

lemma takeOut_quiet (m : Machine) (p : PcbIx) (k : Kernel) : Quiet k (takeOut m p k) := by
  unfold takeOut
  extract_lets rest
  have hrest : ∀ k, Quiet k (rest k) := by
    intro k
    apply Quiet.bind
    rintro ⟨pcbListH, procs⟩
    exact .some ⟨rfl, rfl⟩
  split_ifs
  · apply Quiet.bind
    rintro ⟨q, procs⟩
    exact (hrest { k with procs }).after ⟨rfl, rfl⟩
  · apply Quiet.bind
    rintro ⟨q, readyQ, procs⟩
    exact (hrest { k with procs, readyQ }).after ⟨rfl, rfl⟩
  · apply Quiet.bind
    rintro ⟨q, procs, asl⟩
    exact (hrest { k with procs, asl, softBlockCount := k.softBlockCount - 1 }).after ⟨rfl, rfl⟩
  · apply Quiet.bind
    rintro ⟨q, procs, asl⟩
    apply Quiet.bind
    intro v
    exact (hrest { k with procs, asl, mem := update k.mem (k.procs.pSemAdd p) (v + 1) }).after
      ⟨rfl, rfl⟩

lemma killKids_quiet {kill : PcbIx → Kernel → Option Kernel} (h : ∀ p k, Quiet k (kill p k))
    (fuel : Nat) (p : PcbIx) (k : Kernel) : Quiet k (killKids kill fuel p k) := by
  induction fuel generalizing k with
  | zero => exact .none
  | succ fuel ih =>
    unfold killKids
    split_ifs
    · exact .some (.refl k)
    · apply Quiet.bind
      rintro ⟨child, procs⟩
      apply Quiet.bind
      intro child
      exact (Quiet.andThen (h child { k with procs }) ih).after ⟨rfl, rfl⟩

lemma honeyIKilledTheKids_quiet (m : Machine) (depth : Nat) (p : PcbIx) (k : Kernel) :
    Quiet k (honeyIKilledTheKids m depth p k) := by
  induction depth generalizing p k with
  | zero => exact .none
  | succ depth ih => exact .andThen (killKids_quiet ih _ p k) (takeOut_quiet m p)

lemma terminateProcess_quiet (m : Machine) (process : PcbPtr) (k : Kernel) :
    Quiet k (terminateProcess m process k) := by
  unfold terminateProcess
  apply Quiet.bind
  intro p
  exact .andThen (honeyIKilledTheKids_quiet m _ p k) (scheduler_quiet m)

lemma verhogen_quiet (semaddr : Addr) (k : Kernel) : Quiet k (verhogen semaddr k) := by
  unfold verhogen
  apply Quiet.bind
  intro v
  dsimp only
  split_ifs
  · apply Quiet.bind
    rintro ⟨p, procs, asl⟩
    dsimp only
    split_ifs
    · apply Quiet.bind
      rintro ⟨readyQ, procs⟩
      exact .some ⟨rfl, rfl⟩
    · exact .some ⟨rfl, rfl⟩
  · exact .some ⟨rfl, rfl⟩

lemma blockHelperFunction_quiet (m : Machine) (area : OldArea) (semaddr : Addr)
    (process : PcbPtr) (k : Kernel) : Quiet k (blockHelperFunction m area semaddr process k) := by
  unfold blockHelperFunction
  apply Quiet.andThen (incrementProcessTime_quiet m process k)
  intro k
  apply Quiet.bind
  intro p
  apply Quiet.bind
  rintro ⟨b, procs, asl⟩
  exact (scheduler_quiet m { k with procs, asl, currentProcess := none }).after ⟨rfl, rfl⟩

lemma passeren_quiet (m : Machine) (semaddr : Addr) (k : Kernel) :
    Quiet k (passeren m semaddr k) := by
  unfold passeren
  apply Quiet.bind
  intro v
  dsimp only
  split_ifs
  · exact (blockHelperFunction_quiet m _ _ _ _).after ⟨rfl, rfl⟩
  · exact .some ⟨rfl, rfl⟩

lemma exceptionStateVec_quiet (m : Machine) (type : Word) (old new : Addr) (k : Kernel) :
    Quiet k (exceptionStateVec m type old new k) := by
  unfold exceptionStateVec
  apply Quiet.bind
  intro current
  split_ifs
  · dsimp only
    split_ifs
    · exact .some ⟨rfl, rfl⟩
    · exact terminateProcess_quiet m _ k
  · exact .none

lemma getCpuTime_quiet (m : Machine) (k : Kernel) : Quiet k (getCpuTime m k) := by
  unfold getCpuTime
  apply Quiet.bind
  intro current
  exact .some ⟨rfl, rfl⟩

lemma waitForIo_quiet (m : Machine) (lineNum deviceNum termRead : Word) (k : Kernel) :
    Quiet k (waitForIo m lineNum deviceNum termRead k) := by
  unfold waitForIo
  apply Quiet.bind
  intro v
  dsimp only
  split_ifs
  · exact (blockHelperFunction_quiet m _ _ _ _).after ⟨rfl, rfl⟩
  · exact (terminateProcess_quiet m _ _).after ⟨rfl, rfl⟩

lemma passUpOrDie_quiet (m : Machine) (area : OldArea) (type : Fin trapTypes) (k : Kernel) :
    Quiet k (passUpOrDie m area type k) := by
  unfold passUpOrDie
  apply Quiet.bind
  intro current
  dsimp only
  split_ifs
  · exact terminateProcess_quiet m _ k
  · exact .some ⟨rfl, rfl⟩

lemma syscallSwitch_quiet (m : Machine) (a0 a1 a2 a3 : Word) (k : Kernel) :
    Quiet k (syscallSwitch m a0 a1 a2 a3 k) := by
  unfold syscallSwitch
  split_ifs
  · exact createProcess_quiet a1 k
  · exact terminateProcess_quiet m _ k
  · exact verhogen_quiet a1 k
  · exact passeren_quiet m a1 k
  · exact exceptionStateVec_quiet m a1 a2 a3 k
  · exact getCpuTime_quiet m k
  · exact (passeren_quiet m _ _).after ⟨rfl, rfl⟩
  · exact waitForIo_quiet m a1 a2 a3 k
  · exact passUpOrDie_quiet m _ _ k

lemma syscallHandler_quiet (m : Machine) (k : Kernel) : Quiet k (syscallHandler m k) := by
  unfold syscallHandler
  dsimp only
  split_ifs
  · exact (passUpOrDie_quiet m _ _ _).after ⟨rfl, rfl⟩
  · exact (syscallSwitch_quiet m _ _ _ _ _).after ⟨rfl, rfl⟩

lemma itLoop_quiet (sema4 : Addr) (fuel : Nat) (k : Kernel) : Quiet k (itLoop sema4 fuel k) := by
  induction fuel generalizing k with
  | zero => exact .none
  | succ fuel ih =>
    unfold itLoop
    split_ifs
    · apply Quiet.bind
      rintro ⟨p, procs, asl⟩
      apply Quiet.bind
      rintro ⟨readyQ, procs⟩
      exact (ih _).after ⟨rfl, rfl⟩
    · exact .some (.refl k)

lemma exitInterruptHandler_quiet (m : Machine) (k : Kernel) :
    Quiet k (exitInterruptHandler m k) := by
  unfold exitInterruptHandler
  split_ifs
  · exact scheduler_quiet m k
  · exact .some ⟨rfl, rfl⟩

lemma pltInterruptHandler_quiet (m : Machine) (k : Kernel) :
    Quiet k (pltInterruptHandler m k) := by
  unfold pltInterruptHandler
  apply Quiet.andThen (incrementProcessTime_quiet m _ k)
  intro k
  apply Quiet.bind
  rintro ⟨readyQ, procs⟩
  exact (scheduler_quiet m { k with readyQ, procs }).after ⟨rfl, rfl⟩

lemma itInterruptHandler_quiet (m : Machine) (k : Kernel) : Quiet k (itInterruptHandler m k) := by
  unfold itInterruptHandler
  apply Quiet.andThen (itLoop_quiet _ _ k)
  exact fun k => .some ⟨rfl, rfl⟩

/-! ### The device branch -/

/-- The register of a device, or of the transmitter of a terminal, with a new command. -/
def Device.give (d : Device) (c : Command) : Device :=
  if c.transm then d.setTransmCommand c.value else d.setCommand c.value

def Bus.give (bus : Bus) (c : Command) : Bus :=
  let regs := update (bus.devreg c.line) c.devNum ((bus.devreg c.line c.devNum).give c)
  { bus with devreg := update bus.devreg c.line regs }

/-- The command is written to the register it names and nothing else is written to a device. -/
def Gives (k k' : Kernel) (c : Command) : Prop :=
  k'.commands = k.commands ++ [c] ∧ k'.bus = k.bus.give c

lemma Gives.trans {c : Command} (h : Gives k k' c) (h' : SameDevices k' k'') : Gives k k'' c :=
  ⟨h'.2.trans h.1, h'.1.trans h.2⟩

lemma acknowledge_eq_give (line : Fin devIntNum) (devNum : Fin numDevicesPerType) (d : Device) :
    acknowledge (line.val + initialDevLineNum) d = d.give (ackCommand line devNum d) := by
  unfold acknowledge ackCommand Device.give
  by_cases ht : line.val + initialDevLineNum = termInt
  · by_cases hr : isReceive termInt d = true
    · simp [ht, hr, Device.setRecvCommand, Device.setCommand]
    · simp [ht, hr]
  · simp [ht]

lemma unblockWaiter_quiet (sema4 : Addr) (status : Word) (k : Kernel) :
    Quiet k (unblockWaiter sema4 status k) := by
  unfold unblockWaiter
  apply Quiet.bind
  rintro ⟨proc, procs, asl⟩
  cases proc with
  | none => exact .some ⟨rfl, rfl⟩
  | some p =>
    apply Quiet.bind
    rintro ⟨readyQ, procs⟩
    exact .some ⟨rfl, rfl⟩

variable {line : Fin devIntNum} {devNum : Fin numDevicesPerType}

lemma deviceInterruptHandler_gives (hk : deviceInterruptHandler m line devNum k = some k') :
    if k.mem (deviceSem m line devNum (k.bus.devreg line devNum)) < 0 then
      Gives k k' (ackCommand line devNum (k.bus.devreg line devNum))
    else SameDevices k k' := by
  unfold deviceSem
  unfold deviceInterruptHandler Kernel.store at hk
  simp only [update_self] at hk ⊢
  split_ifs at hk with hv
  · rw [if_pos (by omega)]
    obtain ⟨k₁, hk₁, hk⟩ := Option.bind_eq_some_iff.mp hk
    obtain rfl := Option.some.inj hk
    obtain ⟨hbus, hcommands⟩ := unblockWaiter_quiet _ _ _ _ hk₁
    constructor
    · change k₁.commands ++ _ = _
      rw [hcommands]
    · dsimp only
      rw [hbus, acknowledge_eq_give]
      rfl
  · rw [if_neg (by omega)]
    obtain rfl := Option.some.inj hk
    exact ⟨rfl, rfl⟩

/-- A step acknowledges the interrupt it serves if the semaphore of the device was below zero,
and touches no device otherwise. -/
lemma step_gives (hs : Serves k.bus line devNum e) (hk : step m k e = some k') :
    if k.mem (deviceSem m line devNum (k.bus.devreg line devNum)) < 0 then
      Gives k k' (ackCommand line devNum (k.bus.devreg line devNum))
    else SameDevices k k' := by
  cases e with
  | interrupt st =>
    obtain ⟨hline, hdev⟩ := hs
    obtain ⟨lineNum, hl, hline⟩ := Option.bind_eq_some_iff.mp hline
    have hplt : lineNum ≠ pltLine := by
      rintro rfl
      cases hline
    have hit : lineNum ≠ itLine := by
      rintro rfl
      cases hline
    unfold step interruptHandler at hk
    dsimp only at hk
    rw [update_self] at hk
    simp only [hl, hline, hdev, Option.bind_eq_bind, Option.bind_some, if_neg hplt, if_neg hit,
      devNum.isLt, dite_true] at hk
    obtain ⟨k₁, hk₁, hk⟩ := Option.bind_eq_some_iff.mp hk
    have hexit := exitInterruptHandler_quiet m k₁ k' hk
    have hgives := deviceInterruptHandler_gives hk₁
    dsimp only at hgives
    split_ifs at hgives ⊢
    · exact hgives.trans hexit
    · exact hgives.trans hexit
  | _ => exact hs.elim

/-- Only a transition that serves a device gives a command. -/
theorem step_commands (hs : servedDevice k.bus e = none) (hk : step m k e = some k') :
    k'.commands = k.commands := by
  cases e with
  | syscall st => exact (syscallHandler_quiet m _ k' hk).2
  | programTrap st => exact (passUpOrDie_quiet m _ _ _ k' hk).2
  | tlbManagement st => exact (passUpOrDie_quiet m _ _ _ k' hk).2
  | interrupt st =>
    unfold step interruptHandler at hk
    dsimp only at hk
    rw [update_self] at hk
    obtain ⟨lineNum, hl, hk⟩ := Option.bind_eq_some_iff.mp hk
    split_ifs at hk with hplt hit
    · exact (pltInterruptHandler_quiet m _ k' hk).2
    · obtain ⟨k₁, hk₁, hk⟩ := Option.bind_eq_some_iff.mp hk
      have hexit := exitInterruptHandler_quiet m k₁ k' hk
      exact hexit.2.trans (itInterruptHandler_quiet m _ k₁ hk₁).2
    · obtain ⟨line, hline, hk⟩ := Option.bind_eq_some_iff.mp hk
      obtain ⟨devNum, hdev, hk⟩ := Option.bind_eq_some_iff.mp hk
      split_ifs at hk with hlt
      · simp [servedDevice, hl, hline, hdev, hlt] at hs
      · cases hk
  | device bus =>
    obtain rfl := Option.some.inj hk
    rfl
  | writeInt s v =>
    obtain rfl := Option.some.inj hk
    rfl
  | writeState s st =>
    obtain rfl := Option.some.inj hk
    rfl

end Kaya
