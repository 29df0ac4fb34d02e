import Kaya.Nucleus.Initial

/-!
# What an event asks for

Whether an event makes the running process terminate, and which semaphore it is about, can
be read off the state before it.
-/

namespace Kaya

/-- `PassUpOrDie` terminates the caller: a vector is missing. -/
def NoVector (old new : Fin trapTypes → Addr) (exceptionType : Fin trapTypes) : Prop :=
  old exceptionType = null ∨ new exceptionType = null

/-- The syscall asked for with the registers `st` terminates the running process, whose
area arrays are `old` and `new`. -/
def DiesInService (m : Machine) (mem : Addr → Int) (old new : Fin trapTypes → Addr)
    (st : State) : Prop :=
  if st.sA0 = createProcessNum then False
  else if st.sA0 = terminateProcessNum then True
  else if st.sA0 = verhogenNum then False
  else if st.sA0 = passerenNum then False
  else if st.sA0 = exceptionStateVecNum then
    ∀ h : st.sA1.toNat < trapTypes, ¬ (old ⟨_, h⟩ = null ∧ new ⟨_, h⟩ = null)
  else if st.sA0 = getCpuTimeNum then False
  else if st.sA0 = waitForClockNum then False
  else if st.sA0 = waitForIoNum then
    0 < mem (m.semAddr (ioIndex st.sA1 st.sA2 st.sA3).toNat)
  else NoVector old new syscallException

/-- The event terminates the running process. -/
def Dies (m : Machine) (mem : Addr → Int) (old new : Fin trapTypes → Addr) : Event → Prop
  | .syscall st =>
    if userMode st ∧ minSyscall ≤ st.sA0 ∧ st.sA0 ≤ maxSyscall then
      NoVector old new programTrapException
    else DiesInService m mem old new st
  | .programTrap _ => NoVector old new programTrapException
  | .tlbManagement _ => NoVector old new tlbException
  | _ => False

instance (old new : Fin trapTypes → Addr) (type : Fin trapTypes) :
    Decidable (NoVector old new type) := inferInstanceAs (Decidable (_ ∨ _))

instance (m : Machine) (mem : Addr → Int) (old new : Fin trapTypes → Addr) (st : State) :
    Decidable (DiesInService m mem old new st) := by
  unfold DiesInService
  infer_instance

instance (m : Machine) (mem : Addr → Int) (old new : Fin trapTypes → Addr) (e : Event) :
    Decidable (Dies m mem old new e) := by
  cases e <;> unfold Dies <;> infer_instance

/-- The syscall is one of those `SyscallHandler` switches on. In user mode the first eight
are program traps. -/
def IsCall (st : State) : Prop := ¬ (userMode st ∧ minSyscall ≤ st.sA0 ∧ st.sA0 ≤ maxSyscall)

instance (st : State) : Decidable (IsCall st) := inferInstanceAs (Decidable (¬ _))

/-- The semaphore that SYS8 names. -/
def ioSem (m : Machine) (st : State) : Addr := m.semAddr (ioIndex st.sA1 st.sA2 st.sA3).toNat

/-- The semaphore the device branch V's. -/
def deviceSem (m : Machine) (line : Fin devIntNum) (devNum : Fin numDevicesPerType)
    (d : Device) : Addr :=
  let lineNum := line.val + initialDevLineNum
  m.semAddr (deviceIndex lineNum devNum (isReceive lineNum d))

/-- SYS3 on `s`. -/
def IsVerhogen (s : Addr) : Event → Prop
  | .syscall st => IsCall st ∧ st.sA0 = verhogenNum ∧ st.sA1 = s
  | _ => False

/-- SYS4 on `s`. -/
def IsPasseren (s : Addr) : Event → Prop
  | .syscall st => IsCall st ∧ st.sA0 = passerenNum ∧ st.sA1 = s
  | _ => False

/-- SYS7 -/
def IsWaitForClock : Event → Prop
  | .syscall st => IsCall st ∧ st.sA0 = waitForClockNum
  | _ => False

/-- SYS8 that takes the word at `s` for the semaphore of a device. -/
def IsWaitForIo (m : Machine) (s : Addr) : Event → Prop
  | .syscall st => IsCall st ∧ st.sA0 = waitForIoNum ∧ ioSem m st = s
  | _ => False

/-- A SYS8 names an element of `semaphoreArray`. -/
def NamesDevice (m : Machine) : Event → Prop
  | .syscall st => IsCall st → st.sA0 = waitForIoNum → m.InSemaphoreArray (ioSem m st)
  | _ => True

/-- An interrupt of the interval timer. -/
def IsTick : Event → Prop
  | .interrupt st => determineLine st.sCause = some itLine
  | _ => False

def IsInterrupt : Event → Prop
  | .interrupt _ => True
  | _ => False

/-- An interrupt of the processor local timer. -/
def IsPreemption : Event → Prop
  | .interrupt st => determineLine st.sCause = some pltLine
  | _ => False

/-- SYS1 -/
def IsCreate : Event → Prop
  | .syscall st => IsCall st ∧ st.sA0 = createProcessNum
  | _ => False

/-- SYS6 -/
def IsGetCpuTime : Event → Prop
  | .syscall st => IsCall st ∧ st.sA0 = getCpuTimeNum
  | _ => False

/-- The running process has to wait: SYS4, SYS7 or SYS8 takes the semaphore below zero. -/
def Blocks (m : Machine) (mem : Addr → Int) : Event → Prop
  | .syscall st => IsCall st ∧
      (st.sA0 = passerenNum ∧ mem st.sA1 - 1 < 0 ∨
        st.sA0 = waitForClockNum ∧ mem (m.semAddr itSemIndex) - 1 < 0 ∨
        st.sA0 = waitForIoNum ∧ mem (ioSem m st) - 1 < 0)
  | _ => False

/-- The turn of the running process is over. -/
def EndsTurn (m : Machine) (mem : Addr → Int) (e : Event) : Prop :=
  Blocks m mem e ∨ IsPreemption e

/-- The handler of the event calls `Scheduler`: after the end of a turn, or after an interrupt
that finds no process running. -/
def Switches (m : Machine) (mem : Addr → Int) (current : PcbPtr) (e : Event) : Prop :=
  EndsTurn m mem e ∨ current = none ∧ IsInterrupt e

/-- `UNINSTALLED` -/
def uninstalled : Word := 0
/-- `BUSY` -/
def busy : Word := 3

/-- A half of a terminal with this status has an interrupt pending. -/
def Pending (status : Word) : Prop :=
  status &&& maskTransChar ≠ ready ∧ status &&& maskTransChar ≠ busy ∧
    status &&& maskTransChar ≠ uninstalled

instance (status : Word) : Decidable (Pending status) := inferInstanceAs (Decidable (_ ∧ _))

/-- An interrupt the device branch serves for this device. -/
def Serves (bus : Bus) (line : Fin devIntNum) (devNum : Fin numDevicesPerType) : Event → Prop
  | .interrupt st => (determineLine st.sCause).bind deviceLine = some line ∧
      determineDevice (bus.interruptDev line) = some devNum.val
  | _ => False

/-- The device that the device branch serves. -/
def servedDevice (bus : Bus) : Event → Option (Fin devIntNum × Fin numDevicesPerType)
  | .interrupt st => do
    let line ← (determineLine st.sCause).bind deviceLine
    let devNum ← determineDevice (bus.interruptDev line)
    if h : devNum < numDevicesPerType then some (line, ⟨devNum, h⟩) else none
  | _ => none

lemma servedDevice_eq_some_iff {bus : Bus} {e : Event} {line : Fin devIntNum}
    {devNum : Fin numDevicesPerType} :
    servedDevice bus e = some (line, devNum) ↔ Serves bus line devNum e := by
  cases e with
  | interrupt st =>
    unfold servedDevice Serves
    constructor
    · intro h
      obtain ⟨l, hl, h⟩ := Option.bind_eq_some_iff.mp h
      obtain ⟨d, hd, h⟩ := Option.bind_eq_some_iff.mp h
      split_ifs at h with hlt
      obtain ⟨rfl, rfl⟩ := Prod.mk.inj (Option.some.inj h)
      exact ⟨hl, hd⟩
    · rintro ⟨hl, hd⟩
      simp [hl, hd]
  | _ => simp [servedDevice, Serves]

/-- An interrupt of a device with the semaphore `s`. -/
def IsDeviceDone (m : Machine) (bus : Bus) (s : Addr) (e : Event) : Prop :=
  ∃ line devNum, Serves bus line devNum e ∧
    deviceSem m line devNum (bus.devreg line devNum) = s

/-- The smallest `int`. -/
def intMin : Int := -2147483648
/-- The largest `int`. -/
def intMax : Int := 2147483647

/-- No `++` or `--` on a semaphore goes past the ends of an `int`. -/
def InRange (m : Machine) (bus : Bus) (mem : Addr → Int) : Event → Prop
  | .syscall st => IsCall st → (st.sA0 = verhogenNum → mem st.sA1 < intMax) ∧
      (st.sA0 = passerenNum → intMin < mem st.sA1) ∧
      (st.sA0 = waitForClockNum → intMin < mem (m.semAddr itSemIndex)) ∧
      (st.sA0 = waitForIoNum → intMin < mem (ioSem m st))
  | .interrupt st => ∀ line devNum, Serves bus line devNum (.interrupt st) →
      mem (deviceSem m line devNum (bus.devreg line devNum)) < intMax
  | .writeInt _ v => intMin ≤ v ∧ v ≤ intMax
  | _ => True

instance (s : Addr) (e : Event) : Decidable (IsVerhogen s e) := by
  cases e <;> unfold IsVerhogen <;> infer_instance

instance (s : Addr) (e : Event) : Decidable (IsPasseren s e) := by
  cases e <;> unfold IsPasseren <;> infer_instance

instance (m : Machine) (s : Addr) (e : Event) : Decidable (IsWaitForIo m s e) := by
  cases e <;> unfold IsWaitForIo <;> infer_instance

instance (e : Event) : Decidable (IsPreemption e) := by
  cases e <;> unfold IsPreemption <;> infer_instance

instance (e : Event) : Decidable (IsCreate e) := by
  cases e <;> unfold IsCreate <;> infer_instance

instance (e : Event) : Decidable (IsGetCpuTime e) := by
  cases e <;> unfold IsGetCpuTime <;> infer_instance

instance (m : Machine) (mem : Addr → Int) (e : Event) : Decidable (Blocks m mem e) := by
  cases e <;> unfold Blocks <;> infer_instance

instance (m : Machine) (mem : Addr → Int) (e : Event) : Decidable (EndsTurn m mem e) :=
  inferInstanceAs (Decidable (_ ∨ _))

instance (e : Event) : Decidable (IsInterrupt e) := by
  cases e <;> unfold IsInterrupt <;> infer_instance

instance (m : Machine) (mem : Addr → Int) (current : PcbPtr) (e : Event) :
    Decidable (Switches m mem current e) := inferInstanceAs (Decidable (_ ∨ _))

instance (bus : Bus) (line : Fin devIntNum) (devNum : Fin numDevicesPerType) (e : Event) :
    Decidable (Serves bus line devNum e) := by
  cases e <;> unfold Serves <;> infer_instance

instance (m : Machine) (bus : Bus) (mem : Addr → Int) (e : Event) :
    Decidable (InRange m bus mem e) := by
  cases e <;> unfold InRange <;> infer_instance

end Kaya
