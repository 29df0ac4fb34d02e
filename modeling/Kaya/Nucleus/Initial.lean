import Kaya.Nucleus.Interrupts

/-!
# `initial.c` and the steps of the machine

`main` sets the nucleus up from whatever memory holds at power-on. Afterwards the nucleus
is entered at an exception or an interrupt, with the state of the processor in the old
area. Between two such events the running process may write its own memory and the devices
may change their registers.
-/

namespace Kaya

open Function

/-- The processor state `main` gives to the initial process. -/
def initialState (m : Machine) (st : State) : State :=
  let st := (st.setSp (m.ramtop - pageSize)).setT9 m.test
  { st with
    sPc := m.test
    sStatus := allOff ||| initVmOff ||| interruptsUnmasked ||| kernelOn ||| teBitOn }

/-- `semaphoreArray[i] = 0` for the first `n` indices. -/
def zeroSemaphores (m : Machine) : Nat → (Addr → Int) → Addr → Int
  | 0, mem => mem
  | n + 1, mem => update (zeroSemaphores m n mem) (m.semAddr n) 0

def main (m : Machine) (k : Kernel) : Option Kernel := do
  let (pcbListH, procs) ← initPcbs k.procs
  let asl ← initASL k.asl
  let k := { k with
    pcbListH, procs, asl
    processCount := 0
    softBlockCount := 0
    currentProcess := none
    processStartTime := 0
    readyQ := mkEmptyProcQ
    mem := zeroSemaphores m semCount k.mem }
  let (initialProc, pcbListH, procs) ← allocPcb k.pcbListH k.procs
  let p ← initialProc
  let procs := { procs with pS := update procs.pS p (initialState m (procs.pS p)) }
  let (readyQ, procs) ← insertProcQ k.readyQ (some p) procs
  let k := { k with pcbListH, procs, readyQ, processCount := k.processCount + 1 }
  scheduler m (ldit m intervalTime k)

/-- What happens to the nucleus. The processor state of an exception or an interrupt is
what the hardware stores in the old area. -/
inductive Event
  | syscall (st : State)
  | programTrap (st : State)
  | tlbManagement (st : State)
  | interrupt (st : State)
  | device (bus : Bus)
  | writeInt (a : Addr) (v : Int)
  | writeState (a : Addr) (st : State)

/-- The address of an element of `semaphoreArray`. -/
def Machine.InSemaphoreArray (m : Machine) (a : Addr) : Prop :=
  ∃ i < semCount, a = m.semAddr i

def Cpu.IsRunning : Cpu → Prop
  | .running _ => True
  | _ => False

/-- The processor can take an interrupt on this line. The processor local timer only
counts with the timer enable bit on, which a wait has turned off. -/
def Cpu.Takes (lineNum : Nat) : Cpu → Prop
  | .running _ => True
  | .waiting status => lineNum ≠ pltLine ∨ status &&& teBitOn ≠ 0
  | _ => False

/-- The events the hardware and the running process can cause in a state. An interrupt is
raised by a pending line other than line 0, and on a device line by one of its devices. A
process does not write the data of the nucleus. -/
def Deliverable (m : Machine) (k : Kernel) : Event → Prop
  | .syscall _ | .programTrap _ | .tlbManagement _ => k.cpu.IsRunning
  | .interrupt st => ∃ lineNum, determineLine st.sCause = some lineNum ∧ 0 < lineNum ∧
      k.cpu.Takes lineNum ∧
      ∀ line, deviceLine lineNum = some line → determineDevice (k.bus.interruptDev line) ≠ none
  | .device _ => True
  | .writeInt a _ => k.cpu.IsRunning ∧ ¬ m.InSemaphoreArray a
  | .writeState _ _ => k.cpu.IsRunning

/-- One step of the machine. -/
def step (m : Machine) (k : Kernel) : Event → Option Kernel
  | .syscall st => syscallHandler m { k with oldArea := update k.oldArea .syscall st }
  | .programTrap st => programTrapHandler m { k with oldArea := update k.oldArea .programTrap st }
  | .tlbManagement st =>
    tlbManagementHandler m { k with oldArea := update k.oldArea .tlbManagement st }
  | .interrupt st => interruptHandler m { k with oldArea := update k.oldArea .interrupt st }
  | .device bus => some { k with bus }
  | .writeInt a v => some (k.store a v)
  | .writeState a st => some { k with states := update k.states a st }

end Kaya
