import Kaya.Nucleus.Scheduler

/-!
# `exceptions.c`

The handlers of SYSCALL, program trap and TLB management exceptions and the eight
syscalls. `CopyState` copies every field, so it is assignment of states.
-/

namespace Kaya

open Function

def incrementProcessTime (m : Machine) (process : PcbPtr) (k : Kernel) : Option Kernel := do
  let (endTime, k) := stck m k
  let p ← process
  let time := k.procs.pTotalTime p + (endTime - k.processStartTime)
  return { k with procs := { k.procs with pTotalTime := update k.procs.pTotalTime p time } }

/-- SYS1 -/
def createProcess (newState : Addr) (k : Kernel) : Option Kernel := do
  let (newProcess, pcbListH, procs) ← allocPcb k.pcbListH k.procs
  let k := { k with pcbListH, procs }
  match newProcess with
  | none =>
    let k := k.setSyscallV0 sys1Fail
    return loadState (k.oldArea .syscall) k
  | some p =>
    let procs := { k.procs with pS := update k.procs.pS p (k.states newState) }
    let current ← k.currentProcess
    let procs := insertChild current p procs
    let (readyQ, procs) ← insertProcQ k.readyQ (some p) procs
    let k := { k with procs, readyQ, processCount := k.processCount + 1 }
    let k := k.setSyscallV0 sys1Success
    return loadState (k.oldArea .syscall) k

/-- `HoneyIKilledTheKids` after its loop: takes `p` out of where it is and frees it. -/
def takeOut (m : Machine) (p : PcbIx) (k : Kernel) : Option Kernel := do
  let k ←
    if some p = k.currentProcess then do
      let (_, procs) ← outChild p k.procs
      some { k with procs }
    else if k.procs.pSemAdd p = null then do
      let (_, readyQ, procs) ← outProcQ k.readyQ p k.procs
      some { k with readyQ, procs }
    else do
      let semaddr := k.procs.pSemAdd p
      let firstDevice := m.semAddr 0
      let lastDevice := m.semAddr (semCount - 2)
      let (_, procs, asl) ← outBlocked p k.procs k.asl
      let k := { k with procs, asl }
      if firstDevice ≤ semaddr ∧ semaddr ≤ lastDevice then
        some { k with softBlockCount := k.softBlockCount - 1 }
      else do
        let v ← k.load semaddr
        some (k.store semaddr (v + 1))
  let k := { k with processCount := k.processCount - 1 }
  let (pcbListH, procs) ← freePcb k.pcbListH (some p) k.procs
  return { k with pcbListH, procs }

/-- `while(!(emptyChild(p))) HoneyIKilledTheKids(removeChild(p));` with the recursive call
as a parameter. -/
def killKids (kill : PcbIx → Kernel → Option Kernel) : Nat → PcbIx → Kernel → Option Kernel
  | 0, _, _ => none
  | fuel + 1, p, k =>
    if emptyChild p k.procs then some k
    else do
      let (child, procs) ← removeChild p k.procs
      let child ← child
      let k ← kill child { k with procs }
      killKids kill fuel p k

/-- Neither the children of one process nor the generations of processes are more than
the PCBs, which bounds the loop and the recursion. -/
def honeyIKilledTheKids (m : Machine) : Nat → PcbIx → Kernel → Option Kernel
  | 0, _, _ => none
  | depth + 1, p, k => do
    let k ← killKids (honeyIKilledTheKids m depth) (maxProc + 1) p k
    takeOut m p k

/-- SYS2 -/
def terminateProcess (m : Machine) (process : PcbPtr) (k : Kernel) : Option Kernel := do
  let p ← process
  let k ← honeyIKilledTheKids m (maxProc + 1) p k
  scheduler m k

/-- SYS3 -/
def verhogen (semaddr : Addr) (k : Kernel) : Option Kernel := do
  let v ← k.load semaddr
  let k := k.store semaddr (v + 1)
  let k ←
    if v + 1 ≤ 0 then do
      let (p, procs, asl) ← removeBlocked semaddr k.procs k.asl
      let k := { k with procs, asl }
      if p ≠ none then do
        let (readyQ, procs) ← insertProcQ k.readyQ p k.procs
        some { k with readyQ, procs }
      else some k
    else some k
  return loadState (k.oldArea .syscall) k

def blockHelperFunction (m : Machine) (area : OldArea) (semaddr : Addr) (process : PcbPtr)
    (k : Kernel) : Option Kernel := do
  let k ← incrementProcessTime m process k
  let p ← process
  let procs := { k.procs with pS := update k.procs.pS p (k.oldArea area) }
  let (_, procs, asl) ← insertBlocked semaddr p procs k.asl
  scheduler m { k with procs, asl, currentProcess := none }

/-- SYS4 -/
def passeren (m : Machine) (semaddr : Addr) (k : Kernel) : Option Kernel := do
  let v ← k.load semaddr
  let k := k.store semaddr (v - 1)
  if v - 1 < 0 then
    blockHelperFunction m .syscall semaddr k.currentProcess k
  else
    return loadState (k.oldArea .syscall) k

/-- SYS5. A type that is not an index of the area arrays is out of bounds. -/
def exceptionStateVec (m : Machine) (exceptionType : Word) (oldStateLoc newStateLoc : Addr)
    (k : Kernel) : Option Kernel := do
  let current ← k.currentProcess
  if h : exceptionType.toNat < trapTypes then
    let type : Fin trapTypes := ⟨exceptionType.toNat, h⟩
    let old := k.procs.oldAreas current
    let new := k.procs.newAreas current
    if old type = null ∧ new type = null then
      let procs := { k.procs with
        oldAreas := update k.procs.oldAreas current (update old type oldStateLoc)
        newAreas := update k.procs.newAreas current (update new type newStateLoc) }
      return loadState (k.oldArea .syscall) { k with procs }
    else
      terminateProcess m (some current) k
  else
    none

/-- SYS6 -/
def getCpuTime (m : Machine) (k : Kernel) : Option Kernel := do
  let current ← k.currentProcess
  let time := k.procs.pTotalTime current
  let (endTime, k) := stck m k
  let k := k.setSyscallV0 (time + (endTime - k.processStartTime))
  return loadState (k.oldArea .syscall) k

/-- SYS7 -/
def waitForClock (m : Machine) (k : Kernel) : Option Kernel :=
  passeren m (m.semAddr itSemIndex) { k with softBlockCount := k.softBlockCount + 1 }

/-- The index `WaitForIo` computes, with the wrap-around of the machine. -/
def ioIndex (lineNum deviceNum termRead : Word) : Word :=
  let index := (lineNum - BitVec.ofNat 32 initialDevLineNum) * BitVec.ofNat 32 numDevicesPerType
    + deviceNum
  if termRead ≠ 0 then index + BitVec.ofNat 32 numDevicesPerType else index

/-- SYS8. The index is not checked, so one outside `semaphoreArray` names a word somewhere else
in memory. Neither branch returns, so the status read that follows them in the source is never
reached. -/
def waitForIo (m : Machine) (lineNum deviceNum termRead : Word) (k : Kernel) :
    Option Kernel := do
  let semaddr := m.semAddr (ioIndex lineNum deviceNum termRead).toNat
  let v ← k.load semaddr
  let k := k.store semaddr (v - 1)
  if v - 1 < 0 then
    let k := { k with softBlockCount := k.softBlockCount + 1 }
    blockHelperFunction m .syscall semaddr k.currentProcess k
  else
    terminateProcess m k.currentProcess k

def passUpOrDie (m : Machine) (area : OldArea) (exceptionType : Fin trapTypes) (k : Kernel) :
    Option Kernel := do
  let current ← k.currentProcess
  let old := k.procs.oldAreas current exceptionType
  let new := k.procs.newAreas current exceptionType
  if old = null ∨ new = null then
    terminateProcess m (some current) k
  else
    let k := { k with states := update k.states old (k.oldArea area) }
    let k := { k with procs := { k.procs with pS := update k.procs.pS current (k.states new) } }
    return loadState (k.states new) k

def programTrapHandler (m : Machine) (k : Kernel) : Option Kernel :=
  passUpOrDie m .programTrap programTrapException k

def tlbManagementHandler (m : Machine) (k : Kernel) : Option Kernel :=
  passUpOrDie m .tlbManagement tlbException k

/-- `userMode` of `SyscallHandler` -/
def userMode (st : State) : Bool := st.sStatus &&& kernelOff ≠ 0

/-- The `switch` of `SyscallHandler` on the syscall number in `a0`. -/
def syscallSwitch (m : Machine) (a0 a1 a2 a3 : Word) (k : Kernel) : Option Kernel :=
  if a0 = createProcessNum then createProcess a1 k
  else if a0 = terminateProcessNum then terminateProcess m k.currentProcess k
  else if a0 = verhogenNum then verhogen a1 k
  else if a0 = passerenNum then passeren m a1 k
  else if a0 = exceptionStateVecNum then exceptionStateVec m a1 a2 a3 k
  else if a0 = getCpuTimeNum then getCpuTime m k
  else if a0 = waitForClockNum then waitForClock m k
  else if a0 = waitForIoNum then waitForIo m a1 a2 a3 k
  else passUpOrDie m .syscall syscallException k

def syscallHandler (m : Machine) (k : Kernel) : Option Kernel :=
  let syscallOld := k.oldArea .syscall
  let a0 := syscallOld.sA0
  if userMode syscallOld ∧ minSyscall ≤ a0 ∧ a0 ≤ maxSyscall then
    let trap := { syscallOld with sCause := allOff ||| priviledgedInstr }
    programTrapHandler m { k with oldArea := update k.oldArea .programTrap trap }
  else
    let k := { k with oldArea := update k.oldArea .syscall syscallOld.advancePc }
    syscallSwitch m a0 syscallOld.sA1 syscallOld.sA2 syscallOld.sA3 k

end Kaya
