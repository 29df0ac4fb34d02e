import Kaya.Lib.Forest
import Kaya.Nucleus.Conditions

/-!
# The nucleus on lists

What the nucleus is for, without the links of its tables: the PCBs are on a free list, on
a ready list, on the list of one semaphore each or running, and form a tree. The operations
here move them between these lists.
-/

namespace Kaya

open Function Linked

structure Nuc where
  free : List PcbIx
  ready : List PcbIx
  blocked : Addr → List PcbIx
  tree : Forest PcbIx
  currentProcess : PcbPtr
  processCount : Int
  softBlockCount : Int
  pS : PcbIx → State
  pSemAdd : PcbIx → Addr
  pTotalTime : PcbIx → Word
  oldAreas : PcbIx → Fin trapTypes → Addr
  newAreas : PcbIx → Fin trapTypes → Addr
  processStartTime : Word
  mem : Addr → Int
  states : Addr → State
  oldArea : OldArea → State
  bus : Bus
  commands : List Command
  todReads : Nat
  timer : Word
  intervalTimer : Word
  cpu : Cpu

/-- An address an `int` can have. -/
def Aligned (s : Addr) : Prop := s.toNat % 4 = 0

instance (s : Addr) : Decidable (Aligned s) := inferInstanceAs (Decidable (_ = _))

lemma Machine.aligned_semAddr (m : Machine) (i : Nat) : Aligned (m.semAddr i) := by
  have ha := m.aligned
  unfold Aligned Machine.semAddr
  rw [BitVec.toNat_add, BitVec.toNat_ofNat]
  omega

/-- The range of addresses `HoneyIKilledTheKids` takes for device semaphores. -/
def Machine.IsDeviceSem (m : Machine) (s : Addr) : Prop :=
  m.semAddr 0 ≤ s ∧ s ≤ m.semAddr (semCount - 2)

instance (m : Machine) (s : Addr) : Decidable (m.IsDeviceSem s) :=
  inferInstanceAs (Decidable (_ ∧ _))

namespace Nuc

def store (a : Nuc) (s : Addr) (v : Int) : Nuc := { a with mem := update a.mem s v }

def setSyscallV0 (a : Nuc) (v : Word) : Nuc :=
  { a with oldArea := update a.oldArea .syscall ((a.oldArea .syscall).setV0 v) }

/-- The processor goes to a process in the state `st`. -/
def resume (a : Nuc) (st : State) : Nuc := { a with cpu := .running st }

def now (m : Machine) (a : Nuc) : Word := (m.tod a.todReads).sdiv m.timescale

/-- The first ready process gets the processor. -/
def dispatch (m : Machine) (a : Nuc) : Nuc :=
  match a.ready with
  | [] =>
    if a.processCount = 0 then { a with currentProcess := none, cpu := .halted }
    else if a.softBlockCount = 0 then { a with currentProcess := none, cpu := .panicked }
    else { a with
      currentProcess := none
      timer := suspendTime
      cpu := .waiting (allOff ||| currInterruptsUnmasked ||| interruptMaskOn) }
  | p :: rest => { a with
      ready := rest
      currentProcess := some p
      timer := pltTime
      todReads := a.todReads + 1
      processStartTime := a.now m
      cpu := .running (a.pS p) }

/-- The turn of `p` so far is added to its time. -/
def charge (m : Machine) (p : PcbIx) (a : Nuc) : Nuc := { a with
  todReads := a.todReads + 1
  pTotalTime := update a.pTotalTime p (a.pTotalTime p + (a.now m - a.processStartTime)) }

/-- The process that has waited longest becomes ready. -/
def wake (s : Addr) (a : Nuc) : Nuc :=
  match a.blocked s with
  | [] => a
  | p :: rest => { a with blocked := update a.blocked s rest, ready := a.ready ++ [p] }

/-- The running process `p` waits on `s` and another one runs. -/
def block (m : Machine) (st : State) (s : Addr) (p : PcbIx) (a : Nuc) : Nuc :=
  let a := a.charge m p
  dispatch m { a with
    pS := update a.pS p st
    pSemAdd := update a.pSemAdd p s
    blocked := update a.blocked s (a.blocked s ++ [p])
    currentProcess := none }

/-- The child `p` of the running process `c`, from the head of the free list. -/
def newChild (newState : Addr) (c p : PcbIx) (rest : List PcbIx) (a : Nuc) : Nuc := { a with
  free := rest
  ready := a.ready ++ [p]
  tree := a.tree.insertChild c p
  processCount := a.processCount + 1
  pS := update a.pS p (a.states newState)
  pSemAdd := update a.pSemAdd p null
  pTotalTime := update a.pTotalTime p 0
  oldAreas := update a.oldAreas p fun _ => null
  newAreas := update a.newAreas p fun _ => null }

def createProcess (newState : Addr) (a : Nuc) : Option Nuc :=
  match a.free with
  | [] =>
    let a := a.setSyscallV0 sys1Fail
    some (a.resume (a.oldArea .syscall))
  | p :: rest => do
    let c ← a.currentProcess
    let a := (a.newChild newState c p rest).setSyscallV0 sys1Success
    return a.resume (a.oldArea .syscall)

/-- A ready or blocked process leaves its list and becomes free. -/
def takeOut (m : Machine) (a : Nuc) (p : PcbIx) : Nuc :=
  let s := a.pSemAdd p
  let a :=
    if s = null then { a with ready := a.ready.erase p }
    else
      let a := { a with blocked := update a.blocked s ((a.blocked s).erase p) }
      if m.IsDeviceSem s then { a with softBlockCount := a.softBlockCount - 1 }
      else a.store s (a.mem s + 1)
  { a with processCount := a.processCount - 1, free := a.free ++ [p] }

/-- The running process `p` is gone, with everything below it in the tree. -/
def kill (m : Machine) (p : PcbIx) (a : Nuc) : Nuc :=
  let a := (a.tree.kids p).postorder.foldl (takeOut m) a
  { a with
    tree := a.tree.erase p
    processCount := a.processCount - 1
    free := a.free ++ [p] }

def terminate (m : Machine) (p : PcbIx) (a : Nuc) : Nuc := dispatch m (a.kill m p)

def verhogen (s : Addr) (a : Nuc) : Option Nuc :=
  if Aligned s then
    let a := a.store s (a.mem s + 1)
    let a := if a.mem s ≤ 0 then a.wake s else a
    some (a.resume (a.oldArea .syscall))
  else none

def passeren (m : Machine) (s : Addr) (a : Nuc) : Option Nuc :=
  if Aligned s then
    let a := a.store s (a.mem s - 1)
    if a.mem s < 0 then do
      let p ← a.currentProcess
      return a.block m (a.oldArea .syscall) s p
    else some (a.resume (a.oldArea .syscall))
  else none

def exceptionStateVec (m : Machine) (exceptionType : Word) (oldStateLoc newStateLoc : Addr)
    (a : Nuc) : Option Nuc := do
  let p ← a.currentProcess
  if h : exceptionType.toNat < trapTypes then
    let type : Fin trapTypes := ⟨exceptionType.toNat, h⟩
    let old := a.oldAreas p
    let new := a.newAreas p
    if old type = null ∧ new type = null then
      let a := { a with
        oldAreas := update a.oldAreas p (update old type oldStateLoc)
        newAreas := update a.newAreas p (update new type newStateLoc) }
      return a.resume (a.oldArea .syscall)
    else return a.terminate m p
  else none

def getCpuTime (m : Machine) (a : Nuc) : Option Nuc := do
  let p ← a.currentProcess
  let time := a.pTotalTime p + (a.now m - a.processStartTime)
  let a := { a with todReads := a.todReads + 1 }
  let a := a.setSyscallV0 time
  return a.resume (a.oldArea .syscall)

def waitForClock (m : Machine) (a : Nuc) : Option Nuc :=
  passeren m (m.semAddr itSemIndex) { a with softBlockCount := a.softBlockCount + 1 }

def waitForIo (m : Machine) (lineNum deviceNum termRead : Word) (a : Nuc) : Option Nuc := do
  let s := m.semAddr (ioIndex lineNum deviceNum termRead).toNat
  let a := a.store s (a.mem s - 1)
  let p ← a.currentProcess
  if a.mem s < 0 then
    let a := { a with softBlockCount := a.softBlockCount + 1 }
    return a.block m (a.oldArea .syscall) s p
  else return a.terminate m p

def passUpOrDie (m : Machine) (area : OldArea) (exceptionType : Fin trapTypes) (a : Nuc) :
    Option Nuc := do
  let p ← a.currentProcess
  let old := a.oldAreas p exceptionType
  let new := a.newAreas p exceptionType
  if old = null ∨ new = null then return a.terminate m p
  else
    let a := { a with states := update a.states old (a.oldArea area) }
    let a := { a with pS := update a.pS p (a.states new) }
    return a.resume (a.states new)

/-- The syscall the caller's registers `st` ask for. -/
def service (m : Machine) (st : State) (a : Nuc) : Option Nuc :=
  if st.sA0 = createProcessNum then a.createProcess st.sA1
  else if st.sA0 = terminateProcessNum then a.currentProcess.map fun p => a.terminate m p
  else if st.sA0 = verhogenNum then a.verhogen st.sA1
  else if st.sA0 = passerenNum then a.passeren m st.sA1
  else if st.sA0 = exceptionStateVecNum then a.exceptionStateVec m st.sA1 st.sA2 st.sA3
  else if st.sA0 = getCpuTimeNum then a.getCpuTime m
  else if st.sA0 = waitForClockNum then a.waitForClock m
  else if st.sA0 = waitForIoNum then a.waitForIo m st.sA1 st.sA2 st.sA3
  else a.passUpOrDie m .syscall syscallException

def syscallHandler (m : Machine) (a : Nuc) : Option Nuc :=
  let st := a.oldArea .syscall
  if userMode st ∧ minSyscall ≤ st.sA0 ∧ st.sA0 ≤ maxSyscall then
    let trap := { st with sCause := allOff ||| priviledgedInstr }
    passUpOrDie m .programTrap programTrapException
      { a with oldArea := update a.oldArea .programTrap trap }
  else service m st { a with oldArea := update a.oldArea .syscall st.advancePc }

def pltInterrupt (m : Machine) (a : Nuc) : Option Nuc := do
  let p ← a.currentProcess
  let a := a.charge m p
  return dispatch m { a with ready := a.ready ++ [p] }

/-- Everyone who waits for the clock becomes ready, provided the semaphore counts them. -/
def itInterrupt (m : Machine) (a : Nuc) : Option Nuc :=
  let s := m.semAddr itSemIndex
  let n := (-a.mem s).toNat
  if n ≤ (a.blocked s).length then
    some { a with
      ready := a.ready ++ (a.blocked s).take n
      blocked := update a.blocked s ((a.blocked s).drop n)
      softBlockCount := a.softBlockCount - n
      mem := update a.mem s 0
      intervalTimer := intervalTime * m.timescale }
  else none

/-- The process that waits for the device becomes ready with the status in `v0`. -/
def deliver (s : Addr) (status : Word) (a : Nuc) : Nuc :=
  match a.blocked s with
  | [] => a
  | p :: rest => { a with
      blocked := update a.blocked s rest
      ready := a.ready ++ [p]
      softBlockCount := a.softBlockCount - 1
      pS := update a.pS p ((a.pS p).setV0 status) }

def acknowledge (line : Fin devIntNum) (devNum : Fin numDevicesPerType) (a : Nuc) : Nuc :=
  let lineNum := line.val + initialDevLineNum
  let d := a.bus.devreg line devNum
  let regs := update (a.bus.devreg line) devNum (Kaya.acknowledge lineNum d)
  { a with
    bus := { a.bus with devreg := update a.bus.devreg line regs }
    commands := a.commands ++ [ackCommand line devNum d] }

def deviceInterrupt (m : Machine) (line : Fin devIntNum) (devNum : Fin numDevicesPerType)
    (a : Nuc) : Nuc :=
  let d := a.bus.devreg line devNum
  let s := deviceSem m line devNum d
  let a := a.store s (a.mem s + 1)
  if a.mem s ≤ 0 then
    (a.deliver s (returnedStatus (line.val + initialDevLineNum) d)).acknowledge line devNum
  else a

def exitInterrupt (m : Machine) (a : Nuc) : Nuc :=
  if a.currentProcess = none then dispatch m a else a.resume (a.oldArea .interrupt)

def interruptHandler (m : Machine) (a : Nuc) : Option Nuc := do
  let lineNum ← determineLine (a.oldArea .interrupt).sCause
  if lineNum = pltLine then a.pltInterrupt m
  else if lineNum = itLine then
    let a ← a.itInterrupt m
    return a.exitInterrupt m
  else do
    let line ← deviceLine lineNum
    let devNum ← determineDevice (a.bus.interruptDev line)
    if h : devNum < numDevicesPerType then
      return (a.deviceInterrupt m line ⟨devNum, h⟩).exitInterrupt m
    else none

def step (m : Machine) (a : Nuc) : Event → Option Nuc
  | .syscall st => syscallHandler m { a with oldArea := update a.oldArea .syscall st }
  | .programTrap st => passUpOrDie m .programTrap programTrapException
      { a with oldArea := update a.oldArea .programTrap st }
  | .tlbManagement st => passUpOrDie m .tlbManagement tlbException
      { a with oldArea := update a.oldArea .tlbManagement st }
  | .interrupt st => interruptHandler m { a with oldArea := update a.oldArea .interrupt st }
  | .device bus => some { a with bus }
  | .writeInt s v => some (a.store s v)
  | .writeState s st => some { a with states := update a.states s st }

end Nuc

end Kaya
