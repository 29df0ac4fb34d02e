import Kaya.Nucleus.Conditions

/-!
# The idle branch of `Scheduler`

In its idle branch `Scheduler` opens the interrupts first and settles `currentProcess` and the
local timer afterwards. Here the branch is taken apart: the handlers are run up to their call of
`Scheduler`, `Scheduler` up to `setSTATUS`, and an interrupt can come before each statement
that follows.
-/

namespace Kaya

open Function

/-- How a handler ends. -/
inductive Outcome
  | calls (k : Kernel)  -- it calls `Scheduler`
  | done (k : Kernel)

/-! ### The handlers up to their call of `Scheduler` -/

namespace ToScheduler

def terminateProcess (m : Machine) (process : PcbPtr) (k : Kernel) : Option Outcome := do
  let p ← process
  let k ← honeyIKilledTheKids m (maxProc + 1) p k
  return .calls k

def blockHelperFunction (m : Machine) (area : OldArea) (semaddr : Addr) (process : PcbPtr)
    (k : Kernel) : Option Outcome := do
  let k ← incrementProcessTime m process k
  let p ← process
  let procs := { k.procs with pS := update k.procs.pS p (k.oldArea area) }
  let (_, procs, asl) ← insertBlocked semaddr p procs k.asl
  return .calls { k with procs, asl, currentProcess := none }

/-- SYS4 -/
def passeren (m : Machine) (semaddr : Addr) (k : Kernel) : Option Outcome := do
  let v ← k.load semaddr
  let k := k.store semaddr (v - 1)
  if v - 1 < 0 then
    blockHelperFunction m .syscall semaddr k.currentProcess k
  else
    return .done (loadState (k.oldArea .syscall) k)

/-- SYS5 -/
def exceptionStateVec (m : Machine) (exceptionType : Word) (oldStateLoc newStateLoc : Addr)
    (k : Kernel) : Option Outcome := do
  let current ← k.currentProcess
  if h : exceptionType.toNat < trapTypes then
    let type : Fin trapTypes := ⟨exceptionType.toNat, h⟩
    let old := k.procs.oldAreas current
    let new := k.procs.newAreas current
    if old type = null ∧ new type = null then
      let procs := { k.procs with
        oldAreas := update k.procs.oldAreas current (update old type oldStateLoc)
        newAreas := update k.procs.newAreas current (update new type newStateLoc) }
      return .done (loadState (k.oldArea .syscall) { k with procs })
    else
      terminateProcess m (some current) k
  else
    none

/-- SYS7 -/
def waitForClock (m : Machine) (k : Kernel) : Option Outcome :=
  passeren m (m.semAddr itSemIndex) { k with softBlockCount := k.softBlockCount + 1 }

/-- SYS8 -/
def waitForIo (m : Machine) (lineNum deviceNum termRead : Word) (k : Kernel) :
    Option Outcome := do
  let semaddr := m.semAddr (ioIndex lineNum deviceNum termRead).toNat
  let v ← k.load semaddr
  let k := k.store semaddr (v - 1)
  if v - 1 < 0 then
    let k := { k with softBlockCount := k.softBlockCount + 1 }
    blockHelperFunction m .syscall semaddr k.currentProcess k
  else
    terminateProcess m k.currentProcess k

def passUpOrDie (m : Machine) (area : OldArea) (exceptionType : Fin trapTypes) (k : Kernel) :
    Option Outcome := do
  let current ← k.currentProcess
  let old := k.procs.oldAreas current exceptionType
  let new := k.procs.newAreas current exceptionType
  if old = null ∨ new = null then
    terminateProcess m (some current) k
  else
    let k := { k with states := update k.states old (k.oldArea area) }
    let k := { k with procs := { k.procs with pS := update k.procs.pS current (k.states new) } }
    return .done (loadState (k.states new) k)

def syscallSwitch (m : Machine) (a0 a1 a2 a3 : Word) (k : Kernel) : Option Outcome :=
  if a0 = createProcessNum then (createProcess a1 k).map .done
  else if a0 = terminateProcessNum then terminateProcess m k.currentProcess k
  else if a0 = verhogenNum then (verhogen a1 k).map .done
  else if a0 = passerenNum then passeren m a1 k
  else if a0 = exceptionStateVecNum then exceptionStateVec m a1 a2 a3 k
  else if a0 = getCpuTimeNum then (getCpuTime m k).map .done
  else if a0 = waitForClockNum then waitForClock m k
  else if a0 = waitForIoNum then waitForIo m a1 a2 a3 k
  else passUpOrDie m .syscall syscallException k

def syscallHandler (m : Machine) (k : Kernel) : Option Outcome :=
  let syscallOld := k.oldArea .syscall
  let a0 := syscallOld.sA0
  if userMode syscallOld ∧ minSyscall ≤ a0 ∧ a0 ≤ maxSyscall then
    let trap := { syscallOld with sCause := allOff ||| priviledgedInstr }
    passUpOrDie m .programTrap programTrapException
      { k with oldArea := update k.oldArea .programTrap trap }
  else
    let k := { k with oldArea := update k.oldArea .syscall syscallOld.advancePc }
    syscallSwitch m a0 syscallOld.sA1 syscallOld.sA2 syscallOld.sA3 k

def pltInterruptHandler (m : Machine) (k : Kernel) : Option Outcome := do
  let k ← incrementProcessTime m k.currentProcess k
  let (readyQ, procs) ← insertProcQ k.readyQ k.currentProcess k.procs
  return .calls { k with readyQ, procs }

def exitInterruptHandler (k : Kernel) : Outcome :=
  if k.currentProcess = none then .calls k else .done (loadState (k.oldArea .interrupt) k)

/-- What `InterruptHandler` does for the other lines before it calls `ExitInterruptHandler`. -/
def serveLine (m : Machine) (lineNum : Nat) (k : Kernel) : Option Kernel :=
  if lineNum = itLine then itInterruptHandler m k
  else do
    let line ← deviceLine lineNum
    let devNum ← determineDevice (k.bus.interruptDev line)
    if h : devNum < numDevicesPerType then deviceInterruptHandler m line ⟨devNum, h⟩ k
    else none

def interruptHandler (m : Machine) (k : Kernel) : Option Outcome := do
  let lineNum ← determineLine (k.oldArea .interrupt).sCause
  if lineNum = pltLine then pltInterruptHandler m k
  else (serveLine m lineNum k).map exitInterruptHandler

def step (m : Machine) (k : Kernel) : Event → Option Outcome
  | .syscall st => syscallHandler m { k with oldArea := update k.oldArea .syscall st }
  | .programTrap st => passUpOrDie m .programTrap programTrapException
      { k with oldArea := update k.oldArea .programTrap st }
  | .tlbManagement st => passUpOrDie m .tlbManagement tlbException
      { k with oldArea := update k.oldArea .tlbManagement st }
  | .interrupt st => interruptHandler m { k with oldArea := update k.oldArea .interrupt st }
  | .device bus => some (.done { k with bus })
  | .writeInt a v => some (.done (k.store a v))
  | .writeState a st => some (.done { k with states := update k.states a st })

end ToScheduler

/-! ### The statements of the branch -/

/-- The statement of the idle branch that was executed last. -/
inductive Stage
  | opened   -- `setSTATUS`
  | cleared  -- `currentProcess = NULL`
  | timed    -- `setTIMER`
  deriving DecidableEq

/-- The nucleus, with the stage if it is in the idle branch. There `cpu` has the status that
`setSTATUS` has set, with which the branch goes on and waits in the end. -/
structure Moment where
  kernel : Kernel
  stage : Option Stage

/-- `Scheduler` up to `setSTATUS`. -/
def openScheduler (m : Machine) (k : Kernel) : Option Moment := do
  let (newProcess, readyQ, procs) ← removeProcQ k.readyQ k.procs
  let k : Kernel := { k with readyQ, procs }
  match newProcess with
  | none =>
    if k.processCount = 0 then
      return ⟨{ k with currentProcess := none, cpu := .halted }, none⟩
    else if k.softBlockCount = 0 then
      return ⟨{ k with currentProcess := none, cpu := .panicked }, none⟩
    else
      let status := allOff ||| currInterruptsUnmasked ||| interruptMaskOn
      return ⟨{ k with cpu := .waiting status }, some .opened⟩
  | some p =>
    let k := { k with currentProcess := some p }
    let (now, k) := stck m (setTimer pltTime k)
    let k := { k with processStartTime := now }
    return ⟨loadState (k.procs.pS p) k, none⟩

/-- The next statement of the branch. -/
def nextStatement (k : Kernel) : Stage → Moment
  | .opened => ⟨{ k with currentProcess := none }, some .cleared⟩
  | .cleared => ⟨setTimer suspendTime k, some .timed⟩
  | .timed => ⟨k, none⟩

inductive Act
  | statement
  | event (e : Event)

namespace Moment

/-- A handler that comes back to the idle branch goes on with the stage it has interrupted. -/
def resume (w : Moment) (k : Kernel) : Moment :=
  match w.stage with
  | none => ⟨k, none⟩
  | some s => ⟨{ k with cpu := w.kernel.cpu }, some s⟩

/-- The end of a handler that has interrupted at `w`. -/
def after (m : Machine) (w : Moment) : Outcome → Option Moment
  | .calls k => openScheduler m k
  | .done k => some (w.resume k)

def step (m : Machine) (w : Moment) : Act → Option Moment
  | .statement => w.stage.map (nextStatement w.kernel)
  | .event e => (ToScheduler.step m w.kernel e).bind (w.after m)

/-- In the idle branch a local timer that has expired before can interrupt until `setTIMER`
sets it again. It does not count there. -/
def Deliverable (m : Machine) (w : Moment) : Act → Prop
  | .statement => w.stage ≠ none
  | .event e => Kaya.Deliverable m w.kernel e ∨
      IsPreemption e ∧ (w.stage = some .opened ∨ w.stage = some .cleared)

end Moment

end Kaya
