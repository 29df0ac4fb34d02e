import Kaya.Nucleus.Exceptions

/-!
# `interrupts.c`

The handler of the processor local timer, the interval timer and the device lines.
-/

namespace Kaya

open Function

/-- The loop of `DetermineLine` with `n` lines left, from line `i` on. -/
def determineLineLoop (causeReg : Word) : Nat → Nat → Word → Option Nat
  | 0, _, _ => none
  | n + 1, i, lineOn =>
    if (causeReg &&& maskCauseReg) &&& lineOn ≠ 0 then some i
    else determineLineLoop causeReg n (i + 1) (lineOn <<< 1)

/-- The lowest pending line. With none pending the source returns an unset variable. -/
def determineLine (causeReg : Word) : Option Nat :=
  determineLineLoop causeReg numLines 0 line0

/-- The loop of `DetermineDevice`. -/
def determineDeviceLoop (devBitMap : Word) : Nat → Nat → Word → Option Nat
  | 0, _, _ => none
  | n + 1, j, deviceOn =>
    if (devBitMap &&& maskDevBitMap) &&& deviceOn ≠ 0 then some j
    else determineDeviceLoop devBitMap n (j + 1) (deviceOn <<< 1)

/-- The lowest device with its bit set. -/
def determineDevice (devBitMap : Word) : Option Nat :=
  determineDeviceLoop devBitMap numDevicesPerType 0 device0

def pltInterruptHandler (m : Machine) (k : Kernel) : Option Kernel := do
  let k ← incrementProcessTime m k.currentProcess k
  let (readyQ, procs) ← insertProcQ k.readyQ k.currentProcess k.procs
  scheduler m { k with readyQ, procs }

/-- The loop of `ITInterruptHandler`. It raises the semaphore by one each time, so it
takes as many steps as the semaphore is below zero. -/
def itLoop (sema4 : Addr) : Nat → Kernel → Option Kernel
  | 0, _ => none
  | fuel + 1, k =>
    if k.mem sema4 < 0 then do
      let k := k.store sema4 (k.mem sema4 + 1)
      let (p, procs, asl) ← removeBlocked sema4 k.procs k.asl
      let (readyQ, procs) ← insertProcQ k.readyQ p procs
      let k := { k with procs, asl, readyQ, softBlockCount := k.softBlockCount - 1 }
      itLoop sema4 fuel k
    else some k

def itInterruptHandler (m : Machine) (k : Kernel) : Option Kernel := do
  let sema4 := m.semAddr itSemIndex
  let k ← itLoop sema4 ((-k.mem sema4).toNat + 1) k
  return ldit m intervalTime (k.store sema4 0)

def exitInterruptHandler (m : Machine) (k : Kernel) : Option Kernel :=
  if k.currentProcess = none then scheduler m k
  else some (loadState (k.oldArea .interrupt) k)

/-- Whether the device branch takes an interrupt on this line for a receive. -/
def isReceive (lineNum : Nat) (d : Device) : Bool :=
  lineNum = termInt ∧ d.tTransmStatus &&& maskTransChar = ready

/-- The index of the semaphore the device branch V's. -/
def deviceIndex (lineNum devNum : Nat) (receive : Bool) : Nat :=
  let index := (lineNum - initialDevLineNum) * numDevicesPerType + devNum
  if receive then index + numDevicesPerType else index

/-- The status the device branch returns to the process that waited. -/
def returnedStatus (lineNum : Nat) (d : Device) : Word :=
  if lineNum = termInt then
    if isReceive lineNum d then d.tRecvStatus else d.tTransmStatus
  else d.dStatus

/-- The device register with the interrupt acknowledged. -/
def acknowledge (lineNum : Nat) (d : Device) : Device :=
  if lineNum = termInt then
    if isReceive lineNum d then d.setRecvCommand ack else d.setTransmCommand ack
  else d.setCommand ack

def ackCommand (line : Fin devIntNum) (devNum : Fin numDevicesPerType) (d : Device) : Command :=
  let lineNum := line.val + initialDevLineNum
  ⟨line, devNum, lineNum = termInt ∧ ¬ isReceive lineNum d, ack⟩

/-- The process that has waited longest for the device gets the status and becomes ready. -/
def unblockWaiter (sema4 : Addr) (status : Word) (k : Kernel) : Option Kernel := do
  let (proc, procs, asl) ← removeBlocked sema4 k.procs k.asl
  let k := { k with procs, asl }
  match proc with
  | none => some k
  | some p => do
    let st := (k.procs.pS p).setV0 status
    let procs := { k.procs with pS := update k.procs.pS p st }
    let k := { k with procs, softBlockCount := k.softBlockCount - 1 }
    let (readyQ, procs) ← insertProcQ k.readyQ (some p) k.procs
    some { k with readyQ, procs }

/-- The part of the device branch that only runs for a semaphore value of at most zero. -/
def serveDevice (m : Machine) (line : Fin devIntNum) (devNum : Fin numDevicesPerType)
    (k : Kernel) : Option Kernel := do
  let lineNum := line.val + initialDevLineNum
  let d := k.bus.devreg line devNum
  let sema4 := m.semAddr (deviceIndex lineNum devNum (isReceive lineNum d))
  let k ← unblockWaiter sema4 (returnedStatus lineNum d) k
  let regs := update (k.bus.devreg line) devNum (acknowledge lineNum d)
  return { k with
    bus := { k.bus with devreg := update k.bus.devreg line regs }
    commands := k.commands ++ [ackCommand line devNum d] }

/-- The device branch of `InterruptHandler`. -/
def deviceInterruptHandler (m : Machine) (line : Fin devIntNum)
    (devNum : Fin numDevicesPerType) (k : Kernel) : Option Kernel := do
  let lineNum := line.val + initialDevLineNum
  let d := k.bus.devreg line devNum
  let sema4 := m.semAddr (deviceIndex lineNum devNum (isReceive lineNum d))
  let k := k.store sema4 (k.mem sema4 + 1)
  if k.mem sema4 ≤ 0 then serveDevice m line devNum k else some k

/-- Lines 0 to 2 index in front of `interrupt_dev` and are out of bounds for the device
branch. -/
def deviceLine (lineNum : Nat) : Option (Fin devIntNum) :=
  if h : initialDevLineNum ≤ lineNum ∧ lineNum - initialDevLineNum < devIntNum then
    some ⟨lineNum - initialDevLineNum, h.2⟩
  else none

/-- `PLTInterruptHandler` does not return, so the rest is not run after it. -/
def interruptHandler (m : Machine) (k : Kernel) : Option Kernel := do
  let lineNum ← determineLine (k.oldArea .interrupt).sCause
  if lineNum = pltLine then pltInterruptHandler m k
  else do
    let k ←
      if lineNum = itLine then itInterruptHandler m k
      else do
        let line ← deviceLine lineNum
        let devNum ← determineDevice (k.bus.interruptDev line)
        if h : devNum < numDevicesPerType then deviceInterruptHandler m line ⟨devNum, h⟩ k
        else none
    exitInterruptHandler m k

end Kaya
