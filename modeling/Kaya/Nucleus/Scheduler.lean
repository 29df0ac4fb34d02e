import Kaya.Nucleus.Kernel

/-!
# `scheduler.c`

A function that ends in `LoadState`, `HALT`, `PANIC` or `WAIT` does not return to its
caller: its result is the state of the nucleus with `cpu` saying where the processor went.
-/

namespace Kaya

open Function

def loadState (st : State) (k : Kernel) : Kernel := { k with cpu := .running st }

def scheduler (m : Machine) (k : Kernel) : Option Kernel := do
  let (newProcess, readyQ, procs) ← removeProcQ k.readyQ k.procs
  let k : Kernel := { k with readyQ, procs }
  match newProcess with
  | none =>
    if k.processCount = 0 then
      return { k with currentProcess := none, cpu := .halted }
    else if k.softBlockCount = 0 then
      return { k with currentProcess := none, cpu := .panicked }
    else
      let status := allOff ||| currInterruptsUnmasked ||| interruptMaskOn
      let k := { k with currentProcess := none }
      return { setTimer suspendTime k with cpu := .waiting status }
  | some p =>
    let k := { k with currentProcess := some p }
    let (now, k) := stck m (setTimer pltTime k)
    let k := { k with processStartTime := now }
    return loadState (k.procs.pS p) k

end Kaya
