import Kaya.Lib.Walk
import Kaya.Nucleus.Exceptions

/-!
# The process tree in a termination

`HoneyIKilledTheKids` without its queues and semaphores: what it does to the process tree and
to `processCount`, and the PCBs it gives to `freePcb`.
-/

namespace Kaya

open Linked

/-- `HoneyIKilledTheKids` as a walk of the children. -/
def killing (m : Machine) : Walk Kernel PcbIx where
  first p k :=
    if emptyChild p k.procs then some (none, k)
    else do
      let (child, procs) ← removeChild p k.procs
      let child ← child
      return (some child, { k with procs })
  visit := takeOut m

/-- The arguments of `freePcb`, the first one first. It is called once for each PCB, at the end
of `takeOut`. -/
def freedBy (m : Machine) (p : PcbIx) (k : Kernel) : Option (List PcbIx) :=
  ((killing m).logged.run (maxProc + 1) (maxProc + 1) p (k, [])).map Prod.snd

structure Kin where
  procs : ProcTable
  processCount : Int
  /-- the arguments of `freePcb` so far -/
  freed : List PcbIx

namespace Kin

/-- `HoneyIKilledTheKids` after its loop. Only the current process is still in the tree. -/
def takeOut (currentProcess : PcbPtr) (p : PcbIx) (s : Kin) : Option Kin := do
  let procs ←
    if some p = currentProcess then do
      let (_, procs) ← outChild p s.procs
      some procs
    else some s.procs
  return { procs, processCount := s.processCount - 1, freed := s.freed ++ [p] }

def killing (currentProcess : PcbPtr) : Walk Kin PcbIx where
  first p s :=
    if emptyChild p s.procs then some (none, s)
    else do
      let (child, procs) ← removeChild p s.procs
      let child ← child
      return (some child, { s with procs })
  visit := takeOut currentProcess

def honeyIKilledTheKids (currentProcess : PcbPtr) : PcbIx → Kin → Option Kin :=
  (killing currentProcess).run (maxProc + 1) (maxProc + 1)

end Kin

end Kaya
