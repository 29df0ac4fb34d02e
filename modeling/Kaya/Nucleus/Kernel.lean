import Kaya.Asl

/-!
# The state of the nucleus

The globals of `initial.c` with the tables of phase 1, the words and processor states in
memory the nucleus reads through pointers it is given, the old areas of the ROM reserved
frame, the device registers, and what the processor does once a handler has given it up.
-/

namespace Kaya

open Function

/-- What differs from one machine and one link of the kernel to another. -/
structure Machine where
  /-- the address of `semaphoreArray` -/
  semaphoreArray : Addr
  aligned : semaphoreArray.toNat % 4 = 0
  fits : semaphoreArray.toNat + 4 * semCount ≤ 2 ^ 32
  /-- the TOD-LO register at the successive readings of the clock -/
  tod : Nat → Word
  timescale : Word
  ramtop : Word
  /-- the entry point of the initial process -/
  test : Word

/-- `&semaphoreArray[i]` -/
def Machine.semAddr (m : Machine) (i : Nat) : Addr := m.semaphoreArray + BitVec.ofNat 32 (4 * i)

/-- The old areas of the ROM reserved frame. -/
inductive OldArea
  | interrupt
  | tlbManagement
  | programTrap
  | syscall
  deriving DecidableEq

/-- What the processor does between two runs of the nucleus. -/
inductive Cpu
  | running (st : State)
  | waiting (status : Word)
  | halted
  | panicked
  deriving DecidableEq

/-- The interrupting-devices bit maps and the device registers of `devregarea_t`. -/
structure Bus where
  interruptDev : Fin devIntNum → Word
  devreg : Fin devIntNum → Fin numDevicesPerType → Device

/-- A write to a command register. On a terminal it names the sub-device. -/
structure Command where
  line : Fin devIntNum
  devNum : Fin numDevicesPerType
  transm : Bool
  value : Word
  deriving DecidableEq

structure Kernel where
  procs : ProcTable
  pcbListH : PcbPtr
  asl : SemdTable
  processCount : Int
  softBlockCount : Int
  currentProcess : PcbPtr
  processStartTime : Word
  readyQ : PcbPtr
  /-- The integers in memory that serve as semaphores, `semaphoreArray` among them. None of them
  is part of another structure of the nucleus. They have no bounds, so they are the source's as
  long as every step is `InRange`. -/
  mem : Addr → Int
  /-- The processor states in memory. The address of a `state_t` is a multiple of four, and no
  function here is meant for others. -/
  states : Addr → State
  oldArea : OldArea → State
  bus : Bus
  /-- the commands the nucleus has given to devices, the newest last -/
  commands : List Command
  todReads : Nat
  timer : Word
  intervalTimer : Word
  cpu : Cpu

namespace Kernel

/-- Reading an `int`. An address that is not a multiple of four, `NULL` among them, is an
address error. -/
def load (k : Kernel) (a : Addr) : Option Int :=
  if a.toNat % 4 = 0 then some (k.mem a) else none

def store (k : Kernel) (a : Addr) (v : Int) : Kernel :=
  { k with mem := update k.mem a v }

/-- `syscallOld->s_v0 = v` -/
def setSyscallV0 (k : Kernel) (v : Word) : Kernel :=
  { k with oldArea := update k.oldArea .syscall ((k.oldArea .syscall).setV0 v) }

end Kernel

/-- `STCK(T)`: the reading and the state with one more reading taken. -/
def stck (m : Machine) (k : Kernel) : Word × Kernel :=
  ((m.tod k.todReads).sdiv m.timescale, { k with todReads := k.todReads + 1 })

/-- `LDIT(T)` -/
def ldit (m : Machine) (t : Word) (k : Kernel) : Kernel :=
  { k with intervalTimer := t * m.timescale }

def setTimer (t : Word) (k : Kernel) : Kernel := { k with timer := t }

end Kaya
