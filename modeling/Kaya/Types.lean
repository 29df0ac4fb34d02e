import Mathlib.Data.BitVec
import Mathlib.Logic.Function.Basic

/-!
# Constants and types

The constants of `const.h` and the records of `types.h`. A pointer into one of the two
static tables is an optional index, with `none` for `NULL`; an `int *` is a 32-bit
address, with the largest address for `NULL`. The tables keep one function per field,
so that writing one field of one record leaves the other fields as they are.
-/

namespace Kaya

/-- The 32-bit machine word. -/
abbrev Word := BitVec 32

/-- The address of an `int` or of a processor state in memory. -/
abbrev Addr := BitVec 32

/-- `NULL`, the largest address. -/
def null : Addr := 0xFFFFFFFF

/-- `MAXPROC` -/
abbrev maxProc : Nat := 20

instance : NeZero maxProc := ⟨by decide⟩

/-- `STATEREGNUM` -/
abbrev stateRegNum : Nat := 31

instance : NeZero stateRegNum := ⟨by decide⟩

/-- The bytes of a `state_t`. -/
def stateSize : Nat := 4 * (4 + stateRegNum)

/-- `TRAPTYPES`, also `NUMEXCEPTIONTYPES` -/
abbrev trapTypes : Nat := 3

/-! ### Values of the status and cause registers -/

def allOff : Word := 0x00000000
def initVmOff : Word := 0x00000000
def kernelOn : Word := 0x00000000
def kernelOff : Word := 0x00000008
def interruptsUnmasked : Word := 0x00000004
def currInterruptsUnmasked : Word := 0x00000001
def interruptMaskOn : Word := 0x0000FF00
def teBitOn : Word := 0x08000000
def priviledgedInstr : Word := 0x00000028

/-! ### The semaphore array -/

/-- `SEMCOUNT` -/
def semCount : Nat := 49
/-- `ITSEMINDEX` -/
def itSemIndex : Nat := 48
/-- `INITIALDEVLINENUM` -/
def initialDevLineNum : Nat := 3
/-- `NUMDEVICESPERTYPE`, also `NUMDEVICES` -/
def numDevicesPerType : Nat := 8
/-- `DEVINTNUM`, the number of device lines -/
abbrev devIntNum : Nat := 5

instance : NeZero devIntNum := ⟨by decide⟩

lemma numDevicesPerType_pos : 0 < numDevicesPerType := by decide

/-! ### Syscall numbers -/

def createProcessNum : Word := 1
def terminateProcessNum : Word := 2
def verhogenNum : Word := 3
def passerenNum : Word := 4
def exceptionStateVecNum : Word := 5
def getCpuTimeNum : Word := 6
def waitForClockNum : Word := 7
def waitForIoNum : Word := 8
def minSyscall : Word := 1
def maxSyscall : Word := 8
def sys1Fail : Word := -1
def sys1Success : Word := 0

/-! ### Exception types, interrupt lines and device commands -/

def tlbException : Fin trapTypes := 0
def programTrapException : Fin trapTypes := 1
def syscallException : Fin trapTypes := 2

def maskCauseReg : Word := 0x0000FF00
/-- `NUMLINES` -/
def numLines : Nat := 8
def line0 : Word := 0x00000100
def pltLine : Nat := 1
def itLine : Nat := 2
def maskDevBitMap : Word := 0x000000FF
def device0 : Word := 0x00000001
def maskTransChar : Word := 0x0000000F
/-- `TERMINT` -/
def termInt : Nat := 7
def ready : Word := 1
def ack : Word := 1

def pltTime : Word := 5000
def intervalTime : Word := 100000
def suspendTime : Word := 420420

def pageSize : Word := 4096
def wordLen : Word := 4

/-! ### Processor states -/

/-- `state_t` -/
structure State where
  sAsid : Word
  sCause : Word
  sStatus : Word
  sPc : Word
  sReg : Fin stateRegNum → Word
  deriving DecidableEq

namespace State

def sV0 (st : State) : Word := st.sReg 1
def sA0 (st : State) : Word := st.sReg 3
def sA1 (st : State) : Word := st.sReg 4
def sA2 (st : State) : Word := st.sReg 5
def sA3 (st : State) : Word := st.sReg 6

def setV0 (st : State) (v : Word) : State := { st with sReg := Function.update st.sReg 1 v }
def setT9 (st : State) (v : Word) : State := { st with sReg := Function.update st.sReg 24 v }
def setSp (st : State) (v : Word) : State := { st with sReg := Function.update st.sReg 26 v }

/-- The program counter moved past the `SYSCALL` instruction. -/
def advancePc (st : State) : State := { st with sPc := st.sPc + wordLen }

end State

/-! ### Process control blocks -/

/-- An index into `procTable`. -/
abbrev PcbIx := Fin maxProc

instance : LawfulBEq PcbIx := inferInstance

/-- `pcb_PTR` -/
abbrev PcbPtr := Option PcbIx

/-- The static array `procTable` of `initPcbs`, one function per field of `pcb_t`. -/
structure ProcTable where
  pNext : PcbIx → PcbPtr
  pPrev : PcbIx → PcbPtr
  pPrnt : PcbIx → PcbPtr
  pChild : PcbIx → PcbPtr
  pSibPrev : PcbIx → PcbPtr
  pSibNext : PcbIx → PcbPtr
  pS : PcbIx → State
  pSemAdd : PcbIx → Addr
  pTotalTime : PcbIx → Word
  oldAreas : PcbIx → Fin trapTypes → Addr
  newAreas : PcbIx → Fin trapTypes → Addr

/-! ### Semaphore descriptors -/

/-- An index into `semdTable`, which has room for the two dummies. -/
abbrev SemdIx := Fin (maxProc + 2)

/-- `semd_t *` -/
abbrev SemdPtr := Option SemdIx

/-- The static array `semdTable` of `initASL`, one function per field of `semd_t`, with
the heads of the active and of the free list. -/
structure SemdTable where
  sNext : SemdIx → SemdPtr
  sSemAdd : SemdIx → Addr
  sProcQ : SemdIx → PcbPtr
  semdH : SemdPtr
  semdFreeH : SemdPtr

/-! ### Devices -/

/-- `device_t` -/
structure Device where
  dStatus : Word
  dCommand : Word
  dData0 : Word
  dData1 : Word
  deriving DecidableEq

namespace Device

def tRecvStatus (d : Device) : Word := d.dStatus
def tTransmStatus (d : Device) : Word := d.dData0
def setRecvCommand (d : Device) (c : Word) : Device := { d with dCommand := c }
def setTransmCommand (d : Device) (c : Word) : Device := { d with dData1 := c }
def setCommand (d : Device) (c : Word) : Device := { d with dCommand := c }

end Device

end Kaya
