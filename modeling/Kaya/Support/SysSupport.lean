import Kaya.Support.InitProc

/-!
# `sysSupport.c`

What `UserSyscallHandler` does for the process whose state is in the old area. A service that
runs over several syscalls of its own is a record of its variables.
-/

namespace Kaya.Support

def readFromTerminalNum : Word := 9
def writeToTerminalNum : Word := 10
def writeToPrinterNum : Word := 16
def getTodNum : Word := 17
def userTerminateNum : Word := 18

def legalAddrStart : Word := 0x80000000
def eos : Word := 0
def terminalStatusMask : Word := 0xFF
def charTransmitted : Word := 5
def terminalLine : Nat := 7

/-- The index of the semaphore of the terminal of the process with this ASID. -/
def terminalSem (asid : Nat) : Nat :=
  (terminalLine - initialDevLineNum) * numDevicesPerType + (asid - 1)

/-- The variables of `WriteToTerminal`: `syscallOld`, `s` and `i`. -/
structure Print where
  syscallOld : State
  s : Addr
  i : Word
  deriving DecidableEq

namespace Print

/-- A transmission that has failed ends the call with the negated status. -/
def fail (pr : Print) (status : Word) : State := pr.syscallOld.setV0 (-status)

/-- The call ends with the number of characters. -/
def finish (pr : Print) : State := pr.syscallOld.setV0 pr.i

def next (pr : Print) : Print := { pr with s := pr.s + 1, i := pr.i + 1 }

end Print

/-- Whether a character has been transmitted. -/
def Transmitted (status : Word) : Prop := status &&& terminalStatusMask = charTransmitted

instance (status : Word) : Decidable (Transmitted status) :=
  inferInstanceAs (Decidable (_ = _))

/-- What `UserSyscallHandler` goes on with. -/
inductive Service
  /-- an empty service function: the handler returns to its caller, of which there is none -/
  | returns
  | writes (pr : Print)
  | getsTod (syscallOld : State)
  | terminates
  deriving DecidableEq

/-- `UserSyscallHandler`, entered with the state in the old area. `LEGALADDRSTART` is an unsigned
constant, so the address is compared as one. -/
def userSyscallHandler (old : State) : Service :=
  let syscallOld := old.advancePc
  if syscallOld.sA0 = readFromTerminalNum then .returns
  else if syscallOld.sA0 = writeToTerminalNum then
    if syscallOld.sA1 < legalAddrStart ∨ syscallOld.sA2.toInt < 0 then .terminates
    else .writes ⟨syscallOld, syscallOld.sA1, 0⟩
  else if syscallOld.sA0 = writeToPrinterNum then .returns
  else if syscallOld.sA0 = getTodNum then .getsTod syscallOld
  else .terminates

end Kaya.Support
