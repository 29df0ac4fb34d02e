import Kaya.Support.Pager

/-!
# `initProc.c`: `test` and `uProcInit`

`test` sets up the globals of phase 3, creates the user processes one after the other and waits
for their ends. A user process registers its handlers before it reads its tape. What has been
created runs while `test` goes on, one syscall at a time.
-/

namespace Kaya.Support

open Function Linked

/-- `PROCCNT` is the `n` of a board. -/
def deviceCount : Nat := 48

def vmOnPrev : Word := 0x02000000
def uprocStackSize : Word := 3
def syncInit : Int := 0

def tapeBufferStart : Word := romPageStart + osFrames * pageSize
def diskBufferStart : Word := tapeBufferStart + BitVec.ofNat 32 numDevicesPerType * pageSize
def stackPoolStart : Word := diskBufferStart + BitVec.ofNat 32 numDevicesPerType * pageSize

def getDiskBufferAddr (diskNum : Int) : Word :=
  diskBufferStart + BitVec.ofInt 32 diskNum * pageSize

/-- The top of a stack page. -/
def getStackPageAddr (procNum exceptionType : Int) : Word :=
  stackPoolStart + BitVec.ofInt 32 (procNum - 1) * uprocStackSize * pageSize +
    BitVec.ofInt 32 exceptionType * pageSize + pageSize

/-- The entry points that `test` and `uProcInit` put into processor states. -/
structure Image where
  uProcInit : Addr
  userTlbHandler : Addr
  userProgramTrapHandler : Addr
  userSyscallHandler : Addr

namespace Image

/-- The state that `test` passes to SYS1 for the process with the ASID `n`. -/
def procState (img : Image) (n : Nat) (st : State) : State :=
  let st := (st.setSp (getStackPageAddr n 0)).setT9 img.uProcInit
  { st with
    sAsid := BitVec.ofNat 32 n <<< asidShift
    sPc := img.uProcInit
    sStatus := allOff ||| interruptsUnmasked ||| interruptMaskOn ||| teBitOn ||| initVmOff |||
      kernelOn }

/-- The handler of an exception type. -/
def handler (img : Image) (type : Fin trapTypes) : Addr :=
  if type = tlbException then img.userTlbHandler
  else if type = programTrapException then img.userProgramTrapHandler
  else img.userSyscallHandler

/-- The handler of the TLB exceptions runs with virtual memory off. -/
def handlerStatus (type : Fin trapTypes) : Word :=
  if type = tlbException then
    allOff ||| interruptsUnmasked ||| interruptMaskOn ||| teBitOn ||| kernelOn
  else allOff ||| interruptsUnmasked ||| interruptMaskOn ||| teBitOn ||| vmOnPrev ||| kernelOn

/-- A new area of the process with the ASID `asid`, on top of what is in it. -/
def newArea (img : Image) (asid : Nat) (type : Fin trapTypes) (st : State) : State :=
  let st := (st.setSp (getStackPageAddr asid type)).setT9 (img.handler type)
  { st with
    sAsid := BitVec.ofNat 32 asid <<< asidShift
    sPc := img.handler type
    sStatus := handlerStatus type }

end Image

/-- How far `test` has come. -/
inductive TestStage
  | globals
  /-- so many processes have been asked for -/
  | create (k : Nat)
  /-- `masterSema4` has been P'd so many times -/
  | passeren (i : Nat)
  /-- waiting in the last one of so many P's -/
  | waiting (i : Nat)
  /-- about to SYS2 -/
  | terminate
  /-- and with it all the processes that it has created -/
  | gone
  deriving DecidableEq

/-- How far `uProcInit` has come. -/
inductive InitStage
  | absent
  | entry
  /-- about to SYS5 for the exception type -/
  | vector (type : Fin trapTypes)
  /-- in `readTape` or behind it -/
  | entered
  deriving DecidableEq

/-- The processes of phase 3. What `sys` has for a process that has not entered `readTape` is what
memory happens to hold. -/
structure Phase3 (n : Nat) where
  test : TestStage
  /-- the variable of `test` -/
  initialState : State
  init : Fin n → InitStage
  /-- with what SYS1 has created a process -/
  procState : Fin n → State
  /-- `userProcArray[p].newAreas` -/
  newAreas : Fin n → Fin trapTypes → State
  /-- the element of `userProcArray` and the index in it that SYS5 was given -/
  vectors : Fin n → Fin trapTypes → Option (Fin n × Fin trapTypes)
  sys : Sys n

namespace Phase3

variable {n : Nat}

/-- The process has a PCB. -/
def Lives (s : Phase3 n) (p : Fin n) : Prop :=
  s.test ≠ .gone ∧ s.init p ≠ .absent ∧ ¬ (s.init p = .entered ∧ s.sys.control p = .dead)

instance (s : Phase3 n) (p : Fin n) : Decidable (s.Lives p) :=
  inferInstanceAs (Decidable (_ ∧ _ ∧ _))

/-- The PCBs in use, that of `test` included. -/
def pcbs (s : Phase3 n) : Nat := (Finset.univ.filter s.Lives).card + 1

/-- The first loops of `test`. -/
def setGlobals (s : Phase3 n) : Phase3 n := { s with
  test := .create 0
  sys := { s.sys with
    kuseg3PT := initialKuseg3PT
    frameSwapPool := fun f => { s.sys.frameSwapPool f with ASID := unoccupiedFrame }
    sema4 := fun m => match m with
      | .swapmutex => .mutex
      | .deviceSema4 i => if i < deviceCount then .mutex else s.sys.sema4 m
    masterSema4 := syncInit } }

/-- The page table of a user process, and SYS1. Its result is ignored. -/
def createProcess (img : Image) (s : Phase3 n) (p : Fin n) : Phase3 n :=
  let initialState := img.procState (p + 1) s.initialState
  let s := { s with
    sys := { s.sys with kuseg2PT := update s.sys.kuseg2PT p (initialKuseg2PT (p + 1)) }
    initialState
    test := .create (p + 1) }
  if s.pcbs < maxProc then { s with
    init := update s.init p .entry
    procState := update s.procState p initialState
    vectors := update s.vectors p fun _ => none }
  else s

/-- `test` up to its next syscall. -/
def runTest (img : Image) (s : Phase3 n) : Option (Phase3 n) :=
  match s.test with
  | .globals => some s.setGlobals
  | .create k =>
    if h : k < n then some (s.createProcess img ⟨k, h⟩) else some { s with test := .passeren 0 }
  | .passeren i =>
    if i < n then
      let masterSema4 := s.sys.masterSema4 - 1
      some { s with
        sys := { s.sys with masterSema4 }
        test := if masterSema4 < 0 then .waiting (i + 1) else .passeren (i + 1) }
    else some { s with test := .terminate }
  | .waiting _ => none
  | .terminate => some { s with test := .gone }
  | .gone => none

/-- The index of a process in `userProcArray`, from the register `EntryHi` that the nucleus has
loaded for it. -/
def whoAmI (s : Phase3 n) (p : Fin n) : Option (Fin n) := procOf n (asidOf (s.procState p).sAsid)

/-- SYS5 with the areas of `q`. A process that sets a vector twice is terminated. -/
def exceptionStateVec (s : Phase3 n) (p q : Fin n) (type : Fin trapTypes) (next : InitStage) :
    Phase3 n :=
  if s.vectors p type = none then { s with
    vectors := update s.vectors p (update (s.vectors p) type (some (q, type)))
    init := update s.init p next }
  else { s with init := update s.init p .entered, sys := s.sys.goto p .dead }

/-- The start of `readTape`. -/
def enterTape (s : Phase3 n) (p : Fin n) : Phase3 n :=
  if s.init p = .entered then s
  else { s with init := update s.init p .entered, sys := s.sys.goto p (.readTape 0 .read) }

/-- `uProcInit` up to its next syscall. An ASID outside `userProcArray` leaves the model. -/
def runInit (img : Image) (s : Phase3 n) (p : Fin n) : Option (Phase3 n) :=
  match s.init p with
  | .absent | .entered => none
  | .entry => do
    let q ← s.whoAmI p
    return { s with
      newAreas := update s.newAreas q fun type => img.newArea (q + 1) type (s.newAreas q type)
      init := update s.init p (.vector tlbException) }
  | .vector type => do
    let q ← s.whoAmI p
    if type = tlbException then
      return s.exceptionStateVec p q type (.vector programTrapException)
    if type = programTrapException then
      return s.exceptionStateVec p q type (.vector syscallException)
    return (s.exceptionStateVec p q type (.vector syscallException)).enterTape p

/-- V of `masterSema4` lets `test` go on. -/
def wakeTest (s : Phase3 n) : Phase3 n :=
  match s.test with
  | .waiting i => if s.sys.masterSema4 ≤ 0 then { s with test := .passeren i } else s
  | _ => s

end Phase3

/-- The process whose event it is. -/
def Event.process {n : Nat} : Event n → Option (Fin n)
  | .access p _ _ _ | .syscall p _ | .trap p | .run p _ => some p
  | .disk | .forget _ => none

inductive Doing (n : Nat)
  | test
  | init (p : Fin n)
  | user (e : Event n)

namespace Phase3

variable {n : Nat}

/-- In the event a process does the V of `masterSema4`. -/
def Ends (s : Sys n) : Event n → Prop
  | .run p _ => s.control p = .terminate
  | _ => False

instance (s : Sys n) : DecidablePred (Ends s)
  | .run p _ => inferInstanceAs (Decidable (s.control p = .terminate))
  | .access _ _ _ _ | .syscall _ _ | .trap _ | .disk | .forget _ => .isFalse id

/-- The process of the event lives and has entered `readTape`. -/
def Entered (s : Phase3 n) (e : Event n) : Prop :=
  ∀ p ∈ e.process, s.Lives p ∧ s.init p = .entered

instance (s : Phase3 n) (e : Event n) : Decidable (s.Entered e) :=
  match h : e.process with
  | none => .isTrue fun p hp => by cases h.symm.trans hp
  | some p => decidable_of_iff (s.Lives p ∧ s.init p = .entered) (by simp [Entered, h])

def step (b : Board n) (img : Image) (s : Phase3 n) : Doing n → Option (Phase3 n)
  | .test => s.runTest img
  | .init p => if s.Lives p then s.runInit img p else none
  | .user e =>
    if s.Entered e then do
      let sys ← s.sys.step b e
      let s' := { s with sys }
      return if Ends s.sys e then s'.wakeTest else s'
    else none

/-- What `test` finds: nothing has been created, the static counter of `findFrame` is zero, the
disk and the TLB have not been used, and there is a tape and a terminal for each process. -/
structure Start (s : Phase3 n) : Prop where
  devices : n ≤ numDevicesPerType
  test : s.test = .globals
  init : ∀ p, s.init p = .absent
  nextFrame : s.sys.nextFrame = 0
  tlb : s.sys.tlb = []
  busy : s.sys.disk.busy = none
  /-- there are no semaphores behind `deviceSema4s` -/
  behind : ∀ i, deviceCount ≤ i → s.sys.sema4 (.deviceSema4 i) = .mutex

end Phase3

end Kaya.Support
