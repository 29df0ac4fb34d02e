import Kaya.Lib.Mutex
import Kaya.Support.SysSupport

/-!
# `pager.c` and the user processes

The support level with all its user processes. Between two of its syscalls a process runs a
handler without being disturbed; a user process may be interrupted by the others after every
access to its memory. The disk works on its own, and the TLB may lose an entry at any time.
-/

namespace Kaya.Support

open Function Linked

/-- The mutexes of the support level. -/
inductive Sem
  | swapmutex
  | deviceSema4 (i : Nat)
  deriving DecidableEq

def diskMutex : Sem := .deviceSema4 diskSem

/-! ### What a process is doing -/

/-- Having P'd the mutex of disk 0: about to seek, about to transfer once the arm has moved,
about to V once the block is there. -/
inductive IoStage
  | seek
  | transfer
  | release
  deriving DecidableEq

/-- How far `UserTLBHandler` has come, with its variables. -/
inductive TlbStage
  | enter
  /-- after the P of `swapmutex` -/
  | check
  /-- page-out of the page that `frameSwapPool` has for the frame -/
  | boot (frame : Fin poolSize) (victim : SwapEntry) (io : IoStage)
  | booted (frame : Fin poolSize)
  | load (frame : Fin poolSize) (io : IoStage)
  /-- after the V of disk 0 -/
  | install (frame : Fin poolSize)
  /-- after the V of `swapmutex` -/
  | leave
  deriving DecidableEq

inductive TapeStage
  /-- about to read a block of the tape -/
  | read
  | io (stage : IoStage)
  /-- after the V of disk 0 -/
  | next
  deriving DecidableEq

/-- How far the loop of `WriteToTerminal` has come. -/
inductive PrintStage
  /-- about to read the character for the loop condition -/
  | test
  /-- about to read it again to transmit it -/
  | send
  /-- waiting for the terminal -/
  | wait
  deriving DecidableEq

/-- What a TLB exception has interrupted. -/
inductive Back
  | user
  | print (pr : Print) (stage : PrintStage)
  deriving DecidableEq

inductive Control
  /-- in user mode since it was loaded with the state `st` -/
  | user (st : State)
  /-- in `readTape`, at block `i` -/
  | readTape (i : Nat) (stage : TapeStage)
  /-- in `UserSyscallHandler`, with its old area -/
  | service (old : State)
  | print (pr : Print) (stage : PrintStage)
  /-- about to load a state -/
  | ldst (st : State)
  /-- in `UserTLBHandler`, with its old area -/
  | tlb (old : State) (back : Back) (stage : TlbStage)
  /-- in `UserTerminate` -/
  | terminate
  /-- after the V of `masterSema4`, about to SYS2 -/
  | ending
  | dead
  /-- returned from a handler, to no defined place -/
  | lost
  deriving DecidableEq

/-- The page number and, unless the entry is global, the ASID agree. -/
def Pte.Matches (e : Pte) (hi : Word) : Prop :=
  e.entryHi &&& ~~~frameNumMask = hi &&& ~~~frameNumMask ∧
    (e.entryLo &&& globalOn ≠ 0 ∨ e.entryHi &&& asidMask = hi &&& asidMask)

instance (e : Pte) (hi : Word) : Decidable (e.Matches hi) := inferInstanceAs (Decidable (_ ∧ _))

/-- The index that `findFrame` returns, with the remainder of C. A negative one is in front of
`frameSwapPool` and leaves the model. -/
def frameOf (nextFrame : Word) : Option (Fin poolSize) :=
  if h : 0 ≤ nextFrame.toInt.tmod poolSize then
    some ⟨(nextFrame.toInt.tmod poolSize).toNat,
      (Int.toNat_lt h).mpr (Int.tmod_lt_of_pos _ (by decide))⟩
  else none

/-- The index of a process in `userProcArray`, from its ASID. -/
def procOf (n : Nat) (asid : Int) : Option (Fin n) :=
  if h : 1 ≤ asid ∧ asid ≤ n then some ⟨(asid - 1).toNat, by omega⟩ else none

/-- The index of a page in a page table. -/
def entryOf (page : Nat) : Option (Fin maxKuseg) :=
  if h : page < maxKuseg then some ⟨page, h⟩ else none

def tlbModification : Word := 1

/-- An exception of the TLB with this code. -/
def causeOf (excCode : Word) : Word := excCode <<< excCodeShift

/-- The number of the word in its page. -/
def wordOf (va : Addr) : Fin 1024 :=
  ⟨((va &&& frameNumMask) >>> 2).toNat % 1024, Nat.mod_lt _ (by decide)⟩

/-- The character at an address, in its word. -/
def charOf (w : Word) (va : Addr) : Word := (w >>> (8 * (va.toNat % 4))) &&& 0xFF

structure Sys (n : Nat) where
  control : Fin n → Control
  sema4 : Sem → Semaphore (Fin n)
  masterSema4 : Int
  /-- the static variable of `findFrame` -/
  nextFrame : Word
  frameSwapPool : Fin poolSize → SwapEntry
  kuseg2PT : Fin n → Fin maxKuseg → Pte
  kuseg3PT : Fin maxKuseg → Pte
  /-- the page table entries that the TLB has -/
  tlb : List Pte
  ram : Ram
  disk : Disk

namespace Sys

variable {n : Nat}

def goto (s : Sys n) (p : Fin n) (c : Control) : Sys n :=
  { s with control := update s.control p c }

/-- SYS4 -/
def passeren (s : Sys n) (m : Sem) (p : Fin n) : Sys n :=
  { s with sema4 := update s.sema4 m ((s.sema4 m).passeren p) }

/-- SYS3 -/
def verhogen (s : Sys n) (m : Sem) : Sys n :=
  { s with sema4 := update s.sema4 m (s.sema4 m).verhogen }

/-- The process waits for a mutex. -/
def Blocked (s : Sys n) (p : Fin n) : Prop :=
  p ∈ (s.sema4 .swapmutex).waiters ∨ p ∈ (s.sema4 diskMutex).waiters ∨
    p ∈ (s.sema4 (.deviceSema4 (terminalSem (p + 1)))).waiters

instance (s : Sys n) (p : Fin n) : Decidable (s.Blocked p) :=
  inferInstanceAs (Decidable (_ ∨ _ ∨ _))

/-! ### Accesses to user memory -/

/-- `EntryHi` at an access of `p`. -/
def accessHi (p : Fin n) (va : Addr) : Word := (va &&& ~~~frameNumMask) ||| entryHi p

/-- The search of the page table that the segment table has for the segment and the process. -/
def search (s : Sys n) (p : Fin n) (hi : Word) : Option Pte :=
  if segmentOf hi = kuseg2 then (List.ofFn (s.kuseg2PT p)).find? fun e => e.Matches hi
  else if segmentOf hi = kuseg3 then (List.ofFn s.kuseg3PT).find? fun e => e.Matches hi
  else none

def lookup (s : Sys n) (p : Fin n) (hi : Word) : Option Pte :=
  (s.tlb.find? fun e => e.Matches hi).or (s.search p hi)

/-- An entry that was not in the TLB is there after the access. -/
def refill (s : Sys n) (p : Fin n) (hi : Word) : Sys n :=
  match s.tlb.find? fun e => e.Matches hi with
  | some _ => s
  | none => { s with tlb := (s.search p hi).toList ++ s.tlb }

/-- The address of the frame, or the cause of the exception. -/
def translate (b : Board n) (s : Sys n) (p : Fin n) (hi : Word) (store : Bool) :
    Except Word Word :=
  match s.lookup p hi with
  | none => .error b.missCause
  | some e =>
    if e.valid = 0 then .error (causeOf (if store then tlbInvalidStore else tlbInvalidLoad))
    else if store ∧ e.entryLo &&& dirtyOn = 0 then .error (causeOf tlbModification)
    else .ok (e.entryLo &&& ~~~frameNumMask)

/-- The nucleus passes a TLB exception up to `UserTLBHandler`. -/
def fault (s : Sys n) (p : Fin n) (st : State) (hi cause : Word) (back : Back) : Sys n :=
  s.goto p (.tlb { st with sCause := cause, sAsid := hi } back .enter)

/-! ### The disk operations of a process -/

/-- One step of a disk operation, up to its next syscall. `control` is where the process is in
it and `done` where it is after the V of disk 0. -/
def ioStep (s : Sys n) (p : Fin n) (job : Job) (control : IoStage → Control) (done : Control) :
    IoStage → Option (Sys n)
  | .seek => some ({ s with disk := s.disk.give job.seek }.goto p (control .transfer))
  | .transfer =>
    -- SYS8 returns when the arm has moved
    if s.disk.busy = none then
      let disk := { s.disk with data0 := job.data0 }
      some ({ s with disk := disk.give job.command }.goto p (control .release))
    else none
  | .release =>
    if s.disk.busy = none then some ((s.verhogen diskMutex).goto p done) else none

/-! ### `UserTLBHandler` -/

/-- Up to the P of `swapmutex`. -/
def enterTlb (s : Sys n) (p : Fin n) (old : State) (back : Back) : Sys n :=
  let excCode := excCodeOf old.sCause
  if excCode ≠ tlbInvalidLoad ∧ excCode ≠ tlbInvalidStore then s.goto p .terminate
  else (s.passeren .swapmutex p).goto p (.tlb old back .check)

/-- `segTable->entries[asid-1].kuseg3->entries[page].entryLo`. The entry 0 of the segment table
is never set and a page behind the table is not part of it: the input is what is read there. -/
def recheck (s : Sys n) (p : Fin n) (page : Nat) (input : Option Word) : Option Word :=
  match procOf n (asidOf (entryHi p) - 1 : Int), entryOf page with
  | some _, some i => some (s.kuseg3PT i).entryLo
  | _, _ => input

/-- The eviction of the page in the frame, up to the P of disk 0. An index outside the tables
leaves the model; it is in none of the records that a process finds in a run. -/
def bootOut (s : Sys n) (p : Fin n) (old : State) (back : Back) (frame : Fin poolSize) :
    Option (Sys n) :=
  let victim := s.frameSwapPool frame
  let booting := Control.tlb old back (.boot frame victim .seek)
  if victim.segNum = kuseg3 then do
    let _ ← procOf n victim.ASID
    let i ← entryOf victim.pageNum
    let s := { s with
      kuseg3PT := update s.kuseg3PT i (s.kuseg3PT i).flipValid
      tlb := [] }
    return (s.passeren diskMutex p).goto p booting
  else if victim.segNum = kuseg2 then do
    let q ← procOf n victim.ASID
    let i ← entryOf victim.pageNum
    let s := { s with
      kuseg2PT := update s.kuseg2PT q (update (s.kuseg2PT q) i (s.kuseg2PT q i).flipValid)
      tlb := [] }
    return (s.passeren diskMutex p).goto p booting
  else
    return (s.passeren diskMutex p).goto p (.tlb old back (.load frame .seek))

/-- From `findFrame` to the P of disk 0. -/
def takeFrame (s : Sys n) (p : Fin n) (old : State) (back : Back) : Option (Sys n) := do
  let nextFrame := s.nextFrame + 1
  let frame ← frameOf nextFrame
  let s := { s with nextFrame }
  if (s.frameSwapPool frame).ASID ≠ unoccupiedFrame then s.bootOut p old back frame
  else return (s.passeren diskMutex p).goto p (.tlb old back (.load frame .seek))

/-- After the P of `swapmutex`. A shared page may be there by now. A bad pointer traps, and
`UserProgramTrapHandler` asks for SYS18. -/
def checkTlb (s : Sys n) (p : Fin n) (old : State) (back : Back) (input : Option Word) :
    Option (Sys n) :=
  if segmentOf old.sAsid = kuseg3 then
    match s.recheck p (pageOf old.sAsid) input with
    | none => some (s.goto p .terminate)
    | some entryLo =>
      if (entryLo &&& validMask) >>> validShift ≠ 0 then
        some ((s.verhogen .swapmutex).goto p (.tlb old back .leave))
      else s.takeFrame p old back
  else s.takeFrame p old back

/-- The update of the page table after a page has been loaded. The index of the stack page is two
megabytes behind the table, where no memory is: a bus error. -/
def placePage (b : Board n) (s : Sys n) (p : Fin n) (segment page : Nat) (frame : Fin poolSize) :
    Option (Sys n) :=
  let frameAddr := b.getFrameAddr frame
  if segment = kuseg3 then do
    let _ ← procOf n (asidOf (entryHi p))
    let i ← entryOf page
    return { s with
      kuseg3PT := update s.kuseg3PT i ((s.kuseg3PT i).place frameAddr)
      tlb := [] }
  else if segment = kuseg2 then do
    let q ← procOf n (asidOf (entryHi p))
    let i ← entryOf page
    return { s with
      kuseg2PT := update s.kuseg2PT q (update (s.kuseg2PT q) i ((s.kuseg2PT q i).place frameAddr))
      tlb := [] }
  else return s

/-- From the V of disk 0 after the page-in to the V of `swapmutex`. `UserProgramTrapHandler`
answers a bus error with SYS18. -/
def installPage (b : Board n) (s : Sys n) (p : Fin n) (old : State) (back : Back)
    (frame : Fin poolSize) : Sys n :=
  let segment := segmentOf old.sAsid
  let page := pageOf old.sAsid
  let record : SwapEntry := ⟨asidOf (entryHi p), segment, page⟩
  let s := { s with frameSwapPool := update s.frameSwapPool frame record }
  match s.placePage b p segment page frame with
  | none => s.goto p .terminate
  | some s => (s.verhogen .swapmutex).goto p (.tlb old back .leave)

/-- `UserTLBHandler` up to its next syscall or its end. -/
def userTlbHandler (b : Board n) (s : Sys n) (p : Fin n) (old : State) (back : Back)
    (input : Option Word) : TlbStage → Option (Sys n)
  | .enter => some (s.enterTlb p old back)
  | .check => s.checkTlb p old back input
  | .boot frame victim io =>
    s.ioStep p (bootJob (b.getFrameAddr frame) victim)
      (fun io => .tlb old back (.boot frame victim io)) (.tlb old back (.booted frame)) io
  | .booted frame => some ((s.passeren diskMutex p).goto p (.tlb old back (.load frame .seek)))
  | .load frame io =>
    s.ioStep p (loadJob (b.getFrameAddr frame) (asidOf (entryHi p)) (segmentOf old.sAsid)
      (pageOf old.sAsid)) (fun io => .tlb old back (.load frame io))
      (.tlb old back (.install frame)) io
  | .install frame => some (s.installPage b p old back frame)
  | .leave =>
    match back with
    | .user => some (s.goto p (.user old))
    | .print pr stage => some (s.goto p (.print pr stage))

/-! ### `readTape` -/

def tapeReady : Word := 1
/-- `EOB` -/
def endOfBlock : Word := 2

/-- `readTape` up to its next syscall. The input is the status of the tape or its `DATA1`. The block
that READBLK has put into the tape buffer by then is the matter of `Station.deliver`. -/
def readTape (b : Board n) (s : Sys n) (p : Fin n) (i : Nat) (input : Word) :
    TapeStage → Option (Sys n)
  | .read =>
    if input = tapeReady then some ((s.passeren diskMutex p).goto p (.readTape i (.io .seek)))
    else some (s.goto p (.ldst b.junk))
  | .io stage =>
    s.ioStep p (tapeJob (asidOf (entryHi p)) i) (fun io => .readTape i (.io io))
      (.readTape i .next) stage
  | .next =>
    if input = endOfBlock then some (s.goto p (.readTape (i + 1) .read))
    else some (s.goto p (.ldst b.junk))

/-! ### The syscalls of a user process -/

/-- `UserSyscallHandler` up to its next syscall or its end. The input is the clock. -/
def service (s : Sys n) (p : Fin n) (old : State) (input : Word) : Sys n :=
  match userSyscallHandler old with
  | .returns => s.goto p .lost
  | .writes pr =>
    (s.passeren (.deviceSema4 (terminalSem (asidOf (entryHi p)))) p).goto p (.print pr .test)
  | .getsTod st => s.goto p (.ldst (st.setV0 input))
  | .terminates => s.goto p .terminate

/-- `WriteToTerminal` reads a character: outside the user segments the input is what it finds. -/
def readChar (b : Board n) (s : Sys n) (p : Fin n) (pr : Print) (stage : PrintStage)
    (input : Option Word) (next : Sys n → Word → Sys n) : Sys n :=
  let hi := accessHi p pr.s
  if segmentOf pr.s = kuseg2 ∨ segmentOf pr.s = kuseg3 then
    match s.translate b p hi false with
    | .ok frame => next (s.refill p hi) (charOf (s.ram frame (wordOf pr.s)) pr.s)
    | .error cause => (s.refill p hi).fault p pr.syscallOld hi cause (.print pr stage)
  else
    match input with
    | none => s.goto p .terminate
    | some w => next s (w &&& 0xFF)

/-- `WriteToTerminal` up to its next syscall or its next character. -/
def writeToTerminal (b : Board n) (s : Sys n) (p : Fin n) (pr : Print) (input : Option Word) :
    PrintStage → Option (Sys n)
  | .test => some (s.readChar b p pr .test input fun s c =>
      if c = eos then
        (s.verhogen (.deviceSema4 (terminalSem (asidOf (entryHi p))))).goto p (.ldst pr.finish)
      else s.goto p (.print pr .send))
  | .send => some (s.readChar b p pr .send input fun s _ => s.goto p (.print pr .wait))
  | .wait => do
    let status ← input
    if Transmitted status then return s.goto p (.print pr.next .test)
    let s := s.verhogen (.deviceSema4 (terminalSem (asidOf (entryHi p))))
    return s.goto p (.ldst (pr.fail status))

/-! ### Runs of the support level -/

/-- A process that does not wait for a mutex goes on. -/
def run (b : Board n) (s : Sys n) (p : Fin n) (input : Option Word) : Option (Sys n) :=
  match s.control p with
  | .user _ => none
  | .readTape i stage => do s.readTape b p i (← input) stage
  | .service old => do return s.service p old (← input)
  | .print pr stage => s.writeToTerminal b p pr input stage
  | .ldst st => some (s.goto p (.user st))
  | .tlb old back stage => s.userTlbHandler b p old back input stage
  | .terminate => some ({ s with masterSema4 := s.masterSema4 + 1 }.goto p .ending)
  | .ending => some (s.goto p .dead)
  | .dead => none
  | .lost => none

end Sys

/-- An access of a user process to a word. -/
inductive Op
  | load
  | store (v : Word)
  deriving DecidableEq

inductive Event (n : Nat)
  /-- an access in user mode by an instruction that finds the process in the state `st` -/
  | access (p : Fin n) (st : State) (va : Addr) (op : Op)
  /-- SYSCALL in the state `st` -/
  | syscall (p : Fin n) (st : State)
  /-- a program trap in user mode -/
  | trap (p : Fin n)
  /-- a handler goes on, with what it reads from a device or through a bad pointer -/
  | run (p : Fin n) (input : Option Word)
  /-- the disk has done what it was working on -/
  | disk
  /-- the TLB loses an entry -/
  | forget (i : Nat)

namespace Sys

variable {n : Nat}

/-- An access in user mode. -/
def access (b : Board n) (s : Sys n) (p : Fin n) (st : State) (va : Addr) (op : Op) : Sys n :=
  let hi := accessHi p va
  let s' := s.refill p hi
  match op with
  | .load =>
    match s.translate b p hi false with
    | .ok _ => s'
    | .error cause => s'.fault p st hi cause .user
  | .store v =>
    match s.translate b p hi true with
    | .ok frame => { s' with ram := update s.ram frame (update (s.ram frame) (wordOf va) v) }
    | .error cause => s'.fault p st hi cause .user

def InUser (s : Sys n) (p : Fin n) : Prop := ∃ st, s.control p = .user st

instance (s : Sys n) (p : Fin n) : Decidable (s.InUser p) :=
  match h : s.control p with
  | .user st => .isTrue ⟨st, h⟩
  | .readTape _ _ => .isFalse (by simp [InUser, h])
  | .service _ => .isFalse (by simp [InUser, h])
  | .print _ _ => .isFalse (by simp [InUser, h])
  | .ldst _ => .isFalse (by simp [InUser, h])
  | .tlb _ _ _ => .isFalse (by simp [InUser, h])
  | .terminate => .isFalse (by simp [InUser, h])
  | .ending => .isFalse (by simp [InUser, h])
  | .dead => .isFalse (by simp [InUser, h])
  | .lost => .isFalse (by simp [InUser, h])

/-- One step of the support level. The nucleus passes up a syscall that is none of its eight with
the program counter advanced. -/
def step (b : Board n) (s : Sys n) : Event n → Option (Sys n)
  | .access p st va op =>
    if s.InUser p ∧ (segmentOf va = kuseg2 ∨ segmentOf va = kuseg3) then
      some (s.access b p st va op)
    else none
  | .syscall p st =>
    if s.InUser p ∧ ¬ (minSyscall ≤ st.sA0 ∧ st.sA0 ≤ maxSyscall) then
      some (s.goto p (.service st.advancePc))
    else none
  | .trap p => if s.InUser p then some (s.goto p .terminate) else none
  | .run p input => if s.Blocked p then none else s.run b p input
  | .disk => do
    let (disk, ram) ← s.disk.complete s.ram
    return { s with disk, ram }
  | .forget i => some { s with tlb := s.tlb.eraseIdx i }

/-- What `test` hands over to the user processes, of which none has run yet. -/
structure Fresh (s : Sys n) : Prop where
  control : ∀ p, s.control p = .readTape 0 .read
  sema4 : ∀ m, s.sema4 m = .mutex
  nextFrame : s.nextFrame = 0
  frameSwapPool : ∀ f, (s.frameSwapPool f).ASID = unoccupiedFrame
  kuseg2PT : ∀ p, s.kuseg2PT p = initialKuseg2PT (p + 1)
  kuseg3PT : s.kuseg3PT = initialKuseg3PT
  tlb : s.tlb = []
  busy : s.disk.busy = none

/-- With nothing but zeros in memory and on the disk. -/
def blank (n : Nat) : Sys n where
  control := fun _ => .readTape 0 .read
  sema4 := fun _ => .mutex
  masterSema4 := 0
  nextFrame := 0
  frameSwapPool := fun _ => ⟨unoccupiedFrame, 0, 0⟩
  kuseg2PT := fun p => initialKuseg2PT (p + 1)
  kuseg3PT := initialKuseg3PT
  tlb := []
  ram := fun _ _ => 0
  disk := ⟨0, 0, none, fun _ _ => 0⟩

lemma fresh_blank : (blank n).Fresh :=
  ⟨fun _ => rfl, fun _ => rfl, rfl, fun _ => rfl, fun _ => rfl, rfl, rfl, rfl⟩

end Sys

/-- A machine with a megabyte of memory for two user processes. -/
def twoProcesses : Board 2 where
  procCnt_le := by decide
  ramtop := 0x20100000
  aligned := by decide
  room := by decide
  missCause := causeOf 0x19
  missCause_ne := by decide
  junk := ⟨0, 0, 0, 0, fun _ => 0⟩

end Kaya.Support
