import Kaya.Types

/-!
# `initProc.c`: tables, frames and the disk

The constants and records of phase 3, the page tables that `test` builds, where the frames of
the swap pool lie, and the disk commands with the way the disk reads them.
-/

namespace Kaya.Support

open Function

/-- `MAXKUSEG` -/
abbrev maxKuseg : Nat := 32
/-- `POOLSIZE` -/
abbrev poolSize : Nat := 6

def kuseg2 : Nat := 2
def kuseg3 : Nat := 3
def kuseg2Start : Word := 0x80000
def kuseg2Last : Word := 0xBFFFF
def kuseg3Start : Word := 0xC0000

def segMask : Word := 0xC0000000
def segShift : Nat := 30
def pageMask : Word := 0x3FFFF000
def pageShift : Nat := 12
def asidMask : Word := 0x00000FC0
def asidShift : Nat := 6
def frameNumMask : Word := 0x00000FFF
def dirtyOn : Word := 0x00000400
def validOn : Word := 0x00000200
def globalOn : Word := 0x00000100
def validMask : Word := 0x00000200
def validShift : Nat := 9
def unoccupiedFrame : Int := -1

def excCodeMask : Word := 0x0000007C
def excCodeShift : Nat := 2
def tlbInvalidLoad : Word := 2
def tlbInvalidStore : Word := 3

/-! ### Page tables -/

/-- `pagetbe_t` -/
structure Pte where
  entryHi : Word
  entryLo : Word
  deriving DecidableEq

namespace Pte

def valid (e : Pte) : Word := (e.entryLo &&& validMask) >>> validShift

/-- What the pager does to the entry of a page it evicts. -/
def flipValid (e : Pte) : Pte := { e with entryLo := e.entryLo ^^^ validOn }

/-- What the pager does to the entry of a page it has loaded. -/
def place (e : Pte) (frameAddr : Word) : Pte :=
  { e with entryLo := frameAddr + ((e.entryLo ||| validOn) &&& frameNumMask) }

end Pte

/-- `frameswappoole_t` -/
structure SwapEntry where
  ASID : Int
  segNum : Nat
  pageNum : Nat
  deriving DecidableEq

/-- The fields of `EntryHi`. -/
def segmentOf (entryHi : Word) : Nat := ((entryHi &&& segMask) >>> segShift).toNat
def pageOf (entryHi : Word) : Nat := ((entryHi &&& pageMask) >>> pageShift).toNat
def asidOf (entryHi : Word) : Nat := ((entryHi &&& asidMask) >>> asidShift).toNat

/-- The exception code in the cause register. -/
def excCodeOf (cause : Word) : Word := (cause &&& excCodeMask) >>> excCodeShift

/-- The kuseg2 page table of the process with the ASID `n`, as `test` builds it. -/
def initialKuseg2PT (n : Nat) (i : Fin maxKuseg) : Pte :=
  let asid := BitVec.ofNat 32 n <<< asidShift
  if i.val = maxKuseg - 1 then ⟨(kuseg2Last <<< pageShift) ||| asid, allOff ||| dirtyOn⟩
  else ⟨((kuseg2Start + BitVec.ofNat 32 i) <<< pageShift) ||| asid, allOff ||| dirtyOn⟩

/-- The shared kuseg3 page table, as `test` builds it. -/
def initialKuseg3PT (i : Fin maxKuseg) : Pte :=
  ⟨(kuseg3Start + BitVec.ofNat 32 i) <<< pageShift, allOff ||| dirtyOn ||| globalOn⟩

/-! ### The machine -/

/-- What differs from one installation for `n` user processes to another. Memory is taken to be
laid out as the source means it: the swap pool lies above the stacks of the handlers and the tape
buffers, the elements of `deviceSema4s` that are used are there (as they are for the ASIDs up to
16), and memory ends before the entry that a page table would have for the stack page. -/
structure Board (n : Nat) where
  /-- the ASID field has six bits, and the nucleus itself has the ASID 0 -/
  procCnt_le : n ≤ 63
  /-- `busReg->rambase + busReg->ramsize` -/
  ramtop : Word
  aligned : ramtop.toNat % 4096 = 0
  room : (poolSize + 3) * 4096 ≤ ramtop.toNat
  /-- the cause register after an access to a page without a page table entry -/
  missCause : Word
  missCause_ne : excCodeOf missCause ≠ tlbInvalidLoad ∧ excCodeOf missCause ≠ tlbInvalidStore
  /-- what a `state_t` on the stack holds before anything is written to it -/
  junk : State

namespace Board

variable {n : Nat}

def framePoolStart (b : Board n) : Word := b.ramtop - BitVec.ofNat 32 (poolSize + 3) * pageSize

/-- `getFrameAddr` -/
def getFrameAddr (b : Board n) (frameNum : Fin poolSize) : Word :=
  b.framePoolStart + BitVec.ofNat 32 frameNum * pageSize

end Board

/-- The `EntryHi` register of the process with the index `p`, which has the ASID `p + 1`. -/
def entryHi {n : Nat} (p : Fin n) : Word := BitVec.ofNat 32 (p + 1) <<< asidShift

/-! ### The disk -/

def seekCyl : Word := 2
def readBlk : Word := 3
def writeBlk : Word := 4
def deviceCommandShift : Nat := 8
def kuseg2Head : Int := 0
def kuseg3Head : Int := 1
def diskLine : Nat := 3
def backingStore : Nat := 0

/-- The index of the semaphore of disk 0. -/
def diskSem : Nat := (diskLine - initialDevLineNum) * numDevicesPerType + backingStore

def getCylinderNum (pageNum : Int) : Int := if 31 ≤ pageNum then 31 else pageNum

def getSectorNum (procNum : Int) : Int := procNum - 1

/-- For a segment other than the two, the source returns an unset value. -/
def getHeadNum (segment : Nat) : Int := if segment = kuseg2 then kuseg2Head else kuseg3Head

def romPageStart : Word := 0x20000000
def osFrames : Word := 30

def getTapeBufferAddr (tapeNum : Int) : Word :=
  romPageStart + osFrames * pageSize + BitVec.ofInt 32 tapeNum * pageSize

/-- The command that moves the arm to the cylinder of a page. -/
def seekCommand (pageNum : Int) : Word :=
  seekCyl + BitVec.ofInt 32 (getCylinderNum pageNum) <<< deviceCommandShift

/-- The command that transfers the block of a process and segment. -/
def blockCommand (op : Word) (procNum : Int) (segment : Nat) : Word :=
  op + BitVec.ofInt 32 (getSectorNum procNum) <<< deviceCommandShift +
    BitVec.ofInt 32 (getHeadNum segment) <<< (2 * deviceCommandShift)

/-- What is done between P and V of disk 0: seek, set the buffer and transfer. -/
structure Job where
  seek : Word
  data0 : Word
  command : Word
  deriving DecidableEq

/-- Page-out of the page in the frame at `frameAddr`. -/
def bootJob (frameAddr : Word) (victim : SwapEntry) : Job where
  seek := seekCommand victim.pageNum
  data0 := frameAddr
  command :=
    blockCommand writeBlk (if victim.segNum = kuseg3 then 0 else victim.ASID) victim.segNum

/-- Page-in. -/
def loadJob (frameAddr : Word) (asid segment page : Nat) : Job where
  seek := seekCommand page
  data0 := frameAddr
  command := blockCommand readBlk asid segment

/-- Block `i` of the tape. -/
def tapeJob (procNum i : Nat) : Job where
  seek := seekCommand i
  data0 := getTapeBufferAddr (procNum - 1)
  command := blockCommand writeBlk procNum kuseg2

/-- Where a block lies. -/
structure Location where
  cylinder : Nat
  head : Nat
  sector : Nat
  deriving DecidableEq

/-! The disk reads the operation in the low byte of the command, then either the cylinder or
the sector and the head. -/

def opOf (command : Word) : Word := command &&& 0xFF
def cylinderOf (command : Word) : Nat := ((command >>> 8) &&& 0xFFFF).toNat
def sectorOf (command : Word) : Nat := ((command >>> 8) &&& 0xFF).toNat
def headOf (command : Word) : Nat := ((command >>> 16) &&& 0xFF).toNat

/-- The block that a disk operation is about. -/
def Job.location (job : Job) : Location :=
  ⟨cylinderOf job.seek, headOf job.command, sectorOf job.command⟩

/-- A frame of memory or a block of the disk. -/
abbrev Block := Fin 1024 → Word

/-- Memory by the addresses of its frames. -/
abbrev Ram := Word → Block

structure Disk where
  arm : Nat
  data0 : Word
  /-- the command that the disk is working on -/
  busy : Option Word
  blocks : Location → Block

namespace Disk

/-- Writing the command register. -/
def give (d : Disk) (command : Word) : Disk := { d with busy := some command }

/-- Where the disk finds the block of a command. -/
def location (d : Disk) (command : Word) : Location := ⟨d.arm, headOf command, sectorOf command⟩

/-- The disk has done what it was working on. -/
def complete (d : Disk) (ram : Ram) : Option (Disk × Ram) :=
  match d.busy with
  | none => none
  | some command =>
    let d := { d with busy := none }
    if opOf command = seekCyl then some ({ d with arm := cylinderOf command }, ram)
    else if opOf command = readBlk then
      some (d, update ram d.data0 (d.blocks (d.location command)))
    else if opOf command = writeBlk then
      some ({ d with blocks := update d.blocks (d.location command) (ram d.data0) }, ram)
    else some (d, ram)

end Disk

end Kaya.Support
