import Kaya.Types

/-!
# `pcb.c`

Process queues, the free list of PCBs and the process tree, as the code computes them on
`procTable`. A function that takes the address of a tail pointer returns its new value.
The result `none` stands for a run that never returns: the code follows a `NULL` pointer
or loops for ever.
-/

namespace Kaya

open Function

/-! ### Process queues -/

def mkEmptyProcQ : PcbPtr := none

def emptyProcQ (tp : PcbPtr) : Bool := tp.isNone

def headProcQ (tp : PcbPtr) (t : ProcTable) : PcbPtr :=
  match tp with
  | none => none
  | some z => t.pNext z

def insertProcQ (tp p : PcbPtr) (t : ProcTable) : Option (PcbPtr × ProcTable) := do
  let p ← p
  match tp with
  | none =>
    let t := { t with pPrev := update t.pPrev p (some p) }
    let t := { t with pNext := update t.pNext p (some p) }
    return (some p, t)
  | some z =>
    let t := { t with pNext := update t.pNext p (t.pNext z) }
    let head ← t.pNext z
    let t := { t with pPrev := update t.pPrev head (some p) }
    let t := { t with pPrev := update t.pPrev p (some z) }
    let t := { t with pNext := update t.pNext z (some p) }
    return (some p, t)

/-- The removed PCB, the new tail pointer and the table. -/
def removeProcQ (tp : PcbPtr) (t : ProcTable) : Option (PcbPtr × PcbPtr × ProcTable) :=
  match tp with
  | none => some (none, none, t)
  | some z =>
    if some z = headProcQ tp t then
      some (some z, mkEmptyProcQ, t)
    else do
      let head ← t.pNext z
      let t := { t with pNext := update t.pNext z (t.pNext head) }
      let second ← t.pNext z
      let t := { t with pPrev := update t.pPrev second (some z) }
      return (some head, some z, t)

/-- The search loop of `outProcQ`. A search that has not come back to the tail after one
step for every PCB never does, so that many steps are enough. -/
def outProcQLoop (tp : PcbPtr) (p : PcbIx) (t : ProcTable) :
    Nat → PcbIx → Option (PcbPtr × ProcTable)
  | 0, _ => none
  | fuel + 1, current =>
    if current = p then do
      -- the tail pointer passed on is a local copy of the predecessor
      let (r, _, t) ← removeProcQ (t.pPrev current) t
      return (r, t)
    else do
      let current ← t.pNext current
      if some current = tp then return (none, t) else outProcQLoop tp p t fuel current

def outProcQ (tp : PcbPtr) (p : PcbIx) (t : ProcTable) :
    Option (PcbPtr × PcbPtr × ProcTable) :=
  match tp with
  | none => some (none, none, t)
  | some z =>
    if some z = headProcQ tp t then
      if z = p then removeProcQ tp t else some (none, tp, t)
    else if z = p then
      removeProcQ (t.pPrev z) t
    else do
      let (r, t) ← outProcQLoop tp p t (maxProc + 1) z
      return (r, tp, t)

/-! ### The free list -/

def freePcb (pcbListH : PcbPtr) (p : PcbPtr) (t : ProcTable) : Option (PcbPtr × ProcTable) :=
  insertProcQ pcbListH p t

/-- The allocated PCB, the new tail of the free list and the table. The processor state
`p_s` is the one field the code does not initialize. -/
def allocPcb (pcbListH : PcbPtr) (t : ProcTable) : Option (PcbPtr × PcbPtr × ProcTable) :=
  if emptyProcQ pcbListH then
    some (none, pcbListH, t)
  else do
    let (elem, pcbListH, t) ← removeProcQ pcbListH t
    let elem ← elem
    let t := { t with
      pPrev := update t.pPrev elem none
      pNext := update t.pNext elem none
      pPrnt := update t.pPrnt elem none
      pChild := update t.pChild elem none
      pSibPrev := update t.pSibPrev elem none
      pSibNext := update t.pSibNext elem none
      pSemAdd := update t.pSemAdd elem null
      pTotalTime := update t.pTotalTime elem 0
      oldAreas := update t.oldAreas elem fun _ => null
      newAreas := update t.newAreas elem fun _ => null }
    return (some elem, pcbListH, t)

def initPcbs (t : ProcTable) : Option (PcbPtr × ProcTable) :=
  (List.finRange maxProc).foldlM (fun (h, t) i => freePcb h (some i) t) (mkEmptyProcQ, t)

/-! ### The process tree -/

def emptyChild (p : PcbIx) (t : ProcTable) : Bool := (t.pChild p).isNone

def insertChild (prnt p : PcbIx) (t : ProcTable) : ProcTable :=
  let t := { t with pPrnt := update t.pPrnt p (some prnt) }
  match t.pChild prnt with
  | none => { t with pChild := update t.pChild prnt (some p) }
  | some c =>
    let t := { t with pSibNext := update t.pSibNext p (some c) }
    let t := { t with pSibPrev := update t.pSibPrev c (some p) }
    { t with pChild := update t.pChild prnt (some p) }

def removeChild (p : PcbIx) (t : ProcTable) : Option (PcbPtr × ProcTable) :=
  match t.pChild p with
  | none => some (none, t)
  | some child =>
    if t.pSibNext child = none ∧ t.pSibPrev child = none then
      some (some child, { t with pChild := update t.pChild p none })
    else do
      let t := { t with pChild := update t.pChild p (t.pSibNext child) }
      let first ← t.pChild p
      let t := { t with pSibPrev := update t.pSibPrev first none }
      return (some child, t)

/-- The search loop of `outChild`, bounded like that of `outProcQ`. -/
def outChildLoop (p : PcbIx) (t : ProcTable) : Nat → PcbPtr → Option ProcTable
  | 0, _ => none
  | fuel + 1, current =>
    if current = some p then
      match t.pSibNext p with
      | none => do
        let prev ← t.pSibPrev p
        return { t with pSibNext := update t.pSibNext prev none }
      | some next => do
        let prev ← t.pSibPrev p
        let t := { t with pSibNext := update t.pSibNext prev (t.pSibNext p) }
        return { t with pSibPrev := update t.pSibPrev next (t.pSibPrev p) }
    else do
      let current ← current
      outChildLoop p t fuel (t.pSibNext current)

def outChild (p : PcbIx) (t : ProcTable) : Option (PcbPtr × ProcTable) :=
  match t.pPrnt p with
  | none => some (none, t)
  | some parent =>
    if t.pChild parent = some p then
      removeChild parent t
    else do
      let t ← outChildLoop p t (maxProc + 1) (t.pChild parent)
      return (some p, t)

end Kaya
