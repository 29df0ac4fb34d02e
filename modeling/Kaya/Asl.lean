import Kaya.Pcb

/-!
# `asl.c`

The active semaphore list: descriptors sorted by semaphore address between two dummies,
each with the queue of the processes blocked on its semaphore, and the stack of free
descriptors.
-/

namespace Kaya

open Function

def freeSemd (d : SemdIx) (s : SemdTable) : SemdTable :=
  { s with sNext := update s.sNext d s.semdFreeH, semdFreeH := some d }

def allocSemd (s : SemdTable) : SemdPtr × SemdTable :=
  match s.semdFreeH with
  | none => (none, s)
  | some temp =>
    (some temp, { s with
      semdFreeH := s.sNext temp
      sNext := update s.sNext temp none
      sSemAdd := update s.sSemAdd temp 0
      sProcQ := update s.sProcQ temp none })

def initASL (s : SemdTable) : Option SemdTable := do
  let s := { s with semdFreeH := none }
  let s := (List.finRange (maxProc + 2)).foldl (fun s i => freeSemd i s) s
  let (dummy1, s) := allocSemd s
  let (dummy2, s) := allocSemd s
  let d1 ← dummy1
  let d2 ← dummy2
  let s := { s with sSemAdd := update s.sSemAdd d1 0 }
  let s := { s with sSemAdd := update s.sSemAdd d2 null }
  return { s with semdH := some d1, sNext := update s.sNext d1 (some d2) }

/-- The loop of `searchASL`. A search longer than the descriptor table never ends. -/
def searchASLLoop (semAdd : Addr) (s : SemdTable) : Nat → SemdIx → Option SemdIx
  | 0, _ => none
  | fuel + 1, current => do
    let next ← s.sNext current
    if s.sSemAdd next < semAdd then searchASLLoop semAdd s fuel next else return current

/-- The descriptor in front of the one for `semAdd`, or of where it would be. -/
def searchASL (semAdd : Addr) (s : SemdTable) : Option SemdIx := do
  let current ← s.semdH
  searchASLLoop semAdd s (maxProc + 2) current

/-- `TRUE` when a descriptor was needed and none was free. -/
def insertBlocked (semAdd : Addr) (p : PcbIx) (t : ProcTable) (s : SemdTable) :
    Option (Bool × ProcTable × SemdTable) := do
  let temp ← searchASL semAdd s
  let next ← s.sNext temp
  if s.sSemAdd next = semAdd then
    let (q, t) ← insertProcQ (s.sProcQ next) (some p) t
    let s := { s with sProcQ := update s.sProcQ next q }
    let t := { t with pSemAdd := update t.pSemAdd p semAdd }
    return (false, t, s)
  else
    let (temp2, s) := allocSemd s
    match temp2 with
    | none => return (true, t, s)
    | some temp2 =>
      let s := { s with sSemAdd := update s.sSemAdd temp2 semAdd }
      let s := { s with sProcQ := update s.sProcQ temp2 mkEmptyProcQ }
      let s := { s with sNext := update s.sNext temp2 (s.sNext temp) }
      let s := { s with sNext := update s.sNext temp (some temp2) }
      let (q, t) ← insertProcQ (s.sProcQ temp2) (some p) t
      let s := { s with sProcQ := update s.sProcQ temp2 q }
      let t := { t with pSemAdd := update t.pSemAdd p semAdd }
      return (false, t, s)

/-- Unlinks the descriptor behind `temp` and frees it when its queue has become empty. -/
def retireSemd (temp next : SemdIx) (s : SemdTable) : SemdTable :=
  if emptyProcQ (s.sProcQ next) then
    freeSemd next { s with sNext := update s.sNext temp (s.sNext next) }
  else s

def removeBlocked (semAdd : Addr) (t : ProcTable) (s : SemdTable) :
    Option (PcbPtr × ProcTable × SemdTable) := do
  let temp ← searchASL semAdd s
  let next ← s.sNext temp
  if s.sSemAdd next = semAdd then
    let (temp2, q, t) ← removeProcQ (s.sProcQ next) t
    let s := { s with sProcQ := update s.sProcQ next q }
    return (temp2, t, retireSemd temp next s)
  else
    return (none, t, s)

def outBlocked (p : PcbIx) (t : ProcTable) (s : SemdTable) :
    Option (PcbPtr × ProcTable × SemdTable) := do
  let temp ← searchASL (t.pSemAdd p) s
  let next ← s.sNext temp
  if s.sSemAdd next = t.pSemAdd p then
    let (temp2, q, t) ← outProcQ (s.sProcQ next) p t
    let s := { s with sProcQ := update s.sProcQ next q }
    return (temp2, t, retireSemd temp next s)
  else
    return (none, t, s)

def headBlocked (semAdd : Addr) (t : ProcTable) (s : SemdTable) : Option PcbPtr := do
  let temp ← searchASL semAdd s
  let next ← s.sNext temp
  if s.sSemAdd next = semAdd then
    return headProcQ (s.sProcQ next) t
  else
    return none

end Kaya
