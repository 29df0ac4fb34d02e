import Kaya.Lib.Calls
import Kaya.Refine.Runs

/-!
# Recycled PCBs

The free list of PCBs as an object: PCBs are handed out, written by their owners and given
back. `allocPcb` resets every field of a PCB but its processor state, so what an earlier owner
has stored there comes with it.
-/

namespace Kaya

open Function Linked

/-- `pcb_t` -/
@[ext]
structure Pcb where
  pNext : PcbPtr
  pPrev : PcbPtr
  pPrnt : PcbPtr
  pChild : PcbPtr
  pSibPrev : PcbPtr
  pSibNext : PcbPtr
  pS : State
  pSemAdd : Addr
  pTotalTime : Word
  oldAreas : Fin trapTypes → Addr
  newAreas : Fin trapTypes → Addr

/-- What `allocPcb` makes of a PCB with the processor state `st`. -/
def Pcb.reset (st : State) : Pcb where
  pNext := none
  pPrev := none
  pPrnt := none
  pChild := none
  pSibPrev := none
  pSibNext := none
  pS := st
  pSemAdd := null
  pTotalTime := 0
  oldAreas := fun _ => null
  newAreas := fun _ => null

namespace ProcTable

def pcb (t : ProcTable) (p : PcbIx) : Pcb where
  pNext := t.pNext p
  pPrev := t.pPrev p
  pPrnt := t.pPrnt p
  pChild := t.pChild p
  pSibPrev := t.pSibPrev p
  pSibNext := t.pSibNext p
  pS := t.pS p
  pSemAdd := t.pSemAdd p
  pTotalTime := t.pTotalTime p
  oldAreas := t.oldAreas p
  newAreas := t.newAreas p

def setPcb (t : ProcTable) (p : PcbIx) (r : Pcb) : ProcTable where
  pNext := update t.pNext p r.pNext
  pPrev := update t.pPrev p r.pPrev
  pPrnt := update t.pPrnt p r.pPrnt
  pChild := update t.pChild p r.pChild
  pSibPrev := update t.pSibPrev p r.pSibPrev
  pSibNext := update t.pSibNext p r.pSibNext
  pS := update t.pS p r.pS
  pSemAdd := update t.pSemAdd p r.pSemAdd
  pTotalTime := update t.pTotalTime p r.pTotalTime
  oldAreas := update t.oldAreas p r.oldAreas
  newAreas := update t.newAreas p r.newAreas

end ProcTable

/-- What happens to the free list and the PCBs. -/
inductive PoolCall
  | allocPcb
  | freePcb (p : PcbIx)
  /-- the owner of `p` writes any of its fields -/
  | write (p : PcbIx) (r : Pcb)

/-- `pcbList_h` and `procTable` -/
structure PcbPool where
  pcbListH : PcbPtr
  procs : ProcTable

/-- The call on the PCBs. Only `allocPcb` returns something. -/
def PoolCall.exec (x : PcbPool) : PoolCall → Option (PcbPtr × PcbPool)
  | allocPcb => (Kaya.allocPcb x.pcbListH x.procs).map fun r => (r.1, ⟨r.2.1, r.2.2⟩)
  | freePcb p => (Kaya.freePcb x.pcbListH (some p) x.procs).map fun r => (none, ⟨r.1, r.2⟩)
  | write p r => some (none, ⟨x.pcbListH, x.procs.setPcb p r⟩)

/-- The PCBs that are not handed out, in the order in which they will be. An owner writes to and
gives back only what it has. -/
def pcbPool : Spec (List PcbIx) PoolCall PcbPtr where
  step free
    | .allocPcb => (free.head?, free.tail)
    | .freePcb p => (none, free ++ [p])
    | .write _ _ => (none, free)
  ok free
    | .allocPcb => True
    | .freePcb p => p ∉ free
    | .write p _ => p ∉ free

/-- The PCBs that are handed out after these calls. -/
def outstanding (cs : List PoolCall) : Finset PcbIx :=
  (pcbPool.after cs (List.finRange maxProc)).toFinsetᶜ

/-- The calls without what the owners write. -/
def schedule (cs : List PoolCall) : List PoolCall :=
  cs.filter fun
    | .write _ _ => false
    | _ => true

/-- The processor state that was last written to each PCB. -/
def lastStates (pS : PcbIx → State) (cs : List PoolCall) : PcbIx → State :=
  cs.foldl (fun pS c =>
    match c with
    | .write p r => update pS p r.pS
    | _ => pS) pS

/-! ### The free list -/

section Alloc

variable {t : ProcTable} {tp : PcbPtr} {p : PcbIx} {rest : List PcbIx}

lemma allocPcb_spec (h : IsQueue t tp (p :: rest)) :
    ∃ tp' next prev, allocPcb tp t =
        some (some p, tp', (t.withLinks next prev).setPcb p (.reset (t.pS p))) ∧
      IsQueue ((t.withLinks next prev).setPcb p (.reset (t.pS p))) tp' rest ∧
      LinksOff rest t next prev := by
  obtain ⟨tp', next, prev, hrem, hq, hoff⟩ := removeProcQ_spec h
  have hsome : tp ≠ none := by
    intro hn
    have hnil := IsRing.eq_nil (hn ▸ h)
    simp at hnil
  have hp : p ∉ rest := (List.nodup_cons.mp (IsRing.nodup h)).1
  refine ⟨tp', next, prev, ?_, ?_, hoff⟩
  · simp [allocPcb, emptyProcQ, hsome, hrem, ProcTable.withLinks, ProcTable.setPcb, Pcb.reset]
  · apply IsRing.congr hq
    intro x hx
    have hxp : x ≠ p := fun he => hp (he ▸ hx)
    simp [ProcTable.setPcb, hxp]

end Alloc

/-- The free list holds the PCBs that are not handed out. -/
def IsPool (x : PcbPool) (free : List PcbIx) : Prop := IsQueue x.procs x.pcbListH free

/-- Every admitted call answers as the list does, and keeps to it. Only a write changes a processor
state. -/
lemma IsPool.step {x : PcbPool} {free : List PcbIx} {c : PoolCall} (h : IsPool x free)
    (hc : pcbPool.ok free c) :
    ∃ x', c.exec x = some ((pcbPool.step free c).1, x') ∧ IsPool x' (pcbPool.step free c).2 ∧
      x'.procs.pS = lastStates x.procs.pS [c] := by
  obtain ⟨tp, t⟩ := x
  cases c with
  | allocPcb =>
    cases free with
    | nil =>
      obtain rfl : tp = none := h.1
      exact ⟨⟨none, t⟩, rfl, h, rfl⟩
    | cons p rest =>
      obtain ⟨tp', next, prev, halloc, hq, -⟩ := allocPcb_spec h
      refine ⟨⟨tp', (t.withLinks next prev).setPcb p (.reset (t.pS p))⟩, ?_, hq, ?_⟩
      · simp only [PoolCall.exec, halloc, Option.map_some]
        rfl
      · exact update_eq_self p t.pS
  | freePcb p =>
    obtain ⟨next, prev, hins, hq, -⟩ := insertProcQ_spec h hc
    refine ⟨⟨some p, t.withLinks next prev⟩, ?_, hq, rfl⟩
    simp only [PoolCall.exec, freePcb, hins, Option.map_some]
    rfl
  | write p r =>
    refine ⟨⟨tp, t.setPcb p r⟩, rfl, ?_, rfl⟩
    apply IsRing.congr h
    intro x hx
    have hxp : x ≠ p := fun he => hc (he ▸ hx)
    simp [ProcTable.setPcb, hxp]

variable {t : ProcTable} {cs ds : List PoolCall}

lemma exists_pool (t : ProcTable) (hcs : pcbPool.Admits cs (List.finRange maxProc)) :
    ∃ x₀ x, (initPcbs t).map (fun r => PcbPool.mk r.1 r.2) = some x₀ ∧
      calls (fun x c => PoolCall.exec x c) cs x₀ =
        some (pcbPool.answers cs (List.finRange maxProc), x) ∧
      IsPool x (pcbPool.after cs (List.finRange maxProc)) ∧ x.procs.pS = lastStates t.pS cs := by
  obtain ⟨tp, next, prev, hinit, hq⟩ := initPcbs_spec t
  refine ⟨⟨tp, t.withLinks next prev⟩, ?_⟩
  induction cs using List.reverseRecOn with
  | nil => exact ⟨_, by rw [hinit]; rfl, rfl, hq, rfl⟩
  | append_singleton cs c ih =>
    obtain ⟨hcs, hc⟩ := Spec.admits_snoc.mp hcs
    obtain ⟨x, hx₀, hcalls, hpool, hpS⟩ := ih hcs
    obtain ⟨x', hexec, hpool', hpS'⟩ := hpool.step hc
    refine ⟨x', hx₀, ?_, ?_, ?_⟩
    · rw [calls_snoc hcalls, hexec, Spec.answers_snoc]
      rfl
    · rwa [Spec.after_snoc]
    · rw [hpS', hpS]
      simp only [lastStates, List.foldl_append]

lemma after_schedule (cs : List PoolCall) (free : List PcbIx) :
    pcbPool.after (schedule cs) free = pcbPool.after cs free := by
  induction cs generalizing free with
  | nil => rfl
  | cons c cs ih =>
    cases c with
    | allocPcb => exact ih _
    | freePcb p => exact ih _
    | write p r => exact ih free

/-! ### The PCB that comes next -/

/-- What `allocPcb` returns after `initPcbs` and the calls, and what it leaves. -/
def allocAfter (t : ProcTable) (cs : List PoolCall) : Option (PcbPtr × PcbPool) := do
  let (pcbListH, procs) ← initPcbs t
  let (_, x) ← calls (fun x c => PoolCall.exec x c) cs ⟨pcbListH, procs⟩
  PoolCall.allocPcb.exec x

lemma allocAfter_spec (t : ProcTable) (hcs : pcbPool.Admits cs (List.finRange maxProc)) :
    ∃ x, allocAfter t cs = some ((pcbPool.after cs (List.finRange maxProc)).head?, x) ∧
      ∀ p ∈ (pcbPool.after cs (List.finRange maxProc)).head?,
        x.procs.pcb p = .reset (lastStates t.pS cs p) := by
  obtain ⟨x₀, x, hinit, hcalls, hpool, hpS⟩ := exists_pool t hcs
  obtain ⟨⟨tp₀, t₀⟩, hpcbs, rfl⟩ := Option.map_eq_some_iff.mp hinit
  have hafter : allocAfter t cs = PoolCall.allocPcb.exec x := by
    simp only [allocAfter, hpcbs, hcalls, Option.bind_eq_bind, Option.bind_some]
  rw [hafter, ← hpS]
  obtain ⟨tp, t'⟩ := x
  generalize pcbPool.after cs (List.finRange maxProc) = free at hpool
  cases free with
  | nil =>
    obtain rfl : tp = none := hpool.1
    exact ⟨⟨none, t'⟩, rfl, by simp⟩
  | cons p rest =>
    obtain ⟨tp', next, prev, halloc, -⟩ := allocPcb_spec hpool
    refine ⟨⟨tp', (t'.withLinks next prev).setPcb p (.reset (t'.pS p))⟩, ?_, ?_⟩
    · simp only [PoolCall.exec, halloc, Option.map_some]
      rfl
    · intro q hq
      obtain rfl : p = q := Option.some.inj hq
      ext : 1 <;> simp [ProcTable.pcb, ProcTable.setPcb, Pcb.reset]

lemma Pcb.reset_inj {st st' : State} : Pcb.reset st = Pcb.reset st' ↔ st = st' := by
  constructor
  · exact congrArg Pcb.pS
  · exact congrArg Pcb.reset

lemma card_outstanding_iff (cs : List PoolCall) :
    (outstanding cs).card = maxProc ↔ pcbPool.after cs (List.finRange maxProc) = [] := by
  unfold outstanding
  rw [Finset.card_compl, Fintype.card_fin]
  constructor
  · intro h
    have hle := Finset.card_le_univ (pcbPool.after cs (List.finRange maxProc)).toFinset
    rw [Fintype.card_fin] at hle
    apply List.toFinset_eq_empty_iff _ |>.mp
    apply Finset.card_eq_zero.mp
    omega
  · intro h
    rw [h]
    rfl

/-- After any calls `allocPcb` returns NULL exactly if all PCBs are outstanding, and never one of
these. Two histories that hand out and take back alike come to the same PCB, with the same fields
exactly if the processor states that they last wrote to it are the same. -/
theorem allocPcb_recycles_iff (t : ProcTable) (cs : List PoolCall)
    (hcs : pcbPool.Admits cs (List.finRange maxProc)) :
    ∃ r x, allocAfter t cs = some (r, x) ∧
      (r = none ↔ (outstanding cs).card = maxProc) ∧ (∀ p ∈ r, p ∉ outstanding cs) ∧
      ∀ ds, pcbPool.Admits ds (List.finRange maxProc) → schedule ds = schedule cs →
        ∃ y, allocAfter t ds = some (r, y) ∧
          ∀ p ∈ r, (y.procs.pcb p = x.procs.pcb p ↔
            lastStates t.pS ds p = lastStates t.pS cs p) := by
  obtain ⟨x, hx, hpcb⟩ := allocAfter_spec t hcs
  refine ⟨_, x, hx, ?_, ?_, ?_⟩
  · rw [card_outstanding_iff, List.head?_eq_none_iff]
  · intro p hp hout
    have hmem := List.mem_of_mem_head? hp
    simp [outstanding, hmem] at hout
  · intro ds hds hsched
    obtain ⟨y, hy, hpcb'⟩ := allocAfter_spec t hds
    have hafter : pcbPool.after ds (List.finRange maxProc) =
        pcbPool.after cs (List.finRange maxProc) := by
      rw [← after_schedule ds, hsched, after_schedule]
    rw [hafter] at hy hpcb'
    refine ⟨y, hy, ?_⟩
    intro p hp
    rw [hpcb p hp, hpcb' p hp, Pcb.reset_inj]

/-- The first PCB is given back after its owner has stored a processor state in it, and the other
nineteen are handed out. -/
def secondLife (st : State) : List PoolCall :=
  [.allocPcb, .write 0 (.reset st), .freePcb 0] ++ List.replicate 19 .allocPcb

lemma secondLife_admits (st : State) :
    pcbPool.Admits (secondLife st) (List.finRange maxProc) := by
  refine ⟨trivial, ?_, ?_, ?_⟩
  · change (0 : PcbIx) ∉ (List.finRange maxProc).tail
    decide
  · change (0 : PcbIx) ∉ (List.finRange maxProc).tail
    decide
  · exact ⟨trivial, trivial, trivial, trivial, trivial, trivial, trivial, trivial, trivial,
      trivial, trivial, trivial, trivial, trivial, trivial, trivial, trivial, trivial, trivial,
      trivial⟩

lemma secondLife_head (st : State) :
    (pcbPool.after (secondLife st) (List.finRange maxProc)).head? = some 0 := by
  rfl

/-- The PCB comes with what it held when it was given back. -/
theorem allocPcb_recycles_second :
    ∃ r x y, allocAfter blankKernel.procs (secondLife zeroState) = some (r, x) ∧
      allocAfter blankKernel.procs (secondLife { zeroState with sPc := 4 }) = some (r, y) ∧
      ∀ p ∈ r, (y.procs.pcb p = x.procs.pcb p ↔
        lastStates blankKernel.procs.pS (secondLife { zeroState with sPc := 4 }) p =
          lastStates blankKernel.procs.pS (secondLife zeroState) p) := by
  obtain ⟨r, x, hx, -, -, hall⟩ :=
    allocPcb_recycles_iff blankKernel.procs (secondLife zeroState) (secondLife_admits zeroState)
  obtain ⟨y, hy, hsame⟩ := hall (secondLife { zeroState with sPc := 4 }) (secondLife_admits _) rfl
  exact ⟨r, x, y, hx, hy, hsame⟩

/-- Two first owners that differ only in the program counter they have stored leave two different
PCBs to the second owner. -/
theorem recycled_pcb_keeps_state :
    ¬ ∀ (t : ProcTable) (cs ds : List PoolCall), pcbPool.Admits cs (List.finRange maxProc) →
      pcbPool.Admits ds (List.finRange maxProc) → schedule ds = schedule cs →
      ∃ r x y, allocAfter t cs = some (r, x) ∧ allocAfter t ds = some (r, y) ∧
        ∀ p ∈ r, y.procs.pcb p = x.procs.pcb p := by
  intro hall
  obtain ⟨r, x, y, hx, hy, hsame⟩ := hall blankKernel.procs (secondLife zeroState)
    (secondLife { zeroState with sPc := 4 }) (secondLife_admits _) (secondLife_admits _) rfl
  obtain ⟨x', hx', hpcb⟩ := allocAfter_spec blankKernel.procs (secondLife_admits zeroState)
  obtain ⟨y', hy', hpcb'⟩ :=
    allocAfter_spec blankKernel.procs (secondLife_admits { zeroState with sPc := 4 })
  obtain ⟨hr, rfl⟩ := Prod.mk.inj (Option.some.inj (hx.symm.trans hx'))
  obtain ⟨-, rfl⟩ := Prod.mk.inj (Option.some.inj (hy.symm.trans hy'))
  rw [secondLife_head] at hr hpcb hpcb'
  have heq := hsame 0 hr
  rw [hpcb 0 rfl, hpcb' 0 rfl, Pcb.reset_inj] at heq
  exact absurd (congrArg State.sPc heq) (by decide)

end Kaya
