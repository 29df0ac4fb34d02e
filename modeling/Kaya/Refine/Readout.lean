import Kaya.Refine.Rep

/-!
# Reading the lists off the links

What the free list, the ready queue and the queue of a semaphore hold can be computed from
the tables. On tables that hold the lists of an abstract nucleus the result is these lists.
-/

namespace Kaya

open Function Linked

def queueList (t : ProcTable) (tp : PcbPtr) : List PcbIx := ringList t.pNext maxProc tp

namespace Kernel

def freePcbs (k : Kernel) : List PcbIx := queueList k.procs k.pcbListH

def readyPcbs (k : Kernel) : List PcbIx := queueList k.procs k.readyQ

/-- The processes blocked on the semaphore at `s`, the one that has waited longest first. -/
def waiters (k : Kernel) (s : Addr) : List PcbIx :=
  match (searchASL s k.asl).bind k.asl.sNext with
  | none => []
  | some d => if k.asl.sSemAdd d = s then queueList k.procs (k.asl.sProcQ d) else []

end Kernel

lemma IsQueue.queueList_eq {t : ProcTable} {tp : PcbPtr} {l : List PcbIx} (h : IsQueue t tp l) :
    queueList t tp = l := by
  apply IsRing.ringList_eq h
  simpa using (IsRing.nodup h).length_le_card

variable {k : Kernel} {a : Nuc}

lemma Held.freePcbs_eq {L : TreeLinks PcbIx} (h : Held L k a) : k.freePcbs = a.free :=
  h.lists.freeList.queueList_eq

namespace Rep

lemma freePcbs_eq (h : Rep k a) : k.freePcbs = a.free := by
  obtain ⟨L, root, hh, -⟩ := h
  exact hh.freePcbs_eq

lemma readyPcbs_eq (h : Rep k a) : k.readyPcbs = a.ready := by
  obtain ⟨L, root, hh, -⟩ := h
  exact hh.lists.readyList.queueList_eq

lemma waiters_eq (h : Rep k a) {s : Addr} (hs : s ≠ null) : k.waiters s = a.blocked s := by
  obtain ⟨L, root, hh, -⟩ := h
  obtain ⟨d1, d2, ds, fs, hl⟩ := hh.lists.asl
  unfold Kernel.waiters
  by_cases hb : a.blocked s = []
  · obtain ⟨l₁, l₂, j, temp, next, r, -, -, -, hsearch, hnext, hne, -⟩ := hl.search_miss hs hb
    simp [hsearch, hnext, hne, hb]
  · obtain ⟨l₁, d, l₂, j, temp, hds, -, hd, hsearch, hnext⟩ := hl.search_hit hb
    have hq := hl.queue d (by simp [hds])
    rw [hd] at hq
    simp [hsearch, hnext, hd, hq.queueList_eq]

lemma data_eq (h : Rep k a) : a = view k a.free a.ready a.blocked a.tree := by
  obtain ⟨L, root, hh, -⟩ := h
  exact hh.data

lemma mem_eq (h : Rep k a) : k.mem = a.mem := by
  rw [h.data_eq]
  rfl

lemma softBlockCount_eq (h : Rep k a) : k.softBlockCount = a.softBlockCount := by
  rw [h.data_eq]
  rfl

lemma processCount_eq (h : Rep k a) : k.processCount = a.processCount := by
  rw [h.data_eq]
  rfl

lemma currentProcess_eq (h : Rep k a) : k.currentProcess = a.currentProcess := by
  rw [h.data_eq]
  rfl

lemma cpu_eq (h : Rep k a) : k.cpu = a.cpu := by
  rw [h.data_eq]
  rfl

end Rep

end Kaya
