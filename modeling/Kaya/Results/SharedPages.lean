import Kaya.Support.Words

/-!
# Shared pages on the disk

Page-out and page-in put their commands together on their own. For a page of the shared segment
they never name the same block.
-/

namespace Kaya.Support

variable {n : Nat}

/-- Where the page that a frame has according to its record is written. -/
def pageOut (b : Board n) (frame : Fin poolSize) (record : SwapEntry) : Location :=
  (bootJob (b.getFrameAddr frame) record).location

/-- Where the process `q` reads a page. -/
def pageIn (b : Board n) (frame : Fin poolSize) (q : Fin n) (segment page : Nat) : Location :=
  (loadJob (b.getFrameAddr frame) (asidOf (entryHi q)) segment page).location

/-- The record of a shared page that `p` has loaded. -/
def sharedRecord (p : Fin n) (i : Fin maxKuseg) : SwapEntry := ⟨asidOf (entryHi p), kuseg3, i⟩

/-- The shared page `i`, loaded by `p`, has a block of its own on the disk: it is written where
`q` reads it, and no other page is written there. -/
structure HasBlock (b : Board n) (p q : Fin n) (i : Fin maxKuseg) : Prop where
  same : ∀ f g, pageOut b f (sharedRecord p i) = pageIn b g q kuseg3 i
  own : ∀ f record, (record.segNum, record.pageNum) ≠ (kuseg3, i.val) →
    pageOut b f record ≠ pageOut b f (sharedRecord p i)

lemma head_pageOut (b : Board n) (f : Fin poolSize) (p : Fin n) (i : Fin maxKuseg) :
    (pageOut b f (sharedRecord p i)).head = 0 := by
  change headOf (blockCommand writeBlk 0 kuseg3) = 0
  decide

lemma head_pageIn (b : Board n) (f : Fin poolSize) (q : Fin n) (i : Fin maxKuseg) :
    (pageIn b f q kuseg3 i).head = 1 := by
  have hq := q.isLt
  have hn := b.procCnt_le
  change headOf (blockCommand readBlk (asidOf (entryHi q)) kuseg3) = 1
  rw [asidOf_entryHi hn, headOf_blockCommand (by decide) (by omega) (by omega)]
  rfl

/-- No shared page has a block of its own, whoever loads and reads it: it is written under head 0
and read under head 1. -/
theorem shared_pages_lost (b : Board n) (p q : Fin n) (i : Fin maxKuseg) : ¬ HasBlock b p q i := by
  intro h
  have hhead := congrArg Location.head (h.same 0 0)
  rw [head_pageOut, head_pageIn] at hhead
  contradiction

/-- A machine with a megabyte of memory for one user process. -/
def oneProcess : Board 1 where
  procCnt_le := by decide
  ramtop := 0x20100000
  aligned := twoProcesses.aligned
  room := twoProcesses.room
  missCause := causeOf 0x19
  missCause_ne := twoProcesses.missCause_ne
  junk := ⟨0, 0, 0, 0, fun _ => 0⟩

/-- The first shared page of a machine with one process. -/
theorem first_shared_page_lost : ¬ HasBlock oneProcess 0 0 0 := by
  intro h
  have hsector := congrArg Location.sector (h.same 0 0)
  revert hsector
  decide

end Kaya.Support
