import Kaya.Abstract.Inv
import Kaya.Refine.Asl
import Kaya.Refine.Tree

/-!
# The nucleus on lists and the nucleus on links

`Rep k a` says that the tables of `k` hold the lists and the tree of `a` and that all else
is the same in both. Each operation on the tables that the handlers use is described by
what it does to `a`.
-/

namespace Kaya

open Function Linked

/-- The tables hold these lists, and no PCB is on two of them. -/
structure Lists (t : ProcTable) (s : SemdTable) (pcbListH readyQ : PcbPtr)
    (free ready : List PcbIx) (blocked : Addr → List PcbIx) : Prop where
  freeList : IsQueue t pcbListH free
  readyList : IsQueue t readyQ ready
  asl : IsAsl t s blocked
  free_ready : free.Disjoint ready
  free_blocked : ∀ a, free.Disjoint (blocked a)
  ready_blocked : ∀ a, ready.Disjoint (blocked a)

/-- The nucleus on lists with the data of `k`. -/
def view (k : Kernel) (free ready : List PcbIx) (blocked : Addr → List PcbIx)
    (tree : Forest PcbIx) : Nuc where
  free := free
  ready := ready
  blocked := blocked
  tree := tree
  currentProcess := k.currentProcess
  processCount := k.processCount
  softBlockCount := k.softBlockCount
  pS := k.procs.pS
  pSemAdd := k.procs.pSemAdd
  pTotalTime := k.procs.pTotalTime
  oldAreas := k.procs.oldAreas
  newAreas := k.procs.newAreas
  processStartTime := k.processStartTime
  mem := k.mem
  states := k.states
  oldArea := k.oldArea
  bus := k.bus
  commands := k.commands
  todReads := k.todReads
  timer := k.timer
  intervalTimer := k.intervalTimer
  cpu := k.cpu

section View

variable (k : Kernel) (free ready : List PcbIx) (blocked : Addr → List PcbIx)
  (tree : Forest PcbIx)

@[simp] lemma view_free : (view k free ready blocked tree).free = free := rfl

@[simp] lemma view_ready : (view k free ready blocked tree).ready = ready := rfl

@[simp] lemma view_blocked : (view k free ready blocked tree).blocked = blocked := rfl

@[simp] lemma view_tree : (view k free ready blocked tree).tree = tree := rfl

end View

/-- The lists of `a` are in the tables of `k`, whose tree links are `L`. -/
structure Held (L : TreeLinks PcbIx) (k : Kernel) (a : Nuc) : Prop where
  lists : Lists k.procs k.asl k.pcbListH k.readyQ a.free a.ready a.blocked
  data : a = view k a.free a.ready a.blocked a.tree
  links : k.procs.tree = L

def Rep (k : Kernel) (a : Nuc) : Prop :=
  ∃ L root, Held L k a ∧ IsForest L none none root a.tree

/-! ### Updates of the data -/

/-- The fields that make up the lists are the same. -/
def ProcTable.SameLinks (t t' : ProcTable) : Prop :=
  t'.pNext = t.pNext ∧ t'.pPrev = t.pPrev ∧ t'.pSemAdd = t.pSemAdd

lemma ProcTable.SameLinks.refl (t : ProcTable) : t.SameLinks t := ⟨rfl, rfl, rfl⟩

lemma IsQueue.links {t t' : ProcTable} {tp : PcbPtr} {l : List PcbIx} (h : IsQueue t tp l)
    (hn : t'.pNext = t.pNext) (hp : t'.pPrev = t.pPrev) : IsQueue t' tp l := by
  unfold IsQueue
  rw [hn, hp]
  exact h

lemma IsAsl.congr {t t' : ProcTable} {s : SemdTable} {blocked : Addr → List PcbIx}
    (h : IsAsl t s blocked) (hn : t'.pNext = t.pNext) (hp : t'.pPrev = t.pPrev)
    (ha : ∀ a, ∀ p ∈ blocked a, t'.pSemAdd p = t.pSemAdd p) : IsAsl t' s blocked := by
  obtain ⟨d1, d2, ds, fs, h⟩ := h
  refine ⟨d1, d2, ds, fs, { h with queue := fun d hd => ?_, semAdd := fun a p hq => ?_ }⟩
  · exact (h.queue d hd).links hn hp
  · rw [ha a p hq]
    exact h.semAdd a p hq

lemma IsAsl.frame {t : ProcTable} {s : SemdTable} {blocked : Addr → List PcbIx}
    {next prev : PcbIx → PcbPtr} {l : List PcbIx} (h : IsAsl t s blocked)
    (hoff : LinksOff l t next prev) (hd : ∀ a, (blocked a).Disjoint l) :
    IsAsl (t.withLinks next prev) s blocked := by
  obtain ⟨d1, d2, ds, fs, h⟩ := h
  exact ⟨d1, d2, ds, fs, { h with queue := fun d hd' => (h.queue d hd').frame hoff (hd _) }⟩

lemma IsAsl.nodup {t : ProcTable} {s : SemdTable} {blocked : Addr → List PcbIx}
    (h : IsAsl t s blocked) (a : Addr) : (blocked a).Nodup := by
  obtain ⟨d1, d2, ds, fs, h⟩ := h
  by_cases hempty : blocked a = []
  · simp [hempty]
  · obtain ⟨d, hd, rfl⟩ := h.active a hempty
    exact IsRing.nodup (h.queue d hd)

lemma IsAsl.disjoint {t : ProcTable} {s : SemdTable} {blocked : Addr → List PcbIx}
    (h : IsAsl t s blocked) {a b : Addr} (hab : a ≠ b) : (blocked a).Disjoint (blocked b) := by
  obtain ⟨d1, d2, ds, fs, h⟩ := h
  exact h.disjoint a b hab

lemma IsAsl.semAdd {t : ProcTable} {s : SemdTable} {blocked : Addr → List PcbIx}
    (h : IsAsl t s blocked) {a : Addr} {p : PcbIx} (hp : p ∈ blocked a) : t.pSemAdd p = a := by
  obtain ⟨d1, d2, ds, fs, h⟩ := h
  exact h.semAdd a p hp

lemma Lists.congr {t t' : ProcTable} {s : SemdTable} {h q : PcbPtr} {free ready : List PcbIx}
    {blocked : Addr → List PcbIx} (hl : Lists t s h q free ready blocked)
    (ht : t.SameLinks t') : Lists t' s h q free ready blocked := by
  obtain ⟨hn, hp, ha⟩ := ht
  exact { hl with
    freeList := hl.freeList.links hn hp
    readyList := hl.readyList.links hn hp
    asl := hl.asl.congr hn hp fun a p _ => by rw [ha] }

section Primitives

variable {L : TreeLinks PcbIx} {k k' : Kernel} {a : Nuc} {s : Addr} {p : PcbIx}

lemma Held.exists_view (h : Held L k a) :
    ∃ free ready blocked tree, a = view k free ready blocked tree ∧
      Lists k.procs k.asl k.pcbListH k.readyQ free ready blocked :=
  ⟨a.free, a.ready, a.blocked, a.tree, h.data, h.lists⟩

lemma Held.setData (h : Held L k a) (ht : k.procs.SameLinks k'.procs)
    (htree : k'.procs.tree = k.procs.tree) (hs : k'.asl = k.asl)
    (hf : k'.pcbListH = k.pcbListH) (hr : k'.readyQ = k.readyQ) :
    Held L k' (view k' a.free a.ready a.blocked a.tree) := by
  refine ⟨?_, rfl, htree.trans h.links⟩
  rw [hs, hf, hr]
  exact h.lists.congr ht

lemma Held.setSoftBlockCount (h : Held L k a) (n : Int) :
    Held L { k with softBlockCount := n } { a with softBlockCount := n } := by
  obtain ⟨free, ready, blocked, tree, rfl, -⟩ := h.exists_view
  exact h.setData (.refl _) rfl rfl rfl rfl

lemma Held.setCurrent (h : Held L k a) (c : PcbPtr) :
    Held L { k with currentProcess := c } { a with currentProcess := c } := by
  obtain ⟨free, ready, blocked, tree, rfl, -⟩ := h.exists_view
  exact h.setData (.refl _) rfl rfl rfl rfl

lemma Held.setPS (h : Held L k a) (f : PcbIx → State) :
    Held L { k with procs := { k.procs with pS := f } } { a with pS := f } := by
  obtain ⟨free, ready, blocked, tree, rfl, -⟩ := h.exists_view
  exact h.setData ⟨rfl, rfl, rfl⟩ rfl rfl rfl rfl

lemma Held.setBus (h : Held L k a) (bus : Bus) (commands : List Command) :
    Held L { k with bus, commands } { a with bus, commands } := by
  obtain ⟨free, ready, blocked, tree, rfl, -⟩ := h.exists_view
  exact h.setData (.refl _) rfl rfl rfl rfl

lemma Held.setIntervalTimer (h : Held L k a) (t : Word) :
    Held L { k with intervalTimer := t } { a with intervalTimer := t } := by
  obtain ⟨free, ready, blocked, tree, rfl, -⟩ := h.exists_view
  exact h.setData (.refl _) rfl rfl rfl rfl

lemma Held.setOldArea (h : Held L k a) (oldArea : OldArea → State) :
    Held L { k with oldArea } { a with oldArea } := by
  obtain ⟨free, ready, blocked, tree, rfl, -⟩ := h.exists_view
  exact h.setData (.refl _) rfl rfl rfl rfl

lemma Held.store (h : Held L k a) (s : Addr) (v : Int) : Held L (k.store s v) (a.store s v) := by
  obtain ⟨free, ready, blocked, tree, rfl, -⟩ := h.exists_view
  exact h.setData (.refl _) rfl rfl rfl rfl

lemma Held.setTree {L' : TreeLinks PcbIx} (h : Held L k a) (tree : Forest PcbIx) :
    Held L' { k with procs := k.procs.withTree L' } { a with tree } := by
  obtain ⟨free, ready, blocked, tree', rfl, hl⟩ := h.exists_view
  refine ⟨?_, rfl, rfl⟩
  exact { hl with
    freeList := hl.freeList
    readyList := hl.readyList
    asl := hl.asl.congr rfl rfl fun _ _ _ => rfl }

/-! ### The lists -/

lemma Held.removeReady (h : Held L k a) :
    ∃ readyQ procs, removeProcQ k.readyQ k.procs = some (a.ready.head?, readyQ, procs) ∧
      Held L { k with readyQ, procs } { a with ready := a.ready.tail } := by
  obtain ⟨free, ready, blocked, tree, rfl, hl⟩ := h.exists_view
  obtain ⟨q, next, prev, hrem, hq, hoff⟩ := removeProcQ_spec hl.readyList
  refine ⟨q, _, hrem, ?_, rfl, h.links⟩
  have hsub : ready.tail.Subset ready := fun x hx => List.mem_of_mem_tail hx
  have hoff' := hoff.mono hsub
  exact {
    freeList := hl.freeList.frame hoff' hl.free_ready
    readyList := hq
    asl := hl.asl.frame hoff' fun b => (hl.ready_blocked b).symm
    free_ready := List.disjoint_of_subset_right hsub hl.free_ready
    free_blocked := hl.free_blocked
    ready_blocked := fun b => List.disjoint_of_subset_left hsub (hl.ready_blocked b) }

lemma Held.insertReady (h : Held L k a) (hp : a.Homeless p) :
    ∃ readyQ procs, insertProcQ k.readyQ (some p) k.procs = some (readyQ, procs) ∧
      Held L { k with readyQ, procs } { a with ready := a.ready ++ [p] } := by
  obtain ⟨free, ready, blocked, tree, rfl, hl⟩ := h.exists_view
  obtain ⟨next, prev, hins, hq, hoff⟩ := insertProcQ_spec hl.readyList hp.ready
  refine ⟨_, _, hins, ?_, rfl, h.links⟩
  have hfree : free.Disjoint (ready ++ [p]) :=
    List.disjoint_append_right.mpr ⟨hl.free_ready, by simpa using hp.free⟩
  have hblocked : ∀ b, (ready ++ [p]).Disjoint (blocked b) := fun b =>
    List.disjoint_append_left.mpr ⟨hl.ready_blocked b, by simpa using hp.blocked b⟩
  exact {
    freeList := hl.freeList.frame hoff hfree
    readyList := hq
    asl := hl.asl.frame hoff fun b => (hblocked b).symm
    free_ready := hfree
    free_blocked := hl.free_blocked
    ready_blocked := hblocked }

lemma Held.insertFree (h : Held L k a) (hp : a.Homeless p) :
    ∃ pcbListH procs, freePcb k.pcbListH (some p) k.procs = some (pcbListH, procs) ∧
      Held L { k with pcbListH, procs } { a with free := a.free ++ [p] } := by
  obtain ⟨free, ready, blocked, tree, rfl, hl⟩ := h.exists_view
  obtain ⟨next, prev, hins, hq, hoff⟩ := insertProcQ_spec hl.freeList hp.free
  refine ⟨_, _, hins, ?_, rfl, h.links⟩
  have hready : (free ++ [p]).Disjoint ready :=
    List.disjoint_append_left.mpr ⟨hl.free_ready, by simpa using hp.ready⟩
  have hblocked : ∀ b, (free ++ [p]).Disjoint (blocked b) := fun b =>
    List.disjoint_append_left.mpr ⟨hl.free_blocked b, by simpa using hp.blocked b⟩
  exact {
    freeList := hq
    readyList := hl.readyList.frame hoff hready.symm
    asl := hl.asl.frame hoff fun b => (hblocked b).symm
    free_ready := hready
    free_blocked := hblocked
    ready_blocked := hl.ready_blocked }

lemma Held.allocPcb_nil (h : Held L k a) (hf : a.free = []) :
    allocPcb k.pcbListH k.procs = some (none, k.pcbListH, k.procs) := by
  have hq := h.lists.freeList
  rw [hf] at hq
  have hnone : k.pcbListH = none := hq.1
  simp [allocPcb, emptyProcQ, hnone]

/-- Allocation hands out the PCB at the head of the free list with its links reset. -/
lemma Held.allocPcb_cons (h : Held L k a) {rest : List PcbIx} (hf : a.free = p :: rest) :
    ∃ pcbListH procs, allocPcb k.pcbListH k.procs = some (some p, pcbListH, procs) ∧
      procs.pS = k.procs.pS ∧
      Held (L.isolate p) { k with pcbListH, procs } { a with
        free := rest
        pSemAdd := update a.pSemAdd p null
        pTotalTime := update a.pTotalTime p 0
        oldAreas := update a.oldAreas p fun _ => null
        newAreas := update a.newAreas p fun _ => null } ∧
      Nuc.Homeless { a with free := rest } p := by
  obtain ⟨free, ready, blocked, tree, rfl, hl⟩ := h.exists_view
  change free = p :: rest at hf
  subst hf
  obtain ⟨q, next, prev, hrem, hq, hoff⟩ := removeProcQ_spec hl.freeList
  have hsome : k.pcbListH ≠ none := by
    intro hn
    have hnil := IsRing.eq_nil (hn ▸ hl.freeList)
    simp at hnil
  have hnd : (p :: rest).Nodup := IsRing.nodup hl.freeList
  have hp : p ∉ rest := (List.nodup_cons.mp hnd).1
  have hpb : ∀ b, p ∉ blocked b := fun b hb => hl.free_blocked b (by simp) hb
  have hpr : p ∉ ready := fun hr => hl.free_ready (by simp) hr
  have hsub : ∀ x ∈ rest, x ∈ p :: rest := fun x hx => List.mem_cons_of_mem p hx
  have hrest : LinksOff (p :: rest) k.procs (update next p none) (update prev p none) := by
    intro x hx
    have hxp : x ≠ p := fun he => hx (by simp [he])
    simpa [hxp] using hoff.mono hsub x hx
  let procs : ProcTable := { k.procs with
    pNext := update next p none
    pPrev := update prev p none
    pPrnt := update k.procs.pPrnt p none
    pChild := update k.procs.pChild p none
    pSibPrev := update k.procs.pSibPrev p none
    pSibNext := update k.procs.pSibNext p none
    pSemAdd := update k.procs.pSemAdd p null
    pTotalTime := update k.procs.pTotalTime p 0
    oldAreas := update k.procs.oldAreas p fun _ => null
    newAreas := update k.procs.newAreas p fun _ => null }
  refine ⟨q, procs, ?_, rfl, ⟨?_, rfl, ?_⟩, ?_⟩
  · simp [allocPcb, emptyProcQ, hsome, hrem, ProcTable.withLinks, procs]
  · exact {
      freeList := IsRing.congr hq fun x hx => by
        have hxp : x ≠ p := fun he => hp (he ▸ hx)
        simp [ProcTable.withLinks, procs, hxp]
      readyList := (hl.readyList.frame hrest hl.free_ready.symm).links rfl rfl
      asl := (hl.asl.frame hrest fun b => (hl.free_blocked b).symm).congr rfl rfl
        fun b x hx => by
          have hxp : x ≠ p := fun he => hpb b (he ▸ hx)
          simp [ProcTable.withLinks, procs, hxp]
      free_ready := List.disjoint_of_subset_left hsub hl.free_ready
      free_blocked := fun b => List.disjoint_of_subset_left hsub (hl.free_blocked b)
      ready_blocked := hl.ready_blocked }
  · rw [← h.links]
    rfl
  · exact ⟨hp, hpr, hpb⟩

lemma Held.outReady (h : Held L k a) (hp : p ∈ a.ready) :
    ∃ r readyQ procs, outProcQ k.readyQ p k.procs = some (r, readyQ, procs) ∧
      Held L { k with readyQ, procs } { a with ready := a.ready.erase p } ∧
      Nuc.Homeless { a with ready := a.ready.erase p } p := by
  obtain ⟨free, ready, blocked, tree, rfl, hl⟩ := h.exists_view
  obtain ⟨q, next, prev, hout, hq, hoff⟩ := outProcQ_spec p hl.readyList
  refine ⟨_, q, _, hout, ⟨?_, rfl, h.links⟩, ?_⟩
  · have hsub : (ready.erase p).Subset ready := fun x hx => List.mem_of_mem_erase hx
    exact {
      freeList := hl.freeList.frame hoff hl.free_ready
      readyList := hq
      asl := hl.asl.frame hoff fun b => (hl.ready_blocked b).symm
      free_ready := List.disjoint_of_subset_right hsub hl.free_ready
      free_blocked := hl.free_blocked
      ready_blocked := fun b => List.disjoint_of_subset_left hsub (hl.ready_blocked b) }
  · have hnd : ready.Nodup := IsRing.nodup hl.readyList
    exact {
      free := fun hf => hl.free_ready hf hp
      ready := hnd.not_mem_erase
      blocked := fun b hb => hl.ready_blocked b hp hb }

lemma Held.removeBlocked (h : Held L k a) (hs : s ≠ null) :
    ∃ procs asl, removeBlocked s k.procs k.asl = some ((a.blocked s).head?, procs, asl) ∧
      Held L { k with procs, asl }
        { a with blocked := update a.blocked s (a.blocked s).tail } ∧
      ∀ p rest, a.blocked s = p :: rest →
        Nuc.Homeless { a with blocked := update a.blocked s (a.blocked s).tail } p := by
  obtain ⟨free, ready, blocked, tree, rfl, hl⟩ := h.exists_view
  obtain ⟨next, prev, s', hrem, hasl, hoff⟩ := removeBlocked_spec hl.asl hs
  have hsub : ∀ b, (update blocked s (blocked s).tail b).Subset (blocked b) := by
    intro b x hx
    by_cases hb : b = s
    · subst hb
      exact List.mem_of_mem_tail (by simpa using hx)
    · simpa [hb] using hx
  have hoff' := hoff.mono fun x hx => List.mem_of_mem_tail hx
  refine ⟨_, s', hrem, ⟨?_, rfl, h.links⟩, ?_⟩
  · exact {
      freeList := hl.freeList.frame hoff' (hl.free_blocked s)
      readyList := hl.readyList.frame hoff' (hl.ready_blocked s)
      asl := hasl
      free_ready := hl.free_ready
      free_blocked := fun b => List.disjoint_of_subset_right (hsub b) (hl.free_blocked b)
      ready_blocked := fun b => List.disjoint_of_subset_right (hsub b) (hl.ready_blocked b) }
  · intro p rest hp
    change blocked s = p :: rest at hp
    have hps : p ∈ blocked s := by simp [hp]
    refine ⟨fun hf => hl.free_blocked s hf hps, fun hr => hl.ready_blocked s hr hps, ?_⟩
    intro b hb
    change p ∈ update blocked s (blocked s).tail b at hb
    by_cases hbs : b = s
    · subst hbs
      have hnd := hl.asl.nodup b
      rw [hp] at hnd
      rw [update_self, hp] at hb
      exact (List.nodup_cons.mp hnd).1 hb
    · rw [update_of_ne hbs] at hb
      exact hl.asl.disjoint hbs hb hps

lemma Held.outBlocked (h : Held L k a) (hs : s ≠ null) (hp : p ∈ a.blocked s) :
    ∃ r procs asl, outBlocked p k.procs k.asl = some (r, procs, asl) ∧
      Held L { k with procs, asl }
        { a with blocked := update a.blocked s ((a.blocked s).erase p) } ∧
      Nuc.Homeless { a with blocked := update a.blocked s ((a.blocked s).erase p) } p := by
  obtain ⟨free, ready, blocked, tree, rfl, hl⟩ := h.exists_view
  change p ∈ blocked s at hp
  obtain rfl : k.procs.pSemAdd p = s := hl.asl.semAdd hp
  generalize hsa : k.procs.pSemAdd p = s at *
  obtain ⟨next, prev, s', hout, hasl, hoff⟩ := outBlocked_spec hl.asl (hsa ▸ hs)
  rw [hsa] at hasl hoff
  have hsub : ∀ b, (update blocked s ((blocked s).erase p) b).Subset (blocked b) := by
    intro b x hx
    by_cases hb : b = s
    · subst hb
      exact List.mem_of_mem_erase (by simpa using hx)
    · simpa [hb] using hx
  refine ⟨_, _, s', hout, ⟨?_, rfl, h.links⟩, ?_⟩
  · exact {
      freeList := hl.freeList.frame hoff (hl.free_blocked s)
      readyList := hl.readyList.frame hoff (hl.ready_blocked s)
      asl := hasl
      free_ready := hl.free_ready
      free_blocked := fun b => List.disjoint_of_subset_right (hsub b) (hl.free_blocked b)
      ready_blocked := fun b => List.disjoint_of_subset_right (hsub b) (hl.ready_blocked b) }
  · refine ⟨fun hf => hl.free_blocked s hf hp, fun hr => hl.ready_blocked s hr hp, ?_⟩
    intro b hb
    change p ∈ update blocked s ((blocked s).erase p) b at hb
    by_cases hbs : b = s
    · subst hbs
      rw [update_self] at hb
      exact (hl.asl.nodup b).not_mem_erase hb
    · rw [update_of_ne hbs] at hb
      exact hl.asl.disjoint hbs hb hp

lemma Held.insertBlocked (h : Held L k a) (hs : s ≠ null) (hp : a.Homeless p) :
    ∃ r procs asl, insertBlocked s p k.procs k.asl = some (r, procs, asl) ∧
      Held L { k with procs, asl } { a with
        blocked := update a.blocked s (a.blocked s ++ [p])
        pSemAdd := update a.pSemAdd p s } := by
  obtain ⟨free, ready, blocked, tree, rfl, hl⟩ := h.exists_view
  obtain ⟨next, prev, s', hins, hasl, hoff⟩ := insertBlocked_spec hl.asl hs hp.blocked
  refine ⟨_, _, s', hins, ?_, rfl, h.links⟩
  have hfree : free.Disjoint (blocked s ++ [p]) :=
    List.disjoint_append_right.mpr ⟨hl.free_blocked s, by simpa using hp.free⟩
  have hready : ready.Disjoint (blocked s ++ [p]) :=
    List.disjoint_append_right.mpr ⟨hl.ready_blocked s, by simpa using hp.ready⟩
  exact {
    freeList := hl.freeList.frame hoff hfree
    readyList := hl.readyList.frame hoff hready
    asl := hasl
    free_ready := hl.free_ready
    free_blocked := fun b => by
      by_cases hb : b = s
      · subst hb
        simpa using hfree
      · simpa [hb] using hl.free_blocked b
    ready_blocked := fun b => by
      by_cases hb : b = s
      · subst hb
        simpa using hready
      · simpa [hb] using hl.ready_blocked b }

end Primitives

end Kaya
