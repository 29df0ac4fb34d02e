import Kaya.Abstract.Clock
import Kaya.Refine.Handlers

/-!
# The state `main` leaves

Whatever memory holds at power-on, `main` sets the tables up for one process, which it then
starts.
-/

namespace Kaya

open Function Linked

lemma freeAll_spec {l l₀ : List PcbIx} {t : ProcTable} {h : PcbPtr} (hq : IsQueue t h l₀)
    (hnd : l.Nodup) (hd : l₀.Disjoint l) :
    ∃ h' next prev, l.foldlM (fun (x : PcbPtr × ProcTable) i => freePcb x.1 (some i) x.2) (h, t) =
        some (h', t.withLinks next prev) ∧
      IsQueue (t.withLinks next prev) h' (l₀ ++ l) := by
  induction l generalizing l₀ t h with
  | nil =>
    rw [List.append_nil]
    exact ⟨h, t.pNext, t.pPrev, rfl, hq⟩
  | cons p l ih =>
    obtain ⟨hp, hnd⟩ := List.nodup_cons.mp hnd
    have hpl : p ∉ l₀ := fun hpl => hd hpl (by simp)
    obtain ⟨next, prev, hins, hq', -⟩ := insertProcQ_spec hq hpl
    obtain ⟨h', next', prev', hfold, hq''⟩ := ih hq' hnd fun x hx hxl => by
      rcases List.mem_append.mp hx with hx | hx
      · exact hd hx (by simp [hxl])
      · exact hp (List.mem_singleton.mp hx ▸ hxl)
    rw [← List.append_cons] at hq''
    refine ⟨h', next', prev', ?_, hq''⟩
    simp only [List.foldlM_cons, freePcb, hins, Option.bind_eq_bind, Option.bind_some]
    exact hfold

lemma initPcbs_spec (t : ProcTable) :
    ∃ h next prev, initPcbs t = some (h, t.withLinks next prev) ∧
      IsQueue (t.withLinks next prev) h (List.finRange maxProc) := by
  have hnil : IsQueue t mkEmptyProcQ [] := IsRing.nil
  obtain ⟨h, next, prev, hfold, hq⟩ :=
    freeAll_spec hnil (List.nodup_finRange maxProc) (List.disjoint_nil_left _)
  exact ⟨h, next, prev, hfold, hq⟩

lemma freeSemds_spec {l fs : List SemdIx} {s : SemdTable} (h : IsStack s.sNext s.semdFreeH fs)
    (hnd : l.Nodup) (hd : fs.Disjoint l) :
    IsStack (l.foldl (fun s i => freeSemd i s) s).sNext
      (l.foldl (fun s i => freeSemd i s) s).semdFreeH (l.reverse ++ fs) := by
  induction l generalizing fs s with
  | nil => exact h
  | cons d l ih =>
    obtain ⟨hdl, hnd⟩ := List.nodup_cons.mp hnd
    have hdf : d ∉ fs := fun hdf => hd hdf (by simp)
    have hpush : IsStack (freeSemd d s).sNext (freeSemd d s).semdFreeH (d :: fs) := by
      refine ⟨rfl, ?_⟩
      simp only [freeSemd, update_self]
      refine h.congr fun x hx => ?_
      have hxd : x ≠ d := fun he => hdf (he ▸ hx)
      simp [hxd]
    have hi := ih hpush hnd fun x hx hxl => by
      rcases List.mem_cons.mp hx with rfl | hx
      · exact hdl hxl
      · exact hd hx (by simp [hxl])
    simpa using hi

/-- The list is empty, and so is the queue of the dummy at its end. -/
lemma initASL_layout (t : ProcTable) (s : SemdTable) :
    ∃ s' d1 d2 fs, initASL s = some s' ∧ AslLayout t s' d1 d2 [] fs (fun _ => []) ∧
      s'.sProcQ d2 = none := by
  have hnil : IsStack ({ s with semdFreeH := none } : SemdTable).sNext none [] := rfl
  have hstack := freeSemds_spec hnil (List.nodup_finRange (maxProc + 2)) (List.disjoint_nil_left _)
  unfold initASL
  dsimp only
  generalize (List.finRange (maxProc + 2)).foldl (fun s i => freeSemd i s)
    { s with semdFreeH := none } = s₁ at hstack
  rw [List.append_nil] at hstack
  have hnd : (List.finRange (maxProc + 2)).reverse.Nodup := by simp [List.nodup_finRange]
  have hall : ∀ d, d ∈ (List.finRange (maxProc + 2)).reverse := by simp
  have hlen : (List.finRange (maxProc + 2)).reverse.length = maxProc + 2 := by simp
  generalize (List.finRange (maxProc + 2)).reverse = l at *
  match l, hlen with
  | d1 :: d2 :: fs, _ =>
    obtain ⟨h1, h2, hfs⟩ := hstack
    simp only [List.nodup_cons, List.mem_cons, not_or] at hnd
    obtain ⟨⟨h12, h1f⟩, h2f, hndf⟩ := hnd
    have h21 : d2 ≠ d1 := Ne.symm h12
    simp only [allocSemd, h1, h2, update_of_ne h21, Option.bind_eq_bind, Option.bind_some]
    refine ⟨_, d1, d2, fs, rfl, ?_, by simp⟩
    refine {
      head := rfl
      path := ?_
      last := by simp [h21]
      front := by simp [h12]
      back := by simp
      sorted := List.Pairwise.nil
      ne_null := by simp
      queue := by simp
      nonempty := by simp
      active := by simp
      disjoint := by simp
      semAdd := by simp
      free := ?_
      nodup := by simp [h12, h1f, h2f, hndf]
      all := by simpa using hall }
    · exact List.isChain_pair.mpr (by simp)
    · refine hfs.congr fun x hx => ?_
      have hx1 : x ≠ d1 := fun he => h1f (he ▸ hx)
      have hx2 : x ≠ d2 := fun he => h2f (he ▸ hx)
      simp [hx1, hx2]

lemma initASL_spec (t : ProcTable) (s : SemdTable) :
    ∃ s', initASL s = some s' ∧ IsAsl t s' fun _ => [] := by
  obtain ⟨s', d1, d2, fs, hinit, hl, -⟩ := initASL_layout t s
  exact ⟨s', hinit, d1, d2, [], fs, hl⟩

/-- The nucleus on lists as `main`, entered with memory as in `k`, hands it to the scheduler. -/
def Nuc.initial (m : Machine) (k : Kernel) : Nuc where
  free := (List.finRange maxProc).tail
  ready := [0]
  blocked := fun _ => []
  tree := .cons 0 .nil .nil
  currentProcess := none
  processCount := 1
  softBlockCount := 0
  pS := update k.procs.pS 0 (initialState m (k.procs.pS 0))
  pSemAdd := update k.procs.pSemAdd 0 null
  pTotalTime := update k.procs.pTotalTime 0 0
  oldAreas := update k.procs.oldAreas 0 fun _ => null
  newAreas := update k.procs.newAreas 0 fun _ => null
  processStartTime := 0
  mem := zeroSemaphores m semCount k.mem
  states := k.states
  oldArea := k.oldArea
  bus := k.bus
  commands := k.commands
  todReads := k.todReads
  timer := k.timer
  intervalTimer := intervalTime * m.timescale
  cpu := k.cpu

def Nuc.boot (m : Machine) (k : Kernel) : Nuc := (Nuc.initial m k).dispatch m

lemma Nuc.boot_good (m : Machine) (k : Kernel) : (Nuc.boot m k).Good := by
  have hnd : (0 :: (List.finRange maxProc).tail).Nodup := List.nodup_finRange maxProc
  have hmem : ∀ p : PcbIx, p ∈ (List.finRange maxProc).tail ↔ p ≠ 0 := by decide
  refine Nuc.Inv.good_dispatch ⟨⟨fun p => if p = 0 then .ready else .free, ?_⟩, ?_, ?_⟩
  · refine ⟨fun p h => ?_, fun h => ?_⟩
    · by_cases hp : p = 0 <;> cases h <;>
        simp [Nuc.listAt, homeList, Nuc.offCpu, Nuc.initial, hp, hmem]
    · cases h with
      | free => exact (List.nodup_cons.mp hnd).2
      | ready => exact List.nodup_singleton _
      | blocked s => exact List.nodup_nil
      | running => exact List.nodup_nil
  · intro s p hp
    exact absurd hp List.not_mem_nil
  · refine ⟨?_, fun p => ?_, ?_, ?_⟩
    · simp [Nuc.offCpu, Nuc.initial, Forest.nodes]
    · change p ∈ [(0 : PcbIx)] ↔ p ∉ (List.finRange maxProc).tail
      rw [hmem]
      simp
    · simp [Nuc.offCpu, Nuc.initial, Forest.roots]
    · simp [Nuc.offCpu, Nuc.initial, Forest.nodes]

/-- `main` returns, and starts the initial process. -/
theorem main_sim (m : Machine) (k : Kernel) :
    ∃ k', main m k = some k' ∧ Rep k' (Nuc.boot m k) := by
  obtain ⟨h, next, prev, hpcbs, hq⟩ := initPcbs_spec k.procs
  obtain ⟨asl, hasl, hl⟩ := initASL_spec (k.procs.withLinks next prev) k.asl
  let k₀ : Kernel := { k with
    pcbListH := h
    procs := k.procs.withLinks next prev
    asl
    processCount := 0
    softBlockCount := 0
    currentProcess := none
    processStartTime := 0
    readyQ := mkEmptyProcQ
    mem := zeroSemaphores m semCount k.mem }
  have h₀ : Held k.procs.tree k₀ (view k₀ (List.finRange maxProc) [] (fun _ => []) .nil) := by
    refine ⟨?_, rfl, rfl⟩
    exact {
      freeList := hq
      readyList := IsRing.nil
      asl := hl
      free_ready := List.disjoint_nil_right _
      free_blocked := fun _ => List.disjoint_nil_right _
      ready_blocked := fun _ => List.disjoint_nil_right _ }
  obtain ⟨pcbListH, procs, halloc, hps, h₁, hhome⟩ :=
    h₀.allocPcb_cons (show List.finRange maxProc = 0 :: (List.finRange maxProc).tail from rfl)
  have h₂ := h₁.setPS (update procs.pS 0 (initialState m (procs.pS 0)))
  obtain ⟨readyQ, procs', hins, h₃⟩ := h₂.insertReady ⟨hhome.free, hhome.ready, hhome.blocked⟩
  dsimp only [k₀] at halloc hins hps
  have h₄ : Held (k.procs.tree.isolate 0)
      (ldit m intervalTime { k₀ with
        pcbListH, procs := procs', readyQ, processCount := 1 }) (Nuc.initial m k) := by
    refine ⟨h₃.lists, ?_, h₃.links⟩
    have hps' : procs.pS = k.procs.pS := hps
    simpa [view, k₀, ldit, ProcTable.withLinks, hps', Nuc.initial] using h₃.data
  have hsim := scheduler_sim (m := m) h₄
  have hforest : IsForest (k.procs.tree.isolate 0) none none (some 0)
      (.cons 0 .nil .nil : Forest PcbIx) := by
    simp [IsForest, TreeLinks.isolate]
  have hrep : Option.Rel Rep (scheduler m (ldit m intervalTime { k₀ with
      pcbListH, procs := procs', readyQ, processCount := 1 })) (some (Nuc.boot m k)) := by
    refine Held.rep (some 0) hsim fun b hb => ?_
    obtain rfl := Option.some.inj hb
    unfold Nuc.boot
    rw [dispatch_tree]
    exact hforest
  have hmain : main m k = scheduler m (ldit m intervalTime { k₀ with
      pcbListH, procs := procs', readyQ, processCount := 1 }) := by
    unfold main
    simp only [hpcbs, hasl, halloc, Option.bind_eq_bind, Option.bind_some]
    simp only [hins, Option.bind_some]
    rfl
  rw [hmain]
  generalize scheduler m _ = x at hrep
  cases hrep with
  | some hr => exact ⟨_, rfl, hr⟩

lemma zeroSemaphores_eq (m : Machine) (mem : Addr → Int) {n i : Nat} (hi : i < n)
    (hn : n ≤ semCount) : zeroSemaphores m n mem (m.semAddr i) = 0 := by
  induction n with
  | zero => exact absurd hi (Nat.not_lt_zero i)
  | succ n ih =>
    rw [zeroSemaphores]
    by_cases h : i = n
    · subst h
      exact update_self ..
    · have hne : m.semAddr i ≠ m.semAddr n := fun he =>
        h (m.semAddr_inj (by omega) (by omega) he)
      rw [update_of_ne hne]
      exact ih (by omega) (by omega)

lemma boot_clockSem (m : Machine) (k : Kernel) : ((Nuc.boot m k).clockSem m).Counts := by
  have hb : (Nuc.boot m k).books = (Nuc.initial m k).books := Nuc.dispatch_books
  unfold Nuc.clockSem
  rw [hb]
  exact zeroSemaphores_eq m k.mem (by decide) le_rfl

end Kaya
