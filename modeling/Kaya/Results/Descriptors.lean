import Kaya.Results.Recycling
import Kaya.Results.SemaphoreMap

/-!
# Semaphore descriptors

The active semaphore list in use: processes block and are woken, and the PCBs that wait nowhere
are written by their owners. There is always a descriptor for one more process, and a PCB or a
semaphore that is not there does no harm unless it names NULL, which is the address of the dummy
at the end.
-/

namespace Kaya

open Function Linked

/-- What happens to the list and the PCBs. -/
inductive AslUse
  | call (c : AslCall)
  /-- the owner of a PCB that waits nowhere writes any of its fields -/
  | write (p : PcbIx) (r : Pcb)

/-- A write answers nothing. -/
def AslUse.exec (x : ProcTable × SemdTable) :
    AslUse → Option (Option AslAnswer × ProcTable × SemdTable)
  | call c => (c.exec x).map fun r => (some r.1, r.2)
  | write p r => some (none, x.1.setPcb p r, x.2)

/-- The map of queues in use: a process that waits is not blocked again, nor written to, and no
call is about NULL. -/
noncomputable def aslUse : Spec Sleepers AslUse (Option AslAnswer) where
  step w
    | .call c => (some (queueMap.step w c).1, (queueMap.step w c).2)
    | .write p r => (none, { w with semAdd := update w.semAdd p r.pSemAdd })
  ok w
    | .call (.insertBlocked a p) => a ≠ null ∧ ∀ b, p ∉ w.blocked b
    | .call (.removeBlocked a) => a ≠ null
    | .call (.outBlocked p) => w.semAdd p ≠ null
    | .call (.headBlocked a) => a ≠ null
    | .write p _ => ∀ b, p ∉ w.blocked b

/-- The tables denote the map, between the dummies `d1` and `d2`, and nobody waits at the second. -/
structure InUse (d1 d2 : SemdIx) (x : ProcTable × SemdTable) (w : Sleepers) : Prop where
  layout : ∃ ds fs, AslLayout x.1 x.2 d1 d2 ds fs w.blocked
  back : x.2.sProcQ d2 = none
  semAdd : x.1.pSemAdd = w.semAdd

variable {t : ProcTable} {s : SemdTable} {x : ProcTable × SemdTable} {w : Sleepers}
  {d1 d2 : SemdIx} {ds fs : List SemdIx} {blocked : Addr → List PcbIx} {a : Addr} {p : PcbIx}
  {us : List AslUse}

lemma InUse.sleepers (h : InUse d1 d2 x w) : IsSleepers x w := by
  obtain ⟨⟨ds, fs, hl⟩, -, hsem⟩ := h
  exact ⟨⟨d1, d2, ds, fs, hl⟩, hsem⟩

lemma AslLayout.not_full (h : AslLayout t s d1 d2 ds fs w.blocked) (hp : ∀ b, p ∉ w.blocked b) :
    ¬ w.Full a := by
  intro hfull
  obtain ⟨n, fs', rfl⟩ := h.exists_free hp
  have hlen := h.length_add
  have hcard : ds.length = maxProc := h.ncard_active.symm.trans hfull.2
  rw [List.length_cons] at hlen
  omega

lemma AslLayout.write (h : AslLayout t s d1 d2 ds fs blocked) (hp : ∀ b, p ∉ blocked b) (r : Pcb) :
    AslLayout (t.setPcb p r) s d1 d2 ds fs blocked := by
  have hne : ∀ b, ∀ q ∈ blocked b, q ≠ p := fun b q hq he => hp b (he ▸ hq)
  refine { h with queue := ?_, semAdd := ?_ }
  · intro d hd
    apply IsRing.congr (h.queue d hd)
    intro q hq
    simp [ProcTable.setPcb, hne _ q hq]
  · intro b q hq
    simpa [ProcTable.setPcb, hne b q hq] using h.semAdd b q hq

/-- What an admitted event answers, and what it leaves. -/
lemma InUse.step {u : AslUse} (h : InUse d1 d2 x w) (hu : aslUse.ok w u) :
    ∃ x', u.exec x = some ((aslUse.step w u).1, x') ∧ InUse d1 d2 x' (aslUse.step w u).2 := by
  have hsleep := h.sleepers
  obtain ⟨t, s⟩ := x
  obtain ⟨⟨ds, fs, hl⟩, hback, hsem⟩ := h
  cases u with
  | call c =>
    cases c with
    | insertBlocked a p =>
      have hfull : ¬ w.Full a := hl.not_full hu.2
      obtain ⟨next, prev, s', hins, ⟨hl', hback'⟩, -⟩ := hl.insertBlocked hu.1 hu.2
      refine ⟨({ t.withLinks next prev with pSemAdd := update t.pSemAdd p a }, s'), ?_, ?_⟩
      · simp only [AslUse.exec, AslCall.exec, aslUse, queueMap, hfull, if_false, hins,
          Option.map_some]
      · simp only [aslUse, queueMap, hfull, if_false]
        exact ⟨hl', hback'.trans hback, by simp [Sleepers.insert, ← hsem]⟩
    | removeBlocked a =>
      obtain ⟨next, prev, s', hrem, ⟨hl', hback'⟩, -⟩ := hl.removeBlocked hu
      refine ⟨(t.withLinks next prev, s'), ?_, hl', hback'.trans hback, hsem⟩
      simp only [AslUse.exec, AslCall.exec, aslUse, queueMap, hrem, Option.map_some]
    | outBlocked p =>
      have hpsem : t.pSemAdd p = w.semAdd p := congrFun hsem p
      obtain ⟨next, prev, s', hout, ⟨hl', hback'⟩, -⟩ := hl.outBlocked (hpsem.trans_ne hu)
      rw [hpsem] at hout hl'
      rw [hsleep.erase_eq p] at hl'
      refine ⟨(t.withLinks next prev, s'), ?_, hl', hback'.trans hback, hsem⟩
      simp only [AslUse.exec, AslCall.exec, aslUse, queueMap, hout, Option.map_some,
        hsleep.mem_iff p]
    | headBlocked a =>
      have hhead := headBlocked_spec ⟨d1, d2, ds, fs, hl⟩ hu
      refine ⟨(t, s), ?_, ⟨ds, fs, hl⟩, hback, hsem⟩
      simp only [AslUse.exec, AslCall.exec, aslUse, queueMap, hhead, Option.map_some]
  | write p r =>
    refine ⟨(t.setPcb p r, s), rfl, ⟨ds, fs, hl.write hu r⟩, hback, ?_⟩
    change update t.pSemAdd p r.pSemAdd = update w.semAdd p r.pSemAdd
    rw [← hsem]

lemma exists_inUse (t : ProcTable) (s : SemdTable)
    (hus : aslUse.Admits us ⟨fun _ => [], t.pSemAdd⟩) :
    ∃ s₀ t' s' d1 d2, initASL s = some s₀ ∧
      calls (fun x u => AslUse.exec x u) us (t, s₀) =
        some (aslUse.answers us ⟨fun _ => [], t.pSemAdd⟩, t', s') ∧
      InUse d1 d2 (t', s') (aslUse.after us ⟨fun _ => [], t.pSemAdd⟩) := by
  obtain ⟨s₀, d1, d2, fs, hs₀, hl, hback⟩ := initASL_layout t s
  have hinit : InUse d1 d2 (t, s₀) ⟨fun _ => [], t.pSemAdd⟩ := ⟨⟨[], fs, hl⟩, hback, rfl⟩
  obtain ⟨⟨t', s'⟩, hcalls, h⟩ :=
    Spec.calls_eq (fun x u => AslUse.exec x u) (fun _ _ _ hR hok => hR.step hok) hinit hus
  exact ⟨s₀, t', s', d1, d2, hs₀, hcalls, h⟩

/-! ### One more process -/

lemma InUse.answers (h : InUse d1 d2 x w) (hus : aslUse.Admits us w) :
    some (.full true) ∉ aslUse.answers us w := by
  induction us generalizing x w with
  | nil => exact List.not_mem_nil
  | cons u us ih =>
    obtain ⟨hu, hus⟩ := hus
    obtain ⟨x', -, h'⟩ := h.step hu
    have hrest := ih h' hus
    have hhere : (aslUse.step w u).1 ≠ some (.full true) := by
      obtain ⟨⟨ds, fs, hl⟩, -, -⟩ := h
      cases u with
      | call c =>
        cases c with
        | insertBlocked a p =>
          have hfull : ¬ w.Full a := hl.not_full hu.2
          simp [aslUse, queueMap, hfull]
        | removeBlocked a => simp [aslUse, queueMap]
        | outBlocked p => simp [aslUse, queueMap]
        | headBlocked a => simp [aslUse, queueMap]
      | write p r => simp [aslUse]
    rw [Spec.answers, List.mem_cons, not_or]
    exact ⟨hhere.symm, hrest⟩

lemma blockHelperFunction_keeps {m : Machine} {k : Kernel} {area : OldArea}
    (h : AslLayout k.procs k.asl d1 d2 ds fs blocked) (ha : a ≠ null) (hp : ∀ b, p ∉ blocked b) :
    ∃ k', blockHelperFunction m area a (some p) k = scheduler m k' ∧ k'.currentProcess = none ∧
      IsAsl k'.procs k'.asl (update blocked a (blocked a ++ [p])) := by
  obtain ⟨k₁, hinc, hprocs, hasl⟩ : ∃ k₁, incrementProcessTime m (some p) k = some k₁ ∧
      { k₁.procs with pS := update k₁.procs.pS p (k₁.oldArea area) } =
        k.procs.setPcb p { k.procs.pcb p with
          pS := k₁.oldArea area, pTotalTime := k₁.procs.pTotalTime p } ∧
      k₁.asl = k.asl := by
    refine ⟨_, rfl, ?_, rfl⟩
    simp [ProcTable.setPcb, ProcTable.pcb]
  have h₁ := h.write hp { k.procs.pcb p with
    pS := k₁.oldArea area, pTotalTime := k₁.procs.pTotalTime p }
  rw [← hprocs] at h₁
  obtain ⟨t', s', hins, hasl'⟩ : ∃ t' s',
      insertBlocked a p { k₁.procs with pS := update k₁.procs.pS p (k₁.oldArea area) } k.asl =
        some (false, t', s') ∧ IsAsl t' s' (update blocked a (blocked a ++ [p])) := by
    obtain ⟨next, prev, s', hins, hasl', -⟩ := insertBlocked_spec ⟨d1, d2, ds, fs, h₁⟩ ha hp
    exact ⟨_, s', hins, hasl'⟩
  refine ⟨{ k₁ with procs := t', asl := s', currentProcess := none }, ?_, rfl, hasl'⟩
  unfold blockHelperFunction
  simp only [hinc, hasl, hins, Option.bind_eq_bind, Option.bind_some]

/-- However many addresses are used, no process that blocks is turned away, and
`BlockHelperFunction`, which does not look at the answer, loses none. -/
theorem blocking_never_refused (t : ProcTable) (s : SemdTable) (us : List AslUse)
    (hus : aslUse.Admits us ⟨fun _ => [], t.pSemAdd⟩) :
    ∃ s₀ os t' s', initASL s = some s₀ ∧
      calls (fun x u => AslUse.exec x u) us (t, s₀) = some (os, t', s') ∧
      some (.full true) ∉ os ∧
      IsAsl t' s' (aslUse.after us ⟨fun _ => [], t.pSemAdd⟩).blocked ∧
      ∀ (m : Machine) (k : Kernel) (area : OldArea) (a : Addr) (p : PcbIx),
        k.procs = t' → k.asl = s' → a ≠ null →
        (∀ b, p ∉ (aslUse.after us ⟨fun _ => [], t.pSemAdd⟩).blocked b) →
        ∃ k', blockHelperFunction m area a (some p) k = scheduler m k' ∧
          k'.currentProcess = none ∧
          IsAsl k'.procs k'.asl (update (aslUse.after us ⟨fun _ => [], t.pSemAdd⟩).blocked a
            ((aslUse.after us ⟨fun _ => [], t.pSemAdd⟩).blocked a ++ [p])) := by
  obtain ⟨s₀, d1, d2, fs, hs₀, hl, hback⟩ := initASL_layout t s
  have hinit : InUse d1 d2 (t, s₀) ⟨fun _ => [], t.pSemAdd⟩ := ⟨⟨[], fs, hl⟩, hback, rfl⟩
  obtain ⟨s₁, t', s', e1, e2, hs₁, hcalls, ⟨ds, gs, hl'⟩, -, -⟩ := exists_inUse t s hus
  refine ⟨s₁, _, t', s', hs₁, hcalls, hinit.answers hus, ⟨e1, e2, ds, gs, hl'⟩, ?_⟩
  intro m k area a p hprocs hasl ha hp
  subst hprocs hasl
  exact blockHelperFunction_keeps hl' ha hp

/-- Two processes wait at two addresses and one of them is woken. -/
theorem blocking_never_refused_two :
    ∃ s₀ os t' s', initASL blankKernel.asl = some s₀ ∧
      calls (fun x u => AslUse.exec x u)
        [.call (.insertBlocked 100 0), .call (.insertBlocked 104 1), .call (.removeBlocked 100)]
        (blankKernel.procs, s₀) = some (os, t', s') ∧
      some (.full true) ∉ os := by
  obtain ⟨a, ha⟩ : ∃ a : Addr, a = 100 := ⟨100, rfl⟩
  obtain ⟨b, hb⟩ : ∃ b : Addr, b = 104 := ⟨104, rfl⟩
  rw [← ha, ← hb]
  have hanull : a ≠ null := by
    rw [ha]
    decide
  have hbnull : b ≠ null := by
    rw [hb]
    decide
  have hfull : ¬ Sleepers.Full ⟨fun _ => [], fun _ => null⟩ a := by
    simp [Sleepers.Full, Sleepers.active]
  have hadmits : aslUse.Admits
      [.call (.insertBlocked a 0), .call (.insertBlocked b 1), .call (.removeBlocked a)]
      ⟨fun _ => [], blankKernel.procs.pSemAdd⟩ := by
    refine ⟨⟨hanull, by simp⟩, ⟨hbnull, ?_⟩, hanull, trivial⟩
    intro c
    by_cases hc : c = a <;> simp [aslUse, queueMap, blankKernel, hfull, Sleepers.insert, hc]
  obtain ⟨s₀, os, t', s', hs₀, hcalls, hos, -⟩ :=
    blocking_never_refused blankKernel.procs blankKernel.asl _ hadmits
  exact ⟨s₀, os, t', s', hs₀, hcalls, hos⟩

/-! ### Error paths -/

lemma AslLayout.search_some (h : AslLayout t s d1 d2 ds fs blocked) (a : Addr) :
    ∃ d, searchASL a s = some d := by
  obtain ⟨l₁, l₂, k, temp, next, r, -, -, -, hsearch, -⟩ := h.search a
  exact ⟨temp, hsearch⟩

lemma AslLayout.removeBlocked_absent (h : AslLayout t s d1 d2 ds fs blocked) (ha : a ≠ null)
    (hempty : blocked a = []) : Kaya.removeBlocked a t s = some (none, t, s) := by
  obtain ⟨l₁, l₂, k, temp, next, r, -, -, -, hsearch, hnext, hne, -, -⟩ := h.search_miss ha hempty
  simp [Kaya.removeBlocked, hsearch, hnext, hne]

lemma AslLayout.outBlocked_absent (h : AslLayout t s d1 d2 ds fs blocked)
    (ha : t.pSemAdd p ≠ null) (hp : p ∉ blocked (t.pSemAdd p)) :
    Kaya.outBlocked p t s = some (none, t, s) := by
  by_cases hempty : blocked (t.pSemAdd p) = []
  · obtain ⟨l₁, l₂, k, temp, next, r, -, -, -, hsearch, hnext, hne, -, -⟩ :=
      h.search_miss ha hempty
    simp [Kaya.outBlocked, hsearch, hnext, hne]
  · -- the queue of the others is searched in vain, and is not empty
    obtain ⟨l₁, d, l₂, k, temp, rfl, -, hda, hsearch, hnext⟩ := h.search_hit hempty
    have hq := h.queue d (by simp)
    rw [hda] at hq
    have hsome : s.sProcQ d ≠ none := fun hn => hempty (IsRing.eq_nil (hn ▸ hq))
    simp [Kaya.outBlocked, hsearch, hnext, hda, outProcQ_not_mem hq hp, retireSemd, emptyProcQ,
      hsome]

lemma AslLayout.search_null (h : AslLayout t s d1 d2 ds fs blocked) :
    ∃ k temp, d1 :: ds = k ++ [temp] ∧ searchASL null s = some temp ∧ s.sNext temp = some d2 := by
  obtain ⟨l₁, l₂, k, temp, next, r, hds, hk, hr, hsearch, hnext, -, h₂⟩ := h.search null
  cases l₂ with
  | nil =>
    obtain ⟨rfl, -⟩ := List.cons.inj hr
    rw [List.append_nil] at hds
    exact ⟨k, temp, hds ▸ hk, hsearch, hnext⟩
  | cons d l₂ =>
    have hle := h₂ d (by simp)
    have hnull := h.ne_null d (by simp [hds])
    have hmax := addr_le_null (s.sSemAdd d)
    bv_omega

/-- A search that finds no address as large as `a` runs off the end. -/
lemma searchASLLoop_off {l : List SemdIx} {d temp : SemdIx} {k : List SemdIx}
    (hp : IsPath s.sNext (d :: l)) (hl : ∀ e ∈ l, s.sSemAdd e < a) (hk : d :: l = k ++ [temp])
    (hlast : s.sNext temp = none) (fuel : Nat) : searchASLLoop a s fuel d = none := by
  induction l generalizing d k fuel with
  | nil =>
    have hd : d = temp := by
      have hlen := congrArg List.getLast? hk
      simpa using hlen
    cases fuel with
    | zero => rfl
    | succ fuel =>
      rw [searchASLLoop, hd, hlast]
      rfl
  | cons e l ih =>
    obtain ⟨hde, hp⟩ := List.isChain_cons_cons.mp hp
    cases fuel with
    | zero => rfl
    | succ fuel =>
      cases k with
      | nil => simp at hk
      | cons c k =>
        obtain ⟨-, hk⟩ := List.cons.inj hk
        have hi := ih hp (fun f hf => hl f (List.mem_cons_of_mem e hf)) hk fuel
        simp only [searchASLLoop, hde, Option.bind_eq_bind, Option.bind_some,
          hl e List.mem_cons_self, if_true, hi]

lemma AslLayout.retire_back (h : AslLayout t s d1 d2 ds fs blocked) {k : List SemdIx}
    {temp : SemdIx} (hk : d1 :: ds = k ++ [temp]) (hnext : s.sNext temp = some d2)
    {procQ : SemdIx → PcbPtr} (hback : procQ d2 = none) :
    searchASL null (retireSemd temp d2 { s with sProcQ := procQ }) = none := by
  have hne : ∀ e ∈ d1 :: ds, e ≠ d2 := by
    rintro e he rfl
    have hnd := h.path_nodup
    rw [← List.cons_append] at hnd
    exact List.disjoint_of_nodup_append hnd he (by simp)
  have htemp : temp ≠ d2 := hne temp (by simp [hk])
  have hpath : IsPath s.sNext (d1 :: ds) := by
    have hfull := h.path
    rw [← List.cons_append] at hfull
    exact hfull.left_of_append
  unfold retireSemd searchASL
  simp only [emptyProcQ, hback, Option.isNone_none, if_true, freeSemd, h.head,
    Option.bind_eq_bind, Option.bind_some, h.last]
  refine searchASLLoop_off ?_ ?_ hk (by simp [htemp]) _
  · refine hpath.imp_of_mem_imp fun x y hx hy hxy => ?_
    have hxt : x ≠ temp := by
      rintro rfl
      exact hne y hy (Option.some.inj (hxy.symm.trans hnext))
    simpa [hxt, hne x hx] using hxy
  · intro e he
    have hnull := h.ne_null e he
    have hmax := addr_le_null (s.sSemAdd e)
    change s.sSemAdd e < null
    bv_omega

lemma InUse.null_frees (h : InUse d1 d2 (t, s) w) :
    (∃ s', Kaya.removeBlocked null t s = some (none, t, s') ∧ searchASL null s' = none) ∧
    ∀ p, t.pSemAdd p = null →
      ∃ s', Kaya.outBlocked p t s = some (none, t, s') ∧ searchASL null s' = none := by
  obtain ⟨⟨ds, fs, hl⟩, hback, -⟩ := h
  dsimp only at hl hback
  obtain ⟨k, temp, hk, hsearch, hnext⟩ := hl.search_null
  have hoff : searchASL null (retireSemd temp d2
      { s with sProcQ := update s.sProcQ d2 none }) = none := hl.retire_back hk hnext (by simp)
  constructor
  · refine ⟨_, ?_, hoff⟩
    simp [Kaya.removeBlocked, hsearch, hnext, hl.back, hback, removeProcQ]
  · intro p hp
    refine ⟨_, ?_, hoff⟩
    simp [Kaya.outBlocked, hp, hsearch, hnext, hl.back, hback, outProcQ]

/-- After any admitted use every search ends inside of the list. A PCB that is not in the queue of
its semaphore, or a semaphore without a queue, is answered with NULL and leaves everything as it
was, exactly if the address is not NULL. -/
theorem absent_harmless_iff (t : ProcTable) (s : SemdTable) (us : List AslUse)
    (hus : aslUse.Admits us ⟨fun _ => [], t.pSemAdd⟩) :
    ∃ s₀ os t' s', initASL s = some s₀ ∧
      calls (fun x u => AslUse.exec x u) us (t, s₀) = some (os, t', s') ∧
      IsAsl t' s' (aslUse.after us ⟨fun _ => [], t.pSemAdd⟩).blocked ∧
      t'.pSemAdd = (aslUse.after us ⟨fun _ => [], t.pSemAdd⟩).semAdd ∧
      (∀ a, ∃ d, searchASL a s' = some d) ∧
      (∀ p, p ∉ (aslUse.after us ⟨fun _ => [], t.pSemAdd⟩).blocked (t'.pSemAdd p) →
        (outBlocked p t' s' = some (none, t', s') ↔ t'.pSemAdd p ≠ null)) ∧
      ∀ a, (aslUse.after us ⟨fun _ => [], t.pSemAdd⟩).blocked a = [] →
        (removeBlocked a t' s' = some (none, t', s') ↔ a ≠ null) := by
  obtain ⟨s₀, t', s', d1, d2, hs₀, hcalls, h⟩ := exists_inUse t s hus
  obtain ⟨hrem, hout⟩ := h.null_frees
  obtain ⟨⟨ds, fs, hl⟩, -, hsem⟩ := h
  refine ⟨s₀, _, t', s', hs₀, hcalls, ⟨d1, d2, ds, fs, hl⟩, hsem, hl.search_some, ?_, ?_⟩
  · intro p hp
    constructor
    · intro heq hnull
      obtain ⟨s'', hs'', hoff⟩ := hout p hnull
      rw [heq] at hs''
      obtain ⟨d, hd⟩ := hl.search_some null
      obtain ⟨-, -, rfl⟩ : True ∧ True ∧ s' = s'' := by simpa using hs''
      rw [hoff] at hd
      cases hd
    · intro hne
      exact hl.outBlocked_absent hne hp
  · intro a ha
    constructor
    · rintro heq rfl
      obtain ⟨s'', hs'', hoff⟩ := hrem
      rw [heq] at hs''
      obtain ⟨d, hd⟩ := hl.search_some null
      obtain ⟨-, -, rfl⟩ : True ∧ True ∧ s' = s'' := by simpa using hs''
      rw [hoff] at hd
      cases hd
    · intro hne
      exact hl.removeBlocked_absent hne ha

/-- A process blocks and is woken, and is looked for once more. -/
theorem absent_harmless_woken :
    ∃ s₀ os t' s', initASL blankKernel.asl = some s₀ ∧
      calls (fun x u => AslUse.exec x u) [.call (.insertBlocked 100 0), .call (.removeBlocked 100)]
        (blankKernel.procs, s₀) = some (os, t', s') ∧
      outBlocked 0 t' s' = some (none, t', s') := by
  obtain ⟨a, ha⟩ : ∃ a : Addr, a = 100 := ⟨100, rfl⟩
  rw [← ha]
  have hnull : a ≠ null := by
    rw [ha]
    decide
  have hfull : ¬ Sleepers.Full ⟨fun _ => [], fun _ => null⟩ a := by
    simp [Sleepers.Full, Sleepers.active]
  obtain ⟨s₀, os, t', s', hs₀, hcalls, -, hsem, -, hout, -⟩ :=
    absent_harmless_iff blankKernel.procs blankKernel.asl
      [.call (.insertBlocked a 0), .call (.removeBlocked a)] ⟨⟨hnull, by simp⟩, hnull, trivial⟩
  have hsem₀ : t'.pSemAdd 0 = a := by
    rw [hsem]
    simp [aslUse, queueMap, blankKernel, hfull, Sleepers.insert, Sleepers.pop]
  refine ⟨s₀, os, t', s', hs₀, hcalls, (hout 0 ?_).mpr (hsem₀.trans_ne hnull)⟩
  rw [hsem₀]
  simp [aslUse, queueMap, blankKernel, hfull, Sleepers.insert, Sleepers.pop]

/-- On the empty list, a PCB as `allocPcb` leaves it, and NULL as a semaphore: both calls give the
dummy at the end to the free descriptors. -/
theorem absent_null_frees_dummy :
    (¬ ∀ (t : ProcTable) (s : SemdTable) (us : List AslUse),
      aslUse.Admits us ⟨fun _ => [], t.pSemAdd⟩ → ∀ s₀ os t' s', initASL s = some s₀ →
      calls (fun x u => AslUse.exec x u) us (t, s₀) = some (os, t', s') →
      ∀ p, p ∉ (aslUse.after us ⟨fun _ => [], t.pSemAdd⟩).blocked (t'.pSemAdd p) →
        outBlocked p t' s' = some (none, t', s')) ∧
    ¬ ∀ (t : ProcTable) (s : SemdTable) (us : List AslUse),
      aslUse.Admits us ⟨fun _ => [], t.pSemAdd⟩ → ∀ s₀ os t' s', initASL s = some s₀ →
      calls (fun x u => AslUse.exec x u) us (t, s₀) = some (os, t', s') →
      ∀ a, (aslUse.after us ⟨fun _ => [], t.pSemAdd⟩).blocked a = [] →
        removeBlocked a t' s' = some (none, t', s') := by
  obtain ⟨s₀, d1, d2, fs, hs₀, hl, hback⟩ := initASL_layout blankKernel.procs blankKernel.asl
  have hinit : InUse d1 d2 (blankKernel.procs, s₀) ⟨fun _ => [], blankKernel.procs.pSemAdd⟩ :=
    ⟨⟨[], fs, hl⟩, hback, rfl⟩
  obtain ⟨⟨s₁, hrem, hoff₁⟩, hout⟩ := hinit.null_frees
  obtain ⟨s₂, hout, hoff₂⟩ := hout 0 rfl
  obtain ⟨d, hd⟩ := hl.search_some null
  constructor
  · intro hall
    have heq := hall blankKernel.procs blankKernel.asl [] trivial s₀ [] _ s₀ hs₀ rfl 0 (by simp)
    obtain rfl : s₂ = s₀ := by simpa using hout.symm.trans heq
    rw [hoff₂] at hd
    cases hd
  · intro hall
    have heq := hall blankKernel.procs blankKernel.asl [] trivial s₀ [] _ s₀ hs₀ rfl null rfl
    obtain rfl : s₁ = s₀ := by simpa using hrem.symm.trans heq
    rw [hoff₁] at hd
    cases hd

end Kaya
