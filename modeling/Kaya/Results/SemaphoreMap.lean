import Kaya.Lib.Calls
import Kaya.Refine.Runs
import Mathlib.Data.Set.Card

/-!
# The active semaphore list is a finite map of queues

`asl.c` as an object with four calls, specified by the map from semaphore addresses to the
processes that wait there in order of arrival.
-/

namespace Kaya

open Function Linked Set

/-- A call of one of the functions of `asl.c`. -/
inductive AslCall
  | insertBlocked (semAdd : Addr) (p : PcbIx)
  | removeBlocked (semAdd : Addr)
  | outBlocked (p : PcbIx)
  | headBlocked (semAdd : Addr)
  deriving DecidableEq

/-- What a call returns: the `BOOL` of `insertBlocked`, or a pointer. -/
inductive AslAnswer
  | full (b : Bool)
  | pcb (p : PcbPtr)
  deriving DecidableEq

/-- The call on the PCBs and the descriptors. -/
def AslCall.exec (x : ProcTable × SemdTable) : AslCall → Option (AslAnswer × ProcTable × SemdTable)
  | insertBlocked a p => (Kaya.insertBlocked a p x.1 x.2).map fun r => (.full r.1, r.2)
  | removeBlocked a => (Kaya.removeBlocked a x.1 x.2).map fun r => (.pcb r.1, r.2)
  | outBlocked p => (Kaya.outBlocked p x.1 x.2).map fun r => (.pcb r.1, r.2)
  | headBlocked a => (Kaya.headBlocked a x.1 x.2).map fun r => (.pcb r, x)

/-! ### The map -/

/-- Who waits at which address, and the address each PCB was last blocked at. -/
structure Sleepers where
  blocked : Addr → List PcbIx
  semAdd : PcbIx → Addr

namespace Sleepers

/-- The addresses somebody waits at. -/
def active (w : Sleepers) : Set Addr := {a | w.blocked a ≠ []}

/-- One more address would be one too many. -/
def Full (w : Sleepers) (a : Addr) : Prop := a ∉ w.active ∧ w.active.ncard = maxProc

def insert (w : Sleepers) (a : Addr) (p : PcbIx) : Sleepers :=
  ⟨update w.blocked a (w.blocked a ++ [p]), update w.semAdd p a⟩

def pop (w : Sleepers) (a : Addr) : Sleepers :=
  { w with blocked := update w.blocked a (w.blocked a).tail }

def erase (w : Sleepers) (p : PcbIx) : Sleepers :=
  { w with blocked := fun a => (w.blocked a).erase p }

end Sleepers

open Classical in
/-- The map as an object. A PCB that waits is not inserted again, unless it is refused. -/
noncomputable def queueMap : Spec Sleepers AslCall AslAnswer where
  step w
    | .insertBlocked a p => if w.Full a then (.full true, w) else (.full false, w.insert a p)
    | .removeBlocked a => (.pcb (w.blocked a).head?, w.pop a)
    | .outBlocked p => (.pcb (if ∃ a, p ∈ w.blocked a then some p else none), w.erase p)
    | .headBlocked a => (.pcb (w.blocked a).head?, w)
  ok w
    | .insertBlocked a p => a ≠ null ∧ ((∀ b, p ∉ w.blocked b) ∨ w.Full a)
    | .removeBlocked a => a ≠ null
    | .outBlocked p => w.semAdd p ≠ null
    | .headBlocked a => a ≠ null

/-! ### The list represents the map -/

/-- The tables denote the map. -/
def IsSleepers (x : ProcTable × SemdTable) (w : Sleepers) : Prop :=
  IsAsl x.1 x.2 w.blocked ∧ x.1.pSemAdd = w.semAdd

lemma AslLayout.ncard_active {t : ProcTable} {s : SemdTable} {d1 d2 : SemdIx}
    {ds fs : List SemdIx} {w : Sleepers} (h : AslLayout t s d1 d2 ds fs w.blocked) :
    w.active.ncard = ds.length := by
  have hset : w.active = ((ds.map s.sSemAdd).toFinset : Set Addr) := by
    ext a
    simp only [Sleepers.active, mem_ofPred_eq, List.coe_toFinset, List.mem_map]
    constructor
    · exact h.active a
    · rintro ⟨d, hd, rfl⟩
      exact h.nonempty d hd
  have hnd : (ds.map s.sSemAdd).Nodup := by
    apply List.pairwise_map.mpr
    exact h.sorted.imp fun hlt => by bv_omega
  rw [hset, ncard_coe_finset, List.toFinset_card_of_nodup hnd, List.length_map]

lemma IsSleepers.erase_eq {x : ProcTable × SemdTable} {w : Sleepers} (h : IsSleepers x w)
    (p : PcbIx) :
    update w.blocked (w.semAdd p) ((w.blocked (w.semAdd p)).erase p) = (w.erase p).blocked := by
  funext a
  by_cases ha : a = w.semAdd p
  · subst ha
    simp [Sleepers.erase]
  · have hp : p ∉ w.blocked a := by
      intro hp
      exact ha ((h.1.semAdd hp).symm.trans (congrFun h.2 p))
    simp [Sleepers.erase, ha, List.erase_of_not_mem hp]

lemma IsSleepers.mem_iff {x : ProcTable × SemdTable} {w : Sleepers} (h : IsSleepers x w)
    (p : PcbIx) : (∃ a, p ∈ w.blocked a) ↔ p ∈ w.blocked (w.semAdd p) := by
  constructor
  · rintro ⟨a, hp⟩
    have ha : w.semAdd p = a := (congrFun h.2 p).symm.trans (h.1.semAdd hp)
    rwa [ha]
  · exact fun hp => ⟨_, hp⟩

/-- Every admitted call returns what the map says, and keeps representing it. -/
lemma IsSleepers.step {x : ProcTable × SemdTable} {w : Sleepers} {c : AslCall}
    (h : IsSleepers x w) (hc : queueMap.ok w c) :
    ∃ x', c.exec x = some ((queueMap.step w c).1, x') ∧ IsSleepers x' (queueMap.step w c).2 := by
  obtain ⟨t, s⟩ := x
  obtain ⟨hasl, hsem⟩ := h
  cases c with
  | insertBlocked a p =>
    obtain ⟨ha, hp⟩ := hc
    by_cases hfull : w.Full a
    · obtain ⟨d1, d2, ds, fs, hl⟩ := hasl
      have hempty : w.blocked a = [] := by simpa [Sleepers.active] using hfull.1
      have hlen : ds.length = maxProc := hl.ncard_active.symm.trans hfull.2
      refine ⟨(t, s), ?_, ?_⟩
      · simp [AslCall.exec, queueMap, hfull, insertBlocked_full hl ha hempty hlen]
      · simp only [queueMap, hfull, if_true]
        exact ⟨⟨d1, d2, ds, fs, hl⟩, hsem⟩
    · obtain ⟨next, prev, s', hins, hasl', -⟩ :=
        insertBlocked_spec hasl ha (hp.resolve_right hfull)
      refine ⟨({ t.withLinks next prev with pSemAdd := update t.pSemAdd p a }, s'), ?_, ?_⟩
      · simp only [AslCall.exec, queueMap, hfull, if_false, hins, Option.map_some]
      · simp only [queueMap, hfull, if_false]
        exact ⟨hasl', by simp [Sleepers.insert, ← hsem]⟩
  | removeBlocked a =>
    obtain ⟨next, prev, s', hrem, hasl', -⟩ := removeBlocked_spec hasl hc
    refine ⟨(t.withLinks next prev, s'), ?_, hasl', hsem⟩
    simp only [AslCall.exec, queueMap, hrem, Option.map_some]
  | outBlocked p =>
    have hpsem : t.pSemAdd p = w.semAdd p := congrFun hsem p
    obtain ⟨next, prev, s', hout, hasl', -⟩ := outBlocked_spec hasl (hpsem.trans_ne hc)
    have h' : IsSleepers (t, s) w := ⟨hasl, hsem⟩
    rw [hpsem] at hout hasl'
    rw [h'.erase_eq p] at hasl'
    refine ⟨(t.withLinks next prev, s'), ?_, hasl', hsem⟩
    simp only [AslCall.exec, queueMap, hout, Option.map_some, h'.mem_iff p]
  | headBlocked a =>
    have hhead := headBlocked_spec hasl hc
    exact ⟨(t, s), by simp only [AslCall.exec, queueMap, hhead, Option.map_some], hasl, hsem⟩

lemma IsSleepers.init (t : ProcTable) (s : SemdTable) :
    ∃ s', initASL s = some s' ∧ IsSleepers (t, s') ⟨fun _ => [], t.pSemAdd⟩ := by
  obtain ⟨s', hs', hasl⟩ := initASL_spec t s
  exact ⟨s', hs', hasl, rfl⟩

/-- From `initASL` on, every admitted sequence of calls is answered as the map answers it.
The list it leaves has the active descriptors between the two dummies, in strictly ascending
order of their addresses, each with a queue that is not empty; the active and the free ones
are disjoint and as many as there are PCBs. -/
theorem asl_refines_queue_map (t : ProcTable) (s : SemdTable) (cs : List AslCall)
    (hcs : queueMap.Admits cs ⟨fun _ => [], t.pSemAdd⟩) :
    ∃ s₀ t' s', initASL s = some s₀ ∧
      calls (fun x c => AslCall.exec x c) cs (t, s₀) =
        some (queueMap.answers cs ⟨fun _ => [], t.pSemAdd⟩, t', s') ∧
      ∃ d1 d2 ds fs,
        AslLayout t' s' d1 d2 ds fs (queueMap.after cs ⟨fun _ => [], t.pSemAdd⟩).blocked ∧
        (ds.map s'.sSemAdd ++ [null]).Pairwise (· < ·) ∧
        ds.Disjoint fs ∧ ds.length + fs.length = maxProc := by
  obtain ⟨s₀, hs₀, hinit⟩ := IsSleepers.init t s
  obtain ⟨⟨t', s'⟩, hcalls, ⟨d1, d2, ds, fs, hl⟩, -⟩ :=
    Spec.calls_eq (fun x c => AslCall.exec x c) (fun _ _ _ hR hok => hR.step hok) hinit hcs
  refine ⟨s₀, t', s', hs₀, hcalls, d1, d2, ds, fs, hl, ?_, ?_, hl.length_add⟩
  · apply List.pairwise_append.mpr
    refine ⟨List.pairwise_map.mpr hl.sorted, List.pairwise_singleton _ _, ?_⟩
    rintro a ha b hb
    obtain ⟨d, hd, rfl⟩ := List.mem_map.mp ha
    obtain rfl := List.mem_singleton.mp hb
    have hle := addr_le_null (s'.sSemAdd d)
    have hne := hl.ne_null d hd
    bv_omega
  · have hnd := hl.nodup
    simp only [List.nodup_cons] at hnd
    exact List.disjoint_of_nodup_append hnd.2.2

/-- Two processes wait at one semaphore; the first is woken and the second taken out. -/
theorem asl_refines_queue_map_two :
    ∃ s₀ t' s', initASL blankKernel.asl = some s₀ ∧
      calls (fun x c => AslCall.exec x c)
          [.insertBlocked 100 0, .insertBlocked 100 1, .removeBlocked 100, .outBlocked 1,
            .headBlocked 100] (blankKernel.procs, s₀) =
        some ([.full false, .full false, .pcb (some 0), .pcb (some 1), .pcb none], t', s') := by
  obtain ⟨a, ha⟩ : ∃ a : Addr, a = 100 := ⟨100, rfl⟩
  rw [← ha]
  have hnull : a ≠ null := by
    rw [ha]
    decide
  have hfull : ¬ Sleepers.Full ⟨fun _ => [], fun _ => null⟩ a := by
    simp [Sleepers.Full, Sleepers.active]
  have hfull' (f : Addr → List PcbIx) (p : PcbIx) (g : PcbIx → Addr) :
      ¬ Sleepers.Full ⟨update f a [p], g⟩ a := by
    simp [Sleepers.Full, Sleepers.active]
  obtain ⟨s₀, t', s', hs₀, hcalls, -⟩ := asl_refines_queue_map blankKernel.procs blankKernel.asl
    [.insertBlocked a 0, .insertBlocked a 1, .removeBlocked a, .outBlocked 1, .headBlocked a]
    (by simp [Spec.Admits, queueMap, blankKernel, hnull, hfull, hfull', Sleepers.insert,
      Sleepers.pop, update_apply])
  refine ⟨s₀, t', s', hs₀, ?_⟩
  rw [hcalls]
  simp [Spec.answers, queueMap, blankKernel, hfull, hfull', Sleepers.insert, Sleepers.pop,
    Sleepers.erase, update_apply]

end Kaya
