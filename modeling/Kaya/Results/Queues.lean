import Kaya.Lib.Calls
import Kaya.Refine.Runs

/-!
# Process queues are lists

Any number of queues over one table of PCBs, as an object with four calls, specified by one
list for each queue.
-/

namespace Kaya

open Function Linked

variable {ι : Type*}

/-- Tail pointers into one table of PCBs. -/
structure QueueBank (ι : Type*) where
  tp : ι → PcbPtr
  procs : ProcTable

/-- A call of one of the queue functions on the queue `i`. -/
inductive QueueCall (ι : Type*)
  | insertProcQ (i : ι) (p : PcbIx)
  | removeProcQ (i : ι)
  | outProcQ (i : ι) (p : PcbIx)
  | headProcQ (i : ι)

namespace QueueCall

/-- The queue the call is about. -/
def queue : QueueCall ι → ι
  | insertProcQ i _ => i
  | removeProcQ i => i
  | outProcQ i _ => i
  | headProcQ i => i

/-- The call on the bank. `insertProcQ` returns nothing. -/
def exec [DecidableEq ι] (b : QueueBank ι) : QueueCall ι → Option (PcbPtr × QueueBank ι)
  | insertProcQ i p => (Kaya.insertProcQ (b.tp i) (some p) b.procs).map fun r =>
      (none, ⟨update b.tp i r.1, r.2⟩)
  | removeProcQ i => (Kaya.removeProcQ (b.tp i) b.procs).map fun r =>
      (r.1, ⟨update b.tp i r.2.1, r.2.2⟩)
  | outProcQ i p => (Kaya.outProcQ (b.tp i) p b.procs).map fun r =>
      (r.1, ⟨update b.tp i r.2.1, r.2.2⟩)
  | headProcQ i => some (Kaya.headProcQ (b.tp i) b.procs, b)

end QueueCall

/-- The lists as an object. Only a PCB on no queue may be inserted. -/
def queueLists [DecidableEq ι] : Spec (ι → List PcbIx) (QueueCall ι) PcbPtr where
  step l
    | .insertProcQ i p => (none, update l i (l i ++ [p]))
    | .removeProcQ i => ((l i).head?, update l i (l i).tail)
    | .outProcQ i p =>
      if p ∈ l i then (some p, update l i ((l i).erase p)) else (none, l)
    | .headProcQ i => ((l i).head?, l)
  ok l
    | .insertProcQ _ p => ∀ j, p ∉ l j
    | .removeProcQ _ => True
    | .outProcQ _ _ => True
    | .headProcQ _ => True

/-- The queues of the bank are disjoint, and the `i`-th one denotes `l i`. -/
structure QueueBank.Denotes (b : QueueBank ι) (l : ι → List PcbIx) : Prop where
  queue : ∀ i, IsQueue b.procs (b.tp i) (l i)
  disjoint : ∀ i j, i ≠ j → (l i).Disjoint (l j)

/-- A call on the queue `i` with the PCBs `m` leaves everything but this queue as it was. -/
structure QueueBank.Untouched (b b' : QueueBank ι) (i : ι) (m : List PcbIx) : Prop where
  tp : ∀ j, j ≠ i → b'.tp j = b.tp j
  links : ∀ q ∉ m, b'.procs.pNext q = b.procs.pNext q ∧ b'.procs.pPrev q = b.procs.pPrev q
  data : b'.procs = b.procs.withLinks b'.procs.pNext b'.procs.pPrev

lemma QueueBank.Untouched.refl (b : QueueBank ι) (i : ι) (m : List PcbIx) : b.Untouched b i m :=
  ⟨fun _ _ => rfl, fun _ _ => ⟨rfl, rfl⟩, rfl⟩

lemma QueueBank.Untouched.mono {b b' : QueueBank ι} {i : ι} {m m' : List PcbIx}
    (h : b.Untouched b' i m) (hm : ∀ q ∈ m, q ∈ m') : b.Untouched b' i m' :=
  ⟨h.tp, fun q hq => h.links q fun hqm => hq (hm q hqm), h.data⟩

variable [DecidableEq ι]

lemma QueueBank.Denotes.change {b : QueueBank ι} {l : ι → List PcbIx} (h : b.Denotes l) {i : ι}
    {tp : PcbPtr} {m m' : List PcbIx} {next prev : PcbIx → PcbPtr}
    (hq : IsQueue (b.procs.withLinks next prev) tp m) (ho : LinksOff m' b.procs next prev)
    (hm : ∀ j, j ≠ i → (l j).Disjoint m) (hm' : ∀ j, j ≠ i → (l j).Disjoint m') :
    QueueBank.Denotes ⟨update b.tp i tp, b.procs.withLinks next prev⟩ (update l i m) := by
  constructor
  · intro j
    by_cases hj : j = i
    · subst hj
      simpa using hq
    · simpa [hj] using (h.queue j).frame ho (hm' j hj)
  · intro j k hjk
    by_cases hj : j = i
    · have hk : k ≠ i := fun hk => hjk (hj.trans hk.symm)
      simpa [hj, hk] using (hm k hk).symm
    · by_cases hk : k = i
      · simpa [hj, hk] using hm j hj
      · simpa [hj, hk] using h.disjoint j k hjk

lemma QueueBank.untouched {b : QueueBank ι} {i : ι} {tp : PcbPtr} {m : List PcbIx}
    {next prev : PcbIx → PcbPtr} (ho : LinksOff m b.procs next prev) :
    b.Untouched ⟨update b.tp i tp, b.procs.withLinks next prev⟩ i m := by
  refine ⟨fun j hj => ?_, ho, rfl⟩
  simp [hj]

/-- The PCBs a call can touch: those of its queue, before and after. -/
def QueueCall.scope (l : ι → List PcbIx) (c : QueueCall ι) : List PcbIx :=
  l c.queue ++ (queueLists.step l c).2 c.queue

/-- One call answers as the lists do, and keeps to its queue. -/
lemma QueueBank.Denotes.step {b : QueueBank ι} {l : ι → List PcbIx} (h : b.Denotes l)
    {c : QueueCall ι} (hc : queueLists.ok l c) :
    ∃ b', c.exec b = some ((queueLists.step l c).1, b') ∧
      b'.Denotes (queueLists.step l c).2 ∧ b.Untouched b' c.queue (c.scope l) ∧
      ((queueLists.step l c).2 = l → b' = b) := by
  cases c with
  | insertProcQ i p =>
    obtain ⟨next, prev, hins, hq, ho⟩ := insertProcQ_spec (h.queue i) (hc i)
    have hm : ∀ j, j ≠ i → (l j).Disjoint (l i ++ [p]) := by
      intro j hj
      apply List.disjoint_append_right.mpr
      exact ⟨h.disjoint j i hj, by simpa using hc j⟩
    refine ⟨⟨update b.tp i (some p), b.procs.withLinks next prev⟩, ?_, h.change hq ho hm hm, ?_, ?_⟩
    · simp [QueueCall.exec, queueLists, hins]
    · apply (QueueBank.untouched ho).mono
      intro q hq
      simp only [QueueCall.scope, QueueCall.queue, queueLists, update_self, List.mem_append]
      exact .inr (List.mem_append.mp hq)
    · intro he
      have hlen := congrArg List.length (congrFun he i)
      simp [queueLists] at hlen
  | removeProcQ i =>
    obtain ⟨tp, next, prev, hrem, hq, ho⟩ := removeProcQ_spec (h.queue i)
    have hm : ∀ j, j ≠ i → (l j).Disjoint (l i).tail := fun j hj q hqj hqi =>
      h.disjoint j i hj hqj (List.mem_of_mem_tail hqi)
    refine ⟨⟨update b.tp i tp, b.procs.withLinks next prev⟩, ?_, h.change hq ho hm hm, ?_, ?_⟩
    · simp [QueueCall.exec, queueLists, hrem]
    · apply (QueueBank.untouched ho).mono
      intro q hq
      simp only [QueueCall.scope, QueueCall.queue, queueLists, update_self, List.mem_append]
      exact .inr hq
    · intro he
      have hnil : l i = [] := by
        have htail : (l i).tail = l i := by simpa [queueLists] using congrFun he i
        cases hl : l i with
        | nil => rfl
        | cons x m =>
          have hlen := congrArg List.length htail
          simp [hl] at hlen
      have htp : b.tp i = none := by
        have hlast := (h.queue i).1
        simpa [hnil] using hlast
      have hsame : removeProcQ (b.tp i) b.procs = some (none, none, b.procs) := by
        rw [htp, removeProcQ]
      obtain ⟨-, rfl, hprocs⟩ : (l i).head? = none ∧ tp = none ∧
          b.procs.withLinks next prev = b.procs := by
        simpa using hrem.symm.trans hsame
      rw [hprocs, ← htp, update_eq_self]
  | outProcQ i p =>
    by_cases hp : p ∈ l i
    · obtain ⟨tp, next, prev, hout, hq, ho⟩ := outProcQ_spec p (h.queue i)
      have hm : ∀ j, j ≠ i → (l j).Disjoint ((l i).erase p) := fun j hj q hqj hqi =>
        h.disjoint j i hj hqj (List.mem_of_mem_erase hqi)
      rw [if_pos hp] at hout
      refine ⟨⟨update b.tp i tp, b.procs.withLinks next prev⟩, ?_, ?_, ?_, ?_⟩
      · simp [QueueCall.exec, queueLists, hout, hp]
      · simp only [queueLists, hp, if_true]
        exact h.change hq ho hm fun j hj => h.disjoint j i hj
      · apply (QueueBank.untouched ho).mono
        intro q hq
        exact List.mem_append_left _ hq
      · intro he
        have hlen := congrArg List.length (congrFun he i)
        have hpos := List.length_pos_of_mem hp
        simp only [queueLists, hp, if_true, update_self, List.length_erase_of_mem hp] at hlen
        omega
    · have hout := outProcQ_not_mem (h.queue i) hp
      refine ⟨b, ?_, ?_, .refl b i _, fun _ => rfl⟩
      · simp [QueueCall.exec, queueLists, hout, hp]
      · simpa only [queueLists, hp, if_false] using h
  | headProcQ i =>
    refine ⟨b, ?_, h, .refl b i _, fun _ => rfl⟩
    simp only [QueueCall.exec, queueLists, headProcQ_spec (h.queue i)]

/-- After every admitted sequence of calls the queues denote the lists the specification
computes, and the next admitted call returns what it says. Queues other than the one of the
call, and the fields that are no queue links, are as they were; a call that does not change
the lists changes nothing at all. -/
theorem queues_refine_lists (b : QueueBank ι) (l : ι → List PcbIx) (hb : b.Denotes l)
    (cs : List (QueueCall ι)) (c : QueueCall ι) (hcs : queueLists.Admits (cs ++ [c]) l) :
    ∃ b₁ b₂, calls QueueCall.exec cs b = some (queueLists.answers cs l, b₁) ∧
      b₁.Denotes (queueLists.after cs l) ∧
      c.exec b₁ = some ((queueLists.step (queueLists.after cs l) c).1, b₂) ∧
      b₂.Denotes (queueLists.step (queueLists.after cs l) c).2 ∧
      b₁.Untouched b₂ c.queue (c.scope (queueLists.after cs l)) ∧
      ((queueLists.step (queueLists.after cs l) c).2 = queueLists.after cs l → b₂ = b₁) := by
  obtain ⟨hok, hc⟩ := Spec.admits_snoc.mp hcs
  obtain ⟨b₁, hcalls, hb₁⟩ := Spec.calls_eq QueueCall.exec
    (fun _ _ _ hR hi => (hR.step hi).imp fun _ hu => ⟨hu.1, hu.2.1⟩) hb hok
  obtain ⟨b₂, hexec, hb₂, hun, hsame⟩ := hb₁.step hc
  exact ⟨b₁, b₂, hcalls, hb₁, hexec, hb₂, hun, hsame⟩

/-- Two queues: a PCB is looked for on the wrong queue, and then taken off its own. -/
theorem queues_refine_lists_two :
    ∃ b₁ b₂, calls QueueCall.exec
        [.insertProcQ false 3, .insertProcQ true 4, .insertProcQ false 5, .outProcQ true 5]
        ⟨fun _ => none, blankKernel.procs⟩ = some ([none, none, none, none], b₁) ∧
      QueueCall.exec b₁ (.outProcQ false 3) = some (some 3, b₂) ∧
      IsQueue b₂.procs (b₂.tp false) [5] ∧ IsQueue b₂.procs (b₂.tp true) [4] := by
  have hb : QueueBank.Denotes ⟨fun _ : Bool => none, blankKernel.procs⟩ fun _ => [] :=
    ⟨fun _ => IsRing.nil, fun _ _ _ => List.disjoint_nil_left _⟩
  obtain ⟨b₁, b₂, hcalls, -, hexec, hb₂, -, -⟩ := queues_refine_lists _ _ hb
    [.insertProcQ false 3, .insertProcQ true 4, .insertProcQ false 5, .outProcQ true 5]
    (.outProcQ false 3) (by simp [Spec.Admits, queueLists])
  refine ⟨b₁, b₂, ?_, ?_, ?_, ?_⟩
  · simpa [Spec.answers, queueLists] using hcalls
  · simpa [queueLists] using hexec
  · simpa [queueLists] using hb₂.queue false
  · simpa [queueLists] using hb₂.queue true

end Kaya
