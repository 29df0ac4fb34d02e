import Kaya.Lib.Ring
import Kaya.Pcb
import Mathlib.Tactic

/-!
# Process queues as lists

A tail pointer denotes the list of the PCBs of its ring. Every queue function is described
by what it does to that list; the table it returns differs from the one it was given in the
queue links of the PCBs of this queue only.
-/

namespace Kaya

open Function Linked

/-- The PCBs of `l` form the queue with the tail pointer `tp`, in this order. -/
def IsQueue (t : ProcTable) (tp : PcbPtr) (l : List PcbIx) : Prop :=
  IsRing t.pNext t.pPrev tp l

/-- The table with other queue links. -/
def ProcTable.withLinks (t : ProcTable) (next prev : PcbIx → PcbPtr) : ProcTable :=
  { t with pNext := next, pPrev := prev }

/-- The queue links of the PCBs outside `l` are those of `t`. -/
def LinksOff (l : List PcbIx) (t : ProcTable) (next prev : PcbIx → PcbPtr) : Prop :=
  ∀ q ∉ l, next q = t.pNext q ∧ prev q = t.pPrev q

lemma LinksOff.mono {l l' : List PcbIx} {t : ProcTable} {next prev : PcbIx → PcbPtr}
    (h : LinksOff l t next prev) (hl : ∀ q ∈ l, q ∈ l') : LinksOff l' t next prev :=
  fun q hq => h q fun hm => hq (hl q hm)

lemma IsQueue.frame {t : ProcTable} {tp : PcbPtr} {l l' : List PcbIx}
    {next prev : PcbIx → PcbPtr} (h : IsQueue t tp l) (ho : LinksOff l' t next prev)
    (hd : l.Disjoint l') : IsQueue (t.withLinks next prev) tp l :=
  IsRing.congr h fun q hq => ho q fun hq' => hd hq hq'

lemma insertProcQ_spec {t : ProcTable} {tp : PcbPtr} {l : List PcbIx} {p : PcbIx}
    (h : IsQueue t tp l) (hp : p ∉ l) :
    ∃ next prev, insertProcQ tp (some p) t = some (some p, t.withLinks next prev) ∧
      IsQueue (t.withLinks next prev) (some p) (l ++ [p]) ∧
      LinksOff (l ++ [p]) t next prev := by
  cases tp with
  | none =>
    obtain rfl : l = [] := IsRing.eq_nil h
    refine ⟨update t.pNext p (some p), update t.pPrev p (some p), rfl, ?_, ?_⟩
    · exact IsRing.singleton (by simp [ProcTable.withLinks]) (by simp [ProcTable.withLinks])
    · intro q hq
      have hqp : q ≠ p := by simpa using hq
      simp [hqp]
  | some z =>
    obtain ⟨a, m, rfl, hza, haz⟩ := IsRing.exists_cons h
    have hz : z ∈ a :: m := IsRing.tail_mem h
    have hpa : p ≠ a := fun he => hp (he ▸ List.mem_cons_self)
    have hpz : p ≠ z := fun he => hp (he ▸ hz)
    let next := update (update t.pNext p (some a)) z (some p)
    let prev := update (update t.pPrev a (some p)) p (some z)
    refine ⟨next, prev, ?_, ?_, ?_⟩
    · simp [insertProcQ, ProcTable.withLinks, next, prev, hza, hpz.symm]
    · refine IsRing.snoc h hp ?_ ?_ ?_ ?_ ?_ ?_
      · simp [ProcTable.withLinks, next, hpz]
      · simp [ProcTable.withLinks, next]
      · simp [ProcTable.withLinks, prev, hpa.symm]
      · simp [ProcTable.withLinks, prev]
      · intro x hx hxz
        have hxp : x ≠ p := fun he => hp (he ▸ hx)
        simp [ProcTable.withLinks, next, hxz, hxp]
      · intro x hx hxa
        have hxp : x ≠ p := fun he => hp (he ▸ hx)
        simp [ProcTable.withLinks, prev, hxa, hxp]
    · intro q hq
      have hql : q ∉ a :: m := fun hm => hq (List.mem_append_left _ hm)
      have hqp : q ≠ p := fun he => hq (by simp [he])
      have hqz : q ≠ z := fun he => hql (he ▸ hz)
      have hqa : q ≠ a := fun he => hql (he ▸ List.mem_cons_self)
      simp [next, prev, hqp, hqz, hqa]

lemma headProcQ_spec {t : ProcTable} {tp : PcbPtr} {l : List PcbIx} (h : IsQueue t tp l) :
    headProcQ tp t = l.head? := by
  cases tp with
  | none =>
    obtain rfl : l = [] := IsRing.eq_nil h
    rfl
  | some z =>
    obtain ⟨a, m, rfl, hza, -⟩ := IsRing.exists_cons h
    exact hza

lemma removeProcQ_spec {t : ProcTable} {tp : PcbPtr} {l : List PcbIx} (h : IsQueue t tp l) :
    ∃ tp' next prev, removeProcQ tp t = some (l.head?, tp', t.withLinks next prev) ∧
      IsQueue (t.withLinks next prev) tp' l.tail ∧ LinksOff l.tail t next prev := by
  cases tp with
  | none =>
    obtain rfl : l = [] := IsRing.eq_nil h
    exact ⟨none, t.pNext, t.pPrev, rfl, h, fun q _ => ⟨rfl, rfl⟩⟩
  | some z =>
    obtain ⟨a, m, rfl, hza, -⟩ := IsRing.exists_cons h
    cases m with
    | nil =>
      obtain rfl : z = a := by simpa using IsRing.tail_mem h
      refine ⟨none, t.pNext, t.pPrev, ?_, IsRing.nil, fun q _ => ⟨rfl, rfl⟩⟩
      simp [removeProcQ, headProcQ, hza, mkEmptyProcQ, ProcTable.withLinks]
    | cons b m =>
      have hnd := IsRing.nodup h
      have hz : z ∈ b :: m := by
        obtain ⟨k, hk⟩ := IsRing.exists_snoc h
        cases k with
        | nil => simp at hk
        | cons c k =>
          rw [List.cons_append] at hk
          rw [(List.cons.inj hk).2]
          simp
      have hza' : z ≠ a := by
        rintro rfl
        exact (List.nodup_cons.mp hnd).1 hz
      have hab : t.pNext a = some b := by
        have h' : IsRing t.pNext t.pPrev (some z) ([] ++ a :: b :: m) := h
        exact (IsRing.next_of_append h').1
      let next := update t.pNext z (some b)
      let prev := update t.pPrev b (some z)
      refine ⟨some z, next, prev, ?_, ?_, ?_⟩
      · simp [removeProcQ, headProcQ, hza, hza', hab, ProcTable.withLinks, next, prev]
      · refine IsRing.pop h (by simp [ProcTable.withLinks, next])
          (by simp [ProcTable.withLinks, prev]) ?_ ?_
        · intro x _ hxz
          simp [ProcTable.withLinks, next, hxz]
        · intro x _ hxb
          simp [ProcTable.withLinks, prev, hxb]
      · intro q hq
        have hqz : q ≠ z := fun he => hq (he ▸ hz)
        have hqb : q ≠ b := fun he => hq (he ▸ List.mem_cons_self)
        simp [next, prev, hqz, hqb]

lemma outProcQLoop_spec {t : ProcTable} {p z : PcbIx} {l : List PcbIx} {x : PcbIx} {fuel : Nat}
    (hc : (x :: (l ++ [z])).IsChain (Follows t.pNext t.pPrev)) (hz : z ∉ l)
    (hf : l.length < fuel) :
    outProcQLoop (some z) p t fuel x =
      if p ∈ x :: l then (removeProcQ (t.pPrev p) t).map fun r => (r.1, r.2.2)
      else some (none, t) := by
  induction l generalizing x fuel with
  | nil =>
    obtain ⟨n, rfl⟩ := Nat.exists_eq_add_one_of_ne_zero (Nat.ne_of_gt hf)
    have hxz : t.pNext x = some z := (List.isChain_pair.mp hc).1
    by_cases hxp : x = p
    · subst hxp
      simp only [outProcQLoop, List.mem_singleton, if_true]
      cases removeProcQ (t.pPrev x) t <;> rfl
    · simp [outProcQLoop, hxp, Ne.symm hxp, hxz]
  | cons y l ih =>
    obtain ⟨n, rfl⟩ := Nat.exists_eq_add_one_of_ne_zero (Nat.ne_of_gt (Nat.zero_lt_of_lt hf))
    obtain ⟨hxy, hc⟩ := List.isChain_cons_cons.mp hc
    have hyz : y ≠ z := fun he => hz (he ▸ List.mem_cons_self)
    have hi := ih hc (fun hm => hz (List.mem_cons_of_mem y hm)) (by simpa using hf)
    by_cases hxp : x = p
    · subst hxp
      simp only [outProcQLoop, List.mem_cons, true_or, if_true]
      cases removeProcQ (t.pPrev x) t <;> rfl
    · simp only [outProcQLoop, hxp, if_false, hxy.1, Option.bind_eq_bind, Option.bind_some,
        Option.some.injEq, hyz, hi, List.mem_cons, Ne.symm hxp, false_or]

lemma outProcQ_search {t : ProcTable} {p z : PcbIx} {m : List PcbIx}
    (h : IsQueue t (some z) (m ++ [z])) :
    outProcQLoop (some z) p t (maxProc + 1) z =
      if p ∈ m ++ [z] then (removeProcQ (t.pPrev p) t).map fun r => (r.1, r.2.2)
      else some (none, t) := by
  have hnd := IsRing.nodup h
  have hz : z ∉ m := by
    intro hm
    exact List.disjoint_of_nodup_append hnd hm (by simp)
  have hlen : m.length < maxProc + 1 := by
    have hle := hnd.length_le_card
    simp only [List.length_append, List.length_singleton, Fintype.card_fin] at hle
    omega
  have hmem : p ∈ z :: m ↔ p ∈ m ++ [z] := by
    rw [List.mem_append, List.mem_singleton, List.mem_cons, or_comm]
  rw [outProcQLoop_spec (IsRing.chain h) hz hlen, if_congr hmem rfl rfl]

lemma outProcQ_not_mem {t : ProcTable} {tp : PcbPtr} {l : List PcbIx} {p : PcbIx}
    (h : IsQueue t tp l) (hp : p ∉ l) : outProcQ tp p t = some (none, tp, t) := by
  cases tp with
  | none => rfl
  | some z =>
    have hzp : z ≠ p := fun he => hp (he ▸ IsRing.tail_mem h)
    obtain ⟨m, rfl⟩ := IsRing.exists_snoc h
    simp [outProcQ, hzp, outProcQ_search h, hp]

lemma IsQueue.rotate_to {t : ProcTable} {z p : PcbIx} {l₁ l₂ : List PcbIx}
    (h : IsQueue t (some z) (l₁ ++ p :: l₂)) :
    ∃ y, t.pPrev p = some y ∧ IsQueue t (some y) (p :: (l₂ ++ l₁)) := by
  rcases List.eq_nil_or_concat' l₁ with rfl | ⟨m, y, rfl⟩
  · obtain ⟨a, k, hk, -, hp⟩ := IsRing.exists_cons h
    obtain ⟨rfl, rfl⟩ := List.cons.inj hk
    exact ⟨z, hp, by simpa using h⟩
  · have h' : IsQueue t (some z) (m ++ y :: p :: l₂) := by simpa using h
    refine ⟨y, (IsRing.next_of_append h').2, ?_⟩
    obtain ⟨k, hk⟩ : ∃ k, p :: l₂ = k ++ [z] := by
      have hl : (m ++ y :: p :: l₂).getLast? = some z := h'.1.symm
      rw [List.getLast?_append_of_ne_nil _ (by simp), List.getLast?_cons_cons] at hl
      exact List.getLast?_eq_some_iff.mp hl
    rw [hk] at h'
    have hr := IsRing.rotate h'
    have he : k ++ z :: (m ++ [y]) = p :: (l₂ ++ (m ++ [y])) := by
      rw [← List.singleton_append, ← List.append_assoc, ← hk, List.cons_append]
    rwa [he] at hr

lemma outProcQ_mem {t : ProcTable} {tp : PcbPtr} {l₁ l₂ : List PcbIx} {p : PcbIx}
    (h : IsQueue t tp (l₁ ++ p :: l₂)) :
    ∃ tp' next prev, outProcQ tp p t = some (some p, tp', t.withLinks next prev) ∧
      IsQueue (t.withLinks next prev) tp' (l₁ ++ l₂) ∧ LinksOff (l₁ ++ l₂) t next prev := by
  cases tp with
  | none => simpa using IsRing.eq_nil h
  | some z =>
    obtain ⟨y, hpy, hy⟩ := h.rotate_to
    obtain ⟨tp', next, prev, hrem, hq, hoff⟩ := removeProcQ_spec hy
    have hoff' : LinksOff (l₁ ++ l₂) t next prev := hoff.mono (by simp [or_comm])
    simp only [List.head?_cons, List.tail_cons] at hrem hq
    rcases List.eq_nil_or_concat' l₂ with rfl | ⟨k, w, rfl⟩
    · -- `p` is the tail, and so is its predecessor when it is alone
      obtain rfl : z = p := by
        have hl : (l₁ ++ [p]).getLast? = some z := h.1.symm
        simpa using hl.symm
      refine ⟨tp', next, prev, ?_, by simpa using hq, hoff'⟩
      by_cases hone : t.pNext z = some z
      · have hyz : y = z := by
          obtain ⟨a, k, hk, hza, -⟩ := IsRing.exists_cons h
          obtain rfl : z = a := Option.some.inj (hone.symm.trans hza)
          have hnd := IsRing.nodup h
          cases l₁ with
          | nil => simpa using IsRing.tail_mem hy
          | cons b l₁ =>
            obtain ⟨rfl, rfl⟩ := List.cons.inj hk
            simp at hnd
        simp only [outProcQ, headProcQ, hone, if_true]
        rw [← hyz, hrem, hyz]
      · simp only [outProcQ, headProcQ, Ne.symm hone, if_false, if_true, hpy, hrem]
    · -- the tail stays, and the ring is read from it again
      obtain rfl : z = w := by
        have hl : (l₁ ++ p :: (k ++ [w])).getLast? = some z := h.1.symm
        rw [← List.cons_append, ← List.append_assoc, List.getLast?_concat] at hl
        exact (Option.some.inj hl).symm
      have hnd := IsRing.nodup h
      have hzp : z ≠ p := by
        rintro rfl
        simp [List.nodup_append, List.nodup_cons] at hnd
      have hone : ¬ some z = headProcQ (some z) t := by
        rw [headProcQ_spec h]
        cases l₁ with
        | nil => simpa using hzp
        | cons b l₁ =>
          rintro hb
          obtain rfl : z = b := by simpa using hb
          simp at hnd
      have hsearch := outProcQ_search (p := p) (m := l₁ ++ p :: k) (by simpa using h)
      refine ⟨some z, next, prev, ?_, ?_, hoff'⟩
      · simp [outProcQ, hone, hzp, hsearch, hpy, hrem]
      · rcases List.eq_nil_or_concat' l₁ with rfl | ⟨m, v, rfl⟩
        · have htp : tp' = some z := by
            rw [hq.1, List.append_nil, List.getLast?_concat]
          rw [htp] at hq
          simpa using hq
        · have he : k ++ [z] ++ (m ++ [v]) = k ++ z :: (m ++ [v]) := by simp
          have htp : tp' = some v := by
            rw [hq.1, ← List.append_assoc, List.getLast?_concat]
          rw [htp, he] at hq
          have hr : IsQueue (t.withLinks next prev) (some z) (m ++ v :: (k ++ [z])) :=
            IsRing.rotate hq
          simpa using hr

/-- `outProcQ` erases the PCB from the queue, and finds it exactly when it is there. -/
lemma outProcQ_spec {t : ProcTable} {tp : PcbPtr} {l : List PcbIx} (p : PcbIx)
    (h : IsQueue t tp l) :
    ∃ tp' next prev, outProcQ tp p t =
        some (if p ∈ l then some p else none, tp', t.withLinks next prev) ∧
      IsQueue (t.withLinks next prev) tp' (l.erase p) ∧ LinksOff l t next prev := by
  by_cases hp : p ∈ l
  · obtain ⟨l₁, l₂, rfl, hl₁⟩ : ∃ l₁ l₂, l = l₁ ++ p :: l₂ ∧ p ∉ l₁ := by
      obtain ⟨l₁, l₂, rfl⟩ := List.append_of_mem hp
      refine ⟨l₁, l₂, rfl, fun hm => ?_⟩
      exact List.disjoint_of_nodup_append (IsRing.nodup h) hm List.mem_cons_self
    obtain ⟨tp', next, prev, hout, hq, hoff⟩ := outProcQ_mem h
    refine ⟨tp', next, prev, by rw [if_pos hp, hout], ?_, hoff.mono fun q hq => ?_⟩
    · rwa [List.erase_append_right _ hl₁, List.erase_cons_head]
    · rcases List.mem_append.mp hq with hq | hq
      · exact List.mem_append_left _ hq
      · exact List.mem_append_right _ (List.mem_cons_of_mem p hq)
  · refine ⟨tp, t.pNext, t.pPrev, ?_, ?_, fun q _ => ⟨rfl, rfl⟩⟩
    · rw [if_neg hp, outProcQ_not_mem h hp]
      rfl
    · rw [List.erase_of_not_mem hp]
      exact h

end Kaya
