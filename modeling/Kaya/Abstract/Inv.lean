import Kaya.Abstract.Nuc
import Kaya.Lib.Partition

/-!
# One place for every PCB

Every PCB is on the free list, on the ready list, on the list of one semaphore or running.
The moves of the nucleus take one PCB from one of these homes to another, and the processes
of the tree are the PCBs that are not free.
-/

namespace Kaya

open Function Linked

lemma Aligned.ne_null {s : Addr} (h : Aligned s) : s ≠ null := by
  rintro rfl
  exact absurd h (by decide)

/-- Where a PCB is. -/
inductive Home
  | free
  | ready
  | blocked (s : Addr)
  | running
  deriving DecidableEq

def homeList (free ready : List PcbIx) (blocked : Addr → List PcbIx) (current : PcbPtr) :
    Home → List PcbIx
  | .free => free
  | .ready => ready
  | .blocked s => blocked s
  | .running => current.toList

/-- Processes wait where their `p_semAdd` says, and on the address of an `int`. -/
def WaitsRight (blocked : Addr → List PcbIx) (pSemAdd : PcbIx → Addr) : Prop :=
  ∀ s, ∀ p ∈ blocked s, pSemAdd p = s ∧ Aligned s

lemma WaitsRight.mono {blocked blocked' : Addr → List PcbIx} {pSemAdd : PcbIx → Addr}
    (h : WaitsRight blocked pSemAdd) (hb : ∀ s, ∀ p ∈ blocked' s, p ∈ blocked s) :
    WaitsRight blocked' pSemAdd := fun s p hp => h s p (hb s p hp)

/-- The tree has one root at most and holds the PCBs that are not free, which are counted. -/
structure TreeShape (free : List PcbIx) (tree : Forest PcbIx) (processCount : Int) : Prop where
  nodup : tree.nodes.Nodup
  mem_iff : ∀ p, p ∈ tree.nodes ↔ p ∉ free
  roots : tree.roots.length ≤ 1
  count : processCount = tree.nodes.length

namespace Nuc

def listAt (a : Nuc) : Home → List PcbIx := homeList a.free a.ready a.blocked a.currentProcess

structure Inv (a : Nuc) : Prop where
  homes : ∃ home, IsPartition a.listAt home
  waits : WaitsRight a.blocked a.pSemAdd
  shape : TreeShape a.free a.tree a.processCount

/-- The running process has left the processor and no other has got it yet. -/
def offCpu (a : Nuc) : Nuc := { a with currentProcess := none }

variable {a : Nuc} {p q : PcbIx} {s : Addr} {m : Machine}

lemma offCpu_of_none (hc : a.currentProcess = none) : a.offCpu = a := by
  unfold offCpu
  rw [← hc]

lemma Inv.dispatch (h : a.offCpu.Inv) : (a.dispatch m).Inv := by
  obtain ⟨⟨home, hp⟩, hw, hs⟩ := h
  unfold Nuc.dispatch
  split
  · split_ifs <;> exact ⟨⟨home, hp⟩, hw, hs⟩
  · rename_i q rest hr
    refine ⟨⟨_, hp.move (x := q) (i := .ready) (j := .running) ?_ (by simp) ?_ ?_ ?_⟩, hw, hs⟩
    · change q ∈ a.ready
      simp [hr]
    · change rest = a.ready.erase q
      simp [hr]
    · rfl
    · intro l hl hl'
      cases l <;> first | rfl | contradiction

lemma Inv.mem_listAt_ne (h : a.Inv) {i j : Home} (hi : p ∈ a.listAt i) (hij : i ≠ j) :
    p ∉ a.listAt j := by
  obtain ⟨home, hp⟩ := h.homes
  exact hp.not_mem hi hij

lemma Inv.current_mem (hc : a.currentProcess = some p) : p ∈ a.listAt .running := by
  unfold listAt homeList
  simp [hc]

lemma Inv.wake (h : a.Inv) (s : Addr) : (a.wake s).Inv := by
  obtain ⟨⟨home, hp⟩, hw, hs⟩ := h
  unfold Nuc.wake
  split
  · exact ⟨⟨home, hp⟩, hw, hs⟩
  · rename_i q rest hb
    refine ⟨⟨_, hp.move (x := q) (i := .blocked s) (j := .ready) ?_ (by simp) ?_ rfl ?_⟩, ?_, hs⟩
    · change q ∈ a.blocked s
      simp [hb]
    · change update a.blocked s rest s = (a.blocked s).erase q
      simp [hb]
    · intro l hl hl'
      cases l with
      | blocked t =>
        have ht : t ≠ s := fun he => hl (he ▸ rfl)
        exact update_of_ne ht _ _
      | ready => contradiction
      | free => rfl
      | running => rfl
    · refine hw.mono fun t x hx => ?_
      by_cases ht : t = s
      · subst ht
        have hx' : x ∈ rest := by simpa using hx
        simp [hb, hx']
      · simpa [ht] using hx

lemma Inv.block (h : a.Inv) (hc : a.currentProcess = some p) (ha : Aligned s) (st : State) :
    (a.block m st s p).Inv := by
  have hnot : ∀ t, p ∉ a.blocked t := fun t =>
    h.mem_listAt_ne (j := .blocked t) (Inv.current_mem hc) (by simp)
  obtain ⟨⟨home, hp⟩, hw, hs⟩ := h
  unfold Nuc.block
  refine Inv.dispatch ⟨⟨_, hp.move (i := .running) (j := .blocked s) (Inv.current_mem hc)
    (by simp) ?_ ?_ ?_⟩, ?_, hs⟩
  · change [] = a.currentProcess.toList.erase p
    simp [hc]
  · exact update_self s _ a.blocked
  · intro l hl hl'
    cases l with
    | blocked t =>
      have ht : t ≠ s := fun he => hl' (he ▸ rfl)
      exact update_of_ne ht _ _
    | ready => rfl
    | free => rfl
    | running => contradiction
  · intro t x hx
    change x ∈ update a.blocked s (a.blocked s ++ [p]) t at hx
    change update a.pSemAdd p s x = t ∧ Aligned t
    by_cases ht : t = s
    · subst ht
      rw [update_self, List.mem_append, List.mem_singleton] at hx
      refine ⟨?_, ha⟩
      by_cases hxp : x = p
      · simp [hxp]
      · simpa [hxp] using (hw t x (hx.resolve_right hxp)).1
    · rw [update_of_ne ht] at hx
      have hxp : x ≠ p := fun he => hnot t (he ▸ hx)
      simpa [hxp] using hw t x hx

lemma Inv.yield (h : a.Inv) (hc : a.currentProcess = some p) :
    (offCpu { a with ready := a.ready ++ [p] }).Inv := by
  obtain ⟨⟨home, hp⟩, hw, hs⟩ := h
  refine ⟨⟨_, hp.move (i := .running) (j := .ready) (Inv.current_mem hc) (by simp) ?_ rfl ?_⟩,
    hw, hs⟩
  · change [] = a.currentProcess.toList.erase p
    simp [hc]
  · intro l hl hl'
    cases l <;> first | rfl | contradiction

lemma Inv.newChild (h : a.Inv) {c : PcbIx} {rest : List PcbIx} (hf : a.free = p :: rest)
    (hc : a.currentProcess = some c) (newState : Addr) : (a.newChild newState c p rest).Inv := by
  have hpf : p ∈ a.listAt .free := by
    change p ∈ a.free
    simp [hf]
  have hnot : ∀ t, p ∉ a.blocked t := fun t => h.mem_listAt_ne (j := .blocked t) hpf (by simp)
  have hcf : c ∉ a.free := h.mem_listAt_ne (j := .free) (Inv.current_mem hc) (by simp)
  obtain ⟨⟨home, hp⟩, hw, hs⟩ := h
  have hnd : (p :: rest).Nodup := hf ▸ hp.nodup .free
  have hct := (hs.mem_iff c).mpr hcf
  have hperm := Forest.nodes_insertChild (q := c) (c := p) hs.nodup hct
  have hpt : p ∉ a.tree.nodes := by
    rw [hs.mem_iff, hf]
    simp
  refine ⟨⟨_, hp.move (i := .free) (j := .ready) hpf (by simp) ?_ rfl ?_⟩, ?_, ?_⟩
  · change rest = a.free.erase p
    simp [hf]
  · intro l hl hl'
    cases l <;> first | rfl | contradiction
  · intro t x hx
    have hxp : x ≠ p := fun he => hnot t (he ▸ hx)
    change update a.pSemAdd p null x = t ∧ Aligned t
    rw [update_of_ne hxp]
    exact hw t x hx
  · change TreeShape rest (a.tree.insertChild c p) (a.processCount + 1)
    refine ⟨?_, fun x => ?_, ?_, ?_⟩
    · rw [hperm.nodup_iff, List.nodup_cons]
      exact ⟨hpt, hs.nodup⟩
    · rw [hperm.mem_iff, List.mem_cons, hs.mem_iff, hf]
      by_cases hxp : x = p
      · simp [hxp, (List.nodup_cons.mp hnd).1]
      · simp [hxp]
    · rw [Forest.roots_insertChild]
      exact hs.roots
    · rw [hperm.length_eq, hs.count]
      simp

/-! ### Termination -/

/-- A PCB on no list. -/
structure Homeless (a : Nuc) (p : PcbIx) : Prop where
  free : p ∉ a.free
  ready : p ∉ a.ready
  blocked : ∀ s, p ∉ a.blocked s

/-- `p` is where `HoneyIKilledTheKids` looks for it. -/
def Placed (a : Nuc) (p : PcbIx) : Prop :=
  p ∈ a.ready ∧ a.pSemAdd p = null ∨
    ∃ s, s ≠ null ∧ Aligned s ∧ p ∈ a.blocked s ∧ a.pSemAdd p = s

@[simp] lemma takeOut_currentProcess :
    (a.takeOut m p).currentProcess = a.currentProcess := by
  unfold takeOut store
  by_cases hs : a.pSemAdd p = null
  · simp [hs]
  · by_cases hd : m.IsDeviceSem (a.pSemAdd p) <;> simp [hs, hd]

@[simp] lemma takeOut_pSemAdd : (a.takeOut m p).pSemAdd = a.pSemAdd := by
  unfold takeOut store
  by_cases hs : a.pSemAdd p = null
  · simp [hs]
  · by_cases hd : m.IsDeviceSem (a.pSemAdd p) <;> simp [hs, hd]

@[simp] lemma takeOut_tree : (a.takeOut m p).tree = a.tree := by
  unfold takeOut store
  by_cases hs : a.pSemAdd p = null
  · simp [hs]
  · by_cases hd : m.IsDeviceSem (a.pSemAdd p) <;> simp [hs, hd]

@[simp] lemma takeOut_free : (a.takeOut m p).free = a.free ++ [p] := by
  unfold takeOut store
  by_cases hs : a.pSemAdd p = null
  · simp [hs]
  · by_cases hd : m.IsDeviceSem (a.pSemAdd p) <;> simp [hs, hd]

@[simp] lemma takeOut_processCount : (a.takeOut m p).processCount = a.processCount - 1 := by
  unfold takeOut store
  by_cases hs : a.pSemAdd p = null
  · simp [hs]
  · by_cases hd : m.IsDeviceSem (a.pSemAdd p) <;> simp [hs, hd]

lemma takeOut_ready : (a.takeOut m p).ready =
    if a.pSemAdd p = null then a.ready.erase p else a.ready := by
  unfold takeOut store
  by_cases hs : a.pSemAdd p = null
  · simp [hs]
  · by_cases hd : m.IsDeviceSem (a.pSemAdd p) <;> simp [hs, hd]

lemma takeOut_blocked : (a.takeOut m p).blocked =
    if a.pSemAdd p = null then a.blocked
    else update a.blocked (a.pSemAdd p) ((a.blocked (a.pSemAdd p)).erase p) := by
  unfold takeOut store
  by_cases hs : a.pSemAdd p = null
  · simp [hs]
  · by_cases hd : m.IsDeviceSem (a.pSemAdd p) <;> simp [hs, hd]

lemma Placed.takeOut (h : a.Placed p) (hpq : p ≠ q) : (a.takeOut m q).Placed p := by
  unfold Placed
  rw [takeOut_ready, takeOut_blocked, takeOut_pSemAdd]
  rcases h with ⟨hr, hs⟩ | ⟨s, hs, hal, hb, hps⟩
  · left
    refine ⟨?_, hs⟩
    split
    · exact (List.mem_erase_of_ne hpq).mpr hr
    · exact hr
  · right
    refine ⟨s, hs, hal, ?_, hps⟩
    split
    · exact hb
    · by_cases hsq : s = a.pSemAdd q
      · subst hsq
        simpa using (List.mem_erase_of_ne hpq).mpr hb
      · simpa [hsq] using hb

lemma Homeless.takeOut (h : a.Homeless p) (hpq : p ≠ q) : (a.takeOut m q).Homeless p := by
  refine ⟨by simpa [hpq] using h.free, ?_, fun s => ?_⟩
  · rw [takeOut_ready]
    split
    · exact fun hp => h.ready (List.mem_of_mem_erase hp)
    · exact h.ready
  · rw [takeOut_blocked]
    split
    · exact h.blocked s
    · by_cases hs : s = a.pSemAdd q
      · subst hs
        rw [update_self]
        exact fun hp => h.blocked _ (List.mem_of_mem_erase hp)
      · rw [update_of_ne hs]
        exact h.blocked s

lemma Homeless.foldl_takeOut {l : List PcbIx} (h : a.Homeless p) (hp : p ∉ l) :
    (l.foldl (Nuc.takeOut m) a).Homeless p := by
  induction l generalizing a with
  | nil => exact h
  | cons q l ih =>
    simp only [List.mem_cons, not_or] at hp
    exact ih (h.takeOut hp.1) hp.2

lemma foldl_takeOut_currentProcess (l : List PcbIx) (a : Nuc) :
    (l.foldl (Nuc.takeOut m) a).currentProcess = a.currentProcess := by
  induction l generalizing a with
  | nil => rfl
  | cons q l ih => simp [ih]

lemma foldl_takeOut_free (l : List PcbIx) (a : Nuc) :
    (l.foldl (Nuc.takeOut m) a).free = a.free ++ l := by
  induction l generalizing a with
  | nil => exact (List.append_nil _).symm
  | cons q l ih => simp [ih]

lemma foldl_takeOut_tree (l : List PcbIx) (a : Nuc) :
    (l.foldl (Nuc.takeOut m) a).tree = a.tree := by
  induction l generalizing a with
  | nil => rfl
  | cons q l ih => simp [ih]

/-- What is needed of the tree for the running process `p` to be terminated. -/
structure Doomed (a : Nuc) (p : PcbIx) : Prop where
  current : a.currentProcess = some p
  homeless : a.Homeless p
  mem : p ∈ a.tree.nodes
  nodup : a.tree.nodes.Nodup
  roots : a.tree.roots.length ≤ 1
  placed : ∀ q ∈ (a.tree.kids p).nodes, a.Placed q

/-- Every process below `p` that is ready has waited for nothing since it was made, so that
`HoneyIKilledTheKids` looks for it where it is. -/
def KillSafe (a : Nuc) (p : PcbIx) : Prop :=
  ∀ q ∈ (a.tree.kids p).nodes, q ∈ a.ready → a.pSemAdd q = null

lemma Inv.homeless (h : a.Inv) (hc : a.currentProcess = some p) : a.Homeless p where
  free := h.mem_listAt_ne (j := .free) (current_mem hc) (by simp)
  ready := h.mem_listAt_ne (j := .ready) (current_mem hc) (by simp)
  blocked s := h.mem_listAt_ne (j := .blocked s) (current_mem hc) (by simp)

lemma Inv.doomed (h : a.Inv) (hc : a.currentProcess = some p) (hsafe : a.KillSafe p) :
    a.Doomed p := by
  have hh := h.homeless hc
  have hmem := (h.shape.mem_iff p).mpr hh.free
  have hpk := Forest.not_mem_kids h.shape.nodup hmem
  refine ⟨hc, hh, hmem, h.shape.nodup, h.shape.roots, fun q hq => ?_⟩
  have hqt := (h.shape.mem_iff q).mp (Forest.kids_nodes_subset p a.tree q hq)
  obtain ⟨home, hp⟩ := h.homes
  have hq' := hp.mem_home q
  cases hhome : home q with
  | free =>
    rw [hhome] at hq'
    exact absurd hq' hqt
  | ready =>
    rw [hhome] at hq'
    exact .inl ⟨hq', hsafe q hq hq'⟩
  | blocked s =>
    rw [hhome] at hq'
    obtain ⟨hs, hal⟩ := h.waits s q hq'
    exact .inr ⟨s, hal.ne_null, hal, hq', hs⟩
  | running =>
    rw [hhome] at hq'
    have hcq : a.currentProcess = some q := by simpa [listAt, homeList] using hq'
    obtain rfl := Option.some.inj (hc.symm.trans hcq)
    exact absurd hq hpk

lemma Placed.partition {home : PcbIx → Home} (h : a.Placed q)
    (hp : IsPartition a.listAt home) :
    IsPartition (a.takeOut m q).listAt (update home q .free) := by
  rcases h with ⟨hr, hs⟩ | ⟨s, hs, -, hb, rfl⟩
  · refine hp.move (i := .ready) (j := .free) hr (by simp) ?_ ?_ ?_
    · simp [listAt, homeList, takeOut_ready, hs]
    · simp [listAt, homeList]
    · intro l hl hl'
      cases l <;> first | contradiction | simp [listAt, homeList, takeOut_blocked, hs]
  · refine hp.move (i := .blocked (a.pSemAdd q)) (j := .free) hb (by simp) ?_ ?_ ?_
    · simp [listAt, homeList, takeOut_blocked, hs]
    · simp [listAt, homeList]
    · intro l hl hl'
      cases l with
      | blocked t =>
        have ht : t ≠ a.pSemAdd q := fun he => hl (he ▸ rfl)
        simp [listAt, homeList, takeOut_blocked, hs, ht]
      | ready => simp [listAt, homeList, takeOut_ready, hs]
      | free => contradiction
      | running => simp [listAt, homeList]

lemma takeOut_blocked_subset (s : Addr) : ∀ x ∈ (a.takeOut m q).blocked s, x ∈ a.blocked s := by
  intro x hx
  rw [takeOut_blocked] at hx
  split at hx
  · exact hx
  · by_cases hs : s = a.pSemAdd q
    · subst hs
      exact List.mem_of_mem_erase (by simpa using hx)
    · simpa [hs] using hx

/-- What freeing the processes of `l`, one after the other, leaves. -/
lemma foldl_takeOut_spec {l : List PcbIx} (hp : ∃ home, IsPartition a.listAt home)
    (hw : WaitsRight a.blocked a.pSemAdd) (hnd : l.Nodup) (hl : ∀ q ∈ l, a.Placed q) :
    (∃ home, IsPartition (l.foldl (Nuc.takeOut m) a).listAt home) ∧
      WaitsRight (l.foldl (Nuc.takeOut m) a).blocked (l.foldl (Nuc.takeOut m) a).pSemAdd ∧
      (l.foldl (Nuc.takeOut m) a).free = a.free ++ l ∧
      (l.foldl (Nuc.takeOut m) a).processCount = a.processCount - l.length := by
  induction l generalizing a with
  | nil => exact ⟨hp, hw, by simp, by simp⟩
  | cons q l ih =>
    obtain ⟨hq, hnd⟩ := List.nodup_cons.mp hnd
    obtain ⟨home, hp⟩ := hp
    have hplaced := hl q (by simp)
    have hw' : WaitsRight (a.takeOut m q).blocked (a.takeOut m q).pSemAdd := by
      rw [takeOut_pSemAdd]
      exact hw.mono takeOut_blocked_subset
    obtain ⟨h₁, h₂, h₃, h₄⟩ := ih ⟨_, hplaced.partition hp⟩ hw' hnd fun x hx =>
      (hl x (by simp [hx])).takeOut fun he => hq (he ▸ hx)
    refine ⟨h₁, h₂, by simpa using h₃, ?_⟩
    rw [List.foldl_cons, h₄, takeOut_processCount, List.length_cons]
    omega

lemma Inv.kill (h : a.Inv) (hc : a.currentProcess = some p) (hsafe : a.KillSafe p) :
    (a.kill m p).offCpu.Inv := by
  have hd := h.doomed hc hsafe
  have hperm := Forest.postorder_perm_nodes (a.tree.kids p)
  have hnd : (a.tree.kids p).postorder.Nodup :=
    hperm.nodup_iff.mpr (Forest.kids_nodup p hd.nodup)
  obtain ⟨⟨home, hp⟩, hw, hfree, hcount⟩ := foldl_takeOut_spec (m := m) h.homes h.waits hnd
    fun q hq => hd.placed q (hperm.mem_iff.mp hq)
  have hcur := foldl_takeOut_currentProcess (m := m) (a.tree.kids p).postorder a
  have htree := foldl_takeOut_tree (m := m) (a.tree.kids p).postorder a
  have hsplit := Forest.nodes_erase hd.nodup hd.mem
  have hall := hsplit.nodup_iff.mp hd.nodup
  unfold Nuc.kill
  generalize (a.tree.kids p).postorder.foldl (Nuc.takeOut m) a = b at *
  rw [hc] at hcur
  refine ⟨⟨_, hp.move (i := .running) (j := .free) (current_mem hcur) (by simp) ?_ rfl ?_⟩,
    hw, ?_⟩
  · change [] = b.currentProcess.toList.erase p
    simp [hcur]
  · intro l hl hl'
    cases l <;> first | rfl | contradiction
  · change TreeShape (b.free ++ [p]) (b.tree.erase p) (b.processCount - 1)
    rw [hfree, htree, hcount]
    simp only [List.cons_append, List.nodup_cons, List.mem_append, not_or,
      List.nodup_append] at hall
    refine ⟨hall.2.2.1, fun x => ?_, ?_, ?_⟩
    · have hx := (hsplit.mem_iff (a := x)).symm.trans (h.shape.mem_iff x)
      simp only [List.cons_append, List.mem_cons, List.mem_append] at hx
      simp only [List.mem_append, List.mem_singleton, hperm.mem_iff, not_or]
      constructor
      · intro he
        refine ⟨⟨hx.mp (.inr (.inr he)), fun hk => hall.2.2.2 x hk x he rfl⟩, ?_⟩
        rintro rfl
        exact hall.1.2 he
      · rintro ⟨⟨hxf, hxk⟩, hxp⟩
        exact ((hx.mpr hxf).resolve_left hxp).resolve_left hxk
    · exact (Forest.roots_erase_sublist p a.tree).length_le.trans hd.roots
    · rw [h.shape.count, hsplit.length_eq, hperm.length_eq]
      simp only [List.cons_append, List.length_cons, List.length_append]
      omega

end Nuc

end Kaya
