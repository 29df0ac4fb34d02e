import Kaya.Refine.Subtree
import Kaya.Results.Recycling
import Kaya.Results.Trees

/-!
# A termination frees a subtree

`CreateProcess` grows a forest of any shape. `HoneyIKilledTheKids` frees the subtree of the
current process, every PCB once and after all that descend from it, and leaves the forest of
the others.
-/

namespace Kaya

open Function Linked

/-- The forests that can be built. A new PCB becomes a root, as in `main`, or a child, as in
`CreateProcess`. In between anything but the tree and the free list may change. -/
inductive Built : PcbPtr → ProcTable → Set PcbIx → Children → Prop
  | init {t h t'} : initPcbs t = some (h, t') → Built h t' ∅ fun _ => []
  | root {h t A kids c h' t'} : Built h t A kids → allocPcb h t = some (some c, h', t') →
      Built h' t' (insert c A) kids
  | child {h t A kids q c h' t'} : Built h t A kids → q ∈ A →
      allocPcb h t = some (some c, h', t') →
      Built h' (insertChild q c t') (insert c A) (update kids q (c :: kids q))
  | other {h t A kids t'} : Built h t A kids → t'.tree = t.tree →
      (∀ x ∉ A, t'.pNext x = t.pNext x ∧ t'.pPrev x = t.pPrev x) → Built h t' A kids

namespace IsGrove

variable {A : Set PcbIx} {t t' : ProcTable} {kids : Children} {q c : PcbIx}

lemma of_tree (h : IsGrove A t kids) (ht : t'.tree = t.tree) : IsGrove A t' kids := by
  have hprnt : t'.pPrnt = t.pPrnt := congrArg TreeLinks.prnt ht
  have hchild : t'.pChild = t.pChild := congrArg TreeLinks.child ht
  have hprev : t'.pSibPrev = t.pSibPrev := congrArg TreeLinks.sibPrev ht
  have hnext : t'.pSibNext = t.pSibNext := congrArg TreeLinks.sibNext ht
  refine ⟨⟨?_, ?_, ?_, h.family.nodup, h.family.mem, ?_⟩, h.acyclic, ?_⟩
  · rw [hchild]
    exact h.family.child
  · rw [hnext, hprev]
    exact h.family.siblings
  · rw [hprnt]
    exact h.family.prnt
  · rw [hprnt]
    exact h.family.prnt_mem
  · rw [hprnt]
    exact h.root

lemma alloc (h : IsGrove A t kids) (hc : c ∉ A) (hfresh : t'.Fresh c)
    (hsame : ∀ x ≠ c, t.tree.AgreeAt t'.tree x) :
    IsGrove (insert c A) t' kids ∧ kids c = [] ∧ Children.Orphan kids c := by
  have hleaf : kids c = [] := by
    refine List.eq_nil_iff_forall_not_mem.mpr fun x hx => ?_
    exact hc (h.family.mem c x hx).1
  have horphan : Children.Orphan kids c := fun q hq => hc (h.family.mem q c hq).2
  refine ⟨⟨⟨?_, ?_, ?_, h.family.nodup, ?_, ?_⟩, h.acyclic, ?_⟩, hleaf, horphan⟩
  · rintro q (rfl | hq)
    · rw [hleaf]
      exact hfresh.child
    · have hqc : q ≠ c := fun he => hc (he ▸ hq)
      exact (hsame q hqc).2.1.trans (h.family.child q hq)
  · intro q
    refine (h.family.siblings q).congr fun x hx => ?_
    have hxc : x ≠ c := fun he => horphan q (he ▸ hx)
    exact ⟨(hsame x hxc).2.2.2, (hsame x hxc).2.2.1⟩
  · intro q x hx
    have hxc : x ≠ c := fun he => horphan q (he ▸ hx)
    exact (hsame x hxc).1.trans (h.family.prnt q x hx)
  · intro q x hx
    exact ⟨.inr (h.family.mem q x hx).1, .inr (h.family.mem q x hx).2⟩
  · rintro x (rfl | hx) q hq
    · rw [hfresh.prnt] at hq
      cases hq
    · have hxc : x ≠ c := fun he => hc (he ▸ hx)
      exact .inr (h.family.prnt_mem x hx q ((hsame x hxc).1.symm.trans hq))
  · rintro x (rfl | hx) hno
    · exact hfresh.prnt
    · have hxc : x ≠ c := fun he => hc (he ▸ hx)
      exact (hsame x hxc).1.trans (h.root x hx hno)

lemma adopt (h : IsGrove A t kids) (hq : q ∈ A) (hc : c ∈ A) (hqc : q ≠ c)
    (horphan : Children.Orphan kids c) (hleaf : kids c = []) (hfresh : t.Fresh c) :
    IsGrove A (insertChild q c t) (update kids q (c :: kids q)) := by
  refine ⟨?_, ?_, ?_⟩
  · exact (h.family.insertChild_iff hq hc horphan).mpr ⟨hfresh.sibPrev, .inl hfresh.sibNext⟩
  · intro x hx
    have hcq : ¬ kids.Descends c q := Children.not_descends hleaf hqc.symm
    rcases Children.descends_insert hcq hx with hx | ⟨hxq, hcx⟩
    · exact h.acyclic x hx
    · exact hcq (hcx.trans hxq)
  · intro x hx hno
    have hxc : x ≠ c := by
      rintro rfl
      exact hno q (by simp)
    have hold : ∀ r, x ∉ kids r := by
      intro r hr
      by_cases hrq : r = q
      · subst hrq
        exact hno r (by simp [hr])
      · exact hno r (by simpa [hrq] using hr)
    have hprnt : (insertChild q c t).pPrnt x = t.pPrnt x := by
      rw [insertChild_eq]
      exact update_of_ne hxc _ _
    rw [hprnt]
    exact h.root x hx hold

end IsGrove

namespace Built

variable {A : Set PcbIx} {h h' : PcbPtr} {t t' : ProcTable} {kids : Children} {c p : PcbIx}

lemma alloc_spec {free : List PcbIx} (hg : IsGrove A t kids) (hq : IsQueue t h free)
    (hfree : ∀ x ∈ free, x ∉ A) (ha : allocPcb h t = some (some c, h', t')) :
    c ∉ A ∧ t'.Fresh c ∧ IsGrove (insert c A) t' kids ∧ kids c = [] ∧ Children.Orphan kids c ∧
      ∃ rest, IsQueue t' h' rest ∧ ∀ x ∈ rest, x ∉ insert c A := by
  cases free with
  | nil =>
    obtain rfl : h = none := hq.1
    cases ha
  | cons b rest =>
    obtain ⟨tp, next, prev, halloc, hrest, -⟩ := allocPcb_spec hq
    obtain ⟨hbc, heq⟩ := Prod.mk.inj (Option.some.inj (halloc.symm.trans ha))
    obtain rfl := Option.some.inj hbc
    obtain ⟨rfl, rfl⟩ := Prod.mk.inj heq
    have hb : b ∉ A := hfree b List.mem_cons_self
    have hnew := allocPcb_fresh halloc
    obtain ⟨hg', hleaf, horphan⟩ := hg.alloc hb hnew fun x hx => by
      simp [TreeLinks.AgreeAt, ProcTable.tree, ProcTable.setPcb, ProcTable.withLinks, hx]
    refine ⟨hb, hnew, hg', hleaf, horphan, rest, hrest, fun x hx => ?_⟩
    rintro (rfl | hxA)
    · exact (List.nodup_cons.mp (IsRing.nodup hq)).1 hx
    · exact hfree x (List.mem_cons_of_mem b hx) hxA

/-- The forest is in the links, and none of it on the free list. -/
lemma isGrove (hb : Built h t A kids) :
    IsGrove A t kids ∧ ∃ free, IsQueue t h free ∧ ∀ x ∈ free, x ∉ A := by
  induction hb with
  | init hinit =>
    obtain ⟨tp, next, prev, hspec, hq⟩ := initPcbs_spec _
    obtain ⟨rfl, rfl⟩ := Prod.mk.inj (Option.some.inj (hspec.symm.trans hinit))
    refine ⟨⟨IsFamily.empty (by simp), fun p hp => ?_, by simp⟩, _, hq, by simp⟩
    obtain ⟨q, -, hq⟩ := Relation.TransGen.tail'_iff.mp hp
    simp [IsChild] at hq
  | root _ ha ih =>
    obtain ⟨hg, free, hq, hfree⟩ := ih
    obtain ⟨-, -, hg', -, -, hrest⟩ := alloc_spec hg hq hfree ha
    exact ⟨hg', hrest⟩
  | @child h t A kids q c h' t' _ hqA ha ih =>
    obtain ⟨hg, free, hq, hfree⟩ := ih
    obtain ⟨hc, hfresh, hg', hleaf, horphan, rest, hrest, hout⟩ := alloc_spec hg hq hfree ha
    have hqc : q ≠ c := fun he => hc (he ▸ hqA)
    refine ⟨hg'.adopt (.inr hqA) (.inl rfl) hqc horphan hleaf hfresh, rest, ?_, hout⟩
    rw [insertChild_eq]
    exact hrest
  | other _ ht hlinks ih =>
    obtain ⟨hg, free, hq, hfree⟩ := ih
    exact ⟨hg.of_tree ht, free, IsRing.congr hq fun x hx => hlinks x (hfree x hx), hfree⟩

/-- SYS1 keeps the forest, or makes the new process the first child of the running one. -/
theorem createProcess {k k' : Kernel} {q : PcbIx} {ready : List PcbIx} {newState : Addr}
    (hb : Built k.pcbListH k.procs A kids) (hcur : k.currentProcess = some q) (hqA : q ∈ A)
    (hready : IsQueue k.procs k.readyQ ready) (hsub : ∀ x ∈ ready, x ∈ A)
    (hk : Kaya.createProcess newState k = some k') :
    Built k'.pcbListH k'.procs A kids ∨
      ∃ c, Built k'.pcbListH k'.procs (insert c A) (update kids q (c :: kids q)) := by
  obtain ⟨-, free, hq, hfree⟩ := hb.isGrove
  unfold Kaya.createProcess at hk
  cases free with
  | nil =>
    have hnone : k.pcbListH = none := hq.1
    have halloc : allocPcb k.pcbListH k.procs = some (none, k.pcbListH, k.procs) := by
      rw [hnone]
      rfl
    rw [halloc] at hk
    obtain rfl := Option.some.inj hk
    exact .inl hb
  | cons c rest =>
    right
    obtain ⟨tp, next, prev, halloc, -, hoff⟩ := allocPcb_spec hq
    have hc : c ∉ A := hfree c List.mem_cons_self
    have hrest : ∀ x ∈ rest, x ∉ A := fun x hx => hfree x (List.mem_cons_of_mem c hx)
    have hchild := hb.child hqA halloc
    generalize ht : (k.procs.withLinks next prev).setPcb c (.reset (k.procs.pS c)) = t at *
    have hready' : IsQueue t k.readyQ ready := by
      refine IsRing.congr hready fun x hx => ?_
      have hxc : x ≠ c := fun he => hc (he ▸ hsub x hx)
      obtain ⟨hn, hp⟩ := hoff x fun hxr => hrest x hxr (hsub x hx)
      simp [← ht, ProcTable.setPcb, ProcTable.withLinks, hxc, hn, hp]
    have hu := insertChild_eq q c { t with pS := update t.pS c (k.states newState) }
    have hready' : IsQueue (insertChild q c { t with pS := update t.pS c (k.states newState) })
        k.readyQ ready := by
      rw [hu]
      exact hready'
    obtain ⟨next', prev', hins, -, hoff'⟩ :=
      insertProcQ_spec hready' fun hcr => hc (hsub c hcr)
    simp only [halloc, hcur, Option.bind_eq_bind, Option.bind_some, hins] at hk
    obtain rfl := Option.some.inj hk
    refine ⟨c, hchild.other ?_ fun x hx => ?_⟩
    · change (insertChild q c { t with pS := update t.pS c (k.states newState) }).tree = _
      rw [hu, insertChild_eq]
      rfl
    · have hxr : x ∉ ready ++ [c] := by
        simp only [Set.mem_insert_iff, not_or] at hx
        simp only [List.mem_append, List.mem_singleton, not_or]
        exact ⟨fun hxr => hx.2 (hsub x hxr), hx.1⟩
      obtain ⟨hn, hp⟩ := hoff' x hxr
      rw [hu] at hn hp
      rw [insertChild_eq q c t]
      exact ⟨hn, hp⟩

end Built

/-! ### What a termination does -/

/-- The PCBs are next to each other in a child list. -/
def Children.Adjacent (kids : Children) (p x : PcbIx) : Prop :=
  ∃ q, [p, x] <:+: kids q ∨ [x, p] <:+: kids q

/-- The subtree of `p` in the forest of `A` with the child lists `kids` has been taken out of `t`
and freed, where there were `n` processes before. -/
structure Terminated (A : Set PcbIx) (t : ProcTable) (kids : Children) (p : PcbIx) (n : Int)
    (s : Kin) : Prop where
  nodup : s.freed.Nodup
  mem_iff : ∀ x, x ∈ s.freed ↔ kids.Descends p x
  after : ∀ x y, kids.Descends p x → Relation.TransGen kids.IsChild x y → [y, x].Sublist s.freed
  last : s.freed.getLast? = some p
  postorder : ∃ f : Forest PcbIx, f.Spells kids (kids p) ∧ s.freed = f.postorder ++ [p]
  count : s.processCount = n - {x | kids.Descends p x}.ncard
  /-- the parent has the other children, in the order they had -/
  siblings : ∀ q, p ∈ kids q → s.procs.pChild q = ((kids q).erase p).head? ∧
    IsLinked s.procs.pSibNext s.procs.pSibPrev none ((kids q).erase p)
  /-- the others are the rest of the forest -/
  rest : IsGrove {x ∈ A | ¬ kids.Descends p x} s.procs (without kids p)
  frame : ∀ x, ¬ kids.Descends p x → p ∉ kids x → ¬ kids.Adjacent p x →
    t.tree.AgreeAt s.procs.tree x

section Termination

variable {A : Set PcbIx} {h : PcbPtr} {t : ProcTable} {kids : Children} {p : PcbIx}

/-- The current process of any forest is terminated with its subtree. -/
lemma IsGrove.exists_terminated (hg : IsGrove A t kids) (hp : p ∈ A) (n : Int) :
    ∃ s, Kin.honeyIKilledTheKids (some p) p ⟨t, n, []⟩ = some s ∧ Terminated A t kids p n s := by
  obtain ⟨f, s, hf, hnd, hs, hfreed, hcount, hrest, hframe⟩ :=
    Kin.honeyIKilledTheKids_spec hg hp n
  have hpost : ∀ x, x ∈ f.postorder ↔ x ∈ f.nodes := fun x =>
    (Forest.postorder_perm_nodes f).mem_iff
  have hmem : ∀ x, x ∈ s.freed ↔ kids.Descends p x := by
    intro x
    rw [hfreed, List.mem_append, List.mem_singleton, hpost, or_comm]
    exact hf.descends_iff.symm
  have hfnd : s.freed.Nodup := by
    rw [hfreed, List.nodup_append]
    refine ⟨(Forest.postorder_perm_nodes f).nodup_iff.mpr hnd, List.nodup_singleton p, ?_⟩
    rintro x hx y hy rfl
    obtain rfl := List.mem_singleton.mp hy
    exact hg.not_mem_below hf ((hpost x).mp hx)
  refine ⟨s, hs, hfnd, hmem, ?_, ?_, ⟨f, hf, hfreed⟩, ?_, ?_, hrest, ?_⟩
  · intro x y hx hxy
    rw [hfreed]
    rcases Relation.reflTransGen_iff_eq_or_transGen.mp hx with rfl | hx
    · have hy := List.singleton_sublist.mpr ((hpost y).mpr (hf.mem_nodes_below.mpr hxy))
      exact hy.append (List.Sublist.refl [x])
    · have hxf := hf.mem_nodes_below.mpr hx
      exact (hf.postorder_after hxf hxy).trans (List.sublist_append_left _ _)
  · rw [hfreed, List.getLast?_append]
    rfl
  · have hset : {x | kids.Descends p x} = (s.freed.toFinset : Set PcbIx) := by
      ext x
      simp [hmem]
    rw [hcount, hset, Set.ncard_coe_finset, List.toFinset_card_of_nodup hfnd]
  · intro q hq
    have hqd : ¬ kids.Descends p q := fun hd => hg.acyclic p (Relation.TransGen.tail' hd hq)
    have hwithout : without kids p q = (kids q).erase p := if_neg hqd
    rw [← hwithout]
    exact ⟨hrest.family.child q ⟨(hg.family.mem q p hq).1, hqd⟩, hrest.family.siblings q⟩
  · intro x hx hparent hnear
    refine hframe x hx hparent fun q => ⟨fun hpx => hnear ⟨q, .inl hpx⟩, fun hxp => ?_⟩
    exact hnear ⟨q, .inr hxp⟩

lemma Terminated.freePcbs_eq {n : Int} {s : Kin} {k k' : Kernel} {f : Forest PcbIx}
    (hterm : Terminated A t kids p n s) (hf : f.Spells kids (kids p))
    (hfree : k'.freePcbs = k.freePcbs ++ (f.postorder ++ [p])) :
    k'.freePcbs = k.freePcbs ++ s.freed := by
  obtain ⟨f', hf', hfreed⟩ := hterm.postorder
  rw [hfree, hfreed, hf.unique hf']

/-- `HoneyIKilledTheKids` of any PCB of a forest that has been built returns and frees exactly
its subtree, children first. The whole function does the same to the tree and the count and
frees the same PCBs. If it finds the PCBs in their queues it returns, and they are then at the end
of the free list. -/
theorem termination_frees_subtree (hb : Built h t A kids) (hp : p ∈ A) (n : Int) :
    ∃ s, Kin.honeyIKilledTheKids (some p) p ⟨t, n, []⟩ = some s ∧ Terminated A t kids p n s ∧
      ∀ (m : Machine) (k : Kernel), k.procs.tree = t.tree → k.processCount = n →
        k.currentProcess = some p →
        (∀ k', honeyIKilledTheKids m (maxProc + 1) p k = some k' →
          k'.procs.tree = s.procs.tree ∧ k'.processCount = s.processCount ∧
            freedBy m p k = some s.freed) ∧
        (Queued kids p k → ∃ k', honeyIKilledTheKids m (maxProc + 1) p k = some k' ∧
          k'.freePcbs = k.freePcbs ++ s.freed) := by
  obtain ⟨hg, -⟩ := hb.isGrove
  obtain ⟨s, hs, hterm⟩ := hg.exists_terminated hp n
  refine ⟨s, hs, hterm, fun m k htree hcount hcur => ⟨fun k' hk => ?_, fun hq => ?_⟩⟩
  · obtain ⟨s', hs', hshows⟩ := honeyIKilledTheKids_shows (s := ⟨t, n, []⟩) hcur htree hcount rfl hk
    obtain rfl := Option.some.inj (hs.symm.trans hs')
    exact hshows
  · obtain ⟨k', f, hk, hf, hfree⟩ := honeyIKilledTheKids_returns m (hg.of_tree htree) hp hcur hq
    exact ⟨k', hk, hterm.freePcbs_eq hf hfree⟩

/-- The first PCB with two children, of which the older has a child. -/
def smallFamily : Option (PcbPtr × ProcTable) := do
  let (h, t) ← initPcbs blankKernel.procs
  let (_, h, t) ← allocPcb h t
  let (_, h, t) ← allocPcb h t
  let t := insertChild 0 1 t
  let (_, h, t) ← allocPcb h t
  let t := insertChild 0 2 t
  let (_, h, t) ← allocPcb h t
  return (h, insertChild 1 3 t)

def smallKids : Children := update (update (fun _ => []) 0 [2, 1]) 1 [3]

lemma smallFamily_built : ∃ h t, smallFamily = some (h, t) ∧
    Built h t {3, 2, 1, 0} smallKids := by
  have hkids : smallKids = update (update (update (fun _ => []) 0 [1]) 0 [2, 1]) 1 [3] := by
    rw [update_idem]
    rfl
  rw [hkids, ← insert_empty_eq (0 : PcbIx)]
  have h0 : Built _ _ _ _ := Built.init (t := blankKernel.procs) rfl
  have h1 := Built.root (c := 0) h0 rfl
  have h2 := Built.child (q := 0) (c := 1) h1 (.inl rfl) rfl
  have h3 := Built.child (q := 0) (c := 2) h2 (by simp) rfl
  exact ⟨_, _, rfl, Built.child (q := 1) (c := 3) h3 (by simp) rfl⟩

theorem termination_frees_small_family : ∃ h t, smallFamily = some (h, t) ∧
    ∃ s, Kin.honeyIKilledTheKids (some 1) 1 ⟨t, 4, []⟩ = some s ∧ s.freed = [3, 1] ∧
      Terminated {3, 2, 1, 0} t smallKids 1 4 s := by
  obtain ⟨h, t, hsmall, hb⟩ := smallFamily_built
  obtain ⟨s, hs, hterm, -⟩ := termination_frees_subtree hb (p := 1) (by simp) 4
  refine ⟨h, t, hsmall, s, hs, ?_, hterm⟩
  have heval : (smallFamily.bind fun x => Kin.honeyIKilledTheKids (some 1) 1 ⟨x.2, 4, []⟩).map
      Kin.freed = some [3, 1] := by decide
  rw [hsmall, Option.bind_some, hs] at heval
  exact Option.some.inj heval

/-- The running process of the nucleus is terminated so, when every process below it is where
its `p_semAdd` says. -/
theorem Rep.kill_terminates {k : Kernel} {a : Nuc} (hr : Rep k a) (hd : a.Doomed p) (m : Machine) :
    ∃ k' s, honeyIKilledTheKids m (maxProc + 1) p k = some k' ∧
      Terminated {x | x ∈ a.tree.nodes} k.procs a.tree.childLists p k.processCount s ∧
      k'.procs.tree = s.procs.tree ∧ k'.processCount = s.processCount ∧
      freedBy m p k = some s.freed ∧ k'.freePcbs = k.freePcbs ++ s.freed := by
  obtain ⟨L, root, hheld, hf⟩ := hr
  have hcur : k.currentProcess = some p := by
    rw [← hd.current, hheld.data]
    rfl
  obtain rfl := hheld.links
  have hg := IsGrove.of_isForest hf hd.nodup
  have hqueued : Queued a.tree.childLists p k := ⟨a, hheld, hd.homeless, fun q hq =>
    hd.placed q ((Forest.mem_kids_iff hd.nodup hd.mem).mpr hq)⟩
  obtain ⟨k', f, hk, hspells, hfree⟩ := honeyIKilledTheKids_returns m hg hd.mem hcur hqueued
  obtain ⟨s, hs, hterm⟩ := hg.exists_terminated hd.mem k.processCount
  obtain ⟨s', hs', hshows⟩ := honeyIKilledTheKids_shows (s := ⟨k.procs, k.processCount, []⟩)
    hcur rfl rfl rfl hk
  obtain rfl := Option.some.inj (hs.symm.trans hs')
  obtain ⟨htree, hcount, hfreed⟩ := hshows
  exact ⟨k', s, hk, hterm, htree, hcount, hfreed, hterm.freePcbs_eq hspells hfree⟩

end Termination

end Kaya
