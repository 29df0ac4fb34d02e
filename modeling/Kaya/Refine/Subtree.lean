import Kaya.Lib.Descent
import Kaya.Refine.Children
import Kaya.Refine.Kin
import Kaya.Refine.Readout

/-!
# Taking a subtree out

The PCBs in use as a forest given by child lists. Taking apart what is below a PCB, and then
taking out the PCB itself, leaves the forest of all others, and their links as they were except
next to the PCB.
-/

namespace Kaya

open Function Linked Relation

/-- The PCBs in `A` form the forest with these child lists, and its roots have no parent. -/
structure IsGrove (A : Set PcbIx) (t : ProcTable) (kids : PcbIx → List PcbIx) : Prop where
  family : IsFamily A t kids
  acyclic : ∀ p, ¬ TransGen (IsChild kids) p p
  root : ∀ p ∈ A, (∀ q, p ∉ kids q) → t.pPrnt p = none

namespace IsGrove

variable {A : Set PcbIx} {t : ProcTable} {kids : PcbIx → List PcbIx} {p q c x : PcbIx}
  {f : Forest PcbIx} {L : TreeLinks PcbIx}

lemma isForestal (h : IsGrove A t kids) : IsForestal kids where
  nodup := h.family.nodup
  unique hq hr := Option.some.inj ((h.family.prnt _ _ hq).symm.trans (h.family.prnt _ _ hr))
  acyclic := h.acyclic

lemma mem_of_transGen (h : IsGrove A t kids) (hx : TransGen (IsChild kids) p x) : x ∈ A := by
  obtain ⟨q, -, hq⟩ := TransGen.tail'_iff.mp hx
  exact (h.family.mem q x hq).2

lemma mem_kids (h : IsGrove A t kids) (hc : c ∈ A) (hq : t.pPrnt c = some q) : c ∈ kids q := by
  by_contra hno
  have horphan : ∀ r, c ∉ kids r := by
    intro r hr
    obtain rfl : q = r := Option.some.inj (hq.symm.trans (h.family.prnt r c hr))
    exact hno hr
  rw [h.root c hc horphan] at hq
  cases hq

lemma exists_forest (h : IsGrove A t kids) (hp : p ∈ A) :
    ∃ f : Forest PcbIx, f.Spells kids (kids p) ∧ f.nodes.Nodup ∧
      IsForest t.tree (some p) none (t.pChild p) f := by
  obtain ⟨f, hf⟩ := Forest.Spells.exists_forest h.acyclic (kids p)
  refine ⟨f, hf, ?_, ?_⟩
  · exact hf.nodup h.isForestal (h.family.nodup p) fun a ha b hb hab x =>
      h.isForestal.not_descends_both ha hb hab
  · rw [h.family.child p hp]
    refine hf.isForest (fun q hq => ?_) h.family.siblings h.family.prnt (h.family.siblings p)
      (h.family.prnt p)
    exact h.family.child q (h.mem_of_transGen (hf.mem_nodes_below.mp hq))

/-- Nobody is below itself. -/
lemma not_mem_below (h : IsGrove A t kids) (hf : f.Spells kids (kids p)) : p ∉ f.nodes := by
  rw [hf.mem_nodes_below]
  exact h.acyclic p

/-- The trees below `p` are gone. -/
lemma kidsGone (h : IsGrove A t kids) (hp : p ∈ A) (hf : f.Spells kids (kids p))
    (hg : KidsGone p f t.tree L) :
    IsGrove {x ∈ A | x ∉ f.nodes} (t.withTree L)
      fun q => if q = p ∨ q ∈ f.nodes then [] else kids q := by
  have hpf := h.not_mem_below hf
  have hkept : ∀ {q c}, c ∈ (if q = p ∨ q ∈ f.nodes then [] else kids q) →
      c ∈ kids q ∧ q ∉ f.nodes ∧ c ∉ f.nodes := by
    intro q c hc
    split at hc
    · simp at hc
    · rename_i hq
      refine ⟨hc, fun hqf => hq (.inr hqf), fun hcf => hq ?_⟩
      exact (hf.child_mem_iff h.isForestal hc).mp hcf
  have horphan : ∀ x ∉ f.nodes, (∀ q, x ∉ if q = p ∨ q ∈ f.nodes then [] else kids q) →
      ∀ q, x ∉ kids q := by
    intro x hx hno q hq
    have hqf : ¬ (q = p ∨ q ∈ f.nodes) := fun hqf =>
      hx ((hf.child_mem_iff h.isForestal hq).mpr hqf)
    exact hno q (by rwa [if_neg hqf])
  refine ⟨⟨?_, ?_, ?_, ?_, ?_, ?_⟩, ?_, ?_⟩
  · rintro q ⟨hq, hqf⟩
    by_cases hqp : q = p
    · subst hqp
      simpa [ProcTable.withTree] using hg.1
    · have hchild : L.child q = t.pChild q := (hg.2 q hqf).2.1 hqp
      simpa [hqp, hqf, ProcTable.withTree, hchild] using h.family.child q hq
  · intro q
    split
    · trivial
    · rename_i hq
      refine (h.family.siblings q).congr fun x hx => ?_
      have hxf : x ∉ f.nodes := fun hxf => hq ((hf.child_mem_iff h.isForestal hx).mp hxf)
      obtain ⟨-, -, hv, hn⟩ := hg.2 x hxf
      exact ⟨hn, hv⟩
  · intro q c hc
    obtain ⟨hc, -, hcf⟩ := hkept hc
    exact (hg.2 c hcf).1.trans (h.family.prnt q c hc)
  · intro q
    split
    · exact List.nodup_nil
    · exact h.family.nodup q
  · intro q c hc
    obtain ⟨hc, hqf, hcf⟩ := hkept hc
    exact ⟨⟨(h.family.mem q c hc).1, hqf⟩, (h.family.mem q c hc).2, hcf⟩
  · rintro c ⟨hcA, hcf⟩ q hq
    have hprnt : t.pPrnt c = some q := (hg.2 c hcf).1.symm.trans hq
    have hcq := h.mem_kids hcA hprnt
    refine ⟨(h.family.mem q c hcq).1, fun hqf => hcf ?_⟩
    exact (hf.child_mem_iff h.isForestal hcq).mpr (.inr hqf)
  · intro x hx
    exact h.acyclic x (TransGen.mono (fun a b hab => (hkept hab).1) x x hx)
  · rintro x ⟨hxA, hxf⟩ hno
    exact (hg.2 x hxf).1.trans (h.root x hxA (horphan x hxf hno))

lemma outChild_family (h : IsGrove A t kids) (hp : p ∈ A) :
    ∃ r t', Kaya.outChild p t = some (r, t') ∧ IsFamily A t' (fun q => (kids q).erase p) ∧
      t'.pPrnt = t.pPrnt ∧
      ∀ x, p ∉ kids x → (∀ q, ¬ [p, x] <:+: kids q ∧ ¬ [x, p] <:+: kids q) →
        t.tree.AgreeAt t'.tree x := by
  by_cases hq : ∃ q, p ∈ kids q
  · obtain ⟨q, hq⟩ := hq
    obtain ⟨t', hout, hf, hsame⟩ := h.family.outChild_spec hq
    rw [← h.family.erase_eq hq] at hf
    refine ⟨some p, t', hout, hf, hsame, fun x hx hno => outChild_agreeAt hout ?_ ?_ ?_⟩
    · rw [h.family.prnt q p hq]
      exact fun he => hx (Option.some.inj he ▸ hq)
    · exact fun hn => (hno q).1 ((h.family.siblings q).next_adjacent hq hn)
    · exact fun hv => (hno q).2 ((h.family.siblings q).prev_adjacent hq hv)
  · have hno : ∀ q, p ∉ kids q := fun q hm => hq ⟨q, hm⟩
    have hprnt := h.root p hp hno
    have herase : (fun q => (kids q).erase p) = kids :=
      funext fun q => List.erase_of_not_mem (hno q)
    rw [herase]
    exact ⟨none, t, by simp [Kaya.outChild, hprnt], h.family, rfl,
      fun x _ _ => ⟨rfl, rfl, rfl, rfl⟩⟩

lemma outChild (h : IsGrove A t kids) (hp : p ∈ A) (hleaf : kids p = []) :
    ∃ r t', Kaya.outChild p t = some (r, t') ∧
      IsGrove (A \ {p}) t' (fun q => (kids q).erase p) ∧
      ∀ x, p ∉ kids x → (∀ q, ¬ [p, x] <:+: kids q ∧ ¬ [x, p] <:+: kids q) →
        t.tree.AgreeAt t'.tree x := by
  obtain ⟨r, t', hout, hf, hsame, hframe⟩ := h.outChild_family hp
  have hkept : ∀ {q c}, c ∈ (kids q).erase p → q ≠ p ∧ c ≠ p ∧ c ∈ kids q := by
    intro q c hc
    obtain ⟨hcp, hc⟩ := (h.family.nodup q).mem_erase_iff.mp hc
    refine ⟨fun he => ?_, hcp, hc⟩
    rw [he, hleaf] at hc
    simp at hc
  refine ⟨r, t', hout, ⟨⟨?_, hf.siblings, hf.prnt, hf.nodup, ?_, ?_⟩, ?_, ?_⟩, hframe⟩
  · exact fun q hq => hf.child q hq.1
  · intro q c hc
    obtain ⟨hqp, hcp, -⟩ := hkept hc
    exact ⟨⟨(hf.mem q c hc).1, hqp⟩, (hf.mem q c hc).2, hcp⟩
  · rintro c ⟨hcA, hcp⟩ q hq
    refine ⟨hf.prnt_mem c hcA q hq, ?_⟩
    rintro rfl
    rw [hsame] at hq
    have hc := h.mem_kids hcA hq
    simp [hleaf] at hc
  · intro x hx
    exact h.acyclic x (TransGen.mono (fun a b hab => (hkept hab).2.2) x x hx)
  · rintro x ⟨hxA, hxp⟩ hno
    rw [hsame]
    refine h.root x hxA fun q hq => hno q ?_
    exact (List.mem_erase_of_ne hxp).mpr hq

lemma of_isForest {root : PcbPtr} (hf : IsForest t.tree none none root f) (hnd : f.nodes.Nodup) :
    IsGrove {x | x ∈ f.nodes} t f.childLists := by
  have hmem : ∀ {q c}, c ∈ f.childLists q → q ∈ f.nodes := by
    intro q c hc
    by_contra hq
    rw [Forest.childLists_of_not_mem hq] at hc
    simp at hc
  have hkids : ∀ {q}, q ∈ f.nodes → t.pChild q = (f.childLists q).head? ∧
      IsLinked t.pSibNext t.pSibPrev none (f.childLists q) ∧
      ∀ c ∈ f.childLists q, t.pPrnt c = some q := fun hq => (hf.kids hq).isLinked
  refine ⟨⟨fun q hq => (hkids hq).1, fun q => ?_, fun q c hc => (hkids (hmem hc)).2.2 c hc,
    fun q => ?_, fun q c hc => ⟨hmem hc, ?_⟩, fun c hc q hq => ?_⟩, Forest.childLists_acyclic hnd,
    fun p hp hno => ?_⟩
  · by_cases hq : q ∈ f.nodes
    · exact (hkids hq).2.1
    · rw [Forest.childLists_of_not_mem hq]
      trivial
  · exact (Forest.kids_nodup q hnd).sublist (Forest.roots_sublist_nodes _)
  · exact Forest.kids_nodes_subset q f c ((Forest.roots_sublist_nodes _).mem hc)
  · exact (hf.prnt_mem hc hq).resolve_right (by simp)
  · cases hq : t.pPrnt p with
    | none => rfl
    | some q =>
      rcases hf.mem_kids_of_prnt hnd hp hq with ⟨-, hpq⟩ | ⟨he, -⟩
      · exact absurd hpq (hno q)
      · cases he

end IsGrove

/-! ### The whole termination -/

namespace Kin

variable {A : Set PcbIx} {t : ProcTable} {kids : PcbIx → List PcbIx} {p : PcbIx}

lemma killing_tracks (t : ProcTable) (current : PcbPtr) : (killing current).Tracks
    (fun L b s => s = ⟨t.withTree L, b.1, b.2⟩) (fun c _ => some c ≠ current)
    (fun b c => (b.1 - 1, b.2 ++ [c])) := by
  constructor
  · rintro L b s p rfl hc
    have hchild : (t.withTree L).pChild p = none := hc
    simp [killing, emptyChild, hchild]
  · rintro L b s p c f rfl hf hc
    have hchild : (t.withTree L).pChild p = some c := hc
    have hremove := removeChild_eq (t := t.withTree L) hf hchild
    refine ⟨⟨t.withTree (L.unlink c), b.1, b.2⟩, ?_, rfl⟩
    simp only [killing, emptyChild, hchild, hremove, Option.isNone_some, Bool.false_eq_true,
      if_false]
    rfl
  · rintro L b s c rfl hc
    refine ⟨_, ?_, rfl⟩
    simp [killing, takeOut, hc]
  · intro b c d hc _
    exact hc

lemma foldl_freed (l : List PcbIx) (n : Int) (freed : List PcbIx) :
    l.foldl (fun b c => (b.1 - 1, b.2 ++ [c])) (n, freed) = (n - l.length, freed ++ l) := by
  induction l generalizing n freed with
  | nil => simp
  | cons c l ih =>
    rw [List.foldl_cons, ih]
    simp only [List.length_cons, List.append_assoc, List.singleton_append, Prod.mk.injEq, and_true]
    push_cast
    ring

/-- The current process `p` is terminated with all below it, in postorder. -/
theorem honeyIKilledTheKids_spec (h : IsGrove A t kids) (hp : p ∈ A) (n : Int) :
    ∃ (f : Forest PcbIx) (s : Kin), f.Spells kids (kids p) ∧ f.nodes.Nodup ∧
      honeyIKilledTheKids (some p) p ⟨t, n, []⟩ = some s ∧ s.freed = f.postorder ++ [p] ∧
      s.processCount = n - s.freed.length ∧
      IsGrove {x ∈ A | ¬ ReflTransGen (IsChild kids) p x} s.procs (without kids p) ∧
      ∀ x, ¬ ReflTransGen (IsChild kids) p x → p ∉ kids x →
        (∀ q, ¬ [p, x] <:+: kids q ∧ ¬ [x, p] <:+: kids q) → t.tree.AgreeAt s.procs.tree x := by
  obtain ⟨f, hf, hnd, hforest⟩ := h.exists_forest hp
  have hpf := h.not_mem_below hf
  have hheight := (Forest.height_le_length f).trans (Nat.le_of_lt_succ (length_lt_bound hnd))
  have hroots := length_lt_bound (hnd.sublist (Forest.roots_sublist_nodes f))
  obtain ⟨s₁, L, hloop, rfl, hgone⟩ := (killing_tracks t (some p)).loop
    (b := (n, [])) (fun _ => length_lt_bound) rfl hforest (List.nodup_cons.mpr ⟨hpf, hnd⟩)
    hheight hroots fun q hq he => hpf (Option.some.inj he ▸ hq)
  obtain ⟨r, t', hout, hgrove, hframe⟩ := (h.kidsGone hp hf hgone).outChild ⟨hp, hpf⟩ (by simp)
  rw [foldl_freed] at hloop
  refine ⟨f, ⟨t', n - f.postorder.length - 1, f.postorder ++ [p]⟩, hf, hnd, ?_, rfl, ?_, ?_, ?_⟩
  · unfold honeyIKilledTheKids
    simp only [withTree_tree] at hloop
    rw [Walk.run, hloop]
    simp [killing, takeOut, hout]
  · simp only [List.length_append, List.length_singleton]
    push_cast
    ring
  · convert hgrove using 1
    · ext x
      simp only [hf.descends_iff, not_or, Set.mem_ofPred_eq, Set.mem_sdiff, Set.mem_singleton_iff]
      tauto
    · funext q
      unfold without
      by_cases hq : q = p ∨ q ∈ f.nodes
      · rw [if_pos (hf.descends_iff.mpr hq), if_pos hq, List.erase_nil]
      · simp only [if_neg hq, if_neg fun hd => hq (hf.descends_iff.mp hd)]
  · intro x hx hparent hnear
    rw [hf.descends_iff, not_or] at hx
    obtain ⟨hv, hc, hsv, hsn⟩ := hgone.2 x hx.2
    refine TreeLinks.AgreeAt.trans ⟨hv, hc hx.1, hsv, hsn⟩ (hframe x ?_ ?_)
    · simpa [hx.1, hx.2] using hparent
    · intro q
      split
      · simp
      · exact hnear q

end Kin

/-! ### Its work on the queues -/

/-- The PCBs below `p` are in the queues that their `p_semAdd` names, and `p` is in none. -/
def Queued (kids : PcbIx → List PcbIx) (p : PcbIx) (k : Kernel) : Prop :=
  ∃ a : Nuc, Held k.procs.tree k a ∧ a.Homeless p ∧ ∀ q, TransGen (IsChild kids) p q → a.Placed q

/-- In such queues a termination finds all that it looks for, and the free list gets the PCBs in
postorder. -/
theorem honeyIKilledTheKids_returns {A : Set PcbIx} {kids : PcbIx → List PcbIx} {p : PcbIx}
    {k : Kernel} (m : Machine) (h : IsGrove A k.procs kids) (hp : p ∈ A)
    (hcur : k.currentProcess = some p) (hq : Queued kids p k) :
    ∃ (k' : Kernel) (f : Forest PcbIx), honeyIKilledTheKids m (maxProc + 1) p k = some k' ∧
      f.Spells kids (kids p) ∧ k'.freePcbs = k.freePcbs ++ (f.postorder ++ [p]) := by
  obtain ⟨a, ha, hhome, hplace⟩ := hq
  obtain ⟨f, hf, hnd, hforest⟩ := h.exists_forest hp
  have hpf := h.not_mem_below hf
  have hacur : a.currentProcess = some p := by
    rw [ha.data]
    exact hcur
  have hheight := (Forest.height_le_length f).trans (Nat.le_of_lt_succ (length_lt_bound hnd))
  have hroots := length_lt_bound (hnd.sublist (Forest.roots_sublist_nodes f))
  obtain ⟨k₁, L, hkill, h₁, hgone⟩ := killKids_sim m ha hforest
    (List.nodup_cons.mpr ⟨hpf, hnd⟩) hheight hroots fun q hq => by
      refine ⟨hplace q (hf.mem_nodes_below.mp hq), ?_⟩
      rw [hacur]
      exact fun he => hpf (Option.some.inj he ▸ hq)
  obtain ⟨r, t', hout, -⟩ := (h.kidsGone hp hf hgone).outChild ⟨hp, hpf⟩ (by simp)
  have htree : k₁.procs.tree = (k.procs.withTree L).tree := h₁.links
  have hout₁ := outChild_of_tree (p := p) htree
  rw [hout] at hout₁
  have hpost : p ∉ f.postorder := by
    rwa [(Forest.postorder_perm_nodes f).mem_iff]
  have hhome₁ := hhome.foldl_takeOut (m := m) hpost
  have h₂ : Held t'.tree { k₁ with procs := k₁.procs.withTree t'.tree } _ := h₁.setTree .nil
  have hcur₁ : k₁.currentProcess = some p := by
    rw [← hacur, ← Nuc.foldl_takeOut_currentProcess (m := m) f.postorder a, h₁.data]
    rfl
  obtain ⟨k', htake, hend⟩ :=
    h₂.takeOut_current (m := m) ⟨hhome₁.free, hhome₁.ready, hhome₁.blocked⟩ hcur₁ hout₁
  refine ⟨k', f, ?_, hf, ?_⟩
  · rw [honeyIKilledTheKids, hkill]
    exact htake
  · rw [hend.freePcbs_eq, ha.freePcbs_eq, ← List.append_assoc]
    exact congrArg (· ++ [p]) (Nuc.foldl_takeOut_free f.postorder a)

end Kaya
