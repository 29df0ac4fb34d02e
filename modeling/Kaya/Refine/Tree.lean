import Kaya.Lib.Forest
import Kaya.Refine.Queue

/-!
# The process tree as a forest

The tree functions of `pcb.c` compute the operations on links whose effect on the forest
the library describes.
-/

namespace Kaya

open Function Linked

/-- The tree links of the PCBs. -/
def ProcTable.tree (t : ProcTable) : TreeLinks PcbIx :=
  ⟨t.pPrnt, t.pChild, t.pSibPrev, t.pSibNext⟩

/-- The table with other tree links. -/
def ProcTable.withTree (t : ProcTable) (L : TreeLinks PcbIx) : ProcTable :=
  { t with pPrnt := L.prnt, pChild := L.child, pSibPrev := L.sibPrev, pSibNext := L.sibNext }

@[simp] lemma tree_withTree (t : ProcTable) (L : TreeLinks PcbIx) : (t.withTree L).tree = L := rfl

@[simp] lemma withTree_tree (t : ProcTable) : t.withTree t.tree = t := rfl

lemma insertChild_eq (q c : PcbIx) (t : ProcTable) :
    insertChild q c t = t.withTree (t.tree.insertFirst q c) := by
  cases hd : t.pChild q <;>
    simp [insertChild, TreeLinks.insertFirst, ProcTable.tree, ProcTable.withTree, hd]

lemma removeChild_eq {t : ProcTable} {p c : PcbIx} {f : Forest PcbIx}
    (h : IsForest t.tree (some p) none (t.pChild p) f) (hc : t.pChild p = some c) :
    removeChild p t = some (some c, t.withTree (t.tree.unlink c)) := by
  rw [hc] at h
  have hprnt : t.pPrnt c = some p := h.prnt_first
  have hprev : t.pSibPrev c = none := h.sibPrev_first
  unfold removeChild TreeLinks.unlink ProcTable.tree ProcTable.withTree
  cases hn : t.pSibNext c <;> simp [hc, hprnt, hprev, hn]

lemma outChildLoop_eq {t : ProcTable} {parent prev first : PcbPtr} {p y : PcbIx}
    {f : Forest PcbIx} {fuel : Nat} (h : IsForest t.tree parent prev first f)
    (hp : p ∈ f.roots) (hf : f.roots.length ≤ fuel) (hy : t.pSibPrev p = some y)
    (hc : ∀ q, t.pPrnt p = some q → t.pChild q ≠ some p) :
    outChildLoop p t fuel first = some (t.withTree (t.tree.unlink p)) := by
  induction f generalizing prev first fuel with
  | nil => simp [Forest.roots] at hp
  | cons a ks ss _ ih =>
    obtain ⟨rfl, -, -, -, hs⟩ := h
    have hf0 : fuel ≠ 0 := by
      simp only [Forest.roots, List.length_cons] at hf
      omega
    obtain ⟨n, rfl⟩ := Nat.exists_eq_add_one_of_ne_zero hf0
    by_cases hap : a = p
    · subst hap
      cases hq : t.pPrnt a with
      | none =>
        cases hn : t.pSibNext a <;>
          simp [outChildLoop, TreeLinks.unlink, ProcTable.tree, ProcTable.withTree, hy, hq, hn]
      | some q =>
        cases hn : t.pSibNext a <;>
          simp [outChildLoop, TreeLinks.unlink, ProcTable.tree, ProcTable.withTree, hy, hq, hn,
            hc q hq]
    · have hps : p ∈ ss.roots := by simpa [Forest.roots, Ne.symm hap] using hp
      have hi := ih hs hps (by simpa [Forest.roots] using hf)
      simp only [outChildLoop, Option.some.injEq, hap, if_false, Option.bind_eq_bind,
        Option.bind_some]
      exact hi

lemma outChild_eq {t : ProcTable} {parent prev first : PcbPtr} {p q : PcbIx}
    {f : Forest PcbIx} (h : IsForest t.tree parent prev first f) (hnd : f.nodes.Nodup)
    (hp : p ∈ f.nodes) (hq : t.pPrnt p = some q) (hpar : parent ≠ some q) :
    outChild p t = some (some p, t.withTree (t.tree.unlink p)) := by
  obtain ⟨hqf, hroot⟩ := (h.mem_kids_of_prnt hnd hp hq).resolve_right fun hr => hpar hr.1
  have hkid : IsForest t.tree (some q) none (t.pChild q) (f.kids q) := h.kids hqf
  by_cases hc : t.pChild q = some p
  · simp [outChild, hq, hc, removeChild_eq hkid hc]
  · have hlen : (f.kids q).roots.length ≤ maxProc + 1 := by
      have hsub : ((f.kids q).roots).Nodup :=
        (Forest.kids_nodup q hnd).sublist (Forest.roots_sublist_nodes _)
      have hle := hsub.length_le_card
      simp only [Fintype.card_fin] at hle
      omega
    obtain ⟨y, hy⟩ : ∃ y, t.pSibPrev p = some y := hkid.exists_sibPrev hroot hc
    have hloop := outChildLoop_eq hkid hroot hlen hy fun r hr => by
      obtain rfl : q = r := Option.some.inj (hq.symm.trans hr)
      exact hc
    simp [outChild, hq, hc, hloop]

/-! ### What taking a child out leaves alone -/

section Frame

variable {t t' : ProcTable} {p q x : PcbIx} {r : PcbPtr}

lemma removeChild_agreeAt (h : removeChild q t = some (r, t')) (hq : x ≠ q)
    (hx : ∀ c, t.pChild q = some c → t.pSibNext c ≠ some x) : t.tree.AgreeAt t'.tree x := by
  unfold removeChild at h
  cases hc : t.pChild q with
  | none =>
    obtain ⟨-, rfl⟩ : r = none ∧ t' = t := by simpa [hc, eq_comm] using h
    exact ⟨rfl, rfl, rfl, rfl⟩
  | some c =>
    simp only [hc] at h
    split at h
    · obtain ⟨-, rfl⟩ := Prod.mk.inj (Option.some.inj h)
      simp [TreeLinks.AgreeAt, ProcTable.tree, hq]
    · simp only [Option.bind_eq_bind, Option.bind_eq_some_iff] at h
      obtain ⟨d, hd, h⟩ := h
      obtain ⟨-, rfl⟩ := Prod.mk.inj (Option.some.inj h)
      rw [update_self] at hd
      have hxd : x ≠ d := fun he => hx c hc (he ▸ hd)
      simp [TreeLinks.AgreeAt, ProcTable.tree, hq, hxd]

lemma outChildLoop_agreeAt {fuel : Nat} {current : PcbPtr}
    (h : outChildLoop p t fuel current = some t') (hn : t.pSibNext p ≠ some x)
    (hv : t.pSibPrev p ≠ some x) : t.tree.AgreeAt t'.tree x := by
  induction fuel generalizing current with
  | zero => cases h
  | succ n ih =>
    unfold outChildLoop at h
    split at h
    · cases hnext : t.pSibNext p with
      | none =>
        simp only [hnext, Option.bind_eq_bind, Option.bind_eq_some_iff] at h
        obtain ⟨y, hy, h⟩ := h
        obtain rfl := Option.some.inj h
        have hxy : x ≠ y := fun he => hv (he ▸ hy)
        simp [TreeLinks.AgreeAt, ProcTable.tree, hxy]
      | some z =>
        simp only [hnext, Option.bind_eq_bind, Option.bind_eq_some_iff] at h
        obtain ⟨y, hy, h⟩ := h
        obtain rfl := Option.some.inj h
        have hxy : x ≠ y := fun he => hv (he ▸ hy)
        have hxz : x ≠ z := fun he => hn (he ▸ hnext)
        simp [TreeLinks.AgreeAt, ProcTable.tree, hxy, hxz]
    · simp only [Option.bind_eq_bind, Option.bind_eq_some_iff] at h
      obtain ⟨c, -, h⟩ := h
      exact ih h

/-- Only the parent and the siblings next to a child change when it is taken out. -/
lemma outChild_agreeAt (h : outChild p t = some (r, t')) (hq : t.pPrnt p ≠ some x)
    (hn : t.pSibNext p ≠ some x) (hv : t.pSibPrev p ≠ some x) : t.tree.AgreeAt t'.tree x := by
  unfold outChild at h
  cases hprnt : t.pPrnt p with
  | none =>
    obtain ⟨-, rfl⟩ : r = none ∧ t' = t := by simpa [hprnt, eq_comm] using h
    exact ⟨rfl, rfl, rfl, rfl⟩
  | some q =>
    simp only [hprnt] at h
    split at h
    · rename_i hfirst
      refine removeChild_agreeAt h (fun he => hq (he ▸ hprnt)) fun c hc => ?_
      obtain rfl : p = c := Option.some.inj (hfirst.symm.trans hc)
      exact hn
    · simp only [Option.bind_eq_bind, Option.bind_eq_some_iff] at h
      obtain ⟨t₁, hloop, h⟩ := h
      obtain ⟨-, rfl⟩ := Prod.mk.inj (Option.some.inj h)
      exact outChildLoop_agreeAt hloop hn hv

end Frame

end Kaya
