import Kaya.Lib.Forest
import Kaya.Lib.Siblings
import Mathlib.Logic.Relation
import Mathlib.Order.WellFounded

/-!
# Child lists

The list of the children of each node, as another way to give a forest. When no node has two
parents or descends from itself, the trees below a node can be spelled out, with every node
once, and links that follow the lists follow the trees.
-/

namespace Linked

open Relation

variable {α : Type*} {kids : α → List α} {a b p q x y : α} {f : Forest α} {l : List α}

def IsChild (kids : α → List α) (q p : α) : Prop := p ∈ kids q

open Classical in
/-- The child lists without `p` and all that is below it. -/
noncomputable def without [DecidableEq α] (kids : α → List α) (p : α) : α → List α :=
  fun q => if ReflTransGen (IsChild kids) p q then [] else (kids q).erase p

/-- The lists are the child lists of a forest. -/
structure IsForestal (kids : α → List α) : Prop where
  nodup : ∀ q, (kids q).Nodup
  unique : ∀ {q r x}, x ∈ kids q → x ∈ kids r → q = r
  acyclic : ∀ p, ¬ TransGen (IsChild kids) p p

namespace IsForestal

lemma comparable (h : IsForestal kids) (ha : ReflTransGen (IsChild kids) a x)
    (hb : ReflTransGen (IsChild kids) b x) :
    ReflTransGen (IsChild kids) a b ∨ ReflTransGen (IsChild kids) b a := by
  have hunique : Relator.RightUnique (Function.swap (IsChild kids)) :=
    fun c q r hq hr => h.unique hq hr
  have htotal := ReflTransGen.total_of_right_unique hunique (reflTransGen_swap.mpr ha)
    (reflTransGen_swap.mpr hb)
  exact (htotal.imp reflTransGen_swap.mp reflTransGen_swap.mp).symm

lemma descends_parent (h : IsForestal kids) (hb : b ∈ kids q)
    (hab : TransGen (IsChild kids) a b) : ReflTransGen (IsChild kids) a q := by
  obtain ⟨r, har, hr⟩ := TransGen.tail'_iff.mp hab
  rwa [h.unique hb hr]

lemma not_descends_both (h : IsForestal kids) (ha : a ∈ kids q) (hb : b ∈ kids q) (hab : a ≠ b)
    (hax : ReflTransGen (IsChild kids) a x) : ¬ ReflTransGen (IsChild kids) b x := by
  intro hbx
  have hcycle : ∀ {c d}, c ∈ kids q → d ∈ kids q → c ≠ d → ¬ ReflTransGen (IsChild kids) c d := by
    intro c d hc hd hcd hdesc
    have htrans := (reflTransGen_iff_eq_or_transGen.mp hdesc).resolve_left (Ne.symm hcd)
    exact h.acyclic q (TransGen.head' hc (h.descends_parent hd htrans))
  rcases h.comparable hax hbx with hdesc | hdesc
  · exact hcycle ha hb hab hdesc
  · exact hcycle hb ha hab.symm hdesc

end IsForestal

/-- The forest has the roots `l`, and every node in it has its children below it. -/
def Forest.Spells (kids : α → List α) : List α → Forest α → Prop
  | l, .nil => l = []
  | l, .cons a ks ss => ∃ l', l = a :: l' ∧ Spells kids (kids a) ks ∧ Spells kids l' ss

namespace Forest.Spells

/-- Without cycles the trees below a node can be spelled out. -/
lemma exists_forest [Finite α] (hk : ∀ p, ¬ TransGen (IsChild kids) p p) (l : List α) :
    ∃ f : Forest α, f.Spells kids l := by
  have hwf : WellFounded (Function.swap (TransGen (IsChild kids))) := by
    have : IsTrans α (Function.swap (TransGen (IsChild kids))) :=
      ⟨fun _ _ _ hab hbc => hbc.trans hab⟩
    have : Std.Irrefl (Function.swap (TransGen (IsChild kids))) := ⟨hk⟩
    exact Finite.wellFounded_of_trans_of_irrefl _
  have hlist : ∀ l : List α, (∀ a ∈ l, ∃ f : Forest α, f.Spells kids (kids a)) →
      ∃ f : Forest α, f.Spells kids l := by
    intro l hl
    induction l with
    | nil => exact ⟨.nil, rfl⟩
    | cons a l ih =>
      obtain ⟨ks, hks⟩ := hl a List.mem_cons_self
      obtain ⟨ss, hss⟩ := ih fun b hb => hl b (List.mem_cons_of_mem a hb)
      exact ⟨.cons a ks ss, l, rfl, hks, hss⟩
  have hall : ∀ a, ∃ f : Forest α, f.Spells kids (kids a) := by
    intro a
    induction a using hwf.induction with
    | _ a ih => exact hlist _ fun c hc => ih c (.single hc)
  exact hlist l fun a _ => hall a

lemma unique {f' : Forest α} (h : f.Spells kids l) (h' : f'.Spells kids l) : f = f' := by
  induction f generalizing l f' with
  | nil =>
    obtain rfl := h
    cases f' with
    | nil => rfl
    | cons b ks' ss' =>
      obtain ⟨l', hl, -⟩ := h'
      cases hl
  | cons a ks ss ihk ihs =>
    obtain ⟨l, rfl, hks, hss⟩ := h
    cases f' with
    | nil => cases h'
    | cons b ks' ss' =>
      obtain ⟨l', hl, hks', hss'⟩ := h'
      obtain ⟨rfl, rfl⟩ := List.cons.inj hl
      rw [ihk hks hks', ihs hss hss']

lemma mem_nodes (h : f.Spells kids l) :
    x ∈ f.nodes ↔ ∃ a ∈ l, ReflTransGen (IsChild kids) a x := by
  induction f generalizing l with
  | nil =>
    obtain rfl := h
    simp [Forest.nodes]
  | cons a ks ss ihk ihs =>
    obtain ⟨l, rfl, hks, hss⟩ := h
    have hhead : ReflTransGen (IsChild kids) a x ↔
        x = a ∨ ∃ b ∈ kids a, ReflTransGen (IsChild kids) b x := by
      rw [ReflTransGen.cases_head_iff, eq_comm]
      rfl
    simp only [Forest.nodes, List.mem_cons, List.mem_append, ihk hks, ihs hss, or_and_right,
      exists_or, exists_eq_left, hhead, or_assoc]

lemma mem_nodes_below (h : f.Spells kids (kids p)) :
    x ∈ f.nodes ↔ TransGen (IsChild kids) p x := by
  rw [h.mem_nodes, TransGen.head'_iff]
  rfl

lemma descends_iff (h : f.Spells kids (kids p)) :
    ReflTransGen (IsChild kids) p x ↔ x = p ∨ x ∈ f.nodes := by
  rw [h.mem_nodes_below, reflTransGen_iff_eq_or_transGen]

lemma child_mem_iff (hk : IsForestal kids) (h : f.Spells kids (kids p)) (hc : x ∈ kids q) :
    x ∈ f.nodes ↔ q = p ∨ q ∈ f.nodes := by
  rw [← h.descends_iff, h.mem_nodes_below]
  exact ⟨hk.descends_parent hc, fun hq => TransGen.tail' hq hc⟩

lemma nodup (hk : IsForestal kids) (h : f.Spells kids l) (hl : l.Nodup)
    (hdis : ∀ a ∈ l, ∀ b ∈ l, a ≠ b → ∀ x, ReflTransGen (IsChild kids) a x →
      ¬ ReflTransGen (IsChild kids) b x) : f.nodes.Nodup := by
  induction f generalizing l with
  | nil => exact List.nodup_nil
  | cons a ks ss ihk ihs =>
    obtain ⟨l, rfl, hks, hss⟩ := h
    obtain ⟨hal, hl⟩ := List.nodup_cons.mp hl
    have hoff : ∀ x, ReflTransGen (IsChild kids) a x → x ∉ ss.nodes := by
      intro x hax hx
      obtain ⟨b, hb, hbx⟩ := hss.mem_nodes.mp hx
      have hab : a ≠ b := fun he => hal (he ▸ hb)
      exact hdis a List.mem_cons_self b (List.mem_cons_of_mem a hb) hab x hax hbx
    simp only [Forest.nodes, List.nodup_cons, List.mem_append, not_or, List.nodup_append]
    refine ⟨⟨?_, hoff a .refl⟩, ?_, ?_, ?_⟩
    · rw [hks.mem_nodes_below]
      exact hk.acyclic a
    · exact ihk hks (hk.nodup a) fun c hc d hd hcd x => hk.not_descends_both hc hd hcd
    · exact ihs hss hl fun c hc d hd => hdis c (List.mem_cons_of_mem a hc) d
        (List.mem_cons_of_mem a hd)
    · rintro x hx y hy rfl
      exact hoff x (hks.mem_nodes_below.mp hx).to_reflTransGen hy

lemma postorder_after (h : f.Spells kids l) (hx : x ∈ f.nodes)
    (hxy : TransGen (IsChild kids) x y) : [y, x].Sublist f.postorder := by
  induction f generalizing l with
  | nil => simp [Forest.nodes] at hx
  | cons a ks ss ihk ihs =>
    obtain ⟨l, rfl, hks, hss⟩ := h
    simp only [Forest.nodes, List.mem_cons, List.mem_append] at hx
    rw [Forest.postorder]
    rcases hx with rfl | hx | hx
    · have hy : y ∈ ks.postorder := by
        rw [(Forest.postorder_perm_nodes ks).mem_iff]
        exact hks.mem_nodes_below.mpr hxy
      have hfirst := List.singleton_sublist.mpr hy
      exact hfirst.append ((List.nil_sublist ss.postorder).cons_cons x)
    · exact (ihk hks hx).trans (List.sublist_append_left _ _)
    · exact ((ihs hss hx).cons a).trans (List.sublist_append_right _ _)

lemma isForest {L : TreeLinks α} {parent before : Option α} (h : f.Spells kids l)
    (hchild : ∀ q ∈ f.nodes, L.child q = (kids q).head?)
    (hlinked : ∀ q, IsLinked L.sibNext L.sibPrev none (kids q))
    (hprnt : ∀ q, ∀ c ∈ kids q, L.prnt c = some q)
    (hl : IsLinked L.sibNext L.sibPrev before l) (hlp : ∀ c ∈ l, L.prnt c = parent) :
    IsForest L parent before l.head? f := by
  induction f generalizing l parent before with
  | nil =>
    obtain rfl := h
    rfl
  | cons a ks ss ihk ihs =>
    obtain ⟨l, rfl, hks, hss⟩ := h
    obtain ⟨hprev, hnext, hl⟩ := hl
    simp only [Forest.nodes, List.mem_cons, List.mem_append] at hchild
    refine ⟨rfl, hlp a List.mem_cons_self, hprev, ?_, ?_⟩
    · rw [hchild a (.inl rfl)]
      exact ihk hks (fun q hq => hchild q (.inr (.inl hq))) (hlinked a) (hprnt a)
    · rw [hnext]
      exact ihs hss (fun q hq => hchild q (.inr (.inr hq))) hl
        fun c hc => hlp c (List.mem_cons_of_mem a hc)

end Forest.Spells

/-! ### The child lists of a forest -/

/-- The roots are linked as siblings. -/
lemma IsForest.isLinked {L : TreeLinks α} {parent before first : Option α}
    (h : IsForest L parent before first f) :
    first = f.roots.head? ∧ IsLinked L.sibNext L.sibPrev before f.roots ∧
      ∀ c ∈ f.roots, L.prnt c = parent := by
  induction f generalizing before first with
  | nil => exact ⟨h, trivial, by simp [Forest.roots]⟩
  | cons a ks ss _ ihs =>
    obtain ⟨hfirst, hprnt, hprev, -, hs⟩ := h
    obtain ⟨hnext, hlinked, hroots⟩ := ihs hs
    refine ⟨hfirst, ⟨hprev, hnext, hlinked⟩, ?_⟩
    rintro c (_ | ⟨_, hc⟩)
    · exact hprnt
    · exact hroots c hc

section Kids

variable [DecidableEq α]

/-- The children of each node. -/
def Forest.childLists (f : Forest α) : α → List α := fun q => (f.kids q).roots

lemma Forest.childLists_of_not_mem (h : q ∉ f.nodes) : f.childLists q = [] := by
  unfold childLists
  induction f with
  | nil => rfl
  | cons a ks ss _ ihs =>
    simp only [nodes, List.mem_cons, List.mem_append, not_or] at h
    rw [kids, if_neg (Ne.symm h.1), if_neg h.2.1]
    exact ihs h.2.2

lemma Forest.spells_childLists (hnd : f.nodes.Nodup)
    (hk : ∀ q ∈ f.nodes, kids q = f.childLists q) : f.Spells kids f.roots := by
  induction f with
  | nil => rfl
  | cons a ks ss ihk ihs =>
    simp only [nodes, List.nodup_cons, List.nodup_append, List.mem_append, not_or] at hnd
    obtain ⟨⟨hak, has⟩, hndk, hnds, hdis⟩ := hnd
    refine ⟨ss.roots, rfl, ?_, ihs hnds fun q hq => ?_⟩
    · have hka : kids a = ks.roots := by
        rw [hk a List.mem_cons_self, childLists, Forest.kids, if_pos rfl]
      rw [hka]
      refine ihk hndk fun q hq => ?_
      have hqa : a ≠ q := fun he => hak (he ▸ hq)
      rw [hk q (by simp [nodes, hq]), childLists, Forest.kids, if_neg hqa, if_pos hq]
      rfl
    · have hqa : a ≠ q := fun he => has (he ▸ hq)
      have hqk : q ∉ ks.nodes := fun hqk => hdis q hqk q hq rfl
      rw [hk q (by simp [nodes, hq]), childLists, Forest.kids, if_neg hqa, if_neg hqk]
      rfl

lemma Forest.Spells.below (h : f.Spells kids l) (hp : p ∈ f.nodes) :
    (f.kids p).Spells kids (kids p) := by
  induction f generalizing l with
  | nil => simp [Forest.nodes] at hp
  | cons a ks ss ihk ihs =>
    obtain ⟨l, rfl, hks, hss⟩ := h
    rw [Forest.kids]
    split
    · rename_i hap
      rwa [← hap]
    · rename_i hap
      simp only [Forest.nodes, List.mem_cons, List.mem_append, Ne.symm hap, false_or] at hp
      split
      · rename_i hpk
        exact ihk hks hpk
      · rename_i hpk
        exact ihs hss (hp.resolve_left hpk)

lemma Forest.mem_kids_iff (hnd : f.nodes.Nodup) (hp : p ∈ f.nodes) :
    x ∈ (f.kids p).nodes ↔ TransGen (IsChild f.childLists) p x :=
  ((spells_childLists hnd fun _ _ => rfl).below hp).mem_nodes_below

lemma Forest.childLists_acyclic (hnd : f.nodes.Nodup) (p : α) :
    ¬ TransGen (IsChild f.childLists) p p := by
  intro h
  by_cases hp : p ∈ f.nodes
  · exact not_mem_kids hnd hp ((mem_kids_iff hnd hp).mpr h)
  · obtain ⟨c, hc, -⟩ := TransGen.head'_iff.mp h
    rw [IsChild, childLists_of_not_mem hp] at hc
    simp at hc

end Kids

end Linked
