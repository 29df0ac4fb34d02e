import Mathlib.Data.List.Nodup
import Mathlib.Data.List.Perm.Basic
import Mathlib.Logic.Function.Basic
import Mathlib.Tactic

/-!
# Forests in first-child, next-sibling form

An ordered forest whose nodes carry a link to the parent, to the first child and to the
siblings on both sides. `IsForest` says that the links of the nodes spell out a given
forest; the lemmas say what becomes of it when a node is put in front of the children of
another, when a node is unlinked with everything below it, and when everything below a
node is gone.
-/

namespace Linked

open Function

/-- The forest whose first tree has the root `a` and the children `kids`, followed by the
trees of `sibs`. -/
inductive Forest (α : Type*)
  | nil
  | cons (a : α) (kids sibs : Forest α)

namespace Forest

variable {α : Type*}

def nodes : Forest α → List α
  | nil => []
  | cons a kids sibs => a :: (nodes kids ++ nodes sibs)

/-- Every node after the nodes below it. -/
def postorder : Forest α → List α
  | nil => []
  | cons a kids sibs => postorder kids ++ a :: postorder sibs

/-- The number of nodes on the longest way down. -/
def height : Forest α → Nat
  | nil => 0
  | cons _ kids sibs => max (height kids + 1) (height sibs)

/-- The roots of the trees. -/
def roots : Forest α → List α
  | nil => []
  | cons a _ sibs => a :: roots sibs

lemma postorder_perm_nodes (f : Forest α) : f.postorder.Perm f.nodes := by
  induction f with
  | nil => exact List.Perm.refl _
  | cons a kids sibs ihk ihs =>
    exact List.perm_middle.trans (List.Perm.cons a (ihk.append ihs))

lemma roots_sublist_nodes (f : Forest α) : f.roots.Sublist f.nodes := by
  induction f with
  | nil => exact List.Sublist.refl _
  | cons a kids sibs _ ihs =>
    exact List.Sublist.cons_cons a (ihs.trans (List.sublist_append_right _ _))

lemma height_le_length (f : Forest α) : f.height ≤ f.nodes.length := by
  induction f with
  | nil => simp [height, nodes]
  | cons a kids sibs ihk ihs =>
    simp only [height, nodes, List.length_cons, List.length_append]
    omega

variable [DecidableEq α]

/-- The trees below `p`. -/
def kids (p : α) : Forest α → Forest α
  | nil => nil
  | cons a ks ss => if a = p then ks else if p ∈ ks.nodes then kids p ks else kids p ss

/-- The forest without what is below `p`. -/
def prune (p : α) : Forest α → Forest α
  | nil => nil
  | cons a ks ss => if a = p then cons a nil ss else cons a (prune p ks) (prune p ss)

/-- The forest without `p` and what is below it. -/
def erase (p : α) : Forest α → Forest α
  | nil => nil
  | cons a ks ss => if a = p then ss else cons a (erase p ks) (erase p ss)

/-- The forest with `c` as the new first child of `q`. -/
def insertChild (q c : α) : Forest α → Forest α
  | nil => nil
  | cons a ks ss =>
    if a = q then cons a (cons c nil ks) ss
    else cons a (insertChild q c ks) (insertChild q c ss)

lemma erase_of_not_mem {p : α} {f : Forest α} (h : p ∉ f.nodes) : f.erase p = f := by
  induction f with
  | nil => rfl
  | cons a ks ss ihk ihs =>
    simp only [nodes, List.mem_cons, List.mem_append, not_or] at h
    rw [erase, if_neg (Ne.symm h.1), ihk h.2.1, ihs h.2.2]

lemma insertChild_of_not_mem {q c : α} {f : Forest α} (h : q ∉ f.nodes) :
    f.insertChild q c = f := by
  induction f with
  | nil => rfl
  | cons a ks ss ihk ihs =>
    simp only [nodes, List.mem_cons, List.mem_append, not_or] at h
    rw [insertChild, if_neg (Ne.symm h.1), ihk h.2.1, ihs h.2.2]

lemma nodes_insertChild {q c : α} {f : Forest α} (hnd : f.nodes.Nodup) (h : q ∈ f.nodes) :
    (f.insertChild q c).nodes.Perm (c :: f.nodes) := by
  induction f with
  | nil => simp [nodes] at h
  | cons a ks ss ihk ihs =>
    simp only [nodes, List.nodup_cons, List.nodup_append, List.mem_append, not_or] at hnd
    by_cases ha : a = q
    · subst ha
      simpa [insertChild, nodes] using List.Perm.swap c a _
    · have hmem : q ∈ ks.nodes ∨ q ∈ ss.nodes := by
        simpa [nodes, Ne.symm ha] using h
      rcases hmem with hk | hs
      · have hs : q ∉ ss.nodes := fun hs => hnd.2.2.2 q hk q hs rfl
        rw [insertChild, if_neg ha, insertChild_of_not_mem hs]
        exact (((ihk hnd.2.1 hk).append_right _).cons a).trans (List.Perm.swap c a _)
      · have hk : q ∉ ks.nodes := fun hk => hnd.2.2.2 q hk q hs rfl
        rw [insertChild, if_neg ha, insertChild_of_not_mem hk]
        exact (((ihs hnd.2.2.1 hs).append_left _).trans List.perm_middle).cons a
          |>.trans (List.Perm.swap c a _)

lemma kids_nodes_subset (p : α) (f : Forest α) : ∀ x ∈ (f.kids p).nodes, x ∈ f.nodes := by
  induction f with
  | nil => simp [kids, nodes]
  | cons a ks ss ihk ihs =>
    intro x hx
    rw [kids] at hx
    split at hx
    · simp [nodes, hx]
    · split at hx
      · simp [nodes, ihk x hx]
      · simp [nodes, ihs x hx]

lemma kids_nodup {f : Forest α} (p : α) (h : f.nodes.Nodup) : (f.kids p).nodes.Nodup := by
  induction f with
  | nil => exact h
  | cons a ks ss ihk ihs =>
    simp only [nodes, List.nodup_cons, List.nodup_append] at h
    rw [kids]
    split
    · exact h.2.1
    · split
      · exact ihk h.2.1
      · exact ihs h.2.2.1

lemma nodes_erase {p : α} {f : Forest α} (hnd : f.nodes.Nodup) (h : p ∈ f.nodes) :
    f.nodes.Perm (p :: (f.kids p).nodes ++ (f.erase p).nodes) := by
  induction f with
  | nil => simp [nodes] at h
  | cons a ks ss ihk ihs =>
    simp only [nodes, List.nodup_cons, List.nodup_append, List.mem_append, not_or] at hnd
    by_cases ha : a = p
    · subst ha
      simp [kids, erase, nodes]
    · have hmem : p ∈ ks.nodes ∨ p ∈ ss.nodes := by
        simpa [nodes, Ne.symm ha] using h
      rcases hmem with hk | hs
      · have hs : p ∉ ss.nodes := fun hs => hnd.2.2.2 p hk p hs rfl
        have hp := ((ihk hnd.2.1 hk).append_right ss.nodes).cons a
        rw [kids, if_neg ha, if_pos hk, erase, if_neg ha, erase_of_not_mem hs]
        refine hp.trans ?_
        simp only [nodes, List.append_assoc, List.cons_append]
        exact (List.Perm.swap p a _).trans (List.perm_middle.symm.cons p)
      · have hk : p ∉ ks.nodes := fun hk => hnd.2.2.2 p hk p hs rfl
        have hp := ((ihs hnd.2.2.1 hs).append_left ks.nodes).cons a
        rw [kids, if_neg ha, if_neg hk, erase, if_neg ha, erase_of_not_mem hk]
        refine hp.trans ?_
        simp only [nodes, List.cons_append]
        refine (List.perm_middle.cons a).trans ((List.Perm.swap p a _).trans (List.Perm.cons p ?_))
        refine (List.Perm.cons a ?_).trans List.perm_middle.symm
        rw [← List.append_assoc, ← List.append_assoc]
        exact List.perm_append_comm.append_right _

lemma not_mem_kids {p : α} {f : Forest α} (hnd : f.nodes.Nodup) (h : p ∈ f.nodes) :
    p ∉ (f.kids p).nodes := by
  have hnd' := (nodes_erase hnd h).nodup_iff.mp hnd
  simp only [List.cons_append, List.nodup_cons, List.mem_append, not_or] at hnd'
  exact hnd'.1.1

lemma erase_prune (p : α) (f : Forest α) : (f.prune p).erase p = f.erase p := by
  induction f with
  | nil => rfl
  | cons a ks ss ihk ihs =>
    by_cases ha : a = p
    · simp [prune, erase, ha]
    · simp [prune, erase, ha, ihk, ihs]

lemma prune_nodes_sublist (p : α) (f : Forest α) : (f.prune p).nodes.Sublist f.nodes := by
  induction f with
  | nil => exact List.Sublist.refl _
  | cons a ks ss ihk ihs =>
    rw [prune]
    split
    · exact (List.sublist_append_right _ _).cons_cons a
    · exact (ihk.append ihs).cons_cons a

lemma mem_prune {p : α} {f : Forest α} (h : p ∈ f.nodes) : p ∈ (f.prune p).nodes := by
  induction f with
  | nil => exact h
  | cons a ks ss ihk ihs =>
    by_cases ha : a = p
    · simp [prune, nodes, ha]
    · simp only [nodes, List.mem_cons, List.mem_append, Ne.symm ha, false_or] at h
      simp only [prune, ha, if_false, nodes, List.mem_cons, List.mem_append]
      exact .inr (h.imp ihk ihs)

lemma roots_prune (p : α) (f : Forest α) : (f.prune p).roots = f.roots := by
  induction f with
  | nil => rfl
  | cons a ks ss _ ihs =>
    by_cases ha : a = p
    · simp [prune, roots, ha]
    · simp [prune, roots, ha, ihs]

lemma roots_insertChild (q c : α) (f : Forest α) : (f.insertChild q c).roots = f.roots := by
  induction f with
  | nil => rfl
  | cons a ks ss _ ihs =>
    by_cases ha : a = q
    · simp [insertChild, roots, ha]
    · simp [insertChild, roots, ha, ihs]

lemma roots_erase_sublist (p : α) (f : Forest α) : (f.erase p).roots.Sublist f.roots := by
  induction f with
  | nil => exact List.Sublist.refl _
  | cons a ks ss _ ihs =>
    rw [erase]
    split
    · exact List.sublist_cons_self a _
    · exact ihs.cons_cons a

end Forest

/-! ### Links -/

/-- The four links of every node. -/
structure TreeLinks (α : Type*) where
  prnt : α → Option α
  child : α → Option α
  sibPrev : α → Option α
  sibNext : α → Option α

section Links

variable {α : Type*} {L L' : TreeLinks α}

/-- The links spell out the forest whose first root is `first`, whose roots have the parent
`parent` and whose first root has the sibling `prev` in front of it. -/
def IsForest (L : TreeLinks α) : Option α → Option α → Option α → Forest α → Prop
  | _, _, first, .nil => first = none
  | parent, prev, first, .cons a kids sibs =>
    first = some a ∧ L.prnt a = parent ∧ L.sibPrev a = prev ∧
      IsForest L (some a) none (L.child a) kids ∧
      IsForest L parent (some a) (L.sibNext a) sibs

/-- The links of `x` are the same on both sides. -/
def TreeLinks.AgreeAt (L L' : TreeLinks α) (x : α) : Prop :=
  L'.prnt x = L.prnt x ∧ L'.child x = L.child x ∧ L'.sibPrev x = L.sibPrev x ∧
    L'.sibNext x = L.sibNext x

lemma TreeLinks.AgreeAt.trans {L'' : TreeLinks α} {x : α} (h : L.AgreeAt L' x)
    (h' : L'.AgreeAt L'' x) : L.AgreeAt L'' x :=
  ⟨h'.1.trans h.1, h'.2.1.trans h.2.1, h'.2.2.1.trans h.2.2.1, h'.2.2.2.trans h.2.2.2⟩

variable {parent prev first : Option α} {f : Forest α}

lemma IsForest.congr (h : IsForest L parent prev first f)
    (hl : ∀ x ∈ f.nodes, L.AgreeAt L' x) : IsForest L' parent prev first f := by
  induction f generalizing parent prev first with
  | nil => exact h
  | cons a ks ss ihk ihs =>
    obtain ⟨hf, hp, hv, hk, hs⟩ := h
    obtain ⟨ap, ac, av, an⟩ := hl a (by simp [Forest.nodes])
    refine ⟨hf, ap.trans hp, av.trans hv, ?_, ?_⟩
    · rw [ac]
      exact ihk hk fun x hx => hl x (by simp [Forest.nodes, hx])
    · rw [an]
      exact ihs hs fun x hx => hl x (by simp [Forest.nodes, hx])

lemma IsForest.eq_cons {a : α} (h : IsForest L parent prev (some a) f) :
    ∃ ks ss, f = .cons a ks ss := by
  cases f with
  | nil => exact absurd h (by simp [IsForest])
  | cons b ks ss =>
    obtain rfl := Option.some.inj h.1
    exact ⟨ks, ss, rfl⟩

lemma IsForest.first_mem {a : α} (h : IsForest L parent prev (some a) f) : a ∈ f.nodes := by
  obtain ⟨ks, ss, rfl⟩ := h.eq_cons
  simp [Forest.nodes]

lemma IsForest.reprev {prev' : Option α} (h : IsForest L parent prev first f)
    (hnd : f.nodes.Nodup)
    (hl : ∀ x ∈ f.nodes, L'.prnt x = L.prnt x ∧ L'.child x = L.child x ∧
      L'.sibNext x = L.sibNext x)
    (hv : ∀ x ∈ f.nodes, first ≠ some x → L'.sibPrev x = L.sibPrev x)
    (hf : ∀ x, first = some x → L'.sibPrev x = prev') : IsForest L' parent prev' first f := by
  cases f with
  | nil => exact h
  | cons a ks ss =>
    obtain ⟨rfl, hp, -, hk, hs⟩ := h
    simp only [Forest.nodes, List.nodup_cons, List.mem_append, not_or] at hnd
    have hne : ∀ x, x ∈ ks.nodes ∨ x ∈ ss.nodes → some a ≠ some x := by
      rintro x hx he
      obtain rfl := Option.some.inj he
      exact hx.elim hnd.1.1 hnd.1.2
    have hag : ∀ x, x ∈ ks.nodes ∨ x ∈ ss.nodes → L.AgreeAt L' x := by
      intro x hx
      have hm : x ∈ (Forest.cons a ks ss).nodes := by simpa [Forest.nodes] using Or.inr hx
      exact ⟨(hl x hm).1, (hl x hm).2.1, hv x hm (hne x hx), (hl x hm).2.2⟩
    obtain ⟨ap, ac, an⟩ := hl a (by simp [Forest.nodes])
    refine ⟨rfl, ap.trans hp, hf a rfl, ?_, ?_⟩
    · rw [ac]
      exact hk.congr fun x hx => hag x (.inl hx)
    · rw [an]
      exact hs.congr fun x hx => hag x (.inr hx)

/-- What a walk down from `p` along child and sibling links comes to. -/
inductive TreeLinks.Below (L : TreeLinks α) (p : α) : α → Prop
  | child {c : α} : L.child p = some c → Below L p c
  | sib {x y : α} : Below L p x → L.sibNext x = some y → Below L p y
  | down {x c : α} : Below L p x → L.child x = some c → Below L p c

lemma IsForest.below {p q : α} (h : IsForest L parent prev first f)
    (hp : ∀ x, first = some x → L.Below p x) (hq : q ∈ f.nodes) : L.Below p q := by
  induction f generalizing parent prev first with
  | nil => simp [Forest.nodes] at hq
  | cons a ks ss ihk ihs =>
    obtain ⟨hf, -, -, hk, hs⟩ := h
    have ha := hp a hf
    simp only [Forest.nodes, List.mem_cons, List.mem_append] at hq
    rcases hq with rfl | hq | hq
    · exact ha
    · exact ihk hk (fun x hx => .down ha hx) hq
    · exact ihs hs (fun x hx => .sib ha hx) hq

lemma IsForest.sibNext_mem (h : IsForest L parent prev first f) {p z : α} (hp : p ∈ f.nodes)
    (hz : L.sibNext p = some z) : z ∈ f.nodes := by
  induction f generalizing parent prev first with
  | nil => simp [Forest.nodes] at hp
  | cons a ks ss ihk ihs =>
    obtain ⟨-, -, -, hk, hs⟩ := h
    simp only [Forest.nodes, List.mem_cons, List.mem_append] at hp ⊢
    rcases hp with rfl | hp | hp
    · rw [hz] at hs
      exact .inr (.inr hs.first_mem)
    · exact .inr (.inl (ihk hk hp))
    · exact .inr (.inr (ihs hs hp))

lemma IsForest.child_mem {p c : α} (h : IsForest L parent prev first f) (hp : p ∈ f.nodes)
    (hc : L.child p = some c) : c ∈ f.nodes := by
  induction f generalizing parent prev first with
  | nil => simp [Forest.nodes] at hp
  | cons a ks ss ihk ihs =>
    obtain ⟨-, -, -, hk, hs⟩ := h
    simp only [Forest.nodes, List.mem_cons, List.mem_append] at hp ⊢
    rcases hp with rfl | hp | hp
    · rw [hc] at hk
      exact .inr (.inl hk.first_mem)
    · exact .inr (.inl (ihk hk hp))
    · exact .inr (.inr (ihs hs hp))

lemma IsForest.mem_of_below {p q : α} (h : IsForest L parent prev (L.child p) f)
    (hq : L.Below p q) : q ∈ f.nodes := by
  induction hq with
  | child hc =>
    rw [hc] at h
    exact h.first_mem
  | sib _ hn ih => exact h.sibNext_mem ih hn
  | down _ hc ih => exact h.child_mem ih hc

lemma IsForest.sibPrev_mem (h : IsForest L parent prev first f) {p y : α} (hp : p ∈ f.nodes)
    (hy : L.sibPrev p = some y) : y ∈ f.nodes ∨ prev = some y ∧ first = some p := by
  induction f generalizing parent prev first with
  | nil => simp [Forest.nodes] at hp
  | cons a ks ss ihk ihs =>
    obtain ⟨hf, -, hv, hk, hs⟩ := h
    simp only [Forest.nodes, List.mem_cons, List.mem_append] at hp ⊢
    rcases hp with rfl | hp | hp
    · exact .inr ⟨hv.symm.trans hy, hf⟩
    · rcases ihk hk hp with hm | ⟨hn, -⟩
      · exact .inl (.inr (.inl hm))
      · simp at hn
    · rcases ihs hs hp with hm | ⟨hn, -⟩
      · exact .inl (.inr (.inr hm))
      · exact .inl (.inl (Option.some.inj hn).symm)

lemma IsForest.prnt_mem (h : IsForest L parent prev first f) {p q : α} (hp : p ∈ f.nodes)
    (hq : L.prnt p = some q) : q ∈ f.nodes ∨ parent = some q := by
  induction f generalizing parent prev first with
  | nil => simp [Forest.nodes] at hp
  | cons a ks ss ihk ihs =>
    obtain ⟨-, hpar, -, hk, hs⟩ := h
    simp only [Forest.nodes, List.mem_cons, List.mem_append] at hp ⊢
    rcases hp with rfl | hp | hp
    · exact .inr (hpar.symm.trans hq)
    · rcases ihk hk hp with hm | hn
      · exact .inl (.inr (.inl hm))
      · exact .inl (.inl (Option.some.inj hn).symm)
    · rcases ihs hs hp with hm | hn
      · exact .inl (.inr (.inr hm))
      · exact .inr hn

lemma IsForest.exists_prnt {q p : α} (h : IsForest L (some q) prev first f) (hp : p ∈ f.nodes) :
    ∃ b, L.prnt p = some b := by
  induction f generalizing q prev first with
  | nil => simp [Forest.nodes] at hp
  | cons a ks ss ihk ihs =>
    obtain ⟨-, hpa, -, hk, hs⟩ := h
    simp only [Forest.nodes, List.mem_cons, List.mem_append] at hp
    rcases hp with rfl | hp | hp
    · exact ⟨q, hpa⟩
    · exact ihk hk hp
    · exact ihs hs hp

lemma IsForest.prnt_first {a : α} (h : IsForest L parent prev (some a) f) :
    L.prnt a = parent := by
  obtain ⟨ks, ss, rfl⟩ := h.eq_cons
  exact h.2.1

lemma IsForest.sibPrev_first {a : α} (h : IsForest L parent prev (some a) f) :
    L.sibPrev a = prev := by
  obtain ⟨ks, ss, rfl⟩ := h.eq_cons
  exact h.2.2.1

lemma IsForest.exists_sibPrev (h : IsForest L parent prev first f) {p : α} (hp : p ∈ f.roots)
    (hf : first ≠ some p) : ∃ y, L.sibPrev p = some y := by
  induction f generalizing prev first with
  | nil => simp [Forest.roots] at hp
  | cons a ks ss _ ih =>
    obtain ⟨rfl, -, -, -, hs⟩ := h
    have hps : p ∈ ss.roots := by
      simp only [Forest.roots, List.mem_cons] at hp
      exact hp.resolve_left fun he => hf (by rw [he])
    by_cases hn : L.sibNext a = some p
    · rw [hn] at hs
      exact ⟨a, hs.sibPrev_first⟩
    · exact ih hs hps hn

lemma IsForest.mem_roots (h : IsForest L parent prev first f) {p : α} (hp : p ∈ f.nodes)
    (hn : L.prnt p = none) : p ∈ f.roots := by
  induction f generalizing parent prev first with
  | nil => simp [Forest.nodes] at hp
  | cons a ks ss ihk ihs =>
    obtain ⟨-, -, -, hk, hs⟩ := h
    simp only [Forest.nodes, List.mem_cons, List.mem_append] at hp
    simp only [Forest.roots, List.mem_cons]
    rcases hp with rfl | hp | hp
    · exact .inl rfl
    · obtain ⟨b, hb⟩ := hk.exists_prnt hp
      simp [hn] at hb
    · exact .inr (ihs hs hp)

variable [DecidableEq α]

lemma IsForest.kids (h : IsForest L parent prev first f) {p : α} (hp : p ∈ f.nodes) :
    IsForest L (some p) none (L.child p) (f.kids p) := by
  induction f generalizing parent prev first with
  | nil => simp [Forest.nodes] at hp
  | cons a ks ss ihk ihs =>
    obtain ⟨-, -, -, hk, hs⟩ := h
    simp only [Forest.nodes, List.mem_cons, List.mem_append] at hp
    rw [Forest.kids]
    by_cases ha : a = p
    · subst ha
      simpa using hk
    · rw [if_neg ha]
      by_cases hpk : p ∈ ks.nodes
      · rw [if_pos hpk]
        exact ihk hk hpk
      · rw [if_neg hpk]
        exact ihs hs ((hp.resolve_left (Ne.symm ha)).resolve_left hpk)

lemma IsForest.mem_kids_of_prnt (h : IsForest L parent prev first f) (hnd : f.nodes.Nodup)
    {p q : α} (hp : p ∈ f.nodes) (hq : L.prnt p = some q) :
    q ∈ f.nodes ∧ p ∈ (f.kids q).roots ∨ parent = some q ∧ p ∈ f.roots := by
  induction f generalizing parent prev first with
  | nil => simp [Forest.nodes] at hp
  | cons a ks ss ihk ihs =>
    obtain ⟨-, hpa, -, hk, hs⟩ := h
    simp only [Forest.nodes, List.nodup_cons, List.nodup_append, List.mem_append, not_or] at hnd
    obtain ⟨⟨hak, has⟩, hndk, hnds, hdis⟩ := hnd
    simp only [Forest.nodes, List.mem_cons, List.mem_append, Forest.roots] at hp ⊢
    rw [Forest.kids]
    rcases hp with rfl | hp | hp
    · exact .inr ⟨hpa.symm.trans hq, .inl rfl⟩
    · left
      rcases ihk hk hndk hp with ⟨hqk, hm⟩ | ⟨hqa, hm⟩
      · have hne : a ≠ q := fun he => hak (he ▸ hqk)
        rw [if_neg hne, if_pos hqk]
        exact ⟨.inr (.inl hqk), hm⟩
      · obtain rfl := Option.some.inj hqa
        rw [if_pos rfl]
        exact ⟨.inl rfl, hm⟩
    · rcases ihs hs hnds hp with ⟨hqs, hm⟩ | ⟨hqa, hm⟩
      · have hne : a ≠ q := fun he => has (he ▸ hqs)
        have hqk : q ∉ ks.nodes := fun hqk => hdis q hqk q hqs rfl
        rw [if_neg hne, if_neg hqk]
        exact .inl ⟨.inr (.inr hqs), hm⟩
      · exact .inr ⟨hqa, .inr hm⟩

/-- Once nothing below `p` is left, the links spell out the pruned forest. -/
lemma IsForest.prune (h : IsForest L parent prev first f) (hnd : f.nodes.Nodup) {p : α}
    (hc : L'.child p = none)
    (hl : ∀ x ∈ f.nodes, x ∉ (f.kids p).nodes → L'.prnt x = L.prnt x ∧
      (x ≠ p → L'.child x = L.child x) ∧ L'.sibPrev x = L.sibPrev x ∧
      L'.sibNext x = L.sibNext x) : IsForest L' parent prev first (f.prune p) := by
  induction f generalizing parent prev first with
  | nil => exact h
  | cons a ks ss ihk ihs =>
    obtain ⟨hf, hp, hv, hk, hs⟩ := h
    simp only [Forest.nodes, List.nodup_cons, List.nodup_append, List.mem_append, not_or] at hnd
    obtain ⟨⟨hak, has⟩, hndk, hnds, hdis⟩ := hnd
    rw [Forest.prune]
    by_cases ha : a = p
    · subst ha
      have hkid : (Forest.cons a ks ss).kids a = ks := by simp [Forest.kids]
      rw [hkid] at hl
      obtain ⟨ap, -, av, an⟩ := hl a (by simp [Forest.nodes]) hak
      rw [if_pos rfl]
      refine ⟨hf, ap.trans hp, av.trans hv, hc, ?_⟩
      rw [an]
      refine hs.congr fun x hx => ?_
      have hxa : x ≠ a := fun he => has (he ▸ hx)
      obtain ⟨xp, xc, xv, xn⟩ := hl x (by simp [Forest.nodes, hx])
        fun hxk => hdis x hxk x hx rfl
      exact ⟨xp, xc hxa, xv, xn⟩
    · rw [if_neg ha]
      have hkid : ∀ x ∈ ((Forest.cons a ks ss).kids p).nodes,
          x ∈ (ks.kids p).nodes ∨ x ∈ (ss.kids p).nodes := by
        intro x hx
        rw [Forest.kids, if_neg ha] at hx
        split at hx
        · exact .inl hx
        · exact .inr hx
      obtain ⟨ap, ac, av, an⟩ := hl a (by simp [Forest.nodes]) fun hm =>
        (hkid a hm).elim (fun hm => hak (Forest.kids_nodes_subset p ks a hm))
          fun hm => has (Forest.kids_nodes_subset p ss a hm)
      refine ⟨hf, ap.trans hp, av.trans hv, ?_, ?_⟩
      · rw [ac ha]
        refine ihk hk hndk fun x hx hxk => hl x (by simp [Forest.nodes, hx]) fun hm => ?_
        rcases hkid x hm with hm | hm
        · exact hxk hm
        · exact hdis x hx x (Forest.kids_nodes_subset p ss x hm) rfl
      · rw [an]
        refine ihs hs hnds fun x hx hxk => hl x (by simp [Forest.nodes, hx]) fun hm => ?_
        rcases hkid x hm with hm | hm
        · exact hdis x (Forest.kids_nodes_subset p ks x hm) x hx rfl
        · exact hxk hm

/-- The links after `p` has been taken out from between its siblings and, if it was the
first child, from its parent. -/
def TreeLinks.unlink (L : TreeLinks α) (p : α) : TreeLinks α where
  prnt := L.prnt
  child := match L.prnt p with
    | none => L.child
    | some q => if L.child q = some p then update L.child q (L.sibNext p) else L.child
  sibPrev := match L.sibNext p with
    | none => L.sibPrev
    | some z => update L.sibPrev z (L.sibPrev p)
  sibNext := match L.sibPrev p with
    | none => L.sibNext
    | some y => update L.sibNext y (L.sibNext p)

lemma TreeLinks.unlink_child_of_ne {p x : α} (h : L.prnt p ≠ some x) :
    (L.unlink p).child x = L.child x := by
  unfold TreeLinks.unlink
  cases hq : L.prnt p with
  | none => rfl
  | some q =>
    have hxq : x ≠ q := fun he => h (by rw [hq, he])
    by_cases hc : L.child q = some p <;> simp [hc, hxq]

lemma TreeLinks.unlink_sibPrev_of_ne {p x : α} (h : L.sibNext p ≠ some x) :
    (L.unlink p).sibPrev x = L.sibPrev x := by
  unfold TreeLinks.unlink
  cases hz : L.sibNext p with
  | none => rfl
  | some z =>
    have hxz : x ≠ z := fun he => h (by rw [hz, he])
    simp [hxz]

lemma TreeLinks.unlink_sibNext_of_ne {p x : α} (h : L.sibPrev p ≠ some x) :
    (L.unlink p).sibNext x = L.sibNext x := by
  unfold TreeLinks.unlink
  cases hy : L.sibPrev p with
  | none => rfl
  | some y =>
    have hxy : x ≠ y := fun he => h (by rw [hy, he])
    simp [hxy]

lemma TreeLinks.unlink_agreeAt {p x : α} (hp : L.prnt p ≠ some x) (hn : L.sibNext p ≠ some x)
    (hv : L.sibPrev p ≠ some x) : L.AgreeAt (L.unlink p) x :=
  ⟨rfl, unlink_child_of_ne hp, unlink_sibPrev_of_ne hn, unlink_sibNext_of_ne hv⟩

/-- Unlinking `p` erases it and what is below it from the forest. -/
lemma IsForest.unlink (h : IsForest L parent prev first f) (hnd : f.nodes.Nodup) {p : α}
    (hp : p ∈ f.nodes) (hpar : ∀ q, parent = some q → q ∉ f.nodes)
    (hprev : ∀ y, prev = some y → y ∉ f.nodes) :
    IsForest (L.unlink p) parent prev (if first = some p then L.sibNext p else first)
      (f.erase p) := by
  induction f generalizing parent prev first with
  | nil => simp [Forest.nodes] at hp
  | cons a ks ss ihk ihs =>
    have hall := h
    obtain ⟨rfl, hpa, hva, hk, hs⟩ := h
    simp only [Forest.nodes, List.nodup_cons, List.nodup_append, List.mem_append, not_or] at hnd
    obtain ⟨⟨hak, has⟩, hndk, hnds, hdis⟩ := hnd
    simp only [Forest.nodes, List.mem_cons, List.mem_append, not_or] at hp hpar hprev
    rw [Forest.erase]
    rcases hp with rfl | hp | hp
    · -- `p` is the first root: its next sibling takes its place
      rw [if_pos rfl, if_pos rfl]
      refine hs.reprev hnds (fun x hx => ⟨rfl, ?_, ?_⟩) (fun x _ hx => ?_) fun x hx => ?_
      · refine TreeLinks.unlink_child_of_ne fun he => ?_
        exact (hpar x (hpa.symm.trans he)).2.2 hx
      · refine TreeLinks.unlink_sibNext_of_ne fun he => ?_
        exact (hprev x (hva.symm.trans he)).2.2 hx
      · exact TreeLinks.unlink_sibPrev_of_ne hx
      · simp [TreeLinks.unlink, hx, hva]
    · -- `p` is below `a`
      have hap : a ≠ p := fun he => hak (he ▸ hp)
      have hps : p ∉ ss.nodes := fun hps => hdis p hp p hps rfl
      have hn : ∀ x, x = a ∨ x ∈ ss.nodes → L.sibNext p ≠ some x := by
        intro x hx he
        have hm := hk.sibNext_mem hp he
        exact hx.elim (fun hx => hak (hx ▸ hm)) fun hx => hdis x hm x hx rfl
      have hv : ∀ x, x = a ∨ x ∈ ss.nodes → L.sibPrev p ≠ some x := by
        intro x hx he
        rcases hk.sibPrev_mem hp he with hm | ⟨hm, -⟩
        · exact hx.elim (fun hx => hak (hx ▸ hm)) fun hx => hdis x hm x hx rfl
        · simp at hm
      have hi := ihk hk hndk hp (fun q hq => Option.some.inj hq ▸ hak) (by simp)
      have hfirst : (if some a = some p then L.sibNext p else some a) = some a := by simp [hap]
      rw [if_neg hap, hfirst, Forest.erase_of_not_mem hps]
      refine ⟨rfl, hpa, ?_, ?_, ?_⟩
      · exact (TreeLinks.unlink_sibPrev_of_ne (hn a (.inl rfl))).trans hva
      · have hca : (L.unlink p).child a =
            if L.child a = some p then L.sibNext p else L.child a := by
          by_cases hc : L.child a = some p
          · have hpp : L.prnt p = some a := by
              rw [hc] at hk
              exact hk.prnt_first
            simp [TreeLinks.unlink, hpp, hc]
          · rw [if_neg hc]
            unfold TreeLinks.unlink
            cases hq : L.prnt p with
            | none => rfl
            | some q =>
              by_cases hqa : a = q
              · subst hqa
                simp [hc]
              · by_cases hcq : L.child q = some p <;> simp [hcq, hqa]
        rw [hca]
        exact hi
      · rw [TreeLinks.unlink_sibNext_of_ne (hv a (.inl rfl))]
        refine hs.congr fun x hx => TreeLinks.unlink_agreeAt ?_ (hn x (.inr hx)) (hv x (.inr hx))
        intro he
        rcases hk.prnt_mem hp he with hm | hm
        · exact hdis x hm x hx rfl
        · exact has (Option.some.inj hm ▸ hx)
    · -- `p` is in a later tree
      have hap : a ≠ p := fun he => has (he ▸ hp)
      have hpk : p ∉ ks.nodes := fun hpk => hdis p hpk p hp rfl
      have hn : ∀ x, x = a ∨ x ∈ ks.nodes → L.sibNext p ≠ some x := by
        intro x hx he
        have hm := hs.sibNext_mem hp he
        exact hx.elim (fun hx => has (hx ▸ hm)) fun hx => hdis x hx x hm rfl
      have hi := ihs hs hnds hp (fun q hq => (hpar q hq).2.2)
        fun y hy => Option.some.inj hy ▸ has
      have hfirst : (if some a = some p then L.sibNext p else some a) = some a := by simp [hap]
      rw [if_neg hap, hfirst, Forest.erase_of_not_mem hpk]
      refine ⟨rfl, hpa, ?_, ?_, ?_⟩
      · exact (TreeLinks.unlink_sibPrev_of_ne (hn a (.inl rfl))).trans hva
      · have hca : (L.unlink p).child a = L.child a := by
          refine TreeLinks.unlink_child_of_ne fun he => ?_
          rcases hs.prnt_mem hp he with hm | hm
          · exact has hm
          · exact (hpar a hm).1 rfl
        rw [hca]
        refine hk.congr fun x hx => TreeLinks.unlink_agreeAt ?_ (hn x (.inr hx)) ?_
        · intro he
          rcases hs.prnt_mem hp he with hm | hm
          · exact hdis x hx x hm rfl
          · exact (hpar x hm).2.1 hx
        · intro he
          rcases hs.sibPrev_mem hp he with hm | ⟨hm, -⟩
          · exact hdis x hx x hm rfl
          · exact hak (Option.some.inj hm ▸ hx)
      · have hna : (L.unlink p).sibNext a =
            if L.sibNext a = some p then L.sibNext p else L.sibNext a := by
          by_cases hc : L.sibNext a = some p
          · have hvp : L.sibPrev p = some a := by
              rw [hc] at hs
              exact hs.sibPrev_first
            simp [TreeLinks.unlink, hvp, hc]
          · rw [if_neg hc]
            refine TreeLinks.unlink_sibNext_of_ne fun he => ?_
            rcases hs.sibPrev_mem hp he with hm | ⟨-, hm⟩
            · exact has hm
            · exact hc hm
        rw [hna]
        exact hi

/-- The links with those of `p` gone. -/
def TreeLinks.isolate (L : TreeLinks α) (p : α) : TreeLinks α where
  prnt := update L.prnt p none
  child := update L.child p none
  sibPrev := update L.sibPrev p none
  sibNext := update L.sibNext p none

lemma IsForest.isolate (h : IsForest L parent prev first f) {p : α} (hp : p ∉ f.nodes) :
    IsForest (L.isolate p) parent prev first f := by
  refine h.congr fun x hx => ?_
  have hxp : x ≠ p := fun he => hp (he ▸ hx)
  simp [TreeLinks.AgreeAt, TreeLinks.isolate, hxp]

/-- The links after `c` has been put in front of the children of `q`. -/
def TreeLinks.insertFirst (L : TreeLinks α) (q c : α) : TreeLinks α where
  prnt := update L.prnt c (some q)
  child := update L.child q (some c)
  sibPrev := match L.child q with
    | none => L.sibPrev
    | some d => update L.sibPrev d (some c)
  sibNext := match L.child q with
    | none => L.sibNext
    | some d => update L.sibNext c (some d)

lemma TreeLinks.insertFirst_sibPrev_of_ne {q c x : α} (h : L.child q ≠ some x) :
    (L.insertFirst q c).sibPrev x = L.sibPrev x := by
  unfold TreeLinks.insertFirst
  cases hd : L.child q with
  | none => rfl
  | some d =>
    have hxd : x ≠ d := fun he => h (by rw [hd, he])
    simp [hxd]

lemma TreeLinks.insertFirst_sibNext_of_ne {q c x : α} (h : x ≠ c) :
    (L.insertFirst q c).sibNext x = L.sibNext x := by
  unfold TreeLinks.insertFirst
  cases hd : L.child q with
  | none => rfl
  | some d => simp [h]

lemma TreeLinks.insertFirst_agreeAt {q c x : α} (hxc : x ≠ c) (hxq : x ≠ q)
    (hxd : L.child q ≠ some x) : L.AgreeAt (L.insertFirst q c) x :=
  ⟨by simp [TreeLinks.insertFirst, hxc], by simp [TreeLinks.insertFirst, hxq],
    insertFirst_sibPrev_of_ne hxd, insertFirst_sibNext_of_ne hxc⟩

/-- Putting a single new node in front of the children of `q`. -/
lemma IsForest.insertFirst (h : IsForest L parent prev first f) (hnd : f.nodes.Nodup) {q c : α}
    (hq : q ∈ f.nodes) (hc : c ∉ f.nodes) (hcc : L.child c = none) (hcv : L.sibPrev c = none)
    (hcn : L.sibNext c = none) :
    IsForest (L.insertFirst q c) parent prev first (f.insertChild q c) := by
  induction f generalizing parent prev first with
  | nil => simp [Forest.nodes] at hq
  | cons a ks ss ihk ihs =>
    obtain ⟨rfl, hpa, hva, hk, hs⟩ := h
    simp only [Forest.nodes, List.nodup_cons, List.nodup_append, List.mem_append, not_or] at hnd
    obtain ⟨⟨hak, has⟩, hndk, hnds, hdis⟩ := hnd
    simp only [Forest.nodes, List.mem_cons, List.mem_append, not_or] at hq hc
    obtain ⟨hca, hck, hcs⟩ := hc
    have hdk : ∀ d, q = a ∨ q ∈ ks.nodes → L.child q = some d → d ∈ ks.nodes := by
      rintro d (rfl | hqk) hd
      · rw [hd] at hk
        exact hk.first_mem
      · have hkid := hk.kids hqk
        rw [hd] at hkid
        exact Forest.kids_nodes_subset q ks d hkid.first_mem
    rw [Forest.insertChild]
    rcases hq with rfl | hq | hq
    · rw [if_pos rfl]
      have hdq : ∀ d, L.child q = some d → d ∈ ks.nodes := fun d => hdk d (.inl rfl)
      have hqd : L.child q ≠ some q := fun he => hak (hdq q he)
      have hcd : L.child q ≠ some c := fun he => hck (hdq c he)
      have hnext : (L.insertFirst q c).sibNext c = L.child q := by
        unfold TreeLinks.insertFirst
        cases hd : L.child q with
        | none => exact hcn
        | some d => simp
      have hprev : ∀ x, L.child q = some x → (L.insertFirst q c).sibPrev x = some c := by
        intro x hx
        simp [TreeLinks.insertFirst, hx]
      refine ⟨rfl, ?_, (TreeLinks.insertFirst_sibPrev_of_ne hqd).trans hva, ?_, ?_⟩
      · simp [TreeLinks.insertFirst, Ne.symm hca, hpa]
      · refine ⟨by simp [TreeLinks.insertFirst], by simp [TreeLinks.insertFirst],
          (TreeLinks.insertFirst_sibPrev_of_ne hcd).trans hcv, ?_, ?_⟩
        · simpa [TreeLinks.insertFirst, hca, IsForest] using hcc
        · rw [hnext]
          refine hk.reprev hndk (fun x hx => ?_) (fun x hx hxd => ?_) hprev
          · have hxc : x ≠ c := fun he => hck (he ▸ hx)
            have hxq : x ≠ q := fun he => hak (he ▸ hx)
            exact ⟨by simp [TreeLinks.insertFirst, hxc], by simp [TreeLinks.insertFirst, hxq],
              TreeLinks.insertFirst_sibNext_of_ne hxc⟩
          · exact TreeLinks.insertFirst_sibPrev_of_ne hxd
      · rw [TreeLinks.insertFirst_sibNext_of_ne (Ne.symm hca)]
        refine hs.congr fun x hx => TreeLinks.insertFirst_agreeAt ?_ ?_ fun he => ?_
        · exact fun he => hcs (he ▸ hx)
        · exact fun he => has (he ▸ hx)
        · exact hdis x (hdq x he) x hx rfl
    · have hqa : a ≠ q := fun he => hak (he ▸ hq)
      have hqs : q ∉ ss.nodes := fun hqs => hdis q hq q hqs rfl
      have haga := TreeLinks.insertFirst_agreeAt (L := L) (Ne.symm hca) hqa
        fun he => hak (hdk a (.inr hq) he)
      rw [if_neg hqa, Forest.insertChild_of_not_mem hqs]
      refine ⟨rfl, haga.1.trans hpa, haga.2.2.1.trans hva, ?_, ?_⟩
      · rw [haga.2.1]
        exact ihk hk hndk hq hck
      · rw [haga.2.2.2]
        refine hs.congr fun x hx => TreeLinks.insertFirst_agreeAt ?_ ?_ fun he => ?_
        · exact fun he => hcs (he ▸ hx)
        · exact fun he => hqs (he ▸ hx)
        · exact hdis x (hdk x (.inr hq) he) x hx rfl
    · have hqa : a ≠ q := fun he => has (he ▸ hq)
      have hqk : q ∉ ks.nodes := fun hqk => hdis q hqk q hq rfl
      have hds : ∀ d, L.child q = some d → d ∈ ss.nodes := by
        intro d hd
        have hkid := hs.kids hq
        rw [hd] at hkid
        exact Forest.kids_nodes_subset q ss d hkid.first_mem
      have haga := TreeLinks.insertFirst_agreeAt (L := L) (Ne.symm hca) hqa
        fun he => has (hds a he)
      rw [if_neg hqa, Forest.insertChild_of_not_mem hqk]
      refine ⟨rfl, haga.1.trans hpa, haga.2.2.1.trans hva, ?_, ?_⟩
      · rw [haga.2.1]
        refine hk.congr fun x hx => TreeLinks.insertFirst_agreeAt ?_ ?_ fun he => ?_
        · exact fun he => hck (he ▸ hx)
        · exact fun he => hqk (he ▸ hx)
        · exact hdis x hx x (hds x he) rfl
      · rw [haga.2.2.2]
        exact ihs hs hnds hq hcs

end Links

end Linked
