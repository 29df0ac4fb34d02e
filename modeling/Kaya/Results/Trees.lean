import Kaya.Lib.Calls
import Kaya.Refine.Children
import Kaya.Refine.Runs

/-!
# Process trees are ordered forests, until a child is taken out

The tree functions as an object with three calls, specified by one list of children for each
PCB. Neither `removeChild` nor `outChild` clears the links of the PCB it takes out, so the
two agree only as long as nobody relies on these links.
-/

namespace Kaya

open Function Linked

/-- A call of one of the functions on process trees. -/
inductive TreeCall
  | insertChild (prnt p : PcbIx)
  | removeChild (p : PcbIx)
  | outChild (p : PcbIx)
  deriving DecidableEq

/-- The call on the PCBs. `insertChild` returns nothing. -/
def TreeCall.exec (t : ProcTable) : TreeCall → Option (PcbPtr × ProcTable)
  | insertChild prnt p => some (none, Kaya.insertChild prnt p t)
  | removeChild p => Kaya.removeChild p t
  | outChild p => Kaya.outChild p t

/-! ### The forest -/

/-- The children of each process, first to last. -/
abbrev Children := PcbIx → List PcbIx

namespace Children

def IsChild (kids : Children) (q p : PcbIx) : Prop := p ∈ kids q

/-- Nobody has the PCB as a child. -/
def Orphan (kids : Children) (p : PcbIx) : Prop := ∀ q, p ∉ kids q

/-- `q` is in the subtree of `p`. -/
def Descends (kids : Children) (p q : PcbIx) : Prop := Relation.ReflTransGen kids.IsChild p q

/-- Nobody descends from a child of its own. -/
def Acyclic (kids : Children) : Prop := ∀ p, ¬ Relation.TransGen kids.IsChild p p

end Children

/-- The forest as an object. A PCB is inserted that has no parent, not below itself. -/
def families (A : Set PcbIx) : Spec Children TreeCall PcbPtr where
  step kids
    | .insertChild prnt p => (none, update kids prnt (p :: kids prnt))
    | .removeChild p => ((kids p).head?, update kids p (kids p).tail)
    | .outChild p => (if ∃ q, p ∈ kids q then some p else none, fun q => (kids q).erase p)
  ok kids
    | .insertChild prnt p => prnt ∈ A ∧ p ∈ A ∧ kids.Orphan p ∧ ¬ kids.Descends p prnt
    | .removeChild p => p ∈ A
    | .outChild p => p ∈ A

section Forest

variable {A : Set PcbIx} {kids : Children}

lemma Children.descends_insert {p q x y : PcbIx} (hpq : ¬ kids.Descends p q)
    (h : Relation.TransGen (Children.IsChild (update kids q (p :: kids q))) x y) :
    Relation.TransGen kids.IsChild x y ∨ kids.Descends x q ∧ kids.Descends p y := by
  have hedge : ∀ {a b}, Children.IsChild (update kids q (p :: kids q)) a b →
      kids.IsChild a b ∨ a = q ∧ b = p := by
    intro a b hab
    by_cases ha : a = q
    · subst ha
      have hb : b = p ∨ b ∈ kids a := by simpa [Children.IsChild] using hab
      exact hb.elim (fun he => .inr ⟨rfl, he⟩) .inl
    · exact .inl (by simpa [Children.IsChild, ha] using hab)
  induction h with
  | single hab =>
    rcases hedge hab with hab | ⟨rfl, rfl⟩
    · exact .inl (.single hab)
    · exact .inr ⟨.refl, .refl⟩
  | tail _ hbc ih =>
    rcases hedge hbc with hbc | ⟨rfl, rfl⟩
    · rcases ih with hab | ⟨haq, hpb⟩
      · exact .inl (hab.tail hbc)
      · exact .inr ⟨haq, hpb.tail hbc⟩
    · rcases ih with hab | ⟨-, hpb⟩
      · exact .inr ⟨hab.to_reflTransGen, .refl⟩
      · exact absurd hpb hpq

lemma Children.not_descends {p q : PcbIx} (hp : kids p = []) (hpq : p ≠ q) :
    ¬ kids.Descends p q := by
  intro hd
  rcases Relation.ReflTransGen.cases_head hd with he | ⟨r, hr, -⟩
  · exact hpq he
  · simp [Children.IsChild, hp] at hr

lemma Children.Acyclic.step {c : TreeCall} (h : kids.Acyclic) (hc : (families A).ok kids c) :
    Children.Acyclic ((families A).step kids c).2 := by
  intro x hx
  cases c with
  | insertChild q p =>
    obtain ⟨-, -, -, hpq⟩ := hc
    rcases Children.descends_insert hpq hx with hx | ⟨hxq, hpx⟩
    · exact h x hx
    · exact hpq (hpx.trans hxq)
  | removeChild q =>
    refine h x (Relation.TransGen.mono (fun a b hab => ?_) x x hx)
    by_cases ha : a = q
    · subst ha
      exact List.mem_of_mem_tail (by simpa [families, Children.IsChild] using hab)
    · simpa [families, Children.IsChild, ha] using hab
  | outChild p =>
    refine h x (Relation.TransGen.mono (fun a b hab => ?_) x x hx)
    exact List.mem_of_mem_erase hab

lemma Children.acyclic_after {cs : List TreeCall} (h : kids.Acyclic)
    (hcs : (families A).Admits cs kids) : Children.Acyclic ((families A).after cs kids) := by
  induction cs generalizing kids with
  | nil => exact h
  | cons c cs ih => exact ih (h.step hcs.1) hcs.2

end Forest

/-! ### What the calls keep -/

/-- The calls answer like the forest, and leave links that denote it. -/
def Keeps (A : Set PcbIx) (t : ProcTable) (cs : List TreeCall) : Prop :=
  ∃ t', calls TreeCall.exec cs t = some ((families A).answers cs fun _ => [], t') ∧
    IsFamily A t' ((families A).after cs fun _ => [])

/-- Moreover the links agree on who has no parent, so that `outChild` of such a PCB returns
`NULL` and changes nothing. -/
def KeepsOrphans (A : Set PcbIx) (t : ProcTable) (cs : List TreeCall) : Prop :=
  ∃ t', calls TreeCall.exec cs t = some ((families A).answers cs fun _ => [], t') ∧
    IsFamily A t' ((families A).after cs fun _ => []) ∧
    ∀ p ∈ A, Children.Orphan ((families A).after cs fun _ => []) p →
      t'.pPrnt p = none ∧ outChild p t' = some (none, t')

/-- The call takes a child out of its parent's list. -/
def TreeCall.Takes (kids : Children) : TreeCall → Prop
  | insertChild _ _ => False
  | removeChild p => kids p ≠ []
  | outChild p => ∃ q, p ∈ kids q

/-- The links of the argument are clear where the call relies on it: an inserted PCB points
to no sibling, and a PCB that is no child points to no parent. -/
def TreeCall.Clear (t : ProcTable) (kids : Children) : TreeCall → Prop
  | insertChild prnt p => t.pSibPrev p = none ∧ (t.pSibNext p = none ∨ kids prnt ≠ [])
  | removeChild _ => True
  | outChild p => t.pPrnt p = none ∨ ∃ q, p ∈ kids q

section Calls

variable {A : Set PcbIx} {t : ProcTable} {kids : Children} {c : TreeCall}

lemma IsFamily.exec_iff (h : IsFamily A t kids) (hc : (families A).ok kids c) :
    (∃ t', c.exec t = some (((families A).step kids c).1, t') ∧
      IsFamily A t' ((families A).step kids c).2) ↔ c.Clear t kids := by
  cases c with
  | insertChild q p =>
    obtain ⟨hq, hp, hout, -⟩ := hc
    refine Iff.trans ?_ (h.insertChild_iff hq hp hout)
    constructor
    · rintro ⟨t', ht', hf⟩
      obtain ⟨-, rfl⟩ := Prod.mk.inj (Option.some.inj ht')
      exact hf
    · intro hf
      exact ⟨_, rfl, hf⟩
  | removeChild q =>
    refine ⟨fun _ => trivial, fun _ => ?_⟩
    obtain ⟨t', hrem, hf, -⟩ := h.removeChild_spec hc
    exact ⟨t', hrem, hf⟩
  | outChild p =>
    by_cases hp : ∃ q, p ∈ kids q
    · refine ⟨fun _ => .inr hp, fun _ => ?_⟩
      obtain ⟨q, hq⟩ := hp
      obtain ⟨t', hout, hf, -⟩ := h.outChild_spec hq
      refine ⟨t', ?_, ?_⟩
      · simp only [TreeCall.exec, families, if_pos (show ∃ q, p ∈ kids q from ⟨q, hq⟩), hout]
      · rw [← h.erase_eq hq] at hf
        exact hf
    · have horphan : kids.Orphan p := fun q hq => hp ⟨q, hq⟩
      have hsame : (fun q => (kids q).erase p) = kids :=
        funext fun q => List.erase_of_not_mem (horphan q)
      have hiff := h.outChild_iff hc horphan
      constructor
      · rintro ⟨t', hout, -⟩
        exact .inl (hiff.mp ⟨_, hout⟩)
      · rintro (hprnt | hq)
        · refine ⟨t, ?_, ?_⟩
          · simp [TreeCall.exec, families, hp, outChild, hprnt]
          · simp only [families, hsame]
            exact h
        · exact absurd hq hp

/-- A call that takes a child out leaves its link to the parent. -/
lemma IsFamily.takes (h : IsFamily A t kids) (hc : (families A).ok kids c)
    (ht : c.Takes kids) :
    ∃ p ∈ A, ∃ q t', c.exec t = some (some p, t') ∧ t'.pPrnt p = some q ∧
      Children.Orphan ((families A).step kids c).2 p := by
  cases c with
  | insertChild => exact ht.elim
  | removeChild q =>
    obtain ⟨p, l, hk⟩ := List.exists_cons_of_ne_nil ht
    have hp : p ∈ kids q := by simp [hk]
    obtain ⟨t', hrem, -, hsame⟩ := h.removeChild_spec hc
    refine ⟨p, (h.mem q p hp).2, q, t', ?_, ?_, fun r hr => ?_⟩
    · simpa [TreeCall.exec, hk] using hrem
    · rw [hsame]
      exact h.prnt q p hp
    · have hnd := h.nodup q
      rw [hk] at hnd
      by_cases hrq : r = q
      · subst hrq
        exact (List.nodup_cons.mp hnd).1 (by simpa [families, hk] using hr)
      · exact h.disjoint hrq (by simpa [families, hrq] using hr) hp
  | outChild p =>
    obtain ⟨q, hp⟩ := ht
    obtain ⟨t', hout, -, hsame⟩ := h.outChild_spec hp
    refine ⟨p, hc, q, t', hout, ?_, fun r hr => ?_⟩
    · rw [hsame]
      exact h.prnt q p hp
    · exact (h.nodup r).not_mem_erase hr

/-- All links of the PCBs without a parent are clear. -/
def Pristine (A : Set PcbIx) (t : ProcTable) (kids : Children) : Prop :=
  ∀ p ∈ A, kids.Orphan p → t.pPrnt p = none ∧ t.pSibPrev p = none ∧ t.pSibNext p = none

lemma IsFamily.exec_pristine (h : IsFamily A t kids) (hpr : Pristine A t kids)
    (hc : (families A).ok kids c) (ht : ¬ c.Takes kids) :
    ∃ t', c.exec t = some (((families A).step kids c).1, t') ∧
      IsFamily A t' ((families A).step kids c).2 ∧ Pristine A t' ((families A).step kids c).2 := by
  cases c with
  | insertChild q p =>
    obtain ⟨hq, hp, hout, -⟩ := hc
    obtain ⟨-, hprev, hnext⟩ := hpr p hp hout
    refine ⟨_, rfl, (h.insertChild_iff hq hp hout).mpr ⟨hprev, .inl hnext⟩, fun x hx hox => ?_⟩
    have hxp : x ≠ p := by
      rintro rfl
      exact hox q (by simp [families])
    have hxk : kids.Orphan x := by
      intro r hr
      by_cases hrq : r = q
      · subst hrq
        exact hox r (by simp [families, hr])
      · exact hox r (by simpa [families, hrq] using hr)
    have hchild := h.child q hq
    cases hk : kids q with
    | nil =>
      rw [hk] at hchild
      simpa [insertChild, hchild, hxp] using hpr x hx hxk
    | cons d l =>
      have hxd : x ≠ d := fun he => hxk q (by simp [hk, he])
      rw [hk] at hchild
      simpa [insertChild, hchild, hxp, hxd] using hpr x hx hxk
  | removeChild q =>
    have hk : kids q = [] := not_not.mp ht
    have hchild := h.child q hc
    have hsame : update kids q [] = kids := by
      rw [← hk, update_eq_self]
    simp only [hk, List.head?_nil] at hchild
    refine ⟨t, ?_, ?_, ?_⟩
    · simp [TreeCall.exec, families, removeChild, hchild, hk]
    · simp only [families, hk, List.tail_nil, hsame]
      exact h
    · simp only [families, hk, List.tail_nil, hsame]
      exact hpr
  | outChild p =>
    have horphan : kids.Orphan p := fun q hq => ht ⟨q, hq⟩
    have hprnt := (hpr p hc horphan).1
    have hsame : (fun q => (kids q).erase p) = kids :=
      funext fun q => List.erase_of_not_mem (horphan q)
    have hno : ¬ ∃ q, p ∈ kids q := ht
    refine ⟨t, ?_, ?_, ?_⟩
    · simp [TreeCall.exec, families, hno, outChild, hprnt]
    · simp only [families, hsame]
      exact h
    · simp only [families, hsame]
      exact hpr

end Calls

/-! ### Sequences of calls -/

section Sequences

variable {A : Set PcbIx} {t : ProcTable} {cs es : List TreeCall} {c : TreeCall}

lemma admits_of_le (hcs : (families A).Admits cs fun _ => []) (h : es <+: cs) :
    (families A).Admits es fun _ => [] := by
  obtain ⟨l, rfl⟩ := h
  exact (Spec.admits_append.mp hcs).1

lemma ok_at (hcs : (families A).Admits cs fun _ => []) (h : es ++ [c] <+: cs) :
    (families A).ok ((families A).after es fun _ => []) c :=
  (Spec.admits_snoc.mp (admits_of_le hcs h)).2

lemma calls_snoc_eq_some {t' t'' : ProcTable} {as : List PcbPtr} {a : PcbPtr}
    (h : calls TreeCall.exec es t = some (as, t')) :
    calls TreeCall.exec (es ++ [c]) t = some (as ++ [a], t'') ↔ c.exec t' = some (a, t'') := by
  rw [calls_snoc h]
  cases hc : c.exec t' with
  | none => simp
  | some r =>
    obtain ⟨b, u⟩ := r
    simp

lemma keeps_snoc {t' : ProcTable}
    (h : calls TreeCall.exec es t = some ((families A).answers es fun _ => [], t')) :
    Keeps A t (es ++ [c]) ↔ ∃ t'', c.exec t' =
        some (((families A).step ((families A).after es fun _ => []) c).1, t'') ∧
      IsFamily A t'' ((families A).step ((families A).after es fun _ => []) c).2 := by
  simp only [Keeps, Spec.answers_snoc, Spec.after_snoc, calls_snoc_eq_some h]

end Sequences

/-- For every admitted sequence of calls from fresh PCBs. The forest is one. The links denote
it, and agree on who has no parent, after every call if and only if no call takes a child out.
They denote it after every call, whatever they say of PCBs without a parent, if and only if
every call finds clear links where it relies on them. -/
theorem trees_refine_forests (A : Set PcbIx) (t : ProcTable) (hA : ∀ q ∈ A, t.Fresh q)
    (cs : List TreeCall) (hcs : (families A).Admits cs fun _ => []) :
    Children.Acyclic ((families A).after cs fun _ => []) ∧
    ((∀ es, es <+: cs → KeepsOrphans A t es) ↔
      ∀ es c, es ++ [c] <+: cs → ¬ c.Takes ((families A).after es fun _ => [])) ∧
    ((∀ es, es <+: cs → Keeps A t es) ↔
      ∀ es c as t', es ++ [c] <+: cs → calls TreeCall.exec es t = some (as, t') →
        c.Clear t' ((families A).after es fun _ => [])) := by
  refine ⟨?_, ⟨?_, ?_⟩, ⟨?_, ?_⟩⟩
  · apply Children.acyclic_after _ hcs
    intro p hp
    cases hp using Relation.TransGen.head_induction_on with
    | single h => simp [Children.IsChild] at h
    | head h => simp [Children.IsChild] at h
  · -- the child taken out still points to its parent
    intro hall es c hes htakes
    obtain ⟨t', hcalls, hf, -⟩ := hall es ((List.prefix_append es [c]).trans hes)
    obtain ⟨p, hpA, q, t'', hexec, hprnt, horphan⟩ := hf.takes (ok_at hcs hes) htakes
    obtain ⟨u, hcalls', -, horphans⟩ := hall (es ++ [c]) hes
    rw [Spec.answers_snoc, calls_snoc_eq_some hcalls] at hcalls'
    obtain ⟨-, rfl⟩ := Prod.mk.inj (Option.some.inj (hexec.symm.trans hcalls'))
    rw [Spec.after_snoc] at horphans
    have hnone := (horphans p hpA horphan).1
    rw [hprnt] at hnone
    contradiction
  · intro htakes es hes
    have hgood : ∃ t', calls TreeCall.exec es t = some ((families A).answers es fun _ => [], t') ∧
        IsFamily A t' ((families A).after es fun _ => []) ∧
        Pristine A t' ((families A).after es fun _ => []) := by
      induction es using List.reverseRecOn with
      | nil =>
        exact ⟨t, rfl, .empty hA, fun p hp _ => ⟨(hA p hp).prnt, (hA p hp).sibPrev,
          (hA p hp).sibNext⟩⟩
      | append_singleton es c ih =>
        obtain ⟨t', hcalls, hf, hpr⟩ := ih ((List.prefix_append es [c]).trans hes)
        obtain ⟨t'', hexec, hf', hpr'⟩ :=
          hf.exec_pristine hpr (ok_at hcs hes) (htakes es c hes)
        rw [Spec.after_snoc, Spec.answers_snoc]
        exact ⟨t'', (calls_snoc_eq_some hcalls).mpr hexec, hf', hpr'⟩
    obtain ⟨t', hcalls, hf, hpr⟩ := hgood
    refine ⟨t', hcalls, hf, fun p hp horphan => ?_⟩
    have hprnt := (hpr p hp horphan).1
    exact ⟨hprnt, by simp [outChild, hprnt]⟩
  · intro hall es c as t' hes hcalls
    obtain ⟨u, hcalls', hf⟩ := hall es ((List.prefix_append es [c]).trans hes)
    obtain ⟨-, rfl⟩ := Prod.mk.inj (Option.some.inj (hcalls.symm.trans hcalls'))
    exact (hf.exec_iff (ok_at hcs hes)).mp ((keeps_snoc hcalls').mp (hall _ hes))
  · intro hclear es hes
    induction es using List.reverseRecOn with
    | nil => exact ⟨t, rfl, .empty hA⟩
    | append_singleton es c ih =>
      obtain ⟨t', hcalls, hf⟩ := ih ((List.prefix_append es [c]).trans hes)
      apply (keeps_snoc hcalls).mpr
      exact (hf.exec_iff (ok_at hcs hes)).mpr (hclear es c _ t' hes hcalls)

/-- Two children, and a look for the parent of a PCB that has none. -/
theorem trees_refine_forests_two :
    KeepsOrphans Set.univ blankKernel.procs
      [TreeCall.insertChild 0 1, .insertChild 0 2, .outChild 3] := by
  have hfresh : ∀ q ∈ (Set.univ : Set PcbIx), blankKernel.procs.Fresh q :=
    fun _ _ => ⟨rfl, rfl, rfl, rfl⟩
  have hadmits : (families Set.univ).Admits
      [TreeCall.insertChild 0 1, .insertChild 0 2, .outChild 3] fun _ => [] := by
    refine ⟨⟨trivial, trivial, fun _ => by simp, ?_⟩, ⟨trivial, trivial, fun r => ?_, ?_⟩,
      trivial, trivial⟩
    · exact Children.not_descends rfl (by decide)
    · by_cases hr : r = 0 <;> simp [families, hr]
    · exact Children.not_descends (by simp [families]) (by decide)
  obtain ⟨-, hiff, -⟩ := trees_refine_forests Set.univ blankKernel.procs hfresh _ hadmits
  refine hiff.mpr ?_ _ (List.prefix_refl _)
  rintro es c ⟨l, hl⟩ htakes
  rcases es with _ | ⟨c₁, _ | ⟨c₂, _ | ⟨c₃, es⟩⟩⟩
  · obtain ⟨rfl, -⟩ := List.cons.inj hl
    exact htakes
  · simp only [List.cons_append, List.nil_append, List.cons.injEq] at hl
    obtain ⟨-, rfl, -⟩ := hl
    exact htakes
  · simp only [List.cons_append, List.nil_append, List.cons.injEq] at hl
    obtain ⟨rfl, rfl, rfl, -⟩ := hl
    obtain ⟨q, hq⟩ := htakes
    by_cases hq0 : q = 0 <;> simp [families, hq0] at hq
  · simp at hl

/-- The process 0 has the children 2 and 1, in this order, and 2 is taken out: it still names
0 as its parent. Inserted under 3, it takes its former sibling 1 with it. -/
theorem removed_child_keeps_its_links :
    (¬ ∀ (A : Set PcbIx) (t : ProcTable) (cs : List TreeCall), (∀ q ∈ A, t.Fresh q) →
      ((families A).Admits cs fun _ => []) → KeepsOrphans A t cs) ∧
    ¬ ∀ (A : Set PcbIx) (t : ProcTable) (cs : List TreeCall), (∀ q ∈ A, t.Fresh q) →
      ((families A).Admits cs fun _ => []) → Keeps A t cs := by
  have hfresh : ∀ q ∈ (Set.univ : Set PcbIx), blankKernel.procs.Fresh q :=
    fun _ _ => ⟨rfl, rfl, rfl, rfl⟩
  have hadmits : (families Set.univ).Admits
      [.insertChild 0 1, .insertChild 0 2, .removeChild 0, .insertChild 3 2] fun _ => [] := by
    refine ⟨⟨trivial, trivial, fun _ => by simp, ?_⟩, ⟨trivial, trivial, fun r => ?_, ?_⟩,
      trivial, ⟨trivial, trivial, fun r => ?_, ?_⟩, trivial⟩
    · exact Children.not_descends rfl (by decide)
    · by_cases hr : r = 0 <;> simp [families, hr]
    · exact Children.not_descends (by simp [families]) (by decide)
    · by_cases hr : r = 0 <;> simp [families, hr]
    · exact Children.not_descends (by simp [families]) (by decide)
  have hprefix := admits_of_le hadmits (List.prefix_append
    [.insertChild 0 1, .insertChild 0 2, .removeChild 0] [TreeCall.insertChild 3 2])
  constructor
  · intro hall
    obtain ⟨t', hcalls, -, horphans⟩ := hall Set.univ blankKernel.procs _ hfresh hprefix
    have hprnt : t'.pPrnt 2 = some 0 := by
      have hmap := congrArg (Option.map fun r => r.2.pPrnt 2) hcalls
      have heval : (calls TreeCall.exec [.insertChild 0 1, .insertChild 0 2, .removeChild 0]
          blankKernel.procs).map (fun r => r.2.pPrnt 2) = some (some 0) := by decide
      rw [heval] at hmap
      exact (Option.some.inj hmap).symm
    have horphan : Children.Orphan ((families Set.univ).after
        [.insertChild 0 1, .insertChild 0 2, .removeChild 0] fun _ => []) 2 := by
      intro q hq
      by_cases hq0 : q = 0 <;> simp [families, hq0] at hq
    have hnone := (horphans 2 trivial horphan).1
    rw [hprnt] at hnone
    contradiction
  · intro hall
    obtain ⟨t', hcalls, hf⟩ := hall Set.univ blankKernel.procs _ hfresh hadmits
    have hnext : t'.pSibNext 2 = some 1 := by
      have hmap := congrArg (Option.map fun r => r.2.pSibNext 2) hcalls
      have heval : (calls TreeCall.exec
          [.insertChild 0 1, .insertChild 0 2, .removeChild 0, .insertChild 3 2]
          blankKernel.procs).map (fun r => r.2.pSibNext 2) = some (some 1) := by decide
      rw [heval] at hmap
      exact (Option.some.inj hmap).symm
    have hnone : t'.pSibNext 2 = none := by
      have hlinked := hf.siblings 3
      simp [families] at hlinked
      exact hlinked.2.1
    rw [hnext] at hnone
    contradiction

end Kaya
