import Kaya.Lib.Siblings
import Kaya.Pcb
import Mathlib.Tactic

/-!
# Child lists

The tree links of the PCBs in use as one list of children for each PCB. Adopting a PCB keeps
them in order exactly when its sibling links were clear; taking a child out always does, but
leaves the links of that child as they were.
-/

namespace Kaya

open Function Linked

/-- The links of `q` as `allocPcb` leaves them. -/
structure ProcTable.Fresh (t : ProcTable) (q : PcbIx) : Prop where
  prnt : t.pPrnt q = none
  child : t.pChild q = none
  sibPrev : t.pSibPrev q = none
  sibNext : t.pSibNext q = none

lemma allocPcb_fresh {h h' : PcbPtr} {t t' : ProcTable} {p : PcbIx}
    (ha : allocPcb h t = some (some p, h', t')) : t'.Fresh p := by
  unfold allocPcb at ha
  split at ha
  · simp at ha
  · simp only [Option.bind_eq_bind, Option.bind_eq_some_iff, Prod.exists] at ha
    obtain ⟨elem, h₁, t₁, -, q, -, ha⟩ := ha
    obtain ⟨hq, hrest⟩ := Prod.mk.inj (Option.some.inj ha)
    obtain rfl := Option.some.inj hq
    obtain ⟨-, rfl⟩ := Prod.mk.inj hrest
    exact ⟨by simp, by simp, by simp, by simp⟩

/-- The children of each PCB in `A`, first to last. -/
structure IsFamily (A : Set PcbIx) (t : ProcTable) (kids : PcbIx → List PcbIx) : Prop where
  child : ∀ q ∈ A, t.pChild q = (kids q).head?
  siblings : ∀ q, IsLinked t.pSibNext t.pSibPrev none (kids q)
  prnt : ∀ q, ∀ c ∈ kids q, t.pPrnt c = some q
  nodup : ∀ q, (kids q).Nodup
  mem : ∀ q, ∀ c ∈ kids q, q ∈ A ∧ c ∈ A
  prnt_mem : ∀ c ∈ A, ∀ q, t.pPrnt c = some q → q ∈ A

namespace IsFamily

variable {A : Set PcbIx} {t : ProcTable} {kids : PcbIx → List PcbIx} {p q c : PcbIx}

lemma disjoint (h : IsFamily A t kids) {r : PcbIx} (hqr : q ≠ r) :
    (kids q).Disjoint (kids r) := fun x hx hx' =>
  hqr (Option.some.inj ((h.prnt q x hx).symm.trans (h.prnt r x hx')))

lemma erase_eq (h : IsFamily A t kids) {p q : PcbIx} (hp : p ∈ kids q) :
    (fun r => (kids r).erase p) = update kids q ((kids q).erase p) := by
  funext r
  by_cases hr : r = q
  · simp [hr]
  · have hpr : p ∉ kids r := fun hpr => h.disjoint hr hpr hp
    simp [hr, List.erase_of_not_mem hpr]

lemma empty (hA : ∀ q ∈ A, t.Fresh q) : IsFamily A t fun _ => [] := by
  refine ⟨fun q hq => (hA q hq).child, fun _ => trivial, ?_, fun _ => List.nodup_nil, ?_, ?_⟩
  · simp
  · simp
  · simp +contextual [fun c hc => (hA c hc).prnt]

/-- New links for the children of `q` only. -/
lemma change (h : IsFamily A t kids) {t' : ProcTable} {l m : List PcbIx}
    (hlinked : IsLinked t'.pSibNext t'.pSibPrev none l) (hchild : t'.pChild q = l.head?)
    (hprnt : ∀ c ∈ l, t'.pPrnt c = some q) (hnd : l.Nodup) (hmem : ∀ c ∈ l, q ∈ A ∧ c ∈ A)
    (hlink : ∀ c ∈ A, ∀ r, t'.pPrnt c = some r → r ∈ A)
    (hother : ∀ r, r ≠ q → t'.pChild r = t.pChild r) (hm : ∀ r, r ≠ q → (kids r).Disjoint m)
    (hsame : ∀ x ∉ m, t'.pSibNext x = t.pSibNext x ∧ t'.pSibPrev x = t.pSibPrev x ∧
      t'.pPrnt x = t.pPrnt x) :
    IsFamily A t' (update kids q l) := by
  have hoff : ∀ r, r ≠ q → ∀ x ∈ kids r, x ∉ m := fun r hr x hx hxm => hm r hr hx hxm
  constructor
  · intro r hr
    by_cases hrq : r = q
    · subst hrq
      simpa using hchild
    · simpa [hrq, hother r hrq] using h.child r hr
  · intro r
    by_cases hrq : r = q
    · subst hrq
      simpa using hlinked
    · simp only [update_of_ne hrq]
      exact (h.siblings r).congr fun x hx =>
        ⟨(hsame x (hoff r hrq x hx)).1, (hsame x (hoff r hrq x hx)).2.1⟩
  · intro r x hx
    by_cases hrq : r = q
    · subst hrq
      exact hprnt x (by simpa using hx)
    · rw [update_of_ne hrq] at hx
      exact (hsame x (hoff r hrq x hx)).2.2.trans (h.prnt r x hx)
  · intro r
    by_cases hrq : r = q
    · subst hrq
      simpa using hnd
    · simpa [hrq] using h.nodup r
  · intro r x hx
    by_cases hrq : r = q
    · subst hrq
      exact hmem x (by simpa using hx)
    · exact h.mem r x (by simpa [hrq] using hx)
  · exact hlink

lemma insertChild_iff (h : IsFamily A t kids) (hq : q ∈ A) (hp : p ∈ A)
    (hout : ∀ r, p ∉ kids r) :
    IsFamily A (insertChild q p t) (update kids q (p :: kids q)) ↔
      t.pSibPrev p = none ∧ (t.pSibNext p = none ∨ kids q ≠ []) := by
  have hchild := h.child q hq
  have hnd : (p :: kids q).Nodup := List.nodup_cons.mpr ⟨hout q, h.nodup q⟩
  have hmem : ∀ c ∈ p :: kids q, q ∈ A ∧ c ∈ A := by
    intro c hc
    rcases List.mem_cons.mp hc with rfl | hc
    · exact ⟨hq, hp⟩
    · exact h.mem q c hc
  have hm : ∀ r, r ≠ q → (kids r).Disjoint (p :: kids q) := fun r hr =>
    List.disjoint_cons_right.mpr ⟨hout r, h.disjoint hr⟩
  have hlink : ∀ c ∈ A, ∀ r, update t.pPrnt p (some q) c = some r → r ∈ A := by
    intro c hc r hr
    by_cases hcp : c = p
    · subst hcp
      obtain rfl : q = r := by simpa using hr
      exact hq
    · exact h.prnt_mem c hc r (by simpa [hcp] using hr)
  cases hk : kids q with
  | nil =>
    rw [hk] at hchild hnd hmem hm
    have hins : insertChild q p t = { t with
        pPrnt := update t.pPrnt p (some q), pChild := update t.pChild q (some p) } := by
      simp [insertChild, hchild]
    rw [hins]
    constructor
    · intro hf
      have hl := hf.siblings q
      simp only [update_self] at hl
      exact ⟨hl.1, .inl hl.2.1⟩
    · rintro ⟨hprev, hnext⟩
      have hnext : t.pSibNext p = none := by simpa using hnext
      refine h.change (m := [p]) ⟨hprev, hnext, trivial⟩ ?_ ?_ hnd hmem hlink ?_ hm ?_
      · simp
      · intro c hc
        obtain rfl := List.mem_singleton.mp hc
        simp
      · intro r hr
        simp [hr]
      · intro x hx
        have hxp : x ≠ p := by simpa using hx
        simp [hxp]
  | cons c l =>
    rw [hk] at hchild hnd hmem hm
    have hpc : p ≠ c := fun he => hout q (by simp [hk, he])
    have hpl : p ∉ l := fun hpl => hout q (by simp [hk, hpl])
    have hcl : c ∉ l := (List.nodup_cons.mp (List.nodup_cons.mp hnd).2).1
    have hins : insertChild q p t = { t with
        pPrnt := update t.pPrnt p (some q)
        pSibNext := update t.pSibNext p (some c)
        pSibPrev := update t.pSibPrev c (some p)
        pChild := update t.pChild q (some p) } := by
      simp [insertChild, hchild]
    rw [hins]
    constructor
    · intro hf
      have hl := hf.siblings q
      simp only [update_self] at hl
      have hprev := hl.1
      rw [update_of_ne hpc] at hprev
      exact ⟨hprev, .inr (by simp)⟩
    · rintro ⟨hprev, -⟩
      have hlinked := h.siblings q
      rw [hk] at hlinked
      refine h.change (m := p :: c :: l) ⟨?_, ?_, ?_⟩ ?_ ?_ hnd hmem hlink ?_ hm ?_
      · simpa [hpc] using hprev
      · simp
      · refine hlinked.reprev (by simp) (by simp [hpc.symm]) fun y hy => ?_
        have hyp : y ≠ p := fun he => hpl (he ▸ hy)
        have hyc : y ≠ c := fun he => hcl (he ▸ hy)
        simp [hyp, hyc]
      · simp
      · intro x hx
        by_cases hxp : x = p
        · simp [hxp]
        · have hxk : x ∈ kids q := by
            rw [hk]
            exact (List.mem_cons.mp hx).resolve_left hxp
          simpa [hxp] using h.prnt q x hxk
      · intro r hr
        simp [hr]
      · intro x hx
        simp only [List.mem_cons, not_or] at hx
        simp [hx.1, hx.2.1]

lemma removeChild_spec (h : IsFamily A t kids) (hq : q ∈ A) :
    ∃ t', removeChild q t = some ((kids q).head?, t') ∧
      IsFamily A t' (update kids q (kids q).tail) ∧ t'.pPrnt = t.pPrnt := by
  have hchild := h.child q hq
  cases hk : kids q with
  | nil =>
    rw [hk] at hchild
    have hchild : t.pChild q = none := hchild
    refine ⟨t, by simp [removeChild, hchild], ?_, rfl⟩
    rw [List.tail_nil, ← hk, update_eq_self]
    exact h
  | cons c l =>
    have hlinked := h.siblings q
    have hnd := h.nodup q
    rw [hk] at hchild hlinked hnd
    have hprev : t.pSibPrev c = none := hlinked.1
    have hprnt : ∀ x ∈ l, t.pPrnt x = some q := fun x hx => h.prnt q x (by simp [hk, hx])
    have hmem : ∀ x ∈ l, q ∈ A ∧ x ∈ A := fun x hx => h.mem q x (by simp [hk, hx])
    have hm : ∀ r, r ≠ q → (kids r).Disjoint l := by
      intro r hr x hx hxl
      exact h.disjoint hr hx (by simp [hk, hxl])
    cases l with
    | nil =>
      have hnext : t.pSibNext c = none := hlinked.2.1
      refine ⟨{ t with pChild := update t.pChild q none }, ?_, ?_, rfl⟩
      · simp [removeChild, hchild, hnext, hprev]
      · exact h.change (m := []) trivial (by simp) hprnt List.nodup_nil hmem
          h.prnt_mem (fun r hr => by simp [hr]) hm fun x _ => ⟨rfl, rfl, rfl⟩
    | cons d l =>
      have hnext : t.pSibNext c = some d := hlinked.2.1
      refine ⟨{ t with pChild := update t.pChild q (some d), pSibPrev := update t.pSibPrev d none },
        ?_, ?_, rfl⟩
      · simp [removeChild, hchild, hnext]
      · have hnd' := (List.nodup_cons.mp hnd).2
        refine h.change (m := d :: l) ?_ (by simp) hprnt hnd' hmem h.prnt_mem
          (fun r hr => by simp [hr]) hm ?_
        · refine hlinked.2.2.reprev (by simp) rfl fun y hy => ⟨rfl, ?_⟩
          have hyd : y ≠ d := fun he => (List.nodup_cons.mp hnd').1 (he ▸ hy)
          simp [hyd]
        · intro x hx
          have hxd : x ≠ d := fun he => hx (by simp [he])
          simp [hxd]

lemma outChildLoop_found {p : PcbIx} {l₁ l₂ : List PcbIx} {before : PcbPtr} {fuel : Nat}
    (h : IsLinked t.pSibNext t.pSibPrev before (l₁ ++ p :: l₂)) (hp : p ∉ l₁)
    (hf : l₁.length < fuel) :
    outChildLoop p t fuel (l₁ ++ p :: l₂).head? = outChildLoop p t 1 (some p) := by
  induction l₁ generalizing before fuel with
  | nil =>
    obtain ⟨n, rfl⟩ := Nat.exists_eq_add_one_of_ne_zero (Nat.ne_of_gt hf)
    simp [outChildLoop]
  | cons x l₁ ih =>
    obtain ⟨n, rfl⟩ := Nat.exists_eq_add_one_of_ne_zero (Nat.ne_of_gt (Nat.zero_lt_of_lt hf))
    simp only [List.mem_cons, not_or] at hp
    obtain ⟨-, hnext, ht⟩ := h
    have hstep : outChildLoop p t (n + 1) (some x) = outChildLoop p t n (t.pSibNext x) := by
      simp [outChildLoop, Ne.symm hp.1]
    rw [List.cons_append, List.head?_cons, hstep, hnext]
    exact ih ht hp.2 (by simpa using hf)

lemma outChildLoop_missing {p : PcbIx} {l : List PcbIx} {before : PcbPtr} {fuel : Nat}
    (h : IsLinked t.pSibNext t.pSibPrev before l) (hp : p ∉ l) :
    outChildLoop p t fuel l.head? = none := by
  induction fuel generalizing before l with
  | zero => rfl
  | succ n ih =>
    cases l with
    | nil => simp [outChildLoop]
    | cons x l =>
      simp only [List.mem_cons, not_or] at hp
      have hstep : outChildLoop p t (n + 1) (some x) = outChildLoop p t n (t.pSibNext x) := by
        simp [outChildLoop, Ne.symm hp.1]
      rw [List.head?_cons, hstep, h.2.1]
      exact ih h.2.2 hp.2

/-- `outChild` takes a child out of the list of its parent. -/
lemma outChild_spec (h : IsFamily A t kids) (hp : p ∈ kids q) :
    ∃ t', outChild p t = some (some p, t') ∧ IsFamily A t' (update kids q ((kids q).erase p)) ∧
      t'.pPrnt = t.pPrnt := by
  have hprnt := h.prnt q p hp
  have hchild := h.child q (h.mem q p hp).1
  obtain ⟨l₁, l₂, hk, hl₁⟩ : ∃ l₁ l₂, kids q = l₁ ++ p :: l₂ ∧ p ∉ l₁ := by
    obtain ⟨l₁, l₂, hk⟩ := List.append_of_mem hp
    have hnd := h.nodup q
    rw [hk] at hnd
    exact ⟨l₁, l₂, hk, fun hm => List.disjoint_of_nodup_append hnd hm List.mem_cons_self⟩
  have herase : (kids q).erase p = l₁ ++ l₂ := by
    rw [hk, List.erase_append_right _ hl₁, List.erase_cons_head]
  rw [herase]
  rcases List.eq_nil_or_concat' l₁ with rfl | ⟨m, y, rfl⟩
  · obtain ⟨t', hrem, hf, hsame⟩ := h.removeChild_spec (h.mem q p hp).1
    simp only [hk, List.nil_append, List.head?_cons, List.tail_cons] at hrem hf hchild
    refine ⟨t', ?_, hf, hsame⟩
    simp [outChild, hprnt, hchild, hrem]
  · rw [List.append_assoc, List.singleton_append] at hk
    have hlinked := h.siblings q
    have hnd := h.nodup q
    rw [hk] at hlinked hnd hchild
    obtain ⟨hprev, hnext⟩ := hlinked.middle
    have hyp : y ≠ p := fun he => hl₁ (by simp [he])
    have hfirst : t.pChild q ≠ some p := by
      rw [hchild]
      cases m with
      | nil => simpa using hyp
      | cons x m =>
        rintro hx
        obtain rfl : x = p := by simpa using hx
        exact hl₁ (by simp)
    have hlen : (m ++ [y]).length < maxProc + 1 := by
      have hle := hnd.length_le_card
      simp only [List.length_append, List.length_cons, Fintype.card_fin] at hle ⊢
      simp only [List.length_nil]
      omega
    have hlinked' : IsLinked t.pSibNext t.pSibPrev none ((m ++ [y]) ++ p :: l₂) := by
      simpa using hlinked
    have hsearch := outChildLoop_found hlinked' hl₁ hlen
    rw [List.append_assoc, List.singleton_append, ← hchild] at hsearch
    have hmem : ∀ x ∈ m ++ y :: l₂, x ∈ kids q := by
      intro x hx
      rw [hk]
      simp only [List.mem_append, List.mem_cons] at hx ⊢
      tauto
    have hnd' : (m ++ y :: l₂).Nodup := by
      refine hnd.sublist (List.Sublist.append_left ?_ m)
      exact (List.sublist_cons_self p l₂).cons_cons y
    have hm : ∀ r, r ≠ q → (kids r).Disjoint (m ++ y :: l₂) := fun r hr x hx hxm =>
      h.disjoint hr hx (hmem x hxm)
    have hout : ∀ t', outChildLoop p t 1 (some p) = some t' → outChild p t = some (some p, t') := by
      intro t' ht'
      have hloop := hsearch.trans ht'
      unfold outChild
      simp only [hprnt, if_neg hfirst, hloop]
      rfl
    rw [List.append_assoc, List.singleton_append]
    cases l₂ with
    | nil =>
      have hnext : t.pSibNext p = none := hnext
      refine ⟨{ t with pSibNext := update t.pSibNext y none }, ?_, ?_, rfl⟩
      · exact hout _ (by simp [outChildLoop, hnext, hprev])
      · refine h.change (m := m ++ [y]) ?_ ?_ (fun x hx => h.prnt q x (hmem x hx)) hnd'
          (fun x hx => h.mem q x (hmem x hx)) h.prnt_mem (fun _ _ => rfl) hm ?_
        · exact hlinked.unlink hnd (by simp) (by simp) (fun z _ hz => by simp [hz])
            fun _ _ _ => rfl
        · rw [hchild]
          cases m <;> rfl
        · intro x hx
          have hxy : x ≠ y := fun he => hx (by simp [he])
          simp [hxy]
    | cons z l₂ =>
      have hnext : t.pSibNext p = some z := hnext
      refine ⟨{ t with
        pSibNext := update t.pSibNext y (some z)
        pSibPrev := update t.pSibPrev z (some y) }, ?_, ?_, rfl⟩
      · exact hout _ (by simp [outChildLoop, hnext, hprev])
      · refine h.change (m := m ++ y :: z :: l₂) ?_ ?_ (fun x hx => h.prnt q x (hmem x hx)) hnd'
          (fun x hx => h.mem q x (hmem x hx)) h.prnt_mem (fun _ _ => rfl) hm ?_
        · refine hlinked.unlink hnd (by simp) (by simp) (fun w _ hw => by simp [hw]) ?_
          intro w _ hw
          have hwz : w ≠ z := fun he => hw (by simp [he])
          simp [hwz]
        · rw [hchild]
          cases m <;> rfl
        · intro x hx
          have hxy : x ≠ y := fun he => hx (by simp [he])
          have hxz : x ≠ z := fun he => hx (by simp [he])
          simp [hxy, hxz]

lemma outChild_iff (h : IsFamily A t kids) (hA : p ∈ A) (hp : ∀ q, p ∉ kids q) :
    (∃ r, outChild p t = some r) ↔ t.pPrnt p = none := by
  constructor
  · rintro ⟨r, ho⟩
    cases hq : t.pPrnt p with
    | none => rfl
    | some q =>
      have hchild := h.child q (h.prnt_mem p hA q hq)
      have hfirst : t.pChild q ≠ some p := by
        intro hc
        exact hp q (List.mem_of_mem_head? (hchild.symm.trans hc))
      have hmiss : outChildLoop p t (maxProc + 1) (kids q).head? = none :=
        outChildLoop_missing (h.siblings q) (hp q)
      rw [← hchild] at hmiss
      unfold outChild at ho
      simp only [hq, if_neg hfirst, hmiss] at ho
      contradiction
  · intro hq
    exact ⟨(none, t), by simp [outChild, hq]⟩

end IsFamily

end Kaya
