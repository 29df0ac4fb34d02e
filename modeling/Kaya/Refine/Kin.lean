import Kaya.Refine.Kill

/-!
# Terminations and the process tree

Whatever state the queues are in, a termination that returns has done to the process tree what
`Kin.honeyIKilledTheKids` does: the functions on queues change no tree link.
-/

namespace Kaya

open Function Linked

section Frames

variable {t t' u : ProcTable} {tp tp' r : PcbPtr} {p : PcbIx} {s s' : SemdTable}

/-! ### Queues have no tree links -/

lemma insertProcQ_tree {p : PcbPtr} (h : insertProcQ tp p t = some (tp', t')) :
    t'.tree = t.tree := by
  unfold insertProcQ at h
  cases p with
  | none => cases h
  | some p =>
    cases tp with
    | none =>
      obtain ⟨-, rfl⟩ := Prod.mk.inj (Option.some.inj h)
      rfl
    | some z =>
      simp only [Option.bind_eq_bind, Option.bind_some, Option.bind_eq_some_iff] at h
      obtain ⟨head, -, h⟩ := h
      obtain ⟨-, rfl⟩ := Prod.mk.inj (Option.some.inj h)
      rfl

lemma removeProcQ_tree (h : removeProcQ tp t = some (r, tp', t')) : t'.tree = t.tree := by
  unfold removeProcQ at h
  cases tp with
  | none =>
    obtain ⟨-, -, rfl⟩ := h
    rfl
  | some z =>
    dsimp only at h
    split at h
    · obtain ⟨-, h⟩ := Prod.mk.inj (Option.some.inj h)
      obtain ⟨-, rfl⟩ := Prod.mk.inj h
      rfl
    · simp only [Option.bind_eq_bind, Option.bind_eq_some_iff] at h
      obtain ⟨head, -, second, -, h⟩ := h
      obtain ⟨-, h⟩ := Prod.mk.inj (Option.some.inj h)
      obtain ⟨-, rfl⟩ := Prod.mk.inj h
      rfl

lemma outProcQLoop_tree {fuel : Nat} {current : PcbIx}
    (h : outProcQLoop tp p t fuel current = some (r, t')) : t'.tree = t.tree := by
  induction fuel generalizing current with
  | zero => cases h
  | succ n ih =>
    unfold outProcQLoop at h
    split at h
    · simp only [Option.bind_eq_bind, Option.bind_eq_some_iff, Prod.exists] at h
      obtain ⟨r', tp', u, hr, h⟩ := h
      obtain ⟨-, rfl⟩ := Prod.mk.inj (Option.some.inj h)
      exact removeProcQ_tree hr
    · simp only [Option.bind_eq_bind, Option.bind_eq_some_iff] at h
      obtain ⟨next, -, h⟩ := h
      split at h
      · obtain ⟨-, rfl⟩ := Prod.mk.inj (Option.some.inj h)
        rfl
      · exact ih h

lemma outProcQ_tree (h : outProcQ tp p t = some (r, tp', t')) : t'.tree = t.tree := by
  unfold outProcQ at h
  cases tp with
  | none =>
    obtain ⟨-, -, rfl⟩ := h
    rfl
  | some z =>
    dsimp only at h
    split at h
    · split at h
      · exact removeProcQ_tree h
      · obtain ⟨-, h⟩ := Prod.mk.inj (Option.some.inj h)
        obtain ⟨-, rfl⟩ := Prod.mk.inj h
        rfl
    · split at h
      · exact removeProcQ_tree h
      · simp only [Option.bind_eq_bind, Option.bind_eq_some_iff, Prod.exists] at h
        obtain ⟨r', u, hloop, h⟩ := h
        obtain ⟨-, h⟩ := Prod.mk.inj (Option.some.inj h)
        obtain ⟨-, rfl⟩ := Prod.mk.inj h
        exact outProcQLoop_tree hloop

lemma outBlocked_tree (h : outBlocked p t s = some (r, t', s')) : t'.tree = t.tree := by
  unfold outBlocked at h
  simp only [Option.bind_eq_bind, Option.bind_eq_some_iff] at h
  obtain ⟨temp, -, next, -, h⟩ := h
  split at h
  · simp only [Option.bind_eq_some_iff, Prod.exists] at h
    obtain ⟨r', q, u, hout, h⟩ := h
    obtain ⟨-, h⟩ := Prod.mk.inj (Option.some.inj h)
    obtain ⟨rfl, -⟩ := Prod.mk.inj h
    exact outProcQ_tree hout
  · obtain ⟨-, h⟩ := Prod.mk.inj (Option.some.inj h)
    obtain ⟨rfl, -⟩ := Prod.mk.inj h
    rfl

/-! ### Tree links have no queues -/

lemma eq_withTree (h : u.tree = t.tree) : u = u.withTree t.tree := by
  rw [← h, withTree_tree]

lemma removeChild_of_tree (h : u.tree = t.tree) :
    removeChild p u = (removeChild p t).map fun x => (x.1, u.withTree x.2.tree) := by
  rw [eq_withTree h]
  unfold removeChild ProcTable.withTree ProcTable.tree
  dsimp only
  cases hc : t.pChild p with
  | none => rfl
  | some c =>
    by_cases halone : t.pSibNext c = none ∧ t.pSibPrev c = none
    · simp [halone]
    · cases hn : t.pSibNext c with
      | none =>
        have hprev : t.pSibPrev c ≠ none := fun hv => halone ⟨hn, hv⟩
        simp [hn, hprev]
      | some d => simp [hn]

lemma outChildLoop_of_tree (h : u.tree = t.tree) {fuel : Nat} {current : PcbPtr} :
    outChildLoop p u fuel current =
      (outChildLoop p t fuel current).map fun x => u.withTree x.tree := by
  rw [eq_withTree h]
  induction fuel generalizing current with
  | zero => rfl
  | succ n ih =>
    by_cases hp : current = some p
    · unfold outChildLoop ProcTable.withTree ProcTable.tree
      simp only [hp, if_true]
      cases hn : t.pSibNext p with
      | none => cases hv : t.pSibPrev p <;> simp
      | some next => cases hv : t.pSibPrev p <;> simp
    · cases current with
      | none => simp [outChildLoop]
      | some c =>
        simp only [outChildLoop, hp, if_false, Option.bind_eq_bind, Option.bind_some]
        exact ih

lemma outChild_of_tree (h : u.tree = t.tree) :
    outChild p u = (outChild p t).map fun x => (x.1, u.withTree x.2.tree) := by
  have hprnt : u.pPrnt = t.pPrnt := congrArg TreeLinks.prnt h
  have hchild : u.pChild = t.pChild := congrArg TreeLinks.child h
  unfold outChild
  rw [hprnt]
  cases hq : t.pPrnt p with
  | none => simp [← eq_withTree h]
  | some q =>
    simp only [hchild]
    split
    · exact removeChild_of_tree h
    · rw [outChildLoop_of_tree h]
      cases outChildLoop p t (maxProc + 1) (t.pChild q) <;> rfl

end Frames

/-! ### A termination on both levels -/

section Steps

variable {m : Machine} {k k' : Kernel} {s s' : Kin} {p : PcbIx} {current : PcbPtr}

lemma free_tree (h : ((freePcb k.pcbListH (some p) k.procs).bind fun r =>
      some { k with pcbListH := r.1, procs := r.2, processCount := k.processCount - 1 }) =
    some k') :
    k'.currentProcess = k.currentProcess ∧ k'.processCount = k.processCount - 1 ∧
      k'.procs.tree = k.procs.tree := by
  obtain ⟨⟨pcbListH, procs⟩, hfree, h⟩ := Option.bind_eq_some_iff.mp h
  obtain rfl := Option.some.inj h
  exact ⟨rfl, rfl, insertProcQ_tree hfree⟩

lemma takeOut_tree (h : takeOut m p k = some k') : k'.currentProcess = k.currentProcess ∧
    k'.processCount = k.processCount - 1 ∧
    (some p = k.currentProcess → ∃ r procs, outChild p k.procs = some (r, procs) ∧
      k'.procs.tree = procs.tree) ∧
    (some p ≠ k.currentProcess → k'.procs.tree = k.procs.tree) := by
  unfold takeOut at h
  split at h
  · rename_i hp
    simp only [Option.bind_eq_bind, Option.bind_some] at h
    obtain ⟨⟨r, procs⟩, hout, h⟩ := Option.bind_eq_some_iff.mp h
    obtain ⟨hc, hn, ht⟩ := free_tree (k := { k with procs }) h
    exact ⟨hc, hn, fun _ => ⟨r, procs, hout, ht⟩, fun hne => absurd hp hne⟩
  · rename_i hp
    suffices hsame : k'.currentProcess = k.currentProcess ∧
        k'.processCount = k.processCount - 1 ∧ k'.procs.tree = k.procs.tree from
      ⟨hsame.1, hsame.2.1, fun he => absurd he hp, fun _ => hsame.2.2⟩
    split at h
    · simp only [Option.bind_eq_bind, Option.bind_some] at h
      obtain ⟨⟨r, readyQ, procs⟩, hout, h⟩ := Option.bind_eq_some_iff.mp h
      obtain ⟨hc, hn, ht⟩ := free_tree (k := { k with readyQ, procs }) h
      exact ⟨hc, hn, ht.trans (outProcQ_tree hout)⟩
    · simp only [Option.bind_eq_bind, Option.bind_some] at h
      obtain ⟨⟨r, procs, asl⟩, hout, h⟩ := Option.bind_eq_some_iff.mp h
      dsimp only at h
      split at h
      · obtain ⟨hc, hn, ht⟩ := free_tree
          (k := { k with procs, asl, softBlockCount := k.softBlockCount - 1 }) h
        exact ⟨hc, hn, ht.trans (outBlocked_tree hout)⟩
      · obtain ⟨v, -, h⟩ := Option.bind_eq_some_iff.mp h
        obtain ⟨hc, hn, ht⟩ := free_tree
          (k := Kernel.store { k with procs, asl } (k.procs.pSemAdd p) (v + 1)) h
        exact ⟨hc, hn, ht.trans (outBlocked_tree hout)⟩

/-- The kernel and the PCBs it has freed show `s`. -/
def Shows (current : PcbPtr) (x : Kernel × List PcbIx) (s : Kin) : Prop :=
  x.1.currentProcess = current ∧ x.1.procs.tree = s.procs.tree ∧
    x.1.processCount = s.processCount ∧ x.2 = s.freed

/-- Every step of a termination is one on the tree. -/
lemma killing_simulates (m : Machine) (current : PcbPtr) :
    (killing m).logged.Simulates (Kin.killing current) (Shows current) := by
  constructor
  · rintro p ⟨k, l⟩ s c ⟨k', l'⟩ ⟨hcur, htree, hcount, hfreed⟩ hfirst
    dsimp only at hcur htree hcount hfreed
    have hchild : k.procs.pChild = s.procs.pChild := congrArg TreeLinks.child htree
    unfold Walk.logged killing emptyChild at hfirst
    unfold Kin.killing emptyChild
    dsimp only at hfirst ⊢
    rw [hchild] at hfirst
    split at hfirst
    · rename_i hempty
      obtain ⟨rfl, heq⟩ := Prod.mk.inj (Option.some.inj hfirst)
      obtain ⟨rfl, rfl⟩ := Prod.mk.inj heq
      exact ⟨s, if_pos hempty, hcur, htree, hcount, hfreed⟩
    · rename_i hempty
      rw [if_neg hempty, removeChild_of_tree htree.symm]
      obtain ⟨r, hr, heq⟩ := Option.map_eq_some_iff.mp hfirst
      simp only [Option.bind_eq_bind, Option.bind_eq_some_iff, Prod.exists] at hr
      obtain ⟨child, procs, hremove, c', rfl, hr⟩ := hr
      obtain rfl := Option.some.inj hr
      simp only [Prod.mk.injEq] at heq
      obtain ⟨rfl, rfl, rfl⟩ := heq
      refine ⟨{ s with procs := s.procs.withTree procs.tree }, ?_, hcur, rfl, hcount, hfreed⟩
      simp [hremove]
  · rintro p ⟨k, l⟩ s x ⟨hcur, htree, hcount, hfreed⟩ hvisit
    obtain ⟨k', htake, rfl⟩ := Option.map_eq_some_iff.mp hvisit
    dsimp only at hcur htree hcount hfreed
    obtain ⟨hcur', hcount', hchild, hsame⟩ := takeOut_tree htake
    change ∃ s', Kin.takeOut current p s = some s' ∧ _
    unfold Kin.takeOut
    rw [hcur] at hchild hsame
    by_cases hp : some p = current
    · obtain ⟨r, procs, hout, ht⟩ := hchild hp
      rw [if_pos hp, outChild_of_tree htree.symm, hout]
      refine ⟨⟨s.procs.withTree procs.tree, s.processCount - 1, s.freed ++ [p]⟩, rfl,
        hcur'.trans hcur, ht, ?_, ?_⟩
      · rw [hcount', hcount]
      · rw [hfreed]
    · rw [if_neg hp]
      refine ⟨⟨s.procs, s.processCount - 1, s.freed ++ [p]⟩, rfl, hcur'.trans hcur,
        (hsame hp).trans htree, ?_, ?_⟩
      · rw [hcount', hcount]
      · rw [hfreed]

/-- A termination that returns shows what the one on the tree returns. -/
theorem honeyIKilledTheKids_shows (hcur : k.currentProcess = current)
    (htree : k.procs.tree = s.procs.tree) (hcount : k.processCount = s.processCount)
    (hfreed : s.freed = []) (hk : honeyIKilledTheKids m (maxProc + 1) p k = some k') :
    ∃ s', Kin.honeyIKilledTheKids current p s = some s' ∧ k'.procs.tree = s'.procs.tree ∧
      k'.processCount = s'.processCount ∧ freedBy m p k = some s'.freed := by
  rw [honeyIKilledTheKids_eq_run] at hk
  obtain ⟨l, hlog⟩ := Walk.exists_logged [] hk
  obtain ⟨s', hs', -, ht, hn, hl⟩ :=
    (killing_simulates m current).run ⟨hcur, htree, hcount, hfreed.symm⟩ hlog
  refine ⟨s', hs', ht, hn, ?_⟩
  unfold freedBy
  rw [hlog, ← hl]
  rfl

end Steps

end Kaya
