import Kaya.Abstract.Access

/-!
# A termination as a whole

A handler that terminates the running process does nothing else but what it has done before it
found out that it has to. The whole family is taken from wherever it is, and then the scheduler
goes on with those that are left.
-/

namespace Kaya

open Function Linked

namespace Nuc

variable {m : Machine} {a a' : Nuc} {p q : PcbIx} {s : Addr} {st : State} {e : Event}
  {l : List PcbIx}

/-! ### The handlers that terminate -/

lemma passUpOrDie_dies {area : OldArea} {type : Fin trapTypes} (hc : a.currentProcess = some p)
    (hd : NoVector (a.oldAreas p) (a.newAreas p) type) (hs : a.passUpOrDie m area type = some a') :
    a' = a.terminate m p := by
  unfold passUpOrDie at hs
  simp only [hc, Option.bind_eq_bind, Option.bind_some] at hs
  have hd' : _ ∨ _ := hd
  rw [if_pos hd'] at hs
  exact (Option.some.inj hs).symm

lemma exceptionStateVec_dies {type : Word} {old new : Addr} (hc : a.currentProcess = some p)
    (hd : ∀ h : type.toNat < trapTypes,
      ¬ (a.oldAreas p ⟨_, h⟩ = null ∧ a.newAreas p ⟨_, h⟩ = null))
    (hs : a.exceptionStateVec m type old new = some a') : a' = a.terminate m p := by
  unfold exceptionStateVec at hs
  simp only [hc, Option.bind_eq_bind, Option.bind_some] at hs
  split at hs
  · rename_i ht
    rw [if_neg (hd ht)] at hs
    exact (Option.some.inj hs).symm
  · contradiction

lemma waitForIo_dies {lineNum deviceNum termRead : Word} (hc : a.currentProcess = some p)
    (hd : 0 < a.mem (m.semAddr (ioIndex lineNum deviceNum termRead).toNat))
    (hs : a.waitForIo m lineNum deviceNum termRead = some a') :
    ∃ s, a' = (a.store s (a.mem s - 1)).terminate m p := by
  unfold waitForIo at hs
  dsimp only at hs
  generalize m.semAddr (ioIndex lineNum deviceNum termRead).toNat = s at hd hs
  simp only [store, hc, Option.bind_eq_bind, Option.bind_some, update_self] at hs
  rw [if_neg (by omega)] at hs
  refine ⟨s, ?_⟩
  have heq := (Option.some.inj hs).symm
  unfold store
  rw [heq, hc]

lemma service_dies (hc : a.currentProcess = some p)
    (hd : DiesInService m a.mem (a.oldAreas p) (a.newAreas p) st)
    (hs : a.service m st = some a') : ∃ mem, a' = ({ a with mem } : Nuc).terminate m p := by
  unfold DiesInService at hd
  unfold service at hs
  split_ifs at hd hs with h1 h2 h3 h4 h5 h6 h7 h8
  · rw [hc] at hs
    exact ⟨a.mem, (Option.some.inj hs).symm⟩
  · exact ⟨a.mem, exceptionStateVec_dies hc hd hs⟩
  · obtain ⟨s, h⟩ := waitForIo_dies hc hd hs
    exact ⟨_, h⟩
  · exact ⟨a.mem, passUpOrDie_dies hc hd hs⟩

lemma syscallHandler_dies (hc : a.currentProcess = some p) (hst : a.oldArea .syscall = st)
    (hd : Dies m a.mem (a.oldAreas p) (a.newAreas p) (.syscall st))
    (hs : a.syscallHandler m = some a') :
    ∃ mem oldArea, a' = ({ a with mem, oldArea } : Nuc).terminate m p := by
  unfold syscallHandler at hs
  rw [hst] at hs
  dsimp only at hs
  split at hs
  · rename_i hu
    rw [Dies, if_pos hu] at hd
    generalize update a.oldArea .programTrap _ = old at hs
    have h := passUpOrDie_dies (a := { a with oldArea := old }) hc hd hs
    exact ⟨a.mem, old, h⟩
  · rename_i hu
    rw [Dies, if_neg hu] at hd
    generalize update a.oldArea .syscall _ = old at hs
    obtain ⟨mem, h⟩ := service_dies (a := { a with oldArea := old }) hc hd hs
    exact ⟨mem, old, h⟩

lemma step_dies (hc : a.currentProcess = some p)
    (hd : Dies m a.mem (a.oldAreas p) (a.newAreas p) e) (hs : a.step m e = some a') :
    ∃ mem oldArea, a' = ({ a with mem, oldArea } : Nuc).terminate m p := by
  cases e with
  | syscall st =>
    exact syscallHandler_dies (a := { a with oldArea := update a.oldArea .syscall st }) hc
      (update_self OldArea.syscall st a.oldArea) hd hs
  | programTrap st =>
    have h := passUpOrDie_dies (a := { a with oldArea := update a.oldArea .programTrap st })
      hc hd hs
    exact ⟨a.mem, _, h⟩
  | tlbManagement st =>
    have h := passUpOrDie_dies (a := { a with oldArea := update a.oldArea .tlbManagement st })
      hc hd hs
    exact ⟨a.mem, _, h⟩
  | interrupt st => exact hd.elim
  | device bus => exact hd.elim
  | writeInt s v => exact hd.elim
  | writeState s st => exact hd.elim

/-! ### The ready list -/

lemma foldl_takeOut_ready (hnd : a.ready.Nodup) (hl : ∀ q ∈ l, q ∈ a.ready → a.pSemAdd q = null) :
    (l.foldl (takeOut m) a).ready = a.ready.filter (· ∉ l) := by
  induction l generalizing a with
  | nil => simp
  | cons q l ih =>
    have hone : (a.takeOut m q).ready = a.ready.filter (· ≠ q) := by
      rw [takeOut_ready]
      split_ifs with hs
      · rw [hnd.erase_eq_filter]
        exact List.filter_congr fun x _ => by simp [bne, beq_eq_decide]
      · rw [eq_comm, List.filter_eq_self]
        intro x hx
        have hxq : x ≠ q := by
          rintro rfl
          exact hs (hl x (by simp) hx)
        simpa using hxq
    rw [List.foldl_cons, ih, hone, List.filter_filter]
    · apply List.filter_congr
      intro x _
      by_cases hx : x = q <;> simp [hx]
    · rw [hone]
      exact hnd.filter _
    · intro x hx hxr
      rw [takeOut_pSemAdd]
      rw [hone] at hxr
      exact hl x (by simp [hx]) (List.mem_of_mem_filter hxr)

lemma Inv.kill_ready (h : a.Inv) (hc : a.currentProcess = some p) (hsafe : a.KillSafe p) :
    (a.kill m p).ready = a.ready.filter (· ∉ a.family p) := by
  obtain ⟨home, hp⟩ := h.homes
  have hnd : a.ready.Nodup := hp.nodup .ready
  have hperm := Forest.postorder_perm_nodes (a.tree.kids p)
  change ((a.tree.kids p).postorder.foldl (takeOut m) a).ready = _
  rw [foldl_takeOut_ready hnd fun q hq hqr => hsafe q (hperm.mem_iff.mp hq) hqr]
  apply List.filter_congr
  intro x hx
  have hxp : x ≠ p := fun he => (h.homeless hc).ready (he ▸ hx)
  simp [family, hxp]

/-- `Scheduler` takes the first ready process. -/
lemma dispatch_line (a : Nuc) :
    (a.dispatch m).currentProcess.toList ++ (a.dispatch m).ready = a.ready := by
  unfold dispatch
  split
  · rename_i h
    split_ifs <;> simp [h]
  · rename_i p rest h
    simp [h]

lemma line_of_dies (hg : a.Good) (hsafe : a.Safe m e) (hc : a.currentProcess = some p)
    (hd : Dies m a.mem (a.oldAreas p) (a.newAreas p) e) (hs : a.step m e = some a') :
    a'.currentProcess.toList ++ a'.ready = a.ready.filter (· ∉ a.dead m e) := by
  obtain ⟨mem, oldArea, rfl⟩ := step_dies hc hd hs
  have hinv : Nuc.Inv { a with mem, oldArea } := ⟨hg.inv.homes, hg.inv.waits, hg.inv.shape⟩
  have hdead : a.dead m e = a.family p := by
    rw [dead_of_current hc, deaths, if_pos hd]
  rw [terminate, dispatch_line, hinv.kill_ready hc (hsafe p hc hd), hdead]
  rfl

end Nuc

end Kaya
