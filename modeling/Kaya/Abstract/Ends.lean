import Kaya.Abstract.Access

/-!
# How a step ends

Every handler gives the processor up in one of two ways: it goes back to the process that had
it, or the scheduler gives it to the first ready process. In the second case the state of the
process that had it has been saved, unless that process has been terminated.
-/

namespace Kaya

open Function Linked

namespace Nuc

variable {a a' : Nuc} {p : PcbIx} {s : Addr} {m : Machine} {st : State} {pS : PcbIx → State}

/-- The handler leaves the states `pS` of the processes. When the process `c` goes on, it is
in the state `st`. -/
inductive Ends (m : Machine) (c : PcbPtr) (pS : PcbIx → State) (st : State) : Nuc → Prop
  | resumed (b : Nuc) (hb : b.pS = pS) (hc : b.currentProcess = c) (hn : c ≠ none) :
      Ends m c pS st (b.resume st)
  | dispatched (b : Nuc) (hb : b.pS = pS) (hp : ∀ p, c = some p → pS p = st ∨ p ∈ b.free) :
      Ends m c pS st (b.dispatch m)

lemma dispatch_pS (m : Machine) (a : Nuc) : (a.dispatch m).pS = a.pS := by
  unfold dispatch
  split
  · split_ifs <;> rfl
  · rfl

lemma dispatch_free (m : Machine) (a : Nuc) : (a.dispatch m).free = a.free := by
  unfold dispatch
  split
  · split_ifs <;> rfl
  · rfl

lemma takeOut_pS {q : PcbIx} : (a.takeOut m q).pS = a.pS := by
  unfold takeOut store
  by_cases hs : a.pSemAdd q = null
  · simp [hs]
  · by_cases hd : m.IsDeviceSem (a.pSemAdd q) <;> simp [hs, hd]

lemma foldl_takeOut_pS (l : List PcbIx) (a : Nuc) : (l.foldl (Nuc.takeOut m) a).pS = a.pS := by
  induction l generalizing a with
  | nil => rfl
  | cons q l ih => rw [List.foldl_cons, ih, takeOut_pS]

lemma terminate_ends (st : State) : Ends m (some p) a.pS st (a.terminate m p) := by
  apply Ends.dispatched
  · exact foldl_takeOut_pS _ a
  · intro q hq
    obtain rfl := Option.some.inj hq
    exact .inr (List.mem_append_right _ (List.mem_singleton_self p))

lemma block_ends :
    Ends m (some p) (update a.pS p st) st (a.block m st s p) := by
  apply Ends.dispatched
  · rfl
  · intro q hq
    obtain rfl := Option.some.inj hq
    exact .inl (update_self ..)

lemma wake_pS (a : Nuc) (s : Addr) : (a.wake s).pS = a.pS := by
  unfold wake
  split <;> rfl

/-- The states of the other processes are as before. -/
def KeepsOthers (a : Nuc) (p : PcbIx) (pS : PcbIx → State) : Prop := ∀ q, q ≠ p → pS q = a.pS q

lemma KeepsOthers.refl (a : Nuc) (p : PcbIx) : a.KeepsOthers p a.pS := fun _ _ => rfl

lemma KeepsOthers.update (a : Nuc) (p : PcbIx) (st : State) :
    a.KeepsOthers p (update a.pS p st) := fun _ hq => update_of_ne hq ..

lemma setSyscallV0_oldArea (a : Nuc) (v : Word) :
    (a.setSyscallV0 v).oldArea .syscall = (a.oldArea .syscall).setV0 v := by
  simp [setSyscallV0]

lemma createProcess_ends {newState : Addr} (hc : a.currentProcess = some p)
    (hs : a.createProcess newState = some a') :
    a.free = [] ∧ Ends m (some p) a.pS ((a.oldArea .syscall).setV0 sys1Fail) a' ∨
    ∃ q rest, a.free = q :: rest ∧ Ends m (some p) (update a.pS q (a.states newState))
      ((a.oldArea .syscall).setV0 sys1Success) a' := by
  unfold createProcess at hs
  split at hs
  · rename_i hf
    obtain rfl := Option.some.inj hs
    refine .inl ⟨hf, ?_⟩
    rw [setSyscallV0_oldArea]
    exact .resumed _ rfl hc (by simp)
  · rename_i q rest hf
    obtain ⟨c, hq, hs⟩ := Option.bind_eq_some_iff.mp hs
    obtain rfl := Option.some.inj (hc.symm.trans hq)
    obtain rfl := Option.some.inj hs
    refine .inr ⟨q, rest, hf, ?_⟩
    rw [setSyscallV0_oldArea]
    exact .resumed _ rfl hc (by simp)

lemma verhogen_ends (hc : a.currentProcess = some p) (hs : a.verhogen s = some a') :
    Ends m (some p) a.pS (a.oldArea .syscall) a' := by
  unfold verhogen at hs
  split at hs
  · obtain rfl := Option.some.inj hs
    split
    · have hold : ((a.store s (a.mem s + 1)).wake s).oldArea = a.oldArea := by
        unfold wake
        split <;> rfl
      rw [hold]
      refine .resumed _ (wake_pS _ s) ?_ (by simp)
      rw [wake_currentProcess]
      exact hc
    · exact .resumed _ rfl hc (by simp)
  · contradiction

lemma passeren_ends (hc : a.currentProcess = some p) (hs : a.passeren m s = some a') :
    ∃ pS, a.KeepsOthers p pS ∧ Ends m (some p) pS (a.oldArea .syscall) a' := by
  unfold passeren at hs
  split at hs
  · dsimp only at hs
    split at hs
    · obtain ⟨c, hq, hs⟩ := Option.bind_eq_some_iff.mp hs
      obtain rfl := Option.some.inj (hc.symm.trans hq)
      obtain rfl := Option.some.inj hs
      refine ⟨update a.pS p (a.oldArea .syscall), .update a p _, ?_⟩
      exact block_ends (a := a.store s (a.mem s - 1))
    · obtain rfl := Option.some.inj hs
      exact ⟨_, .refl a p, .resumed _ rfl hc (by simp)⟩
  · contradiction

lemma exceptionStateVec_ends {type : Word} {old new : Addr} (hc : a.currentProcess = some p)
    (hs : a.exceptionStateVec m type old new = some a') :
    Ends m (some p) a.pS (a.oldArea .syscall) a' := by
  unfold exceptionStateVec at hs
  simp only [hc, Option.bind_eq_bind, Option.bind_some] at hs
  split at hs
  · split at hs
    · obtain rfl := Option.some.inj hs
      exact .resumed _ rfl rfl (by simp)
    · obtain rfl := Option.some.inj hs
      exact terminate_ends _
  · contradiction

lemma getCpuTime_ends (hc : a.currentProcess = some p) (hs : a.getCpuTime m = some a') :
    ∃ v, Ends m (some p) a.pS ((a.oldArea .syscall).setV0 v) a' := by
  unfold getCpuTime at hs
  obtain ⟨c, -, hs⟩ := Option.bind_eq_some_iff.mp hs
  obtain rfl := Option.some.inj hs
  refine ⟨a.pTotalTime c + (a.now m - a.processStartTime), ?_⟩
  rw [setSyscallV0_oldArea]
  exact .resumed _ rfl hc (by simp)

lemma waitForIo_ends {lineNum deviceNum termRead : Word} (hc : a.currentProcess = some p)
    (hs : a.waitForIo m lineNum deviceNum termRead = some a') :
    ∃ pS, a.KeepsOthers p pS ∧ Ends m (some p) pS (a.oldArea .syscall) a' := by
  unfold waitForIo at hs
  dsimp only at hs
  obtain ⟨c, hq, hs⟩ := Option.bind_eq_some_iff.mp hs
  obtain rfl := Option.some.inj (hc.symm.trans hq)
  split at hs
  · obtain rfl := Option.some.inj hs
    exact ⟨_, .update a p _, block_ends (a := { a with
      mem := update a.mem (m.semAddr (ioIndex lineNum deviceNum termRead).toNat)
        (a.mem (m.semAddr (ioIndex lineNum deviceNum termRead).toNat) - 1)
      softBlockCount := a.softBlockCount + 1 })⟩
  · obtain rfl := Option.some.inj hs
    refine ⟨a.pS, .refl a p, ?_⟩
    exact terminate_ends (a := a.store (m.semAddr (ioIndex lineNum deviceNum termRead).toNat)
      (a.mem (m.semAddr (ioIndex lineNum deviceNum termRead).toNat) - 1)) _

lemma passUpOrDie_ends {area : OldArea} {type : Fin trapTypes} (hc : a.currentProcess = some p)
    (hs : a.passUpOrDie m area type = some a') :
    ∃ pS, a.KeepsOthers p pS ∧ Ends m (some p) pS (a'.states (a.newAreas p type)) a' := by
  unfold passUpOrDie at hs
  simp only [hc, Option.bind_eq_bind, Option.bind_some] at hs
  split at hs
  · obtain rfl := Option.some.inj hs
    exact ⟨_, .refl a p, terminate_ends _⟩
  · obtain rfl := Option.some.inj hs
    exact ⟨_, .update a p _, .resumed _ rfl rfl (by simp)⟩

/-! ### Interrupts -/

lemma exitInterrupt_ends {c : PcbPtr} (b : Nuc) (hb : b.pS = pS) (hc : b.currentProcess = c)
    (hold : b.oldArea .interrupt = st) : Ends m c pS st (b.exitInterrupt m) := by
  subst hb hc hold
  unfold exitInterrupt
  split_ifs with hc
  · exact .dispatched b rfl (by simp [hc])
  · exact .resumed b rfl rfl hc

lemma pltInterrupt_ends (hc : a.currentProcess = some p) (hs : a.pltInterrupt m = some a') :
    Ends m (some p) a.pS (a.pS p) a' := by
  unfold pltInterrupt at hs
  simp only [hc, Option.bind_eq_bind, Option.bind_some] at hs
  obtain rfl := Option.some.inj hs
  apply Ends.dispatched
  · rfl
  · intro q hq
    obtain rfl := Option.some.inj hq
    exact .inl rfl

end Nuc

end Kaya
