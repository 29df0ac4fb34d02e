import Kaya.Abstract.Ends

/-!
# Where a process goes on

For every process the state in which it last lost the processor is written down, along the
history of a run. The nucleus agrees with these notes as long as every process that the
timer preempts is in the state that `p_s` already has.
-/

namespace Kaya

open Function Linked

lemma State.setV0_setV0 (st : State) (v w : Word) : (st.setV0 v).setV0 w = st.setV0 w := by
  simp [setV0]

/-- The state in which a process has stopped, and whether a result is returned in `v0`. -/
structure Stop where
  state : State
  returns : Bool
  deriving DecidableEq

namespace Stop

def returning (x : Stop) : Stop := { x with returns := true }

/-- A process that has stopped at `x` goes on in the state `st`. -/
def Matches (x : Stop) (st : State) : Prop :=
  st = x.state ∨ x.returns ∧ ∃ v, st = x.state.setV0 v

lemma matches_self (st : State) (b : Bool) : Matches ⟨st, b⟩ st := .inl rfl

lemma matches_setV0 (st : State) (v : Word) : Matches ⟨st, true⟩ (st.setV0 v) :=
  .inr ⟨rfl, v, rfl⟩

lemma Matches.setV0 {x : Stop} {st : State} (h : x.Matches st) (v : Word) :
    x.returning.Matches (st.setV0 v) := by
  rcases h with rfl | ⟨-, w, rfl⟩
  · exact .inr ⟨rfl, v, rfl⟩
  · exact .inr ⟨rfl, v, State.setV0_setV0 ..⟩

end Stop

/-- The events at which the nucleus gets the processor. -/
def EntersNucleus : Event → Prop
  | .syscall _ | .programTrap _ | .tlbManagement _ | .interrupt _ => True
  | _ => False

/-- Where the running process stops at an event. It goes on in the registered new area, which
the memory `states` holds afterwards, if the exception is passed up to it. -/
def lost (new : Fin trapTypes → Addr) (states : Addr → State) : Event → Option Stop
  | .syscall st =>
    if ¬ IsCall st then some ⟨states (new programTrapException), false⟩
    else if minSyscall ≤ st.sA0 ∧ st.sA0 ≤ maxSyscall then
      some ⟨st.advancePc, st.sA0 = createProcessNum ∨ st.sA0 = getCpuTimeNum⟩
    else some ⟨states (new syscallException), false⟩
  | .programTrap _ => some ⟨states (new programTrapException), false⟩
  | .tlbManagement _ => some ⟨states (new tlbException), false⟩
  | .interrupt st => some ⟨st, false⟩
  | .device _ | .writeInt _ _ | .writeState _ _ => none

/-- The process that SYS1 creates has stopped in the state the caller gives. -/
def created (free : List PcbIx) (states : Addr → State) : Event → PcbIx → Option Stop
  | .syscall st, q =>
    if IsCall st ∧ st.sA0 = createProcessNum ∧ free.head? = some q then
      some ⟨states st.sA1, false⟩
    else none
  | _, _ => none

/-- The process to which an interrupt returns the status of a device. -/
def served (m : Machine) (mem : Addr → Int) (waiters : Addr → List PcbIx) (bus : Bus)
    (e : Event) : Option PcbIx := do
  let (line, devNum) ← servedDevice bus e
  let s := deviceSem m line devNum (bus.devreg line devNum)
  if mem s + 1 ≤ 0 then (waiters s).head? else none

/-- The notes `x` after an event. -/
def nextStops (c : PcbPtr) (lost created : PcbIx → Option Stop) (served : Option PcbIx)
    (x : PcbIx → Option Stop) (q : PcbIx) : Option Stop :=
  if c = some q then (lost q).or (x q)
  else (created q).or (if served = some q then (x q).map .returning else x q)

namespace Nuc

variable {m : Machine} {a a' : Nuc} {e : Event} {p : PcbIx} {x : PcbIx → Option Stop}
  {pS : PcbIx → State} {st : State}

/-- Every process off the processor is in the state in which it has stopped. -/
def Saved (a : Nuc) (x : PcbIx → Option Stop) : Prop :=
  ∀ q, q ∉ a.free → a.currentProcess ≠ some q → ∃ y, x q = some y ∧ y.Matches (a.pS q)

/-- The process on the processor goes on in the state in which it has stopped. -/
def Resumed (a : Nuc) (x : PcbIx → Option Stop) : Prop :=
  ∀ q st, a.currentProcess = some q → a.cpu = .running st → ∃ y, x q = some y ∧ y.Matches st

/-- The states `pS` of the processes other than `p` are as before, save for the child that
the event creates. -/
def Hands (a : Nuc) (p : PcbIx) (e : Event) (pS : PcbIx → State) : Prop :=
  ∀ q, q ≠ p → match created a.free a.states e q with
    | none => pS q = a.pS q
    | some y => y.Matches (pS q)

lemma KeepsOthers.hands (h : a.KeepsOthers p pS)
    (he : ∀ q, created a.free a.states e q = none) : a.Hands p e pS := by
  intro q hq
  rw [he q]
  exact h q hq

lemma dispatch_currentProcess : (a.dispatch m).currentProcess = a.ready.head? := by
  unfold dispatch
  split
  · split_ifs <;> simp_all
  · simp_all

lemma dispatch_cpu (hc : (a.dispatch m).currentProcess = some p) :
    (a.dispatch m).cpu = .running (a.pS p) := by
  unfold dispatch at hc ⊢
  split at hc
  · split_ifs at hc
  · obtain rfl := Option.some.inj hc
    rfl

lemma Ends.saved {c : PcbPtr} (h : Ends m c pS st a') (hi : a'.Inv)
    (hothers : ∀ q, q ∉ a'.free → c ≠ some q → ∃ y, x q = some y ∧ y.Matches (pS q))
    (hst : ∀ p, c = some p → ∃ y, x p = some y ∧ y.Matches st) :
    a'.Saved x ∧ a'.Resumed x := by
  cases h with
  | resumed b hb hc hn =>
    subst hb hc
    refine ⟨hothers, ?_⟩
    rintro q st' hq hst'
    obtain rfl := Cpu.running.inj hst'
    exact hst q hq
  | dispatched b hb hp =>
    have hall : ∀ q, q ∉ (b.dispatch m).free → ∃ y, x q = some y ∧ y.Matches (pS q) := by
      intro q hq
      by_cases hc : c = some q
      · rcases hp q hc with hs | hf
        · rw [hs]
          exact hst q hc
        · rw [dispatch_free] at hq
          exact absurd hf hq
      · exact hothers q hq hc
    constructor
    · intro q hq _
      rw [dispatch_pS, hb]
      exact hall q hq
    · intro q st' hq hst'
      rw [dispatch_cpu hq, hb] at hst'
      obtain rfl := Cpu.running.inj hst'
      exact hall q (hi.homeless hq).free

lemma lost_call (hcall : IsCall st) (h : minSyscall ≤ st.sA0 ∧ st.sA0 ≤ maxSyscall)
    (new : Fin trapTypes → Addr) (states : Addr → State) :
    lost new states (.syscall st) =
      some ⟨st.advancePc, st.sA0 = createProcessNum ∨ st.sA0 = getCpuTimeNum⟩ := by
  unfold lost
  dsimp only
  rw [if_neg (not_not_intro hcall), if_pos h]

lemma created_none (h : st.sA0 ≠ createProcessNum) (free : List PcbIx) (states : Addr → State)
    (q : PcbIx) : created free states (.syscall st) q = none := by
  unfold created
  exact if_neg fun hc => h hc.2.1

lemma call_cases {n : Word} (h : minSyscall ≤ n ∧ n ≤ maxSyscall) :
    n = createProcessNum ∨ n = terminateProcessNum ∨ n = verhogenNum ∨ n = passerenNum ∨
      n = exceptionStateVecNum ∨ n = getCpuTimeNum ∨ n = waitForClockNum ∨ n = waitForIoNum := by
  unfold minSyscall maxSyscall at h
  unfold createProcessNum terminateProcessNum verhogenNum passerenNum exceptionStateVecNum
    getCpuTimeNum waitForClockNum waitForIoNum
  bv_omega

lemma service_ends (hcall : IsCall st) (hold : a.oldArea .syscall = st.advancePc)
    (hc : a.currentProcess = some p) (hs : a.service m st = some a') :
    ∃ pS st', Ends m (some p) pS st' a' ∧ a.Hands p (.syscall st) pS ∧
      ∃ y, lost (a.newAreas p) a'.states (.syscall st) = some y ∧ y.Matches st' := by
  have hplain : ∀ {n : Word} {pS}, st.sA0 = n → minSyscall ≤ n ∧ n ≤ maxSyscall →
      n ≠ createProcessNum → a.KeepsOthers p pS → Ends m (some p) pS st.advancePc a' →
      ∃ pS st', Ends m (some p) pS st' a' ∧ a.Hands p (.syscall st) pS ∧
        ∃ y, lost (a.newAreas p) a'.states (.syscall st) = some y ∧ y.Matches st' := by
    intro n pS hn hrange hne hk he
    subst hn
    exact ⟨pS, _, he, hk.hands (created_none hne _ _), _, lost_call hcall hrange _ _, .inl rfl⟩
  unfold service at hs
  split_ifs at hs with h1 h2 h3 h4 h5 h6 h7 h8
  · have hl := lost_call hcall (by rw [h1]; decide) (a.newAreas p) a'.states
    rcases createProcess_ends hc hs with ⟨hf, he⟩ | ⟨q, rest, hf, he⟩
    · rw [hold] at he
      refine ⟨_, _, he, (KeepsOthers.refl a p).hands ?_, _, hl, ?_⟩
      · intro q
        unfold created
        exact if_neg (by simp [hf])
      · simp only [h1, true_or, decide_true]
        exact Stop.matches_setV0 ..
    · rw [hold] at he
      refine ⟨_, _, he, ?_, _, hl, ?_⟩
      · intro r hr
        unfold created
        by_cases hq : q = r
        · subst hq
          simp [hcall, h1, hf, Stop.matches_self]
        · simp [hf, hq, update_of_ne (Ne.symm hq)]
      · simp only [h1, true_or, decide_true]
        exact Stop.matches_setV0 ..
  · rw [hc] at hs
    obtain rfl := Option.some.inj hs
    exact hplain h2 (by decide) (by decide) (.refl a p) (terminate_ends _)
  · exact hplain h3 (by decide) (by decide) (.refl a p) (hold ▸ verhogen_ends hc hs)
  · obtain ⟨pS, hk, he⟩ := passeren_ends hc hs
    exact hplain h4 (by decide) (by decide) hk (hold ▸ he)
  · exact hplain h5 (by decide) (by decide) (.refl a p) (hold ▸ exceptionStateVec_ends hc hs)
  · obtain ⟨v, he⟩ := getCpuTime_ends hc hs
    rw [hold] at he
    refine ⟨_, _, he, (KeepsOthers.refl a p).hands (created_none h1 _ _), _,
      lost_call hcall (by rw [h6]; decide) _ _, ?_⟩
    simp only [h6, or_true, decide_true]
    exact Stop.matches_setV0 ..
  · obtain ⟨pS, hk, he⟩ := passeren_ends (a := { a with softBlockCount := a.softBlockCount + 1 })
      hc hs
    exact hplain h7 (by decide) (by decide) hk (hold ▸ he)
  · obtain ⟨pS, hk, he⟩ := waitForIo_ends hc hs
    exact hplain h8 (by decide) (by decide) hk (hold ▸ he)
  · obtain ⟨pS, hk, he⟩ := passUpOrDie_ends hc hs
    refine ⟨pS, _, he, hk.hands (created_none h1 _ _), ⟨_, false⟩, ?_, .inl rfl⟩
    unfold lost
    dsimp only
    rw [if_neg (not_not_intro hcall), if_neg]
    intro hrange
    have hcases := call_cases hrange
    tauto

lemma syscallHandler_ends (hold : a.oldArea .syscall = st) (hc : a.currentProcess = some p)
    (hs : a.syscallHandler m = some a') :
    ∃ pS st', Ends m (some p) pS st' a' ∧ a.Hands p (.syscall st) pS ∧
      ∃ y, lost (a.newAreas p) a'.states (.syscall st) = some y ∧ y.Matches st' := by
  unfold syscallHandler at hs
  rw [hold] at hs
  by_cases hcall : IsCall st
  · rw [if_neg hcall] at hs
    have he := service_ends (a := { a with oldArea := update a.oldArea .syscall st.advancePc })
      hcall (by simp) hc hs
    exact he
  · rw [if_pos (not_not.mp hcall)] at hs
    obtain ⟨pS, hk, he⟩ := passUpOrDie_ends (a := { a with
      oldArea := update a.oldArea .programTrap { st with sCause := allOff ||| priviledgedInstr } })
      hc hs
    refine ⟨pS, _, he, ?_, ⟨_, false⟩, ?_, .inl rfl⟩
    · apply KeepsOthers.hands (a := a) hk
      intro q
      unfold created
      exact if_neg fun h => hcall h.1
    · unfold lost
      exact if_pos hcall

lemma exception_ends (hc : a.currentProcess = some p) (hs : a.step m e = some a')
    (he : EntersNucleus e) (hi : ∀ st, e ≠ .interrupt st) :
    ∃ pS st', Ends m (some p) pS st' a' ∧ a.Hands p e pS ∧
      ∃ y, lost (a.newAreas p) a'.states e = some y ∧ y.Matches st' := by
  cases e with
  | syscall st =>
    have hend := syscallHandler_ends (a := { a with oldArea := update a.oldArea .syscall st })
      (show update a.oldArea .syscall st .syscall = st from update_self ..) hc hs
    exact hend
  | programTrap st =>
    obtain ⟨pS, hk, hend⟩ := passUpOrDie_ends
      (a := { a with oldArea := update a.oldArea .programTrap st }) hc hs
    exact ⟨pS, _, hend, KeepsOthers.hands (a := a) hk fun _ => rfl, ⟨_, false⟩, rfl, .inl rfl⟩
  | tlbManagement st =>
    obtain ⟨pS, hk, hend⟩ := passUpOrDie_ends
      (a := { a with oldArea := update a.oldArea .tlbManagement st }) hc hs
    exact ⟨pS, _, hend, KeepsOthers.hands (a := a) hk fun _ => rfl, ⟨_, false⟩, rfl, .inl rfl⟩
  | interrupt st => exact absurd rfl (hi st)
  | _ => exact he.elim

lemma deliver_pS (a : Nuc) (s : Addr) (status : Word) (q : PcbIx) :
    (a.deliver s status).pS q =
      if (a.blocked s).head? = some q then (a.pS q).setV0 status else a.pS q := by
  unfold deliver
  cases hb : a.blocked s with
  | nil => simp
  | cons p rest =>
    by_cases hq : q = p
    · subst hq
      simp
    · simp [hq, Ne.symm hq]

/-- The process served gets a result in `v0`, all others keep their states. -/
def Delivers (a : Nuc) (w : Option PcbIx) (pS : PcbIx → State) : Prop :=
  ∀ q, if w = some q then ∃ v, pS q = (a.pS q).setV0 v else pS q = a.pS q

lemma deviceInterrupt_delivers (line : Fin devIntNum) (devNum : Fin numDevicesPerType) :
    let s := deviceSem m line devNum (a.bus.devreg line devNum)
    a.Delivers (if a.mem s + 1 ≤ 0 then (a.blocked s).head? else none)
      (a.deviceInterrupt m line devNum).pS := by
  intro s q
  unfold deviceInterrupt
  dsimp only
  have hmem : (a.store s (a.mem s + 1)).mem s = a.mem s + 1 := update_self ..
  rw [hmem]
  by_cases hv : a.mem s + 1 ≤ 0
  · rw [if_pos hv, if_pos hv]
    have hpS := deliver_pS (a.store s (a.mem s + 1)) s
      (returnedStatus (line.val + initialDevLineNum) (a.bus.devreg line devNum)) q
    split_ifs with hq
    · exact ⟨_, hpS.trans (if_pos hq)⟩
    · exact hpS.trans (if_neg hq)
  · rw [if_neg hv, if_neg hv, if_neg (by simp)]
    rfl

lemma deviceInterrupt_currentProcess (line : Fin devIntNum) (devNum : Fin numDevicesPerType) :
    (a.deviceInterrupt m line devNum).currentProcess = a.currentProcess := by
  unfold deviceInterrupt deliver
  dsimp only
  split_ifs
  · split <;> rfl
  · rfl

lemma deviceInterrupt_oldArea (line : Fin devIntNum) (devNum : Fin numDevicesPerType) :
    (a.deviceInterrupt m line devNum).oldArea = a.oldArea := by
  unfold deviceInterrupt deliver
  dsimp only
  split_ifs
  · split <;> rfl
  · rfl

lemma interruptHandler_ends (hold : a.oldArea .interrupt = st)
    (hs : a.interruptHandler m = some a') :
    ∃ pS st', Ends m a.currentProcess pS st' a' ∧
      a.Delivers (served m a.mem a.blocked a.bus (.interrupt st)) pS ∧
      (st' = st ∨ determineLine st.sCause = some pltLine ∧
        ∃ p, a.currentProcess = some p ∧ st' = a.pS p) := by
  have hnone : ∀ {w}, w = none → a.Delivers w a.pS := by
    intro w hw q
    rw [hw, if_neg (by simp)]
  unfold interruptHandler at hs
  rw [hold] at hs
  obtain ⟨lineNum, hl, hs⟩ := Option.bind_eq_some_iff.mp hs
  split_ifs at hs with hp hi
  · subst hp
    cases hc : a.currentProcess with
    | none =>
      simp [pltInterrupt, hc] at hs
    | some p =>
      refine ⟨a.pS, a.pS p, pltInterrupt_ends hc hs, hnone ?_, .inr ⟨hl, p, rfl, rfl⟩⟩
      simp [served, servedDevice, hl, show deviceLine pltLine = none by decide]
  · subst hi
    obtain ⟨b, hb, hs⟩ := Option.bind_eq_some_iff.mp hs
    obtain rfl := Option.some.inj hs
    unfold itInterrupt at hb
    dsimp only at hb
    split_ifs at hb
    obtain rfl := Option.some.inj hb
    refine ⟨a.pS, st, ?_, hnone ?_, .inl rfl⟩
    · exact exitInterrupt_ends _ rfl rfl hold
    · simp [served, servedDevice, hl, show deviceLine itLine = none by decide]
  · obtain ⟨line, hline, hs⟩ := Option.bind_eq_some_iff.mp hs
    obtain ⟨devNum, hdev, hs⟩ := Option.bind_eq_some_iff.mp hs
    split_ifs at hs with hlt
    obtain rfl := Option.some.inj hs
    have hd := deviceInterrupt_delivers (m := m) (a := a) line ⟨devNum, hlt⟩
    refine ⟨(a.deviceInterrupt m line ⟨devNum, hlt⟩).pS, st, ?_, ?_, .inl rfl⟩
    · apply exitInterrupt_ends
      · rfl
      · exact deviceInterrupt_currentProcess ..
      · rw [deviceInterrupt_oldArea, hold]
    · simpa [served, servedDevice, hl, hline, hdev, hlt] using hd

/-- Without a process on the processor nobody is ready, and the processor halts, panics or
waits as the counts say. -/
def Settled (a : Nuc) : Prop :=
  a.currentProcess = none → a.ready = [] ∧
    (a.processCount ≠ 0 → if a.softBlockCount = 0 then a.cpu = .panicked
      else ∃ status, a.cpu = .waiting status)

lemma Ends.settled {c : PcbPtr} (h : Ends m c pS st a') : a'.Settled := by
  cases h with
  | resumed b hb hc hn => exact fun hnone => absurd (hc.symm.trans hnone) hn
  | dispatched b hb hp =>
    intro hc
    rw [dispatch_currentProcess, List.head?_eq_none_iff] at hc
    unfold dispatch
    rw [hc]
    dsimp only
    by_cases h0 : b.processCount = 0
    · rw [if_pos h0]
      exact ⟨rfl, fun hne => absurd h0 hne⟩
    · by_cases h1 : b.softBlockCount = 0
      · rw [if_neg h0, if_pos h1]
        exact ⟨rfl, fun _ => by rw [if_pos h1]⟩
      · rw [if_neg h0, if_neg h1]
        exact ⟨rfl, fun _ => by rw [if_neg h1]; exact ⟨_, rfl⟩⟩

/-- A step runs a handler to its end, or it leaves the processor alone. -/
lemma step_ends (hg : a.Good) (hrun : FromProcess e → a.cpu.IsRunning)
    (hs : a.step m e = some a') :
    (∃ c pS st, Ends m c pS st a') ∨ ∃ bus mem states, a' = { a with bus, mem, states } := by
  have hexc : EntersNucleus e → (∀ st, e ≠ .interrupt st) → FromProcess e →
      ∃ c pS st, Ends m c pS st a' := by
    intro he hi hp
    obtain ⟨p, hc⟩ := Option.ne_none_iff_exists'.mp (hg.onCpu.mp (hrun hp))
    obtain ⟨pS, st', hend, -⟩ := exception_ends hc hs he hi
    exact ⟨_, pS, st', hend⟩
  cases e with
  | syscall st => exact .inl (hexc trivial (by simp) trivial)
  | programTrap st => exact .inl (hexc trivial (by simp) trivial)
  | tlbManagement st => exact .inl (hexc trivial (by simp) trivial)
  | interrupt st =>
    obtain ⟨pS, st', hend, -⟩ := interruptHandler_ends
      (a := { a with oldArea := update a.oldArea .interrupt st })
      (show update a.oldArea .interrupt st .interrupt = st from update_self ..) hs
    exact .inl ⟨_, pS, st', hend⟩
  | device bus => exact .inr ⟨bus, a.mem, a.states, (Option.some.inj hs).symm⟩
  | writeInt s v => exact .inr ⟨a.bus, _, a.states, (Option.some.inj hs).symm⟩
  | writeState s st => exact .inr ⟨a.bus, a.mem, _, (Option.some.inj hs).symm⟩

lemma step_settled (hg : a.Good) (hrun : FromProcess e → a.cpu.IsRunning)
    (hs : a.step m e = some a') (h : a.Settled) : a'.Settled := by
  rcases step_ends hg hrun hs with ⟨c, pS, st, hend⟩ | ⟨bus, mem, states, rfl⟩
  · exact hend.settled
  · exact h

/-! ### The notes agree -/

/-- The notes after a step. -/
def stops (m : Machine) (a a' : Nuc) (e : Event) (x : PcbIx → Option Stop) : PcbIx → Option Stop :=
  nextStops a.currentProcess (fun q => lost (a.newAreas q) a'.states e)
    (created a.free a.states e) (served m a.mem a.blocked a.bus e) x

lemma create_of_mem_entries (h : .create ∈ a.entries m e) :
    ∃ st, e = .syscall st ∧ IsCall st ∧ st.sA0 = createProcessNum := by
  have hprocess : ∀ {p}, .create ∈ a.processEntries m p e →
      ∃ st, e = .syscall st ∧ IsCall st ∧ st.sA0 = createProcessNum := by
    intro p hp
    unfold processEntries at hp
    cases e with
    | syscall st =>
      dsimp only at hp
      split_ifs at hp with hcall
      · refine ⟨st, rfl, hcall, ?_⟩
        unfold callEntries at hp
        by_contra h1
        rw [if_neg h1] at hp
        split_ifs at hp <;> simp at hp
      · simp at hp
    | _ => simp at hp
  unfold entries at h
  cases e with
  | interrupt st =>
    dsimp only at h
    split at h
    · cases h
    · unfold lineEntries at h
      split_ifs at h
      · cases h
      · simp at h
      · split at h
        · cases h
        · split at h
          · cases h
          · split_ifs at h <;> simp at h
  | device bus => cases h
  | writeInt s v => simp at h
  | writeState s st => cases h
  | _ =>
    dsimp only at h
    split at h
    · cases h
    · exact hprocess h

lemma mem_free_postAll {l : List Entry} {b : Books} {q : PcbIx} (hl : .create ∉ l)
    (hq : q ∈ b.free) : q ∈ (b.postAll m l).free := by
  induction l generalizing b with
  | nil => exact hq
  | cons y l ih =>
    apply ih (b := Entry.post m b y) (fun h => hl (List.mem_cons_of_mem _ h))
    cases y with
    | create => simp at hl
    | kill dead => exact List.mem_append_left _ hq
    | _ => exact hq

lemma free_step (hg : a.Good) (hrun : FromProcess e → a.cpu.IsRunning) (hsafe : a.Safe m e)
    (hs : a.step m e = some a') {q : PcbIx} (hq : q ∈ a.free) :
    q ∈ a'.free ∨ ∃ y, created a.free a.states e q = some y := by
  have hfree : a'.free = a'.books.free := rfl
  rw [step_books hg hrun hsafe hs] at hfree
  by_cases hcreate : .create ∈ a.entries m e
  · obtain ⟨st, rfl, hcall, h1⟩ := create_of_mem_entries hcreate
    obtain ⟨p, hc⟩ := Option.ne_none_iff_exists'.mp (hg.onCpu.mp (hrun trivial))
    cases hf : a.free with
    | nil => simp [hf] at hq
    | cons r rest =>
      rw [hf, List.mem_cons] at hq
      rcases hq with rfl | hq
      · right
        unfold created
        exact ⟨_, if_pos ⟨hcall, h1, rfl⟩⟩
      · left
        have he : a.entries m (.syscall st) = [.create, .kill (a.deaths m (.syscall st) p)] := by
          unfold entries
          simp [hc, processEntries, hcall, callEntries, h1]
        rw [hfree, he]
        apply List.mem_append_left
        change q ∈ a.free.tail
        rw [hf]
        exact hq
  · left
    rw [hfree]
    exact mem_free_postAll hcreate hq

lemma stops_exception (hend : ∃ pS st', Ends m (some p) pS st' a' ∧ a.Hands p e pS ∧
      ∃ y, lost (a.newAreas p) a'.states e = some y ∧ y.Matches st')
    (hc : a.currentProcess = some p) (hi : a'.Inv)
    (hfree : ∀ q ∈ a.free, q ∈ a'.free ∨ ∃ y, created a.free a.states e q = some y)
    (hw : served m a.mem a.blocked a.bus e = none) (hx : a.Saved x) :
    a'.Saved (a.stops m a' e x) ∧ a'.Resumed (a.stops m a' e x) := by
  obtain ⟨pS, st', he, hh, y, hl, hy⟩ := hend
  apply he.saved hi
  · intro q hq hne
    have hqp : q ≠ p := fun h => hne (h ▸ rfl)
    have hstop : a.stops m a' e x q = (created a.free a.states e q).or (x q) := by
      unfold stops nextStops
      rw [hc, if_neg hne, hw, if_neg (by simp)]
    have hpS := hh q hqp
    rw [hstop]
    cases hcr : created a.free a.states e q with
    | some z =>
      rw [hcr] at hpS
      exact ⟨z, rfl, hpS⟩
    | none =>
      rw [hcr] at hpS
      have hqf : q ∉ a.free := by
        intro hqf
        rcases hfree q hqf with h | ⟨z, hz⟩
        · exact hq h
        · rw [hcr] at hz
          cases hz
      rw [hpS]
      exact hx q hqf (hc ▸ hne)
  · intro q hq
    obtain rfl := Option.some.inj hq
    refine ⟨y, ?_, hy⟩
    unfold stops nextStops
    rw [if_pos hc]
    dsimp only
    rw [hl]
    rfl

/-- A step keeps the notes right, provided the timer preempts a process only in the state that
`p_s` has. -/
theorem stops_step (hg : a.Good) (hrun : FromProcess e → a.cpu.IsRunning) (hsafe : a.Safe m e)
    (hs : a.step m e = some a')
    (hplt : ∀ st p, e = .interrupt st → determineLine st.sCause = some pltLine →
      a.currentProcess = some p → a.pS p = st) (hx : a.Saved x) :
    a'.Saved (a.stops m a' e x) ∧ (EntersNucleus e → a'.Resumed (a.stops m a' e x)) := by
  have hi' := (step_good hg hrun hsafe hs).inv
  have hfree : ∀ q ∈ a.free, q ∈ a'.free ∨ ∃ y, created a.free a.states e q = some y :=
    fun q hq => free_step hg hrun hsafe hs hq
  have hcur : FromProcess e → ∃ p, a.currentProcess = some p := fun he =>
    Option.ne_none_iff_exists'.mp (hg.onCpu.mp (hrun he))
  have hquiet : (∀ q, lost (a.newAreas q) a'.states e = none) →
      (∀ q, created a.free a.states e q = none) → served m a.mem a.blocked a.bus e = none →
      a.stops m a' e x = x := by
    intro hl hc hw
    funext q
    unfold stops nextStops
    simp [hl, hc, hw]
  cases e with
  | device bus =>
    obtain rfl := Option.some.inj hs
    rw [hquiet (fun _ => rfl) (fun _ => rfl) rfl]
    exact ⟨hx, False.elim⟩
  | writeInt s v =>
    obtain rfl := Option.some.inj hs
    rw [hquiet (fun _ => rfl) (fun _ => rfl) rfl]
    exact ⟨hx, False.elim⟩
  | writeState s st =>
    obtain rfl := Option.some.inj hs
    rw [hquiet (fun _ => rfl) (fun _ => rfl) rfl]
    exact ⟨hx, False.elim⟩
  | interrupt st =>
    obtain ⟨pS, st', he, hd, hst⟩ := interruptHandler_ends
      (a := { a with oldArea := update a.oldArea .interrupt st })
      (show update a.oldArea .interrupt st .interrupt = st from update_self ..) hs
    obtain rfl : st = st' := by
      rcases hst with rfl | ⟨hl, p, hc, rfl⟩
      · rfl
      · exact (hplt st p rfl hl hc).symm
    have hsaved := he.saved (x := a.stops m a' (.interrupt st) x) hi' ?_ ?_
    · exact ⟨hsaved.1, fun _ => hsaved.2⟩
    · intro q hq hne
      have hqf : q ∉ a.free := fun hqf => (hfree q hqf).elim hq fun ⟨_, h⟩ => by cases h
      obtain ⟨y, hy, hm⟩ := hx q hqf hne
      have hstop : a.stops m a' (.interrupt st) x q =
          if served m a.mem a.blocked a.bus (.interrupt st) = some q then (x q).map .returning
          else x q := by
        unfold stops nextStops
        rw [if_neg hne]
        rfl
      have hpS : if served m a.mem a.blocked a.bus (.interrupt st) = some q then
          ∃ v, pS q = (a.pS q).setV0 v else pS q = a.pS q := hd q
      rw [hstop, hy]
      split_ifs at hpS ⊢ with hw
      · obtain ⟨v, hv⟩ := hpS
        rw [hv]
        exact ⟨y.returning, rfl, hm.setV0 v⟩
      · rw [hpS]
        exact ⟨y, rfl, hm⟩
    · intro q hq
      refine ⟨⟨st, false⟩, ?_, .inl rfl⟩
      unfold stops nextStops
      rw [if_pos hq]
      rfl
  | syscall st =>
    obtain ⟨p, hc⟩ := hcur trivial
    have hsaved := stops_exception (exception_ends hc hs trivial (by simp)) hc hi' hfree rfl hx
    exact ⟨hsaved.1, fun _ => hsaved.2⟩
  | programTrap st =>
    obtain ⟨p, hc⟩ := hcur trivial
    have hsaved := stops_exception (exception_ends hc hs trivial (by simp)) hc hi' hfree rfl hx
    exact ⟨hsaved.1, fun _ => hsaved.2⟩
  | tlbManagement st =>
    obtain ⟨p, hc⟩ := hcur trivial
    have hsaved := stops_exception (exception_ends hc hs trivial (by simp)) hc hi' hfree rfl hx
    exact ⟨hsaved.1, fun _ => hsaved.2⟩

end Nuc

end Kaya
