import Kaya.Abstract.Resume
import Kaya.Abstract.Served

/-!
# What the nucleus asks of its callers

Every handler comes to its end as long as the arguments of a syscall stay within what it accesses
with them, and an interrupt finds the process it charges.
-/

namespace Kaya

open Function Linked

/-- Where the RAM begins. -/
def ramStart : Nat := 0x20000000

/-- `size` bytes from a word of the RAM on. -/
def Machine.InRam (m : Machine) (a : Addr) (size : Nat) : Prop :=
  Aligned a ∧ ramStart ≤ a.toNat ∧ a.toNat + size ≤ m.ramtop.toNat

instance (m : Machine) (a : Addr) (size : Nat) : Decidable (m.InRam a size) :=
  inferInstanceAs (Decidable (_ ∧ _ ∧ _))

/-- States and semaphores are in the RAM, an exception type is one of the three, and SYS8 names an
element of `semaphoreArray`. -/
structure ProperCall (m : Machine) (st : State) : Prop where
  newState : st.sA0 = createProcessNum → m.InRam st.sA1 stateSize
  semaphore : st.sA0 = verhogenNum ∨ st.sA0 = passerenNum → m.InRam st.sA1 4
  exceptionType : st.sA0 = exceptionStateVecNum → st.sA1.toNat < trapTypes
  areas : st.sA0 = exceptionStateVecNum → ∀ area ∈ [st.sA2, st.sA3],
    area = null ∨ m.InRam area stateSize
  device : st.sA0 = waitForIoNum → m.InSemaphoreArray (ioSem m st)

/-- In user mode the arguments of the first eight syscalls are not looked at. -/
def Proper (m : Machine) : Event → Prop
  | .syscall st => IsCall st → ProperCall m st
  | _ => True

/-- SYS3 or SYS4 on an address that no `int` has. -/
def Misaligned : Event → Prop
  | .syscall st => IsCall st ∧ (st.sA0 = verhogenNum ∨ st.sA0 = passerenNum) ∧ ¬ Aligned st.sA1
  | _ => False

instance : DecidablePred Misaligned
  | .syscall st => inferInstanceAs (Decidable (IsCall st ∧ _ ∧ ¬ Aligned st.sA1))
  | .programTrap _ | .tlbManagement _ | .interrupt _ | .device _ | .writeInt _ _
  | .writeState _ _ => .isFalse id

/-- The syscall is one that the tables of the model answer. -/
def AnsweredCall (st : State) : Prop :=
  if st.sA0 = verhogenNum ∨ st.sA0 = passerenNum then Aligned st.sA1
  else if st.sA0 = exceptionStateVecNum then st.sA1.toNat < trapTypes
  else True

def Answered : Event → Prop
  | .syscall st => IsCall st → AnsweredCall st
  | _ => True

lemma Proper.answered {m : Machine} {e : Event} (h : Proper m e) : Answered e := by
  cases e with
  | syscall st =>
    intro hcall
    have hp := h hcall
    unfold AnsweredCall
    split_ifs with h34 h5
    · exact (hp.semaphore h34).1
    · exact hp.exceptionType h5
  | _ => trivial

lemma Misaligned.not_answered {e : Event} (h : Misaligned e) : ¬ Answered e := by
  cases e with
  | syscall st =>
    obtain ⟨hcall, h34, hal⟩ := h
    intro ha
    have hs := ha hcall
    rw [AnsweredCall, if_pos h34] at hs
    exact hal hs
  | _ => exact h.elim

namespace Nuc

variable {m : Machine} {a a' : Nuc} {p : PcbIx} {s : Addr} {st : State} {e : Event}

lemma passeren_isSome_iff (hc : a.currentProcess = some p) :
    (a.passeren m s).isSome ↔ Aligned s := by
  unfold passeren
  by_cases hs : Aligned s
  · rw [if_pos hs]
    refine iff_of_true ?_ hs
    dsimp only
    split
    · simp [hc, store]
    · rfl
  · rw [if_neg hs]
    exact iff_of_false (by simp) hs

lemma verhogen_isSome_iff : (a.verhogen s).isSome ↔ Aligned s := by
  unfold verhogen
  by_cases hs : Aligned s <;> simp [hs]

lemma exceptionStateVec_isSome_iff {type : Word} {old new : Addr}
    (hc : a.currentProcess = some p) :
    (a.exceptionStateVec m type old new).isSome ↔ type.toNat < trapTypes := by
  unfold exceptionStateVec
  by_cases ht : type.toNat < trapTypes
  · refine iff_of_true ?_ ht
    simp only [hc, Option.bind_eq_bind, Option.bind_some, dif_pos ht]
    split <;> rfl
  · exact iff_of_false (by simp [hc, ht]) ht

lemma waitForIo_isSome {lineNum deviceNum termRead : Word} (hc : a.currentProcess = some p) :
    (a.waitForIo m lineNum deviceNum termRead).isSome := by
  unfold waitForIo
  simp only [store, hc, Option.bind_eq_bind, Option.bind_some]
  split <;> rfl

lemma passUpOrDie_isSome {area : OldArea} {type : Fin trapTypes}
    (hc : a.currentProcess = some p) : (a.passUpOrDie m area type).isSome := by
  unfold passUpOrDie
  simp only [hc, Option.bind_eq_bind, Option.bind_some]
  split <;> rfl

lemma createProcess_isSome {newState : Addr} (hc : a.currentProcess = some p) :
    (a.createProcess newState).isSome := by
  unfold createProcess
  split
  · rfl
  · simp [hc]

lemma service_isSome_iff (hc : a.currentProcess = some p) :
    (a.service m st).isSome ↔ AnsweredCall st := by
  have hplain (h3 : st.sA0 ≠ verhogenNum) (h4 : st.sA0 ≠ passerenNum)
      (h5 : st.sA0 ≠ exceptionStateVecNum) : AnsweredCall st := by
    rw [AnsweredCall, if_neg (not_or.mpr ⟨h3, h4⟩), if_neg h5]
    trivial
  unfold service
  split_ifs with h1 h2 h3 h4 h5 h6 h7 h8
  · refine iff_of_true (createProcess_isSome hc) (hplain ?_ ?_ ?_) <;> rw [h1] <;> decide
  · refine iff_of_true (by simp [hc]) (hplain ?_ ?_ ?_) <;> rw [h2] <;> decide
  · rw [verhogen_isSome_iff, AnsweredCall, if_pos (.inl h3)]
  · rw [passeren_isSome_iff hc, AnsweredCall, if_pos (.inr h4)]
  · rw [exceptionStateVec_isSome_iff hc, AnsweredCall, if_neg (not_or.mpr ⟨h3, h4⟩), if_pos h5]
  · exact iff_of_true (by simp [getCpuTime, hc]) (hplain h3 h4 h5)
  · refine iff_of_true ?_ (hplain h3 h4 h5)
    exact (passeren_isSome_iff (a := { a with softBlockCount := a.softBlockCount + 1 }) hc).mpr
      (m.aligned_semAddr _)
  · exact iff_of_true (waitForIo_isSome hc) (hplain h3 h4 h5)
  · exact iff_of_true (passUpOrDie_isSome hc) (hplain h3 h4 h5)

/-- The interrupt has a pending line, and the local timer finds a process to charge. -/
structure Interrupts (a : Nuc) (st : State) (lineNum : Nat) : Prop where
  line : determineLine st.sCause = some lineNum
  pos : 0 < lineNum
  charged : lineNum = pltLine → a.currentProcess ≠ none
  device : ∀ line, deviceLine lineNum = some line →
    determineDevice (a.bus.interruptDev line) ≠ none

lemma interruptHandler_isSome {lineNum : Nat} (hold : a.oldArea .interrupt = st)
    (hi : a.Interrupts st lineNum) (hbal : (a.clockSem m).Balanced) :
    (a.interruptHandler m).isSome := by
  unfold interruptHandler
  rw [hold, hi.line]
  simp only [Option.bind_eq_bind, Option.bind_some]
  split_ifs with hplt hit
  · obtain ⟨p, hc⟩ := Option.ne_none_iff_exists'.mp (hi.charged hplt)
    simp [pltInterrupt, hc]
  · obtain ⟨b, hb⟩ := itInterrupt_of_balanced hbal
    rw [hb]
    rfl
  · obtain ⟨line, hline⟩ := exists_deviceLine hi.pos (determineLine_lt hi.line) hplt hit
    obtain ⟨devNum, hdev⟩ := Option.ne_none_iff_exists'.mp (hi.device line hline)
    simp [hline, hdev, determineDevice_lt hdev]

/-- A handler of the nucleus on lists comes to its end exactly on answered arguments. -/
theorem step_isSome_iff (hg : a.Good) (hrun : FromProcess e → a.cpu.IsRunning)
    (hbal : (a.clockSem m).Balanced)
    (hi : ∀ st, e = .interrupt st → ∃ lineNum, a.Interrupts st lineNum) :
    (a.step m e).isSome ↔ Answered e := by
  have hcur : FromProcess e → ∃ p, a.currentProcess = some p := fun he =>
    Option.ne_none_iff_exists'.mp (hg.onCpu.mp (hrun he))
  cases e with
  | syscall st =>
    obtain ⟨p, hc⟩ := hcur trivial
    have hold : update a.oldArea .syscall st .syscall = st := update_self ..
    simp only [step, syscallHandler, hold]
    by_cases hcall : IsCall st
    · rw [if_neg hcall]
      refine (service_isSome_iff (p := p) ?_).trans ⟨fun h _ => h, fun h => h hcall⟩
      exact hc
    · rw [if_pos (not_not.mp hcall)]
      exact iff_of_true (passUpOrDie_isSome hc) fun h => absurd h hcall
  | programTrap st =>
    obtain ⟨p, hc⟩ := hcur trivial
    exact iff_of_true (passUpOrDie_isSome hc) trivial
  | tlbManagement st =>
    obtain ⟨p, hc⟩ := hcur trivial
    exact iff_of_true (passUpOrDie_isSome hc) trivial
  | interrupt st =>
    obtain ⟨lineNum, hline⟩ := hi st rfl
    refine iff_of_true ?_ trivial
    exact interruptHandler_isSome (a := { a with oldArea := update a.oldArea .interrupt st })
      (show update a.oldArea .interrupt st .interrupt = st from update_self ..)
      ⟨hline.line, hline.pos, hline.charged, hline.device⟩ hbal
  | device bus => exact iff_of_true rfl trivial
  | writeInt s v => exact iff_of_true rfl trivial
  | writeState s st => exact iff_of_true rfl trivial

/-! ### The local timer of a processor that waits -/

/-- A processor that waits has the local timer off. -/
def TimerOff (a : Nuc) : Prop := ∀ status, a.cpu = .waiting status → status &&& teBitOn = 0

lemma dispatch_timerOff : (a.dispatch m).TimerOff := by
  unfold dispatch
  split
  · split_ifs
    · exact fun status h => by cases h
    · exact fun status h => by cases h
    · rintro status h
      obtain rfl := Cpu.waiting.inj h
      decide
  · exact fun status h => by cases h

lemma Ends.timerOff {c : PcbPtr} {pS : PcbIx → State} (h : Ends m c pS st a') :
    a'.TimerOff := by
  cases h with
  | resumed b hb hc hn => exact fun status h => by cases h
  | dispatched b hb hp => exact dispatch_timerOff

lemma step_timerOff (hg : a.Good) (hrun : FromProcess e → a.cpu.IsRunning)
    (hs : a.step m e = some a') (h : a.TimerOff) : a'.TimerOff := by
  rcases step_ends hg hrun hs with ⟨c, pS, st, hend⟩ | ⟨bus, mem, states, rfl⟩
  · exact hend.timerOff
  · exact h

end Nuc

end Kaya
