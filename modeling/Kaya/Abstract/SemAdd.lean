import Kaya.Abstract.Deaths
import Kaya.Abstract.Request
import Kaya.Abstract.Turnover

/-!
# What `p_semAdd` remembers

A process gets the address of a semaphore when it blocks. Nothing takes it away again when the
process goes on: only SYS1 clears it, in the PCB of the child.
-/

namespace Kaya

open Function Linked

/-- `p_semAdd` of all processes after an event. -/
inductive SemAddAfter (m : Machine) (mem : Addr → Int) (current : PcbPtr) (free : List PcbIx)
    (pSemAdd : PcbIx → Addr) (e : Event) : (PcbIx → Addr) → Prop
  | kept (hb : ¬ Blocks m mem e) (hc : IsCreate e → free = []) :
    SemAddAfter m mem current free pSemAdd e pSemAdd
  | blocked (p : PcbIx) (s : Addr) (hc : current = some p) (hb : Blocks m mem e) (hs : s ≠ null) :
    SemAddAfter m mem current free pSemAdd e (update pSemAdd p s)
  | created (q : PcbIx) (h : IsCreate e) (hq : free.head? = some q) :
    SemAddAfter m mem current free pSemAdd e (update pSemAdd q null)

namespace Nuc

variable {m : Machine} {a a' : Nuc} {p q : PcbIx} {s : Addr} {st : State} {e : Event}

abbrev Marks (m : Machine) (a : Nuc) (e : Event) : (PcbIx → Addr) → Prop :=
  SemAddAfter m a.mem a.currentProcess a.free a.pSemAdd e

@[simp] lemma dispatch_pSemAdd : (a.dispatch m).pSemAdd = a.pSemAdd := by
  unfold dispatch
  split
  · split_ifs <;> rfl
  · rfl

@[simp] lemma wake_pSemAdd : (a.wake s).pSemAdd = a.pSemAdd := by
  unfold wake
  split <;> rfl

lemma block_pSemAdd : (a.block m st s p).pSemAdd = update a.pSemAdd p s := by
  unfold block
  exact dispatch_pSemAdd

@[simp] lemma terminate_pSemAdd : (a.terminate m p).pSemAdd = a.pSemAdd := by
  have hfold : ∀ (l : List PcbIx) (a : Nuc), (l.foldl (takeOut m) a).pSemAdd = a.pSemAdd := by
    intro l
    induction l with
    | nil => exact fun _ => rfl
    | cons q l ih => exact fun a => (ih _).trans takeOut_pSemAdd
  rw [terminate, dispatch_pSemAdd]
  exact hfold _ a

lemma verhogen_pSemAdd (hs : a.verhogen s = some a') : a'.pSemAdd = a.pSemAdd := by
  unfold verhogen at hs
  dsimp only at hs
  split at hs
  · obtain rfl := Option.some.inj hs
    split_ifs
    · exact wake_pSemAdd
    · rfl
  · contradiction

lemma passeren_pSemAdd (hs : a.passeren m s = some a') :
    a'.pSemAdd = a.pSemAdd ∧ ¬ a.mem s - 1 < 0 ∨
      a.mem s - 1 < 0 ∧ Aligned s ∧
        ∃ p, a.currentProcess = some p ∧ a'.pSemAdd = update a.pSemAdd p s := by
  unfold passeren at hs
  split at hs
  · rename_i hal
    have hmem : (a.store s (a.mem s - 1)).mem s = a.mem s - 1 := update_self ..
    dsimp only at hs
    rw [hmem] at hs
    by_cases hv : a.mem s - 1 < 0
    · rw [if_pos hv] at hs
      obtain ⟨p, hp, hs⟩ := Option.bind_eq_some_iff.mp hs
      obtain rfl := Option.some.inj hs
      exact .inr ⟨hv, hal, p, hp, block_pSemAdd⟩
    · rw [if_neg hv] at hs
      obtain rfl := Option.some.inj hs
      exact .inl ⟨rfl, hv⟩
  · contradiction

lemma waitForIo_pSemAdd {lineNum deviceNum termRead : Word}
    (hlive : ¬ 0 < a.mem (m.semAddr (ioIndex lineNum deviceNum termRead).toNat))
    (hs : a.waitForIo m lineNum deviceNum termRead = some a') :
    ∃ p, a.currentProcess = some p ∧ a'.pSemAdd =
      update a.pSemAdd p (m.semAddr (ioIndex lineNum deviceNum termRead).toNat) := by
  unfold waitForIo at hs
  dsimp only at hs
  obtain ⟨p, hp, hs⟩ := Option.bind_eq_some_iff.mp hs
  split at hs
  · obtain rfl := Option.some.inj hs
    exact ⟨p, hp, block_pSemAdd⟩
  · rename_i hv
    simp only [store, update_self] at hv
    omega

lemma passUpOrDie_pSemAdd {area : OldArea} {type : Fin trapTypes}
    (hs : a.passUpOrDie m area type = some a') : a'.pSemAdd = a.pSemAdd := by
  unfold passUpOrDie at hs
  obtain ⟨p, hc, hs⟩ := Option.bind_eq_some_iff.mp hs
  dsimp only at hs
  split_ifs at hs
  · obtain rfl := Option.some.inj hs
    exact terminate_pSemAdd
  · obtain rfl := Option.some.inj hs
    rfl

lemma exceptionStateVec_pSemAdd {type : Word} {old new : Addr}
    (hs : a.exceptionStateVec m type old new = some a') : a'.pSemAdd = a.pSemAdd := by
  unfold exceptionStateVec at hs
  obtain ⟨p, hc, hs⟩ := Option.bind_eq_some_iff.mp hs
  dsimp only at hs
  split at hs
  · split_ifs at hs
    · obtain rfl := Option.some.inj hs
      rfl
    · obtain rfl := Option.some.inj hs
      exact terminate_pSemAdd
  · contradiction

lemma getCpuTime_pSemAdd (hs : a.getCpuTime m = some a') : a'.pSemAdd = a.pSemAdd := by
  unfold getCpuTime at hs
  obtain ⟨p, hc, hs⟩ := Option.bind_eq_some_iff.mp hs
  obtain rfl := Option.some.inj hs
  rfl

lemma createProcess_marks (hcall : IsCall st) (h1 : st.sA0 = createProcessNum)
    (hs : a.createProcess st.sA1 = some a') : a.Marks m (.syscall st) a'.pSemAdd := by
  unfold createProcess at hs
  split at hs
  · rename_i hf
    obtain rfl := Option.some.inj hs
    refine .kept ?_ fun _ => hf
    simp [Blocks, h1, createProcessNum, passerenNum, waitForClockNum, waitForIoNum]
  · rename_i q rest hf
    obtain ⟨c, -, hs⟩ := Option.bind_eq_some_iff.mp hs
    obtain rfl := Option.some.inj hs
    exact .created q ⟨hcall, h1⟩ (by rw [hf]; rfl)

lemma marks_of_eq (hb : ¬ Blocks m a.mem e) (hc : ¬ IsCreate e) (h : a'.pSemAdd = a.pSemAdd) :
    a.Marks m e a'.pSemAdd := by
  rw [h]
  exact .kept hb fun he => absurd he hc

lemma not_isCreate (h : st.sA0 ≠ createProcessNum) : ¬ IsCreate (.syscall st) := fun hc => h hc.2

lemma service_marks (hcall : IsCall st)
    (hlive : ¬ DiesInService m a.mem (a.oldAreas p) (a.newAreas p) st)
    (hs : a.service m st = some a') : a.Marks m (.syscall st) a'.pSemAdd := by
  unfold service at hs
  unfold DiesInService at hlive
  split_ifs at hs hlive with h1 h2 h3 h4 h5 h6 h7 h8
  · exact createProcess_marks hcall h1 hs
  · exact absurd trivial hlive
  · apply marks_of_eq _ (not_isCreate h1) (verhogen_pSemAdd hs)
    simp [Blocks, h3, verhogenNum, passerenNum, waitForClockNum, waitForIoNum]
  · have hblocks : Blocks m a.mem (.syscall st) ↔ a.mem st.sA1 - 1 < 0 := by
      simp [Blocks, hcall, h4, passerenNum, waitForClockNum, waitForIoNum]
    rcases passeren_pSemAdd hs with ⟨heq, hv⟩ | ⟨hv, hal, p, hp, heq⟩
    · exact marks_of_eq (mt hblocks.mp hv) (not_isCreate h1) heq
    · rw [heq]
      exact .blocked p _ hp (hblocks.mpr hv) hal.ne_null
  · apply marks_of_eq _ (not_isCreate h1) (exceptionStateVec_pSemAdd hs)
    simp [Blocks, h5, exceptionStateVecNum, passerenNum, waitForClockNum, waitForIoNum]
  · apply marks_of_eq _ (not_isCreate h1) (getCpuTime_pSemAdd hs)
    simp [Blocks, h6, getCpuTimeNum, passerenNum, waitForClockNum, waitForIoNum]
  · have hblocks : Blocks m a.mem (.syscall st) ↔ a.mem (m.semAddr itSemIndex) - 1 < 0 := by
      simp [Blocks, hcall, h7, passerenNum, waitForClockNum, waitForIoNum]
    rcases passeren_pSemAdd (a := { a with softBlockCount := a.softBlockCount + 1 }) hs with
      ⟨heq, hv⟩ | ⟨hv, hal, p, hp, heq⟩
    · exact marks_of_eq (mt hblocks.mp hv) (not_isCreate h1) heq
    · rw [heq]
      exact .blocked p _ hp (hblocks.mpr hv) hal.ne_null
  · obtain ⟨p, hp, heq⟩ := waitForIo_pSemAdd hlive hs
    rw [heq]
    refine .blocked p _ hp ⟨hcall, .inr (.inr ⟨h8, ?_⟩)⟩ (m.aligned_semAddr _).ne_null
    change a.mem (m.semAddr (ioIndex st.sA1 st.sA2 st.sA3).toNat) - 1 < 0
    omega
  · apply marks_of_eq _ (not_isCreate h1) (passUpOrDie_pSemAdd hs)
    simp [Blocks, h4, h7, h8]

lemma syscallHandler_marks (hold : a.oldArea .syscall = st)
    (hlive : ¬ Dies m a.mem (a.oldAreas p) (a.newAreas p) (.syscall st))
    (hs : a.syscallHandler m = some a') : a.Marks m (.syscall st) a'.pSemAdd := by
  unfold syscallHandler at hs
  rw [hold] at hs
  dsimp only at hs
  by_cases hcall : IsCall st
  · rw [Dies, if_neg hcall] at hlive
    rw [if_neg hcall] at hs
    exact service_marks (a := { a with oldArea := update a.oldArea .syscall st.advancePc }) hcall
      hlive hs
  · rw [if_pos (not_not.mp hcall)] at hs
    have h := passUpOrDie_pSemAdd hs
    exact marks_of_eq (fun hb => hcall hb.1) (fun hc => hcall hc.1) h

@[simp] lemma deliver_pSemAdd {status : Word} : (a.deliver s status).pSemAdd = a.pSemAdd := by
  unfold deliver
  split <;> rfl

@[simp] lemma exitInterrupt_pSemAdd : (a.exitInterrupt m).pSemAdd = a.pSemAdd := by
  unfold exitInterrupt
  split_ifs
  · exact dispatch_pSemAdd
  · rfl

lemma deviceInterrupt_pSemAdd (line : Fin devIntNum) (devNum : Fin numDevicesPerType) :
    (a.deviceInterrupt m line devNum).pSemAdd = a.pSemAdd := by
  unfold deviceInterrupt
  dsimp only
  split_ifs
  · exact deliver_pSemAdd
  · rfl

lemma interruptHandler_pSemAdd (hs : a.interruptHandler m = some a') :
    a'.pSemAdd = a.pSemAdd := by
  unfold interruptHandler at hs
  obtain ⟨lineNum, hl, hs⟩ := Option.bind_eq_some_iff.mp hs
  split_ifs at hs
  · unfold pltInterrupt at hs
    obtain ⟨p, hc, hs⟩ := Option.bind_eq_some_iff.mp hs
    obtain rfl := Option.some.inj hs
    exact dispatch_pSemAdd
  · obtain ⟨b, hb, hs⟩ := Option.bind_eq_some_iff.mp hs
    obtain rfl := Option.some.inj hs
    unfold itInterrupt at hb
    dsimp only at hb
    split_ifs at hb
    obtain rfl := Option.some.inj hb
    exact exitInterrupt_pSemAdd
  · obtain ⟨line, hline, hs⟩ := Option.bind_eq_some_iff.mp hs
    obtain ⟨devNum, hdev, hs⟩ := Option.bind_eq_some_iff.mp hs
    split_ifs at hs
    obtain rfl := Option.some.inj hs
    exact exitInterrupt_pSemAdd.trans (deviceInterrupt_pSemAdd _ _)

lemma marks_of_dies (hd : Dies m a.mem (a.oldAreas p) (a.newAreas p) e)
    (h : a'.pSemAdd = a.pSemAdd) : a.Marks m e a'.pSemAdd := by
  cases e with
  | syscall st =>
    refine marks_of_eq ?_ (fun hc => not_dies_of_call hc.1 (.inl hc.2) hd) h
    rintro ⟨hcall, ⟨h4, -⟩ | ⟨h7, -⟩ | ⟨h8, hv⟩⟩
    · exact not_dies_of_call hcall (.inr (.inr (.inl h4))) hd
    · exact not_dies_of_call hcall (.inr (.inr (.inr (.inr h7)))) hd
    · rw [Dies, if_neg hcall] at hd
      unfold DiesInService at hd
      rw [h8, if_neg (by decide), if_neg (by decide), if_neg (by decide), if_neg (by decide),
        if_neg (by decide), if_neg (by decide), if_neg (by decide), if_pos rfl] at hd
      change 0 < a.mem (ioSem m st) at hd
      omega
  | programTrap st => exact marks_of_eq id id h
  | tlbManagement st => exact marks_of_eq id id h
  | interrupt st => exact hd.elim
  | device bus => exact hd.elim
  | writeInt s v => exact hd.elim
  | writeState s st => exact hd.elim

theorem step_marks (hg : a.Good) (hrun : FromProcess e → a.cpu.IsRunning)
    (hs : a.step m e = some a') : a.Marks m e a'.pSemAdd := by
  by_cases hd : ∃ p, a.currentProcess = some p ∧ Dies m a.mem (a.oldAreas p) (a.newAreas p) e
  · obtain ⟨p, hc, hd⟩ := hd
    obtain ⟨mem, oldArea, rfl⟩ := step_dies hc hd hs
    exact marks_of_dies hd terminate_pSemAdd
  · have hcur : FromProcess e → ∃ p, a.currentProcess = some p := fun he =>
      Option.ne_none_iff_exists'.mp (hg.onCpu.mp (hrun he))
    cases e with
    | syscall st =>
      obtain ⟨p, hc⟩ := hcur trivial
      exact syscallHandler_marks (a := { a with oldArea := update a.oldArea .syscall st })
        (update_self OldArea.syscall st a.oldArea) (fun h => hd ⟨p, hc, h⟩) hs
    | programTrap st =>
      have h := passUpOrDie_pSemAdd hs
      exact marks_of_eq id id h
    | tlbManagement st =>
      have h := passUpOrDie_pSemAdd hs
      exact marks_of_eq id id h
    | interrupt st =>
      have h := interruptHandler_pSemAdd hs
      exact marks_of_eq id id h
    | device bus =>
      obtain rfl := Option.some.inj hs
      exact marks_of_eq id id rfl
    | writeInt s v =>
      obtain rfl := Option.some.inj hs
      exact marks_of_eq id id rfl
    | writeState s st =>
      obtain rfl := Option.some.inj hs
      exact marks_of_eq id id rfl

end Nuc

end Kaya
