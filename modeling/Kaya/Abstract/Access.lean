import Kaya.Abstract.Books

/-!
# What a step does to one semaphore

A step accesses a semaphore in at most one way: by a V, by a P, by a tick of the clock or by
a write of the running process. After that the processes it terminates stop waiting.
-/

namespace Kaya

open Function Linked

namespace Books

variable {m : Machine} {b : Books} {s t : Addr} {p : PcbIx}

lemma sem_kill (b : Books) (dead : List PcbIx) (hs : ¬ m.IsDeviceSem s) :
    (b.kill m dead).sem s = (b.sem s).withdraw dead := by
  unfold kill sem
  dsimp only
  rw [if_neg hs]

lemma sem_kill_device (b : Books) (dead : List PcbIx) (hs : m.IsDeviceSem s) :
    (b.kill m dead).sem s = ⟨b.mem s, ((b.sem s).withdraw dead).waiters⟩ := by
  unfold kill sem
  dsimp only
  rw [if_pos hs]

lemma sem_verhogen (b : Books) (s : Addr) : (b.verhogen s).sem s = (b.sem s).verhogen :=
  sem_setSem b s _

lemma sem_verhogen_of_ne (b : Books) (h : t ≠ s) : (b.verhogen s).sem t = b.sem t :=
  sem_setSem_of_ne b _ h

lemma sem_passeren (b : Books) (s : Addr) (p : PcbIx) :
    (b.passeren s p).sem s = (b.sem s).passeren p := sem_setSem b s _

lemma sem_passeren_of_ne (b : Books) (p : PcbIx) (h : t ≠ s) :
    (b.passeren s p).sem t = b.sem t := sem_setSem_of_ne b _ h

lemma sem_tick (b : Books) : (b.tick m).sem (m.semAddr itSemIndex) =
    ⟨0, (b.blocked (m.semAddr itSemIndex)).drop (-b.mem (m.semAddr itSemIndex)).toNat⟩ :=
  sem_setSem b _ _

lemma sem_tick_of_ne (b : Books) (h : t ≠ m.semAddr itSemIndex) : (b.tick m).sem t = b.sem t :=
  sem_setSem_of_ne b _ h

end Books

namespace Nuc

variable {a a' : Nuc} {p : PcbIx} {s : Addr} {m : Machine} {e : Event}

/-- The processes the event terminates. -/
def dead (m : Machine) (a : Nuc) (e : Event) : List PcbIx :=
  match a.currentProcess with
  | none => []
  | some p => a.deaths m e p

lemma dead_of_current (hc : a.currentProcess = some p) : a.dead m e = a.deaths m e p := by
  unfold dead
  rw [hc]

lemma dead_of_not_dies (h : ∀ p, a.currentProcess = some p →
    ¬ Dies m a.mem (a.oldAreas p) (a.newAreas p) e) : a.dead m e = [] := by
  unfold dead
  split
  · rfl
  · rename_i p hc
    unfold deaths
    rw [if_neg (h p hc)]

/-- The semaphore at `s` when the event has accessed it. -/
inductive Accessed (m : Machine) (a : Nuc) (s : Addr) (e : Event) : Semaphore PcbIx → Prop
  | verhogen (h : IsVerhogen s e) : Accessed m a s e (a.books.sem s).verhogen
  | deviceDone (h : IsDeviceDone m a.bus s e) : Accessed m a s e (a.books.sem s).verhogen
  | passeren (p : PcbIx) (hc : a.currentProcess = some p)
      (h : IsPasseren s e ∨ IsWaitForClock e ∧ s = m.semAddr itSemIndex ∨ IsWaitForIo m s e) :
      Accessed m a s e ((a.books.sem s).passeren p)
  | tick (h : IsTick e) (hs : s = m.semAddr itSemIndex) :
      Accessed m a s e ⟨0, (a.blocked s).drop (-a.mem s).toNat⟩
  | write (v : Int) (h : e = .writeInt s v) : Accessed m a s e ⟨v, a.blocked s⟩
  | idle (hv : ¬ IsVerhogen s e) (hd : ¬ IsDeviceDone m a.bus s e) (hp : ¬ IsPasseren s e)
      (hc : IsWaitForClock e → s ≠ m.semAddr itSemIndex) (hi : ¬ IsWaitForIo m s e)
      (ht : IsTick e → s ≠ m.semAddr itSemIndex) (hw : ∀ v, e ≠ .writeInt s v) :
      Accessed m a s e (a.books.sem s)

lemma accessed_idle_call {st : State} (h3 : st.sA0 = verhogenNum → st.sA1 ≠ s)
    (h4 : st.sA0 = passerenNum → st.sA1 ≠ s)
    (h7 : st.sA0 = waitForClockNum → s ≠ m.semAddr itSemIndex)
    (h8 : st.sA0 = waitForIoNum → ioSem m st ≠ s) :
    Accessed m a s (.syscall st) (a.books.sem s) := by
  apply Accessed.idle
  · exact fun h => h3 h.2.1 h.2.2
  · rintro ⟨line, devNum, h, -⟩
    exact h
  · exact fun h => h4 h.2.1 h.2.2
  · exact fun h => h7 h.2
  · exact fun h => h8 h.2.1 h.2.2
  · exact fun h => h.elim
  · intro v h
    cases h

lemma accessed_idle_of_not_call {st : State} (hcall : ¬ IsCall st) :
    Accessed m a s (.syscall st) (a.books.sem s) := by
  apply Accessed.idle
  · exact fun h => hcall h.1
  · rintro ⟨line, devNum, h, -⟩
    exact h
  · exact fun h => hcall h.1
  · exact fun h => absurd h.1 hcall
  · exact fun h => hcall h.1
  · exact fun h => h.elim
  · intro v h
    cases h

lemma accessed_call {st : State} (hc : a.currentProcess = some p) (hcall : IsCall st) (s : Addr) :
    Accessed m a s (.syscall st) ((a.books.postAll m (callEntries m st p)).sem s) := by
  unfold callEntries
  split_ifs with h1 h3 h4 h7 h8
  · apply accessed_idle_call <;> simp [h1, createProcessNum, verhogenNum, passerenNum,
      waitForClockNum, waitForIoNum]
  · change Accessed m a s _ ((a.books.verhogen st.sA1).sem s)
    by_cases hs : st.sA1 = s
    · subst hs
      rw [Books.sem_verhogen]
      exact .verhogen ⟨hcall, h3, rfl⟩
    · rw [Books.sem_verhogen_of_ne _ (Ne.symm hs)]
      apply accessed_idle_call <;> simp [h3, hs, verhogenNum, passerenNum, waitForClockNum,
        waitForIoNum]
  · change Accessed m a s _ ((a.books.passeren st.sA1 p).sem s)
    by_cases hs : st.sA1 = s
    · subst hs
      rw [Books.sem_passeren]
      exact .passeren p hc (.inl ⟨hcall, h4, rfl⟩)
    · rw [Books.sem_passeren_of_ne _ _ (Ne.symm hs)]
      apply accessed_idle_call <;> simp [h4, hs, verhogenNum, passerenNum, waitForClockNum,
        waitForIoNum]
  · change Accessed m a s _ ((a.books.waitForClock m p).sem s)
    unfold Books.waitForClock
    by_cases hs : s = m.semAddr itSemIndex
    · subst hs
      rw [Books.sem_passeren]
      exact .passeren p hc (.inr (.inl ⟨⟨hcall, h7⟩, rfl⟩))
    · rw [Books.sem_passeren_of_ne _ _ hs]
      apply accessed_idle_call <;> simp [h7, hs, verhogenNum, passerenNum, waitForClockNum,
        waitForIoNum]
  · change Accessed m a s _ ((a.books.waitForIo (ioSem m st) p).sem s)
    unfold Books.waitForIo
    by_cases hs : ioSem m st = s
    · subst hs
      rw [Books.sem_passeren]
      exact .passeren p hc (.inr (.inr ⟨hcall, h8, rfl⟩))
    · rw [Books.sem_passeren_of_ne _ _ (Ne.symm hs)]
      apply accessed_idle_call <;> simp [h8, hs, verhogenNum, passerenNum, waitForClockNum,
        waitForIoNum]
  · apply accessed_idle_call
    · exact fun h => absurd h h3
    · exact fun h => absurd h h4
    · exact fun h => absurd h h7
    · exact fun h => absurd h h8

lemma accessed_idle_of_process (he : ∀ st, e ≠ .syscall st) (hp : FromProcess e)
    (hw : ∀ v, e ≠ .writeInt s v) : Accessed m a s e (a.books.sem s) := by
  cases e with
  | syscall st => exact absurd rfl (he st)
  | interrupt st => exact hp.elim
  | device bus => exact hp.elim
  | programTrap st =>
    exact .idle id (fun ⟨_, _, h, _⟩ => h) id (fun h => h.elim) id (fun h => h.elim) hw
  | tlbManagement st =>
    exact .idle id (fun ⟨_, _, h, _⟩ => h) id (fun h => h.elim) id (fun h => h.elim) hw
  | writeInt t v =>
    exact .idle id (fun ⟨_, _, h, _⟩ => h) id (fun h => h.elim) id (fun h => h.elim) hw
  | writeState t st =>
    exact .idle id (fun ⟨_, _, h, _⟩ => h) id (fun h => h.elim) id (fun h => h.elim) hw

lemma accessed_idle_line {st : State} (hd : ¬ IsDeviceDone m a.bus s (.interrupt st))
    (ht : determineLine st.sCause = some itLine → s ≠ m.semAddr itSemIndex) :
    Accessed m a s (.interrupt st) (a.books.sem s) := by
  apply Accessed.idle id hd id
  · exact fun h => h.elim
  · exact id
  · exact ht
  · intro v h
    cases h

lemma accessed_line {st : State} {lineNum : Nat} (hl : determineLine st.sCause = some lineNum)
    (s : Addr) :
    Accessed m a s (.interrupt st) ((a.books.postAll m (a.lineEntries m lineNum)).sem s) := by
  have hdone : IsDeviceDone m a.bus s (.interrupt st) ↔ ∃ line devNum,
      deviceLine lineNum = some line ∧ determineDevice (a.bus.interruptDev line) = some devNum.val ∧
        deviceSem m line devNum (a.bus.devreg line devNum) = s := by
    unfold IsDeviceDone Serves
    simp [hl, and_assoc]
  have htick : lineNum ≠ itLine → determineLine st.sCause = some itLine →
      s ≠ m.semAddr itSemIndex := by
    intro hne ht
    exact absurd (Option.some.inj (hl.symm.trans ht)) hne
  unfold lineEntries
  split_ifs with hplt hit
  · apply accessed_idle_line
    · rw [hdone, hplt]
      rintro ⟨line, devNum, h, -⟩
      cases h
    · exact htick (by rw [hplt]; decide)
  · change Accessed m a s _ ((a.books.tick m).sem s)
    by_cases hs : s = m.semAddr itSemIndex
    · subst hs
      rw [Books.sem_tick]
      exact .tick (hl.trans (congrArg some hit)) rfl
    · rw [Books.sem_tick_of_ne _ hs]
      apply accessed_idle_line
      · rw [hdone, hit]
        rintro ⟨line, devNum, h, -⟩
        cases h
      · exact fun _ => hs
  · cases hline : deviceLine lineNum with
    | none =>
      apply accessed_idle_line
      · rw [hdone, hline]
        rintro ⟨line, devNum, h, -⟩
        cases h
      · exact htick hit
    | some line =>
      cases hdev : determineDevice (a.bus.interruptDev line) with
      | none =>
        simp only [hdev]
        apply accessed_idle_line
        · rw [hdone, hline]
          rintro ⟨line', devNum, h, hd, -⟩
          obtain rfl := Option.some.inj h
          cases hdev.symm.trans hd
        · exact htick hit
      | some devNum =>
        simp only [hdev]
        split_ifs with hlt
        · change Accessed m a s _ ((a.books.deviceDone _).sem s)
          unfold Books.deviceDone
          by_cases hs : deviceSem m line ⟨devNum, hlt⟩ (a.bus.devreg line ⟨devNum, hlt⟩) = s
          · rw [hs, Books.sem_verhogen]
            exact .deviceDone (hdone.mpr ⟨line, ⟨devNum, hlt⟩, hline, hdev, hs⟩)
          · rw [Books.sem_verhogen_of_ne _ (Ne.symm hs)]
            apply accessed_idle_line
            · rw [hdone, hline]
              rintro ⟨line', devNum', h, hd, hsem⟩
              obtain rfl := Option.some.inj h
              obtain rfl := Option.some.inj (hdev.symm.trans hd)
              exact hs hsem
            · exact htick hit
        · apply accessed_idle_line
          · rw [hdone, hline]
            rintro ⟨line', devNum', h, hd, -⟩
            obtain rfl := Option.some.inj h
            obtain rfl := Option.some.inj (hdev.symm.trans hd)
            exact hlt devNum'.isLt
          · exact htick hit

/-- The semaphore at `s` after some of its waiters have been killed. -/
def bereaved (m : Machine) (s : Addr) (dead : List PcbIx) (x : Semaphore PcbIx) :
    Semaphore PcbIx :=
  if m.IsDeviceSem s then ⟨x.value, (x.withdraw dead).waiters⟩ else x.withdraw dead

lemma sem_kill_eq (b : Books) (dead : List PcbIx) (s : Addr) :
    (b.kill m dead).sem s = bereaved m s dead (b.sem s) := by
  unfold bereaved
  split
  · rename_i hs
    exact b.sem_kill_device dead hs
  · rename_i hs
    exact b.sem_kill dead hs

/-- A step accesses a semaphore and then kills some of those that wait on it. -/
theorem sem_step (h : a.Good) (hrun : FromProcess e → a.cpu.IsRunning) (hsafe : a.Safe m e)
    (hs : a.step m e = some a') (s : Addr) :
    ∃ x, Accessed m a s e x ∧ a'.books.sem s = bereaved m s (a.dead m e) x := by
  have hcur : FromProcess e → ∃ p, a.currentProcess = some p := fun he =>
    Option.ne_none_iff_exists'.mp (h.onCpu.mp (hrun he))
  have hbooks := step_books h hrun hsafe hs
  have hnone : bereaved m s [] = id := by
    funext x
    unfold bereaved
    split <;> simp [Semaphore.withdraw_nil]
  unfold entries at hbooks
  cases e with
  | syscall st =>
    obtain ⟨p, hc⟩ := hcur trivial
    simp only [hc, processEntries] at hbooks
    rw [Books.postAll_append] at hbooks
    rw [dead_of_current hc, hbooks]
    refine ⟨_, ?_, sem_kill_eq _ _ _⟩
    split_ifs with hcall
    · exact accessed_call hc hcall s
    · apply accessed_idle_of_not_call hcall
  | programTrap st =>
    obtain ⟨p, hc⟩ := hcur trivial
    simp only [hc, processEntries] at hbooks
    rw [dead_of_current hc, hbooks]
    refine ⟨_, ?_, sem_kill_eq _ _ _⟩
    exact accessed_idle_of_process (by simp) trivial (by simp)
  | tlbManagement st =>
    obtain ⟨p, hc⟩ := hcur trivial
    simp only [hc, processEntries] at hbooks
    rw [dead_of_current hc, hbooks]
    refine ⟨_, ?_, sem_kill_eq _ _ _⟩
    exact accessed_idle_of_process (by simp) trivial (by simp)
  | interrupt st =>
    rw [dead_of_not_dies (fun _ _ => id), hnone]
    cases hl : determineLine st.sCause with
    | none =>
      simp only [hl] at hbooks
      rw [hbooks]
      refine ⟨a.books.sem s, accessed_idle_line ?_ (by simp [hl]), rfl⟩
      rintro ⟨line, devNum, ⟨hb, -⟩, -⟩
      simp [hl] at hb
    | some lineNum =>
      simp only [hl] at hbooks
      rw [hbooks]
      exact ⟨_, accessed_line hl s, rfl⟩
  | device bus =>
    rw [dead_of_not_dies (fun _ _ => id), hnone, hbooks]
    refine ⟨_, ?_, rfl⟩
    refine .idle id ?_ id (fun h => h.elim) id (fun h => h.elim) (by simp)
    rintro ⟨_, _, h, _⟩
    exact h
  | writeInt t v =>
    rw [dead_of_not_dies (fun _ _ => id), hnone, hbooks]
    by_cases ht : t = s
    · subst ht
      refine ⟨_, .write v rfl, ?_⟩
      change (⟨update a.mem t v t, a.blocked t⟩ : Semaphore PcbIx) = _
      rw [update_self]
      rfl
    · refine ⟨a.books.sem s, accessed_idle_of_process (by simp) trivial (by simp [ht]), ?_⟩
      change (⟨update a.mem t v s, a.blocked s⟩ : Semaphore PcbIx) = _
      rw [update_of_ne (Ne.symm ht)]
      rfl
  | writeState t st =>
    rw [dead_of_not_dies (fun _ _ => id), hnone, hbooks]
    exact ⟨_, accessed_idle_of_process (by simp) trivial (by simp), rfl⟩

lemma mem_free_step (h : a.Good) (hrun : FromProcess e → a.cpu.IsRunning) (hsafe : a.Safe m e)
    (hs : a.step m e = some a') (q : PcbIx) :
    (q ∈ a'.free → q ∈ a.free ∨ q ∈ a.dead m e) ∧ (q ∈ a.dead m e → q ∈ a'.free) := by
  have hcur : FromProcess e → ∃ p, a.currentProcess = some p := fun he =>
    Option.ne_none_iff_exists'.mp (h.onCpu.mp (hrun he))
  have hfree : a'.free = a'.books.free := rfl
  rw [step_books h hrun hsafe hs] at hfree
  have hprocess : ∀ {p} {l : List Entry}, a.currentProcess = some p →
      (∀ x ∈ (a.books.postAll m l).free, x ∈ a.free) →
      a'.free = (a.books.postAll m (l ++ [.kill (a.deaths m e p)])).free →
      (q ∈ a'.free → q ∈ a.free ∨ q ∈ a.dead m e) ∧ (q ∈ a.dead m e → q ∈ a'.free) := by
    intro p l hc hl he
    have he' : a'.free = (a.books.postAll m l).free ++ a.deaths m e p := by
      rw [he, Books.postAll_append]
      rfl
    rw [dead_of_current hc, he', List.mem_append]
    exact ⟨Or.imp_left (hl q), Or.inr⟩
  have hcall : ∀ {p st}, ∀ x ∈ (a.books.postAll m (callEntries m st p)).free, x ∈ a.free := by
    intro p st
    unfold callEntries
    split_ifs
    · exact fun x => List.mem_of_mem_tail
    all_goals exact fun x => id
  have hline : ∀ lineNum, (a.books.postAll m (a.lineEntries m lineNum)).free = a.free := by
    intro lineNum
    unfold lineEntries
    split_ifs
    · rfl
    · rfl
    · split
      · rfl
      · split
        · rfl
        · split_ifs <;> rfl
  have hnone : a.dead m e = [] → a'.free = a.free →
      (q ∈ a'.free → q ∈ a.free ∨ q ∈ a.dead m e) ∧ (q ∈ a.dead m e → q ∈ a'.free) := by
    intro hd hf
    rw [hd, hf]
    simp
  unfold entries at hfree
  cases e with
  | syscall st =>
    obtain ⟨p, hc⟩ := hcur trivial
    simp only [hc] at hfree
    refine hprocess hc ?_ hfree
    dsimp only
    split_ifs
    · exact hcall
    · exact fun x => id
  | programTrap st =>
    obtain ⟨p, hc⟩ := hcur trivial
    simp only [hc] at hfree
    exact hprocess hc (fun x => id) hfree
  | tlbManagement st =>
    obtain ⟨p, hc⟩ := hcur trivial
    simp only [hc] at hfree
    exact hprocess hc (fun x => id) hfree
  | interrupt st =>
    apply hnone (dead_of_not_dies fun _ _ => id)
    cases hl : determineLine st.sCause with
    | none =>
      simp only [hl] at hfree
      exact hfree
    | some lineNum =>
      simp only [hl] at hfree
      rw [hfree, hline]
  | device bus => exact hnone (dead_of_not_dies fun _ _ => id) hfree
  | writeInt t v => exact hnone (dead_of_not_dies fun _ _ => id) hfree
  | writeState t st => exact hnone (dead_of_not_dies fun _ _ => id) hfree

lemma countP_free_step (h : a.Good) (hrun : FromProcess e → a.cpu.IsRunning) (hsafe : a.Safe m e)
    (hs : a.step m e = some a') (s : Addr) :
    (a.blocked s).countP (· ∈ a'.free) = (a.blocked s).countP (· ∈ a.dead m e) := by
  apply List.countP_congr
  intro q hq
  have hmem := mem_free_step h hrun hsafe hs q
  have hqf : q ∉ a.free := h.inv.mem_listAt_ne (i := .blocked s) (j := .free) hq (by simp)
  simp only [decide_eq_true_eq]
  exact ⟨fun hf => (hmem.1 hf).resolve_left hqf, hmem.2⟩

end Nuc

/-! ### Calls that terminate nobody -/

section Calls

variable {m : Machine} {mem : Addr → Int} {old new : Fin trapTypes → Addr} {s : Addr} {e : Event}

lemma not_dies_of_call {st : State} (hcall : IsCall st)
    (h : st.sA0 = createProcessNum ∨ st.sA0 = verhogenNum ∨ st.sA0 = passerenNum ∨
      st.sA0 = getCpuTimeNum ∨ st.sA0 = waitForClockNum) : ¬ Dies m mem old new (.syscall st) := by
  rw [Dies, if_neg hcall]
  unfold DiesInService
  rcases h with h | h | h | h | h <;> rw [h] <;> exact id

lemma IsVerhogen.not_dies (h : IsVerhogen s e) : ¬ Dies m mem old new e := by
  cases e with
  | syscall st => exact not_dies_of_call h.1 (.inr (.inl h.2.1))
  | _ => exact h.elim

lemma IsPasseren.not_dies (h : IsPasseren s e) : ¬ Dies m mem old new e := by
  cases e with
  | syscall st => exact not_dies_of_call h.1 (.inr (.inr (.inl h.2.1)))
  | _ => exact h.elim

lemma IsWaitForClock.not_dies (h : IsWaitForClock e) : ¬ Dies m mem old new e := by
  cases e with
  | syscall st => exact not_dies_of_call h.1 (.inr (.inr (.inr (.inr h.2))))
  | _ => exact h.elim

end Calls

/-! ### Semaphores of `semaphoreArray` -/

section Devices

variable {m : Machine} {bus : Bus} {s : Addr} {e : Event}

lemma deviceIndex_lt (line : Fin devIntNum) (devNum : Fin numDevicesPerType) (d : Device) :
    deviceIndex (line.val + initialDevLineNum) devNum (isReceive (line.val + initialDevLineNum) d)
      < semCount - 1 := by
  have hl := line.isLt
  have hn := devNum.isLt
  unfold devIntNum at hl
  unfold deviceIndex isReceive initialDevLineNum termInt
  unfold numDevicesPerType at hn ⊢
  unfold semCount
  dsimp only
  split_ifs with hr
  · simp only [Bool.decide_and, Bool.and_eq_true, decide_eq_true_eq] at hr
    omega
  · omega

lemma IsDeviceDone.isDeviceSem (h : IsDeviceDone m bus s e) :
    ∃ i < semCount - 1, s = m.semAddr i := by
  obtain ⟨line, devNum, -, rfl⟩ := h
  exact ⟨_, deviceIndex_lt line devNum _, rfl⟩

lemma Machine.inSemaphoreArray_clock (m : Machine) : m.InSemaphoreArray (m.semAddr itSemIndex) :=
  ⟨itSemIndex, by decide, rfl⟩

end Devices

end Kaya
