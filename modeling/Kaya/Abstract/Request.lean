import Kaya.Abstract.Resume
import Kaya.Abstract.Clock

/-!
# Requests and completions

What SYS8 and the interrupt of the device do to the semaphore of a device, and what leaves it
alone.
-/

namespace Kaya

open Function Linked

/-- A device, or one half of a terminal. -/
structure SubDevice where
  line : Fin devIntNum
  devNum : Fin numDevicesPerType
  receive : Bool
  terminal : receive = true → line.val + initialDevLineNum = termInt

namespace SubDevice

variable {m : Machine} {d : SubDevice} {reg : Device}

/-- The semaphore that SYS8 P's for the device. -/
def sem (m : Machine) (d : SubDevice) : Addr :=
  m.semAddr (deviceIndex (d.line.val + initialDevLineNum) d.devNum d.receive)

/-- The status word of the device in its register. -/
def status (d : SubDevice) (reg : Device) : Word :=
  if d.receive then reg.tRecvStatus
  else if d.line.val + initialDevLineNum = termInt then reg.tTransmStatus
  else reg.dStatus

/-- The device branch takes an interrupt with this register for one of the device. -/
def Taken (d : SubDevice) (reg : Device) : Prop :=
  isReceive (d.line.val + initialDevLineNum) reg = d.receive

/-- An interrupt with this register is one of the device. A terminal has one bit for both its
halves, which differ in their status. -/
def Interrupts (d : SubDevice) (reg : Device) : Prop :=
  d.line.val + initialDevLineNum = termInt → Pending (d.status reg)

instance (d : SubDevice) (reg : Device) : Decidable (d.Taken reg) :=
  inferInstanceAs (Decidable (_ = _))

instance (d : SubDevice) (reg : Device) : Decidable (d.Interrupts reg) :=
  inferInstanceAs (Decidable (_ → _))

lemma index_lt (d : SubDevice) :
    deviceIndex (d.line.val + initialDevLineNum) d.devNum d.receive < semCount - 1 := by
  have hl := d.line.isLt
  have hn := d.devNum.isLt
  have ht := d.terminal
  unfold devIntNum at hl
  unfold deviceIndex
  unfold initialDevLineNum termInt at *
  unfold numDevicesPerType at hn ⊢
  unfold semCount
  dsimp only
  split_ifs with hr
  · have := ht hr
    omega
  · omega

lemma eq_of_index_eq (d : SubDevice) {line : Fin devIntNum} {devNum : Fin numDevicesPerType}
    {reg : Device}
    (h : deviceIndex (line.val + initialDevLineNum) devNum
      (isReceive (line.val + initialDevLineNum) reg) =
        deviceIndex (d.line.val + initialDevLineNum) d.devNum d.receive) :
    line = d.line ∧ devNum = d.devNum := by
  have hl := d.line.isLt
  have hn := d.devNum.isLt
  have ht := d.terminal
  have hl' := line.isLt
  have hn' := devNum.isLt
  unfold devIntNum at hl hl'
  unfold deviceIndex isReceive at h
  unfold initialDevLineNum termInt numDevicesPerType at *
  simp only [Bool.decide_and, Bool.and_eq_true, decide_eq_true_eq] at h
  have hval : line.val = d.line.val ∧ devNum.val = d.devNum.val := by
    split_ifs at h with hr hr' hr' <;> first | omega | (have hlt := ht hr'; omega)
  exact ⟨Fin.ext hval.1, Fin.ext hval.2⟩

lemma isDeviceSem (m : Machine) (d : SubDevice) : m.IsDeviceSem (d.sem m) :=
  m.isDeviceSem_semAddr d.index_lt

lemma sem_ne_clock (m : Machine) (d : SubDevice) : d.sem m ≠ m.clock := by
  intro h
  have hd := d.isDeviceSem m
  rw [h] at hd
  exact m.not_isDeviceSem_clock hd

lemma sem_ne_null (m : Machine) (d : SubDevice) : d.sem m ≠ null :=
  (m.aligned_semAddr _).ne_null

lemma inSemaphoreArray (m : Machine) (d : SubDevice) : m.InSemaphoreArray (d.sem m) :=
  ⟨_, Nat.lt_of_lt_of_le d.index_lt (Nat.sub_le _ _), rfl⟩

lemma deviceSem_eq_iff : deviceSem m d.line d.devNum reg = d.sem m ↔ d.Taken reg := by
  unfold deviceSem sem Taken
  constructor
  · intro h
    have hlt := deviceIndex_lt d.line d.devNum reg
    have hidx := m.semAddr_inj (Nat.lt_of_lt_of_le hlt (Nat.sub_le _ _))
      (Nat.lt_of_lt_of_le d.index_lt (Nat.sub_le _ _)) h
    unfold deviceIndex numDevicesPerType at hidx
    cases hr : isReceive (d.line.val + initialDevLineNum) reg <;> cases hd : d.receive <;>
      simp [hr, hd] at hidx ⊢
  · intro h
    dsimp only
    rw [h]

lemma isDeviceDone_iff {bus : Bus} {e : Event} : IsDeviceDone m bus (d.sem m) e ↔
    Serves bus d.line d.devNum e ∧ d.Taken (bus.devreg d.line d.devNum) := by
  constructor
  · rintro ⟨line, devNum, hs, hsem⟩
    have hidx := m.semAddr_inj (Nat.lt_of_lt_of_le (deviceIndex_lt line devNum _) (Nat.sub_le _ _))
      (Nat.lt_of_lt_of_le d.index_lt (Nat.sub_le _ _)) hsem
    obtain ⟨rfl, rfl⟩ := d.eq_of_index_eq hidx
    exact ⟨hs, deviceSem_eq_iff.mp hsem⟩
  · rintro ⟨hs, ht⟩
    exact ⟨d.line, d.devNum, hs, deviceSem_eq_iff.mpr ht⟩

lemma returnedStatus_eq (h : d.Taken reg) :
    returnedStatus (d.line.val + initialDevLineNum) reg = d.status reg := by
  unfold Taken at h
  unfold returnedStatus status
  rw [h]
  by_cases hr : d.receive = true
  · rw [if_pos (d.terminal hr), if_pos hr, if_pos hr]
  · rw [if_neg hr, if_neg hr]

end SubDevice

/-- The event does not access the semaphore of a device. -/
def Untouched (m : Machine) (bus : Bus) (s : Addr) (e : Event) : Prop :=
  ¬ IsVerhogen s e ∧ ¬ IsPasseren s e ∧ ¬ IsWaitForIo m s e ∧ ¬ IsDeviceDone m bus s e

lemma IsWaitForIo.not_isVerhogen {m : Machine} {s : Addr} {e : Event} (h : IsWaitForIo m s e)
    (t : Addr) : ¬ IsVerhogen t e := by
  cases e with
  | syscall st =>
    intro hv
    exact absurd (h.2.1.symm.trans hv.2.1) (by decide)
  | _ => exact h.elim

lemma Serves.not_dies {m : Machine} {bus : Bus} {line : Fin devIntNum}
    {devNum : Fin numDevicesPerType} {e : Event} {mem : Addr → Int}
    {old new : Fin trapTypes → Addr} (h : Serves bus line devNum e) : ¬ Dies m mem old new e := by
  cases e with
  | interrupt st => exact id
  | _ => exact h.elim

lemma Serves.not_isVerhogen {bus : Bus} {line : Fin devIntNum}
    {devNum : Fin numDevicesPerType} {e : Event} (h : Serves bus line devNum e) (t : Addr) :
    ¬ IsVerhogen t e := by
  cases e with
  | interrupt st => exact id
  | _ => exact h.elim

lemma IsWaitForIo.not_serves {m : Machine} {s : Addr} {bus : Bus} {e : Event}
    {line : Fin devIntNum} {devNum : Fin numDevicesPerType} (h : IsWaitForIo m s e) :
    ¬ Serves bus line devNum e := by
  cases e with
  | syscall st => exact id
  | _ => exact h.elim

lemma IsWaitForIo.not_isDeviceDone {m : Machine} {s t : Addr} {bus : Bus} {e : Event}
    (h : IsWaitForIo m s e) : ¬ IsDeviceDone m bus t e :=
  fun ⟨_, _, hs, _⟩ => h.not_serves hs

lemma Serves.untouched {m : Machine} {d : SubDevice} {bus : Bus} {e : Event}
    (he : Serves bus d.line d.devNum e)
    (ht : ¬ d.Taken (bus.devreg d.line d.devNum)) : Untouched m bus (d.sem m) e := by
  refine ⟨he.not_isVerhogen _, ?_, ?_, ?_⟩
  · cases e with
    | interrupt st => exact id
    | _ => exact he.elim
  · cases e with
    | interrupt st => exact id
    | _ => exact he.elim
  · rintro ⟨line, devNum, hs, hsem⟩
    obtain ⟨rfl, rfl⟩ := Prod.mk.inj (Option.some.inj
      ((servedDevice_eq_some_iff.mpr he).symm.trans (servedDevice_eq_some_iff.mpr hs)))
    exact ht (SubDevice.deviceSem_eq_iff.mp hsem)

namespace Nuc

variable {m : Machine} {a a' : Nuc} {e : Event} {p : PcbIx} {d : SubDevice} {s : Addr}

lemma untouched_step (hg : a.Good) (hrun : FromProcess e → a.cpu.IsRunning) (hsafe : a.Safe m e)
    (hstep : a.step m e = some a') (hu : Untouched m a.bus (d.sem m) e)
    (hw : ∀ v, e ≠ .writeInt (d.sem m) v) :
    a'.mem (d.sem m) = a.mem (d.sem m) ∧
      a'.blocked (d.sem m) = (a.blocked (d.sem m)).filter (· ∉ a.dead m e) := by
  obtain ⟨x, hx, hsem⟩ := sem_step hg hrun hsafe hstep (d.sem m)
  have hx : x = a.books.sem (d.sem m) := by
    cases hx with
    | verhogen h => exact absurd h hu.1
    | deviceDone h => exact absurd h hu.2.2.2
    | passeren p hc h =>
      rcases h with h | ⟨-, h⟩ | h
      · exact absurd h hu.2.1
      · exact absurd h (d.sem_ne_clock m)
      · exact absurd h hu.2.2.1
    | tick h hs => exact absurd hs (d.sem_ne_clock m)
    | write v h => exact absurd h (hw v)
    | idle => rfl
  rw [hx, bereaved, if_pos (d.isDeviceSem m)] at hsem
  exact ⟨congrArg Semaphore.value hsem, congrArg Semaphore.waiters hsem⟩

lemma dies_iff_of_waitForIo {mem : Addr → Int} {old new : Fin trapTypes → Addr}
    (he : IsWaitForIo m s e) : Dies m mem old new e ↔ 0 < mem s := by
  cases e with
  | syscall st =>
    obtain ⟨hcall, h8, rfl⟩ := he
    rw [Dies, if_neg hcall]
    unfold DiesInService
    rw [h8, if_neg (by decide), if_neg (by decide), if_neg (by decide), if_neg (by decide),
      if_neg (by decide), if_neg (by decide), if_neg (by decide), if_pos rfl]
    rfl
  | _ => exact he.elim

/-- SYS8 blocks the caller, or terminates it if the semaphore is above zero. -/
lemma request_step (hg : a.Good) (hrun : FromProcess e → a.cpu.IsRunning) (hsafe : a.Safe m e)
    (hstep : a.step m e = some a') (hc : a.currentProcess = some p)
    (he : IsWaitForIo m (d.sem m) e) :
    if 0 < a.mem (d.sem m) then p ∈ a'.free
    else a'.mem (d.sem m) = a.mem (d.sem m) - 1 ∧
      a'.blocked (d.sem m) = a.blocked (d.sem m) ++ [p] := by
  split_ifs with hv
  · apply (mem_free_step hg hrun hsafe hstep p).2
    rw [dead_of_current hc]
    unfold deaths
    rw [if_pos ((dies_iff_of_waitForIo he).mpr hv)]
    exact List.mem_append_right _ (List.mem_singleton_self p)
  · have hdead : a.dead m e = [] :=
      dead_of_not_dies fun _ _ hd => hv ((dies_iff_of_waitForIo he).mp hd)
    obtain ⟨x, hx, hsem⟩ := sem_step hg hrun hsafe hstep (d.sem m)
    have hx : x = (a.books.sem (d.sem m)).passeren p := by
      cases hx with
      | verhogen h => exact absurd h (he.not_isVerhogen _)
      | deviceDone h => exact absurd h he.not_isDeviceDone
      | passeren q hq h =>
        obtain rfl := Option.some.inj (hc.symm.trans hq)
        rfl
      | tick h hs => exact absurd hs (d.sem_ne_clock m)
      | write v h =>
        subst h
        exact he.elim
      | idle hv hd hp hc hi => exact absurd he hi
    rw [hx, bereaved, if_pos (d.isDeviceSem m), hdead, Semaphore.withdraw_nil] at hsem
    refine ⟨congrArg Semaphore.value hsem, ?_⟩
    have hblocked := congrArg Semaphore.waiters hsem
    unfold Semaphore.passeren at hblocked
    dsimp only at hblocked
    rw [if_pos] at hblocked
    · exact hblocked
    · change a.mem (d.sem m) - 1 < 0
      omega

/-- The process is ready or running, and has `w` in `v0`. -/
def GoesOnWith (a : Nuc) (p : PcbIx) (w : Word) : Prop :=
  p ∈ a.ready ∧ (a.pS p).sV0 = w ∨
    a.currentProcess = some p ∧ ∃ st, a.cpu = .running st ∧ st.sV0 = w

lemma GoesOnWith.not_free {w : Word} (h : a.GoesOnWith p w) (hi : a.Inv) : p ∉ a.free := by
  rcases h with ⟨hr, -⟩ | ⟨hc, -⟩
  · exact hi.mem_listAt_ne (i := .ready) (j := .free) hr (by simp)
  · exact (hi.homeless hc).free

lemma exitInterrupt_goesOnWith (hp : p ∈ a.ready) :
    (a.exitInterrupt m).GoesOnWith p (a.pS p).sV0 := by
  unfold exitInterrupt
  split_ifs with hc
  · unfold dispatch
    cases hr : a.ready with
    | nil => simp [hr] at hp
    | cons q rest =>
      rw [hr, List.mem_cons] at hp
      rcases hp with rfl | hp
      · exact .inr ⟨rfl, _, rfl, rfl⟩
      · exact .inl ⟨hp, rfl⟩
  · exact .inl ⟨hp, rfl⟩

lemma step_serves {line : Fin devIntNum} {devNum : Fin numDevicesPerType} {st : State}
    (he : Serves a.bus line devNum (.interrupt st)) :
    a.step m (.interrupt st) = some ((Nuc.deviceInterrupt m line devNum
      { a with oldArea := update a.oldArea .interrupt st }).exitInterrupt m) := by
  obtain ⟨hline, hdev⟩ := he
  obtain ⟨lineNum, hl, hline⟩ := Option.bind_eq_some_iff.mp hline
  have hplt : lineNum ≠ pltLine := by
    rintro rfl
    cases hline
  have hit : lineNum ≠ itLine := by
    rintro rfl
    cases hline
  unfold step interruptHandler
  dsimp only
  rw [update_self]
  simp only [hl, hline, hdev, Option.bind_eq_bind, Option.bind_some, if_neg hplt, if_neg hit,
    devNum.isLt, dite_true]
  rfl

lemma serves_sem (hstep : a.step m e = some a') (he : Serves a.bus d.line d.devNum e)
    (ht : d.Taken (a.bus.devreg d.line d.devNum)) :
    a'.books.sem (d.sem m) = (a.books.sem (d.sem m)).verhogen := by
  cases e with
  | interrupt st =>
    rw [step_serves he] at hstep
    obtain rfl := Option.some.inj hstep
    rw [exitInterrupt_books, deviceInterrupt_books]
    change (Books.deviceDone (deviceSem m d.line d.devNum (a.bus.devreg d.line d.devNum))
      a.books).sem _ = _
    rw [SubDevice.deviceSem_eq_iff.mpr ht]
    exact Books.sem_setSem _ _ _
  | _ => exact he.elim

lemma deviceInterrupt_wakes {l : List PcbIx} (ht : d.Taken (a.bus.devreg d.line d.devNum))
    (hv : a.mem (d.sem m) < 0) (hb : a.blocked (d.sem m) = p :: l) :
    let b := a.deviceInterrupt m d.line d.devNum
    b.ready = a.ready ++ [p] ∧ (b.pS p).sV0 = d.status (a.bus.devreg d.line d.devNum) := by
  intro b
  have hdel : b = ((a.store (d.sem m) (a.mem (d.sem m) + 1)).deliver (d.sem m)
      (d.status (a.bus.devreg d.line d.devNum))).acknowledge d.line d.devNum := by
    unfold b deviceInterrupt
    dsimp only
    rw [SubDevice.deviceSem_eq_iff.mpr ht, SubDevice.returnedStatus_eq ht, if_pos]
    change update a.mem _ _ _ ≤ 0
    rw [update_self]
    omega
  have hblocked : (a.store (d.sem m) (a.mem (d.sem m) + 1)).blocked (d.sem m) = p :: l := hb
  rw [hdel]
  unfold deliver acknowledge
  rw [hblocked]
  refine ⟨rfl, ?_⟩
  simp [State.sV0, State.setV0]

/-- The interrupt of the device wakes the process that has waited longest and gives it the
status. -/
lemma completion_step {l : List PcbIx} (hstep : a.step m e = some a')
    (he : Serves a.bus d.line d.devNum e) (ht : d.Taken (a.bus.devreg d.line d.devNum))
    (hv : a.mem (d.sem m) < 0) (hb : a.blocked (d.sem m) = p :: l) :
    a'.GoesOnWith p (d.status (a.bus.devreg d.line d.devNum)) := by
  cases e with
  | interrupt st =>
    rw [step_serves he] at hstep
    obtain rfl := Option.some.inj hstep
    obtain ⟨hready, hpS⟩ := deviceInterrupt_wakes
      (a := { a with oldArea := update a.oldArea .interrupt st }) ht hv hb
    have hgo := exitInterrupt_goesOnWith (m := m) (p := p)
      (a := Nuc.deviceInterrupt m d.line d.devNum
        { a with oldArea := update a.oldArea .interrupt st })
      (by rw [hready]; exact List.mem_append_right _ (List.mem_singleton_self p))
    rw [hpS] at hgo
    exact hgo
  | _ => exact he.elim

lemma serves_blocked_nil (hg : a.Good) (hrun : FromProcess e → a.cpu.IsRunning)
    (hsafe : a.Safe m e) (hstep : a.step m e = some a') (he : Serves a.bus d.line d.devNum e)
    (hb : a.blocked (d.sem m) = []) : a'.blocked (d.sem m) = [] := by
  have hdead : a.dead m e = [] := dead_of_not_dies fun _ _ => he.not_dies
  obtain ⟨x, hx, hsem⟩ := sem_step hg hrun hsafe hstep (d.sem m)
  have hx : x.waiters = [] := by
    cases hx with
    | verhogen h => exact absurd h (he.not_isVerhogen _)
    | deviceDone h => simp [Semaphore.verhogen, Books.sem, books, hb]
    | passeren q hq h =>
      cases e with
      | interrupt st => exact (h.elim id (Or.elim · And.left id)).elim
      | _ => exact he.elim
    | tick h hs => exact absurd hs (d.sem_ne_clock m)
    | write v h =>
      subst h
      exact he.elim
    | idle => exact hb
  rw [bereaved, if_pos (d.isDeviceSem m), hdead, Semaphore.withdraw_nil] at hsem
  exact (congrArg Semaphore.waiters hsem).trans hx

lemma Inv.count_eq_one (hi : a.Inv) (hp : p ∈ a.ready ∨ a.currentProcess = some p) :
    (a.ready ++ a.currentProcess.toList).count p = 1 := by
  obtain ⟨home, hpart⟩ := hi.homes
  have hready : a.ready.Nodup := hpart.nodup .ready
  have hrunning : a.currentProcess.toList.Nodup := hpart.nodup .running
  have hne : Home.ready ≠ Home.running := by simp
  have hdis : a.ready.Disjoint a.currentProcess.toList := hpart.disjoint hne
  apply List.count_eq_one_of_mem
  · exact List.nodup_append'.mpr ⟨hready, hrunning, hdis⟩
  · simpa using hp

lemma Inv.count_eq_zero (hi : a.Inv) (hp : p ∈ a.blocked s) :
    (a.ready ++ a.currentProcess.toList).count p = 0 := by
  rw [List.count_eq_zero, List.mem_append]
  rintro (hr | hr)
  · exact hi.mem_listAt_ne (i := .blocked s) (j := .ready) hp (by simp) hr
  · exact hi.mem_listAt_ne (i := .blocked s) (j := .running) hp (by simp) hr

end Nuc

end Kaya
