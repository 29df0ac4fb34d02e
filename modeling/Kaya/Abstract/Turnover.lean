import Kaya.Abstract.Resume

/-!
# Turns of the processor

The part of the nucleus that says whose turn it is, who is next and how long turns take. In a
step without termination it only depends on a few facts about the event: whether it ends the
turn, asks for the time, creates a process or makes processes ready.
-/

namespace Kaya

open Function Linked

/-- `STCK` when `i` readings have been taken. -/
def Machine.reading (m : Machine) (i : Nat) : Word := (m.tod i).sdiv m.timescale

/-- Which PCBs are free, who runs and since when, who is ready, how many readings of the clock
have been taken and how long everyone has run. -/
structure Turns where
  free : List PcbIx
  current : PcbPtr
  ready : List PcbIx
  start : Word
  reads : Nat
  total : PcbIx → Word

namespace Turns

/-- The running process is charged for its turn so far. -/
def charge (clock : Nat → Word) (t : Turns) : Turns :=
  match t.current with
  | none => t
  | some p => { t with
      reads := t.reads + 1
      total := update t.total p (t.total p + (clock t.reads - t.start)) }

/-- One reading of the clock. -/
def read (t : Turns) : Turns := { t with reads := t.reads + 1 }

/-- More processes become ready. -/
def append (l : List PcbIx) (t : Turns) : Turns := { t with ready := t.ready ++ l }

/-- A new process, at the head of the free list, has not run yet. -/
def reset (q : PcbPtr) (t : Turns) : Turns :=
  match q with
  | none => t
  | some q => { t with free := t.free.tail, total := update t.total q 0 }

/-- The first ready process gets a turn. -/
def dispatch (clock : Nat → Word) (t : Turns) : Turns :=
  match t.ready with
  | [] => { t with current := none }
  | p :: rest => { t with
      current := some p, ready := rest, start := clock t.reads, reads := t.reads + 1 }

end Turns

/-- What an event means for the turns. -/
structure News where
  ends : Bool
  asks : Bool
  created : PcbPtr
  added : List PcbIx
  switches : Bool

/-- The turns after an event. -/
def Turns.step (clock : Nat → Word) (n : News) (t : Turns) : Turns :=
  let t := if n.ends then t.charge clock else t
  let t := if n.asks then t.read else t
  let t := (t.append n.added).reset n.created
  if n.switches then t.dispatch clock else t

namespace Nuc

variable {m : Machine} {a a' : Nuc} {e : Event} {p : PcbIx} {s : Addr} {st : State}

def turns (a : Nuc) : Turns :=
  ⟨a.free, a.currentProcess, a.ready, a.processStartTime, a.todReads, a.pTotalTime⟩

/-- The process that SYS1 creates. -/
def newborn (a : Nuc) (e : Event) : PcbPtr := if IsCreate e then a.free.head? else none

/-- The processes that a step makes ready. -/
def nowReady (m : Machine) (a : Nuc) : Event → List PcbIx
  | .syscall st =>
    if ¬ IsCall st then []
    else if st.sA0 = createProcessNum then a.free.head?.toList
    else if st.sA0 = verhogenNum ∧ a.mem st.sA1 + 1 ≤ 0 then (a.blocked st.sA1).head?.toList
    else []
  | .interrupt st =>
    if determineLine st.sCause = some pltLine then a.currentProcess.toList
    else if determineLine st.sCause = some itLine then
      (a.blocked (m.semAddr itSemIndex)).take (-a.mem (m.semAddr itSemIndex)).toNat
    else (served m a.mem a.blocked a.bus (.interrupt st)).toList
  | _ => []

def news (m : Machine) (a : Nuc) (e : Event) : News where
  ends := EndsTurn m a.mem e
  asks := IsGetCpuTime e
  created := a.newborn e
  added := a.nowReady m e
  switches := Switches m a.mem a.currentProcess e

lemma dispatch_turns : (a.dispatch m).turns = a.turns.dispatch m.reading := by
  unfold dispatch turns Turns.dispatch
  cases a.ready with
  | nil =>
    dsimp only
    split_ifs <;> rfl
  | cons p rest => rfl

lemma charge_turns (hc : a.currentProcess = some p) :
    (a.charge m p).turns = a.turns.charge m.reading := by
  unfold turns Turns.charge
  simp only [hc]
  simp [charge, hc, now, Machine.reading]

lemma block_turns (hc : a.currentProcess = some p) :
    (a.block m st s p).turns = (a.turns.charge m.reading).dispatch m.reading := by
  unfold block
  dsimp only
  rw [dispatch_turns, ← charge_turns hc]
  unfold Turns.dispatch turns
  cases (a.charge m p).ready <;> simp

lemma wake_turns (a : Nuc) (s : Addr) :
    (a.wake s).turns = a.turns.append (a.blocked s).head?.toList := by
  unfold wake turns Turns.append
  cases a.blocked s <;> simp

lemma createProcess_turns {newState : Addr} (hs : a.createProcess newState = some a') :
    a'.turns = (a.turns.append a.free.head?.toList).reset a.free.head? := by
  unfold createProcess at hs
  split at hs
  · rename_i hf
    obtain rfl := Option.some.inj hs
    simp [hf, turns, Turns.append, Turns.reset, resume, setSyscallV0]
  · rename_i q rest hf
    obtain ⟨c, -, hs⟩ := Option.bind_eq_some_iff.mp hs
    obtain rfl := Option.some.inj hs
    simp [hf, turns, Turns.append, Turns.reset, resume, setSyscallV0, newChild]

lemma verhogen_turns (hs : a.verhogen s = some a') :
    a'.turns = a.turns.append (if a.mem s + 1 ≤ 0 then (a.blocked s).head?.toList else []) := by
  unfold verhogen at hs
  split at hs
  · obtain rfl := Option.some.inj hs
    have hmem : (a.store s (a.mem s + 1)).mem s = a.mem s + 1 := update_self ..
    rw [hmem]
    by_cases hv : a.mem s + 1 ≤ 0
    · rw [if_pos hv, if_pos hv]
      exact wake_turns (a.store s (a.mem s + 1)) s
    · rw [if_neg hv, if_neg hv]
      simp [turns, Turns.append, resume, store]
  · contradiction

lemma passeren_turns (hs : a.passeren m s = some a') :
    a'.turns = if a.mem s - 1 < 0 then (a.turns.charge m.reading).dispatch m.reading
      else a.turns := by
  unfold passeren at hs
  split at hs
  · have hmem : (a.store s (a.mem s - 1)).mem s = a.mem s - 1 := update_self ..
    dsimp only at hs
    rw [hmem] at hs
    by_cases hv : a.mem s - 1 < 0
    · rw [if_pos hv] at hs ⊢
      obtain ⟨q, hq, hs⟩ := Option.bind_eq_some_iff.mp hs
      obtain rfl := Option.some.inj hs
      exact block_turns hq
    · rw [if_neg hv] at hs ⊢
      obtain rfl := Option.some.inj hs
      rfl
  · contradiction

lemma waitForIo_turns {lineNum deviceNum termRead : Word}
    (hlive : ¬ 0 < a.mem (m.semAddr (ioIndex lineNum deviceNum termRead).toNat))
    (hs : a.waitForIo m lineNum deviceNum termRead = some a') :
    a'.turns = (a.turns.charge m.reading).dispatch m.reading := by
  unfold waitForIo at hs
  dsimp only at hs
  obtain ⟨q, hq, hs⟩ := Option.bind_eq_some_iff.mp hs
  split at hs
  · obtain rfl := Option.some.inj hs
    exact block_turns hq
  · rename_i hv
    simp only [store, update_self] at hv
    omega

lemma exceptionStateVec_turns {type : Word} {old new : Addr} (hc : a.currentProcess = some p)
    (hlive : ¬ ∀ h : type.toNat < trapTypes,
      ¬ (a.oldAreas p ⟨_, h⟩ = null ∧ a.newAreas p ⟨_, h⟩ = null))
    (hs : a.exceptionStateVec m type old new = some a') : a'.turns = a.turns := by
  unfold exceptionStateVec at hs
  simp only [hc, Option.bind_eq_bind, Option.bind_some] at hs
  split at hs
  · split at hs
    · obtain rfl := Option.some.inj hs
      simp [turns, resume, hc]
    · rename_i hv
      exact absurd (fun _ => hv) hlive
  · contradiction

lemma getCpuTime_turns (hs : a.getCpuTime m = some a') : a'.turns = a.turns.read := by
  unfold getCpuTime at hs
  obtain ⟨c, -, hs⟩ := Option.bind_eq_some_iff.mp hs
  obtain rfl := Option.some.inj hs
  rfl

lemma passUpOrDie_turns {area : OldArea} {type : Fin trapTypes} (hc : a.currentProcess = some p)
    (hlive : ¬ NoVector (a.oldAreas p) (a.newAreas p) type)
    (hs : a.passUpOrDie m area type = some a') : a'.turns = a.turns := by
  unfold passUpOrDie at hs
  simp only [hc, Option.bind_eq_bind, Option.bind_some] at hs
  split_ifs at hs with hv
  · exact absurd hv hlive
  · obtain rfl := Option.some.inj hs
    simp [turns, resume, hc]

lemma news_plain (h1 : st.sA0 ≠ createProcessNum) (h3 : st.sA0 ≠ verhogenNum)
    (h6 : st.sA0 ≠ getCpuTimeNum) :
    a.turns.step m.reading (a.news m (.syscall st)) =
      if Blocks m a.mem (.syscall st) then (a.turns.charge m.reading).dispatch m.reading
      else a.turns := by
  by_cases hb : Blocks m a.mem (.syscall st)
  · simp [Turns.step, Turns.append, Turns.reset, news, nowReady, newborn, IsCreate, IsGetCpuTime,
      Switches, EndsTurn, h1, h3, h6, hb]
  · simp [Turns.step, Turns.append, Turns.reset, news, nowReady, newborn, IsCreate, IsGetCpuTime,
      Switches, EndsTurn, IsPreemption, IsInterrupt, h1, h3, h6, hb]

lemma news_quiet (hb : ¬ EndsTurn m a.mem e) (hi : ¬ IsInterrupt e) (ha : ¬ IsGetCpuTime e)
    (hc : ¬ IsCreate e) (hr : a.nowReady m e = []) :
    a.turns.step m.reading (a.news m e) = a.turns := by
  simp [Turns.step, Turns.append, Turns.reset, news, newborn, Switches, hb, hi, ha, hc, hr]

lemma service_turns (hcall : IsCall st) (hc : a.currentProcess = some p)
    (hlive : ¬ DiesInService m a.mem (a.oldAreas p) (a.newAreas p) st)
    (hs : a.service m st = some a') :
    a'.turns = a.turns.step m.reading (a.news m (.syscall st)) := by
  unfold service at hs
  unfold DiesInService at hlive
  split_ifs at hs hlive with h1 h2 h3 h4 h5 h6 h7 h8
  · rw [createProcess_turns hs]
    simp [Turns.step, news, Switches, EndsTurn, Blocks, IsPreemption, IsInterrupt, nowReady,
      newborn, IsCreate, IsGetCpuTime, hcall, h1, createProcessNum, getCpuTimeNum, passerenNum,
      waitForClockNum, waitForIoNum]
  · exact absurd trivial hlive
  · rw [verhogen_turns hs]
    simp [Turns.step, Turns.reset, news, Switches, EndsTurn, Blocks, IsPreemption, IsInterrupt,
      nowReady, newborn, IsCreate, IsGetCpuTime, hcall, h3, verhogenNum, createProcessNum,
      getCpuTimeNum, passerenNum, waitForClockNum, waitForIoNum]
  · rw [passeren_turns hs, news_plain h1 h3 (by rw [h4]; decide)]
    simp [Blocks, hcall, h4, passerenNum, waitForClockNum, waitForIoNum]
  · have hb : ¬ Blocks m a.mem (.syscall st) := by
      simp [Blocks, h5, exceptionStateVecNum, passerenNum, waitForClockNum, waitForIoNum]
    rw [exceptionStateVec_turns hc hlive hs, news_plain h1 h3 (by rw [h5]; decide), if_neg hb]
  · rw [getCpuTime_turns hs]
    simp [Turns.step, Turns.reset, Turns.append, Turns.read, news, Switches, EndsTurn, Blocks,
      IsPreemption, IsInterrupt, nowReady, newborn, IsCreate, IsGetCpuTime, hcall, h6,
      createProcessNum, getCpuTimeNum, verhogenNum, passerenNum, waitForClockNum, waitForIoNum]
  · have hturns := passeren_turns (a := { a with softBlockCount := a.softBlockCount + 1 }) hs
    have hb : Blocks m a.mem (.syscall st) ↔ a.mem (m.semAddr itSemIndex) - 1 < 0 := by
      simp [Blocks, hcall, h7, passerenNum, waitForClockNum, waitForIoNum]
    rw [news_plain h1 h3 h6, if_congr hb rfl rfl]
    exact hturns
  · have hb : Blocks m a.mem (.syscall st) := by
      refine ⟨hcall, .inr (.inr ⟨h8, ?_⟩)⟩
      change a.mem (m.semAddr (ioIndex st.sA1 st.sA2 st.sA3).toNat) - 1 < 0
      omega
    rw [waitForIo_turns hlive hs, news_plain h1 h3 h6, if_pos hb]
  · have hb : ¬ Blocks m a.mem (.syscall st) := by
      simp [Blocks, h4, h7, h8]
    rw [passUpOrDie_turns hc hlive hs, news_plain h1 h3 h6, if_neg hb]

lemma syscallHandler_turns (hold : a.oldArea .syscall = st) (hc : a.currentProcess = some p)
    (hlive : ¬ Dies m a.mem (a.oldAreas p) (a.newAreas p) (.syscall st))
    (hs : a.syscallHandler m = some a') :
    a'.turns = a.turns.step m.reading (a.news m (.syscall st)) := by
  unfold syscallHandler at hs
  rw [hold] at hs
  unfold Dies at hlive
  dsimp only at hlive
  by_cases hcall : IsCall st
  · rw [if_neg hcall] at hs hlive
    exact service_turns (a := { a with oldArea := update a.oldArea .syscall st.advancePc }) hcall
      hc hlive hs
  · rw [if_pos (not_not.mp hcall)] at hs hlive
    have hturns := passUpOrDie_turns (a := { a with
      oldArea := update a.oldArea .programTrap { st with sCause := allOff ||| priviledgedInstr } })
      hc hlive hs
    rw [news_quiet]
    · exact hturns
    · simp [EndsTurn, Blocks, IsPreemption, hcall]
    · exact not_false
    · simp [IsGetCpuTime, hcall]
    · simp [IsCreate, hcall]
    · simp [nowReady, hcall]

lemma deliver_turns (a : Nuc) (s : Addr) (status : Word) :
    (a.deliver s status).turns = a.turns.append (a.blocked s).head?.toList := by
  unfold deliver turns Turns.append
  cases a.blocked s <;> simp

lemma deviceInterrupt_turns (line : Fin devIntNum) (devNum : Fin numDevicesPerType) :
    let s := deviceSem m line devNum (a.bus.devreg line devNum)
    (a.deviceInterrupt m line devNum).turns =
      a.turns.append (if a.mem s + 1 ≤ 0 then (a.blocked s).head? else none).toList := by
  intro s
  unfold deviceInterrupt
  dsimp only
  have hmem : (a.store s (a.mem s + 1)).mem s = a.mem s + 1 := update_self ..
  rw [hmem]
  by_cases hv : a.mem s + 1 ≤ 0
  · rw [if_pos hv, if_pos hv]
    exact deliver_turns (a.store s (a.mem s + 1)) s _
  · rw [if_neg hv, if_neg hv]
    simp [turns, Turns.append, store]

lemma exitInterrupt_turns (b : Nuc) :
    (b.exitInterrupt m).turns =
      if b.currentProcess = none then b.turns.dispatch m.reading else b.turns := by
  unfold exitInterrupt
  split_ifs
  · exact dispatch_turns
  · rfl

lemma news_interrupt :
    a.turns.step m.reading (a.news m (.interrupt st)) =
      if determineLine st.sCause = some pltLine then
        ((a.turns.charge m.reading).append a.currentProcess.toList).dispatch m.reading
      else if a.currentProcess = none then
        (a.turns.append (a.nowReady m (.interrupt st))).dispatch m.reading
      else a.turns.append (a.nowReady m (.interrupt st)) := by
  have hask : (a.news m (.interrupt st)).asks = false := decide_eq_false not_false
  have hcreate : (a.news m (.interrupt st)).created = none := by
    simp [news, newborn, IsCreate]
  have hends : (a.news m (.interrupt st)).ends = (determineLine st.sCause = some pltLine) := by
    simp [news, EndsTurn, Blocks, IsPreemption]
  have hsw : (a.news m (.interrupt st)).switches =
      (determineLine st.sCause = some pltLine ∨ a.currentProcess = none) := by
    simp [news, Switches, EndsTurn, Blocks, IsPreemption, IsInterrupt]
  unfold Turns.step
  simp only [hask, hcreate, hends, hsw, Turns.reset]
  by_cases hp : determineLine st.sCause = some pltLine
  · simp [hp, news, nowReady]
  · by_cases hc : a.currentProcess = none <;> simp [hp, hc, news]

lemma interruptHandler_turns (hold : a.oldArea .interrupt = st)
    (hs : a.interruptHandler m = some a') :
    a'.turns = a.turns.step m.reading (a.news m (.interrupt st)) := by
  rw [news_interrupt]
  unfold interruptHandler at hs
  rw [hold] at hs
  obtain ⟨lineNum, hl, hs⟩ := Option.bind_eq_some_iff.mp hs
  split_ifs at hs with hp hi
  · subst hp
    unfold pltInterrupt at hs
    obtain ⟨p, hc, hs⟩ := Option.bind_eq_some_iff.mp hs
    obtain rfl := Option.some.inj hs
    have happend : ({ a.charge m p with ready := (a.charge m p).ready ++ [p] } : Nuc).turns =
        (a.turns.charge m.reading).append [p] := by
      rw [← charge_turns hc]
      rfl
    rw [if_pos hl, hc, dispatch_turns, happend]
    rfl
  · subst hi
    obtain ⟨b, hb, hs⟩ := Option.bind_eq_some_iff.mp hs
    obtain rfl := Option.some.inj hs
    unfold itInterrupt at hb
    dsimp only at hb
    split_ifs at hb
    obtain rfl := Option.some.inj hb
    have hready : a.nowReady m (.interrupt st) =
        (a.blocked (m.semAddr itSemIndex)).take (-a.mem (m.semAddr itSemIndex)).toNat := by
      unfold nowReady
      dsimp only
      rw [hl]
      rfl
    rw [if_neg (by rw [hl]; decide), hready]
    exact exitInterrupt_turns _
  · obtain ⟨line, hline, hs⟩ := Option.bind_eq_some_iff.mp hs
    obtain ⟨devNum, hdev, hs⟩ := Option.bind_eq_some_iff.mp hs
    split_ifs at hs with hlt
    obtain rfl := Option.some.inj hs
    have hne : ∀ n, lineNum ≠ n → determineLine st.sCause ≠ some n := by
      intro n hn
      rw [hl]
      exact fun h => hn (Option.some.inj h)
    have hready : a.nowReady m (.interrupt st) =
        (served m a.mem a.blocked a.bus (.interrupt st)).toList := by
      unfold nowReady
      dsimp only
      rw [if_neg (hne _ hp), if_neg (hne _ hi)]
    have hserved : served m a.mem a.blocked a.bus (.interrupt st) =
        let s := deviceSem m line ⟨devNum, hlt⟩ (a.bus.devreg line ⟨devNum, hlt⟩)
        if a.mem s + 1 ≤ 0 then (a.blocked s).head? else none := by
      simp [served, servedDevice, hl, hline, hdev, hlt]
    rw [if_neg (hne _ hp), hready, hserved, exitInterrupt_turns, deviceInterrupt_currentProcess,
      deviceInterrupt_turns]

/-- A step in which nobody is terminated does to the turns what its news say. -/
theorem step_turns (hg : a.Good) (hrun : FromProcess e → a.cpu.IsRunning)
    (hlive : ∀ p, a.currentProcess = some p → ¬ Dies m a.mem (a.oldAreas p) (a.newAreas p) e)
    (hs : a.step m e = some a') : a'.turns = a.turns.step m.reading (a.news m e) := by
  have hcur : FromProcess e → ∃ p, a.currentProcess = some p := fun he =>
    Option.ne_none_iff_exists'.mp (hg.onCpu.mp (hrun he))
  have hends : ¬ IsInterrupt e → (∀ st, e ≠ .syscall st) → ¬ EndsTurn m a.mem e := by
    intro hi hsys
    cases e with
    | syscall st => exact absurd rfl (hsys st)
    | interrupt st => exact absurd trivial hi
    | _ => simp [EndsTurn, Blocks, IsPreemption]
  cases e with
  | syscall st =>
    obtain ⟨p, hc⟩ := hcur trivial
    exact syscallHandler_turns (a := { a with oldArea := update a.oldArea .syscall st })
      (by simp) hc (hlive p hc) hs
  | programTrap st =>
    obtain ⟨p, hc⟩ := hcur trivial
    rw [news_quiet (hends not_false (by simp)) not_false not_false not_false rfl]
    exact passUpOrDie_turns (a := { a with oldArea := update a.oldArea .programTrap st }) hc
      (hlive p hc) hs
  | tlbManagement st =>
    obtain ⟨p, hc⟩ := hcur trivial
    rw [news_quiet (hends not_false (by simp)) not_false not_false not_false rfl]
    exact passUpOrDie_turns (a := { a with oldArea := update a.oldArea .tlbManagement st }) hc
      (hlive p hc) hs
  | interrupt st =>
    exact interruptHandler_turns (a := { a with oldArea := update a.oldArea .interrupt st })
      (by simp) hs
  | device bus =>
    rw [news_quiet (hends not_false (by simp)) not_false not_false not_false rfl]
    obtain rfl := Option.some.inj hs
    rfl
  | writeInt s v =>
    rw [news_quiet (hends not_false (by simp)) not_false not_false not_false rfl]
    obtain rfl := Option.some.inj hs
    rfl
  | writeState s st =>
    rw [news_quiet (hends not_false (by simp)) not_false not_false not_false rfl]
    obtain rfl := Option.some.inj hs
    rfl

end Nuc

end Kaya
