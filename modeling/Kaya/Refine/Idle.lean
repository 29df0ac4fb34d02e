import Kaya.Abstract.Served
import Kaya.Nucleus.Idle
import Kaya.Refine.Runs

/-!
# The idle branch as one step

The nucleus whose `Scheduler` runs its idle branch in one go is the one whose branch is never
disturbed.
-/

namespace Kaya

open Function Linked

variable {m : Machine} {k k' k₀ : Kernel} {e : Event} {h : History} {w w' : Moment} {s : Stage}

/-! ### The two kinds of handlers -/

/-- The rest of a handler, with `Scheduler` in one go. -/
def Outcome.finish (m : Machine) : Outcome → Option Kernel
  | .calls k => scheduler m k
  | .done k => some k

namespace ToScheduler

/-- `o` is what `x` does up to its call of `Scheduler`. -/
def Leads (m : Machine) (o : Option Outcome) (x : Option Kernel) : Prop :=
  o.bind (Outcome.finish m) = x

lemma Leads.bind {α : Type} {x : Option α} {f : α → Option Outcome} {g : α → Option Kernel}
    (h : ∀ v, Leads m (f v) (g v)) : Leads m (x.bind f) (x.bind g) := by
  cases x with
  | none => rfl
  | some v => exact h v

lemma Leads.ite {c : Prop} [Decidable c] {o o' : Option Outcome} {x x' : Option Kernel}
    (h : Leads m o x) (h' : Leads m o' x') :
    Leads m (if c then o else o') (if c then x else x') := by
  split
  · exact h
  · exact h'

lemma Leads.done (x : Option Kernel) : Leads m (x.map .done) x := by
  cases x <;> rfl

lemma terminateProcess_leads (p : PcbPtr) (k : Kernel) :
    Leads m (terminateProcess m p k) (Kaya.terminateProcess m p k) :=
  .bind fun _ => .bind fun _ => rfl

lemma blockHelperFunction_leads (area : OldArea) (semaddr : Addr) (p : PcbPtr) (k : Kernel) :
    Leads m (blockHelperFunction m area semaddr p k)
      (Kaya.blockHelperFunction m area semaddr p k) :=
  .bind fun _ => .bind fun _ => .bind fun _ => rfl

lemma passeren_leads (semaddr : Addr) (k : Kernel) :
    Leads m (passeren m semaddr k) (Kaya.passeren m semaddr k) :=
  .bind fun _ => .ite (blockHelperFunction_leads ..) rfl

lemma exceptionStateVec_leads (type : Word) (old new : Addr) (k : Kernel) :
    Leads m (exceptionStateVec m type old new k) (Kaya.exceptionStateVec m type old new k) := by
  refine .bind fun current => ?_
  split
  · exact .ite rfl (terminateProcess_leads ..)
  · rfl

lemma waitForIo_leads (lineNum deviceNum termRead : Word) (k : Kernel) :
    Leads m (waitForIo m lineNum deviceNum termRead k)
      (Kaya.waitForIo m lineNum deviceNum termRead k) :=
  .bind fun _ => .ite (blockHelperFunction_leads ..) (terminateProcess_leads ..)

lemma passUpOrDie_leads (area : OldArea) (type : Fin trapTypes) (k : Kernel) :
    Leads m (passUpOrDie m area type k) (Kaya.passUpOrDie m area type k) :=
  .bind fun _ => .ite (terminateProcess_leads ..) rfl

lemma syscallSwitch_leads (a0 a1 a2 a3 : Word) (k : Kernel) :
    Leads m (syscallSwitch m a0 a1 a2 a3 k) (Kaya.syscallSwitch m a0 a1 a2 a3 k) := by
  unfold syscallSwitch Kaya.syscallSwitch
  refine .ite (.done _) (.ite (terminateProcess_leads ..) (.ite (.done _) (.ite ?_ (.ite ?_
    (.ite (.done _) (.ite ?_ (.ite ?_ ?_)))))))
  · exact passeren_leads ..
  · exact exceptionStateVec_leads ..
  · exact passeren_leads ..
  · exact waitForIo_leads ..
  · exact passUpOrDie_leads ..

lemma syscallHandler_leads (k : Kernel) :
    Leads m (syscallHandler m k) (Kaya.syscallHandler m k) :=
  .ite (passUpOrDie_leads ..) (syscallSwitch_leads ..)

lemma exitInterruptHandler_leads (x : Option Kernel) :
    Leads m (x.map exitInterruptHandler) (x.bind (Kaya.exitInterruptHandler m)) := by
  cases x with
  | none => rfl
  | some k =>
    unfold Leads exitInterruptHandler Kaya.exitInterruptHandler
    simp only [Option.map_some, Option.bind_some]
    split <;> rfl

lemma interruptHandler_eq (k : Kernel) : Kaya.interruptHandler m k =
    (determineLine (k.oldArea .interrupt).sCause).bind fun lineNum =>
      if lineNum = pltLine then Kaya.pltInterruptHandler m k
      else (serveLine m lineNum k).bind (Kaya.exitInterruptHandler m) := by
  unfold Kaya.interruptHandler serveLine
  congr 1
  funext lineNum
  split
  · rfl
  · split
    · rfl
    · cases deviceLine lineNum with
      | none => rfl
      | some line =>
        simp only [Option.bind_eq_bind, Option.bind_some]
        cases determineDevice (k.bus.interruptDev line) with
        | none => rfl
        | some devNum =>
          simp only [Option.bind_some]
          split <;> rfl

lemma interruptHandler_leads (k : Kernel) :
    Leads m (interruptHandler m k) (Kaya.interruptHandler m k) := by
  rw [interruptHandler_eq]
  refine .bind fun lineNum => .ite ?_ ?_
  · exact .bind fun _ => .bind fun _ => rfl
  · exact exitInterruptHandler_leads (serveLine m lineNum k)

/-- The handlers are those of the nucleus, up to their call of `Scheduler`. -/
theorem step_leads (k : Kernel) (e : Event) : Leads m (step m k e) (Kaya.step m k e) := by
  cases e with
  | syscall st => exact syscallHandler_leads _
  | programTrap st => exact passUpOrDie_leads ..
  | tlbManagement st => exact passUpOrDie_leads ..
  | interrupt st => exact interruptHandler_leads _
  | _ => rfl

end ToScheduler

/-! ### `Scheduler` in two parts -/

namespace Kernel

/-- Other values of what the statements of the idle branch set. -/
def settle (c : PcbPtr) (t : Word) (k : Kernel) : Kernel :=
  { k with currentProcess := c, timer := t }

/-- What the idle branch makes of the state. -/
def settled (k : Kernel) : Kernel := k.settle none suspendTime

@[simp] lemma settle_bus (c : PcbPtr) (t : Word) (k : Kernel) : (k.settle c t).bus = k.bus := rfl

lemma settle_self (k : Kernel) : k.settle k.currentProcess k.timer = k := rfl

lemma settled_eq (hc : k.currentProcess = none) (ht : k.timer = suspendTime) :
    k.settled = k := by
  unfold settled
  rw [← hc, ← ht, settle_self]

end Kernel

/-- What `setSTATUS` sets. -/
def idleStatus : Word := allOff ||| currInterruptsUnmasked ||| interruptMaskOn

/-- Where the nucleus gets to if nothing disturbs it. -/
def Moment.whole (w : Moment) : Kernel :=
  match w.stage with
  | none => w.kernel
  | some _ => w.kernel.settled

lemma insertProcQ_ne_none {tp p q : PcbPtr} {t t' : ProcTable}
    (h : insertProcQ tp p t = some (q, t')) : q ≠ none := by
  rintro rfl
  unfold insertProcQ at h
  cases p with
  | none => cases h
  | some p =>
    cases tp with
    | none => simp at h
    | some z => simp [Option.bind_eq_some_iff] at h

lemma removeProcQ_ne_none {z : PcbIx} {p q : PcbPtr} {t t' : ProcTable}
    (h : removeProcQ (some z) t = some (p, q, t')) : p ≠ none := by
  rintro rfl
  unfold removeProcQ at h
  dsimp only at h
  split at h
  · simp at h
  · simp [Option.bind_eq_some_iff] at h

lemma scheduler_eq_openScheduler (k : Kernel) :
    scheduler m k = (openScheduler m k).map Moment.whole := by
  unfold scheduler openScheduler
  cases removeProcQ k.readyQ k.procs with
  | none => rfl
  | some r =>
    obtain ⟨newProcess, readyQ, procs⟩ := r
    cases newProcess with
    | none =>
      simp only [Option.bind_eq_bind, Option.bind_some]
      split_ifs <;> rfl
    | some p => rfl

/-- `Scheduler` does not read what the branch sets. -/
lemma scheduler_settle (hq : k.readyQ = none → k.processCount ≠ 0 ∧ k.softBlockCount ≠ 0)
    (c : PcbPtr) (t : Word) :
    scheduler m (k.settle c t) = (openScheduler m k).map Moment.whole := by
  unfold scheduler openScheduler Kernel.settle
  dsimp only
  cases hr : k.readyQ with
  | none =>
    obtain ⟨hp, hs⟩ := hq hr
    simp only [removeProcQ, Option.bind_eq_bind, Option.bind_some, if_neg hp, if_neg hs]
    rfl
  | some z =>
    cases hrem : removeProcQ (some z) k.procs with
    | none => rfl
    | some r =>
      obtain ⟨newProcess, readyQ, procs⟩ := r
      cases newProcess with
      | none => exact absurd rfl (removeProcQ_ne_none hrem)
      | some p => rfl

lemma openScheduler_cases (h : openScheduler m k = some w) : w.stage = none ∨
    w = ⟨{ k with cpu := .waiting idleStatus }, some .opened⟩ ∧ k.readyQ = none ∧
      k.processCount ≠ 0 ∧ k.softBlockCount ≠ 0 := by
  unfold openScheduler at h
  cases hr : k.readyQ with
  | none =>
    simp only [hr, removeProcQ, Option.bind_eq_bind, Option.bind_some] at h
    split_ifs at h with hp hs
    · obtain rfl := Option.some.inj h
      exact .inl rfl
    · obtain rfl := Option.some.inj h
      exact .inl rfl
    · obtain rfl := Option.some.inj h
      refine .inr ⟨?_, rfl, hp, hs⟩
      rw [← hr]
      rfl
  | some z =>
    rw [hr] at h
    obtain ⟨⟨newProcess, readyQ, procs⟩, hrem, h⟩ := Option.bind_eq_some_iff.mp h
    cases newProcess with
    | none => exact absurd rfl (removeProcQ_ne_none hrem)
    | some p =>
      obtain rfl := Option.some.inj h
      exact .inl rfl

/-! ### The handlers of the other lines -/

section Settle

variable (c : PcbPtr) (t : Word)

lemma unblockWaiter_settle (sema4 : Addr) (status : Word) (k : Kernel) :
    unblockWaiter sema4 status (k.settle c t) =
      (unblockWaiter sema4 status k).map (Kernel.settle c t) := by
  unfold unblockWaiter Kernel.settle
  dsimp only
  cases removeBlocked sema4 k.procs k.asl with
  | none => rfl
  | some r =>
    obtain ⟨proc, procs, asl⟩ := r
    cases proc with
    | none => rfl
    | some p =>
      simp only [Option.bind_eq_bind, Option.bind_some]
      cases insertProcQ k.readyQ (some p) _ with
      | none => rfl
      | some r => rfl

lemma serveDevice_settle (line : Fin devIntNum) (devNum : Fin numDevicesPerType) (k : Kernel) :
    serveDevice m line devNum (k.settle c t) =
      (serveDevice m line devNum k).map (Kernel.settle c t) := by
  unfold serveDevice
  simp only [Kernel.settle_bus, unblockWaiter_settle]
  cases unblockWaiter _ _ k <;> rfl

lemma deviceInterruptHandler_settle (line : Fin devIntNum) (devNum : Fin numDevicesPerType)
    (k : Kernel) : deviceInterruptHandler m line devNum (k.settle c t) =
      (deviceInterruptHandler m line devNum k).map (Kernel.settle c t) := by
  let v := deviceSem m line devNum (k.bus.devreg line devNum)
  have hserve := serveDevice_settle (m := m) c t line devNum (k.store v (k.mem v + 1))
  unfold deviceInterruptHandler
  change (if (k.store v (k.mem v + 1)).mem v ≤ 0 then
      serveDevice m line devNum ((k.store v (k.mem v + 1)).settle c t)
    else some ((k.store v (k.mem v + 1)).settle c t)) =
    (if (k.store v (k.mem v + 1)).mem v ≤ 0 then
      serveDevice m line devNum (k.store v (k.mem v + 1))
    else some (k.store v (k.mem v + 1))).map _
  split
  · exact hserve
  · rfl

lemma itLoop_settle (sema4 : Addr) (fuel : Nat) (k : Kernel) :
    itLoop sema4 fuel (k.settle c t) = (itLoop sema4 fuel k).map (Kernel.settle c t) := by
  induction fuel generalizing k with
  | zero => rfl
  | succ fuel ih =>
    unfold itLoop
    change (if k.mem sema4 < 0 then _ else some (k.settle c t)) = _
    split
    · dsimp only [Kernel.settle, Kernel.store]
      cases removeBlocked sema4 k.procs k.asl with
      | none => rfl
      | some r =>
        obtain ⟨p, procs, asl⟩ := r
        simp only [Option.bind_eq_bind, Option.bind_some]
        cases insertProcQ k.readyQ p procs with
        | none => rfl
        | some r =>
          exact ih { k with
            procs := r.2
            asl
            readyQ := r.1
            mem := update k.mem sema4 (k.mem sema4 + 1)
            softBlockCount := k.softBlockCount - 1 }
    · rfl

lemma serveLine_settle (lineNum : Nat) (k : Kernel) :
    ToScheduler.serveLine m lineNum (k.settle c t) =
      (ToScheduler.serveLine m lineNum k).map (Kernel.settle c t) := by
  unfold ToScheduler.serveLine
  split
  · unfold itInterruptHandler
    change (itLoop _ _ (k.settle c t)).bind _ = ((itLoop _ _ k).bind _).map _
    rw [itLoop_settle]
    change ((itLoop _ ((-k.mem (m.semAddr itSemIndex)).toNat + 1) k).map _).bind _ = _
    cases itLoop _ _ k <;> rfl
  · cases deviceLine lineNum with
    | none => rfl
    | some line =>
      simp only [Option.bind_eq_bind, Option.bind_some]
      change (determineDevice (k.bus.interruptDev line)).bind _ = _
      cases determineDevice (k.bus.interruptDev line) with
      | none => rfl
      | some devNum =>
        simp only [Option.bind_some]
        split
        · exact deviceInterruptHandler_settle c t line _ k
        · rfl

end Settle

/-- What the handler of a line keeps. With nobody ready in the end, it has unblocked nobody. -/
structure IdleKept (k k' : Kernel) : Prop where
  processCount : k'.processCount = k.processCount
  cpu : k'.cpu = k.cpu
  idle : k'.readyQ = none → k.readyQ = none ∧ k'.softBlockCount = k.softBlockCount

lemma unblockWaiter_idleKept {sema4 : Addr} {status : Word}
    (h : unblockWaiter sema4 status k = some k') : IdleKept k k' := by
  unfold unblockWaiter at h
  obtain ⟨⟨proc, procs, asl⟩, -, h⟩ := Option.bind_eq_some_iff.mp h
  cases proc with
  | none =>
    obtain rfl := Option.some.inj h
    exact ⟨rfl, rfl, fun hq => ⟨hq, rfl⟩⟩
  | some p =>
    obtain ⟨⟨readyQ, procs'⟩, hins, h⟩ := Option.bind_eq_some_iff.mp h
    obtain rfl := Option.some.inj h
    exact ⟨rfl, rfl, fun hq => absurd hq (insertProcQ_ne_none hins)⟩

lemma deviceInterruptHandler_idleKept {line : Fin devIntNum} {devNum : Fin numDevicesPerType}
    (h : deviceInterruptHandler m line devNum k = some k') : IdleKept k k' := by
  unfold deviceInterruptHandler at h
  dsimp only at h
  split at h
  · obtain ⟨k₁, hk₁, h⟩ := Option.bind_eq_some_iff.mp h
    obtain rfl := Option.some.inj h
    have hkept := unblockWaiter_idleKept hk₁
    exact ⟨hkept.processCount, hkept.cpu, hkept.idle⟩
  · obtain rfl := Option.some.inj h
    exact ⟨rfl, rfl, fun hq => ⟨hq, rfl⟩⟩

lemma itLoop_idleKept {sema4 : Addr} {fuel : Nat} (h : itLoop sema4 fuel k = some k') :
    IdleKept k k' := by
  induction fuel generalizing k with
  | zero => cases h
  | succ fuel ih =>
    unfold itLoop at h
    split at h
    · obtain ⟨⟨p, procs, asl⟩, -, h⟩ := Option.bind_eq_some_iff.mp h
      obtain ⟨⟨readyQ, procs'⟩, hins, h⟩ := Option.bind_eq_some_iff.mp h
      have hkept := ih h
      exact ⟨hkept.processCount, hkept.cpu, fun hq =>
        absurd (hkept.idle hq).1 (insertProcQ_ne_none hins)⟩
    · obtain rfl := Option.some.inj h
      exact ⟨rfl, rfl, fun hq => ⟨hq, rfl⟩⟩

lemma serveLine_idleKept {lineNum : Nat} (h : ToScheduler.serveLine m lineNum k = some k') :
    IdleKept k k' := by
  unfold ToScheduler.serveLine at h
  split at h
  · obtain ⟨k₁, hk₁, h⟩ := Option.bind_eq_some_iff.mp h
    obtain rfl := Option.some.inj h
    have hkept := itLoop_idleKept hk₁
    exact ⟨hkept.processCount, hkept.cpu, hkept.idle⟩
  · obtain ⟨line, -, h⟩ := Option.bind_eq_some_iff.mp h
    obtain ⟨devNum, -, h⟩ := Option.bind_eq_some_iff.mp h
    split at h
    · exact deviceInterruptHandler_idleKept h
    · cases h

lemma serveLine_same {lineNum : Nat} (h : ToScheduler.serveLine m lineNum k = some k') :
    k'.currentProcess = k.currentProcess ∧ k'.timer = k.timer := by
  have hsettle := serveLine_settle (m := m) k.currentProcess k.timer lineNum k
  rw [k.settle_self, h] at hsettle
  have hk' : k' = k'.settle k.currentProcess k.timer := Option.some.inj hsettle
  rw [hk']
  exact ⟨rfl, rfl⟩

/-! ### Moments that nothing has disturbed -/

/-- The interrupt makes a process ready. -/
def Wakes (m : Machine) (k : Kernel) (e : Event) : Prop :=
  IsTick e ∧ k.mem m.clock < 0 ∨
    ∃ line devNum, Serves k.bus line devNum e ∧
      k.mem (deviceSem m line devNum (k.bus.devreg line devNum)) < 0 ∧
        k.waiters (deviceSem m line devNum (k.bus.devreg line devNum)) ≠ []

/-- In the idle branch the local timer does not interrupt, and nobody is woken as long as
`currentProcess` still points to a process that is gone. -/
def Settled (m : Machine) (w : Moment) : Act → Prop
  | .statement => True
  | .event e => w.stage ≠ none →
      ¬ IsPreemption e ∧ (w.kernel.currentProcess ≠ none → ¬ Wakes m w.kernel e)

/-- The idle branch is as it was entered, up to the statements executed. -/
structure Moment.Calm (w : Moment) : Prop where
  cpu : w.stage ≠ none → w.kernel.cpu = .waiting idleStatus
  readyQ : w.stage ≠ none → w.kernel.readyQ = none
  counts : w.stage ≠ none → w.kernel.processCount ≠ 0 ∧ w.kernel.softBlockCount ≠ 0
  currentProcess : w.stage ≠ none → w.stage ≠ some .opened → w.kernel.currentProcess = none
  timer : w.stage = some .timed → w.kernel.timer = suspendTime

lemma Moment.Calm.outside (h : w.stage = none) : w.Calm where
  cpu hn := absurd h hn
  readyQ hn := absurd h hn
  counts hn := absurd h hn
  currentProcess hn := absurd h hn
  timer ht := by
    rw [h] at ht
    cases ht

lemma openScheduler_calm (h : openScheduler m k = some w) : w.Calm := by
  rcases openScheduler_cases h with hnone | ⟨rfl, hq, hp, hs⟩
  · exact .outside hnone
  · exact ⟨fun _ => rfl, fun _ => hq, fun _ => ⟨hp, hs⟩, fun _ hne => absurd rfl hne, fun ht => by
      cases ht⟩

lemma Moment.Calm.statement (hw : w.Calm) (h : w.step m .statement = some w') :
    w'.Calm ∧ w'.whole = w.whole := by
  obtain ⟨k, stage⟩ := w
  cases stage with
  | none => cases h
  | some s =>
    obtain rfl := Option.some.inj h
    have hcpu := hw.cpu (by simp)
    have hq := hw.readyQ (by simp)
    have hcounts := hw.counts (by simp)
    cases s with
    | opened =>
      exact ⟨⟨fun _ => hcpu, fun _ => hq, fun _ => hcounts, fun _ _ => rfl, fun ht => by cases ht⟩,
        rfl⟩
    | cleared =>
      have hc := hw.currentProcess (by simp) (by simp)
      exact ⟨⟨fun _ => hcpu, fun _ => hq, fun _ => hcounts, fun _ _ => hc, fun _ => rfl⟩, rfl⟩
    | timed =>
      have hc := hw.currentProcess (by simp) (by simp)
      exact ⟨.outside rfl, (k.settled_eq hc (hw.timer rfl)).symm⟩

lemma Rep.removeBlocked_none {a : Nuc} {sema4 : Addr} (hrep : Rep k a) (hs : sema4 ≠ null)
    (hw : k.waiters sema4 = []) :
    ∃ procs asl, removeBlocked sema4 k.procs k.asl = some (none, procs, asl) := by
  rw [hrep.waiters_eq hs] at hw
  obtain ⟨L, root, hh, -⟩ := hrep
  obtain ⟨procs, asl, hrem, -⟩ := wake_sim hh hs
  rw [hw] at hrem
  exact ⟨procs, asl, hrem⟩

lemma serveLine_of_not_wakes {st : State} {lineNum : Nat}
    (hempty : ∀ sema4, sema4 ≠ null → k.waiters sema4 = [] →
      ∃ procs asl, removeBlocked sema4 k.procs k.asl = some (none, procs, asl))
    (hl : determineLine st.sCause = some lineNum) (hn : ¬ Wakes m k (.interrupt st))
    (hq : k.readyQ = none) (h : ToScheduler.serveLine m lineNum k = some k') :
    k'.readyQ = none := by
  unfold ToScheduler.serveLine at h
  split at h
  · rename_i hit
    have hv : ¬ k.mem m.clock < 0 := fun hv => hn (.inl ⟨hl.trans (congrArg some hit), hv⟩)
    unfold itInterruptHandler itLoop at h
    change ((if k.mem m.clock < 0 then _ else some k).bind _) = _ at h
    rw [if_neg hv] at h
    obtain rfl := Option.some.inj h
    exact hq
  · obtain ⟨line, hline, h⟩ := Option.bind_eq_some_iff.mp h
    obtain ⟨devNum, hdev, h⟩ := Option.bind_eq_some_iff.mp h
    split at h
    · rename_i hlt
      have hs : Serves k.bus line ⟨devNum, hlt⟩ (.interrupt st) := by
        refine ⟨?_, hdev⟩
        rw [hl]
        exact hline
      let v := deviceSem m line ⟨devNum, hlt⟩ (k.bus.devreg line ⟨devNum, hlt⟩)
      have hquiet : k.mem v < 0 → k.waiters v = [] := by
        intro hv
        by_contra hne
        exact hn (.inr ⟨line, ⟨devNum, hlt⟩, hs, hv, hne⟩)
      unfold deviceInterruptHandler at h
      dsimp only at h
      split at h
      · rename_i hle
        have hv : k.mem v < 0 := by
          have hle' : (k.store v (k.mem v + 1)).mem v ≤ 0 := hle
          simp only [Kernel.store, update_self] at hle'
          omega
        obtain ⟨procs, asl, hrem⟩ :=
          hempty v (m.aligned_semAddr _).ne_null (hquiet hv)
        obtain ⟨k₁, hk₁, h⟩ := Option.bind_eq_some_iff.mp h
        obtain rfl := Option.some.inj h
        unfold unblockWaiter at hk₁
        obtain ⟨r, hr, hk₁⟩ := Option.bind_eq_some_iff.mp hk₁
        obtain rfl := Option.some.inj (hrem.symm.trans hr)
        obtain rfl := Option.some.inj hk₁
        exact hq
      · obtain rfl := Option.some.inj h
        exact hq
    · cases h

lemma scheduler_idle (hq : k.readyQ = none) (hcounts : k.processCount ≠ 0 ∧ k.softBlockCount ≠ 0) :
    scheduler m k = some { k.settled with cpu := .waiting idleStatus } := by
  unfold scheduler
  simp only [hq, removeProcQ, Option.bind_eq_bind, Option.bind_some, if_neg hcounts.1,
    if_neg hcounts.2]
  have hself : { k with readyQ := none } = k := by rw [← hq]
  exact congrArg (fun k : Kernel => some { k.settled with cpu := .waiting idleStatus }) hself

lemma step_line {st : State} {lineNum : Nat} (hl : determineLine st.sCause = some lineNum)
    (hne : lineNum ≠ pltLine) (k : Kernel) : step m k (.interrupt st) =
      (ToScheduler.serveLine m lineNum { k with oldArea := update k.oldArea .interrupt st }).bind
        (exitInterruptHandler m) := by
  unfold step
  dsimp only
  rw [ToScheduler.interruptHandler_eq]
  dsimp only
  rw [update_self, hl, Option.bind_some, if_neg hne]

lemma ToScheduler.step_line {st : State} {lineNum : Nat}
    (hl : determineLine st.sCause = some lineNum) (hne : lineNum ≠ pltLine) (k : Kernel) :
    step m k (.interrupt st) =
      (serveLine m lineNum { k with oldArea := update k.oldArea .interrupt st }).map
        exitInterruptHandler := by
  unfold step interruptHandler
  dsimp only
  rw [update_self, hl, Option.bind_eq_bind, Option.bind_some, if_neg hne]

namespace Moment

lemma step_line {st : State} {lineNum : Nat} (hl : determineLine st.sCause = some lineNum)
    (hne : lineNum ≠ pltLine) (w : Moment) : w.step m (.event (.interrupt st)) =
      (ToScheduler.serveLine m lineNum { w.kernel with
        oldArea := update w.kernel.oldArea .interrupt st }).bind fun k =>
          w.after m (ToScheduler.exitInterruptHandler k) := by
  change (ToScheduler.step m w.kernel (.interrupt st)).bind (w.after m) = _
  rw [ToScheduler.step_line hl hne, Option.map_eq_bind, Option.bind_assoc]
  rfl

lemma whole_of_stage (h : w.stage ≠ none) : w.whole = w.kernel.settled := by
  obtain ⟨s, hs⟩ := Option.ne_none_iff_exists'.mp h
  unfold whole
  rw [hs]

lemma whole_of_none (h : w.stage = none) : w.whole = w.kernel := by
  unfold whole
  rw [h]

lemma Calm.exit (hw : w.Calm) (hstage : w.stage ≠ none) (hkept : IdleKept w.kernel k)
    (hcurrent : k.currentProcess = w.kernel.currentProcess)
    (hwakes : k.currentProcess ≠ none → k.readyQ = none) :
    (w.after m (ToScheduler.exitInterruptHandler k)).map whole =
      exitInterruptHandler m k.settled ∧
        ∀ w', w.after m (ToScheduler.exitInterruptHandler k) = some w' → w'.Calm := by
  have hcpu : k.cpu = .waiting idleStatus := hkept.cpu.trans (hw.cpu hstage)
  have hcounts : k.readyQ = none → k.processCount ≠ 0 ∧ k.softBlockCount ≠ 0 := by
    intro hq
    rw [hkept.processCount, (hkept.idle hq).2]
    exact hw.counts hstage
  rw [show exitInterruptHandler m k.settled = scheduler m k.settled from if_pos rfl]
  by_cases hc : k.currentProcess = none
  · rw [show ToScheduler.exitInterruptHandler k = .calls k from if_pos hc]
    exact ⟨(scheduler_settle hcounts _ _).symm, fun w' h => openScheduler_calm h⟩
  · -- the interrupt comes back to the branch that a termination has entered
    rw [show ToScheduler.exitInterruptHandler k =
      .done (loadState (k.oldArea .interrupt) k) from if_neg hc]
    have hq := hwakes hc
    have hopened : w.stage = some .opened := by
      by_contra hne
      exact hc (hcurrent.trans (hw.currentProcess hstage hne))
    have hresume : w.resume (loadState (k.oldArea .interrupt) k) = ⟨k, some .opened⟩ := by
      unfold resume loadState
      rw [hopened, ← hkept.cpu]
    have hidle : scheduler m k.settled = some k.settled := by
      rw [scheduler_idle (k := k.settled) hq (hcounts hq), ← hcpu]
      rfl
    rw [after, hresume, Option.map_some, hidle]
    refine ⟨rfl, fun w' h => ?_⟩
    obtain rfl := Option.some.inj h
    exact ⟨fun _ => hcpu, fun _ => hq, fun _ => hcounts hq, fun _ hne => absurd rfl hne,
      fun ht => by cases ht⟩

lemma Calm.interrupt {a : Nuc} {st : State} {lineNum : Nat} (hw : w.Calm)
    (hstage : w.stage ≠ none) (hrep : Rep w.whole a)
    (hl : determineLine st.sCause = some lineNum) (hs : Settled m w (.event (.interrupt st))) :
    (w.step m (.event (.interrupt st))).map whole = Kaya.step m w.whole (.interrupt st) ∧
      ∀ w', w.step m (.event (.interrupt st)) = some w' → w'.Calm := by
  rw [whole_of_stage hstage] at hrep ⊢
  obtain ⟨hplt, hwakes⟩ := hs hstage
  have hne : lineNum ≠ pltLine := fun he => hplt (hl.trans (congrArg some he))
  let k₀ : Kernel := { w.kernel with oldArea := update w.kernel.oldArea .interrupt st }
  have hserve : ToScheduler.serveLine m lineNum k₀.settled =
    (ToScheduler.serveLine m lineNum k₀).map Kernel.settled := serveLine_settle ..
  rw [step_line hl hne, Kaya.step_line hl hne]
  change (((ToScheduler.serveLine m lineNum k₀).bind _).map _ =
    (ToScheduler.serveLine m lineNum k₀.settled).bind _) ∧
      ∀ w' : Moment, (ToScheduler.serveLine m lineNum k₀).bind _ = some w' → w'.Calm
  rw [hserve]
  cases hk : ToScheduler.serveLine m lineNum k₀ with
  | none => exact ⟨rfl, fun w' h => by cases h⟩
  | some k =>
    have hkept : IdleKept k₀ k := serveLine_idleKept hk
    have hcurrent : k.currentProcess = w.kernel.currentProcess := (serveLine_same hk).1
    have hq : k.currentProcess ≠ none → k.readyQ = none := fun hc =>
      serveLine_of_not_wakes (k := k₀)
        (fun _ hnull hempty => hrep.removeBlocked_none hnull hempty) hl
        (hwakes fun hnone => hc (hcurrent.trans hnone)) (hw.readyQ hstage) hk
    exact hw.exit hstage ⟨hkept.processCount, hkept.cpu, hkept.idle⟩ hcurrent hq

lemma Deliverable.whole (hd : w.Deliverable m (.event e)) (hs : Settled m w (.event e)) :
    Kaya.Deliverable m w.whole e := by
  rcases hd with hd | ⟨hplt, hstage⟩
  · by_cases hstage : w.stage = none
    · rwa [whole_of_none hstage]
    · rw [whole_of_stage hstage]
      cases e <;> exact hd
  · have hne : w.stage ≠ none := by
      rcases hstage with h | h <;> simp [h]
    exact absurd hplt (hs hne).1

lemma Calm.event {a : Nuc} (hw : w.Calm) (hrep : Rep w.whole a)
    (hd : w.Deliverable m (.event e)) (hs : Settled m w (.event e)) :
    (w.step m (.event e)).map whole = Kaya.step m w.whole e ∧
      ∀ w', w.step m (.event e) = some w' → w'.Calm := by
  have hd' := Deliverable.whole hd hs
  by_cases hstage : w.stage = none
  · rw [whole_of_none hstage, ← ToScheduler.step_leads]
    change ((ToScheduler.step m w.kernel e).bind (w.after m)).map whole = _ ∧
      ∀ w' : Moment, (ToScheduler.step m w.kernel e).bind (w.after m) = some w' → w'.Calm
    cases ToScheduler.step m w.kernel e with
    | none => exact ⟨rfl, fun w' h => by cases h⟩
    | some o =>
      cases o with
      | calls k =>
        exact ⟨(scheduler_eq_openScheduler k).symm, fun w' h => openScheduler_calm h⟩
      | done k =>
        have hresume : w.resume k = ⟨k, none⟩ := by
          unfold resume
          rw [hstage]
        rw [Option.bind_some, show w.after m (.done k) = some (w.resume k) from rfl, hresume]
        refine ⟨rfl, fun w' h => ?_⟩
        obtain rfl := Option.some.inj h
        exact .outside rfl
  · have hcpu : w.whole.cpu = .waiting idleStatus := by
      rw [whole_of_stage hstage]
      exact hw.cpu hstage
    have hrunning : ¬ w.whole.cpu.IsRunning := by
      rw [hcpu]
      exact id
    cases e with
    | interrupt st =>
      obtain ⟨lineNum, hl, -⟩ := hd'
      exact hw.interrupt hstage hrep hl hs
    | device bus =>
      rw [whole_of_stage hstage]
      obtain ⟨k, stage⟩ := w
      cases stage with
      | none => exact absurd rfl hstage
      | some s =>
        refine ⟨rfl, fun w' h => ?_⟩
        obtain rfl := Option.some.inj h
        exact ⟨hw.cpu, hw.readyQ, hw.counts, hw.currentProcess, hw.timer⟩
    | writeInt s v => exact absurd hd'.1 hrunning
    | _ => exact absurd hd' hrunning

end Moment

/-- The handler of a line inserts no process that is gone, and charges nobody. -/
lemma serveLine_sim {a : Nuc} {st : State} {lineNum : Nat} (hrep : Rep k a) (hi : a.Inv)
    (hbal : (a.clockSem m).Balanced) (hl : determineLine st.sCause = some lineNum)
    (hpos : 0 < lineNum) (hplt : lineNum ≠ pltLine)
    (hdev : ∀ line, deviceLine lineNum = some line →
      determineDevice (k.bus.interruptDev line) ≠ none) :
    ∃ k' a', ToScheduler.serveLine m lineNum { k with oldArea := update k.oldArea .interrupt st } =
      some k' ∧ Rep k' a' ∧ a'.Inv ∧ a'.pTotalTime = a.pTotalTime := by
  obtain ⟨L, root, hh, ht⟩ := hrep
  let a₀ : Nuc := { a with oldArea := update k.oldArea .interrupt st }
  have hold : Held L { k with oldArea := update k.oldArea .interrupt st } a₀ :=
    hh.setOldArea (update k.oldArea .interrupt st)
  have hinv : a₀.Inv := ⟨hi.homes, hi.waits, hi.shape⟩
  unfold ToScheduler.serveLine
  by_cases hit : lineNum = itLine
  · obtain ⟨a', ha'⟩ := Nuc.itInterrupt_of_balanced (m := m) (a := a₀) hbal
    have hsim := itInterruptHandler_sim (m := m) hold
    rw [ha'] at hsim
    obtain ⟨k', hk', hh'⟩ := rel_some hsim
    have htime : a'.pTotalTime = a.pTotalTime := Nuc.itInterrupt_pTotalTime (a := a₀) ha'
    refine ⟨k', a', by rw [if_pos hit, hk'], ⟨L, root, hh', ?_⟩, Nuc.itInterrupt_inv hinv ha',
      htime⟩
    rw [itInterrupt_tree ha']
    exact ht
  · obtain ⟨line, hline⟩ := exists_deviceLine hpos (determineLine_lt hl) hplt hit
    obtain ⟨devNum, hdevNum⟩ := Option.ne_none_iff_exists'.mp (hdev line hline)
    have hlt := determineDevice_lt hdevNum
    obtain ⟨k', hk', hh'⟩ := deviceInterruptHandler_sim m line ⟨devNum, hlt⟩ hold
    have htime : (a₀.deviceInterrupt m line ⟨devNum, hlt⟩).pTotalTime = a.pTotalTime :=
      Nuc.deviceInterrupt_pTotalTime ..
    refine ⟨k', _, ?_, ⟨L, root, hh', ?_⟩, Nuc.deviceInterrupt_inv hinv, htime⟩
    · simp only [if_neg hit, hline, hdevNum, Option.bind_eq_bind, Option.bind_some, dif_pos hlt]
      exact hk'
    · rw [deviceInterrupt_tree]
      exact ht

end Kaya
