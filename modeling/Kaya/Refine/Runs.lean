import Kaya.Lib.Run
import Kaya.Refine.Boot
import Kaya.Refine.Readout

/-!
# Runs of the nucleus

A run starts with `main` on any memory and takes the events the hardware and the running
process can cause. A termination is stale when a ready process below the caller still has
the address of a semaphore in `p_semAdd`: `HoneyIKilledTheKids` then looks for it in the
queue of that semaphore. In runs without stale terminations the tables hold the lists of an
abstract nucleus all the way.
-/

namespace Kaya

open Function Linked

instance (c : Cpu) : Decidable c.IsRunning := by
  cases c <;> unfold Cpu.IsRunning <;> infer_instance

instance (lineNum : Nat) (c : Cpu) : Decidable (c.Takes lineNum) := by
  cases c <;> unfold Cpu.Takes <;> infer_instance

instance (m : Machine) (a : Addr) : Decidable (m.InSemaphoreArray a) :=
  inferInstanceAs (Decidable (∃ i < semCount, a = m.semAddr i))

instance (m : Machine) (e : Event) : Decidable (NamesDevice m e) :=
  match e with
  | .syscall st => inferInstanceAs (Decidable
      (IsCall st → st.sA0 = waitForIoNum → m.InSemaphoreArray (ioSem m st)))
  | .programTrap _ | .tlbManagement _ | .interrupt _ | .device _ | .writeInt _ _
  | .writeState _ _ => .isTrue trivial

instance (m : Machine) (k : Kernel) (e : Event) : Decidable (Deliverable m k e) :=
  match e with
  | .syscall _ | .programTrap _ | .tlbManagement _ | .writeState _ _ =>
    inferInstanceAs (Decidable k.cpu.IsRunning)
  | .interrupt st =>
    inferInstanceAs (Decidable (∃ lineNum ∈ determineLine st.sCause, 0 < lineNum ∧
      k.cpu.Takes lineNum ∧ ∀ line, deviceLine lineNum = some line →
        determineDevice (k.bus.interruptDev line) ≠ none))
  | .device _ => .isTrue trivial
  | .writeInt a _ => inferInstanceAs (Decidable (k.cpu.IsRunning ∧ ¬ m.InSemaphoreArray a))

/-- The history of a run of the nucleus. -/
abbrev History := List (Kernel × Event × Kernel)

/-- The nucleus, started by `main` on the memory `k₀`, comes to `k` through the transitions
of `h`, each at an event that can happen and meets the condition `P`. -/
def Reaches (m : Machine) (P : Kernel → Event → Prop) (k₀ : Kernel) (h : History)
    (k : Kernel) : Prop :=
  ∃ k₁, main m k₀ = some k₁ ∧ Run (step m) (fun k e => Deliverable m k e ∧ P k e) k₁ h k

/-- The event terminates the running process while a ready process below it has the address
of a semaphore in `p_semAdd`. -/
def KillsStale (m : Machine) (k : Kernel) (e : Event) : Prop :=
  ∃ p, k.currentProcess = some p ∧ Dies m k.mem (k.procs.oldAreas p) (k.procs.newAreas p) e ∧
    ∃ q, k.procs.tree.Below p q ∧ q ∈ k.readyPcbs ∧ k.procs.pSemAdd q ≠ null

variable {m : Machine} {k k' k₀ : Kernel} {a : Nuc} {e : Event} {h : History}

lemma Rep.below (hr : Rep k a) (hi : a.Inv) {p q : PcbIx} (hc : a.currentProcess = some p)
    (hq : q ∈ (a.tree.kids p).nodes) : k.procs.tree.Below p q := by
  obtain ⟨L, root, hh, ht⟩ := hr
  have hmem := (hi.shape.mem_iff p).mpr (hi.homeless hc).free
  rw [hh.links]
  exact (ht.kids hmem).below (fun _ hx => .child hx) hq

lemma Rep.dies_iff (hr : Rep k a) (p : PcbIx) :
    Dies m a.mem (a.oldAreas p) (a.newAreas p) e ↔
      Dies m k.mem (k.procs.oldAreas p) (k.procs.newAreas p) e := by
  rw [hr.data_eq]
  rfl

lemma Rep.safe (hr : Rep k a) (hi : a.Inv) (hs : ¬ KillsStale m k e) : a.Safe m e := by
  intro p hc hd q hq hready
  by_contra hne
  refine hs ⟨p, hr.currentProcess_eq.trans hc, hr.dies_iff p |>.mp hd, q, hr.below hi hc hq,
    hr.readyPcbs_eq ▸ hready, ?_⟩
  rw [hr.data_eq] at hne
  exact hne

lemma Deliverable.running (hd : Deliverable m k e) (hp : Nuc.FromProcess e) :
    k.cpu.IsRunning := by
  cases e with
  | syscall st => exact hd
  | programTrap st => exact hd
  | tlbManagement st => exact hd
  | interrupt st => exact absurd hp id
  | device bus => exact absurd hp id
  | writeInt a v => exact hd.1
  | writeState a st => exact hd

lemma Deliverable.ne_write_clock (hd : Deliverable m k e) (v : Int) : e ≠ .writeInt m.clock v := by
  rintro rfl
  exact hd.2 m.inSemaphoreArray_clock

/-- One transition that is not a stale termination, on both levels. -/
lemma step_rep (hr : Rep k a) (hg : a.Good) (hd : Deliverable m k e) (hs : ¬ KillsStale m k e)
    (hk : step m k e = some k') : ∃ a', a.step m e = some a' ∧ Rep k' a' ∧ a'.Good := by
  have hsafe := hr.safe hg.inv hs
  have hsim := step_sim hr hg.inv hsafe
  rw [hk] at hsim
  cases hx : a.step m e with
  | none =>
    rw [hx] at hsim
    cases hsim
  | some a' =>
    rw [hx] at hsim
    cases hsim with
    | some hr' =>
      refine ⟨a', rfl, hr', Nuc.step_good hg (fun hp => ?_) hsafe hx⟩
      obtain ⟨L, root, hh, -⟩ := hr
      have hcpu : k.cpu = a.cpu := by
        rw [hh.data]
        rfl
      rw [← hcpu]
      exact hd.running hp

/-- A transition on both levels. -/
structure Handled (m : Machine) (k : Kernel) (e : Event) (k' : Kernel) (a a' : Nuc) : Prop where
  rep : Rep k a
  good : a.Good
  running : Nuc.FromProcess e → a.cpu.IsRunning
  safe : a.Safe m e
  moves : a.step m e = some a'
  rep' : Rep k' a'
  good' : a'.Good

lemma Handled.of_step (hrep : Rep k a) (hg : a.Good) (hd : Deliverable m k e)
    (hs : ¬ KillsStale m k e) (hk : step m k e = some k') : ∃ a', Handled m k e k' a a' := by
  obtain ⟨a', hstep, hrep', hg'⟩ := step_rep hrep hg hd hs hk
  exact ⟨a', hrep, hg, fun he => hrep.cpu_eq ▸ hd.running he, hrep.safe hg.inv hs, hstep, hrep',
    hg'⟩

lemma Rep.bus_eq (hrep : Rep k a) : k.bus = a.bus := by
  rw [hrep.data_eq]
  rfl

/-- Runs without stale terminations from a represented state: what every transition
preserves, told of the abstract nucleus and the history, holds at the end. -/
theorem Rep.run {P : Kernel → Event → Prop} {I : History → Nuc → Prop} (hrep : Rep k₀ a)
    (hg : a.Good) (hr : Run (step m) (fun k e => Deliverable m k e ∧ P k e) k₀ h k)
    (hP : ∀ k e, P k e → ¬ KillsStale m k e) (h0 : I [] a)
    (hs : ∀ h k e k' a a', I h a → Rep k a → a.Good → Deliverable m k e → P k e →
      step m k e = some k' → a.step m e = some a' → Rep k' a' → a'.Good →
      I (h ++ [(k, e, k')]) a') :
    ∃ a, Rep k a ∧ a.Good ∧ I h a := by
  refine hr.simulate (I := fun h k a => Rep k a ∧ a.Good ∧ I h a) ⟨_, hrep, hg, h0⟩ ?_
  rintro h k e k' a ⟨hra, hga, hi⟩ ⟨hd, hp⟩ hk
  obtain ⟨a', ha', hra', hga'⟩ := step_rep hra hga hd (hP k e hp) hk
  exact ⟨a', hra', hga', hs h k e k' a a' hi hra hga hd hp hk ha' hra' hga'⟩

/-- The same for runs that start with `main`. -/
theorem Reaches.induct {P : Kernel → Event → Prop} {I : History → Nuc → Prop}
    (hr : Reaches m P k₀ h k) (hP : ∀ k e, P k e → ¬ KillsStale m k e)
    (h0 : I [] (Nuc.boot m k₀))
    (hs : ∀ h k e k' a a', I h a → Rep k a → a.Good → Deliverable m k e → P k e →
      step m k e = some k' → a.step m e = some a' → Rep k' a' → a'.Good →
      I (h ++ [(k, e, k')]) a') :
    ∃ a, Rep k a ∧ a.Good ∧ I h a := by
  obtain ⟨k₁, hmain, hrun⟩ := hr
  obtain ⟨k₂, hmain₂, hrep⟩ := main_sim m k₀
  obtain rfl := Option.some.inj (hmain.symm.trans hmain₂)
  exact hrep.run (Nuc.boot_good m k₀) hrun hP h0 hs

lemma Reaches.mono {P Q : Kernel → Event → Prop} (hr : Reaches m P k₀ h k)
    (hQ : ∀ k e, P k e → Q k e) : Reaches m Q k₀ h k := by
  obtain ⟨k₁, hmain, hrun⟩ := hr
  exact ⟨k₁, hmain, hrun.mono fun k e he => ⟨he.1, hQ k e he.2⟩⟩

lemma Reaches.strengthen {P Q : Kernel → Event → Prop} (hr : Reaches m P k₀ h k)
    (hQ : ∀ x ∈ h, Q x.1 x.2.1) : Reaches m (fun k e => P k e ∧ Q k e) k₀ h k := by
  obtain ⟨k₁, hmain, hrun⟩ := hr
  refine ⟨k₁, hmain, (hrun.strengthen hQ).mono fun k e he => ?_⟩
  exact ⟨he.1.1, he.1.2, he.2⟩

/-- A state reached without stale terminations holds the lists of an abstract nucleus. -/
lemma Reaches.rep {P : Kernel → Event → Prop} (hr : Reaches m P k₀ h k)
    (hP : ∀ k e, P k e → ¬ KillsStale m k e) : ∃ a, Rep k a ∧ a.Good := by
  obtain ⟨a, hrep, hg, -⟩ := hr.induct (I := fun _ _ => True) hP trivial
    fun _ _ _ _ _ _ _ _ _ _ _ _ _ _ _ => trivial
  exact ⟨a, hrep, hg⟩

/-- The history and the state that events taken one after the other from the start lead to. -/
def traceFromMain (m : Machine) (ok : Kernel → Event → Prop) [∀ k e, Decidable (ok k e)]
    (es : List Event) (k₀ : Kernel) : Option (History × Kernel) :=
  (main m k₀).bind (trace (step m) ok es)

lemma Reaches.of_trace {P : Kernel → Event → Prop} {ok : Kernel → Event → Prop}
    [∀ k e, Decidable (ok k e)] {es : List Event}
    (ht : traceFromMain m ok es k₀ = some (h, k))
    (hok : ∀ k e, ok k e → Deliverable m k e ∧ P k e) : Reaches m P k₀ h k := by
  obtain ⟨k₁, hmain, htrace⟩ := Option.bind_eq_some_iff.mp ht
  exact ⟨k₁, hmain, (trace_run htrace).mono hok⟩

/-- Finding a run by evaluation. -/
lemma exists_reaches {P : Kernel → Event → Prop} (m : Machine) (k₀ : Kernel)
    (ok : Kernel → Event → Prop) [∀ k e, Decidable (ok k e)] (es : List Event)
    (q : History → Kernel → Bool)
    (hok : ∀ k e, ok k e → Deliverable m k e ∧ P k e)
    (hq : ((traceFromMain m ok es k₀).any fun r => q r.1 r.2) = true) :
    ∃ h k, Reaches m P k₀ h k ∧ q h k = true := by
  obtain ⟨⟨h, k⟩, ht, hq⟩ := (Option.any_eq_true _ _).mp hq
  exact ⟨h, k, .of_trace ht hok, hq⟩

/-- Finding a run and one that goes on from its end. -/
lemma exists_reaches_run {P : Kernel → Event → Prop} (m : Machine) (k₀ : Kernel)
    (ok : Kernel → Event → Prop) [∀ k e, Decidable (ok k e)] (es es' : List Event)
    (q : Kernel → History → Bool) (hok : ∀ k e, ok k e → Deliverable m k e ∧ P k e)
    (hq : ((traceFromMain m ok es k₀).any fun r =>
      (trace (step m) ok es' r.2).any fun r' => q r.2 r'.1) = true) :
    ∃ h k h' k', Reaches m P k₀ h k ∧
      Run (step m) (fun k e => Deliverable m k e ∧ P k e) k h' k' ∧ q k h' = true := by
  obtain ⟨⟨h, k⟩, ht, hq⟩ := (Option.any_eq_true _ _).mp hq
  obtain ⟨⟨h', k'⟩, ht', hq⟩ := (Option.any_eq_true _ _).mp hq
  exact ⟨h, k, h', k', .of_trace ht hok, (trace_run ht').mono hok, hq⟩

/-- Either nobody is terminated or no ready process has the address of a semaphore. -/
def Harmless (m : Machine) (k : Kernel) (e : Event) : Prop :=
  (∀ p, k.currentProcess = some p → ¬ Dies m k.mem (k.procs.oldAreas p) (k.procs.newAreas p) e) ∨
    ∀ q ∈ k.readyPcbs, k.procs.pSemAdd q = null

instance (m : Machine) (k : Kernel) (e : Event) : Decidable (Harmless m k e) :=
  inferInstanceAs (Decidable (_ ∨ _))

lemma Harmless.not_killsStale (h : Harmless m k e) : ¬ KillsStale m k e := by
  rintro ⟨p, hc, hd, q, -, hq, hne⟩
  rcases h with h | h
  · exact h p hc hd
  · exact hne (h q hq)

/-- Nobody is terminated. -/
def Lives (m : Machine) (k : Kernel) (e : Event) : Prop :=
  ∀ p, k.currentProcess = some p → ¬ Dies m k.mem (k.procs.oldAreas p) (k.procs.newAreas p) e

instance (m : Machine) (k : Kernel) (e : Event) : Decidable (Lives m k e) :=
  inferInstanceAs (Decidable (∀ _, _ → ¬ _))

lemma Lives.not_killsStale (h : Lives m k e) : ¬ KillsStale m k e := by
  rintro ⟨p, hc, hd, -⟩
  exact h p hc hd

lemma Rep.lives (hr : Rep k a) (h : Lives m k e) : ∀ p, a.currentProcess = some p →
    ¬ Dies m a.mem (a.oldAreas p) (a.newAreas p) e := by
  intro p hc hd
  exact h p (hr.currentProcess_eq.trans hc) ((hr.dies_iff p).mp hd)

/-! ### A small machine -/

/-- A machine whose clock stands still, with `semaphoreArray` at a round address. -/
def demo : Machine where
  semaphoreArray := 0x20010000
  aligned := by decide
  fits := by decide
  tod := fun _ => 0
  timescale := 1
  ramtop := 0x20100000
  test := 0x20020000

def zeroState : State := ⟨0, 0, 0, 0, fun _ => 0⟩

/-- In kernel mode, with every interrupt on. -/
def openState : State :=
  { zeroState with sStatus := interruptsUnmasked ||| interruptMaskOn ||| teBitOn }

/-- Memory that holds nothing but zeros, null pointers and states with every interrupt on. -/
def blankKernel : Kernel where
  procs := ⟨fun _ => none, fun _ => none, fun _ => none, fun _ => none, fun _ => none,
    fun _ => none, fun _ => zeroState, fun _ => null, fun _ => 0, fun _ _ => null,
    fun _ _ => null⟩
  pcbListH := none
  asl := ⟨fun _ => none, fun _ => 0, fun _ => none, none, none⟩
  processCount := 0
  softBlockCount := 0
  currentProcess := none
  processStartTime := 0
  readyQ := none
  mem := fun _ => 0
  states := fun _ => openState
  oldArea := fun _ => zeroState
  bus := ⟨fun _ => 0, fun _ _ => ⟨0, 0, 0, 0⟩⟩
  commands := []
  todReads := 0
  timer := 0
  intervalTimer := 0
  cpu := .halted

/-- The running process asks for a syscall with these arguments, in kernel mode. -/
def sys (a0 a1 a2 a3 : Word) : Event :=
  .syscall { openState with
    sReg := update (update (update (update openState.sReg 3 a0) 4 a1) 5 a2) 6 a3 }

/-- An interrupt with this cause register. -/
def irq (cause : Word) : Event := .interrupt { openState with sCause := cause }

/-- Disk 0 has an interrupt pending, and no other device has. -/
def diskDone : Event := .device
  { interruptDev := fun line => if line = 0 then 1 else 0, devreg := fun _ _ => ⟨1, 0, 0, 0⟩ }

end Kaya
