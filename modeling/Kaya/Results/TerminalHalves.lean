import Kaya.Abstract.Request
import Kaya.Results.Acknowledge

/-!
# The halves of a terminal

A terminal has one interrupt bit for its transmitter and its receiver. `InterruptHandler` tells
them apart by the status of the transmitter alone.
-/

namespace Kaya

open Function Linked

/-- The line of the terminals. -/
def termLine : Fin devIntNum := ⟨termInt - initialDevLineNum, by decide⟩

def transmitter (t : Fin numDevicesPerType) : SubDevice := ⟨termLine, t, false, fun _ => rfl⟩

def receiver (t : Fin numDevicesPerType) : SubDevice := ⟨termLine, t, true, fun _ => rfl⟩

/-- The process goes on with `w` in `v0`. -/
def Kernel.GoesOnWith (k : Kernel) (p : PcbIx) (w : Word) : Prop :=
  p ∈ k.readyPcbs ∧ (k.procs.pS p).sV0 = w ∨
    k.currentProcess = some p ∧ ∃ st, k.cpu = .running st ∧ st.sV0 = w

/-- What an interrupt of the terminal `t` is to do, in a step from `k` to `k'`. -/
structure RightHalf (m : Machine) (t : Fin numDevicesPerType) (k k' : Kernel) : Prop where
  /-- the transmitter is left alone unless it has an interrupt pending -/
  transmits : ¬ Pending (k.bus.devreg termLine t).tTransmStatus →
    k'.mem ((transmitter t).sem m) = k.mem ((transmitter t).sem m) ∧
      k'.waiters ((transmitter t).sem m) = k.waiters ((transmitter t).sem m) ∧
        ¬ Gives k k' ⟨termLine, t, true, ack⟩
  /-- the receiver is served if it alone has one pending -/
  receives : ¬ Pending (k.bus.devreg termLine t).tTransmStatus →
    Pending (k.bus.devreg termLine t).tRecvStatus →
      k'.mem ((receiver t).sem m) = k.mem ((receiver t).sem m) + 1 ∧
        Gives k k' ⟨termLine, t, false, ack⟩ ∧
          ∀ p l, k.waiters ((receiver t).sem m) = p :: l → k'.waiters ((receiver t).sem m) = l ∧
            k'.GoesOnWith p (k.bus.devreg termLine t).tRecvStatus

variable {m : Machine} {k k' k₀ : Kernel} {a a' : Nuc} {e : Event} {h : History}
  {t : Fin numDevicesPerType} {p : PcbIx} {w : Word} {reg : Device}

lemma not_pending_of_ready (h : reg.tTransmStatus &&& maskTransChar = ready) :
    ¬ Pending reg.tTransmStatus := fun hp => hp.1 h

lemma receiver_taken_iff :
    (receiver t).Taken reg ↔ reg.tTransmStatus &&& maskTransChar = ready := by
  unfold SubDevice.Taken isReceive receiver termLine
  simp [termInt, initialDevLineNum]

lemma transmitter_taken_iff :
    (transmitter t).Taken reg ↔ reg.tTransmStatus &&& maskTransChar ≠ ready := by
  unfold SubDevice.Taken isReceive transmitter termLine
  simp [termInt, initialDevLineNum]

/-! ### One interrupt on both levels -/

lemma Handled.of_serves {line : Fin devIntNum} {devNum : Fin numDevicesPerType} (hrep : Rep k a)
    (hg : a.Good) (hs : Serves k.bus line devNum e) :
    ∃ k' a', step m k e = some k' ∧ Handled m k e k' a a' := by
  have hrun : Nuc.FromProcess e → a.cpu.IsRunning := by
    cases e with
    | interrupt st => exact False.elim
    | _ => exact hs.elim
  have hsafe : a.Safe m e := hrep.safe hg.inv fun ⟨_, _, hdies, _⟩ => hs.not_dies hdies
  have hmoves : ∃ a', a.step m e = some a' := by
    cases e with
    | interrupt st => exact ⟨_, Nuc.step_serves (hrep.bus_eq ▸ hs)⟩
    | _ => exact hs.elim
  obtain ⟨a', ha'⟩ := hmoves
  have hsim := step_sim (m := m) hrep hg.inv hsafe
  rw [ha'] at hsim
  cases hk : step m k e with
  | none =>
    rw [hk] at hsim
    cases hsim
  | some k' =>
    rw [hk] at hsim
    cases hsim with
    | some hrep' =>
      exact ⟨k', a', rfl, hrep, hg, hrun, hsafe, ha', hrep', Nuc.step_good hg hrun hsafe ha'⟩

namespace Handled

variable {d : SubDevice}

lemma untaken (hh : Handled m k e k' a a') (hs : Serves k.bus d.line d.devNum e)
    (ht : ¬ d.Taken (k.bus.devreg d.line d.devNum)) :
    k'.mem (d.sem m) = k.mem (d.sem m) ∧ k'.waiters (d.sem m) = k.waiters (d.sem m) := by
  have hbus := hh.rep.bus_eq
  rw [hbus] at hs ht
  have hdead : a.dead m e = [] := Nuc.dead_of_not_dies fun _ _ => hs.not_dies
  obtain ⟨hmem, hblocked⟩ := Nuc.untouched_step hh.good hh.running hh.safe hh.moves
    (hs.untouched ht) fun v he => by
      subst he
      exact hs.elim
  rw [hdead] at hblocked
  rw [hh.rep.mem_eq, hh.rep'.mem_eq, hh.rep.waiters_eq (d.sem_ne_null m),
    hh.rep'.waiters_eq (d.sem_ne_null m), hblocked]
  exact ⟨hmem, List.filter_eq_self.mpr fun _ _ => by simp⟩

lemma taken (hh : Handled m k e k' a a') (hs : Serves k.bus d.line d.devNum e)
    (ht : d.Taken (k.bus.devreg d.line d.devNum)) :
    k'.mem (d.sem m) = k.mem (d.sem m) + 1 ∧
      (k.mem (d.sem m) < 0 → ∀ p l, k.waiters (d.sem m) = p :: l → k'.waiters (d.sem m) = l ∧
        k'.GoesOnWith p (d.status (k.bus.devreg d.line d.devNum))) := by
  have hbus := hh.rep.bus_eq
  rw [hbus] at hs ht
  have hsem := Nuc.serves_sem hh.moves hs ht
  have hmem : a'.mem (d.sem m) = a.mem (d.sem m) + 1 := congrArg Semaphore.value hsem
  rw [hh.rep.mem_eq, hh.rep'.mem_eq, hh.rep.waiters_eq (d.sem_ne_null m),
    hh.rep'.waiters_eq (d.sem_ne_null m)]
  refine ⟨hmem, fun hv p l hp => ⟨?_, ?_⟩⟩
  · have hwaiters : a'.blocked (d.sem m) = if a.mem (d.sem m) + 1 ≤ 0 then
        (a.blocked (d.sem m)).tail else a.blocked (d.sem m) := congrArg Semaphore.waiters hsem
    rw [hwaiters, if_pos (by omega), hp]
    rfl
  · have hgo := Nuc.completion_step hh.moves hs ht hv hp
    have hpS : k'.procs.pS = a'.pS := by
      rw [hh.rep'.data_eq]
      rfl
    unfold Kernel.GoesOnWith
    rw [hh.rep'.readyPcbs_eq, hh.rep'.currentProcess_eq, hh.rep'.cpu_eq, hpS, hbus]
    exact hgo

end Handled

/-- The right half is served if the transmitter has an interrupt pending, or if it is ready and
somebody waits for a receiver that has one. -/
lemma Handled.rightHalf_iff (hh : Handled m k e k' a a') (hk : step m k e = some k')
    (hs : Serves k.bus termLine t e) : RightHalf m t k k' ↔
      Pending (k.bus.devreg termLine t).tTransmStatus ∨
        (k.bus.devreg termLine t).tTransmStatus &&& maskTransChar = ready ∧
          (Pending (k.bus.devreg termLine t).tRecvStatus → k.mem ((receiver t).sem m) < 0) := by
  by_cases hready : (k.bus.devreg termLine t).tTransmStatus &&& maskTransChar = ready
  · have hnot := not_pending_of_ready hready
    have htaken : (receiver t).Taken (k.bus.devreg termLine t) := receiver_taken_iff.mpr hready
    have hother : ¬ (transmitter t).Taken (k.bus.devreg termLine t) :=
      fun ht => transmitter_taken_iff.mp ht hready
    have hsem : deviceSem m termLine t (k.bus.devreg termLine t) = (receiver t).sem m :=
      (SubDevice.deviceSem_eq_iff (d := receiver t)).mpr htaken
    have hack : (ackCommand termLine t (k.bus.devreg termLine t)).transm = false := by
      have hreceive : isReceive termInt (k.bus.devreg termLine t) = true := htaken
      unfold ackCommand
      simp only [decide_eq_false_iff_not, not_and, not_not]
      exact fun _ => hreceive
    have hgives := gives_iff hs hk
    rw [hsem, hack] at hgives
    obtain ⟨hmem, hwaiters⟩ := hh.untaken (d := transmitter t) hs hother
    obtain ⟨hmem', hwakes⟩ := hh.taken (d := receiver t) hs htaken
    rw [or_iff_right hnot, and_iff_right hready]
    constructor
    · intro hright hpending
      exact ((hgives false).mp (hright.receives hnot hpending).2.1).1
    · intro hawaited
      refine ⟨fun _ => ⟨hmem, hwaiters, fun hg => ?_⟩, fun _ hpending => ?_⟩
      · exact absurd ((hgives true).mp hg).2 (by simp)
      · have hv := hawaited hpending
        exact ⟨hmem', (hgives false).mpr ⟨hv, rfl⟩, hwakes hv⟩
  · have htaken : (transmitter t).Taken (k.bus.devreg termLine t) :=
      transmitter_taken_iff.mpr hready
    have hmem := (hh.taken (d := transmitter t) hs htaken).1
    constructor
    · intro hright
      by_contra hnone
      have hpending := (not_or.mp hnone).1
      have hsame := (hright.transmits hpending).1
      omega
    · rintro (hpending | ⟨h, -⟩)
      · exact ⟨fun hn => absurd hpending hn, fun hn => absurd hpending hn⟩
      · exact absurd h hready

/-- In runs without stale terminations an interrupt of a terminal reaches the right half if the
transmitter has one pending, or is ready and somebody waits for a receiver that has one. It does
not while the transmitter is busy or uninstalled. -/
theorem terminal_interrupt_rightHalf_iff (hr : Reaches m (fun k e => ¬ KillsStale m k e) k₀ h k)
    (hs : Serves k.bus termLine t e) : ∃ k', step m k e = some k' ∧
      (RightHalf m t k k' ↔ Pending (k.bus.devreg termLine t).tTransmStatus ∨
        (k.bus.devreg termLine t).tTransmStatus &&& maskTransChar = ready ∧
          (Pending (k.bus.devreg termLine t).tRecvStatus →
            k.mem ((receiver t).sem m) < 0)) := by
  obtain ⟨a, hrep, hg⟩ := hr.rep fun _ _ hs => hs
  obtain ⟨k', a', hk, hh⟩ := Handled.of_serves hrep hg hs
  exact ⟨k', hk, hh.rightHalf_iff hk hs⟩

/-- The first terminal. -/
def terminal0 : Fin numDevicesPerType := ⟨0, numDevicesPerType_pos⟩

/-- It has an interrupt pending. -/
def terminalInterrupts (recvStatus transmStatus : Word) : Event := .device
  { interruptDev := fun line => if line = termLine then 1 else 0
    devreg := fun _ _ => ⟨recvStatus, 0, transmStatus, 0⟩ }

/-- The initial process waits for a character, and the transmitter is ready. -/
theorem terminal_interrupt_rightHalf_received : ∃ h k k',
    Reaches demo (fun k e => ¬ KillsStale demo k e) blankKernel h k ∧
    step demo k (irq 0x8000) = some k' ∧ RightHalf demo terminal0 k k' := by
  obtain ⟨h, k, hr, hq⟩ := exists_reaches (P := fun k e => ¬ KillsStale demo k e) demo blankKernel
    (fun k e => Deliverable demo k e ∧ Harmless demo k e) [sys 8 7 0 1, terminalInterrupts 5 1]
    (fun _ k => servedDevice k.bus (irq 0x8000) = some (termLine, terminal0) ∧
      (k.bus.devreg termLine terminal0).tTransmStatus &&& maskTransChar = ready ∧
      k.mem ((receiver terminal0).sem demo) < 0)
    (fun _ _ hok => ⟨hok.1, hok.2.not_killsStale⟩) (by decide +kernel)
  obtain ⟨hserved, hready, hv⟩ := of_decide_eq_true hq
  obtain ⟨k', hk, hiff⟩ :=
    terminal_interrupt_rightHalf_iff hr (servedDevice_eq_some_iff.mp hserved)
  exact ⟨h, k, k', hr, hk, hiff.mpr (.inr ⟨hready, fun _ => hv⟩)⟩

/-- The initial process waits for the end of a transmission. Its transmitter is busy when a
character comes in, and the handler raises the semaphore of the transmitter. -/
theorem busy_transmitter_taken : ¬ ∀ (m : Machine) (k₀ : Kernel) (h : History) (k k' : Kernel)
    (e : Event) (t : Fin numDevicesPerType), Reaches m (fun _ _ => True) k₀ h k →
    Serves k.bus termLine t e → step m k e = some k' → RightHalf m t k k' := by
  intro hall
  obtain ⟨h, k, hr, hq⟩ := exists_reaches (P := fun _ _ => True) demo blankKernel
    (Deliverable demo) [sys 8 7 0 0, terminalInterrupts 5 3]
    (fun _ k => servedDevice k.bus (irq 0x8000) = some (termLine, terminal0) ∧
      ¬ Pending (k.bus.devreg termLine terminal0).tTransmStatus ∧
      (step demo k (irq 0x8000)).any fun k' =>
        k'.mem ((transmitter terminal0).sem demo) ≠ k.mem ((transmitter terminal0).sem demo))
    (fun _ _ hok => ⟨hok, trivial⟩) (by decide +kernel)
  obtain ⟨hserved, hnot, hstep⟩ := of_decide_eq_true hq
  obtain ⟨k', hk, hne⟩ := (Option.any_eq_true _ _).mp hstep
  have hright := hall demo blankKernel h k k' _ terminal0 hr
    (servedDevice_eq_some_iff.mp hserved) hk
  exact of_decide_eq_true hne (hright.transmits hnot).1

end Kaya
