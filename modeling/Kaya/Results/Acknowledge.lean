import Kaya.Abstract.Request
import Kaya.Nucleus.Devices
import Kaya.Refine.Runs

/-!
# Acknowledgements

The device branch acknowledges an interrupt exactly when it takes it for the device, or the half of
a terminal, that has it pending, and the semaphore of this device was below zero. Otherwise the
interrupt stays pending, and the next time the same completion is serviced again.
-/

namespace Kaya

open Function Linked

variable {m : Machine} {k k' k₀ : Kernel} {e : Event} {h : History} {line : Fin devIntNum}
  {devNum : Fin numDevicesPerType} {d : SubDevice}

/-- The device has the interrupt that is served with this register. On a terminal the transmitter
comes before the receiver. -/
def SubDevice.Due (d : SubDevice) (reg : Device) : Prop :=
  d.Interrupts reg ∧ (d.receive = true → ¬ Pending reg.tTransmStatus)

instance (d : SubDevice) (reg : Device) : Decidable (d.Due reg) :=
  inferInstanceAs (Decidable (_ ∧ _))

/-- `ACK` for the device. -/
def SubDevice.ackCommand (d : SubDevice) : Command :=
  ⟨d.line, d.devNum, d.line.val + initialDevLineNum = termInt ∧ ¬ d.receive, ack⟩

/-- The transition services an interrupt of the device. -/
def Services (d : SubDevice) (t : Kernel × Event × Kernel) : Prop :=
  Serves t.1.bus d.line d.devNum t.2.1 ∧ d.Due (t.1.bus.devreg d.line d.devNum)

instance (d : SubDevice) (t : Kernel × Event × Kernel) : Decidable (Services d t) :=
  inferInstanceAs (Decidable (_ ∧ _))

/-- The handler takes an interrupt for one of the device, and the semaphore is below zero. -/
def Awaited (m : Machine) (d : SubDevice) (k : Kernel) : Prop :=
  d.Taken (k.bus.devreg d.line d.devNum) ∧ k.mem (d.sem m) < 0

instance (m : Machine) (d : SubDevice) (k : Kernel) : Decidable (Awaited m d k) :=
  inferInstanceAs (Decidable (_ ∧ _))

/-- An interrupt of the device is serviced, and again before it has been acknowledged. -/
def History.ServicesTwice (h : History) (d : SubDevice) : Prop :=
  ∃ l t l' t' l'', h = l ++ ([t] ++ l') ++ [t'] ++ l'' ∧ Services d t ∧ Services d t' ∧
    ∀ u ∈ [t] ++ l', ¬ Gives u.1 u.2.2 d.ackCommand

lemma not_gives_of_sameDevices {c : Command} (h : SameDevices k k') : ¬ Gives k k' c := by
  intro hg
  simpa using hg.1.symm.trans h.2

lemma gives_iff (hs : Serves k.bus line devNum e) (hk : step m k e = some k') (transm : Bool) :
    Gives k k' ⟨line, devNum, transm, ack⟩ ↔
      k.mem (deviceSem m line devNum (k.bus.devreg line devNum)) < 0 ∧
        transm = (ackCommand line devNum (k.bus.devreg line devNum)).transm := by
  have hgives := step_gives hs hk
  split_ifs at hgives with hv
  · constructor
    · intro h
      have hc := List.append_cancel_left (h.1.symm.trans hgives.1)
      exact ⟨hv, congrArg Command.transm (List.singleton_inj.mp hc)⟩
    · rintro ⟨-, rfl⟩
      exact hgives
  · exact ⟨fun h => absurd h (not_gives_of_sameDevices hgives), fun h => absurd h.1 hv⟩

lemma SubDevice.taken_iff_transm {reg : Device} :
    d.Taken reg ↔ d.ackCommand.transm = (Kaya.ackCommand d.line d.devNum reg).transm := by
  unfold Taken ackCommand Kaya.ackCommand
  dsimp only
  by_cases hterm : d.line.val + initialDevLineNum = termInt
  · rw [hterm]
    cases isReceive termInt reg <;> cases d.receive <;> simp
  · have hreceive : d.receive = false := by
      rw [Bool.eq_false_iff]
      exact fun hr => hterm (d.terminal hr)
    have hnot : isReceive (d.line.val + initialDevLineNum) reg = false := by
      simp [isReceive, hterm]
    simp [hterm, hreceive, hnot]

lemma gives_iff_awaited (hs : Serves k.bus d.line d.devNum e) (hk : step m k e = some k') :
    Gives k k' d.ackCommand ↔ Awaited m d k := by
  refine (gives_iff hs hk d.ackCommand.transm).trans ?_
  rw [← SubDevice.taken_iff_transm, and_comm]
  apply and_congr_right
  intro ht
  rw [SubDevice.deviceSem_eq_iff.mpr ht]

/-- In every run in which no semaphore leaves the range of an `int`: an interrupt is acknowledged,
to the device that has it and to no other, exactly if the handler takes it for one of this device
and the semaphore of the device was below zero. When this is so for every interrupt of the run, none
is serviced twice. -/
theorem interrupts_acknowledged (hr : Reaches m (fun k e => InRange m k.bus k.mem e) k₀ h k) :
    (∀ t ∈ h, ∀ d, Services d t → (Gives t.1 t.2.2 d.ackCommand ↔ Awaited m d t.1)) ∧
      ((∀ t ∈ h, ∀ d, Services d t → Awaited m d t.1) → ∀ d, ¬ h.ServicesTwice d) := by
  obtain ⟨k₁, -, hrun⟩ := hr
  have hiff : ∀ t ∈ h, ∀ d, Services d t → (Gives t.1 t.2.2 d.ackCommand ↔ Awaited m d t.1) :=
    fun t ht d hs => gives_iff_awaited hs.1 (hrun.step_of_mem ht)
  refine ⟨hiff, ?_⟩
  rintro hall d ⟨l, t, l', t', l'', rfl, hs, -, hnone⟩
  have ht : t ∈ l ++ ([t] ++ l') ++ [t'] ++ l'' := by simp
  exact hnone t (by simp) ((hiff t ht d hs).mpr (hall t ht d hs))

/-- The first disk. -/
def firstDisk : SubDevice := ⟨0, ⟨0, numDevicesPerType_pos⟩, false, by simp⟩

lemma services_disk {t : Kernel × Event × Kernel} (hs : Services d t)
    (hd : servedDevice t.1.bus t.2.1 = some (firstDisk.line, firstDisk.devNum)) :
    d = firstDisk := by
  obtain ⟨hline, hdev⟩ := Prod.mk.inj (Option.some.inj
    ((servedDevice_eq_some_iff.mpr hs.1).symm.trans hd))
  obtain ⟨line, devNum, receive, hterm⟩ := d
  obtain rfl : line = firstDisk.line := hline
  obtain rfl : devNum = firstDisk.devNum := hdev
  have hreceive : receive = false := by
    rw [Bool.eq_false_iff]
    exact fun h => absurd (hterm h) (by decide)
  subst hreceive
  rfl

/-- The initial process waits for the disk, and its interrupt is acknowledged. -/
theorem interrupts_acknowledged_disk : ∃ h k,
    Reaches demo (fun k e => InRange demo k.bus k.mem e) blankKernel h k ∧
    (∃ t ∈ h, Services firstDisk t ∧ Gives t.1 t.2.2 firstDisk.ackCommand) ∧
    ∀ d, ¬ h.ServicesTwice d := by
  obtain ⟨h, k, hr, hq⟩ := exists_reaches (P := fun k e => InRange demo k.bus k.mem e) demo
    blankKernel (fun k e => Deliverable demo k e ∧ InRange demo k.bus k.mem e)
    [sys 8 3 0 0, diskDone, irq 0x800]
    (fun h _ => (h.any fun t => Services firstDisk t) ∧ h.all fun t =>
      servedDevice t.1.bus t.2.1 = none ∨ Awaited demo firstDisk t.1 ∧
        servedDevice t.1.bus t.2.1 = some (firstDisk.line, firstDisk.devNum))
    (fun _ _ hok => hok) (by decide +kernel)
  obtain ⟨hany, hall⟩ := of_decide_eq_true hq
  obtain ⟨hiff, htwice⟩ := interrupts_acknowledged hr
  have hawaited : ∀ t ∈ h, ∀ d, Services d t → Awaited demo d t.1 := by
    intro t ht d hs
    rcases of_decide_eq_true (List.all_eq_true.mp hall t ht) with hnone | ⟨hawait, hserved⟩
    · rw [servedDevice_eq_some_iff.mpr hs.1] at hnone
      cases hnone
    · rw [services_disk hs hserved]
      exact hawait
  obtain ⟨t, ht, hs⟩ := List.any_eq_true.mp hany
  have hs := of_decide_eq_true hs
  exact ⟨h, k, hr, ⟨t, ht, hs, (hiff t ht _ hs).mpr (hawaited t ht _ hs)⟩, htwice hawaited⟩

/-- A child with the interrupts on runs when the disk interrupts and nobody waits for it. It gets
no acknowledgement, and the same completion is serviced again. -/
theorem unawaited_interrupt_not_acknowledged : ∃ h k,
    Reaches demo (fun k e => InRange demo k.bus k.mem e) blankKernel h k ∧
    (∃ t ∈ h, Services firstDisk t ∧ ¬ Gives t.1 t.2.2 firstDisk.ackCommand) ∧
    h.ServicesTwice firstDisk ∧ k.mem (firstDisk.sem demo) = 2 := by
  obtain ⟨h, k, hr, hq⟩ := exists_reaches (P := fun k e => InRange demo k.bus k.mem e) demo
    blankKernel (fun k e => Deliverable demo k e ∧ InRange demo k.bus k.mem e)
    [sys 1 0x20030000 0 0, sys 4 0x20040000 0 0, diskDone, irq 0x800, irq 0x800]
    (fun h k => match h with
      | [_, _, _, t, t'] => t.1.cpu = .running openState ∧ Services firstDisk t ∧
          Services firstDisk t' ∧ t.2.2.commands = t.1.commands ∧ k.mem (firstDisk.sem demo) = 2
      | _ => false)
    (fun _ _ hok => hok) (by decide +kernel)
  split at hq
  · rename_i t₁ t₂ t₃ t t'
    obtain ⟨-, hs, hs', hsame, hmem⟩ := of_decide_eq_true hq
    have hnone : ¬ Gives t.1 t.2.2 firstDisk.ackCommand := fun hg => by
      simpa using hg.1.symm.trans hsame
    refine ⟨_, k, hr, ⟨t, by simp, hs, hnone⟩, ⟨[t₁, t₂, t₃], t, [], t', [], rfl, hs, hs', ?_⟩,
      hmem⟩
    simpa using hnone
  · cases hq

end Kaya
