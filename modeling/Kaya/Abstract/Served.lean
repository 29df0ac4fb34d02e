import Kaya.Abstract.Clock

/-!
# Interrupts that are served

No interrupt is left without a handler, and the handler of the interval timer finds as many
processes as the semaphore of the clock is below zero.
-/

namespace Kaya

open Function Linked

variable {m : Machine} {a a' : Nuc} {e : Event}

lemma determineLineLoop_lt {causeReg lineOn : Word} {n i lineNum : Nat}
    (h : determineLineLoop causeReg n i lineOn = some lineNum) : lineNum < i + n := by
  induction n generalizing i lineOn with
  | zero => cases h
  | succ n ih =>
    unfold determineLineLoop at h
    split at h
    · obtain rfl := Option.some.inj h
      omega
    · have := ih h
      omega

lemma determineLine_lt {causeReg : Word} {lineNum : Nat}
    (h : determineLine causeReg = some lineNum) : lineNum < numLines := by
  simpa using determineLineLoop_lt h

lemma determineDeviceLoop_lt {devBitMap deviceOn : Word} {n j devNum : Nat}
    (h : determineDeviceLoop devBitMap n j deviceOn = some devNum) : devNum < j + n := by
  induction n generalizing j deviceOn with
  | zero => cases h
  | succ n ih =>
    unfold determineDeviceLoop at h
    split at h
    · obtain rfl := Option.some.inj h
      omega
    · have := ih h
      omega

lemma determineDevice_lt {devBitMap : Word} {devNum : Nat}
    (h : determineDevice devBitMap = some devNum) : devNum < numDevicesPerType := by
  simpa using determineDeviceLoop_lt h

lemma exists_deviceLine {lineNum : Nat} (hpos : 0 < lineNum) (hlt : lineNum < numLines)
    (hplt : lineNum ≠ pltLine) (hit : lineNum ≠ itLine) :
    ∃ line, deviceLine lineNum = some line := by
  unfold numLines at hlt
  unfold pltLine at hplt
  unfold itLine at hit
  unfold deviceLine
  rw [dif_pos]
  · exact ⟨_, rfl⟩
  · unfold initialDevLineNum devIntNum
    omega

namespace Nuc

lemma clockSem_step_balanced (hg : a.Good) (hrun : FromProcess e → a.cpu.IsRunning)
    (hsafe : a.Safe m e) (hstep : a.step m e = some a') (hw : ∀ v, e ≠ .writeInt m.clock v)
    (hbal : (a.clockSem m).Balanced) : (a'.clockSem m).Balanced := by
  obtain ⟨x, hx, hsem⟩ := sem_step hg hrun hsafe hstep m.clock
  unfold bereaved at hsem
  rw [if_neg (show ¬ m.IsDeviceSem m.clock from Machine.not_isDeviceSem_clock)] at hsem
  have hx' : x.Balanced := by
    cases hx with
    | verhogen h => exact hbal.verhogen
    | deviceDone h => exact hbal.verhogen
    | passeren p hc h => exact hbal.passeren p
    | tick h _ =>
      have hlen : (a.blocked m.clock).length = (-a.mem m.clock).toNat := hbal
      unfold Semaphore.Balanced
      dsimp only
      rw [← hlen, List.drop_length]
      rfl
    | write v h => exact absurd h (hw v)
    | idle => exact hbal
  change (a'.books.sem m.clock).Balanced
  rw [hsem]
  exact hx'.withdraw _

/-- The handler of the interval timer wakes nobody that is not there. -/
lemma itInterrupt_of_balanced (hbal : (a.clockSem m).Balanced) :
    ∃ a', a.itInterrupt m = some a' := by
  have hlen : (a.blocked m.clock).length = (-a.mem m.clock).toNat := hbal
  unfold itInterrupt
  change ∃ a', (if (-a.mem m.clock).toNat ≤ (a.blocked m.clock).length then some _ else none) =
    some a'
  rw [if_pos hlen.ge]
  exact ⟨_, rfl⟩

lemma itInterrupt_pTotalTime (h : a.itInterrupt m = some a') : a'.pTotalTime = a.pTotalTime := by
  unfold itInterrupt at h
  dsimp only at h
  split at h
  · obtain rfl := Option.some.inj h
    rfl
  · cases h

lemma deviceInterrupt_pTotalTime (line : Fin devIntNum) (devNum : Fin numDevicesPerType) :
    (a.deviceInterrupt m line devNum).pTotalTime = a.pTotalTime := by
  unfold deviceInterrupt deliver acknowledge store
  dsimp only
  split_ifs
  · split <;> rfl
  · rfl

end Nuc

end Kaya
