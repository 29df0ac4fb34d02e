import Kaya.Lib.Register
import Kaya.Results.CpuTime

/-!
# Elapsed time

The TOD clock counts ticks without end, `STCK` reads its low word as a signed number and divides
it by the time scale. What a turn is charged is the difference of two such readings.
-/

namespace Kaya

open Function Linked

/-- TOD-LO at a tick. -/
def todLo (t : ℕ) : Word := BitVec.ofNat 32 t

/-- The time between two ticks in units of the scale `s`, as far as a word can tell. -/
def elapsed (s : ℤ) (t₀ t₁ : ℕ) : Word := BitVec.ofInt 32 (t₁ / s - t₀ / s)

variable {m : Machine} {k k₀ k₁ : Kernel} {p : PcbIx} {s : ℤ} {t₀ t₁ : ℕ}

lemma toInt_todLo (t : ℕ) : (todLo t).toInt = shown (2 ^ 31) t := by
  unfold todLo shown passes
  rw [BitVec.toInt_eq_toNat_bmod, BitVec.toNat_ofNat, Int.bmod_def]
  split_ifs <;> omega

lemma ofInt_eq_ofInt_iff (x y : ℤ) :
    BitVec.ofInt 32 x = BitVec.ofInt 32 y ↔ 2 * 2 ^ 31 ∣ y - x := by
  rw [← BitVec.toInt_inj, BitVec.toInt_ofInt, BitVec.toInt_ofInt, eq_comm,
    Int.bmod_eq_bmod_iff_bmod_sub_eq_zero, ← Int.dvd_iff_bmod_eq_zero]
  norm_num

lemma reading_eq {i : ℕ} (h : m.tod i = todLo t₀) :
    m.reading i = BitVec.ofInt 32 ((shown (2 ^ 31) t₀).tdiv m.timescale.toInt) := by
  apply BitVec.eq_of_toInt_eq
  unfold Machine.reading
  rw [h, BitVec.toInt_sdiv, BitVec.toInt_ofInt, toInt_todLo]

lemma reading_sub_eq_iff {i j : ℕ} (hs : 0 < m.timescale.toInt) (hle : t₀ ≤ t₁)
    (hlt : t₁ - t₀ < 2 ^ 31) (h₀ : m.tod i = todLo t₀) (h₁ : m.tod j = todLo t₁) :
    m.reading j - m.reading i = elapsed m.timescale.toInt t₀ t₁ ↔
      Agrees (2 ^ 31) m.timescale.toInt t₀ t₁ := by
  have hs' : m.timescale.toInt < 2 ^ 31 := by
    have hlt := BitVec.toInt_lt (x := m.timescale)
    simpa using hlt
  rw [← sub_tdiv_congr_iff (by norm_num) hs hs' (by omega) (by omega), reading_eq h₀, reading_eq h₁,
    ← ofInt_sub]
  unfold elapsed
  rw [ofInt_eq_ofInt_iff]

lemma scheduler_processStartTime (h : scheduler m k₀ = some k₁)
    (hrun : k₁.currentProcess = some p) : k₁.processStartTime = m.reading k₀.todReads := by
  unfold scheduler at h
  obtain ⟨⟨newProcess, readyQ, procs⟩, -, h⟩ := Option.bind_eq_some_iff.mp h
  cases newProcess with
  | none =>
    dsimp only at h
    split_ifs at h
    all_goals
      obtain rfl := Option.some.inj h
      cases hrun
  | some q =>
    obtain rfl := Option.some.inj h
    rfl

lemma incrementProcessTime_total (hcur : k.currentProcess = some p) :
    ∃ k', incrementProcessTime m k.currentProcess k = some k' ∧
      k'.procs.pTotalTime p =
        k.procs.pTotalTime p + (m.reading k.todReads - k.processStartTime) := by
  rw [hcur]
  refine ⟨_, rfl, ?_⟩
  simp [Machine.reading]

lemma getCpuTime_v0 (hcur : k.currentProcess = some p) :
    ∃ k', getCpuTime m k = some k' ∧ (k'.oldArea .syscall).sV0 =
      k.procs.pTotalTime p + (m.reading k.todReads - k.processStartTime) := by
  unfold getCpuTime
  rw [hcur]
  refine ⟨_, rfl, ?_⟩
  simp [Machine.reading, Kernel.setSyscallV0, State.setV0, State.sV0, loadState]

/-- For a turn that starts when the scheduler reads the clock at the tick `t₀`, and a time within
it at which the clock is read at `t₁`: what the turn is charged, and what SYS6 reports of it, is
the elapsed time exactly if the quotients agree. -/
theorem charge_eq_elapsed_iff (m : Machine) (hs : 0 < m.timescale.toInt) (t₀ t₁ : ℕ)
    (hle : t₀ ≤ t₁) (hlt : t₁ - t₀ < 2 ^ 31) (k₀ k₁ k : Kernel) (p : PcbIx)
    (hsched : scheduler m k₀ = some k₁) (hrun : k₁.currentProcess = some p)
    (h₀ : m.tod k₀.todReads = todLo t₀) (hcur : k.currentProcess = some p)
    (hturn : k.processStartTime = k₁.processStartTime) (h₁ : m.tod k.todReads = todLo t₁) :
    (∃ k', incrementProcessTime m k.currentProcess k = some k' ∧
      (k'.procs.pTotalTime p = k.procs.pTotalTime p + elapsed m.timescale.toInt t₀ t₁ ↔
        Agrees (2 ^ 31) m.timescale.toInt t₀ t₁)) ∧
    ∃ k', getCpuTime m k = some k' ∧
      ((k'.oldArea .syscall).sV0 =
          k.procs.pTotalTime p + elapsed m.timescale.toInt t₀ t₁ ↔
        Agrees (2 ^ 31) m.timescale.toInt t₀ t₁) := by
  have hstart : k.processStartTime = m.reading k₀.todReads :=
    hturn.trans (scheduler_processStartTime hsched hrun)
  have hiff := reading_sub_eq_iff hs hle hlt h₀ h₁
  rw [← hstart, ← BitVec.add_right_inj (k.procs.pTotalTime p)] at hiff
  obtain ⟨k', hk', htotal⟩ := incrementProcessTime_total (m := m) hcur
  obtain ⟨k'', hk'', hv0⟩ := getCpuTime_v0 (m := m) hcur
  rw [← htotal] at hiff
  exact ⟨⟨k', hk', hiff⟩, k'', hk'', by rw [hv0, ← htotal, hiff]⟩

/-- A nucleus with one ready process. -/
def oneReady : Kernel :=
  { blankKernel with
    readyQ := some 0
    procs := { blankKernel.procs with pNext := fun _ => some 0, pPrev := fun _ => some 0 } }

/-- Two ticks around `2 ^ 32`, on a machine with the time scale three. -/
def wrapping : Machine :=
  { demo with
    tod := fun i => if i = 0 then todLo (2 ^ 32 - 3) else todLo (2 ^ 32 + 4)
    timescale := 3 }

/-- The register comes back to zero within a turn of two units of time, which is charged them. -/
theorem charge_eq_elapsed_wrapping : ∃ k₁, scheduler wrapping oneReady = some k₁ ∧
    (∃ k', incrementProcessTime wrapping k₁.currentProcess k₁ = some k' ∧
      k'.procs.pTotalTime 0 = k₁.procs.pTotalTime 0 + 2) ∧
    ∃ k', getCpuTime wrapping k₁ = some k' ∧
      (k'.oldArea .syscall).sV0 = k₁.procs.pTotalTime 0 + 2 := by
  have hagrees : Agrees (2 ^ 31) wrapping.timescale.toInt (2 ^ 32 - 3 : ℕ) (2 ^ 32 + 4 : ℕ) := by
    decide
  have helapsed : elapsed wrapping.timescale.toInt (2 ^ 32 - 3) (2 ^ 32 + 4) = 2 := by decide
  obtain ⟨⟨k', hk', hcharge⟩, k'', hk'', hreport⟩ := charge_eq_elapsed_iff wrapping (by decide)
    (2 ^ 32 - 3) (2 ^ 32 + 4) (by decide) (by decide) oneReady _ _ 0 rfl rfl rfl rfl rfl rfl
  refine ⟨_, rfl, ⟨k', hk', ?_⟩, k'', hk'', ?_⟩
  · rw [← helapsed]
    exact hcharge.mpr hagrees
  · rw [← helapsed]
    exact hreport.mpr hagrees

/-- Two ticks around `2 ^ 31`, on a machine with the time scale two. -/
def passing : Machine :=
  { demo with
    tod := fun i => if i = 0 then todLo (2 ^ 31 - 2) else todLo (2 ^ 31)
    timescale := 2 }

/-- A turn of one unit of time, from two ticks before the register becomes negative, is charged
`1 - 2 ^ 31`. -/
theorem charge_wrong_when_passing :
    ¬ ∀ (m : Machine) (t₀ t₁ : ℕ), 0 < m.timescale.toInt → t₀ ≤ t₁ → t₁ - t₀ < 2 ^ 31 →
      ∀ (k₀ k₁ k : Kernel) (p : PcbIx), scheduler m k₀ = some k₁ → k₁.currentProcess = some p →
        m.tod k₀.todReads = todLo t₀ → k.currentProcess = some p →
        k.processStartTime = k₁.processStartTime → m.tod k.todReads = todLo t₁ →
        ∃ k', incrementProcessTime m k.currentProcess k = some k' ∧
          k'.procs.pTotalTime p = k.procs.pTotalTime p + elapsed m.timescale.toInt t₀ t₁ := by
  intro hall
  obtain ⟨k', hk', htotal⟩ := hall passing (2 ^ 31 - 2) (2 ^ 31) (by decide) (by decide) (by decide)
    oneReady _ _ 0 rfl rfl rfl rfl rfl rfl
  have heval := congrArg (Option.map fun k => k.procs.pTotalTime 0) hk'
  rw [Option.map_some, htotal] at heval
  revert heval
  decide

/-- Until the clock has come to `2 ^ 31` ticks for the first time every difference is right. -/
theorem reading_sub_eq_of_lt {i j : ℕ} (hs : 0 < m.timescale.toInt) (hle : t₀ ≤ t₁)
    (hlt : t₁ < 2 ^ 31) (h₀ : m.tod i = todLo t₀) (h₁ : m.tod j = todLo t₁) :
    m.reading j - m.reading i = elapsed m.timescale.toInt t₀ t₁ :=
  (reading_sub_eq_iff hs hle (by omega) h₀ h₁).mpr
    (.of_lt hs (by omega) (by omega) (by omega))

/-- Whenever the register becomes negative within a turn, the difference is wrong, for all time
scales from two to a third of the range. -/
theorem reading_sub_ne_of_jump {i j : ℕ} (hs : 1 < m.timescale.toInt)
    (hs3 : 3 * m.timescale.toInt ≤ 2 ^ 32) (hle : t₀ ≤ t₁) (hlt : t₁ - t₀ < 2 ^ 31)
    (hjump : passes (2 ^ 31) t₁ = passes (2 ^ 31) t₀ + 1) (h₀ : m.tod i = todLo t₀)
    (h₁ : m.tod j = todLo t₁) :
    m.reading j - m.reading i ≠ elapsed m.timescale.toInt t₀ t₁ := by
  intro heq
  exact not_agrees_of_jump hs (by omega) hjump
    ((reading_sub_eq_iff (by omega) hle hlt h₀ h₁).mp heq)

end Kaya
