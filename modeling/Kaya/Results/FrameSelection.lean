import Kaya.Support.Words

/-!
# The frames that `findFrame` chooses

The counter of `findFrame` is an `int` that is never reset. After `2 ^ 31` faults it is negative,
and the remainder of a negative number is no index.
-/

namespace Kaya.Support

/-- The index that is returned and the static variable afterwards. -/
def findFrame (nextFrame : Word) : Word × Word :=
  let nextFrame := nextFrame + 1
  (nextFrame.srem (BitVec.ofNat 32 poolSize), nextFrame)

/-- The static variable after `k` calls. -/
def nextFrameAfter : ℕ → Word
  | 0 => 0
  | k + 1 => (findFrame (nextFrameAfter k)).2

/-- The index that is chosen after `k` other calls. -/
def chosen (k : ℕ) : Word := (findFrame (nextFrameAfter k)).1

/-- The index of a frame. -/
def IsFrame (frameNum : Word) : Prop := 0 ≤ frameNum.toInt ∧ frameNum.toInt < poolSize

namespace Board

variable {n : Nat}

/-- `getFrameAddr` of any `int`. -/
def frameAddrOf (b : Board n) (frameNum : Word) : Word := b.framePoolStart + frameNum * pageSize

/-- A page of the pool below the three topmost pages. -/
def InPool (b : Board n) (addr : Word) : Prop :=
  addr.toNat % 4096 = 0 ∧ b.ramtop.toNat - (poolSize + 3) * 4096 ≤ addr.toNat ∧
    addr.toNat + 4096 ≤ b.ramtop.toNat - 3 * 4096

end Board

variable {n k : ℕ}

/-- As long as the remainder is not negative, `findFrame` returns the frame of the runs. -/
theorem findFrame_eq_iff {nextFrame : Word} {f : Fin poolSize} :
    findFrame nextFrame = (BitVec.ofNat 32 f, nextFrame + 1) ↔
      frameOf (nextFrame + 1) = some f := by
  have hf : f.val < 6 := f.isLt
  have hlow : (BitVec.ofNat 32 f).toInt = f.val := by
    rw [BitVec.toInt_eq_toNat_bmod, BitVec.toNat_ofNat, Int.bmod_def]
    split_ifs <;> omega
  have hrem : (findFrame nextFrame).1.toInt = (nextFrame + 1).toInt.tmod poolSize := by
    unfold findFrame
    dsimp only
    rw [BitVec.toInt_srem]
    rfl
  rw [frameOf_eq_some_iff, ← hrem, ← hlow, BitVec.toInt_inj]
  constructor
  · intro h
    rw [h]
  · intro h
    exact Prod.ext h rfl

lemma nextFrameAfter_eq (k : ℕ) : nextFrameAfter k = BitVec.ofNat 32 k := by
  induction k with
  | zero => rfl
  | succ k ih =>
    rw [nextFrameAfter, ih]
    change BitVec.ofNat 32 k + 1 = BitVec.ofNat 32 (k + 1)
    rw [BitVec.ofNat_add]
    rfl

lemma toInt_chosen (k : ℕ) : (chosen k).toInt = (BitVec.ofNat 32 (k + 1)).toInt.tmod 6 := by
  have hnext : nextFrameAfter k + 1 = BitVec.ofNat 32 (k + 1) := by
    rw [nextFrameAfter_eq, BitVec.ofNat_add]
    rfl
  unfold chosen findFrame
  dsimp only
  rw [hnext, BitVec.toInt_srem]
  rfl

lemma chosen_of_lt (h : (k + 1) % 2 ^ 32 < 2 ^ 31) :
    (chosen k).toInt = ((k + 1) % 2 ^ 32 % 6 : ℕ) := by
  have hint : (BitVec.ofNat 32 (k + 1)).toInt = ((k + 1) % 2 ^ 32 : ℕ) := by
    rw [BitVec.toInt_eq_toNat_bmod, BitVec.toNat_ofNat, Int.bmod_def]
    split_ifs <;> omega
  rw [toInt_chosen, hint, Int.tmod_eq_emod_of_nonneg (by omega)]
  omega

lemma chosen_of_ge (h : 2 ^ 31 ≤ (k + 1) % 2 ^ 32) :
    (chosen k).toInt = -((2 ^ 32 - (k + 1) % 2 ^ 32) % 6 : ℕ) := by
  have hint : (BitVec.ofNat 32 (k + 1)).toInt = -(2 ^ 32 - (k + 1) % 2 ^ 32 : ℕ) := by
    rw [BitVec.toInt_eq_toNat_bmod, BitVec.toNat_ofNat, Int.bmod_def]
    split_ifs <;> omega
  rw [toInt_chosen, hint, Int.neg_tmod, Int.tmod_eq_emod_of_nonneg (by omega)]
  omega

lemma isFrame_chosen_iff (k : ℕ) :
    IsFrame (chosen k) ↔ (k + 1) % 2 ^ 32 < 2 ^ 31 ∨ 6 ∣ 2 ^ 32 - (k + 1) % 2 ^ 32 := by
  unfold IsFrame
  have hsize : poolSize = 6 := rfl
  by_cases h : (k + 1) % 2 ^ 32 < 2 ^ 31
  · rw [chosen_of_lt h]
    omega
  · rw [chosen_of_ge (by omega)]
    omega

lemma inPool_frameAddrOf_iff (b : Board n) (k : ℕ) :
    b.InPool (b.frameAddrOf (chosen k)) ↔ IsFrame (chosen k) := by
  have hbound : -5 ≤ (chosen k).toInt ∧ (chosen k).toInt ≤ 5 := by
    by_cases h : (k + 1) % 2 ^ 32 < 2 ^ 31
    · rw [chosen_of_lt h]
      omega
    · rw [chosen_of_ge (by omega)]
      omega
  have hsize : poolSize = 6 := rfl
  have hroom := b.room
  have haligned := b.aligned
  have htop := b.ramtop.isLt
  have hstart : b.framePoolStart.toNat = b.ramtop.toNat - 36864 := by
    unfold Board.framePoolStart
    have hpool : (BitVec.ofNat 32 (poolSize + 3) * pageSize : Word).toNat = 36864 := by decide
    rw [BitVec.toNat_sub, hpool]
    omega
  have haddr : (b.frameAddrOf (chosen k)).toNat =
      (b.ramtop.toNat - 36864 + (chosen k).toNat * 4096) % 2 ^ 32 := by
    unfold Board.frameAddrOf
    rw [BitVec.toNat_add, BitVec.toNat_mul, hstart]
    change (_ + (chosen k).toNat * 4096 % 2 ^ 32) % 2 ^ 32 = _
    omega
  have hint := BitVec.toInt_eq_toNat_cond (chosen k)
  have hlt := (chosen k).isLt
  unfold Board.InPool IsFrame
  rw [haddr]
  split_ifs at hint <;> omega

/-- The index that the call number `k + 1` chooses is one of a frame, and its address a page of the
pool, exactly if the counter is not negative then or a multiple of the number of frames. The call
and the five after it choose six different frames exactly if the counter stays positive. -/
theorem findFrame_in_pool_iff (b : Board n) (k : ℕ) :
    (IsFrame (chosen k) ↔ (k + 1) % 2 ^ 32 < 2 ^ 31 ∨ 6 ∣ 2 ^ 32 - (k + 1) % 2 ^ 32) ∧
    (b.InPool (b.frameAddrOf (chosen k)) ↔
      (k + 1) % 2 ^ 32 < 2 ^ 31 ∨ 6 ∣ 2 ^ 32 - (k + 1) % 2 ^ 32) ∧
    ((∀ i < poolSize, IsFrame (chosen (k + i)) ∧
        ∀ j < poolSize, i ≠ j → chosen (k + i) ≠ chosen (k + j)) ↔
      (k + 1) % 2 ^ 32 + 5 < 2 ^ 31) := by
  refine ⟨isFrame_chosen_iff k, (inPool_frameAddrOf_iff b k).trans (isFrame_chosen_iff k), ?_⟩
  constructor
  · intro hall
    have hframe := fun i hi => (isFrame_chosen_iff (k + i)).mp (hall i hi).1
    by_contra hk
    by_cases hneg : 2 ^ 31 ≤ (k + 1) % 2 ^ 32
    · -- of two negative numbers in a row one is no multiple
      have h0 := (hframe 0 (by decide)).resolve_left (by rw [Nat.add_zero]; omega)
      rw [Nat.add_zero] at h0
      have hle := Nat.le_of_dvd (by omega) h0
      have hnext : (k + 1 + 1) % 2 ^ 32 = (k + 1) % 2 ^ 32 + 1 := by omega
      have h1 := (hframe 1 (by decide)).resolve_left (by omega)
      rw [hnext] at h1
      omega
    · -- the least number of all is no multiple
      obtain ⟨i, hi⟩ : ∃ i, (k + 1) % 2 ^ 32 + i = 2 ^ 31 := ⟨2 ^ 31 - (k + 1) % 2 ^ 32, by omega⟩
      have hmin : (k + i + 1) % 2 ^ 32 = 2 ^ 31 := by omega
      have hframe := hframe i (show i < 6 by omega)
      rw [hmin] at hframe
      omega
  · intro hk i hi
    have hsize : poolSize = 6 := rfl
    have hpos : ∀ j < poolSize, (k + j + 1) % 2 ^ 32 < 2 ^ 31 := by
      intro j hj
      omega
    refine ⟨(isFrame_chosen_iff _).mpr (.inl (hpos i hi)), ?_⟩
    intro j hj hij heq
    have hint := congrArg BitVec.toInt heq
    rw [chosen_of_lt (hpos i hi), chosen_of_lt (hpos j hj)] at hint
    omega

/-- After `2 ^ 31 - 1` faults the next one takes the frame number `-2`, below the pool. -/
theorem findFrame_below_pool :
    ¬ ∀ (b : Board 2) (k : ℕ), IsFrame (chosen k) ∧ b.InPool (b.frameAddrOf (chosen k)) := by
  intro hall
  have hframe := (isFrame_chosen_iff _).mp (hall twoProcesses (2 ^ 31 - 1)).1
  omega

end Kaya.Support
